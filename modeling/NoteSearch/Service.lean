import NoteSearch.Backend.Cascade
import NoteSearch.Query.TaskQuery
import NoteSearch.Result.Presentation
import NoteSearch.Schema.Resolver
import NoteSearch.Wire.Compile

/-!
# The search service

Every search enhances its filters by the schema of their tag, compiles a query, submits it in the
cascade of wire shapes and presents the blocks that come back. Searches share nothing but the schema
cache and the state of the backend.
-/

namespace NoteSearch

/-- Text searches have no wire shape. -/
structure SearchResponse where
  results : List SearchResult
  shapeUsed : Option WireShape
  fallback : Bool
deriving DecidableEq, Repr

structure SearchService (ω : Type) where
  backend : Backend ω
  source : SchemaSource ω
  chain : List WireShape
  options : ResultOptions

namespace SearchService

abbrev Answer (ω α : Type) := StateM (Resolving ω) (Except SearchError α)

variable {ω : Type} (service : SearchService ω)

def standard (backend : Backend ω) (source : SchemaSource ω) : SearchService ω :=
  ⟨backend, source, Cascade.standard, .standard⟩

def run (q : QueryDescription) : Answer ω SearchResponse := fun s =>
  match Cascade.execute service.backend q service.chain s.world with
  | (.error e, world) => (.error e, { s with world })
  | (.ok execution, world) =>
    let (results, world) := service.options.present service.backend execution.blocks world
    (.ok ⟨results, some execution.used, execution.fallback⟩, { s with world })

def searchByTag (tag : String) (filters : List PropertyFilter) (options : QueryOptions) :
    Answer ω SearchResponse := fun s =>
  let (enhanced, s) := Resolving.enhanceFilters service.source tag filters s
  service.run (.ofTag tag enhanced options) s

def searchAdvanced (conditions : List Condition) (mode : CombineMode) (options : QueryOptions) :
    Answer ω SearchResponse := fun s =>
  let (enhanced, s) := Resolving.enhanceConditions service.source conditions s
  match QueryDescription.ofConditions enhanced mode options with
  | .error e => (.error e, s)
  | .ok q => service.run q s

def searchTasks (task : TaskQuery) (options : QueryOptions) : Answer ω SearchResponse :=
  service.run (.ofTask task options)

def searchJournal (range : DateRange) (options : QueryOptions) : Answer ω SearchResponse :=
  service.run (.ofJournal range options)

def searchReferences (blockId : Int) (options : QueryOptions) : Answer ω SearchResponse := fun s =>
  match QueryDescription.ofConditions [.reference blockId] .and options with
  | .error e => (.error e, s)
  | .ok q => service.run q s

/-- Blocks with a text; alias matches come before content matches. -/
def searchText (text : String) : Answer ω SearchResponse := fun s =>
  if isBlankText text then (.error (.invalidQuery .blankText), s)
  else
    match service.backend.searchText (trimmed text) s.world with
    | (.error e, world) => (.error e, { s with world })
    | (.ok response, world) =>
      let blocks := Envelope.blocks response
      let (results, world) := service.options.present service.backend blocks world
      (.ok ⟨results, none, false⟩, { s with world })

/-- The schema of a tag, from the cache if it is there. -/
def tagSchema (tag : String) : Answer ω TagSchema := Resolving.schema service.source tag

end SearchService

namespace Separate

def onFirst {α β γ : Type} (call : StateM α γ) : StateM (α × β) γ := fun s =>
  let (answer, a) := call s.1
  (answer, a, s.2)

def onSecond {α β γ : Type} (call : StateM β γ) : StateM (α × β) γ := fun s =>
  let (answer, b) := call s.2
  (answer, s.1, b)

def backend {α β : Type} (b : Backend α) : Backend (α × β) :=
  { query := fun q => onFirst (b.query q)
    searchText := fun text => onFirst (b.searchText text)
    tree := fun id => onFirst (b.tree id) }

def source {α β : Type} (s : SchemaSource β) : SchemaSource (α × β) :=
  { tagId := fun name => onSecond (s.tagId name)
    block := fun id => onSecond (s.block id)
    now := fun state => s.now state.2 }

end Separate

def SearchService.inMemory : SearchService (MemoryBackend × MemorySource) :=
  .standard (Separate.backend MemoryBackend.backend) (Separate.source MemorySource.source)

end NoteSearch
