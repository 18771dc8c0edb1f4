import NoteSearch.Query.Condition
import NoteSearch.Schema.Cache
import NoteSearch.Schema.Enhancement
import NoteSearch.Schema.Source

/-!
# Resolving schemas

A resolver answers from its cache where it can and asks its source otherwise. A lookup has three
steps: it checks the cache, fetches from the source, and stores what was fetched. Enhancing filters
never fails; without a schema they are used as written.
-/

namespace NoteSearch

/-- The cache, and the state of the world that sources and backends share. -/
structure Resolving (ω : Type) where
  cache : SchemaCache
  world : ω

namespace Resolving

variable {ω : Type} (source : SchemaSource ω)

def check (tag : String) (s : Resolving ω) : Option TagSchema :=
  s.cache.get? (source.now s.world) tag

def fetch (tag : String) : StateM (Resolving ω) (Except SearchError TagSchema) := fun s =>
  let (answer, world) := TagSchema.fetch source tag s.world
  (answer, { s with world })

def store (tag : String) (schema : TagSchema) (s : Resolving ω) : Resolving ω :=
  { s with cache := s.cache.insert (source.now s.world) tag schema }

/-- The schema from the cache, or else from the source. A failure leaves the cache as it is. -/
def schema (tag : String) : StateM (Resolving ω) (Except SearchError TagSchema) := fun s =>
  match s.check source tag with
  | some schema => (.ok schema, s)
  | none =>
    match fetch source tag s with
    | (.ok schema, s) => (.ok schema, s.store source tag schema)
    | (.error e, s) => (.error e, s)

def invalidate (tag : String) : StateM (Resolving ω) Bool := fun s =>
  let (found, cache) := s.cache.invalidate tag
  (found, { s with cache })

def clear : StateM (Resolving ω) Unit := fun s => ((), { s with cache := s.cache.clear })

/-- Filters as the schema of a tag means them. No filters need no schema. -/
def enhanceFilters (tag : String) (filters : List PropertyFilter) :
    StateM (Resolving ω) (List PropertyFilter) := fun s =>
  match filters with
  | [] => ([], s)
  | filters =>
    match schema source tag s with
    | (.ok schema, s) => (filters.map (PropertyFilter.enhance schema), s)
    | (.error _, s) => (filters, s)

/-- Only tag conditions with filters are changed. -/
def enhanceCondition (c : Condition) : StateM (Resolving ω) Condition := fun s =>
  match c with
  | .tag name properties =>
    let (enhanced, s) := enhanceFilters source name properties s
    (.tag name enhanced, s)
  | c => (c, s)

/-- Conditions are enhanced from the first to the last. -/
def enhanceConditions : List Condition → StateM (Resolving ω) (List Condition)
  | [] => pure []
  | c :: cs => do
    let enhanced ← enhanceCondition source c
    let others ← enhanceConditions cs
    return enhanced :: others

end Resolving
end NoteSearch
