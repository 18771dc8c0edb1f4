import Mathlib.Data.List.Forall2
import NoteSearch.Proofs.Cascade

/-!
# Searches as plans

A search plans first, with nothing but the cache and the source of schemas: it enhances its filters
and compiles them to a query, if it is not refused or a search for a text. Then it carries the plan
out, with nothing but the backend.
-/

namespace NoteSearch

inductive Search where
  | byTag (tag : String) (filters : List PropertyFilter) (options : QueryOptions)
  | advanced (conditions : List Condition) (mode : CombineMode) (options : QueryOptions)
  | tasks (task : TaskQuery) (options : QueryOptions)
  | journal (range : DateRange) (options : QueryOptions)
  | references (blockId : Int) (options : QueryOptions)
  | text (text : String)

/-- What is asked of the backend, if anything. -/
inductive Plan where
  | refuse (e : SearchError)
  | submit (q : QueryDescription)
  | find (text : String)

namespace Plan

def ofCompiled : Except SearchError QueryDescription → Plan
  | .error e => refuse e
  | .ok q => submit q

end Plan

namespace Search

variable {ω : Type}

def on (service : SearchService ω) : Search → SearchService.Answer ω SearchResponse
  | byTag tag filters options => service.searchByTag tag filters options
  | advanced conditions mode options => service.searchAdvanced conditions mode options
  | tasks task options => service.searchTasks task options
  | journal range options => service.searchJournal range options
  | references blockId options => service.searchReferences blockId options
  | text content => service.searchText content

/-- The part of a search that looks up schemas. -/
def plan (source : SchemaSource ω) : Search → StateM (Resolving ω) Plan
  | byTag tag filters options => do
    let enhanced ← Resolving.enhanceFilters source tag filters
    return .submit (.ofTag tag enhanced options)
  | advanced conditions mode options => do
    let enhanced ← Resolving.enhanceConditions source conditions
    return .ofCompiled (QueryDescription.ofConditions enhanced mode options)
  | tasks task options => return .submit (.ofTask task options)
  | journal range options => return .submit (.ofJournal range options)
  | references blockId options =>
    return .ofCompiled (QueryDescription.ofConditions [.reference blockId] .and options)
  | text content =>
    return if isBlankText content then .refuse (.invalidQuery .blankText)
      else .find (trimmed content)

end Search

def Resolving.outside {ω α : Type} (call : StateM ω α) : StateM (Resolving ω) α := fun s =>
  let (answer, world) := call s.world
  (answer, { s with world })

namespace SearchService

variable {ω : Type} (service : SearchService ω)

/-- The part of a search that asks the backend. -/
def carryOut : Plan → StateM ω (Except SearchError SearchResponse)
  | .refuse e => return .error e
  | .submit q => do
    match ← Cascade.execute service.backend q service.chain with
    | .error e => return .error e
    | .ok execution =>
      let results ← service.options.present service.backend execution.blocks
      return .ok ⟨results, some execution.used, execution.fallback⟩
  | .find text => do
    match ← service.backend.searchText text with
    | .error e => return .error e
    | .ok response =>
      let results ← service.options.present service.backend (Envelope.blocks response)
      return .ok ⟨results, none, false⟩

theorem run_eq (q : QueryDescription) :
    service.run q = Resolving.outside (service.carryOut (.submit q)) := by
  funext s
  simp only [run, Resolving.outside, carryOut, bind_apply]
  rcases Cascade.execute service.backend q service.chain s.world with ⟨e | execution, world⟩
  · rfl
  · rfl

theorem searchText_eq {text : String} (h : isBlankText text = false) :
    service.searchText text = Resolving.outside (service.carryOut (.find (trimmed text))) := by
  funext s
  simp only [searchText, h, Resolving.outside, carryOut, bind_apply]
  rcases service.backend.searchText (trimmed text) s.world with ⟨e | response, world⟩
  · rfl
  · rfl

end SearchService

namespace Search

variable {ω : Type}

theorem plan_advanced (source : SchemaSource ω) (conditions : List Condition) (mode : CombineMode)
    (options : QueryOptions) (s : Resolving ω) :
    (advanced conditions mode options).plan source s =
      let (enhanced, t) := Resolving.enhanceConditions source conditions s
      (.ofCompiled (QueryDescription.ofConditions enhanced mode options), t) := rfl

theorem plan_text (source : SchemaSource ω) (content : String) (s : Resolving ω) :
    (text content).plan source s =
      (if isBlankText content then .refuse (.invalidQuery .blankText) else .find (trimmed content),
        s) := rfl

/-- Every search plans and then carries out its plan. -/
theorem on_eq (service : SearchService ω) (x : Search) :
    x.on service =
      x.plan service.source >>= fun plan => Resolving.outside (service.carryOut plan) := by
  funext s
  rw [bind_apply]
  cases x with
  | byTag tag filters options => exact congrFun (service.run_eq _) _
  | advanced conditions mode options =>
    rw [plan_advanced]
    simp only [on, SearchService.searchAdvanced]
    rcases Resolving.enhanceConditions service.source conditions s with ⟨enhanced, t⟩
    cases enhanced with
    | nil => rfl
    | cons condition conditions => exact congrFun (service.run_eq _) t
  | tasks task options => exact congrFun (service.run_eq _) _
  | journal range options => exact congrFun (service.run_eq _) _
  | references blockId options => exact congrFun (service.run_eq _) _
  | text content =>
    cases h : isBlankText content
    · simp only [on, service.searchText_eq h, plan, h]
      rfl
    · simp only [on, SearchService.searchText, plan, h]
      rfl

end Search

/-- Both fail alike, or both succeed with related answers. -/
inductive Agree {α : Type} (A : α → α → Prop) :
    Except SearchError α → Except SearchError α → Prop
  | error (e : SearchError) : Agree A (.error e) (.error e)
  | ok {a a' : α} (h : A a a') : Agree A (.ok a) (.ok a')

theorem Agree.meet {α : Type} {A : α → α → Prop} {x y z : Except SearchError α}
    (hA : ∀ a b c, A a c → A b c → A a b) (hx : Agree A x z) (hy : Agree A y z) : Agree A x y := by
  cases hx with
  | error e =>
    cases hy
    exact .error e
  | ok ha =>
    obtain _ | hb := hy
    exact .ok (hA _ _ _ ha hb)

/-- Responses in the same shape whose results are related one by one. -/
structure SearchResponse.Related (A : SearchResult → SearchResult → Prop)
    (r r' : SearchResponse) : Prop where
  results : List.Forall₂ A r.results r'.results
  shapeUsed : r.shapeUsed = r'.shapeUsed
  fallback : r.fallback = r'.fallback

theorem SearchResponse.eq_of_agree {x y : Except SearchError SearchResponse}
    (h : Agree (SearchResponse.Related Eq) x y) : x = y := by
  cases h with
  | error e => rfl
  | @ok r r' h =>
    obtain ⟨results, shapeUsed, fallback⟩ := r
    obtain ⟨results', shapeUsed', fallback'⟩ := r'
    have hresults : results = results' := List.forall₂_eq_eq_eq ▸ h.results
    have hshape : shapeUsed = shapeUsed' := h.shapeUsed
    have hfallback : fallback = fallback' := h.fallback
    rw [hresults, hshape, hfallback]

/-- Plans of the same kind, whose queries and texts a backend answers alike in related states. -/
inductive Plan.Related {ω : Type} (R : ω → ω → Prop) (b : Backend ω) (chain : List WireShape) :
    Plan → Plan → Prop
  | refuse (e : SearchError) : Related R b chain (.refuse e) (.refuse e)
  | submit {q q' : QueryDescription}
      (h : ∀ shape ∈ chain, Option.Rel (fun x x' => Lockstep R Eq (b.query x) (b.query x'))
        (q.reshape? shape) (q'.reshape? shape)) : Related R b chain (.submit q) (.submit q')
  | find {text : String} (h : Lockstep R Eq (b.searchText text) (b.searchText text)) :
      Related R b chain (.find text) (.find text)

structure Resolving.Related {ω : Type} (R : ω → ω → Prop) (C : SchemaCache → SchemaCache → Prop)
    (s s' : Resolving ω) : Prop where
  world : R s.world s'.world
  cache : C s.cache s'.cache

namespace ResultOptions

/-- The outline that a fetched tree has; none if nothing is fetched. -/
def outlineOf (options : ResultOptions) : Except SearchError (Option BlockTree) → Option String
  | .ok (some tree) => some (tree.render options.treeMaxBlocks options.treeMaxDepth)
  | _ => none

theorem outline?_eq {ω : Type} (b : Backend ω) (options : ResultOptions) (id : Int) (s : ω) :
    options.outline? b id s = (options.outlineOf (b.tree id s).1, (b.tree id s).2) := by
  unfold outline?
  rcases b.tree id s with ⟨e | tree?, t⟩
  · rfl
  · cases tree? <;> rfl

end ResultOptions

namespace Lockstep

variable {ω : Type} {R : ω → ω → Prop}

theorem outside {α : Type} {A : α → α → Prop} {m m' : StateM ω α} (h : Lockstep R A m m')
    (C : SchemaCache → SchemaCache → Prop) :
    Lockstep (Resolving.Related R C) A (Resolving.outside m) (Resolving.outside m') := by
  intro s s' hs
  obtain ⟨hanswer, hworld⟩ := h s.world s'.world hs.world
  exact ⟨hanswer, hworld, hs.cache⟩

variable {A : SearchResult → SearchResult → Prop}

theorem presentOne {b : Backend ω} (options : ResultOptions)
    {T : Except SearchError (Option BlockTree) → Except SearchError (Option BlockTree) → Prop}
    (htree : ∀ id, Lockstep R T (b.tree id) (b.tree id)) (hrefl : ∀ r, A r r)
    (houtline : ∀ (block : Block) (tree tree' : Except SearchError (Option BlockTree)),
      T tree tree' →
        A (block.toResult (options.outlineOf tree)) (block.toResult (options.outlineOf tree')))
    (block : Block) :
    Lockstep R A (options.presentOne b block) (options.presentOne b block) := by
  intro s s' hs
  by_cases hfull : options.includeFullContent
  · obtain ⟨hanswer, hnext⟩ := htree block.id s s' hs
    simp only [ResultOptions.presentOne, if_pos hfull, ResultOptions.outline?_eq]
    exact ⟨houtline block _ _ hanswer, hnext⟩
  · simp only [ResultOptions.presentOne, if_neg hfull]
    exact ⟨hrefl _, hs⟩

theorem presentAll {b : Backend ω} {options : ResultOptions}
    (h : ∀ block, Lockstep R A (options.presentOne b block) (options.presentOne b block))
    (blocks : List Block) :
    Lockstep R (List.Forall₂ A) (options.presentAll b blocks) (options.presentAll b blocks) := by
  induction blocks with
  | nil => exact fun s s' hs => ⟨.nil, hs⟩
  | cons block blocks ih =>
    intro s s' hs
    obtain ⟨hresult, ht⟩ := h block s s' hs
    obtain ⟨hresults, hu⟩ := ih _ _ ht
    exact ⟨.cons hresult hresults, hu⟩

theorem carryOut {service : SearchService ω} {p p' : Plan}
    (hp : p.Related R service.backend service.chain p')
    (hblock : ∀ block, Lockstep R A (service.options.presentOne service.backend block)
      (service.options.presentOne service.backend block)) :
    Lockstep R (Agree (SearchResponse.Related A)) (service.carryOut p) (service.carryOut p') := by
  have hpresent (blocks : List Block) := presentAll hblock (service.options.limited blocks)
  cases hp with
  | refuse e => exact .pure (.error e)
  | submit hq =>
    apply Lockstep.bind (Lockstep.submit service.chain hq _ _)
    rintro outcome _ rfl
    cases outcome with
    | error e => exact .pure (.error e)
    | ok execution =>
      apply Lockstep.bind (hpresent execution.blocks)
      exact fun results results' h => .pure (.ok ⟨h, rfl, rfl⟩)
  | find htext =>
    apply Lockstep.bind htext
    rintro answer _ rfl
    cases answer with
    | error e => exact .pure (.error e)
    | ok response =>
      apply Lockstep.bind (hpresent (Envelope.blocks response))
      exact fun results results' h => .pure (.ok ⟨h, rfl, rfl⟩)

end Lockstep
end NoteSearch
