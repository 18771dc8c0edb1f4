import NoteSearch.Proofs.Search

/-!
# Dedicated searches

A search for a tag, for tasks of any date, for journal entries or for references asks for one
condition. It plans what the search by that single condition plans: the same query, after the same
lookups, with the same cache left behind. So the two cannot be told apart by any backend or source.
-/

namespace NoteSearch
namespace Search

/-- The search by conditions that asks for the same, if there is one. -/
def byConditions? : Search → Option Search
  | byTag tag filters options => some (advanced [.tag tag filters] .and options)
  | advanced conditions mode options => some (advanced conditions mode options)
  | tasks ⟨completed, none⟩ options => some (advanced [.task completed] .and options)
  | tasks ⟨_, some _⟩ _ => none
  | journal range options => some (advanced [.journal range] .and options)
  | references blockId options => some (advanced [.reference blockId] .and options)
  | text _ => none

variable {ω : Type}

theorem plan_byTag (source : SchemaSource ω) (tag : String) (filters : List PropertyFilter)
    (options : QueryOptions) :
    (byTag tag filters options).plan source =
      (advanced [.tag tag filters] .and options).plan source := by
  funext s
  rw [plan_advanced]
  simp only [plan, bind_apply, Resolving.enhanceConditions, Resolving.enhanceCondition]
  rcases Resolving.enhanceFilters source tag filters s with ⟨enhanced, t⟩
  rfl

theorem plan_byConditions? {x y : Search} (h : x.byConditions? = some y)
    (source : SchemaSource ω) : x.plan source = y.plan source := by
  cases x with
  | byTag tag filters options =>
    cases h
    exact plan_byTag source tag filters options
  | advanced conditions mode options =>
    cases h
    rfl
  | tasks task options =>
    obtain ⟨completed, _ | range⟩ := task
    · cases h
      rfl
    · cases h
  | journal range options =>
    cases h
    rfl
  | references blockId options =>
    cases h
    rfl
  | text content => cases h

theorem on_byConditions? {x y : Search} (h : x.byConditions? = some y)
    (service : SearchService ω) : x.on service = y.on service := by
  rw [on_eq, on_eq, plan_byConditions? h]

end Search

/-- As functions of the cache and of the state that backend and source share, dedicated searches are
the searches by their one condition, whatever the backend, the source, the chain of shapes and the
options for results. Where the state keeps a record of the calls, the records are the same. -/
theorem SearchService.dedicated_eq_advanced {ω : Type} (service : SearchService ω)
    (options : QueryOptions) :
    (∀ tag filters, service.searchByTag tag filters options =
      service.searchAdvanced [.tag tag filters] .and options) ∧
    (∀ completed, service.searchTasks ⟨completed, none⟩ options =
      service.searchAdvanced [.task completed] .and options) ∧
    (∀ start finish, service.searchJournal ⟨start, finish⟩ options =
      service.searchAdvanced [.journal ⟨start, finish⟩] .and options) ∧
    (∀ blockId, service.searchReferences blockId options =
      service.searchAdvanced [.reference blockId] .and options) := by
  refine ⟨fun tag filters => ?_, fun completed => ?_, fun start finish => ?_, fun blockId => ?_⟩
  · exact Search.on_byConditions? (x := .byTag tag filters options) rfl service
  · exact Search.on_byConditions? (x := .tasks ⟨completed, none⟩ options) rfl service
  · exact Search.on_byConditions? (x := .journal ⟨start, finish⟩ options) rfl service
  · exact Search.on_byConditions? (x := .references blockId options) rfl service

end NoteSearch
