import NoteSearch.Proofs.Search

/-!
# What planning a search does

Enhancing conditions changes nothing but the filters of tags, each in the state that the conditions
before it leave; where a schema cannot be found the filters stay as they are written. So a plan is
refused only if nothing is asked for, and the wire shapes that can hold its query do not depend on
schemas.
-/

namespace NoteSearch

/-- A condition without the filters that a schema may change. -/
def Condition.bare : Condition → Condition
  | tag name _ => tag name []
  | c => c

namespace Resolving

variable {ω : Type} (source : SchemaSource ω)

theorem enhanceConditions_cons (c : Condition) (cs : List Condition) (s : Resolving ω) :
    enhanceConditions source (c :: cs) s =
      ((enhanceCondition source c s).1 ::
          (enhanceConditions source cs (enhanceCondition source c s).2).1,
        (enhanceConditions source cs (enhanceCondition source c s).2).2) := rfl

theorem bare_enhanceCondition (c : Condition) (s : Resolving ω) :
    (enhanceCondition source c s).1.bare = c.bare := by
  cases c <;> rfl

theorem map_bare_enhanceConditions (cs : List Condition) :
    ∀ s : Resolving ω, (enhanceConditions source cs s).1.map Condition.bare =
      cs.map Condition.bare := by
  induction cs with
  | nil => exact fun s => rfl
  | cons c cs ih =>
    intro s
    rw [enhanceConditions_cons, List.map_cons, List.map_cons, bare_enhanceCondition, ih]

/-- Every condition is enhanced in the state that the conditions before it leave. -/
theorem getElem?_enhanceConditions (cs : List Condition) :
    ∀ (s : Resolving ω) (i : Nat), (enhanceConditions source cs s).1[i]? =
      cs[i]?.map fun c =>
        (enhanceCondition source c (enhanceConditions source (cs.take i) s).2).1 := by
  induction cs with
  | nil => exact fun s i => rfl
  | cons c cs ih =>
    intro s i
    rw [enhanceConditions_cons]
    cases i with
    | zero => rfl
    | succ i =>
      rw [List.getElem?_cons_succ, List.getElem?_cons_succ, ih, List.take_succ_cons,
        enhanceConditions_cons]

variable {source} {tag : String} {e : SearchError} {s : Resolving ω}

theorem enhanceFilters_of_error (h : (schema source tag s).1 = .error e)
    (filters : List PropertyFilter) : (enhanceFilters source tag filters s).1 = filters := by
  cases filters with
  | nil => rfl
  | cons f fs =>
    simp only [enhanceFilters]
    rcases hs : schema source tag s with ⟨answer, t⟩
    rw [hs] at h
    dsimp only at h
    rw [h]

/-- A condition stays as it is written unless it is a tag whose schema is found at its turn. -/
theorem enhanceConditions_of_error {conditions : List Condition} {c : Condition} {i : Nat}
    (hi : conditions[i]? = some c)
    (h : ∀ tag filters, c = .tag tag filters → ∃ e,
      (schema source tag (enhanceConditions source (conditions.take i) s).2).1 = .error e) :
    (enhanceConditions source conditions s).1[i]? = some c := by
  rw [getElem?_enhanceConditions, hi, Option.map_some, Option.some.injEq]
  cases c with
  | tag tag filters =>
    obtain ⟨e, he⟩ := h tag filters rfl
    exact congrArg (Condition.tag tag) (enhanceFilters_of_error he filters)
  | _ => rfl

theorem length_enhanceConditions (source : SchemaSource ω) (conditions : List Condition)
    (s : Resolving ω) : (enhanceConditions source conditions s).1.length = conditions.length := by
  simpa using congrArg List.length (map_bare_enhanceConditions source conditions s)

end Resolving

namespace Search

/-- Without a condition, or with a blank text. -/
def IsVoid : Search → Prop
  | advanced conditions _ _ => conditions = []
  | text content => isBlankText content = true
  | _ => False

variable {ω : Type} {x : Search}

theorem plan_of_isVoid (h : x.IsVoid) (source : SchemaSource ω) (s : Resolving ω) :
    ∃ fault, x.plan source s = (.refuse (.invalidQuery fault), s) := by
  cases x with
  | advanced conditions mode options =>
    have hnil : conditions = [] := h
    subst hnil
    exact ⟨.noConditions, rfl⟩
  | text content =>
    have hblank : isBlankText content = true := h
    exact ⟨.blankText, by rw [plan_text, if_pos hblank]⟩
  | _ => exact h.elim

theorem plan_of_not_isVoid (h : ¬x.IsVoid) (source : SchemaSource ω) (s : Resolving ω) :
    (∃ q, (x.plan source s).1 = .submit q) ∨ ∃ content, (x.plan source s).1 = .find content := by
  cases x with
  | advanced conditions mode options =>
    rw [plan_advanced]
    have hbare := Resolving.map_bare_enhanceConditions source conditions s
    rcases henhanced : Resolving.enhanceConditions source conditions s with ⟨enhanced, t⟩
    rw [henhanced] at hbare
    cases enhanced with
    | nil => exact absurd (List.map_eq_nil_iff.mp hbare.symm) h
    | cons c cs => exact .inl ⟨_, rfl⟩
  | text content =>
    have hblank : ¬isBlankText content = true := h
    rw [plan_text, if_neg hblank]
    exact .inr ⟨_, rfl⟩
  | _ => exact .inl ⟨_, rfl⟩

end Search

namespace QueryDescription

/-- Two queries that the same shapes can hold. -/
def SameShapes (q q' : QueryDescription) : Prop :=
  q.item.singleTag?.isSome = q'.item.singleTag?.isSome

theorem SameShapes.reshape? {q q' : QueryDescription} (h : q.SameShapes q') (shape : WireShape) :
    (q.reshape? shape).isSome = (q'.reshape? shape).isSome := by
  have htag : q.item.singleTag?.isSome = q'.item.singleTag?.isSome := h
  cases shape with
  | current => rfl
  | legacySingle => simpa [QueryDescription.reshape?, rootIn?] using htag
  | directTag => simpa [QueryDescription.reshape?, rootIn?] using htag

theorem exists_ofConditions {conditions : List Condition} (h : conditions ≠ []) (mode : CombineMode)
    (options : QueryOptions) : ∃ q, ofConditions conditions mode options = .ok q := by
  cases conditions with
  | nil => exact absurd rfl h
  | cons c cs => exact ⟨_, rfl⟩

theorem singleTag?_group (kind : GroupKind) (conditions : List Condition) :
    (WireItem.group kind (conditions.map Condition.compile)).singleTag?.isSome =
      match conditions.map Condition.bare with
      | [.tag _ _] => true
      | _ => false := by
  rcases conditions with _ | ⟨c, _ | ⟨d, cs⟩⟩
  · rfl
  · cases c <;> rfl
  · cases c <;> rfl

end QueryDescription

/-- Plans of the same kind whose queries the same shapes can hold. -/
inductive Plan.SameShapes : Plan → Plan → Prop
  | refuse (e : SearchError) : SameShapes (.refuse e) (.refuse e)
  | submit {q q' : QueryDescription} (h : q.SameShapes q') : SameShapes (.submit q) (.submit q')
  | find (text : String) : SameShapes (.find text) (.find text)

theorem Plan.sameShapes_ofConditions {conditions conditions' : List Condition}
    (h : conditions.map Condition.bare = conditions'.map Condition.bare) (mode : CombineMode)
    (options : QueryOptions) :
    (ofCompiled (QueryDescription.ofConditions conditions mode options)).SameShapes
      (ofCompiled (QueryDescription.ofConditions conditions' mode options)) := by
  rcases conditions with _ | ⟨c, cs⟩ <;> rcases conditions' with _ | ⟨c', cs'⟩
  · exact .refuse _
  · cases h
  · cases h
  · apply SameShapes.submit
    have hshape := QueryDescription.singleTag?_group (.ofMode mode) (c :: cs)
    rw [h, ← QueryDescription.singleTag?_group (.ofMode mode)] at hshape
    exact hshape

theorem Search.sameShapes_plan {ω : Type} (source : SchemaSource ω) (x : Search)
    (s s' : Resolving ω) : (x.plan source s).1.SameShapes (x.plan source s').1 := by
  cases x with
  | byTag tag filters options => exact .submit rfl
  | advanced conditions mode options =>
    apply Plan.sameShapes_ofConditions
    rw [Resolving.map_bare_enhanceConditions, Resolving.map_bare_enhanceConditions]
  | tasks task options => exact .submit rfl
  | journal range options => exact .submit rfl
  | references blockId options => exact .submit rfl
  | text content =>
    rw [plan_text, plan_text]
    by_cases hblank : isBlankText content = true
    · rw [if_pos hblank]
      exact .refuse _
    · rw [if_neg hblank]
      exact .find _

/-- A source whose calls keep a world as `P` says. -/
structure SchemaSource.Keeps {ω : Type} (source : SchemaSource ω) (P : ω → ω → Prop) : Prop where
  refl : ∀ w, P w w
  trans : ∀ {u v w}, P u v → P v w → P u w
  tagId : ∀ name w, P w (source.tagId name w).2
  block : ∀ id w, P w (source.block id w).2

namespace SchemaSource.Keeps

variable {ω : Type} {source : SchemaSource ω} {P : ω → ω → Prop}

theorem fetch (h : source.Keeps P) (tag : String) (w : ω) :
    P w (TagSchema.fetch source tag w).2 := by
  unfold TagSchema.fetch
  rw [bind_apply]
  have hid := h.tagId (schemaTagName tag) w
  rcases (source.tagId (schemaTagName tag) w).1 with e | _ | id
  · exact hid
  · exact hid
  · have hblock := h.trans hid (h.block id _)
    dsimp only
    rw [bind_apply]
    rcases (source.block id (source.tagId (schemaTagName tag) w).2).1 with e | _ | b
    · exact hblock
    · exact hblock
    · exact hblock

theorem schema (h : source.Keeps P) (tag : String) (s : Resolving ω) :
    P s.world (Resolving.schema source tag s).2.world := by
  have hfetch := h.fetch tag s.world
  unfold Resolving.schema Resolving.fetch
  rcases s.check source tag with _ | found
  · generalize TagSchema.fetch source tag s.world = fetched at hfetch ⊢
    rcases fetched with ⟨e | schema, w⟩
    · exact hfetch
    · exact hfetch
  · exact h.refl s.world

theorem enhanceFilters (h : source.Keeps P) (tag : String) (filters : List PropertyFilter)
    (s : Resolving ω) : P s.world (Resolving.enhanceFilters source tag filters s).2.world := by
  cases filters with
  | nil => exact h.refl s.world
  | cons f fs =>
    have hschema := h.schema tag s
    simp only [Resolving.enhanceFilters]
    generalize Resolving.schema source tag s = found at hschema ⊢
    rcases found with ⟨e | schema, t⟩
    · exact hschema
    · exact hschema

theorem enhanceConditions (h : source.Keeps P) (conditions : List Condition) :
    ∀ s : Resolving ω, P s.world (Resolving.enhanceConditions source conditions s).2.world := by
  induction conditions with
  | nil => exact fun s => h.refl s.world
  | cons c cs ih =>
    intro s
    have hcondition : P s.world (Resolving.enhanceCondition source c s).2.world := by
      cases c with
      | tag name properties => exact h.enhanceFilters name properties s
      | _ => exact h.refl s.world
    exact h.trans hcondition (ih _)

theorem plan (h : source.Keeps P) (x : Search) (s : Resolving ω) :
    P s.world (x.plan source s).2.world := by
  cases x with
  | byTag tag filters options => exact h.enhanceFilters tag filters s
  | advanced conditions mode options => exact h.enhanceConditions conditions s
  | _ => exact h.refl s.world

end SchemaSource.Keeps
end NoteSearch
