import Mathlib.Logic.Basic
import NoteSearch.Proofs.JsonData
import NoteSearch.Result.Projection

/-!
# Values of properties

Of all properties with one name, the first that has a value gives the value of a result: those of the
block itself come first, then those of the links that leave it, then those of the links that reach
it. Properties without a value hide nothing, and links that reach a block change none of the values
that come from elsewhere.
-/

namespace NoteSearch

namespace Json

theorem mem_of_lookup? {key : String} {value : Json} {fields : List (String × Json)}
    (h : lookup? key fields = some value) : (key, value) ∈ fields := by
  induction fields with
  | nil => cases h
  | cons f fields ih =>
    rw [lookup?] at h
    split_ifs at h with hkey
    · cases h
      exact hkey ▸ List.mem_cons_self
    · exact List.mem_cons_of_mem f (ih h)

/-- Each key stands once among ordered fields, so what stands under it is found. -/
theorem Ordered.mem_iff_lookup? {key : String} {value : Json} {fields : List (String × Json)}
    (h : Ordered fields) : (key, value) ∈ fields ↔ lookup? key fields = some value := by
  refine ⟨fun hmem => ?_, mem_of_lookup?⟩
  induction fields with
  | nil => cases hmem
  | cons f fields ih =>
    rcases List.mem_cons.mp hmem with rfl | hrest
    · rw [lookup?, if_pos rfl]
    · have hkey : f.1 ≠ key := fun heq =>
        String.lt_irrefl key (heq ▸ (List.pairwise_cons.mp h).1 (key, value) hrest)
      rw [lookup?, if_neg hkey, ih h.tail hrest]

end Json

namespace BlockProperty

variable {name : String} {value : Json} {p : BlockProperty} {ps : List BlockProperty}

/-- The property has this value under the name. Null is no value. -/
def Gives (name : String) (value : Json) (p : BlockProperty) : Prop :=
  p.name = name ∧ p.value = some value ∧ value ≠ .null

/-- The first of the properties with a value under the name has this one. -/
def FirstGives (name : String) (value : Json) (ps : List BlockProperty) : Prop :=
  ∃ before p after, ps = before ++ p :: after ∧ p.Gives name value ∧
    ∀ q ∈ before, ¬∃ other, q.Gives name other

def given? (p : BlockProperty) : Option Json := p.value.filter (· ≠ .null)

def valueUnder? (name : String) (p : BlockProperty) : Option Json :=
  if p.name = name then p.given? else none

theorem valueUnder?_eq_some_iff : p.valueUnder? name = some value ↔ p.Gives name value := by
  simp [valueUnder?, given?, Gives, Option.filter_eq_some_iff]

theorem valueUnder?_eq_none_iff : p.valueUnder? name = none ↔ ¬∃ value, p.Gives name value := by
  simp [Option.eq_none_iff_forall_ne_some, valueUnder?_eq_some_iff]

theorem findSome?_valueUnder?_eq_some_iff :
    ps.findSome? (valueUnder? name) = some value ↔ FirstGives name value ps := by
  simp only [List.findSome?_eq_some_iff, valueUnder?_eq_some_iff, valueUnder?_eq_none_iff,
    FirstGives]

theorem exists_findSome?_valueUnder?_iff :
    (∃ value, ps.findSome? (valueUnder? name) = some value) ↔
      ∃ p ∈ ps, ∃ value, p.Gives name value := by
  rw [← Option.ne_none_iff_exists', Ne, List.findSome?_eq_none_iff]
  simp only [valueUnder?_eq_none_iff, not_forall, not_not, exists_prop]

end BlockProperty

namespace Block

open BlockProperty

variable {values : List (String × Json)}

theorem addValue_eq (values : List (String × Json)) (p : BlockProperty) :
    addValue values p =
      match p.given? with
      | some value => Json.insertAbsent p.name value values
      | none => values := by
  unfold addValue given?
  rcases p.value with _ | _ | _ <;> rfl

theorem ordered_addValue (h : Json.Ordered values) (p : BlockProperty) :
    Json.Ordered (addValue values p) := by
  rw [addValue_eq]
  split
  · exact h.insertAbsent _ _
  · exact h

theorem lookup?_addValue (h : Json.Ordered values) (name : String) (p : BlockProperty) :
    Json.lookup? name (addValue values p) =
      (Json.lookup? name values).or (p.valueUnder? name) := by
  rw [addValue_eq, valueUnder?]
  cases p.given? with
  | none => simp
  | some value => exact h.lookup?_insertAbsent p.name name value

theorem ordered_foldl_addValue (h : Json.Ordered values) (ps : List BlockProperty) :
    Json.Ordered (ps.foldl addValue values) := by
  induction ps generalizing values with
  | nil => exact h
  | cons p ps ih => exact ih (ordered_addValue h p)

/-- Among the properties of a list the first that has a value counts. -/
theorem lookup?_foldl_addValue (h : Json.Ordered values) (name : String)
    (ps : List BlockProperty) :
    Json.lookup? name (ps.foldl addValue values) =
      (Json.lookup? name values).or (ps.findSome? (valueUnder? name)) := by
  induction ps generalizing values with
  | nil => simp
  | cons p ps ih =>
    rw [List.foldl_cons, ih (ordered_addValue h p), lookup?_addValue h, Option.or_assoc,
      List.findSome?_cons]
    cases p.valueUnder? name <;> rfl

theorem ordered_projectProperties (b : Block) : Json.Ordered b.projectProperties :=
  ordered_foldl_addValue .nil b.rankedProperties

theorem mem_projectProperties_iff {b : Block} {name : String} {value : Json} :
    (name, value) ∈ b.projectProperties ↔
      b.rankedProperties.findSome? (valueUnder? name) = some value := by
  rw [b.ordered_projectProperties.mem_iff_lookup?, projectProperties,
    lookup?_foldl_addValue .nil, Json.lookup?, Option.none_or]

theorem mem_rankedProperties_iff {b : Block} {p : BlockProperty} :
    p ∈ b.rankedProperties ↔
      p ∈ b.properties ∨ (∃ r ∈ b.refs, p ∈ r.data) ∨ ∃ r ∈ b.backRefs, p ∈ r.data := by
  simp [rankedProperties]

/-- What the block and the links that leave it give a value does not depend on other links. -/
theorem findSome?_rankedProperties {b : Block} {name : String} {p : BlockProperty}
    (hp : p ∈ b.properties ∨ ∃ r ∈ b.refs, p ∈ r.data) (hvalue : ∃ value, p.Gives name value) :
    b.rankedProperties.findSome? (valueUnder? name) =
      (b.properties ++ b.refs.flatMap BlockRef.data).findSome? (valueUnder? name) := by
  have hmem : p ∈ b.properties ++ b.refs.flatMap BlockRef.data := by simpa using hp
  obtain ⟨value, hfound⟩ := exists_findSome?_valueUnder?_iff.mpr ⟨p, hmem, hvalue⟩
  rw [rankedProperties, List.findSome?_append, hfound, Option.some_or]

/-- A name has a value exactly if some property gives it one, and its value is that of the first such
property. Whatever links reach the block, they do not change what the block and the links that leave
it give a value. -/
theorem projectProperties_first_given (b : Block) (name : String) :
    ((∃ value, (name, value) ∈ b.projectProperties) ↔
      ∃ p, (p ∈ b.properties ∨ (∃ r ∈ b.refs, p ∈ r.data) ∨ ∃ r ∈ b.backRefs, p ∈ r.data) ∧
        ∃ value, p.Gives name value) ∧
    (∀ value, (name, value) ∈ b.projectProperties ↔
      FirstGives name value
        (b.properties ++ b.refs.flatMap BlockRef.data ++ b.backRefs.flatMap BlockRef.data)) ∧
    ∀ backRefs p, (p ∈ b.properties ∨ ∃ r ∈ b.refs, p ∈ r.data) →
      (∃ value, p.Gives name value) →
        ∀ value, (name, value) ∈ { b with backRefs }.projectProperties ↔
          (name, value) ∈ b.projectProperties := by
  refine ⟨?_, ?_, ?_⟩
  · simp only [mem_projectProperties_iff, exists_findSome?_valueUnder?_iff,
      mem_rankedProperties_iff]
  · intro value
    rw [mem_projectProperties_iff, findSome?_valueUnder?_eq_some_iff]
    rfl
  · intro backRefs p hp hvalue value
    have hother : { b with backRefs }.rankedProperties.findSome? (valueUnder? name) =
        (b.properties ++ b.refs.flatMap BlockRef.data).findSome? (valueUnder? name) :=
      findSome?_rankedProperties hp hvalue
    rw [mem_projectProperties_iff, mem_projectProperties_iff, hother,
      findSome?_rankedProperties hp hvalue]

/-- A null of the block itself hides nothing, and links that reach the block change nothing. -/
theorem projectProperties_first_given_status :
    let status (value : Json) : BlockProperty := ⟨"status", none, some value, none⟩
    let link (value : Json) : BlockRef := ⟨none, none, none, 0, none, [status value]⟩
    let b : Block := { Block.bare 1 with
      properties := [status .null]
      refs := [link .null, link (.text "todo"), link (.text "open")]
      backRefs := [link (.text "done")] }
    ("status", .text "todo") ∈ b.projectProperties ∧
      ("status", .text "todo") ∈ { b with backRefs := [] }.projectProperties := by
  intro status link b
  have h := projectProperties_first_given b "status"
  have htodo : ("status", .text "todo") ∈ b.projectProperties :=
    (h.2.1 _).mpr ⟨[status .null, status .null], status (.text "todo"),
      [status (.text "open"), status (.text "done")], rfl, ⟨rfl, rfl, by decide⟩, by
        simp [status, Gives]⟩
  refine ⟨htodo, (h.2.2 [] (status (.text "todo")) (.inr ?_) ?_ _).mpr htodo⟩
  · exact ⟨link (.text "todo"), by simp [b], by simp [link]⟩
  · exact ⟨.text "todo", rfl, rfl, by decide⟩

end Block
end NoteSearch
