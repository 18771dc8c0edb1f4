import Mathlib.Tactic.SplitIfs
import NoteSearch.Json.Basic

/-!
# JSON values as data

Read as data, an object is a finite map: its keys have no order, and of a repeated key only the last
value counts. Two objects are the same data exactly when the same data is found under every key.
-/

namespace NoteSearch
namespace Json

/-- The same value up to the order and the repetitions of fields. -/
def Same (a b : Json) : Prop := a.canonical = b.canonical

/-- Keys in increasing order, each key once. -/
def Ordered (fields : List (String × Json)) : Prop := fields.Pairwise fun f g => f.1 < g.1

theorem lookup?_of_lt {key : String} {fields : List (String × Json)}
    (h : ∀ f ∈ fields, key < f.1) : lookup? key fields = none := by
  induction fields with
  | nil => rfl
  | cons f fields ih =>
    have hkey : f.1 ≠ key := by
      intro heq
      exact String.lt_irrefl key (heq ▸ h f List.mem_cons_self)
    rw [lookup?, if_neg hkey]
    exact ih fun g hg => h g (List.mem_cons_of_mem f hg)

namespace Ordered

variable {fields gields : List (String × Json)} {k : String} {v : Json}

theorem head_lt (h : Ordered ((k, v) :: fields)) : ∀ f ∈ fields, k < f.1 :=
  (List.pairwise_cons.mp h).1

theorem tail {f : String × Json} (h : Ordered (f :: fields)) : Ordered fields :=
  (List.pairwise_cons.mp h).2

/-- Keys before the first one are absent. -/
theorem lookup?_of_lt_head (h : Ordered ((k, v) :: fields)) {key : String} (hkey : key < k) :
    lookup? key ((k, v) :: fields) = none := by
  apply lookup?_of_lt
  intro f hf
  rcases List.mem_cons.mp hf with rfl | hf
  · exact hkey
  · exact String.lt_trans hkey (h.head_lt f hf)

theorem head_le (h : Ordered ((k, v) :: fields)) {key : String}
    (hkey : (lookup? key ((k, v) :: fields)).isSome) : k ≤ key := by
  apply String.not_lt.mp
  intro hlt
  rw [h.lookup?_of_lt_head hlt] at hkey
  cases hkey

theorem mem_insertAbsent {key : String} {value : Json} {f : String × Json}
    (hf : f ∈ insertAbsent key value fields) : f = (key, value) ∨ f ∈ fields := by
  induction fields with
  | nil => exact .inl (List.mem_singleton.mp hf)
  | cons g fields ih =>
    unfold insertAbsent at hf
    split_ifs at hf with hkey hlt
    · exact .inr hf
    · exact List.mem_cons.mp hf
    · rcases List.mem_cons.mp hf with rfl | hf
      · exact .inr List.mem_cons_self
      · exact (ih hf).imp_right (List.mem_cons_of_mem g)

theorem insertAbsent (h : Ordered fields) (key : String) (value : Json) :
    Ordered (insertAbsent key value fields) := by
  induction fields with
  | nil => exact List.pairwise_singleton _ _
  | cons g fields ih =>
    obtain ⟨k, v⟩ := g
    unfold Json.insertAbsent
    split_ifs with hkey hlt
    · exact h
    · refine List.pairwise_cons.mpr ⟨?_, h⟩
      intro f hf
      rcases List.mem_cons.mp hf with rfl | hf
      · exact hlt
      · exact String.lt_trans hlt (h.head_lt f hf)
    · refine List.pairwise_cons.mpr ⟨?_, ih h.tail⟩
      intro f hf
      rcases mem_insertAbsent hf with rfl | hf
      · exact Std.lt_of_le_of_ne (String.not_lt.mp hlt) (Ne.symm hkey)
      · exact h.head_lt f hf

theorem lookup?_insertAbsent (h : Ordered fields) (key k : String) (value : Json) :
    lookup? k (Json.insertAbsent key value fields) =
      (lookup? k fields).or (if key = k then some value else none) := by
  induction fields with
  | nil => rfl
  | cons g fields ih =>
    obtain ⟨l, w⟩ := g
    unfold Json.insertAbsent
    split_ifs with hl hk hlt hk hk
    · subst hl hk
      simp [lookup?]
    · simp
    · subst hk
      rw [h.lookup?_of_lt_head hlt, lookup?, if_pos rfl, Option.none_or]
    · rw [lookup?, if_neg hk, Option.or_none]
    · subst hk
      rw [lookup?, lookup?, if_neg (Ne.symm hl), if_neg (Ne.symm hl), ih h.tail, if_pos rfl]
    · rw [lookup?, lookup?, ih h.tail, if_neg hk]
      split_ifs <;> simp

/-- Ordered fields are determined by what is found under each key. -/
theorem ext (hf : Ordered fields) (hg : Ordered gields)
    (h : ∀ key, lookup? key fields = lookup? key gields) : fields = gields := by
  induction fields generalizing gields with
  | nil =>
    cases gields with
    | nil => rfl
    | cons g gields =>
      have hhead := h g.1
      simp [lookup?] at hhead
  | cons f fields ih =>
    obtain ⟨k, v⟩ := f
    cases gields with
    | nil =>
      have hhead := h k
      simp [lookup?] at hhead
    | cons g gields =>
      obtain ⟨l, w⟩ := g
      have hkl : k = l := by
        apply String.le_antisymm
        · exact hf.head_le (by rw [h l, lookup?, if_pos rfl, Option.isSome_some])
        · exact hg.head_le (by rw [← h k, lookup?, if_pos rfl, Option.isSome_some])
      subst hkl
      have hvw := h k
      simp only [lookup?, if_pos, Option.some.injEq] at hvw
      subst hvw
      congr 1
      apply ih hf.tail hg.tail
      intro key
      by_cases hkey : k = key
      · subst hkey
        rw [lookup?_of_lt hf.head_lt, lookup?_of_lt hg.head_lt]
      · simpa [lookup?, hkey] using h key

end Ordered

theorem ordered_canonicalFields (fields : List (String × Json)) :
    Ordered (canonicalFields fields) := by
  induction fields with
  | nil => exact .nil
  | cons f fields ih => exact ih.insertAbsent f.1 f.2.canonical

theorem insertAbsent_of_lt {key : String} {value : Json} {fields : List (String × Json)}
    (h : ∀ f ∈ fields, key < f.1) : insertAbsent key value fields = (key, value) :: fields := by
  cases fields with
  | nil => rfl
  | cons f fields =>
    have hlt := h f List.mem_cons_self
    have hne : key ≠ f.1 := fun heq => String.lt_irrefl key (heq ▸ hlt)
    rw [insertAbsent, if_neg hne, if_pos hlt]

theorem Ordered.canonicalFields {fields : List (String × Json)} (h : Ordered fields)
    (hvalues : ∀ f ∈ fields, f.2.canonical = f.2) : canonicalFields fields = fields := by
  induction fields with
  | nil => rfl
  | cons f fields ih =>
    have hfields := ih h.tail fun g hg => hvalues g (List.mem_cons_of_mem f hg)
    rw [Json.canonicalFields, hfields, hvalues f List.mem_cons_self]
    exact insertAbsent_of_lt h.head_lt

mutual

theorem canonical_canonical (j : Json) : j.canonical.canonical = j.canonical := by
  cases j with
  | array items => exact congrArg array (canonicalItems_canonicalItems items)
  | object fields =>
    exact congrArg object
      ((ordered_canonicalFields fields).canonicalFields (canonical_of_mem_canonicalFields fields))
  | _ => rfl

theorem canonicalItems_canonicalItems (items : List Json) :
    canonicalItems (canonicalItems items) = canonicalItems items := by
  match items with
  | [] => rfl
  | j :: js =>
    rw [canonicalItems, canonicalItems, canonical_canonical j, canonicalItems_canonicalItems js]

theorem canonical_of_mem_canonicalFields (fields : List (String × Json)) :
    ∀ f ∈ canonicalFields fields, f.2.canonical = f.2 := by
  match fields with
  | [] => nofun
  | (key, value) :: rest =>
    intro f hf
    rcases Ordered.mem_insertAbsent hf with rfl | hf
    · exact canonical_canonical value
    · exact canonical_of_mem_canonicalFields rest f hf

end

theorem eq_null_of_canonical {j : Json} (h : j.canonical = .null) : j = .null := by
  cases j with
  | null => rfl
  | _ => cases h

/-- The data under a key. -/
def under (key : String) (fields : List (String × Json)) : Option Json :=
  lookup? key (canonicalFields fields)

theorem same_object_iff (fields gields : List (String × Json)) :
    (object fields).Same (object gields) ↔ ∀ key, under key fields = under key gields := by
  constructor
  · intro h key
    exact congrArg (lookup? key) (object.inj h)
  · intro h
    exact congrArg object
      ((ordered_canonicalFields fields).ext (ordered_canonicalFields gields) h)

variable (key : String)

@[simp] theorem under_nil : under key [] = none := rfl

@[simp] theorem under_cons (k : String) (v : Json) (fields : List (String × Json)) :
    under key ((k, v) :: fields) =
      (under key fields).or (if k = key then some v.canonical else none) :=
  (ordered_canonicalFields fields).lookup?_insertAbsent k key v.canonical

@[simp] theorem under_append (fields gields : List (String × Json)) :
    under key (fields ++ gields) = (under key gields).or (under key fields) := by
  induction fields with
  | nil => simp
  | cons f fields ih =>
    rw [List.cons_append, under_cons, under_cons, ih, Option.or_assoc]

@[simp] theorem under_whenSome (k : String) (v : Option Json) :
    under key (whenSome k v) = if k = key then v.map canonical else none := by
  cases v with
  | none => simp [whenSome]
  | some v => simp [whenSome]

end Json
end NoteSearch
