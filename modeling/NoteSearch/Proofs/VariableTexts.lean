import NoteSearch.Proofs.Numerals
import NoteSearch.Proofs.SettingsTrees
import NoteSearch.Settings.Layers

/-!
# Texts of variables

The text of a variable is read as a truth value or a number where it is one. As a text it is then
what the value is written as, so it is kept only if it is written that way.
-/

namespace NoteSearch
namespace SettingsLayer

open SettingsTree Text Numeral

/-- The texts that a variable keeps: those of no other value, and the ones that values are written
as. -/
inductive Kept : String → Prop
  | truth (b : Bool) : Kept (if b then "true" else "false")
  | integer {n : Int} (h : fitsInt64 n = true) : Kept (writeInt n)
  | real {x : String} {value : Real64} (htrue : lowered x ≠ "true") (hfalse : lowered x ≠ "false")
      (hint : readInt64? x.toList = none) (hread : Literal.read? x.toList = some value)
      (hwrite : value.write .plain = x) : Kept x
  | other {x : String} (htrue : lowered x ≠ "true") (hfalse : lowered x ≠ "false")
      (hint : readInt64? x.toList = none) (hread : Literal.read? x.toList = none) : Kept x

theorem isCapital_of_isDigit {c : Char} (h : isDigit c = true) : isCapital c = false := by
  rw [Bool.eq_false_iff, Ne, isCapital_iff]
  simp only [isDigit, Bool.and_eq_true, decide_eq_true_eq, Char.le_def, UInt32.le_iff_toNat_le] at h
  change 0x30 ≤ c.toNat ∧ c.toNat ≤ 0x39 at h
  omega

theorem isCapital_of_readDigits? {cs : List Char} {n : Nat} (h : readDigits? cs = some n) :
    ∀ c ∈ cs, isCapital c = false :=
  fun c hc => isCapital_of_isDigit ((readDigits?_eq_some_iff.mp h).2.1 c hc)

theorem isCapital_of_readInt? {cs : List Char} {n : Int} (h : readInt? cs = some n) :
    ∀ c ∈ cs, isCapital c = false := by
  unfold readInt? at h
  split at h
  · obtain ⟨m, hm, -⟩ := Option.map_eq_some_iff.mp h
    obtain ⟨digits, hdigits, -⟩ := Option.bind_eq_some_iff.mp hm
    exact List.forall_mem_cons.mpr ⟨by decide, isCapital_of_readDigits? hdigits⟩
  · obtain ⟨m, hm, -⟩ := Option.map_eq_some_iff.mp h
    exact List.forall_mem_cons.mpr ⟨by decide, isCapital_of_readDigits? hm⟩
  · obtain ⟨m, hm, -⟩ := Option.map_eq_some_iff.mp h
    exact isCapital_of_readDigits? hm

/-- An integer is no word. -/
theorem lowered_ne_of_readInt? {s name : String} {n : Int} (h : readInt? s.toList = some n)
    (hname : isSmallName name = true) (hword : readInt? name.toList = none) : lowered s ≠ name := by
  intro hlower
  rw [eq_of_lowered_eq hname (isCapital_of_readInt? h) hlower, hword] at h
  cases h

theorem valueOf_of_ne {x : String} (htrue : lowered x ≠ "true") (hfalse : lowered x ≠ "false") :
    valueOf x =
      match readInt64? x.toList with
      | some n => .integer n
      | none =>
        match Literal.read? x.toList with
        | some value => .real value
        | none => .text x := by
  unfold valueOf
  split
  · rename_i h
    exact absurd h htrue
  · rename_i h
    exact absurd h hfalse
  · rfl

theorem valueOf_writeInt {n : Int} (h : fitsInt64 n = true) :
    valueOf (writeInt n) = .integer n := by
  have hread : readInt64? (writeInt n).toList = some n :=
    readInt64?_eq_some_iff.mpr ⟨readInt?_writeInt n, h⟩
  have hint := readInt?_writeInt n
  rw [valueOf_of_ne (lowered_ne_of_readInt? hint (by decide) (by decide))
    (lowered_ne_of_readInt? hint (by decide) (by decide)), hread]

theorem kept_iff (x : String) : Kept x ↔ (valueOf x).toText? = some x := by
  constructor
  · intro h
    cases h with
    | truth b => cases b <;> decide +kernel
    | integer h => rw [valueOf_writeInt h]; rfl
    | real htrue hfalse hint hread hwrite =>
      rw [valueOf_of_ne htrue hfalse, hint, hread]
      exact congrArg some hwrite
    | other htrue hfalse hint hread =>
      rw [valueOf_of_ne htrue hfalse, hint, hread]
      rfl
  · intro h
    unfold valueOf at h
    split at h
    · rw [← Option.some.inj h]
      exact .truth true
    · rw [← Option.some.inj h]
      exact .truth false
    · rename_i htrue hfalse
      split at h
      · rename_i n hint
        rw [← Option.some.inj h]
        exact .integer (readInt64?_eq_some_iff.mp hint).2
      · rename_i hint
        split at h
        · rename_i value hread
          exact .real htrue hfalse hint hread (Option.some.inj h)
        · rename_i hread
          exact .other htrue hfalse hint hread

instance : DecidablePred Kept := fun x => decidable_of_iff _ (kept_iff x).symm

example : ¬Kept "007" ∧ Kept "-7" ∧ Kept "1.5" ∧ Kept "a7" := by decide +kernel

theorem isScalar_valueOf (x : String) : (valueOf x).isScalar = true := by
  unfold valueOf
  repeat' split
  all_goals rfl

/-- The text of the last variable that stands for a setting, its name in any case. -/
def variableText? (w : Surroundings) (name : String) : Option String :=
  w.environment.reverse.findSome? fun v =>
    if lowered v.1 = "notequery_" ++ name then some v.2 else none

theorem nested_cases (cs : List Char) : nested cs = cs ∨ '.' ∈ nested cs := by
  fun_induction nested cs with
  | case1 cs => exact .inr List.mem_cons_self
  | case2 c cs _ ih => exact ih.imp (congrArg (c :: ·)) (List.mem_cons_of_mem c)
  | case3 => exact .inl rfl

theorem isCapital_nested {cs : List Char} (h : ∀ c ∈ cs, isCapital c = false) :
    ∀ c ∈ nested cs, isCapital c = false := by
  fun_induction nested cs with
  | case1 cs ih =>
    exact List.forall_mem_cons.mpr ⟨by decide, ih fun c hc => h c (by simp [hc])⟩
  | case2 c cs _ ih =>
    rw [List.forall_mem_cons] at h
    exact List.forall_mem_cons.mpr ⟨h.1, ih h.2⟩
  | case3 => exact h

/-- Below the start of its name, a variable is read as a setting if it is written as its name. -/
theorem lowered_nested_iff {name : String} (hname : isSmallName name = true)
    (hnested : nested name.toList = name.toList) {cs : List Char}
    (hcs : ∀ c ∈ cs, isCapital c = false) :
    lowered (String.ofList (nested cs)) = name ↔ cs = name.toList := by
  constructor
  · intro h
    have hself : String.ofList (nested cs) = name :=
      eq_of_lowered_eq hname (by simpa using isCapital_nested hcs) h
    have hchars : nested cs = name.toList := by rw [← hself, String.toList_ofList]
    rcases nested_cases cs with hcs | hpoint
    · rw [← hcs, hchars]
    · rw [hchars] at hpoint
      exact absurd ((isSmallName_iff.mp hname).2 '.' hpoint) (by decide)
  · rintro rfl
    rw [hnested, String.ofList_toList, lowered_of_isSmallName hname]

theorem ofVariable?_eq_some_iff {v : String × String} {entry : String × SettingsTree} :
    ofVariable? v = some entry ↔
      ∃ cs, (lowered v.1).toList = variableStart ++ cs ∧
        entry = (String.ofList (nested cs), valueOf v.2) := by
  rw [ofVariable?, Option.ite_none_right_eq_some, List.isPrefixOf_iff_prefix]
  constructor
  · rintro ⟨⟨cs, hcs⟩, hentry⟩
    exact ⟨cs, hcs.symm, by rw [← Option.some.inj hentry, ← hcs, List.drop_left]⟩
  · rintro ⟨cs, hcs, rfl⟩
    exact ⟨⟨cs, hcs.symm⟩, by rw [hcs, List.drop_left]⟩

theorem given?_ofVariable? {name : String} (hname : isSmallName name = true)
    (hnested : nested name.toList = name.toList) (v : String × String) :
    (ofVariable? v).bind (Placing.byPath.given? name) =
      (if lowered v.1 = "notequery_" ++ name then some v.2 else none).map valueOf := by
  have hvariable : lowered v.1 = "notequery_" ++ name ↔
      (lowered v.1).toList = variableStart ++ name.toList := by
    rw [← String.toList_inj, String.toList_append]
    rfl
  by_cases h : lowered v.1 = "notequery_" ++ name
  · have hentry : ofVariable? v = some (name, valueOf v.2) :=
      ofVariable?_eq_some_iff.mpr ⟨_, hvariable.mp h, by rw [hnested, String.ofList_toList]⟩
    rw [hentry, if_pos h]
    exact Placing.given?_eq_some_iff.mpr
      ⟨isName_of_isSmallName hname, lowered_of_isSmallName hname, isScalar_valueOf v.2, rfl⟩
  · rw [if_neg h, Option.map_none, Option.bind_eq_none_iff]
    intro entry hentry
    obtain ⟨cs, hcs, rfl⟩ := ofVariable?_eq_some_iff.mp hentry
    have hcapital : ∀ c ∈ cs, isCapital c = false := fun c hc =>
      isCapital_of_mem_lowered (hcs ▸ List.mem_append_right _ hc)
    refine Option.eq_none_iff_forall_ne_some.mpr fun value hgiven => ?_
    obtain ⟨-, hkey, -⟩ := Placing.given?_eq_some_iff.mp hgiven
    rw [lowered_nested_iff hname hnested hcapital] at hkey
    exact h (hvariable.mpr (hkey ▸ hcs))

theorem last?_ofVariables {name : String} (hname : isSmallName name = true)
    (hnested : nested name.toList = name.toList) (w : Surroundings) :
    Placing.byPath.last? name (ofVariables w) = (variableText? w name).map valueOf := by
  rw [Placing.last?, ofVariables, ← List.filterMap_reverse, ← List.head?_filterMap,
    List.filterMap_filterMap, List.head?_filterMap, variableText?, List.map_findSome?]
  congr 1
  funext v
  exact given?_ofVariable? hname hnested v

end SettingsLayer
end NoteSearch
