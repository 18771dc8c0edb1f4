import Mathlib.Algebra.Group.Nat.Defs
import Mathlib.Data.List.TakeWhile
import NoteSearch.Json.Numeral
import NoteSearch.Text.Blank

/-!
# Numerals that are written and read

The decimal digits of a number are read as that number, and digits of a fixed width as what that
width keeps of it. As a JSON numeral an integer is read as itself as long as a 64 bit word holds it.
Whatever is read as a JSON numeral consists of digits, signs, points and powers of ten.
-/

namespace NoteSearch
namespace Numeral

theorem isDigit_eq (c : Char) : isDigit c = c.isDigit := rfl

theorem isDigit_of_mem_digitsOf {n : Nat} {c : Char} (h : c ∈ digitsOf n) : isDigit c = true := by
  rw [isDigit_eq]
  exact Nat.isDigit_of_mem_toDigits (by decide) (by decide) h

theorem isBlank_of_isDigit {c : Char} (h : isDigit c = true) : Text.isBlank c = false := by
  have hdigits : ∀ n ≤ '9'.toNat, '0'.toNat ≤ n → Text.isBlank (Char.ofNat n) = false := by decide
  simp only [isDigit, Bool.and_eq_true, decide_eq_true_eq] at h
  rw [← Char.ofNat_toNat c, hdigits c.toNat h.2 h.1]

theorem digitsOf_ne_nil (n : Nat) : digitsOf n ≠ [] := Nat.toDigits_ne_nil

@[simp] theorem ofDigits_digitsOf (n : Nat) : ofDigits (digitsOf n) = n := by
  have h := Nat.ofDigitChars_ten_toDigits (n := n)
  rw [Nat.ofDigitChars_eq_foldl] at h
  exact h

theorem digitsOf_of_ten_le {n : Nat} (h : 10 ≤ n) :
    digitsOf n = digitsOf (n / 10) ++ [(n % 10).digitChar] :=
  Nat.toDigits_of_base_le (by decide) h

/-- Only zero is written with a zero in front. -/
theorem head?_digitsOf {n : Nat} (h : (digitsOf n).head? = some '0') : n = 0 := by
  induction n using Nat.strongRecOn with
  | ind n ih =>
    by_cases hten : 10 ≤ n
    · obtain ⟨d, ds, hds⟩ := List.exists_cons_of_ne_nil (digitsOf_ne_nil (n / 10))
      rw [digitsOf_of_ten_le hten, hds] at h
      have hzero : n / 10 = 0 := ih (n / 10) (by omega) (hds ▸ h)
      omega
    · rw [digitsOf, Nat.toDigits_of_lt_base (by omega)] at h
      simpa using h

/-- Decimal digits, perhaps behind a plus sign, that denote a number. -/
def Spells (cs : List Char) (n : Nat) : Prop :=
  ∃ digits, (cs = digits ∨ cs = '+' :: digits) ∧ digits ≠ [] ∧
    (∀ c ∈ digits, isDigit c = true) ∧ ofDigits digits = n

theorem readDigits?_eq_some_iff {cs : List Char} {n : Nat} :
    readDigits? cs = some n ↔ cs ≠ [] ∧ (∀ c ∈ cs, isDigit c = true) ∧ ofDigits cs = n := by
  unfold readDigits?
  split_ifs with h
  · refine iff_of_false nofun fun ⟨hne, hdigits, _⟩ => ?_
    simp [hne, List.all_eq_true.mpr hdigits] at h
  · simp only [Bool.or_eq_true, not_or, Bool.not_eq_true', Bool.not_eq_false, List.isEmpty_iff,
      List.all_eq_true] at h
    rw [Option.some.injEq, and_iff_right h.1, and_iff_right h.2]

theorem readNat?_eq_some_iff {cs : List Char} {n : Nat} : readNat? cs = some n ↔ Spells cs n := by
  have hsign : isDigit '+' = false := rfl
  unfold readNat? Spells
  split
  · rename_i digits
    rw [readDigits?_eq_some_iff]
    constructor
    · exact fun h => ⟨digits, .inr rfl, h⟩
    · rintro ⟨_, rfl | heq, h⟩
      · have hplus := h.2.1 '+' List.mem_cons_self
        rw [hsign] at hplus
        cases hplus
      · cases heq
        exact h
  · rename_i hplus
    rw [readDigits?_eq_some_iff]
    constructor
    · exact fun h => ⟨cs, .inl rfl, h⟩
    · rintro ⟨digits, rfl | rfl, h⟩
      · exact h
      · exact absurd rfl (hplus digits)

theorem readWord64?_eq_some_iff {cs : List Char} {n : Nat} :
    readWord64? cs = some n ↔ Spells cs n ∧ n ≤ maxWord64 := by
  simp [readWord64?, Option.filter_eq_some_iff, readNat?_eq_some_iff]

theorem readDigits?_digitsOf (n : Nat) : readDigits? (digitsOf n) = some n :=
  readDigits?_eq_some_iff.mpr
    ⟨digitsOf_ne_nil n, fun _ => isDigit_of_mem_digitsOf, ofDigits_digitsOf n⟩

theorem readInt?_of_readDigits? {cs : List Char} {n : Nat} (h : readDigits? cs = some n) :
    readInt? cs = some (n : Int) := by
  obtain ⟨-, hdigits, -⟩ := readDigits?_eq_some_iff.mp h
  unfold readInt?
  split
  · have hminus := hdigits '-' List.mem_cons_self
    cases hminus
  · have hplus := hdigits '+' List.mem_cons_self
    cases hplus
  · rw [h]
    rfl

/-- Behind its first character an integer has nothing but digits. -/
theorem isDigit_of_readInt? {c : Char} {cs : List Char} {n : Int}
    (h : readInt? (c :: cs) = some n) : ∀ d ∈ cs, isDigit d = true := by
  unfold readInt? at h
  split at h
  · rename_i heq
    cases heq
    obtain ⟨m, hm, -⟩ := Option.map_eq_some_iff.mp h
    obtain ⟨digits, hdigits, -⟩ := Option.bind_eq_some_iff.mp hm
    exact (readDigits?_eq_some_iff.mp hdigits).2.1
  · rename_i heq
    cases heq
    obtain ⟨m, hm, -⟩ := Option.map_eq_some_iff.mp h
    exact (readDigits?_eq_some_iff.mp hm).2.1
  · obtain ⟨m, hm, -⟩ := Option.map_eq_some_iff.mp h
    exact fun d hd => (readDigits?_eq_some_iff.mp hm).2.1 d (List.mem_cons_of_mem c hd)

theorem readInt64?_eq_some_iff {cs : List Char} {n : Int} :
    readInt64? cs = some n ↔ readInt? cs = some n ∧ fitsInt64 n = true := by
  simp [readInt64?, Option.filter_eq_some_iff]

theorem readInt?_writeInt (n : Int) : readInt? (writeInt n).toList = some n := by
  cases n with
  | ofNat n =>
    rw [writeInt, String.toList_ofList]
    exact readInt?_of_readDigits? (readDigits?_digitsOf n)
  | negSucc n =>
    rw [writeInt, String.toList_ofList, readInt?, readDigits?_digitsOf]
    rfl

/-- A number that is not negative may be written with a sign, too. -/
theorem readInt?_plus_writeInt {n : Int} (h : 0 ≤ n) :
    readInt? ('+' :: (writeInt n).toList) = some n := by
  obtain ⟨m, rfl⟩ := Int.eq_ofNat_of_zero_le h
  change (readDigits? (String.ofList (digitsOf m)).toList).map Int.ofNat = _
  rw [String.toList_ofList, readDigits?_digitsOf]
  rfl

theorem isDigit_ofNat {d : Nat} (h : d < 10) : isDigit (Char.ofNat ('0'.toNat + d)) = true := by
  revert d
  decide

theorem digitValue_ofNat {d : Nat} (h : d < 10) : digitValue (Char.ofNat ('0'.toNat + d)) = d := by
  revert d
  decide

theorem isDigit_of_mem_padded (width : Nat) :
    ∀ {n : Nat} {c : Char}, c ∈ padded width n → isDigit c = true := by
  induction width with
  | zero => exact fun h => nomatch h
  | succ width ih =>
    intro n c h
    rcases List.mem_append.mp h with h | h
    · exact ih h
    · rw [List.mem_singleton.mp h]
      exact isDigit_ofNat (Nat.mod_lt n (by decide))

theorem ofDigits_padded (width : Nat) : ∀ n, ofDigits (padded width n) = n % 10 ^ width := by
  induction width with
  | zero => exact fun n => (Nat.mod_one n).symm
  | succ width ih =>
    intro n
    have hstep : ofDigits (padded (width + 1) n) =
        10 * ofDigits (padded width (n / 10)) + n % 10 := by
      rw [padded, ofDigits, List.foldl_append, List.foldl_cons, List.foldl_nil,
        digitValue_ofNat (Nat.mod_lt n (by decide))]
      rfl
    rw [hstep, ih, Nat.pow_succ', Nat.mod_mul, Nat.add_comm]

end Numeral

namespace JsonNumeral

open Numeral

theorem isWhole_cons {c : Char} {cs : List Char} (hzero : c ≠ '0')
    (hdigits : ∀ d ∈ c :: cs, isDigit d = true) : isWhole (c :: cs) = true := by
  have hrest : cs.all isDigit = true :=
    List.all_eq_true.mpr fun d hd => hdigits d (List.mem_cons_of_mem c hd)
  unfold isWhole
  split
  · rename_i heq
    cases heq
  · rfl
  · rename_i heq
    cases heq
    simp only [bne_iff_ne.mpr hzero, hdigits c List.mem_cons_self, hrest, Bool.and_self]

theorem isWhole_digitsOf (n : Nat) : isWhole (digitsOf n) = true := by
  by_cases hn : n = 0
  · subst hn
    rfl
  · obtain ⟨d, ds, hds⟩ := List.exists_cons_of_ne_nil (digitsOf_ne_nil n)
    rw [hds]
    apply isWhole_cons
    · rintro rfl
      exact hn (head?_digitsOf (by rw [hds, List.head?_cons]))
    · intro c hc
      exact isDigit_of_mem_digitsOf (hds ▸ hc)

theorem unsignedParts?_digitsOf (negative : Bool) (n : Nat) :
    unsignedParts? negative (digitsOf n) = some ⟨negative, digitsOf n, none, none⟩ := by
  have hdigits : ∀ c ∈ digitsOf n, isDigit c = true := fun c => isDigit_of_mem_digitsOf
  unfold unsignedParts?
  simp only [List.takeWhile_eq_self_iff.mpr hdigits, List.dropWhile_eq_nil_iff.mpr hdigits,
    isWhole_digitsOf]
  rfl

theorem parts?_digitsOf (n : Nat) :
    parts? (digitsOf n) = some ⟨false, digitsOf n, none, none⟩ := by
  obtain ⟨d, ds, hds⟩ := List.exists_cons_of_ne_nil (digitsOf_ne_nil n)
  have hminus : d ≠ '-' := by
    rintro rfl
    have hdigit : isDigit '-' = true := isDigit_of_mem_digitsOf (n := n) (hds ▸ List.mem_cons_self)
    cases hdigit
  rw [← unsignedParts?_digitsOf, hds]
  unfold parts?
  split
  · rename_i heq
    exact absurd (List.cons.inj heq).1 hminus
  · rfl

/-- Integers of 64 bits, signed or not, are read as they are written. -/
theorem read?_writeInt {n : Int} (hlow : minInt64 ≤ n) (hhigh : n ≤ maxWord64) :
    read? (writeInt n).toList = some (.integer n) := by
  cases n with
  | ofNat n =>
    have hword : n ≤ maxWord64 := Int.ofNat_le.mp hhigh
    simp [writeInt, read?, parts?_digitsOf, integer?, hword]
  | negSucc n =>
    have hnegative : -((n + 1 : Nat) : Int) = Int.negSucc n := rfl
    have hfits : fitsInt64 (Int.negSucc n) = true := by
      have hmax : Int.negSucc n ≤ maxInt64 := by
        unfold maxInt64
        omega
      simp [fitsInt64, hlow, hmax]
    rw [writeInt, String.toList_ofList, read?, parts?, unsignedParts?_digitsOf, Option.bind_some,
      integer?]
    simp only [ofDigits_digitsOf, hnegative, hfits]
    rfl

def IsPlain (c : Char) : Prop := isDigit c = true ∨ c ∈ ['.', 'e', 'E', '+', '-']

instance : DecidablePred IsPlain := fun _ => inferInstanceAs (Decidable (_ ∨ _))

theorem isBlank_of_isPlain {c : Char} (h : IsPlain c) : Text.isBlank c = false := by
  rcases h with hdigit | hmark
  · exact isBlank_of_isDigit hdigit
  · have hmarks : ['.', 'e', 'E', '+', '-'].all (fun c => !Text.isBlank c) = true := by decide
    simpa using List.all_eq_true.mp hmarks c hmark

theorem isPlain_of_readDigits? {cs : List Char} {n : Nat} (h : readDigits? cs = some n) :
    ∀ c ∈ cs, IsPlain c := by
  unfold readDigits? at h
  split at h
  · cases h
  · rename_i hdigits
    intro c hc
    have hall : cs.all isDigit = true := by
      simp only [Bool.or_eq_true, Bool.not_eq_true', not_or, Bool.not_eq_false] at hdigits
      exact hdigits.2
    exact .inl (List.all_eq_true.mp hall c hc)

theorem isPlain_cons {c : Char} {cs : List Char} (hc : c ∈ ['.', 'e', 'E', '+', '-'])
    (h : ∀ d ∈ cs, IsPlain d) : ∀ d ∈ c :: cs, IsPlain d := by
  intro d hd
  rcases List.mem_cons.mp hd with rfl | hd
  · exact .inr hc
  · exact h d hd

theorem isPlain_of_readInt? {cs : List Char} {n : Int} (h : readInt? cs = some n) :
    ∀ c ∈ cs, IsPlain c := by
  unfold readInt? at h
  split at h
  · obtain ⟨n, hn, -⟩ := Option.map_eq_some_iff.mp h
    obtain ⟨digits, hdigits, -⟩ := Option.bind_eq_some_iff.mp hn
    exact isPlain_cons (by decide) (isPlain_of_readDigits? hdigits)
  · obtain ⟨n, hn, -⟩ := Option.map_eq_some_iff.mp h
    exact isPlain_cons (by decide) (isPlain_of_readDigits? hn)
  · obtain ⟨n, hn, -⟩ := Option.map_eq_some_iff.mp h
    exact isPlain_of_readDigits? hn

theorem isPlain_of_power? {cs : List Char} {power : Option Int} (h : power? cs = some power) :
    ∀ c ∈ cs, IsPlain c := by
  unfold power? at h
  split at h
  · simp
  · obtain ⟨n, hn, -⟩ := Option.map_eq_some_iff.mp h
    exact isPlain_cons (by decide) (isPlain_of_readInt? hn)
  · obtain ⟨n, hn, -⟩ := Option.map_eq_some_iff.mp h
    exact isPlain_cons (by decide) (isPlain_of_readInt? hn)
  · cases h

theorem isPlain_of_dropWhile {cs : List Char} (h : ∀ c ∈ cs.dropWhile isDigit, IsPlain c) :
    ∀ c ∈ cs, IsPlain c := by
  intro c hc
  rw [← List.takeWhile_append_dropWhile (p := isDigit) (l := cs)] at hc
  rcases List.mem_append.mp hc with hc | hc
  · exact .inl (List.mem_takeWhile_imp hc)
  · exact h c hc

theorem isPlain_of_unsignedParts? {negative : Bool} {cs : List Char} {parts : Parts}
    (h : unsignedParts? negative cs = some parts) : ∀ c ∈ cs, IsPlain c := by
  apply isPlain_of_dropWhile
  unfold unsignedParts? at h
  dsimp only at h
  split_ifs at h with hwhole
  split at h
  · rename_i rest hrest
    rw [hrest]
    split_ifs at h with hfraction
    obtain ⟨power, hpower, -⟩ := Option.map_eq_some_iff.mp h
    exact isPlain_cons (by decide) (isPlain_of_dropWhile (isPlain_of_power? hpower))
  · obtain ⟨power, hpower, -⟩ := Option.map_eq_some_iff.mp h
    exact isPlain_of_power? hpower

/-- What is read as a numeral holds nothing but plain characters. -/
theorem isPlain_of_read? {cs : List Char} {value : Json} (h : read? cs = some value) :
    ∀ c ∈ cs, IsPlain c := by
  obtain ⟨parts, hparts, -⟩ := Option.bind_eq_some_iff.mp h
  unfold parts? at hparts
  split at hparts
  · exact isPlain_cons (by decide) (isPlain_of_unsignedParts? hparts)
  · exact isPlain_of_unsignedParts? hparts

theorem ne_nil_of_read? {cs : List Char} {value : Json} (h : read? cs = some value) :
    cs ≠ [] := by
  rintro rfl
  cases h

end JsonNumeral
end NoteSearch
