import NoteSearch.Filter.Coercion
import NoteSearch.Proofs.Blanks
import NoteSearch.Proofs.Numerals

/-!
# Values as their types hold them

A value that is turned into what a type holds is left alone from then on, and a value that is not
turned into it is not changed at all. However an integer of 64 bits is written, as a number it is
that integer and no double.
-/

namespace NoteSearch

namespace Numeral

/-- An integer in decimal digits, with zeros and a sign in front of them and blanks around. Zero goes
with either sign. -/
def SpellsInt (n : Int) (cs : List Char) : Prop :=
  ∃ (before sign after : List Char) (zeros : Nat),
    cs = before ++ (sign ++ (List.replicate zeros '0' ++ digitsOf n.natAbs)) ++ after ∧
    (∀ c ∈ before, Text.isBlank c = true) ∧ (∀ c ∈ after, Text.isBlank c = true) ∧
    ((sign = [] ∨ sign = ['+']) ∧ 0 ≤ n ∨ sign = ['-'] ∧ n ≤ 0)

theorem ofDigits_zeros (zeros : Nat) (cs : List Char) :
    ofDigits (List.replicate zeros '0' ++ cs) = ofDigits cs := by
  induction zeros with
  | zero => rfl
  | succ zeros ih => exact ih

theorem readDigits?_zeros (zeros n : Nat) :
    readDigits? (List.replicate zeros '0' ++ digitsOf n) = some n := by
  rw [readDigits?_eq_some_iff, ofDigits_zeros, ofDigits_digitsOf, List.forall_mem_append]
  refine ⟨by simp [digitsOf_ne_nil], ⟨fun c hc => ?_, fun c => isDigit_of_mem_digitsOf⟩, rfl⟩
  rw [List.eq_of_mem_replicate hc]
  rfl

/-- Without the blanks around it, an integer is read as the one that is written. -/
theorem SpellsInt.readInt?_trim {n : Int} {cs : List Char} (h : SpellsInt n cs) :
    readInt? (Text.trim cs) = some n := by
  obtain ⟨before, sign, after, zeros, rfl, hbefore, hafter, hsign⟩ := h
  have hread := readDigits?_zeros zeros n.natAbs
  generalize List.replicate zeros '0' ++ digitsOf n.natAbs = digits at hread ⊢
  have hbare : ∀ c ∈ sign ++ digits, Text.isBlank c = false := by
    rw [List.forall_mem_append]
    refine ⟨?_, fun c hc => isBlank_of_isDigit ((readDigits?_eq_some_iff.mp hread).2.1 c hc)⟩
    rcases hsign with ⟨rfl | rfl, -⟩ | ⟨rfl, -⟩
    · exact fun _ hc => nomatch hc
    · exact List.forall_mem_singleton.mpr (by decide)
    · exact List.forall_mem_singleton.mpr (by decide)
  rw [(Text.bareEnds_of_not_blank hbare).trim_between hbefore hafter]
  rcases hsign with ⟨rfl | rfl, hn⟩ | ⟨rfl, hn⟩
  · rw [List.nil_append, readInt?_of_readDigits? hread, Int.natAbs_of_nonneg hn]
  · rw [List.singleton_append, readInt?, hread, Option.map_some]
    exact congrArg some (Int.natAbs_of_nonneg hn)
  · have hminus : -(n.natAbs : Int) = n := by rw [Int.ofNat_natAbs_of_nonpos hn, Int.neg_neg]
    rw [List.singleton_append, readInt?, hread]
    exact congrArg some hminus

end Numeral

namespace Coercion

variable {type : PropertyType} {value result : Json}

theorem toNumber?_of_isNumber (h : value.isNumber = true) : toNumber? value = some value := by
  cases value <;> first | rfl | cases h

theorem toMillis?_of_isNumber (h : value.isNumber = true) : toMillis? value = some value := by
  cases value <;> first | rfl | cases h

theorem isNumber_of_toNumber? (h : toNumber? value = some result) : result.isNumber = true := by
  unfold toNumber? at h
  split at h
  · cases h
    rfl
  · cases h
    rfl
  · unfold readNumber? at h
    dsimp only at h
    split at h
    · cases h
      rfl
    · obtain ⟨_, -, rfl⟩ := Option.map_eq_some_iff.mp h
      rfl
  · cases h

theorem exists_of_toBoolean? (h : toBoolean? value = some result) : ∃ b, result = .bool b := by
  unfold toBoolean? at h
  split at h
  · cases h
    exact ⟨_, rfl⟩
  · obtain ⟨b, -, rfl⟩ := Option.map_eq_some_iff.mp h
    exact ⟨b, rfl⟩
  · split_ifs at h <;> cases h <;> exact ⟨_, rfl⟩
  · cases h

theorem eq_or_exists_of_toMillis? (h : toMillis? value = some result) :
    result = value ∧ value.isNumber = true ∨ ∃ n, result = .integer n := by
  unfold toMillis? at h
  split at h
  · cases h
    exact .inl ⟨rfl, rfl⟩
  · cases h
    exact .inl ⟨rfl, rfl⟩
  · obtain ⟨n, -, rfl⟩ := Option.map_eq_some_iff.mp h
    exact .inr ⟨n, rfl⟩
  · cases h

/-- What a conversion yields is already what the type holds. -/
theorem convert?_result (h : convert? type value = some result) :
    convert? type result = some result := by
  cases type with
  | number => exact toNumber?_of_isNumber (isNumber_of_toNumber? h)
  | boolean =>
    obtain ⟨b, rfl⟩ := exists_of_toBoolean? h
    rfl
  | dateTime =>
    rcases eq_or_exists_of_toMillis? h with ⟨rfl, hnumber⟩ | ⟨n, rfl⟩
    · exact toMillis?_of_isNumber hnumber
    · rfl
  | _ => cases h

theorem convert_convert (type : PropertyType) (value : Json) :
    convert type (convert type value) = convert type value := by
  cases h : convert? type value with
  | none => simp [convert, h]
  | some result => simp [convert, h, convert?_result h]

theorem convertFor_of_not_isOrdering {op : Operator} (h : op.isOrdering = false) (value : Json) :
    convertFor op value = value := by
  simp [convertFor, h]

theorem convertFor_convertFor (op : Operator) (value : Json) :
    convertFor op (convertFor op value) = convertFor op value := by
  cases h : op.isOrdering with
  | false => simp only [convertFor_of_not_isOrdering h]
  | true => simp only [convertFor_of_isOrdering op _ h, convert_convert]

theorem convert?_of_ne (h : convert type value ≠ value) :
    convert? type value = some (convert type value) := by
  unfold convert at h ⊢
  cases hresult : convert? type value with
  | none => simp [hresult] at h
  | some result => rfl

/-- What a value becomes that a conversion changes. -/
inductive Becomes : PropertyType → Json → Prop
  | number {value : Json} (h : value.isNumber = true) : Becomes .number value
  | boolean (b : Bool) : Becomes .boolean (.bool b)
  | dateTime (n : Int) : Becomes .dateTime (.integer n)

theorem becomes_of_ne (h : convert type value ≠ value) : Becomes type (convert type value) := by
  have hresult := convert?_of_ne h
  generalize convert type value = result at h hresult
  cases type with
  | number => exact .number (isNumber_of_toNumber? hresult)
  | boolean =>
    obtain ⟨b, rfl⟩ := exists_of_toBoolean? hresult
    exact .boolean b
  | dateTime =>
    rcases eq_or_exists_of_toMillis? hresult with ⟨heq, -⟩ | ⟨n, rfl⟩
    · exact absurd heq h
    · exact .dateTime n
  | _ => cases hresult

theorem convert_number_of_spellsInt {n : Int} {cs : List Char} (hlow : Numeral.minInt64 ≤ n)
    (hhigh : n ≤ Numeral.maxInt64) (h : Numeral.SpellsInt n cs) :
    convert .number (.text (String.ofList cs)) = .integer n := by
  have hfits : Numeral.fitsInt64 n = true := by simp [Numeral.fitsInt64, hlow, hhigh]
  have hread : Numeral.readInt64? (Text.trim cs) = some n :=
    Numeral.readInt64?_eq_some_iff.mpr ⟨h.readInt?_trim, hfits⟩
  simp [convert, convert?, toNumber?, readNumber?, hread]

/-- Converted values stay as they are, a value changes only into what its type holds, operators that
order convert to numbers, and an integer of 64 bits is itself in every spelling. -/
theorem convert_stable_and_exact :
    (∀ type value, convert type (convert type value) = convert type value) ∧
    (∀ op value, convertFor op (convertFor op value) = convertFor op value) ∧
    (∀ type value, convert type value ≠ value → Becomes type (convert type value)) ∧
    (∀ op value, convertFor op value ≠ value →
      op.isOrdering = true ∧ (convertFor op value).isNumber = true) ∧
    (∀ op value, op.isOrdering = true → convertFor op value = convert .number value) ∧
    ∀ n cs, Numeral.minInt64 ≤ n → n ≤ Numeral.maxInt64 → Numeral.SpellsInt n cs →
      convert .number (.text (String.ofList cs)) = .integer n ∧
        ∀ op : Operator, op.isOrdering = true →
          convertFor op (.text (String.ofList cs)) = .integer n := by
  refine ⟨convert_convert, convertFor_convertFor, fun _ _ => becomes_of_ne, ?_,
    convertFor_of_isOrdering, ?_⟩
  · intro op value h
    cases hop : op.isOrdering with
    | false => exact absurd (convertFor_of_not_isOrdering hop value) h
    | true =>
      rw [convertFor_of_isOrdering op value hop] at h ⊢
      cases becomes_of_ne h with
      | number hnumber => exact ⟨rfl, hnumber⟩
  · intro n cs hlow hhigh h
    have hnumber := convert_number_of_spellsInt hlow hhigh h
    refine ⟨hnumber, fun op hop => ?_⟩
    rw [convertFor_of_isOrdering op _ hop, hnumber]

/-- The least integer of 64 bits, as users may write it. -/
theorem convert_stable_and_exact_minInt64 :
    let written : Json := .text "\t-0009223372036854775808 "
    convert .number written = .integer (-9223372036854775808) ∧
      convertFor .less written = .integer (-9223372036854775808) ∧
        Becomes .number (convert .number written) ∧ (convertFor .less written).isNumber = true := by
  intro written
  obtain ⟨-, -, hbecomes, hordering, hless, hexact⟩ := convert_stable_and_exact
  have hspells : Numeral.SpellsInt (-9223372036854775808)
      "\t-0009223372036854775808 ".toList :=
    ⟨['\t'], ['-'], [' '], 3, by decide +kernel, List.forall_mem_singleton.mpr (by decide),
      List.forall_mem_singleton.mpr (by decide), .inr ⟨rfl, by decide⟩⟩
  obtain ⟨hnumber, hfor⟩ := hexact _ _ (by decide) (by decide) hspells
  have hchange : convert .number written ≠ written := by
    rw [show convert .number written = _ from hnumber]
    exact nofun
  have hchangeFor : convertFor .less written ≠ written := by
    rwa [hless .less written rfl]
  exact ⟨hnumber, hfor .less rfl, hbecomes _ _ hchange, (hordering _ _ hchangeFor).2⟩

end Coercion
end NoteSearch
