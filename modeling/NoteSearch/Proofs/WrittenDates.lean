import NoteSearch.Proofs.Blanks
import NoteSearch.Proofs.Numerals
import NoteSearch.Query.DateSpec

/-!
# Dates that are written and read

A date is written as a number, with a sign and the symbol of a unit if it is an offset. Read again,
with any blanks around it, it is the same date: neither the words for days nor another form of a date
takes its place, whatever the number and the unit are.
-/

namespace NoteSearch

open Numeral

namespace TimeUnit

theorem eq_symbol_of_ofSymbol? {c : Char} {u : TimeUnit} (h : ofSymbol? c = some u) :
    c = u.symbol := by
  unfold ofSymbol? at h
  split at h <;> cases h <;> rfl

theorem isBlank_symbol (u : TimeUnit) : Text.isBlank u.symbol = false := by
  cases u <;> decide

end TimeUnit

namespace DateSpec

/-- A character that stands in no word for a day and is the symbol of no unit. -/
def IsNeutral (c : Char) : Prop := Text.lowerAscii c ≠ 'a' ∧ TimeUnit.ofSymbol? c = none

instance : DecidablePred IsNeutral := fun _ => inferInstanceAs (Decidable (_ ∧ _))

theorem isNeutral_of_isPlain {c : Char} (h : JsonNumeral.IsPlain c) : IsNeutral c := by
  rcases h with hdigit | hmark
  · have hdigits : ∀ n ≤ '9'.toNat, '0'.toNat ≤ n → IsNeutral (Char.ofNat n) := by decide
    simp only [isDigit, Bool.and_eq_true, decide_eq_true_eq] at hdigit
    rw [← Char.ofNat_toNat c]
    exact hdigits c.toNat hdigit.2 hdigit.1
  · have hmarks : ['.', 'e', 'E', '+', '-'].all (fun c => IsNeutral c) = true := by decide
    simpa using List.all_eq_true.mp hmarks c hmark

theorem isNeutral_of_isBlank {c : Char} (h : Text.isBlank c = true) : IsNeutral c := by
  constructor
  · intro hlower
    have hblank := Text.isBlank_lowerAscii c
    rw [hlower, h] at hblank
    cases hblank
  · cases hunit : TimeUnit.ofSymbol? c with
    | none => rfl
    | some u =>
      have hblank := u.isBlank_symbol
      rw [← TimeUnit.eq_symbol_of_ofSymbol? hunit, h] at hblank
      cases hblank

/-- Both words for days have an `a` in them. -/
theorem ofWord?_eq_none {cs : List Char} (h : ∀ c ∈ cs, Text.lowerAscii c ≠ 'a') :
    ofWord? cs = none := by
  have hword : ∀ word : String, 'a' ∈ word.toList →
      String.ofList (Text.lowerAsciiAll cs) ≠ word := by
    rintro word ha rfl
    rw [String.toList_ofList, Text.lowerAsciiAll, List.mem_map] at ha
    obtain ⟨c, hc, hlower⟩ := ha
    exact h c hc hlower
  unfold ofWord?
  split
  · rename_i heq
    exact absurd heq (hword "today" (by decide))
  · rename_i heq
    exact absurd heq (hword "yesterday" (by decide))
  · rfl

theorem readRelative?_eq_none {cs : List Char} (h : ∀ c ∈ cs, TimeUnit.ofSymbol? c = none) :
    readRelative? cs = none := by
  have hlast : cs.getLast?.bind TimeUnit.ofSymbol? = none := by
    rw [Option.bind_eq_none_iff]
    exact fun c hc => h c (List.mem_of_getLast? hc)
  rw [readRelative?, hlast]
  rfl

/-- Among neutral characters there are neither words nor offsets. -/
theorem read?_of_isNeutral {cs : List Char} (h : ∀ c ∈ cs, IsNeutral c) :
    read? cs = readAbsolute? cs := by
  rw [read?, ofWord?_eq_none fun c hc => (h c hc).1, readRelative?_eq_none fun c hc => (h c hc).2]
  rfl

def value : DateSpec → Int
  | relative value _ => value
  | absolute value => value

/-- The number of an offset as it is displayed. -/
def signed (n : Int) : List Char := if 0 ≤ n then '+' :: (writeInt n).toList else (writeInt n).toList

theorem readInt?_signed (n : Int) : readInt? (signed n) = some n := by
  unfold signed
  split_ifs with h
  · exact readInt?_plus_writeInt h
  · exact readInt?_writeInt n

theorem toList_display_relative (n : Int) (u : TimeUnit) :
    (relative n u).display.toList = signed n ++ [u.symbol] := by
  unfold display signed
  split_ifs with h
  · simp [h, TimeUnit.toText]
  · simp [h, TimeUnit.toText]

theorem read?_display (d : DateSpec) (h : fitsInt64 d.value = true) :
    read? d.display.toList = some d := by
  cases d with
  | relative n u =>
    have hplain := JsonNumeral.isPlain_of_readInt? (readInt?_signed n)
    have hword : ofWord? (signed n ++ [u.symbol]) = none := by
      apply ofWord?_eq_none
      intro c hc
      rcases List.mem_append.mp hc with hc | hc
      · exact (isNeutral_of_isPlain (hplain c hc)).1
      · rw [List.mem_singleton.mp hc]
        cases u <;> decide
    have hfits : readInt64? (signed n) = some n :=
      readInt64?_eq_some_iff.mpr ⟨readInt?_signed n, h⟩
    rw [toList_display_relative, read?, hword, readRelative?]
    simp [hfits]
  | absolute n =>
    have hplain := JsonNumeral.isPlain_of_readInt? (readInt?_writeInt n)
    have hfits : readInt64? (writeInt n).toList = some n :=
      readInt64?_eq_some_iff.mpr ⟨readInt?_writeInt n, h⟩
    rw [display, read?_of_isNeutral fun c hc => isNeutral_of_isPlain (hplain c hc), readAbsolute?,
      hfits]

theorem isBlank_of_mem_display {d : DateSpec} {c : Char} (h : c ∈ d.display.toList) :
    Text.isBlank c = false := by
  cases d with
  | relative n u =>
    rw [toList_display_relative, List.mem_append, List.mem_singleton] at h
    rcases h with h | rfl
    · exact JsonNumeral.isBlank_of_isPlain (JsonNumeral.isPlain_of_readInt? (readInt?_signed n) c h)
    · exact u.isBlank_symbol
  | absolute n =>
    exact JsonNumeral.isBlank_of_isPlain (JsonNumeral.isPlain_of_readInt? (readInt?_writeInt n) c h)

/-- What is displayed for a date is read as that date, with blanks around it or without. -/
theorem parse_display (d : DateSpec) (before after : String) (h : fitsInt64 d.value = true)
    (hbefore : isBlankText before = true) (hafter : isBlankText after = true) :
    parse (before ++ d.display ++ after) = .ok d := by
  have hends : Text.BareEnds d.display.toList :=
    ⟨fun c hc => isBlank_of_mem_display (List.mem_of_mem_head? hc),
      fun c hc => isBlank_of_mem_display (List.mem_of_getLast? hc)⟩
  have htrim : Text.trim (before ++ d.display ++ after).toList = d.display.toList := by
    rw [String.toList_append, String.toList_append]
    exact hends.trim_between (isBlank_of_isBlankText hbefore) (isBlank_of_isBlankText hafter)
  rw [parse, htrim, read?_display d h]

/-- The longest way back, in months. -/
theorem parse_display_minInt64 :
    let d := relative (-9223372036854775808) .month
    fitsInt64 d.value = true ∧ isBlankText "\t" = true ∧ isBlankText " \u2003" = true ∧
      parse ("\t" ++ d.display ++ " \u2003") = .ok d := by
  intro d
  have hvalue : fitsInt64 d.value = true := by decide
  have hbefore : isBlankText "\t" = true := by decide
  have hafter : isBlankText " \u2003" = true := by decide
  exact ⟨hvalue, hbefore, hafter, parse_display d "\t" " \u2003" hvalue hbefore hafter⟩

end DateSpec
end NoteSearch
