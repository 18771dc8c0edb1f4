import NoteSearch.Block.Basic
import NoteSearch.Proofs.CivilDates
import NoteSearch.Proofs.Numerals

/-!
# Times that are written and read

The times of blocks are read from milliseconds, or from texts with any offset and any fraction, and
a second 60 is a leap second. Written in UTC such a time is read again as itself, to the nanosecond,
as long as four digits hold its year. Any other year is written with a sign, which is not read.
-/

namespace NoteSearch

open Numeral

namespace Timestamp

theorem digitsExactly_padded (width n : Nat) (rest : List Char) :
    digitsExactly width (padded width n ++ rest) = some (n % 10 ^ width, rest) := by
  have htake : (padded width n ++ rest).take width = padded width n :=
    List.take_left' (length_padded width n)
  have hdrop : (padded width n ++ rest).drop width = rest :=
    List.drop_left' (length_padded width n)
  have hdigits : (padded width n).takeWhile isDigit = padded width n :=
    List.takeWhile_eq_self_iff.mpr fun c => isDigit_of_mem_padded width
  simp only [digitsExactly, htake, hdigits, hdrop, length_padded, if_true, ofDigits_padded]

@[simp] theorem mark_cons (c : Char) (cs : List Char) : mark c (c :: cs) = some ((), cs) :=
  if_pos rfl

theorem separator_cons {c : Char} (hc : isSeparator c = true) (cs : List Char) :
    separator (c :: cs) = some ((), cs) := if_pos hc

@[simp] theorem offset_cons (between : List Char → Option (List Char)) (cs : List Char) :
    offset between ('Z' :: cs) = some (0, cs) := rfl

/-- A fraction of up to nine digits ends where they do. -/
theorem fraction_padded {width : Nat} (hpos : 0 < width) (hle : width ≤ 9) (n : Nat)
    (cs : List Char) :
    fraction ('.' :: padded width n ++ 'Z' :: cs) =
      some (n % 10 ^ width * 10 ^ (9 - width), 'Z' :: cs) := by
  have hdigits : (padded width n ++ 'Z' :: cs).takeWhile isDigit = padded width n := by
    rw [List.takeWhile_append_of_pos fun c => isDigit_of_mem_padded width]
    exact List.append_nil _
  have hne : (padded width n).isEmpty = false := by
    rw [List.isEmpty_eq_false_iff, ← List.length_pos_iff, length_padded]
    exact hpos
  have hkept : (padded width n).take 9 = padded width n :=
    List.take_of_length_le (by rwa [length_padded])
  have hrest : (padded width n ++ 'Z' :: cs).drop width = 'Z' :: cs :=
    List.drop_left' (length_padded width n)
  simp [fraction, hdigits, hne, hkept, hrest, ofDigits_padded]

/-- The digits that are left out are zeros. -/
theorem fraction_writeFraction {nanos : Nat} (h : nanos < 10 ^ 9) (cs : List Char) :
    fraction (writeFraction nanos ++ 'Z' :: cs) = some (nanos, 'Z' :: cs) := by
  unfold writeFraction
  split_ifs with hzero hmillis hmicros
  · rw [hzero]
    rfl
  · rw [fraction_padded (by decide) (by decide)]
    congr 2
    omega
  · rw [fraction_padded (by decide) (by decide)]
    congr 2
    omega
  · rw [fraction_padded (by decide) (by decide)]
    congr 2
    omega

theorem dvd_of_signedOffset {between : List Char → Option (List Char)} {sign seconds : Int}
    {cs rest : List Char} (h : signedOffset between sign cs = some (seconds, rest)) :
    60 ∣ seconds := by
  simp only [signedOffset, Option.bind_eq_some_iff, Option.map_eq_some_iff, Prod.mk.injEq] at h
  obtain ⟨hours, -, -, -, minutes, -, rfl, -⟩ := h
  exact Int.dvd_mul_of_dvd_right (by omega)

theorem dvd_of_offset {between : List Char → Option (List Char)} {seconds : Int}
    {cs rest : List Char} (h : offset between cs = some (seconds, rest)) : 60 ∣ seconds := by
  unfold offset at h
  split at h
  · cases h
    exact Int.dvd_zero 60
  · cases h
    exact Int.dvd_zero 60
  · exact dvd_of_signedOffset h
  · exact dvd_of_signedOffset h
  · exact dvd_of_signedOffset h
  · cases h

end Timestamp

namespace Instant

/-- Nanoseconds beyond a full second belong to a leap second, which ends a minute. -/
structure Regular (i : Instant) : Prop where
  nanos_lt : i.nanos < 2 * nanosPerSecond
  leap : nanosPerSecond ≤ i.nanos → i.seconds % 60 = 59

theorem regular_ofMillis (millis : Int) : (ofMillis millis).Regular := by
  constructor
  · simp only [ofMillis, nanosPerSecond]
    omega
  · simp only [ofMillis, nanosPerSecond]
    omega

/-- An offset of whole minutes leaves a leap second at the end of a minute. -/
theorem regular_ofCivil (d : CivilDate) {t : TimeOfDay} (ht : t.isValid = true) {offset : Int}
    (hoffset : 60 ∣ offset) : (ofCivil d t offset).Regular := by
  simp only [TimeOfDay.isValid, Bool.and_eq_true, decide_eq_true_eq] at ht
  constructor
  · simp only [ofCivil, nanosPerSecond]
    split_ifs <;> omega
  · simp only [ofCivil, nanosPerSecond]
    split_ifs <;> omega

variable {i : Instant}

theorem Regular.isValid_timeOfDay (h : i.Regular) : i.timeOfDay.isValid = true := by
  obtain ⟨hnanos, hleap⟩ := h
  simp only [nanosPerSecond] at hnanos hleap
  simp only [TimeOfDay.isValid, Bool.and_eq_true, decide_eq_true_eq]
  simp only [timeOfDay, nanosPerSecond]
  omega

theorem Regular.second_eq_iff (h : i.Regular) :
    i.timeOfDay.second = 60 ↔ nanosPerSecond ≤ i.nanos := by
  obtain ⟨hnanos, hleap⟩ := h
  simp only [nanosPerSecond] at hnanos hleap
  simp only [timeOfDay, nanosPerSecond]
  omega

theorem Regular.ofCivil_date_timeOfDay (h : i.Regular) : ofCivil i.date i.timeOfDay 0 = i := by
  have hseconds : (ofCivil i.date i.timeOfDay 0).seconds = i.seconds := by
    obtain ⟨hnanos, hleap⟩ := h
    simp only [nanosPerSecond] at hnanos hleap
    simp only [ofCivil, date, CivilDate.toDays_ofDays, timeOfDay, nanosPerSecond]
    omega
  have hnanos : (ofCivil i.date i.timeOfDay 0).nanos = i.nanos := by
    have hlt := h.nanos_lt
    simp only [nanosPerSecond] at hlt
    by_cases hleap : nanosPerSecond ≤ i.nanos
    · rw [ofCivil, if_pos (h.second_eq_iff.mpr hleap)]
      simp only [timeOfDay, nanosPerSecond] at hleap ⊢
      omega
    · rw [ofCivil, if_neg (mt h.second_eq_iff.mp hleap)]
      simp only [timeOfDay, nanosPerSecond] at hleap ⊢
      omega
  exact congrArg₂ Instant.mk hseconds hnanos

def hasFourDigitYear (i : Instant) : Bool := 0 ≤ i.date.year && i.date.year ≤ 9999

end Instant

namespace Timestamp

theorem regular_of_assemble? {year : Int} {month day : Nat} {t : TimeOfDay} {seconds : Int}
    {i : Instant} (hoffset : 60 ∣ seconds) (h : assemble? year month day t seconds = some i) :
    i.Regular := by
  obtain ⟨d, -, h⟩ := Option.bind_eq_some_iff.mp h
  split_ifs at h with hvalid
  cases h
  simp only [Bool.and_eq_true] at hvalid
  exact Instant.regular_ofCivil d hvalid.1.1 hoffset

theorem regular_of_readStrict? {cs : List Char} {i : Instant} (h : readStrict? cs = some i) :
    i.Regular := by
  simp only [readStrict?, bind, Option.bind_eq_some_iff, Prod.exists] at h
  obtain ⟨year, _, -, _, _, -, month, _, -, _, _, -, day, _, -, _, _, -, hour, _, -, _, _, -, minute,
    _, -, _, _, -, second, _, -, nanos, _, -, seconds, rest, hoffset, h⟩ := h
  split_ifs at h with hrest
  exact regular_of_assemble? (dvd_of_offset hoffset) h

/-- Numbers of the widths of a date and a time are read part by part, and what follows is read as a
fraction and an offset. -/
theorem readStrict?_padded {year month day hour minute second : Nat} {c : Char} (hyear : year < 10000)
    (hmonth : month < 100) (hday : day < 100) (hhour : hour < 100) (hminute : minute < 100)
    (hsecond : second < 100) (hc : isSeparator c = true) (rest : List Char) :
    readStrict? (padded 4 year ++ '-' :: padded 2 month ++ '-' :: padded 2 day ++ c ::
        padded 2 hour ++ ':' :: padded 2 minute ++ ':' :: padded 2 second ++ rest) =
      (fraction rest).bind fun nanos => (offset colonBetween nanos.2).bind fun zone =>
        if zone.2.isEmpty then assemble? year month day ⟨hour, minute, second, nanos.1⟩ zone.1
        else none := by
  have hnumbers : year % 10 ^ 4 = year ∧ month % 10 ^ 2 = month ∧ day % 10 ^ 2 = day ∧
      hour % 10 ^ 2 = hour ∧ minute % 10 ^ 2 = minute ∧ second % 10 ^ 2 = second := by
    omega
  obtain ⟨hyear, hmonth, hday, hhour, hminute, hsecond⟩ := hnumbers
  simp only [readStrict?, List.append_assoc, List.cons_append, bind, Option.bind_some,
    digitsExactly_padded, mark_cons, separator_cons hc, hyear, hmonth, hday, hhour, hminute,
    hsecond]

theorem readStrict?_parts (year month day : Nat) {t : TimeOfDay} (hyear : year < 10000)
    (hmonth : month < 100) (hday : day < 100) (ht : t.isValid = true) :
    readStrict? (padded 4 year ++ '-' :: padded 2 month ++ '-' :: padded 2 day ++ 'T' ::
        padded 2 t.hour ++ ':' :: padded 2 t.minute ++ ':' :: padded 2 t.second ++
          writeFraction t.nanos ++ ['Z']) =
      assemble? year month day t 0 := by
  simp only [TimeOfDay.isValid, Bool.and_eq_true, decide_eq_true_eq] at ht
  obtain ⟨⟨⟨hhour, hminute⟩, hsecond⟩, hnanos⟩ := ht
  rw [List.append_assoc, readStrict?_padded hyear hmonth hday (by omega) (by omega) (by omega) rfl,
    fraction_writeFraction hnanos, Option.bind_some, offset_cons, Option.bind_some]
  rfl

/-- A regular time is read as it is written if four digits hold its year. -/
theorem readStrict?_write {i : Instant} (h : i.Regular) (hyear : i.hasFourDigitYear = true) :
    readStrict? (write i).toList = some i := by
  simp only [Instant.hasFourDigitYear, Bool.and_eq_true, decide_eq_true_eq] at hyear
  have hvalid : i.date.isValid = true := CivilDate.isValid_ofDays _
  obtain ⟨hmonth, hday⟩ := CivilDate.le_of_isValid hvalid
  have hwritten : writeYear i.date.year = padded 4 i.date.year.toNat := by
    simp [writeYear, hyear]
  have hdate : CivilDate.make? i.date.year i.date.month i.date.day = some i.date := by
    have hmin : CivilDate.minYear ≤ i.date.year := Int.le_trans (by decide) hyear.1
    have hmax : i.date.year ≤ CivilDate.maxYear := Int.le_trans hyear.2 (by decide)
    simp [CivilDate.make?, hvalid, hmin, hmax]
  rw [write, String.toList_ofList, hwritten,
    readStrict?_parts _ _ _ (by omega) (by omega) (by omega) h.isValid_timeOfDay,
    Int.toNat_of_nonneg hyear.1, assemble?, hdate, Option.bind_some, h.isValid_timeOfDay,
    h.ofCivil_date_timeOfDay]
  rfl

theorem readStrict?_write_of_sign {i : Instant} (hyear : i.hasFourDigitYear = false) :
    readStrict? (write i).toList = none := by
  have hsign : ∃ sign rest, isDigit sign = false ∧ (write i).toList = sign :: rest := by
    have hyear : (0 ≤ i.date.year && i.date.year ≤ 9999) = false := hyear
    rw [write, String.toList_ofList, writeYear, hyear]
    by_cases hneg : i.date.year < 0
    · exact ⟨'-', _, rfl, by rw [if_pos hneg]; rfl⟩
    · exact ⟨'+', _, rfl, by rw [if_neg hneg]; rfl⟩
  obtain ⟨sign, rest, hdigit, hwritten⟩ := hsign
  have hfirst : digitsExactly 4 (sign :: rest) = none := by
    simp [digitsExactly, hdigit]
  rw [hwritten, readStrict?, hfirst]
  rfl

end Timestamp

namespace Block

/-- However a time is given, it is regular. -/
theorem regular_of_time? {j : Json} {i : Instant} (h : time? j = some i) : i.Regular := by
  cases j with
  | integer n =>
    simp only [time?, Option.ite_none_right_eq_some] at h
    obtain ⟨-, h⟩ := h
    simp only [Instant.ofMillis?, Option.ite_none_right_eq_some] at h
    obtain ⟨-, h⟩ := h
    cases h
    exact Instant.regular_ofMillis n
  | text s => exact Timestamp.regular_of_readStrict? h
  | _ => cases h

/-- What is written for a time that was read is read as that time, unless the year has a sign. -/
theorem time?_timeToJson {o : Option Instant} (h : ∀ i ∈ o, i.Regular) :
    time? (timeToJson o) = o.filter Instant.hasFourDigitYear := by
  cases o with
  | none => rfl
  | some i =>
    change Timestamp.readStrict? (Timestamp.write i).toList = _
    cases hyear : i.hasFourDigitYear with
    | true => rw [Timestamp.readStrict?_write (h i rfl) hyear, Option.filter_some, if_pos hyear]
    | false =>
      rw [Timestamp.readStrict?_write_of_sign hyear, Option.filter_some, if_neg (by simp [hyear])]

end Block
end NoteSearch
