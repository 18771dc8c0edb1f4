import NoteSearch.Filter.Coercion
import NoteSearch.Proofs.WrittenDates

/-!
# Two readers of dates

Dates of a search and values of properties are read by different readers, which try the forms of a
date in different orders. They never read two different times. What is read as a fixed date of a
search is the same time as a value, and the only values of the calendar that are no dates of a search
are those with a time of day and without an offset.
-/

namespace NoteSearch

open Numeral DateSpec

namespace Timestamp

variable {cs rest : List Char} {n width : Nat}

theorem takenDigits_append (width : Nat) (cs : List Char) :
    (cs.take width).takeWhile isDigit ++ cs.drop ((cs.take width).takeWhile isDigit).length = cs :=
  (List.prefix_iff_eq_append.mp
    ((List.takeWhile_prefix isDigit).trans (List.take_prefix width cs)))

theorem exists_of_digitsUpTo (h : digitsUpTo width cs = some (n, rest)) :
    ∃ digits, cs = digits ++ rest ∧ digits.length ≤ width ∧ readDigits? digits = some n := by
  simp only [digitsUpTo, Option.ite_none_left_eq_some, Option.some.injEq, Prod.mk.injEq] at h
  obtain ⟨hne, rfl, rfl⟩ := h
  refine ⟨_, (takenDigits_append width cs).symm, ?_, ?_⟩
  · calc ((cs.take width).takeWhile isDigit).length
      _ ≤ (cs.take width).length := (List.takeWhile_prefix isDigit).length_le
      _ ≤ width := List.length_take_le width cs
  · exact readDigits?_eq_some_iff.mpr
      ⟨by simpa using hne, fun c hc => List.mem_takeWhile_imp hc, rfl⟩

theorem exists_of_digitsExactly (h : digitsExactly width cs = some (n, rest)) :
    ∃ digits, cs = digits ++ rest ∧ ∀ c ∈ digits, isDigit c = true := by
  simp only [digitsExactly, Option.ite_none_right_eq_some, Option.some.injEq, Prod.mk.injEq] at h
  obtain ⟨hlength, -, rfl⟩ := h
  refine ⟨(cs.take width).takeWhile isDigit, ?_, fun c hc => List.mem_takeWhile_imp hc⟩
  have hcs := takenDigits_append width cs
  rw [hlength] at hcs
  exact hcs.symm

theorem eq_cons_of_mark {c : Char} {u : Unit} (h : mark c cs = some (u, rest)) :
    cs = c :: rest := by
  cases cs with
  | nil => cases h
  | cons d ds =>
    simp only [mark, Option.ite_none_right_eq_some] at h
    obtain ⟨rfl, h⟩ := h
    cases h
    rfl

/-- Between two places of a text there are neutral characters only. -/
def Passes (cs rest : List Char) : Prop := ∃ taken, cs = taken ++ rest ∧ ∀ c ∈ taken, IsNeutral c

theorem Passes.refl (cs : List Char) : Passes cs cs := ⟨[], rfl, by simp⟩

theorem Passes.trans {as bs cs : List Char} (h : Passes as bs) (h' : Passes bs cs) :
    Passes as cs := by
  obtain ⟨first, rfl, hfirst⟩ := h
  obtain ⟨second, rfl, hsecond⟩ := h'
  exact ⟨first ++ second, (List.append_assoc _ _ _).symm,
    List.forall_mem_append.mpr ⟨hfirst, hsecond⟩⟩

theorem passes_cons {c : Char} (hc : IsNeutral c) (cs : List Char) : Passes (c :: cs) cs :=
  ⟨[c], rfl, fun _ hd => List.mem_singleton.mp hd ▸ hc⟩

theorem isNeutral_of_isDigit {c : Char} (h : isDigit c = true) : IsNeutral c :=
  isNeutral_of_isPlain (.inl h)

theorem passes_digitsExactly (h : digitsExactly width cs = some (n, rest)) : Passes cs rest := by
  obtain ⟨digits, hcs, hdigits⟩ := exists_of_digitsExactly h
  exact ⟨digits, hcs, fun c hc => isNeutral_of_isDigit (hdigits c hc)⟩

theorem passes_mark {c : Char} (hc : IsNeutral c) {u : Unit} (h : mark c cs = some (u, rest)) :
    Passes cs rest := by
  rw [eq_cons_of_mark h]
  exact passes_cons hc rest

theorem passes_separator {u : Unit} (h : separator cs = some (u, rest)) : Passes cs rest := by
  cases cs with
  | nil => cases h
  | cons c cs =>
    simp only [separator, Option.ite_none_right_eq_some] at h
    obtain ⟨hc, h⟩ := h
    cases h
    have hneutral : IsNeutral c := by
      simp only [isSeparator, Bool.or_eq_true, beq_iff_eq] at hc
      rcases hc with (rfl | rfl) | rfl <;> decide
    exact passes_cons hneutral _

theorem passes_fraction (h : fraction cs = some (n, rest)) : Passes cs rest := by
  unfold fraction at h
  split at h
  · rename_i cs
    simp only [Option.ite_none_left_eq_some, Option.some.injEq, Prod.mk.injEq] at h
    obtain ⟨-, -, rfl⟩ := h
    have hprefix : cs.takeWhile isDigit <+: cs := List.takeWhile_prefix isDigit
    refine (passes_cons (by decide) cs).trans
      ⟨cs.takeWhile isDigit, (List.prefix_iff_eq_append.mp hprefix).symm, ?_⟩
    exact fun c hc => isNeutral_of_isDigit (List.mem_takeWhile_imp hc)
  · cases h
    exact .refl cs

theorem passes_signedOffset {sign seconds : Int}
    (h : signedOffset colonBetween sign cs = some (seconds, rest)) : Passes cs rest := by
  simp only [signedOffset, Option.bind_eq_some_iff, Option.map_eq_some_iff, Prod.mk.injEq] at h
  obtain ⟨hours, hhours, afterColon, hcolon, minutes, hminutes, -, rfl⟩ := h
  obtain ⟨colon, hmark, rfl⟩ := Option.map_eq_some_iff.mp hcolon
  have hread := (Option.filter_eq_some_iff.mp hminutes).1
  exact (passes_digitsExactly hhours).trans
    ((passes_mark (by decide) hmark).trans (passes_digitsExactly hread))

theorem passes_offset {seconds : Int} (h : offset colonBetween cs = some (seconds, rest)) :
    Passes cs rest := by
  unfold offset at h
  split at h
  · cases h
    exact passes_cons (by decide) _
  · cases h
    exact passes_cons (by decide) _
  · exact (passes_cons (by decide) _).trans (passes_signedOffset h)
  · exact (passes_cons (by decide) _).trans (passes_signedOffset h)
  · exact (passes_cons (by decide) _).trans (passes_signedOffset h)
  · cases h

theorem isNeutral_of_readStrict? {i : Instant} (h : readStrict? cs = some i) :
    ∀ c ∈ cs, IsNeutral c := by
  simp only [readStrict?, bind, Option.bind_eq_some_iff, Prod.exists] at h
  obtain ⟨year, _, hyear, _, _, hdash, month, _, hmonth, _, _, hdash', day, _, hday, _, _, hseparator,
    hour, _, hhour, _, _, hcolon, minute, _, hminute, _, _, hcolon', second, _, hsecond, nanos, _,
    hfraction, seconds, rest, hoffset, h⟩ := h
  have hdate := (passes_digitsExactly hyear).trans <| (passes_mark (by decide) hdash).trans <|
    (passes_digitsExactly hmonth).trans <| (passes_mark (by decide) hdash').trans <|
      passes_digitsExactly hday
  have htime := (passes_separator hseparator).trans <| (passes_digitsExactly hhour).trans <|
    (passes_mark (by decide) hcolon).trans <| (passes_digitsExactly hminute).trans <|
      (passes_mark (by decide) hcolon').trans <| passes_digitsExactly hsecond
  obtain ⟨taken, rfl, htaken⟩ :=
    hdate.trans (htime.trans ((passes_fraction hfraction).trans (passes_offset hoffset)))
  split_ifs at h with hrest
  rw [List.isEmpty_iff.mp hrest, List.append_nil]
  exact htaken

/-- Up to `width` digits behind any blanks. -/
def WritesNumber (width n : Nat) (cs : List Char) : Prop :=
  ∃ blanks digits, cs = blanks ++ digits ∧ (∀ c ∈ blanks, Text.isBlank c = true) ∧
    digits.length ≤ width ∧ readDigits? digits = some n

/-- Up to four digits, or any digits with a sign in front of them, behind any blanks. -/
inductive WritesYear : Int → List Char → Prop
  | plain {n : Nat} {cs : List Char} (h : WritesNumber 4 n cs) : WritesYear n cs
  | plus {n : Nat} {blanks digits : List Char} (hblanks : ∀ c ∈ blanks, Text.isBlank c = true)
      (h : readDigits? digits = some n) : WritesYear n (blanks ++ '+' :: digits)
  | minus {n : Nat} {blanks digits : List Char} (hblanks : ∀ c ∈ blanks, Text.isBlank c = true)
      (h : readDigits? digits = some n) : WritesYear (-n) (blanks ++ '-' :: digits)

def WritesDate (d : CivilDate) (cs : List Char) : Prop :=
  ∃ year month day, cs = year ++ '-' :: (month ++ '-' :: day) ∧ WritesYear d.year year ∧
    WritesNumber 2 d.month month ∧ WritesNumber 2 d.day day

/-- Down to the minute or down to the second. -/
inductive WritesTime : TimeOfDay → List Char → Prop
  | minute {h m : Nat} {hour minute : List Char} (hhour : WritesNumber 2 h hour)
      (hminute : WritesNumber 2 m minute) : WritesTime ⟨h, m, 0, 0⟩ (hour ++ ':' :: minute)
  | second {h m s : Nat} {hour minute second : List Char} (hhour : WritesNumber 2 h hour)
      (hminute : WritesNumber 2 m minute) (hsecond : WritesNumber 2 s second) :
      WritesTime ⟨h, m, s, 0⟩ (hour ++ ':' :: (minute ++ ':' :: second))

/-- A date and a time of day of the calendar, perhaps with a `T` between them, and no offset: the
instant that they name in UTC. -/
def WritesLocal (i : Instant) (cs : List Char) : Prop :=
  ∃ d t date time, (cs = date ++ time ∨ cs = date ++ 'T' :: time) ∧ WritesDate d date ∧
    WritesTime t time ∧ d.isValid = true ∧ t.isValid = true ∧ i = Instant.ofCivil d t 0

theorem isNeutral_of_readDigits? (h : readDigits? cs = some n) : ∀ c ∈ cs, IsNeutral c :=
  fun c hc => isNeutral_of_isDigit ((readDigits?_eq_some_iff.mp h).2.1 c hc)

theorem WritesNumber.isNeutral (h : WritesNumber width n cs) : ∀ c ∈ cs, IsNeutral c := by
  obtain ⟨blanks, digits, rfl, hblanks, -, hread⟩ := h
  rw [List.forall_mem_append]
  exact ⟨fun c hc => isNeutral_of_isBlank (hblanks c hc), isNeutral_of_readDigits? hread⟩

theorem WritesYear.isNeutral {year : Int} (h : WritesYear year cs) : ∀ c ∈ cs, IsNeutral c := by
  cases h with
  | plain h => exact h.isNeutral
  | plus hblanks h =>
    rw [List.forall_mem_append, List.forall_mem_cons]
    exact ⟨fun c hc => isNeutral_of_isBlank (hblanks c hc), by decide, isNeutral_of_readDigits? h⟩
  | minus hblanks h =>
    rw [List.forall_mem_append, List.forall_mem_cons]
    exact ⟨fun c hc => isNeutral_of_isBlank (hblanks c hc), by decide, isNeutral_of_readDigits? h⟩

theorem WritesDate.isNeutral {d : CivilDate} (h : WritesDate d cs) : ∀ c ∈ cs, IsNeutral c := by
  obtain ⟨year, month, day, rfl, hyear, hmonth, hday⟩ := h
  simp only [List.forall_mem_append, List.forall_mem_cons]
  exact ⟨hyear.isNeutral, by decide, hmonth.isNeutral, by decide, hday.isNeutral⟩

theorem WritesTime.isNeutral {t : TimeOfDay} (h : WritesTime t cs) : ∀ c ∈ cs, IsNeutral c := by
  cases h with
  | minute hhour hminute =>
    rw [List.forall_mem_append, List.forall_mem_cons]
    exact ⟨hhour.isNeutral, by decide, hminute.isNeutral⟩
  | second hhour hminute hsecond =>
    simp only [List.forall_mem_append, List.forall_mem_cons]
    exact ⟨hhour.isNeutral, by decide, hminute.isNeutral, by decide, hsecond.isNeutral⟩

theorem WritesLocal.isNeutral {i : Instant} (h : WritesLocal i cs) : ∀ c ∈ cs, IsNeutral c := by
  obtain ⟨d, t, date, time, rfl | rfl, hdate, htime, -⟩ := h
  · exact List.forall_mem_append.mpr ⟨hdate.isNeutral, htime.isNeutral⟩
  · rw [List.forall_mem_append, List.forall_mem_cons]
    exact ⟨hdate.isNeutral, by decide, htime.isNeutral⟩

theorem trimStart_append_blanks (cs : List Char) :
    ∃ blanks, cs = blanks ++ Text.trimStart cs ∧ ∀ c ∈ blanks, Text.isBlank c = true :=
  ⟨cs.takeWhile Text.isBlank, List.takeWhile_append_dropWhile.symm,
    fun _ hc => List.mem_takeWhile_imp hc⟩

theorem exists_writesNumber (h : digitsUpTo width (Text.trimStart cs) = some (n, rest)) :
    ∃ number, cs = number ++ rest ∧ WritesNumber width n number := by
  obtain ⟨blanks, hcs, hblanks⟩ := trimStart_append_blanks cs
  obtain ⟨digits, hdigits, hlength, hread⟩ := exists_of_digitsUpTo h
  rw [hdigits, ← List.append_assoc] at hcs
  exact ⟨blanks ++ digits, hcs, blanks, digits, rfl, hblanks, hlength, hread⟩

theorem exists_writesYear {year : Int}
    (h : signedYear (Text.trimStart cs) = some (year, rest)) :
    ∃ written, cs = written ++ rest ∧ WritesYear year written := by
  obtain ⟨blanks, hcs, hblanks⟩ := trimStart_append_blanks cs
  unfold signedYear at h
  split at h
  · rename_i heq
    obtain ⟨⟨n, after⟩, hdigits, hyear⟩ := Option.map_eq_some_iff.mp h
    cases hyear
    obtain ⟨digits, rfl, -, hread⟩ := exists_of_digitsUpTo hdigits
    exact ⟨blanks ++ '-' :: digits, by rw [hcs, heq]; simp, .minus hblanks hread⟩
  · rename_i heq
    obtain ⟨⟨n, after⟩, hdigits, hyear⟩ := Option.map_eq_some_iff.mp h
    cases hyear
    obtain ⟨digits, rfl, -, hread⟩ := exists_of_digitsUpTo hdigits
    exact ⟨blanks ++ '+' :: digits, by rw [hcs, heq]; simp, .plus hblanks hread⟩
  · obtain ⟨⟨n, after⟩, hdigits, hyear⟩ := Option.map_eq_some_iff.mp h
    cases hyear
    obtain ⟨number, hnumber, hwrites⟩ := exists_writesNumber hdigits
    exact ⟨number, hnumber, .plain hwrites⟩

theorem exists_writesDate {year : Int} {month day : Nat}
    (h : looseDate id cs = some ((year, month, day), rest)) :
    ∃ date, cs = date ++ rest ∧ WritesDate ⟨year, month, day⟩ date := by
  simp only [looseDate, id, bind, Option.bind_eq_some_iff, Prod.exists, pure, Option.some.injEq,
    Prod.mk.injEq] at h
  obtain ⟨_, afterYear, hyear, _, afterDash, hdash, _, afterMonth, hmonth, _, afterDash', hdash', _,
    _, hday, ⟨rfl, rfl, rfl⟩, rfl⟩ := h
  obtain ⟨yearText, rfl, hyearText⟩ := exists_writesYear hyear
  obtain rfl := eq_cons_of_mark hdash
  obtain ⟨monthText, rfl, hmonthText⟩ := exists_writesNumber hmonth
  obtain rfl := eq_cons_of_mark hdash'
  obtain ⟨dayText, rfl, hdayText⟩ := exists_writesNumber hday
  exact ⟨yearText ++ '-' :: (monthText ++ '-' :: dayText), by simp, yearText, monthText, dayText,
    rfl, hyearText, hmonthText, hdayText⟩

theorem exists_of_looseHour {hour minute : Nat}
    (h : looseHour id cs = some ((hour, minute), rest)) :
    ∃ hourText minuteText, cs = hourText ++ ':' :: (minuteText ++ rest) ∧
      WritesNumber 2 hour hourText ∧ WritesNumber 2 minute minuteText := by
  simp only [looseHour, id, bind, Option.bind_eq_some_iff, Prod.exists, pure, Option.some.injEq,
    Prod.mk.injEq] at h
  obtain ⟨_, afterHour, hhour, _, afterColon, hcolon, _, _, hminute, ⟨rfl, rfl⟩, rfl⟩ := h
  obtain ⟨hourText, rfl, hhourText⟩ := exists_writesNumber hhour
  obtain rfl := eq_cons_of_mark hcolon
  obtain ⟨minuteText, rfl, hminuteText⟩ := exists_writesNumber hminute
  exact ⟨hourText, minuteText, rfl, hhourText, hminuteText⟩

theorem exists_of_looseSecond {second : Nat} (h : looseSecond id cs = some (second, rest)) :
    ∃ secondText, cs = ':' :: (secondText ++ rest) ∧ WritesNumber 2 second secondText := by
  simp only [looseSecond, id, bind, Option.bind_eq_some_iff, Prod.exists] at h
  obtain ⟨_, afterColon, hcolon, hsecond⟩ := h
  obtain rfl := eq_cons_of_mark hcolon
  obtain ⟨secondText, rfl, hsecondText⟩ := exists_writesNumber hsecond
  exact ⟨secondText, rfl, hsecondText⟩

theorem writesDate_of_readDate? {i : Instant} (h : readDate? cs = some i) :
    ∃ d, WritesDate d cs := by
  simp only [readDate?, bind, Option.bind_eq_some_iff, Prod.exists] at h
  obtain ⟨year, month, day, rest, hdate, h⟩ := h
  obtain ⟨date, rfl, hwrites⟩ := exists_writesDate hdate
  split_ifs at h with hrest
  rw [List.isEmpty_iff.mp hrest, List.append_nil]
  exact ⟨_, hwrites⟩

theorem writesLocal_of_assemble? {d : CivilDate} {t : TimeOfDay} {date time : List Char}
    {i : Instant} (hdate : WritesDate d date) (htime : WritesTime t time)
    (hcs : cs = date ++ time ∨ cs = date ++ 'T' :: time)
    (h : assemble? d.year d.month d.day t 0 = some i) : WritesLocal i cs := by
  obtain ⟨d', hd, h⟩ := Option.bind_eq_some_iff.mp h
  simp only [CivilDate.make?, Option.ite_none_right_eq_some, Bool.and_eq_true,
    Option.some.injEq] at hd h
  obtain ⟨⟨⟨hvalid, -⟩, -⟩, rfl⟩ := hd
  obtain ⟨⟨⟨ht, -⟩, -⟩, rfl⟩ := h
  exact ⟨d, t, date, time, hcs, hdate, htime, hvalid, ht, rfl⟩

theorem writesLocal_of_readDateTime? {i : Instant} (h : readDateTime? cs = some i) :
    WritesLocal i cs := by
  simp only [readDateTime?, bind, Option.bind_eq_some_iff, Prod.exists] at h
  obtain ⟨year, month, day, afterDate, hdate, _, afterMark, hmark, hour, minute, afterHour, hhour,
    second, rest, hsecond, h⟩ := h
  obtain ⟨date, rfl, hwrites⟩ := exists_writesDate hdate
  obtain rfl := eq_cons_of_mark hmark
  obtain ⟨hourText, minuteText, rfl, hhourText, hminuteText⟩ := exists_of_looseHour hhour
  obtain ⟨secondText, rfl, hsecondText⟩ := exists_of_looseSecond hsecond
  split_ifs at h with hrest
  rw [List.isEmpty_iff.mp hrest, List.append_nil]
  exact writesLocal_of_assemble? hwrites (.second hhourText hminuteText hsecondText) (.inr rfl) h

theorem writesLocal_of_readSpacedDateTime? {i : Instant} (h : readSpacedDateTime? cs = some i) :
    WritesLocal i cs := by
  simp only [readSpacedDateTime?, bind, Option.bind_eq_some_iff, Prod.exists] at h
  obtain ⟨year, month, day, afterDate, hdate, hour, minute, afterHour, hhour, second, rest, hsecond,
    h⟩ := h
  obtain ⟨date, rfl, hwrites⟩ := exists_writesDate hdate
  obtain ⟨hourText, minuteText, rfl, hhourText, hminuteText⟩ := exists_of_looseHour hhour
  obtain ⟨secondText, rfl, hsecondText⟩ := exists_of_looseSecond hsecond
  split_ifs at h with hrest
  rw [List.isEmpty_iff.mp hrest, List.append_nil]
  exact writesLocal_of_assemble? hwrites (.second hhourText hminuteText hsecondText) (.inl rfl) h

theorem writesLocal_of_readSpacedMinute? {i : Instant} (h : readSpacedMinute? cs = some i) :
    WritesLocal i cs := by
  simp only [readSpacedMinute?, bind, Option.bind_eq_some_iff, Prod.exists] at h
  obtain ⟨year, month, day, afterDate, hdate, hour, minute, rest, hhour, h⟩ := h
  obtain ⟨date, rfl, hwrites⟩ := exists_writesDate hdate
  obtain ⟨hourText, minuteText, rfl, hhourText, hminuteText⟩ := exists_of_looseHour hhour
  split_ifs at h with hrest
  rw [List.isEmpty_iff.mp hrest, List.append_nil]
  exact writesLocal_of_assemble? hwrites (.minute hhourText hminuteText) (.inl rfl) h

/-- Of a date alone the other formats read the date, too, and then miss the time. -/
theorem readNaive?_of_readDate? {i : Instant} (h : readDate? cs = some i) :
    readNaive? cs = some i := by
  have hdate := h
  simp only [readDate?, bind, Option.bind_eq_some_iff, Prod.exists] at hdate
  obtain ⟨year, month, day, rest, hdate, hrest⟩ := hdate
  split_ifs at hrest with hempty
  rw [List.isEmpty_iff.mp hempty] at hdate
  have hjoined : readDateTime? cs = none := by
    rw [readDateTime?, hdate]
    rfl
  have hspaced : readSpacedDateTime? cs = none := by
    rw [readSpacedDateTime?, hdate]
    rfl
  have hminute : readSpacedMinute? cs = none := by
    rw [readSpacedMinute?, hdate]
    rfl
  rw [readNaive?, hjoined, hspaced, hminute, h]
  rfl

theorem writesLocal_of_readNaive? {i : Instant} (h : readNaive? cs = some i)
    (hdate : readDate? cs = none) : WritesLocal i cs := by
  rw [readNaive?, hdate] at h
  rcases hjoined : readDateTime? cs with _ | j
  · rcases hspaced : readSpacedDateTime? cs with _ | j
    · rcases hminute : readSpacedMinute? cs with _ | j
      · rw [hjoined, hspaced, hminute] at h
        cases h
      · rw [hjoined, hspaced, hminute] at h
        cases h
        exact writesLocal_of_readSpacedMinute? hminute
    · rw [hjoined, hspaced] at h
      cases h
      exact writesLocal_of_readSpacedDateTime? hspaced
  · rw [hjoined] at h
    cases h
    exact writesLocal_of_readDateTime? hjoined

end Timestamp

namespace DateSpec

variable {cs : List Char} {v : Int}

/-- Words and offsets name no fixed dates. -/
theorem readAbsolute?_of_read? (h : read? cs = some (absolute v)) :
    readAbsolute? cs = some (absolute v) := by
  have hword : ofWord? cs ≠ some (absolute v) := by
    unfold ofWord?
    split <;> rintro ⟨⟩
  have hoffset : readRelative? cs ≠ some (absolute v) := by
    intro hread
    simp only [readRelative?, bind, Option.bind_eq_some_iff, pure, Option.some.injEq] at hread
    obtain ⟨unit, -, value, -, heq⟩ := hread
    cases heq
  rw [read?] at h
  cases hw : ofWord? cs with
  | some d =>
    rw [hw] at h
    cases h
    exact absurd hw hword
  | none =>
    cases ho : readRelative? cs with
    | some d =>
      rw [hw, ho] at h
      cases h
      exact absurd ho hoffset
    | none => simpa [hw, ho] using h

/-- A fixed date of a search is the same time as a value. -/
theorem readMillis?_of_readAbsolute? (h : readAbsolute? cs = some (absolute v)) :
    Coercion.readMillis? cs = some v := by
  rw [readAbsolute?] at h
  rw [Coercion.readMillis?]
  cases hn : readInt64? cs with
  | some n =>
    rw [hn] at h
    cases h
    rfl
  | none =>
    rw [hn] at h
    cases hs : Timestamp.readStrict? cs with
    | some i =>
      rw [hs] at h
      cases h
      rfl
    | none =>
      rw [hs] at h
      obtain ⟨i, hi, heq⟩ := Option.map_eq_some_iff.mp h
      cases heq
      have hdate : Timestamp.readDate? cs = some i := hi
      rw [Timestamp.readNaive?_of_readDate? hdate]
      rfl

/-- A time that is read as a value is a fixed date of a search, unless it has a time of day and no
offset. -/
theorem readAbsolute?_of_readMillis? (h : Coercion.readMillis? cs = some v) :
    readAbsolute? cs = some (absolute v) ∨
      readAbsolute? cs = none ∧ ∃ i, Timestamp.WritesLocal i cs ∧ v = i.toMillis := by
  rw [Coercion.readMillis?] at h
  rw [readAbsolute?]
  cases hn : readInt64? cs with
  | some n =>
    rw [hn] at h
    cases h
    exact .inl rfl
  | none =>
    rw [hn] at h
    cases hs : Timestamp.readStrict? cs with
    | some i =>
      rw [hs] at h
      cases h
      exact .inl rfl
    | none =>
      rw [hs] at h
      obtain ⟨i, hi, rfl⟩ := Option.map_eq_some_iff.mp h
      cases hdate : Timestamp.readDate? cs with
      | some j =>
        have hsame := Timestamp.readNaive?_of_readDate? hdate
        rw [hi] at hsame
        cases hsame
        exact .inl rfl
      | none => exact .inr ⟨rfl, i, Timestamp.writesLocal_of_readNaive? hi hdate, rfl⟩

theorem isNeutral_of_readMillis? (h : Coercion.readMillis? cs = some v) : ∀ c ∈ cs, IsNeutral c := by
  unfold Coercion.readMillis? at h
  split at h
  · rename_i n hn
    have hplain := JsonNumeral.isPlain_of_readInt? (readInt64?_eq_some_iff.mp hn).1
    exact fun c hc => isNeutral_of_isPlain (hplain c hc)
  · split at h
    · rename_i i hs
      exact Timestamp.isNeutral_of_readStrict? hs
    · obtain ⟨i, hi, -⟩ := Option.map_eq_some_iff.mp h
      cases hdate : Timestamp.readDate? cs with
      | some j =>
        obtain ⟨d, hwrites⟩ := Timestamp.writesDate_of_readDate? hdate
        exact hwrites.isNeutral
      | none => exact (Timestamp.writesLocal_of_readNaive? hi hdate).isNeutral

theorem convert_dateTime_iff (s : String) (v : Int) :
    Coercion.convert .dateTime (.text s) = .integer v ↔
      Coercion.readMillis? (Text.trim s.toList) = some v := by
  simp only [Coercion.convert, Coercion.convert?, Coercion.toMillis?]
  cases Coercion.readMillis? (Text.trim s.toList) <;> simp

theorem parse_eq_ok_iff (s : String) (d : DateSpec) :
    parse s = .ok d ↔ read? (Text.trim s.toList) = some d := by
  unfold parse
  cases read? (Text.trim s.toList) <;> simp

/-- What is read as a fixed date of a search is read as the same time when it is a value. The other
way round, what is read as a time is the same fixed date, or no date at all because it is a date with
a time of day and without an offset. -/
theorem parse_and_convert (s : String) (v : Int) :
    (parse s = .ok (absolute v) → Coercion.convert .dateTime (.text s) = .integer v) ∧
    (Coercion.convert .dateTime (.text s) = .integer v →
      parse s = .ok (absolute v) ∨
        parse s = .error (.invalidQuery (.unreadableDate s)) ∧
          ∃ i, Timestamp.WritesLocal i (Text.trim s.toList) ∧ v = i.toMillis) := by
  rw [parse_eq_ok_iff, convert_dateTime_iff]
  constructor
  · exact fun h => readMillis?_of_readAbsolute? (readAbsolute?_of_read? h)
  · intro h
    have hread := read?_of_isNeutral (isNeutral_of_readMillis? h)
    rw [parse, hread]
    rcases readAbsolute?_of_readMillis? h with habsolute | ⟨hnone, hlocal⟩
    · exact .inl habsolute
    · rw [hnone]
      exact .inr ⟨rfl, hlocal⟩

/-- A leap day is the same time for both readers; half past eleven that day is one for values only. -/
theorem parse_and_convert_leapDay :
    parse " 2024-02-29 " = .ok (absolute 1709164800000) ∧
      Coercion.convert .dateTime (.text " 2024-02-29 ") = .integer 1709164800000 ∧
      Coercion.convert .dateTime (.text "2024-02-29 23:30") = .integer 1709249400000 ∧
      parse "2024-02-29 23:30" = .error (.invalidQuery (.unreadableDate "2024-02-29 23:30")) ∧
      ∃ i, Timestamp.WritesLocal i (Text.trim "2024-02-29 23:30".toList) ∧
        1709249400000 = i.toMillis := by
  have hdated : parse " 2024-02-29 " = .ok (absolute 1709164800000) := by rfl
  have htimed : Coercion.convert .dateTime (.text "2024-02-29 23:30") = .integer 1709249400000 := by
    decide
  refine ⟨hdated, (parse_and_convert _ _).1 hdated, htimed, ?_⟩
  rcases (parse_and_convert _ _).2 htimed with hparse | hparse
  · cases hparse
  · exact hparse

end DateSpec
end NoteSearch
