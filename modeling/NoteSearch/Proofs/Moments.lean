import Mathlib.Data.List.Lex
import NoteSearch.Proofs.AbsoluteDates
import NoteSearch.Proofs.Times

/-!
# Spellings of a moment

A second of the calendar can be written as a value in several ways: with a `T` or a space, with or
without an offset, and without the parts of the time that are zero. All spellings are converted to
one number of milliseconds, and these numbers are in the order of the calendar, in leap years as in
others and before 1970 as after it.
-/

namespace NoteSearch

open Numeral

namespace Timestamp

theorem padded_eq_cons (width n : Nat) :
    ∃ d ds, padded (width + 1) n = d :: ds ∧ isDigit d = true := by
  have hpos : 0 < (padded (width + 1) n).length := by
    rw [length_padded]
    exact Nat.succ_pos width
  obtain ⟨d, ds, hds⟩ := List.exists_cons_of_length_pos hpos
  exact ⟨d, ds, hds, isDigit_of_mem_padded (width + 1) (hds ▸ List.mem_cons_self)⟩

theorem trimStart_padded (width n : Nat) (rest : List Char) :
    Text.trimStart (padded (width + 1) n ++ rest) = padded (width + 1) n ++ rest := by
  obtain ⟨d, ds, hds, hd⟩ := padded_eq_cons width n
  rw [hds, List.cons_append, Text.trimStart_cons (isBlank_of_isDigit hd)]

theorem digitsUpTo_padded (width n : Nat) (rest : List Char) :
    digitsUpTo (width + 1) (padded (width + 1) n ++ rest) = some (n % 10 ^ (width + 1), rest) := by
  have htake : (padded (width + 1) n ++ rest).take (width + 1) = padded (width + 1) n :=
    List.take_left' (length_padded (width + 1) n)
  have hdrop : (padded (width + 1) n ++ rest).drop (width + 1) = rest :=
    List.drop_left' (length_padded (width + 1) n)
  have hdigits : (padded (width + 1) n).takeWhile isDigit = padded (width + 1) n :=
    List.takeWhile_eq_self_iff.mpr fun c => isDigit_of_mem_padded (width + 1)
  obtain ⟨d, ds, hds, -⟩ := padded_eq_cons width n
  have hne : (padded (width + 1) n).isEmpty = false := by rw [hds, List.isEmpty_cons]
  simp only [digitsUpTo, htake, hdigits, hne, length_padded, hdrop, ofDigits_padded]
  rfl

theorem signedYear_padded (year : Nat) (rest : List Char) :
    signedYear (padded 4 year ++ rest) = some (((year % 10 ^ 4 : Nat) : Int), rest) := by
  obtain ⟨d, ds, hds, hd⟩ := padded_eq_cons 3 year
  have hread := digitsUpTo_padded 3 year rest
  rw [hds, List.cons_append] at hread ⊢
  unfold signedYear
  split
  · rename_i heq
    cases heq
    cases hd
  · rename_i heq
    cases heq
    cases hd
  · rw [hread]
    rfl

theorem not_isBlank_getLast_of_padded {width n : Nat} {cs : List Char}
    (h : padded (width + 1) n <:+ cs) : ∀ c ∈ cs.getLast?, Text.isBlank c = false := by
  obtain ⟨front, rfl⟩ := h
  intro c hc
  rw [padded, ← List.append_assoc, List.getLast?_concat, Option.mem_some] at hc
  rw [← hc]
  exact isBlank_of_isDigit (isDigit_ofNat (Nat.mod_lt n (by decide)))

/-- Hour and minute, of a day or of an offset. -/
def clockText (hour minute : Nat) : List Char := padded 2 hour ++ ':' :: padded 2 minute

theorem padded_suffix_clockText (hour minute : Nat) :
    padded 2 minute <:+ clockText hour minute :=
  ⟨padded 2 hour ++ [':'], by rw [clockText, List.append_assoc]; rfl⟩

theorem looseHour_clockText {hour minute : Nat} (hhour : hour < 100) (hminute : minute < 100)
    (rest : List Char) :
    looseHour id (clockText hour minute ++ rest) = some ((hour, minute), rest) := by
  have hhour : hour % 10 ^ 2 = hour := Nat.mod_eq_of_lt hhour
  have hminute : minute % 10 ^ 2 = minute := Nat.mod_eq_of_lt hminute
  simp only [looseHour, clockText, List.append_assoc, List.cons_append, id, bind, trimStart_padded,
    digitsUpTo_padded, mark_cons, Option.bind_some, Nat.reduceAdd, hhour, hminute]
  rfl

theorem looseHour_space (cs : List Char) : looseHour id (' ' :: cs) = looseHour id cs := by
  have hspace : Text.trimStart (' ' :: cs) = Text.trimStart cs :=
    List.dropWhile_cons_of_pos (by decide)
  rw [looseHour, looseHour, hspace]

theorem signedOffset_clockText (sign : Int) {hours minutes : Nat} (hhours : hours < 100)
    (hminutes : minutes < 60) :
    signedOffset colonBetween sign (clockText hours minutes) =
      some (sign * (hours * 3600 + minutes * 60 : Nat), []) := by
  have hhours : hours % 10 ^ 2 = hours := Nat.mod_eq_of_lt hhours
  have hminutes' : minutes % 10 ^ 2 = minutes := Nat.mod_eq_of_lt (by omega)
  -- the minutes end the text
  have hread := digitsExactly_padded 2 minutes []
  rw [List.append_nil, hminutes'] at hread
  simp only [signedOffset, clockText, digitsExactly_padded, colonBetween, mark_cons, offsetMinutes,
    hread, hhours, Option.bind_some, Option.map_some, Option.filter_some, hminutes, decide_true,
    if_true]

end Timestamp

open Timestamp

/-- A second of a day of the calendar, in a year that four digits hold. -/
structure Moment where
  year : Nat
  month : Nat
  day : Nat
  hour : Nat
  minute : Nat
  second : Nat
  year_lt : year < 10000
  isValid_date : CivilDate.isValid ⟨year, month, day⟩ = true
  hour_lt : hour < 24
  minute_lt : minute < 60
  second_lt : second < 60

namespace Moment

variable (m : Moment)

def date : CivilDate := ⟨m.year, m.month, m.day⟩

def time : TimeOfDay := ⟨m.hour, m.minute, m.second, 0⟩

def millis : Int := (((m.date.toDays * 24 + m.hour) * 60 + m.minute) * 60 + m.second) * 1000

def parts : List Nat := [m.year, m.month, m.day, m.hour, m.minute, m.second]

def startOfMinute : Moment := { m with second := 0, second_lt := by decide }

def startOfDay : Moment :=
  { m.startOfMinute with hour := 0, minute := 0, hour_lt := by decide, minute_lt := by decide }

theorem month_lt : m.month < 100 := by
  have h := (CivilDate.le_of_isValid m.isValid_date).1
  dsimp only at h
  omega

theorem day_lt : m.day < 100 := by
  have h := (CivilDate.le_of_isValid m.isValid_date).2
  dsimp only at h
  omega

def dateText : List Char := padded 4 m.year ++ '-' :: padded 2 m.month ++ '-' :: padded 2 m.day

def timeText : List Char := clockText m.hour m.minute ++ ':' :: padded 2 m.second

variable (rest : List Char)

theorem looseDate_dateText :
    looseDate id (m.dateText ++ rest) = some (((m.year : Int), m.month, m.day), rest) := by
  have hyear : m.year % 10 ^ 4 = m.year := Nat.mod_eq_of_lt m.year_lt
  have hmonth : m.month % 10 ^ 2 = m.month := Nat.mod_eq_of_lt m.month_lt
  have hday : m.day % 10 ^ 2 = m.day := Nat.mod_eq_of_lt m.day_lt
  simp only [looseDate, dateText, List.append_assoc, List.cons_append, id, bind, trimStart_padded,
    signedYear_padded, digitsUpTo_padded, mark_cons, Option.bind_some, Nat.reduceAdd, hyear, hmonth,
    hday]
  rfl

theorem looseHour_clock :
    looseHour id (clockText m.hour m.minute ++ rest) = some ((m.hour, m.minute), rest) := by
  have hhour := m.hour_lt
  have hminute := m.minute_lt
  exact looseHour_clockText (by omega) (by omega) rest

theorem looseSecond_padded :
    looseSecond id (':' :: padded 2 m.second ++ rest) = some (m.second, rest) := by
  have hsecond : m.second % 10 ^ 2 = m.second :=
    Nat.mod_eq_of_lt (by have := m.second_lt; omega)
  simp only [looseSecond, List.cons_append, id, bind, trimStart_padded, digitsUpTo_padded,
    mark_cons, Option.bind_some, Nat.reduceAdd, hsecond]

theorem assemble?_time {offset : Int} (hlow : -86400 < offset) (hhigh : offset < 86400) :
    assemble? m.year m.month m.day m.time offset = some (Instant.ofCivil m.date m.time offset) := by
  have hyear := m.year_lt
  have hdate : CivilDate.make? m.year m.month m.day = some m.date := by
    have hmin : CivilDate.minYear ≤ m.year := by
      unfold CivilDate.minYear
      omega
    have hmax : m.year ≤ CivilDate.maxYear := by
      unfold CivilDate.maxYear
      omega
    simp [CivilDate.make?, m.isValid_date, hmin, hmax, date]
  have htime : m.time.isValid = true := by
    have hhour := m.hour_lt
    have hminute := m.minute_lt
    have hsecond : m.second ≤ 60 := Nat.le_of_lt m.second_lt
    simp [TimeOfDay.isValid, time, hhour, hminute, hsecond]
  simp [assemble?, hdate, htime, hlow, hhigh]

theorem toMillis_ofCivil (offset : Int) :
    (Instant.ofCivil m.date m.time offset).toMillis = m.millis - offset * 1000 := by
  have hleap : ¬m.time.second = 60 := Nat.ne_of_lt m.second_lt
  have hsecond : min m.time.second 59 = m.second := Nat.min_eq_left (Nat.le_of_lt_succ m.second_lt)
  rw [Instant.ofCivil, if_neg hleap, hsecond, Instant.toMillis, millis]
  simp only [time]
  omega

theorem readStrict?_text {c : Char} (hc : isSeparator c = true) :
    readStrict? (m.dateText ++ c :: m.timeText ++ rest) =
      (fraction rest).bind fun nanos =>
        (offset colonBetween nanos.2).bind fun zone =>
          if zone.2.isEmpty then
            assemble? m.year m.month m.day ⟨m.hour, m.minute, m.second, nanos.1⟩ zone.1
          else none := by
  have hhour := m.hour_lt
  have hminute := m.minute_lt
  have hsecond := m.second_lt
  rw [← readStrict?_padded m.year_lt m.month_lt m.day_lt (by omega) (by omega) (by omega) hc
    rest]
  simp only [dateText, timeText, clockText, List.append_assoc, List.cons_append]

theorem readStrict?_date : readStrict? m.dateText = none := by
  rw [← List.append_nil m.dateText]
  simp only [readStrict?, dateText, List.append_assoc, List.cons_append, bind, digitsExactly_padded,
    mark_cons, Option.bind_some]
  -- the separator is missing
  rfl

theorem readStrict?_minute : readStrict? (m.dateText ++ ' ' :: clockText m.hour m.minute) = none := by
  have hminute : clockText m.hour m.minute =
      padded 2 m.hour ++ ':' :: (padded 2 m.minute ++ []) := by
    rw [List.append_nil]
    rfl
  have hspace : isSeparator ' ' = true := by decide
  simp only [readStrict?, dateText, hminute, List.append_assoc, List.cons_append, bind,
    digitsExactly_padded, mark_cons, separator_cons hspace, Option.bind_some]
  -- the second colon is missing
  rfl

theorem readNaive?_joined : readNaive? (m.dateText ++ 'T' :: m.timeText) =
    some (Instant.ofCivil m.date m.time 0) := by
  have hread : readDateTime? (m.dateText ++ 'T' :: m.timeText) =
      some (Instant.ofCivil m.date m.time 0) := by
    have hsecond := m.looseSecond_padded []
    rw [List.append_nil] at hsecond
    simp only [readDateTime?, looseDate_dateText, timeText, looseHour_clock, hsecond, mark_cons,
      bind, Option.bind_some]
    exact m.assemble?_time (by decide) (by decide)
  rw [readNaive?, hread]
  rfl

theorem readNaive?_spaced : readNaive? (m.dateText ++ ' ' :: m.timeText) =
    some (Instant.ofCivil m.date m.time 0) := by
  have hjoined : readDateTime? (m.dateText ++ ' ' :: m.timeText) = none := by
    simp only [readDateTime?, looseDate_dateText, bind, Option.bind_some]
    rfl
  have hread : readSpacedDateTime? (m.dateText ++ ' ' :: m.timeText) =
      some (Instant.ofCivil m.date m.time 0) := by
    have hsecond := m.looseSecond_padded []
    rw [List.append_nil] at hsecond
    simp only [readSpacedDateTime?, looseDate_dateText, timeText, looseHour_space, looseHour_clock,
      hsecond, bind, Option.bind_some]
    exact m.assemble?_time (by decide) (by decide)
  rw [readNaive?, hjoined, hread]
  rfl

theorem readNaive?_minute : readNaive? (m.dateText ++ ' ' :: clockText m.hour m.minute) =
    some (Instant.ofCivil m.date m.startOfMinute.time 0) := by
  have hhour := m.looseHour_clock []
  rw [List.append_nil] at hhour
  have hjoined : readDateTime? (m.dateText ++ ' ' :: clockText m.hour m.minute) = none := by
    simp only [readDateTime?, looseDate_dateText, bind, Option.bind_some]
    rfl
  have hspaced : readSpacedDateTime? (m.dateText ++ ' ' :: clockText m.hour m.minute) = none := by
    simp only [readSpacedDateTime?, looseDate_dateText, looseHour_space, hhour, bind,
      Option.bind_some]
    rfl
  have hread : readSpacedMinute? (m.dateText ++ ' ' :: clockText m.hour m.minute) =
      some (Instant.ofCivil m.date m.startOfMinute.time 0) := by
    simp only [readSpacedMinute?, looseDate_dateText, looseHour_space, hhour, bind, Option.bind_some]
    exact m.startOfMinute.assemble?_time (by decide) (by decide)
  rw [readNaive?, hjoined, hspaced, hread]
  rfl

theorem readNaive?_date : readNaive? m.dateText =
    some (Instant.ofCivil m.date m.startOfDay.time 0) := by
  apply readNaive?_of_readDate?
  rw [← List.append_nil m.dateText]
  simp only [readDate?, looseDate_dateText, bind, Option.bind_some]
  exact m.startOfDay.assemble?_time (by decide) (by decide)

/-- As a time, the text is converted to a number. -/
def Denotes (cs : List Char) (n : Int) : Prop :=
  Coercion.convert .dateTime (.text (String.ofList cs)) = .integer n

variable {rest}

theorem readInt64?_dateText : readInt64? (m.dateText ++ rest) = none := by
  obtain ⟨d, ds, hds, -⟩ := padded_eq_cons 3 m.year
  -- a number may start with a sign, but the hyphen comes after the year
  have htext : m.dateText ++ rest =
      d :: (ds ++ '-' :: (padded 2 m.month ++ '-' :: (padded 2 m.day ++ rest))) := by
    simp [dateText, hds]
  rw [Option.eq_none_iff_forall_ne_some]
  intro n hn
  rw [htext] at hn
  have hhyphen := isDigit_of_readInt? (readInt64?_eq_some_iff.mp hn).1 '-' (by simp)
  cases hhyphen

/-- A date in front of a text that does not end with a blank leaves nothing to trim. -/
theorem trim_dateText (hlast : ∀ c ∈ (m.dateText ++ rest).getLast?, Text.isBlank c = false) :
    Text.trim (m.dateText ++ rest) = m.dateText ++ rest := by
  refine Text.BareEnds.trim_eq ⟨?_, hlast⟩
  obtain ⟨d, ds, hds, hd⟩ := padded_eq_cons 3 m.year
  intro c hc
  simp only [dateText, hds, List.cons_append, List.head?_cons, Option.mem_some] at hc
  exact hc ▸ isBlank_of_isDigit hd

theorem denotes_of_readStrict? {i : Instant}
    (hlast : ∀ c ∈ (m.dateText ++ rest).getLast?, Text.isBlank c = false)
    (h : readStrict? (m.dateText ++ rest) = some i) :
    Denotes (m.dateText ++ rest) i.toMillis := by
  rw [Denotes, DateSpec.convert_dateTime_iff, String.toList_ofList, m.trim_dateText hlast,
    Coercion.readMillis?, m.readInt64?_dateText, h]

theorem denotes_of_readNaive? (named : Moment)
    (hlast : ∀ c ∈ (m.dateText ++ rest).getLast?, Text.isBlank c = false)
    (hstrict : readStrict? (m.dateText ++ rest) = none)
    (h : readNaive? (m.dateText ++ rest) = some (Instant.ofCivil named.date named.time 0)) :
    Denotes (m.dateText ++ rest) named.millis := by
  have hmillis : (Instant.ofCivil named.date named.time 0).toMillis = named.millis := by
    rw [toMillis_ofCivil, Int.zero_mul, Int.sub_zero]
  rw [Denotes, DateSpec.convert_dateTime_iff, String.toList_ofList, m.trim_dateText hlast,
    Coercion.readMillis?, m.readInt64?_dateText, hstrict, h, ← hmillis]
  rfl

/-- Without an offset a time is one of UTC. -/
theorem denotes_dateTime {c : Char} (hc : isSeparator c = true)
    (h : readNaive? (m.dateText ++ c :: m.timeText) = some (Instant.ofCivil m.date m.time 0)) :
    Denotes (m.dateText ++ c :: m.timeText) m.millis := by
  have hlast : padded 2 m.second <:+ m.dateText ++ c :: m.timeText :=
    (List.suffix_cons ':' _).trans <| (List.suffix_append _ _).trans <|
      (List.suffix_cons c _).trans (List.suffix_append _ _)
  have hstrict : readStrict? (m.dateText ++ c :: m.timeText) = none := by
    have hread := m.readStrict?_text [] hc
    rwa [List.append_nil] at hread
  exact m.denotes_of_readNaive? m (not_isBlank_getLast_of_padded hlast) hstrict h

theorem denotes_minute :
    Denotes (m.dateText ++ ' ' :: clockText m.hour m.minute) m.startOfMinute.millis := by
  have hlast : padded 2 m.minute <:+ m.dateText ++ ' ' :: clockText m.hour m.minute :=
    (padded_suffix_clockText _ _).trans <| (List.suffix_cons ' ' _).trans (List.suffix_append _ _)
  exact m.denotes_of_readNaive? m.startOfMinute (not_isBlank_getLast_of_padded hlast)
    m.readStrict?_minute m.readNaive?_minute

theorem denotes_date : Denotes m.dateText m.startOfDay.millis := by
  have hlast : padded 2 m.day <:+ m.dateText :=
    (List.suffix_cons '-' _).trans (List.suffix_append _ _)
  rw [← List.append_nil m.dateText]
  refine m.denotes_of_readNaive? m.startOfDay ?_ ?_ ?_
  · rw [List.append_nil]
    exact not_isBlank_getLast_of_padded hlast
  · rw [List.append_nil]
    exact m.readStrict?_date
  · rw [List.append_nil]
    exact m.readNaive?_date

/-- An offset is what clocks are ahead of UTC, in seconds. -/
theorem denotes_offset {zone : List Char} {seconds : Int} (hfraction : fraction zone = some (0, zone))
    (hoffset : offset colonBetween zone = some (seconds, [])) (hlow : -86400 < seconds)
    (hhigh : seconds < 86400)
    (hlast : ∀ c ∈ (m.dateText ++ 'T' :: m.timeText ++ zone).getLast?, Text.isBlank c = false) :
    Denotes (m.dateText ++ 'T' :: m.timeText ++ zone) (m.millis - seconds * 1000) := by
  have hread : readStrict? (m.dateText ++ 'T' :: m.timeText ++ zone) =
      some (Instant.ofCivil m.date m.time seconds) := by
    rw [m.readStrict?_text zone rfl, hfraction, Option.bind_some, hoffset, Option.bind_some]
    exact m.assemble?_time hlow hhigh
  rw [List.append_assoc] at hread hlast ⊢
  rw [← m.toMillis_ofCivil seconds]
  exact m.denotes_of_readStrict? hlast hread

theorem denotes_utc : Denotes (m.dateText ++ 'T' :: m.timeText ++ ['Z']) m.millis := by
  have hlast : ∀ c ∈ (m.dateText ++ 'T' :: m.timeText ++ ['Z']).getLast?, Text.isBlank c = false := by
    intro c hc
    rw [List.getLast?_concat, Option.mem_some] at hc
    rw [← hc]
    rfl
  have h := m.denotes_offset rfl rfl (by decide) (by decide) hlast
  rwa [Int.zero_mul, Int.sub_zero] at h

/-- Hours and minutes of an offset count in the direction of its sign. -/
theorem denotes_signed (c : Char) {sign : Int} (hsign : sign = 1 ∨ sign = -1)
    (hfraction : ∀ cs, fraction (c :: cs) = some (0, c :: cs))
    (hoffset : ∀ cs, offset colonBetween (c :: cs) = signedOffset colonBetween sign cs)
    (hours : Fin 24) (minutes : Fin 60) :
    Denotes (m.dateText ++ 'T' :: m.timeText ++ c :: clockText hours minutes)
      (m.millis - sign * ((60 * hours + minutes : Nat) * 60000)) := by
  have hlast : padded 2 minutes <:+
      m.dateText ++ 'T' :: m.timeText ++ c :: clockText hours minutes :=
    (padded_suffix_clockText _ _).trans <| (List.suffix_cons c _).trans (List.suffix_append _ _)
  have hread : offset colonBetween (c :: clockText hours minutes) =
      some (sign * (hours * 3600 + minutes * 60 : Nat), []) := by
    rw [hoffset, signedOffset_clockText sign (by omega) minutes.isLt]
  have hlow : -86400 < sign * (hours * 3600 + minutes * 60 : Nat) := by
    rcases hsign with rfl | rfl <;> omega
  have hhigh : sign * (hours * 3600 + minutes * 60 : Nat) < 86400 := by
    rcases hsign with rfl | rfl <;> omega
  have hmillis : sign * (hours * 3600 + minutes * 60 : Nat) * 1000 =
      sign * ((60 * hours + minutes : Nat) * 60000) := by
    rcases hsign with rfl | rfl <;> omega
  have h := m.denotes_offset (hfraction _) hread hlow hhigh (not_isBlank_getLast_of_padded hlast)
  rwa [hmillis] at h

theorem millis_lt_of_parts_lt {a b : Moment} (h : a.parts < b.parts) : a.millis < b.millis := by
  have hdays : a.date.toDays < b.date.toDays ∨ a.date.toDays = b.date.toDays ∧
      [a.hour, a.minute, a.second] < [b.hour, b.minute, b.second] := by
    simp only [parts, List.cons_lt_cons_iff] at h ⊢
    rcases h with hyear | ⟨hyear, hmonth | ⟨hmonth, hday | ⟨hday, htime⟩⟩⟩
    · exact .inl (CivilDate.toDays_lt a.isValid_date b.isValid_date (.inl (Int.ofNat_lt.mpr hyear)))
    · exact .inl (CivilDate.toDays_lt a.isValid_date b.isValid_date
        (.inr ⟨congrArg Nat.cast hyear, .inl hmonth⟩))
    · exact .inl (CivilDate.toDays_lt a.isValid_date b.isValid_date
        (.inr ⟨congrArg Nat.cast hyear, .inr ⟨hmonth, hday⟩⟩))
    · exact .inr ⟨by rw [date, hyear, hmonth, hday, date], htime⟩
  have hminute := a.minute_lt
  have hsecond := a.second_lt
  have hhour := a.hour_lt
  -- a day is longer than any time within it, an hour and a minute likewise
  unfold millis
  simp only [List.cons_lt_cons_iff, List.not_lt_nil, and_false, or_false] at hdays
  omega

theorem millis_lt_iff (a b : Moment) : a.millis < b.millis ↔ a.parts < b.parts := by
  refine ⟨fun h => ?_, millis_lt_of_parts_lt⟩
  rcases lt_trichotomy a.parts b.parts with hlt | heq | hgt
  · exact hlt
  · have hsame : a.millis = b.millis := by
      simp only [parts, List.cons.injEq, and_true] at heq
      obtain ⟨hyear, hmonth, hday, hhour, hminute, hsecond⟩ := heq
      simp only [millis, date, hyear, hmonth, hday, hhour, hminute, hsecond]
    exact absurd hsame (Int.ne_of_lt h)
  · exact absurd h (Int.lt_asymm (millis_lt_of_parts_lt hgt))

/-- With a `T` or a space, with no offset or with `Z`, a moment is one number; with an offset it is
that number less what the clocks are ahead of UTC; and what is left out of its time is zero. The
numbers are in the order of the calendar. -/
theorem spellings_denote_in_order :
    (∀ m : Moment,
      Denotes (m.dateText ++ 'T' :: m.timeText) m.millis ∧
      Denotes (m.dateText ++ ' ' :: m.timeText) m.millis ∧
      Denotes (m.dateText ++ 'T' :: m.timeText ++ ['Z']) m.millis ∧
      (∀ (hours : Fin 24) (minutes : Fin 60),
        Denotes (m.dateText ++ 'T' :: m.timeText ++ '+' :: clockText hours minutes)
          (m.millis - (60 * hours + minutes : Nat) * 60000) ∧
        Denotes (m.dateText ++ 'T' :: m.timeText ++ '-' :: clockText hours minutes)
          (m.millis + (60 * hours + minutes : Nat) * 60000)) ∧
      Denotes (m.dateText ++ ' ' :: clockText m.hour m.minute) m.startOfMinute.millis ∧
      Denotes m.dateText m.startOfDay.millis) ∧
    ∀ a b : Moment, a.millis < b.millis ↔ a.parts < b.parts := by
  refine ⟨fun m => ⟨m.denotes_dateTime rfl m.readNaive?_joined,
    m.denotes_dateTime rfl m.readNaive?_spaced, m.denotes_utc, fun hours minutes => ⟨?_, ?_⟩,
    m.denotes_minute, m.denotes_date⟩, millis_lt_iff⟩
  · have hahead := m.denotes_signed '+' (.inl rfl) (fun _ => rfl) (fun _ => rfl) hours minutes
    rwa [Int.one_mul] at hahead
  · have hbehind := m.denotes_signed '-' (.inr rfl) (fun _ => rfl) (fun _ => rfl) hours minutes
    rwa [Int.neg_one_mul, Int.sub_neg] at hbehind

/-- Half past one in March two hours ahead of UTC is half past eleven of the leap day. -/
example : Coercion.convert .dateTime (.text "2024-03-01T01:30:00+02:00") =
    Coercion.convert .dateTime (.text "2024-02-29 23:30") := by decide

end Moment
end NoteSearch
