import NoteSearch.Calendar.Date

/-!
# Instants

An instant counts seconds since the start of 1970 in UTC and nanoseconds within the second. A leap
second belongs to the second before it, with a nanosecond count of a full second or more.
-/

namespace NoteSearch

structure Instant where
  seconds : Int
  nanos : Nat
deriving DecidableEq, Repr

/-- A time of day; the second 60 is a leap second. -/
structure TimeOfDay where
  hour : Nat
  minute : Nat
  second : Nat
  nanos : Nat
deriving DecidableEq, Repr

namespace TimeOfDay

def midnight : TimeOfDay := ⟨0, 0, 0, 0⟩

def isValid (t : TimeOfDay) : Bool :=
  t.hour < 24 && t.minute < 60 && t.second ≤ 60 && t.nanos < 1000000000

end TimeOfDay

namespace Instant

def nanosPerSecond : Nat := 1000000000

/-- The instant a date and time of day name at an offset from UTC given in seconds. -/
def ofCivil (d : CivilDate) (t : TimeOfDay) (offset : Int) : Instant :=
  let second := min t.second 59
  { seconds := d.toDays * 86400 + (t.hour * 3600 + t.minute * 60 + second : Nat) - offset
    nanos := t.nanos + if t.second = 60 then nanosPerSecond else 0 }

def date (i : Instant) : CivilDate := CivilDate.ofDays (i.seconds / 86400)

def timeOfDay (i : Instant) : TimeOfDay :=
  let second := (i.seconds % 86400).toNat
  { hour := second / 3600
    minute := second / 60 % 60
    second := second % 60 + i.nanos / nanosPerSecond
    nanos := i.nanos % nanosPerSecond }

/-- Milliseconds since the start of 1970, rounded down. -/
def toMillis (i : Instant) : Int := i.seconds * 1000 + (i.nanos / 1000000 : Nat)

def ofMillis (millis : Int) : Instant :=
  ⟨millis / 1000, (millis % 1000).toNat * 1000000⟩

/-- The instant of a count of milliseconds; none outside the calendar's years. -/
def ofMillis? (millis : Int) : Option Instant :=
  let i := ofMillis millis
  if CivilDate.minYear ≤ i.date.year && i.date.year ≤ CivilDate.maxYear then some i else none

@[simp] theorem toMillis_ofMillis (millis : Int) : (ofMillis millis).toMillis = millis := by
  simp only [toMillis, ofMillis]
  omega

end Instant
end NoteSearch
