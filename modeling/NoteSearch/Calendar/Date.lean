/-!
# Civil dates

Dates of the proleptic Gregorian calendar, and the count of days from the first of January 1970. A
date becomes a count by adding whole years, whole months and days; a count becomes a date by finding
the year whose first day is the last one not after it, and then the month.
-/

namespace NoteSearch

structure CivilDate where
  year : Int
  month : Nat
  day : Nat
deriving DecidableEq, Repr

namespace CivilDate

def isLeapYear (year : Int) : Bool :=
  year % 4 == 0 && (year % 100 != 0 || year % 400 == 0)

def monthLengths (leap : Bool) : List Nat :=
  [31, if leap then 29 else 28, 31, 30, 31, 30, 31, 31, 30, 31, 30, 31]

def daysInMonth (year : Int) (month : Nat) : Nat :=
  if month = 0 then 0 else (monthLengths (isLeapYear year)).getD (month - 1) 0

def isValid (d : CivilDate) : Bool :=
  1 ≤ d.month && d.month ≤ 12 && 1 ≤ d.day && d.day ≤ daysInMonth d.year d.month

/-- Days from the first day of year 1 to the first day of a year. -/
def daysBeforeYear (year : Int) : Int :=
  365 * (year - 1) + (year - 1) / 4 - (year - 1) / 100 + (year - 1) / 400

def daysBeforeMonth (leap : Bool) (month : Nat) : Nat :=
  ((monthLengths leap).take (month - 1)).foldl (· + ·) 0

/-- Days from the first day of year 1 to the first of January 1970. -/
def epoch : Int := 719162

/-- Days since the first of January 1970. -/
def toDays (d : CivilDate) : Int :=
  daysBeforeYear d.year + daysBeforeMonth (isLeapYear d.year) d.month + d.day - 1 - epoch

def yearOf (days : Int) : Int :=
  let guess := 400 * days / 146097 + 1
  if days < daysBeforeYear guess then guess - 1
  else if daysBeforeYear (guess + 1) ≤ days then guess + 1
  else guess

/-- Month and day of the month for a day of the year counted from zero, starting at a month. -/
def monthFrom (month : Nat) : List Nat → Nat → Nat × Nat
  | [], day => (month, day + 1)
  | [_], day => (month, day + 1)
  | length :: rest, day =>
    if day < length then (month, day + 1) else monthFrom (month + 1) rest (day - length)

/-- The date a number of days after the first of January 1970. -/
def ofDays (days : Int) : CivilDate :=
  let days := days + epoch
  let year := yearOf days
  let month := monthFrom 1 (monthLengths (isLeapYear year)) (days - daysBeforeYear year).toNat
  ⟨year, month.1, month.2⟩

def minYear : Int := -262143

def maxYear : Int := 262142

/-- A date of the calendar within the years that can be told apart. -/
def make? (year : Int) (month day : Nat) : Option CivilDate :=
  let d : CivilDate := ⟨year, month, day⟩
  if d.isValid && minYear ≤ year && year ≤ maxYear then some d else none

@[simp] theorem toDays_epoch : toDays ⟨1970, 1, 1⟩ = 0 := by decide

@[simp] theorem ofDays_zero : ofDays 0 = ⟨1970, 1, 1⟩ := by decide

end CivilDate
end NoteSearch
