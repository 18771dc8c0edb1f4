import NoteSearch.Calendar.Instant
import NoteSearch.Text.Blank
import NoteSearch.Text.Numeral

/-!
# Written dates and times

Readers take characters off the front of a text and hand back the rest. Three formats are read:
dates and times with an offset as in RFC 3339, the same with blanks and signs allowed, and dates and
times without an offset, which stand for UTC.
-/

namespace NoteSearch
namespace Timestamp

open Numeral

abbrev Reader (α : Type) := List Char → Option (α × List Char)

def mark (c : Char) : Reader Unit
  | d :: cs => if c = d then some ((), cs) else none
  | [] => none

def digitsUpTo (width : Nat) : Reader Nat := fun cs =>
  let digits := (cs.take width).takeWhile isDigit
  if digits.isEmpty then none else some (ofDigits digits, cs.drop digits.length)

def digitsExactly (width : Nat) : Reader Nat := fun cs =>
  let digits := (cs.take width).takeWhile isDigit
  if digits.length = width then some (ofDigits digits, cs.drop width) else none

def allDigits : Reader Nat := fun cs => digitsUpTo cs.length cs

/-- A year: any digits after a sign, and at most four without one. -/
def signedYear : Reader Int
  | '-' :: cs => (allDigits cs).map fun r => (-(r.1 : Int), r.2)
  | '+' :: cs => (allDigits cs).map fun r => ((r.1 : Int), r.2)
  | cs => (digitsUpTo 4 cs).map fun r => ((r.1 : Int), r.2)

/-- Fractions of a second behind a point, cut to nanoseconds; zero without a point. -/
def fraction : Reader Nat
  | '.' :: cs =>
    let digits := cs.takeWhile isDigit
    if digits.isEmpty then none
    else
      let kept := digits.take 9
      some (ofDigits kept * Nat.pow 10 (9 - kept.length), cs.drop digits.length)
  | cs => some (0, cs)

def offsetMinutes : Reader Nat := fun cs => (digitsExactly 2 cs).filter (·.1 < 60)

/-- A signed offset from UTC in seconds, the parts separated as `between` allows. -/
def signedOffset (between : List Char → Option (List Char)) (sign : Int) : Reader Int := fun cs =>
  (digitsExactly 2 cs).bind fun hours =>
    (between hours.2).bind fun rest =>
      (offsetMinutes rest).map fun minutes =>
        (sign * (hours.1 * 3600 + minutes.1 * 60 : Nat), minutes.2)

def offset (between : List Char → Option (List Char)) : Reader Int
  | 'Z' :: cs => some (0, cs)
  | 'z' :: cs => some (0, cs)
  | '+' :: cs => signedOffset between 1 cs
  | '-' :: cs => signedOffset between (-1) cs
  | '\u2212' :: cs => signedOffset between (-1) cs
  | _ => none

def colonBetween (cs : List Char) : Option (List Char) := (mark ':' cs).map (·.2)

def isSeparator (c : Char) : Bool := c == 'T' || c == 't' || c == ' '

def separator : Reader Unit
  | c :: cs => if isSeparator c then some ((), cs) else none
  | [] => none

/-- Puts the parts together if they are a date, a time and an offset of less than a day. -/
def assemble? (year : Int) (month day : Nat) (t : TimeOfDay) (offset : Int) : Option Instant :=
  (CivilDate.make? year month day).bind fun d =>
    if t.isValid && -86400 < offset && offset < 86400 then some (Instant.ofCivil d t offset)
    else none

/-- Date, time and offset as in RFC 3339, and nothing else. -/
def readStrict? (cs : List Char) : Option Instant := do
  let (year, cs) ← digitsExactly 4 cs
  let (_, cs) ← mark '-' cs
  let (month, cs) ← digitsExactly 2 cs
  let (_, cs) ← mark '-' cs
  let (day, cs) ← digitsExactly 2 cs
  let (_, cs) ← separator cs
  let (hour, cs) ← digitsExactly 2 cs
  let (_, cs) ← mark ':' cs
  let (minute, cs) ← digitsExactly 2 cs
  let (_, cs) ← mark ':' cs
  let (second, cs) ← digitsExactly 2 cs
  let (nanos, cs) ← fraction cs
  let (offset, cs) ← offset colonBetween cs
  if cs.isEmpty then assemble? year month day ⟨hour, minute, second, nanos⟩ offset else none

/-- Blanks, then a year with an optional sign, a month and a day of one or two digits; `gap` is
skipped before each hyphen. -/
def looseDate (gap : List Char → List Char) : Reader (Int × Nat × Nat) := fun cs => do
  let (year, cs) ← signedYear (Text.trimStart cs)
  let (_, cs) ← mark '-' (gap cs)
  let (month, cs) ← digitsUpTo 2 (Text.trimStart cs)
  let (_, cs) ← mark '-' (gap cs)
  let (day, cs) ← digitsUpTo 2 (Text.trimStart cs)
  return ((year, month, day), cs)

def looseHour (gap : List Char → List Char) : Reader (Nat × Nat) := fun cs => do
  let (hour, cs) ← digitsUpTo 2 (Text.trimStart cs)
  let (_, cs) ← mark ':' (gap cs)
  let (minute, cs) ← digitsUpTo 2 (Text.trimStart cs)
  return ((hour, minute), cs)

def looseSecond (gap : List Char → List Char) : Reader Nat := fun cs => do
  let (_, cs) ← mark ':' (gap cs)
  digitsUpTo 2 (Text.trimStart cs)

/-- Colons and blanks between the parts of an offset, or nothing. -/
def looseBetween (cs : List Char) : Option (List Char) :=
  some (cs.dropWhile fun c => c == ':' || Text.isBlank c)

def looseOffset (cs : List Char) : Option (Int × List Char) :=
  let isUtc : Bool :=
    match cs with
    | u :: t :: c :: _ =>
      (u == 'U' || u == 'u') && (t == 'T' || t == 't') && (c == 'C' || c == 'c')
    | _ => false
  if isUtc then some (0, cs.drop 3) else offset looseBetween cs

/-- Date, time and offset with blanks around the marks, short numbers and signed years allowed. -/
def readRelaxed? (cs : List Char) : Option Instant := do
  let ((year, month, day), cs) ← looseDate Text.trimStart cs
  let (_, cs) ← separator cs
  let ((hour, minute), cs) ← looseHour Text.trimStart cs
  let (second, cs) ← looseSecond Text.trimStart cs
  let (nanos, cs) ← fraction cs
  let (offset, cs) ← looseOffset (Text.trimStart cs)
  if (Text.trimStart cs).isEmpty then
    assemble? year month day ⟨hour, minute, second, nanos⟩ offset
  else none

def readDate? (cs : List Char) : Option Instant := do
  let ((year, month, day), cs) ← looseDate id cs
  if cs.isEmpty then assemble? year month day .midnight 0 else none

def readDateTime? (cs : List Char) : Option Instant := do
  let ((year, month, day), cs) ← looseDate id cs
  let (_, cs) ← mark 'T' cs
  let ((hour, minute), cs) ← looseHour id cs
  let (second, cs) ← looseSecond id cs
  if cs.isEmpty then assemble? year month day ⟨hour, minute, second, 0⟩ 0 else none

def readSpacedDateTime? (cs : List Char) : Option Instant := do
  let ((year, month, day), cs) ← looseDate id cs
  let ((hour, minute), cs) ← looseHour id cs
  let (second, cs) ← looseSecond id cs
  if cs.isEmpty then assemble? year month day ⟨hour, minute, second, 0⟩ 0 else none

def readSpacedMinute? (cs : List Char) : Option Instant := do
  let ((year, month, day), cs) ← looseDate id cs
  let ((hour, minute), cs) ← looseHour id cs
  if cs.isEmpty then assemble? year month day ⟨hour, minute, 0, 0⟩ 0 else none

def readNaive? (cs : List Char) : Option Instant :=
  readDateTime? cs <|> readSpacedDateTime? cs <|> readSpacedMinute? cs <|> readDate? cs

/-- Years of up to four digits are written with four, others with a sign. -/
def writeYear (year : Int) : List Char :=
  if 0 ≤ year && year ≤ 9999 then padded 4 year.toNat
  else
    let digits := digitsOf year.natAbs
    (if year < 0 then '-' else '+') :: List.replicate (4 - digits.length) '0' ++ digits

/-- As many groups of three digits as the fraction needs. -/
def writeFraction (nanos : Nat) : List Char :=
  if nanos = 0 then []
  else if nanos % 1000000 = 0 then '.' :: padded 3 (nanos / 1000000)
  else if nanos % 1000 = 0 then '.' :: padded 6 (nanos / 1000)
  else '.' :: padded 9 nanos

def write (i : Instant) : String :=
  let d := i.date
  let t := i.timeOfDay
  String.ofList <|
    writeYear d.year ++ '-' :: padded 2 d.month ++ '-' :: padded 2 d.day ++ 'T' ::
      padded 2 t.hour ++ ':' :: padded 2 t.minute ++ ':' :: padded 2 t.second ++
        writeFraction t.nanos ++ ['Z']

end Timestamp
end NoteSearch
