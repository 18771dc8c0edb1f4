import NoteSearch.Calendar.Timestamp
import NoteSearch.Toml.Basic
import NoteSearch.Toml.Quoted

/-!
# TOML numbers, dates and words

A scalar without quotes is a run of letters, digits and a few marks, read as a whole. Digits may be
grouped by single underscores between them. A date may go on behind one space with a time.
-/

namespace NoteSearch
namespace TomlScalar

open Numeral

def isScalarChar (c : Char) : Bool :=
  c.isAlphanum || c == '+' || c == '-' || c == '_' || c == '.' || c == ':'

def digitRun (isDigit : Char → Bool) (afterDigit : Bool) : List Char → Option (List Char)
  | [] => if afterDigit then some [] else none
  | c :: cs =>
    if isDigit c then (digitRun isDigit true cs).map (c :: ·)
    else if c == '_' && afterDigit then digitRun isDigit false cs
    else none

def wholeRun (cs : List Char) : Option (List Char) :=
  (digitRun isDigit false cs).filter fun digits =>
    match digits with
    | '0' :: _ :: _ => false
    | _ => true

def inBase (base : Nat) (isDigit : Char → Bool) (cs : List Char) : Option Int := do
  let digits ← digitRun isDigit false cs
  let values ← digits.mapM TomlText.hexValue?
  let n := Int.ofNat (values.foldl (fun n d => base * n + d) 0)
  if fitsInt64 n then return n else none

def decimal (negative : Bool) (cs : List Char) : Option Int := do
  let digits ← wholeRun cs
  let n : Int := ofDigits digits
  let n := if negative then -n else n
  if fitsInt64 n then return n else none

def integer? : List Char → Option Int
  | '0' :: 'x' :: cs => inBase 16 (fun c => (TomlText.hexValue? c).isSome) cs
  | '0' :: 'o' :: cs => inBase 8 (fun c => '0' ≤ c && c ≤ '7') cs
  | '0' :: 'b' :: cs => inBase 2 (fun c => c == '0' || c == '1') cs
  | '-' :: cs => decimal true cs
  | '+' :: cs => decimal false cs
  | cs => decimal false cs

def isPowerMark (c : Char) : Bool := c == 'e' || c == 'E'

/-- A power of ten; its digits may start with zeros. -/
def powerRun : List Char → Option (List Char)
  | '-' :: cs => (digitRun isDigit false cs).map ('-' :: ·)
  | '+' :: cs => digitRun isDigit false cs
  | cs => digitRun isDigit false cs

/-- A fraction and a power of ten, of which one at least is there, without underscores. -/
def fractionRun : List Char → Option (List Char)
  | '.' :: cs => do
    let fraction ← digitRun isDigit false (cs.takeWhile fun c => !isPowerMark c)
    match cs.dropWhile fun c => !isPowerMark c with
    | [] => return '.' :: fraction
    | _ :: power => return '.' :: fraction ++ 'e' :: (← powerRun power)
  | c :: power => if isPowerMark c then (powerRun power).map ('e' :: ·) else none
  | [] => none

/-- A number with a fraction or a power of ten. It may not be too great. -/
def unsignedFloat? (negative : Bool) (cs : List Char) : Option Real64 := do
  let isWhole := fun c => c != '.' && !isPowerMark c
  let whole ← wholeRun (cs.takeWhile isWhole)
  let rest ← fractionRun (cs.dropWhile isWhole)
  let x ← Literal.readUnsigned? negative (whole ++ rest)
  if x = .infinite false then none else return x

def wordFloat? (negative : Bool) : List Char → Option Real64
  | ['i', 'n', 'f'] => some (.infinite negative)
  | ['n', 'a', 'n'] => some .notANumber
  | _ => none

def float? : List Char → Option Real64
  | '-' :: cs => wordFloat? true cs <|> unsignedFloat? true cs
  | '+' :: cs => wordFloat? false cs <|> unsignedFloat? false cs
  | cs => wordFloat? false cs <|> unsignedFloat? false cs

def date (cs : List Char) : Option (List Char × List Char) := do
  let (year, cs) ← Timestamp.digitsExactly 4 cs
  let (_, cs) ← Timestamp.mark '-' cs
  let (month, cs) ← Timestamp.digitsExactly 2 cs
  let (_, cs) ← Timestamp.mark '-' cs
  let (day, cs) ← Timestamp.digitsExactly 2 cs
  let _ ← CivilDate.make? year month day
  return (padded 4 year ++ '-' :: padded 2 month ++ '-' :: padded 2 day, cs)

/-- A fraction without zeros at its end. -/
def shortFraction (nanos : Nat) : List Char :=
  if nanos = 0 then [] else '.' :: ((padded 9 nanos).reverse.dropWhile (· == '0')).reverse

def time (cs : List Char) : Option (List Char × List Char) := do
  let (hour, cs) ← Timestamp.digitsExactly 2 cs
  let (_, cs) ← Timestamp.mark ':' cs
  let (minute, cs) ← Timestamp.digitsExactly 2 cs
  let (_, cs) ← Timestamp.mark ':' cs
  let (second, cs) ← Timestamp.digitsExactly 2 cs
  let (nanos, cs) ← Timestamp.fraction cs
  if (⟨hour, minute, second, nanos⟩ : TimeOfDay).isValid then
    return (padded 2 hour ++ ':' :: padded 2 minute ++ ':' :: padded 2 second ++
      shortFraction nanos, cs)
  else none

/-- An offset as the whole rest; minus zero is plus zero. -/
def offset (sign : Char) (cs : List Char) : Option (List Char) := do
  let (hour, cs) ← Timestamp.digitsExactly 2 cs
  let (_, cs) ← Timestamp.mark ':' cs
  let (minute, cs) ← Timestamp.offsetMinutes cs
  let sign := if hour = 0 ∧ minute = 0 then '+' else sign
  if hour < 24 ∧ cs.isEmpty then return sign :: padded 2 hour ++ ':' :: padded 2 minute else none

def zone : List Char → Option (List Char)
  | [] => some []
  | ['Z'] => some ['Z']
  | ['z'] => some ['Z']
  | '+' :: cs => offset '+' cs
  | '-' :: cs => offset '-' cs
  | _ => none

/-- A time with or without an offset, as the whole rest. -/
def zonedTime? (cs : List Char) : Option (List Char) := do
  let (time, cs) ← time cs
  return time ++ (← zone cs)

def localTime? (cs : List Char) : Option (List Char) :=
  match time cs with
  | some (time, []) => some time
  | _ => none

/-- A date alone or with a time behind a letter. -/
def dated? (cs : List Char) : Option (List Char) := do
  let (date, cs) ← date cs
  match cs with
  | [] => return date
  | 'T' :: cs => return date ++ 'T' :: (← zonedTime? cs)
  | 't' :: cs => return date ++ 'T' :: (← zonedTime? cs)
  | _ => none

def word? : List Char → Option TomlValue
  | ['t', 'r', 'u', 'e'] => some (.boolean true)
  | ['f', 'a', 'l', 's', 'e'] => some (.boolean false)
  | _ => none

def ofRun? (cs : List Char) : Option TomlValue :=
  word? cs <|> (integer? cs).map .integer <|> (float? cs).map .float <|>
    (dated? cs <|> localTime? cs).map fun written => .text (String.ofList written)

/-- A date and a time with one space between them, and the rest. -/
def spacedDate? (run rest : List Char) : Option (TomlValue × List Char) :=
  match date run, rest with
  | some (date, []), ' ' :: rest =>
    (zonedTime? (rest.takeWhile isScalarChar)).map fun time =>
      (.text (String.ofList (date ++ 'T' :: time)), rest.dropWhile isScalarChar)
  | _, _ => none

def value? (cs : List Char) : Option (TomlValue × List Char) :=
  let run := cs.takeWhile isScalarChar
  let rest := cs.dropWhile isScalarChar
  spacedDate? run rest <|> (ofRun? run).map fun v => (v, rest)

end TomlScalar
end NoteSearch
