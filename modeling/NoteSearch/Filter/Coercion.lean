import NoteSearch.Calendar.Timestamp
import NoteSearch.Decimal.Literal
import NoteSearch.Filter.PropertyFilter

/-!
# Coercion of filter values

A value is turned into what its property's type holds where that can be done, and left as it is
where it cannot, so that the backend can refuse it. Without a declared type the operator decides:
ordering operators compare numbers.
-/

namespace NoteSearch
namespace Coercion

/-- An integer of 64 bits if the text is one, else a finite double. Blanks around do not count. -/
def readNumber? (s : String) : Option Json :=
  let cs := Text.trim s.toList
  match Numeral.readInt64? cs with
  | some n => some (.integer n)
  | none => (Literal.readFinite? cs).map .double

def toNumber? : Json → Option Json
  | .integer n => some (.integer n)
  | .double x => some (.double x)
  | .text s => readNumber? s
  | _ => none

def readBoolean? (s : String) : Option Bool :=
  match keyword s with
  | "true" => some true
  | "1" => some true
  | "yes" => some true
  | "false" => some false
  | "0" => some false
  | "no" => some false
  | _ => none

def toBoolean? : Json → Option Json
  | .bool b => some (.bool b)
  | .text s => (readBoolean? s).map .bool
  | .integer n => if n = 1 then some (.bool true) else if n = 0 then some (.bool false) else none
  | _ => none

/-- Milliseconds since 1970: a number as it stands, or a date and time in any known format. -/
def readMillis? (cs : List Char) : Option Int :=
  match Numeral.readInt64? cs with
  | some n => some n
  | none =>
    match Timestamp.readStrict? cs with
    | some i => some i.toMillis
    | none => (Timestamp.readNaive? cs).map Instant.toMillis

def toMillis? : Json → Option Json
  | .integer n => some (.integer n)
  | .double x => some (.double x)
  | .text s => (readMillis? (Text.trim s.toList)).map .integer
  | _ => none

/-- The value as a property type holds it, if it can be turned into one. -/
def convert? (type : PropertyType) (value : Json) : Option Json :=
  match type with
  | .number => toNumber? value
  | .boolean => toBoolean? value
  | .dateTime => toMillis? value
  | _ => none

def convert (type : PropertyType) (value : Json) : Json := (convert? type value).getD value

/-- The value as an operator compares it. -/
def convertFor (op : Operator) (value : Json) : Json :=
  if op.isOrdering then (toNumber? value).getD value else value

theorem convertFor_of_isOrdering (op : Operator) (value : Json) (h : op.isOrdering = true) :
    convertFor op value = convert .number value := by
  simp [convertFor, convert, convert?, h]

end Coercion
end NoteSearch
