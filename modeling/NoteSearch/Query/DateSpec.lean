import NoteSearch.Calendar.Timestamp
import NoteSearch.Failure
import NoteSearch.Json.Record
import NoteSearch.Text.Ascii

/-!
# Dates of a search

A date is an offset from the present in some unit, or a fixed count of milliseconds since 1970. The
written form of an offset always has a sign, so that it cannot be taken for a count.
-/

namespace NoteSearch

inductive TimeUnit where
  | second
  | minute
  | hour
  | day
  | week
  | month
  | year
deriving DecidableEq, Repr

namespace TimeUnit

/-- Minutes and months differ by case. -/
def symbol : TimeUnit → Char
  | second => 's'
  | minute => 'm'
  | hour => 'h'
  | day => 'd'
  | week => 'w'
  | month => 'M'
  | year => 'y'

def ofSymbol? : Char → Option TimeUnit
  | 's' => some second
  | 'm' => some minute
  | 'h' => some hour
  | 'd' => some day
  | 'w' => some week
  | 'M' => some month
  | 'y' => some year
  | _ => none

def ofText? (s : String) : Option TimeUnit :=
  match s.toList with
  | [c] => ofSymbol? c
  | _ => none

def toText (u : TimeUnit) : String := String.ofList [u.symbol]

/-- A symbol, or an object whose only key is one and which holds nothing under it. -/
def ofJson : Json → Decoded TimeUnit
  | .text s => Decoded.ofOption (ofText? s)
  | .object [(s, .null)] => Decoded.ofOption (ofText? s)
  | .object [(s, .object [])] => Decoded.ofOption (ofText? s)
  | _ => .error .unfit

def toJson (u : TimeUnit) : Json := .text u.toText

@[simp] theorem ofSymbol?_symbol (u : TimeUnit) : ofSymbol? u.symbol = some u := by
  cases u <;> rfl

@[simp] theorem ofText?_toText (u : TimeUnit) : ofText? u.toText = some u := by
  cases u <;> rfl

@[simp] theorem ofJson_toJson (u : TimeUnit) : ofJson u.toJson = .ok u := by
  simp [ofJson, toJson]

end TimeUnit

/-- Values are signed 64 bit words. -/
inductive DateSpec where
  | relative (value : Int) (unit : TimeUnit)
  | absolute (value : Int)
deriving DecidableEq, Repr

namespace DateSpec

def today : DateSpec := relative 0 .day

def yesterday : DateSpec := relative (-1) .day

/-- A fixed date, exact to the millisecond. -/
def ofInstant (i : Instant) : DateSpec := absolute i.toMillis

def display : DateSpec → String
  | relative value unit =>
    (if 0 ≤ value then "+" else "") ++ Numeral.writeInt value ++ unit.toText
  | absolute value => Numeral.writeInt value

def ofWord? (cs : List Char) : Option DateSpec :=
  match String.ofList (Text.lowerAsciiAll cs) with
  | "today" => some today
  | "yesterday" => some yesterday
  | _ => none

/-- An integer in front of the symbol of a unit. -/
def readRelative? (cs : List Char) : Option DateSpec := do
  let unit ← cs.getLast?.bind TimeUnit.ofSymbol?
  let value ← Numeral.readInt64? cs.dropLast
  return relative value unit

/-- A count of milliseconds, a date and time with an offset, or a date. -/
def readAbsolute? (cs : List Char) : Option DateSpec :=
  match Numeral.readInt64? cs with
  | some value => some (absolute value)
  | none => (Timestamp.readStrict? cs <|> Timestamp.readDate? cs).map ofInstant

/-- Words come first, then offsets. -/
def read? (cs : List Char) : Option DateSpec :=
  ofWord? cs <|> readRelative? cs <|> readAbsolute? cs

/-- Blanks around a date do not count. -/
def parse (input : String) : Except SearchError DateSpec :=
  match read? (Text.trim input.toList) with
  | some d => .ok d
  | none => .error (.invalidQuery (.unreadableDate input))

inductive Kind where
  | relative
  | absolute
deriving DecidableEq, Repr

def Kind.ofName? : String → Option Kind
  | "relative" => some .relative
  | "absolute" => some .absolute
  | _ => none

def Kind.ofIndex? : Int → Option Kind
  | 0 => some .relative
  | 1 => some .absolute
  | _ => none

def ofRecord (kind : Kind) (r : Record) : Decoded DateSpec :=
  match kind with
  | .relative => do
    let value ← r.field 0 "value" Json.asInt64
    let unit ← r.field 1 "unit" TimeUnit.ofJson
    let value ← Decoded.ofOption value
    let unit ← Decoded.ofOption unit
    r.close 2
    return relative value unit
  | .absolute => do
    let value ← r.field 0 "value" Json.asInt64
    let value ← Decoded.ofOption value
    r.close 1
    return absolute value

/-- A record whose field `type` names the kind of date. -/
def ofJson (j : Json) : Decoded DateSpec := do
  let (tag, rest) ← Record.splitTag "type" j
  let kind ← Decoded.ofOption (tag.text?.bind Kind.ofName?)
  ofRecord kind rest

/-- Inside of a condition, the kind of a date may also be given by its index. -/
def ofNestedJson (j : Json) : Decoded DateSpec := do
  let (tag, rest) ← Record.splitTag "type" j
  let kind ←
    match tag with
    | .text name => Decoded.ofOption (Kind.ofName? name)
    | .integer index => Decoded.ofOption (Kind.ofIndex? index)
    | _ => .error .unfit
  ofRecord kind rest

def toJson : DateSpec → Json
  | relative value unit =>
    .object [("type", .text "relative"), ("value", .integer value), ("unit", unit.toJson)]
  | absolute value => .object [("type", .text "absolute"), ("value", .integer value)]

end DateSpec

/-- Both ends belong to the range. -/
structure DateRange where
  start : DateSpec
  finish : DateSpec
deriving DecidableEq, Repr

namespace DateRange

def ofRecordWith (date : Json → Decoded DateSpec) (r : Record) : Decoded DateRange := do
  let start ← r.field 0 "start" date
  let finish ← r.field 1 "end" date
  let start ← Decoded.ofOption start
  let finish ← Decoded.ofOption finish
  r.close 2
  return ⟨start, finish⟩

def ofJson (j : Json) : Decoded DateRange := Record.ofJson j >>= ofRecordWith DateSpec.ofJson

def fields (r : DateRange) : List (String × Json) :=
  [("start", r.start.toJson), ("end", r.finish.toJson)]

def toJson (r : DateRange) : Json := .object r.fields

end DateRange
end NoteSearch
