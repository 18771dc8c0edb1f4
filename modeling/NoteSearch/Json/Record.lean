import NoteSearch.Json.Basic
import NoteSearch.Text.Numeral

/-!
# Records in JSON

A record is written as an object, or as an array of its fields in declared order. Fields that a
record does not know are passed over, a field that is repeated makes the record unreadable, and so
does an array that is too long. Fields that are present are read before missing ones are missed.
-/

namespace NoteSearch

inductive DecodeError where
  | unfit
  | unsupportedOperator (token : String)
  | unknownTypeCode (code : Nat)
  | unknownTypeName (name : String)
deriving DecidableEq, Repr

/-- Only errors about operators and property types have a text of their own. -/
def DecodeError.message? : DecodeError → Option String
  | .unfit => none
  | .unsupportedOperator token => some ("Unsupported operator: " ++ token)
  | .unknownTypeCode code => some ("unknown property type code " ++ Numeral.writeInt code)
  | .unknownTypeName name => some ("unknown property type '" ++ name ++ "'")

abbrev Decoded (α : Type) := Except DecodeError α

namespace Decoded

def ofOption {α : Type} : Option α → Decoded α
  | some a => .ok a
  | none => .error .unfit

@[simp] theorem ofOption_some {α : Type} (a : α) : ofOption (some a) = .ok a := rfl

@[simp] theorem ofOption_none {α : Type} : ofOption (none : Option α) = .error .unfit := rfl

end Decoded

namespace Json

def asText : Json → Decoded String
  | text s => .ok s
  | _ => .error .unfit

def asBool : Json → Decoded Bool
  | bool b => .ok b
  | _ => .error .unfit

def asIntWithin (low high : Int) : Json → Decoded Int
  | integer n => if low ≤ n ∧ n ≤ high then .ok n else .error .unfit
  | _ => .error .unfit

def asInt64 : Json → Decoded Int := asIntWithin Numeral.minInt64 Numeral.maxInt64

def asNatUpTo (high : Nat) (j : Json) : Decoded Nat := (asIntWithin 0 high j).map Int.toNat

def asWord8 : Json → Decoded Nat := asNatUpTo 255

def asWord32 : Json → Decoded Nat := asNatUpTo Numeral.maxWord32

def asWord64 : Json → Decoded Nat := asNatUpTo Numeral.maxWord64

def asData (j : Json) : Decoded Json := .ok j.canonical

def asList {α : Type} (item : Json → Decoded α) : Json → Decoded (List α)
  | array items => items.mapM item
  | _ => .error .unfit

/-- Null stands for no value. -/
def orAbsent {α : Type} (decode : Json → Decoded α) : Json → Decoded (Option α)
  | null => .ok none
  | j => (decode j).map some

/-- Null stands for no items. -/
def asListOrNull {α : Type} (item : Json → Decoded α) : Json → Decoded (List α)
  | null => .ok []
  | j => asList item j

end Json

inductive Record where
  | named (fields : List (String × Json))
  | listed (items : List Json)

namespace Record

def ofJson : Json → Decoded Record
  | .object fields => .ok (.named fields)
  | .array items => .ok (.listed items)
  | _ => .error .unfit

def isNamed : Record → Bool
  | .named _ => true
  | .listed _ => false

def valuesOf (name : String) (fields : List (String × Json)) : List Json :=
  (fields.filter (·.1 == name)).map (·.2)

/-- The value of the field at a position of the declared order. -/
def value? (r : Record) (index : Nat) (name : String) : Decoded (Option Json) :=
  match r with
  | .named fields =>
    match valuesOf name fields with
    | [] => .ok none
    | [j] => .ok (some j)
    | _ => .error .unfit
  | .listed items => .ok items[index]?

/-- A field that may be missing. -/
def field {α : Type} (r : Record) (index : Nat) (name : String) (decode : Json → Decoded α) :
    Decoded (Option α) :=
  match r.value? index name with
  | .ok (some j) => (decode j).map some
  | .ok none => .ok none
  | .error e => .error e

/-- A field that may be missing or null. -/
def optional {α : Type} (r : Record) (index : Nat) (name : String) (decode : Json → Decoded α) :
    Decoded (Option α) :=
  (r.field index name (Json.orAbsent decode)).map Option.join

/-- Refuses an array with more items than the record has fields. -/
def close (r : Record) (size : Nat) : Decoded Unit :=
  match r with
  | .named _ => .ok ()
  | .listed items => if items.length ≤ size then .ok () else .error .unfit

/-- The field that tells the alternatives of a record apart, and the record of the others. -/
def splitTag (name : String) : Json → Decoded (Json × Record)
  | .object fields =>
    match valuesOf name fields with
    | [tag] => .ok (tag, .named (fields.filter (·.1 != name)))
    | _ => .error .unfit
  | .array (tag :: items) => .ok (tag, .listed items)
  | _ => .error .unfit

end Record
end NoteSearch
