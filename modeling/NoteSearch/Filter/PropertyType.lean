import NoteSearch.Json.Record
import NoteSearch.Text.Ascii

/-!
# Property types

The kinds of value a typed property holds, their names, and their codes in the backend's records.
-/

namespace NoteSearch

inductive PropertyType where
  | json
  | text
  | blockRefs
  | number
  | boolean
  | dateTime
  | textChoices
deriving DecidableEq, Repr

namespace PropertyType

def code : PropertyType → Nat
  | json => 0
  | text => 1
  | blockRefs => 2
  | number => 3
  | boolean => 4
  | dateTime => 5
  | textChoices => 6

def ofCode? : Nat → Option PropertyType
  | 0 => some json
  | 1 => some text
  | 2 => some blockRefs
  | 3 => some number
  | 4 => some boolean
  | 5 => some dateTime
  | 6 => some textChoices
  | _ => none

def name : PropertyType → String
  | json => "json"
  | text => "text"
  | blockRefs => "block-refs"
  | number => "number"
  | boolean => "boolean"
  | dateTime => "datetime"
  | textChoices => "text-choices"

/-- Names that are read beside the ones that are written. -/
def ofName? (name : String) : Option PropertyType :=
  match keyword name with
  | "json" => some json
  | "text" => some text
  | "block-refs" => some blockRefs
  | "blockrefs" => some blockRefs
  | "number" => some number
  | "boolean" => some boolean
  | "bool" => some boolean
  | "datetime" => some dateTime
  | "date" => some dateTime
  | "text-choices" => some textChoices
  | "textchoices" => some textChoices
  | "choices" => some textChoices
  | _ => none

/-- A code or a name. -/
def ofJson : Json → Decoded PropertyType
  | .integer n =>
    if 0 ≤ n ∧ n ≤ 255 then
      match ofCode? n.toNat with
      | some t => .ok t
      | none => .error (.unknownTypeCode n.toNat)
    else .error .unfit
  | .text name =>
    match ofName? name with
    | some t => .ok t
    | none => .error (.unknownTypeName name)
  | _ => .error .unfit

def toJson (t : PropertyType) : Json := .integer t.code

@[simp] theorem ofCode?_code (t : PropertyType) : ofCode? t.code = some t := by
  cases t <;> rfl

@[simp] theorem ofJson_toJson (t : PropertyType) : ofJson t.toJson = .ok t := by
  cases t <;> rfl

theorem code_injective (a b : PropertyType) (h : a.code = b.code) : a = b := by
  revert h
  cases a <;> cases b <;> decide

end PropertyType
end NoteSearch
