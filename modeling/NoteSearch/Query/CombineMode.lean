import NoteSearch.Failure
import NoteSearch.Json.Record
import NoteSearch.Text.Ascii

/-!
# Combine modes

How the conditions of an advanced search are joined: all hold on one block, any holds, or they hold
somewhere along one chain of ancestors.
-/

namespace NoteSearch

inductive CombineMode where
  | and
  | or
  | chainAnd
deriving DecidableEq, Repr

namespace CombineMode

def name : CombineMode → String
  | and => "and"
  | or => "or"
  | chainAnd => "chain_and"

def ofName? : String → Option CombineMode
  | "and" => some and
  | "or" => some or
  | "chain_and" => some chainAnd
  | _ => none

/-- Words typed by users: blanks around, case, and hyphens for underscores do not matter. -/
def normalize (s : String) : String :=
  String.ofList <|
    (Text.lowerAsciiAll (Text.trim s.toList)).map fun c => if c = '-' then '_' else c

def parse (s : String) : Except SearchError CombineMode :=
  match normalize s with
  | "and" => .ok and
  | "or" => .ok or
  | "chain_and" => .ok chainAnd
  | "chain" => .ok chainAnd
  | word => .error (.invalidQuery (.unknownMode word))

/-- A name, or an object with nothing under a name. -/
def ofJson : Json → Decoded CombineMode
  | .text s => Decoded.ofOption (ofName? s)
  | .object [(s, .null)] => Decoded.ofOption (ofName? s)
  | _ => .error .unfit

def toJson (m : CombineMode) : Json := .text m.name

@[simp] theorem ofName?_name (m : CombineMode) : ofName? m.name = some m := by
  cases m <;> rfl

@[simp] theorem parse_name (m : CombineMode) : parse m.name = .ok m := by
  cases m <;> rfl

end CombineMode
end NoteSearch
