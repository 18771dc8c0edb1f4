import NoteSearch.Failure
import NoteSearch.Json.Record
import NoteSearch.Text.Ascii

/-!
# Comparison operators

The ten operators a property filter may use, the tokens users write for them, and their codes in the
backend's queries. Tokens are read without regard to ASCII case and to the amount of blanks.
-/

namespace NoteSearch

inductive Operator where
  | atLeast
  | greater
  | atMost
  | less
  | equal
  | notEqual
  | isNull
  | notNull
  | includes
  | notIncludes
deriving DecidableEq, Repr

namespace Operator

def all : List Operator :=
  [atLeast, greater, atMost, less, equal, notEqual, isNull, notNull, includes, notIncludes]

/-- The codes 5 and 6 are reserved. -/
def code : Operator → Nat
  | equal => 1
  | notEqual => 2
  | includes => 3
  | notIncludes => 4
  | greater => 7
  | less => 8
  | atLeast => 9
  | atMost => 10
  | isNull => 11
  | notNull => 12

def token : Operator → String
  | atLeast => ">="
  | greater => ">"
  | atMost => "<="
  | less => "<"
  | equal => "=="
  | notEqual => "!="
  | isNull => "is null"
  | notNull => "not null"
  | includes => "includes"
  | notIncludes => "not includes"

/-- Null checks compare with no value. -/
def isNullCheck : Operator → Bool
  | isNull => true
  | notNull => true
  | _ => false

/-- Ordering operators compare numbers. -/
def isOrdering : Operator → Bool
  | greater => true
  | less => true
  | atLeast => true
  | atMost => true
  | _ => false

/-- Words in lower case with one space between them. -/
def normalize (cs : List Char) : List Char :=
  Text.lowerAsciiAll (Text.joinWith [' '] (Text.words cs))

/-- The operator of a normalized token. -/
def ofToken? (cs : List Char) : Option Operator := all.find? fun op => op.token.toList == cs

def read? (cs : List Char) : Option Operator := ofToken? (normalize cs)

def parse (token : String) : Except SearchError Operator :=
  match read? token.toList with
  | some op => .ok op
  | none => .error (.unsupportedOperator token)

def ofJson : Json → Decoded Operator
  | .text token =>
    match read? token.toList with
    | some op => .ok op
    | none => .error (.unsupportedOperator token)
  | _ => .error .unfit

def toJson (op : Operator) : Json := .text op.token

theorem code_injective (a b : Operator) (h : a.code = b.code) : a = b := by
  revert h
  cases a <;> cases b <;> decide

@[simp] theorem ofToken?_token (op : Operator) : ofToken? op.token.toList = some op := by
  cases op <;> rfl

@[simp] theorem read?_token (op : Operator) : read? op.token.toList = some op := by
  cases op <;> rfl

@[simp] theorem ofJson_toJson (op : Operator) : ofJson op.toJson = .ok op := by
  simp [ofJson, toJson]

end Operator
end NoteSearch
