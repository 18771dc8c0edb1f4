import NoteSearch.Json.Lexer

/-!
# Reading JSON text

The tokens are read once, from left to right, with a stack of the arrays and objects that are still
open. Nesting is bounded: a text that opens more than `maxDepth` at once is no JSON text.
-/

namespace NoteSearch
namespace JsonText

/-- Containers nested deeper than this are refused. -/
def maxDepth : Nat := 127

/-- An open container with what is in it so far, last first. -/
inductive Frame where
  | items (done : List Json)
  | fields (done : List (String × Json))
  | member (done : List (String × Json)) (key : String)

inductive Expecting where
  | value
  | firstItem
  | firstKey
  | key
  | colon (key : String)
  | separator

inductive Progress where
  | expecting (what : Expecting) (stack : List Frame)
  | finished (value : Json)

/-- Puts a complete value where it belongs. -/
def deliver (value : Json) : List Frame → Option Progress
  | [] => some (.finished value)
  | .items done :: stack => some (.expecting .separator (.items (value :: done) :: stack))
  | .member done key :: stack =>
    some (.expecting .separator (.fields ((key, value) :: done) :: stack))
  | .fields _ :: _ => none

def push (frame : Frame) (what : Expecting) (stack : List Frame) : Option Progress :=
  if stack.length < maxDepth then some (.expecting what (frame :: stack)) else none

def startValue (token : Token) (stack : List Frame) : Option Progress :=
  match token with
  | .scalar v => deliver v stack
  | .openArray => push (.items []) .firstItem stack
  | .openObject => push (.fields []) .firstKey stack
  | _ => none

/-- A token that ends the container on top of the stack. -/
def close (token : Token) (stack : List Frame) : Option Progress :=
  match token, stack with
  | .closeArray, .items done :: rest => deliver (.array done.reverse) rest
  | .closeObject, .fields done :: rest => deliver (.object done.reverse) rest
  | _, _ => none

def readKey (token : Token) (stack : List Frame) : Option Progress :=
  match token with
  | .scalar (.text key) => some (.expecting (.colon key) stack)
  | _ => none

def advance : Progress → Token → Option Progress
  | .finished _, _ => none
  | .expecting .value stack, token => startValue token stack
  | .expecting .firstItem stack, token =>
    if token = .closeArray then close token stack else startValue token stack
  | .expecting .firstKey stack, token =>
    if token = .closeObject then close token stack else readKey token stack
  | .expecting .key stack, token => readKey token stack
  | .expecting (.colon key) stack, token =>
    match token, stack with
    | .colon, .fields done :: rest => some (.expecting .value (.member done key :: rest))
    | _, _ => none
  | .expecting .separator stack, token =>
    match token, stack with
    | .comma, .items _ :: _ => some (.expecting .value stack)
    | .comma, .fields _ :: _ => some (.expecting .key stack)
    | _, _ => close token stack

def ofTokens? (tokens : List Token) : Option Json :=
  match tokens.foldlM advance (.expecting .value []) with
  | some (.finished value) => some value
  | _ => none

end JsonText

namespace Json

/-- The value of a text, fields as they are written. -/
def parse? (s : String) : Option Json := (JsonText.tokens? s.toList).bind JsonText.ofTokens?

/-- The value of a text read as data. -/
def read? (s : String) : Option Json := (parse? s).map canonical

end Json
end NoteSearch
