import NoteSearch.Text.Numeral

/-!
# Paths into settings

A path leads from a tree of settings to a value inside it: a key, then keys behind points and
positions in brackets, as in `results.tree_max_depth` or `results[2]`.
-/

namespace NoteSearch

/-- One step down. A position counts from the front, a negative one from behind. -/
inductive PathStep where
  | key (name : String)
  | position (index : Int)
deriving DecidableEq, Repr

namespace PathStep

def isKeyChar (c : Char) : Bool := c.isAlphanum || c == ' ' || c == '_' || c == '-'

def isPadding (c : Char) : Bool := c == ' ' || c == '\t'

/-- Digits after an optional minus sign, with padding around them. -/
def index? (cs : List Char) : Option Int :=
  match ((cs.dropWhile isPadding).reverse.dropWhile isPadding).reverse with
  | '+' :: _ => none
  | digits => Numeral.readInt64? digits

def ofPart? : List Char → Option PathStep
  | '.' :: name =>
    if !name.isEmpty && name.all isKeyChar then some (.key (String.ofList name)) else none
  | '[' :: cs => if cs.getLast? = some ']' then (index? cs.dropLast).map .position else none
  | _ => none

/-- The steps of a path, of which the first is a key; none if the text is no path. -/
def path? (text : String) : Option (List PathStep) :=
  (('.' :: text.toList).splitBy fun _ c => c != '.' && c != '[').mapM ofPart?

end PathStep
end NoteSearch
