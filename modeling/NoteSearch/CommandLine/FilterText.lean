import NoteSearch.Filter.PropertyFilter
import NoteSearch.Json.Parser

/-!
# Filters in text

A filter is written as a name, an operator and a value with blanks between them, or with a symbol
between name and value and no blanks. The first operator between words counts. A value that is JSON
keeps its type; any other is a text.
-/

namespace NoteSearch

inductive FilterFault where
  | shapeless (input : String)
  | nameless (input : String)
  | valueless (op : Operator)
deriving DecidableEq, Repr

def FilterFault.message : FilterFault → String
  | shapeless input => "expected 'name operator [value]', got '" ++ input ++ "'"
  | nameless input => "missing property name in '" ++ input ++ "'"
  | valueless op => "operator '" ++ op.token ++ "' needs a value"

namespace FilterText

structure Cut where
  name : List Char
  op : Operator
  value : List Char
deriving DecidableEq, Repr

def unwords (words : List (List Char)) : List Char := Text.joinWith [' '] words

/-- The operator that some words begin with, and the words after it. Two words come before one. -/
def operatorAt? : List (List Char) → Option (Operator × List (List Char))
  | first :: second :: rest =>
    match Operator.read? (unwords [first, second]) with
    | some op => some (op, rest)
    | none => (Operator.read? first).map fun op => (op, second :: rest)
  | [word] => (Operator.read? word).map fun op => (op, [])
  | [] => none

def cutAfter (before : List (List Char)) : List (List Char) → Option Cut
  | [] => none
  | word :: words =>
    match operatorAt? (word :: words) with
    | some (op, rest) => some ⟨unwords before.reverse, op, unwords rest⟩
    | none => cutAfter (word :: before) words

/-- A name of at least one word, an operator, and the words of the value. -/
def spaced? (cs : List Char) : Option Cut :=
  match Text.words cs with
  | [] => none
  | word :: words => cutAfter [word] words

/-- Symbols in the order in which they are looked for. -/
def symbols : List (String × Operator) :=
  [ (">=", .atLeast), ("<=", .atMost), ("!=", .notEqual), ("==", .equal), (">", .greater)
  , ("<", .less) ]

def cutAtSymbol? (cs : List Char) (symbol : String × Operator) : Option Cut :=
  (Text.splitOnce symbol.1.toList cs).map fun parts =>
    ⟨Text.trim parts.1, symbol.2, Text.trim parts.2⟩

def compact? (cs : List Char) : Option Cut := symbols.findSome? (cutAtSymbol? cs)

def valueOf (cs : List Char) : Json :=
  let s := String.ofList cs
  (Json.read? s).getD (.text s)

/-- The filter of a cut. Null checks have no value, all others need one. -/
def complete (input : String) (cut : Cut) : Except FilterFault PropertyFilter :=
  if cut.name.isEmpty then .error (.nameless input)
  else if cut.op.isNullCheck then .ok (.untyped (String.ofList cut.name) cut.op none)
  else if cut.value.isEmpty then .error (.valueless cut.op)
  else .ok (.untyped (String.ofList cut.name) cut.op (some (valueOf cut.value)))

end FilterText

def PropertyFilter.parse (input : String) : Except FilterFault PropertyFilter :=
  match FilterText.spaced? input.toList <|> FilterText.compact? input.toList with
  | some cut => FilterText.complete input cut
  | none => .error (.shapeless input)

end NoteSearch
