import NoteSearch.Toml.Scalar

/-!
# Reading TOML

A document is a sequence of lines: blank ones, headers, and keys with values. Readers hand back what
follows them. The fuel of a reader is the number of steps it may take; a reader of a text takes
fewer than the text has characters, plus one.
-/

namespace NoteSearch
namespace TomlParser

abbrev Reader (α : Type) := List Char → Option (α × List Char)

def isGap (c : Char) : Bool := c == ' ' || c == '\t'

def skipGap (cs : List Char) : List Char := cs.dropWhile isGap

def skipComment : List Char → List Char
  | '#' :: cs => cs.dropWhile TomlText.isPlain
  | cs => cs

def lineBreak? : List Char → Option (List Char)
  | '\n' :: cs => some cs
  | '\r' :: '\n' :: cs => some cs
  | _ => none

def lineEnd? (cs : List Char) : Option (List Char) :=
  match skipComment (skipGap cs) with
  | [] => some []
  | cs => lineBreak? cs

/-- Blanks, comments and line breaks between the items of an array. -/
def skipLines : Nat → List Char → List Char
  | 0, cs => cs
  | fuel + 1, cs =>
    match lineBreak? (skipComment (skipGap cs)) with
    | some rest => skipLines fuel rest
    | none => skipGap cs

def isBareKeyChar (c : Char) : Bool := c.isAlphanum || c == '_' || c == '-'

def simpleKey : Reader String
  | '"' :: cs => (TomlText.basic cs).map fun r => (String.ofList r.1, r.2)
  | '\'' :: cs => (TomlText.literal cs).map fun r => (String.ofList r.1, r.2)
  | cs =>
    let key := cs.takeWhile isBareKeyChar
    if key.isEmpty then none else some (String.ofList key, cs.drop key.length)

/-- Keys separated by points: all but the last, and the last one. -/
def dottedKey : Nat → Reader (List String × String)
  | 0, _ => none
  | fuel + 1, cs => do
    let (key, cs) ← simpleKey cs
    match skipGap cs with
    | '.' :: rest =>
      let ((path, last), rest) ← dottedKey fuel (skipGap rest)
      return ((key :: path, last), rest)
    | _ => return (([], key), cs)

/-- Arrays and tables nested deeper than this are refused. -/
def maxDepth : Nat := 79

mutual

def value (depth : Nat) : Nat → Reader TomlValue
  | 0, _ => none
  | fuel + 1, cs =>
    match cs with
    | '[' :: cs =>
      if depth < maxDepth then
        (items (depth + 1) fuel (skipLines cs.length cs)).map fun r => (.array r.1, r.2)
      else none
    | '\x7b' :: cs =>
      if depth < maxDepth then
        (pairs (depth + 1) fuel [] (skipGap cs)).map fun r =>
          (.table (TomlNode.entriesToValues r.1), r.2)
      else none
    | '"' :: _ => (TomlText.value? cs).map fun r => (.text (String.ofList r.1), r.2)
    | '\'' :: _ => (TomlText.value? cs).map fun r => (.text (String.ofList r.1), r.2)
    | _ => TomlScalar.value? cs

/-- The items of an array up to its closing bracket. A comma may stand behind the last one. -/
def items (depth : Nat) : Nat → Reader (List TomlValue)
  | 0, _ => none
  | fuel + 1, cs =>
    match cs with
    | ']' :: rest => some ([], rest)
    | _ =>
      match value depth fuel cs with
      | none => none
      | some (v, rest) =>
        match skipLines rest.length rest with
        | ',' :: rest =>
          (items depth fuel (skipLines rest.length rest)).map fun r => (v :: r.1, r.2)
        | ']' :: rest => some ([v], rest)
        | _ => none

/-- The pairs of an inline table up to its closing brace. No comma stands behind the last one. -/
def pairs (depth : Nat) : Nat → TomlNode.Entries → Reader TomlNode.Entries
  | 0, _, _ => none
  | fuel + 1, done, cs =>
    match cs, done with
    | '\x7d' :: rest, [] => some ([], rest)
    | _, _ =>
      match dottedKey cs.length cs with
      | none => none
      | some ((path, key), rest) =>
        match skipGap rest with
        | '=' :: rest =>
          match value depth fuel (skipGap rest) with
          | none => none
          | some (v, rest) =>
            match TomlNode.assign key v path true done, skipGap rest with
            | some done, '\x7d' :: rest => some (done, rest)
            | some done, ',' :: rest => pairs depth fuel done (skipGap rest)
            | _, _ => none
        | _ => none

end

/-- The tables so far, and the path of the one that lines add to. -/
structure State where
  root : TomlNode.Entries
  current : List String

def header (cs : List Char) : Option (State → Option State) × List Char :=
  match cs with
  | '[' :: '[' :: rest =>
    match dottedKey rest.length (skipGap rest) with
    | some ((path, key), rest) =>
      match skipGap rest with
      | ']' :: ']' :: rest =>
        (some fun s => (TomlNode.openElement path key s.root).map fun root =>
          ⟨root, path ++ [key]⟩, rest)
      | _ => (none, [])
    | none => (none, [])
  | '[' :: rest =>
    match dottedKey rest.length (skipGap rest) with
    | some ((path, key), rest) =>
      match skipGap rest with
      | ']' :: rest =>
        (some fun s => (TomlNode.openTable path key s.root).map fun root =>
          ⟨root, path ++ [key]⟩, rest)
      | _ => (none, [])
    | none => (none, [])
  | _ => (none, [])

def assignment (cs : List Char) : Option (State → Option State) × List Char :=
  match dottedKey cs.length cs with
  | some ((path, key), rest) =>
    match skipGap rest with
    | '=' :: rest =>
      match value 0 (rest.length + 1) (skipGap rest) with
      | some (v, rest) =>
        (some fun s => (TomlNode.alterAt (TomlNode.assign key v path true) s.current s.root).map
          fun root => { s with root }, rest)
      | none => (none, [])
    | _ => (none, [])
  | none => (none, [])

/-- What the line at the front of a text does, and the lines after it. -/
def line (s : State) (cs : List Char) : Option (State × List Char) :=
  match lineEnd? cs with
  | some rest => some (s, rest)
  | none =>
    let (step, rest) :=
      match skipGap cs with
      | '[' :: cs => header ('[' :: cs)
      | cs => assignment cs
    match step with
    | none => none
    | some step => do
      let s ← step s
      let rest ← lineEnd? rest
      return (s, rest)

def lines : Nat → State → List Char → Option State
  | 0, _, _ => none
  | _ + 1, s, [] => some s
  | fuel + 1, s, cs =>
    match line s cs with
    | some (s, rest) => lines fuel s rest
    | none => none

/-- A byte order mark in front of a document does not count. -/
def dropMark : List Char → List Char
  | '\ufeff' :: cs => cs
  | cs => cs

end TomlParser

def TomlValue.parse? (s : String) : Option (List (String × TomlValue)) :=
  let cs := TomlParser.dropMark s.toList
  (TomlParser.lines (cs.length + 1) ⟨[], []⟩ cs).map fun done =>
    TomlNode.entriesToValues done.root

end NoteSearch
