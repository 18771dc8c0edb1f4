import NoteSearch.Decimal.Literal

/-!
# TOML documents

Values as a TOML document holds them, and the tables that a document builds up line by line. How a
table came about decides what may still be added to it: a header opens a table once, dotted keys may
only reach into tables that no header has opened, and a value is complete as it is written.
-/

namespace NoteSearch

/-- Dates and times are texts. -/
inductive TomlValue where
  | boolean (value : Bool)
  | integer (value : Int)
  | float (value : Real64)
  | text (value : String)
  | array (items : List TomlValue)
  | table (fields : List (String × TomlValue))
deriving Repr, Inhabited

/-- What a table was first mentioned by. -/
inductive TableOrigin where
  | header
  | headerParent
  | dottedKey
deriving DecidableEq, Repr

inductive TomlNode where
  | value (value : TomlValue)
  | table (origin : TableOrigin) (entries : List (String × TomlNode))
  | tables (elements : List (List (String × TomlNode)))
deriving Repr, Inhabited

namespace TomlNode

abbrev Entries := List (String × TomlNode)

/-- Changes what stands under a key, or refuses to. -/
def alter (key : String) (change : Option TomlNode → Option TomlNode) : Entries → Option Entries
  | [] => (change none).map fun node => [(key, node)]
  | (k, node) :: rest =>
    if k = key then (change (some node)).map fun node => (k, node) :: rest
    else (alter key change rest).map fun rest => (k, node) :: rest

def alterLast (change : Entries → Option Entries) : List Entries → Option (List Entries)
  | [] => none
  | [entries] => (change entries).map fun entries => [entries]
  | entries :: rest => (alterLast change rest).map fun rest => entries :: rest

/-- Changes the table at the path of a header. Missing tables come into being on the way. -/
def alterAt (change : Entries → Option Entries) : List String → Entries → Option Entries
  | [] => change
  | key :: path => alter key fun
    | none => (alterAt change path []).map (table .headerParent)
    | some (table origin entries) => (alterAt change path entries).map (table origin)
    | some (tables elements) => (alterLast (alterAt change path) elements).map tables
    | some (value _) => none

/-- Opens the table of a header, which no other header may have opened. -/
def openTable (path : List String) (key : String) : Entries → Option Entries :=
  alterAt (alter key fun
    | none => some (table .header [])
    | some (table .headerParent entries) => some (table .header entries)
    | _ => none) path

def openElement (path : List String) (key : String) : Entries → Option Entries :=
  alterAt (alter key fun
    | none => some (tables [[]])
    | some (tables elements) => some (tables (elements ++ [[]]))
    | _ => none) path

/-- Sets a new key behind a dotted path. The last table on the way must be one that dotted keys
made. -/
def assign (key : String) (v : TomlValue) : List String → Bool → Entries → Option Entries
  | [], true => alter key fun
    | none => some (value v)
    | some _ => none
  | [], false => fun _ => none
  | k :: path, _ => alter k fun
    | none => (assign key v path true []).map (table .dottedKey)
    | some (table .header _) => none
    | some (table .headerParent entries) =>
      (assign key v path false entries).map (table .headerParent)
    | some (table .dottedKey entries) => (assign key v path true entries).map (table .dottedKey)
    | some (tables elements) => (alterLast (assign key v path false) elements).map tables
    | some (value _) => none

mutual

def toValue : TomlNode → TomlValue
  | value v => v
  | table _ entries => .table (entriesToValues entries)
  | tables elements => .array (elementsToValues elements)

def entriesToValues : Entries → List (String × TomlValue)
  | [] => []
  | (key, node) :: rest => (key, toValue node) :: entriesToValues rest

def elementsToValues : List Entries → List TomlValue
  | [] => []
  | entries :: rest => .table (entriesToValues entries) :: elementsToValues rest

end

end TomlNode
end NoteSearch
