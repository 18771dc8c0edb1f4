import NoteSearch.Json.Basic
import NoteSearch.Settings.Path
import NoteSearch.Text.Lowercase
import NoteSearch.Toml.Basic

/-!
# Settings trees

Layers of settings as trees of values. A layer is put on top of a tree key by key: tables are
merged, and any other value replaces what was there. Keys are kept in lower case, and the keys of a
layer may be paths.
-/

namespace NoteSearch

inductive SettingsTree where
  | null
  | boolean (value : Bool)
  | integer (value : Int)
  | real (value : Real64)
  | text (value : String)
  | list (items : List SettingsTree)
  | table (entries : List (String × SettingsTree))
deriving Repr, Inhabited

namespace SettingsTree

def entries : SettingsTree → List (String × SettingsTree)
  | table entries => entries
  | _ => []

def items : SettingsTree → List SettingsTree
  | list items => items
  | _ => []

def put (key : String) (v : SettingsTree) :
    List (String × SettingsTree) → List (String × SettingsTree)
  | [] => [(key, v)]
  | (k, old) :: rest => if k = key then (k, v) :: rest else (k, old) :: put key v rest

mutual

/-- Sets a key of a tree, which becomes a table if it is none. -/
def set (key : String) (root : SettingsTree) : SettingsTree → SettingsTree
  | table fields =>
    let target := (root.entries.lookup (lowered key)).getD (table [])
    table (put (lowered key) (setAll target fields) root.entries)
  | v => table (put (lowered key) v root.entries)

def setAll (root : SettingsTree) : List (String × SettingsTree) → SettingsTree
  | [] => root
  | (key, v) :: rest => setAll (set key root v) rest

end

/-- The place that a position means in a list of some length; none lies before its beginning. -/
def place? (length : Nat) : Int → Option Nat
  | .ofNat n => some n
  | .negSucc n => if n < length then some (length - (n + 1)) else none

/-- Replaces an item, after nulls where the list is too short. -/
def putItem (n : Nat) (v : SettingsTree) (items : List SettingsTree) : List SettingsTree :=
  (items ++ List.replicate (n + 1 - items.length) null).set n v

@[simp] theorem getElem?_putItem (n : Nat) (v : SettingsTree) (items : List SettingsTree) :
    (putItem n v items)[n]? = some v := by
  rw [putItem, List.getElem?_set_self]
  simp
  omega

/-- Sets what a path leads to. What stands in the way of a step becomes a table or a list. -/
def setAt? (v : SettingsTree) : List PathStep → SettingsTree → Option SettingsTree
  | [], _ => some v
  | [.key name], root => some (root.set name v)
  | .key name :: path, root => do
    let below ← setAt? v path ((root.entries.lookup name).getD null)
    return table (put name below root.entries)
  | .position index :: path, root => do
    let n ← place? root.items.length index
    let below ← setAt? v path (root.items[n]?.getD null)
    return list (putItem n below root.items)

/-- Sets what a key names; a key that is no path stands for itself. -/
def setEntry? (root : SettingsTree) (entry : String × SettingsTree) : Option SettingsTree :=
  match PathStep.path? entry.1 with
  | none => some (root.set entry.1 entry.2)
  | some path => setAt? entry.2 path root

def layer? (root : SettingsTree) (entries : List (String × SettingsTree)) : Option SettingsTree :=
  entries.foldlM setEntry? root

mutual

def ofToml : TomlValue → SettingsTree
  | .boolean b => boolean b
  | .integer n => integer n
  | .float x => real x
  | .text s => text s
  | .array items => list (ofTomlItems items)
  | .table fields => table (ofTomlFields fields)

def ofTomlItems : List TomlValue → List SettingsTree
  | [] => []
  | v :: rest => ofToml v :: ofTomlItems rest

def ofTomlFields : List (String × TomlValue) → List (String × SettingsTree)
  | [] => []
  | (key, v) :: rest => (key, ofToml v) :: ofTomlFields rest

end

/-- Whole numbers beyond the signed words are doubles. -/
def ofInteger (n : Int) : SettingsTree :=
  if Numeral.fitsInt64 n then integer n
  else
    match Binary64.ofNat? n.toNat with
    | some x => real (.finite x)
    | none => null

mutual

def ofJson : Json → SettingsTree
  | .null => null
  | .bool b => boolean b
  | .integer n => ofInteger n
  | .double x => real (.finite x)
  | .text s => text s
  | .array items => list (ofJsonItems items)
  | .object fields => table (ofJsonFields fields)

def ofJsonItems : List Json → List SettingsTree
  | [] => []
  | j :: rest => ofJson j :: ofJsonItems rest

def ofJsonFields : List (String × Json) → List (String × SettingsTree)
  | [] => []
  | (key, j) :: rest => (key, ofJson j) :: ofJsonFields rest

end

end SettingsTree
end NoteSearch
