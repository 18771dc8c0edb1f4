import NoteSearch.Json.Record

/-!
# Block trees

A block with the blocks below it, as a subtree fetch answers.
-/

namespace NoteSearch

structure BlockTree where
  id : Int
  text : Option String
  children : List BlockTree
deriving Repr

namespace BlockTree

/-- The node over children that are read already. -/
def ofParts (id text : Option Json) (children : List BlockTree) : Decoded BlockTree := do
  let id ← Decoded.ofOption id
  let id ← id.asInt64
  let text ← Json.orAbsent Json.asText (Json.orNull text)
  return ⟨id, text, children⟩

mutual

def ofJson : Json → Decoded BlockTree
  | .object fields => do
    let r := Record.named fields
    let children ←
      match childFields fields with
      | [] => .ok []
      | [children] => children
      | _ => .error .unfit
    ofParts (← r.value? 0 "id") (← r.value? 1 "text") children
  | .array [id] => ofParts (some id) none []
  | .array [id, text] => ofParts (some id) (some text) []
  | .array [id, text, children] => childrenOf children >>= ofParts (some id) (some text)
  | _ => .error .unfit

/-- What the fields for children hold. -/
def childFields : List (String × Json) → List (Decoded (List BlockTree))
  | [] => []
  | (key, value) :: rest =>
    if key = "children" then childrenOf value :: childFields rest else childFields rest

def childrenOf : Json → Decoded (List BlockTree)
  | .null => .ok []
  | .array items => listOfJson items
  | _ => .error .unfit

def listOfJson : List Json → Decoded (List BlockTree)
  | [] => .ok []
  | item :: items => do
    let tree ← ofJson item
    let trees ← listOfJson items
    return tree :: trees

end

mutual

def toJson : BlockTree → Json
  | ⟨id, text, children⟩ =>
    .object
      [ ("id", .integer id)
      , ("text", Json.orNull (text.map .text))
      , ("children", .array (listToJson children)) ]

def listToJson : List BlockTree → List Json
  | [] => []
  | tree :: trees => toJson tree :: listToJson trees

end

mutual

/-- The number of nodes. -/
def size : BlockTree → Nat
  | ⟨_, _, children⟩ => 1 + sizeAll children

def sizeAll : List BlockTree → Nat
  | [] => 0
  | tree :: trees => size tree + sizeAll trees

end

@[simp] theorem listToJson_eq_map (trees : List BlockTree) :
    listToJson trees = trees.map toJson := by
  induction trees with
  | nil => rfl
  | cons tree trees ih => simp [listToJson, ih]

end BlockTree
end NoteSearch
