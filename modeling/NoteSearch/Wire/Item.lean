import NoteSearch.Query.CombineMode
import NoteSearch.Query.Condition

/-!
# Items of the backend's query tree

A query is a tree of groups and items. Groups and items alike are written as objects, and only the
numeric field `kind` tells them apart.
-/

namespace NoteSearch

inductive GroupKind where
  | and
  | or
  | chainAnd
  | legacyAnd
deriving DecidableEq, Repr

namespace GroupKind

def code : GroupKind → Nat
  | and => 100
  | or => 101
  | chainAnd => 106
  | legacyAnd => 1

def ofMode : CombineMode → GroupKind
  | .and => and
  | .or => or
  | .chainAnd => chainAnd

theorem code_injective (a b : GroupKind) (h : a.code = b.code) : a = b := by
  revert h
  cases a <;> cases b <;> decide

theorem ofMode_injective (a b : CombineMode) (h : ofMode a = ofMode b) : a = b := by
  revert h
  cases a <;> cases b <;> decide

end GroupKind

/-- A date with the code of its form, and a unit if that form has one. -/
structure WireDate where
  form : Nat
  value : Int
  unit : Option String
deriving DecidableEq, Repr

namespace WireDate

def ofDateSpec : DateSpec → WireDate
  | .relative value unit => ⟨1, value, some unit.toText⟩
  | .absolute value => ⟨2, value, none⟩

def toJson (d : WireDate) : Json :=
  .object <|
    [("t", .integer d.form), ("v", .integer d.value)] ++ Json.whenSome "u" (d.unit.map .text)

end WireDate

/-- A predicate on a property, with the codes of its type and operator. A missing value differs from
a null one. -/
structure PropertyClause where
  name : String
  type : Option Nat
  typeArgs : Option Json
  op : Nat
  value : Option Json
deriving DecidableEq, Repr

def PropertyClause.toJson (c : PropertyClause) : Json :=
  .object <|
    [("name", .text c.name)] ++ Json.whenSome "type" (c.type.map fun n => .integer n) ++
      Json.whenSome "typeArgs" c.typeArgs ++ [("op", .integer c.op)] ++
        Json.whenSome "value" c.value

structure TagItem where
  name : String
  properties : List PropertyClause
deriving DecidableEq, Repr

/-- The properties are only written when there are any. -/
def TagItem.fields (t : TagItem) : List (String × Json) :=
  ("name", .text t.name) ::
    match t.properties with
    | [] => []
    | clauses => [("properties", .array (clauses.map PropertyClause.toJson))]

inductive WireItem where
  | group (kind : GroupKind) (conditions : List WireItem)
  | tag (item : TagItem)
  | text (text : String) (raw : Option Bool)
  | task (completed : Option Bool)
  | journal (start finish : WireDate)
  | reference (blockId : Int)
  | structural (topology : Topology)
  | blockMatch (blockId : Int)
deriving Repr

namespace WireItem

def kindCode : WireItem → Nat
  | group kind _ => kind.code
  | journal _ _ => 3
  | tag _ => 4
  | reference _ => 6
  | text _ _ => 8
  | structural _ => 9
  | task _ => 11
  | blockMatch _ => 12

/-- The tag item of a root that is one, or of a group with nothing else in it. -/
def singleTag? : WireItem → Option TagItem
  | tag item => some item
  | group _ [tag item] => some item
  | _ => none

def withKind (kind : Nat) (fields : List (String × Json)) : Json :=
  .object (("kind", .integer kind) :: fields)

mutual

def toJson : WireItem → Json
  | group kind conditions => withKind kind.code [("conditions", .array (listToJson conditions))]
  | journal start finish => withKind 3 [("start", start.toJson), ("end", finish.toJson)]
  | tag item => withKind 4 item.fields
  | reference id => withKind 6 [("blockId", .integer id)]
  | text content raw =>
    withKind 8 (("text", .text content) :: Json.whenSome "raw" (raw.map .bool))
  | structural topology => withKind 9 topology.fields
  | task completed => withKind 11 (Json.whenSome "completed" (completed.map .bool))
  | blockMatch id => withKind 12 [("blockId", .integer id)]

def listToJson : List WireItem → List Json
  | [] => []
  | item :: items => toJson item :: listToJson items

end

@[simp] theorem listToJson_eq_map (items : List WireItem) :
    listToJson items = items.map toJson := by
  induction items with
  | nil => rfl
  | cons item items ih => simp [listToJson, ih]

/-- Every item is written with its kind. -/
theorem get?_kind_toJson (item : WireItem) :
    item.toJson.get? "kind" = some (.integer item.kindCode) := by
  cases item <;> simp [toJson, withKind, Json.get?, Json.lookup?, kindCode]

end WireItem
end NoteSearch
