import NoteSearch.Filter.PropertyFilter
import NoteSearch.Query.DateSpec

/-!
# Conditions

A condition is one predicate on blocks. Its record names the kind of condition in the field `type`;
flags that do not constrain anything are not written.
-/

namespace NoteSearch

/-- Unset flags are not constrained. -/
structure Topology where
  hasTags : Option Bool
  hasParent : Option Bool
  hasChild : Option Bool
  hasAliases : Option Bool
deriving DecidableEq, Repr

namespace Topology

def ofRecord (r : Record) : Decoded Topology := do
  let hasTags ← r.optional 0 "hasTags" Json.asBool
  let hasParent ← r.optional 1 "hasParent" Json.asBool
  let hasChild ← r.optional 2 "hasChild" Json.asBool
  let hasAliases ← r.optional 3 "hasAliases" Json.asBool
  r.close 4
  return ⟨hasTags, hasParent, hasChild, hasAliases⟩

def fields (t : Topology) : List (String × Json) :=
  Json.whenSome "hasTags" (t.hasTags.map .bool) ++
    Json.whenSome "hasParent" (t.hasParent.map .bool) ++
      Json.whenSome "hasChild" (t.hasChild.map .bool) ++
        Json.whenSome "hasAliases" (t.hasAliases.map .bool)

end Topology

/-- A task condition without a state holds for any task. -/
inductive Condition where
  | tag (name : String) (properties : List PropertyFilter)
  | text (text : String) (raw : Option Bool)
  | task (completed : Option Bool)
  | journal (range : DateRange)
  | reference (blockId : Int)
  | structural (topology : Topology)
  | blockMatch (blockId : Int)
deriving DecidableEq, Repr

namespace Condition

inductive Kind where
  | tag
  | text
  | task
  | journal
  | reference
  | structural
  | blockMatch
deriving DecidableEq, Repr

namespace Kind

def name : Kind → String
  | tag => "tag"
  | text => "text"
  | task => "task"
  | journal => "journal"
  | reference => "reference"
  | structural => "structural"
  | blockMatch => "block_match"

def ofName? : String → Option Kind
  | "tag" => some tag
  | "text" => some text
  | "task" => some task
  | "journal" => some journal
  | "reference" => some reference
  | "structural" => some structural
  | "block_match" => some blockMatch
  | _ => none

@[simp] theorem ofName?_name (k : Kind) : ofName? k.name = some k := by
  cases k <;> rfl

end Kind

def kind : Condition → Kind
  | tag _ _ => .tag
  | text _ _ => .text
  | task _ => .task
  | journal _ => .journal
  | reference _ => .reference
  | structural _ => .structural
  | blockMatch _ => .blockMatch

/-- The identity of a block as the only field of a record. -/
def blockIdOf (r : Record) : Decoded Int := do
  let id ← r.field 0 "blockId" Json.asInt64
  let id ← Decoded.ofOption id
  r.close 1
  return id

def ofRecord (kind : Kind) (r : Record) : Decoded Condition :=
  match kind with
  | .tag => do
    let name ← r.field 0 "name" Json.asText
    let properties ← r.field 1 "properties" (Json.asList PropertyFilter.ofJson)
    let name ← Decoded.ofOption name
    r.close 2
    return tag name (properties.getD [])
  | .text => do
    let content ← r.field 0 "text" Json.asText
    let raw ← r.optional 1 "raw" Json.asBool
    let content ← Decoded.ofOption content
    r.close 2
    return text content raw
  | .task => do
    let completed ← r.optional 0 "completed" Json.asBool
    r.close 1
    return task completed
  | .journal => (DateRange.ofRecordWith DateSpec.ofNestedJson r).map journal
  | .reference => (blockIdOf r).map reference
  | .structural => (Topology.ofRecord r).map structural
  | .blockMatch => (blockIdOf r).map blockMatch

def ofJson (j : Json) : Decoded Condition := do
  let (label, rest) ← Record.splitTag "type" j
  let kind ← Decoded.ofOption (label.text?.bind Kind.ofName?)
  ofRecord kind rest

/-- Everything but the kind. -/
def fields : Condition → List (String × Json)
  | tag name [] => [("name", .text name)]
  | tag name properties =>
    [("name", .text name), ("properties", .array (properties.map PropertyFilter.toJson))]
  | text content raw => ("text", .text content) :: Json.whenSome "raw" (raw.map .bool)
  | task completed => Json.whenSome "completed" (completed.map .bool)
  | journal range => range.fields
  | reference id => [("blockId", .integer id)]
  | structural topology => topology.fields
  | blockMatch id => [("blockId", .integer id)]

def toJson (c : Condition) : Json := .object (("type", .text c.kind.name) :: c.fields)

end Condition
end NoteSearch
