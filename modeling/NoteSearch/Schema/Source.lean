import NoteSearch.Block.Basic
import NoteSearch.Failure
import NoteSearch.Schema.Basic
import NoteSearch.Text.Lowercase

/-!
# Where tag schemas come from

A tag is a block, and its properties define the properties of the blocks that carry the tag. A
source of schemas finds the identity of a tag by its name and fetches blocks; what it answers may
depend on a state, which every call may change.
-/

namespace NoteSearch

/-- Calls of a source with state `ω`, and the time in nanoseconds in each state. -/
structure SchemaSource (ω : Type) where
  tagId : String → StateM ω (Except SearchError (Option Int))
  block : Int → StateM ω (Except SearchError (Option Block))
  now : ω → Nat

/-- Tag schemas are looked up without the blanks around a name and without leading hash signs. -/
def schemaTagName (name : String) : String :=
  String.ofList ((Text.trim name.toList).dropWhile (· == '#'))

namespace ChoiceOption

/-- An option authored as a label, or as a record of a label and perhaps a color. -/
def ofChoice? (index : Nat) : Json → Option ChoiceOption
  | .text label => some ⟨label, index, none⟩
  | .object fields =>
    ((Json.lookup? "label" fields).bind Json.text?).map fun label =>
      ⟨label, index, (Json.lookup? "color" fields).bind Json.text?⟩
  | _ => none

/-- Choices that cannot be read still count as positions. -/
def ofChoices (index : Nat) : List Json → List ChoiceOption
  | [] => []
  | choice :: choices => (ofChoice? index choice).toList ++ ofChoices (index + 1) choices

def ofTypeArgs (typeArgs : Option Json) : List ChoiceOption :=
  match typeArgs.bind (Json.get? "choices") with
  | some (.array choices) => ofChoices 0 choices
  | _ => []

end ChoiceOption

/-- Definitions of unknown type are passed over. -/
def PropertySchema.ofDefinition? (p : BlockProperty) : Option PropertySchema :=
  p.type?.map fun type =>
    { name := p.name
      type
      typeName := type.name
      options := if type = .textChoices then some (ChoiceOption.ofTypeArgs p.typeArgs) else none }

namespace TagSchema

def ofBlock (name : String) (b : Block) : TagSchema :=
  ⟨name, b.properties.filterMap PropertySchema.ofDefinition?⟩

def fetch {ω : Type} (source : SchemaSource ω) (tag : String) :
    StateM ω (Except SearchError TagSchema) := do
  let name := schemaTagName tag
  match ← source.tagId name with
  | .error e => return .error e
  | .ok none => return .error (.tagNotFound name)
  | .ok (some id) =>
    match ← source.block id with
    | .error e => return .error e
    | .ok none => return .error (.tagNotFound name)
    | .ok (some b) => return .ok (ofBlock name b)

end TagSchema

structure MemorySource where
  tags : List (String × Int)
  blocks : List (Int × Block)
  failing : Bool
  fetches : Nat
deriving DecidableEq, Repr

namespace MemorySource

def empty : MemorySource := ⟨[], [], false, 0⟩

def unavailable : MemorySource := { empty with failing := true }

/-- A later tag of a name or identity replaces an earlier one. -/
def withTag (s : MemorySource) (name : String) (id : Int) (definitions : List BlockProperty) :
    MemorySource :=
  { s with
    tags := (lowered name, id) :: s.tags
    blocks :=
      (id, { Block.bare id with text := some name, properties := definitions }) :: s.blocks }

/-- A name, given in lower case, for an identity. -/
def withAlias (s : MemorySource) (name : String) (id : Int) : MemorySource :=
  { s with tags := (name, id) :: s.tags }

def unavailableError : SearchError := .transport "schema source unavailable"

def tagId (name : String) : StateM MemorySource (Except SearchError (Option Int)) := fun s =>
  let answer :=
    if s.failing then .error unavailableError else .ok (s.tags.lookup (lowered name))
  (answer, { s with fetches := s.fetches + 1 })

def block (id : Int) : StateM MemorySource (Except SearchError (Option Block)) := fun s =>
  (if s.failing then .error unavailableError else .ok (s.blocks.lookup id), s)

/-- Time stands still. -/
def source : SchemaSource MemorySource := ⟨tagId, block, fun _ => 0⟩

end MemorySource
end NoteSearch
