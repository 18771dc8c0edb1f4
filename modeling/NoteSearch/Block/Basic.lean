import NoteSearch.Calendar.Timestamp
import NoteSearch.Filter.PropertyType

/-!
# Blocks

The blocks of the note database as its backend writes them. Only the identity of a block is
required; lists that are missing or null are empty, and a time that cannot be read is no time.
-/

namespace NoteSearch

/-- A property of a block, or the definition of one on a block that describes a tag. -/
structure BlockProperty where
  name : String
  typeCode : Option Nat
  value : Option Json
  typeArgs : Option Json
deriving DecidableEq, Repr

namespace BlockProperty

def type? (p : BlockProperty) : Option PropertyType := p.typeCode.bind PropertyType.ofCode?

def ofRecord (r : Record) : Decoded BlockProperty := do
  let name ← r.field 0 "name" Json.asText
  let typeCode ← r.optional 1 "type" Json.asWord8
  let value ← r.optional 2 "value" Json.asData
  let typeArgs ← r.optional 3 "typeArgs" Json.asData
  let name ← Decoded.ofOption name
  r.close 4
  return ⟨name, typeCode, value, typeArgs⟩

def ofJson (j : Json) : Decoded BlockProperty := Record.ofJson j >>= ofRecord

def toJson (p : BlockProperty) : Json :=
  .object
    [ ("name", .text p.name)
    , ("type", Json.orNull (p.typeCode.map fun n => .integer n))
    , ("value", Json.orNull p.value)
    , ("typeArgs", Json.orNull p.typeArgs) ]

end BlockProperty

structure BlockRef where
  id : Option Int
  source : Option Int
  target : Option Int
  kind : Nat
  name : Option String
  data : List BlockProperty
deriving DecidableEq, Repr

namespace BlockRef

/-- The kind of link that applies a tag. -/
def tagKind : Nat := 2

def isTag (r : BlockRef) : Bool := r.kind == tagKind

def ofRecord (r : Record) : Decoded BlockRef := do
  let id ← r.optional 0 "id" Json.asInt64
  let source ← r.optional 1 "from" Json.asInt64
  let target ← r.optional 2 "to" Json.asInt64
  let kind ← r.field 3 "type" Json.asWord8
  let name ← r.optional 4 "alias" Json.asText
  let data ← r.field 5 "data" (Json.asListOrNull BlockProperty.ofJson)
  r.close 6
  return ⟨id, source, target, kind.getD 0, name, data.getD []⟩

def ofJson (j : Json) : Decoded BlockRef := Record.ofJson j >>= ofRecord

def toJson (r : BlockRef) : Json :=
  .object
    [ ("id", Json.orNull (r.id.map .integer))
    , ("from", Json.orNull (r.source.map .integer))
    , ("to", Json.orNull (r.target.map .integer))
    , ("type", .integer r.kind)
    , ("alias", Json.orNull (r.name.map .text))
    , ("data", .array (r.data.map BlockProperty.toJson)) ]

end BlockRef

structure Block where
  id : Int
  text : Option String
  aliases : List String
  properties : List BlockProperty
  refs : List BlockRef
  backRefs : List BlockRef
  children : List Int
  parent : Option Int
  created : Option Instant
  modified : Option Instant
deriving DecidableEq, Repr

namespace Block

/-- A block with nothing but its identity. -/
def bare (id : Int) : Block := ⟨id, none, [], [], [], [], [], none, none, none⟩

/-- Names of the tags applied to the block, in the order of its links. -/
def tagNames (b : Block) : List String := (b.refs.filter BlockRef.isTag).filterMap BlockRef.name

/-- Milliseconds since 1970 or an RFC 3339 text. -/
def time? : Json → Option Instant
  | .integer n => if Numeral.fitsInt64 n then Instant.ofMillis? n else none
  | .text s => Timestamp.readStrict? s.toList
  | _ => none

def asTime (j : Json) : Decoded (Option Instant) := .ok (time? j)

def ofRecord (r : Record) : Decoded Block := do
  let id ← r.field 0 "id" Json.asInt64
  let text ← r.optional 1 "text" Json.asText
  let aliases ← r.field 2 "aliases" (Json.asListOrNull Json.asText)
  let properties ← r.field 3 "properties" (Json.asListOrNull BlockProperty.ofJson)
  let refs ← r.field 4 "refs" (Json.asListOrNull BlockRef.ofJson)
  let backRefs ← r.field 5 "backRefs" (Json.asListOrNull BlockRef.ofJson)
  let children ← r.field 6 "children" (Json.asListOrNull Json.asInt64)
  let parent ← r.optional 7 "parent" Json.asInt64
  let created ← r.field 8 "created" asTime
  let modified ← r.field 9 "modified" asTime
  let id ← Decoded.ofOption id
  r.close 10
  return {
    id
    text
    aliases := aliases.getD []
    properties := properties.getD []
    refs := refs.getD []
    backRefs := backRefs.getD []
    children := children.getD []
    parent
    created := created.join
    modified := modified.join }

def ofJson (j : Json) : Decoded Block := Record.ofJson j >>= ofRecord

def timeToJson (time : Option Instant) : Json :=
  Json.orNull (time.map fun i => .text (Timestamp.write i))

def toJson (b : Block) : Json :=
  .object
    [ ("id", .integer b.id)
    , ("text", Json.orNull (b.text.map .text))
    , ("aliases", .array (b.aliases.map .text))
    , ("properties", .array (b.properties.map BlockProperty.toJson))
    , ("refs", .array (b.refs.map BlockRef.toJson))
    , ("backRefs", .array (b.backRefs.map BlockRef.toJson))
    , ("children", .array (b.children.map .integer))
    , ("parent", Json.orNull (b.parent.map .integer))
    , ("created", timeToJson b.created)
    , ("modified", timeToJson b.modified) ]

end Block
end NoteSearch
