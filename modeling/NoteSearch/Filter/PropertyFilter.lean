import NoteSearch.Filter.Operator
import NoteSearch.Filter.PropertyType

/-!
# Property filters

A filter narrows a tag match by one of the tag's properties: the property's name, an operator, and
the value to compare with. The declared type and its arguments are optional.
-/

namespace NoteSearch

structure PropertyFilter where
  name : String
  op : Operator
  value : Option Json
  type : Option PropertyType
  typeArgs : Option Json
deriving DecidableEq, Repr

namespace PropertyFilter

/-- A filter whose type is not known. -/
def untyped (name : String) (op : Operator) (value : Option Json) : PropertyFilter :=
  ⟨name, op, value, none, none⟩

def withType (f : PropertyFilter) (type : PropertyType) : PropertyFilter :=
  { f with type := some type }

def withTypeArgs (f : PropertyFilter) (typeArgs : Json) : PropertyFilter :=
  { f with typeArgs := some typeArgs }

def ofRecord (r : Record) : Decoded PropertyFilter := do
  let name ← r.field 0 "name" Json.asText
  let op ← r.field 1 "op" Operator.ofJson
  let type ← r.optional 3 "type" PropertyType.ofJson
  let typeArgs ← r.optional 4 "typeArgs" Json.asData
  let value ← r.optional 2 "value" Json.asData
  let name ← Decoded.ofOption name
  let op ← Decoded.ofOption op
  r.close 5
  return ⟨name, op, value, type, typeArgs⟩

def ofJson (j : Json) : Decoded PropertyFilter := Record.ofJson j >>= ofRecord

/-- Absent parts are not written. -/
def toJson (f : PropertyFilter) : Json :=
  .object <|
    [("name", .text f.name), ("op", f.op.toJson)] ++ Json.whenSome "value" f.value ++
      Json.whenSome "type" (f.type.map PropertyType.toJson) ++
        Json.whenSome "typeArgs" f.typeArgs

end PropertyFilter
end NoteSearch
