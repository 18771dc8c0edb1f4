import NoteSearch.Filter.PropertyType

/-!
# Tag schemas

A tag schema lists the properties that a tag defines. The value of an option of a choice property is
the position of the option in the list as it was authored.
-/

namespace NoteSearch

structure ChoiceOption where
  label : String
  value : Nat
  color : Option String
deriving DecidableEq, Repr

namespace ChoiceOption

def ofRecord (r : Record) : Decoded ChoiceOption := do
  let label ← r.field 0 "label" Json.asText
  let value ← r.field 1 "value" Json.asWord64
  let color ← r.optional 2 "color" Json.asText
  let label ← Decoded.ofOption label
  let value ← Decoded.ofOption value
  r.close 3
  return ⟨label, value, color⟩

def ofJson (j : Json) : Decoded ChoiceOption := Record.ofJson j >>= ofRecord

def toJson (o : ChoiceOption) : Json :=
  .object <|
    [("label", .text o.label), ("value", .integer o.value)] ++
      Json.whenSome "color" (o.color.map .text)

end ChoiceOption

/-- Only choice properties have options. -/
structure PropertySchema where
  name : String
  type : PropertyType
  typeName : String
  options : Option (List ChoiceOption)
deriving DecidableEq, Repr

namespace PropertySchema

def optionAt? (p : PropertySchema) (index : Nat) : Option ChoiceOption :=
  (p.options.getD []).find? fun o => o.value == index

def optionLabelled? (p : PropertySchema) (label : String) : Option ChoiceOption :=
  (p.options.getD []).find? fun o => sameIgnoringCase o.label label

/-- Named fields are read in the order of their names. -/
def ofRecord (r : Record) : Decoded PropertySchema := do
  let options := r.optional 3 "options" (Json.asList ChoiceOption.ofJson)
  let type := r.field 1 "type" PropertyType.ofJson
  let name ← r.field 0 "name" Json.asText
  let type ← if r.isNamed then options *> type else type
  let typeName ← r.field 2 "typeName" Json.asText
  let options ← options
  let name ← Decoded.ofOption name
  let type ← Decoded.ofOption type
  let typeName ← Decoded.ofOption typeName
  r.close 4
  return ⟨name, type, typeName, options⟩

def ofJson (j : Json) : Decoded PropertySchema := Record.ofJson j >>= ofRecord

def toJson (p : PropertySchema) : Json :=
  .object <|
    [("name", .text p.name), ("type", p.type.toJson), ("typeName", .text p.typeName)] ++
      Json.whenSome "options" (p.options.map fun os => .array (os.map ChoiceOption.toJson))

end PropertySchema

structure TagSchema where
  tagName : String
  properties : List PropertySchema
deriving DecidableEq, Repr

namespace TagSchema

/-- The property with a name, up to ASCII case and the blanks around the name. -/
def property? (s : TagSchema) (name : String) : Option PropertySchema :=
  s.properties.find? fun p => sameIgnoringCase p.name (trimmed name)

/-- Named fields are read in the order of their names. -/
def ofRecord (r : Record) : Decoded TagSchema := do
  let properties := r.field 1 "properties" (Json.asList PropertySchema.ofJson)
  let tagName := r.field 0 "tagName" Json.asText
  let tagName ← if r.isNamed then properties *> tagName else tagName
  let properties ← properties
  let tagName ← Decoded.ofOption tagName
  let properties ← Decoded.ofOption properties
  r.close 2
  return ⟨tagName, properties⟩

def ofJson (j : Json) : Decoded TagSchema := Record.ofJson j >>= ofRecord

def toJson (s : TagSchema) : Json :=
  .object
    [ ("tagName", .text s.tagName)
    , ("properties", .array (s.properties.map PropertySchema.toJson)) ]

end TagSchema
end NoteSearch
