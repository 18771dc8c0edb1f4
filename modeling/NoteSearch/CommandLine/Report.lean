import NoteSearch.Service

/-!
# Reports

Search responses and tag schemas as text for readers. Every line ends in a line feed.
-/

namespace NoteSearch
namespace Report

def line (s : String) : String := s ++ "\n"

def concat (parts : List String) : String := parts.foldl (· ++ ·) ""

def commaSeparated (parts : List String) : String := ", ".intercalate parts

def tagsLine (tags : Option (List String)) : String :=
  match tags with
  | none => ""
  | some [] => ""
  | some tags => line ("  tags: " ++ commaSeparated tags)

def valueLine (property : String × Json) : String :=
  line ("  " ++ property.1 ++ ": " ++ property.2.toText)

/-- A result with its tags, its property values and its outline. -/
def ofResult (r : SearchResult) : String :=
  line ("[" ++ Numeral.writeInt r.id ++ "] " ++ r.title) ++ tagsLine r.tags ++
    concat ((r.propertyValues.getD []).map valueLine) ++
      concat ((textLines (r.fullContent.getD "")).map fun s => line ("    " ++ s))

def shapeLine (r : SearchResponse) : String :=
  match r.fallback, r.shapeUsed with
  | true, some shape => line ("(answered with " ++ shape.name ++ " query shape)")
  | _, _ => ""

def ofResponse (r : SearchResponse) : String :=
  match r.results with
  | [] => line "No results."
  | results =>
    line (Numeral.writeInt results.length ++ " result(s)") ++ shapeLine r ++
      concat (results.map fun result => line "" ++ ofResult result)

def choice (o : ChoiceOption) : String := Numeral.writeInt o.value ++ "=" ++ o.label

def ofProperty (p : PropertySchema) : String :=
  let options :=
    match p.options with
    | some options => ": " ++ commaSeparated (options.map choice)
    | none => ""
  line ("  " ++ p.name ++ " (" ++ p.typeName ++ ")" ++ options)

def ofSchema (s : TagSchema) : String :=
  let properties :=
    match s.properties with
    | [] => line "  (no properties)"
    | properties => concat (properties.map ofProperty)
  line ("#" ++ s.tagName) ++ properties

end Report
end NoteSearch
