import NoteSearch.Block.Basic
import NoteSearch.Result.Outline

/-!
# Search results

What is shown of a block that was found, whatever the shape of the query that found it.
-/

namespace NoteSearch

/-- Property values are ordered by name. -/
structure SearchResult where
  id : Int
  title : String
  content : String
  fullContent : Option String
  propertyValues : Option (List (String × Json))
  created : Option Instant
  modified : Option Instant
  tags : Option (List String)
deriving DecidableEq, Repr

namespace SearchResult

/-- Whether the outline ends in the line that tells of missing blocks. -/
def isTruncated (r : SearchResult) : Bool :=
  match r.fullContent with
  | some content => Outline.marker.toList.isSuffixOf content.toList
  | none => false

def asTime : Json → Decoded Instant
  | .text s => Decoded.ofOption (Timestamp.readRelaxed? s.toList)
  | _ => .error .unfit

def asValues : Json → Decoded (List (String × Json))
  | .object fields => .ok (Json.canonicalFields fields)
  | _ => .error .unfit

def ofRecord (r : Record) : Decoded SearchResult := do
  let id ← r.field 0 "id" Json.asInt64
  let title ← r.field 1 "title" Json.asText
  let content ← r.field 2 "content" Json.asText
  let fullContent ← r.optional 3 "fullContent" Json.asText
  let propertyValues ← r.optional 4 "propertyValues" asValues
  let created ← r.optional 5 "created" asTime
  let modified ← r.optional 6 "modified" asTime
  let tags ← r.optional 7 "tags" (Json.asList Json.asText)
  let id ← Decoded.ofOption id
  let title ← Decoded.ofOption title
  let content ← Decoded.ofOption content
  r.close 8
  return ⟨id, title, content, fullContent, propertyValues, created, modified, tags⟩

def ofJson (j : Json) : Decoded SearchResult := Record.ofJson j >>= ofRecord

def timeField (key : String) (time : Option Instant) : List (String × Json) :=
  Json.whenSome key (time.map fun i => .text (Timestamp.write i))

/-- Absent parts are not written. -/
def toJson (r : SearchResult) : Json :=
  .object <|
    [("id", .integer r.id), ("title", .text r.title), ("content", .text r.content)] ++
      Json.whenSome "fullContent" (r.fullContent.map .text) ++
        Json.whenSome "propertyValues" (r.propertyValues.map .object) ++
          timeField "created" r.created ++ timeField "modified" r.modified ++
            Json.whenSome "tags" (r.tags.map fun names => .array (names.map .text))

end SearchResult
end NoteSearch
