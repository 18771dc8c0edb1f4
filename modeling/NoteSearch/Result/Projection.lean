import NoteSearch.Result.Basic

/-!
# Projecting blocks into results

The title of a result is the first alias of its block, or the first line of its text; its property
values come from the block itself, then from the links that leave it, then from those that reach it,
and the first value under a name counts.
-/

namespace NoteSearch
namespace Block

/-- Properties in the order in which their values count. -/
def rankedProperties (b : Block) : List BlockProperty :=
  b.properties ++ b.refs.flatMap BlockRef.data ++ b.backRefs.flatMap BlockRef.data

/-- Adds the value of a property unless its name has one; null is no value. -/
def addValue (values : List (String × Json)) (p : BlockProperty) : List (String × Json) :=
  match p.value with
  | none => values
  | some .null => values
  | some value => Json.insertAbsent p.name value values

def projectProperties (b : Block) : List (String × Json) := b.rankedProperties.foldl addValue []

/-- The first line that is not blank, trimmed. -/
def firstLine? (text : String) : Option String :=
  (((Text.lines text.toList).map Text.trim).find? fun line => !line.isEmpty).map String.ofList

def title (b : Block) : String :=
  match b.aliases.find? fun name => !isBlankText name with
  | some name => name
  | none => (b.text.bind firstLine?).getD ("Block " ++ Numeral.writeInt b.id)

def toResult (b : Block) (fullContent : Option String) : SearchResult :=
  let values := b.projectProperties
  let tags := b.tagNames
  { id := b.id
    title := b.title
    content := b.text.getD ""
    fullContent
    propertyValues := if values.isEmpty then none else some values
    created := b.created
    modified := b.modified
    tags := if tags.isEmpty then none else some tags }

end Block
end NoteSearch
