import NoteSearch.Json.Record
import NoteSearch.Text.Ascii

/-!
# Sort keys

Callers name a sort key by a field, by a field and a direction, or by a record of both. Any other
value is kept as it is and dropped when the keys are normalized. Normalized keys have a trimmed
field, which is not empty, and a direction.
-/

namespace NoteSearch

inductive SortDirection where
  | ascending
  | descending
deriving DecidableEq, Repr

namespace SortDirection

/-- Without a direction the greatest comes first. -/
def standard : SortDirection := descending

def ofWord? (s : String) : Option SortDirection :=
  match keyword s with
  | "asc" => some ascending
  | "ascending" => some ascending
  | "desc" => some descending
  | "descending" => some descending
  | _ => none

def word : SortDirection → String
  | ascending => "asc"
  | descending => "desc"

/-- The word in the backend's queries. -/
def code : SortDirection → String
  | ascending => "ASC"
  | descending => "DESC"

@[simp] theorem ofWord?_word (d : SortDirection) : ofWord? d.word = some d := by
  cases d <;> rfl

@[simp] theorem ofWord?_code (d : SortDirection) : ofWord? d.code = some d := by
  cases d <;> rfl

end SortDirection

structure SortKey where
  field : String
  direction : SortDirection
deriving DecidableEq, Repr

def SortKey.toJson (k : SortKey) : Json := .array [.text k.field, .text k.direction.code]

inductive SortSpec where
  | field (field : String)
  | pair (field direction : String)
  | record (field : String) (direction : Option String)
  | other (value : Json)
deriving DecidableEq, Repr

namespace SortSpec

def make (field : String) (direction : SortDirection) : SortSpec := pair field direction.word

/-- A field, or a field and a direction with a colon between them. -/
def parse (s : String) : SortSpec :=
  match Text.splitOnce [':'] s.toList with
  | some (before, after) => pair (String.ofList before) (String.ofList after)
  | none => field s

/-- A record of a field and perhaps a direction. -/
def ofFields? (fields : List (String × Json)) : Option SortSpec :=
  let r := Record.named fields
  let read : Decoded SortSpec := do
    let name ← r.field 0 "field" Json.asText
    let direction ← r.optional 1 "direction" Json.asText
    let name ← Decoded.ofOption name
    return record name direction
  read.toOption

def ofJson : Json → SortSpec
  | .text s => field s
  | .array [.text s, .text direction] => pair s direction
  | .object fields => (ofFields? fields).getD (other (Json.object fields).canonical)
  | j => other j.canonical

def toJson : SortSpec → Json
  | field s => .text s
  | pair s direction => .array [.text s, .text direction]
  | record s direction =>
    .object [("field", .text s), ("direction", Json.orNull (direction.map .text))]
  | other j => j

/-- Blank directions count as missing. -/
def directionOf? : Option String → Option SortDirection
  | none => some .standard
  | some s => if isBlankText s then some .standard else SortDirection.ofWord? s

def key? (s : String) (direction : Option String) : Option SortKey :=
  if isBlankText s then none
  else (directionOf? direction).map fun d => ⟨trimmed s, d⟩

/-- The key of a specification; none if it cannot be understood. -/
def normalize? : SortSpec → Option SortKey
  | field s => key? s none
  | pair s direction => key? s (some direction)
  | record s direction => key? s direction
  | other _ => none

def normalizeAll (specs : List SortSpec) : List SortKey := specs.filterMap normalize?

end SortSpec
end NoteSearch
