import NoteSearch.Json.Parser
import NoteSearch.Query.CombineMode
import NoteSearch.Query.Condition
import NoteSearch.Query.Options

/-!
# Request files

An advanced search can be written to a file, as one JSON object with the conditions, perhaps a
mode, and the options of the query beside them.
-/

namespace NoteSearch

structure AdvancedRequest where
  conditions : List Condition
  mode : Option CombineMode
  options : QueryOptions
deriving DecidableEq, Repr

namespace AdvancedRequest

def ofFields (fields : List (String × Json)) : Decoded AdvancedRequest := do
  let r := Record.named fields
  let conditions ← r.field 0 "conditions" (Json.asList Condition.ofJson)
  let mode ← r.optional 1 "mode" CombineMode.ofJson
  let options ← QueryOptions.ofRecord r
  let conditions ← Decoded.ofOption conditions
  return ⟨conditions, mode, options⟩

/-- The request in a text; repeated fields are not overlooked. -/
def parse? (s : String) : Option AdvancedRequest :=
  match Json.parse? s with
  | some (.object fields) => (ofFields fields).toOption
  | _ => none

def toJson (r : AdvancedRequest) : Json :=
  .object
    [ ("conditions", .array (r.conditions.map Condition.toJson))
    , ("mode", Json.orNull (r.mode.map CombineMode.toJson))
    , ("options", r.options.toJson) ]

end AdvancedRequest
end NoteSearch
