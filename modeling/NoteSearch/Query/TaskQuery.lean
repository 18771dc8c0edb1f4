import NoteSearch.Query.DateSpec

/-!
# Task searches

Tasks in a given state, or in any, and optionally only those below journal entries of a date range.
-/

namespace NoteSearch

structure TaskQuery where
  completed : Option Bool
  range : Option DateRange
deriving DecidableEq, Repr

namespace TaskQuery

def ofRecord (r : Record) : Decoded TaskQuery := do
  let completed ← r.optional 0 "completed" Json.asBool
  let range ← r.optional 1 "dateRange" DateRange.ofJson
  r.close 2
  return ⟨completed, range⟩

def ofJson (j : Json) : Decoded TaskQuery := Record.ofJson j >>= ofRecord

def toJson (t : TaskQuery) : Json :=
  .object
    [ ("completed", Json.orNull (t.completed.map .bool))
    , ("dateRange", Json.orNull (t.range.map DateRange.toJson)) ]

end TaskQuery
end NoteSearch
