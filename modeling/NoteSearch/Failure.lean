import NoteSearch.Json.Printer

/-!
# Failures of a search

Every failure is kept as its cause; the texts shown to users are made in one place each.
-/

namespace NoteSearch

inductive QueryFault where
  | unreadableDate (input : String)
  | unknownMode (word : String)
  | noConditions
  | blankText
  | noShapeApplies
deriving DecidableEq, Repr

def QueryFault.message : QueryFault → String
  | .unreadableDate input => "cannot interpret '" ++ input ++ "' as a date"
  | .unknownMode word => "unknown combine mode '" ++ word ++ "'"
  | .noConditions => "advanced query needs at least one condition"
  | .blankText => "text search needs a non-empty query"
  | .noShapeApplies => "no wire shape applies to this query"

inductive ResponseFault where
  | unexpectedId (name : String) (answer : Json)
  | unreadableBlock (id : Int)
  | unreadableTree (id : Int)
  | reported (reason : String)
deriving DecidableEq, Repr

def ResponseFault.message : ResponseFault → String
  | .unexpectedId name answer => "unexpected id for alias " ++ name ++ ": " ++ answer.toText
  | .unreadableBlock id => "block " ++ Numeral.writeInt id
  | .unreadableTree id => "block tree " ++ Numeral.writeInt id
  | .reported reason => reason

inductive SettingsFault where
  | blankUrl
  | zeroTimeout
  | zeroTreeLimit
  | unreadable
  | unsupportedUrl (url : String)
  | reported (reason : String)
deriving DecidableEq, Repr

def SettingsFault.message : SettingsFault → String
  | .blankUrl => "backend_url must not be empty"
  | .zeroTimeout => "request_timeout_secs must be > 0"
  | .zeroTreeLimit => "results.tree_max_blocks and results.tree_max_depth must be > 0"
  | .unreadable => "settings cannot be read"
  | .unsupportedUrl url => "backend URL must be http(s): " ++ url
  | .reported reason => reason

inductive SearchError where
  | tagNotFound (name : String)
  | unsupportedOperator (token : String)
  | invalidQuery (fault : QueryFault)
  | rejected (reason : String)
  | malformedResponse (fault : ResponseFault)
  | transport (reason : String)
  | serialization (reason : String)
  | configuration (fault : SettingsFault)
deriving DecidableEq, Repr

namespace SearchError

def message : SearchError → String
  | tagNotFound name => "Tag not found: " ++ name
  | unsupportedOperator token => "Unsupported operator: " ++ token
  | invalidQuery fault => "Invalid query: " ++ fault.message
  | rejected reason => "Backend rejected query: " ++ reason
  | malformedResponse fault => "Malformed response: " ++ fault.message
  | transport reason => "Transport error: " ++ reason
  | serialization reason => "Serialization error: " ++ reason
  | configuration fault => "Configuration error: " ++ fault.message

/-- The backend refused the structure of a query, so another wire shape may be accepted. -/
def isRejection : SearchError → Bool
  | rejected _ => true
  | _ => false

@[simp] theorem isRejection_iff (e : SearchError) :
    e.isRejection = true ↔ ∃ reason, e = rejected reason := by
  cases e <;> simp [isRejection]

end SearchError
end NoteSearch
