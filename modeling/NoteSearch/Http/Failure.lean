import NoteSearch.Failure

/-!
# Failures of requests

Why a request to the backend has no answer. Failures that may pass are worth another attempt; a
rejected request may be accepted in another form.
-/

namespace NoteSearch

inductive RequestError where
  | rejected (status : Nat) (body : String)
  | rateLimited
  | server (status : Nat) (body : String)
  | http (status : Nat) (body : String)
  | unreachable (reason : String)
  | invalidResponse (reason : String)
  | configuration (fault : SettingsFault)
deriving DecidableEq, Repr

namespace RequestError

def withStatus (what : String) (status : Nat) (body : String) : String :=
  what ++ " (" ++ Numeral.writeInt status ++ "): " ++ body

def message : RequestError → String
  | rejected status body => withStatus "Request rejected" status body
  | rateLimited => "Rate limited by backend"
  | server status body => withStatus "Server error" status body
  | http status body => withStatus "HTTP error" status body
  | unreachable reason => "Connection failed: " ++ reason
  | invalidResponse reason => "Invalid response: " ++ reason
  | configuration fault => "Invalid configuration: " ++ fault.message

def isTransient : RequestError → Bool
  | rateLimited => true
  | server _ _ => true
  | unreachable _ => true
  | _ => false

/-- What a failed request means to a search. -/
def toSearchError (e : RequestError) : SearchError :=
  match e with
  | rejected _ _ => .rejected e.message
  | invalidResponse reason => .malformedResponse (.reported reason)
  | configuration fault => .configuration fault
  | _ => .transport e.message

/-- Only rejected requests let a search try another form. -/
theorem isRejection_toSearchError (e : RequestError) :
    e.toSearchError.isRejection = true ↔ ∃ status body, e = rejected status body := by
  cases e <;> simp [toSearchError, SearchError.isRejection]

end RequestError
end NoteSearch
