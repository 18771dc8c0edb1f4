import NoteSearch.Backend.Basic
import NoteSearch.Http.Failure
import NoteSearch.Json.Parser
import NoteSearch.Schema.Source

/-!
# The client of the backend

Every call is a request with a method and arguments to one address. Requests that fail for a reason
that may pass are repeated with the same body after a pause, at most as often as the client is told
to, and only for so long.
-/

namespace NoteSearch

structure HttpRequest where
  url : String
  authorization : Option String
  body : Json
deriving DecidableEq, Repr

inductive HttpOutcome where
  | answered (status : Nat) (body : String)
  | unreachable (reason : String)
deriving DecidableEq, Repr

/-- The pauses of one call: since when it goes on, in nanoseconds, how long the first pause is, how
long the call may go on, and how many pauses there were. -/
structure Backoff where
  since : Nat
  firstMillis : Nat
  limitSeconds : Nat
  pauses : Nat
deriving DecidableEq, Repr

namespace Backoff

def start (now firstMillis : Nat) : Backoff := ⟨now, firstMillis, 60, 0⟩

def next (b : Backoff) : Backoff := { b with pauses := b.pauses + 1 }

/-- Each pause is half as long again as the one before it, up to a minute. -/
def millis (b : Backoff) : Nat :=
  min (b.firstMillis * Nat.pow 3 b.pauses / Nat.pow 2 b.pauses) 60000

def allows (b : Backoff) (now : Nat) : Bool :=
  now + b.millis * 1000000 ≤ b.since + b.limitSeconds * 1000000000

end Backoff

/-- How requests are sent in a world with state `ω`, the time in nanoseconds there, and how a client
pauses before it repeats a request. It has to give up where the answer is false. -/
structure Transport (ω : Type) where
  send : HttpRequest → StateM ω HttpOutcome
  now : ω → Nat
  pause : Backoff → StateM ω Bool := fun _ => pure true

namespace HttpOutcome

/-- The value of a body; one that is no JSON text counts as empty. -/
def valueOf (body : String) : Json := (Json.read? body).getD .null

def interpret : HttpOutcome → Except RequestError Json
  | unreachable reason => .error (.unreachable reason)
  | answered status body =>
    if 200 ≤ status ∧ status < 300 then .ok (valueOf body)
    else if status = 400 ∨ status = 404 ∨ status = 422 then .error (.rejected status body)
    else if status = 429 then .error .rateLimited
    else if 500 ≤ status ∧ status < 600 then .error (.server status body)
    else .error (.http status body)

end HttpOutcome

structure ClientConfig where
  baseUrl : String
  token : Option String
  timeoutSeconds : Nat
  maxRetries : Nat
  retryMillis : Nat
deriving DecidableEq, Repr

def ClientConfig.standard (baseUrl : String) : ClientConfig := ⟨baseUrl, none, 30, 3, 200⟩

/-- A client whose address is known to be good. -/
structure HttpClient where
  config : ClientConfig
  endpoint : String
deriving DecidableEq, Repr

namespace HttpClient

/-- The address of a base without blanks around it and slashes at its end. -/
def base (url : String) : List Char :=
  ((Text.trim url.toList).reverse.dropWhile (· == '/')).reverse

def isSupported (base : List Char) : Bool :=
  "http://".toList.isPrefixOf base || "https://".toList.isPrefixOf base

def make (config : ClientConfig) : Except RequestError HttpClient :=
  let base := base config.baseUrl
  if isSupported base then .ok ⟨config, String.ofList base ++ "/api/invoke"⟩
  else .error (.configuration (.unsupportedUrl config.baseUrl))

def request (c : HttpClient) (method : String) (args : List Json) : HttpRequest :=
  { url := c.endpoint
    authorization := c.config.token.map ("Bearer " ++ ·)
    body := .object [("method", .text method), ("args", .array args)] }

variable {ω : Type} (transport : Transport ω)

/-- Sends a request, and again as often as is left while the failure may pass and the pauses go
on. -/
def attempt (request : HttpRequest) : Nat → Backoff → StateM ω (Except RequestError Json)
  | 0, _ => fun s =>
    let (outcome, s) := transport.send request s
    (outcome.interpret, s)
  | retries + 1, backoff => fun s =>
    let (outcome, s) := transport.send request s
    match outcome.interpret with
    | .ok value => (.ok value, s)
    | .error e =>
      if e.isTransient then
        match transport.pause backoff s with
        | (true, s) => attempt request retries backoff.next s
        | (false, s) => (.error e, s)
      else (.error e, s)

variable (c : HttpClient)

def invoke (method : String) (args : List Json) : StateM ω (Except RequestError Json) := fun s =>
  let backoff := Backoff.start (transport.now s) c.config.retryMillis
  attempt transport (c.request method args) c.config.maxRetries backoff s

def call {α : Type} (method : String) (args : List Json) (read : Json → Except SearchError α) :
    StateM ω (Except SearchError α) := fun s =>
  match c.invoke transport method args s with
  | (.ok value, s) => (read value, s)
  | (.error e, s) => (.error e.toSearchError, s)

def readOptional {α : Type} (decode : Json → Decoded α) (fault : ResponseFault) :
    Json → Except SearchError (Option α)
  | .null => .ok none
  | value =>
    match decode value with
    | .ok a => .ok (some a)
    | .error _ => .error (.malformedResponse fault)

/-- An identity as a number or in a record. -/
def blockId? : Json → Option Int
  | .integer n => if Numeral.fitsInt64 n then some n else none
  | .object fields =>
    match Json.lookup? "id" fields with
    | some (.integer n) => if Numeral.fitsInt64 n then some n else none
    | _ => none
  | _ => none

def readId (name : String) : Json → Except SearchError (Option Int)
  | .null => .ok none
  | value =>
    match blockId? value with
    | some id => .ok (some id)
    | none => .error (.malformedResponse (.unexpectedId name value))

def backend : Backend ω :=
  { query := fun q => c.call transport "query" [q.toJson] .ok
    searchText := fun text => c.call transport "search-blocks-by-text" [.text text] .ok
    tree := fun id =>
      c.call transport "get-block-tree" [.integer id]
        (readOptional BlockTree.ofJson (.unreadableTree id)) }

def source : SchemaSource ω :=
  { tagId := fun name =>
      c.call transport "get-blockid-by-alias" [.text name] (readId name)
    block := fun id =>
      c.call transport "get-block" [.integer id] (readOptional Block.ofJson (.unreadableBlock id))
    now := transport.now }

end HttpClient
end NoteSearch
