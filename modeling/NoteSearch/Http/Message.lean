import NoteSearch.Http.Client
import NoteSearch.Json.Printer
import NoteSearch.Text.Ascii

/-!
# HTTP messages

A request is one message on a connection of its own, in version 1.0 of the protocol: the answer ends
with the connection.
-/

namespace NoteSearch

structure HttpAddress where
  host : String
  port : Nat
  target : String
deriving DecidableEq, Repr

namespace HttpAddress

/-- A port after a colon; none of its own is 80. -/
def port? : List Char → Option Nat
  | [] => some 80
  | ':' :: cs => (Numeral.readDigits? cs).filter (· < 65536)
  | _ => none

/-- A host in brackets, or up to a colon, and what follows it. -/
def splitHost? : List Char → Option (List Char × List Char)
  | '[' :: cs => Text.splitOnce [']'] cs
  | cs => some (cs.takeWhile (· != ':'), cs.dropWhile (· != ':'))

def ofAuthority? (authority target : List Char) : Option HttpAddress := do
  let (host, rest) ← splitHost? authority
  let port ← port? rest
  if host.isEmpty then none else some ⟨String.ofList host, port, String.ofList target⟩

/-- The address of a URL without encryption. -/
def ofUrl? (url : String) : Option HttpAddress :=
  match Text.splitOnce "://".toList url.toList with
  | some (scheme, rest) =>
    if Text.lowerAsciiAll scheme = "http".toList then
      ofAuthority? (rest.takeWhile (· != '/')) (rest.dropWhile (· != '/'))
    else none
  | none => none

end HttpAddress

namespace HttpRequest

def lineEnd : String := "\r\n"

def headerLine (name value : String) : String := name ++ ": " ++ value ++ lineEnd

def message (r : HttpRequest) (a : HttpAddress) : String :=
  let body := r.body.toText
  let authorization :=
    match r.authorization with
    | some value => headerLine "Authorization" value
    | none => ""
  "POST " ++ a.target ++ " HTTP/1.0" ++ lineEnd ++
    headerLine "Host" (a.host ++ ":" ++ Numeral.writeInt a.port) ++
      headerLine "Content-Type" "application/json" ++
        headerLine "Content-Length" (Numeral.writeInt body.utf8ByteSize) ++ authorization ++
          lineEnd ++ body

end HttpRequest

namespace HttpOutcome

def splitHead? : List UInt8 → Option (List UInt8 × List UInt8)
  | 13 :: 10 :: 13 :: 10 :: body => some ([], body)
  | b :: bytes => (splitHead? bytes).map fun cut => (b :: cut.1, cut.2)
  | [] => none

def decode? (bytes : List UInt8) : Option String := String.fromUTF8? ⟨bytes.toArray⟩

def status? (head : String) : Option Nat :=
  match Text.words (head.toList.takeWhile (· != '\r')) with
  | version :: status :: _ =>
    if "HTTP/".toList.isPrefixOf version then Numeral.readDigits? status else none
  | _ => none

/-- The outcome in the bytes of an answer; a body that is no text counts as empty. -/
def ofBytes? (bytes : List UInt8) : Option HttpOutcome := do
  let (head, body) ← splitHead? bytes
  let status ← status? (← decode? head)
  return .answered status ((decode? body).getD "")

end HttpOutcome
end NoteSearch
