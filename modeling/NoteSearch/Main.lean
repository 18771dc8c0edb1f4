import NoteSearch.CommandLine.Run
import NoteSearch.CommandLine.Usage
import NoteSearch.Http.Message
import NoteSearch.Http.Transcript
import Std.Async.DNS
import Std.Async.TCP
import Std.Internal.UV.System

/-!
# The program

Reads the files and variables of a run, makes the requests that the run asks for, and prints what
comes of it. Requests are made one at a time: the run is repeated over all outcomes so far until it
asks for nothing more.
-/

namespace NoteSearch
namespace Program

open Std.Async

/-- The content of a file that is there and is text. -/
def fileContent (path : String) : IO (Option String) := do
  try
    return some (← IO.FS.readFile path)
  catch _ => return none

def readSurroundings (c : CommandLine) : IO Surroundings := do
  let environment := (← Std.Internal.UV.System.osEnviron).toList
  let paths := c.paths ⟨fun _ => none, environment⟩ SettingsLayer.knownFormats
  let contents ← paths.mapM fun path => return (path, ← fileContent path)
  return ⟨fun path => (contents.lookup path).join, environment⟩

def socketAddress (port : Nat) : Std.Net.IPAddr → Std.Net.SocketAddress
  | .v4 addr => .v4 ⟨addr, port.toUInt16⟩
  | .v6 addr => .v6 ⟨addr, port.toUInt16⟩

partial def receive (client : TCP.Socket.Client) (bytes : ByteArray) : Async ByteArray := do
  match ← client.recv? 65536 with
  | some more => receive client (bytes ++ more)
  | none => return bytes

def converse (message : String) (address : Std.Net.SocketAddress) : Async ByteArray := do
  let client ← TCP.Socket.Client.mk
  client.connect address
  client.send message.toUTF8
  receive client .empty

/-- The outcome of a request at the first address of its host. -/
def request? (r : HttpRequest) : IO (Option HttpOutcome) := do
  let some a := HttpAddress.ofUrl? r.url | return none
  try
    let addresses ← (DNS.getAddrInfo a.host "").block
    let some address := addresses[0]? | return none
    let bytes ← (converse (r.message a) (socketAddress a.port address)).block
    return HttpOutcome.ofBytes? bytes.toList
  catch _ => return none

def request (r : HttpRequest) : IO HttpOutcome := do
  let failure := "error sending request for url (" ++ r.url ++ ")"
  return (← request? r).getD (.unreachable failure)

/-- Runs a command line over the outcomes so far, and again after each request. -/
partial def run (c : CommandLine) (w : Surroundings) (start : Nat)
    (outcomes : List (Nat × HttpOutcome)) : IO RunOutcome := do
  let (outcome, t) := c.run Transcript.transport w SettingsLayer.knownFormats
    (.ofOutcomes outcomes start)
  match t.unanswered with
  | none => return .ofPrinting outcome
  | some r =>
    IO.sleep t.pauseMillis.toUInt32
    let outcome ← request r
    run c w start (outcomes ++ [(← IO.monoNanosNow, outcome)])

def outcomeOf (args : List String) : IO RunOutcome := do
  match CommandLine.parse args with
  | .error fault => return .misused fault
  | .ok c => run c (← readSurroundings c) (← IO.monoNanosNow) []

def report : RunOutcome → IO Unit
  | .printed output => do
    let out ← IO.getStdout
    out.putStr output
    out.flush
  | .failed fault => IO.eprintln ("Error: " ++ fault.message)
  | .misused .help => IO.println CommandLine.usage
  | .misused .version => IO.println CommandLine.version
  | .misused fault => do
    IO.eprintln ("error: " ++ fault.message)
    IO.eprintln CommandLine.usage

end Program
end NoteSearch

def main (args : List String) : IO UInt32 := do
  let outcome ← NoteSearch.Program.outcomeOf args
  NoteSearch.Program.report outcome
  return outcome.exitCode.toUInt32
