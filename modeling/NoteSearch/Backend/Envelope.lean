import NoteSearch.Block.Basic

/-!
# Response envelopes

The backend answers with a list of blocks, a status and data, alias matches and content matches, or
a single block, depending on its version. All of them unwrap to one list of items, and anything else
to none.
-/

namespace NoteSearch
namespace Envelope

/-- Items of a response. A number followed by anything but a number is a status with its data. -/
def unwrap : Json → List Json
  | .array [first, second] =>
    if first.isNumber && !second.isNumber then unwrap second
    else
      match first, second with
      | .array aliasMatches, .array contentMatches => aliasMatches ++ contentMatches
      | _, _ => [first, second]
  | .array items => items
  | .object fields => [.object fields]
  | _ => []

def blocks (response : Json) : List Block :=
  (unwrap response).filterMap fun item => (Block.ofJson item).toOption

end Envelope
end NoteSearch
