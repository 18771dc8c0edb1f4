import NoteSearch.Backend.Basic
import NoteSearch.Backend.Envelope

/-!
# The cascade of wire shapes

A query is submitted in one wire shape after the other, as long as the backend rejects it. Shapes
that cannot hold the query are passed over. The first answer that is no rejection ends the cascade;
when every shape has been rejected, the last rejection is the error.
-/

namespace NoteSearch

/-- A response, the shapes that were submitted up to it, and the shape it answers. -/
structure Execution where
  blocks : List Block
  attempted : List WireShape
  used : WireShape
  fallback : Bool
deriving DecidableEq, Repr

namespace Cascade

/-- From the shape of today to the oldest one. -/
def standard : List WireShape := [.current, .legacySingle, .directTag]

def currentOnly : List WireShape := [.current]

def succeed (before : List WireShape) (shape : WireShape) (response : Json) : Execution :=
  { blocks := Envelope.blocks response
    attempted := before ++ [shape]
    used := shape
    fallback := !before.isEmpty }

variable {ω : Type} (backend : Backend ω) (q : QueryDescription)

/-- Submits the remaining shapes; `before` are rejected already, `last` with the last rejection. -/
def submit (before : List WireShape) (last : SearchError) :
    List WireShape → StateM ω (Except SearchError Execution)
  | [] => fun s => (.error last, s)
  | shape :: shapes => fun s =>
    match q.reshape? shape with
    | none => submit before last shapes s
    | some shaped =>
      match backend.query shaped s with
      | (.ok response, s) => (.ok (succeed before shape response), s)
      | (.error e, s) =>
        if e.isRejection then submit (before ++ [shape]) e shapes s else (.error e, s)

def execute (chain : List WireShape) : StateM ω (Except SearchError Execution) :=
  submit backend q [] (.invalidQuery .noShapeApplies) chain

end Cascade
end NoteSearch
