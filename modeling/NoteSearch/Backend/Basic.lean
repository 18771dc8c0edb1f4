import NoteSearch.Block.Tree
import NoteSearch.Failure
import NoteSearch.Wire.Description

/-!
# Backends

The calls that a search makes to the note database. What a backend answers may depend on a state,
which every call may change.
-/

namespace NoteSearch

/-- Answers to queries and text searches are responses in an envelope. -/
structure Backend (ω : Type) where
  query : QueryDescription → StateM ω (Except SearchError Json)
  searchText : String → StateM ω (Except SearchError Json)
  tree : Int → StateM ω (Except SearchError (Option BlockTree))

/-- A backend that holds its answers itself, and keeps the queries submitted to it. -/
structure MemoryBackend where
  responses : List (WireShape × Json)
  rejected : List WireShape
  transportFailure : Bool
  textResponse : Json
  trees : List (Int × BlockTree)
  failingTrees : List Int
  submitted : List QueryDescription
  treeFetches : Nat

namespace MemoryBackend

def empty : MemoryBackend := ⟨[], [], false, .null, [], [], [], 0⟩

/-- A later tree with the same root replaces an earlier one. -/
def withTree (b : MemoryBackend) (tree : BlockTree) : MemoryBackend :=
  { b with trees := (tree.id, tree) :: b.trees }

def refusedConnection : SearchError := .transport "connection refused"

/-- Shapes without a response of their own answer no blocks. -/
def answer (b : MemoryBackend) (shape : WireShape) : Except SearchError Json :=
  if b.transportFailure then .error refusedConnection
  else if b.rejected.contains shape then
    .error (.rejected ("unsupported query shape " ++ shape.name))
  else .ok ((b.responses.lookup shape).getD (.array []))

def query (q : QueryDescription) : StateM MemoryBackend (Except SearchError Json) := fun b =>
  (b.answer q.shape, { b with submitted := b.submitted ++ [q] })

def searchText (_ : String) : StateM MemoryBackend (Except SearchError Json) := fun b =>
  (if b.transportFailure then .error refusedConnection else .ok b.textResponse, b)

def tree (id : Int) : StateM MemoryBackend (Except SearchError (Option BlockTree)) := fun b =>
  let answer : Except SearchError (Option BlockTree) :=
    if b.failingTrees.contains id then
      .error (.transport ("tree fetch for " ++ Numeral.writeInt id ++ " failed"))
    else .ok (b.trees.lookup id)
  (answer, { b with treeFetches := b.treeFetches + 1 })

def backend : Backend MemoryBackend := ⟨query, searchText, tree⟩

end MemoryBackend
end NoteSearch
