import NoteSearch.Json.Record

/-!
# Result options

How much of a hit is shown: whether the blocks below it are fetched and outlined, how many of them
and how deep, and how many hits are returned at most.
-/

namespace NoteSearch

structure ResultOptions where
  includeFullContent : Bool
  treeMaxBlocks : Nat
  treeMaxDepth : Nat
  maxResults : Option Nat
deriving DecidableEq, Repr

namespace ResultOptions

def standard : ResultOptions := ⟨true, 50, 5, none⟩

/-- Without fetching anything below the hits. -/
def withoutFullContent : ResultOptions := { standard with includeFullContent := false }

def withMaxResults (o : ResultOptions) (max : Nat) : ResultOptions :=
  { o with maxResults := some max }

def ofRecord (r : Record) : Decoded ResultOptions := do
  let includeFullContent ← r.field 0 "include_full_content" Json.asBool
  let treeMaxBlocks ← r.field 1 "tree_max_blocks" Json.asWord64
  let treeMaxDepth ← r.field 2 "tree_max_depth" Json.asWord64
  let maxResults ← r.optional 3 "max_results" Json.asWord64
  r.close 4
  return {
    includeFullContent := includeFullContent.getD standard.includeFullContent
    treeMaxBlocks := treeMaxBlocks.getD standard.treeMaxBlocks
    treeMaxDepth := treeMaxDepth.getD standard.treeMaxDepth
    maxResults }

def ofJson (j : Json) : Decoded ResultOptions := Record.ofJson j >>= ofRecord

def toJson (o : ResultOptions) : Json :=
  .object
    [ ("include_full_content", .bool o.includeFullContent)
    , ("tree_max_blocks", .integer o.treeMaxBlocks)
    , ("tree_max_depth", .integer o.treeMaxDepth)
    , ("max_results", Json.orNull (o.maxResults.map fun n => .integer n)) ]

end ResultOptions
end NoteSearch
