import NoteSearch.Backend.Basic
import NoteSearch.Result.Options
import NoteSearch.Result.Projection

/-!
# Presenting blocks

Blocks become results one by one and in order, each with the outline of the blocks below it if that
is wanted. When these cannot be fetched the result goes without an outline.
-/

namespace NoteSearch
namespace ResultOptions

variable {ω : Type} (backend : Backend ω) (options : ResultOptions)

/-- The blocks within the limit on results. -/
def limited (blocks : List Block) : List Block :=
  match options.maxResults with
  | some max => blocks.take max
  | none => blocks

def outline? (id : Int) : StateM ω (Option String) := fun s =>
  match backend.tree id s with
  | (.ok (some tree), s) => (some (tree.render options.treeMaxBlocks options.treeMaxDepth), s)
  | (.ok none, s) => (none, s)
  | (.error _, s) => (none, s)

def presentOne (b : Block) : StateM ω SearchResult := fun s =>
  if options.includeFullContent then
    let (content, s) := outline? backend options b.id s
    (b.toResult content, s)
  else (b.toResult none, s)

def presentAll : List Block → StateM ω (List SearchResult)
  | [] => fun s => ([], s)
  | b :: bs => fun s =>
    let (result, s) := presentOne backend options b s
    let (results, s) := presentAll bs s
    (result :: results, s)

def present (blocks : List Block) : StateM ω (List SearchResult) :=
  presentAll backend options (options.limited blocks)

end ResultOptions
end NoteSearch
