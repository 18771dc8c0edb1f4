import NoteSearch.Block.Tree
import NoteSearch.Text.Blank

/-!
# Outlines of block trees

A tree is written as indented bullet lines, children before siblings. At most a given number of
nodes is written, and none deeper than a given number of levels; a last line tells that something is
missing.
-/

namespace NoteSearch

/-- The lines of some nodes, how many more nodes may follow, and whether any were left out. -/
structure Outline where
  lines : List String
  budget : Nat
  truncated : Bool
deriving DecidableEq, Repr

namespace Outline

/-- The last line of an outline that lacks something. -/
def marker : String := "... (truncated)"

def indent (depth : Nat) : List Char := List.replicate (2 * depth) ' '

/-- The first line of a text behind a bullet, the others below it. -/
def bulletLines (depth : Nat) : List (List Char) → List (List Char)
  | [] => [indent depth ++ ['-']]
  | line :: lines =>
    Text.trimEnd (indent depth ++ '-' :: ' ' :: line) ::
      lines.map fun line => indent depth ++ ' ' :: ' ' :: line

/-- The lines of one node. Blanks at the end of its text do not count. -/
def nodeLines (depth : Nat) (text : Option String) : List String :=
  (bulletLines depth (Text.lines (Text.trimEnd (text.getD "").toList))).map String.ofList

mutual

def ofTree (maxDepth depth budget : Nat) : BlockTree → Outline
  | ⟨_, text, children⟩ =>
    match budget with
    | 0 => ⟨[], 0, true⟩
    | budget + 1 =>
      if maxDepth ≤ depth then ⟨nodeLines depth text, budget, !children.isEmpty⟩
      else
        let below := ofTrees maxDepth (depth + 1) budget children
        { below with lines := nodeLines depth text ++ below.lines }

def ofTrees (maxDepth depth budget : Nat) : List BlockTree → Outline
  | [] => ⟨[], budget, false⟩
  | tree :: trees =>
    let first := ofTree maxDepth depth budget tree
    let others := ofTrees maxDepth depth first.budget trees
    ⟨first.lines ++ others.lines, others.budget, first.truncated || others.truncated⟩

end

def toText (o : Outline) : String :=
  joinLines (if o.truncated then o.lines ++ [marker] else o.lines)

end Outline

def BlockTree.render (tree : BlockTree) (maxBlocks maxDepth : Nat) : String :=
  (Outline.ofTree maxDepth 0 maxBlocks tree).toText

end NoteSearch
