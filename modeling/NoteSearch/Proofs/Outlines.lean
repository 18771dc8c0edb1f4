import Mathlib.Data.List.Perm.Subperm
import NoteSearch.Result.Outline

/-!
# What an outline shows

Of a tree, an outline shows the first nodes, children before siblings, that lie no deeper than the
limit, as many as there may be, and each with its own lines. It ends in the marker exactly if some
node of the tree is not among these.
-/

namespace NoteSearch
namespace BlockTree

/-- A node of a tree. The path has its position among its siblings first, then those of the nodes
above it. -/
structure Node where
  path : List Nat
  text : Option String
deriving DecidableEq, Repr

def Node.depth (n : Node) : Nat := n.path.length

mutual

/-- The nodes of a tree whose root has a path, children before siblings. -/
def nodesAt (path : List Nat) : BlockTree → List Node
  | ⟨_, text, children⟩ => ⟨path, text⟩ :: nodesBelow path 0 children

/-- The nodes of trees that are siblings from a position on. -/
def nodesBelow (path : List Nat) (position : Nat) : List BlockTree → List Node
  | [] => []
  | tree :: trees => nodesAt (position :: path) tree ++ nodesBelow path (position + 1) trees

end

def nodes (tree : BlockTree) : List Node := nodesAt [] tree

def shown (tree : BlockTree) (maxBlocks maxDepth : Nat) : List Node :=
  (tree.nodes.filter fun n => n.depth ≤ maxDepth).take maxBlocks

def LeavesOut (tree : BlockTree) (maxBlocks maxDepth : Nat) : Prop :=
  ∃ n ∈ tree.nodes, n ∉ tree.shown maxBlocks maxDepth

instance (tree : BlockTree) (maxBlocks maxDepth : Nat) :
    Decidable (tree.LeavesOut maxBlocks maxDepth) :=
  inferInstanceAs (Decidable (∃ n ∈ tree.nodes, n ∉ tree.shown maxBlocks maxDepth))

def spaces (count : Nat) : List Char := List.replicate count ' '

/-- The lines of the text without blanks at its end, the first behind a bullet and without blanks at
its end, the others below it. -/
def Node.lines (n : Node) : List String :=
  let written := Text.lines (Text.trimEnd (n.text.getD "").toList)
  let first := Text.trimEnd (spaces (2 * n.depth) ++ "- ".toList ++ written.headD [])
  (first :: written.tail.map (spaces (2 * n.depth + 2) ++ ·)).map String.ofList

mutual

theorem suffix_of_mem_nodesAt (path : List Nat) (tree : BlockTree) :
    ∀ n ∈ nodesAt path tree, path <:+ n.path := by
  obtain ⟨id, text, children⟩ := tree
  intro n hn
  rw [nodesAt] at hn
  rcases List.mem_cons.mp hn with rfl | hn
  · exact List.suffix_refl path
  · obtain ⟨i, -, hsuffix⟩ := suffix_of_mem_nodesBelow path 0 children n hn
    exact (List.suffix_cons i path).trans hsuffix

theorem suffix_of_mem_nodesBelow (path : List Nat) (position : Nat) (trees : List BlockTree) :
    ∀ n ∈ nodesBelow path position trees, ∃ i ≥ position, i :: path <:+ n.path := by
  intro n hn
  match trees with
  | [] => cases hn
  | tree :: trees =>
    rw [nodesBelow] at hn
    rcases List.mem_append.mp hn with hn | hn
    · exact ⟨position, Nat.le_refl _, suffix_of_mem_nodesAt (position :: path) tree n hn⟩
    · obtain ⟨i, hi, hsuffix⟩ := suffix_of_mem_nodesBelow path (position + 1) trees n hn
      exact ⟨i, Nat.le_of_succ_le hi, hsuffix⟩

end

theorem lt_depth_of_mem_nodesBelow {path : List Nat} {position : Nat} {trees : List BlockTree}
    {n : Node} (hn : n ∈ nodesBelow path position trees) : path.length < n.depth := by
  obtain ⟨i, -, hsuffix⟩ := suffix_of_mem_nodesBelow path position trees n hn
  exact hsuffix.length_le

mutual

/-- No two nodes have the same path. -/
theorem nodup_nodesAt (path : List Nat) (tree : BlockTree) : (nodesAt path tree).Nodup := by
  obtain ⟨id, text, children⟩ := tree
  rw [nodesAt, List.nodup_cons]
  refine ⟨fun hroot => ?_, nodup_nodesBelow path 0 children⟩
  exact Nat.lt_irrefl _ (lt_depth_of_mem_nodesBelow hroot)

theorem nodup_nodesBelow (path : List Nat) (position : Nat) (trees : List BlockTree) :
    (nodesBelow path position trees).Nodup := by
  match trees with
  | [] => exact List.nodup_nil
  | tree :: trees =>
    rw [nodesBelow, List.nodup_append]
    refine ⟨nodup_nodesAt (position :: path) tree, nodup_nodesBelow path (position + 1) trees, ?_⟩
    rintro n hn _ hn' rfl
    have hsuffix := suffix_of_mem_nodesAt (position :: path) tree n hn
    obtain ⟨i, hi, hsuffix'⟩ := suffix_of_mem_nodesBelow path (position + 1) trees n hn'
    have hsame : position :: path = i :: path :=
      (List.suffix_of_suffix_length_le hsuffix hsuffix' (Nat.le_refl _)).eq_of_length rfl
    have hposition : position = i := (List.cons.inj hsame).1
    omega

end

theorem shown_sublist (tree : BlockTree) (maxBlocks maxDepth : Nat) :
    (tree.shown maxBlocks maxDepth).Sublist tree.nodes :=
  (List.take_sublist _ _).trans List.filter_sublist

/-- Since nodes are told apart by their paths, it is enough to count them. -/
theorem leavesOut_iff (tree : BlockTree) (maxBlocks maxDepth : Nat) :
    tree.LeavesOut maxBlocks maxDepth ↔
      (tree.shown maxBlocks maxDepth).length < tree.nodes.length := by
  have hsublist := tree.shown_sublist maxBlocks maxDepth
  constructor
  · rintro ⟨n, hn, hmissing⟩
    by_contra hle
    rw [hsublist.eq_of_length_le (Nat.le_of_not_lt hle)] at hmissing
    exact hmissing hn
  · intro hlt
    by_contra hall
    have hsubset : tree.nodes ⊆ tree.shown maxBlocks maxDepth := fun n hn =>
      Classical.not_not.mp fun hmissing => hall ⟨n, hn, hmissing⟩
    have hle := (List.subperm_of_subset (nodup_nodesAt [] tree) hsubset).length_le
    exact Nat.lt_irrefl _ (Nat.lt_of_lt_of_le hlt hle)

end BlockTree

namespace Outline

open BlockTree

theorem bulletLines_eq (depth : Nat) (written : List (List Char)) :
    bulletLines depth written =
      Text.trimEnd (spaces (2 * depth) ++ "- ".toList ++ written.headD []) ::
        written.tail.map (spaces (2 * depth + 2) ++ ·) := by
  cases written with
  | nil => simp [bulletLines, indent, spaces, Text.trimEnd, Text.isBlank]
  | cons line lines =>
    have hbelow : ∀ line, indent depth ++ ' ' :: ' ' :: line = spaces (2 * depth + 2) ++ line := by
      simp [indent, spaces, List.replicate_add]
    have hfirst : indent depth ++ '-' :: ' ' :: line =
        spaces (2 * depth) ++ "- ".toList ++ line := by
      simp [indent, spaces]
    simp only [bulletLines, hbelow, hfirst, List.headD_cons, List.tail_cons]

theorem nodeLines_eq (n : Node) : nodeLines n.depth n.text = n.lines :=
  congrArg (List.map String.ofList) (bulletLines_eq n.depth _)

/-- The outline of some nodes: those that are not too deep, as far as the budget goes. -/
def ofNodes (maxDepth budget : Nat) (nodes : List Node) : Outline :=
  let within := nodes.filter fun n => n.depth ≤ maxDepth
  { lines := (within.take budget).flatMap Node.lines
    budget := budget - within.length
    truncated := (within.take budget).length < nodes.length }

variable {maxDepth budget : Nat} {n : Node} {ns ms : List Node}

theorem ofNodes_nil (maxDepth budget : Nat) : ofNodes maxDepth budget [] = ⟨[], budget, false⟩ := by
  simp [ofNodes]

/-- What is left of the budget goes to the nodes that follow. -/
theorem ofNodes_append (maxDepth budget : Nat) (ns ms : List Node) :
    ofNodes maxDepth budget (ns ++ ms) =
      let first := ofNodes maxDepth budget ns
      let others := ofNodes maxDepth first.budget ms
      ⟨first.lines ++ others.lines, others.budget, first.truncated || others.truncated⟩ := by
  have hns := ns.length_filter_le fun n => decide (n.depth ≤ maxDepth)
  have hms := ms.length_filter_le fun n => decide (n.depth ≤ maxDepth)
  simp only [ofNodes, List.filter_append, List.take_append, List.flatMap_append, List.length_append,
    List.length_take, mk.injEq, true_and]
  refine ⟨by omega, ?_⟩
  rw [← Bool.decide_or, decide_eq_decide]
  omega

theorem ofNodes_cons_zero (maxDepth : Nat) (n : Node) (ns : List Node) :
    ofNodes maxDepth 0 (n :: ns) = ⟨[], 0, true⟩ := by
  simp [ofNodes]

theorem ofNodes_cons (h : n.depth ≤ maxDepth) (budget : Nat) (ns : List Node) :
    ofNodes maxDepth (budget + 1) (n :: ns) =
      let below := ofNodes maxDepth budget ns
      { below with lines := n.lines ++ below.lines } := by
  simp [ofNodes, h]

/-- Nodes that are too deep add nothing but the fact that they are missing. -/
theorem ofNodes_of_deep (h : ∀ n ∈ ns, maxDepth < n.depth) (budget : Nat) :
    ofNodes maxDepth budget ns = ⟨[], budget, !ns.isEmpty⟩ := by
  have hwithin : (ns.filter fun n => n.depth ≤ maxDepth) = [] :=
    List.filter_eq_nil_iff.mpr fun n hn => by simpa using h n hn
  cases ns <;> simp [ofNodes, hwithin]

theorem isEmpty_nodesBelow (path : List Nat) (position : Nat) (trees : List BlockTree) :
    (nodesBelow path position trees).isEmpty = trees.isEmpty := by
  match trees with
  | [] => rfl
  | ⟨_, _, _⟩ :: _ => rfl

mutual

theorem ofTree_eq (maxDepth : Nat) (path : List Nat) (hpath : path.length ≤ maxDepth)
    (budget : Nat) (tree : BlockTree) :
    ofTree maxDepth path.length budget tree = ofNodes maxDepth budget (nodesAt path tree) := by
  obtain ⟨id, text, children⟩ := tree
  rw [nodesAt]
  have hlines : nodeLines path.length text = (Node.mk path text).lines := nodeLines_eq ⟨path, text⟩
  cases budget with
  | zero =>
    rw [ofNodes_cons_zero]
    rfl
  | succ budget =>
    rw [ofNodes_cons (n := ⟨path, text⟩) hpath]
    by_cases hdeep : maxDepth ≤ path.length
    · have hbelow : ∀ n ∈ nodesBelow path 0 children, maxDepth < n.depth := fun n hn =>
        Nat.lt_of_le_of_lt hdeep (lt_depth_of_mem_nodesBelow hn)
      rw [ofNodes_of_deep hbelow, isEmpty_nodesBelow]
      simp [ofTree, hdeep, hlines]
    · have hchildren := ofTrees_eq maxDepth path (Nat.lt_of_not_le hdeep) budget 0 children
      simp [ofTree, hdeep, hlines, hchildren]

theorem ofTrees_eq (maxDepth : Nat) (path : List Nat) (hpath : path.length < maxDepth)
    (budget position : Nat) (trees : List BlockTree) :
    ofTrees maxDepth (path.length + 1) budget trees =
      ofNodes maxDepth budget (nodesBelow path position trees) := by
  match trees with
  | [] =>
    rw [nodesBelow, ofNodes_nil]
    rfl
  | tree :: trees =>
    have hfirst := ofTree_eq maxDepth (position :: path) hpath budget tree
    have hothers := fun left => ofTrees_eq maxDepth path hpath left (position + 1) trees
    rw [List.length_cons] at hfirst
    rw [nodesBelow, ofNodes_append, ofTrees, hfirst]
    simp only [hothers]

end
end Outline

namespace BlockTree

variable {tree : BlockTree} {maxBlocks maxDepth : Nat}

theorem outline_eq (tree : BlockTree) (maxBlocks maxDepth : Nat) :
    Outline.ofTree maxDepth 0 maxBlocks tree = Outline.ofNodes maxDepth maxBlocks tree.nodes :=
  Outline.ofTree_eq maxDepth [] (Nat.zero_le maxDepth) maxBlocks tree

theorem render_of_leavesOut (h : tree.LeavesOut maxBlocks maxDepth) :
    tree.render maxBlocks maxDepth =
      joinLines ((tree.shown maxBlocks maxDepth).flatMap Node.lines ++ [Outline.marker]) := by
  rw [render, outline_eq]
  exact congrArg joinLines (if_pos (decide_eq_true ((leavesOut_iff _ _ _).mp h)))

theorem render_of_not_leavesOut (h : ¬tree.LeavesOut maxBlocks maxDepth) :
    tree.render maxBlocks maxDepth =
      joinLines ((tree.shown maxBlocks maxDepth).flatMap Node.lines) := by
  rw [render, outline_eq]
  exact congrArg joinLines
    (if_neg fun htruncated => h ((leavesOut_iff _ _ _).mpr (of_decide_eq_true htruncated)))

/-- An outline has the lines of the nodes it shows, and then the marker exactly if some node of the
tree is not shown. -/
theorem render_eq_joinLines (tree : BlockTree) (maxBlocks maxDepth : Nat) :
    tree.render maxBlocks maxDepth = joinLines
      ((tree.shown maxBlocks maxDepth).flatMap Node.lines ++
        if tree.LeavesOut maxBlocks maxDepth then [Outline.marker] else []) := by
  by_cases h : tree.LeavesOut maxBlocks maxDepth
  · rw [if_pos h, render_of_leavesOut h]
  · rw [if_neg h, render_of_not_leavesOut h, List.append_nil]

end BlockTree
end NoteSearch
