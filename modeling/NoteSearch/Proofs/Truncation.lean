import NoteSearch.Proofs.Blanks
import NoteSearch.Proofs.Outlines
import NoteSearch.Result.Projection

/-!
# Telling that an outline is cut short

Whether an outline lacks something is read off its end. Where a node is missing the marker stands
there, but a text that ends like the marker looks the same: an outline is taken for one that is cut
short exactly if a node is missing or the text of the last node that it shows ends in the marker.
-/

namespace NoteSearch

section Suffix

variable {α : Type} {c : α} {cs front rest : List α}

theorem suffix_append_cons_iff (h : c ∉ cs) : cs <:+ front ++ c :: rest ↔ cs <:+ rest := by
  constructor
  · intro hsuffix
    have hrest := List.suffix_append front (c :: rest)
    rcases List.suffix_or_suffix_of_suffix hsuffix hrest with h' | h'
    · rcases List.suffix_cons_iff.mp h' with rfl | h'
      · exact absurd List.mem_cons_self h
      · exact h'
    · exact absurd (h'.subset List.mem_cons_self) h
  · intro hsuffix
    exact hsuffix.trans ((List.suffix_cons c rest).trans (List.suffix_append front (c :: rest)))

theorem cons_suffix_append_iff (h : c ∉ front) : c :: cs <:+ front ++ rest ↔ c :: cs <:+ rest := by
  induction front with
  | nil => rfl
  | cons d front ih =>
    rw [List.mem_cons, not_or] at h
    rw [List.cons_append, List.suffix_cons_iff, ih h.2]
    exact ⟨fun hsuffix => hsuffix.resolve_left fun heq => h.1 (List.cons.inj heq).1, .inr⟩

theorem getLast?_of_ne {d : α} (h : (front ++ d :: rest).getLast? = some c) (hne : c ≠ d) :
    rest.getLast? = some c := by
  rw [List.getLast?_append, List.getLast?_cons, Option.some_or, Option.some.injEq] at h
  cases hlast : rest.getLast? with
  | none =>
    rw [hlast] at h
    exact absurd h.symm hne
  | some e =>
    rw [hlast] at h
    exact congrArg some h

end Suffix

namespace Text

/-- The last line of a text that does not end in a line feed is the text, or what follows its last
line feed. -/
theorem linesFrom_getLast {c : Char} (hc : c ≠ '\n') (cs : List Char) :
    ∀ line : List Char, (line.reverse ++ cs).getLast? = some c → ∃ before last,
      linesFrom line cs = before ++ [last] ∧ last.getLast? = some c ∧
        (line.reverse ++ cs = last ∨ ∃ front, line.reverse ++ cs = front ++ '\n' :: last) := by
  induction cs with
  | nil =>
    intro line h
    rw [List.append_nil] at h ⊢
    have hne : line ≠ [] := by
      rintro rfl
      cases h
    refine ⟨[], line.reverse, ?_, h, .inl rfl⟩
    simp [linesFrom, hne]
  | cons d cs ih =>
    intro line h
    by_cases hd : d = '\n'
    · subst hd
      obtain ⟨before, last, hlines, hlast, hends⟩ := ih [] (getLast?_of_ne h hc)
      refine ⟨(dropReturn line).reverse :: before, last, ?_, hlast, .inr ?_⟩
      · rw [linesFrom, if_pos rfl, hlines, List.cons_append]
      · rcases hends with rfl | ⟨front, hfront⟩
        · exact ⟨line.reverse, rfl⟩
        · refine ⟨line.reverse ++ '\n' :: front, ?_⟩
          rw [List.reverse_nil, List.nil_append] at hfront
          rw [hfront, List.append_assoc, List.cons_append]
    · have hmove : (d :: line).reverse ++ cs = line.reverse ++ d :: cs := by simp
      rw [← hmove] at h ⊢
      rw [linesFrom, if_neg hd]
      exact ih (d :: line) h

end Text

namespace Outline

theorem marker_suffix_append_iff {front rest : List Char} (h : '.' ∉ front) :
    marker.toList <:+ front ++ rest ↔ marker.toList <:+ rest :=
  cons_suffix_append_iff h

theorem notMem_spaces (count : Nat) : '.' ∉ BlockTree.spaces count := fun h => by
  cases List.eq_of_mem_replicate h

theorem notMem_bullet (depth : Nat) : '.' ∉ BlockTree.spaces depth ++ "- ".toList := fun h =>
  (List.mem_append.mp h).elim (notMem_spaces depth) (by decide)

theorem marker_suffix_lines {cs : List Char} {c : Char} (h : cs.getLast? = some c)
    (hc : Text.isBlank c = false) : ∃ before last, Text.lines cs = before ++ [last] ∧
      last.getLast? = some c ∧ (marker.toList <:+ last ↔ marker.toList <:+ cs) := by
  have hfeed : c ≠ '\n' := by
    rintro rfl
    cases hc
  obtain ⟨before, last, hlines, hlast, hends⟩ := Text.linesFrom_getLast hfeed cs [] h
  refine ⟨before, last, hlines, hlast, ?_⟩
  rcases hends with rfl | ⟨front, hfront⟩
  · rfl
  · rw [List.reverse_nil, List.nil_append] at hfront
    rw [hfront, suffix_append_cons_iff (by decide)]

end Outline

namespace BlockTree

open Outline

theorem Node.lines_of_append {n : Node} {before : List (List Char)} {last : List Char} {c : Char}
    (hlines : Text.lines (Text.trimEnd (n.text.getD "").toList) = before ++ [last])
    (hlast : last.getLast? = some c) (hc : Text.isBlank c = false) :
    ∃ others front, n.lines = others ++ [String.ofList (front ++ last)] ∧ '.' ∉ front := by
  unfold lines
  rw [hlines]
  cases before with
  | nil =>
    have hend : (spaces (2 * n.depth) ++ "- ".toList ++ last).getLast? = some c := by
      rw [List.getLast?_append, hlast]
      rfl
    refine ⟨[], spaces (2 * n.depth) ++ "- ".toList, ?_, notMem_bullet _⟩
    simp only [List.nil_append, List.headD_cons, Text.trimEnd_of_getLast? hend hc]
    rfl
  | cons line lines =>
    refine ⟨(Text.trimEnd (spaces (2 * n.depth) ++ "- ".toList ++ line) ::
      lines.map (spaces (2 * n.depth + 2) ++ ·)).map String.ofList,
      spaces (2 * n.depth + 2), ?_, notMem_spaces _⟩
    simp

/-- The last line of a node ends in the marker exactly if its text does, blanks at the end apart. -/
theorem Node.lines_getLast (n : Node) :
    ∃ before last, n.lines = before ++ [last] ∧
      (marker.toList <:+ last.toList ↔ marker.toList <:+ Text.trimEnd (n.text.getD "").toList) := by
  cases hlast : (Text.trimEnd (n.text.getD "").toList).getLast? with
  | none =>
    have hempty := List.getLast?_eq_none_iff.mp hlast
    have hbullet : '.' ∉ Text.trimEnd (spaces (2 * n.depth) ++ "- ".toList ++ []) := fun h =>
      notMem_bullet (2 * n.depth) (by simpa using Text.mem_of_mem_trimEnd h)
    refine ⟨[], String.ofList (Text.trimEnd (spaces (2 * n.depth) ++ "- ".toList ++ [])), ?_, ?_⟩
    · rw [lines, hempty]
      rfl
    · rw [hempty, String.toList_ofList, ← List.append_nil (Text.trimEnd _)]
      exact marker_suffix_append_iff hbullet
  | some c =>
    have hc := Text.not_isBlank_getLast_trimEnd hlast
    obtain ⟨_, last, hlines, hend, hmarker⟩ := marker_suffix_lines hlast hc
    obtain ⟨others, front, hshown, hfront⟩ := lines_of_append hlines hend hc
    refine ⟨others, String.ofList (front ++ last), hshown, ?_⟩
    rw [String.toList_ofList, marker_suffix_append_iff hfront, hmarker]

def Node.EndsInMarker (n : Node) : Prop :=
  marker.toList <:+ Text.trimEnd (n.text.getD "").toList

instance (n : Node) : Decidable n.EndsInMarker :=
  inferInstanceAs (Decidable (_ <:+ _))

/-- What follows the nodes before the last one that is shown is the last line of that one. -/
theorem flatMap_lines_getLast {ns : List Node} {n : Node} (h : ns.getLast? = some n) :
    ∃ before last, ns.flatMap Node.lines = before ++ [last] ∧
      (marker.toList <:+ last.toList ↔ n.EndsInMarker) := by
  obtain ⟨others, rfl⟩ := List.getLast?_eq_some_iff.mp h
  obtain ⟨before, last, hlines, hmarker⟩ := n.lines_getLast
  refine ⟨others.flatMap Node.lines ++ before, last, ?_, hmarker⟩
  rw [List.flatMap_append, List.flatMap_singleton, hlines, List.append_assoc]

theorem exists_getLast_shown {tree : BlockTree} {maxBlocks maxDepth : Nat}
    (h : ¬tree.LeavesOut maxBlocks maxDepth) :
    ∃ n, (tree.shown maxBlocks maxDepth).getLast? = some n := by
  have hroot : tree.nodes ≠ [] := by
    obtain ⟨id, text, children⟩ := tree
    exact List.cons_ne_nil _ _
  cases hlast : (tree.shown maxBlocks maxDepth).getLast? with
  | some n => exact ⟨n, rfl⟩
  | none =>
    rw [leavesOut_iff, List.getLast?_eq_none_iff.mp hlast] at h
    exact absurd (List.length_pos_iff.mpr hroot) h

end BlockTree

theorem marker_suffix_joinLines (before : List String) (last : String) :
    Outline.marker.toList <:+ (joinLines (before ++ [last])).toList ↔
      Outline.marker.toList <:+ last.toList := by
  rw [joinLines, String.toList_ofList]
  induction before with
  | nil => rfl
  | cons line before ih =>
    obtain ⟨next, others, hnext⟩ : ∃ next others,
        (before ++ [last]).map String.toList = next :: others := by
      cases before <;> exact ⟨_, _, rfl⟩
    rw [List.cons_append, List.map_cons, hnext, Text.joinWith, List.append_assoc, ← hnext,
      List.singleton_append, suffix_append_cons_iff (by decide), ih]
    · exact List.cons_ne_nil _ _

/-- A result is taken for one that is cut short exactly if its outline leaves out a node, or the text
of the last node that it shows ends in the marker, blanks at the end apart. -/
theorem SearchResult.isTruncated_iff (b : Block) (tree : BlockTree) (maxBlocks maxDepth : Nat) :
    (b.toResult (some (tree.render maxBlocks maxDepth))).isTruncated = true ↔
      tree.LeavesOut maxBlocks maxDepth ∨
        ∃ n ∈ (tree.shown maxBlocks maxDepth).getLast?, n.EndsInMarker := by
  have hend : (b.toResult (some (tree.render maxBlocks maxDepth))).isTruncated = true ↔
      Outline.marker.toList <:+ (tree.render maxBlocks maxDepth).toList :=
    List.isSuffixOf_iff_suffix
  rw [hend]
  by_cases hout : tree.LeavesOut maxBlocks maxDepth
  · rw [BlockTree.render_of_leavesOut hout, marker_suffix_joinLines]
    exact iff_of_true (List.suffix_refl _) (.inl hout)
  · obtain ⟨n, hn⟩ := BlockTree.exists_getLast_shown hout
    obtain ⟨before, last, hlines, hmarker⟩ := BlockTree.flatMap_lines_getLast hn
    rw [BlockTree.render_of_not_leavesOut hout, hlines, marker_suffix_joinLines, hmarker]
    simp [hout, hn]

/-- A tree of one node, all of which is shown, is taken for one that is cut short. -/
theorem SearchResult.isTruncated_of_marker_text :
    let tree : BlockTree := ⟨1, some "... (truncated)", []⟩
    ((Block.bare 1).toResult (some (tree.render 50 5))).isTruncated = true ∧
      ¬tree.LeavesOut 50 5 := by
  decide +kernel

end NoteSearch
