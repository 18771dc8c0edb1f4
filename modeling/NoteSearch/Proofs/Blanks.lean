import Mathlib.Data.List.DropRight
import Mathlib.Tactic.SplitIfs
import NoteSearch.Text.Ascii

/-!
# Trimming

What is trimmed neither starts nor ends with a blank, and a text that does neither is trimmed to
itself, with any blanks around it. Case has nothing to do with blanks.
-/

namespace NoteSearch
namespace Text

variable {cs before after : List Char} {c : Char}

theorem isBlank_lowerAscii (c : Char) : isBlank (lowerAscii c) = isBlank c := by
  have hletters : ∀ n ≤ 'Z'.toNat, 'A'.toNat ≤ n →
      isBlank (Char.ofNat (n + 32)) = isBlank (Char.ofNat n) := by decide
  unfold lowerAscii
  split_ifs with hletter
  · rw [hletters c.toNat hletter.2 hletter.1, Char.ofNat_toNat]
  · rfl

theorem trimStart_lowerAsciiAll (cs : List Char) :
    trimStart (lowerAsciiAll cs) = lowerAsciiAll (trimStart cs) := by
  have hblank : isBlank ∘ lowerAscii = isBlank := funext isBlank_lowerAscii
  rw [trimStart, lowerAsciiAll, List.dropWhile_map, hblank]
  rfl

theorem trimEnd_lowerAsciiAll (cs : List Char) :
    trimEnd (lowerAsciiAll cs) = lowerAsciiAll (trimEnd cs) := by
  have hreverse : trimEnd (lowerAsciiAll cs) =
      (trimStart (lowerAsciiAll cs.reverse)).reverse := by
    rw [lowerAsciiAll, lowerAsciiAll, List.map_reverse]
    rfl
  rw [hreverse, trimStart_lowerAsciiAll, lowerAsciiAll, ← List.map_reverse]
  rfl

/-- Case has nothing to do with blanks. -/
theorem trim_lowerAsciiAll (cs : List Char) :
    trim (lowerAsciiAll cs) = lowerAsciiAll (trim cs) := by
  rw [trim, trimStart_lowerAsciiAll, trimEnd_lowerAsciiAll]
  rfl

theorem not_isBlank_getLast_trimEnd (h : (trimEnd cs).getLast? = some c) : isBlank c = false := by
  rw [trimEnd, List.getLast?_reverse] at h
  have hfirst := List.head?_dropWhile_not isBlank cs.reverse
  rw [h] at hfirst
  exact hfirst

theorem mem_of_mem_trimEnd (h : c ∈ trimEnd cs) : c ∈ cs :=
  List.mem_reverse.mp ((List.dropWhile_sublist isBlank).subset (List.mem_reverse.mp h))

theorem trimEnd_of_getLast? (h : cs.getLast? = some c) (hc : isBlank c = false) :
    trimEnd cs = cs := by
  rw [List.getLast?_eq_head?_reverse] at h
  obtain ⟨rest, hrest⟩ := List.head?_eq_some_iff.mp h
  rw [trimEnd, hrest, List.dropWhile_cons_of_neg (by simp [hc]), ← hrest, List.reverse_reverse]

theorem trimStart_cons (hc : isBlank c = false) (cs : List Char) : trimStart (c :: cs) = c :: cs :=
  List.dropWhile_cons_of_neg (by simp [hc])

theorem trim_trim (cs : List Char) : trim (trim cs) = trim cs := by
  have hend : trimEnd (trim cs) = trim cs := List.rdropWhile_idempotent isBlank (trimStart cs)
  have hstart : trimStart (trim cs) = trim cs := by
    cases h : trim cs with
    | nil => rfl
    | cons c rest =>
      obtain ⟨tail, htail⟩ : trim cs <+: trimStart cs := List.rdropWhile_prefix isBlank _
      rw [h] at htail
      have hfirst := List.head?_dropWhile_not isBlank cs
      rw [← trimStart, ← htail] at hfirst
      exact trimStart_cons (by simpa using hfirst) rest
  rw [trim, hstart, hend]

theorem trimStart_append (h : ∀ c ∈ before, isBlank c = true) (cs : List Char) :
    trimStart (before ++ cs) = trimStart cs := List.dropWhile_append_of_pos h

theorem trimEnd_append (h : ∀ c ∈ after, isBlank c = true) (cs : List Char) :
    trimEnd (cs ++ after) = trimEnd cs := by
  have hreverse : ∀ c ∈ after.reverse, isBlank c = true := fun c hc => h c (List.mem_reverse.mp hc)
  rw [trimEnd, List.reverse_append, List.dropWhile_append_of_pos hreverse, trimEnd]

/-- Neither of a text's ends is blank. -/
structure BareEnds (cs : List Char) : Prop where
  first : ∀ c ∈ cs.head?, isBlank c = false
  last : ∀ c ∈ cs.getLast?, isBlank c = false

theorem BareEnds.trim_between (h : BareEnds cs) (hbefore : ∀ c ∈ before, isBlank c = true)
    (hafter : ∀ c ∈ after, isBlank c = true) : trim (before ++ cs ++ after) = cs := by
  rw [trim, List.append_assoc, trimStart_append hbefore]
  cases cs with
  | nil =>
    have hnil : trimStart after = [] := List.dropWhile_eq_nil_iff.mpr hafter
    rw [List.nil_append, hnil]
    rfl
  | cons c rest =>
    have hlast := List.getLast?_eq_some_getLast (List.cons_ne_nil c rest)
    rw [List.cons_append, trimStart_cons (h.first c rfl), ← List.cons_append, trimEnd_append hafter,
      trimEnd_of_getLast? hlast (h.last _ hlast)]

theorem BareEnds.trim_eq (h : BareEnds cs) : trim cs = cs := by
  have htrim : trim ([] ++ cs ++ []) = cs := h.trim_between (by simp) (by simp)
  rwa [List.nil_append, List.append_nil] at htrim

theorem bareEnds_of_not_blank (h : ∀ c ∈ cs, isBlank c = false) : BareEnds cs :=
  ⟨fun c hc => h c (List.mem_of_mem_head? hc), fun c hc => h c (List.mem_of_getLast? hc)⟩

theorem trim_of_not_blank (h : ∀ c ∈ cs, isBlank c = false) : trim cs = cs :=
  (bareEnds_of_not_blank h).trim_eq

theorem isBlank_of_trim_eq_nil (h : trim cs = []) : ∀ c ∈ cs, isBlank c = true := by
  have hall : ∀ c ∈ trimStart cs, isBlank c = true := List.rdropWhile_eq_nil_iff.mp h
  have hstart : trimStart (trimStart cs) = [] := List.dropWhile_eq_nil_iff.mpr hall
  rw [trimStart, trimStart, List.dropWhile_idempotent] at hstart
  exact List.dropWhile_eq_nil_iff.mp hstart

end Text

theorem isBlank_of_isBlankText {s : String} (h : isBlankText s = true) :
    ∀ c ∈ s.toList, Text.isBlank c = true :=
  Text.isBlank_of_trim_eq_nil (List.isEmpty_iff.mp h)

end NoteSearch
