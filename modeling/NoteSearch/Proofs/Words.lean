import Mathlib.Tactic.SplitIfs
import NoteSearch.Proofs.Blanks

/-!
# Words

A text is cut into the words between its blanks. Whatever blanks stand around the words, and however
many, the words are the same; case changes words only within.
-/

namespace NoteSearch
namespace Text

variable {w gap cs : List Char} {ws : List (List Char)} {c : Char}

/-- At least one character, none of them blank. -/
def IsWord (w : List Char) : Prop := w ≠ [] ∧ ∀ c ∈ w, isBlank c = false

instance : DecidablePred IsWord := fun w =>
  decidable_of_iff (w ≠ [] ∧ w.all (fun c => !isBlank c) = true) (by simp [IsWord])

/-- Words with any blanks before, between and behind them, but at least one between two words. -/
inductive Spread : List (List Char) → List Char → Prop
  | nil {gap : List Char} (hgap : ∀ c ∈ gap, isBlank c = true) : Spread [] gap
  | cons {gap w cs : List Char} {ws : List (List Char)} (hgap : ∀ c ∈ gap, isBlank c = true)
      (hw : IsWord w) (hnext : ∀ c ∈ cs.head?, isBlank c = true) (h : Spread ws cs) :
      Spread (w :: ws) (gap ++ w ++ cs)

theorem Spread.isWord (h : Spread ws cs) : ∀ w ∈ ws, IsWord w := by
  induction h with
  | nil => simp
  | cons _ hw _ _ ih => exact List.forall_mem_cons.mpr ⟨hw, ih⟩

theorem Spread.blank_cons (hc : isBlank c = true) (h : Spread ws cs) : Spread ws (c :: cs) := by
  cases h with
  | nil hgap => exact .nil (List.forall_mem_cons.mpr ⟨hc, hgap⟩)
  | cons hgap hw hnext h => exact .cons (List.forall_mem_cons.mpr ⟨hc, hgap⟩) hw hnext h

theorem flush_append (w : List Char) (first second : List (List Char)) :
    flush w (first ++ second) = flush w first ++ second := by
  unfold flush
  split_ifs <;> simp

/-- A blank ends a word. -/
theorem wordsFrom_blank (hc : isBlank c = true) (done as bs : List Char) :
    wordsFrom done (as ++ c :: bs) = wordsFrom done as ++ words bs := by
  induction as generalizing done with
  | nil =>
    simp only [List.nil_append, wordsFrom, if_pos hc]
    exact flush_append done [] (words bs)
  | cons a as ih =>
    simp only [List.cons_append, wordsFrom, ih]
    split_ifs
    · exact flush_append done _ _
    · rfl

theorem words_blank (hc : isBlank c = true) (as bs : List Char) :
    words (as ++ c :: bs) = words as ++ words bs :=
  wordsFrom_blank hc [] as bs

theorem words_gap (h : ∀ c ∈ gap, isBlank c = true) (cs : List Char) :
    words (gap ++ cs) = words cs := by
  induction gap with
  | nil => rfl
  | cons c gap ih =>
    obtain ⟨hc, hgap⟩ := List.forall_mem_cons.mp h
    exact (words_blank hc [] (gap ++ cs)).trans (ih hgap)

theorem wordsFrom_of_not_blank (done : List Char) (h : ∀ c ∈ cs, isBlank c = false) :
    wordsFrom done cs = flush (cs.reverse ++ done) [] := by
  induction cs generalizing done with
  | nil => rfl
  | cons c cs ih =>
    have hc : ¬isBlank c = true := by simp [h c List.mem_cons_self]
    rw [wordsFrom, if_neg hc, ih (c :: done) fun d hd => h d (List.mem_cons_of_mem c hd),
      List.reverse_cons, List.append_assoc]
    rfl

theorem words_of_isWord (h : IsWord w) : words w = [w] := by
  have hne : ¬(w.reverse ++ []).isEmpty = true := by simpa using h.1
  rw [words, wordsFrom_of_not_blank [] h.2, flush, if_neg hne]
  simp

theorem words_append (hw : IsWord w) (hnext : ∀ c ∈ cs.head?, isBlank c = true) :
    words (w ++ cs) = w :: words cs := by
  cases cs with
  | nil => rw [List.append_nil, words_of_isWord hw, words_nil]
  | cons c cs =>
    have hc := hnext c rfl
    rw [words_blank hc, words_of_isWord hw, List.singleton_append]
    exact congrArg (w :: ·) (words_gap (List.forall_mem_singleton.mpr hc) cs).symm

theorem Spread.words_eq (h : Spread ws cs) : words cs = ws := by
  induction h with
  | nil hgap => simpa using words_gap hgap []
  | cons hgap hw hnext _ ih => rw [List.append_assoc, words_gap hgap, words_append hw hnext, ih]

/-- A word that has begun goes on with the characters that follow. -/
theorem spread_wordsFrom (done cs : List Char) (hdone : ∀ c ∈ done, isBlank c = false) :
    Spread (wordsFrom done cs) (done.reverse ++ cs) := by
  have hflush {done cs ws} (hdone : ∀ c ∈ done, isBlank c = false)
      (hnext : ∀ c ∈ cs.head?, isBlank c = true) (h : Spread ws cs) :
      Spread (flush done ws) (done.reverse ++ cs) := by
    unfold flush
    split_ifs with hempty
    · rwa [List.isEmpty_iff.mp hempty]
    · have hw : IsWord done.reverse :=
        ⟨by simpa using hempty, fun c hc => hdone c (List.mem_reverse.mp hc)⟩
      have hcons : Spread (done.reverse :: ws) ([] ++ done.reverse ++ cs) :=
        .cons (by simp) hw hnext h
      exact hcons
  induction cs generalizing done with
  | nil => exact hflush hdone (by simp) (.nil (by simp))
  | cons c cs ih =>
    unfold wordsFrom
    split_ifs with hc
    · exact hflush hdone (by simpa using hc) ((ih [] (by simp)).blank_cons hc)
    · simpa using ih (c :: done) (List.forall_mem_cons.mpr ⟨by simpa using hc, hdone⟩)

/-- The words of a text are those that stand between its blanks. -/
theorem words_eq_iff : words cs = ws ↔ Spread ws cs := by
  refine ⟨?_, Spread.words_eq⟩
  rintro rfl
  exact spread_wordsFrom [] cs (by simp)

instance (ws : List (List Char)) (cs : List Char) : Decidable (Spread ws cs) :=
  decidable_of_iff _ words_eq_iff

theorem isWord_of_mem_words (h : w ∈ words cs) : IsWord w :=
  (words_eq_iff.mp rfl).isWord w h

theorem joinWith_singleton (mark w : List Char) : joinWith mark [w] = w := rfl

theorem joinWith_cons_cons (mark w v : List Char) (ws : List (List Char)) :
    joinWith mark (w :: v :: ws) = w ++ mark ++ joinWith mark (v :: ws) := rfl

theorem spread_joinWith_space (h : ∀ w ∈ ws, IsWord w) : Spread ws (joinWith [' '] ws) := by
  induction ws with
  | nil => exact .nil (by simp [joinWith])
  | cons w ws ih =>
    obtain ⟨hw, hws⟩ := List.forall_mem_cons.mp h
    cases ws with
    | nil =>
      have hlast : Spread [w] ([] ++ w ++ []) := .cons (by simp) hw (by simp) (.nil (by simp))
      simpa [joinWith_singleton] using hlast
    | cons v ws =>
      have hspace : isBlank ' ' = true := by decide
      have hrest : Spread (w :: v :: ws) ([] ++ w ++ ' ' :: joinWith [' '] (v :: ws)) :=
        .cons (by simp) hw (by simpa using hspace) ((ih hws).blank_cons hspace)
      simpa [joinWith_cons_cons] using hrest

theorem words_joinWith_space (h : ∀ w ∈ ws, IsWord w) : words (joinWith [' '] ws) = ws :=
  (spread_joinWith_space h).words_eq

/-- Words that are joined to nothing are none. -/
theorem joinWith_space_eq_nil_iff (h : ∀ w ∈ ws, IsWord w) : joinWith [' '] ws = [] ↔ ws = [] := by
  constructor
  · intro hjoin
    rw [← words_joinWith_space h, hjoin, words_nil]
  · rintro rfl
    rfl

theorem isWord_lowerAsciiAll (h : IsWord w) : IsWord (lowerAsciiAll w) := by
  refine ⟨by simpa [lowerAsciiAll] using h.1, fun c hc => ?_⟩
  obtain ⟨d, hd, rfl⟩ := List.mem_map.mp hc
  rw [isBlank_lowerAscii, h.2 d hd]

theorem lowerAsciiAll_joinWith_space (ws : List (List Char)) :
    lowerAsciiAll (joinWith [' '] ws) = joinWith [' '] (ws.map lowerAsciiAll) := by
  have hspace : lowerAscii ' ' = ' ' := by decide
  induction ws with
  | nil => rfl
  | cons w ws ih =>
    cases ws with
    | nil => rfl
    | cons v ws =>
      have hword : lowerAsciiAll (w ++ [' ']) = lowerAsciiAll w ++ [' '] := by
        simp [lowerAsciiAll, hspace]
      rw [joinWith_cons_cons, List.map_cons, List.map_cons, joinWith_cons_cons, ← List.map_cons,
        ← ih, ← hword, lowerAsciiAll, lowerAsciiAll, lowerAsciiAll, List.map_append]

end Text
end NoteSearch
