import NoteSearch.Proofs.Search

/-!
# Presenting blocks one by one

Results stand for the first blocks that were found, as many as are wanted, in their order. The
outline of each comes from the tree that is fetched for its own block, so that a tree that cannot be
fetched is missed there and nowhere else, and no tree is fetched but one for each result.
-/

namespace NoteSearch

abbrev TreeAnswers := Int → Except SearchError (Option BlockTree)

namespace Backend

variable {ω : Type}

def fetching (b : Backend ω) : Backend (ω × List Int) :=
  { query := fun q => Separate.onFirst (b.query q)
    searchText := fun text => Separate.onFirst (b.searchText text)
    tree := fun id s =>
      let (answer, w) := b.tree id s.1
      (answer, w, s.2 ++ [id]) }

/-- The answers to tree fetches depend on nothing but the block, in states that no such fetch
leaves. -/
structure AnswersTrees (b : Backend ω) (P : ω → Prop) (trees : TreeAnswers) : Prop where
  answer : ∀ id w, P w → (b.tree id w).1 = trees id
  next : ∀ id w, P w → P (b.tree id w).2

end Backend

namespace ResultOptions

variable {ω : Type} (options : ResultOptions)

def contentFor (trees : TreeAnswers) (id : Int) : Option String :=
  if options.includeFullContent then options.outlineOf (trees id) else none

def resultFor (trees : TreeAnswers) (block : Block) : SearchResult :=
  block.toResult (options.contentFor trees block.id)

theorem presentAll_cons (b : Backend ω) (block : Block) (blocks : List Block) (s : ω) :
    options.presentAll b (block :: blocks) s =
      ((options.presentOne b block s).1 ::
          (options.presentAll b blocks (options.presentOne b block s).2).1,
        (options.presentAll b blocks (options.presentOne b block s).2).2) := rfl

theorem limited_eq_take (blocks : List Block) :
    options.limited blocks = blocks.take (options.maxResults.getD blocks.length) := by
  unfold limited
  cases options.maxResults with
  | none => exact List.take_length.symm
  | some max => rfl

section Results

variable {b : Backend ω} {P : ω → Prop} {trees : TreeAnswers} (h : b.AnswersTrees P trees)
include h

theorem presentOne_of_answersTrees (block : Block) {w : ω} (hw : P w) :
    (options.presentOne b block w).1 = options.resultFor trees block ∧
      P (options.presentOne b block w).2 := by
  by_cases hfull : options.includeFullContent
  · simp only [presentOne, if_pos hfull, outline?_eq, resultFor, contentFor]
    exact ⟨by rw [h.answer block.id w hw], h.next block.id w hw⟩
  · simp only [presentOne, if_neg hfull, resultFor, contentFor]
    exact ⟨trivial, hw⟩

theorem presentAll_of_answersTrees (blocks : List Block) :
    ∀ {w : ω}, P w → (options.presentAll b blocks w).1 = blocks.map (options.resultFor trees) := by
  induction blocks with
  | nil => exact fun _ => rfl
  | cons block blocks ih =>
    intro w hw
    obtain ⟨hresult, hnext⟩ := options.presentOne_of_answersTrees h block hw
    rw [presentAll_cons, hresult, ih hnext, List.map_cons]

theorem present_of_answersTrees (blocks : List Block) {w : ω} (hw : P w) :
    (options.present b blocks w).1 =
      (blocks.take (options.maxResults.getD blocks.length)).map (options.resultFor trees) := by
  rw [present, limited_eq_take, options.presentAll_of_answersTrees h _ hw]

end Results

theorem presentOne_fetching (b : Backend ω) (block : Block) (s : ω × List Int) :
    (options.presentOne b.fetching block s).2.2 =
      s.2 ++ if options.includeFullContent then [block.id] else [] := by
  by_cases hfull : options.includeFullContent
  · simp only [presentOne, if_pos hfull, outline?_eq]
    rfl
  · simp only [presentOne, if_neg hfull, List.append_nil]

/-- One tree is fetched for every block that is presented, or none at all. -/
theorem presentAll_fetching (b : Backend ω) (blocks : List Block) :
    ∀ s : ω × List Int, (options.presentAll b.fetching blocks s).2.2 =
      s.2 ++ if options.includeFullContent then blocks.map Block.id else [] := by
  induction blocks with
  | nil => exact fun s => by simp [presentAll]
  | cons block blocks ih =>
    intro s
    rw [presentAll_cons, ih, presentOne_fetching]
    split_ifs <;> simp

end ResultOptions

theorem Backend.AnswersTrees.fetching {ω : Type} {b : Backend ω} {P : ω → Prop}
    {trees : TreeAnswers} (h : b.AnswersTrees P trees) :
    b.fetching.AnswersTrees (fun s => P s.1) trees :=
  ⟨fun id s hs => h.answer id s.1 hs, fun id s hs => h.next id s.1 hs⟩

/-- A backend in memory answers by its trees and by those that fail, whatever else it was asked. -/
theorem MemoryBackend.answersTrees (c : MemoryBackend) :
    backend.AnswersTrees (fun v => v.trees = c.trees ∧ v.failingTrees = c.failingTrees)
      fun id => (c.tree id).1 := by
  constructor
  · rintro id v ⟨htrees, hfailing⟩
    simp only [backend, tree, htrees, hfailing]
  · exact fun id v hv => hv

namespace ResultOptions

variable {ω : Type} (options : ResultOptions)

/-- The results stand for the first blocks, in order and as many as are wanted, and each has the
outline that its own block has. If outlines are wanted, one tree is fetched for each result, and
otherwise none. So a limit leaves out nothing but what is behind it, and another answer for the tree
of one block changes nothing but the results for that block. -/
theorem present_positional {b : Backend ω} {P : ω → Prop} {trees : TreeAnswers}
    (h : b.AnswersTrees P trees) (blocks : List Block) {w : ω} (hw : P w) :
    let kept := blocks.take (options.maxResults.getD blocks.length)
    let results := (options.present b blocks w).1
    let recorded := options.present b.fetching blocks (w, [])
    results = kept.map (options.resultFor trees) ∧
    recorded.1 = results ∧
    recorded.2.2 = (if options.includeFullContent then results.map SearchResult.id else []) ∧
    (∀ max, (present b { options with maxResults := some max } blocks w).1 =
      (present b { options with maxResults := none } blocks w).1.take max) ∧
    ∀ {ω' : Type} {b' : Backend ω'} {P' : ω' → Prop} {trees' : TreeAnswers} {w' : ω'} (id : Int),
      b'.AnswersTrees P' trees' → P' w' → (∀ other, other ≠ id → trees' other = trees other) →
        ∀ (i : Nat) (block : Block), kept[i]? = some block → block.id ≠ id →
          (options.present b' blocks w').1[i]? = results[i]? := by
  intro kept results recorded
  have hresults : results = kept.map (options.resultFor trees) :=
    options.present_of_answersTrees h blocks hw
  refine ⟨hresults, ?_, ?_, ?_, ?_⟩
  · rw [hresults]
    exact options.present_of_answersTrees h.fetching blocks hw
  · have hfetched : recorded.2.2 =
        if options.includeFullContent then (options.limited blocks).map Block.id else [] :=
      options.presentAll_fetching b _ (w, [])
    rw [hfetched, limited_eq_take, hresults, List.map_map]
    rfl
  · intro max
    rw [present_of_answersTrees _ h blocks hw, present_of_answersTrees _ h blocks hw,
      ← List.map_take, Option.getD_some, Option.getD_none, List.take_length]
    rfl
  · intro ω' b' P' trees' w' id h' hw' hsame i block hblock hid
    rw [options.present_of_answersTrees h' blocks hw', hresults, List.getElem?_map,
      List.getElem?_map, hblock, Option.map_some, Option.map_some, resultFor, contentFor,
      hsame block.id hid]
    rfl

/-- One block is found twice, and the tree of another cannot be fetched. -/
theorem present_positional_repeated :
    let trees : List (Int × BlockTree) := [(1, ⟨1, some "one", []⟩), (3, ⟨3, some "three", []⟩)]
    let sound : MemoryBackend := { MemoryBackend.empty with trees }
    let failing : MemoryBackend := { sound with failingTrees := [2] }
    let options := standard.withMaxResults 3
    let blocks := [1, 2, 1, 3].map Block.bare
    let results := (options.present MemoryBackend.backend blocks failing).1
    let recorded := options.present MemoryBackend.backend.fetching blocks (failing, [])
    MemoryBackend.backend.AnswersTrees
        (fun v => v.trees = failing.trees ∧ v.failingTrees = failing.failingTrees)
        (fun id => (failing.tree id).1) ∧
      results.map SearchResult.fullContent = [some "- one", none, some "- one"] ∧
      recorded.2.2 = [1, 2, 1] ∧
      ∀ i : Nat, i ∈ [0, 2] →
        (options.present MemoryBackend.backend blocks sound).1[i]? = results[i]? := by
  intro trees sound failing options blocks results recorded
  obtain ⟨hresults, -, hfetched, -, hothers⟩ :=
    options.present_positional failing.answersTrees blocks ⟨rfl, rfl⟩
  refine ⟨failing.answersTrees, by decide +kernel, hfetched.trans (by decide +kernel),
    fun i hi => ?_⟩
  have hsame : ∀ id, id ≠ 2 → (sound.tree id).1 = (failing.tree id).1 := by
    intro id hid
    simp [MemoryBackend.tree, failing, sound, MemoryBackend.empty, hid]
  have hkept : (blocks.take (options.maxResults.getD blocks.length))[i]? = some (Block.bare 1) := by
    rcases List.mem_pair.mp hi with rfl | rfl <;> rfl
  exact hothers 2 sound.answersTrees ⟨rfl, rfl⟩ hsame i (Block.bare 1) hkept (by decide)

end ResultOptions
end NoteSearch
