import NoteSearch.Proofs.Lockstep

/-!
# What a cascade submits

The shapes of a chain that can hold a query are submitted one after another, and no others. The
first answer that is not a rejection ends the cascade, and decides it; when all are rejections, the
last one does.
-/

namespace NoteSearch

/-- A query that was submitted, and what was answered to it. -/
structure Exchange where
  query : QueryDescription
  answer : Except SearchError Json

namespace Backend

variable {ω : Type} (b : Backend ω)

/-- The same backend with a record of the queries submitted to it. -/
def recorded : Backend (ω × List Exchange) :=
  { query := fun q s =>
      let (answer, w) := b.query q s.1
      (answer, w, s.2 ++ [⟨q, answer⟩])
    searchText := fun text => Separate.onFirst (b.searchText text)
    tree := fun id => Separate.onFirst (b.tree id) }

def replies : List QueryDescription → StateM ω (List (Except SearchError Json))
  | [] => fun s => ([], s)
  | q :: qs => fun s =>
    let (answer, s) := b.query q s
    let (answers, s) := replies qs s
    (answer :: answers, s)

theorem recorded_query (q : QueryDescription) (s : ω) (log : List Exchange) :
    b.recorded.query q (s, log) =
      ((b.query q s).1, (b.query q s).2, log ++ [⟨q, (b.query q s).1⟩]) := rfl

theorem replies_cons {b : Backend ω} {q : QueryDescription} {s t : ω}
    {answer : Except SearchError Json} (h : b.query q s = (answer, t))
    (qs : List QueryDescription) :
    b.replies (q :: qs) s = (answer :: (b.replies qs t).1, (b.replies qs t).2) := by
  simp only [replies, h]
  rfl

theorem replies_recorded (qs : List QueryDescription) :
    ∀ (s : ω) (log : List Exchange), b.recorded.replies qs (s, log) =
      ((b.replies qs s).1, (b.replies qs s).2,
        log ++ qs.zipWith Exchange.mk (b.replies qs s).1) := by
  induction qs with
  | nil => exact fun s log => by simp [replies]
  | cons q qs ih =>
    intro s log
    rw [replies_cons (b.recorded_query q s log), ih, replies_cons rfl]
    simp

end Backend

namespace Cascade

variable {ω : Type} {b : Backend ω} {q x : QueryDescription} {shape : WireShape}
variable {before shapes : List WireShape} {last e : SearchError} {response : Json} {s t : ω}

theorem submit_of_inapplicable (hx : q.reshape? shape = none) :
    submit b q before last (shape :: shapes) s = submit b q before last shapes s := by
  simp only [submit, hx]

theorem submit_of_response (hx : q.reshape? shape = some x) (h : b.query x s = (.ok response, t)) :
    submit b q before last (shape :: shapes) s = (.ok (succeed before shape response), t) := by
  simp only [submit, hx, h]

theorem submit_of_rejection (hx : q.reshape? shape = some x) (h : b.query x s = (.error e, t))
    (he : e.isRejection = true) :
    submit b q before last (shape :: shapes) s = submit b q (before ++ [shape]) e shapes t := by
  simp only [submit, hx, h, he, if_true]

theorem submit_of_failure (hx : q.reshape? shape = some x) (h : b.query x s = (.error e, t))
    (he : e.isRejection = false) :
    submit b q before last (shape :: shapes) s = (.error e, t) := by
  simp only [submit, hx, h, he, Bool.false_eq_true, if_false]

end Cascade

namespace Lockstep

variable {ω ω' : Type} {R : ω → ω' → Prop} {b : Backend ω} {b' : Backend ω'}

/-- Both cascades pass over the same shapes, and get the same answers in the others. -/
theorem submit {q q' : QueryDescription} (chain : List WireShape)
    (h : ∀ shape ∈ chain, Option.Rel (fun x x' => Lockstep R Eq (b.query x) (b'.query x'))
      (q.reshape? shape) (q'.reshape? shape)) :
    ∀ before last, Lockstep R Eq (Cascade.submit b q before last chain)
      (Cascade.submit b' q' before last chain) := by
  induction chain with
  | nil => exact fun before last s s' hs => ⟨rfl, hs⟩
  | cons shape shapes ih =>
    intro before last s s' hs
    have hshapes := ih fun x hx => h x (List.mem_cons_of_mem _ hx)
    have hshape := h shape List.mem_cons_self
    rcases hx : q.reshape? shape with _ | x <;> rcases hx' : q'.reshape? shape with _ | x' <;>
      rw [hx, hx'] at hshape
    · rw [Cascade.submit_of_inapplicable hx, Cascade.submit_of_inapplicable hx']
      exact hshapes before last s s' hs
    · cases hshape
    · cases hshape
    · obtain ⟨hanswer, hnext⟩ := Option.rel_some_some.mp hshape s s' hs
      rcases hb : b.query x s with ⟨answer, t⟩
      rcases hb' : b'.query x' s' with ⟨answer', t'⟩
      simp only [hb, hb'] at hanswer hnext
      subst hanswer
      cases answer with
      | ok response =>
        rw [Cascade.submit_of_response hx hb, Cascade.submit_of_response hx' hb']
        exact ⟨rfl, hnext⟩
      | error e =>
        cases he : e.isRejection
        · rw [Cascade.submit_of_failure hx hb he, Cascade.submit_of_failure hx' hb' he]
          exact ⟨rfl, hnext⟩
        · rw [Cascade.submit_of_rejection hx hb he, Cascade.submit_of_rejection hx' hb' he]
          exact hshapes (before ++ [shape]) e t t' hnext

end Lockstep

namespace Cascade

/-- The shapes of a chain that can hold a query, each with what the query becomes in it. -/
def applicable (q : QueryDescription) (chain : List WireShape) :
    List (WireShape × QueryDescription) :=
  chain.filterMap fun shape => (q.reshape? shape).map (Prod.mk shape)

theorem applicable_of_inapplicable {q : QueryDescription} {shape : WireShape}
    (hx : q.reshape? shape = none) (shapes : List WireShape) :
    applicable q (shape :: shapes) = applicable q shapes := by
  simp [applicable, hx]

theorem applicable_of_some {q x : QueryDescription} {shape : WireShape}
    (hx : q.reshape? shape = some x) (shapes : List WireShape) :
    applicable q (shape :: shapes) = (shape, x) :: applicable q shapes := by
  simp [applicable, hx]

structure Attempt extends Exchange where
  shape : WireShape

namespace Attempt

def shaped (a : Attempt) : WireShape × QueryDescription := (a.shape, a.query)

def IsRefused (a : Attempt) : Prop := ∃ reason, a.answer = .error (.rejected reason)

end Attempt

/-- How a cascade ends after its attempts, with the applicable shapes that were not attempted. -/
inductive Ended :
    List Attempt → List (WireShape × QueryDescription) → Except SearchError Execution → Prop
  /-- The first response is the result, and says which shapes led to it. -/
  | accepted {refused : List Attempt} {last : Attempt} {response : Json}
      (left : List (WireShape × QueryDescription)) (refusals : ∀ a ∈ refused, a.IsRefused)
      (answer : last.answer = .ok response) :
      Ended (refused ++ [last]) left <| .ok
        { blocks := Envelope.blocks response
          attempted := (refused ++ [last]).map Attempt.shape
          used := last.shape
          fallback := !refused.isEmpty }
  /-- An error that is no rejection is the result, too. -/
  | failed {refused : List Attempt} {last : Attempt} {e : SearchError}
      (left : List (WireShape × QueryDescription)) (refusals : ∀ a ∈ refused, a.IsRefused)
      (answer : last.answer = .error e) (fatal : e.isRejection = false) :
      Ended (refused ++ [last]) left (.error e)
  | exhausted {refused : List Attempt} {last : Attempt} {e : SearchError}
      (refusals : ∀ a ∈ refused, a.IsRefused) (answer : last.answer = .error e)
      (refusal : e.isRejection = true) : Ended (refused ++ [last]) [] (.error e)
  | inapplicable : Ended [] [] (.error (.invalidQuery .noShapeApplies))

/-- Where a cascade stands after some rejections: the shapes that were attempted, and the error that
it would end in if no shape were left. -/
structure Pending (refused : List Attempt) (before : List WireShape) (last : SearchError) :
    Prop where
  refusals : ∀ a ∈ refused, a.IsRefused
  before_eq : before = refused.map Attempt.shape
  ended : Ended refused [] (.error last)

theorem pending_nil : Pending [] [] (.invalidQuery .noShapeApplies) :=
  ⟨by simp, rfl, .inapplicable⟩

variable {before : List WireShape} {last e : SearchError} {refused : List Attempt} {a : Attempt}

theorem Pending.rejected (h : Pending refused before last) (ha : a.answer = .error e)
    (he : e.isRejection = true) : Pending (refused ++ [a]) (before ++ [a.shape]) e := by
  obtain ⟨reason, rfl⟩ := (SearchError.isRejection_iff e).mp he
  refine ⟨?_, by simp [h.before_eq], .exhausted h.refusals ha he⟩
  intro x hx
  rcases List.mem_append.mp hx with hx | hx
  · exact h.refusals x hx
  · rw [List.mem_singleton.mp hx]
    exact ⟨reason, ha⟩

theorem Pending.accepted (h : Pending refused before last) {response : Json}
    (ha : a.answer = .ok response) (left : List (WireShape × QueryDescription)) :
    Ended (refused ++ [a]) left (.ok (succeed before a.shape response)) := by
  have hend : succeed before a.shape response =
      { blocks := Envelope.blocks response
        attempted := (refused ++ [a]).map Attempt.shape
        used := a.shape
        fallback := !refused.isEmpty } := by
    simp [succeed, h.before_eq]
  rw [hend]
  exact .accepted left h.refusals ha

variable {ω : Type} (b : Backend ω) (q : QueryDescription)

/-- A cascade submits a first part of the applicable shapes, and ends as their answers say. -/
theorem submit_ended (chain : List WireShape) :
    ∀ (refused : List Attempt) (before : List WireShape) (last : SearchError) (s : ω),
      Pending refused before last → ∃ attempts left outcome t,
        applicable q chain = attempts.map Attempt.shaped ++ left ∧
        b.replies (attempts.map fun a => a.query) s = (attempts.map fun a => a.answer, t) ∧
        submit b q before last chain s = (outcome, t) ∧
        Ended (refused ++ attempts) left outcome := by
  induction chain with
  | nil =>
    intro refused before last s h
    exact ⟨[], [], .error last, s, rfl, rfl, rfl, by simpa using h.ended⟩
  | cons shape shapes ih =>
    intro refused before last s h
    rcases hx : q.reshape? shape with _ | x
    · rw [submit_of_inapplicable hx, applicable_of_inapplicable hx]
      exact ih refused before last s h
    rw [applicable_of_some hx]
    rcases hb : b.query x s with ⟨e | response, t⟩
    · cases he : e.isRejection with
      | false =>
        refine ⟨[⟨⟨x, .error e⟩, shape⟩], applicable q shapes, .error e, t, rfl, ?_,
          submit_of_failure hx hb he, .failed _ h.refusals rfl he⟩
        simp [Backend.replies, hb]
      | true =>
        have hnext := h.rejected (a := ⟨⟨x, .error e⟩, shape⟩) rfl he
        obtain ⟨attempts, left, outcome, u, happ, hrep, hsub, hend⟩ := ih _ _ _ t hnext
        refine ⟨⟨⟨x, .error e⟩, shape⟩ :: attempts, left, outcome, u, ?_, ?_, ?_, ?_⟩
        · rw [happ]
          rfl
        · simp [Backend.replies, hb, hrep]
        · rw [submit_of_rejection hx hb he, hsub]
        · simpa using hend
    · refine ⟨[⟨⟨x, .ok response⟩, shape⟩], applicable q shapes,
        .ok (succeed before shape response), t, rfl, ?_, submit_of_response hx hb,
        h.accepted rfl _⟩
      simp [Backend.replies, hb]

theorem execute_recorded (chain : List WireShape) :
    Lockstep (fun (p : ω × List Exchange) s => p.1 = s) Eq (execute b.recorded q chain)
      (execute b q chain) := by
  apply Lockstep.submit chain
  intro shape _
  rcases q.reshape? shape with _ | x
  · exact .none
  · exact .some fun p s hs => by subst hs; exact ⟨rfl, rfl⟩

/-- Of every chain, the shapes that can hold the query are submitted in order, and recorded, up to
the first answer that is not a rejection. That answer, or else the last rejection, is the outcome;
without any such shape nothing is submitted. -/
theorem execute_ended (chain : List WireShape) (s : ω) :
    ∃ attempts left outcome t,
      applicable q chain = attempts.map Attempt.shaped ++ left ∧
      b.replies (attempts.map fun a => a.query) s = (attempts.map fun a => a.answer, t) ∧
      execute b q chain s = (outcome, t) ∧
      execute b.recorded q chain (s, []) = (outcome, t, attempts.map Attempt.toExchange) ∧
      Ended attempts left outcome := by
  obtain ⟨attempts, left, outcome, ⟨t, log⟩, happ, hrep, hsub, hend⟩ :=
    submit_ended b.recorded q chain [] [] _ (s, []) pending_nil
  rw [Backend.replies_recorded, List.nil_append] at hrep
  obtain ⟨hanswers, hrep⟩ := Prod.ext_iff.mp hrep
  obtain ⟨ht, hlog⟩ := Prod.ext_iff.mp hrep
  have hrec : execute b.recorded q chain (s, []) = (outcome, t, log) := hsub
  obtain ⟨hout, hstate⟩ := execute_recorded b q chain (s, []) s rfl
  rw [hrec] at hout hstate
  refine ⟨attempts, left, outcome, t, happ, Prod.ext hanswers ht,
    Prod.ext hout.symm hstate.symm, ?_, hend⟩
  dsimp only at hanswers hlog
  rw [hrec, ← hlog, hanswers]
  simp [List.zipWith_map]

end Cascade
end NoteSearch
