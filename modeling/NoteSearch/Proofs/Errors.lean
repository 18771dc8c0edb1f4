import NoteSearch.Proofs.Planning
import NoteSearch.Proofs.Retries

/-!
# Errors of searches behind a client

Behind a client, a search fails as the request for one of its queries fails, or because nothing is
asked for. No other error of a call gets through to it.
-/

namespace NoteSearch

namespace SearchError

/-- The backend refused the request, or could not be asked. -/
def IsRemote (e : SearchError) : Prop :=
  (∃ reason, e = rejected reason) ∨ ∃ reason, e = transport reason

theorem not_isRemote_invalidQuery (fault : QueryFault) : ¬(invalidQuery fault).IsRemote := by
  rintro (⟨reason, h⟩ | ⟨reason, h⟩) <;> cases h

end SearchError

theorem HttpOutcome.isRemote_of_reply {o : HttpOutcome} {e : SearchError}
    (h : o.reply = .error e) : e.IsRemote := by
  cases he : e.isRejection with
  | true => exact .inl ((SearchError.isRejection_iff e).mp he)
  | false => exact .inr (other_of_reply h he).2

namespace HttpClient

variable {ω : Type} (transport : Transport ω)

theorem attempt_interpret (r : HttpRequest) (limit : Nat) :
    ∀ (b : Backoff) (w : ω), ∃ o : HttpOutcome, (attempt transport r limit b w).1 = o.interpret := by
  induction limit with
  | zero => exact fun b w => ⟨(transport.send r w).1, rfl⟩
  | succ limit ih =>
    intro b w
    by_cases h : (transport.send r w).1.IsTransient
    · cases hpause : (transport.pause b (transport.send r w).2).1 with
      | true =>
        rw [attempt_of_pause h hpause]
        exact ih _ _
      | false =>
        rw [attempt_of_giving_up h hpause]
        exact ⟨_, rfl⟩
    · rw [attempt_of_final h]
      exact ⟨_, rfl⟩

variable (c : HttpClient)

/-- Calls whose answer is taken as it is fail as the outcome of a request does. -/
theorem isRemote_of_call {method : String} {args : List Json} {w : ω} {e : SearchError}
    (h : (c.call transport method args .ok w).1 = .error e) : e.IsRemote := by
  obtain ⟨o, ho⟩ := attempt_interpret transport (c.request method args) c.config.maxRetries
    (.start (transport.now w) c.config.retryMillis) w
  rw [call_ok, invoke, ho] at h
  exact HttpOutcome.isRemote_of_reply h

end HttpClient

namespace Cascade

variable {ω : Type} {b : Backend ω} {P : SearchError → Prop}

/-- A cascade ends in an error that it got for a query, or in the one it started with if no shape
can hold the query. -/
theorem submit_error (hquery : ∀ q w e, (b.query q w).1 = .error e → P e) (q : QueryDescription)
    (chain : List WireShape) :
    ∀ (before : List WireShape) (last e : SearchError) (w : ω),
      (submit b q before last chain w).1 = .error e →
        P e ∨ e = last ∧ applicable q chain = [] := by
  induction chain with
  | nil =>
    rintro before last e w ⟨⟩
    exact .inr ⟨rfl, rfl⟩
  | cons shape shapes ih =>
    intro before last e w he
    rcases hx : q.reshape? shape with _ | x
    · rw [submit_of_inapplicable hx] at he
      rw [applicable_of_inapplicable hx]
      exact ih before last e w he
    refine .inl ?_
    rcases hb : b.query x w with ⟨f | response, t⟩
    · have hf : P f := hquery x w f (congrArg Prod.fst hb)
      cases hrejection : f.isRejection with
      | true =>
        rw [submit_of_rejection hx hb hrejection] at he
        rcases ih _ f e t he with hP | ⟨rfl, -⟩
        · exact hP
        · exact hf
      | false =>
        rw [submit_of_failure hx hb hrejection] at he
        cases he
        exact hf
    · rw [submit_of_response hx hb] at he
      cases he

theorem applicable_current (q : QueryDescription) (chain : List WireShape) :
    applicable q (.current :: chain) = (.current, q) :: applicable q chain :=
  applicable_of_some q.reshape?_current chain

end Cascade

namespace SearchService

variable {ω : Type} {service : SearchService ω} {w : ω} {e : SearchError}

theorem execute_of_carryOut {q : QueryDescription}
    (h : (service.carryOut (.submit q) w).1 = .error e) :
    (Cascade.execute service.backend q service.chain w).1 = .error e := by
  simp only [carryOut, bind_apply] at h
  generalize Cascade.execute service.backend q service.chain w = executed at h ⊢
  rcases executed with ⟨f | execution, t⟩
  · cases h
    rfl
  · cases h

theorem searchText_of_carryOut {text : String}
    (h : (service.carryOut (.find text) w).1 = .error e) :
    (service.backend.searchText text w).1 = .error e := by
  simp only [carryOut, bind_apply] at h
  generalize service.backend.searchText text w = answered at h ⊢
  rcases answered with ⟨f | response, t⟩
  · cases h
    rfl
  · cases h

end SearchService

namespace Search

variable {ω : Type} {service : SearchService ω} {x : Search} {s : Resolving ω}

theorem on_fst (service : SearchService ω) (x : Search) (s : Resolving ω) :
    (x.on service s).1 =
      (service.carryOut (x.plan service.source s).1 (x.plan service.source s).2.world).1 := by
  rw [on_eq]
  rfl

theorem on_of_isVoid (h : x.IsVoid) (service : SearchService ω) (s : Resolving ω) :
    ∃ fault, x.on service s = (.error (.invalidQuery fault), s) := by
  obtain ⟨fault, hplan⟩ := plan_of_isVoid h service.source s
  rw [on_eq, bind_apply, hplan]
  exact ⟨fault, rfl⟩

end Search

namespace HttpClient

variable {ω : Type} (c : HttpClient) (transport : Transport ω)

def service (chain : List WireShape) (options : ResultOptions) : SearchService ω :=
  ⟨c.backend transport, c.source transport, chain, options⟩

variable {x : Search} {s : Resolving ω} {e : SearchError}

/-- A search for something fails as a request for its query does, or because no shape of the chain
can hold that. -/
theorem error_of_search {chain : List WireShape} {options : ResultOptions} (hvoid : ¬x.IsVoid)
    (h : (x.on (c.service transport chain options) s).1 = .error e) :
    e.IsRemote ∨
      e = .invalidQuery .noShapeApplies ∧ ∃ q, Cascade.applicable q chain = [] := by
  rw [Search.on_fst] at h
  have hplan := Search.plan_of_not_isVoid hvoid (c.service transport chain options).source s
  rcases hplan with ⟨q, hq⟩ | ⟨content, hcontent⟩
  · rw [hq] at h
    have hcascade := Cascade.submit_error (b := c.backend transport)
      (fun q w e h => isRemote_of_call transport c h) q chain [] _ e _
      (SearchService.execute_of_carryOut h)
    rcases hcascade with hremote | ⟨hinvalid, hnone⟩
    · exact .inl hremote
    · exact .inr ⟨hinvalid, q, hnone⟩
  · rw [hcontent] at h
    exact .inl (isRemote_of_call transport c (SearchService.searchText_of_carryOut h))

end HttpClient
end NoteSearch
