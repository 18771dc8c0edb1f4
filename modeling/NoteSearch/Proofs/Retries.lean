import NoteSearch.Proofs.Cascade
import NoteSearch.Proofs.Scripts

/-!
# Retries below a cascade

A client repeats a request while its outcomes are transient and the pauses go on, and a cascade
submits a query in one shape after another while the backend refuses it. Over a script of outcomes
both loops together send some equal requests for each shape, and the outcome of the last of them
decides.
-/

namespace NoteSearch
namespace HttpOutcome

def IsRefused : HttpOutcome → Prop
  | answered status _ => status = 400 ∨ status = 404 ∨ status = 422
  | unreachable _ => False

def IsAccepted : HttpOutcome → Prop
  | answered status _ => 200 ≤ status ∧ status < 300
  | unreachable _ => False

/-- What an outcome means to a search that it is the last word to. -/
def reply (o : HttpOutcome) : Except SearchError Json :=
  o.interpret.mapError RequestError.toSearchError

theorem reply_of_isAccepted {o : HttpOutcome} (h : o.IsAccepted) :
    ∃ status body, o = answered status body ∧ o.reply = .ok (valueOf body) := by
  cases o with
  | unreachable reason => exact h.elim
  | answered status body =>
    exact ⟨status, body, rfl, by simp [reply, interpret, show 200 ≤ status ∧ status < 300 from h,
      Except.mapError]⟩

theorem reply_of_isRefused {o : HttpOutcome} (h : o.IsRefused) :
    ∃ status body, o = answered status body ∧
      o.reply = .error (.rejected (RequestError.rejected status body).message) := by
  cases o with
  | unreachable reason => exact h.elim
  | answered status body =>
    have hs : status = 400 ∨ status = 404 ∨ status = 422 := h
    have hok : ¬(200 ≤ status ∧ status < 300) := by omega
    exact ⟨status, body, rfl, by simp [reply, interpret, hok, hs, Except.mapError,
      RequestError.toSearchError]⟩

theorem reply_of_other {o : HttpOutcome} (ha : ¬o.IsAccepted) (hr : ¬o.IsRefused) :
    ∃ reason, o.reply = .error (.transport reason) := by
  cases o with
  | unreachable reason => exact ⟨_, rfl⟩
  | answered status body =>
    simp only [IsAccepted, IsRefused] at ha hr
    simp only [reply, interpret, if_neg ha, if_neg hr]
    split_ifs <;> exact ⟨_, rfl⟩

theorem isRefused_of_reply {o : HttpOutcome} {reason : String}
    (h : o.reply = .error (.rejected reason)) : o.IsRefused := by
  by_contra hr
  by_cases ha : o.IsAccepted
  · obtain ⟨_, _, _, hok⟩ := reply_of_isAccepted ha
    rw [hok] at h
    cases h
  · obtain ⟨_, htransport⟩ := reply_of_other ha hr
    rw [htransport] at h
    cases h

theorem eq_answered_of_reply {o : HttpOutcome} {value : Json} (h : o.reply = .ok value) :
    ∃ status body, o = answered status body ∧ (200 ≤ status ∧ status < 300) ∧
      valueOf body = value := by
  by_cases ha : o.IsAccepted
  · obtain ⟨status, body, rfl, hok⟩ := reply_of_isAccepted ha
    exact ⟨status, body, rfl, ha, Except.ok.inj (hok.symm.trans h)⟩
  by_cases hr : o.IsRefused
  · obtain ⟨_, _, _, hrejected⟩ := reply_of_isRefused hr
    rw [hrejected] at h
    cases h
  · obtain ⟨_, htransport⟩ := reply_of_other ha hr
    rw [htransport] at h
    cases h

theorem other_of_reply {o : HttpOutcome} {e : SearchError} (h : o.reply = .error e)
    (fatal : e.isRejection = false) :
    (¬o.IsAccepted ∧ ¬o.IsRefused) ∧ ∃ reason, e = .transport reason := by
  have ha : ¬o.IsAccepted := fun ha => by
    obtain ⟨_, _, _, hok⟩ := reply_of_isAccepted ha
    rw [hok] at h
    cases h
  have hr : ¬o.IsRefused := fun hr => by
    obtain ⟨_, _, _, hrejected⟩ := reply_of_isRefused hr
    rw [hrejected, Except.error.injEq] at h
    rw [← h] at fatal
    cases fatal
  obtain ⟨reason, htransport⟩ := reply_of_other ha hr
  exact ⟨⟨ha, hr⟩, reason, Except.error.inj (h.symm.trans htransport)⟩

end HttpOutcome

/-- The requests for one shape: how often the first one is repeated, and the last outcome. -/
structure Round where
  shape : WireShape
  query : QueryDescription
  repeats : ℕ
  outcome : HttpOutcome

namespace Round

def request (c : HttpClient) (r : Round) : HttpRequest where
  url := c.endpoint
  authorization := c.config.token.map ("Bearer " ++ ·)
  body := .object [("method", .text "query"), ("args", .array [r.query.toJson])]

/-- Requests of one round are all the same. -/
def requests (c : HttpClient) (r : Round) : List HttpRequest :=
  List.replicate (r.repeats + 1) (r.request c)

def attempt (r : Round) : Cascade.Attempt := ⟨⟨r.query, r.outcome.reply⟩, r.shape⟩

end Round

/-- The rounds that a script makes of some shapes, one after another, where requests are repeated
after outcomes of a kind. -/
noncomputable def Script.rounds (p : ScriptedOutcome → Prop) (limit : ℕ) :
    Script → List (WireShape × QueryDescription) → List Round
  | _, [] => []
  | script, (shape, query) :: shapes =>
    let n := repeats p limit script
    ⟨shape, query, n, (script.get n).outcome⟩ :: rounds p limit (script.drop (n + 1)) shapes

theorem Script.rounds_congr {p p' : ScriptedOutcome → Prop} (limit : ℕ)
    (shapes : List (WireShape × QueryDescription)) :
    ∀ script : Script, (∀ n, p (script.get n) ↔ p' (script.get n)) →
      script.rounds p limit shapes = script.rounds p' limit shapes := by
  induction shapes with
  | nil => exact fun script h => rfl
  | cons x shapes ih =>
    intro script h
    have hnext := ih (script.drop (repeats p' limit script + 1)) fun n => h _
    rw [rounds, rounds, repeats_congr h, hnext]

namespace Scripts

variable (now : Scripts → Nat) (c : HttpClient)

theorem query_eq (q : QueryDescription) (w : Scripts) :
    let n := (w.outcomes "query").repeats ScriptedOutcome.IsRepeated c.config.maxRetries
    (c.backend (transport now)).query q w =
      (((w.outcomes "query").get n).outcome.reply, w.after (c.request "query" [q.toJson]) n) := by
  refine (c.call_ok (transport now) "query" [q.toJson] w).trans ?_
  rw [invoke_eq]
  rfl

/-- The attempts of a cascade over a script are rounds, and nothing but their requests is sent. -/
theorem rounds_of_replies (attempts : List Cascade.Attempt) :
    ∀ w t : Scripts,
      (c.backend (transport now)).replies (attempts.map fun a => a.query) w =
        (attempts.map fun a => a.answer, t) →
      let rounds := (w.outcomes "query").rounds ScriptedOutcome.IsRepeated c.config.maxRetries
        (attempts.map Cascade.Attempt.shaped)
      rounds.map Round.attempt = attempts ∧
        t.sent = w.sent ++ rounds.flatMap (Round.requests c) := by
  induction attempts with
  | nil =>
    rintro w t ⟨⟩
    simp [Script.rounds]
  | cons a attempts ih =>
    intro w t h
    rw [List.map_cons, Backend.replies_cons (query_eq now c a.query w)] at h
    obtain ⟨hanswers, ht⟩ := Prod.ext_iff.mp h
    obtain ⟨hanswer, hanswers⟩ := List.cons.inj hanswers
    obtain ⟨hrounds, hsent⟩ := ih _ t (Prod.ext hanswers ht)
    have hscript := outcomes_after_self w (c.request "query" [a.query.toJson])
    simp only [c.method_request] at hscript
    rw [hscript] at hrounds hsent
    constructor
    · rw [List.map_cons, Cascade.Attempt.shaped, Script.rounds, List.map_cons, hrounds]
      simp only [Round.attempt, hanswer]
    · rw [hsent, List.map_cons, Cascade.Attempt.shaped, Script.rounds, List.flatMap_cons]
      exact List.append_assoc ..

end Scripts

/-- How a search ends after some rounds, with the applicable shapes that were not submitted. -/
inductive Settled :
    List Round → List (WireShape × QueryDescription) → Except SearchError Execution → Prop
  | accepted {refused : List Round} {last : Round} {status : ℕ} {body : String}
      (left : List (WireShape × QueryDescription)) (refusals : ∀ r ∈ refused, r.outcome.IsRefused)
      (outcome : last.outcome = .answered status body) (success : 200 ≤ status ∧ status < 300) :
      Settled (refused ++ [last]) left <| .ok
        { blocks := Envelope.blocks (HttpOutcome.valueOf body)
          attempted := (refused ++ [last]).map Round.shape
          used := last.shape
          fallback := !refused.isEmpty }
  | failed {refused : List Round} {last : Round} {reason : String}
      (left : List (WireShape × QueryDescription)) (refusals : ∀ r ∈ refused, r.outcome.IsRefused)
      (fatal : ¬last.outcome.IsAccepted ∧ ¬last.outcome.IsRefused)
      (answer : last.outcome.reply = .error (.transport reason)) :
      Settled (refused ++ [last]) left (.error (.transport reason))
  | exhausted {refused : List Round} {last : Round} {status : ℕ} {body : String}
      (refusals : ∀ r ∈ refused, r.outcome.IsRefused)
      (outcome : last.outcome = .answered status body) (refusal : last.outcome.IsRefused) :
      Settled (refused ++ [last]) []
        (.error (.rejected (RequestError.rejected status body).message))
  | inapplicable : Settled [] [] (.error (.invalidQuery .noShapeApplies))

/-- Rounds that a cascade sees as rejections followed by one more attempt. -/
theorem rounds_of_attempts {rounds : List Round} {refused : List Cascade.Attempt}
    {last : Cascade.Attempt} (h : rounds.map Round.attempt = refused ++ [last])
    (refusals : ∀ a ∈ refused, a.IsRefused) :
    ∃ before r, rounds = before ++ [r] ∧ r.attempt = last ∧ before.isEmpty = refused.isEmpty ∧
      ∀ r ∈ before, r.outcome.IsRefused := by
  obtain ⟨before, lasts, rfl, rfl, hlasts⟩ := List.map_eq_append_iff.mp h
  obtain ⟨r, rfl, hr⟩ := List.map_eq_singleton_iff.mp hlasts
  refine ⟨before, r, rfl, hr, by simp, ?_⟩
  intro x hx
  obtain ⟨reason, hreply⟩ := refusals x.attempt (List.mem_map_of_mem hx)
  exact HttpOutcome.isRefused_of_reply hreply

theorem settled_of_ended {rounds : List Round} {left : List (WireShape × QueryDescription)}
    {outcome : Except SearchError Execution}
    (h : Cascade.Ended (rounds.map Round.attempt) left outcome) : Settled rounds left outcome := by
  generalize hattempts : rounds.map Round.attempt = attempts at h
  cases h with
  | inapplicable =>
    rw [List.map_eq_nil_iff.mp hattempts]
    exact .inapplicable
  | accepted left refusals answer =>
    obtain ⟨before, r, rfl, rfl, hempty, hbefore⟩ := rounds_of_attempts hattempts refusals
    obtain ⟨status, body, ho, hstatus, hbody⟩ := HttpOutcome.eq_answered_of_reply answer
    have hshapes : (before ++ [r]).map Round.shape =
        ((before ++ [r]).map Round.attempt).map Cascade.Attempt.shape := by
      simp [Round.attempt]
    rw [← hbody, ← hempty, ← hattempts, ← hshapes]
    exact .accepted left hbefore ho hstatus
  | failed left refusals answer fatal =>
    obtain ⟨before, r, rfl, rfl, -, hbefore⟩ := rounds_of_attempts hattempts refusals
    obtain ⟨hother, reason, rfl⟩ := HttpOutcome.other_of_reply answer fatal
    exact .failed left hbefore hother answer
  | exhausted refusals answer refusal =>
    obtain ⟨before, r, rfl, rfl, -, hbefore⟩ := rounds_of_attempts hattempts refusals
    obtain ⟨reason, rfl⟩ := (SearchError.isRejection_iff _).mp refusal
    have hrefused := HttpOutcome.isRefused_of_reply answer
    obtain ⟨status, body, ho, hreply⟩ := HttpOutcome.reply_of_isRefused hrefused
    rw [show r.outcome.reply = _ from answer, Except.error.injEq] at hreply
    rw [hreply]
    exact .exhausted hbefore ho hrefused

/-- The requests by which a client submits a query in the shapes of a chain, where it repeats them
after outcomes of a kind, and what the cascade ends in. -/
def HttpClient.Submitted (c : HttpClient) (p : ScriptedOutcome → Prop) (script : Script)
    (q : QueryDescription) (chain : List WireShape) (requests : List HttpRequest)
    (outcome : Except SearchError Execution) : Prop :=
  ∃ submitted left, Cascade.applicable q chain = submitted ++ left ∧
    requests = (script.rounds p c.config.maxRetries submitted).flatMap (Round.requests c) ∧
    Settled (script.rounds p c.config.maxRetries submitted) left outcome

theorem Scripts.execute_submitted (now : Scripts → Nat) (c : HttpClient) (q : QueryDescription)
    (chain : List WireShape) (w : Scripts) :
    ∃ requests outcome t,
      Cascade.execute (c.backend (transport now)) q chain w = (outcome, t) ∧
      t.sent = w.sent ++ requests ∧
      c.Submitted ScriptedOutcome.IsRepeated (w.outcomes "query") q chain requests outcome := by
  obtain ⟨attempts, left, outcome, t, happ, hrep, hsub, hend⟩ :=
    Cascade.submit_ended (c.backend (transport now)) q chain [] [] _ w Cascade.pending_nil
  obtain ⟨hrounds, hsent⟩ := rounds_of_replies now c attempts w t hrep
  rw [List.nil_append, ← hrounds] at hend
  exact ⟨_, outcome, t, hsub, hsent, attempts.map Cascade.Attempt.shaped, left, happ, rfl,
    settled_of_ended hend⟩

/-- Over every script in which the pauses go on, a search submits a first part of the applicable
shapes. Each gets as many equal requests as transient outcomes come next, but at most as many as
there are retries, and one more; the outcome of the last one alone decides whether the next shape is
submitted, and what the search ends in. -/
theorem execute_script (now : Scripts → Nat) (c : HttpClient) (q : QueryDescription)
    (chain : List WireShape) (w : Scripts) (patient : (w.outcomes "query").NeverGivesUp) :
    ∃ requests outcome t,
      Cascade.execute (c.backend (Scripts.transport now)) q chain w = (outcome, t) ∧
      t.sent = w.sent ++ requests ∧
      c.Submitted ScriptedOutcome.IsTransient (w.outcomes "query") q chain requests outcome := by
  obtain ⟨requests, outcome, t, hrun, hsent, submitted, left, happ, hrequests, hend⟩ :=
    Scripts.execute_submitted now c q chain w
  have hagain (n : ℕ) : ((w.outcomes "query").get n).IsRepeated ↔
      ((w.outcomes "query").get n).IsTransient := and_iff_left (patient n)
  rw [Script.rounds_congr c.config.maxRetries submitted _ hagain] at hrequests hend
  exact ⟨requests, outcome, t, hrun, hsent, submitted, left, happ, hrequests, hend⟩

def oneRetry : HttpClient := ⟨{ ClientConfig.standard "http://b" with maxRetries := 1 }, "http://b"⟩

/-- Every method is overloaded first, then refuses, and then answers. -/
def overloaded : Scripts where
  outcomes _ := .cons ⟨.answered 503 "", true⟩ <| .cons ⟨.answered 422 "", true⟩ <|
    .const ⟨.answered 200 "[]", true⟩
  sent := []
  goesOn := true

def overloadedRun : Except SearchError Execution × Scripts :=
  Cascade.execute (oneRetry.backend (Scripts.transport fun _ => 0)) (.ofTag "task" [] .standard)
    Cascade.standard overloaded

theorem execute_script_overloaded :
    (overloaded.outcomes "query").NeverGivesUp ∧ overloadedRun.2.sent.length = 3 ∧
      ∃ requests outcome t, overloadedRun = (outcome, t) ∧ t.sent = requests ∧
        oneRetry.Submitted ScriptedOutcome.IsTransient (overloaded.outcomes "query")
          (.ofTag "task" [] .standard) Cascade.standard requests outcome := by
  have patient : (overloaded.outcomes "query").NeverGivesUp
    | 0 => rfl
    | 1 => rfl
    | _ + 2 => rfl
  refine ⟨patient, by decide +kernel, ?_⟩
  exact execute_script (fun _ => 0) oneRetry (.ofTag "task" [] .standard) Cascade.standard
    overloaded patient

end NoteSearch
