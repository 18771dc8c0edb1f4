import Mathlib.Data.ENat.Lattice
import Mathlib.Data.Stream.Init
import Mathlib.Logic.Function.Basic
import NoteSearch.Http.Client

/-!
# Scripts of outcomes

In a scripted world every method of the backend has a script of what comes of its requests, and all
requests are kept. A request is sent once, and once more for each transient outcome that comes next
and is followed by a pause, within the limit of the client.
-/

namespace NoteSearch

/-- Too many requests, a fault of the server, or no connection. -/
def HttpOutcome.IsTransient : HttpOutcome → Prop
  | answered status _ => status = 429 ∨ 500 ≤ status ∧ status < 600
  | unreachable _ => True

/-- The failures that a client repeats are the transient ones. -/
theorem HttpOutcome.interpret_error_iff (o : HttpOutcome) :
    (∃ e, o.interpret = .error e ∧ e.isTransient = true) ↔ o.IsTransient := by
  cases o with
  | unreachable reason => exact ⟨fun _ => trivial, fun _ => ⟨_, rfl, rfl⟩⟩
  | answered status body =>
    simp only [interpret, IsTransient]
    split_ifs <;> simp [RequestError.isTransient] <;> omega

namespace HttpClient

variable {ω : Type} {transport : Transport ω} {r : HttpRequest} {limit : ℕ} {b : Backoff} {w : ω}

theorem attempt_succ :
    attempt transport r (limit + 1) b w =
      match (transport.send r w).1.interpret with
      | .ok value => (.ok value, (transport.send r w).2)
      | .error e =>
        if e.isTransient then
          match transport.pause b (transport.send r w).2 with
          | (true, w) => attempt transport r limit b.next w
          | (false, w) => (.error e, w)
        else (.error e, (transport.send r w).2) := rfl

theorem attempt_of_pause (h : (transport.send r w).1.IsTransient)
    (hpause : (transport.pause b (transport.send r w).2).1 = true) :
    attempt transport r (limit + 1) b w =
      attempt transport r limit b.next (transport.pause b (transport.send r w).2).2 := by
  obtain ⟨e, he, htransient⟩ := (HttpOutcome.interpret_error_iff _).mpr h
  rcases hp : transport.pause b (transport.send r w).2 with ⟨goesOn, t⟩
  obtain rfl : goesOn = true := by rwa [hp] at hpause
  simp only [attempt_succ, he, htransient, if_true, hp]

theorem attempt_of_giving_up (h : (transport.send r w).1.IsTransient)
    (hpause : (transport.pause b (transport.send r w).2).1 = false) :
    attempt transport r (limit + 1) b w =
      ((transport.send r w).1.interpret, (transport.pause b (transport.send r w).2).2) := by
  obtain ⟨e, he, htransient⟩ := (HttpOutcome.interpret_error_iff _).mpr h
  rcases hp : transport.pause b (transport.send r w).2 with ⟨goesOn, t⟩
  obtain rfl : goesOn = false := by rwa [hp] at hpause
  simp only [attempt_succ, he, htransient, if_true, hp]

theorem attempt_of_final (h : ¬(transport.send r w).1.IsTransient) :
    attempt transport r limit b w =
      ((transport.send r w).1.interpret, (transport.send r w).2) := by
  cases limit with
  | zero => rfl
  | succ limit =>
    cases ho : (transport.send r w).1.interpret with
    | ok value => simp only [attempt_succ, ho]
    | error e =>
      have he : ¬e.isTransient = true := fun he =>
        h ((HttpOutcome.interpret_error_iff _).mp ⟨e, ho, he⟩)
      simp only [attempt_succ, ho, if_neg he]

variable (transport) (c : HttpClient) (method : String) (args : List Json)

theorem call_eq {α : Type} (read : Json → Except SearchError α) (w : ω) :
    c.call transport method args read w =
      (((c.invoke transport method args w).1.mapError RequestError.toSearchError).bind read,
        (c.invoke transport method args w).2) := by
  unfold call
  rcases c.invoke transport method args w with ⟨e | value, t⟩
  · rfl
  · rfl

/-- A call whose answer is taken as it is. -/
theorem call_ok (w : ω) : c.call transport method args .ok w =
    ((c.invoke transport method args w).1.mapError RequestError.toSearchError,
      (c.invoke transport method args w).2) := by
  rw [call_eq]
  rcases (c.invoke transport method args w).1 with e | value
  · rfl
  · rfl

end HttpClient

def HttpRequest.method (r : HttpRequest) : String :=
  ((r.body.get? "method").bind Json.text?).getD ""

@[simp] theorem HttpClient.method_request (c : HttpClient) (method : String) (args : List Json) :
    (c.request method args).method = method := by
  simp [HttpClient.request, HttpRequest.method, Json.get?, Json.lookup?, Json.text?]

/-- What comes of a request, and whether the client that gets it may pause and go on or has to give
up. -/
structure ScriptedOutcome where
  outcome : HttpOutcome
  goesOn : Bool

namespace ScriptedOutcome

def IsTransient (o : ScriptedOutcome) : Prop := o.outcome.IsTransient

def IsRepeated (o : ScriptedOutcome) : Prop := o.outcome.IsTransient ∧ o.goesOn = true

end ScriptedOutcome

abbrev Script := Stream' ScriptedOutcome

namespace Script

def NeverGivesUp (script : Script) : Prop := ∀ n, (script.get n).goesOn = true

variable {p p' : ScriptedOutcome → Prop} {script : Script}

/-- How many outcomes of a kind come next; there may be no end of them. -/
noncomputable def leading (p : ScriptedOutcome → Prop) (script : Script) : ℕ∞ :=
  ⨅ n : ℕ, ⨅ _ : ¬p (script.get n), (n : ℕ∞)

theorem leading_of_head (h : p script.head) :
    leading p script = leading p script.tail + 1 := by
  have hhead : ⨅ _ : ¬p (script.get 0), ((0 : ℕ) : ℕ∞) = ⊤ := iInf_neg (not_not.mpr h)
  rw [leading, ← inf_iInf_nat_succ, hhead, top_inf_eq]
  simp [leading, ENat.iInf_add]

theorem leading_of_not_head (h : ¬p script.head) : leading p script = 0 := by
  have hzero : leading p script ≤ (0 : ℕ) := iInf₂_le 0 h
  simpa using hzero

/-- How often a request is repeated: once for each outcome of a kind that comes next, within the
limit. -/
noncomputable def repeats (p : ScriptedOutcome → Prop) (limit : ℕ) (script : Script) : ℕ :=
  (min (leading p script) limit).toNat

@[simp] theorem repeats_zero (p : ScriptedOutcome → Prop) (script : Script) :
    repeats p 0 script = 0 := by
  simp [repeats]

theorem repeats_of_head (h : p script.head) (limit : ℕ) :
    repeats p (limit + 1) script = repeats p limit script.tail + 1 := by
  have hle : min (leading p script.tail) (limit : ℕ∞) ≠ ⊤ :=
    ne_top_of_le_ne_top (ENat.natCast_ne_top limit) (min_le_right _ _)
  rw [repeats, leading_of_head h, Nat.cast_succ, min_add_add_right,
    ENat.toNat_add hle ENat.one_ne_top, ENat.toNat_one]
  rfl

theorem repeats_of_not_head (h : ¬p script.head) (limit : ℕ) : repeats p limit script = 0 := by
  simp [repeats, leading_of_not_head h]

theorem repeats_congr (h : ∀ n, p (script.get n) ↔ p' (script.get n)) (limit : ℕ) :
    repeats p limit script = repeats p' limit script := by
  simp only [repeats, leading, h]

end Script

/-- Each method has a script of its own. Kept are all requests, and whether a client may go on after
the last of them. -/
structure Scripts where
  outcomes : String → Script
  sent : List HttpRequest
  goesOn : Bool

namespace Scripts

/-- The world after a request is sent and repeated so many times. -/
def after (w : Scripts) (r : HttpRequest) (repeats : ℕ) : Scripts where
  outcomes :=
    Function.update w.outcomes r.method ((w.outcomes r.method).drop (repeats + 1))
  sent := w.sent ++ List.replicate (repeats + 1) r
  goesOn := ((w.outcomes r.method).get repeats).goesOn

def send (r : HttpRequest) : StateM Scripts HttpOutcome := fun w =>
  ((w.outcomes r.method).head.outcome, w.after r 0)

def transport (now : Scripts → Nat) : Transport Scripts :=
  { send, now, pause := fun _ w => (w.goesOn, w) }

@[simp] theorem outcomes_after_self (w : Scripts) (r : HttpRequest) (n : ℕ) :
    (w.after r n).outcomes r.method = (w.outcomes r.method).drop (n + 1) :=
  Function.update_self ..

theorem outcomes_after_of_ne {method : String} {r : HttpRequest} (h : method ≠ r.method)
    (w : Scripts) (n : ℕ) : (w.after r n).outcomes method = w.outcomes method :=
  Function.update_of_ne h ..

theorem after_after (w : Scripts) (r : HttpRequest) (n : ℕ) :
    (w.after r 0).after r n = w.after r (n + 1) := by
  simp only [after, Function.update_self, Function.update_idem, List.append_assoc]
  rfl

variable (now : Scripts → Nat)

/-- The last outcome of a request and its repetitions is the answer. -/
theorem attempt_eq (r : HttpRequest) (limit : ℕ) : ∀ (b : Backoff) (w : Scripts),
    let n := Script.repeats ScriptedOutcome.IsRepeated limit (w.outcomes r.method)
    HttpClient.attempt (transport now) r limit b w =
      (((w.outcomes r.method).get n).outcome.interpret, w.after r n) := by
  induction limit with
  | zero =>
    intro b w
    rw [Script.repeats_zero]
    rfl
  | succ limit ih =>
    intro b w
    by_cases htransient : (w.outcomes r.method).head.outcome.IsTransient
    · have hsend : ((transport now).send r w).1.IsTransient := htransient
      cases hpause : (w.outcomes r.method).head.goesOn with
      | true =>
        rw [Script.repeats_of_head ⟨htransient, hpause⟩, HttpClient.attempt_of_pause hsend hpause]
        refine (ih b.next (w.after r 0)).trans ?_
        rw [outcomes_after_self, after_after]
        rfl
      | false =>
        have hlast : ¬(w.outcomes r.method).head.IsRepeated := fun h => by
          rw [h.2] at hpause
          cases hpause
        rw [Script.repeats_of_not_head hlast, HttpClient.attempt_of_giving_up hsend hpause]
        rfl
    · have hsend : ¬((transport now).send r w).1.IsTransient := htransient
      have hlast : ¬(w.outcomes r.method).head.IsRepeated := fun h => htransient h.1
      rw [Script.repeats_of_not_head hlast, HttpClient.attempt_of_final hsend]
      rfl

variable (c : HttpClient)

theorem invoke_eq (method : String) (args : List Json) (w : Scripts) :
    let n := Script.repeats ScriptedOutcome.IsRepeated c.config.maxRetries (w.outcomes method)
    c.invoke (transport now) method args w =
      (((w.outcomes method).get n).outcome.interpret, w.after (c.request method args) n) := by
  rw [HttpClient.invoke, attempt_eq, c.method_request]

/-- A call leaves the world after its request and some repetitions. -/
theorem call_after {α : Type} (method : String) (args : List Json)
    (read : Json → Except SearchError α) (w : Scripts) :
    (c.call (transport now) method args read w).2 = w.after (c.request method args)
      (Script.repeats ScriptedOutcome.IsRepeated c.config.maxRetries (w.outcomes method)) := by
  rw [HttpClient.call_eq, invoke_eq]

end Scripts
end NoteSearch
