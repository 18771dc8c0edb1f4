import NoteSearch.Http.Client

/-!
# Transcripts

A run over a transcript gets the outcomes in it, one after another, each at the time when it came.
Where they end, the transcript keeps the first request that has no outcome and the pause before it,
so that the request can be made and the run repeated over a longer transcript.
-/

namespace NoteSearch

structure Transcript where
  outcomes : List (Nat × HttpOutcome)
  unanswered : Option HttpRequest
  time : Nat
  pauseMillis : Nat
deriving DecidableEq, Repr

namespace Transcript

def ofOutcomes (outcomes : List (Nat × HttpOutcome)) (time : Nat) : Transcript :=
  ⟨outcomes, none, time, 0⟩

/-- Stands for an outcome that is not there; it is never worth another attempt. -/
def blank : HttpOutcome := .answered 400 ""

def send (request : HttpRequest) : StateM Transcript HttpOutcome := fun t =>
  match t.outcomes, t.unanswered with
  | (time, outcome) :: outcomes, _ => (outcome, { t with outcomes, time, pauseMillis := 0 })
  | [], none => (blank, { t with unanswered := some request })
  | [], some _ => (blank, t)

def pause (backoff : Backoff) : StateM Transcript Bool := fun t =>
  if backoff.allows t.time then (true, { t with pauseMillis := backoff.millis }) else (false, t)

def transport : Transport Transcript := ⟨send, time, pause⟩

@[simp] theorem send_ofOutcomes_cons (r : HttpRequest) (o : HttpOutcome) (came time : Nat)
    (os : List (Nat × HttpOutcome)) :
    send r (ofOutcomes ((came, o) :: os) time) = (o, ofOutcomes os came) := rfl

@[simp] theorem send_ofOutcomes_nil (r : HttpRequest) (time : Nat) :
    send r (ofOutcomes [] time) = (blank, ⟨[], some r, time, 0⟩) := rfl

/-- Only the first request without an outcome is kept. -/
theorem send_unanswered (r first : HttpRequest) (time millis : Nat) :
    send r ⟨[], some first, time, millis⟩ = (blank, ⟨[], some first, time, millis⟩) := rfl

end Transcript
end NoteSearch
