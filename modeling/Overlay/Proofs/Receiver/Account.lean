import Overlay.Proofs.Link.Prompt
import Overlay.Proofs.Transfer.Work

/-!
# The account of a receiver

A receiver never pauses and has only so much left to say (`diligent`), so over a prompt link it
goes on without a lapse until its session is over or everything that has arrived is heard.

Only a lapse ends a transfer before its session is over (`Failed.lapsed`), and a receiver that
wants to read has not heard the end of its session (`Conduct.not_outcome_of_read`).
-/

set_option autoImplicit false

namespace Overlay.Receiver

open Party (Diligent)
open Session (bound reading)
open Transfer (receiverWork receiverWork_heard receiverWork_said)

section Diligence

variable {config : Config} {state : State} {now : Nat}

theorem ne_pause {duration : Nat} {resume : Nat → State} :
    party config state now ≠ .pause duration resume := by
  intro move
  obtain ⟨session, destination, started, stage⟩ := state
  cases stage with
  | announcing | listening | reading | replying _ _ | finished _ => cases move

theorem asks_of_read {limit timeout : Nat} {resume : Nat → Except Lapse Bytes → State}
    (move : party config state now = .read limit timeout resume) : 0 < limit := by
  obtain ⟨session, destination, started, stage⟩ := state
  cases stage with
  | announcing | replying _ _ | finished _ => cases move
  | listening | reading =>
      cases move
      decide

theorem diligent (config : Config) : Diligent (party config) receiverWork where
  restless := ne_pause
  asks := asks_of_read
  heard := receiverWork_heard
  said step := by
    have := receiverWork_said step
    omega

end Diligence

section Account

variable {capacity : UInt32} {before : Buffer} {heard rest : Bytes} {outcome : Session.Outcome}

theorem reading_append_of_outcome
    (stops : (reading capacity before heard).session.stage.outcome = some outcome) (rest : Bytes) :
    reading capacity before (heard ++ rest) = reading capacity before heard := by
  refine Session.reading_append_of_finished (fun takes => ?_) rest
  rw [outcome_eq_none_iff.mpr takes] at stops
  cases stops

/-- A receiver that wants to read has not heard the end of its session. -/
theorem Conduct.not_outcome_of_read {config : Config} {started now limit timeout : Nat}
    {state : State} {spoken : Bytes} {resume : Nat → Except Lapse Bytes → State}
    (conduct : Conduct capacity before started state heard spoken)
    (move : party config state now = .read limit timeout resume) :
    (reading capacity before heard).session.stage.outcome = none := by
  cases conduct with
  | announcing _ | replying _ _ _ _ | finished _ _ => cases move
  | listening _ => rfl
  | awaiting _ _ takes => exact outcome_eq_none_iff.mpr takes

/-- Only a lapse ends a transfer before its session is over. -/
theorem Failed.lapsed {event : Party.Event} {started : Nat} {state : State} {spoken : Bytes}
    (failed : Failed capacity before started event state heard spoken) : event.Lapsed := by
  cases failed with
  | unheard _ _ _ | unsaid _ _ _ _ _ => exact trivial

end Account

end Overlay.Receiver
