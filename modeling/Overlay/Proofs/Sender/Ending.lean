import Overlay.Proofs.Link.Runs
import Overlay.Proofs.Sender.Conduct
import Overlay.Proofs.Transfer.Work

/-!
# Every transfer ends

A lapse ends a transfer (`failed_of_lapse`), and without lapses a sender has only so much left to
say (`limited`).  So whatever a script does to it, a sender comes to an end
(`exists_course_to_end`).
-/

set_option autoImplicit false

namespace Overlay.Sender

open Party (Advance Course Event Limited Step)
open Transfer (senderWork senderWork_heard senderWork_said)

section Steps

variable {config : Config} {image : Bytes} {state next : State} {event : Event}

theorem ne_pause {now duration : Nat} {resume : Nat → State} :
    party config image state now ≠ .pause duration resume := by
  intro move
  obtain ⟨started, progress, stage⟩ := state
  cases stage with
  | awaitReady _ | sendSize | awaitSizeAck | readCapacity _ | sendChecksum | streaming _ _
  | awaitVerify _ | readVerify _ _ | finished _ => cases move

theorem limited (config : Config) (image : Bytes) :
    Limited (party config image) fun state => senderWork image state.stage where
  restless := ne_pause
  heard := senderWork_heard
  said step := by
    have := senderWork_said step
    omega

/-- A lapse ends a transfer, whatever the sender is doing. -/
theorem failed_of_lapse (step : Step (party config image) state event next)
    (lapses : event.Lapsed) : next.Failed := by
  obtain ⟨started, progress, stage⟩ := state
  cases stage with
  | finished _ => exact (step.not_of_done fun _ => ⟨_, rfl⟩).elim
  | awaitReady deadline =>
      obtain ⟨_, rfl, _⟩ | ⟨_, _, rfl, _⟩ | ⟨_, failed⟩ := of_awaitReady step
      · exact lapses.elim
      · exact lapses.elim
      · exact failed
  | awaitSizeAck | readCapacity _ | awaitVerify _ | readVerify _ _ =>
      obtain ⟨_, _, _, _, rfl, _⟩ | ⟨_, _, _, rfl⟩ :=
        step.of_read (fun _ => config.phaseTimeout) fun _ => rfl
      · exact lapses.elim
      · exact ⟨_, rfl⟩
  | sendSize | sendChecksum | streaming _ _ =>
      obtain ⟨_, rfl, _⟩ | ⟨_, _, _, _, _, rfl⟩ :=
        step.of_write (fun _ => config.phaseTimeout) fun _ => rfl
      · exact lapses.elim
      · exact ⟨_, rfl⟩

theorem done_of_stage {result : Except Fault Report} (stops : state.stage = .finished result)
    (now : Nat) : party config image state now = .done (result, state.progress) := by
  rw [party, stops]

end Steps

/-- **Whatever a script does to it, a sender comes to an end.** -/
theorem exists_course_to_end (config : Config) (image : Bytes) (state : State)
    (link : ScriptedLink) :
    ∃ events final after result, Course (party config image) state link events final after ∧
      final.stage = .finished result := by
  obtain ⟨events, final, after, course, _, stalled⟩ :=
    (limited config image).exists_course state link
  cases stalled with
  | @done result stops => exact ⟨events, final, after, result.1, course, stage_of_done stops⟩
  | lapsed lapses last =>
      obtain ⟨fault, stops⟩ := failed_of_lapse last.effect.step lapses
      exact ⟨_, _, _, _, .step course last, stops⟩

end Overlay.Sender
