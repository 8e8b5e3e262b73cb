import Overlay.Proofs.Link.Embedding
import Overlay.Proofs.Supervisor.Validity

/-!
# Serving session after session

A supervisor that serves holds one session after the other, on one link and with one device: each
of them hears what the one before has left unread, and runs what it receives on what the one before
has left behind (`Sessions`).  The end of each of them is judged, and the judgement says whether
there is another one (`Judged`).

Serving is nothing else: it comes to an end over a script exactly when there are such sessions,
with the judgement of the last of them as the end (`comesTo_serving_iff`).

A code region that memory does not hold is nowhere to receive into.  Every session of a supervisor
with such a region is over before it has said anything, with the same fault.  Asked for one
session, the supervisor ends with this fault (`comesTo_of_missing`), and otherwise it never ends
(`runScript_of_missing`).
-/

set_option autoImplicit false

namespace Overlay.Supervisor

open Party (Advance Course Embeds)

variable {σ : Type}

/-! ## Sessions in a row -/

/-- Sessions in a row, each of them held with what the one before has left, and what they end
in. -/
inductive Sessions :
    List (Except Fault Exit) → Supervisor σ → ScriptedLink → Supervisor σ → ScriptedLink →
      Prop where
  | none (supervisor : Supervisor σ) (link : ScriptedLink) :
      Sessions [] supervisor link supervisor link
  | held {result : Except Fault Exit} {results : List (Except Fault Exit)}
      {supervisor between last : Supervisor σ} {link middle after : ScriptedLink}
      (first : supervisor.sessionParty.ComesTo (supervisor.receive link.clock) link
        (result, between) middle)
      (rest : Sessions results between middle last after) :
      Sessions (result :: results) supervisor link last after

/-- What sessions end in, judged one after the other, up to the one that ends the serving. -/
inductive Judged (once : Bool) : Stats → List (Except Fault Exit) → Except Fault Stats → Prop where
  | stop {stats : Stats} {result : Except Fault Exit} {ended : Except Fault Stats}
      (stops : stats.judge once result = .stop ended) : Judged once stats [result] ended
  | again {stats more : Stats} {result : Except Fault Exit} {results : List (Except Fault Exit)}
      {ended : Except Fault Stats} (goesOn : stats.judge once result = .again more)
      (rest : Judged once more results ended) : Judged once stats (result :: results) ended

/-! ## One session -/

section Session

variable {once : Bool} {stats : Stats} {supervisor next : Supervisor σ}
variable {receiver : Receiver.State} {link after : ScriptedLink} {result : Except Fault Exit}
variable {outcome : Except Fault Received}

theorem comesTo_session_iff :
    supervisor.sessionParty.ComesTo receiver link (result, next) after ↔
      ∃ events final outcome,
        Course (Receiver.party supervisor.receiver) receiver link events final after ∧
          final.stage = .finished outcome ∧
          supervisor.engaged.conclude outcome final.destination = (result, next) := by
  refine Party.comesTo_concluding_iff.trans ⟨?_, ?_⟩
  · rintro ⟨⟨outcome, received⟩, comes, concluded⟩
    obtain ⟨events, final, course, stops⟩ := comes.exists_course
    obtain ⟨stage, rfl⟩ := Receiver.stage_of_done stops
    exact ⟨events, final, outcome, course, stage, concluded⟩
  · rintro ⟨events, final, outcome, course, stage, concluded⟩
    refine ⟨(outcome, final.destination), .of_ended course ?_, concluded⟩
    rw [Receiver.party, stage]

theorem embeds_receiver (once : Bool) (stats : Stats) (supervisor : Supervisor σ) :
    Embeds (servingParty once) (Receiver.party supervisor.receiver)
      (fun _ receiver => .session stats supervisor receiver) :=
  fun _ _ => .inr ⟨_, rfl⟩

theorem course_of_receiver (once : Bool) (stats : Stats) {events : List Party.Event}
    (course : Course (Receiver.party supervisor.receiver) (supervisor.receive link.clock) link
      events receiver after) :
    Course (servingParty once) (Serving.next stats supervisor link.clock) link events
      (.session stats supervisor.engaged receiver) after := by
  rw [← receiver_engaged] at course
  exact (embeds_receiver once stats supervisor.engaged).course course

/-- At the end of a session it is concluded, at the same time and with the link left alone. -/
theorem advance_of_finished (once : Bool) (stats : Stats) (supervisor : Supervisor σ)
    (link : ScriptedLink) (stage : receiver.stage = .finished outcome) :
    Advance (servingParty once) (.session stats supervisor receiver) link .paused
      (Serving.conclude once stats supervisor outcome receiver.destination link.clock) link := by
  have move : servingParty once (.session stats supervisor receiver) link.clock =
      .pause 0 fun now =>
        Serving.conclude once stats supervisor outcome receiver.destination now := by
    rw [servingParty, Receiver.party, stage]
    rfl
  exact .paused move

theorem conclude_again {received : Buffer} {more : Stats}
    (concluded : supervisor.conclude outcome received = (result, next))
    (goesOn : stats.judge once result = .again more) (now : Nat) :
    Serving.conclude once stats supervisor outcome received now = .next more next now := by
  simp only [Serving.conclude, concluded, goesOn]

theorem conclude_stop {received : Buffer} {ended : Except Fault Stats}
    (concluded : supervisor.conclude outcome received = (result, next))
    (stops : stats.judge once result = .stop ended) (now : Nat) :
    Serving.conclude once stats supervisor outcome received now = .over next ended := by
  simp only [Serving.conclude, concluded, stops]

end Session

/-! ## Whole runs -/

section Runs

variable {once : Bool} {stats : Stats} {supervisor last : Supervisor σ} {link after : ScriptedLink}
variable {results : List (Except Fault Exit)} {ended : Except Fault Stats}

theorem comesTo_of_sessions (sessions : Sessions results supervisor link last after)
    (judged : Judged once stats results ended) :
    (servingParty once).ComesTo (Serving.next stats supervisor link.clock) link (ended, last)
      after := by
  induction judged generalizing supervisor link with
  | @stop stats _ _ stops =>
      cases sessions with
      | held first rest =>
          cases rest
          obtain ⟨_, _, _, course, stage, concluded⟩ := comesTo_session_iff.mp first
          have served := (course_of_receiver once stats course).step
            (advance_of_finished once stats supervisor.engaged after stage)
          rw [conclude_stop concluded stops] at served
          exact .of_ended served rfl
  | @again stats _ _ _ _ goesOn _ ih =>
      cases sessions with
      | @held _ _ _ _ _ _ middle _ first rest =>
          obtain ⟨_, _, _, course, stage, concluded⟩ := comesTo_session_iff.mp first
          have served := (course_of_receiver once stats course).step
            (advance_of_finished once stats supervisor.engaged middle stage)
          rw [conclude_again concluded goesOn] at served
          exact .of_course served (ih rest)

theorem sessions_of_runScript {fuel : Nat}
    (runs : (servingParty once).runScript fuel (Serving.next stats supervisor link.clock) link =
      some ((ended, last), after)) :
    ∃ results, Sessions results supervisor link last after ∧ Judged once stats results ended := by
  -- Every session takes at least the move at its end.
  induction fuel using Nat.strongRecOn generalizing stats supervisor link with
  | ind fuel ih =>
      obtain ⟨events, receiver, between, ⟨outcome, received⟩, fewer, course, stops, total, runs⟩ :=
        (embeds_receiver once stats supervisor.engaged).exists_course runs
      rw [receiver_engaged] at course stops
      obtain ⟨stage, rfl⟩ := Receiver.stage_of_done stops
      cases fewer with
      | zero => cases runs
      | succ fewer =>
          rw [Party.runScript_of_advance
            (advance_of_finished once stats supervisor.engaged between stage)] at runs
          rcases concluded : supervisor.engaged.conclude outcome receiver.destination with
            ⟨result, next⟩
          have first :=
            comesTo_session_iff.mpr ⟨events, receiver, outcome, course, stage, concluded⟩
          cases verdict : stats.judge once result with
          | again more =>
              rw [conclude_again concluded verdict] at runs
              obtain ⟨results, sessions, judged⟩ := ih fewer (by omega) runs
              exact ⟨result :: results, .held first sessions, .again verdict judged⟩
          | stop ended' =>
              rw [conclude_stop concluded verdict] at runs
              cases fewer with
              | zero => cases runs
              | succ fewer =>
                  cases runs
                  exact ⟨[result], .held first (.none _ _), .stop verdict⟩

/-- **Serving is holding sessions until one of them is judged to be the last.** -/
theorem comesTo_serving_iff :
    (servingParty once).ComesTo (Serving.next stats supervisor link.clock) link (ended, last)
        after ↔
      ∃ results, Sessions results supervisor link last after ∧ Judged once stats results ended := by
  constructor
  · rintro ⟨moves, runs⟩
    exact sessions_of_runScript (runs (moves + 1) (Nat.lt_succ_self moves))
  · rintro ⟨results, sessions, judged⟩
    exact comesTo_of_sessions sessions judged

end Runs

/-! ## Nowhere to receive into -/

section Missing

variable {supervisor : Supervisor σ} {fault : Fault}

/-- Only straight into place may there be nowhere to receive into, and then memory does not hold
the whole code region. -/
theorem direct_of_missing (missing : supervisor.destination = .error fault) :
    supervisor.mode = .direct ∧
      fault = .outOfBounds supervisor.window.code.base supervisor.window.code.size.toNat := by
  rw [destination] at missing
  cases chosen : supervisor.mode with
  | staged =>
      rw [chosen] at missing
      cases missing
  | direct =>
      rw [chosen] at missing
      dsimp only at missing
      refine ⟨rfl, ?_⟩
      cases found : supervisor.device.memory.read supervisor.window.code.base
          supervisor.window.code.size.toNat with
      | ok bytes =>
          rw [found] at missing
          cases missing
      | error fault' =>
          rw [found] at missing
          cases missing
          exact DeviceMemory.fault_of_read found

theorem land_nothing (direct : supervisor.mode = .direct) : supervisor.land #[] = supervisor := by
  obtain ⟨layout, window, loader, receiver, mode, device, staging, valid⟩ := supervisor
  obtain rfl : mode = .direct := direct
  rw [land]
  dsimp only
  split
  · rename_i memory written
    rw [DeviceMemory.eq_of_write written fun index inside => absurd inside (Nat.not_lt_zero index)]
  · rfl

/-- The receiver of a session with nowhere to receive into is done, and so is the session. -/
theorem conclude_of_missing (missing : supervisor.destination = .error fault) (now : Nat) :
    (supervisor.receive now).stage = .finished (.error fault) ∧
      supervisor.engaged.conclude (.error fault) (supervisor.receive now).destination =
        (.error fault, supervisor.engaged) := by
  obtain ⟨_, _, _, mode⟩ := setup_eq_iff.mp (setup_engaged supervisor)
  have nothing := land_nothing (mode.trans (direct_of_missing missing).1)
  rw [receive, missing]
  exact ⟨rfl, Prod.ext rfl nothing⟩

/-- **A session with nowhere to receive into is over at once.**  It has said and heard nothing. -/
theorem session_of_missing (missing : supervisor.destination = .error fault)
    (link : ScriptedLink) :
    supervisor.sessionParty.ComesTo (supervisor.receive link.clock) link
      (.error fault, supervisor.engaged) link := by
  obtain ⟨stage, concluded⟩ := conclude_of_missing missing link.clock
  exact comesTo_session_iff.mpr ⟨[], _, _, .begin, stage, concluded⟩

/-- If one session is asked for, serving ends with the fault of it. -/
theorem comesTo_of_missing (missing : supervisor.destination = .error fault) (stats : Stats)
    (link : ScriptedLink) :
    (servingParty true).ComesTo (Serving.next stats supervisor link.clock) link
      (.error fault, supervisor.engaged) link := by
  have stops : stats.judge true (.error fault) = .stop (.error fault) := by
    rw [(direct_of_missing missing).2]
    rfl
  exact comesTo_of_sessions (.held (session_of_missing missing link) (.none _ _)) (.stop stops)

/-- **Otherwise serving does not end**, however long it goes on. -/
theorem runScript_of_missing (missing : supervisor.destination = .error fault) (stats : Stats)
    (link : ScriptedLink) (fuel : Nat) :
    (servingParty false).runScript fuel (Serving.next stats supervisor link.clock) link = none := by
  induction fuel generalizing supervisor stats with
  | zero => rfl
  | succ fuel ih =>
      obtain ⟨stage, concluded⟩ := conclude_of_missing missing link.clock
      have goesOn : ∃ more, stats.judge false (.error fault) = .again more := by
        rw [(direct_of_missing missing).2]
        exact ⟨_, rfl⟩
      obtain ⟨more, goesOn⟩ := goesOn
      rw [Serving.next, Party.runScript_of_advance
        (advance_of_finished false stats supervisor.engaged link stage),
        conclude_again concluded goesOn]
      exact ih ((destination_engaged supervisor).trans missing) more

end Missing

end Overlay.Supervisor
