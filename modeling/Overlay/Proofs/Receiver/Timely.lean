import Overlay.Proofs.Receiver.Account
import Overlay.Proofs.Receiver.Cadence

/-!
# Transfers in time, at the receiving end

A receiver over a flowing link hears all of a transfer while what it waits for comes in time: the
first of it while the receiver still waits for a sender, and every later arrival within the time
for a phase of the one before (`Timely`).  Until then it calls, and calls go unanswered, but
nothing lapses behind the first byte (`Conduct.not_lapsed`).

If what comes in is a session that is over, the receiver therefore ends with the outcome of its
reading, however it is cut and whenever its pieces come: with its result, its destination and its
replies, behind one call or more (`comesTo_of_timely`).  A prompt link is in time for every receiver
(`timely_of_prompt`).
-/

set_option autoImplicit false

namespace Overlay.Receiver

open Party (Advance Course Event Stalled Talk)
open ScriptedLink (Paced paced_leaving paced_of_arrived)
open Session (bound reading)

/-! ## Time -/

/-- The first arrival comes while a receiver waits for a sender, or was there before, and then
every arrival comes within the time for a phase of the one before. -/
def Timely (config : Config) (clock : Nat) : List Script.Event → Prop
  | [] => True
  | event :: rest =>
      (event.time ≤ clock ∨ 0 < config.readyInterval ∧
        ∀ limit, config.readyTimeout = some limit →
          event.time - clock ≤ rounds limit config.readyInterval * config.readyInterval) ∧
      Paced config.phaseTimeout (max clock event.time) rest

/-- All that has arrived already comes in time. -/
theorem timely_of_prompt (config : Config) {link : ScriptedLink} (prompt : link.Prompt) :
    link.Flowing ∧ Timely config link.clock link.arrivals := by
  refine ⟨prompt.flowing, ?_⟩
  have arrived := prompt.arrived
  cases next : link.arrivals with
  | nil => trivial
  | cons event rest =>
      rw [next] at arrived
      obtain ⟨⟨early, _⟩, later⟩ := List.forall_mem_cons.mp arrived
      rw [Timely, Nat.max_eq_left early]
      exact ⟨.inl early, paced_of_arrived fun event among => (later event among).1⟩

/-! ## Up to the first byte -/

section Waiting

variable {config : Config} {destination : Buffer} {link : ScriptedLink}
variable {event : Script.Event} {rest : List Script.Event}

/-- A receiver listens when the first arrival comes, and has moved the clock no further. -/
theorem exists_course_to_arrival (destination : Buffer) (flowing : link.Flowing)
    (next : link.arrivals = event :: rest)
    (timely : Timely config link.clock (event :: rest)) :
    ∃ events between, Course (party config) (start config destination link.clock) link events
        (idle config destination link.clock .listening) between ∧
      between.Flowing ∧ between.arrivals = event :: rest ∧
        event.time ≤ between.clock + config.readyInterval ∧
        max between.clock event.time = max link.clock event.time := by
  obtain ⟨early | ⟨ticks, inTime⟩, _⟩ := timely
  · obtain ⟨accepted, noted⟩ := link.exists_accept Reply.ready.encode
    obtain ⟨_, flows⟩ := flowing.write Reply.ready.encode config.phaseTimeout
    refine ⟨_, _, .step .begin (advance_of_call flowing.toAccepting), flows, ?_⟩
    rw [noted]
    exact ⟨next, Nat.le_trans early (Nat.le_add_right _ _), rfl⟩
  · obtain ⟨events, count, _, course, early, late⟩ :=
      exists_course_of_wait destination flowing.toAccepting ticks next inTime
    have flows : (calledOn link config.readyInterval count).Flowing :=
      ⟨⟨flowing.accepts, flowing.flushes⟩, flowing.brings⟩
    obtain ⟨_, flows⟩ := flows.write Reply.ready.encode config.phaseTimeout
    obtain ⟨accepted, noted⟩ :=
      (calledOn link config.readyInterval count).exists_accept Reply.ready.encode
    refine ⟨_, _, course, flows, ?_⟩
    rw [noted]
    rw [Nat.succ_mul] at late
    simp only [calledOn]
    exact ⟨next, by omega, by omega⟩

/-- **A receiver hears the first of what comes in time**, and goes on at the pace of the rest. -/
theorem exists_course_to_data (destination : Buffer) (flowing : link.Flowing)
    (next : link.arrivals = event :: rest)
    (timely : Timely config link.clock (event :: rest)) :
    ∃ events state between,
      Course (party config) (start config destination link.clock) link events state between ∧
      Party.heard events ≠ [] ∧
      Conduct (bound config.maxImageSize destination) destination link.clock state
        (Party.heard events) (Party.said events) ∧
      between.Flowing ∧ Paced config.phaseTimeout between.clock between.arrivals := by
  obtain ⟨events, between, course, flows, next, inTime, clock⟩ :=
    exists_course_to_arrival destination flowing next timely
  have asks : 0 < readSize := Nat.succ_pos _
  obtain ⟨data, left, answer, any, _, _, flows⟩ := flows.read next asks inTime
  have paced := timely.2
  rw [← clock] at paced
  have last : Advance (party config) (idle config destination link.clock .listening) between
      (.heard data) _ _ := .heard rfl answer
  refine ⟨_, _, _, course.step last, ?_, ?_, flows, paced_leaving paced left⟩
  · rw [Party.heard_append, Party.heard_singleton]
    exact List.append_ne_nil_of_right_ne_nil _ any
  · rw [Party.heard_append, Party.said_append, Party.heard_singleton, Party.said_singleton]
    obtain conduct | ⟨_, _, failed⟩ := conduct_of_talk course.talk
    · obtain conduct | failed := conduct.step last.effect.step
      · exact conduct
      · exact failed.lapsed.elim
    · exact (failed.not_step last.effect.step).elim

end Waiting

/-! ## Behind the first byte -/

section Transfers

variable {config : Config} {capacity : UInt32} {before : Buffer} {started : Nat}
variable {state final next : State} {link after : ScriptedLink} {event : Event}
variable {events : List Event} {listened spoken : Bytes} {outcome : Session.Outcome}

theorem Conduct.of_smooth (conduct : Conduct capacity before started state listened spoken)
    (talk : Talk (party config) state events final) (smooth : ∀ event ∈ events, ¬ event.Lapsed) :
    Conduct capacity before started final (listened ++ Party.heard events)
      (spoken ++ Party.said events) := by
  refine talk.invariant (fun events state => Conduct capacity before started state
    (listened ++ Party.heard events) (spoken ++ Party.said events)) ?_ smooth ?_
  · rwa [Party.heard_nil, Party.said_nil, List.append_nil, List.append_nil]
  · intro events state event next conduct smooth step
    rw [Party.heard_append, Party.said_append, Party.heard_singleton, Party.said_singleton,
      ← List.append_assoc, ← List.append_assoc]
    exact (conduct.step step).resolve_right fun failed => smooth failed.lapsed

/-- What flows at a pace to a receiver does so all along its course, as long as nothing lapses. -/
theorem paced_of_course {phase : Nat} (course : Course (party config) state link events final after)
    (flowing : link.Flowing) (paced : Paced phase link.clock link.arrivals)
    (smooth : ∀ event ∈ events, ¬ event.Lapsed) :
    after.Flowing ∧ Paced phase after.clock after.arrivals := by
  refine course.invariant (fun _ _ link => link.Flowing ∧ Paced phase link.clock link.arrivals)
    ⟨flowing, paced⟩ smooth ?_
  intro _ state event next link after holds smooth advance
  obtain ⟨flowing, paced⟩ := holds
  cases advance with
  | heard move answer =>
      obtain ⟨event, rest, left, next, _, _, rfl, flows⟩ := flowing.of_read answer
      rw [next] at paced
      exact ⟨flows, paced_leaving paced.2 left⟩
  | @said _ timeout data _ move answer =>
      obtain ⟨goes, flows⟩ := flowing.write data timeout
      rw [answer] at goes
      cases goes
      obtain ⟨accepted, noted⟩ := link.exists_accept data
      rw [noted] at flows ⊢
      exact ⟨flows, paced⟩
  | unheard _ _ | unsaid _ _ _ => exact absurd trivial smooth
  | paused move => exact absurd move ne_pause

/-- **Nothing lapses behind the first byte before the session is over**, if everything comes at
the pace of the phases. -/
theorem Conduct.not_lapsed (conduct : Conduct capacity before started state listened spoken)
    (any : listened ≠ []) (flowing : link.Flowing)
    (paced : Paced config.phaseTimeout link.clock link.arrivals)
    (stops : (reading capacity before (listened ++ link.incoming)).session.stage.outcome =
      some outcome)
    (advance : Advance (party config) state link event next after) : ¬ event.Lapsed := by
  cases advance with
  | heard _ _ | said _ _ | paused _ => exact not_false
  | @unsaid _ timeout data _ _ _ _ answer _ =>
      rw [(flowing.write data timeout).1] at answer
      cases answer
  | @unheard _ _ timeout _ lapse move answer =>
      cases arrives : link.arrivals with
      | nil =>
          rw [ScriptedLink.incoming_of_nil arrives, List.append_nil,
            conduct.not_outcome_of_read move] at stops
          cases stops
      | cons event rest =>
          rw [arrives] at paced
          cases conduct with
          | announcing _ | listening _ => exact absurd rfl any
          | replying _ _ _ _ | finished _ _ => cases move
          | awaiting _ _ _ =>
              have asks := asks_of_read move
              cases move
              obtain ⟨_, _, same, _⟩ := flowing.read arrives asks paced.1
              rw [answer] at same
              cases same

/-- **A receiver to which a whole session comes in time ends with its outcome**, however what
comes is cut.  It leaves the destination of the reading, and it has said that it is ready, and then
the replies of the reading. -/
theorem comesTo_of_timely (config : Config) (destination : Buffer) (flowing : link.Flowing)
    (timely : Timely config link.clock link.arrivals)
    (stops : (reading (bound config.maxImageSize destination) destination
      link.incoming).session.stage.outcome = some outcome) :
    let final := reading (bound config.maxImageSize destination) destination link.incoming
    ∃ after count,
      (party config).ComesTo (start config destination link.clock) link
        (conclude outcome, final.destination) after ∧
      after.written = link.written ++ utter (calls (count + 1) ++ final.replies) := by
  intro final
  cases next : link.arrivals with
  | nil =>
      rw [ScriptedLink.incoming_of_nil next] at stops
      cases stops
  | cons event rest =>
      rw [next] at timely
      obtain ⟨early, state, between, waits, any, conduct, flows, paced⟩ :=
        exists_course_to_data destination flowing next timely
      obtain ⟨late, last, after, goes, smooth, stalled⟩ :=
        (diligent config).limited.exists_course state between
      obtain ⟨flows, paced⟩ := paced_of_course goes flows paced smooth
      have kept := conduct.of_smooth goes.talk smooth
      have arrived : link.incoming =
          Party.heard early ++ Party.heard late ++ after.incoming := by
        rw [waits.incoming_eq, goes.incoming_eq, List.append_assoc]
      cases stalled with
      | lapsed lapses advance =>
          rw [arrived] at stops
          exact absurd lapses (kept.not_lapsed (List.append_ne_nil_of_left_ne_nil any _) flows paced
            stops advance)
      | @done result ends =>
          obtain ⟨report, place⟩ := result
          obtain ⟨count, ended, stopped, rfl, rfl, said⟩ := kept.of_done ends
          have same : final = reading _ destination (Party.heard early ++ Party.heard late) :=
            (congrArg _ arrived).trans (reading_append_of_outcome stopped _)
          obtain rfl : ended = outcome := by
            rw [← same, stops] at stopped
            exact (Option.some.inj stopped).symm
          refine ⟨after, count, ?_, ?_⟩
          · rw [same]
            exact .of_course waits (.of_ended goes ends)
          · rw [goes.written_eq, waits.written_eq, List.append_assoc, said, same]

end Transfers

end Overlay.Receiver
