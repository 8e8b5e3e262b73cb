import Overlay.Proofs.Link.Talk
import Overlay.Proofs.Session.Reading
import Overlay.Receiver

/-!
# The conduct of a receiver

Whatever the link does, a receiver is where the reading of the bytes that it has
heard puts it, and it has said that it is ready, some number of times, and then
the replies of that reading (`conduct_of_talk`).  Only a lapse ends a transfer in
another way, and then it names the phase that was cut short.

A receiver that reports an image has therefore heard the whole of it, and has said
every reply to it (`verified_of_ends`).
-/

set_option autoImplicit false

namespace Overlay.Receiver

open Party (Event Step Talk Ends heard said)
open Session (bound reading)

/-! ## Replies in a row -/

/-- The bytes of replies, one after another. -/
def utter (replies : List Reply) : Bytes := replies.flatMap Reply.encode

@[simp] theorem utter_nil : utter [] = [] := rfl

@[simp] theorem utter_cons (reply : Reply) (replies : List Reply) :
    utter (reply :: replies) = reply.encode ++ utter replies := List.flatMap_cons

@[simp] theorem utter_append (first second : List Reply) :
    utter (first ++ second) = utter first ++ utter second := List.flatMap_append

@[simp] theorem utter_singleton (reply : Reply) : utter [reply] = reply.encode :=
  List.flatMap_singleton ..

/-- Readiness, said a number of times. -/
def calls (count : Nat) : List Reply := List.replicate count .ready

theorem calls_succ (count : Nat) : calls (count + 1) = calls count ++ [.ready] :=
  List.replicate_succ'

theorem utter_calls_succ (count : Nat) (replies : List Reply) :
    utter (calls (count + 1) ++ replies) =
      Marker.ready.byte :: utter (calls count ++ replies) := by
  rw [calls, List.replicate_succ, List.cons_append, utter_cons]
  rfl

theorem utter_calls (count : Nat) :
    utter (calls count) = List.replicate count Marker.ready.byte := by
  induction count with
  | zero => rfl
  | succ count ih =>
      rw [calls, List.replicate_succ, utter_cons, List.replicate_succ, ← calls, ih]
      rfl

/-! ## Conduct -/

/-- A receiver whose session has come to a reading. -/
def State.having (reading : Session.Reading) (started : Nat) (stage : Stage) : State where
  session := reading.session
  destination := reading.destination
  started := started
  stage := stage

section Conduct

variable (capacity : UInt32) (before : Buffer) (started : Nat)

/-- Where a receiver is when it has heard and said given bytes, as long as nothing
has lapsed but the wait for a sender. -/
inductive Conduct : State → Bytes → Bytes → Prop where
  | announcing (count : Nat) :
      Conduct (.having (reading capacity before []) started .announcing) []
        (utter (calls count))
  | listening (count : Nat) :
      Conduct (.having (reading capacity before []) started .listening) []
        (utter (calls (count + 1)))
  | awaiting (count : Nat) {heard : Bytes} (any : heard ≠ [])
      (takes : (reading capacity before heard).Open) :
      Conduct (.having (reading capacity before heard) started .reading) heard
        (utter (calls (count + 1) ++ (reading capacity before heard).replies))
  | replying (count : Nat) {used : Bytes} {earlier : List Reply} {reply : Reply}
      (any : used ≠ [])
      (replies : (reading capacity before used).replies = earlier ++ [reply]) (rest : Bytes) :
      Conduct (.having (reading capacity before used) started (.replying reply rest))
        (used ++ rest) (utter (calls (count + 1) ++ earlier))
  | finished (count : Nat) {heard : Bytes} {outcome : Session.Outcome}
      (stops : (reading capacity before heard).session.stage.outcome = some outcome) :
      Conduct (.having (reading capacity before heard) started (.finished (conclude outcome)))
        heard (utter (calls (count + 1) ++ (reading capacity before heard).replies))

/-- Where a receiver is when a lapse has ended the transfer. -/
inductive Failed : Event → State → Bytes → Bytes → Prop where
  | unheard (count : Nat) {heard : Bytes} (takes : (reading capacity before heard).Open)
      (lapse : Lapse) :
      Failed (.unheard lapse)
        (.having (reading capacity before heard) started
          (.finished (.error (lapse.fault (reading capacity before heard).session.stage.phase))))
        heard (utter (calls (count + 1) ++ (reading capacity before heard).replies))
  | unsaid (count : Nat) {used : Bytes} {spoken : List Reply} {reply : Reply}
      (replies : spoken ++ [reply] = calls count ++ (reading capacity before used).replies)
      (rest : Bytes) {accepted : Bytes} (part : accepted <+: reply.encode) (lapse : Lapse) :
      Failed (.unsaid accepted lapse)
        (.having (reading capacity before used) started
          (.finished (.error (lapse.fault reply.phase))))
        (used ++ rest) (utter spoken ++ accepted)

end Conduct

/-! ## One step -/

section Steps

variable {config : Config} {capacity : UInt32} {before : Buffer} {started : Nat}
variable {state next : State} {event : Event} {spoken listened : Bytes}

theorem outcome_eq_none_iff {stage : Session.Stage} :
    stage.outcome = none ↔ stage.finished = false := by
  cases stage with
  | idle | awaitSize _ | awaitChecksum _ _ | streaming _ _ _ _ | rejected _ _ =>
      simp [Session.Stage.outcome, Session.Stage.finished]
  | complete size expected actual =>
      by_cases same : expected = actual <;>
        simp [Session.Stage.outcome, Session.Stage.finished, same]

theorem phase_ne_ready {heard : Bytes} {reading : Session.Reading}
    (reads : Session.Reads capacity before heard reading) (any : heard ≠ []) :
    reading.session.stage.phase ≠ .ready := by
  cases reads with
  | idle => exact absurd rfl any
  | size _ _ | refused _ _ | checksum _ _ | image _ _ _ | whole _ _ _ _ => nofun

theorem conduct_settle (count : Nat) {heard : Bytes} (any : heard ≠ []) (stage : Stage) :
    Conduct capacity before started
      (State.having (reading capacity before heard) started stage).settle heard
      (utter (calls (count + 1) ++ (reading capacity before heard).replies)) := by
  cases stops : (reading capacity before heard).session.stage.outcome with
  | some outcome =>
      simp only [State.settle, State.having, stops]
      exact .finished count stops
  | none =>
      simp only [State.settle, State.having, stops]
      split
      · exact absurd ‹_› (phase_ne_ready (Session.reading_reads _ _ _) any)
      · exact .awaiting count any (outcome_eq_none_iff.mp stops)

theorem conduct_absorb (count : Nat) (used : Bytes) {input : Bytes} (any : used ++ input ≠ [])
    (stage : Stage) :
    Conduct capacity before started
      ((State.having (reading capacity before used) started stage).absorb input) (used ++ input)
      (utter (calls (count + 1) ++ (reading capacity before used).replies)) := by
  by_cases idle : input = []
  · subst idle
    rw [List.append_nil] at any ⊢
    exact conduct_settle count any stage
  by_cases takes : (reading capacity before used).Open
  · obtain ⟨uses, leads⟩ := Session.consume_leads capacity before used input takes
    have goes : (input.isEmpty ||
        (State.having (reading capacity before used) started stage).session.stage.finished) =
          false := by
      rw [List.isEmpty_eq_false_iff.mpr idle, Bool.false_or]
      exact takes
    rw [State.absorb, if_neg (by rw [goes]; exact Bool.false_ne_true)]
    simp only [State.having]
    generalize (reading capacity before used).session.consume input
      (reading capacity before used).destination = step at uses leads
    have replies := leads.replies
    rw [leads.session, leads.destination]
    cases due : step.reply with
    | some reply =>
        rw [due, Option.toList_some] at replies
        have grown : used ++ input.take step.consumed ≠ [] := by
          have := uses.progress idle
          have := List.length_pos_iff.mpr idle
          rw [← List.length_pos_iff, List.length_append, List.length_take]
          omega
        have conduct : Conduct capacity before started _ _ _ :=
          .replying count grown replies (input.drop step.consumed)
        rw [List.append_assoc, List.take_append_drop] at conduct
        exact conduct
    | none =>
        rw [due, Option.toList_none, List.append_nil] at replies
        rw [← replies, uses.exhausted due, List.take_length]
        exact conduct_settle count any stage
  · have stops : (reading capacity before used).session.stage.finished = true :=
      Bool.not_eq_false _ ▸ takes
    rw [State.absorb, if_pos (by rw [State.having, stops, Bool.or_true]),
      ← Session.reading_append_of_finished takes input]
    exact conduct_settle count any stage

/-- **A step of a receiver keeps to its conduct, unless a lapse ends the transfer.** -/
theorem Conduct.step (conduct : Conduct capacity before started state listened spoken)
    (step : Step (party config) state event next) :
    Conduct capacity before started next (listened ++ event.input) (spoken ++ event.output) ∨
      Failed capacity before started event next (listened ++ event.input)
        (spoken ++ event.output) := by
  cases conduct with
  | announcing count =>
      obtain ⟨_, rfl, rfl⟩ | ⟨accepted, lapse, _, part, rfl, rfl⟩ :=
        step.of_write (fun _ => config.phaseTimeout) fun _ => rfl
      · left
        have conduct : Conduct capacity before started _ _ _ := .listening count
        rw [calls_succ, utter_append] at conduct
        exact conduct
      · right
        refine @Failed.unsaid _ _ _ (count + 1) [] (calls count) .ready ?_ [] _ part lapse
        rw [← calls_succ, Session.reading_nil, List.append_nil]
  | listening count =>
      obtain ⟨data, _, any, _, rfl, rfl⟩ | ⟨lapse, later, rfl, rfl⟩ :=
        step.of_read (fun _ => config.readyInterval) fun _ => rfl
      · left
        have conduct : Conduct capacity before started _ ([] ++ data) _ :=
          conduct_absorb count [] any .listening
        rw [Session.reading_nil, List.append_nil] at conduct
        simp only [Event.input, Event.output, List.append_nil]
        exact conduct
      · have failed := @Failed.unheard capacity before started count [] rfl lapse
        rw [Session.reading_nil, List.append_nil] at failed
        have again : Conduct capacity before started _ _ _ := .announcing (count + 1)
        simp only [Event.input, Event.output, List.append_nil]
        cases lapse with
        | expired =>
            by_cases late : State.waitedOut config
                (.having (reading capacity before []) started .listening) later = true
            · right
              simp only [if_pos late]
              exact failed
            · left
              simp only [if_neg late]
              exact again
        | ended | failed _ => exact .inr failed
  | awaiting count any takes =>
      obtain ⟨data, _, _, _, rfl, rfl⟩ | ⟨lapse, _, rfl, rfl⟩ :=
        step.of_read (fun _ => config.phaseTimeout) fun _ => rfl
      · left
        simp only [Event.input, Event.output, List.append_nil]
        exact conduct_absorb count _ (List.append_ne_nil_of_left_ne_nil any _) _
      · right
        simp only [Event.input, Event.output, List.append_nil]
        exact .unheard count takes lapse
  | @replying count used earlier reply any replies rest =>
      obtain ⟨_, rfl, rfl⟩ | ⟨accepted, lapse, _, part, rfl, rfl⟩ :=
        step.of_write (fun _ => config.phaseTimeout) fun _ => rfl
      · left
        have conduct : Conduct capacity before started _ (used ++ rest) _ :=
          conduct_absorb count used (List.append_ne_nil_of_left_ne_nil any rest)
            (.replying reply rest)
        rw [replies, ← List.append_assoc, utter_append _ [reply], utter_singleton] at conduct
        simp only [Event.input, Event.output, List.append_nil]
        exact conduct
      · right
        simp only [Event.input, Event.output, List.append_nil]
        refine .unsaid (count + 1) ?_ rest part lapse
        rw [replies, List.append_assoc]
  | finished _ _ => exact (step.not_of_done fun _ => ⟨_, rfl⟩).elim

theorem Failed.not_step {lapsed : Event}
    (failed : Failed capacity before started lapsed state listened spoken)
    (step : Step (party config) state event next) : False := by
  cases failed with
  | unheard _ _ _ | unsaid _ _ _ _ _ => exact step.not_of_done fun _ => ⟨_, rfl⟩

theorem Conduct.of_done {now : Nat} {result : Except Fault Received} {after : Buffer}
    (conduct : Conduct capacity before started state listened spoken)
    (stops : party config state now = .done (result, after)) :
    ∃ count outcome,
      (reading capacity before listened).session.stage.outcome = some outcome ∧
        result = conclude outcome ∧ after = (reading capacity before listened).destination ∧
        spoken = utter (calls (count + 1) ++ (reading capacity before listened).replies) := by
  cases conduct with
  | announcing _ | listening _ | awaiting _ _ _ | replying _ _ _ _ => cases stops
  | @finished count _ outcome ended =>
      cases stops
      exact ⟨count, outcome, ended, rfl, rfl, rfl⟩

theorem Failed.of_done {lapsed : Event} {now : Nat} {result : Except Fault Received}
    {after : Buffer} (failed : Failed capacity before started lapsed state listened spoken)
    (stops : party config state now = .done (result, after)) :
    ∃ fault, result = .error fault := by
  cases failed with
  | unheard _ _ _ | unsaid _ _ _ _ _ =>
      cases stops
      exact ⟨_, rfl⟩

/-- A session that ends with an image has stored all of it. -/
theorem received_of_outcome {stage : Session.Stage} {outcome : Session.Outcome} {image : Received}
    (stops : stage.outcome = some outcome) (reports : conclude outcome = .ok image) :
    stage.received = image.length := by
  cases stage with
  | idle | awaitSize _ | awaitChecksum _ _ | streaming _ _ _ _ => cases stops
  | rejected _ _ =>
      cases stops
      cases reports
  | complete size expected actual =>
      rw [Session.Stage.outcome] at stops
      split at stops
      all_goals
        cases stops
        cases reports
      rfl

theorem stage_of_done {now : Nat} {result : Except Fault Received} {after : Buffer}
    (stops : party config state now = .done (result, after)) :
    state.stage = .finished result ∧ state.destination = after := by
  obtain ⟨session, destination, started, stage⟩ := state
  cases stage with
  | finished _ =>
      cases stops
      exact ⟨rfl, rfl⟩
  | announcing | listening | reading | replying _ _ => cases stops

end Steps

/-! ## Whole talks -/

section Talks

variable {config : Config} {before : Buffer} {started : Nat}
variable {events : List Event} {state : State}

/-- The destination is taken into account twice, which makes no difference. -/
theorem bound_bound (capacity : UInt32) (destination : Buffer) :
    bound (bound capacity destination) destination = bound capacity destination := by
  apply UInt32.toNat_inj.mp
  rw [Session.toNat_bound, Session.toNat_bound]
  omega

theorem conduct_start (config : Config) (before : Buffer) (started : Nat) :
    Conduct (bound config.maxImageSize before) before started (start config before started) []
      [] :=
  .announcing 0

/-- **Whatever a receiver has heard and said, it keeps to its conduct, or a lapse has
ended the transfer.** -/
theorem conduct_of_talk (talk : Talk (party config) (start config before started) events state) :
    Conduct (bound config.maxImageSize before) before started state (heard events)
        (said events) ∨
      ∃ lapsed ∈ events, Failed (bound config.maxImageSize before) before started lapsed state
        (heard events) (said events) := by
  induction talk with
  | begin => exact .inl (conduct_start config before started)
  | step _ last ih =>
      rw [Party.heard_append, Party.said_append, Party.heard_singleton, Party.said_singleton]
      obtain conduct | ⟨_, _, failed⟩ := ih
      · obtain conduct | failed := conduct.step last
        · exact .inl conduct
        · exact .inr ⟨_, List.mem_append_right _ (List.mem_singleton.mpr rfl), failed⟩
      · exact (failed.not_step last).elim

/-- What a receiver holds is what its session has come to by a part of what it has heard. -/
theorem exists_reading_of_talk
    (talk : Talk (party config) (start config before started) events state) :
    ∃ used, state.session = (reading (bound config.maxImageSize before) before used).session ∧
      state.destination = (reading (bound config.maxImageSize before) before used).destination := by
  have conducts := conduct_of_talk talk
  generalize heard events = listened, said events = spoken at conducts
  rcases conducts with conduct | ⟨_, _, failed⟩
  · cases conduct with
    | announcing _ | listening _ | awaiting _ _ _ | replying _ _ _ _ | finished _ _ =>
        exact ⟨_, rfl, rfl⟩
  · cases failed with
    | unheard _ _ _ | unsaid _ _ _ _ _ => exact ⟨_, rfl, rfl⟩

/-- **A receiver never makes its destination longer or shorter.** -/
theorem size_destination_of_talk
    (talk : Talk (party config) (start config before started) events state) :
    state.destination.size = before.size := by
  obtain ⟨_, _, destination⟩ := exists_reading_of_talk talk
  rw [destination]
  exact (Session.reading_reads _ _ _).size_destination

/-- A receiver that has stored no byte has left its destination alone. -/
theorem destination_of_talk (talk : Talk (party config) (start config before started) events state)
    (nothing : state.session.stage.received = 0) : state.destination = before := by
  obtain ⟨_, session, destination⟩ := exists_reading_of_talk talk
  rw [session] at nothing
  rw [destination]
  refine Array.ext_getElem? fun index => ?_
  rw [(Session.reading_reads _ _ _).getElem?_destination, nothing, if_neg (Nat.not_lt_zero _)]

theorem received_of_talk (talk : Talk (party config) (start config before started) events state)
    {image : Received} (reports : state.stage = .finished (.ok image)) :
    state.session.stage.received = image.length := by
  have conducts := conduct_of_talk talk
  generalize heard events = listened, said events = spoken at conducts
  rcases conducts with conduct | ⟨_, _, failed⟩
  · cases conduct with
    | announcing _ | listening _ | awaiting _ _ _ | replying _ _ _ _ => cases reports
    | finished _ stops => exact received_of_outcome stops (Stage.finished.inj reports)
  · cases failed with
    | unheard _ _ _ | unsaid _ _ _ _ _ => cases reports

/-- **A receiver that reports an image has heard all of it, and every reply to it went
through.** -/
theorem verified_of_ends {received : Received} {after : Buffer}
    (ends : Ends (party config) (start config before started) events (.ok received, after)) :
    ∃ count size data extra,
      heard events = Word.encode size ++ (Word.encode received.checksum ++ (data ++ extra)) ∧
        data.length = size.toNat ∧ ¬ bound config.maxImageSize before < size ∧
        checksum data = received.checksum ∧ received.length = data.length ∧
        after = Buffer.store before 0 data ∧
        said events = utter (calls (count + 1) ++ [.sizeAck, .verify received.checksum]) := by
  obtain ⟨state, talk, now, stops⟩ := ends
  obtain conduct | ⟨_, _, failed⟩ := conduct_of_talk talk
  · obtain ⟨count, outcome, ended, result, place, spoken⟩ := conduct.of_done stops
    subst place
    rw [spoken]
    have reads := Session.reading_reads (bound config.maxImageSize before) before (heard events)
    generalize reading (bound config.maxImageSize before) before (heard events) = final
      at reads ended ⊢
    generalize heard events = stream at reads ⊢
    cases reads with
    | idle | size _ _ | checksum _ _ | image _ _ _ => cases ended
    | refused _ _ =>
        cases ended
        cases result
    | @whole size fits expected data length extra =>
        simp only [Session.Stage.outcome] at ended
        split at ended
        · subst expected
          cases ended
          cases result
          exact ⟨count, size, data, extra, rfl, length, bound_bound _ _ ▸ fits, rfl, length.symm,
            rfl, rfl⟩
        · cases ended
          cases result
  · obtain ⟨_, fault⟩ := failed.of_done stops
    cases fault

end Talks

end Overlay.Receiver
