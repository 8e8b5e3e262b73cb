import Mathlib.Algebra.Order.Floor.Div
import Overlay.Proofs.Link.Flow
import Overlay.Proofs.Link.Runs
import Overlay.Receiver

/-!
# The cadence of the calls

A receiver that waits for a sender calls, listens for one interval, and calls again.  Over a link
that accepts whatever is written its calls keep to a schedule: one when it begins, and one after
every interval that has passed (`exists_course_of_rounds`).

How many calls there are until a sender talks, or until the receiver has waited long enough, is
therefore a matter of division with the remainder rounded up (`rounds`): data that comes just when
an interval is over is still in time, and a wait that is over just then is not repeated
(`calls_on_schedule`).
-/

set_option autoImplicit false

namespace Overlay.Receiver

open Party (Advance Course Event)

/-! ## Rounds -/

/-- How many rounds of a given interval it takes until a span of time is over; there is always
one. -/
def rounds (span interval : Nat) : Nat := max 1 (span ⌈/⌉ interval)

theorem rounds_pos (span interval : Nat) : 0 < rounds span interval := Nat.le_max_left _ _

/-- After as many rounds as it takes, and not before, the span is over. -/
theorem rounds_le_iff {span interval turn : Nat} (ticks : 0 < interval) :
    rounds span interval ≤ turn + 1 ↔ span ≤ (turn + 1) * interval := by
  rw [rounds, Nat.max_le, ceilDiv_le_iff_le_mul ticks, Nat.mul_comm]
  exact and_iff_right (Nat.le_add_left 1 turn)

/-- The calls of a receiver with their times, the first of them first. -/
def called (start interval count : Nat) : List (Nat × Bytes) :=
  (List.range count).map fun turn => (start + turn * interval, [Marker.ready.byte])

theorem called_succ (start interval count : Nat) :
    called start interval (count + 1) =
      called start interval count ++ [(start + count * interval, [Marker.ready.byte])] := by
  rw [called, List.range_succ, List.map_append]
  rfl

/-- A link after some rounds in which it has accepted a call each, and nothing has come in. -/
def calledOn (link : ScriptedLink) (interval count : Nat) : ScriptedLink :=
  { link with
    clock := link.clock + count * interval
    accepted := (called link.clock interval count).reverse ++ link.accepted }

theorem calledOn_zero (link : ScriptedLink) (interval : Nat) : calledOn link interval 0 = link := by
  rw [calledOn, Nat.zero_mul]
  rfl

theorem calledOn_succ (link : ScriptedLink) (interval count : Nat) :
    let before := calledOn link interval count
    calledOn link interval (count + 1) =
      { before.accept Reply.ready.encode with clock := before.clock + interval } := by
  intro before
  have call : before.accept Reply.ready.encode = _ :=
    ScriptedLink.accept_of_ne_nil (List.cons_ne_nil _ _)
  rw [call, calledOn, called_succ, List.reverse_append, Nat.succ_mul, ← Nat.add_assoc]
  rfl

/-! ## One round -/

section Rounds

variable {config : Config} {destination : Buffer} {started : Nat} {link : ScriptedLink}

/-- A receiver that has heard nothing yet. -/
def idle (config : Config) (destination : Buffer) (started : Nat) (stage : Stage) : State :=
  { start config destination started with stage }

theorem advance_of_call (accepting : link.Accepting) :
    Advance (party config) (idle config destination started .announcing) link
      (.said Reply.ready.encode) (idle config destination started .listening)
      (link.accept Reply.ready.encode) :=
  .of_said rfl (accepting.write _ config.phaseTimeout).1 rfl

theorem advance_of_quiet (quiet : link.QuietUntil (link.clock + config.readyInterval)) :
    let waiting := idle config destination started .listening
    Advance (party config) waiting link (.unheard .expired)
      (if waiting.waitedOut config (link.clock + config.readyInterval) then
        waiting.fail (.timeout .ready) else idle config destination started .announcing)
      { link with clock := link.clock + config.readyInterval } :=
  .of_unheard rfl (quiet.read (Nat.le_refl _) readSize) rfl

theorem advance_of_data {event : Script.Event} {rest : List Script.Event} {data : Bytes}
    (next : link.arrivals = event :: rest) (brings : event.arrival = .data data) (any : data ≠ [])
    (inTime : event.time ≤ link.clock + config.readyInterval) :
    let waiting := idle config destination started .listening
    Advance (party config) waiting link (.heard (data.take readSize))
      (waiting.absorb (data.take readSize)) (link.leaving event (data.drop readSize) rest) :=
  .of_heard rfl (ScriptedLink.read_data next brings any (Nat.succ_pos _) inTime) rfl

/-! ## Many rounds -/

/-- Whether the wait is over is a matter of the time since the receiver began. -/
theorem waitedOut_idle (elapsed : Nat) :
    State.waitedOut config (idle config destination started .listening) (started + elapsed) = true ↔
      ∃ limit, config.readyTimeout = some limit ∧ limit ≤ elapsed := by
  rw [State.waitedOut]
  cases config.readyTimeout with
  | none => simp only [Bool.false_eq_true, reduceCtorEq, false_and, exists_false]
  | some limit =>
      simp only [idle, start, Nat.add_sub_cancel_left, decide_eq_true_eq, Option.some.injEq,
        exists_eq_left']

theorem course_of_quiet {events : List Event} (accepting : link.Accepting) {count : Nat}
    (before : Course (party config) (start config destination link.clock) link events
      (idle config destination link.clock .announcing) (calledOn link config.readyInterval count))
    (quiet : link.QuietUntil (link.clock + (count + 1) * config.readyInterval)) :
    let waiting := idle config destination link.clock .listening
    ∃ events, Course (party config) (start config destination link.clock) link events
      (if waiting.waitedOut config (link.clock + (count + 1) * config.readyInterval) then
        waiting.fail (.timeout .ready) else idle config destination link.clock .announcing)
      (calledOn link config.readyInterval (count + 1)) := by
  let between := calledOn link config.readyInterval count
  have due : link.clock + (count + 1) * config.readyInterval =
      between.clock + config.readyInterval := by
    rw [Nat.succ_mul, ← Nat.add_assoc]
    rfl
  have accepts : between.Accepting := ⟨accepting.accepts, accepting.flushes⟩
  rw [calledOn_succ, due]
  rw [due] at quiet
  exact ⟨_, .step (.step before (advance_of_call accepts)) (advance_of_quiet quiet)⟩

/-- **As long as nobody answers and the wait is not over, a receiver calls once in every
interval.** -/
theorem exists_course_of_rounds (destination : Buffer) (accepting : link.Accepting) (count : Nat)
    (quiet : ∀ turn < count, link.QuietUntil (link.clock + (turn + 1) * config.readyInterval))
    (waits : ∀ turn < count, ∀ limit, config.readyTimeout = some limit →
      (turn + 1) * config.readyInterval < limit) :
    ∃ events, Course (party config) (start config destination link.clock) link events
      (idle config destination link.clock .announcing)
      (calledOn link config.readyInterval count) := by
  induction count with
  | zero =>
      rw [calledOn_zero]
      exact ⟨[], .begin⟩
  | succ count ih =>
      obtain ⟨events, before⟩ := ih (fun turn early => quiet turn (Nat.lt_succ_of_lt early))
        fun turn early => waits turn (Nat.lt_succ_of_lt early)
      obtain ⟨_, course⟩ := course_of_quiet accepting before (quiet count (Nat.lt_succ_self count))
      have patient : ¬ State.waitedOut config (idle config destination link.clock .listening)
          (link.clock + (count + 1) * config.readyInterval) = true := by
        rw [waitedOut_idle]
        rintro ⟨limit, limited, late⟩
        exact Nat.not_lt_of_le late (waits count (Nat.lt_succ_self count) limit limited)
      rw [if_neg patient] at course
      exact ⟨_, course⟩

/-- **A receiver that nobody answers gives up after as many rounds as its wait takes**: it has
called once in each of them, and it has left its destination alone. -/
theorem comesTo_of_quiet (destination : Buffer) (accepting : link.Accepting)
    (ticks : 0 < config.readyInterval) {limit : Nat} (limited : config.readyTimeout = some limit)
    (quiet : link.QuietUntil
      (link.clock + rounds limit config.readyInterval * config.readyInterval)) :
    (party config).ComesTo (start config destination link.clock) link
      (.error (.timeout .ready), destination)
      (calledOn link config.readyInterval (rounds limit config.readyInterval)) := by
  have whole := rounds_pos limit config.readyInterval
  have ends := @rounds_le_iff limit config.readyInterval
  generalize rounds limit config.readyInterval = whole at quiet ends whole ⊢
  obtain ⟨count, rfl⟩ := Nat.exists_eq_succ_of_ne_zero whole.ne'
  obtain ⟨_, before⟩ := exists_course_of_rounds destination accepting count
    (fun turn early => quiet.mono (by gcongr; omega)) fun turn early limit' limited' => by
      cases limited.symm.trans limited'
      have := (@ends turn ticks).not
      omega
  obtain ⟨_, course⟩ := course_of_quiet accepting before quiet
  rw [if_pos ((waitedOut_idle _).mpr ⟨limit, limited, (ends ticks).mp (Nat.le_refl _)⟩)] at course
  exact .of_ended course rfl

/-- A receiver that a sender talks to in time is listening in the round in which the data comes,
after one call for every interval that has begun. -/
theorem exists_course_of_wait (destination : Buffer) (accepting : link.Accepting)
    (ticks : 0 < config.readyInterval) {event : Script.Event} {rest : List Script.Event}
    (next : link.arrivals = event :: rest)
    (inTime : ∀ limit, config.readyTimeout = some limit → event.time - link.clock ≤
      rounds limit config.readyInterval * config.readyInterval) :
    let elapsed := event.time - link.clock
    ∃ events count, rounds elapsed config.readyInterval = count + 1 ∧
      Course (party config) (start config destination link.clock) link events
        (idle config destination link.clock .listening)
        ((calledOn link config.readyInterval count).accept Reply.ready.encode) ∧
      count * config.readyInterval ≤ elapsed ∧
        elapsed ≤ (count + 1) * config.readyInterval := by
  intro elapsed
  have some := rounds_pos elapsed config.readyInterval
  have ends := @rounds_le_iff elapsed config.readyInterval
  generalize rounds elapsed config.readyInterval = whole at ends some ⊢
  obtain ⟨count, rfl⟩ := Nat.exists_eq_succ_of_ne_zero some.ne'
  have earlier : ∀ turn < count, (turn + 1) * config.readyInterval < event.time - link.clock :=
    fun turn early => by
      have unfinished := Nat.not_le_of_lt (Nat.succ_lt_succ early)
      exact Nat.lt_of_not_le ((ends ticks).not.mp unfinished)
  have quiet : ∀ turn < count,
      link.QuietUntil (link.clock + (turn + 1) * config.readyInterval) := fun turn early => by
    have := earlier turn early
    simp only [ScriptedLink.QuietUntil, next]
    omega
  have waits : ∀ turn < count, ∀ limit, config.readyTimeout = .some limit →
      (turn + 1) * config.readyInterval < limit := fun turn early limit limited =>
    Nat.lt_of_not_le fun late => by
      have := Nat.mul_le_mul_right config.readyInterval ((rounds_le_iff ticks).mpr late)
      have := inTime limit limited
      have := earlier turn early
      omega
  obtain ⟨_, before⟩ := exists_course_of_rounds destination accepting count quiet waits
  have accepts : (calledOn link config.readyInterval count).Accepting :=
    ⟨accepting.accepts, accepting.flushes⟩
  refine ⟨_, count, rfl, .step before (advance_of_call accepts), ?_, (ends ticks).mp le_rfl⟩
  -- The last call is not later than the data.
  cases count with
  | zero =>
      rw [Nat.zero_mul]
      exact Nat.zero_le _
  | succ turn => exact Nat.le_of_lt (earlier turn (Nat.lt_succ_self turn))

/-- **A receiver that a sender talks to in time has called once for every interval that has
begun**, and its session begins when the data comes. -/
theorem exists_course_of_data (destination : Buffer) (accepting : link.Accepting)
    (ticks : 0 < config.readyInterval) {event : Script.Event} {rest : List Script.Event}
    {data : Bytes} (next : link.arrivals = event :: rest) (brings : event.arrival = .data data)
    (any : data ≠ [])
    (inTime : ∀ limit, config.readyTimeout = some limit → event.time - link.clock ≤
      rounds limit config.readyInterval * config.readyInterval) :
    let elapsed := event.time - link.clock
    ∃ events between, Course (party config) (start config destination link.clock) link events
        ((idle config destination link.clock .listening).absorb (data.take readSize)) between ∧
      between.clock = link.clock + elapsed ∧
      between.accepted.reverse = link.accepted.reverse ++
        called link.clock config.readyInterval (rounds elapsed config.readyInterval) := by
  intro elapsed
  obtain ⟨events, count, turns, course, early, late⟩ :=
    exists_course_of_wait destination accepting ticks next inTime
  rw [turns]
  rw [Nat.succ_mul] at late
  have call : (calledOn link config.readyInterval count).accept Reply.ready.encode = _ :=
    ScriptedLink.accept_of_ne_nil (List.cons_ne_nil _ _)
  rw [call] at course
  refine ⟨_, _, .step course (advance_of_data next brings any ?_), ?_, ?_⟩
  · change event.time ≤ link.clock + count * config.readyInterval + config.readyInterval
    omega
  · change max (link.clock + count * config.readyInterval) event.time = _
    omega
  · rw [called_succ, ← List.append_assoc]
    change (_ :: ((called _ _ _).reverse ++ link.accepted)).reverse = _
    rw [List.reverse_cons, List.reverse_append, List.reverse_reverse]
    rfl

/-- **A receiver calls on schedule**, when it begins and after every interval, over a link that
accepts whatever is written.  If the first thing to come in is data, and it comes before the
wait is over, then there has been one call for every interval that has begun, and the session
begins when the data comes.  If nothing comes in until the wait is over, there has been one call
for every interval of the wait, and the receiver gives up at the end of the last. -/
theorem calls_on_schedule (config : Config) (destination : Buffer) (link : ScriptedLink)
    (accepting : link.Accepting) (ticks : 0 < config.readyInterval) :
    let interval := config.readyInterval
    let begins := start config destination link.clock
    (∀ event rest data, link.arrivals = event :: rest → event.arrival = .data data → data ≠ [] →
      (∀ limit, config.readyTimeout = some limit →
        event.time - link.clock ≤ rounds limit interval * interval) →
      let elapsed := event.time - link.clock
      let waiting := idle config destination link.clock .listening
      ∃ moves between,
        (∀ fuel, (party config).runScript (moves + fuel) begins link =
          (party config).runScript fuel (waiting.absorb (data.take readSize)) between) ∧
        between.clock = link.clock + elapsed ∧
        between.accepted.reverse =
          link.accepted.reverse ++ called link.clock interval (rounds elapsed interval)) ∧
    (∀ limit, config.readyTimeout = some limit →
      link.QuietUntil (link.clock + rounds limit interval * interval) →
      ∃ after, (party config).ComesTo begins link (.error (.timeout .ready), destination) after ∧
        after.clock = link.clock + rounds limit interval * interval ∧
        after.accepted.reverse =
          link.accepted.reverse ++ called link.clock interval (rounds limit interval)) := by
  intro interval begins
  constructor
  · intro event rest data next brings any inTime elapsed waiting
    obtain ⟨events, between, course, clock, calls⟩ :=
      exists_course_of_data destination accepting ticks next brings any inTime
    exact ⟨events.length, between, Party.runScript_of_course course, clock, calls⟩
  · intro limit limited quiet
    refine ⟨_, comesTo_of_quiet destination accepting ticks limited quiet, rfl, ?_⟩
    rw [calledOn, List.reverse_append, List.reverse_reverse]

/-- A wait of 5 takes two intervals of 3.  Data that comes just when the second of them is over
is in time, and without it the receiver gives up at that moment. -/
theorem calls_on_schedule_at_tick :
    let config : Config := { readyInterval := 3, readyTimeout := some 5 }
    let punctual : ScriptedLink := { arrivals := [⟨6, .data [0]⟩] }
    let deserted : ScriptedLink := {}
    let calls : List (Nat × Bytes) := [(0, [Marker.ready.byte]), (3, [Marker.ready.byte])]
    (∃ moves between,
      (∀ fuel, (party config).runScript (moves + fuel) (start config #[] 0) punctual =
        (party config).runScript fuel ((idle config #[] 0 .listening).absorb [0]) between) ∧
      between.clock = 6 ∧ between.accepted.reverse = calls) ∧
    ∃ after, (party config).ComesTo (start config #[] 0) deserted
        (.error (.timeout .ready), #[]) after ∧
      after.clock = 6 ∧ after.accepted.reverse = calls := by
  intro config punctual deserted calls
  have twice : rounds 6 3 = 2 ∧ rounds 5 3 = 2 := by decide
  constructor
  · obtain ⟨moves, between, runs, clock, said⟩ :=
      (calls_on_schedule config #[] punctual ⟨rfl, rfl⟩ (by decide)).1 _ _ [0] rfl rfl
        (List.cons_ne_nil _ _) (by rintro limit ⟨⟩; decide)
    exact ⟨moves, between, runs, clock, said.trans (twice.1 ▸ rfl)⟩
  · obtain ⟨after, comes, clock, said⟩ :=
      (calls_on_schedule config #[] deserted ⟨rfl, rfl⟩ (by decide)).2 5 rfl rfl
    exact ⟨after, comes, clock.trans (twice.2 ▸ rfl), said.trans (twice.2 ▸ rfl)⟩

end Rounds

end Overlay.Receiver
