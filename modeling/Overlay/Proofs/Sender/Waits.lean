import Overlay.Proofs.Link.Flow
import Overlay.Proofs.Sender.Conduct

/-!
# How long a sender waits

When its size word has gone through, a sender waits for a decision, and when its image has
gone through, it waits for the check.  It waits by reading one byte after another, and the
time for a phase begins anew with every byte that it passes over.  So a wait lasts no longer
than this time once for each of its reads (`clock_le_of_wait`).

That is all there is to say: unless this time is zero, no limit holds for every wait, since a
receiver may repeat its readiness for as long as it likes (`wait_bounds`).
-/

set_option autoImplicit false

namespace Overlay

theorem ScriptedLink.read_byte {link : ScriptedLink} {time timeout : Nat} {byte : UInt8}
    {rest : List Script.Event} (arrives : link.arrivals = ⟨time, .data [byte]⟩ :: rest)
    (inTime : time ≤ link.clock + timeout) :
    link.read 1 timeout =
      (.ok [byte], { link with clock := max link.clock time, arrivals := rest }) :=
  read_data arrives rfl (List.cons_ne_nil byte []) Nat.one_pos inTime

namespace Sender

open Party (Event Step Advance Course Stretch heard)

/-! ## Waits -/

/-- What a sender waits for. -/
inductive Awaited where
  /-- The decision on its size word. -/
  | decision
  /-- The check of its image. -/
  | check
  deriving DecidableEq

/-- Whether a sender is waiting. -/
def State.Awaits (awaited : Awaited) (state : State) : Prop :=
  match awaited, state.stage with
  | .decision, .awaitSizeAck => True
  | .check, .awaitVerify _ => True
  | _, _ => False

/-- A wait of a sender over a script, with the events of its reads: it begins when the last
byte of a write has gone through, and it may be cut off at any moment before its end. -/
inductive Wait (config : Config) (awaited : Awaited) :
    List Event → ScriptedLink → ScriptedLink → Prop where
  | intro {image data : Bytes} {progress : Progress} {link begun ended : ScriptedLink}
      {events waited : List Event} {state final : State}
      (writes : Course (party config image) (start config image progress link.clock) link
        (events ++ [.said data]) state begun)
      (awaits : state.Awaits awaited)
      (waits : Stretch (party config image) (State.Awaits awaited) state begun waited final
        ended) :
      Wait config awaited waited begun ended

/-- Every wait ends within a limit. -/
def WaitsWithin (config : Config) (awaited : Awaited) (limit : Nat) : Prop :=
  ∀ waited begun ended, Wait config awaited waited begun ended →
    ended.clock ≤ begun.clock + limit

/-! ## Reads of a wait -/

section Reads

variable {config : Config} {image : Bytes} {awaited : Awaited} {state next final : State}
variable {link begun ended : ScriptedLink} {event : Event} {waited : List Event}

/-- A waiting sender reads a marker, and readiness is none of those that it waits for. -/
theorem State.Awaits.reads (config : Config) (image : Bytes) (awaits : state.Awaits awaited) :
    ∃ phase found,
      (∀ now, party config image state now =
        readMarker config.phaseTimeout phase state found) ∧
        ∀ later, found later .ready = state := by
  obtain ⟨started, progress, stage⟩ := state
  cases awaited with
  | decision =>
      cases stage with
      | awaitSizeAck => exact ⟨.size, _, fun _ => rfl, fun _ => rfl⟩
      | awaitReady _ | sendSize | readCapacity _ | sendChecksum | streaming _ _ | awaitVerify _
      | readVerify _ _ | finished _ => cases awaits
  | check =>
      cases stage with
      | awaitVerify blocks => exact ⟨.verify, _, fun _ => rfl, fun _ => rfl⟩
      | awaitReady _ | sendSize | awaitSizeAck | readCapacity _ | sendChecksum | streaming _ _
      | readVerify _ _ | finished _ => cases awaits

theorem State.Failed.not_awaits (failed : state.Failed) : ¬ state.Awaits awaited := by
  obtain ⟨fault, stops⟩ := failed
  cases awaited <;> simp [State.Awaits, stops]

/-- A wait hears a byte with every read, but for the read that it fails with. -/
theorem length_le_of_stretch
    (waits : Stretch (party config image) (State.Awaits awaited) state begun waited final ended) :
    (final.Awaits awaited → waited.length ≤ (heard waited).length) ∧
      waited.length ≤ (heard waited).length + 1 := by
  induction waits with
  | begin => exact ⟨fun _ => Nat.le_refl _, Nat.le_succ _⟩
  | step before still last ih =>
      have earlier := ih.1 still
      obtain ⟨_, _, moves, _⟩ := still.reads config image
      rw [List.length_append, List.length_singleton, Party.heard_append, Party.heard_singleton,
        List.length_append]
      refine ⟨fun awaits => ?_, by omega⟩
      rcases of_readMarker moves last.effect.step with ⟨byte, _, rfl, _⟩ | ⟨_, failed⟩
      · exact Nat.succ_le_succ earlier
      · exact absurd awaits failed.not_awaits

/-- **A wait lasts no longer than the time for a phase, once for each of its reads.**  All of
these reads but one have heard a byte. -/
theorem clock_le_of_wait (wait : Wait config awaited waited begun ended) :
    ended.clock ≤ begun.clock + config.phaseTimeout * waited.length ∧
      waited.length ≤ (heard waited).length + 1 := by
  obtain ⟨_, _, waits⟩ := wait
  refine ⟨waits.clock_le ?_, (length_le_of_stretch waits).2⟩
  intro state now still
  obtain ⟨_, _, moves, _⟩ := still.reads config _
  exact ⟨_, _, moves now⟩

end Reads

/-! ## Readiness again and again -/

/-- A receiver that repeats its readiness, each time when the given interval has passed. -/
def repeating (interval : Nat) : Nat → Nat → List Script.Event
  | _, 0 => []
  | time, count + 1 =>
      ⟨time + interval, .data [Marker.ready.byte]⟩ :: repeating interval (time + interval) count

section Repeating

variable {config : Config} {image : Bytes} {awaited : Awaited} {state : State}

/-- A waiting sender goes on waiting while readiness is repeated just in time. -/
theorem stretch_of_repeating (awaits : state.Awaits awaited) (count : Nat) {link : ScriptedLink}
    (arrives : link.arrivals = repeating config.phaseTimeout link.clock count) :
    ∃ waited ended, Stretch (party config image) (State.Awaits awaited) state link waited state
      ended ∧ ended.clock = link.clock + config.phaseTimeout * count := by
  induction count generalizing link with
  | zero => exact ⟨[], link, .begin, rfl⟩
  | succ count ih =>
      obtain ⟨_, found, moves, passes⟩ := awaits.reads config image
      have answer := ScriptedLink.read_byte arrives (Nat.le_refl _)
      rw [Nat.max_eq_right (Nat.le_add_right _ _)] at answer
      have first := Advance.of_heard (moves link.clock) answer (passes _)
      -- The rest of the wait begins at the time of this byte.
      obtain ⟨waited, ended, rest, late⟩ := @ih
        { link with
          clock := link.clock + config.phaseTimeout
          arrivals := repeating config.phaseTimeout (link.clock + config.phaseTimeout) count } rfl
      refine ⟨_, ended, rest.cons awaits first, ?_⟩
      rw [late, Nat.mul_add, Nat.mul_one, Nat.add_comm (_ * count), Nat.add_assoc]

/-- A link on which readiness arrives at once. -/
def greeting (rest : List Script.Event) : ScriptedLink where
  arrivals := ⟨0, .data [Marker.ready.byte]⟩ :: rest

theorem course_of_greeting (config : Config) (small : image.length < 4294967296)
    (rest : List Script.Event) :
    Course (party config image) (start config image {} (greeting rest).clock) (greeting rest)
      ([.heard [Marker.ready.byte]] ++ [.said (Word.encode (sizeWord image))])
      ⟨0, {}, .awaitSizeAck⟩
      { arrivals := rest, accepted := [(0, Word.encode (sizeWord image))] } := by
  have greeted : Advance (party config image) ⟨0, {}, .awaitReady (0 + config.readyTimeout)⟩
      (greeting rest) (.heard [Marker.ready.byte]) ⟨0, {}, .sendSize⟩ { arrivals := rest } :=
    .of_heard rfl (ScriptedLink.read_byte rfl (Nat.zero_le _)) rfl
  rw [start, if_neg (Nat.not_le.mpr small)]
  exact .step (.step .begin greeted) (.of_said rfl rfl rfl)

/-- A sender may begin to wait at once, whatever is to arrive then. -/
theorem exists_awaits (config : Config) (awaited : Awaited) (rest : List Script.Event) :
    ∃ link events data state begun,
      Course (party config []) (start config [] {} link.clock) link (events ++ [.said data]) state
          begun ∧
        state.Awaits awaited ∧ begun.clock = 0 ∧ begun.arrivals = rest := by
  have small : ([] : Bytes).length < 4294967296 := by decide
  cases awaited with
  | decision => exact ⟨_, _, _, _, _, course_of_greeting config small rest, trivial, rfl, rfl⟩
  | check =>
      have announced := course_of_greeting config small (⟨0, .data [Marker.sizeAck.byte]⟩ :: rest)
      have answered := announced.step
        (.of_heard rfl (ScriptedLink.read_byte rfl (Nat.zero_le _)) rfl)
      exact ⟨_, _, _, _, _, answered.step (.of_said rfl rfl rfl), trivial, rfl, rfl⟩

/-- A wait may last for any number of reads, each of them as long as it may be. -/
theorem exists_wait (config : Config) (awaited : Awaited) (count : Nat) :
    ∃ waited begun ended, Wait config awaited waited begun ended ∧
      ended.clock = begun.clock + config.phaseTimeout * count := by
  obtain ⟨link, events, data, state, begun, writes, awaits, early, arrives⟩ :=
    exists_awaits config awaited (repeating config.phaseTimeout 0 count)
  rw [← early] at arrives
  obtain ⟨waited, ended, waits, late⟩ := stretch_of_repeating awaits count arrives
  exact ⟨waited, begun, ended, .intro writes awaits waits, late⟩

end Repeating

/-! ## Limits -/

/-- **A wait lasts no longer than the time for a phase, once for each of its reads, and no
limit holds for all waits unless this time is zero.**  In particular the time for a phase is
no such limit, neither for the decision nor for the check. -/
theorem wait_bounds (config : Config) (awaited : Awaited) :
    (∀ {waited begun ended}, Wait config awaited waited begun ended →
        ended.clock ≤ begun.clock + config.phaseTimeout * waited.length ∧
          waited.length ≤ (heard waited).length + 1) ∧
      ∀ limit, WaitsWithin config awaited limit ↔ config.phaseTimeout = 0 := by
  refine ⟨clock_le_of_wait, fun limit => ⟨fun within => ?_, fun zero => ?_⟩⟩
  · obtain ⟨waited, begun, ended, wait, late⟩ := exists_wait config awaited (limit + 1)
    have inTime := within waited begun ended wait
    apply Nat.eq_zero_of_not_pos
    intro positive
    have longer := Nat.le_mul_of_pos_left (limit + 1) positive
    omega
  · intro waited begun ended wait
    have bounded := (clock_le_of_wait wait).1
    rw [zero, Nat.zero_mul] at bounded
    omega

/-- A sender with 100 milliseconds for a phase waits for its decision until 240 at least, while
its receiver repeats its readiness every 80 milliseconds. -/
theorem wait_of_calls :
    Wait ⟨1000, 100, 4⟩ .decision [.heard [0xC0], .heard [0xC0], .heard [0xC0]]
      { arrivals := repeating 80 0 3, accepted := [(0, [1, 0, 0, 0])] }
      { clock := 240, accepted := [(0, [1, 0, 0, 0])] } := by
  have announced := @course_of_greeting [65] ⟨1000, 100, 4⟩ (by decide) (repeating 80 0 3)
  have waited : Stretch (party ⟨1000, 100, 4⟩ [65]) (State.Awaits .decision)
      ⟨0, {}, .awaitSizeAck⟩ { arrivals := repeating 80 0 3, accepted := [(0, [1, 0, 0, 0])] }
      [.heard [0xC0], .heard [0xC0], .heard [0xC0]] ⟨0, {}, .awaitSizeAck⟩
      { clock := 240, accepted := [(0, [1, 0, 0, 0])] } :=
    .cons trivial (.of_heard rfl (ScriptedLink.read_byte rfl (by decide)) rfl)
      (.cons trivial (.of_heard rfl (ScriptedLink.read_byte rfl (by decide)) rfl)
        (.cons trivial (.of_heard rfl (ScriptedLink.read_byte rfl (by decide)) rfl) .begin))
  exact .intro announced trivial waited

/-- This wait is within its bound, and there is no limit for others like it. -/
theorem wait_bounds_of_calls :
    ∃ waited begun ended, Wait ⟨1000, 100, 4⟩ .decision waited begun ended ∧
      ended.clock = begun.clock + 240 ∧
      (ended.clock ≤ begun.clock + 100 * waited.length ∧
        waited.length ≤ (heard waited).length + 1) ∧
      ∀ limit, WaitsWithin ⟨1000, 100, 4⟩ .decision limit ↔ 100 = 0 :=
  ⟨_, _, _, wait_of_calls, rfl, (wait_bounds ⟨1000, 100, 4⟩ .decision).1 wait_of_calls,
    (wait_bounds ⟨1000, 100, 4⟩ .decision).2⟩

/-- The time for a phase is no limit for the wait. -/
theorem not_within_of_calls : ¬ WaitsWithin ⟨1000, 100, 4⟩ .decision 100 := by
  intro within
  have inTime := within _ _ _ wait_of_calls
  exact absurd inTime (by decide)

end Sender

end Overlay
