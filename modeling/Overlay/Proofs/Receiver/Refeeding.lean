import Mathlib.Data.List.Induction
import Overlay.Proofs.Receiver.Lockstep

/-!
# Feeding the rest of a buffer again

A receiver feeds its session with a buffer, answers, and feeds the rest of the buffer, as long as
there is a rest and the session takes it.  What every round takes from the rest is what ends this
loop, so a session that is fed anything has to use some of it, and nothing in the form of a
session says so: one that held a complete word, or a complete image, could answer without using
a byte.

The sessions that feeding leads to are the readings of streams (`reached_iff`).  A reading is
always short of a byte of its word or of its image unless it is finished, so its session uses at
least one byte of what it is fed (`Reached.uses`), a loop has no more rounds than bytes
(`Reached.rounds_le`), and a receiver is in such a loop whenever it has heard something
(`refeeding_ends`).
-/

set_option autoImplicit false

namespace Overlay

/-! ## Words that are not complete -/

namespace WordBuffer

@[simp] theorem fill_nil (word : WordBuffer) : word.fill [] = word :=
  ext_bytes (by simp only [fill, List.take_nil, List.append_nil])

@[simp] theorem uses_nil (word : WordBuffer) : word.uses [] = 0 := Nat.min_zero _

theorem value?_of_short {start : Bytes} (short : start.length < 4) :
    (empty.fill start).value? = none := by
  rw [value?_fill, bytes_empty, List.nil_append, Word.take?_of_short short]
  rfl

end WordBuffer

namespace Session

/-! ## Sessions that are reached -/

/-- What a session that begins comes to by being fed any input for a destination of a fixed
size, whatever the destination holds. -/
inductive Reached (capacity : UInt32) (size : Nat) : Session → Prop where
  | begin : Reached capacity size { capacity }
  | fed {session : Session} (before : Reached capacity size session) (input : Bytes)
      {destination : Buffer} (fixed : destination.size = size) :
      Reached capacity size (session.consume input destination).session

section Reached

variable {capacity : UInt32} {size : Nat} {session : Session} {destination left right : Buffer}

theorem limit_congr (session : Session) (same : right.size = left.size) :
    session.limit right = session.limit left := by
  rw [limit, limit, same]

theorem size_takeImage (session : Session) (size expected : UInt32) (received : Nat)
    (check : Crc32) (used : Nat) (input : Bytes) (destination : Buffer) :
    (session.takeImage size expected received check used input destination).destination.size =
      destination.size := by
  rw [takeImage]
  split <;> exact Buffer.size_store _ _ _

theorem size_takeChecksum (session : Session) (size : UInt32) (word : WordBuffer) (input : Bytes)
    (destination : Buffer) :
    (session.takeChecksum size word input destination).destination.size = destination.size := by
  rw [takeChecksum]
  split
  · rfl
  · exact size_takeImage _ _ _ _ _ _ _ _

theorem takeSize_destination (session : Session) (word : WordBuffer) (input : Bytes)
    (destination : Buffer) :
    (session.takeSize word input destination).destination = destination := by
  rw [takeSize]
  dsimp only
  split
  · rfl
  · split <;> rfl

theorem size_consume (session : Session) (input : Bytes) (destination : Buffer) :
    (session.consume input destination).destination.size = destination.size := by
  rw [consume]
  cases session.stage with
  | idle =>
      dsimp only
      split
      · rfl
      · rw [takeSize_destination]
  | awaitSize word =>
      exact congrArg Array.size (takeSize_destination session word input destination)
  | awaitChecksum size word => exact size_takeChecksum session size word input destination
  | streaming size expected received check =>
      exact size_takeImage session size expected received check 0 input destination
  | complete _ _ _ | rejected _ _ => rfl

theorem consume_of_finished (finished : session.stage.finished = true) (input : Bytes)
    (destination : Buffer) :
    session.consume input destination =
      { session, destination, consumed := 0, stored := 0, reply := none } := by
  obtain ⟨capacity, stage⟩ := session
  cases stage with
  | idle | awaitSize _ | awaitChecksum _ _ | streaming _ _ _ _ => cases finished
  | complete _ _ _ | rejected _ _ => rfl

theorem Reads.consume_nil {before : Buffer} {stream : Bytes} {reading : Reading}
    (reads : Reads capacity before stream reading) (destination : Buffer) :
    reading.session.consume [] destination =
      { session := reading.session, destination, consumed := 0, stored := 0, reply := none } := by
  cases reads with
  | idle | refused _ _ | whole _ _ _ _ => rfl
  | size _ short =>
      simp only [consume, takeSize, WordBuffer.fill_nil, WordBuffer.value?_of_short short,
        WordBuffer.uses_nil]
  | checksum _ short =>
      simp only [consume, takeChecksum, WordBuffer.fill_nil, WordBuffer.value?_of_short short,
        WordBuffer.uses_nil]
  | image _ _ fewer =>
      simp only [consume, takeImage, List.take_nil, List.length_nil, Nat.add_zero, if_pos fewer]
      rfl

/-- A session that has come to a reading goes on in the same way with any destination of the same
size. -/
theorem consume_reading_alike {before : Buffer} (same : destination.size = before.size)
    (stream input : Bytes) :
    let final := reading capacity before stream
    Step.Alike (final.session.consume input final.destination)
      (final.session.consume input destination) :=
  consume_alike (limit_congr _
    (same.trans (reading_reads capacity before stream).size_destination.symm)) input

theorem Reached.exists_reading (reached : Reached capacity size session) :
    ∃ (before : Buffer) (stream : Bytes), before.size = size ∧
      session = (reading capacity before stream).session := by
  induction reached with
  | begin => exact ⟨Array.replicate size 0, [], Array.size_replicate, rfl⟩
  | @fed session _ input destination fixed ih =>
      obtain ⟨before, stream, extent, rfl⟩ := ih
      by_cases takes : (reading capacity before stream).Open
      · have alike := @consume_reading_alike capacity destination before
          (fixed.trans extent.symm) stream input
        obtain ⟨_, leads⟩ := consume_leads capacity before stream input takes
        exact ⟨before, _, extent, alike.session.trans leads.session⟩
      · rw [consume_of_finished (Bool.not_eq_false _ ▸ takes)]
        exact ⟨before, stream, extent, rfl⟩

theorem reached_reading (capacity : UInt32) (destination : Buffer) (stream : Bytes) :
    Reached capacity destination.size (reading capacity destination stream).session := by
  induction stream using List.reverseRecOn with
  | nil => exact .begin
  | append_singleton stream byte ih =>
      by_cases takes : (reading capacity destination stream).Open
      · obtain ⟨uses, leads⟩ := consume_leads capacity destination stream [byte] takes
        have used : ((reading capacity destination stream).session.consume [byte]
            (reading capacity destination stream).destination).consumed = 1 :=
          Nat.le_antisymm uses.bounded (uses.progress (List.cons_ne_nil byte []))
        have session := leads.session
        rw [used, List.take_of_length_le (Nat.le_refl 1)] at session
        rw [← session]
        exact ih.fed [byte] (reading_reads capacity destination stream).size_destination
      · rw [reading_append_of_finished takes]
        exact ih

/-- **The sessions that are reached are the readings of streams.** -/
theorem reached_iff : Reached capacity size session ↔
    ∃ (before : Buffer) (stream : Bytes), before.size = size ∧
      session = (reading capacity before stream).session := by
  refine ⟨Reached.exists_reading, ?_⟩
  rintro ⟨before, stream, rfl, rfl⟩
  exact reached_reading capacity before stream

/-- The image bytes of a session that is reached have their place in the destination. -/
theorem Reached.received_le (reached : Reached capacity size session) :
    session.stage.received ≤ size := by
  obtain ⟨before, stream, rfl, rfl⟩ := reached.exists_reading
  exact (reading_reads capacity before stream).received_le

theorem Reached.consume?_eq_some (reached : Reached capacity size session)
    (fixed : destination.size = size) (input : Bytes) :
    session.consume? input destination = some (session.consume input destination) := by
  refine if_neg fun overrun => ?_
  have room := (reached.fed input fixed).received_le
  rw [← fixed] at room
  exact Nat.not_lt_of_le room overrun.2

/-- **A session that is reached and still takes input uses some of it**, and all of it unless a
reply is due. -/
theorem Reached.uses (reached : Reached capacity size session) (fixed : destination.size = size)
    (takes : session.stage.finished = false) (input : Bytes) :
    (session.consume input destination).Uses input := by
  obtain ⟨before, stream, extent, rfl⟩ := reached.exists_reading
  have alike := @consume_reading_alike capacity destination before (fixed.trans extent.symm) stream
    input
  obtain ⟨uses, _⟩ := consume_leads capacity before stream input takes
  refine ⟨?_, ?_, ?_⟩
  · rw [alike.consumed]
    exact uses.bounded
  · rw [alike.consumed]
    exact uses.progress
  · rw [alike.consumed, alike.reply]
    exact uses.exhausted

theorem Reached.consume_nil (reached : Reached capacity size session) (destination : Buffer) :
    session.consume [] destination =
      { session, destination, consumed := 0, stored := 0, reply := none } := by
  obtain ⟨before, stream, _, rfl⟩ := reached.exists_reading
  exact (reading_reads capacity before stream).consume_nil destination

end Reached

/-! ## The loop -/

/-- A loop that feeds a session with the rest of a buffer. -/
structure Loop where
  session : Session
  destination : Buffer
  rest : Bytes

namespace Loop

/-- The loop goes on while there is a rest and the session takes input. -/
def Goes (loop : Loop) : Prop := loop.rest ≠ [] ∧ loop.session.stage.finished = false

/-- What one round does. -/
def step (loop : Loop) : Step := loop.session.consume loop.rest loop.destination

/-- The loop after one round: what the round has not used is left. -/
def next (loop : Loop) : Loop where
  session := loop.step.session
  destination := loop.step.destination
  rest := loop.rest.drop loop.step.consumed

/-- A number of rounds in a row. -/
inductive Rounds : Nat → Loop → Loop → Prop where
  | stay (loop : Loop) : Rounds 0 loop loop
  | round {count : Nat} {loop last : Loop} (goes : loop.Goes) (rest : Rounds count loop.next last) :
      Rounds (count + 1) loop last

/-- The session of a loop is reached, and its destination has the given size. -/
structure Sound (capacity : UInt32) (size : Nat) (loop : Loop) : Prop where
  reached : Reached capacity size loop.session
  fixed : loop.destination.size = size

section Rounds

variable {capacity : UInt32} {size count : Nat} {loop last : Loop}

theorem Sound.next (sound : loop.Sound capacity size) : loop.next.Sound capacity size :=
  ⟨sound.reached.fed loop.rest sound.fixed, (size_consume _ _ _).trans sound.fixed⟩

theorem Sound.shrinks (sound : loop.Sound capacity size) (goes : loop.Goes) :
    loop.next.rest.length < loop.rest.length := by
  have uses := sound.reached.uses sound.fixed goes.2 loop.rest
  have any := List.length_pos_iff.mpr goes.1
  have used : 0 < loop.step.consumed := uses.progress goes.1
  rw [Loop.next, List.length_drop]
  omega

theorem Sound.rest_next (sound : loop.Sound capacity size) (goes : loop.Goes)
    (silent : loop.step.reply = none) : loop.next.rest = [] := by
  have uses := sound.reached.uses sound.fixed goes.2 loop.rest
  exact List.drop_of_length_le (Nat.le_of_eq (uses.exhausted silent).symm)

/-- **There are no more rounds than bytes.** -/
theorem Rounds.le (rounds : Rounds count loop last) (sound : loop.Sound capacity size) :
    count + last.rest.length ≤ loop.rest.length := by
  induction rounds with
  | stay loop => exact Nat.le_of_eq (Nat.zero_add _)
  | round goes _ ih =>
      have shrinks := sound.shrinks goes
      have later := ih sound.next
      omega

/-- **The loop comes to its end.** -/
theorem Sound.ends (sound : loop.Sound capacity size) :
    ∃ count last, Rounds count loop last ∧ ¬ last.Goes := by
  induction length : loop.rest.length using Nat.strongRecOn generalizing loop with
  | ind most ih =>
      by_cases goes : loop.Goes
      · obtain ⟨count, last, rounds, stops⟩ :=
          ih _ (length ▸ sound.shrinks goes) sound.next rfl
        exact ⟨count + 1, last, .round goes rounds, stops⟩
      · exact ⟨0, loop, .stay loop, goes⟩

end Rounds
end Loop

/-- A session makes progress: as long as it takes input it uses some of what it is fed, so that
a loop that feeds it comes to an end, and without input, or when it is finished, it does
nothing. -/
structure Progresses (size : Nat) (session : Session) : Prop where
  /-- Of input that is not empty, some is used, and no more than there is. -/
  uses : session.stage.finished = false → ∀ input destination, input ≠ [] →
    destination.size = size →
      0 < (session.consume input destination).consumed ∧
        (session.consume input destination).consumed ≤ input.length
  /-- Every image byte has its place. -/
  placed : ∀ input destination, destination.size = size →
    session.consume? input destination = some (session.consume input destination)
  /-- Empty input changes nothing and has no reply. -/
  empty : ∀ destination, session.consume [] destination =
    { session, destination, consumed := 0, stored := 0, reply := none }
  /-- A session that is finished uses nothing, stores nothing and has no reply. -/
  stopped : session.stage.finished = true → ∀ input destination,
    session.consume input destination =
      { session, destination, consumed := 0, stored := 0, reply := none }
  /-- There are no more rounds than bytes. -/
  bounded : ∀ input destination count last, destination.size = size →
    Loop.Rounds count ⟨session, destination, input⟩ last →
      count + last.rest.length ≤ input.length
  /-- Every buffer is fed to its end, or to the end of the session. -/
  ends : ∀ input destination, destination.size = size →
    ∃ count last, Loop.Rounds count ⟨session, destination, input⟩ last ∧ ¬ last.Goes

/-- **Every session that is reached makes progress.** -/
theorem Reached.progresses {capacity : UInt32} {size : Nat} {session : Session}
    (reached : Reached capacity size session) : session.Progresses size where
  uses takes input _ any fixed :=
    have uses := reached.uses fixed takes input
    ⟨uses.progress any, uses.bounded⟩
  placed input _ fixed := reached.consume?_eq_some fixed input
  empty := reached.consume_nil
  stopped := consume_of_finished
  bounded _ _ _ _ fixed rounds := rounds.le ⟨reached, fixed⟩
  ends _ _ fixed := Loop.Sound.ends ⟨reached, fixed⟩

end Session

/-! ## The receiver -/

namespace Receiver

open Party (Event Talk)
open Session (bound Loop Reached)

/-- The loop of a receiver that feeds the rest of a buffer. -/
def State.loop (state : State) (rest : Bytes) : Loop := ⟨state.session, state.destination, rest⟩

/-- A receiver after one round of its loop, before it answers. -/
def State.fed (state : State) (rest : Bytes) : State :=
  { state with
    session := (state.loop rest).next.session
    destination := (state.loop rest).next.destination }

/-- What a receiver comes to by a round of its loop: it answers, with the rest kept for the next
round, or it goes on with the rest right away. -/
def State.refeed (state : State) (rest : Bytes) : State :=
  match (state.loop rest).step.reply with
  | some reply => { state.fed rest with stage := .replying reply (state.loop rest).next.rest }
  | none => (state.fed rest).absorb (state.loop rest).next.rest

section Rounds

variable {capacity : UInt32} {size : Nat} {state : State} {rest : Bytes}

theorem absorb_of_not_goes (stops : ¬ (state.loop rest).Goes) :
    state.absorb rest = state.settle := by
  refine if_pos ?_
  rw [Bool.or_eq_true, List.isEmpty_iff]
  by_cases none : rest = []
  · exact .inl none
  · exact .inr (Bool.not_eq_false _ ▸ fun takes => stops ⟨none, takes⟩)

theorem absorb_of_goes (sound : (state.loop rest).Sound capacity size)
    (goes : (state.loop rest).Goes) : state.absorb rest = state.refeed rest := by
  have takes : ¬ (rest.isEmpty || state.session.stage.finished) = true := by
    rw [Bool.or_eq_true, List.isEmpty_iff, not_or, Bool.not_eq_true]
    exact goes
  have fed : state.absorb rest =
      match (state.loop rest).step.reply with
      | some reply => { state.fed rest with stage := .replying reply (state.loop rest).next.rest }
      | none => (state.fed rest).settle :=
    if_neg takes
  rw [fed, State.refeed]
  cases due : (state.loop rest).step.reply with
  | some reply => rfl
  | none =>
      dsimp only
      rw [sound.rest_next goes due]
      exact (absorb_of_not_goes fun goes => goes.1 rfl).symm

theorem settle_ne_replying (state : State) (reply : Reply) (left : Bytes) :
    state.settle.stage ≠ .replying reply left := by
  intro answers
  rw [State.settle] at answers
  cases stops : state.session.stage.outcome with
  | some outcome =>
      rw [stops] at answers
      cases answers
  | none =>
      rw [stops] at answers
      dsimp only at answers
      split at answers <;> cases answers

/-- A receiver that answers has made a round, and keeps a shorter rest for the next one. -/
theorem length_lt_of_absorb (sound : (state.loop rest).Sound capacity size) {reply : Reply}
    {left : Bytes} (answers : (state.absorb rest).stage = .replying reply left) :
    left.length < rest.length := by
  by_cases goes : (state.loop rest).Goes
  · have shrinks := sound.shrinks goes
    rw [absorb_of_goes sound goes, State.refeed] at answers
    cases due : (state.loop rest).step.reply with
    | some _ =>
        rw [due] at answers
        cases answers
        exact shrinks
    | none =>
        rw [due] at answers
        dsimp only at answers
        rw [sound.rest_next goes due] at answers
        exact absurd answers (settle_ne_replying _ _ _)
  · rw [absorb_of_not_goes goes] at answers
    exact absurd answers (settle_ne_replying _ _ _)

end Rounds

/-- What a receiver does with the rest of a buffer is its loop, cut up at the answers. -/
structure State.Refeeds (state : State) : Prop where
  /-- As long as the loop goes on, it makes a round. -/
  goes : ∀ rest, (state.loop rest).Goes → state.absorb rest = state.refeed rest
  /-- At the end of the loop it sees what the session needs next. -/
  stops : ∀ rest, ¬ (state.loop rest).Goes → state.absorb rest = state.settle
  /-- The rest that it keeps while it answers is shorter. -/
  shorter : ∀ rest reply left, (state.absorb rest).stage = .replying reply left →
    left.length < rest.length

theorem reached_of_talk {config : Config} {before : Buffer} {started : Nat} {events : List Event}
    {state : State} (talk : Talk (party config) (start config before started) events state) :
    Reached (bound config.maxImageSize before) before.size state.session := by
  obtain ⟨used, session, _⟩ := exists_reading_of_talk talk
  rw [session]
  exact Session.reached_reading _ before used

/-- **Feeding the rest of a buffer again always ends.**  Every session that is reached uses
some of what it is fed, until it is finished; it does nothing without input, and nothing any more
once it is finished.  A loop that feeds it has no more rounds than there are bytes.  The sessions
of a receiver are reached, whatever the link does, and the receiver feeds them in such a loop. -/
theorem refeeding_ends :
    (∀ (capacity : UInt32) (size : Nat) (session : Session),
      Reached capacity size session → session.Progresses size) ∧
    ∀ (config : Config) (before : Buffer) (started : Nat) (events : List Event) (state : State),
      Talk (party config) (start config before started) events state →
        Reached (bound config.maxImageSize before) before.size state.session ∧
          state.destination.size = before.size ∧ state.Refeeds := by
  refine ⟨fun _ _ _ reached => reached.progresses, ?_⟩
  intro config before started events state talk
  have reached := reached_of_talk talk
  have fixed := size_destination_of_talk talk
  have sound (rest : Bytes) :
      (state.loop rest).Sound (bound config.maxImageSize before) before.size := ⟨reached, fixed⟩
  exact ⟨reached, fixed, fun rest => absorb_of_goes (sound rest), fun _ => absorb_of_not_goes,
    fun rest _ _ => length_lt_of_absorb (sound rest)⟩

/-- A session that has heard three bytes of its size word makes progress, and so does the receiver
that has heard them. -/
theorem refeeding_of_three_bytes :
    let destination : Buffer := Array.replicate 16 0
    let session := (({ capacity := 16 } : Session).consume [1, 0, 0] destination).session
    (Reached 16 16 session ∧ session.stage.finished = false ∧ session.Progresses 16) ∧
      ∃ state, Talk (party {}) (start {} destination 0) [.said [0xC0], .heard [1, 0, 0]] state ∧
        Reached (bound 196608 destination) destination.size state.session ∧
        state.destination.size = destination.size ∧ state.Refeeds := by
  intro destination session
  have reached : Reached 16 16 session := .fed .begin [1, 0, 0] Array.size_replicate
  obtain ⟨state, talk⟩ : ∃ state,
      Talk (party {}) (start {} destination 0) [.said [0xC0], .heard [1, 0, 0]] state := by
    exact ⟨_, .cons (@Party.Step.said _ _ _ _ 0 _ _ _ rfl 0) (.cons
      (@Party.Step.heard _ _ _ _ 0 _ _ _ rfl [1, 0, 0] (by decide) (by decide) 0) .begin)⟩
  exact ⟨⟨reached, rfl, refeeding_ends.1 16 16 session reached⟩, state, talk,
    refeeding_ends.2 {} destination 0 _ state talk⟩

end Receiver
end Overlay
