import Overlay.Proofs.Link.Lockstep
import Overlay.Proofs.Receiver.Conduct

/-!
# Receivers that differ in their destination

A session looks at its destination only to see how much it holds.  So two receivers that
begin with room for the largest image that they accept keep in step, whatever their
destinations hold and however long they are (`party_matches`).  When both report an image,
both have stored the same bytes (`stored_of_runScript`).
-/

set_option autoImplicit false

namespace Overlay

/-! ## One feed -/

namespace Session

/-- Steps that differ in what the destination holds at most. -/
structure Step.Alike (left right : Step) : Prop where
  session : right.session = left.session
  consumed : right.consumed = left.consumed
  reply : right.reply = left.reply
  limit : right.session.limit right.destination = left.session.limit left.destination

section Feeds

variable {session : Session} {left right : Buffer}

@[simp] theorem limit_store (session : Session) (destination : Buffer) (start : Nat)
    (data : Bytes) :
    session.limit (Buffer.store destination start data) = session.limit destination := by
  rw [limit, limit, Buffer.size_store]

theorem takeImage_alike (same : session.limit right = session.limit left) (size expected : UInt32)
    (received : Nat) (check : Crc32) (used : Nat) (input : Bytes) :
    Step.Alike (takeImage session size expected received check used input left)
      (takeImage session size expected received check used input right) := by
  have stored (stage : Stage) (start : Nat) (data : Bytes) :
      limit { session with stage } (Buffer.store right start data) =
        limit { session with stage } (Buffer.store left start data) := by
    rw [limit_store, limit_store]
    exact same
  rw [takeImage, takeImage]
  split
  · exact ⟨rfl, rfl, rfl, stored _ _ _⟩
  · exact ⟨rfl, rfl, rfl, stored _ _ _⟩

theorem takeChecksum_alike (same : session.limit right = session.limit left) (size : UInt32)
    (word : WordBuffer) (input : Bytes) :
    Step.Alike (takeChecksum session size word input left)
      (takeChecksum session size word input right) := by
  rw [takeChecksum, takeChecksum]
  split
  · exact ⟨rfl, rfl, rfl, same⟩
  · exact takeImage_alike same _ _ _ _ _ _

theorem takeSize_alike (same : session.limit right = session.limit left) (word : WordBuffer)
    (input : Bytes) :
    Step.Alike (takeSize session word input left) (takeSize session word input right) := by
  rw [takeSize, takeSize, same]
  dsimp only
  split
  · exact ⟨rfl, rfl, rfl, same⟩
  · split
    · exact ⟨rfl, rfl, rfl, same⟩
    · exact ⟨rfl, rfl, rfl, same⟩

/-- **A session goes the same way whatever its destination holds.** -/
theorem consume_alike (same : session.limit right = session.limit left) (input : Bytes) :
    Step.Alike (session.consume input left) (session.consume input right) := by
  rw [consume, consume]
  cases session.stage with
  | idle =>
      dsimp only
      split
      · exact ⟨rfl, rfl, rfl, same⟩
      · exact takeSize_alike same _ _
  | awaitSize word => exact takeSize_alike same _ _
  | awaitChecksum size word => exact takeChecksum_alike same _ _ _
  | streaming size expected received check => exact takeImage_alike same _ _ _ _ _ _
  | complete _ _ _ | rejected _ _ => exact ⟨rfl, rfl, rfl, same⟩

end Feeds

end Session

/-! ## Receivers -/

namespace Receiver

open Party (Ends heard)

/-- Receivers that differ in what the destination holds at most. -/
structure State.Alike (left right : State) : Prop where
  session : right.session = left.session
  limit : right.session.limit right.destination = left.session.limit left.destination
  started : right.started = left.started
  stage : right.stage = left.stage

section Steps

variable {config : Config} {left right : State}

theorem State.Alike.at (alike : left.Alike right) (stage : Stage) :
    State.Alike { left with stage } { right with stage } :=
  ⟨alike.session, alike.limit, alike.started, rfl⟩

theorem State.Alike.settle (alike : left.Alike right) : left.settle.Alike right.settle := by
  obtain ⟨session, destination, started, stage⟩ := left
  obtain ⟨session', destination', started', stage'⟩ := right
  obtain rfl : session' = session := alike.session
  rw [State.settle, State.settle]
  dsimp only
  split
  · exact alike.at _
  · split
    · exact alike.at _
    · exact alike.at _

theorem State.Alike.absorb (alike : left.Alike right) (input : Bytes) :
    (left.absorb input).Alike (right.absorb input) := by
  have same := alike.limit
  rw [alike.session] at same
  have step := Session.consume_alike same input
  rw [State.absorb, State.absorb, alike.session]
  split
  · exact alike.settle
  · dsimp only
    rw [step.reply, step.consumed]
    have next (stage : Stage) :
        State.Alike
          ⟨(left.session.consume input left.destination).session,
            (left.session.consume input left.destination).destination, left.started, stage⟩
          ⟨(left.session.consume input right.destination).session,
            (left.session.consume input right.destination).destination, right.started, stage⟩ :=
      ⟨step.session, step.limit, alike.started, rfl⟩
    split
    · exact next _
    · rw [alike.stage]
      exact (next _).settle

theorem State.Alike.waitedOut (alike : left.Alike right) (now : Nat) :
    right.waitedOut config now = left.waitedOut config now := by
  rw [State.waitedOut, State.waitedOut, alike.started]

/-- **Receivers that are alike ask the same of the link, and stay alike whatever it
answers.** -/
theorem party_matches (alike : left.Alike right) (now : Nat) :
    Move.Matches State.Alike (fun ended ended' => ended'.1 = ended.1) (party config left now)
      (party config right now) := by
  rw [party, party, alike.stage]
  cases left.stage with
  | finished result => exact .done rfl
  | announcing =>
      refine .write fun now answer => ?_
      cases answer with
      | ok _ => exact alike.at _
      | error lapse => exact alike.at _
  | listening =>
      refine .read fun now answer => ?_
      cases answer with
      | ok data => exact alike.absorb data
      | error lapse =>
          cases lapse with
          | expired =>
              dsimp only
              rw [alike.waitedOut]
              split
              · exact alike.at _
              · exact alike.at _
          | ended | failed _ => exact alike.at _
  | reading =>
      refine .read fun now answer => ?_
      cases answer with
      | ok data => exact alike.absorb data
      | error lapse =>
          dsimp only
          rw [alike.session]
          exact alike.at _
  | replying reply rest =>
      refine .write fun now answer => ?_
      cases answer with
      | ok _ => exact alike.absorb rest
      | error lapse => exact alike.at _

/-- A destination with room for the largest image is no limit. -/
theorem bound_of_room {capacity : UInt32} {destination : Buffer}
    (room : capacity.toNat ≤ destination.size) : Session.bound capacity destination = capacity := by
  have small := capacity.toNat_lt
  apply UInt32.toNat_inj.mp
  rw [Session.toNat_bound]
  omega

theorem start_of_room {before : Buffer} (room : config.maxImageSize.toNat ≤ before.size)
    (now : Nat) :
    (start config before now).session = ⟨config.maxImageSize, .idle⟩ ∧
      (start config before now).session.limit before = config.maxImageSize := by
  have capacity : Session.bound config.maxImageSize before = config.maxImageSize :=
    bound_of_room room
  constructor
  · exact congrArg (fun capacity => Session.mk capacity .idle) capacity
  · exact (bound_bound config.maxImageSize before).trans capacity

theorem start_alike {before before' : Buffer} (room : config.maxImageSize.toNat ≤ before.size)
    (room' : config.maxImageSize.toNat ≤ before'.size) (now : Nat) :
    (start config before now).Alike (start config before' now) := by
  obtain ⟨session, limit⟩ := start_of_room room now
  obtain ⟨session', limit'⟩ := start_of_room room' now
  exact ⟨session'.trans session.symm, limit'.trans limit.symm, rfl, rfl⟩

end Steps

/-! ## Whole runs -/

section Runs

variable {config : Config} {before before' : Buffer}

/-- **Over one script, receivers with room for the largest image report the same and leave
the link the same.** -/
theorem runScript_matches (room : config.maxImageSize.toNat ≤ before.size)
    (room' : config.maxImageSize.toNat ≤ before'.size) (fuel now : Nat) (link : ScriptedLink) :
    Option.Rel (fun ended ended' => ended'.1.1 = ended.1.1 ∧ ended'.2 = ended.2)
      ((party config).runScript fuel (start config before now) link)
      ((party config).runScript fuel (start config before' now) link) :=
  Party.runScript_lockstep (fun _ _ now alike => party_matches alike now)
    (start_alike room room' now) fuel link

/-- **Receivers that have gone over one script and report an image have stored the same
bytes.** -/
theorem stored_of_runScript {fuel now : Nat} {link link' : ScriptedLink} {received : Received}
    {after after' : Buffer}
    (runs : (party config).runScript fuel (start config before now) link =
      some ((.ok received, after), link'))
    (runs' : (party config).runScript fuel (start config before' now) link =
      some ((.ok received, after'), link')) :
    ∃ data, received.length = data.length ∧ data.length ≤ config.maxImageSize.toNat ∧
      after = Buffer.store before 0 data ∧ after' = Buffer.store before' 0 data := by
  obtain ⟨events, events', ends, ends', same⟩ := Party.heard_eq_of_runScript runs runs'
  obtain ⟨_, size, data, extra, hears, length, fits, -, reported, rfl, -⟩ := verified_of_ends ends
  obtain ⟨_, size', data', extra', hears', length', -, -, -, rfl, -⟩ := verified_of_ends ends'
  rw [hears, hears'] at same
  obtain ⟨rfl, behind⟩ := Word.encode_append_inj same
  obtain ⟨-, whole⟩ := Word.encode_append_inj behind
  obtain ⟨rfl, -⟩ := List.append_inj whole (length'.trans length.symm)
  rw [Session.bound_lt_iff] at fits
  exact ⟨data', reported, by omega, rfl, rfl⟩

end Runs

end Receiver

end Overlay
