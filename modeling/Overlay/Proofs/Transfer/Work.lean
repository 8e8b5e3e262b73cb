import Overlay.Proofs.Transfer.World

/-!
# The work that is left in a world

How many moves a world can still take is bounded by a number that every move makes
smaller.  Each byte counts once for the read that is due to it and once more while
it is still to be written; each end counts what it has left to say, and each session
that has not begun counts in full.
-/

set_option autoImplicit false

namespace Overlay.Transfer

open Party (Event Step)

/-! ## A sender -/

/-- What a sender in a given stage has left to do. -/
def senderWork (image : Bytes) : Sender.Stage → Nat
  | .awaitReady _ | .sendSize => 20 + 3 * image.length
  | .awaitSizeAck | .sendChecksum => 11 + 3 * image.length
  | .streaming rest _ => 2 + 3 * rest.length
  | .readCapacity _ | .awaitVerify _ | .readVerify _ _ | .finished _ => 1

section Senders

variable {config : Sender.Config} {image data : Bytes} {state next : Sender.State}

theorem senderWork_heard (step : Step (Sender.party config image) state (.heard data) next) :
    senderWork image next.stage ≤ senderWork image state.stage := by
  obtain ⟨started, progress, stage⟩ := state
  cases stage with
  | finished _ => exact (step.not_of_done fun _ => ⟨_, rfl⟩).elim
  | sendSize | sendChecksum | streaming _ _ =>
      obtain ⟨_, said, _⟩ | ⟨_, _, _, _, said, _⟩ :=
        step.of_write (fun _ => config.phaseTimeout) fun _ => rfl
      · cases said
      · cases said
  | awaitReady deadline =>
      obtain ⟨_, _, _, _, _, rfl⟩ | ⟨_, _, unheard, _⟩ :=
        step.of_read (fun now => deadline - now) fun _ => rfl
      · dsimp only
        split <;> exact Nat.le_refl _
      · cases unheard
  | awaitSizeAck =>
      obtain ⟨_, _, _, _, _, rfl⟩ | ⟨_, _, unheard, _⟩ :=
        step.of_read (fun _ => config.phaseTimeout) fun _ => rfl
      · dsimp only
        split
        · split
          · exact Nat.le_refl _
          · exact Nat.le_trans (show 1 ≤ 11 by decide) (Nat.le_add_right 11 _)
          · exact Nat.le_refl _
        · exact Nat.le_refl _
      · cases unheard
  | awaitVerify blocks =>
      obtain ⟨_, _, _, _, _, rfl⟩ | ⟨_, _, unheard, _⟩ :=
        step.of_read (fun _ => config.phaseTimeout) fun _ => rfl
      · dsimp only
        split
        · split <;> exact Nat.le_refl 1
        · exact Nat.le_refl 1
      · cases unheard
  | readCapacity word =>
      obtain ⟨_, _, _, _, _, rfl⟩ | ⟨_, _, unheard, _⟩ :=
        step.of_read (fun _ => config.phaseTimeout) fun _ => rfl
      · dsimp only
        split <;> exact Nat.le_refl 1
      · cases unheard
  | readVerify blocks word =>
      obtain ⟨_, _, _, _, _, rfl⟩ | ⟨_, _, unheard, _⟩ :=
        step.of_read (fun _ => config.phaseTimeout) fun _ => rfl
      · dsimp only
        split
        · rw [Sender.stage_verify]
          exact Nat.le_refl 1
        · exact Nat.le_refl 1
      · cases unheard

theorem senderWork_stream (image : Bytes) (state : Sender.State) (rest : Bytes) (blocks : Nat) :
    senderWork image (state.stream rest blocks).stage =
      if rest.length = 0 then 1 else 2 + 3 * rest.length := by
  rw [Sender.State.stream]
  cases rest with
  | nil => rfl
  | cons byte rest => rfl

/-- What a sender says was counted twice for every byte. -/
theorem senderWork_said (step : Step (Sender.party config image) state (.said data) next) :
    senderWork image next.stage + 2 * data.length + 1 ≤ senderWork image state.stage := by
  obtain ⟨started, progress, stage⟩ := state
  cases stage with
  | finished _ => exact (step.not_of_done fun _ => ⟨_, rfl⟩).elim
  | awaitReady deadline =>
      obtain ⟨_, _, _, _, heard, _⟩ | ⟨_, _, heard, _⟩ :=
        step.of_read (fun now => deadline - now) fun _ => rfl
      · cases heard
      · cases heard
  | awaitSizeAck | awaitVerify _ | readCapacity _ | readVerify _ _ =>
      obtain ⟨_, _, _, _, heard, _⟩ | ⟨_, _, heard, _⟩ :=
        step.of_read (fun _ => config.phaseTimeout) fun _ => rfl
      · cases heard
      · cases heard
  | sendSize =>
      obtain ⟨_, said, rfl⟩ | ⟨_, _, _, _, said, _⟩ :=
        step.of_write (fun _ => config.phaseTimeout) fun _ => rfl
      · cases said
        simp only [senderWork, Sender.State.proceed, Word.length_encode]
        omega
      · cases said
  | sendChecksum =>
      obtain ⟨_, said, rfl⟩ | ⟨_, _, _, _, said, _⟩ :=
        step.of_write (fun _ => config.phaseTimeout) fun _ => rfl
      · cases said
        change senderWork image (Sender.State.stream _ image 0).stage + _ + 1 ≤
          11 + 3 * image.length
        rw [senderWork_stream, Word.length_encode]
        split <;> omega
      · cases said
  | streaming rest blocks =>
      obtain ⟨_, said, rfl⟩ | ⟨_, _, _, _, said, _⟩ :=
        step.of_write (fun _ => config.phaseTimeout) fun _ => rfl
      · cases said
        change senderWork image (Sender.State.stream _ _ _).stage + _ + 1 ≤ 2 + 3 * rest.length
        rw [senderWork_stream, List.length_drop, List.length_take]
        split <;> omega
      · cases said

end Senders

/-! ## A receiver -/

/-- What a session in a given stage has left to do. -/
def sessionWork : Session.Stage → Nat
  | .idle | .awaitSize _ => 20
  | .awaitChecksum _ _ | .streaming _ _ _ _ => 14
  | .complete _ _ _ | .rejected _ _ => 0

/-- What a receiver has left to do. -/
def receiverWork (state : Receiver.State) : Nat :=
  match state.stage with
  | .announcing => sessionWork state.session.stage + 4
  | .listening | .reading => sessionWork state.session.stage + 1
  | .replying reply _ => sessionWork state.session.stage + 2 * reply.encode.length + 5
  | .finished _ => 1

/-- What a reply costs. -/
def replyWork : Option Reply → Nat
  | none => 0
  | some reply => 2 * reply.encode.length + 4

section Sessions

variable (session : Session) (input : Bytes) (destination : Buffer)

theorem takeImage_work (size expected : UInt32) (received : Nat) (check : Crc32) (used : Nat) :
    let step := session.takeImage size expected received check used input destination
    step.session.stage.phase ≠ .ready ∧
      sessionWork step.session.stage + replyWork step.reply ≤ 14 := by
  intro step
  simp only [step, Session.takeImage]
  split
  all_goals
    refine ⟨?_, Nat.le_refl 14⟩
    intro ready
    cases ready

theorem takeChecksum_work (size : UInt32) (word : WordBuffer) :
    let step := session.takeChecksum size word input destination
    step.session.stage.phase ≠ .ready ∧
      sessionWork step.session.stage + replyWork step.reply ≤ 14 := by
  intro step
  simp only [step, Session.takeChecksum]
  split
  · refine ⟨?_, Nat.le_refl 14⟩
    intro ready
    cases ready
  · exact takeImage_work _ _ _ _ _ _ _ _

theorem takeSize_work (word : WordBuffer) :
    let step := session.takeSize word input destination
    step.session.stage.phase ≠ .ready ∧
      sessionWork step.session.stage + replyWork step.reply ≤ 20 := by
  intro step
  simp only [step, Session.takeSize]
  split
  · refine ⟨?_, Nat.le_refl 20⟩
    intro ready
    cases ready
  · split
    · refine ⟨?_, show 14 ≤ 20 by decide⟩
      intro ready
      cases ready
    · refine ⟨?_, Nat.le_refl 20⟩
      intro ready
      cases ready

/-- A session that is fed pays for its replies. -/
theorem consume_work (any : input ≠ []) :
    let step := session.consume input destination
    step.session.stage.phase ≠ .ready ∧
      sessionWork step.session.stage + replyWork step.reply ≤ sessionWork session.stage := by
  obtain ⟨capacity, stage⟩ := session
  cases stage with
  | idle =>
      have nonempty : input.isEmpty = false := List.isEmpty_eq_false_iff.mpr any
      simp only [Session.consume, nonempty]
      exact takeSize_work _ _ _ _
  | awaitSize word => exact takeSize_work _ _ _ _
  | awaitChecksum size word => exact takeChecksum_work _ _ _ _ _
  | streaming size expected received check => exact takeImage_work _ _ _ _ _ _ _ _
  | complete _ _ _ | rejected _ _ => exact ⟨nofun, Nat.le_refl 0⟩

end Sessions

section Receivers

variable {config : Receiver.Config} {data : Bytes} {state next : Receiver.State}

theorem receiverWork_settle (state : Receiver.State) :
    receiverWork state.settle ≤ sessionWork state.session.stage + 4 ∧
      (state.session.stage.phase ≠ .ready →
        receiverWork state.settle ≤ sessionWork state.session.stage + 1) := by
  rw [Receiver.State.settle]
  split
  · exact ⟨Nat.le_trans (Nat.le_add_left 1 _) (Nat.le_add_right _ 3), fun _ => Nat.le_add_left 1 _⟩
  · split
    · exact ⟨Nat.le_refl _, fun past => absurd ‹_› past⟩
    · exact ⟨Nat.le_add_right _ 3, fun _ => Nat.le_refl _⟩

theorem receiverWork_absorb (state : Receiver.State) (input : Bytes) :
    receiverWork (state.absorb input) ≤ sessionWork state.session.stage + 4 ∧
      (input ≠ [] → receiverWork (state.absorb input) ≤ sessionWork state.session.stage + 1) := by
  have settle := receiverWork_settle state
  by_cases idle : input = []
  · subst idle
    exact ⟨settle.1, absurd rfl⟩
  suffices one : receiverWork (state.absorb input) ≤ sessionWork state.session.stage + 1 from
    ⟨Nat.le_trans one (Nat.le_add_right _ 3), fun _ => one⟩
  by_cases stops : state.session.stage.finished = true
  · rw [Receiver.State.absorb, if_pos (by rw [stops, Bool.or_true])]
    refine settle.2 ?_
    generalize state.session.stage = stage at stops
    cases stage with
    | complete _ _ _ | rejected _ _ =>
        intro ready
        cases ready
    | idle | awaitSize _ | awaitChecksum _ _ | streaming _ _ _ _ => cases stops
  · obtain ⟨past, paid⟩ := consume_work state.session input state.destination idle
    rw [Receiver.State.absorb,
      if_neg (by rw [List.isEmpty_eq_false_iff.mpr idle, Bool.false_or]; exact stops)]
    dsimp only
    cases due : (state.session.consume input state.destination).reply with
    | some reply =>
        rw [due] at paid
        simp only [receiverWork, replyWork] at paid ⊢
        omega
    | none =>
        rw [due] at paid
        have := (receiverWork_settle { state with
          session := (state.session.consume input state.destination).session
          destination := (state.session.consume input state.destination).destination }).2 past
        simp only [replyWork] at this paid ⊢
        omega

theorem receiverWork_heard (step : Step (Receiver.party config) state (.heard data) next) :
    receiverWork next ≤ receiverWork state := by
  obtain ⟨session, destination, started, stage⟩ := state
  cases stage with
  | finished _ => exact (step.not_of_done fun _ => ⟨_, rfl⟩).elim
  | announcing | replying _ _ =>
      obtain ⟨_, said, _⟩ | ⟨_, _, _, _, said, _⟩ :=
        step.of_write (fun _ => config.phaseTimeout) fun _ => rfl
      · cases said
      · cases said
  | listening =>
      obtain ⟨_, _, any, _, heard, rfl⟩ | ⟨_, _, unheard, _⟩ :=
        step.of_read (fun _ => config.readyInterval) fun _ => rfl
      · exact (receiverWork_absorb ⟨session, destination, started, .listening⟩ _).2 any
      · cases unheard
  | reading =>
      obtain ⟨_, _, any, _, heard, rfl⟩ | ⟨_, _, unheard, _⟩ :=
        step.of_read (fun _ => config.phaseTimeout) fun _ => rfl
      · exact (receiverWork_absorb ⟨session, destination, started, .reading⟩ _).2 any
      · cases unheard

theorem receiverWork_said (step : Step (Receiver.party config) state (.said data) next) :
    receiverWork next + 2 * data.length + 1 ≤ receiverWork state := by
  obtain ⟨session, destination, started, stage⟩ := state
  cases stage with
  | finished _ => exact (step.not_of_done fun _ => ⟨_, rfl⟩).elim
  | listening =>
      obtain ⟨_, _, _, _, heard, _⟩ | ⟨_, _, heard, _⟩ :=
        step.of_read (fun _ => config.readyInterval) fun _ => rfl
      · cases heard
      · cases heard
  | reading =>
      obtain ⟨_, _, _, _, heard, _⟩ | ⟨_, _, heard, _⟩ :=
        step.of_read (fun _ => config.phaseTimeout) fun _ => rfl
      · cases heard
      · cases heard
  | announcing =>
      obtain ⟨_, said, rfl⟩ | ⟨_, _, _, _, said, _⟩ :=
        step.of_write (fun _ => config.phaseTimeout) fun _ => rfl
      · cases said
        exact Nat.le_refl _
      · cases said
  | replying reply rest =>
      obtain ⟨_, said, rfl⟩ | ⟨_, _, _, _, said, _⟩ :=
        step.of_write (fun _ => config.phaseTimeout) fun _ => rfl
      · cases said
        have absorbed :=
          (receiverWork_absorb ⟨session, destination, started, .replying reply rest⟩ rest).1
        change receiverWork (Receiver.State.absorb _ rest) + _ + 1 ≤
          sessionWork session.stage + 2 * reply.encode.length + 5
        dsimp only at absorbed
        omega
      · cases said

/-- To say its readiness again gives a receiver three more to do. -/
theorem receiverWork_unheard {lapse : Lapse}
    (step : Step (Receiver.party config) state (.unheard lapse) next)
    (again : next.stage = .announcing) : receiverWork next ≤ receiverWork state + 3 := by
  obtain ⟨session, destination, started, stage⟩ := state
  cases stage with
  | finished _ => exact (step.not_of_done fun _ => ⟨_, rfl⟩).elim
  | announcing | replying _ _ =>
      obtain ⟨_, said, _⟩ | ⟨_, _, _, _, said, _⟩ :=
        step.of_write (fun _ => config.phaseTimeout) fun _ => rfl
      · cases said
      · cases said
  | reading =>
      obtain ⟨_, _, _, _, heard, _⟩ | ⟨_, _, _, rfl⟩ :=
        step.of_read (fun _ => config.phaseTimeout) fun _ => rfl
      · cases heard
      · cases again
  | listening =>
      obtain ⟨_, _, _, _, heard, _⟩ | ⟨lapse, later, _, rfl⟩ :=
        step.of_read (fun _ => config.readyInterval) fun _ => rfl
      · cases heard
      · cases lapse with
        | ended | failed _ => cases again
        | expired =>
            dsimp only at again ⊢
            split
            · exact Nat.le_trans (Nat.le_add_left 1 _) (Nat.le_add_right _ 3)
            · exact Nat.le_refl _

end Receivers

/-! ## A world -/

/-- What a line has left to do. -/
def Line.work (line : Line) : Nat := line.queue.length + 2 * line.pending.length

/-- What sending images costs. -/
def uploadWork : List Upload → Nat
  | [] => 0
  | upload :: rest => 21 + 3 * upload.image.length + uploadWork rest

/-- What the host has left to do: the session that is under way, and those behind it. -/
def hostWork (uploads : List Upload) : Option Sender.State → Nat
  | none => uploadWork uploads
  | some state =>
      match uploads with
      | [] => 0
      | upload :: rest => senderWork upload.image state.stage + uploadWork rest

/-- What the device has left to do: the session that is under way, and those behind it. -/
def deviceWork (sessions : Nat) : Option Receiver.State → Nat
  | none => 25 * sessions
  | some state => receiverWork state + 25 * (sessions - 1)

/-- What is left to do in a world. -/
def World.work (uploads : List Upload) (world : World) : Nat :=
  hostWork (uploads.drop world.reports.length) world.host +
    deviceWork (uploads.length - world.receipts.length) world.device +
    world.forth.work + world.back.work + 4 * world.repeats

section Worlds

variable {uploads : List Upload} {config : Receiver.Config} {world next : World}

theorem Acts.work_lt {σ ρ : Type} {party : Party σ ρ} {state next : σ}
    {incoming outgoing incoming' outgoing' : Line}
    (acts : Acts party state incoming outgoing next incoming' outgoing') (work : σ → Nat)
    (heard : ∀ {data}, Step party state (.heard data) next → work next ≤ work state)
    (said : ∀ {data}, Step party state (.said data) next →
      work next + 2 * data.length + 1 ≤ work state) :
    work next + incoming'.work + outgoing'.work < work state + incoming.work + outgoing.work := by
  cases acts with
  | hears step =>
      have := heard step
      have := List.length_pos_iff.mpr step.any_of_heard
      simp only [Line.work, List.length_append]
      omega
  | tells step =>
      have := said step
      simp only [Line.work, List.length_nil]
      omega

/-- A piece of a write counts for less once it is in the queue. -/
theorem Passes.work_lt {line line' : Line} (passes : Passes line line') :
    line'.work < line.work := by
  cases passes with
  | pass any =>
      have := List.length_pos_iff.mpr any
      simp only [Line.work, List.length_append]
      omega

theorem drop_of_due {count : Nat} {upload : Upload} (due : uploads[count]? = some upload) :
    uploads.drop count = upload :: uploads.drop (count + 1) := by
  obtain ⟨bounded, rfl⟩ := List.getElem?_eq_some_iff.mp due
  exact List.drop_eq_getElem_cons bounded

theorem senderWork_start (config : Sender.Config) (image : Bytes) (progress : Progress)
    (now : Nat) :
    senderWork image (Sender.start config image progress now).stage ≤ 20 + 3 * image.length := by
  rw [Sender.start]
  dsimp only
  split
  · exact Nat.le_trans (show 1 ≤ 20 by decide) (Nat.le_add_right 20 _)
  · exact Nat.le_refl _

/-- **Every move takes away from what is left to do.** -/
theorem Move.work_lt (move : Move uploads config world next) :
    next.work uploads < world.work uploads := by
  cases move with
  | @hostBegins upload idle due progress now =>
      have := senderWork_start upload.config upload.image progress now
      simp only [World.work, idle, drop_of_due due, hostWork, uploadWork]
      omega
  | @hostActs upload state after back forth active due acts =>
      have := acts.work_lt (fun state => senderWork upload.image state.stage)
        senderWork_heard senderWork_said
      simp only [World.work, active, drop_of_due due, hostWork]
      omega
  | @hostEnds upload state result progress now active due stops _ =>
      have finished : senderWork upload.image state.stage = 1 := by
        rw [Sender.stage_of_done stops]
        rfl
      simp only [World.work, active, drop_of_due due, hostWork, finished, List.length_append,
        List.length_singleton]
      omega
  | deviceBegins idle due now =>
      have start : receiverWork (Receiver.start config world.place now) = 24 := rfl
      simp only [World.work, idle, deviceWork, start]
      omega
  | @deviceActs state after forth back active acts =>
      have := acts.work_lt receiverWork receiverWork_heard receiverWork_said
      simp only [World.work, active, deviceWork]
      omega
  | @deviceRepeats state after repeats active _ step again left =>
      have := receiverWork_unheard step again
      simp only [World.work, active, deviceWork, left]
      omega
  | @deviceEnds state result after now active stops _ =>
      have finished : receiverWork state = 1 := by
        rw [receiverWork, (Receiver.stage_of_done stops).1]
      simp only [World.work, active, deviceWork, finished, List.length_append,
        List.length_singleton]
      omega
  | forthPasses passes =>
      have := passes.work_lt
      simp only [World.work]
      omega
  | backPasses passes =>
      have := passes.work_lt
      simp only [World.work]
      omega

end Worlds

end Overlay.Transfer
