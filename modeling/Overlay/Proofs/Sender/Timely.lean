import Overlay.Proofs.Link.Flow
import Overlay.Proofs.Sender.Account
import Overlay.Proofs.Sender.Ending

/-!
# Transfers in time

A sender over a flowing link never lapses while what it waits for comes in time: readiness by the
deadline, and every later arrival within the time for a phase of the one before (`Timely`).  If
all that comes in is a check behind readiness and acceptance, with anything between them that is
not waited for, the sender therefore reports what the check says of its image
(`exists_course_of_verified`).  A prompt link is in time for every sender (`timely_of_prompt`).

Readiness, the decision and the check stand where they are first found (`Greeted.unique`,
`Answered.unique`, `Verified.unique`), and the blocks that are reported are those that the image
is streamed in (`counted_of_smooth`).
-/

set_option autoImplicit false

namespace Overlay.Sender

open Party (Advance Course Event Step Stalled Talk)
open ScriptedLink (Paced decidablePaced incomingOf leaving_cases paced_leaving paced_of_arrived)

/-! ## What has been found -/

section Uniqueness

variable {marker marker' : Marker} {heard rest rest' : Bytes}

theorem greeted_iff : Greeted heard rest ↔ seek [.ready] heard = some (.ready, rest) := by
  rw [seek_eq_some_iff, Greeted]
  simp only [List.mem_singleton, true_and, forall_eq]
  exact exists_congr fun _ => and_comm

theorem Greeted.unique (first : Greeted heard rest) (second : Greeted heard rest') :
    rest = rest' := by
  rw [greeted_iff] at first second
  rw [first] at second
  cases second
  rfl

theorem answered_iff (decides : marker ∈ [Marker.sizeAck, .sizeReject]) :
    Answered marker heard rest ↔ ∃ behind, Greeted heard behind ∧
      seek [.sizeAck, .sizeReject] behind = some (marker, rest) := by
  constructor
  · rintro ⟨noise, ⟨noAck, noReject⟩, greeted⟩
    refine ⟨_, greeted, seek_eq_some_iff.mpr ⟨decides, noise, rfl, ?_⟩⟩
    exact List.forall_mem_cons.mpr ⟨noAck, List.forall_mem_singleton.mpr noReject⟩
  · rintro ⟨_, greeted, found⟩
    obtain ⟨_, noise, rfl, none⟩ := seek_eq_some_iff.mp found
    exact ⟨noise, ⟨none _ (by decide), none _ (by decide)⟩, greeted⟩

/-- The decision on the size, and what stands behind it, is told from what was heard. -/
theorem Answered.unique (decides : marker ∈ [Marker.sizeAck, .sizeReject])
    (decides' : marker' ∈ [Marker.sizeAck, .sizeReject]) (first : Answered marker heard rest)
    (second : Answered marker' heard rest') : marker = marker' ∧ rest = rest' := by
  obtain ⟨_, greeted, found⟩ := (answered_iff decides).mp first
  obtain ⟨_, greeted', found'⟩ := (answered_iff decides').mp second
  rw [← greeted.unique greeted', found] at found'
  cases found'
  exact ⟨rfl, rfl⟩

/-- What stands behind the check of the image is told from what was heard. -/
theorem Verified.unique (first : Verified heard rest) (second : Verified heard rest') :
    rest = rest' := by
  obtain ⟨noise, none, answered⟩ := first
  obtain ⟨noise', none', answered'⟩ := second
  obtain ⟨_, same⟩ := answered.unique (by decide) (by decide) answered'
  have found (noise rest : Bytes) (none : Marker.verifyAck.byte ∉ noise) :
      seek [.verifyAck] (noise ++ Marker.verifyAck.byte :: rest) = some (.verifyAck, rest) :=
    seek_eq_some_iff.mpr ⟨List.mem_singleton.mpr rfl, noise, rfl,
      List.forall_mem_singleton.mpr none⟩
  have both := found noise rest none
  rw [same, found noise' rest' none'] at both
  cases both
  rfl

end Uniqueness

section Verified

variable {image heard spoken : Bytes} {stage : Stage} {received : UInt32}

/-- A sender that has heard the check of its image does not wait for anything more. -/
theorem Conduct.not_read_of_verified {config : Config} {state : State} {now limit timeout : Nat}
    {resume : Nat → Except Lapse Bytes → State}
    (conduct : Conduct image state.stage heard spoken)
    (verified : Verified heard (Word.encode received))
    (move : party config image state now = .read limit timeout resume) : False := by
  have ⟨_, _, answered⟩ := verified
  have ⟨_, _, greeted⟩ := answered
  obtain ⟨started, progress, stage⟩ := state
  cases conduct with
  | sendSize _ | refused _ | sendChecksum _ | streaming _ _ _ _ | finished _ _ _ => cases move
  | awaitReady _ unheard =>
      obtain ⟨_, _, rfl⟩ := greeted
      exact unheard (List.mem_append_right _ List.mem_cons_self)
  | awaitSizeAck undecided greeted' =>
      refine undecided.1 ?_
      rw [greeted'.unique greeted]
      exact List.mem_append_right _ List.mem_cons_self
  | readCapacity answered' _ =>
      exact absurd (answered'.unique (by decide) (by decide) answered).1 nofun
  | awaitVerify _ unheard answered' =>
      refine unheard ?_
      rw [(answered'.unique (by decide) (by decide) answered).2]
      exact List.mem_append_right _ List.mem_cons_self
  | readVerify _ verified' short =>
      rw [verified'.unique verified, Word.length_encode] at short
      exact absurd short (by decide)

/-- A sender that is done, and has heard no more than a check, has said its whole stream and
reports what the check says of its image. -/
theorem Conduct.verdict_of_verified {result : Except Fault Report} {rest : Bytes}
    (conduct : Conduct image (.finished result) heard spoken)
    (verified : Verified (heard ++ rest) (Word.encode received)) :
    ∃ blocks elapsed, spoken = stream image ∧ result = verdict image received blocks elapsed := by
  generalize same : Stage.finished result = stage at conduct
  cases conduct with
  | awaitReady _ _ | sendSize _ | awaitSizeAck _ _ | readCapacity _ _ | sendChecksum _
  | streaming _ _ _ _ | awaitVerify _ _ _ | readVerify _ _ _ => cases same
  | refused answered =>
      obtain ⟨_, _, answered'⟩ := verified
      exact absurd ((answered.append rest).unique (by decide) (by decide) answered').1 nofun
  | @finished _ blocks elapsed received' verified' =>
      have word := (verified'.append rest).unique verified
      rw [← List.append_nil (Word.encode received)] at word
      obtain ⟨rfl, _⟩ := Word.encode_append_inj word
      exact ⟨blocks, elapsed, rfl, Stage.finished.inj same⟩

end Verified

/-! ## Blocks and progress -/

/-- The progress of a sender that has still to say the rest of its image: what is left takes it to
its end. -/
structure Pending (image rest : Bytes) (progress : Progress) : Prop where
  total : progress.total = some (UInt64.ofNat image.length)
  left : progress.position + UInt64.ofNat rest.length = UInt64.ofNat image.length

/-- The blocks that a sender has said, and those that it has left, are the blocks of its image,
and its progress has come as far as they have. -/
def State.Counted (config : Config) (image : Bytes) (state : State) : Prop :=
  match state.stage with
  | .streaming rest blocks =>
      rest ≠ [] ∧ blocks + blockCount config rest = blockCount config image ∧
        Pending image rest state.progress
  | .awaitVerify blocks | .readVerify blocks _ =>
      blocks = blockCount config image ∧ state.progress = streamed image
  | .finished (.ok report) =>
      report.blocks = blockCount config image ∧ state.progress = streamed image
  | .finished (.error (.checksumMismatch _ _)) => state.progress = streamed image
  | _ => True

section Blocks

variable {config : Config} {image rest : Bytes} {state next : State} {event : Event}

theorem Pending.eq_streamed {progress : Progress} (pending : Pending image [] progress) :
    progress = streamed image := by
  obtain ⟨position, total⟩ := progress
  obtain ⟨rfl, left⟩ := pending
  obtain rfl : position = UInt64.ofNat image.length := (UInt64.add_zero position).symm.trans left
  rfl

theorem pending_start (image : Bytes) (progress : Progress) :
    Pending image image (progress.start (UInt64.ofNat image.length)) :=
  ⟨rfl, UInt64.zero_add _⟩

theorem Pending.advance {progress : Progress} (pending : Pending image rest progress)
    (size : Nat) :
    Pending image (rest.drop size)
      (progress.advance (UInt64.ofNat (rest.take size).length)) where
  total := pending.total
  left := by
    have whole := congrArg List.length (List.take_append_drop size rest)
    rw [List.length_append] at whole
    rw [Progress.advance, UInt64.add_assoc, ← UInt64.ofNat_add, whole]
    exact pending.left

theorem counted_stream {blocks : Nat}
    (whole : blocks + blockCount config rest = blockCount config image)
    (pending : Pending image rest state.progress) :
    (state.stream rest blocks).Counted config image := by
  rw [State.stream]
  cases rest with
  | nil =>
      rw [blockCount_nil] at whole
      exact ⟨whole, pending.eq_streamed⟩
  | cons byte rest => exact ⟨List.cons_ne_nil byte rest, whole, pending⟩

theorem counted_verify (streamed : state.progress = streamed image) (received : UInt32)
    (now : Nat) :
    (state.verify image (blockCount config image) received now).Counted config image := by
  rw [State.verify]
  split
  · refine ⟨rfl, ?_⟩
    dsimp only
    rw [streamed]
    rfl
  · exact streamed

theorem verdict_of_counted {received : UInt32} {blocks elapsed : Nat}
    (counted : state.Counted config image)
    (stops : state.stage = .finished (verdict image received blocks elapsed)) :
    state.stage = .finished (verdict image received (blockCount config image) elapsed) ∧
      state.progress = streamed image := by
  rw [verdict] at stops ⊢
  rw [State.Counted, stops] at counted
  by_cases same : received = checksum image
  · simp only [if_pos same] at stops counted ⊢
    exact ⟨counted.1 ▸ stops, counted.2⟩
  · simp only [if_neg same] at stops counted ⊢
    exact ⟨stops, counted⟩

theorem counted_step (counted : state.Counted config image)
    (step : Step (party config image) state event next) (smooth : ¬ event.Lapsed) :
    next.Counted config image := by
  obtain ⟨started, progress, stage⟩ := state
  cases stage with
  | finished _ => exact (step.not_of_done fun _ => ⟨_, rfl⟩).elim
  | awaitReady deadline =>
      obtain ⟨_, _, rfl⟩ | ⟨_, _, _, rfl⟩ | ⟨lapsed, _⟩ := of_awaitReady step
      · trivial
      · trivial
      · exact absurd lapsed smooth
  | awaitSizeAck =>
      obtain ⟨byte, _, _, rfl⟩ | ⟨lapsed, _⟩ := of_readMarker (fun _ => rfl) step
      · cases Marker.ofByte? byte with
        | none => trivial
        | some marker => cases marker <;> trivial
      · exact absurd lapsed smooth
  | awaitVerify blocks =>
      obtain ⟨byte, _, _, rfl⟩ | ⟨lapsed, _⟩ := of_readMarker (fun _ => rfl) step
      · cases Marker.ofByte? byte with
        | none => exact counted
        | some marker => cases marker <;> exact counted
      · exact absurd lapsed smooth
  | readCapacity word =>
      obtain ⟨_, _, _, _, _, rfl⟩ | ⟨_, _, rfl, _⟩ :=
        step.of_read (fun _ => config.phaseTimeout) fun _ => rfl
      · dsimp only
        split <;> trivial
      · exact absurd trivial smooth
  | readVerify blocks word =>
      obtain ⟨_, _, _, _, _, rfl⟩ | ⟨_, _, rfl, _⟩ :=
        step.of_read (fun _ => config.phaseTimeout) fun _ => rfl
      · obtain ⟨rfl, streamed⟩ := counted
        dsimp only
        split
        · exact counted_verify streamed _ _
        · exact ⟨rfl, streamed⟩
      · exact absurd trivial smooth
  | sendSize =>
      obtain ⟨_, _, rfl⟩ | ⟨_, _, _, _, rfl, _⟩ :=
        step.of_write (fun _ => config.phaseTimeout) fun _ => rfl
      · trivial
      · exact absurd trivial smooth
  | sendChecksum =>
      obtain ⟨_, _, rfl⟩ | ⟨_, _, _, _, rfl, _⟩ :=
        step.of_write (fun _ => config.phaseTimeout) fun _ => rfl
      · exact counted_stream (Nat.zero_add _) (pending_start image progress)
      · exact absurd trivial smooth
  | streaming rest blocks =>
      obtain ⟨any, whole, pending⟩ := counted
      obtain ⟨_, _, rfl⟩ | ⟨_, _, _, _, rfl, _⟩ :=
        step.of_write (fun _ => config.phaseTimeout) fun _ => rfl
      · refine counted_stream ?_ (pending.advance _)
        rw [← whole, blockCount_of_ne_nil config any]
        omega
      · exact absurd trivial smooth

/-- **The blocks that a sender reports are those that its image is streamed in**, and its progress
has come to the end then. -/
theorem counted_of_smooth {progress : Progress} {started : Nat} {events : List Event}
    (talk : Talk (party config image) (start config image progress started) events state)
    (smooth : ∀ event ∈ events, ¬ event.Lapsed) : state.Counted config image := by
  refine talk.invariant (fun _ state => state.Counted config image) ?_ smooth
    fun counted smooth step => counted_step counted step smooth
  by_cases large : 4294967296 ≤ image.length
  · rw [start, if_pos large]
    trivial
  · rw [start, if_neg large]
    trivial

end Blocks

/-! ## Time -/

/-- Arrivals come by a deadline, up to the first that brings readiness, and then every arrival
comes within a given time of the one before. -/
def Timely (deadline phase : Nat) : Nat → List Script.Event → Prop
  | _, [] => True
  | clock, event :: rest =>
      event.time ≤ deadline ∧
        if Marker.ready.byte ∈ incomingOf event then Paced phase (max clock event.time) rest
        else Timely deadline phase (max clock event.time) rest

instance decidableTimely (deadline phase : Nat) : (clock : Nat) →
    (arrivals : List Script.Event) → Decidable (Timely deadline phase clock arrivals)
  | _, [] => .isTrue trivial
  | clock, event :: rest =>
      have := decidableTimely deadline phase (max clock event.time) rest
      inferInstanceAs (Decidable (_ ∧ ite _ _ _))

theorem timely_of_arrived {deadline phase clock : Nat} {arrivals : List Script.Event}
    (before : clock ≤ deadline) (arrived : ∀ event ∈ arrivals, event.time ≤ clock) :
    Timely deadline phase clock arrivals := by
  induction arrivals with
  | nil => trivial
  | cons event rest ih =>
      obtain ⟨early, later⟩ := List.forall_mem_cons.mp arrived
      rw [Timely, Nat.max_eq_left early]
      refine ⟨early.trans before, ?_⟩
      split
      · exact paced_of_arrived later
      · exact ih later

theorem timely_of_prompt (config : Config) {link : ScriptedLink} (prompt : link.Prompt) :
    link.Flowing ∧
      Timely (link.clock + config.readyTimeout) config.phaseTimeout link.clock link.arrivals :=
  ⟨prompt.flowing,
    timely_of_arrived (Nat.le_add_right _ _) fun event among => (prompt.arrived event among).1⟩

/-- What is still to arrive comes in time, once given bytes have been heard. -/
def InTime (deadline phase : Nat) (heard : Bytes) (link : ScriptedLink) : Prop :=
  if Marker.ready.byte ∈ heard then Paced phase link.clock link.arrivals
  else link.clock ≤ deadline ∧ Timely deadline phase link.clock link.arrivals

section Leaving

variable {link : ScriptedLink} {event : Script.Event} {rest : List Script.Event}
variable {deadline phase : Nat} {data left : Bytes}

/-- A sender that has read some of an arrival without readiness waits for it until the same
deadline. -/
theorem timely_leaving (timely : Timely deadline phase link.clock (event :: rest))
    (front : incomingOf event = data ++ left) (none : Marker.ready.byte ∉ data) :
    Timely deadline phase (link.leaving event left rest).clock
      (link.leaving event left rest).arrivals := by
  change Timely deadline phase (max link.clock event.time) _
  obtain ⟨inTime, later⟩ := timely
  have ready : Marker.ready.byte ∈ incomingOf event ↔ Marker.ready.byte ∈ left := by
    rw [front, List.mem_append]
    exact or_iff_right none
  simp only [ready] at later
  obtain ⟨rfl, same⟩ | ⟨_, same⟩ := leaving_cases link event left rest
  · rw [same]
    rwa [if_neg List.not_mem_nil] at later
  · rw [same, Timely, max_assoc, max_self]
    exact ⟨inTime, later⟩

theorem paced_of_ready (timely : Timely deadline phase link.clock (event :: rest))
    (front : incomingOf event = data ++ left) (ready : Marker.ready.byte ∈ data) :
    Paced phase (link.leaving event left rest).clock
      (link.leaving event left rest).arrivals := by
  obtain ⟨_, later⟩ := timely
  rw [if_pos (front ▸ List.mem_append_left _ ready)] at later
  exact paced_leaving later left

end Leaving

section Time

variable {link after : ScriptedLink} {deadline phase limit timeout : Nat} {heard data : Bytes}

theorem InTime.read (inTime : InTime deadline phase heard link) (flowing : link.Flowing)
    (answer : link.read limit timeout = (.ok data, after)) :
    after.Flowing ∧ InTime deadline phase (heard ++ data) after := by
  obtain ⟨event, rest, left, next, _, front, rfl, flowing⟩ := flowing.of_read answer
  refine ⟨flowing, ?_⟩
  rw [InTime, next] at inTime
  rw [InTime]
  by_cases greeted : Marker.ready.byte ∈ heard
  · rw [if_pos greeted] at inTime
    rw [if_pos (List.mem_append_left _ greeted)]
    exact paced_leaving inTime.2 left
  · rw [if_neg greeted] at inTime
    obtain ⟨early, timely⟩ := inTime
    by_cases ready : Marker.ready.byte ∈ data
    · rw [if_pos (List.mem_append_right _ ready)]
      exact paced_of_ready timely front ready
    · rw [if_neg fun found => (List.mem_append.mp found).elim greeted ready]
      exact ⟨Nat.max_le.mpr ⟨early, timely.1⟩, timely_leaving timely front ready⟩

/-- Nothing comes later because something is written. -/
theorem InTime.write (inTime : InTime deadline phase heard link) (data : Bytes) :
    InTime deadline phase heard (link.accept data) := by
  obtain ⟨accepted, noted⟩ := link.exists_accept data
  rw [noted]
  exact inTime

variable {σ ρ : Type} {party : Party σ ρ} {start state : σ} {events : List Event}

/-- **What comes in time for a party that does not pause comes in time all along its course**, as
long as nothing lapses. -/
theorem inTime_of_course
    (restless : ∀ {state now duration resume}, party state now ≠ .pause duration resume)
    (course : Course party start link events state after) (flowing : link.Flowing)
    (inTime : InTime deadline phase [] link) (smooth : ∀ event ∈ events, ¬ event.Lapsed) :
    after.Flowing ∧ InTime deadline phase (Party.heard events) after := by
  refine course.invariant (fun events _ link => link.Flowing ∧
    InTime deadline phase (Party.heard events) link) ⟨flowing, inTime⟩ smooth ?_
  intro events state event next link after holds smooth advance
  obtain ⟨flowing, inTime⟩ := holds
  rw [Party.heard_append, Party.heard_singleton]
  cases advance with
  | heard move answer => exact inTime.read flowing answer
  | @said _ timeout data _ move answer =>
      obtain ⟨goes, flowing⟩ := flowing.write data timeout
      rw [answer] at goes
      cases goes
      simp only [Event.input, List.append_nil]
      exact ⟨flowing, inTime.write data⟩
  | unheard _ _ | unsaid _ _ _ => exact absurd trivial smooth
  | paused move => exact absurd move restless

end Time

/-! ## Transfers -/

section Transfers

variable {config : Config} {image : Bytes} {progress : Progress} {started : Nat}
variable {events : List Event} {state : State} {link after : ScriptedLink} {listened spoken : Bytes}

theorem conduct_of_smooth (small : image.length < 4294967296)
    (talk : Talk (party config image) (start config image progress started) events state)
    (smooth : ∀ event ∈ events, ¬ event.Lapsed) :
    Conduct image state.stage (Party.heard events) (Party.said events) := by
  refine talk.invariant (fun events state =>
    Conduct image state.stage (Party.heard events) (Party.said events)) ?_ smooth ?_
  · obtain ⟨large, _⟩ | ⟨_, conduct⟩ := conduct_start config image progress started
    · exact absurd small (Nat.not_lt_of_le large)
    · exact conduct
  · intro events state event next conduct smooth step
    rw [Party.heard_append, Party.said_append, Party.heard_singleton, Party.said_singleton]
    exact (conduct.step step).resolve_right fun failed => smooth failed.1

/-- A sender to which nothing lapses is as it began as long as it hears no readiness. -/
theorem state_of_unready (small : image.length < 4294967296)
    (talk : Talk (party config image) (start config image progress started) events state)
    (smooth : ∀ event ∈ events, ¬ event.Lapsed)
    (none : Marker.ready.byte ∉ Party.heard events) :
    state = ⟨started, progress, .awaitReady (started + config.readyTimeout)⟩ := by
  refine talk.invariant (fun events state => Marker.ready.byte ∉ Party.heard events →
    state = ⟨started, progress, .awaitReady (started + config.readyTimeout)⟩) ?_ smooth ?_ none
  · intro _
    rw [start, if_neg (Nat.not_le_of_lt small)]
  · intro events state event next waits smooth step none
    rw [Party.heard_append, Party.heard_singleton, List.mem_append, not_or] at none
    obtain rfl := waits none.1
    obtain ⟨_, rfl, _⟩ | ⟨_, _, _, rfl⟩ | ⟨lapsed, _⟩ := of_awaitReady step
    · exact absurd (List.mem_singleton.mpr rfl) none.2
    · rfl
    · exact absurd lapsed smooth

/-- A sender that wants to read asks for at least one byte, and once it has heard readiness it
waits for no longer than the time for a phase. -/
theorem Conduct.waits {now limit timeout : Nat} {resume : Nat → Except Lapse Bytes → State}
    (conduct : Conduct image state.stage listened spoken)
    (move : party config image state now = .read limit timeout resume) :
    0 < limit ∧ (Marker.ready.byte ∈ listened → timeout = config.phaseTimeout) := by
  obtain ⟨started, progress, stage⟩ := state
  cases conduct with
  | sendSize _ | refused _ | sendChecksum _ | streaming _ _ _ _ | finished _ _ _ => cases move
  | awaitReady _ unheard =>
      cases move
      exact ⟨Nat.one_pos, fun heard => absurd heard unheard⟩
  | awaitSizeAck _ _ | awaitVerify _ _ _ =>
      cases move
      exact ⟨Nat.one_pos, fun _ => rfl⟩
  | readCapacity _ short | readVerify _ _ short =>
      cases move
      rw [WordBuffer.room_fill short]
      exact ⟨Nat.sub_pos_of_lt short, fun _ => rfl⟩

theorem time_le_of_read {limit timeout : Nat} {resume : Nat → Except Lapse Bytes → State}
    {event : Script.Event} {rest : List Script.Event} (small : image.length < 4294967296)
    (talk : Talk (party config image) (start config image progress started) events state)
    (smooth : ∀ event ∈ events, ¬ event.Lapsed)
    (inTime : InTime (started + config.readyTimeout) config.phaseTimeout (Party.heard events) link)
    (next : link.arrivals = event :: rest)
    (move : party config image state link.clock = .read limit timeout resume) :
    event.time ≤ link.clock + timeout := by
  rw [InTime, next] at inTime
  by_cases greeted : Marker.ready.byte ∈ Party.heard events
  · rw [if_pos greeted] at inTime
    rw [((conduct_of_smooth small talk smooth).waits move).2 greeted]
    exact inTime.1
  · rw [if_neg greeted] at inTime
    obtain ⟨early, inTime, _⟩ := inTime
    rw [state_of_unready small talk smooth greeted] at move
    cases move
    omega

/-- **Nothing lapses before the check of the image has been heard**, if everything comes in
time. -/
theorem not_lapsed (small : image.length < 4294967296) (flowing : link.Flowing)
    (timely : Timely (link.clock + config.readyTimeout) config.phaseTimeout link.clock
      link.arrivals)
    {received : UInt32} (verified : Verified link.incoming (Word.encode received))
    (course : Course (party config image) (start config image progress link.clock) link events
      state after)
    (smooth : ∀ event ∈ events, ¬ event.Lapsed) {event : Event} {next : State}
    {later : ScriptedLink} (last : Advance (party config image) state after event next later) :
    ¬ event.Lapsed := by
  have inTime : InTime (link.clock + config.readyTimeout) config.phaseTimeout [] link :=
    (if_neg List.not_mem_nil).mpr ⟨Nat.le_add_right _ _, timely⟩
  obtain ⟨flowing, inTime⟩ := inTime_of_course ne_pause course flowing inTime smooth
  have conduct := conduct_of_smooth small course.talk smooth
  cases last with
  | heard _ _ | said _ _ | paused _ => exact not_false
  | @unheard _ _ timeout _ _ move answer =>
      cases next : after.arrivals with
      | nil =>
          have arrived := course.incoming_eq
          rw [ScriptedLink.incoming_of_nil next, List.append_nil] at arrived
          exact (conduct.not_read_of_verified (arrived ▸ verified) move).elim
      | cons event rest =>
          obtain ⟨_, _, same, _⟩ := flowing.read next (conduct.waits move).1
            (time_le_of_read small course.talk smooth inTime next move)
          rw [answer] at same
          cases same
  | @unsaid _ timeout data _ _ _ _ answer _ =>
      rw [(flowing.write data timeout).1] at answer
      cases answer

/-- **A sender to which a check comes in time reports what it says of the image**, and it has said
its whole stream. -/
theorem exists_course_of_verified (progress : Progress) (small : image.length < 4294967296)
    (flowing : link.Flowing)
    (timely : Timely (link.clock + config.readyTimeout) config.phaseTimeout link.clock
      link.arrivals)
    {received : UInt32} (verified : Verified link.incoming (Word.encode received)) :
    ∃ events final after elapsed,
      Course (party config image) (start config image progress link.clock) link events final
        after ∧
      final.stage = .finished (verdict image received (blockCount config image) elapsed) ∧
      final.progress = streamed image ∧ after.written = link.written ++ stream image := by
  obtain ⟨events, final, after, course, smooth, stalled⟩ :=
    (limited config image).exists_course (start config image progress link.clock) link
  have arrived := course.incoming_eq
  have written := course.written_eq
  have counted := counted_of_smooth course.talk smooth
  cases stalled with
  | lapsed lapses last =>
      exact absurd lapses (not_lapsed small flowing timely verified course smooth last)
  | @done result stops =>
      have conduct := conduct_of_smooth small course.talk smooth
      have stops := stage_of_done stops
      rw [stops] at conduct
      rw [arrived] at verified
      obtain ⟨blocks, elapsed, spoken, reports⟩ := conduct.verdict_of_verified verified
      obtain ⟨stage, streamed⟩ := verdict_of_counted counted (reports ▸ stops)
      exact ⟨events, final, after, elapsed, course, stage, streamed, spoken ▸ written⟩

end Transfers

end Overlay.Sender
