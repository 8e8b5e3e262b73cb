import Overlay.Proofs.Link.Talk
import Overlay.Proofs.Words
import Overlay.Sender

/-!
# The conduct of a sender

A sender says one stream, the size word, the checksum word and the image, and it
says each part of it only once it has heard the marker that asks for it.  What
it has heard up to a marker holds none of the markers that it was waiting for
(`conduct_of_talk`).

A sender that reports success has therefore said the whole stream, and has heard
readiness, acceptance and the checksum of its own image (`verified_of_ends`).
-/

set_option autoImplicit false

namespace Overlay

theorem Marker.ofByte?_eq_some {value : UInt8} {marker : Marker} :
    Marker.ofByte? value = some marker ↔ value = marker.byte := by
  constructor
  · intro stands
    simp only [Marker.ofByte?] at stands
    split at stands
    · cases stands
      assumption
    split at stands
    · cases stands
      assumption
    split at stands
    · cases stands
      assumption
    split at stands
    · cases stands
      assumption
    · cases stands
  · rintro rfl
    exact Marker.ofByte?_byte marker

namespace Sender

open Party (Event Step Talk Ends heard said)

/-! ## What is said -/

/-- The size word of an image. -/
def sizeWord (image : Bytes) : UInt32 := UInt32.ofNat image.length

/-- All that a sender says of an image. -/
def stream (image : Bytes) : Bytes :=
  Word.encode (sizeWord image) ++ (Word.encode (checksum image) ++ image)

/-! ## What is heard -/

/-- Readiness was heard, and `rest` behind it. -/
def Greeted (heard rest : Bytes) : Prop :=
  ∃ noise, Marker.ready.byte ∉ noise ∧ heard = noise ++ Marker.ready.byte :: rest

/-- Bytes that neither accept nor refuse a size. -/
def Undecided (noise : Bytes) : Prop :=
  Marker.sizeAck.byte ∉ noise ∧ Marker.sizeReject.byte ∉ noise

/-- Behind readiness a decision on the size was heard, and `rest` behind it. -/
def Answered (marker : Marker) (heard rest : Bytes) : Prop :=
  ∃ noise, Undecided noise ∧ Greeted heard (noise ++ marker.byte :: rest)

/-- Behind acceptance the check of the image was heard, and `rest` behind it. -/
def Verified (heard rest : Bytes) : Prop :=
  ∃ noise, Marker.verifyAck.byte ∉ noise ∧
    Answered .sizeAck heard (noise ++ Marker.verifyAck.byte :: rest)

theorem Greeted.append {heard rest : Bytes} (greeted : Greeted heard rest) (data : Bytes) :
    Greeted (heard ++ data) (rest ++ data) := by
  obtain ⟨noise, none, rfl⟩ := greeted
  exact ⟨noise, none, by rw [List.append_assoc, List.cons_append]⟩

theorem Answered.append {marker : Marker} {heard rest : Bytes}
    (answered : Answered marker heard rest) (data : Bytes) :
    Answered marker (heard ++ data) (rest ++ data) := by
  obtain ⟨noise, undecided, greeted⟩ := answered
  refine ⟨noise, undecided, ?_⟩
  have grown := greeted.append data
  rwa [List.append_assoc, List.cons_append] at grown

theorem Verified.append {heard rest : Bytes} (verified : Verified heard rest) (data : Bytes) :
    Verified (heard ++ data) (rest ++ data) := by
  obtain ⟨noise, none, answered⟩ := verified
  refine ⟨noise, none, ?_⟩
  have grown := answered.append data
  rwa [List.append_assoc, List.cons_append] at grown

theorem not_mem_snoc {value byte : UInt8} {noise : Bytes} (none : value ∉ noise)
    (other : byte ≠ value) : value ∉ noise ++ [byte] := by
  rw [List.mem_append, List.mem_singleton]
  exact fun found => found.elim none fun same => other same.symm

/-! ## Conduct -/

/-- What the checksum that was heard means to a sender. -/
def verdict (image : Bytes) (received : UInt32) (blocks elapsed : Nat) : Except Fault Report :=
  if received = checksum image then
    .ok ⟨image.length, blocks, checksum image, received, elapsed⟩
  else .error (.checksumMismatch (checksum image) received)

/-- Where a sender is when it has heard and said given bytes, as long as nothing has
lapsed. -/
inductive Conduct (image : Bytes) : Stage → Bytes → Bytes → Prop where
  | awaitReady (deadline : Nat) {heard : Bytes} (none : Marker.ready.byte ∉ heard) :
      Conduct image (.awaitReady deadline) heard []
  | sendSize {heard : Bytes} (greeted : Greeted heard []) :
      Conduct image .sendSize heard []
  | awaitSizeAck {heard noise : Bytes} (undecided : Undecided noise)
      (greeted : Greeted heard noise) :
      Conduct image .awaitSizeAck heard (Word.encode (sizeWord image))
  | readCapacity {heard start : Bytes} (answered : Answered .sizeReject heard start)
      (short : start.length < 4) :
      Conduct image (.readCapacity (WordBuffer.empty.fill start)) heard
        (Word.encode (sizeWord image))
  | refused {heard : Bytes} {capacity : UInt32}
      (answered : Answered .sizeReject heard (Word.encode capacity)) :
      Conduct image (.finished (.error (.sizeRejected (sizeWord image) capacity))) heard
        (Word.encode (sizeWord image))
  | sendChecksum {heard : Bytes} (answered : Answered .sizeAck heard []) :
      Conduct image .sendChecksum heard (Word.encode (sizeWord image))
  | streaming {heard sent rest : Bytes} (blocks : Nat) (answered : Answered .sizeAck heard [])
      (whole : sent ++ rest = image) (any : rest ≠ []) :
      Conduct image (.streaming rest blocks) heard
        (Word.encode (sizeWord image) ++ (Word.encode (checksum image) ++ sent))
  | awaitVerify {heard noise : Bytes} (blocks : Nat) (none : Marker.verifyAck.byte ∉ noise)
      (answered : Answered .sizeAck heard noise) :
      Conduct image (.awaitVerify blocks) heard (stream image)
  | readVerify {heard start : Bytes} (blocks : Nat) (verified : Verified heard start)
      (short : start.length < 4) :
      Conduct image (.readVerify blocks (WordBuffer.empty.fill start)) heard (stream image)
  | finished {heard : Bytes} (blocks elapsed : Nat) {received : UInt32}
      (verified : Verified heard (Word.encode received)) :
      Conduct image (.finished (verdict image received blocks elapsed)) heard (stream image)

/-! ## One step -/

section Steps

variable {config : Config} {image : Bytes} {state next : State} {event : Event}
variable {listened spoken : Bytes}

/-- A state that reports a fault. -/
def State.Failed (state : State) : Prop := ∃ fault, state.stage = .finished (.error fault)

/-- A state to which a lapse has led. -/
def Lapses (event : Event) (state : State) : Prop := event.Lapsed ∧ state.Failed

theorem of_awaitReady {started deadline : Nat} {progress : Progress}
    (step : Step (party config image) ⟨started, progress, .awaitReady deadline⟩ event next) :
    (∃ later, event = .heard [Marker.ready.byte] ∧ next = ⟨later, progress, .sendSize⟩) ∨
      (∃ byte, byte ≠ Marker.ready.byte ∧ event = .heard [byte] ∧
        next = ⟨started, progress, .awaitReady deadline⟩) ∨
      Lapses event next := by
  obtain ⟨byte, later, rfl, rfl⟩ | ⟨lapse, later, rfl, rfl⟩ :=
    step.of_read_byte (fun now => deadline - now) fun _ => rfl
  · simp only [List.head?_cons, Option.bind_some]
    split
    · rename_i stands
      obtain rfl := Marker.ofByte?_eq_some.mp stands
      exact .inl ⟨later, rfl, rfl⟩
    · rename_i unmarked
      exact .inr (.inl ⟨byte, fun ready => unmarked (Marker.ofByte?_eq_some.mpr ready), rfl, rfl⟩)
  · right
    right
    cases lapse with
    | ended | failed _ | expired => exact ⟨trivial, _, rfl⟩

theorem of_readMarker {party : Party State (Except Fault Report × Progress)} {timeout : Nat}
    {phase : Phase} {found : Nat → Marker → State}
    (moves : ∀ now, party state now = readMarker timeout phase state found)
    (step : Step party state event next) :
    (∃ byte later, event = .heard [byte] ∧
        next = match Marker.ofByte? byte with
          | some marker => found later marker
          | none => state) ∨
      Lapses event next := by
  obtain ⟨byte, later, rfl, rfl⟩ | ⟨lapse, later, rfl, rfl⟩ :=
    step.of_read_byte (fun _ => timeout) moves
  · exact .inl ⟨byte, later, rfl, rfl⟩
  · exact .inr ⟨trivial, _, rfl⟩

theorem of_readWord {party : Party State (Except Fault Report × Progress)} {timeout : Nat}
    {phase : Phase} {start : Bytes} (short : start.length < 4) {more : WordBuffer → State}
    {found : Nat → UInt32 → State}
    (moves : ∀ now, party state now =
      readWord timeout phase state (WordBuffer.empty.fill start) more found)
    (step : Step party state event next) :
    (∃ data, event = .heard data ∧
        ((start ++ data).length < 4 ∧ next = more (WordBuffer.empty.fill (start ++ data)) ∨
          ∃ value later, start ++ data = Word.encode value ∧ next = found later value)) ∨
      Lapses event next := by
  obtain ⟨data, later, any, bounded, rfl, rfl⟩ | ⟨lapse, later, rfl, rfl⟩ :=
    step.of_read (fun _ => timeout) moves
  · left
    refine ⟨data, rfl, ?_⟩
    rw [WordBuffer.room_fill short] at bounded
    simp only [WordBuffer.fill_fill]
    obtain ⟨_, unknown, few⟩ | ⟨value, _, enough, known, taken⟩ := WordBuffer.fill_cases short data
    · left
      rw [unknown]
      exact ⟨few, rfl⟩
    · right
      rw [known]
      rw [List.take_of_length_le bounded] at taken
      have whole := Word.eq_encode_append taken
      rw [List.append_nil] at whole
      exact ⟨value, later, whole, rfl⟩
  · exact .inr ⟨trivial, _, rfl⟩

theorem of_writeAll {party : Party State (Except Fault Report × Progress)} {data : Bytes}
    {timeout : Nat} {phase : Phase} {after : State}
    (moves : ∀ now, party state now = writeAll data timeout phase state after)
    (step : Step party state event next) :
    event = .said data ∧ next = after ∨ Lapses event next := by
  obtain ⟨_, rfl, rfl⟩ | ⟨_, _, _, _, rfl, rfl⟩ := step.of_write (fun _ => timeout) moves
  · exact .inl ⟨rfl, rfl⟩
  · exact .inr ⟨trivial, _, rfl⟩

theorem conduct_stream (answered : Answered .sizeAck listened []) {sent rest : Bytes}
    (whole : sent ++ rest = image) (state : State) (blocks : Nat) :
    Conduct image (state.stream rest blocks).stage listened
      (Word.encode (sizeWord image) ++ (Word.encode (checksum image) ++ sent)) := by
  rw [State.stream]
  cases rest with
  | nil =>
      rw [List.append_nil] at whole
      subst whole
      exact .awaitVerify blocks List.not_mem_nil answered
  | cons byte rest => exact .streaming blocks answered whole (List.cons_ne_nil byte rest)

theorem stage_verify (state : State) (image : Bytes) (blocks : Nat) (received : UInt32)
    (now : Nat) :
    (state.verify image blocks received now).stage =
      .finished (verdict image received blocks (now - state.started)) := by
  rw [State.verify, verdict]
  by_cases same : received = checksum image
  · rw [if_pos same, if_pos same]
  · rw [if_neg same, if_neg same]
    rfl

/-- A sender that waits for readiness passes over whatever is no readiness. -/
theorem conduct_awaitReady (started : Nat) (progress : Progress) (deadline : Nat)
    (none : Marker.ready.byte ∉ listened)
    (step : Step (party config image) ⟨started, progress, .awaitReady deadline⟩ event next) :
    Conduct image next.stage (listened ++ event.input) event.output ∨ Lapses event next := by
  obtain ⟨_, rfl, rfl⟩ | ⟨byte, other, rfl, rfl⟩ | failed := of_awaitReady step
  · exact .inl (.sendSize ⟨listened, none, rfl⟩)
  · exact .inl (.awaitReady deadline (not_mem_snoc none other))
  · exact .inr failed

/-- A sender that waits for a decision on the size passes over whatever decides nothing. -/
theorem conduct_awaitSizeAck (started : Nat) (progress : Progress) {noise : Bytes}
    (undecided : Undecided noise) (greeted : Greeted listened noise)
    (step : Step (party config image) ⟨started, progress, .awaitSizeAck⟩ event next) :
    Conduct image next.stage (listened ++ event.input)
        (Word.encode (sizeWord image) ++ event.output) ∨ Lapses event next := by
  obtain ⟨byte, later, rfl, rfl⟩ | failed := of_readMarker (fun _ => rfl) step
  · left
    have grown := greeted.append [byte]
    simp only [Event.input, Event.output, List.append_nil]
    by_cases ack : byte = Marker.sizeAck.byte
    · subst ack
      exact .sendChecksum ⟨noise, undecided, grown⟩
    by_cases reject : byte = Marker.sizeReject.byte
    · subst reject
      exact .readCapacity ⟨noise, undecided, grown⟩ (by decide)
    · have still : Conduct image .awaitSizeAck (listened ++ [byte]) _ :=
        .awaitSizeAck ⟨not_mem_snoc undecided.1 ack, not_mem_snoc undecided.2 reject⟩ grown
      split
      · rename_i marker stands
        have same := Marker.ofByte?_eq_some.mp stands
        cases marker with
        | sizeAck => exact absurd same ack
        | sizeReject => exact absurd same reject
        | ready | verifyAck => exact still
      · exact still
  · exact .inr failed

/-- A sender that waits for the check of its image passes over whatever is none. -/
theorem conduct_awaitVerify (started : Nat) (progress : Progress) (blocks : Nat) {noise : Bytes}
    (none : Marker.verifyAck.byte ∉ noise) (answered : Answered .sizeAck listened noise)
    (step : Step (party config image) ⟨started, progress, .awaitVerify blocks⟩ event next) :
    Conduct image next.stage (listened ++ event.input) (stream image ++ event.output) ∨
      Lapses event next := by
  obtain ⟨byte, later, rfl, rfl⟩ | failed := of_readMarker (fun _ => rfl) step
  · left
    have grown := answered.append [byte]
    simp only [Event.input, Event.output, List.append_nil]
    by_cases ack : byte = Marker.verifyAck.byte
    · subst ack
      exact .readVerify blocks ⟨noise, none, grown⟩ (by decide)
    · have still : Conduct image (.awaitVerify blocks) (listened ++ [byte]) _ :=
        .awaitVerify blocks (not_mem_snoc none ack) grown
      split
      · rename_i marker stands
        have same := Marker.ofByte?_eq_some.mp stands
        cases marker with
        | verifyAck => exact absurd same ack
        | ready | sizeAck | sizeReject => exact still
      · exact still
  · exact .inr failed

/-- **A step of a sender keeps to its conduct, unless a lapse ends the transfer.** -/
theorem Conduct.step (conduct : Conduct image state.stage listened spoken)
    (step : Step (party config image) state event next) :
    Conduct image next.stage (listened ++ event.input) (spoken ++ event.output) ∨
      Lapses event next := by
  obtain ⟨started, progress, stage⟩ := state
  cases conduct with
  | awaitReady deadline none =>
      rw [List.nil_append]
      exact conduct_awaitReady started progress deadline none step
  | sendSize greeted =>
      obtain ⟨rfl, rfl⟩ | failed := of_writeAll (fun _ => rfl) step
      · left
        simp only [Event.input, Event.output, List.append_nil, List.nil_append]
        exact .awaitSizeAck ⟨List.not_mem_nil, List.not_mem_nil⟩ greeted
      · exact .inr failed
  | awaitSizeAck undecided greeted =>
      exact conduct_awaitSizeAck started progress undecided greeted step
  | @readCapacity _ start answered short =>
      let state : State := ⟨started, progress, .readCapacity (WordBuffer.empty.fill start)⟩
      have moves (now : Nat) : party config image state now =
          readWord config.phaseTimeout .size state (WordBuffer.empty.fill start)
            (fun word => state.proceed (.readCapacity word))
            (fun _ capacity => state.fail (.sizeRejected (sizeWord image) capacity)) := rfl
      obtain ⟨data, rfl, ⟨few, rfl⟩ | ⟨capacity, _, whole, rfl⟩⟩ | failed :=
        of_readWord short moves step
      · left
        simp only [Event.input, Event.output, List.append_nil]
        exact .readCapacity (answered.append data) few
      · left
        simp only [Event.input, Event.output, List.append_nil]
        exact .refused (whole ▸ answered.append data)
      · exact .inr failed
  | refused _ => exact (step.not_of_done fun _ => ⟨_, rfl⟩).elim
  | sendChecksum answered =>
      obtain ⟨rfl, rfl⟩ | failed := of_writeAll (fun _ => rfl) step
      · left
        simp only [Event.input, Event.output, List.append_nil]
        have conduct := conduct_stream answered (List.nil_append image)
          ⟨started, progress.start (UInt64.ofNat image.length), .sendChecksum⟩ 0
        rw [List.append_nil] at conduct
        exact conduct
      · exact .inr failed
  | @streaming _ sent rest blocks answered whole _ =>
      obtain ⟨later, rfl, rfl⟩ | ⟨_, lapse, later, _, rfl, rfl⟩ :=
        step.of_write (fun _ => config.phaseTimeout) fun _ => rfl
      · left
        simp only [Event.input, Event.output, List.append_nil, List.append_assoc]
        refine conduct_stream answered ?_ _ (blocks + 1)
        rw [List.append_assoc, List.take_append_drop, whole]
      · exact .inr ⟨trivial, _, rfl⟩
  | awaitVerify blocks none answered =>
      exact conduct_awaitVerify started progress blocks none answered step
  | @readVerify _ start blocks verified short =>
      let state : State := ⟨started, progress, .readVerify blocks (WordBuffer.empty.fill start)⟩
      have moves (now : Nat) : party config image state now =
          readWord config.phaseTimeout .verify state (WordBuffer.empty.fill start)
            (fun word => state.proceed (.readVerify blocks word))
            (fun now received => state.verify image blocks received now) := rfl
      obtain ⟨data, rfl, ⟨few, rfl⟩ | ⟨received, later, whole, rfl⟩⟩ | failed :=
        of_readWord short moves step
      · left
        simp only [Event.input, Event.output, List.append_nil]
        exact .readVerify blocks (verified.append data) few
      · left
        simp only [Event.input, Event.output, List.append_nil]
        rw [stage_verify]
        exact .finished blocks _ (whole ▸ verified.append data)
      · exact .inr failed
  | finished _ _ _ => exact (step.not_of_done fun _ => ⟨_, rfl⟩).elim

theorem State.Failed.not_step (failed : state.Failed)
    (step : Step (party config image) state event next) : False := by
  obtain ⟨fault, stops⟩ := failed
  refine step.not_of_done fun now => ?_
  rw [party, stops]
  exact ⟨_, rfl⟩

theorem stage_of_done {now : Nat} {result : Except Fault Report} {after : Progress}
    (stops : party config image state now = .done (result, after)) :
    state.stage = .finished result := by
  obtain ⟨started, progress, stage⟩ := state
  cases stage with
  | finished _ =>
      cases stops
      rfl
  | awaitReady _ | sendSize | awaitSizeAck | readCapacity _ | sendChecksum | streaming _ _
  | awaitVerify _ | readVerify _ _ => cases stops

end Steps

/-! ## Whole talks -/

section Talks

variable {config : Config} {image : Bytes} {progress : Progress} {started : Nat}
variable {events : List Event} {state : State}

theorem conduct_start (config : Config) (image : Bytes) (progress : Progress) (started : Nat) :
    4294967296 ≤ image.length ∧ (start config image progress started).Failed ∨
      image.length < 4294967296 ∧
        Conduct image (start config image progress started).stage [] [] := by
  by_cases large : 4294967296 ≤ image.length
  · exact .inl ⟨large, .imageTooLarge image.length, by rw [start, if_pos large]⟩
  · refine .inr ⟨Nat.lt_of_not_le large, ?_⟩
    rw [start, if_neg large]
    exact .awaitReady _ List.not_mem_nil

/-- **Whatever a sender has heard and said, it keeps to its conduct, or it has failed.** -/
theorem conduct_of_talk
    (talk : Talk (party config image) (start config image progress started) events state) :
    image.length < 4294967296 ∧ Conduct image state.stage (heard events) (said events) ∨
      state.Failed := by
  induction talk with
  | begin =>
      obtain ⟨_, failed⟩ | conduct := conduct_start config image progress started
      · exact .inr failed
      · exact .inl conduct
  | step _ last ih =>
      rw [Party.heard_append, Party.said_append, Party.heard_singleton, Party.said_singleton]
      obtain ⟨bounded, conduct⟩ | failed := ih
      · exact (conduct.step last).imp (fun conduct => ⟨bounded, conduct⟩) (·.2)
      · exact (failed.not_step last).elim

/-- **A sender that reports success has said its whole stream, and has heard readiness,
acceptance and the checksum of its image.** -/
theorem verified_of_ends {report : Report} {after : Progress}
    (ends : Ends (party config image) (start config image progress started) events
      (.ok report, after)) :
    image.length < 4294967296 ∧ said events = stream image ∧
      Verified (heard events) (Word.encode (checksum image)) ∧
      report.bytes = image.length ∧ report.sentChecksum = checksum image ∧
      report.receivedChecksum = checksum image := by
  obtain ⟨state, talk, now, stops⟩ := ends
  have reported := stage_of_done stops
  obtain ⟨bounded, conduct⟩ | ⟨fault, failed⟩ := conduct_of_talk talk
  · rw [reported] at conduct
    generalize result : Except.ok report = outcome at conduct
    generalize said events = spoken at conduct ⊢
    cases conduct with
    | refused _ => cases result
    | @finished _ blocks elapsed received verified =>
        rw [verdict] at result
        split at result
        · subst received
          cases result
          exact ⟨bounded, rfl, verified, rfl, rfl, rfl⟩
        · cases result
  · rw [failed] at reported
    cases reported

end Talks

end Sender

end Overlay
