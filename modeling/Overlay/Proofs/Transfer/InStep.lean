import Overlay.Proofs.Transfer.World

/-!
# Host and device in step

Host and device are at the same session, or one of them is ahead by the session that
the other is about to finish.  At the same session each has heard what the other has
said, but for what its line still owes it.  A device that is ahead has so far said no
more than readiness, behind the replies that the host still has to hear; a host that
is ahead has nothing to hear and has said nothing.

Every move keeps the two ends in step.
-/

set_option autoImplicit false

namespace Overlay.Transfer

open Party (Event Step)
open Session (bound reading)
open Receiver (utter calls)

/-! ## The two ends -/

/-- What the host has heard and said in the session that it is at. -/
inductive HostAt (upload? : Option Upload) : Option Sender.State → Bytes → Bytes → Prop where
  | idle : HostAt upload? none [] []
  | active {upload : Upload} {state : Sender.State} {heard said : Bytes}
      (due : upload? = some upload) (conduct : Sender.Conduct upload.image state.stage heard said) :
      HostAt upload? (some state) heard said

/-- What the device has heard and said in the session that it is at, if it has to be at
one. -/
inductive DeviceAt (limit : UInt32) (place : Buffer) (due : Prop) :
    Option Receiver.State → Bytes → Bytes → Prop where
  | idle : DeviceAt limit place due none [] []
  | active {state : Receiver.State} {started : Nat} {listened uttered : Bytes} (holds : due)
      (conduct : Receiver.Conduct limit place started state listened uttered) :
      DeviceAt limit place due (some state) listened uttered

/-- How far the two ends are in step. -/
inductive InStep (uploads : List Upload) (limit : UInt32) (world : World) : Prop where
  /-- Both are at the same session. -/
  | abreast {heard said listened uttered : Bytes}
      (level : world.receipts.length = world.reports.length)
      (host : HostAt uploads[world.reports.length]? world.host heard said)
      (device : DeviceAt limit world.place (world.receipts.length < uploads.length) world.device
        listened uttered)
      (forth : listened ++ world.forth.owed = said)
      (back : heard ++ world.back.owed = uttered)
  /-- The device has finished the session that the host is at. -/
  | deviceAhead {upload : Upload} {count : Nat} {heard later : Bytes}
      (level : world.receipts.length = world.reports.length + 1)
      (due : uploads[world.reports.length]? = some upload)
      (host : HostAt (some upload) world.host heard (spoken limit upload.image))
      (device : DeviceAt limit world.place (world.receipts.length < uploads.length) world.device
        [] later)
      (forth : world.forth.owed = [])
      (back : heard ++ world.back.owed =
        utter (calls (count + 1) ++ answer limit upload.image) ++ later)
  /-- The host has finished the session that the device is at. -/
  | hostAhead {upload : Upload} {state : Receiver.State} {result : Except Fault Received}
      (level : world.reports.length = world.receipts.length + 1)
      (due : uploads[world.receipts.length]? = some upload)
      (host : HostAt uploads[world.reports.length]? world.host [] [])
      (device : world.device = some state)
      (stops : state.stage = .finished result)
      (delivered : Delivered limit upload.image world.place result state.destination)
      (forth : world.forth.owed = [])
      (back : world.back.owed = [])

/-! ## Steps of the ends -/

section Ends

variable {upload? : Option Upload} {limit : UInt32} {place : Buffer} {due : Prop}

theorem hostAt_step {upload : Upload} {state next : Sender.State} {event : Event}
    {heard said : Bytes} (due : upload? = some upload)
    (host : HostAt upload? (some state) heard said)
    (step : Step (Sender.party upload.config upload.image) state event next)
    (through : ¬ event.Lapsed) :
    HostAt upload? (some next) (heard ++ event.input) (said ++ event.output) := by
  cases host with
  | active due' conduct =>
      cases due.symm.trans due'
      obtain conduct | ⟨lapsed, _⟩ := conduct.step step
      · exact .active due conduct
      · exact absurd lapsed through

/-- A step without a lapse leaves the device at its session, and so does a wait for a
sender that begins anew. -/
theorem deviceAt_step {config : Receiver.Config} {state next : Receiver.State} {event : Event}
    {listened uttered : Bytes} (device : DeviceAt limit place due (some state) listened uttered)
    (step : Step (Receiver.party config) state event next)
    (through : ¬ event.Lapsed ∨ next.stage = .announcing) :
    DeviceAt limit place due (some next) (listened ++ event.input) (uttered ++ event.output) := by
  cases device with
  | active holds conduct =>
      obtain conduct | failed := conduct.step step
      · exact .active holds conduct
      · exfalso
        generalize listened ++ event.input = heard, uttered ++ event.output = said at failed
        cases failed with
        | unheard _ _ _ | unsaid _ _ _ _ _ =>
            obtain through | announcing := through
            · exact absurd trivial through
            · cases announcing

theorem HostAt.of_none {heard said : Bytes} (host : HostAt upload? none heard said) :
    heard = [] ∧ said = [] := by
  cases host
  exact ⟨rfl, rfl⟩

theorem DeviceAt.of_none {listened uttered : Bytes}
    (device : DeviceAt limit place due none listened uttered) : listened = [] ∧ uttered = [] := by
  cases device
  exact ⟨rfl, rfl⟩

theorem spoken_ne_nil (limit : UInt32) (image : Bytes) : spoken limit image ≠ [] := by
  obtain ⟨rest, whole⟩ := @sizeWord_prefix_spoken limit image
  rw [← whole]
  nofun

/-- What a device has said so far, taken apart into readiness and replies. -/
theorem replied_of_deviceAt {listened uttered heard waiting : Bytes} {state : Option Receiver.State}
    (device : DeviceAt limit place due state listened uttered)
    (back : heard ++ waiting = uttered) :
    ∃ count replies, Replied heard waiting count replies [] ∧
      replies <+: (reading limit place listened).replies ∧
      (Complete replies → ∃ state' started outcome, state = some state' ∧
        (reading limit place listened).session.stage.outcome = some outcome ∧
        state' = .having (reading limit place listened) started
          (.finished (Receiver.conclude outcome))) := by
  cases device with
  | idle =>
      exact ⟨0, [], ⟨by rw [back]; rfl, .silent, fun _ => rfl, absurd rfl⟩, List.nil_prefix, nofun⟩
  | @active state' started _ _ _ conduct =>
      obtain ⟨count, replies, rfl, answers, called, part, complete⟩ := replied_of_conduct conduct
      refine ⟨count, replies, ⟨by rw [back, List.append_nil], answers, called, absurd rfl⟩, part,
        fun whole => ?_⟩
      obtain ⟨_, outcome, ended, same⟩ := complete whole
      exact ⟨state', started, outcome, rfl, ended, same⟩

/-- Once the session of the device is over, the host has said all that it has to say,
the device has heard it, and all replies to it are on their way. -/
theorem all_of_over {image listened said heard waiting unheard : Bytes} {stage : Sender.Stage}
    {count : Nat} {outcome : Session.Outcome} (fits : bound limit place = limit)
    (bounded : image.length < 4294967296)
    (ended : (reading limit place listened).session.stage.outcome = some outcome)
    (conduct : Sender.Conduct image stage heard said) (forth : listened ++ unheard = said)
    (back : heard ++ waiting =
      utter (calls (count + 1) ++ (reading limit place listened).replies)) :
    unheard = [] ∧ said = spoken limit image ∧
      heard ++ waiting = utter (calls (count + 1) ++ answer limit image) ++ [] ∧
      Delivered limit image place (Receiver.conclude outcome)
        (reading limit place listened).destination := by
  have heardOf : listened <+: Sender.stream image :=
    List.IsPrefix.trans ⟨_, forth⟩ (said_prefix_stream conduct)
  obtain ⟨enough, whole, delivered⟩ := delivered_of_over fits bounded heardOf ended
  rw [whole] at back
  rw [← List.append_nil (utter _)] at back
  have part := said_prefix_spoken conduct (replied_answer back) (List.prefix_refl _)
  have lengths := congrArg List.length forth
  rw [List.length_append] at lengths
  have := enough.length_le
  have := part.length_le
  have none : unheard = [] := List.length_eq_zero_iff.mp (by omega)
  exact ⟨none, part.eq_of_length (by omega), back, delivered⟩

end Ends

/-! ## Moves -/

section Moves

variable {uploads : List Upload} {config : Receiver.Config} {world : World} {upload : Upload}

theorem InStep.hostBegins {limit : UInt32} (inStep : InStep uploads limit world)
    (idle : world.host = none) (due : uploads[world.reports.length]? = some upload)
    (progress : Progress) (now : Nat) :
    InStep uploads limit { world with
      host := some (Sender.start upload.config upload.image progress now) } := by
  have begun : HostAt uploads[world.reports.length]?
      (some (Sender.start upload.config upload.image progress now)) [] [] := by
    obtain ⟨large, _⟩ | ⟨_, conduct⟩ :=
      Sender.conduct_start upload.config upload.image progress now
    · exact absurd upload.bounded (Nat.not_lt_of_le large)
    · exact .active due conduct
  cases inStep with
  | abreast level host device forth back =>
      rw [idle] at host
      obtain ⟨rfl, rfl⟩ := host.of_none
      exact .abreast level begun device forth back
  | deviceAhead level due host device forth back =>
      rw [idle] at host
      exact absurd host.of_none.2 (spoken_ne_nil _ _)
  | hostAhead level due host device stops delivered forth back =>
      exact .hostAhead level due begun device stops delivered forth back

theorem InStep.hostActs {limit : UInt32} (inStep : InStep uploads limit world)
    {state next : Sender.State} {back forth : Line} (active : world.host = some state)
    (due : uploads[world.reports.length]? = some upload)
    (acts : Acts (Sender.party upload.config upload.image) state world.back world.forth next back
      forth) :
    InStep uploads limit { world with host := some next, back, forth } := by
  obtain ⟨event, step, through, heardFrom, saidTo⟩ := acts.event
  cases inStep with
  | @abreast heard said listened uttered level host device forthIs backIs =>
      rw [active] at host
      refine .abreast level (hostAt_step due host step through) device ?_ ?_
      · rw [saidTo, ← List.append_assoc, forthIs]
      · rw [List.append_assoc, ← heardFrom, backIs]
  | @deviceAhead upload' count heard later level due' host device forthIs backIs =>
      cases due.symm.trans due'
      rw [active] at host
      have next := hostAt_step rfl host step through
      have joined : (heard ++ event.input) ++ back.owed =
          utter (calls (count + 1) ++ answer limit upload.image) ++ later := by
        rw [List.append_assoc, ← heardFrom, backIs]
      -- The host has said all that it has to say, so this step says nothing.
      have silent : event.output = [] := by
        cases next with
        | active same conduct =>
            cases same
            have part := said_prefix_spoken conduct (replied_answer joined) (List.prefix_refl _)
            have := part.length_le
            rw [List.length_append] at this
            exact List.length_eq_zero_iff.mp (by omega)
      rw [silent, List.append_nil] at next saidTo
      exact .deviceAhead level due next device (saidTo.trans forthIs) joined
  | @hostAhead upload' _ _ level due' host device stops delivered forthIs backIs =>
      rw [active] at host
      have next := hostAt_step due host step through
      rw [backIs] at heardFrom
      obtain ⟨nothing, none⟩ := List.append_eq_nil_iff.mp heardFrom.symm
      rw [nothing, List.append_nil, List.nil_append] at next
      have silent : event.output = [] := by
        cases next with
        | active _ conduct =>
            exact (awaitReady_of_silence conduct replied_nil).2
      rw [silent] at next
      rw [silent, List.append_nil] at saidTo
      exact .hostAhead level due' next device stops delivered (saidTo.trans forthIs) none

/-- A host that has finished the session that the device is at leaves the device with a
finished session. -/
theorem InStep.hostEnds {limit : UInt32} (fits : bound limit world.place = limit)
    (inStep : InStep uploads limit world) {state : Sender.State}
    {result : Except Fault Sender.Report} (active : world.host = some state)
    (due : uploads[world.reports.length]? = some upload)
    (stops : state.stage = .finished result) :
    InStep uploads limit { world with host := none, reports := world.reports ++ [result] } ∧
      Reported limit upload.image result := by
  have length : (world.reports ++ [result]).length = world.reports.length + 1 :=
    List.length_append
  cases inStep with
  | @abreast heard said listened uttered level host device forthIs backIs =>
      rw [active] at host
      cases host with
      | active due' conduct =>
          cases due.symm.trans due'
          rw [stops] at conduct
          obtain ⟨count, replies, replied, part, complete⟩ := replied_of_deviceAt device backIs
          have heardOf : listened <+: Sender.stream upload.image :=
            List.IsPrefix.trans ⟨_, forthIs⟩ (said_prefix_stream conduct)
          have called : replies <+: answer limit upload.image := by
            rw [← replies_stream fits upload.bounded]
            exact part.trans (Session.replies_prefix _ _ heardOf)
          obtain ⟨whole, all, nothing, reported⟩ := reported_of_finished conduct replied called
          refine ⟨?_, reported⟩
          obtain ⟨state', started, outcome, here, ended, rfl⟩ :=
            complete (whole ▸ complete_answer _ _)
          obtain ⟨enough, _, delivered⟩ := delivered_of_over fits upload.bounded heardOf ended
          have none : world.forth.owed = [] := by
            have := enough.length_le
            have := congrArg List.length forthIs
            rw [List.length_append, all] at this
            exact List.length_eq_zero_iff.mp (by omega)
          exact .hostAhead (by rw [length, level]) (level ▸ due) .idle here rfl delivered none
            nothing
  | @deviceAhead upload' count heard later level due' host device forthIs backIs =>
      cases due.symm.trans due'
      rw [active] at host
      cases host with
      | active same conduct =>
          cases same
          rw [stops] at conduct
          obtain ⟨_, _, rfl, reported⟩ :=
            reported_of_finished conduct (replied_answer backIs) (List.prefix_refl _)
          refine ⟨.abreast (by rw [level, length]) .idle device ?_ rfl, reported⟩
          rw [forthIs, List.append_nil]
  | hostAhead level due' host device _ delivered forthIs backIs =>
      rw [active] at host
      cases host with
      | active _ conduct =>
          obtain ⟨⟨deadline, waiting⟩, _⟩ := awaitReady_of_silence conduct replied_nil
          rw [stops] at waiting
          cases waiting

theorem InStep.deviceBegins {limit : UInt32}
    (fits : bound config.maxImageSize world.place = limit) (inStep : InStep uploads limit world)
    (idle : world.device = none) (due : world.receipts.length < uploads.length) (now : Nat) :
    InStep uploads limit { world with
      device := some (Receiver.start config world.place now) } := by
  have begun : DeviceAt limit world.place (world.receipts.length < uploads.length)
      (some (Receiver.start config world.place now)) [] [] :=
    .active due (fits ▸ Receiver.conduct_start config world.place now)
  cases inStep with
  | abreast level host device forth back =>
      rw [idle] at device
      obtain ⟨rfl, rfl⟩ := device.of_none
      exact .abreast level host begun forth back
  | deviceAhead level due' host device forth back =>
      rw [idle] at device
      obtain ⟨_, rfl⟩ := device.of_none
      exact .deviceAhead level due' host begun forth back
  | hostAhead _ _ _ device _ _ _ _ =>
      rw [idle] at device
      cases device

theorem InStep.deviceSteps {limit : UInt32} (inStep : InStep uploads limit world)
    {state next : Receiver.State} {event : Event} {forth back : Line}
    (active : world.device = some state) (step : Step (Receiver.party config) state event next)
    (through : ¬ event.Lapsed ∨ next.stage = .announcing)
    (heardFrom : world.forth.owed = event.input ++ forth.owed)
    (saidTo : back.owed = world.back.owed ++ event.output) (repeats : Nat) :
    InStep uploads limit { world with device := some next, forth, back, repeats } := by
  cases inStep with
  | abreast level host device forthIs backIs =>
      rw [active] at device
      refine .abreast level host (deviceAt_step device step through) ?_ ?_
      · rw [List.append_assoc, ← heardFrom, forthIs]
      · rw [saidTo, ← List.append_assoc, backIs]
  | @deviceAhead upload count heard later level due host device forthIs backIs =>
      rw [active] at device
      have next := deviceAt_step device step through
      rw [forthIs] at heardFrom
      obtain ⟨nothing, none⟩ := List.append_eq_nil_iff.mp heardFrom.symm
      rw [nothing, List.append_nil] at next
      have joined : heard ++ back.owed =
          utter (calls (count + 1) ++ answer limit upload.image) ++ (later ++ event.output) := by
        rw [saidTo, ← List.append_assoc, backIs, List.append_assoc]
      exact .deviceAhead level due host next none joined
  | hostAhead level due host device stops delivered forthIs backIs =>
      cases active.symm.trans device
      refine (step.not_of_done fun now => ?_).elim
      rw [Receiver.party, stops]
      exact ⟨_, rfl⟩

/-- A device that has finished a session has done with its image what it should. -/
theorem InStep.deviceEnds {limit : UInt32} (fits : bound limit world.place = limit)
    (inStep : InStep uploads limit world) {state : Receiver.State}
    {result : Except Fault Received} {after : Buffer} {now : Nat}
    (active : world.device = some state)
    (stops : Receiver.party config state now = .done (result, after)) :
    InStep uploads limit { world with
        device := none, place := after, receipts := world.receipts ++ [result] } ∧
      ∃ upload, uploads[world.receipts.length]? = some upload ∧
        Delivered limit upload.image world.place result after := by
  have length : (world.receipts ++ [result]).length = world.receipts.length + 1 :=
    List.length_append
  -- A session that has heard nothing is not over.
  have heard {started : Nat} {listened uttered : Bytes}
      (conduct : Receiver.Conduct limit world.place started state listened uttered) :
      listened ≠ [] := by
    rintro rfl
    obtain ⟨_, _, ended, _⟩ := conduct.of_done stops
    cases ended
  cases inStep with
  | @abreast heard' said listened uttered level host device forthIs backIs =>
      rw [active] at device
      cases device with
      | active holds conduct =>
          have any := heard conduct
          obtain ⟨count, outcome, ended, rfl, rfl, rfl⟩ := conduct.of_done stops
          cases host' : world.host with
          | none =>
              rw [host'] at host
              rw [host.of_none.2] at forthIs
              exact absurd (List.append_eq_nil_iff.mp forthIs).1 any
          | some sender =>
              rw [host'] at host
              obtain ⟨upload, due⟩ : ∃ upload, uploads[world.reports.length]? = some upload := by
                cases host
                exact ⟨_, ‹_›⟩
              cases host with
              | active due' conduct =>
                  cases due.symm.trans due'
                  obtain ⟨none, all, joined, delivered⟩ :=
                    all_of_over fits upload.bounded ended conduct forthIs backIs
                  rw [all] at conduct
                  exact ⟨.deviceAhead (by rw [length, level]) due (.active rfl conduct) .idle none
                    joined, upload, level ▸ due, delivered⟩
  | deviceAhead level due host device forthIs backIs =>
      rw [active] at device
      cases device with
      | active holds conduct => exact absurd rfl (heard conduct)
  | @hostAhead upload _ _ level due host device finished delivered forthIs backIs =>
      cases active.symm.trans device
      obtain ⟨same, rfl⟩ := Receiver.stage_of_done stops
      cases finished.symm.trans same
      refine ⟨.abreast (by rw [length, level]) host .idle ?_ ?_, upload, due, delivered⟩
      · rw [forthIs]
        rfl
      · rw [backIs]
        rfl

/-- Only what the lines owe matters. -/
theorem InStep.of_owed {limit : UInt32} (inStep : InStep uploads limit world) {forth back : Line}
    (sameForth : forth.owed = world.forth.owed) (sameBack : back.owed = world.back.owed) :
    InStep uploads limit { world with forth, back } := by
  cases inStep with
  | abreast level host device forthIs backIs =>
      exact .abreast level host device (sameForth ▸ forthIs) (sameBack ▸ backIs)
  | deviceAhead level due host device forthIs backIs =>
      have joined := backIs
      rw [← sameBack] at joined
      exact .deviceAhead level due host device (sameForth.trans forthIs) joined
  | hostAhead level due host device stops delivered forthIs backIs =>
      exact .hostAhead level due host device stops delivered (sameForth.trans forthIs)
        (sameBack.trans backIs)

end Moves

end Overlay.Transfer
