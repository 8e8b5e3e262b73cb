import Overlay.Proofs.Transfer.InStep
import Overlay.Proofs.Transfer.Work

/-!
# Every upload is delivered

Images are sent one after another over a reliable link to one receiver.  Every run
comes to its end, whatever the pieces in which bytes arrive and the order in which
the two ends move, and at every point of it all sessions so far have ended as they
should: an image that fits is stored, accepted and reported with its checksum, and
one that is too large is refused on both ends.  Between two sessions the link is
empty, but for the readiness that the device may have said for its next session
(`uploads_delivered`).
-/

set_option autoImplicit false

namespace Overlay.Transfer

open Session (bound reading)
open Receiver (utter calls)

/-! ## What has been done -/

/-- The largest image that a receiver accepts for a destination. -/
def capacity (config : Receiver.Config) (place : Buffer) : UInt32 :=
  bound config.maxImageSize place

/-- Images that were received one after another, each into the destination as the one
before has left it. -/
inductive Deliveries (limit : UInt32) (place : Buffer) :
    List Upload → List (Except Fault Received) → Buffer → Prop where
  | none : Deliveries limit place [] [] place
  | next {uploads : List Upload} {receipts : List (Except Fault Received)} {before after : Buffer}
      {upload : Upload} {receipt : Except Fault Received}
      (earlier : Deliveries limit place uploads receipts before)
      (delivered : Delivered limit upload.image before receipt after) :
      Deliveries limit place (uploads ++ [upload]) (receipts ++ [receipt]) after

section Done

variable {limit : UInt32} {place : Buffer}

theorem bound_congr (limit : UInt32) {place place' : Buffer} (same : place'.size = place.size) :
    bound limit place' = bound limit place := by
  rw [bound, bound, same]

theorem Delivered.size_eq {image : Bytes} {before after : Buffer}
    {result : Except Fault Received} (delivered : Delivered limit image before result after) :
    after.size = before.size := by
  rw [Delivered] at delivered
  split at delivered
  · exact delivered.2.1
  · rw [delivered.2]

theorem Deliveries.length_eq {uploads : List Upload} {receipts : List (Except Fault Received)}
    {after : Buffer} (deliveries : Deliveries limit place uploads receipts after) :
    uploads.length = receipts.length := by
  induction deliveries with
  | none => rfl
  | next _ _ ih => rw [List.length_append, List.length_append, ih]; rfl

theorem take_of_due {uploads : List Upload} {count : Nat} {upload : Upload}
    (due : uploads[count]? = some upload) :
    uploads.take (count + 1) = uploads.take count ++ [upload] := by
  rw [List.take_add_one, due]
  rfl

end Done

/-! ## The invariant -/

/-- What holds of every world on the way. -/
structure Inv (uploads : List Upload) (config : Receiver.Config) (place : Buffer)
    (world : World) : Prop where
  size : world.place.size = place.size
  inStep : InStep uploads (capacity config place) world
  reports : ∀ {index : Nat} {upload : Upload} {result : Except Fault Sender.Report},
    uploads[index]? = some upload → world.reports[index]? = some result →
      Reported (capacity config place) upload.image result
  receipts : Deliveries (capacity config place) place (uploads.take world.receipts.length)
    world.receipts world.place

section Invariant

variable {uploads : List Upload} {config : Receiver.Config} {place : Buffer}
variable {world next : World}

theorem Inv.fits (inv : Inv uploads config place world) :
    bound config.maxImageSize world.place = capacity config place ∧
      bound (capacity config place) world.place = capacity config place := by
  have same : bound config.maxImageSize world.place = capacity config place :=
    bound_congr _ inv.size
  exact ⟨same, same ▸ Receiver.bound_bound _ _⟩

theorem inv_start (uploads : List Upload) (config : Receiver.Config) (place : Buffer)
    (repeats : Nat) : Inv uploads config place { place, repeats } where
  size := rfl
  inStep := .abreast rfl .idle .idle rfl rfl
  reports _ none := by cases none
  receipts := .none

/-- **Every move keeps the invariant.** -/
theorem Inv.step (inv : Inv uploads config place world) (move : Move uploads config world next) :
    Inv uploads config place next := by
  obtain ⟨size, inStep, reports, receipts⟩ := inv
  have fits := Inv.fits ⟨size, inStep, reports, receipts⟩
  cases move with
  | hostBegins idle due progress now =>
      exact ⟨size, inStep.hostBegins idle due progress now, reports, receipts⟩
  | hostActs active due acts => exact ⟨size, inStep.hostActs active due acts, reports, receipts⟩
  | @hostEnds upload state result progress now active due stops _ =>
      obtain ⟨inStep, reported⟩ :=
        inStep.hostEnds fits.2 active due (Sender.stage_of_done stops)
      refine ⟨size, inStep, @fun index other result' due' ended => ?_, receipts⟩
      obtain inside | outside := Nat.lt_or_ge index world.reports.length
      · rw [List.getElem?_append_left inside] at ended
        exact reports due' ended
      · rw [List.getElem?_append_right outside, List.getElem?_singleton] at ended
        split at ended
        · cases ended
          cases (Nat.le_antisymm (Nat.sub_eq_zero_iff_le.mp ‹_›) outside : index = _)
          cases due.symm.trans due'
          exact reported
        · cases ended
  | deviceBegins idle due now =>
      exact ⟨size, inStep.deviceBegins fits.1 idle due now, reports, receipts⟩
  | deviceActs active acts =>
      obtain ⟨event, step, through, heardFrom, saidTo⟩ := acts.event
      exact ⟨size, inStep.deviceSteps active step (.inl through) heardFrom saidTo world.repeats,
        reports, receipts⟩
  | @deviceRepeats state next repeats active _ step again _ =>
      exact ⟨size, inStep.deviceSteps active step (.inr again) rfl (List.append_nil _).symm repeats,
        reports, receipts⟩
  | deviceEnds active stops _ =>
      obtain ⟨inStep, upload, due, delivered⟩ := inStep.deviceEnds fits.2 active stops
      refine ⟨delivered.size_eq.trans size, inStep, reports, ?_⟩
      rw [List.length_append, List.length_singleton, take_of_due due]
      exact .next receipts delivered
  | forthPasses passes => exact ⟨size, inStep.of_owed passes.owed_eq rfl, reports, receipts⟩
  | backPasses passes => exact ⟨size, inStep.of_owed rfl passes.owed_eq, reports, receipts⟩

theorem inv_of_reachable {repeats : Nat}
    (reached : Reachable uploads config place repeats world) : Inv uploads config place world := by
  induction reached with
  | refl => exact inv_start uploads config place repeats
  | tail _ move ih => exact ih.step move

/-! ## Progress -/

/-- All uploads are done, on both ends. -/
structure Finished (uploads : List Upload) (world : World) : Prop where
  host : world.host = none
  device : world.device = none
  reports : world.reports.length = uploads.length
  receipts : world.receipts.length = uploads.length

/-- A host whose writes are through can move, unless it waits and is owed nothing. -/
theorem host_moves {upload : Upload} {state : Sender.State} {heard said : Bytes}
    (active : world.host = some state) (due : uploads[world.reports.length]? = some upload)
    (conduct : Sender.Conduct upload.image state.stage heard said)
    (forth : world.forth.pending = []) (back : world.back.pending = []) :
    (∃ next, Move uploads config world next) ∨ Waits state.stage ∧ world.back.owed = [] := by
  obtain ⟨result, stops⟩ | ⟨data, next, step⟩ | ⟨waits, hears⟩ :=
    @sender_turns _ _ _ upload.config _ conduct
  · exact .inl ⟨_, .hostEnds active due (stops 0) forth⟩
  · obtain ⟨_, acts⟩ := Acts.of_said world.back step forth
    exact .inl ⟨_, .hostActs active due acts⟩
  · cases queued : world.back.queue with
    | nil => exact .inr ⟨waits, Line.owed_eq_nil queued back⟩
    | cons byte rest =>
        obtain ⟨next, step⟩ := hears byte
        obtain ⟨_, acts⟩ := Acts.of_heard step queued forth
        exact .inl ⟨_, .hostActs active due acts⟩

/-- A device whose writes are through can move, unless it listens and is owed nothing. -/
theorem device_moves {limit : UInt32} {started : Nat} {state : Receiver.State}
    {listened uttered : Bytes} (active : world.device = some state)
    (conduct : Receiver.Conduct limit world.place started state listened uttered)
    (forth : world.forth.pending = []) (back : world.back.pending = []) :
    (∃ next, Move uploads config world next) ∨ Listens state.stage ∧ world.forth.owed = [] := by
  obtain ⟨result, stops⟩ | ⟨data, next, step⟩ | ⟨listens, hears⟩ :=
    @receiver_turns _ _ _ _ _ _ config conduct
  · exact .inl ⟨_, .deviceEnds active (stops 0) back⟩
  · obtain ⟨_, acts⟩ := Acts.of_said world.forth step back
    exact .inl ⟨_, .deviceActs active acts⟩
  · cases queued : world.forth.queue with
    | nil => exact .inr ⟨listens, Line.owed_eq_nil queued forth⟩
    | cons byte rest =>
        obtain ⟨next, step⟩ := hears byte
        obtain ⟨_, acts⟩ := Acts.of_heard step queued back
        exact .inl ⟨_, .deviceActs active acts⟩

/-- No session of the device is without an upload. -/
theorem Inv.receipts_le (inv : Inv uploads config place world) :
    world.receipts.length ≤ uploads.length := by
  have taken := inv.receipts.length_eq
  rw [List.length_take] at taken
  omega

/-- Two ends at the same session are done with all of them, or one of them can move. -/
theorem progress_of_abreast (inv : Inv uploads config place world)
    {heard said listened uttered : Bytes}
    (level : world.receipts.length = world.reports.length)
    (hostAt : HostAt uploads[world.reports.length]? world.host heard said)
    (deviceAt : DeviceAt (capacity config place) world.place
      (world.receipts.length < uploads.length) world.device listened uttered)
    (forthIs : listened ++ world.forth.owed = said) (backIs : heard ++ world.back.owed = uttered)
    (forth : world.forth.pending = []) (back : world.back.pending = []) :
    Finished uploads world ∨ ∃ next, Move uploads config world next := by
  have few := inv.receipts_le
  cases host : world.host with
  | none =>
      cases due : uploads[world.reports.length]? with
      | some upload => exact .inr ⟨_, .hostBegins host due {} 0⟩
      | none =>
          rw [List.getElem?_eq_none_iff] at due
          cases device : world.device with
          | none => exact .inl ⟨host, device, by omega, by omega⟩
          | some state =>
              rw [device] at deviceAt
              cases deviceAt with
              | active holds _ => omega
  | some state =>
      rw [host] at hostAt
      cases hostAt with
      | @active upload _ _ _ due conduct =>
          obtain moves | ⟨waits, owed⟩ := host_moves host due conduct forth back
          · exact .inr moves
          rw [owed, List.append_nil] at backIs
          subst backIs
          cases device : world.device with
          | none =>
              obtain ⟨bounded, _⟩ := List.getElem?_eq_some_iff.mp due
              exact .inr ⟨_, .deviceBegins device (level ▸ bounded) 0⟩
          | some receiver =>
              rw [device] at deviceAt
              cases deviceAt with
              | active _ conduct' =>
                  obtain moves | ⟨listens, owed⟩ := device_moves device conduct' forth back
                  · exact .inr moves
                  rw [owed, List.append_nil] at forthIs
                  subst forthIs
                  exact (not_both_waiting inv.fits.2 upload.bounded conduct waits conduct'
                    listens).elim

/-- A host that the device has left behind can move, because it has been told everything. -/
theorem moves_of_deviceAhead {upload : Upload} {count : Nat} {heard later : Bytes}
    (due : uploads[world.reports.length]? = some upload)
    (hostAt : HostAt (some upload) world.host heard
      (spoken (capacity config place) upload.image))
    (backIs : heard ++ world.back.owed =
      utter (calls (count + 1) ++ answer (capacity config place) upload.image) ++ later)
    (forth : world.forth.pending = []) (back : world.back.pending = []) :
    ∃ next, Move uploads config world next := by
  cases host : world.host with
  | none =>
      rw [host] at hostAt
      exact absurd hostAt.of_none.2 (spoken_ne_nil _ _)
  | some state =>
      rw [host] at hostAt
      cases hostAt with
      | active due' conduct =>
          cases due'
          obtain moves | ⟨waits, owed⟩ := host_moves host due conduct forth back
          · exact moves
          rw [owed] at backIs
          have complete := complete_answer (capacity config place) upload.image
          obtain turn | ⟨turn, _⟩ | ⟨turn, _⟩ :=
            turn_of_waiting conduct (replied_answer backIs) waits
          · cases turn
          · rw [turn] at complete
            cases complete
          · rw [turn] at complete
            cases complete

/-- **Some move is possible until all uploads are done.** -/
theorem Inv.progress (inv : Inv uploads config place world) :
    Finished uploads world ∨ ∃ next, Move uploads config world next := by
  by_cases forth : world.forth.pending = []
  case neg =>
    obtain ⟨_, passes⟩ := Passes.of_pending forth
    exact .inr ⟨_, .forthPasses passes⟩
  by_cases back : world.back.pending = []
  case neg =>
    obtain ⟨_, passes⟩ := Passes.of_pending back
    exact .inr ⟨_, .backPasses passes⟩
  cases inv.inStep with
  | abreast level hostAt deviceAt forthIs backIs =>
      exact progress_of_abreast inv level hostAt deviceAt forthIs backIs forth back
  | deviceAhead level due hostAt _ _ backIs =>
      exact .inr (moves_of_deviceAhead due hostAt backIs forth back)
  | @hostAhead _ state result _ _ _ device stops _ _ _ =>
      have done : Receiver.party config state 0 = .done (result, state.destination) := by
        rw [Receiver.party, stops]
      exact .inr ⟨_, .deviceEnds device done back⟩

/-- A host between two sessions has left nothing behind, and has left nothing unheard
but the readiness of a device that has gone on. -/
theorem Inv.of_host_idle (inv : Inv uploads config place world) (idle : world.host = none) :
    world.forth.owed = [] ∧ ∃ count, world.back.owed = utter (calls count) ∧
      (world.device = none → count = 0 ∧ world.receipts.length = world.reports.length) := by
  cases inv.inStep with
  | abreast level host device forth back =>
      rw [idle] at host
      obtain ⟨rfl, rfl⟩ := host.of_none
      obtain ⟨rfl, none⟩ := List.append_eq_nil_iff.mp forth
      refine ⟨none, ?_⟩
      cases here : world.device with
      | none =>
          rw [here] at device
          exact ⟨0, back.trans device.of_none.2, fun _ => ⟨rfl, level⟩⟩
      | some state =>
          obtain ⟨count, replies, replied, part, _⟩ := replied_of_deviceAt device back
          rw [Session.reading_nil] at part
          cases List.prefix_nil.mp part
          have joined := replied.joined
          rw [List.append_nil, List.append_nil] at joined
          exact ⟨count, joined, nofun⟩
  | deviceAhead _ _ host _ _ _ =>
      rw [idle] at host
      exact absurd host.of_none.2 (spoken_ne_nil _ _)
  | hostAhead _ _ _ device _ _ forth back =>
      exact ⟨forth, 0, back, fun none => by rw [none] at device; cases device⟩

end Invariant

/-! ## The main statement -/

/-- What is so in every world on the way: the sessions of the host have been reported
as they should be, those of the device have done with their images what they should,
one after another, and between two sessions the link is empty. -/
structure Right (uploads : List Upload) (config : Receiver.Config) (place : Buffer)
    (world : World) : Prop where
  reports : ∀ {index : Nat} {upload : Upload} {result : Except Fault Sender.Report},
    uploads[index]? = some upload → world.reports[index]? = some result →
      Reported (capacity config place) upload.image result
  receipts : Deliveries (capacity config place) place (uploads.take world.receipts.length)
    world.receipts world.place
  empty : world.host = none → world.device = none →
    world.receipts.length = world.reports.length ∧ world.forth.owed = [] ∧ world.back.owed = []
  quiet : world.host = none → world.forth.owed = [] ∧
    ∃ count, world.back.owed = utter (calls count)

/-- **Every run of uploads over a reliable link comes to its end, and everything is right
on the way.**  Any images that a word can count are sent with any settings, block sizes
among them, to a receiver with any settings and any destination, which may repeat its
readiness any number of times. -/
theorem uploads_delivered (uploads : List Upload) (config : Receiver.Config) (place : Buffer)
    (repeats : Nat) :
    (∀ world, Reachable uploads config place repeats world → Right uploads config place world) ∧
      Inevitably (Move uploads config) (Finished uploads) { place, repeats } := by
  constructor
  · intro world reached
    have inv := inv_of_reachable reached
    refine ⟨inv.reports, inv.receipts, fun host device => ?_, fun host => ?_⟩
    · obtain ⟨forth, count, back, both⟩ := inv.of_host_idle host
      obtain ⟨rfl, level⟩ := both device
      exact ⟨level, forth, back⟩
    · obtain ⟨forth, count, back, _⟩ := inv.of_host_idle host
      exact ⟨forth, count, back⟩
  · exact inevitably_of_measure (World.work uploads) (fun inv move => inv.step move)
      (fun _ move => move.work_lt) (fun inv => inv.progress)
      (inv_start uploads config place repeats)

end Overlay.Transfer
