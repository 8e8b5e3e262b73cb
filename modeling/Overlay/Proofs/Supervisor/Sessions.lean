import Overlay.Proofs.Loader.Launch
import Overlay.Proofs.Receiver.Conduct
import Overlay.Supervisor

/-!
# Nothing unverified runs

A supervisor goes through any number of sessions, each of them on a link that may do
anything, and may load stored images in between.  Its window, its loader, its mode
and the limits of its receiver stay as they were made (`setup_of_reaches`), and a
record of the runs makes no difference to what it does (`ends_recording`).

A session makes one run or none, and it makes one only after the sender has sent an
image with its checksum and the whole reply to it has gone through
(`verified_of_run`).  Neither what an earlier session has left behind nor the way the
link has cut up this one has any part in it.
-/

set_option autoImplicit false

namespace Overlay.Supervisor

open Party (Event Step Talk Ends heard said)
open Session (bound)

variable {σ : Type}

/-! ## Histories -/

/-- What a supervisor comes to by sessions on links that may do anything, and by loads
from a store. -/
inductive Reaches (first : Supervisor σ) : Supervisor σ → Prop where
  | begin : Reaches first first
  | session {supervisor next : Supervisor σ} {now : Nat} {events : List Event}
      {result : Except Fault Exit} (before : Reaches first supervisor)
      (ends : Ends supervisor.sessionParty (supervisor.receive now) events (result, next)) :
      Reaches first next
  | stored {supervisor : Supervisor σ} (before : Reaches first supervisor) (bytes : Bytes) :
      Reaches first (supervisor.runStored bytes).2

theorem ends_session_iff {supervisor : Supervisor σ} {start : Receiver.State}
    {events : List Event} {ended : Except Fault Exit × Supervisor σ} :
    Ends supervisor.sessionParty start events ended ↔
      ∃ received, Ends (Receiver.party supervisor.receiver) start events received ∧
        supervisor.engaged.conclude received.1 received.2 = ended :=
  Party.ends_concluding_iff

/-! ## What is made -/

/-- A supervisor as it is made for a layout: its memory is all zero, and it takes no more
than the code region does. -/
structure Created (layout : Layout) (config : Receiver.Config) (loader : Loader σ) (mode : Mode)
    (board : σ) (first : Supervisor σ) : Prop where
  window : layout.window = .ok first.window
  loader : first.loader = loader
  device : first.device = ⟨.zeroed layout.memory, board⟩
  receiver : first.receiver =
    { config with maxImageSize := min config.maxImageSize first.window.capacity }
  staging : mode = .staged → first.staging.size = first.receiver.maxImageSize.toNat
  mode : first.mode = mode

theorem created_of_create {layout : Layout} {config : Receiver.Config} {loader : Loader σ}
    {mode : Mode} {board : σ} {first : Supervisor σ}
    (created : create layout config loader mode board = .ok first) :
    Created layout config loader mode board first := by
  rw [create] at created
  cases windowed : layout.window with
  | error fault =>
      rw [windowed] at created
      cases created
  | ok window =>
      rw [windowed] at created
      cases created
      refine ⟨windowed, rfl, rfl, rfl, ?_, rfl⟩
      rintro rfl
      exact Array.size_replicate

/-! ## What stays as it was made -/

/-- The parts of a supervisor that no session changes. -/
def setup (supervisor : Supervisor σ) : Window × Loader σ × Receiver.Config × Mode :=
  (supervisor.window, supervisor.loader, supervisor.receiver, supervisor.mode)

theorem setup_eq_iff {left right : Supervisor σ} :
    left.setup = right.setup ↔ left.window = right.window ∧ left.loader = right.loader ∧
      left.receiver = right.receiver ∧ left.mode = right.mode := by
  simp only [setup, Prod.mk.injEq]

section Setup

variable (supervisor : Supervisor σ)

@[simp] theorem setup_engaged : supervisor.engaged.setup = supervisor.setup := by
  rw [engaged]
  split <;> rfl

@[simp] theorem setup_land (received : Buffer) :
    (supervisor.land received).setup = supervisor.setup := by
  rw [land]
  split
  · rfl
  · split <;> rfl

@[simp] theorem setup_settle (ended : Except Fault Exit × Device σ) :
    (supervisor.settle ended).2.setup = supervisor.setup := by
  obtain ⟨result, device⟩ := ended
  cases result <;> rfl

@[simp] theorem setup_conclude (result : Except Fault Received) (received : Buffer) :
    (supervisor.conclude result received).2.setup = supervisor.setup := by
  cases result with
  | error fault => exact setup_land supervisor received
  | ok image => rw [conclude, setup_settle, setup_land]

/-- **Sessions and stored images leave the setup alone.** -/
theorem setup_of_reaches {first supervisor : Supervisor σ} (reaches : Reaches first supervisor) :
    supervisor.setup = first.setup := by
  induction reaches with
  | begin => rfl
  | session _ ends ih =>
      obtain ⟨_, _, concluded⟩ := ends_session_iff.mp ends
      have kept := congrArg (fun ended => setup ended.2) concluded
      dsimp only at kept
      rw [setup_conclude, setup_engaged] at kept
      rw [← kept, ih]
  | stored _ bytes ih => rw [runStored, setup_settle, ih]

end Setup

/-! ## Supervisors that keep a record -/

/-- A supervisor whose loader keeps a record of the runs. -/
def recording (supervisor : Supervisor σ) (calls : List Call) : Supervisor (σ × List Call) where
  layout := supervisor.layout
  window := supervisor.window
  loader := supervisor.loader.recording
  receiver := supervisor.receiver
  mode := supervisor.mode
  device := supervisor.device.recording calls
  staging := supervisor.staging
  valid := supervisor.valid

/-- The runs that are on record. -/
def calls (supervisor : Supervisor (σ × List Call)) : List Call := supervisor.device.board.2

section Recording

variable (supervisor : Supervisor σ) (record : List Call)

theorem engaged_recording :
    (supervisor.recording record).engaged = supervisor.engaged.recording record := by
  rw [engaged, engaged, recording]
  dsimp only
  split <;> rfl

theorem land_recording (received : Buffer) :
    (supervisor.recording record).land received = (supervisor.land received).recording record := by
  rw [land, land, recording, Device.recording]
  dsimp only
  split
  · rfl
  · split <;> rfl

theorem launch_recording (length : Nat) :
    Loader.Mirrors record ((supervisor.recording record).launch length)
      (supervisor.launch length) := by
  rw [launch, launch, recording]
  dsimp only
  split
  · exact Loader.mirrors_runInPlace _ _ _ _ _
  · exact Loader.mirrors_loadBytes _ _ _ _ _

theorem settle_recording {recorded : Except Fault Exit × Device (σ × List Call)}
    {plain : Except Fault Exit × Device σ} (mirrors : Loader.Mirrors record recorded plain) :
    ∃ more, (supervisor.recording record).settle recorded =
      ((supervisor.settle plain).1, (supervisor.settle plain).2.recording (record ++ more)) := by
  obtain ⟨more, rfl⟩ := mirrors
  obtain ⟨result, device⟩ := plain
  cases result <;> exact ⟨more, rfl⟩

theorem conclude_recording (result : Except Fault Received) (received : Buffer) :
    ∃ more, (supervisor.recording record).conclude result received =
      ((supervisor.conclude result received).1,
        (supervisor.conclude result received).2.recording (record ++ more)) := by
  cases result with
  | error fault =>
      refine ⟨[], ?_⟩
      rw [conclude, land_recording, List.append_nil]
      rfl
  | ok image =>
      rw [conclude, land_recording]
      exact settle_recording _ record (launch_recording _ record image.length)

variable {supervisor}

/-- **A record makes no difference to a session.** -/
theorem ends_recording {now : Nat} {events : List Event} {result : Except Fault Exit}
    {next : Supervisor σ}
    (ends : Ends supervisor.sessionParty (supervisor.receive now) events (result, next)) :
    ∃ more, Ends (supervisor.recording record).sessionParty
      ((supervisor.recording record).receive now) events
      (result, next.recording (record ++ more)) := by
  obtain ⟨⟨received, after⟩, stops, concluded⟩ := ends_session_iff.mp ends
  obtain ⟨more, same⟩ := conclude_recording supervisor.engaged record received after
  rw [concluded, ← engaged_recording] at same
  exact ⟨more, ends_session_iff.mpr ⟨(received, after), stops, same⟩⟩

/-- **A record makes no difference to a history.** -/
theorem reaches_recording {first : Supervisor σ} (reaches : Reaches first supervisor) :
    ∃ more, Reaches (first.recording record) (supervisor.recording (record ++ more)) := by
  induction reaches with
  | begin =>
      refine ⟨[], ?_⟩
      rw [List.append_nil]
      exact .begin
  | session _ ends ih =>
      obtain ⟨earlier, before⟩ := ih
      obtain ⟨more, ends⟩ := ends_recording (record ++ earlier) ends
      rw [List.append_assoc] at ends
      exact ⟨earlier ++ more, before.session ends⟩
  | @stored supervisor _ bytes ih =>
      obtain ⟨earlier, before⟩ := ih
      obtain ⟨more, same⟩ := settle_recording supervisor (record ++ earlier)
        (Loader.mirrors_loadBytes supervisor.loader (record ++ earlier) supervisor.window
          supervisor.device bytes)
      refine ⟨earlier ++ more, ?_⟩
      have stored : ((supervisor.recording (record ++ earlier)).runStored bytes).2 =
          (supervisor.runStored bytes).2.recording (record ++ (earlier ++ more)) := by
        rw [← List.append_assoc]
        exact congrArg Prod.snd same
      rw [← stored]
      exact before.stored bytes

theorem create_recording {layout : Layout} {config : Receiver.Config} {loader : Loader σ}
    {mode : Mode} {board : σ} {first : Supervisor σ}
    (created : create layout config loader mode board = .ok first) :
    create layout config loader.recording mode (board, []) = .ok (first.recording []) := by
  rw [create] at created ⊢
  cases planned : layout.window with
  | error fault =>
      rw [planned] at created
      cases created
  | ok window =>
      rw [planned] at created
      cases created
      rfl

end Recording

/-! ## One session -/

section Landing

variable (supervisor : Supervisor σ)

@[simp] theorem destination_engaged : supervisor.engaged.destination = supervisor.destination := by
  rw [engaged]
  split <;> rfl

@[simp] theorem device_engaged : supervisor.engaged.device = supervisor.device := by
  rw [engaged]
  split <;> rfl

@[simp] theorem receiver_engaged : supervisor.engaged.receiver = supervisor.receiver := by
  rw [engaged]
  split <;> rfl

@[simp] theorem board_land (received : Buffer) :
    (supervisor.land received).device.board = supervisor.device.board := by
  rw [land]
  split
  · rfl
  · split <;> rfl

theorem settle_fst (ended : Except Fault Exit × Device σ) :
    (supervisor.settle ended).1 = ended.1 := by
  obtain ⟨result, device⟩ := ended
  cases result <;> rfl

theorem device_settle (ended : Except Fault Exit × Device σ) :
    (supervisor.settle ended).2.device = ended.2 := by
  obtain ⟨result, device⟩ := ended
  cases result <;> rfl

theorem eq_of_settle {ended : Except Fault Exit × Device σ} {result : Except Fault Exit}
    {next : Supervisor σ} (settled : supervisor.settle ended = (result, next)) :
    ended = (result, next.device) := by
  obtain ⟨result', device⟩ := ended
  cases result' with
  | error fault | ok exit =>
      cases settled
      rfl

variable {supervisor} {data : Bytes} {before : Buffer}

/-- Received straight into place, the destination is the code region as it stands. -/
theorem read_of_destination (direct : supervisor.mode = .direct)
    (found : supervisor.destination = .ok before) :
    supervisor.device.memory.read supervisor.window.code.base
      supervisor.window.code.size.toNat = .ok before.toList := by
  rw [destination, direct] at found
  dsimp only at found
  cases read : supervisor.device.memory.read supervisor.window.code.base
      supervisor.window.code.size.toNat with
  | error fault =>
      rw [read] at found
      cases found
  | ok bytes =>
      rw [read] at found
      cases found
      rfl

theorem size_of_destination (direct : supervisor.mode = .direct)
    (found : supervisor.destination = .ok before) :
    before.size = supervisor.window.code.size.toNat := by
  rw [← Array.length_toList]
  exact DeviceMemory.length_of_read (read_of_destination direct found)

theorem land_of_write (direct : supervisor.mode = .direct)
    (found : supervisor.destination = .ok before) (room : data.length ≤ before.size)
    {memory : DeviceMemory}
    (written : supervisor.device.memory.write supervisor.window.code.base data = .ok memory) :
    supervisor.land (Buffer.store before 0 data) =
      { supervisor with device := { supervisor.device with memory } } := by
  rw [size_of_destination direct found] at room
  have stored := DeviceMemory.write_store_of_read (read_of_destination direct found) room
  rw [Array.toArray_toList] at stored
  simp only [land, direct, stored, written]

/-- What is received straight into place stands in the code region afterwards. -/
theorem standing_of_land (direct : supervisor.mode = .direct)
    (found : supervisor.destination = .ok before) (room : data.length ≤ before.size) {index : Nat}
    (inside : index < data.length) :
    (supervisor.land (Buffer.store before 0 data)).device.memory.byteAt?
      (supervisor.window.code.base.toNat + index) = data[index]? := by
  obtain ⟨memory, written⟩ := DeviceMemory.exists_write_of_read (read_of_destination direct found)
    (size_of_destination direct found ▸ room)
  rw [land_of_write direct found room written]
  dsimp only
  rw [DeviceMemory.byteAt?_of_write written, if_pos (by omega), Nat.add_sub_cancel_left]

theorem launch_of_staged (staged : supervisor.mode = .staged) (room : data.length ≤ before.size) :
    (supervisor.land (Buffer.store before 0 data)).launch data.length =
      supervisor.loader.loadBytes supervisor.window supervisor.device data := by
  simp only [launch, land, staged, Buffer.slice_store _ _ room]

/-- **What has been received is run once or not at all.** -/
theorem launched_of_land (found : supervisor.destination = .ok before)
    (room : data.length ≤ before.size) :
    Loader.Launched supervisor.loader supervisor.device.board
      (Loader.Holds supervisor.window data)
      ((supervisor.land (Buffer.store before 0 data)).launch data.length) := by
  cases chosen : supervisor.mode with
  | direct =>
      have board := board_land supervisor (Buffer.store before 0 data)
      obtain ⟨window, loader, _, mode⟩ :=
        setup_eq_iff.mp (setup_land supervisor (Buffer.store before 0 data))
      rw [launch, mode, chosen, window, loader, ← board]
      exact Loader.runInPlace_launched _ _ _ fun index inside =>
        standing_of_land chosen found room inside
  | staged =>
      rw [launch_of_staged chosen room]
      exact Loader.loadBytes_launched _ _ _ _

theorem launched_of_conclude (found : supervisor.destination = .ok before)
    (room : data.length ≤ before.size) {image : Received} (whole : image.length = data.length)
    {result : Except Fault Exit} {next : Supervisor σ}
    (concluded : supervisor.conclude (.ok image) (Buffer.store before 0 data) = (result, next)) :
    Loader.Launched supervisor.loader supervisor.device.board
      (Loader.Holds supervisor.window data) (result, next.device) := by
  have launched := launched_of_land found room
  rw [conclude, whole] at concluded
  rw [eq_of_settle _ concluded] at launched
  exact launched

end Landing

/-! ## The receiver of a session -/

section Receiving

variable {supervisor : Supervisor σ} {now : Nat}

/-- A session receives into its destination, or has none and has failed before it begins. -/
theorem receive_cases (supervisor : Supervisor σ) (now : Nat) :
    (∃ before, supervisor.destination = .ok before ∧
        supervisor.receive now = Receiver.start supervisor.receiver before now) ∨
      ∃ fault, supervisor.destination = .error fault ∧
        supervisor.receive now = (Receiver.start supervisor.receiver #[] now).fail fault := by
  cases found : supervisor.destination with
  | ok before => exact .inl ⟨before, rfl, by rw [receive, found]⟩
  | error fault => exact .inr ⟨fault, rfl, by rw [receive, found]⟩

theorem talk_of_failed {fault : Fault} {events : List Event} {state : Receiver.State}
    (talk : Talk (Receiver.party supervisor.receiver)
      ((Receiver.start supervisor.receiver #[] now).fail fault) events state) :
    events = [] ∧ state = (Receiver.start supervisor.receiver #[] now).fail fault :=
  talk.of_done fun _ => ⟨_, rfl⟩

/-- A session whose receiver reports an image has a destination to receive it into. -/
theorem destination_of_ends {events : List Event} {image : Received} {after : Buffer}
    (ends : Ends (Receiver.party supervisor.receiver) (supervisor.receive now) events
      (.ok image, after)) :
    ∃ before, supervisor.destination = .ok before ∧
      Ends (Receiver.party supervisor.receiver) (Receiver.start supervisor.receiver before now)
        events (.ok image, after) := by
  obtain ⟨before, found, begins⟩ | ⟨fault, _, begins⟩ := receive_cases supervisor now
  · rw [begins] at ends
    exact ⟨before, found, ends⟩
  · rw [begins] at ends
    obtain ⟨state, talk, later, stops⟩ := ends
    obtain ⟨_, rfl⟩ := talk_of_failed talk
    cases stops

end Receiving

/-! ## Every session of every history -/

/-- A sender has sent an image of at most `limit` bytes with its checksum, and the
whole reply to it has gone through. -/
structure Verified (limit : Nat) (events : List Event) (data : Bytes) : Prop where
  /-- The image is as long as the size word announces, which is no more than the limit. -/
  bounded : data.length ≤ limit
  /-- The size word, the checksum word and the image have been heard, in this order. -/
  sent : ∃ size extra, size.toNat = data.length ∧
    heard events = Word.encode size ++ (Word.encode (checksum data) ++ (data ++ extra))
  /-- Every reply has been said to its last byte. -/
  answered : ∃ count, said events =
    Receiver.utter (Receiver.calls (count + 1) ++ [.sizeAck, .verify (checksum data)])

section Runs

variable {layout : Layout} {config : Receiver.Config} {loader : Loader σ} {mode : Mode} {board : σ}
variable {first supervisor next : Supervisor (σ × List Call)} {now : Nat} {events : List Event}
variable {result : Except Fault Exit}

theorem of_create {loader : Loader σ} {first : Supervisor σ}
    (created : create layout config loader mode board = .ok first) :
    first.loader = loader ∧
      first.receiver.maxImageSize = min config.maxImageSize first.window.capacity := by
  have made := created_of_create created
  exact ⟨made.loader, congrArg Receiver.Config.maxImageSize made.receiver⟩

/-- **A session makes one run or none, and one only of an image that it has verified.**
A session whose receiver ends in a fault runs nothing and ends in this fault.  Otherwise
nothing is run and the session does not end in a return, or the image is run once, as it
stands in memory with the range to clear all zero, and the session ends as the run does. -/
theorem verified_of_run
    (created : create layout config loader.recording mode (board, []) = .ok first)
    (reaches : Reaches first supervisor)
    (ends : Ends supervisor.sessionParty (supervisor.receive now) events (result, next)) :
    (∃ fault after,
      Ends (Receiver.party supervisor.receiver) (supervisor.receive now) events
          (.error fault, after) ∧
        result = .error fault ∧ next.calls = supervisor.calls) ∨
      ∃ data,
        Verified (min config.maxImageSize.toNat first.window.capacity.toNat) events data ∧
          ((next.calls = supervisor.calls ∧ ∀ status, result ≠ .ok (.returned status)) ∨
            ∃ call, next.calls = supervisor.calls ++ [call] ∧
              result = (loader.board.execute call.context
                ⟨call.memory, supervisor.device.board.1⟩).1.map .returned ∧
              Loader.Holds first.window data call.context call.memory) := by
  obtain ⟨made, limited⟩ := of_create created
  have receiver : supervisor.receiver = first.receiver :=
    congrArg (fun setup => setup.2.2.1) (setup_of_reaches reaches)
  obtain ⟨⟨received, after⟩, stops, concluded⟩ := ends_session_iff.mp ends
  cases received with
  | error fault =>
      left
      cases concluded
      refine ⟨fault, after, stops, rfl, ?_⟩
      rw [calls, calls, board_land, device_engaged]
  | ok image =>
      right
      obtain ⟨before, found, stops⟩ := destination_of_ends stops
      obtain ⟨count, size, data, extra, hears, length, fits, same, reported, rfl, spoken⟩ :=
        Receiver.verified_of_ends stops
      rw [Session.bound_lt_iff, receiver, limited, Word.toNat_min] at fits
      rw [← same] at hears spoken
      refine ⟨data, ⟨by omega, ⟨size, extra, length.symm, hears⟩, ⟨count, spoken⟩⟩, ?_⟩
      rw [← destination_engaged] at found
      have launched := launched_of_conclude found (by omega) reported concluded
      have setup := (setup_engaged supervisor).trans (setup_of_reaches reaches)
      simp only [Supervisor.setup, Prod.mk.injEq] at setup
      obtain ⟨window, engagedLoader, _⟩ := setup
      rw [window, engagedLoader, made, device_engaged] at launched
      rw [calls, calls]
      generalize next.device = device at launched ⊢
      cases launched with
      | not same unrun => exact .inl ⟨congrArg Prod.snd same, unrun⟩
      | @once context memory holds => exact .inr ⟨⟨context, memory⟩, rfl, rfl, holds⟩

end Runs

/-! ## A single byte -/

/-- A supervisor with sixteen bytes of code and a staging buffer. -/
def small : Supervisor (Unit × List Call) where
  layout := ⟨⟨0, 64⟩, 0, [⟨"code", .code, 0, 16⟩, ⟨"stack", .stack, 16, 16⟩]⟩
  window := ⟨⟨"code", .code, 0, 16⟩, ⟨"stack", .stack, 16, 16⟩, none, 32⟩
  loader := Loader.recording ⟨Board.inspecting, false⟩
  receiver := { maxImageSize := 16 }
  mode := .staged
  device := ⟨.zeroed ⟨0, 64⟩, ((), [])⟩
  staging := Array.replicate 16 0

theorem small_created :
    create ⟨⟨0, 64⟩, 0, [⟨"code", .code, 0, 16⟩, ⟨"stack", .stack, 16, 16⟩]⟩ {}
      (Loader.recording ⟨Board.inspecting, false⟩) .staged ((), []) = .ok small := rfl

/-- A session in which a sender sends the byte 65. -/
theorem small_ends :
    Ends small.sessionParty (small.receive 0)
      [.said [0xC0], .heard [1, 0, 0, 0], .said [0xC1],
        .heard (Word.encode (checksum [65]) ++ [65]), .said (0xF5 :: Word.encode (checksum [65]))]
      (small.conclude (.ok ⟨1, checksum [65]⟩) (Buffer.store small.staging 0 [65])) := by
  refine .cons (@Step.said _ _ _ _ 0 _ _ _ rfl 0) ?_
  refine .cons (@Step.heard _ _ _ _ 0 _ _ _ rfl [1, 0, 0, 0] (by decide) (by decide) 0) ?_
  refine .cons (@Step.said _ _ _ _ 0 _ _ _ rfl 0) ?_
  refine .cons (@Step.heard _ _ _ _ 0 _ _ _ rfl _ (by decide) (by decide) 0) ?_
  refine .cons (@Step.said _ _ _ _ 0 _ _ _ rfl 0) ?_
  exact ⟨_, .begin, 0, rfl⟩

/-- The byte is run, and run once. -/
theorem verified_of_single_byte :
    ∃ events result next, Ends small.sessionParty (small.receive 0) events (result, next) ∧
      next.calls.length = 1 ∧
      ((∃ fault after,
        Ends (Receiver.party small.receiver) (small.receive 0) events (.error fault, after) ∧
          result = .error fault ∧ next.calls = small.calls) ∨
        ∃ data,
          Verified (min ({} : Receiver.Config).maxImageSize.toNat small.window.capacity.toNat)
              events data ∧
            ((next.calls = small.calls ∧ ∀ status, result ≠ .ok (.returned status)) ∨
              ∃ call, next.calls = small.calls ++ [call] ∧
                result = (Board.inspecting.execute call.context
                  ⟨call.memory, small.device.board.1⟩).1.map .returned ∧
                Loader.Holds small.window data call.context call.memory)) :=
  ⟨_, _, _, small_ends, rfl, verified_of_run small_created .begin small_ends⟩

end Overlay.Supervisor
