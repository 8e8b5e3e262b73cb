import Mathlib.Logic.Relation
import Overlay.Proofs.Loader.Confined
import Overlay.Proofs.Supervisor.Sessions

/-!
# Memory outside the code region

A supervisor lets a sender write into the code region at most, and its loads keep to that
region as well.  So whatever it has been sent and whatever it has loaded, a byte outside
the code region has changed only while an overlay was running (`isolated_of_reaches`).

With a staging buffer a session whose transfer has failed leaves the whole device as it
was.  So does, with or without it, a stored image that is not found, or is refused with its
magic in place.
-/

set_option autoImplicit false

namespace Overlay

open Party (Event Talk Ends)

variable {σ : Type}

/-! ## Devices that are left alone outside a region -/

/-- A step of a device: memory changes in a region, or an overlay runs. -/
inductive Loader.Advances (loader : Loader σ) (region : Region) : Device σ → Device σ → Prop where
  | aside {device : Device σ} {memory : DeviceMemory}
      (agrees : AgreesOutside region device.memory memory) :
      Advances loader region device { device with memory }
  | run (device : Device σ) (context : Context) :
      Advances loader region device (loader.jump device context).2

/-- A device that has been left alone outside a region whenever no overlay was running. -/
abbrev Loader.Isolates (loader : Loader σ) (region : Region) : Device σ → Device σ → Prop :=
  Relation.ReflTransGen (loader.Advances region)

namespace Loader

variable {loader : Loader σ} {region : Region} {device first last : Device σ}

/-- A change of memory in a region, the board being left alone. -/
theorem Advances.of_agrees (agrees : AgreesOutside region first.memory last.memory)
    (board : last.board = first.board) : loader.Advances region first last := by
  obtain ⟨memory, board'⟩ := last
  cases board
  exact .aside agrees

/-- A load that keeps to a region leaves the device alone outside of it. -/
theorem Confined.isolates {ended : Except Fault Exit × Device σ}
    (confined : Confined loader region device ended) : loader.Isolates region device ended.2 := by
  cases confined with
  | unrun agrees _ => exact .single (.aside agrees)
  | run agrees => exact .tail (.single (.aside agrees)) (.run _ _)

theorem Confined.kept {exit : Exit} {after : Device σ}
    (confined : Confined loader region device (.ok exit, after))
    (unrun : exit.isReturned = false) (magic : exit ≠ .rejected .magicLost) : after = device := by
  generalize ended : (Except.ok exit, after) = load at confined
  cases confined with
  | unrun agrees kept =>
      cases ended
      rw [kept exit rfl magic]
  | @run context memory agrees =>
      -- A run that comes to an exit returns.
      rw [jump, Prod.mk.injEq] at ended
      cases result : (loader.board.execute context { device with memory }).1 with
      | error fault =>
          rw [result] at ended
          cases ended.1
      | ok status =>
          rw [result] at ended
          cases ended.1
          cases unrun

/-- **A byte outside the region that no run on record has changed is as it was.** -/
theorem Isolates.byteAt?_eq {first last : Device (σ × List Call)}
    (isolates : loader.recording.Isolates region first last) {place : Nat}
    (outside : place < region.base.toNat ∨ region.limit ≤ place)
    (spared : ∀ call ∈ last.board.2, ∀ board,
      (loader.board.execute call.context ⟨call.memory, board⟩).2.memory.byteAt? place =
        call.memory.byteAt? place) :
    last.memory.byteAt? place = first.memory.byteAt? place := by
  induction isolates with
  | refl => rfl
  | @tail device _ _ advances ih =>
      cases advances with
      | aside agrees => exact (agrees.bytes place outside).trans (ih spared)
      | run context =>
          have record : ((loader.recording.jump device context).2.board.2) =
              device.board.2 ++ [⟨context, device.memory⟩] := rfl
          rw [record] at spared
          have runs := spared ⟨context, device.memory⟩
            (List.mem_append_right _ (List.mem_singleton.mpr rfl)) device.board.1
          exact runs.trans (ih fun call member => spared call (List.mem_append_left _ member))

end Loader

namespace Supervisor

/-! ## One operation -/

section Operations

variable (supervisor : Supervisor σ)

/-- What a receiver leaves behind is no longer than the code region, if it is put there. -/
def Bounded (received : Buffer) : Prop :=
  supervisor.mode = .direct → received.size ≤ supervisor.window.code.size.toNat

theorem bounded_engaged {received : Buffer} (bounded : supervisor.Bounded received) :
    supervisor.engaged.Bounded received := by
  obtain ⟨window, _, _, mode⟩ := setup_eq_iff.mp (setup_engaged supervisor)
  rwa [Bounded, window, mode]

theorem agrees_land {received : Buffer} (bounded : supervisor.Bounded received) :
    AgreesOutside supervisor.window.code supervisor.device.memory
      (supervisor.land received).device.memory := by
  rw [land]
  cases chosen : supervisor.mode with
  | staged => exact .refl _ _
  | direct =>
      dsimp only
      split
      · rename_i memory written
        refine .of_write written (Nat.le_refl _) ?_
        rw [Array.length_toList, Region.limit]
        exact Nat.add_le_add_left (bounded chosen) _
      · exact .refl _ _

theorem confined_launch (space : supervisor.window.code.limit ≤ 4294967296) (length : Nat) :
    Loader.Confined supervisor.loader supervisor.window.code supervisor.device
      (supervisor.launch length) := by
  rw [launch]
  split
  · exact Loader.runInPlace_confined space length
  · exact Loader.loadBytes_confined space _

theorem isolates_conclude (space : supervisor.window.code.limit ≤ 4294967296)
    {received : Buffer} (bounded : supervisor.Bounded received)
    (result : Except Fault Received) :
    supervisor.loader.Isolates supervisor.window.code supervisor.device
      (supervisor.conclude result received).2.device := by
  have lands : supervisor.loader.Isolates supervisor.window.code supervisor.device
      (supervisor.land received).device :=
    .single (.of_agrees (supervisor.agrees_land bounded) (supervisor.board_land received))
  cases result with
  | error fault => exact lands
  | ok image =>
      obtain ⟨window, loader, _⟩ := setup_eq_iff.mp (setup_land supervisor received)
      have launches := confined_launch (supervisor.land received) (by rwa [window]) image.length
      rw [window, loader] at launches
      rw [conclude, device_settle]
      exact lands.trans launches.isolates

theorem confined_runStored (space : supervisor.window.code.limit ≤ 4294967296) (bytes : Bytes) :
    Loader.Confined supervisor.loader supervisor.window.code supervisor.device
      ((supervisor.runStored bytes).1, (supervisor.runStored bytes).2.device) := by
  rw [runStored, settle_fst, device_settle]
  exact Loader.loadBytes_confined space bytes

end Operations

/-! ## Histories -/

section Histories

variable {first supervisor : Supervisor σ}

/-- At every moment of a session the receiver holds no more than the code region, if it receives
straight into place. -/
theorem bounded_of_talk {now : Nat} {events : List Event} {state : Receiver.State}
    (talk : Talk (Receiver.party supervisor.receiver) (supervisor.receive now) events state) :
    supervisor.Bounded state.destination := by
  intro direct
  obtain ⟨before, found, begins⟩ | ⟨fault, _, begins⟩ := receive_cases supervisor now
  · rw [begins] at talk
    rw [Receiver.size_destination_of_talk talk]
    exact Nat.le_of_eq (size_of_destination direct found)
  · rw [begins] at talk
    obtain ⟨_, rfl⟩ := talk_of_failed talk
    exact Nat.zero_le _

/-- **Sessions and stored images leave memory outside the code region alone.** -/
theorem isolates_of_reaches (space : first.window.code.limit ≤ 4294967296)
    (reaches : Reaches first supervisor) :
    first.loader.Isolates first.window.code first.device supervisor.device := by
  induction reaches with
  | begin => exact .refl
  | @session supervisor next now events result before ends ih =>
      obtain ⟨⟨received, after⟩, ⟨state, talk, later, stops⟩, concluded⟩ :=
        ends_session_iff.mp ends
      have bounded := bounded_of_talk talk
      rw [(Receiver.stage_of_done stops).2] at bounded
      obtain ⟨window, loader, _⟩ :=
        setup_eq_iff.mp ((setup_engaged supervisor).trans (setup_of_reaches before))
      have leaves := isolates_conclude supervisor.engaged (by rwa [window])
        (bounded_engaged supervisor bounded) received
      rw [concluded, window, loader, device_engaged] at leaves
      exact ih.trans leaves
  | @stored supervisor before bytes ih =>
      obtain ⟨window, loader, _⟩ := setup_eq_iff.mp (setup_of_reaches before)
      have leaves := (confined_runStored supervisor (by rwa [window]) bytes).isolates
      rw [window, loader] at leaves
      exact ih.trans leaves

theorem reaches_runNamed (reaches : Reaches first supervisor)
    (source : String → Except Fault Bytes) (name : String) :
    Reaches first (supervisor.runNamed source name).2 := by
  rw [runNamed]
  split
  · exact reaches
  · exact reaches.stored _

/-- A session with a staging buffer whose transfer fails leaves the device as it was. -/
theorem device_of_failed (staged : supervisor.mode = .staged) {state : Receiver.State}
    {fault : Fault} (failed : state.stage = .finished (.error fault)) {now : Nat}
    {result : Except Fault Exit} {next : Supervisor σ}
    (stops : supervisor.sessionParty state now = .done (result, next)) :
    result = .error fault ∧ next.device = supervisor.device := by
  rw [sessionParty, Receiver.party, failed] at stops
  cases stops
  rw [engaged, staged]
  dsimp only
  rw [land, staged]
  exact ⟨rfl, rfl⟩

end Histories

section Recorded

variable {loader : Loader σ} {first supervisor : Supervisor (σ × List Call)}

/-- What is not changed by a supervisor after a history, with the runs that are on record. -/
structure Isolated (loader : Loader σ) (first supervisor : Supervisor (σ × List Call)) : Prop where
  /-- Outside the code region, memory has changed only while an overlay was running. -/
  history : loader.recording.Isolates first.window.code first.device supervisor.device
  /-- So a byte outside the code region that no run has changed is as it was. -/
  spared {place : Nat} (outside : place < first.window.code.base.toNat ∨
      first.window.code.limit ≤ place)
    (runs : ∀ call ∈ supervisor.calls, ∀ board,
      (loader.board.execute call.context ⟨call.memory, board⟩).2.memory.byteAt? place =
        call.memory.byteAt? place) :
    supervisor.device.memory.byteAt? place = first.device.memory.byteAt? place
  /-- At every moment of the next session, memory outside the code region is as it was
  before the session. -/
  session {start : Nat} {events : List Event} {state : Receiver.State}
    (talk : Talk supervisor.sessionParty (supervisor.receive start) events state) :
    AgreesOutside first.window.code supervisor.device.memory
      (supervisor.engaged.land state.destination).device.memory
  /-- With a staging buffer, a session whose transfer fails leaves the whole device as it
  was. -/
  failed (staged : supervisor.mode = .staged) {start now : Nat} {events : List Event}
    {state : Receiver.State} {fault : Fault} {result : Except Fault Exit}
    {next : Supervisor (σ × List Call)}
    (talk : Talk supervisor.sessionParty (supervisor.receive start) events state)
    (fails : state.stage = .finished (.error fault))
    (stops : supervisor.sessionParty state now = .done (result, next)) :
    result = .error fault ∧ next.device = supervisor.device
  /-- A load of any name from any source of images leads on. -/
  named (source : String → Except Fault Bytes) (name : String) :
    Reaches first (supervisor.runNamed source name).2
  /-- An image that is not found leaves everything as it was. -/
  missing {source : String → Except Fault Bytes} {name : String} {fault : Fault}
    (unresolved : source name = .error fault) :
    supervisor.runNamed source name = (.error fault, supervisor)
  /-- An image that is refused with its magic in place leaves the whole device as it was. -/
  refused {source : String → Except Fault Bytes} {name : String} {exit : Exit}
    {next : Supervisor (σ × List Call)} (ends : supervisor.runNamed source name = (.ok exit, next))
    (unrun : exit.isReturned = false) (magic : exit ≠ .rejected .magicLost) :
    next.device = supervisor.device

theorem isolated_of_space (made : first.loader = loader.recording)
    (space : first.window.code.limit ≤ 4294967296) (reaches : Reaches first supervisor) :
    Isolated loader first supervisor where
  history := made ▸ isolates_of_reaches space reaches
  spared outside runs := by
    have isolates := isolates_of_reaches space reaches
    rw [made] at isolates
    exact isolates.byteAt?_eq outside runs
  session {_ _ state} talk := by
    obtain ⟨window, _⟩ :=
      setup_eq_iff.mp ((setup_engaged supervisor).trans (setup_of_reaches reaches))
    have bounded := bounded_of_talk (Party.talk_concluding_iff.mp talk)
    have agrees := agrees_land supervisor.engaged (bounded_engaged supervisor bounded)
    rwa [window, device_engaged] at agrees
  failed staged _ _ _ _ _ _ _ _ fails stops := device_of_failed staged fails stops
  named source name := reaches_runNamed reaches source name
  missing unresolved := by rw [runNamed, unresolved]
  refused {source name exit next} ends unrun magic := by
    obtain ⟨window, _⟩ := setup_eq_iff.mp (setup_of_reaches reaches)
    rw [runNamed] at ends
    split at ends
    · cases ends
    · rename_i bytes _
      have confined := confined_runStored supervisor (by rwa [window]) bytes
      rw [ends] at confined
      exact confined.kept unrun magic

/-- **A supervisor of a planned layout keeps memory outside its code region to the
overlays.**  It has seen any sessions on links that may do anything, and any stored images,
and its loader keeps a record of the runs. -/
theorem isolated_of_reaches {memory : AddressSpace} {safetyGap : UInt32}
    {requests : List RegionRequest} {layout : Layout} {config : Receiver.Config} {mode : Mode}
    {board : σ} (planned : Layout.plan memory safetyGap requests = .ok layout)
    (created : create layout config loader.recording mode (board, []) = .ok first)
    (reaches : Reaches first supervisor) : Isolated loader first supervisor := by
  have made := created_of_create created
  refine isolated_of_space made.loader ?_ reaches
  exact (Layout.code_inside_of_plan planned made.window (DeviceMemory.spans_zeroed _)).space

end Recorded

theorem small_planned :
    Layout.plan ⟨0, 64⟩ 0 [⟨"code", .code, 16, none⟩, ⟨"stack", .stack, 16, none⟩] =
      .ok small.layout := rfl

/-- It is isolated after it has run a single byte. -/
theorem isolated_of_single_byte :
    ∃ events result next, Ends small.sessionParty (small.receive 0) events (result, next) ∧
      next.calls.length = 1 ∧ Reaches small next ∧
        Isolated ⟨Board.inspecting, false⟩ small next :=
  ⟨_, _, _, small_ends, rfl, .session .begin small_ends,
    isolated_of_reaches small_planned small_created (.session .begin small_ends)⟩

end Supervisor

end Overlay
