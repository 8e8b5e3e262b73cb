import Overlay.Proofs.Loader.Conditions
import Overlay.Proofs.Receiver.Lockstep
import Overlay.Proofs.Supervisor.Isolation

/-!
# The two modes of a supervisor

Received straight into place, an image stands in the code region before it is looked at,
and is run there.  Received into a buffer, it is copied to the code region once it has been
found to be in order.  Seen from outside the two make no difference: over one script, and
with the same in memory, a session ends the same, says the same at the same times, leaves
the link the same, and makes the same runs (`modes_agree`).

Only where an image is refused with its magic in place does memory tell the modes apart, as
the one that receives straight into place has already overwritten the code region.
-/

set_option autoImplicit false

namespace Overlay

variable {σ : Type}

/-! ## Bytes that stand in place and bytes that are copied -/

theorem Image.ne_magicLost_of_parse {bytes : Bytes} {reason : Rejection}
    (refused : Image.parse bytes = .error reason) : reason ≠ .magicLost := by
  rw [Image.parse] at refused
  cases decoded : ImageHeader.decode bytes with
  | ok header? =>
      rw [decoded] at refused
      cases header? with
      | none | some _ => cases refused
  | error other =>
      rw [decoded] at refused
      cases refused
      rintro rfl
      rw [ImageHeader.decode] at decoded
      split at decoded
      · cases decoded
      · dsimp only at decoded
        split at decoded
        · cases decoded
        · split at decoded <;> cases decoded

namespace Loader

/-- How loads of the same bytes end when they stand in memory on one side and are copied
into it on the other. -/
inductive Coincide (standing before : Device σ) :
    Except Fault Exit × Device σ → Except Fault Exit × Device σ → Prop where
  /-- They end the same, on the same device. -/
  | same (ended : Except Fault Exit × Device σ) : Coincide standing before ended ended
  /-- They are refused for the same reason, and both devices stay as they were. -/
  | refused {exit : Exit} (unrun : exit.isReturned = false) (magic : exit ≠ .rejected .magicLost) :
      Coincide standing before (.ok exit, standing) (.ok exit, before)

/-- **To run bytes where they stand is to load them there.** -/
theorem runInPlace_coincides (loader : Loader σ) {window : Window} {device : Device σ}
    {data : Bytes} {memory : DeviceMemory} (space : window.code.limit ≤ 4294967296)
    (fits : data.length ≤ window.code.size.toNat)
    (written : device.memory.write window.code.base data = .ok memory) :
    Coincide { device with memory } device
      (loader.runInPlace window { device with memory } data.length)
      (loader.loadBytes window device data) := by
  -- What is read back is what has been written, so both sides parse and check one image.
  rw [runInPlace, loadBytes, Window.capacity, if_neg (by omega)]
  dsimp only
  rw [DeviceMemory.read_of_write written]
  dsimp only
  cases parsed : Image.parse data with
  | error reason =>
      have magic : Exit.rejected reason ≠ .rejected .magicLost := fun lost =>
        Image.ne_magicLost_of_parse parsed (Exit.rejected.inj lost)
      exact .refused rfl magic
  | ok image =>
      dsimp only
      rw [loadAndRun]
      rcases check_cases image loader space with
        ⟨bss, passes, _, _, _⟩ | ⟨exit, refuses, refusal⟩
      · rw [passes, bytes_of_parse parsed]
        dsimp only
        rw [written]
        exact .same _
      · rw [refuses]
        exact .refused refusal.unrun.1 refusal.unrun.2

end Loader

namespace Supervisor

/-! ## One session -/

/-- Two supervisors for the two modes, which differ in their staging buffer at most.  The
code region lies inside memory and takes every image that is accepted, and so does the
staging buffer. -/
structure Paired (direct staged : Supervisor σ) : Prop where
  straight : direct.mode = .direct
  buffered : staged.mode = .staged
  window : staged.window = direct.window
  loader : staged.loader = direct.loader
  receiver : staged.receiver = direct.receiver
  device : staged.device = direct.device
  inside : direct.window.code.Inside direct.device.memory
  fits : direct.receiver.maxImageSize.toNat ≤ direct.window.code.size.toNat
  staging : direct.receiver.maxImageSize.toNat ≤ staged.staging.size

namespace Paired

variable {direct staged : Supervisor σ}

theorem engaged (paired : Paired direct staged) : Paired direct.engaged staged.engaged := by
  rw [Supervisor.engaged, Supervisor.engaged, paired.straight, paired.buffered]
  exact ⟨rfl, paired.buffered, paired.window, paired.loader, paired.receiver, paired.device,
    paired.inside, paired.fits, paired.staging⟩

theorem exists_direct (paired : Paired direct staged) :
    ∃ before, direct.destination = .ok before ∧
      direct.receiver.maxImageSize.toNat ≤ before.size := by
  have below := paired.inside.below
  rw [Region.limit] at below
  obtain ⟨bytes, read⟩ := DeviceMemory.exists_read _ paired.inside.above below
  have found : direct.destination = .ok bytes.toArray := by
    rw [destination, paired.straight]
    dsimp only
    rw [read]
    rfl
  refine ⟨_, found, ?_⟩
  rw [size_of_destination paired.straight found]
  exact paired.fits

/-- The staging buffer has room for every image that is accepted. -/
theorem exists_staged (paired : Paired direct staged) :
    ∃ before, staged.destination = .ok before ∧
      direct.receiver.maxImageSize.toNat ≤ before.size := by
  refine ⟨staged.staging, ?_, paired.staging⟩
  rw [destination, paired.buffered]

/-- **What both have received ends the same.** -/
theorem launch_coincides (paired : Paired direct staged) {before before' : Buffer}
    (found : direct.destination = .ok before) {data : Bytes} (room : data.length ≤ before.size)
    (room' : data.length ≤ before'.size) :
    ∃ memory, Loader.Coincide { direct.device with memory } direct.device
      ((direct.land (Buffer.store before 0 data)).launch data.length)
      ((staged.land (Buffer.store before' 0 data)).launch data.length) := by
  have fits := size_of_destination paired.straight found ▸ room
  obtain ⟨memory, written⟩ := DeviceMemory.exists_write_of_read
    (read_of_destination paired.straight found) fits
  refine ⟨memory, ?_⟩
  rw [land_of_write paired.straight found room written, launch_of_staged paired.buffered room',
    launch, paired.straight, paired.window, paired.loader, paired.device]
  exact Loader.runInPlace_coincides direct.loader paired.inside.space fits written

end Paired

/-! ## The same from outside -/

/-- What two sessions have in common, with the runs that are on record. -/
structure Agrees (direct staged : Except Fault Exit × Supervisor (σ × List Call)) : Prop where
  /-- They end in the same exit or the same fault. -/
  result : staged.1 = direct.1
  /-- They have made the same runs, with the same in memory, and left the board the same. -/
  board : staged.2.device.board = direct.2.device.board
  /-- If anything was run, or the magic was lost, they have left memory the same. -/
  memory : direct.2.calls ≠ [] ∨ direct.1 = .ok (.rejected .magicLost) →
    staged.2.device.memory = direct.2.device.memory

section Agreement

variable {direct staged : Supervisor (σ × List Call)}

theorem agrees_of_failed (paired : Paired direct staged) (fresh : direct.calls = [])
    (fault : Fault) (received received' : Buffer) :
    Agrees (direct.conclude (.error fault) received)
      (staged.conclude (.error fault) received') := by
  have board := board_land direct received
  refine ⟨rfl, ?_, ?_⟩
  · refine (board_land staged received').trans ?_
    rw [paired.device]
    exact board.symm
  · rintro (runs | lost)
    · refine absurd ?_ runs
      rw [calls]
      exact (congrArg Prod.snd board).trans fresh
    · cases lost

theorem agrees_of_received (paired : Paired direct staged) (fresh : direct.calls = [])
    {before before' : Buffer} (found : direct.destination = .ok before) {data : Bytes}
    (room : data.length ≤ before.size) (room' : data.length ≤ before'.size) {image : Received}
    (whole : image.length = data.length) :
    Agrees (direct.conclude (.ok image) (Buffer.store before 0 data))
      (staged.conclude (.ok image) (Buffer.store before' 0 data)) := by
  obtain ⟨memory, coincide⟩ := paired.launch_coincides found room room'
  rw [conclude, conclude, whole]
  generalize (direct.land (Buffer.store before 0 data)).launch data.length = ended,
    (staged.land (Buffer.store before' 0 data)).launch data.length = ended' at coincide
  cases coincide with
  | same ended =>
      refine ⟨?_, ?_, fun _ => ?_⟩
      · rw [settle_fst, settle_fst]
      · rw [device_settle, device_settle]
      · rw [device_settle, device_settle]
  | refused unrun magic =>
      refine ⟨rfl, rfl, ?_⟩
      rintro (runs | lost)
      · exact absurd fresh runs
      · exact absurd (Except.ok.inj lost) magic

/-- One session over a script, for at most `fuel` moves. -/
def serveScript (supervisor : Supervisor σ) (fuel now : Nat) (link : ScriptedLink) :
    Option ((Except Fault Exit × Supervisor σ) × ScriptedLink) :=
  supervisor.sessionParty.runScript fuel (supervisor.receive now) link

theorem serveScript_eq {supervisor : Supervisor σ} {before : Buffer}
    (found : supervisor.destination = .ok before) (fuel now : Nat) (link : ScriptedLink) :
    supervisor.serveScript fuel now link =
      ((Receiver.party supervisor.receiver).runScript fuel
        (Receiver.start supervisor.receiver before now) link).map fun ended =>
          (supervisor.engaged.conclude ended.1.1 ended.1.2, ended.2) := by
  rw [serveScript, receive, found]
  exact Party.runScript_concluding _ fuel _ link

/-- **Sessions of paired supervisors agree over every script.** -/
theorem agrees_of_paired (paired : Paired direct staged) (fresh : direct.calls = [])
    (fuel now : Nat) (link : ScriptedLink) :
    Option.Rel (fun ended ended' => Agrees ended.1 ended'.1 ∧ ended'.2 = ended.2)
      (direct.serveScript fuel now link) (staged.serveScript fuel now link) := by
  obtain ⟨before, found, room⟩ := paired.exists_direct
  obtain ⟨before', found', room'⟩ := paired.exists_staged
  have matched := Receiver.runScript_matches room room' fuel now link
  rw [serveScript_eq found, serveScript_eq found', paired.receiver]
  generalize runs : (Receiver.party direct.receiver).runScript fuel
      (Receiver.start direct.receiver before now) link = ended?,
    runs' : (Receiver.party direct.receiver).runScript fuel
      (Receiver.start direct.receiver before' now) link = ended?' at matched ⊢
  cases matched with
  | none => exact .none
  | @some ended ended' same =>
      obtain ⟨⟨result, after⟩, left⟩ := ended
      obtain ⟨⟨result', after'⟩, left'⟩ := ended'
      obtain ⟨rfl, rfl⟩ : result' = result ∧ left' = left := same
      refine .some ⟨?_, rfl⟩
      have fresh' : direct.engaged.calls = [] := by rw [calls, device_engaged]; exact fresh
      cases result' with
      | error fault => exact agrees_of_failed paired.engaged fresh' fault after after'
      | ok received =>
          -- The link is left the same, so both have heard, and stored, the same bytes.
          obtain ⟨data, whole, bounded, rfl, rfl⟩ := Receiver.stored_of_runScript runs runs'
          rw [← destination_engaged] at found
          exact agrees_of_received paired.engaged fresh' found (bounded.trans room)
            (bounded.trans room') whole

end Agreement

/-! ## Planned layouts -/

/-- A supervisor with given contents of memory and of its staging buffer. -/
def holding (supervisor : Supervisor σ) (memory : DeviceMemory) (staging : Buffer) :
    Supervisor σ :=
  { supervisor with device := { supervisor.device with memory }, staging }

section Planned

variable {space : AddressSpace} {safetyGap : UInt32} {requests : List RegionRequest}
variable {layout : Layout} {config : Receiver.Config} {loader : Loader σ} {board : σ}
variable {direct staged : Supervisor (σ × List Call)} {memory : DeviceMemory} {staging : Buffer}

/-- Supervisors that are made for the two modes of a planned layout are a pair, whatever
memory and the staging buffer hold. -/
theorem paired_of_create (planned : Layout.plan space safetyGap requests = .ok layout)
    (inPlace : create layout config loader.recording .direct (board, []) = .ok direct)
    (buffered : create layout config loader.recording .staged (board, []) = .ok staged)
    (spans : memory.Spans layout.memory) (room : staging.size = staged.staging.size)
    (unused : Buffer) : Paired (direct.holding memory unused) (staged.holding memory staging) := by
  have made := created_of_create inPlace
  have made' := created_of_create buffered
  have window : staged.window = direct.window :=
    Except.ok.inj (made'.window.symm.trans made.window)
  have receiver : staged.receiver = direct.receiver := by
    rw [made.receiver, made'.receiver, window]
  have loaders : staged.loader = direct.loader := made'.loader.trans made.loader.symm
  refine ⟨made.mode, made'.mode, window, loaders, receiver, ?_, ?_, ?_, ?_⟩
  · rw [holding, holding, made.device, made'.device]
  · exact Layout.code_inside_of_plan planned made.window spans
  · have accepted := congrArg Receiver.Config.maxImageSize made.receiver
    dsimp only [holding] at accepted ⊢
    rw [accepted, Word.toNat_min, Window.capacity]
    exact Nat.min_le_right _ _
  · refine Nat.le_of_eq ?_
    dsimp only [holding]
    rw [room, made'.staging rfl, receiver]

/-- **The two modes agree.**  For a planned layout, any limits of the receiver, any loader
and board, and whatever memory and the staging buffer hold, one session over one script is
the same in both modes: it ends the same, leaves the link the same, with the same bytes
accepted at the same times and the same bytes unread, and has made the same runs. -/
theorem modes_agree (planned : Layout.plan space safetyGap requests = .ok layout)
    (inPlace : create layout config loader.recording .direct (board, []) = .ok direct)
    (buffered : create layout config loader.recording .staged (board, []) = .ok staged)
    (spans : memory.Spans layout.memory) (room : staging.size = staged.staging.size)
    (unused : Buffer) (fuel now : Nat) (link : ScriptedLink) :
    Option.Rel (fun ended ended' => Agrees ended.1 ended'.1 ∧ ended'.2 = ended.2)
      ((direct.holding memory unused).serveScript fuel now link)
      ((staged.holding memory staging).serveScript fuel now link) := by
  have made := created_of_create inPlace
  refine agrees_of_paired (paired_of_create planned inPlace buffered spans room unused) ?_ fuel
    now link
  rw [calls, holding, made.device]

end Planned

/-- The supervisor with sixteen bytes of code, receiving straight into place. -/
def smallDirect : Supervisor (Unit × List Call) :=
  { small with mode := .direct, staging := #[] }

theorem smallDirect_created :
    create small.layout {} (Loader.recording ⟨Board.inspecting, false⟩) .direct ((), []) =
      .ok smallDirect := rfl

/-- A script in which the byte 65 arrives with its size and its checksum. -/
def singleByteScript : ScriptedLink where
  arrivals := [⟨0, .data (Word.encode 1 ++ (Word.encode (checksum [65]) ++ [65]))⟩]

/-- The byte is run once, and the modes agree on it. -/
theorem modes_agree_of_single_byte :
    ((smallDirect.holding (.zeroed small.layout.memory) #[]).serveScript 8 0
        singleByteScript).map (fun ended => ended.1.2.calls.length) = some 1 ∧
      Option.Rel (fun ended ended' => Agrees ended.1 ended'.1 ∧ ended'.2 = ended.2)
        ((smallDirect.holding (.zeroed small.layout.memory) #[]).serveScript 8 0
          singleByteScript)
        ((small.holding (.zeroed small.layout.memory) (Array.replicate 16 255)).serveScript 8 0
          singleByteScript) := by
  have room : (Array.replicate 16 (255 : UInt8)).size = small.staging.size := rfl
  constructor
  · decide +kernel
  · exact modes_agree small_planned smallDirect_created small_created
      (DeviceMemory.spans_zeroed _) room #[] 8 0 singleByteScript

end Supervisor

end Overlay
