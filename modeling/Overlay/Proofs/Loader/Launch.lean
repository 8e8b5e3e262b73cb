import Overlay.Loader
import Overlay.Proofs.Memory.Bytes

/-!
# What a load runs

A load hands over control once or not at all.  If it does, memory holds the image in
the code region, with the range that the image asks for cleared
(`loadBytes_launched`, `runInPlace_launched`).  If it does not, the board is left as
it was, and the load does not end in a return.

What has been run, and with what in memory, is told by a board that keeps a record of
it.  The record makes no difference to a load (`mirrors_loadBytes`,
`mirrors_runInPlace`).
-/

set_option autoImplicit false

namespace Overlay

/-! ## Boards that keep a record -/

/-- A run of an overlay: what it was started with, and memory as it stood. -/
structure Call where
  context : Context
  memory : DeviceMemory

/-- A board that also keeps a record of its runs. -/
def Board.recording {σ : Type} (board : Board σ) : Board (σ × List Call) where
  execute context device :=
    let (result, after) := board.execute context ⟨device.memory, device.board.1⟩
    (result,
      { memory := after.memory
        board := (after.board, device.board.2 ++ [⟨context, device.memory⟩]) })
  neutralise board' := (board.neutralise board'.1, board'.2)

/-- A device with a record of the runs on it. -/
def Device.recording {σ : Type} (device : Device σ) (calls : List Call) :
    Device (σ × List Call) :=
  ⟨device.memory, (device.board, calls)⟩

namespace Loader

variable {σ : Type}

/-- A loader that keeps a record of the runs. -/
def recording (loader : Loader σ) : Loader (σ × List Call) :=
  ⟨loader.board.recording, loader.requireHeader⟩

/-! ## The record makes no difference -/

/-- The same end of a load, with a record that has grown or stayed. -/
def Mirrors (calls : List Call) (recorded : Except Fault Exit × Device (σ × List Call))
    (plain : Except Fault Exit × Device σ) : Prop :=
  ∃ more, recorded = (plain.1, plain.2.recording (calls ++ more))

section Records

variable (loader : Loader σ) (calls : List Call) (window : Window) (device : Device σ)

theorem check_recording (image : Image) :
    loader.recording.check window image = loader.check window image := rfl

theorem mirrors_unrun (result : Except Fault Exit) :
    Mirrors calls (result, device.recording calls) (result, device) :=
  ⟨[], by rw [List.append_nil]⟩

/-- A run is put on record, and goes as it would without. -/
theorem mirrors_jump (context : Context) :
    Mirrors calls (loader.recording.jump (device.recording calls) context)
      (loader.jump device context) :=
  ⟨[⟨context, device.memory⟩], rfl⟩

theorem mirrors_launch (image : Image) (bss : Span) :
    Mirrors calls (loader.recording.launch window (device.recording calls) image bss)
      (loader.launch window device image bss) := by
  rw [launch, launch, Device.recording]
  dsimp only
  cases device.memory.fill bss.start bss.length 0 with
  | error fault => exact mirrors_unrun calls device _
  | ok memory =>
      dsimp only
      cases magicKept memory window image with
      | error fault => exact mirrors_unrun calls { device with memory } _
      | ok kept =>
          cases kept with
          | false => exact mirrors_unrun calls { device with memory } _
          | true => exact mirrors_jump loader calls { device with memory } _

theorem mirrors_loadAndRun (image : Image) :
    Mirrors calls (loader.recording.loadAndRun window (device.recording calls) image)
      (loader.loadAndRun window device image) := by
  rw [loadAndRun, loadAndRun, Device.recording, check_recording]
  cases loader.check window image with
  | error exit => exact mirrors_unrun calls device _
  | ok bss =>
      dsimp only
      cases device.memory.write window.code.base image.bytes with
      | error fault => exact mirrors_unrun calls device _
      | ok memory => exact mirrors_launch loader calls window { device with memory } image bss

theorem mirrors_loadBytes (bytes : Bytes) :
    Mirrors calls (loader.recording.loadBytes window (device.recording calls) bytes)
      (loader.loadBytes window device bytes) := by
  rw [loadBytes, loadBytes]
  cases Image.parse bytes with
  | error reason => exact mirrors_unrun calls device _
  | ok image => exact mirrors_loadAndRun loader calls window device image

theorem mirrors_runInPlace (length : Nat) :
    Mirrors calls (loader.recording.runInPlace window (device.recording calls) length)
      (loader.runInPlace window device length) := by
  rw [runInPlace, runInPlace]
  split
  · exact mirrors_unrun calls device _
  rw [Device.recording]
  dsimp only
  cases device.memory.read window.code.base length with
  | error fault => exact mirrors_unrun calls device _
  | ok bytes =>
      dsimp only
      cases Image.parse bytes with
      | error reason => exact mirrors_unrun calls device _
      | ok image =>
          dsimp only
          rw [check_recording]
          cases loader.check window image with
          | error exit => exact mirrors_unrun calls device _
          | ok bss => exact mirrors_launch loader calls window device image bss

end Records

/-! ## Once or not at all -/

/-- How a load ends that starts with a given board and hands over control once or not at
all, and only with memory as it should be. -/
inductive Launched (loader : Loader σ) (board : σ) (ready : Context → DeviceMemory → Prop) :
    Except Fault Exit × Device σ → Prop where
  | not {result : Except Fault Exit} {device : Device σ} (same : device.board = board)
      (unrun : ∀ status, result ≠ .ok (.returned status)) :
      Launched loader board ready (result, device)
  | once {context : Context} {memory : DeviceMemory} (holds : ready context memory) :
      Launched loader board ready (loader.jump ⟨memory, board⟩ context)

/-- Memory holds an image in the code region, with the range to clear all zero. -/
def Holds (window : Window) (bytes : Bytes) (context : Context) (memory : DeviceMemory) : Prop :=
  ∀ index, index < bytes.length →
    memory.byteAt? (window.code.base.toNat + index) =
      if context.bss.start.toNat ≤ window.code.base.toNat + index ∧
          window.code.base.toNat + index < context.bss.limit.toNat then some 0
      else bytes[index]?

section Launches

variable {loader : Loader σ} {window : Window} {device : Device σ} {image : Image} {bss : Span}

theorem holds_of_fill {stood memory : DeviceMemory}
    (loaded : ∀ index, index < image.bytes.length →
      stood.byteAt? (window.code.base.toNat + index) = image.bytes[index]?)
    (filled : stood.fill bss.start bss.length 0 = .ok memory) :
    Holds window image.bytes (context window image bss) memory := by
  intro index inside
  rw [DeviceMemory.byteAt?_of_fill filled, loaded index inside]
  by_cases covered : bss.start.toNat ≤ window.code.base.toNat + index ∧
      window.code.base.toNat + index < bss.limit.toNat
  · rw [if_pos (by rw [Span.length]; omega)]
    exact (if_pos covered).symm
  · rw [if_neg (by rw [Span.length]; omega)]
    exact (if_neg covered).symm

/-- What stands in the code region is run once or not at all, with the range to clear all
zero. -/
theorem launch_launched_of {ready : Context → DeviceMemory → Prop}
    (holds : ∀ memory, device.memory.fill bss.start bss.length 0 = .ok memory →
      ready (context window image bss) memory) :
    Launched loader device.board ready (loader.launch window device image bss) := by
  rw [launch]
  split
  · exact .not rfl nofun
  · rename_i memory filled
    dsimp only
    split
    · exact .not rfl nofun
    · exact .not rfl nofun
    · exact .once (holds memory filled)

theorem unrun_of_check {exit : Exit} (refused : loader.check window image = .error exit)
    (status : Int32) : exit ≠ .returned status := by
  rintro rfl
  rw [check] at refused
  simp only [bind, Except.bind, throw, throwThe, MonadExceptOf.throw] at refused
  split at refused
  · cases refused
  split at refused
  · cases refused
  split at refused
  · rename_i address
    cases refused
    rw [checkEntryAddress] at address
    split at address <;> cases address
  split at refused
  · rename_i offset
    cases refused
    rw [checkEntryOffset] at offset
    split at offset
    all_goals split at offset <;> cases offset
  · rw [checkBss] at refused
    split at refused
    · split at refused <;> cases refused
    · cases refused

theorem bytes_of_parse {bytes : Bytes} (parsed : Image.parse bytes = .ok image) :
    image.bytes = bytes := by
  rw [Image.parse] at parsed
  cases decoded : ImageHeader.decode bytes with
  | error reason =>
      rw [decoded] at parsed
      cases parsed
  | ok header? =>
      rw [decoded] at parsed
      cases header? with
      | none =>
          cases parsed
          rfl
      | some header =>
          cases parsed
          rfl

theorem loadAndRun_launched_of {ready : Context → DeviceMemory → Prop}
    (holds : ∀ bss stood memory, loader.check window image = .ok bss →
      device.memory.write window.code.base image.bytes = .ok stood →
        stood.fill bss.start bss.length 0 = .ok memory → ready (context window image bss) memory) :
    Launched loader device.board ready (loader.loadAndRun window device image) := by
  rw [loadAndRun]
  split
  · rename_i exit refused
    exact .not rfl fun status same => unrun_of_check refused status (Except.ok.inj same)
  · rename_i bss passes
    split
    · exact .not rfl nofun
    · rename_i stood written
      exact @launch_launched_of _ loader window { device with memory := stood } image bss ready
        fun memory filled => holds bss stood memory passes written filled

theorem standing_of_write {stood : DeviceMemory}
    (written : device.memory.write window.code.base image.bytes = .ok stood) (index : Nat)
    (inside : index < image.bytes.length) :
    stood.byteAt? (window.code.base.toNat + index) = image.bytes[index]? := by
  rw [DeviceMemory.byteAt?_of_write written, if_pos (by omega), Nat.add_sub_cancel_left]

theorem loadAndRun_launched :
    Launched loader device.board (Holds window image.bytes)
      (loader.loadAndRun window device image) :=
  loadAndRun_launched_of fun _ _ _ _ written filled =>
    holds_of_fill (standing_of_write written) filled

theorem loadBytes_launched_of {ready : Context → DeviceMemory → Prop} {bytes : Bytes}
    (launched : ∀ image, Image.parse bytes = .ok image →
      Launched loader device.board ready (loader.loadAndRun window device image)) :
    Launched loader device.board ready (loader.loadBytes window device bytes) := by
  rw [loadBytes]
  split
  · exact .not rfl nofun
  · exact launched _ ‹_›

/-- Bytes in the code region that are an image in order are run once or not at all. -/
theorem runInPlace_launched_of {ready : Context → DeviceMemory → Prop} {length : Nat}
    (holds : ∀ bytes image bss memory, device.memory.read window.code.base length = .ok bytes →
      Image.parse bytes = .ok image → loader.check window image = .ok bss →
        device.memory.fill bss.start bss.length 0 = .ok memory →
          ready (context window image bss) memory) :
    Launched loader device.board ready (loader.runInPlace window device length) := by
  rw [runInPlace]
  split
  · exact .not rfl nofun
  split
  · exact .not rfl nofun
  rename_i bytes found
  split
  · exact .not rfl nofun
  rename_i image parsed
  split
  · rename_i exit refused
    exact .not rfl fun status same => unrun_of_check refused status (Except.ok.inj same)
  · rename_i bss passes
    exact launch_launched_of fun memory filled => holds bytes image bss memory found parsed passes
      filled

/-- **Bytes that are loaded are run once or not at all**, and stand in the code region
when they are run. -/
theorem loadBytes_launched (loader : Loader σ) (window : Window) (device : Device σ)
    (bytes : Bytes) :
    Launched loader device.board (Holds window bytes) (loader.loadBytes window device bytes) := by
  refine loadBytes_launched_of fun image parsed => ?_
  rw [← bytes_of_parse parsed]
  exact loadAndRun_launched

/-- **Bytes that stand in the code region are run once or not at all.** -/
theorem runInPlace_launched (loader : Loader σ) (window : Window) (device : Device σ)
    {bytes : Bytes}
    (standing : ∀ index, index < bytes.length →
      device.memory.byteAt? (window.code.base.toNat + index) = bytes[index]?) :
    Launched loader device.board (Holds window bytes)
      (loader.runInPlace window device bytes.length) := by
  refine runInPlace_launched_of fun found image bss memory read parsed _ filled => ?_
  obtain rfl := DeviceMemory.eq_of_read read rfl standing
  rw [← bytes_of_parse parsed] at standing ⊢
  exact holds_of_fill standing filled

end Launches

end Loader

end Overlay
