import Overlay.Proofs.Loader.Ending

/-!
# What stands at the entry of an overlay

There are three ways to run an image: given as such, read from bytes, or standing in the code
region already (`Load`).  By each of them an overlay is entered on the byte of its image that
its entry names, unless its range to clear covers that byte, which is zero then
(`entered_of_run`).  The copy never touches the entry in another way, and no address wraps.

Nothing keeps the range to clear away from the entry: an overlay may be entered on a byte that
has been cleared (`entered_on_zero`).
-/

set_option autoImplicit false

namespace Overlay.Loader

variable {σ : Type}

/-! ## Ways to run an image -/

/-- A way to run an image. -/
inductive Load where
  /-- The image is given, and is copied to the code region. -/
  | given (image : Image)
  /-- The image is read from bytes, and is copied to the code region. -/
  | parsed (bytes : Bytes)
  /-- The image already stands in the code region. -/
  | inPlace (length : Nat)

/-- Run an image. -/
def Load.run (loader : Loader σ) (window : Window) (device : Device σ) :
    Load → Except Fault Exit × Device σ
  | .given image => loader.loadAndRun window device image
  | .parsed bytes => loader.loadBytes window device bytes
  | .inPlace length => loader.runInPlace window device length

/-- The image that a way to run one is about, with memory as it is before. -/
inductive Load.Brings (window : Window) (memory : DeviceMemory) : Load → Image → Prop where
  | given (image : Image) : Brings window memory (.given image) image
  | parsed {bytes : Bytes} {image : Image} (parses : Image.parse bytes = .ok image) :
      Brings window memory (.parsed bytes) image
  | inPlace {length : Nat} {bytes : Bytes} {image : Image}
      (found : memory.read window.code.base length = .ok bytes)
      (parses : Image.parse bytes = .ok image) :
      Brings window memory (.inPlace length) image

/-! ## The byte at the entry -/

/-- An image is entered on one of its bytes, or on a byte that has been cleared. -/
structure Entered (window : Window) (image : Image) (call : Call) : Prop where
  address : call.context.entry.toNat = window.code.base.toNat + image.entry.toNat
  inside : image.entry.toNat < image.bytes.length
  byte : call.memory.byteAt? call.context.entry.toNat =
    if image.bss.start.toNat ≤ image.entry.toNat ∧ image.entry.toNat < image.bss.limit.toNat then
      some 0
    else image.bytes[image.entry.toNat]?

section Entries

variable {loader : Loader σ} {window : Window} {device : Device σ} {image : Image} {bss : Span}
variable {stood memory : DeviceMemory}

theorem entered_of_fill (space : window.code.limit ≤ 4294967296)
    (passes : loader.check window image = .ok bss)
    (loaded : ∀ index, index < image.bytes.length →
      stood.byteAt? (window.code.base.toNat + index) = image.bytes[index]?)
    (filled : stood.fill bss.start bss.length 0 = .ok memory) :
    Entered window image ⟨context window image bss, memory⟩ := by
  obtain ⟨runnable, first, last⟩ := runnable_of_check space passes
  have starts := starts_of_runnable runnable space first last
  have byte := holds_of_fill loaded filled image.entry.toNat runnable.starts
  simp only [starts.bssStart, starts.bssLimit, Nat.add_le_add_iff_left,
    Nat.add_lt_add_iff_left] at byte
  refine ⟨starts.entry, runnable.starts, ?_⟩
  rw [starts.entry]
  exact byte

theorem loadAndRun_entered (space : window.code.limit ≤ 4294967296)
    {ready : Context → DeviceMemory → Prop}
    (holds : ∀ context memory, Entered window image ⟨context, memory⟩ → ready context memory) :
    Launched loader device.board ready (loader.loadAndRun window device image) :=
  loadAndRun_launched_of fun _ _ _ passes written filled =>
    holds _ _ (entered_of_fill space passes (standing_of_write written) filled)

/-- **An image that is run in any way is entered on its entry.** -/
theorem run_entered (loader : Loader σ) (device : Device σ)
    (space : window.code.limit ≤ 4294967296) (load : Load) :
    Launched loader device.board
      (fun context memory => ∃ image, load.Brings window device.memory image ∧
        Entered window image ⟨context, memory⟩)
      (load.run loader window device) := by
  cases load with
  | given image =>
      exact loadAndRun_entered space fun _ _ entered => ⟨image, .given image, entered⟩
  | parsed bytes =>
      refine loadBytes_launched_of fun image parses => ?_
      exact loadAndRun_entered space fun _ _ entered => ⟨image, .parsed parses, entered⟩
  | inPlace length =>
      refine runInPlace_launched_of fun bytes image bss memory found parses passes filled => ?_
      refine ⟨image, .inPlace found parses, entered_of_fill space passes ?_ filled⟩
      intro index inside
      rw [bytes_of_parse parses, DeviceMemory.length_of_read found] at inside
      rw [bytes_of_parse parses]
      exact DeviceMemory.byteAt?_of_read found inside

/-- What is put on record is a run that is as it should be. -/
theorem Launched.recorded {board : σ} {calls : List Call}
    {ready : Context → DeviceMemory → Prop} {ended : Except Fault Exit × Device (σ × List Call)}
    (launched : Launched loader.recording (board, calls) ready ended) :
    ∃ more, ended.2.board.2 = calls ++ more ∧ ∀ call ∈ more, ready call.context call.memory := by
  cases launched with
  | not same _ =>
      exact ⟨[], by rw [same, List.append_nil], fun _ among => absurd among List.not_mem_nil⟩
  | once holds =>
      exact ⟨[_], rfl, List.forall_mem_singleton.mpr holds⟩

end Entries

/-! ## Loads into planned layouts -/

section Planned

variable {memory : AddressSpace} {safetyGap : UInt32} {requests : List RegionRequest}
variable {layout : Layout} {window : Window}

/-- **An overlay is entered on the byte of its image that its entry names, unless that byte has
been cleared for it.**  Whichever way it is run, the address of the entry is that of the code
region and the entry together, and the byte there is the byte of the image if the entry is
outside the range to clear, and zero if it is inside. -/
theorem entered_of_run (planned : Layout.plan memory safetyGap requests = .ok layout)
    (windowed : layout.window = .ok window) (loader : Loader σ) (device : Device σ)
    (calls : List Call) (load : Load) :
    ∃ more, (load.run loader.recording window (device.recording calls)).2.board.2 = calls ++ more ∧
      ∀ call ∈ more, ∃ image, load.Brings window device.memory image ∧
        Entered window image call := by
  have space : window.code.limit ≤ 4294967296 :=
    (Layout.code_inside_of_plan planned windowed (DeviceMemory.spans_zeroed _)).space
  exact (run_entered loader.recording (device.recording calls) space load).recorded

end Planned

/-- Four bytes that start with the first and clear so many of them. -/
def wiping (limit : UInt32) : Image := .withLayout [0x13, 0x05, 0x10, 0x00] 0 ⟨0, limit⟩

/-- Four bytes of which none is cleared are entered on the first of them. -/
theorem entered_of_untouched :
    let run := Load.run (Loader.recording ⟨Board.inspecting, false⟩) topWindow
      (topDevice.recording []) (.given (wiping 0))
    topLayout.window = .ok topWindow ∧ run.2.board.2.length = 1 ∧
      ∃ more, run.2.board.2 = [] ++ more ∧ ∀ call ∈ more, ∃ image,
        (Load.given (wiping 0)).Brings topWindow topDevice.memory image ∧
          Entered topWindow image call := by
  have windowed : topLayout.window = .ok topWindow := rfl
  exact ⟨windowed, rfl, entered_of_run topLayout_planned windowed ⟨Board.inspecting, false⟩
    topDevice [] (.given (wiping 0))⟩

/-- Four bytes that are all cleared are entered on zero, although none of them is. -/
theorem entered_on_zero :
    Layout.plan ⟨0xFFFFFFC0, 64⟩ 0 [⟨"stack", .stack, 32, none⟩, ⟨"code", .code, 32, none⟩] =
        .ok topLayout ∧
      topLayout.window = .ok topWindow ∧ topDevice.memory.Spans topLayout.memory ∧
        ∃ call, (Load.run (Loader.recording ⟨Board.inspecting, false⟩) topWindow
            (topDevice.recording []) (.given (wiping 4))).2.board.2 = [call] ∧
          call.memory.byteAt? call.context.entry.toNat = some 0 ∧
            (wiping 4).bytes[(wiping 4).entry.toNat]? = some 0x13 :=
  ⟨rfl, rfl, DeviceMemory.spans_zeroed _, _, rfl, rfl, rfl⟩

end Overlay.Loader
