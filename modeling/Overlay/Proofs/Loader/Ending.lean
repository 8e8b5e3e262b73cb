import Overlay.Proofs.Loader.Conditions
import Overlay.Proofs.Loader.Launch

/-!
# How a load ends

A load into the window of a planned layout ends in one of three ways (`Ending`): the image
is refused and nothing has changed; the image and its cleared range stand in memory but
the range has cleared the magic away, and nothing is run; or control has been handed over
once, with the image standing in memory, and the shared devices have been brought to rest
once after that, whatever the run came to.  No load ends in a fault before it has handed
over control (`loadAndRun_ending`).
-/

set_option autoImplicit false

namespace Overlay.Loader

variable {σ : Type}

/-! ## Memory and context of a run -/

/-- Memory in which an image has been put into a code region and its range has been
cleared, with every other byte as before. -/
structure Loaded (code : Region) (image : Image) (before after : DeviceMemory) : Prop where
  base : after.base = before.base
  size : after.bytes.size = before.bytes.size
  bytes : ∀ place, after.byteAt? place =
    if code.base.toNat + image.bss.start.toNat ≤ place ∧
        place < code.base.toNat + image.bss.limit.toNat then some 0
    else if code.base.toNat ≤ place ∧ place < code.base.toNat + image.bytes.length then
      image.bytes[place - code.base.toNat]?
    else before.byteAt? place

/-- The magic stands at the front of a code region. -/
def MagicStands (code : Region) (memory : DeviceMemory) : Prop :=
  ∀ index, index < 4 →
    memory.byteAt? (code.base.toNat + index) = ImageHeader.magic[index]?

/-- What an image is started with, in addresses that have not wrapped. -/
structure Starts (window : Window) (image : Image) (context : Context) : Prop where
  entry : context.entry.toNat = window.code.base.toNat + image.entry.toNat
  stackPointer : context.stackPointer = window.stackTop
  bssStart : context.bss.start.toNat = window.code.base.toNat + image.bss.start.toNat
  bssLimit : context.bss.limit.toNat = window.code.base.toNat + image.bss.limit.toNat
  heap : context.heap = window.heap.map heapSpan

/-! ## The three ways to end -/

/-- **How a load ends**, with the runs that are on record. -/
inductive Ending (loader : Loader σ) (window : Window) (device : Device σ) (calls : List Call)
    (image : Image) : Except Fault Exit × Device (σ × List Call) → Prop where
  /-- The image is refused, and nothing has changed. -/
  | refused {exit : Exit} (refusal : Refusal loader.requireHeader window.code image exit) :
      Ending loader window device calls image (.ok exit, device.recording calls)
  /-- The range to clear has taken the magic with it, and nothing is run. -/
  | spoiled {memory : DeviceMemory}
      (runnable : Runnable loader.requireHeader window.code image)
      (loaded : Loaded window.code image device.memory memory)
      (headed : image.header.isSome = true) (lost : ¬ MagicStands window.code memory) :
      Ending loader window device calls image
        (.ok (.rejected .magicLost), ⟨memory, (device.board, calls)⟩)
  /-- The image has been run once, and the shared devices have been brought to rest once,
  whether the run has returned or failed. -/
  | run {context : Context} {memory : DeviceMemory} {result : Except Fault Int32}
      {after : Device σ} (runnable : Runnable loader.requireHeader window.code image)
      (loaded : Loaded window.code image device.memory memory)
      (kept : image.header.isSome = true → MagicStands window.code memory)
      (starts : Starts window image context)
      (executed : loader.board.execute context ⟨memory, device.board⟩ = (result, after)) :
      Ending loader window device calls image
        (result.map .returned,
          ⟨after.memory, (loader.board.neutralise after.board, calls ++ [⟨context, memory⟩])⟩)

section Endings

variable {loader : Loader σ} {window : Window} {board : σ} {image : Image} {bss : Span}
variable {before stood : DeviceMemory}

theorem starts_of_runnable (runnable : Runnable loader.requireHeader window.code image)
    (space : window.code.limit ≤ 4294967296)
    (first : bss.start.toNat = window.code.base.toNat + image.bss.start.toNat)
    (last : bss.limit.toNat = window.code.base.toNat + image.bss.limit.toNat) :
    Starts window image (context window image bss) := by
  have fits := runnable.fits
  have starts := runnable.starts
  rw [Region.limit] at space
  refine ⟨?_, rfl, first, last, rfl⟩
  rw [context, UInt32.toNat_add, Nat.mod_eq_of_lt (by omega)]

/-- Copying a runnable image and clearing its range goes through, and does just that. -/
theorem loaded_of_runnable (runnable : Runnable loader.requireHeader window.code image)
    (inside : window.code.Inside before)
    (first : bss.start.toNat = window.code.base.toNat + image.bss.start.toNat)
    (last : bss.limit.toNat = window.code.base.toNat + image.bss.limit.toNat)
    (written : before.write window.code.base image.bytes = .ok stood) :
    ∃ memory, stood.fill bss.start bss.length 0 = .ok memory ∧
      Loaded window.code image before memory := by
  have ordered := runnable.ordered
  have clears := runnable.clears
  have below := inside.below
  have above := inside.above
  rw [Region.limit] at below
  have span : bss.start.toNat + bss.length = bss.limit.toNat := by
    rw [Span.length]
    omega
  obtain ⟨base, size⟩ := DeviceMemory.bounds_of_write written
  have above' : stood.base.toNat ≤ bss.start.toNat := by
    rw [base]
    omega
  have room : bss.start.toNat + bss.length ≤ stood.base.toNat + stood.bytes.size := by
    rw [base, size]
    omega
  obtain ⟨memory, filled⟩ := DeviceMemory.exists_fill bss.length 0 above' room
  obtain ⟨base', size'⟩ := DeviceMemory.bounds_of_fill filled
  refine ⟨memory, filled, base'.trans base, size'.trans size, fun place => ?_⟩
  rw [DeviceMemory.byteAt?_of_fill filled, DeviceMemory.byteAt?_of_write written, span, first, last]

/-- The magic is looked for where the image stands, and found if it is there. -/
theorem magicKept_cases {memory : DeviceMemory}
    (runnable : Runnable loader.requireHeader window.code image)
    (inside : window.code.Inside memory) :
    (magicKept memory window image = .ok true ∧
        (image.header.isSome = true → MagicStands window.code memory)) ∨
      magicKept memory window image = .ok false ∧
        image.header.isSome = true ∧ ¬ MagicStands window.code memory := by
  rw [magicKept]
  cases header : image.header.isSome with
  | false =>
      rw [if_pos (by rw [← Option.not_isSome, header]; rfl)]
      exact .inl ⟨rfl, nofun⟩
  | true =>
      have fits := runnable.fits
      have starts := runnable.starts
      have skips := runnable.skips header
      have below := inside.below
      rw [ImageHeader.length] at skips
      rw [Region.limit] at below
      obtain ⟨found, read⟩ := DeviceMemory.exists_read 4 inside.above (by omega)
      have same : found = ImageHeader.magic ↔ MagicStands window.code memory := by
        constructor
        · rintro rfl index bounded
          exact DeviceMemory.byteAt?_of_read read bounded
        · exact DeviceMemory.eq_of_read read rfl
      rw [if_neg (by rw [← Option.not_isSome, header]; exact Bool.false_ne_true), read]
      by_cases stands : found = ImageHeader.magic
      · exact .inl ⟨congrArg Except.ok (decide_eq_true stands), fun _ => same.mp stands⟩
      · exact .inr ⟨congrArg Except.ok (decide_eq_false stands), rfl,
          fun magic => stands (same.mpr magic)⟩

theorem Loaded.inside {code : Region} {memory : DeviceMemory}
    (loaded : Loaded code image before memory) {region : Region}
    (inside : region.Inside before) : region.Inside memory :=
  ⟨loaded.base ▸ inside.above, loaded.base ▸ loaded.size ▸ inside.below, inside.space⟩

/-- A runnable image that stands in the code region is run, unless its magic is lost. -/
theorem launch_ending (calls : List Call)
    (runnable : Runnable loader.requireHeader window.code image)
    (inside : window.code.Inside before)
    (first : bss.start.toNat = window.code.base.toNat + image.bss.start.toNat)
    (last : bss.limit.toNat = window.code.base.toNat + image.bss.limit.toNat)
    (written : before.write window.code.base image.bytes = .ok stood) :
    Ending loader window ⟨before, board⟩ calls image
      (loader.recording.launch window ⟨stood, (board, calls)⟩ image bss) := by
  obtain ⟨memory, filled, loaded⟩ := loaded_of_runnable runnable inside first last written
  rw [launch, filled]
  dsimp only
  rcases magicKept_cases runnable (loaded.inside inside) with ⟨found, kept⟩ | ⟨found, headed, lost⟩
  · rw [found]
    exact .run runnable loaded kept (starts_of_runnable runnable inside.space first last) rfl
  · rw [found]
    exact .spoiled runnable loaded headed lost

/-- **How an image ends that is copied into a code region inside memory.** -/
theorem loadAndRun_ending_of_inside (loader : Loader σ) (device : Device σ) (calls : List Call)
    (image : Image) (inside : window.code.Inside device.memory) :
    Ending loader window device calls image
      (loader.recording.loadAndRun window (device.recording calls) image) := by
  rw [loadAndRun, check_recording, Device.recording]
  rcases check_cases image loader inside.space with
    ⟨bss, passes, runnable, first, last⟩ | ⟨exit, refuses, refusal⟩
  · have below := inside.below
    have fits := runnable.fits
    rw [Region.limit] at below
    obtain ⟨stood, written⟩ := DeviceMemory.exists_write image.bytes inside.above (by omega)
    rw [passes]
    dsimp only
    rw [written]
    exact launch_ending calls runnable inside first last written
  · rw [refuses]
    exact .refused refusal

end Endings

/-! ## Loads into planned layouts -/

section Planned

variable {memory : AddressSpace} {safetyGap : UInt32} {requests : List RegionRequest}
variable {layout : Layout} {window : Window} {device : Device σ}

/-- **A load into the window of a planned layout ends in one of three ways**, whatever the
image, the contents of memory and the board: it is refused with nothing changed, it has
lost its magic, or it has been run exactly once. -/
theorem loadAndRun_ending (planned : Layout.plan memory safetyGap requests = .ok layout)
    (windowed : layout.window = .ok window) (spans : device.memory.Spans layout.memory)
    (loader : Loader σ) (calls : List Call) (image : Image) :
    Ending loader window device calls image
      (loader.recording.loadAndRun window (device.recording calls) image) :=
  loadAndRun_ending_of_inside loader device calls image
    (Layout.code_inside_of_plan planned windowed spans)

end Planned

/-! ## A load at the top of the address space -/

/-- A layout whose code region ends with the last address there is. -/
def topLayout : Layout :=
  ⟨⟨0xFFFFFFC0, 64⟩, 0,
    [⟨"stack", .stack, 0xFFFFFFC0, 32⟩, ⟨"code", .code, 0xFFFFFFE0, 32⟩]⟩

theorem topLayout_planned :
    Layout.plan ⟨0xFFFFFFC0, 64⟩ 0 [⟨"stack", .stack, 32, none⟩, ⟨"code", .code, 32, none⟩] =
      .ok topLayout := rfl

/-- The window of the layout at the top. -/
def topWindow : Window :=
  ⟨⟨"code", .code, 0xFFFFFFE0, 32⟩, ⟨"stack", .stack, 0xFFFFFFC0, 32⟩, none, 0xFFFFFFE0⟩

/-- A device of the layout at the top. -/
def topDevice : Device Unit := ⟨.zeroed topLayout.memory, ()⟩

/-- Four bytes that start with the first and clear twelve bytes behind them. -/
def topImage : Image := .withLayout [0x13, 0x05, 0x10, 0x00] 0 ⟨4, 16⟩

/-- They are run, and run once. -/
theorem loadAndRun_ending_at_top :
    topLayout.window = .ok topWindow ∧ topDevice.memory.Spans topLayout.memory ∧
      ((Loader.recording ⟨Board.inspecting, false⟩).loadAndRun topWindow
        (topDevice.recording []) topImage).2.board.2.length = 1 ∧
        Ending ⟨Board.inspecting, false⟩ topWindow topDevice [] topImage
          ((Loader.recording ⟨Board.inspecting, false⟩).loadAndRun topWindow
            (topDevice.recording []) topImage) :=
  ⟨rfl, DeviceMemory.spans_zeroed _, rfl,
    loadAndRun_ending topLayout_planned rfl (DeviceMemory.spans_zeroed _) _ [] topImage⟩

end Overlay.Loader
