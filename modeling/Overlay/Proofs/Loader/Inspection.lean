import Overlay.Proofs.Loader.Completeness
import Overlay.Proofs.Loader.Entry

/-!
# Overlays that are only looked at

A board that looks at an overlay reads the word at its entry and returns zero (`Board.Inspects`).
A loader that has found an image in order knows that its entry is on one of its bytes, but a word
is four bytes long, and the other three need not belong to the image.  They need not even lie in
memory: when the entry is among the last three addresses, the look comes to a fault.

This is the only way for the load of an image in order to come to one.  What it comes to is told
by the image and the end of memory alone (`Looked`, `looked_of_run`), in the same way for an image
that is copied and for one that stands in the code region already, which is loaded as if it were
copied onto itself (`run_eq_loadAndRun`).
-/

set_option autoImplicit false

namespace Overlay

/-- A board that only looks at the first word of an overlay and returns zero, whatever else it has
around it. -/
def Board.Inspects {σ : Type} (board : Board σ) : Prop :=
  ∀ context device,
    (board.execute context device).1 = (device.memory.readWord context.entry).map fun _ => 0

theorem Board.inspecting_inspects : Board.inspecting.Inspects := by
  intro context device
  simp only [inspecting]
  cases device.memory.readWord context.entry with
  | error fault => rfl
  | ok word => rfl

/-- The range to clear reaches the magic of an image with a header. -/
structure Image.ClearsMagic (image : Image) : Prop where
  headed : image.header.isSome = true
  early : image.bss.start.toNat < 4
  nonempty : image.bss.start.toNat < image.bss.limit.toNat

namespace Loader

variable {σ : Type} {loader : Loader σ} {window : Window} {device : Device σ} {image : Image}

/-! ## Images that stand in the code region already -/

/-- An image that stands in the code region is run as if it were copied onto itself. -/
theorem runInPlace_eq_loadAndRun {length : Nat}
    (found : device.memory.read window.code.base length = .ok image.bytes)
    (parses : Image.parse image.bytes = .ok image) :
    loader.runInPlace window device length = loader.loadAndRun window device image := by
  have same := DeviceMemory.length_of_read found
  rw [runInPlace, loadAndRun]
  by_cases large : window.code.size.toNat < length
  · have refused : loader.check window image = .error (.oversized length window.code.size) := by
      rw [check, same, if_pos large]
      rfl
    rw [refused]
    exact if_pos large
  · have room : ¬window.capacity.toNat < length := large
    rw [if_neg room, found]
    dsimp only
    rw [parses]
    dsimp only
    cases loader.check window image with
    | error exit => rfl
    | ok bss =>
        obtain ⟨stood, written⟩ := DeviceMemory.exists_write_of_read found (Nat.le_of_eq same)
        -- the copy puts every byte where it stands already
        have kept : stood = device.memory := DeviceMemory.eq_of_write written
          fun index inside => DeviceMemory.byteAt?_of_read found (same ▸ inside)
        rw [written, kept]

theorem run_eq_loadAndRun {load : Load} (brings : load.Brings window device.memory image) :
    load.run loader window device = loader.loadAndRun window device image := by
  cases brings with
  | given => rfl
  | parsed parses => rw [Load.run, loadBytes, parses]
  | inPlace found parses =>
      obtain rfl := bytes_of_parse parses
      exact runInPlace_eq_loadAndRun found parses

/-! ## The magic after the range has been cleared -/

section Magic

variable {code : Region} {before after : DeviceMemory}

/-- A cleared byte is none of the magic. -/
theorem magic_ne_zero {index : Nat} (inside : index < 4) : ImageHeader.magic[index]? ≠ some 0 := by
  match index, inside with
  | 0, _ | 1, _ | 2, _ | 3, _ => decide

/-- **The magic of an image in order is lost exactly when the range to clear reaches it.** -/
theorem magicStands_iff (made : image.Made) (headed : image.header.isSome = true)
    (runnable : Runnable loader.requireHeader code image)
    (loaded : Loaded code image before after) :
    MagicStands code after ↔ ¬image.ClearsMagic := by
  constructor
  · intro stands clears
    have early := clears.early
    have nonempty := clears.nonempty
    refine magic_ne_zero early ?_
    rw [← stands _ early, loaded.bytes, if_pos (by omega)]
  · intro spared
    have ordered := runnable.ordered
    have eligible := runnable.eligible fun _ => by
      by_contra reached
      obtain ⟨nonempty, early⟩ := not_or.mp reached
      rw [UInt32.ext_iff] at nonempty
      exact spared ⟨headed, by omega, by omega⟩
    exact eligible.magicStands made headed loaded

end Magic

/-! ## What a look comes to -/

/-- **What a load comes to that ends with a look**, with memory up to a limit: the magic has been
cleared away; or the four bytes at the entry are in memory, and zero is returned; or they are not,
and that is the fault. -/
inductive Looked (window : Window) (limit : Nat) (image : Image) : Except Fault Exit → Prop where
  | magicLost (clears : image.ClearsMagic) : Looked window limit image (.ok (.rejected .magicLost))
  | returned (spared : ¬image.ClearsMagic)
      (room : window.code.base.toNat + image.entry.toNat + 4 ≤ limit) :
      Looked window limit image (.ok (.returned 0))
  | fault (spared : ¬image.ClearsMagic)
      (short : limit < window.code.base.toNat + image.entry.toNat + 4) :
      Looked window limit image (.error (.outOfBounds (window.code.base + image.entry) 4))

theorem readWord_of_loaded {before memory : DeviceMemory} {context : Context}
    (inside : window.code.Inside before) (loaded : Loaded window.code image before memory)
    (starts : Starts window image context) :
    (∃ word, memory.readWord context.entry = .ok word ∧
        window.code.base.toNat + image.entry.toNat + 4 ≤
          before.base.toNat + before.bytes.size) ∨
      memory.readWord context.entry = .error (.outOfBounds context.entry 4) ∧
        before.base.toNat + before.bytes.size <
          window.code.base.toNat + image.entry.toNat + 4 := by
  have above := inside.above
  rw [← loaded.base, ← loaded.size, ← starts.entry]
  rw [← loaded.base] at above
  by_cases room : context.entry.toNat + 4 ≤ memory.base.toNat + memory.bytes.size
  · have above' : memory.base.toNat ≤ context.entry.toNat := by
      rw [starts.entry]
      omega
    obtain ⟨word, found⟩ := DeviceMemory.exists_readWord above' room
    exact .inl ⟨word, found, room⟩
  · exact .inr ⟨DeviceMemory.readWord_eq_error fun reached => room reached.2, by omega⟩

theorem looked_of_ending {calls : List Call} {ended : Except Fault Exit × Device (σ × List Call)}
    (ending : Ending loader window device calls image ended) (inspects : loader.board.Inspects)
    (made : image.Made) (runnable : Runnable loader.requireHeader window.code image)
    (inside : window.code.Inside device.memory) :
    Looked window (device.memory.base.toNat + device.memory.bytes.size) image ended.1 := by
  cases ending with
  | refused refusal => exact absurd runnable refusal.not_runnable
  | spoiled _ loaded headed lost =>
      refine .magicLost (by_contra fun spared => lost ?_)
      exact (magicStands_iff made headed runnable loaded).mpr spared
  | @run context memory result after _ loaded kept starts executed =>
      have spared : ¬image.ClearsMagic := fun clears =>
        (magicStands_iff made clears.headed runnable loaded).mp (kept clears.headed) clears
      have looks := inspects context ⟨memory, device.board⟩
      rw [executed] at looks
      dsimp only at looks ⊢
      rcases readWord_of_loaded inside loaded starts with ⟨word, found, room⟩ | ⟨fails, short⟩
      · rw [looks, found]
        exact .returned spared room
      · have address : context.entry = window.code.base + image.entry := by
          rw [← UInt32.toNat_inj, UInt32.toNat_add, ← starts.entry,
            Nat.mod_eq_of_lt context.entry.toNat_lt]
        rw [looks, fails, address]
        exact .fault spared short

/-- A look at a word that is in memory comes to no fault. -/
theorem Looked.not_fault {limit : Nat} {result : Except Fault Exit}
    (looked : Looked window limit image result)
    (room : window.code.base.toNat + image.entry.toNat + 4 ≤ limit) (fault : Fault) :
    result ≠ .error fault := by
  cases looked with
  | magicLost _ | returned _ _ => nofun
  | fault _ short => omega

/-! ## Loads into planned layouts -/

section Planned

variable {memory : AddressSpace} {safetyGap : UInt32} {requests : List RegionRequest}
variable {layout : Layout}

/-- **A board that only looks returns zero from every image in order whose first word lies in
memory.**  Whichever way the image is run, what it comes to is told by the image and the end of
memory; and it is no fault when the image has a whole word at its entry, or memory has three bytes
or more behind the code region. -/
theorem looked_of_run (planned : Layout.plan memory safetyGap requests = .ok layout)
    (windowed : layout.window = .ok window) (spans : device.memory.Spans layout.memory)
    (inspects : loader.board.Inspects) {load : Load}
    (brings : load.Brings window device.memory image) (made : image.Made) {bss : Span}
    (passes : loader.check window image = .ok bss) :
    let result := (load.run loader window device).1
    Looked window layout.memory.limit image result ∧
      (image.entry.toNat + 4 ≤ image.bytes.length ∨
          window.code.limit + 3 ≤ layout.memory.limit →
        ∀ fault, result ≠ .error fault) := by
  intro result
  have inside := Layout.code_inside_of_plan planned windowed spans
  obtain ⟨runnable, -, -⟩ := runnable_of_check inside.space passes
  have looked : Looked window layout.memory.limit image result := by
    have ending := loadAndRun_ending_of_inside loader device [] image inside
    obtain ⟨_, mirrored⟩ := mirrors_loadAndRun loader [] window device image
    have looked := looked_of_ending ending inspects made runnable inside
    rw [mirrored, ← run_eq_loadAndRun brings, spans.base, spans.size] at looked
    exact looked
  refine ⟨looked, fun whole => looked.not_fault ?_⟩
  have fits := runnable.fits
  have starts := runnable.starts
  have below := inside.below
  rw [spans.base, spans.size, ← AddressSpace.limit] at below
  rw [Region.limit] at below whole
  omega

end Planned

/-- A layout whose code region is the last four bytes of memory. -/
def tightLayout : Layout :=
  ⟨⟨0, 20⟩, 0, [⟨"stack", .stack, 0, 16⟩, ⟨"code", .code, 16, 4⟩]⟩

theorem tightLayout_planned :
    Layout.plan ⟨0, 20⟩ 0 [⟨"stack", .stack, 16, none⟩, ⟨"code", .code, 4, none⟩] =
      .ok tightLayout := rfl

/-- The window of the tight layout. -/
def tightWindow : Window := ⟨⟨"code", .code, 16, 4⟩, ⟨"stack", .stack, 0, 16⟩, none, 16⟩

/-- A device of the tight layout. -/
def tightDevice : Device Unit := ⟨.zeroed tightLayout.memory, ()⟩

/-- Two instructions of two bytes each. -/
def twoInstructions (entry : UInt32) : Image :=
  .withLayout [0x01, 0x00, 0x82, 0x80] entry .empty

/-- Entered on the first of them, they are looked at and return zero. -/
theorem looked_of_first :
    tightLayout.window = .ok tightWindow ∧ tightDevice.memory.Spans tightLayout.memory ∧
      (twoInstructions 0).Made ∧
        Loader.check ⟨Board.inspecting, false⟩ tightWindow (twoInstructions 0) = .ok ⟨16, 16⟩ ∧
          Looked tightWindow tightLayout.memory.limit (twoInstructions 0)
              (Load.run ⟨Board.inspecting, false⟩ tightWindow tightDevice
                (.given (twoInstructions 0))).1 ∧
            (Load.run ⟨Board.inspecting, false⟩ tightWindow tightDevice
              (.given (twoInstructions 0))).1 = .ok (.returned 0) := by
  have made : (twoInstructions 0).Made := .withLayout _ _ _
  have windowed : tightLayout.window = .ok tightWindow := rfl
  have spans : tightDevice.memory.Spans tightLayout.memory := DeviceMemory.spans_zeroed _
  exact ⟨windowed, spans, made, rfl, (looked_of_run tightLayout_planned windowed spans
    Board.inspecting_inspects (.given (twoInstructions 0)) made rfl).1, rfl⟩

/-- Entered on the second, which ends with memory, they are in order too, but looking at them
comes to a fault. -/
theorem fault_of_second :
    Layout.plan ⟨0, 20⟩ 0 [⟨"stack", .stack, 16, none⟩, ⟨"code", .code, 4, none⟩] =
        .ok tightLayout ∧
      tightLayout.window = .ok tightWindow ∧ tightDevice.memory.Spans tightLayout.memory ∧
        (twoInstructions 2).Made ∧
          Loader.check ⟨Board.inspecting, false⟩ tightWindow (twoInstructions 2) =
              .ok ⟨16, 16⟩ ∧
            (Load.run ⟨Board.inspecting, false⟩ tightWindow tightDevice
              (.given (twoInstructions 2))).1 = .error (.outOfBounds 18 4) :=
  ⟨rfl, rfl, DeviceMemory.spans_zeroed _, .withLayout _ _ _, rfl, rfl⟩

end Loader

end Overlay
