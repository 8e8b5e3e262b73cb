import Overlay.Proofs.Image.Header
import Overlay.Proofs.Loader.Ending

/-!
# Which images are run

An image is eligible for a code region when it fits, has a header if one is needed, starts on
one of its own bytes behind its header, and asks for a range to clear that lies in the region
and spares the magic (`Eligible`).  All of this is told of offsets into the region and says
nothing about where the region lies.

Every eligible image is run, with one exception: the end of the range to clear must be an
address of thirty-two bits, so in a code region that ends with the address space no range may
reach the end of the region (`ran_iff_of_eligible`).  An image that asks for such a range is
refused, although the range is inside (`not_ran_at_top`).
-/

set_option autoImplicit false

namespace Overlay

/-! ## Images that can be made -/

/-- An image that has been read from bytes, or made from bytes without a header. -/
inductive Image.Made : Image → Prop where
  | raw (bytes : Bytes) : Made (.raw bytes)
  | withLayout (bytes : Bytes) (entry : UInt32) (bss : Span) : Made (.withLayout bytes entry bss)
  | parsed {bytes : Bytes} {image : Image} (parses : Image.parse bytes = .ok image) : Made image

theorem ImageHeader.take_of_decode {data : Bytes} {header : ImageHeader}
    (found : decode data = .ok (some header)) : data.take 4 = magic := by
  obtain ⟨_, front, _⟩ := decode_eq_header_iff.mp found
  calc data.take 4
    _ = (data.take length).take 4 := by
        rw [List.take_take]
        rfl
    _ = magic := by
        rw [front]
        rfl

theorem Image.Made.take_magic {image : Image} (made : image.Made)
    (headed : image.header.isSome = true) : image.bytes.take 4 = ImageHeader.magic := by
  cases made with
  | raw _ | withLayout _ _ _ => cases headed
  | @parsed bytes _ parses =>
      rw [Loader.bytes_of_parse parses]
      rw [Image.parse] at parses
      cases decoded : ImageHeader.decode bytes with
      | error reason =>
          rw [decoded] at parses
          cases parses
      | ok header? =>
          cases header? with
          | none =>
              rw [decoded] at parses
              cases parses
              cases headed
          | some header => exact ImageHeader.take_of_decode decoded

namespace Loader

variable {σ : Type}

/-! ## Eligible images -/

/-- An image that may be run in a code region, wherever the region lies. -/
structure Eligible (requireHeader : Bool) (code : Region) (image : Image) : Prop where
  /-- It is no longer than the region. -/
  fits : image.bytes.length ≤ code.size.toNat
  /-- It has a header if it needs one. -/
  headed : requireHeader = true → image.header.isSome = true
  /-- It starts on one of its bytes. -/
  starts : image.entry.toNat < image.bytes.length
  /-- It starts behind its header. -/
  skips : image.header.isSome = true → ImageHeader.length ≤ image.entry.toNat
  /-- The range to clear does not end before it begins. -/
  ordered : image.bss.start.toNat ≤ image.bss.limit.toNat
  /-- The range to clear ends in the region. -/
  clears : image.bss.limit.toNat ≤ code.size.toNat
  /-- The range to clear spares the magic. -/
  spares : image.header.isSome = true →
    image.bss.start = image.bss.limit ∨ 4 ≤ image.bss.start.toNat

section Eligibility

variable {requireHeader : Bool} {code : Region} {image : Image} {before after : DeviceMemory}

/-- A runnable image is eligible when its range to clear spares the magic. -/
theorem Runnable.eligible (runnable : Runnable requireHeader code image)
    (spares : image.header.isSome = true →
      image.bss.start = image.bss.limit ∨ 4 ≤ image.bss.start.toNat) :
    Eligible requireHeader code image where
  fits := runnable.fits
  headed := runnable.headed
  starts := runnable.starts
  skips := runnable.skips
  ordered := runnable.ordered
  clears := runnable.clears
  spares := spares

/-- An eligible image is refused only for a range to clear that ends with the address space. -/
theorem Eligible.of_refusal (eligible : Eligible requireHeader code image) {exit : Exit}
    (refusal : Refusal requireHeader code image exit) :
    4294967296 ≤ code.base.toNat + image.bss.limit.toNat ∧
      exit = .rejected
        (.bssOutsideCode (code.base + image.bss.start) (code.base + image.bss.limit)) := by
  have starts := eligible.starts
  have fits := eligible.fits
  cases refusal with
  | oversized large => omega
  | headless _ needed missing =>
      rw [eligible.headed needed] at missing
      cases missing
  | entryOutsideCode _ _ outside => omega
  | entryOutsideImage _ _ _ misses =>
      obtain behind | ⟨headed, early⟩ := misses
      · omega
      · have := eligible.skips headed
        omega
  | bssOutsideCode _ _ _ _ outside =>
      have ordered := eligible.ordered
      have clears := eligible.clears
      exact ⟨by omega, rfl⟩

/-- The magic of an eligible image still stands once its range has been cleared. -/
theorem Eligible.magicStands (eligible : Eligible requireHeader code image) (made : image.Made)
    (headed : image.header.isSome = true) (loaded : Loaded code image before after) :
    MagicStands code after := by
  intro index inside
  have starts := eligible.starts
  have skips := eligible.skips headed
  rw [ImageHeader.length] at skips
  have spared : ¬(code.base.toNat + image.bss.start.toNat ≤ code.base.toNat + index ∧
      code.base.toNat + index < code.base.toNat + image.bss.limit.toNat) := by
    rcases eligible.spares headed with empty | late
    · rw [empty]
      omega
    · omega
  rw [loaded.bytes, if_neg spared, if_pos (by omega), Nat.add_sub_cancel_left,
    ← made.take_magic headed, List.getElem?_take_of_lt inside]

end Eligibility

/-! ## Loads into planned layouts -/

section Planned

variable {memory : AddressSpace} {safetyGap : UInt32} {requests : List RegionRequest}
variable {layout : Layout} {window : Window} {device : Device σ} {image : Image}

/-- **An eligible image is run, unless its range to clear ends with the address space.**  In
that case it is refused, as if the range were outside the code region, and nothing changes. -/
theorem ran_iff_of_eligible (planned : Layout.plan memory safetyGap requests = .ok layout)
    (windowed : layout.window = .ok window) (spans : device.memory.Spans layout.memory)
    (loader : Loader σ) (calls : List Call) (made : image.Made)
    (eligible : Eligible loader.requireHeader window.code image) :
    let ended := loader.recording.loadAndRun window (device.recording calls) image
    let last := window.code.base.toNat + image.bss.limit.toNat
    ((∃ call, ended.2.board.2 = calls ++ [call]) ↔ last ≠ 4294967296) ∧
      (last = 4294967296 →
        ended = (.ok (.rejected (.bssOutsideCode (window.code.base + image.bss.start)
          (window.code.base + image.bss.limit))), device.recording calls)) := by
  intro ended last
  have inside := Layout.code_inside_of_plan planned windowed spans
  have ending : Ending loader window device calls image ended :=
    loadAndRun_ending_of_inside loader device calls image inside
  generalize ended = final at ending ⊢
  cases ending with
  | refused refusal =>
      obtain ⟨beyond, rfl⟩ := eligible.of_refusal refusal
      have clears := eligible.clears
      have space := inside.space
      rw [Region.limit] at space
      -- The range ends in the region, and the region within the address space.
      have same : last = 4294967296 := Nat.le_antisymm (by omega) beyond
      refine ⟨⟨fun ran => ?_, fun other => absurd same other⟩, fun _ => rfl⟩
      obtain ⟨call, grown⟩ := ran
      exact absurd (congrArg List.length grown) (by simp [Device.recording])
  | spoiled _ loaded headed lost => exact absurd (eligible.magicStands made headed loaded) lost
  | run runnable _ _ _ _ =>
      have small : last < 4294967296 := runnable.addressed
      exact ⟨⟨fun _ => Nat.ne_of_lt small, fun _ => ⟨_, rfl⟩⟩, fun same => absurd same
        (Nat.ne_of_lt small)⟩

end Planned

/-- Four bytes that start with the first and clear the rest of a region of so many bytes. -/
def clearing (limit : UInt32) : Image := .withLayout [0x13, 0x05, 0x10, 0x00] 0 ⟨4, limit⟩

/-- A range that leaves one byte before the end of the address space is cleared. -/
theorem ran_of_clearing :
    (clearing 31).Made ∧ Eligible false topWindow.code (clearing 31) ∧
      ∃ call, ((Loader.recording ⟨Board.inspecting, false⟩).loadAndRun topWindow
        (topDevice.recording []) (clearing 31)).2.board.2 = [call] := by
  have made : (clearing 31).Made := .withLayout _ _ _
  have eligible : Eligible false topWindow.code (clearing 31) :=
    ⟨by decide, nofun, by decide, nofun, by decide, by decide, nofun⟩
  have windowed : topLayout.window = .ok topWindow := rfl
  have spans : topDevice.memory.Spans topLayout.memory := DeviceMemory.spans_zeroed _
  obtain ⟨call, ran⟩ := (ran_iff_of_eligible topLayout_planned windowed spans
    ⟨Board.inspecting, false⟩ [] made eligible).1.mpr (by decide)
  exact ⟨made, eligible, call, ran⟩

/-- A range that reaches the end of the address space is refused, although it lies in the code
region of a planned layout. -/
theorem not_ran_at_top :
    Layout.plan ⟨0xFFFFFFC0, 64⟩ 0 [⟨"stack", .stack, 32, none⟩, ⟨"code", .code, 32, none⟩] =
        .ok topLayout ∧
      topLayout.window = .ok topWindow ∧ topDevice.memory.Spans topLayout.memory ∧
        (clearing 32).Made ∧ Eligible false topWindow.code (clearing 32) ∧
          (Loader.recording ⟨Board.inspecting, false⟩).loadAndRun topWindow
              (topDevice.recording []) (clearing 32) =
            (.ok (.rejected (.bssOutsideCode 0xFFFFFFE4 0)), topDevice.recording []) :=
  ⟨rfl, rfl, DeviceMemory.spans_zeroed _, .withLayout _ _ _,
    ⟨by decide, nofun, by decide, nofun, by decide, by decide, nofun⟩, rfl⟩

end Loader

end Overlay
