import Overlay.Proofs.Image.Packing
import Overlay.Proofs.Loader.Completeness

/-!
# Packed images are run

A packed image has a header that is right and counts all its offsets from there, so its entry is
behind the header, its range to clear spares the header, and it meets whatever a loader asks of
headers.  In a code region that ends below the top of the address space it is runnable exactly
when it fits together with its header (`runnable_iff_of_packs`).

So a packed image that is read from its bytes and loaded is never rejected for its header, and
it is run exactly when it fits (`ran_iff_of_packed`).
-/

set_option autoImplicit false

namespace Overlay

/-- The rejections that are about the header of an image. -/
inductive Rejection.OfHeader : Rejection → Prop where
  | badMagic : OfHeader .badMagic
  | badHeaderChecksum (stored computed : UInt32) : OfHeader (.badHeaderChecksum stored computed)
  | invalidBss (start limit : UInt32) : OfHeader (.invalidBss start limit)
  | magicLost : OfHeader .magicLost

namespace Loader

variable {σ : Type}

/-! ## Packed images in a code region -/

/-- A packed image fits into a code region together with its header. -/
structure Fits (code : Region) (raw : Bytes) (entry : UInt32) (bss : Span) : Prop where
  length : raw.length + 20 ≤ code.size.toNat
  entry : entry.toNat < raw.length
  clears : bss.limit.toNat + 20 ≤ code.size.toNat

section Fitting

variable {requireHeader : Bool} {code : Region} {image : Image} {raw : Bytes} {entry : UInt32}
variable {bss : Span}

theorem runnable_iff_of_packs (movable : Image.Movable entry bss)
    (packs : image.Packs raw entry bss) (below : code.limit < 4294967296) :
    Runnable requireHeader code image ↔ Fits code raw entry bss := by
  have length := packs.length
  have entryIs := packs.entry
  have startIs := packs.start
  have limitIs := packs.limit
  have ordered := movable.ordered
  rw [Region.limit] at below
  constructor
  · intro runnable
    have fits := runnable.fits
    have starts := runnable.starts
    have clears := runnable.clears
    exact ⟨by omega, by omega, by omega⟩
  · intro fits
    have room := fits.length
    have starts := fits.entry
    have clears := fits.clears
    exact ⟨by omega, fun _ => packs.headed, by omega,
      fun _ => by rw [ImageHeader.length]; omega, by omega, by omega, by omega⟩

/-- A packed image that is runnable is eligible, as its range to clear spares the header. -/
theorem eligible_of_packs (packs : image.Packs raw entry bss)
    (runnable : Runnable requireHeader code image) : Eligible requireHeader code image :=
  runnable.eligible fun _ => .inr (by rw [packs.start]; omega)

/-- A refusal of a packed image is not about its header. -/
theorem not_ofHeader_of_refusal (packs : image.Packs raw entry bss) {reason : Rejection}
    (refusal : Refusal requireHeader code image (.rejected reason)) : ¬reason.OfHeader := by
  cases refusal with
  | headless _ _ missing =>
      rw [packs.headed] at missing
      cases missing
  | entryOutsideCode _ _ _ | entryOutsideImage _ _ _ _ | bssOutsideCode _ _ _ _ _ => nofun

end Fitting

/-! ## Loading packed images -/

/-- How the load of a packed image ends: with a run that starts behind the header, or with
nothing changed. -/
structure EndsPacked (window : Window) (device : Device σ) (calls : List Call) (raw : Bytes)
    (entry : UInt32) (bss : Span) (ended : Except Fault Exit × Device (σ × List Call)) : Prop where
  /-- The image is not rejected for its header. -/
  accepted : ∀ reason : Rejection, reason.OfHeader → ended.1 ≠ .ok (.rejected reason)
  /-- It is run when it fits, and then only. -/
  ran : (∃ call, ended.2.board.2 = calls ++ [call]) ↔ Fits window.code raw entry bss
  /-- Otherwise nothing changes. -/
  unchanged : ¬Fits window.code raw entry bss → ended.2 = device.recording calls
  /-- It is run where the offsets that were packed point to, behind the header. -/
  context : ∀ call, ended.2.board.2 = calls ++ [call] →
    call.context.entry.toNat = window.code.base.toNat + 20 + entry.toNat ∧
      call.context.bss.start.toNat = window.code.base.toNat + 20 + bss.start.toNat ∧
        call.context.bss.limit.toNat = window.code.base.toNat + 20 + bss.limit.toNat

section Loads

variable {loader : Loader σ} {window : Window} {device : Device σ} {calls : List Call}
variable {image : Image} {raw : Bytes} {entry : UInt32} {bss : Span}
variable {ended : Except Fault Exit × Device (σ × List Call)}

theorem endsPacked_of_ending (ending : Ending loader window device calls image ended)
    (made : image.Made) (movable : Image.Movable entry bss) (packs : image.Packs raw entry bss)
    (below : window.code.limit < 4294967296) :
    EndsPacked window device calls raw entry bss ended := by
  have fitting : Runnable loader.requireHeader window.code image ↔ Fits window.code raw entry bss :=
    runnable_iff_of_packs movable packs below
  cases ending with
  | refused refusal =>
      have misfit : ¬Fits window.code raw entry bss := fun fits =>
        refusal.not_runnable (fitting.mpr fits)
      refine ⟨fun reason header same => ?_, ⟨?_, fun fits => absurd fits misfit⟩, fun _ => rfl, ?_⟩
      · cases same
        exact not_ofHeader_of_refusal packs refusal header
      · rintro ⟨call, grown⟩
        exact absurd (congrArg List.length grown) (by simp [Device.recording])
      · intro call grown
        exact absurd (congrArg List.length grown) (by simp [Device.recording])
  | spoiled runnable loaded headed lost =>
      -- nothing that is written after the image reaches its header
      exact absurd ((eligible_of_packs packs runnable).magicStands made headed loaded) lost
  | @run context memory result after runnable _ _ starts _ =>
      refine ⟨fun reason _ same => ?_, ⟨fun _ => fitting.mp runnable, fun _ => ⟨_, rfl⟩⟩,
        fun misfit => absurd (fitting.mp runnable) misfit, fun call grown => ?_⟩
      · cases result <;> cases same
      · obtain rfl : ⟨context, memory⟩ = call :=
          List.singleton_inj.mp (List.append_cancel_left grown)
        have entryIs := packs.entry
        have startIs := packs.start
        have limitIs := packs.limit
        refine ⟨?_, ?_, ?_⟩
        · rw [starts.entry]
          omega
        · rw [starts.bssStart]
          omega
        · rw [starts.bssLimit]
          omega

end Loads

/-- **Packed images load as described.**  Packing succeeds exactly when the range to clear is in
order and no offset is moved out of thirty-two bits.  What it makes is read back with all offsets
moved behind the header, and with the raw bytes there.  Loaded into the window of a planned
layout whose code region ends below the top of the address space, it is never rejected for its
header, and it is run exactly when it fits, at its entry behind the header. -/
theorem ran_iff_of_packed (raw : Bytes) (entry : UInt32) (bss : Span) :
    ((∃ packed, Image.pack raw entry bss = .ok packed) ↔
      bss.start ≤ bss.limit ∧ entry.toNat ≤ 2 ^ 32 - 21 ∧ bss.limit.toNat ≤ 2 ^ 32 - 21) ∧
    ∀ packed, Image.pack raw entry bss = .ok packed →
      (∃ image, Image.parse packed = .ok image ∧ image.Packs raw entry bss) ∧
      ∀ {memory : AddressSpace} {safetyGap : UInt32} {requests : List RegionRequest}
        {layout : Layout} {window : Window} {device : Device σ},
        Layout.plan memory safetyGap requests = .ok layout → layout.window = .ok window →
          device.memory.Spans layout.memory → window.code.limit < 2 ^ 32 →
            ∀ (loader : Loader σ) (calls : List Call),
              EndsPacked window device calls raw entry bss
                (loader.recording.loadBytes window (device.recording calls) packed) := by
  refine ⟨Image.exists_pack_iff.trans ?_, fun packed made => ?_⟩
  · rw [UInt32.le_iff_toNat_le]
    exact ⟨fun movable => ⟨movable.ordered, movable.entry, movable.limit⟩,
      fun ⟨ordered, entry, limit⟩ => ⟨ordered, entry, limit⟩⟩
  obtain ⟨movable, image, parses, packs⟩ := Image.exists_parse_of_pack made
  refine ⟨⟨image, parses, packs⟩, fun planned windowed spans below loader calls => ?_⟩
  have inside := Layout.code_inside_of_plan planned windowed spans
  rw [loadBytes, parses]
  exact endsPacked_of_ending (loadAndRun_ending_of_inside loader _ calls image inside)
    (.parsed parses) movable packs below

/-- A layout with thirty-two bytes of code at the bottom of memory. -/
def bottomLayout : Layout :=
  ⟨⟨0, 64⟩, 0, [⟨"code", .code, 0, 32⟩, ⟨"stack", .stack, 32, 32⟩]⟩

/-- The window of the layout at the bottom. -/
def bottomWindow : Window := ⟨⟨"code", .code, 0, 32⟩, ⟨"stack", .stack, 32, 32⟩, none, 64⟩

/-- A device of the layout at the bottom. -/
def bottomDevice : Device Unit := ⟨.zeroed bottomLayout.memory, ()⟩

/-- Four bytes that start with the second, packed with a range to clear that fills the rest of the
code region, are run on the byte behind their header and the first. -/
theorem ran_of_packed :
    ∃ packed call,
      Layout.plan ⟨0, 64⟩ 0 [⟨"code", .code, 32, none⟩, ⟨"stack", .stack, 32, none⟩] =
          .ok bottomLayout ∧
        bottomLayout.window = .ok bottomWindow ∧
          bottomDevice.memory.Spans bottomLayout.memory ∧ bottomWindow.code.limit < 2 ^ 32 ∧
            Image.pack [0x13, 0x05, 0x10, 0x00] 1 ⟨4, 12⟩ = .ok packed ∧
              ((Loader.recording ⟨Board.inspecting, true⟩).loadBytes bottomWindow
                (bottomDevice.recording []) packed).2.board.2 = [call] ∧
                call.context.entry.toNat = 21 := by
  obtain ⟨packable, loads⟩ := ran_iff_of_packed (σ := Unit) [0x13, 0x05, 0x10, 0x00] 1 ⟨4, 12⟩
  obtain ⟨packed, made⟩ := packable.mpr (by decide)
  have windowed : bottomLayout.window = .ok bottomWindow := rfl
  have spans : bottomDevice.memory.Spans bottomLayout.memory := DeviceMemory.spans_zeroed _
  have planned : Layout.plan ⟨0, 64⟩ 0 [⟨"code", .code, 32, none⟩, ⟨"stack", .stack, 32, none⟩] =
      .ok bottomLayout := rfl
  have ends := (loads packed made).2 planned windowed spans (by decide)
    ⟨Board.inspecting, true⟩ []
  obtain ⟨call, ran⟩ := ends.ran.mpr ⟨by decide, by decide, by decide⟩
  exact ⟨packed, call, planned, windowed, spans, by decide, made, ran, (ends.context call ran).1⟩

end Loader

end Overlay
