import Overlay.Image
import Overlay.Proofs.Image.Header

/-!
# Packed images

Packing puts a header in front of raw bytes and moves every offset behind it.  It succeeds
exactly when the range to clear is in order and no offset that it moves leaves the thirty-two
bits of a field (`exists_pack_iff`), and what it makes is an image that says just that
(`exists_parse_of_pack`).
-/

set_option autoImplicit false

namespace Overlay.Image

/-- Offsets that can be moved behind a header. -/
structure Movable (entry : UInt32) (bss : Span) : Prop where
  ordered : bss.start.toNat ≤ bss.limit.toNat
  entry : entry.toNat ≤ 4294967296 - 21
  limit : bss.limit.toNat ≤ 4294967296 - 21

/-- An image whose bytes are a header and raw bytes behind it, with its offsets counted from the
header. -/
structure Packs (raw : Bytes) (entry : UInt32) (bss : Span) (image : Image) : Prop where
  headed : image.header.isSome = true
  length : image.bytes.length = raw.length + 20
  behind : image.bytes.drop 20 = raw
  entry : image.entry.toNat = entry.toNat + 20
  start : image.bss.start.toNat = bss.start.toNat + 20
  limit : image.bss.limit.toNat = bss.limit.toNat + 20

section Packing

variable {raw packed : Bytes} {entry : UInt32} {bss : Span}

theorem shifted_cases (offset : UInt32) :
    (∃ moved, shifted offset = .ok moved ∧ moved.toNat = offset.toNat + 20 ∧
        offset.toNat ≤ 4294967296 - 21) ∨
      (∃ reason, shifted offset = .error reason) ∧ 4294967296 - 21 < offset.toNat := by
  have twenty : (20 : UInt32).toNat = 20 := rfl
  rw [shifted]
  rcases Word.add?_cases offset 20 with ⟨moved, sum, _, value, small⟩ | ⟨none, large⟩
  · rw [sum]
    exact .inl ⟨moved, rfl, value, by omega⟩
  · rw [none]
    exact .inr ⟨⟨_, rfl⟩, by omega⟩

/-- **Packing puts the header with all offsets moved in front**, or fails for an offset that
cannot be moved. -/
theorem pack_cases (raw : Bytes) (entry : UInt32) (bss : Span) :
    (∃ header : ImageHeader, pack raw entry bss = .ok (header.encode ++ raw) ∧ Movable entry bss ∧
        header.entry.toNat = entry.toNat + 20 ∧ header.bss.start.toNat = bss.start.toNat + 20 ∧
          header.bss.limit.toNat = bss.limit.toNat + 20) ∨
      (∃ reason, pack raw entry bss = .error reason) ∧ ¬Movable entry bss := by
  rw [pack]
  by_cases inverted : bss.limit < bss.start
  · rw [if_pos inverted]
    have := UInt32.lt_iff_toNat_lt.mp inverted
    exact .inr ⟨⟨_, rfl⟩, fun movable => absurd movable.ordered (by omega)⟩
  have ordered := UInt32.le_iff_toNat_le.mp (UInt32.not_lt.mp inverted)
  rw [if_neg inverted]
  rcases shifted_cases entry with ⟨movedEntry, isEntry, entryIs, small⟩ | ⟨⟨_, fails⟩, large⟩
  · rcases shifted_cases bss.start with ⟨movedStart, isStart, startIs, _⟩ | ⟨⟨_, fails⟩, large⟩
    · rcases shifted_cases bss.limit with
        ⟨movedLimit, isLimit, limitIs, small'⟩ | ⟨⟨_, fails⟩, large⟩
      · rw [isEntry, isStart, isLimit]
        exact .inl ⟨⟨movedEntry, ⟨movedStart, movedLimit⟩⟩, rfl, ⟨ordered, small, small'⟩, entryIs,
          startIs, limitIs⟩
      · rw [isEntry, isStart, fails]
        exact .inr ⟨⟨_, rfl⟩, fun movable => absurd movable.limit (by omega)⟩
    · rw [isEntry, fails]
      exact .inr ⟨⟨_, rfl⟩, fun movable => absurd movable.limit (by omega)⟩
  · rw [fails]
    exact .inr ⟨⟨_, rfl⟩, fun movable => absurd movable.entry (by omega)⟩

/-- Packing succeeds exactly when all offsets can be moved. -/
theorem exists_pack_iff : (∃ packed, pack raw entry bss = .ok packed) ↔ Movable entry bss := by
  rcases pack_cases raw entry bss with ⟨header, makes, movable, _⟩ | ⟨⟨reason, fails⟩, stuck⟩
  · exact ⟨fun _ => movable, fun _ => ⟨_, makes⟩⟩
  · rw [fails]
    exact ⟨nofun, fun movable => absurd movable stuck⟩

/-- **What has been packed is read back**: an image with the raw bytes behind its header and all
offsets moved. -/
theorem exists_parse_of_pack (made : pack raw entry bss = .ok packed) :
    Movable entry bss ∧ ∃ image, parse packed = .ok image ∧ image.Packs raw entry bss := by
  rcases pack_cases raw entry bss with
    ⟨header, makes, movable, entryIs, startIs, limitIs⟩ | ⟨⟨reason, fails⟩, _⟩
  · rw [makes] at made
    cases made
    have ordered : header.bss.start ≤ header.bss.limit := by
      have := movable.ordered
      rw [UInt32.le_iff_toNat_le]
      omega
    refine ⟨movable, ⟨header.encode ++ raw, header.entry, header.bss, some header⟩, ?_, rfl, ?_,
      rfl, entryIs, startIs, limitIs⟩
    · rw [parse, ImageHeader.decode_encode, if_pos ordered]
      rfl
    · rw [List.length_append, ImageHeader.length_encode, ImageHeader.length, Nat.add_comm]
  · rw [fails] at made
    cases made

end Packing

end Overlay.Image
