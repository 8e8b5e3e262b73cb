import Overlay.Proofs.Checksum.Residue
import Overlay.Proofs.Image.Header
import Overlay.Proofs.Loader.Launch

/-!
# Damaged headers

A header is damaged when its magic is left but bits behind the magic are changed, all of them
within thirty-two consecutive bits of the wire (`Damaged`).  They may be bits of the fields, of
the stored checksum, or of both, and what stands behind the header may have changed in any way.

A damaged header is found out by its checksum and by nothing later: it is not taken for a header
in order, nor for a raw image, nor for a range to clear that is the wrong way round.  A loader
rejects it before anything has been written or run (`rejected_of_damaged`).
-/

set_option autoImplicit false

namespace Overlay

namespace ImageHeader

/-- The bytes of a header behind its magic. -/
def behindMagic (data : Bytes) : Bytes := (data.take length).drop 4

/-- Bytes with a header in front that have been altered behind the magic, within so few bits of
the header that its checksum tells. -/
structure Damaged (original altered : Bytes) : Prop where
  length : altered.length = original.length
  /-- The magic is left as it was. -/
  opens : altered.take 4 = magic
  /-- The rest of the header has changed, within thirty-two bits in a row. -/
  burst : Burst 32 (behindMagic original) (behindMagic altered)

section Damages

variable {header : ImageHeader} {rest altered : Bytes}

theorem magic_append_behindMagic {data : Bytes} (opens : data.take 4 = magic) :
    magic ++ behindMagic data = data.take length := by
  have front : (data.take length).take 4 = magic := by
    rw [List.take_take]
    exact opens
  rw [behindMagic, ← front, List.take_append_drop]

/-- A damaged header still has fields, and they are not the ones of its stored checksum. -/
theorem exists_fields_of_damaged (damaged : Damaged (header.encode ++ rest) altered) :
    ∃ (found : ImageHeader) (stored : UInt32) (behind : Bytes),
      altered = found.body ++ (Word.encode stored ++ behind) ∧ stored ≠ checksum found.body := by
  have long : length ≤ altered.length := by
    rw [damaged.length, List.length_append, length_encode]
    exact Nat.le_add_right _ _
  obtain ⟨found, stored, behind, whole⟩ := exists_body_append long damaged.opens
  refine ⟨found, stored, behind, whole, ?_⟩
  -- the checksum is over the magic as well, so the burst is looked at behind the magic of both
  have burst := damaged.burst.append_left magic
  rw [magic_append_behindMagic damaged.opens, magic_append_behindMagic rfl, whole,
    encode_append, take_length_append, take_length_append] at burst
  exact ne_checksum_of_burst burst

end Damages

end ImageHeader

namespace Loader

variable {σ : Type}

theorem loadBytes_of_parse_error {bytes : Bytes} {reason : Rejection}
    (parses : Image.parse bytes = .error reason) (loader : Loader σ) (window : Window)
    (device : Device σ) :
    loader.loadBytes window device bytes = (.ok (.rejected reason), device) := by
  rw [loadBytes, parses]

/-- **A damaged header is always noticed.**  The bytes are no image, because the checksum that is
stored in them is not the one of the sixteen bytes before it, and a loader that is given them
rejects them for that, writes nothing and runs nothing. -/
theorem rejected_of_damaged {header : ImageHeader} {rest altered : Bytes}
    (damaged : ImageHeader.Damaged (header.encode ++ rest) altered) :
    ∃ stored computed, altered.take ImageHeader.length = altered.take 16 ++ Word.encode stored ∧
      computed = checksum (altered.take 16) ∧ stored ≠ computed ∧
        Image.parse altered = .error (.badHeaderChecksum stored computed) ∧
          ∀ (loader : Loader σ) (window : Window) (device : Device σ) (calls : List Call),
            loader.recording.loadBytes window (device.recording calls) altered =
              (.ok (.rejected (.badHeaderChecksum stored computed)), device.recording calls) := by
  obtain ⟨found, stored, behind, rfl, differs⟩ := ImageHeader.exists_fields_of_damaged damaged
  have parses : Image.parse (found.body ++ (Word.encode stored ++ behind)) =
      .error (.badHeaderChecksum stored (checksum found.body)) := by
    rw [Image.parse, ImageHeader.decode_body, if_pos differs]
    rfl
  rw [ImageHeader.take_length_append, ImageHeader.take_body_append]
  exact ⟨stored, _, rfl, rfl, differs, parses, fun loader window device calls =>
    loadBytes_of_parse_error parses loader.recording window (device.recording calls)⟩

/-- Eleven bits in a row that lie across the border of the fields and the stored checksum, with
the image behind the header replaced. -/
theorem rejected_of_crossing :
    let header : ImageHeader := ⟨0x20, ⟨0x100, 0x180⟩⟩
    let altered : Bytes := [0x4F, 0x56, 0x4C, 0x31, 0x20, 0x00, 0x00, 0x00, 0x00, 0x01, 0x00, 0x00,
      0x80, 0x01, 0x00, 0xC0, 0x62, 0xB5, 0x32, 0x03, 0xFF]
    ImageHeader.Damaged (header.encode ++ [0x13]) altered ∧
      ∃ stored computed, altered.take ImageHeader.length = altered.take 16 ++ Word.encode stored ∧
        computed = checksum (altered.take 16) ∧ stored ≠ computed ∧
          Image.parse altered = .error (.badHeaderChecksum stored computed) ∧
            ∀ (loader : Loader Unit) (window : Window) (device : Device Unit) (calls : List Call),
              loader.recording.loadBytes window (device.recording calls) altered =
                (.ok (.rejected (.badHeaderChecksum stored computed)), device.recording calls) := by
  intro header altered
  have damaged : ImageHeader.Damaged (header.encode ++ [0x13]) altered :=
    ⟨rfl, rfl, .of_bits 94 rfl (by decide) (by decide +kernel)⟩
  exact ⟨damaged, rejected_of_damaged damaged⟩

end Loader

end Overlay
