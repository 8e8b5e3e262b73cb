import Overlay.Proofs.Memory.Bytes

/-!
# Memory outside a region

Two memories agree outside a region when they have the same bounds and the same bytes at
all other addresses.  A write or a fill that lies in the region leaves memory outside it
alone.
-/

set_option autoImplicit false

namespace Overlay

/-- Memory that has changed in a region at most. -/
structure AgreesOutside (region : Region) (before after : DeviceMemory) : Prop where
  base : after.base = before.base
  size : after.bytes.size = before.bytes.size
  bytes : ∀ place, place < region.base.toNat ∨ region.limit ≤ place →
    after.byteAt? place = before.byteAt? place

namespace AgreesOutside

variable {region : Region} {first second third : DeviceMemory}

theorem refl (region : Region) (memory : DeviceMemory) : AgreesOutside region memory memory :=
  ⟨rfl, rfl, fun _ _ => rfl⟩

theorem trans (earlier : AgreesOutside region first second)
    (later : AgreesOutside region second third) : AgreesOutside region first third :=
  ⟨later.base.trans earlier.base, later.size.trans earlier.size,
    fun place outside => (later.bytes place outside).trans (earlier.bytes place outside)⟩

theorem of_write {address : UInt32} {data : Bytes}
    (written : first.write address data = .ok second)
    (above : region.base.toNat ≤ address.toNat)
    (below : address.toNat + data.length ≤ region.limit) : AgreesOutside region first second := by
  obtain ⟨base, size⟩ := DeviceMemory.bounds_of_write written
  refine ⟨base, size, fun place outside => ?_⟩
  rw [DeviceMemory.byteAt?_of_write written, if_neg (by omega)]

theorem of_fill {address : UInt32} {count : Nat} {value : UInt8}
    (filled : first.fill address count value = .ok second)
    (above : region.base.toNat ≤ address.toNat)
    (below : address.toNat + count ≤ region.limit) : AgreesOutside region first second := by
  rw [DeviceMemory.fill_eq_write] at filled
  exact of_write filled above (by rwa [List.length_replicate])

end AgreesOutside

end Overlay
