import Mathlib.Algebra.GroupWithZero.Nat
import Overlay.Proofs.Checksum.Burst
import Overlay.Word

/-!
# A checksum stored behind its data

A sequence with its own checksum behind it, as a word with the low byte first, is sealed.  The
word stands on the wire in the order of its bits (`packed_wireBits_encode`), so it complements
the register that it is fed to, and every sealed sequence leads to the same register and has the
same checksum, the residue (`checksum_sealed`).

So no burst of up to thirty-two bits leads from one sealed sequence to another, even where it
lies across the border of the data and the checksum (`ne_checksum_of_burst`).
-/

set_option autoImplicit false

namespace Overlay

namespace Crc32

/-! ## Words on the wire -/

theorem wireBits_append (first second : Bytes) :
    wireBits (first ++ second) = wireBits first ++ wireBits second := List.flatMap_append

theorem byteBits_ofNat (number : Nat) :
    byteBits (UInt8.ofNat number) = (List.range 8).map number.testBit := by
  refine List.map_congr_left fun index inside => ?_
  rw [UInt8.toNat_ofNat', Nat.testBit_mod_two_pow, decide_eq_true (List.mem_range.mp inside),
    Bool.true_and]

/-- The bits of a byte of a number that has so many bytes below it. -/
theorem byteBits_div (number below : Nat) :
    byteBits (UInt8.ofNat (number / 2 ^ below)) =
      (List.range' below 8).map number.testBit := by
  rw [byteBits_ofNat, List.range'_eq_map_range, List.map_map]
  refine List.map_congr_left fun index _ => ?_
  rw [Nat.testBit_div_two_pow, Function.comp_apply, Nat.add_comm]

theorem encode_eq_map (value : UInt32) :
    Word.encode value = [0, 8, 16, 24].map fun below => UInt8.ofNat (value.toNat / 2 ^ below) := by
  have byte (number : Nat) : UInt8.ofNat (number % 256) = UInt8.ofNat number :=
    UInt8.ofNat_mod_size
  simp only [Word.encode, List.map_cons, List.map_nil, Nat.reducePow, Nat.div_one, byte]

theorem wireBits_encode (value : UInt32) :
    wireBits (Word.encode value) = (List.range 32).map value.toNat.testBit := by
  rw [wireBits, encode_eq_map, List.flatMap_map]
  simp only [byteBits_div]
  rw [← List.map_flatMap]
  rfl

theorem packed_wireBits_encode (value : UInt32) :
    packed (wireBits (Word.encode value)) = value := by
  refine register_ext fun index inside => ?_
  rw [testBit_packed _ inside, wireBits_encode, List.getElem?_map, List.getElem?_range inside]
  rfl

/-- A check that is fed its own value comes to one register, whatever it was fed before. -/
theorem register_update_value (check : Crc32) :
    (check.update (Word.encode check.value)).register = shiftBit^[32] 0xFFFFFFFF := by
  have length : (wireBits (Word.encode check.value)).length = 32 := length_wireBits _
  rw [register_update, pushBits_eq_iterate (Nat.le_of_eq length), packed_wireBits_encode, length,
    value, ← UInt32.xor_assoc, UInt32.xor_self, UInt32.zero_xor]

end Crc32

/-! ## Sealed sequences -/

/-- The checksum of a sequence with its own checksum behind it. -/
def residue : UInt32 := 0x2144DF1C

/-- **All sequences with their own checksum behind them have one checksum.** -/
theorem checksum_sealed (data : Bytes) :
    checksum (data ++ Word.encode (checksum data)) = residue := by
  rw [checksum, Crc32.update_append, checksum, Crc32.value, Crc32.register_update_value]
  decide +kernel

theorem Burst.append_left {width : Nat} {left right : Bytes} (burst : Burst width left right)
    (front : Bytes) : Burst width (front ++ left) (front ++ right) where
  length := by rw [List.length_append, List.length_append, burst.length]
  differ same := burst.differ (List.append_cancel_left same)
  window := by
    obtain ⟨first, window⟩ := burst.window
    refine ⟨(Crc32.wireBits front).length + first, fun index differs => ?_⟩
    rw [Crc32.wireBits_append, Crc32.wireBits_append] at differs
    rcases Nat.lt_or_ge index (Crc32.wireBits front).length with before | behind
    · rw [List.getElem?_append_left before, List.getElem?_append_left before] at differs
      exact absurd rfl differs
    · rw [List.getElem?_append_right behind, List.getElem?_append_right behind] at differs
      have := window _ differs
      omega

/-- **A burst never leads to a sequence with its own checksum behind it**, whether it touches the
data, the checksum or both. -/
theorem ne_checksum_of_burst {data data' : Bytes} {stored : UInt32}
    (burst : Burst 32 (data ++ Word.encode (checksum data)) (data' ++ Word.encode stored)) :
    stored ≠ checksum data' := by
  rintro rfl
  exact checksum_ne_of_burst burst ((checksum_sealed data).trans (checksum_sealed data').symm)

end Overlay
