import Mathlib.Data.List.Infix
import Overlay.Proofs.Checksum.Division

/-!
# The bit-serial check

The bit-serial check takes a sequence bit by bit in the order of the wire.  Its register moves
down one place for every bit, and its taps are added where the bit that leaves differs from the
bit that comes in (`serialStep`).  It starts from a register of its own and ends with a mask
(`serialCheck`).

A check that is fed byte by byte keeps the register of the bit-serial check (`toBitVec_update`),
and one that is fed in pieces has at every point the value of all that it has been fed
(`scanl_update`).  So the pieces make no difference, and **every value on the way is the
bit-serial check of the bytes so far, and the one that the division defines** (`values_of_chunks`).
-/

set_option autoImplicit false

namespace Overlay

/-! ## The serial register -/

/-- A serial register after one bit more: all bits move down one place, and the taps are added
if the bit that leaves differs from the one that comes in. -/
def serialStep (taps register : BitVec 32) (bit : Bool) : BitVec 32 :=
  if register.getLsbD 0 = bit then register >>> 1 else (register >>> 1) ^^^ taps

/-- The bit-serial check of a sequence, each byte with its least significant bit first. -/
def serialCheck (taps initial mask : BitVec 32) (data : Bytes) : BitVec 32 :=
  (Crc32.wireBits data).foldl (serialStep taps) initial ^^^ mask

namespace Crc32

section Serial

theorem getLsbD_serialStep (taps register : BitVec 32) (bit : Bool) (index : Nat) :
    (serialStep taps register bit).getLsbD index =
      (register.getLsbD (index + 1) ^^ ((register.getLsbD 0 ^^ bit) && taps.getLsbD index)) := by
  rw [serialStep]
  by_cases same : register.getLsbD 0 = bit
  · rw [if_pos same, same, Bool.xor_self, Bool.false_and, Bool.xor_false,
      BitVec.getLsbD_ushiftRight, Nat.add_comm]
  · rw [if_neg same, Bool.eq_not.mpr same, Bool.not_xor_self, Bool.true_and, BitVec.getLsbD_xor,
      BitVec.getLsbD_ushiftRight, Nat.add_comm]

/-- Feeding a bit is a step of the serial register whose taps are the polynomial. -/
theorem toBitVec_pushBit (register : UInt32) (bit : Bool) :
    (pushBit register bit).toBitVec = serialStep polynomial.toBitVec register.toBitVec bit := by
  refine BitVec.eq_of_getLsbD_eq fun index _ => ?_
  rw [getLsbD_serialStep]
  exact testBit_pushBit register bit index

theorem toBitVec_pushBits (register : UInt32) (bits : List Bool) :
    (pushBits register bits).toBitVec =
      bits.foldl (serialStep polynomial.toBitVec) register.toBitVec := by
  induction bits generalizing register with
  | nil => rfl
  | cons bit rest ih =>
      rw [List.foldl_cons, ← toBitVec_pushBit]
      exact ih (pushBit register bit)

theorem toBitVec_update (check : Crc32) (data : Bytes) :
    (check.update data).register.toBitVec =
      (wireBits data).foldl (serialStep polynomial.toBitVec) check.register.toBitVec := by
  rw [register_update, toBitVec_pushBits]

end Serial

/-! ## Feeding in pieces -/

section Pieces

theorem foldl_update (check : Crc32) (chunks : List Bytes) :
    chunks.foldl update check = check.update chunks.flatten :=
  List.foldl_flatten.symm

/-- At every point a check has been fed the pieces so far. -/
theorem scanl_update (check : Crc32) (chunks : List Bytes) :
    chunks.scanl update check = chunks.inits.map fun fed => check.update fed.flatten := by
  induction chunks generalizing check with
  | nil => rfl
  | cons chunk rest ih =>
      rw [List.scanl_cons, ih, List.inits_cons, List.map_cons, List.map_map]
      refine congrArg (check :: ·) (List.map_congr_left fun fed _ => ?_)
      exact (update_append check chunk fed.flatten).symm

end Pieces

end Crc32

/-! ## The values of a check -/

theorem toBitVec_checksum (data : Bytes) :
    (checksum data).toBitVec = serialCheck 0xEDB88320 0xFFFFFFFF 0xFFFFFFFF data := by
  rw [checksum, Crc32.value, UInt32.toBitVec_xor, Crc32.toBitVec_update]
  rfl

/-- The check of the nine digits. -/
example : serialCheck 0xEDB88320 0xFFFFFFFF 0xFFFFFFFF
    [0x31, 0x32, 0x33, 0x34, 0x35, 0x36, 0x37, 0x38, 0x39] = 0xCBF43926 := by decide +kernel

/-- **A check that is fed in pieces has the checksum of their concatenation**, and at every point
the checksum of the pieces so far. -/
theorem values_of_chunks (chunks : List Bytes) :
    (chunks.foldl Crc32.update Crc32.initial).value = checksum chunks.flatten ∧
      (chunks.scanl Crc32.update Crc32.initial).map Crc32.value =
        chunks.inits.map (fun fed => checksum fed.flatten) ∧
      ∀ data, (checksum data).toBitVec = serialCheck 0xEDB88320 0xFFFFFFFF 0xFFFFFFFF data ∧
        IsFrameCheck data (checksum data) := by
  refine ⟨?_, ?_, fun data => ⟨toBitVec_checksum data, isFrameCheck_iff.mpr rfl⟩⟩
  · rw [Crc32.foldl_update]
    rfl
  · rw [Crc32.scanl_update, List.map_map]
    rfl

end Overlay
