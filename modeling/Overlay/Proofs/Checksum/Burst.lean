import Mathlib.Logic.Function.Iterate
import Overlay.Checksum

/-!
# Short bursts change the checksum

A register is fed bit by bit, in the order of the wire: byte after byte, each with its least
significant bit first (`register_update`).  A bit that is fed can be told from the register that
it leads to, and so can the register before it (`pushBit_injective`).  Up to thirty-two bits
that are fed in a row go to the register as one word, which is then shifted through
(`pushBits_eq_iterate`), so no two such rows lead to the same register.

Two sequences of one length that differ only within thirty-two consecutive bits therefore have
different checksums, wherever these bits start and whatever stands before and behind them
(`checksum_ne_of_burst`).  Thirty-three bits are too many.
-/

set_option autoImplicit false

namespace Overlay

namespace Crc32

/-! ## Shifting one bit -/

section Shifts

variable {word : UInt32}

theorem register_ext {left right : UInt32}
    (same : ∀ index, index < 32 → left.toNat.testBit index = right.toNat.testBit index) :
    left = right := by
  apply UInt32.toNat_inj.mp
  refine Nat.eq_of_testBit_eq fun index => ?_
  by_cases inside : index < 32
  · exact same index inside
  · have beyond (value : UInt32) : value.toNat < 2 ^ index :=
      Nat.lt_of_lt_of_le value.toNat_lt (Nat.pow_le_pow_right (by decide) (Nat.le_of_not_lt inside))
    rw [Nat.testBit_lt_two_pow (beyond left), Nat.testBit_lt_two_pow (beyond right)]

/-- A shift moves every bit down, and adds the polynomial if the lowest bit was set. -/
theorem testBit_shiftBit (register : UInt32) (index : Nat) :
    (shiftBit register).toNat.testBit index =
      (register.toNat.testBit (index + 1) ^^
        (register.toNat.testBit 0 && polynomial.toNat.testBit index)) := by
  have lowest : register &&& 1 = 1 ↔ register.toNat.testBit 0 = true := by
    rw [← UInt32.toNat_inj, UInt32.toNat_and, Nat.testBit_zero, decide_eq_true_eq]
    exact (Nat.and_one_is_mod register.toNat).symm ▸ Iff.rfl
  have down : (register >>> 1).toNat.testBit index = register.toNat.testBit (index + 1) := by
    rw [UInt32.toNat_shiftRight, Nat.testBit_shiftRight]
    congr 1
    exact Nat.add_comm _ _
  rw [shiftBit]
  by_cases odd : register &&& 1 = 1
  · rw [if_pos odd, UInt32.toNat_xor, Nat.testBit_xor, down, lowest.mp odd, Bool.true_and]
  · rw [if_neg odd, down, Bool.eq_false_iff.mpr fun set => odd (lowest.mpr set), Bool.false_and,
      Bool.xor_false]

theorem testBit_zero_eq (register : UInt32) :
    register.toNat.testBit 0 = (shiftBit register).toNat.testBit 31 := by
  have beyond : register.toNat.testBit 32 = false := Nat.testBit_lt_two_pow register.toNat_lt
  have highest : polynomial.toNat.testBit 31 = true := by decide
  rw [testBit_shiftBit, beyond, highest, Bool.and_true, Bool.false_xor]

theorem shiftBit_injective : Function.Injective shiftBit := by
  intro left right same
  have lowest : left.toNat.testBit 0 = right.toNat.testBit 0 := by
    rw [testBit_zero_eq, testBit_zero_eq, same]
  refine register_ext fun index _ => ?_
  cases index with
  | zero => exact lowest
  | succ index =>
      have bits := testBit_shiftBit left index
      rw [same, testBit_shiftBit right index, lowest] at bits
      exact (Bool.xor_left_inj.mp bits).symm

theorem testBit_double (word : UInt32) {index : Nat} (inside : index + 1 < 32) :
    (word <<< 1).toNat.testBit (index + 1) = word.toNat.testBit index := by
  rw [UInt32.toNat_shiftLeft, Nat.testBit_mod_two_pow, Nat.testBit_shiftLeft]
  simp [inside]

theorem testBit_zero_double (word : UInt32) : (word <<< 1).toNat.testBit 0 = false := by
  rw [UInt32.toNat_shiftLeft, Nat.testBit_mod_two_pow, Nat.testBit_shiftLeft]
  simp

/-- A word that is added one place higher comes out of the shift as it is. -/
theorem shiftBit_xor_double (register : UInt32) (room : word.toNat.testBit 31 = false) :
    shiftBit (register ^^^ (word <<< 1)) = shiftBit register ^^^ word := by
  refine register_ext fun index inside => ?_
  have higher : (word <<< 1).toNat.testBit (index + 1) = word.toNat.testBit index := by
    by_cases below : index + 1 < 32
    · exact testBit_double word below
    · obtain rfl : index = 31 := by omega
      rw [room, Nat.testBit_lt_two_pow (UInt32.toNat_lt _)]
  rw [testBit_shiftBit, UInt32.toNat_xor, UInt32.toNat_xor, Nat.testBit_xor, Nat.testBit_xor,
    Nat.testBit_xor, testBit_shiftBit, higher, testBit_zero_double, Bool.xor_false]
  simp only [Bool.xor_assoc, Bool.xor_comm (word.toNat.testBit index)]

end Shifts

/-! ## Feeding bits -/

/-- Feed one bit to a register. -/
def pushBit (register : UInt32) (bit : Bool) : UInt32 := shiftBit (register ^^^ bit.toUInt32)

/-- Feed bits to a register, one after another. -/
def pushBits (register : UInt32) (bits : List Bool) : UInt32 := bits.foldl pushBit register

/-- The word with given bits, the lowest first. -/
def packed : List Bool → UInt32
  | [] => 0
  | bit :: rest => bit.toUInt32 ^^^ (packed rest <<< 1)

section Feeding

theorem pushBit_injective (bit : Bool) : Function.Injective (pushBit · bit) := by
  intro left right same
  exact (UInt32.xor_left_inj _).mp (shiftBit_injective same)

theorem pushBits_injective (bits : List Bool) : Function.Injective (pushBits · bits) := by
  induction bits with
  | nil => exact fun _ _ same => same
  | cons bit rest ih => exact ih.comp (pushBit_injective bit)

theorem testBit_toUInt32 (bit : Bool) (index : Nat) :
    bit.toUInt32.toNat.testBit index = (decide (index = 0) && bit) := by
  cases bit with
  | false => simp [Bool.toUInt32]
  | true => cases index <;> simp [Bool.toUInt32, Nat.testBit_succ]

/-- A bit that is fed is added to the bit that leaves, and the polynomial is added where that sum
is one. -/
theorem testBit_pushBit (register : UInt32) (bit : Bool) (index : Nat) :
    (pushBit register bit).toNat.testBit index =
      (register.toNat.testBit (index + 1) ^^
        ((register.toNat.testBit 0 ^^ bit) && polynomial.toNat.testBit index)) := by
  rw [pushBit, testBit_shiftBit, UInt32.toNat_xor, Nat.testBit_xor, Nat.testBit_xor,
    testBit_toUInt32, testBit_toUInt32]
  simp

theorem testBit_packed (bits : List Bool) {index : Nat} (inside : index < 32) :
    (packed bits).toNat.testBit index = bits[index]?.getD false := by
  induction bits generalizing index with
  | nil => simp [packed]
  | cons bit rest ih =>
      rw [packed, UInt32.toNat_xor, Nat.testBit_xor, testBit_toUInt32]
      cases index with
      | zero =>
          rw [testBit_zero_double]
          simp
      | succ index =>
          rw [testBit_double _ inside, ih (Nat.lt_of_succ_lt inside)]
          simp

/-- **Up to thirty-two bits are fed as one word**, which is then shifted through. -/
theorem pushBits_eq_iterate {bits : List Bool} (short : bits.length ≤ 32) (register : UInt32) :
    pushBits register bits = shiftBit^[bits.length] (register ^^^ packed bits) := by
  induction bits generalizing register with
  | nil => simp [pushBits, packed]
  | cons bit rest ih =>
      have few : rest.length < 32 := short
      have room : (packed rest).toNat.testBit 31 = false := by
        rw [testBit_packed rest (by decide), List.getElem?_eq_none (Nat.le_of_lt_succ few)]
        rfl
      calc pushBits register (bit :: rest)
        _ = shiftBit^[rest.length] (shiftBit (register ^^^ bit.toUInt32) ^^^ packed rest) :=
            ih (Nat.le_of_lt few) _
        _ = shiftBit^[rest.length]
              (shiftBit (register ^^^ bit.toUInt32 ^^^ (packed rest <<< 1))) := by
            rw [shiftBit_xor_double _ room]
        _ = shiftBit^[(bit :: rest).length] (register ^^^ packed (bit :: rest)) := by
            rw [packed, UInt32.xor_assoc]
            rfl

/-- As many bits as a register has, or fewer, are told apart by the register that they lead
to. -/
theorem eq_of_pushBits_eq {left right : List Bool} (short : left.length ≤ 32)
    (length : right.length = left.length) {register : UInt32}
    (same : pushBits register left = pushBits register right) : left = right := by
  rw [pushBits_eq_iterate short, pushBits_eq_iterate (by omega), length] at same
  have words := (UInt32.xor_right_inj _).mp (shiftBit_injective.iterate _ same)
  refine List.ext_getElem length.symm fun index inside inside' => ?_
  have bits := testBit_packed left (Nat.lt_of_lt_of_le inside short)
  rw [words, testBit_packed right (by omega), List.getElem?_eq_getElem inside,
    List.getElem?_eq_getElem inside'] at bits
  exact bits.symm

end Feeding

/-! ## Feeding bytes -/

/-- The bits of a byte, the least significant first. -/
def byteBits (byte : UInt8) : List Bool := (List.range 8).map byte.toNat.testBit

/-- The bits of a sequence in the order of the wire. -/
def wireBits (data : Bytes) : List Bool := data.flatMap byteBits

section Bytes

@[simp] theorem length_byteBits (byte : UInt8) : (byteBits byte).length = 8 := rfl

theorem byteBits_injective : Function.Injective byteBits := by
  intro left right same
  apply UInt8.toNat_inj.mp
  refine Nat.eq_of_testBit_eq fun index => ?_
  by_cases inside : index < 8
  · have bits := congrArg (·[index]?) same
    simpa [byteBits, inside] using bits
  · have beyond (value : UInt8) : value.toNat < 2 ^ index :=
      Nat.lt_of_lt_of_le value.toNat_lt (Nat.pow_le_pow_right (by decide) (Nat.le_of_not_lt inside))
    rw [Nat.testBit_lt_two_pow (beyond left), Nat.testBit_lt_two_pow (beyond right)]

theorem eq_of_wireBits_eq {left right : Bytes} (length : right.length = left.length)
    (same : wireBits left = wireBits right) : left = right := by
  induction left generalizing right with
  | nil => exact (List.length_eq_zero_iff.mp length).symm
  | cons byte rest ih =>
      cases right with
      | nil => cases length
      | cons byte' rest' =>
          obtain ⟨first, later⟩ := List.append_inj same rfl
          rw [byteBits_injective first, ih (Nat.succ.inj length) later]

theorem length_wireBits (data : Bytes) : (wireBits data).length = 8 * data.length := by
  induction data with
  | nil => rfl
  | cons byte rest ih =>
      rw [wireBits, List.flatMap_cons, List.length_append, ← wireBits, ih, length_byteBits,
        List.length_cons]
      omega

theorem packed_byteBits (byte : UInt8) : packed (byteBits byte) = byte.toUInt32 := by
  refine register_ext fun index inside => ?_
  rw [testBit_packed _ inside, UInt8.toNat_toUInt32, byteBits, List.getElem?_map]
  by_cases low : index < 8
  · simp [low]
  · have beyond : byte.toNat < 2 ^ index :=
      Nat.lt_of_lt_of_le byte.toNat_lt (Nat.pow_le_pow_right (by decide) (Nat.le_of_not_lt low))
    rw [Nat.testBit_lt_two_pow beyond]
    simp [low]

theorem register_push (check : Crc32) (byte : UInt8) :
    (check.push byte).register = pushBits check.register (byteBits byte) := by
  have short : (byteBits byte).length ≤ 32 := by
    rw [length_byteBits]
    decide
  rw [pushBits_eq_iterate short, packed_byteBits]
  rfl

/-- **A sequence is fed bit by bit, in the order of the wire.** -/
theorem register_update (check : Crc32) (data : Bytes) :
    (check.update data).register = pushBits check.register (wireBits data) := by
  induction data generalizing check with
  | nil => rfl
  | cons byte rest ih =>
      rw [wireBits, List.flatMap_cons, pushBits, List.foldl_append]
      exact (ih (check.push byte)).trans (congrArg (pushBits · _) (register_push check byte))

end Bytes

end Crc32

/-! ## Bursts -/

/-- Two sequences of one length that differ, but only within so many consecutive bits. -/
structure Burst (width : Nat) (left right : Bytes) : Prop where
  length : right.length = left.length
  differ : left ≠ right
  /-- All bits that differ stand within a window. -/
  window : ∃ first, ∀ index, (Crc32.wireBits left)[index]? ≠ (Crc32.wireBits right)[index]? →
    first ≤ index ∧ index < first + width

theorem Burst.of_bits {width : Nat} {left right : Bytes} (first : Nat)
    (length : right.length = left.length) (differ : left ≠ right)
    (window : ∀ index, index < 8 * left.length →
      (Crc32.wireBits left)[index]? ≠ (Crc32.wireBits right)[index]? →
        first ≤ index ∧ index < first + width) : Burst width left right := by
  refine ⟨length, differ, first, fun index differs => ?_⟩
  rcases Nat.lt_or_ge index (8 * left.length) with inside | beyond
  · exact window index inside differs
  · rw [List.getElem?_eq_none (Crc32.length_wireBits left ▸ beyond),
      List.getElem?_eq_none (by rwa [Crc32.length_wireBits, length])] at differs
    exact absurd rfl differs

/-- The bits before and behind a burst are the same. -/
theorem Burst.exists_bits {width : Nat} {left right : Bytes} (burst : Burst width left right) :
    ∃ before inside inside' behind,
      Crc32.wireBits left = before ++ (inside ++ behind) ∧
        Crc32.wireBits right = before ++ (inside' ++ behind) ∧
          inside.length ≤ width ∧ inside'.length = inside.length ∧ inside ≠ inside' := by
  obtain ⟨first, window⟩ := burst.window
  have length : (Crc32.wireBits right).length = (Crc32.wireBits left).length := by
    rw [Crc32.length_wireBits, Crc32.length_wireBits, burst.length]
  have differ : Crc32.wireBits left ≠ Crc32.wireBits right := fun same =>
    burst.differ (Crc32.eq_of_wireBits_eq burst.length same)
  generalize Crc32.wireBits left = bits at window length differ ⊢
  generalize Crc32.wireBits right = bits' at window length differ ⊢
  have agree (index : Nat) (outside : index < first ∨ first + width ≤ index) :
      bits[index]? = bits'[index]? := by
    by_contra differs
    have := window index differs
    omega
  have before : bits.take first = bits'.take first := by
    refine List.ext_getElem? fun index => ?_
    rw [List.getElem?_take, List.getElem?_take]
    split
    · exact agree index (.inl ‹_›)
    · rfl
  have behind : bits.drop (first + width) = bits'.drop (first + width) := by
    refine List.ext_getElem? fun index => ?_
    rw [List.getElem?_drop, List.getElem?_drop]
    exact agree _ (.inr (Nat.le_add_right _ _))
  have cut (row : List Bool) :
      row = row.take first ++ ((row.drop first).take width ++ row.drop (first + width)) := by
    rw [← List.drop_drop, List.take_append_drop, List.take_append_drop]
  refine ⟨bits.take first, (bits.drop first).take width, (bits'.drop first).take width,
    bits.drop (first + width), cut bits, ?_, ?_, ?_, fun same => differ ?_⟩
  · rw [before, behind]
    exact cut bits'
  · exact List.length_take_le _ _
  · simp only [List.length_take, List.length_drop, length]
  · rw [cut bits, cut bits', before, behind, same]

/-- **A burst of up to thirty-two bits changes the checksum.** -/
theorem checksum_ne_of_burst {left right : Bytes} (burst : Burst 32 left right) :
    checksum left ≠ checksum right := by
  intro same
  obtain ⟨before, inside, inside', behind, bits, bits', short, length, differ⟩ := burst.exists_bits
  have registers := (UInt32.xor_left_inj _).mp same
  rw [Crc32.register_update, Crc32.register_update, bits, bits'] at registers
  simp only [Crc32.pushBits, List.foldl_append] at registers
  exact differ (Crc32.eq_of_pushBits_eq short length (Crc32.pushBits_injective behind registers))

/-- The polynomial itself is a burst of thirty-three bits, and goes unnoticed. -/
example : checksum [0, 0, 0, 0, 0] = checksum [0x41, 0x06, 0x71, 0xDB, 0x01] := rfl

end Overlay
