import Mathlib.Algebra.Field.ZMod
import Mathlib.Algebra.Polynomial.Div
import Mathlib.Algebra.Polynomial.OfFn
import Mathlib.Tactic.LinearCombination
import Overlay.Proofs.Checksum.Burst

/-!
# The checksum is a remainder

A register is a polynomial over the field of two elements, its lowest bit at the highest power,
and so is a row of bits, its first bit at the highest power.  Feeding a bit multiplies the
register by `X`, adds the bit at the power thirty-two and takes a multiple of the generator away
(`wordPolynomial_pushBit`).  A register that has been fed a row of bits is therefore the remainder
of a division by the generator (`wordPolynomial_pushBits`).

The check of a frame is defined by such a division: the first thirty-two bits of a row are
complemented, the row is divided, and the check is the complement of what is left
(`IsFrameCheck`).  **A word is the check of a sequence exactly if it is its checksum**
(`isFrameCheck_iff`).
-/

set_option autoImplicit false

namespace Overlay

open Polynomial

namespace Crc32

/-! ## Registers and bits as polynomials -/

/-- A bit as a coefficient. -/
def coefficient (bit : Bool) : ZMod 2 := if bit then 1 else 0

/-- A word as a polynomial, its lowest bit at the highest power. -/
noncomputable def wordPolynomial (word : UInt32) : (ZMod 2)[X] :=
  Polynomial.ofFn 32 fun power => coefficient (word.toNat.testBit (31 - power))

/-- A row of bits as a polynomial, its first bit at the highest power. -/
noncomputable def rowPolynomial : List Bool → (ZMod 2)[X]
  | [] => 0
  | bit :: rest => C (coefficient bit) * X ^ rest.length + rowPolynomial rest

/-- The generator, of degree thirty-two. -/
noncomputable def generator : (ZMod 2)[X] :=
  X ^ 32 + X ^ 26 + X ^ 23 + X ^ 22 + X ^ 16 + X ^ 12 + X ^ 11 + X ^ 10 + X ^ 8 + X ^ 7 + X ^ 5 +
    X ^ 4 + X ^ 2 + X + 1

/-- All powers below the degree of the generator. -/
noncomputable def ones : (ZMod 2)[X] := ∑ power ∈ Finset.range 32, X ^ power

section Coefficients

theorem coefficient_xor (left right : Bool) :
    coefficient (left ^^ right) = coefficient left + coefficient right := by
  revert left right
  decide

theorem coefficient_and (left right : Bool) :
    coefficient (left && right) = coefficient left * coefficient right := by
  revert left right
  decide

theorem coefficient_injective : Function.Injective coefficient := by decide

theorem coeff_wordPolynomial (word : UInt32) {power : Nat} (low : power < 32) :
    (wordPolynomial word).coeff power = coefficient (word.toNat.testBit (31 - power)) :=
  Polynomial.ofFn_coeff_eq_val_of_lt _ low

theorem coeff_wordPolynomial_of_le (word : UInt32) {power : Nat} (high : 32 ≤ power) :
    (wordPolynomial word).coeff power = 0 :=
  Polynomial.ofFn_coeff_eq_zero_of_ge _ high

theorem degree_wordPolynomial_lt (word : UInt32) : (wordPolynomial word).degree < 32 :=
  Polynomial.ofFn_degree_lt _

/-- The bit that is about to leave a word stands at the power thirty-two of its multiple. -/
theorem coeff_X_mul_wordPolynomial (word : UInt32) {power : Nat} (low : power ≤ 32) :
    (X * wordPolynomial word).coeff power = coefficient (word.toNat.testBit (32 - power)) := by
  cases power with
  | zero =>
      rw [coeff_X_mul_zero, Nat.testBit_lt_two_pow word.toNat_lt]
      rfl
  | succ power =>
      rw [coeff_X_mul, coeff_wordPolynomial _ low, Nat.add_sub_add_right 31 1 power]

theorem wordPolynomial_injective : Function.Injective wordPolynomial := by
  intro left right same
  refine register_ext fun index inside => coefficient_injective ?_
  have low : 31 - index < 32 := by omega
  have place : 31 - (31 - index) = index := by omega
  have coefficients := congrArg (·.coeff (31 - index)) same
  simpa only [coeff_wordPolynomial _ low, place] using coefficients

theorem wordPolynomial_xor (left right : UInt32) :
    wordPolynomial (left ^^^ right) = wordPolynomial left + wordPolynomial right := by
  ext power
  rw [coeff_add]
  rcases Nat.lt_or_ge power 32 with low | high
  · simp only [coeff_wordPolynomial _ low, UInt32.toNat_xor, Nat.testBit_xor, coefficient_xor]
  · simp only [coeff_wordPolynomial_of_le _ high, add_zero]

theorem wordPolynomial_ones : wordPolynomial 0xFFFFFFFF = ones := by
  have set (power : Fin 32) :
      coefficient ((0xFFFFFFFF : UInt32).toNat.testBit (31 - power)) = 1 := by
    revert power
    decide
  rw [wordPolynomial, Polynomial.ofFn_eq_sum_monomial, ones, Finset.sum_range]
  simp only [set, X_pow_eq_monomial]

/-- The polynomial of the shifts is the generator without its highest power. -/
theorem generator_eq : generator = X ^ 32 + wordPolynomial polynomial := by
  -- both sides are sums over the bits that are set
  simp [generator, wordPolynomial, Polynomial.ofFn_eq_sum_monomial, polynomial,
    Fin.sum_univ_succ, coefficient, Nat.testBit, ← X_pow_eq_monomial, add_assoc, add_comm,
    add_left_comm]

theorem monic_generator : generator.Monic := by
  rw [generator_eq]
  exact monic_X_pow_add (degree_wordPolynomial_lt polynomial)

theorem degree_generator : generator.degree = 32 := by
  have lower : (wordPolynomial polynomial).degree < (X ^ 32 : (ZMod 2)[X]).degree := by
    rw [degree_X_pow]
    exact degree_wordPolynomial_lt polynomial
  rw [generator_eq, degree_add_eq_left_of_degree_lt lower, degree_X_pow]
  rfl

end Coefficients

/-! ## Feeding bits -/

section Feeding

/-- **Feeding a bit multiplies by `X` and adds the bit**, up to the generator, which is taken away
if a bit stands at its highest power. -/
theorem wordPolynomial_pushBit (register : UInt32) (bit : Bool) :
    wordPolynomial (pushBit register bit) =
      X * wordPolynomial register + C (coefficient bit) * X ^ 32 +
        C (coefficient (register.toNat.testBit 0 ^^ bit)) * generator := by
  rw [generator_eq, mul_add]
  ext power
  simp only [coeff_add, coeff_C_mul, coeff_X_pow]
  rcases Nat.lt_trichotomy power 32 with low | rfl | high
  · have place : 31 - power + 1 = 32 - power := by omega
    rw [if_neg (Nat.ne_of_lt low), mul_zero, mul_zero, add_zero, zero_add,
      coeff_X_mul_wordPolynomial _ (Nat.le_of_lt low), coeff_wordPolynomial _ low,
      coeff_wordPolynomial _ low, testBit_pushBit, coefficient_xor, coefficient_and, place]
  · -- here the bits that leave and come in meet the highest power of the generator
    rw [coeff_X_mul_wordPolynomial _ (Nat.le_refl 32),
      coeff_wordPolynomial_of_le _ (Nat.le_refl 32),
      coeff_wordPolynomial_of_le _ (Nat.le_refl 32), if_pos rfl, coefficient_xor]
    generalize register.toNat.testBit (32 - 32) = lowest
    revert lowest bit
    decide
  · obtain ⟨power, rfl⟩ := Nat.exists_eq_succ_of_ne_zero (Nat.ne_zero_of_lt high)
    rw [coeff_X_mul, if_neg (Nat.ne_of_gt high),
      coeff_wordPolynomial_of_le _ (Nat.le_of_lt_succ high),
      coeff_wordPolynomial_of_le _ (Nat.le_of_lt high),
      coeff_wordPolynomial_of_le _ (Nat.le_of_lt high)]
    simp only [mul_zero, add_zero]

/-- What a row of bits makes of a register, up to a multiple of the generator. -/
theorem generator_dvd_pushBits (register : UInt32) (bits : List Bool) :
    generator ∣ wordPolynomial (pushBits register bits) -
      (X ^ bits.length * wordPolynomial register + X ^ 32 * rowPolynomial bits) := by
  induction bits generalizing register with
  | nil => simp [pushBits, rowPolynomial]
  | cons bit rest ih =>
      obtain ⟨quotient, later⟩ := ih (pushBit register bit)
      rw [wordPolynomial_pushBit] at later
      refine ⟨quotient + X ^ rest.length * C (coefficient (register.toNat.testBit 0 ^^ bit)), ?_⟩
      rw [rowPolynomial, List.length_cons]
      change wordPolynomial (pushBits (pushBit register bit) rest) - _ = _
      linear_combination later

/-- **A register that has been fed a row of bits is the remainder of a division.** -/
theorem wordPolynomial_pushBits (register : UInt32) (bits : List Bool) :
    wordPolynomial (pushBits register bits) =
      (X ^ bits.length * wordPolynomial register + X ^ 32 * rowPolynomial bits) %ₘ generator := by
  have lower : (wordPolynomial (pushBits register bits)).degree < generator.degree := by
    rw [degree_generator]
    exact degree_wordPolynomial_lt _
  calc wordPolynomial (pushBits register bits)
    _ = wordPolynomial (pushBits register bits) %ₘ generator :=
        ((modByMonic_eq_self_iff monic_generator).mpr lower).symm
    _ = (X ^ bits.length * wordPolynomial register + X ^ 32 * rowPolynomial bits) %ₘ generator :=
        modByMonic_eq_of_dvd_sub monic_generator (generator_dvd_pushBits register bits)

end Feeding

end Crc32

/-! ## The check of a frame -/

/-- A word is the check of a sequence.  The bits of the sequence in the order of the wire, with
thirty-two zeros behind them, make a row; its first thirty-two bits are complemented, the row is
divided by the generator, and the word is the complement of what is left. -/
def IsFrameCheck (data : Bytes) (word : UInt32) : Prop :=
  Crc32.wordPolynomial word = Crc32.ones +
    (X ^ (8 * data.length) * Crc32.ones + X ^ 32 * Crc32.rowPolynomial (Crc32.wireBits data)) %ₘ
      Crc32.generator

/-- **The checksum of a sequence is its check, and no other word is.** -/
theorem isFrameCheck_iff {data : Bytes} {word : UInt32} :
    IsFrameCheck data word ↔ word = checksum data := by
  have remainder : Crc32.wordPolynomial (checksum data) = Crc32.ones +
      (X ^ (8 * data.length) * Crc32.ones +
        X ^ 32 * Crc32.rowPolynomial (Crc32.wireBits data)) %ₘ Crc32.generator := by
    rw [checksum, Crc32.value, Crc32.wordPolynomial_xor, Crc32.register_update,
      Crc32.wordPolynomial_pushBits, Crc32.length_wireBits, Crc32.initial,
      Crc32.wordPolynomial_ones, add_comm]
  rw [IsFrameCheck, ← remainder]
  exact Crc32.wordPolynomial_injective.eq_iff

end Overlay
