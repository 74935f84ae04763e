import Mathlib

/-!
# Masks and alignment of fixed-width words

Machine words are natural numbers below a power of two. The code this library
serves manipulates them with AND masks, OR combinations and power-of-two
rounding; the lemmas restate those operations as division, remainder and
addition, in which bounds are linear arithmetic.

A low mask is a remainder, a high mask is rounding down, a single-bit mask is
one binary digit, and an OR of values with separate digits is their sum.
-/

namespace XyronOS.WordBits

/-- Wrapping addition of 64-bit words. -/
def wrappingAdd (left right : Nat) : Nat := (left + right) % 2 ^ 64

/-- Wrapping subtraction of 64-bit words. -/
def wrappingSub (left right : Nat) : Nat := (left + (2 ^ 64 - right)) % 2 ^ 64

/-- Addition that reports a result outside 64 bits. -/
def checkedAdd (left right : Nat) : Option Nat :=
  if left + right < 2 ^ 64 then some (left + right) else none

/-- Multiplication that reports a result outside 64 bits. -/
def checkedMul (left right : Nat) : Option Nat :=
  if left * right < 2 ^ 64 then some (left * right) else none

/-- Addition that stops at the largest 64-bit word. -/
def saturatingAdd (left right : Nat) : Nat := min (left + right) (2 ^ 64 - 1)

/-- Bitwise complement of a 64-bit word. -/
def complement (word : Nat) : Nat := 2 ^ 64 - 1 - word

/-- Without a carry out of 64 bits, wrapping addition is addition. -/
theorem wrappingAdd_eq (left right : Nat) (fits : left + right < 2 ^ 64) :
    wrappingAdd left right = left + right := Nat.mod_eq_of_lt fits

/-- Without a borrow, wrapping subtraction is subtraction. -/
theorem wrappingSub_eq (left right : Nat) (ordered : right ≤ left) (fits : left < 2 ^ 64) :
    wrappingSub left right = left - right := by
  have rearranged : left + (2 ^ 64 - right) = (left - right) + 2 ^ 64 := by omega
  rw [wrappingSub, rearranged, Nat.add_mod_right, Nat.mod_eq_of_lt (by omega)]

/-- Testing a word against a one-bit mask reads one binary digit. -/
theorem and_bit_ne_zero (word position : Nat) :
    (word &&& 2 ^ position ≠ 0) ↔ word / 2 ^ position % 2 = 1 := by
  rw [Nat.and_two_pow, ← Nat.toNat_testBit]
  cases word.testBit position <;> simp

/-- A mask keeping the digits from `low` up to `high` rounds the remainder
modulo `2 ^ high` down to a multiple of `2 ^ low`. -/
theorem and_window (word low high : Nat) (ordered : low ≤ high) :
    word &&& (2 ^ high - 2 ^ low) = word % 2 ^ high / 2 ^ low * 2 ^ low := by
  apply Nat.eq_of_testBit_eq
  intro position
  have positive : 0 < 2 ^ low := Nat.two_pow_pos low
  have below : 2 ^ low - 1 < 2 ^ high := by
    have grows : 2 ^ low ≤ 2 ^ high := Nat.pow_le_pow_right (by decide) ordered
    omega
  have mask : 2 ^ high - 2 ^ low = 2 ^ high - ((2 ^ low - 1) + 1) := by omega
  rw [Nat.testBit_and, mask, Nat.testBit_two_pow_sub_succ below, Nat.testBit_two_pow_sub_one,
    Nat.testBit_mul_two_pow, Nat.testBit_div_two_pow, Nat.testBit_mod_two_pow]
  by_cases reached : low ≤ position
  · rw [Nat.sub_add_cancel reached]
    simp [reached, show ¬ position < low by omega, Bool.and_comm]
  · simp [reached, show position < low by omega]

/-- Clearing the low digits of a 64-bit word rounds it down. -/
theorem and_complement_low (word bits : Nat) (width : bits ≤ 64) (bounded : word < 2 ^ 64) :
    word &&& complement (2 ^ bits - 1) = word / 2 ^ bits * 2 ^ bits := by
  have positive : 0 < 2 ^ bits := Nat.two_pow_pos bits
  have mask : complement (2 ^ bits - 1) = 2 ^ 64 - 2 ^ bits := by
    unfold complement
    omega
  rw [mask, and_window word bits 64 width, Nat.mod_eq_of_lt bounded]

/-- A low mask is a remainder. -/
theorem and_low (word bits : Nat) : word &&& (2 ^ bits - 1) = word % 2 ^ bits :=
  Nat.and_two_pow_sub_one_eq_mod word bits

/-- An OR of a multiple of `2 ^ bits` with a smaller value is their sum. -/
theorem or_eq_add (high low bits : Nat) (aligned : high % 2 ^ bits = 0) (small : low < 2 ^ bits) :
    high ||| low = high + low := by
  obtain ⟨quotient, rfl⟩ := Nat.dvd_of_mod_eq_zero aligned
  exact (Nat.two_pow_add_eq_or_of_lt small quotient).symm

/-- An OR with a value shifted past a smaller one is a sum. -/
theorem or_shiftLeft (low value bits : Nat) (small : low < 2 ^ bits) :
    low ||| value <<< bits = low + 2 ^ bits * value := by
  rw [Nat.or_comm, Nat.shiftLeft_eq, or_eq_add _ _ bits (Nat.mul_mod_left ..) small, Nat.add_comm,
    Nat.mul_comm]

/-- Smallest multiple of `alignment` at or above `value`, in unbounded arithmetic. -/
def roundUp (value alignment : Nat) : Nat := (value + (alignment - 1)) / alignment * alignment

/-- Rounding up returns a multiple of the alignment. -/
theorem roundUp_aligned (value alignment : Nat) : roundUp value alignment % alignment = 0 :=
  Nat.mul_mod_left _ _

/-- Rounding up never goes below the value. -/
theorem le_roundUp (value alignment : Nat) (positive : 0 < alignment) :
    value ≤ roundUp value alignment := by
  have exact : (value + (alignment - 1)) / alignment * alignment +
      (value + (alignment - 1)) % alignment = value + (alignment - 1) :=
    Nat.div_add_mod' _ _
  have rest : (value + (alignment - 1)) % alignment < alignment := Nat.mod_lt _ positive
  unfold roundUp
  omega

/-- Rounding up adds less than one alignment unit. -/
theorem roundUp_lt (value alignment : Nat) (positive : 0 < alignment) :
    roundUp value alignment < value + alignment := by
  have bound : (value + (alignment - 1)) / alignment * alignment ≤ value + (alignment - 1) :=
    Nat.div_mul_le_self _ _
  unfold roundUp
  omega

/-- Rounding up is the least multiple at or above the value. -/
theorem roundUp_le (value alignment bound : Nat) (positive : 0 < alignment)
    (above : value ≤ bound) (aligned : bound % alignment = 0) :
    roundUp value alignment ≤ bound := by
  obtain ⟨quotient, rfl⟩ := Nat.dvd_of_mod_eq_zero aligned
  have small : (value + (alignment - 1)) / alignment ≤ quotient := by
    rw [Nat.div_le_iff_le_mul_add_pred positive]
    omega
  unfold roundUp
  calc (value + (alignment - 1)) / alignment * alignment
      ≤ quotient * alignment := Nat.mul_le_mul_right _ small
    _ = alignment * quotient := Nat.mul_comm _ _

/-- The masked form of rounding up used on machine words: for a power of two and
no carry out of 64 bits it is exactly `roundUp`. -/
theorem masked_roundUp (value bits : Nat) (width : bits ≤ 64)
    (fits : value + (2 ^ bits - 1) < 2 ^ 64) :
    (value + (2 ^ bits - 1)) &&& complement (2 ^ bits - 1) = roundUp value (2 ^ bits) :=
  and_complement_low _ bits width fits

end XyronOS.WordBits
