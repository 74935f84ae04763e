import Mathlib

/-!
# Byte-addressed memory

A memory gives every address one byte. Multi-byte values are little-endian and
may start at any address, so a word access is defined by its bytes and not by a
separate word array. Loads therefore see exactly the bytes other stores, fills
or copies left there, at whatever granularity those were made.

The laws are pointwise: what one address holds after a store or a fill, and
which loads an update cannot influence. Nothing here knows what the bytes are
used for. Addresses are natural numbers; wrapping of a machine address belongs
to the code that computes it. An access is the address and the width of a load,
kept apart from its value for statements about where a program reads.
-/

namespace XyronOS.ByteMemory

/-- The contents of every address. -/
abbrev Memory := Nat → BitVec 8

/-- Little-endian value of the `width` bytes starting at `address`. -/
def load (memory : Memory) (address : Nat) : Nat → Nat
  | 0 => 0
  | width + 1 => (memory address).toNat + 256 * load memory (address + 1) width

/-- Replace the `width` bytes starting at `address` by the little-endian digits
of `value`. Digits beyond the width are dropped. -/
def store (memory : Memory) (address width value : Nat) : Memory := fun target =>
  if address ≤ target ∧ target < address + width then
    BitVec.ofNat 8 (value / 256 ^ (target - address))
  else memory target

/-- Set `count` bytes starting at `address` to one value. -/
def fill (memory : Memory) (address count : Nat) (value : BitVec 8) : Memory := fun target =>
  if address ≤ target ∧ target < address + count then value else memory target

/-- Replace the bytes starting at `address` by a list of bytes. -/
def storeBytes (memory : Memory) (address : Nat) (bytes : List (BitVec 8)) : Memory :=
  fun target =>
    if address ≤ target ∧ target < address + bytes.length then bytes.getD (target - address) 0
    else memory target

/-- Read a 32-bit value. -/
def load32 (memory : Memory) (address : Nat) : Nat := load memory address 4

/-- Read a 64-bit value. -/
def load64 (memory : Memory) (address : Nat) : Nat := load memory address 8

/-- Write a 64-bit value. -/
def store64 (memory : Memory) (address value : Nat) : Memory := store memory address 8 value

/-- A loaded value fits the number of bytes read. -/
theorem load_lt (memory : Memory) (address width : Nat) :
    load memory address width < 256 ^ width := by
  induction width generalizing address with
  | zero => simp [load]
  | succ width inductionHypothesis =>
    have rest : load memory (address + 1) width < 256 ^ width := inductionHypothesis (address + 1)
    have byte : (memory address).toNat < 256 := (memory address).isLt
    simp only [load, Nat.pow_succ]
    omega

/-- Equal bytes at two places load as equal values. -/
theorem load_shift (left right : Memory) (address other width : Nat)
    (same : ∀ offset < width, left (address + offset) = right (other + offset)) :
    load left address width = load right other width := by
  induction width generalizing address other with
  | zero => rfl
  | succ width inductionHypothesis =>
    have first : left address = right other := same 0 (by omega)
    have rest : load left (address + 1) width = load right (other + 1) width := by
      apply inductionHypothesis
      intro offset inside
      have later := same (offset + 1) (by omega)
      rwa [Nat.add_right_comm address, Nat.add_right_comm other, Nat.add_assoc address,
        Nat.add_assoc other]
    simp only [load, first, rest]

/-- A load depends only on the bytes it covers. -/
theorem load_congr (left right : Memory) (address width : Nat)
    (same : ∀ target, address ≤ target → target < address + width → left target = right target) :
    load left address width = load right address width :=
  load_shift left right address address width
    (fun offset inside => same (address + offset) (by omega) (by omega))

/-- The bytes of a stored value read back as that value, up to the width. -/
theorem load_digits (memory : Memory) (address width value : Nat)
    (digits : ∀ offset, offset < width →
      memory (address + offset) = BitVec.ofNat 8 (value / 256 ^ offset)) :
    load memory address width = value % 256 ^ width := by
  induction width generalizing address value with
  | zero => simp [load, Nat.mod_one]
  | succ width inductionHypothesis =>
    have first : (memory address).toNat = value % 256 := by
      have digit := digits 0 (by omega)
      simp only [Nat.add_zero, Nat.pow_zero, Nat.div_one] at digit
      rw [digit, BitVec.toNat_ofNat]
    have rest : load memory (address + 1) width = (value / 256) % 256 ^ width := by
      apply inductionHypothesis
      intro offset inside
      have digit := digits (offset + 1) (by omega)
      rw [show address + 1 + offset = address + (offset + 1) by omega, digit,
        Nat.div_div_eq_div_mul, Nat.pow_succ, Nat.mul_comm 256]
    simp only [load, first, rest]
    rw [Nat.pow_succ, Nat.mul_comm (256 ^ width) 256, Nat.mod_mul]

/-- Loading exactly what was stored returns the stored value modulo the width. -/
theorem load_store_same (memory : Memory) (address width value : Nat) :
    load (store memory address width value) address width = value % 256 ^ width := by
  apply load_digits
  intro offset inside
  simp [store, inside]

/-- A load from bytes outside a store is unaffected. -/
theorem load_store_disjoint (memory : Memory) (address width value other length : Nat)
    (apart : other + length ≤ address ∨ address + width ≤ other) :
    load (store memory address width value) other length = load memory other length := by
  apply load_congr
  intro target lower upper
  have outside : ¬ (address ≤ target ∧ target < address + width) := by omega
  simp only [store, outside, if_false]

/-- A 64-bit value stored and loaded at one address is unchanged. -/
@[simp] theorem load64_store64_same (memory : Memory) (address value : Nat) :
    load64 (store64 memory address value) address = value % 2 ^ 64 := by
  have same := load_store_same memory address 8 value
  simpa only [load64, store64, show (256 : Nat) ^ 8 = 2 ^ 64 by norm_num] using same

/-- A 64-bit load at least eight bytes away from a 64-bit store is unaffected. -/
theorem load64_store64_apart (memory : Memory) (address value other : Nat)
    (apart : other + 8 ≤ address ∨ address + 8 ≤ other) :
    load64 (store64 memory address value) other = load64 memory other :=
  load_store_disjoint memory address 8 value other 8 apart

/-- A 64-bit store changes no byte outside its eight. -/
theorem store64_outside (memory : Memory) (address value target : Nat)
    (outside : target < address ∨ address + 8 ≤ target) :
    store64 memory address value target = memory target := by
  have missed : ¬ (address ≤ target ∧ target < address + 8) := by omega
  simp only [store64, store, missed, if_false]

/-- A loaded 64-bit value is below `2 ^ 64`. -/
theorem load64_lt (memory : Memory) (address : Nat) : load64 memory address < 2 ^ 64 := by
  have bound := load_lt memory address 8
  simpa only [load64, show (256 : Nat) ^ 8 = 2 ^ 64 by norm_num] using bound

/-- A 64-bit load depends only on its eight bytes. -/
theorem load64_congr (left right : Memory) (address : Nat)
    (same : ∀ target, address ≤ target → target < address + 8 → left target = right target) :
    load64 left address = load64 right address :=
  load_congr left right address 8 same

/-- Storing a list of bytes changes no byte outside its range. -/
theorem storeBytes_outside (memory : Memory) (address target : Nat) (bytes : List (BitVec 8))
    (outside : target < address ∨ address + bytes.length ≤ target) :
    storeBytes memory address bytes target = memory target := by
  have missed : ¬ (address ≤ target ∧ target < address + bytes.length) := by omega
  simp only [storeBytes, missed, if_false]

/-- A fill changes no byte outside its range. -/
theorem fill_outside (memory : Memory) (address count target : Nat) (value : BitVec 8)
    (outside : target < address ∨ address + count ≤ target) :
    fill memory address count value target = memory target := by
  have missed : ¬ (address ≤ target ∧ target < address + count) := by omega
  simp only [fill, missed, if_false]

/-- Store `value index` as the `index`-th of `count` consecutive 64-bit words
starting at `base`, in increasing order. -/
def storeWords (memory : Memory) (base : Nat) (value : Nat → Nat) : Nat → Memory
  | 0 => memory
  | count + 1 => store64 (storeWords memory base value count) (base + 8 * count) (value count)

/-- A sequence of word stores changes no byte outside the words it covers. -/
theorem storeWords_outside (memory : Memory) (base : Nat) (value : Nat → Nat) (count target : Nat)
    (outside : target < base ∨ base + 8 * count ≤ target) :
    storeWords memory base value count target = memory target := by
  induction count with
  | zero => rfl
  | succ count inductionHypothesis =>
    rw [storeWords, store64_outside _ _ _ _ (by omega)]
    exact inductionHypothesis (by omega)

/-- Each stored word reads back as its own value: later words of the sequence do
not reach it. -/
theorem load64_storeWords (memory : Memory) (base : Nat) (value : Nat → Nat) (count index : Nat)
    (inside : index < count) :
    load64 (storeWords memory base value count) (base + 8 * index) = value index % 2 ^ 64 := by
  induction count with
  | zero => omega
  | succ count inductionHypothesis =>
    rw [storeWords]
    by_cases last : index = count
    · subst last
      exact load64_store64_same _ _ _
    · rw [load64_store64_apart _ _ _ _ (by omega)]
      exact inductionHypothesis (by omega)

/-- Consecutive bytes that are read at once. -/
structure Access where
  address : Nat
  width : Nat
deriving DecidableEq, Repr

/-- Every byte of the access lies in the range of `size` bytes from `base` on. -/
def Access.Inside (base size : Nat) (access : Access) : Prop :=
  base ≤ access.address ∧ access.address + access.width ≤ base + size

instance (base size : Nat) (access : Access) : Decidable (access.Inside base size) :=
  inferInstanceAs (Decidable (_ ∧ _))

end XyronOS.ByteMemory
