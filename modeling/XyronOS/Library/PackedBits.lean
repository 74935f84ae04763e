import Mathlib

/-!
# Bits packed into bytes

Bit `index` of a byte list is digit `index % 8` of byte `index / 8`. It is tested
with an AND mask, set with an OR mask and cleared with the complemented mask. The
laws give the exact effect of each update on every bit; the one storage premise
is that the addressed byte exists, so that a default read cannot hide a missing
byte.
-/

namespace XyronOS.PackedBits

/-- Byte at a position, zero past the end. -/
def byteAt (bytes : List (BitVec 8)) (position : Nat) : BitVec 8 := bytes.getD position 0#8

/-- Test one bit with an AND mask. -/
def test (bytes : List (BitVec 8)) (index : Nat) : Bool :=
  (byteAt bytes (index / 8) &&& (1#8 <<< (index % 8))) != 0#8

/-- Set one bit with an OR mask. -/
def set (bytes : List (BitVec 8)) (index : Nat) : List (BitVec 8) :=
  bytes.set (index / 8) (byteAt bytes (index / 8) ||| (1#8 <<< (index % 8)))

/-- Clear one bit with a complemented AND mask. -/
def clear (bytes : List (BitVec 8)) (index : Nat) : List (BitVec 8) :=
  bytes.set (index / 8) (byteAt bytes (index / 8) &&& ~~~(1#8 <<< (index % 8)))

@[simp] theorem length_set (bytes : List (BitVec 8)) (index : Nat) :
    (set bytes index).length = bytes.length := by simp [set]

@[simp] theorem length_clear (bytes : List (BitVec 8)) (index : Nat) :
    (clear bytes index).length = bytes.length := by simp [clear]

/-- A one-bit AND mask reads one binary digit of the byte. -/
theorem mask_digit (byte : BitVec 8) (position : Nat) (inside : position < 8) :
    ((byte &&& (1#8 <<< position)) != 0#8) = byte.getLsbD position := by
  have masked : byte &&& (1#8 <<< position) =
      if byte.getLsbD position then BitVec.twoPow 8 position else 0#8 := by
    rw [← BitVec.twoPow_eq, BitVec.and_twoPow]
  have lit : (BitVec.twoPow 8 position).getLsbD position = true := by simp [inside]
  rw [masked]
  by_cases digit : byte.getLsbD position = true
  · rw [if_pos digit, digit, bne_iff_ne]
    intro blank
    simp [blank] at lit
  · simp [digit]

/-- Testing a bit reads its digit. -/
theorem test_eq (bytes : List (BitVec 8)) (index : Nat) :
    test bytes index = (byteAt bytes (index / 8)).getLsbD (index % 8) :=
  mask_digit _ _ (Nat.mod_lt _ (by decide))

/-- Reading a byte after replacing one. -/
theorem byteAt_set (bytes : List (BitVec 8)) (position other : Nat) (byte : BitVec 8)
    (stored : position < bytes.length) :
    byteAt (bytes.set position byte) other =
      if other = position then byte else byteAt bytes other := by
  by_cases same : other = position
  · subst same
    simp [byteAt, List.getD_eq_getElem?_getD, stored]
  · simp [byteAt, List.getD_eq_getElem?_getD, List.getElem?_set_ne (Ne.symm same), same]

/-- Setting a stored bit changes exactly that bit. -/
theorem test_set (bytes : List (BitVec 8)) (index tested : Nat)
    (stored : index / 8 < bytes.length) :
    test (set bytes index) tested = (test bytes tested || decide (tested = index)) := by
  rw [test_eq, test_eq, set, byteAt_set _ _ _ _ stored]
  by_cases sameByte : tested / 8 = index / 8
  · have sameBit : tested % 8 = index % 8 ↔ tested = index := by omega
    rw [if_pos sameByte, sameByte, BitVec.getLsbD_or, ← BitVec.twoPow_eq, BitVec.getLsbD_twoPow]
    simp [Nat.mod_lt _ (by decide : 0 < 8), ← sameBit, eq_comm]
  · have distinct : tested ≠ index := by
      intro same
      exact sameByte (same ▸ rfl)
    simp [sameByte, distinct]

/-- Clearing a stored bit changes exactly that bit. -/
theorem test_clear (bytes : List (BitVec 8)) (index tested : Nat)
    (stored : index / 8 < bytes.length) :
    test (clear bytes index) tested = (test bytes tested && decide (tested ≠ index)) := by
  rw [test_eq, test_eq, clear, byteAt_set _ _ _ _ stored]
  by_cases sameByte : tested / 8 = index / 8
  · have sameBit : tested % 8 = index % 8 ↔ tested = index := by omega
    rw [if_pos sameByte, sameByte, BitVec.getLsbD_and, BitVec.getLsbD_not, ← BitVec.twoPow_eq,
      BitVec.getLsbD_twoPow]
    simp [Nat.mod_lt _ (by decide : 0 < 8), ← sameBit, eq_comm]
  · have distinct : tested ≠ index := by
      intro same
      exact sameByte (same ▸ rfl)
    simp [sameByte, distinct]

/-- Every bit of an all-ones list is set. -/
theorem test_replicate_ones (count index : Nat) (inside : index / 8 < count) :
    test (List.replicate count 0xFF#8) index = true := by
  have byte : byteAt (List.replicate count 0xFF#8) (index / 8) = 0xFF#8 := by
    simp [byteAt, List.getD_eq_getElem?_getD, inside]
  have digits : ∀ position : Fin 8, (0xFF#8).getLsbD position = true := by decide
  rw [test_eq, byte]
  exact digits ⟨index % 8, Nat.mod_lt _ (by decide)⟩

end XyronOS.PackedBits
