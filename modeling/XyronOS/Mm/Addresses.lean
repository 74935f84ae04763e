import XyronOS.Library.WordBits

/-!
# Physical and virtual addresses

Both address types of the kernel wrap a 64-bit word; here both are natural
numbers, and the namespaces keep the two sets of methods apart. A physical
address is used through its frame number; a virtual address through four 9-bit
table indices and a 12-bit offset. The index methods mask to
nine bits, so an index is below 512 by construction and its type says so.

The last part recovers an address from its digits: two addresses select the same
slots at every level exactly when they agree on bits 47:12.
-/

namespace XyronOS

open WordBits

/-- 4 KiB, the size of a frame and of a page. -/
def frameSize : Nat := 4096

/-- Addresses at or above this are outside the bootloader's identity map. -/
def identityMapLimit : Nat := 0x100000000

namespace PhysAddr

/-- Frame containing an address; an in-frame offset is dropped. -/
def frameNumber (address : Nat) : Nat := address / frameSize

/-- First address of a frame. -/
def fromFrameNumber (frame : Nat) : Nat := frame * frameSize

/-- Frame alignment of an address. -/
def isFrameAligned (address : Nat) : Bool := address % frameSize == 0

@[simp] theorem frameNumber_fromFrameNumber (frame : Nat) :
    frameNumber (fromFrameNumber frame) = frame :=
  Nat.mul_div_cancel frame (by decide)

theorem fromFrameNumber_injective {left right : Nat}
    (same : fromFrameNumber left = fromFrameNumber right) : left = right := by
  simpa using congrArg frameNumber same

/-- An aligned address is the first address of its frame. -/
theorem fromFrameNumber_frameNumber (address : Nat) (aligned : address % frameSize = 0) :
    fromFrameNumber (frameNumber address) = address :=
  Nat.div_mul_cancel (Nat.dvd_of_mod_eq_zero aligned)

end PhysAddr

namespace VirtAddr

/-- Page alignment of an address. -/
def isPageAligned (address : Nat) : Bool := address % frameSize == 0

/-- The nine digits of an address above `shift`, as a table index. -/
def tableIndex (shift : Nat) (address : Nat) : Fin 512 :=
  ⟨(address >>> shift) &&& 0x1FF, Nat.and_lt_two_pow _ (by decide : 0x1FF < 2 ^ 9)⟩

/-- PML4 index, bits 47:39. -/
def pml4Index (address : Nat) : Fin 512 := tableIndex 39 address

/-- PDPT index, bits 38:30. -/
def pdptIndex (address : Nat) : Fin 512 := tableIndex 30 address

/-- PD index, bits 29:21. -/
def pdIndex (address : Nat) : Fin 512 := tableIndex 21 address

/-- PT index, bits 20:12. -/
def ptIndex (address : Nat) : Fin 512 := tableIndex 12 address

/-- Offset inside the page, bits 11:0. -/
def pageOffset (address : Nat) : Nat := address &&& 0xFFF

/-- The four indices in the order a walk consumes them. -/
def indices (address : Nat) : List (Fin 512) :=
  [pml4Index address, pdptIndex address, pdIndex address, ptIndex address]

/-- An index is one base-512 digit of the address. -/
theorem tableIndex_val (shift : Nat) (address : Nat) :
    (tableIndex shift address).val = address / 2 ^ shift % 512 := by
  have digits := and_low (address >>> shift) 9
  simpa [tableIndex, Nat.shiftRight_eq_div_pow] using digits

@[simp] theorem pml4Index_val (address : Nat) :
    (pml4Index address).val = address / 2 ^ 39 % 512 := tableIndex_val 39 address

@[simp] theorem pdptIndex_val (address : Nat) :
    (pdptIndex address).val = address / 2 ^ 30 % 512 := tableIndex_val 30 address

@[simp] theorem pdIndex_val (address : Nat) :
    (pdIndex address).val = address / 2 ^ 21 % 512 := tableIndex_val 21 address

@[simp] theorem ptIndex_val (address : Nat) :
    (ptIndex address).val = address / 2 ^ 12 % 512 := tableIndex_val 12 address

@[simp] theorem pageOffset_eq (address : Nat) : pageOffset address = address % 4096 :=
  and_low address 12

/-- Bits 47:12 of an address: the page a four-level walk distinguishes. -/
def pageNumber (address : Nat) : Nat := address / frameSize % 2 ^ 36

/-- Two addresses take the same slot at every level exactly when they agree on
bits 47:12. Their four digits are the base-512 digits of the page number. -/
theorem indices_eq_iff (left right : Nat) :
    indices left = indices right ↔ pageNumber left = pageNumber right := by
  simp only [indices, List.cons.injEq, and_true, Fin.ext_iff, pml4Index_val, pdptIndex_val,
    pdIndex_val, ptIndex_val, pageNumber, frameSize]
  omega

end VirtAddr

end XyronOS
