import XyronOS.Mm.Addresses

/-!
# Page-table entries

An entry is the raw 64-bit word of the architecture: Present in bit 0, Writable
in bit 1, Page Size in bit 7, the address in bits 51:12 and No-Execute in bit 63.
The accessors and constructors are the kernel's own mask operations. Each gets
its arithmetic reading once; a walk never unfolds a mask.
-/

namespace XyronOS

open WordBits

/-- Permissions a caller of `map` chooses. -/
structure PageFlags where
  writable : Bool
  noExecute : Bool
deriving DecidableEq, Repr

/-- Read-write and executable. -/
def PageFlags.readWrite : PageFlags := ⟨true, false⟩

namespace PageTableEntry

def flagPresent : Nat := 1 <<< 0

def flagWritable : Nat := 1 <<< 1

/-- Bit 7 of a PDPTE or PDE: the entry maps a huge page itself. -/
def flagPageSize : Nat := 1 <<< 7

def flagNoExecute : Nat := 1 <<< 63

/-- Bits 51:12. -/
def addrMask : Nat := 0x000FFFFFFFFFF000

def isPresent (entry : Nat) : Bool := (entry &&& flagPresent) != 0

def rawHasFlag (entry : Nat) (flag : Nat) : Bool := (entry &&& flag) != 0

def addr (entry : Nat) : Nat := entry &&& addrMask

def isWritable (entry : Nat) : Bool := (entry &&& flagWritable) != 0

def isNoExecute (entry : Nat) : Bool := (entry &&& flagNoExecute) != 0

/-- Present, writable pointer to a next-level table. -/
def newTablePointer (address : Nat) : Nat :=
  (address &&& addrMask) ||| flagPresent ||| flagWritable

/-- Present leaf entry with the caller's permissions. -/
def newLeaf (address : Nat) (flags : PageFlags) : Nat :=
  let bits := (address &&& addrMask) ||| flagPresent
  let bits := if flags.writable then bits ||| flagWritable else bits
  if flags.noExecute then bits ||| flagNoExecute else bits

/-- The not-present entry `unmap` writes back. -/
def cleared : Nat := 0

/-- Whether a PDPTE or PDE maps a huge page. -/
def isHuge (entry : Nat) : Bool := rawHasFlag entry flagPageSize

/-- A one-bit flag is one binary digit of the entry. -/
theorem flag_eq (entry : Nat) (position : Nat) :
    ((entry &&& 1 <<< position) != 0) = decide (entry / 2 ^ position % 2 = 1) := by
  rw [Nat.one_shiftLeft, Bool.eq_iff_iff, bne_iff_ne, and_bit_ne_zero, decide_eq_true_iff]

theorem isPresent_eq (entry : Nat) : isPresent entry = decide (entry % 2 = 1) := by
  rw [isPresent, flagPresent, flag_eq, Nat.pow_zero, Nat.div_one]

theorem isWritable_eq (entry : Nat) : isWritable entry = decide (entry / 2 % 2 = 1) := by
  rw [isWritable, flagWritable, flag_eq, Nat.pow_one]

theorem isHuge_eq (entry : Nat) : isHuge entry = decide (entry / 128 % 2 = 1) :=
  flag_eq entry 7

theorem isNoExecute_eq (entry : Nat) :
    isNoExecute entry = decide (entry / 2 ^ 63 % 2 = 1) := flag_eq entry 63

/-- The address field is the entry below bit 52, rounded down to a frame. -/
theorem addr_eq (entry : Nat) : addr entry = entry % 2 ^ 52 / 4096 * 4096 :=
  and_window entry 12 52 (by decide)

/-- The address field of any entry is frame-aligned. -/
theorem addr_aligned (entry : Nat) : addr entry % 4096 = 0 := by
  rw [addr_eq]
  omega

/-- A frame-aligned address below bit 52 survives the mask. -/
theorem addr_of_aligned (address : Nat) (aligned : address % 4096 = 0)
    (bounded : address < 2 ^ 52) : addr address = address := by
  rw [addr_eq]
  omega

/-- A table pointer is the masked address plus its two flags. -/
theorem newTablePointer_eq (address : Nat) : newTablePointer address = addr address + 3 := by
  have joined : newTablePointer address = addr address ||| 3 := by
    simp only [newTablePointer, addr, Nat.or_assoc]
    rfl
  rw [joined, or_eq_add _ 3 12 (addr_aligned address) (by decide)]

/-- A leaf is the masked address plus the flags that are set. -/
theorem newLeaf_eq (address : Nat) (flags : PageFlags) :
    newLeaf address flags = addr address + 1 + (if flags.writable then 2 else 0) +
      (if flags.noExecute then 2 ^ 63 else 0) := by
  have small : addr address < 2 ^ 52 := by
    rw [addr_eq]
    omega
  have low (digits : Nat) (fits : digits < 2 ^ 12) :
      addr address ||| digits = addr address + digits :=
    or_eq_add _ digits 12 (addr_aligned address) fits
  have high (word : Nat) (fits : word < 2 ^ 63) : word ||| 2 ^ 63 = word + 2 ^ 63 := by
    rw [Nat.or_comm, or_eq_add (2 ^ 63) word 63 (by decide) fits, Nat.add_comm]
  have present : (address &&& addrMask) ||| flagPresent = addr address + 1 := low 1 (by decide)
  have both : (address &&& addrMask) ||| flagPresent ||| flagWritable = addr address + 3 :=
    newTablePointer_eq address
  have writableBits : (if flags.writable then (address &&& addrMask) ||| flagPresent ||| flagWritable
      else (address &&& addrMask) ||| flagPresent) =
      addr address + 1 + (if flags.writable then 2 else 0) := by
    split
    · exact both
    · exact present
  simp only [newLeaf, writableBits]
  split
  · exact high _ (by split <;> omega)
  · rfl

/-- A pointer to a frame below 4 GiB is a 64-bit word. -/
theorem newTablePointer_lt (address : Nat) : newTablePointer address < 2 ^ 64 := by
  rw [newTablePointer_eq, addr_eq]
  omega

theorem newTablePointer_present (address : Nat) :
    isPresent (newTablePointer address) = true := by
  rw [isPresent_eq, newTablePointer_eq, decide_eq_true_iff, addr_eq]
  omega

theorem newTablePointer_not_huge (address : Nat) :
    isHuge (newTablePointer address) = false := by
  rw [isHuge_eq, newTablePointer_eq, decide_eq_false_iff_not, addr_eq]
  omega

/-- A table pointer to an aligned address below bit 52 points to that address. -/
theorem addr_newTablePointer (address : Nat) (aligned : address % 4096 = 0)
    (bounded : address < 2 ^ 52) : addr (newTablePointer address) = address := by
  rw [newTablePointer_eq, addr_eq, addr_of_aligned address aligned bounded]
  omega

theorem newLeaf_lt (address : Nat) (flags : PageFlags) : newLeaf address flags < 2 ^ 64 := by
  rw [newLeaf_eq, addr_eq]
  split <;> split <;> omega

theorem newLeaf_present (address : Nat) (flags : PageFlags) :
    isPresent (newLeaf address flags) = true := by
  rw [isPresent_eq, newLeaf_eq, decide_eq_true_iff, addr_eq]
  split <;> split <;> omega

/-- A leaf reports the permissions it was built with. -/
theorem newLeaf_flags (address : Nat) (flags : PageFlags) :
    isWritable (newLeaf address flags) = flags.writable ∧
      isNoExecute (newLeaf address flags) = flags.noExecute := by
  obtain ⟨writable, noExecute⟩ := flags
  rw [isWritable_eq, isNoExecute_eq, newLeaf_eq, addr_eq]
  cases writable <;> cases noExecute <;> simp <;> omega

/-- A leaf for an aligned frame below bit 52 points to that frame. -/
theorem addr_newLeaf (address : Nat) (flags : PageFlags) (aligned : address % 4096 = 0)
    (bounded : address < 2 ^ 52) : addr (newLeaf address flags) = address := by
  rw [newLeaf_eq, addr_eq, addr_of_aligned address aligned bounded]
  split <;> split <;> omega

@[simp] theorem cleared_not_present : isPresent cleared = false := rfl

end PageTableEntry

end XyronOS
