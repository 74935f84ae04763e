import XyronOS.Library.ByteMemory
import XyronOS.Mm.Addresses

/-!
# The firmware's memory map

The bootloader leaves the UEFI memory map as raw bytes and passes its address, its
descriptor size and its number of entries. An entry is read at fixed offsets from
a firmware-chosen stride. Nothing is assumed about the contents: an entry counts
only if it is not empty, starts on a frame and does not overflow.
-/

namespace XyronOS

open ByteMemory WordBits

/-- The one memory type the allocator ever treats as free. -/
def efiConventionalMemory : Nat := 7

/-- The handed-over fields that describe the memory map. -/
structure BootInfo where
  memoryMapPhysAddr : Nat
  memoryMapSizeBytes : Nat
  memoryMapDescriptorSize : Nat
  memoryMapEntryCount : Nat
deriving DecidableEq, Repr

/-- One parsed entry. -/
structure MemoryMapEntry where
  typ : Nat
  physicalStart : Nat
  numberOfPages : Nat
deriving DecidableEq, Repr

namespace MemoryMapEntry

/-- End of the region, unless its size or its end overflows. -/
def endAddr (entry : MemoryMapEntry) : Option Nat :=
  (checkedMul entry.numberOfPages frameSize).bind (checkedAdd entry.physicalStart)

/-- The three checks every pass makes before it trusts an entry. -/
def Valid (entry : MemoryMapEntry) (stop : Nat) : Prop :=
  entry.numberOfPages ≠ 0 ∧ entry.physicalStart % frameSize = 0 ∧ entry.endAddr = some stop

/-- The end of a valid entry is its start plus its pages. -/
theorem endAddr_eq {entry : MemoryMapEntry} {stop : Nat} (fits : entry.endAddr = some stop) :
    stop = entry.physicalStart + entry.numberOfPages * frameSize ∧ stop < 2 ^ 64 := by
  unfold endAddr checkedMul checkedAdd at fits
  split at fits
  · rename_i small
    simp only [Option.bind_some] at fits
    split at fits
    · rename_i bounded
      have same := Option.some.inj fits
      omega
    · cases fits
  · cases fits

end MemoryMapEntry

namespace MemoryMapIter

/-- Address of an entry's first byte. -/
def entryPtr (bootInfo : BootInfo) (index : Nat) : Nat :=
  bootInfo.memoryMapPhysAddr + index * bootInfo.memoryMapDescriptorSize

/-- Read one entry at its fixed offsets. -/
def entryAt (memory : Memory) (bootInfo : BootInfo) (index : Nat) : MemoryMapEntry where
  typ := load32 memory (entryPtr bootInfo index)
  physicalStart := load64 memory (entryPtr bootInfo index + 8)
  numberOfPages := load64 memory (entryPtr bootInfo index + 24)

/-- The entries in the order the iterator yields them. -/
def entries (memory : Memory) (bootInfo : BootInfo) : List MemoryMapEntry :=
  (List.range bootInfo.memoryMapEntryCount).map (entryAt memory bootInfo)

/-- Reads of one entry. -/
def entryReads (bootInfo : BootInfo) (index : Nat) : List Access :=
  [⟨entryPtr bootInfo index, 4⟩, ⟨entryPtr bootInfo index + 8, 8⟩,
    ⟨entryPtr bootInfo index + 24, 8⟩]

/-- An entry depends only on the bytes that are read of it. -/
theorem entryAt_reads_congr {memory memory' : Memory} {bootInfo : BootInfo} {index : Nat}
    (same : ∀ access ∈ entryReads bootInfo index, ∀ target, access.address ≤ target →
      target < access.address + access.width → memory' target = memory target) :
    entryAt memory' bootInfo index = entryAt memory bootInfo index := by
  simp only [entryReads, List.forall_mem_cons] at same
  obtain ⟨sameType, sameStart, samePages, -⟩ := same
  simp only [entryAt, MemoryMapEntry.mk.injEq]
  exact ⟨load_congr _ _ _ _ sameType, load64_congr _ _ _ sameStart, load64_congr _ _ _ samePages⟩

/-- The bytes read of an entry are among the 32 from its first one. -/
theorem entryReads_window {bootInfo : BootInfo} {index : Nat} {access : Access}
    (read : access ∈ entryReads bootInfo index) :
    entryPtr bootInfo index ≤ access.address ∧
      access.address + access.width ≤ entryPtr bootInfo index + 32 := by
  simp only [entryReads, List.mem_cons, List.not_mem_nil, or_false] at read
  obtain rfl | rfl | rfl := read <;> simp

end MemoryMapIter

end XyronOS
