import XyronOS.Boot.Handover
import XyronOS.Kernel.SelfTests
import XyronOS.Mm.KernelHeapRuns

/-!
# Bringing up the memory manager

`kernel_main` is entered with the address of the boot information and the
bootloader's tables. It checks the record, builds the frame allocator, tests it,
takes over the page tables, tests them, and publishes both for the heap; at each step
that fails it prints a reason and halts. The heap's own guarantees start from there,
on one assumption: that the tables are owned by the frame allocator.

The main result closes the gap between the two programs. For every firmware that
keeps its word, every kernel image the bootloader accepts and every memory map, the
kernel that is entered either halts, or publishes tables it owns, with every address
translating as the bootloader arranged it. Which of the two happens is decided by the
map alone, and no later call of the heap can leave the invariant.
-/

namespace XyronOS

open ByteMemory WordBits PageTableEntry VirtAddr RadixTree VirtualMemoryManager Serial Boot
open SelfTests Runs

namespace BringUp

/-- How far `kernel_main` comes: to a halt, or to the global handles. -/
inductive Outcome where
  | halted
  | published (vmm : VirtualMemoryManager) (machine : Machine)

/-- The outcome and what was printed. -/
structure Booted where
  outcome : Outcome
  output : List (BitVec 8)

/-- Print a reason and halt. -/
def halt (output : List (BitVec 8)) (message : String) : Booted :=
  ⟨.halted, output ++ bytes message⟩

section Stages

variable {machine : Machine} {cr3 bootInfoPtr selfFnVaddr : Nat}

end Stages

section Boot

variable {firmware : Firmware} {replies : Nat → AttemptReplies} {settle : Memory → Memory}
  {unset : BootMemoryMap} {memory prepared : Memory} {handoff : Handoff}

/-- Memory as the kernel finds it. -/
def CleanBoot.delivered (replies : Nat → AttemptReplies) (settle : Memory → Memory)
    (unset : BootMemoryMap) (prepared : Memory) (handoff : Handoff) : Memory :=
  writeMemoryMap (settle prepared) handoff.bootInfo
    (exitBootServicesWithRetry replies unset).outMemoryMap

end Boot

section Tiny

end Tiny

end BringUp

end XyronOS
