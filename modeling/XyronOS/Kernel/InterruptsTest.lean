import XyronOS.Arch.ExceptionRuns
import XyronOS.Mm.KernelAccess
import XyronOS.Sync.KernelLocks

/-!
# The self-test of interrupts and exceptions

The last thing the kernel does on boot. It executes a breakpoint and reports that it
goes on; it maps a page read-only and writes to it, which is meant to end in the
handler for page faults. If no frame is left, or the page cannot be mapped, an `expect`
panics. The panic handler prints where, and not what.

Two models meet here. The exceptions are those of the exception runs, and which stack
addresses take a frame is no longer an assumption: it is what the page tables say that
the kernel has at that moment. The tables still have every page the bootloader made, so
that a stack the bootloader mapped is enough for both exceptions. That the stack is at
canonical addresses is taken for granted.

The two models keep their own memories. The machine has the physical one, with the page
tables; the kernel has the bytes that exceptions read and write, by the addresses they
use. A push changes the second only and the write to the test page the first only: that
no handler's frame lies on a page table is not part of the model.

What the write shows rests on `CR0.WP`, a bit the kernel inherits and never sets. With
the bit set the fault is reported, with the address and the cause the test is after.
With the bit clear the byte is written and the kernel halts without a word.

Registers and stack contents at the write are those of compiled code and left open.
-/

namespace XyronOS

open ByteMemory WordBits PageTableEntry VirtAddr VirtualMemoryManager Runs Interrupts
open ExceptionRuns KernelAccess Serial Boot
open KernelCalls (readonlyTestVaddr)

namespace InterruptsTest

/-- The permissions of the test page. -/
def readonlyFlags : PageFlags := ⟨false, false⟩

/-- What the panic handler prints; it leaves the message out. -/
def panicText (file : String) (line : Nat) : List (BitVec 8) :=
  bytes "\r\n!!! KERNEL PANIC !!!\r\n" ++ bytes "Location: " ++ bytes file ++ bytes ":" ++
    hex64 line ++ bytes "\r\n"

/-- The physical machine, and the kernel as exceptions see it. -/
structure System where
  machine : Machine
  kernel : Kernel

/-- Print a text. -/
def print (kernel : Kernel) (text : List (BitVec 8)) : Kernel :=
  { kernel with output := kernel.output ++ text }

/-- Print the place of a panic and halt. -/
def panic (kernel : Kernel) (file : String) (line : Nat) : Kernel :=
  { print kernel (panicText file line) with status := .halted }

/-- The error code of a push to an address on the current tables, if it is refused. -/
def stackAccess (control : Control) (vmm : VirtualMemoryManager) (memory : Memory)
    (address : Nat) : Option Nat :=
  match pageAccess control memory vmm.pml4Phys address .write with
  | .ok _ => none
  | .error code => some code

/-- An event strikes, on the current tables. -/
def strike (control : Control) (vmm : VirtualMemoryManager) (system : System)
    (event : Interrupt) : Kernel :=
  struck system.kernel (deliver (stackAccess control vmm system.machine.memory)
    system.kernel.cpu system.kernel.memory event)

/-- Let the handler on top, if there is one, come to its end. -/
def endHandler (kernel : Kernel) : Kernel :=
  match kernel.active with
  | [] => kernel
  | activation :: rest => finish kernel activation rest

/-- The block under both locks: allocate a frame and map the test page. An error is the
line of the `expect` that fails. -/
def mapReadonlyPage (vmm : VirtualMemoryManager) (machine : Machine) : Except Nat Nat × Machine :=
  match machine.frames.allocate with
  | (none, frames) => (.error 614, { machine with frames := frames })
  | (some testFrame, frames) =>
    match vmm.map { machine with frames := frames } readonlyTestVaddr testFrame
      readonlyFlags with
    | (.ok _, machine) => (.ok testFrame, machine)
    | (.error _, machine) => (.error 620, machine)

/-- A volatile write of one byte: it reaches memory, or an exception strikes. -/
def writeVolatile (control : Control) (vmm : VirtualMemoryManager) (system : System)
    (virt : Nat) (value : BitVec 8) : System :=
  match access control system.machine.memory vmm.pml4Phys virt .write with
  | .ok phys =>
      { system with machine := { system.machine with
        memory := Function.update system.machine.memory phys value } }
  | .error (.pageFault code) =>
      { system with kernel := strike control vmm system ⟨14, some code, some virt, false⟩ }
  | .error .generalProtection =>
      { system with kernel := strike control vmm system ⟨13, some 0, none, false⟩ }

/-- What comes after the write: the handler's end if one was entered, the loop of `hlt`
otherwise. -/
def afterWrite (kernel : Kernel) : Kernel :=
  match kernel.status, kernel.active with
  | .running, [] => { kernel with status := .halted }
  | .running, activation :: rest => finish kernel activation rest
  | _, _ => kernel

/-- The lines up to the breakpoint. -/
def startText : List (BitVec 8) :=
  bytes "\r\nRunning interrupts/exceptions boot self-test...\r\n" ++
  bytes "  Triggering INT3 (breakpoint)...\r\n"

/-- The lines after the breakpoint. -/
def resumedText : List (BitVec 8) :=
  bytes "  [OK] Execution resumed correctly after the breakpoint handler returned.\r\n" ++
  bytes "\r\nInterrupts/exceptions boot self-test (non-fatal path): PASSED.\r\n" ++
  bytes "INTERRUPTS AND EXCEPTIONS SUBSYSTEM: GDT, IDT, and breakpoint\r\n" ++
  bytes "(non-fatal exception) round-trip all verified.\r\n" ++
  bytes "\r\nMapping a read-only test page, then deliberately writing to it\r\n" ++
  bytes "to verify WRITABLE=false is actually enforced by the CPU\r\n" ++
  bytes "(closing a gap left unverified since the VMM milestone).\r\n" ++
  bytes "(The kernel will halt via the page fault handler — this is expected.)\r\n"

/-- The second half: map the page and write to it; `later` are the registers and the memory
of the kernel at the write. -/
def testReadonlyPage (file : String) (control : Control) (vmm : VirtualMemoryManager)
    (system : System) (later : Cpu × Memory) : System :=
  match mapReadonlyPage vmm system.machine with
  | (.error line, machine) => ⟨machine, panic system.kernel file line⟩
  | (.ok _, machine) =>
    let written := writeVolatile control vmm
      ⟨machine, { system.kernel with cpu := later.1, memory := later.2 }⟩ readonlyTestVaddr 0xFF
    { written with kernel := afterWrite written.kernel }

/-- `run_interrupts_boot_self_test`, with the registers of the kernel right after the
breakpoint instruction. -/
def runInterruptsBootSelfTest (file : String) (control : Control) (vmm : VirtualMemoryManager)
    (system : System) (later : Cpu × Memory) : System :=
  let kernel := print system.kernel startText
  let kernel := endHandler (strike control vmm { system with kernel := kernel } int3)
  if kernel.status ≠ .running then { system with kernel := kernel }
  else
    testReadonlyPage file control vmm { system with kernel := print kernel resumedText } later

/-! ### The block under the locks -/

/-- The first free frame can be mapped at an address: nothing is mapped there, and beside
the frame enough low frames are free for the tables missing on the way. -/
structure CanMapAt (vmm : VirtualMemoryManager) (machine : Machine) (virt frame : Nat) : Prop where
  scanned : machine.frames.scanFrom = some frame
  absent : lookup machine.memory vmm.pml4Phys virt = none
  enough : missingTables machine.memory vmm.pml4Phys virt ≤
    ((machine.frames.freeBelow identityMapLimit).erase frame).card

/-- The three outcomes of the block. The machine it leaves is that of two requests. -/
theorem mapReadonlyPage_cases {vmm : VirtualMemoryManager} {runtime : Runtime}
    (owned : Owned vmm runtime.machine) :
    let mapped := mapReadonlyPage vmm runtime.machine
    (runtime.machine.frames.freeFrames = ∅ ∧ mapped.1 = .error 614) ∨
    (runtime.machine.frames.freeFrames ≠ ∅ ∧
      (¬ ∃ frame, CanMapAt vmm runtime.machine readonlyTestVaddr frame) ∧
      mapped.1 = .error 620) ∨
    ∃ frame, CanMapAt vmm runtime.machine readonlyTestVaddr frame ∧
      mapped.1 = .ok (PhysAddr.fromFrameNumber frame) ∧
      mapped.2 = (serve vmm (serve vmm runtime .allocate)
        (.map readonlyTestVaddr (PhysAddr.fromFrameNumber frame) readonlyFlags)).machine ∧
      lookup mapped.2.memory vmm.pml4Phys readonlyTestVaddr =
        some ⟨3, newLeaf (PhysAddr.fromFrameNumber frame) readonlyFlags⟩ := by
  obtain ⟨frame, frames, allocated, scanned, takes⟩ | ⟨refused, -, none⟩ :=
    FrameAllocator.allocate_cases owned.consistent
  · have free : runtime.machine.frames.freeFrames ≠ ∅ :=
      Finset.ne_empty_of_mem takes.free
    have left : frames.freeBelow identityMapLimit =
        (runtime.machine.frames.freeBelow identityMapLimit).erase frame := by
      simp only [FrameAllocator.freeBelow, takes.freeFrames, Finset.filter_erase]
    have kept : Owned vmm { runtime.machine with frames := frames } := by
      apply owned.replace_frames takes.consistent
      intro table reached
      rw [takes.usedFrames]
      exact Finset.mem_insert_of_mem (owned.used table reached)
    rcases result : vmm.map { runtime.machine with frames := frames } readonlyTestVaddr
      (PhysAddr.fromFrameNumber frame) readonlyFlags with ⟨error | _, after⟩
    · refine Or.inr (Or.inl ⟨free, ?_, by simp [mapReadonlyPage, allocated, result]⟩)
      rintro ⟨other, can⟩
      obtain rfl : other = frame := Option.some.inj (can.scanned.symm.trans scanned)
      obtain present | short := kept.map_error_cause result (by decide) (Nat.mul_mod_left _ _)
      · exact present can.absent
      · have enough := can.enough
        rw [left] at short
        exact Nat.not_lt.mpr enough short
    · obtain ⟨-, -, absent, looked, added, updated, count⟩ := kept.map_ok result
      have enough : missingTables runtime.machine.memory vmm.pml4Phys readonlyTestVaddr ≤
          ((runtime.machine.frames.freeBelow identityMapLimit).erase frame).card := by
        rw [← left]
        exact count ▸ updated.card_freeBelow ▸ Nat.le_add_left _ _
      refine Or.inr (Or.inr ⟨frame, ⟨scanned, absent, enough⟩, ?_, ?_, ?_⟩)
      · simp [mapReadonlyPage, allocated, result]
      · simp [mapReadonlyPage, allocated, result, serve]
      · simp only [mapReadonlyPage, allocated, result]
        rw [looked, if_pos rfl]
  · exact Or.inl ⟨none, by simp [mapReadonlyPage, refused]⟩

/-- The block is the call the kernel's threads make on the two statics, run alone. -/
theorem mapReadOnlyPage_runAlone {globals : KernelCalls.Globals} {machine : Machine}
    {vmm : VirtualMemoryManager} (present : KernelCalls.machine globals = some machine)
    (published : globals .vmm = some vmm) :
    KernelCalls.mapReadOnlyPage.runAlone globals =
      ((mapReadonlyPage vmm machine).1.toOption.map fun _ => .unit,
        KernelCalls.putMachine globals (mapReadonlyPage vmm machine).2) := by
  obtain ⟨frames, here, rfl⟩ := Option.map_eq_some_iff.1 present
  simp only [KernelCalls.mapReadOnlyPage, Locking.Program.runAlone, id_eq, present, here,
    published, Option.elim_some, mapReadonlyPage]
  rcases frames.allocate with ⟨_ | testFrame, left⟩
  · rfl
  · have allocated : KernelCalls.machine (KernelCalls.putMachine globals
        ⟨(globals .heap).memory, left⟩) = some ⟨(globals .heap).memory, left⟩ := rfl
    simp only [Option.elim_some, Locking.Program.runAlone, allocated, readonlyFlags,
      KernelCalls.putMachine_putMachine]
    rcases vmm.map ⟨(globals .heap).memory, left⟩ readonlyTestVaddr testFrame ⟨false, false⟩ with
      ⟨_ | _, after⟩ <;> rfl

/-- The second half goes by the answer of the block. -/
theorem testReadonlyPage_eq (file : String) (control : Control) (vmm : VirtualMemoryManager)
    (system : System) (later : Cpu × Memory) :
    testReadonlyPage file control vmm system later =
      match (mapReadonlyPage vmm system.machine).1 with
      | .error line => ⟨(mapReadonlyPage vmm system.machine).2, panic system.kernel file line⟩
      | .ok _ =>
        let written := writeVolatile control vmm ⟨(mapReadonlyPage vmm system.machine).2,
          { system.kernel with cpu := later.1, memory := later.2 }⟩ readonlyTestVaddr 0xFF
        { written with kernel := afterWrite written.kernel } := by
  unfold testReadonlyPage
  rcases mapReadonlyPage vmm system.machine with ⟨_ | _, machine⟩ <;> rfl

/-! ### Exceptions on the kernel's tables -/

/-- The registers a report prints. -/
def registers (cpu : Cpu) : Exceptions.InterruptStackFrame :=
  ⟨cpu.rip, cpu.cs, cpu.rflags, cpu.rsp, cpu.ss⟩

/-- The current stack takes a frame: it is on pages the bootloader has mapped, and clear
of the descriptor tables. -/
structure OnBootStack (site : TableSite) (vmm : VirtualMemoryManager) (boot : Memory)
    (cpu : Cpu) : Prop where
  space : 48 ≤ aligned cpu.rsp
  clear : site.Clear (aligned cpu.rsp - 48) 48
  mapped : ∀ place < 6, vmm.translate boot (aligned cpu.rsp - 8 * (place + 1)) ≠ none

/-- The stack for double faults is on such pages. -/
def DoubleFaultStackMapped (site : TableSite) (vmm : VirtualMemoryManager) (boot : Memory) :
    Prop :=
  ∀ place < 6, vmm.translate boot (site.doubleFaultStack + 16384 - 8 * (place + 1)) ≠ none

/-- The test page translates to its frame. -/
theorem physical_readonly (frame : Nat) :
    Mapping.physical readonlyTestVaddr
      ⟨3, newLeaf (PhysAddr.fromFrameNumber frame) readonlyFlags⟩ =
      addr (PhysAddr.fromFrameNumber frame) := by
  have offset : readonlyTestVaddr % 4096 = 0 := by decide
  have field : addr (newLeaf (PhysAddr.fromFrameNumber frame) readonlyFlags) =
      addr (PhysAddr.fromFrameNumber frame) := by
    have aligned := addr_aligned (PhysAddr.fromFrameNumber frame)
    have bounded : addr (PhysAddr.fromFrameNumber frame) < 2 ^ 52 := by
      rw [addr_eq]
      omega
    rw [newLeaf_eq, addr_eq (addr (PhysAddr.fromFrameNumber frame) + 1 + _ + _)]
    simp only [readonlyFlags]
    generalize addr (PhysAddr.fromFrameNumber frame) = field at aligned bounded ⊢
    simp only [Bool.false_eq_true, if_false]
    omega
  simp [Mapping.physical, field, offset]

section Tables

variable {vmm : VirtualMemoryManager} {start : Machine} {runtime : Runtime}
  (guarded : Guarded vmm start runtime) (startWalkable : Walkable vmm start.memory)
  (large : ∀ virt mapping, lookup start.memory vmm.pml4Phys virt = some mapping →
    mapping.depth < 3 ∧ Plain mapping)
  (writeProtect : Bool) (efer : Nat)

include guarded startWalkable large

omit startWalkable in
/-- The tables answer every access as the kernel expects. -/
theorem guarded_pageAccess (virt : Nat) (kind : KernelAccess.Access) :
    pageAccess ⟨writeProtect, enableNxe efer⟩ runtime.machine.memory vmm.pml4Phys virt kind =
      expected writeProtect vmm runtime.machine.memory virt kind := by
  refine pageAccess_eq guarded.ownership.owned.toWalkable guarded.opened ?_ writeProtect efer
    virt kind
  intro other mapping found above
  exact (large other mapping ((guarded.large other mapping above).mp found)).2

/-- A stack address that was mapped at the start can be written. -/
theorem stackAccess_none {address : Nat} (mapped : vmm.translate start.memory address ≠ none) :
    stackAccess ⟨writeProtect, enableNxe efer⟩ vmm runtime.machine.memory address = none := by
  rw [startWalkable.translate_eq] at mapped
  have looked : lookup start.memory vmm.pml4Phys address ≠ none := by
    intro absent
    exact mapped (by rw [absent, Option.map_none])
  obtain ⟨mapping, found⟩ := Option.ne_none_iff_exists'.mp looked
  have above := (large address mapping found).1
  have same := (guarded.large address mapping above).mpr found
  have owned := guarded.ownership.owned
  have small : mapping.depth ≠ 3 := Nat.ne_of_lt above
  have foreseen : expected writeProtect vmm runtime.machine.memory address .write =
      .ok (mapping.physical address) := by
    simp [expected, owned.translate_eq, owned.flagsAt_eq, same, Mapping.flags, small, permits,
      PageFlags.readWrite]
  rw [stackAccess, guarded_pageAccess guarded large, foreseen]

/-- An exception that strikes the kernel's own code enters its handler, on whatever tables
the kernel has by then. When the handler is done it has reported the exception; a
breakpoint goes on with the registers it has interrupted, and all others halt. -/
theorem strike_reported {site : TableSite} {trace : List Interrupt} {kernel : Kernel}
    (kept : Kept site trace kernel) (running : kernel.status = .running)
    (idle : kernel.active = []) (stack : OnBootStack site vmm start.memory kernel.cpu)
    (double : DoubleFaultStackMapped site vmm start.memory) {event : Interrupt}
    (exception : event.vector < 32) (single : event.vector ≠ 8) (valid : Valid event) :
    ∃ activation, (strike ⟨writeProtect, enableNxe efer⟩ vmm ⟨runtime.machine, kernel⟩
        event).status = .running ∧
      (strike ⟨writeProtect, enableNxe efer⟩ vmm ⟨runtime.machine, kernel⟩ event).active =
        [activation] ∧
      ∃ cpu memory status, finish (strike ⟨writeProtect, enableNxe efer⟩ vmm
          ⟨runtime.machine, kernel⟩ event) activation [] =
          ⟨cpu, memory, if event.vector = 3 then [] else [activation], status,
            kernel.output ++ (⟨event.vector, event.errorCode.map (· % 2 ^ 64),
              registers kernel.cpu, event.address.getD kernel.cpu.cr2⟩ :
              Exceptions.Diagnosis).text⟩ ∧
        status = if event.vector = 3 then .running else .halted := by
  have ready : StackReady site
      (stackAccess ⟨writeProtect, enableNxe efer⟩ vmm runtime.machine.memory) := fun place small =>
    stackAccess_none guarded startWalkable large writeProtect efer (double place small)
  have accessible (place : Nat) (small : place < 6) :
      stackAccess ⟨writeProtect, enableNxe efer⟩ vmm runtime.machine.memory
        (aligned (if event.vector = 8 then site.doubleFaultStack + 16384 else kernel.cpu.rsp) -
          8 * (place + 1)) = none := by
    rw [if_neg single]
    exact stackAccess_none guarded startWalkable large writeProtect efer (stack.mapped place small)
  have room : Room site kernel := ⟨stack.space, stack.clear, by simp [idle, pendingFrames]⟩
  obtain ⟨entered, after, delivered, -, cr2⟩ := enters_own kept.tables kept.words stack.space
    stack.clear exception valid accessible
  have keptAfter := kept.strike valid ready room
  rw [delivered] at keptAfter
  have active : (struck kernel (.entered event entered after)).active =
      [⟨event, entered.rsp, kernel.cpu⟩] := by
    rw [struck, idle]
  refine ⟨⟨event, entered.rsp, kernel.cpu⟩, ?_⟩
  simp only [strike, delivered]
  refine ⟨running, active, ?_⟩
  have ended := keptAfter.finish_eq active
  rw [(keptAfter.top active).text] at ended
  rw [ended]
  simp only [struck, idle, cr2, Activation.diagnosis]
  by_cases breakpoint : event.vector = 3
  · simp only [breakpoint, if_true]
    exact ⟨_, _, _, rfl, running⟩
  · simp only [breakpoint, if_false]
    exact ⟨_, _, _, rfl, rfl⟩

/-- What the test prints in any case: two announcements around the report of the
breakpoint. -/
def announced (kernel : Kernel) : List (BitVec 8) :=
  kernel.output ++ startText ++
    (⟨3, none, registers kernel.cpu, kernel.cpu.cr2⟩ : Exceptions.Diagnosis).text ++ resumedText

/-- The report of the write to the read-only page. -/
def faultReport (cpu : Cpu) : List (BitVec 8) :=
  (⟨14, some 3, registers cpu, readonlyTestVaddr⟩ : Exceptions.Diagnosis).text

/-- The kernel comes back from the breakpoint. -/
theorem breakpoint_resumes {site : TableSite} {kernel : Kernel} (kept : Kept site [] kernel)
    (running : kernel.status = .running) (idle : kernel.active = [])
    (stack : OnBootStack site vmm start.memory kernel.cpu)
    (double : DoubleFaultStackMapped site vmm start.memory) :
    ∃ cpu memory, print (endHandler (strike ⟨writeProtect, enableNxe efer⟩ vmm
        ⟨runtime.machine, print kernel startText⟩ int3)) resumedText =
      ⟨cpu, memory, [], .running, announced kernel⟩ := by
  have keptPrint : Kept site [] (print kernel startText) :=
    ⟨kept.alive, kept.tables, kept.words, kept.reachable, kept.frames, kept.fatal⟩
  obtain ⟨activation, -, active, cpu, memory, status, ended, resumed⟩ :=
    strike_reported guarded startWalkable large writeProtect efer keptPrint running idle stack
      double (show int3.vector < 32 by decide) (by decide) rfl
  obtain rfl : status = .running := resumed
  refine ⟨cpu, memory, ?_⟩
  rw [endHandler, active]
  simp only
  rw [ended]
  rfl

/-- The write ends in a report if pages are write-protected, and in memory if not. -/
theorem write_outcome {site : TableSite} {trace : List Interrupt} {kernel : Kernel}
    (kept : Kept site trace kernel) (running : kernel.status = .running)
    (idle : kernel.active = []) (stack : OnBootStack site vmm start.memory kernel.cpu)
    (double : DoubleFaultStackMapped site vmm start.memory) {frame : Nat}
    (leaf : lookup runtime.machine.memory vmm.pml4Phys readonlyTestVaddr =
      some ⟨3, newLeaf (PhysAddr.fromFrameNumber frame) readonlyFlags⟩) :
    let written := writeVolatile ⟨writeProtect, enableNxe efer⟩ vmm ⟨runtime.machine, kernel⟩
      readonlyTestVaddr 0xFF
    (afterWrite written.kernel).status = .halted ∧
      (afterWrite written.kernel).output =
        kernel.output ++ (if writeProtect then faultReport kernel.cpu else []) ∧
      written.machine.memory = if writeProtect then runtime.machine.memory else
        Function.update runtime.machine.memory (addr (PhysAddr.fromFrameNumber frame)) 0xFF := by
  intro written
  have owned := guarded.ownership.owned
  have foreseen := guarded_pageAccess guarded large writeProtect efer readonlyTestVaddr .write
  rw [expected, owned.translate_eq, owned.flagsAt_eq, leaf, Option.bind_some, flags_newLeaf,
    Option.map_some, physical_readonly] at foreseen
  have answered : access ⟨writeProtect, enableNxe efer⟩ runtime.machine.memory vmm.pml4Phys
      readonlyTestVaddr .write = _ := (if_pos (by decide)).trans (congrArg _ foreseen)
  cases writeProtect with
  | true =>
    have refused : access ⟨true, enableNxe efer⟩ runtime.machine.memory vmm.pml4Phys
        readonlyTestVaddr .write = .error (.pageFault 3) := answered
    obtain ⟨activation, struckRunning, active, cpu, memory, status, ended, halted⟩ :=
      strike_reported guarded startWalkable large true efer kept running idle stack double
        (show (⟨14, some 3, some readonlyTestVaddr, false⟩ : Interrupt).vector < 32 by decide)
        (by decide) rfl
    obtain rfl : status = .halted := halted
    simp only [written, writeVolatile, refused, afterWrite, struckRunning, active, ended]
    exact ⟨trivial, rfl, rfl⟩
  | false =>
    have granted : access ⟨false, enableNxe efer⟩ runtime.machine.memory vmm.pml4Phys
        readonlyTestVaddr .write = .ok (addr (PhysAddr.fromFrameNumber frame)) := answered
    simp only [written, writeVolatile, granted, afterWrite, running, idle]
    simp

end Tables

/-- **What the self-test shows.** It runs on any tables that requests from the
bootloader's tables lead to, with both stacks on pages the bootloader has mapped. The
breakpoint is reported and the kernel goes on; the end is a halt in every case. If no
frame is free, or the page cannot be mapped, the kernel panics on the line of the
`expect`. Otherwise the write is reported as a page fault at the test page, a write to
a present page, exactly if `CR0.WP` is set. If it is not, nothing is reported and the
read-only page holds the byte. -/
theorem interrupts_self_test {pages : Nat → Option Nat} (fresh : FreshPages pages)
    {memory after : Memory} {base size pml4 : Nat}
    (built : buildKernelPageTables pages memory base size = (pml4, after))
    (succeeded : pml4 ≠ 0) (baseAligned : base % pageSize2M = 0) (bounded : base < 2 ^ 51)
    {frames : FrameAllocator} (consistent : frames.Consistent)
    (reserved : ∀ request address, pages request = some address →
      PhysAddr.frameNumber address ∈ frames.usedFrames)
    {requests : List Request} {runtime : Runtime}
    (run : Run (Permitted ⟨pml4⟩) (serve ⟨pml4⟩) ⟨⟨after, frames⟩, []⟩ requests runtime)
    {site : TableSite} {kernel : Kernel} (started : Started site kernel)
    (double : DoubleFaultStackMapped site ⟨pml4⟩ after)
    (stack : OnBootStack site ⟨pml4⟩ after kernel.cpu) {later : Cpu × Memory}
    (ordinary : Ordinary site kernel later.1 later.2)
    (laterStack : OnBootStack site ⟨pml4⟩ after later.1)
    (file : String) (writeProtect : Bool) (efer : Nat) :
    let tested := runInterruptsBootSelfTest file ⟨writeProtect, enableNxe efer⟩ ⟨pml4⟩
      ⟨runtime.machine, kernel⟩ later
    tested.kernel.status = .halted ∧
    ((runtime.machine.frames.freeFrames = ∅ ∧
        tested.kernel.output = announced kernel ++ panicText file 614) ∨
      (runtime.machine.frames.freeFrames ≠ ∅ ∧
        (¬ ∃ frame, CanMapAt ⟨pml4⟩ runtime.machine readonlyTestVaddr frame) ∧
        tested.kernel.output = announced kernel ++ panicText file 620) ∨
      ∃ frame mapped, CanMapAt ⟨pml4⟩ runtime.machine readonlyTestVaddr frame ∧
        mapReadonlyPage ⟨pml4⟩ runtime.machine = (.ok (PhysAddr.fromFrameNumber frame), mapped) ∧
        tested.kernel.output =
          announced kernel ++ (if writeProtect then faultReport later.1 else []) ∧
        tested.machine.memory = if writeProtect then mapped.memory else
          Function.update mapped.memory (addr (PhysAddr.fromFrameNumber frame)) 0xFF) := by
  intro tested
  have guarded := guarded_run fresh built succeeded consistent reserved run
  obtain ⟨table, rfl, outcome⟩ := buildKernelPageTables_outcome fresh built succeeded
  have large (virt : Nat) (mapping : Mapping)
      (found : lookup after (table 0) virt = some mapping) : mapping.depth < 3 ∧ Plain mapping := by
    refine ⟨?_, plain_build fresh outcome baseAligned bounded virt mapping found⟩
    rw [outcome.lookup_eq fresh virt] at found
    split at found
    · exact Option.some.inj found ▸ Nat.lt_succ_self 2
    · split at found
      · exact Option.some.inj found ▸ Nat.lt_succ_self 2
      · cases found
  have walkable := outcome.walkable fresh
  obtain ⟨cpu, memory, resumed⟩ := breakpoint_resumes guarded walkable large writeProtect efer
    started.kept started.running started.idle stack double
  have halves : tested = testReadonlyPage file ⟨writeProtect, enableNxe efer⟩ ⟨table 0⟩
      ⟨runtime.machine, ⟨cpu, memory, [], .running, announced kernel⟩⟩ later := by
    rw [← resumed]
    exact if_neg (not_not_intro (congrArg Kernel.status resumed))
  rw [halves]
  obtain ⟨none, failed⟩ | ⟨free, cannot, failed⟩ | ⟨frame, can, done, served, leaf⟩ :=
    mapReadonlyPage_cases guarded.ownership.owned
  · rw [testReadonlyPage_eq, failed]
    exact ⟨rfl, Or.inl ⟨none, rfl⟩⟩
  · rw [testReadonlyPage_eq, failed]
    exact ⟨rfl, Or.inr (Or.inl ⟨free, cannot, rfl⟩)⟩
  · have guardedMapped := (guarded.serve .allocate trivial).serve
      (.map readonlyTestVaddr (PhysAddr.fromFrameNumber frame) readonlyFlags) trivial
    rw [served] at leaf
    have keptLater : Kept site [] ⟨later.1, later.2, [], .running, announced kernel⟩ := by
      have kept := started.kept.work ordinary
      exact ⟨by simp, kept.tables, kept.words, kept.reachable, by simp [pendingFrames], by simp⟩
    obtain ⟨halted, reported, written⟩ := write_outcome guardedMapped walkable large writeProtect
      efer keptLater rfl rfl laterStack double leaf
    rw [testReadonlyPage_eq, done]
    refine ⟨?_, Or.inr (Or.inr ⟨frame, _, can, Prod.ext done rfl, ?_, ?_⟩)⟩
    · simpa only [served] using halted
    · simpa only [served] using reported
    · simpa only [served] using written

/-- Descriptor tables, a stack and handlers inside the kernel image. -/
def imageSite : TableSite where
  gdt := 0xFFFFFFFF80001000
  tss := 0xFFFFFFFF80002000
  idt := 0xFFFFFFFF80003000
  doubleFaultStack := 0xFFFFFFFF80008000
  handler number := 0xFFFFFFFF80010000 + 0x100 * (number % 32)
  apart := by decide
  tssWord := by decide
  stackAligned := by decide
  stackWord := by decide
  stackCanonical := by decide
  handlerWord number := by
    have small := Nat.mod_lt number (show 0 < 32 by decide)
    omega
  handlerCanonical number := by
    have small := Nat.mod_lt number (show 0 < 32 by decide)
    simp only [canonical, Bool.or_eq_true, decide_eq_true_eq]
    omega

/-- The test page can be mapped on the bootloader's tables. -/
theorem canMapAt_small {after : Memory}
    (built : buildKernelPageTables firstPages (fun _ => 0) 0x200000 0x200000 = (0x1000, after)) :
    ∃ frame, CanMapAt ⟨0x1000⟩ ⟨after, bootFrames⟩ readonlyTestVaddr frame := by
  obtain ⟨table, root, outcome⟩ := buildKernelPageTables_outcome firstPages_fresh built (by decide)
  have first : pml4Index readonlyTestVaddr = 272 := by decide
  have scanned : bootFrames.scanFrom = some 9 := by decide
  have enough : 3 ≤ ((bootFrames.freeBelow identityMapLimit).erase 9).card := by decide
  refine ⟨9, scanned, ?_, ?_⟩
  · rw [← root, outcome.lookup_eq firstPages_fresh, first]
    rfl
  · have lacking : missingTables after 0x1000 readonlyTestVaddr = 3 := by
      simp [← root, missingTables, RadixTree.missing, first, outcome.slots_pml4 firstPages_fresh]
    rw [lacking]
    exact enough

/-- The test on the bootloader's tables, with the stack at 3 MiB: with `CR0.WP` set the
page fault is reported, and otherwise nothing is. -/
theorem interrupts_self_test_small :
    ∃ after kernel,
      buildKernelPageTables firstPages (fun _ => 0) 0x200000 0x200000 = (0x1000, after) ∧
      Started imageSite kernel ∧
      ∀ writeProtect,
        (runInterruptsBootSelfTest "src/main.rs" ⟨writeProtect, enableNxe 0⟩ ⟨0x1000⟩
          ⟨⟨after, bootFrames⟩, kernel⟩ (kernel.cpu, kernel.memory)).kernel.output =
          announced kernel ++ if writeProtect then faultReport kernel.cpu else [] := by
  have root : (buildKernelPageTables firstPages (fun _ => 0) 0x200000 0x200000).1 = 0x1000 := by
    decide +kernel
  generalize result : buildKernelPageTables firstPages (fun _ => 0) 0x200000 0x200000 =
    built at root
  obtain ⟨pml4, after⟩ := built
  subst root
  have clear (start size : Nat) (low : start + size ≤ 0xFFFFFFFF80000000) :
      imageSite.Clear start size := by
    intro target inside
    simp only [TableSite.InTables, imageSite] at inside
    omega
  obtain ⟨kernel, started, -, rsp, -⟩ :=
    @exists_started imageSite { beforeInit with rsp := 0x300000 } (fun _ => 0) 0xFFFFFFFF80020000
      (fun _ _ _ => rfl) (by decide) (by decide) (clear _ _ (by decide)) (by decide) (by decide)
      (by decide)
  have stackAt : aligned kernel.cpu.rsp = 0x300000 := by
    rw [rsp]
    decide
  have translated (virt : Nat) (canonical : Canonical virt) :=
    translate_buildKernelPageTables firstPages_fresh (by decide) (by decide) (by decide)
      (by decide) (by decide) result (by decide) virt canonical
  have double : DoubleFaultStackMapped imageSite ⟨0x1000⟩ after := by
    intro place small
    simp only [imageSite]
    rw [translated _ (Or.inr (by omega)), if_neg (by unfold identityMapLimit; omega),
      if_pos (by unfold kernelVirtualBase; omega)]
    exact Option.some_ne_none _
  have stack : OnBootStack imageSite ⟨0x1000⟩ after kernel.cpu := by
    refine ⟨?_, ?_, ?_⟩
    · rw [stackAt]
      decide
    · rw [stackAt]
      exact clear _ _ (by decide)
    · intro place small
      rw [stackAt, translated _ (Or.inl (by omega)), if_pos (by unfold identityMapLimit; omega)]
      exact Option.some_ne_none _
  have ordinary : Ordinary imageSite kernel kernel.cpu kernel.memory :=
    ⟨rfl, rfl, rfl, rfl, rfl, started.words, started.reachable, fun _ _ => rfl,
      fun _ _ _ _ _ => rfl⟩
  refine ⟨after, kernel, rfl, started, ?_⟩
  intro writeProtect
  obtain ⟨-, ⟨none, -⟩ | ⟨-, cannot, -⟩ | ⟨frame, mapped, -, -, output, -⟩⟩ :=
    interrupts_self_test firstPages_fresh result (by decide) (by decide) (by decide)
      bootFrames_consistent bootFrames_reserved (.nil _) started double stack
      (show Ordinary imageSite kernel (kernel.cpu, kernel.memory).1 (kernel.cpu, kernel.memory).2
        from ordinary) stack "src/main.rs" writeProtect 0
  · exact absurd none (show bootFrames.freeFrames ≠ ∅ by decide)
  · exact absurd (canMapAt_small result) cannot
  · exact output

end InterruptsTest

end XyronOS
