import XyronOS.Library.ExceptionDelivery

/-!
# The descriptor tables

The kernel's `gdt::init` and `idt::init`: the segment descriptors, the task state
segment with the stack for double faults, the gates for the 32 exceptions, and the
instructions that load them. The tables are statics of the kernel image, so the model
writes their bytes to memory and lets the processor decode them from there.

`Installed` is what the processor finds in the tables afterwards. It speaks of the
bytes of the tables only, so it lasts as long as nothing else is written to them. The
gates above 31 stay as they were declared. Their type is not that of a gate, which the
processor looks at before the present bit: an event for one of them is a general
protection fault.
-/

namespace XyronOS

open ByteMemory WordBits Interrupts

namespace Gdt

/-- A code or data descriptor. -/
def segmentDescriptor (access : Nat) (longMode : Bool) : Nat :=
  let limitLow := 0xFFFF
  let base := 0
  let flags := if longMode then 0b1010 else 0b1100
  let limitHigh := 0xF
  limitLow ||| base <<< 16 ||| access <<< 40 ||| limitHigh <<< 48 ||| flags <<< 52 ||| base <<< 56

def accessKernelCode : Nat := 0b10011010
def accessKernelData : Nat := 0b10010010
def accessTss : Nat := 0b10001001

def kernelCodeSelector : Nat := 0x08
def kernelDataSelector : Nat := 0x10
def tssSelector : Nat := 0x18

def doubleFaultIstIndex : Nat := 1
def doubleFaultStackSize : Nat := 4096 * 4

/-- Size of the task state segment. -/
def tssSize : Nat := 104

/-- The two words of the descriptor of a task state segment. -/
def tssDescriptor (tssAddr : Nat) : Nat × Nat :=
  let limit := tssSize - 1
  let baseLow24 := tssAddr &&& 0xFFFFFF
  let baseMid8 := tssAddr >>> 24 &&& 0xFF
  let baseHigh32 := tssAddr >>> 32
  (limit ||| baseLow24 <<< 16 ||| accessTss <<< 40 ||| baseMid8 <<< 56, baseHigh32)

end Gdt

namespace Idt

def typeAttrInterruptGate : Nat := 0x8E

/-- Point the entry at an address to a handler; the reserved field stays. -/
def setHandler (memory : Memory) (entry handler ist : Nat) : Memory :=
  let memory := store memory entry 2 handler
  let memory := store memory (entry + 6) 2 (handler >>> 16)
  let memory := store memory (entry + 8) 4 (handler >>> 32)
  let memory := store memory (entry + 2) 2 Gdt.kernelCodeSelector
  let memory := store memory (entry + 4) 1 ist
  store memory (entry + 5) 1 typeAttrInterruptGate

/-- Point a vector to a handler. -/
def setEntry (memory : Memory) (idt vector handler ist : Nat) : Memory :=
  setHandler memory (idt + 16 * vector) handler ist

end Idt

/-- Addresses of the statics and of the handlers. The statics do not overlap; the stack
for double faults is aligned and ends at an address a stack pointer can hold. -/
structure TableSite where
  gdt : Nat
  tss : Nat
  idt : Nat
  doubleFaultStack : Nat
  handler : Nat → Nat
  apart : [(gdt, 40), (tss, 104), (idt, 4096), (doubleFaultStack, 16384)].Pairwise
    fun left right => left.1 + left.2 ≤ right.1 ∨ right.1 + right.2 ≤ left.1
  tssWord : tss < 2 ^ 64
  stackAligned : doubleFaultStack % 16 = 0
  stackWord : doubleFaultStack + 16384 < 2 ^ 64
  stackCanonical : canonical (doubleFaultStack + 16384) = true
  handlerWord : ∀ number, handler number < 2 ^ 64
  handlerCanonical : ∀ number, canonical (handler number) = true

namespace TableSite

/-- The bytes of the tables. -/
def InTables (site : TableSite) (target : Nat) : Prop :=
  (site.gdt ≤ target ∧ target < site.gdt + 40) ∨ (site.tss ≤ target ∧ target < site.tss + 104) ∨
    (site.idt ≤ target ∧ target < site.idt + 4096)

/-- No byte of a range belongs to the tables. -/
def Clear (site : TableSite) (start size : Nat) : Prop :=
  ∀ target, site.InTables target → target < start ∨ start + size ≤ target

/-- Memories with the same tables. -/
def Agree (site : TableSite) (left right : Memory) : Prop :=
  ∀ target, site.InTables target → left target = right target

theorem Agree.trans {site : TableSite} {left middle right : Memory}
    (first : site.Agree left middle) (second : site.Agree middle right) :
    site.Agree left right :=
  fun target inside => (first target inside).trans (second target inside)

/-- The four distances, spelled out. -/
theorem distances (site : TableSite) :
    (site.gdt + 40 ≤ site.tss ∨ site.tss + 104 ≤ site.gdt) ∧
    (site.gdt + 40 ≤ site.idt ∨ site.idt + 4096 ≤ site.gdt) ∧
    (site.gdt + 40 ≤ site.doubleFaultStack ∨ site.doubleFaultStack + 16384 ≤ site.gdt) ∧
    (site.tss + 104 ≤ site.idt ∨ site.idt + 4096 ≤ site.tss) ∧
    (site.tss + 104 ≤ site.doubleFaultStack ∨ site.doubleFaultStack + 16384 ≤ site.tss) ∧
    (site.idt + 4096 ≤ site.doubleFaultStack ∨ site.doubleFaultStack + 16384 ≤ site.idt) := by
  have apart := site.apart
  simp only [List.pairwise_cons, List.mem_cons, List.not_mem_nil, or_false, forall_eq_or_imp,
    forall_eq, false_implies, implies_true, List.Pairwise.nil, and_true] at apart
  tauto

/-- The stack for double faults is clear of the tables. -/
theorem stack_off {site : TableSite} {target : Nat} (inside : site.InTables target) :
    target < site.doubleFaultStack ∨ site.doubleFaultStack + 16384 ≤ target := by
  have apart := site.distances
  unfold InTables at inside
  omega

end TableSite

namespace Gdt

/-- The statics that `gdt::init` fills in. -/
def fillTables (site : TableSite) (memory : Memory) : Memory :=
  let memory := store64 memory (site.tss + (36 + 8 * (doubleFaultIstIndex - 1)))
    (site.doubleFaultStack + doubleFaultStackSize)
  let memory := store64 memory site.gdt 0
  let memory := store64 memory (site.gdt + 8) (segmentDescriptor accessKernelCode true)
  let memory := store64 memory (site.gdt + 16) (segmentDescriptor accessKernelData false)
  let memory := store64 memory (site.gdt + 24) (tssDescriptor site.tss).1
  store64 memory (site.gdt + 32) (tssDescriptor site.tss).2

/-- `reload_segments`, which continues at the address behind its far return. The other
data segment registers are loaded as the stack segment register is; nothing here
reads them. -/
def reloadSegments (cpu : Cpu) (memory : Memory) (next : Nat) : Option (Cpu × Memory) := do
  let (cpu, memory) := push cpu memory kernelCodeSelector
  let (cpu, memory) := push cpu memory next
  let cpu ← retfq cpu memory
  let cpu ← loadSs cpu memory kernelDataSelector
  return (cpu, memory)

/-- `gdt::init`; nothing is returned if the processor raises an exception. -/
def init (site : TableSite) (cpu : Cpu) (memory : Memory) (next : Nat) : Option (Cpu × Memory) := do
  let memory := fillTables site memory
  let cpu := { cpu with gdtr := ⟨5 * 8 - 1, site.gdt⟩ }
  let (cpu, memory) ← reloadSegments cpu memory next
  ltr cpu memory tssSelector

end Gdt

namespace Idt

/-- The calls of `install_handlers`: vector, number of the handler, interrupt stack. -/
def installs : List (Nat × Nat × Nat) :=
  [(0, 0, 0), (1, 1, 0), (2, 2, 0), (3, 3, 0), (4, 4, 0), (5, 5, 0), (6, 6, 0), (7, 7, 0),
   (8, 8, Gdt.doubleFaultIstIndex), (9, 9, 0), (10, 10, 0), (11, 11, 0), (12, 12, 0), (13, 13, 0),
   (14, 14, 0), (15, 15, 0), (16, 16, 0), (17, 17, 0), (18, 18, 0), (19, 19, 0), (20, 20, 0),
   (21, 21, 0), (22, 22, 0), (23, 23, 0), (24, 24, 0), (25, 25, 0), (26, 26, 0), (27, 27, 0),
   (28, 28, 0), (29, 29, 0), (30, 30, 0), (31, 31, 0)]

/-- Calls of `set_entry` one after the other. -/
def setEntries (site : TableSite) (memory : Memory) (calls : List (Nat × Nat × Nat)) : Memory :=
  calls.foldl (fun memory call =>
    setEntry memory site.idt call.1 (site.handler call.2.1) call.2.2) memory

def installHandlers (site : TableSite) (memory : Memory) : Memory :=
  setEntries site memory installs

/-- `idt::init`. -/
def init (site : TableSite) (cpu : Cpu) (memory : Memory) : Cpu × Memory :=
  ({ cpu with idtr := ⟨256 * 16 - 1, site.idt⟩ }, installHandlers site memory)

end Idt

/-- What the processor finds once the tables are loaded. -/
structure Installed (site : TableSite) (cpu : Cpu) (memory : Memory) : Prop where
  gdtr : cpu.gdtr = ⟨39, site.gdt⟩
  idtr : cpu.idtr = ⟨4095, site.idt⟩
  tr : cpu.tr = ⟨Gdt.tssSelector, site.tss, 103⟩
  cs : cpu.cs = Gdt.kernelCodeSelector
  ss : cpu.ss = Gdt.kernelDataSelector
  code : load64 memory (site.gdt + 8) = Gdt.segmentDescriptor Gdt.accessKernelCode true
  data : load64 memory (site.gdt + 16) = Gdt.segmentDescriptor Gdt.accessKernelData false
  stack : load64 memory (site.tss + 36) = site.doubleFaultStack + 16384
  gates : ∀ vector < 32, readGate memory site.idt vector =
    ⟨site.handler vector, Gdt.kernelCodeSelector, if vector = 8 then 1 else 0,
      Idt.typeAttrInterruptGate⟩
  missing : ∀ vector, 32 ≤ vector → vector < 256 → (readGate memory site.idt vector).typeAttr = 0

/-! ### Descriptors and gates read back -/

namespace Gdt

/-- The descriptor of a task state segment, digit by digit. -/
theorem tssDescriptor_eq (tssAddr : Nat) :
    (tssDescriptor tssAddr).1 = 0x67 + 2 ^ 16 * (tssAddr % 2 ^ 24) + 2 ^ 40 * 0x89 +
      2 ^ 56 * (tssAddr / 2 ^ 24 % 2 ^ 8) := by
  have low : tssAddr &&& 0xFFFFFF = tssAddr % 2 ^ 24 := and_low tssAddr 24
  have middle : tssAddr >>> 24 &&& 0xFF = tssAddr / 2 ^ 24 % 2 ^ 8 := by
    rw [Nat.shiftRight_eq_div_pow]
    exact and_low (tssAddr / 2 ^ 24) 8
  have bounded : tssAddr % 2 ^ 24 < 2 ^ 24 := Nat.mod_lt _ (by decide)
  simp only [tssDescriptor, tssSize, accessTss, low, middle]
  rw [or_shiftLeft _ _ 16 (by decide), or_shiftLeft _ _ 40 (by omega),
    or_shiftLeft _ _ 56 (by omega)]

/-- The processor decodes the address the descriptor was made from. -/
theorem tssBase_tssDescriptor {tssAddr : Nat} (word : tssAddr < 2 ^ 64) :
    tssBase (tssDescriptor tssAddr).1 (tssDescriptor tssAddr).2 = tssAddr := by
  have high : (tssDescriptor tssAddr).2 = tssAddr / 2 ^ 32 := Nat.shiftRight_eq_div_pow tssAddr 32
  rw [tssDescriptor_eq, high]
  unfold tssBase
  omega

theorem tssLimit_tssDescriptor (tssAddr : Nat) : tssLimit (tssDescriptor tssAddr).1 = 103 := by
  rw [tssDescriptor_eq]
  unfold tssLimit
  omega

theorem isAvailableTss_tssDescriptor (tssAddr : Nat) :
    isAvailableTss (tssDescriptor tssAddr).1 = true := by
  rw [tssDescriptor_eq]
  simp only [isAvailableTss, descriptorPresent, Nat.testBit_eq_decide_div_mod_eq, Bool.and_eq_true,
    Bool.not_eq_true', decide_eq_true_eq, decide_eq_false_iff_not, beq_iff_eq]
  omega

theorem tssDescriptor_lt (tssAddr : Nat) : (tssDescriptor tssAddr).1 < 2 ^ 64 := by
  rw [tssDescriptor_eq]
  omega

end Gdt

/-- A gate depends on its sixteen bytes. -/
theorem readGate_congr {left right : Memory} {base vector : Nat}
    (same : ∀ target, base + 16 * vector ≤ target → target < base + 16 * vector + 16 →
      left target = right target) : readGate left base vector = readGate right base vector := by
  have field (offset width : Nat) (inside : offset + width ≤ 16) :
      load left (base + 16 * vector + offset) width =
        load right (base + 16 * vector + offset) width :=
    load_congr _ _ _ _ fun target low high => same target (by omega) (by omega)
  have first := field 0 2 (by decide)
  simp only [Nat.add_zero] at first
  simp only [readGate, first, field 6 2 (by decide), field 8 4 (by decide), field 2 2 (by decide),
    field 4 1 (by decide), field 5 1 (by decide)]

namespace Idt

/-- An entry is written within its sixteen bytes. -/
theorem setEntry_outside (memory : Memory) (idt vector handler ist : Nat) {target : Nat}
    (outside : target < idt + 16 * vector ∨ idt + 16 * vector + 16 ≤ target) :
    setEntry memory idt vector handler ist target = memory target := by
  have missed (memory : Memory) (offset width value : Nat) (inside : offset + width ≤ 16) :
      store memory (idt + 16 * vector + offset) width value target = memory target :=
    if_neg (by omega)
  have first (memory : Memory) (value : Nat) :
      store memory (idt + 16 * vector) 2 value target = memory target := if_neg (by omega)
  simp only [setEntry, setHandler]
  rw [missed _ 5 1 _ (by decide), missed _ 4 1 _ (by decide), missed _ 2 2 _ (by decide),
    missed _ 8 4 _ (by decide), missed _ 6 2 _ (by decide), first]

/-- The processor decodes the handler an entry was made for. -/
theorem readGate_setEntry (memory : Memory) (idt vector : Nat) {handler ist : Nat}
    (word : handler < 2 ^ 64) (small : ist < 8) :
    readGate (setEntry memory idt vector handler ist) idt vector =
      ⟨handler, Gdt.kernelCodeSelector, ist, typeAttrInterruptGate⟩ := by
  simp only [readGate, setEntry, setHandler, Gdt.kernelCodeSelector, typeAttrInterruptGate]
  simp (disch := omega) only [load_store_disjoint, load_store_same, Nat.shiftRight_eq_div_pow,
    Gate.mk.injEq]
  refine ⟨?_, ?_, ?_, ?_⟩ <;> omega

theorem readGate_setEntry_other (memory : Memory) (idt handler ist : Nat) {vector other : Nat}
    (different : other ≠ vector) :
    readGate (setEntry memory idt vector handler ist) idt other = readGate memory idt other :=
  readGate_congr fun target low high => setEntry_outside _ _ _ _ _ (by omega)

theorem setEntries_cons (site : TableSite) (memory : Memory) (call : Nat × Nat × Nat)
    (rest : List (Nat × Nat × Nat)) :
    setEntries site memory (call :: rest) =
      setEntries site (setEntry memory site.idt call.1 (site.handler call.2.1) call.2.2) rest := rfl

/-- Entries that no call names stay. -/
theorem readGate_setEntries_other {site : TableSite} {memory : Memory}
    {calls : List (Nat × Nat × Nat)} {vector : Nat} (absent : vector ∉ calls.map Prod.fst) :
    readGate (setEntries site memory calls) site.idt vector = readGate memory site.idt vector := by
  induction calls generalizing memory with
  | nil => rfl
  | cons call rest inductionHypothesis =>
    rw [List.map_cons, List.mem_cons, not_or] at absent
    rw [setEntries_cons, inductionHypothesis absent.2, readGate_setEntry_other _ _ _ _ absent.1]

/-- Calls for different vectors each leave their gate. -/
theorem readGate_setEntries {site : TableSite} {memory : Memory} {calls : List (Nat × Nat × Nat)}
    (distinct : (calls.map Prod.fst).Nodup) {vector number ist : Nat}
    (called : (vector, number, ist) ∈ calls) (small : ist < 8) :
    readGate (setEntries site memory calls) site.idt vector =
      ⟨site.handler number, Gdt.kernelCodeSelector, ist, typeAttrInterruptGate⟩ := by
  induction calls generalizing memory with
  | nil => exact absurd called List.not_mem_nil
  | cons call rest inductionHypothesis =>
    rw [List.map_cons, List.nodup_cons] at distinct
    rw [setEntries_cons]
    obtain rfl | later := List.mem_cons.1 called
    · rw [readGate_setEntries_other distinct.1]
      exact readGate_setEntry _ _ _ (site.handlerWord number) small
    · exact inductionHypothesis distinct.2 later

theorem setEntries_outside {site : TableSite} {memory : Memory} {calls : List (Nat × Nat × Nat)}
    (below : ∀ call ∈ calls, call.1 < 256) {target : Nat}
    (outside : target < site.idt ∨ site.idt + 4096 ≤ target) :
    setEntries site memory calls target = memory target := by
  induction calls generalizing memory with
  | nil => rfl
  | cons call rest inductionHypothesis =>
    have first := below call (List.mem_cons_self ..)
    rw [setEntries_cons, inductionHypothesis fun call member =>
      below call (List.mem_cons_of_mem _ member)]
    exact setEntry_outside _ _ _ _ _ (by omega)

theorem installs_distinct : (installs.map Prod.fst).Nodup := by decide

theorem installs_below : ∀ call ∈ installs, call.1 < 256 := by decide

/-- Every exception has its own handler installed, the double fault with its stack. -/
theorem installs_complete {vector : Nat} (exception : vector < 32) :
    (vector, vector, if vector = 8 then 1 else 0) ∈ installs := by
  have known : ∀ vector : Fin 32,
      (vector.val, vector.val, if vector.val = 8 then 1 else 0) ∈ installs := by decide
  exact known ⟨vector, exception⟩

theorem installs_exceptions {vector : Nat} (above : 32 ≤ vector) :
    vector ∉ installs.map Prod.fst := by
  have known : ∀ number ∈ installs.map Prod.fst, number < 32 := by decide
  intro member
  exact absurd (known vector member) (by omega)

end Idt

namespace Installed

variable {site : TableSite} {cpu : Cpu} {memory : Memory}

/-- The tables are all that matters of the memory, and of the registers those that
exceptions do not change. -/
theorem congr (installed : Installed site cpu memory) {other : Cpu} {after : Memory}
    (gdtr : other.gdtr = cpu.gdtr) (idtr : other.idtr = cpu.idtr) (tr : other.tr = cpu.tr)
    (cs : other.cs = cpu.cs) (ss : other.ss = cpu.ss) (agree : site.Agree after memory) :
    Installed site other after := by
  have word (address : Nat) (inside : ∀ target, address ≤ target → target < address + 8 →
      site.InTables target) : load64 after address = load64 memory address :=
    load64_congr _ _ _ fun target low high => agree target (inside target low high)
  have gate (vector : Nat) (small : vector < 256) :
      readGate after site.idt vector = readGate memory site.idt vector :=
    readGate_congr fun target low high =>
      agree target (Or.inr (Or.inr ⟨by omega, by omega⟩))
  refine ⟨gdtr.trans installed.gdtr, idtr.trans installed.idtr, tr.trans installed.tr,
    cs.trans installed.cs, ss.trans installed.ss, ?_, ?_, ?_, ?_, ?_⟩
  · rw [word _ fun target low high => Or.inl ⟨by omega, by omega⟩, installed.code]
  · rw [word _ fun target low high => Or.inl ⟨by omega, by omega⟩, installed.data]
  · rw [word _ fun target low high => Or.inr (Or.inl ⟨by omega, by omega⟩), installed.stack]
  · intro vector small
    rw [gate vector (by omega), installed.gates vector small]
  · intro vector above small
    rw [gate vector small, installed.missing vector above small]

/-- The kernel's code segment. -/
theorem codeSegment (installed : Installed site cpu memory) :
    descriptorAt cpu.gdtr memory Gdt.kernelCodeSelector =
      some (Gdt.segmentDescriptor Gdt.accessKernelCode true) := by
  rw [installed.gdtr, ← installed.code]
  rfl

/-- The kernel's data segment. -/
theorem dataSegment (installed : Installed site cpu memory) :
    descriptorAt cpu.gdtr memory Gdt.kernelDataSelector =
      some (Gdt.segmentDescriptor Gdt.accessKernelData false) := by
  rw [installed.gdtr, ← installed.data]
  rfl

/-- Every exception finds its gate. -/
theorem selectGate_exception (installed : Installed site cpu memory) {event : Interrupt}
    (exception : event.vector < 32) :
    selectGate cpu memory event =
      .ok ⟨site.handler event.vector, Gdt.kernelCodeSelector, if event.vector = 8 then 1 else 0,
        Idt.typeAttrInterruptGate⟩ := by
  have within : ¬ 4095 < 16 * event.vector + 15 := by omega
  have good : (isCode (Gdt.segmentDescriptor Gdt.accessKernelCode true) &&
      descriptorPresent (Gdt.segmentDescriptor Gdt.accessKernelCode true) &&
      isLong (Gdt.segmentDescriptor Gdt.accessKernelCode true)) = true := by decide
  simp only [Bool.and_eq_true] at good
  simp only [selectGate, installed.idtr, installed.gates _ exception, checkTarget,
    installed.codeSegment, good.1.1, good.1.2, good.2, site.handlerCanonical]
  rw [if_neg within]
  rfl

/-- An event without a gate is a general protection fault. -/
theorem selectGate_missing (installed : Installed site cpu memory) {event : Interrupt}
    (above : 32 ≤ event.vector) :
    selectGate cpu memory event = .error (failure 13 (gateError event)) := by
  simp only [selectGate, installed.idtr]
  by_cases beyond : 4095 < 16 * event.vector + 15
  · rw [if_pos beyond]
  · have noGate := installed.missing event.vector above (by omega)
    rw [if_neg beyond, if_pos (by rw [noGate]; decide)]

/-- The stack for double faults is found; the others run on the current stack. -/
theorem selectStack_eq (installed : Installed site cpu memory) (event : Interrupt) :
    selectStack cpu memory event (if event.vector = 8 then 1 else 0) =
      .ok (if event.vector = 8 then site.doubleFaultStack + 16384 else cpu.rsp) := by
  by_cases double : event.vector = 8
  · have top : load64 memory (site.tss + (28 + 8 * 1)) = site.doubleFaultStack + 16384 :=
      installed.stack
    simp only [double, if_true, selectStack, installed.tr, top, site.stackCanonical]
    rfl
  · simp only [double, if_false, selectStack, if_true]

end Installed

/-! ### Loading the tables -/

namespace Gdt

/-- The words of the filled tables. -/
structure Filled (site : TableSite) (memory : Memory) : Prop where
  code : load64 memory (site.gdt + 8) = segmentDescriptor accessKernelCode true
  data : load64 memory (site.gdt + 16) = segmentDescriptor accessKernelData false
  tssLow : load64 memory (site.gdt + 24) = (tssDescriptor site.tss).1
  tssHigh : load64 memory (site.gdt + 32) = (tssDescriptor site.tss).2
  stack : load64 memory (site.tss + 36) = site.doubleFaultStack + 16384

theorem filled_fillTables (site : TableSite) (memory : Memory) :
    Filled site (fillTables site memory) := by
  have apart := site.distances.1
  have low := tssDescriptor_lt site.tss
  have high : (tssDescriptor site.tss).2 < 2 ^ 64 := by
    have shifted : (tssDescriptor site.tss).2 = site.tss / 2 ^ 32 :=
      Nat.shiftRight_eq_div_pow site.tss 32
    have word := site.tssWord
    omega
  have code : segmentDescriptor accessKernelCode true < 2 ^ 64 := by decide
  have data : segmentDescriptor accessKernelData false < 2 ^ 64 := by decide
  have top := site.stackWord
  constructor <;>
    simp (disch := omega) only [fillTables, doubleFaultIstIndex, doubleFaultStackSize,
      load64_store64_apart, load64_store64_same, Nat.mod_eq_of_lt]

/-- Only the two tables are filled. -/
theorem fillTables_outside (site : TableSite) (memory : Memory) {target : Nat}
    (gdt : target < site.gdt ∨ site.gdt + 40 ≤ target)
    (tss : target < site.tss ∨ site.tss + 104 ≤ target) :
    fillTables site memory target = memory target := by
  simp only [fillTables, doubleFaultIstIndex]
  simp (disch := omega) only [store64_outside]

theorem Filled.congr {site : TableSite} {memory after : Memory} (filled : Filled site memory)
    (agree : site.Agree after memory) : Filled site after := by
  have word (address : Nat) (inside : ∀ target, address ≤ target → target < address + 8 →
      site.InTables target) : load64 after address = load64 memory address :=
    load64_congr _ _ _ fun target low high => agree target (inside target low high)
  have entry (offset : Nat) (small : offset + 8 ≤ 40) :=
    word (site.gdt + offset) fun target low high => Or.inl ⟨by omega, by omega⟩
  refine ⟨(entry 8 (by decide)).trans filled.code, (entry 16 (by decide)).trans filled.data,
    (entry 24 (by decide)).trans filled.tssLow, (entry 32 (by decide)).trans filled.tssHigh, ?_⟩
  rw [word _ fun target low high => Or.inr (Or.inl ⟨by omega, by omega⟩), filled.stack]

/-- Both checks of the segments pass, and execution continues behind the far return on
the same stack. -/
theorem reloadSegments_eq {site : TableSite} {cpu : Cpu} {memory : Memory} {next : Nat}
    (filled : Filled site memory) (loaded : cpu.gdtr = ⟨39, site.gdt⟩) (room : 16 ≤ cpu.rsp)
    (bounded : cpu.rsp < 2 ^ 64) (clear : site.Clear (cpu.rsp - 16) 16) (word : next < 2 ^ 64)
    (reachable : canonical next = true) :
    ∃ after, reloadSegments cpu memory next =
        some ({ cpu with rip := next, cs := kernelCodeSelector, ss := kernelDataSelector }, after) ∧
      ∀ target, target < cpu.rsp - 16 ∨ cpu.rsp ≤ target → after target = memory target := by
  have first : wrappingSub cpu.rsp 8 = cpu.rsp - 8 := wrappingSub_eq _ _ (by omega) bounded
  have second : wrappingSub (cpu.rsp - 8) 8 = cpu.rsp - 16 := by
    rw [wrappingSub_eq _ _ (by omega) (by omega), Nat.sub_sub]
  let after := store64 (store64 memory (cpu.rsp - 8) kernelCodeSelector) (cpu.rsp - 16) next
  have outside (target : Nat) (off : target < cpu.rsp - 16 ∨ cpu.rsp ≤ target) :
      after target = memory target := by
    simp only [after]
    rw [store64_outside _ _ _ _ (by omega), store64_outside _ _ _ _ (by omega)]
  have still : Filled site after := filled.congr fun target inside => outside target (by
    have off := clear target inside
    omega)
  have rip : load64 after (cpu.rsp - 16) = next :=
    (load64_store64_same ..).trans (Nat.mod_eq_of_lt word)
  have cs : load64 after (cpu.rsp - 16 + 8) = kernelCodeSelector := by
    rw [show cpu.rsp - 16 + 8 = cpu.rsp - 8 by omega]
    simp only [after]
    rw [load64_store64_apart _ _ _ _ (by omega), load64_store64_same]
    rfl
  have code : descriptorAt cpu.gdtr after kernelCodeSelector =
      some (segmentDescriptor accessKernelCode true) := by
    rw [loaded, ← still.code]
    rfl
  have data : descriptorAt cpu.gdtr after kernelDataSelector =
      some (segmentDescriptor accessKernelData false) := by
    rw [loaded, ← still.data]
    rfl
  have goodCode : (isCode (segmentDescriptor accessKernelCode true) &&
      descriptorPresent (segmentDescriptor accessKernelCode true) &&
      isLong (segmentDescriptor accessKernelCode true)) = true := by decide
  have goodData : (isWritableData (segmentDescriptor accessKernelData false) &&
      descriptorPresent (segmentDescriptor accessKernelData false)) = true := by decide
  refine ⟨after, ?_, outside⟩
  have restored : cpu.rsp - 16 + 16 = cpu.rsp := by omega
  simp only [reloadSegments, push, first, second]
  change (do
    let cpu ← retfq { cpu with rsp := cpu.rsp - 16 } after
    let cpu ← loadSs cpu after kernelDataSelector
    return (cpu, after)) = _
  simp only [retfq, rip, cs, code, Option.bind_eq_bind, Option.bind_some, goodCode, reachable,
    Bool.and_self, if_true, loadSs, data, goodData, restored]
  rfl

/-- `gdt::init` runs through: the segments and the task register are loaded. -/
theorem init_eq {site : TableSite} {cpu : Cpu} {memory : Memory} {next : Nat}
    (room : 16 ≤ cpu.rsp) (bounded : cpu.rsp < 2 ^ 64) (clear : site.Clear (cpu.rsp - 16) 16)
    (word : next < 2 ^ 64) (reachable : canonical next = true) :
    ∃ after, init site cpu memory next =
        some ({ cpu with
          gdtr := ⟨39, site.gdt⟩, rip := next, cs := kernelCodeSelector,
          ss := kernelDataSelector, tr := ⟨tssSelector, site.tss, 103⟩ }, after) ∧
      load64 after (site.gdt + 8) = segmentDescriptor accessKernelCode true ∧
      load64 after (site.gdt + 16) = segmentDescriptor accessKernelData false ∧
      load64 after (site.tss + 36) = site.doubleFaultStack + 16384 ∧
      ∀ target, (target < site.gdt ∨ site.gdt + 40 ≤ target) →
        (target < site.tss ∨ site.tss + 104 ≤ target) →
        (target < cpu.rsp - 16 ∨ cpu.rsp ≤ target) → after target = memory target := by
  have filled := filled_fillTables site memory
  obtain ⟨between, reloaded, off⟩ :=
    @reloadSegments_eq site { cpu with gdtr := ⟨39, site.gdt⟩ } (fillTables site memory) next
      filled rfl room bounded clear word reachable
  have still : Filled site between := filled.congr fun target inside => off target (by
    have outside := clear target inside
    change target < cpu.rsp - 16 ∨ cpu.rsp ≤ target
    omega)
  have low : descriptorAt ⟨39, site.gdt⟩ between tssSelector = some (tssDescriptor site.tss).1 := by
    rw [← still.tssLow]
    rfl
  have apart := site.distances.1
  let after := store64 between (site.gdt + 24) ((tssDescriptor site.tss).1 ||| 2 ^ 41)
  have kept (address : Nat) (elsewhere : address + 8 ≤ site.gdt + 24 ∨ site.gdt + 32 ≤ address) :
      load64 after address = load64 between address :=
    load64_store64_apart _ _ _ _ (by omega)
  refine ⟨after, ?_, ?_, ?_, ?_, ?_⟩
  · have high : load64 between (site.gdt + tssSelector / 8 * 8 + 8) = (tssDescriptor site.tss).2 :=
      still.tssHigh
    simp only [init, Option.bind_eq_bind, show 5 * 8 - 1 = 39 from rfl, reloaded,
      Option.bind_some, ltr, low, high, isAvailableTss_tssDescriptor,
      tssBase_tssDescriptor site.tssWord, tssLimit_tssDescriptor]
    rfl
  · rw [kept _ (by omega), still.code]
  · rw [kept _ (by omega), still.data]
  · rw [kept _ (by omega), still.stack]
  · intro target gdt tss stack
    have first : after target = between target := store64_outside _ _ _ _ (by omega)
    rw [first, off target stack, fillTables_outside site memory gdt tss]

end Gdt

/-- After both initialisations the processor finds the tables as they are meant. -/
theorem installed_init {site : TableSite} {cpu : Cpu} {memory : Memory} {next : Nat}
    (declared : ∀ target, site.idt ≤ target → target < site.idt + 4096 → memory target = 0)
    (room : 16 ≤ cpu.rsp) (bounded : cpu.rsp < 2 ^ 64) (clear : site.Clear (cpu.rsp - 16) 16)
    (word : next < 2 ^ 64) (reachable : canonical next = true) :
    ∃ loaded after, Gdt.init site cpu memory next = some (loaded, after) ∧
      loaded.rip = next ∧ loaded.rsp = cpu.rsp ∧ loaded.rflags = cpu.rflags ∧
      Installed site (Idt.init site loaded after).1 (Idt.init site loaded after).2 ∧
      ∀ target, ¬ site.InTables target → (target < cpu.rsp - 16 ∨ cpu.rsp ≤ target) →
        (Idt.init site loaded after).2 target = memory target := by
  obtain ⟨after, initialised, code, data, stack, outside⟩ :=
    @Gdt.init_eq site cpu memory next room bounded clear word reachable
  have apart := site.distances
  have untouched (target : Nat) (off : target < site.idt ∨ site.idt + 4096 ≤ target) :
      Idt.installHandlers site after target = after target :=
    Idt.setEntries_outside Idt.installs_below off
  have kept (address : Nat) (off : address + 8 ≤ site.idt ∨ site.idt + 4096 ≤ address) :
      load64 (Idt.installHandlers site after) address = load64 after address :=
    load64_congr _ _ _ fun target low high => untouched target (by omega)
  refine ⟨_, after, initialised, rfl, rfl, rfl, ⟨rfl, rfl, rfl, rfl, rfl, ?_, ?_, ?_, ?_, ?_⟩, ?_⟩
  · exact (kept _ (by omega)).trans code
  · exact (kept _ (by omega)).trans data
  · exact (kept _ (by omega)).trans stack
  · intro vector small
    exact Idt.readGate_setEntries Idt.installs_distinct (Idt.installs_complete small)
      (by split <;> decide)
  · intro vector above small
    have blank (target : Nat) (low : site.idt ≤ target) (high : target < site.idt + 4096) :
        after target = 0 := by
      have off := clear target (Or.inr (Or.inr ⟨low, high⟩))
      rw [outside target (by omega) (by omega) (by omega), declared target low high]
    have same : readGate (Idt.installHandlers site after) site.idt vector =
        readGate after site.idt vector :=
      Idt.readGate_setEntries_other (Idt.installs_exceptions above)
    refine (congrArg Gate.typeAttr same).trans ?_
    simp [readGate, load, blank (site.idt + 16 * vector + 5) (by omega) (by omega)]
  · intro target off stack
    simp only [TableSite.InTables, not_or, not_and, Nat.not_lt] at off
    exact (untouched target (by omega)).trans (outside target (by omega) (by omega) stack)

end XyronOS
