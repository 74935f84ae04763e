import XyronOS.Library.ByteMemory
import XyronOS.Library.WordBits

/-!
# Exception delivery in 64-bit mode

What an x86-64 processor does with an exception or a software interrupt while it runs
at the highest privilege level. It reads a gate of the interrupt descriptor table from
memory, checks the code segment the gate names against the global descriptor table,
picks a stack, which is the current one or an entry of the interrupt stack table in
the task state segment, and pushes the interrupted registers on it.

Any of this may fail with an exception of its own. Two in a row either follow each
other or merge into a double fault, by their classes; a failure to deliver a double
fault shuts the processor down. Each failure moves the exception at hand up in class,
so the chain is short.

`iretq` is the way back. It pops what delivery has pushed and checks the segments
once more, so that a frame nobody has written to restores the interrupted registers.

Which addresses may be written is left open: a function gives the error code of the
page fault that a write causes, or none. The saved copy of the flags is the register
itself; the resume flag that some faults set in it is left out. So is the accessed bit
of a descriptor, bit 40, which the processor sets in memory when it loads a segment
register: no check here reads it.
-/

namespace XyronOS.Interrupts

open ByteMemory WordBits

/-- Limit and base of a descriptor table, as loaded. -/
structure TablePointer where
  limit : Nat
  base : Nat
deriving DecidableEq, Repr

/-- The loaded task state segment. -/
structure TaskRegister where
  selector : Nat
  base : Nat
  limit : Nat
deriving DecidableEq, Repr

/-- The registers that delivery reads or writes. -/
structure Cpu where
  rip : Nat
  cs : Nat
  rflags : Nat
  rsp : Nat
  ss : Nat
  cr2 : Nat
  gdtr : TablePointer
  idtr : TablePointer
  tr : TaskRegister
deriving DecidableEq, Repr

/-- An exception or software interrupt: its vector, its error code if it has one, and for
a page fault the address. -/
structure Interrupt where
  vector : Nat
  errorCode : Option Nat
  address : Option Nat
  software : Bool
deriving DecidableEq, Repr

/-- The vectors below 32 that come with an error code. -/
def pushesErrorCode (vector : Nat) : Bool :=
  [8, 10, 11, 12, 13, 14, 17, 21, 29, 30].contains vector

/-- Addresses are 48 bits wide, sign-extended. -/
def canonical (address : Nat) : Bool :=
  decide (address < 2 ^ 47) || decide (2 ^ 64 - 2 ^ 47 ≤ address)

/-! ### Descriptors -/

/-- Present bit of a segment descriptor. -/
def descriptorPresent (descriptor : Nat) : Bool := descriptor.testBit 47

/-- A descriptor for privilege level 0. -/
def privileged (descriptor : Nat) : Bool := !descriptor.testBit 45 && !descriptor.testBit 46

/-- A code segment for privilege level 0. -/
def isCode (descriptor : Nat) : Bool :=
  descriptor.testBit 44 && descriptor.testBit 43 && privileged descriptor

/-- A 64-bit code segment: the L bit without the D bit. -/
def isLong (descriptor : Nat) : Bool := descriptor.testBit 53 && !descriptor.testBit 54

/-- A writable data segment for privilege level 0. -/
def isWritableData (descriptor : Nat) : Bool :=
  descriptor.testBit 44 && !descriptor.testBit 43 && descriptor.testBit 41 &&
    privileged descriptor

/-- A present 64-bit task state segment that is not busy. -/
def isAvailableTss (descriptor : Nat) : Bool :=
  descriptorPresent descriptor && !descriptor.testBit 44 && descriptor / 2 ^ 40 % 16 == 9

/-- The descriptor a selector names; the null selector and those beyond the limit or in
the local table name none. -/
def descriptorAt (gdtr : TablePointer) (memory : Memory) (selector : Nat) : Option Nat :=
  if selector / 4 = 0 ∨ selector / 4 % 2 = 1 ∨ gdtr.limit < selector / 8 * 8 + 7 then none
  else some (load64 memory (gdtr.base + selector / 8 * 8))

/-- The base of a task state segment, from the two words of its descriptor. -/
def tssBase (low high : Nat) : Nat :=
  low / 2 ^ 16 % 2 ^ 24 + 2 ^ 24 * (low / 2 ^ 56 % 2 ^ 8) + 2 ^ 32 * (high % 2 ^ 32)

/-- Its limit, without the granularity bit. -/
def tssLimit (low : Nat) : Nat := low % 2 ^ 16 + 2 ^ 16 * (low / 2 ^ 48 % 2 ^ 4)

/-- Load the task register; the segment is marked busy. -/
def ltr (cpu : Cpu) (memory : Memory) (selector : Nat) : Option (Cpu × Memory) := do
  let low ← descriptorAt cpu.gdtr memory selector
  let place := cpu.gdtr.base + selector / 8 * 8
  if cpu.gdtr.limit < selector / 8 * 8 + 15 || !isAvailableTss low then none
  else
    let base := tssBase low (load64 memory (place + 8))
    some ({ cpu with tr := ⟨selector, base, tssLimit low⟩ }, store64 memory place (low ||| 2 ^ 41))

/-- Load the stack segment register. -/
def loadSs (cpu : Cpu) (memory : Memory) (selector : Nat) : Option Cpu := do
  let data ← descriptorAt cpu.gdtr memory selector
  if isWritableData data && descriptorPresent data then some { cpu with ss := selector } else none

/-- A far return: pop the instruction pointer and the code segment. -/
def retfq (cpu : Cpu) (memory : Memory) : Option Cpu := do
  let rip := load64 memory cpu.rsp
  let cs := load64 memory (cpu.rsp + 8)
  let code ← descriptorAt cpu.gdtr memory cs
  if isCode code && descriptorPresent code && isLong code && canonical rip then
    some { cpu with rip := rip, cs := cs, rsp := cpu.rsp + 16 }
  else none

/-- Push a word on the current stack. -/
def push (cpu : Cpu) (memory : Memory) (word : Nat) : Cpu × Memory :=
  ({ cpu with rsp := wrappingSub cpu.rsp 8 }, store64 memory (wrappingSub cpu.rsp 8) word)

/-! ### Gates -/

/-- The fields of a gate. -/
structure Gate where
  offset : Nat
  selector : Nat
  ist : Nat
  typeAttr : Nat
deriving DecidableEq, Repr

/-- The gate of a vector. -/
def readGate (memory : Memory) (base vector : Nat) : Gate where
  offset := load memory (base + 16 * vector) 2 + 2 ^ 16 * load memory (base + 16 * vector + 6) 2 +
    2 ^ 32 * load memory (base + 16 * vector + 8) 4
  selector := load memory (base + 16 * vector + 2) 2
  ist := load memory (base + 16 * vector + 4) 1 % 8
  typeAttr := load memory (base + 16 * vector + 5) 1

/-- A failure of delivery, with its error code. -/
def failure (vector code : Nat) : Interrupt := ⟨vector, some code, none, false⟩

/-- The bit of an error code for events that are no software interrupt. -/
def external (event : Interrupt) : Nat := if event.software then 0 else 1

/-- The error code that names the gate of an event. -/
def gateError (event : Interrupt) : Nat := 8 * event.vector + 2 + external event

/-- Check the code segment of a gate and its target. -/
def checkTarget (cpu : Cpu) (memory : Memory) (event : Interrupt) (gate : Gate) :
    Except Interrupt Gate :=
  match descriptorAt cpu.gdtr memory gate.selector with
  | none => .error (failure 13 (gate.selector / 8 * 8 + external event))
  | some descriptor =>
    if !isCode descriptor then .error (failure 13 (gate.selector / 8 * 8 + external event))
    else if !descriptorPresent descriptor then
      .error (failure 11 (gate.selector / 8 * 8 + external event))
    else if !isLong descriptor then .error (failure 13 (gate.selector / 8 * 8 + external event))
    else if !canonical gate.offset then .error (failure 13 (external event))
    else .ok gate

/-- Find the gate of an event: the type is checked before the present bit. -/
def selectGate (cpu : Cpu) (memory : Memory) (event : Interrupt) : Except Interrupt Gate :=
  let gate := readGate memory cpu.idtr.base event.vector
  if cpu.idtr.limit < 16 * event.vector + 15 then .error (failure 13 (gateError event))
  else if gate.typeAttr % 32 ≠ 0xE ∧ gate.typeAttr % 32 ≠ 0xF then
    .error (failure 13 (gateError event))
  else if gate.typeAttr / 128 = 0 then .error (failure 11 (gateError event))
  else checkTarget cpu memory event gate

/-- The stack of a gate: the current one, or an entry of the interrupt stack table. -/
def selectStack (cpu : Cpu) (memory : Memory) (event : Interrupt) (ist : Nat) :
    Except Interrupt Nat :=
  if ist = 0 then .ok cpu.rsp
  else if cpu.tr.limit < 28 + 8 * ist + 7 then
    .error (failure 10 (cpu.tr.selector + external event))
  else
    let top := load64 memory (cpu.tr.base + (28 + 8 * ist))
    if canonical top then .ok top else .error (failure 12 (external event))

/-- The exception for a push that is not possible. -/
def pushFailure (address code : Nat) : Interrupt :=
  if canonical address then ⟨14, some code, some address, false⟩ else failure 12 0

/-- Push words, the first one at the highest address. -/
def pushAll (access : Nat → Option Nat) (memory : Memory) (sp : Nat) :
    List Nat → Except Interrupt Nat × Memory
  | [] => (.ok sp, memory)
  | word :: rest =>
      match access (wrappingSub sp 8) with
      | some code => (.error (pushFailure (wrappingSub sp 8) code), memory)
      | none => pushAll access (store64 memory (wrappingSub sp 8) word) (wrappingSub sp 8) rest

/-- What is pushed for an event. -/
def frameWords (cpu : Cpu) (event : Interrupt) : List Nat :=
  [cpu.ss, cpu.rsp, cpu.rflags, cpu.cs, cpu.rip] ++ event.errorCode.toList

/-- The flags at the entry: an interrupt gate clears the interrupt flag besides the trap,
nested-task and resume flags. -/
def entryFlags (gate : Gate) (rflags : Nat) : Nat :=
  rflags &&& complement (if gate.typeAttr % 32 = 0xE then 0x14300 else 0x14100)

/-- An attempt to deliver an event. -/
def deliverOnce (access : Nat → Option Nat) (cpu : Cpu) (memory : Memory) (event : Interrupt) :
    Except Interrupt Cpu × Memory :=
  match selectGate cpu memory event with
  | .error problem => (.error problem, memory)
  | .ok gate =>
    match selectStack cpu memory event gate.ist with
    | .error problem => (.error problem, memory)
    | .ok top =>
      match pushAll access memory (top / 16 * 16) (frameWords cpu event) with
      | (.error problem, after) => (.error problem, after)
      | (.ok sp, after) =>
        (.ok { cpu with
          rip := gate.offset
          cs := gate.selector
          rflags := entryFlags gate cpu.rflags
          rsp := sp }, after)

/-! ### Exceptions during delivery -/

/-- Exceptions that make a double fault with another of their kind. -/
def contributory (vector : Nat) : Bool := [0, 10, 11, 12, 13, 21].contains vector

/-- Exceptions of the page-fault kind. -/
def pageFaultClass (vector : Nat) : Bool := [14, 20].contains vector

def doubleFault : Interrupt := ⟨8, some 0, none, false⟩

/-- What follows when delivering one event has caused another. -/
def escalate (first second : Interrupt) : Interrupt :=
  if (contributory first.vector && contributory second.vector) ||
      (pageFaultClass first.vector &&
        (contributory second.vector || pageFaultClass second.vector)) then doubleFault
  else second

/-- The end of a delivery: a handler is entered for an event, or the processor is off. -/
inductive Delivered where
  | entered (event : Interrupt) (cpu : Cpu) (memory : Memory)
  | shutdown

/-- The fault address goes to CR2. -/
def noteAddress (cpu : Cpu) (event : Interrupt) : Cpu :=
  { cpu with cr2 := event.address.getD cpu.cr2 }

/-- Deliver an event and whatever comes of it; the classes allow four attempts. -/
def deliverWithin (access : Nat → Option Nat) : Nat → Cpu → Memory → Interrupt → Delivered
  | 0, _, _, _ => .shutdown
  | attempts + 1, cpu, memory, event =>
      match deliverOnce access (noteAddress cpu event) memory event with
      | (.ok entered, after) => .entered event entered after
      | (.error problem, after) =>
          if event.vector = 8 then .shutdown
          else deliverWithin access attempts (noteAddress cpu event) after (escalate event problem)

/-- Deliver an event. -/
def deliver (access : Nat → Option Nat) (cpu : Cpu) (memory : Memory) (event : Interrupt) :
    Delivered :=
  deliverWithin access 4 cpu memory event

/-! ### The way back -/

/-- The frame at an address holds the registers. -/
structure Saved (memory : Memory) (frame : Nat) (cpu : Cpu) : Prop where
  rip : load64 memory frame = cpu.rip
  cs : load64 memory (frame + 8) = cpu.cs
  rflags : load64 memory (frame + 16) = cpu.rflags
  rsp : load64 memory (frame + 24) = cpu.rsp
  ss : load64 memory (frame + 32) = cpu.ss

/-- Return from a handler whose frame is at an address; nothing is returned if a check
fails. -/
def iretq (cpu : Cpu) (memory : Memory) (frame : Nat) : Option Cpu := do
  let rip := load64 memory frame
  let cs := load64 memory (frame + 8)
  let rsp := load64 memory (frame + 24)
  let ss := load64 memory (frame + 32)
  let code ← descriptorAt cpu.gdtr memory cs
  let data ← descriptorAt cpu.gdtr memory ss
  if isCode code && descriptorPresent code && isLong code && isWritableData data &&
      descriptorPresent data && canonical rip then
    some { cpu with rip := rip, cs := cs, rflags := load64 memory (frame + 16), rsp := rsp, ss := ss }
  else none

/-- The registers are words. -/
structure Cpu.Words (cpu : Cpu) : Prop where
  rip : cpu.rip < 2 ^ 64
  cs : cpu.cs < 2 ^ 64
  rflags : cpu.rflags < 2 ^ 64
  rsp : cpu.rsp < 2 ^ 64
  ss : cpu.ss < 2 ^ 64

theorem Cpu.Words.withCr2 {cpu : Cpu} (words : cpu.Words) (cr2 : Nat) :
    ({ cpu with cr2 := cr2 } : Cpu).Words :=
  ⟨words.rip, words.cs, words.rflags, words.rsp, words.ss⟩

/-! ### Pushing -/

section Pushing

variable {access : Nat → Option Nat}

/-- Pushing writes below the stack pointer only, as far as the words reach. -/
theorem pushAll_outside {memory : Memory} {sp : Nat} {words : List Nat}
    (room : 8 * words.length ≤ sp) (bounded : sp < 2 ^ 64) {target : Nat}
    (outside : target < sp - 8 * words.length ∨ sp ≤ target) :
    (pushAll access memory sp words).2 target = memory target := by
  induction words generalizing memory sp with
  | nil => rfl
  | cons word rest inductionHypothesis =>
    simp only [List.length_cons] at room outside
    have below : wrappingSub sp 8 = sp - 8 := wrappingSub_eq sp 8 (by omega) bounded
    rw [pushAll, below]
    cases access (sp - 8) with
    | some code => rfl
    | none =>
      change (pushAll access (store64 memory (sp - 8) word) (sp - 8) rest).2 target = memory target
      rw [inductionHypothesis (by omega) (by omega) (by omega)]
      exact store64_outside memory _ word target (by omega)

/-- With every word's place accessible, pushing succeeds. -/
theorem pushAll_ok {memory : Memory} {sp : Nat} {words : List Nat}
    (room : 8 * words.length ≤ sp) (bounded : sp < 2 ^ 64)
    (accessible : ∀ place < words.length, access (sp - 8 * (place + 1)) = none) :
    (pushAll access memory sp words).1 = .ok (sp - 8 * words.length) := by
  induction words generalizing memory sp with
  | nil => rfl
  | cons word rest inductionHypothesis =>
    simp only [List.length_cons] at room accessible
    have below : wrappingSub sp 8 = sp - 8 := wrappingSub_eq sp 8 (by omega) bounded
    have first : access (sp - 8) = none := accessible 0 (by omega)
    rw [pushAll, below, first]
    change (pushAll access (store64 memory (sp - 8) word) (sp - 8) rest).1 = _
    rw [inductionHypothesis (by omega) (by omega) ?_]
    · rw [List.length_cons, Nat.mul_succ, Nat.sub_sub, Nat.add_comm]
    · intro place inside
      have next := accessible (place + 1) (by omega)
      rwa [show sp - 8 * (place + 1 + 1) = sp - 8 - 8 * (place + 1) by omega] at next

/-- A push that succeeds ends as far down as the words reach. -/
theorem pushAll_last {memory : Memory} {sp last : Nat} {words : List Nat}
    (room : 8 * words.length ≤ sp) (bounded : sp < 2 ^ 64)
    (pushed : (pushAll access memory sp words).1 = .ok last) : last = sp - 8 * words.length := by
  induction words generalizing memory sp with
  | nil => exact (Except.ok.inj pushed).symm
  | cons word rest inductionHypothesis =>
    simp only [List.length_cons] at room
    have below : wrappingSub sp 8 = sp - 8 := wrappingSub_eq sp 8 (by omega) bounded
    rw [pushAll, below] at pushed
    cases free : access (sp - 8) with
    | some code => simp [free] at pushed
    | none =>
      simp only [free] at pushed
      rw [inductionHypothesis (by omega) (by omega) pushed, List.length_cons]
      omega

/-- A push that fails fails with a page fault or, off the canonical addresses, with a
stack fault. -/
theorem pushAll_error {memory : Memory} {sp : Nat} {words : List Nat} {problem : Interrupt}
    (failed : (pushAll access memory sp words).1 = .error problem) :
    ∃ address code, problem = pushFailure address code := by
  induction words generalizing memory sp with
  | nil => exact absurd failed (by simp [pushAll])
  | cons word rest inductionHypothesis =>
    rw [pushAll] at failed
    cases blocked : access (wrappingSub sp 8) with
    | some code =>
      rw [blocked] at failed
      exact ⟨_, code, (Except.error.inj failed).symm⟩
    | none =>
      rw [blocked] at failed
      exact inductionHypothesis failed

/-- The words of a push that succeeds are where they were pushed. -/
theorem load64_pushAll {memory : Memory} {sp : Nat} {words : List Nat}
    (room : 8 * words.length ≤ sp) (bounded : sp < 2 ^ 64) {last : Nat}
    (pushed : (pushAll access memory sp words).1 = .ok last) {place : Nat}
    (inside : place < words.length) :
    load64 (pushAll access memory sp words).2 (sp - 8 * (place + 1)) =
      words[place] % 2 ^ 64 := by
  induction words generalizing memory sp place with
  | nil => exact absurd inside (Nat.not_lt_zero place)
  | cons word rest inductionHypothesis =>
    simp only [List.length_cons] at room inside
    have below : wrappingSub sp 8 = sp - 8 := wrappingSub_eq sp 8 (by omega) bounded
    rw [pushAll, below] at pushed ⊢
    cases free : access (sp - 8) with
    | some code => simp [free] at pushed
    | none =>
      simp only [free] at pushed ⊢
      cases place with
      | zero =>
        have kept : load64 (pushAll access (store64 memory (sp - 8) word) (sp - 8) rest).2 (sp - 8) =
            load64 (store64 memory (sp - 8) word) (sp - 8) :=
          load64_congr _ _ _ fun target low high =>
            pushAll_outside (by omega) (by omega) (Or.inr low)
        simpa using kept
      | succ place =>
        have next := inductionHypothesis (by omega) (by omega) pushed
          (show place < rest.length by omega)
        rw [show sp - 8 * (place + 1 + 1) = sp - 8 - 8 * (place + 1) by omega, next]
        rfl

end Pushing

/-! ### One attempt -/

section Attempt

variable {access : Nat → Option Nat} {cpu : Cpu} {memory : Memory} {event : Interrupt}
  {gate : Gate} {top : Nat}

/-- An attempt whose gate and stack are found comes down to the pushes. -/
theorem deliverOnce_eq (found : selectGate cpu memory event = .ok gate)
    (stack : selectStack cpu memory event gate.ist = .ok top) :
    deliverOnce access cpu memory event =
      match pushAll access memory (top / 16 * 16) (frameWords cpu event) with
      | (.error problem, after) => (.error problem, after)
      | (.ok sp, after) =>
        (.ok { cpu with
          rip := gate.offset
          cs := gate.selector
          rflags := entryFlags gate cpu.rflags
          rsp := sp }, after) := by
  rw [deliverOnce, found]
  simp only [stack]

/-- The frame is saved, and the error code is right below it. -/
theorem saved_pushAll (words : cpu.Words) {sp last : Nat} (room : 48 ≤ sp) (bounded : sp < 2 ^ 64)
    (pushed : (pushAll access memory sp (frameWords cpu event)).1 = .ok last) :
    Saved (pushAll access memory sp (frameWords cpu event)).2 (sp - 40) cpu ∧
      ∀ code, event.errorCode = some code →
        load64 (pushAll access memory sp (frameWords cpu event)).2 (sp - 48) = code % 2 ^ 64 := by
  have length : (frameWords cpu event).length = 5 + event.errorCode.toList.length := by
    rw [frameWords, List.length_append]
    rfl
  have short : event.errorCode.toList.length ≤ 1 := by cases event.errorCode <;> simp
  have word (place : Nat) (inside : place < (frameWords cpu event).length) :=
    load64_pushAll (by omega) bounded pushed inside
  have shifted (offset : Nat) (small : offset ≤ 40) : sp - 40 + offset = sp - (40 - offset) := by
    omega
  refine ⟨⟨?_, ?_, ?_, ?_, ?_⟩, ?_⟩
  · exact (word 4 (by omega)).trans (Nat.mod_eq_of_lt words.rip)
  · rw [shifted 8 (by decide)]
    exact (word 3 (by omega)).trans (Nat.mod_eq_of_lt words.cs)
  · rw [shifted 16 (by decide)]
    exact (word 2 (by omega)).trans (Nat.mod_eq_of_lt words.rflags)
  · rw [shifted 24 (by decide)]
    exact (word 1 (by omega)).trans (Nat.mod_eq_of_lt words.rsp)
  · rw [shifted 32 (by decide)]
    exact (word 0 (by omega)).trans (Nat.mod_eq_of_lt words.ss)
  · intro code has
    have sixth : 5 < (frameWords cpu event).length := by simp [length, has]
    have value : (frameWords cpu event)[5] = code := by simp [frameWords, has]
    exact (word 5 sixth).trans (by rw [value])

/-- A frame nobody has written to restores the registers. -/
theorem iretq_saved {current : Cpu} {frame code data : Nat} (saved : Saved memory frame cpu)
    (codeSegment : descriptorAt current.gdtr memory cpu.cs = some code)
    (dataSegment : descriptorAt current.gdtr memory cpu.ss = some data)
    (good : (isCode code && descriptorPresent code && isLong code && isWritableData data &&
      descriptorPresent data) = true) (reachable : canonical cpu.rip = true) :
    iretq current memory frame =
      some { current with
        rip := cpu.rip, cs := cpu.cs, rflags := cpu.rflags, rsp := cpu.rsp, ss := cpu.ss } := by
  simp only [iretq, saved.rip, saved.cs, saved.rflags, saved.rsp, saved.ss, codeSegment,
    dataSegment, Option.bind_eq_bind, Option.bind_some, good, reachable, Bool.and_self, if_true]

end Attempt

/-! ### Chains -/

/-- How far up an event is: benign, contributory, page fault, double fault. -/
def rank (event : Interrupt) : Nat :=
  if event.vector = 8 then 3 else if pageFaultClass event.vector then 2
  else if contributory event.vector then 1 else 0

theorem rank_le (event : Interrupt) : rank event ≤ 3 := by
  unfold rank
  split_ifs <;> decide

/-- An exception that delivery itself may cause: they all come with an error code. -/
def Consequent (problem : Interrupt) : Prop :=
  problem.vector ∈ [10, 11, 12, 13, 14] ∧ problem.errorCode.isSome = true

theorem Consequent.classed {problem : Interrupt} (consequent : Consequent problem) :
    contributory problem.vector = true ∨ pageFaultClass problem.vector = true := by
  have known : ∀ vector ∈ [10, 11, 12, 13, 14],
      contributory vector = true ∨ pageFaultClass vector = true := by decide
  exact known _ consequent.1

theorem consequent_failure {vector : Nat} (known : vector ∈ [10, 11, 12, 13, 14]) (code : Nat) :
    Consequent (failure vector code) :=
  ⟨known, rfl⟩

theorem consequent_pushFailure (address code : Nat) : Consequent (pushFailure address code) := by
  unfold pushFailure
  split
  · exact ⟨show 14 ∈ [10, 11, 12, 13, 14] by decide, rfl⟩
  · exact consequent_failure (by decide) 0

/-- A consequent exception is no double fault yet. -/
theorem Consequent.single {problem : Interrupt} (consequent : Consequent problem) :
    problem.vector ≠ 8 := by
  intro eight
  have known := consequent.1
  rw [eight] at known
  exact absurd known (by decide)

/-- What follows an event other than a double fault is further up. -/
theorem rank_escalate {first second : Interrupt} (single : first.vector ≠ 8)
    (consequent : Consequent second) : rank first < rank (escalate first second) := by
  have notEight := consequent.single
  have classed := consequent.classed
  have exclusive : pageFaultClass first.vector = true → contributory first.vector = false := by
    simp only [pageFaultClass, contributory, List.contains_eq_mem, List.mem_cons,
      List.not_mem_nil, or_false, decide_eq_true_eq, decide_eq_false_iff_not]
    omega
  unfold escalate
  split_ifs with merged
  · have top : rank doubleFault = 3 := rfl
    rw [top, rank, if_neg single]
    split_ifs <;> decide
  · simp only [Bool.or_eq_true, Bool.and_eq_true, not_or, not_and] at merged
    rw [rank, rank, if_neg single, if_neg notEight]
    clear consequent
    generalize contributory first.vector = firstContributes at *
    generalize pageFaultClass first.vector = firstPages at *
    generalize contributory second.vector = secondContributes at *
    generalize pageFaultClass second.vector = secondPages at *
    cases firstContributes <;> cases firstPages <;> cases secondContributes <;>
      cases secondPages <;> simp_all

/-- What follows an event is the second one or a double fault. -/
theorem escalate_cases (first second : Interrupt) :
    escalate first second = doubleFault ∨ escalate first second = second := by
  unfold escalate
  split_ifs
  · exact Or.inl rfl
  · exact Or.inr rfl

/-- What a processor needs so that no event shuts it down: as long as its tables hold,
a double fault is delivered, and a failed attempt leaves an exception of one of the
classes and the tables as they were. -/
structure Dependable (access : Nat → Option Nat) (holds : Cpu → Memory → Prop) : Prop where
  note : ∀ cpu memory event, holds cpu memory → holds (noteAddress cpu event) memory
  doubleFault : ∀ cpu memory event, holds cpu memory → event.vector = 8 →
    ∃ entered after, deliverOnce access cpu memory event = (.ok entered, after)
  failed : ∀ cpu memory event problem after, holds cpu memory →
    deliverOnce access cpu memory event = (.error problem, after) →
    Consequent problem ∧ holds cpu after

/-- Every event ends in a handler. The handler is entered by an attempt on the tables as
they are, for the event itself or for what came of it. -/
theorem Dependable.enters {access : Nat → Option Nat} {holds : Cpu → Memory → Prop}
    (dependable : Dependable access holds) {attempts : Nat} {cpu : Cpu} {memory : Memory}
    {event : Interrupt} (enough : 4 ≤ attempts + rank event) (tables : holds cpu memory) :
    ∃ final at_ before entered after,
      deliverWithin access attempts cpu memory event = .entered final entered after ∧
      deliverOnce access at_ before final = (.ok entered, after) ∧ holds at_ before ∧
      (∃ cr2, at_ = { cpu with cr2 := cr2 }) ∧
      (final = event ∧ at_ = noteAddress cpu event ∧ before = memory ∨
        (final = Interrupts.doubleFault ∨ Consequent final) ∧
          ∃ problem after, deliverOnce access (noteAddress cpu event) memory event =
            (.error problem, after)) := by
  induction attempts generalizing cpu memory event with
  | zero =>
    have bounded := rank_le event
    omega
  | succ attempts inductionHypothesis =>
    have noted := dependable.note cpu memory event tables
    rw [deliverWithin]
    cases attempt : deliverOnce access (noteAddress cpu event) memory event with
    | mk result after =>
      cases result with
      | ok entered =>
        exact ⟨event, noteAddress cpu event, memory, entered, after, rfl, attempt, noted, ⟨_, rfl⟩,
          Or.inl ⟨rfl, rfl, rfl⟩⟩
      | error problem =>
        obtain ⟨consequent, kept⟩ := dependable.failed _ _ _ _ _ noted attempt
        have single : event.vector ≠ 8 := by
          intro eight
          obtain ⟨entered, other, succeeded⟩ := dependable.doubleFault _ _ event noted eight
          rw [attempt] at succeeded
          cases succeeded
        have higher := rank_escalate single consequent
        simp only [single, if_false]
        obtain ⟨final, at_, before, entered, last, result, reached, holding, ⟨cr2, same⟩, origin⟩ :=
          inductionHypothesis (show 4 ≤ attempts + rank (escalate event problem) by omega) kept
        refine ⟨final, at_, before, entered, last, result, reached, holding, ⟨cr2, same⟩,
          Or.inr ⟨?_, problem, after, rfl⟩⟩
        obtain ⟨rfl, -, -⟩ | ⟨known, -⟩ := origin
        · obtain merged | second := escalate_cases event problem
          · exact Or.inl merged
          · rw [second]
            exact Or.inr consequent
        · exact known

end XyronOS.Interrupts
