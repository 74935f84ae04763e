import XyronOS.Arch.DescriptorTables
import XyronOS.Arch.Exceptions
import XyronOS.Library.Executions

/-!
# The kernel under exceptions

The kernel runs, exceptions and software interrupts strike at any point of it, and
handlers run, which may be struck themselves. A handler that has been entered is
active until it is done; a nested one is done before the one it has interrupted goes
on. The kernel's own code, and that of the handlers, may write anywhere but to the
descriptor tables and to the frames of active handlers.

An exception needs a stack. The current stack pointer may be anything, on a page that
is not mapped, or no address at all: then delivery ends in the handler for double
faults, which has its own stack. As long as that stack is accessible the processor
never shuts down. A second double fault takes the same stack again from its top and
writes over the first one's frame. Its handler does not return, so that only the
frames above the last double fault matter.

A breakpoint gives the interrupted code all its registers back, on whatever level it
has struck. After any other exception the interrupted code does not run again.
-/

namespace XyronOS

open ByteMemory WordBits Interrupts Executions

namespace ExceptionRuns

/-- An event comes with an error code exactly if its vector calls for one. -/
def Valid (event : Interrupt) : Prop := event.errorCode.isSome = pushesErrorCode event.vector

/-- A handler that has been entered: the event, the stack pointer at its entry, and the
registers of the code it interrupts. -/
structure Activation where
  event : Interrupt
  entry : Nat
  interrupted : Cpu

/-- The frame of an activation, by the signature of its handler. -/
def Activation.frame (activation : Activation) : Nat :=
  (Exceptions.handlerAt activation.event.vector).frameAddress activation.entry

inductive Status where
  | running
  | halted
  | shutdown
deriving DecidableEq, Repr

/-- The processor with its memory, the active handlers, the latest one first, and the
text printed so far. -/
structure Kernel where
  cpu : Cpu
  memory : Memory
  active : List Activation
  status : Status
  output : List (BitVec 8)

/-- The handlers that may still return, and the one that ends them: a double fault does
not go back to what is below it. -/
def pendingFrames : List Activation → List Activation
  | [] => []
  | activation :: rest =>
      if activation.event.vector = 8 then [activation] else activation :: pendingFrames rest

/-- Top of the stack after alignment. -/
def aligned (rsp : Nat) : Nat := rsp / 16 * 16

/-- The stack for double faults takes a frame. -/
def StackReady (site : TableSite) (access : Nat → Option Nat) : Prop :=
  ∀ place < 6, access (site.doubleFaultStack + 16384 - 8 * (place + 1)) = none

/-- A frame below the stack pointer would meet neither the tables nor a pending frame. -/
structure Room (site : TableSite) (kernel : Kernel) : Prop where
  space : 48 ≤ aligned kernel.cpu.rsp
  tables : site.Clear (aligned kernel.cpu.rsp - 48) 48
  frames : ∀ activation ∈ pendingFrames kernel.active,
    aligned kernel.cpu.rsp ≤ activation.entry ∨
      activation.frame + 40 ≤ aligned kernel.cpu.rsp - 48

/-- What code may do between exceptions: any registers except those of the tables and
segments, any memory except the tables and the pending frames. -/
structure Ordinary (site : TableSite) (kernel : Kernel) (cpu : Cpu) (memory : Memory) : Prop where
  gdtr : cpu.gdtr = kernel.cpu.gdtr
  idtr : cpu.idtr = kernel.cpu.idtr
  tr : cpu.tr = kernel.cpu.tr
  cs : cpu.cs = kernel.cpu.cs
  ss : cpu.ss = kernel.cpu.ss
  words : cpu.Words
  reachable : canonical cpu.rip = true
  tables : site.Agree memory kernel.memory
  frames : ∀ activation ∈ pendingFrames kernel.active, ∀ target,
    activation.entry ≤ target → target < activation.frame + 40 →
    memory target = kernel.memory target

/-- The handler on top is done: a breakpoint returns, all others halt. -/
def finish (kernel : Kernel) (activation : Activation) (rest : List Activation) : Kernel :=
  let handler := Exceptions.handlerAt activation.event.vector
  let output := kernel.output ++ handler.text kernel.memory activation.entry kernel.cpu.cr2
  if handler.vector = 3 then
    match iretq kernel.cpu kernel.memory activation.frame with
    | some cpu => { kernel with cpu := cpu, active := rest, output := output }
    | none => { kernel with status := .shutdown, output := output }
  else { kernel with status := .halted, output := output }

/-- The state after an event has been delivered. -/
def struck (kernel : Kernel) : Delivered → Kernel
  | .shutdown => { kernel with status := .shutdown }
  | .entered event cpu memory =>
      { kernel with
        cpu := cpu
        memory := memory
        active := ⟨event, cpu.rsp, kernel.cpu⟩ :: kernel.active }

/-- One step; its label is the event that strikes. -/
inductive Step (site : TableSite) (kernel : Kernel) : Option Interrupt → Kernel → Prop where
  | work {cpu : Cpu} {memory : Memory} (running : kernel.status = .running)
      (ordinary : Ordinary site kernel cpu memory) :
      Step site kernel none { kernel with cpu := cpu, memory := memory }
  | strike (access : Nat → Option Nat) (event : Interrupt) (running : kernel.status = .running)
      (valid : Valid event) (ready : StackReady site access) (room : Room site kernel) :
      Step site kernel (some event)
        (struck kernel (deliver access kernel.cpu kernel.memory event))
  | finish {activation : Activation} {rest : List Activation} (running : kernel.status = .running)
      (top : kernel.active = activation :: rest) :
      Step site kernel none (finish kernel activation rest)

/-! ### One delivery -/

section Delivery

variable {site : TableSite} {cpu : Cpu} {memory : Memory} {access : Nat → Option Nat}

/-- The processor and the memory as a chain of attempts may have left them. -/
structure Attempted (site : TableSite) (cpu : Cpu) (memory : Memory) (now : Cpu) (after : Memory) :
    Prop where
  registers : ∃ cr2, now = { cpu with cr2 := cr2 }
  outside : ∀ target, target < aligned cpu.rsp - 48 ∨ aligned cpu.rsp ≤ target →
    after target = memory target

theorem aligned_le (rsp : Nat) : aligned rsp ≤ rsp := Nat.div_mul_le_self rsp 16

theorem Attempted.installed {now : Cpu} {after : Memory} (installed : Installed site cpu memory)
    (clear : site.Clear (aligned cpu.rsp - 48) 48) (space : 48 ≤ aligned cpu.rsp)
    (attempted : Attempted site cpu memory now after) : Installed site now after := by
  obtain ⟨⟨cr2, rfl⟩, outside⟩ := attempted
  refine installed.congr rfl rfl rfl rfl rfl fun target inside => outside target ?_
  have off := clear target inside
  omega

theorem frameWords_length (cpu : Cpu) (event : Interrupt) : (frameWords cpu event).length ≤ 6 := by
  have short : event.errorCode.toList.length ≤ 1 := by cases event.errorCode <;> simp
  rw [frameWords, List.length_append]
  exact Nat.add_le_add_left short 5

/-- An attempt for an exception comes down to the pushes on its stack. -/
theorem deliverOnce_exception (installed : Installed site cpu memory) {event : Interrupt}
    (exception : event.vector < 32) :
    deliverOnce access cpu memory event =
      match pushAll access memory
          (aligned (if event.vector = 8 then site.doubleFaultStack + 16384 else cpu.rsp))
          (frameWords cpu event) with
      | (.error problem, after) => (.error problem, after)
      | (.ok sp, after) =>
        (.ok { cpu with
          rip := site.handler event.vector
          cs := Gdt.kernelCodeSelector
          rflags := entryFlags ⟨site.handler event.vector, Gdt.kernelCodeSelector,
            if event.vector = 8 then 1 else 0, Idt.typeAttrInterruptGate⟩ cpu.rflags
          rsp := sp }, after) :=
  deliverOnce_eq (installed.selectGate_exception exception) (installed.selectStack_eq event)

theorem aligned_doubleFaultStack (site : TableSite) :
    aligned (site.doubleFaultStack + 16384) = site.doubleFaultStack + 16384 := by
  have whole := site.stackAligned
  unfold aligned
  omega

/-- The stack of an event, aligned, has room for a frame. -/
theorem top_bounds (words : cpu.Words) (space : 48 ≤ aligned cpu.rsp) (event : Interrupt) :
    48 ≤ aligned (if event.vector = 8 then site.doubleFaultStack + 16384 else cpu.rsp) ∧
      aligned (if event.vector = 8 then site.doubleFaultStack + 16384 else cpu.rsp) < 2 ^ 64 := by
  split
  · have fits := site.stackWord
    rw [aligned_doubleFaultStack]
    omega
  · have below := aligned_le cpu.rsp
    have bounded := words.rsp
    omega

/-- An attempt for an exception whose stack is accessible succeeds. -/
theorem attempt_enters (installed : Installed site cpu memory) (words : cpu.Words)
    (space : 48 ≤ aligned cpu.rsp) {event : Interrupt} (exception : event.vector < 32)
    (accessible : ∀ place < 6, access (aligned (if event.vector = 8 then
      site.doubleFaultStack + 16384 else cpu.rsp) - 8 * (place + 1)) = none) :
    ∃ entered after, deliverOnce access cpu memory event = (.ok entered, after) := by
  have length := frameWords_length cpu event
  have bounds := @top_bounds site cpu words space event
  rw [deliverOnce_exception installed exception]
  generalize aligned (if event.vector = 8 then site.doubleFaultStack + 16384 else cpu.rsp) =
    top at accessible bounds
  have pushed : (pushAll access memory top (frameWords cpu event)).1 = .ok _ :=
    pushAll_ok (by omega) bounds.2 fun place inside => accessible place (by omega)
  generalize pushAll access memory top (frameWords cpu event) = result at pushed
  obtain ⟨outcome, last⟩ := result
  obtain rfl : outcome = _ := pushed
  exact ⟨_, last, rfl⟩

/-- A double fault is delivered. -/
theorem doubleFault_enters (installed : Installed site cpu memory) (words : cpu.Words)
    (space : 48 ≤ aligned cpu.rsp) (ready : StackReady site access) {event : Interrupt}
    (eight : event.vector = 8) :
    ∃ entered after, deliverOnce access cpu memory event = (.ok entered, after) := by
  refine attempt_enters installed words space (by omega) ?_
  rw [if_pos eight, aligned_doubleFaultStack]
  exact ready

/-- A failed attempt leaves an exception of one of the classes, and has written below the
stack pointer only. -/
theorem failed_attempt (installed : Installed site cpu memory) (words : cpu.Words)
    (ready : StackReady site access) (space : 48 ≤ aligned cpu.rsp) {event problem : Interrupt}
    {after : Memory} (failed : deliverOnce access cpu memory event = (.error problem, after)) :
    Consequent problem ∧
      ∀ target, target < aligned cpu.rsp - 48 ∨ aligned cpu.rsp ≤ target →
        after target = memory target := by
  by_cases exception : event.vector < 32
  · have single : event.vector ≠ 8 := by
      intro eight
      obtain ⟨entered, last, succeeded⟩ :=
        doubleFault_enters installed words space ready eight
      rw [failed] at succeeded
      cases succeeded
    have length := frameWords_length cpu event
    have below := aligned_le cpu.rsp
    have bounded := words.rsp
    have kept (target : Nat) (off : target < aligned cpu.rsp - 48 ∨ aligned cpu.rsp ≤ target) :
        (pushAll access memory (aligned cpu.rsp) (frameWords cpu event)).2 target = memory target :=
      pushAll_outside (by omega) (by omega) (by omega)
    rw [deliverOnce_exception installed exception, if_neg single] at failed
    cases pushed : pushAll access memory (aligned cpu.rsp) (frameWords cpu event) with
    | mk outcome last =>
      rw [pushed] at failed kept
      cases outcome with
      | ok sp => cases failed
      | error cause =>
        obtain ⟨rfl, rfl⟩ : cause = problem ∧ last = after := by simpa using failed
        obtain ⟨address, code, rfl⟩ := pushAll_error (congrArg Prod.fst pushed)
        exact ⟨consequent_pushFailure address code, kept⟩
  · rw [deliverOnce, installed.selectGate_missing (by omega)] at failed
    obtain ⟨rfl, rfl⟩ : failure 13 (gateError event) = problem ∧ memory = after := by
      simpa using failed
    exact ⟨consequent_failure (by decide) _, fun _ _ => rfl⟩

/-- No event shuts the processor down. -/
theorem dependable (installed : Installed site cpu memory) (words : cpu.Words)
    (ready : StackReady site access) (space : 48 ≤ aligned cpu.rsp)
    (clear : site.Clear (aligned cpu.rsp - 48) 48) :
    Dependable access (Attempted site cpu memory) where
  note now after event attempted := by
    obtain ⟨⟨cr2, rfl⟩, outside⟩ := attempted
    exact ⟨⟨_, rfl⟩, outside⟩
  doubleFault now after event attempted eight := by
    have tables := attempted.installed installed clear space
    obtain ⟨⟨cr2, rfl⟩, outside⟩ := attempted
    exact doubleFault_enters tables (words.withCr2 cr2) space ready eight
  failed now after event problem last attempted failed := by
    have tables := attempted.installed installed clear space
    obtain ⟨⟨cr2, rfl⟩, outside⟩ := attempted
    obtain ⟨consequent, kept⟩ := failed_attempt tables (words.withCr2 cr2) ready space failed
    exact ⟨consequent, ⟨cr2, rfl⟩, fun target off => (kept target off).trans (outside target off)⟩

/-- What holds when a handler has been entered: which one, where the frame is, that the
handler finds the interrupted registers and the error code there, and that nothing
but the stack has been written. -/
structure Entry (site : TableSite) (cpu : Cpu) (memory : Memory) (final : Interrupt)
    (entered : Cpu) (after : Memory) : Prop where
  exception : final.vector < 32
  valid : Valid final
  rip : entered.rip = site.handler final.vector
  stack : (Exceptions.handlerAt final.vector).frameAddress entered.rsp =
    aligned (if final.vector = 8 then site.doubleFaultStack + 16384 else cpu.rsp) - 40
  saved : Saved after ((Exceptions.handlerAt final.vector).frameAddress entered.rsp) cpu
  errorCode : (Exceptions.handlerAt final.vector).errorCode after entered.rsp =
    final.errorCode.map (· % 2 ^ 64)
  tables : Installed site entered after
  words : entered.Words
  outside : ∀ target, target < aligned cpu.rsp - 48 ∨ aligned cpu.rsp ≤ target →
    (final.vector = 8 →
      target < site.doubleFaultStack ∨ site.doubleFaultStack + 16384 ≤ target) →
    after target = memory target

theorem entryFlags_lt (gate : Gate) {rflags : Nat} (word : rflags < 2 ^ 64) :
    entryFlags gate rflags < 2 ^ 64 :=
  Nat.lt_of_le_of_lt Nat.and_le_left word

/-- By its signature a handler finds the frame above the error code, if there is one. -/
theorem frameAddress_eq {event : Interrupt} (exception : event.vector < 32) (valid : Valid event)
    (rsp : Nat) :
    (Exceptions.handlerAt event.vector).frameAddress rsp =
      rsp + 8 * event.errorCode.toList.length := by
  have agrees : (Exceptions.handlerAt event.vector).takesErrorCode = event.errorCode.isSome :=
    (Exceptions.handlerAt_spec exception).2.trans valid.symm
  unfold Exceptions.Handler.frameAddress
  rw [agrees]
  cases event.errorCode <;> simp

/-- A successful attempt for an exception enters its handler. -/
theorem entry_of_attempt (installed : Installed site cpu memory) (words : cpu.Words)
    (space : 48 ≤ aligned cpu.rsp) (clear : site.Clear (aligned cpu.rsp - 48) 48)
    {event : Interrupt} (exception : event.vector < 32) (valid : Valid event) {entered : Cpu}
    {after : Memory} (succeeded : deliverOnce access cpu memory event = (.ok entered, after)) :
    Entry site cpu memory event entered after := by
  have bounds := @top_bounds site cpu words space event
  have length : (frameWords cpu event).length = 5 + event.errorCode.toList.length := by
    rw [frameWords, List.length_append]
    rfl
  have short : event.errorCode.toList.length ≤ 1 := by cases event.errorCode <;> simp
  rw [deliverOnce_exception installed exception] at succeeded
  have off (target : Nat) (rsp : target < aligned cpu.rsp - 48 ∨ aligned cpu.rsp ≤ target)
      (stack : event.vector = 8 →
        target < site.doubleFaultStack ∨ site.doubleFaultStack + 16384 ≤ target) :
      target < aligned (if event.vector = 8 then site.doubleFaultStack + 16384 else cpu.rsp) -
          8 * (frameWords cpu event).length ∨
        aligned (if event.vector = 8 then site.doubleFaultStack + 16384 else cpu.rsp) ≤ target := by
    by_cases eight : event.vector = 8
    · have outside := stack eight
      rw [if_pos eight, aligned_doubleFaultStack]
      omega
    · rw [if_neg eight]
      omega
  generalize position : aligned (if event.vector = 8 then site.doubleFaultStack + 16384
    else cpu.rsp) = top at succeeded bounds off
  cases pushed : pushAll access memory top (frameWords cpu event) with
  | mk outcome last =>
    rw [pushed] at succeeded
    cases outcome with
    | error problem => cases succeeded
    | ok sp =>
      obtain ⟨outcome, rfl⟩ := Prod.mk.inj succeeded
      obtain rfl := Except.ok.inj outcome
      have fits : 8 * (frameWords cpu event).length ≤ top := by omega
      have reached : sp = top - 8 * (frameWords cpu event).length :=
        pushAll_last fits bounds.2 (congrArg Prod.fst pushed)
      have kept (target : Nat) (outside : target < top - 8 * (frameWords cpu event).length ∨
          top ≤ target) : last target = memory target := by
        have same := @pushAll_outside access memory top _ fits bounds.2 target outside
        rwa [pushed] at same
      have frame : (Exceptions.handlerAt event.vector).frameAddress sp = top - 40 := by
        rw [frameAddress_eq exception valid]
        omega
      have contents := @saved_pushAll access cpu memory event words top sp bounds.1 bounds.2
        (congrArg Prod.fst pushed)
      rw [pushed] at contents
      refine ⟨exception, valid, rfl, frame.trans (by rw [position]), ?_, ?_, ?_, ?_, ?_⟩
      · exact frame.symm ▸ contents.1
      · have agrees : (Exceptions.handlerAt event.vector).takesErrorCode =
            event.errorCode.isSome := (Exceptions.handlerAt_spec exception).2.trans valid.symm
        unfold Exceptions.Handler.errorCode
        rw [agrees]
        cases coded : event.errorCode with
        | none => rfl
        | some code =>
          have place : sp = top - 48 := by
            rw [reached, length, coded]
            rfl
          have word := contents.2 code coded
          simp only [Option.isSome_some, if_true, Option.map_some]
          rw [place, word]
      · refine installed.congr rfl rfl rfl installed.cs.symm rfl fun target inside =>
          kept target (off target ?_ fun _ => TableSite.stack_off inside)
        have outside := clear target inside
        omega
      · exact ⟨site.handlerWord _, show Gdt.kernelCodeSelector < 2 ^ 64 by decide,
          entryFlags_lt _ words.rflags, by
          change sp < 2 ^ 64
          omega, words.ss⟩
      · exact fun target rsp stack => kept target (off target rsp stack)

/-- Every event enters a handler: its own if its stack is accessible, and in any case its
own or one that does not return. -/
theorem delivers (installed : Installed site cpu memory) (words : cpu.Words)
    (ready : StackReady site access) (space : 48 ≤ aligned cpu.rsp)
    (clear : site.Clear (aligned cpu.rsp - 48) 48) {event : Interrupt} (valid : Valid event) :
    ∃ final entered after, deliver access cpu memory event = .entered final entered after ∧
      Entry site cpu memory final entered after ∧ (final = event ∨ final.vector ≠ 3) ∧
      (event.vector < 32 → (∀ place < 6, access (aligned (if event.vector = 8 then
        site.doubleFaultStack + 16384 else cpu.rsp) - 8 * (place + 1)) = none) →
        final = event) := by
  obtain ⟨final, now, before, entered, after, result, attempt, attempted, -, origin⟩ :=
    (dependable installed words ready space clear).enters (Nat.le_add_right 4 (rank event))
      ⟨⟨cpu.cr2, rfl⟩, fun _ _ => rfl⟩
  have tables := attempted.installed installed clear space
  have within : final.vector < 32 := by
    by_contra beyond
    rw [deliverOnce, tables.selectGate_missing (by omega)] at attempt
    cases attempt
  have known : Valid final ∧ (final = event ∨ final.vector ≠ 3) := by
    obtain ⟨rfl, -, -⟩ | ⟨rfl | ⟨vector, coded⟩, -⟩ := origin
    · exact ⟨valid, Or.inl rfl⟩
    · exact ⟨rfl, Or.inr (by decide)⟩
    · have facts : ∀ vector ∈ [10, 11, 12, 13, 14], pushesErrorCode vector = true ∧ vector ≠ 3 := by
        decide
      have here := facts _ vector
      exact ⟨coded.trans here.1.symm, Or.inr here.2⟩
  obtain ⟨⟨cr2, rfl⟩, outside⟩ := attempted
  have entry := entry_of_attempt tables (words.withCr2 cr2) space clear within known.1 attempt
  refine ⟨final, entered, after, result, ?_, known.2, ?_⟩
  · exact ⟨entry.exception, entry.valid, entry.rip, entry.stack,
      ⟨entry.saved.rip, entry.saved.cs, entry.saved.rflags, entry.saved.rsp, entry.saved.ss⟩,
      entry.errorCode, entry.tables, entry.words,
      fun target rsp stack => (entry.outside target rsp stack).trans (outside target rsp)⟩
  · intro exception accessible
    obtain ⟨same, -, -⟩ | ⟨-, problem, left, failed⟩ := origin
    · exact same
    · have noted : Installed site (noteAddress cpu event) memory :=
        installed.congr rfl rfl rfl rfl rfl fun _ _ => rfl
      obtain ⟨entered, last, succeeded⟩ :=
        @attempt_enters site (noteAddress cpu event) memory access noted
          (words.withCr2 _) space event exception accessible
      rw [failed] at succeeded
      cases succeeded

/-- An exception whose stack is accessible enters its own handler, which finds the address
of a page fault in CR2. -/
theorem enters_own (installed : Installed site cpu memory) (words : cpu.Words)
    (space : 48 ≤ aligned cpu.rsp) (clear : site.Clear (aligned cpu.rsp - 48) 48)
    {event : Interrupt} (exception : event.vector < 32) (valid : Valid event)
    (accessible : ∀ place < 6, access (aligned (if event.vector = 8 then
      site.doubleFaultStack + 16384 else cpu.rsp) - 8 * (place + 1)) = none) :
    ∃ entered after, deliver access cpu memory event = .entered event entered after ∧
      Entry site cpu memory event entered after ∧
      entered.cr2 = event.address.getD cpu.cr2 := by
  have noted : Installed site (noteAddress cpu event) memory :=
    installed.congr rfl rfl rfl rfl rfl fun _ _ => rfl
  have words := words.withCr2 (event.address.getD cpu.cr2)
  obtain ⟨entered, after, succeeded⟩ :=
    @attempt_enters site (noteAddress cpu event) memory access noted words space event exception
      accessible
  have entry := @entry_of_attempt site (noteAddress cpu event) memory access noted words space
    clear event exception valid entered after succeeded
  refine ⟨entered, after, ?_, ?_, ?_⟩
  · rw [deliver, deliverWithin, succeeded]
  · exact ⟨entry.exception, entry.valid, entry.rip, entry.stack,
      ⟨entry.saved.rip, entry.saved.cs, entry.saved.rflags, entry.saved.rsp, entry.saved.ss⟩,
      entry.errorCode, entry.tables, entry.words, entry.outside⟩
  · rw [deliverOnce_exception noted exception] at succeeded
    split at succeeded
    · cases succeeded
    · obtain rfl := Except.ok.inj (Prod.mk.inj succeeded).1
      rfl

end Delivery

/-! ### Whole runs -/

/-- The frame of an activation is as it was pushed. -/
structure Intact (memory : Memory) (activation : Activation) : Prop where
  exception : activation.event.vector < 32
  valid : Valid activation.event
  saved : Saved memory activation.frame activation.interrupted
  errorCode : (Exceptions.handlerAt activation.event.vector).errorCode memory activation.entry =
    activation.event.errorCode.map (· % 2 ^ 64)
  cs : activation.interrupted.cs = Gdt.kernelCodeSelector
  ss : activation.interrupted.ss = Gdt.kernelDataSelector
  words : activation.interrupted.Words
  reachable : canonical activation.interrupted.rip = true

/-- A frame starts at the entry stack pointer or one word above it. -/
theorem Intact.frame_eq {memory : Memory} {activation : Activation}
    (intact : Intact memory activation) :
    activation.frame = activation.entry + 8 * activation.event.errorCode.toList.length :=
  frameAddress_eq intact.exception intact.valid _

/-- A frame depends on its own bytes. -/
theorem Intact.congr {memory after : Memory} {activation : Activation}
    (intact : Intact memory activation)
    (same : ∀ target, activation.entry ≤ target → target < activation.frame + 40 →
      after target = memory target) : Intact after activation := by
  have position := intact.frame_eq
  have word (offset : Nat) (inside : offset + 8 ≤ 40) :
      load64 after (activation.frame + offset) = load64 memory (activation.frame + offset) :=
    load64_congr _ _ _ fun target low high => same target (by omega) (by omega)
  have saved := intact.saved
  refine ⟨intact.exception, intact.valid, ⟨?_, ?_, ?_, ?_, ?_⟩, ?_, intact.cs, intact.ss,
    intact.words, intact.reachable⟩
  · exact (word 0 (by decide)).trans saved.rip
  · exact (word 8 (by decide)).trans saved.cs
  · exact (word 16 (by decide)).trans saved.rflags
  · exact (word 24 (by decide)).trans saved.rsp
  · exact (word 32 (by decide)).trans saved.ss
  · have code : load64 after activation.entry = load64 memory activation.entry :=
      load64_congr _ _ _ fun target low high => same target low (by omega)
    rw [← intact.errorCode]
    unfold Exceptions.Handler.errorCode
    rw [code]

/-- The invariant of a run with its events. -/
structure Kept (site : TableSite) (trace : List Interrupt) (kernel : Kernel) : Prop where
  alive : kernel.status ≠ .shutdown
  tables : Installed site kernel.cpu kernel.memory
  words : kernel.cpu.Words
  reachable : canonical kernel.cpu.rip = true
  frames : ∀ activation ∈ pendingFrames kernel.active, Intact kernel.memory activation
  fatal : (∃ event ∈ trace, event.vector ≠ 3) →
    kernel.status = .halted ∨ ∃ activation ∈ kernel.active, activation.event.vector ≠ 3

namespace Kept

variable {site : TableSite} {trace : List Interrupt} {kernel : Kernel}

/-- Ordinary code keeps the invariant. -/
theorem work (kept : Kept site trace kernel) {cpu : Cpu} {memory : Memory}
    (ordinary : Ordinary site kernel cpu memory) :
    Kept site trace { kernel with cpu := cpu, memory := memory } where
  alive := kept.alive
  tables := kept.tables.congr ordinary.gdtr ordinary.idtr ordinary.tr ordinary.cs ordinary.ss
    ordinary.tables
  words := ordinary.words
  reachable := ordinary.reachable
  frames activation member :=
    (kept.frames activation member).congr (ordinary.frames activation member)
  fatal := kept.fatal

/-- An event enters a handler and keeps the invariant. -/
theorem strike (kept : Kept site trace kernel) {access : Nat → Option Nat} {event : Interrupt}
    (valid : Valid event) (ready : StackReady site access) (room : Room site kernel) :
    Kept site (trace ++ [event])
      (struck kernel (deliver access kernel.cpu kernel.memory event)) := by
  obtain ⟨final, entered, after, result, entry, origin, -⟩ :=
    delivers kept.tables kept.words ready room.space room.tables valid
  rw [result]
  have fresh : Intact after ⟨final, entered.rsp, kernel.cpu⟩ :=
    ⟨entry.exception, entry.valid, entry.saved, entry.errorCode, kept.tables.cs, kept.tables.ss,
      kept.words, kept.reachable⟩
  refine ⟨kept.alive, entry.tables, entry.words, ?_, ?_, ?_⟩
  · change canonical entered.rip = true
    rw [entry.rip]
    exact site.handlerCanonical _
  · intro activation member
    change activation ∈ pendingFrames (⟨final, entered.rsp, kernel.cpu⟩ :: kernel.active) at member
    by_cases double : final.vector = 8
    · rw [pendingFrames, if_pos double] at member
      rwa [List.mem_singleton.1 member]
    · rw [pendingFrames, if_neg double] at member
      obtain rfl | older := List.mem_cons.1 member
      · exact fresh
      · have apart := room.frames activation older
        refine (kept.frames activation older).congr fun target low high =>
          entry.outside target (by omega) fun eight => absurd eight double
  · rintro ⟨struckBy, member, other⟩
    obtain earlier | now := List.mem_append.1 member
    · obtain halted | ⟨activation, below, not⟩ := kept.fatal ⟨struckBy, earlier, other⟩
      · exact Or.inl halted
      · exact Or.inr ⟨activation, List.mem_cons_of_mem _ below, not⟩
    · obtain rfl := List.mem_singleton.1 now
      have deadly : final.vector ≠ 3 := origin.elim (fun same => same ▸ other) id
      exact Or.inr ⟨⟨final, entered.rsp, kernel.cpu⟩, List.mem_cons_self .., deadly⟩

/-- The activation on top is intact. -/
theorem top (kept : Kept site trace kernel) {activation : Activation} {rest : List Activation}
    (active : kernel.active = activation :: rest) : Intact kernel.memory activation := by
  refine kept.frames activation ?_
  rw [active, pendingFrames]
  split <;> exact List.mem_cons_self ..

/-- A breakpoint's handler gives the interrupted code its registers back; all others
halt. -/
theorem finish_eq (kept : Kept site trace kernel) {activation : Activation}
    {rest : List Activation} (active : kernel.active = activation :: rest) :
    finish kernel activation rest =
      let output := kernel.output ++
        (Exceptions.handlerAt activation.event.vector).text kernel.memory activation.entry
          kernel.cpu.cr2
      if activation.event.vector = 3 then
        { kernel with
          cpu := { kernel.cpu with
            rip := activation.interrupted.rip
            cs := activation.interrupted.cs
            rflags := activation.interrupted.rflags
            rsp := activation.interrupted.rsp
            ss := activation.interrupted.ss }
          active := rest
          output := output }
      else { kernel with status := .halted, output := output } := by
  have intact := kept.top active
  have vector := (Exceptions.handlerAt_spec intact.exception).1
  have returned := @iretq_saved activation.interrupted kernel.memory kernel.cpu activation.frame _ _
    intact.saved (intact.cs ▸ kept.tables.codeSegment) (intact.ss ▸ kept.tables.dataSegment)
    (by decide) intact.reachable
  simp only [finish, vector, returned]

/-- The end of a handler keeps the invariant. -/
theorem finish (kept : Kept site trace kernel) {activation : Activation} {rest : List Activation}
    (active : kernel.active = activation :: rest) :
    Kept site trace (ExceptionRuns.finish kernel activation rest) := by
  have intact := kept.top active
  rw [kept.finish_eq active]
  by_cases breakpoint : activation.event.vector = 3
  · simp only [breakpoint, if_true]
    have below : pendingFrames kernel.active = activation :: pendingFrames rest := by
      rw [active, pendingFrames, if_neg (by omega)]
    refine ⟨kept.alive, ?_, ?_, intact.reachable, ?_, ?_⟩
    · exact kept.tables.congr rfl rfl rfl (intact.cs.trans kept.tables.cs.symm)
        (intact.ss.trans kept.tables.ss.symm) fun _ _ => rfl
    · have words := intact.words
      exact ⟨words.rip, words.cs, words.rflags, words.rsp, words.ss⟩
    · intro older member
      exact kept.frames older (below ▸ List.mem_cons_of_mem _ member)
    · intro deadly
      obtain halted | ⟨older, member, other⟩ := kept.fatal deadly
      · exact Or.inl halted
      · rw [active, List.mem_cons] at member
        obtain rfl | member := member
        · exact absurd breakpoint other
        · exact Or.inr ⟨older, member, other⟩
  · simp only [breakpoint, if_false]
    exact ⟨by simp, kept.tables, kept.words, kept.reachable, kept.frames, fun _ => Or.inl rfl⟩

end Kept

/-- Every step keeps the invariant. -/
theorem Step.kept {site : TableSite} {trace : List Interrupt} {kernel next : Kernel}
    {label : Option Interrupt} (kept : Kept site trace kernel)
    (step : Step site kernel label next) : Kept site (trace ++ label.toList) next := by
  cases step with
  | work running ordinary => simpa using kept.work ordinary
  | strike access event running valid ready room => exact kept.strike valid ready room
  | finish running top => simpa using kept.finish top

/-- The report of an activation. -/
def Activation.diagnosis (activation : Activation) (cr2 : Nat) : Exceptions.Diagnosis where
  number := activation.event.vector
  errorCode := activation.event.errorCode.map (· % 2 ^ 64)
  frame := ⟨activation.interrupted.rip, activation.interrupted.cs, activation.interrupted.rflags,
    activation.interrupted.rsp, activation.interrupted.ss⟩
  cr2 := cr2

/-- A handler reports the event it was entered for and the code it has interrupted. -/
theorem Intact.text {memory : Memory} {activation : Activation} (intact : Intact memory activation)
    (cr2 : Nat) :
    (Exceptions.handlerAt activation.event.vector).text memory activation.entry cr2 =
      (activation.diagnosis cr2).text := by
  have saved := intact.saved
  have frame : (Exceptions.handlerAt activation.event.vector).frame memory activation.entry =
      (activation.diagnosis cr2).frame := by
    simp only [Exceptions.Handler.frame, Activation.diagnosis]
    rw [← saved.rip, ← saved.cs, ← saved.rflags, ← saved.rsp, ← saved.ss]
    rfl
  rw [Exceptions.Handler.text, Exceptions.Diagnosis.text, intact.errorCode, frame]
  rfl

/-- A kernel that runs its own code. -/
structure Started (site : TableSite) (kernel : Kernel) : Prop where
  tables : Installed site kernel.cpu kernel.memory
  words : kernel.cpu.Words
  reachable : canonical kernel.cpu.rip = true
  running : kernel.status = .running
  idle : kernel.active = []

/-- The invariant holds before anything has struck. -/
theorem Started.kept {site : TableSite} {kernel : Kernel} (started : Started site kernel) :
    Kept site [] kernel := by
  refine ⟨by simp [started.running], started.tables, started.words, started.reachable, ?_, ?_⟩
  · simp [started.idle, pendingFrames]
  · simp

/-- The kernel runs its own code once the tables are loaded. -/
theorem exists_started {site : TableSite} {cpu : Cpu} {memory : Memory} {next : Nat}
    (declared : ∀ target, site.idt ≤ target → target < site.idt + 4096 → memory target = 0)
    (room : 16 ≤ cpu.rsp) (bounded : cpu.rsp < 2 ^ 64) (clear : site.Clear (cpu.rsp - 16) 16)
    (word : next < 2 ^ 64) (reachable : canonical next = true) (flags : cpu.rflags < 2 ^ 64) :
    ∃ start, Started site start ∧ start.cpu.rip = next ∧ start.cpu.rsp = cpu.rsp ∧
      start.cpu.rflags = cpu.rflags := by
  obtain ⟨loaded, filled, -, rip, rsp, rflags, installed, -⟩ :=
    @installed_init site cpu memory next declared room bounded clear word reachable
  generalize Idt.init site loaded filled = result at installed
  refine ⟨⟨{ result.1 with rip := next, rsp := cpu.rsp, rflags := cpu.rflags }, result.2, [],
    .running, []⟩, ⟨?_, ?_, reachable, rfl, rfl⟩, rfl, rfl, rfl⟩
  · exact installed.congr rfl rfl rfl rfl rfl fun _ _ => rfl
  · have code : Gdt.kernelCodeSelector < 2 ^ 64 := by decide
    have data : Gdt.kernelDataSelector < 2 ^ 64 := by decide
    exact ⟨word, installed.cs ▸ code, flags, bounded, installed.ss ▸ data⟩

def int3 : Interrupt := ⟨3, none, none, true⟩

/-- A breakpoint on an accessible stack enters its handler. -/
theorem strike_int3 {site : TableSite} {kernel : Kernel} (started : Started site kernel)
    (room : Room site kernel) :
    ∃ next entry, Step site kernel (some int3) next ∧ next.status = .running ∧
      next.active = [⟨int3, entry, kernel.cpu⟩] := by
  have ready : StackReady site fun _ => none := fun _ _ => rfl
  obtain ⟨final, entered, after, result, -, -, own⟩ :=
    delivers started.tables started.words ready room.space room.tables (show Valid int3 from rfl)
  obtain rfl := own (by decide) fun _ _ => rfl
  have step := Step.strike (fun _ => none) int3 started.running rfl ready room
  rw [result] at step
  refine ⟨_, entered.rsp, step, started.running, ?_⟩
  rw [struck, started.idle]

/-- Tables, a stack and handlers on the first pages of an empty memory. -/
def firstPagesSite : TableSite where
  gdt := 0x1000
  tss := 0x2000
  idt := 0x3000
  doubleFaultStack := 0x8000
  handler number := 0x10000 + 0x100 * (number % 32)
  apart := by decide
  tssWord := by decide
  stackAligned := by decide
  stackWord := by decide
  stackCanonical := by decide
  handlerWord number := by
    have small := Nat.mod_lt number (show 0 < 32 by decide)
    omega
  handlerCanonical number := by
    have small := Nat.mod_lt number (show 0 < 32 by decide)
    simp only [canonical, Bool.or_eq_true, decide_eq_true_eq]
    omega

/-- A processor before its tables are loaded, with a stack above them. -/
def beforeInit : Cpu where
  rip := 0x20000
  cs := 0x38
  rflags := 0x202
  rsp := 0x30000
  ss := 0x30
  cr2 := 0
  gdtr := ⟨0, 0⟩
  idtr := ⟨0, 0⟩
  tr := ⟨0, 0, 0⟩

theorem firstPages_clear (rsp size : Nat) (above : 0x4000 ≤ rsp) :
    firstPagesSite.Clear rsp size := by
  intro target inside
  simp only [TableSite.InTables, firstPagesSite] at inside
  omega

/-- **Exceptions are contained.** In every run of the kernel with its tables installed,
in which exceptions strike the kernel and its handlers at any point and on any stack
with room for a frame, accessible or not: the processor never shuts down. When the
kernel's own code runs, only breakpoints have struck so far. A handler that is done has
reported its exception and the interrupted registers; for a breakpoint the interrupted
code then goes on with all its registers, and for any other exception the processor
halts. -/
theorem exceptions_contained {site : TableSite} {start kernel : Kernel} {trace : List Interrupt}
    (started : Started site start) (execution : Execution (Step site) start trace kernel) :
    kernel.status ≠ .shutdown ∧
    (kernel.status = .running → kernel.active = [] → ∀ event ∈ trace, event.vector = 3) ∧
    ∀ activation rest, kernel.active = activation :: rest →
      (finish kernel activation rest).output =
        kernel.output ++ (activation.diagnosis kernel.cpu.cr2).text ∧
      (activation.event.vector = 3 →
        finish kernel activation rest =
          { kernel with
            cpu := { kernel.cpu with
              rip := activation.interrupted.rip
              cs := activation.interrupted.cs
              rflags := activation.interrupted.rflags
              rsp := activation.interrupted.rsp
              ss := activation.interrupted.ss }
            active := rest
            output := (finish kernel activation rest).output }) ∧
      (activation.event.vector ≠ 3 → (finish kernel activation rest).status = .halted) := by
  have kept : Kept site trace kernel :=
    execution.invariant (Kept site) started.kept fun _ _ _ _ kept step => step.kept kept
  refine ⟨kept.alive, ?_, ?_⟩
  · intro running idle event member
    by_contra other
    obtain halted | ⟨activation, below, -⟩ := kept.fatal ⟨event, member, other⟩
    · rw [running] at halted
      cases halted
    · rw [idle] at below
      cases below
  · intro activation rest active
    have text := (kept.top active).text kernel.cpu.cr2
    have result := kept.finish_eq active
    rw [text] at result
    rw [result]
    by_cases breakpoint : activation.event.vector = 3
    · simp [breakpoint]
    · simp [breakpoint]

/-- A breakpoint strikes right after the tables are loaded, and its handler ends. -/
theorem exceptions_contained_breakpoint :
    ∃ start kernel, Started firstPagesSite start ∧
      Execution (Step firstPagesSite) start [int3] kernel ∧ kernel.status = .running ∧
      kernel.active = [] ∧ kernel.cpu.rip = 0x20010 ∧ kernel.cpu.rsp = 0x30000 ∧
      kernel.cpu.rflags = 0x202 := by
  obtain ⟨start, started, rip, rsp, rflags⟩ :=
    @exists_started firstPagesSite beforeInit (fun _ => 0) 0x20010 (fun _ _ _ => rfl) (by decide)
      (by decide) (firstPages_clear _ _ (by decide)) (by decide) (by decide) (by decide)
  have stack : start.cpu.rsp = 0x30000 := rsp
  have room : Room firstPagesSite start := by
    refine ⟨?_, ?_, ?_⟩
    · rw [stack]
      decide
    · rw [stack]
      exact firstPages_clear _ _ (by decide)
    · simp [started.idle, pendingFrames]
  obtain ⟨next, entry, step, running, active⟩ := strike_int3 started room
  have execution := Execution.single step
  have ended := (exceptions_contained started execution).2.2 _ [] active
  have last := execution.snoc none (Step.finish running active)
  refine ⟨start, _, started, last, ?_⟩
  rw [ended.2.1 rfl]
  exact ⟨running, rfl, rip, rsp, rflags⟩

/-- **Exceptions are delivered.** Once `gdt::init` and `idt::init` have run, whatever the
kernel does to its other memory and to its registers: as long as the 48 bytes below the
aligned stack pointer exist and are clear of the tables, every exception, and every
interrupt that has no gate, enters a handler, which finds the interrupted registers
and the error code where its signature says. Nothing but the stack is written. The
handler is that of the exception itself whenever its stack is accessible; if not, it
is one that does not return, and the double-fault stack is enough for it. -/
theorem exceptions_delivered {site : TableSite} {cpu : Cpu} {memory : Memory} {next : Nat}
    (declared : ∀ target, site.idt ≤ target → target < site.idt + 4096 → memory target = 0)
    (room : 16 ≤ cpu.rsp) (bounded : cpu.rsp < 2 ^ 64) (clear : site.Clear (cpu.rsp - 16) 16)
    (word : next < 2 ^ 64) (reachable : canonical next = true) :
    ∃ loaded filled, Gdt.init site cpu memory next = some (loaded, filled) ∧
      ∀ (now : Cpu) (current : Memory) (access : Nat → Option Nat) (event : Interrupt),
        now.Words → now.gdtr = loaded.gdtr → now.idtr = (Idt.init site loaded filled).1.idtr →
        now.tr = loaded.tr → now.cs = Gdt.kernelCodeSelector → now.ss = Gdt.kernelDataSelector →
        site.Agree current (Idt.init site loaded filled).2 →
        48 ≤ aligned now.rsp → site.Clear (aligned now.rsp - 48) 48 →
        StackReady site access → Valid event →
        ∃ final entered after, deliver access now current event = .entered final entered after ∧
          Entry site now current final entered after ∧ (final = event ∨ final.vector ≠ 3) ∧
          (event.vector < 32 → (∀ place < 6, access (aligned (if event.vector = 8 then
            site.doubleFaultStack + 16384 else now.rsp) - 8 * (place + 1)) = none) →
            final = event) := by
  obtain ⟨loaded, filled, initialised, -, -, -, installed, -⟩ :=
    @installed_init site cpu memory next declared room bounded clear word reachable
  refine ⟨loaded, filled, initialised, ?_⟩
  intro now current access event words gdtr idtr tr cs ss agree space away ready valid
  have tables : Installed site now current := installed.congr gdtr idtr tr
    (cs.trans installed.cs.symm) (ss.trans installed.ss.symm) agree
  exact delivers tables words ready space away valid

/-- The processor after both initialisations, at some later point. -/
def afterInit (loaded : Cpu) (filled : Memory) : Cpu where
  rip := 0x20010
  cs := 0x08
  rflags := 0x202
  rsp := 0x30000
  ss := 0x10
  cr2 := 0
  gdtr := loaded.gdtr
  idtr := (Idt.init firstPagesSite loaded filled).1.idtr
  tr := loaded.tr

/-- Only low addresses may be written. -/
def lowAccess (address : Nat) : Option Nat := if address < 0x10000 then none else some 2

theorem firstPages_ready : StackReady firstPagesSite lowAccess := by
  intro place small
  exact if_pos (show 0x8000 + 16384 - 8 * (place + 1) < 0x10000 by omega)

/-- An interrupt without a gate strikes the kernel on an inaccessible stack. -/
theorem exceptions_delivered_missing :
    ∃ loaded filled final entered after,
      Gdt.init firstPagesSite beforeInit (fun _ => 0) 0x20010 = some (loaded, filled) ∧
      deliver lowAccess (afterInit loaded filled) (Idt.init firstPagesSite loaded filled).2
        ⟨0x80, none, none, true⟩ = .entered final entered after ∧ final.vector ≠ 3 := by
  obtain ⟨loaded, filled, initialised, delivered⟩ :=
    @exceptions_delivered firstPagesSite beforeInit (fun _ => 0) 0x20010 (fun _ _ _ => rfl)
      (by decide) (by decide) (firstPages_clear _ _ (by decide)) (by decide) (by decide)
  have words : (afterInit loaded filled).Words :=
    ⟨show 0x20010 < 2 ^ 64 by decide, show 0x08 < 2 ^ 64 by decide, show 0x202 < 2 ^ 64 by decide,
      show 0x30000 < 2 ^ 64 by decide, show 0x10 < 2 ^ 64 by decide⟩
  obtain ⟨final, entered, after, result, entry, origin, -⟩ :=
    delivered (afterInit loaded filled) _ lowAccess ⟨0x80, none, none, true⟩ words rfl rfl rfl rfl
      rfl (fun _ _ => rfl) (show 48 ≤ aligned 0x30000 by decide)
      (firstPages_clear _ _ (show 0x4000 ≤ aligned 0x30000 - 48 by decide)) firstPages_ready rfl
  refine ⟨loaded, filled, final, entered, after, initialised, result, ?_⟩
  obtain rfl | other := origin
  · exact absurd entry.exception (by decide)
  · exact other

end ExceptionRuns

end XyronOS
