import XyronOS.Mm.KernelHeap
import XyronOS.Sync.SpinLock

/-!
# The locks of the kernel

Three spin locks protect the memory management: the one inside the global allocator,
and the two statics through which a growth reaches the frame allocator and the manager.
`alloc` holds the first for its whole duration and, while it grows, the other two;
`kernel_main` fills the statics, and the self-test of the interrupts maps a page under
both of them.

Every such call is written here as the program it is: where it acquires, where it drops
its guards, what it does in between, page by page, and where it panics. Run alone, the
programs do what the functions of the heap do; this ties the calls that synchronise to
the sequential heap.
-/

namespace XyronOS

open ByteMemory WordBits Locking

/-- The locks: the one inside the allocator and the two statics. -/
inductive KernelLock where
  | heap
  | frameAllocator
  | vmm
deriving DecidableEq, Repr

namespace KernelCalls

/-- What the allocator's lock protects: the sentinel of the free list, the cursor, and
the memory that only the memory management touches. -/
structure KernelHeapState where
  head : FreeListNode
  nextUnmapped : Nat
  memory : Memory

/-- What each lock protects. -/
abbrev Protected : KernelLock → Type
  | .heap => KernelHeapState
  | .frameAllocator => Option FrameAllocator
  | .vmm => Option VirtualMemoryManager

/-- The data of all locks. -/
abbrev Globals := Store Protected

/-- What a call returns: a pointer, or nothing. -/
inductive Answer where
  | pointer (ptr : Nat)
  | unit
deriving DecidableEq, Repr

/-- A call as a program over the locks. -/
abbrev Call := Program KernelLock Globals Answer

section Calls

variable (active : VirtualMemoryManager)

/-- The free list, in the memory seen through the active tables. -/
def KernelHeapState.allocator (state : KernelHeapState) : LinkedListAllocator :=
  ⟨state.head, view active state.memory, []⟩

/-- Take over what an operation did to the free list. -/
def KernelHeapState.store (state : KernelHeapState) (list : LinkedListAllocator) :
    KernelHeapState :=
  { state with head := list.head, memory := commit active list.written state.memory }

/-- The state after an operation on the free list; a panic leaves it. -/
def KernelHeapState.after {α : Type} (state : KernelHeapState) :
    Except HeapPanic (α × LinkedListAllocator) → KernelHeapState
  | .ok (_, list) => state.store active list
  | .error _ => state

/-- Go on with the answer of an operation, or panic. -/
def orPanic {α : Type} (next : α → Call) : Except HeapPanic (α × LinkedListAllocator) → Call
  | .ok (answer, _) => next answer
  | .error _ => .halt

/-- An operation on the free list under the allocator's lock. -/
def onAllocator {α : Type} (work : LinkedListAllocator → Except HeapPanic (α × LinkedListAllocator))
    (next : α → Call) : Call :=
  .act
    (fun globals => Function.update globals .heap
      ((globals .heap).after active (work ((globals .heap).allocator active))))
    (fun globals => orPanic next (work ((globals .heap).allocator active)))

/-- End of a growth that stays inside the heap region. -/
def KernelHeapState.growthEnd (state : KernelHeapState) (layout : Layout) : Option Nat :=
  (checkedAdd state.nextUnmapped (KernelHeap.growthBytes layout)).filter
    (fun stop => stop ≤ heapRegionEnd)

/-- The memory, and the frame allocator if it is published. -/
def machine (globals : Globals) : Option Machine :=
  (globals .frameAllocator).map (fun frames => ⟨(globals .heap).memory, frames⟩)

/-- Put the memory and the frame allocator back. -/
def putMachine (globals : Globals) (machine : Machine) : Globals
  | .heap => { globals .heap with memory := machine.memory }
  | .frameAllocator => some machine.frames
  | .vmm => globals .vmm

/-- Drop the guards of a growth, the last one first. -/
def dropStatics (next : Call) : Call := .release .vmm (.release .frameAllocator next)

/-- Unmap the first pages of a growth that failed. -/
def unwindPartialGrowth (vmm : VirtualMemoryManager) (growthStart mappedPages : Nat)
    (next : Call) : Call :=
  (List.range mappedPages).foldr
    (fun page rest => .act
      (fun globals => Function.update globals .heap { globals .heap with
        memory := (vmm.unmap (globals .heap).memory (growthStart + page * frameSize)).2 })
      (fun _ => rest))
    next

/-- Back the remaining pages of a growth; unwind at the first that fails. -/
def growPages (vmm : VirtualMemoryManager) (growthStart : Nat) (done failed : Call) :
    Nat → Nat → Call
  | 0, _ => done
  | remaining + 1, mappedPages =>
      .act
        (fun globals => (machine globals).elim globals fun machine =>
          putMachine globals
            (KernelHeap.growPage vmm machine (growthStart + mappedPages * frameSize)).2)
        (fun globals => (machine globals).elim .halt fun machine =>
          if (KernelHeap.growPage vmm machine (growthStart + mappedPages * frameSize)).1 then
            growPages vmm growthStart done failed remaining (mappedPages + 1)
          else unwindPartialGrowth vmm growthStart mappedPages failed)

/-- Move the cursor over the mapped pages and add them to the free list. -/
def finishGrowth (growthStart growthStop bytes : Nat) (next : Call) : Call :=
  .act
    (fun globals => Function.update globals .heap
      { globals .heap with nextUnmapped := growthStop })
    (fun _ => onAllocator active
      (fun list => (list.addFreeRegion growthStart bytes).map (fun list => ((), list)))
      (fun _ => next))

/-- A growth once the state has been read. -/
def growFrom (layout : Layout) (next : Bool → Call) (state : KernelHeapState) : Call :=
  (state.growthEnd layout).elim (next false) fun growthStop =>
    .acquire .frameAllocator <| .acquire .vmm <| .act id fun globals =>
      match globals .frameAllocator, globals .vmm with
      | some _, some vmm =>
          growPages vmm state.nextUnmapped
            (finishGrowth active state.nextUnmapped growthStop (KernelHeap.growthBytes layout)
              (dropStatics (next true)))
            (dropStatics (next false)) (KernelHeap.pagesToMap layout) 0
      | _, _ => dropStatics (next false)

/-- `grow`: take both statics and map the pages, unless the region is exhausted. -/
def grow (layout : Layout) (next : Bool → Call) : Call :=
  .act id fun globals => growFrom active layout next (globals .heap)

/-- `alloc`: try, grow once if nothing fits, and retry. -/
def alloc (layout : Layout) : Call :=
  .acquire .heap <| onAllocator active (·.alloc layout) fun ptr =>
    if ptr ≠ 0 then .release .heap (.done (.pointer ptr))
    else grow active layout fun grown =>
      if !grown then .release .heap (.done (.pointer 0))
      else onAllocator active (·.alloc layout) fun ptr => .release .heap (.done (.pointer ptr))

/-- `dealloc`: return a block to the free list. -/
def dealloc (ptr : Nat) (layout : Layout) : Call :=
  .acquire .heap <| onAllocator active
    (fun list => (list.dealloc ptr layout).map (fun list => ((), list)))
    fun _ => .release .heap (.done .unit)

/-- `kernel_main` moves the frame allocator into its static. -/
def publishFrameAllocator (frames : FrameAllocator) : Call :=
  .acquire .frameAllocator <| .act
    (fun globals => Function.update globals .frameAllocator (some frames))
    fun _ => .release .frameAllocator (.done .unit)

/-- `kernel_main` moves the manager into its static. -/
def publishVmm (vmm : VirtualMemoryManager) : Call :=
  .acquire .vmm <| .act (fun globals => Function.update globals .vmm (some vmm))
    fun _ => .release .vmm (.done .unit)

/-- Where the self-test of the interrupts maps its page. -/
def readonlyTestVaddr : Nat := 0xFFFF880010000000

/-- The self-test of the interrupts maps a read-only page under both statics. It panics if
one is not published, before it takes a frame, and at either `expect` after that. -/
def mapReadOnlyPage : Call :=
  .acquire .frameAllocator <| .acquire .vmm <| .act id fun globals =>
    match globals .frameAllocator, globals .vmm with
    | some _, some vmm => .act
        (fun globals => (machine globals).elim globals fun machine =>
          putMachine globals { machine with frames := machine.frames.allocate.2 })
        fun globals => (machine globals).elim .halt fun machine =>
          machine.frames.allocate.1.elim .halt fun testFrame => .act
            (fun globals => (KernelCalls.machine globals).elim globals fun machine =>
              putMachine globals (vmm.map machine readonlyTestVaddr testFrame ⟨false, false⟩).2)
            fun globals => (KernelCalls.machine globals).elim .halt fun machine =>
              match (vmm.map machine readonlyTestVaddr testFrame ⟨false, false⟩).1 with
              | .ok _ => dropStatics (.done .unit)
              | .error _ => .halt
    | _, _ => .halt

end Calls

section RunAlone

variable (active : VirtualMemoryManager) (spare : FrameAllocator)

/-- The heap whose parts the locks protect. While no frame allocator is published, no
call uses one, and the spare one stands for it. -/
def kernelHeap (globals : Globals) : KernelHeap where
  machine := ⟨(globals .heap).memory, (globals .frameAllocator).getD spare⟩
  vmm := active
  populated := (globals .frameAllocator).isSome && (globals .vmm).isSome
  head := (globals .heap).head
  nextUnmapped := (globals .heap).nextUnmapped

/-- The same statics are published. -/
structure Published (before after : Globals) : Prop where
  frameAllocator : (after .frameAllocator).isSome = (before .frameAllocator).isSome
  vmm : after .vmm = before .vmm

/-- What a program does when it is run alone, against what the heap does: it goes on
with the answer on the data of the new heap, or it panics as well. -/
inductive Outcome {α : Type} (before : Globals) (next : α → Call) :
    Except HeapPanic (α × KernelHeap) → Option Answer × Globals → Prop where
  | ok (answer : α) (after : Globals) (published : Published before after) :
      Outcome before next (.ok (answer, kernelHeap active spare after))
        ((next answer).runAlone after)
  | panic (problem : HeapPanic) (after : Globals) :
      Outcome before next (.error problem) (none, after)

variable {active spare}

theorem Published.trans {before middle after : Globals} (first : Published before middle)
    (second : Published middle after) : Published before after :=
  ⟨second.frameAllocator.trans first.frameAllocator, second.vmm.trans first.vmm⟩

/-- An outcome after something that kept the statics. -/
theorem Outcome.since {α : Type} {before middle : Globals} (published : Published before middle)
    {next : α → Call} {result : Except HeapPanic (α × KernelHeap)} {run : Option Answer × Globals}
    (outcome : Outcome active spare middle next result run) :
    Outcome active spare before next result run := by
  cases outcome with
  | ok answer after further => exact .ok answer after (published.trans further)
  | panic problem after => exact .panic problem after

/-- Where the heap succeeds, the program goes on. -/
theorem Outcome.of_ok {α : Type} {before : Globals} {next : α → Call} {answer : α}
    {heap : KernelHeap} {result : Except HeapPanic (α × KernelHeap)}
    {run : Option Answer × Globals} (outcome : Outcome active spare before next result run)
    (succeeded : result = .ok (answer, heap)) :
    ∃ after, Published before after ∧ kernelHeap active spare after = heap ∧
      run = (next answer).runAlone after := by
  cases outcome with
  | ok answer after published =>
    cases succeeded
    exact ⟨after, published, rfl, rfl⟩
  | panic problem after => cases succeeded

/-- Run alone, dropping a guard shows in nothing. -/
theorem Outcome.released {α : Type} {before : Globals} {lock : KernelLock} {next : α → Call}
    {result : Except HeapPanic (α × KernelHeap)} {run : Option Answer × Globals}
    (outcome : Outcome active spare before (fun answer => .release lock (next answer)) result run) :
    Outcome active spare before next result run := by
  cases outcome with
  | ok answer after published => exact .ok answer after published
  | panic problem after => exact .panic problem after

/-- Programs that agree with the heap one after the other agree with it together. -/
theorem Outcome.bind {α β : Type} {before : Globals} {middle : α → Call} {next : β → Call}
    {first : Except HeapPanic (α × KernelHeap)} {run : Option Answer × Globals}
    {rest : α × KernelHeap → Except HeapPanic (β × KernelHeap)}
    (outcome : Outcome active spare before middle first run)
    (later : ∀ answer after, Published before after →
      Outcome active spare after next (rest (answer, kernelHeap active spare after))
        ((middle answer).runAlone after)) :
    Outcome active spare before next (first >>= rest) run := by
  cases outcome with
  | ok answer after published => exact .since published (later answer after published)
  | panic problem after => exact .panic problem after

variable (active spare)

/-- Operations on the free list are those of the heap. -/
theorem onAllocator_outcome {α : Type} (globals : Globals)
    (work : LinkedListAllocator → Except HeapPanic (α × LinkedListAllocator)) (next : α → Call) :
    Outcome active spare globals next
      ((work (kernelHeap active spare globals).allocator).map
        fun result => (result.1, (kernelHeap active spare globals).store result.2))
      ((onAllocator active work next).runAlone globals) := by
  have same : (globals .heap).allocator active = (kernelHeap active spare globals).allocator := rfl
  simp only [onAllocator, Program.runAlone, same]
  cases work (kernelHeap active spare globals).allocator with
  | error problem => exact .panic problem _
  | ok result =>
    exact @Outcome.ok active spare α globals next result.1
      (Function.update globals .heap ((globals .heap).store active result.2)) ⟨rfl, rfl⟩

theorem putMachine_putMachine (globals : Globals) (first second : Machine) :
    putMachine (putMachine globals first) second = putMachine globals second := by
  funext lock
  cases lock <;> rfl

theorem putMachine_self {globals : Globals} {current : Machine}
    (present : machine globals = some current) : putMachine globals current = globals := by
  obtain ⟨frames, published, rfl⟩ := Option.map_eq_some_iff.1 present
  funext lock
  cases lock with
  | heap => rfl
  | frameAllocator => exact published.symm
  | vmm => rfl

/-- The acts of an unwinding unmap the pages in order. -/
theorem unwind_runAlone (vmm : VirtualMemoryManager) (growthStart mappedPages : Nat) (next : Call)
    (globals : Globals) (machine : Machine) :
    (unwindPartialGrowth vmm growthStart mappedPages next).runAlone (putMachine globals machine) =
      next.runAlone (putMachine globals { machine with
        memory := KernelHeap.unwindPartialGrowth vmm growthStart mappedPages machine.memory }) := by
  unfold unwindPartialGrowth KernelHeap.unwindPartialGrowth
  induction List.range mappedPages generalizing machine with
  | nil => rfl
  | cons page pages inductionHypothesis =>
    have unmapped : Function.update (putMachine globals machine) .heap
        { putMachine globals machine .heap with
          memory := (vmm.unmap (putMachine globals machine .heap).memory
            (growthStart + page * frameSize)).2 } =
        putMachine globals { machine with
          memory := (vmm.unmap machine.memory (growthStart + page * frameSize)).2 } := by
      funext lock
      cases lock <;> rfl
    rw [List.foldr_cons, Program.runAlone, unmapped, inductionHypothesis, List.foldl_cons]

/-- The acts of a growth back its pages in order. -/
theorem growPages_runAlone (vmm : VirtualMemoryManager) (growthStart : Nat) (done failed : Call)
    (globals : Globals) (remaining mappedPages : Nat) (machine : Machine) :
    (growPages vmm growthStart done failed remaining mappedPages).runAlone
        (putMachine globals machine) =
      (if (KernelHeap.growPages vmm growthStart remaining mappedPages machine).1 then done
        else failed).runAlone
        (putMachine globals
          (KernelHeap.growPages vmm growthStart remaining mappedPages machine).2) := by
  induction remaining generalizing mappedPages machine with
  | zero => rfl
  | succ remaining inductionHypothesis =>
    have present : KernelCalls.machine (putMachine globals machine) = some machine := rfl
    simp only [growPages, Program.runAlone, present, Option.elim_some, putMachine_putMachine,
      KernelHeap.growPages]
    by_cases backed :
        (KernelHeap.growPage vmm machine (growthStart + mappedPages * frameSize)).1 = true
    · simp only [if_pos backed]
      exact inductionHypothesis _ _
    · simp only [if_neg backed, Bool.false_eq_true, if_false]
      exact unwind_runAlone vmm growthStart mappedPages failed globals _

/-- Adding the mapped pages is that of the heap. -/
theorem finishGrowth_outcome (globals : Globals) (machine : Machine) (growthStop bytes : Nat)
    {allocator : FrameAllocator} (frames : globals .frameAllocator = some allocator)
    (next : Bool → Call) :
    Outcome active spare globals next
      ((kernelHeap active spare globals).finishGrowth machine growthStop bytes)
      ((finishGrowth active (globals .heap).nextUnmapped growthStop bytes
        (dropStatics (next true))).runAlone (putMachine globals machine)) := by
  let moved : Globals := Function.update (putMachine globals machine) .heap
    { putMachine globals machine .heap with nextUnmapped := growthStop }
  have advanced : kernelHeap active spare moved =
      (kernelHeap active spare globals).advance machine growthStop := by
    simp [moved, kernelHeap, KernelHeap.advance, putMachine, frames]
  have published : Published globals moved := ⟨by simp [moved, putMachine, frames], rfl⟩
  have list : (moved .heap).allocator active =
      ((kernelHeap active spare globals).advance machine growthStop).allocator := rfl
  change Outcome active spare globals next _ ((onAllocator active
    (fun list => (list.addFreeRegion (globals .heap).nextUnmapped bytes).map fun list => ((), list))
    fun _ => dropStatics (next true)).runAlone moved)
  simp only [onAllocator, Program.runAlone, KernelHeap.finishGrowth, list]
  have start : (kernelHeap active spare globals).nextUnmapped = (globals .heap).nextUnmapped := rfl
  rw [start]
  cases ((kernelHeap active spare globals).advance machine growthStop).allocator.addFreeRegion
      (globals .heap).nextUnmapped bytes with
  | error problem => exact .panic problem _
  | ok added =>
    simp only [← advanced]
    exact @Outcome.ok active spare Bool globals next true
      (Function.update moved .heap ((moved .heap).store active added))
      ⟨published.frameAllocator, published.vmm⟩

/-- The end of a growth is that of the heap, whether its pages were backed or not. -/
theorem mapped_outcome (globals : Globals) (result : Bool × Machine) (growthStop bytes : Nat)
    {allocator : FrameAllocator} (frames : globals .frameAllocator = some allocator)
    (next : Bool → Call) :
    Outcome active spare globals next
      (if result.1 then
        (kernelHeap active spare globals).finishGrowth result.2 growthStop bytes
      else .ok (false, { kernelHeap active spare globals with machine := result.2 }))
      ((if result.1 then finishGrowth active (globals .heap).nextUnmapped growthStop bytes
          (dropStatics (next true))
        else dropStatics (next false)).runAlone (putMachine globals result.2)) := by
  obtain ⟨backed, machine⟩ := result
  cases backed with
  | true => exact finishGrowth_outcome active spare globals machine growthStop bytes frames next
  | false =>
    have published : Published globals (putMachine globals machine) :=
      ⟨by simp [putMachine, frames], rfl⟩
    have same : ({ kernelHeap active spare globals with machine := machine } : KernelHeap) =
        kernelHeap active spare (putMachine globals machine) := by
      simp [kernelHeap, putMachine, frames]
    simp only [Bool.false_eq_true, if_false, same]
    exact .ok false _ published

/-- A growth under the locks is that of the heap. -/
theorem grow_outcome (globals : Globals) (genuine : ∀ vmm, globals .vmm = some vmm → vmm = active)
    (layout : Layout) (next : Bool → Call) :
    Outcome active spare globals next ((kernelHeap active spare globals).grow layout)
      ((grow active layout next).runAlone globals) := by
  have stop : (kernelHeap active spare globals).growthEnd layout =
      (globals .heap).growthEnd layout := rfl
  simp only [grow, growFrom, KernelHeap.grow, Program.runAlone, id, stop]
  cases (globals .heap).growthEnd layout with
  | none => exact .ok false globals ⟨rfl, rfl⟩
  | some growthStop =>
    simp only [Option.elim_some, Program.runAlone, id]
    cases frames : globals .frameAllocator with
    | none =>
      have unset : (kernelHeap active spare globals).populated = false := by
        simp [kernelHeap, frames]
      simp only [unset, Bool.false_eq_true, if_false]
      exact .ok false globals ⟨rfl, rfl⟩
    | some allocator =>
      cases manager : globals .vmm with
      | none =>
        have unset : (kernelHeap active spare globals).populated = false := by
          simp [kernelHeap, manager]
        simp only [unset, Bool.false_eq_true, if_false]
        exact .ok false globals ⟨rfl, rfl⟩
      | some vmm =>
        obtain rfl := genuine vmm manager
        have set : (kernelHeap vmm spare globals).populated = true := by
          simp [kernelHeap, frames, manager]
        have present : machine globals = some (kernelHeap vmm spare globals).machine := by
          simp [machine, kernelHeap, frames]
        have grown := growPages_runAlone vmm (globals .heap).nextUnmapped
          (finishGrowth vmm (globals .heap).nextUnmapped growthStop
            (KernelHeap.growthBytes layout) (dropStatics (next true)))
          (dropStatics (next false)) globals (KernelHeap.pagesToMap layout) 0
          (kernelHeap vmm spare globals).machine
        rw [putMachine_self present] at grown
        simp only [if_pos set, grown]
        exact mapped_outcome vmm spare globals
          (KernelHeap.growPages vmm (globals .heap).nextUnmapped (KernelHeap.pagesToMap layout) 0
            (kernelHeap vmm spare globals).machine)
          growthStop (KernelHeap.growthBytes layout) frames next

/-- `alloc` as operations of the free list and a growth, one after the other. -/
theorem alloc_eq (heap : KernelHeap) (layout : Layout) :
    heap.alloc layout =
      (heap.allocator.alloc layout).map (fun result => (result.1, heap.store result.2)) >>=
      fun attempt => if attempt.1 ≠ 0 then .ok attempt else
        attempt.2.grow layout >>= fun growth =>
          if !growth.1 then .ok (0, growth.2) else
            (growth.2.allocator.alloc layout).map
              (fun result => (result.1, growth.2.store result.2)) := by
  unfold KernelHeap.alloc
  cases heap.allocator.alloc layout with
  | error problem => rfl
  | ok first =>
    by_cases found : first.1 = 0
    · simp only [bind, Except.bind, Except.map, found]
      cases (heap.store first.2).grow layout with
      | error problem => rfl
      | ok growth =>
        cases growth.1 with
        | false => rfl
        | true => rfl
    · simp [bind, Except.bind, Except.map, found, pure, Except.pure]

/-- `alloc` under the locks is that of the heap. -/
theorem alloc_outcome (globals : Globals) (genuine : ∀ vmm, globals .vmm = some vmm → vmm = active)
    (layout : Layout) :
    Outcome active spare globals (fun ptr => .done (.pointer ptr))
      ((kernelHeap active spare globals).alloc layout)
      ((alloc active layout).runAlone globals) := by
  rw [alloc_eq]
  apply Outcome.bind (onAllocator_outcome active spare globals (·.alloc layout) _)
  intro ptr attempted published
  by_cases found : ptr = 0
  · simp only [found, ne_eq, not_true_eq_false, if_false]
    apply Outcome.bind (grow_outcome active spare attempted (published.vmm ▸ genuine) layout _)
    intro grown after _
    cases grown with
    | false => exact .ok 0 after ⟨rfl, rfl⟩
    | true =>
      have retried := onAllocator_outcome active spare after (·.alloc layout)
        (fun ptr => .release .heap (.done (.pointer ptr)))
      exact retried.released
  · simp only [ne_eq, found, not_false_eq_true, if_true]
    exact .ok ptr attempted ⟨rfl, rfl⟩

/-- `dealloc` under the lock is that of the heap. -/
theorem dealloc_outcome (globals : Globals) (ptr : Nat) (layout : Layout) :
    Outcome active spare globals (fun _ => .done .unit)
      (((kernelHeap active spare globals).dealloc ptr layout).map fun heap => ((), heap))
      ((dealloc active ptr layout).runAlone globals) := by
  have freed := onAllocator_outcome active spare globals
    (fun list => (list.dealloc ptr layout).map (fun list => ((), list)))
    (fun _ => .release .heap (.done .unit))
  have same : (((kernelHeap active spare globals).dealloc ptr layout).map fun heap => ((), heap)) =
      (((kernelHeap active spare globals).allocator.dealloc ptr layout).map
        (fun list => ((), list))).map
        (fun result => (result.1, (kernelHeap active spare globals).store result.2)) := by
    rw [KernelHeap.dealloc]
    cases (kernelHeap active spare globals).allocator.dealloc ptr layout <;> rfl
  rw [same]
  exact freed.released

end RunAlone

section Discipline

variable (active : VirtualMemoryManager)

/-- The order in which calls take the locks. -/
def rank : KernelLock → Nat
  | .heap => 0
  | .frameAllocator => 1
  | .vmm => 2

theorem rank_lt (lock : KernelLock) : rank lock < 3 := by
  cases lock <;> decide

/-- The guards of a growth. -/
def allGuards : Finset KernelLock := insert .vmm (insert .frameAllocator (insert .heap ∅))

theorem mem_allGuards (lock : KernelLock) : lock ∈ allGuards := by
  cases lock <;> decide

/-- Operations on the free list need the allocator's guard. -/
theorem onAllocator_twoPhase {α : Type} {held : Finset KernelLock} (guarded : .heap ∈ held)
    (work : LinkedListAllocator → Except HeapPanic (α × LinkedListAllocator)) {next : α → Call}
    (rest : ∀ answer, TwoPhase held (next answer)) :
    TwoPhase held (onAllocator active work next) := by
  refine TwoPhase.act_part guarded
    (fun state : KernelHeapState => state.after active (work (state.allocator active)))
    (fun state : KernelHeapState => orPanic next (work (state.allocator active)))
    (fun _ => rfl) (fun _ => rfl) ?_
  intro globals
  cases work ((globals .heap).allocator active) with
  | error problem => exact .halt held
  | ok result => exact rest result.1

/-- Operations on the free list acquire nothing. -/
theorem onAllocator_shrinking {α : Type}
    (work : LinkedListAllocator → Except HeapPanic (α × LinkedListAllocator)) {next : α → Call}
    (rest : ∀ answer, (next answer).Shrinking) : (onAllocator active work next).Shrinking := by
  refine .act _ ?_
  intro globals
  cases work ((globals .heap).allocator active) with
  | error problem => exact .halt
  | ok result => exact rest result.1

/-- Operations on the free list leave the order alone. -/
theorem onAllocator_ordered {α : Type} {held : Finset KernelLock}
    (work : LinkedListAllocator → Except HeapPanic (α × LinkedListAllocator)) {next : α → Call}
    (rest : ∀ answer, (next answer).Ordered rank held) :
    (onAllocator active work next).Ordered rank held := by
  refine .act ?_
  intro globals
  cases work ((globals .heap).allocator active) with
  | error problem => exact .halt held
  | ok result => exact rest result.1

/-- The guards of a growth are dropped in the second phase. -/
theorem dropStatics_twoPhase {next : Call} (shrinks : next.Shrinking)
    (rest : TwoPhase (insert .heap ∅) next) : TwoPhase allGuards (dropStatics next) := by
  refine .release (mem_allGuards _) (.release _ shrinks) (.release (by decide) shrinks ?_)
  have left : (allGuards.erase .vmm).erase .frameAllocator = insert .heap ∅ := by decide
  rwa [left]

theorem dropStatics_ordered {next : Call} (rest : next.Ordered rank (insert .heap ∅)) :
    (dropStatics next).Ordered rank allGuards := by
  refine .release (mem_allGuards _) (.release (by decide) ?_)
  have left : (allGuards.erase .vmm).erase .frameAllocator = insert .heap ∅ := by decide
  rwa [left]

/-- A property that every act keeps holds of an unwinding. -/
theorem unwind_induction {kept : Call → Prop} (act : ∀ update rest, kept rest →
      kept (.act update fun _ => rest)) (vmm : VirtualMemoryManager) (growthStart mappedPages : Nat)
    {next : Call} (rest : kept next) :
    kept (unwindPartialGrowth vmm growthStart mappedPages next) := by
  unfold unwindPartialGrowth
  induction List.range mappedPages with
  | nil => exact rest
  | cons page pages inductionHypothesis => exact act _ _ inductionHypothesis

/-- A property that every act keeps and panics have holds of the pages of a growth. -/
theorem growPages_induction {kept : Call → Prop} (halt : kept .halt)
    (act : ∀ update next, (∀ globals, kept (next globals)) → kept (.act update next))
    (vmm : VirtualMemoryManager) (growthStart remaining mappedPages : Nat) {done failed : Call}
    (success : kept done) (failure : kept failed) :
    kept (growPages vmm growthStart done failed remaining mappedPages) := by
  induction remaining generalizing mappedPages with
  | zero => exact success
  | succ remaining inductionHypothesis =>
    refine act _ _ fun globals => ?_
    cases machine globals with
    | none => exact halt
    | some machine =>
      rw [Option.elim_some]
      split
      · exact inductionHypothesis _
      · exact unwind_induction (fun _ _ rest => act _ _ fun _ => rest) vmm growthStart
          mappedPages failure

/-- A growth takes and drops both statics under the allocator's guard. -/
theorem grow_twoPhase (layout : Layout) {next : Bool → Call}
    (shrinks : ∀ grown, (next grown).Shrinking)
    (rest : ∀ grown, TwoPhase (insert .heap ∅) (next grown)) :
    TwoPhase (insert .heap ∅) (grow active layout next) := by
  have dropped (grown : Bool) : TwoPhase allGuards (dropStatics (next grown)) :=
    dropStatics_twoPhase (shrinks grown) (rest grown)
  have act (update : Globals → Globals) (resume : Globals → Call)
      (later : ∀ globals, TwoPhase allGuards (resume globals)) :
      TwoPhase allGuards (.act update resume) := .act_all mem_allGuards later
  refine TwoPhase.act_part (Finset.mem_insert_self _ _) id (growFrom active layout next)
    (fun _ => by simp) (fun _ => rfl) ?_
  intro globals
  rw [growFrom]
  cases (globals .heap).growthEnd layout with
  | none => exact rest false
  | some growthStop =>
    refine .acquire (.acquire (act _ _ fun statics => ?_))
    split
    · apply growPages_induction (.halt _) act
      · exact act _ _ fun _ => onAllocator_twoPhase active (mem_allGuards _) _ fun _ => dropped true
      · exact dropped false
    · exact dropped false

/-- A growth takes the statics in order. -/
theorem grow_ordered (layout : Layout) {next : Bool → Call}
    (rest : ∀ grown, (next grown).Ordered rank (insert .heap ∅)) :
    (grow active layout next).Ordered rank (insert .heap ∅) := by
  have dropped (grown : Bool) : (dropStatics (next grown)).Ordered rank allGuards :=
    dropStatics_ordered (rest grown)
  refine .act fun globals => ?_
  rw [growFrom]
  cases (globals .heap).growthEnd layout with
  | none => exact rest false
  | some growthStop =>
    refine .acquire (by decide) (.acquire (by decide) (.act fun statics => ?_))
    split
    · apply growPages_induction (.halt _) fun _ _ later => .act later
      · exact .act fun _ => onAllocator_ordered active _ fun _ => dropped true
      · exact dropped false
    · exact dropped false

/-- Dropping the allocator's guard and answering. -/
theorem answer_twoPhase (answer : Answer) :
    TwoPhase (insert .heap ∅) (.release .heap (.done answer) : Call) := by
  refine .release (Finset.mem_insert_self _ _) (.done _) ?_
  have none : (insert .heap ∅ : Finset KernelLock).erase .heap = ∅ := by decide
  rw [none]
  exact .done answer

theorem answer_ordered (answer : Answer) :
    (.release .heap (.done answer) : Call).Ordered rank (insert .heap ∅) := by
  refine .release (Finset.mem_insert_self _ _) ?_
  have none : (insert .heap ∅ : Finset KernelLock).erase .heap = ∅ := by decide
  rw [none]
  exact .done answer

/-- `alloc` acquires nothing after its first release. -/
theorem alloc_twoPhase (layout : Layout) : TwoPhase ∅ (alloc active layout) := by
  refine .acquire (onAllocator_twoPhase active (Finset.mem_insert_self _ _) _ fun ptr => ?_)
  split
  · exact answer_twoPhase _
  · apply grow_twoPhase
    · intro grown
      split
      · exact .release _ (.done _)
      · exact onAllocator_shrinking active _ fun ptr => .release _ (.done _)
    · intro grown
      split
      · exact answer_twoPhase _
      · exact onAllocator_twoPhase active (Finset.mem_insert_self _ _) _ fun ptr =>
          answer_twoPhase _

/-- `alloc` takes its locks in order. -/
theorem alloc_ordered (layout : Layout) : (alloc active layout).Ordered rank ∅ := by
  refine .acquire (by decide) (onAllocator_ordered active _ fun ptr => ?_)
  split
  · exact answer_ordered _
  · apply grow_ordered
    intro grown
    split
    · exact answer_ordered _
    · exact onAllocator_ordered active _ fun ptr => answer_ordered _

theorem dealloc_twoPhase (ptr : Nat) (layout : Layout) : TwoPhase ∅ (dealloc active ptr layout) :=
  .acquire (onAllocator_twoPhase active (Finset.mem_insert_self _ _) _ fun _ => answer_twoPhase _)

theorem dealloc_ordered (ptr : Nat) (layout : Layout) :
    (dealloc active ptr layout).Ordered rank ∅ :=
  .acquire (by decide) (onAllocator_ordered active _ fun _ => answer_ordered _)

/-- Filling a static, as the two publications do. -/
theorem fill_twoPhase (lock : KernelLock) (value : Protected lock) :
    TwoPhase ∅ (.acquire lock (.act (fun globals => Function.update globals lock value)
      fun _ => .release lock (.done .unit)) : Call) := by
  have none : (insert lock ∅ : Finset KernelLock).erase lock = ∅ := by simp
  refine .acquire (TwoPhase.act_part (Finset.mem_insert_self _ _) (fun _ => value)
    (fun _ => .release lock (.done .unit)) (fun _ => rfl) (fun _ => rfl) fun _ => ?_)
  refine .release (Finset.mem_insert_self _ _) (.done _) ?_
  rw [none]
  exact .done _

theorem fill_ordered (lock : KernelLock) (value : Protected lock) :
    (.acquire lock (.act (fun globals => Function.update globals lock value)
      fun _ => .release lock (.done .unit)) : Call).Ordered rank ∅ := by
  have none : (insert lock ∅ : Finset KernelLock).erase lock = ∅ := by simp
  refine .acquire (by simp) (.act fun _ => .release (Finset.mem_insert_self _ _) ?_)
  rw [none]
  exact .done _

/-- The self-test takes the statics in the order in which a growth does. -/
theorem mapReadOnlyPage_ordered : mapReadOnlyPage.Ordered rank ∅ := by
  refine .acquire (by decide) (.acquire (by decide) (.act fun globals => ?_))
  split
  · refine .act fun globals => ?_
    cases machine globals with
    | none => exact .halt _
    | some current =>
      rw [Option.elim_some]
      cases current.frames.allocate.1 with
      | none => exact .halt _
      | some testFrame =>
        refine .act fun globals => ?_
        cases machine globals with
        | none => exact .halt _
        | some current =>
          rw [Option.elim_some]
          split
          · exact .release (by decide) (.release (by decide) (.done _))
          · exact .halt _
  · exact .halt _

end Discipline

end KernelCalls

end XyronOS
