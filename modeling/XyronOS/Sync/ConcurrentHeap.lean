import XyronOS.Mm.KernelHeapRuns
import XyronOS.Sync.KernelLocks

/-!
# Concurrent use of the kernel heap

Any number of threads allocate and free while `kernel_main` publishes the frame
allocator and the manager. A caller sees its call begin and, later, its answer; what it
may do depends only on what it has seen: it asks for layouts the heap serves, frees
blocks it holds, and the frame allocator is moved once.

The programs of the calls are two-phase, so the callers cannot tell the threads from a
heap on which each call takes effect at once. On that heap every block has one owner: it
is held, or on its way into a `dealloc` that has not taken effect, or on its way out of
an `alloc` that has. From this, and from the safety of the sequential heap, no call
panics and no two held blocks overlap, in whatever way the threads are interleaved.
-/

namespace XyronOS.KernelCalls

open ByteMemory Regions Executions Locking KernelHeap

/-- The calls of the threads. -/
inductive KernelCall where
  | alloc (layout : Layout)
  | dealloc (block : Block)
  | publishFrameAllocator (frames : FrameAllocator)
  | publishVmm (vmm : VirtualMemoryManager)

/-- The program of a call. -/
def KernelCall.program (active : VirtualMemoryManager) : KernelCall → Call
  | .alloc layout => KernelCalls.alloc active layout
  | .dealloc block => KernelCalls.dealloc active block.ptr block.layout
  | .publishFrameAllocator frames => KernelCalls.publishFrameAllocator frames
  | .publishVmm vmm => KernelCalls.publishVmm vmm

/-- Every call is two-phase. -/
theorem program_twoPhase (active : VirtualMemoryManager) (call : KernelCall) :
    TwoPhase ∅ (call.program active) := by
  cases call with
  | alloc layout => exact alloc_twoPhase active layout
  | dealloc block => exact dealloc_twoPhase active block.ptr block.layout
  | publishFrameAllocator frames => exact fill_twoPhase .frameAllocator (some frames)
  | publishVmm vmm => exact fill_twoPhase .vmm (some vmm)

/-- Every call takes its locks in order. -/
theorem program_ordered (active : VirtualMemoryManager) (call : KernelCall) :
    (call.program active).Ordered rank ∅ := by
  cases call with
  | alloc layout => exact alloc_ordered active layout
  | dealloc block => exact dealloc_ordered active block.ptr block.layout
  | publishFrameAllocator frames => exact fill_ordered .frameAllocator (some frames)
  | publishVmm vmm => exact fill_ordered .vmm (some vmm)

/-- The statics as they are declared. -/
def declared (memory : Memory) : Globals
  | .heap => ⟨⟨0, 0⟩, heapRegionStart, memory⟩
  | .frameAllocator => none
  | .vmm => none

section Callers

variable {Thread : Type}

/-- What the callers know: which call each thread is in, the blocks they hold, and
whether the frame allocator has been moved into its static. -/
structure Callers (Thread : Type) where
  pending : Thread → Option KernelCall
  held : List Block
  moved : Bool

/-- Nothing has been called. -/
def Callers.initial : Callers Thread := ⟨fun _ => none, [], false⟩

/-- The held blocks when a call begins: a block that is freed is no longer held. -/
def KernelCall.giveUp (held : List Block) : KernelCall → List Block
  | .dealloc block => held.erase block
  | _ => held

/-- Whether a call moves the frame allocator. -/
def KernelCall.moves : KernelCall → Bool
  | .publishFrameAllocator _ => true
  | _ => false

/-- The block an answer hands to its caller. -/
def received : Option KernelCall → Answer → Option Block
  | some (.alloc layout), .pointer ptr => if ptr = 0 then none else some ⟨ptr, layout⟩
  | _, _ => none

variable [DecidableEq Thread]

/-- What the callers know after a call has begun or answered. -/
def Callers.see (callers : Callers Thread) : Event Thread KernelCall Answer → Callers Thread
  | .begin thread call =>
      ⟨Function.update callers.pending thread (some call), call.giveUp callers.held,
        callers.moved || call.moves⟩
  | .finish thread answer =>
      ⟨Function.update callers.pending thread none,
        (received (callers.pending thread) answer).toList ++ callers.held, callers.moved⟩

/-- The calls a caller may begin. -/
def Callers.Allows (active : VirtualMemoryManager) (frames : FrameAllocator)
    (callers : Callers Thread) : Event Thread KernelCall Answer → Prop
  | .begin _ (.alloc layout) => layout.Servable
  | .begin _ (.dealloc block) => block ∈ callers.held
  | .begin _ (.publishFrameAllocator given) => given = frames ∧ callers.moved = false
  | .begin _ (.publishVmm vmm) => vmm = active
  | .finish _ _ => True

/-- A trace of allowed calls, and what the callers know after it. -/
inductive Lawful (active : VirtualMemoryManager) (frames : FrameAllocator) :
    List (Event Thread KernelCall Answer) → Callers Thread → Prop where
  | nil : Lawful active frames [] .initial
  | snoc {trace : List (Event Thread KernelCall Answer)} {callers : Callers Thread}
      (event : Event Thread KernelCall Answer) (earlier : Lawful active frames trace callers)
      (allowed : callers.Allows active frames event) :
      Lawful active frames (trace ++ [event]) (callers.see event)

end Callers

section Owners

variable {Thread : Type}

/-- Who has a block: the callers, a thread whose `dealloc` has not taken effect, or a
thread whose `alloc` has not answered yet. -/
inductive Owns (callers : Callers Thread) (phases : Thread → Phase KernelCall Answer) :
    Option Thread → Block → Prop where
  | held {block : Block} (listed : block ∈ callers.held) : Owns callers phases none block
  | freeing {thread : Thread} {block : Block} (called : phases thread = .called (.dealloc block)) :
      Owns callers phases (some thread) block
  | returning {thread : Thread} {answer : Answer} {block : Block}
      (answered : phases thread = .answered answer)
      (handed : received (callers.pending thread) answer = some block) :
      Owns callers phases (some thread) block

/-- Every owned block is live and has one owner. -/
structure Accounts (owns : Option Thread → Block → Prop) (live : List Block) : Prop where
  listed : ∀ owner block, owns owner block → block ∈ live
  unique : ∀ first second block, owns first block → owns second block → first = second

namespace Accounts

variable {owns later : Option Thread → Block → Prop} {live : List Block}
  (accounts : Accounts owns live)

include accounts

/-- Owners may forget blocks. -/
theorem mono (fewer : ∀ owner block, later owner block → owns owner block) :
    Accounts later live :=
  ⟨fun owner block owned => accounts.listed owner block (fewer owner block owned),
    fun first second block left right =>
      accounts.unique first second block (fewer _ _ left) (fewer _ _ right)⟩

/-- A block may change its owner. -/
theorem move {source : Option Thread} (target : Option Thread) {block : Block}
    (owned : owns source block)
    (passed : ∀ owner other, later owner other →
      owns owner other ∧ other ≠ block ∨ owner = target ∧ other = block) :
    Accounts later live := by
  constructor
  · intro owner other now
    rcases passed owner other now with ⟨before, _⟩ | ⟨_, rfl⟩
    · exact accounts.listed owner other before
    · exact accounts.listed source other owned
  · intro first second other left right
    rcases passed first other left with ⟨before, different⟩ | ⟨rfl, rfl⟩
    · rcases passed second other right with ⟨also, _⟩ | ⟨_, rfl⟩
      · exact accounts.unique first second other before also
      · exact absurd rfl different
    · rcases passed second other right with ⟨_, different⟩ | ⟨rfl, _⟩
      · exact absurd rfl different
      · rfl

/-- A new block has the owner it is given to. -/
theorem add (target : Option Thread) {block : Block} (fresh : block ∉ live)
    (given : ∀ owner other, later owner other →
      owns owner other ∨ owner = target ∧ other = block) :
    Accounts later (block :: live) := by
  have old {owner : Option Thread} (before : owns owner block) : False :=
    fresh (accounts.listed owner block before)
  constructor
  · intro owner other now
    rcases given owner other now with before | ⟨_, rfl⟩
    · exact List.mem_cons_of_mem _ (accounts.listed owner other before)
    · exact List.mem_cons_self
  · intro first second other left right
    rcases given first other left with before | ⟨rfl, rfl⟩
    · rcases given second other right with also | ⟨_, rfl⟩
      · exact accounts.unique first second other before also
      · exact (old before).elim
    · rcases given second other right with also | ⟨rfl, _⟩
      · exact (old also).elim
      · rfl

/-- A block that is gone had no owner but the one that gave it up. -/
theorem remove {source : Option Thread} {block : Block} (owned : owns source block)
    (kept : ∀ owner other, later owner other → owns owner other ∧ owner ≠ source) :
    Accounts later (live.erase block) := by
  constructor
  · intro owner other now
    obtain ⟨before, different⟩ := kept owner other now
    have apart : other ≠ block := by
      rintro rfl
      exact different (accounts.unique owner source other before owned)
    exact (List.mem_erase_of_ne apart).2 (accounts.listed owner other before)
  · intro first second other left right
    exact accounts.unique first second other (kept _ _ left).1 (kept _ _ right).1

end Accounts

end Owners

section Published

/-- Held blocks are apart. -/
theorem live_apart {ledger : Ledger} (balanced : ledger.Balanced) :
    ledger.live.Pairwise (fun left right => Disjoint left.region.bytes right.region.bytes) := by
  have parts := (List.pairwise_append.1 balanced.partition.disjoint).2.1
  have held := (List.pairwise_append.1 parts).1
  rw [List.pairwise_map] at held
  exact held

/-- Two different held blocks are apart. -/
theorem apart_of_live {ledger : Ledger} (balanced : ledger.Balanced) {left right : Block}
    (heldLeft : left ∈ ledger.live) (heldRight : right ∈ ledger.live) (different : left ≠ right) :
    Disjoint left.region.bytes right.region.bytes :=
  have : Std.Symm (fun left right : Block => Disjoint left.region.bytes right.region.bytes) :=
    ⟨fun _ _ apart => apart.symm⟩
  (live_apart balanced).forall heldLeft heldRight different

/-- No block is held twice. -/
theorem live_nodup {ledger : Ledger} (balanced : ledger.Balanced) : ledger.live.Nodup := by
  refine (live_apart balanced).imp_of_mem ?_
  rintro block other held _ apart rfl
  have long := (balanced.served block held).holdable.size
  have first : block.region.start ∈ block.region.bytes := ⟨Nat.le_refl _, by
    unfold nodeSize at long
    unfold Region.stop
    omega⟩
  exact Set.disjoint_left.1 apart first first

variable {heap : KernelHeap} {ledger : Ledger} {backing : List Nat}
  (safe : Safe { heap with populated := true } ledger backing)

include safe

/-- An allocation succeeds or answers null also while the statics are not published. -/
theorem alloc_ok {layout : Layout} (servable : layout.Servable) :
    ∃ ptr after books pages, heap.alloc layout = .ok (ptr, after) ∧
      Safe { after with populated := true } books pages ∧
      books.live = if ptr = 0 then ledger.live else ⟨ptr, layout⟩ :: ledger.live := by
  cases published : heap.populated with
  | true =>
    have same : { heap with populated := true } = heap := by rw [← published]
    rw [same] at safe
    obtain ⟨ptr, after, books, pages, result, _, still, live⟩ := safe.alloc_ok servable
    have unchanged : { after with populated := true } = after := by rw [← still.populated]
    exact ⟨ptr, after, books, pages, result, unchanged ▸ still, live⟩
  | false =>
    obtain ⟨ptr, list, attempt, stored, live⟩ := safe.list_alloc servable
    have refused : (heap.store list).grow layout = .ok (false, heap.store list) := by
      have unset : (heap.store list).populated = false := published
      unfold KernelHeap.grow
      cases (heap.store list).growthEnd layout with
      | none => rfl
      | some growthStop => simp only [Option.elim_some, unset, Bool.false_eq_true, if_false]
    have first : heap.allocator.alloc layout = .ok (ptr, list) := attempt
    have result : heap.alloc layout = .ok (ptr, heap.store list) := by
      rw [alloc_eq, first]
      by_cases found : ptr = 0
      · simp [bind, Except.bind, Except.map, found, refused]
      · simp [bind, Except.bind, Except.map, found]
    exact ⟨ptr, heap.store list, _, backing, result, stored, live⟩

/-- Freeing a held block does not depend on the statics. -/
theorem dealloc_ok {block : Block} (held : block ∈ ledger.live) :
    ∃ after, heap.dealloc block.ptr block.layout = .ok after ∧
      Safe { after with populated := true } (ledger.step (.dealloc block)) backing := by
  obtain ⟨list, freed, stored⟩ := safe.list_dealloc held
  have first : heap.allocator.dealloc block.ptr block.layout = .ok list := freed
  refine ⟨heap.store list, ?_, stored⟩
  simp [KernelHeap.dealloc, first, bind, Except.bind, pure, Except.pure]

end Published

section Invariant

variable {Thread : Type} (active : VirtualMemoryManager) (frames : FrameAllocator)

/-- The calls a caller may begin, whatever it holds. -/
def KernelCall.Proper : KernelCall → Prop
  | .alloc layout => layout.Servable
  | .dealloc _ => True
  | .publishFrameAllocator given => given = frames
  | .publishVmm vmm => vmm = active

/-- The atomic heap is safe, every block has its owner, and the calls that have not
taken effect are proper. -/
structure Accounted (callers : Callers Thread) (atomic : Atomic Thread Globals KernelCall Answer)
    (ledger : Ledger) (backing : List Nat) : Prop where
  safe : Safe { kernelHeap active frames atomic.state with populated := true } ledger backing
  genuine : ∀ vmm, atomic.state .vmm = some vmm → vmm = active
  accounts : Accounts (Owns callers atomic.phases) ledger.live
  distinct : callers.held.Nodup
  pending : ∀ thread call, atomic.phases thread = .called call →
    callers.pending thread = some call ∧ call.Proper active frames
  once : ∀ first second left right, atomic.phases first = .called left →
    atomic.phases second = .called right → left.moves = true → right.moves = true → first = second
  moved : ∀ thread call, atomic.phases thread = .called call → call.moves = true →
    callers.moved = true ∧ atomic.state .frameAllocator = none
  unmoved : callers.moved = false → atomic.state .frameAllocator = none
  running : ∀ thread, atomic.phases thread ≠ .stopped

variable {active frames}

/-- What a thread owns depends on its phase and its call only. -/
theorem Owns.other {callers later : Callers Thread} {phases after : Thread → Phase KernelCall Answer}
    {thread : Thread} {block : Block} (samePhase : after thread = phases thread)
    (samePending : later.pending thread = callers.pending thread)
    (owned : Owns later after (some thread) block) : Owns callers phases (some thread) block := by
  cases owned with
  | freeing called => exact .freeing (samePhase ▸ called)
  | returning answered handed => exact .returning (samePhase ▸ answered) (samePending ▸ handed)

variable [DecidableEq Thread]

/-- A call that has not taken effect after a phase without a call was there before. -/
theorem called_before {phases : Thread → Phase KernelCall Answer} {thread other : Thread}
    {phase : Phase KernelCall Answer} {call : KernelCall} (different : phase ≠ .called call)
    (called : Function.update phases thread phase other = .called call) :
    other ≠ thread ∧ phases other = .called call := by
  by_cases same : other = thread
  · subst same
    rw [Function.update_self] at called
    exact absurd called different
  · rw [Function.update_of_ne same] at called
    exact ⟨same, called⟩

/-- No thread stops if the new phase is no stop. -/
theorem running_update {phases : Thread → Phase KernelCall Answer}
    (running : ∀ thread, phases thread ≠ .stopped) {thread : Thread}
    {phase : Phase KernelCall Answer} (goes : phase ≠ .stopped) (other : Thread) :
    Function.update phases thread phase other ≠ .stopped := by
  by_cases same : other = thread
  · subst same
    rwa [Function.update_self]
  · rw [Function.update_of_ne same]
    exact running other

/-- The owners once a call has begun. -/
theorem owns_begin {callers : Callers Thread} {phases : Thread → Phase KernelCall Answer}
    {thread : Thread} {call : KernelCall} {owner : Option Thread} {block : Block}
    (owned : Owns (callers.see (.begin thread call))
      (Function.update phases thread (.called call)) owner block) :
    (owner = none ∧ block ∈ call.giveUp callers.held) ∨
      (owner = some thread ∧ call = .dealloc block) ∨
      (∃ other, owner = some other) ∧ Owns callers phases owner block := by
  cases owner with
  | none =>
    cases owned with
    | held listed => exact .inl ⟨rfl, listed⟩
  | some other =>
    right
    by_cases same : other = thread
    · subst same
      left
      cases owned with
      | freeing called =>
        rw [Function.update_self] at called
        cases called
        exact ⟨rfl, rfl⟩
      | returning answered handed =>
        rw [Function.update_self] at answered
        cases answered
    · right
      refine ⟨⟨other, rfl⟩, owned.other (Function.update_of_ne same _ _) ?_⟩
      simp only [Callers.see, Function.update_of_ne same]

/-- The owners once a call has taken effect. -/
theorem owns_execute {callers : Callers Thread} {phases : Thread → Phase KernelCall Answer}
    {thread : Thread} {answer : Answer} {owner : Option Thread} {block : Block}
    (owned : Owns callers (Function.update phases thread (.answered answer)) owner block) :
    (Owns callers phases owner block ∧ owner ≠ some thread) ∨
      owner = some thread ∧ received (callers.pending thread) answer = some block := by
  cases owner with
  | none =>
    cases owned with
    | held listed => exact .inl ⟨.held listed, by simp⟩
  | some other =>
    by_cases same : other = thread
    · subst same
      right
      cases owned with
      | freeing called =>
        rw [Function.update_self] at called
        cases called
      | returning answered handed =>
        rw [Function.update_self] at answered
        cases answered
        exact ⟨rfl, handed⟩
    · left
      exact ⟨owned.other (Function.update_of_ne same _ _) rfl, by simpa using same⟩

/-- The owners once a call has answered. -/
theorem owns_finish {callers : Callers Thread} {phases : Thread → Phase KernelCall Answer}
    {thread : Thread} {answer : Answer} {owner : Option Thread} {block : Block}
    (owned : Owns (callers.see (.finish thread answer))
      (Function.update phases thread .idle) owner block) :
    (Owns callers phases owner block ∧ owner ≠ some thread) ∨
      owner = none ∧ received (callers.pending thread) answer = some block := by
  cases owner with
  | none =>
    cases owned with
    | held listed =>
      rcases List.mem_append.1 listed with handed | kept
      · exact .inr ⟨rfl, Option.mem_toList.1 handed⟩
      · exact .inl ⟨.held kept, by simp⟩
  | some other =>
    by_cases same : other = thread
    · subst same
      cases owned with
      | freeing called =>
        rw [Function.update_self] at called
        cases called
      | returning answered handed =>
        rw [Function.update_self] at answered
        cases answered
    · left
      refine ⟨owned.other (Function.update_of_ne same _ _) ?_, by simpa using same⟩
      simp only [Callers.see, Function.update_of_ne same]

namespace Accounted

variable {callers : Callers Thread} {atomic : Atomic Thread Globals KernelCall Answer}
  {ledger : Ledger} {backing : List Nat}
  (accounted : Accounted active frames callers atomic ledger backing)

include accounted

/-- The owners of a call that begins: a block that is freed goes to its thread. -/
theorem accounts_begin {thread : Thread} {call : KernelCall}
    (allowed : callers.Allows active frames (.begin thread call)) :
    Accounts (Owns (callers.see (.begin thread call))
      (Function.update atomic.phases thread (.called call))) ledger.live := by
  by_cases freed : ∃ block, call = .dealloc block
  · obtain ⟨block, rfl⟩ := freed
    have owned : Owns callers atomic.phases none block := .held allowed
    refine accounted.accounts.move (some thread) owned ?_
    intro owner other now
    rcases owns_begin now with ⟨rfl, listed⟩ | ⟨rfl, same⟩ | ⟨⟨which, rfl⟩, before⟩
    · have kept := (accounted.distinct.mem_erase_iff).1 listed
      exact .inl ⟨.held kept.2, kept.1⟩
    · cases same
      exact .inr ⟨rfl, rfl⟩
    · refine .inl ⟨before, ?_⟩
      rintro rfl
      have both := accounted.accounts.unique (some which) none other before owned
      cases both
  · refine accounted.accounts.mono ?_
    intro owner other now
    rcases owns_begin now with ⟨rfl, listed⟩ | ⟨_, same⟩ | ⟨_, before⟩
    · have unchanged : call.giveUp callers.held = callers.held := by
        cases call with
        | dealloc block => exact absurd ⟨block, rfl⟩ freed
        | alloc layout => rfl
        | publishFrameAllocator given => rfl
        | publishVmm vmm => rfl
      rw [unchanged] at listed
      exact .held listed
    · exact absurd ⟨other, same⟩ freed
    · exact before

/-- The owners of a call that answers: a new block goes to the callers. -/
theorem accounts_finish {thread : Thread} {answer : Answer}
    (answered : atomic.phases thread = .answered answer) :
    Accounts (Owns (callers.see (.finish thread answer))
      (Function.update atomic.phases thread .idle)) ledger.live := by
  cases handed : received (callers.pending thread) answer with
  | none =>
    refine accounted.accounts.mono ?_
    intro owner other now
    rcases owns_finish now with ⟨before, _⟩ | ⟨_, given⟩
    · exact before
    · rw [handed] at given
      cases given
  | some block =>
    have owned : Owns callers atomic.phases (some thread) block := .returning answered handed
    refine accounted.accounts.move none owned ?_
    intro owner other now
    rcases owns_finish now with ⟨before, different⟩ | ⟨rfl, given⟩
    · refine .inl ⟨before, ?_⟩
      rintro rfl
      exact different (accounted.accounts.unique owner (some thread) other before owned)
    · rw [handed] at given
      cases given
      exact .inr ⟨rfl, rfl⟩

/-- A call that begins. -/
theorem begin {thread : Thread} {call : KernelCall}
    (allowed : callers.Allows active frames (.begin thread call)) :
    Accounted active frames (callers.see (.begin thread call))
      { atomic with phases := Function.update atomic.phases thread (.called call) }
      ledger backing := by
  have proper : call.Proper active frames ∧ (call.moves = true → callers.moved = false) := by
    cases call with
    | alloc layout => exact ⟨allowed, by simp [KernelCall.moves]⟩
    | dealloc block => exact ⟨trivial, by simp [KernelCall.moves]⟩
    | publishFrameAllocator given => exact ⟨allowed.1, fun _ => allowed.2⟩
    | publishVmm vmm => exact ⟨allowed, by simp [KernelCall.moves]⟩
  have called (other : Thread) (now : KernelCall)
      (phase : Function.update atomic.phases thread (.called call) other = .called now) :
      other = thread ∧ now = call ∨ other ≠ thread ∧ atomic.phases other = .called now := by
    by_cases same : other = thread
    · subst same
      rw [Function.update_self] at phase
      cases phase
      exact .inl ⟨rfl, rfl⟩
    · rw [Function.update_of_ne same] at phase
      exact .inr ⟨same, phase⟩
  refine ⟨accounted.safe, accounted.genuine, ?_, ?_, ?_, ?_, ?_, ?_, ?_⟩
  · exact accounted.accounts_begin allowed
  · cases call with
    | dealloc block => exact accounted.distinct.erase block
    | alloc layout => exact accounted.distinct
    | publishFrameAllocator given => exact accounted.distinct
    | publishVmm vmm => exact accounted.distinct
  · intro other now phase
    rcases called other now phase with ⟨rfl, rfl⟩ | ⟨different, before⟩
    · exact ⟨Function.update_self _ _ _, proper.1⟩
    · obtain ⟨pending, still⟩ := accounted.pending other now before
      exact ⟨(Function.update_of_ne different _ _).trans pending, still⟩
  · intro first second left right leftPhase rightPhase leftMoves rightMoves
    rcases called first left leftPhase with ⟨rfl, rfl⟩ | ⟨_, leftBefore⟩
    · rcases called second right rightPhase with ⟨rfl, _⟩ | ⟨_, rightBefore⟩
      · rfl
      · have already := (accounted.moved second right rightBefore rightMoves).1
        simp [proper.2 leftMoves] at already
    · rcases called second right rightPhase with ⟨rfl, rfl⟩ | ⟨_, rightBefore⟩
      · have already := (accounted.moved first left leftBefore leftMoves).1
        simp [proper.2 rightMoves] at already
      · exact accounted.once first second left right leftBefore rightBefore leftMoves rightMoves
  · intro other now phase moves
    rcases called other now phase with ⟨rfl, rfl⟩ | ⟨_, before⟩
    · exact ⟨by simp [Callers.see, moves], accounted.unmoved (proper.2 moves)⟩
    · obtain ⟨already, none⟩ := accounted.moved other now before moves
      exact ⟨by simp [Callers.see, already], none⟩
  · intro unmoved
    exact accounted.unmoved (Bool.or_eq_false_iff.1 unmoved).1
  · exact running_update accounted.running (by simp)

/-- A call that answers. -/
theorem finish {thread : Thread} {answer : Answer}
    (answered : atomic.phases thread = .answered answer) :
    Accounted active frames (callers.see (.finish thread answer))
      { atomic with phases := Function.update atomic.phases thread .idle } ledger backing := by
  have called (other : Thread) (now : KernelCall)
      (phase : Function.update atomic.phases thread .idle other = .called now) :
      other ≠ thread ∧ atomic.phases other = .called now :=
    called_before (by simp) phase
  refine ⟨accounted.safe, accounted.genuine, ?_, ?_, ?_, ?_, ?_, accounted.unmoved, ?_⟩
  · exact accounted.accounts_finish answered
  · simp only [Callers.see]
    cases handed : received (callers.pending thread) answer with
    | none => exact accounted.distinct
    | some block =>
      refine List.nodup_cons.2 ⟨?_, accounted.distinct⟩
      intro already
      have both := accounted.accounts.unique none (some thread) block (.held already)
        (.returning answered handed)
      cases both
  · intro other now phase
    obtain ⟨different, before⟩ := called other now phase
    obtain ⟨pending, still⟩ := accounted.pending other now before
    exact ⟨(Function.update_of_ne different _ _).trans pending, still⟩
  · intro first second left right leftPhase rightPhase
    exact accounted.once first second left right (called first left leftPhase).2
      (called second right rightPhase).2
  · intro other now phase
    exact accounted.moved other now (called other now phase).2
  · exact running_update accounted.running (by simp)

/-- A call that has taken effect and answers with its new books. -/
theorem settle {thread : Thread} {call : KernelCall} (pending : atomic.phases thread = .called call)
    {answer : Answer} {after : Globals} {books : Ledger} {pages : List Nat}
    (safe : Safe { kernelHeap active frames after with populated := true } books pages)
    (genuine : ∀ vmm, after .vmm = some vmm → vmm = active)
    (unpublished : call.moves = false → atomic.state .frameAllocator = none →
      after .frameAllocator = none)
    (accounts : Accounts (Owns callers (Function.update atomic.phases thread (.answered answer)))
      books.live) :
    Accounted active frames callers
      ⟨after, Function.update atomic.phases thread (.answered answer)⟩ books pages := by
  have called (other : Thread) (now : KernelCall)
      (phase : Function.update atomic.phases thread (.answered answer) other = .called now) :
      other ≠ thread ∧ atomic.phases other = .called now :=
    called_before (by simp) phase
  refine ⟨safe, genuine, accounts, accounted.distinct, ?_, ?_, ?_, ?_, ?_⟩
  · intro other now phase
    exact accounted.pending other now (called other now phase).2
  · intro first second left right leftPhase rightPhase
    exact accounted.once first second left right (called first left leftPhase).2
      (called second right rightPhase).2
  · intro other now phase moves
    obtain ⟨different, before⟩ := called other now phase
    obtain ⟨already, none⟩ := accounted.moved other now before moves
    refine ⟨already, unpublished ?_ none⟩
    by_contra also
    exact different (accounted.once other thread now call before pending moves
      (Bool.eq_true_of_not_eq_false also))
  · intro unmoved
    refine unpublished ?_ (accounted.unmoved unmoved)
    by_contra also
    have already := (accounted.moved thread call pending (Bool.eq_true_of_not_eq_false also)).1
    rw [unmoved] at already
    cases already
  · exact running_update accounted.running (by simp)

/-- The owners after a call that hands out nothing. -/
theorem accounts_execute {thread : Thread} {answer : Answer}
    (nothing : received (callers.pending thread) answer = none) :
    Accounts (Owns callers (Function.update atomic.phases thread (.answered answer)))
      ledger.live := by
  refine accounted.accounts.mono ?_
  intro owner other now
  rcases owns_execute now with ⟨before, _⟩ | ⟨_, given⟩
  · exact before
  · rw [nothing] at given
    cases given

/-- An `alloc` that takes effect. -/
theorem execute_alloc {thread : Thread} {layout : Layout}
    (called : atomic.phases thread = .called (.alloc layout)) :
    ∃ answer after books pages,
      (KernelCalls.alloc active layout).runAlone atomic.state = (some answer, after) ∧
      Accounted active frames callers
        ⟨after, Function.update atomic.phases thread (.answered answer)⟩ books pages := by
  obtain ⟨pending, servable⟩ := accounted.pending thread _ called
  obtain ⟨ptr, heap, books, pages, result, safe, live⟩ := alloc_ok accounted.safe servable
  obtain ⟨after, published, rfl, run⟩ :=
    (alloc_outcome active frames atomic.state accounted.genuine layout).of_ok result
  refine ⟨.pointer ptr, after, books, pages, run, accounted.settle called safe ?_ ?_ ?_⟩
  · rw [published.vmm]
    exact accounted.genuine
  · intro _ none
    have same := published.frameAllocator
    rw [none] at same
    exact Option.isNone_iff_eq_none.1 (by simpa using same)
  · by_cases null : ptr = 0
    · rw [live, if_pos null]
      exact accounted.accounts_execute (by simp [pending, received, null])
    · rw [if_neg null] at live
      have fresh : (⟨ptr, layout⟩ : Block) ∉ ledger.live := by
        have distinct := live_nodup safe.balanced
        rw [live] at distinct
        exact (List.nodup_cons.1 distinct).1
      rw [live]
      refine accounted.accounts.add (some thread) fresh ?_
      intro owner other now
      rcases owns_execute now with ⟨before, _⟩ | ⟨here, given⟩
      · exact .inl before
      · simp only [pending, received, if_neg null, Option.some.injEq] at given
        exact .inr ⟨here, given.symm⟩

/-- A `dealloc` that takes effect. -/
theorem execute_dealloc {thread : Thread} {block : Block}
    (called : atomic.phases thread = .called (.dealloc block)) :
    ∃ answer after books pages,
      (KernelCalls.dealloc active block.ptr block.layout).runAlone atomic.state =
        (some answer, after) ∧
      Accounted active frames callers
        ⟨after, Function.update atomic.phases thread (.answered answer)⟩ books pages := by
  obtain ⟨pending, _⟩ := accounted.pending thread _ called
  have owned : Owns callers atomic.phases (some thread) block := .freeing called
  have held := accounted.accounts.listed _ _ owned
  obtain ⟨heap, result, safe⟩ := dealloc_ok accounted.safe held
  obtain ⟨after, published, rfl, run⟩ :=
    (dealloc_outcome active frames atomic.state block.ptr block.layout).of_ok
      (by rw [result]; rfl)
  refine ⟨.unit, after, _, backing, run, accounted.settle called safe ?_ ?_ ?_⟩
  · rw [published.vmm]
    exact accounted.genuine
  · intro _ none
    have same := published.frameAllocator
    rw [none] at same
    exact Option.isNone_iff_eq_none.1 (by simpa using same)
  · refine accounted.accounts.remove owned ?_
    intro owner other now
    rcases owns_execute now with before | ⟨_, given⟩
    · exact before
    · simp [pending, received] at given

/-- A call that takes effect answers; it does not panic. -/
theorem execute {thread : Thread} {call : KernelCall}
    (called : atomic.phases thread = .called call) :
    ∃ answer after books pages,
      (call.program active).runAlone atomic.state = (some answer, after) ∧
      Accounted active frames callers
        ⟨after, Function.update atomic.phases thread (.answered answer)⟩ books pages := by
  obtain ⟨pending, proper⟩ := accounted.pending thread _ called
  cases call with
  | alloc layout => exact accounted.execute_alloc called
  | dealloc block => exact accounted.execute_dealloc called
  | publishFrameAllocator given =>
    obtain ⟨_, unpublished⟩ := accounted.moved thread _ called rfl
    have same : ({ kernelHeap active frames (Function.update atomic.state .frameAllocator
        (some given)) with populated := true } : KernelHeap) =
        { kernelHeap active frames atomic.state with populated := true } := by
      have spare : given = frames := proper
      simp [kernelHeap, unpublished, spare]
    refine ⟨.unit, _, ledger, backing, rfl, accounted.settle called ?_ accounted.genuine ?_ ?_⟩
    · rw [same]
      exact accounted.safe
    · intro stays
      cases stays
    · exact accounted.accounts_execute (by simp [pending, received])
  | publishVmm vmm =>
    refine ⟨.unit, _, ledger, backing, rfl, accounted.settle called accounted.safe ?_ ?_ ?_⟩
    · intro found shown
      have manager : vmm = active := proper
      simp only [Function.update_self, Option.some.injEq] at shown
      exact shown.symm.trans manager
    · exact fun _ none => none
    · exact accounted.accounts_execute (by simp [pending, received])

end Accounted

/-- The last event of a lawful trace was allowed. -/
theorem Lawful.last {trace : List (Event Thread KernelCall Answer)}
    {event : Event Thread KernelCall Answer} {callers : Callers Thread}
    (lawful : Lawful active frames (trace ++ [event]) callers) :
    ∃ before, Lawful active frames trace before ∧ before.Allows active frames event ∧
      callers = before.see event := by
  generalize whole : trace ++ [event] = events at lawful
  cases lawful with
  | nil => simp at whole
  | snoc last earlier allowed =>
    obtain ⟨rfl, same⟩ := List.append_inj' whole rfl
    cases same
    exact ⟨_, earlier, allowed, rfl⟩

/-- Without an event the callers know nothing. -/
theorem Lawful.start {callers : Callers Thread} (lawful : Lawful active frames [] callers) :
    callers = .initial := by
  generalize whole : ([] : List (Event Thread KernelCall Answer)) = events at lawful
  cases lawful with
  | nil => rfl
  | snoc last earlier allowed => simp at whole

omit [DecidableEq Thread] in
/-- The statics as they are declared hold an empty heap. -/
theorem accounted_initial {machine : Machine} (owned : Owned active machine) :
    Accounted active machine.frames (.initial : Callers Thread)
      (Atomic.initial (declared machine.memory)) emptyLedger [] where
  safe := safe_new owned
  genuine := by
    intro vmm published
    cases published
  accounts := by
    have nobody (owner : Option Thread) (block : Block) : ¬ Owns (.initial : Callers Thread)
        (fun _ => .idle) owner block := by
      rintro (listed | called | answered)
      · cases listed
      · cases called
      · cases answered
    exact ⟨fun owner block owned => (nobody owner block owned).elim,
      fun first _ block owned => (nobody first block owned).elim⟩
  distinct := List.nodup_nil
  pending := by
    intro thread call called
    cases called
  once := by
    intro first second left right called
    cases called
  moved := by
    intro thread call called
    cases called
  unmoved := fun _ => rfl
  running := by
    intro thread stopped
    cases stopped

/-- Every step of the atomic heap keeps the accounts. -/
theorem accounted_step {trace : List (Event Thread KernelCall Answer)}
    {atomic next : Atomic Thread Globals KernelCall Answer}
    {label : Option (Event Thread KernelCall Answer)}
    (accounted : ∀ callers, Lawful active frames trace callers →
      ∃ ledger backing, Accounted active frames callers atomic ledger backing)
    (step : AtomicStep (KernelCall.program active) atomic label next)
    (callers : Callers Thread) (lawful : Lawful active frames (trace ++ label.toList) callers) :
    ∃ ledger backing, Accounted active frames callers next ledger backing := by
  cases step with
  | begin thread call idle =>
    obtain ⟨before, earlier, allowed, rfl⟩ := Lawful.last lawful
    obtain ⟨ledger, backing, kept⟩ := accounted before earlier
    exact ⟨ledger, backing, kept.begin allowed⟩
  | execute thread call called =>
    rw [Option.toList_none, List.append_nil] at lawful
    obtain ⟨ledger, backing, kept⟩ := accounted callers lawful
    obtain ⟨answer, after, books, pages, run, settled⟩ := kept.execute called
    rw [run]
    exact ⟨books, pages, settled⟩
  | finish thread answer answered =>
    obtain ⟨before, earlier, _, rfl⟩ := Lawful.last lawful
    obtain ⟨ledger, backing, kept⟩ := accounted before earlier
    exact ⟨ledger, backing, kept.finish answered⟩

/-- Every lawful execution of the atomic heap keeps the accounts. -/
theorem execution_accounted {machine : Machine} (owned : Owned active machine)
    {trace : List (Event Thread KernelCall Answer)}
    {atomic : Atomic Thread Globals KernelCall Answer}
    (execution : Execution (AtomicStep (KernelCall.program active))
      (Atomic.initial (declared machine.memory)) trace atomic)
    {callers : Callers Thread} (lawful : Lawful active machine.frames trace callers) :
    ∃ ledger backing, Accounted active machine.frames callers atomic ledger backing := by
  refine execution.invariant (fun trace atomic => ∀ callers,
    Lawful active machine.frames trace callers →
      ∃ ledger backing, Accounted active machine.frames callers atomic ledger backing) ?_ ?_
    callers lawful
  · intro callers lawful
    rw [lawful.start]
    exact ⟨emptyLedger, [], accounted_initial owned⟩
  · intro trace atomic label next accounted step
    exact accounted_step accounted step

end Invariant

section Results

variable {Thread : Type} [DecidableEq Thread]

/-- **The heap is safe under concurrent use.** Let any number of threads call `alloc`
and `dealloc` while the statics are published, in any interleaving and with any lock
attempt failing. If the callers ask for layouts the heap serves and free what they hold,
then no thread ever panics, and while a call runs some thread gets further; the held
blocks lie in the heap region, as aligned and as long as requested, and no two overlap;
and whenever the locks are free, the statics hold a safe heap in whose books all held
blocks are live. -/
theorem concurrent_heap_safe {active : VirtualMemoryManager} {machine : Machine}
    (owned : Owned active machine) {trace : List (Event Thread KernelCall Answer)}
    {threads : Statics.Threads Thread Protected Answer}
    (execution : Execution (Statics.Step (KernelCall.program active))
      (.initial (declared machine.memory)) trace threads)
    {callers : Callers Thread} (lawful : Lawful active machine.frames trace callers) :
    (∀ thread, ¬ Halted threads.config thread) ∧
    ((∃ thread, threads.running thread ≠ none) →
      Statics.CanStep (KernelCall.program active) threads) ∧
    callers.held.Pairwise (fun left right => Disjoint left.region.bytes right.region.bytes) ∧
    (∀ block ∈ callers.held, heapRegionStart ≤ block.ptr ∧ block.region.stop ≤ heapRegionEnd ∧
      block.ptr % block.layout.align = 0 ∧ block.layout.size ≤ block.region.size) ∧
    ((∀ lock, (threads.statics lock).locked = false) → ∃ ledger backing,
      Safe { kernelHeap active machine.frames (Statics.contents threads.statics) with
        populated := true } ledger backing ∧ ∀ block ∈ callers.held, block ∈ ledger.live) := by
  obtain ⟨atomic, followed, serial⟩ :=
    execution_atomic (program_twoPhase active) (Statics.execution_refines execution)
  obtain ⟨ledger, backing, accounted⟩ := execution_accounted owned followed lawful
  have live (block : Block) (held : block ∈ callers.held) : block ∈ ledger.live :=
    accounted.accounts.listed none block (.held held)
  have alive (thread : Thread) : ¬ Halted threads.config thread := by
    rintro ⟨guards, here⟩
    exact accounted.running thread (serial.shrinking here .halt).1
  refine ⟨alive, ?_, ?_, ?_, ?_⟩
  · rintro ⟨thread, busy⟩
    obtain ⟨activity, here⟩ := Option.ne_none_iff_exists'.1 busy
    have ordered := (execution_disciplined (ordered_discipline rank) (program_ordered active)
      (Statics.execution_refines execution)).1
    exact Statics.canStep_of_canAdvance
      (not_stuck_of_ordered rank_lt ordered serial.exclusive alive here)
  · refine accounted.distinct.pairwise_of_forall_ne ?_
    intro left heldLeft right heldRight different
    exact apart_of_live accounted.safe.balanced (live left heldLeft) (live right heldRight) different
  · intro block held
    have served := accounted.safe.balanced.served block (live block held)
    have long := served.holdable.size
    have bounds := HeapRuntime.part_bounds accounted.safe
      (List.mem_append_right _ (List.mem_append_left _ (List.mem_map_of_mem (live block held))))
      (Nat.lt_of_lt_of_le (by decide) long)
    have room := accounted.safe.backed.room
    rw [← accounted.safe.cursor] at room
    exact ⟨bounds.1, Nat.le_trans bounds.2 room, served.aligned.1, served.enough⟩
  · intro free
    have same : Statics.contents threads.statics = atomic.state :=
      funext fun lock => serial.free lock (free lock)
    rw [same]
    exact ⟨ledger, backing, accounted.safe, live⟩

/-- The calls of the example: the statics are published and a block is taken by one
thread, while a request of another one is under way. -/
def roomyTrace : List (Event Bool KernelCall Answer) :=
  [.begin true (.publishFrameAllocator roomyMachine.frames), .finish true .unit,
    .begin true (.publishVmm ⟨0x1000⟩), .finish true .unit, .begin false (.alloc smallRequest),
    .begin true (.alloc smallRequest), .finish true (.pointer heapRegionStart)]

/-- The threads can make these calls. The statics are free between them. -/
theorem roomy_execution :
    ∃ threads : Statics.Threads Bool Protected Answer,
      Execution (Statics.Step (KernelCall.program ⟨0x1000⟩))
        (.initial (declared roomyMachine.memory)) roomyTrace threads ∧
      threads.running false ≠ none := by
  have alone {threads : Statics.Threads Bool Protected Answer} {call : KernelCall}
      {answer : Answer} {after : Globals} (idle : threads.running true = none)
      (free : ∀ lock, (threads.statics lock).locked = false)
      (run : (call.program ⟨0x1000⟩).runAlone (Statics.contents threads.statics) =
        (some answer, after)) :=
    Statics.call_alone idle free (program_ordered ⟨0x1000⟩ call) run
  obtain ⟨first, executed, contents, free, running⟩ :=
    @alone (.initial (declared roomyMachine.memory))
      (.publishFrameAllocator roomyMachine.frames) _ _ rfl (fun _ => rfl) rfl
  obtain ⟨second, further, filled, unlocked, idle⟩ :=
    @alone first (.publishVmm ⟨0x1000⟩) _ _ (by rw [running]; rfl) free rfl
  have begun := (executed.append further).snoc _ (Statics.Step.begin false (.alloc smallRequest)
    (by rw [idle, running]; rfl))
  obtain ⟨heap, served, -⟩ := roomy_alloc
  have published : kernelHeap ⟨0x1000⟩ roomyMachine.frames (Statics.contents second.statics) =
      KernelHeap.new ⟨0x1000⟩ roomyMachine := by
    rw [filled, contents]
    rfl
  have genuine : ∀ vmm, Statics.contents second.statics .vmm = some vmm → vmm = ⟨0x1000⟩ := by
    intro vmm shown
    rw [filled] at shown
    exact (Option.some.inj shown).symm
  have outcome := alloc_outcome ⟨0x1000⟩ roomyMachine.frames (Statics.contents second.statics)
    genuine smallRequest
  rw [published] at outcome
  obtain ⟨after, -, -, run⟩ := outcome.of_ok served
  obtain ⟨final, last, -, -, still⟩ := @alone
    ⟨second.statics, Function.update second.running false
      (some ⟨∅, KernelCall.program ⟨0x1000⟩ (.alloc smallRequest)⟩)⟩
    (.alloc smallRequest) _ _ (by simp [idle, running, Statics.Threads.initial]) unlocked run
  refine ⟨final, begun.append last, ?_⟩
  rw [still]
  simp

/-- Two threads allocate; one of them has its block, which lies in the heap as requested,
and the other can go on. -/
theorem concurrent_heap_safe_roomy :
    ∃ (threads : Statics.Threads Bool Protected Answer) (callers : Callers Bool),
      Execution (Statics.Step (KernelCall.program ⟨0x1000⟩))
        (.initial (declared roomyMachine.memory)) roomyTrace threads ∧
      Lawful ⟨0x1000⟩ roomyMachine.frames roomyTrace callers ∧
      callers.held = [⟨heapRegionStart, smallRequest⟩] ∧
      Statics.CanStep (KernelCall.program ⟨0x1000⟩) threads ∧
      ∀ block ∈ callers.held, heapRegionStart ≤ block.ptr ∧ block.region.stop ≤ heapRegionEnd ∧
        block.ptr % block.layout.align = 0 ∧ block.layout.size ≤ block.region.size := by
  obtain ⟨threads, execution, busy⟩ := roomy_execution
  have start : Lawful ⟨0x1000⟩ roomyMachine.frames [] (.initial : Callers Bool) := .nil
  have frames := (start.snoc (.begin true (.publishFrameAllocator roomyMachine.frames))
    ⟨rfl, rfl⟩).snoc (.finish true .unit) trivial
  have published := (frames.snoc (.begin true (.publishVmm ⟨0x1000⟩)) rfl).snoc
    (.finish true .unit) trivial
  have requested := (published.snoc (.begin false (.alloc smallRequest))
    smallRequest_within.servable).snoc (.begin true (.alloc smallRequest))
      smallRequest_within.servable
  have lawful := requested.snoc (.finish true (.pointer heapRegionStart)) trivial
  obtain ⟨-, progress, -, blocks, -⟩ := concurrent_heap_safe owned_roomyMachine execution lawful
  exact ⟨threads, _, execution, lawful, rfl, progress ⟨false, busy⟩, blocks⟩

/-- The calls above and the block of the self-test. -/
inductive BootCall where
  | heap (call : KernelCall)
  | mapReadOnlyPage

/-- The program of a call. -/
def BootCall.program (active : VirtualMemoryManager) : BootCall → Call
  | .heap call => call.program active
  | .mapReadOnlyPage => KernelCalls.mapReadOnlyPage

/-- **No deadlock.** Among allocations, frees, publications and the self-test's mapping,
in any interleaving from any contents of the statics: unless a thread has panicked, some
running thread can take a step by which it gets further. -/
theorem kernel_locks_progress {active : VirtualMemoryManager} {globals : Globals}
    {trace : List (Event Thread BootCall Answer)}
    {threads : Statics.Threads Thread Protected Answer}
    (execution : Execution (Statics.Step (BootCall.program active)) (.initial globals) trace threads)
    (alive : ∀ thread, ¬ Halted threads.config thread) (thread : Thread)
    (busy : threads.running thread ≠ none) :
    Statics.CanStep (BootCall.program active) threads := by
  have offered (call : BootCall) : (call.program active).Ordered rank ∅ := by
    cases call with
    | heap call => exact program_ordered active call
    | mapReadOnlyPage => exact mapReadOnlyPage_ordered
  obtain ⟨ordered, exclusive⟩ := execution_disciplined (ordered_discipline rank) offered
    (Statics.execution_refines execution)
  obtain ⟨activity, here⟩ := Option.ne_none_iff_exists'.1 busy
  exact Statics.canStep_of_canAdvance (not_stuck_of_ordered rank_lt ordered exclusive alive here)

/-- The self-test and an allocation have both taken their first lock. -/
theorem kernel_locks_progress_pair :
    ∃ threads : Statics.Threads Bool Protected Answer,
      Execution (Statics.Step (BootCall.program ⟨0x1000⟩))
        (.initial (declared emptyMachine.memory))
        [.begin false .mapReadOnlyPage, .begin true (.heap (.alloc smallRequest))]
        threads ∧
      Statics.CanStep (BootCall.program ⟨0x1000⟩) threads := by
  let idle : Statics.Threads Bool Protected Answer := .initial (declared emptyMachine.memory)
  have start : Execution (Statics.Step (BootCall.program ⟨0x1000⟩)) idle [] idle := .nil
  have begun := (start.snoc _ (Statics.Step.begin false .mapReadOnlyPage rfl)).snoc _
    (Statics.Step.begin true (.heap (.alloc smallRequest)) rfl)
  have taken := (begun.snoc _ (Statics.Step.round true rfl false)).snoc _
    (Statics.Step.round false rfl false)
  refine ⟨_, taken, kernel_locks_progress taken ?_ true ?_⟩
  · rintro thread ⟨guards, stopped⟩
    cases thread <;> cases stopped
  · rintro ⟨⟩

end Results

end XyronOS.KernelCalls
