import XyronOS.Arch.Serial
import XyronOS.Mm.HeapGrowth

/-!
# The boot self-tests of the memory manager

Before the kernel hands its frame allocator and its virtual memory manager to the
heap, it tries them out on the machine it finds itself on. The first test allocates
sixteen frames, compares them, and gives them back. The second one looks up its own
code, maps a page of the heap region, writes to it and reads back, inspects it, maps
it once more in vain, and takes it away again.

Each test comes with the text it prints. What a maintainer needs to know is when a
test passes, and that a test which passes leaves no trace: the first one returns
every frame; the second one leaves every translation as it was, and keeps exactly
the tables that were missing on the way to its page.
-/

namespace XyronOS

open ByteMemory WordBits PageTableEntry VirtAddr RadixTree VirtualMemoryManager Serial

namespace SelfTests

/-- The result of a test, what it leaves behind, and what it prints. -/
structure Tested (State : Type) where
  passed : Bool
  state : State
  output : List (BitVec 8)

/-! ### The frame allocator -/

def testCount : Nat := 16

/-- Fill slots with allocated frames; nothing if a frame is refused. -/
def fillSlots : Nat → FrameAllocator → Option (List Nat) × FrameAllocator
  | 0, allocator => (some [], allocator)
  | slots + 1, allocator =>
      match allocator.allocate with
      | (none, after) => (none, after)
      | (some address, after) =>
          match fillSlots slots after with
          | (none, last) => (none, last)
          | (some rest, last) => (some (address :: rest), last)

/-- Two slots hold the same address. -/
def repeated : List Nat → Bool
  | [] => false
  | address :: rest => rest.contains address || repeated rest

/-- Free the slots one after the other, up to the first refusal. -/
def freeSlots : List Nat → FrameAllocator → Bool × FrameAllocator
  | [], allocator => (true, allocator)
  | address :: rest, allocator =>
      match allocator.deallocate address with
      | (.error _, after) => (false, after)
      | (.ok _, after) => freeSlots rest after

/-- `run_frame_allocator_boot_self_test` -/
def runFrameAllocatorBootSelfTest (allocator : FrameAllocator) : Tested FrameAllocator :=
  let output := bytes "\r\nRunning frame allocator boot self-test...\r\n"
  let freeBefore := allocator.framesFree
  if freeBefore = 0 then
    ⟨false, allocator, output ++
      bytes "  FAIL: zero free frames reported — memory map parsing likely broken.\r\n"⟩
  else
    let output := output ++ bytes "  [OK] Free frames after init: 0x" ++ hex64 freeBefore ++
      bytes "\r\n"
    match fillSlots testCount allocator with
    | (none, after) =>
        ⟨false, after, output ++
          bytes "  FAIL: allocate() returned None unexpectedly early.\r\n"⟩
    | (some allocated, after) =>
      if repeated allocated then
        ⟨false, after, output ++
          bytes "  FAIL: allocate() returned the same frame twice.\r\n"⟩
      else
        let output := output ++ bytes "  [OK] 16 allocations, all frames distinct.\r\n"
        if after.framesFree ≠ freeBefore - testCount then
          ⟨false, after, output ++
            bytes "  FAIL: frames_free() bookkeeping incorrect after allocation.\r\n"⟩
        else
          let output := output ++
            bytes "  [OK] frames_free() bookkeeping correct after allocation.\r\n"
          match freeSlots allocated after with
          | (false, last) =>
              ⟨false, last, output ++
                bytes "  FAIL: deallocate() rejected a frame this test just allocated.\r\n"⟩
          | (true, last) =>
            if last.framesFree ≠ freeBefore then
              ⟨false, last, output ++ bytes ("  FAIL: frames_free() did not return to its " ++
                "pre-test value after freeing everything.\r\n")⟩
            else
              ⟨true, last, output ++ bytes ("  [OK] All 16 frames freed; frames_free() " ++
                "returned to its original value.\r\n") ++
                bytes "Frame allocator boot self-test: ALL CHECKS PASSED.\r\n"⟩

/-- What filling slots leaves: distinct frames that were free are used now. -/
structure Filled (before : FrameAllocator) (frames : List Nat) (after : FrameAllocator) : Prop where
  distinct : frames.Nodup
  free : ∀ frame ∈ frames, frame ∈ before.freeFrames
  left : after.freeFrames = before.freeFrames \ frames.toFinset
  total : after.totalFrames = before.totalFrames
  consistent : after.Consistent

/-- Slots are filled exactly if there are as many free frames. -/
theorem fillSlots_cases {allocator : FrameAllocator} (consistent : allocator.Consistent)
    (slots : Nat) :
    (slots ≤ allocator.freeFrames.card ∧ ∃ frames after, frames.length = slots ∧
      fillSlots slots allocator = (some (frames.map PhysAddr.fromFrameNumber), after) ∧
      Filled allocator frames after) ∨
    (allocator.freeFrames.card < slots ∧ ∃ after, fillSlots slots allocator = (none, after)) := by
  induction slots generalizing allocator with
  | zero =>
    exact Or.inl ⟨Nat.zero_le _, [], allocator, rfl, rfl, List.nodup_nil, by simp, by simp, rfl,
      consistent⟩
  | succ slots inductionHypothesis =>
    obtain ⟨frame, next, allocated, -, takes⟩ | ⟨refused, -, empty⟩ :=
      FrameAllocator.allocate_cases consistent
    · have card : next.freeFrames.card + 1 = allocator.freeFrames.card := by
        rw [takes.freeFrames, Finset.card_erase_add_one takes.free]
      obtain ⟨enough, frames, after, length, filled, result⟩ | ⟨short, after, filled⟩ :=
        inductionHypothesis takes.consistent
      · refine Or.inl ⟨by omega, frame :: frames, after, by simp [length], ?_, ?_⟩
        · simp only [fillSlots, allocated, filled, List.map_cons]
        · have absent : frame ∉ frames := by
            intro member
            have free := result.free frame member
            rw [takes.freeFrames] at free
            exact Finset.notMem_erase _ _ free
          refine ⟨List.nodup_cons.2 ⟨absent, result.distinct⟩, ?_, ?_,
            result.total.trans takes.totalFrames, result.consistent⟩
          · intro other member
            obtain rfl | member := List.mem_cons.1 member
            · exact takes.free
            · have free := result.free other member
              rw [takes.freeFrames] at free
              exact Finset.mem_of_mem_erase free
          · rw [result.left, takes.freeFrames, List.toFinset_cons, Finset.erase_sdiff_comm,
              Finset.sdiff_insert]
      · refine Or.inr ⟨by omega, after, ?_⟩
        simp only [fillSlots, allocated, filled]
    · refine Or.inr ⟨by simp [empty], allocator, ?_⟩
      simp only [fillSlots, refused]

/-- Distinct frames have distinct addresses. -/
theorem repeated_map {frames : List Nat} (distinct : frames.Nodup) :
    repeated (frames.map PhysAddr.fromFrameNumber) = false := by
  induction frames with
  | nil => rfl
  | cons frame rest inductionHypothesis =>
    obtain ⟨absent, others⟩ := List.nodup_cons.1 distinct
    have away : PhysAddr.fromFrameNumber frame ∉ rest.map PhysAddr.fromFrameNumber := by
      intro member
      obtain ⟨other, inside, same⟩ := List.mem_map.1 member
      have equal : other = frame := by
        unfold PhysAddr.fromFrameNumber frameSize at same
        omega
      exact absent (equal ▸ inside)
    simp [repeated, away, inductionHypothesis others]

/-- Frames in use are all freed. -/
theorem freeSlots_used {allocator : FrameAllocator} (consistent : allocator.Consistent)
    {frames : List Nat} (distinct : frames.Nodup)
    (used : ∀ frame ∈ frames, frame ∈ allocator.usedFrames) :
    ∃ after, freeSlots (frames.map PhysAddr.fromFrameNumber) allocator = (true, after) ∧
      after.freeFrames = allocator.freeFrames ∪ frames.toFinset ∧
      after.totalFrames = allocator.totalFrames ∧ after.Consistent := by
  induction frames generalizing allocator with
  | nil => exact ⟨allocator, rfl, by simp, rfl, consistent⟩
  | cons frame rest inductionHypothesis =>
    obtain ⟨absent, others⟩ := List.nodup_cons.1 distinct
    obtain ⟨next, freed, releases⟩ :=
      FrameAllocator.deallocate_used consistent (used frame (List.mem_cons_self ..))
    have still : ∀ other ∈ rest, other ∈ next.usedFrames := by
      intro other member
      rw [releases.usedFrames, Finset.mem_erase]
      exact ⟨fun same => absent (same ▸ member), used other (List.mem_cons_of_mem _ member)⟩
    obtain ⟨after, result, free, total, kept⟩ :=
      inductionHypothesis releases.consistent others still
    refine ⟨after, ?_, ?_, total.trans releases.totalFrames, kept⟩
    · simp only [List.map_cons, freeSlots, freed, result]
    · rw [free, releases.freeFrames, List.toFinset_cons, Finset.insert_union, Finset.union_insert]

/-- The same frames are free, and the allocator is consistent. -/
structure Restored (before after : FrameAllocator) : Prop where
  free : after.freeFrames = before.freeFrames
  total : after.totalFrames = before.totalFrames
  consistent : after.Consistent

/-- With sixteen free frames the test passes and restores the allocator; with fewer it
fails. -/
theorem frameSelfTest_cases {allocator : FrameAllocator} (consistent : allocator.Consistent) :
    (testCount ≤ allocator.freeFrames.card ∧
      (runFrameAllocatorBootSelfTest allocator).passed = true ∧
      Restored allocator (runFrameAllocatorBootSelfTest allocator).state) ∨
    (allocator.freeFrames.card < testCount ∧
      (runFrameAllocatorBootSelfTest allocator).passed = false) := by
  obtain ⟨enough, frames, after, length, filled, result⟩ | ⟨short, after, filled⟩ :=
    fillSlots_cases consistent testCount
  · refine Or.inl ⟨enough, ?_⟩
    have some_ : allocator.framesFree ≠ 0 := by
      rw [consistent.counted]
      unfold testCount at enough
      omega
    have subset : frames.toFinset ⊆ allocator.freeFrames := fun frame member =>
      result.free frame (List.mem_toFinset.1 member)
    have counted : after.framesFree = allocator.framesFree - testCount := by
      rw [result.consistent.counted, result.left, Finset.card_sdiff_of_subset subset,
        List.toFinset_card_of_nodup result.distinct, length, consistent.counted]
    have used : ∀ frame ∈ frames, frame ∈ after.usedFrames := by
      intro frame member
      have free := result.free frame member
      rw [FrameAllocator.usedFrames_eq, Finset.mem_sdiff, result.left, result.total]
      refine ⟨Finset.mem_range.2 ((FrameAllocator.mem_freeFrames _ _).1 free).1, ?_⟩
      simp [member]
    obtain ⟨last, freed, free, total, kept⟩ :=
      freeSlots_used result.consistent result.distinct used
    have restored : last.freeFrames = allocator.freeFrames := by
      rw [free, result.left, Finset.sdiff_union_of_subset subset]
    have recounted : last.framesFree = allocator.framesFree := by
      rw [kept.counted, restored, consistent.counted]
    have outcome : (runFrameAllocatorBootSelfTest allocator).passed = true ∧
        (runFrameAllocatorBootSelfTest allocator).state = last := by
      simp only [runFrameAllocatorBootSelfTest, some_, if_false, filled,
        repeated_map result.distinct, Bool.false_eq_true, counted, ne_eq, not_true_eq_false, freed,
        recounted, and_self]
    exact ⟨outcome.1, outcome.2 ▸ ⟨restored, total.trans result.total, kept⟩⟩
  · refine Or.inr ⟨short, ?_⟩
    simp only [runFrameAllocatorBootSelfTest, filled]
    split <;> rfl

/-- **The frame allocator's self-test.** On any consistent allocator the test passes
exactly if sixteen frames are free, and a test that passes leaves the same frames
free. -/
theorem frame_self_test_passes_iff {allocator : FrameAllocator}
    (consistent : allocator.Consistent) :
    ((runFrameAllocatorBootSelfTest allocator).passed = true ↔
      testCount ≤ allocator.freeFrames.card) ∧
    ((runFrameAllocatorBootSelfTest allocator).passed = true →
      Restored allocator (runFrameAllocatorBootSelfTest allocator).state) := by
  obtain ⟨enough, passed, restored⟩ | ⟨short, failed⟩ := frameSelfTest_cases consistent
  · exact ⟨⟨fun _ => enough, fun _ => passed⟩, fun _ => restored⟩
  · rw [failed]
    constructor
    · constructor
      · intro impossible
        cases impossible
      · intro enough
        omega
    · intro impossible
      cases impossible

/-- Sixteen free frames are just enough. -/
theorem frame_self_test_sixteen :
    Restored ⟨[0#8, 0#8], 16, 16, 0⟩
      (runFrameAllocatorBootSelfTest ⟨[0#8, 0#8], 16, 16, 0⟩).state := by
  obtain ⟨passes, restores⟩ := @frame_self_test_passes_iff ⟨[0#8, 0#8], 16, 16, 0⟩
    ⟨by decide, by decide, by decide⟩
  exact restores (passes.mpr (by decide))

/-! ### The virtual memory manager -/

def testVaddr : Nat := 0xFFFF880000000000
def testPattern : Nat := 0xDEADBEEFCAFEBABE

/-- A volatile write through the tables; nothing if the processor would fault. -/
def writeVolatile (vmm : VirtualMemoryManager) (memory : Memory) (virt value : Nat) :
    Option Memory :=
  (vmm.translate memory virt).map fun phys => store64 memory phys value

/-- A failed check. -/
def failed (machine : Machine) (output : List (BitVec 8)) (message : String) : Tested Machine :=
  ⟨false, machine, output ++ bytes message⟩

section Trial

variable {vmm : VirtualMemoryManager} {machine : Machine}

/-- During the trial: the test frame is taken and mapped at the test page, which had no
mapping; every other lookup is that of the start. -/
structure OnTrial (vmm : VirtualMemoryManager) (origin machine : Machine) (frame : Nat)
    (added : Finset Nat) : Prop where
  held : Held vmm machine [frame]
  spent : Spent vmm origin machine [frame] added
  unmapped : lookup origin.memory vmm.pml4Phys testVaddr = none
  lookups : ∀ other, lookup machine.memory vmm.pml4Phys other =
    if pageNumber other = pageNumber testVaddr then some (heapLeaf frame)
    else lookup origin.memory vmm.pml4Phys other

/-- The trial is over: the frame is free again, every lookup is that of the start, and
the tables added are all that was spent. -/
structure Over (vmm : VirtualMemoryManager) (origin machine : Machine) (added : Finset Nat) :
    Prop where
  owned : Owned vmm machine
  spent : Spent vmm origin machine [] added
  lookups : ∀ other, lookup machine.memory vmm.pml4Phys other =
    lookup origin.memory vmm.pml4Phys other

namespace OnTrial

variable {origin : Machine} {frame : Nat} {added : Finset Nat}
  (trial : OnTrial vmm origin machine frame added)

include trial

theorem page : lookup machine.memory vmm.pml4Phys testVaddr = some (heapLeaf frame) := by
  rw [trial.lookups, if_pos rfl]

theorem bounded : PhysAddr.fromFrameNumber frame < 2 ^ 52 := by
  have used := trial.held.used frame (List.mem_singleton_self _)
  exact trial.held.owned.consistent.address_lt
    ((FrameAllocator.mem_usedFrames _ _).1 used).1

/-- An update of the tables that keeps the lookups and adds nothing keeps the trial. -/
theorem update {after : Machine} (updated : Updates vmm machine after ∅)
    (looked : ∀ other, lookup after.memory vmm.pml4Phys other =
      lookup machine.memory vmm.pml4Phys other) : OnTrial vmm origin after frame added where
  held := trial.held.update updated
  spent := by simpa using trial.spent.update updated
  unmapped := trial.unmapped
  lookups other := (looked other).trans (trial.lookups other)

end OnTrial

/-- What a failed test leaves: every lookup as it was, at most one frame lost, and
perhaps new tables. -/
structure GivenUp (vmm : VirtualMemoryManager) (origin machine : Machine) : Prop where
  owned : Owned vmm machine
  spent : ∃ lost added, lost.length ≤ 1 ∧ Spent vmm origin machine lost added
  lookups : ∀ other, lookup machine.memory vmm.pml4Phys other =
    lookup origin.memory vmm.pml4Phys other

theorem GivenUp.refl (owned : Owned vmm machine) : GivenUp vmm machine machine :=
  ⟨owned, ⟨[], ∅, Nat.zero_le _, Spent.refl vmm machine⟩, fun _ => rfl⟩

/-- What a test that passes leaves: every lookup as it was, no frame lost, and exactly
the tables that were missing; the pattern is still in the frame. -/
def Passed (vmm : VirtualMemoryManager) (origin machine : Machine) (frame : Nat) : Prop :=
  ∃ added : Finset Nat, added.card = missingTables origin.memory vmm.pml4Phys testVaddr ∧
    Over vmm ⟨store64 origin.memory (PhysAddr.fromFrameNumber frame) testPattern, origin.frames⟩
      machine added ∧
    ∀ other, lookup machine.memory vmm.pml4Phys other =
      lookup origin.memory vmm.pml4Phys other

end Trial

end SelfTests

end XyronOS
