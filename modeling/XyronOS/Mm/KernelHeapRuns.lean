import XyronOS.Library.Runs
import XyronOS.Mm.GrowthSuffices

/-!
# Runs of the kernel heap

The heap as the kernel uses it: blocks are allocated and freed, and their holders
write bytes into them. A run starts with an empty heap on tables that are owned. Any
growth of the run may fail at any page, for want of a frame or of a table.

Every reached state is safe, which is what the first result spells out. The second is
that one growth is enough for any request it is made for. The third is about a growth
that fails: what it leaves behind, compared with the state before it, depends on whether
its first page could be backed.
-/

namespace XyronOS

open ByteMemory WordBits VirtAddr Regions LinkedListAllocator KernelHeap Runs

/-- The heap and the blocks its callers hold. -/
structure HeapRuntime where
  heap : KernelHeap
  live : List Block

/-- A call of the heap, or a byte written into a held block. -/
inductive HeapCall where
  | alloc (layout : Layout)
  | dealloc (block : Block)
  | write (address : Nat) (byte : BitVec 8)

namespace HeapRuntime

/-- An empty heap on a machine whose globals are set. -/
def new (vmm : VirtualMemoryManager) (machine : Machine) : HeapRuntime :=
  ⟨KernelHeap.new vmm machine, []⟩

/-- Hold a returned block unless its pointer is null. -/
def afterAlloc (runtime : HeapRuntime) (layout : Layout) :
    Except HeapPanic (Nat × KernelHeap) → HeapRuntime
  | .error _ => runtime
  | .ok (ptr, heap) => ⟨heap, if ptr = 0 then runtime.live else ⟨ptr, layout⟩ :: runtime.live⟩

/-- Forget a block that was freed. -/
def afterDealloc (runtime : HeapRuntime) (block : Block) : Except HeapPanic KernelHeap → HeapRuntime
  | .error _ => runtime
  | .ok heap => ⟨heap, runtime.live.erase block⟩

/-- Serve one call; a call that panics changes nothing. -/
def serve (runtime : HeapRuntime) : HeapCall → HeapRuntime
  | .alloc layout => runtime.afterAlloc layout (runtime.heap.alloc layout)
  | .dealloc block => runtime.afterDealloc block (runtime.heap.dealloc block.ptr block.layout)
  | .write address byte =>
      { runtime with heap := { runtime.heap with machine := { runtime.heap.machine with
          memory := storeThrough runtime.heap.vmm runtime.heap.machine.memory address 1
            byte.toNat } } }

/-- Layouts are servable, and callers free and write only what they hold. -/
def Permitted (runtime : HeapRuntime) : HeapCall → Prop
  | .alloc layout => layout.Servable
  | .dealloc block => block ∈ runtime.live
  | .write address _ => ∃ block ∈ runtime.live, address ∈ block.region.bytes

/-- The heap is safe with books that list the held blocks. -/
def Sound (vmm : VirtualMemoryManager) (runtime : HeapRuntime) : Prop :=
  runtime.heap.vmm = vmm ∧
    ∃ ledger backing, Safe runtime.heap ledger backing ∧ ledger.live = runtime.live

/-- Every permitted call leads to a sound state. -/
theorem sound_serve {vmm : VirtualMemoryManager} {runtime : HeapRuntime}
    (sound : Sound vmm runtime) {call : HeapCall} (permitted : runtime.Permitted call) :
    Sound vmm (runtime.serve call) := by
  obtain ⟨manager, ledger, backing, safe, live⟩ := sound
  cases call with
  | alloc layout =>
    obtain ⟨ptr, after, books, pages, result, kept, still, held⟩ := safe.alloc_ok permitted
    rw [serve, result, afterAlloc]
    refine ⟨kept.trans manager, books, pages, still, ?_⟩
    rw [held, live]
  | dealloc block =>
    have held : block ∈ ledger.live := by
      rw [live]
      exact permitted
    obtain ⟨after, result, kept, still⟩ := safe.dealloc_ok held
    rw [serve, result, afterDealloc]
    refine ⟨kept.trans manager, _, backing, still, ?_⟩
    simp only [Ledger.step, live]
  | write address byte =>
    obtain ⟨block, held, inside⟩ := permitted
    exact ⟨manager, ledger, backing, safe.write_ok (live ▸ held) inside byte.toNat, live⟩

/-- Every run from an empty heap ends in a sound state. -/
theorem sound_run {vmm : VirtualMemoryManager} {machine : Machine} (owned : Owned vmm machine)
    {calls : List HeapCall} {final : HeapRuntime}
    (run : Run Permitted serve (new vmm machine) calls final) : Sound vmm final :=
  run.invariant (Sound vmm) (fun _ _ sound permitted => sound_serve sound permitted)
    ⟨rfl, emptyLedger, [], safe_new owned, rfl⟩

/-- A part of the books that is not empty lies between the bounds of the mapped
range. -/
theorem part_bounds {heap : KernelHeap} {ledger : Ledger} {backing : List Nat}
    (safe : Safe heap ledger backing) {region : Region} (member : region ∈ ledger.parts)
    (positive : 0 < region.size) :
    heapRegionStart ≤ region.start ∧ region.stop ≤ heap.nextUnmapped := by
  have inside := safe.parts_within member
  have first : region.start ∈ heapRange backing.length := inside ⟨Nat.le_refl _, by
    unfold Region.stop
    omega⟩
  have last : region.stop - 1 ∈ heapRange backing.length := inside ⟨by
    unfold Region.stop
    omega, by
    unfold Region.stop
    omega⟩
  rw [safe.cursor]
  refine ⟨first.1, ?_⟩
  have upper : region.stop - 1 < heapPage backing.length := last.2
  omega

/-- **Kernel-heap safety.** After every run from an empty heap on owned tables, with
growths failing at any page: the cursor is page-aligned and inside the heap region;
every held block and every free block lies between the start of the region and the
cursor; and every address of that range translates into a frame of its page, is
writable, and no frame backs two pages, is a page table or is free. No permitted call
panics. -/
theorem kernel_heap_safety {vmm : VirtualMemoryManager} {machine : Machine}
    (owned : Owned vmm machine) {calls : List HeapCall} {final : HeapRuntime}
    (run : Run Permitted serve (new vmm machine) calls final) :
    (final.heap.nextUnmapped % frameSize = 0 ∧ heapRegionStart ≤ final.heap.nextUnmapped ∧
      final.heap.nextUnmapped ≤ heapRegionEnd) ∧
    (∀ block ∈ final.live, heapRegionStart ≤ block.ptr ∧
      block.region.stop ≤ final.heap.nextUnmapped) ∧
    (∀ node ∈ final.heap.allocator.nodes, heapRegionStart ≤ node.start ∧
      node.stop ≤ final.heap.nextUnmapped) ∧
    (∃ frame : Nat → Nat,
      (∀ virt, heapRegionStart ≤ virt → virt < final.heap.nextUnmapped →
        vmm.translate final.heap.machine.memory virt =
          some (PhysAddr.fromFrameNumber (frame (virt / frameSize)) + virt % frameSize) ∧
        vmm.flagsAt final.heap.machine.memory virt = some .readWrite ∧
        frame (virt / frameSize) ∈ final.heap.machine.frames.usedFrames ∧
        frame (virt / frameSize) ∉ final.heap.machine.frames.freeFrames ∧
        PhysAddr.fromFrameNumber (frame (virt / frameSize)) ∉
          tables final.heap.machine.memory vmm.pml4Phys) ∧
      ∀ left right, heapRegionStart ≤ left → left < final.heap.nextUnmapped →
        heapRegionStart ≤ right → right < final.heap.nextUnmapped →
        frame (left / frameSize) = frame (right / frameSize) →
        left / frameSize = right / frameSize) ∧
    (∀ layout, final.Permitted (.alloc layout) →
      ∃ result, final.heap.alloc layout = .ok result) ∧
    ∀ block, final.Permitted (.dealloc block) →
      ∃ heap, final.heap.dealloc block.ptr block.layout = .ok heap := by
  obtain ⟨manager, ledger, backing, safe, live⟩ := sound_run owned run
  have backed : Backed vmm final.heap.machine backing := manager ▸ safe.backed
  have nodes : final.heap.allocator.nodes = ledger.nodes := safe.represents.nodes_eq
  have room := safe.backed.room
  rw [← safe.cursor] at room
  refine ⟨⟨?_, ?_, room⟩, ?_, ?_, ?_, ?_, ?_⟩
  · rw [safe.cursor]
    exact heapPage_aligned _
  · rw [safe.cursor]
    exact Nat.le_add_right _ _
  · intro block held
    have known : block ∈ ledger.live := live ▸ held
    have long := (safe.balanced.served block known).holdable.size
    exact part_bounds safe (List.mem_append_right _ (List.mem_append_left _
      (List.mem_map_of_mem known))) (Nat.lt_of_lt_of_le (by decide) long)
  · intro node free
    rw [nodes] at free
    exact part_bounds safe (List.mem_append_left _ free) (safe.represents.positive node free)
  · rw [safe.cursor]
    exact backed.frames
  · intro layout permitted
    obtain ⟨ptr, after, _, _, result, _⟩ := safe.alloc_ok permitted
    exact ⟨(ptr, after), result⟩
  · intro block permitted
    have held : block ∈ ledger.live := by
      rw [live]
      exact permitted
    obtain ⟨after, result, _⟩ := safe.dealloc_ok held
    exact ⟨after, result⟩

/-- A heap with frames enough grows at its first request. The held block, the free rest of
the pages and the frame behind the block are where they should be. -/
theorem kernel_heap_safety_roomy :
    ∃ heap phys, Run Permitted serve (new ⟨0x1000⟩ roomyMachine) [.alloc smallRequest]
        ⟨heap, [⟨heapRegionStart, smallRequest⟩]⟩ ∧
      heap.allocator.nodes = [⟨heapRegionStart + 24, 0x10000 - 24⟩] ∧
      heapRegionStart + 0x10000 ≤ heap.nextUnmapped ∧ heap.nextUnmapped ≤ heapRegionEnd ∧
      (⟨0x1000⟩ : VirtualMemoryManager).translate heap.machine.memory heapRegionStart = some phys ∧
      (⟨0x1000⟩ : VirtualMemoryManager).flagsAt heap.machine.memory heapRegionStart =
        some .readWrite := by
  obtain ⟨heap, served, nodes⟩ := roomy_alloc
  have run : Run Permitted serve (new ⟨0x1000⟩ roomyMachine) [.alloc smallRequest]
      ⟨heap, [⟨heapRegionStart, smallRequest⟩]⟩ := by
    have step : (new ⟨0x1000⟩ roomyMachine).serve (.alloc smallRequest) =
        ⟨heap, [⟨heapRegionStart, smallRequest⟩]⟩ := by
      have nonzero : heapRegionStart ≠ 0 := by decide
      rw [serve, new, served, afterAlloc, if_neg nonzero]
    exact step ▸ .cons smallRequest_within.servable (.nil _)
  obtain ⟨⟨-, -, upper⟩, -, free, ⟨frame, backed, -⟩, -⟩ :=
    kernel_heap_safety owned_roomyMachine run
  have node := (free ⟨heapRegionStart + 24, 0x10000 - 24⟩ (by simp [nodes])).2
  have grown : heapRegionStart + 0x10000 ≤ heap.nextUnmapped := by
    unfold Region.stop at node
    simp only at node
    omega
  obtain ⟨translated, flags, -⟩ := backed heapRegionStart (Nat.le_refl _) (by
    simp only
    omega)
  exact ⟨heap, _, run, nodes, grown, upper, translated, flags⟩

/-- One growth is enough: in every reached state, if the free list cannot serve a
request aligned within a page and the growth for it succeeds, the retry returns a
block, and with it the whole call. The sizes and addresses of the growth do not
overflow. -/
theorem one_growth_enough {vmm : VirtualMemoryManager} {machine : Machine}
    (owned : Owned vmm machine) {calls : List HeapCall} {final : HeapRuntime}
    (run : Run Permitted serve (new vmm machine) calls final) {layout : Layout}
    (within : layout.WithinPage) :
    (pagesToMap layout * frameSize < 2 ^ 64 ∧
      growthBytes layout = pagesToMap layout * frameSize ∧
      ∀ growthStop, final.heap.growthEnd layout = some growthStop →
        growthStop = final.heap.nextUnmapped + growthBytes layout ∧
        ∀ page < pagesToMap layout, final.heap.nextUnmapped + page * frameSize < 2 ^ 64) ∧
    ∀ list grown, final.heap.allocator.alloc layout = .ok (0, list) →
      (final.heap.store list).grow layout = .ok (true, grown) →
      ∃ ptr retried, grown.allocator.alloc layout = .ok (ptr, retried) ∧ ptr ≠ 0 ∧
        final.heap.alloc layout = .ok (ptr, grown.store retried) := by
  obtain ⟨_, ledger, backing, safe, _⟩ := sound_run owned run
  refine ⟨safe.growth_bounds layout, ?_⟩
  intro list grown refused grows
  obtain ⟨ptr, retried, _, second, nonzero, served, _⟩ := safe.retry_ok within refused grows
  exact ⟨ptr, retried, second, nonzero, served⟩

/-- The first request of an empty heap grows it and is served by the retry. -/
theorem one_growth_enough_first :
    ∃ ptr after, (new ⟨0x1000⟩ roomyMachine).heap.alloc smallRequest = .ok (ptr, after) ∧
      ptr ≠ 0 := by
  obtain ⟨grown, grows⟩ := roomy_grows
  obtain ⟨ptr, retried, _, nonzero, served⟩ :=
    (one_growth_enough owned_roomyMachine (.nil _) smallRequest_within).2 _ _ roomy_refused grows
  exact ⟨ptr, _, served, nonzero⟩

end HeapRuntime

/-- Tables of one machine that another does not have. -/
def newTables (vmm : VirtualMemoryManager) (before after : Machine) : Set Nat :=
  tables after.memory vmm.pml4Phys \ tables before.memory vmm.pml4Phys

/-- A growth was undone: the free list, the cursor and every translation are as
before; the free frames lack only the tables newly linked, and every other frame that
was free is free again. -/
structure KernelHeap.Undone (before after : KernelHeap) : Prop where
  nodes : after.allocator.nodes = before.allocator.nodes
  cursor : after.nextUnmapped = before.nextUnmapped
  translate : ∀ virt, after.vmm.translate after.machine.memory virt =
    before.vmm.translate before.machine.memory virt
  counted : after.machine.frames.framesFree =
    before.machine.frames.framesFree - (newTables before.vmm before.machine after.machine).ncard
  released : ∀ frame ∈ before.machine.frames.freeFrames, frame ∉ after.machine.frames.freeFrames →
    PhysAddr.fromFrameNumber frame ∈ newTables before.vmm before.machine after.machine

/-- A growth cannot get past its first page: it would leave the heap region, there is
no free frame, the page is mapped already, or the low frames left beside the one the
scan finds do not cover the tables missing on the page's walk. -/
def KernelHeap.StopsAtFirstPage (heap : KernelHeap) (layout : Layout) : Prop :=
  heapRegionEnd < heap.nextUnmapped + growthBytes layout ∨
  heap.machine.frames.framesFree = 0 ∨
  heap.vmm.translate heap.machine.memory heap.nextUnmapped ≠ none ∨
  ∃ frame, heap.machine.frames.scanFrom = some frame ∧
    ((heap.machine.frames.freeBelow identityMapLimit).erase frame).card <
      missingTables heap.machine.memory heap.vmm.pml4Phys heap.nextUnmapped

/-- The tables an account lists are the new ones. -/
theorem Spent.newTables_eq {vmm : VirtualMemoryManager} {origin machine : Machine}
    {fresh : List Nat} {added : Finset Nat} (owned : Owned vmm origin)
    (spent : Spent vmm origin machine fresh added) :
    newTables vmm origin machine = PhysAddr.fromFrameNumber '' added ∧
      (newTables vmm origin machine).ncard = added.card := by
  have new : newTables vmm origin machine = PhysAddr.fromFrameNumber '' added := by
    rw [newTables, spent.tables, Set.union_sdiff_left, sdiff_eq_left, Set.disjoint_left]
    rintro table ⟨frame, member, rfl⟩ old
    exact owned.free_not_table (spent.taken (Finset.mem_union_right _ member)) old
  refine ⟨new, ?_⟩
  rw [new, Set.ncard_image_of_injective _ (fun _ _ => PhysAddr.fromFrameNumber_injective),
    Set.ncard_coe_finset]

namespace KernelHeap.Safe

variable {heap : KernelHeap} {ledger : Ledger} {backing : List Nat}
  (safe : Safe heap ledger backing)

include safe

/-- Unwinding restores the free list and the translations whatever was taken; the
free frames lack the tables linked and the frames taken. -/
theorem unwound_account {machine : Machine} {fresh : List Nat} {added : Finset Nat}
    (unwound : Unwound heap.vmm heap.machine machine backing fresh added) :
    (heap.advance machine heap.nextUnmapped).allocator.nodes = heap.allocator.nodes ∧
    (∀ virt, heap.vmm.translate machine.memory virt =
      heap.vmm.translate heap.machine.memory virt) ∧
    heap.machine.frames.framesFree = machine.frames.framesFree + fresh.length +
      (newTables heap.vmm heap.machine machine).ncard := by
  refine ⟨?_, ?_, ?_⟩
  · exact (safe.unwound unwound).represents.nodes_eq.trans safe.represents.nodes_eq.symm
  · intro virt
    rw [unwound.backed.owned.translate_eq, safe.backed.owned.translate_eq, unwound.lookups]
  · rw [safe.backed.owned.consistent.counted, unwound.backed.owned.consistent.counted,
      (unwound.spent.newTables_eq safe.backed.owned).2]
    exact unwound.spent.count

/-- An unwound growth was undone exactly if it had taken no frame. -/
theorem undone_iff {machine : Machine} {fresh : List Nat} {added : Finset Nat}
    (unwound : Unwound heap.vmm heap.machine machine backing fresh added) :
    Undone heap (heap.advance machine heap.nextUnmapped) ↔ fresh.length = 0 := by
  obtain ⟨nodes, translate, count⟩ := safe.unwound_account unwound
  constructor
  · intro undone
    have counted : machine.frames.framesFree = heap.machine.frames.framesFree -
        (newTables heap.vmm heap.machine machine).ncard := undone.counted
    omega
  · intro nothing
    refine ⟨nodes, rfl, translate, ?_, ?_⟩
    · change machine.frames.framesFree = heap.machine.frames.framesFree -
        (newTables heap.vmm heap.machine machine).ncard
      omega
    · intro frame free gone
      change frame ∉ machine.frames.freeFrames at gone
      change _ ∈ newTables heap.vmm heap.machine machine
      rw [(unwound.spent.newTables_eq safe.backed.owned).1]
      rw [unwound.spent.free, List.length_eq_zero_iff.mp nothing] at gone
      refine ⟨frame, ?_, rfl⟩
      simpa [free] using gone

/-- A growth inside the region stops at its first page exactly if that page cannot
be backed. -/
theorem stops_iff {layout : Layout}
    (fits : heapPage (backing.length + pagesToMap layout) ≤ heapRegionEnd) :
    heap.StopsAtFirstPage layout ↔
      (growPage heap.vmm heap.machine (heapPage backing.length)).1 = false := by
  have owned := safe.backed.owned
  have inside : ¬ heapRegionEnd < heap.nextUnmapped + growthBytes layout := by
    rw [safe.cursor, growthBytes_eq, heapPage_add]
    exact Nat.not_lt.mpr fits
  have noFrame : heap.machine.frames.framesFree = 0 ↔ heap.machine.frames.scanFrom = none := by
    rw [owned.consistent.counted, Finset.card_eq_zero]
    rcases FrameAllocator.allocate_cases owned.consistent with
      ⟨frame, _, _, scanned, takes⟩ | ⟨_, scanned, empty⟩
    · have nonempty : heap.machine.frames.freeFrames ≠ ∅ := Finset.ne_empty_of_mem takes.free
      simp [scanned, nonempty]
    · simp [scanned, empty]
  have mapped : heap.vmm.translate heap.machine.memory heap.nextUnmapped ≠ none ↔
      lookup heap.machine.memory heap.vmm.pml4Phys heap.nextUnmapped ≠ none := by
    rw [owned.translate_eq, Ne, Option.map_eq_none_iff]
  rw [owned.growPage_false_iff (heapPage_aligned _), ← safe.cursor, StopsAtFirstPage, noFrame, mapped]
  simp only [inside, false_or]

/-- A failed growth was undone exactly if it stopped at its first page. -/
theorem failed_growth {layout : Layout} {after : KernelHeap}
    (failed : heap.grow layout = .ok (false, after)) :
    Undone heap after ↔ heap.StopsAtFirstPage layout := by
  generalize outcomeIs : heap.grow layout = outcome at failed
  have classified := outcomeIs ▸ safe.grow_outcome layout
  cases classified with
  | exhausted beyond =>
    obtain ⟨_, rfl⟩ := Prod.mk.inj (Except.ok.inj failed)
    have stops : heap.StopsAtFirstPage layout := by
      left
      rw [safe.cursor, growthBytes_eq, heapPage_add]
      exact beyond
    have none : newTables heap.vmm heap.machine heap.machine = ∅ := Set.sdiff_self
    have undone : Undone heap heap := by
      refine ⟨rfl, rfl, fun _ => rfl, ?_, fun frame free gone => absurd free gone⟩
      rw [none, Set.ncard_empty, Nat.sub_zero]
    exact ⟨fun _ => stops, fun _ => undone⟩
  | undone machine fresh added fits first unwound =>
    obtain ⟨_, rfl⟩ := Prod.mk.inj (Except.ok.inj failed)
    rw [safe.stops_iff fits, ← first]
    exact safe.undone_iff unwound
  | grown grown fresh manager still => cases failed

end KernelHeap.Safe

namespace HeapRuntime

/-- **What a failed growth leaves behind.** In every reached state and for every
layout, a growth that fails is undone exactly if it stops at its first page. A growth
that fails later loses the frames of the pages it had mapped, because unwinding drops
the frames that `unmap` returns. -/
theorem failed_growth_undone_iff {vmm : VirtualMemoryManager} {machine : Machine}
    (owned : Owned vmm machine) {calls : List HeapCall} {final : HeapRuntime}
    (run : Run Permitted serve (new vmm machine) calls final) (layout : Layout)
    {after : KernelHeap} (failed : final.heap.grow layout = .ok (false, after)) :
    Undone final.heap after ↔ final.heap.StopsAtFirstPage layout := by
  obtain ⟨_, ledger, backing, safe, _⟩ := sound_run owned run
  exact safe.failed_growth failed

/-- Cleared memory with five frames, all free but that of the root table. -/
def crampedMachine : Machine := ⟨fun _ => 0, ⟨[0x02#8], 5, 4, 0⟩⟩

theorem owned_crampedMachine : Owned ⟨0x1000⟩ crampedMachine := by
  apply owned_of_empty_root
  · intro index
    simp [readEntry, load64, load]
  · decide
  · decide
  · decide
  · exact ⟨by decide, by decide, by decide⟩

/-- With five frames the first growth maps one page, with its three tables, and then
fails. -/
theorem cramped_growth_fails :
    ∃ after, (new ⟨0x1000⟩ crampedMachine).heap.grow smallRequest = .ok (false, after) := by
  have flag : ((new ⟨0x1000⟩ crampedMachine).heap.grow smallRequest).toOption.map Prod.fst =
      some false := by
    decide +kernel
  generalize (new ⟨0x1000⟩ crampedMachine).heap.grow smallRequest = outcome at flag ⊢
  cases outcome with
  | error panic => cases flag
  | ok result =>
    obtain ⟨grown, after⟩ := result
    cases flag
    exact ⟨after, rfl⟩

/-- The result at a growth that fails at its second page. -/
theorem failed_growth_undone_iff_cramped :
    ∃ after, (new ⟨0x1000⟩ crampedMachine).heap.grow smallRequest = .ok (false, after) ∧
      (Undone (new ⟨0x1000⟩ crampedMachine).heap after ↔
        (new ⟨0x1000⟩ crampedMachine).heap.StopsAtFirstPage smallRequest) := by
  obtain ⟨after, failed⟩ := cramped_growth_fails
  exact ⟨after, failed,
    failed_growth_undone_iff owned_crampedMachine (.nil _) smallRequest failed⟩

/-- The frame of the page that was mapped is not free again. -/
theorem failed_growth_leaks :
    ∃ final after, Run Permitted serve (new ⟨0x1000⟩ crampedMachine) [] final ∧
      final.heap.grow smallRequest = .ok (false, after) ∧ ¬ Undone final.heap after := by
  obtain ⟨after, failed⟩ := cramped_growth_fails
  refine ⟨new ⟨0x1000⟩ crampedMachine, after, .nil _, failed, ?_⟩
  intro undone
  rcases ((safe_new owned_crampedMachine).failed_growth failed).mp undone with
    beyond | empty | mapped | ⟨frame, scanned, short⟩
  · exact absurd beyond (by decide)
  · exact absurd empty (by decide)
  · exact absurd mapped (by decide +kernel)
  · have first : crampedMachine.frames.scanFrom = some 0 := by decide
    have same : frame = 0 := Option.some.inj (scanned.symm.trans first)
    subst same
    exact absurd short (by decide +kernel)

end HeapRuntime

end XyronOS
