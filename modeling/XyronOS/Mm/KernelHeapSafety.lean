import XyronOS.Mm.HeapGrowth
import XyronOS.Mm.HeapLedger

/-!
# One call of the kernel heap

The safe states of the heap tie its layers together: the books of the free list
balance, the list is represented in the memory seen through the tables, everything
ever added to it lies in the mapped range, and that range is backed page by page.

Each step of a call leads from a safe state to a safe state. An operation of the
free list writes inside the mapped range only. A growth that fails is unwound and
leaves what the list sees alone; one that succeeds adds a region that is disjoint
from everything added before, because it begins where the mapped range ended.
-/

namespace XyronOS

open ByteMemory WordBits VirtAddr Regions FirstFit LinkedListAllocator

/-- A layout the heap serves: its alignment cannot wrap in the heap region, and it
can be padded. -/
structure Layout.Servable (layout : Layout) : Prop where
  align : layout.align ≤ 2 ^ 31
  padded : roundUp layout.size (max layout.align nodeAlign) ≤ isizeMax

/-- A servable layout is served with an alignment that cannot wrap. -/
theorem Layout.Servable.adjusted {layout : Layout} (servable : layout.Servable) :
    ∃ size align, adjustedSizeAlign layout = .ok (size, align) ∧ align ≤ 2 ^ 31 := by
  refine ⟨max (roundUp layout.size (max layout.align nodeAlign)) nodeSize,
    max layout.align nodeAlign, ?_, ?_⟩
  · simp only [adjustedSizeAlign]
    rw [if_neg (Nat.not_lt.mpr servable.padded)]
  · exact Nat.max_le.mpr ⟨servable.align, by decide⟩

namespace KernelHeap

/-- The layers of the heap agree. -/
structure Safe (heap : KernelHeap) (ledger : Ledger) (backing : List Nat) : Prop where
  populated : heap.populated = true
  cursor : heap.nextUnmapped = heapPage backing.length
  backed : Backed heap.vmm heap.machine backing
  represents : Represents heap.allocator ledger.nodes
  balanced : ledger.Balanced
  within : bytes ledger.added ⊆ heapRange backing.length

/-- The books of an empty heap. -/
def emptyLedger : Ledger := ⟨[], [], [], [], []⟩

/-- A new heap on owned tables is safe. -/
theorem safe_new {vmm : VirtualMemoryManager} {machine : Machine} (owned : Owned vmm machine) :
    Safe (new vmm machine) emptyLedger [] where
  populated := rfl
  cursor := rfl
  backed := ⟨⟨owned, List.nodup_nil, by simp, by simp⟩, by simp, by decide⟩
  represents := represents_new _
  balanced := ⟨⟨rfl, List.Pairwise.nil⟩, by simp [emptyLedger], by simp [emptyLedger]⟩
  within := by simp [emptyLedger]

/-- A growth for a layout does not wrap. -/
theorem growthBytes_eq (layout : Layout) : growthBytes layout = pagesToMap layout * frameSize := by
  obtain ⟨bits, _, power⟩ := layout.power
  have padded := le_roundUp layout.size layout.align (power ▸ Nat.two_pow_pos bits)
  have small : layout.size ≤ 2 ^ 63 - 1 := Nat.le_trans padded layout.valid
  apply Nat.mod_eq_of_lt
  simp only [pagesToMap, heapGrowthMinPages, frameSize]
  omega

/-- Whether a growth stays inside the region, and where it ends. -/
theorem growthEnd_cases {heap : KernelHeap} {base : Nat} (cursor : heap.nextUnmapped = heapPage base)
    (layout : Layout) :
    (heap.growthEnd layout = none ∧ heapRegionEnd < heapPage (base + pagesToMap layout)) ∨
    (heap.growthEnd layout = some (heapPage (base + pagesToMap layout)) ∧
      heapPage (base + pagesToMap layout) ≤ heapRegionEnd) := by
  have stop : heap.nextUnmapped + growthBytes layout = heapPage (base + pagesToMap layout) := by
    rw [cursor, growthBytes_eq, heapPage_add]
  rw [growthEnd, checkedAdd, stop]
  by_cases fits : heapPage (base + pagesToMap layout) ≤ heapRegionEnd
  · right
    have small : heapPage (base + pagesToMap layout) < 2 ^ 64 :=
      Nat.lt_of_le_of_lt fits (by decide)
    rw [if_pos small, Option.filter_some, if_pos (by simpa using fits)]
    exact ⟨rfl, fits⟩
  · left
    refine ⟨?_, Nat.not_le.mp fits⟩
    split
    · rw [Option.filter_some, if_neg (by simpa using fits)]
    · rfl

/-- The bytes of the backing frames are untouched by what a growth spends. -/
theorem spent_bytes {vmm : VirtualMemoryManager} {origin machine : Machine}
    {backing fresh : List Nat} {added : Finset Nat} (spent : Spent vmm origin machine fresh added)
    (held : Held vmm machine backing) :
    ∀ frame ∈ backing, ∀ byte ∈ frameBytes (PhysAddr.fromFrameNumber frame),
      machine.memory byte = origin.memory byte := by
  intro frame member byte inside
  apply spent.bytes
  intro table reached
  apply frameBytes_disjoint table _ (held.owned.aligned table reached) (Nat.mul_mod_left _ _) _
    byte inside
  rintro rfl
  exact held.apart frame member reached

namespace Safe

variable {heap : KernelHeap} {ledger : Ledger} {backing : List Nat}
  (safe : Safe heap ledger backing)

include safe

/-- Free blocks, held blocks and lost gaps lie in the mapped range. -/
theorem parts_within {region : Region} (member : region ∈ ledger.parts) :
    region.bytes ⊆ heapRange backing.length := by
  refine Set.Subset.trans (bytes_of_mem member) (Set.Subset.trans ?_ safe.within)
  rw [safe.balanced.partition.covers]

/-- The free bytes lie in the mapped range. -/
theorem nodes_within : bytes ledger.nodes ⊆ heapRange backing.length := by
  rintro byte ⟨node, free, inside⟩
  exact safe.parts_within (List.mem_append_left _ free) inside

/-- Rounding a free address up does not wrap. -/
theorem noWrap {align : Nat} (bounded : align ≤ 2 ^ 31) :
    ∀ node ∈ ledger.nodes, node.start + (align - 1) < 2 ^ 64 := by
  intro node free
  have positive := safe.represents.positive node free
  have first : node.start ∈ heapRange backing.length := by
    apply safe.parts_within (List.mem_append_left _ free)
    rw [Region.mem_bytes]
    omega
  have room := safe.backed.room
  have upper : node.start < heapPage backing.length := first.2
  simp only [heapRegionEnd] at room
  omega

/-- An operation of the free list that writes only bytes that are then free leads to
a safe state with its books. -/
theorem stored {list : LinkedListAllocator} {books : Ledger}
    (represents : Represents list books.nodes)
    (wrote : Wrote (bytes books.nodes) heap.allocator list) (balanced : books.Balanced)
    (added : books.added = ledger.added) : Safe (heap.store list) books backing := by
  have within : bytes books.added ⊆ heapRange backing.length := by
    rw [added]
    exact safe.within
  have listed : bytes books.nodes ⊆ heapRange backing.length := by
    refine Set.Subset.trans ?_ within
    rw [balanced.partition.covers, Ledger.parts, bytes_append]
    exact Set.subset_union_left
  obtain ⟨backed, seen⟩ := store_spec safe.backed wrote listed represents listed
  exact ⟨safe.populated, safe.cursor, backed, seen, balanced, within⟩

/-- One allocation from the free list. -/
theorem list_alloc {layout : Layout} (servable : layout.Servable) :
    ∃ ptr list, heap.allocator.alloc layout = .ok (ptr, list) ∧
      Safe (heap.store list) (ledger.step (.alloc layout)) backing ∧
      (ledger.step (.alloc layout)).live =
        if ptr = 0 then ledger.live else ⟨ptr, layout⟩ :: ledger.live := by
  obtain ⟨size, align, adjusted, bounded⟩ := servable.adjusted
  have admitted : ledger.Admits (.alloc layout) := by
    intro size' align' served
    rw [adjusted] at served
    cases served
    exact safe.noWrap bounded
  have balanced := safe.balanced.step safe.represents.toWellFormed admitted
  rcases alloc_spec safe.represents adjusted
      (fun node looked => safe.noWrap bounded node (tried_subset _ _ _ looked)) with
    ⟨none, refused⟩ | ⟨node, list, chosen, returned, represents, wrote⟩
  · have entry := Ledger.step_alloc_none adjusted none
    rw [entry] at balanced ⊢
    refine ⟨0, heap.allocator, refused, ?_, by rw [if_pos rfl]⟩
    exact safe.stored safe.represents (Wrote.refl _ _) balanced rfl
  · have entry := Ledger.step_alloc_some adjusted chosen
    rw [entry] at balanced ⊢
    obtain ⟨member, inside⟩ := Ledger.chosen_inside adjusted chosen
    refine ⟨(place size align node).start, list, returned,
      safe.stored represents wrote balanced rfl, ?_⟩
    have nonzero : (place size align node).start ≠ 0 :=
      (Block.served_place adjusted safe.represents.toWellFormed member inside).nonzero
    rw [if_neg nonzero]
    rfl

/-- Returning a held block to the free list. -/
theorem list_dealloc {block : Block} (held : block ∈ ledger.live) :
    ∃ list, heap.allocator.dealloc block.ptr block.layout = .ok list ∧
      Safe (heap.store list) (ledger.step (.dealloc block)) backing := by
  have served := safe.balanced.served block held
  obtain ⟨align, adjusted, _⟩ := served.adjusted
  obtain ⟨list, added, represents, wrote⟩ := addFreeRegion_spec safe.represents served.holdable
    (fun _ free => safe.balanced.live_apart held free)
  refine ⟨list, ?_, ?_⟩
  · rw [LinkedListAllocator.dealloc, adjusted]
    exact added
  · exact safe.stored represents wrote
      (safe.balanced.step safe.represents.toWellFormed held) rfl

/-- A heap backed by further pages sees the same free list. -/
theorem represents_grown {machine : Machine} {more fresh : List Nat} {added : Finset Nat}
    (backed : Backed heap.vmm machine (backing ++ more))
    (spent : Spent heap.vmm heap.machine machine fresh added) (cursor : Nat) :
    Represents (heap.advance machine cursor).allocator ledger.nodes := by
  have held : Held heap.vmm machine backing :=
    backed.toHeld.sublist (List.sublist_append_left _ _).subperm
  refine safe.represents.congr rfl ?_
  intro byte free
  exact safe.backed.view_congr backed (spent_bytes spent held) (safe.nodes_within free)

/-- A growth that was unwound leaves the heap safe. -/
theorem unwound {machine : Machine} {fresh : List Nat} {added : Finset Nat}
    (undone : Unwound heap.vmm heap.machine machine backing fresh added) :
    Safe { heap with machine := machine } ledger backing where
  populated := safe.populated
  cursor := safe.cursor
  backed := undone.backed
  represents := by
    have backed : Backed heap.vmm machine (backing ++ []) := by
      rw [List.append_nil]
      exact undone.backed
    exact safe.represents_grown backed undone.spent heap.nextUnmapped
  balanced := safe.balanced
  within := safe.within

/-- The region a growth adds can hold free blocks and is off everything added. -/
theorem growth_admitted {layout : Layout}
    (fits : heapPage (backing.length + pagesToMap layout) ≤ heapRegionEnd) :
    ledger.Admits (.add ⟨heapPage backing.length, growthBytes layout⟩) := by
  have bytesIs := growthBytes_eq layout
  have pages : heapGrowthMinPages ≤ pagesToMap layout := Nat.le_max_right _ _
  have stop : (Region.mk (heapPage backing.length) (growthBytes layout)).stop =
      heapPage (backing.length + pagesToMap layout) := by
    simp only [Region.stop, bytesIs, heapPage_add]
  refine ⟨⟨⟨?_, ?_⟩, ?_, ?_⟩, ?_⟩
  · simp only [heapPage, heapRegionStart, frameSize, nodeAlign]
    omega
  · simp only [heapPage, heapRegionStart]
    omega
  · rw [stop]
    exact Nat.lt_of_le_of_lt fits (by decide)
  · simp only [bytesIs, nodeSize, frameSize, heapGrowthMinPages] at pages ⊢
    omega
  · intro old known
    rw [Set.disjoint_right]
    intro byte inOld inNew
    have before : byte < heapPage backing.length := (safe.within (bytes_of_mem known inOld)).2
    exact Nat.not_le.mpr before inNew.1

/-- Adding the region of a completed growth. -/
theorem finish {layout : Layout} {machine : Machine} {fresh : List Nat} {added : Finset Nat}
    (fits : heapPage (backing.length + pagesToMap layout) ≤ heapRegionEnd)
    (length : fresh.length = pagesToMap layout)
    (done : Growing heap.vmm heap.machine machine backing fresh added) :
    ∃ after, heap.finishGrowth machine (heapPage (backing.length + pagesToMap layout))
        (growthBytes layout) = .ok (true, after) ∧ after.vmm = heap.vmm ∧
      Safe after (ledger.step (.add ⟨heapPage backing.length, growthBytes layout⟩))
        (backing ++ fresh) := by
  have admitted := safe.growth_admitted fits
  have size : (backing ++ fresh).length = backing.length + pagesToMap layout := by
    rw [List.length_append, length]
  have seen := safe.represents_grown done.backed done.spent
    (heapPage (backing.length + pagesToMap layout))
  obtain ⟨list, grown, represents, wrote⟩ := addFreeRegion_spec seen admitted.1
    (fun _ free => safe.balanced.added_apart admitted.2 free)
  have balanced := safe.balanced.step safe.represents.toWellFormed admitted
  have within : bytes (ledger.step
      (.add ⟨heapPage backing.length, growthBytes layout⟩)).added ⊆
      heapRange (backing ++ fresh).length := by
    have longer : heapPage backing.length ≤ heapPage (backing.length + pagesToMap layout) := by
      simp only [heapPage, frameSize]
      omega
    intro byte inside
    simp only [Ledger.step, bytes_cons, Set.mem_union] at inside
    rw [heapRange, size, Set.mem_Ico]
    rcases inside with new | old
    · rw [Region.mem_bytes, growthBytes_eq, heapPage_add] at new
      simp only [heapPage] at new ⊢
      omega
    · have earlier := safe.within old
      rw [heapRange, Set.mem_Ico] at earlier
      omega
  have listed : bytes (Regions.insert ⟨heapPage backing.length, growthBytes layout⟩
      ledger.nodes) ⊆ heapRange (backing ++ fresh).length := by
    refine Set.Subset.trans ?_ within
    rw [balanced.partition.covers, Ledger.parts, bytes_append]
    exact Set.subset_union_left
  refine ⟨(heap.advance machine (heapPage (backing.length + pagesToMap layout))).store list,
    ?_, rfl, ?_⟩
  · rw [finishGrowth, safe.cursor]
    simp only [grown, Except.map]
  · obtain ⟨backed, kept⟩ := @store_spec
      (heap.advance machine (heapPage (backing.length + pagesToMap layout))) _ _ _ _
      done.backed wrote listed represents listed
    refine ⟨safe.populated, ?_, backed, kept, balanced, within⟩
    rw [size]
    rfl

end Safe

/-- Every outcome of a growth from a safe state: the region is exhausted, a page
failed and the growth was unwound, or the new region is free. -/
inductive GrowOutcome (heap : KernelHeap) (ledger : Ledger) (backing : List Nat) (layout : Layout) :
    Except HeapPanic (Bool × KernelHeap) → Prop where
  | exhausted (beyond : heapRegionEnd < heapPage (backing.length + pagesToMap layout)) :
      GrowOutcome heap ledger backing layout (.ok (false, heap))
  | undone (machine : Machine) (fresh : List Nat) (added : Finset Nat)
      (fits : heapPage (backing.length + pagesToMap layout) ≤ heapRegionEnd)
      (first : fresh.length = 0 ↔
        (growPage heap.vmm heap.machine (heapPage backing.length)).1 = false)
      (unwound : Unwound heap.vmm heap.machine machine backing fresh added) :
      GrowOutcome heap ledger backing layout (.ok (false, { heap with machine := machine }))
  | grown (after : KernelHeap) (fresh : List Nat) (manager : after.vmm = heap.vmm)
      (safe : Safe after (ledger.step (.add ⟨heapPage backing.length, growthBytes layout⟩))
        (backing ++ fresh)) :
      GrowOutcome heap ledger backing layout (.ok (true, after))

namespace Safe

variable {heap : KernelHeap} {ledger : Ledger} {backing : List Nat}
  (safe : Safe heap ledger backing)

include safe

/-- A growth has one of the listed outcomes. -/
theorem grow_outcome (layout : Layout) :
    GrowOutcome heap ledger backing layout (heap.grow layout) := by
  rcases growthEnd_cases safe.cursor layout with ⟨none, beyond⟩ | ⟨some, fits⟩
  · rw [grow, none, Option.elim_none]
    exact .exhausted beyond
  · have initial := Growing.initial safe.backed
    rcases initial.growPages_cases (pagesToMap layout) (by simpa using fits) with
      ⟨fresh, added, machine, result, length, done⟩ | ⟨fresh, added, machine, result, _, first, undone⟩
    · obtain ⟨after, finished, manager, grown⟩ := safe.finish fits (by simpa using length) done
      have outcome : heap.grow layout = .ok (true, after) := by
        rw [grow, some, Option.elim_some, if_pos safe.populated, safe.cursor]
        rw [List.length_nil] at result
        simp only [result, if_true, finished]
      rw [outcome]
      exact .grown after fresh manager grown
    · have outcome : heap.grow layout = .ok (false, { heap with machine := machine }) := by
        rw [grow, some, Option.elim_some, if_pos safe.populated, safe.cursor]
        rw [List.length_nil] at result
        simp [result]
      rw [outcome]
      exact .undone machine fresh added fits first undone

/-- An allocation does not panic and leaves the heap safe. -/
theorem alloc_ok {layout : Layout} (servable : layout.Servable) :
    ∃ ptr after books pages, heap.alloc layout = .ok (ptr, after) ∧ after.vmm = heap.vmm ∧
      Safe after books pages ∧
      books.live = if ptr = 0 then ledger.live else ⟨ptr, layout⟩ :: ledger.live := by
  obtain ⟨ptr, list, attempt, stored, live⟩ := safe.list_alloc servable
  by_cases found : ptr = 0
  · subst found
    rw [if_pos rfl] at live
    generalize outcomeIs : (heap.store list).grow layout = outcome
    have classified := outcomeIs ▸ stored.grow_outcome layout
    cases classified with
    | exhausted beyond =>
      refine ⟨0, heap.store list, _, _, ?_, rfl, stored, by rw [if_pos rfl, live]⟩
      simp [alloc, attempt, outcomeIs, bind, Except.bind, pure, Except.pure]
    | undone machine fresh added fits first unwound =>
      refine ⟨0, { heap.store list with machine := machine }, _, _, ?_, rfl,
        stored.unwound unwound, by rw [if_pos rfl, live]⟩
      simp [alloc, attempt, outcomeIs, bind, Except.bind, pure, Except.pure]
    | grown after fresh manager grown =>
      obtain ⟨retried, final, second, last, lastLive⟩ := grown.list_alloc servable
      refine ⟨retried, after.store final, _, _, ?_, manager, last, ?_⟩
      · simp [alloc, attempt, outcomeIs, second, bind, Except.bind, pure, Except.pure]
      · rw [lastLive]
        simp only [Ledger.step] at live ⊢
        rw [live]
  · refine ⟨ptr, heap.store list, _, _, ?_, rfl, stored, live⟩
    simp [alloc, attempt, found, bind, Except.bind, pure, Except.pure]

/-- Freeing a held block does not panic and leaves the heap safe. -/
theorem dealloc_ok {block : Block} (held : block ∈ ledger.live) :
    ∃ after, heap.dealloc block.ptr block.layout = .ok after ∧ after.vmm = heap.vmm ∧
      Safe after (ledger.step (.dealloc block)) backing := by
  obtain ⟨list, freed, stored⟩ := safe.list_dealloc held
  refine ⟨heap.store list, ?_, rfl, stored⟩
  simp [dealloc, freed, bind, Except.bind, pure, Except.pure]

/-- A byte written into a held block leaves the heap safe. -/
theorem write_ok {block : Block} (held : block ∈ ledger.live) {address : Nat}
    (inside : address ∈ block.region.bytes) (value : Nat) :
    Safe { heap with machine := { heap.machine with
      memory := storeThrough heap.vmm heap.machine.memory address 1 value } } ledger backing := by
  have mapped : address ∈ heapRange backing.length := by
    apply safe.parts_within _ inside
    exact List.mem_append_right _ (List.mem_append_left _ (List.mem_map_of_mem held))
  have fits : address % frameSize + 1 ≤ frameSize := Nat.mod_lt _ (by decide)
  obtain ⟨backed, seen⟩ := safe.backed.storeThrough_spec value mapped fits
  refine ⟨safe.populated, safe.cursor, backed, safe.represents.congr rfl ?_, safe.balanced,
    safe.within⟩
  rintro byte ⟨node, free, within⟩
  have different : byte ≠ address := by
    rintro rfl
    exact Set.disjoint_left.mp (safe.balanced.live_apart held free) inside within
  have shown := seen byte (safe.nodes_within ⟨node, free, within⟩)
  rw [ByteMemory.store, if_neg (by omega)] at shown
  exact shown

end Safe

end KernelHeap

end XyronOS
