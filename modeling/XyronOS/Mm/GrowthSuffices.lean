import XyronOS.Mm.KernelHeapSafety

/-!
# One growth is enough

A request that the free list cannot serve grows the heap once and is tried once
more. The growth is sized from the requested bytes, while the retry takes the padded
size at an aligned address. The two agree for alignments up to a page: the cursor is
page-aligned, and padding to such an alignment does not go past the last page of the
growth.

Whether the new pages are joined with a free block that ends at the cursor makes no
difference, because the search is complete on the set of free bytes. The growth itself
succeeds over unmapped pages with four low frames for each: one to back the page and
one for every table its walk may lack.
-/

namespace XyronOS

open ByteMemory WordBits VirtAddr Regions FirstFit LinkedListAllocator KernelHeap

namespace Layout

/-- The requests that one growth always serves: aligned within a page, and they can be
padded. -/
structure WithinPage (layout : Layout) : Prop where
  align : layout.align ≤ frameSize
  padded : roundUp layout.size (max layout.align nodeAlign) ≤ isizeMax

variable {layout : Layout} (within : layout.WithinPage)

include within

theorem WithinPage.servable : layout.Servable :=
  ⟨Nat.le_trans within.align (by decide), within.padded⟩

/-- The alignment it is served with divides a page. -/
theorem WithinPage.divides {size align : Nat}
    (adjusted : adjustedSizeAlign layout = .ok (size, align)) :
    align ∣ frameSize ∧ size = max (roundUp layout.size align) nodeSize := by
  unfold adjustedSizeAlign at adjusted
  simp only [if_neg (Nat.not_lt.mpr within.padded), Except.ok.injEq, Prod.mk.injEq] at adjusted
  obtain ⟨rfl, rfl⟩ := adjusted
  refine ⟨?_, rfl⟩
  obtain ⟨bits, width, power⟩ := layout.power
  have small : bits ≤ 12 := by
    have bounded := within.align
    rw [power, show frameSize = 2 ^ 12 from rfl] at bounded
    exact (Nat.pow_le_pow_iff_right (by decide)).mp bounded
  rcases Nat.le_total layout.align nodeAlign with below | above
  · rw [Nat.max_eq_right below]
    decide
  · rw [Nat.max_eq_left above, power]
    exact Nat.pow_dvd_pow 2 small

/-- A growth maps at least the bytes the request is served with. -/
theorem WithinPage.size_le {size align : Nat}
    (adjusted : adjustedSizeAlign layout = .ok (size, align)) :
    size ≤ growthBytes layout := by
  obtain ⟨divides, rfl⟩ := within.divides adjusted
  have positive : 0 < align := Nat.pos_of_dvd_of_pos divides (by decide)
  have pages : roundUp layout.size frameSize ≤ pagesToMap layout * frameSize := by
    apply Nat.mul_le_mul_right
    exact Nat.le_trans (Nat.le_max_left _ _) (Nat.le_max_left _ _)
  have aligned : roundUp layout.size frameSize % align = 0 :=
    Nat.mod_eq_zero_of_dvd (divides.trans (Nat.dvd_of_mod_eq_zero (roundUp_aligned _ _)))
  have rounded : roundUp layout.size align ≤ roundUp layout.size frameSize :=
    roundUp_le _ _ _ positive (le_roundUp _ _ (by decide)) aligned
  have least : heapGrowthMinPages * frameSize ≤ pagesToMap layout * frameSize :=
    Nat.mul_le_mul_right _ (Nat.le_max_right _ _)
  have header : nodeSize ≤ heapGrowthMinPages * frameSize := by decide
  rw [growthBytes_eq]
  exact Nat.max_le.mpr ⟨Nat.le_trans rounded pages, Nat.le_trans header least⟩

end Layout

namespace KernelHeap.Safe

variable {heap : KernelHeap} {ledger : Ledger} {backing : List Nat}

/-- Once the region of a growth is free, the request is served. -/
theorem grown_alloc {layout : Layout} (within : layout.WithinPage) {base : Nat}
    (safe : Safe heap (ledger.step (.add ⟨heapPage base, growthBytes layout⟩)) backing) :
    ∃ ptr list, heap.allocator.alloc layout = .ok (ptr, list) ∧ ptr ≠ 0 := by
  obtain ⟨size, align, adjusted, bounded⟩ := within.servable.adjusted
  obtain ⟨divides, _⟩ := within.divides adjusted
  have facts := adjustedSizeAlign_ok adjusted
  have long := facts.long
  have positive : 0 < align := Nat.pos_of_dvd_of_pos divides (by decide)
  unfold nodeSize at long
  have free : heapPage base ∈ servable
      (bytes (Regions.insert ⟨heapPage base, growthBytes layout⟩ ledger.nodes)) size align := by
    refine ⟨divides.trans (Nat.dvd_of_mod_eq_zero (heapPage_aligned base)), ?_⟩
    rw [bytes_insert]
    apply Set.subset_union_of_subset_left
    intro byte inside
    have enough := within.size_le adjusted
    rw [Region.mem_bytes] at inside ⊢
    simp only at inside ⊢
    omega
  cases chosen : choose size align
      (Regions.insert ⟨heapPage base, growthBytes layout⟩ ledger.nodes) with
  | none =>
    have empty := (choose_none_iff safe.represents.sorted (by omega) positive).mp chosen
    exact absurd (empty ▸ free) (Set.notMem_empty _)
  | some node =>
    obtain ⟨member, inside⟩ := Ledger.chosen_inside adjusted chosen
    obtain ⟨list, returned, _⟩ := alloc_some safe.represents adjusted
      (fun node looked => safe.noWrap bounded node (tried_subset _ _ _ looked)) chosen
    exact ⟨_, list, returned,
      (Block.served_place adjusted safe.represents.toWellFormed member inside).nonzero⟩

/-- A growth inside the region over unmapped pages succeeds if there are four low
frames for each of its pages. -/
theorem grow_enough (safe : Safe heap ledger backing) {layout : Layout}
    (fits : heapPage (backing.length + pagesToMap layout) ≤ heapRegionEnd)
    (unmapped : ∀ index < pagesToMap layout, lookup heap.machine.memory heap.vmm.pml4Phys
      (heapPage (backing.length + index)) = none)
    (enough : 4 * pagesToMap layout ≤ (heap.machine.frames.freeBelow identityMapLimit).card) :
    ∃ grown, heap.grow layout = .ok (true, grown) := by
  have backed : (growPages heap.vmm heap.nextUnmapped (pagesToMap layout) 0 heap.machine).1 =
      true := by
    rw [safe.cursor]
    exact (Growing.initial safe.backed).growPages_enough (pagesToMap layout) fits unmapped enough
  generalize outcomeIs : heap.grow layout = outcome
  have classified := outcomeIs ▸ safe.grow_outcome layout
  cases classified with
  | exhausted beyond => exact absurd fits (Nat.not_le.mpr beyond)
  | undone machine fresh added _ first unwound =>
    rcases growthEnd_cases safe.cursor layout with ⟨_, beyond⟩ | ⟨some, _⟩
    · exact absurd fits (Nat.not_le.mpr beyond)
    · rw [grow, some, Option.elim_some, if_pos safe.populated] at outcomeIs
      simp only [backed, if_true, finishGrowth] at outcomeIs
      generalize addFreeRegion _ _ _ = added at outcomeIs
      cases added <;> cases outcomeIs
  | grown after fresh manager still => exact ⟨after, rfl⟩

/-- The sizes and addresses of a growth do not overflow. -/
theorem growth_bounds (safe : Safe heap ledger backing) (layout : Layout) :
    pagesToMap layout * frameSize < 2 ^ 64 ∧ growthBytes layout = pagesToMap layout * frameSize ∧
      ∀ growthStop, heap.growthEnd layout = some growthStop →
        growthStop = heap.nextUnmapped + growthBytes layout ∧
        ∀ page < pagesToMap layout, heap.nextUnmapped + page * frameSize < 2 ^ 64 := by
  have exact := growthBytes_eq layout
  have small : growthBytes layout < 2 ^ 64 := Nat.mod_lt _ (by decide)
  refine ⟨exact ▸ small, exact, ?_⟩
  intro growthStop ends
  rcases growthEnd_cases safe.cursor layout with ⟨none, _⟩ | ⟨some, fits⟩
  · rw [none] at ends
    cases ends
  · rw [some] at ends
    obtain rfl := Option.some.inj ends
    have stop : heap.nextUnmapped + growthBytes layout =
        heapPage (backing.length + pagesToMap layout) := by
      rw [safe.cursor, exact, heapPage_add]
    refine ⟨stop.symm, ?_⟩
    intro page earlier
    have inside : page * frameSize ≤ growthBytes layout := by
      rw [exact]
      exact Nat.mul_le_mul_right _ (Nat.le_of_lt earlier)
    unfold heapRegionEnd at fits
    omega

/-- A request within a page that the free list refuses is served by the retry once the
growth for it succeeds. -/
theorem retry_ok (safe : Safe heap ledger backing) {layout : Layout} (within : layout.WithinPage)
    {list : LinkedListAllocator} {grown : KernelHeap}
    (refused : heap.allocator.alloc layout = .ok (0, list))
    (grows : (heap.store list).grow layout = .ok (true, grown)) :
    ∃ ptr retried fresh, grown.allocator.alloc layout = .ok (ptr, retried) ∧ ptr ≠ 0 ∧
      heap.alloc layout = .ok (ptr, grown.store retried) ∧
      let books := ((ledger.step (.alloc layout)).step
        (.add ⟨heapPage backing.length, growthBytes layout⟩)).step (.alloc layout)
      Safe (grown.store retried) books (backing ++ fresh) ∧
        books.live = ⟨ptr, layout⟩ :: ledger.live := by
  obtain ⟨ptr, listed, attempt, stored, unserved⟩ := safe.list_alloc within.servable
  rw [refused] at attempt
  obtain ⟨rfl, rfl⟩ := Prod.mk.inj (Except.ok.inj attempt)
  generalize outcomeIs : (heap.store list).grow layout = outcome at grows
  have classified := outcomeIs ▸ stored.grow_outcome layout
  cases classified with
  | exhausted beyond => cases grows
  | undone machine fresh added fits first unwound => cases grows
  | grown after fresh manager still =>
    cases grows
    obtain ⟨ptr, retried, second, nonzero⟩ := still.grown_alloc within
    obtain ⟨other, final, again, last, live⟩ := still.list_alloc within.servable
    rw [second] at again
    obtain ⟨rfl, rfl⟩ := Prod.mk.inj (Except.ok.inj again)
    rw [if_neg nonzero] at live
    rw [if_pos rfl] at unserved
    refine ⟨ptr, retried, fresh, second, nonzero, ?_, last, live.trans (congrArg _ unserved)⟩
    simp [KernelHeap.alloc, refused, outcomeIs, second, bind, Except.bind, pure, Except.pure]

end KernelHeap.Safe

namespace KernelHeap

/-- A layout of 24 bytes at an 8-byte boundary. -/
def smallRequest : Layout := ⟨24, 8, ⟨3, by decide, rfl⟩, by decide⟩

theorem smallRequest_within : smallRequest.WithinPage := ⟨by decide, by decide⟩

/-- Cleared memory with 72 frames, all free but that of the root table. -/
def roomyMachine : Machine := ⟨fun _ => 0, ⟨[0x02#8, 0, 0, 0, 0, 0, 0, 0, 0], 72, 71, 0⟩⟩

theorem roomyMachine_empty (index : Fin 512) : readEntry roomyMachine.memory 0x1000 index = 0 := by
  simp [roomyMachine, readEntry, load64, load]

theorem owned_roomyMachine : Owned ⟨0x1000⟩ roomyMachine :=
  owned_of_empty_root roomyMachine_empty (by decide) (by decide) (by decide)
    ⟨by decide, by decide, by decide⟩

/-- An empty heap has nothing to serve the first request with. -/
theorem roomy_refused : (new ⟨0x1000⟩ roomyMachine).allocator.alloc smallRequest =
    .ok (0, (new ⟨0x1000⟩ roomyMachine).allocator) := rfl

/-- There are frames enough for its first growth. -/
theorem roomy_grows :
    ∃ grown, (new ⟨0x1000⟩ roomyMachine).grow smallRequest = .ok (true, grown) := by
  have unmapped : ∀ virt, lookup roomyMachine.memory 0x1000 virt = none := by
    intro virt
    simp [lookup, indices, RadixTree.resolve, slots, roomyMachine_empty, PageTableEntry.isPresent]
  exact (safe_new owned_roomyMachine).grow_enough (by decide) (fun index _ => unmapped _)
    (by decide +kernel)

/-- The first request grows the heap and is served at its start; the rest of the pages is
one free block. -/
theorem roomy_alloc :
    ∃ after, (new ⟨0x1000⟩ roomyMachine).alloc smallRequest = .ok (heapRegionStart, after) ∧
      after.allocator.nodes = [⟨heapRegionStart + 24, 0x10000 - 24⟩] := by
  obtain ⟨grown, grows⟩ := roomy_grows
  obtain ⟨ptr, retried, fresh, _, _, served, safe, live⟩ :=
    (safe_new owned_roomyMachine).retry_ok smallRequest_within roomy_refused grows
  have books : (((emptyLedger.step (.alloc smallRequest)).step
      (.add ⟨heapPage 0, growthBytes smallRequest⟩)).step (.alloc smallRequest)).live =
        [⟨heapRegionStart, smallRequest⟩] ∧
      (((emptyLedger.step (.alloc smallRequest)).step
        (.add ⟨heapPage 0, growthBytes smallRequest⟩)).step (.alloc smallRequest)).nodes =
        [⟨heapRegionStart + 24, 0x10000 - 24⟩] := by
    decide +kernel
  obtain ⟨held, free⟩ := books
  have place : ptr = heapRegionStart := by
    have same := live.symm.trans held
    simpa [emptyLedger] using same
  rw [place] at served
  exact ⟨_, served, safe.represents.nodes_eq.trans free⟩

end KernelHeap

end XyronOS
