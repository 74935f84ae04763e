import XyronOS.Mm.FreeBytes
import XyronOS.Mm.KernelHeap

/-!
# Layouts that can be padded

A layout bounds its size rounded up to its own alignment. The allocator pads it again,
to the alignment of a header, and stops with a panic if that exceeds the largest object
size. Both roundings agree unless the layout is aligned to less than a header, and then
only the last few sizes below the limit make a difference.

On every other layout the padded size is what the allocator reserves, what it takes back
and what it looks for; a request that no free range can hold is answered with null. The
panic reaches the callers of the kernel heap in every state, before anything was tried.
-/

namespace XyronOS

open ByteMemory WordBits Regions FirstFit LinkedListAllocator HeapClients Runs

/-- The size a layout is to be served with: rounded up to the alignment used, and at
least a header. -/
def Layout.paddedSize (layout : Layout) : Nat :=
  max nodeSize (roundUp layout.size (max layout.align nodeAlign))

/-- Padding stays below the largest object size exactly if the layout is aligned like a
header or leaves room for the padding. -/
theorem Layout.padded_iff (layout : Layout) :
    roundUp layout.size (max layout.align nodeAlign) ≤ isizeMax ↔
      nodeAlign ≤ layout.align ∨ layout.size ≤ 2 ^ 63 - 8 := by
  by_cases wide : nodeAlign ≤ layout.align
  · rw [Nat.max_eq_left wide]
    exact ⟨fun _ => .inl wide, fun _ => layout.valid⟩
  · rw [Nat.max_eq_right (Nat.le_of_not_le wide)]
    unfold roundUp nodeAlign isizeMax
    unfold nodeAlign at wide
    omega

/-- A layout is padded as it should be exactly if it can be. -/
theorem adjustedSizeAlign_eq_iff (layout : Layout) :
    adjustedSizeAlign layout = .ok (layout.paddedSize, max layout.align nodeAlign) ↔
      nodeAlign ≤ layout.align ∨ layout.size ≤ 2 ^ 63 - 8 := by
  rw [← layout.padded_iff, Layout.paddedSize, Nat.max_comm nodeSize]
  simp only [adjustedSizeAlign]
  split
  · rename_i large
    constructor
    · intro answered
      cases answered
    · intro padded
      exact absurd padded (Nat.not_le.mpr large)
  · rename_i padded
    exact ⟨fun _ => Nat.le_of_not_lt padded, fun _ => rfl⟩

/-- A computation that does not stop over a layout. -/
def Unpanicked {α : Type} (result : Except HeapPanic α) : Prop := result ≠ .error .layoutOverflow

namespace Unpanicked

variable {α β : Type}

theorem ok (value : α) : Unpanicked (.ok value) := by simp [Unpanicked]

theorem bind {result : Except HeapPanic α} {next : α → Except HeapPanic β}
    (first : Unpanicked result) (rest : ∀ value, Unpanicked (next value)) :
    Unpanicked (result >>= next) := by
  cases result with
  | error panic => exact fun stopped => first (congrArg Except.error (Except.error.inj stopped))
  | ok value => exact rest value

theorem map {result : Except HeapPanic α} (first : Unpanicked result) (f : α → β) :
    Unpanicked (result.map f) := by
  cases result with
  | error panic => exact fun stopped => first (congrArg Except.error (Except.error.inj stopped))
  | ok value => exact .ok (f value)

theorem addFreeRegion (heap : LinkedListAllocator) (addr size : Nat) :
    Unpanicked (heap.addFreeRegion addr size) := by
  unfold LinkedListAllocator.addFreeRegion Unpanicked
  split
  · simp
  · split
    · simp
    · split <;> simp

theorem returnGap (heap : LinkedListAllocator) (addr gap : Nat) :
    Unpanicked (heap.returnGap addr gap) := by
  unfold LinkedListAllocator.returnGap
  split
  · exact addFreeRegion heap addr gap
  · exact ok heap

/-- Allocating for a layout that can be padded does not stop over it. -/
theorem alloc {layout : Layout} {size align : Nat}
    (adjusted : adjustedSizeAlign layout = .ok (size, align)) (heap : LinkedListAllocator) :
    Unpanicked (heap.alloc layout) := by
  unfold LinkedListAllocator.alloc
  rw [adjusted]
  refine bind (ok (size, align)) ?_
  rintro ⟨size, align⟩
  dsimp only
  split
  · simp [Unpanicked]
  · exact ok _
  · unfold LinkedListAllocator.takeFit
    refine bind (returnGap _ _ _) fun heap => ?_
    exact bind (returnGap _ _ _) fun heap => ok _

theorem grow (heap : KernelHeap) (layout : Layout) : Unpanicked (heap.grow layout) := by
  unfold KernelHeap.grow
  cases heap.growthEnd layout with
  | none => exact ok _
  | some growthStop =>
    dsimp only [Option.elim_some]
    split
    · split
      · exact map (addFreeRegion _ _ _) _
      · exact ok _
    · exact ok _

/-- Neither does an allocation from the kernel heap, in any state. -/
theorem kernelAlloc {layout : Layout} {size align : Nat}
    (adjusted : adjustedSizeAlign layout = .ok (size, align)) (heap : KernelHeap) :
    Unpanicked (heap.alloc layout) := by
  unfold KernelHeap.alloc
  refine bind (alloc adjusted _) ?_
  rintro ⟨ptr, list⟩
  dsimp only
  split
  · exact ok _
  · refine bind (grow _ _) ?_
    rintro ⟨grown, heap⟩
    dsimp only
    split
    · exact ok _
    · exact bind (alloc adjusted _) fun pair => ok _

end Unpanicked

/-- A block the search stops at holds a range of the requested size. -/
theorem tryFit_length {heap : LinkedListAllocator} {size align current : Nat} {prev : NodePtr}
    {fit : Fit} (found : heap.tryFit size align prev current = some fit) :
    fit.allocEnd = fit.allocStart + size := by
  simp only [tryFit, Option.bind_eq_some_iff] at found
  obtain ⟨allocEnd, added, placed⟩ := found
  have length : alignUp current align + size = allocEnd := by
    unfold checkedAdd at added
    split at added
    · exact Option.some.inj added
    · cases added
  split at placed
  · cases placed
    exact length.symm
  · cases placed

/-- The search ends in a range of the requested size. -/
theorem findFit_length {heap : LinkedListAllocator} {size align : Nat} {fit : Fit} (fuel : Nat)
    {prev : NodePtr} {current : Nat}
    (found : heap.findFit size align fuel prev current = some (some fit)) :
    fit.allocEnd = fit.allocStart + size := by
  induction fuel generalizing prev current with
  | zero => cases found
  | succ fuel inductionHypothesis =>
    unfold findFit at found
    split at found
    · cases found
    · cases tried : heap.tryFit size align prev current with
      | none =>
        rw [tried, Option.elim_none] at found
        exact inductionHypothesis found
      | some here =>
        rw [tried, Option.elim_some] at found
        cases found
        exact tryFit_length tried

/-- What callers rely on for a layout. It is padded without a panic, to the alignment of
a header and to its least size, and holds the request. Giving a block back adds the
range that the search for it had found, in whatever state. In every reachable state that
range is what an allocation takes off the free list and what giving the block back adds,
and a request that no free range can hold gets null. No state of the kernel heap stops
over the layout. -/
structure Layout.Served (layout : Layout) : Prop where
  adjusted : adjustedSizeAlign layout = .ok (layout.paddedSize, max layout.align nodeAlign)
  enough : layout.size ≤ layout.paddedSize
  whole : nodeAlign ∣ layout.paddedSize
  symmetric : ∀ (heap : LinkedListAllocator) fit,
    heap.findFit layout.paddedSize (max layout.align nodeAlign) walkBound .head heap.head.next =
      some (some fit) →
    ∀ later : LinkedListAllocator, later.dealloc fit.allocStart layout =
      later.addFreeRegion fit.allocStart (fit.allocEnd - fit.allocStart)
  reserved : ∀ memory requests final, Run Permitted serve (new memory) requests final →
    (∀ node ∈ tried layout.paddedSize (max layout.align nodeAlign) final.heap.nodes,
      node.start + (max layout.align nodeAlign - 1) < 2 ^ 64) →
    ∀ ptr after, final.heap.alloc layout = .ok (ptr, after) → ptr ≠ 0 →
      (Region.mk ptr layout.paddedSize).bytes ⊆ bytes final.heap.nodes ∧
      Disjoint (Region.mk ptr layout.paddedSize).bytes (bytes after.nodes)
  returned : ∀ memory requests final, Run Permitted serve (new memory) requests final →
    ∀ ptr, ⟨ptr, layout⟩ ∈ final.live → ∃ heap, final.heap.dealloc ptr layout = .ok heap ∧
      Disjoint (Region.mk ptr layout.paddedSize).bytes (bytes final.heap.nodes) ∧
      bytes heap.nodes = (Region.mk ptr layout.paddedSize).bytes ∪ bytes final.heap.nodes
  null : ∀ memory requests final, Run Permitted serve (new memory) requests final →
    (∀ node ∈ final.heap.nodes, node.start + (max layout.align nodeAlign - 1) < 2 ^ 64) →
    servable (bytes final.heap.nodes) layout.paddedSize (max layout.align nodeAlign) = ∅ →
      final.heap.alloc layout = .ok (0, final.heap)
  unpanicked : ∀ heap : KernelHeap, Unpanicked (heap.alloc layout)

/-- Giving a block back adds as many bytes as the search for it had found. -/
theorem dealloc_symmetric {layout : Layout} {size align : Nat}
    (adjusted : adjustedSizeAlign layout = .ok (size, align)) {heap : LinkedListAllocator}
    {fit : Fit} (found : heap.findFit size align walkBound .head heap.head.next = some (some fit))
    (later : LinkedListAllocator) : later.dealloc fit.allocStart layout =
      later.addFreeRegion fit.allocStart (fit.allocEnd - fit.allocStart) := by
  rw [findFit_length walkBound found, Nat.add_sub_cancel_left, dealloc, adjusted]
  rfl

section Served

variable {layout : Layout} {size align : Nat}
  (adjusted : adjustedSizeAlign layout = .ok (size, align)) {state : HeapClients}
  (tracks : Tracks state)

include adjusted tracks

/-- A pointer handed out starts a free range of the adjusted size, off what stays free. -/
theorem alloc_reserves
    (noWrap : ∀ node ∈ tried size align state.heap.nodes, node.start + (align - 1) < 2 ^ 64)
    {ptr : Nat} {after : LinkedListAllocator} (allocated : state.heap.alloc layout = .ok (ptr, after))
    (succeeded : ptr ≠ 0) :
    (Region.mk ptr size).bytes ⊆ bytes state.heap.nodes ∧
      Disjoint (Region.mk ptr size).bytes (bytes after.nodes) := by
  have represents := tracks.represents
  obtain ⟨node, chosen, rfl, representsAfter⟩ :=
    alloc_placed represents adjusted noWrap allocated succeeded
  obtain ⟨member, inside⟩ := Ledger.chosen_inside adjusted chosen
  refine ⟨(place_servable (adjustedSizeAlign_ok adjusted).positive.2 chosen).2, ?_⟩
  rw [representsAfter.nodes_eq, disjoint_bytes_iff]
  exact carve_apart represents.sorted represents.positive member inside (by decide)

/-- Giving a held block back adds the range of the adjusted size, which was not free. -/
theorem dealloc_returns {ptr : Nat} (held : ⟨ptr, layout⟩ ∈ state.live) :
    ∃ heap, state.heap.dealloc ptr layout = .ok heap ∧
      Disjoint (Region.mk ptr size).bytes (bytes state.heap.nodes) ∧
      bytes heap.nodes = (Region.mk ptr size).bytes ∪ bytes state.heap.nodes := by
  have region : Block.region ⟨ptr, layout⟩ = ⟨ptr, size⟩ := by
    rw [Block.region, Layout.adjustedSize_eq adjusted]
  obtain ⟨heap, freed, represents, _⟩ := dealloc_ok tracks held
  refine ⟨heap, freed, ?_, ?_⟩
  · rw [disjoint_bytes_iff, ← region]
    exact fun node free => tracks.balanced.live_apart held free
  · rw [represents.nodes_eq, ← region]
    exact bytes_insert _ _

/-- A request that no free range can hold gets null. -/
theorem alloc_null
    (noWrap : ∀ node ∈ state.heap.nodes, node.start + (align - 1) < 2 ^ 64)
    (full : servable (bytes state.heap.nodes) size align = ∅) :
    state.heap.alloc layout = .ok (0, state.heap) := by
  obtain ⟨long, positive⟩ := (adjustedSizeAlign_ok adjusted).positive
  exact alloc_none tracks.represents adjusted
    (fun node looked => noWrap node (tried_subset _ _ _ looked))
    ((choose_none_iff tracks.represents.sorted long positive).mpr full)

end Served

/-- **Exactly the layouts that leave room for the padding are served.** A layout aligned to
less than a header, within seven bytes of the largest object size, stops the allocator
instead. -/
theorem layout_served_iff (layout : Layout) :
    layout.Served ↔ nodeAlign ≤ layout.align ∨ layout.size ≤ 2 ^ 63 - 8 := by
  rw [← adjustedSizeAlign_eq_iff]
  constructor
  · exact fun served => served.adjusted
  · intro adjusted
    have facts := adjustedSizeAlign_ok adjusted
    exact
      { adjusted := adjusted
        enough := facts.enough
        whole := Nat.dvd_of_mod_eq_zero facts.whole
        symmetric := fun _ _ => dealloc_symmetric adjusted
        reserved := fun _ _ _ run noWrap _ _ => alloc_reserves adjusted (tracks_run run) noWrap
        returned := fun _ _ _ run _ => dealloc_returns adjusted (tracks_run run)
        null := fun _ _ _ run => alloc_null adjusted (tracks_run run)
        unpanicked := Unpanicked.kernelAlloc adjusted }

/-- A byte buffer of the largest size a layout admits. -/
def largestLayout : Layout := ⟨2 ^ 63 - 1, 1, ⟨0, by decide, rfl⟩, by decide⟩

/-- The kernel heap stops over the largest byte buffer, whatever its state. -/
theorem largest_layout_panics : adjustedSizeAlign largestLayout = .error .layoutOverflow ∧
    (∀ heap : KernelHeap, heap.alloc largestLayout = .error .layoutOverflow) ∧
    ¬ largestLayout.Served := by
  have refused : adjustedSizeAlign largestLayout = .error .layoutOverflow := by decide +kernel
  refine ⟨refused, ?_, ?_⟩
  · intro heap
    rw [KernelHeap.alloc, LinkedListAllocator.alloc, refused]
    rfl
  · intro served
    have answered := served.adjusted
    rw [refused] at answered
    cases answered

end XyronOS
