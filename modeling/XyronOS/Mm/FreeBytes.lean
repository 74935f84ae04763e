import XyronOS.Mm.HeapRuns

/-!
# The heap as a set of free bytes

A caller of the heap does not see how the free bytes are listed. In every reachable
state the list is the one coalesced list of its bytes, so two descriptions in terms
of the bytes alone are exact.

The search through the list is first fit on the set: it fails only if no aligned
range of the size is free, and otherwise it serves the request at the least address.
Giving blocks back adds their bytes to the set, so the order does not matter, neither
for the list that results nor for what later requests return.
-/

namespace XyronOS

open ByteMemory WordBits Regions FirstFit LinkedListAllocator HeapClients Runs

/-- A size the allocator serves is not zero. -/
theorem Adjusted.positive {layout : Layout} {size align : Nat} (facts : Adjusted layout size align) :
    0 < size ∧ 0 < align := by
  obtain ⟨bits, _, _, power⟩ := facts.power
  have long := facts.long
  unfold nodeSize at long
  exact ⟨by omega, power ▸ Nat.two_pow_pos bits⟩

/-- A gap lost in front of a block ends where the block starts, inside the region that
was cut. -/
theorem dropped_front {node block gap : Region} (inside : Inside node block)
    (gone : gap ∈ dropped nodeSize (front node block)) :
    gap.size < nodeSize ∧ gap.stop = block.start ∧ gap.bytes ⊆ node.bytes := by
  obtain ⟨rfl, _, short⟩ := mem_dropped.mp gone
  have lower := inside.lower
  have upper := inside.upper
  refine ⟨short, ?_, ?_⟩
  · simp only [front, Region.stop]
    omega
  · intro byte within
    simp only [Region.mem_bytes, front, Region.stop] at within upper ⊢
    omega

/-- A gap lost behind a block starts where the block ends, inside the region that was
cut. -/
theorem dropped_back {node block gap : Region} (inside : Inside node block)
    (gone : gap ∈ dropped nodeSize (back node block)) :
    gap.size < nodeSize ∧ gap.start = block.stop ∧ gap.bytes ⊆ node.bytes := by
  obtain ⟨rfl, _, short⟩ := mem_dropped.mp gone
  have lower := inside.lower
  have upper := inside.upper
  refine ⟨short, rfl, ?_⟩
  intro byte within
  simp only [Region.mem_bytes, back, Region.stop] at within upper ⊢
  omega

/-- First fit on the set of free bytes: an allocation returns null exactly if no
aligned range of the adjusted size is free, and otherwise the least address of one.
Afterwards the free bytes are the former ones without that range and without at most
one gap on either side of it, shorter than a header and inside the block it was cut
from. -/
theorem first_fit_exact {memory : Memory} {requests : List HeapRequest} {final : HeapClients}
    (run : Run Permitted serve (new memory) requests final) {layout : Layout} {size align : Nat}
    (adjusted : adjustedSizeAlign layout = .ok (size, align))
    (noWrap : ∀ node ∈ tried size align final.heap.nodes, node.start + (align - 1) < 2 ^ 64) :
    ∃ ptr after, final.heap.alloc layout = .ok (ptr, after) ∧
      (ptr = 0 ↔ servable (bytes final.heap.nodes) size align = ∅) ∧
      (ptr ≠ 0 → IsLeast (servable (bytes final.heap.nodes) size align) ptr ∧
        ∃ node ∈ final.heap.nodes, Inside node ⟨ptr, size⟩ ∧ ∃ ahead behind : List Region,
          ahead.length ≤ 1 ∧ behind.length ≤ 1 ∧
          (∀ gap ∈ ahead, gap.size < nodeSize ∧ gap.stop = ptr ∧ gap.bytes ⊆ node.bytes) ∧
          (∀ gap ∈ behind, gap.size < nodeSize ∧ gap.start = ptr + size ∧
            gap.bytes ⊆ node.bytes) ∧
          bytes after.nodes = bytes final.heap.nodes \
            ((Region.mk ptr size).bytes ∪ (bytes ahead ∪ bytes behind))) := by
  have represents := (tracks_run run).represents
  obtain ⟨long, positive⟩ := (adjustedSizeAlign_ok adjusted).positive
  have emptiness := @choose_none_iff size align _ represents.sorted long positive
  cases chosen : choose size align final.heap.nodes with
  | none =>
    exact ⟨0, final.heap, alloc_none represents adjusted noWrap chosen,
      ⟨fun _ => emptiness.mp chosen, fun _ => rfl⟩, fun nonzero => absurd rfl nonzero⟩
  | some node =>
    obtain ⟨member, inside⟩ := Ledger.chosen_inside adjusted chosen
    obtain ⟨after, returned, representsAfter⟩ := alloc_some represents adjusted noWrap chosen
    have nonzero : (place size align node).start ≠ 0 :=
      (Block.served_place adjusted represents.toWellFormed member inside).nonzero
    refine ⟨_, after, returned, ⟨fun null => absurd null nonzero, ?_⟩, fun _ => ⟨?_, node, member,
      inside, dropped nodeSize (front node (place size align node)),
      dropped nodeSize (back node (place size align node)), dropped_length _ _,
      dropped_length _ _, fun gap => dropped_front inside, fun gap => dropped_back inside, ?_⟩⟩
    · intro empty
      have none := emptiness.mpr empty
      rw [chosen] at none
      cases none
    · exact choose_least represents.sorted long positive chosen
    · rw [representsAfter.nodes_eq]
      exact bytes_carve represents.sorted represents.positive member inside (by decide)

/-- In the page of the small run the least 32-byte boundary with 32 free bytes is 4128. -/
theorem first_fit_exact_small :
    IsLeast (servable (bytes (smallState 4).heap.nodes) 32 32) 4128 := by
  have returned : ((smallState 4).heap.alloc smallLayout).map Prod.fst = .ok 4128 := by
    decide +kernel
  obtain ⟨ptr, after, allocated, _, found⟩ :=
    first_fit_exact small_run (show adjustedSizeAlign smallLayout = .ok (32, 32) by decide +kernel)
      (by decide +kernel)
  rw [allocated] at returned
  have pointer : ptr = 4128 := Except.ok.inj returned
  rw [pointer] at found
  exact (found (by decide)).1

/-- Give blocks back one after the other. -/
def deallocAll (heap : LinkedListAllocator) (blocks : List Block) :
    Except HeapPanic LinkedListAllocator :=
  blocks.foldlM (fun heap block => heap.dealloc block.ptr block.layout) heap

/-- Request blocks one after the other; a panic is the last answer. -/
def allocAll (heap : LinkedListAllocator) : List Layout → List (Except HeapPanic Nat)
  | [] => []
  | layout :: rest =>
      match heap.alloc layout with
      | .error panic => [.error panic]
      | .ok (ptr, after) => .ok ptr :: allocAll after rest

/-- Along a sequence of requests, rounding never wraps at a block the search looks at. -/
def RoundsExactly (heap : LinkedListAllocator) : List Layout → Prop
  | [] => True
  | layout :: rest =>
      (∀ size align, adjustedSizeAlign layout = .ok (size, align) →
        ∀ node ∈ tried size align heap.nodes, node.start + (align - 1) < 2 ^ 64) ∧
      ∀ ptr after, heap.alloc layout = .ok (ptr, after) → RoundsExactly after rest

/-- Giving back blocks that are held adds their bytes to the free ones. The induction is
on the blocks, over the state that giving back the earlier ones leaves. -/
theorem deallocAll_spec {state : HeapClients} (tracks : Tracks state) (blocks : List Block)
    (distinct : blocks.Nodup) (held : ∀ block ∈ blocks, block ∈ state.live) :
    ∃ heap, deallocAll state.heap blocks = .ok heap ∧ Represents heap heap.nodes ∧
      bytes heap.nodes = bytes (blocks.map Block.region) ∪ bytes state.heap.nodes := by
  induction blocks generalizing state with
  | nil => exact ⟨state.heap, rfl, tracks.represents, by simp⟩
  | cons block rest inductionHypothesis =>
    obtain ⟨absent, restDistinct⟩ := List.nodup_cons.mp distinct
    have present := held block List.mem_cons_self
    obtain ⟨heap, freed, represents, _⟩ := dealloc_ok tracks present
    have after : state.serve (.dealloc block) =
        { state with heap := heap, live := state.live.erase block } := by
      rw [serve, freed, afterDealloc]
    have tracked := tracks_serve tracks (show state.Permitted (.dealloc block) from present)
    rw [after] at tracked
    have remaining : ∀ other ∈ rest, other ∈ state.live.erase block := by
      intro other later
      have different : other ≠ block := fun same => absent (same ▸ later)
      exact (List.mem_erase_of_ne different).mpr (held other (List.mem_cons_of_mem _ later))
    obtain ⟨last, emptied, representsLast, free⟩ :=
      inductionHypothesis tracked restDistinct remaining
    refine ⟨last, ?_, representsLast, ?_⟩
    · simp only [deallocAll, List.foldlM_cons, freed] at emptied ⊢
      exact emptied
    · have inserted : bytes heap.nodes = block.region.bytes ∪ bytes state.heap.nodes := by
        rw [represents.nodes_eq]
        exact bytes_insert block.region state.heap.nodes
      rw [free, inserted, List.map_cons, bytes_cons, ← Set.union_assoc,
        Set.union_comm (bytes (rest.map Block.region))]

/-- Allocators with the same free list answer a sequence of requests alike. -/
theorem allocAll_congr {heap other : LinkedListAllocator} {nodes : List Region}
    (represents : Represents heap nodes) (represents' : Represents other nodes)
    (layouts : List Layout) (exact : RoundsExactly heap layouts) :
    allocAll other layouts = allocAll heap layouts := by
  induction layouts generalizing heap other nodes with
  | nil => rfl
  | cons layout rest inductionHypothesis =>
    obtain ⟨here, later⟩ := exact
    cases adjusted : adjustedSizeAlign layout with
    | error panic =>
      have refused (list : LinkedListAllocator) : list.alloc layout = .error panic := by
        rw [LinkedListAllocator.alloc, adjusted]
        rfl
      simp only [allocAll, refused]
    | ok pair =>
      obtain ⟨size, align⟩ := pair
      have noWrap := here size align adjusted
      rw [represents.nodes_eq] at noWrap
      cases chosen : choose size align nodes with
      | none =>
        have refused := alloc_none represents adjusted noWrap chosen
        have refused' := alloc_none represents' adjusted noWrap chosen
        simp only [allocAll, refused, refused']
        rw [inductionHypothesis represents represents' (later 0 heap refused)]
      | some node =>
        obtain ⟨after, returned, carved⟩ := alloc_some represents adjusted noWrap chosen
        obtain ⟨after', returned', carved'⟩ := alloc_some represents' adjusted noWrap chosen
        simp only [allocAll, returned, returned']
        rw [inductionHypothesis carved carved' (later _ after returned)]

/-- The order in which blocks are given back does not matter: any two orders succeed,
end in the same free list, and leave the same answers to every later sequence of
requests. -/
theorem free_order {memory : Memory} {requests : List HeapRequest} {final : HeapClients}
    (run : Run Permitted serve (new memory) requests final) {blocks reordered : List Block}
    (distinct : blocks.Nodup) (held : ∀ block ∈ blocks, block ∈ final.live)
    (permuted : blocks.Perm reordered) :
    ∃ heap heap', deallocAll final.heap blocks = .ok heap ∧
      deallocAll final.heap reordered = .ok heap' ∧ heap'.nodes = heap.nodes ∧
      ∀ layouts, RoundsExactly heap layouts → allocAll heap' layouts = allocAll heap layouts := by
  have tracks := tracks_run run
  obtain ⟨heap, freed, represents, free⟩ := deallocAll_spec tracks blocks distinct held
  obtain ⟨heap', freed', represents', free'⟩ := deallocAll_spec tracks reordered
    (permuted.nodup_iff.mp distinct) (fun block member => held block (permuted.mem_iff.mpr member))
  have same : heap'.nodes = heap.nodes := by
    apply coalesced_unique represents'.sorted represents.sorted represents'.positive
      represents.positive
    rw [free, free', bytes_perm (permuted.map Block.region)]
  refine ⟨heap, heap', freed, freed', same, ?_⟩
  intro layouts exact
  rw [same] at represents'
  exact allocAll_congr represents represents' layouts exact

/-- Add a page and take two neighbouring blocks from it. -/
def pairRequests : List HeapRequest :=
  [.add ⟨4096, 4096⟩, .alloc smallLayout, .alloc smallLayout]

/-- The state after the first requests of that run, over a zeroed memory. -/
def pairState (count : Nat) : HeapClients :=
  (pairRequests.take count).foldl serve (new (fun _ => 0))

/-- Every request of that run is permitted. -/
theorem pair_run : Run Permitted serve (new (fun _ => 0)) pairRequests (pairState 3) := by
  have adjusted : adjustedSizeAlign smallLayout = .ok (32, 32) := by decide +kernel
  have first : ∀ node ∈ (pairState 1).heap.nodes, node.start + 31 < 2 ^ 64 := by decide +kernel
  have second : ∀ node ∈ (pairState 2).heap.nodes, node.start + 31 < 2 ^ 64 := by decide +kernel
  simp only [pairState, pairRequests, List.take_succ_cons, List.take_zero, List.foldl_cons,
    List.foldl_nil] at first second ⊢
  refine .cons ⟨⟨⟨rfl, by decide⟩, show 4096 + 4096 < 2 ^ 64 by decide, by decide⟩,
    by simp [ledger, HeapClients.new]⟩ (.cons ?_ (.cons ?_ (.nil _)))
  · intro size align served
    rw [adjusted] at served
    cases served
    exact first
  · intro size align served
    rw [adjusted] at served
    cases served
    exact second

/-- The two blocks may be given back in either order. -/
theorem free_order_pair :
    ∃ heap heap', deallocAll (pairState 3).heap [⟨4096, smallLayout⟩, ⟨4128, smallLayout⟩] = .ok heap ∧
      deallocAll (pairState 3).heap [⟨4128, smallLayout⟩, ⟨4096, smallLayout⟩] = .ok heap' ∧
      heap'.nodes = heap.nodes := by
  have live : (pairState 3).live = [⟨4128, smallLayout⟩, ⟨4096, smallLayout⟩] := by decide +kernel
  obtain ⟨heap, heap', freed, freed', same, _⟩ := free_order pair_run
    (show [Block.mk 4096 smallLayout, ⟨4128, smallLayout⟩].Nodup by simp)
    (by simp [live]) (List.Perm.swap _ _ _)
  exact ⟨heap, heap', freed, freed', same⟩

end XyronOS
