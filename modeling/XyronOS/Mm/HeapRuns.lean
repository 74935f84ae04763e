import XyronOS.Library.Runs
import XyronOS.Mm.HeapLedger

/-!
# Runs of the free-list allocator

The allocator as its callers drive it: regions are added, blocks are requested and
given back, and callers write any bytes into the blocks they hold. The state keeps
the in-band list together with what a caller can observe. What was lost is observed
too: the parts of the free block around a returned one that are too short to stay
on the list.

The decoded list and the observations are the books of the heap. One request moves
them as the books say, whatever bytes the callers wrote, and the words the allocator
writes are free at the end of the request. Everything else follows along runs.
-/

namespace XyronOS

open ByteMemory Regions FirstFit LinkedListAllocator Runs

/-- The allocator, the blocks its callers hold, the regions ever added, the gaps
lost, and the pointers returned so far, latest first. -/
structure HeapClients where
  heap : LinkedListAllocator
  live : List Block
  added : List Region
  lost : List Region
  pointers : List Nat

/-- What is too short to stay on the list around a block cut from one of the nodes. -/
def gapsAround (nodes : List Region) (block : Region) : List Region :=
  (nodes.find? (Region.contains block.start)).elim [] (fun node => FirstFit.lost nodeSize node block)

namespace HeapClients

/-- A new allocator over a memory with any content. -/
def new (memory : Memory) : HeapClients := ⟨LinkedListAllocator.new memory, [], [], [], []⟩

/-- Record an added region. -/
def afterAdd (state : HeapClients) (region : Region) :
    Except HeapPanic LinkedListAllocator → HeapClients
  | .error _ => state
  | .ok heap => { state with heap := heap, added := region :: state.added }

/-- Record a returned pointer, and the block behind it unless it is null. -/
def afterAlloc (state : HeapClients) (layout : Layout) :
    Except HeapPanic (Nat × LinkedListAllocator) → HeapClients
  | .error _ => state
  | .ok (ptr, heap) =>
      if ptr = 0 then { state with heap := heap, pointers := 0 :: state.pointers }
      else
        { heap := heap
          live := ⟨ptr, layout⟩ :: state.live
          added := state.added
          lost := gapsAround state.heap.nodes (Block.region ⟨ptr, layout⟩) ++ state.lost
          pointers := ptr :: state.pointers }

/-- Forget a block that was given back. -/
def afterDealloc (state : HeapClients) (block : Block) :
    Except HeapPanic LinkedListAllocator → HeapClients
  | .error _ => state
  | .ok heap => { state with heap := heap, live := state.live.erase block }

/-- Serve one request; a request that panics changes nothing. -/
def serve (state : HeapClients) : HeapRequest → HeapClients
  | .add region => state.afterAdd region (state.heap.addFreeRegion region.start region.size)
  | .alloc layout => state.afterAlloc layout (state.heap.alloc layout)
  | .dealloc block => state.afterDealloc block (state.heap.dealloc block.ptr block.layout)
  | .write address byte =>
      { state with heap := { state.heap with
          memory := Function.update state.heap.memory address byte } }

/-- The books: the decoded free list and what the callers observed. -/
def ledger (state : HeapClients) : Ledger where
  nodes := state.heap.nodes
  live := state.live
  added := state.added
  lost := state.lost
  pointers := state.pointers

/-- A caller issues only what the books admit. -/
def Permitted (state : HeapClients) (request : HeapRequest) : Prop := state.ledger.Admits request

/-- The list is well linked and the books balance. -/
structure Tracks (state : HeapClients) : Prop where
  represents : Represents state.heap state.heap.nodes
  balanced : state.ledger.Balanced

/-- A request of the allocator itself, not a write of a caller. -/
def isCall : HeapRequest → Bool
  | .write _ _ => false
  | _ => true

/-- A served request moved the books as it should and wrote only bytes that are now
free. -/
structure Accounted (state : HeapClients) (request : HeapRequest) : Prop where
  books : (state.serve request).ledger = state.ledger.step request
  represents : Represents (state.serve request).heap (state.ledger.step request).nodes
  wrote : isCall request = true →
    Wrote (bytes (state.ledger.step request).nodes) state.heap (state.serve request).heap

/-- Books whose list is represented are the decoded ones. -/
theorem ledger_eq {state : HeapClients} {books : Ledger} (represents : Represents state.heap books.nodes)
    (live : state.live = books.live) (added : state.added = books.added)
    (lost : state.lost = books.lost) (pointers : state.pointers = books.pointers) :
    state.ledger = books := by
  rw [ledger, represents.nodes_eq, live, added, lost, pointers]

/-- A request is accounted for once its next state and its next books are known to
agree. -/
theorem Accounted.of_served {state after : HeapClients} {request : HeapRequest} {books : Ledger}
    (served : state.serve request = after) (entry : state.ledger.step request = books)
    (represents : Represents after.heap books.nodes) (live : after.live = books.live)
    (added : after.added = books.added) (lost : after.lost = books.lost)
    (pointers : after.pointers = books.pointers)
    (wrote : Wrote (bytes books.nodes) state.heap after.heap) : Accounted state request := by
  subst served entry
  exact ⟨ledger_eq represents live added lost pointers, represents, fun _ => wrote⟩

variable {state : HeapClients} (tracks : Tracks state)

include tracks

/-- Adding a region succeeds. -/
theorem add_ok {region : Region} (permitted : state.Permitted (.add region)) :
    ∃ heap, state.heap.addFreeRegion region.start region.size = .ok heap ∧
      Represents heap (state.ledger.step (.add region)).nodes ∧
      Wrote (bytes (state.ledger.step (.add region)).nodes) state.heap heap :=
  addFreeRegion_spec tracks.represents permitted.1
    (fun _ free => tracks.balanced.added_apart permitted.2 free)

/-- Giving a held block back succeeds. -/
theorem dealloc_ok {block : Block} (held : block ∈ state.live) :
    ∃ heap, state.heap.dealloc block.ptr block.layout = .ok heap ∧
      Represents heap (state.ledger.step (.dealloc block)).nodes ∧
      Wrote (bytes (state.ledger.step (.dealloc block)).nodes) state.heap heap := by
  have served := tracks.balanced.served block held
  obtain ⟨align, adjusted, _⟩ := served.adjusted
  obtain ⟨heap, added, represents, wrote⟩ := addFreeRegion_spec tracks.represents served.holdable
    (fun _ free => tracks.balanced.live_apart held free)
  refine ⟨heap, ?_, represents, wrote⟩
  rw [LinkedListAllocator.dealloc, adjusted]
  exact added

/-- The gaps observed around the block carved from the chosen node are those lost. -/
theorem gapsAround_eq {size align : Nat} {node : Region} (long : 0 < size)
    (member : node ∈ state.heap.nodes) (inside : Inside node (place size align node)) :
    gapsAround state.heap.nodes (place size align node) =
      FirstFit.lost nodeSize node (place size align node) := by
  have found : state.heap.nodes.find? (Region.contains (place size align node).start) = some node := by
    apply find_contains tracks.represents.sorted.disjoint member
    have lower := inside.lower
    have upper := inside.upper
    have sized : (place size align node).size = size := rfl
    rw [Region.mem_bytes]
    unfold Region.stop at upper
    omega
  rw [gapsAround, found, Option.elim_some]

/-- Allocation moves the books as first fit does. -/
theorem alloc_accounted {layout : Layout} (permitted : state.Permitted (.alloc layout)) :
    Accounted state (.alloc layout) := by
  cases adjusted : adjustedSizeAlign layout with
  | error panic =>
    have refused : state.heap.alloc layout = .error panic := by
      rw [LinkedListAllocator.alloc, adjusted]
      rfl
    have same : state.serve (.alloc layout) = state := by rw [serve, refused, afterAlloc]
    have kept : state.ledger.step (.alloc layout) = state.ledger := by
      rw [Ledger.step, adjusted]
    exact .of_served same kept tracks.represents rfl rfl rfl rfl (Wrote.refl _ _)
  | ok pair =>
    obtain ⟨size, align⟩ := pair
    have noWrap := permitted size align adjusted
    have facts := adjustedSizeAlign_ok adjusted
    rcases alloc_spec tracks.represents adjusted
        (fun node looked => noWrap node (tried_subset _ _ _ looked)) with
      ⟨none, refused⟩ | ⟨node, heap, chosen, returned, represents, wrote⟩
    · have after : state.serve (.alloc layout) = { state with pointers := 0 :: state.pointers } := by
        rw [serve, refused, afterAlloc, if_pos rfl]
      have entry : state.ledger.step (.alloc layout) =
          { state.ledger with pointers := 0 :: state.pointers } :=
        Ledger.step_alloc_none adjusted none
      exact .of_served after entry tracks.represents rfl rfl rfl rfl (Wrote.refl _ _)
    · obtain ⟨member, inside⟩ := Ledger.chosen_inside adjusted chosen
      have entry : state.ledger.step (.alloc layout) =
          state.ledger.handOut layout node (place size align node) :=
        Ledger.step_alloc_some adjusted chosen
      have nonzero : (place size align node).start ≠ 0 :=
        (Block.served_place adjusted tracks.represents.toWellFormed member inside).nonzero
      have long := facts.long
      unfold nodeSize at long
      have gaps := gapsAround_eq tracks (by omega) member inside
      have after : state.serve (.alloc layout) =
          { heap := heap
            live := ⟨(place size align node).start, layout⟩ :: state.live
            added := state.added
            lost := FirstFit.lost nodeSize node (place size align node) ++ state.lost
            pointers := (place size align node).start :: state.pointers } := by
        rw [serve, returned, afterAlloc, if_neg nonzero, Block.region_place adjusted, gaps]
      exact .of_served after entry represents rfl rfl rfl rfl wrote

/-- A write into a held block leaves the books as they are. -/
theorem write_accounted {address : Nat} {byte : BitVec 8}
    (permitted : state.Permitted (.write address byte)) : Accounted state (.write address byte) := by
  obtain ⟨block, held, inside⟩ := permitted
  have represents : Represents (state.serve (.write address byte)).heap state.heap.nodes := by
    have sentinel : (state.serve (.write address byte)).heap.head = state.heap.head := rfl
    refine tracks.represents.congr sentinel ?_
    rintro target ⟨node, free, within⟩
    have different : target ≠ address := by
      rintro rfl
      exact Set.disjoint_left.mp (tracks.balanced.live_apart held free) inside within
    exact Function.update_of_ne different _ _
  exact ⟨ledger_eq represents rfl rfl rfl rfl, represents, fun call => by cases call⟩

/-- Every permitted request is accounted for. -/
theorem serve_accounted {request : HeapRequest} (permitted : state.Permitted request) :
    Accounted state request := by
  cases request with
  | add region =>
    obtain ⟨heap, added, represents, wrote⟩ := add_ok tracks permitted
    have after : state.serve (.add region) =
        { state with heap := heap, added := region :: state.added } := by
      rw [serve, added, afterAdd]
    exact .of_served after rfl represents rfl rfl rfl rfl wrote
  | alloc layout => exact alloc_accounted tracks permitted
  | dealloc block =>
    obtain ⟨heap, freed, represents, wrote⟩ := dealloc_ok tracks permitted
    have after : state.serve (.dealloc block) =
        { state with heap := heap, live := state.live.erase block } := by
      rw [serve, freed, afterDealloc]
    exact .of_served after rfl represents rfl rfl rfl rfl wrote
  | write address byte => exact write_accounted tracks permitted

/-- Every permitted request keeps the list well linked and the books balanced. -/
theorem tracks_serve {request : HeapRequest} (permitted : state.Permitted request) :
    Tracks (state.serve request) := by
  have accounted := serve_accounted tracks permitted
  have nodes : (state.serve request).heap.nodes = (state.ledger.step request).nodes :=
    accounted.represents.nodes_eq
  refine ⟨nodes ▸ accounted.represents, ?_⟩
  rw [accounted.books]
  exact tracks.balanced.step tracks.represents.toWellFormed permitted

/-- Only a layout that cannot be padded makes an allocation panic. -/
theorem alloc_panic {layout : Layout} (permitted : state.Permitted (.alloc layout))
    {panic : HeapPanic} (stopped : state.heap.alloc layout = .error panic) :
    panic = .layoutOverflow := by
  cases adjusted : adjustedSizeAlign layout with
  | error refused =>
    have same : refused = panic := by
      rw [LinkedListAllocator.alloc, adjusted] at stopped
      exact Except.error.inj stopped
    rw [← same]
    unfold adjustedSizeAlign at adjusted
    simp only at adjusted
    split at adjusted
    · exact (Except.error.inj adjusted).symm
    · cases adjusted
  | ok pair =>
    obtain ⟨size, align⟩ := pair
    rcases alloc_spec tracks.represents adjusted
        (fun node looked => permitted size align adjusted node (tried_subset _ _ _ looked)) with
      ⟨_, returned⟩ | ⟨_, _, _, returned, _⟩ <;>
    · rw [returned] at stopped
      cases stopped

/-- What an allocation loses adjoins the block it hands out. -/
theorem alloc_lost {layout : Layout} (permitted : state.Permitted (.alloc layout)) :
    (state.serve (.alloc layout)).lost = state.lost ∨
    ∃ block ahead behind, (state.serve (.alloc layout)).live = block :: state.live ∧
      block.layout = layout ∧
      (state.serve (.alloc layout)).lost = ahead ++ behind ++ state.lost ∧
      ahead.length ≤ 1 ∧ behind.length ≤ 1 ∧
      (∀ gap ∈ ahead, gap.stop = block.region.start ∧ gap.size < nodeSize) ∧
      (∀ gap ∈ behind, gap.start = block.region.stop ∧ gap.size < nodeSize) := by
  have books := (alloc_accounted tracks permitted).books
  have lostIs : (state.serve (.alloc layout)).lost = (state.ledger.step (.alloc layout)).lost :=
    congrArg Ledger.lost books
  have liveIs : (state.serve (.alloc layout)).live = (state.ledger.step (.alloc layout)).live :=
    congrArg Ledger.live books
  rw [lostIs, liveIs]
  rcases state.ledger.step_alloc layout with
    same | null | ⟨size, align, node, adjusted, chosen, out⟩
  · exact .inl (by rw [same]; rfl)
  · exact .inl (by rw [null]; rfl)
  · obtain ⟨_, inside⟩ := Ledger.chosen_inside adjusted chosen
    rw [out]
    refine .inr ⟨⟨(place size align node).start, layout⟩,
      dropped nodeSize (front node (place size align node)),
      dropped nodeSize (back node (place size align node)), rfl, rfl, rfl, dropped_length _ _,
      dropped_length _ _, ?_, ?_⟩
    · intro gap gone
      obtain ⟨rfl, _, short⟩ := mem_dropped.mp gone
      have lower := inside.lower
      refine ⟨?_, short⟩
      simp only [front, Region.stop, Block.region]
      omega
    · intro gap gone
      obtain ⟨rfl, _, short⟩ := mem_dropped.mp gone
      refine ⟨?_, short⟩
      rw [Block.region, Layout.adjustedSize_eq adjusted]
      rfl

end HeapClients

/-- The region a request adds to the heap for the first time. -/
def HeapRequest.newRegion : HeapRequest → Option Region
  | .add region => some region
  | _ => none

/-- The bytes a request hands to the allocator. -/
def HeapRequest.givenBytes : HeapRequest → Set Nat
  | .add region => region.bytes
  | .dealloc block => block.region.bytes
  | _ => ∅

namespace HeapClients

/-- The books of a new allocator balance. -/
theorem tracks_new (memory : Memory) : Tracks (new memory) := by
  have empty : (new memory).heap.nodes = [] := (represents_new memory).nodes_eq
  refine ⟨empty.symm ▸ represents_new memory, ⟨?_, ?_, ?_⟩⟩
  · rw [Ledger.parts, ledger, empty]
    exact ⟨rfl, List.Pairwise.nil⟩
  · exact fun block held => absurd held List.not_mem_nil
  · exact fun gap gone => absurd gone List.not_mem_nil

/-- The allocator is well linked and its books balance after every run. -/
theorem tracks_run {memory : Memory} {requests : List HeapRequest} {final : HeapClients}
    (run : Run Permitted serve (new memory) requests final) : Tracks final :=
  run.invariant Tracks (fun _ _ tracks permitted => tracks_serve tracks permitted)
    (tracks_new memory)

/-- Every region of the run was added, in order. -/
theorem added_run {start final : HeapClients} {requests : List HeapRequest} (tracks : Tracks start)
    (run : Run Permitted serve start requests final) :
    final.added = (requests.filterMap HeapRequest.newRegion).reverse ++ start.added := by
  induction run with
  | nil state => rfl
  | @cons state final request requests permitted rest inductionHypothesis =>
    have added : (state.serve request).added = (state.ledger.step request).added :=
      congrArg Ledger.added (serve_accounted tracks permitted).books
    rw [inductionHypothesis (tracks_serve tracks permitted), added]
    cases request with
    | add region => simp [HeapRequest.newRegion, Ledger.step, ledger]
    | alloc layout =>
      have kept : (state.ledger.step (.alloc layout)).added = state.added := by
        rcases state.ledger.step_alloc layout with same | null | ⟨_, _, _, _, _, out⟩
        · rw [same]
          rfl
        · rw [null]
          rfl
        · rw [out]
          rfl
      rw [kept, List.filterMap_cons]
      rfl
    | dealloc block => rfl
    | write address byte => rfl

/-- A request leaves nothing free but what was free or is handed in. -/
theorem step_bytes {state : HeapClients} (tracks : Tracks state) {request : HeapRequest} :
    bytes (state.ledger.step request).nodes ⊆ bytes state.heap.nodes ∪ request.givenBytes := by
  cases request with
  | add region =>
    rw [Set.union_comm]
    exact (bytes_insert region state.heap.nodes).subset
  | alloc layout =>
    apply Set.subset_union_of_subset_left
    rcases state.ledger.step_alloc layout with
      same | null | ⟨size, align, node, adjusted, chosen, out⟩
    · rw [same]
      exact Set.Subset.refl _
    · rw [null]
      exact Set.Subset.refl _
    · obtain ⟨member, inside⟩ := Ledger.chosen_inside adjusted chosen
      have cut := carve_partition tracks.represents.sorted tracks.represents.positive member
        inside (show 0 < nodeSize by decide)
      rw [out, cut.covers, bytes_append]
      exact Set.subset_union_left
  | dealloc block =>
    rw [Set.union_comm]
    exact (bytes_insert block.region state.heap.nodes).subset
  | write address byte => exact Set.subset_union_left

/-- Runs over related books stay related, whatever the callers wrote. -/
theorem books_simulated {memory : Memory} {requests : List HeapRequest} {final : HeapClients}
    (run : Run Permitted serve (new memory) requests final) :
    ∃ final', Run Permitted serve (new memory) (requests.filter isCall) final' ∧
      final'.ledger = final.ledger := by
  have simulated : ∃ final', Run Permitted serve (new memory) (requests.filter isCall) final' ∧
      Tracks final ∧ Tracks final' ∧ final'.ledger = final.ledger := by
    refine run.simulated isCall
      (fun state state' => Tracks state ∧ Tracks state' ∧ state'.ledger = state.ledger) ?_ ?_
      (new memory) ⟨tracks_new memory, tracks_new memory, rfl⟩
    · rintro state state' request ⟨tracks, tracks', same⟩ permitted _
      have permitted' : state'.Permitted request := by
        rw [Permitted, same]
        exact permitted
      refine ⟨permitted', tracks_serve tracks permitted, tracks_serve tracks' permitted', ?_⟩
      rw [(serve_accounted tracks' permitted').books, same, (serve_accounted tracks permitted).books]
    · rintro state state' request ⟨tracks, tracks', same⟩ permitted ignored
      refine ⟨tracks_serve tracks permitted, tracks', ?_⟩
      rw [(serve_accounted tracks permitted).books, same]
      cases request with
      | write address byte => rfl
      | _ => cases ignored
  obtain ⟨final', run', _, _, same⟩ := simulated
  exact ⟨final', run', same⟩

/-- A layout of 24 bytes at a 32-byte boundary. -/
def smallLayout : Layout := ⟨24, 32, ⟨5, by decide, rfl⟩, by decide⟩

/-- Add a page that does not start at such a boundary, take a block, write into it
and give it back. -/
def smallRequests : List HeapRequest :=
  [.add ⟨4104, 4088⟩, .alloc smallLayout, .write 4130 7, .dealloc ⟨4128, smallLayout⟩]

/-- The state after the first requests of the small run, over a zeroed memory. -/
def smallState (count : Nat) : HeapClients :=
  (smallRequests.take count).foldl serve (new (fun _ => 0))

/-- Every request of the small run is permitted. -/
theorem small_run : Run Permitted serve (new (fun _ => 0)) smallRequests (smallState 4) := by
  have held : (smallState 2).live = [⟨4128, smallLayout⟩] := by decide +kernel
  have rounding : ∀ node ∈ (smallState 1).heap.nodes, node.start + 31 < 2 ^ 64 := by decide +kernel
  have adjusted : adjustedSizeAlign smallLayout = .ok (32, 32) := by decide +kernel
  refine .cons ⟨⟨⟨rfl, by decide⟩, show 4104 + 4088 < 2 ^ 64 by decide, by decide⟩,
    by simp [ledger, new]⟩ ?_
  refine .cons ?_ (.cons ⟨⟨4128, smallLayout⟩, ?_, ?_⟩ (.cons ?_ (.nil _)))
  · intro size align served
    rw [adjusted] at served
    cases served
    exact rounding
  · change _ ∈ (smallState 2).live
    rw [held]
    exact List.mem_singleton_self _
  · rw [Block.region, Layout.adjustedSize_eq adjusted, Region.mem_bytes]
    decide
  · change _ ∈ (smallState 2).live
    rw [held]
    exact List.mem_singleton_self _

/-- **The heap partitions what it was given.** After any run, each byte ever added is
in exactly one free block, held block or lost gap, and nothing else is. Held blocks
are off each other and off the free list, aligned as requested and large enough. A
gap is lost only next to a block being handed out, at most one on each side, shorter
than a header. -/
theorem heap_partition {memory : Memory} {requests : List HeapRequest} {final : HeapClients}
    (run : Run Permitted serve (new memory) requests final) :
    final.added = (requests.filterMap HeapRequest.newRegion).reverse ∧
    (∀ byte, byte ∈ bytes final.added ↔
      (final.heap.nodes ++ (final.live.map Block.region ++ final.lost)).countP
        (Region.contains byte) = 1) ∧
    (final.heap.nodes ++ final.live.map Block.region).Pairwise
      (fun left right => Disjoint left.bytes right.bytes) ∧
    (∀ block ∈ final.live, block.ptr % block.layout.align = 0 ∧
      block.layout.size ≤ block.region.size) ∧
    (∀ region, final.Permitted (.add region) → (final.serve (.add region)).lost = final.lost) ∧
    (∀ block, final.Permitted (.dealloc block) →
      (final.serve (.dealloc block)).lost = final.lost) ∧
    ∀ layout, final.Permitted (.alloc layout) →
      (final.serve (.alloc layout)).lost = final.lost ∨
      ∃ block ahead behind, (final.serve (.alloc layout)).live = block :: final.live ∧
        block.layout = layout ∧
        (final.serve (.alloc layout)).lost = ahead ++ behind ++ final.lost ∧
        ahead.length ≤ 1 ∧ behind.length ≤ 1 ∧
        (∀ gap ∈ ahead, gap.stop = block.region.start ∧ gap.size < nodeSize) ∧
        (∀ gap ∈ behind, gap.start = block.region.stop ∧ gap.size < nodeSize) := by
  have tracks := tracks_run run
  have partition : Partition final.added
      (final.heap.nodes ++ (final.live.map Block.region ++ final.lost)) :=
    tracks.balanced.partition
  refine ⟨?_, ?_, ?_, ?_, ?_, ?_, fun layout permitted => alloc_lost tracks permitted⟩
  · rw [added_run (tracks_new memory) run]
    exact List.append_nil _
  · intro byte
    rw [partition.covers]
    constructor
    · exact count_one partition.disjoint byte
    · intro once
      have found : 0 < _ := once ▸ Nat.one_pos
      obtain ⟨region, member, holds⟩ := List.countP_pos_iff.mp found
      exact bytes_of_mem member ((region.contains_iff byte).mp holds)
  · have kept := partition.disjoint
    rw [← List.append_assoc] at kept
    exact (List.pairwise_append.mp kept).1
  · intro block held
    have served := tracks.balanced.served block held
    exact ⟨served.aligned.1, served.enough⟩
  · intro region permitted
    exact congrArg Ledger.lost (serve_accounted tracks permitted).books
  · intro block permitted
    exact congrArg Ledger.lost (serve_accounted tracks permitted).books

/-- The page added in the small run is one free block again at its end. -/
theorem heap_partition_small : (smallState 4).added = [⟨4104, 4088⟩] ∧
    ∀ byte, byte ∈ bytes (smallState 4).added ↔
      ((smallState 4).heap.nodes ++ ((smallState 4).live.map Block.region ++
        (smallState 4).lost)).countP (Region.contains byte) = 1 :=
  ⟨(heap_partition small_run).1, (heap_partition small_run).2.1⟩

/-- While its block is held, the page is free on both sides of it. -/
example : (smallState 2).heap.nodes = [⟨4104, 24⟩, ⟨4160, 4032⟩] := by decide +kernel

/-- **The free list is well formed.** After any run, the links lead from the sentinel
through the decoded blocks to null, each met once, in strictly increasing order with
a gap between neighbours; blocks are aligned and hold a header. No request that a
caller may issue violates an assertion or fails to end. -/
theorem free_list_invariant {memory : Memory} {requests : List HeapRequest} {final : HeapClients}
    (run : Run Permitted serve (new memory) requests final) :
    Segment final.heap .head final.heap.nodes 0 ∧
    final.heap.nodes.Nodup ∧
    final.heap.nodes.Pairwise (fun left right => left.start < right.start) ∧
    (∀ node ∈ final.heap.nodes, node.start % nodeAlign = 0 ∧ nodeSize ≤ node.size) ∧
    final.heap.nodes.Pairwise (fun left right => left.start + left.size < right.start) ∧
    (∀ region, final.Permitted (.add region) →
      ∃ heap, final.heap.addFreeRegion region.start region.size = .ok heap) ∧
    (∀ block, final.Permitted (.dealloc block) →
      ∃ heap, final.heap.dealloc block.ptr block.layout = .ok heap) ∧
    ∀ layout, final.Permitted (.alloc layout) → ∀ panic,
      final.heap.alloc layout = .error panic → panic = .layoutOverflow := by
  have tracks := tracks_run run
  have sorted : final.heap.nodes.Pairwise (fun left right => left.start < right.start) := by
    apply tracks.represents.sorted.imp
    intro left right gap
    unfold Region.stop at gap
    omega
  refine ⟨tracks.represents.linked, ?_, sorted, ?_, tracks.represents.sorted, ?_, ?_, ?_⟩
  · apply sorted.imp
    rintro left right earlier rfl
    exact Nat.lt_irrefl _ earlier
  · intro node member
    obtain ⟨⟨aligned, _⟩, _, long⟩ := tracks.represents.shaped node member
    exact ⟨aligned, long⟩
  · intro region permitted
    obtain ⟨heap, added, _⟩ := add_ok tracks permitted
    exact ⟨heap, added⟩
  · intro block permitted
    obtain ⟨heap, freed, _⟩ := dealloc_ok tracks permitted
    exact ⟨heap, freed⟩
  · exact fun layout permitted panic stopped => alloc_panic tracks permitted stopped

/-- The list of the small run ends and meets no block twice. -/
theorem free_list_small : Segment (smallState 4).heap .head (smallState 4).heap.nodes 0 ∧
    (smallState 4).heap.nodes.Nodup :=
  ⟨(free_list_invariant small_run).1, (free_list_invariant small_run).2.1⟩

/-- **Headers and callers' data never collide.** Dropping the callers' writes from a
run changes no returned pointer and not the decoded list. Every word the allocator
writes lies in memory that was free or is being handed in, and in no block that is
held when the request ends; nothing else of memory changes. -/
theorem client_writes_invisible {memory : Memory} {requests : List HeapRequest}
    {final : HeapClients} (run : Run Permitted serve (new memory) requests final) :
    (∃ quiet, Run Permitted serve (new memory) (requests.filter isCall) quiet ∧
      quiet.pointers = final.pointers ∧ quiet.heap.nodes = final.heap.nodes) ∧
    ∀ request, final.Permitted request → isCall request = true →
      ∃ words, (final.serve request).heap.written = words ++ final.heap.written ∧
        (final.serve request).heap.memory = replay words final.heap.memory ∧
        ∀ word ∈ words,
          Set.Ico word.1 (word.1 + 8) ⊆ bytes final.heap.nodes ∪ request.givenBytes ∧
          ∀ block ∈ (final.serve request).live,
            Disjoint (Set.Ico word.1 (word.1 + 8)) block.region.bytes := by
  have tracks := tracks_run run
  constructor
  · obtain ⟨quiet, run', same⟩ := books_simulated run
    exact ⟨quiet, run', congrArg Ledger.pointers same, congrArg Ledger.nodes same⟩
  · intro request permitted call
    have accounted := serve_accounted tracks permitted
    have after := tracks_serve tracks permitted
    obtain ⟨words, logged, stored, inside⟩ := accounted.wrote call
    refine ⟨words, logged, stored, ?_⟩
    intro word member
    have free := (inside word member).2
    refine ⟨free.trans (step_bytes tracks), ?_⟩
    intro block held
    rw [Set.disjoint_left]
    intro byte within taken
    obtain ⟨node, listed, here⟩ := free within
    have current : node ∈ (final.serve request).ledger.nodes := by
      rw [accounted.books]
      exact listed
    exact Set.disjoint_left.mp (after.balanced.live_apart held current) taken here

/-- The write in the small run is invisible. -/
theorem client_writes_small :
    ∃ quiet, Run Permitted serve (new (fun _ => 0)) (smallRequests.filter isCall) quiet ∧
      quiet.pointers = (smallState 4).pointers ∧ quiet.heap.nodes = (smallState 4).heap.nodes :=
  (client_writes_invisible small_run).1

end HeapClients

end XyronOS
