import XyronOS.Mm.FreeBytes

/-!
# Allocating and freeing in rounds

A round requests a block and gives it straight back, as the boot self-test does to see
that freed space is reused. The free list after a round is the former one with a
single block trimmed: the gaps next to the request that cannot hold a header are gone.

A trimmed block is chosen again, serves the request at the same address and has
nothing left to lose. So from the second round on the list does not change, and any
number of rounds loses what the first one lost.
-/

namespace XyronOS

open ByteMemory WordBits Regions FirstFit HeapClients Runs

namespace LinkedListAllocator

/-- Request a block and give it back. -/
def churn (heap : LinkedListAllocator) (layout : Layout) :
    Except HeapPanic (Nat × LinkedListAllocator) := do
  let (ptr, heap) ← heap.alloc layout
  let heap ← heap.dealloc ptr layout
  return (ptr, heap)

/-- Repeat the round, collecting the pointers in order. -/
def churnTimes (heap : LinkedListAllocator) (layout : Layout) :
    Nat → Except HeapPanic (List Nat × LinkedListAllocator)
  | 0 => .ok ([], heap)
  | rounds + 1 => do
      let (ptr, heap) ← heap.churn layout
      let (later, heap) ← heap.churnTimes layout rounds
      return (ptr :: later, heap)

variable {heap : LinkedListAllocator} {layout : Layout} {size align : Nat}
  {before after : List Region} {node : Region}

/-- A list with one block trimmed around a request has no empty block. -/
theorem trimmed_positive (sizes : ∀ old ∈ before ++ node :: after, 0 < old.size)
    (long : 0 < size) (inside : Inside node (place size align node)) :
    ∀ old ∈ before ++ trim nodeSize node (place size align node) :: after, 0 < old.size := by
  obtain ⟨lower, upper⟩ := (trim_between nodeSize inside).2
  have wide : 0 < (trim nodeSize node (place size align node)).size := by
    have length : (place size align node).size = size := rfl
    unfold Region.stop at upper
    omega
  intro old present
  rcases List.mem_append.mp present with earlier | rest
  · exact sizes old (List.mem_append_left _ earlier)
  · rcases List.mem_cons.mp rest with rfl | later
    · exact wide
    · exact sizes old (List.mem_append_right _ (List.mem_cons_of_mem _ later))

/-- One round trims the block that serves the request. -/
theorem churn_spec (represents : Represents heap (before ++ node :: after))
    (adjusted : adjustedSizeAlign layout = .ok (size, align))
    (chosen : choose size align (before ++ node :: after) = some node)
    (noWrap : ∀ old ∈ tried size align (before ++ node :: after),
      old.start + (align - 1) < 2 ^ 64) :
    ∃ last, heap.churn layout = .ok ((place size align node).start, last) ∧
      Represents last (before ++ trim nodeSize node (place size align node) :: after) := by
  obtain ⟨long, positive⟩ := (adjustedSizeAlign_ok adjusted).positive
  obtain ⟨member, inside⟩ := choose_some positive chosen
  have region := Block.region_place adjusted node
  have served := Block.served_place adjusted represents.toWellFormed member inside
  have header : 0 < nodeSize := by decide
  have outer := (trim_between nodeSize inside).1
  obtain ⟨between, returned, carved⟩ := alloc_some represents adjusted noWrap chosen
  have apart := carve_apart represents.sorted represents.positive member inside header
  obtain ⟨last, added, grown, _⟩ := addFreeRegion_spec carved (region ▸ served.holdable) apart
  have freed : between.dealloc (place size align node).start layout = .ok last := by
    rw [dealloc, adjusted]
    exact added
  have trimmed : Regions.insert (place size align node)
      (carve nodeSize (before ++ node :: after) node (place size align node)) =
      before ++ trim nodeSize node (place size align node) :: after :=
    coalesced_unique grown.sorted
      (represents.sorted.shrink outer.lower outer.upper) grown.positive
      (trimmed_positive represents.positive long inside)
      (bytes_insert_carve represents.sorted represents.positive inside header)
  refine ⟨last, ?_, trimmed ▸ grown⟩
  rw [churn, returned]
  simp only [bind, Except.bind, freed]
  rfl

/-- A list that a round does not change: the block that serves the request has no gap
next to it that is too short to keep. -/
structure Settled (size align : Nat) (before : List Region) (node : Region) : Prop where
  skipped : ∀ old ∈ before, ¬ fits size align old = true
  fitting : fits size align node = true
  whole : trim nodeSize node (place size align node) = node

/-- Trimming the block that serves a request settles the list, and the request is still
served at the same address. -/
theorem settled_trim (positive : 0 < align) (skipped : ∀ old ∈ before, ¬ fits size align old = true)
    (inside : Inside node (place size align node)) :
    place size align (trim nodeSize node (place size align node)) = place size align node ∧
      Settled size align before (trim nodeSize node (place size align node)) := by
  have same := @place_trim size align node nodeSize positive inside
  refine ⟨same, skipped, ?_, ?_⟩
  · rw [fits, same]
    exact decide_eq_true (trim_between nodeSize inside).2.upper
  · rw [same]
    exact trim_trim nodeSize inside

/-- On a settled list rounding does not wrap: every block looked at starts at or below
the aligned address of the request, which has room for one more alignment. -/
theorem Settled.noWrap (settled : Settled size align before node)
    (represents : Represents heap (before ++ node :: after))
    (adjusted : adjustedSizeAlign layout = .ok (size, align)) :
    ∀ old ∈ tried size align (before ++ node :: after), old.start + (align - 1) < 2 ^ 64 := by
  have facts := adjustedSizeAlign_ok adjusted
  obtain ⟨long, positive⟩ := facts.positive
  obtain ⟨bits, width, _, power⟩ := facts.power
  have chosen : choose size align (before ++ node :: after) = some node :=
    choose_of_split settled.skipped settled.fitting
  obtain ⟨member, inside⟩ := choose_some positive chosen
  have below : (place size align node).start < 2 ^ 64 := by
    have stops : node.stop < 2 ^ 64 := (represents.shaped node member).2.1
    have upper : (place size align node).start + size ≤ node.stop := inside.upper
    omega
  have room : (place size align node).start + align ≤ 2 ^ 64 := by
    have multiple : align ∣ (place size align node).start :=
      Nat.dvd_of_mod_eq_zero (roundUp_aligned _ _)
    have divides : align ∣ 2 ^ 64 := power ▸ Nat.pow_dvd_pow 2 width.le
    exact Nat.le_of_lt_add_of_dvd (Nat.add_lt_add_right below align)
      (Nat.dvd_add multiple (Nat.dvd_refl align)) divides
  rw [tried_of_split settled.skipped settled.fitting]
  intro old looked
  have ahead : old.start ≤ node.start := by
    rcases List.mem_append.mp looked with earlier | here
    · have gap : old.stop < node.start :=
        (List.pairwise_append.mp represents.sorted).2.2 old earlier node List.mem_cons_self
      unfold Region.stop at gap
      omega
    · rw [List.mem_singleton.mp here]
  have lower := inside.lower
  omega

/-- A round leaves a settled list as it is. -/
theorem Settled.churn (settled : Settled size align before node)
    (represents : Represents heap (before ++ node :: after))
    (adjusted : adjustedSizeAlign layout = .ok (size, align)) :
    ∃ last, heap.churn layout = .ok ((place size align node).start, last) ∧
      Represents last (before ++ node :: after) := by
  have chosen : choose size align (before ++ node :: after) = some node :=
    choose_of_split settled.skipped settled.fitting
  obtain ⟨last, done, kept⟩ :=
    churn_spec represents adjusted chosen (settled.noWrap represents adjusted)
  rw [settled.whole] at kept
  exact ⟨last, done, kept⟩

/-- Any number of rounds leaves a settled list as it is and returns one pointer. -/
theorem Settled.churnTimes (settled : Settled size align before node)
    (represents : Represents heap (before ++ node :: after))
    (adjusted : adjustedSizeAlign layout = .ok (size, align)) (rounds : Nat) :
    ∃ last, heap.churnTimes layout rounds =
        .ok (List.replicate rounds (place size align node).start, last) ∧
      Represents last (before ++ node :: after) := by
  induction rounds generalizing heap with
  | zero => exact ⟨heap, rfl, represents⟩
  | succ rounds inductionHypothesis =>
    obtain ⟨once, done, kept⟩ := settled.churn represents adjusted
    obtain ⟨last, later, keptLast⟩ := inductionHypothesis kept
    refine ⟨last, ?_, keptLast⟩
    rw [LinkedListAllocator.churnTimes, done]
    simp only [bind, Except.bind, later]
    rfl

end LinkedListAllocator

open LinkedListAllocator

/-- **Churn does not leak.** From every reachable state, a round with a request that can
be served succeeds, and any further number of rounds returns the same pointer each time
and ends in the same free list. All that is lost are at most one gap on either side of
the block, shorter than a header and inside the block it was cut from. -/
theorem churn_stable {memory : Memory} {requests : List HeapRequest} {final : HeapClients}
    (run : Run Permitted serve (new memory) requests final) {layout : Layout} {size align : Nat}
    (adjusted : adjustedSizeAlign layout = .ok (size, align))
    (noWrap : ∀ node ∈ tried size align final.heap.nodes, node.start + (align - 1) < 2 ^ 64)
    {ptr : Nat} {served : LinkedListAllocator}
    (allocated : final.heap.alloc layout = .ok (ptr, served)) (succeeded : ptr ≠ 0) :
    ∃ once, final.heap.churn layout = .ok (ptr, once) ∧
      (∀ rounds, ∃ last, final.heap.churnTimes layout (rounds + 1) =
        .ok (List.replicate (rounds + 1) ptr, last) ∧ last.nodes = once.nodes) ∧
      ∃ node ∈ final.heap.nodes, Inside node ⟨ptr, size⟩ ∧ ∃ ahead behind : List Region,
        ahead.length ≤ 1 ∧ behind.length ≤ 1 ∧
        (∀ gap ∈ ahead, gap.size < nodeSize ∧ gap.stop = ptr ∧ gap.bytes ⊆ node.bytes) ∧
        (∀ gap ∈ behind, gap.size < nodeSize ∧ gap.start = ptr + size ∧
          gap.bytes ⊆ node.bytes) ∧
        bytes once.nodes = bytes final.heap.nodes \ (bytes ahead ∪ bytes behind) := by
  have represents := (tracks_run run).represents
  have positive := (adjustedSizeAlign_ok adjusted).positive.2
  obtain ⟨node, chosen, pointer, _⟩ := alloc_placed represents adjusted noWrap allocated succeeded
  obtain ⟨member, inside⟩ := Ledger.chosen_inside adjusted chosen
  obtain ⟨before, after, split, skipped⟩ := choose_split chosen
  rw [split] at represents chosen noWrap
  obtain ⟨once, done, trimmed⟩ := churn_spec represents adjusted chosen noWrap
  obtain ⟨same, settled⟩ := settled_trim positive skipped inside
  subst pointer
  refine ⟨once, done, ?_, node, member, inside,
    dropped nodeSize (front node (place size align node)),
    dropped nodeSize (back node (place size align node)), dropped_length _ _, dropped_length _ _,
    fun gap => dropped_front inside, fun gap => dropped_back inside, ?_⟩
  · intro rounds
    obtain ⟨last, later, kept⟩ := settled.churnTimes trimmed adjusted rounds
    rw [same] at later
    refine ⟨last, ?_, kept.nodes_eq.trans trimmed.nodes_eq.symm⟩
    rw [churnTimes, done]
    simp only [bind, Except.bind, later]
    rfl
  · rw [trimmed.nodes_eq, split]
    exact bytes_trimmed nodeSize represents.sorted inside

/-- Add a region that overlaps a boundary of 32 bytes by 8 on either side. -/
def tightState : HeapClients := serve (new (fun _ => 0)) (.add ⟨4120, 48⟩)

/-- The region may be added. -/
theorem tight_run : Run Permitted serve (new (fun _ => 0)) [.add ⟨4120, 48⟩] tightState := by
  refine .cons ⟨⟨⟨rfl, by decide⟩, show 4120 + 48 < 2 ^ 64 by decide, by decide⟩, ?_⟩ (.nil _)
  simp [ledger, HeapClients.new]

/-- Three rounds on that region return one pointer and lose what the first one lost. -/
theorem churn_stable_tight : ∃ once last, tightState.heap.churn smallLayout = .ok (4128, once) ∧
    once.nodes = [⟨4128, 32⟩] ∧
    tightState.heap.churnTimes smallLayout 3 = .ok ([4128, 4128, 4128], last) ∧
    last.nodes = once.nodes := by
  have adjusted : adjustedSizeAlign smallLayout = .ok (32, 32) := by decide +kernel
  have returned : (tightState.heap.alloc smallLayout).map Prod.fst = .ok 4128 := by
    decide +kernel
  have left : (tightState.heap.churn smallLayout).map (fun pair => pair.2.nodes) =
      .ok [⟨4128, 32⟩] := by decide +kernel
  cases allocated : tightState.heap.alloc smallLayout with
  | error panic =>
    rw [allocated] at returned
    cases returned
  | ok pair =>
    rw [allocated] at returned
    obtain ⟨ptr, served⟩ := pair
    have pointer : ptr = 4128 := Except.ok.inj returned
    subst pointer
    obtain ⟨once, done, repeated, _⟩ :=
      churn_stable tight_run adjusted (by decide +kernel) allocated (by decide)
    obtain ⟨last, thrice, same⟩ := repeated 2
    rw [done] at left
    exact ⟨once, last, done, Except.ok.inj left, thrice, same⟩

end XyronOS
