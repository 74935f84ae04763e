import XyronOS.Mm.FreeListRefinement

/-!
# Allocation is first fit

The search compares machine words; as long as no rounding wraps, it stops exactly
where the first fit on the represented list does. Taking the found block is then
three insertions' worth of the refinement already established: the unlinked list,
with the front put back, with the back put back. The result is the library's
`carve`.
-/

namespace XyronOS

open ByteMemory WordBits Regions FirstFit

/-- What the adjusted size and alignment of a layout satisfy. -/
structure Adjusted (layout : Layout) (size align : Nat) : Prop where
  power : ∃ bits < 64, 3 ≤ bits ∧ align = 2 ^ bits
  multiple : align % layout.align = 0
  long : nodeSize ≤ size
  enough : layout.size ≤ size
  whole : size % nodeAlign = 0
  bounded : size ≤ isizeMax

/-- A power of two divides a larger one. -/
theorem pow_two_mod {small large : Nat} (ordered : small ≤ large) : 2 ^ large % 2 ^ small = 0 :=
  Nat.mod_eq_zero_of_dvd (Nat.pow_dvd_pow 2 ordered)

/-- A layout that can be padded is served with an adjusted size and alignment. -/
theorem adjustedSizeAlign_ok {layout : Layout} {size align : Nat}
    (adjusted : adjustedSizeAlign layout = .ok (size, align)) : Adjusted layout size align := by
  unfold adjustedSizeAlign at adjusted
  simp only at adjusted
  split at adjusted
  · cases adjusted
  rename_i bounded
  simp only [Except.ok.injEq, Prod.mk.injEq] at adjusted
  obtain ⟨rfl, rfl⟩ := adjusted
  obtain ⟨bits, width, power⟩ := layout.power
  have larger : ∃ more < 64, 3 ≤ more ∧ bits ≤ more ∧ max layout.align nodeAlign = 2 ^ more := by
    rw [power, show nodeAlign = 2 ^ 3 from rfl]
    by_cases small : bits ≤ 3
    · exact ⟨3, by decide, Nat.le_refl _, small,
        Nat.max_eq_right (Nat.pow_le_pow_right (by decide) small)⟩
    · exact ⟨bits, width, by omega, Nat.le_refl _,
        Nat.max_eq_left (Nat.pow_le_pow_right (by decide) (by omega))⟩
  obtain ⟨more, moreWidth, atLeast, ordered, same⟩ := larger
  have positive : 0 < max layout.align nodeAlign := by
    rw [same]
    exact Nat.two_pow_pos more
  refine ⟨⟨more, moreWidth, atLeast, same⟩, ?_, Nat.le_max_right _ _, ?_, ?_, ?_⟩
  · rw [same, power]
    exact pow_two_mod ordered
  · exact (le_roundUp _ _ positive).trans (Nat.le_max_left _ _)
  · have padded : roundUp layout.size (max layout.align nodeAlign) % nodeAlign = 0 := by
      have rounded := roundUp_aligned layout.size (max layout.align nodeAlign)
      rw [same] at rounded ⊢
      exact Nat.mod_eq_zero_of_dvd ((Nat.pow_dvd_pow 2 atLeast).trans
        (Nat.dvd_of_mod_eq_zero rounded))
    unfold nodeAlign nodeSize at *
    omega
  · unfold isizeMax nodeSize at *
    omega

/-- Without a wrap, the masked rounding is rounding up. -/
theorem alignUp_eq {addr align bits : Nat} (width : bits < 64) (power : align = 2 ^ bits)
    (fits : addr + (align - 1) < 2 ^ 64) : alignUp addr align = roundUp addr align := by
  have positive : 0 < align := power ▸ Nat.two_pow_pos bits
  have small : align < 2 ^ 64 := power ▸ Nat.pow_lt_pow_right (by decide) width
  have sum : wrappingSub (wrappingAdd addr align) 1 = addr + (align - 1) := by
    unfold wrappingSub wrappingAdd
    omega
  have mask : wrappingSub align 1 = align - 1 := wrappingSub_eq align 1 positive small
  rw [alignUp, sum, mask, power]
  exact masked_roundUp addr bits (by omega) (power ▸ fits)

namespace LinkedListAllocator

variable {heap : LinkedListAllocator} {nodes : List Region} {size align : Nat}

/-- What the search reports at a block that fits, after some that do not. -/
def fitAt (size align : Nat) (before : List Region) (node : Region) : Fit where
  prev := lastPtr .head before
  regionStart := node.start
  regionEnd := node.stop
  allocStart := (place size align node).start
  allocEnd := (place size align node).stop

/-- The search decides at one block as `fits` does. -/
theorem tryFit_eq {bits : Nat} (width : bits < 64) (power : align = 2 ^ bits) {node : Region}
    (sized : heap.size (pointer node) = node.size) (stops : ValidStop node.stop)
    (noWrap : node.start + (align - 1) < 2 ^ 64) (before : List Region) :
    heap.tryFit size align (lastPtr .head before) node.start =
      if fits size align node then some (fitAt size align before node) else none := by
  have regionEnd : wrappingAdd node.start (heap.size (.node node.start)) = node.stop := by
    rw [show heap.size (.node node.start) = node.size from sized]
    exact wrappingAdd_eq _ _ stops
  have allocStart : alignUp node.start align = roundUp node.start align :=
    alignUp_eq width power noWrap
  have decides : fits size align node = true ↔ roundUp node.start align + size ≤ node.stop := by
    rw [fits, decide_eq_true_iff]
    rfl
  unfold ValidStop at stops
  simp only [tryFit, regionEnd, allocStart, checkedAdd]
  by_cases inside : roundUp node.start align + size ≤ node.stop
  · rw [if_pos (decides.mpr inside), if_pos (by omega), Option.bind_some, if_pos inside]
    rfl
  · rw [if_neg (fun fitting => inside (decides.mp fitting))]
    by_cases small : roundUp node.start align + size < 2 ^ 64
    · rw [if_pos small, Option.bind_some, if_neg inside]
    · rw [if_neg small, Option.bind_none]

/-- The search stops at the first block that fits, or at the end of the list. The
induction is on the blocks not yet looked at. -/
theorem findFit_eq {bits : Nat} (width : bits < 64) (power : align = 2 ^ bits)
    (passed todo : List Region) (linked : Segment heap .head (passed ++ todo) 0)
    (stops : ∀ node ∈ todo, ValidStop node.stop)
    (noWrap : ∀ node ∈ tried size align todo, node.start + (align - 1) < 2 ^ 64) (fuel : Nat)
    (enough : todo.length < fuel) :
    (choose size align todo = none ∧
      heap.findFit size align fuel (lastPtr .head passed) (firstAddr todo 0) = some none) ∨
    ∃ skipped node rest, todo = skipped ++ node :: rest ∧ choose size align todo = some node ∧
      heap.findFit size align fuel (lastPtr .head passed) (firstAddr todo 0) =
        some (some (fitAt size align (passed ++ skipped) node)) := by
  induction todo generalizing passed fuel with
  | nil =>
    obtain ⟨fuel, rfl⟩ : ∃ rest, fuel = rest + 1 := ⟨fuel - 1, by simp at enough; omega⟩
    refine .inl ⟨rfl, ?_⟩
    exact if_pos rfl
  | cons node rest inductionHypothesis =>
    obtain ⟨fuel, rfl⟩ : ∃ rest, fuel = rest + 1 := ⟨fuel - 1, by simp at enough; omega⟩
    obtain ⟨_, nonzero, sized, tail⟩ := ((segment_append _ _ _ _).mp linked).2
    have decided := @tryFit_eq heap size align bits width power node sized
      (stops node List.mem_cons_self) (noWrap node (head_tried ..)) passed
    have first : firstAddr (node :: rest) 0 = node.start := rfl
    by_cases fitting : fits size align node = true
    · rw [if_pos fitting] at decided
      refine .inr ⟨[], node, rest, rfl, ?_, ?_⟩
      · simp [choose, fitting]
      · rw [findFit, first, if_neg nonzero, decided, List.append_nil, Option.elim_some]
    · rw [if_neg fitting] at decided
      have onward : heap.findFit size align (fuel + 1) (lastPtr .head passed)
          (firstAddr (node :: rest) 0) =
          heap.findFit size align fuel (lastPtr .head (passed ++ [node])) (firstAddr rest 0) := by
        have link : heap.next (.node node.start) = firstAddr rest 0 := tail.next_eq
        rw [findFit, first, if_neg nonzero, decided, lastPtr_snoc, ← link, Option.elim_none]
        rfl
      have further := inductionHypothesis (passed ++ [node]) (by simpa using linked)
        (fun other present => stops other (List.mem_cons_of_mem _ present))
        (fun other present => noWrap other (by
          rw [tried_pass fitting]
          exact List.mem_cons_of_mem node present)) fuel (by
          simp only [List.length_cons] at enough
          omega)
      have same : choose size align (node :: rest) = choose size align rest := by
        simp [choose, fitting]
      rw [onward, same]
      rcases further with ⟨none, ended⟩ | ⟨skipped, chosen, remaining, rfl, found, fit⟩
      · exact .inl ⟨none, ended⟩
      · exact .inr ⟨node :: skipped, chosen, remaining, rfl, found, by simpa using fit⟩

/-- Putting a gap back is the library's `keep`. -/
theorem returnGap_spec (represents : Represents heap nodes) (gap : Region)
    (holdable : nodeSize ≤ gap.size → Region.Holdable gap)
    (disjoint : ∀ old ∈ nodes, Disjoint gap.bytes old.bytes) :
    ∃ after, heap.returnGap gap.start gap.size = .ok after ∧
      Represents after (keep nodeSize gap nodes) ∧
      Wrote (bytes (keep nodeSize gap nodes)) heap after := by
  unfold returnGap keep
  by_cases long : nodeSize ≤ gap.size
  · obtain ⟨after, added, kept, wrote⟩ := addFreeRegion_spec represents (holdable long) disjoint
    exact ⟨after, by rw [if_pos long, added], by rwa [if_pos long], by rwa [if_pos long]⟩
  · exact ⟨heap, by rw [if_neg long], by rwa [if_neg long], Wrote.refl _ _⟩

/-- Unlinking a block represents the list without it. -/
theorem unlink_spec {before rest : List Region} {node : Region}
    (represents : Represents heap (before ++ node :: rest)) :
    Represents (heap.setNext (lastPtr .head before) (heap.next (pointer node))) (before ++ rest) ∧
      Wrote (bytes (before ++ rest)) heap
        (heap.setNext (lastPtr .head before) (heap.next (pointer node))) := by
  obtain ⟨leading, _, _, _, following⟩ := (segment_append _ _ _ _).mp represents.linked
  obtain ⟨prevAfter, prevBefore⟩ := last_apart represents
  have shorter : (before ++ rest).Sublist (before ++ node :: rest) :=
    (List.Sublist.refl before).append (List.sublist_cons_self node rest)
  have formed : WellFormed (before ++ rest) :=
    ⟨represents.sorted.sublist shorter, fun region member =>
      represents.shaped region (shorter.subset member)⟩
  obtain ⟨linked, sized⟩ := setNext_same heap (lastPtr .head before) (heap.next (pointer node))
    (load64_lt _ _)
  have segment : Segment (heap.setNext (lastPtr .head before) (heap.next (pointer node))) .head
      (before ++ rest) 0 := by
    rw [segment_append]
    constructor
    · apply leading.relink (linked.trans following.next_eq)
      · intro region member
        by_cases last : pointer region = lastPtr .head before
        · rw [last]
          exact sized
        · exact (setNext_apart heap _ (prevBefore region member last)).2
      · intro other known different
        rcases known with rfl | member
        · exact (setNext_apart heap _ (NodePtr.apart_head different.symm)).1
        · obtain ⟨region, present, rfl⟩ := List.mem_map.mp member
          exact (setNext_apart heap _ (prevBefore region present different)).1
      · exact before_nodup represents
    · apply following.transport linked
      intro region member
      exact setNext_apart heap _ (prevAfter region (List.mem_cons_of_mem _ member))
  have unlinked : Represents (heap.setNext (lastPtr .head before) (heap.next (pointer node)))
      (before ++ rest) := ⟨formed, segment⟩
  obtain ⟨aligned, inside⟩ := last_header unlinked
  exact ⟨unlinked, (wrote_setNext heap _ aligned).mono inside⟩

/-- Erasing a block of a well-formed list unlinks it where it stands. -/
theorem erase_inner {before rest : List Region} {node : Region}
    (formed : WellFormed (before ++ node :: rest)) :
    (before ++ node :: rest).erase node = before ++ rest := by
  have absent : node ∉ before := by
    intro present
    have gap := (List.pairwise_append.mp formed.sorted).2.2 node present node List.mem_cons_self
    unfold Region.stop at gap
    omega
  rw [List.erase_append_right _ absent, List.erase_cons_head]

section Gaps

variable {node block : Region} (shaped : Region.Holdable node) (inside : Inside node block)

include shaped inside

/-- The gap in front of a block can be free if it holds a header. -/
theorem front_holdable (long : nodeSize ≤ (front node block).size) :
    Region.Holdable (front node block) := by
  have lower := inside.lower
  have upper := inside.upper
  have stops := shaped.stop
  refine ⟨shaped.start, ?_, long⟩
  simp only [ValidStop, Region.stop, front] at *
  omega

/-- The gap behind a block of whole header units can be free if it holds a header. -/
theorem back_holdable (aligned : block.start % nodeAlign = 0) (whole : block.size % nodeAlign = 0)
    (long : nodeSize ≤ (back node block).size) : Region.Holdable (back node block) := by
  have lower := inside.lower
  have upper := inside.upper
  have stops := shaped.stop
  have nonzero := shaped.start.2
  refine ⟨⟨?_, ?_⟩, ?_, long⟩
  · simp only [nodeAlign, Region.stop, back] at *
    omega
  · simp only [Region.stop, back] at *
    omega
  · simp only [ValidStop, Region.stop, back] at *
    omega

end Gaps

/-- Taking an aligned block out of a listed one carves it: the listed one is unlinked
and both gaps are put back. -/
theorem takeFit_spec {before rest : List Region} {node block : Region}
    (represents : Represents heap (before ++ node :: rest)) (inside : Inside node block)
    (aligned : block.start % nodeAlign = 0) (whole : block.size % nodeAlign = 0) :
    ∃ after, heap.takeFit ⟨lastPtr .head before, node.start, node.stop, block.start, block.stop⟩ =
        .ok (block.start, after) ∧
      Represents after (carve nodeSize (before ++ node :: rest) node block) ∧
      Wrote (bytes (carve nodeSize (before ++ node :: rest) node block)) heap after := by
  have member : node ∈ before ++ node :: rest := by simp
  have shape := represents.shaped node member
  have holdable : Region.Holdable node := ⟨shape.1, shape.2.1, shape.2.2⟩
  have erased := erase_inner represents.toWellFormed
  have frontApart := front_apart represents.sorted member inside
  obtain ⟨_, _, backApart⟩ := front_kept represents.sorted represents.positive member inside
    (show 0 < nodeSize by decide)
  rw [erased] at frontApart backApart
  obtain ⟨unlinked, wroteUnlink⟩ := unlink_spec represents
  obtain ⟨middle, frontKept, representsFront, wroteFront⟩ :=
    returnGap_spec unlinked (front node block) (front_holdable holdable inside) frontApart
  obtain ⟨final, backKept, representsBack, wroteBack⟩ :=
    returnGap_spec representsFront (back node block) (back_holdable holdable inside aligned whole)
      backApart
  have frontSize : wrappingSub block.start node.start = (front node block).size := by
    apply wrappingSub_eq _ _ inside.lower
    have upper := inside.upper
    have stops := holdable.stop
    unfold ValidStop Region.stop at *
    omega
  have backSize : wrappingSub node.stop block.stop = (back node block).size :=
    wrappingSub_eq _ _ inside.upper holdable.stop
  rw [carve, erased]
  refine ⟨final, ?_, representsBack, ?_⟩
  · have frontStored : (heap.setNext (lastPtr .head before)
        (heap.next (.node node.start))).returnGap node.start (front node block).size =
        .ok middle := frontKept
    have backStored : middle.returnGap block.stop (back node block).size = .ok final := backKept
    simp only [takeFit, frontSize, backSize, frontStored, backStored, bind, Except.bind, pure,
      Except.pure]
  · have grown := bytes_keep_superset nodeSize (back node block)
      (keep nodeSize (front node block) (before ++ rest))
    exact ((wroteUnlink.mono (bytes_keep_superset _ _ _)).trans wroteFront).mono grown
      |>.trans wroteBack

/-- Every outcome of `alloc` for a layout that can be padded, where rounding does not
wrap at any block looked at: no block fits and nothing changes, or the first one that
fits is carved. -/
theorem alloc_spec {layout : Layout} (represents : Represents heap nodes)
    (adjusted : adjustedSizeAlign layout = .ok (size, align))
    (noWrap : ∀ node ∈ tried size align nodes, node.start + (align - 1) < 2 ^ 64) :
    (choose size align nodes = none ∧ heap.alloc layout = .ok (0, heap)) ∨
    ∃ node after, choose size align nodes = some node ∧
      heap.alloc layout = .ok ((place size align node).start, after) ∧
      Represents after (carve nodeSize nodes node (place size align node)) ∧
      Wrote (bytes (carve nodeSize nodes node (place size align node))) heap after := by
  have facts := adjustedSizeAlign_ok adjusted
  obtain ⟨bits, width, atLeast, power⟩ := facts.power
  have positive : 0 < align := power ▸ Nat.two_pow_pos bits
  have started : heap.head.next = firstAddr nodes 0 := represents.linked.next_eq
  have searched := @findFit_eq heap size align bits width power [] nodes represents.linked
    (fun node member => (represents.shaped node member).2.1) noWrap walkBound
    represents.toWellFormed.length_lt
  rcases searched with
    ⟨none, ended⟩ | ⟨before, node, rest, rfl, chosen, found⟩
  · left
    refine ⟨none, ?_⟩
    simp only [lastPtr_nil, ← started] at ended
    simp [alloc, adjusted, ended, bind, Except.bind, pure, Except.pure]
  · right
    have inside := (choose_some positive chosen).2
    have aligned : (place size align node).start % nodeAlign = 0 := by
      have rounded : (place size align node).start % align = 0 := roundUp_aligned _ _
      rw [power] at rounded
      exact Nat.mod_eq_zero_of_dvd ((Nat.pow_dvd_pow 2 atLeast).trans
        (Nat.dvd_of_mod_eq_zero (power ▸ rounded)))
    obtain ⟨after, taken, carved, wrote⟩ := takeFit_spec represents inside aligned facts.whole
    refine ⟨node, after, chosen, ?_, carved, wrote⟩
    simp only [lastPtr_nil, List.nil_append, ← started] at found
    have fit : heap.takeFit (fitAt size align before node) =
        .ok ((place size align node).start, after) := taken
    simp [alloc, adjusted, found, fit, bind, Except.bind]

section Outcome

variable {layout : Layout} (represents : Represents heap nodes)
  (adjusted : adjustedSizeAlign layout = .ok (size, align))
  (noWrap : ∀ node ∈ tried size align nodes, node.start + (align - 1) < 2 ^ 64)

include represents adjusted noWrap

/-- If no block fits, the answer is null and nothing changes. -/
theorem alloc_none (none : choose size align nodes = none) :
    heap.alloc layout = .ok (0, heap) := by
  rcases alloc_spec represents adjusted noWrap with ⟨_, refused⟩ | ⟨node, _, chosen, _⟩
  · exact refused
  · rw [none] at chosen
    cases chosen

/-- The first block that fits is carved. -/
theorem alloc_some {node : Region} (chosen : choose size align nodes = some node) :
    ∃ after, heap.alloc layout = .ok ((place size align node).start, after) ∧
      Represents after (carve nodeSize nodes node (place size align node)) := by
  rcases alloc_spec represents adjusted noWrap with
    ⟨none, _⟩ | ⟨other, after, found, returned, carved, _⟩
  · rw [chosen] at none
    cases none
  · rw [chosen] at found
    obtain rfl := Option.some.inj found
    exact ⟨after, returned, carved⟩

/-- A pointer that is not null is where the request was placed in the first block that
fits. -/
theorem alloc_placed {ptr : Nat} {after : LinkedListAllocator}
    (allocated : heap.alloc layout = .ok (ptr, after)) (nonzero : ptr ≠ 0) :
    ∃ node, choose size align nodes = some node ∧ ptr = (place size align node).start ∧
      Represents after (carve nodeSize nodes node (place size align node)) := by
  cases chosen : choose size align nodes with
  | none =>
    rw [alloc_none represents adjusted noWrap chosen] at allocated
    cases allocated
    exact absurd rfl nonzero
  | some node =>
    obtain ⟨carved, returned, representsAfter⟩ := alloc_some represents adjusted noWrap chosen
    rw [returned] at allocated
    cases allocated
    exact ⟨node, rfl, rfl, representsAfter⟩

end Outcome

end LinkedListAllocator

end XyronOS
