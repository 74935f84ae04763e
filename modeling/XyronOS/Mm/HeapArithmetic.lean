import XyronOS.Mm.FreeListAlloc
import XyronOS.Mm.KernelHeap

/-!
# Address arithmetic of an allocation

The search rounds the start of each free block up to the requested alignment in
wrapping arithmetic. Heap addresses are near the top of the address space, so a
large alignment carries out of 64 bits; the rounded address is then zero, the check
that follows accepts it, and a block that holds nothing of the request is taken
off the list.

`visited` lists the blocks at which the search does its arithmetic. Two statements
about an allocation are made here: its result is null with nothing changed or an
aligned block inside a free one, and none of its sums and differences wraps. They
hold exactly when no block up to the first that can hold the request is so high
that adding the alignment to its address leaves 64 bits.
-/

namespace XyronOS

open ByteMemory WordBits Regions FirstFit

namespace LinkedListAllocator

/-- The addresses of the blocks the search looks at. -/
def visited (heap : LinkedListAllocator) (size align : Nat) : Nat → NodePtr → Nat → List Nat
  | 0, _, _ => []
  | fuel + 1, prev, current =>
      if current = 0 then []
      else
        current :: (heap.tryFit size align prev current).elim
          (visited heap size align fuel (.node current) (heap.next (.node current)))
          (fun _ => [])

/-- None of the operations of `align_up` wraps: the sum, and one less than the sum and
than the alignment. -/
structure ExactRounding (addr align : Nat) : Prop where
  sum : wrappingAdd addr align = addr + align
  beforeSum : 1 ≤ wrappingAdd addr align
  mask : 1 ≤ align

/-- Neither of the two gaps wraps. -/
structure ExactGaps (fit : Fit) : Prop where
  front : fit.regionStart ≤ fit.allocStart
  back : fit.allocEnd ≤ fit.regionEnd

/-- A sound allocation: its result is right and its arithmetic is exact. -/
structure SoundAlloc (heap : LinkedListAllocator) (nodes : List Region) (layout : Layout)
    (size align : Nat) : Prop where
  result : heap.alloc layout = .ok (0, heap) ∨
    ∃ ptr after, heap.alloc layout = .ok (ptr, after) ∧ ptr % align = 0 ∧
      ptr % layout.align = 0 ∧ ∃ node ∈ nodes, Inside node ⟨ptr, size⟩
  rounding : ∀ current ∈ heap.visited size align walkBound .head heap.head.next,
    ExactRounding current align
  gaps : ∀ fit, heap.findFit size align walkBound .head heap.head.next = some (some fit) →
    ExactGaps fit

variable {heap : LinkedListAllocator} {nodes : List Region} {size align : Nat}

/-- Rounding is exact where adding the alignment stays within 64 bits. -/
theorem exactRounding_iff {addr : Nat} (positive : 0 < align) :
    ExactRounding addr align ↔ addr + align < 2 ^ 64 := by
  constructor
  · intro exact
    have bounded : wrappingAdd addr align < 2 ^ 64 := Nat.mod_lt _ (by decide)
    rw [exact.sum] at bounded
    exact bounded
  · intro fits
    have sum : wrappingAdd addr align = addr + align := wrappingAdd_eq _ _ fits
    exact ⟨sum, by omega, positive⟩

/-- The search rounds exactly at every block it looks at if and only if no block up to
the first that fits is too high. The induction is on the blocks not yet looked at:
where rounding at a block is exact, the search decides there as `fits` does. -/
theorem visited_exact_iff {bits : Nat} (width : bits < 64) (power : align = 2 ^ bits)
    (passed todo : List Region) (linked : Segment heap .head (passed ++ todo) 0)
    (stops : ∀ node ∈ todo, ValidStop node.stop) (fuel : Nat) (enough : todo.length < fuel) :
    (∀ current ∈ heap.visited size align fuel (lastPtr .head passed) (firstAddr todo 0),
      ExactRounding current align) ↔
    ∀ node ∈ tried size align todo, node.start + align < 2 ^ 64 := by
  have positive : 0 < align := power ▸ Nat.two_pow_pos bits
  induction todo generalizing passed fuel with
  | nil =>
    obtain ⟨fuel, rfl⟩ : ∃ rest, fuel = rest + 1 := ⟨fuel - 1, by simp at enough; omega⟩
    have none : heap.visited size align (fuel + 1) (lastPtr .head passed) (firstAddr [] 0) = [] :=
      if_pos rfl
    simp [none, tried]
  | cons node rest inductionHypothesis =>
    obtain ⟨fuel, rfl⟩ : ∃ rest, fuel = rest + 1 := ⟨fuel - 1, by simp at enough; omega⟩
    obtain ⟨_, nonzero, sized, tail⟩ := ((segment_append _ _ _ _).mp linked).2
    have first : firstAddr (node :: rest) 0 = node.start := rfl
    have link : heap.next (.node node.start) = firstAddr rest 0 := tail.next_eq
    have further := inductionHypothesis (passed ++ [node]) (by simpa using linked)
      (fun other present => stops other (List.mem_cons_of_mem _ present)) fuel (by
        simp only [List.length_cons] at enough
        omega)
    rw [first, visited, if_neg nonzero, List.forall_mem_cons, exactRounding_iff positive]
    have tries : (∀ other ∈ tried size align (node :: rest), other.start + align < 2 ^ 64) ↔
        node.start + align < 2 ^ 64 ∧ ∀ other ∈ (if fits size align node then []
          else tried size align rest), other.start + align < 2 ^ 64 := by
      rw [tried, List.forall_mem_cons]
    rw [tries]
    apply and_congr_right
    intro low
    have decided := @tryFit_eq heap size align bits width power node sized
      (stops node List.mem_cons_self) (by omega) passed
    by_cases fitting : fits size align node = true
    · rw [decided, if_pos fitting, if_pos fitting, Option.elim_some]
      simp
    · rw [decided, if_neg fitting, if_neg fitting, Option.elim_none, link]
      rw [lastPtr_snoc] at further
      exact further

/-- An allocation from a well-linked list is sound if and only if no block up to the
first that can hold the request is so high that its address plus the alignment
leaves 64 bits. -/
theorem alloc_sound_iff {layout : Layout} (represents : Represents heap nodes)
    (adjusted : adjustedSizeAlign layout = .ok (size, align)) :
    SoundAlloc heap nodes layout size align ↔
      ∀ node ∈ tried size align nodes, node.start + align < 2 ^ 64 := by
  have facts := adjustedSizeAlign_ok adjusted
  obtain ⟨bits, width, atLeast, power⟩ := facts.power
  have positive : 0 < align := power ▸ Nat.two_pow_pos bits
  have started : heap.head.next = firstAddr nodes 0 := represents.linked.next_eq
  have stops : ∀ node ∈ nodes, ValidStop node.stop :=
    fun node member => (represents.shaped node member).2.1
  have rounding := @visited_exact_iff heap size align bits width power [] nodes represents.linked
    stops walkBound represents.toWellFormed.length_lt
  rw [lastPtr_nil, ← started] at rounding
  constructor
  · intro sound
    exact rounding.mp sound.rounding
  · intro low
    have noWrap : ∀ node ∈ tried size align nodes, node.start + (align - 1) < 2 ^ 64 := by
      intro node looked
      have bound := low node looked
      omega
    have searched := @findFit_eq heap size align bits width power [] nodes represents.linked stops
      noWrap walkBound represents.toWellFormed.length_lt
    rw [lastPtr_nil, ← started] at searched
    refine ⟨?_, rounding.mpr low, ?_⟩
    · rcases alloc_spec represents adjusted noWrap with
        ⟨_, refused⟩ | ⟨node, after, chosen, returned, _, _⟩
      · exact .inl refused
      · obtain ⟨member, inside⟩ := choose_some positive chosen
        have multiple : (place size align node).start % align = 0 := roundUp_aligned _ _
        refine .inr ⟨_, after, returned, multiple, ?_, node, member, inside⟩
        exact Nat.mod_eq_zero_of_dvd ((Nat.dvd_of_mod_eq_zero facts.multiple).trans
          (Nat.dvd_of_mod_eq_zero multiple))
    · intro fit found
      rcases searched with ⟨_, ended⟩ | ⟨skipped, node, rest, same, chosen, stopped⟩
      · rw [ended] at found
        cases found
      · rw [stopped] at found
        obtain rfl := Option.some.inj (Option.some.inj found)
        obtain ⟨_, inside⟩ := choose_some positive chosen
        exact ⟨inside.lower, inside.upper⟩

/-- A heap of one growth: sixteen pages at the start of the heap region. -/
def oneGrowth : LinkedListAllocator :=
  ⟨⟨0, heapRegionStart⟩, store64 (fun _ => 0) heapRegionStart 0x10000, []⟩

/-- The list of that heap. -/
theorem oneGrowth_represents : Represents oneGrowth [⟨heapRegionStart, 0x10000⟩] := by
  refine ⟨⟨List.pairwise_singleton _ _, ?_⟩, rfl, by decide, ?_, ?_⟩
  · intro node member
    rw [List.mem_singleton.mp member]
    exact ⟨⟨rfl, by decide⟩, (by decide : 0xFFFF880000000000 + 0x10000 < 2 ^ 64), by decide⟩
  · decide +kernel
  · change oneGrowth.next (.node heapRegionStart) = 0
    decide +kernel

/-- A page at a page boundary. -/
def pageLayout : Layout := ⟨4096, 4096, ⟨12, by decide, rfl⟩, by decide⟩

/-- An ordinary request is served soundly from that heap. -/
theorem alloc_sound_page :
    SoundAlloc oneGrowth [⟨heapRegionStart, 0x10000⟩] pageLayout 4096 4096 := by
  apply (alloc_sound_iff oneGrowth_represents (by decide +kernel)).mpr
  decide +kernel

/-- Sixteen bytes at a boundary of 128 TiB. -/
def wideLayout : Layout := ⟨16, 2 ^ 47, ⟨47, by decide, rfl⟩, by decide⟩

/-- What a caller sees of an allocation: the pointer and the free list. -/
def observed : Except HeapPanic (Nat × LinkedListAllocator) → Option (Nat × List Region)
  | .ok (ptr, heap) => some (ptr, heap.nodes)
  | .error _ => none

/-- At a boundary of 128 TiB the rounding wraps to zero: the null pointer is returned,
and two overlapping blocks, most of them outside the heap, replace the free one. -/
theorem alloc_unsound_wide :
    Represents oneGrowth [⟨heapRegionStart, 0x10000⟩] ∧
      heapRegionStart + 0x10000 ≤ heapRegionEnd ∧
      adjustedSizeAlign wideLayout = .ok (2 ^ 47, 2 ^ 47) ∧
      observed (oneGrowth.alloc wideLayout) =
        some (0, [⟨2 ^ 47, heapRegionStart + 0x10000 - 2 ^ 47⟩,
          ⟨heapRegionStart, 2 ^ 64 - heapRegionStart⟩]) ∧
      ¬ SoundAlloc oneGrowth [⟨heapRegionStart, 0x10000⟩] wideLayout (2 ^ 47) (2 ^ 47) := by
  refine ⟨oneGrowth_represents, by decide, by decide +kernel, by decide +kernel, ?_⟩
  intro sound
  have visits : heapRegionStart ∈
      oneGrowth.visited (2 ^ 47) (2 ^ 47) walkBound .head oneGrowth.head.next := by decide +kernel
  have exact := (exactRounding_iff (by decide)).mp (sound.rounding _ visits)
  exact absurd exact (by decide)

end LinkedListAllocator

end XyronOS
