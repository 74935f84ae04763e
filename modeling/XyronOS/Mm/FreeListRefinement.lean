import XyronOS.Mm.FreeListLinks

/-!
# The free list implements a list of regions

The in-band list represents a coalesced list of regions. Adding a region is the
library's insertion and allocating is its first fit, on that list: the walk stops
where the insertion does, the four ways of splicing are the joins on either side,
and the search stops at the region the library chooses.

Each operation is specified once: it does not panic or diverge, it represents the
abstract result, and the words it writes lie in memory that is free afterwards.
-/

namespace XyronOS

open ByteMemory WordBits Regions FirstFit

/-- Where a free block may start. -/
def ValidStart (start : Nat) : Prop := start % nodeAlign = 0 ∧ start ≠ 0

/-- Where a free block may end: its end is an address. -/
def ValidStop (stop : Nat) : Prop := stop < 2 ^ 64

/-- A block that can be free: aligned, not null, not wrapping, with room for a
header. -/
structure Region.Holdable (region : Region) : Prop where
  start : ValidStart region.start
  stop : ValidStop region.stop
  size : nodeSize ≤ region.size

/-- A list the allocator may hold: coalesced, of holdable blocks. -/
structure WellFormed (nodes : List Region) : Prop where
  sorted : Coalesced nodes
  shaped : Shaped ValidStart ValidStop nodeSize nodes

namespace WellFormed

variable {nodes : List Region}

theorem nil : WellFormed [] := ⟨List.Pairwise.nil, by simp [Shaped]⟩

theorem positive (formed : WellFormed nodes) : ∀ node ∈ nodes, 0 < node.size := by
  intro node member
  have long := (formed.shaped node member).2.2
  unfold nodeSize at long
  omega

/-- Two blocks of the list are the same or their headers are apart. -/
theorem apart (formed : WellFormed nodes) {left right : Region} (first : left ∈ nodes)
    (second : right ∈ nodes) (different : left ≠ right) :
    left.start + left.size ≤ right.start ∨ right.start + right.size ≤ left.start := by
  have disjoint : Disjoint left.bytes right.bytes :=
    disjoint_of_mem formed.sorted.disjoint first second different
  exact Region.apart_of_disjoint left right disjoint (formed.positive left first)
    (formed.positive right second)

/-- Inserting a disjoint block keeps the list well formed. -/
theorem insert (formed : WellFormed nodes) {region : Region} (holdable : Region.Holdable region)
    (disjoint : ∀ old ∈ nodes, Disjoint region.bytes old.bytes) :
    WellFormed (Regions.insert region nodes) where
  sorted := by
    have long := holdable.size
    unfold nodeSize at long
    exact insert_coalesced region nodes formed.sorted (by omega) formed.positive disjoint
  shaped := by
    apply insert_shaped
    intro result member
    rcases List.mem_cons.mp member with rfl | old
    · exact ⟨holdable.start, holdable.stop, holdable.size⟩
    · exact formed.shaped result old

/-- Blocks of sixteen bytes leave room for fewer blocks than addresses. -/
theorem length_lt (formed : WellFormed nodes) : nodes.length < LinkedListAllocator.walkBound := by
  have room : ∀ (rest : List Region) (lower : Nat), Coalesced rest →
      Shaped ValidStart ValidStop nodeSize rest → (∀ node ∈ rest, lower ≤ node.start) →
      lower ≤ 2 ^ 64 - 1 → lower + rest.length ≤ 2 ^ 64 - 1 := by
    intro rest
    induction rest with
    | nil => intro lower _ _ _ small; simpa using small
    | cons node rest inductionHypothesis =>
      intro lower sorted shaped above _
      obtain ⟨beyond, restSorted⟩ := List.pairwise_cons.mp sorted
      obtain ⟨_, stops, long⟩ := shaped node List.mem_cons_self
      have here := above node List.mem_cons_self
      have tail := inductionHypothesis (node.stop) restSorted
        (fun other present => shaped other (List.mem_cons_of_mem _ present))
        (fun other present => Nat.le_of_lt (beyond other present))
        (by unfold ValidStop at stops; omega)
      simp only [List.length_cons]
      unfold Region.stop at tail
      unfold nodeSize at long
      omega
  have bound := room nodes 0 formed.sorted formed.shaped (fun _ _ => Nat.zero_le _) (by decide)
  unfold LinkedListAllocator.walkBound
  omega

end WellFormed

namespace LinkedListAllocator

/-- The links from the sentinel run through a well-formed list and end. -/
structure Represents (heap : LinkedListAllocator) (nodes : List Region) : Prop
    extends WellFormed nodes where
  linked : Segment heap .head nodes 0

variable {heap : LinkedListAllocator} {nodes before after : List Region} {region : Region}

/-- A represented list is the decoded one. -/
theorem Represents.nodes_eq (represents : Represents heap nodes) : heap.nodes = nodes :=
  represents.linked.decode_eq walkBound represents.toWellFormed.length_lt

/-- A list is represented as long as the sentinel and the free bytes are the same. -/
theorem Represents.congr {after : LinkedListAllocator} (represents : Represents heap nodes)
    (head : after.head = heap.head)
    (same : ∀ byte ∈ bytes nodes, after.memory byte = heap.memory byte) :
    Represents after nodes := by
  refine ⟨represents.toWellFormed, represents.linked.transport ?_ ?_⟩
  · simp only [next, head]
  · intro node member
    have long := (represents.shaped node member).2.2
    unfold nodeSize at long
    constructor <;>
    · apply load64_congr
      intro byte lower upper
      apply same byte (bytes_of_mem member _)
      rw [Region.mem_bytes]
      omega

/-- The new allocator represents the empty list. -/
theorem represents_new (memory : Memory) : Represents (new memory) [] := ⟨WellFormed.nil, rfl⟩

/-- The walk stops at the last block below the address. The induction is on the
blocks still to be passed; those passed are carried along. -/
theorem walk_eq {addr : Nat} (passed todo after : List Region)
    (linked : Segment heap .head (passed ++ (todo ++ after)) 0)
    (below : ∀ node ∈ todo, node.start < addr) (above : ∀ node ∈ after, addr ≤ node.start)
    (fuel : Nat) (enough : todo.length < fuel) :
    heap.walk addr fuel (lastPtr .head passed) = some (lastPtr .head (passed ++ todo)) := by
  induction todo generalizing passed fuel with
  | nil =>
    obtain ⟨fuel, rfl⟩ : ∃ rest, fuel = rest + 1 := ⟨fuel - 1, by simp at enough; omega⟩
    have tail := ((segment_append _ _ _ _).mp linked).2
    have link := tail.next_eq
    rw [walk, if_neg, List.append_nil]
    rw [link]
    cases after with
    | nil => simp [firstAddr]
    | cons node rest =>
      have later := above node List.mem_cons_self
      simp only [List.nil_append, firstAddr, List.head?_cons, Option.map_some, Option.getD_some]
      omega
  | cons node rest inductionHypothesis =>
    obtain ⟨fuel, rfl⟩ : ∃ rest, fuel = rest + 1 := ⟨fuel - 1, by simp at enough; omega⟩
    have tail := ((segment_append _ _ _ _).mp linked).2
    obtain ⟨link, nonzero, _, _⟩ := tail
    have further := inductionHypothesis (passed ++ [node]) (by simpa using linked)
      (fun other present => below other (List.mem_cons_of_mem _ present)) fuel (by
        simp only [List.length_cons] at enough
        omega)
    rw [walk, link, if_pos ⟨nonzero, below node List.mem_cons_self⟩]
    simpa [pointer] using further

/-- The blocks of a coalesced list that start below an address come first. -/
theorem split_at (sorted : Coalesced nodes) (addr : Nat) :
    ∃ before after, nodes = before ++ after ∧ (∀ node ∈ before, node.start < addr) ∧
      ∀ node ∈ after, addr ≤ node.start := by
  induction nodes with
  | nil => exact ⟨[], [], rfl, by simp, by simp⟩
  | cons first rest inductionHypothesis =>
    obtain ⟨beyond, restSorted⟩ := List.pairwise_cons.mp sorted
    by_cases below : first.start < addr
    · obtain ⟨before, after, rfl, lower, upper⟩ := inductionHypothesis restSorted
      refine ⟨first :: before, after, rfl, ?_, upper⟩
      intro node member
      rcases List.mem_cons.mp member with rfl | old
      · exact below
      · exact lower node old
    · refine ⟨[], first :: rest, rfl, by simp, ?_⟩
      intro node member
      rcases List.mem_cons.mp member with rfl | later
      · exact Nat.not_lt.mp below
      · have gap := beyond node later
        unfold Region.stop at gap
        omega

/-- Pointers to different blocks of a well-formed list are apart. -/
theorem pointer_apart (formed : WellFormed nodes) {left right : Region} (first : left ∈ nodes)
    (second : right ∈ nodes) (different : left ≠ right) : (pointer left).Apart (pointer right) := by
  have separate := formed.apart first second different
  have leftSize := (formed.shaped left first).2.2
  have rightSize := (formed.shaped right second).2.2
  simp only [pointer, NodePtr.Apart]
  omega

/-- The pointers of a well-formed list are distinct. -/
theorem pointers_nodup (formed : WellFormed nodes) : (.head :: nodes.map pointer).Nodup := by
  refine List.nodup_cons.mpr ⟨by simp [pointer], ?_⟩
  rw [List.nodup_map_iff_inj_on]
  · intro left first right second same
    by_contra different
    exact (pointer_apart formed first second different).ne same
  · apply List.Pairwise.imp _ formed.sorted
    rintro left right gap rfl
    simp only [Region.stop] at gap
    omega

/-- Give a block its header and let the pointer before it lead there. -/
def linkBlock (heap : LinkedListAllocator) (prev : NodePtr) (block : Region) (next : Nat) :
    LinkedListAllocator :=
  ((heap.setSize (pointer block) block.size).setNext (pointer block) next).setNext prev block.start

/-- Linking a block after a stretch of the list, in front of another. The new
header is apart from every other, and the pointer before it is the last of the
first stretch. -/
theorem linkBlock_segment {tail : List Region} {stop : Nat} {block : Region}
    (leading : Segment heap .head before stop) {from' : NodePtr}
    (following : Segment heap from' tail 0)
    (blockApart : ∀ node ∈ before ++ tail, (pointer block).Apart (pointer node))
    (prevApart : ∀ node ∈ tail, (lastPtr .head before).Apart (pointer node))
    (inner : ∀ node ∈ before, pointer node ≠ lastPtr .head before →
      (lastPtr .head before).Apart (pointer node))
    (distinct : (NodePtr.head :: before.map pointer).Nodup) (nonzero : block.start ≠ 0)
    (startFits : block.start < 2 ^ 64) (sizeFits : block.size < 2 ^ 64)
    (nextFits : heap.next from' < 2 ^ 64) :
    Segment (heap.linkBlock (lastPtr .head before) block (heap.next from')) .head
      (before ++ block :: tail) 0 := by
  generalize prevIs : lastPtr .head before = prev at *
  have blockHead : (pointer block).Apart .head := trivial
  have prevBlock : prev.Apart (pointer block) := by
    rcases lastPtr_cases .head before with ⟨_, here⟩ | ⟨init, last, whole, here⟩
    · rw [← prevIs, here]
      trivial
    · rw [← prevIs, here]
      apply (blockApart last _).symm
      rw [whole]
      simp
  have header := setHeader_same heap (pointer block) sizeFits nextFits
  have closed := setNext_same (heap.setHeader (pointer block) block.size (heap.next from')) prev
    block.start startFits
  have kept (other : NodePtr) (apart : (pointer block).Apart other) :=
    setHeader_apart heap block.size (heap.next from') apart
  have outer (other : NodePtr) (apart : prev.Apart other) :=
    setNext_apart (heap.setHeader (pointer block) block.size (heap.next from')) block.start apart
  rw [segment_append, prevIs]
  refine ⟨?_, closed.1, nonzero, ?_, ?_⟩
  · apply leading.relink
    · rw [prevIs]
      exact closed.1
    · intro node member
      have keptNode := (kept _ (blockApart node (List.mem_append_left _ member))).2
      by_cases last : pointer node = prev
      · rw [last] at keptNode ⊢
        exact closed.2.trans keptNode
      · exact (outer _ (inner node member last)).2.trans keptNode
    · intro other known different
      rw [prevIs] at different
      rcases known with rfl | member
      · exact (outer _ (NodePtr.apart_head different.symm)).1.trans (kept _ blockHead).1
      · obtain ⟨node, present, rfl⟩ := List.mem_map.mp member
        exact (outer _ (inner node present different)).1.trans
          (kept _ (blockApart node (List.mem_append_left _ present))).1
    · exact distinct
  · exact (outer _ prevBlock).2.trans header.2
  · apply following.transport
    · exact (outer _ prevBlock).1.trans header.1
    · intro node member
      obtain ⟨sameNext, sameSize⟩ := outer _ (prevApart node member)
      obtain ⟨sameNext', sameSize'⟩ := kept _ (blockApart node (List.mem_append_right _ member))
      exact ⟨sameNext.trans sameNext', sameSize.trans sameSize'⟩

/-- Replacing the header of one block and what follows it, and nothing in front. -/
theorem grown_segment {heap' : LinkedListAllocator} {init tail : List Region} {last : Region}
    {size : Nat} (leading : Segment heap .head init last.start)
    (first : heap'.next .head = heap.next .head)
    (same : ∀ node ∈ init, heap'.next (pointer node) = heap.next (pointer node) ∧
      heap'.size (pointer node) = heap.size (pointer node))
    (nonzero : last.start ≠ 0) (sized : heap'.size (pointer last) = size)
    (following : Segment heap' (pointer last) tail 0) :
    Segment heap' .head (init ++ ⟨last.start, size⟩ :: tail) 0 := by
  have carried : Segment heap' .head init last.start := leading.transport first same
  rw [segment_append]
  exact ⟨carried, carried.last_link, nonzero, sized, following⟩

section Splice

variable (represents : Represents heap (before ++ after)) (holdable : Region.Holdable region)
  (disjoint : ∀ old ∈ before ++ after, Disjoint region.bytes old.bytes)

include represents holdable disjoint

/-- A disjoint block lies on one side of each block of the list. -/
theorem sides {node : Region} (member : node ∈ before ++ after) :
    region.start + region.size ≤ node.start ∨ node.start + node.size ≤ region.start := by
  have long := holdable.size
  unfold nodeSize at long
  exact Region.apart_of_disjoint region node (disjoint node member) (by omega)
    (represents.positive node member)

/-- The header of a disjoint block is apart from those of the list. -/
theorem block_apart {node : Region} (member : node ∈ before ++ after) :
    (pointer region).Apart (pointer node) := by
  have separate := sides represents holdable disjoint member
  have long := holdable.size
  have nodeLong := (represents.shaped node member).2.2
  simp only [pointer, NodePtr.Apart]
  omega

omit holdable disjoint in
/-- The last pointer of the first part is apart from the other pointers. -/
theorem last_apart :
    (∀ node ∈ after, (lastPtr .head before).Apart (pointer node)) ∧
      ∀ node ∈ before, pointer node ≠ lastPtr .head before →
        (lastPtr .head before).Apart (pointer node) := by
  rcases lastPtr_cases .head before with ⟨rfl, here⟩ | ⟨init, last, rfl, here⟩
  · exact ⟨fun _ _ => trivial, by simp⟩
  · have lastMember : last ∈ init ++ [last] := by simp
    rw [here]
    constructor
    · intro node member
      apply pointer_apart represents.toWellFormed (List.mem_append_left _ lastMember)
        (List.mem_append_right _ member)
      rintro rfl
      have gap := (List.pairwise_append.mp represents.sorted).2.2 last lastMember last member
      simp only [Region.stop] at gap
      omega
    · intro node member different
      apply pointer_apart represents.toWellFormed (List.mem_append_left _ lastMember)
        (List.mem_append_left _ member)
      rintro rfl
      exact different rfl

omit disjoint holdable in
/-- The first part's pointers are distinct. -/
theorem before_nodup : (NodePtr.head :: before.map pointer).Nodup := by
  have whole := pointers_nodup represents.toWellFormed
  rw [List.map_append, ← List.cons_append] at whole
  exact whole.of_append_left

omit disjoint holdable in
/-- The pointer before the gap is aligned, and its header is free memory. -/
theorem last_header :
    (lastPtr .head before).Aligned ∧
      (lastPtr .head before).headerBytes ⊆ bytes (before ++ after) := by
  rcases lastPtr_cases .head before with ⟨rfl, here⟩ | ⟨init, last, rfl, here⟩
  · exact ⟨trivial, Set.empty_subset _⟩
  · have member : last ∈ init ++ [last] ++ after := by simp
    obtain ⟨⟨aligned, _⟩, _, long⟩ := represents.shaped last member
    rw [here]
    exact ⟨aligned, (headerBytes_subset long).trans (bytes_of_mem member)⟩

omit represents disjoint in
/-- The header of an added block is aligned and inside the block. -/
theorem block_header : (pointer region).Aligned ∧ (pointer region).headerBytes ⊆ region.bytes :=
  ⟨holdable.start.1, headerBytes_subset holdable.size⟩

omit disjoint in
/-- Linking a block writes its header and the link before it. -/
theorem wrote_linkBlock (size next : Nat) :
    Wrote (bytes (before ++ after) ∪ region.bytes) heap
      (heap.linkBlock (lastPtr .head before) ⟨region.start, size⟩ next) := by
  obtain ⟨aligned, inside⟩ := block_header holdable
  obtain ⟨prevAligned, prevInside⟩ := last_header represents
  have header := wrote_setHeader heap size next aligned
  have link := wrote_setNext (heap.setHeader (pointer region) size next) region.start prevAligned
  exact (header.mono (inside.trans Set.subset_union_right)).trans
    (link.mono (prevInside.trans Set.subset_union_left))

/-- Without a merge the new block is linked between the two parts. -/
theorem splice_alone (separate : heap.endsAt region.start (lastPtr .head before) = false)
    (beyond : region.stop ≠ firstAddr after 0) :
    Segment (heap.splice (lastPtr .head before) region.start region.size) .head
        (before ++ region :: after) 0 ∧
      Wrote (bytes (before ++ after) ∪ region.bytes) heap
        (heap.splice (lastPtr .head before) region.start region.size) := by
  obtain ⟨leading, following⟩ := (segment_append _ _ _ _).mp represents.linked
  obtain ⟨prevAfter, prevBefore⟩ := last_apart represents
  have stops : region.start + region.size < 2 ^ 64 := holdable.stop
  have unmerged : ¬ (heap.next (lastPtr .head before) ≠ 0 ∧
      wrappingAdd region.start region.size = heap.next (lastPtr .head before)) := by
    rw [following.next_eq, wrappingAdd_eq _ _ stops]
    exact fun merged => beyond merged.2
  have nextFits : heap.next (lastPtr .head before) < 2 ^ 64 := by
    rw [following.next_eq]
    cases after with
    | nil => exact Nat.two_pow_pos 64
    | cons next rest =>
      obtain ⟨_, nextStop, _⟩ := represents.shaped next (by simp)
      exact Nat.lt_of_le_of_lt (Nat.le_add_right _ _) nextStop
  have shape : heap.splice (lastPtr .head before) region.start region.size =
      heap.linkBlock (lastPtr .head before) region (heap.next (lastPtr .head before)) := by
    simp only [splice, separate, decide_eq_false unmerged]
    rfl
  rw [shape]
  refine ⟨?_, wrote_linkBlock represents holdable _ _⟩
  exact linkBlock_segment leading following
    (fun node member => block_apart represents holdable disjoint member) prevAfter prevBefore
    (before_nodup represents) holdable.start.2 (by omega) (by omega) nextFits

end Splice

section Ahead

variable {next : Region} {rest : List Region}
  (represents : Represents heap (before ++ next :: rest)) (holdable : Region.Holdable region)
  (disjoint : ∀ old ∈ before ++ next :: rest, Disjoint region.bytes old.bytes)

include represents holdable disjoint

/-- A merge on the right alone links a block of both sizes in the place of the next. -/
theorem splice_ahead_joined
    (separate : heap.endsAt region.start (lastPtr .head before) = false)
    (touching : region.stop = next.start) :
    Segment (heap.splice (lastPtr .head before) region.start region.size) .head
        (before ++ ⟨region.start, region.size + next.size⟩ :: rest) 0 ∧
      Wrote (bytes (before ++ next :: rest) ∪ region.bytes) heap
        (heap.splice (lastPtr .head before) region.start region.size) := by
  obtain ⟨leading, nextIs, nextNonzero, nextSize, tail⟩ :=
    (segment_append _ _ _ _).mp represents.linked
  obtain ⟨prevAfter, prevBefore⟩ := last_apart represents
  obtain ⟨_, nextStop, _⟩ := represents.shaped next (by simp)
  have nextBound : next.start + next.size < 2 ^ 64 := nextStop
  have regionEnds : region.start + region.size = next.start := touching
  have merged : heap.next (lastPtr .head before) ≠ 0 ∧
      wrappingAdd region.start region.size = heap.next (lastPtr .head before) := by
    rw [nextIs, wrappingAdd_eq _ _ (by omega)]
    exact ⟨nextNonzero, touching⟩
  have sum : wrappingAdd region.size (heap.size (.node (heap.next (lastPtr .head before)))) =
      region.size + next.size := by
    rw [nextIs, show heap.size (.node next.start) = next.size from nextSize]
    exact wrappingAdd_eq _ _ (by omega)
  have nextKept : (heap.setSize (.node region.start) (region.size + next.size)).next
      (.node (heap.next (lastPtr .head before))) = heap.next (pointer next) := by
    rw [nextIs]
    exact (setSize_apart heap _ (block_apart represents holdable disjoint (by simp))).1
  have shape : heap.splice (lastPtr .head before) region.start region.size =
      heap.linkBlock (lastPtr .head before) ⟨region.start, region.size + next.size⟩
        (heap.next (pointer next)) := by
    simp only [splice, separate, decide_eq_true merged, sum, nextKept]
    rfl
  rw [shape]
  refine ⟨?_, wrote_linkBlock represents holdable _ _⟩
  apply linkBlock_segment leading tail
  · intro node present
    apply block_apart represents holdable disjoint
    rcases List.mem_append.mp present with early | late
    · exact List.mem_append_left _ early
    · exact List.mem_append_right _ (List.mem_cons_of_mem _ late)
  · exact fun node present => prevAfter node (List.mem_cons_of_mem _ present)
  · exact prevBefore
  · exact before_nodup represents
  · exact holdable.start.2
  · exact Nat.lt_of_le_of_lt (Nat.le_add_right _ _) holdable.stop
  · simp only
    omega
  · exact load64_lt _ _

end Ahead

/-- Splicing without a merge on the left is a forward join behind the first part. -/
theorem splice_ahead (represents : Represents heap (before ++ after))
    (holdable : Region.Holdable region)
    (disjoint : ∀ old ∈ before ++ after, Disjoint region.bytes old.bytes)
    (separate : heap.endsAt region.start (lastPtr .head before) = false) :
    Segment (heap.splice (lastPtr .head before) region.start region.size) .head
        (before ++ joinForward region after) 0 ∧
      Wrote (bytes (before ++ after) ∪ region.bytes) heap
        (heap.splice (lastPtr .head before) region.start region.size) := by
  cases after with
  | nil =>
    apply splice_alone represents holdable disjoint separate
    have nonzero := holdable.start.2
    simp only [Region.stop, firstAddr, List.head?_nil, Option.map_none, Option.getD_none]
    omega
  | cons next rest =>
    by_cases touching : region.stop = next.start
    · simp only [joinForward, touching, if_true]
      exact splice_ahead_joined represents holdable disjoint separate touching
    · simp only [joinForward, touching, if_false]
      exact splice_alone represents holdable disjoint separate touching

section Behind

variable {init : List Region} {last : Region}

/-- The pointer to a block of the list is apart from those before and after it. -/
theorem inner_apart (represents : Represents heap (init ++ last :: after)) :
    (∀ node ∈ init, (pointer last).Apart (pointer node)) ∧
      ∀ node ∈ after, (pointer last).Apart (pointer node) := by
  have member : last ∈ init ++ last :: after := by simp
  obtain ⟨_, tailSorted, ordered⟩ := List.pairwise_append.mp represents.sorted
  constructor
  · intro node present
    apply pointer_apart represents.toWellFormed member (by simp [present])
    rintro rfl
    have gap := ordered last present last List.mem_cons_self
    simp only [Region.stop] at gap
    omega
  · intro node present
    apply pointer_apart represents.toWellFormed member (by simp [present])
    rintro rfl
    have gap := (List.pairwise_cons.mp tailSorted).1 last present
    simp only [Region.stop] at gap
    omega

/-- The header of a block of the list is free memory. -/
theorem inner_header (represents : Represents heap (init ++ last :: after)) :
    (pointer last).Aligned ∧ (pointer last).headerBytes ⊆ bytes (init ++ last :: after) := by
  have member : last ∈ init ++ last :: after := by simp
  obtain ⟨⟨aligned, _⟩, _, long⟩ := represents.shaped last member
  exact ⟨aligned, (headerBytes_subset long).trans (bytes_of_mem member)⟩

/-- A block that ends where the region starts is seen to do so. -/
theorem endsAt_behind (represents : Represents heap (init ++ last :: after))
    (touching : last.stop = region.start) : heap.endsAt region.start (pointer last) = true := by
  obtain ⟨_, lastStop, _⟩ := represents.shaped last (by simp)
  obtain ⟨_, _, _, lastSize, _⟩ := (segment_append _ _ _ _).mp represents.linked
  have size : heap.size (.node last.start) = last.size := lastSize
  simp only [endsAt, pointer, size, decide_eq_true_eq]
  rw [wrappingAdd_eq _ _ lastStop]
  exact touching

/-- A merge on the left alone grows the block before the gap. -/
theorem splice_behind_alone (represents : Represents heap (init ++ last :: after))
    (holdable : Region.Holdable region) (touching : last.stop = region.start)
    (separate : region.stop ≠ firstAddr after 0) :
    Segment (heap.splice (pointer last) region.start region.size) .head
        (init ++ ⟨last.start, last.size + region.size⟩ :: after) 0 ∧
      Wrote (bytes (init ++ last :: after)) heap
        (heap.splice (pointer last) region.start region.size) := by
  obtain ⟨⟨_, nonzero⟩, _, _⟩ := represents.shaped last (by simp)
  obtain ⟨leading, _, _, lastSize, following⟩ := (segment_append _ _ _ _).mp represents.linked
  obtain ⟨early, late⟩ := inner_apart represents
  obtain ⟨aligned, inside⟩ := inner_header represents
  have ends := endsAt_behind represents touching
  have stops : region.start + region.size < 2 ^ 64 := holdable.stop
  have small : last.size + region.size < 2 ^ 64 := by
    unfold Region.stop at touching
    omega
  have unmerged : ¬ (heap.next (pointer last) ≠ 0 ∧
      wrappingAdd region.start region.size = heap.next (pointer last)) := by
    rw [following.next_eq, wrappingAdd_eq _ _ stops]
    exact fun merged => separate merged.2
  have shape : heap.splice (pointer last) region.start region.size =
      heap.setSize (pointer last) (last.size + region.size) := by
    have sum : wrappingAdd (heap.size (pointer last)) region.size = last.size + region.size := by
      rw [lastSize, wrappingAdd_eq _ _ small]
    simp only [splice, ends, decide_eq_false unmerged, sum]
  obtain ⟨sized, linked⟩ := setSize_same heap (pointer last) (last.size + region.size) small
  rw [shape]
  refine ⟨?_, (wrote_setSize heap _ aligned).mono inside⟩
  apply grown_segment leading (setSize_apart heap _ (NodePtr.apart_head (by simp [pointer]))).1 _
    nonzero sized
  · exact following.transport linked fun node present => setSize_apart heap _ (late node present)
  · exact fun node present => setSize_apart heap _ (early node present)

/-- A merge on both sides gives the block before the gap the size of all three and the
link of the block behind it. -/
theorem splice_behind_joined {next : Region} {rest : List Region}
    (represents : Represents heap (init ++ last :: next :: rest))
    (touching : last.stop = region.start) (forward : region.stop = next.start) :
    Segment (heap.splice (pointer last) region.start region.size) .head
        (init ++ ⟨last.start, last.size + (region.size + next.size)⟩ :: rest) 0 ∧
      Wrote (bytes (init ++ last :: next :: rest)) heap
        (heap.splice (pointer last) region.start region.size) := by
  obtain ⟨⟨_, nonzero⟩, _, _⟩ := represents.shaped last (by simp)
  obtain ⟨⟨_, nextNonzero⟩, nextStop, _⟩ := represents.shaped next (by simp)
  obtain ⟨leading, _, _, lastSize, nextLink, _, nextSize, tail⟩ :=
    (segment_append _ _ _ _).mp represents.linked
  obtain ⟨early, late⟩ := inner_apart represents
  obtain ⟨aligned, inside⟩ := inner_header represents
  have ends := endsAt_behind represents touching
  have nextBound : next.start + next.size < 2 ^ 64 := nextStop
  have regionEnds : region.start + region.size = next.start := forward
  have lastEnds : last.start + last.size = region.start := touching
  have whole : last.size + (region.size + next.size) < 2 ^ 64 := by omega
  have merged : heap.next (pointer last) ≠ 0 ∧
      wrappingAdd region.start region.size = heap.next (pointer last) := by
    rw [nextLink, wrappingAdd_eq _ _ (by omega)]
    exact ⟨nextNonzero, forward⟩
  have sum : wrappingAdd (heap.size (pointer last))
      (wrappingAdd region.size (heap.size (.node (heap.next (pointer last))))) =
      last.size + (region.size + next.size) := by
    rw [nextLink, show heap.size (.node next.start) = next.size from nextSize, lastSize,
      wrappingAdd_eq region.size _ (by omega), wrappingAdd_eq _ _ whole]
  have nextKept : (heap.setSize (pointer last) (last.size + (region.size + next.size))).next
      (.node (heap.next (pointer last))) = heap.next (pointer next) := by
    rw [nextLink]
    exact (setSize_apart heap _ (late next List.mem_cons_self)).1
  have shape : heap.splice (pointer last) region.start region.size =
      heap.setHeader (pointer last) (last.size + (region.size + next.size))
        (heap.next (pointer next)) := by
    simp only [splice, ends, decide_eq_true merged, sum, nextKept, setHeader]
  obtain ⟨linked, sized⟩ := setHeader_same heap (pointer last) whole
    (show heap.next (pointer next) < 2 ^ 64 from load64_lt _ _)
  have kept (other : NodePtr) (apart : (pointer last).Apart other) :=
    setHeader_apart heap (last.size + (region.size + next.size)) (heap.next (pointer next)) apart
  rw [shape]
  refine ⟨?_, (wrote_setHeader heap _ _ aligned).mono inside⟩
  apply grown_segment leading (kept _ (NodePtr.apart_head (by simp [pointer]))).1 _ nonzero sized
  · exact tail.transport linked fun node present => kept _ (late node (List.mem_cons_of_mem _ present))
  · exact fun node present => kept _ (early node present)

/-- Splicing with a merge on the left grows the last block of the first part and
joins it forward. -/
theorem splice_behind (represents : Represents heap (init ++ last :: after))
    (holdable : Region.Holdable region) (touching : last.stop = region.start) :
    Segment (heap.splice (pointer last) region.start region.size) .head
        (init ++ joinForward ⟨last.start, last.size + region.size⟩ after) 0 ∧
      Wrote (bytes (init ++ last :: after)) heap
        (heap.splice (pointer last) region.start region.size) := by
  have stop : (⟨last.start, last.size + region.size⟩ : Region).stop = region.stop := by
    simp only [Region.stop] at touching ⊢
    omega
  cases after with
  | nil =>
    apply splice_behind_alone represents holdable touching
    have nonzero := holdable.start.2
    simp only [Region.stop, firstAddr, List.head?_nil, Option.map_none, Option.getD_none]
    omega
  | cons next rest =>
    by_cases forward : region.stop = next.start
    · simp only [joinForward, stop, forward, if_true, Nat.add_assoc]
      exact splice_behind_joined represents touching forward
    · simp only [joinForward, stop, forward, if_false]
      exact splice_behind_alone represents holdable touching forward

end Behind

/-- Either no block before the gap ends at its address, and the last pointer is seen
not to, or the last block does. -/
theorem gap_cases {addr : Nat} (represents : Represents heap (before ++ after))
    (below : ∀ node ∈ before, node.start < addr) :
    (heap.endsAt addr (lastPtr .head before) = false ∧ ∀ node ∈ before, node.stop ≠ addr) ∨
      ∃ init last, before = init ++ [last] ∧ last.stop = addr := by
  rcases lastPtr_cases .head before with ⟨rfl, here⟩ | ⟨init, last, rfl, here⟩
  · exact .inl ⟨rfl, by simp⟩
  · by_cases touching : last.stop = addr
    · exact .inr ⟨init, last, rfl, touching⟩
    · obtain ⟨_, lastStop, _⟩ := represents.shaped last (by simp)
      have linked := represents.linked
      rw [List.append_assoc, segment_append] at linked
      have lastSize : heap.size (.node last.start) = last.size := linked.2.2.2.1
      left
      constructor
      · rw [here]
        simp only [endsAt, pointer, lastSize, decide_eq_false_iff_not]
        rw [wrappingAdd_eq _ _ lastStop]
        exact touching
      · intro node present
        rcases List.mem_append.mp present with early | final
        · have initSorted := (List.pairwise_append.mp represents.sorted).1
          have gap := (List.pairwise_append.mp initSorted).2.2 node early last (by simp)
          have ordered := below last (by simp)
          omega
        · rw [List.mem_singleton.mp final]
          exact touching

/-- A splice at the last block below a disjoint holdable one is an insertion into the
list. -/
theorem splice_insert (represents : Represents heap (before ++ after))
    (holdable : Region.Holdable region)
    (disjoint : ∀ old ∈ before ++ after, Disjoint region.bytes old.bytes)
    (below : ∀ node ∈ before, node.start < region.start)
    (above : ∀ node ∈ after, region.start ≤ node.start) :
    Segment (heap.splice (lastPtr .head before) region.start region.size) .head
        (Regions.insert region (before ++ after)) 0 ∧
      Wrote (bytes (before ++ after) ∪ region.bytes) heap
        (heap.splice (lastPtr .head before) region.start region.size) := by
  rcases gap_cases represents below with ⟨separate, passed⟩ | ⟨init, last, rfl, touching⟩
  · have inserted : Regions.insert region (before ++ after) = before ++ joinForward region after := by
      rw [insert_skip (fun old present => ⟨below old present, passed old present⟩),
        insert_ahead above]
    rw [inserted]
    exact splice_ahead represents holdable disjoint separate
  · have plain : init ++ [last] ++ after = init ++ last :: after := by simp
    rw [plain] at represents ⊢
    have earlier : last.start < region.start := below last (by simp)
    have inserted : Regions.insert region (init ++ last :: after) =
        init ++ joinForward ⟨last.start, last.size + region.size⟩ after := by
      rw [insert_skip]
      · simp only [Regions.insert, earlier, touching, if_true]
      · intro old present
        have gap := (List.pairwise_append.mp represents.sorted).2.2 old present last
          List.mem_cons_self
        exact ⟨below old (List.mem_append_left _ present), by omega⟩
    obtain ⟨linked, wrote⟩ := splice_behind represents holdable touching
    rw [inserted, lastPtr_snoc]
    exact ⟨linked, wrote.mono Set.subset_union_left⟩

/-- Adding a disjoint holdable block is insertion into the represented list; the
assertions hold and the walk ends. -/
theorem addFreeRegion_spec (represents : Represents heap nodes)
    (holdable : Region.Holdable region)
    (disjoint : ∀ old ∈ nodes, Disjoint region.bytes old.bytes) :
    ∃ after, heap.addFreeRegion region.start region.size = .ok after ∧
      Represents after (Regions.insert region nodes) ∧
      Wrote (bytes (Regions.insert region nodes)) heap after := by
  obtain ⟨before, after, rfl, below, above⟩ := split_at represents.sorted region.start
  have walked : heap.walk region.start walkBound .head = some (lastPtr .head before) := by
    have bound := represents.toWellFormed.length_lt
    have stopped := walk_eq [] before after represents.linked below above walkBound (by
      simp only [List.length_append] at bound
      omega)
    simpa using stopped
  have aligned : region.start % nodeAlign = 0 := holdable.start.1
  have long : ¬ region.size < nodeSize := Nat.not_lt.mpr holdable.size
  obtain ⟨linked, wrote⟩ := splice_insert represents holdable disjoint below above
  refine ⟨heap.splice (lastPtr .head before) region.start region.size, ?_, ?_, ?_⟩
  · simp [addFreeRegion, aligned, long, walked]
  · exact ⟨represents.toWellFormed.insert holdable disjoint, linked⟩
  · rw [bytes_insert, Set.union_comm]
    exact wrote

end LinkedListAllocator

end XyronOS
