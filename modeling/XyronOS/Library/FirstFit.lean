import XyronOS.Library.Regions
import XyronOS.Library.WordBits

/-!
# First fit on a coalesced list

A request for `size` bytes at an alignment is served by the first free region that
holds an aligned block. The region is taken off the list; what remains of it in
front of the block and behind it goes back on the list if it is at least
`minimum` bytes long and is lost otherwise.

Serving a request partitions the free regions into the new free regions, the
block and the lost gaps. The free list stays coalesced throughout. Giving the block
back leaves the list with one region trimmed by the lost gaps; a trimmed region serves
the same request at the same place and loses nothing more.
-/

namespace XyronOS.FirstFit

open Regions WordBits

/-- The lowest aligned block of a size in a region, whether or not it fits. -/
def place (size alignment : Nat) (node : Region) : Region := ⟨roundUp node.start alignment, size⟩

/-- Whether the aligned block ends inside the region. -/
def fits (size alignment : Nat) (node : Region) : Bool :=
  decide ((place size alignment node).stop ≤ node.stop)

/-- The first region that holds an aligned block. -/
def choose (size alignment : Nat) (nodes : List Region) : Option Region :=
  nodes.find? (fits size alignment)

/-- The regions a search looks at: up to and including the first that fits. -/
def tried (size alignment : Nat) : List Region → List Region
  | [] => []
  | node :: rest => node :: if fits size alignment node then [] else tried size alignment rest

/-- The first region is looked at, whether or not it fits. -/
theorem head_tried (size alignment : Nat) (node : Region) (rest : List Region) :
    node ∈ tried size alignment (node :: rest) := List.mem_cons_self

/-- A region that does not fit is passed. -/
theorem tried_pass {size alignment : Nat} {node : Region} {rest : List Region}
    (small : ¬ fits size alignment node = true) :
    tried size alignment (node :: rest) = node :: tried size alignment rest := by
  rw [tried, if_neg small]

/-- A search looks at regions of the list. -/
theorem tried_subset (size alignment : Nat) (nodes : List Region) :
    tried size alignment nodes ⊆ nodes := by
  induction nodes with
  | nil => exact List.nil_subset _
  | cons node rest inductionHypothesis =>
    unfold tried
    split
    · exact List.cons_subset_cons node (List.nil_subset rest)
    · exact List.cons_subset_cons node inductionHypothesis

/-- What remains of a region in front of a block. -/
def front (node block : Region) : Region := ⟨node.start, block.start - node.start⟩

/-- What remains of a region behind a block. -/
def back (node block : Region) : Region := ⟨block.stop, node.stop - block.stop⟩

/-- Put a gap back on the list if it is long enough. -/
def keep (minimum : Nat) (gap : Region) (nodes : List Region) : List Region :=
  if minimum ≤ gap.size then Regions.insert gap nodes else nodes

/-- A gap that is not put back, unless it is empty. -/
def dropped (minimum : Nat) (gap : Region) : List Region :=
  if 0 < gap.size ∧ gap.size < minimum then [gap] else []

/-- The free list after a block was cut out of one of its regions. -/
def carve (minimum : Nat) (nodes : List Region) (node block : Region) : List Region :=
  keep minimum (back node block) (keep minimum (front node block) (nodes.erase node))

/-- The gaps lost by cutting a block out of a region. -/
def lost (minimum : Nat) (node block : Region) : List Region :=
  dropped minimum (front node block) ++ dropped minimum (back node block)

/-- A block inside a region. -/
structure Inside (node block : Region) : Prop where
  lower : node.start ≤ block.start
  upper : block.stop ≤ node.stop

/-- The chosen region is on the list and holds the block. -/
theorem choose_some {size alignment : Nat} {nodes : List Region} {node : Region}
    (positive : 0 < alignment) (chosen : choose size alignment nodes = some node) :
    node ∈ nodes ∧ Inside node (place size alignment node) := by
  have held := List.find?_some chosen
  exact ⟨List.mem_of_find?_eq_some chosen, le_roundUp _ _ positive, of_decide_eq_true held⟩

/-- A dropped gap is the gap itself, too short to keep. -/
theorem mem_dropped {minimum : Nat} {gap other : Region} :
    other ∈ dropped minimum gap ↔ other = gap ∧ 0 < gap.size ∧ gap.size < minimum := by
  unfold dropped
  split
  · rename_i short
    simp [short]
  · rename_i kept
    simp [kept]

theorem dropped_length (minimum : Nat) (gap : Region) : (dropped minimum gap).length ≤ 1 := by
  unfold dropped
  split <;> simp

/-- A lost gap adjoins the block on one side and is too short to keep. -/
theorem lost_short {minimum : Nat} {node block gap : Region} (gone : gap ∈ lost minimum node block) :
    (gap = front node block ∨ gap = back node block) ∧ 0 < gap.size ∧ gap.size < minimum := by
  rcases List.mem_append.mp gone with ahead | behind
  · obtain ⟨rfl, short⟩ := mem_dropped.mp ahead
    exact ⟨.inl rfl, short⟩
  · obtain ⟨rfl, short⟩ := mem_dropped.mp behind
    exact ⟨.inr rfl, short⟩

section Carve

variable {minimum : Nat} {nodes : List Region} {node block : Region}

/-- A region is its front, the block and its back. -/
theorem cut_partition (inside : Inside node block) :
    Partition [node] [front node block, block, back node block] where
  covers := by
    have lower := inside.lower
    have upper := inside.upper
    ext byte
    simp only [bytes_cons, bytes_nil, Set.union_empty, Set.mem_union, Region.mem_bytes, front, back,
      Region.stop] at upper ⊢
    omega
  disjoint := by
    have lower := inside.lower
    have upper := inside.upper
    simp only [List.pairwise_cons, List.mem_cons, List.not_mem_nil, or_false, forall_eq_or_imp,
      forall_eq, IsEmpty.forall_iff, implies_true, List.Pairwise.nil, and_true]
    refine ⟨⟨?_, ?_⟩, ?_⟩ <;> apply Region.disjoint_of_apart <;>
      simp only [front, back, Region.stop] at upper ⊢ <;> omega

/-- Putting a disjoint gap back, or dropping it, loses no byte. -/
theorem keep_partition (sorted : Coalesced nodes) (sizes : ∀ old ∈ nodes, 0 < old.size)
    (gap : Region) (positive : 0 < minimum)
    (disjoint : ∀ old ∈ nodes, Disjoint gap.bytes old.bytes) :
    Partition (gap :: nodes) (keep minimum gap nodes ++ dropped minimum gap) := by
  by_cases long : minimum ≤ gap.size
  · have none : ¬ (0 < gap.size ∧ gap.size < minimum) := by omega
    simp only [keep, dropped, long, none, if_true, if_false, List.append_nil]
    exact insert_partition gap nodes sorted (by omega) sizes disjoint
  · simp only [keep, long, if_false]
    by_cases empty : gap.size = 0
    · have none : ¬ (0 < gap.size ∧ gap.size < minimum) := by omega
      simp only [dropped, none, if_false, List.append_nil]
      refine ⟨?_, sorted.disjoint⟩
      have blank : gap.bytes = ∅ := by
        ext byte
        simp only [Region.mem_bytes, Set.mem_empty_iff_false, iff_false]
        omega
      rw [bytes_cons, blank, Set.empty_union]
    · have short : 0 < gap.size ∧ gap.size < minimum := by omega
      simp only [dropped, short, and_self, if_true]
      have plain : Partition (gap :: nodes) (gap :: nodes) :=
        ⟨rfl, List.pairwise_cons.mpr ⟨disjoint, sorted.disjoint⟩⟩
      exact plain.perm (List.perm_append_singleton gap nodes).symm

/-- Putting a disjoint gap back keeps the list coalesced. -/
theorem keep_coalesced (sorted : Coalesced nodes) (sizes : ∀ old ∈ nodes, 0 < old.size)
    (gap : Region) (positive : 0 < minimum)
    (disjoint : ∀ old ∈ nodes, Disjoint gap.bytes old.bytes) :
    Coalesced (keep minimum gap nodes) := by
  unfold keep
  split
  · exact insert_coalesced gap nodes sorted (by omega) sizes disjoint
  · exact sorted

/-- Putting a gap back keeps every free byte free. -/
theorem bytes_keep_superset (minimum : Nat) (gap : Region) (nodes : List Region) :
    bytes nodes ⊆ bytes (keep minimum gap nodes) := by
  unfold keep
  split
  · rw [bytes_insert]
    exact Set.subset_union_right
  · exact Set.Subset.refl _

/-- The regions of the list other than the one cut are off its bytes. -/
theorem erase_apart (sorted : Coalesced nodes) (member : node ∈ nodes) :
    ∀ old ∈ nodes.erase node, Disjoint node.bytes old.bytes := by
  have reordered := (disjoint_perm (List.perm_cons_erase member)).mp sorted.disjoint
  exact (List.pairwise_cons.mp reordered).1

variable (sorted : Coalesced nodes) (sizes : ∀ old ∈ nodes, 0 < old.size)
  (member : node ∈ nodes) (inside : Inside node block) (positive : 0 < minimum)

include sorted member inside

/-- The front is off every other region. -/
theorem front_apart : ∀ old ∈ nodes.erase node, Disjoint (front node block).bytes old.bytes := by
  intro old present
  apply (erase_apart sorted member old present).mono_left
  intro byte within
  have lower := inside.lower
  have upper := inside.upper
  simp only [Region.mem_bytes, front, Region.stop] at within upper ⊢
  omega

include sizes positive

/-- The list with the front put back is coalesced, with no empty region, and off
the back of the cut region. -/
theorem front_kept :
    Coalesced (keep minimum (front node block) (nodes.erase node)) ∧
    (∀ old ∈ keep minimum (front node block) (nodes.erase node), 0 < old.size) ∧
    ∀ old ∈ keep minimum (front node block) (nodes.erase node),
      Disjoint (back node block).bytes old.bytes := by
  have erasedSorted : Coalesced (nodes.erase node) := sorted.sublist List.erase_sublist
  have erasedSizes : ∀ old ∈ nodes.erase node, 0 < old.size :=
    fun old present => sizes old (List.mem_of_mem_erase present)
  have apart := front_apart sorted member inside
  refine ⟨keep_coalesced erasedSorted erasedSizes _ positive apart, ?_, ?_⟩
  · have shaped : Shaped (fun _ => True) (fun _ => True) 1 (nodes.erase node) :=
      fun old present => ⟨trivial, trivial, erasedSizes old present⟩
    intro old present
    unfold keep at present
    split at present
    · rename_i long
      have grown : Shaped (fun _ => True) (fun _ => True) 1 (front node block :: nodes.erase node) := by
        intro region known
        rcases List.mem_cons.mp known with rfl | known
        · exact ⟨trivial, trivial, by omega⟩
        · exact shaped region known
      exact (insert_shaped grown old present).2.2
    · exact erasedSizes old present
  · rw [← disjoint_bytes_iff]
    have covered : bytes (keep minimum (front node block) (nodes.erase node)) ⊆
        (front node block).bytes ∪ bytes (nodes.erase node) := by
      unfold keep
      split
      · rw [bytes_insert]
      · exact Set.subset_union_right
    rw [Set.disjoint_left]
    intro byte inBack inKept
    have lower := inside.lower
    have upper := inside.upper
    rcases covered inKept with inFront | ⟨old, present, inOld⟩
    · simp only [Region.mem_bytes, front, back, Region.stop] at inFront inBack upper
      omega
    · apply Set.disjoint_left.mp (erase_apart sorted member old present) _ inOld
      simp only [Region.mem_bytes, back, Region.stop] at inBack upper ⊢
      omega

/-- The free regions are the new free regions, the block and the lost gaps. -/
theorem carve_partition :
    Partition nodes (carve minimum nodes node block ++ block :: lost minimum node block) := by
  have erasedSorted : Coalesced (nodes.erase node) := sorted.sublist List.erase_sublist
  have erasedSizes : ∀ old ∈ nodes.erase node, 0 < old.size :=
    fun old present => sizes old (List.mem_of_mem_erase present)
  obtain ⟨keptSorted, keptSizes, apart⟩ := front_kept sorted sizes member inside positive
  have whole : Partition nodes ([node] ++ nodes.erase node) :=
    Partition.perm ⟨rfl, sorted.disjoint⟩ (List.perm_cons_erase member)
  have cut := whole.refine (cut_partition inside)
  have frontFirst : ([front node block, block, back node block] ++ nodes.erase node).Perm
      ((front node block :: nodes.erase node) ++ [block, back node block]) := by
    rw [List.perm_iff_count]
    intro region
    simp only [List.count_append, List.count_cons, List.count_nil]
    omega
  have first := (cut.perm frontFirst).refine
    (keep_partition erasedSorted erasedSizes _ positive (front_apart sorted member inside))
  have backFirst : (keep minimum (front node block) (nodes.erase node) ++
      dropped minimum (front node block) ++ [block, back node block]).Perm
      ((back node block :: keep minimum (front node block) (nodes.erase node)) ++
        block :: dropped minimum (front node block)) := by
    rw [List.perm_iff_count]
    intro region
    simp only [List.count_append, List.count_cons, List.count_nil]
    omega
  have second := (first.perm backFirst).refine
    (keep_partition keptSorted keptSizes _ positive apart)
  refine second.perm ?_
  rw [List.perm_iff_count]
  intro region
  simp only [carve, lost, List.count_append, List.count_cons]
  omega

/-- What stays free is off the block. -/
theorem carve_apart :
    ∀ kept ∈ carve minimum nodes node block, Disjoint block.bytes kept.bytes := by
  have cut := carve_partition sorted sizes member inside positive
  intro kept present
  exact ((List.pairwise_append.mp cut.disjoint).2.2 kept present block List.mem_cons_self).symm

/-- What stays free after cutting a block out of a region. -/
theorem bytes_carve :
    bytes (carve minimum nodes node block) = bytes nodes \ (block.bytes ∪
      (bytes (dropped minimum (front node block)) ∪ bytes (dropped minimum (back node block)))) := by
  have cut := carve_partition sorted sizes member inside positive
  have taken : bytes (block :: lost minimum node block) = block.bytes ∪
      (bytes (dropped minimum (front node block)) ∪ bytes (dropped minimum (back node block))) := by
    rw [bytes_cons, lost, bytes_append]
  have off : Disjoint (bytes (carve minimum nodes node block))
      (bytes (block :: lost minimum node block)) := by
    rw [Set.disjoint_left]
    rintro byte ⟨kept, keptMember, inKept⟩ ⟨gone, goneMember, inGone⟩
    exact Set.disjoint_left.mp ((List.pairwise_append.mp cut.disjoint).2.2 kept keptMember gone
      goneMember) inKept inGone
  rw [cut.covers, bytes_append, ← taken]
  exact off.sup_sdiff_cancel_right.symm

end Carve

section Complete

variable {size alignment : Nat} {nodes : List Region}

/-- The addresses at which a set of free bytes can serve a request. -/
def servable (free : Set Nat) (size alignment : Nat) : Set Nat :=
  {address | alignment ∣ address ∧ (Region.mk address size).bytes ⊆ free}

/-- A region that holds an aligned block of the size fits, and its lowest aligned block
is not above. -/
theorem fits_of_inside {node : Region} {address : Nat} (positive : 0 < alignment)
    (aligned : alignment ∣ address) (inside : Inside node ⟨address, size⟩) :
    fits size alignment node = true ∧ (place size alignment node).start ≤ address := by
  have below : roundUp node.start alignment ≤ address :=
    roundUp_le _ _ _ positive inside.lower (Nat.mod_eq_zero_of_dvd aligned)
  have upper := inside.upper
  refine ⟨decide_eq_true ?_, below⟩
  simp only [place, Region.stop] at upper ⊢
  omega

/-- The block placed in a region that is chosen can serve the request. -/
theorem place_servable (positive : 0 < alignment) {node : Region}
    (chosen : choose size alignment nodes = some node) :
    (place size alignment node).start ∈ servable (bytes nodes) size alignment := by
  obtain ⟨member, inside⟩ := choose_some positive chosen
  refine ⟨Nat.dvd_of_mod_eq_zero (roundUp_aligned _ _), ?_⟩
  intro byte within
  refine ⟨node, member, ?_⟩
  have lower := inside.lower
  have upper := inside.upper
  simp only [Region.mem_bytes, place, Region.stop] at within lower upper ⊢
  omega

/-- On a coalesced list the search fails only if no address can serve the request. -/
theorem choose_none_iff (sorted : Coalesced nodes) (long : 0 < size) (positive : 0 < alignment) :
    choose size alignment nodes = none ↔ servable (bytes nodes) size alignment = ∅ := by
  constructor
  · intro none
    rw [Set.eq_empty_iff_forall_notMem]
    rintro address ⟨aligned, free⟩
    obtain ⟨node, member, lower, upper⟩ := sorted.covered_inside long free
    have fitting := (fits_of_inside positive aligned ⟨lower, upper⟩).1
    exact absurd fitting (List.find?_eq_none.mp none node member)
  · intro empty
    cases chosen : choose size alignment nodes with
    | none => rfl
    | some node =>
      have possible := place_servable positive chosen
      rw [empty] at possible
      exact absurd possible (Set.notMem_empty _)

/-- The chosen region divides the list: those ahead of it do not fit. -/
theorem choose_split {node : Region} (chosen : choose size alignment nodes = some node) :
    ∃ before after, nodes = before ++ node :: after ∧
      ∀ old ∈ before, ¬ fits size alignment old = true := by
  obtain ⟨_, before, after, split, skipped⟩ := List.find?_eq_some_iff_append.mp chosen
  refine ⟨before, after, split, ?_⟩
  intro old earlier
  have passed := skipped old earlier
  simpa using passed

/-- On a coalesced list the search serves the request at the least possible address:
earlier regions do not fit, and later ones start behind the block. -/
theorem choose_least (sorted : Coalesced nodes) (long : 0 < size) (positive : 0 < alignment)
    {node : Region} (chosen : choose size alignment nodes = some node) :
    IsLeast (servable (bytes nodes) size alignment) (place size alignment node).start := by
  refine ⟨place_servable positive chosen, ?_⟩
  rintro address ⟨aligned, free⟩
  obtain ⟨other, present, lower, upper⟩ := sorted.covered_inside long free
  obtain ⟨fitting, below⟩ := fits_of_inside positive aligned ⟨lower, upper⟩
  obtain ⟨before, after, rfl, skipped⟩ := choose_split chosen
  rcases List.mem_append.mp present with earlier | later
  · exact absurd fitting (skipped other earlier)
  · rcases List.mem_cons.mp later with rfl | behind
    · exact below
    · have gap := (List.pairwise_cons.mp (List.pairwise_append.mp sorted).2.1).1 other behind
      have inside := (choose_some positive chosen).2.upper
      have start : other.start ≤ address := lower
      simp only [Region.stop] at gap inside
      omega

end Complete

section Trim

variable {minimum size alignment : Nat} {before after : List Region} {node block : Region}

/-- A region without the gaps that cutting a block out of it loses. -/
def trim (minimum : Nat) (node block : Region) : Region :=
  let start := if minimum ≤ (front node block).size then node.start else block.start
  let stop := if minimum ≤ (back node block).size then node.stop else block.stop
  ⟨start, stop - start⟩

/-- A trimmed region starts where the region does, or at the block if the gap in front
of it is too short. -/
theorem trim_start (minimum : Nat) (node block : Region) :
    minimum ≤ block.start - node.start ∧ (trim minimum node block).start = node.start ∨
    block.start - node.start < minimum ∧ (trim minimum node block).start = block.start := by
  by_cases long : minimum ≤ (front node block).size
  · exact .inl ⟨long, if_pos long⟩
  · exact .inr ⟨Nat.lt_of_not_le long, if_neg long⟩

/-- A trimmed region ends where the region does, or with the block if the gap behind it
is too short. -/
theorem trim_stop (minimum : Nat) (inside : Inside node block) :
    minimum ≤ node.stop - block.stop ∧ (trim minimum node block).stop = node.stop ∨
    node.stop - block.stop < minimum ∧ (trim minimum node block).stop = block.stop := by
  have starts := trim_start minimum node block
  have ordered : block.start ≤ block.stop := Nat.le_add_right _ _
  obtain ⟨lower, upper⟩ := inside
  by_cases long : minimum ≤ (back node block).size
  · have stops : (trim minimum node block).stop = (trim minimum node block).start +
        (node.stop - (trim minimum node block).start) := by
      simp only [trim, long, if_true, Region.stop]
    exact .inl ⟨long, by omega⟩
  · have stops : (trim minimum node block).stop = (trim minimum node block).start +
        (block.stop - (trim minimum node block).start) := by
      simp only [trim, long, if_false, Region.stop]
    exact .inr ⟨Nat.lt_of_not_le long, by omega⟩

/-- The trimmed region lies between the block and the region. -/
theorem trim_between (minimum : Nat) (inside : Inside node block) :
    Inside node (trim minimum node block) ∧ Inside (trim minimum node block) block := by
  have starts := trim_start minimum node block
  have stops := trim_stop minimum inside
  obtain ⟨lower, upper⟩ := inside
  refine ⟨⟨?_, ?_⟩, ⟨?_, ?_⟩⟩ <;> omega

/-- Cutting the block out of the trimmed region loses nothing more. -/
theorem trim_trim (minimum : Nat) (inside : Inside node block) :
    trim minimum (trim minimum node block) block = trim minimum node block := by
  have between := (trim_between minimum inside).2
  have starts := trim_start minimum node block
  have stops := trim_stop minimum inside
  have startsAgain := trim_start minimum (trim minimum node block) block
  have stopsAgain := trim_stop minimum between
  have start : (trim minimum (trim minimum node block) block).start =
      (trim minimum node block).start := by omega
  have stop : (trim minimum (trim minimum node block) block).stop =
      (trim minimum node block).stop := by omega
  generalize trim minimum (trim minimum node block) block = again at start stop
  generalize trim minimum node block = once at start stop
  obtain ⟨_, _⟩ := again
  obtain ⟨_, _⟩ := once
  simp only [Region.stop] at start stop
  subst start
  rw [Nat.add_left_cancel stop]

/-- A byte of a dropped gap. -/
theorem mem_bytes_dropped {gap : Region} {byte : Nat} :
    byte ∈ bytes (dropped minimum gap) ↔ byte ∈ gap.bytes ∧ gap.size < minimum := by
  constructor
  · rintro ⟨other, gone, within⟩
    obtain ⟨rfl, _, short⟩ := mem_dropped.mp gone
    exact ⟨within, short⟩
  · rintro ⟨within, short⟩
    refine ⟨gap, mem_dropped.mpr ⟨rfl, ?_, short⟩, within⟩
    rw [Region.mem_bytes] at within
    omega

/-- Of a region, exactly the lost gaps are trimmed. -/
theorem bytes_trim (minimum : Nat) (inside : Inside node block) :
    (trim minimum node block).bytes = node.bytes \
      (bytes (dropped minimum (front node block)) ∪ bytes (dropped minimum (back node block))) := by
  have starts := trim_start minimum node block
  have stops := trim_stop minimum inside
  obtain ⟨lower, upper⟩ := inside
  ext byte
  simp only [Set.mem_sdiff, Set.mem_union, mem_bytes_dropped, Region.mem_bytes, front, back]
  simp only [Region.stop] at *
  omega

/-- Trimming one region of a coalesced list frees exactly the bytes of the lost gaps. -/
theorem bytes_trimmed (minimum : Nat) (sorted : Coalesced (before ++ node :: after))
    (inside : Inside node block) :
    bytes (before ++ trim minimum node block :: after) = bytes (before ++ node :: after) \
      (bytes (dropped minimum (front node block)) ∪ bytes (dropped minimum (back node block))) := by
  have within : bytes (dropped minimum (front node block)) ∪
      bytes (dropped minimum (back node block)) ⊆ node.bytes := by
    obtain ⟨lower, upper⟩ := inside
    intro byte gone
    simp only [Set.mem_union, mem_bytes_dropped, Region.mem_bytes, front, back, Region.stop]
      at gone upper ⊢
    omega
  obtain ⟨_, rest, across⟩ := List.pairwise_append.mp sorted.disjoint
  have ahead : Disjoint (bytes before) node.bytes := by
    rw [disjoint_comm, disjoint_bytes_iff]
    exact fun old earlier => (across old earlier node List.mem_cons_self).symm
  have behind : Disjoint (bytes after) node.bytes := by
    rw [disjoint_comm, disjoint_bytes_iff]
    exact (List.pairwise_cons.mp rest).1
  rw [bytes_append, bytes_append, bytes_cons, bytes_cons, bytes_trim minimum inside,
    Set.union_sdiff_distrib, Set.union_sdiff_distrib, (ahead.mono_right within).sdiff_eq_left,
    (behind.mono_right within).sdiff_eq_left]

/-- Cutting a block out of a region of a list and putting it back trims the region. -/
theorem bytes_insert_carve (sorted : Coalesced (before ++ node :: after))
    (sizes : ∀ old ∈ before ++ node :: after, 0 < old.size) (inside : Inside node block)
    (positive : 0 < minimum) :
    bytes (Regions.insert block (carve minimum (before ++ node :: after) node block)) =
      bytes (before ++ trim minimum node block :: after) := by
  have held : block.bytes ⊆ bytes (before ++ trim minimum node block :: after) := by
    obtain ⟨lower, upper⟩ := (trim_between minimum inside).2
    intro byte within
    refine ⟨trim minimum node block, by simp, ?_⟩
    simp only [Region.mem_bytes, Region.stop] at within upper ⊢
    omega
  rw [bytes_insert, bytes_carve sorted sizes (by simp) inside positive, ← Set.sdiff_sdiff,
    Set.sdiff_sdiff_comm, ← bytes_trimmed minimum sorted inside, Set.union_sdiff_self,
    Set.union_eq_self_of_subset_left held]

/-- A block placed in a region is placed alike in the region trimmed around it. -/
theorem place_trim (minimum : Nat) (positive : 0 < alignment)
    (inside : Inside node (place size alignment node)) :
    place size alignment (trim minimum node (place size alignment node)) =
      place size alignment node := by
  obtain ⟨outer, inner⟩ := trim_between minimum inside
  have above : roundUp node.start alignment ≤
      roundUp (trim minimum node (place size alignment node)).start alignment :=
    roundUp_le _ _ _ positive (outer.lower.trans (le_roundUp _ _ positive)) (roundUp_aligned _ _)
  have below : roundUp (trim minimum node (place size alignment node)).start alignment ≤
      roundUp node.start alignment :=
    roundUp_le _ _ _ positive inner.lower (roundUp_aligned _ _)
  rw [place, Nat.le_antisymm below above, place]

/-- The search stops at a region that fits, behind those that do not. -/
theorem choose_of_split (skipped : ∀ old ∈ before, ¬ fits size alignment old = true)
    (fitting : fits size alignment node = true) :
    choose size alignment (before ++ node :: after) = some node := by
  refine List.find?_eq_some_iff_append.mpr ⟨fitting, before, after, rfl, ?_⟩
  intro old earlier
  simpa using skipped old earlier

/-- The search looks at nothing behind the region it stops at. -/
theorem tried_of_split (skipped : ∀ old ∈ before, ¬ fits size alignment old = true)
    (fitting : fits size alignment node = true) :
    tried size alignment (before ++ node :: after) = before ++ [node] := by
  induction before with
  | nil => rw [List.nil_append, tried, if_pos fitting, List.nil_append]
  | cons old rest inductionHypothesis =>
    have passed := skipped old List.mem_cons_self
    rw [List.cons_append, tried_pass passed, inductionHypothesis
      (fun other later => skipped other (List.mem_cons_of_mem _ later)), List.cons_append]

end Trim

end XyronOS.FirstFit
