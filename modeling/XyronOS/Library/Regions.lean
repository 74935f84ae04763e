import Mathlib

/-!
# Coalesced lists of regions

A region is a half-open interval of addresses. A list of regions is coalesced
when it is sorted and every region ends strictly before the next begins, so that
no two of them could be joined. Inserting a region joins it with a neighbour it
touches on either side and otherwise places it in order.

Two descriptions of a list are related here: the list itself, on which an
algorithm works, and the set of addresses it covers, in which ownership is
stated. Insertion adds exactly the addresses of the inserted region whatever
joins took place, and keeps a coalesced list coalesced if the region is disjoint
from it. A coalesced list is determined by the addresses it covers.
-/

namespace XyronOS.Regions

/-- The addresses from `start` up to, but excluding, `start + size`. -/
structure Region where
  start : Nat
  size : Nat
deriving DecidableEq, Repr

namespace Region

/-- First address after the region. -/
def stop (region : Region) : Nat := region.start + region.size

/-- Addresses of one region. -/
def bytes (region : Region) : Set Nat := Set.Ico region.start region.stop

/-- Executable membership of one address. -/
def contains (byte : Nat) (region : Region) : Bool :=
  decide (region.start ≤ byte ∧ byte < region.stop)

theorem mem_bytes (region : Region) (byte : Nat) :
    byte ∈ region.bytes ↔ region.start ≤ byte ∧ byte < region.start + region.size := Iff.rfl

theorem contains_iff (region : Region) (byte : Nat) :
    region.contains byte = true ↔ byte ∈ region.bytes := by
  simp [contains, bytes]

/-- Disjoint regions that are not empty lie one after the other. -/
theorem apart_of_disjoint (left right : Region) (disjoint : Disjoint left.bytes right.bytes)
    (leftSize : 0 < left.size) (rightSize : 0 < right.size) :
    left.start + left.size ≤ right.start ∨ right.start + right.size ≤ left.start := by
  by_contra overlapping
  have inLeft : max left.start right.start ∈ left.bytes := by
    rw [mem_bytes]
    omega
  have inRight : max left.start right.start ∈ right.bytes := by
    rw [mem_bytes]
    omega
  exact Set.disjoint_left.mp disjoint inLeft inRight

/-- Regions lying one after the other share no address. -/
theorem disjoint_of_apart (left right : Region)
    (apart : left.start + left.size ≤ right.start ∨ right.start + right.size ≤ left.start) :
    Disjoint left.bytes right.bytes := by
  rw [Set.disjoint_left]
  intro byte inLeft inRight
  rw [mem_bytes] at inLeft inRight
  omega

end Region

/-- Addresses covered by a list of regions. -/
def bytes (regions : List Region) : Set Nat := {byte | ∃ region ∈ regions, byte ∈ region.bytes}

@[simp] theorem bytes_nil : bytes [] = ∅ := by
  ext byte
  simp [bytes]

@[simp] theorem bytes_cons (region : Region) (rest : List Region) :
    bytes (region :: rest) = region.bytes ∪ bytes rest := by
  ext byte
  simp [bytes]

@[simp] theorem bytes_append (left right : List Region) :
    bytes (left ++ right) = bytes left ∪ bytes right := by
  induction left with
  | nil => simp
  | cons region rest inductionHypothesis => simp [inductionHypothesis, Set.union_assoc]

/-- A listed region's addresses are covered. -/
theorem bytes_of_mem {regions : List Region} {region : Region} (member : region ∈ regions) :
    region.bytes ⊆ bytes regions := fun _ inside => ⟨region, member, inside⟩

/-- Reordering a list covers the same addresses. -/
theorem bytes_perm {left right : List Region} (reordered : left.Perm right) :
    bytes left = bytes right := by
  ext byte
  simp only [bytes, Set.mem_ofPred_eq, reordered.mem_iff]

/-- Sorted with a gap between any two regions. -/
def Coalesced (regions : List Region) : Prop :=
  regions.Pairwise (fun left right => left.stop < right.start)

/-- Place a region in front of a list, joining it with a first region it touches. -/
def joinForward (region : Region) : List Region → List Region
  | [] => [region]
  | next :: rest =>
      if region.stop = next.start then ⟨region.start, region.size + next.size⟩ :: rest
      else region :: next :: rest

/-- Insert a region in address order, joining it with touching neighbours. -/
def insert (region : Region) : List Region → List Region
  | [] => [region]
  | first :: rest =>
      if first.start < region.start then
        if first.stop = region.start then
          joinForward ⟨first.start, first.size + region.size⟩ rest
        else first :: insert region rest
      else joinForward region (first :: rest)

/-- Joining forward covers the region and the list, and nothing else. -/
theorem bytes_joinForward (region : Region) (regions : List Region) :
    bytes (joinForward region regions) = region.bytes ∪ bytes regions := by
  cases regions with
  | nil => simp [joinForward]
  | cons next rest =>
    by_cases touching : region.stop = next.start
    · have joined : (Region.mk region.start (region.size + next.size)).bytes =
          region.bytes ∪ next.bytes := by
        ext byte
        simp only [Region.mem_bytes, Set.mem_union]
        unfold Region.stop at touching
        omega
      simp [joinForward, touching, joined, Set.union_assoc]
    · simp [joinForward, touching]

/-- Insertion adds exactly the addresses of the inserted region. -/
theorem bytes_insert (region : Region) (regions : List Region) :
    bytes (insert region regions) = region.bytes ∪ bytes regions := by
  induction regions with
  | nil => simp [insert]
  | cons first rest inductionHypothesis =>
    by_cases before : first.start < region.start
    · by_cases touching : first.stop = region.start
      · have joined : (Region.mk first.start (first.size + region.size)).bytes =
            first.bytes ∪ region.bytes := by
          ext byte
          simp only [Region.mem_bytes, Set.mem_union]
          unfold Region.stop at touching
          omega
        simp only [insert, before, touching, if_true, bytes_joinForward, joined, bytes_cons]
        rw [Set.union_comm first.bytes, Set.union_assoc]
      · simp only [insert, before, touching, if_true, if_false, bytes_cons, inductionHypothesis]
        rw [← Set.union_assoc, Set.union_comm first.bytes, Set.union_assoc]
    · simp only [insert, before, if_false, bytes_joinForward]

/-- Insertion passes the regions that start before the inserted one without
touching it. -/
theorem insert_skip {region : Region} {before after : List Region}
    (passed : ∀ old ∈ before, old.start < region.start ∧ old.stop ≠ region.start) :
    insert region (before ++ after) = before ++ insert region after := by
  induction before with
  | nil => rfl
  | cons first rest inductionHypothesis =>
    obtain ⟨earlier, separate⟩ := passed first List.mem_cons_self
    have further := inductionHypothesis (fun old present =>
      passed old (List.mem_cons_of_mem first present))
    simp only [List.cons_append, insert, earlier, separate, if_true, if_false, further]

/-- Insertion in front of later regions only looks at the first of them. -/
theorem insert_ahead {region : Region} {after : List Region}
    (ahead : ∀ old ∈ after, region.start ≤ old.start) :
    insert region after = joinForward region after := by
  cases after with
  | nil => rfl
  | cons first rest =>
    have later : ¬ first.start < region.start := Nat.not_lt.mpr (ahead first List.mem_cons_self)
    simp only [insert, later, if_false]

/-- What a region of the result can be: it begins and ends where the inserted or
a former region did, and it is not shorter than one of them. -/
def Descends (region : Region) (regions : List Region) (result : Region) : Prop :=
  (result.start = region.start ∨ ∃ old ∈ regions, result.start = old.start) ∧
  (result.stop = region.stop ∨ ∃ old ∈ regions, result.stop = old.stop) ∧
  (region.size ≤ result.size ∨ result ∈ regions)

/-- Every region after joining forward descends from the arguments. -/
theorem joinForward_descends (region : Region) (regions : List Region) :
    ∀ result ∈ joinForward region regions, Descends region regions result := by
  intro result member
  cases regions with
  | nil =>
    have same : result = region := by simpa [joinForward] using member
    exact ⟨.inl (same ▸ rfl), .inl (same ▸ rfl), .inl (same ▸ Nat.le_refl _)⟩
  | cons next rest =>
    by_cases touching : region.stop = next.start
    · simp only [joinForward, touching, if_true, List.mem_cons] at member
      rcases member with rfl | kept
      · refine ⟨.inl rfl, .inr ⟨next, List.mem_cons_self, ?_⟩, .inl (Nat.le_add_right _ _)⟩
        simp only [Region.stop] at touching ⊢
        omega
      · have old : result ∈ next :: rest := List.mem_cons_of_mem next kept
        exact ⟨.inr ⟨result, old, rfl⟩, .inr ⟨result, old, rfl⟩, .inr old⟩
    · simp only [joinForward, touching, if_false] at member
      rcases List.mem_cons.mp member with rfl | old
      · exact ⟨.inl rfl, .inl rfl, .inl (Nat.le_refl _)⟩
      · exact ⟨.inr ⟨result, old, rfl⟩, .inr ⟨result, old, rfl⟩, .inr old⟩

/-- Every region after an insertion descends from the arguments. -/
theorem insert_descends (region : Region) (regions : List Region) :
    ∀ result ∈ insert region regions, Descends region regions result := by
  induction regions with
  | nil =>
    intro result member
    have same : result = region := by simpa [insert] using member
    exact ⟨.inl (same ▸ rfl), .inl (same ▸ rfl), .inl (same ▸ Nat.le_refl _)⟩
  | cons first rest inductionHypothesis =>
    intro result member
    by_cases before : first.start < region.start
    · by_cases touching : first.stop = region.start
      · simp only [insert, before, touching, if_true] at member
        obtain ⟨starts, stops, sizes⟩ := joinForward_descends _ rest result member
        refine ⟨?_, ?_, ?_⟩
        · rcases starts with same | ⟨old, present, same⟩
          · exact .inr ⟨first, List.mem_cons_self, same⟩
          · exact .inr ⟨old, List.mem_cons_of_mem first present, same⟩
        · rcases stops with same | ⟨old, present, same⟩
          · left
            simp only [Region.stop] at same touching ⊢
            omega
          · exact .inr ⟨old, List.mem_cons_of_mem first present, same⟩
        · rcases sizes with longer | present
          · left
            simp only at longer
            omega
          · exact .inr (List.mem_cons_of_mem first present)
      · simp only [insert, before, touching, if_true, if_false] at member
        rcases List.mem_cons.mp member with rfl | member
        · exact ⟨.inr ⟨result, List.mem_cons_self, rfl⟩, .inr ⟨result, List.mem_cons_self, rfl⟩,
            .inr List.mem_cons_self⟩
        · obtain ⟨starts, stops, sizes⟩ := inductionHypothesis result member
          refine ⟨starts.imp_right ?_, stops.imp_right ?_,
            sizes.imp_right (List.mem_cons_of_mem first)⟩
          · rintro ⟨old, present, same⟩
            exact ⟨old, List.mem_cons_of_mem first present, same⟩
          · rintro ⟨old, present, same⟩
            exact ⟨old, List.mem_cons_of_mem first present, same⟩
    · simp only [insert, before, if_false] at member
      exact joinForward_descends region (first :: rest) result member

/-- Every region starts, ends and measures as required. -/
def Shaped (starts stops : Nat → Prop) (minimum : Nat) (regions : List Region) : Prop :=
  ∀ region ∈ regions, starts region.start ∧ stops region.stop ∧ minimum ≤ region.size

/-- Insertion makes no new start or end and no shorter region. -/
theorem insert_shaped {starts stops : Nat → Prop} {minimum : Nat} {region : Region}
    {regions : List Region} (shaped : Shaped starts stops minimum (region :: regions)) :
    Shaped starts stops minimum (insert region regions) := by
  intro result member
  obtain ⟨begins, ends, sizes⟩ := insert_descends region regions result member
  obtain ⟨first, last, size⟩ := shaped region List.mem_cons_self
  refine ⟨?_, ?_, ?_⟩
  · rcases begins with same | ⟨old, present, same⟩
    · exact same ▸ first
    · exact same ▸ (shaped old (List.mem_cons_of_mem _ present)).1
  · rcases ends with same | ⟨old, present, same⟩
    · exact same ▸ last
    · exact same ▸ (shaped old (List.mem_cons_of_mem _ present)).2.1
  · rcases sizes with longer | present
    · exact size.trans longer
    · exact (shaped result (List.mem_cons_of_mem _ present)).2.2

/-- Joining forward keeps a coalesced list coalesced when the region does not
reach past the list's regions. -/
theorem joinForward_coalesced (region : Region) (regions : List Region)
    (sorted : Coalesced regions) (ahead : ∀ later ∈ regions, region.stop ≤ later.start) :
    Coalesced (joinForward region regions) := by
  cases regions with
  | nil => exact List.pairwise_singleton _ _
  | cons next rest =>
    obtain ⟨beyond, restSorted⟩ := List.pairwise_cons.mp sorted
    have reach : region.stop ≤ next.start := ahead next List.mem_cons_self
    by_cases touching : region.stop = next.start
    · simp only [joinForward, touching, if_true]
      refine List.pairwise_cons.mpr ⟨?_, restSorted⟩
      intro later present
      have gap := beyond later present
      simp only [Region.stop] at gap touching ⊢
      omega
    · simp only [joinForward, touching, if_false]
      refine List.pairwise_cons.mpr ⟨?_, sorted⟩
      intro later present
      rcases List.mem_cons.mp present with rfl | present
      · omega
      · have gap := beyond later present
        simp only [Region.stop] at gap reach ⊢
        omega

/-- Inserting a disjoint region keeps a coalesced list coalesced. A region that
is passed ends before the inserted one begins; not touching it, it leaves a gap
to everything placed behind it. -/
theorem insert_coalesced (region : Region) (regions : List Region) (sorted : Coalesced regions)
    (positive : 0 < region.size) (sizes : ∀ old ∈ regions, 0 < old.size)
    (disjoint : ∀ old ∈ regions, Disjoint region.bytes old.bytes) :
    Coalesced (insert region regions) := by
  induction regions with
  | nil => exact List.pairwise_singleton _ _
  | cons first rest inductionHypothesis =>
    obtain ⟨beyond, restSorted⟩ := List.pairwise_cons.mp sorted
    have firstSize : 0 < first.size := sizes first List.mem_cons_self
    have firstApart := Region.apart_of_disjoint region first
      (disjoint first List.mem_cons_self) positive firstSize
    by_cases before : first.start < region.start
    · by_cases touching : first.stop = region.start
      · simp only [insert, before, touching, if_true]
        apply joinForward_coalesced _ _ restSorted
        intro later present
        have gap := beyond later present
        have apart := Region.apart_of_disjoint region later
          (disjoint later (List.mem_cons_of_mem first present)) positive
          (sizes later (List.mem_cons_of_mem first present))
        simp only [Region.stop] at gap touching ⊢
        omega
      · simp only [insert, before, touching, if_true, if_false]
        have tail : Coalesced (insert region rest) := inductionHypothesis restSorted
          (fun old present => sizes old (List.mem_cons_of_mem first present))
          (fun old present => disjoint old (List.mem_cons_of_mem first present))
        refine List.pairwise_cons.mpr ⟨?_, tail⟩
        intro later present
        rcases (insert_descends region rest later present).1 with same | ⟨old, kept, same⟩
        · simp only [Region.stop] at touching ⊢
          omega
        · rw [same]
          exact beyond old kept
    · simp only [insert, before, if_false]
      apply joinForward_coalesced _ _ sorted
      intro later present
      have ordered : region.stop ≤ first.start := by
        simp only [Region.stop]
        omega
      rcases List.mem_cons.mp present with rfl | present
      · exact ordered
      · have gap := beyond later present
        simp only [Region.stop] at gap ordered ⊢
        omega

/-- Regions of a coalesced list share no address. -/
theorem Coalesced.disjoint {regions : List Region} (sorted : Coalesced regions) :
    regions.Pairwise (fun left right => Disjoint left.bytes right.bytes) := by
  apply sorted.imp
  intro left right gap
  apply Region.disjoint_of_apart
  simp only [Region.stop] at gap
  omega

/-- Different members of a pairwise disjoint list share no address. -/
theorem disjoint_of_mem {regions : List Region}
    (disjoint : regions.Pairwise (fun left right => Disjoint left.bytes right.bytes))
    {left right : Region} (first : left ∈ regions) (second : right ∈ regions)
    (different : left ≠ right) : Disjoint left.bytes right.bytes := by
  have : Std.Symm (fun left right : Region => Disjoint left.bytes right.bytes) :=
    ⟨fun _ _ apart => apart.symm⟩
  exact disjoint.forall first second different

/-- A region disjoint from every listed one is disjoint from their union. -/
theorem disjoint_bytes_iff (region : Region) (regions : List Region) :
    Disjoint region.bytes (bytes regions) ↔
      ∀ old ∈ regions, Disjoint region.bytes old.bytes := by
  simp only [Set.disjoint_left, bytes, Set.mem_ofPred_eq, not_exists, not_and]
  constructor
  · intro apart old present byte inside hit
    exact apart inside old present hit
  · intro apart byte inside old present hit
    exact apart old present inside hit

/-- Between different regions of a coalesced list there is a gap. -/
theorem Coalesced.gap {regions : List Region} (sorted : Coalesced regions) {left right : Region}
    (first : left ∈ regions) (second : right ∈ regions) (different : left ≠ right) :
    left.stop < right.start ∨ right.stop < left.start := by
  have : Std.Symm (fun left right : Region => left.stop < right.start ∨ right.stop < left.start) :=
    ⟨fun _ _ gap => gap.symm⟩
  have either : regions.Pairwise (fun left right => left.stop < right.start ∨ right.stop < left.start) :=
    sorted.imp Or.inl
  exact either.forall first second different

/-- A list with one region shrunk stays coalesced. -/
theorem Coalesced.shrink {before after : List Region} {region smaller : Region}
    (sorted : Coalesced (before ++ region :: after)) (lower : region.start ≤ smaller.start)
    (upper : smaller.stop ≤ region.stop) : Coalesced (before ++ smaller :: after) := by
  obtain ⟨sortedBefore, sortedRest, across⟩ := List.pairwise_append.mp sorted
  obtain ⟨behind, sortedAfter⟩ := List.pairwise_cons.mp sortedRest
  refine List.pairwise_append.mpr ⟨sortedBefore, List.pairwise_cons.mpr ⟨?_, sortedAfter⟩, ?_⟩
  · intro old later
    exact Nat.lt_of_le_of_lt upper (behind old later)
  · intro old earlier other member
    rcases List.mem_cons.mp member with rfl | later
    · exact Nat.lt_of_lt_of_le (across old earlier region List.mem_cons_self) lower
    · exact across old earlier other (List.mem_cons_of_mem _ later)

/-- A block covered by a coalesced list lies in one of its regions: the address where
a region ends is covered by no other. -/
theorem Coalesced.covered_inside {regions : List Region} (sorted : Coalesced regions)
    {block : Region} (positive : 0 < block.size) (covered : block.bytes ⊆ bytes regions) :
    ∃ region ∈ regions, region.start ≤ block.start ∧ block.stop ≤ region.stop := by
  obtain ⟨region, member, here⟩ := covered (show block.start ∈ block.bytes by
    rw [Region.mem_bytes]
    omega)
  rw [Region.mem_bytes] at here
  refine ⟨region, member, here.1, ?_⟩
  by_contra beyond
  obtain ⟨other, present, there⟩ := covered (show region.stop ∈ block.bytes by
    rw [Region.mem_bytes]
    unfold Region.stop at beyond ⊢
    omega)
  rw [Region.mem_bytes] at there
  have different : region ≠ other := by
    rintro rfl
    unfold Region.stop at there
    omega
  have gap := sorted.gap member present different
  unfold Region.stop at gap there
  omega

/-- The first region of a coalesced list starts at its least address. -/
theorem Coalesced.least {first : Region} {rest : List Region} (sorted : Coalesced (first :: rest))
    {byte : Nat} (covered : byte ∈ bytes (first :: rest)) : first.start ≤ byte := by
  obtain ⟨region, member, inside⟩ := covered
  rw [Region.mem_bytes] at inside
  rcases List.mem_cons.mp member with rfl | later
  · exact inside.1
  · have gap := (List.pairwise_cons.mp sorted).1 region later
    unfold Region.stop at gap
    omega

/-- The address where the first region ends is not covered. -/
theorem Coalesced.stop_uncovered {first : Region} {rest : List Region}
    (sorted : Coalesced (first :: rest)) : first.stop ∉ bytes (first :: rest) := by
  rintro ⟨region, member, inside⟩
  rw [Region.mem_bytes] at inside
  rcases List.mem_cons.mp member with rfl | later
  · unfold Region.stop at inside
    omega
  · have gap := (List.pairwise_cons.mp sorted).1 region later
    omega

/-- The first region is not longer than that of a coalesced list with the same start
that covers at most as much. -/
theorem Coalesced.stop_le {first other : Region} {rest others : List Region}
    (sorted : Coalesced (other :: others)) (start : other.start = first.start)
    (positive : 0 < other.size)
    (covers : bytes (first :: rest) ⊆ bytes (other :: others)) : first.stop ≤ other.stop := by
  by_contra beyond
  apply sorted.stop_uncovered
  apply covers
  refine ⟨first, List.mem_cons_self, ?_⟩
  rw [Region.mem_bytes]
  unfold Region.stop at beyond ⊢
  omega

/-- Coalesced lists of the same addresses are equal. The induction is on the lists:
equal addresses make the first regions start and end alike. -/
theorem coalesced_unique {left right : List Region} (leftSorted : Coalesced left)
    (rightSorted : Coalesced right) (leftSizes : ∀ region ∈ left, 0 < region.size)
    (rightSizes : ∀ region ∈ right, 0 < region.size) (same : bytes left = bytes right) :
    left = right := by
  have nonempty (first : Region) (rest : List Region) (positive : 0 < first.size) :
      first.start ∈ bytes (first :: rest) := by
    refine ⟨first, List.mem_cons_self, ?_⟩
    rw [Region.mem_bytes]
    omega
  induction left generalizing right with
  | nil =>
    cases right with
    | nil => rfl
    | cons other others =>
      have inside := nonempty other others (rightSizes other List.mem_cons_self)
      rw [← same, bytes_nil] at inside
      exact absurd inside (Set.notMem_empty _)
  | cons first rest inductionHypothesis =>
    have firstSize := leftSizes first List.mem_cons_self
    cases right with
    | nil =>
      have inside := nonempty first rest firstSize
      rw [same, bytes_nil] at inside
      exact absurd inside (Set.notMem_empty _)
    | cons other others =>
      have otherSize := rightSizes other List.mem_cons_self
      have lower : other.start ≤ first.start :=
        rightSorted.least (same ▸ nonempty first rest firstSize)
      have upper : first.start ≤ other.start :=
        leftSorted.least (same.symm ▸ nonempty other others otherSize)
      have starts : other.start = first.start := Nat.le_antisymm lower upper
      have shorter := rightSorted.stop_le starts otherSize same.subset
      have longer := leftSorted.stop_le starts.symm firstSize same.superset
      have equal : first = other := by
        obtain ⟨start, size⟩ := first
        obtain ⟨start', size'⟩ := other
        simp only [Region.stop, Region.mk.injEq] at starts shorter longer ⊢
        omega
      subst equal
      have remaining : bytes rest = bytes others := by
        have off := (disjoint_bytes_iff first rest).mpr (List.pairwise_cons.mp leftSorted.disjoint).1
        have off' := (disjoint_bytes_iff first others).mpr
          (List.pairwise_cons.mp rightSorted.disjoint).1
        rw [bytes_cons, bytes_cons, Set.union_comm, Set.union_comm first.bytes] at same
        exact eq_of_inf_eq_sup_eq (off.symm.eq_bot.trans off'.symm.eq_bot.symm) same
      rw [inductionHypothesis (List.pairwise_cons.mp leftSorted).2
        (List.pairwise_cons.mp rightSorted).2
        (fun region member => leftSizes region (List.mem_cons_of_mem _ member))
        (fun region member => rightSizes region (List.mem_cons_of_mem _ member)) remaining]

/-- Disjoint parts that together are exactly the whole. -/
structure Partition (whole parts : List Region) : Prop where
  covers : bytes whole = bytes parts
  disjoint : parts.Pairwise (fun left right => Disjoint left.bytes right.bytes)

/-- Disjointness of a list does not depend on its order. -/
theorem disjoint_perm {left right : List Region} (reordered : left.Perm right) :
    left.Pairwise (fun first second => Disjoint first.bytes second.bytes) ↔
      right.Pairwise (fun first second => Disjoint first.bytes second.bytes) :=
  reordered.pairwise_iff (fun apart => apart.symm)

/-- The parts of a partition may be listed in any order. -/
theorem Partition.perm {whole parts others : List Region} (partition : Partition whole parts)
    (reordered : parts.Perm others) : Partition whole others where
  covers := partition.covers.trans (bytes_perm reordered)
  disjoint := (disjoint_perm reordered).mp partition.disjoint

/-- Replace some parts of a partition by a partition of them. -/
theorem Partition.refine {whole parts rest finer : List Region}
    (partition : Partition whole (parts ++ rest)) (refined : Partition parts finer) :
    Partition whole (finer ++ rest) where
  covers := by rw [partition.covers, bytes_append, bytes_append, refined.covers]
  disjoint := by
    obtain ⟨_, restApart, across⟩ := List.pairwise_append.mp partition.disjoint
    refine List.pairwise_append.mpr ⟨refined.disjoint, restApart, ?_⟩
    intro part member other present
    rw [Set.disjoint_left]
    intro byte inPart inOther
    have covered : byte ∈ bytes parts := by
      rw [refined.covers]
      exact bytes_of_mem member inPart
    obtain ⟨old, known, inOld⟩ := covered
    exact Set.disjoint_left.mp (across old known other present) inOld inOther

/-- Adding the same disjoint region to the whole and to its parts. -/
theorem Partition.cons {whole parts : List Region} (partition : Partition whole parts)
    (region : Region) (apart : Disjoint region.bytes (bytes whole)) :
    Partition (region :: whole) (region :: parts) where
  covers := by rw [bytes_cons, bytes_cons, partition.covers]
  disjoint := by
    refine List.pairwise_cons.mpr ⟨?_, partition.disjoint⟩
    rw [← disjoint_bytes_iff, ← partition.covers]
    exact apart

/-- A coalesced list with a region inserted is a partition of the two. -/
theorem insert_partition (region : Region) (regions : List Region) (sorted : Coalesced regions)
    (positive : 0 < region.size) (sizes : ∀ old ∈ regions, 0 < old.size)
    (disjoint : ∀ old ∈ regions, Disjoint region.bytes old.bytes) :
    Partition (region :: regions) (insert region regions) where
  covers := by rw [bytes_insert, bytes_cons]
  disjoint := (insert_coalesced region regions sorted positive sizes disjoint).disjoint

/-- The first region that contains an address is the only one. -/
theorem find_contains {regions : List Region}
    (disjoint : regions.Pairwise (fun left right => Disjoint left.bytes right.bytes))
    {region : Region} (member : region ∈ regions) {byte : Nat} (inside : byte ∈ region.bytes) :
    regions.find? (Region.contains byte) = some region := by
  cases found : regions.find? (Region.contains byte) with
  | none =>
    have missed := List.find?_eq_none.mp found region member
    exact absurd ((region.contains_iff byte).mpr inside) missed
  | some other =>
    by_contra different
    have apart := disjoint_of_mem disjoint member (List.mem_of_find?_eq_some found)
      (fun same => different (by rw [same]))
    exact Set.disjoint_left.mp apart inside
      ((other.contains_iff byte).mp (List.find?_some found))

/-- Each covered address lies in exactly one of pairwise disjoint regions. -/
theorem count_one {regions : List Region}
    (disjoint : regions.Pairwise (fun left right => Disjoint left.bytes right.bytes))
    (byte : Nat) (covered : byte ∈ bytes regions) :
    regions.countP (Region.contains byte) = 1 := by
  induction regions with
  | nil => simp at covered
  | cons first rest inductionHypothesis =>
    obtain ⟨apart, restDisjoint⟩ := List.pairwise_cons.mp disjoint
    by_cases here : byte ∈ first.bytes
    · have absent : rest.countP (Region.contains byte) = 0 := by
        rw [List.countP_eq_zero]
        intro other present hit
        exact Set.disjoint_left.mp (apart other present) here
          ((Region.contains_iff other byte).mp hit)
      rw [List.countP_cons_of_pos ((Region.contains_iff first byte).mpr here), absent]
    · have inRest : byte ∈ bytes rest := by
        rw [bytes_cons] at covered
        exact covered.resolve_left here
      have miss : ¬ first.contains byte = true := fun hit =>
        here ((Region.contains_iff first byte).mp hit)
      rw [List.countP_cons_of_neg miss]
      exact inductionHypothesis restDisjoint inRest

end XyronOS.Regions
