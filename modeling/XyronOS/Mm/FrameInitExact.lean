import XyronOS.Mm.FrameRuns

/-!
# The exact result of the allocator's initialisation

The three passes over the memory map as one definition by sets. The first pass
computes the greatest end of a valid entry. The second chooses the first entry that
can host the bitmap. Together with what the third pass and the reservation mark,
this determines a successful `init` completely: which frames are tracked, where the
bitmap is stored, which frames are free and how many. A failed `init` is meant to
have written nothing.

Two things can go wrong, and they are all that can. A bitmap placed at address zero is
stored and then reported as an error. And the third pass reads the map again with the
bitmap in place, which may show it other frames of usable memory than the map has.
-/

namespace XyronOS

open ByteMemory WordBits

namespace FrameAllocator

/-- The ends of the valid entries of a map. -/
def validEnds (entries : List MemoryMapEntry) : Set Nat :=
  {stop | ∃ entry ∈ entries, entry.Valid stop}

/-- The first pass ignores an entry that is not valid. -/
theorem raiseHighest_invalid {entry : MemoryMapEntry} (highest : Nat)
    (invalid : ∀ stop, ¬ entry.Valid stop) : raiseHighest highest entry = highest := by
  rw [raiseHighest]
  split
  · rfl
  rename_i pages
  split
  · rfl
  rename_i aligned
  have start : entry.physicalStart % frameSize = 0 := by
    simpa [PhysAddr.isFrameAligned] using aligned
  split
  · rfl
  · rename_i stop ended
    exact absurd ⟨pages, start, ended⟩ (invalid stop)

/-- The first pass raises its maximum to the end of a valid entry. -/
theorem raiseHighest_valid {entry : MemoryMapEntry} {stop : Nat} (highest : Nat)
    (valid : entry.Valid stop) : raiseHighest highest entry = max highest stop := by
  obtain ⟨pages, aligned, ended⟩ := valid
  have admitted : (!PhysAddr.isFrameAligned entry.physicalStart) = false := by
    simp [PhysAddr.isFrameAligned, aligned]
  rw [raiseHighest, if_neg pages, admitted, if_neg Bool.false_ne_true, ended]
  simp only
  split <;> omega

/-- The first pass from any start bounds every valid end, and returns the start or
one of those ends. -/
theorem foldl_raiseHighest (entries : List MemoryMapEntry) (start : Nat) :
    start ≤ entries.foldl raiseHighest start ∧
      (∀ stop ∈ validEnds entries, stop ≤ entries.foldl raiseHighest start) ∧
      (entries.foldl raiseHighest start = start ∨
        entries.foldl raiseHighest start ∈ validEnds entries) := by
  induction entries generalizing start with
  | nil => exact ⟨Nat.le_refl _, by simp [validEnds], .inl rfl⟩
  | cons entry rest inductionHypothesis =>
    obtain ⟨grows, bounds, attained⟩ := inductionHypothesis (raiseHighest start entry)
    rw [List.foldl_cons]
    have later : validEnds rest ⊆ validEnds (entry :: rest) := by
      rintro stop ⟨other, member, valid⟩
      exact ⟨other, List.mem_cons_of_mem _ member, valid⟩
    by_cases valid : ∃ stop, entry.Valid stop
    · obtain ⟨stop, valid⟩ := valid
      rw [raiseHighest_valid start valid] at grows bounds attained ⊢
      refine ⟨by omega, ?_, ?_⟩
      · rintro other ⟨found, member, validOther⟩
        cases member with
        | head =>
          have same : other = stop := Option.some.inj (validOther.2.2.symm.trans valid.2.2)
          omega
        | tail _ inRest => exact bounds other ⟨found, inRest, validOther⟩
      · rcases attained with same | member
        · rcases Nat.le_total stop start with below | above
          · exact .inl (by omega)
          · refine .inr ⟨entry, List.mem_cons_self .., ?_⟩
            rwa [same, Nat.max_eq_right above]
        · exact .inr (later member)
    · rw [raiseHighest_invalid start (not_exists.mp valid)] at grows bounds attained ⊢
      refine ⟨grows, ?_, attained.imp_right (fun member => later member)⟩
      rintro other ⟨found, member, validOther⟩
      cases member with
      | head => exact absurd ⟨other, validOther⟩ valid
      | tail _ inRest => exact bounds other ⟨found, inRest, validOther⟩

/-- If any entry is valid, the first pass returns the greatest valid end. -/
theorem highestAddr_greatest {entries : List MemoryMapEntry} (described : highestAddr entries ≠ 0) :
    IsGreatest (validEnds entries) (highestAddr entries) := by
  obtain ⟨_, bounds, attained⟩ := foldl_raiseHighest entries 0
  exact ⟨attained.resolve_left described, bounds⟩

/-- The reserved frames are as many as the bitmap needs, from its first one on. -/
theorem mem_bitmapFrames {base bytes frame : Nat} (low : base ≤ identityMapLimit)
    (sized : bytes ≤ maxBitmapBytes) :
    frame ∈ bitmapFrames base bytes ↔ PhysAddr.frameNumber base ≤ frame ∧
      frame < PhysAddr.frameNumber base + (bytes + (frameSize - 1)) / frameSize := by
  have exact : saturatingAdd (PhysAddr.frameNumber base) ((bytes + (frameSize - 1)) / frameSize) -
      PhysAddr.frameNumber base = (bytes + (frameSize - 1)) / frameSize := by
    unfold saturatingAdd PhysAddr.frameNumber frameSize
    unfold identityMapLimit at low
    unfold maxBitmapBytes at sized
    omega
  simp only [bitmapFrames]
  rw [exact, List.mem_range'_1]

/-- The bitmap lies at the start of the first entry that can host it. -/
theorem placement_hosted {memory : Memory} {bootInfo : BootInfo} {placement : Regions.Region}
    (placed : bitmapPlacement memory bootInfo = some placement) :
    ∃ earlier host later, MemoryMapIter.entries memory bootInfo = earlier ++ host :: later ∧
      Hosts placement.size host ∧ host.physicalStart = placement.start ∧
      ∀ entry ∈ earlier, ¬ Hosts placement.size entry := by
  obtain ⟨-, -, -, found⟩ := placement_spec placed
  obtain ⟨earlier, host, later, parts, hosted, skipped⟩ := List.findSome?_eq_some_iff.mp found
  obtain ⟨hosts, start⟩ := bitmapRegion_eq_some_iff.mp hosted
  refine ⟨earlier, host, later, parts, hosts, start.symm, ?_⟩
  intro entry member fits
  have accepted := bitmapRegion_eq_some_iff.mpr ⟨fits, rfl⟩
  rw [skipped entry member] at accepted
  cases accepted

/-- Everything a successful `init` returns and the place of its bitmap, as sets over the
entries of the map. -/
structure ExactInit (entries : List MemoryMapEntry) (allocator : FrameAllocator) (base : Nat) :
    Prop where
  tracked : ∃ top, IsGreatest (validEnds entries) top ∧ allocator.totalFrames = top / frameSize
  hosted : ∃ earlier host later, entries = earlier ++ host :: later ∧
    Hosts (bitmapBytes allocator.totalFrames) host ∧ host.physicalStart = base ∧
    ∀ entry ∈ earlier, ¬ Hosts (bitmapBytes allocator.totalFrames) entry
  free : ∀ frame < allocator.totalFrames, allocator.isFree frame = true ↔
    (∃ entry ∈ entries, Usable entry frame) ∧
    ¬ (PhysAddr.frameNumber base ≤ frame ∧ frame < PhysAddr.frameNumber base +
      (bitmapBytes allocator.totalFrames + (frameSize - 1)) / frameSize)
  counted : allocator.framesFree =
    ((Finset.range allocator.totalFrames).filter fun frame => allocator.isFree frame).card

/-- An error is returned before anything is stored, and an allocator is exact, with its
bitmap stored at its base. -/
structure ExactOutcome (memory : Memory) (bootInfo : BootInfo) : Prop where
  error : ∀ error, (initOutcome memory bootInfo).result = .error error →
    (initOutcome memory bootInfo).stored = none
  ok : ∀ allocator, (initOutcome memory bootInfo).result = .ok allocator →
    ∃ base, (initOutcome memory bootInfo).stored = some (base, allocator.bitmap) ∧
      ExactInit (MemoryMapIter.entries memory bootInfo) allocator base

/-- The third pass finds, off the bitmap, the frames of usable memory that the map has. -/
def ExactlyReadBack (memory : Memory) (bootInfo : BootInfo) (bitmap : Regions.Region) : Prop :=
  ∀ frame < highestAddr (MemoryMapIter.entries memory bootInfo) / frameSize,
    frame ∉ bitmapFrames bitmap.start bitmap.size →
    ((∃ entry ∈ readBack memory bootInfo bitmap, Usable entry frame) ↔
      ∃ entry ∈ MemoryMapIter.entries memory bootInfo, Usable entry frame)

section Placed

variable {memory : Memory} {bootInfo : BootInfo} {bitmap : Regions.Region}
  (placed : bitmapPlacement memory bootInfo = some bitmap)

include placed

/-- The frames that store the bitmap, as the result names them. -/
theorem mem_bitmapFrames_placed (frame : Nat) :
    frame ∈ bitmapFrames bitmap.start bitmap.size ↔ PhysAddr.frameNumber bitmap.start ≤ frame ∧
      frame < PhysAddr.frameNumber bitmap.start +
        (bitmapBytes (built memory bootInfo bitmap).totalFrames + (frameSize - 1)) / frameSize := by
  obtain ⟨size, -, sized, -⟩ := placement_spec placed
  obtain ⟨host, -, stop, -, -, start, room, low⟩ := placement_valid placed
  have total : (built memory bootInfo bitmap).totalFrames =
      highestAddr (MemoryMapIter.entries memory bootInfo) / frameSize :=
    (built_marks placed).totalFrames
  rw [mem_bitmapFrames (by omega) sized, total, ← size]

/-- A tracked frame is free as the third pass and the reservation say. -/
theorem built_isFree {frame : Nat}
    (tracked : frame < highestAddr (MemoryMapIter.entries memory bootInfo) / frameSize) :
    (built memory bootInfo bitmap).isFree frame = true ↔
      (∃ entry ∈ readBack memory bootInfo bitmap, Usable entry frame) ∧
        frame ∉ bitmapFrames bitmap.start bitmap.size := by
  have marks := built_marks placed
  have total : (built memory bootInfo bitmap).totalFrames =
      highestAddr (MemoryMapIter.entries memory bootInfo) / frameSize := marks.totalFrames
  have free := marks.mem_free frame
  rw [mem_freeFrames, total] at free
  simp only [allUsed, tracked, true_and] at free
  exact free

/-- What `init` builds is exact exactly if the third pass finds the frames the map has. -/
theorem built_exact_iff :
    ExactInit (MemoryMapIter.entries memory bootInfo) (built memory bootInfo bitmap)
        bitmap.start ↔
      ExactlyReadBack memory bootInfo bitmap := by
  obtain ⟨size, nonempty, -, -⟩ := placement_spec placed
  have marks := built_marks placed
  have total : (built memory bootInfo bitmap).totalFrames =
      highestAddr (MemoryMapIter.entries memory bootInfo) / frameSize := marks.totalFrames
  have reserved := mem_bitmapFrames_placed placed
  constructor
  · intro exact frame tracked unreserved
    have free := exact.free frame (total ▸ tracked)
    rw [← reserved, built_isFree placed tracked] at free
    simpa only [unreserved, not_false_eq_true, and_true] using free
  · intro same
    have described : highestAddr (MemoryMapIter.entries memory bootInfo) ≠ 0 := by
      intro blank
      rw [blank] at size
      exact nonempty size
    refine ⟨⟨_, highestAddr_greatest described, total⟩, ?_, ?_, marks.consistent.counted⟩
    · rw [total, ← size]
      exact placement_hosted placed
    · intro frame tracked
      rw [total] at tracked
      rw [← reserved, built_isFree placed tracked]
      constructor
      · rintro ⟨covered, unreserved⟩
        exact ⟨(same frame tracked unreserved).mp covered, unreserved⟩
      · rintro ⟨covered, unreserved⟩
        exact ⟨(same frame tracked unreserved).mpr covered, unreserved⟩

end Placed

end FrameAllocator

open FrameAllocator in
/-- When `init` is exact. On any memory map an error is returned before anything is
stored, and an allocator is determined by the entries, exactly if the bitmap is not
placed at address zero and the third pass finds the frames of usable memory that the map
has. It finds them if no byte that is read of an entry lies where the bitmap is placed. -/
theorem init_exact_iff (memory : Memory) (bootInfo : BootInfo) :
    (ExactOutcome memory bootInfo ↔
      ∀ bitmap, bitmapPlacement memory bootInfo = some bitmap →
        bitmap.start ≠ 0 ∧ ExactlyReadBack memory bootInfo bitmap) ∧
    (MapApart memory bootInfo → ∀ bitmap, bitmapPlacement memory bootInfo = some bitmap →
      ExactlyReadBack memory bootInfo bitmap) := by
  constructor
  · cases placed : bitmapPlacement memory bootInfo with
    | none =>
      obtain ⟨error, outcome⟩ := initOutcome_unplaced placed
      refine ⟨fun _ bitmap impossible => (by cases impossible), fun _ => ⟨?_, ?_⟩⟩
      · intro _ _
        rw [outcome]
      · intro allocator succeeded
        rw [outcome] at succeeded
        cases succeeded
    | some bitmap =>
      have outcome := initOutcome_placed placed
      constructor
      · intro exact other here
        obtain rfl := Option.some.inj here
        have nonzero : bitmap.start ≠ 0 := by
          intro null
          have unstored := exact.error (nullSliceError (built memory bootInfo bitmap).bitmap.length)
          rw [outcome, returned, if_pos null] at unstored
          cases unstored rfl
        refine ⟨nonzero, ?_⟩
        obtain ⟨base, stored, result⟩ := exact.ok (built memory bootInfo bitmap)
          (by rw [outcome, returned, if_neg nonzero])
        rw [outcome] at stored
        obtain ⟨rfl, -⟩ := Prod.mk.inj (Option.some.inj stored)
        exact (built_exact_iff placed).mp result
      · intro condition
        obtain ⟨nonzero, same⟩ := condition bitmap rfl
        refine ⟨?_, ?_⟩
        · intro error failed
          rw [outcome, returned, if_neg nonzero] at failed
          cases failed
        · intro allocator succeeded
          rw [outcome, returned, if_neg nonzero] at succeeded
          obtain rfl := Except.ok.inj succeeded
          exact ⟨bitmap.start, by rw [outcome], (built_exact_iff placed).mpr same⟩
  · intro apart bitmap placed frame _ _
    rw [readBack_apart apart placed]

/-- A map of one usable entry: eight pages from address zero on. -/
def nullMap : Memory := fun target =>
  if target = 0x100000 then 7#8
  else if target = 0x100018 then 8#8
  else 0#8

open FrameAllocator in
/-- Both ways to go wrong, with the buffer of the map apart from the bitmap. On the first
map the bitmap is stored at address zero and an error is returned. On the second one frame
16, of the entry of type 0, is free. -/
theorem init_inexact :
    (BufferApart nullMap smallMapInfo ∧
        (initOutcome nullMap smallMapInfo).result = .error .noSuitableBitmapRegion ∧
        (initOutcome nullMap smallMapInfo).stored = some (0, [0x01#8])) ∧
      BufferApart narrowMap narrowMapInfo ∧
      (initOutcome narrowMap narrowMapInfo).result =
        .ok ⟨[0x03#8, 0x00#8, 0x80#8], 23, 21, 0⟩ ∧
      (⟨[0x03#8, 0x00#8, 0x80#8], 23, 21, 0⟩ : FrameAllocator).isFree 16 = true ∧
      ¬ ∃ entry ∈ MemoryMapIter.entries narrowMap narrowMapInfo, Usable entry 16 := by
  have placed : bitmapPlacement nullMap smallMapInfo = some ⟨0, 1⟩ := by decide +kernel
  have listed : MemoryMapIter.entries narrowMap narrowMapInfo =
      [⟨0, 0x10000, 7⟩, ⟨7, 0x1000, 4⟩] := by
    decide +kernel
  refine ⟨⟨?_, by decide +kernel, by decide +kernel⟩, narrowMap_apart, by decide +kernel,
    by decide +kernel, ?_⟩
  · apply bufferApart_of_placement placed
    decide
  · rw [listed]
    rintro ⟨entry, member, conventional, -, -, upper⟩
    simp only [List.mem_cons, List.not_mem_nil, or_false] at member
    obtain rfl | rfl := member
    · cases conventional
    · exact absurd upper (by decide)

end XyronOS
