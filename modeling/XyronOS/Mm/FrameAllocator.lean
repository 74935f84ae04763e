import XyronOS.Library.PackedBits
import XyronOS.Mm.Addresses

/-!
# The bitmap frame allocator

One bit per 4 KiB frame, zero for free. The operations are the kernel's: a
wrapping scan from a hint, a scan of a prefix for frames below a limit, and a
checked release. The two scans return at their first hit, so each is a search
over the scanned positions followed by one update.

Over the bits stands the set of free frames. In a consistent allocator the
bitmap covers every tracked frame and the counter is the size of that set; each
operation removes or adds one member or leaves the allocator as it was. The
later developments use only these set-level facts.
-/

namespace XyronOS

/-- Largest bitmap `init` accepts. -/
def maxBitmapBytes : Nat := 64 * 1024 * 1024

/-- Why a release was refused. -/
inductive DeallocError where
  | outOfRange
  | doubleFree
deriving DecidableEq, Repr

/-- The allocator's bookkeeping. The bitmap is the exclusively owned byte slice
over its storage. -/
structure FrameAllocator where
  bitmap : List (BitVec 8)
  totalFrames : Nat
  framesFree : Nat
  nextHint : Nat
deriving DecidableEq, Repr

namespace FrameAllocator

/-- A frame is free when its bit is clear. -/
def isFree (allocator : FrameAllocator) (frame : Nat) : Bool :=
  (PackedBits.byteAt allocator.bitmap (frame / 8) &&& (1#8 <<< (frame % 8))) == 0#8

/-- Set a frame's bit and count it if it was free. -/
def markUsed (allocator : FrameAllocator) (frame : Nat) : FrameAllocator :=
  { allocator with
    framesFree := if allocator.isFree frame then allocator.framesFree - 1
      else allocator.framesFree
    bitmap := PackedBits.set allocator.bitmap frame }

/-- Clear a frame's bit and count it if it was used. -/
def markFree (allocator : FrameAllocator) (frame : Nat) : FrameAllocator :=
  { allocator with
    framesFree := if !allocator.isFree frame then allocator.framesFree + 1
      else allocator.framesFree
    bitmap := PackedBits.clear allocator.bitmap frame }

/-- First free frame at or cyclically after the hint. -/
def scanFrom (allocator : FrameAllocator) : Option Nat :=
  ((List.range allocator.totalFrames).find? (fun offset =>
      allocator.isFree ((allocator.nextHint + offset) % allocator.totalFrames))).map
    (fun offset => (allocator.nextHint + offset) % allocator.totalFrames)

/-- Allocate one frame, scanning from the hint and wrapping around. -/
def allocate (allocator : FrameAllocator) : Option Nat × FrameAllocator :=
  if allocator.totalFrames = 0 then (none, allocator)
  else
    match allocator.scanFrom with
    | some frame =>
        (some (PhysAddr.fromFrameNumber frame),
          { allocator.markUsed frame with nextHint := (frame + 1) % allocator.totalFrames })
    | none => (none, allocator)

/-- Release a frame that is in range and used. -/
def deallocate (allocator : FrameAllocator) (address : Nat) :
    Except DeallocError Unit × FrameAllocator :=
  let frame := PhysAddr.frameNumber address
  if frame ≥ allocator.totalFrames then (.error .outOfRange, allocator)
  else if allocator.isFree frame then (.error .doubleFree, allocator)
  else (.ok (), allocator.markFree frame)

/-- Allocate the lowest free frame below `limit`. -/
def allocateBelow (allocator : FrameAllocator) (limit : Nat) : Option Nat × FrameAllocator :=
  let bound := min allocator.totalFrames (PhysAddr.frameNumber limit)
  match (List.range bound).find? allocator.isFree with
  | some frame => (some (PhysAddr.fromFrameNumber frame), allocator.markUsed frame)
  | none => (none, allocator)

/-- Free frames among those tracked. -/
def freeFrames (allocator : FrameAllocator) : Finset Nat :=
  (Finset.range allocator.totalFrames).filter (fun frame => allocator.isFree frame)

/-- Free frames that lie below `limit`. -/
def freeBelow (allocator : FrameAllocator) (limit : Nat) : Finset Nat :=
  allocator.freeFrames.filter (fun frame => frame < PhysAddr.frameNumber limit)

/-- Tracked frames whose bit is set. -/
def usedFrames (allocator : FrameAllocator) : Finset Nat :=
  (Finset.range allocator.totalFrames).filter (fun frame => ¬ allocator.isFree frame)

/-- The bitmap covers the tracked frames, the counter counts the clear bits, and
the bitmap has a size `init` accepts. -/
structure Consistent (allocator : FrameAllocator) : Prop where
  covers : allocator.totalFrames ≤ 8 * allocator.bitmap.length
  counted : allocator.framesFree = allocator.freeFrames.card
  sized : allocator.bitmap.length ≤ maxBitmapBytes

/-- Freeness is the negated packed bit. -/
theorem isFree_eq (allocator : FrameAllocator) (frame : Nat) :
    allocator.isFree frame = !PackedBits.test allocator.bitmap frame := by
  simp [isFree, PackedBits.test, bne]

theorem mem_freeFrames (allocator : FrameAllocator) (frame : Nat) :
    frame ∈ allocator.freeFrames ↔
      frame < allocator.totalFrames ∧ allocator.isFree frame = true := by
  simp [freeFrames]

theorem mem_usedFrames (allocator : FrameAllocator) (frame : Nat) :
    frame ∈ allocator.usedFrames ↔
      frame < allocator.totalFrames ∧ allocator.isFree frame = false := by
  simp [usedFrames]

/-- Used frames are the tracked ones that are not free. -/
theorem usedFrames_eq (allocator : FrameAllocator) :
    allocator.usedFrames = Finset.range allocator.totalFrames \ allocator.freeFrames := by
  ext frame
  simp only [mem_usedFrames, Finset.mem_sdiff, Finset.mem_range, mem_freeFrames]
  cases allocator.isFree frame <;> simp

/-- A tracked frame's byte exists in a consistent allocator. -/
theorem Consistent.stored {allocator : FrameAllocator} (consistent : allocator.Consistent)
    {frame : Nat} (tracked : frame < allocator.totalFrames) :
    frame / 8 < allocator.bitmap.length := by
  have covers := consistent.covers
  omega

/-- A tracked frame's address is far below bit 52. -/
theorem Consistent.address_lt {allocator : FrameAllocator} (consistent : allocator.Consistent)
    {frame : Nat} (tracked : frame < allocator.totalFrames) :
    PhysAddr.fromFrameNumber frame < 2 ^ 52 := by
  have covers := consistent.covers
  have sized := consistent.sized
  unfold maxBitmapBytes at sized
  unfold PhysAddr.fromFrameNumber frameSize
  omega

/-- Marking a tracked frame used removes it from the free set. -/
theorem freeFrames_markUsed {allocator : FrameAllocator} (consistent : allocator.Consistent)
    {frame : Nat} (tracked : frame < allocator.totalFrames) :
    (allocator.markUsed frame).freeFrames = allocator.freeFrames.erase frame := by
  ext tested
  simp only [mem_freeFrames, Finset.mem_erase, isFree_eq, markUsed,
    PackedBits.test_set _ _ _ (consistent.stored tracked)]
  by_cases same : tested = frame <;> simp [same]

/-- Marking a tracked frame free adds it to the free set. -/
theorem freeFrames_markFree {allocator : FrameAllocator} (consistent : allocator.Consistent)
    {frame : Nat} (tracked : frame < allocator.totalFrames) :
    (allocator.markFree frame).freeFrames = insert frame allocator.freeFrames := by
  ext tested
  simp only [mem_freeFrames, Finset.mem_insert, isFree_eq, markFree,
    PackedBits.test_clear _ _ _ (consistent.stored tracked)]
  by_cases same : tested = frame <;> simp [same, tracked]

/-- Marking a tracked frame used keeps the allocator consistent; a frame already
used is not counted twice. -/
theorem Consistent.markUsed {allocator : FrameAllocator} (consistent : allocator.Consistent)
    {frame : Nat} (tracked : frame < allocator.totalFrames) :
    (allocator.markUsed frame).Consistent := by
  constructor
  · simpa [FrameAllocator.markUsed] using consistent.covers
  · rw [freeFrames_markUsed consistent tracked]
    cases clear : allocator.isFree frame with
    | true =>
      have free : frame ∈ allocator.freeFrames := (mem_freeFrames _ _).mpr ⟨tracked, clear⟩
      rw [Finset.card_erase_of_mem free, ← consistent.counted]
      simp [FrameAllocator.markUsed, clear]
    | false =>
      have absent : frame ∉ allocator.freeFrames := by simp [mem_freeFrames, clear]
      rw [Finset.erase_eq_of_notMem absent, ← consistent.counted]
      simp [FrameAllocator.markUsed, clear]
  · simpa [FrameAllocator.markUsed] using consistent.sized

/-- Marking a tracked frame free keeps the allocator consistent; a frame already
free is not counted twice. -/
theorem Consistent.markFree {allocator : FrameAllocator} (consistent : allocator.Consistent)
    {frame : Nat} (tracked : frame < allocator.totalFrames) :
    (allocator.markFree frame).Consistent := by
  constructor
  · simpa [FrameAllocator.markFree] using consistent.covers
  · rw [freeFrames_markFree consistent tracked]
    cases clear : allocator.isFree frame with
    | true =>
      have free : frame ∈ allocator.freeFrames := (mem_freeFrames _ _).mpr ⟨tracked, clear⟩
      rw [Finset.insert_eq_of_mem free, ← consistent.counted]
      simp [FrameAllocator.markFree, clear]
    | false =>
      have absent : frame ∉ allocator.freeFrames := by simp [mem_freeFrames, clear]
      rw [Finset.card_insert_of_notMem absent, ← consistent.counted]
      simp [FrameAllocator.markFree, clear]
  · simpa [FrameAllocator.markFree] using consistent.sized

/-- `after` is `before` with one of its free frames taken. -/
structure Takes (before : FrameAllocator) (frame : Nat) (after : FrameAllocator) : Prop where
  free : frame ∈ before.freeFrames
  freeFrames : after.freeFrames = before.freeFrames.erase frame
  totalFrames : after.totalFrames = before.totalFrames
  consistent : after.Consistent

/-- A taken frame is used from then on; no other frame changed. -/
theorem Takes.usedFrames {before after : FrameAllocator} {frame : Nat}
    (takes : before.Takes frame after) : after.usedFrames = insert frame before.usedFrames := by
  have tracked := ((mem_freeFrames _ _).mp takes.free).1
  rw [usedFrames_eq, usedFrames_eq, takes.freeFrames, takes.totalFrames]
  ext tested
  simp only [Finset.mem_sdiff, Finset.mem_range, Finset.mem_erase, Finset.mem_insert]
  by_cases same : tested = frame
  · simp [same, tracked]
  · simp [same]

theorem Takes.unused {before after : FrameAllocator} {frame : Nat}
    (takes : before.Takes frame after) : frame ∉ before.usedFrames := by
  rw [usedFrames_eq, Finset.mem_sdiff]
  exact fun used => used.2 takes.free

/-- The free frames below a limit lose the taken one. -/
theorem Takes.freeBelow {before after : FrameAllocator} {frame : Nat}
    (takes : before.Takes frame after) (limit : Nat) :
    after.freeBelow limit = (before.freeBelow limit).erase frame := by
  rw [FrameAllocator.freeBelow, FrameAllocator.freeBelow, takes.freeFrames, Finset.filter_erase]

/-- Marking any free frame used takes it. -/
theorem Consistent.takes {allocator : FrameAllocator} (consistent : allocator.Consistent)
    {frame : Nat} (free : frame ∈ allocator.freeFrames) (hint : Nat) :
    allocator.Takes frame { allocator.markUsed frame with nextHint := hint } := by
  have tracked := ((mem_freeFrames allocator frame).mp free).1
  have kept := consistent.markUsed tracked
  exact ⟨free, freeFrames_markUsed consistent tracked, rfl, kept.covers, kept.counted, kept.sized⟩

/-- The wrapping scan reaches every tracked frame. -/
theorem cyclic_offset (hint frame total : Nat) (inside : frame < total) :
    ∃ offset, offset < total ∧ (hint + offset) % total = frame := by
  have positive : 0 < total := by omega
  refine ⟨(frame + (total - hint % total)) % total, Nat.mod_lt _ positive, ?_⟩
  have rest : hint % total < total := Nat.mod_lt _ positive
  have sum : hint % total + (frame + (total - hint % total)) = frame + total := by omega
  rw [Nat.add_mod_mod, ← Nat.mod_add_mod, sum, Nat.add_mod_right, Nat.mod_eq_of_lt inside]

/-- The scan from the hint finds a free frame, and finds one if there is any. -/
theorem scanFrom_spec (allocator : FrameAllocator) :
    (∀ frame, allocator.scanFrom = some frame → frame ∈ allocator.freeFrames) ∧
      (allocator.scanFrom = none → allocator.freeFrames = ∅) := by
  constructor
  · intro frame found
    obtain ⟨offset, hit, rfl⟩ := Option.map_eq_some_iff.mp found
    have free := List.find?_some hit
    have inside : offset < allocator.totalFrames := List.mem_range.mp (List.mem_of_find?_eq_some hit)
    exact (mem_freeFrames _ _).mpr ⟨Nat.mod_lt _ (by omega), free⟩
  · intro missed
    rw [scanFrom, Option.map_eq_none_iff, List.find?_eq_none] at missed
    rw [Finset.eq_empty_iff_forall_notMem]
    intro frame free
    obtain ⟨tracked, clear⟩ := (mem_freeFrames _ _).mp free
    obtain ⟨offset, inside, reached⟩ := cyclic_offset allocator.nextHint frame _ tracked
    exact missed offset (List.mem_range.mpr inside) (reached ▸ clear)

/-- Every outcome of `allocate`: the free frame the scan finds is taken, or there
is none and nothing changes. -/
theorem allocate_cases {allocator : FrameAllocator} (consistent : allocator.Consistent) :
    (∃ frame after, allocator.allocate = (some (PhysAddr.fromFrameNumber frame), after) ∧
        allocator.scanFrom = some frame ∧ allocator.Takes frame after) ∨
      (allocator.allocate = (none, allocator) ∧ allocator.scanFrom = none ∧
        allocator.freeFrames = ∅) := by
  obtain ⟨sound, complete⟩ := scanFrom_spec allocator
  by_cases empty : allocator.totalFrames = 0
  · right
    have missed : allocator.scanFrom = none := by simp [scanFrom, empty]
    exact ⟨by simp [allocate, empty], missed, complete missed⟩
  · cases found : allocator.scanFrom with
    | none => exact .inr ⟨by simp [allocate, empty, found], rfl, complete found⟩
    | some frame =>
      exact .inl ⟨frame, { allocator.markUsed frame with
          nextHint := (frame + 1) % allocator.totalFrames },
        by simp [allocate, empty, found], rfl, consistent.takes (sound frame found) _⟩

/-- Every outcome of `allocateBelow`: some free frame wholly below the limit is
taken, or every frame below it is used and nothing changes. -/
theorem allocateBelow_cases {allocator : FrameAllocator} (consistent : allocator.Consistent)
    (limit : Nat) :
    (∃ frame after, allocator.allocateBelow limit = (some (PhysAddr.fromFrameNumber frame), after) ∧
        frame < PhysAddr.frameNumber limit ∧ allocator.Takes frame after) ∨
      (allocator.allocateBelow limit = (none, allocator) ∧ allocator.freeBelow limit = ∅) := by
  cases found : (List.range (min allocator.totalFrames (PhysAddr.frameNumber limit))).find?
      allocator.isFree with
  | none =>
    refine .inr ⟨by simp [allocateBelow, found], ?_⟩
    rw [Finset.eq_empty_iff_forall_notMem]
    intro frame member
    obtain ⟨free, below⟩ := Finset.mem_filter.mp member
    obtain ⟨tracked, clear⟩ := (mem_freeFrames _ _).mp free
    rw [List.find?_eq_none] at found
    exact found frame (List.mem_range.mpr (by omega)) clear
  | some frame =>
    have clear := List.find?_some found
    have inside := List.mem_range.mp (List.mem_of_find?_eq_some found)
    have free : frame ∈ allocator.freeFrames := (mem_freeFrames _ _).mpr ⟨by omega, clear⟩
    exact .inl ⟨frame, allocator.markUsed frame, by simp [allocateBelow, found], by omega,
      consistent.takes free allocator.nextHint⟩

/-- Whichever function returned it, an address is that of a free frame. -/
theorem Consistent.returned {allocator after : FrameAllocator}
    (consistent : allocator.Consistent) {address : Nat}
    (returned : allocator.allocate = (some address, after) ∨
      ∃ limit, allocator.allocateBelow limit = (some address, after)) :
    ∃ frame ∈ allocator.freeFrames, address = PhysAddr.fromFrameNumber frame := by
  rcases returned with scanned | ⟨limit, scanned⟩
  · rcases allocate_cases consistent with ⟨frame, _, taken, _, takes⟩ | ⟨refused, _⟩
    · rw [taken] at scanned
      exact ⟨frame, takes.free, (Option.some.inj (Prod.mk.inj scanned).1).symm⟩
    · rw [refused] at scanned
      cases (Prod.mk.inj scanned).1
  · rcases allocateBelow_cases consistent limit with ⟨frame, _, taken, _, takes⟩ | ⟨refused, _⟩
    · rw [taken] at scanned
      exact ⟨frame, takes.free, (Option.some.inj (Prod.mk.inj scanned).1).symm⟩
    · rw [refused] at scanned
      cases (Prod.mk.inj scanned).1

/-- `after` is `before` with one of its used frames released. -/
structure Releases (before : FrameAllocator) (frame : Nat) (after : FrameAllocator) : Prop where
  used : frame ∈ before.usedFrames
  freeFrames : after.freeFrames = insert frame before.freeFrames
  totalFrames : after.totalFrames = before.totalFrames
  consistent : after.Consistent

/-- A released frame is no longer used; no other frame changed. -/
theorem Releases.usedFrames {before after : FrameAllocator} {frame : Nat}
    (releases : before.Releases frame after) :
    after.usedFrames = before.usedFrames.erase frame := by
  rw [usedFrames_eq, usedFrames_eq, releases.freeFrames, releases.totalFrames]
  ext tested
  simp only [Finset.mem_sdiff, Finset.mem_range, Finset.mem_erase, Finset.mem_insert]
  tauto

/-- Releasing a used frame succeeds and adds exactly that frame. -/
theorem deallocate_used {allocator : FrameAllocator} (consistent : allocator.Consistent)
    {frame : Nat} (used : frame ∈ allocator.usedFrames) :
    ∃ after, allocator.deallocate (PhysAddr.fromFrameNumber frame) = (.ok (), after) ∧
      allocator.Releases frame after := by
  obtain ⟨tracked, occupied⟩ := (mem_usedFrames allocator frame).mp used
  refine ⟨allocator.markFree frame, ?_, used, freeFrames_markFree consistent tracked, rfl,
    consistent.markFree tracked⟩
  simp [deallocate, occupied, tracked]

/-- A release is refused, with no effect, exactly if its frame is not a used one. -/
theorem deallocate_refused_iff (allocator : FrameAllocator) (address : Nat) :
    (∃ error, allocator.deallocate address = (.error error, allocator)) ↔
      PhysAddr.frameNumber address ∉ allocator.usedFrames := by
  rw [mem_usedFrames]
  by_cases outside : PhysAddr.frameNumber address ≥ allocator.totalFrames
  · constructor
    · rintro _ ⟨tracked, _⟩
      omega
    · exact fun _ => ⟨.outOfRange, if_pos outside⟩
  · have tracked := Nat.not_le.mp outside
    cases clear : allocator.isFree (PhysAddr.frameNumber address) with
    | true => simp [deallocate, outside, clear]
    | false => simp [deallocate, outside, clear, tracked]

end FrameAllocator

end XyronOS
