import XyronOS.Mm.FrameRuns

/-!
# The bitmap as a set of free frames

The frame allocator stands for a much simpler machine: a set of free frames, the
number of frames it tracks, and a hint. `Step` says what that machine may answer
to each request and which set remains. An allocation removes the first free frame
at or cyclically after the hint, an allocation below a limit removes the lowest
free frame, and a release adds its own frame or is refused.

`Sound` collects what keeps the bitmap, the counter and the hint in agreement with
that reading. It holds after every successful `init`, whatever the memory map
holds, and every operation preserves it; in a sound state each operation is a step
of the set machine.
-/

namespace XyronOS

open ByteMemory WordBits Runs

/-- A set of free frames, the frames it is drawn from, and where to look next. -/
structure FrameSet where
  total : Nat
  free : Finset Nat
  hint : Nat

/-- What an operation returns to its caller. -/
inductive FrameReply where
  | allocated (address : Option Nat)
  | deallocated (result : Except DeallocError Unit)

namespace FrameSet

/-- How far a frame lies from the hint, going up and around. -/
def distance (frames : FrameSet) (frame : Nat) : Nat :=
  (frame + (frames.total - frames.hint)) % frames.total

/-- The steps of the set machine. -/
inductive Step (frames : FrameSet) : FrameRequest → FrameReply → FrameSet → Prop where
  | exhausted (empty : frames.free = ∅) : Step frames .allocate (.allocated none) frames
  | allocate (frame : Nat) (free : frame ∈ frames.free)
      (first : ∀ other ∈ frames.free, frames.distance frame ≤ frames.distance other) :
      Step frames .allocate (.allocated (some (PhysAddr.fromFrameNumber frame)))
        ⟨frames.total, frames.free.erase frame, (frame + 1) % frames.total⟩
  | noneBelow (limit : Nat)
      (empty : ∀ frame ∈ frames.free, ¬ frame < min frames.total (PhysAddr.frameNumber limit)) :
      Step frames (.allocateBelow limit) (.allocated none) frames
  | allocateBelow (limit frame : Nat) (free : frame ∈ frames.free)
      (lowest : ∀ other ∈ frames.free, frame ≤ other)
      (below : PhysAddr.fromFrameNumber frame + frameSize ≤ limit) :
      Step frames (.allocateBelow limit) (.allocated (some (PhysAddr.fromFrameNumber frame)))
        ⟨frames.total, frames.free.erase frame, frames.hint⟩
  | outOfRange (address : Nat) (outside : frames.total ≤ PhysAddr.frameNumber address) :
      Step frames (.deallocate address) (.deallocated (.error .outOfRange)) frames
  | doubleFree (address : Nat) (free : PhysAddr.frameNumber address ∈ frames.free) :
      Step frames (.deallocate address) (.deallocated (.error .doubleFree)) frames
  | deallocate (address : Nat) (tracked : PhysAddr.frameNumber address < frames.total)
      (used : PhysAddr.frameNumber address ∉ frames.free) :
      Step frames (.deallocate address) (.deallocated (.ok ()))
        ⟨frames.total, insert (PhysAddr.frameNumber address) frames.free, frames.hint⟩

end FrameSet

namespace FrameAllocator

/-- The set machine's state an allocator stands for. -/
def frameSet (allocator : FrameAllocator) : FrameSet :=
  ⟨allocator.totalFrames, allocator.freeFrames, allocator.nextHint⟩

/-- Serve any request, with any argument. -/
def answer (allocator : FrameAllocator) : FrameRequest → FrameReply × FrameAllocator
  | .allocate => (.allocated allocator.allocate.1, allocator.allocate.2)
  | .allocateBelow limit =>
      (.allocated (allocator.allocateBelow limit).1, (allocator.allocateBelow limit).2)
  | .deallocate address =>
      (.deallocated (allocator.deallocate address).1, (allocator.deallocate address).2)

/-- Bitmap, counter and hint agree: one byte for eight frames, the counter counts
the clear bits, the hint is a tracked frame, and the bits past the last tracked
frame are set. -/
structure Sound (allocator : FrameAllocator) : Prop where
  length : allocator.bitmap.length = bitmapBytes allocator.totalFrames
  hint : allocator.nextHint < allocator.totalFrames
  counted : allocator.framesFree = allocator.freeFrames.card
  padding : ∀ bit, allocator.totalFrames ≤ bit → bit < 8 * allocator.bitmap.length →
    PackedBits.test allocator.bitmap bit = true
  sized : allocator.bitmap.length ≤ maxBitmapBytes

theorem Sound.consistent {allocator : FrameAllocator} (sound : allocator.Sound) :
    allocator.Consistent := by
  refine ⟨?_, sound.counted, sound.sized⟩
  rw [sound.length, bitmapBytes]
  omega

/-- The byte of a tracked frame exists, and a free frame is counted. -/
theorem Sound.accesses {allocator : FrameAllocator} (sound : allocator.Sound) {frame : Nat}
    (tracked : frame < allocator.totalFrames) :
    frame / 8 < allocator.bitmap.length ∧
      (allocator.isFree frame = true → 0 < allocator.framesFree) := by
  refine ⟨sound.consistent.stored tracked, ?_⟩
  intro clear
  rw [sound.counted, Finset.card_pos]
  exact ⟨frame, (mem_freeFrames _ _).mpr ⟨tracked, clear⟩⟩

theorem Sound.markUsed {allocator : FrameAllocator} (sound : allocator.Sound) {frame : Nat}
    (tracked : frame < allocator.totalFrames) : (allocator.markUsed frame).Sound where
  length := by simpa [FrameAllocator.markUsed] using sound.length
  hint := sound.hint
  counted := (sound.consistent.markUsed tracked).counted
  padding bit past inside := by
    simp only [FrameAllocator.markUsed, PackedBits.length_set] at past inside ⊢
    rw [PackedBits.test_set _ _ _ (sound.accesses tracked).1, sound.padding bit past inside,
      Bool.true_or]
  sized := by simpa [FrameAllocator.markUsed] using sound.sized

theorem Sound.markFree {allocator : FrameAllocator} (sound : allocator.Sound) {frame : Nat}
    (tracked : frame < allocator.totalFrames) : (allocator.markFree frame).Sound where
  length := by simpa [FrameAllocator.markFree] using sound.length
  hint := sound.hint
  counted := (sound.consistent.markFree tracked).counted
  padding bit past inside := by
    simp only [FrameAllocator.markFree, PackedBits.length_clear] at past inside ⊢
    have different : bit ≠ frame := by omega
    rw [PackedBits.test_clear _ _ _ (sound.accesses tracked).1, sound.padding bit past inside,
      Bool.true_and, decide_eq_true different]
  sized := by simpa [FrameAllocator.markFree] using sound.sized

/-- Moving the hint to another tracked frame keeps an allocator sound. -/
theorem Sound.withHint {allocator : FrameAllocator} (sound : allocator.Sound) {hint : Nat}
    (tracked : hint < allocator.totalFrames) : Sound { allocator with nextHint := hint } :=
  ⟨sound.length, tracked, sound.counted, sound.padding, sound.sized⟩

section Init

theorem markFreeFrom_sound {allocator : FrameAllocator} (sound : allocator.Sound)
    (frame remaining : Nat) : (allocator.markFreeFrom frame remaining).Sound := by
  induction remaining generalizing allocator frame with
  | zero => exact sound
  | succ remaining inductionHypothesis =>
    rw [markFreeFrom]
    split
    · exact sound
    · rename_i inside
      exact inductionHypothesis (sound.markFree (Nat.not_le.mp inside)) (frame + 1)

theorem freeEntry_sound {allocator : FrameAllocator} (sound : allocator.Sound)
    (entry : MemoryMapEntry) : (allocator.freeEntry entry).Sound := by
  rw [freeEntry]
  split
  · exact sound
  split
  · exact sound
  split
  · exact sound
  split
  · exact sound
  · exact markFreeFrom_sound sound _ _

/-- The third pass keeps the allocator sound whatever it reads. -/
theorem freeEntries_sound {allocator : FrameAllocator} (sound : allocator.Sound)
    (entries : List MemoryMapEntry) : (entries.foldl freeEntry allocator).Sound := by
  induction entries generalizing allocator with
  | nil => exact sound
  | cons entry rest inductionHypothesis =>
    exact inductionHypothesis (freeEntry_sound sound _)

theorem reserve_sound {allocator : FrameAllocator} (sound : allocator.Sound) (frames : List Nat) :
    (allocator.reserve frames).Sound := by
  induction frames generalizing allocator with
  | nil => exact sound
  | cons frame frames inductionHypothesis =>
    rw [reserve, List.foldl_cons]
    split
    · rename_i tracked
      exact inductionHypothesis (sound.markUsed tracked)
    · exact inductionHypothesis sound

/-- A successful `init` leaves a sound allocator, whatever the map holds and
wherever it lies. -/
theorem init_sound {memory after : Memory} {bootInfo : BootInfo} {allocator : FrameAllocator}
    (succeeded : init memory bootInfo = (.ok allocator, after)) : allocator.Sound := by
  obtain ⟨placement, placed, _, rfl, _⟩ := init_inversion succeeded
  obtain ⟨size, nonempty, small, _⟩ := placement_spec placed
  rw [size] at nonempty small
  obtain ⟨consistent, _⟩ := allUsed_spec _ small
  have start : (allUsed (highestAddr (MemoryMapIter.entries memory bootInfo) / frameSize)).Sound := by
    refine ⟨by simp [allUsed], ?_, consistent.counted, ?_, consistent.sized⟩
    · apply Nat.pos_of_ne_zero
      rintro blank
      simp only [allUsed] at blank
      exact nonempty (by rw [blank]; rfl)
    · intro bit _ inside
      simp only [allUsed, List.length_replicate] at inside
      exact PackedBits.test_replicate_ones _ bit (by omega)
  exact reserve_sound (freeEntries_sound start _) _

end Init

/-- The found offset of the wrapping scan is the distance of its frame. -/
theorem distance_offset {hint total offset : Nat} (tracked : hint < total)
    (inside : offset < total) : ((hint + offset) % total + (total - hint)) % total = offset := by
  rw [Nat.mod_add_mod, show hint + offset + (total - hint) = offset + total by omega,
    Nat.add_mod_right, Nat.mod_eq_of_lt inside]

/-- The scan returns the free frame nearest to the hint. -/
theorem Sound.scanFrom_first {allocator : FrameAllocator} (sound : allocator.Sound) {frame : Nat}
    (found : allocator.scanFrom = some frame) :
    ∀ other ∈ allocator.freeFrames,
      allocator.frameSet.distance frame ≤ allocator.frameSet.distance other := by
  intro other free
  obtain ⟨offset, hit, rfl⟩ := Option.map_eq_some_iff.mp found
  obtain ⟨_, inside, earlier⟩ := List.find?_range_eq_some.mp hit
  obtain ⟨tracked, clear⟩ := (mem_freeFrames _ _).mp free
  obtain ⟨later, bounded, rfl⟩ := cyclic_offset allocator.nextHint other _ tracked
  simp only [FrameSet.distance, frameSet]
  rw [distance_offset sound.hint (List.mem_range.mp inside), distance_offset sound.hint bounded]
  by_contra nearer
  have refused := earlier later (Nat.not_le.mp nearer)
  rw [clear] at refused
  cases refused

/-- Taking the first free frame after the hint, or finding none. -/
theorem Sound.allocate {allocator : FrameAllocator} (sound : allocator.Sound) :
    allocator.allocate.2.Sound ∧
      allocator.frameSet.Step .allocate (.allocated allocator.allocate.1)
        allocator.allocate.2.frameSet := by
  have positive : 0 < allocator.totalFrames := Nat.zero_lt_of_lt sound.hint
  obtain ⟨found_free, complete⟩ := scanFrom_spec allocator
  cases found : allocator.scanFrom with
  | none =>
    have refused : allocator.allocate = (none, allocator) := by
      simp [FrameAllocator.allocate, found]
    rw [refused]
    exact ⟨sound, .exhausted (complete found)⟩
  | some frame =>
    have free := found_free frame found
    have tracked := ((mem_freeFrames _ _).mp free).1
    have taken : allocator.allocate = (some (PhysAddr.fromFrameNumber frame),
        { allocator.markUsed frame with nextHint := (frame + 1) % allocator.totalFrames }) := by
      simp [FrameAllocator.allocate, found, positive.ne']
    have step := @FrameSet.Step.allocate allocator.frameSet frame free (sound.scanFrom_first found)
    have left : allocator.frameSet.free.erase frame = (allocator.markUsed frame).freeFrames :=
      (freeFrames_markUsed sound.consistent tracked).symm
    rw [left] at step
    rw [taken]
    exact ⟨(sound.markUsed tracked).withHint (Nat.mod_lt _ positive), step⟩

/-- Taking the lowest free frame below a limit, or finding none. -/
theorem Sound.allocateBelow {allocator : FrameAllocator} (sound : allocator.Sound) (limit : Nat) :
    (allocator.allocateBelow limit).2.Sound ∧
      allocator.frameSet.Step (.allocateBelow limit)
        (.allocated (allocator.allocateBelow limit).1)
        (allocator.allocateBelow limit).2.frameSet := by
  cases found : (List.range (min allocator.totalFrames (PhysAddr.frameNumber limit))).find?
      allocator.isFree with
  | none =>
    have refused : allocator.allocateBelow limit = (none, allocator) := by
      simp [FrameAllocator.allocateBelow, found]
    rw [refused]
    refine ⟨sound, .noneBelow limit ?_⟩
    intro frame free below
    have used := List.find?_range_eq_none.mp found frame below
    rw [((mem_freeFrames _ _).mp free).2] at used
    cases used
  | some frame =>
    obtain ⟨clear, inside, earlier⟩ := List.find?_range_eq_some.mp found
    have bounded := List.mem_range.mp inside
    have tracked : frame < allocator.totalFrames := by omega
    have taken : allocator.allocateBelow limit =
        (some (PhysAddr.fromFrameNumber frame), allocator.markUsed frame) := by
      simp [FrameAllocator.allocateBelow, found]
    have lowest : ∀ other ∈ allocator.frameSet.free, frame ≤ other := by
      intro other free
      by_contra lower
      have used := earlier other (Nat.not_le.mp lower)
      rw [((mem_freeFrames _ _).mp free).2] at used
      cases used
    have below : PhysAddr.fromFrameNumber frame + frameSize ≤ limit := by
      unfold PhysAddr.frameNumber frameSize at bounded
      unfold PhysAddr.fromFrameNumber frameSize
      omega
    have step := @FrameSet.Step.allocateBelow allocator.frameSet limit frame
      ((mem_freeFrames _ _).mpr ⟨tracked, clear⟩) lowest below
    have left : allocator.frameSet.free.erase frame = (allocator.markUsed frame).freeFrames :=
      (freeFrames_markUsed sound.consistent tracked).symm
    rw [left] at step
    rw [taken]
    exact ⟨sound.markUsed tracked, step⟩

/-- Releasing the frame of an address, or refusing to. -/
theorem Sound.deallocate {allocator : FrameAllocator} (sound : allocator.Sound) (address : Nat) :
    (allocator.deallocate address).2.Sound ∧
      allocator.frameSet.Step (.deallocate address)
        (.deallocated (allocator.deallocate address).1)
        (allocator.deallocate address).2.frameSet := by
  by_cases outside : PhysAddr.frameNumber address ≥ allocator.totalFrames
  · have refused : allocator.deallocate address = (.error .outOfRange, allocator) := by
      simp only [FrameAllocator.deallocate, outside, if_true]
    rw [refused]
    exact ⟨sound, .outOfRange address outside⟩
  · have tracked := Nat.not_le.mp outside
    cases clear : allocator.isFree (PhysAddr.frameNumber address) with
    | true =>
      have refused : allocator.deallocate address = (.error .doubleFree, allocator) := by
        simp only [FrameAllocator.deallocate, outside, if_false, clear, if_true]
      rw [refused]
      exact ⟨sound, .doubleFree address ((mem_freeFrames _ _).mpr ⟨tracked, clear⟩)⟩
    | false =>
      have released : allocator.deallocate address =
          (.ok (), allocator.markFree (PhysAddr.frameNumber address)) := by
        simp only [FrameAllocator.deallocate, outside, if_false, clear, Bool.false_eq_true]
      have used : PhysAddr.frameNumber address ∉ allocator.frameSet.free := by
        intro free
        rw [((mem_freeFrames _ _).mp free).2] at clear
        cases clear
      have step := @FrameSet.Step.deallocate allocator.frameSet address tracked used
      have grown : insert (PhysAddr.frameNumber address) allocator.frameSet.free =
          (allocator.markFree (PhysAddr.frameNumber address)).freeFrames :=
        (freeFrames_markFree sound.consistent tracked).symm
      rw [grown] at step
      rw [released]
      exact ⟨sound.markFree tracked, step⟩

/-- In a sound state every operation is a step of the set machine and leaves a sound
state. -/
theorem Sound.answer_step {allocator : FrameAllocator} (sound : allocator.Sound)
    (request : FrameRequest) :
    (allocator.answer request).2.Sound ∧
      allocator.frameSet.Step request (allocator.answer request).1
        (allocator.answer request).2.frameSet := by
  cases request with
  | allocate => exact sound.allocate
  | allocateBelow limit => exact sound.allocateBelow limit
  | deallocate address => exact sound.deallocate address

end FrameAllocator

/-- The bitmap allocator is a set of free frames. After any requests from a
successful `init` its bookkeeping is sound, no tracked frame lacks its byte and no
free frame is missing from the counter, and whatever is requested next is a step
of the set machine. -/
theorem frames_refine_set {memory after : Memory} {bootInfo : BootInfo}
    {allocator : FrameAllocator}
    (succeeded : FrameAllocator.init memory bootInfo = (.ok allocator, after))
    {requests : List FrameRequest} {state : FrameAllocator}
    (run : Run (fun _ _ => True) (fun state request => (state.answer request).2) allocator requests
      state) :
    state.Sound ∧
      (∀ frame < state.totalFrames, frame / 8 < state.bitmap.length ∧
        (state.isFree frame = true → 0 < state.framesFree)) ∧
      ∀ request, state.frameSet.Step request (state.answer request).1
        (state.answer request).2.frameSet := by
  have sound : state.Sound := by
    apply run.invariant FrameAllocator.Sound
    · intro state request sound _
      exact (sound.answer_step request).1
    · exact FrameAllocator.init_sound succeeded
  refine ⟨sound, ?_, ?_⟩
  · intro frame tracked
    exact sound.accesses tracked
  · intro request
    exact (sound.answer_step request).2

/-- On the small map, with a frame taken and returned and a release refused. -/
theorem frames_refine_set_small :
    ∃ state, Run (fun _ _ => True)
        (fun (state : FrameAllocator) request => (state.answer request).2)
        ⟨[0x03#8, 0xFE#8], 9, 7, 0⟩ [.allocate, .deallocate 0x2000, .deallocate 0x9000] state ∧
      state.Sound ∧
      ∀ request, state.frameSet.Step request (state.answer request).1
        (state.answer request).2.frameSet := by
  have run : Run (fun _ _ => True)
      (fun (state : FrameAllocator) request => (state.answer request).2)
      ⟨[0x03#8, 0xFE#8], 9, 7, 0⟩ [.allocate, .deallocate 0x2000, .deallocate 0x9000] _ :=
    .cons trivial (.cons trivial (.cons trivial (.nil _)))
  obtain ⟨sound, _, steps⟩ := frames_refine_set (Prod.ext smallMap_init rfl) run
  exact ⟨_, run, sound, steps⟩

end XyronOS
