import XyronOS.Library.Regions
import XyronOS.Mm.FrameAllocator
import XyronOS.Mm.MemoryMap

/-!
# Initialising the frame allocator from the memory map

`init` reads the map three times: to find the highest described address, to find
a region for the bitmap, and to mark the frames of usable memory free. The bitmap
lies in the memory the map is read from, so the third pass reads each entry with
the bitmap as it stands by then. `readBack` lists the entries as that pass sees
them, and the free frames are exactly those its valid conventional entries cover,
without the frames that store the bitmap. When no byte that is read of an entry
lies where the bitmap is placed, they are the entries of the first two passes.

The outcome records what is returned and which bitmap was stored. A bitmap at
address zero is stored like any other, but it cannot be returned: the slice is
built from a null pointer, and a null pointer is how the result marks an error.
-/

namespace XyronOS

open ByteMemory WordBits

inductive InitError where
  | inconsistentMemoryMap
  | noSuitableBitmapRegion
  | impliedAddressSpaceTooLarge
deriving DecidableEq, Repr

namespace FrameAllocator

/-- Pass 1 at one entry: the larger of the highest end so far and the entry's own. -/
def raiseHighest (highest : Nat) (entry : MemoryMapEntry) : Nat :=
  if entry.numberOfPages = 0 then highest
  else if !PhysAddr.isFrameAligned entry.physicalStart then highest
  else
    match entry.endAddr with
    | none => highest
    | some stop => if stop > highest then stop else highest

/-- Pass 1: the highest address a valid entry describes. -/
def highestAddr (entries : List MemoryMapEntry) : Nat := entries.foldl raiseHighest 0

/-- Bytes of a bitmap with one bit per frame. -/
def bitmapBytes (totalFrames : Nat) : Nat := (totalFrames + 7) / 8

/-- Pass 2 at one entry: whether it can host a bitmap of `bytes` bytes. -/
def bitmapRegion (bytes : Nat) (entry : MemoryMapEntry) : Option Nat :=
  if entry.typ ≠ efiConventionalMemory then none
  else if entry.numberOfPages = 0 then none
  else if !PhysAddr.isFrameAligned entry.physicalStart then none
  else
    match entry.endAddr with
    | none => none
    | some stop =>
      if stop > identityMapLimit then none
      else if stop - entry.physicalStart ≥ bytes then some entry.physicalStart
      else none

/-- Pass 2: the start of the first entry that can host the bitmap. -/
def bitmapPhysAddr (entries : List MemoryMapEntry) (bytes : Nat) : Option Nat :=
  entries.findSome? (bitmapRegion bytes)

/-- Mark `remaining` frames from `frame` on free, stopping at the last tracked one. -/
def markFreeFrom (allocator : FrameAllocator) (frame : Nat) : Nat → FrameAllocator
  | 0 => allocator
  | remaining + 1 =>
      if frame ≥ allocator.totalFrames then allocator
      else markFreeFrom (allocator.markFree frame) (frame + 1) remaining

/-- Pass 3 at one entry. -/
def freeEntry (allocator : FrameAllocator) (entry : MemoryMapEntry) : FrameAllocator :=
  if entry.typ ≠ efiConventionalMemory then allocator
  else if entry.numberOfPages = 0 then allocator
  else if !PhysAddr.isFrameAligned entry.physicalStart then allocator
  else if entry.endAddr.isNone then allocator
  else
    let startFrame := PhysAddr.frameNumber entry.physicalStart
    allocator.markFreeFrom startFrame
      (saturatingAdd startFrame entry.numberOfPages - startFrame)

/-- Pass 3: each entry is read from memory with the current bitmap in place. -/
def freePass (memory : Memory) (bootInfo : BootInfo) (base : Nat) (allocator : FrameAllocator)
    (indices : List Nat) : FrameAllocator :=
  indices.foldl (fun allocator index =>
    allocator.freeEntry
      (MemoryMapIter.entryAt (storeBytes memory base allocator.bitmap) bootInfo index)) allocator

/-- Mark the tracked ones among the given frames used. -/
def reserve (allocator : FrameAllocator) (frames : List Nat) : FrameAllocator :=
  frames.foldl (fun allocator frame =>
    if frame < allocator.totalFrames then allocator.markUsed frame else allocator) allocator

/-- The frames that store the bitmap. -/
def bitmapFrames (base bytes : Nat) : List Nat :=
  let startFrame := PhysAddr.frameNumber base
  List.range' startFrame
    (saturatingAdd startFrame ((bytes + (frameSize - 1)) / frameSize) - startFrame)

/-- Every frame used: the state before the third pass. -/
def allUsed (totalFrames : Nat) : FrameAllocator :=
  ⟨List.replicate (bitmapBytes totalFrames) 0xFF#8, totalFrames, 0, 0⟩

/-- The error a caller finds in place of an allocator whose bitmap is at address zero. The
variant is read where the length of the slice was written, in its low byte; a byte that
is no variant is filed under the last one. -/
def nullSliceError (bytes : Nat) : InitError :=
  match bytes % 256 with
  | 0 => .inconsistentMemoryMap
  | 1 => .noSuitableBitmapRegion
  | _ => .impliedAddressSpaceTooLarge

/-- The result as its caller finds it. -/
def returned (base : Nat) (allocator : FrameAllocator) : Except InitError FrameAllocator :=
  if base = 0 then .error (nullSliceError allocator.bitmap.length) else .ok allocator

/-- What `init` returns, and the bitmap it has stored: its address and its bytes. -/
structure InitOutcome where
  result : Except InitError FrameAllocator
  stored : Option (Nat × List (BitVec 8))

/-- Build the allocator. -/
def initOutcome (memory : Memory) (bootInfo : BootInfo) : InitOutcome :=
  match checkedMul bootInfo.memoryMapEntryCount bootInfo.memoryMapDescriptorSize with
  | none => ⟨.error .inconsistentMemoryMap, none⟩
  | some claimedSize =>
    if bootInfo.memoryMapSizeBytes < claimedSize then ⟨.error .inconsistentMemoryMap, none⟩
    else
      let entries := MemoryMapIter.entries memory bootInfo
      if highestAddr entries = 0 then ⟨.error .inconsistentMemoryMap, none⟩
      else
        let totalFrames := highestAddr entries / frameSize
        let bytes := bitmapBytes totalFrames
        if bytes = 0 ∨ bytes > maxBitmapBytes then ⟨.error .impliedAddressSpaceTooLarge, none⟩
        else
          match bitmapPhysAddr entries bytes with
          | none => ⟨.error .noSuitableBitmapRegion, none⟩
          | some base =>
            let allocator := freePass memory bootInfo base (allUsed totalFrames)
              (List.range bootInfo.memoryMapEntryCount)
            let allocator := allocator.reserve (bitmapFrames base bytes)
            ⟨returned base allocator, some (base, allocator.bitmap)⟩

/-- The result of `init`, and memory as it leaves it. -/
def init (memory : Memory) (bootInfo : BootInfo) : Except InitError FrameAllocator × Memory :=
  ((initOutcome memory bootInfo).result,
    (initOutcome memory bootInfo).stored.elim memory fun bitmap =>
      storeBytes memory bitmap.1 bitmap.2)

/-- A frame that lies in a valid conventional entry. -/
def Usable (entry : MemoryMapEntry) (frame : Nat) : Prop :=
  entry.typ = efiConventionalMemory ∧ (∃ stop, entry.Valid stop) ∧
    PhysAddr.frameNumber entry.physicalStart ≤ frame ∧
    frame < PhysAddr.frameNumber entry.physicalStart + entry.numberOfPages

/-- `after` tracks the frames of `before`; a frame is free in it as `free` says. -/
structure Marks (before after : FrameAllocator) (free : Nat → Prop) : Prop where
  consistent : after.Consistent
  totalFrames : after.totalFrames = before.totalFrames
  length : after.bitmap.length = before.bitmap.length
  mem_free : ∀ frame, frame ∈ after.freeFrames ↔ frame < before.totalFrames ∧ free frame

theorem Marks.refl {allocator : FrameAllocator} (consistent : allocator.Consistent) :
    Marks allocator allocator (fun frame => frame ∈ allocator.freeFrames) where
  consistent := consistent
  totalFrames := rfl
  length := rfl
  mem_free frame := by
    simp only [mem_freeFrames]
    tauto

/-- Restate which frames are free. -/
theorem Marks.congr {before after : FrameAllocator} {free other : Nat → Prop}
    (marks : Marks before after free)
    (same : ∀ frame < before.totalFrames, free frame ↔ other frame) : Marks before after other where
  consistent := marks.consistent
  totalFrames := marks.totalFrames
  length := marks.length
  mem_free frame := by
    rw [marks.mem_free]
    exact and_congr_right (same frame)

/-- Marking follows marking. -/
theorem Marks.trans {before middle after : FrameAllocator} {free other : Nat → Prop}
    (first : Marks before middle free) (second : Marks middle after other) :
    Marks before after other where
  consistent := second.consistent
  totalFrames := second.totalFrames.trans first.totalFrames
  length := second.length.trans first.length
  mem_free frame := by rw [second.mem_free, first.totalFrames]

/-- Marking a run of frames free frees exactly its tracked part. -/
theorem markFreeFrom_marks {allocator : FrameAllocator} (consistent : allocator.Consistent)
    (frame remaining : Nat) :
    Marks allocator (allocator.markFreeFrom frame remaining) (fun tested =>
      tested ∈ allocator.freeFrames ∨ (frame ≤ tested ∧ tested < frame + remaining)) := by
  induction remaining generalizing allocator frame with
  | zero =>
    apply (Marks.refl consistent).congr
    intro tested _
    constructor
    · exact .inl
    · rintro (free | empty)
      · exact free
      · omega
  | succ remaining inductionHypothesis =>
    rw [markFreeFrom]
    split
    · rename_i past
      apply (Marks.refl consistent).congr
      intro tested tracked
      constructor
      · exact .inl
      · rintro (free | beyond)
        · exact free
        · omega
    · rename_i inside
      have tracked : frame < allocator.totalFrames := Nat.not_le.mp inside
      have rest := inductionHypothesis (consistent.markFree tracked) (frame + 1)
      have first : Marks allocator (allocator.markFree frame)
          (fun tested => tested = frame ∨ tested ∈ allocator.freeFrames) := by
        refine ⟨consistent.markFree tracked, rfl, by simp [markFree], ?_⟩
        intro tested
        rw [freeFrames_markFree consistent tracked, Finset.mem_insert]
        constructor
        · rintro (rfl | free)
          · exact ⟨tracked, .inl rfl⟩
          · exact ⟨((mem_freeFrames _ _).mp free).1, .inr free⟩
        · exact fun known => known.2
      apply (first.trans rest).congr
      intro tested _
      rw [freeFrames_markFree consistent tracked, Finset.mem_insert]
      constructor
      · rintro ((rfl | free) | later)
        · exact .inr (by omega)
        · exact .inl free
        · exact .inr (by omega)
      · rintro (free | here)
        · exact .inl (.inr free)
        · by_cases first : tested = frame
          · exact .inl (.inl first)
          · exact .inr (by omega)

/-- The frames of a valid entry do not overflow, so the saturating bound is exact. -/
theorem saturating_frames {entry : MemoryMapEntry} {stop : Nat} (fits : entry.endAddr = some stop) :
    saturatingAdd (PhysAddr.frameNumber entry.physicalStart) entry.numberOfPages -
      PhysAddr.frameNumber entry.physicalStart = entry.numberOfPages := by
  obtain ⟨same, bounded⟩ := MemoryMapEntry.endAddr_eq fits
  unfold saturatingAdd PhysAddr.frameNumber frameSize at *
  omega

/-- Pass 3 at one entry frees the tracked frames of a usable entry. -/
theorem freeEntry_marks {allocator : FrameAllocator} (consistent : allocator.Consistent)
    (entry : MemoryMapEntry) :
    Marks allocator (allocator.freeEntry entry) (fun tested =>
      tested ∈ allocator.freeFrames ∨ Usable entry tested) := by
  have skipped (unusable : ∀ tested, ¬ Usable entry tested) :
      Marks allocator allocator (fun tested =>
        tested ∈ allocator.freeFrames ∨ Usable entry tested) := by
    apply (Marks.refl consistent).congr
    intro tested _
    simp [unusable tested]
  rw [freeEntry]
  by_cases conventional : entry.typ = efiConventionalMemory
  · rw [if_neg (not_not.mpr conventional)]
    by_cases empty : entry.numberOfPages = 0
    · rw [if_pos empty]
      apply skipped
      rintro tested ⟨_, ⟨stop, valid⟩, _⟩
      exact valid.1 empty
    · rw [if_neg empty]
      by_cases aligned : entry.physicalStart % frameSize = 0
      · have admitted : (!PhysAddr.isFrameAligned entry.physicalStart) = false := by
          simp [PhysAddr.isFrameAligned, aligned]
        simp only [admitted, Bool.false_eq_true, if_false]
        cases ended : entry.endAddr with
        | none =>
          simp only [Option.isNone_none, if_true]
          apply skipped
          rintro tested ⟨_, ⟨stop, valid⟩, _⟩
          cases ended.symm.trans valid.2.2
        | some stop =>
          simp only [Option.isNone_some, Bool.false_eq_true, if_false, saturating_frames ended]
          apply (markFreeFrom_marks consistent _ _).congr
          intro tested _
          have usable : Usable entry tested ↔
              PhysAddr.frameNumber entry.physicalStart ≤ tested ∧
              tested < PhysAddr.frameNumber entry.physicalStart + entry.numberOfPages :=
            ⟨fun known => known.2.2, fun inside =>
              ⟨conventional, ⟨stop, empty, aligned, ended⟩, inside⟩⟩
          rw [usable]
      · have refused : (!PhysAddr.isFrameAligned entry.physicalStart) = true := by
          simp [PhysAddr.isFrameAligned, aligned]
        simp only [refused, if_true]
        apply skipped
        rintro tested ⟨_, ⟨stop, valid⟩, _⟩
        exact aligned valid.2.1
  · rw [if_pos conventional]
    apply skipped
    rintro tested ⟨known, _⟩
    exact conventional known

/-- The entries as the third pass reads them, each with the frames of the earlier ones
already marked free in the bitmap that may lie over it. -/
def readBackFrom (memory : Memory) (bootInfo : BootInfo) (base : Nat) :
    FrameAllocator → List Nat → List MemoryMapEntry
  | _, [] => []
  | allocator, index :: rest =>
      let entry :=
        MemoryMapIter.entryAt (storeBytes memory base allocator.bitmap) bootInfo index
      entry :: readBackFrom memory bootInfo base (allocator.freeEntry entry) rest

/-- The third pass frees the entries it reads, one after the other. -/
theorem freePass_eq (memory : Memory) (bootInfo : BootInfo) (base : Nat)
    (allocator : FrameAllocator) (indices : List Nat) :
    freePass memory bootInfo base allocator indices =
      (readBackFrom memory bootInfo base allocator indices).foldl freeEntry allocator := by
  induction indices generalizing allocator with
  | nil => rfl
  | cons index rest inductionHypothesis => exact inductionHypothesis _

/-- Freeing entries frees the tracked frames of the usable ones. -/
theorem freeEntries_marks {allocator : FrameAllocator} (consistent : allocator.Consistent)
    (entries : List MemoryMapEntry) :
    Marks allocator (entries.foldl freeEntry allocator) (fun tested =>
      tested ∈ allocator.freeFrames ∨ ∃ entry ∈ entries, Usable entry tested) := by
  induction entries generalizing allocator with
  | nil =>
    apply (Marks.refl consistent).congr
    simp
  | cons entry rest inductionHypothesis =>
    have first := freeEntry_marks consistent entry
    apply (first.trans (inductionHypothesis first.consistent)).congr
    intro tested tracked
    rw [first.mem_free]
    simp only [tracked, true_and, List.mem_cons, exists_eq_or_imp, or_assoc]

/-- Entries that are read outside the bitmap are read back as they were. -/
theorem readBackFrom_apart {memory : Memory} {bootInfo : BootInfo} {base : Nat}
    {allocator : FrameAllocator} (consistent : allocator.Consistent) (indices : List Nat)
    (apart : ∀ index ∈ indices, ∀ access ∈ MemoryMapIter.entryReads bootInfo index,
      ∀ target, access.address ≤ target → target < access.address + access.width →
        target < base ∨ base + allocator.bitmap.length ≤ target) :
    readBackFrom memory bootInfo base allocator indices =
      indices.map (MemoryMapIter.entryAt memory bootInfo) := by
  induction indices generalizing allocator with
  | nil => rfl
  | cons index rest inductionHypothesis =>
    have read : MemoryMapIter.entryAt (storeBytes memory base allocator.bitmap) bootInfo index =
        MemoryMapIter.entryAt memory bootInfo index := by
      apply MemoryMapIter.entryAt_reads_congr
      intro access here target lower upper
      exact storeBytes_outside _ _ _ _
        (apart index (List.mem_cons_self ..) access here target lower upper)
    have first := freeEntry_marks consistent (MemoryMapIter.entryAt memory bootInfo index)
    rw [readBackFrom, read, List.map_cons, inductionHypothesis first.consistent]
    intro other member access there target lower upper
    rw [first.length]
    exact apart other (List.mem_cons_of_mem _ member) access there target lower upper

/-- Reserving frames removes them from the free ones. -/
theorem reserve_marks {allocator : FrameAllocator} (consistent : allocator.Consistent)
    (frames : List Nat) :
    Marks allocator (allocator.reserve frames) (fun tested =>
      tested ∈ allocator.freeFrames ∧ tested ∉ frames) := by
  induction frames generalizing allocator with
  | nil =>
    apply (Marks.refl consistent).congr
    simp
  | cons frame frames inductionHypothesis =>
    rw [reserve, List.foldl_cons]
    split
    · rename_i tracked
      have first : Marks allocator (allocator.markUsed frame)
          (fun tested => tested ≠ frame ∧ tested ∈ allocator.freeFrames) := by
        refine ⟨consistent.markUsed tracked, rfl, by simp [markUsed], ?_⟩
        intro tested
        rw [freeFrames_markUsed consistent tracked, Finset.mem_erase, mem_freeFrames]
        tauto
      apply (first.trans (inductionHypothesis first.consistent)).congr
      intro tested _
      rw [freeFrames_markUsed consistent tracked, Finset.mem_erase, List.mem_cons]
      tauto
    · rename_i beyond
      apply (inductionHypothesis consistent).congr
      intro tested tracked
      have different : tested ≠ frame := by
        rintro rfl
        exact beyond tracked
      rw [List.mem_cons]
      tauto

/-- An entry that can host a bitmap of `bytes` bytes. -/
def Hosts (bytes : Nat) (entry : MemoryMapEntry) : Prop :=
  entry.typ = efiConventionalMemory ∧ ∃ stop, entry.Valid stop ∧ stop ≤ identityMapLimit ∧
    entry.physicalStart + bytes ≤ stop

/-- The second pass accepts exactly the entries that can host the bitmap, at their
starts. -/
theorem bitmapRegion_eq_some_iff {bytes base : Nat} {entry : MemoryMapEntry} :
    bitmapRegion bytes entry = some base ↔ Hosts bytes entry ∧ base = entry.physicalStart := by
  rw [bitmapRegion]
  constructor
  · intro hosted
    split at hosted
    · cases hosted
    rename_i conventional
    split at hosted
    · cases hosted
    rename_i pages
    split at hosted
    · cases hosted
    rename_i aligned
    split at hosted
    · cases hosted
    rename_i stop ended
    split at hosted
    · cases hosted
    rename_i low
    split at hosted
    · rename_i room
      obtain ⟨same, _⟩ := MemoryMapEntry.endAddr_eq ended
      have start : entry.physicalStart % frameSize = 0 := by
        simpa [PhysAddr.isFrameAligned] using aligned
      refine ⟨⟨not_not.mp conventional, stop, ⟨pages, start, ended⟩, Nat.not_lt.mp low, ?_⟩,
        (Option.some.inj hosted).symm⟩
      omega
    · cases hosted
  · rintro ⟨⟨conventional, stop, ⟨pages, aligned, ended⟩, low, room⟩, rfl⟩
    have admitted : (!PhysAddr.isFrameAligned entry.physicalStart) = false := by
      simp [PhysAddr.isFrameAligned, aligned]
    rw [if_neg (not_not.mpr conventional), if_neg pages, admitted, if_neg Bool.false_ne_true, ended]
    simp only
    rw [if_neg (Nat.not_lt.mpr low), if_pos (by omega)]

/-- Where `init` places the bitmap, if it comes to that. -/
def bitmapPlacement (memory : Memory) (bootInfo : BootInfo) : Option Regions.Region :=
  (checkedMul bootInfo.memoryMapEntryCount bootInfo.memoryMapDescriptorSize).bind
    fun claimedSize =>
      let entries := MemoryMapIter.entries memory bootInfo
      let bytes := bitmapBytes (highestAddr entries / frameSize)
      if bootInfo.memoryMapSizeBytes < claimedSize ∨ bytes = 0 ∨ bytes > maxBitmapBytes then none
      else (bitmapPhysAddr entries bytes).map (fun base => ⟨base, bytes⟩)

/-- The bitmap has one bit for each described frame, an admitted size, and lies where the
second pass found room. -/
theorem placement_spec {memory : Memory} {bootInfo : BootInfo} {placement : Regions.Region}
    (placed : bitmapPlacement memory bootInfo = some placement) :
    placement.size = bitmapBytes (highestAddr (MemoryMapIter.entries memory bootInfo) / frameSize) ∧
      placement.size ≠ 0 ∧ placement.size ≤ maxBitmapBytes ∧
      bitmapPhysAddr (MemoryMapIter.entries memory bootInfo) placement.size =
        some placement.start := by
  simp only [bitmapPlacement, Option.bind_eq_some_iff] at placed
  obtain ⟨claimedSize, -, placed⟩ := placed
  split at placed
  · cases placed
  · rename_i admitted
    obtain ⟨base, found, rfl⟩ := Option.map_eq_some_iff.mp placed
    simp only [not_or, Nat.not_lt] at admitted
    exact ⟨rfl, admitted.2.1, admitted.2.2, found⟩

/-- The entries of the map as the third pass reads them. -/
def readBack (memory : Memory) (bootInfo : BootInfo) (placement : Regions.Region) :
    List MemoryMapEntry :=
  readBackFrom memory bootInfo placement.start
    (allUsed (highestAddr (MemoryMapIter.entries memory bootInfo) / frameSize))
    (List.range bootInfo.memoryMapEntryCount)

/-- The allocator as `init` builds it. -/
def built (memory : Memory) (bootInfo : BootInfo) (placement : Regions.Region) : FrameAllocator :=
  ((readBack memory bootInfo placement).foldl freeEntry
    (allUsed (highestAddr (MemoryMapIter.entries memory bootInfo) / frameSize))).reserve
      (bitmapFrames placement.start placement.size)

/-- The outcome once a place for the bitmap is found. -/
theorem initOutcome_placed {memory : Memory} {bootInfo : BootInfo} {placement : Regions.Region}
    (placed : bitmapPlacement memory bootInfo = some placement) :
    initOutcome memory bootInfo =
      ⟨returned placement.start (built memory bootInfo placement),
        some (placement.start, (built memory bootInfo placement).bitmap)⟩ := by
  simp only [bitmapPlacement, Option.bind_eq_some_iff] at placed
  obtain ⟨claimedSize, claimed, placed⟩ := placed
  split at placed
  · cases placed
  · rename_i admitted
    obtain ⟨base, found, rfl⟩ := Option.map_eq_some_iff.mp placed
    simp only [not_or] at admitted
    have described : highestAddr (MemoryMapIter.entries memory bootInfo) ≠ 0 := by
      intro blank
      rw [blank] at admitted
      exact admitted.2.1 rfl
    simp only [initOutcome, claimed, admitted.1, described, admitted.2.1, admitted.2.2, found,
      freePass_eq, or_self, if_false]
    rfl

/-- Without a place for the bitmap nothing is stored. -/
theorem initOutcome_unplaced {memory : Memory} {bootInfo : BootInfo}
    (unplaced : bitmapPlacement memory bootInfo = none) :
    ∃ error, initOutcome memory bootInfo = ⟨.error error, none⟩ := by
  simp only [bitmapPlacement] at unplaced
  unfold initOutcome
  split
  · exact ⟨_, rfl⟩
  · rename_i claimedSize claimed
    rw [claimed, Option.bind_some] at unplaced
    split
    · exact ⟨_, rfl⟩
    rename_i covered
    simp only
    split
    · exact ⟨_, rfl⟩
    split
    · exact ⟨_, rfl⟩
    rename_i sized
    rw [if_neg (not_or.mpr ⟨covered, sized⟩), Option.map_eq_none_iff] at unplaced
    rw [unplaced]
    exact ⟨_, rfl⟩

/-- No byte that is read of an entry of the map lies where the bitmap is placed. -/
def MapApart (memory : Memory) (bootInfo : BootInfo) : Prop :=
  ∀ placement, bitmapPlacement memory bootInfo = some placement →
    ∀ index < bootInfo.memoryMapEntryCount,
      ∀ access ∈ MemoryMapIter.entryReads bootInfo index,
        Disjoint (Set.Ico access.address (access.address + access.width)) placement.bytes

/-- The buffer of the map does not lie where the bitmap is placed. -/
def BufferApart (memory : Memory) (bootInfo : BootInfo) : Prop :=
  ∀ placement, bitmapPlacement memory bootInfo = some placement →
    Disjoint (Set.Ico bootInfo.memoryMapPhysAddr
      (bootInfo.memoryMapPhysAddr + bootInfo.memoryMapSizeBytes)) placement.bytes

/-- A bitmap that ends before the buffer, or begins after it, is apart from it. -/
theorem bufferApart_of_placement {memory : Memory} {bootInfo : BootInfo}
    {placement : Regions.Region} (placed : bitmapPlacement memory bootInfo = some placement)
    (away : placement.start + placement.size ≤ bootInfo.memoryMapPhysAddr ∨
      bootInfo.memoryMapPhysAddr + bootInfo.memoryMapSizeBytes ≤ placement.start) :
    BufferApart memory bootInfo := by
  intro other here
  obtain rfl := Option.some.inj (placed.symm.trans here)
  rw [Set.disjoint_left]
  intro byte inBuffer inBitmap
  rw [Regions.Region.mem_bytes] at inBitmap
  rw [Set.mem_Ico] at inBuffer
  omega

/-- With descriptors of at least the 32 bytes that are read, a map buffer apart
from the bitmap keeps every entry apart from it. -/
theorem mapApart_of_buffer {memory : Memory} {bootInfo : BootInfo}
    (wide : 32 ≤ bootInfo.memoryMapDescriptorSize)
    (whole : bootInfo.memoryMapEntryCount * bootInfo.memoryMapDescriptorSize ≤
      bootInfo.memoryMapSizeBytes)
    (buffer : BufferApart memory bootInfo) : MapApart memory bootInfo := by
  intro placement placed index bounded access read
  have covered : (index + 1) * bootInfo.memoryMapDescriptorSize ≤
      bootInfo.memoryMapEntryCount * bootInfo.memoryMapDescriptorSize :=
    Nat.mul_le_mul_right _ bounded
  rw [Nat.add_mul, Nat.one_mul] at covered
  obtain ⟨first, last⟩ := MemoryMapIter.entryReads_window read
  apply (buffer placement placed).mono_left
  unfold MemoryMapIter.entryPtr at first last
  exact Set.Ico_subset_Ico (by omega) (by omega)

/-- What a successful `init` establishes: the allocator is consistent, it tracks
the frames up to the highest described address, its bitmap is stored at the place found
for it, and a frame is free exactly when a valid conventional entry that the third pass
reads covers it and it does not store the bitmap. -/
structure Initialised (memory : Memory) (bootInfo : BootInfo) (allocator : FrameAllocator)
    (placement : Regions.Region) : Prop where
  consistent : allocator.Consistent
  totalFrames : allocator.totalFrames =
    highestAddr (MemoryMapIter.entries memory bootInfo) / frameSize
  placed : bitmapPlacement memory bootInfo = some placement
  stored : (initOutcome memory bootInfo).stored = some (placement.start, allocator.bitmap)
  length : allocator.bitmap.length = placement.size
  sized : placement.size ≤ maxBitmapBytes
  mem_free : ∀ frame, frame ∈ allocator.freeFrames ↔ frame < allocator.totalFrames ∧
    (∃ entry ∈ readBack memory bootInfo placement, Usable entry frame) ∧
    frame ∉ bitmapFrames placement.start placement.size

/-- An all-ones bitmap tracks its frames as used. -/
theorem allUsed_spec (totalFrames : Nat) (sized : bitmapBytes totalFrames ≤ maxBitmapBytes) :
    (allUsed totalFrames).Consistent ∧ (allUsed totalFrames).freeFrames = ∅ := by
  have none : (allUsed totalFrames).freeFrames = ∅ := by
    rw [Finset.eq_empty_iff_forall_notMem]
    intro frame free
    obtain ⟨tracked, clear⟩ := (mem_freeFrames _ _).mp free
    simp only [allUsed] at tracked
    rw [isFree_eq, allUsed, PackedBits.test_replicate_ones _ frame
      (by unfold bitmapBytes; omega)] at clear
    cases clear
  refine ⟨⟨?_, ?_, ?_⟩, none⟩
  · simp only [allUsed, List.length_replicate, bitmapBytes]
    omega
  · rw [none]
    rfl
  · simpa [allUsed] using sized

/-- A map that is read apart from the bitmap is read back as it was. -/
theorem readBack_apart {memory : Memory} {bootInfo : BootInfo} {placement : Regions.Region}
    (apart : MapApart memory bootInfo) (placed : bitmapPlacement memory bootInfo = some placement) :
    readBack memory bootInfo placement = MemoryMapIter.entries memory bootInfo := by
  obtain ⟨size, -, sized, -⟩ := placement_spec placed
  apply readBackFrom_apart (allUsed_spec _ (size ▸ sized)).1
  intro index member access read target lower upper
  have away := Set.disjoint_left.mp (apart _ placed index (List.mem_range.mp member) access read)
    (Set.mem_Ico.mpr ⟨lower, upper⟩)
  rw [Regions.Region.mem_bytes, size] at away
  simp only [allUsed, List.length_replicate]
  omega

/-- Which frames are free in the allocator that `init` builds. -/
theorem built_marks {memory : Memory} {bootInfo : BootInfo} {placement : Regions.Region}
    (placed : bitmapPlacement memory bootInfo = some placement) :
    Marks (allUsed (highestAddr (MemoryMapIter.entries memory bootInfo) / frameSize))
      (built memory bootInfo placement) (fun frame =>
        (∃ entry ∈ readBack memory bootInfo placement, Usable entry frame) ∧
          frame ∉ bitmapFrames placement.start placement.size) := by
  obtain ⟨size, -, sized, -⟩ := placement_spec placed
  obtain ⟨consistent, empty⟩ := allUsed_spec _ (size ▸ sized)
  have freed := freeEntries_marks consistent (readBack memory bootInfo placement)
  have reserved := reserve_marks freed.consistent (bitmapFrames placement.start placement.size)
  apply (freed.trans reserved).congr
  intro frame tracked
  rw [freed.mem_free, empty]
  simp only [Finset.notMem_empty, false_or, tracked, true_and]

/-- Inversion of a successful `init`: a place was found for the bitmap, not at address
zero, and the allocator was built and stored there. -/
theorem init_inversion {memory after : Memory} {bootInfo : BootInfo} {allocator : FrameAllocator}
    (succeeded : init memory bootInfo = (.ok allocator, after)) :
    ∃ placement, bitmapPlacement memory bootInfo = some placement ∧ placement.start ≠ 0 ∧
      allocator = built memory bootInfo placement ∧
      after = storeBytes memory placement.start allocator.bitmap := by
  cases placed : bitmapPlacement memory bootInfo with
  | none =>
    obtain ⟨error, outcome⟩ := initOutcome_unplaced placed
    rw [init, outcome] at succeeded
    cases succeeded
  | some placement =>
    rw [init, initOutcome_placed placed] at succeeded
    obtain ⟨result, written⟩ := Prod.mk.inj succeeded
    simp only [returned] at result
    split at result
    · cases result
    · rename_i nonzero
      obtain rfl := Except.ok.inj result
      exact ⟨placement, rfl, nonzero, rfl, written.symm⟩

/-- A successful `init` has the stated result. -/
theorem init_ok {memory after : Memory} {bootInfo : BootInfo} {allocator : FrameAllocator}
    (succeeded : init memory bootInfo = (.ok allocator, after)) :
    ∃ placement, Initialised memory bootInfo allocator placement ∧ placement.start ≠ 0 := by
  obtain ⟨placement, placed, nonzero, rfl, -⟩ := init_inversion succeeded
  obtain ⟨size, -, sized, -⟩ := placement_spec placed
  have marks := built_marks placed
  refine ⟨placement, ⟨marks.consistent, marks.totalFrames, placed, ?_, ?_, sized, ?_⟩, nonzero⟩
  · rw [initOutcome_placed placed]
  · rw [marks.length, size]
    simp [allUsed]
  · intro frame
    rw [marks.mem_free, marks.totalFrames]

/-- The frame of an entry lies entirely inside the entry. -/
theorem Usable.inside {entry : MemoryMapEntry} {frame : Nat} (usable : Usable entry frame) :
    ∃ stop, entry.Valid stop ∧ entry.physicalStart ≤ PhysAddr.fromFrameNumber frame ∧
      PhysAddr.fromFrameNumber frame + frameSize ≤ stop := by
  obtain ⟨_, ⟨stop, valid⟩, lower, upper⟩ := usable
  obtain ⟨same, _⟩ := MemoryMapEntry.endAddr_eq valid.2.2
  have aligned := valid.2.1
  refine ⟨stop, valid, ?_, ?_⟩
  · unfold PhysAddr.frameNumber PhysAddr.fromFrameNumber frameSize at *
    omega
  · unfold PhysAddr.frameNumber PhysAddr.fromFrameNumber frameSize at *
    omega

/-- A frame entirely inside a valid conventional entry is one of its frames. -/
theorem usable_of_inside {entry : MemoryMapEntry} {stop frame : Nat}
    (conventional : entry.typ = efiConventionalMemory) (valid : entry.Valid stop)
    (lower : entry.physicalStart ≤ PhysAddr.fromFrameNumber frame)
    (upper : PhysAddr.fromFrameNumber frame + frameSize ≤ stop) : Usable entry frame := by
  obtain ⟨same, _⟩ := MemoryMapEntry.endAddr_eq valid.2.2
  have aligned := valid.2.1
  refine ⟨conventional, ⟨stop, valid⟩, ?_, ?_⟩
  · unfold PhysAddr.frameNumber PhysAddr.fromFrameNumber frameSize at *
    omega
  · unfold PhysAddr.frameNumber PhysAddr.fromFrameNumber frameSize at *
    omega

/-- The bitmap is placed at the start of a valid entry. -/
theorem placement_valid {memory : Memory} {bootInfo : BootInfo} {placement : Regions.Region}
    (placed : bitmapPlacement memory bootInfo = some placement) :
    ∃ entry ∈ MemoryMapIter.entries memory bootInfo, ∃ stop, entry.Valid stop ∧
      entry.typ = efiConventionalMemory ∧ entry.physicalStart = placement.start ∧
      placement.start + placement.size ≤ stop ∧ stop ≤ identityMapLimit := by
  obtain ⟨-, -, -, found⟩ := placement_spec placed
  obtain ⟨entry, member, hosted⟩ := List.exists_of_findSome?_eq_some found
  obtain ⟨⟨conventional, stop, valid, low, room⟩, start⟩ := bitmapRegion_eq_some_iff.mp hosted
  exact ⟨entry, member, stop, valid, conventional, start.symm, by omega, low⟩

/-- A frame outside the reserved ones shares no byte with the bitmap. -/
theorem outside_bitmap {placement : Regions.Region} {frame : Nat}
    (aligned : placement.start % frameSize = 0) (below : placement.start ≤ identityMapLimit)
    (sized : placement.size ≤ maxBitmapBytes)
    (outside : frame ∉ bitmapFrames placement.start placement.size) :
    Disjoint (Set.Ico (PhysAddr.fromFrameNumber frame)
      (PhysAddr.fromFrameNumber frame + frameSize)) placement.bytes := by
  rw [Set.disjoint_left]
  intro byte inFrame inBitmap
  apply outside
  rw [Regions.Region.mem_bytes] at inBitmap
  rw [Set.mem_Ico] at inFrame
  unfold bitmapFrames saturatingAdd
  rw [List.mem_range'_1]
  unfold PhysAddr.fromFrameNumber PhysAddr.frameNumber frameSize maxBitmapBytes
    identityMapLimit at *
  omega

end FrameAllocator

end XyronOS
