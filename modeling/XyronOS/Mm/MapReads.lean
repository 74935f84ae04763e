import XyronOS.Mm.FrameRuns

/-!
# Where the memory map is read

`init` checks once that the entries, at the stride the firmware chose, fit the buffer,
and then walks them three times. An entry is read at fixed offsets: its type, its start
and its number of pages, of which the last ends 32 bytes after the entry's first byte.
The check is about strides, the reads are about a window of 32 bytes, and nothing says
that a stride is at least that wide.

The reads of all passes are listed in order. Since the first pass visits every entry, they
stay in the buffer exactly if the window of the last entry does.
-/

namespace XyronOS

open ByteMemory WordBits

namespace FrameAllocator

open MemoryMapIter

/-- Reads of a pass over all entries. -/
def passReads (bootInfo : BootInfo) : List Access :=
  (List.range bootInfo.memoryMapEntryCount).flatMap (entryReads bootInfo)

/-- Reads of the second pass, which ends at the first entry that can host the bitmap. -/
def searchReads (memory : Memory) (bootInfo : BootInfo) (bytes : Nat) : List Nat → List Access
  | [] => []
  | index :: rest =>
      entryReads bootInfo index ++
        if (bitmapRegion bytes (entryAt memory bootInfo index)).isSome then []
        else searchReads memory bootInfo bytes rest

/-- Reads of the memory map by `init`. -/
def initReads (memory : Memory) (bootInfo : BootInfo) : List Access :=
  (checkedMul bootInfo.memoryMapEntryCount bootInfo.memoryMapDescriptorSize).elim []
    fun claimedSize =>
      if bootInfo.memoryMapSizeBytes < claimedSize then []
      else
        let entries := MemoryMapIter.entries memory bootInfo
        let bytes := bitmapBytes (highestAddr entries / frameSize)
        passReads bootInfo ++
          if highestAddr entries = 0 then []
          else if bytes = 0 ∨ bytes > maxBitmapBytes then []
          else
            searchReads memory bootInfo bytes (List.range bootInfo.memoryMapEntryCount) ++
              if (bitmapPhysAddr entries bytes).isNone then [] else passReads bootInfo

/-- The whole-map validation: the size the entries claim does not overflow and is covered
by the buffer. -/
def MapValidated (bootInfo : BootInfo) : Prop :=
  ∃ claimedSize,
    checkedMul bootInfo.memoryMapEntryCount bootInfo.memoryMapDescriptorSize = some claimedSize ∧
      claimedSize ≤ bootInfo.memoryMapSizeBytes

/-- Every byte read lies in the buffer of the map. -/
def MapReadInside (memory : Memory) (bootInfo : BootInfo) : Prop :=
  ∀ access ∈ initReads memory bootInfo,
    access.Inside bootInfo.memoryMapPhysAddr bootInfo.memoryMapSizeBytes

/-- An entry is read in the buffer exactly if its window of 32 bytes ends there. -/
theorem entryReads_inside_iff (bootInfo : BootInfo) (index : Nat) :
    (∀ access ∈ entryReads bootInfo index,
        access.Inside bootInfo.memoryMapPhysAddr bootInfo.memoryMapSizeBytes) ↔
      index * bootInfo.memoryMapDescriptorSize + 32 ≤ bootInfo.memoryMapSizeBytes := by
  simp only [entryReads, entryPtr, List.forall_mem_cons, List.not_mem_nil, Access.Inside,
    false_imp_iff, implies_true, and_true]
  omega

/-- A pass reads inside exactly if each entry does. -/
theorem passReads_inside_iff (bootInfo : BootInfo) :
    (∀ access ∈ passReads bootInfo,
        access.Inside bootInfo.memoryMapPhysAddr bootInfo.memoryMapSizeBytes) ↔
      ∀ index < bootInfo.memoryMapEntryCount,
        index * bootInfo.memoryMapDescriptorSize + 32 ≤ bootInfo.memoryMapSizeBytes := by
  simp only [passReads, List.mem_flatMap, List.mem_range, ← entryReads_inside_iff]
  constructor
  · intro inside index early access read
    exact inside access ⟨index, early, read⟩
  · rintro inside access ⟨index, early, read⟩
    exact inside index early access read

/-- The second pass reads nothing that a whole pass does not. -/
theorem searchReads_subset (memory : Memory) (bootInfo : BootInfo) (bytes : Nat)
    (indices : List Nat) :
    searchReads memory bootInfo bytes indices ⊆ indices.flatMap (entryReads bootInfo) := by
  induction indices with
  | nil => exact List.nil_subset _
  | cons index rest inductionHypothesis =>
    rw [searchReads, List.flatMap_cons]
    apply List.append_subset.mpr
    refine ⟨List.subset_append_left _ _, ?_⟩
    split
    · exact List.nil_subset _
    · exact List.subset_append_of_subset_right _ inductionHypothesis

/-- With a validated map, `init` reads what one whole pass reads. -/
theorem mem_initReads_iff {memory : Memory} {bootInfo : BootInfo} (validated : MapValidated bootInfo)
    (access : Access) : access ∈ initReads memory bootInfo ↔ access ∈ passReads bootInfo := by
  obtain ⟨claimedSize, claimed, covered⟩ := validated
  rw [initReads, claimed, Option.elim_some, if_neg (Nat.not_lt.mpr covered), List.mem_append]
  constructor
  · rintro (first | later)
    · exact first
    · split at later
      · cases later
      split at later
      · cases later
      rcases List.mem_append.mp later with second | third
      · exact searchReads_subset _ _ _ _ second
      · split at third
        · cases third
        · exact third
  · exact .inl

/-- The memory map is read in bounds exactly if there is no entry or the window of the
last one ends in the buffer. -/
theorem map_read_inside_iff {memory : Memory} {bootInfo : BootInfo}
    (validated : MapValidated bootInfo) :
    MapReadInside memory bootInfo ↔ bootInfo.memoryMapEntryCount = 0 ∨
      (bootInfo.memoryMapEntryCount - 1) * bootInfo.memoryMapDescriptorSize + 32 ≤
        bootInfo.memoryMapSizeBytes := by
  simp only [MapReadInside, mem_initReads_iff validated]
  rw [passReads_inside_iff]
  constructor
  · intro inside
    by_cases none : bootInfo.memoryMapEntryCount = 0
    · exact .inl none
    · exact .inr (inside _ (Nat.sub_one_lt none))
  · intro last index early
    have earlier : index * bootInfo.memoryMapDescriptorSize ≤
        (bootInfo.memoryMapEntryCount - 1) * bootInfo.memoryMapDescriptorSize :=
      Nat.mul_le_mul_right _ (Nat.le_sub_one_of_lt early)
    omega

/-- The small map, with a stride of 48 bytes, is read in bounds. -/
theorem map_read_inside_small : MapReadInside smallMap smallMapInfo :=
  (map_read_inside_iff ⟨48, rfl, by decide⟩).mpr (.inr (by decide))

/-- A validated map of one entry with a stride of 24 bytes: its number of pages is read
from the eight bytes after the buffer. -/
theorem map_read_past_buffer :
    MapValidated ⟨0x100000, 24, 24, 1⟩ ∧
      ¬ MapReadInside (fun _ => 0) ⟨0x100000, 24, 24, 1⟩ := by
  have validated : MapValidated ⟨0x100000, 24, 24, 1⟩ := ⟨24, rfl, Nat.le_refl _⟩
  refine ⟨validated, ?_⟩
  intro inside
  have read : (⟨0x100018, 8⟩ : Access) ∈ initReads (fun _ => 0) ⟨0x100000, 24, 24, 1⟩ :=
    (mem_initReads_iff validated _).mpr (by decide)
  exact absurd (inside _ read) (by decide)

end FrameAllocator

end XyronOS
