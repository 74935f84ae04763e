import XyronOS.Mm.FrameSet
import XyronOS.Mm.TableOwnership

/-!
# Physical address zero

Frame 0 is an ordinary frame to the allocator. If the firmware describes usable memory at
address 0 and the bitmap is not placed there, the frame is free and the lowest of all, so
the first page table that `map` creates gets it. The address is then used through a
pointer that is null. (A bitmap at address 0 is no success of `init`.)

The frames a `map` call obtains for new tables are listed as its descent meets absent
entries. No release happens in a run of `map` calls, so a frame that is not free at the
start is never obtained. Whether frame 0 is free is decided by the entries as the third
pass of `init` reads them: it is the first frame of a usable entry that starts at address
0, or it is in none.
-/

namespace XyronOS

open ByteMemory WordBits VirtAddr PageTableEntry Runs

namespace VirtualMemoryManager

/-- The frame `get_or_create_table` obtains for a new table, if the entry is absent. -/
def obtainedTable (machine : Machine) (table : Nat) (index : Fin 512) : Option Nat :=
  (checkedTablePtr table).bind fun pointer =>
    if isPresent (readEntry machine.memory pointer index) then none
    else (machine.frames.allocateBelow identityMapLimit).1

/-- The frames obtained on the way through successive indices. -/
def obtainedTables : Machine → Nat → List (Fin 512) → List Nat
  | _, _, [] => []
  | machine, table, index :: rest =>
      (obtainedTable machine table index).toList ++
        match getOrCreateTable machine table index with
        | (.error _, _) => []
        | (.ok next, machine) => obtainedTables machine next rest

/-- The frames one call of `map` obtains for tables. -/
def mapObtains (vmm : VirtualMemoryManager) (machine : Machine) (virt phys : Nat) : List Nat :=
  if !isPageAligned virt || !PhysAddr.isFrameAligned phys then []
  else obtainedTables machine vmm.pml4Phys [pml4Index virt, pdptIndex virt, pdIndex virt]

end VirtualMemoryManager

/-- Arguments of a call of `map`. -/
structure MapCall where
  virt : Nat
  phys : Nat
  flags : PageFlags

open VirtualMemoryManager

/-- The machine after a call of `map`. -/
def callMap (vmm : VirtualMemoryManager) (machine : Machine) (call : MapCall) : Machine :=
  (vmm.map machine call.virt call.phys call.flags).2

section Runs

/-- The allocator is consistent and has no free frame that the given set lacks. -/
structure Shrunk (free : Finset Nat) (frames : FrameAllocator) : Prop where
  consistent : frames.Consistent
  free : frames.freeFrames ⊆ free

variable {free : Finset Nat} {machine : Machine}

/-- An allocation below a limit frees nothing. -/
theorem Shrunk.allocateBelow {frames : FrameAllocator} (shrunk : Shrunk free frames)
    (limit : Nat) : Shrunk free (frames.allocateBelow limit).2 := by
  rcases FrameAllocator.allocateBelow_cases shrunk.consistent limit with
    ⟨frame, after, taken, _, takes⟩ | ⟨refused, _⟩
  · rw [taken]
    refine ⟨takes.consistent, ?_⟩
    rw [takes.freeFrames]
    exact (Finset.erase_subset _ _).trans shrunk.free
  · rw [refused]
    exact shrunk

/-- Only the allocation touches the frames. -/
theorem getOrCreateTable_frames (machine : Machine) (table : Nat) (index : Fin 512) :
    (getOrCreateTable machine table index).2.frames = machine.frames ∨
      (getOrCreateTable machine table index).2.frames =
        (machine.frames.allocateBelow identityMapLimit).2 := by
  rw [getOrCreateTable]
  cases checkedTablePtr table with
  | none => exact .inl rfl
  | some pointer =>
    by_cases present : isPresent (readEntry machine.memory pointer index) = true
    · simp only [present, if_true]
      split <;> exact .inl rfl
    · simp only [present, Bool.false_eq_true, if_false]
      cases machine.frames.allocateBelow identityMapLimit with
      | mk found frames =>
        cases found with
        | none => exact .inr rfl
        | some newTable =>
          simp only
          cases checkedTablePtr newTable <;> exact .inr rfl

theorem Shrunk.getOrCreateTable (shrunk : Shrunk free machine.frames) (table : Nat)
    (index : Fin 512) : Shrunk free (getOrCreateTable machine table index).2.frames := by
  rcases getOrCreateTable_frames machine table index with same | taken
  · rw [same]
    exact shrunk
  · rw [taken]
    exact shrunk.allocateBelow identityMapLimit

theorem Shrunk.ensureTables (shrunk : Shrunk free machine.frames) (table : Nat)
    (path : List (Fin 512)) : Shrunk free (ensureTables machine table path).2.frames := by
  induction path generalizing machine table with
  | nil => exact shrunk
  | cons index rest inductionHypothesis =>
    have next := shrunk.getOrCreateTable table index
    rw [VirtualMemoryManager.ensureTables]
    generalize VirtualMemoryManager.getOrCreateTable machine table index = outcome at next ⊢
    obtain ⟨_ | child, after⟩ := outcome
    · exact next
    · exact inductionHypothesis next child

/-- A call of `map` frees nothing. -/
theorem Shrunk.callMap (shrunk : Shrunk free machine.frames) (vmm : VirtualMemoryManager)
    (call : MapCall) : Shrunk free (callMap vmm machine call).frames := by
  have descended := shrunk.ensureTables vmm.pml4Phys
    [pml4Index call.virt, pdptIndex call.virt, pdIndex call.virt]
  rw [XyronOS.callMap, map_eq]
  generalize VirtualMemoryManager.ensureTables machine vmm.pml4Phys
    [pml4Index call.virt, pdptIndex call.virt, pdIndex call.virt] = outcome at descended ⊢
  obtain ⟨_ | pt, after⟩ := outcome
  · split <;> assumption
  · simp only at descended ⊢
    repeat' split
    all_goals assumption

/-- A frame obtained for a table was free. -/
theorem Shrunk.obtainedTable (shrunk : Shrunk free machine.frames) {table : Nat}
    {index : Fin 512} {address : Nat}
    (obtained : obtainedTable machine table index = some address) :
    ∃ frame ∈ free, address = PhysAddr.fromFrameNumber frame := by
  rw [VirtualMemoryManager.obtainedTable, Option.bind_eq_some_iff] at obtained
  obtain ⟨pointer, _, allocated⟩ := obtained
  split at allocated
  · cases allocated
  · obtain ⟨frame, member, same⟩ := shrunk.consistent.returned
      (.inr ⟨identityMapLimit, Prod.ext allocated rfl⟩)
    exact ⟨frame, shrunk.free member, same⟩

/-- All frames a descent obtains for tables were free before it. -/
theorem Shrunk.obtainedTables (shrunk : Shrunk free machine.frames) (table : Nat)
    (path : List (Fin 512)) :
    ∀ address ∈ obtainedTables machine table path, ∃ frame ∈ free,
      address = PhysAddr.fromFrameNumber frame := by
  induction path generalizing machine table with
  | nil => simp [VirtualMemoryManager.obtainedTables]
  | cons index rest inductionHypothesis =>
    intro address member
    rw [VirtualMemoryManager.obtainedTables, List.mem_append] at member
    cases member with
    | inl here => exact shrunk.obtainedTable (Option.mem_toList.mp here)
    | inr later =>
      have next := shrunk.getOrCreateTable table index
      generalize VirtualMemoryManager.getOrCreateTable machine table index = outcome at next later
      obtain ⟨_ | child, after⟩ := outcome
      · cases later
      · exact inductionHypothesis next child address later

end Runs

namespace FrameAllocator

/-- A usable entry starts at address zero. -/
def NullUsable (entries : List MemoryMapEntry) : Prop :=
  ∃ entry ∈ entries, entry.typ = efiConventionalMemory ∧ (∃ stop, entry.Valid stop) ∧
    entry.physicalStart = 0

/-- Neither the bitmap nor a table that any run of `map` calls creates lies at address
zero, whatever page tables the run starts from. -/
structure NullUnused (allocator : FrameAllocator) (bitmap : Regions.Region) : Prop where
  bitmap : bitmap.start ≠ 0
  tables : ∀ vmm memory calls machine,
    Run (fun _ _ => True) (callMap vmm) ⟨memory, allocator⟩ calls machine →
    ∀ virt phys, 0 ∉ vmm.mapObtains machine virt phys

/-- Frame 0 is in a usable entry exactly if one starts at address zero. -/
theorem usable_zero_iff {entries : List MemoryMapEntry} :
    (∃ entry ∈ entries, Usable entry 0) ↔ NullUsable entries := by
  constructor
  · rintro ⟨entry, member, conventional, ⟨stop, valid⟩, first, _⟩
    refine ⟨entry, member, conventional, ⟨stop, valid⟩, ?_⟩
    have aligned := valid.2.1
    unfold PhysAddr.frameNumber frameSize at *
    omega
  · rintro ⟨entry, member, conventional, ⟨stop, valid⟩, start⟩
    have pages := valid.1
    refine ⟨entry, member, conventional, ⟨stop, valid⟩, ?_, ?_⟩
    · rw [start]
      decide
    · omega

/-- A bitmap elsewhere does not occupy frame 0. -/
theorem zero_not_bitmap {base bytes : Nat} (aligned : base % frameSize = 0) (nonzero : base ≠ 0) :
    0 ∉ bitmapFrames base bytes := by
  rw [bitmapFrames, List.mem_range'_1]
  unfold PhysAddr.frameNumber frameSize at *
  omega

/-- If frame 0 is free, it is the one an allocation below a limit takes. -/
theorem allocateBelow_zero {allocator : FrameAllocator} (free : 0 ∈ allocator.freeFrames)
    {limit : Nat} (above : 0 < PhysAddr.frameNumber limit) :
    (allocator.allocateBelow limit).1 = some 0 := by
  obtain ⟨tracked, clear⟩ := (mem_freeFrames _ _).mp free
  obtain ⟨bound, positive⟩ : ∃ bound,
      min allocator.totalFrames (PhysAddr.frameNumber limit) = bound + 1 :=
    Nat.exists_eq_succ_of_ne_zero (by omega)
  rw [allocateBelow, positive, List.range_succ_eq_map, List.find?_cons_of_pos clear]
  rfl

/-- If frame 0 is free, the first `map` on page tables without any entry obtains it. -/
theorem zero_mem_mapObtains {allocator : FrameAllocator} (free : 0 ∈ allocator.freeFrames) :
    0 ∈ mapObtains ⟨0x1000⟩ ⟨fun _ => 0, allocator⟩ 0 0 := by
  have absent : isPresent (readEntry (fun _ => 0) 0x1000 (pml4Index 0)) = false := by decide
  have first : obtainedTable ⟨fun _ => 0, allocator⟩ 0x1000 (pml4Index 0) = some 0 := by
    rw [obtainedTable, checkedTablePtr, if_neg (by decide), Option.bind_some]
    simp only [absent, Bool.false_eq_true, if_false]
    exact allocateBelow_zero free (by decide)
  rw [mapObtains, if_neg (by decide), obtainedTables, first]
  exact List.mem_append_left _ (List.mem_singleton_self 0)

/-- When address zero is used. A successful `init` leaves address zero unused for good
exactly if no usable entry that its third pass reads starts there. These are the entries
of the map if no byte that is read of one lies where the bitmap is placed. -/
theorem null_unused_iff {memory after : Memory} {bootInfo : BootInfo}
    {allocator : FrameAllocator}
    (succeeded : init memory bootInfo = (.ok allocator, after)) :
    ∃ bitmap : Regions.Region,
      (initOutcome memory bootInfo).stored = some (bitmap.start, allocator.bitmap) ∧
      (NullUnused allocator bitmap ↔ ¬ NullUsable (readBack memory bootInfo bitmap)) ∧
      (MapApart memory bootInfo →
        readBack memory bootInfo bitmap = MemoryMapIter.entries memory bootInfo) := by
  obtain ⟨bitmap, initialised, nonzero⟩ := init_ok succeeded
  refine ⟨bitmap, initialised.stored, ?_, fun apart => readBack_apart apart initialised.placed⟩
  obtain ⟨host, -, stop, valid, -, start, -⟩ := placement_valid initialised.placed
  have unreserved : 0 ∉ bitmapFrames bitmap.start bitmap.size :=
    zero_not_bitmap (start ▸ valid.2.1) nonzero
  constructor
  · intro unused usable
    have free : 0 ∈ allocator.freeFrames := by
      rw [initialised.mem_free]
      exact ⟨Nat.zero_lt_of_lt (init_sound succeeded).hint, usable_zero_iff.mpr usable, unreserved⟩
    apply unused.tables ⟨0x1000⟩ (fun _ => 0) [] ⟨fun _ => 0, allocator⟩ (.nil _) 0 0
    exact zero_mem_mapObtains free
  · intro unusable
    refine ⟨nonzero, ?_⟩
    intro vmm start calls machine run virt phys obtained
    have shrunk : Shrunk allocator.freeFrames machine.frames := by
      apply run.invariant fun machine => Shrunk allocator.freeFrames machine.frames
      · intro _ call holds _
        exact holds.callMap vmm call
      · exact ⟨initialised.consistent, Finset.Subset.refl _⟩
    rw [mapObtains] at obtained
    split at obtained
    · cases obtained
    · obtain ⟨frame, free, null⟩ := shrunk.obtainedTables _ _ _ obtained
      have first : frame = 0 := by
        unfold PhysAddr.fromFrameNumber frameSize at null
        omega
      rw [first, initialised.mem_free] at free
      exact unusable (usable_zero_iff.mp free.2.1)

/-- On the small map, whose only entry starts at the second frame, address zero stays
unused. -/
theorem null_unused_small : ∃ bitmap : Regions.Region,
    (initOutcome smallMap smallMapInfo).stored = some (bitmap.start, [0x03#8, 0xFE#8]) ∧
      NullUnused ⟨[0x03#8, 0xFE#8], 9, 7, 0⟩ bitmap := by
  obtain ⟨bitmap, stored, unused, same⟩ := null_unused_iff (Prod.ext smallMap_init rfl)
  refine ⟨bitmap, stored, unused.mpr ?_⟩
  rw [same smallMap_apart]
  rintro ⟨entry, member, _, _, start⟩
  have only : MemoryMapIter.entries smallMap smallMapInfo = [⟨7, 0x1000, 8⟩] := by decide +kernel
  rw [only, List.mem_singleton] at member
  rw [member] at start
  cases start

/-- Eight usable pages at address zero, after eight at `0x10000`, which take the bitmap. -/
def lateNullMap : Memory := fun target =>
  if target = 0x100000 then 7#8
  else if target = 0x10000A then 1#8
  else if target = 0x100018 then 8#8
  else if target = 0x100030 then 7#8
  else if target = 0x100048 then 8#8
  else 0#8

/-- On this map `init` succeeds, and the first table that a `map` call creates lies at
address zero. -/
theorem null_used :
    (init lateNullMap ⟨0x100000, 96, 48, 2⟩).1 = .ok ⟨[0#8, 0xFF#8, 0x01#8], 24, 15, 0⟩ ∧
      (initOutcome lateNullMap ⟨0x100000, 96, 48, 2⟩).stored =
        some (0x10000, [0#8, 0xFF#8, 0x01#8]) ∧
      0 ∈ mapObtains ⟨0x1000⟩ ⟨fun _ => 0, ⟨[0#8, 0xFF#8, 0x01#8], 24, 15, 0⟩⟩ 0 0 ∧
      ¬ NullUnused ⟨[0#8, 0xFF#8, 0x01#8], 24, 15, 0⟩ ⟨0x10000, 3⟩ := by
  have obtained : 0 ∈ mapObtains ⟨0x1000⟩
      ⟨fun _ => 0, ⟨[0#8, 0xFF#8, 0x01#8], 24, 15, 0⟩⟩ 0 0 := by
    decide +kernel
  refine ⟨by decide +kernel, by decide +kernel, obtained, ?_⟩
  intro unused
  exact unused.tables ⟨0x1000⟩ (fun _ => 0) [] _ (.nil _) 0 0 obtained

end FrameAllocator

end XyronOS
