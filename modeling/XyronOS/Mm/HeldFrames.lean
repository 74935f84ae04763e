import XyronOS.Mm.AddressSpace

/-!
# Frames held next to the page tables

A kernel component that holds frames relies on three facts about them: they are
marked used, they are all different, and none of them is a page table. `Held` is
that invariant together with the ownership of the tables.

Every operation of the manager is an `Updates` of the tables, so one lemma covers
`map` with all its failures and `unmap`; taking and releasing move one frame, and a
write outside the tables moves none.
-/

namespace XyronOS

open ByteMemory VirtualMemoryManager

variable {vmm : VirtualMemoryManager} {machine : Machine}

/-- The frames an update adds are the ones it uses up. -/
theorem Updates.usedFrames {before after : Machine} {added : Finset Nat}
    (updated : Updates vmm before after added) :
    after.frames.usedFrames = before.frames.usedFrames ∪ added := by
  rw [FrameAllocator.usedFrames_eq, FrameAllocator.usedFrames_eq, updated.free, updated.total]
  ext frame
  have tracked : frame ∈ added → frame < before.frames.totalFrames := by
    intro member
    have free := (Finset.mem_filter.mp (updated.fresh member)).1
    exact ((FrameAllocator.mem_freeFrames _ _).mp free).1
  simp only [Finset.mem_sdiff, Finset.mem_range, Finset.mem_union]
  tauto

/-- Added frames were not used before. -/
theorem Updates.unused {before after : Machine} {added : Finset Nat}
    (updated : Updates vmm before after added) : Disjoint before.frames.usedFrames added := by
  rw [Finset.disjoint_right]
  intro frame member used
  have free := (Finset.mem_filter.mp (updated.fresh member)).1
  rw [FrameAllocator.usedFrames_eq] at used
  exact (Finset.mem_sdiff.mp used).2 free

/-- Whatever `map` returns, it has updated the tables. -/
theorem Owned.map_updates (owned : Owned vmm machine) (virt phys : Nat) (flags : PageFlags) :
    ∃ added, Updates vmm machine (vmm.map machine virt phys flags).2 added := by
  rcases result : vmm.map machine virt phys flags with ⟨_ | _, after⟩
  · exact (owned.map_error result).2
  · obtain ⟨_, _, _, _, added, updated, _⟩ := owned.map_ok result
    exact ⟨added, updated⟩

/-- Whatever `unmap` returns, it has added no table. -/
theorem Owned.unmap_updates (owned : Owned vmm machine) (virt : Nat) :
    Updates vmm machine
      { machine with memory := (vmm.unmap machine.memory virt).2 } ∅ := by
  rcases result : vmm.unmap machine.memory virt with ⟨_ | _, memory⟩
  · rw [owned.unmap_error result]
    exact Updates.refl owned
  · exact (owned.unmap_ok result).2.2.2

/-- The tables are owned and the held frames are used frames of their own. -/
structure Held (vmm : VirtualMemoryManager) (machine : Machine) (frames : List Nat) : Prop where
  owned : Owned vmm machine
  nodup : frames.Nodup
  used : ∀ frame ∈ frames, frame ∈ machine.frames.usedFrames
  apart : ∀ frame ∈ frames, PhysAddr.fromFrameNumber frame ∉ tables machine.memory vmm.pml4Phys

namespace Held

variable {frames : List Nat} (held : Held vmm machine frames)

include held

/-- An update of the tables keeps the frames held. The added frames were free, so
none of them is held. -/
theorem update {after : Machine} {added : Finset Nat} (updated : Updates vmm machine after added) :
    Held vmm after frames := by
  refine ⟨updated.owned, held.nodup, ?_, ?_⟩
  · intro frame member
    rw [updated.usedFrames]
    exact Finset.mem_union_left _ (held.used frame member)
  · intro frame member reached
    rcases updated.tables.subset reached with old | ⟨other, new, same⟩
    · exact held.apart frame member old
    · have sameFrame : other = frame := PhysAddr.fromFrameNumber_injective same
      subst sameFrame
      exact Finset.disjoint_left.mp updated.unused (held.used other member) new

/-- A free frame that is taken can be held. -/
theorem take {frame : Nat} {allocator : FrameAllocator}
    (takes : machine.frames.Takes frame allocator) :
    Held vmm { machine with frames := allocator } (frame :: frames) := by
  have usedAfter := takes.usedFrames
  constructor
  · apply held.owned.replace_frames takes.consistent
    intro table reached
    rw [usedAfter]
    exact Finset.mem_insert_of_mem (held.owned.used table reached)
  · exact List.nodup_cons.mpr ⟨fun member => takes.unused (held.used frame member), held.nodup⟩
  · intro other member
    rw [usedAfter]
    rcases List.mem_cons.mp member with rfl | old
    · exact Finset.mem_insert_self _ _
    · exact Finset.mem_insert_of_mem (held.used other old)
  · intro other member
    rcases List.mem_cons.mp member with rfl | old
    · exact held.owned.free_not_table takes.free
    · exact held.apart other old

/-- Releasing a held frame keeps the others held; the frame is no table. -/
theorem release {frame : Nat} {allocator : FrameAllocator} (member : frame ∈ frames)
    (releases : machine.frames.Releases frame allocator) :
    Held vmm { machine with frames := allocator } (frames.erase frame) := by
  have usedAfter := releases.usedFrames
  refine ⟨?_, held.nodup.erase frame, ?_, ?_⟩
  · apply held.owned.replace_frames releases.consistent
    intro table reached
    rw [usedAfter, Finset.mem_erase]
    refine ⟨?_, held.owned.used table reached⟩
    rintro rfl
    apply held.apart _ member
    rwa [PhysAddr.fromFrameNumber_frameNumber table (held.owned.aligned table reached)]
  · intro other still
    obtain ⟨different, old⟩ := held.nodup.mem_erase_iff.mp still
    rw [usedAfter, Finset.mem_erase]
    exact ⟨different, held.used other old⟩
  · intro other still
    exact held.apart other (List.mem_of_mem_erase still)

/-- Memory that agrees on the tables keeps the frames held, the tables and every
lookup. -/
theorem write {memory : Memory}
    (same : ∀ table ∈ tables machine.memory vmm.pml4Phys, ∀ byte ∈ frameBytes table,
      memory byte = machine.memory byte) :
    Held vmm { machine with memory := memory } frames ∧
      tables memory vmm.pml4Phys = tables machine.memory vmm.pml4Phys ∧
      ∀ virt, lookup memory vmm.pml4Phys virt = lookup machine.memory vmm.pml4Phys virt := by
  obtain ⟨owned, sameTables, looked⟩ := held.owned.write_outside same
  refine ⟨⟨owned, held.nodup, held.used, ?_⟩, sameTables, looked⟩
  intro frame member
  rw [sameTables]
  exact held.apart frame member

/-- The order of the held frames does not matter, and fewer may be held. -/
theorem sublist {fewer : List Nat} (subset : fewer.Subperm frames) : Held vmm machine fewer where
  owned := held.owned
  nodup := by
    obtain ⟨listed, reordered, within⟩ := subset
    exact reordered.nodup_iff.mp (held.nodup.sublist within)
  used := fun frame member => held.used frame (subset.subset member)
  apart := fun frame member => held.apart frame (subset.subset member)

end Held

end XyronOS
