import XyronOS.Boot.BootAddressSpace
import XyronOS.Library.Runs
import XyronOS.Mm.HeldFrames

/-!
# Ownership of frames over whole runs

The kernel's clients allocate and release frames, map and unmap pages, and write
to memory that is not a page table. Starting from the bootloader's tables, every
frame is at each moment free, held by a client, in use since boot, or a page
table, and these four do not overlap.

`Ownership` is that invariant: the clients' frames are held, and the count of used
frames follows along.
-/

namespace XyronOS

open ByteMemory WordBits PageTableEntry VirtAddr RadixTree VirtualMemoryManager Runs

/-- The machine and the frames its clients hold. -/
structure Runtime where
  machine : Machine
  held : List Nat

/-- What a client may ask for. -/
inductive Request where
  | allocate
  | deallocate (frame : Nat)
  | map (virt phys : Nat) (flags : PageFlags)
  | unmap (virt : Nat)
  | write (target : Nat) (value : BitVec 8)

/-- Serve one request; a frame is held from its allocation to its release. -/
def serve (vmm : VirtualMemoryManager) (runtime : Runtime) : Request → Runtime
  | .allocate =>
      match runtime.machine.frames.allocate with
      | (some address, frames) =>
          ⟨{ runtime.machine with frames := frames }, PhysAddr.frameNumber address :: runtime.held⟩
      | (none, frames) => { runtime with machine := { runtime.machine with frames := frames } }
  | .deallocate frame =>
      match runtime.machine.frames.deallocate (PhysAddr.fromFrameNumber frame) with
      | (.ok _, frames) => ⟨{ runtime.machine with frames := frames }, runtime.held.erase frame⟩
      | (.error _, frames) => { runtime with machine := { runtime.machine with frames := frames } }
  | .map virt phys flags => { runtime with machine := (vmm.map runtime.machine virt phys flags).2 }
  | .unmap virt =>
      { runtime with machine := { runtime.machine with
        memory := (vmm.unmap runtime.machine.memory virt).2 } }
  | .write target value =>
      { runtime with machine := { runtime.machine with
        memory := Function.update runtime.machine.memory target value } }

/-- Clients release only what they hold and never write into a page table. -/
def Permitted (vmm : VirtualMemoryManager) (runtime : Runtime) : Request → Prop
  | .deallocate frame => frame ∈ runtime.held
  | .write target _ => ∀ table ∈ tables runtime.machine.memory vmm.pml4Phys,
      target ∉ frameBytes table
  | _ => True

variable {vmm : VirtualMemoryManager} {machine : Machine}

/-- A byte written outside the tables changes no byte of a table. -/
theorem update_outside {memory : Memory} {root target : Nat} (value : BitVec 8)
    (outside : ∀ table ∈ tables memory root, target ∉ frameBytes table) :
    ∀ table ∈ tables memory root, ∀ byte ∈ frameBytes table,
      Function.update memory target value byte = memory byte := by
  intro table reached byte inside
  apply Function.update_of_ne
  rintro rfl
  exact outside table reached inside

/-- Tables are frames of the bitmap, so there are finitely many. -/
theorem Owned.tables_finite (owned : Owned vmm machine) :
    (tables machine.memory vmm.pml4Phys).Finite := by
  apply Set.Finite.subset (machine.frames.usedFrames.finite_toSet.image PhysAddr.fromFrameNumber)
  intro table reached
  exact ⟨PhysAddr.frameNumber table, owned.used table reached,
    PhysAddr.fromFrameNumber_frameNumber table (owned.aligned table reached)⟩

/-- The clients' frames are held, and the used frames are those of the start, the
held ones and the tables linked since. -/
structure Ownership (vmm : VirtualMemoryManager) (start : Machine) (runtime : Runtime) : Prop
    extends Held vmm runtime.machine runtime.held where
  kept : tables start.memory vmm.pml4Phys ⊆ tables runtime.machine.memory vmm.pml4Phys
  count : runtime.machine.frames.usedFrames.card = start.frames.usedFrames.card +
    runtime.held.length + (tables runtime.machine.memory vmm.pml4Phys \
      tables start.memory vmm.pml4Phys).ncard

namespace Ownership

variable {start : Machine} {runtime : Runtime}

/-- A client holds nothing at the start. -/
theorem initial (owned : Owned vmm start) : Ownership vmm start ⟨start, []⟩ :=
  ⟨⟨owned, List.nodup_nil, by simp, by simp⟩, Set.Subset.refl _, by simp⟩

/-- An update of the tables keeps the count: the added frames were free, so they are
no tables of the start. -/
theorem update (ownership : Ownership vmm start runtime) {after : Machine} {added : Finset Nat}
    (updated : Updates vmm runtime.machine after added) :
    Ownership vmm start { runtime with machine := after } := by
  have fresh (frame : Nat) (member : frame ∈ added) :
      PhysAddr.fromFrameNumber frame ∉ tables runtime.machine.memory vmm.pml4Phys :=
    ownership.owned.free_not_table (Finset.mem_filter.mp (updated.fresh member)).1
  refine ⟨ownership.toHeld.update updated, ?_, ?_⟩
  · intro table reached
    exact updated.tables.superset (.inl (ownership.kept reached))
  · have split : tables after.memory vmm.pml4Phys \ tables start.memory vmm.pml4Phys =
        (tables runtime.machine.memory vmm.pml4Phys \ tables start.memory vmm.pml4Phys) ∪
          PhysAddr.fromFrameNumber '' added := by
      rw [updated.tables, Set.union_sdiff_distrib]
      congr 1
      rw [sdiff_eq_left, Set.disjoint_left]
      rintro table ⟨frame, member, rfl⟩ old
      exact fresh frame member (ownership.kept old)
    have separate : Disjoint
        (tables runtime.machine.memory vmm.pml4Phys \ tables start.memory vmm.pml4Phys)
        (PhysAddr.fromFrameNumber '' added) := by
      rw [Set.disjoint_right]
      rintro table ⟨frame, member, rfl⟩ old
      exact fresh frame member old.1
    have linked : (PhysAddr.fromFrameNumber '' (added : Set Nat)).ncard = added.card := by
      rw [Set.ncard_image_of_injective _ (fun _ _ => PhysAddr.fromFrameNumber_injective),
        Set.ncard_coe_finset]
    change after.frames.usedFrames.card = start.frames.usedFrames.card + runtime.held.length +
      (tables after.memory vmm.pml4Phys \ tables start.memory vmm.pml4Phys).ncard
    rw [updated.usedFrames, Finset.card_union_of_disjoint updated.unused, ownership.count, split,
      Set.ncard_union_eq separate (ownership.owned.tables_finite.subset Set.sdiff_subset)
        (added.finite_toSet.image _), linked]
    omega

/-- Handing a free frame to a client keeps the count. -/
theorem take (ownership : Ownership vmm start runtime) {frame : Nat} {frames : FrameAllocator}
    (takes : runtime.machine.frames.Takes frame frames) :
    Ownership vmm start ⟨{ runtime.machine with frames := frames }, frame :: runtime.held⟩ := by
  refine ⟨ownership.toHeld.take takes, ownership.kept, ?_⟩
  have counted := ownership.count
  simp only [takes.usedFrames, Finset.card_insert_of_notMem takes.unused, List.length_cons]
  omega

/-- Returning a held frame keeps the count. -/
theorem release (ownership : Ownership vmm start runtime) {frame : Nat} {frames : FrameAllocator}
    (held : frame ∈ runtime.held) (releases : runtime.machine.frames.Releases frame frames) :
    Ownership vmm start ⟨{ runtime.machine with frames := frames }, runtime.held.erase frame⟩ := by
  refine ⟨ownership.toHeld.release held releases, ownership.kept, ?_⟩
  have counted := ownership.count
  have positive : 0 < runtime.held.length := List.length_pos_of_mem held
  simp only [releases.usedFrames, Finset.card_erase_of_mem releases.used,
    List.length_erase_of_mem held]
  omega

/-- A write outside the tables keeps the count. -/
theorem write (ownership : Ownership vmm start runtime) {target : Nat} (value : BitVec 8)
    (outside : ∀ table ∈ tables runtime.machine.memory vmm.pml4Phys, target ∉ frameBytes table) :
    Ownership vmm start { runtime with machine := { runtime.machine with
      memory := Function.update runtime.machine.memory target value } } := by
  obtain ⟨held, sameTables, _⟩ := ownership.toHeld.write (update_outside value outside)
  refine ⟨held, ?_, ?_⟩
  · rw [sameTables]
    exact ownership.kept
  · rw [sameTables]
    exact ownership.count

/-- Every permitted request keeps the invariant. -/
theorem serve (ownership : Ownership vmm start runtime) (request : Request)
    (permitted : Permitted vmm runtime request) :
    Ownership vmm start (serve vmm runtime request) := by
  cases request with
  | allocate =>
    rcases FrameAllocator.allocate_cases ownership.owned.consistent with
      ⟨frame, frames, taken, _, takes⟩ | ⟨refused, _⟩
    · simp only [XyronOS.serve, taken, PhysAddr.frameNumber_fromFrameNumber]
      exact ownership.take takes
    · simp only [XyronOS.serve, refused]
      exact ownership
  | deallocate frame =>
    obtain ⟨frames, released, releases⟩ :=
      FrameAllocator.deallocate_used ownership.owned.consistent (ownership.used frame permitted)
    simp only [XyronOS.serve, released]
    exact ownership.release permitted releases
  | map virt phys flags =>
    obtain ⟨added, updated⟩ := ownership.owned.map_updates virt phys flags
    exact ownership.update updated
  | unmap virt => exact ownership.update (ownership.owned.unmap_updates virt)
  | write target value => exact ownership.write value permitted

end Ownership

/-- An entry, given by its table and index, that points to a table. -/
def PointsTo (memory : Memory) (root : Nat) (entry : Nat × Fin 512) (table : Nat) : Prop :=
  ∃ path, descend (slots memory) 0 root path = some entry.1 ∧
    slots memory path.length entry.1 entry.2 = .table table

/-- In a tree every table but the root has exactly one entry pointing to it: the
last step of the one path that reaches it. -/
theorem Owned.pointed_once (owned : Owned vmm machine) {table : Nat}
    (reached : table ∈ tables machine.memory vmm.pml4Phys) (inner : table ≠ vmm.pml4Phys) :
    ∃! entry, PointsTo machine.memory vmm.pml4Phys entry table := by
  obtain ⟨path, followed⟩ := reached
  rcases List.eq_nil_or_concat path with rfl | ⟨before, index, rfl⟩
  · exact absurd (Option.some.inj followed).symm inner
  · rw [List.concat_eq_append, descend_snoc] at followed
    obtain ⟨parent, here, pointing⟩ := Option.bind_eq_some_iff.mp followed
    have slot : slots machine.memory before.length parent index = .table table := by
      cases seen : slots machine.memory before.length parent index with
      | empty => simp [seen, Slot.child] at pointing
      | leaf mapping => simp [seen, Slot.child] at pointing
      | table child =>
        rw [seen] at pointing
        rw [Option.some.inj pointing]
    refine ⟨(parent, index), ⟨before, here, slot⟩, ?_⟩
    rintro ⟨other, otherIndex⟩ ⟨place, there, pointingOther⟩
    obtain ⟨rfl, rfl⟩ :=
      link_unique _ owned.tree place before otherIndex index there here pointingOther slot
    rfl

/-- The tables of a successful build are owned once their frames are marked used. -/
theorem owned_of_build {pages : Nat → Option Nat} (fresh : Boot.FreshPages pages)
    {memory after : Memory} {base size pml4 : Nat}
    (built : Boot.buildKernelPageTables pages memory base size = (pml4, after))
    (succeeded : pml4 ≠ 0) {frames : FrameAllocator} (consistent : frames.Consistent)
    (reserved : ∀ request address, pages request = some address →
      PhysAddr.frameNumber address ∈ frames.usedFrames) :
    Owned ⟨pml4⟩ ⟨after, frames⟩ := by
  obtain ⟨table, rfl, outcome⟩ := Boot.buildKernelPageTables_outcome fresh built succeeded
  have known (node : Nat) (reached : node ∈ tables after (table 0)) :
      ∃ request < 8, node = table request := by
    obtain ⟨path, followed⟩ := reached
    obtain ⟨request, bounded, same, _⟩ := outcome.descend_cases fresh path node followed
    exact ⟨request, bounded, same⟩
  refine ⟨outcome.walkable fresh, outcome.tree fresh, ?_, ?_, consistent⟩
  · intro node reached
    obtain ⟨request, bounded, rfl⟩ := known node reached
    exact outcome.aligned fresh request bounded
  · intro node reached
    obtain ⟨request, bounded, rfl⟩ := known node reached
    exact reserved request _ (outcome.answered request bounded)

/-- Frame ownership over every run from the bootloader's tables: the tables are a
tree in which each inner table has exactly one entry pointing to it; each table is
a used frame below the identity-map limit that no client holds; the used frames
are those of the start, the held ones and the tables linked since; and `map` never
finds a table out of reach. -/
theorem frame_ownership {pages : Nat → Option Nat} (fresh : Boot.FreshPages pages)
    {memory after : Memory} {base size pml4 : Nat}
    (built : Boot.buildKernelPageTables pages memory base size = (pml4, after))
    (succeeded : pml4 ≠ 0) {frames : FrameAllocator} (consistent : frames.Consistent)
    (reserved : ∀ request address, pages request = some address →
      PhysAddr.frameNumber address ∈ frames.usedFrames)
    {requests : List Request} {runtime : Runtime}
    (run : Run (Permitted ⟨pml4⟩) (serve ⟨pml4⟩) ⟨⟨after, frames⟩, []⟩ requests runtime) :
    Tree (slots runtime.machine.memory) pml4 ∧
    (∀ table ∈ tables runtime.machine.memory pml4, table ≠ pml4 →
      ∃! entry, PointsTo runtime.machine.memory pml4 entry table) ∧
    (∀ entry, ¬ PointsTo runtime.machine.memory pml4 entry pml4) ∧
    (∀ table ∈ tables runtime.machine.memory pml4, table < identityMapLimit ∧
      PhysAddr.frameNumber table ∈ runtime.machine.frames.usedFrames ∧
      PhysAddr.frameNumber table ∉ runtime.held) ∧
    runtime.held.Nodup ∧
    runtime.machine.frames.usedFrames.card = frames.usedFrames.card + runtime.held.length +
      (tables runtime.machine.memory pml4 \ tables after pml4).ncard ∧
    ∀ virt phys flags, ((⟨pml4⟩ : VirtualMemoryManager).map runtime.machine virt phys flags).1 ≠
      .error .pageTableUnreachable := by
  have owned := owned_of_build fresh built succeeded consistent reserved
  have ownership : Ownership ⟨pml4⟩ ⟨after, frames⟩ runtime :=
    run.invariant (Ownership ⟨pml4⟩ ⟨after, frames⟩)
      (fun _ request holds permitted => holds.serve request permitted) (Ownership.initial owned)
  refine ⟨ownership.owned.tree, fun table => ownership.owned.pointed_once, ?_, ?_, ownership.nodup,
    ownership.count, ownership.owned.map_reachable⟩
  · rintro entry ⟨path, reached, pointing⟩
    exact root_not_linked _ ownership.owned.tree path entry.2 reached pointing
  · intro table reached
    refine ⟨ownership.owned.below table reached, ownership.owned.used table reached, ?_⟩
    intro held
    apply ownership.apart _ held
    rwa [PhysAddr.fromFrameNumber_frameNumber table (ownership.owned.aligned table reached)]

/-- The first eight frames after the null frame in use, seven frames free. -/
def bootFrames : FrameAllocator := ⟨[0xFF#8, 0x01#8], 16, 7, 0⟩

theorem bootFrames_consistent : bootFrames.Consistent := ⟨by decide, by decide, by decide⟩

/-- The pages the bootloader took are in use. -/
theorem bootFrames_reserved (request address : Nat)
    (answered : Boot.firstPages request = some address) :
    PhysAddr.frameNumber address ∈ bootFrames.usedFrames := by
  unfold Boot.firstPages at answered
  split at answered
  · rename_i known
    rw [← Option.some.inj answered]
    interval_cases request <;> decide
  · cases answered

/-- A run from the bootloader's tables: a client takes a frame and maps it. -/
theorem frame_ownership_example :
    ∃ after runtime,
      Boot.buildKernelPageTables Boot.firstPages (fun _ => 0) 0x200000 0x200000 =
        (0x1000, after) ∧
      Run (Permitted ⟨0x1000⟩) (serve ⟨0x1000⟩) ⟨⟨after, bootFrames⟩, []⟩
        [.allocate, .map 0xFFFF880000000000 0x9000 .readWrite] runtime ∧
      runtime.machine.frames.usedFrames.card = bootFrames.usedFrames.card + runtime.held.length +
        (tables runtime.machine.memory 0x1000 \ tables after 0x1000).ncard := by
  have root : (Boot.buildKernelPageTables Boot.firstPages (fun _ => 0) 0x200000 0x200000).1 =
      0x1000 := by
    decide +kernel
  generalize result : Boot.buildKernelPageTables Boot.firstPages (fun _ => 0) 0x200000 0x200000 =
    outcome at root
  obtain ⟨pml4, after⟩ := outcome
  subst root
  have run : Run (Permitted ⟨0x1000⟩) (serve ⟨0x1000⟩) ⟨⟨after, bootFrames⟩, []⟩
      [.allocate, .map 0xFFFF880000000000 0x9000 .readWrite] _ :=
    .cons trivial (.cons trivial (.nil _))
  refine ⟨after, _, rfl, run, ?_⟩
  exact (frame_ownership Boot.firstPages_fresh result (by decide)
    bootFrames_consistent bootFrames_reserved run).2.2.2.2.2.1

end XyronOS
