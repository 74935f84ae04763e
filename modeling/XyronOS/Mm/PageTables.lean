import XyronOS.Library.RadixTree
import XyronOS.Mm.Vmm

/-!
# Page tables as a radix tree

`slots` reads one table of physical memory as a table of the radix-tree library:
an absent entry is an empty slot, a present entry is a pointer above the last
level unless its huge-page bit is set, and otherwise a final mapping. The
ownership invariant says that the tables reached from the root form a tree and
occupy used frames below the identity-map limit.

On walkable tables the hand-written walks see one lookup. `Walk` states
once what a walk can meet at the four levels; `translate`, `flags_at` and
`unmap` are then read off it.
-/

namespace XyronOS

open ByteMemory WordBits PageTableEntry VirtAddr RadixTree

/-- A final entry together with the level, counted from the root, it was met at. -/
structure Mapping where
  depth : Nat
  entry : Nat
deriving DecidableEq, Repr

namespace Mapping

/-- Physical address of `virt` under a 1 GiB, 2 MiB or 4 KiB mapping. -/
def physical (virt : Nat) (mapping : Mapping) : Nat :=
  if mapping.depth = 1 then
    (addr mapping.entry &&& complement 0x3FFFFFFF) ||| (virt &&& 0x3FFFFFFF)
  else if mapping.depth = 2 then
    (addr mapping.entry &&& complement 0x1FFFFF) ||| (virt &&& 0x1FFFFF)
  else addr mapping.entry ||| pageOffset virt

/-- Permissions of a 4 KiB mapping; huge pages report none. -/
def flags (mapping : Mapping) : Option PageFlags :=
  if mapping.depth = 3 then some ⟨isWritable mapping.entry, isNoExecute mapping.entry⟩ else none

end Mapping

/-- Read one entry of physical memory as a slot of a table at `depth`. -/
def slots (memory : Memory) (depth table : Nat) (index : Fin 512) : Slot Nat Mapping :=
  let entry := readEntry memory table index
  if isPresent entry then
    if depth < 3 ∧ isHuge entry = false then .table (addr entry) else .leaf ⟨depth, entry⟩
  else .empty

/-- What the tables say about a virtual address. -/
def lookup (memory : Memory) (root virt : Nat) : Option Mapping :=
  resolve (slots memory) 0 root (indices virt)

/-- Physical addresses of the tables reached from the root. -/
def tables (memory : Memory) (root : Nat) : Set Nat := {table | Reached (slots memory) root table}

/-- Bytes of the frame at an address. -/
def frameBytes (address : Nat) : Set Nat := Set.Ico address (address + frameSize)

/-- Every reached table can be dereferenced, and no present PML4 entry has the
huge-page bit, which only the creating walk would look at there. -/
structure Walkable (vmm : VirtualMemoryManager) (memory : Memory) : Prop where
  below : ∀ table ∈ tables memory vmm.pml4Phys, table < identityMapLimit
  top : ∀ index, isPresent (readEntry memory vmm.pml4Phys index) = true →
    isHuge (readEntry memory vmm.pml4Phys index) = false

/-- The tables can be walked and form a tree; each is a used frame of its own; the
frame bitmap is consistent. -/
structure Owned (vmm : VirtualMemoryManager) (machine : Machine) : Prop
    extends Walkable vmm machine.memory where
  tree : Tree (slots machine.memory) vmm.pml4Phys
  aligned : ∀ table ∈ tables machine.memory vmm.pml4Phys, table % frameSize = 0
  used : ∀ table ∈ tables machine.memory vmm.pml4Phys,
    PhysAddr.frameNumber table ∈ machine.frames.usedFrames
  consistent : machine.frames.Consistent

theorem checkedTablePtr_below {table : Nat} (below : table < identityMapLimit) :
    checkedTablePtr table = some table := by
  simp [checkedTablePtr, Nat.not_le.mpr below]

theorem root_mem_tables (memory : Memory) (root : Nat) : root ∈ tables memory root := ⟨[], rfl⟩

/-- A dereferenceable table whose entry is absent. -/
structure Blank (memory : Memory) (table : Nat) (index : Fin 512) : Prop where
  checked : checkedTablePtr table = some table
  absent : isPresent (readEntry memory table index) = false

/-- A dereferenceable table whose entry is present, with its huge-page bit. -/
structure Present (memory : Memory) (table : Nat) (index : Fin 512) (huge : Bool) : Prop where
  checked : checkedTablePtr table = some table
  present : isPresent (readEntry memory table index) = true
  size : rawHasFlag (readEntry memory table index) flagPageSize = huge

/-- Everything a walk can meet, with the lookup it stands for. -/
inductive Walk (memory : Memory) (root virt : Nat) : Option Mapping → Prop where
  | noPdpt (last : Blank memory root (pml4Index virt)) : Walk memory root virt none
  | noPd (pdpt : Nat) (first : Present memory root (pml4Index virt) false)
      (link4 : addr (readEntry memory root (pml4Index virt)) = pdpt)
      (last : Blank memory pdpt (pdptIndex virt)) : Walk memory root virt none
  | giant (pdpt : Nat) (first : Present memory root (pml4Index virt) false)
      (link4 : addr (readEntry memory root (pml4Index virt)) = pdpt)
      (last : Present memory pdpt (pdptIndex virt) true) :
      Walk memory root virt (some ⟨1, readEntry memory pdpt (pdptIndex virt)⟩)
  | noPt (pdpt pd : Nat) (first : Present memory root (pml4Index virt) false)
      (link4 : addr (readEntry memory root (pml4Index virt)) = pdpt)
      (second : Present memory pdpt (pdptIndex virt) false)
      (link3 : addr (readEntry memory pdpt (pdptIndex virt)) = pd)
      (last : Blank memory pd (pdIndex virt)) : Walk memory root virt none
  | large (pdpt pd : Nat) (first : Present memory root (pml4Index virt) false)
      (link4 : addr (readEntry memory root (pml4Index virt)) = pdpt)
      (second : Present memory pdpt (pdptIndex virt) false)
      (link3 : addr (readEntry memory pdpt (pdptIndex virt)) = pd)
      (last : Present memory pd (pdIndex virt) true) :
      Walk memory root virt (some ⟨2, readEntry memory pd (pdIndex virt)⟩)
  | noPage (pdpt pd pt : Nat) (first : Present memory root (pml4Index virt) false)
      (link4 : addr (readEntry memory root (pml4Index virt)) = pdpt)
      (second : Present memory pdpt (pdptIndex virt) false)
      (link3 : addr (readEntry memory pdpt (pdptIndex virt)) = pd)
      (third : Present memory pd (pdIndex virt) false)
      (link2 : addr (readEntry memory pd (pdIndex virt)) = pt)
      (last : Blank memory pt (ptIndex virt)) : Walk memory root virt none
  | page (pdpt pd pt : Nat) (huge : Bool) (first : Present memory root (pml4Index virt) false)
      (link4 : addr (readEntry memory root (pml4Index virt)) = pdpt)
      (second : Present memory pdpt (pdptIndex virt) false)
      (link3 : addr (readEntry memory pdpt (pdptIndex virt)) = pd)
      (third : Present memory pd (pdIndex virt) false)
      (link2 : addr (readEntry memory pd (pdIndex virt)) = pt)
      (last : Present memory pt (ptIndex virt) huge) :
      Walk memory root virt (some ⟨3, readEntry memory pt (ptIndex virt)⟩)

section Slots

variable {memory : Memory} {table : Nat} {index : Fin 512} (depth : Nat)

theorem slots_blank (last : Blank memory table index) : slots memory depth table index = .empty := by
  simp [slots, last.absent]

theorem slots_pointer (here : Present memory table index false) (above : depth < 3) :
    slots memory depth table index = .table (addr (readEntry memory table index)) := by
  have small : isHuge (readEntry memory table index) = false := here.size
  simp [slots, here.present, small, above]

theorem slots_huge (here : Present memory table index true) :
    slots memory depth table index = .leaf ⟨depth, readEntry memory table index⟩ := by
  have big : isHuge (readEntry memory table index) = true := here.size
  simp [slots, here.present, big]

theorem slots_page {huge : Bool} (here : Present memory table index huge) :
    slots memory 3 table index = .leaf ⟨3, readEntry memory table index⟩ := by
  simp [slots, here.present]

/-- A slot is empty exactly when its entry is absent. -/
theorem slots_empty_iff :
    slots memory depth table index = .empty ↔ isPresent (readEntry memory table index) = false := by
  by_cases present : isPresent (readEntry memory table index) = true
  · by_cases inner : depth < 3 ∧ isHuge (readEntry memory table index) = false <;>
      simp [slots, present, inner]
  · simp [slots, present]

/-- A final mapping carries the level it was met at. -/
theorem slots_leaf_depth {mapping : Mapping}
    (final : slots memory depth table index = .leaf mapping) : mapping.depth = depth := by
  simp only [slots] at final
  split at final
  · split at final
    · cases final
    · cases final
      rfl
  · cases final

/-- A slot depends on its entry alone. -/
theorem slots_congr {memory' : Memory}
    (same : readEntry memory' table index = readEntry memory table index) :
    slots memory' depth table index = slots memory depth table index := by
  simp only [slots, same]

end Slots

/-- Level by level, a walk over walkable tables meets one of the listed cases, and
the case names the lookup. Each pointer leads to a reached table, which is
dereferenceable. -/
theorem Walkable.walk {vmm : VirtualMemoryManager} {memory : Memory}
    (walkable : Walkable vmm memory) (virt : Nat) :
    Walk memory vmm.pml4Phys virt (lookup memory vmm.pml4Phys virt) := by
  have ready (path : List (Fin 512)) (table : Nat)
      (reached : descend (slots memory) 0 vmm.pml4Phys path = some table) :
      checkedTablePtr table = some table :=
    checkedTablePtr_below (walkable.below table ⟨path, reached⟩)
  have open4 := ready [] vmm.pml4Phys rfl
  cases present4 : isPresent (readEntry memory vmm.pml4Phys (pml4Index virt)) with
  | false =>
    have last : Blank memory vmm.pml4Phys (pml4Index virt) := ⟨open4, present4⟩
    have found : lookup memory vmm.pml4Phys virt = none := by
      simp [lookup, indices, resolve, slots_blank _ last]
    exact found ▸ .noPdpt last
  | true =>
    have first : Present memory vmm.pml4Phys (pml4Index virt) false :=
      ⟨open4, present4, walkable.top _ present4⟩
    generalize link4 : addr (readEntry memory vmm.pml4Phys (pml4Index virt)) = pdpt
    have slot4 := slots_pointer 0 first (by decide)
    rw [link4] at slot4
    have open3 := ready [pml4Index virt] pdpt (by simp [descend, slot4])
    cases present3 : isPresent (readEntry memory pdpt (pdptIndex virt)) with
    | false =>
      have last : Blank memory pdpt (pdptIndex virt) := ⟨open3, present3⟩
      have found : lookup memory vmm.pml4Phys virt = none := by
        simp [lookup, indices, resolve, slot4, slots_blank _ last]
      exact found ▸ .noPd pdpt first link4 last
    | true =>
      cases huge3 : rawHasFlag (readEntry memory pdpt (pdptIndex virt)) flagPageSize with
      | true =>
        have last : Present memory pdpt (pdptIndex virt) true := ⟨open3, present3, huge3⟩
        have found : lookup memory vmm.pml4Phys virt =
            some ⟨1, readEntry memory pdpt (pdptIndex virt)⟩ := by
          simp [lookup, indices, resolve, slot4, slots_huge _ last]
        exact found ▸ .giant pdpt first link4 last
      | false =>
        have second : Present memory pdpt (pdptIndex virt) false :=
          ⟨open3, present3, huge3⟩
        generalize link3 : addr (readEntry memory pdpt (pdptIndex virt)) = pd
        have slot3 := slots_pointer 1 second (by decide)
        rw [link3] at slot3
        have open2 := ready [pml4Index virt, pdptIndex virt] pd (by simp [descend, slot4, slot3])
        cases present2 : isPresent (readEntry memory pd (pdIndex virt)) with
        | false =>
          have last : Blank memory pd (pdIndex virt) := ⟨open2, present2⟩
          have found : lookup memory vmm.pml4Phys virt = none := by
            simp [lookup, indices, resolve, slot4, slot3, slots_blank _ last]
          exact found ▸ .noPt pdpt pd first link4 second link3 last
        | true =>
          cases huge2 : rawHasFlag (readEntry memory pd (pdIndex virt)) flagPageSize with
          | true =>
            have last : Present memory pd (pdIndex virt) true := ⟨open2, present2, huge2⟩
            have found : lookup memory vmm.pml4Phys virt =
                some ⟨2, readEntry memory pd (pdIndex virt)⟩ := by
              simp [lookup, indices, resolve, slot4, slot3, slots_huge _ last]
            exact found ▸ .large pdpt pd first link4 second link3 last
          | false =>
            have third : Present memory pd (pdIndex virt) false :=
              ⟨open2, present2, huge2⟩
            generalize link2 : addr (readEntry memory pd (pdIndex virt)) = pt
            have slot2 := slots_pointer 2 third (by decide)
            rw [link2] at slot2
            have open1 := ready [pml4Index virt, pdptIndex virt, pdIndex virt] pt
              (by simp [descend, slot4, slot3, slot2])
            cases present1 : isPresent (readEntry memory pt (ptIndex virt)) with
            | false =>
              have last : Blank memory pt (ptIndex virt) := ⟨open1, present1⟩
              have found : lookup memory vmm.pml4Phys virt = none := by
                simp [lookup, indices, resolve, slot4, slot3, slot2, slots_blank _ last]
              exact found ▸ .noPage pdpt pd pt first link4 second link3 third link2 last
            | true =>
              have last : Present memory pt (ptIndex virt)
                  (rawHasFlag (readEntry memory pt (ptIndex virt)) flagPageSize) :=
                ⟨open1, present1, rfl⟩
              have found : lookup memory vmm.pml4Phys virt =
                  some ⟨3, readEntry memory pt (ptIndex virt)⟩ := by
                simp [lookup, indices, resolve, slot4, slot3, slot2, slots_page last]
              exact found ▸ .page pdpt pd pt _ first link4 second link3 third link2 last

/-- `translate` reports the physical address of the lookup. -/
theorem Walkable.translate_eq {vmm : VirtualMemoryManager} {memory : Memory}
    (walkable : Walkable vmm memory) (virt : Nat) :
    vmm.translate memory virt =
      (lookup memory vmm.pml4Phys virt).map (Mapping.physical virt) := by
  generalize found : lookup memory vmm.pml4Phys virt = mapping
  have walked := found ▸ walkable.walk virt
  cases walked with
  | noPdpt last => simp [VirtualMemoryManager.translate, last.checked, last.absent]
  | noPd pdpt first link4 last =>
    simp [VirtualMemoryManager.translate, first.checked, first.present, link4, last.checked,
      last.absent]
  | giant pdpt first link4 last =>
    simp [VirtualMemoryManager.translate, first.checked, first.present, link4, last.checked,
      last.present, last.size, Mapping.physical]
  | noPt pdpt pd first link4 second link3 last =>
    simp [VirtualMemoryManager.translate, first.checked, first.present, link4, second.checked,
      second.present, second.size, link3, last.checked, last.absent]
  | large pdpt pd first link4 second link3 last =>
    simp [VirtualMemoryManager.translate, first.checked, first.present, link4, second.checked,
      second.present, second.size, link3, last.checked, last.present, last.size, Mapping.physical]
  | noPage pdpt pd pt first link4 second link3 third link2 last =>
    simp [VirtualMemoryManager.translate, first.checked, first.present, link4, second.checked,
      second.present, second.size, link3, third.checked, third.present, third.size, link2,
      last.checked, last.absent]
  | page pdpt pd pt huge first link4 second link3 third link2 last =>
    simp [VirtualMemoryManager.translate, first.checked, first.present, link4, second.checked,
      second.present, second.size, link3, third.checked, third.present, third.size, link2,
      last.checked, last.present, Mapping.physical]

/-- `flags_at` reports the permissions of a 4 KiB lookup. -/
theorem Walkable.flagsAt_eq {vmm : VirtualMemoryManager} {memory : Memory}
    (walkable : Walkable vmm memory) (virt : Nat) :
    vmm.flagsAt memory virt =
      (lookup memory vmm.pml4Phys virt).bind Mapping.flags := by
  generalize found : lookup memory vmm.pml4Phys virt = mapping
  have walked := found ▸ walkable.walk virt
  cases walked with
  | noPdpt last => simp [VirtualMemoryManager.flagsAt, last.checked, last.absent]
  | noPd pdpt first link4 last =>
    simp [VirtualMemoryManager.flagsAt, first.checked, first.present, link4, last.checked,
      last.absent]
  | giant pdpt first link4 last =>
    simp [VirtualMemoryManager.flagsAt, first.checked, first.present, link4, last.checked,
      last.present, last.size, Mapping.flags]
  | noPt pdpt pd first link4 second link3 last =>
    simp [VirtualMemoryManager.flagsAt, first.checked, first.present, link4, second.checked,
      second.present, second.size, link3, last.checked, last.absent]
  | large pdpt pd first link4 second link3 last =>
    simp [VirtualMemoryManager.flagsAt, first.checked, first.present, link4, second.checked,
      second.present, second.size, link3, last.checked, last.present, last.size, Mapping.flags]
  | noPage pdpt pd pt first link4 second link3 third link2 last =>
    simp [VirtualMemoryManager.flagsAt, first.checked, first.present, link4, second.checked,
      second.present, second.size, link3, third.checked, third.present, third.size, link2,
      last.checked, last.absent]
  | page pdpt pd pt huge first link4 second link3 third link2 last =>
    simp [VirtualMemoryManager.flagsAt, first.checked, first.present, link4, second.checked,
      second.present, second.size, link3, third.checked, third.present, third.size, link2,
      last.checked, last.present, Mapping.flags]

/-- Every outcome of `unmap` on walkable tables. Success clears the entry of a 4 KiB
mapping; every error leaves memory alone. -/
theorem Walkable.unmap_cases {vmm : VirtualMemoryManager} {memory : Memory}
    (walkable : Walkable vmm memory) (virt : Nat) :
    (∃ pt entry, vmm.unmap memory virt =
        (.ok (addr entry), writeEntry memory pt (ptIndex virt) cleared) ∧
      virt % frameSize = 0 ∧ lookup memory vmm.pml4Phys virt = some ⟨3, entry⟩ ∧
      descend (slots memory) 0 vmm.pml4Phys
        [pml4Index virt, pdptIndex virt, pdIndex virt] = some pt ∧
      isPresent (readEntry memory pt (ptIndex virt)) = true) ∨
    (∃ error, vmm.unmap memory virt = (.error error, memory) ∧
      error ≠ .pageTableUnreachable ∧
      (virt % frameSize = 0 → ∀ entry,
        lookup memory vmm.pml4Phys virt ≠ some ⟨3, entry⟩)) := by
  by_cases aligned : virt % frameSize = 0
  · have pageAligned : isPageAligned virt = true := by simp [isPageAligned, aligned]
    generalize found : lookup memory vmm.pml4Phys virt = mapping
    have walked := found ▸ walkable.walk virt
    cases walked with
    | noPdpt last =>
      exact .inr ⟨.notMapped, by
        simp [VirtualMemoryManager.unmap, pageAligned, last.checked, last.absent], by simp, by simp⟩
    | noPd pdpt first link4 last =>
      exact .inr ⟨.notMapped, by
        simp [VirtualMemoryManager.unmap, pageAligned, first.checked, first.present, link4,
          last.checked, last.absent], by simp, by simp⟩
    | giant pdpt first link4 last =>
      exact .inr ⟨.isHugePage, by
        simp [VirtualMemoryManager.unmap, pageAligned, first.checked, first.present, link4,
          last.checked, last.present, last.size], by simp, by simp⟩
    | noPt pdpt pd first link4 second link3 last =>
      exact .inr ⟨.notMapped, by
        simp [VirtualMemoryManager.unmap, pageAligned, first.checked, first.present, link4,
          second.checked, second.present, second.size, link3, last.checked, last.absent],
        by simp, by simp⟩
    | large pdpt pd first link4 second link3 last =>
      exact .inr ⟨.isHugePage, by
        simp [VirtualMemoryManager.unmap, pageAligned, first.checked, first.present, link4,
          second.checked, second.present, second.size, link3, last.checked, last.present, last.size],
        by simp, by simp⟩
    | noPage pdpt pd pt first link4 second link3 third link2 last =>
      exact .inr ⟨.notMapped, by
        simp [VirtualMemoryManager.unmap, pageAligned, first.checked, first.present, link4,
          second.checked, second.present, second.size, link3, third.checked, third.present,
          third.size, link2, last.checked, last.absent], by simp, by simp⟩
    | page pdpt pd pt huge first link4 second link3 third link2 last =>
      refine .inl ⟨pt, readEntry memory pt (ptIndex virt), ?_, aligned, rfl, ?_,
        last.present⟩
      · simp [VirtualMemoryManager.unmap, pageAligned, first.checked, first.present, link4,
          second.checked, second.present, second.size, link3, third.checked, third.present,
          third.size, link2, last.checked, last.present]
      · simp [descend, slots_pointer 0 first (by decide), link4,
          slots_pointer 1 second (by decide), link3,
          slots_pointer 2 third (by decide), link2]
  · have misaligned : isPageAligned virt = false := by simp [isPageAligned, aligned]
    exact .inr ⟨.notPageAligned, by simp [VirtualMemoryManager.unmap, misaligned], by simp,
      fun contrary => absurd contrary aligned⟩

end XyronOS
