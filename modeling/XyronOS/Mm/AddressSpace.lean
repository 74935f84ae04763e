import XyronOS.Mm.TableOwnership

/-!
# The address space the page tables implement

An address space is what software observes: a partial translation and the
permissions of its 4 KiB pages. Mapping and unmapping a page are updates of these
two functions at one page number.

`map` and `unmap` refine them. A successful call performs exactly the abstract
update and a failing call changes no observation, at whatever level it failed
and whatever tables it had created by then: the outcomes of `map` are listed
once, each with the extension of the tables it leaves behind.
-/

namespace XyronOS

open ByteMemory WordBits PageTableEntry VirtAddr RadixTree VirtualMemoryManager

/-- Observable translation and permissions. -/
structure AddressSpace where
  translate : Nat → Option Nat
  flagsAt : Nat → Option PageFlags

namespace AddressSpace

/-- Give one page a frame and permissions. -/
def mapPage (space : AddressSpace) (virt phys : Nat) (flags : PageFlags) : AddressSpace where
  translate address :=
    if pageNumber address = pageNumber virt then some (phys ||| pageOffset address)
    else space.translate address
  flagsAt address :=
    if pageNumber address = pageNumber virt then some flags else space.flagsAt address

/-- Remove one page. -/
def unmapPage (space : AddressSpace) (virt : Nat) : AddressSpace where
  translate address :=
    if pageNumber address = pageNumber virt then none else space.translate address
  flagsAt address :=
    if pageNumber address = pageNumber virt then none else space.flagsAt address

end AddressSpace

/-- The address space a manager observes through its own walks. -/
def observe (vmm : VirtualMemoryManager) (memory : Memory) : AddressSpace :=
  ⟨vmm.translate memory, vmm.flagsAt memory⟩

variable {vmm : VirtualMemoryManager} {machine : Machine}

/-- Tables missing on the walk of a virtual address. -/
def missingTables (memory : Memory) (root virt : Nat) : Nat :=
  missing (slots memory) 0 root [pml4Index virt, pdptIndex virt, pdIndex virt]

/-- A lookup consumes three table indices and then the last one. -/
theorem lookup_last {memory : Memory} {root virt pt : Nat}
    (reached : descend (slots memory) 0 root [pml4Index virt, pdptIndex virt, pdIndex virt] =
      some pt) :
    lookup memory root virt =
      if isPresent (readEntry memory pt (ptIndex virt)) then
        some ⟨3, readEntry memory pt (ptIndex virt)⟩
      else none := by
  have whole : indices virt =
      [pml4Index virt, pdptIndex virt, pdIndex virt] ++ [ptIndex virt] := rfl
  rw [lookup, whole, resolve_append _ _ _ _ _ _ reached]
  by_cases present : isPresent (readEntry memory pt (ptIndex virt)) = true <;>
    simp [resolve, slots, present]

/-- Every outcome of `map` on owned tables, with what the tables said before. -/
inductive MapOutcome (vmm : VirtualMemoryManager) (machine : Machine) (virt phys : Nat)
    (flags : PageFlags) : Except MapError Unit × Machine → Prop where
  | misaligned (odd : ¬ (virt % frameSize = 0 ∧ phys % frameSize = 0)) :
      MapOutcome vmm machine virt phys flags (.error .notPageAligned, machine)
  | mapped (after : Machine) (added : Finset Nat) (pt : Nat) (aligned : virt % frameSize = 0)
      (physAligned : phys % frameSize = 0) (extended : Extends vmm machine after added)
      (reached : descend (slots after.memory) 0 vmm.pml4Phys
        [pml4Index virt, pdptIndex virt, pdIndex virt] = some pt)
      (unmapped : lookup machine.memory vmm.pml4Phys virt = none)
      (count : added.card = missingTables machine.memory vmm.pml4Phys virt) :
      MapOutcome vmm machine virt phys flags (.ok (), { after with
        memory := writeEntry after.memory pt (ptIndex virt) (newLeaf phys flags) })
  | overlapping (mapping : Mapping)
      (huge : lookup machine.memory vmm.pml4Phys virt = some mapping) (depth : mapping.depth < 3) :
      MapOutcome vmm machine virt phys flags (.error .wouldOverlapHugePage, machine)
  | exhausted (after : Machine) (added : Finset Nat) (extended : Extends vmm machine after added)
      (unmapped : lookup machine.memory vmm.pml4Phys virt = none)
      (short : (machine.frames.freeBelow identityMapLimit).card <
        missingTables machine.memory vmm.pml4Phys virt) :
      MapOutcome vmm machine virt phys flags (.error .outOfFrames, after)
  | occupied (after : Machine) (added : Finset Nat) (entry : Nat)
      (extended : Extends vmm machine after added)
      (page : lookup machine.memory vmm.pml4Phys virt = some ⟨3, entry⟩) :
      MapOutcome vmm machine virt phys flags (.error .alreadyMapped, after)

/-- `map` has one of the listed outcomes. The descent is classified already; what
remains is the entry of the last table, which decides between the lookup found
and none. -/
theorem Owned.map_outcome (owned : Owned vmm machine) (virt phys : Nat) (flags : PageFlags) :
    MapOutcome vmm machine virt phys flags (vmm.map machine virt phys flags) := by
  rw [map_eq]
  by_cases aligned : virt % frameSize = 0 ∧ phys % frameSize = 0
  · have admitted : (!isPageAligned virt || !PhysAddr.isFrameAligned phys) = false := by
      simp [isPageAligned, PhysAddr.isFrameAligned, aligned.1, aligned.2]
    have whole : indices virt =
        [pml4Index virt, pdptIndex virt, pdIndex virt] ++ [ptIndex virt] := rfl
    simp only [admitted, Bool.false_eq_true, if_false]
    rcases owned.ensureTables_cases [] [pml4Index virt, pdptIndex virt, pdIndex virt]
        vmm.pml4Phys rfl (Nat.le_refl 3) with
      ⟨pt, after, added, done, extended, reached, count⟩ | ⟨stopped, mapping, found⟩ |
      ⟨after, added, stopped, extended, unresolved, short⟩
    · have checked : checkedTablePtr pt = some pt :=
        checkedTablePtr_below (extended.owned.below pt ⟨_, reached⟩)
      have seen : lookup machine.memory vmm.pml4Phys virt =
          lookup after.memory vmm.pml4Phys virt := (extended.resolve _).symm
      rw [lookup_last reached] at seen
      simp only [done, checked]
      by_cases present : isPresent (readEntry after.memory pt (ptIndex virt)) = true
      · rw [if_pos present] at seen ⊢
        exact .occupied after added _ extended seen
      · rw [if_neg present] at seen ⊢
        exact .mapped after added pt aligned.1 aligned.2 extended reached seen count
    · simp only [stopped]
      obtain ⟨huge, depth⟩ := found [ptIndex virt]
      exact .overlapping mapping huge depth
    · simp only [stopped]
      exact .exhausted after added extended (unresolved [ptIndex virt]) short
  · have refused : (!isPageAligned virt || !PhysAddr.isFrameAligned phys) = true := by
      simp only [isPageAligned, PhysAddr.isFrameAligned, Bool.or_eq_true, Bool.not_eq_true',
        beq_eq_false_iff_ne, ne_eq]
      omega
    simp only [refused, if_true]
    exact .misaligned aligned

/-- On owned tables no table pointer is out of reach. -/
theorem Owned.map_reachable (owned : Owned vmm machine) (virt phys : Nat) (flags : PageFlags) :
    (vmm.map machine virt phys flags).1 ≠ .error .pageTableUnreachable := by
  generalize result : vmm.map machine virt phys flags = outcome
  have classified := result ▸ owned.map_outcome virt phys flags
  cases classified <;> simp

/-- A successful `map`: the page had no mapping, it has the new leaf now, and the
tables missing on its walk were added. -/
theorem Owned.map_ok (owned : Owned vmm machine) {virt phys : Nat} {flags : PageFlags}
    {after : Machine} (mapped : vmm.map machine virt phys flags = (.ok (), after)) :
    virt % frameSize = 0 ∧ phys % frameSize = 0 ∧
    lookup machine.memory vmm.pml4Phys virt = none ∧
    (∀ other, lookup after.memory vmm.pml4Phys other =
      if pageNumber other = pageNumber virt then some ⟨3, newLeaf phys flags⟩
      else lookup machine.memory vmm.pml4Phys other) ∧
    ∃ added, Updates vmm machine after added ∧
      added.card = missingTables machine.memory vmm.pml4Phys virt := by
  generalize result : vmm.map machine virt phys flags = outcome at mapped
  have classified := result ▸ owned.map_outcome virt phys flags
  cases classified with
  | misaligned odd => simp at mapped
  | overlapping mapping huge depth => simp at mapped
  | exhausted after added extended unmapped short => simp at mapped
  | occupied after added entry extended page => simp at mapped
  | mapped middle added pt aligned physAligned extended reached unmapped count =>
    obtain ⟨written, looked⟩ :=
      extended.owned.write_leaf virt pt (newLeaf phys flags) reached (newLeaf_lt phys flags)
    have same : { middle with
        memory := writeEntry middle.memory pt (ptIndex virt) (newLeaf phys flags) } = after :=
      (Prod.mk.inj mapped).2
    rw [same] at written
    have memory : after.memory =
        writeEntry middle.memory pt (ptIndex virt) (newLeaf phys flags) := by rw [← same]
    refine ⟨aligned, physAligned, unmapped, ?_, added, ?_, count⟩
    · intro other
      have kept : lookup middle.memory vmm.pml4Phys other =
          lookup machine.memory vmm.pml4Phys other := extended.resolve _
      rw [memory, looked other, newLeaf_present, if_pos rfl, kept]
    · simpa using extended.toUpdates.trans written

/-- A failing `map` leaves every lookup as it was; it may have added tables. -/
theorem Owned.map_error (owned : Owned vmm machine) {virt phys : Nat} {flags : PageFlags}
    {error : MapError} {after : Machine}
    (failed : vmm.map machine virt phys flags = (.error error, after)) :
    (∀ other, lookup after.memory vmm.pml4Phys other =
      lookup machine.memory vmm.pml4Phys other) ∧
    ∃ added, Updates vmm machine after added := by
  generalize result : vmm.map machine virt phys flags = outcome at failed
  have classified := result ▸ owned.map_outcome virt phys flags
  cases classified with
  | misaligned odd =>
    obtain ⟨_, rfl⟩ := Prod.mk.inj failed
    exact ⟨fun _ => rfl, ∅, Updates.refl owned⟩
  | overlapping mapping huge depth =>
    obtain ⟨_, rfl⟩ := Prod.mk.inj failed
    exact ⟨fun _ => rfl, ∅, Updates.refl owned⟩
  | exhausted middle added extended unmapped short =>
    obtain ⟨_, rfl⟩ := Prod.mk.inj failed
    exact ⟨fun _ => extended.resolve _, added, extended.toUpdates⟩
  | occupied middle added entry extended page =>
    obtain ⟨_, rfl⟩ := Prod.mk.inj failed
    exact ⟨fun _ => extended.resolve _, added, extended.toUpdates⟩
  | mapped middle added pt aligned physAligned extended reached unmapped count => simp at failed

/-- An aligned `map` fails because the page is mapped or the low frames run out. -/
theorem Owned.map_error_cause (owned : Owned vmm machine) {virt phys : Nat} {flags : PageFlags}
    {error : MapError} {after : Machine}
    (failed : vmm.map machine virt phys flags = (.error error, after))
    (aligned : virt % frameSize = 0) (physAligned : phys % frameSize = 0) :
    lookup machine.memory vmm.pml4Phys virt ≠ none ∨
      (machine.frames.freeBelow identityMapLimit).card <
        missingTables machine.memory vmm.pml4Phys virt := by
  generalize result : vmm.map machine virt phys flags = outcome at failed
  have classified := result ▸ owned.map_outcome virt phys flags
  cases classified with
  | misaligned odd => exact absurd ⟨aligned, physAligned⟩ odd
  | overlapping mapping huge depth => exact .inl (by simp [huge])
  | exhausted middle added extended unmapped short => exact .inr short
  | occupied middle added entry extended page => exact .inl (by simp [page])
  | mapped middle added pt aligned physAligned extended reached unmapped count => simp at failed

/-- A successful `unmap` removes the 4 KiB mapping of its page and nothing else. -/
theorem Owned.unmap_ok (owned : Owned vmm machine) {virt phys : Nat} {memory : Memory}
    (unmapped : vmm.unmap machine.memory virt = (.ok phys, memory)) :
    (∃ entry, lookup machine.memory vmm.pml4Phys virt = some ⟨3, entry⟩ ∧ addr entry = phys) ∧
    virt % frameSize = 0 ∧
    (∀ other, lookup memory vmm.pml4Phys other =
      if pageNumber other = pageNumber virt then none
      else lookup machine.memory vmm.pml4Phys other) ∧
    Updates vmm machine { machine with memory := memory } ∅ := by
  rcases owned.unmap_cases virt with
    ⟨pt, entry, result, aligned, page, reached, _⟩ | ⟨error, result, _⟩
  · rw [result] at unmapped
    obtain ⟨ok, rfl⟩ := Prod.mk.inj unmapped
    obtain ⟨written, looked⟩ := owned.write_leaf virt pt cleared reached (by decide)
    refine ⟨⟨entry, page, Except.ok.inj ok⟩, aligned, ?_, written⟩
    intro other
    rw [looked other]
    simp
  · rw [result] at unmapped
    simp at unmapped

/-- A failing `unmap` changes nothing. -/
theorem Owned.unmap_error (owned : Owned vmm machine) {virt : Nat} {error : UnmapError}
    {memory : Memory} (failed : vmm.unmap machine.memory virt = (.error error, memory)) :
    memory = machine.memory := by
  rcases owned.unmap_cases virt with ⟨pt, entry, result, _⟩ | ⟨error', result, _⟩
  · rw [result] at failed
    simp at failed
  · rw [result] at failed
    exact (Prod.mk.inj failed).2.symm

/-- Owned tables with the same lookups show the same address space. -/
theorem observe_eq {before after : Machine} (owned : Owned vmm before)
    (ownedAfter : Owned vmm after)
    (same : ∀ other, lookup after.memory vmm.pml4Phys other =
      lookup before.memory vmm.pml4Phys other) :
    observe vmm after.memory = observe vmm before.memory := by
  simp only [observe, AddressSpace.mk.injEq]
  constructor
  · funext other
    rw [ownedAfter.translate_eq, owned.translate_eq, same]
  · funext other
    rw [ownedAfter.flagsAt_eq, owned.flagsAt_eq, same]

/-- A leaf for an aligned frame translates to that frame plus the page offset. -/
theorem physical_newLeaf (virt phys : Nat) (flags : PageFlags) (aligned : phys % frameSize = 0)
    (bounded : phys < 2 ^ 52) :
    Mapping.physical virt ⟨3, newLeaf phys flags⟩ = phys ||| pageOffset virt := by
  simp [Mapping.physical, addr_newLeaf phys flags aligned bounded]

/-- A leaf reports the permissions it was made with. -/
theorem flags_newLeaf (phys : Nat) (flags : PageFlags) :
    Mapping.flags ⟨3, newLeaf phys flags⟩ = some flags := by
  obtain ⟨writable, noExecute⟩ := newLeaf_flags phys flags
  simp [Mapping.flags, writable, noExecute]

/-- A page that `map` takes had no translation, at any address with its page number. -/
theorem Owned.map_absent (owned : Owned vmm machine) {virt phys : Nat} {flags : PageFlags}
    {after : Machine} (mapped : vmm.map machine virt phys flags = (.ok (), after)) {address : Nat}
    (same : pageNumber address = pageNumber virt) :
    vmm.translate machine.memory address = none := by
  have absent : lookup machine.memory vmm.pml4Phys address = none := by
    rw [lookup, (indices_eq_iff address virt).mpr same]
    exact (owned.map_ok mapped).2.2.1
  rw [owned.translate_eq, absent]
  rfl

/-- A successful `map` of a frame below bit 52 is observed as the abstract mapping. -/
theorem Owned.map_observe (owned : Owned vmm machine) {virt phys : Nat} {flags : PageFlags}
    {after : Machine} (mapped : vmm.map machine virt phys flags = (.ok (), after))
    (bounded : phys < 2 ^ 52) :
    observe vmm after.memory = (observe vmm machine.memory).mapPage virt phys flags := by
  obtain ⟨_, physAligned, _, looked, _, updated, _⟩ := owned.map_ok mapped
  simp only [observe, AddressSpace.mapPage, AddressSpace.mk.injEq]
  constructor
  · funext address
    rw [updated.owned.translate_eq, owned.translate_eq, looked]
    split
    · rw [Option.map_some, physical_newLeaf address phys flags physAligned bounded]
    · rfl
  · funext address
    rw [updated.owned.flagsAt_eq, owned.flagsAt_eq, looked]
    split
    · rw [Option.bind_some, flags_newLeaf]
    · rfl

/-- A successful `unmap` is observed as the abstract unmapping. -/
theorem Owned.unmap_observe (owned : Owned vmm machine) {virt frame : Nat} {memory : Memory}
    (unmapped : vmm.unmap machine.memory virt = (.ok frame, memory)) :
    observe vmm memory = (observe vmm machine.memory).unmapPage virt := by
  obtain ⟨_, _, looked, updated⟩ := owned.unmap_ok unmapped
  simp only [observe, AddressSpace.unmapPage, AddressSpace.mk.injEq]
  constructor
  · funext address
    have shown := updated.owned.translate_eq address
    rw [looked] at shown
    rw [shown, owned.translate_eq]
    split <;> rfl
  · funext address
    have shown := updated.owned.flagsAt_eq address
    rw [looked] at shown
    rw [shown, owned.flagsAt_eq]
    split <;> rfl

/-- The kernel's page-table operations implement the abstract address space. From
any owned state and for every page and frame below bit 52: a successful `map`
found its page untranslated and performs exactly the abstract mapping, a
successful `unmap` returns the frame of a 4 KiB leaf and performs exactly the
abstract unmapping, and no failing call changes an observation. -/
theorem map_unmap_refine (owned : Owned vmm machine) (virt phys : Nat) (flags : PageFlags)
    (bounded : phys < 2 ^ 52) :
    (∀ after, vmm.map machine virt phys flags = (.ok (), after) →
      (∀ address, pageNumber address = pageNumber virt →
        vmm.translate machine.memory address = none) ∧
      observe vmm after.memory = (observe vmm machine.memory).mapPage virt phys flags) ∧
    (∀ error after, vmm.map machine virt phys flags = (.error error, after) →
      observe vmm after.memory = observe vmm machine.memory) ∧
    (∀ frame memory, vmm.unmap machine.memory virt = (.ok frame, memory) →
      vmm.translate machine.memory virt = some frame ∧
      (∃ entry, lookup machine.memory vmm.pml4Phys virt = some ⟨3, entry⟩) ∧
      observe vmm memory = (observe vmm machine.memory).unmapPage virt) ∧
    (∀ error memory, vmm.unmap machine.memory virt = (.error error, memory) →
      observe vmm memory = observe vmm machine.memory) := by
  refine ⟨?_, ?_, ?_, ?_⟩
  · intro after mapped
    exact ⟨fun address same => owned.map_absent mapped same, owned.map_observe mapped bounded⟩
  · intro error after failed
    obtain ⟨same, added, updated⟩ := owned.map_error failed
    exact observe_eq owned updated.owned same
  · intro frame memory unmapped
    obtain ⟨⟨entry, page, same⟩, aligned, _, _⟩ := owned.unmap_ok unmapped
    refine ⟨?_, ⟨entry, page⟩, owned.unmap_observe unmapped⟩
    have offset : virt % 4096 = 0 := aligned
    rw [owned.translate_eq, page]
    simp [Mapping.physical, offset, same]
  · intro error memory failed
    rw [owned.unmap_error failed]

/-- A root table without entries is owned if its frame is. -/
theorem owned_of_empty_root {memory : Memory} {frames : FrameAllocator}
    (empty : ∀ index, readEntry memory vmm.pml4Phys index = 0)
    (aligned : vmm.pml4Phys % frameSize = 0) (below : vmm.pml4Phys < identityMapLimit)
    (used : PhysAddr.frameNumber vmm.pml4Phys ∈ frames.usedFrames)
    (consistent : frames.Consistent) : Owned vmm ⟨memory, frames⟩ := by
  have alone (path : List (Fin 512)) (table : Nat)
      (reached : descend (slots memory) 0 vmm.pml4Phys path = some table) :
      path = [] ∧ table = vmm.pml4Phys := by
    cases path with
    | nil => exact ⟨rfl, (Option.some.inj reached).symm⟩
    | cons index rest =>
      have blank : slots memory 0 vmm.pml4Phys index = .empty := by
        rw [slots_empty_iff, empty]
        rfl
      simp [descend, blank] at reached
  refine ⟨⟨?_, ?_⟩, ?_, ?_, ?_, consistent⟩
  · rintro table ⟨path, reached⟩
    rw [(alone path table reached).2]
    exact below
  · intro index present
    rw [empty] at present
    simp [isPresent] at present
  · intro path other table first second
    rw [(alone path table first).1, (alone other table second).1]
  · rintro table ⟨path, reached⟩
    rw [(alone path table reached).2]
    exact aligned
  · rintro table ⟨path, reached⟩
    rw [(alone path table reached).2]
    exact used

/-- Cleared memory with the root table in frame 1, the only used one of eight. -/
def emptyMachine : Machine := ⟨fun _ => 0, ⟨[0x02#8], 8, 7, 0⟩⟩

theorem emptyMachine_blank (index : Fin 512) : readEntry emptyMachine.memory 0x1000 index = 0 := by
  simp [emptyMachine, readEntry, load64, load]

/-- The cleared machine owns its root table. -/
theorem owned_emptyMachine : Owned ⟨0x1000⟩ emptyMachine := by
  apply owned_of_empty_root
  · exact emptyMachine_blank
  · decide
  · decide
  · decide
  · exact ⟨by decide, by decide, by decide⟩

/-- Every aligned page of the cleared machine can be mapped to every aligned frame: it
has no mapping, and seven low frames are free for at most three tables. -/
theorem map_emptyMachine {virt phys : Nat} (flags : PageFlags) (aligned : virt % frameSize = 0)
    (physAligned : phys % frameSize = 0) :
    ∃ after, (VirtualMemoryManager.mk 0x1000).map emptyMachine virt phys flags = (.ok (), after) := by
  generalize result : (VirtualMemoryManager.mk 0x1000).map emptyMachine virt phys flags = outcome
  obtain ⟨answer, after⟩ := outcome
  cases answer with
  | ok _ => exact ⟨after, rfl⟩
  | error error =>
    rcases owned_emptyMachine.map_error_cause result aligned physAligned with mapped | short
    · have blank : slots emptyMachine.memory 0 0x1000 (pml4Index virt) = .empty := by
        rw [slots_empty_iff, emptyMachine_blank]
        rfl
      have absent : lookup emptyMachine.memory 0x1000 virt = none := by
        simp [lookup, indices, resolve, blank]
      exact absurd absent mapped
    · have few : missingTables emptyMachine.memory 0x1000 virt ≤ 3 := missing_le_length _ _ _ _
      have free : (emptyMachine.frames.freeBelow identityMapLimit).card = 7 := by decide
      rw [free] at short
      exact absurd short (Nat.not_lt.mpr (few.trans (by decide)))

/-- Mapping a page of the cleared machine creates three tables and is observed
as exactly the abstract mapping. -/
theorem map_refine_empty :
    ∃ after, (VirtualMemoryManager.mk 0x1000).map emptyMachine 0x200000 0x3000 .readWrite =
        (.ok (), after) ∧
      observe ⟨0x1000⟩ after.memory =
        (observe ⟨0x1000⟩ emptyMachine.memory).mapPage 0x200000 0x3000 .readWrite := by
  obtain ⟨after, mapped⟩ := @map_emptyMachine 0x200000 0x3000 .readWrite (by decide) (by decide)
  have refined := (map_unmap_refine owned_emptyMachine 0x200000 0x3000 .readWrite (by decide)).1
  exact ⟨after, mapped, (refined after mapped).2⟩

end XyronOS
