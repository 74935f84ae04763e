import XyronOS.Mm.VmmRuns

/-!
# Enforced and reported permissions

The processor combines the permissions of all four entries on a walk: a page is
writable if every entry is, and not executable if any entry says so. `flags_at`
reads the last entry alone. The two agree because no pointer entry ever takes a
permission away, whether the bootloader wrote it or `map` did.

`OpenPointers` is that property of the pointer entries. Linking a table adds one
entry, which is open, and a last-level write touches no pointer entry; both rest
on the frame laws of owned tables.

A session pairs the running kernel with a record of the permissions that the last
successful `map` of each page was given. In every reachable session a page that
the processor reaches through a 4 KiB leaf carries the recorded permissions.
-/

namespace XyronOS

open ByteMemory WordBits PageTableEntry VirtAddr RadixTree VirtualMemoryManager Runs

/-- The four entries the processor reads on the way to a 4 KiB page. -/
structure HardwareWalk where
  pml4e : Nat
  pdpte : Nat
  pde : Nat
  pte : Nat

/-- Follow the address fields from the root, as the processor does. -/
def hardwareWalk (memory : Memory) (root virt : Nat) : HardwareWalk :=
  let pml4e := readEntry memory root (pml4Index virt)
  let pdpte := readEntry memory (addr pml4e) (pdptIndex virt)
  let pde := readEntry memory (addr pdpte) (pdIndex virt)
  ⟨pml4e, pdpte, pde, readEntry memory (addr pde) (ptIndex virt)⟩

namespace HardwareWalk

/-- The walk ends at a 4 KiB leaf: four present entries, none of them huge before
the last. -/
structure ReachesPage (walk : HardwareWalk) : Prop where
  pml4e : isPresent walk.pml4e = true
  pdpte : isPresent walk.pdpte = true
  pdpteSize : isHuge walk.pdpte = false
  pde : isPresent walk.pde = true
  pdeSize : isHuge walk.pde = false
  pte : isPresent walk.pte = true

/-- The permissions the processor enforces. -/
def enforced (walk : HardwareWalk) : PageFlags where
  writable := isWritable walk.pml4e && isWritable walk.pdpte && isWritable walk.pde &&
    isWritable walk.pte
  noExecute := isNoExecute walk.pml4e || isNoExecute walk.pdpte || isNoExecute walk.pde ||
    isNoExecute walk.pte

end HardwareWalk

/-- An entry that takes no permission away. -/
structure OpenEntry (entry : Nat) : Prop where
  writable : isWritable entry = true
  executable : isNoExecute entry = false

/-- A table pointer takes no permission away. -/
theorem openEntry_newTablePointer (address : Nat) : OpenEntry (newTablePointer address) := by
  constructor
  · rw [isWritable_eq, newTablePointer_eq, decide_eq_true_iff, addr_eq]
    omega
  · rw [isNoExecute_eq, newTablePointer_eq, decide_eq_false_iff_not, addr_eq]
    omega

/-- Every pointer entry of every reached table is open. -/
def OpenPointers (memory : Memory) (root : Nat) : Prop :=
  ∀ path table index next, descend (slots memory) 0 root path = some table →
    slots memory path.length table index = .table next → OpenEntry (readEntry memory table index)

/-- An address whose lookup finds a 4 KiB leaf is one the processor reaches through
such a leaf. -/
theorem Walkable.reaches_page {vmm : VirtualMemoryManager} {memory : Memory}
    (walkable : Walkable vmm memory) {virt entry : Nat}
    (found : lookup memory vmm.pml4Phys virt = some ⟨3, entry⟩) :
    (hardwareWalk memory vmm.pml4Phys virt).ReachesPage := by
  have walked := walkable.walk virt
  generalize lookup memory vmm.pml4Phys virt = mapping at walked found
  cases walked with
  | noPdpt | noPd | noPt | noPage => cases found
  | giant | large => simp at found
  | page pdpt pd pt huge first link4 second link3 third link2 last =>
    subst link4 link3 link2
    exact ⟨first.present, second.present, second.size, third.present, third.size, last.present⟩

/-- Where the pointers are open, a walk to a 4 KiB leaf meets three open entries,
and its last entry is what the lookup finds. -/
theorem Walkable.page_entries {vmm : VirtualMemoryManager} {memory : Memory}
    (walkable : Walkable vmm memory) (opened : OpenPointers memory vmm.pml4Phys) {virt : Nat}
    (page : (hardwareWalk memory vmm.pml4Phys virt).ReachesPage) :
    OpenEntry (hardwareWalk memory vmm.pml4Phys virt).pml4e ∧
      OpenEntry (hardwareWalk memory vmm.pml4Phys virt).pdpte ∧
      OpenEntry (hardwareWalk memory vmm.pml4Phys virt).pde ∧
      lookup memory vmm.pml4Phys virt =
        some ⟨3, (hardwareWalk memory vmm.pml4Phys virt).pte⟩ := by
  have pointer (depth table : Nat) (index : Fin 512) (above : depth < 3)
      (present : isPresent (readEntry memory table index) = true)
      (small : isHuge (readEntry memory table index) = false) :
      slots memory depth table index = .table (addr (readEntry memory table index)) := by
    simp [slots, present, small, above]
  have slot4 := pointer 0 _ _ (by decide) page.pml4e (walkable.top _ page.pml4e)
  have slot3 := pointer 1 _ _ (by decide) page.pdpte page.pdpteSize
  have slot2 := pointer 2 _ _ (by decide) page.pde page.pdeSize
  have reached3 : descend (slots memory) 0 vmm.pml4Phys [pml4Index virt] =
      some (addr (hardwareWalk memory vmm.pml4Phys virt).pml4e) := by
    simp only [descend, slot4]
    rfl
  have reached2 : descend (slots memory) 0 vmm.pml4Phys [pml4Index virt, pdptIndex virt] =
      some (addr (hardwareWalk memory vmm.pml4Phys virt).pdpte) := by
    simp only [descend, slot4, slot3]
    rfl
  have reached1 : descend (slots memory) 0 vmm.pml4Phys
      [pml4Index virt, pdptIndex virt, pdIndex virt] =
      some (addr (hardwareWalk memory vmm.pml4Phys virt).pde) := by
    simp only [descend, slot4, slot3, slot2]
    rfl
  refine ⟨opened [] _ _ _ rfl slot4, opened _ _ _ _ reached3 slot3,
    opened _ _ _ _ reached2 slot2, ?_⟩
  rw [lookup_last reached1]
  exact if_pos page.pte

section Preservation

variable {vmm : VirtualMemoryManager} {machine : Machine} (owned : Owned vmm machine)
  (opened : OpenPointers machine.memory vmm.pml4Phys)

include owned opened

/-- Linking a frame keeps the pointers open: the new pointer is, the new table has
none, and the others are unchanged. -/
theorem Owned.link_open {place : List (Fin 512)} {table : Nat} {index : Fin 512} {frame : Nat}
    (reached : descend (slots machine.memory) 0 vmm.pml4Phys place = some table)
    (above : place.length < 3)
    (absent : isPresent (readEntry machine.memory table index) = false)
    (low : frame < 2 ^ 20) (free : frame ∈ machine.frames.freeFrames) :
    OpenPointers (linkTable machine.memory table index (PhysAddr.fromFrameNumber frame))
      vmm.pml4Phys := by
  intro path node slot next known pointing
  rw [owned.descend_link index reached free above absent low] at known
  split at known
  · rw [← Option.some.inj known, owned.blank_link index reached free] at pointing
    cases pointing
  · by_cases here : path = place ∧ slot = index
    · obtain ⟨rfl, rfl⟩ := here
      have same : node = table := Option.some.inj (known.symm.trans reached)
      rw [same, linkTable, readEntry_writeEntry_same _ _ _ _ (newTablePointer_lt _)]
      exact openEntry_newTablePointer _
    · have kept := owned.readEntry_link index reached free path node slot known here
      rw [slots_congr _ kept] at pointing
      rw [kept]
      exact opened path node slot next known pointing

/-- Writing a last-level entry keeps the pointers open: it is none of them. -/
theorem Owned.write_open {place : List (Fin 512)} {pt : Nat}
    (reached : descend (slots machine.memory) 0 vmm.pml4Phys place = some pt)
    (last : place.length = 3) (index : Fin 512) (entry : Nat) :
    OpenPointers (writeEntry machine.memory pt index entry) vmm.pml4Phys := by
  intro path node slot next known pointing
  rw [owned.descend_write index reached entry last] at known
  by_cases here : path = place ∧ slot = index
  · obtain ⟨rfl, rfl⟩ := here
    have leaf := @slots_leaf_child path node slot (writeEntry machine.memory pt slot entry) last
    rw [pointing] at leaf
    cases leaf
  · have kept := owned.readEntry_write index reached entry path node slot known here
    rw [slots_congr _ kept] at pointing
    rw [kept]
    exact opened path node slot next known pointing

omit owned in
/-- Writes outside the tables keep the pointers open. -/
theorem write_outside_open {memory : Memory}
    (same : ∀ table ∈ tables machine.memory vmm.pml4Phys, ∀ target ∈ frameBytes table,
      memory target = machine.memory target) :
    OpenPointers memory vmm.pml4Phys := by
  intro path node slot next known pointing
  rw [(walks_congr same path).2] at known
  have kept : readEntry memory node slot = readEntry machine.memory node slot :=
    readEntry_congr _ _ (same node ⟨path, known⟩)
  rw [slots_congr _ kept] at pointing
  rw [kept]
  exact opened path node slot next known pointing

/-- `get_or_create_table` keeps the pointers open, whatever it answers. -/
theorem Owned.getOrCreateTable_open {place : List (Fin 512)} {table : Nat} (index : Fin 512)
    (reached : descend (slots machine.memory) 0 vmm.pml4Phys place = some table)
    (above : place.length < 3) :
    OpenPointers (getOrCreateTable machine table index).2.memory vmm.pml4Phys := by
  have checked : checkedTablePtr table = some table :=
    checkedTablePtr_below (owned.below table ⟨place, reached⟩)
  cases present : isPresent (readEntry machine.memory table index) with
  | true =>
    cases huge : entryIsHugePage machine.memory table index <;>
      simpa [getOrCreateTable, checked, present, huge] using opened
  | false =>
    rcases FrameAllocator.allocateBelow_cases owned.consistent identityMapLimit with
      ⟨frame, frames, taken, low, takes⟩ | ⟨refused, _⟩
    · rw [frameNumber_identityMapLimit] at low
      have newChecked : checkedTablePtr (PhysAddr.fromFrameNumber frame) =
          some (PhysAddr.fromFrameNumber frame) := by
        apply checkedTablePtr_below
        show frame * 4096 < 0x100000000
        omega
      simpa [getOrCreateTable, checked, present, taken, newChecked, linkTable] using
        owned.link_open opened reached above present low takes.free
    · simpa [getOrCreateTable, checked, present, refused] using opened

/-- The descent of `map` keeps the pointers open. The induction is on the remaining
indices, over the machine that the earlier levels left. -/
theorem Owned.ensureTables_open (place rest : List (Fin 512)) (table : Nat)
    (reached : descend (slots machine.memory) 0 vmm.pml4Phys place = some table)
    (above : place.length + rest.length ≤ 3) :
    OpenPointers (ensureTables machine table rest).2.memory vmm.pml4Phys := by
  induction rest generalizing machine place table with
  | nil => exact opened
  | cons index rest inductionHypothesis =>
    have here : place.length < 3 := by
      simp only [List.length_cons] at above
      omega
    have further : (place ++ [index]).length + rest.length ≤ 3 := by
      simp only [List.length_cons, List.length_append, List.length_nil] at above ⊢
      omega
    have stepOpen := owned.getOrCreateTable_open opened index reached here
    rcases owned.getOrCreateTable_cases place table index reached here with
      ⟨next, slot, followed⟩ | ⟨frame, after, slot, created, extended, linked, blank⟩ |
      ⟨mapping, slot, refused⟩ | ⟨slot, refused, none⟩
    · have reachedNext : descend (slots machine.memory) 0 vmm.pml4Phys (place ++ [index]) =
          some next :=
        RadixTree.descend_link (slots machine.memory) reached slot
      simpa [ensureTables, followed] using
        inductionHypothesis owned opened (place ++ [index]) next reachedNext further
    · rw [created] at stepOpen
      simpa [ensureTables, created] using
        inductionHypothesis extended.owned stepOpen (place ++ [index]) _ linked further
    · simpa [ensureTables, refused] using opened
    · simpa [ensureTables, refused] using opened

/-- `map` keeps the pointers open, whether it succeeds or fails. -/
theorem Owned.map_open (virt phys : Nat) (flags : PageFlags) :
    OpenPointers (vmm.map machine virt phys flags).2.memory vmm.pml4Phys := by
  have descended := owned.ensureTables_open opened []
    [pml4Index virt, pdptIndex virt, pdIndex virt] vmm.pml4Phys rfl (Nat.le_refl 3)
  rw [map_eq]
  split
  · exact opened
  · rcases owned.ensureTables_cases [] [pml4Index virt, pdptIndex virt, pdIndex virt]
        vmm.pml4Phys rfl (Nat.le_refl 3) with
      ⟨pt, after, added, done, extended, reached, _⟩ | ⟨stopped, _⟩ | ⟨after, added, stopped, _⟩
    · have checked : checkedTablePtr pt = some pt :=
        checkedTablePtr_below (extended.owned.below pt ⟨_, reached⟩)
      rw [done] at descended
      simp only [done, checked]
      split
      · exact descended
      · exact extended.owned.write_open descended reached rfl _ _
    · simpa only [stopped] using opened
    · rw [stopped] at descended
      simpa only [stopped] using descended

/-- `unmap` keeps the pointers open. -/
theorem Owned.unmap_open (virt : Nat) :
    OpenPointers (vmm.unmap machine.memory virt).2 vmm.pml4Phys := by
  rcases owned.unmap_cases virt with ⟨pt, entry, result, _, _, reached, _⟩ | ⟨error, result, _⟩
  · rw [result]
    exact owned.write_open opened reached rfl _ _
  · rw [result]
    exact opened

end Preservation

/-- An entry of the bootloader's tables points to one of them, is empty, or is a
2 MiB page. -/
theorem Boot.BuildOutcome.entry_cases {pages : Nat → Option Nat} {table : Nat → Nat}
    {base size : Nat} {before after : Memory}
    (outcome : Boot.BuildOutcome pages table base size before after) (request : Nat)
    (known : request < 8) (slot : Fin 512) :
    (∃ target < 8, readEntry after (table request) slot = Boot.pointerEntry (table target)) ∨
      readEntry after (table request) slot = 0 ∨
      ∃ phys, readEntry after (table request) slot = Boot.largeEntry phys := by
  have cases : request = 0 ∨ request = 1 ∨ (∃ gib < 4, request = 2 + gib) ∨ request = 6 ∨
      request = 7 := by
    by_cases directory : 2 ≤ request ∧ request < 6
    · exact .inr (.inr (.inl ⟨request - 2, by omega, by omega⟩))
    · omega
  rcases cases with rfl | rfl | ⟨gib, few, rfl⟩ | rfl | rfl
  · rw [outcome.built.pml4 slot]
    split
    · exact .inl ⟨1, by decide, rfl⟩
    · split
      · exact .inl ⟨6, by decide, rfl⟩
      · exact .inr (.inl rfl)
  · rw [outcome.built.identityPdpt slot]
    split
    · exact .inl ⟨2 + slot, by omega, rfl⟩
    · exact .inr (.inl rfl)
  · exact .inr (.inr ⟨_, outcome.built.identityPd gib few slot⟩)
  · rw [outcome.built.kernelPdpt slot]
    split
    · exact .inl ⟨7, by decide, rfl⟩
    · exact .inr (.inl rfl)
  · rw [outcome.built.kernelPd slot]
    split
    · exact .inr (.inr ⟨_, rfl⟩)
    · exact .inr (.inl rfl)

/-- The bootloader's pointers are open. -/
theorem Boot.BuildOutcome.open_pointers {pages : Nat → Option Nat} {table : Nat → Nat}
    {base size : Nat} {before after : Memory} (fresh : Boot.FreshPages pages)
    (outcome : Boot.BuildOutcome pages table base size before after) :
    OpenPointers after (table 0) := by
  intro path node slot next reached pointing
  obtain ⟨request, known, rfl, _⟩ := outcome.descend_cases fresh path node reached
  rcases outcome.entry_cases request known slot with ⟨target, few, entry⟩ | entry | ⟨phys, entry⟩
  · rw [entry, Boot.pointerEntry_eq _ (outcome.aligned fresh target few)
      (outcome.below fresh target few)]
    exact openEntry_newTablePointer _
  · rw [Boot.slots_zero entry] at pointing
    cases pointing
  · rw [Boot.slots_large entry] at pointing
    cases pointing

/-- The running kernel and, for each page, the permissions its last successful `map`
was given. -/
structure Session where
  runtime : Runtime
  granted : Nat → Option PageFlags

/-- Serve a request and record a successful `map`. -/
def Session.serve (vmm : VirtualMemoryManager) (session : Session) (request : Request) : Session where
  runtime := XyronOS.serve vmm session.runtime request
  granted :=
    match request with
    | .map virt phys flags =>
        match (vmm.map session.runtime.machine virt phys flags).1 with
        | .ok _ => Function.update session.granted (pageNumber virt) (some flags)
        | .error _ => session.granted
    | _ => session.granted

/-- The clients' frames are held, pointers are open, and every 4 KiB leaf was written
by the `map` on record. -/
structure Accounted (vmm : VirtualMemoryManager) (start : Machine) (session : Session) : Prop where
  ownership : Ownership vmm start session.runtime
  opened : OpenPointers session.runtime.machine.memory vmm.pml4Phys
  recorded : ∀ virt entry,
    lookup session.runtime.machine.memory vmm.pml4Phys virt = some ⟨3, entry⟩ →
      ∃ phys flags, session.granted (pageNumber virt) = some flags ∧ entry = newLeaf phys flags

namespace Accounted

variable {vmm : VirtualMemoryManager} {start : Machine} {session : Session}
  (accounted : Accounted vmm start session)

include accounted

/-- A request that changes neither the lookups nor the record keeps the leaves on
record. -/
theorem same_lookups {runtime : Runtime}
    (same : ∀ virt, lookup runtime.machine.memory vmm.pml4Phys virt =
      lookup session.runtime.machine.memory vmm.pml4Phys virt)
    (virt entry : Nat)
    (page : lookup runtime.machine.memory vmm.pml4Phys virt = some ⟨3, entry⟩) :
    ∃ phys flags, session.granted (pageNumber virt) = some flags ∧ entry = newLeaf phys flags := by
  rw [same] at page
  exact accounted.recorded virt entry page

/-- `map` keeps the leaves on record: the page it maps is recorded with its
permissions, and a failing `map` changes no lookup. -/
theorem map_recorded (virt phys : Nat) (flags : PageFlags) (other entry : Nat)
    (page : lookup (vmm.map session.runtime.machine virt phys flags).2.memory vmm.pml4Phys other =
      some ⟨3, entry⟩) :
    ∃ phys' flags', (session.serve vmm (.map virt phys flags)).granted (pageNumber other) =
      some flags' ∧ entry = newLeaf phys' flags' := by
  have owned : Owned vmm session.runtime.machine := accounted.ownership.owned
  rcases result : vmm.map session.runtime.machine virt phys flags with ⟨_ | _, after⟩
  · rw [result, (owned.map_error result).1] at page
    simpa [Session.serve, result] using accounted.recorded other entry page
  · obtain ⟨_, _, _, looked, _⟩ := owned.map_ok result
    rw [result, looked] at page
    simp only [Session.serve, result, Function.update_apply]
    split at page
    · rename_i samePage
      rw [if_pos samePage]
      exact ⟨phys, flags, rfl, (congrArg Mapping.entry (Option.some.inj page)).symm⟩
    · rename_i otherPage
      rw [if_neg otherPage]
      exact accounted.recorded other entry page

/-- `unmap` removes a leaf or changes nothing. -/
theorem unmap_recorded (virt other entry : Nat)
    (page : lookup (vmm.unmap session.runtime.machine.memory virt).2 vmm.pml4Phys other =
      some ⟨3, entry⟩) :
    ∃ phys flags, session.granted (pageNumber other) = some flags ∧ entry = newLeaf phys flags := by
  have owned : Owned vmm session.runtime.machine := accounted.ownership.owned
  rcases result : vmm.unmap session.runtime.machine.memory virt with ⟨_ | _, memory⟩
  · rw [result, owned.unmap_error result] at page
    exact accounted.recorded other entry page
  · rw [result, (owned.unmap_ok result).2.2.1] at page
    split at page
    · cases page
    · exact accounted.recorded other entry page

/-- Every permitted request keeps the account. -/
theorem serve (request : Request) (permitted : Permitted vmm session.runtime request) :
    Accounted vmm start (session.serve vmm request) := by
  have owned : Owned vmm session.runtime.machine := accounted.ownership.owned
  have ownership := accounted.ownership.serve request permitted
  cases request with
  | allocate =>
    have sameMemory : (session.serve vmm .allocate).runtime.machine.memory =
        session.runtime.machine.memory := by
      rcases taken : session.runtime.machine.frames.allocate with ⟨_ | _, frames⟩ <;>
        simp [Session.serve, XyronOS.serve, taken]
    exact ⟨ownership, sameMemory ▸ accounted.opened,
      accounted.same_lookups (fun virt => by rw [sameMemory])⟩
  | deallocate frame =>
    have sameMemory : (session.serve vmm (.deallocate frame)).runtime.machine.memory =
        session.runtime.machine.memory := by
      rcases released : session.runtime.machine.frames.deallocate
        (PhysAddr.fromFrameNumber frame) with ⟨_ | _, frames⟩ <;>
          simp [Session.serve, XyronOS.serve, released]
    exact ⟨ownership, sameMemory ▸ accounted.opened,
      accounted.same_lookups (fun virt => by rw [sameMemory])⟩
  | map virt phys flags =>
    exact ⟨ownership, owned.map_open accounted.opened virt phys flags,
      accounted.map_recorded virt phys flags⟩
  | unmap virt =>
    exact ⟨ownership, owned.unmap_open accounted.opened virt, accounted.unmap_recorded virt⟩
  | write target value =>
    have same := update_outside value permitted
    exact ⟨ownership, write_outside_open accounted.opened same,
      accounted.same_lookups (owned.write_outside same).2.2⟩

/-- On accounted tables the processor enforces what was granted, and `flags_at`
reports it. -/
theorem enforced (virt : Nat)
    (page : (hardwareWalk session.runtime.machine.memory vmm.pml4Phys virt).ReachesPage) :
    ∃ flags, session.granted (pageNumber virt) = some flags ∧
      (hardwareWalk session.runtime.machine.memory vmm.pml4Phys virt).enforced = flags ∧
      vmm.flagsAt session.runtime.machine.memory virt = some flags := by
  have owned : Owned vmm session.runtime.machine := accounted.ownership.owned
  obtain ⟨open4, open3, open2, found⟩ := owned.page_entries accounted.opened page
  obtain ⟨phys, flags, granted, leaf⟩ := accounted.recorded virt _ found
  obtain ⟨writable, noExecute⟩ := newLeaf_flags phys flags
  refine ⟨flags, granted, ?_, ?_⟩
  · simp [HardwareWalk.enforced, open4.writable, open3.writable, open2.writable, open4.executable,
      open3.executable, open2.executable, leaf, writable, noExecute]
  · rw [owned.flagsAt_eq, found, leaf]
    exact flags_newLeaf phys flags

end Accounted

/-- Enforced permissions over every run from the bootloader's tables: at every
address that the processor translates through a 4 KiB leaf, it enforces the
permissions given to the last successful `map` of that page, and `flags_at`
reports the same ones. -/
theorem permissions_enforced {pages : Nat → Option Nat} (fresh : Boot.FreshPages pages)
    {memory after : Memory} {base size pml4 : Nat}
    (built : Boot.buildKernelPageTables pages memory base size = (pml4, after))
    (succeeded : pml4 ≠ 0) {frames : FrameAllocator} (consistent : frames.Consistent)
    (reserved : ∀ request address, pages request = some address →
      PhysAddr.frameNumber address ∈ frames.usedFrames)
    {requests : List Request} {session : Session}
    (run : Run (fun session => Permitted ⟨pml4⟩ session.runtime) (Session.serve ⟨pml4⟩)
      ⟨⟨⟨after, frames⟩, []⟩, fun _ => none⟩ requests session)
    (virt : Nat) (page : (hardwareWalk session.runtime.machine.memory pml4 virt).ReachesPage) :
    ∃ flags, session.granted (pageNumber virt) = some flags ∧
      (hardwareWalk session.runtime.machine.memory pml4 virt).enforced = flags ∧
      (⟨pml4⟩ : VirtualMemoryManager).flagsAt session.runtime.machine.memory virt = some flags := by
  have owned := owned_of_build fresh built succeeded consistent reserved
  obtain ⟨table, rfl, outcome⟩ := Boot.buildKernelPageTables_outcome fresh built succeeded
  have initial : Accounted ⟨table 0⟩ ⟨after, frames⟩ ⟨⟨⟨after, frames⟩, []⟩, fun _ => none⟩ := by
    refine ⟨Ownership.initial owned, outcome.open_pointers fresh, ?_⟩
    intro other entry found
    simp only [outcome.lookup_eq fresh other] at found
    split at found
    · cases found
    · split at found <;> cases found
  have accounted : Accounted ⟨table 0⟩ ⟨after, frames⟩ session :=
    run.invariant (Accounted ⟨table 0⟩ ⟨after, frames⟩)
      (fun _ request holds permitted => holds.serve request permitted) initial
  exact accounted.enforced virt page

/-- On the bootloader's tables a page of the upper half can be mapped: it has no
entry yet, and seven frames are free. -/
theorem bootFrames_map {table : Nat → Nat} {memory after : Memory} {base size : Nat}
    (outcome : Boot.BuildOutcome Boot.firstPages table base size memory after)
    (owned : Owned ⟨table 0⟩ ⟨after, bootFrames⟩) :
    ∃ mapped, (⟨table 0⟩ : VirtualMemoryManager).map ⟨after, bootFrames⟩ 0xFFFF880000000000 0x9000
      .readWrite = (.ok (), mapped) := by
  have first : pml4Index 0xFFFF880000000000 = 272 := by decide
  have absent : lookup after (table 0) 0xFFFF880000000000 = none := by
    rw [outcome.lookup_eq Boot.firstPages_fresh, first]
    rfl
  have lacking : missingTables after (table 0) 0xFFFF880000000000 = 3 := by
    simp [missingTables, missing, first, outcome.slots_pml4 Boot.firstPages_fresh]
  rcases result : (⟨table 0⟩ : VirtualMemoryManager).map ⟨after, bootFrames⟩ 0xFFFF880000000000
    0x9000 .readWrite with ⟨error | _, mapped⟩
  · rcases owned.map_error_cause result (by decide) (by decide) with present | short
    · exact absurd absent present
    · rw [lacking] at short
      have free : (bootFrames.freeBelow identityMapLimit).card = 7 := by decide
      rw [free] at short
      omega
  · exact ⟨mapped, rfl⟩

/-- A run that maps one page read-write: the processor enforces just that. -/
theorem permissions_enforced_example :
    ∃ after session,
      Boot.buildKernelPageTables Boot.firstPages (fun _ => 0) 0x200000 0x200000 =
        (0x1000, after) ∧
      Run (fun session => Permitted ⟨0x1000⟩ session.runtime) (Session.serve ⟨0x1000⟩)
        ⟨⟨⟨after, bootFrames⟩, []⟩, fun _ => none⟩ [.map 0xFFFF880000000000 0x9000 .readWrite]
        session ∧
      (hardwareWalk session.runtime.machine.memory 0x1000 0xFFFF880000000000).enforced =
        .readWrite := by
  have root : (Boot.buildKernelPageTables Boot.firstPages (fun _ => 0) 0x200000 0x200000).1 =
      0x1000 := by
    decide +kernel
  generalize result : Boot.buildKernelPageTables Boot.firstPages (fun _ => 0) 0x200000 0x200000 =
    built at root
  obtain ⟨pml4, after⟩ := built
  subst root
  have owned := owned_of_build Boot.firstPages_fresh result (by decide) bootFrames_consistent
    bootFrames_reserved
  obtain ⟨table, rootIs, outcome⟩ :=
    Boot.buildKernelPageTables_outcome Boot.firstPages_fresh result (by decide)
  obtain ⟨mapped, done⟩ := bootFrames_map outcome (rootIs ▸ owned)
  rw [rootIs] at done
  have run : Run (fun session => Permitted ⟨0x1000⟩ session.runtime) (Session.serve ⟨0x1000⟩)
      ⟨⟨⟨after, bootFrames⟩, []⟩, fun _ => none⟩ [.map 0xFFFF880000000000 0x9000 .readWrite] _ :=
    .cons trivial (.nil _)
  obtain ⟨_, _, _, looked, _, updated, _⟩ := owned.map_ok done
  have page : (hardwareWalk mapped.memory 0x1000 0xFFFF880000000000).ReachesPage :=
    updated.owned.reaches_page ((looked _).trans (if_pos rfl))
  have memoryIs : (Session.serve ⟨0x1000⟩ ⟨⟨⟨after, bootFrames⟩, []⟩, fun _ => none⟩
      (.map 0xFFFF880000000000 0x9000 .readWrite)).runtime.machine.memory = mapped.memory := by
    simp [Session.serve, serve, done]
  obtain ⟨flags, granted, enforced, _⟩ := permissions_enforced Boot.firstPages_fresh result
    (by decide) bootFrames_consistent bootFrames_reserved run 0xFFFF880000000000 (memoryIs ▸ page)
  have readWrite : some PageFlags.readWrite = some flags := by
    simpa [Session.serve, done] using granted
  exact ⟨after, _, rfl, run, enforced.trans (Option.some.inj readWrite).symm⟩

end XyronOS
