import XyronOS.Mm.PageTables

/-!
# Creating tables and writing entries

Two edits change the page tables: linking a zeroed frame behind an absent entry,
and writing an entry of a last-level table. The first extends the owned tables by
one used frame and changes no lookup; the second changes the lookup of exactly
one page. Both are instances of the radix-tree edits, whose agreement premise
holds because distinct tables are distinct aligned frames.

`ensureTables` is the descent `map` makes through its three calls of
`get_or_create_table`. Its outcomes are classified by what the tables looked like
before: a huge page in the way, too few low frames for the tables the path lacks,
or success with exactly those tables added.
-/

namespace XyronOS

open ByteMemory WordBits PageTableEntry VirtAddr RadixTree

/-- Number of the first frame outside the identity map. -/
theorem frameNumber_identityMapLimit : PhysAddr.frameNumber identityMapLimit = 2 ^ 20 := by
  decide

section Entries

variable (memory : Memory) (table other : Nat) (index slot : Fin 512) (entry : Nat)

theorem readEntry_writeEntry_same (fits : entry < 2 ^ 64) :
    readEntry (writeEntry memory table index entry) table index = entry := by
  rw [readEntry, writeEntry, load64_store64_same, Nat.mod_eq_of_lt fits]

/-- Entries of distinct aligned tables, and distinct entries of one table, do not
share bytes. -/
theorem readEntry_writeEntry_other (aligned : table % frameSize = 0)
    (otherAligned : other % frameSize = 0) (distinct : ¬ (other = table ∧ slot = index)) :
    readEntry (writeEntry memory table index entry) other slot = readEntry memory other slot := by
  apply load64_store64_apart
  have indexBound := index.isLt
  have slotBound := slot.isLt
  have different : other ≠ table ∨ slot.val ≠ index.val := by
    by_contra same
    exact distinct ⟨by omega, Fin.ext (by omega)⟩
  unfold frameSize at aligned otherAligned
  omega

theorem writeEntry_outside {target : Nat} (outside : target ∉ frameBytes table) :
    writeEntry memory table index entry target = memory target := by
  apply store64_outside
  have indexBound := index.isLt
  simp only [frameBytes, Set.mem_Ico, frameSize] at outside
  omega

theorem readEntry_zeroTable_same : readEntry (zeroTable memory table) table slot = 0 := by
  have word := load64_storeWords memory table (fun _ => 0) 512 slot slot.isLt
  simpa [readEntry, zeroTable] using word

theorem zeroTable_outside {target : Nat} (outside : target ∉ frameBytes table) :
    zeroTable memory table target = memory target := by
  apply storeWords_outside
  simp only [frameBytes, Set.mem_Ico, frameSize] at outside
  omega

/-- Entries of a table depend only on the bytes of its frame. -/
theorem readEntry_congr {left right : Memory}
    (same : ∀ target ∈ frameBytes table, left target = right target) :
    readEntry left table slot = readEntry right table slot := by
  apply load64_congr
  intro target lower upper
  have slotBound := slot.isLt
  apply same
  simp only [frameBytes, Set.mem_Ico, frameSize]
  omega

/-- Frames at distinct aligned addresses share no byte. -/
theorem frameBytes_disjoint (aligned : table % frameSize = 0)
    (otherAligned : other % frameSize = 0) (distinct : other ≠ table) (target : Nat)
    (inside : target ∈ frameBytes other) : target ∉ frameBytes table := by
  simp only [frameBytes, Set.mem_Ico] at inside ⊢
  unfold frameSize at *
  omega

theorem readEntry_zeroTable_other (aligned : table % frameSize = 0)
    (otherAligned : other % frameSize = 0) (distinct : other ≠ table) :
    readEntry (zeroTable memory table) other slot = readEntry memory other slot := by
  apply readEntry_congr
  intro target inside
  exact zeroTable_outside memory table
    (frameBytes_disjoint table other aligned otherAligned distinct target inside)

end Entries

/-- `after` owns the tables of `before` and the free low frames `added` as further
tables; no other frame changed hands and no byte outside the tables changed. -/
structure Updates (vmm : VirtualMemoryManager) (before after : Machine) (added : Finset Nat) :
    Prop where
  owned : Owned vmm after
  tables : tables after.memory vmm.pml4Phys =
    tables before.memory vmm.pml4Phys ∪ PhysAddr.fromFrameNumber '' added
  fresh : added ⊆ before.frames.freeBelow identityMapLimit
  free : after.frames.freeFrames = before.frames.freeFrames \ added
  total : after.frames.totalFrames = before.frames.totalFrames
  bytes : ∀ target, (∀ table ∈ XyronOS.tables after.memory vmm.pml4Phys,
    target ∉ frameBytes table) → after.memory target = before.memory target

namespace Updates

variable {vmm : VirtualMemoryManager} {before middle after : Machine} {first second : Finset Nat}

/-- No step adds nothing. -/
theorem refl (owned : Owned vmm before) : Updates vmm before before ∅ where
  owned := owned
  tables := by simp
  fresh := Finset.empty_subset _
  free := by simp
  total := rfl
  bytes _ _ := rfl

/-- Tables added first stay tables, so a byte outside the final tables was
outside the intermediate ones. -/
theorem trans (left : Updates vmm before middle first) (right : Updates vmm middle after second) :
    Updates vmm before after (first ∪ second) where
  owned := right.owned
  tables := by
    rw [right.tables, left.tables, Finset.coe_union, Set.image_union, Set.union_assoc]
  fresh := by
    intro frame member
    rcases Finset.mem_union.mp member with early | late
    · exact left.fresh early
    · have low := right.fresh late
      simp only [FrameAllocator.freeBelow, Finset.mem_filter, left.free, Finset.mem_sdiff]
        at low ⊢
      exact ⟨low.1.1, low.2⟩
  free := by rw [right.free, left.free, sdiff_sdiff_left, Finset.sup_eq_union]
  total := right.total.trans left.total
  bytes target outside := by
    rw [right.bytes target outside]
    apply left.bytes target
    intro table reached
    exact outside table (by rw [right.tables]; exact .inl reached)

/-- Frames added by two successive updates are distinct. -/
theorem disjoint (left : Updates vmm before middle first)
    (right : Updates vmm middle after second) : Disjoint first second := by
  rw [Finset.disjoint_right]
  intro frame late early
  have low := right.fresh late
  simp only [FrameAllocator.freeBelow, Finset.mem_filter, left.free, Finset.mem_sdiff] at low
  exact low.1.2 early

/-- The free low frames shrink by the added ones. -/
theorem freeBelow (updated : Updates vmm before after first) :
    after.frames.freeBelow identityMapLimit =
      before.frames.freeBelow identityMapLimit \ first := by
  ext frame
  simp only [FrameAllocator.freeBelow, Finset.mem_filter, updated.free, Finset.mem_sdiff]
  tauto

/-- Every added table was one of the free low frames. -/
theorem card_freeBelow (updated : Updates vmm before after first) :
    (after.frames.freeBelow identityMapLimit).card + first.card =
      (before.frames.freeBelow identityMapLimit).card := by
  rw [updated.freeBelow]
  exact Finset.card_sdiff_add_card_eq_card updated.fresh

end Updates

/-- An update that only adds tables: no lookup changed and every path leads where
it led. -/
structure Extends (vmm : VirtualMemoryManager) (before after : Machine) (added : Finset Nat) :
    Prop extends Updates vmm before after added where
  resolve : ∀ path, resolve (slots after.memory) 0 vmm.pml4Phys path =
    resolve (slots before.memory) 0 vmm.pml4Phys path
  descend : ∀ path table, descend (slots before.memory) 0 vmm.pml4Phys path = some table →
    descend (slots after.memory) 0 vmm.pml4Phys path = some table

namespace Extends

variable {vmm : VirtualMemoryManager} {before middle after : Machine} {first second : Finset Nat}

theorem refl (owned : Owned vmm before) : Extends vmm before before ∅ :=
  ⟨Updates.refl owned, fun _ => rfl, fun _ _ reached => reached⟩

theorem trans (left : Extends vmm before middle first) (right : Extends vmm middle after second) :
    Extends vmm before after (first ∪ second) :=
  ⟨left.toUpdates.trans right.toUpdates,
    fun path => (right.resolve path).trans (left.resolve path),
    fun path table reached => right.descend path table (left.descend path table reached)⟩

end Extends

variable {vmm : VirtualMemoryManager} {machine : Machine}

/-- A free frame is no table. -/
theorem Owned.free_not_table (owned : Owned vmm machine) {frame : Nat}
    (free : frame ∈ machine.frames.freeFrames) :
    PhysAddr.fromFrameNumber frame ∉ tables machine.memory vmm.pml4Phys := by
  intro reached
  have used := owned.used _ reached
  rw [PhysAddr.frameNumber_fromFrameNumber, FrameAllocator.usedFrames_eq] at used
  exact (Finset.mem_sdiff.mp used).2 free

/-- Tables and lookups depend only on the bytes of the reached tables. -/
theorem walks_congr {memory memory' : Memory} {root : Nat}
    (same : ∀ table ∈ tables memory root, ∀ target ∈ frameBytes table,
      memory' target = memory target) (path : List (Fin 512)) :
    resolve (slots memory') 0 root path = resolve (slots memory) 0 root path ∧
      descend (slots memory') 0 root path = descend (slots memory) 0 root path := by
  apply walk_unchanged
  intro place node index reached _
  exact slots_congr _ (readEntry_congr _ _ (same node ⟨place, reached⟩))

/-- Tables whose paths all lead where they led stay owned, if the root's entries are
the same. -/
theorem Owned.same_paths (owned : Owned vmm machine) {memory : Memory}
    (paths : ∀ path, descend (slots memory) 0 vmm.pml4Phys path =
      descend (slots machine.memory) 0 vmm.pml4Phys path)
    (root : ∀ slot, readEntry memory vmm.pml4Phys slot =
      readEntry machine.memory vmm.pml4Phys slot) :
    Owned vmm { machine with memory := memory } ∧
      tables memory vmm.pml4Phys = tables machine.memory vmm.pml4Phys := by
  have sameTables : tables memory vmm.pml4Phys = tables machine.memory vmm.pml4Phys := by
    ext node
    simp only [tables, Reached, paths]
  refine ⟨⟨⟨?_, ?_⟩, ?_, ?_, ?_, owned.consistent⟩, sameTables⟩
  · intro node known
    exact owned.below node (sameTables.subset known)
  · intro slot
    rw [root]
    exact owned.top slot
  · intro path other node first second
    exact owned.tree path other node ((paths path).symm.trans first) ((paths other).symm.trans second)
  · intro node known
    exact owned.aligned node (sameTables.subset known)
  · intro node known
    exact owned.used node (sameTables.subset known)

/-- Writes outside the table frames leave the tables owned. -/
theorem Owned.write_outside (owned : Owned vmm machine) {memory : Memory}
    (same : ∀ table ∈ tables machine.memory vmm.pml4Phys, ∀ target ∈ frameBytes table,
      memory target = machine.memory target) :
    Owned vmm { machine with memory := memory } ∧
      tables memory vmm.pml4Phys = tables machine.memory vmm.pml4Phys ∧
      ∀ virt, lookup memory vmm.pml4Phys virt = lookup machine.memory vmm.pml4Phys virt := by
  obtain ⟨ownedAfter, sameTables⟩ := owned.same_paths (fun path => (walks_congr same path).2)
    (fun slot => readEntry_congr _ _ (same _ (root_mem_tables _ _)))
  exact ⟨ownedAfter, sameTables, fun virt => (walks_congr same (indices virt)).1⟩

/-- A change of the bitmap that keeps the tables' frames used leaves the tables
owned. -/
theorem Owned.replace_frames (owned : Owned vmm machine) {frames : FrameAllocator}
    (consistent : frames.Consistent)
    (used : ∀ table ∈ tables machine.memory vmm.pml4Phys,
      PhysAddr.frameNumber table ∈ frames.usedFrames) :
    Owned vmm { machine with frames := frames } :=
  ⟨owned.toWalkable, owned.tree, owned.aligned, used, consistent⟩

/-- Memory after linking a zeroed frame behind one entry. -/
def linkTable (memory : Memory) (table : Nat) (index : Fin 512) (fresh : Nat) : Memory :=
  writeEntry (zeroTable memory fresh) table index (newTablePointer fresh)

section Link

variable (owned : Owned vmm machine) {place : List (Fin 512)} {table : Nat} (index : Fin 512)
  {frame : Nat} (reached : descend (slots machine.memory) 0 vmm.pml4Phys place = some table)
  (free : frame ∈ machine.frames.freeFrames)

include owned reached free

/-- Linking a free frame changes one entry of the reached tables: the frame is no
table, and distinct tables are distinct frames. -/
theorem Owned.readEntry_link (path : List (Fin 512)) (node : Nat) (slot : Fin 512)
    (known : descend (slots machine.memory) 0 vmm.pml4Phys path = some node)
    (elsewhere : ¬ (path = place ∧ slot = index)) :
    readEntry (linkTable machine.memory table index (PhysAddr.fromFrameNumber frame)) node slot =
      readEntry machine.memory node slot := by
  have tableAligned : table % frameSize = 0 := owned.aligned table ⟨place, reached⟩
  have nodeAligned : node % frameSize = 0 := owned.aligned node ⟨path, known⟩
  have otherFrame : node ≠ PhysAddr.fromFrameNumber frame := by
    rintro rfl
    exact owned.free_not_table free ⟨path, known⟩
  have otherSlot : ¬ (node = table ∧ slot = index) := by
    rintro ⟨rfl, rfl⟩
    exact elsewhere ⟨owned.tree path place node known reached, rfl⟩
  have frameAligned : PhysAddr.fromFrameNumber frame % frameSize = 0 := Nat.mul_mod_left _ _
  rw [linkTable, readEntry_writeEntry_other _ _ _ _ _ _ tableAligned nodeAligned otherSlot,
    readEntry_zeroTable_other _ _ _ _ frameAligned nodeAligned otherFrame]

/-- The slots of reached tables change at the linked entry alone. -/
theorem Owned.agree_link :
    AgreeExcept (slots machine.memory)
      (slots (linkTable machine.memory table index (PhysAddr.fromFrameNumber frame)))
      vmm.pml4Phys place index := by
  intro path node slot known elsewhere
  exact slots_congr _ (owned.readEntry_link index reached free path node slot known elsewhere)

/-- A linked frame holds no entry yet. -/
theorem Owned.blank_link (depth : Nat) (slot : Fin 512) :
    slots (linkTable machine.memory table index (PhysAddr.fromFrameNumber frame)) depth
      (PhysAddr.fromFrameNumber frame) slot = .empty := by
  have otherFrame : PhysAddr.fromFrameNumber frame ≠ table := by
    rintro rfl
    exact owned.free_not_table free ⟨place, reached⟩
  have frameAligned : PhysAddr.fromFrameNumber frame % frameSize = 0 := Nat.mul_mod_left _ _
  rw [slots_empty_iff, linkTable, readEntry_writeEntry_other _ _ _ _ _ _
    (owned.aligned table ⟨place, reached⟩) frameAligned
    (fun same => otherFrame same.1), readEntry_zeroTable_same]
  rfl

omit owned reached free in
/-- The entry that was written points to the linked frame. -/
theorem slots_link (above : place.length < 3) (low : frame < 2 ^ 20) :
    slots (linkTable machine.memory table index (PhysAddr.fromFrameNumber frame)) place.length
      table index = .table (PhysAddr.fromFrameNumber frame) := by
  have written : readEntry (linkTable machine.memory table index
      (PhysAddr.fromFrameNumber frame)) table index =
      newTablePointer (PhysAddr.fromFrameNumber frame) :=
    readEntry_writeEntry_same _ _ _ _ (newTablePointer_lt _)
  have pointer : addr (newTablePointer (PhysAddr.fromFrameNumber frame)) =
      PhysAddr.fromFrameNumber frame := by
    apply addr_newTablePointer _ (Nat.mul_mod_left _ _)
    show frame * 4096 < 2 ^ 52
    omega
  simp [slots, written, newTablePointer_present, newTablePointer_not_huge, above, pointer]

/-- The paths through the tables after linking: the old ones and one more. -/
theorem Owned.descend_link (above : place.length < 3)
    (absent : isPresent (readEntry machine.memory table index) = false) (low : frame < 2 ^ 20)
    (path : List (Fin 512)) :
    descend (slots (linkTable machine.memory table index (PhysAddr.fromFrameNumber frame))) 0
      vmm.pml4Phys path =
      if path = place ++ [index] then some (PhysAddr.fromFrameNumber frame)
      else descend (slots machine.memory) 0 vmm.pml4Phys path :=
  descend_linked (owned.agree_link index reached free) table _ reached
    ((slots_empty_iff _).mpr absent) (slots_link index above low)
    (owned.blank_link index reached free _) path

omit owned free in
/-- No old path ends at the entry that is linked. -/
theorem path_ne_link (absent : isPresent (readEntry machine.memory table index) = false)
    {path : List (Fin 512)} {node : Nat}
    (known : descend (slots machine.memory) 0 vmm.pml4Phys path = some node) :
    path ≠ place ++ [index] := by
  rintro rfl
  rw [descend_snoc, reached] at known
  simp [(slots_empty_iff place.length).mpr absent, Slot.child] at known

variable (above : place.length < 3)
  (absent : isPresent (readEntry machine.memory table index) = false) (low : frame < 2 ^ 20)

include above absent low

/-- The tables after linking: the old ones and the frame. -/
theorem Owned.tables_link :
    tables (linkTable machine.memory table index (PhysAddr.fromFrameNumber frame)) vmm.pml4Phys =
      tables machine.memory vmm.pml4Phys ∪ {PhysAddr.fromFrameNumber frame} := by
  have paths := owned.descend_link index reached free above absent low
  ext node
  constructor
  · rintro ⟨path, known⟩
    rw [paths] at known
    split at known
    · exact .inr (Option.some.inj known).symm
    · exact .inl ⟨path, known⟩
  · rintro (⟨path, known⟩ | rfl)
    · exact ⟨path, by rw [paths, if_neg (path_ne_link index reached absent known)]; exact known⟩
    · exact ⟨place ++ [index], by rw [paths, if_pos rfl]⟩

omit free in
/-- The tables with the linked frame are owned once the frame is taken. -/
theorem Owned.owned_link {frames : FrameAllocator} (takes : machine.frames.Takes frame frames) :
    Owned vmm
      ⟨linkTable machine.memory table index (PhysAddr.fromFrameNumber frame), frames⟩ := by
  have together := owned.tables_link index reached takes.free above absent low
  refine ⟨⟨?_, ?_⟩, ?_, ?_, ?_, takes.consistent⟩
  · intro node known
    rcases together.subset known with old | rfl
    · exact owned.below node old
    · unfold PhysAddr.fromFrameNumber frameSize identityMapLimit
      omega
  · intro slot present
    by_cases here : ([] : List (Fin 512)) = place ∧ slot = index
    · obtain ⟨rfl, rfl⟩ := here
      have same : vmm.pml4Phys = table := Option.some.inj reached
      rw [same, linkTable, readEntry_writeEntry_same _ _ _ _ (newTablePointer_lt _)]
      exact newTablePointer_not_huge _
    · have kept := owned.readEntry_link index reached takes.free [] vmm.pml4Phys slot rfl here
      rw [kept] at present ⊢
      exact owned.top slot present
  · exact tree_linked (owned.agree_link index reached takes.free) table _ reached
      ((slots_empty_iff _).mpr absent) (slots_link index above low)
      (owned.blank_link index reached takes.free _) (owned.free_not_table takes.free) owned.tree
  · intro node known
    rcases together.subset known with old | rfl
    · exact owned.aligned node old
    · exact Nat.mul_mod_left _ _
  · intro node known
    rw [takes.usedFrames]
    rcases together.subset known with old | rfl
    · exact Finset.mem_insert_of_mem (owned.used node old)
    · rw [PhysAddr.frameNumber_fromFrameNumber]
      exact Finset.mem_insert_self _ _

end Link

/-- Linking a free low frame behind an absent entry of a reached table extends
the tables by that frame.

Every entry of every reached table other than the written one keeps its value.
This is the agreement premise of the radix-tree linking laws; the invariant's
remaining fields follow from the resulting set of tables. -/
theorem Owned.link (owned : Owned vmm machine) (place : List (Fin 512)) (table : Nat)
    (index : Fin 512) (frame : Nat) (frames : FrameAllocator)
    (reached : descend (slots machine.memory) 0 vmm.pml4Phys place = some table)
    (above : place.length < 3)
    (absent : isPresent (readEntry machine.memory table index) = false)
    (low : frame < 2 ^ 20) (takes : machine.frames.Takes frame frames) :
    Extends vmm machine
        ⟨linkTable machine.memory table index (PhysAddr.fromFrameNumber frame), frames⟩ {frame} ∧
      descend (slots (linkTable machine.memory table index (PhysAddr.fromFrameNumber frame))) 0
        vmm.pml4Phys (place ++ [index]) = some (PhysAddr.fromFrameNumber frame) ∧
      ∀ depth slot, slots (linkTable machine.memory table index (PhysAddr.fromFrameNumber frame))
        depth (PhysAddr.fromFrameNumber frame) slot = .empty := by
  have blank := owned.blank_link index reached takes.free
  have paths := owned.descend_link index reached takes.free above absent low
  have together := owned.tables_link index reached takes.free above absent low
  refine ⟨⟨⟨owned.owned_link index reached above absent low takes, ?_, ?_, ?_, takes.totalFrames,
    ?_⟩, ?_, ?_⟩, by rw [paths, if_pos rfl], blank⟩
  · simpa using together
  · intro tested member
    have same : tested = frame := Finset.mem_singleton.mp member
    rw [same, FrameAllocator.freeBelow, Finset.mem_filter, frameNumber_identityMapLimit]
    exact ⟨takes.free, low⟩
  · rw [takes.freeFrames, Finset.sdiff_singleton_eq_erase]
  · intro target outside
    have outsideTable := outside table (together.superset (.inl ⟨place, reached⟩))
    have outsideNew := outside _ (together.superset (.inr rfl))
    exact (writeEntry_outside _ _ _ _ outsideTable).trans (zeroTable_outside _ _ outsideNew)
  · exact resolve_linked (owned.agree_link index reached takes.free) table _ reached
      ((slots_empty_iff _).mpr absent) (slots_link index above low) (blank _)
  · intro path node known
    rw [paths, if_neg (path_ne_link index reached absent known)]
    exact known

section WriteLeaf

variable (owned : Owned vmm machine) {place : List (Fin 512)} {pt : Nat} (index : Fin 512)
  (reached : descend (slots machine.memory) 0 vmm.pml4Phys place = some pt) (entry : Nat)

include owned reached

/-- Writing one entry of a reached table keeps every other entry of every reached
table: distinct tables are distinct frames. -/
theorem Owned.readEntry_write (path : List (Fin 512)) (node : Nat) (slot : Fin 512)
    (known : descend (slots machine.memory) 0 vmm.pml4Phys path = some node)
    (elsewhere : ¬ (path = place ∧ slot = index)) :
    readEntry (writeEntry machine.memory pt index entry) node slot =
      readEntry machine.memory node slot := by
  apply readEntry_writeEntry_other _ _ _ _ _ _ (owned.aligned pt ⟨place, reached⟩)
    (owned.aligned node ⟨path, known⟩)
  rintro ⟨rfl, rfl⟩
  exact elsewhere ⟨owned.tree path place node known reached, rfl⟩

/-- The slots of reached tables change at the written entry alone. -/
theorem Owned.agree_write :
    AgreeExcept (slots machine.memory) (slots (writeEntry machine.memory pt index entry))
      vmm.pml4Phys place index := by
  intro path node slot known elsewhere
  exact slots_congr _ (owned.readEntry_write index reached entry path node slot known elsewhere)

omit owned reached in
/-- A last-level entry never leads to a table. -/
theorem slots_leaf_child (memory : Memory) (last : place.length = 3) :
    (slots memory place.length pt index).child = none := by
  by_cases present : isPresent (readEntry memory pt index) = true <;>
    simp [slots, last, present, Slot.child]

/-- Writing a last-level entry keeps the paths through the tables. -/
theorem Owned.descend_write (last : place.length = 3) (path : List (Fin 512)) :
    descend (slots (writeEntry machine.memory pt index entry)) 0 vmm.pml4Phys path =
      descend (slots machine.memory) 0 vmm.pml4Phys path :=
  descend_edited (owned.agree_write index reached entry) pt reached
    (slots_leaf_child index _ last) (slots_leaf_child index _ last) path

end WriteLeaf

/-- Writing an entry of a last-level table changes the lookup of its own page
only, and no table. -/
theorem Owned.write_leaf (owned : Owned vmm machine) (virt pt entry : Nat)
    (reached : descend (slots machine.memory) 0 vmm.pml4Phys
      [pml4Index virt, pdptIndex virt, pdIndex virt] = some pt)
    (fits : entry < 2 ^ 64) :
    Updates vmm machine
        { machine with memory := writeEntry machine.memory pt (ptIndex virt) entry } ∅ ∧
      (∀ other, lookup (writeEntry machine.memory pt (ptIndex virt) entry) vmm.pml4Phys other =
        if pageNumber other = pageNumber virt then
          (if isPresent entry then some ⟨3, entry⟩ else none)
        else lookup machine.memory vmm.pml4Phys other) := by
  generalize place : [pml4Index virt, pdptIndex virt, pdIndex virt] = path at reached
  have depth : path.length = 3 := by rw [← place]; rfl
  have written : readEntry (writeEntry machine.memory pt (ptIndex virt) entry) pt (ptIndex virt) =
      entry := readEntry_writeEntry_same _ _ _ _ fits
  have kept := owned.readEntry_write (ptIndex virt) reached entry
  have agree := owned.agree_write (ptIndex virt) reached entry
  have final (memory : Memory) : (slots memory path.length pt (ptIndex virt)).child = none :=
    slots_leaf_child (ptIndex virt) memory depth
  have inner (slot : Fin 512) : ¬ (([] : List (Fin 512)) = path ∧ slot = ptIndex virt) := by
    rintro ⟨rfl, _⟩
    simp at depth
  obtain ⟨ownedAfter, sameTables⟩ := owned.same_paths
    (owned.descend_write (ptIndex virt) reached entry depth)
    (fun slot => kept [] vmm.pml4Phys slot rfl (inner slot))
  refine ⟨⟨ownedAfter, by simpa using sameTables, Finset.empty_subset _, by simp, rfl, ?_⟩, ?_⟩
  · intro target outside
    exact writeEntry_outside _ _ _ _ (outside pt (sameTables.superset ⟨path, reached⟩))
  · intro other
    have whole : indices virt = path ++ [ptIndex virt] := by rw [← place]; rfl
    by_cases same : pageNumber other = pageNumber virt
    · have sameIndices := (indices_eq_iff other virt).mpr same
      rw [if_pos same, lookup, sameIndices, whole,
        resolve_edited agree pt reached [] (final _)]
      by_cases present : isPresent entry = true <;>
        simp [slots, written, present, depth, Slot.value]
    · rw [if_neg same]
      apply resolve_elsewhere agree
      rw [← whole]
      intro through
      have sameIndices : indices other = indices virt := (through.eq_of_length rfl).symm
      exact same ((indices_eq_iff other virt).mp sameIndices)

namespace VirtualMemoryManager

/-- Descend through successive indices, creating absent tables. -/
def ensureTables : Machine → Nat → List (Fin 512) → Except MapError Nat × Machine
  | machine, table, [] => (.ok table, machine)
  | machine, table, index :: rest =>
      match getOrCreateTable machine table index with
      | (.error error, machine) => (.error error, machine)
      | (.ok next, machine) => ensureTables machine next rest

/-- `map` is a descent of three levels followed by the last-level entry. -/
theorem map_eq (vmm : VirtualMemoryManager) (machine : Machine) (virt phys : Nat)
    (flags : PageFlags) :
    vmm.map machine virt phys flags =
      if !isPageAligned virt || !PhysAddr.isFrameAligned phys then (.error .notPageAligned, machine)
      else
        match ensureTables machine vmm.pml4Phys
            [pml4Index virt, pdptIndex virt, pdIndex virt] with
        | (.error error, machine) => (.error error, machine)
        | (.ok pt, machine) =>
          match checkedTablePtr pt with
          | none => (.error .pageTableUnreachable, machine)
          | some pointer =>
            if isPresent (readEntry machine.memory pointer (ptIndex virt)) then
              (.error .alreadyMapped, machine)
            else
              (.ok (), { machine with
                memory := writeEntry machine.memory pointer (ptIndex virt) (newLeaf phys flags) }) := by
  unfold map
  split
  · rfl
  · simp only [ensureTables]
    rcases getOrCreateTable machine vmm.pml4Phys (pml4Index virt) with ⟨_ | pdpt, machine⟩
    · rfl
    · simp only
      rcases getOrCreateTable machine pdpt (pdptIndex virt) with ⟨_ | pd, machine⟩
      · rfl
      · simp only
        rcases getOrCreateTable machine pd (pdIndex virt) with ⟨_ | pt, machine⟩ <;> rfl

end VirtualMemoryManager

open VirtualMemoryManager

/-- Every outcome of `get_or_create_table` at a reached table, by the slot it
looks at: a pointer is followed, a huge page is refused, and an absent entry is
filled with the lowest free low frame if there is one. -/
theorem Owned.getOrCreateTable_cases (owned : Owned vmm machine) (place : List (Fin 512))
    (table : Nat) (index : Fin 512)
    (reached : descend (slots machine.memory) 0 vmm.pml4Phys place = some table)
    (above : place.length < 3) :
    (∃ next, slots machine.memory place.length table index = .table next ∧
      getOrCreateTable machine table index = (.ok next, machine)) ∨
    (∃ frame after, slots machine.memory place.length table index = .empty ∧
      getOrCreateTable machine table index = (.ok (PhysAddr.fromFrameNumber frame), after) ∧
      Extends vmm machine after {frame} ∧
      descend (slots after.memory) 0 vmm.pml4Phys (place ++ [index]) =
        some (PhysAddr.fromFrameNumber frame) ∧
      ∀ depth slot, slots after.memory depth (PhysAddr.fromFrameNumber frame) slot = .empty) ∨
    (∃ mapping, slots machine.memory place.length table index = .leaf mapping ∧
      getOrCreateTable machine table index = (.error .wouldOverlapHugePage, machine)) ∨
    (slots machine.memory place.length table index = .empty ∧
      getOrCreateTable machine table index = (.error .outOfFrames, machine) ∧
      machine.frames.freeBelow identityMapLimit = ∅) := by
  have checked : checkedTablePtr table = some table :=
    checkedTablePtr_below (owned.below table ⟨place, reached⟩)
  cases present : isPresent (readEntry machine.memory table index) with
  | true =>
    cases huge : rawHasFlag (readEntry machine.memory table index) flagPageSize with
    | true =>
      refine .inr (.inr (.inl ⟨_, slots_huge _ ⟨checked, present, huge⟩, ?_⟩))
      simp [getOrCreateTable, checked, present, entryIsHugePage, huge]
    | false =>
      refine .inl ⟨_, slots_pointer _ ⟨checked, present, huge⟩ above, ?_⟩
      simp [getOrCreateTable, checked, present, entryIsHugePage, huge]
  | false =>
    have empty : slots machine.memory place.length table index = .empty :=
      (slots_empty_iff _).mpr present
    rcases FrameAllocator.allocateBelow_cases owned.consistent identityMapLimit with
      ⟨frame, frames, taken, low, takes⟩ | ⟨refused, none⟩
    · rw [frameNumber_identityMapLimit] at low
      obtain ⟨extended, linked, blank⟩ :=
        owned.link place table index frame frames reached above present low takes
      have newChecked : checkedTablePtr (PhysAddr.fromFrameNumber frame) =
          some (PhysAddr.fromFrameNumber frame) :=
        checkedTablePtr_below (extended.owned.below _ ⟨_, linked⟩)
      refine .inr (.inl ⟨frame, _, empty, ?_, extended, linked, blank⟩)
      simp [getOrCreateTable, checked, present, taken, newChecked, linkTable]
    · refine .inr (.inr (.inr ⟨empty, ?_, none⟩))
      simp [getOrCreateTable, checked, present, refused]

/-- A path through a table of empty slots lacks every further table. -/
theorem missing_blank {memory : Memory} {table : Nat}
    (blank : ∀ depth slot, slots memory depth table slot = .empty) (depth : Nat)
    (rest : List (Fin 512)) : missing (slots memory) depth table rest = rest.length := by
  cases rest with
  | nil => rfl
  | cons index rest => simp [missing, blank]

/-- Every outcome of the descent. The induction is on the remaining indices: an
existing pointer leaves the state as it is, and a created table answers every
further level with an empty slot, so that the tables added are those missing. -/
theorem Owned.ensureTables_cases (owned : Owned vmm machine) (place rest : List (Fin 512))
    (table : Nat) (reached : descend (slots machine.memory) 0 vmm.pml4Phys place = some table)
    (above : place.length + rest.length ≤ 3) :
    (∃ pt after added, ensureTables machine table rest = (.ok pt, after) ∧
      Extends vmm machine after added ∧
      descend (slots after.memory) 0 vmm.pml4Phys (place ++ rest) = some pt ∧
      added.card = missing (slots machine.memory) place.length table rest) ∨
    (ensureTables machine table rest = (.error .wouldOverlapHugePage, machine) ∧
      ∃ mapping, ∀ more, resolve (slots machine.memory) place.length table (rest ++ more) =
        some mapping ∧ mapping.depth < 3) ∨
    (∃ after added, ensureTables machine table rest = (.error .outOfFrames, after) ∧
      Extends vmm machine after added ∧
      (∀ more, resolve (slots machine.memory) place.length table (rest ++ more) = none) ∧
      (machine.frames.freeBelow identityMapLimit).card <
        missing (slots machine.memory) place.length table rest) := by
  induction rest generalizing machine place table with
  | nil =>
    exact .inl ⟨table, machine, ∅, rfl, Extends.refl owned, by simpa using reached, by
      simp [missing]⟩
  | cons index rest inductionHypothesis =>
    have here : place.length < 3 := by
      simp only [List.length_cons] at above
      omega
    have further : (place ++ [index]).length + rest.length ≤ 3 := by
      simp only [List.length_cons, List.length_append, List.length_nil] at above ⊢
      omega
    rcases owned.getOrCreateTable_cases place table index reached here with
      ⟨next, slot, followed⟩ | ⟨frame, after, slot, created, extended, linked, blank⟩ |
      ⟨mapping, slot, refused⟩ | ⟨slot, refused, none⟩
    · have reachedNext : descend (slots machine.memory) 0 vmm.pml4Phys (place ++ [index]) =
          some next :=
        RadixTree.descend_link (slots machine.memory) reached slot
      have continued := inductionHypothesis owned (place ++ [index]) next reachedNext further
      simpa [ensureTables, followed, resolve, missing, slot] using continued
    · have lacking : missing (slots machine.memory) place.length table (index :: rest) =
          rest.length + 1 := by simp [missing, slot]
      have lackingNext : missing (slots after.memory) (place ++ [index]).length
          (PhysAddr.fromFrameNumber frame) rest = rest.length := missing_blank blank _ _
      have unresolved (more : List (Fin 512)) :
          resolve (slots machine.memory) place.length table (index :: rest ++ more) = none := by
        simp [resolve, slot]
      have fewer := extended.card_freeBelow
      rw [Finset.card_singleton] at fewer
      rcases inductionHypothesis extended.owned (place ++ [index])
          (PhysAddr.fromFrameNumber frame) linked further with
        ⟨pt, last, added, done, extendedMore, final, count⟩ | ⟨_, mapping, found⟩ |
        ⟨last, added, stopped, extendedMore, _, short⟩
      · refine .inl ⟨pt, last, {frame} ∪ added, ?_, extended.trans extendedMore, ?_, ?_⟩
        · simp [ensureTables, created, done]
        · simpa using final
        · rw [Finset.card_union_of_disjoint (extended.toUpdates.disjoint extendedMore.toUpdates),
            Finset.card_singleton, count, lackingNext, lacking, Nat.add_comm]
      · cases rest with
        | nil => exact absurd (found []).1 (by simp [resolve])
        | cons second rest => exact absurd (found []).1 (by simp [resolve, blank])
      · refine .inr (.inr ⟨last, {frame} ∪ added, ?_, extended.trans extendedMore, unresolved, ?_⟩)
        · simp [ensureTables, created, stopped]
        · rw [lacking, ← fewer]
          rw [lackingNext] at short
          omega
    · have small : mapping.depth < 3 := by
        rw [slots_leaf_depth _ slot]
        exact here
      refine .inr (.inl ⟨by simp [ensureTables, refused], mapping, ?_⟩)
      intro more
      exact ⟨by simp [resolve, slot], small⟩
    · refine .inr (.inr ⟨machine, ∅, by simp [ensureTables, refused], Extends.refl owned, ?_, ?_⟩)
      · intro more
        simp [resolve, slot]
      · simp [none, missing, slot]

end XyronOS
