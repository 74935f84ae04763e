import XyronOS.Mm.TableOwnership

/-!
# The four walks on arbitrary memory

`map`, `unmap`, `translate` and `flags_at` each walk the page tables with code of
their own. Nothing is assumed here about what the tables hold: entries may point
anywhere, also outside the identity map, and may be huge at any level but the
first.

`examine` is one walk that stops at the first level that decides: a table that
cannot be dereferenced, an absent entry, a huge page, or the entry of a 4 KiB page.
The three walks that only read are functions of its verdict. `map` creates tables
where the verdict is that an entry is absent, and what it finds behind them are
pointers of its own making or nothing. So it can succeed, run out of frames, or come
back to one of its own pointers and take it for a mapping. The last needs a free frame
that is a table on the walk; otherwise each table it creates is blank.
-/

namespace XyronOS

open ByteMemory WordBits PageTableEntry VirtAddr

/-- What a walk finds out about an address. -/
inductive Verdict where
  | unreachable
  | absent
  | huge (depth entry : Nat)
  | page (entry : Nat)
deriving DecidableEq, Repr

/-- Walk from a table, at a depth counted from the root, through the given indices.
The first level has no huge pages. -/
def examine (memory : Memory) : Nat → Nat → List (Fin 512) → Verdict
  | _, _, [] => .absent
  | depth, table, index :: rest =>
    match checkedTablePtr table with
    | none => .unreachable
    | some pointer =>
      let entry := readEntry memory pointer index
      if !isPresent entry then .absent
      else if rest = [] then .page entry
      else if depth ≠ 0 ∧ rawHasFlag entry flagPageSize = true then .huge depth entry
      else examine memory (depth + 1) (addr entry) rest

/-- The tables a walk dereferences. -/
def walkTables (memory : Memory) : Nat → Nat → List (Fin 512) → List Nat
  | _, _, [] => []
  | depth, table, index :: rest =>
    match checkedTablePtr table with
    | none => []
    | some pointer =>
      let entry := readEntry memory pointer index
      pointer ::
        (if isPresent entry = true ∧ ¬ (depth ≠ 0 ∧ rawHasFlag entry flagPageSize = true) then
          walkTables memory (depth + 1) (addr entry) rest
        else [])

/-- No frame that an allocation below the identity-map limit may hand out shares a byte
with a table on the walk. -/
def FramesApart (machine : Machine) (depth table : Nat) (path : List (Fin 512)) : Prop :=
  ∀ frame ∈ machine.frames.freeBelow identityMapLimit,
    ∀ visited ∈ walkTables machine.memory depth table path,
      Disjoint (frameBytes (PhysAddr.fromFrameNumber frame)) (frameBytes visited)

namespace Verdict

/-- The answer of `unmap`. -/
def unmap : Verdict → Except UnmapError Nat
  | .unreachable => .error .pageTableUnreachable
  | .absent => .error .notMapped
  | .huge _ _ => .error .isHugePage
  | .page entry => .ok (addr entry)

/-- The answer of `translate`. -/
def translate (virt : Nat) : Verdict → Option Nat
  | .unreachable => none
  | .absent => none
  | .huge depth entry => some (Mapping.physical virt ⟨depth, entry⟩)
  | .page entry => some (addr entry ||| pageOffset virt)

/-- The answer of `flags_at`. -/
def flagsAt : Verdict → Option PageFlags
  | .page entry => some ⟨isWritable entry, isNoExecute entry⟩
  | _ => none

/-- The answers open to `map`, of which one needs a free frame on the walk. -/
def MapAnswer (apart : Prop) : Verdict → Except MapError Unit → Prop
  | .unreachable, answer => answer = .error .pageTableUnreachable
  | .absent, answer => answer = .ok () ∨ answer = .error .outOfFrames ∨
      (¬ apart ∧ answer = .error .alreadyMapped)
  | .huge _ _, answer => answer = .error .wouldOverlapHugePage
  | .page _, answer => answer = .error .alreadyMapped

end Verdict

/-- A stronger condition leaves the same answers open. -/
theorem Verdict.MapAnswer.mono {verdict : Verdict} {answer : Except MapError Unit}
    {weak strong : Prop} (answered : verdict.MapAnswer weak answer) (implies : strong → weak) :
    verdict.MapAnswer strong answer := by
  cases verdict with
  | absent =>
    exact answered.imp_right (Or.imp_right (fun found => ⟨fun apart => found.1 (implies apart),
      found.2⟩))
  | unreachable => exact answered
  | huge _ _ => exact answered
  | page _ => exact answered

/-- The three walks that only read answer by the verdict. One case analysis serves
all three; its cases are the levels at which a walk can end. -/
theorem reads_examine (vmm : VirtualMemoryManager) (memory : Memory) (virt : Nat)
    (aligned : virt % frameSize = 0) :
    (vmm.unmap memory virt).1 = (examine memory 0 vmm.pml4Phys (indices virt)).unmap ∧
      vmm.translate memory virt =
        (examine memory 0 vmm.pml4Phys (indices virt)).translate virt ∧
      vmm.flagsAt memory virt = (examine memory 0 vmm.pml4Phys (indices virt)).flagsAt := by
  have pageAligned : isPageAligned virt = true := by simp [isPageAligned, aligned]
  simp only [VirtualMemoryManager.unmap, VirtualMemoryManager.translate,
    VirtualMemoryManager.flagsAt, pageAligned, indices, examine, Bool.not_true,
    Bool.false_eq_true, if_false, ne_eq, not_true_eq_false, false_and, reduceCtorEq,
    Nat.add_eq_zero_iff, one_ne_zero, and_false, not_false_eq_true, true_and, if_true]
  cases checkedTablePtr vmm.pml4Phys with
  | none => exact ⟨rfl, rfl, rfl⟩
  | some pml4 =>
    dsimp only
    cases isPresent (readEntry memory pml4 (pml4Index virt)) with
    | false => exact ⟨rfl, rfl, rfl⟩
    | true =>
      cases checkedTablePtr (addr (readEntry memory pml4 (pml4Index virt))) with
      | none => exact ⟨rfl, rfl, rfl⟩
      | some pdpt =>
        dsimp only
        cases isPresent (readEntry memory pdpt (pdptIndex virt)) with
        | false => exact ⟨rfl, rfl, rfl⟩
        | true =>
          cases rawHasFlag (readEntry memory pdpt (pdptIndex virt)) flagPageSize with
          | true => exact ⟨rfl, rfl, rfl⟩
          | false =>
            cases checkedTablePtr (addr (readEntry memory pdpt (pdptIndex virt))) with
            | none => exact ⟨rfl, rfl, rfl⟩
            | some pd =>
              dsimp only
              cases isPresent (readEntry memory pd (pdIndex virt)) with
              | false => exact ⟨rfl, rfl, rfl⟩
              | true =>
                cases rawHasFlag (readEntry memory pd (pdIndex virt)) flagPageSize with
                | true => exact ⟨rfl, rfl, rfl⟩
                | false =>
                  cases checkedTablePtr (addr (readEntry memory pd (pdIndex virt))) with
                  | none => exact ⟨rfl, rfl, rfl⟩
                  | some pt =>
                    dsimp only
                    cases isPresent (readEntry memory pt (ptIndex virt)) with
                    | false => exact ⟨rfl, rfl, rfl⟩
                    | true => exact ⟨rfl, rfl, rfl⟩

/-- The rest of `map` from a table on: descend, then set the last entry. -/
def mapBelow (machine : Machine) (table : Nat) (above : List (Fin 512)) (last : Fin 512)
    (phys : Nat) (flags : PageFlags) : Except MapError Unit × Machine :=
  match VirtualMemoryManager.ensureTables machine table above with
  | (.error error, machine) => (.error error, machine)
  | (.ok pt, machine) =>
    match checkedTablePtr pt with
    | none => (.error .pageTableUnreachable, machine)
    | some pointer =>
      if isPresent (readEntry machine.memory pointer last) then (.error .alreadyMapped, machine)
      else
        (.ok (), { machine with
          memory := writeEntry machine.memory pointer last (newLeaf phys flags) })

theorem mapBelow_cons (machine : Machine) (table : Nat) (index : Fin 512) (above : List (Fin 512))
    (last : Fin 512) (phys : Nat) (flags : PageFlags) :
    mapBelow machine table (index :: above) last phys flags =
      match VirtualMemoryManager.getOrCreateTable machine table index with
      | (.error error, machine) => (.error error, machine)
      | (.ok next, machine) => mapBelow machine next above last phys flags := by
  simp only [mapBelow, VirtualMemoryManager.ensureTables]
  rcases VirtualMemoryManager.getOrCreateTable machine table index with ⟨_ | next, machine⟩
  · rfl
  · rfl

/-- Taking a frame for a table: it is below the limit, no longer free, and the
remaining free frames are among the earlier ones. -/
structure TakesTable (before after : FrameAllocator) (frame : Nat) : Prop where
  consistent : after.Consistent
  fresh : frame ∈ before.freeBelow identityMapLimit
  taken : frame ∉ after.freeFrames

theorem TakesTable.low {before after : FrameAllocator} {frame : Nat}
    (takes : TakesTable before after frame) :
    PhysAddr.fromFrameNumber frame < identityMapLimit := by
  have below := (Finset.mem_filter.mp takes.fresh).2
  unfold PhysAddr.frameNumber frameSize at below
  unfold PhysAddr.fromFrameNumber frameSize
  omega

theorem getOrCreateTable_absent {machine : Machine} {table : Nat} {index : Fin 512}
    (consistent : machine.frames.Consistent) (checked : checkedTablePtr table = some table)
    (absent : isPresent (readEntry machine.memory table index) = false) :
    (∃ after, VirtualMemoryManager.getOrCreateTable machine table index =
        (.error .outOfFrames, after)) ∨
      ∃ frame frames, TakesTable machine.frames frames frame ∧
        VirtualMemoryManager.getOrCreateTable machine table index =
          (.ok (PhysAddr.fromFrameNumber frame),
            ⟨linkTable machine.memory table index (PhysAddr.fromFrameNumber frame), frames⟩) := by
  rcases FrameAllocator.allocateBelow_cases consistent identityMapLimit with
    ⟨frame, frames, taken, low, takes⟩ | ⟨refused, _⟩
  · refine .inr ⟨frame, frames, ⟨takes.consistent, ?_, ?_⟩, ?_⟩
    · exact Finset.mem_filter.mpr ⟨takes.free, low⟩
    · rw [takes.freeFrames]
      exact Finset.notMem_erase _ _
    · have below : PhysAddr.fromFrameNumber frame < identityMapLimit := by
        unfold PhysAddr.frameNumber frameSize at low
        unfold PhysAddr.fromFrameNumber frameSize
        omega
      simp [VirtualMemoryManager.getOrCreateTable, checked, absent, taken,
        checkedTablePtr_below below, linkTable]
  · refine .inl ⟨machine, ?_⟩
    simp [VirtualMemoryManager.getOrCreateTable, checked, absent, refused]

/-- A linked frame whose bytes are apart from the table that points to it is blank. -/
theorem linkTable_blank {memory : Memory} {table frame : Nat} (index slot : Fin 512)
    (apart : Disjoint (frameBytes (PhysAddr.fromFrameNumber frame)) (frameBytes table)) :
    isPresent (readEntry (linkTable memory table index (PhysAddr.fromFrameNumber frame))
      (PhysAddr.fromFrameNumber frame) slot) = false := by
  have kept : readEntry (linkTable memory table index (PhysAddr.fromFrameNumber frame))
      (PhysAddr.fromFrameNumber frame) slot =
      readEntry (zeroTable memory (PhysAddr.fromFrameNumber frame))
        (PhysAddr.fromFrameNumber frame) slot := by
    apply readEntry_congr
    intro target inside
    exact writeEntry_outside _ _ _ _ (Set.disjoint_left.mp apart inside)
  rw [kept, readEntry_zeroTable_same]
  rfl

/-- A frame that can still be taken is apart from one that was taken. -/
theorem TakesTable.apart {before after : FrameAllocator} {frame other : Nat}
    (takes : TakesTable before after frame) (free : other ∈ after.freeBelow identityMapLimit) :
    Disjoint (frameBytes (PhysAddr.fromFrameNumber other))
      (frameBytes (PhysAddr.fromFrameNumber frame)) := by
  rw [Set.disjoint_left]
  intro target inside
  apply frameBytes_disjoint _ _ (Nat.mul_mod_left _ _) (Nat.mul_mod_left _ _) _ target inside
  intro same
  rw [PhysAddr.fromFrameNumber_injective same] at free
  exact takes.taken (Finset.mem_filter.mp free).1

/-- Behind a table just taken, whose entries are all absent, `map` succeeds or runs
out of frames. -/
theorem mapBelow_blank {machine : Machine} {before : FrameAllocator} {frame : Nat}
    (above : List (Fin 512)) (last : Fin 512) (phys : Nat) (flags : PageFlags)
    (takes : TakesTable before machine.frames frame)
    (blank : ∀ slot, isPresent
      (readEntry machine.memory (PhysAddr.fromFrameNumber frame) slot) = false) :
    (mapBelow machine (PhysAddr.fromFrameNumber frame) above last phys flags).1 = .ok () ∨
      (mapBelow machine (PhysAddr.fromFrameNumber frame) above last phys flags).1 =
        .error .outOfFrames := by
  have low := (Finset.mem_filter.mp takes.fresh).2
  have checked : checkedTablePtr (PhysAddr.fromFrameNumber frame) =
      some (PhysAddr.fromFrameNumber frame) := by
    apply checkedTablePtr_below
    unfold PhysAddr.frameNumber frameSize at low
    unfold PhysAddr.fromFrameNumber frameSize
    omega
  induction above generalizing machine before frame with
  | nil =>
    left
    simp [mapBelow, VirtualMemoryManager.ensureTables, checked, blank last]
  | cons index above inductionHypothesis =>
    rw [mapBelow_cons]
    rcases getOrCreateTable_absent takes.consistent checked (blank index) with
      ⟨after, refused⟩ | ⟨next, frames, nextTakes, created⟩
    · rw [refused]
      exact .inr rfl
    · rw [created]
      have lowNext := (Finset.mem_filter.mp nextTakes.fresh).2
      apply inductionHypothesis nextTakes _ lowNext
      · apply checkedTablePtr_below
        unfold PhysAddr.frameNumber frameSize at lowNext
        unfold PhysAddr.fromFrameNumber frameSize
        omega
      · intro slot
        exact linkTable_blank index slot (takes.apart nextTakes.fresh)

/-- The frames hold tables whose entries are absent or point to such tables again. -/
def Created (memory : Memory) (created : Set Nat) : Prop :=
  ∀ frame ∈ created, PhysAddr.fromFrameNumber frame < identityMapLimit ∧
    ∀ slot, readEntry memory (PhysAddr.fromFrameNumber frame) slot = 0 ∨
      ∃ next ∈ created, readEntry memory (PhysAddr.fromFrameNumber frame) slot =
        newTablePointer (PhysAddr.fromFrameNumber next)

/-- Linking one more frame keeps to such tables, also if the frame is the table itself or
another one on the walk: words of aligned tables coincide or share no byte. -/
theorem Created.link {memory : Memory} {created : Set Nat} (closed : Created memory created)
    {table frame : Nat} (index : Fin 512) (aligned : table % 8 = 0)
    (low : PhysAddr.fromFrameNumber frame < identityMapLimit) :
    Created (linkTable memory table index (PhysAddr.fromFrameNumber frame))
      (insert frame created) := by
  intro other member
  have inside : PhysAddr.fromFrameNumber other < identityMapLimit := by
    rcases member with rfl | old
    · exact low
    · exact (closed other old).1
  refine ⟨inside, ?_⟩
  intro slot
  have frameAligned : PhysAddr.fromFrameNumber other % frameSize = 0 := Nat.mul_mod_left _ _
  by_cases hit : table + 8 * index.val = PhysAddr.fromFrameNumber other + 8 * slot.val
  · right
    refine ⟨frame, Set.mem_insert _ _, ?_⟩
    rw [readEntry, linkTable, writeEntry, hit, load64_store64_same,
      Nat.mod_eq_of_lt (newTablePointer_lt _)]
  · have kept : readEntry (linkTable memory table index (PhysAddr.fromFrameNumber frame))
        (PhysAddr.fromFrameNumber other) slot =
        readEntry (zeroTable memory (PhysAddr.fromFrameNumber frame))
          (PhysAddr.fromFrameNumber other) slot := by
      apply load64_store64_apart
      unfold frameSize at frameAligned
      omega
    rw [kept]
    by_cases same : other = frame
    · subst same
      exact .inl (readEntry_zeroTable_same _ _ _)
    · have distinct : PhysAddr.fromFrameNumber other ≠ PhysAddr.fromFrameNumber frame :=
        fun equal => same (PhysAddr.fromFrameNumber_injective equal)
      have newAligned : PhysAddr.fromFrameNumber frame % frameSize = 0 := Nat.mul_mod_left _ _
      rw [readEntry_zeroTable_other _ _ _ _ newAligned frameAligned distinct]
      rcases (closed other (member.resolve_left same)).2 slot with blank | ⟨next, known, pointer⟩
      · exact .inl blank
      · exact .inr ⟨next, Set.mem_insert_of_mem _ known, pointer⟩

/-- A pointer to a frame that tables may lie in is followed. -/
theorem getOrCreateTable_pointer {machine : Machine} {table frame : Nat} {index : Fin 512}
    (checked : checkedTablePtr table = some table)
    (pointer : readEntry machine.memory table index =
      newTablePointer (PhysAddr.fromFrameNumber frame))
    (low : PhysAddr.fromFrameNumber frame < identityMapLimit) :
    VirtualMemoryManager.getOrCreateTable machine table index =
      (.ok (PhysAddr.fromFrameNumber frame), machine) := by
  have small : rawHasFlag (newTablePointer (PhysAddr.fromFrameNumber frame)) flagPageSize =
      false := newTablePointer_not_huge _
  have target : addr (newTablePointer (PhysAddr.fromFrameNumber frame)) =
      PhysAddr.fromFrameNumber frame :=
    addr_newTablePointer _ (Nat.mul_mod_left _ _) (Nat.lt_trans low (by decide))
  simp [VirtualMemoryManager.getOrCreateTable, checked, entryIsHugePage, pointer,
    newTablePointer_present, small, target]

/-- Among tables that `map` has created it finds no huge page and no table out of reach. -/
theorem mapBelow_created {machine : Machine} {created : Set Nat} {frame : Nat}
    (above : List (Fin 512)) (last : Fin 512) (phys : Nat) (flags : PageFlags)
    (consistent : machine.frames.Consistent) (closed : Created machine.memory created)
    (member : frame ∈ created) :
    (mapBelow machine (PhysAddr.fromFrameNumber frame) above last phys flags).1 = .ok () ∨
      (mapBelow machine (PhysAddr.fromFrameNumber frame) above last phys flags).1 =
        .error .outOfFrames ∨
      (mapBelow machine (PhysAddr.fromFrameNumber frame) above last phys flags).1 =
        .error .alreadyMapped := by
  induction above generalizing machine created frame with
  | nil =>
    have checked := checkedTablePtr_below (closed frame member).1
    simp only [mapBelow, VirtualMemoryManager.ensureTables, checked]
    split
    · exact .inr (.inr rfl)
    · exact .inl rfl
  | cons index above inductionHypothesis =>
    obtain ⟨low, entries⟩ := closed frame member
    have checked := checkedTablePtr_below low
    have aligned : PhysAddr.fromFrameNumber frame % frameSize = 0 := Nat.mul_mod_left _ _
    rw [mapBelow_cons]
    rcases entries index with blank | ⟨next, known, pointer⟩
    · have absent : isPresent
          (readEntry machine.memory (PhysAddr.fromFrameNumber frame) index) = false := by
        rw [blank]
        rfl
      rcases getOrCreateTable_absent consistent checked absent with
        ⟨after, refused⟩ | ⟨fresh, frames, takes, linked⟩
      · rw [refused]
        exact .inr (.inl rfl)
      · rw [linked]
        have wordAligned : PhysAddr.fromFrameNumber frame % 8 = 0 := by
          unfold frameSize at aligned
          omega
        have linkedClosed := closed.link index wordAligned takes.low
        apply inductionHypothesis
        · exact takes.consistent
        · exact linkedClosed
        · exact Set.mem_insert _ _
    · rw [getOrCreateTable_pointer checked pointer (closed next known).1]
      exact inductionHypothesis consistent closed known

/-- What `map` can answer behind the first table that it creates. -/
theorem mapBelow_linked {memory : Memory} {before frames : FrameAllocator} {table frame : Nat}
    (index : Fin 512) (above : List (Fin 512)) (last : Fin 512) (phys : Nat) (flags : PageFlags)
    (takes : TakesTable before frames frame) (aligned : table % 8 = 0) :
    Verdict.absent.MapAnswer
      (Disjoint (frameBytes (PhysAddr.fromFrameNumber frame)) (frameBytes table))
      (mapBelow ⟨linkTable memory table index (PhysAddr.fromFrameNumber frame), frames⟩
        (PhysAddr.fromFrameNumber frame) above last phys flags).1 := by
  by_cases apart : Disjoint (frameBytes (PhysAddr.fromFrameNumber frame)) (frameBytes table)
  · refine Or.imp_right .inl (mapBelow_blank above last phys flags takes ?_)
    intro slot
    exact linkTable_blank index slot apart
  · have none : Created memory ∅ := fun _ impossible => impossible.elim
    have alone := none.link index aligned takes.low
    refine Or.imp_right (Or.imp_right (fun found => ⟨apart, found⟩)) ?_
    apply mapBelow_created above last phys flags
    · exact takes.consistent
    · exact alone
    · exact Set.mem_insert _ _

/-- `map` answers by the verdict on the tables as they are. The induction is on the
levels above the last; where an entry is absent the rest of the descent is behind a
table just taken. -/
theorem mapBelow_examine {machine : Machine} (above : List (Fin 512)) (last : Fin 512)
    (phys : Nat) (flags : PageFlags) (depth table : Nat)
    (consistent : machine.frames.Consistent) (aligned : table % 8 = 0)
    (top : depth = 0 → ∀ index, isPresent (readEntry machine.memory table index) = true →
      rawHasFlag (readEntry machine.memory table index) flagPageSize = false) :
    (examine machine.memory depth table (above ++ [last])).MapAnswer
      (FramesApart machine depth table (above ++ [last]))
      (mapBelow machine table above last phys flags).1 := by
  induction above generalizing depth table with
  | nil =>
    simp only [List.nil_append, examine, mapBelow, VirtualMemoryManager.ensureTables]
    cases checkedTablePtr table with
    | none => rfl
    | some pointer =>
      dsimp only
      cases isPresent (readEntry machine.memory pointer last) with
      | false => exact .inl rfl
      | true => rfl
  | cons index above inductionHypothesis =>
    have more : above ++ [last] ≠ [] := by simp
    rw [List.cons_append, examine, mapBelow_cons]
    by_cases below : table < identityMapLimit
    · have checked := checkedTablePtr_below below
      simp only [checked]
      cases present : isPresent (readEntry machine.memory table index) with
      | false =>
        rcases getOrCreateTable_absent consistent checked present with
          ⟨after, refused⟩ | ⟨frame, frames, takes, created⟩
        · rw [refused]
          exact .inr (.inl rfl)
        · rw [created]
          apply (mapBelow_linked index above last phys flags takes aligned).mono
          intro apart
          apply apart frame takes.fresh table
          simp [walkTables, checked]
      | true =>
        cases huge : rawHasFlag (readEntry machine.memory table index) flagPageSize with
        | true =>
          have lower : depth ≠ 0 := by
            intro first
            rw [top first index present] at huge
            cases huge
          have refused : VirtualMemoryManager.getOrCreateTable machine table index =
              (.error .wouldOverlapHugePage, machine) := by
            simp [VirtualMemoryManager.getOrCreateTable, checked, present, entryIsHugePage, huge]
          rw [refused]
          simp [more, lower, Verdict.MapAnswer]
        | false =>
          have followed : VirtualMemoryManager.getOrCreateTable machine table index =
              (.ok (addr (readEntry machine.memory table index)), machine) := by
            simp [VirtualMemoryManager.getOrCreateTable, checked, present, entryIsHugePage, huge]
          have nextAligned : addr (readEntry machine.memory table index) % 8 = 0 := by
            have page := addr_aligned (readEntry machine.memory table index)
            omega
          rw [followed]
          simp only [Bool.not_true, Bool.false_eq_true, if_false, more, and_false]
          apply (inductionHypothesis (depth + 1) _ nextAligned (by omega)).mono
          intro apart frame free visited member
          apply apart frame free visited
          simp [walkTables, checked, present, huge, member]
    · have closed : checkedTablePtr table = none := by
        simp [checkedTablePtr, Nat.not_lt.mp below]
      have refused : VirtualMemoryManager.getOrCreateTable machine table index =
          (.error .pageTableUnreachable, machine) := by
        simp [VirtualMemoryManager.getOrCreateTable, closed]
      rw [closed, refused]
      rfl

/-- The answers of the four walks to one address describe the same tables. -/
structure WalksAgree (unmapped : Except UnmapError Nat) (mapped : Except MapError Unit)
    (translated : Option Nat) (flags : Option PageFlags) (apart : Prop) : Prop where
  page : (∃ phys, unmapped = .ok phys) → mapped = .error .alreadyMapped
  pageOnly : apart → mapped = .error .alreadyMapped → ∃ phys, unmapped = .ok phys
  pageFlags : (∃ phys, unmapped = .ok phys) ↔ flags.isSome = true
  pageTranslated : ∀ phys, unmapped = .ok phys → translated = some phys
  huge : unmapped = .error .isHugePage ↔ mapped = .error .wouldOverlapHugePage
  hugeReads : unmapped = .error .isHugePage → translated.isSome = true ∧ flags = none
  unreachable : unmapped = .error .pageTableUnreachable ↔ mapped = .error .pageTableUnreachable
  unreachableReads : unmapped = .error .pageTableUnreachable → translated = none ∧ flags = none
  absent : mapped = .ok () ∨ mapped = .error .outOfFrames → unmapped = .error .notMapped
  absentOnly : apart → unmapped = .error .notMapped →
    mapped = .ok () ∨ mapped = .error .outOfFrames
  absentReads : unmapped = .error .notMapped → translated = none ∧ flags = none

/-- Answers by one verdict agree. -/
theorem Verdict.agree {verdict : Verdict} {virt : Nat} {mapped : Except MapError Unit}
    {apart : Prop} (aligned : virt % frameSize = 0) (answer : verdict.MapAnswer apart mapped) :
    WalksAgree verdict.unmap mapped (verdict.translate virt) verdict.flagsAt apart := by
  cases verdict with
  | unreachable =>
    obtain rfl : mapped = .error .pageTableUnreachable := answer
    constructor <;> simp [Verdict.unmap, Verdict.translate, Verdict.flagsAt]
  | absent =>
    rcases answer with rfl | rfl | ⟨overlaid, rfl⟩
    · constructor <;> simp [Verdict.unmap, Verdict.translate, Verdict.flagsAt]
    · constructor <;> simp [Verdict.unmap, Verdict.translate, Verdict.flagsAt]
    · constructor <;> simp [Verdict.unmap, Verdict.translate, Verdict.flagsAt, overlaid]
  | huge depth entry =>
    obtain rfl : mapped = .error .wouldOverlapHugePage := answer
    constructor <;> simp [Verdict.unmap, Verdict.translate, Verdict.flagsAt]
  | page entry =>
    obtain rfl : mapped = .error .alreadyMapped := answer
    have offset : virt % 4096 = 0 := aligned
    constructor <;> simp [Verdict.unmap, Verdict.translate, Verdict.flagsAt, offset]

/-- The four walks agree on every memory content. That `map` finds a mapping only where
`unmap` does, and nothing wherever `unmap` does, holds if the frames it may take are apart
from the tables on the walk of the address. -/
theorem walks_agree (vmm : VirtualMemoryManager) (machine : Machine) (virt phys : Nat)
    (flags : PageFlags) (virtAligned : virt % frameSize = 0) (physAligned : phys % frameSize = 0)
    (consistent : machine.frames.Consistent) (root : vmm.pml4Phys % 8 = 0)
    (top : ∀ index, rawHasFlag (readEntry machine.memory vmm.pml4Phys index) flagPageSize =
      false) :
    WalksAgree (vmm.unmap machine.memory virt).1 (vmm.map machine virt phys flags).1
      (vmm.translate machine.memory virt) (vmm.flagsAt machine.memory virt)
      (FramesApart machine 0 vmm.pml4Phys (indices virt)) := by
  have descended : vmm.map machine virt phys flags =
      mapBelow machine vmm.pml4Phys [pml4Index virt, pdptIndex virt, pdIndex virt] (ptIndex virt)
        phys flags := by
    have accepted : (!isPageAligned virt || !PhysAddr.isFrameAligned phys) = false := by
      simp [isPageAligned, virtAligned, PhysAddr.isFrameAligned, physAligned]
    rw [VirtualMemoryManager.map_eq, accepted]
    rfl
  have answer := mapBelow_examine [pml4Index virt, pdptIndex virt, pdIndex virt] (ptIndex virt)
    phys flags 0 vmm.pml4Phys consistent root (fun _ index _ => top index)
  obtain ⟨unmapped, translated, reported⟩ := reads_examine vmm machine.memory virt virtAligned
  rw [descended, unmapped, translated, reported]
  exact Verdict.agree virtAligned answer

/-- Four tables at `0x1000` to `0x4000` that map one page, at `0x5000`, and one huge page, at
`0x200000`. -/
def pageAndHugePage : Memory :=
  let pml4 := writeEntry (fun _ => 0) 0x1000 (pml4Index 0x5000) 0x2003
  let pdpt := writeEntry pml4 0x2000 (pdptIndex 0x5000) 0x3003
  let table := writeEntry pdpt 0x3000 (pdIndex 0x5000) 0x4003
  let huge := writeEntry table 0x3000 (pdIndex 0x200000) 0x200083
  writeEntry huge 0x4000 (ptIndex 0x5000) 0x9003

/-- The walks agree on the page, on its unmapped neighbour and on the huge page, with three
frames left beyond the tables. -/
theorem walks_agree_mapped :
    FramesApart ⟨pageAndHugePage, ⟨[0x1F#8], 8, 3, 0⟩⟩ 0 0x1000 (indices 0x5000) ∧
      WalksAgree (.ok 0x9000) (.error .alreadyMapped) (some 0x9000) (some .readWrite)
        (FramesApart ⟨pageAndHugePage, ⟨[0x1F#8], 8, 3, 0⟩⟩ 0 0x1000 (indices 0x5000)) ∧
      WalksAgree (.error .notMapped) (.ok ()) none none
        (FramesApart ⟨pageAndHugePage, ⟨[0x1F#8], 8, 3, 0⟩⟩ 0 0x1000 (indices 0x6000)) ∧
      WalksAgree (.error .isHugePage) (.error .wouldOverlapHugePage) (some 0x200000) none
        (FramesApart ⟨pageAndHugePage, ⟨[0x1F#8], 8, 3, 0⟩⟩ 0 0x1000 (indices 0x200000)) := by
  have free : FrameAllocator.freeFrames ⟨[0x1F#8], 8, 3, 0⟩ = {5, 6, 7} := by decide +kernel
  have consistent : FrameAllocator.Consistent ⟨[0x1F#8], 8, 3, 0⟩ :=
    ⟨by decide, by rw [free]; rfl, by decide⟩
  have top : ∀ index, rawHasFlag (readEntry pageAndHugePage 0x1000 index) flagPageSize = false := by
    decide +kernel
  refine ⟨?_, ?_, ?_, ?_⟩
  · intro frame low table member
    have visited : walkTables pageAndHugePage 0 0x1000 (indices 0x5000) =
        [0x1000, 0x2000, 0x3000, 0x4000] := by decide +kernel
    have high : 5 ≤ frame := by
      have known := (Finset.mem_filter.mp low).1
      simp only [free, Finset.mem_insert, Finset.mem_singleton] at known
      omega
    simp only [visited, List.mem_cons, List.not_mem_nil, or_false] at member
    rw [Set.disjoint_left]
    intro target inside
    simp only [frameBytes, Set.mem_Ico, PhysAddr.fromFrameNumber, frameSize] at inside ⊢
    omega
  · exact walks_agree ⟨0x1000⟩ ⟨pageAndHugePage, ⟨[0x1F#8], 8, 3, 0⟩⟩ 0x5000 0x7000 .readWrite
      rfl rfl consistent rfl top
  · exact walks_agree ⟨0x1000⟩ ⟨pageAndHugePage, ⟨[0x1F#8], 8, 3, 0⟩⟩ 0x6000 0x7000 .readWrite
      rfl rfl consistent rfl top
  · exact walks_agree ⟨0x1000⟩ ⟨pageAndHugePage, ⟨[0x1F#8], 8, 3, 0⟩⟩ 0x200000 0x7000 .readWrite
      rfl rfl consistent rfl top

/-- With the frame of the top-level table itself free, `map` takes it for each table of the
walk, finds its own pointer at the last and reports a mapping, where the other three walks
find none. -/
theorem walks_disagree :
    FrameAllocator.freeFrames ⟨[0x01#8], 8, 7, 0⟩ = {1, 2, 3, 4, 5, 6, 7} ∧
      ((⟨0x1000⟩ : VirtualMemoryManager).map ⟨fun _ => 0, ⟨[0x01#8], 8, 7, 0⟩⟩ 0 0x3000
        .readWrite).1 = .error .alreadyMapped ∧
      ((⟨0x1000⟩ : VirtualMemoryManager).unmap (fun _ => 0) 0).1 = .error .notMapped ∧
      (⟨0x1000⟩ : VirtualMemoryManager).translate (fun _ => 0) 0 = none ∧
      (⟨0x1000⟩ : VirtualMemoryManager).flagsAt (fun _ => 0) 0 = none := by
  decide +kernel

end XyronOS
