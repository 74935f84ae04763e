import XyronOS.Mm.TableOwnership

/-!
# The page tables the bootloader builds

`BuildKernelPageTables` fills eight pages it gets from the firmware: a PML4, a
PDPT and four PDs for the identity map of the first 4 GiB, and a PDPT and a PD for
the kernel in the higher half. Both regions use 2 MiB entries. The firmware's
answer to the `n`-th page request is a parameter, an error being no address.

`Built` states what the eight pages hold once the builder has succeeded. The
tables reached from the returned PML4 are exactly these pages, each at one place;
the kernel's own walk over them is computed from the same statement.
-/

namespace XyronOS

open ByteMemory WordBits PageTableEntry VirtAddr RadixTree

namespace Boot

def ptePresent : Nat := 0x1

def pteWritable : Nat := 0x2

/-- At the PD level: the entry maps 2 MiB itself. -/
def ptePs : Nat := 0x80

def entriesPerTable : Nat := 512

def oneGib : Nat := 0x40000000

def pageSize2M : Nat := 0x200000

/-- Where the kernel image is mapped. -/
def kernelVirtualBase : Nat := 0xFFFFFFFF80000000

/-- The word written for a pointer to a next-level table. -/
def pointerEntry (table : Nat) : Nat := table ||| ptePresent ||| pteWritable

/-- The word written for a 2 MiB page. -/
def largeEntry (physAddr : Nat) : Nat := physAddr ||| ptePresent ||| pteWritable ||| ptePs

/-- One zeroed page, given the firmware's answer to the request; a failed request
yields the null address. -/
def allocateZeroedPage (answer : Option Nat) (memory : Memory) : Nat × Memory :=
  match answer with
  | none => (0, memory)
  | some address => (address, storeWords memory address (fun _ => 0) (frameSize / 8))

/-- The loop over the GiBs of the identity map, after its first `gib` rounds. The
flag tells whether every page directory was obtained. -/
def mapIdentity (pages : Nat → Option Nat) (identityPdpt : Nat) : Nat → Memory → Bool × Memory
  | 0, memory => (true, memory)
  | gib + 1, memory =>
      match mapIdentity pages identityPdpt gib memory with
      | (false, memory) => (false, memory)
      | (true, memory) =>
        match allocateZeroedPage (pages (2 + gib)) memory with
        | (pd, memory) =>
          if pd = 0 then (false, memory)
          else
            let memory := storeWords memory pd
              (fun entry => largeEntry (gib * oneGib + entry * pageSize2M)) entriesPerTable
            (true, store64 memory (identityPdpt + 8 * gib) (pointerEntry pd))

/-- Number of 2 MiB entries of the kernel image. -/
def kernelPageCount (kernelSizeBytes : Nat) : Nat :=
  if kernelSizeBytes / pageSize2M = 0 then 1 else kernelSizeBytes / pageSize2M

/-- Build the identity map and the kernel mapping; the result is the address of
the PML4, or null on any failure. -/
def buildKernelPageTables (pages : Nat → Option Nat) (memory : Memory)
    (kernelPhysicalBase kernelSizeBytes : Nat) : Nat × Memory :=
  match allocateZeroedPage (pages 0) memory with
  | (pml4, memory) =>
    if pml4 = 0 then (0, memory)
    else
      match allocateZeroedPage (pages 1) memory with
      | (identityPdpt, memory) =>
        if identityPdpt = 0 then (0, memory)
        else
          match mapIdentity pages identityPdpt (identityMapLimit / oneGib) memory with
          | (false, memory) => (0, memory)
          | (true, memory) =>
            let memory := store64 memory (pml4 + 8 * 0) (pointerEntry identityPdpt)
            match allocateZeroedPage (pages 6) memory with
            | (kernelPdpt, memory) =>
              if kernelPdpt = 0 then (0, memory)
              else
                match allocateZeroedPage (pages 7) memory with
                | (kernelPd, memory) =>
                  if kernelPd = 0 then (0, memory)
                  else if kernelPageCount kernelSizeBytes > entriesPerTable then (0, memory)
                  else
                    let memory := storeWords memory kernelPd
                      (fun entry => largeEntry
                        (wrappingAdd kernelPhysicalBase (entry * pageSize2M)))
                      (kernelPageCount kernelSizeBytes)
                    let memory := store64 memory (kernelPdpt + 8 * 510) (pointerEntry kernelPd)
                    let memory := store64 memory (pml4 + 8 * 511) (pointerEntry kernelPdpt)
                    (pml4, memory)

/-- The firmware hands out distinct page-aligned pages below the identity-map limit. -/
structure FreshPages (pages : Nat → Option Nat) : Prop where
  aligned : ∀ request address, pages request = some address → address % frameSize = 0
  below : ∀ request address, pages request = some address → address < identityMapLimit
  distinct : ∀ request other address, pages request = some address →
    pages other = some address → request = other

section Entries

variable (memory : Memory) (page table count : Nat) (slot : Fin 512)

/-- Filling the first entries of a page sets them and no entry of another page. -/
theorem readEntry_storeWords (value : Nat → Nat) (pageAligned : page % frameSize = 0)
    (tableAligned : table % frameSize = 0) (fits : count ≤ 512) :
    readEntry (storeWords memory page value count) table slot =
      if table = page ∧ slot.val < count then value slot % 2 ^ 64
      else readEntry memory table slot := by
  have slotBound := slot.isLt
  split
  · rename_i inside
    rw [inside.1]
    exact load64_storeWords memory page value count slot inside.2
  · rename_i outside
    apply load64_congr
    intro target lower upper
    apply storeWords_outside
    unfold frameSize at pageAligned tableAligned
    omega

/-- Setting one entry changes that entry alone. -/
theorem readEntry_store64 (position value : Nat) (pageAligned : page % frameSize = 0)
    (tableAligned : table % frameSize = 0) (inside : position < 512) (fits : value < 2 ^ 64) :
    readEntry (store64 memory (page + 8 * position) value) table slot =
      if table = page ∧ slot.val = position then value else readEntry memory table slot := by
  have slotBound := slot.isLt
  split
  · rename_i same
    rw [readEntry, same.1, same.2, load64_store64_same, Nat.mod_eq_of_lt fits]
  · rename_i different
    apply load64_store64_apart
    unfold frameSize at pageAligned tableAligned
    omega

end Entries

/-- A pointer to a frame of the identity map is the kernel's own table pointer. -/
theorem pointerEntry_eq (table : Nat) (aligned : table % frameSize = 0)
    (below : table < identityMapLimit) : pointerEntry table = newTablePointer table := by
  have small : table < 2 ^ 52 := by
    unfold identityMapLimit at below
    omega
  have masked : table &&& addrMask = table := addr_of_aligned table aligned small
  rw [newTablePointer, masked]
  rfl

/-- The word of a 2 MiB page is present and large whatever the address. -/
theorem largeEntry_flags (physAddr : Nat) :
    isPresent (largeEntry physAddr) = true ∧ isHuge (largeEntry physAddr) = true := by
  have bit (position : Nat) : ((largeEntry physAddr &&& 1 <<< position) != 0) =
      (largeEntry physAddr).testBit position := by
    rw [flag_eq, Nat.testBit_eq_decide_div_mod_eq]
  constructor
  · rw [isPresent, flagPresent, bit]
    simp [largeEntry, ptePresent, pteWritable, ptePs]
  · rw [isHuge, rawHasFlag, flagPageSize, bit]
    simp only [largeEntry, ptePs, Nat.testBit_or, Bool.or_eq_true]
    exact .inr (by decide)

/-- The word of a 2 MiB page at an aligned address. -/
theorem largeEntry_eq (physAddr : Nat) (aligned : physAddr % pageSize2M = 0) :
    largeEntry physAddr = physAddr + 0x83 := by
  have joined : largeEntry physAddr = physAddr ||| 0x83 := by
    simp only [largeEntry, ptePresent, pteWritable, ptePs, Nat.or_assoc]
    rfl
  rw [joined, or_eq_add physAddr 0x83 21 aligned (by decide)]

theorem largeEntry_lt (physAddr : Nat) (fits : physAddr < 2 ^ 64) :
    largeEntry physAddr < 2 ^ 64 := by
  simp only [largeEntry, ptePresent, pteWritable, ptePs]
  exact Nat.or_lt_two_pow (Nat.or_lt_two_pow (Nat.or_lt_two_pow fits (by decide)) (by decide))
    (by decide)

/-- What the eight pages hold after a successful build. -/
structure Built (memory : Memory) (table : Nat → Nat) (base count : Nat) : Prop where
  pml4 : ∀ slot : Fin 512, readEntry memory (table 0) slot =
    if slot.val = 0 then pointerEntry (table 1)
    else if slot.val = 511 then pointerEntry (table 6) else 0
  identityPdpt : ∀ slot : Fin 512, readEntry memory (table 1) slot =
    if slot.val < 4 then pointerEntry (table (2 + slot)) else 0
  identityPd : ∀ gib < 4, ∀ slot : Fin 512, readEntry memory (table (2 + gib)) slot =
    largeEntry (gib * oneGib + slot * pageSize2M)
  kernelPdpt : ∀ slot : Fin 512, readEntry memory (table 6) slot =
    if slot.val = 510 then pointerEntry (table 7) else 0
  kernelPd : ∀ slot : Fin 512, readEntry memory (table 7) slot =
    if slot.val < count then largeEntry (wrappingAdd base (slot * pageSize2M)) else 0

/-- A request that does not yield the null address was answered, and its page is
zeroed. -/
theorem allocateZeroedPage_cases (answer : Option Nat) (memory : Memory) :
    (allocateZeroedPage answer memory).1 = 0 ∨
      ∃ address, answer = some address ∧ address ≠ 0 ∧
        allocateZeroedPage answer memory = (address, zeroTable memory address) := by
  cases answer with
  | none => exact .inl rfl
  | some address =>
    by_cases null : address = 0
    · exact .inl null
    · exact .inr ⟨address, rfl, null, rfl⟩

section Loop

variable {pages : Nat → Option Nat} (fresh : FreshPages pages)

include fresh in
/-- Distinct requests have distinct answers. -/
theorem FreshPages.apart {request other address elsewhere : Nat}
    (answered : pages request = some address) (answeredOther : pages other = some elsewhere)
    (different : request ≠ other) : address ≠ elsewhere := by
  rintro rfl
  exact different (fresh.distinct request other address answered answeredOther)

include fresh in
theorem FreshPages.pointerEntry_lt {request page : Nat} (answered : pages request = some page) :
    pointerEntry page < 2 ^ 64 := by
  rw [pointerEntry_eq page (fresh.aligned _ _ answered) (fresh.below _ _ answered)]
  exact newTablePointer_lt page

/-- What the first `gib` rounds of the identity loop leave behind: the page
directories are full, the PDPT points to them, and nothing else changed. -/
structure IdentityFilled (pages : Nat → Option Nat) (identityPdpt gib : Nat)
    (before after : Memory) : Prop where
  answered : ∀ round < gib, ∃ pd, pages (2 + round) = some pd ∧
    ∀ slot : Fin 512, readEntry after pd slot =
      largeEntry (round * oneGib + slot * pageSize2M)
  linked : ∀ (round : Nat) (pd : Nat) (slot : Fin 512), round < gib → slot.val = round →
    pages (2 + round) = some pd → readEntry after identityPdpt slot = pointerEntry pd
  unlinked : ∀ slot : Fin 512, gib ≤ slot.val →
    readEntry after identityPdpt slot = readEntry before identityPdpt slot
  bytes : ∀ target, target ∉ frameBytes identityPdpt →
    (∀ round < gib, ∀ pd, pages (2 + round) = some pd → target ∉ frameBytes pd) →
    after target = before target

include fresh in
/-- One further round: a page is zeroed and filled, and one more entry of the PDPT
is set. The pages of earlier rounds are other pages. -/
theorem IdentityFilled.step {identityPdpt gib pd : Nat} {before after : Memory}
    (filled : IdentityFilled pages identityPdpt gib before after)
    (first : pages 1 = some identityPdpt) (next : pages (2 + gib) = some pd) (few : gib < 4) :
    IdentityFilled pages identityPdpt (gib + 1) before
      (store64 (storeWords (zeroTable after pd)
        (pd) (fun entry => largeEntry (gib * oneGib + entry * pageSize2M)) entriesPerTable)
        (identityPdpt + 8 * gib) (pointerEntry pd)) := by
  have pdptAligned := fresh.aligned _ _ first
  have pdAligned := fresh.aligned _ _ next
  have pointerSmall := fresh.pointerEntry_lt next
  have different : identityPdpt ≠ pd := fresh.apart first next (by omega)
  have entries (table : Nat) (aligned : table % frameSize = 0) (slot : Fin 512) :
      readEntry (store64 (storeWords (zeroTable after pd) pd
          (fun entry => largeEntry (gib * oneGib + entry * pageSize2M)) entriesPerTable)
          (identityPdpt + 8 * gib) (pointerEntry pd)) table slot =
        if table = identityPdpt ∧ slot.val = gib then pointerEntry pd
        else if table = pd then largeEntry (gib * oneGib + slot * pageSize2M)
        else readEntry after table slot := by
    rw [readEntry_store64 _ _ _ _ _ _ pdptAligned aligned (by omega) pointerSmall,
      readEntry_storeWords _ _ _ _ _ _ pdAligned aligned (by decide)]
    have slotBound := slot.isLt
    by_cases same : table = pd
    · have small : largeEntry (gib * oneGib + slot * pageSize2M) < 2 ^ 64 := by
        apply largeEntry_lt
        unfold oneGib pageSize2M
        omega
      simp only [same, entriesPerTable, slotBound, and_self, if_true, Nat.mod_eq_of_lt small]
    · simp [same, readEntry_zeroTable_other _ _ _ _ pdAligned aligned same]
  constructor
  · intro round earlier
    by_cases last : round = gib
    · subst last
      refine ⟨pd, next, ?_⟩
      intro slot
      rw [entries pd pdAligned slot, if_neg (fun both => different both.1.symm), if_pos rfl]
    · obtain ⟨old, answered, content⟩ := filled.answered round (by omega)
      refine ⟨old, answered, ?_⟩
      intro slot
      rw [entries old (fresh.aligned _ _ answered) slot,
        if_neg (fun both => fresh.apart first answered (by omega) both.1.symm),
        if_neg (fresh.apart answered next (by omega)), content slot]
  · intro round old slot earlier position answered
    rw [entries identityPdpt pdptAligned slot]
    by_cases last : round = gib
    · subst last
      rw [if_pos ⟨rfl, position⟩, Option.some.inj (answered.symm.trans next)]
    · rw [if_neg (by omega), if_neg different]
      exact filled.linked round old slot (by omega) position answered
  · intro slot later
    rw [entries identityPdpt pdptAligned slot, if_neg (by omega), if_neg different]
    exact filled.unlinked slot (by omega)
  · intro target outside outsidePds
    have outsidePd := outsidePds gib (by omega) pd next
    have kept := filled.bytes target outside
      (fun round earlier => outsidePds round (by omega))
    rw [← kept, store64_outside, storeWords_outside, zeroTable_outside _ _ outsidePd]
    · simp only [frameBytes, Set.mem_Ico, frameSize, entriesPerTable] at outsidePd ⊢
      omega
    · simp only [frameBytes, Set.mem_Ico, frameSize] at outside
      omega

include fresh in
/-- The identity loop succeeds only by filling every page directory. -/
theorem mapIdentity_filled {identityPdpt : Nat} (first : pages 1 = some identityPdpt) (gib : Nat)
    (few : gib ≤ 4) {before after : Memory}
    (looped : mapIdentity pages identityPdpt gib before = (true, after)) :
    IdentityFilled pages identityPdpt gib before after := by
  induction gib generalizing after with
  | zero =>
    have same : before = after := (Prod.mk.inj looped).2
    subst same
    exact ⟨by simp, by simp, fun _ _ => rfl, fun _ _ _ => rfl⟩
  | succ gib inductionHypothesis =>
    rw [mapIdentity] at looped
    generalize earlier : mapIdentity pages identityPdpt gib before = outcome at looped
    obtain ⟨succeeded, middle⟩ := outcome
    cases succeeded with
    | false => simp at looped
    | true =>
      have filled := inductionHypothesis (by omega) earlier
      rcases allocateZeroedPage_cases (pages (2 + gib)) middle with null | ⟨pd, next, nonzero, taken⟩
      · simp [null] at looped
      · simp only [taken, nonzero, if_false, Prod.mk.injEq, true_and] at looped
        rw [← looped]
        exact filled.step fresh first next (by omega)

end Loop

/-- Everything a successful build establishes: the eight requests were answered,
the pages hold the two mappings, and no byte outside them changed. -/
structure BuildOutcome (pages : Nat → Option Nat) (table : Nat → Nat) (base size : Nat)
    (before after : Memory) : Prop where
  answered : ∀ request < 8, pages request = some (table request)
  built : Built after table base (kernelPageCount size)
  count : kernelPageCount size ≤ 512
  bytes : ∀ target, (∀ request < 8, target ∉ frameBytes (table request)) →
    after target = before target

/-- Inversion of a successful build: every request was answered, and the final
memory is the one the sequence of writes leaves. -/
theorem buildKernelPageTables_inversion {pages : Nat → Option Nat} {memory after : Memory}
    {base size pml4 : Nat}
    (built : buildKernelPageTables pages memory base size = (pml4, after)) (nonzero : pml4 ≠ 0) :
    ∃ identityPdpt kernelPdpt kernelPd middle,
      pages 0 = some pml4 ∧ pages 1 = some identityPdpt ∧
      mapIdentity pages identityPdpt 4 (zeroTable (zeroTable memory pml4) identityPdpt) =
        (true, middle) ∧
      pages 6 = some kernelPdpt ∧ pages 7 = some kernelPd ∧ kernelPageCount size ≤ 512 ∧
      after = store64 (store64 (storeWords (zeroTable (zeroTable
        (store64 middle (pml4 + 8 * 0) (pointerEntry identityPdpt)) kernelPdpt) kernelPd) kernelPd
        (fun entry => largeEntry (wrappingAdd base (entry * pageSize2M))) (kernelPageCount size))
        (kernelPdpt + 8 * 510) (pointerEntry kernelPd)) (pml4 + 8 * 511)
        (pointerEntry kernelPdpt) := by
  have failed (memory : Memory) : (0, memory) ≠ (pml4, after) := by
    intro same
    exact nonzero (Prod.mk.inj same).1.symm
  rw [buildKernelPageTables] at built
  rcases allocateZeroedPage_cases (pages 0) memory with null | ⟨root, answered0, root0, taken0⟩
  · simp only [null, if_true] at built
    exact absurd built (failed _)
  simp only [taken0, root0, if_false] at built
  rcases allocateZeroedPage_cases (pages 1) (zeroTable memory root) with
    null | ⟨identityPdpt, answered1, identity0, taken1⟩
  · simp only [null, if_true] at built
    exact absurd built (failed _)
  simp only [taken1, identity0, if_false] at built
  generalize looped : mapIdentity pages identityPdpt (identityMapLimit / oneGib)
    (zeroTable (zeroTable memory root) identityPdpt) = outcome at built
  obtain ⟨succeeded, middle⟩ := outcome
  cases succeeded with
  | false => exact absurd built (failed _)
  | true =>
    simp only at built
    rcases allocateZeroedPage_cases (pages 6)
        (store64 middle (root + 8 * 0) (pointerEntry identityPdpt)) with
      null | ⟨kernelPdpt, answered6, kernel0, taken6⟩
    · simp only [null, if_true] at built
      exact absurd built (failed _)
    simp only [taken6, kernel0, if_false] at built
    rcases allocateZeroedPage_cases (pages 7) (zeroTable
        (store64 middle (root + 8 * 0) (pointerEntry identityPdpt)) kernelPdpt) with
      null | ⟨kernelPd, answered7, directory0, taken7⟩
    · simp only [null, if_true] at built
      exact absurd built (failed _)
    simp only [taken7, directory0, if_false] at built
    by_cases large : kernelPageCount size > entriesPerTable
    · simp only [large, if_true] at built
      exact absurd built (failed _)
    · simp only [large, if_false, Prod.mk.injEq] at built
      obtain ⟨rfl, rfl⟩ := built
      exact ⟨identityPdpt, kernelPdpt, kernelPd, middle, answered0, answered1, looped, answered6,
        answered7, Nat.not_lt.mp large, rfl⟩

/-- The identity loop succeeds once every page directory is obtained. -/
theorem mapIdentity_succeeds {pages : Nat → Option Nat} (identityPdpt gib : Nat) (memory : Memory)
    (answered : ∀ round < gib, ∃ pd, pages (2 + round) = some pd ∧ pd ≠ 0) :
    (mapIdentity pages identityPdpt gib memory).1 = true := by
  induction gib with
  | zero => rfl
  | succ gib inductionHypothesis =>
    have earlier := inductionHypothesis fun round few => answered round (by omega)
    obtain ⟨pd, obtained, nonzero⟩ := answered gib (by omega)
    rw [mapIdentity]
    generalize mapIdentity pages identityPdpt gib memory = outcome at earlier
    obtain ⟨succeeded, middle⟩ := outcome
    subst earlier
    simp [allocateZeroedPage, obtained, nonzero]

/-- The build succeeds if eight pages other than the null page are obtained and the
kernel fits one page directory. -/
theorem buildKernelPageTables_succeeds {pages : Nat → Option Nat} (memory : Memory)
    (base size : Nat) (answered : ∀ request < 8, ∃ page, pages request = some page ∧ page ≠ 0)
    (few : kernelPageCount size ≤ entriesPerTable) :
    (buildKernelPageTables pages memory base size).1 ≠ 0 := by
  obtain ⟨pml4, answered0, nonzero0⟩ := answered 0 (by decide)
  obtain ⟨identityPdpt, answered1, nonzero1⟩ := answered 1 (by decide)
  obtain ⟨kernelPdpt, answered6, nonzero6⟩ := answered 6 (by decide)
  obtain ⟨kernelPd, answered7, nonzero7⟩ := answered 7 (by decide)
  have looped := mapIdentity_succeeds identityPdpt (identityMapLimit / oneGib)
    (storeWords (storeWords memory pml4 (fun _ => 0) (frameSize / 8)) identityPdpt (fun _ => 0)
      (frameSize / 8))
    (fun round known => answered (2 + round) (by
      have rounds : identityMapLimit / oneGib = 4 := rfl
      omega))
  rw [buildKernelPageTables]
  simp only [allocateZeroedPage, answered0, answered1, answered6, answered7, nonzero0, nonzero1,
    if_false]
  generalize mapIdentity pages identityPdpt (identityMapLimit / oneGib) _ = outcome at looped
  obtain ⟨succeeded, middle⟩ := outcome
  subst looped
  simp only [nonzero6, nonzero7, if_false, Nat.not_lt.mpr few]
  exact nonzero0

/-- The writes after the identity loop: the PML4 points to the two PDPTs, and the
kernel's page directory is filled and linked. -/
def linkKernel (memory : Memory) (table : Nat → Nat) (base count : Nat) : Memory :=
  let memory := store64 memory (table 0 + 8 * 0) (pointerEntry (table 1))
  let memory := zeroTable (zeroTable memory (table 6)) (table 7)
  let memory := storeWords memory (table 7)
    (fun entry => largeEntry (wrappingAdd base (entry * pageSize2M))) count
  store64 (store64 memory (table 6 + 8 * 510) (pointerEntry (table 7))) (table 0 + 8 * 511)
    (pointerEntry (table 6))

section Tables

variable {pages : Nat → Option Nat} (fresh : FreshPages pages) {table : Nat → Nat}
  (answered : ∀ request < 8, pages request = some (table request))

include fresh answered

theorem FreshPages.table_aligned {request : Nat} (known : request < 8) :
    table request % frameSize = 0 := fresh.aligned _ _ (answered request known)

theorem FreshPages.table_ne {request other : Nat} (known : request < 8) (known' : other < 8)
    (different : request ≠ other) : table request ≠ table other :=
  fresh.apart (answered request known) (answered other known') different

/-- Any entry read through all the writes after the identity loop. -/
theorem readEntry_linkKernel (memory : Memory) (base count : Nat) (few : count ≤ 512) (page : Nat)
    (aligned : page % frameSize = 0) (slot : Fin 512) :
    readEntry (linkKernel memory table base count) page slot =
      if page = table 0 ∧ slot.val = 511 then pointerEntry (table 6)
      else if page = table 6 ∧ slot.val = 510 then pointerEntry (table 7)
      else if page = table 7 ∧ slot.val < count then
        largeEntry (wrappingAdd base (slot * pageSize2M))
      else if page = table 7 ∨ page = table 6 then 0
      else if page = table 0 ∧ slot.val = 0 then pointerEntry (table 1)
      else readEntry memory page slot := by
  have aligned0 := fresh.table_aligned answered (by decide : 0 < 8)
  have aligned6 := fresh.table_aligned answered (by decide : 6 < 8)
  have aligned7 := fresh.table_aligned answered (by decide : 7 < 8)
  have small : largeEntry (wrappingAdd base (slot * pageSize2M)) < 2 ^ 64 :=
    largeEntry_lt _ (Nat.mod_lt _ (by decide))
  rw [linkKernel, readEntry_store64 _ _ _ _ _ _ aligned0 aligned (by decide)
      (fresh.pointerEntry_lt (answered 6 (by decide))),
    readEntry_store64 _ _ _ _ _ _ aligned6 aligned (by decide)
      (fresh.pointerEntry_lt (answered 7 (by decide))),
    readEntry_storeWords _ _ _ _ _ _ aligned7 aligned few, Nat.mod_eq_of_lt small]
  by_cases directory : page = table 7
  · simp only [directory, readEntry_zeroTable_same, true_or, if_true]
  by_cases kernel : page = table 6
  · rw [readEntry_zeroTable_other _ _ _ _ aligned7 aligned directory]
    simp only [kernel, readEntry_zeroTable_same, or_true, if_true]
  · rw [readEntry_zeroTable_other _ _ _ _ aligned7 aligned directory,
      readEntry_zeroTable_other _ _ _ _ aligned6 aligned kernel,
      readEntry_store64 _ _ _ _ _ _ aligned0 aligned (by decide)
        (fresh.pointerEntry_lt (answered 1 (by decide)))]
    simp only [directory, kernel, false_or, if_false]

omit fresh answered in
/-- Nothing outside three of the pages changes after the identity loop. -/
theorem linkKernel_outside (memory : Memory) (base count target : Nat) (few : count ≤ 512)
    (outside0 : target ∉ frameBytes (table 0)) (outside6 : target ∉ frameBytes (table 6))
    (outside7 : target ∉ frameBytes (table 7)) :
    linkKernel memory table base count target = memory target := by
  have near (page position value : Nat) (memory : Memory) (inside : position < 512)
      (away : target ∉ frameBytes page) :
      store64 memory (page + 8 * position) value target = memory target := by
    apply store64_outside
    simp only [frameBytes, Set.mem_Ico, frameSize] at away
    omega
  have words (value : Nat → Nat) (memory : Memory) :
      storeWords memory (table 7) value count target = memory target := by
    apply storeWords_outside
    simp only [frameBytes, Set.mem_Ico, frameSize] at outside7
    omega
  rw [linkKernel, near _ _ _ _ (by decide) outside0, near _ _ _ _ (by decide) outside6, words,
    zeroTable_outside _ _ outside7, zeroTable_outside _ _ outside6,
    near _ _ _ _ (by decide) outside0]

/-- The identity loop leaves the PML4 as it was zeroed. -/
theorem IdentityFilled.pml4_blank {memory middle : Memory}
    (filled : IdentityFilled pages (table 1) 4 (zeroTable (zeroTable memory (table 0)) (table 1))
      middle) (slot : Fin 512) : readEntry middle (table 0) slot = 0 := by
  have aligned0 := fresh.table_aligned answered (by decide : 0 < 8)
  have aligned1 := fresh.table_aligned answered (by decide : 1 < 8)
  have apart := fresh.table_ne answered (by decide : 0 < 8) (by decide : 1 < 8) (by decide)
  have kept : readEntry middle (table 0) slot =
      readEntry (zeroTable (zeroTable memory (table 0)) (table 1)) (table 0) slot := by
    apply readEntry_congr
    intro target inside
    apply filled.bytes target
    · exact frameBytes_disjoint _ _ aligned1 aligned0 apart target inside
    · intro round few pd other
      exact frameBytes_disjoint _ _ (fresh.aligned _ _ other) aligned0
        (fresh.apart (answered 0 (by decide)) other (by omega)) target inside
  rw [kept, readEntry_zeroTable_other _ _ _ _ aligned1 aligned0 apart, readEntry_zeroTable_same]

/-- The eight pages after both parts of the build. Those of the loop are other pages
than the later writes touch, so there the loop's own result remains. -/
theorem IdentityFilled.built {memory middle : Memory} {base count : Nat} (few : count ≤ 512)
    (filled : IdentityFilled pages (table 1) 4 (zeroTable (zeroTable memory (table 0)) (table 1))
      middle) : Built (linkKernel middle table base count) table base count := by
  have entries (request : Nat) (known : request < 8) (slot : Fin 512) :=
    readEntry_linkKernel fresh answered middle base count few (table request)
      (fresh.table_aligned answered known) slot
  have apart (request other : Nat) (known : request < 8) (known' : other < 8)
      (different : request ≠ other) := fresh.table_ne answered known known' different
  constructor
  · intro slot
    simp only [entries 0 (by decide), apart 0 6 (by decide) (by decide) (by decide),
      apart 0 7 (by decide) (by decide) (by decide), filled.pml4_blank fresh answered, false_and,
      or_false, if_false, true_and]
    split
    · rw [if_neg (by omega)]
    · rfl
  · intro slot
    simp only [entries 1 (by decide), apart 1 0 (by decide) (by decide) (by decide),
      apart 1 6 (by decide) (by decide) (by decide), apart 1 7 (by decide) (by decide) (by decide),
      false_and, or_false, if_false]
    by_cases early : slot.val < 4
    · rw [if_pos early]
      exact filled.linked slot _ slot early rfl (answered (2 + slot) (by omega))
    · rw [if_neg early, filled.unlinked slot (Nat.not_lt.mp early), readEntry_zeroTable_same]
  · intro gib early slot
    obtain ⟨pd, obtained, content⟩ := filled.answered gib early
    obtain rfl : table (2 + gib) = pd :=
      Option.some.inj ((answered (2 + gib) (by omega)).symm.trans obtained)
    simp only [entries (2 + gib) (by omega), apart (2 + gib) 0 (by omega) (by decide) (by omega),
      apart (2 + gib) 6 (by omega) (by decide) (by omega),
      apart (2 + gib) 7 (by omega) (by decide) (by omega), false_and, or_false, if_false, content]
  · intro slot
    simp only [entries 6 (by decide), apart 6 0 (by decide) (by decide) (by decide),
      apart 6 7 (by decide) (by decide) (by decide), false_and, or_true, if_false, if_true,
      true_and]
  · intro slot
    simp only [entries 7 (by decide), apart 7 0 (by decide) (by decide) (by decide),
      apart 7 6 (by decide) (by decide) (by decide), false_and, true_or, if_false, if_true,
      true_and]

end Tables

/-- A successful build with fresh pages has the stated outcome. -/
theorem buildKernelPageTables_outcome {pages : Nat → Option Nat} (fresh : FreshPages pages)
    {memory after : Memory} {base size pml4 : Nat}
    (built : buildKernelPageTables pages memory base size = (pml4, after)) (nonzero : pml4 ≠ 0) :
    ∃ table, table 0 = pml4 ∧ BuildOutcome pages table base size memory after := by
  obtain ⟨identityPdpt, kernelPdpt, kernelPd, middle, answered0, answered1, looped, answered6,
    answered7, count, final⟩ := buildKernelPageTables_inversion built nonzero
  have filled := mapIdentity_filled fresh answered1 4 (Nat.le_refl _) looped
  obtain ⟨table, named⟩ : ∃ table : Nat → Nat, ∀ request page, pages request = some page →
      table request = page :=
    ⟨fun request => (pages request).getD 0, fun request page answer => by simp [answer]⟩
  obtain rfl := named _ _ answered0
  obtain rfl := named _ _ answered1
  obtain rfl := named _ _ answered6
  obtain rfl := named _ _ answered7
  have directory (round : Nat) (early : round < 4) : pages (2 + round) = some (table (2 + round)) := by
    obtain ⟨pd, obtained, _⟩ := filled.answered round early
    rw [named _ _ obtained, obtained]
  have answered : ∀ request < 8, pages request = some (table request) := by
    intro request known
    interval_cases request
    · exact answered0
    · exact answered1
    · exact directory 0 (by decide)
    · exact directory 1 (by decide)
    · exact directory 2 (by decide)
    · exact directory 3 (by decide)
    · exact answered6
    · exact answered7
  rw [final]
  refine ⟨table, rfl, answered, filled.built fresh answered count, count, ?_⟩
  intro target outside
  have loop : middle target = memory target := by
    rw [filled.bytes target (outside 1 (by decide)), zeroTable_outside _ _ (outside 1 (by decide)),
      zeroTable_outside _ _ (outside 0 (by decide))]
    intro round early pd obtained
    rw [← named _ _ obtained]
    exact outside (2 + round) (by omega)
  exact (linkKernel_outside middle base _ target count (outside 0 (by decide))
    (outside 6 (by decide)) (outside 7 (by decide))).trans loop

end Boot

end XyronOS
