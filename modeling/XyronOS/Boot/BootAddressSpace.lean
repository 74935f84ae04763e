import XyronOS.Boot.Paging

/-!
# The address space at the kernel's entry

The tables of a successful build, read with the kernel's own walk. A present entry
of the eight pages is either a pointer to one of them or a 2 MiB page, so a path
through the tables is one of eight, and the tables form a tree of eight frames.

A lookup follows at most two pointers. Its result in terms of the four indices is
turned into addresses once, and the translation of every canonical address
follows: the identity below 4 GiB, the kernel image at its virtual base, and
nothing else.
-/

namespace XyronOS

open ByteMemory WordBits PageTableEntry VirtAddr RadixTree

namespace Boot

/-- The path at which each of the eight pages is reached. -/
def place : Nat → List (Fin 512)
  | 0 => []
  | 1 => [0]
  | 2 => [0, 0]
  | 3 => [0, 1]
  | 4 => [0, 2]
  | 5 => [0, 3]
  | 6 => [511]
  | _ => [511, 510]

section Slots

variable {pages : Nat → Option Nat} {table : Nat → Nat} {base size : Nat} {before after : Memory}
  (fresh : FreshPages pages) (outcome : BuildOutcome pages table base size before after)

include fresh outcome

theorem BuildOutcome.aligned (request : Nat) (known : request < 8) :
    table request % frameSize = 0 := fresh.aligned _ _ (outcome.answered request known)

theorem BuildOutcome.below (request : Nat) (known : request < 8) :
    table request < identityMapLimit := fresh.below _ _ (outcome.answered request known)

/-- A pointer word to one of the pages is a table slot. -/
theorem BuildOutcome.slots_pointer {depth node request : Nat} {slot : Fin 512} (above : depth < 3)
    (known : request < 8) (entry : readEntry after node slot = pointerEntry (table request)) :
    slots after depth node slot = .table (table request) := by
  have aligned := outcome.aligned fresh request known
  have below := outcome.below fresh request known
  rw [pointerEntry_eq _ aligned below] at entry
  have pointer : addr (newTablePointer (table request)) = table request :=
    addr_newTablePointer _ aligned (by unfold identityMapLimit at below; omega)
  simp [slots, entry, newTablePointer_present, newTablePointer_not_huge, above, pointer]

omit fresh outcome in
/-- A 2 MiB word is a final slot. -/
theorem slots_large {depth node phys : Nat} {slot : Fin 512}
    (entry : readEntry after node slot = largeEntry phys) :
    slots after depth node slot = .leaf ⟨depth, largeEntry phys⟩ := by
  obtain ⟨present, huge⟩ := largeEntry_flags phys
  simp [slots, entry, present, huge]

omit fresh outcome in
theorem slots_zero {depth node : Nat} {slot : Fin 512} (entry : readEntry after node slot = 0) :
    slots after depth node slot = .empty := by
  rw [slots_empty_iff, entry]
  rfl

theorem BuildOutcome.slots_pml4 (slot : Fin 512) :
    slots after 0 (table 0) slot =
      if slot.val = 0 then .table (table 1)
      else if slot.val = 511 then .table (table 6) else .empty := by
  have entry := outcome.built.pml4 slot
  split
  · rename_i first
    rw [if_pos first] at entry
    exact outcome.slots_pointer fresh (by decide) (by decide) entry
  · rename_i later
    rw [if_neg later] at entry
    split
    · rename_i last
      rw [if_pos last] at entry
      exact outcome.slots_pointer fresh (by decide) (by decide) entry
    · rename_i between
      rw [if_neg between] at entry
      exact slots_zero entry

theorem BuildOutcome.slots_identityPdpt (slot : Fin 512) :
    slots after 1 (table 1) slot =
      if slot.val < 4 then .table (table (2 + slot)) else .empty := by
  have entry := outcome.built.identityPdpt slot
  split
  · rename_i early
    rw [if_pos early] at entry
    exact outcome.slots_pointer fresh (by decide) (by omega) entry
  · rename_i late
    rw [if_neg late] at entry
    exact slots_zero entry

theorem BuildOutcome.slots_kernelPdpt (slot : Fin 512) :
    slots after 1 (table 6) slot =
      if slot.val = 510 then .table (table 7) else .empty := by
  have entry := outcome.built.kernelPdpt slot
  split
  · rename_i here
    rw [if_pos here] at entry
    exact outcome.slots_pointer fresh (by decide) (by decide) entry
  · rename_i elsewhere
    rw [if_neg elsewhere] at entry
    exact slots_zero entry

omit fresh in
theorem BuildOutcome.slots_identityPd (gib : Nat) (few : gib < 4) (slot : Fin 512) :
    slots after 2 (table (2 + gib)) slot =
      .leaf ⟨2, largeEntry (gib * oneGib + slot * pageSize2M)⟩ :=
  slots_large (outcome.built.identityPd gib few slot)

omit fresh in
theorem BuildOutcome.slots_kernelPd (slot : Fin 512) :
    slots after 2 (table 7) slot =
      if slot.val < kernelPageCount size then
        .leaf ⟨2, largeEntry (wrappingAdd base (slot * pageSize2M))⟩
      else .empty := by
  have entry := outcome.built.kernelPd slot
  split
  · rename_i inside
    rw [if_pos inside] at entry
    exact slots_large entry
  · rename_i outside
    rw [if_neg outside] at entry
    exact slots_zero entry

/-- Every path through the built tables is the place of one of the eight pages.
The cases follow the levels: a page directory holds no pointer, so no path is
longer than two. -/
theorem BuildOutcome.descend_cases (path : List (Fin 512)) (node : Nat)
    (reached : descend (slots after) 0 (table 0) path = some node) :
    ∃ request < 8, node = table request ∧ path = place request := by
  rcases path with _ | ⟨first, path⟩
  · exact ⟨0, by decide, (Option.some.inj reached).symm, rfl⟩
  rw [descend, outcome.slots_pml4 fresh first] at reached
  by_cases low : first.val = 0
  · have firstIs : first = 0 := Fin.ext low
    simp only [low, if_true] at reached
    rcases path with _ | ⟨second, path⟩
    · exact ⟨1, by decide, (Option.some.inj reached).symm, by rw [firstIs]; rfl⟩
    rw [descend, outcome.slots_identityPdpt fresh second] at reached
    by_cases early : second.val < 4
    · simp only [early, if_true] at reached
      rcases path with _ | ⟨third, path⟩
      · refine ⟨2 + second, by omega, (Option.some.inj reached).symm, ?_⟩
        rw [firstIs]
        have cases : second.val = 0 ∨ second.val = 1 ∨ second.val = 2 ∨ second.val = 3 := by omega
        rcases cases with same | same | same | same <;>
          simp [same, place, Fin.ext_iff]
      · rw [descend, outcome.slots_identityPd second early third] at reached
        simp at reached
    · simp [early] at reached
  by_cases high : first.val = 511
  · have firstIs : first = 511 := Fin.ext high
    rw [if_neg low, if_pos high] at reached
    simp only at reached
    rcases path with _ | ⟨second, path⟩
    · exact ⟨6, by decide, (Option.some.inj reached).symm, by rw [firstIs]; rfl⟩
    rw [descend, outcome.slots_kernelPdpt fresh second] at reached
    by_cases here : second.val = 510
    · have secondIs : second = 510 := Fin.ext here
      simp only [here, if_true] at reached
      rcases path with _ | ⟨third, path⟩
      · exact ⟨7, by decide, (Option.some.inj reached).symm, by rw [firstIs, secondIs]; rfl⟩
      · rw [descend, outcome.slots_kernelPd third] at reached
        by_cases inside : third.val < kernelPageCount size <;> simp [inside] at reached
    · simp [here] at reached
  · simp [low, high] at reached

/-- The built tables can be walked by the kernel. -/
theorem BuildOutcome.walkable : Walkable ⟨table 0⟩ after where
  below node := by
    rintro ⟨path, reached⟩
    obtain ⟨request, known, rfl, _⟩ := outcome.descend_cases fresh path node reached
    exact outcome.below fresh request known
  top slot present := by
    have small (request : Nat) (known : request < 8) : isHuge (pointerEntry (table request)) = false := by
      rw [pointerEntry_eq _ (outcome.aligned fresh request known) (outcome.below fresh request known)]
      exact newTablePointer_not_huge _
    have entry := outcome.built.pml4 slot
    simp only at present ⊢
    rw [entry]
    split
    · exact small 1 (by decide)
    · split
      · exact small 6 (by decide)
      · rfl

/-- The built tables form a tree of distinct aligned frames, the root included. -/
theorem BuildOutcome.tree : Tree (slots after) (table 0) := by
  intro path other node first second
  obtain ⟨request, known, here, rfl⟩ := outcome.descend_cases fresh path node first
  obtain ⟨request', known', here', rfl⟩ := outcome.descend_cases fresh other node second
  have answered := outcome.answered request known
  have answered' := outcome.answered request' known'
  rw [← here] at answered
  rw [← here'] at answered'
  rw [fresh.distinct request request' node answered answered']

/-- The lookup of an address, by its indices. -/
theorem BuildOutcome.lookup_eq (virt : Nat) :
    lookup after (table 0) virt =
      if (pml4Index virt).val = 0 ∧ (pdptIndex virt).val < 4 then
        some ⟨2, largeEntry ((pdptIndex virt) * oneGib + (pdIndex virt) * pageSize2M)⟩
      else if (pml4Index virt).val = 511 ∧ (pdptIndex virt).val = 510 ∧
          (pdIndex virt).val < kernelPageCount size then
        some ⟨2, largeEntry (wrappingAdd base ((pdIndex virt) * pageSize2M))⟩
      else none := by
  simp only [lookup, indices]
  generalize pml4Index virt = first
  generalize pdptIndex virt = second
  generalize pdIndex virt = third
  rw [resolve, outcome.slots_pml4 fresh]
  by_cases low : first.val = 0
  · rw [if_pos low]
    simp only [resolve, outcome.slots_identityPdpt fresh]
    by_cases early : second.val < 4
    · rw [if_pos early, if_pos ⟨low, early⟩]
      simp only [outcome.slots_identityPd _ early]
    · rw [if_neg early, if_neg (fun both => early both.2), if_neg (by omega)]
  · have notLow : ¬ (first.val = 0 ∧ second.val < 4) := fun both => low both.1
    rw [if_neg low, if_neg notLow]
    by_cases high : first.val = 511
    · rw [if_pos high]
      simp only [resolve, outcome.slots_kernelPdpt fresh]
      by_cases here : second.val = 510
      · rw [if_pos here]
        simp only [outcome.slots_kernelPd]
        by_cases inside : third.val < kernelPageCount size
        · rw [if_pos inside, if_pos ⟨high, here, inside⟩]
        · rw [if_neg inside, if_neg (fun all => inside all.2.2)]
      · rw [if_neg here, if_neg (fun all => here all.2.1)]
    · rw [if_neg high, if_neg (fun all => high all.1)]

end Slots

/-- Physical address under a 2 MiB page. -/
theorem physical_large (virt phys : Nat) (aligned : phys % pageSize2M = 0)
    (bounded : phys < 2 ^ 52) :
    Mapping.physical virt ⟨2, largeEntry phys⟩ = phys + virt % pageSize2M := by
  have frame : addr (largeEntry phys) = phys := by
    rw [largeEntry_eq phys aligned, addr_eq]
    unfold pageSize2M at aligned
    omega
  have rounded : phys &&& complement 0x1FFFFF = phys := by
    have cleared := and_complement_low phys 21 (by decide) (by omega)
    unfold pageSize2M at aligned
    rw [show (2 : Nat) ^ 21 - 1 = 0x1FFFFF by decide] at cleared
    omega
  have offset : virt &&& 0x1FFFFF = virt % pageSize2M := and_low virt 21
  have small : virt % pageSize2M < 2 ^ 21 := Nat.mod_lt _ (by decide)
  simp only [Mapping.physical, frame, rounded, offset]
  rw [if_neg (by decide), if_pos trivial, or_eq_add phys _ 21 aligned small]

/-- An address whose upper bits repeat bit 47. -/
def Canonical (virt : Nat) : Prop := virt < 2 ^ 47 ∨ (2 ^ 64 - 2 ^ 47 ≤ virt ∧ virt < 2 ^ 64)

/-- The translation of a canonical address by the built tables. -/
theorem BuildOutcome.translate_eq {pages : Nat → Option Nat} {table : Nat → Nat} {base size : Nat}
    {before after : Memory} (fresh : FreshPages pages)
    (outcome : BuildOutcome pages table base size before after)
    (baseAligned : base % pageSize2M = 0) (sizeAligned : size % pageSize2M = 0)
    (sizePositive : 0 < size) (sizeBounded : size ≤ oneGib) (fits : base + size ≤ identityMapLimit)
    (virt : Nat) (canonical : Canonical virt) :
    (⟨table 0⟩ : VirtualMemoryManager).translate after virt =
      if virt < identityMapLimit then some virt
      else if kernelVirtualBase ≤ virt ∧ virt < kernelVirtualBase + size then
        some (base + (virt - kernelVirtualBase))
      else none := by
  have count : kernelPageCount size = size / pageSize2M := by
    unfold kernelPageCount
    rw [if_neg]
    unfold pageSize2M at *
    omega
  rw [(outcome.walkable fresh).translate_eq virt, outcome.lookup_eq fresh virt]
  simp only [pml4Index_val, pdptIndex_val, pdIndex_val, count]
  unfold Canonical at canonical
  by_cases identity : virt < identityMapLimit
  · rw [if_pos identity, if_pos (by unfold identityMapLimit at identity; omega), Option.map_some,
      physical_large]
    · unfold identityMapLimit at identity
      unfold oneGib pageSize2M
      exact congrArg some (by omega)
    · unfold oneGib pageSize2M
      omega
    · unfold oneGib pageSize2M
      omega
  · rw [if_neg identity]
    rw [if_neg (by unfold identityMapLimit at identity; omega)]
    unfold identityMapLimit pageSize2M oneGib at *
    unfold kernelVirtualBase
    by_cases kernel : 0xFFFFFFFF80000000 ≤ virt ∧ virt < 0xFFFFFFFF80000000 + size
    · have offset : virt / 2 ^ 21 % 512 * 0x200000 + virt % 0x200000 = virt - 0xFFFFFFFF80000000 := by
        omega
      have noCarry : wrappingAdd base (virt / 2 ^ 21 % 512 * 0x200000) =
          base + virt / 2 ^ 21 % 512 * 0x200000 := wrappingAdd_eq _ _ (by omega)
      rw [if_pos kernel, if_pos (by omega), Option.map_some, noCarry, physical_large]
      · unfold pageSize2M
        rw [Nat.add_assoc, offset]
      · unfold pageSize2M
        omega
      · omega
    · rw [if_neg kernel, if_neg (by omega), Option.map_none]

/-- The kernel's walk over the bootloader's tables, on the whole canonical address
space: the first 4 GiB are mapped to themselves, the kernel image at its virtual
base, and nothing else is mapped. -/
theorem translate_buildKernelPageTables {pages : Nat → Option Nat} (fresh : FreshPages pages)
    {memory after : Memory} {base size pml4 : Nat} (baseAligned : base % pageSize2M = 0)
    (sizeAligned : size % pageSize2M = 0) (sizePositive : 0 < size) (sizeBounded : size ≤ oneGib)
    (fits : base + size ≤ identityMapLimit)
    (built : buildKernelPageTables pages memory base size = (pml4, after)) (succeeded : pml4 ≠ 0)
    (virt : Nat) (canonical : Canonical virt) :
    (⟨pml4⟩ : VirtualMemoryManager).translate after virt =
      if virt < identityMapLimit then some virt
      else if kernelVirtualBase ≤ virt ∧ virt < kernelVirtualBase + size then
        some (base + (virt - kernelVirtualBase))
      else none := by
  obtain ⟨table, rfl, outcome⟩ := buildKernelPageTables_outcome fresh built succeeded
  exact outcome.translate_eq fresh baseAligned sizeAligned sizePositive sizeBounded fits virt
    canonical

/-- Eight pages that follow the null page. -/
def firstPages (request : Nat) : Option Nat :=
  if request < 8 then some ((request + 1) * 4096) else none

theorem firstPages_fresh : FreshPages firstPages := by
  have shape (request address : Nat) (answered : firstPages request = some address) :
      request < 8 ∧ address = (request + 1) * 4096 := by
    unfold firstPages at answered
    split at answered
    · rename_i known
      exact ⟨known, (Option.some.inj answered).symm⟩
    · cases answered
  constructor
  · intro request address answered
    have known := shape request address answered
    unfold frameSize
    omega
  · intro request address answered
    have known := shape request address answered
    unfold identityMapLimit
    omega
  · intro request other address answered answeredOther
    have known := shape request address answered
    have knownOther := shape other address answeredOther
    omega

/-- A kernel of one 2 MiB page, loaded at 2 MiB. -/
theorem translate_small_kernel :
    ∃ after, buildKernelPageTables firstPages (fun _ => 0) 0x200000 0x200000 = (0x1000, after) ∧
      (⟨0x1000⟩ : VirtualMemoryManager).translate after 0xFFFFFFFF80001234 = some 0x201234 := by
  have root : (buildKernelPageTables firstPages (fun _ => 0) 0x200000 0x200000).1 = 0x1000 := by
    decide +kernel
  generalize result : buildKernelPageTables firstPages (fun _ => 0) 0x200000 0x200000 = outcome
    at root
  obtain ⟨pml4, after⟩ := outcome
  subst root
  refine ⟨after, rfl, ?_⟩
  exact translate_buildKernelPageTables firstPages_fresh (by decide) (by decide) (by decide)
    (by decide) (by decide) result (by decide) 0xFFFFFFFF80001234 (.inr (by decide))

end Boot

end XyronOS
