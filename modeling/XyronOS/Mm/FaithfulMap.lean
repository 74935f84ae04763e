import XyronOS.Boot.BootAddressSpace
import XyronOS.Mm.AddressSpace

/-!
# What a successful mapping has mapped

`map` checks the alignment of its two arguments and nothing else about them. A leaf
entry keeps bits 51:12 of the frame, and the four indices keep bits 47:12 of the page;
what lies above is dropped on the way into the tables.

A call goes through exactly if both arguments are aligned, the page has no translation
and enough low frames are free for the tables that are missing. It has then mapped what
it was asked to exactly if the frame lies below bit 52 and the page is canonical. A
higher frame comes back as another one, and a non-canonical page makes the canonical
page with the same indices translate.
-/

namespace XyronOS

open ByteMemory WordBits PageTableEntry VirtAddr VirtualMemoryManager Boot

/-- The canonical address with the same lower 48 bits. -/
def signExtend (virt : Nat) : Nat :=
  if virt % 2 ^ 48 < 2 ^ 47 then virt % 2 ^ 48 else virt % 2 ^ 48 + (2 ^ 64 - 2 ^ 48)

/-- A sign-extended address is canonical and has the page number of the original. -/
theorem signExtend_spec (virt : Nat) :
    Canonical (signExtend virt) ∧ pageNumber (signExtend virt) = pageNumber virt := by
  unfold signExtend Canonical pageNumber frameSize
  split <;> omega

/-- Canonical addresses with the same page number lie in the same page. -/
theorem canonical_page {left right : Nat} (first : Canonical left) (second : Canonical right)
    (same : pageNumber left = pageNumber right) : left / frameSize = right / frameSize := by
  unfold Canonical at first second
  unfold pageNumber frameSize at same
  unfold frameSize
  omega

/-- An address in the page of a canonical one is canonical. -/
theorem canonical_of_page {left right : Nat} (first : Canonical left)
    (same : left / frameSize = right / frameSize) : Canonical right := by
  unfold Canonical at first ⊢
  unfold frameSize at same
  omega

/-- What a caller expects of a mapping that succeeded: the page translates to the frame,
unmapping gives the frame back, and no canonical address of another page starts or
stops translating. -/
structure MapsFaithfully (vmm : VirtualMemoryManager) (machine after : Machine)
    (virt phys : Nat) : Prop where
  translated : vmm.translate after.memory virt = some phys
  returned : (vmm.unmap after.memory virt).1 = .ok phys
  others : ∀ address, Canonical address → address / frameSize ≠ virt / frameSize →
    (vmm.translate after.memory address = none ↔ vmm.translate machine.memory address = none)

/-- Arguments that a leaf entry and a four-level walk can represent. -/
structure Representable (virt phys : Nat) : Prop where
  page : Canonical virt
  frame : phys < 2 ^ 52

/-- Nothing else is mapped silently: a call that succeeds maps what it was asked to, and
a call with arguments that cannot be represented fails. -/
structure MapHonest (vmm : VirtualMemoryManager) (machine : Machine) (virt phys : Nat)
    (flags : PageFlags) : Prop where
  faithful : ∀ after, vmm.map machine virt phys flags = (.ok (), after) →
    MapsFaithfully vmm machine after virt phys
  refused : ¬ Representable virt phys → ∃ error, (vmm.map machine virt phys flags).1 = .error error

/-- What `map` asks of its arguments and of the state: alignment, an untranslated page
and free low frames for the missing tables. -/
structure Mappable (vmm : VirtualMemoryManager) (machine : Machine) (virt phys : Nat) : Prop where
  page : virt % frameSize = 0
  frame : phys % frameSize = 0
  absent : vmm.translate machine.memory virt = none
  room : missingTables machine.memory vmm.pml4Phys virt ≤
    (machine.frames.freeBelow identityMapLimit).card

variable {vmm : VirtualMemoryManager} {machine after : Machine} {virt phys : Nat}
  {flags : PageFlags}

/-- On owned tables a page does not translate exactly if its lookup finds nothing. -/
theorem Owned.translate_none_iff (owned : Owned vmm machine) (address : Nat) :
    vmm.translate machine.memory address = none ↔
      lookup machine.memory vmm.pml4Phys address = none := by
  rw [owned.translate_eq, Option.map_eq_none_iff]

/-- `map` succeeds exactly on what it asks for. -/
theorem Owned.map_ok_iff (owned : Owned vmm machine) :
    (∃ after, vmm.map machine virt phys flags = (.ok (), after)) ↔
      Mappable vmm machine virt phys := by
  constructor
  · rintro ⟨after, mapped⟩
    obtain ⟨page, frame, absent, _, added, updated, count⟩ := owned.map_ok mapped
    refine ⟨page, frame, (owned.translate_none_iff virt).mpr absent, ?_⟩
    rw [← count]
    exact Finset.card_le_card updated.fresh
  · rintro ⟨page, frame, absent, room⟩
    generalize result : vmm.map machine virt phys flags = outcome
    obtain ⟨answer, after⟩ := outcome
    cases answer with
    | ok _ => exact ⟨after, rfl⟩
    | error error =>
      rcases owned.map_error_cause result page frame with translated | short
      · exact absurd ((owned.translate_none_iff virt).mp absent) translated
      · exact absurd room (Nat.not_le.mpr short)

section Mapped

variable (owned : Owned vmm machine) (mapped : vmm.map machine virt phys flags = (.ok (), after))

include owned mapped

/-- An address of a mapped page, whatever its bits above 47, translates to the address
field of the leaf. -/
theorem Owned.mapped_translate {address : Nat} (same : pageNumber address = pageNumber virt)
    (start : address % frameSize = 0) :
    vmm.translate after.memory address = some (addr (newLeaf phys flags)) := by
  obtain ⟨_, _, _, looked, _, updated, _⟩ := owned.map_ok mapped
  have offset : address % 4096 = 0 := start
  rw [updated.owned.translate_eq, looked, if_pos same]
  simp [Mapping.physical, offset]

/-- Unmapping a mapped page returns the address field of its leaf. -/
theorem Owned.mapped_unmap : (vmm.unmap after.memory virt).1 = .ok (addr (newLeaf phys flags)) := by
  obtain ⟨page, _, _, looked, _, updated, _⟩ := owned.map_ok mapped
  have found := looked virt
  rw [if_pos rfl] at found
  rcases updated.owned.unmap_cases virt with
    ⟨pt, entry, result, _, lookedUp, _, _⟩ | ⟨error, _, _, none⟩
  · rw [found] at lookedUp
    cases lookedUp
    rw [result]
  · exact absurd found (none page _)

/-- Mapping a page changes no translation of a page with another number. -/
theorem Owned.mapped_elsewhere {address : Nat} (other : pageNumber address ≠ pageNumber virt) :
    vmm.translate after.memory address = vmm.translate machine.memory address := by
  obtain ⟨_, _, _, looked, _, updated, _⟩ := owned.map_ok mapped
  rw [updated.owned.translate_eq, owned.translate_eq, looked, if_neg other]

/-- Mapping a page makes every address with its page number translate, which none did. -/
theorem Owned.mapped_aliases {address : Nat} (same : pageNumber address = pageNumber virt) :
    vmm.translate machine.memory address = none ∧ vmm.translate after.memory address ≠ none := by
  obtain ⟨_, _, _, looked, _, updated, _⟩ := owned.map_ok mapped
  refine ⟨owned.map_absent mapped same, ?_⟩
  rw [updated.owned.translate_eq, looked, if_pos same]
  simp

/-- A mapping that succeeded is the one asked for exactly if its arguments can be
represented. -/
theorem Owned.mapsFaithfully_iff :
    MapsFaithfully vmm machine after virt phys ↔ Representable virt phys := by
  obtain ⟨start, frame, _⟩ := owned.map_ok mapped
  constructor
  · intro faithful
    refine ⟨?_, ?_⟩
    · obtain ⟨canonical, same⟩ := signExtend_spec virt
      obtain ⟨before, now⟩ := owned.mapped_aliases mapped same
      by_contra foreign
      have elsewhere : signExtend virt / frameSize ≠ virt / frameSize :=
        fun page => foreign (canonical_of_page canonical page)
      exact now ((faithful.others _ canonical elsewhere).mpr before)
    · have stored := faithful.translated
      rw [owned.mapped_translate mapped rfl start] at stored
      rw [← Option.some.inj stored, addr_eq]
      omega
  · rintro ⟨page, low⟩
    have kept := addr_newLeaf phys flags frame low
    refine ⟨?_, ?_, ?_⟩
    · rw [owned.mapped_translate mapped rfl start, kept]
    · rw [owned.mapped_unmap mapped, kept]
    · intro address canonical elsewhere
      have other : pageNumber address ≠ pageNumber virt :=
        fun same => elsewhere (canonical_page canonical page same)
      rw [owned.mapped_elsewhere mapped other]

end Mapped

/-- `map` never maps something else silently exactly if every call that goes through has
arguments that can be represented: its alignment checks refuse neither a frame with bits
above 51 nor a page that is not canonical. -/
theorem map_honest_iff (owned : Owned vmm machine) (virt phys : Nat) (flags : PageFlags) :
    MapHonest vmm machine virt phys flags ↔
      (Mappable vmm machine virt phys → Representable virt phys) := by
  constructor
  · intro honest mappable
    obtain ⟨after, mapped⟩ : ∃ after, vmm.map machine virt phys flags = (.ok (), after) :=
      owned.map_ok_iff.mpr mappable
    exact (owned.mapsFaithfully_iff mapped).mp (honest.faithful after mapped)
  · intro implied
    refine ⟨?_, ?_⟩
    · intro after mapped
      exact (owned.mapsFaithfully_iff mapped).mpr
        (implied (owned.map_ok_iff.mp ⟨after, mapped⟩))
    · intro foreign
      generalize result : vmm.map machine virt phys flags = outcome
      obtain ⟨answer, after⟩ := outcome
      cases answer with
      | error error => exact ⟨error, rfl⟩
      | ok _ => exact absurd (implied (owned.map_ok_iff.mp ⟨after, result⟩)) foreign

/-- A low frame is mapped honestly at a page of the lower half. -/
theorem map_honest_empty : MapHonest ⟨0x1000⟩ emptyMachine 0x200000 0x3000 .readWrite :=
  (map_honest_iff owned_emptyMachine 0x200000 0x3000 .readWrite).mpr
    fun _ => ⟨.inl (by decide), by decide⟩

/-- What a call of `map` on the cleared machine answers, and what a page translates to
afterwards. -/
def mapThenTranslate (virt phys address : Nat) : Except MapError Unit × Option Nat :=
  let (answer, after) := (VirtualMemoryManager.mk 0x1000).map emptyMachine virt phys .readWrite
  (answer, (VirtualMemoryManager.mk 0x1000).translate after.memory address)

/-- On the cleared machine every aligned call reports success, and the addresses with the
page number asked for translate to the masked frame. -/
theorem mapThenTranslate_eq {virt phys address : Nat} (aligned : virt % frameSize = 0)
    (physAligned : phys % frameSize = 0) (same : pageNumber address = pageNumber virt)
    (start : address % frameSize = 0) :
    mapThenTranslate virt phys address = (.ok (), some (addr (newLeaf phys .readWrite))) := by
  obtain ⟨after, mapped⟩ := map_emptyMachine .readWrite aligned physAligned
  rw [mapThenTranslate, mapped]
  exact congrArg _ (owned_emptyMachine.mapped_translate mapped same start)

/-- A call on the cleared machine that reports success, with arguments that cannot be
represented, is not honest. -/
theorem dishonest_of_ok {virt phys address : Nat} {frame : Option Nat}
    (answer : mapThenTranslate virt phys address = (.ok (), frame))
    (foreign : ¬ Representable virt phys) :
    ¬ MapHonest ⟨0x1000⟩ emptyMachine virt phys .readWrite := by
  intro honest
  obtain ⟨error, failed⟩ := honest.refused foreign
  have succeeded : ((VirtualMemoryManager.mk 0x1000).map emptyMachine virt phys .readWrite).1 =
      .ok () := congrArg Prod.fst answer
  rw [failed] at succeeded
  cases succeeded

/-- A frame with bit 52 set is mapped as the frame without it, and a page with bit 48 set
as the canonical page without it, which had no translation. Both calls report success. -/
theorem map_dishonest : Owned ⟨0x1000⟩ emptyMachine ∧
    mapThenTranslate 0x200000 (2 ^ 52 + 0x3000) 0x200000 = (.ok (), some 0x3000) ∧
    ¬ MapHonest ⟨0x1000⟩ emptyMachine 0x200000 (2 ^ 52 + 0x3000) .readWrite ∧
    (VirtualMemoryManager.mk 0x1000).translate emptyMachine.memory 0x200000 = none ∧
    mapThenTranslate (2 ^ 48 + 0x200000) 0x3000 0x200000 = (.ok (), some 0x3000) ∧
    ¬ MapHonest ⟨0x1000⟩ emptyMachine (2 ^ 48 + 0x200000) 0x3000 .readWrite := by
  have highFrame : mapThenTranslate 0x200000 (2 ^ 52 + 0x3000) 0x200000 =
      (.ok (), some 0x3000) := mapThenTranslate_eq (by decide) (by decide) rfl (by decide)
  have highPage : mapThenTranslate (2 ^ 48 + 0x200000) 0x3000 0x200000 =
      (.ok (), some 0x3000) := mapThenTranslate_eq (by decide) (by decide) (by decide) (by decide)
  refine ⟨owned_emptyMachine, highFrame, ?_, by decide +kernel, highPage, ?_⟩
  · exact dishonest_of_ok highFrame fun kept => absurd kept.frame (by decide)
  · refine dishonest_of_ok highPage fun kept => ?_
    have canonical := kept.page
    unfold Canonical at canonical
    omega

end XyronOS
