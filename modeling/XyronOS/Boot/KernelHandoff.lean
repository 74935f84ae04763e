import XyronOS.Boot.BootAddressSpace
import XyronOS.Boot.KernelImage

/-!
# From the loader to the page tables

The part of `EfiMain` between the load of the kernel and the exit from boot
services: the kernel is loaded, a page for the boot information and a stack are
obtained, and the page tables are built from the base and the size the loader
returned.

The loader places an address at its distance from the lowest loadable address of
the file. The page tables map the same pages from the constant virtual base of the
kernel. The two agree on every file whose lowest loadable address is that base. On
any other file the walk reads the image at a fixed distance from where it should,
which no file byte other than zero survives: its copy at that distance would have
to be a file byte again, and so on past the end of the address space.
-/

namespace XyronOS

open ByteMemory WordBits

namespace Boot

/-- The text `XOSBOOT1` as a little-endian word. -/
def bootInfoMagic : Nat :=
  0x58 ||| (0x4F <<< 8) ||| (0x53 <<< 16) ||| (0x42 <<< 24) ||| (0x4F <<< 32) |||
    (0x4F <<< 40) ||| (0x54 <<< 48) ||| (0x31 <<< 56)

def bootInfoVersion : Nat := 1

/-- Size of `BOOT_INFO`. -/
def bootInfoSize : Nat := 96

def kernelStackPages : Nat := 16

/-- Zero the boot information and enter what the loader returned. -/
def writeBootInfo (memory : Memory) (bootInfo : Nat) (kernel : LoadedKernel) : Memory :=
  let memory := fill memory bootInfo bootInfoSize 0
  let memory := store64 memory bootInfo bootInfoMagic
  let memory := store memory (bootInfo + 8) 4 bootInfoVersion
  let memory := store memory (bootInfo + 12) 4 bootInfoSize
  let memory := store64 memory (bootInfo + 56) kernel.kernelPhysicalBase
  let memory := store64 memory (bootInfo + 64) kernel.kernelVirtualBase
  store64 memory (bootInfo + 72) kernel.kernelSizeBytes

/-- Enter the stack. -/
def writeStack (memory : Memory) (bootInfo stackTop stackSizeBytes : Nat) : Memory :=
  store64 (store64 memory (bootInfo + 80) stackTop) (bootInfo + 88) stackSizeBytes

/-- What is ready when boot services are about to be left. -/
structure Handoff where
  kernel : LoadedKernel
  bootInfo : Nat
  stackTop : Nat
  newCr3 : Nat
deriving DecidableEq, Repr

/-- Build the page tables; a null address halts. -/
def buildTables (firmware : Firmware) (memory : Memory) (kernel : LoadedKernel)
    (bootInfo stackTop : Nat) : Option Handoff × Memory :=
  let built := buildKernelPageTables (fun request => firmware.allocatePages (3 + request) 1) memory
    kernel.kernelPhysicalBase kernel.kernelSizeBytes
  if built.1 = 0 then (none, built.2) else (some ⟨kernel, bootInfo, stackTop, built.1⟩, built.2)

/-- The steps of `EfiMain` from the load of the kernel to the page tables; no
handoff stands for a halt. -/
def prepareHandoff (firmware : Firmware) (memory : Memory) : Option Handoff × Memory :=
  let loaded := loadKernelElf firmware memory
  loaded.kernel.elim (none, loaded.memory) fun kernel =>
    (firmware.allocatePages 1 1).elim (none, loaded.memory) fun bootInfo =>
      let memory := writeBootInfo loaded.memory bootInfo kernel
      (firmware.allocatePages 2 kernelStackPages).elim (none, memory) fun stackPhys =>
        let stackSizeBytes := kernelStackPages * pageSize4K
        let stackTop := wrappingAdd stackPhys stackSizeBytes
        buildTables firmware (writeStack memory bootInfo stackTop stackSizeBytes) kernel bootInfo
          stackTop

/-- The firmware keeps its contracts: a pool buffer holds what is read into it,
freeing it touches nothing else, and the pages it hands out are aligned, below the
identity-map limit, and apart from each other and from the buffer. -/
structure FreshFirmware (firmware : Firmware) : Prop where
  bufferFits : ∀ size buffer, firmware.filePool size = some buffer → buffer + size ≤ 2 ^ 64
  readFits : ∀ size bytes, firmware.read size = some bytes → bytes.length ≤ size
  freed : ∀ size buffer memory target, firmware.filePool size = some buffer →
    target < buffer ∨ buffer + size ≤ target → firmware.freePool buffer memory target = memory target
  aligned : ∀ request count address, firmware.allocatePages request count = some address →
    address % frameSize = 0
  below : ∀ request count address, firmware.allocatePages request count = some address →
    address + count * frameSize ≤ identityMapLimit
  apart : ∀ request other count count' address address', request ≠ other →
    firmware.allocatePages request count = some address →
    firmware.allocatePages other count' = some address' →
    address + count * frameSize ≤ address' ∨ address' + count' * frameSize ≤ address
  bufferApart : ∀ size buffer request count address, firmware.filePool size = some buffer →
    firmware.allocatePages request count = some address →
    buffer + size ≤ address ∨ address + count * frameSize ≤ buffer

/-- The page requests after the load are answered. -/
structure Supplied (firmware : Firmware) : Prop where
  bootInfo : ∃ page, firmware.allocatePages 1 1 = some page
  stack : ∃ page, firmware.allocatePages 2 kernelStackPages = some page
  tables : ∀ request < 8, ∃ page, firmware.allocatePages (3 + request) 1 = some page ∧ page ≠ 0

/-- The walk of the built tables finds the file where its headers say, and finds
the entry point. -/
structure KernelInPlace (file : List (BitVec 8)) (newCr3 : Nat) (memory : Memory) : Prop where
  segments : ∀ segment ∈ loadSegments file, ∀ b < segment.pMemsz, ∃ phys,
    (⟨newCr3⟩ : VirtualMemoryManager).translate memory (segment.pVaddr + b) = some phys ∧
      memory phys = if b < segment.pFilesz then fileImage file (segment.pOffset + b) else 0
  entry : ∃ phys,
    (⟨newCr3⟩ : VirtualMemoryManager).translate memory (entryPoint file) = some phys

/-- Every loadable file byte is zero. -/
def Blank (file : List (BitVec 8)) : Prop :=
  ∀ segment ∈ loadSegments file, ∀ b < segment.pFilesz,
    fileImage file (segment.pOffset + b) = 0

/-- Every occupied address, and the entry point, lies within the mapped size of the
kernel's virtual base. -/
structure WithinMapping (file : List (BitVec 8)) : Prop where
  segments : ∀ segment ∈ loadSegments file, 0 < segment.pMemsz →
    segment.pVaddr + segment.pMemsz ≤ kernelVirtualBase + mappedSize file
  entry : entryPoint file < kernelVirtualBase + mappedSize file

/-- The outcome of the handoff as far as the kernel's pages are concerned: the
higher half is mapped to them from the virtual base on, and they hold the image
from the lowest loadable address on. -/
structure Reached (file : List (BitVec 8)) (base newCr3 : Nat) (memory : Memory) : Prop where
  translate : ∀ virt, kernelVirtualBase ≤ virt → virt < 2 ^ 64 →
    (⟨newCr3⟩ : VirtualMemoryManager).translate memory virt =
      if virt < kernelVirtualBase + mappedSize file then some (base + (virt - kernelVirtualBase))
      else none
  image : ∀ offset < mappedSize file, memory (base + offset) =
    imageByte file (loadSegments file) (lowest (loadSegments file) + offset)

section Agreement

variable {file : List (BitVec 8)} {plan : ImagePlan} {base newCr3 : Nat} {memory : Memory}
  (wellFormed : WellFormed file) (planned : Planned file plan)
  (reached : Reached file base newCr3 memory)

include wellFormed in
/-- The image byte at an occupied address is the segment's own. -/
theorem WellFormed.imageByte_eq {segment : ProgramHeader} (member : segment ∈ loadSegments file)
    {b : Nat} (inside : b < segment.pMemsz) :
    imageByte file (loadSegments file) (segment.pVaddr + b) =
      if b < segment.pFilesz then fileImage file (segment.pOffset + b) else 0 := by
  split
  · rename_i stored
    have covers : segment.backs (segment.pVaddr + b) = true :=
      (segment.backs_iff _).mpr (by omega)
    rw [imageByte_mem wellFormed.apart wellFormed.backed member covers, Nat.add_sub_cancel_left]
  · rename_i beyond
    apply imageByte_absent
    intro other known
    by_contra covers
    rw [Bool.not_eq_false, other.backs_iff] at covers
    have backed := wellFormed.backed other known
    have here : segment.pVaddr + b ∈ segment.range := Set.mem_Ico.mpr (by omega)
    have there : segment.pVaddr + b ∈ other.range := Set.mem_Ico.mpr (by omega)
    by_cases same : other = segment
    · subst same
      omega
    · have symmetric : Std.Symm fun segment other : ProgramHeader =>
          Disjoint segment.range other.range := ⟨fun _ _ away => away.symm⟩
      exact Set.disjoint_left.mp (wellFormed.apart.forall known member same) there here

include planned in
/-- The kernel's virtual base is the lowest loadable address exactly if some
loadable segment starts there. -/
theorem Planned.lowest_eq_iff :
    lowest (loadSegments file) = kernelVirtualBase ↔
      ∃ segment ∈ loadSegments file, segment.pVaddr = kernelVirtualBase := by
  constructor
  · intro least
    have small : lowest (loadSegments file) < 2 ^ 64 - 1 := by
      rw [least]
      decide
    obtain ⟨segment, member, attained⟩ := lowest_attained small
    exact ⟨segment, member, attained.trans least⟩
  · rintro ⟨segment, member, start⟩
    apply Nat.le_antisymm
    · rw [← start]
      exact lowest_le member
    · exact le_lowest (by decide) planned.higher

include wellFormed planned in
/-- The span of the file lies in the higher half and within the mapped size. -/
theorem Planned.bounds :
    kernelVirtualBase ≤ lowest (loadSegments file) ∧ highest (loadSegments file) < 2 ^ 64 ∧
      highest (loadSegments file) ≤ lowest (loadSegments file) + mappedSize file := by
  have low := le_lowest (by decide) planned.higher
  have high := highest_lt (by decide) wellFormed.noWrap
  have rounded := le_roundUp (highest (loadSegments file) - lowest (loadSegments file)) pageSize2M
    (by decide)
  have size : mappedSize file =
      roundUp (highest (loadSegments file) - lowest (loadSegments file)) pageSize2M := rfl
  exact ⟨low, high, by omega⟩

include wellFormed planned reached in
/-- With the lowest loadable address at the kernel's virtual base, placement and
mapping agree. -/
theorem Reached.inPlace_of_base (least : lowest (loadSegments file) = kernelVirtualBase) :
    KernelInPlace file newCr3 memory := by
  obtain ⟨low, high, span⟩ := planned.bounds wellFormed
  have entry := planned.entry
  constructor
  · intro segment member b inside
    have start := lowest_le member
    have stop := le_highest member
    refine ⟨base + (segment.pVaddr + b - kernelVirtualBase), ?_, ?_⟩
    · rw [reached.translate _ (by omega) (by omega), if_pos (by omega)]
    · have same : lowest (loadSegments file) + (segment.pVaddr + b - kernelVirtualBase) =
          segment.pVaddr + b := by omega
      rw [reached.image _ (by omega), same, wellFormed.imageByte_eq member inside]
  · refine ⟨base + (entryPoint file - kernelVirtualBase), ?_⟩
    rw [reached.translate _ (by omega) (by omega), if_pos (by omega)]

include wellFormed planned reached in
/-- A file of zeros whose addresses are all mapped reads as zeros wherever its
image is. -/
theorem Reached.inPlace_of_blank (blank : Blank file) (within : WithinMapping file) :
    KernelInPlace file newCr3 memory := by
  obtain ⟨low, high, span⟩ := planned.bounds wellFormed
  have entry := planned.entry
  have zero (virt : Nat) : imageByte file (loadSegments file) virt = 0 := by
    cases found : (loadSegments file).find? (fun segment => segment.backs virt) with
    | none => rw [imageByte, found, Option.elim_none]
    | some segment =>
      have covers : segment.backs virt = true :=
        @List.find?_some _ (fun segment : ProgramHeader => segment.backs virt) _ _ found
      have bounds := (segment.backs_iff virt).mp covers
      rw [imageByte, found, Option.elim_some]
      exact blank segment (List.mem_of_find?_eq_some found) _ (by omega)
  constructor
  · intro segment member b inside
    have start := lowest_le member
    have stop := le_highest member
    have mapped := within.segments segment member (by omega)
    refine ⟨base + (segment.pVaddr + b - kernelVirtualBase), ?_, ?_⟩
    · rw [reached.translate _ (by omega) (by omega), if_pos (by omega)]
    · rw [reached.image _ (by omega), zero]
      split
      · rename_i stored
        exact (blank segment member b stored).symm
      · rfl
  · have mapped := within.entry
    refine ⟨base + (entryPoint file - kernelVirtualBase), ?_⟩
    rw [reached.translate _ (by omega) (by omega), if_pos (by omega)]

include wellFormed planned reached in
/-- What is in place is mapped. -/
theorem Reached.within (inPlace : KernelInPlace file newCr3 memory) : WithinMapping file := by
  obtain ⟨low, high, span⟩ := planned.bounds wellFormed
  have entry := planned.entry
  have mapped (virt : Nat) (lower : kernelVirtualBase ≤ virt) (upper : virt < 2 ^ 64)
      (found : ∃ phys, (⟨newCr3⟩ : VirtualMemoryManager).translate memory virt = some phys) :
      virt < kernelVirtualBase + mappedSize file := by
    obtain ⟨phys, walked⟩ := found
    rw [reached.translate virt lower upper] at walked
    by_contra beyond
    rw [if_neg beyond] at walked
    cases walked
  constructor
  · intro segment member occupied
    have start := lowest_le member
    have stop := le_highest member
    obtain ⟨phys, walked, _⟩ := inPlace.segments segment member (segment.pMemsz - 1) (by omega)
    have last := mapped _ (by omega) (by omega) ⟨phys, walked⟩
    omega
  · exact mapped _ (by omega) (by omega) inPlace.entry

include wellFormed planned reached in
/-- A file byte other than zero recurs in the image at the distance of the lowest
loadable address from the kernel's virtual base. -/
theorem Reached.shifted (inPlace : KernelInPlace file newCr3 memory) {virt : Nat}
    (nonzero : imageByte file (loadSegments file) virt ≠ 0) :
    virt < 2 ^ 64 ∧ imageByte file (loadSegments file)
      (virt + (lowest (loadSegments file) - kernelVirtualBase)) ≠ 0 := by
  obtain ⟨low, high, span⟩ := planned.bounds wellFormed
  have within := reached.within wellFormed planned inPlace
  cases found : (loadSegments file).find? (fun segment => segment.backs virt) with
  | none =>
    rw [imageByte, found, Option.elim_none] at nonzero
    exact absurd rfl nonzero
  | some segment =>
    have member := List.mem_of_find?_eq_some found
    have covers : segment.backs virt = true :=
      @List.find?_some _ (fun segment : ProgramHeader => segment.backs virt) _ _ found
    have bounds := (segment.backs_iff virt).mp covers
    have backed := wellFormed.backed segment member
    have start := lowest_le member
    have stop := le_highest member
    have mapped := within.segments segment member (by omega)
    obtain ⟨phys, walked, content⟩ :=
      inPlace.segments segment member (virt - segment.pVaddr) (by omega)
    rw [← wellFormed.imageByte_eq member (by omega)] at content
    rw [Nat.add_sub_cancel' bounds.1] at walked content
    rw [reached.translate virt (by omega) (by omega), if_pos (by omega)] at walked
    obtain rfl := Option.some.inj walked
    rw [reached.image _ (by omega)] at content
    refine ⟨by omega, ?_⟩
    rw [show virt + (lowest (loadSegments file) - kernelVirtualBase) =
      lowest (loadSegments file) + (virt - kernelVirtualBase) by omega, content]
    exact nonzero

include wellFormed planned reached in
/-- With the lowest loadable address elsewhere, only zeros can be in place. The
induction is on the distance to the end of the address space. -/
theorem Reached.blank (inPlace : KernelInPlace file newCr3 memory)
    (elsewhere : lowest (loadSegments file) ≠ kernelVirtualBase) : Blank file := by
  obtain ⟨low, high, span⟩ := planned.bounds wellFormed
  have zero (room virt : Nat) (left : 2 ^ 64 ≤ virt + room) :
      imageByte file (loadSegments file) virt = 0 := by
    induction room generalizing virt with
    | zero =>
      by_contra nonzero
      have bounded := (reached.shifted wellFormed planned inPlace nonzero).1
      omega
    | succ room inductionHypothesis =>
      by_contra nonzero
      exact (reached.shifted wellFormed planned inPlace nonzero).2
        (inductionHypothesis _ (by omega))
  intro segment member b stored
  have backed := wellFormed.backed segment member
  have own := wellFormed.imageByte_eq member (b := b) (by omega)
  rw [zero (2 ^ 64) _ (by omega), if_pos stored] at own
  exact own.symm

end Agreement

/-- The boot information is written to its own page only. -/
theorem writeBootInfo_outside (memory : Memory) (bootInfo target : Nat) (kernel : LoadedKernel)
    (outside : target < bootInfo ∨ bootInfo + frameSize ≤ target) :
    writeBootInfo memory bootInfo kernel target = memory target := by
  have away (offset width value : Nat) (memory : Memory) (inside : offset + width ≤ 96) :
      store memory (bootInfo + offset) width value target = memory target := by
    unfold frameSize at outside
    rw [store, if_neg (by omega)]
  simp only [writeBootInfo, store64]
  rw [away 72 8 _ _ (by decide), away 64 8 _ _ (by decide), away 56 8 _ _ (by decide),
    away 12 4 _ _ (by decide), away 8 4 _ _ (by decide)]
  have first := away 0 8 bootInfoMagic (fill memory bootInfo bootInfoSize 0) (by decide)
  rw [Nat.add_zero] at first
  rw [first]
  apply fill_outside
  unfold bootInfoSize
  unfold frameSize at outside
  omega

theorem writeStack_outside (memory : Memory) (bootInfo stackTop stackSizeBytes target : Nat)
    (outside : target < bootInfo ∨ bootInfo + frameSize ≤ target) :
    writeStack memory bootInfo stackTop stackSizeBytes target = memory target := by
  unfold frameSize at outside
  rw [writeStack, store64_outside _ _ _ _ (by omega), store64_outside _ _ _ _ (by omega)]

/-- The pages of the tables are fresh among themselves. -/
theorem FreshFirmware.tables {firmware : Firmware} (fresh : FreshFirmware firmware) :
    FreshPages fun request => firmware.allocatePages (3 + request) 1 := by
  refine ⟨fun request => fresh.aligned (3 + request) 1, ?_, ?_⟩
  · intro request address answered
    have bounded := fresh.below (3 + request) 1 address answered
    unfold frameSize at bounded
    omega
  · intro request other address answered answeredOther
    by_contra different
    have away := fresh.apart (3 + request) (3 + other) 1 1 address address (by omega) answered
      answeredOther
    unfold frameSize at away
    omega

theorem Planned.wholePages {file : List (BitVec 8)} {plan : ImagePlan}
    (planned : Planned file plan) : plan.alignedSize % pageSize2M = 0 := by
  rw [planned.alignedSize]
  exact roundUp_aligned _ _

/-- Pages requested for a destination of whole 2 MiB pages are one such page more. -/
theorem ImagePlan.pages {plan : ImagePlan} (aligned : plan.alignedSize % pageSize2M = 0) :
    plan.pagesNeeded4K * frameSize = plan.alignedSize + pageSize2M := by
  unfold ImagePlan.pagesNeeded4K pageSize2M pageSize4K frameSize at *
  omega

/-- The aligned base is computed without a wrap, and the image lies inside the pages
the firmware returned. -/
theorem FreshFirmware.placed {firmware : Firmware} (fresh : FreshFirmware firmware)
    {plan : ImagePlan} {physAllocation : Nat} (aligned : plan.alignedSize % pageSize2M = 0)
    (allocated : firmware.allocatePages 0 plan.pagesNeeded4K = some physAllocation) :
    roundUpTo physAllocation pageSize2M = roundUp physAllocation pageSize2M ∧
      physAllocation ≤ roundUp physAllocation pageSize2M ∧
      roundUp physAllocation pageSize2M + plan.alignedSize ≤
        physAllocation + plan.pagesNeeded4K * frameSize ∧
      physAllocation + plan.pagesNeeded4K * frameSize ≤ identityMapLimit := by
  have below := fresh.below 0 plan.pagesNeeded4K physAllocation allocated
  have upper := roundUp_lt physAllocation pageSize2M (by decide)
  refine ⟨?_, le_roundUp _ _ (by decide), ?_, below⟩
  · apply roundUpTo_eq
    rw [plan.pages aligned] at below
    unfold identityMapLimit at below
    omega
  · rw [plan.pages aligned]
    omega

/-- What the loader leaves in memory for a well-formed file it accepts: the image,
at an aligned base inside the pages it obtained. -/
structure Loaded (file : List (BitVec 8)) (plan : ImagePlan) (physAllocation : Nat)
    (kernel : LoadedKernel) (memory : Memory) : Prop where
  planned : Planned file plan
  size : kernel.kernelSizeBytes = plan.alignedSize
  aligned : kernel.kernelPhysicalBase % pageSize2M = 0
  lower : physAllocation ≤ kernel.kernelPhysicalBase
  upper : kernel.kernelPhysicalBase + plan.alignedSize ≤
    physAllocation + plan.pagesNeeded4K * frameSize
  image : ∀ offset < plan.alignedSize, memory (kernel.kernelPhysicalBase + offset) =
    imageByte file (loadSegments file) (lowest (loadSegments file) + offset)

theorem loadKernelElf_loaded {firmware : Firmware} {memory : Memory} {kernel : LoadedKernel}
    {fileBuffer : Nat} {file : List (BitVec 8)} (fresh : FreshFirmware firmware)
    (read : (readKernelFile firmware).1 = some (fileBuffer, file)) (wellFormed : WellFormed file)
    (accepted : (loadKernelElf firmware memory).kernel = some kernel) :
    ∃ plan physAllocation, firmware.allocatePages 0 plan.pagesNeeded4K = some physAllocation ∧
      Loaded file plan physAllocation kernel (loadKernelElf firmware memory).memory := by
  obtain ⟨size, pool, contents⟩ := readKernelFile_inversion read
  have bufferFits := fresh.bufferFits size fileBuffer pool
  have length := fresh.readFits size file contents
  obtain ⟨plan, physAllocation, passed, allocated, loaded, rfl⟩ :=
    loadKernelElf_inversion read accepted
  have holds := holds_storeBytes memory fileBuffer file (by omega)
  have planned := planImage_planned holds wellFormed passed
  have bufferApart := fresh.bufferApart size fileBuffer 0 _ _ pool allocated
  obtain ⟨rounded, lower, upper, below⟩ := fresh.placed planned.wholePages allocated
  have imaged : Imaged file plan (roundUp physAllocation pageSize2M) (loadSegments file)
      (storeBytes memory fileBuffer file) _ :=
    placeImage_imaged wellFormed planned holds (by unfold identityMapLimit at below; omega)
      (by omega)
  rw [rounded] at loaded ⊢
  refine ⟨plan, physAllocation, allocated, planned, rfl, roundUp_aligned _ _, lower, upper, ?_⟩
  intro offset inside
  simp only
  rw [loaded, fresh.freed size fileBuffer _ _ pool (by omega), imaged.image offset inside,
    planned.minVAddr]

/-- After the loader has accepted a well-formed file, firmware that answers every
request lets the handoff reach the page tables. -/
theorem prepareHandoff_reached {firmware : Firmware} {memory : Memory} {kernel : LoadedKernel}
    {fileBuffer : Nat} {file : List (BitVec 8)} (fresh : FreshFirmware firmware)
    (supplied : Supplied firmware)
    (read : (readKernelFile firmware).1 = some (fileBuffer, file)) (wellFormed : WellFormed file)
    (accepted : (loadKernelElf firmware memory).kernel = some kernel) :
    ∃ plan handoff after, prepareHandoff firmware memory = (some handoff, after) ∧
      handoff.kernel = kernel ∧ Planned file plan ∧
      Reached file kernel.kernelPhysicalBase handoff.newCr3 after := by
  obtain ⟨plan, physAllocation, allocated, loaded⟩ :=
    loadKernelElf_loaded fresh read wellFormed accepted
  have planned := loaded.planned
  have lower := loaded.lower
  have upper := loaded.upper
  have below := fresh.below 0 plan.pagesNeeded4K physAllocation allocated
  obtain ⟨bootInfo, bootInfoPage⟩ := supplied.bootInfo
  obtain ⟨stackPhys, stackPages⟩ := supplied.stack
  have infoApart := fresh.apart 0 1 _ _ _ _ (by decide) allocated bootInfoPage
  generalize prepared : writeStack (writeBootInfo (loadKernelElf firmware memory).memory bootInfo
    kernel) bootInfo (wrappingAdd stackPhys (kernelStackPages * pageSize4K))
    (kernelStackPages * pageSize4K) = before
  have count : kernelPageCount plan.alignedSize ≤ entriesPerTable := by
    have bounded := planned.bounded
    unfold kernelMaxSizeBytes at bounded
    unfold kernelPageCount entriesPerTable pageSize2M at *
    split <;> omega
  have nonzero := buildKernelPageTables_succeeds before kernel.kernelPhysicalBase
    plan.alignedSize supplied.tables count
  generalize built : buildKernelPageTables (fun request => firmware.allocatePages (3 + request) 1)
    before kernel.kernelPhysicalBase plan.alignedSize = outcome at nonzero
  obtain ⟨newCr3, after⟩ := outcome
  simp only at nonzero
  have run : prepareHandoff firmware memory =
      (some ⟨kernel, bootInfo, wrappingAdd stackPhys (kernelStackPages * pageSize4K), newCr3⟩,
        after) := by
    simp only [prepareHandoff, accepted, bootInfoPage, stackPages, Option.elim_some, prepared,
      buildTables, loaded.size, built, nonzero, if_false]
  obtain ⟨table, rfl, outcome⟩ := buildKernelPageTables_outcome fresh.tables built nonzero
  refine ⟨plan, _, after, run, rfl, planned, ?_, ?_⟩
  · intro virt higher word
    have translated := outcome.translate_eq fresh.tables loaded.aligned planned.wholePages
      planned.positive planned.bounded (by omega) virt
      (.inr (by unfold kernelVirtualBase at higher; omega))
    rw [translated, if_neg, planned.alignedSize]
    · exact if_congr (by omega) rfl rfl
    · unfold kernelVirtualBase at higher
      unfold identityMapLimit
      omega
  · intro offset inside
    rw [← planned.alignedSize] at inside
    rw [outcome.bytes, ← prepared, writeStack_outside, writeBootInfo_outside,
      loaded.image offset inside]
    · omega
    · omega
    · intro request known
      have tableApart := fresh.apart 0 (3 + request) _ _ _ _ (by omega) allocated
        (outcome.answered request known)
      simp only [frameBytes, Set.mem_Ico]
      omega

/-- Where loader and page tables agree. For every accepted well-formed file and
firmware that keeps its contracts the handoff reaches the page tables, and the walk
finds the kernel where the file puts it exactly if some loadable segment starts at
the kernel's virtual base, or the file is all zeros and lies within the mapping. -/
theorem kernel_in_place_iff {firmware : Firmware} {memory : Memory} {kernel : LoadedKernel}
    {fileBuffer : Nat} {file : List (BitVec 8)} (fresh : FreshFirmware firmware)
    (supplied : Supplied firmware)
    (read : (readKernelFile firmware).1 = some (fileBuffer, file)) (wellFormed : WellFormed file)
    (accepted : (loadKernelElf firmware memory).kernel = some kernel) :
    ∃ handoff after, prepareHandoff firmware memory = (some handoff, after) ∧
      handoff.kernel = kernel ∧
      (KernelInPlace file handoff.newCr3 after ↔
        (∃ segment ∈ loadSegments file, segment.pVaddr = kernelVirtualBase) ∨
          (Blank file ∧ WithinMapping file)) := by
  obtain ⟨plan, handoff, after, run, same, planned, reached⟩ :=
    prepareHandoff_reached fresh supplied read wellFormed accepted
  refine ⟨handoff, after, run, same, ?_⟩
  rw [← planned.lowest_eq_iff]
  constructor
  · intro inPlace
    by_cases least : lowest (loadSegments file) = kernelVirtualBase
    · exact .inl least
    · exact .inr ⟨reached.blank wellFormed planned inPlace least,
        reached.within wellFormed planned inPlace⟩
  · rintro (least | ⟨blank, within⟩)
    · exact reached.inPlace_of_base wellFormed planned least
    · exact reached.inPlace_of_blank wellFormed planned blank within

/-- Little-endian bytes of a value. -/
def littleEndian (width value : Nat) : List (BitVec 8) :=
  (List.range width).map fun position => BitVec.ofNat 8 (value / 256 ^ position)

/-- An executable of one loadable byte, at the given virtual address, which is also
its entry point. -/
def tinyKernel (vaddr : Nat) : List (BitVec 8) :=
  [0x7F#8, 0x45#8, 0x4C#8, 0x46#8, 2#8, 1#8] ++ List.replicate 10 0#8 ++
    littleEndian 2 etExec ++ littleEndian 2 emX8664 ++ littleEndian 4 1 ++ littleEndian 8 vaddr ++
    littleEndian 8 64 ++ List.replicate 14 0#8 ++ littleEndian 2 56 ++ littleEndian 2 1 ++
    List.replicate 6 0#8 ++
    littleEndian 4 ptLoad ++ littleEndian 4 5 ++ littleEndian 8 120 ++ littleEndian 8 vaddr ++
    littleEndian 8 0 ++ littleEndian 8 1 ++ littleEndian 8 1 ++ littleEndian 8 4096 ++ [0x90#8]

/-- Page counts and addresses for the eleven page requests of a small machine. -/
def tinyPages (request : Nat) : Nat × Nat :=
  if request = 0 then (1024, 0x400000)
  else if request = 2 then (16, 0x110000)
  else (1, 0x120000 + request * 0x1000)

/-- Firmware of the small machine with a given file. -/
def tinyFirmware (file : List (BitVec 8)) : Firmware where
  opens := true
  infoPool := some 0x1000
  fileSize := some file.length
  filePool size := if size = file.length then some 0x2000 else none
  read size := if size = file.length then some file else none
  freePool _ memory := memory
  allocatePages request count :=
    if request < 11 ∧ count = (tinyPages request).1 then some (tinyPages request).2 else none

section Tiny

variable {file : List (BitVec 8)}

theorem tinyFirmware_read : (readKernelFile (tinyFirmware file)).1 = some (0x2000, file) := by
  simp [readKernelFile, tinyFirmware]

theorem tinyFirmware_pages {request count address : Nat}
    (answered : (tinyFirmware file).allocatePages request count = some address) :
    request < 11 ∧ count = (tinyPages request).1 ∧ address = (tinyPages request).2 := by
  simp only [tinyFirmware] at answered
  split at answered
  · rename_i known
    exact ⟨known.1, known.2, (Option.some.inj answered).symm⟩
  · cases answered

theorem tinyFirmware_buffer {size buffer : Nat}
    (answered : (tinyFirmware file).filePool size = some buffer) :
    size = file.length ∧ buffer = 0x2000 := by
  simp only [tinyFirmware] at answered
  split at answered
  · rename_i known
    exact ⟨known, (Option.some.inj answered).symm⟩
  · cases answered

theorem tinyFirmware_fresh (short : file.length ≤ 0x1000) : FreshFirmware (tinyFirmware file) := by
  have apart : ∀ request < 11, ∀ other < 11, request ≠ other →
      (tinyPages request).2 + (tinyPages request).1 * frameSize ≤ (tinyPages other).2 ∨
        (tinyPages other).2 + (tinyPages other).1 * frameSize ≤ (tinyPages request).2 := by
    decide
  have placed : ∀ request < 11, (tinyPages request).2 % frameSize = 0 ∧
      0x3000 ≤ (tinyPages request).2 ∧
      (tinyPages request).2 + (tinyPages request).1 * frameSize ≤ identityMapLimit := by
    decide
  refine ⟨?_, ?_, fun _ _ _ _ _ _ => rfl, ?_, ?_, ?_, ?_⟩
  · intro size buffer answered
    obtain ⟨rfl, rfl⟩ := tinyFirmware_buffer answered
    omega
  · intro size bytes answered
    simp only [tinyFirmware] at answered
    split at answered
    · rename_i known
      rw [← Option.some.inj answered, known]
    · cases answered
  · intro request count address answered
    obtain ⟨known, rfl, rfl⟩ := tinyFirmware_pages answered
    exact (placed request known).1
  · intro request count address answered
    obtain ⟨known, rfl, rfl⟩ := tinyFirmware_pages answered
    exact (placed request known).2.2
  · intro request other count count' address address' different answered answered'
    obtain ⟨known, rfl, rfl⟩ := tinyFirmware_pages answered
    obtain ⟨known', rfl, rfl⟩ := tinyFirmware_pages answered'
    exact apart request known other known' different
  · intro size buffer request count address answered answered'
    obtain ⟨rfl, rfl⟩ := tinyFirmware_buffer answered
    obtain ⟨known, rfl, rfl⟩ := tinyFirmware_pages answered'
    have high := (placed request known).2.1
    omega

theorem tinyFirmware_supplied : Supplied (tinyFirmware file) := by
  refine ⟨⟨_, rfl⟩, ⟨_, rfl⟩, ?_⟩
  intro request known
  have nonzero : ∀ request < 8, 3 + request < 11 ∧ 1 = (tinyPages (3 + request)).1 ∧
      (tinyPages (3 + request)).2 ≠ 0 := by
    decide
  obtain ⟨early, single, address⟩ := nonzero request known
  exact ⟨(tinyPages (3 + request)).2, if_pos ⟨early, single⟩, address⟩

/-- A file with a single loadable header is well formed if that header is. -/
theorem wellFormed_single {segment : ProgramHeader} (only : fileHeaders file = [segment])
    (load : segment.pType = ptLoad) (count : ePhnum (fileImage file) 0 = 1)
    (header : ePhoff (fileImage file) 0 + programHeaderSize ≤ file.length)
    (data : segment.pOffset + segment.pFilesz ≤ file.length)
    (backed : segment.pFilesz ≤ segment.pMemsz)
    (noWrap : segment.pVaddr + segment.pMemsz < 2 ^ 64) : WellFormed file := by
  have single : loadSegments file = [segment] := by simp [loadSegments, only, loadable, load]
  constructor
  · intro i first
    obtain rfl : i = 0 := by omega
    omega
  all_goals rw [single]
  · simpa using data
  · simpa using backed
  · simpa using noWrap
  · exact List.pairwise_singleton _ _

theorem tinyKernel_headers : fileHeaders (tinyKernel kernelVirtualBase) =
    [⟨1, 120, kernelVirtualBase, 1, 1⟩] := by decide +kernel

/-- The executable at the kernel's virtual base has a single segment. -/
theorem tinyKernel_segments : loadSegments (tinyKernel kernelVirtualBase) =
    [⟨1, 120, kernelVirtualBase, 1, 1⟩] := by
  simp [loadSegments, tinyKernel_headers, loadable, ptLoad]

theorem tinyKernel_wellFormed : WellFormed (tinyKernel kernelVirtualBase) :=
  wellFormed_single tinyKernel_headers rfl (by decide +kernel) (by decide +kernel)
    (by decide +kernel) (by decide) (by decide)

theorem tinyKernel_fresh : FreshFirmware (tinyFirmware (tinyKernel kernelVirtualBase)) :=
  tinyFirmware_fresh (by decide +kernel)

/-- The executable at the kernel's virtual base is accepted. -/
theorem tinyKernel_accepted :
    (loadKernelElf (tinyFirmware (tinyKernel kernelVirtualBase)) fun _ => 0).kernel =
      some ⟨0x400000, kernelVirtualBase, 0x200000, kernelVirtualBase⟩ := by decide +kernel

end Tiny

/-- The executable at the kernel's virtual base is found in place. -/
theorem kernel_in_place_tiny :
    ∃ handoff after,
      prepareHandoff (tinyFirmware (tinyKernel kernelVirtualBase)) (fun _ => 0) =
        (some handoff, after) ∧
      KernelInPlace (tinyKernel kernelVirtualBase) handoff.newCr3 after := by
  obtain ⟨handoff, after, run, _, agrees⟩ := kernel_in_place_iff tinyKernel_fresh
    tinyFirmware_supplied tinyFirmware_read tinyKernel_wellFormed tinyKernel_accepted
  refine ⟨handoff, after, run, agrees.mpr (.inl ⟨⟨1, 120, kernelVirtualBase, 1, 1⟩, ?_, rfl⟩)⟩
  rw [tinyKernel_segments]
  exact List.mem_singleton_self _

/-- The same executable one page higher is well formed and accepted, and the walk at
its only address does not find its byte. -/
theorem kernel_misplaced :
    WellFormed (tinyKernel (kernelVirtualBase + 0x1000)) ∧
      ∃ handoff after,
        prepareHandoff (tinyFirmware (tinyKernel (kernelVirtualBase + 0x1000))) (fun _ => 0) =
          (some handoff, after) ∧
        ¬ KernelInPlace (tinyKernel (kernelVirtualBase + 0x1000)) handoff.newCr3 after := by
  generalize placed : kernelVirtualBase + 0x1000 = vaddr
  have only : fileHeaders (tinyKernel vaddr) = [⟨1, 120, vaddr, 1, 1⟩] := by
    rw [← placed]
    decide +kernel
  have accepted : (loadKernelElf (tinyFirmware (tinyKernel vaddr)) (fun _ => 0)).kernel =
      some ⟨0x400000, vaddr, 0x200000, vaddr⟩ := by
    rw [← placed]
    decide +kernel
  have facts : ePhnum (fileImage (tinyKernel vaddr)) 0 = 1 ∧
      ePhoff (fileImage (tinyKernel vaddr)) 0 + programHeaderSize ≤ (tinyKernel vaddr).length ∧
      121 = (tinyKernel vaddr).length ∧ fileImage (tinyKernel vaddr) 120 = 0x90#8 := by
    rw [← placed]
    decide +kernel
  obtain ⟨count, header, length, byte⟩ := facts
  have single : loadSegments (tinyKernel vaddr) = [⟨1, 120, vaddr, 1, 1⟩] := by
    simp [loadSegments, only, loadable, ptLoad]
  have wellFormed : WellFormed (tinyKernel vaddr) :=
    wellFormed_single only rfl count header (Nat.le_of_eq length) (Nat.le_refl _)
      (by rw [← placed]; decide)
  obtain ⟨plan, handoff, after, run, _, planned, reached⟩ := prepareHandoff_reached
    (tinyFirmware_fresh (by rw [← length]; decide)) tinyFirmware_supplied tinyFirmware_read
    wellFormed accepted
  refine ⟨wellFormed, handoff, after, run, ?_⟩
  intro inPlace
  have elsewhere : lowest (loadSegments (tinyKernel vaddr)) ≠ kernelVirtualBase := by
    rw [single, ← placed]
    decide
  have blank := reached.blank wellFormed planned inPlace elsewhere
  have zero := blank ⟨1, 120, vaddr, 1, 1⟩ (by simp [single]) 0 (by simp)
  rw [Nat.add_zero, byte] at zero
  cases zero

end Boot

end XyronOS
