import XyronOS.Boot.KernelHandoff

/-!
# Where the loader stores

The two loops of `LoadKernelElf` that write to the destination: one clears it, the
other copies the file bytes of each loadable segment. The addresses they store to are
listed in order, and memory changes nowhere else.

The destination is as long as the span from the lowest loadable address to the highest
segment end, where an end is `p_vaddr + p_memsz` as a machine word. The copies go by
`p_vaddr` and `p_filesz`. Nothing ties the two together: a segment may have more file
bytes than memory, and one that ends at the top of the address space has the end zero.
Its copy lands as far from the base as its address is from the lowest one.

The bounds of a loop are those read where its round starts. They can change in between
only by a store outside the destination, or to a program header inside it. A header the
loop finds inside has been cleared by the first loop, and may have been overwritten by an
earlier copy; only for tables of which the loop reads nothing there does the file alone
decide where the copies go.
-/

namespace XyronOS

open ByteMemory WordBits

namespace Boot

section Log

/-- Stores of the zeroing loop. -/
def zeroWrites (physBase alignedSize : Nat) : List Nat :=
  (List.range alignedSize).map fun i => physBase + i

/-- Stores of one copy. -/
def copyWrites (dest count : Nat) : List Nat := (List.range count).map (wrappingAdd dest)

/-- Stores of one round of the second loop. -/
def segmentWrites (destBase minVAddr : Nat) (phdr : ProgramHeader) : List Nat :=
  if phdr.pType ≠ ptLoad then []
  else copyWrites (wrappingAdd destBase (wrappingSub phdr.pVaddr minVAddr)) phdr.pFilesz

/-- Stores of the first `i` rounds of the second loop, each driven by the header its
round reads. -/
def segmentsWrites (memory : Memory) (fileBuffer destBase minVAddr : Nat) : Nat → List Nat
  | 0 => []
  | i + 1 =>
      segmentsWrites memory fileBuffer destBase minVAddr i ++
        segmentWrites destBase minVAddr
          (programHeader (copySegments memory fileBuffer destBase minVAddr i) fileBuffer i)

/-- Stores of both loops. -/
def placeWrites (memory : Memory) (fileBuffer physBase : Nat) (plan : ImagePlan) : List Nat :=
  let zeroed := fill memory physBase plan.alignedSize 0
  zeroWrites physBase plan.alignedSize ++
    segmentsWrites zeroed fileBuffer physBase plan.minVAddr (ePhnum zeroed fileBuffer)

/-- Stores of a whole call to its destination. -/
def loadWrites (firmware : Firmware) (memory : Memory) : List Nat :=
  (readKernelFile firmware).1.elim [] fun (fileBuffer, bytes) =>
    let memory := storeBytes memory fileBuffer bytes
    (planImage memory fileBuffer bytes.length).elim [] fun plan =>
      (firmware.allocatePages 0 plan.pagesNeeded4K).elim [] fun physAllocation =>
        placeWrites memory fileBuffer (roundUpTo physAllocation pageSize2M) plan

end Log

section Frame

variable {memory : Memory} {target : Nat}

theorem mem_copyWrites {dest count : Nat} :
    target ∈ copyWrites dest count ↔ ∃ b < count, wrappingAdd dest b = target := by
  simp [copyWrites]

theorem copyBytes_outside {dest src count : Nat} (outside : target ∉ copyWrites dest count) :
    copyBytes memory dest src count target = memory target := by
  induction count with
  | zero => rfl
  | succ b inductionHypothesis =>
    have earlier : target ∉ copyWrites dest b := by
      rw [mem_copyWrites] at outside ⊢
      rintro ⟨b', less, same⟩
      exact outside ⟨b', Nat.lt_succ_of_lt less, same⟩
    have last : target ≠ wrappingAdd dest b := by
      rintro rfl
      exact outside (mem_copyWrites.mpr ⟨b, Nat.lt_succ_self b, rfl⟩)
    rw [copyBytes, Function.update_of_ne last]
    exact inductionHypothesis earlier

theorem copySegment_outside {fileBuffer destBase minVAddr : Nat} {phdr : ProgramHeader}
    (outside : target ∉ segmentWrites destBase minVAddr phdr) :
    copySegment memory fileBuffer destBase minVAddr phdr target = memory target := by
  rw [segmentWrites] at outside
  rw [copySegment]
  split
  · rfl
  · rename_i load
    rw [if_neg load] at outside
    exact copyBytes_outside outside

theorem copySegments_outside {fileBuffer destBase minVAddr : Nat} (i : Nat)
    (outside : target ∉ segmentsWrites memory fileBuffer destBase minVAddr i) :
    copySegments memory fileBuffer destBase minVAddr i target = memory target := by
  induction i with
  | zero => rfl
  | succ i inductionHypothesis =>
    rw [segmentsWrites, List.mem_append, not_or] at outside
    rw [copySegments]
    exact (copySegment_outside outside.2).trans (inductionHypothesis outside.1)

/-- The loops change memory only where the log says. -/
theorem placeImage_outside {fileBuffer physBase : Nat} {plan : ImagePlan}
    (outside : target ∉ placeWrites memory fileBuffer physBase plan) :
    placeImage memory fileBuffer physBase plan target = memory target := by
  rw [placeWrites, List.mem_append, not_or] at outside
  rw [placeImage, copySegments_outside _ outside.2]
  apply fill_outside
  by_contra inside
  apply outside.1
  rw [zeroWrites, List.mem_map]
  exact ⟨target - physBase, List.mem_range.mpr (by omega), by omega⟩

end Frame

/-- All of a list of stores go to one range. -/
def Within (base size : Nat) (writes : List Nat) : Prop :=
  ∀ target ∈ writes, base ≤ target ∧ target < base + size

theorem within_append {base size : Nat} {first second : List Nat} :
    Within base size (first ++ second) ↔ Within base size first ∧ Within base size second :=
  List.forall_mem_append

theorem zeroWrites_within (base size : Nat) : Within base size (zeroWrites base size) := by
  intro target written
  rw [zeroWrites, List.mem_map] at written
  obtain ⟨i, early, rfl⟩ := written
  have bounded := List.mem_range.mp early
  omega

/-- The stores of a segment stay in the destination exactly if it has no file bytes or
they end before the destination does. -/
theorem segmentWrites_within_iff {base size minVAddr : Nat} {phdr : ProgramHeader}
    (load : phdr.pType = ptLoad) (lower : minVAddr ≤ phdr.pVaddr) (word : phdr.pVaddr < 2 ^ 64)
    (near : base + (phdr.pVaddr - minVAddr) < 2 ^ 64) (room : base + size < 2 ^ 64) :
    Within base size (segmentWrites base minVAddr phdr) ↔
      phdr.pFilesz = 0 ∨ phdr.pVaddr - minVAddr + phdr.pFilesz ≤ size := by
  rw [segmentWrites, if_neg (not_not.mpr load), wrappingSub_eq _ _ lower word,
    wrappingAdd_eq _ _ near]
  generalize phdr.pVaddr - minVAddr = offset at near ⊢
  constructor
  · intro within
    by_contra beyond
    -- the first byte at or past the end of the destination
    have early : size - offset < phdr.pFilesz := by omega
    have written := within _ (mem_copyWrites.mpr ⟨size - offset, early, rfl⟩)
    rw [wrappingAdd_eq _ _ (by omega)] at written
    omega
  · intro short target written
    obtain ⟨b, early, rfl⟩ := mem_copyWrites.mp written
    rw [wrappingAdd_eq _ _ (by omega)]
    omega

/-- Two memories agree outside a range. -/
def AgreeOutside (base size : Nat) (left right : Memory) : Prop :=
  ∀ target, target < base ∨ base + size ≤ target → left target = right target

/-- A range of addresses lies outside another. -/
def Clear (base size address width : Nat) : Prop :=
  address + width ≤ base ∨ base + size ≤ address

/-- What the copy loop reads of a program header, as offsets and widths: its type and, if
it is loadable, the offset, the address and the size of its file bytes. -/
def ProgramHeader.copyFields (phdr : ProgramHeader) : List (Nat × Nat) :=
  if phdr.pType ≠ ptLoad then [(0, 4)] else [(0, 4), (8, 8), (16, 8), (32, 8)]

theorem ProgramHeader.type_read (phdr : ProgramHeader) : (0, 4) ∈ phdr.copyFields := by
  unfold copyFields
  split <;> simp

theorem ProgramHeader.fields_read {phdr : ProgramHeader} (load : phdr.pType = ptLoad) :
    (8, 8) ∈ phdr.copyFields ∧ (16, 8) ∈ phdr.copyFields ∧ (32, 8) ∈ phdr.copyFields := by
  simp [copyFields, load]

theorem ProgramHeader.copyFields_within (phdr : ProgramHeader) (field : Nat × Nat)
    (read : field ∈ phdr.copyFields) : field.1 + field.2 ≤ programHeaderSize := by
  have all : ∀ field ∈ [(0, 4), (8, 8), (16, 8), (32, 8)],
      field.1 + field.2 ≤ programHeaderSize := by decide
  unfold copyFields at read
  split at read
  · exact all field (List.mem_cons.mpr (.inl (List.mem_singleton.mp read)))
  · exact all field read

section Headers

variable {base size : Nat} {left right : Memory}

theorem AgreeOutside.load_eq (agree : AgreeOutside base size left right) {address width : Nat}
    (clear : Clear base size address width) :
    load left address width = load right address width := by
  apply load_congr
  intro target lower upper
  unfold Clear at clear
  exact agree target (by omega)

theorem Clear.field {address width : Nat} (clear : Clear base size address width)
    (offset length : Nat) (inside : offset + length ≤ width) :
    Clear base size (address + offset) length := by
  unfold Clear at *
  omega

variable {fileBuffer : Nat} (agree : AgreeOutside base size left right)
  (header : Clear base size fileBuffer elfHeaderSize)

include agree header

theorem AgreeOutside.ePhnum : ePhnum left fileBuffer = Boot.ePhnum right fileBuffer :=
  agree.load_eq (header.field 56 2 (by decide))

/-- A program header of which the copy loop reads nothing in the range makes the same
stores in both memories. -/
theorem AgreeOutside.segmentWrites {i : Nat} (destBase minVAddr : Nat)
    (entry : ∀ field ∈ (programHeader right fileBuffer i).copyFields,
      Clear base size (phdrBytes right fileBuffer i + field.1) field.2) :
    segmentWrites destBase minVAddr (programHeader left fileBuffer i) =
      Boot.segmentWrites destBase minVAddr (programHeader right fileBuffer i) := by
  have table : Boot.ePhoff left fileBuffer = Boot.ePhoff right fileBuffer :=
    agree.load_eq (header.field 32 8 (by decide))
  have stride : Boot.ePhentsize left fileBuffer = Boot.ePhentsize right fileBuffer :=
    agree.load_eq (header.field 54 2 (by decide))
  have place : phdrBytes left fileBuffer i = phdrBytes right fileBuffer i := by
    rw [phdrBytes, phdrBytes, table, stride]
  have field (offset width : Nat)
      (read : (offset, width) ∈ (programHeader right fileBuffer i).copyFields) :
      load left (phdrBytes left fileBuffer i + offset) width =
        load right (phdrBytes right fileBuffer i + offset) width := by
    rw [place]
    exact agree.load_eq (entry _ read)
  have kind : (programHeader left fileBuffer i).pType = (programHeader right fileBuffer i).pType :=
    field 0 4 (programHeader right fileBuffer i).type_read
  unfold Boot.segmentWrites
  rw [kind]
  split
  · rfl
  · rename_i load
    obtain ⟨-, address, bytes⟩ := ProgramHeader.fields_read (not_not.mp load)
    have vaddr : (programHeader left fileBuffer i).pVaddr =
        (programHeader right fileBuffer i).pVaddr := field 16 8 address
    have filesz : (programHeader left fileBuffer i).pFilesz =
        (programHeader right fileBuffer i).pFilesz := field 32 8 bytes
    rw [vaddr, filesz]

/-- With the headers clear of the destination, the copies stay inside it exactly if
the copy of every header does. The induction is on the rounds: as long as they stay
inside, the next round reads the header that was there at the start. -/
theorem segmentsWrites_within_iff (minVAddr count : Nat)
    (table : ∀ i < count, ∀ field ∈ (programHeader right fileBuffer i).copyFields,
      Clear base size (phdrBytes right fileBuffer i + field.1) field.2) :
    Within base size (segmentsWrites left fileBuffer base minVAddr count) ↔
      ∀ i < count, Within base size
        (segmentWrites base minVAddr (programHeader right fileBuffer i)) := by
  induction count with
  | zero => simp [segmentsWrites, Within]
  | succ i inductionHypothesis =>
    rw [segmentsWrites, within_append, Nat.forall_lt_succ_right,
      inductionHypothesis fun earlier less => table earlier (Nat.lt_succ_of_lt less)]
    apply and_congr_right
    intro earlier
    have inside := (inductionHypothesis fun earlier less =>
      table earlier (Nat.lt_succ_of_lt less)).mpr earlier
    have kept : AgreeOutside base size (copySegments left fileBuffer base minVAddr i) right := by
      intro target away
      rw [copySegments_outside]
      · exact agree target away
      · intro written
        have bounds := inside target written
        omega
    rw [kept.segmentWrites header base minVAddr (table i (Nat.lt_succ_self i))]

end Headers

/-- What the checks before the allocation establish about any file. -/
structure Spanned (segments : List ProgramHeader) (plan : ImagePlan) : Prop where
  higher : ∀ segment ∈ segments, kernelVirtualBase ≤ segment.pVaddr
  minVAddr : plan.minVAddr = lowest segments
  alignedSize : plan.alignedSize = roundUp (highestEnd segments - lowest segments) pageSize2M

/-- The scan finds the lowest start and the highest end, each end a machine word. -/
theorem scan_extremes {headers : List ProgramHeader} {span : Span}
    (scanned : headers.foldlM Span.visit Span.initial = some span) :
    span.minVAddr = lowest (loadable headers) ∧
      span.maxVAddrEnd = highestEnd (loadable headers) := by
  obtain ⟨-, rfl⟩ := scan_words (Nat.le_refl _) scanned
  exact ⟨Nat.min_eq_right (Nat.le_sub_one_of_lt (lowest_lt _)), Nat.max_eq_right (Nat.zero_le _)⟩

/-- The checks before the allocation as comparisons of the lowest start and the
highest end. -/
theorem planImage_extremes {memory : Memory} {fileBuffer fileSize : Nat} {plan : ImagePlan}
    (passed : planImage memory fileBuffer fileSize = some plan) :
    let segments := loadable (programHeaders memory fileBuffer)
    (∀ segment ∈ segments, kernelVirtualBase ≤ segment.pVaddr) ∧
      plan = ⟨lowest segments,
        roundUpTo (wrappingSub (highestEnd segments) (lowest segments)) pageSize2M⟩ ∧
      lowest segments ≤ eEntry memory fileBuffer ∧
      eEntry memory fileBuffer < highestEnd segments := by
  obtain ⟨_, span, scanned, _, rfl, _, _, entryLow, entryHigh⟩ := planImage_inversion passed
  obtain ⟨least, greatest⟩ := scan_extremes scanned
  rw [least] at entryLow
  rw [greatest] at entryHigh
  rw [least, greatest]
  exact ⟨(scan_words (Nat.le_refl _) scanned).1, rfl, entryLow, entryHigh⟩

theorem planImage_spanned {memory : Memory} {fileBuffer fileSize : Nat} {plan : ImagePlan}
    (passed : planImage memory fileBuffer fileSize = some plan) :
    Spanned (loadable (programHeaders memory fileBuffer)) plan := by
  obtain ⟨higher, rfl, entryLow, entryHigh⟩ := planImage_extremes passed
  generalize loadable (programHeaders memory fileBuffer) = segments at *
  have base : kernelVirtualBase ≤ lowest segments := le_lowest (by decide) higher
  have top := highestEnd_lt segments
  refine ⟨higher, rfl, ?_⟩
  simp only
  rw [wrappingSub_eq _ _ (by omega) top, roundUpTo_eq]
  unfold kernelVirtualBase at base
  unfold pageSize2M
  omega

/-- The file bytes of a segment end within the whole 2 MiB pages from the lowest
address to the highest end. -/
def ProgramHeader.Fits (segments : List ProgramHeader) (segment : ProgramHeader) : Prop :=
  segment.pFilesz = 0 ∨ segment.pVaddr - lowest segments + segment.pFilesz ≤
    roundUp (highestEnd segments - lowest segments) pageSize2M

/-- Size of the destination of these segments. -/
def imageSize (segments : List ProgramHeader) : Nat :=
  roundUp (highestEnd segments - lowest segments) pageSize2M

/-- Of no program header does the copy loop read a byte in the destination, the first
whole 2 MiB pages in what the firmware has for the image. -/
def TableClear (firmware : Firmware) (memory : Memory) (fileBuffer : Nat) : Prop :=
  let size := imageSize (loadable (programHeaders memory fileBuffer))
  ∀ address, firmware.allocatePages 0 ((size + pageSize2M) / pageSize4K) = some address →
    ∀ i < ePhnum memory fileBuffer, ∀ field ∈ (programHeader memory fileBuffer i).copyFields,
      Clear (roundUp address pageSize2M) size (phdrBytes memory fileBuffer i + field.1) field.2

/-- Every store of the loader lies in the range it reports, and that range in the
pages it obtained. -/
structure Confined (firmware : Firmware) (memory : Memory) (kernel : LoadedKernel) : Prop where
  writes : Within kernel.kernelPhysicalBase kernel.kernelSizeBytes (loadWrites firmware memory)
  pages : ∀ address count,
    .allocatePages address count ∈ (loadKernelElf firmware memory).events →
      address ≤ kernel.kernelPhysicalBase ∧
      kernel.kernelPhysicalBase + kernel.kernelSizeBytes ≤ address + count * frameSize

section Call

variable {firmware : Firmware} {memory : Memory}

/-- A rejected file is not written anywhere. -/
theorem loadWrites_rejected (rejected : (loadKernelElf firmware memory).kernel = none) :
    loadWrites firmware memory = [] := by
  rw [loadKernelElf] at rejected
  rw [loadWrites]
  generalize readKernelFile firmware = contents at rejected ⊢
  obtain ⟨_ | ⟨fileBuffer, bytes⟩, events⟩ := contents
  · rfl
  simp only [Option.elim_some] at rejected ⊢
  cases planned : planImage (storeBytes memory fileBuffer bytes) fileBuffer bytes.length with
  | none => rfl
  | some plan =>
    cases allocated : firmware.allocatePages 0 plan.pagesNeeded4K with
    | none => simp [allocated]
    | some physAllocation => simp [planned, allocated] at rejected

/-- Apart from the pool buffer of the file, a call changes memory only where the log
says. -/
theorem loadKernelElf_outside (fresh : FreshFirmware firmware) {target : Nat}
    (outside : target ∉ loadWrites firmware memory)
    (away : ∀ size buffer, firmware.filePool size = some buffer →
      target < buffer ∨ buffer + size ≤ target) :
    (loadKernelElf firmware memory).memory target = memory target := by
  have inversion := @readKernelFile_inversion firmware
  rw [loadWrites] at outside
  rw [loadKernelElf]
  generalize readKernelFile firmware = contents at outside inversion ⊢
  obtain ⟨_ | ⟨fileBuffer, bytes⟩, events⟩ := contents
  · rfl
  obtain ⟨size, pool, read⟩ := inversion rfl
  have length := fresh.readFits size bytes read
  have apart := away size fileBuffer pool
  have stored : storeBytes memory fileBuffer bytes target = memory target :=
    storeBytes_outside _ _ _ _ (by omega)
  have freed (after : Memory) : firmware.freePool fileBuffer after target = after target :=
    fresh.freed size fileBuffer after target pool apart
  simp only [Option.elim_some] at outside ⊢
  cases planned : planImage (storeBytes memory fileBuffer bytes) fileBuffer bytes.length with
  | none => exact (freed _).trans stored
  | some plan =>
    rw [planned, Option.elim_some] at outside
    cases allocated : firmware.allocatePages 0 plan.pagesNeeded4K with
    | none =>
      simp only [Option.elim_some, allocated, Option.elim_none]
      exact (freed _).trans stored
    | some physAllocation =>
      rw [allocated, Option.elim_some] at outside
      simp only [Option.elim_some, allocated]
      exact (freed _).trans ((placeImage_outside outside).trans stored)

/-- The read of the file asks for no pages. -/
theorem readKernelFile_events (address count : Nat) :
    .allocatePages address count ∉ (readKernelFile firmware).2 := by
  rw [readKernelFile]
  repeat' split
  all_goals simp

variable {fileBuffer : Nat} {file : List (BitVec 8)}

/-- Stores and page requests of a call that gets as far as the copy. -/
theorem loadKernelElf_log {plan : ImagePlan} {physAllocation : Nat}
    (read : (readKernelFile firmware).1 = some (fileBuffer, file))
    (passed : planImage (storeBytes memory fileBuffer file) fileBuffer file.length = some plan)
    (allocated : firmware.allocatePages 0 plan.pagesNeeded4K = some physAllocation) :
    loadWrites firmware memory = placeWrites (storeBytes memory fileBuffer file) fileBuffer
        (roundUpTo physAllocation pageSize2M) plan ∧
      ∀ address count, .allocatePages address count ∈ (loadKernelElf firmware memory).events →
        address = physAllocation ∧ count = plan.pagesNeeded4K := by
  constructor
  · simp [loadWrites, read, passed, allocated]
  · intro address count listed
    have none := @readKernelFile_events firmware address count
    rw [loadKernelElf] at listed
    generalize readKernelFile firmware = contents at read listed none
    obtain ⟨_, events⟩ := contents
    subst read
    simpa [passed, allocated, none] using listed

end Call

section Confinement

variable {firmware : Firmware} {memory : Memory} {fileBuffer : Nat}

theorem Clear.inside {base size base' size' address width : Nat}
    (clear : Clear base size address width) (lower : base ≤ base')
    (upper : base' + size' ≤ base + size) : Clear base' size' address width := by
  unfold Clear at *
  omega

/-- The stores of a segment stay in the destination exactly if it fits. -/
theorem Spanned.segmentWrites_within_iff {segments : List ProgramHeader} {base : Nat}
    {plan : ImagePlan} (spanned : Spanned segments plan)
    (room : base + plan.alignedSize ≤ identityMapLimit) {segment : ProgramHeader}
    (member : segment ∈ segments) (load : segment.pType = ptLoad)
    (word : segment.pVaddr < 2 ^ 64) :
    Within base plan.alignedSize (segmentWrites base plan.minVAddr segment) ↔
      segment.Fits segments := by
  have lower := lowest_le member
  have low := le_lowest (by decide) spanned.higher
  rw [ProgramHeader.Fits, ← spanned.alignedSize, ← spanned.minVAddr]
  rw [← spanned.minVAddr] at lower low
  unfold identityMapLimit at room
  unfold kernelVirtualBase at low
  exact Boot.segmentWrites_within_iff load lower word (by omega) (by omega)

/-- The stores of both loops stay in the destination exactly if every loadable segment
fits. -/
theorem placeWrites_within_iff {base : Nat} {plan : ImagePlan}
    (spanned : Spanned (loadable (programHeaders memory fileBuffer)) plan)
    (room : base + plan.alignedSize ≤ identityMapLimit)
    (header : Clear base plan.alignedSize fileBuffer elfHeaderSize)
    (table : ∀ i < ePhnum memory fileBuffer,
      ∀ field ∈ (programHeader memory fileBuffer i).copyFields,
        Clear base plan.alignedSize (phdrBytes memory fileBuffer i + field.1) field.2) :
    Within base plan.alignedSize (placeWrites memory fileBuffer base plan) ↔
      ∀ segment ∈ loadable (programHeaders memory fileBuffer),
        segment.Fits (loadable (programHeaders memory fileBuffer)) := by
  have zeroed : AgreeOutside base plan.alignedSize
      (fill memory base plan.alignedSize 0) memory :=
    fun target away => fill_outside _ _ _ _ _ away
  rw [placeWrites, within_append, zeroed.ePhnum header,
    segmentsWrites_within_iff zeroed header plan.minVAddr _ table]
  simp only [zeroWrites_within, true_and]
  have single (i : Nat) (inside : i < ePhnum memory fileBuffer)
      (load : (programHeader memory fileBuffer i).pType = ptLoad) :
      Within base plan.alignedSize
          (segmentWrites base plan.minVAddr (programHeader memory fileBuffer i)) ↔
        (programHeader memory fileBuffer i).Fits
          (loadable (programHeaders memory fileBuffer)) := by
    have member : programHeader memory fileBuffer i ∈
        loadable (programHeaders memory fileBuffer) := by
      rw [loadable, List.mem_filter, programHeaders]
      exact ⟨List.mem_map_of_mem (List.mem_range.mpr inside), by simpa using load⟩
    exact spanned.segmentWrites_within_iff room member load (load64_lt _ _)
  constructor
  · intro within segment member
    rw [loadable, List.mem_filter, programHeaders, List.mem_map] at member
    obtain ⟨⟨i, early, rfl⟩, load⟩ := member
    have inside := List.mem_range.mp early
    exact (single i inside (by simpa using load)).mp (within i inside)
  · intro fits i inside
    by_cases load : (programHeader memory fileBuffer i).pType = ptLoad
    · apply (single i inside load).mpr
      apply fits
      rw [loadable, List.mem_filter, programHeaders]
      exact ⟨List.mem_map_of_mem (List.mem_range.mpr inside), by simpa using load⟩
    · rw [segmentWrites, if_pos load]
      exact fun target written => absurd written List.not_mem_nil

/-- An accepted file whose headers are clear of the destination is loaded without a store
outside it exactly if every loadable segment fits. -/
theorem confined_iff (fresh : FreshFirmware firmware) {file : List (BitVec 8)}
    {kernel : LoadedKernel} (read : (readKernelFile firmware).1 = some (fileBuffer, file))
    (accepted : (loadKernelElf firmware memory).kernel = some kernel)
    (clear : TableClear firmware (storeBytes memory fileBuffer file) fileBuffer) :
    Confined firmware memory kernel ↔
      ∀ segment ∈ loadable (programHeaders (storeBytes memory fileBuffer file) fileBuffer),
        segment.Fits
          (loadable (programHeaders (storeBytes memory fileBuffer file) fileBuffer)) := by
  obtain ⟨size, pool, contents⟩ := readKernelFile_inversion read
  have length := fresh.readFits size file contents
  obtain ⟨plan, physAllocation, passed, allocated, _, rfl⟩ := loadKernelElf_inversion read accepted
  obtain ⟨sized, _⟩ := planImage_inversion passed
  have spanned := planImage_spanned passed
  have whole : plan.alignedSize % pageSize2M = 0 := by
    rw [spanned.alignedSize]
    exact roundUp_aligned _ _
  obtain ⟨rounded, lower, upper, below⟩ := fresh.placed whole allocated
  obtain ⟨writes, requests⟩ := loadKernelElf_log read passed allocated
  have header : Clear physAllocation (plan.pagesNeeded4K * frameSize) fileBuffer elfHeaderSize := by
    have apart := fresh.bufferApart size fileBuffer 0 _ _ pool allocated
    unfold Clear
    omega
  have sameSize : imageSize (loadable (programHeaders (storeBytes memory fileBuffer file)
      fileBuffer)) = plan.alignedSize := spanned.alignedSize.symm
  rw [TableClear, sameSize] at clear
  have table := clear physAllocation allocated
  rw [rounded] at writes ⊢
  rw [← placeWrites_within_iff spanned (Nat.le_trans upper below) (header.inside lower upper) table,
    ← writes]
  constructor
  · intro confined
    exact confined.writes
  · intro within
    refine ⟨within, ?_⟩
    intro address count listed
    obtain ⟨rfl, rfl⟩ := requests address count listed
    exact ⟨lower, upper⟩

end Confinement

/-- The loader writes nothing for a file it rejects. For a file it accepts, every store
of the zeroing loop and of the copies lies in the reported range and that range in the
returned pages, exactly if the file bytes of every loadable segment end within the
range; left out are only files with a program header in the range itself. -/
theorem load_confined_iff {firmware : Firmware} {memory : Memory} (fresh : FreshFirmware firmware) :
    ((loadKernelElf firmware memory).kernel = none → loadWrites firmware memory = []) ∧
      ∀ kernel fileBuffer file, (readKernelFile firmware).1 = some (fileBuffer, file) →
        (loadKernelElf firmware memory).kernel = some kernel →
        TableClear firmware (storeBytes memory fileBuffer file) fileBuffer →
        (Confined firmware memory kernel ↔
          ∀ segment ∈ loadable (programHeaders (storeBytes memory fileBuffer file) fileBuffer),
            segment.Fits
              (loadable (programHeaders (storeBytes memory fileBuffer file) fileBuffer))) :=
  ⟨loadWrites_rejected, fun _ _ _ read accepted clear => confined_iff fresh read accepted clear⟩

/-- A header table outside the pages of the small machine is clear of the destination. -/
theorem tinyFirmware_clear {file : List (BitVec 8)} {memory : Memory}
    (below : ∀ i < ePhnum memory 0x2000,
      phdrBytes memory 0x2000 i + programHeaderSize ≤ 0x400000) :
    TableClear (tinyFirmware file) memory 0x2000 := by
  intro address answered i inside field read
  obtain ⟨_, _, rfl⟩ := tinyFirmware_pages answered
  have start : roundUp (tinyPages 0).2 pageSize2M = 0x400000 := by decide
  have early := below i inside
  have narrow : field.1 + field.2 ≤ programHeaderSize :=
    (programHeader memory 0x2000 i).copyFields_within field read
  left
  rw [start]
  omega

/-- The segment of the one-byte executable fits its own span. -/
theorem tinyKernel_fits : ∀ segment ∈ [(⟨1, 120, kernelVirtualBase, 1, 1⟩ : ProgramHeader)],
    segment.Fits [⟨1, 120, kernelVirtualBase, 1, 1⟩] := by
  intro segment member
  obtain rfl := List.mem_singleton.mp member
  exact .inr (by decide)

/-- Bytes of a loadable program header. -/
def segmentBytes (offset vaddr filesz memsz : Nat) : List (BitVec 8) :=
  littleEndian 4 ptLoad ++ littleEndian 4 5 ++ littleEndian 8 offset ++ littleEndian 8 vaddr ++
    littleEndian 8 0 ++ littleEndian 8 filesz ++ littleEndian 8 memsz ++ littleEndian 8 4096

/-- An ELF header alone, whose program header is `0x5FE000` bytes behind its start. -/
def farTableKernel : List (BitVec 8) :=
  [0x7F#8, 0x45#8, 0x4C#8, 0x46#8, 2#8, 1#8] ++ List.replicate 10 0#8 ++
    littleEndian 2 etExec ++ littleEndian 2 emX8664 ++ littleEndian 4 1 ++
    littleEndian 8 kernelVirtualBase ++ littleEndian 8 0x5FE000 ++ List.replicate 14 0#8 ++
    littleEndian 2 56 ++ littleEndian 2 1 ++ List.replicate 6 0#8

/-- Memory in which that header lies in the unused half of the pages, past the
destination. -/
def farTableMemory : Memory :=
  storeBytes (fun _ => 0) 0x600000 (segmentBytes 0 kernelVirtualBase 1 1)

/-- The header at `0x600000` is not in the destination, which ends there. -/
theorem farTable_clear : TableClear (tinyFirmware farTableKernel)
    (storeBytes farTableMemory 0x2000 farTableKernel) 0x2000 := by
  intro address answered i inside field read
  obtain ⟨_, _, rfl⟩ := tinyFirmware_pages answered
  have start : roundUp (tinyPages 0).2 pageSize2M = 0x400000 := by decide
  have size : imageSize (loadable (programHeaders
      (storeBytes farTableMemory 0x2000 farTableKernel) 0x2000)) = 0x200000 := by decide +kernel
  have place : ∀ i < ePhnum (storeBytes farTableMemory 0x2000 farTableKernel) 0x2000,
      0x600000 ≤ phdrBytes (storeBytes farTableMemory 0x2000 farTableKernel) 0x2000 i := by
    decide +kernel
  have late := place i inside
  right
  rw [start, size]
  omega

/-- The one-byte executable at the kernel's virtual base is loaded inside, and so is the
one whose program header lies in the pages but past the destination. -/
theorem load_confined_iff_tiny :
    (∃ kernel, (loadKernelElf (tinyFirmware (tinyKernel kernelVirtualBase)) fun _ => 0).kernel =
        some kernel ∧
      Confined (tinyFirmware (tinyKernel kernelVirtualBase)) (fun _ => 0) kernel) ∧
    ∃ kernel, (loadKernelElf (tinyFirmware farTableKernel) farTableMemory).kernel = some kernel ∧
      Confined (tinyFirmware farTableKernel) farTableMemory kernel := by
  constructor
  · have clear : TableClear (tinyFirmware (tinyKernel kernelVirtualBase))
        (storeBytes (fun _ => 0) 0x2000 (tinyKernel kernelVirtualBase)) 0x2000 :=
      tinyFirmware_clear (by decide +kernel)
    have segments : loadable (programHeaders
        (storeBytes (fun _ => 0) 0x2000 (tinyKernel kernelVirtualBase)) 0x2000) =
        [⟨1, 120, kernelVirtualBase, 1, 1⟩] := by decide +kernel
    refine ⟨_, tinyKernel_accepted, ((load_confined_iff tinyKernel_fresh).2 _ _ _
      tinyFirmware_read tinyKernel_accepted clear).mpr ?_⟩
    rw [segments]
    exact tinyKernel_fits
  · have accepted : (loadKernelElf (tinyFirmware farTableKernel) farTableMemory).kernel =
        some ⟨0x400000, kernelVirtualBase, 0x200000, kernelVirtualBase⟩ := by decide +kernel
    have fresh : FreshFirmware (tinyFirmware farTableKernel) :=
      tinyFirmware_fresh (by decide +kernel)
    have segments : loadable (programHeaders
        (storeBytes farTableMemory 0x2000 farTableKernel) 0x2000) =
        [⟨1, 0, kernelVirtualBase, 1, 1⟩] := by decide +kernel
    refine ⟨_, accepted, ((load_confined_iff fresh).2 _ _ _ tinyFirmware_read accepted
      farTable_clear).mpr ?_⟩
    rw [segments]
    intro segment member
    obtain rfl := List.mem_singleton.mp member
    exact .inr (by decide)

/-- An executable of one byte at the kernel's virtual base and one in the last page of
the address space. -/
def topKernel : List (BitVec 8) :=
  [0x7F#8, 0x45#8, 0x4C#8, 0x46#8, 2#8, 1#8] ++ List.replicate 10 0#8 ++
    littleEndian 2 etExec ++ littleEndian 2 emX8664 ++ littleEndian 4 1 ++
    littleEndian 8 kernelVirtualBase ++ littleEndian 8 64 ++ List.replicate 14 0#8 ++
    littleEndian 2 56 ++ littleEndian 2 2 ++ List.replicate 6 0#8 ++
    segmentBytes 176 kernelVirtualBase 1 1 ++ segmentBytes 176 0xFFFFFFFFFFFFF000 1 0x1000 ++
    [0x90#8]

/-- The segment that ends at the top of the address space does not count for the size
of the destination: the file is accepted with a destination of 2 MiB, and its byte is
stored almost 2 GiB past the base. -/
theorem load_escapes_top :
    ∃ kernel, (loadKernelElf (tinyFirmware topKernel) fun _ => 0).kernel = some kernel ∧
      FreshFirmware (tinyFirmware topKernel) ∧
      ¬ Confined (tinyFirmware topKernel) (fun _ => 0) kernel ∧
      kernel.kernelPhysicalBase + kernel.kernelSizeBytes = 0x600000 ∧
      (loadKernelElf (tinyFirmware topKernel) fun _ => 0).memory 0x803FF000 = 0x90#8 := by
  have accepted : (loadKernelElf (tinyFirmware topKernel) fun _ => 0).kernel =
      some ⟨0x400000, kernelVirtualBase, 0x200000, kernelVirtualBase⟩ := by decide +kernel
  have fresh : FreshFirmware (tinyFirmware topKernel) := tinyFirmware_fresh (by decide +kernel)
  have clear : TableClear (tinyFirmware topKernel)
      (storeBytes (fun _ => 0) 0x2000 topKernel) 0x2000 :=
    tinyFirmware_clear (by decide +kernel)
  have segments : loadable (programHeaders (storeBytes (fun _ => 0) 0x2000 topKernel) 0x2000) =
      [⟨1, 176, kernelVirtualBase, 1, 1⟩, ⟨1, 176, 0xFFFFFFFFFFFFF000, 1, 0x1000⟩] := by
    decide +kernel
  refine ⟨_, accepted, fresh, ?_, rfl, by decide +kernel⟩
  intro confined
  have fits := (confined_iff fresh tinyFirmware_read accepted clear).mp confined
  rw [segments] at fits
  rcases fits ⟨1, 176, 0xFFFFFFFFFFFFF000, 1, 0x1000⟩ (by simp) with empty | inside
  · cases empty
  · exact absurd inside (by decide)

end Boot

end XyronOS
