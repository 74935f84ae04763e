import XyronOS.Boot.KernelLoader

/-!
# The image of an accepted file

An ELF file is a list of bytes; its header fields are read from these bytes as the
loader reads them from the buffer. A file is well formed if its program headers
and segment data lie inside it and its loadable ranges neither wrap nor overlap.

Two results describe the loader on such files. The first scan computes the lowest
and the highest address of the loadable ranges, and the accepted size is their
distance in whole 2 MiB pages. The zero fill and the copies leave, at every offset
of the destination, the byte the file gives to the address at that distance from
the lowest one, and zero where the file gives none.
-/

namespace XyronOS

open ByteMemory WordBits

namespace Boot

/-- The bytes of a file by their offsets. -/
def fileImage (file : List (BitVec 8)) : Memory := fun offset => file.getD offset 0

def fileHeaders (file : List (BitVec 8)) : List ProgramHeader := programHeaders (fileImage file) 0

def loadable (headers : List ProgramHeader) : List ProgramHeader :=
  headers.filter fun phdr => phdr.pType = ptLoad

/-- The loadable program headers of a file. -/
def loadSegments (file : List (BitVec 8)) : List ProgramHeader := loadable (fileHeaders file)

def entryPoint (file : List (BitVec 8)) : Nat := eEntry (fileImage file) 0

/-- The virtual addresses a segment occupies. -/
def ProgramHeader.range (segment : ProgramHeader) : Set Nat :=
  Set.Ico segment.pVaddr (segment.pVaddr + segment.pMemsz)

/-- The file holds what its headers refer to, and the loadable ranges neither wrap
nor overlap. -/
structure WellFormed (file : List (BitVec 8)) : Prop where
  headersInside : ∀ i < ePhnum (fileImage file) 0,
    ePhoff (fileImage file) 0 + i * ePhentsize (fileImage file) 0 + programHeaderSize ≤ file.length
  dataInside : ∀ segment ∈ loadSegments file, segment.pOffset + segment.pFilesz ≤ file.length
  backed : ∀ segment ∈ loadSegments file, segment.pFilesz ≤ segment.pMemsz
  noWrap : ∀ segment ∈ loadSegments file, segment.pVaddr + segment.pMemsz < 2 ^ 64
  apart : (loadSegments file).Pairwise fun segment other => Disjoint segment.range other.range

/-- Lowest address of a list of segments. -/
def lowest : List ProgramHeader → Nat
  | [] => 2 ^ 64 - 1
  | segment :: rest => min segment.pVaddr (lowest rest)

/-- Highest end of a list of segments. -/
def highest : List ProgramHeader → Nat
  | [] => 0
  | segment :: rest => max (segment.pVaddr + segment.pMemsz) (highest rest)

/-- Highest end of a list of segments, each end a machine word. -/
def highestEnd : List ProgramHeader → Nat
  | [] => 0
  | segment :: rest => max (wrappingAdd segment.pVaddr segment.pMemsz) (highestEnd rest)

/-- Bytes of whole 2 MiB pages from the lowest address of the file on. -/
def mappedSize (file : List (BitVec 8)) : Nat :=
  roundUp (highest (loadSegments file) - lowest (loadSegments file)) pageSize2M

/-- Whether a segment has a file byte for a virtual address. -/
def ProgramHeader.backs (segment : ProgramHeader) (virt : Nat) : Bool :=
  decide (segment.pVaddr ≤ virt ∧ virt < segment.pVaddr + segment.pFilesz)

/-- The byte that segments of a file give to a virtual address. -/
def imageByte (file : List (BitVec 8)) (segments : List ProgramHeader) (virt : Nat) : BitVec 8 :=
  (segments.find? fun segment => segment.backs virt).elim 0 fun segment =>
    fileImage file (segment.pOffset + (virt - segment.pVaddr))

theorem lowest_le {segments : List ProgramHeader} {segment : ProgramHeader}
    (member : segment ∈ segments) : lowest segments ≤ segment.pVaddr := by
  induction segments with
  | nil => cases member
  | cons first rest inductionHypothesis =>
    cases member with
    | head => exact Nat.min_le_left _ _
    | tail _ later => exact Nat.le_trans (Nat.min_le_right _ _) (inductionHypothesis later)

theorem le_highest {segments : List ProgramHeader} {segment : ProgramHeader}
    (member : segment ∈ segments) : segment.pVaddr + segment.pMemsz ≤ highest segments := by
  induction segments with
  | nil => cases member
  | cons first rest inductionHypothesis =>
    cases member with
    | head => exact Nat.le_max_left _ _
    | tail _ later => exact Nat.le_trans (inductionHypothesis later) (Nat.le_max_right _ _)

/-- A lower bound of every segment bounds the lowest address, if it is a word. -/
theorem le_lowest {segments : List ProgramHeader} {bound : Nat} (word : bound < 2 ^ 64)
    (below : ∀ segment ∈ segments, bound ≤ segment.pVaddr) : bound ≤ lowest segments := by
  induction segments with
  | nil => exact Nat.le_sub_one_of_lt word
  | cons first rest inductionHypothesis =>
    exact Nat.le_min.mpr ⟨below first (by simp),
      inductionHypothesis fun segment member => below segment (by simp [member])⟩

theorem highest_lt {segments : List ProgramHeader} {bound : Nat} (positive : 0 < bound)
    (above : ∀ segment ∈ segments, segment.pVaddr + segment.pMemsz < bound) :
    highest segments < bound := by
  induction segments with
  | nil => exact positive
  | cons first rest inductionHypothesis =>
    exact Nat.max_lt.mpr ⟨above first (by simp),
      inductionHypothesis fun segment member => above segment (by simp [member])⟩

theorem lowest_lt (segments : List ProgramHeader) : lowest segments < 2 ^ 64 := by
  induction segments with
  | nil => exact Nat.sub_lt (Nat.two_pow_pos 64) Nat.one_pos
  | cons first rest inductionHypothesis =>
    exact Nat.lt_of_le_of_lt (Nat.min_le_right _ _) inductionHypothesis

theorem highestEnd_lt (segments : List ProgramHeader) : highestEnd segments < 2 ^ 64 := by
  induction segments with
  | nil => exact Nat.two_pow_pos 64
  | cons first rest inductionHypothesis =>
    exact Nat.max_lt.mpr ⟨Nat.mod_lt _ (Nat.two_pow_pos 64), inductionHypothesis⟩

/-- Ends that do not wrap are the exact ones. -/
theorem highestEnd_eq {segments : List ProgramHeader}
    (noWrap : ∀ segment ∈ segments, segment.pVaddr + segment.pMemsz < 2 ^ 64) :
    highestEnd segments = highest segments := by
  induction segments with
  | nil => rfl
  | cons first rest inductionHypothesis =>
    rw [highestEnd, highest, wrappingAdd_eq _ _ (noWrap first (by simp)),
      inductionHypothesis fun segment member => noWrap segment (by simp [member])]

/-- The lowest address is attained, unless it is the largest word. -/
theorem lowest_attained {segments : List ProgramHeader} (small : lowest segments < 2 ^ 64 - 1) :
    ∃ segment ∈ segments, segment.pVaddr = lowest segments := by
  induction segments with
  | nil => exact absurd small (Nat.lt_irrefl _)
  | cons first rest inductionHypothesis =>
    by_cases least : first.pVaddr ≤ lowest rest
    · exact ⟨first, by simp, (Nat.min_eq_left least).symm⟩
    · have same : lowest (first :: rest) = lowest rest := Nat.min_eq_right (Nat.le_of_not_le least)
      rw [same] at small ⊢
      obtain ⟨segment, member, attained⟩ := inductionHypothesis small
      exact ⟨segment, by simp [member], attained⟩

section Scan

/-- A header of another type passes the scan without a trace. -/
theorem Span.visit_other {span : Span} {phdr : ProgramHeader} (other : phdr.pType ≠ ptLoad) :
    span.visit phdr = some span := if_pos other

/-- A loadable header passes only in the higher half, and then moves the extremes. -/
theorem Span.visit_load {span next : Span} {phdr : ProgramHeader} (load : phdr.pType = ptLoad)
    (visited : span.visit phdr = some next) :
    kernelVirtualBase ≤ phdr.pVaddr ∧
      next = ⟨min span.minVAddr phdr.pVaddr,
        max span.maxVAddrEnd (wrappingAdd phdr.pVaddr phdr.pMemsz), true⟩ := by
  rw [Span.visit, if_neg (not_not.mpr load)] at visited
  by_cases low : phdr.pVaddr < kernelVirtualBase
  · rw [if_pos low] at visited
    cases visited
  · rw [if_neg low] at visited
    refine ⟨Nat.not_lt.mp low, ?_⟩
    rw [← Option.some.inj visited, Span.mk.injEq]
    refine ⟨?_, ?_, rfl⟩
    · split <;> omega
    · split <;> omega

/-- What the scan of a list of headers has established: the loadable ones lie in
the higher half, and the extremes are those of their ranges. -/
structure Scanned (segments : List ProgramHeader) (start span : Span) : Prop where
  higher : ∀ segment ∈ segments, kernelVirtualBase ≤ segment.pVaddr
  least : span.minVAddr = min start.minVAddr (lowest segments)
  greatest : span.maxVAddrEnd = max start.maxVAddrEnd (highest segments)
  found : span.foundAnyLoadSegment = (start.foundAnyLoadSegment || !segments.isEmpty)

/-- The scan of any headers, with the ends of the segments as machine words. -/
theorem scan_words {headers : List ProgramHeader} {start span : Span}
    (bounded : start.minVAddr ≤ 2 ^ 64 - 1)
    (scanned : headers.foldlM Span.visit start = some span) :
    (∀ segment ∈ loadable headers, kernelVirtualBase ≤ segment.pVaddr) ∧
      span = ⟨min start.minVAddr (lowest (loadable headers)),
        max start.maxVAddrEnd (highestEnd (loadable headers)),
        start.foundAnyLoadSegment || !(loadable headers).isEmpty⟩ := by
  induction headers generalizing start with
  | nil =>
    obtain rfl : start = span := Option.some.inj scanned
    have least : min start.minVAddr (lowest (loadable [])) = start.minVAddr :=
      Nat.min_eq_left bounded
    have greatest : max start.maxVAddrEnd (highestEnd (loadable [])) = start.maxVAddrEnd :=
      Nat.max_eq_left (Nat.zero_le _)
    rw [least, greatest]
    exact ⟨by simp [loadable], by simp [loadable]⟩
  | cons phdr rest inductionHypothesis =>
    rw [List.foldlM_cons] at scanned
    obtain ⟨next, visited, remaining⟩ := Option.bind_eq_some_iff.mp scanned
    by_cases load : phdr.pType = ptLoad
    · have kept : loadable (phdr :: rest) = phdr :: loadable rest := by simp [loadable, load]
      obtain ⟨high, rfl⟩ := Span.visit_load load visited
      obtain ⟨higher, rfl⟩ :=
        inductionHypothesis (Nat.le_trans (Nat.min_le_left _ _) bounded) remaining
      rw [kept]
      constructor
      · intro segment member
        cases member with
        | head => exact high
        | tail _ later => exact higher segment later
      · simp only [lowest, highestEnd, Nat.min_assoc, Nat.max_assoc, List.isEmpty_cons,
          Bool.true_or, Bool.not_false, Bool.or_true]
    · have dropped : loadable (phdr :: rest) = loadable rest := by simp [loadable, load]
      rw [Span.visit_other load] at visited
      obtain rfl := Option.some.inj visited
      rw [dropped]
      exact inductionHypothesis bounded remaining

theorem scan_spec {headers : List ProgramHeader} {start span : Span}
    (bounded : start.minVAddr ≤ 2 ^ 64 - 1)
    (noWrap : ∀ segment ∈ loadable headers, segment.pVaddr + segment.pMemsz < 2 ^ 64)
    (scanned : headers.foldlM Span.visit start = some span) :
    Scanned (loadable headers) start span := by
  obtain ⟨higher, rfl⟩ := scan_words bounded scanned
  exact ⟨higher, rfl, by rw [highestEnd_eq noWrap], rfl⟩

end Scan

/-- Rounding to 2 MiB does not wrap away from the end of the address space. -/
theorem roundUpTo_eq (value : Nat) (fits : value + pageSize2M ≤ 2 ^ 64) :
    roundUpTo value pageSize2M = roundUp value pageSize2M := by
  apply roundUpTo_pow value 21 (by decide)
  unfold pageSize2M at fits
  omega

/-- Memory holds a file at a buffer that does not run past the address space. -/
structure Holds (memory : Memory) (fileBuffer : Nat) (file : List (BitVec 8)) : Prop where
  bytes : ∀ offset < file.length, memory (fileBuffer + offset) = fileImage file offset
  fits : fileBuffer + file.length ≤ 2 ^ 64

theorem holds_storeBytes (memory : Memory) (fileBuffer : Nat) (file : List (BitVec 8))
    (fits : fileBuffer + file.length ≤ 2 ^ 64) :
    Holds (storeBytes memory fileBuffer file) fileBuffer file := by
  refine ⟨?_, fits⟩
  intro offset inside
  have covered : fileBuffer ≤ fileBuffer + offset ∧
      fileBuffer + offset < fileBuffer + file.length := by omega
  simp [storeBytes, covered, fileImage]

section Headers

variable {memory : Memory} {fileBuffer : Nat} {file : List (BitVec 8)}
  (holds : Holds memory fileBuffer file)

include holds

/-- A field inside the file reads the same in the buffer and in the file. -/
theorem Holds.load (offset width : Nat) (inside : offset + width ≤ file.length) :
    load memory (fileBuffer + offset) width = ByteMemory.load (fileImage file) (0 + offset) width := by
  apply load_shift
  intro byte early
  rw [Nat.add_assoc, holds.bytes _ (by omega), Nat.zero_add]

/-- The bytes of the buffer are all that matters. -/
theorem Holds.congr {after : Memory}
    (same : ∀ offset < file.length, after (fileBuffer + offset) = memory (fileBuffer + offset)) :
    Holds after fileBuffer file :=
  ⟨fun offset inside => (same offset inside).trans (holds.bytes offset inside), holds.fits⟩

theorem Holds.eEntry (sized : elfHeaderSize ≤ file.length) :
    eEntry memory fileBuffer = entryPoint file := holds.load 24 8 (by unfold elfHeaderSize at sized; omega)

theorem Holds.ePhoff (sized : elfHeaderSize ≤ file.length) :
    ePhoff memory fileBuffer = Boot.ePhoff (fileImage file) 0 :=
  holds.load 32 8 (by unfold elfHeaderSize at sized; omega)

theorem Holds.ePhentsize (sized : elfHeaderSize ≤ file.length) :
    ePhentsize memory fileBuffer = Boot.ePhentsize (fileImage file) 0 :=
  holds.load 54 2 (by unfold elfHeaderSize at sized; omega)

theorem Holds.ePhnum (sized : elfHeaderSize ≤ file.length) :
    ePhnum memory fileBuffer = Boot.ePhnum (fileImage file) 0 :=
  holds.load 56 2 (by unfold elfHeaderSize at sized; omega)

/-- A program header inside the file reads the same in the buffer and in the file. -/
theorem Holds.programHeader (sized : elfHeaderSize ≤ file.length) (i : Nat)
    (inside : Boot.ePhoff (fileImage file) 0 + i * Boot.ePhentsize (fileImage file) 0 +
      programHeaderSize ≤ file.length) :
    programHeader memory fileBuffer i = Boot.programHeader (fileImage file) 0 i := by
  have fits := holds.fits
  rw [Boot.programHeader, Boot.programHeader, phdrBytes, phdrBytes, holds.ePhoff sized,
    holds.ePhentsize sized]
  generalize Boot.ePhoff (fileImage file) 0 = table at inside
  generalize i * Boot.ePhentsize (fileImage file) 0 = entry at inside
  unfold programHeaderSize at inside
  rw [wrappingAdd_eq fileBuffer table (by omega), wrappingAdd_eq _ entry (by omega),
    wrappingAdd_eq 0 table (by omega), wrappingAdd_eq _ entry (by omega), Nat.zero_add,
    Nat.add_assoc]
  have field (offset width : Nat) (within : offset + width ≤ 56) :
      ByteMemory.load memory (fileBuffer + (table + entry) + offset) width =
        ByteMemory.load (fileImage file) (table + entry + offset) width := by
    rw [Nat.add_assoc fileBuffer, holds.load _ _ (by omega), Nat.zero_add]
  simp only [readProgramHeader, load32, load64, ProgramHeader.mk.injEq]
  exact ⟨field 0 4 (by decide), field 8 8 (by decide), field 16 8 (by decide),
    field 32 8 (by decide), field 40 8 (by decide)⟩

/-- The table of a well-formed file is read as the file has it. -/
theorem Holds.programHeaders (sized : elfHeaderSize ≤ file.length) (wellFormed : WellFormed file) :
    programHeaders memory fileBuffer = fileHeaders file := by
  rw [Boot.programHeaders, fileHeaders, Boot.programHeaders, holds.ePhnum sized]
  apply List.map_congr_left
  intro i member
  exact holds.programHeader sized i (wellFormed.headersInside i (List.mem_range.mp member))

end Headers

/-- What the checks before the allocation establish about a well-formed file. -/
structure Planned (file : List (BitVec 8)) (plan : ImagePlan) : Prop where
  sized : elfHeaderSize ≤ file.length
  higher : ∀ segment ∈ loadSegments file, kernelVirtualBase ≤ segment.pVaddr
  minVAddr : plan.minVAddr = lowest (loadSegments file)
  alignedSize : plan.alignedSize = mappedSize file
  positive : 0 < plan.alignedSize
  bounded : plan.alignedSize ≤ kernelMaxSizeBytes
  entry : lowest (loadSegments file) ≤ entryPoint file ∧
    entryPoint file < highest (loadSegments file)

/-- The span of a well-formed file is a distance in the higher half. -/
theorem WellFormed.span {file : List (BitVec 8)} (wellFormed : WellFormed file)
    (higher : ∀ segment ∈ loadSegments file, kernelVirtualBase ≤ segment.pVaddr)
    (found : loadSegments file ≠ []) :
    kernelVirtualBase ≤ lowest (loadSegments file) ∧
      lowest (loadSegments file) ≤ highest (loadSegments file) ∧
      highest (loadSegments file) < 2 ^ 64 := by
  obtain ⟨segment, member⟩ := List.exists_mem_of_ne_nil _ found
  have low := lowest_le member
  have high := le_highest member
  refine ⟨le_lowest (by decide) higher, by omega, highest_lt (by decide) wellFormed.noWrap⟩

/-- A well-formed file that passes the checks has the plan its headers give. -/
theorem planImage_planned {memory : Memory} {fileBuffer : Nat} {file : List (BitVec 8)}
    {plan : ImagePlan} (holds : Holds memory fileBuffer file) (wellFormed : WellFormed file)
    (passed : planImage memory fileBuffer file.length = some plan) : Planned file plan := by
  obtain ⟨sized, span, scanned, found, rfl, positive, bounded, entryLow, entryHigh⟩ :=
    planImage_inversion passed
  rw [holds.programHeaders sized wellFormed] at scanned
  have scan := scan_spec (Nat.le_refl _) wellFormed.noWrap scanned
  rw [holds.eEntry sized] at entryLow entryHigh
  have nonempty : loadSegments file ≠ [] := by
    intro empty
    have blank := scan.found
    rw [show loadable (fileHeaders file) = [] from empty] at blank
    simp [blank, Span.initial] at found
  obtain ⟨base, ordered, top⟩ := wellFormed.span scan.higher nonempty
  have least : span.minVAddr = lowest (loadSegments file) := by
    rw [scan.least]
    exact Nat.min_eq_right (by change lowest (loadSegments file) ≤ 2 ^ 64 - 1; omega)
  have greatest : span.maxVAddrEnd = highest (loadSegments file) := by
    rw [scan.greatest]
    exact Nat.max_eq_right (Nat.zero_le _)
  have rounded : roundUpTo (wrappingSub span.maxVAddrEnd span.minVAddr) pageSize2M =
      mappedSize file := by
    rw [least, greatest, wrappingSub_eq _ _ ordered top, roundUpTo_eq]
    · rfl
    · unfold kernelVirtualBase at base
      unfold pageSize2M
      omega
  rw [least] at entryLow
  rw [greatest] at entryHigh
  exact ⟨sized, scan.higher, least, rounded, positive, bounded, entryLow, entryHigh⟩

/-- A copy between ranges that do not overlap or wrap moves the source bytes and
changes nothing else. -/
theorem copyBytes_eq (memory : Memory) (dest src count : Nat) (destFits : dest + count ≤ 2 ^ 64)
    (srcFits : src + count ≤ 2 ^ 64) (apart : src + count ≤ dest ∨ dest + count ≤ src)
    (target : Nat) :
    copyBytes memory dest src count target =
      if dest ≤ target ∧ target < dest + count then memory (src + (target - dest))
      else memory target := by
  induction count generalizing target with
  | zero => rw [copyBytes, if_neg (by omega)]
  | succ b inductionHypothesis =>
    have earlier := inductionHypothesis (by omega) (by omega) (by omega)
    rw [copyBytes, wrappingAdd_eq dest b (by omega), wrappingAdd_eq src b (by omega)]
    by_cases last : target = dest + b
    · rw [last, Function.update_self, earlier, if_neg (by omega), if_pos (by omega)]
      congr 1
      omega
    · rw [Function.update_of_ne last, earlier]
      exact if_congr (by omega) rfl rfl

section Image

variable {file : List (BitVec 8)} {segments : List ProgramHeader}

theorem ProgramHeader.backs_iff (segment : ProgramHeader) (virt : Nat) :
    segment.backs virt = true ↔
      segment.pVaddr ≤ virt ∧ virt < segment.pVaddr + segment.pFilesz :=
  decide_eq_true_iff

/-- Where no segment has a file byte, the image is zero. -/
theorem imageByte_absent {virt : Nat}
    (absent : ∀ segment ∈ segments, segment.backs virt = false) :
    imageByte file segments virt = 0 := by
  have none : segments.find? (fun segment => segment.backs virt) = none :=
    List.find?_eq_none.mpr fun segment member => by simp [absent segment member]
  rw [imageByte, none, Option.elim_none]

/-- The file byte of a segment is the image byte: no other segment has one there. -/
theorem imageByte_mem {segment : ProgramHeader} {virt : Nat}
    (apart : segments.Pairwise fun segment other => Disjoint segment.range other.range)
    (backed : ∀ segment ∈ segments, segment.pFilesz ≤ segment.pMemsz)
    (member : segment ∈ segments) (here : segment.backs virt = true) :
    imageByte file segments virt = fileImage file (segment.pOffset + (virt - segment.pVaddr)) := by
  have inRange (other : ProgramHeader) (known : other ∈ segments)
      (covers : other.backs virt = true) : virt ∈ other.range := by
    have bounds := (other.backs_iff virt).mp covers
    have sized := backed other known
    exact Set.mem_Ico.mpr ⟨bounds.1, by omega⟩
  cases found : segments.find? (fun segment => segment.backs virt) with
  | none => exact absurd here (List.find?_eq_none.mp found segment member)
  | some other =>
    have known := List.mem_of_find?_eq_some found
    have covers : other.backs virt = true :=
      @List.find?_some _ (fun segment : ProgramHeader => segment.backs virt) _ _ found
    have same : other = segment := by
      by_contra different
      have symmetric : Std.Symm fun segment other : ProgramHeader =>
          Disjoint segment.range other.range := ⟨fun _ _ away => away.symm⟩
      have disjoint := apart.forall known member different
      exact Set.disjoint_left.mp disjoint (inRange other known covers)
        (inRange segment member here)
    rw [imageByte, found, Option.elim_some, same]

/-- A segment that has no file byte for an address does not change the image there. -/
theorem imageByte_append_absent {segment : ProgramHeader} {virt : Nat}
    (absent : segment.backs virt = false) :
    imageByte file (segments ++ [segment]) virt = imageByte file segments virt := by
  have alone : [segment].find? (fun segment => segment.backs virt) = none := by simp [absent]
  rw [imageByte, imageByte, List.find?_append, alone, Option.or_none]

end Image

/-- The destination after some segments were copied into it: their image from the
lowest address on, with all other memory as before. -/
structure Imaged (file : List (BitVec 8)) (plan : ImagePlan) (base : Nat)
    (segments : List ProgramHeader) (before after : Memory) : Prop where
  image : ∀ offset < plan.alignedSize,
    after (base + offset) = imageByte file segments (plan.minVAddr + offset)
  outside : ∀ target, target < base ∨ base + plan.alignedSize ≤ target →
    after target = before target

section Copy

variable {file : List (BitVec 8)} {plan : ImagePlan} {fileBuffer base : Nat}
  {before after : Memory} (wellFormed : WellFormed file) (planned : Planned file plan)
  (holds : Holds before fileBuffer file) (fits : base + plan.alignedSize ≤ 2 ^ 64)
  (apart : fileBuffer + file.length ≤ base ∨ base + plan.alignedSize ≤ fileBuffer)

include planned in
/-- A loadable segment lies within the planned span. -/
theorem Planned.inside {segment : ProgramHeader} (member : segment ∈ loadSegments file) :
    plan.minVAddr ≤ segment.pVaddr ∧
      segment.pVaddr - plan.minVAddr + segment.pMemsz ≤ plan.alignedSize := by
  have low := lowest_le member
  have high := le_highest member
  have rounded := le_roundUp (highest (loadSegments file) - lowest (loadSegments file)) pageSize2M
    (by decide)
  have size : plan.alignedSize =
      roundUp (highest (loadSegments file) - lowest (loadSegments file)) pageSize2M :=
    planned.alignedSize
  rw [planned.minVAddr]
  omega

include holds apart in
/-- The file buffer lies outside the destination and keeps the file. -/
theorem Imaged.heldFile {segments : List ProgramHeader}
    (imaged : Imaged file plan base segments before after) : Holds after fileBuffer file := by
  apply holds.congr
  intro offset inside
  exact imaged.outside _ (by omega)

include wellFormed planned holds fits apart in
/-- Copying one more loadable segment adds it to the image. -/
theorem Imaged.copySegment {segments : List ProgramHeader} {segment : ProgramHeader}
    (imaged : Imaged file plan base segments before after)
    (known : ∀ other ∈ segments ++ [segment], other ∈ loadSegments file)
    (disjoint : (segments ++ [segment]).Pairwise fun segment other =>
      Disjoint segment.range other.range) (load : segment.pType = ptLoad) :
    Imaged file plan base (segments ++ [segment]) before
      (copySegment after fileBuffer base plan.minVAddr segment) := by
  have member := known segment (by simp)
  have room := planned.inside member
  have data := wellFormed.dataInside segment member
  have backed := wellFormed.backed segment member
  have wrap := wellFormed.noWrap segment member
  have bufferFits := holds.fits
  have held := imaged.heldFile holds apart
  have copied : Boot.copySegment after fileBuffer base plan.minVAddr segment =
      copyBytes after (base + (segment.pVaddr - plan.minVAddr)) (fileBuffer + segment.pOffset)
        segment.pFilesz := by
    rw [Boot.copySegment, if_neg (not_not.mpr load)]
    simp only
    by_cases empty : segment.pFilesz = 0
    · rw [empty]
      rfl
    · rw [wrappingSub_eq _ _ room.1 (by omega), wrappingAdd_eq base _ (by omega),
        wrappingAdd_eq fileBuffer _ (by omega)]
  have value := copyBytes_eq after (base + (segment.pVaddr - plan.minVAddr))
    (fileBuffer + segment.pOffset) segment.pFilesz (by omega) (by omega) (by omega)
  rw [copied]
  constructor
  · intro offset inside
    rw [value]
    cases covers : segment.backs (plan.minVAddr + offset) with
    | true =>
      have bounds := (segment.backs_iff _).mp covers
      rw [if_pos (by omega), imageByte_mem disjoint
        (fun other found => wellFormed.backed other (known other found)) (by simp) covers,
        Nat.add_assoc, held.bytes _ (by omega)]
      congr 1
      omega
    | false =>
      have missed : ¬ (segment.pVaddr ≤ plan.minVAddr + offset ∧
          plan.minVAddr + offset < segment.pVaddr + segment.pFilesz) := by
        rw [← segment.backs_iff, covers]
        exact Bool.false_ne_true
      rw [if_neg (by omega), imageByte_append_absent covers]
      exact imaged.image offset inside
  · intro target away
    rw [value, if_neg (by omega)]
    exact imaged.outside target away

include wellFormed planned holds fits apart in
/-- The copy loop builds the image of the headers it has passed. -/
theorem Imaged.copySegments (zeroed : Imaged file plan base [] before after) (i : Nat)
    (bounded : i ≤ ePhnum (fileImage file) 0) :
    Imaged file plan base (loadable ((fileHeaders file).take i)) before
      (copySegments after fileBuffer base plan.minVAddr i) := by
  induction i with
  | zero => exact zeroed
  | succ i inductionHypothesis =>
    have imaged := inductionHypothesis (by omega)
    have held := imaged.heldFile holds apart
    have header := held.programHeader planned.sized i (wellFormed.headersInside i (by omega))
    have next : (fileHeaders file).take (i + 1) =
        (fileHeaders file).take i ++ [programHeader (fileImage file) 0 i] := by
      have long : i < (fileHeaders file).length := by simp [fileHeaders, programHeaders]; omega
      rw [List.take_succ_eq_append_getElem long]
      simp [fileHeaders, programHeaders]
    have sublist : (loadable ((fileHeaders file).take (i + 1))).Sublist (loadSegments file) :=
      (List.take_sublist _ _).filter _
    rw [Boot.copySegments, header]
    by_cases load : (programHeader (fileImage file) 0 i).pType = ptLoad
    · have grown : loadable ((fileHeaders file).take (i + 1)) =
          loadable ((fileHeaders file).take i) ++ [programHeader (fileImage file) 0 i] := by
        rw [next]
        simp [loadable, load]
      rw [grown] at sublist ⊢
      exact imaged.copySegment wellFormed planned holds fits apart
        (fun other member => sublist.subset member) (wellFormed.apart.sublist sublist) load
    · have same : loadable ((fileHeaders file).take (i + 1)) =
          loadable ((fileHeaders file).take i) := by
        rw [next]
        simp [loadable, load]
      rw [same, Boot.copySegment, if_pos load]
      exact imaged

include wellFormed planned holds fits apart in
/-- The loaded image, byte by byte. -/
theorem placeImage_imaged :
    Imaged file plan base (loadSegments file) before (placeImage before fileBuffer base plan) := by
  have zeroed : Imaged file plan base [] before (fill before base plan.alignedSize 0) := by
    constructor
    · intro offset inside
      rw [fill, if_pos (by omega)]
      rfl
    · intro target away
      exact fill_outside _ _ _ _ _ away
  have count := (zeroed.heldFile holds apart).ePhnum planned.sized
  have whole := zeroed.copySegments wellFormed planned holds fits apart
    (Boot.ePhnum (fileImage file) 0) (Nat.le_refl _)
  have everything : (fileHeaders file).take (Boot.ePhnum (fileImage file) 0) = fileHeaders file := by
    apply List.take_of_length_le
    simp [fileHeaders, programHeaders]
  rw [everything] at whole
  rw [placeImage]
  simp only [count]
  exact whole

end Copy

end Boot

end XyronOS
