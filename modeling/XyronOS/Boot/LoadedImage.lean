import XyronOS.Boot.LoaderWrites

/-!
# What an accepted file becomes

Two questions about a file the loader has accepted. The first is what the
destination holds: at the distance of an address from the lowest loadable one lies
the file byte of the segment that has one for the address, and zero everywhere
else.

The second is where the entry point lies. The loader compares it with the lowest
start and the highest end of all loadable segments, and the ends are machine words.
A segment list may have holes between these two, and an entry point in a hole
passes. So the comparison is as good as the header table it is made with: it lets only
covered entry points pass exactly if each segment that ends before the highest end is
continued by another one.
-/

namespace XyronOS

open ByteMemory WordBits

namespace Boot

/-- What the destination of a loaded file holds, and how it is aligned. -/
structure ImageInPlace (file : List (BitVec 8)) (kernel : LoadedKernel) (memory : Memory) :
    Prop where
  lowest : kernel.kernelVirtualBase = lowest (loadSegments file)
  backed : ∀ offset < kernel.kernelSizeBytes, ∀ segment ∈ loadSegments file,
    segment.pVaddr ≤ kernel.kernelVirtualBase + offset →
    kernel.kernelVirtualBase + offset < segment.pVaddr + segment.pFilesz →
    file[segment.pOffset + (kernel.kernelVirtualBase + offset - segment.pVaddr)]? =
      some (memory (kernel.kernelPhysicalBase + offset))
  zero : ∀ offset < kernel.kernelSizeBytes,
    (∀ segment ∈ loadSegments file, ¬ (segment.pVaddr ≤ kernel.kernelVirtualBase + offset ∧
      kernel.kernelVirtualBase + offset < segment.pVaddr + segment.pFilesz)) →
    memory (kernel.kernelPhysicalBase + offset) = 0
  baseAligned : kernel.kernelPhysicalBase % pageSize2M = 0
  sizeAligned : kernel.kernelSizeBytes % pageSize2M = 0

/-- The content of the destination for every well-formed file the loader accepts. -/
theorem load_image_exact {firmware : Firmware} {memory : Memory} {kernel : LoadedKernel}
    {fileBuffer : Nat} {file : List (BitVec 8)} (fresh : FreshFirmware firmware)
    (read : (readKernelFile firmware).1 = some (fileBuffer, file)) (wellFormed : WellFormed file)
    (accepted : (loadKernelElf firmware memory).kernel = some kernel) :
    ImageInPlace file kernel (loadKernelElf firmware memory).memory := by
  obtain ⟨plan, physAllocation, allocated, loaded⟩ :=
    loadKernelElf_loaded fresh read wellFormed accepted
  have base : kernel.kernelVirtualBase = lowest (loadSegments file) := by
    obtain ⟨size, pool, contents⟩ := readKernelFile_inversion read
    have bufferFits := fresh.bufferFits size fileBuffer pool
    have length := fresh.readFits size file contents
    obtain ⟨_, _, passed, _, _, rfl⟩ := loadKernelElf_inversion read accepted
    exact (planImage_planned (holds_storeBytes memory fileBuffer file (by omega)) wellFormed
      passed).minVAddr
  refine ⟨base, ?_, ?_, loaded.aligned, ?_⟩
  · intro offset inside segment member lower upper
    rw [loaded.size] at inside
    rw [base] at lower upper ⊢
    have covers : segment.backs (lowest (loadSegments file) + offset) = true :=
      (segment.backs_iff _).mpr ⟨lower, upper⟩
    have data := wellFormed.dataInside segment member
    rw [loaded.image offset inside,
      imageByte_mem wellFormed.apart wellFormed.backed member covers, fileImage,
      List.getD_eq_getElem?_getD, List.getElem?_eq_getElem (by omega), Option.getD_some]
  · intro offset inside absent
    rw [loaded.size] at inside
    rw [base] at absent
    rw [loaded.image offset inside]
    apply imageByte_absent
    intro segment member
    rw [← Bool.not_eq_true, segment.backs_iff]
    exact absent segment member
  · rw [loaded.size]
    exact loaded.planned.wholePages

/-- An executable of two segments, the higher one first and with a page of memory for its
one byte, a note between their headers and two pages between their ranges. Entries of the
table are longer than a header. -/
def scatteredKernel : List (BitVec 8) :=
  [0x7F#8, 0x45#8, 0x4C#8, 0x46#8, 2#8, 1#8] ++ List.replicate 10 0#8 ++
    littleEndian 2 etExec ++ littleEndian 2 emX8664 ++ littleEndian 4 1 ++
    littleEndian 8 kernelVirtualBase ++ littleEndian 8 64 ++ List.replicate 14 0#8 ++
    littleEndian 2 64 ++ littleEndian 2 3 ++ List.replicate 6 0#8 ++
    segmentBytes 258 (kernelVirtualBase + 0x3000) 1 0x1000 ++ List.replicate 8 0#8 ++
    littleEndian 4 4 ++ List.replicate 60 0#8 ++
    segmentBytes 256 kernelVirtualBase 2 2 ++ List.replicate 8 0#8 ++ [0x90#8, 0xF4#8, 0xCC#8]

theorem scatteredKernel_wellFormed : WellFormed scatteredKernel := by
  have segments : loadSegments scatteredKernel =
      [⟨1, 258, kernelVirtualBase + 0x3000, 1, 0x1000⟩, ⟨1, 256, kernelVirtualBase, 2, 2⟩] := by
    decide +kernel
  have length : scatteredKernel.length = 259 := by decide +kernel
  constructor
  · decide +kernel
  · rw [segments, length]
    decide
  · rw [segments]
    decide
  · rw [segments]
    decide
  · rw [segments, List.pairwise_pair, Set.disjoint_left]
    intro virt high low
    have above := (Set.mem_Ico.mp high).1
    have below := (Set.mem_Ico.mp low).2
    simp only at above below
    omega

/-- It is loaded with its bytes in place and zeros in the gap and behind the byte of the
higher segment. -/
theorem load_image_exact_scattered :
    ImageInPlace scatteredKernel ⟨0x400000, kernelVirtualBase, 0x200000, kernelVirtualBase⟩
        (loadKernelElf (tinyFirmware scatteredKernel) fun _ => 0xAF).memory ∧
      [0x400000, 0x400001, 0x400002, 0x402FFF, 0x403000, 0x403001, 0x5FFFFF].map
        (loadKernelElf (tinyFirmware scatteredKernel) fun _ => 0xAF).memory =
        [0x90#8, 0xF4#8, 0#8, 0#8, 0xCC#8, 0#8, 0#8] := by
  have accepted : (loadKernelElf (tinyFirmware scatteredKernel) fun _ => 0xAF).kernel =
      some ⟨0x400000, kernelVirtualBase, 0x200000, kernelVirtualBase⟩ := by decide +kernel
  exact ⟨load_image_exact (tinyFirmware_fresh (by decide +kernel)) tinyFirmware_read
    scatteredKernel_wellFormed accepted, by decide +kernel⟩

section EntryPoint

variable {segments : List ProgramHeader}

/-- The furthest end of the segments that start at or below an address. -/
def reach (segments : List ProgramHeader) (virt : Nat) : Nat :=
  highest (segments.filter fun segment => segment.pVaddr ≤ virt)

/-- Each segment that ends before the highest end the loader computes is continued:
another one covers the address where it ends. -/
def GapFree (segments : List ProgramHeader) : Prop :=
  ∀ segment ∈ segments, segment.pVaddr + segment.pMemsz < highestEnd segments →
    ∃ other ∈ segments, segment.pVaddr + segment.pMemsz ∈ other.range

/-- Some segment attains the highest end, if there is one above zero. -/
theorem highest_attained (positive : 0 < highest segments) :
    ∃ segment ∈ segments, segment.pVaddr + segment.pMemsz = highest segments := by
  induction segments with
  | nil => exact absurd positive (Nat.lt_irrefl _)
  | cons first rest inductionHypothesis =>
    by_cases furthest : highest rest ≤ first.pVaddr + first.pMemsz
    · exact ⟨first, by simp, (Nat.max_eq_left furthest).symm⟩
    · have same : highest (first :: rest) = highest rest :=
        Nat.max_eq_right (Nat.le_of_not_le furthest)
      rw [same] at positive ⊢
      obtain ⟨segment, member, attained⟩ := inductionHypothesis positive
      exact ⟨segment, by simp [member], attained⟩

/-- An address is covered exactly if the segments that start at or below it reach
beyond it. -/
theorem covered_iff_lt_reach (virt : Nat) :
    (∃ segment ∈ segments, virt ∈ segment.range) ↔ virt < reach segments virt := by
  constructor
  · rintro ⟨segment, member, inside⟩
    obtain ⟨lower, upper⟩ := Set.mem_Ico.mp inside
    have kept : segment ∈ segments.filter fun segment => segment.pVaddr ≤ virt :=
      List.mem_filter.mpr ⟨member, by simpa using lower⟩
    exact Nat.lt_of_lt_of_le upper (le_highest kept)
  · intro beyond
    obtain ⟨segment, kept, furthest⟩ := highest_attained (Nat.lt_of_le_of_lt (Nat.zero_le _) beyond)
    obtain ⟨member, lower⟩ := List.mem_filter.mp kept
    refine ⟨segment, member, Set.mem_Ico.mpr ⟨by simpa using lower, ?_⟩⟩
    rw [furthest]
    exact beyond

/-- Every address between the lowest start and the highest end is covered exactly if
the segments leave no gap. From right to left, the segment that reaches furthest
among those that start at or below an uncovered address would have to be continued
by one that reaches further. -/
theorem gapFree_iff (higher : ∀ segment ∈ segments, 0 < segment.pVaddr) :
    GapFree segments ↔ ∀ virt, lowest segments ≤ virt → virt < highestEnd segments →
      ∃ segment ∈ segments, virt ∈ segment.range := by
  constructor
  · intro gapFree virt lower upper
    rw [covered_iff_lt_reach]
    by_contra short
    have small : lowest segments < 2 ^ 64 - 1 := by
      have top := highestEnd_lt segments
      omega
    obtain ⟨first, firstMember, start⟩ := lowest_attained small
    have firstKept : first ∈ segments.filter fun segment => segment.pVaddr ≤ virt :=
      List.mem_filter.mpr ⟨firstMember, by simpa using start.trans_le lower⟩
    have positive : 0 < reach segments virt := by
      have above := le_highest firstKept
      have nonzero := higher first firstMember
      unfold reach
      omega
    obtain ⟨last, lastKept, furthest⟩ := highest_attained positive
    obtain ⟨lastMember, _⟩ := List.mem_filter.mp lastKept
    have stop : last.pVaddr + last.pMemsz = reach segments virt := furthest
    obtain ⟨next, nextMember, continued⟩ := gapFree last lastMember (by omega)
    obtain ⟨nextLower, nextUpper⟩ := Set.mem_Ico.mp continued
    have nextKept : next ∈ segments.filter fun segment => segment.pVaddr ≤ virt :=
      List.mem_filter.mpr ⟨nextMember, decide_eq_true (by omega)⟩
    have bounded : next.pVaddr + next.pMemsz ≤ reach segments virt := le_highest nextKept
    omega
  · intro covered segment member early
    have start := lowest_le member
    exact covered _ (by omega) early

end EntryPoint

section OtherEntries

/-- The entry point of a file in its buffer lies in a loadable segment. -/
def EntryCovered (memory : Memory) (fileBuffer : Nat) : Prop :=
  ∃ segment ∈ loadable (programHeaders memory fileBuffer), eEntry memory fileBuffer ∈ segment.range

/-- The file with another entry point. -/
def withEntry (file : List (BitVec 8)) (entry : Nat) : List (BitVec 8) :=
  (List.range file.length).map (store64 (fileImage file) 24 entry)

/-- Firmware that hands out the file with another entry point. -/
def Firmware.withEntry (firmware : Firmware) (entry : Nat) : Firmware :=
  { firmware with read := fun size => (firmware.read size).map (Boot.withEntry · entry) }

/-- No program header lies over the entry point field. -/
def EntryApart (memory : Memory) (fileBuffer : Nat) : Prop :=
  ∀ i < ePhnum memory fileBuffer,
    Clear (fileBuffer + 24) 8 (phdrBytes memory fileBuffer i) programHeaderSize

theorem length_withEntry (file : List (BitVec 8)) (entry : Nat) :
    (withEntry file entry).length = file.length := by
  simp [withEntry]

theorem read_withEntry {firmware : Firmware} {fileBuffer : Nat} {file : List (BitVec 8)}
    (read : (readKernelFile firmware).1 = some (fileBuffer, file)) (entry : Nat) :
    (readKernelFile (firmware.withEntry entry)).1 = some (fileBuffer, withEntry file entry) := by
  rw [readKernelFile] at read ⊢
  simp only [Firmware.withEntry]
  cases opened : firmware.opens with
  | false => simp [opened] at read
  | true =>
    cases info : firmware.infoPool with
    | none => simp [opened, info] at read
    | some fileInfo =>
      cases sized : firmware.fileSize with
      | none => simp [opened, info, sized] at read
      | some fileSize =>
        cases pool : firmware.filePool fileSize with
        | none => simp [opened, info, sized, pool] at read
        | some buffer =>
          cases contents : firmware.read fileSize with
          | none => simp [opened, info, sized, pool, contents] at read
          | some bytes =>
            simp only [opened, info, sized, pool, contents] at read
            obtain ⟨rfl, rfl⟩ := Prod.mk.inj (Option.some.inj read)
            simp only [pool, contents, Option.map_some]

/-- In the buffer, the file with another entry point is the file with that one stored. -/
theorem storeBytes_withEntry (memory : Memory) (fileBuffer : Nat) {file : List (BitVec 8)}
    (sized : elfHeaderSize ≤ file.length) (entry : Nat) :
    storeBytes memory fileBuffer (withEntry file entry) =
      store64 (storeBytes memory fileBuffer file) (fileBuffer + 24) entry := by
  unfold elfHeaderSize at sized
  funext target
  by_cases inside : fileBuffer ≤ target ∧ target < fileBuffer + file.length
  · have early : target - fileBuffer < file.length := by omega
    have image : storeBytes memory fileBuffer (withEntry file entry) target =
        store64 (fileImage file) 24 entry (target - fileBuffer) := by
      rw [storeBytes, length_withEntry, if_pos inside, withEntry, List.getD_eq_getElem?_getD,
        List.getElem?_map, List.getElem?_range early]
      rfl
    rw [image]
    by_cases field : 24 ≤ target - fileBuffer ∧ target - fileBuffer < 24 + 8
    · have same : fileBuffer + 24 ≤ target ∧ target < fileBuffer + 24 + 8 := by omega
      rw [store64, store64, store, store, if_pos field, if_pos same, Nat.sub_add_eq]
    · rw [store64_outside _ _ _ _ (by omega), store64_outside _ _ _ _ (by omega), fileImage,
        storeBytes, if_pos inside]
  · have away : target < fileBuffer ∨ fileBuffer + file.length ≤ target := by omega
    have awayToo : target < fileBuffer ∨
        fileBuffer + (withEntry file entry).length ≤ target := by
      rwa [length_withEntry]
    rw [store64_outside _ _ _ _ (by omega), storeBytes_outside _ _ _ _ away,
      storeBytes_outside _ _ _ _ awayToo]

section Stored

variable {memory : Memory} {fileBuffer : Nat} (entry : Nat)

/-- Another entry point changes no byte outside its field. -/
theorem agree_entry :
    AgreeOutside (fileBuffer + 24) 8 (store64 memory (fileBuffer + 24) entry) memory :=
  fun _ away => store64_outside _ _ _ _ away

/-- The format checks do not look at the entry point. -/
theorem validateElfHeader_entry :
    validateElfHeader (store64 memory (fileBuffer + 24) entry) fileBuffer =
      validateElfHeader memory fileBuffer := by
  have field (offset width : Nat) (away : offset + width ≤ 24 ∨ 32 ≤ offset) :
      load (store64 memory (fileBuffer + 24) entry) (fileBuffer + offset) width =
        load memory (fileBuffer + offset) width := by
    apply (agree_entry entry).load_eq
    unfold Clear
    omega
  unfold validateElfHeader eIdent eMachine eType ePhnum ePhentsize
  rw [field 0 1 (by decide), field 1 1 (by decide), field 2 1 (by decide), field 3 1 (by decide),
    field 4 1 (by decide), field 5 1 (by decide), field 18 2 (by decide), field 16 2 (by decide),
    field 56 2 (by decide), field 54 2 (by decide)]

/-- Nor does the table, if it is apart from that field. -/
theorem programHeaders_entry (apart : EntryApart memory fileBuffer) :
    programHeaders (store64 memory (fileBuffer + 24) entry) fileBuffer =
      programHeaders memory fileBuffer := by
  have agree := @agree_entry memory fileBuffer entry
  have field (offset width : Nat) (late : 32 ≤ offset) :
      load (store64 memory (fileBuffer + 24) entry) (fileBuffer + offset) width =
        load memory (fileBuffer + offset) width := by
    apply agree.load_eq
    unfold Clear
    omega
  have count : ePhnum (store64 memory (fileBuffer + 24) entry) fileBuffer =
      ePhnum memory fileBuffer := field 56 2 (by decide)
  have table : ePhoff (store64 memory (fileBuffer + 24) entry) fileBuffer =
      ePhoff memory fileBuffer := field 32 8 (by decide)
  have stride : ePhentsize (store64 memory (fileBuffer + 24) entry) fileBuffer =
      ePhentsize memory fileBuffer := field 54 2 (by decide)
  rw [programHeaders, programHeaders, count]
  apply List.map_congr_left
  intro i member
  have clear := apart i (List.mem_range.mp member)
  rw [programHeader, programHeader, phdrBytes, table, stride, ← phdrBytes, readProgramHeader,
    readProgramHeader, ProgramHeader.mk.injEq]
  exact ⟨agree.load_eq (clear.field 0 4 (by decide)), agree.load_eq (clear.field 8 8 (by decide)),
    agree.load_eq (clear.field 16 8 (by decide)), agree.load_eq (clear.field 32 8 (by decide)),
    agree.load_eq (clear.field 40 8 (by decide))⟩

theorem eEntry_entry (word : entry < 2 ^ 64) :
    eEntry (store64 memory (fileBuffer + 24) entry) fileBuffer = entry := by
  rw [eEntry, load64_store64_same, Nat.mod_eq_of_lt word]

/-- Of a file that passes the checks, another entry point passes exactly if it lies
between the lowest start and the highest end. -/
theorem planImage_entry {fileSize : Nat} {plan : ImagePlan}
    (passed : planImage memory fileBuffer fileSize = some plan)
    (apart : EntryApart memory fileBuffer) (word : entry < 2 ^ 64) :
    planImage (store64 memory (fileBuffer + 24) entry) fileBuffer fileSize =
      if lowest (loadable (programHeaders memory fileBuffer)) ≤ entry ∧
          entry < highestEnd (loadable (programHeaders memory fileBuffer)) then some plan
      else none := by
  have valid := planImage_validated passed
  obtain ⟨sized, span, scanned, found, rfl, positive, bounded, -, -⟩ := planImage_inversion passed
  obtain ⟨least, greatest⟩ : span.minVAddr = lowest (loadable (programHeaders memory fileBuffer)) ∧
      span.maxVAddrEnd = highestEnd (loadable (programHeaders memory fileBuffer)) :=
    scan_extremes scanned
  simp only at positive bounded
  rw [planImage, if_neg (Nat.not_lt.mpr sized), validateElfHeader_entry, valid,
    programHeaders_entry entry apart, eEntry_entry entry word, scanned, ← least, ← greatest]
  have admitted : ¬ (roundUpTo (wrappingSub span.maxVAddrEnd span.minVAddr) pageSize2M = 0 ∨
      roundUpTo (wrappingSub span.maxVAddrEnd span.minVAddr) pageSize2M >
        kernelMaxSizeBytes) := by omega
  simp only [Bool.not_true, Bool.false_eq_true, if_false, Option.bind_some, found, admitted]
  by_cases inside : span.minVAddr ≤ entry ∧ entry < span.maxVAddrEnd
  · rw [if_pos inside, if_neg (by omega)]
  · rw [if_neg inside, if_pos (by omega)]

end Stored

section Loads

variable {firmware : Firmware} {memory : Memory} {fileBuffer : Nat} {file : List (BitVec 8)}
  {plan : ImagePlan} {entry : Nat}
  (passed : planImage (storeBytes memory fileBuffer file) fileBuffer file.length = some plan)
  (apart : EntryApart (storeBytes memory fileBuffer file) fileBuffer) (word : entry < 2 ^ 64)

include passed apart word

/-- A file that is accepted is accepted with another entry point exactly if that one lies
between the lowest start and the highest end. -/
theorem accepts_entry_iff (read : (readKernelFile firmware).1 = some (fileBuffer, file))
    {address : Nat} (allocated : firmware.allocatePages 0 plan.pagesNeeded4K = some address) :
    (loadKernelElf (firmware.withEntry entry) memory).kernel.isSome = true ↔
      lowest (loadable (programHeaders (storeBytes memory fileBuffer file) fileBuffer)) ≤ entry ∧
        entry < highestEnd
          (loadable (programHeaders (storeBytes memory fileBuffer file) fileBuffer)) := by
  have other := planImage_entry entry passed apart word
  have reread := read_withEntry read entry
  rw [← storeBytes_withEntry memory fileBuffer (planImage_inversion passed).1,
    ← length_withEntry file entry] at other
  constructor
  · intro loads
    obtain ⟨loaded, same⟩ := Option.isSome_iff_exists.mp loads
    obtain ⟨_, _, checked, _⟩ := loadKernelElf_inversion reread same
    by_contra outside
    rw [if_neg outside] at other
    cases other.symm.trans checked
  · intro inside
    rw [if_pos inside] at other
    exact loadKernelElf_accepts reread other allocated

/-- Its table still decides which entry points are covered. -/
theorem entryCovered_withEntry :
    EntryCovered (storeBytes memory fileBuffer (withEntry file entry)) fileBuffer ↔
      ∃ segment ∈ loadable (programHeaders (storeBytes memory fileBuffer file) fileBuffer),
        entry ∈ segment.range := by
  rw [EntryCovered, storeBytes_withEntry memory fileBuffer (planImage_inversion passed).1,
    programHeaders_entry entry apart, eEntry_entry entry word]

end Loads

end OtherEntries

/-- Where an accepted entry point lies. A header table without gaps lets only covered
entry points pass. Of the table of any file that is accepted, the loader accepts the
entry points between the lowest start and the highest end; all of them are covered
exactly if the table has no gap. -/
theorem entry_covered_iff {firmware : Firmware} {memory : Memory} {kernel : LoadedKernel}
    {fileBuffer : Nat} {file : List (BitVec 8)}
    (read : (readKernelFile firmware).1 = some (fileBuffer, file))
    (accepted : (loadKernelElf firmware memory).kernel = some kernel) :
    let buffered := storeBytes memory fileBuffer file
    let segments := loadable (programHeaders buffered fileBuffer)
    (GapFree segments → EntryCovered buffered fileBuffer) ∧
      (EntryApart buffered fileBuffer →
        (∀ entry < 2 ^ 64,
          ((loadKernelElf (firmware.withEntry entry) memory).kernel.isSome = true ↔
            lowest segments ≤ entry ∧ entry < highestEnd segments)) ∧
        ((∀ entry < 2 ^ 64,
            (loadKernelElf (firmware.withEntry entry) memory).kernel.isSome = true →
            EntryCovered (storeBytes memory fileBuffer (withEntry file entry)) fileBuffer) ↔
          GapFree segments)) := by
  intro buffered segments
  obtain ⟨plan, physAllocation, passed, allocated, -, -⟩ := loadKernelElf_inversion read accepted
  obtain ⟨higher, -, entryLow, entryHigh⟩ := planImage_extremes passed
  have positive : ∀ segment ∈ segments, 0 < segment.pVaddr :=
    fun segment member => Nat.lt_of_lt_of_le (by decide) (higher segment member)
  refine ⟨fun gapFree => (gapFree_iff positive).mp gapFree _ entryLow entryHigh, fun apart => ?_⟩
  have passes (entry : Nat) (word : entry < 2 ^ 64) :=
    accepts_entry_iff passed apart word read allocated
  have covered (entry : Nat) (word : entry < 2 ^ 64) :=
    entryCovered_withEntry passed apart word
  refine ⟨passes, ?_⟩
  rw [gapFree_iff positive]
  constructor
  · intro all entry lower upper
    have word : entry < 2 ^ 64 := Nat.lt_trans upper (highestEnd_lt segments)
    exact (covered entry word).mp (all entry word ((passes entry word).mpr ⟨lower, upper⟩))
  · intro all entry word loads
    obtain ⟨lower, upper⟩ := (passes entry word).mp loads
    exact (covered entry word).mpr (all entry lower upper)

/-- The entry point of the one-byte executable is that byte, and its table lets no other
one pass. -/
theorem entry_covered_iff_tiny :
    EntryCovered (storeBytes (fun _ => 0) 0x2000 (tinyKernel kernelVirtualBase)) 0x2000 ∧
      ∀ entry < 2 ^ 64, (loadKernelElf ((tinyFirmware (tinyKernel kernelVirtualBase)).withEntry
          entry) fun _ => 0).kernel.isSome = true →
        EntryCovered (storeBytes (fun _ => 0) 0x2000
          (withEntry (tinyKernel kernelVirtualBase) entry)) 0x2000 := by
  obtain ⟨covered, exact⟩ := entry_covered_iff tinyFirmware_read tinyKernel_accepted
  have segments : loadable (programHeaders
      (storeBytes (fun _ => 0) 0x2000 (tinyKernel kernelVirtualBase)) 0x2000) =
      [⟨1, 120, kernelVirtualBase, 1, 1⟩] := by decide +kernel
  have gapFree : GapFree (loadable (programHeaders
      (storeBytes (fun _ => 0) 0x2000 (tinyKernel kernelVirtualBase)) 0x2000)) := by
    rw [segments]
    intro segment member early
    obtain rfl := List.mem_singleton.mp member
    exact absurd early (by decide)
  have apart : EntryApart
      (storeBytes (fun _ => 0) 0x2000 (tinyKernel kernelVirtualBase)) 0x2000 := by
    have behind : ∀ i < ePhnum (storeBytes (fun _ => 0) 0x2000 (tinyKernel kernelVirtualBase))
        0x2000, 0x2000 + 24 + 8 ≤ phdrBytes (storeBytes (fun _ => 0) 0x2000
          (tinyKernel kernelVirtualBase)) 0x2000 i := by decide +kernel
    exact fun i early => .inr (behind i early)
  exact ⟨covered gapFree, (exact apart).2.mpr gapFree⟩

/-- An executable of two bytes two pages apart, with its entry point in the page
between them. -/
def gapKernel : List (BitVec 8) :=
  [0x7F#8, 0x45#8, 0x4C#8, 0x46#8, 2#8, 1#8] ++ List.replicate 10 0#8 ++
    littleEndian 2 etExec ++ littleEndian 2 emX8664 ++ littleEndian 4 1 ++
    littleEndian 8 (kernelVirtualBase + 0x1000) ++ littleEndian 8 64 ++ List.replicate 14 0#8 ++
    littleEndian 2 56 ++ littleEndian 2 2 ++ List.replicate 6 0#8 ++
    segmentBytes 176 kernelVirtualBase 1 1 ++
    segmentBytes 176 (kernelVirtualBase + 0x2000) 1 1 ++ [0x90#8]

/-- The file is accepted with an entry point that no segment covers; the byte the
kernel would start at is the zero of the fill. -/
theorem entry_in_gap :
    ∃ kernel, (loadKernelElf (tinyFirmware gapKernel) fun _ => 0).kernel = some kernel ∧
      kernel.entryPointVirtual = kernelVirtualBase + 0x1000 ∧
      (loadKernelElf (tinyFirmware gapKernel) fun _ => 0).memory
        (kernel.kernelPhysicalBase + 0x1000) = 0 ∧
      ¬ EntryCovered (storeBytes (fun _ => 0) 0x2000 gapKernel) 0x2000 := by
  have accepted : (loadKernelElf (tinyFirmware gapKernel) fun _ => 0).kernel =
      some ⟨0x400000, kernelVirtualBase, 0x200000, kernelVirtualBase + 0x1000⟩ := by
    decide +kernel
  refine ⟨_, accepted, rfl, by decide +kernel, ?_⟩
  rw [EntryCovered, covered_iff_lt_reach]
  decide +kernel

end Boot

end XyronOS
