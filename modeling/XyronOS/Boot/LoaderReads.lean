import XyronOS.Boot.LoaderTrace

/-!
# Where the loader reads

The reads of a call through pointers into the file buffer, taken from its trace, and
the question whether they stay within the bytes that were read from the file. The
loader checks that the file is at least as long as the ELF header. It checks neither
where the program headers lie nor where the data of a segment does.

What a scan reads of a header depends on the header: four bytes for its type, up to
the virtual address of a loadable segment that ends the scan, and up to the size in
memory of any other loadable segment. The copies then read the file bytes of every
loadable segment. The reads stay inside exactly if all of this does. Where a copy
stores into the buffer itself, later rounds follow what was stored there, so the copies
are described for files none of whose copies does.
-/

namespace XyronOS

open ByteMemory WordBits

namespace Boot

/-- Reads of a call through pointers into the file buffer. -/
def loadReads (firmware : Firmware) (memory : Memory) : List Access :=
  (readKernelFile firmware).1.elim [] fun (fileBuffer, bytes) =>
    (parseTrace firmware (storeBytes memory fileBuffer bytes) fileBuffer bytes.length).filterMap
      LoaderAction.access?

/-- All of a list of reads stay in one range. -/
def ReadsInside (base size : Nat) (reads : List Access) : Prop :=
  ∀ access ∈ reads, access.Inside base size

/-- Offset of a program header in the file, as the loader's pointer arithmetic has it. -/
def headerOffset (file : List (BitVec 8)) (i : Nat) : Nat := phdrBytes (fileImage file) 0 i

/-- A program header of the file. -/
def fileHeader (file : List (BitVec 8)) (i : Nat) : ProgramHeader :=
  programHeader (fileImage file) 0 i

/-- A loadable header below the kernel's virtual base, at which the scan stops. -/
def ProgramHeader.Low (phdr : ProgramHeader) : Prop :=
  phdr.pType = ptLoad ∧ phdr.pVaddr < kernelVirtualBase

instance (phdr : ProgramHeader) : Decidable phdr.Low := inferInstanceAs (Decidable (_ ∧ _))

/-- How far into a header the scan reads. -/
def ProgramHeader.scanned (phdr : ProgramHeader) : Nat :=
  if phdr.pType ≠ ptLoad then 4 else if phdr.pVaddr < kernelVirtualBase then 24 else 48

/-- Every header that the scan comes to lies inside the file as far as it is read. -/
def HeadersInside (file : List (BitVec 8)) : Prop :=
  elfHeaderSize ≤ file.length → validateElfHeader (fileImage file) 0 = true →
    ∀ i < ePhnum (fileImage file) 0, (∀ j < i, ¬ (fileHeader file j).Low) →
      headerOffset file i + (fileHeader file i).scanned ≤ file.length

/-- The file bytes of every loadable segment lie inside the file. -/
def SourcesInside (file : List (BitVec 8)) : Prop :=
  ∀ segment ∈ loadSegments file,
    segment.pFilesz = 0 ∨ segment.pOffset + segment.pFilesz ≤ file.length

/-- No copy of a segment of the file stores into the buffer the file is in. -/
def CopiesMiss (firmware : Firmware) (fileBuffer : Nat) (file : List (BitVec 8)) : Prop :=
  let segments := loadSegments file
  ∀ address, firmware.allocatePages 0 ((imageSize segments + pageSize2M) / pageSize4K) =
      some address →
    ∀ segment ∈ segments,
      ∀ target ∈ segmentWrites (roundUp address pageSize2M) (lowest segments) segment,
        target < fileBuffer ∨ fileBuffer + file.length ≤ target

section Bounds

variable {base size : Nat}

theorem readsInside_nil : ReadsInside base size [] := by simp [ReadsInside]

theorem readsInside_cons {access : Access} {rest : List Access} :
    ReadsInside base size (access :: rest) ↔
      access.Inside base size ∧ ReadsInside base size rest :=
  List.forall_mem_cons

theorem readsInside_append {first second : List Access} :
    ReadsInside base size (first ++ second) ↔
      ReadsInside base size first ∧ ReadsInside base size second :=
  List.forall_mem_append

variable (fits : base + size ≤ 2 ^ 64)

include fits in
/-- A pointer at a wrapped offset is inside exactly if the offset is: a wrap leads below
the buffer. -/
theorem inside_wrapped_iff {offset width : Nat} (word : offset < 2 ^ 64) (positive : 0 < width) :
    (⟨wrappingAdd base offset, width⟩ : Access).Inside base size ↔ offset + width ≤ size := by
  unfold Access.Inside wrappingAdd
  simp only
  omega

include fits in
/-- The bytes of a segment are read inside exactly if there are none or they end inside. -/
theorem source_inside_iff {offset count : Nat} (word : offset < 2 ^ 64) (small : size < 2 ^ 64) :
    (∀ b < count, (⟨wrappingAdd (wrappingAdd base offset) b, 1⟩ : Access).Inside base size) ↔
      count = 0 ∨ offset + count ≤ size := by
  constructor
  · intro inside
    by_contra beyond
    have first := inside 0 (by omega)
    have start : offset + 1 ≤ size := by
      rw [wrappingAdd, Nat.add_zero, wrappingAdd, Nat.mod_mod] at first
      exact (inside_wrapped_iff fits word Nat.one_pos).mp first
    have past := inside (size - offset) (by omega)
    unfold Access.Inside wrappingAdd at past
    simp only at past
    omega
  · intro short b early
    unfold Access.Inside wrappingAdd
    simp only
    omega

end Bounds

section File

variable {memory : Memory} {fileBuffer : Nat} {file : List (BitVec 8)}
  (holds : Holds memory fileBuffer file) (sized : elfHeaderSize ≤ file.length)

include holds sized

/-- The buffer's header pointer is the file's offset from the buffer. -/
theorem Holds.phdrBytes (i : Nat) :
    phdrBytes memory fileBuffer i = wrappingAdd fileBuffer (headerOffset file i) := by
  rw [headerOffset, Boot.phdrBytes, Boot.phdrBytes, holds.ePhoff sized, holds.ePhentsize sized]
  unfold wrappingAdd
  omega

/-- A field of a header inside the file is read as the file has it. -/
theorem Holds.headerField {i offset width : Nat} (positive : 0 < offset + width)
    (inside : headerOffset file i + offset + width ≤ file.length) :
    ByteMemory.load memory (Boot.phdrBytes memory fileBuffer i + offset) width =
      ByteMemory.load (fileImage file) (headerOffset file i + offset) width := by
  have fits := holds.fits
  rw [holds.phdrBytes sized, wrappingAdd_eq _ _ (by omega), Nat.add_assoc,
    holds.load _ _ (by omega), Nat.zero_add]

theorem Holds.pType_eq {i : Nat} (inside : headerOffset file i + 4 ≤ file.length) :
    (Boot.programHeader memory fileBuffer i).pType = (fileHeader file i).pType :=
  @Holds.headerField _ _ _ holds sized i 0 4 (by decide) inside

theorem Holds.pVaddr_eq {i : Nat} (inside : headerOffset file i + 24 ≤ file.length) :
    (Boot.programHeader memory fileBuffer i).pVaddr = (fileHeader file i).pVaddr :=
  @Holds.headerField _ _ _ holds sized i 16 8 (by decide) inside

/-- A header of which the loader's fields lie inside the file is read as the file has
it. -/
theorem Holds.fileHeader_eq {i : Nat} (inside : headerOffset file i + 48 ≤ file.length) :
    Boot.programHeader memory fileBuffer i = fileHeader file i := by
  have field (offset width : Nat) (within : offset + width ≤ 48) (positive : 0 < offset + width) :
      ByteMemory.load memory (Boot.phdrBytes memory fileBuffer i + offset) width =
        ByteMemory.load (fileImage file) (headerOffset file i + offset) width :=
    holds.headerField sized positive (by omega)
  rw [Boot.programHeader, fileHeader, Boot.programHeader, readProgramHeader, readProgramHeader,
    ProgramHeader.mk.injEq]
  exact ⟨field 0 4 (by decide) (by decide), field 8 8 (by decide) (by decide),
    field 16 8 (by decide) (by decide), field 32 8 (by decide) (by decide),
    field 40 8 (by decide) (by decide)⟩

end File

section Scan

variable {memory : Memory} {fileBuffer : Nat} {file : List (BitVec 8)}

/-- Reads of the ELF header are inside. -/
theorem elfHeader_inside (sized : elfHeaderSize ≤ file.length) {offset width : Nat}
    (within : offset + width ≤ elfHeaderSize) :
    (⟨fileBuffer + offset, width⟩ : Access).Inside fileBuffer file.length := by
  unfold Access.Inside
  simp only
  omega

/-- Only the listed tests read. -/
theorem mem_testReads {access : Access} {tests : List (Access × Bool)}
    (read : access ∈ testReads tests) : access ∈ tests.map Prod.fst := by
  induction tests with
  | nil => cases read
  | cons test rest inductionHypothesis =>
    obtain ⟨first, passed⟩ := test
    rw [testReads] at read
    cases read with
    | head => simp
    | tail _ later =>
      cases passed with
      | false => cases later
      | true => exact List.mem_cons_of_mem _ (inductionHypothesis later)

theorem validateReads_inside (sized : elfHeaderSize ≤ file.length) :
    ReadsInside fileBuffer file.length (validateReads memory fileBuffer) := by
  intro access read
  have listed := mem_testReads read
  simp only [List.map_cons, List.map_nil, List.mem_cons, List.not_mem_nil, or_false] at listed
  unfold elfHeaderSize at sized
  unfold Access.Inside
  rcases listed with rfl | rfl | rfl | rfl | rfl | rfl | rfl | rfl | rfl | rfl <;>
    simp only <;> omega

/-- A scan reads the type of an entry and at most the fields up to `p_memsz`. -/
theorem ProgramHeader.scanned_bounds (phdr : ProgramHeader) :
    4 ≤ phdr.scanned ∧ phdr.scanned ≤ 48 := by
  unfold ProgramHeader.scanned
  split
  · decide
  · split <;> decide

variable (holds : Holds memory fileBuffer file) (sized : elfHeaderSize ≤ file.length)

include holds sized

/-- The head of a round is read inside exactly if the header's type lies in the file. -/
theorem roundReads_inside_iff (i : Nat) :
    ReadsInside fileBuffer file.length (roundReads memory fileBuffer i) ↔
      headerOffset file i + 4 ≤ file.length := by
  have word : headerOffset file i < 2 ^ 64 := Nat.mod_lt _ (Nat.two_pow_pos 64)
  have start := @inside_wrapped_iff fileBuffer file.length holds.fits (headerOffset file i) 4 word
    (by decide)
  rw [← holds.phdrBytes sized] at start
  simp only [roundReads, countRead, readsInside_cons, start,
    elfHeader_inside sized (show 56 + 2 ≤ elfHeaderSize by decide),
    elfHeader_inside sized (show 32 + 8 ≤ elfHeaderSize by decide),
    elfHeader_inside sized (show 54 + 2 ≤ elfHeaderSize by decide), readsInside_nil, true_and,
    and_true]

/-- Past its type, a field of a header is read inside exactly if it lies in the file. -/
theorem headerRead_inside_iff {i offset width : Nat}
    (start : headerOffset file i + 4 ≤ file.length) :
    (⟨phdrBytes memory fileBuffer i + offset, width⟩ : Access).Inside fileBuffer file.length ↔
      headerOffset file i + offset + width ≤ file.length := by
  have fits := holds.fits
  rw [holds.phdrBytes sized, wrappingAdd_eq _ _ (by omega)]
  unfold Access.Inside
  simp only
  omega

/-- One round of the scan stays inside exactly if the header does as far as it is read;
the scan goes on unless the header is low. -/
theorem scanReads_cons_inside_iff (i : Nat) (rest : List Nat) :
    ReadsInside fileBuffer file.length (scanReads memory fileBuffer (i :: rest)) ↔
      headerOffset file i + (fileHeader file i).scanned ≤ file.length ∧
        (¬ (fileHeader file i).Low →
          ReadsInside fileBuffer file.length (scanReads memory fileBuffer rest)) := by
  rw [scanReads, readsInside_append, roundReads_inside_iff holds sized]
  by_cases start : headerOffset file i + 4 ≤ file.length
  · rw [holds.pType_eq sized start]
    by_cases load : (fileHeader file i).pType = ptLoad
    · rw [if_neg (not_not.mpr load), readsInside_cons, headerRead_inside_iff holds sized start]
      by_cases address : headerOffset file i + 16 + 8 ≤ file.length
      · rw [holds.pVaddr_eq sized (by omega)]
        by_cases low : (fileHeader file i).pVaddr < kernelVirtualBase
        · simp [ProgramHeader.scanned, ProgramHeader.Low, load, low, start, readsInside_nil]
        · simp [ProgramHeader.scanned, ProgramHeader.Low, load, low, start, readsInside_cons,
            headerRead_inside_iff holds sized start, address, Nat.add_assoc]
      · have long : 24 ≤ (fileHeader file i).scanned := by
          rw [ProgramHeader.scanned, if_neg (not_not.mpr load)]
          split <;> decide
        constructor
        · rintro ⟨_, inside, _⟩
          exact absurd inside address
        · rintro ⟨inside, _⟩
          omega
    · simp [ProgramHeader.scanned, ProgramHeader.Low, load, start]
  · have long := (fileHeader file i).scanned_bounds.1
    constructor
    · rintro ⟨inside, _⟩
      exact absurd inside start
    · rintro ⟨inside, _⟩
      omega

/-- The whole scan. The induction is on the number of rounds that are left. -/
theorem scanReads_inside_iff (first count : Nat) :
    ReadsInside fileBuffer file.length (scanReads memory fileBuffer (List.range' first count)) ↔
      ∀ i, first ≤ i → i < first + count →
        (∀ j, first ≤ j → j < i → ¬ (fileHeader file j).Low) →
        headerOffset file i + (fileHeader file i).scanned ≤ file.length := by
  induction count generalizing first with
  | zero =>
    simp only [List.range'_zero, scanReads, readsInside_cons, countRead, readsInside_nil,
      elfHeader_inside sized (show 56 + 2 ≤ elfHeaderSize by decide), true_and, true_iff]
    intro i lower upper
    omega
  | succ count inductionHypothesis =>
    rw [List.range'_succ, scanReads_cons_inside_iff holds sized, inductionHypothesis]
    constructor
    · rintro ⟨here, later⟩ i lower upper passed
      by_cases same : i = first
      · rw [same]
        exact here
      · have open' : ¬ (fileHeader file first).Low := passed first (Nat.le_refl _) (by omega)
        exact later open' i (by omega) (by omega)
          (fun j above below => passed j (by omega) below)
    · intro all
      refine ⟨all first (Nat.le_refl _) (by omega) (fun j above below => by omega), ?_⟩
      intro goesOn i lower upper passed
      apply all i (by omega) (by omega)
      intro j above below
      by_cases same : j = first
      · rw [same]
        exact goesOn
      · exact passed j (by omega) below

/-- The header checks are those of the file. -/
theorem Holds.validateElfHeader :
    validateElfHeader memory fileBuffer = Boot.validateElfHeader (fileImage file) 0 := by
  have field (offset width : Nat) (within : offset + width ≤ elfHeaderSize) :
      ByteMemory.load memory (fileBuffer + offset) width =
        ByteMemory.load (fileImage file) (0 + offset) width :=
    holds.load offset width (Nat.le_trans within sized)
  have byte (index : Nat) (within : index + 1 ≤ elfHeaderSize) :
      eIdent memory fileBuffer index = eIdent (fileImage file) 0 index := field index 1 within
  have kind : eType memory fileBuffer = eType (fileImage file) 0 := field 16 2 (by decide)
  have machine : eMachine memory fileBuffer = eMachine (fileImage file) 0 := field 18 2 (by decide)
  unfold Boot.validateElfHeader
  rw [byte 0 (by decide), byte 1 (by decide), byte 2 (by decide), byte 3 (by decide),
    byte 4 (by decide), byte 5 (by decide), machine, kind, holds.ePhnum sized,
    holds.ePhentsize sized]

omit sized in
/-- Reads of all checks before the allocation. -/
theorem planReads_inside_iff :
    ReadsInside fileBuffer file.length (planReads memory fileBuffer file.length) ↔
      HeadersInside file := by
  rw [planReads]
  split
  · rename_i short
    constructor
    · intro _ sized
      omega
    · exact fun _ => readsInside_nil
  rename_i long
  have sized : elfHeaderSize ≤ file.length := Nat.not_lt.mp long
  rw [readsInside_append, holds.validateElfHeader sized]
  simp only [validateReads_inside sized, true_and]
  cases valid : Boot.validateElfHeader (fileImage file) 0 with
  | false =>
    constructor
    · intro _ _ known
      rw [valid] at known
      cases known
    · exact fun _ => readsInside_nil
  | true =>
    have entry (checks : Option Span) (checked : Span → List Access)
        (only : ∀ span, ∀ access ∈ checked span, access = entryRead fileBuffer) :
        ReadsInside fileBuffer file.length (checks.elim [] checked) := by
      intro access read
      cases checks with
      | none => cases read
      | some span =>
        rw [only span access read]
        exact elfHeader_inside sized (by decide)
    simp only [Bool.not_true, Bool.false_eq_true, if_false, readsInside_append]
    rw [holds.ePhnum sized, List.range_eq_range', scanReads_inside_iff holds sized]
    simp only [Nat.zero_le, Nat.zero_add, forall_const]
    constructor
    · rintro ⟨scanned, _⟩ _ _
      exact scanned
    · intro inside
      refine ⟨inside sized valid, entry _ _ ?_⟩
      intro span access read
      split at read
      · cases read
      · split at read
        · cases read
        · exact List.mem_singleton.mp read

end Scan

section Copies

variable {memory : Memory} {fileBuffer : Nat} {file : List (BitVec 8)}

/-- Every header of the table passes the scan and lies inside the file as far as it is
read. -/
structure TableInside (file : List (BitVec 8)) : Prop where
  sized : elfHeaderSize ≤ file.length
  higher : ∀ i < ePhnum (fileImage file) 0, ¬ (fileHeader file i).Low
  inside : ∀ i < ePhnum (fileImage file) 0,
    headerOffset file i + (fileHeader file i).scanned ≤ file.length

/-- In a table inside the file, a header is read inside the file, and as the file has it
if it is loadable. -/
theorem TableInside.header (table : TableInside file) (holds : Holds memory fileBuffer file)
    {i : Nat} (early : i < ePhnum (fileImage file) 0) :
    headerOffset file i + 4 ≤ file.length ∧
      (programHeader memory fileBuffer i).pType = (fileHeader file i).pType ∧
      ((fileHeader file i).pType = ptLoad → headerOffset file i + 48 ≤ file.length ∧
        programHeader memory fileBuffer i = fileHeader file i) := by
  have inside := table.inside i early
  have start : headerOffset file i + 4 ≤ file.length := by
    have long := (fileHeader file i).scanned_bounds.1
    omega
  refine ⟨start, holds.pType_eq table.sized start, ?_⟩
  intro load
  have whole : headerOffset file i + 48 ≤ file.length := by
    rw [ProgramHeader.scanned, if_neg (not_not.mpr load),
      if_neg fun low => table.higher i early ⟨load, low⟩] at inside
    exact inside
  exact ⟨whole, holds.fileHeader_eq table.sized whole⟩

/-- The loadable headers the loader sees are those of the file. -/
theorem TableInside.segments (table : TableInside file) (holds : Holds memory fileBuffer file) :
    loadable (programHeaders memory fileBuffer) = loadSegments file := by
  rw [loadSegments, fileHeaders, programHeaders, programHeaders, loadable, loadable,
    holds.ePhnum table.sized, List.filter_map, List.filter_map, Function.comp_def,
    Function.comp_def]
  have same : ∀ i ∈ List.range (ePhnum (fileImage file) 0),
      decide ((programHeader memory fileBuffer i).pType = ptLoad) =
        decide ((programHeader (fileImage file) 0 i).pType = ptLoad) := by
    intro i member
    rw [(table.header holds (List.mem_range.mp member)).2.1, fileHeader]
  rw [List.filter_congr same]
  apply List.map_congr_left
  intro i kept
  obtain ⟨member, load⟩ := List.mem_filter.mp kept
  exact ((table.header holds (List.mem_range.mp member)).2.2 (of_decide_eq_true load)).2

/-- A file that passes the checks with reads inside the file has its table inside. The
induction is on the number of the header: the scan comes to it since no earlier one is
low. -/
theorem HeadersInside.table {plan : ImagePlan} (holds : Holds memory fileBuffer file)
    (passed : planImage memory fileBuffer file.length = some plan) (inside : HeadersInside file) :
    TableInside file := by
  have sized := (planImage_inversion passed).1
  have valid := planImage_validated passed
  rw [holds.validateElfHeader sized] at valid
  have high := (planImage_extremes passed).1
  have reached (i : Nat) (early : i < ePhnum (fileImage file) 0)
      (passes : ∀ j < i, ¬ (fileHeader file j).Low) : ¬ (fileHeader file i).Low := by
    have here := inside sized valid i early passes
    rintro ⟨load, low⟩
    rw [ProgramHeader.scanned, if_neg (not_not.mpr load), if_pos low] at here
    have member : programHeader memory fileBuffer i ∈
        loadable (programHeaders memory fileBuffer) := by
      rw [loadable, List.mem_filter, programHeaders, holds.ePhnum sized]
      refine ⟨List.mem_map_of_mem (List.mem_range.mpr early), ?_⟩
      simpa [holds.pType_eq sized (i := i) (by omega)] using load
    have bound := high _ member
    rw [holds.pVaddr_eq sized here] at bound
    omega
  have higher (i : Nat) (early : i < ePhnum (fileImage file) 0) : ¬ (fileHeader file i).Low := by
    induction i using Nat.strong_induction_on with
    | _ i inductionHypothesis =>
      exact reached i early fun j less => inductionHypothesis j less (Nat.lt_trans less early)
  exact ⟨sized, higher, fun i early =>
    inside sized valid i early fun j less => higher j (Nat.lt_trans less early)⟩

theorem reads_accesses (reads : List Access) :
    (reads.map (LoaderAction.read fileBuffer)).filterMap LoaderAction.access? = reads := by
  rw [List.filterMap_map]
  exact List.filterMap_some

/-- Reads of one copy: the bound, and each byte of the source. -/
theorem copyTrace_inside_iff {base size pages phdr dest src count : Nat} :
    ReadsInside base size
        ((copyTrace fileBuffer pages phdr dest src count).filterMap LoaderAction.access?) ↔
      (⟨phdr + 32, 8⟩ : Access).Inside base size ∧
        ∀ b < count, (⟨wrappingAdd src b, 1⟩ : Access).Inside base size := by
  simp only [ReadsInside, copyTrace, List.mem_filterMap, List.mem_append, List.mem_flatMap,
    List.mem_range, List.mem_cons, List.not_mem_nil, or_false]
  constructor
  · intro inside
    refine ⟨inside _ ⟨_, .inr rfl, rfl⟩, ?_⟩
    intro b early
    exact inside _ ⟨_, .inl ⟨b, early, .inr (.inl rfl)⟩, rfl⟩
  · rintro ⟨bound, source⟩ access ⟨action, listed, read⟩
    rcases listed with ⟨b, early, rfl | rfl | rfl⟩ | rfl
    · exact Option.some.inj read ▸ bound
    · exact Option.some.inj read ▸ source b early
    · cases read
    · exact Option.some.inj read ▸ bound

variable (table : TableInside file) (small : file.length < 2 ^ 64)

include table small in
/-- One round of the copies stays inside exactly if the file bytes of its segment do. -/
theorem segmentTrace_inside_iff (holds : Holds memory fileBuffer file)
    {pages destBase minVAddr i : Nat} (early : i < ePhnum (fileImage file) 0) :
    ReadsInside fileBuffer file.length
        ((segmentTrace memory fileBuffer pages destBase minVAddr i).filterMap
          LoaderAction.access?) ↔
      ((fileHeader file i).pType = ptLoad → (fileHeader file i).pFilesz = 0 ∨
        (fileHeader file i).pOffset + (fileHeader file i).pFilesz ≤ file.length) := by
  obtain ⟨start, kind, loaded⟩ := table.header holds early
  rw [segmentTrace, List.filterMap_append, reads_accesses, readsInside_append,
    roundReads_inside_iff holds table.sized, kind]
  by_cases load : (fileHeader file i).pType = ptLoad
  · obtain ⟨whole, same⟩ := loaded load
    have word : (fileHeader file i).pOffset < 2 ^ 64 := load64_lt _ _
    have field (offset width : Nat) (within : offset + width ≤ 48) :
        (⟨phdrBytes memory fileBuffer i + offset, width⟩ : Access).Inside fileBuffer
          file.length :=
      (headerRead_inside_iff holds table.sized start).mpr (by omega)
    have fields := @reads_accesses fileBuffer
      [⟨phdrBytes memory fileBuffer i + 16, 8⟩, ⟨phdrBytes memory fileBuffer i + 8, 8⟩]
    simp only [List.map_cons, List.map_nil] at fields
    rw [if_neg (not_not.mpr load), List.filterMap_append, readsInside_append, same,
      copyTrace_inside_iff, source_inside_iff holds.fits word small, fields]
    simp [readsInside_cons, readsInside_nil, start, load, field 16 8 (by decide),
      field 8 8 (by decide), field 32 8 (by decide)]
  · simp [load, start, readsInside_nil]

include table in
/-- The stores of a round are those of the file's header. -/
theorem TableInside.segmentWrites_eq (holds : Holds memory fileBuffer file)
    (destBase minVAddr : Nat) {i : Nat} (early : i < ePhnum (fileImage file) 0) :
    segmentWrites destBase minVAddr (programHeader memory fileBuffer i) =
      segmentWrites destBase minVAddr (fileHeader file i) := by
  obtain ⟨_, kind, loaded⟩ := table.header holds early
  by_cases load : (fileHeader file i).pType = ptLoad
  · rw [(loaded load).2]
  · rw [segmentWrites, segmentWrites, if_pos load, if_pos (by rwa [kind])]

section Destination

variable {base size minVAddr : Nat}
  (miss : ∀ i < ePhnum (fileImage file) 0,
    ∀ target ∈ segmentWrites base minVAddr (fileHeader file i),
      target < fileBuffer ∨ fileBuffer + file.length ≤ target)

include table miss

/-- Copies that miss the buffer leave the file in it. -/
theorem copySegments_holds (holds : Holds memory fileBuffer file) (i : Nat)
    (bounded : i ≤ ePhnum (fileImage file) 0) :
    Holds (copySegments memory fileBuffer base minVAddr i) fileBuffer file := by
  induction i with
  | zero => exact holds
  | succ i inductionHypothesis =>
    have held := inductionHypothesis (by omega)
    rw [copySegments]
    apply held.congr
    intro offset inside
    apply copySegment_outside
    rw [table.segmentWrites_eq held base minVAddr bounded]
    intro written
    have bounds := miss i bounded _ written
    omega

include small

/-- All rounds of the copies. The induction is on the rounds, each of which finds the
file in its buffer. -/
theorem segmentsTrace_inside_iff (holds : Holds memory fileBuffer file) (pages i : Nat)
    (bounded : i ≤ ePhnum (fileImage file) 0) :
    ReadsInside fileBuffer file.length
        ((segmentsTrace memory fileBuffer pages base minVAddr i).filterMap
          LoaderAction.access?) ↔
      ∀ j < i, (fileHeader file j).pType = ptLoad → (fileHeader file j).pFilesz = 0 ∨
        (fileHeader file j).pOffset + (fileHeader file j).pFilesz ≤ file.length := by
  induction i with
  | zero => simp [segmentsTrace, readsInside_nil]
  | succ i inductionHypothesis =>
    have held := copySegments_holds table miss holds i (by omega)
    rw [segmentsTrace, List.filterMap_append, readsInside_append, inductionHypothesis (by omega),
      segmentTrace_inside_iff table small held bounded, Nat.forall_lt_succ_right]

/-- The reads of both loops that fill the destination. -/
theorem placeTrace_inside_iff
    (apart : fileBuffer + file.length ≤ base ∨ base + size ≤ fileBuffer)
    (holds : Holds memory fileBuffer file) (pages : Nat) :
    ReadsInside fileBuffer file.length
        ((placeTrace memory fileBuffer pages base ⟨minVAddr, size⟩).filterMap
          LoaderAction.access?) ↔ SourcesInside file := by
  have zeroed : Holds (fill memory base size 0) fileBuffer file := by
    apply holds.congr
    intro offset inside
    exact fill_outside _ _ _ _ _ (by omega)
  have silent : ((zeroWrites base size).map (LoaderAction.write pages)).filterMap
      LoaderAction.access? = [] := by
    rw [List.filterMap_map, List.filterMap_eq_nil_iff]
    exact fun target _ => rfl
  have counted := @reads_accesses fileBuffer [countRead fileBuffer]
  rw [List.map_singleton] at counted
  have count : (countRead fileBuffer).Inside fileBuffer file.length :=
    elfHeader_inside table.sized (by decide)
  simp only [placeTrace, List.filterMap_append, silent, counted, List.nil_append,
    readsInside_append, readsInside_cons, readsInside_nil, count, and_true]
  rw [zeroed.ePhnum table.sized,
    segmentsTrace_inside_iff table small miss zeroed pages _ (Nat.le_refl _)]
  constructor
  · intro sources segment member
    rw [loadSegments, loadable, List.mem_filter, fileHeaders, programHeaders,
      List.mem_map] at member
    obtain ⟨⟨i, early, rfl⟩, load⟩ := member
    exact sources i (List.mem_range.mp early) (of_decide_eq_true load)
  · intro sources i early load
    apply sources
    rw [loadSegments, loadable, List.mem_filter, fileHeaders, programHeaders]
    exact ⟨List.mem_map_of_mem (List.mem_range.mpr early), decide_eq_true load⟩

end Destination

end Copies

section Call

theorem acceptTrace_accesses (memory : Memory) (fileBuffer physAllocation : Nat)
    (plan : ImagePlan) (kernel : LoadedKernel) :
    (acceptTrace memory fileBuffer physAllocation plan kernel).filterMap LoaderAction.access? =
      (placeTrace memory fileBuffer physAllocation (roundUpTo physAllocation pageSize2M)
        plan).filterMap LoaderAction.access? ++ [entryRead fileBuffer] := by
  rw [acceptTrace, List.filterMap_cons_none rfl, List.filterMap_append]
  rfl

variable {firmware : Firmware} {memory : Memory} {fileBuffer : Nat} {file : List (BitVec 8)}
  (read : (readKernelFile firmware).1 = some (fileBuffer, file))

include read

/-- A rejected file is read by the checks only. -/
theorem loadReads_rejected (rejected : (loadKernelElf firmware memory).kernel = none) :
    loadReads firmware memory =
      planReads (storeBytes memory fileBuffer file) fileBuffer file.length := by
  rw [loadKernelElf] at rejected
  rw [loadReads]
  generalize readKernelFile firmware = contents at read rejected ⊢
  obtain ⟨_, events⟩ := contents
  subst read
  have released : (releaseTrace fileBuffer).filterMap LoaderAction.access? = [] := rfl
  simp only [Option.elim_some, parseTrace, List.filterMap_append, reads_accesses] at rejected ⊢
  cases planned : planImage (storeBytes memory fileBuffer file) fileBuffer file.length with
  | none => rw [Option.elim_none, released, List.append_nil]
  | some plan =>
    cases allocated : firmware.allocatePages 0 plan.pagesNeeded4K with
    | none => simp only [Option.elim_some, allocated, Option.elim_none, released, List.append_nil]
    | some physAllocation => simp [planned, allocated] at rejected

/-- An accepted file is read by the checks, by the copies and for its entry point. -/
theorem loadReads_accepted {kernel : LoadedKernel}
    (accepted : (loadKernelElf firmware memory).kernel = some kernel) :
    ∃ plan physAllocation,
      planImage (storeBytes memory fileBuffer file) fileBuffer file.length = some plan ∧
      firmware.allocatePages 0 plan.pagesNeeded4K = some physAllocation ∧
      loadReads firmware memory =
        planReads (storeBytes memory fileBuffer file) fileBuffer file.length ++
          (((placeTrace (storeBytes memory fileBuffer file) fileBuffer physAllocation
            (roundUpTo physAllocation pageSize2M) plan).filterMap LoaderAction.access?) ++
            [entryRead fileBuffer]) := by
  obtain ⟨plan, physAllocation, passed, allocated, _, _⟩ := loadKernelElf_inversion read accepted
  refine ⟨plan, physAllocation, passed, allocated, ?_⟩
  rw [loadReads, read]
  simp only [Option.elim_some, parseTrace, passed, allocated, List.filterMap_append,
    reads_accesses, acceptTrace_accesses]

omit read in
/-- The copies of the file's own headers miss the buffer. -/
theorem CopiesMiss.header (miss : CopiesMiss firmware fileBuffer file) {plan : ImagePlan}
    (spanned : Spanned (loadSegments file) plan) {physAllocation : Nat}
    (allocated : firmware.allocatePages 0 plan.pagesNeeded4K = some physAllocation) (i : Nat)
    (early : i < ePhnum (fileImage file) 0) :
    ∀ target ∈ segmentWrites (roundUp physAllocation pageSize2M) plan.minVAddr (fileHeader file i),
      target < fileBuffer ∨ fileBuffer + file.length ≤ target := by
  have size : imageSize (loadSegments file) = plan.alignedSize := spanned.alignedSize.symm
  rw [CopiesMiss, size] at miss
  by_cases load : (fileHeader file i).pType = ptLoad
  · have member : fileHeader file i ∈ loadSegments file := by
      rw [loadSegments, loadable, List.mem_filter, fileHeaders, programHeaders]
      exact ⟨List.mem_map_of_mem (List.mem_range.mpr early), decide_eq_true load⟩
    rw [spanned.minVAddr]
    exact miss physAllocation allocated _ member
  · rw [segmentWrites, if_pos load]
    exact fun target written => absurd written List.not_mem_nil

/-- The reads of an accepted file whose copies miss the buffer. -/
theorem accepted_inside_iff (fresh : FreshFirmware firmware) (small : file.length < 2 ^ 64)
    {kernel : LoadedKernel} (accepted : (loadKernelElf firmware memory).kernel = some kernel)
    (miss : CopiesMiss firmware fileBuffer file) :
    ReadsInside fileBuffer file.length (loadReads firmware memory) ↔
      HeadersInside file ∧ SourcesInside file := by
  obtain ⟨size, pool, contents⟩ := readKernelFile_inversion read
  have bufferFits := fresh.bufferFits size fileBuffer pool
  have length := fresh.readFits size file contents
  have holds := holds_storeBytes memory fileBuffer file (by omega)
  obtain ⟨plan, physAllocation, passed, allocated, reads⟩ := loadReads_accepted read accepted
  have bufferApart := fresh.bufferApart size fileBuffer 0 _ _ pool allocated
  have whole : plan.alignedSize % pageSize2M = 0 := by
    rw [(planImage_spanned passed).alignedSize]
    exact roundUp_aligned _ _
  obtain ⟨rounded, lower, upper, -⟩ := fresh.placed whole allocated
  rw [reads, readsInside_append, planReads_inside_iff holds, rounded]
  apply and_congr_right
  intro headers
  have table := headers.table holds passed
  have spanned := planImage_spanned passed
  rw [table.segments holds] at spanned
  have missed := miss.header spanned allocated
  have entry : (entryRead fileBuffer).Inside fileBuffer file.length :=
    elfHeader_inside table.sized (by decide)
  rw [readsInside_append, readsInside_cons,
    placeTrace_inside_iff table small missed (by omega) holds]
  simp only [entry, readsInside_nil, and_true]

/-- Where the loader reads. For a file it rejects, every byte lies inside the file exactly
if the program headers do as far as the scan comes to them and reads them. For a file
it accepts, the file bytes of the loadable segments have to lie inside as well; left out
are only files of which a copy stores into the file buffer. -/
theorem load_reads_inside_iff (fresh : FreshFirmware firmware) (small : file.length < 2 ^ 64) :
    ((loadKernelElf firmware memory).kernel = none →
        (ReadsInside fileBuffer file.length (loadReads firmware memory) ↔ HeadersInside file)) ∧
      ∀ kernel, (loadKernelElf firmware memory).kernel = some kernel →
        CopiesMiss firmware fileBuffer file →
        (ReadsInside fileBuffer file.length (loadReads firmware memory) ↔
          HeadersInside file ∧ SourcesInside file) := by
  constructor
  · intro rejected
    obtain ⟨size, pool, contents⟩ := readKernelFile_inversion read
    have bufferFits := fresh.bufferFits size fileBuffer pool
    have length := fresh.readFits size file contents
    rw [loadReads_rejected read rejected,
      planReads_inside_iff (holds_storeBytes memory fileBuffer file (by omega))]
  · intro kernel accepted miss
    exact accepted_inside_iff read fresh small accepted miss

end Call

/-- Copies of the small machine that go above its pages' start miss its file buffer. -/
theorem tinyFirmware_copiesMiss {file : List (BitVec 8)} (short : file.length ≤ 0x1000)
    (above : ∀ segment ∈ loadSegments file,
      ∀ target ∈ segmentWrites 0x400000 (lowest (loadSegments file)) segment, 0x400000 ≤ target) :
    CopiesMiss (tinyFirmware file) 0x2000 file := by
  intro address answered segment member target written
  obtain ⟨_, _, rfl⟩ := tinyFirmware_pages answered
  have start : roundUp (tinyPages 0).2 pageSize2M = 0x400000 := by decide
  rw [start] at written
  have bound := above segment member target written
  omega

/-- A table whose headers lie wholly inside the file. -/
theorem headersInside_whole {file : List (BitVec 8)}
    (headers : ∀ i < ePhnum (fileImage file) 0, headerOffset file i + 48 ≤ file.length) :
    HeadersInside file := by
  intro _ _ i early _
  have inside := headers i early
  have short : (fileHeader file i).scanned ≤ 48 := (fileHeader file i).scanned_bounds.2
  omega

/-- The one-byte executable is read inside, and so is the one of which a copy stores past
the destination. -/
theorem load_reads_inside_tiny :
    ReadsInside 0x2000 (tinyKernel kernelVirtualBase).length
      (loadReads (tinyFirmware (tinyKernel kernelVirtualBase)) fun _ => 0) ∧
    ReadsInside 0x2000 topKernel.length (loadReads (tinyFirmware topKernel) fun _ => 0) := by
  constructor
  · apply ((load_reads_inside_iff tinyFirmware_read tinyKernel_fresh (by decide +kernel)).2 _
      tinyKernel_accepted _).mpr
    · refine ⟨headersInside_whole (by decide +kernel), ?_⟩
      rw [SourcesInside, tinyKernel_segments]
      intro segment member
      obtain rfl := List.mem_singleton.mp member
      exact .inr (by decide +kernel)
    · exact tinyFirmware_copiesMiss (by decide +kernel) (by decide +kernel)
  · have fresh : FreshFirmware (tinyFirmware topKernel) := tinyFirmware_fresh (by decide +kernel)
    have accepted : (loadKernelElf (tinyFirmware topKernel) fun _ => 0).kernel =
        some ⟨0x400000, kernelVirtualBase, 0x200000, kernelVirtualBase⟩ := by decide +kernel
    apply ((load_reads_inside_iff tinyFirmware_read fresh (by decide +kernel)).2 _
      accepted _).mpr
    · refine ⟨headersInside_whole (by decide +kernel), ?_⟩
      unfold SourcesInside
      decide +kernel
    · exact tinyFirmware_copiesMiss (by decide +kernel) (by decide +kernel)

/-- Memory in which the byte after a buffer of 120 bytes at `0x2000` is marked. -/
def markedMemory : Memory := fun target => if target = 0x2078 then 0xAF#8 else 0

/-- The same executable cut off before its only segment byte is accepted, and the byte
that follows it in memory is loaded as the kernel's. -/
theorem load_reads_outside :
    ∃ kernel, (loadKernelElf (tinyFirmware ((tinyKernel kernelVirtualBase).take 120))
        markedMemory).kernel = some kernel ∧
      FreshFirmware (tinyFirmware ((tinyKernel kernelVirtualBase).take 120)) ∧
      ¬ ReadsInside 0x2000 120
        (loadReads (tinyFirmware ((tinyKernel kernelVirtualBase).take 120)) markedMemory) ∧
      (loadKernelElf (tinyFirmware ((tinyKernel kernelVirtualBase).take 120))
        markedMemory).memory kernel.kernelPhysicalBase = 0xAF#8 := by
  generalize cut : (tinyKernel kernelVirtualBase).take 120 = file
  have length : 120 = file.length := by
    rw [← cut]
    decide +kernel
  have accepted : (loadKernelElf (tinyFirmware file) markedMemory).kernel =
      some ⟨0x400000, kernelVirtualBase, 0x200000, kernelVirtualBase⟩ := by
    rw [← cut]
    decide +kernel
  have loaded : (loadKernelElf (tinyFirmware file) markedMemory).memory 0x400000 = 0xAF#8 := by
    rw [← cut]
    decide +kernel
  have segments : loadSegments file = [⟨1, 120, kernelVirtualBase, 1, 1⟩] := by
    rw [← cut]
    decide +kernel
  have fresh : FreshFirmware (tinyFirmware file) :=
    tinyFirmware_fresh (by rw [← length]; decide)
  have above : ∀ segment ∈ loadSegments file,
      ∀ target ∈ segmentWrites 0x400000 (lowest (loadSegments file)) segment,
        0x400000 ≤ target := by
    rw [segments]
    decide
  have miss : CopiesMiss (tinyFirmware file) 0x2000 file :=
    tinyFirmware_copiesMiss (by rw [← length]; decide) above
  refine ⟨_, accepted, fresh, ?_, loaded⟩
  rw [length, accepted_inside_iff tinyFirmware_read fresh (by rw [← length]; decide) accepted miss]
  rintro ⟨_, sources⟩
  rcases sources _ (segments ▸ List.mem_singleton_self _) with empty | inside
  · cases empty
  · rw [← length] at inside
    exact absurd inside (by decide)

end Boot

end XyronOS
