import XyronOS.Boot.LoaderWrites

/-!
# The loader's trace

Everything `LoadKernelElf` does to a resource, in the order of the code: calls that
take or give back the file, a pool buffer or pages, the firmware's writes to a
buffer, each read through a pointer into a buffer, each byte stored to the pages, and
the result. A read is listed under the buffer its pointer was computed from, with the
bytes it covers; these need not lie in the buffer, since the fields that go into the
pointer are the file's. Fields that a round of a loop reads several times at the same
address are listed once.

The calls and the stores of a trace are those of the earlier descriptions. A replay
of the trace keeps what is open and allocated. An action on something that is not
live has no next state: closing a file that is not open, freeing a buffer that is not
allocated, or any use of a buffer after its release. That the loader itself makes no such
use shows in its outcome: whatever the firmware leaves in the freed buffer, the release
is the last change of memory and the rest of the outcome is the same.
-/

namespace XyronOS

open ByteMemory WordBits

namespace Boot

/-- One action of the loader. `fill` is a call on the file that writes to a buffer. -/
inductive LoaderAction where
  | service (event : LoaderEvent)
  | queryFile
  | fill (buffer : Nat)
  | read (buffer : Nat) (access : Access)
  | write (pages target : Nat)
  | result (kernel : LoadedKernel)
deriving DecidableEq, Repr

section Reads

/-- Reads of a chain of tests, each made only if the ones before it passed. -/
def testReads : List (Access × Bool) → List Access
  | [] => []
  | (access, passed) :: rest => access :: if passed then testReads rest else []

variable (memory : Memory) (fileBuffer : Nat)

/-- Reads of `ValidateElfHeader`. -/
def validateReads : List Access :=
  testReads
    [(⟨fileBuffer, 1⟩, eIdent memory fileBuffer 0 = 0x7F),
      (⟨fileBuffer + 1, 1⟩, eIdent memory fileBuffer 1 = 0x45),
      (⟨fileBuffer + 2, 1⟩, eIdent memory fileBuffer 2 = 0x4C),
      (⟨fileBuffer + 3, 1⟩, eIdent memory fileBuffer 3 = 0x46),
      (⟨fileBuffer + 4, 1⟩, eIdent memory fileBuffer 4 = elfClass64),
      (⟨fileBuffer + 5, 1⟩, eIdent memory fileBuffer 5 = elfData2Lsb),
      (⟨fileBuffer + 18, 2⟩, eMachine memory fileBuffer = emX8664),
      (⟨fileBuffer + 16, 2⟩, eType memory fileBuffer = etExec),
      (⟨fileBuffer + 56, 2⟩, ePhnum memory fileBuffer ≠ 0),
      (⟨fileBuffer + 54, 2⟩, ePhentsize memory fileBuffer ≠ 0)]

/-- Read of `e_phnum` by the test of either loop. -/
def countRead : Access := ⟨fileBuffer + 56, 2⟩

/-- Read of `e_entry`. -/
def entryRead : Access := ⟨fileBuffer + 24, 8⟩

/-- Reads at the head of a round of either loop: the bound and the two fields that
place the header, then the header's type. -/
def roundReads (i : Nat) : List Access :=
  [countRead fileBuffer, ⟨fileBuffer + 32, 8⟩, ⟨fileBuffer + 54, 2⟩,
    ⟨phdrBytes memory fileBuffer i, 4⟩]

/-- Reads of the first loop from a round on; a loadable segment below the kernel's
virtual base ends the loop. -/
def scanReads : List Nat → List Access
  | [] => [countRead fileBuffer]
  | i :: rest =>
      roundReads memory fileBuffer i ++
        if (programHeader memory fileBuffer i).pType ≠ ptLoad then scanReads rest
        else
          ⟨phdrBytes memory fileBuffer i + 16, 8⟩ ::
            if (programHeader memory fileBuffer i).pVaddr < kernelVirtualBase then []
            else ⟨phdrBytes memory fileBuffer i + 40, 8⟩ :: scanReads rest

/-- Reads of all checks before the allocation of the pages. -/
def planReads (fileSize : Nat) : List Access :=
  if fileSize < elfHeaderSize then []
  else
    validateReads memory fileBuffer ++
      if !validateElfHeader memory fileBuffer then []
      else
        scanReads memory fileBuffer (List.range (ePhnum memory fileBuffer)) ++
          ((programHeaders memory fileBuffer).foldlM Span.visit Span.initial).elim [] fun span =>
            let kernelSpan := wrappingSub span.maxVAddrEnd span.minVAddr
            let alignedSize := roundUpTo kernelSpan pageSize2M
            if !span.foundAnyLoadSegment then []
            else if alignedSize = 0 ∨ alignedSize > kernelMaxSizeBytes then []
            else [entryRead fileBuffer]

end Reads

section Trace

/-- Actions of one copy: the bound is read before each byte and once more at the end. -/
def copyTrace (fileBuffer pages phdr dest src count : Nat) : List LoaderAction :=
  ((List.range count).flatMap fun b =>
    [LoaderAction.read fileBuffer ⟨phdr + 32, 8⟩, .read fileBuffer ⟨wrappingAdd src b, 1⟩,
      .write pages (wrappingAdd dest b)]) ++ [LoaderAction.read fileBuffer ⟨phdr + 32, 8⟩]

/-- Actions of one round of the second loop. -/
def segmentTrace (memory : Memory) (fileBuffer pages destBase minVAddr i : Nat) :
    List LoaderAction :=
  let phdr := programHeader memory fileBuffer i
  let place := phdrBytes memory fileBuffer i
  (roundReads memory fileBuffer i).map (LoaderAction.read fileBuffer) ++
    if phdr.pType ≠ ptLoad then []
    else
      [LoaderAction.read fileBuffer ⟨place + 16, 8⟩, .read fileBuffer ⟨place + 8, 8⟩] ++
        copyTrace fileBuffer pages place
          (wrappingAdd destBase (wrappingSub phdr.pVaddr minVAddr))
          (wrappingAdd fileBuffer phdr.pOffset) phdr.pFilesz

/-- Actions of the first `i` rounds of the second loop, each in the memory its
predecessors left. -/
def segmentsTrace (memory : Memory) (fileBuffer pages destBase minVAddr : Nat) :
    Nat → List LoaderAction
  | 0 => []
  | i + 1 =>
      segmentsTrace memory fileBuffer pages destBase minVAddr i ++
        segmentTrace (copySegments memory fileBuffer destBase minVAddr i) fileBuffer pages destBase
          minVAddr i

/-- Actions of both loops that store to the destination. -/
def placeTrace (memory : Memory) (fileBuffer pages physBase : Nat) (plan : ImagePlan) :
    List LoaderAction :=
  let zeroed := fill memory physBase plan.alignedSize 0
  (zeroWrites physBase plan.alignedSize).map (LoaderAction.write pages) ++
    segmentsTrace zeroed fileBuffer pages physBase plan.minVAddr (ePhnum zeroed fileBuffer) ++
    [LoaderAction.read fileBuffer (countRead fileBuffer)]

/-- Actions up to the point where the file is in its buffer, or the call has failed. -/
def fileTrace (firmware : Firmware) : List LoaderAction :=
  match firmware.opens with
  | false => []
  | true =>
    [.service .openFile, .queryFile] ++
      match firmware.infoPool with
      | none => [.service .closeFile]
      | some fileInfo =>
        [.service (.allocatePool fileInfo), .fill fileInfo] ++
          match firmware.fileSize with
          | none => [.service (.freePool fileInfo), .service .closeFile]
          | some fileSize =>
            [.read fileInfo ⟨fileInfo + 8, 8⟩, .service (.freePool fileInfo)] ++
              match firmware.filePool fileSize with
              | none => [.service .closeFile]
              | some fileBuffer =>
                [.service (.allocatePool fileBuffer), .fill fileBuffer, .service .closeFile] ++
                  match firmware.read fileSize with
                  | none => [.service (.freePool fileBuffer)]
                  | some _ => []

/-- Release of the file buffer. -/
def releaseTrace (fileBuffer : Nat) : List LoaderAction := [.service (.freePool fileBuffer)]

/-- Actions on a file for which there are pages. -/
def acceptTrace (memory : Memory) (fileBuffer physAllocation : Nat) (plan : ImagePlan)
    (kernel : LoadedKernel) : List LoaderAction :=
  .service (.allocatePages physAllocation plan.pagesNeeded4K) ::
    (placeTrace memory fileBuffer physAllocation (roundUpTo physAllocation pageSize2M) plan ++
      LoaderAction.read fileBuffer (entryRead fileBuffer) ::
        (releaseTrace fileBuffer ++ [LoaderAction.result kernel]))

/-- Actions on a file that is in its buffer. -/
def parseTrace (firmware : Firmware) (memory : Memory) (fileBuffer fileSize : Nat) :
    List LoaderAction :=
  (planReads memory fileBuffer fileSize).map (LoaderAction.read fileBuffer) ++
    (planImage memory fileBuffer fileSize).elim (releaseTrace fileBuffer) fun plan =>
      (firmware.allocatePages 0 plan.pagesNeeded4K).elim (releaseTrace fileBuffer)
        fun physAllocation =>
          let physBase := roundUpTo physAllocation pageSize2M
          acceptTrace memory fileBuffer physAllocation plan
            { kernelPhysicalBase := physBase
              kernelVirtualBase := plan.minVAddr
              kernelSizeBytes := plan.alignedSize
              entryPointVirtual := eEntry (placeImage memory fileBuffer physBase plan) fileBuffer }

/-- The trace of a whole call. -/
def loadTrace (firmware : Firmware) (memory : Memory) : List LoaderAction :=
  fileTrace firmware ++
    (readKernelFile firmware).1.elim [] fun (fileBuffer, bytes) =>
      parseTrace firmware (storeBytes memory fileBuffer bytes) fileBuffer bytes.length

end Trace

section Projections

/-- The call of an action, if it takes or gives back a resource. -/
def LoaderAction.event? : LoaderAction → Option LoaderEvent
  | .service event => some event
  | _ => none

/-- The bytes an action reads. -/
def LoaderAction.access? : LoaderAction → Option Access
  | .read _ access => some access
  | _ => none

/-- The byte an action stores. -/
def LoaderAction.target? : LoaderAction → Option Nat
  | .write _ target => some target
  | _ => none

/-- The result an action returns. -/
def LoaderAction.kernel? : LoaderAction → Option LoadedKernel
  | .result kernel => some kernel
  | _ => none

end Projections

/-- What is open and allocated. -/
structure Resources where
  fileOpen : Bool
  pools : List Nat
  pages : List (Nat × Nat)
deriving DecidableEq, Repr

namespace Resources

def none : Resources := ⟨false, [], []⟩

/-- One action, if what it uses is live. -/
def step (resources : Resources) : LoaderAction → Option Resources
  | .service .openFile =>
      if resources.fileOpen then .none else some { resources with fileOpen := true }
  | .service .closeFile =>
      if resources.fileOpen then some { resources with fileOpen := false } else .none
  | .service (.allocatePool address) =>
      some { resources with pools := address :: resources.pools }
  | .service (.freePool address) =>
      if address ∈ resources.pools then
        some { resources with pools := resources.pools.erase address }
      else .none
  | .service (.allocatePages address count) =>
      some { resources with pages := (address, count) :: resources.pages }
  | .queryFile => if resources.fileOpen then some resources else .none
  | .fill buffer =>
      if resources.fileOpen ∧ buffer ∈ resources.pools then some resources else .none
  | .read buffer _ => if buffer ∈ resources.pools then some resources else .none
  | .write pages _ => if pages ∈ resources.pages.map Prod.fst then some resources else .none
  | .result _ => some resources

/-- The state after a trace, if each action of it found what it uses live. -/
def replay (resources : Resources) (trace : List LoaderAction) : Option Resources :=
  trace.foldlM step resources

theorem replay_append (resources : Resources) (first second : List LoaderAction) :
    resources.replay (first ++ second) = (resources.replay first).bind fun next =>
      next.replay second :=
  List.foldlM_append

theorem replay_cons (resources : Resources) (action : LoaderAction) (rest : List LoaderAction) :
    resources.replay (action :: rest) = (resources.step action).bind fun next =>
      next.replay rest :=
  List.foldlM_cons

/-- Actions that only use what is live change nothing. -/
theorem replay_uses {resources : Resources} {trace : List LoaderAction}
    (uses : ∀ action ∈ trace, resources.step action = some resources) :
    resources.replay trace = some resources := by
  induction trace with
  | nil => rfl
  | cons action rest inductionHypothesis =>
    rw [replay_cons, uses action (by simp), Option.bind_some]
    exact inductionHypothesis fun later member => uses later (by simp [member])

/-- The calls of a trace that starts with an action. -/
theorem events_cons (action : LoaderAction) (rest : List LoaderAction) :
    (action :: rest).filterMap LoaderAction.event? =
      action.event?.toList ++ rest.filterMap LoaderAction.event? := by
  cases called : action.event? <;> simp [called]

/-- One action keeps the account of a pool buffer and of the file. -/
theorem step_counts {resources next : Resources} {action : LoaderAction}
    (stepped : resources.step action = some next) (address : Nat) :
    resources.pools.count address + action.event?.toList.count (.allocatePool address) =
        next.pools.count address + action.event?.toList.count (.freePool address) ∧
      resources.fileOpen.toNat + action.event?.toList.count .openFile =
        next.fileOpen.toNat + action.event?.toList.count .closeFile := by
  cases action with
  | service event =>
    cases event with
    | openFile =>
      simp only [step, Option.ite_none_left_eq_some, Option.some.injEq] at stepped
      obtain ⟨shut, rfl⟩ := stepped
      simp [LoaderAction.event?, shut]
    | closeFile =>
      simp only [step, Option.ite_none_right_eq_some, Option.some.injEq] at stepped
      obtain ⟨opened, rfl⟩ := stepped
      simp [LoaderAction.event?, opened]
    | allocatePool buffer =>
      obtain rfl := Option.some.inj stepped
      simp [LoaderAction.event?, List.count_cons]
    | freePool buffer =>
      simp only [step, Option.ite_none_right_eq_some, Option.some.injEq] at stepped
      obtain ⟨live, rfl⟩ := stepped
      have counted := List.count_pos_iff.mpr live
      by_cases same : buffer = address
      · subst same
        simp [LoaderAction.event?, List.count_erase_self]
        omega
      · simp [LoaderAction.event?, List.count_erase_of_ne (Ne.symm same), same]
    | allocatePages pages count =>
      obtain rfl := Option.some.inj stepped
      simp [LoaderAction.event?]
  | result kernel =>
    obtain rfl := Option.some.inj stepped
    simp [LoaderAction.event?]
  | _ =>
    simp only [step, Option.ite_none_right_eq_some, Option.some.injEq] at stepped
    simp [LoaderAction.event?, stepped.2]

/-- A replayed trace has taken each pool buffer as often as it has given it back, up
to those that remain, and the same for the file. -/
theorem replay_counts {resources final : Resources} {trace : List LoaderAction}
    (replayed : resources.replay trace = some final) (address : Nat) :
    resources.pools.count address +
          (trace.filterMap LoaderAction.event?).count (.allocatePool address) =
        final.pools.count address +
          (trace.filterMap LoaderAction.event?).count (.freePool address) ∧
      resources.fileOpen.toNat + (trace.filterMap LoaderAction.event?).count .openFile =
        final.fileOpen.toNat + (trace.filterMap LoaderAction.event?).count .closeFile := by
  induction trace generalizing resources with
  | nil =>
    obtain rfl : resources = final := Option.some.inj replayed
    simp
  | cons action rest inductionHypothesis =>
    rw [replay_cons] at replayed
    obtain ⟨next, stepped, remaining⟩ := Option.bind_eq_some_iff.mp replayed
    have first := step_counts stepped address
    have later := inductionHypothesis remaining
    simp only [events_cons, List.count_append]
    omega

end Resources

section Balance

/-- A use of the file buffer or of the pages. -/
def LoaderAction.Uses (fileBuffer pages : Nat) (action : LoaderAction) : Prop :=
  (∃ access, action = .read fileBuffer access) ∨ ∃ target, action = .write pages target

variable {memory : Memory} {fileBuffer pages : Nat}

theorem copyTrace_uses {phdr dest src count : Nat} :
    ∀ action ∈ copyTrace fileBuffer pages phdr dest src count, action.Uses fileBuffer pages := by
  intro action member
  simp only [copyTrace, List.mem_append, List.mem_flatMap, List.mem_cons, List.not_mem_nil,
    or_false] at member
  rcases member with ⟨b, _, rfl | rfl | rfl⟩ | rfl
  · exact .inl ⟨_, rfl⟩
  · exact .inl ⟨_, rfl⟩
  · exact .inr ⟨_, rfl⟩
  · exact .inl ⟨_, rfl⟩

theorem reads_uses {reads : List Access} :
    ∀ action ∈ reads.map (LoaderAction.read fileBuffer), action.Uses fileBuffer pages := by
  intro action member
  obtain ⟨access, _, rfl⟩ := List.mem_map.mp member
  exact .inl ⟨access, rfl⟩

theorem segmentTrace_uses {destBase minVAddr i : Nat} :
    ∀ action ∈ segmentTrace memory fileBuffer pages destBase minVAddr i,
      action.Uses fileBuffer pages := by
  intro action member
  rw [segmentTrace, List.mem_append] at member
  rcases member with header | copy
  · exact reads_uses action header
  · split at copy
    · cases copy
    · rcases List.mem_append.mp copy with fields | bytes
      · exact @reads_uses _ _ [_, _] action fields
      · exact copyTrace_uses action bytes

theorem segmentsTrace_uses {destBase minVAddr : Nat} (i : Nat) :
    ∀ action ∈ segmentsTrace memory fileBuffer pages destBase minVAddr i,
      action.Uses fileBuffer pages := by
  induction i with
  | zero => simp [segmentsTrace]
  | succ i inductionHypothesis =>
    intro action member
    rw [segmentsTrace, List.mem_append] at member
    cases member with
    | inl earlier => exact inductionHypothesis action earlier
    | inr last => exact segmentTrace_uses action last

/-- Both loops use only the buffer and the pages. -/
theorem placeTrace_uses {physBase : Nat} {plan : ImagePlan} :
    ∀ action ∈ placeTrace memory fileBuffer pages physBase plan, action.Uses fileBuffer pages := by
  intro action member
  simp only [placeTrace, List.mem_append] at member
  rcases member with (zeroed | copied) | counted
  · obtain ⟨target, _, rfl⟩ := List.mem_map.mp zeroed
    exact .inr ⟨target, rfl⟩
  · exact segmentsTrace_uses _ action copied
  · exact @reads_uses _ _ [_] action counted

/-- In a state where the buffer and the pages are live their use is no change. -/
theorem LoaderAction.Uses.step {resources : Resources} {action : LoaderAction}
    (uses : action.Uses fileBuffer pages) (buffer : fileBuffer ∈ resources.pools)
    (obtained : pages ∈ resources.pages.map Prod.fst) :
    resources.step action = some resources := by
  rcases uses with ⟨access, rfl⟩ | ⟨target, rfl⟩
  · rw [Resources.step, if_pos buffer]
  · rw [Resources.step, if_pos obtained]

theorem replay_reads {resources : Resources} (reads : List Access)
    (buffer : fileBuffer ∈ resources.pools) :
    resources.replay (reads.map (.read fileBuffer)) = some resources := by
  apply Resources.replay_uses
  intro action member
  obtain ⟨access, _, rfl⟩ := List.mem_map.mp member
  rw [Resources.step, if_pos buffer]

/-- Uses of the buffer and the pages neither call the firmware nor return. -/
theorem uses_silent {trace : List LoaderAction}
    (uses : ∀ action ∈ trace, action.Uses fileBuffer pages) :
    trace.filterMap LoaderAction.event? = [] ∧ trace.filterMap LoaderAction.kernel? = [] := by
  simp only [List.filterMap_eq_nil_iff]
  constructor
  · intro action member
    rcases uses action member with ⟨access, rfl⟩ | ⟨target, rfl⟩ <;> rfl
  · intro action member
    rcases uses action member with ⟨access, rfl⟩ | ⟨target, rfl⟩ <;> rfl

theorem reads_targets (reads : List Access) :
    (reads.map (LoaderAction.read fileBuffer)).filterMap LoaderAction.target? = [] := by
  rw [List.filterMap_map, List.filterMap_eq_nil_iff]
  exact fun access _ => rfl

theorem copyTrace_targets (phdr dest src count : Nat) :
    (copyTrace fileBuffer pages phdr dest src count).filterMap LoaderAction.target? =
      copyWrites dest count := by
  have stored (b : Nat) : [LoaderAction.read fileBuffer ⟨phdr + 32, 8⟩,
      .read fileBuffer ⟨wrappingAdd src b, 1⟩, .write pages (wrappingAdd dest b)].filterMap
        LoaderAction.target? = [wrappingAdd dest b] := rfl
  have bound : [LoaderAction.read fileBuffer ⟨phdr + 32, 8⟩].filterMap LoaderAction.target? = [] :=
    rfl
  rw [copyTrace, copyWrites, List.filterMap_append, List.filterMap_flatMap, bound,
    List.append_nil, List.map_eq_flatMap]
  simp only [stored]

theorem segmentTrace_targets (destBase minVAddr i : Nat) :
    (segmentTrace memory fileBuffer pages destBase minVAddr i).filterMap LoaderAction.target? =
      segmentWrites destBase minVAddr (programHeader memory fileBuffer i) := by
  rw [segmentTrace, segmentWrites, List.filterMap_append, reads_targets, List.nil_append]
  split
  · rfl
  · have fields (first second : Access) : [LoaderAction.read fileBuffer first,
        .read fileBuffer second].filterMap LoaderAction.target? = [] := rfl
    rw [List.filterMap_append, copyTrace_targets, fields, List.nil_append]

theorem segmentsTrace_targets (destBase minVAddr i : Nat) :
    (segmentsTrace memory fileBuffer pages destBase minVAddr i).filterMap LoaderAction.target? =
      segmentsWrites memory fileBuffer destBase minVAddr i := by
  induction i with
  | zero => rfl
  | succ i inductionHypothesis =>
    rw [segmentsTrace, segmentsWrites, List.filterMap_append, inductionHypothesis,
      segmentTrace_targets]

/-- The stores of both loops are the logged ones. -/
theorem placeTrace_targets (physBase : Nat) (plan : ImagePlan) :
    (placeTrace memory fileBuffer pages physBase plan).filterMap LoaderAction.target? =
      placeWrites memory fileBuffer physBase plan := by
  have zeroed (writes : List Nat) :
      (writes.map (LoaderAction.write pages)).filterMap LoaderAction.target? = writes := by
    rw [List.filterMap_map]
    exact List.filterMap_some
  rw [placeTrace, placeWrites]
  have counted : [LoaderAction.read fileBuffer (countRead fileBuffer)].filterMap
      LoaderAction.target? = [] := rfl
  simp only [List.filterMap_append, zeroed, segmentsTrace_targets, counted, List.append_nil]

theorem replay_releaseTrace (fileBuffer : Nat) (pages : List (Nat × Nat)) :
    (⟨false, [fileBuffer], pages⟩ : Resources).replay (releaseTrace fileBuffer) =
      some ⟨false, [], pages⟩ := by
  simp [Resources.replay, releaseTrace, Resources.step]

theorem replay_acceptTrace (memory : Memory) (fileBuffer physAllocation : Nat) (plan : ImagePlan)
    (kernel : LoadedKernel) :
    (⟨false, [fileBuffer], []⟩ : Resources).replay
        (acceptTrace memory fileBuffer physAllocation plan kernel) =
      some ⟨false, [], [(physAllocation, plan.pagesNeeded4K)]⟩ := by
  generalize held : (⟨false, [fileBuffer], [(physAllocation, plan.pagesNeeded4K)]⟩ : Resources) =
    resources
  have buffer : fileBuffer ∈ resources.pools := by simp [← held]
  have obtained : physAllocation ∈ resources.pages.map Prod.fst := by simp [← held]
  have placed : resources.replay (placeTrace memory fileBuffer physAllocation
      (roundUpTo physAllocation pageSize2M) plan) = some resources :=
    Resources.replay_uses fun action member => (placeTrace_uses action member).step buffer obtained
  have allocated : (⟨false, [fileBuffer], []⟩ : Resources).step
      (.service (.allocatePages physAllocation plan.pagesNeeded4K)) = some resources := by
    rw [← held]
    rfl
  have entry : resources.step (.read fileBuffer (entryRead fileBuffer)) = some resources := by
    rw [Resources.step, if_pos buffer]
  have released := replay_releaseTrace fileBuffer [(physAllocation, plan.pagesNeeded4K)]
  rw [held] at released
  rw [acceptTrace, Resources.replay_cons, allocated, Option.bind_some, Resources.replay_append,
    placed, Option.bind_some, Resources.replay_cons, entry, Option.bind_some,
    Resources.replay_append, released]
  rfl

theorem releaseTrace_projections (fileBuffer : Nat) :
    (releaseTrace fileBuffer).filterMap LoaderAction.event? = [.freePool fileBuffer] ∧
      (releaseTrace fileBuffer).filterMap LoaderAction.target? = [] ∧
      (releaseTrace fileBuffer).filterMap LoaderAction.kernel? = [] :=
  ⟨rfl, rfl, rfl⟩

theorem acceptTrace_projections (memory : Memory) (fileBuffer physAllocation : Nat)
    (plan : ImagePlan) (kernel : LoadedKernel) :
    (acceptTrace memory fileBuffer physAllocation plan kernel).filterMap LoaderAction.event? =
        [.allocatePages physAllocation plan.pagesNeeded4K, .freePool fileBuffer] ∧
      (acceptTrace memory fileBuffer physAllocation plan kernel).filterMap LoaderAction.target? =
        placeWrites memory fileBuffer (roundUpTo physAllocation pageSize2M) plan ∧
      (acceptTrace memory fileBuffer physAllocation plan kernel).filterMap LoaderAction.kernel? =
        [kernel] := by
  obtain ⟨called, returned⟩ := uses_silent (@placeTrace_uses memory fileBuffer physAllocation
    (roundUpTo physAllocation pageSize2M) plan)
  obtain ⟨freeEvents, freeTargets, freeKernels⟩ := releaseTrace_projections fileBuffer
  simp only [acceptTrace, List.filterMap_cons, List.filterMap_append, List.filterMap_nil,
    LoaderAction.event?, LoaderAction.target?, LoaderAction.kernel?, called, returned,
    placeTrace_targets, freeEvents, freeTargets, freeKernels, List.nil_append, List.append_nil,
    and_self]

end Balance

section Call

variable (firmware : Firmware) (memory : Memory)

/-- The file part makes the calls of `readKernelFile`, stores and returns nothing, and
leaves the buffer of the file, or nothing. -/
theorem fileTrace_spec :
    Resources.none.replay (fileTrace firmware) =
        some ⟨false, ((readKernelFile firmware).1.map Prod.fst).toList, []⟩ ∧
      (fileTrace firmware).filterMap LoaderAction.event? = (readKernelFile firmware).2 ∧
      (fileTrace firmware).filterMap LoaderAction.target? = [] ∧
      (fileTrace firmware).filterMap LoaderAction.kernel? = [] := by
  rw [fileTrace, readKernelFile]
  cases firmware.opens with
  | false => exact ⟨rfl, rfl, rfl, rfl⟩
  | true =>
    cases firmware.infoPool with
    | none => exact ⟨rfl, rfl, rfl, rfl⟩
    | some fileInfo =>
      cases firmware.fileSize with
      | none =>
        refine ⟨?_, rfl, rfl, rfl⟩
        simp [Resources.replay, Resources.none, Resources.step]
      | some fileSize =>
        dsimp only
        cases firmware.filePool fileSize with
        | none =>
          refine ⟨?_, rfl, rfl, rfl⟩
          simp [Resources.replay, Resources.none, Resources.step]
        | some fileBuffer =>
          cases firmware.read fileSize with
          | none =>
            refine ⟨?_, rfl, rfl, rfl⟩
            simp [Resources.replay, Resources.none, Resources.step]
          | some bytes =>
            refine ⟨?_, rfl, rfl, rfl⟩
            simp [Resources.replay, Resources.none, Resources.step]

/-- How a call ends: the file was not read, it was rejected with its buffer freed, or it
was loaded. -/
theorem loadTrace_cases :
    ((readKernelFile firmware).1 = none ∧ loadTrace firmware memory = fileTrace firmware ∧
        (loadKernelElf firmware memory).kernel = none ∧
        (loadKernelElf firmware memory).events = (readKernelFile firmware).2) ∨
      (∃ (fileBuffer : Nat) (reads : List Access),
        (readKernelFile firmware).1.map Prod.fst = some fileBuffer ∧
        loadTrace firmware memory = fileTrace firmware ++
          (reads.map (LoaderAction.read fileBuffer) ++ releaseTrace fileBuffer) ∧
        (loadKernelElf firmware memory).kernel = none ∧
        (loadKernelElf firmware memory).events =
          (readKernelFile firmware).2 ++ [LoaderEvent.freePool fileBuffer]) ∨
      ∃ (fileBuffer : Nat) (reads : List Access) (held : Memory) (plan : ImagePlan)
        (physAllocation : Nat) (kernel : LoadedKernel),
        (readKernelFile firmware).1.map Prod.fst = some fileBuffer ∧
        loadTrace firmware memory = fileTrace firmware ++
          (reads.map (LoaderAction.read fileBuffer) ++
            acceptTrace held fileBuffer physAllocation plan kernel) ∧
        (loadKernelElf firmware memory).kernel = some kernel ∧
        (loadKernelElf firmware memory).events = (readKernelFile firmware).2 ++
          [LoaderEvent.allocatePages physAllocation plan.pagesNeeded4K,
            LoaderEvent.freePool fileBuffer] ∧
        loadWrites firmware memory =
          placeWrites held fileBuffer (roundUpTo physAllocation pageSize2M) plan := by
  rw [loadTrace, loadWrites, loadKernelElf]
  generalize readKernelFile firmware = contents
  obtain ⟨_ | ⟨fileBuffer, bytes⟩, events⟩ := contents
  · exact .inl ⟨rfl, List.append_nil _, rfl, rfl⟩
  right
  simp only [Option.elim_some, Option.map_some, parseTrace]
  cases planImage (storeBytes memory fileBuffer bytes) fileBuffer bytes.length with
  | none => exact .inl ⟨fileBuffer, _, rfl, rfl, rfl, rfl⟩
  | some plan =>
    simp only [Option.elim_some]
    cases firmware.allocatePages 0 plan.pagesNeeded4K with
    | none => exact .inl ⟨fileBuffer, _, rfl, rfl, rfl, rfl⟩
    | some physAllocation =>
      exact .inr ⟨fileBuffer, _, _, plan, physAllocation, _, rfl, rfl, rfl, rfl, rfl⟩

/-- The trace makes the calls, the stores and the return of the outcome. -/
theorem loadTrace_projections :
    (loadTrace firmware memory).filterMap LoaderAction.event? =
        (loadKernelElf firmware memory).events ∧
      (loadTrace firmware memory).filterMap LoaderAction.target? = loadWrites firmware memory ∧
      (loadTrace firmware memory).filterMap LoaderAction.kernel? =
        (loadKernelElf firmware memory).kernel.toList := by
  obtain ⟨_, file, fileTargets, fileKernels⟩ := fileTrace_spec firmware
  rcases loadTrace_cases firmware memory with ⟨_, trace, kernel, events⟩ |
    ⟨fileBuffer, reads, _, trace, kernel, events⟩ |
    ⟨fileBuffer, reads, held, plan, physAllocation, kernel, _, trace, loaded, events, writes⟩
  · rw [trace, events, kernel, loadWrites_rejected kernel]
    exact ⟨file, fileTargets, fileKernels⟩
  · obtain ⟨called, returned⟩ := uses_silent (@reads_uses fileBuffer 0 reads)
    rw [trace, events, kernel, loadWrites_rejected kernel]
    obtain ⟨freeEvents, freeTargets, freeKernels⟩ := releaseTrace_projections fileBuffer
    simp only [List.filterMap_append, file, fileTargets, fileKernels, called, returned,
      reads_targets, freeEvents, freeTargets, freeKernels, List.nil_append, Option.toList_none,
      and_self]
  · obtain ⟨called, returned⟩ := uses_silent (@reads_uses fileBuffer 0 reads)
    obtain ⟨acceptEvents, acceptTargets, acceptKernels⟩ :=
      acceptTrace_projections held fileBuffer physAllocation plan kernel
    rw [trace, events, loaded, writes]
    refine ⟨?_, ?_, ?_⟩
    · rw [List.filterMap_append, List.filterMap_append, file, called, acceptEvents,
        List.nil_append]
    · rw [List.filterMap_append, List.filterMap_append, fileTargets, reads_targets, acceptTargets,
        List.nil_append, List.nil_append]
    · rw [List.filterMap_append, List.filterMap_append, fileKernels, returned, acceptKernels,
        List.nil_append, List.nil_append, Option.toList_some]

/-- Every action of a call finds what it uses live, and at the end only the pages of a
loaded kernel are left. -/
theorem replay_loadTrace :
    ∃ pages, Resources.none.replay (loadTrace firmware memory) = some ⟨false, [], pages⟩ ∧
      ((loadKernelElf firmware memory).kernel = none → pages = []) := by
  obtain ⟨file, _⟩ := fileTrace_spec firmware
  rcases loadTrace_cases firmware memory with ⟨unread, trace, _, _⟩ |
    ⟨fileBuffer, reads, buffered, trace, _, _⟩ |
    ⟨fileBuffer, reads, held, plan, physAllocation, kernel, buffered, trace, loaded, _, _⟩
  · rw [trace, file, unread]
    exact ⟨[], rfl, fun _ => rfl⟩
  · refine ⟨[], ?_, fun _ => rfl⟩
    rw [trace, Resources.replay_append, file, buffered, Option.bind_some, Resources.replay_append,
      replay_reads reads (by simp), Option.bind_some]
    exact replay_releaseTrace fileBuffer []
  · refine ⟨[(physAllocation, plan.pagesNeeded4K)], ?_, ?_⟩
    · rw [trace, Resources.replay_append, file, buffered, Option.bind_some,
        Resources.replay_append, replay_reads reads (by simp), Option.bind_some]
      exact replay_acceptTrace held fileBuffer physAllocation plan kernel
    · intro rejected
      rw [loaded] at rejected
      cases rejected

end Call

/-- An outcome after the release of the file buffer, if there is one. -/
def LoadOutcome.release (outcome : LoadOutcome) (buffer : Option Nat)
    (released : Nat → Memory → Memory) : LoadOutcome :=
  { outcome with
    memory := buffer.elim outcome.memory fun address => released address outcome.memory }

/-- Nothing follows the release of the file buffer: the outcome does not depend on what
the firmware does to a freed buffer, up to that last change of memory. -/
theorem loadKernelElf_released (firmware : Firmware) (memory : Memory) :
    ∃ outcome : LoadOutcome, ∀ released : Nat → Memory → Memory,
      loadKernelElf { firmware with freePool := released } memory =
        outcome.release ((readKernelFile firmware).1.map Prod.fst) released := by
  have same (released : Nat → Memory → Memory) :
      readKernelFile { firmware with freePool := released } = readKernelFile firmware := rfl
  simp only [loadKernelElf, same]
  generalize readKernelFile firmware = contents
  obtain ⟨_ | ⟨fileBuffer, bytes⟩, events⟩ := contents
  · exact ⟨⟨none, memory, events⟩, fun _ => rfl⟩
  dsimp only
  cases planImage (storeBytes memory fileBuffer bytes) fileBuffer bytes.length with
  | none =>
    exact ⟨⟨none, storeBytes memory fileBuffer bytes, events ++ [.freePool fileBuffer]⟩,
      fun _ => rfl⟩
  | some plan =>
    simp only [Option.elim_some]
    cases firmware.allocatePages 0 plan.pagesNeeded4K with
    | none =>
      exact ⟨⟨none, storeBytes memory fileBuffer bytes, events ++ [.freePool fileBuffer]⟩,
        fun _ => rfl⟩
    | some physAllocation => exact ⟨⟨some _, placeImage _ _ _ plan, _⟩, fun _ => rfl⟩

/-- The loader balances its resources on every path, for any file and any answers of
the firmware. Every action finds the file, the buffer or the pages it uses live. At
the end the file is closed and no pool buffer is left: each was freed as often as it
was obtained. If the call fails, no pages are left and nothing was stored to its
result. What the firmware does to the freed buffer is the last change of memory and
changes nothing else of the outcome. -/
theorem loader_balanced (firmware : Firmware) (memory : Memory) :
    (∃ pages, Resources.none.replay (loadTrace firmware memory) = some ⟨false, [], pages⟩ ∧
        ((loadKernelElf firmware memory).kernel = none → pages = [] ∧
          ∀ kernel, .result kernel ∉ loadTrace firmware memory)) ∧
      (loadTrace firmware memory).filterMap LoaderAction.event? =
        (loadKernelElf firmware memory).events ∧
      (∀ address, (loadKernelElf firmware memory).events.count (.allocatePool address) =
        (loadKernelElf firmware memory).events.count (.freePool address)) ∧
      (loadKernelElf firmware memory).events.count .openFile =
        (loadKernelElf firmware memory).events.count .closeFile ∧
      ∃ outcome : LoadOutcome, ∀ released : Nat → Memory → Memory,
        loadKernelElf { firmware with freePool := released } memory =
          outcome.release ((readKernelFile firmware).1.map Prod.fst) released := by
  obtain ⟨events, _, kernels⟩ := loadTrace_projections firmware memory
  obtain ⟨pages, replayed, rejected⟩ := replay_loadTrace firmware memory
  have counts := Resources.replay_counts replayed
  simp only [Resources.none, List.count_nil, Nat.zero_add, events, Bool.toNat_false] at counts
  refine ⟨⟨pages, replayed, ?_⟩, events, fun address => (counts address).1, (counts 0).2,
    loadKernelElf_released firmware memory⟩
  intro failed
  refine ⟨rejected failed, ?_⟩
  intro kernel member
  have returned : kernel ∈ (loadTrace firmware memory).filterMap LoaderAction.kernel? :=
    List.mem_filterMap.mpr ⟨_, member, rfl⟩
  rw [kernels, failed] at returned
  cases returned

end Boot

end XyronOS
