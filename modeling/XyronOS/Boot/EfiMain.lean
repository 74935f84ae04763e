import XyronOS.Arch.Serial
import XyronOS.Boot.ConsoleOutput
import XyronOS.Boot.ExitBootServices
import XyronOS.Boot.KernelHandoff
import XyronOS.Boot.LoaderTrace

/-!
# The bootloader as the firmware sees it

`EfiMain` from its first line to the jump into the kernel or to the halt, as the
sequence of calls it makes: on the console, on protocols and files, on pools and
pages, on the services that end boot services, and at last on the serial port. The
firmware's answers are a parameter. Every step that fails prints a reason, gives back
what it holds and halts; the steps in between are those of the loader, of the page
tables and of the exit from boot services.

The rules are the firmware's. Files and buffers are used while they are open or
allocated, the exit needs the key of the map fetched by the very last call, nothing of
the firmware exists after the exit, and only then the kernel may be entered. One rule
is easy to miss: a refused exit may already have shut down part of the firmware, so
that from the first attempt on only memory may be asked for.

All traces keep the rules but one kind. When the last attempt to exit is refused, or
an attempt after a refused one gives up, `EfiMain` reports the failure on the console
it has itself called no longer valid.

Reads of buffers are listed as far as the trace of the loader lists them.
-/

namespace XyronOS

open ByteMemory WordBits

namespace Boot

/-- What `EfiMain` does, call by call, with the firmware's answers. -/
inductive EfiCall where
  | clearScreen
  | console (text : List (BitVec 16))
  | handleProtocol (interface : Option Nat)
  | openVolume (root : Option Nat)
  | load (action : LoaderAction)
  | closeRoot
  | allocatePages (maxAddress : Option Nat) (pages : Nat) (address : Option Nat)
  | exit (call : ServiceCall)
  | serialInit
  | serial (text : List (BitVec 8))
  | jump (newCr3 entryPoint bootInfo stackTop : Nat)
  | hlt
deriving DecidableEq, Repr

/-- A wide string of the source. -/
def wide (text : String) : List (BitVec 16) :=
  text.toList.map fun character => BitVec.ofNat 16 character.toNat

/-- Print a string of the source. -/
def say (text : String) : EfiCall := .console (wide text)

/-- The answers for the test file. -/
structure TestFile where
  opens : Bool
  infoPool : Option Nat
  fileSize : Option Nat
  dataPool : Nat → Option Nat
  read : Nat → Option (List (BitVec 8))

/-- All answers of the firmware. -/
structure Platform where
  loadedImage : Option Nat
  fileSystem : Option Nat
  root : Option Nat
  testFile : TestFile
  loader : Firmware
  exit : Nat → AttemptReplies

/-- Calls up to a point, and the result if there is one. -/
structure Stage (α : Type) where
  calls : List EfiCall
  value : Option α

/-- The end of `EfiMain` behind the label `halt`. -/
def haltCalls : List EfiCall := [say "\r\nHalting.\r\n", .hlt]

/-- Go on with a result, or halt. -/
def Stage.andThen {α : Type} (stage : Stage α) (next : α → List EfiCall) : List EfiCall :=
  stage.calls ++ stage.value.elim haltCalls next

/-- Calls with an answer, and the lines printed for either kind of answer. -/
def report {α : Type} (calls : List EfiCall) (answer : Option α) (failed succeeded : List String) :
    Stage α :=
  ⟨calls ++ (answer.elim failed fun _ => succeeded).map say, answer⟩

/-- The loaded image. -/
def acquireImage (platform : Platform) : Stage Nat :=
  report
    [.clearScreen, say "NeoastrenOS Bootloader — Phase 2, Part 4\r\n",
      say "Testing Simple File System read pipeline...\r\n\r\n",
      .handleProtocol platform.loadedImage]
    platform.loadedImage
    ["FAILED: could not get LoadedImageProtocol\r\n"] ["[OK] LoadedImageProtocol acquired.\r\n"]

/-- The file system of its device. -/
def acquireFileSystem (platform : Platform) : Stage Nat :=
  report [.handleProtocol platform.fileSystem] platform.fileSystem
    ["FAILED: could not get SimpleFileSystemProtocol\r\n"]
    ["[OK] SimpleFileSystemProtocol acquired.\r\n"]

/-- The root directory. -/
def openRoot (platform : Platform) : Stage Nat :=
  report [.openVolume platform.root] platform.root
    ["FAILED: OpenVolume failed\r\n"] ["[OK] Root directory opened.\r\n"]

/-- Release of both buffers and of the test file, from the labels `freeData`, `freeInfo`
and `closeFile` on. -/
def releaseCalls (buffers : List Nat) : List EfiCall :=
  buffers.map (fun buffer => .load (.service (.freePool buffer))) ++
    [.load (.service .closeFile)]

/-- Read the file whose size is known, and print it. -/
def readTestFile (answers : TestFile) (stack : Nat → BitVec 16) (fileInfo fileSize : Nat) :
    Stage Unit :=
  match answers.dataPool fileSize with
  | none =>
    ⟨say "FAILED: AllocatePool for file data failed\r\n" :: releaseCalls [fileInfo], none⟩
  | some fileData =>
    let obtained := [EfiCall.load (.service (.allocatePool fileData)), .load (.fill fileData)]
    match answers.read fileSize with
    | none =>
      ⟨obtained ++ say "FAILED: Read failed\r\n" :: releaseCalls [fileData, fileInfo], none⟩
    | some bytes =>
      ⟨obtained ++
        [say "[OK] File read into memory. Contents:\r\n",
          say "------------------------------------------------------------\r\n"] ++
        (printAscii stack bytes).strings.map EfiCall.console ++
        [say "------------------------------------------------------------\r\n",
          say "[OK] Part 2 file-read pipeline verified successfully.\r\n"] ++
        releaseCalls [fileData, fileInfo], some ()⟩

/-- The size of the test file, by its information record. -/
def sizeTestFile (answers : TestFile) (stack : Nat → BitVec 16) : Stage Unit :=
  match answers.infoPool with
  | none => ⟨say "FAILED: AllocatePool for file info failed\r\n" :: releaseCalls [], none⟩
  | some fileInfo =>
    let obtained := [EfiCall.load (.service (.allocatePool fileInfo)), .load (.fill fileInfo)]
    match answers.fileSize with
    | none =>
      ⟨obtained ++ say "FAILED: GetInfo (second call) failed\r\n" :: releaseCalls [fileInfo], none⟩
    | some fileSize =>
      let rest := readTestFile answers stack fileInfo fileSize
      ⟨obtained ++ say "[OK] File size obtained.\r\n" ::
        .load (.read fileInfo ⟨fileInfo + 8, 8⟩) :: rest.calls, rest.value⟩

/-- The test file. -/
def testFileStage (answers : TestFile) (stack : Nat → BitVec 16) : Stage Unit :=
  match answers.opens with
  | false =>
    ⟨[say "FAILED: could not open \\BOOTINFO.TXT\r\n",
      say ("(Did you copy boot/testdata/BOOTINFO.TXT to the ESP root? " ++
        "See README.)\r\n")], none⟩
  | true =>
    let rest := sizeTestFile answers stack
    ⟨.load (.service .openFile) :: say "[OK] \\BOOTINFO.TXT opened.\r\n" ::
      .load .queryFile :: rest.calls, rest.value⟩

/-- The kernel; the root directory is closed only if it was loaded. -/
def loadStage (firmware : Firmware) (memory : Memory) : Stage LoadedKernel :=
  let loaded := (loadKernelElf firmware memory).kernel
  ⟨say "\r\nLoading kernel image \\KERNEL.ELF...\r\n" ::
    (loadTrace firmware memory).map EfiCall.load ++
    loaded.elim
      [say "FAILED: could not load or validate \\KERNEL.ELF\r\n",
        say ("(See tests/kernel_stub/README.md for how to build " ++
          "the test fixture.)\r\n")]
      (fun _ => [say "[OK] Kernel image loaded and validated.\r\n", .closeRoot]), loaded⟩

/-- The page of the boot information. -/
def bootInfoStage (firmware : Firmware) : Stage Nat :=
  let page := firmware.allocatePages 1 1
  report [.allocatePages (some (identityMapLimit - 1)) 1 page] page
    ["FAILED: could not allocate BootInfo page\r\n"] []

/-- The stack of the kernel. -/
def stackStage (firmware : Firmware) : Stage Nat :=
  let stackPhys := firmware.allocatePages 2 kernelStackPages
  report [.allocatePages (some (identityMapLimit - 1)) kernelStackPages stackPhys] stackPhys
    ["FAILED: could not allocate kernel stack\r\n"]
    ["[OK] Kernel stack allocated.\r\n", "[OK] BootInfo allocated and pre-populated.\r\n"]

/-- The requests of `BuildKernelPageTables`; a null page ends them as an error does. -/
def tableCalls (pages : Nat → Option Nat) : Nat → Nat → List EfiCall
  | 0, _ => []
  | remaining + 1, request =>
    .allocatePages none 1 (pages request) ::
      match pages request with
      | none => []
      | some 0 => []
      | some _ => tableCalls pages remaining (request + 1)

/-- The page tables. -/
def tablesStage (firmware : Firmware) (memory : Memory) (kernel : LoadedKernel)
    (bootInfo stackTop : Nat) : Stage Handoff :=
  report (tableCalls (fun request => firmware.allocatePages (3 + request) 1) 8 0)
    (buildTables firmware memory kernel bootInfo stackTop).1
    ["FAILED: could not build kernel page tables\r\n"]
    ["[OK] Page tables built (identity map + higher-half kernel mapping).\r\n"]

/-- The line that reports a failed exit. -/
def exitFailedText : String :=
  "FAILED: ExitBootServices did not succeed within the retry budget.\r\n"

/-- The three lines before the attempts, and the attempts. -/
def exitCalls (replies : Nat → AttemptReplies) : List EfiCall :=
  [say "\r\nPreparing to retrieve the memory map and exit Boot Services...\r\n",
    say "(No further ConOut output is guaranteed valid after this point,\r\n",
    say " per the UEFI specification. Remaining output goes to COM1.)\r\n"] ++
    (exitLoop replies maxExitAttempts 0).2.map EfiCall.exit

/-- The exit from boot services. -/
def exitStage (replies : Nat → AttemptReplies) : Stage BootMemoryMap :=
  report (exitCalls replies) (exitLoop replies maxExitAttempts 0).1 [exitFailedText] []

/-- The last lines and the jump. -/
def jumpCalls (handoff : Handoff) : List EfiCall :=
  [.serialInit, .serial (Serial.bytes "\r\nNeoastrenOS Bootloader - Phase 2 Part 4\r\n"),
    .serial (Serial.bytes "ExitBootServices succeeded. Boot Services have been terminated.\r\n"),
    .serial (Serial.bytes "BootInfo populated. Jumping to kernel entry point: 0x"),
    .serial (Serial.hex64 handoff.kernel.entryPointVirtual), .serial (Serial.bytes "\r\n"),
    .serial (Serial.bytes "New CR3: 0x"), .serial (Serial.hex64 handoff.newCr3),
    .serial (Serial.bytes "\r\n"),
    .serial (Serial.bytes "This is the last line the bootloader itself prints.\r\n"),
    .serial (Serial.bytes "Control transfers to the kernel now.\r\n\r\n")] ++
  [.jump handoff.newCr3 handoff.kernel.entryPointVirtual handoff.bootInfo handoff.stackTop]

/-- `EfiMain` from the load of the kernel on. -/
def bootCalls (platform : Platform) (memory : Memory) : List EfiCall :=
  let loaded := loadKernelElf platform.loader memory
  (loadStage platform.loader memory).andThen fun kernel =>
  (bootInfoStage platform.loader).andThen fun bootInfo =>
  (stackStage platform.loader).andThen fun stackPhys =>
  let stackSizeBytes := kernelStackPages * pageSize4K
  let stackTop := wrappingAdd stackPhys stackSizeBytes
  (tablesStage platform.loader (writeStack (writeBootInfo loaded.memory bootInfo kernel) bootInfo
    stackTop stackSizeBytes) kernel bootInfo stackTop).andThen fun handoff =>
  (exitStage platform.exit).andThen fun _ => jumpCalls handoff

/-- The calls of `EfiMain`. `stack` is what `PrintAscii` finds on its stack. -/
def efiMain (platform : Platform) (stack : Nat → BitVec 16) (memory : Memory) : List EfiCall :=
  (acquireImage platform).andThen fun _ =>
  (acquireFileSystem platform).andThen fun _ =>
  (openRoot platform).andThen fun _ =>
  (testFileStage platform.testFile stack).andThen fun _ => bootCalls platform memory

/-- The firmware's side. `closing` tells whether an exit has been tried, `stopped` whether
the bootloader has ended. -/
structure EfiState where
  active : Bool
  closing : Bool
  stopped : Bool
  key : Option Nat
  rootOpen : Bool
  resources : Resources
deriving DecidableEq, Repr

namespace EfiState

/-- Before the first call. -/
def start : EfiState := ⟨true, false, false, none, false, .none⟩

/-- All of the firmware can be used. -/
def usable (state : EfiState) : Bool := state.active && !state.closing && !state.stopped

/-- What the services for memory and exit see. -/
def service (state : EfiState) : ServiceState := ⟨state.active, state.key, state.resources.pages⟩

/-- Whether a call tries to exit. -/
def triesExit : ServiceCall → Bool
  | .exitBootServices _ _ => true
  | _ => false

/-- The state after such a call. -/
def afterService (state : EfiState) (tried : Bool) (service : ServiceState) : EfiState :=
  { state with
    active := service.active
    closing := state.closing || tried
    key := service.key
    resources := { state.resources with pages := service.live } }

/-- One call, if the rules allow it. -/
def step (state : EfiState) : EfiCall → Option EfiState
  | .clearScreen | .console _ | .handleProtocol _ => if state.usable then some state else none
  | .openVolume root =>
      if state.usable ∧ ¬ state.rootOpen then some { state with rootOpen := root.isSome } else none
  | .load action =>
      if state.usable ∧ (action = .service .openFile → state.rootOpen) then
        (state.resources.step action).map fun resources =>
          { state with key := none, resources := resources }
      else none
  | .closeRoot =>
      if state.usable ∧ state.rootOpen ∧ ¬ state.resources.fileOpen then
        some { state with rootOpen := false }
      else none
  | .allocatePages _ pages address =>
      if state.active ∧ ¬ state.stopped then
        some { state with
          key := none
          resources := { state.resources with
            pages := (address.map fun first => (first, pages)).toList ++ state.resources.pages } }
      else none
  | .exit call =>
      if state.stopped then none
      else (state.service.step call).map (state.afterService (triesExit call))
  | .serialInit | .serial _ => if state.stopped then none else some state
  | .jump _ _ _ _ =>
      if state.active ∨ state.stopped then none else some { state with stopped := true }
  | .hlt => if state.stopped then none else some { state with stopped := true }

/-- The state after a trace that keeps the rules. -/
def replay (state : EfiState) (trace : List EfiCall) : Option EfiState := trace.foldlM step state

theorem replay_append (state : EfiState) (first second : List EfiCall) :
    state.replay (first ++ second) = (state.replay first).bind fun next => next.replay second :=
  List.foldlM_append

theorem replay_cons (state : EfiState) (call : EfiCall) (rest : List EfiCall) :
    state.replay (call :: rest) = (state.step call).bind fun next => next.replay rest :=
  List.foldlM_cons

@[simp] theorem replay_nil (state : EfiState) : state.replay [] = some state := rfl

/-- A stretch of calls that the rules allow is followed by the rest. -/
theorem replay_after {state next : EfiState} {first : List EfiCall}
    (allowed : state.replay first = some next) (second : List EfiCall) :
    state.replay (first ++ second) = next.replay second := by
  rw [replay_append, allowed, Option.bind_some]

/-- Printing needs a usable firmware and changes nothing. -/
theorem replay_console {state : EfiState} (usable : state.usable = true)
    (texts : List (List (BitVec 16))) : state.replay (texts.map .console) = some state := by
  induction texts with
  | nil => rfl
  | cons text texts inductionHypothesis =>
    rw [List.map_cons, replay_cons, step, if_pos usable, Option.bind_some, inductionHypothesis]

theorem replay_say_cons {state : EfiState} (usable : state.usable = true) (text : String)
    (rest : List EfiCall) : state.replay (say text :: rest) = state.replay rest := by
  rw [replay_cons, say, step, if_pos usable, Option.bind_some]

theorem replay_say {state : EfiState} (usable : state.usable = true) (texts : List String) :
    state.replay (texts.map say) = some state := by
  have printed := replay_console usable (texts.map wide)
  rwa [List.map_map] at printed

/-- Nothing is printed on a firmware that is closing. -/
theorem replay_say_unusable {state : EfiState} (unusable : state.usable = false) (text : String)
    (rest : List EfiCall) : state.replay (say text :: rest) = none := by
  rw [replay_cons, say, step, if_neg (by simp [unusable]), Option.bind_none]

/-- A usable firmware sees the bootloader halt. -/
theorem replay_haltCalls {state : EfiState} (usable : state.usable = true) :
    state.replay haltCalls = some { state with stopped := true } := by
  have running : state.stopped = false := by
    simp only [EfiState.usable, Bool.and_eq_true, Bool.not_eq_true'] at usable
    exact usable.2
  rw [haltCalls, replay_say_cons usable, replay_cons, step]
  simp [running]

/-- The lines after an answered call change nothing. -/
theorem replay_report {α : Type} {state next : EfiState} {calls : List EfiCall}
    (allowed : state.replay calls = some next) (usable : next.usable = true) (answer : Option α)
    (failed succeeded : List String) :
    state.replay (report calls answer failed succeeded).calls = some next := by
  rw [report, replay_after allowed]
  exact replay_say usable _

/-- The loader's trace, on a usable firmware whose root directory is open. -/
theorem replay_load {state : EfiState} (usable : state.usable = true)
    (rootOpen : state.rootOpen = true) (unkeyed : state.key = none) {trace : List LoaderAction}
    {resources : Resources} (replayed : state.resources.replay trace = some resources) :
    state.replay (trace.map .load) = some { state with resources := resources } := by
  induction trace generalizing state with
  | nil =>
    obtain rfl : state.resources = resources := Option.some.inj replayed
    rfl
  | cons action rest inductionHypothesis =>
    rw [Resources.replay_cons] at replayed
    obtain ⟨middle, stepped, remaining⟩ := Option.bind_eq_some_iff.mp replayed
    rw [List.map_cons, replay_cons, step, if_pos ⟨usable, fun _ => rootOpen⟩, stepped,
      Option.map_some, Option.bind_some, unkeyed]
    exact @inductionHypothesis { state with key := none, resources := middle } usable rootOpen rfl
      remaining

/-- The calls that end boot services, by the protocol of their own. -/
theorem replay_exit {state : EfiState} (running : state.stopped = false)
    {calls : List ServiceCall} {service : ServiceState}
    (replayed : state.service.replay calls = some service) :
    state.replay (calls.map .exit) = some (state.afterService (calls.any triesExit) service) := by
  induction calls generalizing state with
  | nil =>
    obtain rfl : state.service = service := Option.some.inj replayed
    simp [afterService, EfiState.service]
  | cons call rest inductionHypothesis =>
    rw [ServiceState.replay, List.foldlM_cons] at replayed
    obtain ⟨middle, stepped, remaining⟩ := Option.bind_eq_some_iff.mp replayed
    rw [List.map_cons, replay_cons, step, if_neg (by simp [running]), stepped, Option.map_some,
      Option.bind_some,
      @inductionHypothesis (state.afterService (triesExit call) middle) running remaining]
    simp [afterService, Bool.or_assoc]

/-- Between two stages: the firmware is usable, the test file closed, no pool buffer held. -/
def resting (rootOpen : Bool) (pages : List (Nat × Nat)) : EfiState :=
  ⟨true, false, false, none, rootOpen, ⟨false, [], pages⟩⟩

/-- The test file is open, with buffers. -/
def holding (buffers : List Nat) (pages : List (Nat × Nat)) : EfiState :=
  ⟨true, false, false, none, true, ⟨true, buffers, pages⟩⟩

/-- A resting firmware answers a request for pages. -/
theorem replay_allocatePages (rootOpen : Bool) (pages : List (Nat × Nat)) (maxAddress : Option Nat)
    (count : Nat) (address : Option Nat) (rest : List EfiCall) :
    (resting rootOpen pages).replay (.allocatePages maxAddress count address :: rest) =
      (resting rootOpen ((address.map fun first => (first, count)).toList ++ pages)).replay rest :=
  rfl

/-! ### The test file -/

theorem replay_releaseCalls (buffers : List Nat) (pages : List (Nat × Nat)) :
    (holding buffers pages).replay (releaseCalls buffers) = some (resting true pages) := by
  induction buffers with
  | nil => rfl
  | cons buffer buffers inductionHypothesis =>
    have freed : (holding (buffer :: buffers) pages).step (.load (.service (.freePool buffer))) =
        some (holding buffers pages) := by
      simp [step, holding, usable, Resources.step]
    rw [releaseCalls, List.map_cons, List.cons_append, replay_cons, freed, Option.bind_some]
    exact inductionHypothesis

/-- A buffer is obtained and filled. -/
theorem replay_obtain (buffer : Nat) (buffers : List Nat) (pages : List (Nat × Nat)) :
    (holding buffers pages).replay [.load (.service (.allocatePool buffer)), .load (.fill buffer)] =
      some (holding (buffer :: buffers) pages) := by
  simp [replay, step, holding, usable, Resources.step]

theorem replay_say_release (text : String) (buffers : List Nat) (pages : List (Nat × Nat)) :
    (holding buffers pages).replay (say text :: releaseCalls buffers) =
      some (resting true pages) := by
  rw [replay_say_cons rfl, replay_releaseCalls]

theorem replay_readTestFile (answers : TestFile) (stack : Nat → BitVec 16)
    (fileInfo fileSize : Nat) (pages : List (Nat × Nat)) :
    (holding [fileInfo] pages).replay (readTestFile answers stack fileInfo fileSize).calls =
      some (resting true pages) := by
  unfold readTestFile
  cases answers.dataPool fileSize with
  | none => exact replay_say_release _ _ _
  | some fileData =>
    cases answers.read fileSize with
    | none =>
      simp only
      rw [replay_after (replay_obtain fileData [fileInfo] pages)]
      exact replay_say_release _ _ _
    | some bytes =>
      simp only [List.append_assoc]
      rw [replay_after (replay_obtain fileData [fileInfo] pages)]
      simp only [List.cons_append, List.nil_append]
      rw [replay_say_cons rfl, replay_say_cons rfl, replay_after (replay_console rfl _),
        replay_say_cons rfl, replay_say_cons rfl]
      exact replay_releaseCalls _ _

theorem replay_sizeTestFile (answers : TestFile) (stack : Nat → BitVec 16)
    (pages : List (Nat × Nat)) :
    (holding [] pages).replay (sizeTestFile answers stack).calls = some (resting true pages) := by
  unfold sizeTestFile
  cases answers.infoPool with
  | none => exact replay_say_release _ _ _
  | some fileInfo =>
    cases answers.fileSize with
    | none =>
      simp only
      rw [replay_after (replay_obtain fileInfo [] pages)]
      exact replay_say_release _ _ _
    | some fileSize =>
      simp only
      rw [replay_after (replay_obtain fileInfo [] pages), replay_say_cons rfl, replay_cons]
      have read : (holding [fileInfo] pages).step (.load (.read fileInfo ⟨fileInfo + 8, 8⟩)) =
          some (holding [fileInfo] pages) := by
        simp [step, holding, usable, Resources.step]
      rw [read, Option.bind_some]
      exact replay_readTestFile answers stack fileInfo fileSize pages

/-- The test gives back the file and both buffers on every path. -/
theorem replay_testFileStage (answers : TestFile) (stack : Nat → BitVec 16)
    (pages : List (Nat × Nat)) :
    (resting true pages).replay (testFileStage answers stack).calls =
      some (resting true pages) := by
  unfold testFileStage
  cases answers.opens with
  | false => exact @replay_say (resting true pages) rfl [_, _]
  | true => exact replay_sizeTestFile answers stack pages

/-! ### From the kernel to the page tables -/

/-- The root directory stays open if the kernel is not loaded. -/
theorem replay_loadStage (firmware : Firmware) (memory : Memory) :
    ∃ image, Resources.none.replay (loadTrace firmware memory) = some ⟨false, [], image⟩ ∧
      (resting true []).replay (loadStage firmware memory).calls =
        some (resting (loadKernelElf firmware memory).kernel.isNone image) := by
  obtain ⟨image, replayed, rejected⟩ := replay_loadTrace firmware memory
  refine ⟨image, replayed, ?_⟩
  have loaded := @replay_load (resting true []) rfl rfl rfl _ _ replayed
  unfold loadStage
  simp only [List.cons_append]
  rw [replay_say_cons rfl, replay_after loaded]
  cases kernel : (loadKernelElf firmware memory).kernel with
  | none => exact @replay_say (resting true image) rfl [_, _]
  | some kernel => rfl

/-- The pages a build of tables has obtained when it ends. -/
theorem replay_tableCalls (rootOpen : Bool) (pages : List (Nat × Nat)) (answers : Nat → Option Nat)
    (remaining request : Nat) :
    ∃ taken, (resting rootOpen pages).replay (tableCalls answers remaining request) =
        some (resting rootOpen (taken ++ pages)) ∧
      ((∀ round < remaining, ∃ page, answers (request + round) = some page ∧ page ≠ 0) →
        taken = ((List.range remaining).map fun round =>
          ((answers (request + round)).getD 0, 1)).reverse) := by
  induction remaining generalizing request pages with
  | zero => exact ⟨[], rfl, fun _ => rfl⟩
  | succ remaining inductionHypothesis =>
    rw [tableCalls, replay_allocatePages]
    cases answer : answers request with
    | none =>
      refine ⟨[], rfl, ?_⟩
      intro obtained
      obtain ⟨page, answered, -⟩ := obtained 0 (Nat.succ_pos _)
      rw [Nat.add_zero, answer] at answered
      cases answered
    | some page =>
      cases page with
      | zero =>
        refine ⟨[(0, 1)], rfl, ?_⟩
        intro obtained
        obtain ⟨page, answered, nonzero⟩ := obtained 0 (Nat.succ_pos _)
        rw [Nat.add_zero, answer] at answered
        exact absurd (Option.some.inj answered).symm nonzero
      | succ page =>
        obtain ⟨taken, replayed, exact⟩ :=
          inductionHypothesis ((page + 1, 1) :: pages) (request + 1)
        refine ⟨taken ++ [(page + 1, 1)], ?_, ?_⟩
        · rw [List.append_assoc]
          exact replayed
        · intro obtained
          have later := exact fun round small => by
            have shifted := obtained (round + 1) (Nat.succ_lt_succ small)
            rwa [show request + (round + 1) = request + 1 + round by omega] at shifted
          rw [later, List.range_succ_eq_map, List.map_cons, List.reverse_cons, List.map_map]
          simp [answer, Function.comp_def, Nat.add_assoc, Nat.add_comm 1]

theorem replay_bootInfoStage (firmware : Firmware) (rootOpen : Bool) (pages : List (Nat × Nat)) :
    (resting rootOpen pages).replay (bootInfoStage firmware).calls =
      some (resting rootOpen
        (((firmware.allocatePages 1 1).map fun first => (first, 1)).toList ++ pages)) :=
  replay_report (replay_allocatePages ..) rfl _ _ _

theorem replay_stackStage (firmware : Firmware) (rootOpen : Bool) (pages : List (Nat × Nat)) :
    (resting rootOpen pages).replay (stackStage firmware).calls =
      some (resting rootOpen (((firmware.allocatePages 2 kernelStackPages).map fun first =>
        (first, kernelStackPages)).toList ++ pages)) :=
  replay_report (replay_allocatePages ..) rfl _ _ _

end EfiState

/-- A page that is not null was obtained. -/
theorem allocateZeroedPage_obtained {answer : Option Nat} {memory : Memory}
    (nonzero : (allocateZeroedPage answer memory).1 ≠ 0) :
    ∃ page, answer = some page ∧ page ≠ 0 := by
  cases answer with
  | none => exact absurd rfl nonzero
  | some page => exact ⟨page, rfl, nonzero⟩

theorem mapIdentity_obtained {pages : Nat → Option Nat} {identityPdpt : Nat} (gibs : Nat)
    {memory : Memory} (succeeded : (mapIdentity pages identityPdpt gibs memory).1 = true) :
    ∀ gib < gibs, ∃ page, pages (2 + gib) = some page ∧ page ≠ 0 := by
  induction gibs with
  | zero => exact fun gib none => absurd none (Nat.not_lt_zero gib)
  | succ gibs inductionHypothesis =>
    rw [mapIdentity] at succeeded
    rcases earlier : mapIdentity pages identityPdpt gibs memory with ⟨_ | _, middle⟩
    · simp [earlier] at succeeded
    · rw [earlier] at inductionHypothesis
      intro gib small
      by_cases last : gib = gibs
      · subst last
        apply @allocateZeroedPage_obtained _ middle
        intro null
        simp [earlier, null] at succeeded
      · exact inductionHypothesis rfl gib (by omega)

/-- Tables are built from eight pages. -/
theorem tables_obtained {pages : Nat → Option Nat} {memory : Memory} {base size : Nat}
    (succeeded : (buildKernelPageTables pages memory base size).1 ≠ 0) :
    ∀ request < 8, ∃ page, pages request = some page ∧ page ≠ 0 := by
  have obtained {request page : Nat} {before after : Memory}
      (answer : allocateZeroedPage (pages request) before = (page, after)) (nonzero : page ≠ 0) :
      ∃ page, pages request = some page ∧ page ≠ 0 :=
    @allocateZeroedPage_obtained _ before (by rwa [answer])
  rw [buildKernelPageTables] at succeeded
  rcases first : allocateZeroedPage (pages 0) memory with ⟨pml4, memory1⟩
  simp only [first] at succeeded
  split at succeeded
  · exact absurd rfl succeeded
  rename_i nonzero0
  rcases second : allocateZeroedPage (pages 1) memory1 with ⟨identityPdpt, memory2⟩
  simp only [second] at succeeded
  split at succeeded
  · exact absurd rfl succeeded
  rename_i nonzero1
  rcases looped : mapIdentity pages identityPdpt (identityMapLimit / oneGib) memory2 with
    ⟨_ | _, memory3⟩
  · simp [looped] at succeeded
  simp only [looped] at succeeded
  rcases third : allocateZeroedPage (pages 6)
    (store64 memory3 (pml4 + 8 * 0) (pointerEntry identityPdpt)) with ⟨kernelPdpt, memory4⟩
  simp only [third] at succeeded
  split at succeeded
  · exact absurd rfl succeeded
  rename_i nonzero6
  rcases fourth : allocateZeroedPage (pages 7) memory4 with ⟨kernelPd, memory5⟩
  simp only [fourth] at succeeded
  split at succeeded
  · exact absurd rfl succeeded
  rename_i nonzero7
  intro request known
  by_cases directory : 2 ≤ request ∧ request < 6
  · have gib := mapIdentity_obtained 4 (congrArg Prod.fst looped) (request - 2) (by omega)
    rwa [show 2 + (request - 2) = request by omega] at gib
  · obtain rfl | rfl | rfl | rfl : request = 0 ∨ request = 1 ∨ request = 6 ∨ request = 7 := by omega
    · exact obtained first nonzero0
    · exact obtained second nonzero1
    · exact obtained third nonzero6
    · exact obtained fourth nonzero7

namespace EfiState

/-- The pages of the tables, the last one first. -/
def tablePages (firmware : Firmware) : List (Nat × Nat) :=
  ((List.range 8).map fun request =>
    ((firmware.allocatePages (3 + request) 1).getD 0, 1)).reverse

/-- The tables that were built hold eight pages. -/
theorem replay_tablesStage (firmware : Firmware) (memory : Memory) (kernel : LoadedKernel)
    (bootInfo stackTop : Nat) (rootOpen : Bool) (pages : List (Nat × Nat)) :
    let stage := tablesStage firmware memory kernel bootInfo stackTop
    ∃ taken, (resting rootOpen pages).replay stage.calls =
        some (resting rootOpen (taken ++ pages)) ∧
      ∀ handoff, stage.value = some handoff → taken = tablePages firmware ∧
        handoff.bootInfo = bootInfo ∧ handoff.stackTop = stackTop := by
  intro stage
  obtain ⟨taken, replayed, complete⟩ := replay_tableCalls rootOpen pages
    (fun request => firmware.allocatePages (3 + request) 1) 8 0
  refine ⟨taken, replay_report replayed rfl _ _ _, ?_⟩
  intro handoff built
  simp only [stage, tablesStage, report, buildTables] at built
  split at built
  · cases built
  · rename_i succeeded
    obtain rfl := Option.some.inj built
    refine ⟨?_, rfl, rfl⟩
    have obtained := tables_obtained succeeded
    rw [complete fun round small => by simpa using obtained round small, tablePages]
    simp

end EfiState

/-! ### The exit -/

/-- Pages that are held besides do not matter to a call. -/
theorem ServiceState.step_frame {state final : ServiceState} {call : ServiceCall}
    (stepped : state.step call = some final) (more : List (Nat × Nat)) :
    ({ state with live := state.live ++ more } : ServiceState).step call =
      some { final with live := final.live ++ more } := by
  unfold ServiceState.step at stepped ⊢
  cases active : state.active with
  | false => simp [active] at stepped
  | true =>
    simp only [active, if_true] at stepped ⊢
    cases call with
    | getMemoryMap size buffer reply =>
      obtain rfl := Option.some.inj stepped
      rfl
    | allocatePages maxAddress pages reply =>
      obtain rfl := Option.some.inj stepped
      simp only
      split <;> rfl
    | freePages address pages =>
      simp only [Option.ite_none_right_eq_some, Option.some.injEq] at stepped
      obtain ⟨live, rfl⟩ := stepped
      simp only
      rw [if_pos (List.mem_append_left _ live), List.erase_append_left _ live]
    | exitBootServices key status =>
      simp only [Option.ite_none_right_eq_some, Option.some.injEq] at stepped
      obtain ⟨current, rfl⟩ := stepped
      simp only
      rw [if_pos current]

theorem ServiceState.replay_frame {state final : ServiceState} {calls : List ServiceCall}
    (replayed : state.replay calls = some final) (more : List (Nat × Nat)) :
    ({ state with live := state.live ++ more } : ServiceState).replay calls =
      some { final with live := final.live ++ more } := by
  induction calls generalizing state with
  | nil =>
    obtain rfl : state = final := Option.some.inj replayed
    rfl
  | cons call rest inductionHypothesis =>
    rw [ServiceState.replay, List.foldlM_cons] at replayed
    obtain ⟨middle, stepped, remaining⟩ := Option.bind_eq_some_iff.mp replayed
    rw [ServiceState.replay, List.foldlM_cons, ServiceState.step_frame stepped more]
    exact inductionHypothesis remaining

namespace EfiState

/-- The firmware after attempts to exit that have all failed. -/
def unexited (tried : Bool) (key : Option Nat) (pages : List (Nat × Nat)) : EfiState :=
  ⟨true, tried, false, key, false, ⟨false, [], pages⟩⟩

/-- The attempts fail and leave all pages as they were, or boot services are left with one
range more. -/
theorem replay_exitCalls (replies : Nat → AttemptReplies) (pages : List (Nat × Nat)) :
    (∃ key, (exitLoop replies maxExitAttempts 0).1 = none ∧
      (resting false pages).replay (exitCalls replies) =
        some (unexited ((exitLoop replies maxExitAttempts 0).2.any triesExit) key pages)) ∨
    ∃ memoryMap count closing, (exitLoop replies maxExitAttempts 0).1 = some memoryMap ∧
      (resting false pages).replay (exitCalls replies) =
        some ⟨false, closing, false, none, false,
          ⟨false, [], (memoryMap.map, count) :: pages⟩⟩ := by
  have said (rest : List EfiCall) : (resting false pages).replay
      ([say "\r\nPreparing to retrieve the memory map and exit Boot Services...\r\n",
        say "(No further ConOut output is guaranteed valid after this point,\r\n",
        say " per the UEFI specification. Remaining output goes to COM1.)\r\n"] ++ rest) =
      (resting false pages).replay rest :=
    replay_after (@replay_say (resting false pages) rfl [_, _, _]) rest
  rw [exitCalls, said]
  obtain ⟨key, none, -, replayed⟩ | ⟨number, -, -, exited, replayed, -⟩ :=
    exitLoop_cases replies maxExitAttempts 0
  · refine Or.inl ⟨key, none, ?_⟩
    exact @replay_exit (resting false pages) rfl _ _ (ServiceState.replay_frame replayed pages)
  · exact Or.inr ⟨_, _, _, exited,
      @replay_exit (resting false pages) rfl _ _ (ServiceState.replay_frame replayed pages)⟩

/-! ### Whole traces -/

/-- The end of a trace at the halt, on a firmware nobody has tried to leave. No file or
buffer of the bootloader is left. -/
def EndsHalted (state : EfiState) (trace : List EfiCall) (rootOpen : Bool) : Prop :=
  haltCalls <:+ trace ∧ ∃ key pages,
    state.replay trace = some ⟨true, false, true, key, rootOpen, ⟨false, [], pages⟩⟩

/-- The end of a trace in the kernel: the firmware is gone, and of all resources only pages
are left. -/
def EndsEntered (state : EfiState) (trace : List EfiCall) (handoff : Handoff)
    (pages : List (Nat × Nat)) : Prop :=
  [.jump handoff.newCr3 handoff.kernel.entryPointVirtual handoff.bootInfo handoff.stackTop] <:+
      trace ∧
    ∃ closing, state.replay trace =
      some ⟨false, closing, true, none, false, ⟨false, [], pages⟩⟩

/-- The trace breaks the rules: it keeps them up to the report that the exit has failed,
which goes to the console of a firmware that may be partly gone. -/
def EndsLate (state : EfiState) (trace : List EfiCall) : Prop :=
  state.replay trace = none ∧ ∃ body key pages,
    trace = body ++ say exitFailedText :: haltCalls ∧
      state.replay body = some (unexited true key pages)

/-- The three kinds of end, each under a condition. -/
def Ends (state : EfiState) (trace : List EfiCall)
    (entered : Handoff → List (Nat × Nat) → Prop) (halted : Bool → Prop) (late : Prop) : Prop :=
  (∃ handoff pages, entered handoff pages ∧ EndsEntered state trace handoff pages) ∨
    (∃ rootOpen, halted rootOpen ∧ EndsHalted state trace rootOpen) ∨
    (late ∧ EndsLate state trace)

theorem Ends.imp {state : EfiState} {trace : List EfiCall}
    {entered entered' : Handoff → List (Nat × Nat) → Prop} {halted halted' : Bool → Prop}
    {late late' : Prop} (ends : Ends state trace entered halted late)
    (enters : ∀ handoff pages, entered handoff pages → entered' handoff pages)
    (halts : ∀ rootOpen, halted rootOpen → halted' rootOpen) (lates : late → late') :
    Ends state trace entered' halted' late' := by
  rcases ends with ⟨handoff, pages, condition, entry⟩ | ⟨rootOpen, condition, halt⟩ |
    ⟨condition, lateEnd⟩
  · exact Or.inl ⟨handoff, pages, enters _ _ condition, entry⟩
  · exact Or.inr (Or.inl ⟨rootOpen, halts _ condition, halt⟩)
  · exact Or.inr (Or.inr ⟨lates condition, lateEnd⟩)

section Stages

variable {α : Type} {stage : Stage α} {state after : EfiState} {next : α → List EfiCall}
  {entered : Handoff → List (Nat × Nat) → Prop} {halted : Bool → Prop} {late : Prop}
  (replayed : state.replay stage.calls = some after)

include replayed

/-- A stage that fails ends the trace at the halt. -/
theorem ends_failed {rootOpen : Bool} {pages : List (Nat × Nat)}
    (rests : after = resting rootOpen pages) (failed : stage.value = none)
    (condition : halted rootOpen) : Ends state (stage.andThen next) entered halted late := by
  subst rests
  refine Or.inr (Or.inl ⟨rootOpen, condition, ?_⟩)
  rw [Stage.andThen, failed]
  refine ⟨List.suffix_append _ _, none, pages, ?_⟩
  rw [replay_after replayed]
  exact replay_haltCalls rfl

/-- After a stage that succeeds the trace ends as the rest of it does. -/
theorem ends_succeeded {value : α} (succeeded : stage.value = some value)
    (ends : Ends after (next value) entered halted late) :
    Ends state (stage.andThen next) entered halted late := by
  rw [Stage.andThen, succeeded, Option.elim_some]
  rcases ends with ⟨handoff, pages, condition, last, closing, final⟩ |
    ⟨rootOpen, condition, last, key, pages, final⟩ |
    ⟨condition, refused, body, key, pages, rest, kept⟩
  · refine Or.inl ⟨handoff, pages, condition, last.trans (List.suffix_append _ _), closing, ?_⟩
    rw [replay_after replayed, final]
  · refine Or.inr (Or.inl ⟨rootOpen, condition, last.trans (List.suffix_append _ _), key, pages,
      ?_⟩)
    rw [replay_after replayed, final]
  · refine Or.inr (Or.inr ⟨condition, ?_, stage.calls ++ body, key, pages, ?_, ?_⟩)
    · rw [replay_after replayed, refused]
    · rw [rest, List.append_assoc]
    · rw [replay_after replayed, kept]

end Stages

/-- The last part: the attempts to exit, and what follows. -/
theorem ends_exit {replies : Nat → AttemptReplies} {handoff : Handoff} {pages : List (Nat × Nat)}
    {entered : Handoff → List (Nat × Nat) → Prop} {halted : Bool → Prop} {late : Prop}
    (exits : ∀ memoryMap count, (exitLoop replies maxExitAttempts 0).1 = some memoryMap →
      entered handoff ((memoryMap.map, count) :: pages))
    (fails : (exitLoop replies maxExitAttempts 0).1 = none →
      (exitLoop replies maxExitAttempts 0).2.any triesExit = false → halted false)
    (failsLate : (exitLoop replies maxExitAttempts 0).1 = none →
      (exitLoop replies maxExitAttempts 0).2.any triesExit = true → late) :
    Ends (resting false pages) ((exitStage replies).andThen fun _ => jumpCalls handoff) entered
      halted late := by
  obtain ⟨key, failed, replayed⟩ | ⟨memoryMap, count, closing, exited, replayed⟩ :=
    replay_exitCalls replies pages
  · have trace : ((exitStage replies).andThen fun _ => jumpCalls handoff) =
        exitCalls replies ++ say exitFailedText :: haltCalls := by
      simp [Stage.andThen, exitStage, report, failed]
    rw [trace]
    right
    cases tried : (exitLoop replies maxExitAttempts 0).2.any triesExit with
    | false =>
      rw [tried] at replayed
      refine Or.inl ⟨false, fails failed tried, ?_, key, pages, ?_⟩
      · exact (List.suffix_cons _ _).trans (List.suffix_append _ _)
      · rw [replay_after replayed, replay_say_cons rfl]
        exact replay_haltCalls rfl
    | true =>
      rw [tried] at replayed
      refine Or.inr ⟨failsLate failed tried, ?_, exitCalls replies, key, pages, rfl, replayed⟩
      rw [replay_after replayed]
      exact replay_say_unusable rfl _ _
  · have trace : ((exitStage replies).andThen fun _ => jumpCalls handoff) =
        exitCalls replies ++ jumpCalls handoff := by
      simp [Stage.andThen, exitStage, report, exited]
    rw [trace]
    refine Or.inl ⟨handoff, _, exits memoryMap count exited, ?_, closing, ?_⟩
    · exact (show [_] <:+ jumpCalls handoff from ⟨_, rfl⟩).trans (List.suffix_append _ _)
    · rw [replay_after replayed]
      rfl

/-- The pages that are held when the kernel is entered, apart from the memory map: the eight
tables, the stack, the boot information and the image. -/
def heldPages (firmware : Firmware) (bootInfo stackPhys : Nat) (image : List (Nat × Nat)) :
    List (Nat × Nat) :=
  tablePages firmware ++ (stackPhys, kernelStackPages) :: (bootInfo, 1) :: image

/-- The kernel is entered: everything is prepared, boot services are left, and the pages
are those that were handed out for a purpose. -/
def Enters (platform : Platform) (memory : Memory) (handoff : Handoff)
    (pages : List (Nat × Nat)) : Prop :=
  ∃ memoryMap count stackPhys image,
    (prepareHandoff platform.loader memory).1 = some handoff ∧
    (exitLoop platform.exit maxExitAttempts 0).1 = some memoryMap ∧
    handoff.stackTop = wrappingAdd stackPhys (kernelStackPages * pageSize4K) ∧
    Resources.none.replay (loadTrace platform.loader memory) = some ⟨false, [], image⟩ ∧
    pages = (memoryMap.map, count) ::
      heldPages platform.loader handoff.bootInfo stackPhys image

/-- The attempts to exit fail, and at least one was made if `tried` is set. -/
def Fails (platform : Platform) (tried : Bool) : Prop :=
  (exitLoop platform.exit maxExitAttempts 0).1 = none ∧
    (exitLoop platform.exit maxExitAttempts 0).2.any triesExit = tried

/-- `EfiMain` from the load of the kernel on. -/
theorem ends_boot (platform : Platform) (memory : Memory) :
    Ends (resting true []) (bootCalls platform memory) (Enters platform memory)
      (fun rootOpen => ((prepareHandoff platform.loader memory).1 = none ∨ Fails platform false) ∧
        rootOpen = (loadKernelElf platform.loader memory).kernel.isNone)
      ((prepareHandoff platform.loader memory).1.isSome ∧ Fails platform true) := by
  obtain ⟨image, loads, loaded⟩ := replay_loadStage platform.loader memory
  cases kernelIs : (loadKernelElf platform.loader memory).kernel with
  | none =>
    rw [kernelIs] at loaded
    exact ends_failed loaded rfl kernelIs ⟨Or.inl (by simp [prepareHandoff, kernelIs]), rfl⟩
  | some kernel =>
    rw [kernelIs] at loaded
    refine ends_succeeded loaded kernelIs ?_
    have bootInfoReplay := replay_bootInfoStage platform.loader false image
    cases page : platform.loader.allocatePages 1 1 with
    | none =>
      rw [page] at bootInfoReplay
      exact ends_failed bootInfoReplay rfl page
        ⟨Or.inl (by simp [prepareHandoff, kernelIs, page]), rfl⟩
    | some bootInfo =>
      rw [page] at bootInfoReplay
      refine ends_succeeded bootInfoReplay page ?_
      have stackReplay := replay_stackStage platform.loader false ((bootInfo, 1) :: image)
      cases stack : platform.loader.allocatePages 2 kernelStackPages with
      | none =>
        rw [stack] at stackReplay
        exact ends_failed stackReplay rfl stack
          ⟨Or.inl (by simp [prepareHandoff, kernelIs, page, stack]), rfl⟩
      | some stackPhys =>
        rw [stack] at stackReplay
        refine ends_succeeded stackReplay stack ?_
        have prepared : (prepareHandoff platform.loader memory).1 =
            (tablesStage platform.loader
              (writeStack (writeBootInfo (loadKernelElf platform.loader memory).memory bootInfo
                kernel) bootInfo (wrappingAdd stackPhys (kernelStackPages * pageSize4K))
                (kernelStackPages * pageSize4K)) kernel bootInfo
              (wrappingAdd stackPhys (kernelStackPages * pageSize4K))).value := by
          simp only [prepareHandoff, kernelIs, page, stack, Option.elim_some]
          rfl
        obtain ⟨taken, tablesReplay, complete⟩ := replay_tablesStage platform.loader _ kernel
          bootInfo _ false ((stackPhys, kernelStackPages) :: (bootInfo, 1) :: image)
        rw [prepared]
        cases built : (tablesStage platform.loader _ kernel bootInfo _).value with
        | none => exact ends_failed tablesReplay rfl built ⟨Or.inl rfl, rfl⟩
        | some handoff =>
          obtain ⟨rfl, rfl, stackTop⟩ := complete handoff built
          refine ends_succeeded tablesReplay built (ends_exit ?_ ?_ ?_)
          · intro memoryMap count exited
            exact ⟨memoryMap, count, stackPhys, image, prepared.trans built, exited, stackTop,
              loads, rfl⟩
          · exact fun failed tried => ⟨Or.inr ⟨failed, tried⟩, rfl⟩
          · exact fun failed tried => ⟨rfl, failed, tried⟩

end EfiState

open EfiState

/-- The firmware gives its protocols and the root directory. -/
def OpensRoot (platform : Platform) : Prop :=
  platform.loadedImage.isSome ∧ platform.fileSystem.isSome ∧ platform.root.isSome

/-- The test file is read as well. -/
def TestsPass (platform : Platform) (stack : Nat → BitVec 16) : Prop :=
  OpensRoot platform ∧ (testFileStage platform.testFile stack).value.isSome

/-- **`EfiMain` against any firmware.** Every trace is of one of three kinds. It enters the
kernel, with the handoff that was prepared, exactly after everything has succeeded:
boot services are gone, no file or buffer is left, and the pages that are held are
those of the memory map, the tables, the stack, the boot information and the image.
Or it halts on a firmware nobody has tried to leave, with no file or buffer left but
the root directory, which stays open if it was opened and the kernel was not loaded.
Or every attempt to exit has failed and at least one was made; then the trace breaks
the rules, and the first call to do so is the report of the failure. -/
theorem efi_main_protocol (platform : Platform) (stack : Nat → BitVec 16) (memory : Memory) :
    (∃ handoff pages, (TestsPass platform stack ∧ Enters platform memory handoff pages) ∧
      EndsEntered .start (efiMain platform stack memory) handoff pages) ∨
    (∃ rootOpen, ((TestsPass platform stack →
          (prepareHandoff platform.loader memory).1 = none ∨ Fails platform false) ∧
        (rootOpen = true ↔ OpensRoot platform ∧ (TestsPass platform stack →
          (loadKernelElf platform.loader memory).kernel = none))) ∧
      EndsHalted .start (efiMain platform stack memory) rootOpen) ∨
    ((TestsPass platform stack ∧ (prepareHandoff platform.loader memory).1.isSome ∧
        Fails platform true) ∧
      EndsLate .start (efiMain platform stack memory)) := by
  change Ends (resting false []) (efiMain platform stack memory) _ _ _
  have imageReplay : (resting false []).replay (acquireImage platform).calls =
      some (resting false []) := replay_report rfl rfl _ _ _
  have systemReplay : (resting false []).replay (acquireFileSystem platform).calls =
      some (resting false []) := replay_report rfl rfl _ _ _
  have rootReplay : (resting false []).replay (openRoot platform).calls =
      some (resting platform.root.isSome []) := replay_report rfl rfl _ _ _
  have testReplay := replay_testFileStage platform.testFile stack []
  cases image : platform.loadedImage with
  | none => exact ends_failed imageReplay rfl image (by simp [TestsPass, OpensRoot, image])
  | some _ =>
    refine ends_succeeded imageReplay image ?_
    cases system : platform.fileSystem with
    | none => exact ends_failed systemReplay rfl system (by simp [TestsPass, OpensRoot, system])
    | some _ =>
      refine ends_succeeded systemReplay system ?_
      cases root : platform.root with
      | none =>
        rw [root] at rootReplay
        exact ends_failed rootReplay rfl root (by simp [TestsPass, OpensRoot, root])
      | some _ =>
        rw [root] at rootReplay
        refine ends_succeeded rootReplay root ?_
        have opens : OpensRoot platform := by simp [OpensRoot, image, system, root]
        cases tested : (testFileStage platform.testFile stack).value with
        | none =>
          have fails : ¬ TestsPass platform stack := by simp [TestsPass, tested]
          exact ends_failed testReplay rfl tested (by simp [fails, opens])
        | some _ =>
          have passes : TestsPass platform stack := ⟨opens, by simp [tested]⟩
          refine ends_succeeded testReplay tested ((ends_boot platform memory).imp ?_ ?_ ?_)
          · exact fun handoff pages enters => ⟨passes, enters⟩
          · rintro rootOpen ⟨cause, rfl⟩
            simp [passes, opens, cause]
          · exact fun late => ⟨passes, late⟩

/-- A firmware that refuses every exit makes the trace late. -/
example (platform : Platform)
    (refuses : platform.exit = fun _ =>
      ⟨⟨0, 48, 7, 48, 1⟩, ⟨0, 0x1000⟩, ⟨0, 48, 7, 48, 1⟩, 2 ^ 63 + 2⟩) :
    Fails platform true := by
  rw [Fails, refuses]
  decide

end Boot

end XyronOS
