import XyronOS.Boot.KernelLoader
import XyronOS.Mm.FrameInit

/-!
# Leaving the firmware's boot services

`ExitBootServicesWithRetry` against a firmware that answers as it likes. An attempt
asks for the size of the memory map, allocates a buffer, fetches the map and its
key, and tries to exit with that key; a failed fetch or a refused exit frees the
buffer and starts over, at most five times. The answers of each attempt are a
parameter, and the calls made are kept in order.

What a caller of the boot services may do is a protocol of its own. `ServiceState`
is the firmware's side: whether the services still exist, the key of the map that
was fetched by the very last call, and the page ranges that are allocated. A call
that the protocol forbids has no next state: any call after the exit, an exit
without the current key, and the release of a range that is not allocated.

The retry loop is accepted by the protocol on all answers. The size of the final
map is bounded by its buffer as long as rounding the requested size to pages does
not wrap.
-/

namespace XyronOS

open ByteMemory WordBits

namespace Boot

def maxExitAttempts : Nat := 5

def memoryMapSlackEntries : Nat := 8

def efiSuccess : Nat := 0

/-- An error status is negative as a signed word. -/
def efiError (status : Nat) : Bool := decide (2 ^ 63 ≤ status % 2 ^ 64)

/-- Status of a `GetMemoryMap` call and what its output variables hold afterwards. -/
structure MapReply where
  status : Nat
  mapSize : Nat
  mapKey : Nat
  descriptorSize : Nat
  descriptorVersion : Nat
deriving DecidableEq, Repr

/-- Status of an `AllocatePages` call and the address variable afterwards. -/
structure PagesReply where
  status : Nat
  address : Nat
deriving DecidableEq, Repr

/-- A call of a boot service, with its arguments and its reply. -/
inductive ServiceCall where
  | getMemoryMap (size buffer : Nat) (reply : MapReply)
  | allocatePages (maxAddress pages : Nat) (reply : PagesReply)
  | freePages (address pages : Nat)
  | exitBootServices (key status : Nat)
deriving DecidableEq, Repr

/-- What the firmware answers during one attempt, as far as it is asked. -/
structure AttemptReplies where
  query : MapReply
  pages : PagesReply
  fetch : MapReply
  exitStatus : Nat
deriving DecidableEq, Repr

/-- The final memory map. -/
structure BootMemoryMap where
  map : Nat
  mapSizeBytes : Nat
  descriptorSize : Nat
  descriptorVersion : Nat
  entryCount : Nat
deriving DecidableEq, Repr

/-- How an attempt ends: return FALSE, go on to the next attempt, or return TRUE. -/
inductive AttemptEnd where
  | giveUp
  | again
  | exited (memoryMap : BootMemoryMap)
deriving DecidableEq, Repr

/-- The size reported by the first call, with room for the entries the allocation
itself may add. -/
def AttemptReplies.paddedSize (replies : AttemptReplies) : Nat :=
  wrappingAdd replies.query.mapSize (replies.query.descriptorSize * memoryMapSlackEntries)

/-- Pages of the buffer. -/
def AttemptReplies.pageCount (replies : AttemptReplies) : Nat :=
  roundUpTo replies.paddedSize pageSize4K / pageSize4K

/-- What a successful exit leaves in `OutMemoryMap`. -/
def AttemptReplies.memoryMap (replies : AttemptReplies) : BootMemoryMap where
  map := replies.pages.address
  mapSizeBytes := replies.fetch.mapSize
  descriptorSize := replies.fetch.descriptorSize
  descriptorVersion := replies.fetch.descriptorVersion
  entryCount := replies.fetch.mapSize / replies.fetch.descriptorSize

/-- One attempt, with the calls it makes. -/
def attempt (replies : AttemptReplies) : AttemptEnd × List ServiceCall :=
  let asked := .getMemoryMap 0 0 replies.query
  if replies.query.descriptorSize = 0 then (.giveUp, [asked])
  else
    let allocated := .allocatePages (identityMapLimit - 1) replies.pageCount replies.pages
    if efiError replies.pages.status then (.giveUp, [asked, allocated])
    else
      let fetched := .getMemoryMap replies.paddedSize replies.pages.address replies.fetch
      let freed := .freePages replies.pages.address replies.pageCount
      if efiError replies.fetch.status then (.again, [asked, allocated, fetched, freed])
      else
        let exit := .exitBootServices replies.fetch.mapKey replies.exitStatus
        if replies.exitStatus = efiSuccess then
          (.exited replies.memoryMap, [asked, allocated, fetched, exit])
        else (.again, [asked, allocated, fetched, exit, freed])

/-- The loop over the remaining attempts. -/
def exitLoop (firmware : Nat → AttemptReplies) :
    Nat → Nat → Option BootMemoryMap × List ServiceCall
  | 0, _ => (none, [])
  | remaining + 1, number =>
      match attempt (firmware number) with
      | (.giveUp, calls) => (none, calls)
      | (.exited memoryMap, calls) => (some memoryMap, calls)
      | (.again, calls) =>
          let later := exitLoop firmware remaining (number + 1)
          (later.1, calls ++ later.2)

/-- What `ExitBootServicesWithRetry` returns, what it leaves in `OutMemoryMap`, and
the calls it made. -/
structure ExitOutcome where
  exited : Bool
  outMemoryMap : BootMemoryMap
  calls : List ServiceCall

def exitBootServicesWithRetry (firmware : Nat → AttemptReplies) (outMemoryMap : BootMemoryMap) :
    ExitOutcome :=
  match exitLoop firmware maxExitAttempts 0 with
  | (some memoryMap, calls) => ⟨true, memoryMap, calls⟩
  | (none, calls) => ⟨false, outMemoryMap, calls⟩

/-- The fields of `BootInfo` that the bootloader fills from the final map. -/
def fillBootInfo (memMap : BootMemoryMap) : BootInfo where
  memoryMapPhysAddr := memMap.map
  memoryMapSizeBytes := memMap.mapSizeBytes
  memoryMapDescriptorSize := memMap.descriptorSize
  memoryMapEntryCount := memMap.entryCount

/-- The firmware's side of the protocol. -/
structure ServiceState where
  active : Bool
  key : Option Nat
  live : List (Nat × Nat)
deriving DecidableEq, Repr

namespace ServiceState

/-- Services exist, no map is current, nothing is allocated. -/
def idle : ServiceState := ⟨true, none, []⟩

/-- The state after a call that the protocol allows. -/
def step (state : ServiceState) (call : ServiceCall) : Option ServiceState :=
  if state.active then
    match call with
    | .getMemoryMap _ _ reply =>
        some { state with key := if efiError reply.status then none else some reply.mapKey }
    | .allocatePages _ pages reply =>
        some { state with
          key := none
          live := if efiError reply.status then state.live
            else (reply.address, pages) :: state.live }
    | .freePages address pages =>
        if (address, pages) ∈ state.live then
          some { state with key := none, live := state.live.erase (address, pages) }
        else none
    | .exitBootServices key status =>
        if state.key = some key then
          some { state with active := decide (status ≠ efiSuccess), key := none }
        else none
  else none

/-- The state after a sequence of allowed calls. -/
def replay (state : ServiceState) (calls : List ServiceCall) : Option ServiceState :=
  calls.foldlM step state

/-- Replaying one sequence after another. -/
theorem replay_append (state : ServiceState) (first second : List ServiceCall) :
    state.replay (first ++ second) = (state.replay first).bind fun middle => middle.replay second := by
  exact List.foldlM_append

/-- Only a successful fetch leaves a key, and it is the fetched one. -/
theorem step_key {state after : ServiceState} {call : ServiceCall} {key : Nat}
    (stepped : state.step call = some after) (current : after.key = some key) :
    ∃ size buffer reply, call = .getMemoryMap size buffer reply ∧
      efiError reply.status = false ∧ reply.mapKey = key := by
  unfold step at stepped
  split at stepped
  · cases call with
    | getMemoryMap size buffer reply =>
      rw [← Option.some.inj stepped] at current
      cases failed : efiError reply.status with
      | true => simp [failed] at current
      | false =>
        simp only [failed, Bool.false_eq_true, if_false, Option.some.injEq] at current
        exact ⟨size, buffer, reply, rfl, failed, current⟩
    | allocatePages maxAddress pages reply =>
      rw [← Option.some.inj stepped] at current
      cases current
    | freePages address pages =>
      simp only at stepped
      split at stepped
      · rw [← Option.some.inj stepped] at current
        cases current
      · cases stepped
    | exitBootServices other status =>
      simp only at stepped
      split at stepped
      · rw [← Option.some.inj stepped] at current
        cases current
      · cases stepped
  · cases stepped

/-- A key is current only right after the call that fetched it. -/
theorem replay_key {state : ServiceState} {calls : List ServiceCall} {key : Nat}
    (accepted : idle.replay calls = some state) (current : state.key = some key) :
    ∃ first size buffer reply, calls = first ++ [ServiceCall.getMemoryMap size buffer reply] ∧
      efiError reply.status = false ∧ reply.mapKey = key := by
  rcases List.eq_nil_or_concat calls with rfl | ⟨first, call, rfl⟩
  · rw [← Option.some.inj accepted] at current
    cases current
  · rw [List.concat_eq_append, replay_append] at accepted
    obtain ⟨middle, _, last⟩ := Option.bind_eq_some_iff.mp accepted
    have stepped : middle.step call = some state := by simpa [replay] using last
    obtain ⟨size, buffer, reply, rfl, succeeded, same⟩ := step_key stepped current
    exact ⟨first, size, buffer, reply, List.concat_eq_append .., succeeded, same⟩

/-- An accepted exit was made with the current key, and it ends the services if it
succeeds. -/
theorem step_exit {state after : ServiceState} {key status : Nat}
    (stepped : state.step (.exitBootServices key status) = some after) :
    state.key = some key ∧ (status = efiSuccess → after.active = false) := by
  unfold step at stepped
  split at stepped
  · simp only at stepped
    split at stepped
    · rename_i current
      refine ⟨current, ?_⟩
      rintro rfl
      rw [← Option.some.inj stepped]
      rfl
    · cases stepped
  · cases stepped

/-- Nothing is accepted once the services are gone. -/
theorem replay_inactive {state final : ServiceState} {calls : List ServiceCall}
    (gone : state.active = false) (accepted : state.replay calls = some final) : calls = [] := by
  cases calls with
  | nil => rfl
  | cons call calls => simp [replay, step, gone] at accepted

end ServiceState

/-- The page ranges that were allocated, in order. -/
def allocations (calls : List ServiceCall) : List (Nat × Nat) :=
  calls.filterMap fun
    | .allocatePages _ pages reply =>
        if efiError reply.status then none else some (reply.address, pages)
    | _ => none

/-- The map passes the size check that `FrameAllocator::init` makes first. -/
def SizeChecked (bootInfo : BootInfo) : Prop :=
  ∃ claimedSize, checkedMul bootInfo.memoryMapEntryCount bootInfo.memoryMapDescriptorSize =
    some claimedSize ∧ claimedSize ≤ bootInfo.memoryMapSizeBytes

/-- What a run promises its caller and the firmware. -/
structure ExitProtocol (before : BootMemoryMap) (outcome : ExitOutcome) : Prop where
  currentKey : ∀ earlier later key status,
    outcome.calls = earlier ++ .exitBootServices key status :: later →
      ∃ first size buffer reply, earlier = first ++ [.getMemoryMap size buffer reply] ∧
        efiError reply.status = false ∧ reply.mapKey = key
  lastCall : ∀ earlier later key,
    outcome.calls = earlier ++ .exitBootServices key efiSuccess :: later → later = []
  failed : outcome.exited = false → outcome.outMemoryMap = before ∧
    ∃ key, ServiceState.idle.replay outcome.calls = some ⟨true, key, []⟩
  exited : outcome.exited = true →
    ∃ pages, (allocations outcome.calls).getLast? = some (outcome.outMemoryMap.map, pages) ∧
      ServiceState.idle.replay outcome.calls =
        some ⟨false, none, [(outcome.outMemoryMap.map, pages)]⟩ ∧
      outcome.outMemoryMap.entryCount * outcome.outMemoryMap.descriptorSize ≤
        outcome.outMemoryMap.mapSizeBytes ∧
      outcome.outMemoryMap.mapSizeBytes ≤ pages * pageSize4K ∧
      SizeChecked (fillBootInfo outcome.outMemoryMap)

namespace AttemptReplies

/-- The answers that make an attempt start over. -/
structure Retries (replies : AttemptReplies) : Prop where
  described : replies.query.descriptorSize ≠ 0
  allocated : efiError replies.pages.status = false
  refused : efiError replies.fetch.status = true ∨ replies.exitStatus ≠ efiSuccess

/-- The answers that make an attempt succeed. -/
structure Exits (replies : AttemptReplies) : Prop where
  described : replies.query.descriptorSize ≠ 0
  allocated : efiError replies.pages.status = false
  fetched : efiError replies.fetch.status = false
  exited : replies.exitStatus = efiSuccess

end AttemptReplies

/-- An accepted sequence meets the two ordering rules of the protocol. -/
theorem ordering_of_replay {calls : List ServiceCall} {final : ServiceState}
    (accepted : ServiceState.idle.replay calls = some final)
    {earlier later : List ServiceCall} {key status : Nat}
    (split : calls = earlier ++ ServiceCall.exitBootServices key status :: later) :
    (∃ first size buffer reply, earlier = first ++ [ServiceCall.getMemoryMap size buffer reply] ∧
      efiError reply.status = false ∧ reply.mapKey = key) ∧
    (status = efiSuccess → later = []) := by
  rw [split, ServiceState.replay_append] at accepted
  obtain ⟨before, reached, rest⟩ := Option.bind_eq_some_iff.mp accepted
  rw [ServiceState.replay, List.foldlM_cons] at rest
  obtain ⟨after, stepped, last⟩ := Option.bind_eq_some_iff.mp rest
  obtain ⟨current, ends⟩ := ServiceState.step_exit stepped
  refine ⟨ServiceState.replay_key reached current, ?_⟩
  intro succeeded
  exact ServiceState.replay_inactive (ends succeeded) last

/-- Every attempt keeps to the protocol. It ends with nothing allocated, or with the
services gone and its own buffer allocated. -/
theorem attempt_cases (replies : AttemptReplies) :
    (∃ key, (attempt replies).1 = .giveUp ∧ ¬ replies.Retries ∧ ¬ replies.Exits ∧
      ServiceState.idle.replay (attempt replies).2 = some ⟨true, key, []⟩) ∨
    ((attempt replies).1 = .again ∧ replies.Retries ∧ ¬ replies.Exits ∧
      ServiceState.idle.replay (attempt replies).2 = some .idle) ∨
    ((attempt replies).1 = .exited replies.memoryMap ∧ replies.Exits ∧
      ServiceState.idle.replay (attempt replies).2 =
        some ⟨false, none, [(replies.pages.address, replies.pageCount)]⟩ ∧
      allocations (attempt replies).2 = [(replies.pages.address, replies.pageCount)]) := by
  by_cases described : replies.query.descriptorSize = 0
  · have ended : attempt replies = (.giveUp, [.getMemoryMap 0 0 replies.query]) :=
      if_pos described
    rw [ended]
    exact .inl ⟨_, rfl, fun retries => retries.described described,
      fun exits => exits.described described, rfl⟩
  cases allocated : efiError replies.pages.status with
  | true =>
    refine .inl ⟨none, ?_, ?_, ?_, ?_⟩
    · simp [attempt, described, allocated]
    · intro retries
      simp [retries.allocated] at allocated
    · intro exits
      simp [exits.allocated] at allocated
    · simp [attempt, described, ServiceState.replay, ServiceState.step, ServiceState.idle, allocated]
  | false =>
    cases fetched : efiError replies.fetch.status with
    | true =>
      refine .inr (.inl ⟨?_, ⟨described, allocated, .inl fetched⟩, ?_, ?_⟩)
      · simp [attempt, described, allocated, fetched]
      · intro exits
        simp [exits.fetched] at fetched
      · simp [attempt, described, ServiceState.replay, ServiceState.step, ServiceState.idle,
          allocated, fetched]
    | false =>
      by_cases exited : replies.exitStatus = efiSuccess
      · refine .inr (.inr ⟨?_, ⟨described, allocated, fetched, exited⟩, ?_, ?_⟩)
        · simp [attempt, described, allocated, fetched, exited]
        · simp [attempt, described, ServiceState.replay, ServiceState.step, ServiceState.idle,
            allocated, fetched, exited]
        · simp [attempt, described, fetched, exited, allocations, allocated]
      · refine .inr (.inl ⟨?_, ⟨described, allocated, .inr exited⟩, ?_, ?_⟩)
        · simp [attempt, described, allocated, fetched, exited]
        · exact fun exits => exited exits.exited
        · simp [attempt, described, ServiceState.replay, ServiceState.step, ServiceState.idle,
            allocated, fetched, exited]

/-- The attempt that exits, counted from a first one: all before it start over. -/
structure Decisive (firmware : Nat → AttemptReplies) (first number : Nat) : Prop where
  reached : first ≤ number
  earlier : ∀ other, first ≤ other → other < number → (firmware other).Retries
  exits : (firmware number).Exits

/-- At most one attempt exits: the ones before it start over. -/
theorem Decisive.unique {firmware : Nat → AttemptReplies} {first number other : Nat}
    (decisive : Decisive firmware first number) (second : Decisive firmware first other) :
    number = other := by
  have apart (replies : AttemptReplies) (exits : replies.Exits) (retries : replies.Retries) :
      False := by
    rcases retries.refused with failed | refused
    · simp [exits.fetched] at failed
    · exact refused exits.exited
  rcases Nat.lt_trichotomy number other with before | same | after
  · exact (apart _ decisive.exits (second.earlier number decisive.reached before)).elim
  · exact same
  · exact (apart _ second.exits (decisive.earlier other second.reached after)).elim

/-- The loop returns the map of the attempt that exits, if one of the remaining
attempts does. Every attempt starts with nothing allocated. -/
theorem exitLoop_cases (firmware : Nat → AttemptReplies) (remaining first : Nat) :
    (∃ key, (exitLoop firmware remaining first).1 = none ∧
      (∀ number < first + remaining, ¬ Decisive firmware first number) ∧
      ServiceState.idle.replay (exitLoop firmware remaining first).2 = some ⟨true, key, []⟩) ∨
    (∃ number < first + remaining, Decisive firmware first number ∧
      (exitLoop firmware remaining first).1 = some (firmware number).memoryMap ∧
      ServiceState.idle.replay (exitLoop firmware remaining first).2 =
        some ⟨false, none, [((firmware number).pages.address, (firmware number).pageCount)]⟩ ∧
      (allocations (exitLoop firmware remaining first).2).getLast? =
        some ((firmware number).pages.address, (firmware number).pageCount)) := by
  induction remaining generalizing first with
  | zero =>
    refine .inl ⟨none, rfl, ?_, rfl⟩
    intro number below decisive
    have reached := decisive.reached
    omega
  | succ remaining inductionHypothesis =>
    rcases result : attempt (firmware first) with ⟨ending, calls⟩
    have classified := attempt_cases (firmware first)
    rw [result] at classified
    simp only at classified
    rcases classified with ⟨key, rfl, notAgain, notExits, replayed⟩ |
      ⟨rfl, again, notExits, replayed⟩ | ⟨rfl, exits, replayed, buffers⟩
    · simp only [exitLoop, result]
      refine .inl ⟨key, trivial, ?_, replayed⟩
      intro number below decisive
      rcases Nat.eq_or_lt_of_le decisive.reached with rfl | later
      · exact notExits decisive.exits
      · exact notAgain (decisive.earlier first (Nat.le_refl _) later)
    · simp only [exitLoop, result]
      have extend (number : Nat) : Decisive firmware first number ↔
          Decisive firmware (first + 1) number := by
        constructor
        · intro decisive
          refine ⟨?_, fun other lower => decisive.earlier other (by omega), decisive.exits⟩
          rcases Nat.eq_or_lt_of_le decisive.reached with rfl | later
          · exact absurd decisive.exits notExits
          · exact later
        · intro decisive
          have reached := decisive.reached
          refine ⟨by omega, ?_, decisive.exits⟩
          intro other lower upper
          rcases Nat.eq_or_lt_of_le lower with rfl | later
          · exact again
          · exact decisive.earlier other later upper
      have replayedBoth (more : List ServiceCall) :
          ServiceState.idle.replay (calls ++ more) = ServiceState.idle.replay more := by
        rw [ServiceState.replay_append, replayed]
        rfl
      rw [replayedBoth]
      rcases inductionHypothesis (first + 1) with ⟨key, none, noneDecisive, after⟩ |
        ⟨number, below, decisive, returned, after, last⟩
      · refine .inl ⟨key, none, ?_, after⟩
        intro number below decisive
        exact noneDecisive number (by omega) ((extend number).mp decisive)
      · refine .inr ⟨number, by omega, (extend number).mpr decisive, returned, after, ?_⟩
        rw [allocations, List.filterMap_append, List.getLast?_append]
        exact Option.or_eq_some_iff.mpr (.inl last)
    · simp only [exitLoop, result]
      refine .inr ⟨first, by omega, ⟨Nat.le_refl _, ?_, exits⟩, rfl, replayed, ?_⟩
      · intro other lower upper
        omega
      · rw [buffers]
        rfl

/-- Both halves of the size check follow from the entry count being a quotient. -/
theorem sizeChecked_memoryMap (replies : AttemptReplies)
    (word : replies.fetch.mapSize < 2 ^ 64) :
    replies.memoryMap.entryCount * replies.memoryMap.descriptorSize ≤
        replies.memoryMap.mapSizeBytes ∧
      SizeChecked (fillBootInfo replies.memoryMap) := by
  have counted : replies.fetch.mapSize / replies.fetch.descriptorSize *
      replies.fetch.descriptorSize ≤ replies.fetch.mapSize := Nat.div_mul_le_self _ _
  exact ⟨counted, _, if_pos (Nat.lt_of_le_of_lt counted word), counted⟩

/-- The buffer holds the padded size exactly when rounding does not wrap; if it does,
the buffer has no pages. -/
theorem pageCount_bytes (replies : AttemptReplies) (size : Nat) (within : size ≤ replies.paddedSize) :
    size ≤ replies.pageCount * pageSize4K ↔
      replies.paddedSize + (pageSize4K - 1) < 2 ^ 64 ∨ size = 0 := by
  have word : replies.paddedSize < 2 ^ 64 := Nat.mod_lt _ (by decide)
  by_cases fits : replies.paddedSize + (2 ^ 12 - 1) < 2 ^ 64
  · have rounded : roundUpTo replies.paddedSize pageSize4K = roundUp replies.paddedSize pageSize4K :=
      roundUpTo_pow replies.paddedSize 12 (by decide) fits
    have whole : replies.pageCount * pageSize4K = roundUp replies.paddedSize pageSize4K := by
      rw [AttemptReplies.pageCount, rounded]
      exact Nat.div_mul_cancel (Nat.dvd_of_mod_eq_zero (roundUp_aligned _ _))
    have above : replies.paddedSize ≤ roundUp replies.paddedSize pageSize4K :=
      le_roundUp _ _ (by decide)
    rw [whole]
    exact ⟨fun _ => .inl fits, fun _ => Nat.le_trans within above⟩
  · have wrapped : wrappingAdd replies.paddedSize (2 ^ 12 - 1) =
        replies.paddedSize + (2 ^ 12 - 1) - 2 ^ 64 := by
      unfold wrappingAdd
      omega
    have rounded : roundUpTo replies.paddedSize pageSize4K = 0 := by
      have masked := and_complement_low (wrappingAdd replies.paddedSize (2 ^ 12 - 1)) 12 (by decide)
        (Nat.mod_lt _ (by decide))
      have small : wrappingAdd replies.paddedSize (2 ^ 12 - 1) / 2 ^ 12 = 0 := by
        rw [wrapped]
        omega
      rw [small, Nat.zero_mul] at masked
      exact masked
    have none : replies.pageCount = 0 := by rw [AttemptReplies.pageCount, rounded]; rfl
    rw [none, Nat.zero_mul, Nat.le_zero]
    constructor
    · exact .inr
    · rintro (fitting | empty)
      · exact absurd fitting fits
      · exact empty

/-- What the firmware promises of a successful `GetMemoryMap`: it writes at most the
size it was given and names the size of a descriptor. The padded size is a word. -/
structure MapContract (firmware : Nat → AttemptReplies) : Prop where
  written : ∀ number, efiError (firmware number).fetch.status = false →
    (firmware number).fetch.mapSize ≤ (firmware number).paddedSize
  described : ∀ number, efiError (firmware number).fetch.status = false →
    (firmware number).fetch.descriptorSize ≠ 0
  slack : ∀ number, (firmware number).query.mapSize +
    (firmware number).query.descriptorSize * memoryMapSlackEntries < 2 ^ 64

/-- A run keeps its promises exactly when, on the attempt that exits, rounding the
padded size up to pages does not wrap or the final map is empty. -/
theorem exit_protocol_iff (firmware : Nat → AttemptReplies) (contract : MapContract firmware)
    (outMemoryMap : BootMemoryMap) :
    ExitProtocol outMemoryMap (exitBootServicesWithRetry firmware outMemoryMap) ↔
      ∀ number < maxExitAttempts, Decisive firmware 0 number →
        (firmware number).paddedSize + (pageSize4K - 1) < 2 ^ 64 ∨
          (firmware number).fetch.mapSize = 0 := by
  rcases result : exitLoop firmware maxExitAttempts 0 with ⟨returned, calls⟩
  have classified := exitLoop_cases firmware maxExitAttempts 0
  simp only [result, Nat.zero_add] at classified
  rcases classified with ⟨key, rfl, noneDecisive, replayed⟩ |
    ⟨number, below, decisive, rfl, replayed, last⟩
  · simp only [exitBootServicesWithRetry, result]
    constructor
    · intro protocol number below decisive
      exact absurd decisive (noneDecisive number below)
    · intro _
      refine ⟨?_, ?_, fun _ => ⟨rfl, key, replayed⟩, by simp⟩
      · intro earlier later key status split
        exact (ordering_of_replay replayed split).1
      · intro earlier later key split
        exact (ordering_of_replay replayed split).2 rfl
  · have within := contract.written number decisive.exits.fetched
    have word : (firmware number).fetch.mapSize < 2 ^ 64 :=
      Nat.lt_of_le_of_lt within (Nat.mod_lt _ (by decide))
    have sized := pageCount_bytes (firmware number) _ within
    simp only [exitBootServicesWithRetry, result]
    constructor
    · intro protocol other otherBelow otherDecisive
      obtain rfl := decisive.unique otherDecisive
      obtain ⟨pages, lastBuffer, _, _, bounded, _⟩ := protocol.exited rfl
      have samePages : pages = (firmware number).pageCount :=
        (Prod.mk.inj (Option.some.inj (lastBuffer.symm.trans last))).2
      rw [samePages] at bounded
      exact sized.mp bounded
    · intro condition
      refine ⟨?_, ?_, by simp, ?_⟩
      · intro earlier later key status split
        exact (ordering_of_replay replayed split).1
      · intro earlier later key split
        exact (ordering_of_replay replayed split).2 rfl
      · intro _
        obtain ⟨counted, checked⟩ := sizeChecked_memoryMap (firmware number) word
        exact ⟨(firmware number).pageCount, last, replayed, counted,
          sized.mpr (condition number below decisive), checked⟩

/-- A firmware whose first key is stale: the first exit is refused, the second one
succeeds with a map of three descriptors. -/
def staleOnce (number : Nat) : AttemptReplies where
  query := ⟨2 ^ 63 + 5, 144, 0, 48, 1⟩
  pages := ⟨0, 0x5000⟩
  fetch := ⟨0, 144, number, 48, 1⟩
  exitStatus := if number = 0 then 2 ^ 63 + 2 else 0

/-- After one stale key the run keeps all its promises. -/
theorem exit_protocol_stale_once :
    MapContract staleOnce ∧
      ExitProtocol ⟨0, 0, 0, 0, 0⟩ (exitBootServicesWithRetry staleOnce ⟨0, 0, 0, 0, 0⟩) ∧
      (exitBootServicesWithRetry staleOnce ⟨0, 0, 0, 0, 0⟩).exited = true := by
  have padded (number : Nat) : (staleOnce number).paddedSize = 528 :=
    (by decide : wrappingAdd 144 (48 * 8) = 528)
  have contract : MapContract staleOnce := by
    constructor
    · intro number _
      rw [padded]
      exact (by decide : 144 ≤ 528)
    · intro number _
      exact (by decide : 48 ≠ 0)
    · intro number
      exact (by decide : 144 + 48 * 8 < 2 ^ 64)
  refine ⟨contract, ?_, by decide +kernel⟩
  apply (exit_protocol_iff staleOnce contract _).mpr
  intro number _ _
  rw [padded]
  exact .inl (by decide)

/-- A firmware that asks for nearly the whole address space: the padded size is a
word, but rounding it up to pages wraps to zero. -/
def nearlyEverything (_ : Nat) : AttemptReplies where
  query := ⟨2 ^ 63 + 5, 2 ^ 64 - 392, 0, 48, 1⟩
  pages := ⟨0, 0x5000⟩
  fetch := ⟨0, 144, 7, 48, 1⟩
  exitStatus := 0

/-- The final map of three descriptors is in a buffer of no pages. -/
theorem exit_protocol_wrapped :
    MapContract nearlyEverything ∧
      ¬ ExitProtocol ⟨0, 0, 0, 0, 0⟩
        (exitBootServicesWithRetry nearlyEverything ⟨0, 0, 0, 0, 0⟩) := by
  refine ⟨⟨?_, ?_, ?_⟩, ?_⟩
  · intro number _
    exact (by decide : 144 ≤ wrappingAdd (2 ^ 64 - 392) (48 * 8))
  · intro number _
    exact (by decide : 48 ≠ 0)
  · intro number
    exact (by decide : 2 ^ 64 - 392 + 48 * 8 < 2 ^ 64)
  · intro protocol
    obtain ⟨pages, lastBuffer, _, _, bounded, _⟩ := protocol.exited (by decide +kernel)
    have none : (allocations (exitBootServicesWithRetry nearlyEverything ⟨0, 0, 0, 0, 0⟩).calls).getLast? =
        some (0x5000, 0) := by decide +kernel
    have size : (exitBootServicesWithRetry nearlyEverything ⟨0, 0, 0, 0, 0⟩).outMemoryMap.mapSizeBytes =
        144 := by decide +kernel
    rw [none] at lastBuffer
    have empty : pages = 0 := (Prod.mk.inj (Option.some.inj lastBuffer)).2.symm
    rw [size, empty] at bounded
    omega

end Boot

end XyronOS
