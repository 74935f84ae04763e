import XyronOS.Library.Executions
import XyronOS.Library.WalkCaches
import XyronOS.Mm.VmmRuns

/-!
# Coherence of the translation caches

The processor does not walk the tables at every access: it remembers translations and
tables it has met, and it may walk at any moment, also between two stores of `map`.
`map` zeroes each new table entry by entry, links it, writes the leaf and only then
executes `invlpg`; `unmap` clears the leaf and then executes `invlpg`. Nothing else ever
invalidates anything, and a `map` that fails after creating tables invalidates nothing.

Every store is a step of its own here, and the processor may fill and evict its caches
before and after each. New tables are linked where nothing was present and are never
taken away again, so remembered tables stay right; the one leaf that changes is
invalidated before the function returns. `invlpg` also drops remembered tables, which
the processor may do at any time; the argument does not depend on it. The accessed and
dirty bits, which the processor sets in the entries it walks, are left out: no function
of the manager reads them.
-/

namespace XyronOS

open ByteMemory WordBits PageTableEntry VirtAddr RadixTree VirtualMemoryManager Executions

/-- Translations remembered by address, tables by the indices that lead to them. -/
abbrev Tlb := WalkCache Nat Nat Mapping (Fin 512)

/-- Memory after each store of `zero_table`. -/
def zeroSteps (memory : Memory) (table : Nat) : List Memory :=
  (List.range 512).map (fun count => storeWords memory table (fun _ => 0) (count + 1))

/-- Memory after each store of `get_or_create_table`. -/
def createSteps (machine : Machine) (table : Nat) (index : Fin 512) : List Memory :=
  match checkedTablePtr table with
  | none => []
  | some pointer =>
    if isPresent (readEntry machine.memory pointer index) then []
    else
      match machine.frames.allocateBelow identityMapLimit with
      | (none, _) => []
      | (some newTable, _) =>
        match checkedTablePtr newTable with
        | none => []
        | some newPointer =>
          zeroSteps machine.memory newPointer ++
            [writeEntry (zeroTable machine.memory newPointer) pointer index
              (newTablePointer newTable)]

/-- Memory after each store of a descent that creates absent tables. -/
def ensureSteps : Machine → Nat → List (Fin 512) → List Memory
  | _, _, [] => []
  | machine, table, index :: rest =>
      createSteps machine table index ++
        match getOrCreateTable machine table index with
        | (.error _, _) => []
        | (.ok next, after) => ensureSteps after next rest

/-- Memory after the store of the leaf, if there is one. -/
def leafSteps (machine : Machine) (pt : Nat) (index : Fin 512) (entry : Nat) : List Memory :=
  match checkedTablePtr pt with
  | none => []
  | some pointer =>
    if isPresent (readEntry machine.memory pointer index) then []
    else [writeEntry machine.memory pointer index entry]

/-- Memory after each store of `map`. -/
def mapSteps (vmm : VirtualMemoryManager) (machine : Machine) (virt phys : Nat)
    (flags : PageFlags) : List Memory :=
  if !isPageAligned virt || !PhysAddr.isFrameAligned phys then []
  else
    ensureSteps machine vmm.pml4Phys [pml4Index virt, pdptIndex virt, pdIndex virt] ++
      match ensureTables machine vmm.pml4Phys [pml4Index virt, pdptIndex virt, pdIndex virt] with
      | (.error _, _) => []
      | (.ok pt, after) => leafSteps after pt (ptIndex virt) (newLeaf phys flags)

/-- Memory after each store of a request. -/
def requestSteps (vmm : VirtualMemoryManager) (machine : Machine) : Request → List Memory
  | .map virt phys flags => mapSteps vmm machine virt phys flags
  | .unmap virt =>
      match vmm.unmap machine.memory virt with
      | (.ok _, memory) => [memory]
      | (.error _, _) => []
  | .write target value => [Function.update machine.memory target value]
  | .allocate => []
  | .deallocate _ => []

/-- The address a request executes `invlpg` for after its last store. -/
def invalidates (vmm : VirtualMemoryManager) (machine : Machine) : Request → Option Nat
  | .map virt phys flags =>
      match (vmm.map machine virt phys flags).1 with
      | .ok _ => some virt
      | .error _ => none
  | .unmap virt =>
      match (vmm.unmap machine.memory virt).1 with
      | .ok _ => some virt
      | .error _ => none
  | _ => none

/-- The state of the clients once the request at hand is done, the memory before it, the
memory now, the stores and the `invlpg` still to come, and the caches. -/
structure Processor where
  runtime : Runtime
  previous : Memory
  memory : Memory
  pending : List Memory
  invalidate : Option Nat
  tlb : Tlb

namespace Processor

/-- No request at hand and nothing remembered. -/
def initial (machine : Machine) : Processor :=
  ⟨⟨machine, []⟩, machine.memory, machine.memory, [], none, .empty⟩

/-- The addresses of a page. -/
def samePage (virt : Nat) : Set Nat := {other | pageNumber other = pageNumber virt}

/-- What the processor may come up with for an address. -/
def Translates (vmm : VirtualMemoryManager) (processor : Processor) (virt : Nat)
    (found : Option Mapping) : Prop :=
  Finds (slots processor.memory) vmm.pml4Phys indices processor.tlb virt found

/-- One step: the processor works on its caches, a request begins, a store is made, or
`invlpg` is executed. -/
inductive Step (vmm : VirtualMemoryManager) (processor : Processor) :
    Option Request → Processor → Prop where
  | hardware {tlb : Tlb}
      (moved : Hardware (slots processor.memory) vmm.pml4Phys indices processor.tlb tlb) :
      Step vmm processor none { processor with tlb := tlb }
  | issue (request : Request) (done : processor.pending = []) (clean : processor.invalidate = none)
      (permitted : Permitted vmm processor.runtime request) :
      Step vmm processor (some request)
        { processor with
          runtime := serve vmm processor.runtime request
          previous := processor.memory
          pending := requestSteps vmm processor.runtime.machine request
          invalidate := invalidates vmm processor.runtime.machine request }
  | store {memory : Memory} {rest : List Memory} (next : processor.pending = memory :: rest) :
      Step vmm processor none { processor with memory := memory, pending := rest }
  | invlpg {virt : Nat} (done : processor.pending = []) (due : processor.invalidate = some virt) :
      Step vmm processor none
        { processor with
          previous := processor.memory
          tlb := processor.tlb.forget (samePage virt)
          invalidate := none }

end Processor

/-- Stores that lead from one memory to another: every path leads where it led, and the
tables give allowed answers after each. -/
inductive Passes (root : Nat) (allowed : Nat → Option Mapping → Prop) :
    Memory → List Memory → Memory → Prop where
  | nil (memory : Memory) : Passes root allowed memory [] memory
  | cons {memory next last : Memory} {rest : List Memory}
      (kept : ∀ walked table, descend (slots memory) 0 root walked = some table →
        descend (slots next) 0 root walked = some table)
      (tables : ∀ virt, allowed virt (lookup next root virt))
      (later : Passes root allowed next rest last) : Passes root allowed memory (next :: rest) last

namespace Passes

variable {root : Nat} {allowed : Nat → Option Mapping → Prop}

theorem append {first middle last : Memory} {steps more : List Memory}
    (before : Passes root allowed first steps middle)
    (after : Passes root allowed middle more last) :
    Passes root allowed first (steps ++ more) last := by
  induction before with
  | nil memory => exact after
  | cons kept tables later inductionHypothesis =>
    exact .cons kept tables (inductionHypothesis after)

theorem mono {more : Nat → Option Mapping → Prop} {first last : Memory} {steps : List Memory}
    (weaker : ∀ virt found, allowed virt found → more virt found)
    (passes : Passes root allowed first steps last) : Passes root more first steps last := by
  induction passes with
  | nil memory => exact .nil memory
  | cons kept tables later inductionHypothesis =>
    exact .cons kept (fun virt => weaker virt _ (tables virt)) inductionHypothesis

/-- A single store. -/
theorem single {first last : Memory}
    (kept : ∀ walked table, descend (slots first) 0 root walked = some table →
      descend (slots last) 0 root walked = some table)
    (tables : ∀ virt, allowed virt (lookup last root virt)) :
    Passes root allowed first [last] last :=
  .cons kept tables (.nil last)

end Passes

/-- Allocating a frame writes no memory of the tables. -/
theorem serve_allocate_memory (vmm : VirtualMemoryManager) (runtime : Runtime) :
    (serve vmm runtime .allocate).machine.memory = runtime.machine.memory := by
  simp only [serve]
  split <;> rfl

/-- Nor does releasing one. -/
theorem serve_deallocate_memory (vmm : VirtualMemoryManager) (runtime : Runtime) (frame : Nat) :
    (serve vmm runtime (.deallocate frame)).machine.memory = runtime.machine.memory := by
  simp only [serve]
  split <;> rfl

section Stores

variable {vmm : VirtualMemoryManager} {machine : Machine} (owned : Owned vmm machine)

include owned

/-- Zeroing entries of a free frame shows in no walk. -/
theorem Owned.zeroed_walks {frame : Nat} (free : frame ∈ machine.frames.freeFrames) (count : Nat)
    (bounded : count ≤ 512) (walked : List (Fin 512)) :
    resolve (slots (storeWords machine.memory (PhysAddr.fromFrameNumber frame) (fun _ => 0) count))
        0 vmm.pml4Phys walked = resolve (slots machine.memory) 0 vmm.pml4Phys walked ∧
      descend (slots (storeWords machine.memory (PhysAddr.fromFrameNumber frame) (fun _ => 0) count))
        0 vmm.pml4Phys walked = descend (slots machine.memory) 0 vmm.pml4Phys walked := by
  apply walks_congr
  intro table reached target inside
  apply storeWords_outside
  have different : table ≠ PhysAddr.fromFrameNumber frame := by
    rintro rfl
    exact owned.free_not_table free reached
  have off : target ∉ frameBytes (PhysAddr.fromFrameNumber frame) :=
    frameBytes_disjoint _ _ (Nat.mul_mod_left _ _) (owned.aligned table reached) different
      target inside
  simp only [frameBytes, Set.mem_Ico, frameSize] at off
  omega

/-- The stores of `zero_table` keep every answer. -/
theorem Owned.zeroSteps_passes {frame : Nat} (free : frame ∈ machine.frames.freeFrames) :
    Passes vmm.pml4Phys (fun virt found => found = lookup machine.memory vmm.pml4Phys virt)
      machine.memory (zeroSteps machine.memory (PhysAddr.fromFrameNumber frame))
      (zeroTable machine.memory (PhysAddr.fromFrameNumber frame)) := by
  have through (count : Nat) (bounded : count ≤ 512) :
      Passes vmm.pml4Phys (fun virt found => found = lookup machine.memory vmm.pml4Phys virt)
        machine.memory ((List.range count).map fun done =>
          storeWords machine.memory (PhysAddr.fromFrameNumber frame) (fun _ => 0) (done + 1))
        (storeWords machine.memory (PhysAddr.fromFrameNumber frame) (fun _ => 0) count) := by
    induction count with
    | zero => exact .nil _
    | succ count inductionHypothesis =>
      rw [List.range_succ, List.map_append]
      refine (inductionHypothesis (by omega)).append (.single ?_ ?_)
      · intro walked table reached
        rw [(owned.zeroed_walks free (count + 1) bounded walked).2,
          ← (owned.zeroed_walks free count (by omega) walked).2]
        exact reached
      · intro virt
        exact (owned.zeroed_walks free (count + 1) bounded (indices virt)).1
  exact through 512 (Nat.le_refl _)

/-- Creating a table shows in no lookup. -/
theorem Owned.createSteps_passes (place : List (Fin 512)) (table : Nat) (index : Fin 512)
    (reached : descend (slots machine.memory) 0 vmm.pml4Phys place = some table)
    (above : place.length < 3) :
    Passes vmm.pml4Phys (fun virt found => found = lookup machine.memory vmm.pml4Phys virt)
      machine.memory (createSteps machine table index)
      (getOrCreateTable machine table index).2.memory := by
  have checked : checkedTablePtr table = some table :=
    checkedTablePtr_below (owned.below table ⟨place, reached⟩)
  cases present : isPresent (readEntry machine.memory table index) with
  | true =>
    cases huge : entryIsHugePage machine.memory table index with
    | true =>
      simp only [createSteps, getOrCreateTable, checked, present, huge, if_true]
      exact .nil _
    | false =>
      simp only [createSteps, getOrCreateTable, checked, present, huge, if_true]
      exact .nil _
  | false =>
    rcases FrameAllocator.allocateBelow_cases owned.consistent identityMapLimit with
      ⟨frame, frames, taken, low, takes⟩ | ⟨refused, none⟩
    · rw [frameNumber_identityMapLimit] at low
      obtain ⟨extended, linked, _⟩ :=
        owned.link place table index frame frames reached above present low takes
      have newChecked : checkedTablePtr (PhysAddr.fromFrameNumber frame) =
          some (PhysAddr.fromFrameNumber frame) :=
        checkedTablePtr_below (extended.owned.below _ ⟨_, linked⟩)
      simp only [createSteps, getOrCreateTable, checked, present, taken, newChecked,
        Bool.false_eq_true, if_false]
      refine (owned.zeroSteps_passes takes.free).append (.single ?_ ?_)
      · intro walked node known
        refine extended.descend walked node ?_
        rw [← (owned.zeroed_walks takes.free 512 (Nat.le_refl _) walked).2]
        exact known
      · exact fun virt => extended.resolve (indices virt)
    · simp only [createSteps, getOrCreateTable, checked, present, refused, Bool.false_eq_true,
        if_false]
      exact .nil _

/-- Creating all absent tables of a path shows in no lookup. -/
theorem Owned.ensureSteps_passes (place rest : List (Fin 512)) (table : Nat)
    (reached : descend (slots machine.memory) 0 vmm.pml4Phys place = some table)
    (above : place.length + rest.length ≤ 3) :
    Passes vmm.pml4Phys (fun virt found => found = lookup machine.memory vmm.pml4Phys virt)
      machine.memory (ensureSteps machine table rest)
      (ensureTables machine table rest).2.memory := by
  induction rest generalizing machine place table with
  | nil => exact .nil _
  | cons index rest inductionHypothesis =>
    have here : place.length < 3 := by
      simp only [List.length_cons] at above
      omega
    have further : (place ++ [index]).length + rest.length ≤ 3 := by
      simp only [List.length_cons, List.length_append, List.length_nil] at above ⊢
      omega
    have created := owned.createSteps_passes place table index reached here
    rcases owned.getOrCreateTable_cases place table index reached here with
      ⟨next, slot, followed⟩ | ⟨frame, after, slot, made, extended, linked, _⟩ |
      ⟨mapping, slot, refused⟩ | ⟨slot, refused, _⟩
    · rw [followed] at created
      simp only [ensureSteps, ensureTables, followed]
      exact created.append (inductionHypothesis owned (place ++ [index]) next
        (RadixTree.descend_link (slots machine.memory) reached slot) further)
    · rw [made] at created
      simp only [ensureSteps, ensureTables, made]
      refine created.append (Passes.mono ?_ (inductionHypothesis extended.owned (place ++ [index])
        (PhysAddr.fromFrameNumber frame) linked further))
      intro virt found same
      rw [same]
      exact extended.resolve (indices virt)
    · rw [refused] at created
      simpa only [ensureSteps, ensureTables, refused, List.append_nil] using created
    · rw [refused] at created
      simpa only [ensureSteps, ensureTables, refused, List.append_nil] using created

/-- The stores of `map` give every address its old or its new translation. -/
theorem Owned.mapSteps_passes (virt phys : Nat) (flags : PageFlags) :
    Passes vmm.pml4Phys
      (fun other found => found = lookup machine.memory vmm.pml4Phys other ∨
        found = lookup (vmm.map machine virt phys flags).2.memory vmm.pml4Phys other)
      machine.memory (mapSteps vmm machine virt phys flags)
      (vmm.map machine virt phys flags).2.memory := by
  have before := owned.ensureSteps_passes [] [pml4Index virt, pdptIndex virt, pdIndex virt]
    vmm.pml4Phys rfl (Nat.le_refl 3)
  rw [map_eq, mapSteps]
  split
  · exact .nil _
  · rcases owned.ensureTables_cases [] [pml4Index virt, pdptIndex virt, pdIndex virt]
        vmm.pml4Phys rfl (Nat.le_refl 3) with
      ⟨pt, after, added, done, extended, reached, _⟩ | ⟨stopped, _⟩ |
      ⟨after, added, stopped, extended, _⟩
    · rw [done] at before
      have checked : checkedTablePtr pt = some pt :=
        checkedTablePtr_below (extended.owned.below pt ⟨_, reached⟩)
      simp only [done, leafSteps, checked]
      split
      · rw [List.append_nil]
        exact before.mono (fun _ _ same => .inl same)
      · refine (before.mono (fun _ _ same => .inl same)).append (.single ?_ ?_)
        · intro walked table known
          rw [extended.owned.descend_write (ptIndex virt) reached (newLeaf phys flags) rfl walked]
          exact known
        · exact fun other => .inr rfl
    · rw [stopped] at before
      simp only [stopped, List.append_nil]
      exact before.mono (fun _ _ same => .inl same)
    · rw [stopped] at before
      simp only [stopped, List.append_nil]
      exact before.mono (fun _ _ same => .inl same)

/-- The stores of a request give every address its old or its new translation. -/
theorem Owned.requestSteps_passes {held : List Nat} (request : Request)
    (permitted : Permitted vmm ⟨machine, held⟩ request) :
    Passes vmm.pml4Phys
      (fun other found => found = lookup machine.memory vmm.pml4Phys other ∨
        found = lookup (serve vmm ⟨machine, held⟩ request).machine.memory vmm.pml4Phys other)
      machine.memory (requestSteps vmm machine request)
      (serve vmm ⟨machine, held⟩ request).machine.memory := by
  cases request with
  | allocate =>
    rw [serve_allocate_memory]
    exact .nil _
  | deallocate frame =>
    rw [serve_deallocate_memory]
    exact .nil _
  | map virt phys flags => exact owned.mapSteps_passes virt phys flags
  | unmap virt =>
    rcases owned.unmap_cases virt with ⟨pt, entry, result, _, _, reached, _⟩ | ⟨error, result, _⟩
    · simp only [serve, requestSteps, result]
      refine .single ?_ (fun other => .inr rfl)
      intro walked table known
      rw [owned.descend_write (ptIndex virt) reached cleared rfl walked]
      exact known
    · simp only [serve, requestSteps, result]
      exact .nil _
  | write target value =>
    refine .single ?_ (fun other => .inr rfl)
    intro walked table known
    have same := (walks_congr (update_outside value permitted) walked).2
    exact same.trans known

/-- What a request that executes no `invlpg`, or executes it for another page, leaves of
an address: its translation. -/
theorem Owned.lookup_serve {held : List Nat} (request : Request)
    (permitted : Permitted vmm ⟨machine, held⟩ request) (virt : Nat)
    (elsewhere : ∀ page, invalidates vmm machine request = some page →
      pageNumber virt ≠ pageNumber page) :
    lookup (serve vmm ⟨machine, held⟩ request).machine.memory vmm.pml4Phys virt =
      lookup machine.memory vmm.pml4Phys virt := by
  cases request with
  | allocate => rw [serve_allocate_memory]
  | deallocate frame => rw [serve_deallocate_memory]
  | map page phys flags =>
    rcases result : vmm.map machine page phys flags with ⟨outcome, after⟩
    cases outcome with
    | error problem =>
      simp only [serve, result]
      exact (owned.map_error result).1 virt
    | ok done =>
      have different : pageNumber virt ≠ pageNumber page := by
        apply elsewhere
        simp only [invalidates, result]
      obtain ⟨_, _, _, looked, _⟩ := owned.map_ok result
      simp only [serve, result]
      rw [looked virt, if_neg different]
  | unmap page =>
    rcases result : vmm.unmap machine.memory page with ⟨outcome, after⟩
    cases outcome with
    | error problem =>
      simp only [serve, result]
      rw [owned.unmap_error result]
    | ok frame =>
      have different : pageNumber virt ≠ pageNumber page := by
        apply elsewhere
        simp only [invalidates, result]
      obtain ⟨_, _, looked, _⟩ := owned.unmap_ok result
      simp only [serve, result]
      rw [looked virt, if_neg different]
  | write target value => exact (walks_congr (update_outside value permitted) (indices virt)).1

end Stores

namespace Processor

variable {vmm : VirtualMemoryManager} {start : Machine}

/-- The tables are owned; the stores to come lead to the state the request ends with;
every address gets its old or its new translation, and these differ at most on the page
that will be invalidated. -/
structure Coherent (vmm : VirtualMemoryManager) (start : Machine) (processor : Processor) :
    Prop where
  ownership : Ownership vmm start processor.runtime
  passes : Passes vmm.pml4Phys
    (fun virt found => found = lookup processor.previous vmm.pml4Phys virt ∨
      found = lookup processor.runtime.machine.memory vmm.pml4Phys virt)
    processor.memory processor.pending processor.runtime.machine.memory
  faithful : Faithful (slots processor.memory) vmm.pml4Phys indices
    (fun virt found => found = lookup processor.previous vmm.pml4Phys virt ∨
      found = lookup processor.runtime.machine.memory vmm.pml4Phys virt) processor.tlb
  settled : ∀ virt, (∀ page, processor.invalidate = some page →
      pageNumber virt ≠ pageNumber page) →
    lookup processor.runtime.machine.memory vmm.pml4Phys virt =
      lookup processor.previous vmm.pml4Phys virt

/-- Nothing is remembered at the start. -/
theorem coherent_initial (owned : Owned vmm start) : Coherent vmm start (initial start) where
  ownership := Ownership.initial owned
  passes := .nil _
  faithful := ⟨fun _ _ listed => listed.elim, fun _ _ listed => listed.elim, fun _ => .inl rfl⟩
  settled := fun _ _ => rfl

/-- With no store to come, memory is what the request leaves. -/
theorem Coherent.done {processor : Processor} (coherent : Coherent vmm start processor)
    (none : processor.pending = []) : processor.memory = processor.runtime.machine.memory := by
  have passes := coherent.passes
  rw [none] at passes
  generalize processor.runtime.machine.memory = last at passes
  cases passes with
  | nil => rfl

/-- A request may begin once the last one is done. -/
theorem Coherent.issue {processor : Processor} (coherent : Coherent vmm start processor)
    {request : Request} (none : processor.pending = []) (clean : processor.invalidate = .none)
    (permitted : Permitted vmm processor.runtime request) :
    Coherent vmm start
      { processor with
        runtime := serve vmm processor.runtime request
        previous := processor.memory
        pending := requestSteps vmm processor.runtime.machine request
        invalidate := invalidates vmm processor.runtime.machine request } := by
  have now := coherent.done none
  have owned := coherent.ownership.owned
  refine ⟨coherent.ownership.serve request permitted, ?_, ?_, ?_⟩
  · simp only [now]
    exact owned.requestSteps_passes request permitted
  · refine coherent.faithful.mono ?_
    intro virt found known
    have same := coherent.settled virt (by simp [clean])
    left
    rw [now]
    exact known.elim (fun old => old.trans same.symm) id
  · intro virt elsewhere
    simp only [now]
    exact owned.lookup_serve request permitted virt elsewhere

/-- `invlpg` settles the page that changed. -/
theorem Coherent.invlpg {processor : Processor} (coherent : Coherent vmm start processor)
    {virt : Nat} (none : processor.pending = []) (due : processor.invalidate = some virt) :
    Coherent vmm start
      { processor with
        previous := processor.memory
        tlb := processor.tlb.forget (samePage virt)
        invalidate := .none } := by
  have now := coherent.done none
  refine ⟨coherent.ownership, ?_, ?_, fun other _ => by rw [now]⟩
  · simp only [none, now]
    exact .nil _
  · refine (coherent.faithful.forget (samePage virt)).mono ?_
    rintro other found ⟨known, fresh⟩
    left
    by_cases changed : pageNumber other = pageNumber virt
    · exact fresh changed
    · have same := coherent.settled other (by
        rintro page listed
        rw [due] at listed
        cases listed
        exact changed)
      rw [now]
      exact known.elim (fun old => old.trans same.symm) id

/-- Every step keeps the caches coherent. -/
theorem Step.coherent {processor after : Processor} {label : Option Request}
    (step : Step vmm processor label after) (coherent : Coherent vmm start processor) :
    Coherent vmm start after := by
  cases step with
  | hardware moved =>
    exact ⟨coherent.ownership, coherent.passes, coherent.faithful.hardware moved,
      coherent.settled⟩
  | issue request done clean permitted => exact coherent.issue done clean permitted
  | @store memory rest next =>
    have passes := coherent.passes
    rw [next] at passes
    cases passes with
    | cons kept tables later =>
      exact ⟨coherent.ownership, later, coherent.faithful.rewritten kept tables,
        coherent.settled⟩
  | invlpg done due => exact coherent.invlpg done due

/-- The stores of a request can all be made. -/
theorem drained (vmm : VirtualMemoryManager) (processor : Processor) :
    ∃ memory, Execution (Step vmm) processor []
      { processor with memory := memory, pending := [] } := by
  obtain ⟨runtime, previous, memory, pending, invalidate, tlb⟩ := processor
  induction pending generalizing memory with
  | nil => exact ⟨memory, .nil⟩
  | cons next rest inductionHypothesis =>
    obtain ⟨last, later⟩ := inductionHypothesis next
    have first : Step vmm ⟨runtime, previous, memory, next :: rest, invalidate, tlb⟩ none
        ⟨runtime, previous, next, rest, invalidate, tlb⟩ := .store rfl
    exact ⟨last, (Execution.single first).append later⟩

/-- A permitted request of an idle processor, whose stores are made and whose `invlpg`, if
one is due, is executed, leaves it idle. -/
theorem completes {processor : Processor} {request : Request} (done : processor.pending = [])
    (clean : processor.invalidate = none)
    (permitted : Permitted vmm processor.runtime request) :
    ∃ after : Processor, Execution (Step vmm) processor [request] after ∧
      after.pending = [] ∧ after.invalidate = none ∧
      after.runtime = serve vmm processor.runtime request := by
  have issued := Execution.single (Step.issue request done clean permitted)
  obtain ⟨memory, stored⟩ := drained vmm _
  cases due : invalidates vmm processor.runtime.machine request with
  | none => exact ⟨_, issued.append stored, rfl, due, rfl⟩
  | some virt => exact ⟨_, (issued.append stored).snoc _ (.invlpg rfl due), rfl, rfl, rfl⟩

/-- Every execution from owned tables with empty caches keeps them coherent. -/
theorem execution_coherent (owned : Owned vmm start) {requests : List Request}
    {processor : Processor} (execution : Execution (Step vmm) (initial start) requests processor) :
    Coherent vmm start processor :=
  execution.invariant (fun _ processor => Coherent vmm start processor) (coherent_initial owned)
    (fun _ _ _ _ coherent step => step.coherent coherent)

/-- Until its `invlpg`, an `unmap` may leave the processor with the old translation: it can
have been remembered before the leaf is cleared. -/
theorem Coherent.unmap_stale {processor : Processor} (coherent : Coherent vmm start processor)
    (done : processor.pending = []) (clean : processor.invalidate = none) {virt entry : Nat}
    (aligned : virt % frameSize = 0)
    (page : lookup processor.memory vmm.pml4Phys virt = some ⟨3, entry⟩) :
    ∃ stale after : Processor, Execution (Step vmm) processor [.unmap virt] stale ∧
      lookup stale.memory vmm.pml4Phys virt = none ∧
      stale.Translates vmm virt (some ⟨3, entry⟩) ∧
      Execution (Step vmm) stale [] after ∧ after.pending = [] ∧ after.invalidate = none := by
  have owned := coherent.ownership.owned
  have now := coherent.done done
  have known := page
  rw [now] at known
  obtain ⟨pt, unmapped⟩ : ∃ pt, vmm.unmap processor.runtime.machine.memory virt =
      (.ok (addr entry),
        writeEntry processor.runtime.machine.memory pt (ptIndex virt) cleared) := by
    rcases owned.unmap_cases virt with ⟨pt, other, result, _, found, _⟩ | ⟨_, _, _, absent⟩
    · rw [known] at found
      cases found
      exact ⟨pt, result⟩
    · exact absurd known (absent aligned entry)
  have cleared := (owned.unmap_ok unmapped).2.2.1 virt
  rw [if_pos rfl] at cleared
  have walked : Finds (slots processor.memory) vmm.pml4Phys indices processor.tlb virt
      (some ⟨3, entry⟩) := by
    rw [← page]
    exact .walk .root rfl
  have filled := Execution.single (Step.hardware (.fill walked))
  have issued := filled.snoc _ (Step.issue (.unmap virt) done clean trivial)
  have pending : requestSteps vmm processor.runtime.machine (.unmap virt) =
      [writeEntry processor.runtime.machine.memory pt (ptIndex virt) PageTableEntry.cleared] := by
    simp only [requestSteps, unmapped]
  have due : invalidates vmm processor.runtime.machine (.unmap virt) = some virt := by
    simp only [invalidates, unmapped]
  have stored := issued.snoc _ (Step.store pending)
  refine ⟨_, _, stored, cleared, .remembered (Set.mem_insert _ _),
    .single (Step.invlpg rfl due), rfl, rfl⟩

/-- **The translation caches are coherent.** In every execution from owned tables with
empty caches, with requests of the clients and the processor walking, remembering and
forgetting between any two stores: whatever an address translates to at some moment is
its translation before or after the request at hand; off the page whose `invlpg` is still
to come it is the one after; and between requests it is what `translate` reports. -/
theorem tlb_coherent (owned : Owned vmm start) {requests : List Request} {processor : Processor}
    (execution : Execution (Step vmm) (initial start) requests processor) {virt : Nat}
    {found : Option Mapping} (translates : processor.Translates vmm virt found) :
    (found = lookup processor.previous vmm.pml4Phys virt ∨
      found = lookup processor.runtime.machine.memory vmm.pml4Phys virt) ∧
    ((∀ page, processor.invalidate = some page → pageNumber virt ≠ pageNumber page) →
      found = lookup processor.runtime.machine.memory vmm.pml4Phys virt) ∧
    (processor.pending = [] → processor.invalidate = none →
      processor.memory = processor.runtime.machine.memory ∧
      found.map (Mapping.physical virt) = vmm.translate processor.memory virt) := by
  have coherent := execution_coherent owned execution
  have known := coherent.faithful.finds translates
  have after (elsewhere : ∀ page, processor.invalidate = some page →
      pageNumber virt ≠ pageNumber page) :
      found = lookup processor.runtime.machine.memory vmm.pml4Phys virt :=
    known.elim (fun old => old.trans (coherent.settled virt elsewhere).symm) id
  refine ⟨known, after, ?_⟩
  intro done clean
  have now := coherent.done done
  refine ⟨now, ?_⟩
  rw [now, coherent.ownership.owned.translate_eq, after (by simp [clean])]

/-- A page is mapped on the cleared machine, remembered and unmapped. After the leaf is
cleared the processor still finds the old translation, and after the `invlpg` none. -/
theorem tlb_coherent_unmapped :
    ∃ stale after : Processor, ∃ mapping : Mapping,
      Execution (Step ⟨0x1000⟩) (initial emptyMachine)
        [.map 0x200000 0x3000 .readWrite, .unmap 0x200000] stale ∧
      lookup stale.memory 0x1000 0x200000 = none ∧
      stale.Translates ⟨0x1000⟩ 0x200000 (some mapping) ∧
      (some mapping = lookup stale.previous 0x1000 0x200000 ∨
        some mapping = lookup stale.runtime.machine.memory 0x1000 0x200000) ∧
      Execution (Step ⟨0x1000⟩) stale [] after ∧
      ∀ found, after.Translates ⟨0x1000⟩ 0x200000 found →
        found.map (Mapping.physical 0x200000) =
          (VirtualMemoryManager.mk 0x1000).translate after.memory 0x200000 := by
  obtain ⟨machine, mapped⟩ := @map_emptyMachine 0x200000 0x3000 .readWrite (by decide) (by decide)
  obtain ⟨-, -, -, looked, -⟩ := owned_emptyMachine.map_ok mapped
  obtain ⟨first, executed, done, clean, served⟩ :=
    @completes ⟨0x1000⟩ (initial emptyMachine) (.map 0x200000 0x3000 .readWrite) rfl rfl trivial
  have coherent := execution_coherent owned_emptyMachine executed
  have page : lookup first.memory 0x1000 0x200000 = some ⟨3, newLeaf 0x3000 .readWrite⟩ := by
    rw [coherent.done done, served]
    simp only [serve, initial, mapped]
    rw [looked, if_pos rfl]
  obtain ⟨stale, after, unmapping, absent, translates, finishing, settled, flushed⟩ :=
    coherent.unmap_stale done clean (by decide) page
  have reached := executed.append unmapping
  refine ⟨stale, after, _, reached, absent, translates,
    (tlb_coherent owned_emptyMachine reached translates).1, finishing, ?_⟩
  intro found finds
  exact ((tlb_coherent owned_emptyMachine (reached.append finishing) finds).2.2 settled flushed).2

end Processor

end XyronOS
