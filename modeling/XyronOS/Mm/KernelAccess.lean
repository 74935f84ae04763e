import XyronOS.Mm.Permissions

/-!
# What the processor lets the kernel do

The kernel runs at the highest privilege level. There the processor refuses every
address that is not canonical, and answers an access at any other by its own walk of
the tables: it reads the entries from the root on, refuses an entry that is absent or
has a reserved bit set, and gathers the permissions. Two control bits have a say.
Without `EFER.NXE` the no-execute bit is reserved, so that a page that carries it
cannot even be read; `VirtualMemoryManager::init` sets the bit. Without `CR0.WP` the
kernel may write to read-only pages; no code of the kernel or of the bootloader sets
that bit.

`translate` and `flags_at` are what the kernel knows about an address. The main
result says that they predict every access at a canonical address: over every run from
the bootloader's tables the processor grants or refuses just what the two answers and
`CR0.WP` say, to the error code of the page fault. At other addresses the two go by the
lower 48 bits and predict nothing.

Besides the open pointers of the permission results this needs the 2 MiB pages. No
request adds, changes or removes one, so that all of them are the bootloader's.

Physical addresses have 52 bits here, and the two checks that tell user pages from kernel pages
are off; no entry of this kernel is for user mode.
-/

namespace XyronOS

open ByteMemory WordBits PageTableEntry VirtAddr RadixTree VirtualMemoryManager Runs

namespace KernelAccess

/-- `EFER_NXE_BIT` -/
def eferNxeBit : Nat := 1 <<< 11

/-- `enable_nxe`: the register it leaves. -/
def enableNxe (efer : Nat) : Nat :=
  if efer &&& eferNxeBit = 0 then efer ||| eferNxeBit else efer

/-- The control bits an access depends on. -/
structure Control where
  writeProtect : Bool
  efer : Nat

/-- Whether the no-execute bit of an entry has a meaning. -/
def Control.nxe (control : Control) : Bool := (control.efer &&& eferNxeBit) != 0

/-- `enable_nxe` gives the no-execute bit its meaning and keeps all other bits. -/
theorem enableNxe_testBit (efer position : Nat) :
    (enableNxe efer).testBit position = (efer.testBit position || decide (position = 11)) := by
  have bit : eferNxeBit.testBit position = decide (position = 11) := by
    rw [eferNxeBit, Nat.one_shiftLeft, Nat.testBit_two_pow]
    exact decide_eq_decide.mpr eq_comm
  unfold enableNxe
  split
  · rw [Nat.testBit_or, bit]
  · rename_i set
    have here : efer.testBit 11 = true := by
      rw [eferNxeBit, Nat.one_shiftLeft, ← ne_eq, and_bit_ne_zero] at set
      rw [Nat.testBit_eq_decide_div_mod_eq, decide_eq_true_iff]
      exact set
    by_cases same : position = 11
    · simp [same, here]
    · simp [same]

theorem nxe_enableNxe (writeProtect : Bool) (efer : Nat) :
    (⟨writeProtect, enableNxe efer⟩ : Control).nxe = true := by
  have set := enableNxe_testBit efer 11
  rw [decide_eq_true rfl, Bool.or_true, Nat.testBit_eq_decide_div_mod_eq,
    decide_eq_true_iff] at set
  rw [Control.nxe, eferNxeBit, Nat.one_shiftLeft, bne_iff_ne, and_bit_ne_zero]
  exact set

inductive Access where
  | read
  | write
  | fetch
deriving DecidableEq, Repr

/-- The bits of an error code that name the access. -/
def Access.code (nxe : Bool) : Access → Nat
  | .read => 0
  | .write => 0b10
  | .fetch => if nxe then 0b10000 else 0

/-- How many values of the address bits above bit 12 name the inside of a large page. -/
def pageSpan : Nat → Nat
  | 1 => 2 ^ 17
  | 2 => 2 ^ 8
  | _ => 1

/-- Whether a present entry at a depth has a reserved bit set: the no-execute bit if it has
no meaning, the size bit at the root, and the address bits inside a large page. -/
def reservedBits (nxe : Bool) (depth entry : Nat) : Bool :=
  (!nxe && isNoExecute entry) ||
    (decide (depth < 3) && isHuge entry &&
      (decide (depth = 0) || decide (addr entry / 2 ^ 13 % pageSpan depth ≠ 0)))

/-- What a walk of the processor ends with. -/
inductive Walked where
  | absent
  | reserved
  | reached (phys : Nat) (allowed : PageFlags)
deriving DecidableEq

/-- The walk of the processor from a table, with the permissions gathered so far. -/
def walkPage (nxe : Bool) (memory : Memory) (virt : Nat) :
    Nat → Nat → PageFlags → List (Fin 512) → Walked
  | _, _, _, [] => .absent
  | depth, table, allowed, index :: rest =>
    let entry := readEntry memory table index
    if !isPresent entry then .absent
    else if reservedBits nxe depth entry then .reserved
    else
      let allowed : PageFlags :=
        ⟨allowed.writable && isWritable entry, allowed.noExecute || isNoExecute entry⟩
      if rest = [] ∨ isHuge entry = true then
        .reached (Mapping.physical virt ⟨depth, entry⟩) allowed
      else walkPage nxe memory virt (depth + 1) (addr entry) allowed rest

/-- Whether the kernel may do this to a page with these permissions. -/
def permits (writeProtect : Bool) (flags : PageFlags) : Access → Bool
  | .read => true
  | .write => flags.writable || !writeProtect
  | .fetch => !flags.noExecute

/-- What the tables say to an access of the kernel: the physical address, or the error code
of the page fault. -/
def pageAccess (control : Control) (memory : Memory) (root virt : Nat) (kind : Access) :
    Except Nat Nat :=
  match walkPage control.nxe memory virt 0 root .readWrite (indices virt) with
  | .absent => .error (kind.code control.nxe)
  | .reserved => .error (0b1001 + kind.code control.nxe)
  | .reached phys allowed =>
    if permits control.writeProtect allowed kind then .ok phys
    else .error (1 + kind.code control.nxe)

/-- The exception that refuses an access. For an access through the stack segment a stack
fault takes the place of the general protection fault. -/
inductive Refusal where
  | pageFault (code : Nat)
  | generalProtection
deriving DecidableEq, Repr

instance (virt : Nat) : Decidable (Boot.Canonical virt) :=
  inferInstanceAs (Decidable (_ ∨ _ ∧ _))

/-- An access of the kernel: the physical address, or the exception. Only a canonical
address is looked up. -/
def access (control : Control) (memory : Memory) (root virt : Nat) (kind : Access) :
    Except Refusal Nat :=
  if Boot.Canonical virt then (pageAccess control memory root virt kind).mapError .pageFault
  else .error .generalProtection

/-- What `translate` and `flags_at` let expect of an access. They know no permissions of a
large page: it has them all. -/
def expected (writeProtect : Bool) (vmm : VirtualMemoryManager) (memory : Memory) (virt : Nat)
    (kind : Access) : Except Nat Nat :=
  match vmm.translate memory virt with
  | none => .error (kind.code true)
  | some phys =>
    if permits writeProtect ((vmm.flagsAt memory virt).getD .readWrite) kind then .ok phys
    else .error (1 + kind.code true)

/-- A final mapping above the last level that takes no permission away and has no reserved
bit set. -/
structure Plain (mapping : Mapping) : Prop where
  opened : OpenEntry mapping.entry
  unreserved : reservedBits true mapping.depth mapping.entry = false

/-- Where pointers are open and the large page of an address, if it has one, is plain, the
processor's walk agrees with the lookup. The induction is on the remaining indices;
up to there the walk has met pointers only, which gather no restriction. -/
theorem walkPage_eq {memory : Memory} {root : Nat} (opened : OpenPointers memory root) (virt : Nat)
    (path rest : List (Fin 512)) (table : Nat)
    (reached : descend (slots memory) 0 root path = some table)
    (whole : path.length + rest.length = 4)
    (plain : ∀ mapping, resolve (slots memory) path.length table rest = some mapping →
      mapping.depth < 3 → Plain mapping) :
    walkPage true memory virt path.length table .readWrite rest =
      match resolve (slots memory) path.length table rest with
      | none => .absent
      | some mapping => .reached (mapping.physical virt) (mapping.flags.getD .readWrite) := by
  induction rest generalizing path table with
  | nil => rfl
  | cons index rest inductionHypothesis =>
    simp only [List.length_cons] at whole
    simp only [resolve] at plain ⊢
    simp only [walkPage]
    generalize entryIs : readEntry memory table index = entry
    cases present : isPresent entry with
    | false =>
      have slot : slots memory path.length table index = .empty := by
        rw [slots_empty_iff, entryIs, present]
      simp [slot]
    | true =>
      by_cases pointer : path.length < 3 ∧ isHuge entry = false
      · have slot : slots memory path.length table index = .table (addr entry) := by
          simp [slots, entryIs, present, pointer]
        have openHere : OpenEntry entry := entryIs ▸ opened path table index _ reached slot
        have more : rest ≠ [] := by
          rintro rfl
          simp only [List.length_nil] at whole
          omega
        have further := inductionHypothesis (path ++ [index]) (addr entry)
          (descend_link (slots memory) reached slot) (by simp; omega)
          (by simpa [slot] using plain)
        simp only [List.length_append, List.length_singleton] at further
        simp [slot, reservedBits, pointer.2, more, openHere.writable, openHere.executable,
          PageFlags.readWrite] at further ⊢
        exact further
      · have slot : slots memory path.length table index = .leaf ⟨path.length, entry⟩ := by
          simp only [slots, entryIs, present, if_true, if_neg pointer]
        have final : rest = [] ∨ isHuge entry = true := by
          by_cases last : path.length < 3
          · exact .inr (by simpa [last] using pointer)
          · exact .inl (List.eq_nil_of_length_eq_zero (by omega))
        simp only [slot] at plain ⊢
        by_cases last : path.length < 3
        · obtain ⟨⟨writable, executable⟩, unreserved⟩ := plain _ rfl last
          have above : path.length ≠ 3 := by omega
          simp only at writable executable unreserved
          simp [unreserved, final, writable, executable, Mapping.flags, above,
            PageFlags.readWrite]
        · have bottom : path.length = 3 := by omega
          simp [reservedBits, bottom, final, Mapping.flags, PageFlags.readWrite]

/-- On walkable tables with open pointers and plain large pages the tables answer every
access as expected. -/
theorem pageAccess_eq {vmm : VirtualMemoryManager} {memory : Memory}
    (walkable : Walkable vmm memory) (opened : OpenPointers memory vmm.pml4Phys)
    (plain : ∀ virt mapping, lookup memory vmm.pml4Phys virt = some mapping →
      mapping.depth < 3 → Plain mapping)
    (writeProtect : Bool) (efer virt : Nat) (kind : Access) :
    pageAccess ⟨writeProtect, enableNxe efer⟩ memory vmm.pml4Phys virt kind =
      expected writeProtect vmm memory virt kind := by
  have walked := walkPage_eq opened virt [] (indices virt) vmm.pml4Phys rfl rfl (plain virt)
  simp only [pageAccess, nxe_enableNxe, expected]
  rw [walkable.translate_eq, walkable.flagsAt_eq]
  change walkPage true memory virt 0 vmm.pml4Phys .readWrite (indices virt) =
    match lookup memory vmm.pml4Phys virt with
    | none => .absent
    | some mapping => .reached (mapping.physical virt) (mapping.flags.getD .readWrite) at walked
  rw [walked]
  cases lookup memory vmm.pml4Phys virt with
  | none => rfl
  | some mapping => rfl

/-! ### Large pages over a run -/

/-- The same large pages in two memories. -/
def SameLarge (root : Nat) (before after : Memory) : Prop :=
  ∀ virt mapping, mapping.depth < 3 →
    (lookup after root virt = some mapping ↔ lookup before root virt = some mapping)

/-- The clients' frames are held, pointers are open, and the large pages are those of the
start. -/
structure Guarded (vmm : VirtualMemoryManager) (start : Machine) (runtime : Runtime) : Prop where
  ownership : Ownership vmm start runtime
  opened : OpenPointers runtime.machine.memory vmm.pml4Phys
  large : SameLarge vmm.pml4Phys start.memory runtime.machine.memory

section Requests

variable {vmm : VirtualMemoryManager} {machine : Machine} (owned : Owned vmm machine)

include owned

/-- `map` adds no large page and removes none: the page it maps had no mapping. -/
theorem map_sameLarge (virt phys : Nat) (flags : PageFlags) :
    SameLarge vmm.pml4Phys machine.memory (vmm.map machine virt phys flags).2.memory := by
  intro other mapping above
  rcases result : vmm.map machine virt phys flags with ⟨_ | _, after⟩
  · rw [(owned.map_error result).1]
  · obtain ⟨aligned, -, unmapped, looked, -⟩ := owned.map_ok result
    rw [looked]
    split
    · rename_i samePage
      have absent : lookup machine.memory vmm.pml4Phys other = none := by
        rw [lookup, (indices_eq_iff other virt).mpr samePage]
        exact unmapped
      rw [absent]
      constructor
      · intro leaf
        obtain rfl := Option.some.inj leaf
        exact absurd above (Nat.lt_irrefl 3)
      · intro found
        cases found
    · exact Iff.rfl

/-- `unmap` removes no large page. -/
theorem unmap_sameLarge (virt : Nat) :
    SameLarge vmm.pml4Phys machine.memory (vmm.unmap machine.memory virt).2 := by
  intro other mapping above
  rcases result : vmm.unmap machine.memory virt with ⟨_ | _, after⟩
  · rw [owned.unmap_error result]
  · obtain ⟨⟨entry, found, -⟩, -, looked, -⟩ := owned.unmap_ok result
    rw [looked]
    split
    · rename_i samePage
      have small : lookup machine.memory vmm.pml4Phys other = some ⟨3, entry⟩ := by
        rw [lookup, (indices_eq_iff other virt).mpr samePage]
        exact found
      rw [small]
      constructor
      · intro absent
        cases absent
      · intro leaf
        obtain rfl := Option.some.inj leaf
        exact absurd above (Nat.lt_irrefl 3)
    · exact Iff.rfl

end Requests

/-- Every permitted request keeps the guard. -/
theorem Guarded.serve {vmm : VirtualMemoryManager} {start : Machine} {runtime : Runtime}
    (guarded : Guarded vmm start runtime) (request : Request)
    (permitted : Permitted vmm runtime request) :
    Guarded vmm start (XyronOS.serve vmm runtime request) := by
  have owned : Owned vmm runtime.machine := guarded.ownership.owned
  have ownership := guarded.ownership.serve request permitted
  have kept {memory : Memory} (same : SameLarge vmm.pml4Phys runtime.machine.memory memory) :
      SameLarge vmm.pml4Phys start.memory memory :=
    fun virt mapping above => (same virt mapping above).trans (guarded.large virt mapping above)
  cases request with
  | allocate =>
    have sameMemory : (XyronOS.serve vmm runtime .allocate).machine.memory =
        runtime.machine.memory := by
      rcases taken : runtime.machine.frames.allocate with ⟨_ | _, frames⟩ <;>
        simp [XyronOS.serve, taken]
    exact ⟨ownership, sameMemory ▸ guarded.opened, sameMemory ▸ guarded.large⟩
  | deallocate frame =>
    have sameMemory : (XyronOS.serve vmm runtime (.deallocate frame)).machine.memory =
        runtime.machine.memory := by
      rcases released : runtime.machine.frames.deallocate
        (PhysAddr.fromFrameNumber frame) with ⟨_ | _, frames⟩ <;>
          simp [XyronOS.serve, released]
    exact ⟨ownership, sameMemory ▸ guarded.opened, sameMemory ▸ guarded.large⟩
  | map virt phys flags =>
    exact ⟨ownership, owned.map_open guarded.opened virt phys flags,
      kept (map_sameLarge owned virt phys flags)⟩
  | unmap virt =>
    exact ⟨ownership, owned.unmap_open guarded.opened virt, kept (unmap_sameLarge owned virt)⟩
  | write target value =>
    have same := update_outside value permitted
    refine ⟨ownership, write_outside_open guarded.opened same, kept ?_⟩
    intro virt mapping above
    have looked := (owned.write_outside same).2.2 virt
    exact iff_of_eq (congrArg (· = some mapping) looked)

/-- A 2 MiB page of the bootloader is plain. -/
theorem plain_large {phys : Nat} (aligned : phys % Boot.pageSize2M = 0) (bounded : phys < 2 ^ 52) :
    Plain ⟨2, Boot.largeEntry phys⟩ := by
  unfold Boot.pageSize2M at aligned
  constructor
  · constructor
    · rw [Boot.largeEntry_eq phys aligned, isWritable_eq, decide_eq_true_iff]
      show (phys + 0x83) / 2 % 2 = 1
      omega
    · rw [Boot.largeEntry_eq phys aligned, isNoExecute_eq, decide_eq_false_iff_not]
      show ¬ (phys + 0x83) / 2 ^ 63 % 2 = 1
      omega
  · have inside : addr (Boot.largeEntry phys) / 8192 % 256 = 0 := by
      rw [Boot.largeEntry_eq phys aligned, addr_eq]
      omega
    simp [reservedBits, pageSpan, inside]

/-- The large pages of the bootloader are plain. -/
theorem plain_build {pages : Nat → Option Nat} {table : Nat → Nat} {base size : Nat}
    {before after : Memory} (fresh : Boot.FreshPages pages)
    (outcome : Boot.BuildOutcome pages table base size before after)
    (baseAligned : base % Boot.pageSize2M = 0) (bounded : base < 2 ^ 51) (virt : Nat)
    (mapping : Mapping) (found : lookup after (table 0) virt = some mapping) : Plain mapping := by
  rw [outcome.lookup_eq fresh virt] at found
  have third := (pdIndex virt).isLt
  have second := (pdptIndex virt).isLt
  split at found
  · obtain rfl := Option.some.inj found
    apply plain_large <;> unfold Boot.oneGib Boot.pageSize2M <;> omega
  · split at found
    · obtain rfl := Option.some.inj found
      unfold Boot.pageSize2M at baseAligned
      have noCarry : wrappingAdd base ((pdIndex virt) * Boot.pageSize2M) =
          base + (pdIndex virt) * Boot.pageSize2M :=
        wrappingAdd_eq _ _ (by unfold Boot.pageSize2M; omega)
      rw [noCarry]
      apply plain_large <;> unfold Boot.pageSize2M <;> omega
    · cases found

/-- The guard holds over every run from the bootloader's tables. -/
theorem guarded_run {pages : Nat → Option Nat} (fresh : Boot.FreshPages pages)
    {memory after : Memory} {base size pml4 : Nat}
    (built : Boot.buildKernelPageTables pages memory base size = (pml4, after))
    (succeeded : pml4 ≠ 0) {frames : FrameAllocator} (consistent : frames.Consistent)
    (reserved : ∀ request address, pages request = some address →
      PhysAddr.frameNumber address ∈ frames.usedFrames)
    {requests : List Request} {runtime : Runtime}
    (run : Run (Permitted ⟨pml4⟩) (serve ⟨pml4⟩) ⟨⟨after, frames⟩, []⟩ requests runtime) :
    Guarded ⟨pml4⟩ ⟨after, frames⟩ runtime := by
  have owned := owned_of_build fresh built succeeded consistent reserved
  obtain ⟨table, rfl, outcome⟩ := Boot.buildKernelPageTables_outcome fresh built succeeded
  have initial : Guarded ⟨table 0⟩ ⟨after, frames⟩ ⟨⟨after, frames⟩, []⟩ :=
    ⟨Ownership.initial owned, outcome.open_pointers fresh, fun _ _ _ => Iff.rfl⟩
  exact run.invariant (Guarded ⟨table 0⟩ ⟨after, frames⟩)
    (fun _ request holds permitted => holds.serve request permitted) initial

/-- **The processor does what the kernel expects.** Over every run from the bootloader's
tables, after `enable_nxe`: at every canonical address and for every kind of access the
processor grants or refuses what `translate` and `flags_at` say, to the physical
address or the error code. A write to a read-only page is refused only if `CR0.WP` is
set; a fetch from a no-execute page always is. An address that is not canonical is
refused, whatever the two say. -/
theorem kernel_access_expected {pages : Nat → Option Nat} (fresh : Boot.FreshPages pages)
    {memory after : Memory} {base size pml4 : Nat}
    (built : Boot.buildKernelPageTables pages memory base size = (pml4, after))
    (succeeded : pml4 ≠ 0) (baseAligned : base % Boot.pageSize2M = 0) (bounded : base < 2 ^ 51)
    {frames : FrameAllocator} (consistent : frames.Consistent)
    (reserved : ∀ request address, pages request = some address →
      PhysAddr.frameNumber address ∈ frames.usedFrames)
    {requests : List Request} {runtime : Runtime}
    (run : Run (Permitted ⟨pml4⟩) (serve ⟨pml4⟩) ⟨⟨after, frames⟩, []⟩ requests runtime)
    (writeProtect : Bool) (efer virt : Nat) (kind : Access) :
    access ⟨writeProtect, enableNxe efer⟩ runtime.machine.memory pml4 virt kind =
      if Boot.Canonical virt then
        (expected writeProtect ⟨pml4⟩ runtime.machine.memory virt kind).mapError .pageFault
      else .error .generalProtection := by
  have guarded := guarded_run fresh built succeeded consistent reserved run
  obtain ⟨table, rfl, outcome⟩ := Boot.buildKernelPageTables_outcome fresh built succeeded
  rw [access, pageAccess_eq guarded.ownership.owned.toWalkable guarded.opened _ writeProtect efer
    virt kind]
  intro other mapping found above
  exact plain_build fresh outcome baseAligned bounded other mapping
    ((guarded.large other mapping above).mp found)

/-- Whether `map` succeeds does not depend on the permissions. -/
theorem map_any_flags {vmm : VirtualMemoryManager} {machine after : Machine}
    (owned : Owned vmm machine) {virt phys : Nat} {flags : PageFlags}
    (mapped : vmm.map machine virt phys flags = (.ok (), after)) (other : PageFlags) :
    ∃ after', vmm.map machine virt phys other = (.ok (), after') := by
  obtain ⟨aligned, physAligned, unmapped, -, added, updated, count⟩ := owned.map_ok mapped
  rcases result : vmm.map machine virt phys other with ⟨error | _, after'⟩
  · rcases owned.map_error_cause result aligned physAligned with present | short
    · exact absurd unmapped present
    · have enough := updated.card_freeBelow
      omega
  · exact ⟨after', rfl⟩

/-- A page mapped read-only on the bootloader's tables: the kernel may write to it unless
`CR0.WP` is set, and never at the address that `translate` takes for the same one. -/
theorem kernel_access_read_only :
    ∃ after runtime,
      Boot.buildKernelPageTables Boot.firstPages (fun _ => 0) 0x200000 0x200000 =
        (0x1000, after) ∧
      Run (Permitted ⟨0x1000⟩) (serve ⟨0x1000⟩) ⟨⟨after, bootFrames⟩, []⟩
        [.map 0xFFFF880000000000 0x9000 ⟨false, false⟩] runtime ∧
      access ⟨true, enableNxe 0⟩ runtime.machine.memory 0x1000 0xFFFF880000000123 .write =
        .error (.pageFault 3) ∧
      access ⟨false, enableNxe 0⟩ runtime.machine.memory 0x1000 0xFFFF880000000123 .write =
        .ok 0x9123 ∧
      (VirtualMemoryManager.mk 0x1000).translate runtime.machine.memory 0x880000000123 =
        some 0x9123 ∧
      access ⟨false, enableNxe 0⟩ runtime.machine.memory 0x1000 0x880000000123 .write =
        .error .generalProtection := by
  have root : (Boot.buildKernelPageTables Boot.firstPages (fun _ => 0) 0x200000 0x200000).1 =
      0x1000 := by
    decide +kernel
  generalize result : Boot.buildKernelPageTables Boot.firstPages (fun _ => 0) 0x200000 0x200000 =
    built at root
  obtain ⟨pml4, after⟩ := built
  subst root
  have owned := owned_of_build Boot.firstPages_fresh result (by decide) bootFrames_consistent
    bootFrames_reserved
  obtain ⟨table, rootIs, outcome⟩ :=
    Boot.buildKernelPageTables_outcome Boot.firstPages_fresh result (by decide)
  obtain ⟨_, done⟩ := bootFrames_map outcome (rootIs ▸ owned)
  rw [rootIs] at done
  obtain ⟨mapped, done⟩ := map_any_flags owned done ⟨false, false⟩
  have served : serve ⟨0x1000⟩ ⟨⟨after, bootFrames⟩, []⟩
      (.map 0xFFFF880000000000 0x9000 ⟨false, false⟩) = ⟨mapped, []⟩ := by
    simp [serve, done]
  have run : Run (Permitted ⟨0x1000⟩) (serve ⟨0x1000⟩) ⟨⟨after, bootFrames⟩, []⟩
      [.map 0xFFFF880000000000 0x9000 ⟨false, false⟩] ⟨mapped, []⟩ :=
    .cons trivial (served ▸ .nil _)
  obtain ⟨_, _, _, looked, _, updated, _⟩ := owned.map_ok done
  have leaf : lookup mapped.memory 0x1000 0xFFFF880000000123 =
      some ⟨3, newLeaf 0x9000 ⟨false, false⟩⟩ := (looked _).trans (if_pos (by decide))
  have foreseen (writeProtect : Bool) :
      expected writeProtect ⟨0x1000⟩ mapped.memory 0xFFFF880000000123 .write =
        if !writeProtect then .ok 0x9123 else .error 3 := by
    rw [expected, updated.owned.translate_eq, updated.owned.flagsAt_eq, leaf]
    cases writeProtect <;> decide
  have answered (writeProtect : Bool) (virt : Nat) :=
    kernel_access_expected Boot.firstPages_fresh result (by decide) (by decide) (by decide)
      bootFrames_consistent bootFrames_reserved run writeProtect 0 virt .write
  refine ⟨after, ⟨mapped, []⟩, rfl, run, ?_, ?_, ?_, ?_⟩
  · rw [answered, if_pos (by decide), foreseen]
    rfl
  · rw [answered, if_pos (by decide), foreseen]
    rfl
  · rw [updated.owned.translate_eq, (looked 0x880000000123).trans (if_pos (by decide))]
    decide
  · rw [answered, if_neg (by decide)]

end KernelAccess

end XyronOS
