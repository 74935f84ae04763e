import XyronOS.Boot.Paging

/-!
# The loader of the kernel image

`LoadKernelElf` as the bootloader computes it: the file is read into a pool
buffer, its ELF header is validated, the loadable program headers are scanned for
the span of virtual addresses they cover, and the segments are copied to zeroed
pages at their distance from the lowest address of that span.

The headers are read out of the buffer's bytes, and the copy loop reads them again
from the memory it is writing to. A pointer into the file is computed in wrapping
64-bit arithmetic, as the fields that go into it are whatever the file holds.

What the firmware answers is a parameter. An allocation that fails has no address,
and the page allocations are numbered in the order in which the bootloader makes
them. The trace of an outcome lists the resources taken and given back.
-/

namespace XyronOS

open ByteMemory WordBits

namespace Boot

def pageSize4K : Nat := 0x1000

/-- Largest kernel image the page tables can map. -/
def kernelMaxSizeBytes : Nat := 512 * pageSize2M

/-- Rounding of machine words by a mask. -/
def roundUpTo (value alignment : Nat) : Nat :=
  wrappingAdd value (alignment - 1) &&& complement (alignment - 1)

/-- Rounding to a power of two, where the addition does not carry out of 64 bits. -/
theorem roundUpTo_pow (value bits : Nat) (width : bits ≤ 64)
    (fits : value + (2 ^ bits - 1) < 2 ^ 64) : roundUpTo value (2 ^ bits) = roundUp value (2 ^ bits) := by
  rw [roundUpTo, wrappingAdd_eq _ _ fits]
  exact masked_roundUp value bits width fits

/-- Size of `Elf64_Ehdr`. -/
def elfHeaderSize : Nat := 64

/-- Size of `Elf64_Phdr`. -/
def programHeaderSize : Nat := 56

def elfClass64 : Nat := 2

def elfData2Lsb : Nat := 1

def etExec : Nat := 2

def emX8664 : Nat := 62

/-- The only segment type that is loaded. -/
def ptLoad : Nat := 1

section ElfHeader

variable (memory : Memory) (hdr : Nat)

def eIdent (index : Nat) : Nat := load memory (hdr + index) 1

def eType : Nat := load memory (hdr + 16) 2

def eMachine : Nat := load memory (hdr + 18) 2

/-- Virtual address of the entry point. -/
def eEntry : Nat := load64 memory (hdr + 24)

/-- File offset of the program header table. -/
def ePhoff : Nat := load64 memory (hdr + 32)

/-- Size of one program header entry. -/
def ePhentsize : Nat := load memory (hdr + 54) 2

/-- Number of program header entries. -/
def ePhnum : Nat := load memory (hdr + 56) 2

/-- The format checks that precede any use of the program headers. -/
def validateElfHeader : Bool :=
  if eIdent memory hdr 0 ≠ 0x7F ∨ eIdent memory hdr 1 ≠ 0x45 ∨
      eIdent memory hdr 2 ≠ 0x4C ∨ eIdent memory hdr 3 ≠ 0x46 then false
  else if eIdent memory hdr 4 ≠ elfClass64 then false
  else if eIdent memory hdr 5 ≠ elfData2Lsb then false
  else if eMachine memory hdr ≠ emX8664 then false
  else if eType memory hdr ≠ etExec then false
  else if ePhnum memory hdr = 0 ∨ ePhentsize memory hdr = 0 then false
  else true

end ElfHeader

/-- The fields of `Elf64_Phdr` the loader uses. -/
structure ProgramHeader where
  pType : Nat
  pOffset : Nat
  pVaddr : Nat
  pFilesz : Nat
  pMemsz : Nat
deriving DecidableEq, Repr

def readProgramHeader (memory : Memory) (phdr : Nat) : ProgramHeader where
  pType := load32 memory phdr
  pOffset := load64 memory (phdr + 8)
  pVaddr := load64 memory (phdr + 16)
  pFilesz := load64 memory (phdr + 32)
  pMemsz := load64 memory (phdr + 40)

/-- Where the `i`-th program header is read; the stride is the file's own. -/
def phdrBytes (memory : Memory) (fileBuffer i : Nat) : Nat :=
  wrappingAdd (wrappingAdd fileBuffer (ePhoff memory fileBuffer))
    (i * ePhentsize memory fileBuffer)

def programHeader (memory : Memory) (fileBuffer i : Nat) : ProgramHeader :=
  readProgramHeader memory (phdrBytes memory fileBuffer i)

/-- All program headers, in the order of the table. -/
def programHeaders (memory : Memory) (fileBuffer : Nat) : List ProgramHeader :=
  (List.range (ePhnum memory fileBuffer)).map (programHeader memory fileBuffer)

/-- Accumulators of the first loop over the program headers. -/
structure Span where
  minVAddr : Nat
  maxVAddrEnd : Nat
  foundAnyLoadSegment : Bool
deriving DecidableEq, Repr

def Span.initial : Span := ⟨0xFFFFFFFFFFFFFFFF, 0, false⟩

/-- One round of the first loop; a loadable segment below the kernel's virtual base
rejects the file. -/
def Span.visit (span : Span) (phdr : ProgramHeader) : Option Span :=
  if phdr.pType ≠ ptLoad then some span
  else if phdr.pVaddr < kernelVirtualBase then none
  else
    let segmentEnd := wrappingAdd phdr.pVaddr phdr.pMemsz
    some
      { minVAddr := if phdr.pVaddr < span.minVAddr then phdr.pVaddr else span.minVAddr
        maxVAddrEnd := if segmentEnd > span.maxVAddrEnd then segmentEnd else span.maxVAddrEnd
        foundAnyLoadSegment := true }

/-- What the validated file asks for: the lowest virtual address and the size of
the destination. -/
structure ImagePlan where
  minVAddr : Nat
  alignedSize : Nat
deriving DecidableEq, Repr

/-- Pages to request: one 2 MiB block more than the image, so that an aligned base
can be chosen inside. -/
def ImagePlan.pagesNeeded4K (plan : ImagePlan) : Nat :=
  (plan.alignedSize + pageSize2M) / pageSize4K

/-- Every check between the read of the file and the allocation of the pages. -/
def planImage (memory : Memory) (fileBuffer fileSize : Nat) : Option ImagePlan :=
  if fileSize < elfHeaderSize then none
  else if !validateElfHeader memory fileBuffer then none
  else
    ((programHeaders memory fileBuffer).foldlM Span.visit Span.initial).bind fun span =>
      let kernelSpan := wrappingSub span.maxVAddrEnd span.minVAddr
      let alignedSize := roundUpTo kernelSpan pageSize2M
      if !span.foundAnyLoadSegment then none
      else if alignedSize = 0 ∨ alignedSize > kernelMaxSizeBytes then none
      else if eEntry memory fileBuffer < span.minVAddr ∨
          eEntry memory fileBuffer ≥ span.maxVAddrEnd then none
      else some ⟨span.minVAddr, alignedSize⟩

/-- Inversion of the checks: the file holds a header, the scan went through, and the
plan is that of its span. -/
theorem planImage_inversion {memory : Memory} {fileBuffer fileSize : Nat} {plan : ImagePlan}
    (passed : planImage memory fileBuffer fileSize = some plan) :
    elfHeaderSize ≤ fileSize ∧ ∃ span,
      (programHeaders memory fileBuffer).foldlM Span.visit Span.initial = some span ∧
      span.foundAnyLoadSegment = true ∧
      plan = ⟨span.minVAddr,
        roundUpTo (wrappingSub span.maxVAddrEnd span.minVAddr) pageSize2M⟩ ∧
      0 < plan.alignedSize ∧ plan.alignedSize ≤ kernelMaxSizeBytes ∧
      span.minVAddr ≤ eEntry memory fileBuffer ∧ eEntry memory fileBuffer < span.maxVAddrEnd := by
  rw [planImage] at passed
  split at passed
  · cases passed
  rename_i short
  split at passed
  · cases passed
  obtain ⟨span, scanned, checked⟩ := Option.bind_eq_some_iff.mp passed
  simp only at checked
  split at checked
  · cases checked
  rename_i found
  split at checked
  · cases checked
  rename_i size
  split at checked
  · cases checked
  rename_i entry
  obtain rfl := Option.some.inj checked
  obtain ⟨nonzero, bounded⟩ := not_or.mp size
  obtain ⟨lower, upper⟩ := not_or.mp entry
  exact ⟨Nat.not_lt.mp short, span, scanned, by simpa using found, rfl, Nat.pos_of_ne_zero nonzero,
    Nat.not_lt.mp bounded, Nat.not_lt.mp lower, Nat.not_le.mp upper⟩

/-- The ELF header of a file that passes the checks is valid. -/
theorem planImage_validated {memory : Memory} {fileBuffer fileSize : Nat} {plan : ImagePlan}
    (passed : planImage memory fileBuffer fileSize = some plan) :
    validateElfHeader memory fileBuffer = true := by
  rw [planImage] at passed
  split at passed
  · cases passed
  · split at passed
    · cases passed
    · rename_i valid
      simpa using valid

/-- Copy bytes one by one, each read from the memory the earlier ones left. -/
def copyBytes (memory : Memory) (dest src : Nat) : Nat → Memory
  | 0 => memory
  | b + 1 =>
      let copied := copyBytes memory dest src b
      Function.update copied (wrappingAdd dest b) (copied (wrappingAdd src b))

/-- One round of the second loop: the file bytes of a loadable segment go to the
segment's distance from the lowest virtual address. -/
def copySegment (memory : Memory) (fileBuffer destBase minVAddr : Nat) (phdr : ProgramHeader) :
    Memory :=
  if phdr.pType ≠ ptLoad then memory
  else
    let destOffset := wrappingSub phdr.pVaddr minVAddr
    copyBytes memory (wrappingAdd destBase destOffset) (wrappingAdd fileBuffer phdr.pOffset)
      phdr.pFilesz

/-- The second loop after its first `i` rounds. -/
def copySegments (memory : Memory) (fileBuffer destBase minVAddr : Nat) : Nat → Memory
  | 0 => memory
  | i + 1 =>
      let copied := copySegments memory fileBuffer destBase minVAddr i
      copySegment copied fileBuffer destBase minVAddr (programHeader copied fileBuffer i)

/-- Zero the destination, then copy every segment into it. -/
def placeImage (memory : Memory) (fileBuffer physBase : Nat) (plan : ImagePlan) : Memory :=
  let zeroed := fill memory physBase plan.alignedSize 0
  copySegments zeroed fileBuffer physBase plan.minVAddr (ePhnum zeroed fileBuffer)

/-- The firmware's answers. `allocatePages` takes the number of the request and its
page count; `freePool` is what a freed buffer leaves in memory. -/
structure Firmware where
  opens : Bool
  infoPool : Option Nat
  fileSize : Option Nat
  filePool : Nat → Option Nat
  read : Nat → Option (List (BitVec 8))
  freePool : Nat → Memory → Memory
  allocatePages : Nat → Nat → Option Nat

/-- Resources the loader takes and gives back. -/
inductive LoaderEvent where
  | openFile
  | closeFile
  | allocatePool (address : Nat)
  | freePool (address : Nat)
  | allocatePages (address pages : Nat)
deriving DecidableEq, Repr

/-- The loader's result to its caller. -/
structure LoadedKernel where
  kernelPhysicalBase : Nat
  kernelVirtualBase : Nat
  kernelSizeBytes : Nat
  entryPointVirtual : Nat
deriving DecidableEq, Repr

/-- Result, memory and trace of one call; no kernel stands for `FALSE`. -/
structure LoadOutcome where
  kernel : Option LoadedKernel
  memory : Memory
  events : List LoaderEvent

/-- Open the file, size a buffer by its information record and read it whole. -/
def readKernelFile (firmware : Firmware) : Option (Nat × List (BitVec 8)) × List LoaderEvent :=
  match firmware.opens with
  | false => (none, [])
  | true =>
    match firmware.infoPool with
    | none => (none, [.openFile, .closeFile])
    | some fileInfo =>
      match firmware.fileSize with
      | none =>
          (none, [.openFile, .allocatePool fileInfo, .freePool fileInfo, .closeFile])
      | some fileSize =>
        match firmware.filePool fileSize with
        | none =>
            (none, [.openFile, .allocatePool fileInfo, .freePool fileInfo, .closeFile])
        | some fileBuffer =>
          match firmware.read fileSize with
          | none =>
              (none, [.openFile, .allocatePool fileInfo, .freePool fileInfo,
                .allocatePool fileBuffer, .closeFile, .freePool fileBuffer])
          | some bytes =>
              (some (fileBuffer, bytes), [.openFile, .allocatePool fileInfo, .freePool fileInfo,
                .allocatePool fileBuffer, .closeFile])

/-- Load the kernel. The entry point is read from the buffer before the buffer is
freed. -/
def loadKernelElf (firmware : Firmware) (memory : Memory) : LoadOutcome :=
  match readKernelFile firmware with
  | (none, events) => ⟨none, memory, events⟩
  | (some (fileBuffer, bytes), events) =>
    let memory := storeBytes memory fileBuffer bytes
    let rejected : LoadOutcome :=
      ⟨none, firmware.freePool fileBuffer memory, events ++ [.freePool fileBuffer]⟩
    (planImage memory fileBuffer bytes.length).elim rejected fun plan =>
      (firmware.allocatePages 0 plan.pagesNeeded4K).elim rejected fun physAllocation =>
        let physBase := roundUpTo physAllocation pageSize2M
        let memory := placeImage memory fileBuffer physBase plan
        { kernel := some
            { kernelPhysicalBase := physBase
              kernelVirtualBase := plan.minVAddr
              kernelSizeBytes := plan.alignedSize
              entryPointVirtual := eEntry memory fileBuffer }
          memory := firmware.freePool fileBuffer memory
          events := events ++
            [.allocatePages physAllocation plan.pagesNeeded4K, .freePool fileBuffer] }

/-- A file that was read lies in a buffer of the size the firmware reported. -/
theorem readKernelFile_inversion {firmware : Firmware} {fileBuffer : Nat}
    {bytes : List (BitVec 8)} (read : (readKernelFile firmware).1 = some (fileBuffer, bytes)) :
    ∃ size, firmware.filePool size = some fileBuffer ∧ firmware.read size = some bytes := by
  rw [readKernelFile] at read
  split at read
  · cases read
  split at read
  · cases read
  split at read
  · cases read
  rename_i size _
  split at read
  · cases read
  rename_i buffer pool
  split at read
  · cases read
  rename_i content contents
  obtain ⟨rfl, rfl⟩ := Prod.mk.inj (Option.some.inj read)
  exact ⟨size, pool, contents⟩

/-- Inversion of an accepted file: its headers passed every check, and pages were
obtained for the plan that came out of them. -/
theorem loadKernelElf_inversion {firmware : Firmware} {memory : Memory} {kernel : LoadedKernel}
    {fileBuffer : Nat} {bytes : List (BitVec 8)}
    (read : (readKernelFile firmware).1 = some (fileBuffer, bytes))
    (accepted : (loadKernelElf firmware memory).kernel = some kernel) :
    ∃ plan physAllocation,
      planImage (storeBytes memory fileBuffer bytes) fileBuffer bytes.length = some plan ∧
      firmware.allocatePages 0 plan.pagesNeeded4K = some physAllocation ∧
      (loadKernelElf firmware memory).memory = firmware.freePool fileBuffer
        (placeImage (storeBytes memory fileBuffer bytes) fileBuffer
          (roundUpTo physAllocation pageSize2M) plan) ∧
      kernel = ⟨roundUpTo physAllocation pageSize2M, plan.minVAddr, plan.alignedSize,
        eEntry (placeImage (storeBytes memory fileBuffer bytes) fileBuffer
          (roundUpTo physAllocation pageSize2M) plan) fileBuffer⟩ := by
  rw [loadKernelElf] at accepted ⊢
  generalize readKernelFile firmware = contents at read accepted ⊢
  obtain ⟨_, events⟩ := contents
  subst read
  cases planned : planImage (storeBytes memory fileBuffer bytes) fileBuffer bytes.length with
  | none => simp [planned] at accepted
  | some plan =>
    cases allocated : firmware.allocatePages 0 plan.pagesNeeded4K with
    | none => simp [planned, allocated] at accepted
    | some physAllocation =>
      simp only [planned, allocated, Option.elim_some, Option.some.injEq] at accepted ⊢
      exact ⟨plan, physAllocation, rfl, allocated, rfl, accepted.symm⟩

/-- A file that passes every check is accepted if there are pages for it. -/
theorem loadKernelElf_accepts {firmware : Firmware} {memory : Memory} {fileBuffer : Nat}
    {bytes : List (BitVec 8)} (read : (readKernelFile firmware).1 = some (fileBuffer, bytes))
    {plan : ImagePlan} {physAllocation : Nat}
    (passed : planImage (storeBytes memory fileBuffer bytes) fileBuffer bytes.length = some plan)
    (allocated : firmware.allocatePages 0 plan.pagesNeeded4K = some physAllocation) :
    (loadKernelElf firmware memory).kernel.isSome = true := by
  rw [loadKernelElf]
  generalize readKernelFile firmware = contents at read ⊢
  obtain ⟨_, events⟩ := contents
  subst read
  simp only [passed, allocated, Option.elim_some, Option.isSome_some]

end Boot

end XyronOS
