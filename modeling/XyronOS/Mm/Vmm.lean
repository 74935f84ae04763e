import XyronOS.Library.ByteMemory
import XyronOS.Mm.FrameAllocator
import XyronOS.Mm.PageTableEntry

/-!
# The virtual memory manager

`map`, `unmap`, `translate` and `flags_at` as the kernel computes them: four
separately written walks over page tables that live in physical memory. Every
dereference goes through `checkedTablePtr`. A walk reads and writes physical
memory directly, because the tables lie in the identity-mapped range; the state
of an operation is therefore that memory together with the frame allocator.
Invalidation of the translation cache has no counterpart in this state.
-/

namespace XyronOS

open ByteMemory WordBits PageTableEntry VirtAddr

inductive MapError where
  | notPageAligned
  | alreadyMapped
  | outOfFrames
  | pageTableUnreachable
  | wouldOverlapHugePage
deriving DecidableEq, Repr

inductive UnmapError where
  | notPageAligned
  | notMapped
  | pageTableUnreachable
  | isHugePage
deriving DecidableEq, Repr

/-- Physical memory and the allocator of its frames. -/
structure Machine where
  memory : Memory
  frames : FrameAllocator

/-- The one check before a physical address is dereferenced as a table. -/
def checkedTablePtr (phys : Nat) : Option Nat :=
  if phys ≥ identityMapLimit then none else some phys

/-- Read one entry of the table at `table`. -/
def readEntry (memory : Memory) (table : Nat) (index : Fin 512) : Nat :=
  load64 memory (table + 8 * index)

/-- Write one entry of the table at `table`. -/
def writeEntry (memory : Memory) (table : Nat) (index : Fin 512) (entry : Nat) : Memory :=
  store64 memory (table + 8 * index) entry

/-- Clear the 512 entries of a new table. -/
def zeroTable (memory : Memory) (table : Nat) : Memory := storeWords memory table (fun _ => 0) 512

/-- Re-read an entry and test its huge-page bit. -/
def entryIsHugePage (memory : Memory) (table : Nat) (index : Fin 512) : Bool :=
  rawHasFlag (readEntry memory table index) flagPageSize

/-- The manager remembers the physical address of the active PML4. -/
structure VirtualMemoryManager where
  pml4Phys : Nat
deriving DecidableEq, Repr

namespace VirtualMemoryManager

/-- Walk to the next-level table behind one entry, creating it if absent. -/
def getOrCreateTable (machine : Machine) (table : Nat) (index : Fin 512) :
    Except MapError Nat × Machine :=
  match checkedTablePtr table with
  | none => (.error .pageTableUnreachable, machine)
  | some pointer =>
    let entry := readEntry machine.memory pointer index
    if isPresent entry then
      if entryIsHugePage machine.memory pointer index then
        (.error .wouldOverlapHugePage, machine)
      else (.ok (addr entry), machine)
    else
      match machine.frames.allocateBelow identityMapLimit with
      | (none, frames) => (.error .outOfFrames, { machine with frames := frames })
      | (some newTable, frames) =>
        match checkedTablePtr newTable with
        | none => (.error .pageTableUnreachable, { machine with frames := frames })
        | some newPointer =>
          let zeroed := zeroTable machine.memory newPointer
          (.ok newTable, ⟨writeEntry zeroed pointer index (newTablePointer newTable), frames⟩)

/-- Map one page, creating missing intermediate tables on the way. -/
def map (vmm : VirtualMemoryManager) (machine : Machine) (virt phys : Nat) (flags : PageFlags) :
    Except MapError Unit × Machine :=
  if !isPageAligned virt || !PhysAddr.isFrameAligned phys then (.error .notPageAligned, machine)
  else
    match getOrCreateTable machine vmm.pml4Phys (pml4Index virt) with
    | (.error error, machine) => (.error error, machine)
    | (.ok pdpt, machine) =>
      match getOrCreateTable machine pdpt (pdptIndex virt) with
      | (.error error, machine) => (.error error, machine)
      | (.ok pd, machine) =>
        match getOrCreateTable machine pd (pdIndex virt) with
        | (.error error, machine) => (.error error, machine)
        | (.ok pt, machine) =>
          match checkedTablePtr pt with
          | none => (.error .pageTableUnreachable, machine)
          | some pointer =>
            if isPresent (readEntry machine.memory pointer (ptIndex virt)) then
              (.error .alreadyMapped, machine)
            else
              (.ok (), { machine with
                memory := writeEntry machine.memory pointer (ptIndex virt) (newLeaf phys flags) })

/-- Remove the 4 KiB mapping of one page and return the frame it had. -/
def unmap (vmm : VirtualMemoryManager) (memory : Memory) (virt : Nat) :
    Except UnmapError Nat × Memory :=
  if !isPageAligned virt then (.error .notPageAligned, memory)
  else
    match checkedTablePtr vmm.pml4Phys with
    | none => (.error .pageTableUnreachable, memory)
    | some pml4 =>
      let pml4e := readEntry memory pml4 (pml4Index virt)
      if !isPresent pml4e then (.error .notMapped, memory)
      else
        match checkedTablePtr (addr pml4e) with
        | none => (.error .pageTableUnreachable, memory)
        | some pdpt =>
          let pdpte := readEntry memory pdpt (pdptIndex virt)
          if !isPresent pdpte then (.error .notMapped, memory)
          else if rawHasFlag pdpte flagPageSize then (.error .isHugePage, memory)
          else
            match checkedTablePtr (addr pdpte) with
            | none => (.error .pageTableUnreachable, memory)
            | some pd =>
              let pde := readEntry memory pd (pdIndex virt)
              if !isPresent pde then (.error .notMapped, memory)
              else if rawHasFlag pde flagPageSize then (.error .isHugePage, memory)
              else
                match checkedTablePtr (addr pde) with
                | none => (.error .pageTableUnreachable, memory)
                | some pt =>
                  let pte := readEntry memory pt (ptIndex virt)
                  if !isPresent pte then (.error .notMapped, memory)
                  else (.ok (addr pte), writeEntry memory pt (ptIndex virt) cleared)

/-- The physical address a virtual address maps to, through 1 GiB, 2 MiB and
4 KiB entries alike. -/
def translate (vmm : VirtualMemoryManager) (memory : Memory) (virt : Nat) : Option Nat :=
  match checkedTablePtr vmm.pml4Phys with
  | none => none
  | some pml4 =>
    let pml4e := readEntry memory pml4 (pml4Index virt)
    if !isPresent pml4e then none
    else
      match checkedTablePtr (addr pml4e) with
      | none => none
      | some pdpt =>
        let pdpte := readEntry memory pdpt (pdptIndex virt)
        if !isPresent pdpte then none
        else if rawHasFlag pdpte flagPageSize then
          let base := addr pdpte &&& complement 0x3FFFFFFF
          some (base ||| (virt &&& 0x3FFFFFFF))
        else
          match checkedTablePtr (addr pdpte) with
          | none => none
          | some pd =>
            let pde := readEntry memory pd (pdIndex virt)
            if !isPresent pde then none
            else if rawHasFlag pde flagPageSize then
              let base := addr pde &&& complement 0x1FFFFF
              some (base ||| (virt &&& 0x1FFFFF))
            else
              match checkedTablePtr (addr pde) with
              | none => none
              | some pt =>
                let pte := readEntry memory pt (ptIndex virt)
                if !isPresent pte then none
                else some (addr pte ||| pageOffset virt)

/-- The permissions stored in the 4 KiB entry of a virtual address. -/
def flagsAt (vmm : VirtualMemoryManager) (memory : Memory) (virt : Nat) : Option PageFlags :=
  match checkedTablePtr vmm.pml4Phys with
  | none => none
  | some pml4 =>
    let pml4e := readEntry memory pml4 (pml4Index virt)
    if !isPresent pml4e then none
    else
      match checkedTablePtr (addr pml4e) with
      | none => none
      | some pdpt =>
        let pdpte := readEntry memory pdpt (pdptIndex virt)
        if !isPresent pdpte || rawHasFlag pdpte flagPageSize then none
        else
          match checkedTablePtr (addr pdpte) with
          | none => none
          | some pd =>
            let pde := readEntry memory pd (pdIndex virt)
            if !isPresent pde || rawHasFlag pde flagPageSize then none
            else
              match checkedTablePtr (addr pde) with
              | none => none
              | some pt =>
                let pte := readEntry memory pt (ptIndex virt)
                if !isPresent pte then none
                else some ⟨isWritable pte, isNoExecute pte⟩

end VirtualMemoryManager

end XyronOS
