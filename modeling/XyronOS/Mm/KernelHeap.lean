import XyronOS.Mm.LinkedListAllocator
import XyronOS.Mm.Vmm

/-!
# The kernel heap

The global allocator: a free list whose blocks lie in the heap region of the
virtual address space, grown on demand. A growth maps fresh frames page by page
behind the cursor and only then adds the new region to the free list; if a page
fails, the pages mapped so far are unmapped again.

The free list is reached through the active page tables. `view` is the memory the
processor sees through them, and `commit` performs the allocator's word writes at
the physical addresses they translate to. The two globals a growth needs are the
frame allocator and the manager; until both are set, a growth fails.
-/

namespace XyronOS

open ByteMemory WordBits

/-- First address of the heap region. -/
def heapRegionStart : Nat := 0xFFFF880000000000

/-- End of the heap region, where the kernel image begins. -/
def heapRegionEnd : Nat := 0xFFFFFFFF80000000

/-- Smallest number of pages a growth maps. -/
def heapGrowthMinPages : Nat := 16

/-- Memory as the processor sees it through the tables; an address that does not
translate has no byte of its own. -/
def view (vmm : VirtualMemoryManager) (memory : Memory) : Memory := fun virt =>
  (vmm.translate memory virt).elim 0 memory

/-- Write the bytes of a value through the tables, on one page. -/
def storeThrough (vmm : VirtualMemoryManager) (memory : Memory) (virt width value : Nat) : Memory :=
  (vmm.translate memory virt).elim memory (fun phys => store memory phys width value)

/-- Write logged words through the tables, in the order they were written. -/
def commit (vmm : VirtualMemoryManager) (words : List (Nat × Nat)) (memory : Memory) : Memory :=
  words.foldr (fun word memory => storeThrough vmm memory word.1 8 word.2) memory

/-- The machine, the manager of the active tables, whether both globals are set, the
sentinel of the free list and the address the next growth maps at. -/
structure KernelHeap where
  machine : Machine
  vmm : VirtualMemoryManager
  populated : Bool
  head : FreeListNode
  nextUnmapped : Nat

namespace KernelHeap

/-- An empty heap on a machine whose globals are set. -/
def new (vmm : VirtualMemoryManager) (machine : Machine) : KernelHeap :=
  ⟨machine, vmm, true, ⟨0, 0⟩, heapRegionStart⟩

/-- The free list, in the memory seen through the tables. -/
def allocator (heap : KernelHeap) : LinkedListAllocator :=
  ⟨heap.head, view heap.vmm heap.machine.memory, []⟩

/-- Take over what an operation did to the free list. -/
def store (heap : KernelHeap) (list : LinkedListAllocator) : KernelHeap :=
  { heap with
    head := list.head
    machine := { heap.machine with
      memory := commit heap.vmm list.written heap.machine.memory } }

/-- Unmap the pages of a growth that failed; the frames `unmap` returns are dropped. -/
def unwindPartialGrowth (vmm : VirtualMemoryManager) (growthStart mappedPages : Nat)
    (memory : Memory) : Memory :=
  (List.range mappedPages).foldl
    (fun memory page => (vmm.unmap memory (growthStart + page * frameSize)).2) memory

/-- Keep a mapped page; give the frame of a page that could not be mapped back. -/
def afterMap (phys : Nat) : Except MapError Unit × Machine → Bool × Machine
  | (.ok _, machine) => (true, machine)
  | (.error _, machine) =>
      (false, { machine with frames := (machine.frames.deallocate phys).2 })

/-- Map the allocated frame, if there was one. -/
def afterAllocate (vmm : VirtualMemoryManager) (memory : Memory) (virt : Nat) :
    Option Nat × FrameAllocator → Bool × Machine
  | (none, frames) => (false, ⟨memory, frames⟩)
  | (some phys, frames) => afterMap phys (vmm.map ⟨memory, frames⟩ virt phys .readWrite)

/-- Back one page of a growth with a frame. -/
def growPage (vmm : VirtualMemoryManager) (machine : Machine) (virt : Nat) : Bool × Machine :=
  afterAllocate vmm machine.memory virt machine.frames.allocate

/-- Back the remaining pages of a growth; unwind at the first that fails. -/
def growPages (vmm : VirtualMemoryManager) (growthStart : Nat) :
    Nat → Nat → Machine → Bool × Machine
  | 0, _, machine => (true, machine)
  | remaining + 1, mappedPages, machine =>
      let (backed, machine) := growPage vmm machine (growthStart + mappedPages * frameSize)
      if backed then growPages vmm growthStart remaining (mappedPages + 1) machine
      else
        (false, { machine with
          memory := unwindPartialGrowth vmm growthStart mappedPages machine.memory })

/-- Pages a growth maps for a layout. -/
def pagesToMap (layout : Layout) : Nat :=
  max (max ((layout.size + (frameSize - 1)) / frameSize) 1) heapGrowthMinPages

/-- Bytes a growth maps for a layout. -/
def growthBytes (layout : Layout) : Nat := pagesToMap layout * frameSize % 2 ^ 64

/-- End of a growth that stays inside the heap region. -/
def growthEnd (heap : KernelHeap) (layout : Layout) : Option Nat :=
  (checkedAdd heap.nextUnmapped (growthBytes layout)).filter (fun stop => stop ≤ heapRegionEnd)

/-- Move the cursor over the mapped pages. -/
def advance (heap : KernelHeap) (machine : Machine) (growthStop : Nat) : KernelHeap :=
  { heap with machine := machine, nextUnmapped := growthStop }

/-- Move the cursor and add the mapped pages to the free list. -/
def finishGrowth (heap : KernelHeap) (machine : Machine) (growthStop bytes : Nat) :
    Except HeapPanic (Bool × KernelHeap) :=
  ((heap.advance machine growthStop).allocator.addFreeRegion heap.nextUnmapped bytes).map
    (fun list => (true, (heap.advance machine growthStop).store list))

/-- Grow the heap for a layout; the flag says whether it succeeded. -/
def grow (heap : KernelHeap) (layout : Layout) : Except HeapPanic (Bool × KernelHeap) :=
  (heap.growthEnd layout).elim (.ok (false, heap)) fun growthStop =>
    if heap.populated then
      let (backed, machine) :=
        growPages heap.vmm heap.nextUnmapped (pagesToMap layout) 0 heap.machine
      if backed then heap.finishGrowth machine growthStop (growthBytes layout)
      else .ok (false, { heap with machine := machine })
    else .ok (false, heap)

/-- Allocate, growing once if no free block fits. -/
def alloc (heap : KernelHeap) (layout : Layout) : Except HeapPanic (Nat × KernelHeap) := do
  let (ptr, list) ← heap.allocator.alloc layout
  let heap := heap.store list
  if ptr ≠ 0 then return (ptr, heap)
  let (grown, heap) ← heap.grow layout
  if !grown then return (0, heap)
  let (ptr, list) ← heap.allocator.alloc layout
  return (ptr, heap.store list)

/-- Return a block to the free list. -/
def dealloc (heap : KernelHeap) (ptr : Nat) (layout : Layout) : Except HeapPanic KernelHeap := do
  let list ← heap.allocator.dealloc ptr layout
  return heap.store list

end KernelHeap

end XyronOS
