import XyronOS.Library.ByteMemory
import XyronOS.Library.FirstFit

/-!
# The linked-list allocator

The free list as the kernel keeps it: a sentinel outside the managed memory and,
in the first sixteen bytes of every free block, the block's size and the address
of the next one. Insertion walks the list by address and merges with the two
neighbours by rewriting headers in place; allocation unlinks the first block that
fits and inserts the remainders again.

Arithmetic wraps at 64 bits, as the release build has it. A loop over the list is
bounded by the number of addresses; running past that bound is reported as
divergence, next to the assertions of the source. Every word written to memory is
logged with its value, so that what the allocator writes can be stated and
replayed.
-/

namespace XyronOS

open ByteMemory WordBits Regions FirstFit

/-- Largest size of an object, `isize::MAX`. -/
def isizeMax : Nat := 2 ^ 63 - 1

/-- A requested size and alignment, with what the type of the language library
guarantees: the alignment is a power of two and the rounded size is an object size. -/
structure Layout where
  size : Nat
  align : Nat
  power : ∃ bits < 64, align = 2 ^ bits
  valid : roundUp size align ≤ isizeMax
deriving DecidableEq

/-- Size of a free-list header. -/
def nodeSize : Nat := 16

/-- Alignment of a free-list header. -/
def nodeAlign : Nat := 8

/-- How an operation can stop without a result: the panic of a layout that cannot
be padded, the two assertions on an added region, or a loop that does not end. -/
inductive HeapPanic where
  | layoutOverflow
  | misalignedRegion
  | shortRegion
  | diverged
deriving DecidableEq, Repr

/-- Rounding up to an alignment by adding and masking. -/
def alignUp (addr align : Nat) : Nat :=
  wrappingSub (wrappingAdd addr align) 1 &&& complement (wrappingSub align 1)

/-- The size and alignment a layout is served with. -/
def adjustedSizeAlign (layout : Layout) : Except HeapPanic (Nat × Nat) :=
  let align := max layout.align nodeAlign
  if roundUp layout.size align > isizeMax then .error .layoutOverflow
  else .ok (max (roundUp layout.size align) nodeSize, align)

/-- A header: the block's size and the next header's address, null at the end. -/
structure FreeListNode where
  size : Nat
  next : Nat
deriving DecidableEq, Repr

/-- A pointer to the sentinel or to a header in memory. -/
inductive NodePtr where
  | head
  | node (address : Nat)
deriving DecidableEq, Repr

/-- The sentinel, the memory the list runs through, and the words written to that
memory, latest first. -/
structure LinkedListAllocator where
  head : FreeListNode
  memory : Memory
  written : List (Nat × Nat)

namespace LinkedListAllocator

/-- An allocator without free memory, over a given memory. -/
def new (memory : Memory) : LinkedListAllocator := ⟨⟨0, 0⟩, memory, []⟩

/-- Read the size behind a pointer. -/
def size (heap : LinkedListAllocator) : NodePtr → Nat
  | .head => heap.head.size
  | .node address => load64 heap.memory address

/-- Read the link behind a pointer. -/
def next (heap : LinkedListAllocator) : NodePtr → Nat
  | .head => heap.head.next
  | .node address => load64 heap.memory (address + 8)

/-- Write one word of memory. -/
def writeWord (heap : LinkedListAllocator) (address value : Nat) : LinkedListAllocator :=
  { heap with memory := store64 heap.memory address value
              written := (address, value) :: heap.written }

/-- Write the size behind a pointer. -/
def setSize (heap : LinkedListAllocator) (pointer : NodePtr) (value : Nat) : LinkedListAllocator :=
  match pointer with
  | .head => { heap with head := { heap.head with size := value } }
  | .node address => heap.writeWord address value

/-- Write the link behind a pointer. -/
def setNext (heap : LinkedListAllocator) (pointer : NodePtr) (value : Nat) : LinkedListAllocator :=
  match pointer with
  | .head => { heap with head := { heap.head with next := value } }
  | .node address => heap.writeWord (address + 8) value

/-- Bound on the length of a walk: there are no more addresses than this. -/
def walkBound : Nat := 2 ^ 64

/-- Advance to the last node whose address is below `addr`. -/
def walk (heap : LinkedListAllocator) (addr : Nat) : Nat → NodePtr → Option NodePtr
  | 0, _ => none
  | fuel + 1, prev =>
      if heap.next prev ≠ 0 ∧ heap.next prev < addr then
        walk heap addr fuel (.node (heap.next prev))
      else some prev

/-- Whether a pointer is a real block that ends at `addr`. -/
def endsAt (heap : LinkedListAllocator) (addr : Nat) : NodePtr → Bool
  | .head => false
  | .node address => decide (wrappingAdd address (heap.size (.node address)) = addr)

/-- Link a region between `prev` and its successor, merging where they touch. -/
def splice (heap : LinkedListAllocator) (prev : NodePtr) (addr size : Nat) : LinkedListAllocator :=
  let next := heap.next prev
  let mergeBackward := heap.endsAt addr prev
  let mergeForward := decide (next ≠ 0 ∧ wrappingAdd addr size = next)
  match mergeBackward, mergeForward with
  | true, true =>
      let heap := heap.setSize prev
        (wrappingAdd (heap.size prev) (wrappingAdd size (heap.size (.node next))))
      heap.setNext prev (heap.next (.node next))
  | true, false => heap.setSize prev (wrappingAdd (heap.size prev) size)
  | false, true =>
      let heap := heap.setSize (.node addr) (wrappingAdd size (heap.size (.node next)))
      let heap := heap.setNext (.node addr) (heap.next (.node next))
      heap.setNext prev addr
  | false, false =>
      let heap := heap.setSize (.node addr) size
      let heap := heap.setNext (.node addr) next
      heap.setNext prev addr

/-- Add a region to the free list. -/
def addFreeRegion (heap : LinkedListAllocator) (addr size : Nat) :
    Except HeapPanic LinkedListAllocator :=
  if addr % nodeAlign ≠ 0 then .error .misalignedRegion
  else if size < nodeSize then .error .shortRegion
  else
    match heap.walk addr walkBound .head with
    | none => .error .diverged
    | some prev => .ok (heap.splice prev addr size)

/-- The block the search stopped at, and where the request lies in it. -/
structure Fit where
  prev : NodePtr
  regionStart : Nat
  regionEnd : Nat
  allocStart : Nat
  allocEnd : Nat
deriving DecidableEq, Repr

/-- Whether the block at `current` can hold the request, and where. -/
def tryFit (heap : LinkedListAllocator) (size align : Nat) (prev : NodePtr) (current : Nat) :
    Option Fit :=
  let regionEnd := wrappingAdd current (heap.size (.node current))
  let allocStart := alignUp current align
  (checkedAdd allocStart size).bind fun allocEnd =>
    if allocEnd ≤ regionEnd then some ⟨prev, current, regionEnd, allocStart, allocEnd⟩ else none

/-- Search for the first block that can hold the request; the outer option is the
bound on the walk. -/
def findFit (heap : LinkedListAllocator) (size align : Nat) :
    Nat → NodePtr → Nat → Option (Option Fit)
  | 0, _, _ => none
  | fuel + 1, prev, current =>
      if current = 0 then some none
      else
        (heap.tryFit size align prev current).elim
          (findFit heap size align fuel (.node current) (heap.next (.node current)))
          (fun fit => some (some fit))

/-- Put a remainder back if it can hold a header. -/
def returnGap (heap : LinkedListAllocator) (addr gap : Nat) :
    Except HeapPanic LinkedListAllocator :=
  if gap ≥ nodeSize then heap.addFreeRegion addr gap else .ok heap

/-- Unlink the found block and put its remainders back. -/
def takeFit (heap : LinkedListAllocator) (fit : Fit) :
    Except HeapPanic (Nat × LinkedListAllocator) := do
  let heap := heap.setNext fit.prev (heap.next (.node fit.regionStart))
  let heap ← heap.returnGap fit.regionStart (wrappingSub fit.allocStart fit.regionStart)
  let heap ← heap.returnGap fit.allocEnd (wrappingSub fit.regionEnd fit.allocEnd)
  return (fit.allocStart, heap)

/-- First-fit allocation; the null address if no block can hold the request. -/
def alloc (heap : LinkedListAllocator) (layout : Layout) :
    Except HeapPanic (Nat × LinkedListAllocator) := do
  let (size, align) ← adjustedSizeAlign layout
  match heap.findFit size align walkBound .head heap.head.next with
  | none => .error .diverged
  | some none => return (0, heap)
  | some (some fit) => heap.takeFit fit

/-- Return a block to the free list. -/
def dealloc (heap : LinkedListAllocator) (ptr : Nat) (layout : Layout) :
    Except HeapPanic LinkedListAllocator := do
  let (size, _) ← adjustedSizeAlign layout
  heap.addFreeRegion ptr size

/-- The blocks met by following the links, up to a bound. -/
def decode (memory : Memory) : Nat → Nat → List Region
  | 0, _ => []
  | fuel + 1, pointer =>
      if pointer = 0 then []
      else ⟨pointer, load64 memory pointer⟩ :: decode memory fuel (load64 memory (pointer + 8))

/-- The free list read from memory. -/
def nodes (heap : LinkedListAllocator) : List Region :=
  decode heap.memory walkBound heap.head.next

end LinkedListAllocator

end XyronOS
