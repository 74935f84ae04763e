import XyronOS.Mm.FreeListRefinement
import XyronOS.Mm.HeldFrames
import XyronOS.Mm.KernelHeap

/-!
# The memory behind the heap

The pages of the heap are backed, in order, by a list of held frames: page number
`index` of the region is mapped read-write to the frame at that position. Frames of
a list without repetition do not overlap, so an address of the heap has a byte of
its own and a word written through the tables changes exactly the eight bytes seen
at its address.

The free list therefore lives in the viewed memory as in a memory of its own:
committing what an operation wrote gives the view the operation computed.
-/

namespace XyronOS

open ByteMemory WordBits PageTableEntry VirtAddr Regions LinkedListAllocator

/-- Address of a page of the heap region. -/
def heapPage (index : Nat) : Nat := heapRegionStart + index * frameSize

/-- Addresses of the first pages of the heap region. -/
def heapRange (count : Nat) : Set Nat := Set.Ico heapRegionStart (heapPage count)

/-- Pages of the heap region are told apart by their page numbers. -/
theorem pageNumber_heapPage {left right : Nat} (leftInside : heapPage left < heapRegionEnd)
    (rightInside : heapPage right < heapRegionEnd) :
    pageNumber (heapPage left) = pageNumber (heapPage right) ↔ left = right := by
  simp only [pageNumber, heapPage, heapRegionStart, heapRegionEnd, frameSize] at *
  omega

/-- An address of the heap region lies on the page its offset says. -/
theorem pageNumber_offset {virt : Nat} (lower : heapRegionStart ≤ virt) :
    pageNumber virt = pageNumber (heapPage ((virt - heapRegionStart) / frameSize)) := by
  simp only [pageNumber, heapPage, heapRegionStart, frameSize] at *
  omega

/-- A lookup depends on the page number only. -/
theorem lookup_page (memory : Memory) (root : Nat) {left right : Nat}
    (same : pageNumber left = pageNumber right) :
    lookup memory root left = lookup memory root right := by
  rw [lookup, lookup, (indices_eq_iff left right).mpr same]

/-- The leaf that maps a frame into the heap. -/
def heapLeaf (frame : Nat) : Mapping := ⟨3, newLeaf (PhysAddr.fromFrameNumber frame) .readWrite⟩

/-- The first pages of the heap region are mapped to the listed frames, which are
held. -/
structure Backed (vmm : VirtualMemoryManager) (machine : Machine) (backing : List Nat) : Prop
    extends Held vmm machine backing where
  pages : ∀ index frame, backing[index]? = some frame →
    lookup machine.memory vmm.pml4Phys (heapPage index) = some (heapLeaf frame)
  room : heapPage backing.length ≤ heapRegionEnd

namespace Backed

variable {vmm : VirtualMemoryManager} {machine : Machine} {backing : List Nat}

/-- An address of the mapped range lies on a page with a frame. -/
theorem frame_at {count virt : Nat} (inside : virt ∈ heapRange count) :
    (virt - heapRegionStart) / frameSize < count := by
  simp only [heapRange, heapPage, Set.mem_Ico, frameSize] at *
  omega

/-- Every address of the mapped range has a frame. -/
theorem position {virt : Nat} (inside : virt ∈ heapRange backing.length) :
    ∃ frame, frame ∈ backing ∧
      backing[(virt - heapRegionStart) / frameSize]? = some frame := by
  have bounded := frame_at inside
  exact ⟨backing[(virt - heapRegionStart) / frameSize], List.getElem_mem bounded,
    List.getElem?_eq_getElem bounded⟩

variable (backed : Backed vmm machine backing)

include backed

/-- A held frame has an address that fits an entry. -/
theorem frame_bounded {frame : Nat} (member : frame ∈ backing) :
    PhysAddr.fromFrameNumber frame < 2 ^ 52 :=
  backed.owned.consistent.address_lt
    ((FrameAllocator.mem_usedFrames _ _).mp (backed.used frame member)).1

/-- An address of the heap is mapped by the leaf of its page's frame. -/
theorem lookup_eq {virt frame : Nat} (lower : heapRegionStart ≤ virt)
    (position : backing[(virt - heapRegionStart) / frameSize]? = some frame) :
    lookup machine.memory vmm.pml4Phys virt = some (heapLeaf frame) := by
  rw [lookup_page _ _ (pageNumber_offset lower)]
  exact backed.pages _ frame position

/-- An address of the heap translates into its page's frame. -/
theorem translate_eq {virt frame : Nat} (lower : heapRegionStart ≤ virt)
    (position : backing[(virt - heapRegionStart) / frameSize]? = some frame) :
    vmm.translate machine.memory virt =
      some (PhysAddr.fromFrameNumber frame + virt % frameSize) := by
  have member : frame ∈ backing := List.mem_of_getElem? position
  have aligned : PhysAddr.fromFrameNumber frame % frameSize = 0 := Nat.mul_mod_left _ _
  have offset : virt % frameSize < 2 ^ 12 := Nat.mod_lt _ (by decide)
  rw [backed.owned.translate_eq, backed.lookup_eq lower position, Option.map_some, heapLeaf,
    physical_newLeaf _ _ _ aligned (backed.frame_bounded member), pageOffset_eq]
  exact congrArg some (or_eq_add _ _ 12 aligned offset)

/-- An address of the heap is writable. -/
theorem flagsAt_eq {virt frame : Nat} (lower : heapRegionStart ≤ virt)
    (position : backing[(virt - heapRegionStart) / frameSize]? = some frame) :
    vmm.flagsAt machine.memory virt = some .readWrite := by
  rw [backed.owned.flagsAt_eq, backed.lookup_eq lower position, Option.bind_some, heapLeaf,
    flags_newLeaf]

/-- The pages of the heap are backed one by one: every address of the range translates
into the frame of its page, is writable, and no frame backs two pages, is a page table or
is free. -/
theorem frames :
    ∃ frame : Nat → Nat,
      (∀ virt, heapRegionStart ≤ virt → virt < heapPage backing.length →
        vmm.translate machine.memory virt =
          some (PhysAddr.fromFrameNumber (frame (virt / frameSize)) + virt % frameSize) ∧
        vmm.flagsAt machine.memory virt = some .readWrite ∧
        frame (virt / frameSize) ∈ machine.frames.usedFrames ∧
        frame (virt / frameSize) ∉ machine.frames.freeFrames ∧
        PhysAddr.fromFrameNumber (frame (virt / frameSize)) ∉
          tables machine.memory vmm.pml4Phys) ∧
      ∀ left right, heapRegionStart ≤ left → left < heapPage backing.length →
        heapRegionStart ≤ right → right < heapPage backing.length →
        frame (left / frameSize) = frame (right / frameSize) →
        left / frameSize = right / frameSize := by
  have page (virt : Nat) (lower : heapRegionStart ≤ virt) :
      virt / frameSize - heapRegionStart / frameSize = (virt - heapRegionStart) / frameSize := by
    simp only [heapRegionStart, frameSize] at *
    omega
  have found (virt : Nat) (lower : heapRegionStart ≤ virt)
      (upper : virt < heapPage backing.length) :
      ∃ frame ∈ backing, backing[(virt - heapRegionStart) / frameSize]? = some frame ∧
        backing.getD (virt / frameSize - heapRegionStart / frameSize) 0 = frame := by
    obtain ⟨frame, member, here⟩ := Backed.position ⟨lower, upper⟩
    refine ⟨frame, member, here, ?_⟩
    rw [page virt lower, List.getD_eq_getElem?_getD, here, Option.getD_some]
  refine ⟨fun number => backing.getD (number - heapRegionStart / frameSize) 0, ?_, ?_⟩
  · intro virt lower upper
    obtain ⟨frame, member, here, chosen⟩ := found virt lower upper
    simp only [chosen]
    have used := backed.used frame member
    refine ⟨backed.translate_eq lower here, backed.flagsAt_eq lower here, used, ?_,
      backed.apart frame member⟩
    rw [FrameAllocator.usedFrames_eq, Finset.mem_sdiff] at used
    exact used.2
  · intro left right leftLower leftUpper rightLower rightUpper same
    obtain ⟨frame, _, here, chosen⟩ := found left leftLower leftUpper
    obtain ⟨other, _, there, otherChosen⟩ := found right rightLower rightUpper
    simp only [chosen, otherChosen] at same
    subst same
    have bounded := Backed.frame_at (⟨leftLower, leftUpper⟩ : left ∈ heapRange backing.length)
    have equal := (List.getElem?_inj bounded backed.nodup).mp (here.trans there.symm)
    simp only [heapRegionStart, frameSize] at *
    omega

/-- The byte seen at an address of the heap is one of its page's frame. -/
theorem view_eq {virt frame : Nat} (lower : heapRegionStart ≤ virt)
    (position : backing[(virt - heapRegionStart) / frameSize]? = some frame) :
    view vmm machine.memory virt =
      machine.memory (PhysAddr.fromFrameNumber frame + virt % frameSize) := by
  rw [view, backed.translate_eq lower position, Option.elim_some]

/-- Memory that agrees outside one held frame keeps the heap backed. -/
theorem write {memory : Memory} {frame : Nat} (member : frame ∈ backing)
    (same : ∀ byte, byte ∉ frameBytes (PhysAddr.fromFrameNumber frame) →
      memory byte = machine.memory byte) :
    Backed vmm { machine with memory := memory } backing := by
  have tablesSame : ∀ table ∈ tables machine.memory vmm.pml4Phys, ∀ byte ∈ frameBytes table,
      memory byte = machine.memory byte := by
    intro table reached byte inside
    apply same
    apply frameBytes_disjoint _ table (Nat.mul_mod_left _ _) (backed.owned.aligned table reached) _
      byte inside
    rintro rfl
    exact backed.apart frame member reached
  obtain ⟨held, _, looked⟩ := backed.toHeld.write tablesSame
  refine ⟨held, ?_, backed.room⟩
  intro index other position
  rw [looked]
  exact backed.pages index other position

/-- A value written through the tables on one page of the heap changes the bytes seen
there and no others. Two addresses of one frame are addresses of one page, since no
frame backs two pages. -/
theorem storeThrough_spec {virt width : Nat} (value : Nat)
    (inside : virt ∈ heapRange backing.length) (fits : virt % frameSize + width ≤ frameSize) :
    Backed vmm { machine with memory := storeThrough vmm machine.memory virt width value } backing ∧
      ∀ other ∈ heapRange backing.length,
        view vmm (storeThrough vmm machine.memory virt width value) other =
          store (view vmm machine.memory) virt width value other := by
  obtain ⟨frame, member, here⟩ := position inside
  have lower : heapRegionStart ≤ virt := inside.1
  have stored : storeThrough vmm machine.memory virt width value =
      store machine.memory (PhysAddr.fromFrameNumber frame + virt % frameSize) width value := by
    rw [storeThrough, backed.translate_eq lower here, Option.elim_some]
  have kept : Backed vmm
      { machine with memory := storeThrough vmm machine.memory virt width value } backing := by
    apply backed.write member
    intro byte outside
    simp only [frameBytes, Set.mem_Ico] at outside
    rw [stored, store, if_neg (by omega)]
  refine ⟨kept, ?_⟩
  intro other otherInside
  obtain ⟨otherFrame, otherMember, there⟩ := position otherInside
  have otherLower : heapRegionStart ≤ other := otherInside.1
  rw [kept.view_eq otherLower there, stored]
  simp only [store, backed.view_eq otherLower there]
  by_cases samePage : (other - heapRegionStart) / frameSize = (virt - heapRegionStart) / frameSize
  · have sameFrame : otherFrame = frame := by
      rw [samePage, here] at there
      exact (Option.some.inj there).symm
    have shift : other + virt % frameSize = virt + other % frameSize := by
      simp only [heapRegionStart, frameSize] at *
      omega
    subst sameFrame
    by_cases hit : virt ≤ other ∧ other < virt + width
    · rw [if_pos hit, if_pos (by omega)]
      have offset : PhysAddr.fromFrameNumber otherFrame + other % frameSize -
          (PhysAddr.fromFrameNumber otherFrame + virt % frameSize) = other - virt := by omega
      rw [offset]
    · rw [if_neg hit, if_neg (by omega)]
  · have different : otherFrame ≠ frame := by
      rintro rfl
      have bounded := frame_at otherInside
      exact samePage ((List.getElem?_inj bounded backed.nodup).mp (there.trans here.symm))
    have otherOffset : other % frameSize < frameSize := Nat.mod_lt _ (by decide)
    have missed : ¬ (virt ≤ other ∧ other < virt + width) := by
      simp only [heapRegionStart, frameSize] at *
      omega
    rw [if_neg missed, if_neg]
    simp only [PhysAddr.fromFrameNumber, frameSize] at *
    omega

/-- Committing words written in the heap gives the view in which they were written.
The induction follows the log from its oldest word. -/
theorem commit_spec (words : List (Nat × Nat))
    (inside : ∀ word ∈ words, word.1 % nodeAlign = 0 ∧ word.1 ∈ heapRange backing.length) :
    Backed vmm { machine with memory := commit vmm words machine.memory } backing ∧
      ∀ other ∈ heapRange backing.length,
        view vmm (commit vmm words machine.memory) other =
          replay words (view vmm machine.memory) other := by
  induction words with
  | nil => exact ⟨backed, fun _ _ => rfl⟩
  | cons word words inductionHypothesis =>
    obtain ⟨earlier, seen⟩ := inductionHypothesis
      (fun other present => inside other (List.mem_cons_of_mem _ present))
    obtain ⟨aligned, within⟩ := inside word List.mem_cons_self
    have fits : word.1 % frameSize + 8 ≤ frameSize := by
      simp only [nodeAlign, frameSize] at *
      omega
    obtain ⟨kept, stored⟩ := earlier.storeThrough_spec word.2 within fits
    refine ⟨kept, ?_⟩
    intro other otherInside
    have first := stored other otherInside
    simp only [commit, replay, List.foldr_cons] at seen first ⊢
    rw [first]
    simp only [store64, store, seen other otherInside]

/-- Memory in which the backing frames hold the same bytes is seen the same. -/
theorem view_congr {after : Machine} {more : List Nat}
    (extended : Backed vmm after (backing ++ more))
    (same : ∀ frame ∈ backing, ∀ byte ∈ frameBytes (PhysAddr.fromFrameNumber frame),
      after.memory byte = machine.memory byte) {virt : Nat}
    (inside : virt ∈ heapRange backing.length) :
    view vmm after.memory virt = view vmm machine.memory virt := by
  obtain ⟨frame, member, here⟩ := position inside
  have there : (backing ++ more)[(virt - heapRegionStart) / frameSize]? = some frame := by
    rw [List.getElem?_append_left (frame_at inside)]
    exact here
  rw [extended.view_eq inside.1 there, backed.view_eq inside.1 here]
  apply same frame member
  have offset : virt % frameSize < frameSize := Nat.mod_lt _ (by decide)
  simp only [frameBytes, Set.mem_Ico]
  omega

end Backed

/-- Taking over an operation that wrote inside the heap keeps the heap backed and the
list represented. -/
theorem KernelHeap.store_spec {heap : KernelHeap} {backing : List Nat} {allowed : Set Nat}
    {list : LinkedListAllocator} {nodes : List Region}
    (backed : Backed heap.vmm heap.machine backing) (wrote : Wrote allowed heap.allocator list)
    (within : allowed ⊆ heapRange backing.length) (represents : Represents list nodes)
    (listed : bytes nodes ⊆ heapRange backing.length) :
    Backed heap.vmm (heap.store list).machine backing ∧
      Represents (heap.store list).allocator nodes := by
  obtain ⟨words, logged, stored, inside⟩ := wrote
  have log : list.written = words := by
    rw [logged]
    exact List.append_nil words
  have aligned : ∀ word ∈ words, word.1 % nodeAlign = 0 ∧ word.1 ∈ heapRange backing.length := by
    intro word member
    obtain ⟨multiple, free⟩ := inside word member
    exact ⟨multiple, within (free ⟨Nat.le_refl _, by omega⟩)⟩
  obtain ⟨kept, seen⟩ := backed.commit_spec words aligned
  rw [← log] at kept seen
  refine ⟨kept, represents.congr rfl ?_⟩
  intro byte free
  rw [stored, ← log]
  exact seen byte (listed free)

end XyronOS
