import XyronOS.Mm.HeapBacking

/-!
# Growing the heap

A growth takes frames and adds tables, page by page. `Spent` accounts for both: the
free frames are those of the start without the frames taken for pages and without
the tables linked. `Growing` is the state between two pages: the heap is backed one
page further for each frame taken, and every other lookup is that of the start.

A failing page leaves `Growing` as it was, with perhaps more tables. Unwinding then
removes the new pages again, so every lookup is that of the start; the frames taken
stay in the account.
-/

namespace XyronOS

open ByteMemory WordBits PageTableEntry VirtAddr KernelHeap

/-- Between two machines the frames `fresh` were taken and the frames `added` became
tables; no byte outside the tables changed. -/
structure Spent (vmm : VirtualMemoryManager) (origin machine : Machine) (fresh : List Nat)
    (added : Finset Nat) : Prop where
  tables : tables machine.memory vmm.pml4Phys =
    tables origin.memory vmm.pml4Phys ∪ PhysAddr.fromFrameNumber '' added
  free : machine.frames.freeFrames = origin.frames.freeFrames \ (fresh.toFinset ∪ added)
  taken : fresh.toFinset ∪ added ⊆ origin.frames.freeFrames
  nodup : fresh.Nodup
  apart : Disjoint fresh.toFinset added
  bytes : ∀ target, (∀ table ∈ XyronOS.tables machine.memory vmm.pml4Phys,
    target ∉ frameBytes table) → machine.memory target = origin.memory target

namespace Spent

variable {vmm : VirtualMemoryManager} {origin machine after : Machine} {fresh : List Nat}
  {added : Finset Nat}

/-- Nothing is spent at the start. -/
theorem refl (vmm : VirtualMemoryManager) (origin : Machine) : Spent vmm origin origin [] ∅ :=
  ⟨by simp, by simp, by simp, List.nodup_nil, by simp, fun _ _ => rfl⟩

variable (spent : Spent vmm origin machine fresh added)

include spent

/-- A frame that is free now was neither taken nor made a table. -/
theorem unspent {frame : Nat} (free : frame ∈ machine.frames.freeFrames) :
    frame ∈ origin.frames.freeFrames ∧ frame ∉ fresh ∧ frame ∉ added := by
  rw [spent.free, Finset.mem_sdiff, Finset.mem_union, List.mem_toFinset] at free
  tauto

/-- An update of the tables spends the frames it adds. -/
theorem update {more : Finset Nat} (updated : Updates vmm machine after more) :
    Spent vmm origin after fresh (added ∪ more) := by
  have new {frame : Nat} (member : frame ∈ more) :=
    spent.unspent (Finset.mem_filter.mp (updated.fresh member)).1
  refine ⟨?_, ?_, ?_, spent.nodup, ?_, ?_⟩
  · rw [updated.tables, spent.tables, Finset.coe_union, Set.image_union, Set.union_assoc]
  · rw [updated.free, spent.free, sdiff_sdiff_left, Finset.sup_eq_union, Finset.union_assoc]
  · rw [← Finset.union_assoc]
    exact Finset.union_subset spent.taken (fun frame member => (new member).1)
  · rw [Finset.disjoint_union_right]
    refine ⟨spent.apart, ?_⟩
    rw [Finset.disjoint_right]
    intro frame member old
    exact (new member).2.1 (List.mem_toFinset.mp old)
  · intro target outside
    rw [updated.bytes target outside]
    apply spent.bytes
    intro table reached
    exact outside table (updated.tables.superset (.inl reached))

/-- Taking a frame spends it. -/
theorem take {frame : Nat} {frames : FrameAllocator}
    (takes : machine.frames.Takes frame frames) :
    Spent vmm origin { machine with frames := frames } (fresh ++ [frame]) added := by
  obtain ⟨free, notFresh, notAdded⟩ := spent.unspent takes.free
  refine ⟨spent.tables, ?_, ?_, ?_, ?_, spent.bytes⟩
  · rw [takes.freeFrames, spent.free]
    ext other
    simp only [Finset.mem_erase, Finset.mem_sdiff, Finset.mem_union, List.mem_toFinset,
      List.mem_append, List.mem_singleton]
    tauto
  · intro other member
    rw [List.toFinset_append, Finset.mem_union, Finset.mem_union] at member
    rcases member with (old | new) | table
    · exact spent.taken (Finset.mem_union_left _ old)
    · rw [List.mem_toFinset, List.mem_singleton] at new
      exact new ▸ free
    · exact spent.taken (Finset.mem_union_right _ table)
  · exact List.nodup_append.mpr ⟨spent.nodup, List.nodup_singleton _, by
      rintro other old _ new rfl
      rw [List.mem_singleton] at new
      exact notFresh (new ▸ old)⟩
  · rw [List.toFinset_append, Finset.disjoint_union_left]
    refine ⟨spent.apart, ?_⟩
    rw [Finset.disjoint_left]
    intro other new table
    rw [List.mem_toFinset, List.mem_singleton] at new
    exact notAdded (new ▸ table)

/-- The account: free frames before are the free ones after, the taken ones and the
new tables. -/
theorem count : origin.frames.freeFrames.card =
    machine.frames.freeFrames.card + fresh.length + added.card := by
  have whole := Finset.card_sdiff_add_card_eq_card spent.taken
  rw [← spent.free, Finset.card_union_of_disjoint spent.apart,
    List.toFinset_card_of_nodup spent.nodup] at whole
  omega

end Spent

section Page

variable {vmm : VirtualMemoryManager} {machine : Machine}

/-- Tables added between taking a frame and giving it back are all that remains. -/
theorem Updates.give_back {middle : Machine} {frame : Nat} {frames released : FrameAllocator}
    {added : Finset Nat} (takes : machine.frames.Takes frame frames)
    (updated : Updates vmm { machine with frames := frames } middle added)
    (releases : middle.frames.Releases frame released)
    (owned : Owned vmm { middle with frames := released }) :
    Updates vmm machine { middle with frames := released } added where
  owned := owned
  tables := updated.tables
  fresh := by
    intro other member
    have low : other ∈ frames.freeBelow identityMapLimit := updated.fresh member
    rw [takes.freeBelow] at low
    exact Finset.mem_of_mem_erase low
  free := by
    have absent : frame ∉ added := by
      intro member
      have low : frame ∈ frames.freeBelow identityMapLimit := updated.fresh member
      rw [takes.freeBelow] at low
      exact Finset.notMem_erase frame _ low
    have middleFree : middle.frames.freeFrames = frames.freeFrames \ added := updated.free
    rw [releases.freeFrames, middleFree, takes.freeFrames, ← Finset.insert_sdiff_of_notMem _ absent,
      Finset.insert_erase takes.free]
  total := releases.totalFrames.trans (updated.total.trans takes.totalFrames)
  bytes := updated.bytes

/-- Every outcome of backing one page: a free frame is taken, tables are added and the
page is mapped to it; or only tables are added. -/
theorem Owned.growPage_cases (owned : Owned vmm machine) {virt : Nat}
    (aligned : virt % frameSize = 0) :
    (∃ frame frames after added, growPage vmm machine virt = (true, after) ∧
      machine.frames.scanFrom = some frame ∧ machine.frames.Takes frame frames ∧
      Updates vmm { machine with frames := frames } after added ∧
      added.card = missingTables machine.memory vmm.pml4Phys virt ∧
      lookup machine.memory vmm.pml4Phys virt = none ∧
      ∀ other, lookup after.memory vmm.pml4Phys other =
        if pageNumber other = pageNumber virt then some (heapLeaf frame)
        else lookup machine.memory vmm.pml4Phys other) ∨
    (∃ after added, growPage vmm machine virt = (false, after) ∧ Updates vmm machine after added ∧
      (∀ other, lookup after.memory vmm.pml4Phys other =
        lookup machine.memory vmm.pml4Phys other) ∧
      (machine.frames.scanFrom = none ∨ lookup machine.memory vmm.pml4Phys virt ≠ none ∨
        ∃ frame, machine.frames.scanFrom = some frame ∧
          ((machine.frames.freeBelow identityMapLimit).erase frame).card <
            missingTables machine.memory vmm.pml4Phys virt)) := by
  rcases FrameAllocator.allocate_cases owned.consistent with
    ⟨frame, frames, allocated, scanned, takes⟩ | ⟨refused, scanned, _⟩
  · have held : Held vmm { machine with frames := frames } [frame] :=
      (Held.mk owned List.nodup_nil (by simp) (by simp)).take takes
    have shape : growPage vmm machine virt = afterMap (PhysAddr.fromFrameNumber frame)
        (vmm.map { machine with frames := frames } virt (PhysAddr.fromFrameNumber frame)
          .readWrite) := by
      rw [growPage, allocated, afterAllocate]
    rcases result : vmm.map { machine with frames := frames } virt
      (PhysAddr.fromFrameNumber frame) .readWrite with ⟨error | _, middle⟩
    · right
      obtain ⟨looked, added, updated⟩ := held.owned.map_error result
      have stillHeld := held.update updated
      obtain ⟨released, freed, releases⟩ := FrameAllocator.deallocate_used
        updated.owned.consistent (stillHeld.used frame List.mem_cons_self)
      have owned' := (stillHeld.release List.mem_cons_self releases).owned
      refine ⟨{ middle with frames := released }, added, ?_, updated.give_back takes releases owned',
        looked, .inr ?_⟩
      · rw [shape, result, afterMap, freed]
      · rcases held.owned.map_error_cause result aligned (Nat.mul_mod_left _ _) with mapped | short
        · exact .inl mapped
        · refine .inr ⟨frame, scanned, ?_⟩
          rw [← takes.freeBelow]
          exact short
    · left
      obtain ⟨_, _, unmapped, looked, added, updated, count⟩ := held.owned.map_ok result
      exact ⟨frame, frames, middle, added, by rw [shape, result, afterMap], scanned, takes, updated,
        count, unmapped, looked⟩
  · right
    refine ⟨machine, ∅, ?_, Updates.refl owned, fun _ => rfl, .inl scanned⟩
    rw [growPage, refused, afterAllocate]

/-- A page cannot be backed exactly if there is no free frame, the page is mapped
already, or the low frames left beside the one taken do not cover its missing tables. -/
theorem Owned.growPage_false_iff (owned : Owned vmm machine) {virt : Nat}
    (aligned : virt % frameSize = 0) :
    (growPage vmm machine virt).1 = false ↔
      machine.frames.scanFrom = none ∨ lookup machine.memory vmm.pml4Phys virt ≠ none ∨
        ∃ frame, machine.frames.scanFrom = some frame ∧
          ((machine.frames.freeBelow identityMapLimit).erase frame).card <
            missingTables machine.memory vmm.pml4Phys virt := by
  rcases owned.growPage_cases aligned with
    ⟨frame, frames, after, added, grown, scanned, takes, updated, count, free, _⟩ |
    ⟨after, added, stopped, _, _, cause⟩
  · have enough : missingTables machine.memory vmm.pml4Phys virt ≤
        ((machine.frames.freeBelow identityMapLimit).erase frame).card := by
      rw [← count, ← takes.freeBelow]
      exact Finset.card_le_card updated.fresh
    rw [grown, scanned, free]
    constructor
    · intro impossible
      cases impossible
    · rintro (impossible | impossible | ⟨other, same, short⟩)
      · cases impossible
      · exact absurd rfl impossible
      · cases same
        omega
  · rw [stopped]
    exact ⟨fun _ => cause, fun _ => rfl⟩

end Page

/-- Between two pages of a growth: each frame taken backs one more page, those pages
had no mapping, and every other lookup is that of the start. -/
structure Growing (vmm : VirtualMemoryManager) (origin machine : Machine) (backing fresh : List Nat)
    (added : Finset Nat) : Prop where
  backed : Backed vmm machine (backing ++ fresh)
  unmapped : ∀ index < fresh.length,
    lookup origin.memory vmm.pml4Phys (heapPage (backing.length + index)) = none
  elsewhere : ∀ virt, (∀ index < fresh.length,
      pageNumber virt ≠ pageNumber (heapPage (backing.length + index))) →
    lookup machine.memory vmm.pml4Phys virt = lookup origin.memory vmm.pml4Phys virt
  spent : Spent vmm origin machine fresh added

/-- A growth that was undone: the heap is backed as at the start and every lookup is
that of the start; the frames taken are still spent. -/
structure Unwound (vmm : VirtualMemoryManager) (origin machine : Machine) (backing fresh : List Nat)
    (added : Finset Nat) : Prop where
  backed : Backed vmm machine backing
  lookups : ∀ virt, lookup machine.memory vmm.pml4Phys virt =
    lookup origin.memory vmm.pml4Phys virt
  spent : Spent vmm origin machine fresh added

/-- Pages of a growth inside the region start at multiples of the page size. -/
theorem heapPage_add (base index : Nat) :
    heapPage base + index * frameSize = heapPage (base + index) := by
  simp only [heapPage, Nat.add_mul, Nat.add_assoc]

theorem heapPage_aligned (index : Nat) : heapPage index % frameSize = 0 := by
  simp only [heapPage, heapRegionStart, frameSize]
  omega

theorem heapPage_lt {left right : Nat} (less : left < right) : heapPage left < heapPage right := by
  simp only [heapPage, frameSize]
  omega

/-- A page of the region has another number than the pages before it. -/
theorem pageNumber_ne_of_lt {index last : Nat} (earlier : index < last)
    (room : heapPage (last + 1) ≤ heapRegionEnd) :
    pageNumber (heapPage index) ≠ pageNumber (heapPage last) := by
  have inside : heapPage last < heapRegionEnd :=
    Nat.lt_of_lt_of_le (heapPage_lt (Nat.lt_succ_self _)) room
  rw [Ne, pageNumber_heapPage (Nat.lt_trans (heapPage_lt earlier) inside) inside]
  exact Nat.ne_of_lt earlier

namespace Growing

variable {vmm : VirtualMemoryManager} {origin machine : Machine} {backing fresh : List Nat}
  {added : Finset Nat}

/-- A growth starts with nothing taken. -/
theorem initial (backed : Backed vmm origin backing) : Growing vmm origin origin backing [] ∅ where
  backed := by rwa [List.append_nil]
  unmapped := by simp
  elsewhere _ _ := rfl
  spent := Spent.refl vmm origin

variable (growing : Growing vmm origin machine backing fresh added)

include growing

/-- A page that fails may add tables and changes nothing else. -/
theorem failed {after : Machine} {more : Finset Nat} (updated : Updates vmm machine after more)
    (looked : ∀ other, lookup after.memory vmm.pml4Phys other =
      lookup machine.memory vmm.pml4Phys other) :
    Growing vmm origin after backing fresh (added ∪ more) where
  backed := by
    refine ⟨growing.backed.toHeld.update updated, ?_, growing.backed.room⟩
    intro index frame position
    rw [looked]
    exact growing.backed.pages index frame position
  unmapped := growing.unmapped
  elsewhere virt apart := (looked virt).trans (growing.elsewhere virt apart)
  spent := growing.spent.update updated

/-- A page that succeeds is backed by the frame taken for it. -/
theorem backed_page {frame : Nat} {frames : FrameAllocator} {after : Machine} {more : Finset Nat}
    (room : heapPage (backing.length + fresh.length + 1) ≤ heapRegionEnd)
    (takes : machine.frames.Takes frame frames)
    (updated : Updates vmm { machine with frames := frames } after more)
    (free : lookup machine.memory vmm.pml4Phys (heapPage (backing.length + fresh.length)) = none)
    (looked : ∀ other, lookup after.memory vmm.pml4Phys other =
      if pageNumber other = pageNumber (heapPage (backing.length + fresh.length)) then
        some (heapLeaf frame)
      else lookup machine.memory vmm.pml4Phys other) :
    Growing vmm origin after backing (fresh ++ [frame]) (added ∪ more) := by
  have held : Held vmm after (backing ++ (fresh ++ [frame])) := by
    apply ((growing.backed.toHeld.take takes).update updated).sublist
    rw [← List.append_assoc]
    exact (List.perm_append_singleton frame (backing ++ fresh)).subperm
  have size : (backing ++ fresh).length = backing.length + fresh.length := List.length_append
  refine ⟨⟨held, ?_, ?_⟩, ?_, ?_, (growing.spent.take takes).update updated⟩
  · intro index other position
    rw [← List.append_assoc] at position
    rw [looked]
    by_cases old : index < backing.length + fresh.length
    · rw [List.getElem?_append_left (by omega)] at position
      rw [if_neg (pageNumber_ne_of_lt old room)]
      exact growing.backed.pages index other position
    · rw [List.getElem?_append_right (by omega), List.getElem?_singleton] at position
      split at position
      · have last : index = backing.length + fresh.length := by omega
        rw [last, if_pos rfl, Option.some.inj position]
      · cases position
  · simp only [List.length_append, List.length_singleton]
    exact room
  · intro index inside
    rw [List.length_append, List.length_singleton] at inside
    by_cases old : index < fresh.length
    · exact growing.unmapped index old
    · have last : index = fresh.length := by omega
      rw [last, ← growing.elsewhere _ (fun earlier less =>
        (pageNumber_ne_of_lt (Nat.add_lt_add_left less _) room).symm)]
      exact free
  · intro virt apart
    rw [List.length_append, List.length_singleton] at apart
    rw [looked, if_neg (apart fresh.length (Nat.lt_succ_self _))]
    exact growing.elsewhere virt (fun index less => apart index (Nat.lt_succ_of_lt less))

end Growing

/-- Unmapping mapped pages of the heap removes exactly them. The induction follows
the loop, whose last iteration unmaps the last page. -/
theorem Owned.unwind_spec {vmm : VirtualMemoryManager} {machine : Machine} (owned : Owned vmm machine)
    (base count : Nat) (room : heapPage (base + count) ≤ heapRegionEnd)
    (mapped : ∀ index < count, ∃ entry,
      lookup machine.memory vmm.pml4Phys (heapPage (base + index)) = some ⟨3, entry⟩) :
    Updates vmm machine { machine with
        memory := unwindPartialGrowth vmm (heapPage base) count machine.memory } ∅ ∧
      ∀ virt, lookup (unwindPartialGrowth vmm (heapPage base) count machine.memory) vmm.pml4Phys
          virt =
        if ∃ index < count, pageNumber virt = pageNumber (heapPage (base + index)) then none
        else lookup machine.memory vmm.pml4Phys virt := by
  induction count with
  | zero => exact ⟨Updates.refl owned, by simp [unwindPartialGrowth]⟩
  | succ count inductionHypothesis =>
    obtain ⟨updated, looked⟩ := inductionHypothesis
      (Nat.le_trans (Nat.le_of_lt (heapPage_lt (Nat.lt_succ_self _))) room)
      (fun index less => mapped index (Nat.lt_succ_of_lt less))
    have step : unwindPartialGrowth vmm (heapPage base) (count + 1) machine.memory =
        (vmm.unmap (unwindPartialGrowth vmm (heapPage base) count machine.memory)
          (heapPage (base + count))).2 := by
      rw [unwindPartialGrowth, List.range_succ, List.foldl_append, List.foldl_cons, List.foldl_nil,
        heapPage_add]
      rfl
    generalize unwindPartialGrowth vmm (heapPage base) count machine.memory = memory at *
    have new : ¬ ∃ index < count,
        pageNumber (heapPage (base + count)) = pageNumber (heapPage (base + index)) := by
      rintro ⟨index, less, same⟩
      exact pageNumber_ne_of_lt (Nat.add_lt_add_left less base) room same.symm
    obtain ⟨entry, page⟩ := mapped count (Nat.lt_succ_self _)
    have present : lookup memory vmm.pml4Phys (heapPage (base + count)) = some ⟨3, entry⟩ := by
      rw [looked, if_neg new]
      exact page
    have succeeds : ∃ phys memory', vmm.unmap memory (heapPage (base + count)) =
        (.ok phys, memory') := by
      rcases updated.owned.unmap_cases (heapPage (base + count)) with
        ⟨_, _, result, _⟩ | ⟨_, _, _, refused⟩
      · exact ⟨_, _, result⟩
      · exact absurd present (refused (heapPage_aligned _) entry)
    obtain ⟨phys, memory', result⟩ := succeeds
    obtain ⟨_, _, unmapped, removed⟩ := updated.owned.unmap_ok result
    rw [result] at step
    rw [step]
    refine ⟨by simpa using updated.trans removed, ?_⟩
    intro virt
    have upTo : (∃ index < count + 1, pageNumber virt = pageNumber (heapPage (base + index))) ↔
        pageNumber virt = pageNumber (heapPage (base + count)) ∨
          ∃ index < count, pageNumber virt = pageNumber (heapPage (base + index)) := by
      simp only [Nat.lt_succ_iff_lt_or_eq, or_and_right, exists_or, exists_eq_left]
      exact or_comm
    rw [unmapped, looked]
    simp only [upTo]
    by_cases here : pageNumber virt = pageNumber (heapPage (base + count))
    · simp only [here, true_or, if_true]
    · simp only [here, false_or, if_false]

namespace Growing

variable {vmm : VirtualMemoryManager} {origin machine : Machine} {backing fresh : List Nat}
  {added : Finset Nat} (growing : Growing vmm origin machine backing fresh added)

include growing

/-- Unwinding a growth restores every lookup. -/
theorem unwind : Unwound vmm origin { machine with
    memory := unwindPartialGrowth vmm (heapPage backing.length) fresh.length machine.memory }
    backing fresh added := by
  have size : (backing ++ fresh).length = backing.length + fresh.length := List.length_append
  have room := growing.backed.room
  rw [size] at room
  have mapped : ∀ index < fresh.length, ∃ entry, lookup machine.memory vmm.pml4Phys
      (heapPage (backing.length + index)) = some ⟨3, entry⟩ := by
    intro index inside
    have position : (backing ++ fresh)[backing.length + index]? = some fresh[index] := by
      rw [List.getElem?_append_right (Nat.le_add_right _ _), Nat.add_sub_cancel_left,
        List.getElem?_eq_getElem inside]
    exact ⟨_, growing.backed.pages _ _ position⟩
  obtain ⟨updated, looked⟩ := growing.backed.owned.unwind_spec backing.length fresh.length room mapped
  have held : Held vmm { machine with
      memory := unwindPartialGrowth vmm (heapPage backing.length) fresh.length machine.memory }
      backing :=
    (growing.backed.toHeld.update updated).sublist (List.sublist_append_left _ _).subperm
  refine ⟨⟨held, ?_, ?_⟩, ?_, by simpa using growing.spent.update updated⟩
  · intro index frame position
    have inside : index < backing.length := (List.getElem?_eq_some_iff.mp position).1
    rw [looked, if_neg]
    · apply growing.backed.pages
      rw [List.getElem?_append_left inside]
      exact position
    · rintro ⟨later, less, same⟩
      apply pageNumber_ne_of_lt (Nat.lt_of_lt_of_le inside (Nat.le_add_right _ later)) _ same
      exact Nat.le_trans (by simp only [heapPage, frameSize]; omega) room
  · exact Nat.le_trans (by simp only [heapPage, frameSize]; omega) room
  · intro virt
    rw [looked]
    split
    · rename_i fresh'
      obtain ⟨index, inside, same⟩ := fresh'
      rw [lookup_page _ _ same, growing.unmapped index inside]
    · rename_i other
      exact growing.elsewhere virt (fun index inside same => other ⟨index, inside, same⟩)

omit growing in
/-- After a page that succeeds, the loop goes on with one frame more. -/
theorem growPages_next {base : Nat} {after : Machine} (frame remaining : Nat)
    (grown : growPage vmm machine (heapPage (base + fresh.length)) = (true, after)) :
    growPages vmm (heapPage base) (remaining + 1) fresh.length machine =
      growPages vmm (heapPage base) remaining (fresh ++ [frame]).length after := by
  rw [growPages, heapPage_add, grown, List.length_append, List.length_singleton]
  rfl

/-- Every outcome of the remaining pages: all of them are backed, or one fails and
those backed before it are unwound. Nothing more was taken exactly if the first page
failed. The induction is on the remaining pages. -/
theorem growPages_cases (remaining : Nat)
    (room : heapPage (backing.length + fresh.length + remaining) ≤ heapRegionEnd) :
    (∃ more linked after,
      growPages vmm (heapPage backing.length) remaining fresh.length machine = (true, after) ∧
      more.length = fresh.length + remaining ∧ Growing vmm origin after backing more linked) ∨
    (∃ more linked after,
      growPages vmm (heapPage backing.length) remaining fresh.length machine = (false, after) ∧
      fresh.length ≤ more.length ∧
      (more.length = fresh.length ↔
        (growPage vmm machine (heapPage (backing.length + fresh.length))).1 = false) ∧
      Unwound vmm origin after backing more linked) := by
  induction remaining generalizing machine fresh added with
  | zero => exact .inl ⟨fresh, added, machine, rfl, rfl, growing⟩
  | succ remaining inductionHypothesis =>
    have next : heapPage (backing.length + fresh.length + 1) ≤ heapRegionEnd :=
      Nat.le_trans (by simp only [heapPage, frameSize]; omega) room
    rcases growing.backed.owned.growPage_cases (heapPage_aligned (backing.length + fresh.length))
      with ⟨frame, frames, after, more, grown, _, takes, updated, _, free, looked⟩ |
        ⟨after, more, stopped, updated, looked, _⟩
    · have further := growing.backed_page next takes updated free looked
      have size : (fresh ++ [frame]).length = fresh.length + 1 := by simp
      have step := growPages_next frame remaining grown
      rw [step]
      rcases inductionHypothesis further (by rw [size]; convert room using 2; omega) with
        ⟨all, linked, final, result, length, done⟩ | ⟨part, linked, final, result, length, _, undone⟩
      · exact .inl ⟨all, linked, final, result, by omega, done⟩
      · refine .inr ⟨part, linked, final, result, by omega, ?_, undone⟩
        rw [grown]
        constructor
        · intro same
          omega
        · intro impossible
          cases impossible
    · right
      have kept := growing.failed updated looked
      refine ⟨fresh, added ∪ more, _, ?_, Nat.le_refl _, ?_, kept.unwind⟩
      · rw [growPages, heapPage_add, stopped]
        rfl
      · rw [stopped]
        exact ⟨fun _ => rfl, fun _ => rfl⟩

omit growing in
/-- A page takes a frame for itself and at most one for each of the three tables below
the root. -/
theorem freeBelow_page {frame : Nat} {frames : FrameAllocator} {after : Machine}
    {more : Finset Nat} {virt : Nat} (takes : machine.frames.Takes frame frames)
    (updated : Updates vmm { machine with frames := frames } after more)
    (count : more.card = missingTables machine.memory vmm.pml4Phys virt) :
    (machine.frames.freeBelow identityMapLimit).card ≤
      (after.frames.freeBelow identityMapLimit).card + 4 := by
  have tables : more.card ≤ 3 := by
    rw [count]
    exact RadixTree.missing_le_length _ _ _ _
  have left : (machine.frames.freeBelow identityMapLimit).card ≤
      (frames.freeBelow identityMapLimit).card + 1 := by
    rw [takes.freeBelow]
    exact Nat.sub_le_iff_le_add.mp Finset.pred_card_le_card_erase
  have spent : (after.frames.freeBelow identityMapLimit).card + more.card =
      (frames.freeBelow identityMapLimit).card := updated.card_freeBelow
  omega

/-- Enough low frames back all the remaining pages, if none of them is mapped. -/
theorem growPages_enough (remaining : Nat)
    (room : heapPage (backing.length + fresh.length + remaining) ≤ heapRegionEnd)
    (unmapped : ∀ index < remaining, lookup machine.memory vmm.pml4Phys
      (heapPage (backing.length + fresh.length + index)) = none)
    (enough : 4 * remaining ≤ (machine.frames.freeBelow identityMapLimit).card) :
    (growPages vmm (heapPage backing.length) remaining fresh.length machine).1 = true := by
  induction remaining generalizing machine fresh added with
  | zero => rfl
  | succ remaining inductionHypothesis =>
    have next : heapPage (backing.length + fresh.length + 1) ≤ heapRegionEnd :=
      Nat.le_trans (by simp only [heapPage, frameSize]; omega) room
    rcases growing.backed.owned.growPage_cases (heapPage_aligned (backing.length + fresh.length))
      with ⟨frame, frames, after, more, grown, _, takes, updated, count, free, looked⟩ |
        ⟨after, more, _, _, _, cause⟩
    · have further := growing.backed_page next takes updated free looked
      have size : (fresh ++ [frame]).length = fresh.length + 1 := by simp
      have step := growPages_next frame remaining grown
      have shift (index : Nat) : backing.length + (fresh ++ [frame]).length + index =
          backing.length + fresh.length + (index + 1) := by
        rw [size]
        omega
      have least := freeBelow_page takes updated count
      rw [step]
      apply inductionHypothesis further
      · rw [shift]
        exact room
      · intro index inside
        have later : pageNumber (heapPage (backing.length + fresh.length + (index + 1))) ≠
            pageNumber (heapPage (backing.length + fresh.length)) := by
          apply (pageNumber_ne_of_lt (by omega) _).symm
          exact Nat.le_trans (by simp only [heapPage, frameSize]; omega) room
        rw [shift, looked, if_neg later]
        exact unmapped (index + 1) (Nat.succ_lt_succ inside)
      · omega
    · rcases cause with none | mapped | ⟨frame, _, short⟩
      · have empty : machine.frames.freeFrames = ∅ :=
          (FrameAllocator.scanFrom_spec machine.frames).2 none
        have noLow : (machine.frames.freeBelow identityMapLimit).card = 0 := by
          rw [FrameAllocator.freeBelow, empty, Finset.filter_empty, Finset.card_empty]
        omega
      · exact absurd (unmapped 0 (Nat.succ_pos _)) mapped
      · have tables : missingTables machine.memory vmm.pml4Phys
            (heapPage (backing.length + fresh.length)) ≤ 3 :=
          RadixTree.missing_le_length _ _ _ _
        have left : (machine.frames.freeBelow identityMapLimit).card - 1 ≤
            ((machine.frames.freeBelow identityMapLimit).erase frame).card :=
          Finset.pred_card_le_card_erase
        omega

end Growing

end XyronOS
