import XyronOS.Mm.LinkedListAllocator

/-!
# Links through memory

What one header write does to the links of the list. A `Segment` is a stretch of
the list: from a pointer, following the links, through the listed blocks, to the
address the last link holds. The sentinel is an ordinary starting pointer, so an
insertion at the front is not a case of its own.

Headers of distinct blocks do not overlap, so a write changes the two fields of
one pointer only. Segments away from that pointer carry over, and relinking the
last pointer of a segment changes where it leads. `Wrote` keeps the log: which
words were written, that replaying them gives the memory, and in which bytes they
lie.
-/

namespace XyronOS

open ByteMemory WordBits Regions FirstFit

namespace NodePtr

/-- The two pointers' headers share no byte. -/
def Apart : NodePtr → NodePtr → Prop
  | .head, .head => False
  | .node left, .node right => left + nodeSize ≤ right ∨ right + nodeSize ≤ left
  | _, _ => True

theorem Apart.symm {left right : NodePtr} (apart : left.Apart right) : right.Apart left := by
  cases left <;> cases right <;> simp only [Apart] at apart ⊢
  omega

theorem Apart.ne {left right : NodePtr} (apart : left.Apart right) : left ≠ right := by
  rintro rfl
  cases left <;> simp only [Apart, nodeSize] at apart
  omega

/-- A header in memory is apart from the sentinel. -/
theorem apart_head {pointer : NodePtr} (inner : pointer ≠ .head) : pointer.Apart .head := by
  cases pointer with
  | head => exact absurd rfl inner
  | node address => trivial

/-- Bytes of memory the header behind a pointer occupies. -/
def headerBytes : NodePtr → Set Nat
  | .head => ∅
  | .node address => Set.Ico address (address + nodeSize)

/-- Headers in memory start at a multiple of eight. -/
def Aligned : NodePtr → Prop
  | .head => True
  | .node address => address % nodeAlign = 0

end NodePtr

namespace LinkedListAllocator

section Fields

variable (heap : LinkedListAllocator) (pointer other : NodePtr) (value : Nat)

/-- Writing a link sets it and keeps the size next to it. -/
theorem setNext_same (fits : value < 2 ^ 64) :
    (heap.setNext pointer value).next pointer = value ∧
      (heap.setNext pointer value).size pointer = heap.size pointer := by
  cases pointer with
  | head => exact ⟨rfl, rfl⟩
  | node address =>
    simp only [setNext, writeWord, next, size]
    exact ⟨by rw [load64_store64_same, Nat.mod_eq_of_lt fits],
      load64_store64_apart _ _ _ _ (by omega)⟩

/-- Writing a size sets it and keeps the link next to it. -/
theorem setSize_same (fits : value < 2 ^ 64) :
    (heap.setSize pointer value).size pointer = value ∧
      (heap.setSize pointer value).next pointer = heap.next pointer := by
  cases pointer with
  | head => exact ⟨rfl, rfl⟩
  | node address =>
    simp only [setSize, writeWord, next, size]
    exact ⟨by rw [load64_store64_same, Nat.mod_eq_of_lt fits],
      load64_store64_apart _ _ _ _ (by omega)⟩

variable {pointer other}

/-- Writing a link changes no other header. -/
theorem setNext_apart (apart : pointer.Apart other) :
    (heap.setNext pointer value).next other = heap.next other ∧
      (heap.setNext pointer value).size other = heap.size other := by
  cases pointer <;> cases other <;> simp only [NodePtr.Apart, nodeSize] at apart <;>
    simp only [setNext, writeWord, next, size, and_self]
  exact ⟨load64_store64_apart _ _ _ _ (by omega), load64_store64_apart _ _ _ _ (by omega)⟩

/-- Writing a size changes no other header. -/
theorem setSize_apart (apart : pointer.Apart other) :
    (heap.setSize pointer value).next other = heap.next other ∧
      (heap.setSize pointer value).size other = heap.size other := by
  cases pointer <;> cases other <;> simp only [NodePtr.Apart, nodeSize] at apart <;>
    simp only [setSize, writeWord, next, size, and_self]
  exact ⟨load64_store64_apart _ _ _ _ (by omega), load64_store64_apart _ _ _ _ (by omega)⟩

/-- Write both fields of a header, the size first. -/
def setHeader (pointer : NodePtr) (size next : Nat) : LinkedListAllocator :=
  (heap.setSize pointer size).setNext pointer next

theorem setHeader_same (pointer : NodePtr) {size next : Nat} (sizeFits : size < 2 ^ 64)
    (nextFits : next < 2 ^ 64) :
    (heap.setHeader pointer size next).next pointer = next ∧
      (heap.setHeader pointer size next).size pointer = size := by
  obtain ⟨sized, _⟩ := setSize_same heap pointer size sizeFits
  obtain ⟨linked, kept⟩ := setNext_same (heap.setSize pointer size) pointer next nextFits
  exact ⟨linked, kept.trans sized⟩

/-- Writing a header changes no other. -/
theorem setHeader_apart (size next : Nat) (apart : pointer.Apart other) :
    (heap.setHeader pointer size next).next other = heap.next other ∧
      (heap.setHeader pointer size next).size other = heap.size other := by
  obtain ⟨sameNext, sameSize⟩ := setNext_apart (heap.setSize pointer size) next apart
  obtain ⟨sameNext', sameSize'⟩ := setSize_apart heap size apart
  exact ⟨sameNext.trans sameNext', sameSize.trans sameSize'⟩

end Fields

/-- The pointer to a block. -/
def pointer (node : Region) : NodePtr := .node node.start

/-- The last pointer of a stretch of the list. -/
def lastPtr (start : NodePtr) (nodes : List Region) : NodePtr :=
  nodes.foldl (fun _ node => pointer node) start

/-- Where a stretch of the list begins, or where it leads if it is empty. -/
def firstAddr (nodes : List Region) (stop : Nat) : Nat := (nodes.head?.map Region.start).getD stop

/-- The links from a pointer run through the listed blocks and then hold `stop`. -/
def Segment (heap : LinkedListAllocator) : NodePtr → List Region → Nat → Prop
  | start, [], stop => heap.next start = stop
  | start, node :: rest, stop =>
      heap.next start = node.start ∧ node.start ≠ 0 ∧ heap.size (pointer node) = node.size ∧
        Segment heap (pointer node) rest stop

@[simp] theorem lastPtr_nil (start : NodePtr) : lastPtr start [] = start := rfl

@[simp] theorem lastPtr_cons (start : NodePtr) (node : Region) (rest : List Region) :
    lastPtr start (node :: rest) = lastPtr (pointer node) rest := rfl

@[simp] theorem lastPtr_snoc (start : NodePtr) (nodes : List Region) (last : Region) :
    lastPtr start (nodes ++ [last]) = pointer last := by simp [lastPtr]

/-- The last pointer is the starting one or that of a listed block. -/
theorem lastPtr_cases (start : NodePtr) (nodes : List Region) :
    (nodes = [] ∧ lastPtr start nodes = start) ∨
      ∃ before last, nodes = before ++ [last] ∧ lastPtr start nodes = pointer last := by
  rcases List.eq_nil_or_concat nodes with rfl | ⟨before, last, rfl⟩
  · exact .inl ⟨rfl, rfl⟩
  · refine .inr ⟨before, last, by simp, by simp⟩

variable {heap after : LinkedListAllocator}

/-- A stretch of the list is followed by the stretch its last link leads to. -/
theorem segment_append (start : NodePtr) (left right : List Region) (stop : Nat) :
    Segment heap start (left ++ right) stop ↔
      Segment heap start left (firstAddr right stop) ∧
        Segment heap (lastPtr start left) right stop := by
  induction left generalizing start with
  | nil =>
    cases right with
    | nil => simp [Segment, firstAddr]
    | cons node rest => simp [Segment, firstAddr]
  | cons node rest inductionHypothesis =>
    simp only [List.cons_append, Segment, inductionHypothesis, lastPtr_cons, and_assoc]

/-- The first link of a stretch leads to its first block. -/
theorem Segment.next_eq {start : NodePtr} {nodes : List Region} {stop : Nat}
    (segment : Segment heap start nodes stop) : heap.next start = firstAddr nodes stop := by
  cases nodes with
  | nil => exact segment
  | cons node rest => exact segment.1

/-- The last link of a stretch leads to its end. -/
theorem Segment.last_link {start : NodePtr} {nodes : List Region} {stop : Nat}
    (segment : Segment heap start nodes stop) : heap.next (lastPtr start nodes) = stop := by
  induction nodes generalizing start with
  | nil => exact segment
  | cons node rest inductionHypothesis => exact inductionHypothesis segment.2.2.2

/-- A stretch carries over to any pointer with the same link, if the headers of
its blocks are the same. -/
theorem Segment.transport {start start' : NodePtr} {nodes : List Region} {stop : Nat}
    (segment : Segment heap start nodes stop) (first : after.next start' = heap.next start)
    (same : ∀ node ∈ nodes, after.next (pointer node) = heap.next (pointer node) ∧
      after.size (pointer node) = heap.size (pointer node)) :
    Segment after start' nodes stop := by
  induction nodes generalizing start start' with
  | nil => exact first.trans segment
  | cons node rest inductionHypothesis =>
    obtain ⟨link, nonzero, size, tail⟩ := segment
    obtain ⟨sameNext, sameSize⟩ := same node List.mem_cons_self
    exact ⟨first.trans link, nonzero, sameSize.trans size,
      inductionHypothesis tail sameNext (fun other present =>
        same other (List.mem_cons_of_mem node present))⟩

/-- Changing the last link of a stretch, and no other header of it, changes where
the stretch leads. -/
theorem Segment.relink {start : NodePtr} {nodes : List Region} {stop stop' : Nat}
    (segment : Segment heap start nodes stop) (last : after.next (lastPtr start nodes) = stop')
    (sizes : ∀ node ∈ nodes, after.size (pointer node) = heap.size (pointer node))
    (links : ∀ pointer, pointer = start ∨ pointer ∈ nodes.map LinkedListAllocator.pointer →
      pointer ≠ lastPtr start nodes → after.next pointer = heap.next pointer)
    (distinct : (start :: nodes.map pointer).Nodup) : Segment after start nodes stop' := by
  induction nodes generalizing start with
  | nil => exact last
  | cons node rest inductionHypothesis =>
    obtain ⟨link, nonzero, size, tail⟩ := segment
    obtain ⟨startFresh, restDistinct⟩ := List.nodup_cons.mp distinct
    have inner : start ≠ lastPtr start (node :: rest) := by
      intro same
      apply startFresh
      rw [List.map_cons, same, lastPtr_cons]
      rcases lastPtr_cases (pointer node) rest with ⟨_, here⟩ | ⟨before, final, rfl, here⟩
      · rw [here]
        exact List.mem_cons_self
      · rw [here]
        simp
    refine ⟨(links start (.inl rfl) inner).trans link, nonzero,
      (sizes node List.mem_cons_self).trans size, ?_⟩
    apply inductionHypothesis tail last
    · exact fun other present => sizes other (List.mem_cons_of_mem node present)
    · intro other known
      apply links other
      rw [List.map_cons, List.mem_cons]
      exact .inr known
    · exact restDistinct

/-- Following the links decodes the list. -/
theorem Segment.decode_eq {nodes : List Region} {start : NodePtr}
    (segment : Segment heap start nodes 0) (fuel : Nat) (enough : nodes.length < fuel) :
    decode heap.memory fuel (heap.next start) = nodes := by
  induction nodes generalizing start fuel with
  | nil =>
    obtain ⟨fuel, rfl⟩ : ∃ rest, fuel = rest + 1 := ⟨fuel - 1, by simp at enough; omega⟩
    have null : heap.next start = 0 := segment
    simp [decode, null]
  | cons node rest inductionHypothesis =>
    obtain ⟨link, nonzero, size, tail⟩ := segment
    obtain ⟨fuel, rfl⟩ : ∃ rest, fuel = rest + 1 := ⟨fuel - 1, by simp at enough; omega⟩
    have shorter : rest.length < fuel := by
      simp only [List.length_cons] at enough
      omega
    have stored : load64 heap.memory node.start = node.size := size
    have further : decode heap.memory fuel (load64 heap.memory (node.start + 8)) = rest :=
      inductionHypothesis tail fuel shorter
    rw [decode, link, if_neg nonzero, stored, further]

/-- Store logged words in the order they were written. -/
def replay (words : List (Nat × Nat)) (memory : Memory) : Memory :=
  words.foldr (fun word memory => store64 memory word.1 word.2) memory

/-- From `heap` to `after` only words inside `allowed` were written. -/
def Wrote (allowed : Set Nat) (heap after : LinkedListAllocator) : Prop :=
  ∃ words, after.written = words ++ heap.written ∧ after.memory = replay words heap.memory ∧
    ∀ word ∈ words, word.1 % nodeAlign = 0 ∧ Set.Ico word.1 (word.1 + 8) ⊆ allowed

theorem Wrote.refl (allowed : Set Nat) (heap : LinkedListAllocator) : Wrote allowed heap heap :=
  ⟨[], rfl, rfl, by simp⟩

theorem Wrote.trans {allowed : Set Nat} {middle : LinkedListAllocator}
    (first : Wrote allowed heap middle) (second : Wrote allowed middle after) :
    Wrote allowed heap after := by
  obtain ⟨early, logged, stored, inside⟩ := first
  obtain ⟨late, logged', stored', inside'⟩ := second
  refine ⟨late ++ early, ?_, ?_, ?_⟩
  · rw [logged', logged, List.append_assoc]
  · rw [stored', stored, replay, replay, replay, List.foldr_append]
  · intro word member
    rcases List.mem_append.mp member with present | present
    · exact inside' word present
    · exact inside word present

theorem Wrote.mono {allowed larger : Set Nat} (wrote : Wrote allowed heap after)
    (included : allowed ⊆ larger) : Wrote larger heap after := by
  obtain ⟨words, logged, stored, inside⟩ := wrote
  exact ⟨words, logged, stored, fun word member =>
    ⟨(inside word member).1, (inside word member).2.trans included⟩⟩

/-- Replaying words changes no byte outside them. -/
theorem replay_outside (words : List (Nat × Nat)) (memory : Memory) (target : Nat)
    (outside : ∀ word ∈ words, target ∉ Set.Ico word.1 (word.1 + 8)) :
    replay words memory target = memory target := by
  induction words with
  | nil => rfl
  | cons word words inductionHypothesis =>
    have missed := outside word List.mem_cons_self
    rw [Set.mem_Ico] at missed
    rw [replay, List.foldr_cons, store64_outside _ _ _ _ (by omega)]
    exact inductionHypothesis (fun other present => outside other (List.mem_cons_of_mem _ present))

/-- A byte outside the allowed ones is unchanged. -/
theorem Wrote.outside {allowed : Set Nat} (wrote : Wrote allowed heap after) {target : Nat}
    (outside : target ∉ allowed) : after.memory target = heap.memory target := by
  obtain ⟨words, _, stored, inside⟩ := wrote
  rw [stored]
  apply replay_outside
  intro word member here
  exact outside ((inside word member).2 here)

/-- Writing a link writes inside the pointer's header. -/
theorem wrote_setNext (heap : LinkedListAllocator) {pointer : NodePtr} (value : Nat)
    (aligned : pointer.Aligned) :
    Wrote pointer.headerBytes heap (heap.setNext pointer value) := by
  cases pointer with
  | head => exact ⟨[], rfl, rfl, by simp⟩
  | node address =>
    have multiple : address % 8 = 0 := aligned
    refine ⟨[(address + 8, value)], rfl, rfl, ?_⟩
    simp only [List.mem_singleton, forall_eq, nodeAlign, NodePtr.headerBytes, nodeSize]
    exact ⟨by omega, Set.Ico_subset_Ico (by omega) (by omega)⟩

/-- Writing a size writes inside the pointer's header. -/
theorem wrote_setSize (heap : LinkedListAllocator) {pointer : NodePtr} (value : Nat)
    (aligned : pointer.Aligned) :
    Wrote pointer.headerBytes heap (heap.setSize pointer value) := by
  cases pointer with
  | head => exact ⟨[], rfl, rfl, by simp⟩
  | node address =>
    have multiple : address % 8 = 0 := aligned
    refine ⟨[(address, value)], rfl, rfl, ?_⟩
    simp only [List.mem_singleton, forall_eq, nodeAlign, NodePtr.headerBytes, nodeSize]
    exact ⟨by omega, Set.Ico_subset_Ico (by omega) (by omega)⟩

theorem wrote_setHeader (heap : LinkedListAllocator) {pointer : NodePtr} (size next : Nat)
    (aligned : pointer.Aligned) :
    Wrote pointer.headerBytes heap (heap.setHeader pointer size next) :=
  (wrote_setSize heap size aligned).trans (wrote_setNext _ next aligned)

/-- A block with room for a header holds its own. -/
theorem headerBytes_subset {region : Region} (long : nodeSize ≤ region.size) :
    (pointer region).headerBytes ⊆ region.bytes := by
  intro byte inside
  simp only [pointer, NodePtr.headerBytes, Set.mem_Ico] at inside
  rw [Region.mem_bytes]
  omega

end LinkedListAllocator

end XyronOS
