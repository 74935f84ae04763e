import XyronOS.Mm.FreeListAlloc

/-!
# The books of the heap

What the heap is for, without a memory: a list of free blocks, the blocks that
callers hold, the regions that were ever added and the gaps that were lost. Adding
and freeing insert into the free list; allocating carves the first block that fits.

The books balance when the added bytes are exactly the free, the held and the lost
ones, each byte once. Every request that a caller may issue keeps them balanced;
only allocation loses bytes, and only next to the block it hands out.
-/

namespace XyronOS

open WordBits Regions FirstFit

/-- Bytes a layout is served with, none if it cannot be padded. -/
def Layout.adjustedSize (layout : Layout) : Nat :=
  match adjustedSizeAlign layout with
  | .ok (size, _) => size
  | .error _ => 0

/-- A pointer a caller holds and the layout it was requested with. -/
structure Block where
  ptr : Nat
  layout : Layout
deriving DecidableEq

/-- The bytes the allocator set aside for a block. -/
def Block.region (block : Block) : Region := ⟨block.ptr, block.layout.adjustedSize⟩

/-- A block as the allocator hands it out. -/
structure Block.Served (block : Block) : Prop where
  adjusted : ∃ align, adjustedSizeAlign block.layout = .ok (block.region.size, align) ∧
    block.ptr % align = 0
  nonzero : block.ptr ≠ 0
  stop : ValidStop block.region.stop

/-- The adjusted size is the one a layout is served with. -/
theorem Layout.adjustedSize_eq {layout : Layout} {size align : Nat}
    (adjusted : adjustedSizeAlign layout = .ok (size, align)) : layout.adjustedSize = size := by
  simp only [adjustedSize, adjusted]

/-- The bytes of a block handed out are those the request was placed at. -/
theorem Block.region_place {layout : Layout} {size align : Nat}
    (adjusted : adjustedSizeAlign layout = .ok (size, align)) (node : Region) :
    Block.region ⟨(place size align node).start, layout⟩ = place size align node := by
  rw [Block.region, Layout.adjustedSize_eq adjusted]
  rfl

/-- A request placed inside a free block is served there. -/
theorem Block.served_place {layout : Layout} {size align : Nat} {nodes : List Region}
    {node : Region} (adjusted : adjustedSizeAlign layout = .ok (size, align))
    (formed : WellFormed nodes) (member : node ∈ nodes)
    (inside : Inside node (place size align node)) :
    Block.Served ⟨(place size align node).start, layout⟩ := by
  obtain ⟨⟨_, nonzero⟩, stops, _⟩ := formed.shaped node member
  have region := Block.region_place adjusted node
  refine ⟨⟨align, ?_, roundUp_aligned _ _⟩, ?_, ?_⟩
  · rw [adjusted, region]
    rfl
  · exact Nat.ne_of_gt (Nat.lt_of_lt_of_le (Nat.pos_of_ne_zero nonzero) inside.lower)
  · rw [region]
    exact Nat.lt_of_le_of_lt inside.upper stops

namespace Block.Served

variable {block : Block} (served : block.Served)

include served

/-- A served pointer is a multiple of the alignment it was requested with, and of
that of a header. -/
theorem aligned : block.ptr % block.layout.align = 0 ∧ block.ptr % nodeAlign = 0 := by
  obtain ⟨align, adjusted, multiple⟩ := served.adjusted
  have facts := adjustedSizeAlign_ok adjusted
  obtain ⟨bits, _, atLeast, power⟩ := facts.power
  constructor
  · exact Nat.mod_eq_zero_of_dvd ((Nat.dvd_of_mod_eq_zero facts.multiple).trans
      (Nat.dvd_of_mod_eq_zero multiple))
  · rw [power] at multiple
    exact Nat.mod_eq_zero_of_dvd ((Nat.pow_dvd_pow 2 atLeast).trans
      (Nat.dvd_of_mod_eq_zero multiple))

/-- A served block holds the requested bytes. -/
theorem enough : block.layout.size ≤ block.region.size := by
  obtain ⟨align, adjusted, _⟩ := served.adjusted
  exact (adjustedSizeAlign_ok adjusted).enough

/-- A served block can be put back on the free list. -/
theorem holdable : Region.Holdable block.region := by
  obtain ⟨align, adjusted, _⟩ := served.adjusted
  exact ⟨⟨served.aligned.2, served.nonzero⟩, served.stop, (adjustedSizeAlign_ok adjusted).long⟩

end Block.Served

/-- What callers and the heap's memory ask of the allocator: a new region, a block,
a block given back, or one byte of a held block written. -/
inductive HeapRequest where
  | add (region : Region)
  | alloc (layout : Layout)
  | dealloc (block : Block)
  | write (address : Nat) (byte : BitVec 8)

/-- Free blocks, held blocks, everything added, everything lost, and the pointers
returned so far, latest first. -/
structure Ledger where
  nodes : List Region
  live : List Block
  added : List Region
  lost : List Region
  pointers : List Nat

namespace Ledger

/-- Hand out the block carved from a free one. -/
def handOut (ledger : Ledger) (layout : Layout) (node block : Region) : Ledger where
  nodes := carve nodeSize ledger.nodes node block
  live := ⟨block.start, layout⟩ :: ledger.live
  added := ledger.added
  lost := FirstFit.lost nodeSize node block ++ ledger.lost
  pointers := block.start :: ledger.pointers

/-- Serve a request with an adjusted size and alignment, the null pointer if no
block fits. -/
def serveAdjusted (ledger : Ledger) (layout : Layout) (size align : Nat) : Ledger :=
  match choose size align ledger.nodes with
  | none => { ledger with pointers := 0 :: ledger.pointers }
  | some node => ledger.handOut layout node (place size align node)

/-- One entry in the books. -/
def step (ledger : Ledger) : HeapRequest → Ledger
  | .add region =>
      { ledger with nodes := Regions.insert region ledger.nodes, added := region :: ledger.added }
  | .alloc layout =>
      match adjustedSizeAlign layout with
      | .error _ => ledger
      | .ok (size, align) => ledger.serveAdjusted layout size align
  | .dealloc block =>
      { ledger with nodes := Regions.insert block.region ledger.nodes
                    live := ledger.live.erase block }
  | .write _ _ => ledger

section Alloc

variable {ledger : Ledger} {layout : Layout} {size align : Nat}
  (adjusted : adjustedSizeAlign layout = .ok (size, align))

include adjusted

theorem step_alloc_none (none : choose size align ledger.nodes = none) :
    ledger.step (.alloc layout) = { ledger with pointers := 0 :: ledger.pointers } := by
  simp only [step, adjusted, serveAdjusted, none]

theorem step_alloc_some {node : Region} (chosen : choose size align ledger.nodes = some node) :
    ledger.step (.alloc layout) = ledger.handOut layout node (place size align node) := by
  simp only [step, adjusted, serveAdjusted, chosen]

/-- The chosen block is on the list and holds the request. -/
theorem chosen_inside {nodes : List Region} {node : Region}
    (chosen : choose size align nodes = some node) :
    node ∈ nodes ∧ Inside node (place size align node) := by
  obtain ⟨bits, _, _, power⟩ := (adjustedSizeAlign_ok adjusted).power
  exact choose_some (power ▸ Nat.two_pow_pos bits) chosen

end Alloc

/-- The three entries an allocation can make: none if the layout cannot be padded, a
null pointer if no block fits, or the block carved from the first that does. -/
theorem step_alloc (ledger : Ledger) (layout : Layout) :
    ledger.step (.alloc layout) = ledger ∨
    ledger.step (.alloc layout) = { ledger with pointers := 0 :: ledger.pointers } ∨
    ∃ size align node, adjustedSizeAlign layout = .ok (size, align) ∧
      choose size align ledger.nodes = some node ∧
      ledger.step (.alloc layout) = ledger.handOut layout node (place size align node) := by
  cases adjusted : adjustedSizeAlign layout with
  | error panic =>
    left
    rw [step, adjusted]
  | ok pair =>
    right
    cases chosen : choose pair.1 pair.2 ledger.nodes with
    | none => exact .inl (step_alloc_none adjusted chosen)
    | some node => exact .inr ⟨pair.1, pair.2, node, rfl, chosen, step_alloc_some adjusted chosen⟩

/-- The requests the allocator has to serve: a new region is holdable and off
everything added before, rounding a free address up does not wrap, and a caller
frees and writes only what it holds. -/
def Admits (ledger : Ledger) : HeapRequest → Prop
  | .add region => Region.Holdable region ∧ ∀ old ∈ ledger.added, Disjoint region.bytes old.bytes
  | .alloc layout => ∀ size align, adjustedSizeAlign layout = .ok (size, align) →
      ∀ node ∈ ledger.nodes, node.start + (align - 1) < 2 ^ 64
  | .dealloc block => block ∈ ledger.live
  | .write address _ => ∃ block ∈ ledger.live, address ∈ block.region.bytes

/-- All parts of the added memory. -/
def parts (ledger : Ledger) : List Region :=
  ledger.nodes ++ (ledger.live.map Block.region ++ ledger.lost)

/-- The books balance: the parts are exactly what was added, without overlap; every
held block is a served one and every lost gap is shorter than a header. -/
structure Balanced (ledger : Ledger) : Prop where
  partition : Partition ledger.added ledger.parts
  served : ∀ block ∈ ledger.live, block.Served
  short : ∀ gap ∈ ledger.lost, 0 < gap.size ∧ gap.size < nodeSize

namespace Balanced

variable {ledger : Ledger} (balanced : Balanced ledger)

include balanced

/-- A held block is off every free one. -/
theorem live_apart {block : Block} (held : block ∈ ledger.live) {node : Region}
    (free : node ∈ ledger.nodes) : Disjoint block.region.bytes node.bytes := by
  have across := (List.pairwise_append.mp balanced.partition.disjoint).2.2
  exact (across node free block.region
    (List.mem_append_left _ (List.mem_map_of_mem held))).symm

/-- A region off everything added is off every free block. -/
theorem added_apart {region : Region}
    (apart : ∀ old ∈ ledger.added, Disjoint region.bytes old.bytes) {node : Region}
    (free : node ∈ ledger.nodes) : Disjoint region.bytes node.bytes := by
  have off : Disjoint region.bytes (bytes ledger.added) :=
    (disjoint_bytes_iff region ledger.added).mpr apart
  apply off.mono_right
  rw [balanced.partition.covers]
  exact bytes_of_mem (List.mem_append_left _ free)

variable (formed : WellFormed ledger.nodes)

include formed

/-- Adding a region keeps the books balanced. -/
theorem add {region : Region} (admitted : ledger.Admits (.add region)) :
    Balanced (ledger.step (.add region)) where
  partition := by
    obtain ⟨holdable, apart⟩ := admitted
    have long := holdable.size
    unfold nodeSize at long
    have grown : Partition (region :: ledger.added) ((region :: ledger.nodes) ++
        (ledger.live.map Block.region ++ ledger.lost)) :=
      balanced.partition.cons region ((disjoint_bytes_iff _ _).mpr apart)
    exact grown.refine (insert_partition region ledger.nodes formed.sorted (by omega)
      formed.positive (fun node free => balanced.added_apart apart free))
  served := balanced.served
  short := balanced.short

/-- Taking a block back keeps the books balanced. -/
theorem dealloc {block : Block} (held : block ∈ ledger.live) :
    Balanced (ledger.step (.dealloc block)) where
  partition := by
    have long := (balanced.served block held).holdable.size
    unfold nodeSize at long
    have reordered : ledger.parts.Perm ((block.region :: ledger.nodes) ++
        ((ledger.live.erase block).map Block.region ++ ledger.lost)) := by
      have taken := (List.perm_cons_erase held).map Block.region
      rw [List.map_cons] at taken
      rw [List.perm_iff_count]
      intro region
      have counted := (List.perm_iff_count.mp taken) region
      simp only [parts, List.count_append, List.count_cons] at counted ⊢
      omega
    exact (balanced.partition.perm reordered).refine (insert_partition block.region ledger.nodes
      formed.sorted (by omega) formed.positive (fun node free => balanced.live_apart held free))
  served := fun other present => balanced.served other (List.mem_of_mem_erase present)
  short := balanced.short

/-- Handing out the chosen block keeps the books balanced. -/
theorem handOut {layout : Layout} {size align : Nat} {node : Region}
    (adjusted : adjustedSizeAlign layout = .ok (size, align))
    (chosen : choose size align ledger.nodes = some node) :
    Balanced (ledger.handOut layout node (place size align node)) := by
  obtain ⟨member, inside⟩ := chosen_inside adjusted chosen
  have region := Block.region_place adjusted node
  constructor
  · have cut := balanced.partition.refine (carve_partition formed.sorted formed.positive member
      inside (show 0 < nodeSize by decide))
    refine cut.perm ?_
    rw [List.perm_iff_count]
    intro part
    simp only [parts, Ledger.handOut, List.map_cons, region, List.count_append, List.count_cons]
    omega
  · intro block held
    rcases List.mem_cons.mp held with rfl | old
    · exact Block.served_place adjusted formed member inside
    · exact balanced.served block old
  · intro gap gone
    rcases List.mem_append.mp gone with new | old
    · exact (lost_short new).2
    · exact balanced.short gap old

/-- Every admitted request keeps the books balanced. -/
theorem step {request : HeapRequest} (admitted : ledger.Admits request) :
    Balanced (ledger.step request) := by
  cases request with
  | add region => exact balanced.add formed admitted
  | alloc layout =>
    rcases ledger.step_alloc layout with same | null | ⟨size, align, node, adjusted, chosen, out⟩
    · rw [same]
      exact balanced
    · rw [null]
      exact ⟨balanced.partition, balanced.served, balanced.short⟩
    · rw [out]
      exact balanced.handOut formed adjusted chosen
  | dealloc block => exact balanced.dealloc formed admitted
  | write address byte => exact balanced

end Balanced

end Ledger

end XyronOS
