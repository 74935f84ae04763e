import Mathlib

/-!
# Multi-level tables in a pointer graph

A table is a node whose slots are empty, hold a final value, or point to the
table of the next level. Which of the three a slot is may depend on its level,
so the slot function also receives the depth. A lookup consumes one index for
each level; it ends at the first slot that is not a pointer.

The graph is a tree when no table is reached by two index paths. In a tree one
slot can be edited without touching any other path, although all paths share
the same node store: replacing a final value changes exactly the lookups through
that slot, and linking a table whose slots are all empty changes no lookup.
-/

namespace XyronOS.RadixTree

variable {Node Index Leaf : Type}

/-- Content of one slot: nothing, a final value, or the next table. -/
inductive Slot (Node Leaf : Type) where
  | empty : Slot Node Leaf
  | leaf : Leaf → Slot Node Leaf
  | table : Node → Slot Node Leaf
deriving DecidableEq

/-- The table a slot points to. -/
def Slot.child : Slot Node Leaf → Option Node
  | .table node => some node
  | _ => none

/-- The final value a slot holds. -/
def Slot.value : Slot Node Leaf → Option Leaf
  | .leaf value => some value
  | _ => none

variable (slots slots' : Nat → Node → Index → Slot Node Leaf)

/-- Follow table pointers along a whole index path. -/
def descend : Nat → Node → List Index → Option Node
  | _, node, [] => some node
  | depth, node, index :: rest =>
      match slots depth node index with
      | .table child => descend (depth + 1) child rest
      | _ => none

/-- Look an index path up: the first slot that is not a pointer decides. -/
def resolve : Nat → Node → List Index → Option Leaf
  | _, _, [] => none
  | depth, node, index :: rest =>
      match slots depth node index with
      | .empty => none
      | .leaf value => some value
      | .table child => resolve (depth + 1) child rest

/-- Number of tables a path still lacks: all that remain from the first empty
slot on, and none once a final value is met. -/
def missing : Nat → Node → List Index → Nat
  | _, _, [] => 0
  | depth, node, index :: rest =>
      match slots depth node index with
      | .empty => rest.length + 1
      | .leaf _ => 0
      | .table child => missing (depth + 1) child rest

/-- Every table is reached by at most one path from the root. -/
def Tree (root : Node) : Prop :=
  ∀ path other node, descend slots 0 root path = some node →
    descend slots 0 root other = some node → path = other

/-- A table on some path from the root. -/
def Reached (root node : Node) : Prop := ∃ path, descend slots 0 root path = some node

/-- Following a composed path follows its two parts in turn. -/
theorem descend_append (depth : Nat) (node : Node) (path rest : List Index) :
    descend slots depth node (path ++ rest) =
      (descend slots depth node path).bind
        (fun middle => descend slots (depth + path.length) middle rest) := by
  induction path generalizing depth node with
  | nil => simp [descend]
  | cons index path inductionHypothesis =>
    simp only [List.cons_append, descend]
    cases slots depth node index with
    | empty => simp
    | leaf value => simp
    | table child =>
      simp only [inductionHypothesis, List.length_cons, Nat.add_assoc, Nat.add_comm 1]

/-- A path lacks at most one table for each of its indices. -/
theorem missing_le_length (depth : Nat) (node : Node) (path : List Index) :
    missing slots depth node path ≤ path.length := by
  induction path generalizing depth node with
  | nil => exact Nat.le_refl 0
  | cons index path inductionHypothesis =>
    simp only [missing, List.length_cons]
    cases slots depth node index with
    | empty => exact Nat.le_refl _
    | leaf value => exact Nat.zero_le _
    | table child => exact Nat.le_succ_of_le (inductionHypothesis (depth + 1) child)

/-- One more index follows one more slot. -/
theorem descend_snoc (root : Node) (path : List Index) (index : Index) :
    descend slots 0 root (path ++ [index]) =
      (descend slots 0 root path).bind
        (fun node => (slots path.length node index).child) := by
  rw [descend_append]
  congr 1
  funext node
  simp only [descend, Nat.zero_add]
  cases slots path.length node index <;> rfl

/-- A pointer of a reached table leads to a table one index further down. -/
theorem descend_link {root node next : Node} {path : List Index} {index : Index}
    (reached : descend slots 0 root path = some node)
    (pointing : slots path.length node index = .table next) :
    descend slots 0 root (path ++ [index]) = some next := by
  rw [descend_snoc, reached]
  simp [pointing, Slot.child]

/-- A lookup continues from the table its first indices reach. -/
theorem resolve_append (depth : Nat) (node middle : Node) (path rest : List Index)
    (reached : descend slots depth node path = some middle) :
    resolve slots depth node (path ++ rest) =
      resolve slots (depth + path.length) middle rest := by
  induction path generalizing depth node with
  | nil =>
    have same : node = middle := Option.some.inj reached
    simp [same]
  | cons index path inductionHypothesis =>
    simp only [descend] at reached
    simp only [List.cons_append, resolve]
    cases found : slots depth node index with
    | empty => simp [found] at reached
    | leaf value => simp [found] at reached
    | table child =>
      simp only [found] at reached
      simp only [inductionHypothesis (depth + 1) child reached, List.length_cons,
        Nat.add_assoc, Nat.add_comm 1]

section Edit

variable {slots slots'} {root : Node} {place : List Index} {position : Index}

/-- The two slot functions agree on every reached table, except at slots named
by the path of their table and their index. -/
def AgreeOff (slots slots' : Nat → Node → Index → Slot Node Leaf) (root : Node)
    (edited : List Index → Index → Prop) : Prop :=
  ∀ path node index, descend slots 0 root path = some node → ¬ edited path index →
    slots' path.length node index = slots path.length node index

/-- A lookup and a path that pass no edited slot are unchanged. The induction is
on the remaining indices, with the consumed ones as the path already followed. -/
theorem walk_elsewhere {edited : List Index → Index → Prop}
    (agree : AgreeOff slots slots' root edited) (path rest : List Index) (node : Node)
    (reached : descend slots 0 root path = some node)
    (off : ∀ before index, before ++ [index] <+: path ++ rest → ¬ edited before index) :
    resolve slots' path.length node rest = resolve slots path.length node rest ∧
      descend slots' path.length node rest = descend slots path.length node rest := by
  induction rest generalizing path node with
  | nil => exact ⟨rfl, rfl⟩
  | cons index rest inductionHypothesis =>
    have elsewhere : ¬ edited path index := off path index ⟨rest, by simp⟩
    simp only [resolve, descend, agree path node index reached elsewhere]
    cases found : slots path.length node index with
    | empty => exact ⟨rfl, rfl⟩
    | leaf value => exact ⟨rfl, rfl⟩
    | table child =>
      have further : descend slots 0 root (path ++ [index]) = some child :=
        descend_link slots reached found
      have continued := inductionHypothesis (path ++ [index]) child further (by simpa using off)
      simpa using continued

/-- If no slot of a reached table changed, no lookup and no path changed. -/
theorem walk_unchanged (agree : AgreeOff slots slots' root (fun _ _ => False))
    (path : List Index) :
    resolve slots' 0 root path = resolve slots 0 root path ∧
      descend slots' 0 root path = descend slots 0 root path :=
  walk_elsewhere agree [] path root rfl (fun _ _ _ => id)

/-- The two slot functions agree on every reached table except at one slot. -/
def AgreeExcept (slots slots' : Nat → Node → Index → Slot Node Leaf) (root : Node)
    (place : List Index) (position : Index) : Prop :=
  AgreeOff slots slots' root (fun path index => path = place ∧ index = position)

/-- A lookup that does not pass the edited slot is unchanged. -/
theorem resolve_elsewhere (agree : AgreeExcept slots slots' root place position)
    (path : List Index) (off : ¬ place ++ [position] <+: path) :
    resolve slots' 0 root path = resolve slots 0 root path := by
  refine (walk_elsewhere agree [] path root rfl ?_).1
  rintro before index through ⟨rfl, rfl⟩
  exact off through

/-- A path that does not pass the edited slot is followed as before. -/
theorem descend_elsewhere (agree : AgreeExcept slots slots' root place position)
    (path : List Index) (off : ¬ place ++ [position] <+: path) :
    descend slots' 0 root path = descend slots 0 root path := by
  refine (walk_elsewhere agree [] path root rfl ?_).2
  rintro before index through ⟨rfl, rfl⟩
  exact off through

/-- The table holding the edited slot keeps its place. -/
theorem descend_place (agree : AgreeExcept slots slots' root place position) :
    descend slots' 0 root place = descend slots 0 root place := by
  apply descend_elsewhere agree place
  intro shorter
  have bound := shorter.length_le
  simp at bound

/-- The content of the edited slot decides every lookup through it, unless it
points on. -/
theorem resolve_edited (agree : AgreeExcept slots slots' root place position) (node : Node)
    (reached : descend slots 0 root place = some node) (rest : List Index)
    (final : (slots' place.length node position).child = none) :
    resolve slots' 0 root (place ++ position :: rest) = (slots' place.length node position).value := by
  have kept : descend slots' 0 root place = some node := (descend_place agree).trans reached
  rw [resolve_append slots' 0 root node place _ kept, Nat.zero_add]
  simp only [resolve]
  cases found : slots' place.length node position with
  | empty => rfl
  | leaf value => rfl
  | table child => simp [found, Slot.child] at final

/-- Exchanging a slot that is no pointer for another that is no pointer keeps
every table where it was. -/
theorem descend_edited (agree : AgreeExcept slots slots' root place position) (node : Node)
    (reached : descend slots 0 root place = some node)
    (before : (slots place.length node position).child = none)
    (after : (slots' place.length node position).child = none) (path : List Index) :
    descend slots' 0 root path = descend slots 0 root path := by
  by_cases through : place ++ [position] <+: path
  · obtain ⟨rest, rfl⟩ := through
    have kept : descend slots' 0 root place = some node := (descend_place agree).trans reached
    rw [descend_append slots', descend_append slots, descend_snoc slots', descend_snoc slots,
      kept, reached]
    simp [before, after]
  · exact descend_elsewhere agree path through

/-- Linking a fresh table with empty slots adds exactly one path. -/
theorem descend_linked [DecidableEq Index] (agree : AgreeExcept slots slots' root place position)
    (node fresh : Node) (reached : descend slots 0 root place = some node)
    (before : slots place.length node position = .empty)
    (after : slots' place.length node position = .table fresh)
    (blank : ∀ index, slots' (place.length + 1) fresh index = .empty) (path : List Index) :
    descend slots' 0 root path =
      if path = place ++ [position] then some fresh else descend slots 0 root path := by
  by_cases through : place ++ [position] <+: path
  · obtain ⟨rest, rfl⟩ := through
    have kept : descend slots' 0 root place = some node := (descend_place agree).trans reached
    have linked : descend slots' 0 root (place ++ [position]) = some fresh :=
      descend_link slots' kept after
    cases rest with
    | nil => simp [linked]
    | cons index rest =>
      have old : descend slots 0 root (place ++ [position] ++ index :: rest) = none := by
        rw [descend_append, descend_snoc, reached]
        simp [before, Slot.child]
      have new : descend slots' 0 root (place ++ [position] ++ index :: rest) = none := by
        rw [descend_append, linked]
        simp [descend, blank]
      simp only [List.append_assoc, List.cons_append, List.nil_append] at old new ⊢
      simp [old, new]
  · have other : path ≠ place ++ [position] := by
      intro same
      exact through (same ▸ List.prefix_refl _)
    rw [if_neg other]
    exact descend_elsewhere agree path through

/-- Linking a fresh table with empty slots changes no lookup: a path through the
new pointer ended at an empty slot before and ends at one now. -/
theorem resolve_linked (agree : AgreeExcept slots slots' root place position)
    (node fresh : Node) (reached : descend slots 0 root place = some node)
    (before : slots place.length node position = .empty)
    (after : slots' place.length node position = .table fresh)
    (blank : ∀ index, slots' (place.length + 1) fresh index = .empty) (path : List Index) :
    resolve slots' 0 root path = resolve slots 0 root path := by
  by_cases through : place ++ [position] <+: path
  · obtain ⟨rest, rfl⟩ := through
    have kept : descend slots' 0 root place = some node := (descend_place agree).trans reached
    rw [List.append_assoc, resolve_append slots' 0 root node place _ kept,
      resolve_append slots 0 root node place _ reached]
    simp only [Nat.zero_add, List.cons_append, List.nil_append, resolve, before, after]
    cases rest with
    | nil => rfl
    | cons index rest => simp [resolve, blank]
  · exact resolve_elsewhere agree path through

/-- Linking a table nothing reached before keeps a tree a tree. -/
theorem tree_linked [DecidableEq Index] (agree : AgreeExcept slots slots' root place position)
    (node fresh : Node) (reached : descend slots 0 root place = some node)
    (before : slots place.length node position = .empty)
    (after : slots' place.length node position = .table fresh)
    (blank : ∀ index, slots' (place.length + 1) fresh index = .empty)
    (unreached : ¬ Reached slots root fresh) (tree : Tree slots root) : Tree slots' root := by
  intro path other target first second
  rw [descend_linked agree node fresh reached before after blank] at first second
  split at first
  · split at second
    · simp_all
    · have same : fresh = target := Option.some.inj first
      exact False.elim (unreached ⟨other, same ▸ second⟩)
  · split at second
    · have same : fresh = target := Option.some.inj second
      exact False.elim (unreached ⟨path, same ▸ first⟩)
    · exact tree path other target first second

end Edit

/-- In a tree the root is no slot's target. -/
theorem root_not_linked {root node : Node} (tree : Tree slots root) (path : List Index)
    (index : Index) (reached : descend slots 0 root path = some node) :
    slots path.length node index ≠ .table root := by
  intro pointing
  have around : descend slots 0 root (path ++ [index]) = some root :=
    descend_link slots reached pointing
  have same := tree (path ++ [index]) [] root around rfl
  simp at same

/-- In a tree two slots that point to one table are the same slot of the same
table. -/
theorem link_unique {root first second target : Node} (tree : Tree slots root)
    (path other : List Index) (index otherIndex : Index)
    (reached : descend slots 0 root path = some first)
    (reachedOther : descend slots 0 root other = some second)
    (pointing : slots path.length first index = .table target)
    (pointingOther : slots other.length second otherIndex = .table target) :
    first = second ∧ index = otherIndex := by
  have left : descend slots 0 root (path ++ [index]) = some target :=
    descend_link slots reached pointing
  have right : descend slots 0 root (other ++ [otherIndex]) = some target :=
    descend_link slots reachedOther pointingOther
  have same := tree _ _ target left right
  obtain ⟨rfl, indices⟩ := List.append_inj' same rfl
  exact ⟨Option.some.inj (reached.symm.trans reachedOther), List.singleton_inj.mp indices⟩

end XyronOS.RadixTree
