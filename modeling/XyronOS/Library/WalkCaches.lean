import Mathlib.Data.Set.Insert
import XyronOS.Library.RadixTree

/-!
# Caches of table walks

A processor that walks a radix tree remembers what it has found: final values by key,
and tables by the indices that lead to them. A later walk may start at a remembered
table, or be answered by a remembered value without any walk. What is remembered is
chosen by the processor alone: it walks for any key at any time, and forgets at will.

A cache is faithful to a set of allowed answers if no key gets an answer outside it.
Walking and forgetting keep a cache faithful. Rewriting the tables does as long as
every path still leads where it led and the tables themselves give allowed answers, so
that only the answers that are no longer wanted have to be forgotten by command.
-/

namespace XyronOS.RadixTree

variable {Key Node Leaf Index : Type}

/-- Remembered final values, by key, and remembered tables, by the path to them. -/
structure WalkCache (Key Node Leaf Index : Type) where
  leaves : Set (Key × Leaf)
  nodes : Set (List Index × Node)

namespace WalkCache

/-- Nothing is remembered. -/
def empty : WalkCache Key Node Leaf Index := ⟨∅, ∅⟩

/-- Forget the final values of some keys. -/
def forget (cache : WalkCache Key Node Leaf Index) (keys : Set Key) :
    WalkCache Key Node Leaf Index :=
  { cache with leaves := {entry ∈ cache.leaves | entry.1 ∉ keys} }

end WalkCache

variable (slots slots' : Nat → Node → Index → Slot Node Leaf) (root : Node)
  (path : Key → List Index)

/-- The tables a walk may start at, with the path it then has behind it. -/
inductive StartsAt (cache : WalkCache Key Node Leaf Index) : List Index → Node → Prop where
  | root : StartsAt cache [] root
  | remembered {walked : List Index} {node : Node} (listed : (walked, node) ∈ cache.nodes) :
      StartsAt cache walked node

/-- The answers the processor may give for a key. -/
inductive Finds (cache : WalkCache Key Node Leaf Index) (key : Key) : Option Leaf → Prop where
  | remembered {leaf : Leaf} (listed : (key, leaf) ∈ cache.leaves) : Finds cache key (some leaf)
  | walk {walked rest : List Index} {node : Node} (start : StartsAt root cache walked node)
      (whole : path key = walked ++ rest) :
      Finds cache key (resolve slots walked.length node rest)

/-- What the processor does by itself: it remembers an answer or a table of a walk, or
forgets. -/
inductive Hardware (cache : WalkCache Key Node Leaf Index) :
    WalkCache Key Node Leaf Index → Prop where
  | fill {key : Key} {leaf : Leaf} (found : Finds slots root path cache key (some leaf)) :
      Hardware cache { cache with leaves := insert (key, leaf) cache.leaves }
  | note {walked rest : List Index} {node next : Node} (start : StartsAt root cache walked node)
      (followed : descend slots walked.length node rest = some next) :
      Hardware cache { cache with nodes := insert (walked ++ rest, next) cache.nodes }
  | evict {leaves : Set (Key × Leaf)} {nodes : Set (List Index × Node)}
      (fewerLeaves : leaves ⊆ cache.leaves) (fewerNodes : nodes ⊆ cache.nodes) :
      Hardware cache ⟨leaves, nodes⟩

/-- Remembered answers are allowed, remembered tables are where their paths lead, and
the tables themselves give allowed answers. -/
structure Faithful (allowed : Key → Option Leaf → Prop) (cache : WalkCache Key Node Leaf Index) :
    Prop where
  leaves : ∀ key leaf, (key, leaf) ∈ cache.leaves → allowed key (some leaf)
  nodes : ∀ walked node, (walked, node) ∈ cache.nodes → descend slots 0 root walked = some node
  tables : ∀ key, allowed key (resolve slots 0 root (path key))

variable {slots slots' root path}

namespace Faithful

variable {allowed : Key → Option Leaf → Prop} {cache : WalkCache Key Node Leaf Index}
  (faithful : Faithful slots root path allowed cache)

include faithful

/-- A walk starts where its path leads. -/
theorem startsAt {walked : List Index} {node : Node} (start : StartsAt root cache walked node) :
    descend slots 0 root walked = some node := by
  cases start with
  | root => rfl
  | remembered listed => exact faithful.nodes walked node listed

/-- Every answer is allowed. -/
theorem finds {key : Key} {found : Option Leaf} (answer : Finds slots root path cache key found) :
    allowed key found := by
  cases answer with
  | remembered listed => exact faithful.leaves key _ listed
  | @walk walked rest node start whole =>
    have same := resolve_append slots 0 root node walked rest (faithful.startsAt start)
    rw [Nat.zero_add, ← whole] at same
    rw [← same]
    exact faithful.tables key

/-- What the processor does by itself keeps a cache faithful. -/
theorem hardware {after : WalkCache Key Node Leaf Index}
    (step : Hardware slots root path cache after) : Faithful slots root path allowed after := by
  cases step with
  | fill found =>
    refine ⟨?_, faithful.nodes, faithful.tables⟩
    rintro key leaf (same | listed)
    · cases same
      exact faithful.finds found
    · exact faithful.leaves key leaf listed
  | @note walked rest node next start followed =>
    refine ⟨faithful.leaves, ?_, faithful.tables⟩
    rintro other table (same | listed)
    · cases same
      rw [descend_append, faithful.startsAt start, Option.bind_some, Nat.zero_add]
      exact followed
    · exact faithful.nodes other table listed
  | evict fewerLeaves fewerNodes =>
    exact ⟨fun key leaf listed => faithful.leaves key leaf (fewerLeaves listed),
      fun walked node listed => faithful.nodes walked node (fewerNodes listed), faithful.tables⟩

/-- Rewritten tables whose paths lead where they led keep a cache faithful, if they
give allowed answers. -/
theorem rewritten (kept : ∀ walked node, descend slots 0 root walked = some node →
      descend slots' 0 root walked = some node)
    (tables : ∀ key, allowed key (resolve slots' 0 root (path key))) :
    Faithful slots' root path allowed cache :=
  ⟨faithful.leaves, fun walked node listed => kept walked node (faithful.nodes walked node listed),
    tables⟩

/-- More answers may be allowed. -/
theorem mono {more : Key → Option Leaf → Prop}
    (weaker : ∀ key found, allowed key found → more key found) :
    Faithful slots root path more cache :=
  ⟨fun key leaf listed => weaker key _ (faithful.leaves key leaf listed), faithful.nodes,
    fun key => weaker key _ (faithful.tables key)⟩

/-- Once some keys are forgotten, they have no answer but that of the tables. -/
theorem forget (keys : Set Key) :
    Faithful slots root path
      (fun key found => allowed key found ∧ (key ∈ keys → found = resolve slots 0 root (path key)))
      (cache.forget keys) := by
  refine ⟨?_, faithful.nodes, fun key => ⟨faithful.tables key, fun _ => rfl⟩⟩
  rintro key leaf ⟨listed, kept⟩
  exact ⟨faithful.leaves key leaf listed, fun forgotten => absurd forgotten kept⟩

end Faithful

end XyronOS.RadixTree
