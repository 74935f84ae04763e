import Mathlib

/-!
# Text collected in chunks

A writer that hands over its text in pieces collects items in an array, ends the
array with a zero item and passes on everything before the first zero. The first
part gives the laws of such an array: it holds a text when its first cells spell
that text, a store behind the text extends it, and a zero stored behind a text
without zeros delimits exactly that text.

The second part is the list-level account of the pieces. Each input item adds a
token to the open chunk, and the token may depend on what the open chunk already
holds. A chunk is closed once it has reached a limit and at the end of the input.
Closing chunks never loses, repeats or reorders a token: the chunks, joined, are
the tokens written one after the other. The limit can still be seen in the text,
since a token is chosen by looking at an open chunk that may have just begun.
-/

namespace XyronOS.Chunks

variable {α β : Type}

section Arrays

/-- The first cells of an array spell a text. -/
def Holds (cells : Nat → α) (text : List α) : Prop :=
  (List.range text.length).map cells = text

/-- Every array holds the empty text. -/
theorem holds_nil (cells : Nat → α) : Holds cells [] := rfl

/-- A held text is read back cell by cell. -/
theorem Holds.cell {cells : Nat → α} {text : List α} (holds : Holds cells text)
    {position : Nat} (bounded : position < text.length) :
    text[position]? = some (cells position) := by
  have spelled : ((List.range text.length).map cells)[position]? = some (cells position) := by
    simp [bounded]
  rwa [holds] at spelled

/-- The cell before the end of a non-empty text holds its last item. -/
theorem Holds.last {cells : Nat → α} {text : List α} (holds : Holds cells text)
    (nonempty : text ≠ []) : text.getLast? = some (cells (text.length - 1)) := by
  have positive : 0 < text.length := List.length_pos_of_ne_nil nonempty
  rw [List.getLast?_eq_getElem?]
  exact holds.cell (by omega)

/-- A store behind a text leaves the text in place. -/
theorem Holds.store {cells : Nat → α} {text : List α} (holds : Holds cells text) (item : α) :
    Holds (Function.update cells text.length item) text := by
  have kept : (List.range text.length).map (Function.update cells text.length item) =
      (List.range text.length).map cells := by
    apply List.map_congr_left
    intro position inside
    have before : position ≠ text.length := Nat.ne_of_lt (List.mem_range.1 inside)
    rw [Function.update_of_ne before]
  exact kept.trans holds

/-- A store behind a text extends the text by the stored item. -/
theorem Holds.append {cells : Nat → α} {text : List α} (holds : Holds cells text) (item : α) :
    Holds (Function.update cells text.length item) (text ++ [item]) := by
  have kept : (List.range text.length).map (Function.update cells text.length item) = text :=
    holds.store item
  simp [Holds, List.range_succ, kept]

variable [Zero α] [DecidableEq α]

/-- The items of an array of the given size before its first zero. -/
def terminated (size : Nat) (cells : Nat → α) : List α :=
  ((List.range size).map cells).takeWhile (· ≠ 0)

/-- A zero stored behind a text without zeros delimits exactly that text. -/
theorem Holds.terminated_eq {cells : Nat → α} {text : List α} (holds : Holds cells text)
    {size : Nat} (fits : text.length < size) (nonzero : ∀ item ∈ text, item ≠ 0) :
    terminated size (Function.update cells text.length 0) = text := by
  obtain ⟨more, rfl⟩ : ∃ more, size = text.length + 1 + more := Nat.exists_eq_add_of_le fits
  have spelled : (List.range (text.length + 1)).map (Function.update cells text.length 0) =
      text ++ [0] := by
    simpa [Holds] using holds.append 0
  have passed : ∀ item ∈ text, decide (item ≠ 0) = true := by
    intro item member
    exact decide_eq_true (nonzero item member)
  rw [terminated, List.range_add, List.map_append, spelled, List.append_assoc,
    List.takeWhile_append_of_pos passed]
  simp

end Arrays

section Chunking

variable (token : List α → β → List α) (limit : Nat)

/-- The chunk that stays open behind a grown chunk: none of it once the limit is
reached. -/
def reopened (grown : List α) : List α := if limit ≤ grown.length then [] else grown

/-- The chunks an input is handed over in, the first of them begun already. The
last item closes its chunk whatever its length. -/
def chunks (opened : List α) : List β → List (List α)
  | [] => []
  | item :: rest =>
    if limit ≤ (opened ++ token opened item).length ∨ rest = [] then
      (opened ++ token opened item) :: chunks [] rest
    else chunks (opened ++ token opened item) rest

/-- The tokens of an input one after the other, each chosen in view of the chunk
that is open before it. -/
def written (opened : List α) : List β → List α
  | [] => []
  | item :: rest =>
    token opened item ++ written (reopened limit (opened ++ token opened item)) rest

/-- The chunks of an input, joined, are its tokens behind the chunk already begun. -/
theorem flatten_chunks (opened : List α) (items : List β) (complete : items = [] → opened = []) :
    (chunks token limit opened items).flatten = opened ++ written token limit opened items := by
  induction items generalizing opened with
  | nil => simp [chunks, written, complete]
  | cons item rest inductionHypothesis =>
    by_cases full : limit ≤ (opened ++ token opened item).length
    · rw [chunks, if_pos (Or.inl full), List.flatten_cons, inductionHypothesis [] (fun _ => rfl),
        written, reopened, if_pos full]
      simp
    · by_cases final : rest = []
      · subst final
        simp [chunks, written]
      · rw [chunks, if_neg (by tauto), inductionHypothesis _ (by tauto), written, reopened,
          if_neg full]
        simp

end Chunking

end XyronOS.Chunks
