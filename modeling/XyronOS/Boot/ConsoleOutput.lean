import XyronOS.Library.Chunks

/-!
# A text file on the firmware console

The bootloader prints a file of the boot volume with `PrintAscii`, which widens
every byte to a console character, puts a carriage return before a bare newline
and hands the text to `OutputString` in chunks collected on the stack. The model
keeps the chunk as an array of cells, records every cell index that is read or
written and collects the strings the firmware is given.

The loop refines a list-level account in which the open chunk is a list of bytes
and the array cells are its widened characters. Over it the printed text is
compared with the text a reader expects, the buffer with a carriage return before
every newline that does not follow one already.

The two differ in one situation. Whether a newline follows a carriage return is
decided from the open chunk, which is empty right behind a chunk that was handed
over. A carriage return that fills its chunk is forgotten there, and the newline
behind it receives a second one. A cursor over the buffer counts how far the open
chunk is filled, so that this is a condition on the buffer alone. A buffer without
carriage returns always meets it, and is printed as the serial port would print it.
-/

namespace XyronOS.Boot

open Chunks

/-- The byte `'\n'`. -/
def lineFeed : BitVec 8 := 0x0A#8

/-- The byte `'\r'`. -/
def carriageReturn : BitVec 8 := 0x0D#8

/-- The console character `L'\r'`. -/
def wideReturn : BitVec 16 := 0x000D#16

/-- The conversion of a `CHAR8` to a `CHAR16`. The former is a plain `char`, which
is signed on the compiler's target, so that the conversion extends the sign. -/
def char16 (byte : BitVec 8) : BitVec 16 := byte.signExtend 16

/-- The number of cells of the chunk array. -/
def chunkSize : Nat := 128

/-- The number of characters from which on a chunk is handed over. -/
def chunkLimit : Nat := 125

/-- The local variables of `PrintAscii`, with the cell indices it has used and the
strings it has passed to `OutputString`, the first of them first. -/
structure Printer where
  chunk : Nat → BitVec 16
  chunkLen : Nat
  indices : List Nat
  strings : List (List (BitVec 16))

namespace Printer

/-- The test that puts a carriage return before a byte. -/
def returnsBefore (printer : Printer) (byte : BitVec 8) : Bool :=
  byte == lineFeed &&
    (printer.chunkLen == 0 || printer.chunk (printer.chunkLen - 1) != wideReturn)

/-- The cell index this test uses: the last character is only read for a newline
that does not begin its chunk. -/
def lookBack (printer : Printer) (byte : BitVec 8) : Printer :=
  if byte = lineFeed ∧ printer.chunkLen ≠ 0 then
    { printer with indices := printer.indices ++ [printer.chunkLen - 1] }
  else printer

/-- Store a character behind the chunk, `chunk[chunkLen++] = character`. -/
def put (printer : Printer) (character : BitVec 16) : Printer :=
  { printer with
    chunk := Function.update printer.chunk printer.chunkLen character
    chunkLen := printer.chunkLen + 1
    indices := printer.indices ++ [printer.chunkLen] }

/-- Terminate the chunk, pass it to `OutputString` and begin the next one. -/
def outputString (printer : Printer) : Printer :=
  let ended : Nat → BitVec 16 := Function.update printer.chunk printer.chunkLen 0
  { chunk := ended
    chunkLen := 0
    indices := printer.indices ++ [printer.chunkLen]
    strings := printer.strings ++ [terminated chunkSize ended] }

/-- The stores of one pass of the loop body. -/
def collect (printer : Printer) (byte : BitVec 8) : Printer :=
  if printer.returnsBefore byte then
    ((printer.lookBack byte).put wideReturn).put (char16 byte)
  else (printer.lookBack byte).put (char16 byte)

/-- One pass of the loop body, told whether its byte is the last one. -/
def printByte (printer : Printer) (byte : BitVec 8) (last : Bool) : Printer :=
  if chunkLimit ≤ (printer.collect byte).chunkLen ∨ last = true then
    (printer.collect byte).outputString
  else printer.collect byte

/-- The loop over the bytes that are left; the last one has none behind it. -/
def printBytes (printer : Printer) : List (BitVec 8) → Printer
  | [] => printer
  | byte :: rest => (printer.printByte byte rest.isEmpty).printBytes rest

/-- What the console has been given, the strings joined. -/
def text (printer : Printer) : List (BitVec 16) := printer.strings.flatten

end Printer

/-- `PrintAscii` on a buffer, whose chunk begins with whatever the stack holds. -/
def printAscii (stack : Nat → BitVec 16) (buffer : List (BitVec 8)) : Printer :=
  Printer.printBytes ⟨stack, 0, [], []⟩ buffer

/-- What a byte is printed as in view of the byte before it. -/
def expanded (previous : Option (BitVec 8)) (byte : BitVec 8) : List (BitVec 8) :=
  if byte = lineFeed ∧ previous ≠ some carriageReturn then [carriageReturn, byte] else [byte]

/-- The expected text: a carriage return is inserted before exactly those newlines
that do not follow one in the buffer. -/
def withReturns (previous : Option (BitVec 8)) : List (BitVec 8) → List (BitVec 8)
  | [] => []
  | byte :: rest => expanded previous byte ++ withReturns (some byte) rest

/-- A position in the buffer: the byte before it, and how many characters have gone
into the open chunk. -/
structure Cursor where
  previous : Option (BitVec 8)
  filled : Nat
  deriving DecidableEq, Repr

namespace Cursor

/-- The beginning of the buffer. -/
def start : Cursor := ⟨none, 0⟩

/-- Pass one byte, which takes as many characters as it is expected to be printed
as. A chunk that reaches the limit leaves an empty one behind. -/
def advance (cursor : Cursor) (byte : BitVec 8) : Cursor :=
  let filled : Nat := cursor.filled + (expanded cursor.previous byte).length
  ⟨some byte, if chunkLimit ≤ filled then 0 else filled⟩

/-- Pass a number of bytes. -/
def after (cursor : Cursor) (bytes : List (BitVec 8)) : Cursor := bytes.foldl advance cursor

end Cursor

/-- No newline behind a carriage return is the first character of a chunk. -/
def KeepsPairs (cursor : Cursor) (buffer : List (BitVec 8)) : Prop :=
  ∀ position < buffer.length, buffer[position]? = some lineFeed →
    (cursor.after (buffer.take position)).previous = some carriageReturn →
    (cursor.after (buffer.take position)).filled ≠ 0

instance (cursor : Cursor) (buffer : List (BitVec 8)) : Decidable (KeepsPairs cursor buffer) :=
  inferInstanceAs (Decidable (∀ position < buffer.length, _ → _ → _))

/-! ### Widened bytes -/

/-- Only a carriage return is widened to one. -/
theorem char16_eq_wideReturn (byte : BitVec 8) :
    char16 byte = wideReturn ↔ byte = carriageReturn := by
  revert byte
  decide +kernel

/-- Only the NUL byte is widened to the terminator. -/
theorem char16_eq_zero (byte : BitVec 8) : char16 byte = 0 ↔ byte = 0 := by
  revert byte
  decide +kernel

/-- A byte keeps its value in the conversion exactly if it is an ASCII one. -/
theorem char16_eq_setWidth (byte : BitVec 8) :
    char16 byte = byte.setWidth 16 ↔ byte < 0x80#8 := by
  revert byte
  decide +kernel

/-! ### The printed text against the expected one -/

/-- The token of the list-level account: the byte before is looked up in the open
chunk. -/
def looked (opened : List (BitVec 8)) (byte : BitVec 8) : List (BitVec 8) :=
  expanded opened.getLast? byte

/-- A byte is printed as itself, behind a carriage return or not. -/
theorem expanded_cases (previous : Option (BitVec 8)) (byte : BitVec 8) :
    expanded previous byte = [carriageReturn, byte] ∨ expanded previous byte = [byte] :=
  ite_eq_or_eq _ _ _

/-- A byte takes one or two characters. -/
theorem expanded_length_le (previous : Option (BitVec 8)) (byte : BitVec 8) :
    (expanded previous byte).length ≤ 2 := by
  cases expanded_cases previous byte with
  | inl double => simp [double]
  | inr single => simp [single]

/-- The open chunk is empty or ends in the byte before the cursor. -/
def Trails (opened : List (BitVec 8)) (previous : Option (BitVec 8)) : Prop :=
  opened = [] ∨ opened.getLast? = previous

/-- Behind a byte the open chunk, if any is left, ends in that byte. -/
theorem trails_reopened (opened : List (BitVec 8)) (byte : BitVec 8) :
    Trails (reopened chunkLimit (opened ++ looked opened byte)) (some byte) := by
  have ends : (opened ++ looked opened byte).getLast? = some byte := by
    cases expanded_cases opened.getLast? byte with
    | inl double => simp [looked, double]
    | inr single => simp [looked, single]
  cases ite_eq_or_eq (chunkLimit ≤ (opened ++ looked opened byte).length) []
      (opened ++ looked opened byte) with
  | inl closed => exact Or.inl closed
  | inr grown =>
    right
    rw [reopened, grown, ends]

/-- With the byte before it still in the open chunk, a byte is printed as expected. -/
theorem looked_eq {opened : List (BitVec 8)} {previous : Option (BitVec 8)}
    (trails : Trails opened previous) {byte : BitVec 8}
    (kept : byte = lineFeed → previous = some carriageReturn → opened ≠ []) :
    looked opened byte = expanded previous byte := by
  cases trails with
  | inr same => rw [looked, same]
  | inl empty =>
    subst empty
    have bare : byte = lineFeed → previous ≠ some carriageReturn := by
      intro newline follows
      exact kept newline follows rfl
    by_cases newline : byte = lineFeed
    · simp [looked, expanded, newline, bare newline]
    · simp [looked, expanded, newline]

/-- Behind a carriage return that the open chunk has lost, a newline takes one
character more than expected. -/
theorem looked_split :
    (expanded (some carriageReturn) lineFeed).length < (looked [] lineFeed).length := by
  decide

/-- A byte never takes fewer characters than expected. -/
theorem expanded_length_le_looked {opened : List (BitVec 8)} {previous : Option (BitVec 8)}
    (trails : Trails opened previous) (byte : BitVec 8) :
    (expanded previous byte).length ≤ (looked opened byte).length := by
  by_cases kept : byte = lineFeed → previous = some carriageReturn → opened ≠ []
  · exact Nat.le_of_eq (congrArg List.length (looked_eq trails kept).symm)
  · push Not at kept
    obtain ⟨rfl, rfl, rfl⟩ := kept
    exact Nat.le_of_lt looked_split

/-- The printed text is never shorter than the expected one. -/
theorem withReturns_length_le {opened : List (BitVec 8)} {previous : Option (BitVec 8)}
    (trails : Trails opened previous) (buffer : List (BitVec 8)) :
    (withReturns previous buffer).length ≤ (written looked chunkLimit opened buffer).length := by
  induction buffer generalizing opened previous with
  | nil => exact Nat.le_refl _
  | cons byte rest inductionHypothesis =>
    have head : (expanded previous byte).length ≤ (looked opened byte).length :=
      expanded_length_le_looked trails byte
    have tail := inductionHypothesis (trails_reopened opened byte)
    simp only [withReturns, written, List.length_append]
    omega

/-- The open chunk is as full as the cursor says and trails it. -/
structure Follows (opened : List (BitVec 8)) (cursor : Cursor) : Prop where
  filled : cursor.filled = opened.length
  trails : Trails opened cursor.previous

/-- No chunk is open at the beginning of the buffer. -/
theorem follows_start : Follows [] Cursor.start := ⟨rfl, Or.inl rfl⟩

/-- The cursor keeps up with the open chunk over a byte printed as expected. -/
theorem Follows.advance {opened : List (BitVec 8)} {cursor : Cursor}
    (follows : Follows opened cursor) {byte : BitVec 8}
    (expected : looked opened byte = expanded cursor.previous byte) :
    Follows (reopened chunkLimit (opened ++ looked opened byte)) (cursor.advance byte) where
  filled := by
    rw [Cursor.advance, follows.filled, ← expected, ← List.length_append, reopened]
    split
    · rfl
    · rfl
  trails := trails_reopened opened byte

/-- Pairs are kept over a buffer exactly if its first byte does not split one and
pairs are kept over the rest. -/
theorem keepsPairs_cons (cursor : Cursor) (byte : BitVec 8) (rest : List (BitVec 8)) :
    KeepsPairs cursor (byte :: rest) ↔
      (byte = lineFeed → cursor.previous = some carriageReturn → cursor.filled ≠ 0) ∧
        KeepsPairs (cursor.advance byte) rest := by
  simp only [KeepsPairs, List.length_cons, Nat.forall_lt_succ_left']
  simp [Cursor.after]

/-- While pairs are kept, the printed text is the expected one. -/
theorem written_eq_withReturns {opened : List (BitVec 8)} {cursor : Cursor}
    (follows : Follows opened cursor) {buffer : List (BitVec 8)}
    (keeps : KeepsPairs cursor buffer) :
    written looked chunkLimit opened buffer = withReturns cursor.previous buffer := by
  induction buffer generalizing opened cursor with
  | nil => rfl
  | cons byte rest inductionHypothesis =>
    obtain ⟨first, later⟩ := (keepsPairs_cons cursor byte rest).1 keeps
    have expected : looked opened byte = expanded cursor.previous byte := by
      apply looked_eq follows.trails
      intro newline return' empty
      exact first newline return' (by rw [follows.filled, empty, List.length_nil])
    rw [written, withReturns, inductionHypothesis (follows.advance expected) later, expected]
    rfl

/-- A text as long as the expected one has kept its pairs. -/
theorem keepsPairs_of_length {opened : List (BitVec 8)} {cursor : Cursor}
    (follows : Follows opened cursor) {buffer : List (BitVec 8)}
    (same : (written looked chunkLimit opened buffer).length =
      (withReturns cursor.previous buffer).length) :
    KeepsPairs cursor buffer := by
  induction buffer generalizing opened cursor with
  | nil => simp [KeepsPairs]
  | cons byte rest inductionHypothesis =>
    have tail : (withReturns (some byte) rest).length ≤
        (written looked chunkLimit (reopened chunkLimit (opened ++ looked opened byte))
          rest).length :=
      withReturns_length_le (trails_reopened opened byte) rest
    simp only [written, withReturns, List.length_append] at same
    have kept : byte = lineFeed → cursor.previous = some carriageReturn → opened ≠ [] := by
      rintro rfl return' rfl
      rw [return'] at same
      have longer := looked_split
      omega
    have expected : looked opened byte = expanded cursor.previous byte :=
      looked_eq follows.trails kept
    refine (keepsPairs_cons cursor byte rest).2 ⟨?_, ?_⟩
    · intro newline return' empty
      rw [follows.filled] at empty
      exact kept newline return' (List.eq_nil_of_length_eq_zero empty)
    · apply inductionHypothesis (follows.advance expected)
      rw [expected] at same ⊢
      exact Nat.add_left_cancel same

/-! ### The loop against the list-level account -/

/-- The array holds the widened bytes of the open chunk, and no index past the
array has been used. -/
structure Represents (printer : Printer) (opened : List (BitVec 8)) : Prop where
  length : printer.chunkLen = opened.length
  holds : Holds printer.chunk (opened.map char16)
  inside : ∀ index ∈ printer.indices, index < chunkSize

namespace Represents

variable {printer : Printer} {opened : List (BitVec 8)}

/-- One more index inside the array. -/
theorem inside_append (represents : Represents printer opened) {next : Nat}
    (bounded : next < chunkSize) : ∀ index ∈ printer.indices ++ [next], index < chunkSize := by
  intro index member
  cases List.mem_append.1 member with
  | inl earlier => exact represents.inside index earlier
  | inr latest => rwa [List.mem_singleton.1 latest]

/-- The test of the code looks up the byte before in the open chunk. -/
theorem returnsBefore_iff (represents : Represents printer opened) (byte : BitVec 8) :
    printer.returnsBefore byte = true ↔
      byte = lineFeed ∧ opened.getLast? ≠ some carriageReturn := by
  by_cases empty : opened = []
  · subst empty
    simp [Printer.returnsBefore, represents.length]
  · obtain ⟨last, ends⟩ : ∃ last, opened.getLast? = some last :=
      Option.isSome_iff_exists.1 (List.getLast?_isSome.2 empty)
    have cell : char16 last = printer.chunk (printer.chunkLen - 1) := by
      have spelled := represents.holds.last (by simpa using empty)
      simpa [List.getLast?_map, ends, ← represents.length] using spelled
    have filled : printer.chunkLen ≠ 0 := by simpa [represents.length] using empty
    simp [Printer.returnsBefore, filled, ← cell, char16_eq_wideReturn, ends]

/-- Looking back changes no cell. -/
theorem lookBack (represents : Represents printer opened) (room : opened.length < chunkSize)
    (byte : BitVec 8) : Represents (printer.lookBack byte) opened := by
  rw [Printer.lookBack]
  split
  · refine ⟨represents.length, represents.holds, represents.inside_append ?_⟩
    rw [represents.length]
    exact Nat.lt_of_le_of_lt (Nat.sub_le _ _) room
  · exact represents

/-- A store extends the open chunk. -/
theorem put (represents : Represents printer opened) (room : opened.length < chunkSize)
    (byte : BitVec 8) : Represents (printer.put (char16 byte)) (opened ++ [byte]) where
  length := by simp [Printer.put, represents.length]
  holds := by
    have extended := represents.holds.append (char16 byte)
    simpa [Printer.put, represents.length] using extended
  inside := represents.inside_append (represents.length ▸ room)

/-- The stores for one byte extend the open chunk by its token. -/
theorem collect (represents : Represents printer opened) (room : opened.length + 1 < chunkSize)
    (byte : BitVec 8) : Represents (printer.collect byte) (opened ++ looked opened byte) := by
  have seen : Represents (printer.lookBack byte) opened :=
    represents.lookBack (Nat.lt_of_succ_lt room) byte
  by_cases returns : printer.returnsBefore byte = true
  · have token : looked opened byte = [carriageReturn] ++ [byte] :=
      if_pos ((represents.returnsBefore_iff byte).1 returns)
    rw [Printer.collect, if_pos returns, token, ← List.append_assoc]
    have returned : Represents ((printer.lookBack byte).put wideReturn)
        (opened ++ [carriageReturn]) :=
      seen.put (Nat.lt_of_succ_lt room) carriageReturn
    exact returned.put (by simpa using room) byte
  · have token : looked opened byte = [byte] :=
      if_neg (fun bare => returns ((represents.returnsBefore_iff byte).2 bare))
    rw [Printer.collect, if_neg returns, token]
    exact seen.put (Nat.lt_of_succ_lt room) byte

/-- A chunk handed over leaves an empty one. -/
theorem outputString (represents : Represents printer opened)
    (room : opened.length < chunkSize) : Represents printer.outputString [] where
  length := rfl
  holds := holds_nil _
  inside := represents.inside_append (represents.length ▸ room)

/-- The string handed over is the whole chunk, as none of its bytes ends it early. -/
theorem outputString_strings (represents : Represents printer opened)
    (room : opened.length < chunkSize) (noNul : ∀ byte ∈ opened, byte ≠ 0) :
    printer.outputString.strings = printer.strings ++ [opened.map char16] := by
  have nonzero : ∀ character ∈ opened.map char16, character ≠ 0 := by
    intro character member
    obtain ⟨byte, inside, rfl⟩ := List.mem_map.1 member
    rw [Ne, char16_eq_zero]
    exact noNul byte inside
  have string := represents.holds.terminated_eq (by simpa using room) nonzero
  rw [List.length_map, ← represents.length] at string
  simp only [Printer.outputString, string]

end Represents

/-- Collecting a byte hands nothing over. -/
theorem Printer.collect_strings (printer : Printer) (byte : BitVec 8) :
    (printer.collect byte).strings = printer.strings := by
  have seen : (printer.lookBack byte).strings = printer.strings := by
    rw [Printer.lookBack]
    split
    · rfl
    · rfl
  rw [Printer.collect]
  split
  · exact seen
  · exact seen

/-- The bytes a byte is printed as end no string. -/
theorem looked_noNul {opened : List (BitVec 8)} {byte : BitVec 8} (nonzero : byte ≠ 0)
    (noNul : ∀ earlier ∈ opened, earlier ≠ 0) :
    ∀ character ∈ opened ++ looked opened byte, character ≠ 0 := by
  intro character member
  cases List.mem_append.1 member with
  | inl earlier => exact noNul character earlier
  | inr latest =>
    cases expanded_cases opened.getLast? byte with
    | inl double =>
      rw [looked, double] at latest
      cases List.mem_pair.1 latest with
      | inl return' => exact return' ▸ by decide
      | inr same => exact same ▸ nonzero
    | inr single =>
      rw [looked, single] at latest
      exact List.mem_singleton.1 latest ▸ nonzero

/-- Between two bytes, the open chunk has not reached the limit and no byte in it
would end the string early. -/
structure Ready (printer : Printer) (opened : List (BitVec 8)) : Prop
    extends Represents printer opened where
  room : opened.length < chunkLimit
  noNul : ∀ byte ∈ opened, byte ≠ 0

namespace Ready

variable {printer : Printer} {opened : List (BitVec 8)}

/-- The loop begins with an empty chunk. -/
theorem initial (stack : Nat → BitVec 16) : Ready ⟨stack, 0, [], []⟩ [] where
  length := rfl
  holds := holds_nil stack
  inside := by simp
  room := by decide
  noNul := by simp

/-- Below the limit the array has room for one more byte and the terminator. -/
theorem fits (ready : Ready printer opened) (byte : BitVec 8) :
    (opened ++ looked opened byte).length < chunkSize := by
  have narrow : (looked opened byte).length ≤ 2 := expanded_length_le opened.getLast? byte
  have room : opened.length < 125 := ready.room
  rw [List.length_append]
  calc opened.length + (looked opened byte).length ≤ 124 + 2 := by omega
    _ < chunkSize := by decide

/-- The chunk grown by one byte is in the array. -/
theorem collected (ready : Ready printer opened) (byte : BitVec 8) :
    Represents (printer.collect byte) (opened ++ looked opened byte) := by
  have room : opened.length < 125 := ready.room
  apply ready.collect
  calc opened.length + 1 ≤ 125 := room
    _ < chunkSize := by decide

/-- A byte that fills the chunk or ends the buffer hands the chunk over. -/
theorem printByte_closes (ready : Ready printer opened) {byte : BitVec 8} (nonzero : byte ≠ 0)
    {last : Bool}
    (closes : chunkLimit ≤ (opened ++ looked opened byte).length ∨ last = true) :
    Ready (printer.printByte byte last) [] ∧
      (printer.printByte byte last).strings =
        printer.strings ++ [(opened ++ looked opened byte).map char16] := by
  have grown := ready.collected byte
  rw [Printer.printByte, grown.length, if_pos closes]
  constructor
  · exact ⟨grown.outputString (ready.fits byte), by decide, by simp⟩
  · rw [grown.outputString_strings (ready.fits byte) (looked_noNul nonzero ready.noNul),
      printer.collect_strings]

/-- Any other byte stays in the open chunk. -/
theorem printByte_stays (ready : Ready printer opened) {byte : BitVec 8} (nonzero : byte ≠ 0)
    {last : Bool}
    (stays : ¬ (chunkLimit ≤ (opened ++ looked opened byte).length ∨ last = true)) :
    Ready (printer.printByte byte last) (opened ++ looked opened byte) ∧
      (printer.printByte byte last).strings = printer.strings := by
  have grown := ready.collected byte
  have room : (opened ++ looked opened byte).length < chunkLimit :=
    Nat.lt_of_not_le (fun full => stays (Or.inl full))
  rw [Printer.printByte, grown.length, if_neg stays]
  exact ⟨⟨grown, room, looked_noNul nonzero ready.noNul⟩, printer.collect_strings byte⟩

/-- The loop passes on the chunks of the list-level account and stays inside the
array. -/
theorem printBytes (ready : Ready printer opened) {buffer : List (BitVec 8)}
    (nonzero : ∀ byte ∈ buffer, byte ≠ 0) :
    (∀ index ∈ (printer.printBytes buffer).indices, index < chunkSize) ∧
      (printer.printBytes buffer).strings =
        printer.strings ++ (chunks looked chunkLimit opened buffer).map (List.map char16) := by
  induction buffer generalizing printer opened with
  | nil => exact ⟨ready.inside, (List.append_nil _).symm⟩
  | cons byte rest inductionHypothesis =>
    obtain ⟨first, later⟩ := List.forall_mem_cons.1 nonzero
    have final : rest.isEmpty = true ↔ rest = [] := List.isEmpty_iff
    rw [Printer.printBytes, chunks]
    by_cases closes : chunkLimit ≤ (opened ++ looked opened byte).length ∨ rest = []
    · obtain ⟨next, passed⟩ := ready.printByte_closes first (closes.imp_right final.2)
      obtain ⟨inside, strings⟩ := inductionHypothesis next later
      refine ⟨inside, ?_⟩
      rw [strings, passed, if_pos closes]
      simp
    · obtain ⟨next, passed⟩ :=
        ready.printByte_stays first (fun other => closes (other.imp_right final.1))
      obtain ⟨inside, strings⟩ := inductionHypothesis next later
      refine ⟨inside, ?_⟩
      rw [strings, passed, if_neg closes]

end Ready

/-! ### `PrintAscii` on a whole buffer -/

/-- The console is given the widened tokens of the list-level account. -/
theorem printAscii_text (stack : Nat → BitVec 16) {buffer : List (BitVec 8)}
    (noNul : ∀ byte ∈ buffer, byte ≠ 0) :
    (printAscii stack buffer).text = (written looked chunkLimit [] buffer).map char16 := by
  obtain ⟨_, strings⟩ := (Ready.initial stack).printBytes noNul
  have joined : (chunks looked chunkLimit [] buffer).flatten =
      written looked chunkLimit [] buffer :=
    flatten_chunks looked chunkLimit [] buffer (fun _ => rfl)
  rw [Printer.text, printAscii, strings, List.nil_append, ← List.map_flatten, joined]

/-- A buffer has the same characters outside ASCII as its expected text. -/
theorem withReturns_forall_ascii (previous : Option (BitVec 8)) (buffer : List (BitVec 8)) :
    (∀ byte ∈ withReturns previous buffer, byte < 0x80#8) ↔ ∀ byte ∈ buffer, byte < 0x80#8 := by
  have plain : carriageReturn < 0x80#8 := by decide
  induction buffer generalizing previous with
  | nil => simp [withReturns]
  | cons byte rest inductionHypothesis =>
    rw [withReturns, List.forall_mem_append, List.forall_mem_cons]
    refine and_congr ?_ (inductionHypothesis (some byte))
    cases expanded_cases previous byte with
    | inl double => simp [double, plain]
    | inr single => simp [single]

/-- A text keeps its values in the conversion exactly if it is an ASCII one. -/
theorem map_char16_eq_iff (text : List (BitVec 8)) :
    text.map char16 = text.map (BitVec.setWidth 16) ↔ ∀ byte ∈ text, byte < 0x80#8 := by
  rw [List.map_inj_left]
  simp only [char16_eq_setWidth]

/-- While pairs are kept, the console is given the expected text. -/
theorem printAscii_text_of_keepsPairs (stack : Nat → BitVec 16) {buffer : List (BitVec 8)}
    (noNul : ∀ byte ∈ buffer, byte ≠ 0) (keeps : KeepsPairs Cursor.start buffer) :
    (printAscii stack buffer).text = (withReturns none buffer).map char16 := by
  have expected : written looked chunkLimit [] buffer = withReturns none buffer :=
    written_eq_withReturns follows_start keeps
  rw [printAscii_text stack noNul, expected]

/-- A text with as many characters as expected, whatever they are, has kept its
pairs. -/
theorem keepsPairs_of_printAscii_text (stack : Nat → BitVec 16) {buffer : List (BitVec 8)}
    (noNul : ∀ byte ∈ buffer, byte ≠ 0) {widen : BitVec 8 → BitVec 16}
    (same : (printAscii stack buffer).text = (withReturns none buffer).map widen) :
    KeepsPairs Cursor.start buffer := by
  rw [printAscii_text stack noNul] at same
  have lengths := congrArg List.length same
  rw [List.length_map, List.length_map] at lengths
  exact keepsPairs_of_length follows_start lengths

/-- `PrintAscii` never leaves its chunk array. The text it prints is the buffer with
a carriage return before exactly the bare newlines if and only if no newline behind
a carriage return begins a chunk. This is for the characters the code's own
conversion makes of the bytes; for characters with the values of the bytes, the
buffer must also be an ASCII one. -/
theorem printAscii_correct_iff (stack : Nat → BitVec 16) (buffer : List (BitVec 8))
    (noNul : ∀ byte ∈ buffer, byte ≠ 0) :
    (∀ index ∈ (printAscii stack buffer).indices, index < chunkSize) ∧
      ((printAscii stack buffer).text = (withReturns none buffer).map char16 ↔
        KeepsPairs Cursor.start buffer) ∧
      ((printAscii stack buffer).text = (withReturns none buffer).map (BitVec.setWidth 16) ↔
        KeepsPairs Cursor.start buffer ∧ ∀ byte ∈ buffer, byte < 0x80#8) := by
  obtain ⟨inside, _⟩ := (Ready.initial stack).printBytes noNul
  refine ⟨inside, ⟨keepsPairs_of_printAscii_text stack noNul,
    printAscii_text_of_keepsPairs stack noNul⟩, ?_⟩
  rw [← withReturns_forall_ascii none, ← map_char16_eq_iff]
  constructor
  · intro same
    have keeps : KeepsPairs Cursor.start buffer :=
      keepsPairs_of_printAscii_text stack noNul same
    exact ⟨keeps, (printAscii_text_of_keepsPairs stack noNul keeps).symm.trans same⟩
  · intro ⟨keeps, values⟩
    exact (printAscii_text_of_keepsPairs stack noNul keeps).trans values

/-- A bare newline is completed and a pair is left as it stands. -/
theorem printAscii_short_text :
    (printAscii (fun _ => 0) [0x61#8, 0x0A#8, 0x62#8, 0x0D#8, 0x0A#8]).text =
      [0x0061#16, 0x000D#16, 0x000A#16, 0x0062#16, 0x000D#16, 0x000A#16] := by
  have expected : (withReturns none [0x61#8, 0x0A#8, 0x62#8, 0x0D#8, 0x0A#8]).map
      (BitVec.setWidth 16) =
        [0x0061#16, 0x000D#16, 0x000A#16, 0x0062#16, 0x000D#16, 0x000A#16] := by
    decide
  obtain ⟨_, _, values⟩ := printAscii_correct_iff (fun _ => 0)
    [0x61#8, 0x0A#8, 0x62#8, 0x0D#8, 0x0A#8] (by decide)
  rw [← expected, values]
  decide

/-- A carriage return that fills the chunk is forgotten and the newline behind it
gets a second one. A byte outside ASCII is not printed with its value. -/
theorem printAscii_pair_split :
    (∀ byte ∈ List.replicate 124 0x61#8 ++ [carriageReturn, lineFeed], byte ≠ 0) ∧
      (printAscii (fun _ => 0)
        (List.replicate 124 0x61#8 ++ [carriageReturn, lineFeed])).strings =
        [List.replicate 124 0x0061#16 ++ [0x000D#16], [0x000D#16, 0x000A#16]] ∧
      (withReturns none (List.replicate 124 0x61#8 ++ [carriageReturn, lineFeed])).map char16 =
        List.replicate 124 0x0061#16 ++ [0x000D#16, 0x000A#16] ∧
      (printAscii (fun _ => 0)
        (List.replicate 124 0x61#8 ++ [carriageReturn, lineFeed])).text ≠
        (withReturns none (List.replicate 124 0x61#8 ++ [carriageReturn, lineFeed])).map char16 ∧
      (printAscii (fun _ => 0) [0xE9#8]).strings = [[0xFFE9#16]] := by
  have strings : (printAscii (fun _ => 0)
      (List.replicate 124 0x61#8 ++ [carriageReturn, lineFeed])).strings =
        [List.replicate 124 0x0061#16 ++ [0x000D#16], [0x000D#16, 0x000A#16]] := by
    decide +kernel
  refine ⟨by decide +kernel, strings, by decide +kernel, ?_, by decide +kernel⟩
  rw [Printer.text, strings]
  decide +kernel

/-! ### Buffers without carriage returns -/

/-- The bytes `SerialWriteChar` sends to the port; the carriage return it sends
first is no newline itself. -/
def serialWriteChar (byte : BitVec 8) : List (BitVec 8) :=
  if byte = lineFeed then [carriageReturn, byte] else [byte]

/-- The bytes `SerialWriteString` sends to the port, up to the NUL byte. -/
def serialWriteString : List (BitVec 8) → List (BitVec 8)
  | [] => []
  | byte :: rest => if byte = 0 then [] else serialWriteChar byte ++ serialWriteString rest

/-- Without carriage returns there is no pair to split. -/
theorem keepsPairs_of_no_return {cursor : Cursor} (fresh : cursor.previous ≠ some carriageReturn)
    {buffer : List (BitVec 8)} (bare : ∀ byte ∈ buffer, byte ≠ carriageReturn) :
    KeepsPairs cursor buffer := by
  induction buffer generalizing cursor with
  | nil => simp [KeepsPairs]
  | cons byte rest inductionHypothesis =>
    obtain ⟨first, later⟩ := List.forall_mem_cons.1 bare
    refine (keepsPairs_cons cursor byte rest).2 ⟨fun _ follows => absurd follows fresh, ?_⟩
    exact inductionHypothesis (by simpa [Cursor.advance] using first) later

/-- Without carriage returns the serial port is sent the expected text. -/
theorem serialWriteString_eq {previous : Option (BitVec 8)}
    (fresh : previous ≠ some carriageReturn) {buffer : List (BitVec 8)}
    (noNul : ∀ byte ∈ buffer, byte ≠ 0) (bare : ∀ byte ∈ buffer, byte ≠ carriageReturn) :
    serialWriteString buffer = withReturns previous buffer := by
  induction buffer generalizing previous with
  | nil => rfl
  | cons byte rest inductionHypothesis =>
    obtain ⟨nonzero, laterNoNul⟩ := List.forall_mem_cons.1 noNul
    obtain ⟨first, later⟩ := List.forall_mem_cons.1 bare
    have token : serialWriteChar byte = expanded previous byte := by
      simp [serialWriteChar, expanded, fresh]
    have behind : some byte ≠ some carriageReturn := fun same => first (Option.some.inj same)
    rw [serialWriteString, if_neg nonzero, withReturns, token,
      inductionHypothesis behind laterNoNul later]

/-- A buffer without carriage returns reaches the console as the serial port would
print it, wherever the chunks end. -/
theorem printAscii_eq_serial (stack : Nat → BitVec 16) {buffer : List (BitVec 8)}
    (noNul : ∀ byte ∈ buffer, byte ≠ 0) (bare : ∀ byte ∈ buffer, byte ≠ carriageReturn) :
    (printAscii stack buffer).text = (serialWriteString buffer).map char16 := by
  have keeps : KeepsPairs Cursor.start buffer := keepsPairs_of_no_return (by decide) bare
  rw [printAscii_text_of_keepsPairs stack noNul keeps,
    serialWriteString_eq (Option.some_ne_none _).symm noNul bare]

end XyronOS.Boot
