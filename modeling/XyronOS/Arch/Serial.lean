import XyronOS.Boot.ConsoleOutput
import XyronOS.Library.PortIo

/-!
# The serial port

Boot loader and kernel each bring their own driver for the UART at `COM1`. Both
program it the same way and send a byte by polling the line status register until
the transmitter has room. The device is the 16550: registers behind eight ports, two
of them shared with the divisor latch, a transmit FIFO, and a shift register from
which the bytes leave on the line. It moves bytes along whenever it likes. In loopback
mode and during a break the line does not follow the shift register, and what leaves
it is gone. A byte counts as a whole: how its bits fare when the settings change while
it is being shifted out is not modelled.

Everything that is sent leaves in order, and no write finds the FIFO occupied. What
can be lost is lost when the device is programmed: that empties the FIFO, and bytes of
the firmware may have gone before it connects the line. The kernel programs a device
that the boot loader has just used. The loader has polled before each byte, so at most
its very last one is still in the FIFO then. A device that rests for ever keeps a
driver polling for ever; one that has a byte to move and does so at some time lets
both drivers come to their end.

Programming begins with a zero for the interrupt enable register. That register is
behind the divisor latch as long as the latch is open, and the latch is only known to
be closed later. From a device left with its latch open the zero goes to the divisor,
and the interrupts stay as they were.
-/

namespace XyronOS

open Executions PortIo Boot

namespace Serial

def com1 : Nat := 0x3F8
def regData : Nat := 0
def regIntEnable : Nat := 1
def regFifoCtrl : Nat := 2
def regLineCtrl : Nat := 3
def regModemCtrl : Nat := 4
def regLineStatus : Nat := 5

def lcr8n1 : BitVec 8 := 0x03#8
def lcrDlab : BitVec 8 := 0x80#8

def fcrEnableFifo : BitVec 8 := 0x01#8
def fcrClearRxFifo : BitVec 8 := 0x02#8
def fcrClearTxFifo : BitVec 8 := 0x04#8
def fcr14ByteTrigger : BitVec 8 := 0xC0#8

def mcrDtr : BitVec 8 := 0x01#8
def mcrRts : BitVec 8 := 0x02#8
def mcrOut2 : BitVec 8 := 0x08#8

def lsrTxEmpty : BitVec 8 := 0x20#8

def baudDivisor38400 : BitVec 16 := 3

end Serial

/-- The transmitting half of the device: its registers, the bytes in the FIFO, the one
in the shift register, and how many writes found the FIFO full. -/
structure Uart where
  interruptEnable : BitVec 8
  divisorLow : BitVec 8
  divisorHigh : BitVec 8
  lineControl : BitVec 8
  modemControl : BitVec 8
  fifoEnabled : Bool
  fifo : List (BitVec 8)
  shift : Option (BitVec 8)
  overruns : Nat
deriving DecidableEq, Repr

namespace Uart

open Serial

/-- Whether the divisor latch is open. -/
def dlab (uart : Uart) : Bool := uart.lineControl.getLsbD 7

/-- Room of the FIFO; without it there is the holding register alone. -/
def capacity (uart : Uart) : Nat := if uart.fifoEnabled then 16 else 1

/-- A byte for the transmitter; a full FIFO drops it. -/
def enqueue (uart : Uart) (value : BitVec 8) : Uart :=
  if uart.fifo.length < uart.capacity then { uart with fifo := uart.fifo ++ [value] }
  else { uart with overruns := uart.overruns + 1 }

/-- The FIFO control register: switching the FIFO on or off empties it, and so does its
clear bit, which counts only together with the enable bit. -/
def controlFifo (uart : Uart) (value : BitVec 8) : Uart :=
  let enable := value.getLsbD 0
  { uart with
    fifoEnabled := enable
    fifo := if enable != uart.fifoEnabled || (enable && value.getLsbD 2) then [] else uart.fifo }

/-- A write to a port. -/
def write (uart : Uart) (port : Nat) (value : BitVec 8) : Uart :=
  if port = com1 + regData then
    if uart.dlab then { uart with divisorLow := value } else uart.enqueue value
  else if port = com1 + regIntEnable then
    if uart.dlab then { uart with divisorHigh := value }
    else { uart with interruptEnable := value }
  else if port = com1 + regFifoCtrl then uart.controlFifo value
  else if port = com1 + regLineCtrl then { uart with lineControl := value }
  else if port = com1 + regModemCtrl then { uart with modemControl := value }
  else uart

/-- The line status register, as far as the transmitter goes: bit 5 for an empty FIFO,
bit 6 for an empty shift register besides. -/
def lineStatus (uart : Uart) : BitVec 8 :=
  if uart.fifo.isEmpty then (if uart.shift.isNone then 0x60#8 else 0x20#8) else 0#8

/-- A read of a port; the drivers read one only. -/
def read (uart : Uart) (port : Nat) : BitVec 8 :=
  if port = com1 + regLineStatus then uart.lineStatus else 0#8

theorem write_data (uart : Uart) (value : BitVec 8) :
    uart.write (com1 + regData) value =
      if uart.dlab then { uart with divisorLow := value } else uart.enqueue value := rfl

theorem write_intEnable (uart : Uart) (value : BitVec 8) :
    uart.write (com1 + regIntEnable) value =
      if uart.dlab then { uart with divisorHigh := value }
      else { uart with interruptEnable := value } := rfl

theorem write_fifoCtrl (uart : Uart) (value : BitVec 8) :
    uart.write (com1 + regFifoCtrl) value = uart.controlFifo value := rfl

theorem write_lineCtrl (uart : Uart) (value : BitVec 8) :
    uart.write (com1 + regLineCtrl) value = { uart with lineControl := value } := rfl

theorem write_modemCtrl (uart : Uart) (value : BitVec 8) :
    uart.write (com1 + regModemCtrl) value = { uart with modemControl := value } := rfl

/-- Whether the line follows the shift register. It does not in loopback mode, bit 4 of
the modem control register, nor during a break, bit 6 of the line control register. -/
def connected (uart : Uart) : Bool :=
  !uart.modemControl.getLsbD 4 && !uart.lineControl.getLsbD 6

/-- The device moves a byte into its shift register, or out of it: onto the line if that
is connected, and away otherwise. -/
inductive Works (uart : Uart) : Option (BitVec 8) → Uart → Prop where
  | load {byte : BitVec 8} {rest : List (BitVec 8)} (idle : uart.shift = none)
      (next : uart.fifo = byte :: rest) :
      Works uart none { uart with fifo := rest, shift := some byte }
  | send {byte : BitVec 8} (busy : uart.shift = some byte) (connected : uart.connected = true) :
      Works uart (some byte) { uart with shift := none }
  | lose {byte : BitVec 8} (busy : uart.shift = some byte)
      (disconnected : uart.connected = false) : Works uart none { uart with shift := none }

/-- The UART as a device behind ports. -/
def device : Device Uart := ⟨write, read, Works⟩

theorem device_write (uart : Uart) (port : Nat) (value : BitVec 8) :
    device.write uart port value = uart.write port value := rfl

/-- The bytes that are still to leave, in order. -/
def pending (uart : Uart) : List (BitVec 8) := uart.shift.toList ++ uart.fifo

/-- Everything but the bytes underway. -/
def settings (uart : Uart) : Uart := { uart with fifo := [], shift := none }

/-- What becomes of the bytes underway as long as none is added: a beginning is lost
before the line is connected, an end is lost when the FIFO is cleared, and what is between
has left or is underway still. The line is not disconnected. -/
structure Drained (uart : Uart) (line lost : List (BitVec 8)) (later : Uart) : Prop where
  kept : ∃ away, away ++ (line ++ (later.pending ++ lost)) = uart.pending ∧
    (uart.connected = true → away = [])
  muted : later.connected = false → line = []
  stays : uart.connected = true → later.connected = true
  fifo : later.fifo ++ lost <:+ uart.fifo

theorem Drained.refl (uart : Uart) : Drained uart [] [] uart where
  kept := ⟨[], by simp, fun _ => rfl⟩
  muted _ := rfl
  stays := id
  fifo := by simp

theorem Drained.trans {uart middle later : Uart} {line more lost others : List (BitVec 8)}
    (first : Drained uart line lost middle) (second : Drained middle more others later) :
    Drained uart (line ++ more) (others ++ lost) later where
  kept := by
    obtain ⟨away, same, none⟩ := first.kept
    obtain ⟨gone, rest, nothing⟩ := second.kept
    rw [← rest] at same
    cases connection : middle.connected with
    | true =>
      rw [nothing connection] at same
      exact ⟨away, by simpa using same, none⟩
    | false =>
      rw [first.muted connection] at same ⊢
      refine ⟨away ++ gone, by simpa using same, fun connected => ?_⟩
      simp [first.stays connected] at connection
  muted disconnected := by
    have before : middle.connected = false :=
      Bool.eq_false_iff.2 fun connected => by simp [second.stays connected] at disconnected
    rw [first.muted before, second.muted disconnected, List.nil_append]
  stays connected := second.stays (first.stays connected)
  fifo := by
    rw [← List.append_assoc]
    exact (List.suffix_append_self_iff.2 second.fifo).trans first.fifo

/-- What work alone does: it moves bytes on. -/
structure Passed (uart : Uart) (line : List (BitVec 8)) (later : Uart) : Prop where
  drained : Drained uart line [] later
  settings : later.settings = uart.settings

theorem Passed.trans {uart middle later : Uart} {line more : List (BitVec 8)}
    (first : Passed uart line middle) (second : Passed middle more later) :
    Passed uart (line ++ more) later where
  drained := first.drained.trans second.drained
  settings := second.settings.trans first.settings

/-- One step of work. -/
theorem Works.passed {uart next : Uart} {sent : Option (BitVec 8)} (moved : Works uart sent next) :
    Passed uart sent.toList next := by
  cases moved with
  | load idle first =>
    refine ⟨⟨⟨[], by simp [pending, idle, first], fun _ => rfl⟩, fun _ => rfl, id, ?_⟩, rfl⟩
    simp [first]
  | send busy connected =>
    refine ⟨⟨⟨[], by simp [pending, busy], fun _ => rfl⟩, ?_, id, by simp⟩, rfl⟩
    intro disconnected
    exact absurd connected (Bool.eq_false_iff.1 disconnected)
  | @lose byte busy disconnected =>
    refine ⟨⟨⟨[byte], by simp [pending, busy], ?_⟩, fun _ => rfl, id, by simp⟩, rfl⟩
    intro connected
    exact absurd connected (Bool.eq_false_iff.1 disconnected)

/-- Work alone satisfies its description. -/
theorem passed_working : Working Passed device where
  refl uart := ⟨.refl uart, rfl⟩
  works _ _ _ _ _ passed moved := passed.trans (Works.passed moved)

theorem dlab_settings (uart : Uart) : uart.settings.dlab = uart.dlab := rfl

theorem connected_settings (uart : Uart) : uart.settings.connected = uart.connected := rfl

/-- With the line connected nothing is lost. -/
theorem Passed.line {uart later : Uart} {line : List (BitVec 8)} (passed : Passed uart line later)
    (connected : uart.connected = true) : line ++ later.pending = uart.pending := by
  obtain ⟨away, same, none⟩ := passed.drained.kept
  simpa [none connected] using same

theorem Passed.fifo {uart later : Uart} {line : List (BitVec 8)}
    (passed : Passed uart line later) : later.fifo <:+ uart.fifo := by
  simpa using passed.drained.fifo

/-- The transmitter reports room exactly if the FIFO is empty. -/
theorem read_lineStatus (uart : Uart) :
    uart.read (com1 + regLineStatus) &&& lsrTxEmpty ≠ 0 ↔ uart.fifo = [] := by
  simp only [read, if_true, lineStatus, lsrTxEmpty]
  cases uart.fifo with
  | nil => cases uart.shift <;> simp
  | cons byte rest => simp

/-- A write that reaches a register and not the transmitter. -/
def Register (uart : Uart) (port : Nat) : Prop :=
  port ≠ com1 + regFifoCtrl ∧ (port = com1 + regData → uart.dlab = true)

/-- A write to a register leaves the bytes underway. -/
theorem write_register {uart : Uart} {port : Nat} (register : Register uart port)
    (value : BitVec 8) :
    (uart.write port value).fifo = uart.fifo ∧ (uart.write port value).shift = uart.shift := by
  obtain ⟨control, data⟩ := register
  unfold write
  split_ifs with first open_ <;> first | exact ⟨rfl, rfl⟩ | exact absurd (data first) open_

/-- It does not depend on them either. -/
theorem settings_write {uart : Uart} {port : Nat} (register : Register uart port)
    (value : BitVec 8) : (uart.write port value).settings = uart.settings.write port value := by
  obtain ⟨control, data⟩ := register
  unfold write
  rw [dlab_settings]
  split_ifs with first open_ <;> first | rfl | exact absurd (data first) open_

/-- A write to a register that does not disconnect the line. -/
theorem Drained.write {uart : Uart} {port : Nat} (register : Register uart port) {value : BitVec 8}
    (stays : uart.connected = true → (uart.write port value).connected = true) :
    Drained uart [] [] (uart.write port value) := by
  obtain ⟨fifo, shift⟩ := write_register register value
  refine ⟨⟨[], ?_, fun _ => rfl⟩, fun _ => rfl, stays, ?_⟩
  · simp [pending, fifo, shift]
  · simp [fifo]

/-- Writes one after the other. -/
def writes (uart : Uart) (values : List (Nat × BitVec 8)) : Uart :=
  values.foldl (fun uart value => uart.write value.1 value.2) uart

/-- All of the writes reach registers, and none disconnects the line. -/
def Registers (uart : Uart) : List (Nat × BitVec 8) → Prop
  | [] => True
  | value :: rest => Register uart value.1 ∧
      (uart.connected = true → (uart.write value.1 value.2).connected = true) ∧
      Registers (uart.write value.1 value.2) rest

/-- A run of writes to registers: the registers change as if the device had stood still. -/
theorem writes_drained {uart later : Uart} {values : List (Nat × BitVec 8)}
    (registers : Registers uart.settings values) {line : List (BitVec 8)}
    (execution : Execution (Step Uart.device)
      ⟨uart, values.map fun value => .out value.1 value.2⟩ line ⟨later, []⟩) :
    Drained uart line [] later ∧ later.settings = writes uart.settings values := by
  induction values generalizing uart line with
  | nil =>
    have passed := (execution_idle passed_working execution).1
    exact ⟨passed.drained, passed.settings⟩
  | cons value rest inductionHypothesis =>
    obtain ⟨register, stays, others⟩ := registers
    obtain ⟨middle, before, after, rfl, first, second⟩ :=
      @execution_finishes _ _ _ _ [Action.out value.1 value.2] _ _ execution
    obtain ⟨ready, early, late, rfl, reached, on⟩ := execution_out_finishes passed_working first
    rw [device_write] at on
    rw [← reached.settings] at register stays others
    have here : Register ready value.1 := register
    have written : (ready.write value.1 value.2).settings = ready.settings.write value.1 value.2 :=
      settings_write here value.2
    have crossed : Drained ready [] [] (ready.write value.1 value.2) := by
      refine .write here fun connected => ?_
      rw [← connected_settings, written]
      exact stays connected
    rw [← written, ← on.settings] at others
    obtain ⟨drained, settings⟩ := inductionHypothesis others second
    have arrived := (reached.drained.trans crossed).trans on.drained
    refine ⟨by simpa using arrived.trans drained, ?_⟩
    rw [settings, on.settings, written, reached.settings]
    rfl

/-- Two writes of work per byte of the FIFO, one for the shift register. -/
def budget (uart : Uart) : Nat := 2 * uart.fifo.length + uart.shift.toList.length

/-- Work uses up the budget, and a write adds one byte at most. -/
theorem budgeted : Budgeted device budget 2 where
  works uart sent next moved := by
    cases moved with
    | load idle first =>
      simp only [budget, idle, first, Option.toList_none, Option.toList_some, List.length_cons,
        List.length_nil]
      omega
    | send busy _ => simp [budget, busy]
    | lose busy _ => simp [budget, busy]
  write uart port value := by
    change (uart.write port value).budget ≤ _
    have queued : (uart.enqueue value).budget ≤ uart.budget + 2 := by
      unfold enqueue budget
      split <;> simp only [List.length_append, List.length_cons, List.length_nil] <;> omega
    have controlled : (uart.controlFifo value).budget ≤ uart.budget + 2 := by
      simp only [controlFifo, budget]
      split
      · simp only [List.length_nil]
        omega
      · omega
    unfold write
    split_ifs <;> first | exact queued | exact controlled | simp [budget]

end Uart

namespace Serial

open Uart

/-- The programming of the device, for a line speed. -/
def program (divisor : BitVec 16) : List Action :=
  [.out (com1 + regIntEnable) 0x00#8,
   .out (com1 + regLineCtrl) lcrDlab,
   .out (com1 + regData) ((divisor &&& 0xFF#16).setWidth 8),
   .out (com1 + regIntEnable) ((divisor >>> 8 &&& 0xFF#16).setWidth 8),
   .out (com1 + regLineCtrl) lcr8n1,
   .out (com1 + regFifoCtrl)
     (fcrEnableFifo ||| fcrClearRxFifo ||| fcrClearTxFifo ||| fcr14ByteTrigger),
   .out (com1 + regModemCtrl) (mcrDtr ||| mcrRts ||| mcrOut2)]

/-- The kernel's `init`. -/
def init : List Action := program baudDivisor38400

/-- The boot loader's `SerialInit`. -/
def serialInit : List Action := program baudDivisor38400

/-- Wait for room, then hand over a byte. -/
def send (byte : BitVec 8) : List Action :=
  [.await (com1 + regLineStatus) lsrTxEmpty, .out (com1 + regData) byte]

/-- The kernel's `write_byte`: a newline is preceded by a carriage return, which is no
newline itself. -/
def writeByte (byte : BitVec 8) : List Action :=
  (if byte = lineFeed then send carriageReturn else []) ++ send byte

/-- The kernel's `write_str`, on the bytes of the text. -/
def writeStr (text : List (BitVec 8)) : List Action := text.flatMap writeByte

/-- Bytes sent one after the other. -/
def transmit (bytes : List (BitVec 8)) : List Action := bytes.flatMap send

/-- The boot loader's `SerialWriteString`, on the bytes of a C string. -/
def serialWrite (text : List (BitVec 8)) : List Action := transmit (serialWriteString text)

/-- The bytes of a text. -/
def bytes (text : String) : List (BitVec 8) := text.toUTF8.data.toList.map UInt8.toBitVec

/-- The bytes on the line for a text of the kernel. -/
def wire (text : List (BitVec 8)) : List (BitVec 8) := text.flatMap serialWriteChar

theorem transmit_append (first second : List (BitVec 8)) :
    transmit (first ++ second) = transmit first ++ transmit second :=
  List.flatMap_append

theorem writeByte_eq (byte : BitVec 8) : writeByte byte = transmit (serialWriteChar byte) := by
  unfold writeByte serialWriteChar
  split <;> simp [transmit]

theorem writeStr_eq (text : List (BitVec 8)) : writeStr text = transmit (wire text) := by
  induction text with
  | nil => rfl
  | cons byte rest inductionHypothesis =>
    have unfolded : writeStr (byte :: rest) = writeByte byte ++ writeStr rest := List.flatMap_cons
    have expanded : wire (byte :: rest) = serialWriteChar byte ++ wire rest := List.flatMap_cons
    rw [unfolded, expanded, transmit_append, inductionHypothesis, writeByte_eq]

/-- What a stretch of sending does: the bytes are added behind those underway, and the
settings stay. -/
structure Wrote (uart : Uart) (line bytes : List (BitVec 8)) (later : Uart) : Prop where
  line : line ++ later.pending = uart.pending ++ bytes
  fifo : later.fifo.length ≤ max uart.fifo.length 1
  settings : later.settings = uart.settings

theorem Wrote.trans {uart middle later : Uart} {line more bytes others : List (BitVec 8)}
    (first : Wrote uart line bytes middle) (second : Wrote middle more others later) :
    Wrote uart (line ++ more) (bytes ++ others) later where
  line := by
    rw [List.append_assoc, second.line, ← List.append_assoc, first.line, List.append_assoc]
  fifo := by
    have := first.fifo
    have := second.fifo
    omega
  settings := second.settings.trans first.settings

/-- The transmitter is behind its port and leads to the line. -/
structure Transmits (uart : Uart) : Prop where
  closed : uart.dlab = false
  connected : uart.connected = true

theorem Transmits.congr {uart later : Uart} (transmits : Transmits uart)
    (same : later.settings = uart.settings) : Transmits later where
  closed := by rw [← dlab_settings, same, dlab_settings, transmits.closed]
  connected := by rw [← connected_settings, same, connected_settings, transmits.connected]

theorem Wrote.of_passed {uart later : Uart} {line : List (BitVec 8)} (transmits : Transmits uart)
    (passed : Passed uart line later) : Wrote uart line [] later where
  line := by rw [passed.line transmits.connected, List.append_nil]
  fifo := (passed.fifo.length_le).trans (Nat.le_max_left ..)
  settings := passed.settings

/-- A byte for an empty FIFO is queued. -/
theorem Wrote.write_data {uart : Uart} (closed : uart.dlab = false) (empty : uart.fifo = [])
    (byte : BitVec 8) : Wrote uart [] [byte] (uart.write (com1 + regData) byte) := by
  have room : uart.fifo.length < uart.capacity := by
    simp only [empty, capacity, List.length_nil]
    split <;> decide
  have queued : uart.write (com1 + regData) byte = { uart with fifo := uart.fifo ++ [byte] } := by
    simp [Uart.write, closed, enqueue, room]
  rw [queued]
  exact ⟨by simp [pending], by simp [empty], rfl⟩

/-- Sending one byte, seen at any moment. -/
theorem send_wrote {uart : Uart} (transmits : Transmits uart) {byte : BitVec 8}
    {line : List (BitVec 8)} {final : Driven Uart}
    (execution : Execution (Step Uart.device) ⟨uart, send byte⟩ line final) :
    ∃ sent, Wrote uart line sent final.device ∧ sent <+: [byte] ∧
      (final.remaining = [] → sent = [byte]) := by
  have parts : send byte = [Action.await (com1 + regLineStatus) lsrTxEmpty] ++
    [Action.out (com1 + regData) byte] := rfl
  rw [parts] at execution
  obtain ⟨rest, remaining, polled⟩ | ⟨middle, before, after, rfl, polled, written⟩ :=
    execution_split execution
  · have unfinished : final.remaining ≠ [] := by simp [remaining]
    have passed : Passed uart line final.device := by
      obtain ⟨-, passed⟩ | ⟨between, before, after, rfl, -, first, -, second⟩ :=
        execution_await passed_working polled
      · exact passed
      · exact first.trans second
    exact ⟨[], .of_passed transmits passed, List.nil_prefix, fun done => absurd done unfinished⟩
  · obtain ⟨waiting, -⟩ | ⟨between, early, late, rfl, -, first, set, second⟩ :=
      execution_await passed_working polled
    · simp at waiting
    · have empty : between.fifo = [] := (read_lineStatus between).1 set
      have arrived : Passed uart (early ++ late) middle := first.trans second
      have drained (line : List (BitVec 8)) (later : Uart) (passed : Passed middle line later) :
          later.fifo = [] :=
        List.suffix_nil.1 (empty ▸ (passed.fifo.trans second.fifo))
      obtain ⟨remaining, passed⟩ | ⟨ready, soon, rest, rfl, -, third, fourth⟩ :=
        execution_out passed_working written
      · refine ⟨[], .of_passed transmits (arrived.trans passed), List.nil_prefix, ?_⟩
        simp [remaining]
      · have reached := arrived.trans third
        have ready := transmits.congr reached.settings
        have queued := Wrote.write_data ready.closed (drained _ _ third) byte
        have wrote := ((Wrote.of_passed transmits reached).trans queued).trans
          (.of_passed (ready.congr queued.settings) fourth)
        exact ⟨[byte], by simpa using wrote, List.prefix_refl _, fun _ => rfl⟩

/-- Sending bytes, seen at any moment. -/
theorem transmit_wrote {uart : Uart} (transmits : Transmits uart) {bytes line : List (BitVec 8)}
    {final : Driven Uart}
    (execution : Execution (Step Uart.device) ⟨uart, transmit bytes⟩ line final) :
    ∃ sent, Wrote uart line sent final.device ∧ sent <+: bytes ∧
      (final.remaining = [] → sent = bytes) := by
  induction bytes generalizing uart line with
  | nil =>
    have passed := execution_idle passed_working execution
    exact ⟨[], .of_passed transmits passed.1, List.prefix_refl _, fun _ => rfl⟩
  | cons byte rest inductionHypothesis =>
    have parts : transmit (byte :: rest) = send byte ++ transmit rest := List.flatMap_cons
    rw [parts] at execution
    obtain ⟨left, remaining, first⟩ | ⟨middle, before, after, rfl, first, second⟩ :=
      execution_split execution
    · obtain ⟨sent, wrote, starts, finished⟩ := send_wrote transmits first
      refine ⟨sent, wrote, starts.trans (List.prefix_append [byte] rest), ?_⟩
      intro done
      obtain ⟨rfl, none⟩ := List.append_eq_nil_iff.1 (remaining.symm.trans done)
      have last : rest = [] := by
        cases rest with
        | nil => rfl
        | cons next more => simp [transmit, send] at none
      rw [finished rfl, last]
    · obtain ⟨sent, wrote, -, finished⟩ := send_wrote transmits first
      obtain rfl := finished rfl
      obtain ⟨others, more, starts, finishes⟩ :=
        inductionHypothesis (transmits.congr wrote.settings) second
      refine ⟨byte :: others, wrote.trans more, ?_, ?_⟩
      · exact List.prefix_cons_inj byte |>.2 starts
      · intro done
        rw [finishes done]

/-- The outcome of programming the device: the bytes underway are drained and the settings
known. -/
structure Programmed (uart : Uart) (line : List (BitVec 8)) (later : Uart) : Prop where
  drained : ∃ lost, Drained uart line lost later
  fifo : later.fifo = []
  settings : later.settings =
    { uart.settings with
      interruptEnable := if uart.dlab then uart.interruptEnable else 0#8
      divisorLow := 3#8
      divisorHigh := 0#8
      lineControl := lcr8n1
      modemControl := mcrDtr ||| mcrRts ||| mcrOut2
      fifoEnabled := true }

/-- The writes of the programming up to the FIFO control register. -/
def lineSetup : List (Nat × BitVec 8) :=
  [(com1 + regIntEnable, 0x00#8), (com1 + regLineCtrl, lcrDlab), (com1 + regData, 3#8),
    (com1 + regIntEnable, 0#8), (com1 + regLineCtrl, lcr8n1)]

theorem init_eq : init = lineSetup.map (fun value => Action.out value.1 value.2) ++
    ([.out (com1 + regFifoCtrl)
      (fcrEnableFifo ||| fcrClearRxFifo ||| fcrClearTxFifo ||| fcr14ByteTrigger)] ++
    [.out (com1 + regModemCtrl) (mcrDtr ||| mcrRts ||| mcrOut2)]) := by
  decide

/-- The latch is open once its bit is written. -/
theorem dlab_opened {uart : Uart} (opened : uart.lineControl = lcrDlab) : uart.dlab = true := by
  rw [dlab, opened]
  decide

/-- No value for the line control register but one with bit 6 disconnects the line. -/
theorem connected_lineCtrl {uart : Uart} {value : BitVec 8} (clear : value.getLsbD 6 = false)
    (connected : uart.connected = true) :
    (uart.write (com1 + regLineCtrl) value).connected = true := by
  rw [write_lineCtrl]
  simp only [Uart.connected, Bool.and_eq_true, clear] at connected ⊢
  exact ⟨connected.1, rfl⟩

/-- The data register is written while the latch is open. -/
theorem lineSetup_registers (uart : Uart) : Registers uart lineSetup := by
  have latched (uart : Uart) : Register (uart.write (com1 + regLineCtrl) lcrDlab)
      (com1 + regData) := ⟨by decide, fun _ => dlab_opened rfl⟩
  have other (uart : Uart) {port : Nat} (fifo : port ≠ com1 + regFifoCtrl)
      (data : port ≠ com1 + regData) : Register uart port :=
    ⟨fifo, fun same => absurd same data⟩
  have interrupts (uart : Uart) (value : BitVec 8) (connected : uart.connected = true) :
      (uart.write (com1 + regIntEnable) value).connected = true := by
    rw [write_intEnable]
    split <;> exact connected
  have divisor (uart : Uart) (opened : uart.dlab = true) (connected : uart.connected = true) :
      (uart.write (com1 + regData) 3#8).connected = true := by
    rw [write_data, if_pos opened]
    exact connected
  refine ⟨other _ (by decide) (by decide), interrupts _ _, other _ (by decide) (by decide),
    connected_lineCtrl (by decide), latched _, divisor _ (dlab_opened rfl),
    other _ (by decide) (by decide), interrupts _ _, other _ (by decide) (by decide),
    connected_lineCtrl (by decide), trivial⟩

/-- The settings the writes lead to. -/
theorem writes_lineSetup (uart : Uart) :
    writes uart lineSetup =
      { uart with
        interruptEnable := if uart.dlab then uart.interruptEnable else 0#8
        divisorLow := 3#8
        divisorHigh := 0#8
        lineControl := lcr8n1 } := by
  simp only [writes, lineSetup, List.foldl_cons, List.foldl_nil]
  rw [write_lineCtrl, write_data, if_pos (dlab_opened rfl), write_intEnable,
    if_pos (dlab_opened rfl), write_lineCtrl, write_intEnable]
  cases uart.dlab <;> rfl

/-- The programming empties the FIFO and leaves it enabled. -/
theorem controlFifo_clear (uart : Uart) :
    uart.controlFifo
      (fcrEnableFifo ||| fcrClearRxFifo ||| fcrClearTxFifo ||| fcr14ByteTrigger) =
      { uart with fifoEnabled := true, fifo := [] } := by
  simp [controlFifo, fcrEnableFifo, fcrClearRxFifo, fcrClearTxFifo, fcr14ByteTrigger]

/-- Programming the device, from any state and with the device working meanwhile. -/
theorem init_programmed {uart later : Uart} {line : List (BitVec 8)}
    (execution : Execution (Step Uart.device) ⟨uart, init⟩ line ⟨later, []⟩) :
    Programmed uart line later := by
  rw [init_eq] at execution
  obtain ⟨ready, before, rest, rfl, first, tail⟩ := execution_finishes execution
  obtain ⟨cleared, middle, after, rfl, second, third⟩ := execution_finishes tail
  obtain ⟨setup, known⟩ := writes_drained (lineSetup_registers uart.settings) first
  rw [writes_lineSetup] at known
  obtain ⟨full, early, late, rfl, reached, on⟩ := execution_out_finishes passed_working second
  obtain ⟨last, soon, more, rfl, still, left⟩ := execution_out_finishes passed_working third
  rw [device_write, write_fifoCtrl, controlFifo_clear] at on
  have emptied : Drained full [] full.fifo { full with fifoEnabled := true, fifo := [] } :=
    ⟨⟨[], by simp [pending], fun _ => rfl⟩, fun _ => rfl, id, by simp⟩
  have register : Register last (com1 + regModemCtrl) :=
    ⟨by decide, fun same => absurd same (by decide)⟩
  have connects : Drained last [] [] (last.write (com1 + regModemCtrl)
      (mcrDtr ||| mcrRts ||| mcrOut2)) := by
    refine .write register fun connected => ?_
    rw [write_modemCtrl]
    simp only [Uart.connected, Bool.and_eq_true] at connected ⊢
    exact ⟨by decide, connected.2⟩
  have start := (setup.trans reached.drained).trans emptied
  have finish := ((on.drained.trans still.drained).trans connects).trans left.drained
  refine ⟨⟨full.fifo, by simpa using start.trans finish⟩, ?_, ?_⟩
  · exact List.suffix_nil.1 (by simpa using finish.fifo)
  · have settled : last.settings = { full.settings with fifoEnabled := true } :=
      still.settings.trans on.settings
    rw [left.settings, device_write, settings_write register, settled, reached.settings, known,
      write_modemCtrl]
    rfl

/-- No write takes an overrun back. -/
theorem overruns_le {driven later : Driven Uart} {line : List (BitVec 8)}
    (execution : Execution (Step Uart.device) driven line later) :
    driven.device.overruns ≤ later.device.overruns := by
  refine execution.invariant (fun _ next => driven.device.overruns ≤ next.device.overruns)
    (Nat.le_refl _) ?_
  intro _ middle _ next earlier step
  have written (uart : Uart) (port : Nat) (value : BitVec 8) :
      uart.overruns ≤ (uart.write port value).overruns := by
    unfold Uart.write enqueue controlFifo
    split_ifs <;> first | exact Nat.le_refl _ | exact Nat.le_succ _
  cases step with
  | out state port value rest => exact earlier.trans (written state port value)
  | ready _ _ => exact earlier
  | vain _ _ => exact earlier
  | works _ moved =>
    cases moved with
    | load _ _ => exact earlier
    | send _ _ => exact earlier
    | lose _ _ => exact earlier

/-- The transmitter withholds its bit only while it has bytes to move. -/
theorem await_responsive :
    Responsive Uart.device (.await (com1 + regLineStatus) lsrTxEmpty) := by
  intro uart clear
  have occupied : uart.fifo ≠ [] := fun empty => (read_lineStatus uart).2 empty clear
  obtain ⟨byte, rest, next⟩ := List.exists_cons_of_ne_nil occupied
  cases shift : uart.shift with
  | none => exact ⟨_, _, .load shift next⟩
  | some busy =>
    cases connection : uart.connected with
    | true => exact ⟨_, _, .send shift connection⟩
    | false => exact ⟨_, _, .lose shift connection⟩

theorem transmit_responsive (bytes : List (BitVec 8)) :
    ∀ action ∈ transmit bytes, Responsive Uart.device action := by
  intro action member
  obtain ⟨byte, -, sent⟩ := List.mem_flatMap.1 member
  obtain rfl | rfl : action = .await (com1 + regLineStatus) lsrTxEmpty ∨
      action = .out (com1 + regData) byte := by
    simpa [send] using sent
  · exact await_responsive
  · trivial

theorem program_responsive (divisor : BitVec 16) :
    ∀ action ∈ program divisor, Responsive Uart.device action := by
  simp [program, Responsive]

theorem drivers_responsive (loader kernel : List (BitVec 8)) :
    ∀ action ∈ serialInit ++ (transmit loader ++ (init ++ transmit kernel)),
      Responsive Uart.device action := by
  intro action member
  simp only [List.mem_append] at member
  obtain started | loader | again | kernel := member
  · exact program_responsive _ action started
  · exact transmit_responsive _ action loader
  · exact program_responsive _ action again
  · exact transmit_responsive _ action kernel

/-- A list that loses at most its last item loses it from its second part first. -/
theorem lose_last {kept first second lost : List (BitVec 8)}
    (split : kept ++ lost = first ++ second) (single : lost.length ≤ 1) :
    ∃ left right, kept = left ++ right ∧ left <+: first ∧
      (right = second ∨ right = second.dropLast) := by
  match lost, single with
  | [], _ => exact ⟨first, second, by simpa using split, List.prefix_refl _, Or.inl rfl⟩
  | [byte], _ =>
    have shorter : kept = (first ++ second).dropLast := by rw [← split, List.dropLast_concat]
    by_cases none : second = []
    · subst none
      refine ⟨first.dropLast, [], ?_, List.dropLast_prefix _, Or.inl rfl⟩
      rw [shorter, List.append_nil, List.append_nil]
    · refine ⟨first, second.dropLast, ?_, List.prefix_refl _, Or.inr rfl⟩
      rw [shorter, List.dropLast_append_of_ne_nil none]

/-- The settings that both drivers leave behind. -/
def programmed (uart : Uart) : Uart :=
  { uart with
    interruptEnable := 0#8
    divisorLow := 3#8
    divisorHigh := 0#8
    lineControl := lcr8n1
    modemControl := mcrDtr ||| mcrRts ||| mcrOut2
    fifoEnabled := true }

/-- A programmed device transmits. -/
theorem Programmed.transmits {uart later : Uart} {line : List (BitVec 8)}
    (programmed : Programmed uart line later) : Transmits later where
  closed := by
    rw [← dlab_settings, programmed.settings]
    change lcr8n1.getLsbD 7 = false
    decide
  connected := by
    rw [← connected_settings, programmed.settings]
    change (!(mcrDtr ||| mcrRts ||| mcrOut2).getLsbD 4 && !lcr8n1.getLsbD 6) = true
    decide

/-- Both drivers one after the other, once the second one is done. -/
theorem line_of_finished {uart later : Uart} {loader kernel line : List (BitVec 8)}
    (execution : Execution (Step Uart.device)
      ⟨uart, serialInit ++ (transmit loader ++ (init ++ transmit kernel))⟩ line ⟨later, []⟩) :
    (∃ firmware printed, line ++ later.pending = firmware ++ printed ++ kernel ∧
      firmware <:+: uart.pending ∧ (uart.connected = true → firmware <+: uart.pending) ∧
      (printed = loader ∨ printed = loader.dropLast)) ∧
    later.settings = programmed uart.settings := by
  obtain ⟨first, line1, rest, rfl, start, execution⟩ := execution_finishes execution
  obtain ⟨second, line2, rest, rfl, text, execution⟩ := execution_finishes execution
  obtain ⟨third, line3, line4, rfl, again, more⟩ := execution_finishes execution
  have begun := init_programmed start
  obtain ⟨dropped, ⟨away, kept, none⟩, -⟩ := begun.drained
  obtain ⟨sent, wrote, -, finished⟩ := transmit_wrote begun.transmits text
  obtain rfl := finished rfl
  have ready := begun.transmits.congr wrote.settings
  have resumed := init_programmed again
  obtain ⟨lost, ⟨looped, left, nothing⟩, -, -, suffix⟩ := resumed.drained
  rw [nothing ready.connected, List.nil_append] at left
  rw [resumed.fifo, List.nil_append] at suffix
  obtain ⟨others, wroteMore, -, finishedMore⟩ := transmit_wrote resumed.transmits more
  obtain rfl := finishedMore rfl
  constructor
  · have few : lost.length ≤ 1 := by
      have bounded : second.fifo.length ≤ 1 := by simpa [begun.fifo] using wrote.fifo
      exact suffix.length_le.trans bounded
    have joined : (line1 ++ line2 ++ line3 ++ third.pending) ++ lost =
        (line1 ++ first.pending) ++ sent := by
      simp only [List.append_assoc] at left ⊢
      rw [left, wrote.line]
    obtain ⟨firmware, printed, split, starts, either⟩ := lose_last joined few
    have underway : away ++ (line1 ++ first.pending) ++ dropped = uart.pending := by
      simpa using kept
    refine ⟨firmware, printed, ?_, ?_, ?_, either⟩
    · rw [← split]
      simp only [List.append_assoc]
      rw [wroteMore.line]
    · exact starts.isInfix.trans ⟨away, dropped, underway⟩
    · intro connected
      rw [none connected, List.nil_append] at underway
      exact starts.trans ⟨dropped, underway⟩
  · rw [wroteMore.settings, resumed.settings, ready.closed, wrote.settings, begun.settings]
    rfl

/-- **The serial line.** The boot loader programs the device and prints its strings, the
kernel programs it again and prints its text, with the device working at any pace
between any two accesses. No byte overruns the FIFO. When all is written, what has left
and what is still underway is a stretch of what was underway before, the text of the
loader, complete or without its last byte, and the text of the kernel, complete. The
stretch is a beginning unless the line was disconnected at first. The device ends up
programmed with its interrupts off, whatever state it was found in. From every point all
can still be written, and in a fair run it will be. -/
theorem serial_line {uart : Uart} {strings : List (List (BitVec 8))} {text line : List (BitVec 8)}
    {driven : Driven Uart}
    (execution : Execution (Step Uart.device)
      ⟨uart, serialInit ++ (strings.flatMap serialWrite ++ (init ++ writeStr text))⟩ line driven) :
    driven.device.overruns = uart.overruns ∧
    (driven.remaining = [] →
      (∃ firmware loader, line ++ driven.device.pending = firmware ++ loader ++ wire text ∧
        firmware <:+: uart.pending ∧ (uart.connected = true → firmware <+: uart.pending) ∧
        (loader = strings.flatMap serialWriteString ∨
          loader = (strings.flatMap serialWriteString).dropLast)) ∧
      driven.device.settings = programmed uart.settings) ∧
    (∃ more final, Execution (Step Uart.device) driven more ⟨final, []⟩) ∧
    ∀ run : ℕ → Driven Uart, run 0 = driven → Endless Uart.device run → Fair Uart.device run →
      ∃ time, (run time).remaining = [] := by
  have written : strings.flatMap serialWrite = transmit (strings.flatMap serialWriteString) := by
    rw [transmit, List.flatMap_assoc]
    rfl
  rw [written, writeStr_eq] at execution
  have responsive : ∀ action ∈ driven.remaining, Responsive Uart.device action :=
    fun action member =>
      drivers_responsive _ _ action ((execution_suffix execution).subset member)
  obtain ⟨more, final, later⟩ := exists_completion budgeted driven responsive
  have ended := line_of_finished (execution.append later)
  have overruns : final.overruns = uart.overruns := by
    have settled : final.settings.overruns = (programmed uart.settings).overruns :=
      congrArg Uart.overruns ended.2
    exact settled
  refine ⟨?_, ?_, ⟨more, final, later⟩, ?_⟩
  · have before := overruns_le execution
    have after := overruns_le later
    simp only [overruns] at before after
    exact Nat.le_antisymm after before
  · intro done
    obtain ⟨device, remaining⟩ := driven
    obtain rfl := done
    exact line_of_finished execution
  · rintro run rfl endless fair
    exact fair_finishes budgeted endless fair responsive

/-- A device left in loopback mode with its latch open, its interrupts on and two bytes
underway. -/
def leftOpen : Uart where
  interruptEnable := 0x05#8
  divisorLow := 12#8
  divisorHigh := 0#8
  lineControl := 0x83#8
  modemControl := 0x10#8
  fifoEnabled := true
  fifo := [0x42#8]
  shift := some 0x41#8
  overruns := 0

/-- A greeting of each driver, from that device, in a fair run to its end. -/
theorem serial_line_left_open :
    ∃ run : ℕ → Driven Uart, ∃ time line final,
      run 0 = ⟨leftOpen, serialInit ++ ([[0x48#8, 0x0A#8, 0#8]].flatMap serialWrite ++
        (init ++ writeStr [0x4B#8]))⟩ ∧
      Endless Uart.device run ∧ Fair Uart.device run ∧ run time = ⟨final, []⟩ ∧
      Execution (Step Uart.device) (run 0) line (run time) ∧
      (∃ firmware loader, line ++ final.pending = firmware ++ loader ++ wire [0x4B#8] ∧
        firmware <:+: leftOpen.pending ∧
        (loader = [0x48#8, 0x0D#8, 0x0A#8] ∨ loader = [0x48#8, 0x0D#8])) ∧
      final.settings = programmed leftOpen.settings := by
  obtain ⟨run, start, endless, fair⟩ := exists_fair budgeted
    ⟨leftOpen, serialInit ++ ([[0x48#8, 0x0A#8, 0#8]].flatMap serialWrite ++
      (init ++ writeStr [0x4B#8]))⟩ (drivers_responsive [0x48#8, 0x0D#8, 0x0A#8] [0x4B#8])
  obtain ⟨time, done⟩ := (serial_line (Execution.nil)).2.2.2 run start endless fair
  obtain ⟨line, execution⟩ := endless.execution time
  have reached := execution
  rw [start] at reached
  obtain ⟨⟨firmware, loader, same, within, -, either⟩, settings⟩ := (serial_line reached).2.1 done
  exact ⟨run, time, line, (run time).device, start, endless, fair,
    congrArg (Driven.mk _) done, execution, ⟨firmware, loader, same, within, either⟩, settings⟩

/-! ### Numbers and the text behind the line -/

/-- The sixteen digits. -/
def hexDigits : List (BitVec 8) :=
  [0x30#8, 0x31#8, 0x32#8, 0x33#8, 0x34#8, 0x35#8, 0x36#8, 0x37#8,
   0x38#8, 0x39#8, 0x41#8, 0x42#8, 0x43#8, 0x44#8, 0x45#8, 0x46#8]

/-- The loop over the buffer from its end: slots left, the value, the digits so far. -/
def hexLoop : Nat → Nat → List (BitVec 8) → List (BitVec 8)
  | 0, _, digits => digits
  | slots + 1, value, digits =>
      hexLoop slots (value >>> 4) (hexDigits.getD (value &&& 0xF) 0#8 :: digits)

/-- The buffer of `write_hex64`, and of `SerialWriteHex64` up to its NUL byte. -/
def hex64 (value : Nat) : List (BitVec 8) := hexLoop 16 value []

/-- The number that digits stand for. -/
def hexValue (digits : List (BitVec 8)) : Nat :=
  digits.foldl (fun value digit => 16 * value + hexDigits.idxOf digit) 0

theorem hexLoop_append (slots value : Nat) (digits : List (BitVec 8)) :
    hexLoop slots value digits = hexLoop slots value [] ++ digits := by
  induction slots generalizing value digits with
  | zero => rfl
  | succ slots inductionHypothesis =>
    rw [hexLoop, hexLoop, inductionHypothesis, inductionHypothesis _ [_], List.append_assoc]
    rfl

theorem idxOf_digit {value : Nat} (small : value < 16) :
    hexDigits.idxOf (hexDigits.getD value 0#8) = value := by
  have known : ∀ digit : Fin 16, hexDigits.idxOf (hexDigits.getD digit 0#8) = digit := by decide
  exact known ⟨value, small⟩

/-- Digits are read back as the number. -/
theorem hexValue_hexLoop (slots value : Nat) :
    hexValue (hexLoop slots value []) = value % 16 ^ slots := by
  induction slots generalizing value with
  | zero => simp [hexLoop, hexValue, Nat.mod_one]
  | succ slots inductionHypothesis =>
    have low : value &&& 0xF = value % 16 := Nat.and_two_pow_sub_one_eq_mod value 4
    have shifted : value >>> 4 = value / 16 := Nat.shiftRight_eq_div_pow value 4
    have read (digits : List (BitVec 8)) (digit : BitVec 8) :
        hexValue (digits ++ [digit]) = 16 * hexValue digits + hexDigits.idxOf digit :=
      List.foldl_concat ..
    rw [hexLoop, hexLoop_append, read, inductionHypothesis, low, shifted,
      idxOf_digit (Nat.mod_lt _ (by decide)), Nat.pow_succ, Nat.mul_comm (16 ^ slots),
      Nat.mod_mul]
    omega

/-- Sixteen digits determine a word. -/
theorem hexValue_hex64 {value : Nat} (word : value < 2 ^ 64) : hexValue (hex64 value) = value := by
  rw [hex64, hexValue_hexLoop, Nat.mod_eq_of_lt (by simpa using word)]

theorem hexLoop_length (slots value : Nat) : (hexLoop slots value []).length = slots := by
  induction slots generalizing value with
  | zero => rfl
  | succ slots inductionHypothesis =>
    rw [hexLoop, hexLoop_append, List.length_append, inductionHypothesis]
    rfl

theorem hex64_length (value : Nat) : (hex64 value).length = 16 := hexLoop_length 16 value

/-- The text behind the bytes of a line: the carriage return right before a newline was
put there by the driver. -/
def unwire : List (BitVec 8) → List (BitVec 8)
  | [] => []
  | [byte] => [byte]
  | byte :: next :: rest =>
      if byte = carriageReturn ∧ next = lineFeed then next :: unwire rest
      else byte :: unwire (next :: rest)

/-- No text begins with a bare newline on the line. -/
theorem wire_head (text rest : List (BitVec 8)) : wire text ≠ lineFeed :: rest := by
  cases text with
  | nil => simp [wire]
  | cons byte others =>
    by_cases newline : byte = lineFeed
    · simp [wire, serialWriteChar, newline, carriageReturn, lineFeed]
    · simp [wire, serialWriteChar, newline]

/-- The line determines the text. -/
theorem unwire_wire (text : List (BitVec 8)) : unwire (wire text) = text := by
  induction text with
  | nil => rfl
  | cons byte rest inductionHypothesis =>
    by_cases newline : byte = lineFeed
    · have expanded : wire (byte :: rest) = carriageReturn :: lineFeed :: wire rest := by
        simp [wire, serialWriteChar, newline]
      rw [expanded, unwire, if_pos ⟨rfl, rfl⟩, inductionHypothesis, newline]
    · have expanded : wire (byte :: rest) = byte :: wire rest := by
        simp [wire, serialWriteChar, newline]
      rw [expanded]
      cases following : wire rest with
      | nil =>
        rw [following] at inductionHypothesis
        rw [unwire, ← inductionHypothesis]
        rfl
      | cons next others =>
        have bare : next ≠ lineFeed := fun same =>
          wire_head rest others (by rw [following, same])
        rw [unwire, if_neg (fun both => bare both.2), ← following, inductionHypothesis]

end Serial

end XyronOS
