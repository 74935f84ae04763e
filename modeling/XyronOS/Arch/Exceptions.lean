import XyronOS.Arch.Serial
import XyronOS.Library.ExceptionDelivery

/-!
# The exception handlers

Thirty-two handlers, one for each exception vector, made from two templates: one for
exceptions without an error code and one for those with it. A handler finds the frame
of the interrupted code where its entry stack pointer says, behind the error code if
its signature has one. It reports the exception on the serial line. The handler for
breakpoints then returns; all the others halt.

The signature a handler is written with and the processor's own list of exceptions
that push an error code have to agree, or the frame is read one word off.

A report is meant to be read by a person who has nothing else. It determines what it
reports: from the bytes on the line the vector, the error code, the saved registers
and the faulting address can be told apart.
-/

namespace XyronOS

open ByteMemory Interrupts Boot

namespace Exceptions

open Serial

/-- The frame the processor has pushed. -/
structure InterruptStackFrame where
  rip : Nat
  cs : Nat
  rflags : Nat
  rsp : Nat
  ss : Nat
deriving DecidableEq, Repr

/-- The cause of a page fault, from its error code. -/
def reportPageFaultErrorCode (errorCode : Nat) : List (BitVec 8) :=
  bytes "  Cause: " ++
  bytes (if errorCode &&& 1 ≠ 0 then "protection violation (page present)"
    else "non-present page") ++
  bytes ", " ++
  bytes (if errorCode &&& 0b10 ≠ 0 then "write" else "read") ++
  bytes ", " ++
  bytes (if errorCode &&& 0b100 ≠ 0 then "user-mode" else "supervisor-mode") ++
  (if errorCode &&& 0b1000 ≠ 0 then bytes ", reserved-bit-set page table entry" else []) ++
  (if errorCode &&& 0b10000 ≠ 0 then bytes ", instruction fetch" else []) ++
  bytes "\r\n"

/-- The error code and, for a page fault, its cause. -/
def reportErrorCode (vector : Nat) : Option Nat → List (BitVec 8)
  | none => []
  | some code =>
      bytes "Error code: 0x" ++ (hex64 code ++ (bytes "\r\n" ++
        (if vector = 14 then reportPageFaultErrorCode code else [])))

/-- The faulting address of a page fault. -/
def reportAddress (vector cr2 : Nat) : List (BitVec 8) :=
  if vector = 14 then bytes "CR2 (faulting address): 0x" ++ (hex64 cr2 ++ bytes "\r\n") else []

/-- The saved registers. -/
def reportFrame (frame : InterruptStackFrame) : List (BitVec 8) :=
  bytes "RIP: 0x" ++ (hex64 frame.rip ++
  (bytes "  CS: 0x" ++ (hex64 frame.cs ++
  (bytes "\r\nRFLAGS: 0x" ++ (hex64 frame.rflags ++
  (bytes "\r\nRSP: 0x" ++ (hex64 frame.rsp ++
  (bytes "  SS: 0x" ++ (hex64 frame.ss ++ bytes "\r\n")))))))))

/-- The last line: only a breakpoint resumes. -/
def reportEnd (vector : Nat) : List (BitVec 8) :=
  if vector = 3 then bytes "(Breakpoint — resuming execution.)\r\n"
  else bytes "Kernel halted.\r\n"

/-- The text of `report`. -/
def report (vector : Nat) (name : String) (errorCode : Option Nat) (frame : InterruptStackFrame)
    (cr2 : Nat) : List (BitVec 8) :=
  bytes "\r\n!!! CPU EXCEPTION !!!\r\n" ++ (bytes "Vector: 0x" ++ (hex64 vector ++
  (bytes " (" ++ (bytes name ++ (bytes ")\r\n" ++ (reportErrorCode vector errorCode ++
  (reportAddress vector cr2 ++ (reportFrame frame ++ reportEnd vector))))))))

/-- What a handler is made of. -/
structure Handler where
  vector : Nat
  name : String
  takesErrorCode : Bool
deriving DecidableEq, Repr

/-- `handler_no_error!` -/
def handlerNoError (vector : Nat) (name : String) : Handler := ⟨vector, name, false⟩

/-- `handler_with_error!` -/
def handlerWithError (vector : Nat) (name : String) : Handler := ⟨vector, name, true⟩

/-- `handler_00` to `handler_31`. -/
def handlers : List Handler :=
  [handlerNoError 0 "Divide Error (#DE)",
   handlerNoError 1 "Debug (#DB)",
   handlerNoError 2 "Non-Maskable Interrupt",
   handlerNoError 3 "Breakpoint (#BP)",
   handlerNoError 4 "Overflow (#OF)",
   handlerNoError 5 "Bound Range Exceeded (#BR)",
   handlerNoError 6 "Invalid Opcode (#UD)",
   handlerNoError 7 "Device Not Available (#NM)",
   handlerWithError 8 "Double Fault (#DF)",
   handlerNoError 9 "Reserved (legacy Coprocessor Segment Overrun)",
   handlerWithError 10 "Invalid TSS (#TS)",
   handlerWithError 11 "Segment Not Present (#NP)",
   handlerWithError 12 "Stack-Segment Fault (#SS)",
   handlerWithError 13 "General Protection Fault (#GP)",
   handlerWithError 14 "Page Fault (#PF)",
   handlerNoError 15 "Reserved",
   handlerNoError 16 "x87 Floating-Point Exception (#MF)",
   handlerWithError 17 "Alignment Check (#AC)",
   handlerNoError 18 "Machine Check (#MC)",
   handlerNoError 19 "SIMD Floating-Point Exception (#XM)",
   handlerNoError 20 "Virtualization Exception (#VE)",
   handlerWithError 21 "Control Protection Exception (#CP)",
   handlerNoError 22 "Reserved",
   handlerNoError 23 "Reserved",
   handlerNoError 24 "Reserved",
   handlerNoError 25 "Reserved",
   handlerNoError 26 "Reserved",
   handlerNoError 27 "Reserved",
   handlerNoError 28 "Hypervisor Injection Exception (#HV)",
   handlerWithError 29 "VMM Communication Exception (#VC)",
   handlerWithError 30 "Security Exception (#SX)",
   handlerNoError 31 "Reserved"]

/-- The handler with a number. -/
def handlerAt (number : Nat) : Handler := handlers.getD number (handlerNoError 31 "Reserved")

namespace Handler

/-- Where the frame is, by the signature of the handler. -/
def frameAddress (handler : Handler) (rsp : Nat) : Nat :=
  if handler.takesErrorCode then rsp + 8 else rsp

/-- The error code, by the signature of the handler. -/
def errorCode (handler : Handler) (memory : Memory) (rsp : Nat) : Option Nat :=
  if handler.takesErrorCode then some (load64 memory rsp) else none

/-- The frame, by the signature of the handler. -/
def frame (handler : Handler) (memory : Memory) (rsp : Nat) : InterruptStackFrame where
  rip := load64 memory (handler.frameAddress rsp)
  cs := load64 memory (handler.frameAddress rsp + 8)
  rflags := load64 memory (handler.frameAddress rsp + 16)
  rsp := load64 memory (handler.frameAddress rsp + 24)
  ss := load64 memory (handler.frameAddress rsp + 32)

/-- What a handler prints, entered with a stack pointer. -/
def text (handler : Handler) (memory : Memory) (rsp cr2 : Nat) : List (BitVec 8) :=
  report handler.vector handler.name (handler.errorCode memory rsp) (handler.frame memory rsp) cr2

end Handler

/-- Each handler knows its vector, and its signature agrees with the processor. -/
theorem handlerAt_spec {number : Nat} (exception : number < 32) :
    (handlerAt number).vector = number ∧
      (handlerAt number).takesErrorCode = pushesErrorCode number := by
  have known : ∀ number : Fin 32, (handlerAt number).vector = number ∧
      (handlerAt number).takesErrorCode = pushesErrorCode number := by decide
  exact known ⟨number, exception⟩

/-! ### Reading a report -/

/-- A text followed by sixteen digits can be told apart from others of its kind. -/
theorem hex64_append_inj {first second : Nat} (left : first < 2 ^ 64) (right : second < 2 ^ 64)
    {rest others : List (BitVec 8)} (same : hex64 first ++ rest = hex64 second ++ others) :
    first = second ∧ rest = others := by
  obtain ⟨digits, remaining⟩ := List.append_inj same (by rw [hex64_length, hex64_length])
  refine ⟨?_, remaining⟩
  rw [← hexValue_hex64 left, digits, hexValue_hex64 right]

/-- The registers of a frame are words. -/
structure InterruptStackFrame.Words (frame : InterruptStackFrame) : Prop where
  rip : frame.rip < 2 ^ 64
  cs : frame.cs < 2 ^ 64
  rflags : frame.rflags < 2 ^ 64
  rsp : frame.rsp < 2 ^ 64
  ss : frame.ss < 2 ^ 64

theorem reportFrame_append_inj {first second : InterruptStackFrame} (left : first.Words)
    (right : second.Words) {rest others : List (BitVec 8)}
    (same : reportFrame first ++ rest = reportFrame second ++ others) :
    first = second ∧ rest = others := by
  simp only [reportFrame, List.append_assoc] at same
  obtain ⟨rip, same⟩ := hex64_append_inj left.rip right.rip (List.append_cancel_left same)
  obtain ⟨cs, same⟩ := hex64_append_inj left.cs right.cs (List.append_cancel_left same)
  obtain ⟨rflags, same⟩ := hex64_append_inj left.rflags right.rflags (List.append_cancel_left same)
  obtain ⟨rsp, same⟩ := hex64_append_inj left.rsp right.rsp (List.append_cancel_left same)
  obtain ⟨ss, same⟩ := hex64_append_inj left.ss right.ss (List.append_cancel_left same)
  refine ⟨?_, List.append_cancel_left same⟩
  cases first
  cases second
  simp_all

/-- An exception as its handler sees it. -/
structure Diagnosis where
  number : Nat
  errorCode : Option Nat
  frame : InterruptStackFrame
  cr2 : Nat

/-- Its report. -/
def Diagnosis.text (diagnosis : Diagnosis) : List (BitVec 8) :=
  report (handlerAt diagnosis.number).vector (handlerAt diagnosis.number).name
    diagnosis.errorCode diagnosis.frame diagnosis.cr2

/-- One of the 32 exceptions, with an error code if it has one, in 64-bit words. -/
structure Diagnosis.Valid (diagnosis : Diagnosis) : Prop where
  exception : diagnosis.number < 32
  coded : diagnosis.errorCode.isSome = pushesErrorCode diagnosis.number
  codeWord : ∀ code, diagnosis.errorCode = some code → code < 2 ^ 64
  frame : diagnosis.frame.Words
  cr2 : diagnosis.cr2 < 2 ^ 64

theorem reportErrorCode_append_inj {vector : Nat} {first second : Option Nat}
    (alike : first.isSome = second.isSome) (left : ∀ code, first = some code → code < 2 ^ 64)
    (right : ∀ code, second = some code → code < 2 ^ 64) {rest others : List (BitVec 8)}
    (same : reportErrorCode vector first ++ rest = reportErrorCode vector second ++ others) :
    first = second ∧ rest = others := by
  match first, second, alike with
  | none, none, _ => exact ⟨rfl, same⟩
  | some code, some other, _ =>
    simp only [reportErrorCode, List.append_assoc] at same
    obtain ⟨equal, same⟩ :=
      hex64_append_inj (left code rfl) (right other rfl) (List.append_cancel_left same)
    subst equal
    exact ⟨rfl, List.append_cancel_left (List.append_cancel_left same)⟩

theorem reportAddress_append_inj {vector first second : Nat} (left : first < 2 ^ 64)
    (right : second < 2 ^ 64) {rest others : List (BitVec 8)}
    (same : reportAddress vector first ++ rest = reportAddress vector second ++ others) :
    (vector = 14 → first = second) ∧ rest = others := by
  unfold reportAddress at same
  split at same
  · simp only [List.append_assoc] at same
    obtain ⟨equal, same⟩ := hex64_append_inj left right (List.append_cancel_left same)
    exact ⟨fun _ => equal, List.append_cancel_left same⟩
  · rename_i other
    exact ⟨fun page => absurd page other, same⟩

/-- **A report tells what happened.** Two exceptions whose reports leave the same bytes
on the serial line are the same exception with the same error code and the same saved
registers, and for a page fault with the same faulting address. -/
theorem report_determines {first second : Diagnosis} (left : first.Valid) (right : second.Valid)
    (same : wire first.text = wire second.text) :
    first.number = second.number ∧ first.errorCode = second.errorCode ∧
      first.frame = second.frame ∧ (first.number = 14 → first.cr2 = second.cr2) := by
  have texts : first.text = second.text := by
    rw [← unwire_wire first.text, same, unwire_wire]
  have vectors (diagnosis : Diagnosis) (valid : diagnosis.Valid) :
      (handlerAt diagnosis.number).vector = diagnosis.number :=
    (handlerAt_spec valid.exception).1
  have small (diagnosis : Diagnosis) (valid : diagnosis.Valid) : diagnosis.number < 2 ^ 64 :=
    Nat.lt_trans valid.exception (by decide)
  simp only [Diagnosis.text, report, vectors first left, vectors second right] at texts
  obtain ⟨number, texts⟩ := hex64_append_inj (small first left) (small second right)
    (List.append_cancel_left (List.append_cancel_left texts))
  rw [number] at texts
  obtain ⟨code, texts⟩ := reportErrorCode_append_inj
    (by rw [left.coded, right.coded, number]) left.codeWord right.codeWord
    (List.append_cancel_left (List.append_cancel_left (List.append_cancel_left texts)))
  obtain ⟨address, texts⟩ := reportAddress_append_inj left.cr2 right.cr2 texts
  obtain ⟨frame, -⟩ := reportFrame_append_inj left.frame right.frame texts
  exact ⟨number, code, frame, fun page => address (number ▸ page)⟩

def breakpointFrame : InterruptStackFrame := ⟨0x1000, 0x08, 0x02, 0x9000, 0x10⟩

/-- A breakpoint with some address left in the register for page faults. -/
def breakpointWith (cr2 : Nat) : Diagnosis := ⟨3, none, breakpointFrame, cr2⟩

theorem breakpointWith_valid {cr2 : Nat} (word : cr2 < 2 ^ 64) : (breakpointWith cr2).Valid where
  exception := show 3 < 32 by decide
  coded := rfl
  codeWord _ coded := by cases coded
  frame := show breakpointFrame.Words from ⟨by decide, by decide, by decide, by decide, by decide⟩
  cr2 := word

/-- The address is reported for page faults alone: two breakpoints that differ in it look
the same. -/
theorem report_determines_breakpoint :
    wire (breakpointWith 0).text = wire (breakpointWith 7).text ∧
      (breakpointWith 0).frame = (breakpointWith 7).frame := by
  have same : wire (breakpointWith 0).text = wire (breakpointWith 7).text := rfl
  exact ⟨same, (report_determines (breakpointWith_valid (by decide))
    (breakpointWith_valid (by decide)) same).2.2.1⟩

end Exceptions

end XyronOS
