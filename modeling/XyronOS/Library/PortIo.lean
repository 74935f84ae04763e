import Mathlib.Order.WellFounded
import XyronOS.Library.Executions

/-!
# Polling drivers of port-mapped devices

A driver that runs without interrupts is a list of actions: it writes a byte to a
port, or it reads a port again and again until a bit of a mask is set. The device
answers reads and writes, and between any two accesses it works at its own pace; a
step of its work may put a byte on the line that leads out of it.

An execution interleaves the two in any way. Its trace is the line: what a receiver
at the far end has seen. A list of actions is worked off from the front, so that an
execution of two lists, one behind the other, is an execution of the first, or of
the first to its end followed by one of the second.

Whether a driver finishes is a question about the device. If every step of its work
uses up some of a budget that only writes refill, an execution has finitely many
steps that are not vain polls. If a polled bit is withheld only while there is work
to do, a step that is no vain poll always remains until the driver is done. A device
that rests for ever can still keep the driver polling for ever. In a fair run it does
not: then the driver comes to its end.
-/

namespace XyronOS.PortIo

open Executions

/-- An access of the driver: a write, or a loop that reads until a bit of the mask is
set. -/
inductive Action where
  | out (port : Nat) (value : BitVec 8)
  | await (port : Nat) (mask : BitVec 8)
deriving DecidableEq, Repr

/-- A device behind ports: its answers and what it may do on its own. -/
structure Device (State : Type) where
  write : State → Nat → BitVec 8 → State
  read : State → Nat → BitVec 8
  Works : State → Option (BitVec 8) → State → Prop

/-- A device and the actions still to come. -/
structure Driven (State : Type) where
  device : State
  remaining : List Action

section Driver

variable {State : Type} (device : Device State)

/-- A step of the driver or of the device; its label is a byte that leaves on the line. -/
inductive Step : Driven State → Option (BitVec 8) → Driven State → Prop where
  | out (state : State) (port : Nat) (value : BitVec 8) (rest : List Action) :
      Step ⟨state, .out port value :: rest⟩ none ⟨device.write state port value, rest⟩
  | ready {state : State} {port : Nat} {mask : BitVec 8} (rest : List Action)
      (set : device.read state port &&& mask ≠ 0) :
      Step ⟨state, .await port mask :: rest⟩ none ⟨state, rest⟩
  | vain {state : State} {port : Nat} {mask : BitVec 8} (rest : List Action)
      (clear : device.read state port &&& mask = 0) :
      Step ⟨state, .await port mask :: rest⟩ none ⟨state, .await port mask :: rest⟩
  | works {state next : State} {sent : Option (BitVec 8)} (rest : List Action)
      (moved : device.Works state sent next) : Step ⟨state, rest⟩ sent ⟨next, rest⟩

variable {device}

/-- A step works on the front of the list only. -/
theorem Step.front {state : State} {action : Action} {first second : List Action}
    {sent : Option (BitVec 8)} {final : Driven State}
    (step : Step device ⟨state, action :: (first ++ second)⟩ sent final) :
    ∃ rest, final.remaining = rest ++ second ∧
      Step device ⟨state, action :: first⟩ sent ⟨final.device, rest⟩ := by
  cases step with
  | out _ port value _ => exact ⟨first, rfl, .out state port value first⟩
  | ready _ set => exact ⟨first, rfl, .ready first set⟩
  | vain _ clear => exact ⟨_ :: first, rfl, .vain first clear⟩
  | works _ moved => exact ⟨action :: first, rfl, .works _ moved⟩

/-- An execution of two lists is one of the first, or one of the first to its end and
one of the second. -/
theorem execution_split {state : State} {first second : List Action} {line : List (BitVec 8)}
    {final : Driven State}
    (execution : Execution (Step device) ⟨state, first ++ second⟩ line final) :
    (∃ rest, final.remaining = rest ++ second ∧
      Execution (Step device) ⟨state, first⟩ line ⟨final.device, rest⟩) ∨
    ∃ middle before after, line = before ++ after ∧
      Execution (Step device) ⟨state, first⟩ before ⟨middle, []⟩ ∧
      Execution (Step device) ⟨middle, second⟩ after final := by
  induction execution with
  | nil => exact Or.inl ⟨first, rfl, .nil⟩
  | @snoc trace middle final label earlier last inductionHypothesis =>
    obtain ⟨rest, remaining, within⟩ | ⟨between, before, after, rfl, done, later⟩ :=
      inductionHypothesis
    · obtain ⟨current, actions⟩ := middle
      obtain rfl : actions = rest ++ second := remaining
      cases rest with
      | nil =>
        have begun := Execution.single last
        exact Or.inr ⟨current, trace, label.toList, rfl, within, begun⟩
      | cons action rest =>
        obtain ⟨left, shorter, step⟩ := last.front
        exact Or.inl ⟨left, shorter, within.snoc label step⟩
    · exact Or.inr ⟨between, before, after ++ label.toList, List.append_assoc .., done,
        later.snoc label last⟩

/-- An execution of two lists that finishes passes the end of the first. -/
theorem execution_finishes {state final : State} {first second : List Action}
    {line : List (BitVec 8)}
    (execution : Execution (Step device) ⟨state, first ++ second⟩ line ⟨final, []⟩) :
    ∃ middle before after, line = before ++ after ∧
      Execution (Step device) ⟨state, first⟩ before ⟨middle, []⟩ ∧
      Execution (Step device) ⟨middle, second⟩ after ⟨final, []⟩ := by
  obtain ⟨rest, remaining, within⟩ | passed := execution_split execution
  · obtain ⟨rfl, rfl⟩ := List.append_eq_nil_iff.1 (Eq.symm remaining)
    exact ⟨final, line, [], (List.append_nil line).symm, within, .nil⟩
  · exact passed

/-- A relation between a device, the line and a later device that a step of its work
extends: it holds along any stretch of work. -/
structure Working (related : State → List (BitVec 8) → State → Prop) (device : Device State) :
    Prop where
  refl : ∀ state, related state [] state
  works : ∀ state line middle sent next, related state line middle →
    device.Works middle sent next → related state (line ++ sent.toList) next

/-- Without actions the device just works. -/
theorem execution_idle {related : State → List (BitVec 8) → State → Prop}
    (working : Working related device) {state : State} {final : Driven State}
    {line : List (BitVec 8)} (execution : Execution (Step device) ⟨state, []⟩ line final) :
    related state line final.device ∧ final.remaining = [] := by
  refine execution.invariant
    (fun line driven => related state line driven.device ∧ driven.remaining = [])
    ⟨working.refl state, rfl⟩ ?_
  rintro line ⟨current, remaining⟩ label next ⟨far, rfl⟩ step
  cases step with
  | works _ moved => exact ⟨working.works _ _ _ _ _ far moved, rfl⟩

/-- Before a write is made the device works; then it is written to. -/
theorem execution_out {related : State → List (BitVec 8) → State → Prop}
    (working : Working related device) {state : State} {port : Nat} {value : BitVec 8}
    {final : Driven State} {line : List (BitVec 8)}
    (execution : Execution (Step device) ⟨state, [.out port value]⟩ line final) :
    (final.remaining = [.out port value] ∧ related state line final.device) ∨
    ∃ middle before after, line = before ++ after ∧ final.remaining = [] ∧
      related state before middle ∧ related (device.write middle port value) after final.device := by
  induction execution with
  | nil => exact Or.inl ⟨rfl, working.refl state⟩
  | @snoc trace current final label earlier last inductionHypothesis =>
    obtain ⟨current, actions⟩ := current
    obtain ⟨rfl, far⟩ | ⟨middle, before, after, rfl, rfl, first, second⟩ := inductionHypothesis
    · cases last with
      | out _ _ _ _ =>
        exact Or.inr ⟨current, trace, [], by simp, rfl, far, working.refl _⟩
      | works _ moved => exact Or.inl ⟨rfl, working.works _ _ _ _ _ far moved⟩
    · cases last with
      | works _ moved =>
        exact Or.inr ⟨middle, before, after ++ label.toList, List.append_assoc .., rfl, first,
          working.works _ _ _ _ _ second moved⟩

/-- A write that has been made, between two stretches of work. -/
theorem execution_out_finishes {related : State → List (BitVec 8) → State → Prop}
    (working : Working related device) {state final : State} {port : Nat} {value : BitVec 8}
    {line : List (BitVec 8)}
    (execution : Execution (Step device) ⟨state, [.out port value]⟩ line ⟨final, []⟩) :
    ∃ middle before after, line = before ++ after ∧ related state before middle ∧
      related (device.write middle port value) after final := by
  obtain ⟨waiting, -⟩ | ⟨middle, before, after, split, -, first, second⟩ :=
    execution_out working execution
  · exact absurd waiting (List.cons_ne_nil _ _).symm
  · exact ⟨middle, before, after, split, first, second⟩

/-- Before a poll succeeds the device works; then the bit is set, and it works on. -/
theorem execution_await {related : State → List (BitVec 8) → State → Prop}
    (working : Working related device) {state : State} {port : Nat} {mask : BitVec 8}
    {final : Driven State} {line : List (BitVec 8)}
    (execution : Execution (Step device) ⟨state, [.await port mask]⟩ line final) :
    (final.remaining = [.await port mask] ∧ related state line final.device) ∨
    ∃ middle before after, line = before ++ after ∧ final.remaining = [] ∧
      related state before middle ∧ device.read middle port &&& mask ≠ 0 ∧
      related middle after final.device := by
  induction execution with
  | nil => exact Or.inl ⟨rfl, working.refl state⟩
  | @snoc trace current final label earlier last inductionHypothesis =>
    obtain ⟨current, actions⟩ := current
    obtain ⟨rfl, far⟩ | ⟨middle, before, after, rfl, rfl, first, set, second⟩ :=
      inductionHypothesis
    · cases last with
      | ready _ set => exact Or.inr ⟨current, trace, [], by simp, rfl, far, set, working.refl _⟩
      | vain _ _ => exact Or.inl ⟨rfl, by simpa using far⟩
      | works _ moved => exact Or.inl ⟨rfl, working.works _ _ _ _ _ far moved⟩
    · cases last with
      | works _ moved =>
        exact Or.inr ⟨middle, before, after ++ label.toList, List.append_assoc .., rfl, first, set,
          working.works _ _ _ _ _ second moved⟩

end Driver

section Completion

variable {State : Type} {device : Device State}

/-- Work of the device uses up a budget that a write refills by a bounded amount. -/
structure Budgeted (device : Device State) (budget : State → Nat) (refill : Nat) : Prop where
  works : ∀ state sent next, device.Works state sent next → budget next < budget state
  write : ∀ state port value, budget (device.write state port value) ≤ budget state + refill

/-- A polled bit is withheld only by a device that has work to do. -/
def Responsive (device : Device State) (action : Action) : Prop :=
  match action with
  | .out _ _ => True
  | .await port mask => ∀ state, device.read state port &&& mask = 0 →
      ∃ sent next, device.Works state sent next

/-- What is left to do: an action counts for itself and for what it may refill. -/
def outstanding (budget : State → Nat) (refill : Nat) (driven : Driven State) : Nat :=
  budget driven.device + (refill + 1) * driven.remaining.length

/-- A step is a vain poll, which changes nothing, or leaves less to do. -/
theorem Step.progress {budget : State → Nat} {refill : Nat}
    (budgeted : Budgeted device budget refill) {driven next : Driven State}
    {sent : Option (BitVec 8)} (step : Step device driven sent next) :
    (next = driven ∧ sent = none) ∨
      outstanding budget refill next < outstanding budget refill driven := by
  cases step with
  | out state port value rest =>
    have refilled := budgeted.write state port value
    have split : (refill + 1) * (rest.length + 1) = (refill + 1) * rest.length + (refill + 1) :=
      Nat.mul_succ ..
    refine Or.inr ?_
    simp only [outstanding, List.length_cons, split]
    omega
  | @ready state port mask rest set =>
    have split : (refill + 1) * (rest.length + 1) = (refill + 1) * rest.length + (refill + 1) :=
      Nat.mul_succ ..
    refine Or.inr ?_
    simp only [outstanding, List.length_cons, split]
    omega
  | vain rest clear => exact Or.inl ⟨rfl, rfl⟩
  | works rest moved =>
    have less := budgeted.works _ _ _ moved
    exact Or.inr (Nat.add_lt_add_right less _)

/-- Until the driver is done there is a step that leaves less to do. -/
theorem exists_progress {budget : State → Nat} {refill : Nat}
    (budgeted : Budgeted device budget refill) {driven : Driven State}
    (responsive : ∀ action ∈ driven.remaining, Responsive device action)
    (unfinished : driven.remaining ≠ []) :
    ∃ sent next, Step device driven sent next ∧
      outstanding budget refill next < outstanding budget refill driven := by
  obtain ⟨state, remaining⟩ := driven
  have advances {sent : Option (BitVec 8)} {next : Driven State}
      (step : Step device ⟨state, remaining⟩ sent next) (changed : next ≠ ⟨state, remaining⟩) :
      ∃ sent next, Step device ⟨state, remaining⟩ sent next ∧
        outstanding budget refill next < outstanding budget refill ⟨state, remaining⟩ :=
    ⟨sent, next, step, (step.progress budgeted).resolve_left (fun same => changed same.1)⟩
  cases remaining with
  | nil => exact absurd rfl unfinished
  | cons action rest =>
    have shorter {other : State} : (⟨other, rest⟩ : Driven State) ≠ ⟨state, action :: rest⟩ := by
      intro same
      have lengths := congrArg (fun driven => driven.remaining.length) same
      simp only [List.length_cons] at lengths
      omega
    cases action with
    | out port value => exact advances (.out state port value rest) shorter
    | await port mask =>
      by_cases clear : device.read state port &&& mask = 0
      · obtain ⟨sent, next, moved⟩ := responsive _ (List.mem_cons_self ..) state clear
        refine ⟨sent, ⟨next, .await port mask :: rest⟩, .works _ moved, ?_⟩
        exact Nat.add_lt_add_right (budgeted.works _ _ _ moved) _
      · exact advances (.ready rest clear) shorter

/-- The actions still to come are the last ones of the list. -/
theorem execution_suffix {start driven : Driven State} {line : List (BitVec 8)}
    (execution : Execution (Step device) start line driven) :
    driven.remaining <:+ start.remaining := by
  refine execution.invariant (fun _ driven => driven.remaining <:+ start.remaining)
    (List.suffix_refl _) ?_
  intro _ driven _ next suffix step
  cases step with
  | out _ _ _ rest => exact (List.suffix_cons _ rest).trans suffix
  | ready rest _ => exact (List.suffix_cons _ rest).trans suffix
  | vain _ _ => exact suffix
  | works _ _ => exact suffix

/-- A run without end: each time a step is taken, unless the driver is done and nothing
happens any more. -/
def Endless (device : Device State) (run : ℕ → Driven State) : Prop :=
  ∀ time, (∃ sent, Step device (run time) sent (run (time + 1))) ∨
    ((run time).remaining = [] ∧ run (time + 1) = run time)

/-- The device does not rest for ever while it has work to do. -/
def Fair (device : Device State) (run : ℕ → Driven State) : Prop :=
  ∀ time, (∀ later ≥ time, ∃ sent next, device.Works (run later).device sent next) →
    ∃ later ≥ time, ∃ sent, device.Works (run later).device sent (run (later + 1)).device

/-- A step that changes nothing is a vain poll. -/
theorem Step.vain_of_same {budget : State → Nat} {refill : Nat}
    (budgeted : Budgeted device budget refill) {driven next : Driven State}
    {sent : Option (BitVec 8)} (step : Step device driven sent next) (same : next = driven) :
    ∃ port mask, .await port mask ∈ driven.remaining ∧
      device.read driven.device port &&& mask = 0 := by
  cases step with
  | out state port value rest =>
    exact absurd (congrArg Driven.remaining same) (List.cons_ne_self _ _).symm
  | ready rest set => exact absurd (congrArg Driven.remaining same) (List.cons_ne_self _ _).symm
  | vain rest clear => exact ⟨_, _, List.mem_cons_self .., clear⟩
  | works rest moved =>
    obtain rfl := congrArg Driven.device same
    exact absurd (budgeted.works _ _ _ moved) (Nat.lt_irrefl _)

/-- The states of a run are reached by executions. -/
theorem Endless.execution {run : ℕ → Driven State} (endless : Endless device run) (time : ℕ) :
    ∃ line, Execution (Step device) (run 0) line (run time) := by
  induction time with
  | zero => exact ⟨[], .nil⟩
  | succ time inductionHypothesis =>
    obtain ⟨line, execution⟩ := inductionHypothesis
    obtain ⟨sent, step⟩ | ⟨-, same⟩ := endless time
    · exact ⟨_, execution.snoc sent step⟩
    · exact ⟨line, same ▸ execution⟩

/-- In a fair run the driver comes to its end: where least is left to do nothing changes any
more, and a device that has work to do would change something. -/
theorem fair_finishes {budget : State → Nat} {refill : Nat}
    (budgeted : Budgeted device budget refill) {run : ℕ → Driven State}
    (endless : Endless device run) (fair : Fair device run)
    (responsive : ∀ action ∈ (run 0).remaining, Responsive device action) :
    ∃ time, (run time).remaining = [] := by
  obtain ⟨time, least⟩ : ∃ time, ∀ other,
      outstanding budget refill (run time) ≤ outstanding budget refill (run other) :=
    ⟨_, fun other => Function.argmin_le (fun time => outstanding budget refill (run time)) other⟩
  have same (later : ℕ) (after : time ≤ later) : run later = run time := by
    induction later, after using Nat.le_induction with
    | base => rfl
    | succ later after inductionHypothesis =>
      obtain ⟨sent, step⟩ | ⟨-, still⟩ := endless later
      · obtain ⟨still, -⟩ | less := step.progress budgeted
        · exact still.trans inductionHypothesis
        · rw [inductionHypothesis] at less
          exact absurd less (least _).not_gt
      · exact still.trans inductionHypothesis
  refine ⟨time, ?_⟩
  obtain ⟨sent, step⟩ | ⟨done, -⟩ := endless time
  · obtain ⟨port, mask, waiting, clear⟩ :=
      step.vain_of_same budgeted (same (time + 1) (Nat.le_succ time))
    obtain ⟨line, execution⟩ := endless.execution time
    have working := responsive _ ((execution_suffix execution).subset waiting) _ clear
    obtain ⟨later, after, sent, moved⟩ := fair time fun later after => same later after ▸ working
    have less := budgeted.works _ _ _ moved
    rw [same later after, same (later + 1) (Nat.le_succ_of_le after)] at less
    exact absurd less (Nat.lt_irrefl _)
  · exact done

/-- There is a fair run from everywhere. -/
theorem exists_fair {budget : State → Nat} {refill : Nat}
    (budgeted : Budgeted device budget refill) (driven : Driven State)
    (responsive : ∀ action ∈ driven.remaining, Responsive device action) :
    ∃ run : ℕ → Driven State, run 0 = driven ∧ Endless device run ∧ Fair device run := by
  induction todo : outstanding budget refill driven using Nat.strongRecOn
    generalizing driven with
  | ind amount inductionHypothesis =>
    by_cases progress : ∃ sent next, Step device driven sent next ∧
        outstanding budget refill next < outstanding budget refill driven
    · obtain ⟨sent, next, step, less⟩ := progress
      have inherited : ∀ action ∈ next.remaining, Responsive device action := fun action member =>
        responsive action ((execution_suffix (Execution.single step)).subset member)
      obtain ⟨run, rfl, endless, fair⟩ := inductionHypothesis _ (todo ▸ less) next inherited rfl
      refine ⟨fun time => Nat.casesOn time driven run, rfl, ?_, ?_⟩
      · intro time
        cases time with
        | zero => exact Or.inl ⟨sent, step⟩
        | succ time => exact endless time
      · intro time busy
        obtain ⟨later, after, sent, moved⟩ :=
          fair (time - 1) fun later after => busy (later + 1) (by omega)
        exact ⟨later + 1, by omega, sent, moved⟩
    · have done : driven.remaining = [] := by
        by_contra unfinished
        exact progress (exists_progress budgeted responsive unfinished)
      refine ⟨fun _ => driven, rfl, fun _ => Or.inr ⟨done, rfl⟩, ?_⟩
      intro time busy
      obtain ⟨sent, next, moved⟩ := busy time (Nat.le_refl time)
      exact absurd ⟨sent, ⟨next, driven.remaining⟩, .works _ moved,
        Nat.add_lt_add_right (budgeted.works _ _ _ moved) _⟩ progress

/-- From any point of an execution the driver can still finish. -/
theorem exists_completion {budget : State → Nat} {refill : Nat}
    (budgeted : Budgeted device budget refill) (driven : Driven State)
    (responsive : ∀ action ∈ driven.remaining, Responsive device action) :
    ∃ line final, Execution (Step device) driven line ⟨final, []⟩ := by
  obtain ⟨run, rfl, endless, fair⟩ := exists_fair budgeted driven responsive
  obtain ⟨time, done⟩ := fair_finishes budgeted endless fair responsive
  obtain ⟨line, execution⟩ := endless.execution time
  rw [show run time = ⟨(run time).device, []⟩ from congrArg (Driven.mk _) done] at execution
  exact ⟨line, _, execution⟩

end Completion

end XyronOS.PortIo
