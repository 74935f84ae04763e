import Mathlib.Data.List.Basic

/-!
# Executions of a labelled transition system

A system is a step relation on states; a step carries a visible label or is
silent. An execution leads from a start state through any number of steps, and
its trace is the list of its visible labels in order.

An invariant is shown for one step and then holds along every execution. It may
speak about the trace so far, so that it can express what the environment has seen.
A second system simulates the first if every step can be followed by an execution
with the same visible labels; it then shows every trace of the first.
-/

namespace XyronOS.Executions

variable {State State' Label : Type} {step : State → Option Label → State → Prop}
  {step' : State' → Option Label → State' → Prop}

variable (step) in
/-- An execution from a start state, with its visible labels, the last step last. -/
inductive Execution (start : State) : List Label → State → Prop where
  | nil : Execution start [] start
  | snoc {trace : List Label} {middle final : State} (label : Option Label)
      (earlier : Execution start trace middle) (last : step middle label final) :
      Execution start (trace ++ label.toList) final

/-- A step alone is an execution. -/
theorem Execution.single {start final : State} {label : Option Label}
    (only : step start label final) : Execution step start label.toList final := by
  simpa using Execution.snoc label Execution.nil only

/-- Executions compose. -/
theorem Execution.append {start middle final : State} {trace more : List Label}
    (first : Execution step start trace middle) (second : Execution step middle more final) :
    Execution step start (trace ++ more) final := by
  induction second with
  | nil => simpa using first
  | snoc label earlier last inductionHypothesis =>
    rw [← List.append_assoc]
    exact .snoc label inductionHypothesis last

/-- A property of trace and state that every step preserves holds along every
execution. -/
theorem Execution.invariant {start final : State} {trace : List Label}
    (execution : Execution step start trace final) (holds : List Label → State → Prop)
    (initial : holds [] start)
    (preserved : ∀ trace state label next, holds trace state → step state label next →
      holds (trace ++ label.toList) next) : holds trace final := by
  induction execution with
  | nil => exact initial
  | snoc label earlier last inductionHypothesis =>
    exact preserved _ _ label _ inductionHypothesis last

/-- A system that can follow every step shows every trace. -/
theorem Execution.simulated {start final : State} {trace : List Label}
    (execution : Execution step start trace final) (related : State → State' → Prop)
    {start' : State'} (initial : related start start')
    (followed : ∀ state state' label next, related state state' → step state label next →
      ∃ next', Execution step' state' label.toList next' ∧ related next next') :
    ∃ final', Execution step' start' trace final' ∧ related final final' := by
  induction execution with
  | nil => exact ⟨start', .nil, initial⟩
  | snoc label earlier last inductionHypothesis =>
    obtain ⟨middle', execution', same⟩ := inductionHypothesis
    obtain ⟨final', more, result⟩ := followed _ _ label _ same last
    exact ⟨final', execution'.append more, result⟩

end XyronOS.Executions
