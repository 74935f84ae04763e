import Mathlib.Data.List.Basic

/-!
# Runs of a state machine

A machine is a step function on states together with the operations a caller may
issue in each state. A run applies a list of operations in order, each admitted
where it is issued. An invariant is shown for one admitted step and then holds
along every run; a relation between two machines is shown for one step, which the
second machine either follows or ignores, and then relates their runs.
-/

namespace XyronOS.Runs

variable {State Operation : Type*} (admits : State → Operation → Prop)
  (step : State → Operation → State)

/-- The operations lead from the first state to the last, each admitted in turn. -/
inductive Run : State → List Operation → State → Prop where
  | nil (state : State) : Run state [] state
  | cons {state final : State} {operation : Operation} {operations : List Operation}
      (admitted : admits state operation) (rest : Run (step state operation) operations final) :
      Run state (operation :: operations) final

variable {admits step}

/-- A property that every admitted step preserves holds at the end of every run. -/
theorem Run.invariant {start final : State} {operations : List Operation}
    (run : Run admits step start operations final) (holds : State → Prop)
    (preserved : ∀ state operation, holds state → admits state operation →
      holds (step state operation))
    (initial : holds start) : holds final := by
  induction run with
  | nil state => exact initial
  | cons admitted rest inductionHypothesis =>
    exact inductionHypothesis (preserved _ _ initial admitted)

/-- A second machine that follows the visible operations of a run and ignores the
others ends in a related state. -/
theorem Run.simulated {State' : Type*} {admits' : State' → Operation → Prop}
    {step' : State' → Operation → State'} {start final : State} {operations : List Operation}
    (run : Run admits step start operations final) (visible : Operation → Bool)
    (related : State → State' → Prop)
    (followed : ∀ state state' operation, related state state' → admits state operation →
      visible operation = true →
      admits' state' operation ∧ related (step state operation) (step' state' operation))
    (ignored : ∀ state state' operation, related state state' → admits state operation →
      visible operation = false → related (step state operation) state')
    (start' : State') (initial : related start start') :
    ∃ final', Run admits' step' start' (operations.filter visible) final' ∧
      related final final' := by
  induction run generalizing start' with
  | nil state => exact ⟨start', .nil start', initial⟩
  | @cons state final operation operations admitted rest inductionHypothesis =>
    cases seen : visible operation with
    | true =>
      obtain ⟨admitted', next⟩ := followed state start' operation initial admitted seen
      obtain ⟨final', run', last⟩ := inductionHypothesis _ next
      refine ⟨final', ?_, last⟩
      rw [List.filter_cons_of_pos seen]
      exact .cons admitted' run'
    | false =>
      obtain ⟨final', run', last⟩ :=
        inductionHypothesis _ (ignored state start' operation initial admitted seen)
      refine ⟨final', ?_, last⟩
      rw [List.filter_cons_of_neg (by simp [seen])]
      exact run'

end XyronOS.Runs
