import Mathlib
import XyronOS.Library.Executions

/-!
# Threads that synchronise through locks

A program acquires locks, acts on the shared store, releases locks and answers; what
it does next may depend on what it has read, and it may stop for good. Any number of
threads run such programs at the same time. A lock is a flag: acquiring sets a clear
flag, an attempt may also fail and be repeated, and releasing clears the flag. A
thread carries the guards it has obtained.

Two results hold for every interleaving. A lock has at most one guard, and its flag is
set while a guard exists. If programs acquire locks in the order of a rank, the threads
cannot block each other: while a thread runs, one of them can do more than repeat an
attempt.

What a program has to keep to is a discipline: a property of the guards it has and of
what is left of it. Whatever the discipline asks for besides, it makes a program
release only what it holds and answer only once it holds nothing. Then every running
thread keeps to it in every execution, and a flag is set only while a guard exists.
-/

namespace XyronOS.Locking

open Executions

section Programs

/-- A program over a store: acquire or release a lock, act on the store and go on in
view of what it was before, answer, or stop for good. -/
inductive Program (Lock State Result : Type) where
  | done (result : Result)
  | halt
  | acquire (lock : Lock) (next : Program Lock State Result)
  | release (lock : Lock) (next : Program Lock State Result)
  | act (update : State → State) (next : State → Program Lock State Result)

variable {Lock State Result : Type}

/-- What a program does without others: its answer, unless it stops, and the store. -/
def Program.runAlone : Program Lock State Result → State → Option Result × State
  | .done result, state => (some result, state)
  | .halt, state => (none, state)
  | .acquire _ next, state => next.runAlone state
  | .release _ next, state => next.runAlone state
  | .act update next, state => (next state).runAlone (update state)

variable [DecidableEq Lock]

/-- A property of the guards a thread has and of the program it has left that is kept
while the program runs, and under which a program releases only what it holds and
answers only once it holds nothing. -/
structure Discipline (kept : Finset Lock → Program Lock State Result → Prop) : Prop where
  acquire : ∀ held lock next, kept held (.acquire lock next) → kept (insert lock held) next
  release : ∀ held lock next, kept held (.release lock next) →
    lock ∈ held ∧ kept (held.erase lock) next
  act : ∀ held update next, kept held (.act update next) → ∀ state, kept held (next state)
  done : ∀ held result, kept held (.done result) → held = ∅

/-- A program that releases what it has acquired and acquires by increasing rank. -/
inductive Program.Ordered (rank : Lock → Nat) : Finset Lock → Program Lock State Result → Prop where
  | done (result : Result) : Ordered rank ∅ (.done result)
  | halt (held : Finset Lock) : Ordered rank held .halt
  | acquire {held : Finset Lock} {lock : Lock} {next : Program Lock State Result}
      (above : ∀ other ∈ held, rank other < rank lock)
      (rest : Ordered rank (insert lock held) next) : Ordered rank held (.acquire lock next)
  | release {held : Finset Lock} {lock : Lock} {next : Program Lock State Result}
      (guarded : lock ∈ held) (rest : Ordered rank (held.erase lock) next) :
      Ordered rank held (.release lock next)
  | act {held : Finset Lock} {update : State → State} {next : State → Program Lock State Result}
      (rest : ∀ state, Ordered rank held (next state)) : Ordered rank held (.act update next)

/-- Programs that acquire by increasing rank keep doing so. -/
theorem ordered_discipline (rank : Lock → Nat) :
    Discipline (Program.Ordered rank : Finset Lock → Program Lock State Result → Prop) where
  acquire := by
    intro held lock next ordered
    cases ordered with
    | acquire above rest => exact rest
  release := by
    intro held lock next ordered
    cases ordered with
    | release guarded rest => exact ⟨guarded, rest⟩
  act := by
    intro held update next ordered
    cases ordered with
    | act rest => exact rest
  done := by
    intro held result ordered
    cases ordered with
    | done result => rfl

end Programs

section Threads

/-- A running thread: the guards it has and what is left of its program. -/
structure Activity (Lock State Result : Type) where
  guards : Finset Lock
  rest : Program Lock State Result

/-- The flags of the locks, the shared store and the running threads. -/
structure Config (Thread Lock State Result : Type) where
  flags : Lock → Bool
  state : State
  running : Thread → Option (Activity Lock State Result)

/-- What the callers see: an operation begins, an operation answers. -/
inductive Event (Thread Operation Result : Type) where
  | begin (thread : Thread) (operation : Operation)
  | finish (thread : Thread) (result : Result)

variable {Thread Lock State Operation Result : Type}

/-- No operation runs and no lock is held. -/
def Config.initial (state : State) : Config Thread Lock State Result :=
  ⟨fun _ => false, state, fun _ => none⟩

/-- The guards a thread has. -/
def Config.guards (config : Config Thread Lock State Result) (thread : Thread) : Finset Lock :=
  (config.running thread).elim ∅ Activity.guards

/-- The flag of a lock is set while it has a guard, and it has at most one. -/
structure Guarded (config : Config Thread Lock State Result) : Prop where
  flagged : ∀ lock thread, lock ∈ config.guards thread → config.flags lock = true
  unique : ∀ lock first second, lock ∈ config.guards first → lock ∈ config.guards second →
    first = second

/-- Moreover a flag is set only while there is a guard. -/
structure Exclusive (config : Config Thread Lock State Result) : Prop extends Guarded config where
  owner : ∀ lock, config.flags lock = true → ∃ thread, lock ∈ config.guards thread

theorem Config.guards_of_running {config : Config Thread Lock State Result} {thread : Thread}
    {activity : Activity Lock State Result} (here : config.running thread = some activity) :
    config.guards thread = activity.guards := by
  rw [Config.guards, here, Option.elim_some]

/-- Every running thread keeps to the discipline. -/
def Disciplined (kept : Finset Lock → Program Lock State Result → Prop)
    (config : Config Thread Lock State Result) : Prop :=
  ∀ thread activity, config.running thread = some activity → kept activity.guards activity.rest

/-- Nothing is held at the start. -/
theorem exclusive_initial (state : State) :
    Exclusive (Config.initial state : Config Thread Lock State Result) := by
  refine ⟨⟨?_, ?_⟩, ?_⟩
  · intro lock thread held
    simp [Config.initial, Config.guards] at held
  · intro lock first second held
    simp [Config.initial, Config.guards] at held
  · intro lock set
    simp [Config.initial] at set

variable [DecidableEq Thread]

/-- The guards after one thread has changed. -/
theorem guards_update (flags : Lock → Bool) (state : State)
    (running : Thread → Option (Activity Lock State Result)) (thread other : Thread)
    (activity : Option (Activity Lock State Result)) :
    Config.guards ⟨flags, state, Function.update running thread activity⟩ other =
      if other = thread then activity.elim ∅ Activity.guards
      else (running other).elim ∅ Activity.guards := by
  by_cases same : other = thread
  · subst same
    simp [Config.guards]
  · simp [Config.guards, same]

variable [DecidableEq Lock] (program : Operation → Program Lock State Result)

/-- A running thread gets further in its program. -/
inductive Advance (config : Config Thread Lock State Result) (thread : Thread) :
    Option (Event Thread Operation Result) → Config Thread Lock State Result → Prop where
  | take {guards : Finset Lock} {lock : Lock} {next : Program Lock State Result}
      (here : config.running thread = some ⟨guards, .acquire lock next⟩)
      (clear : config.flags lock = false) :
      Advance config thread none
        { config with
          flags := Function.update config.flags lock true
          running := Function.update config.running thread (some ⟨insert lock guards, next⟩) }
  | drop {guards : Finset Lock} {lock : Lock} {next : Program Lock State Result}
      (here : config.running thread = some ⟨guards, .release lock next⟩)
      (guarded : lock ∈ guards) :
      Advance config thread none
        { config with
          flags := Function.update config.flags lock false
          running := Function.update config.running thread (some ⟨guards.erase lock, next⟩) }
  | act {guards : Finset Lock} {update : State → State}
      {next : State → Program Lock State Result}
      (here : config.running thread = some ⟨guards, .act update next⟩) :
      Advance config thread none
        { config with
          state := update config.state
          running := Function.update config.running thread
            (some ⟨guards, next config.state⟩) }
  | finish {guards : Finset Lock} {result : Result}
      (here : config.running thread = some ⟨guards, .done result⟩) :
      Advance config thread (some (.finish thread result))
        { config with running := Function.update config.running thread none }

/-- One step of one thread. An attempt to acquire may fail, also on a clear flag. -/
inductive Step (config : Config Thread Lock State Result) :
    Option (Event Thread Operation Result) → Config Thread Lock State Result → Prop where
  | begin (thread : Thread) (operation : Operation) (idle : config.running thread = none) :
      Step config (some (.begin thread operation))
        { config with running :=
            Function.update config.running thread (some ⟨∅, program operation⟩) }
  | spin (thread : Thread) {guards : Finset Lock} {lock : Lock}
      {next : Program Lock State Result}
      (here : config.running thread = some ⟨guards, .acquire lock next⟩) :
      Step config none config
  | advance (thread : Thread) {label : Option (Event Thread Operation Result)}
      {next : Config Thread Lock State Result} (further : Advance config thread label next) :
      Step config label next

omit [DecidableEq Thread] [DecidableEq Lock] in
/-- A lock whose flag is clear is not held. -/
theorem Guarded.unheld {config : Config Thread Lock State Result} (guarded : Guarded config)
    {lock : Lock} (clear : config.flags lock = false) (thread : Thread) :
    lock ∉ config.guards thread := by
  intro held
  have set := guarded.flagged lock thread held
  rw [clear] at set
  cases set

omit [DecidableEq Thread] [DecidableEq Lock] in
/-- It is not among the guards of a running thread. -/
theorem Guarded.not_held {config : Config Thread Lock State Result} (guarded : Guarded config)
    {lock : Lock} (clear : config.flags lock = false) {thread : Thread}
    {activity : Activity Lock State Result} (here : config.running thread = some activity) :
    lock ∉ activity.guards := by
  rw [← Config.guards_of_running here]
  exact guarded.unheld clear thread

section Guards

variable {config : Config Thread Lock State Result} {thread : Thread}

omit [DecidableEq Lock] in
/-- A thread that goes on with no more guards than it had gives nobody a new one. -/
theorem guards_continue (state : State) {activity : Option (Activity Lock State Result)}
    (fewer : activity.elim ∅ Activity.guards ⊆ config.guards thread) (other : Thread) :
    Config.guards ⟨config.flags, state, Function.update config.running thread activity⟩ other ⊆
      config.guards other := by
  rw [guards_update]
  split
  · rename_i here
    rw [here]
    exact fewer
  · exact Finset.Subset.refl _

/-- The guards once a thread has taken a lock. -/
theorem mem_guards_take {guards : Finset Lock} (here : config.guards thread = guards)
    (lock : Lock) (next : Program Lock State Result) (other : Thread) (which : Lock) :
    which ∈ Config.guards ⟨Function.update config.flags lock true, config.state,
        Function.update config.running thread (some ⟨insert lock guards, next⟩)⟩ other ↔
      (other = thread ∧ which = lock) ∨ which ∈ config.guards other := by
  rw [guards_update]
  split
  · rename_i same
    subst same
    simp [here]
  · rename_i different
    simp [different, Config.guards]

/-- The guards once a thread has released a lock. -/
theorem mem_guards_drop {guards : Finset Lock} (here : config.guards thread = guards)
    (lock : Lock) (next : Program Lock State Result) (other : Thread) (which : Lock) :
    which ∈ Config.guards ⟨Function.update config.flags lock false, config.state,
        Function.update config.running thread (some ⟨guards.erase lock, next⟩)⟩ other ↔
      ¬ (other = thread ∧ which = lock) ∧ which ∈ config.guards other := by
  rw [guards_update]
  split
  · rename_i same
    subst same
    simp [here]
  · rename_i different
    simp [different, Config.guards]

omit [DecidableEq Lock] in
theorem Guarded.continue (guarded : Guarded config) (state : State)
    {activity : Option (Activity Lock State Result)}
    (fewer : activity.elim ∅ Activity.guards ⊆ config.guards thread) :
    Guarded ⟨config.flags, state, Function.update config.running thread activity⟩ := by
  constructor
  · intro lock other held
    exact guarded.flagged lock other (guards_continue state fewer other held)
  · intro lock first second heldFirst heldSecond
    exact guarded.unique lock first second (guards_continue state fewer first heldFirst)
      (guards_continue state fewer second heldSecond)

/-- A thread that takes a clear lock has its only guard. -/
theorem Guarded.take (guarded : Guarded config) {guards : Finset Lock}
    (here : config.guards thread = guards) {lock : Lock} (clear : config.flags lock = false)
    (next : Program Lock State Result) :
    Guarded ⟨Function.update config.flags lock true, config.state,
      Function.update config.running thread (some ⟨insert lock guards, next⟩)⟩ := by
  have free := guarded.unheld clear
  constructor
  · intro which other held
    rcases (mem_guards_take here lock next other which).mp held with ⟨-, rfl⟩ | old
    · exact Function.update_self _ _ _
    · have different : which ≠ lock := by
        rintro rfl
        exact free other old
      exact (Function.update_of_ne different _ _).trans (guarded.flagged which other old)
  · intro which first second heldFirst heldSecond
    rw [mem_guards_take here] at heldFirst heldSecond
    rcases heldFirst with ⟨rfl, rfl⟩ | heldFirst
    · rcases heldSecond with ⟨rfl, _⟩ | heldSecond
      · rfl
      · exact absurd heldSecond (free second)
    · rcases heldSecond with ⟨rfl, rfl⟩ | heldSecond
      · exact absurd heldFirst (free first)
      · exact guarded.unique which first second heldFirst heldSecond

/-- A thread that releases a lock leaves it without a guard. -/
theorem Guarded.drop (guarded : Guarded config) {guards : Finset Lock}
    (here : config.guards thread = guards) {lock : Lock} (held : lock ∈ guards)
    (next : Program Lock State Result) :
    Guarded ⟨Function.update config.flags lock false, config.state,
      Function.update config.running thread (some ⟨guards.erase lock, next⟩)⟩ := by
  constructor
  · intro which other still
    obtain ⟨kept, old⟩ := (mem_guards_drop here lock next other which).mp still
    have different : which ≠ lock := by
      rintro rfl
      exact kept ⟨guarded.unique which other thread old (here ▸ held), rfl⟩
    exact (Function.update_of_ne different _ _).trans (guarded.flagged which other old)
  · intro which first second heldFirst heldSecond
    exact guarded.unique which first second ((mem_guards_drop here lock next first which).mp
      heldFirst).2 ((mem_guards_drop here lock next second which).mp heldSecond).2

omit [DecidableEq Lock] in
/-- A thread that goes on with the guards it had changes no guard. -/
theorem Exclusive.continue (exclusive : Exclusive config) (state : State)
    {activity : Option (Activity Lock State Result)}
    (same : activity.elim ∅ Activity.guards = config.guards thread) :
    Exclusive ⟨config.flags, state, Function.update config.running thread activity⟩ := by
  refine ⟨exclusive.toGuarded.continue state (Finset.subset_of_eq same), ?_⟩
  intro lock set
  obtain ⟨other, held⟩ := exclusive.owner lock set
  refine ⟨other, ?_⟩
  rw [guards_update]
  split
  · rename_i here
    rw [same, ← here]
    exact held
  · exact held

theorem Exclusive.take (exclusive : Exclusive config) {guards : Finset Lock}
    (here : config.guards thread = guards) {lock : Lock} (clear : config.flags lock = false)
    (next : Program Lock State Result) :
    Exclusive ⟨Function.update config.flags lock true, config.state,
      Function.update config.running thread (some ⟨insert lock guards, next⟩)⟩ := by
  refine ⟨exclusive.toGuarded.take here clear next, ?_⟩
  intro which set
  by_cases same : which = lock
  · exact ⟨thread, (mem_guards_take here lock next thread which).mpr (.inl ⟨rfl, same⟩)⟩
  · simp only [Function.update_of_ne same] at set
    obtain ⟨other, held⟩ := exclusive.owner which set
    exact ⟨other, (mem_guards_take here lock next other which).mpr (.inr held)⟩

theorem Exclusive.drop (exclusive : Exclusive config) {guards : Finset Lock}
    (here : config.guards thread = guards) {lock : Lock} (held : lock ∈ guards)
    (next : Program Lock State Result) :
    Exclusive ⟨Function.update config.flags lock false, config.state,
      Function.update config.running thread (some ⟨guards.erase lock, next⟩)⟩ := by
  refine ⟨exclusive.toGuarded.drop here held next, ?_⟩
  intro which set
  by_cases same : which = lock
  · simp [same] at set
  · simp only [Function.update_of_ne same] at set
    obtain ⟨other, still⟩ := exclusive.owner which set
    exact ⟨other, (mem_guards_drop here lock next other which).mpr ⟨fun gone => same gone.2, still⟩⟩

end Guards

omit [DecidableEq Lock] in
/-- Replacing one thread's activity keeps the discipline if the new one does. -/
theorem Disciplined.update {kept : Finset Lock → Program Lock State Result → Prop}
    {config : Config Thread Lock State Result} (disciplined : Disciplined kept config)
    (flags : Lock → Bool) (state : State) (thread : Thread)
    {activity : Option (Activity Lock State Result)}
    (new : ∀ value, activity = some value → kept value.guards value.rest) :
    Disciplined kept ⟨flags, state, Function.update config.running thread activity⟩ := by
  intro other value here
  by_cases same : other = thread
  · subst same
    simp only [Function.update_self] at here
    exact new value here
  · simp only [Function.update_of_ne same] at here
    exact disciplined other value here

variable {program}

/-- A thread that gets further keeps the discipline and mutual exclusion. -/
theorem Advance.disciplined {kept : Finset Lock → Program Lock State Result → Prop}
    (discipline : Discipline kept) {config next : Config Thread Lock State Result}
    {thread : Thread} {label : Option (Event Thread Operation Result)}
    (further : Advance config thread label next)
    (disciplined : Disciplined kept config) (exclusive : Exclusive config) :
    Disciplined kept next ∧ Exclusive next := by
  cases further with
  | take here clear =>
    constructor
    · apply disciplined.update
      rintro value ⟨⟩
      exact discipline.acquire _ _ _ (disciplined thread _ here)
    · exact exclusive.take (Config.guards_of_running here) clear _
  | drop here guarded =>
    constructor
    · apply disciplined.update
      rintro value ⟨⟩
      exact (discipline.release _ _ _ (disciplined thread _ here)).2
    · exact exclusive.drop (Config.guards_of_running here) guarded _
  | act here =>
    constructor
    · apply disciplined.update
      rintro value ⟨⟩
      exact discipline.act _ _ _ (disciplined thread _ here) _
    · apply exclusive.continue
      rw [Config.guards_of_running here]
      rfl
  | finish here =>
    have empty := discipline.done _ _ (disciplined thread _ here)
    constructor
    · apply disciplined.update
      rintro value ⟨⟩
    · apply exclusive.continue
      rw [Config.guards_of_running here, empty]
      rfl

/-- Every step keeps the discipline and mutual exclusion. -/
theorem Step.disciplined {kept : Finset Lock → Program Lock State Result → Prop}
    (discipline : Discipline kept) (offered : ∀ operation, kept ∅ (program operation))
    {config next : Config Thread Lock State Result}
    {label : Option (Event Thread Operation Result)} (step : Step program config label next)
    (disciplined : Disciplined kept config) (exclusive : Exclusive config) :
    Disciplined kept next ∧ Exclusive next := by
  cases step with
  | begin thread operation idle =>
    constructor
    · apply disciplined.update
      rintro value ⟨⟩
      exact offered operation
    · apply exclusive.continue
      rw [Config.guards, idle]
      rfl
  | spin thread here => exact ⟨disciplined, exclusive⟩
  | advance thread further => exact further.disciplined discipline disciplined exclusive

/-- Every step of any programs keeps a lock to one guard. -/
theorem Step.guarded {config next : Config Thread Lock State Result}
    {label : Option (Event Thread Operation Result)} (step : Step program config label next)
    (guarded : Guarded config) : Guarded next := by
  cases step with
  | begin thread operation idle => exact guarded.continue _ (Finset.empty_subset _)
  | spin thread here => exact guarded
  | advance thread further =>
    cases further with
    | take here clear => exact guarded.take (Config.guards_of_running here) clear _
    | drop here held => exact guarded.drop (Config.guards_of_running here) held _
    | act here =>
      apply guarded.continue
      rw [Config.guards_of_running here]
      exact Finset.Subset.refl _
    | finish here => exact guarded.continue _ (Finset.empty_subset _)

/-- In every execution of any programs a lock has at most one guard. -/
theorem execution_guarded {state : State} {trace : List (Event Thread Operation Result)}
    {config : Config Thread Lock State Result}
    (execution : Execution (Step program) (Config.initial state) trace config) :
    Guarded config := by
  apply execution.invariant (fun _ config => Guarded config)
  · exact (exclusive_initial state).toGuarded
  · intro trace config label next guarded step
    exact step.guarded guarded

/-- Every execution keeps the discipline and mutual exclusion. -/
theorem execution_disciplined {kept : Finset Lock → Program Lock State Result → Prop}
    (discipline : Discipline kept) (offered : ∀ operation, kept ∅ (program operation))
    {state : State} {trace : List (Event Thread Operation Result)}
    {config : Config Thread Lock State Result}
    (execution : Execution (Step program) (Config.initial state) trace config) :
    Disciplined kept config ∧ Exclusive config := by
  apply execution.invariant (fun _ config => Disciplined kept config ∧ Exclusive config)
  · exact ⟨fun thread activity here => by simp [Config.initial] at here, exclusive_initial state⟩
  · rintro trace config label next ⟨disciplined, exclusive⟩ step
    exact step.disciplined discipline offered disciplined exclusive

end Threads

section Progress

variable {Thread Lock State Operation Result : Type} [DecidableEq Thread] [DecidableEq Lock]

/-- A thread has stopped for good. -/
def Halted (config : Config Thread Lock State Result) (thread : Thread) : Prop :=
  ∃ guards, config.running thread = some ⟨guards, .halt⟩

/-- Some running thread can get further. -/
def CanAdvance (Operation : Type) (config : Config Thread Lock State Result) : Prop :=
  ∃ thread, ∃ label : Option (Event Thread Operation Result), ∃ next,
    Advance config thread label next

/-- A running thread that cannot get further has stopped or waits for a lock whose
flag is set. -/
theorem blocked_of_stuck {kept : Finset Lock → Program Lock State Result → Prop}
    (discipline : Discipline kept) {config : Config Thread Lock State Result}
    (disciplined : Disciplined kept config) (stuck : ¬ CanAdvance Operation config)
    {thread : Thread} {activity : Activity Lock State Result}
    (here : config.running thread = some activity) (live : ¬ Halted config thread) :
    ∃ guards lock next, config.running thread = some ⟨guards, .acquire lock next⟩ ∧
      config.flags lock = true := by
  obtain ⟨guards, rest⟩ := activity
  cases rest with
  | done result => exact absurd ⟨thread, _, _, .finish here⟩ stuck
  | halt => exact absurd ⟨guards, here⟩ live
  | acquire lock next =>
    refine ⟨guards, lock, next, here, ?_⟩
    by_contra clear
    exact stuck ⟨thread, _, _, .take here (Bool.eq_false_of_not_eq_true clear)⟩
  | release lock next =>
    have guarded := (discipline.release _ _ _ (disciplined thread _ here)).1
    exact absurd ⟨thread, _, _, .drop here guarded⟩ stuck
  | act update next => exact absurd ⟨thread, _, _, .act here⟩ stuck

/-- If programs acquire by increasing rank, threads that have not stopped cannot block
each other. The induction is on how far below the bound the awaited lock is: its
holder waits for a lock of higher rank. -/
theorem not_stuck_of_ordered {rank : Lock → Nat} {bound : Nat} (bounded : ∀ lock, rank lock < bound)
    {config : Config Thread Lock State Result} (ordered : Disciplined (Program.Ordered rank) config)
    (exclusive : Exclusive config) (live : ∀ thread, ¬ Halted config thread)
    {thread : Thread} {activity : Activity Lock State Result}
    (here : config.running thread = some activity) : CanAdvance Operation config := by
  by_contra stuck
  have waits {waiting : Thread} {current : Activity Lock State Result}
      (running : config.running waiting = some current) :
      ∃ guards lock next, config.running waiting = some ⟨guards, .acquire lock next⟩ ∧
        config.flags lock = true :=
    blocked_of_stuck (ordered_discipline rank) ordered stuck running (live waiting)
  have endless (gap : Nat) : ∀ lock, config.flags lock = true → bound - rank lock ≤ gap → False := by
    induction gap with
    | zero =>
      intro lock _ close
      have below := bounded lock
      omega
    | succ gap inductionHypothesis =>
      intro lock set close
      obtain ⟨holder, held⟩ := exclusive.owner lock set
      obtain ⟨current, running⟩ : ∃ current, config.running holder = some current := by
        cases found : config.running holder with
        | none => simp [Config.guards, found] at held
        | some current => exact ⟨current, rfl⟩
      obtain ⟨guards, other, next, waiting, taken⟩ := waits running
      rw [Config.guards_of_running waiting] at held
      have above : rank lock < rank other := by
        have kept := ordered holder _ waiting
        cases kept with
        | acquire above rest => exact above lock held
      have below := bounded lock
      exact inductionHypothesis other taken (by omega)
  obtain ⟨_, lock, _, _, set⟩ := waits here
  exact endless _ lock set (Nat.le_refl _)

/-- A program that takes its locks in order, in a thread that has all the guards there are,
runs to its end as it would alone. The induction is on what is left of the program. -/
theorem Program.Ordered.runs_alone {rank : Lock → Nat} {guards : Finset Lock}
    {rest : Program Lock State Result} (ordered : rest.Ordered rank guards) {thread : Thread}
    {config : Config Thread Lock State Result}
    (here : config.running thread = some ⟨guards, rest⟩)
    (flags : ∀ lock, config.flags lock = true ↔ lock ∈ guards) {result : Result} {state : State}
    (alone : rest.runAlone config.state = (some result, state)) :
    ∃ final : Config Thread Lock State Result,
      Execution (fun config => Advance config thread) config
        [(.finish thread result : Event Thread Operation Result)] final ∧
      final.state = state ∧ (∀ lock, final.flags lock = false) ∧
      final.running = Function.update config.running thread none := by
  induction ordered generalizing config with
  | done answer =>
    obtain ⟨answered, rfl⟩ := Prod.mk.inj alone
    obtain rfl := Option.some.inj answered
    have ended : Execution (fun config => Advance config thread) config
        (some (.finish thread answer : Event Thread Operation Result)).toList
        { config with running := Function.update config.running thread none } :=
      .single (.finish here)
    refine ⟨_, ended, rfl, ?_, rfl⟩
    intro lock
    simpa using flags lock
  | halt held => cases (Prod.mk.inj alone).1
  | @acquire held lock next above rest inductionHypothesis =>
    have clear : config.flags lock = false := by
      rw [← Bool.not_eq_true, flags lock]
      exact fun inside => Nat.lt_irrefl _ (above lock inside)
    obtain ⟨final, later, same, free, running⟩ := @inductionHypothesis
      { config with
        flags := Function.update config.flags lock true
        running := Function.update config.running thread (some ⟨insert lock held, next⟩) }
      (Function.update_self _ _ _) (by
        intro other
        by_cases taken : other = lock
        · simp [taken]
        · simp [taken, flags other]) alone
    refine ⟨final, (Execution.single (.take here clear)).append later, same, free, ?_⟩
    rw [running, Function.update_idem]
  | @release held lock next guarded rest inductionHypothesis =>
    obtain ⟨final, later, same, free, running⟩ := @inductionHypothesis
      { config with
        flags := Function.update config.flags lock false
        running := Function.update config.running thread (some ⟨held.erase lock, next⟩) }
      (Function.update_self _ _ _) (by
        intro other
        by_cases dropped : other = lock
        · simp [dropped]
        · simp [dropped, flags other]) alone
    refine ⟨final, (Execution.single (.drop here guarded)).append later, same, free, ?_⟩
    rw [running, Function.update_idem]
  | @act held update next rest inductionHypothesis =>
    obtain ⟨final, later, same, free, running⟩ := @inductionHypothesis config.state
      { config with
        state := update config.state
        running := Function.update config.running thread (some ⟨held, next config.state⟩) }
      (Function.update_self _ _ _) flags alone
    refine ⟨final, (Execution.single (.act here)).append later, same, free, ?_⟩
    rw [running, Function.update_idem]

end Progress

end XyronOS.Locking
