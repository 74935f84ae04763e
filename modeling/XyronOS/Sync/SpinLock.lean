import XyronOS.Library.Atomicity

/-!
# The spin lock

`SpinLock<T>` is an atomic flag beside the data it protects. `lock` repeats a weak
compare-exchange, which may fail although the flag is clear, until it succeeds; the
guard it returns gives access to the data, and dropping the guard clears the flag. The
kernel declares its locks as statics, so that the locks are a family indexed by name
and any thread may reach any of them.

The threads of this module work on the flags and the data through these operations
only. Their steps are steps of the general threads that synchronise through locks, and
what holds for those carries over: no two guards of one lock exist at the same time,
which is what both dereferences of the guard and the `Sync` bound rely on, and threads
that release in a second phase cannot be told from operations that take effect at once.
-/

namespace XyronOS

open Executions Locking

/-- A flag and the data it protects. -/
structure SpinLock (T : Type) where
  locked : Bool
  data : T
deriving DecidableEq, Repr

namespace SpinLock

variable {T : Type}

/-- An unlocked lock. -/
def new (data : T) : SpinLock T := ⟨false, data⟩

/-- `compare_exchange_weak` on the flag: whether it succeeded, and the lock. It may fail
although the flag has the expected value. -/
def compareExchangeWeak (lock : SpinLock T) (current new spurious : Bool) : Bool × SpinLock T :=
  if lock.locked = current ∧ spurious = false then (true, { lock with locked := new })
  else (false, lock)

/-- One round of the loop in `lock`. -/
def attempt (lock : SpinLock T) (spurious : Bool) : Bool × SpinLock T :=
  lock.compareExchangeWeak false true spurious

/-- The data a guard dereferences to. -/
def deref (lock : SpinLock T) : T := lock.data

/-- A write through a guard. -/
def derefMut (lock : SpinLock T) (value : T) : SpinLock T := { lock with data := value }

/-- Dropping the guard stores false into the flag. -/
def drop (lock : SpinLock T) : SpinLock T := { lock with locked := false }

/-- A round that fails changes nothing; one that succeeds found the flag clear. -/
theorem attempt_cases (lock : SpinLock T) (spurious : Bool) :
    lock.attempt spurious = (false, lock) ∨
      lock.locked = false ∧ lock.attempt spurious = (true, { lock with locked := true }) := by
  unfold attempt compareExchangeWeak
  split
  · rename_i free
    exact .inr ⟨free.1, rfl⟩
  · exact .inl rfl

end SpinLock

namespace Statics

variable {Thread Lock Operation Result : Type} {Data : Lock → Type}

/-- The statics and the threads that run. -/
structure Threads (Thread : Type) {Lock : Type} (Data : Lock → Type) (Result : Type) where
  statics : (lock : Lock) → SpinLock (Data lock)
  running : Thread → Option (Activity Lock (Store Data) Result)

/-- What the guards of the statics dereference to. -/
def contents (statics : (lock : Lock) → SpinLock (Data lock)) : Store Data :=
  fun lock => (statics lock).deref

/-- The statics as they are declared, and no thread. -/
def Threads.initial (store : Store Data) : Threads Thread Data Result :=
  ⟨fun lock => .new (store lock), fun _ => none⟩

variable [DecidableEq Thread] [DecidableEq Lock]
  (program : Operation → Program Lock (Store Data) Result)

/-- One step of one thread: it enters a call, makes one round of `lock`, drops a guard,
works on the data through its guards, or returns. -/
inductive Step (threads : Threads Thread Data Result) :
    Option (Event Thread Operation Result) → Threads Thread Data Result → Prop where
  | begin (thread : Thread) (operation : Operation) (idle : threads.running thread = none) :
      Step threads (some (.begin thread operation))
        { threads with running :=
            Function.update threads.running thread (some ⟨∅, program operation⟩) }
  | round (thread : Thread) {guards : Finset Lock} {lock : Lock}
      {next : Program Lock (Store Data) Result}
      (here : threads.running thread = some ⟨guards, .acquire lock next⟩) (spurious : Bool) :
      Step threads none
        ⟨Function.update threads.statics lock ((threads.statics lock).attempt spurious).2,
          if ((threads.statics lock).attempt spurious).1 then
            Function.update threads.running thread (some ⟨insert lock guards, next⟩)
          else threads.running⟩
  | drop (thread : Thread) {guards : Finset Lock} {lock : Lock}
      {next : Program Lock (Store Data) Result}
      (here : threads.running thread = some ⟨guards, .release lock next⟩)
      (guarded : lock ∈ guards) :
      Step threads none
        ⟨Function.update threads.statics lock (threads.statics lock).drop,
          Function.update threads.running thread (some ⟨guards.erase lock, next⟩)⟩
  | access (thread : Thread) {guards : Finset Lock} {update : Store Data → Store Data}
      {next : Store Data → Program Lock (Store Data) Result}
      (here : threads.running thread = some ⟨guards, .act update next⟩) :
      Step threads none
        ⟨fun lock => (threads.statics lock).derefMut (update (contents threads.statics) lock),
          Function.update threads.running thread
            (some ⟨guards, next (contents threads.statics)⟩)⟩
  | finish (thread : Thread) {guards : Finset Lock} {result : Result}
      (here : threads.running thread = some ⟨guards, .done result⟩) :
      Step threads (some (.finish thread result))
        { threads with running := Function.update threads.running thread none }

/-- The flags, the data and the threads, apart. -/
def Threads.config (threads : Threads Thread Data Result) :
    Config Thread Lock (Store Data) Result :=
  ⟨fun lock => (threads.statics lock).locked, contents threads.statics, threads.running⟩

variable {program}

omit [DecidableEq Thread] in
/-- A static replaced by one with the same data changes one flag. -/
theorem config_update (threads : Threads Thread Data Result) {lock : Lock}
    (value : SpinLock (Data lock)) (same : value.data = (threads.statics lock).data)
    (running : Thread → Option (Activity Lock (Store Data) Result)) :
    Threads.config ⟨Function.update threads.statics lock value, running⟩ =
      ⟨Function.update threads.config.flags lock value.locked, threads.config.state, running⟩ := by
  have flags : (fun other => (Function.update threads.statics lock value other).locked) =
      Function.update threads.config.flags lock value.locked := by
    funext other
    by_cases here : other = lock
    · subst here
      simp
    · simp [here, Threads.config]
  have data : contents (Function.update threads.statics lock value) = contents threads.statics := by
    funext other
    by_cases here : other = lock
    · subst here
      simp [contents, SpinLock.deref, same]
    · simp [contents, here]
  simp only [Threads.config, flags, data]

/-- Every step of the threads is a step of threads that synchronise through locks. -/
theorem Step.refines {threads next : Threads Thread Data Result}
    {label : Option (Event Thread Operation Result)} (step : Step program threads label next) :
    Locking.Step program threads.config label next.config := by
  cases step with
  | begin thread operation idle => exact .begin thread operation idle
  | @round thread guards lock next here spurious =>
    cases (threads.statics lock).attempt_cases spurious with
    | inl failed =>
      simp only [failed, Bool.false_eq_true, if_false, Function.update_eq_self]
      exact .spin thread here
    | inr taken =>
      obtain ⟨clear, result⟩ := taken
      simp only [result, if_true]
      rw [config_update threads ⟨true, (threads.statics lock).data⟩ rfl]
      exact .advance thread (.take here clear)
  | @drop thread guards lock next here guarded =>
    rw [config_update threads (threads.statics lock).drop rfl]
    exact .advance thread (.drop here guarded)
  | @access thread guards update next here =>
    have moved : Advance threads.config thread (none : Option (Event Thread Operation Result))
        { threads.config with
          state := update threads.config.state
          running := Function.update threads.config.running thread
            (some ⟨guards, next threads.config.state⟩) } := .act here
    exact .advance thread moved
  | finish thread here => exact .advance thread (.finish here)

/-- Whatever threads that synchronise through locks can do next, the threads can do: where
a lock can be taken, a round of `lock` that does not fail for no reason takes it. -/
theorem Advance.realised {threads : Threads Thread Data Result} {thread : Thread}
    {label : Option (Event Thread Operation Result)} {after : Config Thread Lock (Store Data) Result}
    (further : Advance threads.config thread label after) :
    ∃ next, Step program threads label next ∧ next.config = after := by
  cases further with
  | @take guards lock next here clear =>
    have unlocked : (threads.statics lock).locked = false := clear
    have taken : (threads.statics lock).attempt false =
        (true, ⟨true, (threads.statics lock).data⟩) := by
      simp [SpinLock.attempt, SpinLock.compareExchangeWeak, unlocked]
    refine ⟨_, .round thread here false, ?_⟩
    simp only [taken, if_true]
    rw [config_update threads ⟨true, (threads.statics lock).data⟩ rfl]
    rfl
  | @drop guards lock next here guarded =>
    refine ⟨_, .drop thread here guarded, ?_⟩
    rw [config_update threads (threads.statics lock).drop rfl]
    rfl
  | act here => exact ⟨_, .access thread here, rfl⟩
  | finish here => exact ⟨_, .finish thread here, rfl⟩

/-- Some running thread can take a step by which it gets further in its program. -/
def CanStep (program : Operation → Program Lock (Store Data) Result)
    (threads : Threads Thread Data Result) : Prop :=
  ∃ thread label next, Step program threads label next ∧
    Advance threads.config thread label next.config

/-- Threads that can get further can do so by a step of their own. -/
theorem canStep_of_canAdvance {threads : Threads Thread Data Result}
    (can : CanAdvance Operation threads.config) : CanStep program threads := by
  obtain ⟨thread, label, after, further⟩ := can
  obtain ⟨next, step, rfl⟩ := Advance.realised further
  exact ⟨thread, label, next, step, further⟩

/-- Every execution of the threads is one of threads that synchronise through locks. -/
theorem execution_refines {store : Store Data} {trace : List (Event Thread Operation Result)}
    {threads : Threads Thread Data Result}
    (execution : Execution (Step program) (Threads.initial store) trace threads) :
    Execution (Locking.Step program) (Config.initial store) trace threads.config := by
  obtain ⟨config, general, same⟩ := execution.simulated (fun threads config =>
    threads.config = config) (show (Threads.initial store : Threads Thread Data Result).config =
      Config.initial store from rfl) (by
    rintro threads config label next rfl step
    exact ⟨next.config, .single step.refines, rfl⟩)
  rw [same]
  exact general

/-- A call that finds all locks free and is not disturbed answers as it does alone. -/
theorem call_alone {rank : Lock → Nat} {threads : Threads Thread Data Result} {thread : Thread}
    (idle : threads.running thread = none) (free : ∀ lock, (threads.statics lock).locked = false)
    {operation : Operation} (ordered : (program operation).Ordered rank ∅) {result : Result}
    {store : Store Data}
    (alone : (program operation).runAlone (contents threads.statics) = (some result, store)) :
    ∃ final, Execution (Step program) threads [.begin thread operation, .finish thread result]
        final ∧ contents final.statics = store ∧ (∀ lock, (final.statics lock).locked = false) ∧
      final.running = threads.running := by
  let begun : Threads Thread Data Result :=
    ⟨threads.statics, Function.update threads.running thread (some ⟨∅, program operation⟩)⟩
  have entered : Execution (Step program) threads [.begin thread operation] begun :=
    .single (Step.begin thread operation idle)
  have unlocked (lock : Lock) : begun.config.flags lock = true ↔ lock ∈ (∅ : Finset Lock) := by
    have clear : begun.config.flags lock = false := free lock
    simp [clear]
  have here : begun.config.running thread = some ⟨∅, program operation⟩ :=
    Function.update_self _ _ _
  obtain ⟨config, further, state, flags, running⟩ :
      ∃ final : Config Thread Lock (Store Data) Result,
        Execution (fun config => Advance config thread) begun.config
          [(.finish thread result : Event Thread Operation Result)] final ∧
        final.state = store ∧ (∀ lock, final.flags lock = false) ∧
        final.running = Function.update begun.config.running thread none :=
    ordered.runs_alone here unlocked alone
  obtain ⟨final, later, rfl⟩ : ∃ final, Execution (Step program) begun
      [.finish thread result] final ∧ final.config = config := by
    refine further.simulated
      (fun config (threads : Threads Thread Data Result) => threads.config = config) rfl ?_
    rintro config threads label next rfl advance
    obtain ⟨after, step, reached⟩ : ∃ after, Step program threads label after ∧
      after.config = next := Advance.realised advance
    exact ⟨after, .single step, reached⟩
  refine ⟨final, entered.append later, state, flags, ?_⟩
  have ended : final.running = Function.update begun.running thread none := running
  rw [ended]
  simp only [begun, Function.update_idem]
  rw [← idle, Function.update_eq_self]

/-- The guards a thread has. -/
def Threads.guards (threads : Threads Thread Data Result) (thread : Thread) : Finset Lock :=
  threads.config.guards thread

/-- **Spin locks.** In every interleaving of the threads, with rounds of `lock` failing at
will, whatever the operations do with their locks: a flag is set while a guard exists,
and no lock has two guards. If every operation takes its locks before it drops the first,
a flag is set only while a guard exists; the calls and answers are those of a store on
which every operation takes effect at once, between its call and its answer; and an
unlocked static holds what that store holds. -/
theorem spin_lock_atomic {store : Store Data} {trace : List (Event Thread Operation Result)}
    {threads : Threads Thread Data Result}
    (execution : Execution (Step program) (Threads.initial store) trace threads) :
    (∀ lock thread, lock ∈ threads.guards thread → (threads.statics lock).locked = true) ∧
    (∀ lock first second, lock ∈ threads.guards first → lock ∈ threads.guards second →
      first = second) ∧
    ((∀ operation, TwoPhase ∅ (program operation)) →
      (∀ lock, (threads.statics lock).locked = true → ∃ thread, lock ∈ threads.guards thread) ∧
      ∃ atomic, Execution (AtomicStep program) (Atomic.initial store) trace atomic ∧
        (∀ lock, (threads.statics lock).locked = false →
          (threads.statics lock).data = atomic.state lock) ∧
        ∀ thread, threads.running thread = none → atomic.phases thread = .idle) := by
  have guarded := execution_guarded (execution_refines execution)
  refine ⟨guarded.flagged, guarded.unique, ?_⟩
  intro offered
  obtain ⟨atomic, followed, serial⟩ := execution_atomic offered (execution_refines execution)
  refine ⟨serial.exclusive.owner, atomic, followed, serial.free, ?_⟩
  intro thread idle
  have matched := serial.threads thread
  rw [show threads.config.running thread = none from idle] at matched
  generalize atomic.phases thread = phase at matched
  cases matched with
  | idle => rfl

/-- A counter behind one lock: read it, add one, answer what was read. -/
def increment : Unit → Program Unit (Store fun _ : Unit => Nat) Nat := fun _ =>
  .acquire () (.act (fun store lock => store lock + 1)
    (fun store => .release () (.done (store ()))))

theorem increment_twoPhase (operation : Unit) : TwoPhase ∅ (increment operation) := by
  refine .acquire (.act ?_ ?_ ?_)
  · intro store lock outside
    simp at outside
  · intro left right same
    have equal : left () = right () := same () (by simp)
    exact ⟨fun _ _ => congrArg (· + 1) equal, by rw [equal]⟩
  · intro store
    exact .release (by simp) (.done _) (by simpa using TwoPhase.done (store ()))

/-- Two threads increment the counter, the second trying while the first holds the
lock. -/
theorem spin_lock_atomic_counter :
    ∃ threads : Threads Bool (fun _ : Unit => Nat) Nat,
      Execution (Step increment) (Threads.initial fun _ => 0)
        [.begin false (), .begin true (), .finish false 0, .finish true 1] threads ∧
      (∀ lock first second, lock ∈ threads.guards first → lock ∈ threads.guards second →
        first = second) ∧
      ∃ atomic, Execution (AtomicStep increment) (Atomic.initial fun _ => 0)
        [.begin false (), .begin true (), .finish false 0, .finish true 1] atomic ∧
        (threads.statics ()).data = 2 ∧ atomic.state () = 2 := by
  let idle : Threads Bool (fun _ : Unit => Nat) Nat := Threads.initial fun _ => 0
  have start : Execution (Step increment) idle [] idle := .nil
  have begun := (start.snoc _ (Step.begin false () rfl)).snoc _ (Step.begin true () rfl)
  have taken := (begun.snoc _ (Step.round false rfl false)).snoc _ (Step.round true rfl false)
  have first := ((taken.snoc _ (Step.access false rfl)).snoc _
    (Step.drop false rfl (by decide))).snoc _ (Step.finish false rfl)
  have second := (((first.snoc _ (Step.round true rfl false)).snoc _ (Step.access true rfl)).snoc _
    (Step.drop true rfl (by decide))).snoc _ (Step.finish true rfl)
  obtain ⟨-, unique, serial⟩ := spin_lock_atomic second
  obtain ⟨-, atomic, followed, free, -⟩ := serial increment_twoPhase
  exact ⟨_, second, unique, atomic, followed, rfl, (free () rfl).symm⟩

end Statics

end XyronOS
