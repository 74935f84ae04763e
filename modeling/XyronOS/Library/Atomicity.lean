import XyronOS.Library.Locking

/-!
# Two-phase locking is atomic

A store is divided among locks. A two-phase program touches only what its guards
protect and acquires nothing after its first release. Threads that run such programs
cannot be told from callers of a store on which every operation takes effect at once:
each execution of the threads shows a trace of that store, in which an operation takes
effect between its call and its answer.

An operation is taken to have its effect at the moment from which on its thread
acquires no more. Until then the store without its actions is what the others have
seen, and the operation would come to the same place if it were run from there; this
does not depend on the parts the thread does not hold yet. From then on what its
remaining actions will leave is decided by what it holds. Both descriptions speak only
about parts under the thread's own guards, so that the steps of other threads do not
disturb them.
-/

namespace XyronOS.Locking

open Executions

section Shrinking

variable {Lock State Result : Type}

/-- A program that acquires nothing any more. -/
inductive Program.Shrinking : Program Lock State Result → Prop where
  | done (result : Result) : Shrinking (.done result)
  | halt : Shrinking .halt
  | release (lock : Lock) {next : Program Lock State Result} (rest : Shrinking next) :
      Shrinking (.release lock next)
  | act (update : State → State) {next : State → Program Lock State Result}
      (rest : ∀ state, Shrinking (next state)) : Shrinking (.act update next)

end Shrinking

section Atomicity

/-- Where a caller is on a store on which operations take effect at once. -/
inductive Phase (Operation Result : Type) where
  | idle
  | called (operation : Operation)
  | answered (result : Result)
  | stopped

/-- The phase after an operation that took effect. -/
def Phase.ofAnswer {Operation Result : Type} : Option Result → Phase Operation Result
  | some result => .answered result
  | none => .stopped

/-- A store on which operations take effect at once, and its callers. -/
structure Atomic (Thread State Operation Result : Type) where
  state : State
  phases : Thread → Phase Operation Result

variable {Thread Lock State Operation Result : Type} [DecidableEq Thread]

/-- No operation has been called. -/
def Atomic.initial (state : State) : Atomic Thread State Operation Result :=
  ⟨state, fun _ => .idle⟩

/-- An operation is called, takes effect at some moment and answers. -/
inductive AtomicStep (program : Operation → Program Lock State Result)
    (atomic : Atomic Thread State Operation Result) :
    Option (Event Thread Operation Result) → Atomic Thread State Operation Result → Prop where
  | begin (thread : Thread) (operation : Operation) (idle : atomic.phases thread = .idle) :
      AtomicStep program atomic (some (.begin thread operation))
        { atomic with phases := Function.update atomic.phases thread (.called operation) }
  | execute (thread : Thread) (operation : Operation)
      (called : atomic.phases thread = .called operation) :
      AtomicStep program atomic none
        ⟨((program operation).runAlone atomic.state).2,
          Function.update atomic.phases thread
            (.ofAnswer ((program operation).runAlone atomic.state).1)⟩
  | finish (thread : Thread) (result : Result) (answered : atomic.phases thread = .answered result) :
      AtomicStep program atomic (some (.finish thread result))
        { atomic with phases := Function.update atomic.phases thread .idle }

end Atomicity

section TwoPhase

/-- A store divided among the locks. -/
abbrev Store {Lock : Type} (Data : Lock → Type) := (lock : Lock) → Data lock

variable {Thread Lock Operation Result : Type} {Data : Lock → Type} [DecidableEq Lock]

/-- Two stores have the same parts under some locks. -/
def Agree (held : Finset Lock) (left right : Store Data) : Prop :=
  ∀ lock ∈ held, left lock = right lock

/-- A store with the parts under some locks replaced. -/
def merge (held : Finset Lock) (inner outer : Store Data) : Store Data :=
  fun lock => if lock ∈ held then inner lock else outer lock

/-- A program that touches only what its guards protect, acquires nothing after a
release and answers once it holds nothing. -/
inductive TwoPhase : Finset Lock → Program Lock (Store Data) Result → Prop where
  | done (result : Result) : TwoPhase ∅ (.done result)
  | halt (held : Finset Lock) : TwoPhase held .halt
  | acquire {held : Finset Lock} {lock : Lock} {next : Program Lock (Store Data) Result}
      (rest : TwoPhase (insert lock held) next) : TwoPhase held (.acquire lock next)
  | release {held : Finset Lock} {lock : Lock} {next : Program Lock (Store Data) Result}
      (guarded : lock ∈ held) (shrinks : next.Shrinking) (rest : TwoPhase (held.erase lock) next) :
      TwoPhase held (.release lock next)
  | act {held : Finset Lock} {update : Store Data → Store Data}
      {next : Store Data → Program Lock (Store Data) Result}
      (framed : ∀ store, ∀ lock ∉ held, update store lock = store lock)
      (confined : ∀ left right, Agree held left right →
        Agree held (update left) (update right) ∧ next left = next right)
      (rest : ∀ store, TwoPhase held (next store)) : TwoPhase held (.act update next)

/-- Two-phase programs stay two-phase. -/
theorem twoPhase_discipline :
    Discipline (TwoPhase : Finset Lock → Program Lock (Store Data) Result → Prop) where
  acquire := by
    intro held lock next twoPhase
    cases twoPhase with
    | acquire rest => exact rest
  release := by
    intro held lock next twoPhase
    cases twoPhase with
    | release guarded shrinks rest => exact ⟨guarded, rest⟩
  act := by
    intro held update next twoPhase
    cases twoPhase with
    | act framed confined rest => exact rest
  done := by
    intro held result twoPhase
    cases twoPhase with
    | done result => rfl

/-- A program that releases is past its last acquisition. -/
theorem TwoPhase.release_shrinks {held : Finset Lock} {lock : Lock}
    {next : Program Lock (Store Data) Result} (twoPhase : TwoPhase held (.release lock next)) :
    next.Shrinking ∧ (Program.release lock next).Shrinking := by
  cases twoPhase with
  | release guarded shrinks rest => exact ⟨shrinks, .release lock shrinks⟩

/-- An act on the part under one guard. -/
theorem TwoPhase.act_part {held : Finset Lock} {lock : Lock} (guarded : lock ∈ held)
    {update : Store Data → Store Data} {next : Store Data → Program Lock (Store Data) Result}
    (change : Data lock → Data lock) (resume : Data lock → Program Lock (Store Data) Result)
    (updated : ∀ store, update store = Function.update store lock (change (store lock)))
    (continued : ∀ store, next store = resume (store lock))
    (rest : ∀ store, TwoPhase held (next store)) : TwoPhase held (.act update next) := by
  refine .act ?_ ?_ rest
  · intro store other free
    have different : other ≠ lock := fun same => free (same ▸ guarded)
    rw [updated, Function.update_of_ne different]
  · intro left right same
    rw [continued, continued, same lock guarded, updated, updated]
    refine ⟨?_, rfl⟩
    intro other inside
    by_cases here : other = lock
    · subst here
      rw [Function.update_self, Function.update_self, same other guarded]
    · rw [Function.update_of_ne here, Function.update_of_ne here, same other inside]

/-- An act under all guards. -/
theorem TwoPhase.act_all {held : Finset Lock} (all : ∀ lock, lock ∈ held)
    {update : Store Data → Store Data} {next : Store Data → Program Lock (Store Data) Result}
    (rest : ∀ store, TwoPhase held (next store)) : TwoPhase held (.act update next) := by
  refine .act ?_ ?_ rest
  · intro store lock free
    exact absurd (all lock) free
  · intro left right same
    have equal : left = right := funext fun lock => same lock (all lock)
    subst equal
    exact ⟨fun _ _ => rfl, rfl⟩

/-- Without further acquisitions a program leaves alone what it has no guard for. -/
theorem TwoPhase.runAlone_off {held : Finset Lock} {rest : Program Lock (Store Data) Result}
    (twoPhase : TwoPhase held rest) (shrinks : rest.Shrinking) (store : Store Data) {lock : Lock}
    (free : lock ∉ held) : (rest.runAlone store).2 lock = store lock := by
  induction twoPhase generalizing store with
  | done result => rfl
  | halt held => rfl
  | acquire rest inductionHypothesis => cases shrinks
  | release guarded later rest inductionHypothesis =>
    exact inductionHypothesis later store (fun inside => free (Finset.mem_of_mem_erase inside))
  | act framed confined rest inductionHypothesis =>
    cases shrinks with
    | act update later =>
      rw [Program.runAlone, inductionHypothesis store (later store) _ free, framed store lock free]

/-- Without further acquisitions a program depends only on what its guards protect. -/
theorem TwoPhase.runAlone_agree {held : Finset Lock} {rest : Program Lock (Store Data) Result}
    (twoPhase : TwoPhase held rest) (shrinks : rest.Shrinking) {left right : Store Data}
    (same : Agree held left right) :
    (rest.runAlone left).1 = (rest.runAlone right).1 ∧
      Agree held (rest.runAlone left).2 (rest.runAlone right).2 := by
  induction twoPhase generalizing left right with
  | done result => exact ⟨rfl, same⟩
  | halt held => exact ⟨rfl, same⟩
  | acquire rest inductionHypothesis => cases shrinks
  | @release held lock next guarded later rest inductionHypothesis =>
    obtain ⟨answer, inner⟩ := inductionHypothesis later
      (fun other inside => same other (Finset.mem_of_mem_erase inside))
    refine ⟨answer, ?_⟩
    intro other inside
    by_cases released : other = lock
    · subst released
      rw [Program.runAlone, Program.runAlone, rest.runAlone_off later left (by simp),
        rest.runAlone_off later right (by simp)]
      exact same other inside
    · exact inner other (Finset.mem_erase.2 ⟨released, inside⟩)
  | @act held update next framed confined rest inductionHypothesis =>
    cases shrinks with
    | act update later =>
      obtain ⟨updated, continued⟩ := confined left right same
      rw [Program.runAlone, Program.runAlone, ← continued]
      exact inductionHypothesis left (later left) updated

theorem agree_merge_left (held : Finset Lock) (inner outer : Store Data) :
    Agree held (merge held inner outer) inner := by
  intro lock inside
  simp [merge, inside]

theorem merge_off {held : Finset Lock} (inner outer : Store Data) {lock : Lock}
    (free : lock ∉ held) : merge held inner outer lock = outer lock := by
  simp [merge, free]

theorem merge_congr {held : Finset Lock} {left right : Store Data} (same : Agree held left right)
    (outer : Store Data) : merge held left outer = merge held right outer := by
  funext lock
  by_cases inside : lock ∈ held
  · simp [merge, inside, same lock inside]
  · simp [merge, inside]

variable (program : Operation → Program Lock (Store Data) Result)

/-- How a thread and a caller of the atomic store correspond. As long as the thread may
acquire more, its operation has not taken effect: run from any store that has what the
thread holds, the operation would come to where the thread is. Afterwards it has taken
effect: the atomic store has what the thread will leave of what it holds. -/
inductive Matches (data store : Store Data) :
    Option (Activity Lock (Store Data) Result) → Phase Operation Result → Prop where
  | idle : Matches data store none .idle
  | growing {guards : Finset Lock} {rest : Program Lock (Store Data) Result}
      (operation : Operation) (more : ¬ rest.Shrinking)
      (replay : ∀ outer, Agree guards outer store →
        (program operation).runAlone outer = rest.runAlone (merge guards data outer)) :
      Matches data store (some ⟨guards, rest⟩) (.called operation)
  | shrinking {guards : Finset Lock} {rest : Program Lock (Store Data) Result}
      (shrinks : rest.Shrinking) (final : Agree guards store (rest.runAlone data).2) :
      Matches data store (some ⟨guards, rest⟩) (.ofAnswer (rest.runAlone data).1)

/-- A thread does not see changes of what it does not hold. -/
theorem Matches.congr {program : Operation → Program Lock (Store Data) Result}
    {data store data' store' : Store Data}
    {activity : Option (Activity Lock (Store Data) Result)} {phase : Phase Operation Result}
    (matched : Matches program data store activity phase)
    (twoPhase : ∀ value, activity = some value → TwoPhase value.guards value.rest)
    (sameData : Agree (activity.elim ∅ Activity.guards) data data')
    (sameStore : Agree (activity.elim ∅ Activity.guards) store store') :
    Matches program data' store' activity phase := by
  cases matched with
  | idle => exact .idle
  | @growing guards rest operation more replay =>
    refine .growing operation more ?_
    intro outer agrees
    have merged : merge guards data outer = merge guards data' outer := merge_congr sameData outer
    rw [← merged]
    exact replay outer (fun lock inside => (agrees lock inside).trans (sameStore lock inside).symm)
  | @shrinking guards rest shrinks final =>
    obtain ⟨answer, left⟩ := (twoPhase _ rfl).runAlone_agree shrinks sameData
    have shown : Matches program data' store' (some ⟨guards, rest⟩)
        (.ofAnswer (rest.runAlone data').1) := by
      refine .shrinking shrinks ?_
      intro lock inside
      rw [← sameStore lock inside, final lock inside]
      exact left lock inside
    rw [show (rest.runAlone data).1 = (rest.runAlone data').1 from answer]
    exact shown

variable [DecidableEq Thread]

/-- The threads correspond to the callers of an atomic store that has the parts of the
free locks. -/
structure Serial (config : Config Thread Lock (Store Data) Result)
    (atomic : Atomic Thread (Store Data) Operation Result) : Prop where
  twoPhase : Disciplined TwoPhase config
  exclusive : Exclusive config
  free : ∀ lock, config.flags lock = false → config.state lock = atomic.state lock
  threads : ∀ thread, Matches program config.state atomic.state (config.running thread)
    (atomic.phases thread)

variable {program}

/-- A thread whose operation has not taken effect and that is past its last
acquisition lets it take effect. -/
theorem Serial.settle {config : Config Thread Lock (Store Data) Result}
    {atomic : Atomic Thread (Store Data) Operation Result}
    (twoPhase : Disciplined TwoPhase config) (exclusive : Exclusive config) {thread : Thread}
    {guards : Finset Lock} {rest : Program Lock (Store Data) Result}
    (here : config.running thread = some ⟨guards, rest⟩) {operation : Operation}
    (called : atomic.phases thread = .called operation)
    (replay : ∀ outer, Agree guards outer atomic.state →
      (program operation).runAlone outer = rest.runAlone (merge guards config.state outer))
    (free : ∀ lock, config.flags lock = false → config.state lock = atomic.state lock)
    (others : ∀ other, other ≠ thread → Matches program config.state atomic.state
      (config.running other) (atomic.phases other)) :
    ∃ after, Execution (AtomicStep program) atomic [] after ∧ Serial program config after := by
  by_cases shrinks : rest.Shrinking
  · have kept : TwoPhase guards rest := twoPhase thread _ here
    have effect := replay atomic.state (fun _ _ => rfl)
    obtain ⟨answer, left⟩ := kept.runAlone_agree shrinks
      (agree_merge_left guards config.state atomic.state)
    have off (lock : Lock) (outside : lock ∉ guards) :
        ((program operation).runAlone atomic.state).2 lock = atomic.state lock := by
      rw [effect, kept.runAlone_off shrinks _ outside, merge_off _ _ outside]
    have clear (lock : Lock) (unset : config.flags lock = false) : lock ∉ guards :=
      exclusive.not_held unset here
    refine ⟨_, Execution.single (AtomicStep.execute thread operation called), twoPhase, exclusive,
      ?_, ?_⟩
    · intro lock unset
      exact (free lock unset).trans (off lock (clear lock unset)).symm
    · intro other
      by_cases same : other = thread
      · subst same
        simp only [here, Function.update_self, effect, answer]
        exact .shrinking shrinks left
      · simp only [Function.update_of_ne same]
        apply (others other same).congr (twoPhase other)
        · exact fun _ _ => rfl
        · intro lock inside
          refine (off lock ?_).symm
          intro mine
          have both := exclusive.unique lock other thread inside
            (by rwa [Config.guards_of_running here])
          exact same both
  · refine ⟨atomic, .nil, twoPhase, exclusive, free, ?_⟩
    intro other
    by_cases same : other = thread
    · subst same
      rw [here, called]
      exact .growing operation shrinks replay
    · exact others other same

/-- Other threads do not see a step that changes no part they hold. -/
theorem Serial.others {config : Config Thread Lock (Store Data) Result}
    {atomic : Atomic Thread (Store Data) Operation Result} (serial : Serial program config atomic)
    {thread : Thread} {guards : Finset Lock} {rest : Program Lock (Store Data) Result}
    (here : config.running thread = some ⟨guards, rest⟩) {data : Store Data}
    (framed : ∀ lock ∉ guards, data lock = config.state lock)
    (activity : Option (Activity Lock (Store Data) Result)) (other : Thread)
    (different : other ≠ thread) :
    Matches program data atomic.state (Function.update config.running thread activity other)
      (atomic.phases other) := by
  rw [Function.update_of_ne different]
  apply (serial.threads other).congr (serial.twoPhase other)
  · intro lock inside
    refine (framed lock ?_).symm
    intro mine
    exact different (serial.exclusive.unique lock other thread inside
      (by rwa [Config.guards_of_running here]))
  · exact fun _ _ => rfl

omit [DecidableEq Thread] in
/-- What a thread that may acquire more knows of the store. -/
theorem Serial.growing {config : Config Thread Lock (Store Data) Result}
    {atomic : Atomic Thread (Store Data) Operation Result} (serial : Serial program config atomic)
    {thread : Thread} {guards : Finset Lock} {rest : Program Lock (Store Data) Result}
    (here : config.running thread = some ⟨guards, rest⟩) (more : ¬ rest.Shrinking) :
    ∃ operation, atomic.phases thread = .called operation ∧
      ∀ outer, Agree guards outer atomic.state →
        (program operation).runAlone outer = rest.runAlone (merge guards config.state outer) := by
  have matched := serial.threads thread
  rw [here] at matched
  generalize phaseIs : atomic.phases thread = phase at matched
  cases matched with
  | growing operation _ replay => exact ⟨operation, rfl, replay⟩
  | shrinking shrinks final => exact absurd shrinks more

omit [DecidableEq Thread] in
/-- What the atomic store knows of a thread that acquires nothing any more. -/
theorem Serial.shrinking {config : Config Thread Lock (Store Data) Result}
    {atomic : Atomic Thread (Store Data) Operation Result} (serial : Serial program config atomic)
    {thread : Thread} {guards : Finset Lock} {rest : Program Lock (Store Data) Result}
    (here : config.running thread = some ⟨guards, rest⟩) (shrinks : rest.Shrinking) :
    atomic.phases thread = .ofAnswer (rest.runAlone config.state).1 ∧
      Agree guards atomic.state (rest.runAlone config.state).2 := by
  have matched := serial.threads thread
  rw [here] at matched
  generalize phaseIs : atomic.phases thread = phase at matched
  cases matched with
  | growing operation more replay => exact absurd shrinks more
  | shrinking _ final => exact ⟨rfl, final⟩

/-- A thread that has taken a lock would come to the same place on the atomic store,
whose part under that lock is the one the lock protects. -/
theorem Serial.take {config : Config Thread Lock (Store Data) Result}
    {atomic : Atomic Thread (Store Data) Operation Result} (serial : Serial program config atomic)
    {thread : Thread} {guards : Finset Lock} {lock : Lock}
    {next : Program Lock (Store Data) Result}
    (here : config.running thread = some ⟨guards, .acquire lock next⟩)
    (clear : config.flags lock = false)
    (twoPhase : Disciplined TwoPhase (⟨Function.update config.flags lock true, config.state,
      Function.update config.running thread (some ⟨insert lock guards, next⟩)⟩ :
        Config Thread Lock (Store Data) Result))
    (exclusive : Exclusive (⟨Function.update config.flags lock true, config.state,
      Function.update config.running thread (some ⟨insert lock guards, next⟩)⟩ :
        Config Thread Lock (Store Data) Result)) :
    ∃ after, Execution (AtomicStep program) atomic [] after ∧
      Serial program ⟨Function.update config.flags lock true, config.state,
        Function.update config.running thread (some ⟨insert lock guards, next⟩)⟩ after := by
  have more : ¬ (Program.acquire lock next).Shrinking := by
    intro shrinks
    cases shrinks
  obtain ⟨operation, called, replay⟩ := serial.growing here more
  apply Serial.settle twoPhase exclusive (Function.update_self _ _ _) called
  · intro outer agrees
    rw [replay outer (fun other inside => agrees other (Finset.mem_insert_of_mem inside)),
      Program.runAlone]
    congr 1
    funext other
    by_cases same : other = lock
    · subst same
      have absent : other ∉ guards := serial.exclusive.not_held clear here
      rw [merge_off _ _ absent, agrees other (Finset.mem_insert_self _ _),
        ← serial.free other clear]
      simp [merge]
    · simp [merge, same]
  · intro other unset
    apply serial.free other
    by_cases same : other = lock
    · subst same
      simp at unset
    · simpa [Function.update_of_ne same] using unset
  · exact serial.others here (fun _ _ => rfl) _

/-- A thread that has acted on what it holds. -/
theorem Serial.act {config : Config Thread Lock (Store Data) Result}
    {atomic : Atomic Thread (Store Data) Operation Result} (serial : Serial program config atomic)
    {thread : Thread} {guards : Finset Lock} {update : Store Data → Store Data}
    {next : Store Data → Program Lock (Store Data) Result}
    (here : config.running thread = some ⟨guards, .act update next⟩)
    (twoPhase : Disciplined TwoPhase (⟨config.flags, update config.state,
      Function.update config.running thread (some ⟨guards, next config.state⟩)⟩ :
        Config Thread Lock (Store Data) Result))
    (exclusive : Exclusive (⟨config.flags, update config.state,
      Function.update config.running thread (some ⟨guards, next config.state⟩)⟩ :
        Config Thread Lock (Store Data) Result)) :
    ∃ after, Execution (AtomicStep program) atomic [] after ∧
      Serial program ⟨config.flags, update config.state,
        Function.update config.running thread (some ⟨guards, next config.state⟩)⟩ after := by
  have kept : TwoPhase guards (.act update next) := serial.twoPhase thread _ here
  obtain ⟨framed, confined⟩ : (∀ store, ∀ lock ∉ guards, update store lock = store lock) ∧
      ∀ left right, Agree guards left right →
        Agree guards (update left) (update right) ∧ next left = next right := by
    cases kept with
    | act framed confined rest => exact ⟨framed, confined⟩
  have free (lock : Lock) (clear : config.flags lock = false) :
      update config.state lock = atomic.state lock := by
    rw [framed _ _ (serial.exclusive.not_held clear here)]
    exact serial.free lock clear
  have others := serial.others here (framed config.state) (some ⟨guards, next config.state⟩)
  by_cases shrinks : (Program.act update next).Shrinking
  · obtain ⟨answered, final⟩ := serial.shrinking here shrinks
    have later : (next config.state).Shrinking := by
      cases shrinks with
      | act update rest => exact rest config.state
    refine ⟨atomic, .nil, twoPhase, exclusive, free, ?_⟩
    intro other
    by_cases same : other = thread
    · subst same
      simp only [Function.update_self, answered]
      exact .shrinking later final
    · exact others other same
  · obtain ⟨operation, called, replay⟩ := serial.growing here shrinks
    apply Serial.settle twoPhase exclusive (Function.update_self _ _ _) called _ free others
    intro outer agrees
    obtain ⟨updated, continued⟩ :=
      confined _ _ (agree_merge_left guards config.state outer)
    rw [replay outer agrees, Program.runAlone, continued]
    congr 1
    funext lock
    by_cases inside : lock ∈ guards
    · rw [updated lock inside]
      simp [merge, inside]
    · rw [framed _ _ inside]
      simp [merge, inside]

/-- A lock that is released protects what the atomic store has. -/
theorem Serial.drop {config : Config Thread Lock (Store Data) Result}
    {atomic : Atomic Thread (Store Data) Operation Result} (serial : Serial program config atomic)
    {thread : Thread} {guards : Finset Lock} {lock : Lock}
    {next : Program Lock (Store Data) Result}
    (here : config.running thread = some ⟨guards, .release lock next⟩) (guarded : lock ∈ guards)
    (twoPhase : Disciplined TwoPhase (⟨Function.update config.flags lock false, config.state,
      Function.update config.running thread (some ⟨guards.erase lock, next⟩)⟩ :
        Config Thread Lock (Store Data) Result))
    (exclusive : Exclusive (⟨Function.update config.flags lock false, config.state,
      Function.update config.running thread (some ⟨guards.erase lock, next⟩)⟩ :
        Config Thread Lock (Store Data) Result)) :
    Serial program ⟨Function.update config.flags lock false, config.state,
      Function.update config.running thread (some ⟨guards.erase lock, next⟩)⟩ atomic := by
  obtain ⟨later, shrinks⟩ := (serial.twoPhase thread _ here).release_shrinks
  obtain ⟨answered, final⟩ := serial.shrinking here shrinks
  have left : TwoPhase (guards.erase lock) next :=
    (twoPhase_discipline.release _ _ _ (serial.twoPhase thread _ here)).2
  refine ⟨twoPhase, exclusive, ?_, ?_⟩
  · intro other unset
    by_cases same : other = lock
    · subst same
      have untouched : (next.runAlone config.state).2 other = config.state other :=
        left.runAlone_off later config.state (by simp)
      exact untouched.symm.trans (final other guarded).symm
    · apply serial.free other
      simpa [Function.update_of_ne same] using unset
  · intro other
    by_cases same : other = thread
    · subst same
      simp only [Function.update_self, answered]
      exact .shrinking later (fun which inside => final which (Finset.mem_of_mem_erase inside))
    · exact serial.others here (fun _ _ => rfl) _ other same

/-- The atomic store follows a thread that gets further. -/
theorem Serial.advance {config next : Config Thread Lock (Store Data) Result}
    {atomic : Atomic Thread (Store Data) Operation Result} (serial : Serial program config atomic)
    {thread : Thread} {label : Option (Event Thread Operation Result)}
    (further : Advance config thread label next) :
    ∃ after, Execution (AtomicStep program) atomic label.toList after ∧
      Serial program next after := by
  obtain ⟨twoPhase, exclusive⟩ :=
    further.disciplined twoPhase_discipline serial.twoPhase serial.exclusive
  cases further with
  | take here clear => exact serial.take here clear twoPhase exclusive
  | act here => exact serial.act here twoPhase exclusive
  | drop here guarded => exact ⟨atomic, .nil, serial.drop here guarded twoPhase exclusive⟩
  | @finish guards result here =>
    obtain ⟨answered, _⟩ := serial.shrinking here (.done result)
    refine ⟨_, Execution.single (AtomicStep.finish thread result answered), twoPhase, exclusive,
      serial.free, ?_⟩
    intro other
    by_cases same : other = thread
    · subst same
      simp only [Function.update_self]
      exact .idle
    · have unchanged := serial.others here (fun _ _ => rfl) none other same
      simpa only [Function.update_of_ne same] using unchanged

/-- The atomic store follows every step. -/
theorem Serial.step (offered : ∀ operation, TwoPhase ∅ (program operation))
    {config next : Config Thread Lock (Store Data) Result}
    {atomic : Atomic Thread (Store Data) Operation Result} (serial : Serial program config atomic)
    {label : Option (Event Thread Operation Result)} (step : Step program config label next) :
    ∃ after, Execution (AtomicStep program) atomic label.toList after ∧
      Serial program next after := by
  obtain ⟨twoPhase, exclusive⟩ :=
    step.disciplined twoPhase_discipline offered serial.twoPhase serial.exclusive
  cases step with
  | spin thread here => exact ⟨atomic, .nil, serial⟩
  | advance thread further => exact serial.advance further
  | begin thread operation idle =>
    have unused : atomic.phases thread = .idle := by
      have matched := serial.threads thread
      rw [idle] at matched
      generalize atomic.phases thread = phase at matched
      cases matched with
      | idle => rfl
    have called : Execution (AtomicStep program) atomic [Event.begin thread operation] _ :=
      Execution.single (AtomicStep.begin thread operation unused)
    have replay (outer : Store Data) (_ : Agree ∅ outer atomic.state) :
        (program operation).runAlone outer =
          (program operation).runAlone (merge ∅ config.state outer) := by
      have nothing : merge ∅ config.state outer = outer := by
        funext lock
        simp [merge]
      rw [nothing]
    have others (other : Thread) (different : other ≠ thread) :
        Matches program config.state atomic.state
          (Function.update config.running thread (some ⟨∅, program operation⟩) other)
          (Function.update atomic.phases thread (.called operation) other) := by
      rw [Function.update_of_ne different, Function.update_of_ne different]
      exact serial.threads other
    obtain ⟨after, settled, related⟩ : ∃ after, Execution (AtomicStep program)
        { atomic with phases := Function.update atomic.phases thread (.called operation) } [] after ∧
        Serial program _ after :=
      Serial.settle twoPhase exclusive (Function.update_self _ _ _) (Function.update_self _ _ _)
        replay serial.free others
    exact ⟨after, called.append settled, related⟩

/-- **Two-phase locking is atomic.** Every execution of two-phase programs, in whatever
way the steps of the threads are interleaved, shows the callers a trace of the store on
which operations take effect at once; the parts of the free locks are those of that
store. -/
theorem execution_atomic (offered : ∀ operation, TwoPhase ∅ (program operation))
    {store : Store Data} {trace : List (Event Thread Operation Result)}
    {config : Config Thread Lock (Store Data) Result}
    (execution : Execution (Step program) (Config.initial store) trace config) :
    ∃ atomic, Execution (AtomicStep program) (Atomic.initial store) trace atomic ∧
      Serial program config atomic := by
  apply execution.simulated (Serial program)
  · exact ⟨fun thread activity here => by simp [Config.initial] at here, exclusive_initial store,
      fun _ _ => rfl, fun _ => .idle⟩
  · intro config atomic label next serial step
    exact serial.step offered step

end TwoPhase

end XyronOS.Locking
