import CloudRunSsh.Concurrency.Program

/-!
# Programs that panic

A panic ends a thread without a value.  When every job either panics before it does
anything or cannot panic at all, the finished threads without a value are exactly those
of the jobs of the first kind, whatever the interleaving.
-/

namespace CloudRunSsh.Concurrency

namespace Program

variable {interface : Interface} {Value Value' Mem Job Event : Type}

/-- Whatever the answers, the program does not panic. -/
def PanicFree : Program interface Value → Prop
  | .pure _ => True
  | .op _ rest => ∀ answer, (rest answer).PanicFree
  | .go _ rest => rest.PanicFree
  | .panic => False

theorem PanicFree.bind {program : Program interface Value}
    {rest : Value → Program interface Value'} (free : program.PanicFree)
    (after : ∀ value, (rest value).PanicFree) : (program.bind rest).PanicFree := by
  induction program with
  | pure value => exact after value
  | op operation next ih =>
      intro answer
      exact ih answer (free answer)
  | go operation next ih => exact ih free
  | panic => exact free.elim

/-- The program panics at once under the condition, and not at all otherwise. -/
structure PanicsIff (condition : Prop) (program : Program interface Value) : Prop where
  panics : condition → program = .panic
  free : ¬condition → program.PanicFree

theorem PanicsIff.bind {condition : Prop} {program : Program interface Value}
    {rest : Value → Program interface Value'} (panicsIff : PanicsIff condition program)
    (after : ∀ value, (rest value).PanicFree) :
    PanicsIff condition (program.bind rest) := by
  constructor
  · intro holds
    rw [panicsIff.panics holds]
    rfl
  · intro fails
    exact (panicsIff.free fails).bind after

theorem PanicFree.panicsIff {condition : Prop} {program : Program interface Value}
    (free : program.PanicFree) (never : ¬condition) : PanicsIff condition program :=
  ⟨fun holds => absurd holds never, fun _ => free⟩

/-- Mapping the value of a program changes nothing else about its evaluation. -/
theorem eval_map (execute : Execution interface Mem) (program : Program interface Value)
    (image : Value → Value') (mem : Mem) :
    (program.bind fun value => .pure (image value)).eval execute mem =
      ((program.eval execute mem).1.map image, (program.eval execute mem).2) := by
  induction program generalizing mem with
  | pure value => rfl
  | op operation next ih => exact ih _ _
  | go operation next ih => exact ih _
  | panic => rfl

variable {execute : Execution interface Mem} {program : Job → Program interface Value}
variable {elapse : Event → Mem → Mem}
variable {guard : Pool Mem Job (Program interface Value) interface.Op (Option Value) →
  Choice Job Event → Prop}

/-- What the threads may still do and how the finished ones ended. -/
structure PanicsAsJob (condition : Job → Prop)
    (pool : Pool Mem Job (Program interface Value) interface.Op (Option Value)) :
    Prop where
  thread : ∀ thread ∈ pool.threads, PanicsIff (condition thread.job) thread.state
  finished : ∀ outcome ∈ pool.finished, outcome.result = none ↔ condition outcome.job

/-- A thread that goes on with `state` may panic as before. -/
theorem PanicsAsJob.set {condition : Job → Prop}
    {pool : Pool Mem Job (Program interface Value) interface.Op (Option Value)}
    (holds : PanicsAsJob condition pool) {index : Nat}
    {moved : Thread Job (Program interface Value) interface.Op}
    (panicsIff : PanicsIff (condition moved.job) moved.state) :
    ∀ thread ∈ pool.threads.set index moved,
      PanicsIff (condition thread.job) thread.state := by
  intro thread member
  rcases List.mem_or_eq_of_mem_set member with old | rfl
  · exact holds.thread thread old
  · exact panicsIff

theorem PanicsAsJob.finish {condition : Job → Prop}
    {pool : Pool Mem Job (Program interface Value) interface.Op (Option Value)}
    (holds : PanicsAsJob condition pool)
    {ended : Outcome Job interface.Op (Option Value)}
    (result : ended.result = none ↔ condition ended.job) :
    ∀ outcome ∈ pool.finished ++ [ended],
      outcome.result = none ↔ condition outcome.job := by
  intro outcome member
  rcases List.mem_append.mp member with old | new
  · exact holds.finished outcome old
  · rw [List.mem_singleton.mp new]
    exact result

/-- One step of a thread keeps the account. -/
theorem PanicsAsJob.advance {condition : Job → Prop}
    {pool : Pool Mem Job (Program interface Value) interface.Op (Option Value)}
    (holds : PanicsAsJob condition pool) {index : Nat}
    {thread : Thread Job (Program interface Value) interface.Op}
    (found : pool.threads[index]? = some thread) :
    PanicsAsJob condition (pool.advance index thread
      ((machine execute program elapse).next thread.job thread.state pool.mem)) := by
  have own := holds.thread thread (List.mem_of_getElem? found)
  have others : ∀ other ∈ pool.threads.eraseIdx index,
      PanicsIff (condition other.job) other.state :=
    fun other member => holds.thread other (List.mem_of_mem_eraseIdx member)
  cases state : thread.state with
  | pure value =>
      refine ⟨others, holds.finish ?_⟩
      constructor
      · nofun
      · intro panics
        cases state.symm.trans (own.panics panics)
  | op operation rest =>
      refine ⟨holds.set ?_, holds.finished⟩
      constructor
      · intro panics
        cases state.symm.trans (own.panics panics)
      · intro spared
        have free := own.free spared
        rw [state] at free
        exact free _
  | go operation rest =>
      refine ⟨holds.set ?_, holds.finished⟩
      constructor
      · intro panics
        cases state.symm.trans (own.panics panics)
      · intro spared
        have free := own.free spared
        rw [state] at free
        exact free
  | panic =>
      refine ⟨others, holds.finish ?_⟩
      constructor
      · intro _
        by_contra spared
        have free := own.free spared
        rw [state] at free
        exact free
      · intro _
        rfl

/-- In every run the finished threads without a value are those of the jobs that
panic. -/
theorem panicked_iff_of_reaches {condition : Job → Prop}
    (panicsIff : ∀ job, PanicsIff (condition job) (program job)) {mem : Mem}
    {pool : Pool Mem Job (Program interface Value) interface.Op (Option Value)}
    (reaches : (machine execute program elapse).Reaches guard (Pool.idle mem) pool)
    {outcome : Outcome Job interface.Op (Option Value)}
    (member : outcome ∈ pool.finished) :
    outcome.result = none ↔ condition outcome.job := by
  have always : PanicsAsJob condition pool := by
    refine reaches.invariant ⟨?_, ?_⟩ ?_
    · intro thread running
      exact absurd running List.not_mem_nil
    · intro ended finished
      exact absurd finished List.not_mem_nil
    · intro source target choice _ holds _ stepped
      obtain ⟨job, rfl, rfl⟩ | ⟨index, thread, rfl, found, rfl⟩ |
        ⟨index, job, routine, rfl, found, rfl⟩ | ⟨event, rfl, rfl⟩ :=
        Machine.step_cases stepped
      · refine ⟨?_, holds.finished⟩
        intro thread running
        rcases List.mem_append.mp running with old | new
        · exact holds.thread thread old
        · rw [List.mem_singleton.mp new]
          exact panicsIff job
      · exact holds.advance found
      · exact ⟨holds.thread, holds.finished⟩
      · exact ⟨holds.thread, holds.finished⟩
  exact always.finished outcome member

/-- A job that panics does so when it runs. -/
theorem reaches_panicked {job : Job} (panics : program job = .panic) (mem : Mem) :
    (machine execute program elapse).Reaches (fun _ _ => True) (Pool.idle mem)
      ⟨mem, [], [], [⟨job, none, []⟩]⟩ := by
  have started : (machine execute program elapse).step (Pool.idle mem) (.start job) =
      some ⟨mem, [⟨job, .panic, []⟩], [], []⟩ := by
    rw [← panics]
    rfl
  apply Machine.Reaches.head (.start job) trivial started
  exact Machine.Reaches.head (.thread 0) trivial rfl .refl

end Program

end CloudRunSsh.Concurrency
