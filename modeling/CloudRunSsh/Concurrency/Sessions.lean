import CloudRunSsh.Concurrency.Machine

/-!
# Sessions

Jobs with the same owner form a session.  When no session ever has two threads at the
same time, a configuration is a family of sessions over one memory.  An assertion about
each session holds throughout a run if the thread and the routines of the session keep
it, and those of the other sessions do not disturb it.
-/

namespace CloudRunSsh.Concurrency

variable {Mem Job Local Routine Result Event Key : Type}

/-- What a configuration holds of one session. -/
structure Session (Job Local Routine Result : Type) where
  threads : List (Thread Job Local Routine)
  routines : List (Job × Routine)
  finished : List (Outcome Job Routine Result)

/-- The routines that a session has started, in that order. -/
def Session.started (session : Session Job Local Routine Result) : List Routine :=
  (session.finished.flatMap fun outcome => outcome.spawned) ++
    session.threads.flatMap fun thread => thread.spawned

section Split

variable {α : Type}

/-- A list around one of its elements, and what replacing or erasing it leads to. -/
theorem exists_split {list : List α} {index : Nat} {element : α}
    (found : list[index]? = some element) :
    ∃ before after, list = before ++ element :: after ∧
      (∀ other, list.set index other = before ++ other :: after) ∧
      list.eraseIdx index = before ++ after := by
  rcases List.getElem?_eq_some_iff.mp found with ⟨bound, rfl⟩
  refine ⟨list.take index, list.drop (index + 1), ?_, ?_, ?_⟩
  · rw [List.getElem_cons_drop bound, List.take_append_drop]
  · intro other
    rw [List.set_eq_take_append_cons_drop, if_pos bound]
  · exact List.eraseIdx_eq_take_drop_succ list index

/-- Around the only element that a filter keeps, it keeps nothing. -/
theorem filter_around {keeps : α → Bool} {before after : List α} {element : α}
    (single : ((before ++ element :: after).filter keeps).length ≤ 1)
    (kept : keeps element = true) :
    before.filter keeps = [] ∧ after.filter keeps = [] := by
  rw [List.filter_append, List.filter_cons_of_pos kept, List.length_append,
    List.length_cons] at single
  constructor
  · apply List.eq_nil_of_length_eq_zero
    omega
  · apply List.eq_nil_of_length_eq_zero
    omega

end Split

variable [DecidableEq Key] (owner : Job → Key)

/-- The session of an owner. -/
def Pool.session (pool : Pool Mem Job Local Routine Result) (key : Key) :
    Session Job Local Routine Result where
  threads := pool.threads.filter fun thread => owner thread.job = key
  routines := pool.routines.filter fun entry => owner entry.1 = key
  finished := pool.finished.filter fun outcome => owner outcome.job = key

section Session

variable {owner} {pool : Pool Mem Job Local Routine Result} {key : Key}

/-- An owner without threads has none in its session. -/
theorem Pool.session_threads_eq_nil (none : ∀ thread ∈ pool.threads, owner thread.job ≠ key) :
    (pool.session owner key).threads = [] := by
  apply List.filter_eq_nil_iff.mpr
  intro thread member
  simpa using none thread member

theorem Pool.session_finished_eq_nil
    (none : ∀ outcome ∈ pool.finished, owner outcome.job ≠ key) :
    (pool.session owner key).finished = [] := by
  apply List.filter_eq_nil_iff.mpr
  intro outcome member
  simpa using none outcome member

/-- The threads of a session are threads of the pool. -/
theorem Pool.session_threads_subset :
    (pool.session owner key).threads ⊆ pool.threads := List.filter_subset_self _

end Session

/-- Assertions about sessions. -/
abbrev SessionAssertion (Mem Job Local Routine Result Key : Type) :=
  Key → Mem → Session Job Local Routine Result → Prop

namespace SessionAssertion

variable (assertion : SessionAssertion Mem Job Local Routine Result Key)

/-- Every session has at most one thread and satisfies its assertion. -/
structure Holds (pool : Pool Mem Job Local Routine Result) : Prop where
  single : ∀ key, (pool.session owner key).threads.length ≤ 1
  session : ∀ key, assertion key pool.mem (pool.session owner key)

/-- The assertions of the other sessions survive a change of the memory to `mem`. -/
def Spares (pool : Pool Mem Job Local Routine Result) (key : Key) (mem : Mem) : Prop :=
  ∀ other, other ≠ key → assertion other pool.mem (pool.session owner other) →
    assertion other mem (pool.session owner other)

/-- What the step of a thread has to establish. -/
def Establishes (pool : Pool Mem Job Local Routine Result)
    (thread : Thread Job Local Routine) : Next Mem Local Routine Result → Prop
  | .continue mem state =>
      assertion (owner thread.job) mem
          { pool.session owner (owner thread.job) with threads := [{ thread with state }] } ∧
        assertion.Spares owner pool (owner thread.job) mem
  | .spawn routine state =>
      assertion (owner thread.job) pool.mem
        { pool.session owner (owner thread.job) with
          threads := [{ thread with state, spawned := thread.spawned ++ [routine] }]
          routines := (pool.session owner (owner thread.job)).routines ++
            [(thread.job, routine)] }
  | .finish result =>
      assertion (owner thread.job) pool.mem
        { pool.session owner (owner thread.job) with
          threads := []
          finished := (pool.session owner (owner thread.job)).finished ++
            [⟨thread.job, result, thread.spawned⟩] }

/-- The proof obligations of an assertion under a guard on the steps. -/
structure Valid (machine : Machine Mem Job Local Routine Result Event)
    (guard : Pool Mem Job Local Routine Result → Choice Job Event → Prop) : Prop where
  start : ∀ {pool job}, assertion.Holds owner pool → guard pool (.start job) →
    (pool.session owner (owner job)).threads = [] ∧
      assertion (owner job) pool.mem
        { pool.session owner (owner job) with threads := [machine.fresh job] }
  next : ∀ {pool index thread}, assertion.Holds owner pool → guard pool (.thread index) →
    pool.threads[index]? = some thread →
    (pool.session owner (owner thread.job)).threads = [thread] →
    assertion.Establishes owner pool thread
      (machine.next thread.job thread.state pool.mem)
  fire : ∀ {pool index job routine before after}, assertion.Holds owner pool →
    guard pool (.routine index) → pool.routines[index]? = some (job, routine) →
    (pool.session owner (owner job)).routines = before ++ (job, routine) :: after →
    assertion (owner job) (machine.fire routine pool.mem)
        { pool.session owner (owner job) with routines := before ++ after } ∧
      assertion.Spares owner pool (owner job) (machine.fire routine pool.mem)
  elapse : ∀ {pool event key}, assertion.Holds owner pool → guard pool (.event event) →
    assertion key (machine.elapse event pool.mem) (pool.session owner key)

variable {owner assertion}
variable {machine : Machine Mem Job Local Routine Result Event}
variable {guard : Pool Mem Job Local Routine Result → Choice Job Event → Prop}
variable {source target : Pool Mem Job Local Routine Result}

/-- A configuration whose only change is in one session. -/
theorem Holds.update (holds : assertion.Holds owner source) (key : Key)
    (others : ∀ other, other ≠ key → target.session owner other = source.session owner other)
    (spared : assertion.Spares owner source key target.mem)
    (single : (target.session owner key).threads.length ≤ 1)
    (own : assertion key target.mem (target.session owner key)) :
    assertion.Holds owner target := by
  constructor
  · intro other
    by_cases same : other = key
    · rw [same]
      exact single
    · rw [others other same]
      exact holds.single other
  · intro other
    by_cases same : other = key
    · rw [same]
      exact own
    · rw [others other same]
      exact spared other same (holds.session other)

/-- A step of one thread. -/
theorem Valid.advance (valid : assertion.Valid owner machine guard)
    (holds : assertion.Holds owner source) {index : Nat}
    (admitted : guard source (.thread index)) {thread : Thread Job Local Routine}
    (found : source.threads[index]? = some thread) :
    assertion.Holds owner
      (source.advance index thread (machine.next thread.job thread.state source.mem)) := by
  rcases exists_split found with ⟨before, after, split, replaced, erased⟩
  have single := holds.single (owner thread.job)
  simp only [Pool.session, split] at single
  have around := filter_around single (decide_eq_true rfl)
  have alone : (source.session owner (owner thread.job)).threads = [thread] := by
    simp only [Pool.session, split, List.filter_append, around, List.filter_cons,
      decide_true, if_true, List.nil_append]
  have establishes := valid.next holds admitted found alone
  cases next : machine.next thread.job thread.state source.mem with
  | «continue» mem state =>
      rw [next] at establishes
      have session : (source.advance index thread (.continue mem state)).session owner
          (owner thread.job) =
          { source.session owner (owner thread.job) with
            threads := [{ thread with state }] } := by
        simp only [Pool.session, Pool.advance, replaced, List.filter_append, around,
          List.filter_cons, decide_true, if_true, List.nil_append]
      apply holds.update (owner thread.job)
      · intro other different
        simp only [Pool.session, Pool.advance, replaced]
        simp only [split, List.filter_append, List.filter_cons, different.symm,
          decide_false, Bool.false_eq_true, if_false]
      · exact establishes.2
      · rw [session]
        exact Nat.le_refl 1
      · rw [session]
        exact establishes.1
  | spawn routine state =>
      rw [next] at establishes
      have session : (source.advance index thread (.spawn routine state)).session owner
          (owner thread.job) =
          { source.session owner (owner thread.job) with
            threads := [{ thread with state, spawned := thread.spawned ++ [routine] }]
            routines := (source.session owner (owner thread.job)).routines ++
              [(thread.job, routine)] } := by
        simp only [Pool.session, Pool.advance, replaced, List.filter_append, around,
          List.filter_cons, decide_true, if_true, List.nil_append, List.filter_nil]
      apply holds.update (owner thread.job)
      · intro other different
        simp only [Pool.session, Pool.advance, replaced]
        simp only [split, List.filter_append, List.filter_cons, different.symm,
          decide_false, Bool.false_eq_true, if_false, List.filter_nil, List.append_nil]
      · intro other _ kept
        exact kept
      · rw [session]
        exact Nat.le_refl 1
      · rw [session]
        exact establishes
  | finish result =>
      rw [next] at establishes
      have session : (source.advance index thread (.finish result)).session owner
          (owner thread.job) =
          { source.session owner (owner thread.job) with
            threads := []
            finished := (source.session owner (owner thread.job)).finished ++
              [⟨thread.job, result, thread.spawned⟩] } := by
        simp only [Pool.session, Pool.advance, erased, List.filter_append, around,
          List.filter_cons, decide_true, if_true, List.nil_append, List.filter_nil]
      apply holds.update (owner thread.job)
      · intro other different
        simp only [Pool.session, Pool.advance, erased]
        simp only [split, List.filter_append, List.filter_cons, different.symm,
          decide_false, Bool.false_eq_true, if_false, List.filter_nil, List.append_nil]
      · intro other _ kept
        exact kept
      · rw [session]
        exact Nat.zero_le 1
      · rw [session]
        exact establishes

/-- One step keeps a valid assertion. -/
theorem Valid.step {choice : Choice Job Event} (valid : assertion.Valid owner machine guard)
    (holds : assertion.Holds owner source) (admitted : guard source choice)
    (stepped : machine.step source choice = some target) :
    assertion.Holds owner target := by
  rcases Machine.step_cases stepped with ⟨job, rfl, rfl⟩ | ⟨index, thread, rfl, found, rfl⟩ |
    ⟨index, job, routine, rfl, found, rfl⟩ | ⟨event, rfl, rfl⟩
  · rcases valid.start holds admitted with ⟨none, started⟩
    simp only [Pool.session] at none
    have session : Pool.session owner
        { source with threads := source.threads ++ [machine.fresh job] } (owner job) =
        { source.session owner (owner job) with threads := [machine.fresh job] } := by
      simp only [Pool.session, List.filter_append, none, List.nil_append,
        List.filter_cons, Machine.fresh, decide_true, if_true, List.filter_nil]
    apply holds.update (owner job)
    · intro other different
      simp only [Pool.session, List.filter_append, List.filter_cons, Machine.fresh,
        different.symm, decide_false, Bool.false_eq_true, if_false, List.filter_nil,
        List.append_nil]
    · intro other _ kept
      exact kept
    · rw [session]
      exact Nat.le_refl 1
    · rw [session]
      exact started
  · exact valid.advance holds admitted found
  · rcases exists_split found with ⟨before, after, split, _, erased⟩
    have routines : (source.session owner (owner job)).routines =
        before.filter (fun entry => owner entry.1 = owner job) ++
          (job, routine) :: after.filter fun entry => owner entry.1 = owner job := by
      simp only [Pool.session, split, List.filter_append, List.filter_cons, decide_true,
        if_true]
    have fired := valid.fire holds admitted found routines
    have session : Pool.session owner
        { source with
          mem := machine.fire routine source.mem
          routines := source.routines.eraseIdx index } (owner job) =
        { source.session owner (owner job) with
          routines := before.filter (fun entry => owner entry.1 = owner job) ++
            after.filter fun entry => owner entry.1 = owner job } := by
      simp only [Pool.session, erased, List.filter_append]
    apply holds.update (owner job)
    · intro other different
      simp only [Pool.session, erased]
      simp only [split, List.filter_append, List.filter_cons, different.symm,
        decide_false, Bool.false_eq_true, if_false]
    · exact fired.2
    · rw [session]
      exact holds.single (owner job)
    · rw [session]
      exact fired.1
  · exact ⟨holds.single, fun key => valid.elapse holds admitted⟩

/-- A valid assertion holds after every guarded run that starts where it holds. -/
theorem Valid.reaches (valid : assertion.Valid owner machine guard)
    (reaches : machine.Reaches guard source target) (holds : assertion.Holds owner source) :
    assertion.Holds owner target :=
  reaches.invariant holds fun _ holds admitted stepped => valid.step holds admitted stepped

/-- On an idle configuration all sessions are empty. -/
theorem holds_idle {mem : Mem} (initial : ∀ key, assertion key mem ⟨[], [], []⟩) :
    assertion.Holds owner (Pool.idle mem) :=
  ⟨fun _ => Nat.zero_le 1, initial⟩

end SessionAssertion

end CloudRunSsh.Concurrency
