import Mathlib.Data.List.Basic

/-!
# Interleaving machines

A machine describes threads that share one memory.  A thread belongs to a job,
takes atomic steps, may start detached routines, and finally leaves a result.
A routine is a single atomic action that runs at any later moment.  Events are
memory changes that no thread causes, such as the passing of time.

The scheduler is explicit: a `Choice` names what happens next, so a run is a
list of choices and every interleaving is one such list.
-/

namespace CloudRunSsh.Concurrency

/-- What one atomic step of a thread did. -/
inductive Next (Mem Local Routine Result : Type) where
  | continue (mem : Mem) (state : Local)
  | spawn (routine : Routine) (state : Local)
  | finish (result : Result)

/-- Threads of kind `Job`, with local states `Local`, over a shared memory. -/
structure Machine (Mem Job Local Routine Result Event : Type) where
  start : Job → Local
  next : Job → Local → Mem → Next Mem Local Routine Result
  fire : Routine → Mem → Mem
  elapse : Event → Mem → Mem

/-- A running thread together with the routines it has started so far. -/
structure Thread (Job Local Routine : Type) where
  job : Job
  state : Local
  spawned : List Routine

/-- What remains of a thread that has returned. -/
structure Outcome (Job Routine Result : Type) where
  job : Job
  result : Result
  spawned : List Routine

/-- A configuration: the shared memory, the live threads, the pending routines in
the order in which they were started, and the finished threads in the order in
which they returned. -/
structure Pool (Mem Job Local Routine Result : Type) where
  mem : Mem
  threads : List (Thread Job Local Routine)
  routines : List (Job × Routine)
  finished : List (Outcome Job Routine Result)

/-- One decision of the scheduler. -/
inductive Choice (Job Event : Type) where
  | start (job : Job)
  | thread (index : Nat)
  | routine (index : Nat)
  | event (event : Event)
  deriving DecidableEq, Repr

/-- Choices that only let work already started proceed. -/
def Choice.IsWork {Job Event : Type} : Choice Job Event → Prop
  | .thread _ | .routine _ => True
  | .start _ | .event _ => False

instance {Job Event : Type} (choice : Choice Job Event) : Decidable choice.IsWork :=
  match choice with
  | .thread _ | .routine _ => .isTrue trivial
  | .start _ | .event _ => .isFalse id

variable {Mem Job Local Routine Result Event : Type}

namespace Pool

/-- A memory with nothing running on it. -/
def idle (mem : Mem) : Pool Mem Job Local Routine Result :=
  ⟨mem, [], [], []⟩

/-- The job that a choice proceeds with. -/
def author (pool : Pool Mem Job Local Routine Result) : Choice Job Event → Option Job
  | .thread index => (pool.threads[index]?).map fun thread => thread.job
  | .routine index => (pool.routines[index]?).map Prod.fst
  | .start _ | .event _ => none

/-- The jobs of the live threads and of the pending routines. -/
def jobs (pool : Pool Mem Job Local Routine Result) : List Job :=
  (pool.threads.map fun thread => thread.job) ++ pool.routines.map Prod.fst

theorem mem_jobs_of_thread {pool : Pool Mem Job Local Routine Result}
    {thread : Thread Job Local Routine} (member : thread ∈ pool.threads) :
    thread.job ∈ pool.jobs :=
  List.mem_append_left _ (List.mem_map_of_mem member)

theorem mem_jobs_of_routine {pool : Pool Mem Job Local Routine Result}
    {entry : Job × Routine} (member : entry ∈ pool.routines) : entry.1 ∈ pool.jobs :=
  List.mem_append_right _ (List.mem_map_of_mem member)

theorem mem_jobs_of_author {pool : Pool Mem Job Local Routine Result}
    {choice : Choice Job Event} {job : Job} (author : pool.author choice = some job) :
    job ∈ pool.jobs := by
  cases choice with
  | start | event => cases author
  | thread index =>
      rcases Option.map_eq_some_iff.mp author with ⟨thread, found, rfl⟩
      exact mem_jobs_of_thread (List.mem_of_getElem? found)
  | routine index =>
      rcases Option.map_eq_some_iff.mp author with ⟨entry, found, rfl⟩
      exact mem_jobs_of_routine (List.mem_of_getElem? found)

/-- The pool after the thread at `index` took the step described by the last
argument. -/
def advance (pool : Pool Mem Job Local Routine Result) (index : Nat)
    (thread : Thread Job Local Routine) :
    Next Mem Local Routine Result → Pool Mem Job Local Routine Result
  | .continue mem state =>
      { pool with
        mem
        threads := pool.threads.set index { thread with state } }
  | .spawn routine state =>
      { pool with
        threads := pool.threads.set index
          { thread with state, spawned := thread.spawned ++ [routine] }
        routines := pool.routines ++ [(thread.job, routine)] }
  | .finish result =>
      { pool with
        threads := pool.threads.eraseIdx index
        finished := pool.finished ++ [⟨thread.job, result, thread.spawned⟩] }

/-- Nothing is running and nothing is pending. -/
def Quiescent (pool : Pool Mem Job Local Routine Result) : Prop :=
  pool.threads = [] ∧ pool.routines = []

@[simp] theorem quiescent_idle (mem : Mem) :
    (idle mem : Pool Mem Job Local Routine Result).Quiescent :=
  ⟨rfl, rfl⟩

end Pool

namespace Machine

variable (machine : Machine Mem Job Local Routine Result Event)

/-- A thread that has not taken a step yet. -/
def fresh (job : Job) : Thread Job Local Routine :=
  ⟨job, machine.start job, []⟩

/-- One scheduler decision.  It fails only on an index that names nothing. -/
def step (pool : Pool Mem Job Local Routine Result) :
    Choice Job Event → Option (Pool Mem Job Local Routine Result)
  | .start job => some { pool with threads := pool.threads ++ [machine.fresh job] }
  | .thread index =>
      (pool.threads[index]?).map fun thread =>
        pool.advance index thread
          (machine.next thread.job thread.state pool.mem)
  | .routine index =>
      (pool.routines[index]?).map fun entry =>
        { pool with
          mem := machine.fire entry.2 pool.mem
          routines := pool.routines.eraseIdx index }
  | .event event => some { pool with mem := machine.elapse event pool.mem }

/-- Run a list of scheduler decisions, as long as each passes a check. -/
def run (check : Pool Mem Job Local Routine Result → Choice Job Event → Bool)
    (pool : Pool Mem Job Local Routine Result) :
    List (Choice Job Event) → Option (Pool Mem Job Local Routine Result)
  | [] => some pool
  | choice :: rest =>
      if check pool choice then
        (machine.step pool choice).bind fun next => run check next rest
      else none

/-- `target` is reached from `source` by steps that all satisfy `guard`, which
sees the pool before the step and the choice made. -/
inductive Reaches
    (guard : Pool Mem Job Local Routine Result → Choice Job Event → Prop)
    (source : Pool Mem Job Local Routine Result) :
    Pool Mem Job Local Routine Result → Prop where
  | refl : Reaches guard source source
  | tail {middle target : Pool Mem Job Local Routine Result}
      {choice : Choice Job Event} :
      Reaches guard source middle → guard middle choice →
      machine.step middle choice = some target → Reaches guard source target

variable {machine}
variable {guard weaker : Pool Mem Job Local Routine Result → Choice Job Event → Prop}
variable {source middle target : Pool Mem Job Local Routine Result}

namespace Reaches

/-- A property of pools that every guarded step keeps holds after every run. -/
theorem invariant {property : Pool Mem Job Local Routine Result → Prop}
    (reaches : machine.Reaches guard source target) (initial : property source)
    (preserved : ∀ {pool next : Pool Mem Job Local Routine Result}
      {choice : Choice Job Event}, machine.Reaches guard source pool →
      property pool → guard pool choice →
      machine.step pool choice = some next → property next) :
    property target := by
  induction reaches with
  | refl => exact initial
  | tail reached admitted stepped ih => exact preserved reached ih admitted stepped

/-- What holds throughout a run can be used by every step of it. -/
theorem strengthen {property : Pool Mem Job Local Routine Result → Prop}
    (reaches : machine.Reaches guard source target)
    (always : ∀ {pool}, machine.Reaches guard source pool → property pool) :
    machine.Reaches (fun pool choice => guard pool choice ∧ property pool) source
      target := by
  induction reaches with
  | refl => exact .refl
  | tail reached admitted stepped ih => exact ih.tail ⟨admitted, always reached⟩ stepped

theorem mono (reaches : machine.Reaches guard source target)
    (implies : ∀ pool choice, guard pool choice → weaker pool choice) :
    machine.Reaches weaker source target := by
  induction reaches with
  | refl => exact .refl
  | tail _ admitted stepped ih => exact ih.tail (implies _ _ admitted) stepped

theorem trans (first : machine.Reaches guard source middle)
    (second : machine.Reaches guard middle target) :
    machine.Reaches guard source target := by
  induction second with
  | refl => exact first
  | tail _ admitted stepped ih => exact ih.tail admitted stepped

/-- A run that begins with a given choice. -/
theorem head (choice : Choice Job Event) (admitted : guard source choice)
    (stepped : machine.step source choice = some middle)
    (rest : machine.Reaches guard middle target) : machine.Reaches guard source target :=
  (Reaches.tail .refl admitted stepped).trans rest

end Reaches

/-- A run whose decisions all pass a check is a run guarded by it. -/
theorem reaches_of_run
    {check : Pool Mem Job Local Routine Result → Choice Job Event → Bool}
    {choices : List (Choice Job Event)}
    (ran : machine.run check source choices = some target) :
    machine.Reaches (fun pool choice => check pool choice = true) source target := by
  induction choices generalizing source with
  | nil =>
      cases ran
      exact .refl
  | cons choice rest ih =>
      rw [run] at ran
      split at ran
      · rename_i passed
        rcases Option.bind_eq_some_iff.mp ran with ⟨next, stepped, ran⟩
        exact .head choice passed stepped (ih ran)
      · cases ran

/-- Every case of a successful step, with the pool it leads to. -/
theorem step_cases {choice : Choice Job Event}
    (stepped : machine.step source choice = some target) :
    (∃ job, choice = .start job ∧
      target = { source with threads := source.threads ++ [machine.fresh job] }) ∨
    (∃ index thread, choice = .thread index ∧
      source.threads[index]? = some thread ∧
      target = source.advance index thread
        (machine.next thread.job thread.state source.mem)) ∨
    (∃ index job routine, choice = .routine index ∧
      source.routines[index]? = some (job, routine) ∧
      target =
        { source with
          mem := machine.fire routine source.mem
          routines := source.routines.eraseIdx index }) ∨
    (∃ event, choice = .event event ∧
      target = { source with mem := machine.elapse event source.mem }) := by
  cases choice with
  | start job => exact .inl ⟨job, rfl, (Option.some.inj stepped).symm⟩
  | thread index =>
      obtain ⟨thread, found, rfl⟩ := Option.map_eq_some_iff.mp stepped
      exact .inr (.inl ⟨index, thread, rfl, found, rfl⟩)
  | routine index =>
      obtain ⟨⟨job, routine⟩, found, rfl⟩ := Option.map_eq_some_iff.mp stepped
      exact .inr (.inr (.inl ⟨index, job, routine, rfl, found, rfl⟩))
  | event event =>
      exact .inr (.inr (.inr ⟨event, rfl, (Option.some.inj stepped).symm⟩))

end Machine

end CloudRunSsh.Concurrency
