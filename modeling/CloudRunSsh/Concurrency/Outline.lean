import CloudRunSsh.Concurrency.Machine

/-!
# Proof outlines for interleaving machines

An outline annotates a machine with one assertion about the shared memory, one
for every local state of a thread, and one for every pending routine.  It is
valid when each step establishes the assertion of the state it leads to and does
not invalidate the assertions of the others.  A valid outline holds in every
configuration of a guarded run.
-/

namespace CloudRunSsh.Concurrency

variable {Mem Job Local Routine Result Event : Type}

/-- Assertions for the memory, for a thread in some local state, and for a
pending routine. -/
structure Outline (Mem Job Local Routine : Type) where
  memory : Mem → Prop
  thread : Job → Local → Mem → Prop
  routine : Job → Routine → Mem → Prop

namespace Outline

variable (outline : Outline Mem Job Local Routine)

/-- Every assertion holds of the configuration. -/
structure Holds (pool : Pool Mem Job Local Routine Result) : Prop where
  memory : outline.memory pool.mem
  thread : ∀ thread ∈ pool.threads,
    outline.thread thread.job thread.state pool.mem
  routine : ∀ entry ∈ pool.routines, outline.routine entry.1 entry.2 pool.mem

theorem holds_idle {mem : Mem} (initial : outline.memory mem) :
    outline.Holds (Pool.idle mem : Pool Mem Job Local Routine Result) :=
  ⟨initial, by simp [Pool.idle], by simp [Pool.idle]⟩

/-- The assertions of the threads other than the one at `index` survive a change
of the memory to `mem`. -/
def SparesThreads (pool : Pool Mem Job Local Routine Result) (index : Nat)
    (mem : Mem) : Prop :=
  ∀ other thread, other ≠ index → pool.threads[other]? = some thread →
    outline.thread thread.job thread.state pool.mem →
    outline.thread thread.job thread.state mem

/-- The assertions of the pending routines survive a change of the memory to
`mem`. -/
def SparesRoutines (pool : Pool Mem Job Local Routine Result) (mem : Mem) : Prop :=
  ∀ entry ∈ pool.routines, outline.routine entry.1 entry.2 pool.mem →
    outline.routine entry.1 entry.2 mem

/-- What the step of one thread has to establish. -/
def Establishes (pool : Pool Mem Job Local Routine Result) (index : Nat)
    (job : Job) : Next Mem Local Routine Result → Prop
  | .continue mem state =>
      outline.memory mem ∧ outline.thread job state mem ∧
        outline.SparesThreads pool index mem ∧ outline.SparesRoutines pool mem
  | .spawn routine state =>
      outline.thread job state pool.mem ∧ outline.routine job routine pool.mem
  | .finish _ => True

/-- The proof obligations of an outline under a guard on the steps. -/
structure Valid (machine : Machine Mem Job Local Routine Result Event)
    (guard : Pool Mem Job Local Routine Result → Choice Job Event → Prop) :
    Prop where
  start : ∀ pool job, outline.Holds pool → guard pool (.start job) →
    outline.thread job (machine.start job) pool.mem
  next : ∀ {pool index thread}, outline.Holds pool → guard pool (.thread index) →
    pool.threads[index]? = some thread →
    outline.Establishes pool index thread.job
      (machine.next thread.job thread.state pool.mem)
  fire : ∀ {pool index job routine}, outline.Holds pool →
    guard pool (.routine index) →
    pool.routines[index]? = some (job, routine) →
    outline.memory (machine.fire routine pool.mem) ∧
      (∀ thread ∈ pool.threads,
        outline.thread thread.job thread.state (machine.fire routine pool.mem)) ∧
      (∀ entry ∈ pool.routines.eraseIdx index,
        outline.routine entry.1 entry.2 (machine.fire routine pool.mem))
  elapse : ∀ {pool event}, outline.Holds pool → guard pool (.event event) →
    outline.Holds { pool with mem := machine.elapse event pool.mem }

variable {outline}
variable {machine : Machine Mem Job Local Routine Result Event}
variable {guard : Pool Mem Job Local Routine Result → Choice Job Event → Prop}
variable {source target : Pool Mem Job Local Routine Result}

/-- The thread at `index` replaced by one whose assertion holds, every other
thread spared. -/
theorem thread_of_mem_set {index : Nat} {mem : Mem}
    {replacement : Thread Job Local Routine}
    (holds : outline.Holds source)
    (established : outline.thread replacement.job replacement.state mem)
    (spared : outline.SparesThreads source index mem) :
    ∀ thread ∈ source.threads.set index replacement,
      outline.thread thread.job thread.state mem := by
  intro thread member
  obtain ⟨other, found⟩ := List.mem_iff_getElem?.mp member
  by_cases same : other = index
  · subst same
    rw [List.getElem?_set_self'] at found
    obtain ⟨_, _, rfl⟩ := Option.map_eq_some_iff.mp found
    exact established
  · rw [List.getElem?_set_ne (Ne.symm same)] at found
    exact spared other thread same found
      (holds.thread thread (List.mem_of_getElem? found))

/-- One step of a valid outline. -/
theorem Valid.step {choice : Choice Job Event} (valid : outline.Valid machine guard)
    (holds : outline.Holds source) (admitted : guard source choice)
    (stepped : machine.step source choice = some target) :
    outline.Holds target := by
  obtain ⟨job, rfl, rfl⟩ | ⟨index, thread, rfl, found, rfl⟩ |
    ⟨index, job, routine, rfl, found, rfl⟩ | ⟨event, rfl, rfl⟩ :=
    Machine.step_cases stepped
  · refine ⟨holds.memory, ?_, holds.routine⟩
    intro thread member
    rcases List.mem_append.mp member with old | new
    · exact holds.thread thread old
    · rw [List.mem_singleton.mp new]
      exact valid.start source job holds admitted
  · have establishes := valid.next holds admitted found
    cases next : machine.next thread.job thread.state source.mem with
    | «continue» mem state =>
        rw [next] at establishes
        obtain ⟨memory, established, threads, routines⟩ := establishes
        exact ⟨memory, thread_of_mem_set holds established threads,
          fun entry member => routines entry member (holds.routine entry member)⟩
    | spawn routine state =>
        rw [next] at establishes
        obtain ⟨established, started⟩ := establishes
        refine ⟨holds.memory,
          thread_of_mem_set holds established fun _ _ _ _ kept => kept, ?_⟩
        intro entry member
        rcases List.mem_append.mp member with old | new
        · exact holds.routine entry old
        · rw [List.mem_singleton.mp new]
          exact started
    | finish result =>
        exact ⟨holds.memory,
          fun thread member => holds.thread thread (List.mem_of_mem_eraseIdx member),
          holds.routine⟩
  · obtain ⟨memory, threads, routines⟩ := valid.fire holds admitted found
    exact ⟨memory, threads, routines⟩
  · exact valid.elapse holds admitted

/-- A valid outline holds after every guarded run that starts where it holds. -/
theorem Valid.reaches (valid : outline.Valid machine guard)
    (reaches : machine.Reaches guard source target) (holds : outline.Holds source) :
    outline.Holds target :=
  reaches.invariant holds fun _ holds admitted stepped =>
    valid.step holds admitted stepped

end Outline

end CloudRunSsh.Concurrency
