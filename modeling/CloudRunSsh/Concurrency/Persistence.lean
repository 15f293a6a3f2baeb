import CloudRunSsh.Concurrency.Program

/-!
# What nothing takes back

Where every step leads up in an order of the memories, a thread can rely on what it has found or
done itself, whatever the others do.  So an assertion about each local state of a thread, and one
about what it leaves behind, only have to be checked for its own steps.
-/

namespace CloudRunSsh.Concurrency

variable {Mem Job Local Routine Result Event : Type}

/-- Assertions about the local states and the results of threads that hold on as the memory goes
up, which the admitted steps establish. -/
structure Pledge (machine : Machine Mem Job Local Routine Result Event)
    (guard : Pool Mem Job Local Routine Result → Choice Job Event → Prop)
    (le : Mem → Mem → Prop) where
  thread : Job → Local → Mem → Prop
  result : Job → Result → Mem → Prop
  start : ∀ {pool job}, guard pool (.start job) → thread job (machine.start job) pool.mem
  /-- A step leads up, and to a state whose assertion holds. -/
  next : ∀ {pool index running}, guard pool (.thread index) →
    pool.threads[index]? = some running → thread running.job running.state pool.mem →
    match machine.next running.job running.state pool.mem with
    | .continue mem state => le pool.mem mem ∧ thread running.job state mem
    | .spawn _ state => thread running.job state pool.mem
    | .finish found => result running.job found pool.mem
  fire : ∀ {pool index entry}, guard pool (.routine index) →
    pool.routines[index]? = some entry → le pool.mem (machine.fire entry.2 pool.mem)
  elapse : ∀ event mem, le mem (machine.elapse event mem)
  keepsThread : ∀ {job state mem mem'}, le mem mem' → thread job state mem → thread job state mem'
  keepsResult : ∀ {job found mem mem'}, le mem mem' → result job found mem → result job found mem'

namespace Pledge

variable {machine : Machine Mem Job Local Routine Result Event}
variable {guard : Pool Mem Job Local Routine Result → Choice Job Event → Prop}
variable {le : Mem → Mem → Prop} (pledge : Pledge machine guard le)

/-- Every assertion holds of the configuration. -/
structure Holds (pool : Pool Mem Job Local Routine Result) : Prop where
  thread : ∀ thread ∈ pool.threads, pledge.thread thread.job thread.state pool.mem
  result : ∀ outcome ∈ pool.finished, pledge.result outcome.job outcome.result pool.mem

variable {pledge}
variable {source target : Pool Mem Job Local Routine Result}

theorem holds_idle (mem : Mem) : pledge.Holds (Pool.idle mem) :=
  ⟨List.forall_mem_nil _, List.forall_mem_nil _⟩

/-- What holds of the threads and the results still does on a memory above. -/
theorem Holds.mono (holds : pledge.Holds source) {mem : Mem} (above : le source.mem mem) :
    pledge.Holds { source with mem } :=
  ⟨fun thread member => pledge.keepsThread above (holds.thread thread member),
    fun outcome member => pledge.keepsResult above (holds.result outcome member)⟩

theorem Holds.step {choice : Choice Job Event} (holds : pledge.Holds source)
    (admitted : guard source choice) (stepped : machine.step source choice = some target) :
    pledge.Holds target := by
  obtain ⟨job, rfl, rfl⟩ | ⟨index, thread, rfl, found, rfl⟩ |
    ⟨index, job, routine, rfl, found, rfl⟩ | ⟨event, rfl, rfl⟩ :=
    Machine.step_cases stepped
  · refine ⟨fun thread member => ?_, holds.result⟩
    rcases List.mem_append.mp member with old | new
    · exact holds.thread thread old
    · rw [List.mem_singleton.mp new]
      have started := pledge.start admitted
      exact started
  · have own := pledge.next admitted found (holds.thread thread (List.mem_of_getElem? found))
    cases next : machine.next thread.job thread.state source.mem with
    | «continue» mem state =>
        rw [next] at own
        have above := holds.mono own.1
        refine ⟨fun other member => ?_, above.result⟩
        rcases List.mem_or_eq_of_mem_set member with old | rfl
        · exact above.thread other old
        · exact own.2
    | spawn routine state =>
        rw [next] at own
        refine ⟨fun other member => ?_, holds.result⟩
        rcases List.mem_or_eq_of_mem_set member with old | rfl
        · exact holds.thread other old
        · exact own
    | finish found =>
        rw [next] at own
        refine ⟨fun other member => holds.thread other (List.mem_of_mem_eraseIdx member), ?_⟩
        intro outcome member
        rcases List.mem_append.mp member with old | new
        · exact holds.result outcome old
        · rw [List.mem_singleton.mp new]
          exact own
  · have above := holds.mono (pledge.fire admitted found)
    exact ⟨above.thread, above.result⟩
  · exact holds.mono (pledge.elapse event source.mem)

/-- A step leads up, or leaves the memory as it is. -/
theorem Holds.above {choice : Choice Job Event} (holds : pledge.Holds source)
    (admitted : guard source choice) (stepped : machine.step source choice = some target) :
    le source.mem target.mem ∨ target.mem = source.mem := by
  obtain ⟨job, rfl, rfl⟩ | ⟨index, thread, rfl, found, rfl⟩ |
    ⟨index, job, routine, rfl, found, rfl⟩ | ⟨event, rfl, rfl⟩ :=
    Machine.step_cases stepped
  · exact .inr rfl
  · have own := pledge.next admitted found (holds.thread thread (List.mem_of_getElem? found))
    cases next : machine.next thread.job thread.state source.mem with
    | «continue» mem state =>
        rw [next] at own
        exact .inl own.1
    | spawn routine state => exact .inr rfl
    | finish result => exact .inr rfl
  · exact .inl (pledge.fire admitted found)
  · exact .inl (pledge.elapse event source.mem)

/-- The assertions hold in every configuration of a run. -/
theorem Holds.reaches (holds : pledge.Holds source)
    (reaches : machine.Reaches guard source target) : pledge.Holds target :=
  reaches.invariant holds fun _ holds admitted stepped => holds.step admitted stepped

/-- What holds of a memory and of all above it holds in the rest of a run. -/
theorem Holds.keeps (holds : pledge.Holds source) (fact : Mem → Prop)
    (kept : ∀ {mem mem'}, le mem mem' → fact mem → fact mem') (initial : fact source.mem)
    (reaches : machine.Reaches guard source target) : fact target.mem := by
  apply reaches.invariant initial
  intro _ _ _ reached before admitted stepped
  rcases (holds.reaches reached).above admitted stepped with up | same
  · exact kept up before
  · rwa [same]

end Pledge

/-- A thread that has returned stays among those that have. -/
theorem Machine.Reaches.mem_finished {machine : Machine Mem Job Local Routine Result Event}
    {guard : Pool Mem Job Local Routine Result → Choice Job Event → Prop}
    {source target : Pool Mem Job Local Routine Result}
    (reaches : machine.Reaches guard source target)
    {outcome : Outcome Job Routine Result} (member : outcome ∈ source.finished) :
    outcome ∈ target.finished := by
  induction reaches with
  | refl => exact member
  | @tail middle _ _ _ _ stepped kept =>
      obtain ⟨job, rfl, rfl⟩ | ⟨index, thread, rfl, found, rfl⟩ |
        ⟨index, job, routine, rfl, found, rfl⟩ | ⟨event, rfl, rfl⟩ :=
        Machine.step_cases stepped
      · exact kept
      · cases machine.next thread.job thread.state middle.mem with
        | «continue» | spawn => exact kept
        | finish result => exact List.mem_append_left _ kept
      · exact kept
      · exact kept

/-- The jobs that were started: those of the live threads, and of those that have returned. -/
def Pool.requests (pool : Pool Mem Job Local Routine Result) : List Job :=
  (pool.threads.map fun thread => thread.job) ++ pool.finished.map fun outcome => outcome.job

namespace Machine

variable {machine : Machine Mem Job Local Routine Result Event}
variable {guard : Pool Mem Job Local Routine Result → Choice Job Event → Prop}
variable {source target : Pool Mem Job Local Routine Result} {job : Job}

theorem mem_requests_advance {index : Nat} {thread : Thread Job Local Routine}
    (found : source.threads[index]? = some thread) (next : Next Mem Local Routine Result)
    (asked : job ∈ source.requests) : job ∈ (source.advance index thread next).requests := by
  rcases List.mem_append.mp asked with running | returned
  · obtain ⟨other, member, rfl⟩ := List.mem_map.mp running
    obtain ⟨position, here⟩ := List.mem_iff_getElem?.mp member
    have set (moved : Thread Job Local Routine) (same : moved.job = thread.job) :
        other.job ∈ (source.threads.set index moved).map fun thread => thread.job := by
      rw [List.map_set, same, ← List.map_set]
      by_cases own : position = index
      · subst own
        obtain rfl := Option.some.inj (here.symm.trans found)
        exact List.mem_map_of_mem (List.mem_set (List.getElem?_eq_some_iff.mp found).1 other)
      · refine List.mem_map_of_mem (List.mem_iff_getElem?.mpr ⟨position, ?_⟩)
        rw [List.getElem?_set_ne (Ne.symm own), here]
    cases next with
    | «continue» mem state => exact List.mem_append_left _ (set _ rfl)
    | spawn routine state => exact List.mem_append_left _ (set _ rfl)
    | finish result =>
        by_cases own : position = index
        · subst own
          obtain rfl := Option.some.inj (here.symm.trans found)
          refine List.mem_append_right _ ?_
          rw [Pool.advance, List.map_append]
          exact List.mem_append_right _ List.mem_cons_self
        · refine List.mem_append_left _ (List.mem_map_of_mem ?_)
          exact List.mem_eraseIdx_iff_getElem?.mpr ⟨position, own, here⟩
  · refine List.mem_append_right _ ?_
    cases next with
    | «continue» | spawn => exact returned
    | finish result =>
        rw [Pool.advance, List.map_append]
        exact List.mem_append_left _ returned

/-- A step forgets no job, and starts the one it chooses. -/
theorem mem_requests_step {choice : Choice Job Event}
    (stepped : machine.step source choice = some target)
    (asked : job ∈ source.requests ∨ choice = .start job) : job ∈ target.requests := by
  obtain ⟨started, rfl, rfl⟩ | ⟨index, thread, rfl, found, rfl⟩ |
    ⟨index, author, routine, rfl, found, rfl⟩ | ⟨event, rfl, rfl⟩ :=
    Machine.step_cases stepped
  · rw [Pool.requests, List.map_append, List.append_assoc]
    rcases asked with before | started
    · rcases List.mem_append.mp before with running | returned
      · exact List.mem_append_left _ running
      · exact List.mem_append_right _ (List.mem_append_right _ returned)
    · cases started
      exact List.mem_append_right _ (List.mem_append_left _ List.mem_cons_self)
  · exact mem_requests_advance found _ (asked.resolve_right nofun)
  · exact asked.resolve_right nofun
  · exact asked.resolve_right nofun

/-- Every job that a run starts is among those of the configuration it leads to. -/
theorem Reaches.requested (reaches : machine.Reaches guard source target) :
    machine.Reaches (fun pool choice => guard pool choice ∧
      ∀ job, choice = .start job → job ∈ target.requests) source target := by
  induction reaches with
  | refl => exact .refl
  | tail reached admitted stepped ih =>
      refine .tail (ih.mono fun pool choice both => ⟨both.1, fun job started => ?_⟩)
        ⟨admitted, fun job started => mem_requests_step stepped (.inr started)⟩ stepped
      exact mem_requests_step stepped (.inl (both.2 job started))

end Machine

namespace Program

variable {interface : Interface} {Value : Type} (execute : Execution interface Mem)
variable (admitted : Mem → Prop)

/-- However the program ends while others change the memory, if every operation is performed on
some memory that is admitted. -/
def Amid (post : Value → Prop) : Program interface Value → Prop
  | .pure value => post value
  | .op operation rest =>
      ∀ mem, admitted mem → (rest (execute operation mem).1).Amid post
  | .go _ rest => rest.Amid post
  | .panic => False

variable {execute admitted} {post : Value → Prop}

/-- Fewer memories, fewer ways to end. -/
theorem Amid.mono {program : Program interface Value} {fewer : Mem → Prop}
    (amid : program.Amid execute admitted post) (implies : ∀ mem, fewer mem → admitted mem) :
    program.Amid execute fewer post := by
  induction program with
  | pure value => exact amid
  | op operation next ih => exact fun mem fits => ih _ (amid mem (implies mem fits))
  | go operation next ih => exact ih amid
  | panic => exact amid.elim

end Program

end CloudRunSsh.Concurrency
