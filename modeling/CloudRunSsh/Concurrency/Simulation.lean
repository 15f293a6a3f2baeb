import Mathlib.Data.List.InsertIdx
import CloudRunSsh.Concurrency.Machine

/-!
# Refinement between interleaving machines

A concrete machine refines an abstract one when every abstract local state and
every abstract routine denotes a concrete one, the memories are related, and the
two machines take the same steps.  Every concrete run is then matched, choice by
choice, by an abstract run.
-/

namespace CloudRunSsh.Concurrency

variable {Mem Local Routine Mem' Local' Routine' Job Result Event : Type}

/-- The concrete step agrees with the abstract one. -/
def Next.Matches (related : Mem → Mem' → Prop) (state : Local' → Local)
    (routine : Routine' → Routine) (next : Next Mem Local Routine Result) :
    Next Mem' Local' Routine' Result → Prop
  | .continue mem' state' => ∃ mem, next = .continue mem (state state') ∧ related mem mem'
  | .spawn routine' state' => next = .spawn (routine routine') (state state')
  | .finish result => next = .finish result

/-- A refinement of `abstract` by `concrete`. -/
structure Simulation (concrete : Machine Mem Job Local Routine Result Event)
    (abstract : Machine Mem' Job Local' Routine' Result Event) where
  related : Mem → Mem' → Prop
  state : Job → Local' → Local
  routine : Routine' → Routine
  start : ∀ job, concrete.start job = state job (abstract.start job)
  next : ∀ {mem mem'} job state', related mem mem' →
    (concrete.next job (state job state') mem).Matches related (state job) routine
      (abstract.next job state' mem')
  fire : ∀ {mem mem'} routine', related mem mem' →
    related (concrete.fire (routine routine') mem) (abstract.fire routine' mem')
  elapse : ∀ {mem mem'} event, related mem mem' →
    related (concrete.elapse event mem) (abstract.elapse event mem')

namespace Simulation

variable {concrete : Machine Mem Job Local Routine Result Event}
variable {abstract : Machine Mem' Job Local' Routine' Result Event}
variable (simulation : Simulation concrete abstract)

/-- The concrete thread that an abstract one denotes. -/
def thread (thread : Thread Job Local' Routine') : Thread Job Local Routine :=
  ⟨thread.job, simulation.state thread.job thread.state,
    thread.spawned.map simulation.routine⟩

/-- The concrete pending routine that an abstract one denotes. -/
def entry (entry : Job × Routine') : Job × Routine :=
  (entry.1, simulation.routine entry.2)

/-- The concrete outcome that an abstract one denotes. -/
def outcome (outcome : Outcome Job Routine' Result) : Outcome Job Routine Result :=
  ⟨outcome.job, outcome.result, outcome.spawned.map simulation.routine⟩

/-- Two configurations agree: related memories, and everything else is what the
abstract configuration denotes. -/
structure Relates (pool : Pool Mem Job Local Routine Result)
    (pool' : Pool Mem' Job Local' Routine' Result) : Prop where
  mem : simulation.related pool.mem pool'.mem
  threads : pool.threads = pool'.threads.map simulation.thread
  routines : pool.routines = pool'.routines.map simulation.entry
  finished : pool.finished = pool'.finished.map simulation.outcome

variable {simulation}
variable {source target : Pool Mem Job Local Routine Result}
variable {source' target' : Pool Mem' Job Local' Routine' Result}

theorem relates_idle {mem : Mem} {mem' : Mem'} (related : simulation.related mem mem') :
    simulation.Relates (Pool.idle mem) (Pool.idle mem') :=
  ⟨related, rfl, rfl, rfl⟩

theorem Relates.quiescent (relates : simulation.Relates source source') :
    source.Quiescent ↔ source'.Quiescent := by
  simp only [Pool.Quiescent, relates.threads, relates.routines, List.map_eq_nil_iff]

/-- The abstract thread at an index denotes the concrete one. -/
theorem Relates.getElem?_threads (relates : simulation.Relates source source')
    {index : Nat} {thread' : Thread Job Local' Routine'}
    (found : source'.threads[index]? = some thread') :
    source.threads[index]? = some (simulation.thread thread') := by
  rw [relates.threads, List.getElem?_map, found, Option.map_some]

/-- An abstract thread denotes a concrete one. -/
theorem Relates.mem_threads (relates : simulation.Relates source source')
    {thread' : Thread Job Local' Routine'} (member : thread' ∈ source'.threads) :
    simulation.thread thread' ∈ source.threads := by
  rw [relates.threads]
  exact List.mem_map_of_mem member

/-- An abstract pending routine denotes a concrete one. -/
theorem Relates.mem_routines (relates : simulation.Relates source source')
    {entry' : Job × Routine'} (member : entry' ∈ source'.routines) :
    simulation.entry entry' ∈ source.routines := by
  rw [relates.routines]
  exact List.mem_map_of_mem member

/-- Related configurations proceed with the same jobs. -/
theorem Relates.author (relates : simulation.Relates source source')
    (choice : Choice Job Event) : source.author choice = source'.author choice := by
  cases choice with
  | start | event => rfl
  | thread index =>
      simp only [Pool.author, relates.threads, List.getElem?_map, Option.map_map]
      rfl
  | routine index =>
      simp only [Pool.author, relates.routines, List.getElem?_map, Option.map_map]
      rfl

/-- The concrete thread at an index is denoted by an abstract one. -/
theorem Relates.thread_at (relates : simulation.Relates source source')
    {index : Nat} {thread : Thread Job Local Routine}
    (found : source.threads[index]? = some thread) :
    ∃ thread', source'.threads[index]? = some thread' ∧
      simulation.thread thread' = thread := by
  rw [relates.threads, List.getElem?_map] at found
  exact Option.map_eq_some_iff.mp found

/-- The concrete routine at an index is denoted by an abstract one. -/
theorem Relates.routine_at (relates : simulation.Relates source source')
    {index : Nat} {entry : Job × Routine}
    (found : source.routines[index]? = some entry) :
    ∃ entry', source'.routines[index]? = some entry' ∧
      simulation.entry entry' = entry := by
  rw [relates.routines, List.getElem?_map] at found
  exact Option.map_eq_some_iff.mp found

/-- Matching steps of one thread keep two configurations in agreement. -/
theorem Relates.advance (relates : simulation.Relates source source') (index : Nat)
    (thread' : Thread Job Local' Routine') :
    simulation.Relates
      (source.advance index (simulation.thread thread')
        (concrete.next thread'.job (simulation.state thread'.job thread'.state) source.mem))
      (source'.advance index thread'
        (abstract.next thread'.job thread'.state source'.mem)) := by
  have agrees := simulation.next thread'.job thread'.state relates.mem
  cases next : abstract.next thread'.job thread'.state source'.mem with
  | «continue» mem' state' =>
      rw [next] at agrees
      obtain ⟨mem, stepped, related⟩ := agrees
      rw [stepped]
      refine ⟨related, ?_, relates.routines, relates.finished⟩
      simp only [Pool.advance, relates.threads, List.map_set]
      rfl
  | spawn routine' state' =>
      rw [next] at agrees
      rw [show concrete.next _ _ _ = _ from agrees]
      refine ⟨relates.mem, ?_, ?_, relates.finished⟩
      · simp only [Pool.advance, relates.threads, List.map_set, thread, List.map_append,
          List.map_cons, List.map_nil]
      · simp only [Pool.advance, relates.routines, List.map_append, List.map_cons,
          List.map_nil, entry, thread]
  | finish result =>
      rw [next] at agrees
      rw [show concrete.next _ _ _ = _ from agrees]
      refine ⟨relates.mem, ?_, relates.routines, ?_⟩
      · simp only [Pool.advance, relates.threads, List.eraseIdx_map]
      · simp only [Pool.advance, relates.finished, List.map_append, List.map_cons,
          List.map_nil, outcome, thread]

/-- The abstract machine matches every concrete step. -/
theorem Relates.step (relates : simulation.Relates source source')
    {choice : Choice Job Event} (stepped : concrete.step source choice = some target) :
    ∃ target', abstract.step source' choice = some target' ∧
      simulation.Relates target target' := by
  obtain ⟨job, rfl, rfl⟩ | ⟨index, thread, rfl, found, rfl⟩ |
    ⟨index, job, routine, rfl, found, rfl⟩ | ⟨event, rfl, rfl⟩ :=
    Machine.step_cases stepped
  · refine ⟨_, rfl, relates.mem, ?_, relates.routines, relates.finished⟩
    simp only [relates.threads, List.map_append, List.map_cons, List.map_nil,
      Simulation.thread, Machine.fresh, simulation.start]
  · obtain ⟨thread', found', rfl⟩ := relates.thread_at found
    refine ⟨source'.advance index thread' _, ?_, relates.advance index thread'⟩
    simp only [Machine.step, found', Option.map_some]
  · obtain ⟨⟨job', routine'⟩, found', denoted⟩ := relates.routine_at found
    cases denoted
    let after : Pool Mem' Job Local' Routine' Result :=
      { source' with
        mem := abstract.fire routine' source'.mem
        routines := source'.routines.eraseIdx index }
    have stepped' : abstract.step source' (.routine index) = some after := by
      simp only [Machine.step, found', Option.map_some, after]
    refine ⟨after, stepped', ?_, relates.threads, ?_, relates.finished⟩
    · exact simulation.fire routine' relates.mem
    · simp only [relates.routines, List.eraseIdx_map, after]
  · exact ⟨_, rfl, simulation.elapse event relates.mem, relates.threads,
      relates.routines, relates.finished⟩

/-- Every guarded concrete run is matched by an abstract run, under any abstract
guard that the concrete one implies along related configurations. -/
theorem Relates.reaches
    {guard : Pool Mem Job Local Routine Result → Choice Job Event → Prop}
    (guard' : Pool Mem' Job Local' Routine' Result → Choice Job Event → Prop)
    (implies : ∀ {pool pool' choice}, simulation.Relates pool pool' →
      guard pool choice → guard' pool' choice)
    (relates : simulation.Relates source source')
    (reaches : concrete.Reaches guard source target) :
    ∃ target', abstract.Reaches guard' source' target' ∧
      simulation.Relates target target' := by
  induction reaches with
  | refl => exact ⟨source', .refl, relates⟩
  | tail _ admitted stepped ih =>
      obtain ⟨middle', reached, agree⟩ := ih
      obtain ⟨target', stepped', agree'⟩ := agree.step stepped
      exact ⟨target', reached.tail (implies agree admitted) stepped', agree'⟩

end Simulation

end CloudRunSsh.Concurrency
