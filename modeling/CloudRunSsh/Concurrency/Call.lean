import Mathlib.Data.List.InsertIdx
import CloudRunSsh.Concurrency.Machine

/-!
# Calls that run alone

A call completes when its thread has returned and every routine it started has
run, with nothing else running.  The routines may run at any moment after they
were started, so a completed call still stands for many interleavings.
-/

namespace CloudRunSsh.Concurrency

variable {Mem Job Local Routine Result Event : Type}

namespace Machine

variable (machine : Machine Mem Job Local Routine Result Event)

/-- The memory with one thread about to start `job`. -/
def launch (mem : Mem) (job : Job) : Pool Mem Job Local Routine Result :=
  ⟨mem, [machine.fresh job], [], []⟩

/-- Run alone on `mem`, `job` leaves `outcome` and the memory `after`. -/
def Completes (mem : Mem) (job : Job) (after : Mem)
    (outcome : Outcome Job Routine Result) : Prop :=
  machine.Reaches (fun _ choice => choice.IsWork) (machine.launch mem job)
    ⟨after, [], [], [outcome]⟩

/-- Assertions about a call that runs alone: `live` while its thread runs and
`ended` once it has returned.  Both see the routines started so far and those
still pending. -/
structure Script (Mem Local Routine Result : Type) where
  live : Mem → Local → List Routine → List Routine → Prop
  ended : Mem → Result → List Routine → List Routine → Prop

namespace Script

variable (script : Script Mem Local Routine Result)

/-- The assertion of the configuration of a call that runs alone. -/
inductive Holds (job : Job) : Pool Mem Job Local Routine Result → Prop where
  | live {mem : Mem} {state : Local} {spawned pending : List Routine} :
      script.live mem state spawned pending →
      Holds job ⟨mem, [⟨job, state, spawned⟩], pending.map (job, ·), []⟩
  | ended {mem : Mem} {result : Result} {spawned pending : List Routine} :
      script.ended mem result spawned pending →
      Holds job ⟨mem, [], pending.map (job, ·), [⟨job, result, spawned⟩]⟩

/-- What one step of the thread has to establish. -/
def Establishes (mem : Mem) (spawned pending : List Routine) :
    Next Mem Local Routine Result → Prop
  | .continue mem state => script.live mem state spawned pending
  | .spawn routine state =>
      script.live mem state (spawned ++ [routine]) (pending ++ [routine])
  | .finish result => script.ended mem result spawned pending

/-- The proof obligations of a script for `job`. -/
structure Valid (job : Job) : Prop where
  next : ∀ {mem state spawned pending}, script.live mem state spawned pending →
    script.Establishes mem spawned pending (machine.next job state mem)
  fireLive : ∀ {mem state spawned pending index routine},
    script.live mem state spawned pending → pending[index]? = some routine →
    script.live (machine.fire routine mem) state spawned (pending.eraseIdx index)
  fireEnded : ∀ {mem result spawned pending index routine},
    script.ended mem result spawned pending → pending[index]? = some routine →
    script.ended (machine.fire routine mem) result spawned (pending.eraseIdx index)

variable {script} {machine} {job : Job}
variable {source target : Pool Mem Job Local Routine Result}

theorem Valid.step {choice : Choice Job Event} (valid : script.Valid machine job)
    (holds : script.Holds job source) (work : choice.IsWork)
    (stepped : machine.step source choice = some target) :
    script.Holds job target := by
  obtain ⟨_, rfl, rfl⟩ | ⟨index, thread, rfl, found, rfl⟩ |
    ⟨index, _, routine, rfl, found, rfl⟩ | ⟨_, rfl, rfl⟩ := step_cases stepped
  · exact work.elim
  · cases holds with
    | @live mem state spawned pending held =>
        obtain ⟨rfl, rfl⟩ : index = 0 ∧ thread = ⟨job, state, spawned⟩ := by
          cases index with
          | zero => simpa [eq_comm] using found
          | succ => simp at found
        have establishes := valid.next held
        dsimp only
        cases next : machine.next job state mem with
        | «continue» mem state =>
            rw [next] at establishes
            exact .live establishes
        | spawn routine state =>
            rw [next] at establishes
            have started : script.Holds job _ := .live establishes
            rwa [List.map_append] at started
        | finish result =>
            rw [next] at establishes
            exact .ended establishes
    | ended => simp at found
  · cases holds with
    | live held =>
        simp only [List.getElem?_map, Option.map_eq_some_iff, Prod.mk.injEq] at found
        obtain ⟨routine, found, -, rfl⟩ := found
        simp only [List.eraseIdx_map]
        exact .live (valid.fireLive held found)
    | ended held =>
        simp only [List.getElem?_map, Option.map_eq_some_iff, Prod.mk.injEq] at found
        obtain ⟨routine, found, -, rfl⟩ := found
        simp only [List.eraseIdx_map]
        exact .ended (valid.fireEnded held found)
  · exact work.elim

/-- A valid script that holds at the start of a call holds at its end, when no
routine is pending any more. -/
theorem Valid.completes (valid : script.Valid machine job) {mem after : Mem}
    {outcome : Outcome Job Routine Result}
    (initial : script.live mem (machine.start job) [] [])
    (completes : machine.Completes mem job after outcome) :
    outcome.job = job ∧ script.ended after outcome.result outcome.spawned [] := by
  have holds := completes.invariant (Holds.live initial)
    fun _ holds work stepped => valid.step holds work stepped
  generalize reached : (⟨after, [], [], [outcome]⟩ :
    Pool Mem Job Local Routine Result) = pool at holds
  cases holds with
  | live => simp at reached
  | ended held =>
      simp only [Pool.mk.injEq, List.nil_eq, List.map_eq_nil_iff,
        List.cons.injEq, and_true, true_and] at reached
      obtain ⟨rfl, rfl, rfl⟩ := reached
      exact ⟨rfl, held⟩

end Script

end Machine

end CloudRunSsh.Concurrency
