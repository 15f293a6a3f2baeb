import CloudRunSsh.Concurrency.Call
import CloudRunSsh.Concurrency.Program

/-!
# Programs that run alone

A program starts detached routines.  When each of them commutes with everything the
program may do afterwards, it does not matter when the routines run: run alone, the
program ends with the value and the memory of its sequential evaluation, under every
interleaving with its own routines.
-/

namespace CloudRunSsh.Concurrency.Program

variable {interface : Interface} {Value Mem Job Event : Type}
variable (execute : Execution interface Mem) (sound : Mem → Prop)

/-- On sound memories it does not matter whether `deferred` is done before or after
`operation`. -/
def Commutes (deferred operation : interface.Op) : Prop :=
  ∀ mem, sound mem →
    (execute operation (execute deferred mem).2).1 = (execute operation mem).1 ∧
      (execute operation (execute deferred mem).2).2 =
        (execute deferred (execute operation mem).2).2

/-- Each routine that the program starts commutes with whatever follows. -/
def Detachable : Program interface Value → Prop
  | .pure _ => True
  | .op _ rest => ∀ answer, (rest answer).Detachable
  | .go operation rest =>
      rest.Every (Commutes execute sound operation) ∧ rest.Detachable
  | .panic => True

/-- Run pending routines one after the other. -/
def settle (routines : List interface.Op) (mem : Mem) : Mem :=
  routines.foldl (fun mem routine => (execute routine mem).2) mem

variable {execute sound}

/-- A program that starts no routine is detachable. -/
theorem Inline.detachable {program : Program interface Value}
    {allowed : interface.Op → Prop} (inline : program.Inline allowed) :
    program.Detachable execute sound := by
  induction program with
  | pure value => trivial
  | op operation rest ih => exact fun answer => ih answer (inline.2 answer)
  | go operation rest => exact inline.elim
  | panic => trivial

/-- An operation that commutes with all pending routines can go first. -/
theorem execute_settle {routines : List interface.Op} {operation : interface.Op}
    {mem : Mem} (kept : ∀ operation mem, sound mem → sound (execute operation mem).2)
    (holds : sound mem)
    (commutes : ∀ routine ∈ routines, Commutes execute sound routine operation) :
    (execute operation (settle execute routines mem)).1 = (execute operation mem).1 ∧
      (execute operation (settle execute routines mem)).2 =
        settle execute routines (execute operation mem).2 := by
  induction routines generalizing mem with
  | nil => exact ⟨rfl, rfl⟩
  | cons routine routines ih =>
      have first := commutes routine List.mem_cons_self mem holds
      have later := ih (kept routine mem holds) fun other member =>
        commutes other (List.mem_cons_of_mem routine member)
      constructor
      · exact later.1.trans first.1
      · refine later.2.trans ?_
        rw [first.2]
        rfl

/-- Pending routines that commute can run in any order. -/
theorem settle_eraseIdx {routines : List interface.Op} {index : Nat}
    {routine : interface.Op} {mem : Mem} (holds : sound mem)
    (kept : ∀ operation mem, sound mem → sound (execute operation mem).2)
    (commute : routines.Pairwise (Commutes execute sound))
    (found : routines[index]? = some routine) :
    settle execute (routines.eraseIdx index) (execute routine mem).2 =
      settle execute routines mem := by
  induction routines generalizing index mem with
  | nil => simp at found
  | cons first routines ih =>
      cases index with
      | zero =>
          cases found
          rfl
      | succ index =>
          rw [List.pairwise_cons] at commute
          have member : routine ∈ routines := List.mem_of_getElem? found
          have swapped := (commute.1 routine member mem holds).2
          have rest := ih (kept first mem holds) commute.2 found
          rw [swapped] at rest
          exact rest

/-- What is known while a detachable program runs alone: once the pending routines have
run, the rest of the program evaluates to the final value and memory. -/
def soloScript (execute : Execution interface Mem) (sound : Mem → Prop)
    (final : Option Value × Mem) :
    Machine.Script Mem (Program interface Value) interface.Op (Option Value) where
  live mem state _ pending :=
    sound mem ∧ state.eval execute (settle execute pending mem) = final ∧
      state.Detachable execute sound ∧
      (∀ routine ∈ pending, state.Every (Commutes execute sound routine)) ∧
      pending.Pairwise (Commutes execute sound)
  ended mem result _ pending :=
    sound mem ∧ (result, settle execute pending mem) = final ∧
      pending.Pairwise (Commutes execute sound)

variable {program : Job → Program interface Value} {elapse : Event → Mem → Mem}

theorem soloScript_valid {final : Option Value × Mem} {job : Job}
    (kept : ∀ operation mem, sound mem → sound (execute operation mem).2) :
    (soloScript execute sound final).Valid (machine execute program elapse) job := by
  constructor
  · intro mem state spawned pending live
    obtain ⟨holds, evaluates, detachable, commutes, pairwise⟩ := live
    cases state with
    | pure value => exact ⟨holds, evaluates, pairwise⟩
    | panic => exact ⟨holds, evaluates, pairwise⟩
    | op operation rest =>
        have first := execute_settle kept holds fun routine member =>
          (commutes routine member).1
        refine ⟨kept operation mem holds, ?_, detachable _, ?_, pairwise⟩
        · rw [← first.2, ← first.1]
          exact evaluates
        · intro routine member
          exact (commutes routine member).2 _
    | go operation rest =>
        refine ⟨holds, ?_, detachable.2, ?_, ?_⟩
        · rw [settle, List.foldl_append]
          exact evaluates
        · intro routine member
          rcases List.mem_append.mp member with old | new
          · exact (commutes routine old).2
          · rw [List.mem_singleton.mp new]
            exact detachable.1
        · rw [List.pairwise_append]
          refine ⟨pairwise, List.pairwise_singleton _ _, ?_⟩
          intro routine member started new
          rw [List.mem_singleton.mp new]
          exact (commutes routine member).1
  · intro mem state spawned pending index routine live found
    obtain ⟨holds, evaluates, detachable, commutes, pairwise⟩ := live
    refine ⟨kept routine mem holds, ?_, detachable, ?_, pairwise.sublist
      (List.eraseIdx_sublist _ _)⟩
    · change state.eval execute (settle execute (pending.eraseIdx index)
        (execute routine mem).2) = final
      rw [settle_eraseIdx holds kept pairwise found]
      exact evaluates
    · intro other member
      exact commutes other (List.mem_of_mem_eraseIdx member)
  · intro mem result spawned pending index routine ended found
    obtain ⟨holds, evaluates, pairwise⟩ := ended
    refine ⟨kept routine mem holds, ?_, pairwise.sublist (List.eraseIdx_sublist _ _)⟩
    change (result, settle execute (pending.eraseIdx index) (execute routine mem).2) = final
    rw [settle_eraseIdx holds kept pairwise found]
    exact evaluates

/-- A completed call of a detachable program ends as its sequential evaluation does. -/
theorem eval_of_completes {job : Job} {mem after : Mem}
    {outcome : Outcome Job interface.Op (Option Value)} (holds : sound mem)
    (kept : ∀ operation mem, sound mem → sound (execute operation mem).2)
    (detachable : (program job).Detachable execute sound)
    (completes : (machine execute program elapse).Completes mem job after outcome) :
    outcome.job = job ∧ (outcome.result, after) = (program job).eval execute mem := by
  have valid : (soloScript execute sound ((program job).eval execute mem)).Valid
      (machine execute program elapse) job := soloScript_valid kept
  have ended := valid.completes
    ⟨holds, rfl, detachable, fun _ member => absurd member List.not_mem_nil, .nil⟩
    completes
  exact ⟨ended.1, ended.2.2.1⟩

variable (execute program elapse)

/-- Pending routines can run with nothing else going on. -/
theorem settles (finished : List (Outcome Job interface.Op (Option Value))) (mem : Mem)
    (routines : List (Job × interface.Op)) :
    ∃ after, (machine execute program elapse).Reaches (fun _ choice => choice.IsWork)
      ⟨mem, [], routines, finished⟩ ⟨after, [], [], finished⟩ := by
  induction routines generalizing mem with
  | nil => exact ⟨mem, .refl⟩
  | cons routine routines ih =>
      rcases ih (execute routine.2 mem).2 with ⟨after, reaches⟩
      exact ⟨after, .head (.routine 0) trivial rfl reaches⟩

/-- A thread can run to its end with nothing else going on. -/
theorem returns (job : Job) (state : Program interface Value) (mem : Mem)
    (spawned : List interface.Op) (routines : List (Job × interface.Op)) :
    ∃ after outcome, (machine execute program elapse).Reaches
      (fun _ choice => choice.IsWork) ⟨mem, [⟨job, state, spawned⟩], routines, []⟩
      ⟨after, [], [], [outcome]⟩ := by
  induction state generalizing mem spawned routines with
  | pure value =>
      rcases settles execute program elapse [⟨job, some value, spawned⟩] mem routines with
        ⟨after, reaches⟩
      exact ⟨after, _, .head (.thread 0) trivial rfl reaches⟩
  | panic =>
      rcases settles execute program elapse [⟨job, none, spawned⟩] mem routines with
        ⟨after, reaches⟩
      exact ⟨after, _, .head (.thread 0) trivial rfl reaches⟩
  | op operation rest ih =>
      rcases ih (execute operation mem).1 (execute operation mem).2 spawned routines with
        ⟨after, outcome, reaches⟩
      exact ⟨after, outcome, .head (.thread 0) trivial rfl reaches⟩
  | go operation rest ih =>
      rcases ih mem (spawned ++ [operation]) (routines ++ [(job, operation)]) with
        ⟨after, outcome, reaches⟩
      exact ⟨after, outcome, .head (.thread 0) trivial rfl reaches⟩

/-- Every call can complete. -/
theorem completes (mem : Mem) (job : Job) :
    ∃ after outcome, (machine execute program elapse).Completes mem job after outcome :=
  returns execute program elapse job (program job) mem [] []

end CloudRunSsh.Concurrency.Program
