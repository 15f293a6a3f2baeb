import CloudRunSsh.Proxy.Soundness

/-!
# Removals

A removal looks an entry up in one step and takes it out in later ones, so whether it
removes the right one depends on what is stored in between.  Entries only change by
stores and removals, which is all that the conditions on such runs have to mention.
-/

namespace CloudRunSsh.Proxy

open CloudRunSsh.Concurrency

/-- Whatever is stored in an entry satisfies a condition. -/
def Only (condition : ServerlessInstance → Prop) (entry : Option ServerlessInstance) :
    Prop :=
  ∀ config, entry = some config → condition config

section Entries

variable {effect : Effect} {view : View} {condition : ServerlessInstance → Prop}

theorem Effect.clock_apply : (effect.apply view).clock = view.clock := by
  cases effect <;> rfl

theorem Only.mono {weaker : ServerlessInstance → Prop} {entry : Option ServerlessInstance}
    (only : Only condition entry)
    (implies : ∀ config, condition config → weaker config) : Only weaker entry :=
  fun config stored => implies config (only config stored)

theorem Only.buckets {bucket : Nat} {key : String}
    (only : Only condition (view.buckets bucket key))
    (stored : ∀ config, effect = .place bucket key config → condition config) :
    Only condition ((effect.apply view).buckets bucket key) := by
  intro config found
  rcases effect.buckets_of_some found with old | places
  · exact only config old
  · exact stored config places

theorem Only.flat {key : String} (only : Only condition (view.flat key))
    (stored : ∀ config, effect = .announce key config → condition config) :
    Only condition ((effect.apply view).flat key) := by
  intro config found
  rcases effect.flat_of_some found with old | announces
  · exact only config old
  · exact stored config announces

end Entries

/-- A map of instances held a registration and does not hold it any more. -/
def Memory.Removed (mem after : Memory) (config : ServerlessInstance) : Prop :=
  ∃ (map : InstanceToConfigMap) (key : String),
    mem.lookup map key = some config ∧ after.lookup map key ≠ some config

/-- The flat map or a bucket held a registration and does not hold it any more. -/
def View.Removed (view after : View) (config : ServerlessInstance) : Prop :=
  (∃ key, view.flat key = some config ∧ after.flat key ≠ some config) ∨
    ∃ bucket key, view.buckets bucket key = some config ∧
      after.buckets bucket key ≠ some config

theorem Memory.Removed.view {mem mem' : Memory} {view view' : View}
    {config : ServerlessInstance} (removed : mem.Removed mem' config)
    (represents : Represents mem view) (represents' : Represents mem' view') :
    view.Removed view' config := by
  rcases removed with ⟨⟨address⟩, key, found, gone⟩
  cases address with
  | zero =>
      left
      exact ⟨key, (represents.flat key).symm.trans found,
        fun kept => gone ((represents'.flat key).trans kept)⟩
  | succ bucket =>
      right
      exact ⟨bucket, key, (represents.buckets bucket key).symm.trans found,
        fun kept => gone ((represents'.buckets bucket key).trans kept)⟩

namespace View.Removed

variable {view : View} {config : ServerlessInstance} {key : String} {bucket : Nat}

theorem irrefl (removed : view.Removed view config) : False := by
  rcases removed with ⟨key, found, gone⟩ | ⟨bucket, key, found, gone⟩
  · exact gone found
  · exact gone found

theorem withdraw (removed : view.Removed ((Effect.withdraw bucket key).apply view) config) :
    view.buckets bucket key = some config := by
  rcases removed with ⟨query, found, gone⟩ | ⟨other, query, found, gone⟩
  · exact absurd found gone
  · simp only [Effect.apply, Function.update_apply] at gone
    split at gone
    · rename_i same
      subst same
      simp only [Function.update_apply] at gone
      split at gone
      · rename_i hit
        subst hit
        exact found
      · exact absurd found gone
    · exact absurd found gone

theorem retract (removed : view.Removed ((Effect.retract key).apply view) config) :
    view.flat key = some config := by
  rcases removed with ⟨query, found, gone⟩ | ⟨bucket, query, found, gone⟩
  · simp only [Effect.apply, Function.update_apply] at gone
    split at gone
    · rename_i hit
      subst hit
      exact found
    · exact absurd found gone
  · exact absurd found gone

end View.Removed

/-- The effect that a choice is about to have, with the job that it is for. -/
def StagePool.pending (pool : StagePool) :
    Choice RegistryJob Nat → Option (RegistryJob × Effect)
  | .thread index =>
      (pool.threads[index]?).bind fun thread =>
        match thread.state.act pool.mem with
        | .perform effect _ => some (thread.job, effect)
        | _ => none
  | .routine index => pool.routines[index]?
  | .start _ | .event _ => none

/-- A stage performs its effect by the operation with that effect. -/
theorem program_of_act {stage next : Stage} {effect : Effect} {view : View}
    (acts : stage.act view = .perform effect next) (moves : effect ≠ .still) :
    ∃ rest, stage.program = .op effect.operation rest := by
  cases stage with
  | insert | allocate | fill | publish | take | reap | forget =>
      cases acts
      exact ⟨_, rfl⟩
  | store config stores response =>
      cases stores with
      | nil => cases acts
      | cons level stores =>
          cases acts
          exact ⟨_, rfl⟩
  | done | fault | announce | retract => cases acts
  | visit timeout keys reaped =>
      cases keys with
      | nil => cases acts
      | cons key keys =>
          cases acts
          exact absurd rfl moves
  | readClock | descend | revision | seek | seekRevision | check | age | locate =>
      cases acts
      exact absurd rfl moves

theorem StagePool.pending_of_act {pool : StagePool} {index : Nat}
    {thread : Thread RegistryJob Stage Effect} {effect : Effect} {next : Stage}
    (found : pool.threads[index]? = some thread)
    (acts : thread.state.act pool.mem = .perform effect next) :
    pool.pending (.thread index) = some (thread.job, effect) := by
  simp only [pending, found, Option.bind_some, acts]

/-- What the stages are about to do is what the server is about to do. -/
theorem pending_of_relates {pool : RegistryPool} {pool' : StagePool}
    {choice : Choice RegistryJob Nat} {job : RegistryJob} {effect : Effect}
    (relates : stageSimulation.Relates pool pool') (moves : effect ≠ .still)
    (pending : pool'.pending choice = some (job, effect)) :
    Program.pending pool choice = some (job, effect.operation) := by
  cases choice with
  | start | event => cases pending
  | routine index =>
      simp only [Program.pending, relates.routines, List.getElem?_map]
      rw [show pool'.routines[index]? = some (job, effect) from pending]
      rfl
  | thread index =>
      rcases Option.bind_eq_some_iff.mp pending with ⟨thread, found, doing⟩
      cases acts : thread.state.act pool'.mem with
      | perform performed next =>
          rw [acts] at doing
          cases doing
          rcases program_of_act acts moves with ⟨rest, program⟩
          simp only [Program.pending, relates.threads, List.getElem?_map, found,
            Option.map_some, Option.bind_some, Simulation.thread]
          rw [show stageSimulation.state thread.job thread.state = _ from program]
      | spawn | finish =>
          rw [acts] at doing
          cases doing

end CloudRunSsh.Proxy
