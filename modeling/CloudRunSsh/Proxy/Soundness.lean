import CloudRunSsh.Concurrency.Outline
import CloudRunSsh.Proxy.Stages

/-!
# What every registry satisfies

Whatever the threads of the server do, entries are stored under their own ids, buckets
are created before they are published, and the goroutines are those of registrations
and deregistrations.
-/

namespace CloudRunSsh.Proxy

open CloudRunSsh.Concurrency

/-- The effects of goroutines: those of `addInstance` store a registration under its
own id. -/
def Effect.Detached : Effect → Prop
  | .announce key config => config.id = key
  | .retract _ => True
  | _ => False

section Effects

variable {effect : Effect} {view : View}

/-- A registration comes into a bucket only by being stored there. -/
theorem Effect.buckets_of_some {bucket : Nat} {key : String} {config : ServerlessInstance}
    (found : (effect.apply view).buckets bucket key = some config) :
    view.buckets bucket key = some config ∨ effect = .place bucket key config := by
  cases effect with
  | allocate maker =>
      simp only [Effect.apply, Function.update_apply] at found
      split at found
      · cases found
      · exact .inl found
  | place target own stored =>
      simp only [Effect.apply, Function.update_apply] at found
      split at found
      · rename_i same
        subst same
        simp only [Function.update_apply] at found
        split at found
        · rename_i hit
          subst hit
          cases found
          exact .inr rfl
        · exact .inl found
      · exact .inl found
  | withdraw target own =>
      simp only [Effect.apply, Function.update_apply] at found
      split at found
      · rename_i same
        subst same
        simp only [Function.update_apply] at found
        split at found
        · cases found
        · exact .inl found
      · exact .inl found
  | still | learn | publish | announce | retract => exact .inl found

/-- A registration comes into the flat map only by being stored there. -/
theorem Effect.flat_of_some {key : String} {config : ServerlessInstance}
    (found : (effect.apply view).flat key = some config) :
    view.flat key = some config ∨ effect = .announce key config := by
  cases effect with
  | announce own stored =>
      simp only [Effect.apply, Function.update_apply] at found
      split at found
      · rename_i hit
        subst hit
        cases found
        exact .inr rfl
      · exact .inl found
  | retract own =>
      simp only [Effect.apply, Function.update_apply] at found
      split at found
      · cases found
      · exact .inl found
  | still | learn | allocate | place | publish | withdraw => exact .inl found

/-- A revision points to a bucket only after it was published under it. -/
theorem Effect.revisions_of_some {revision : String} {bucket : Nat}
    (found : (effect.apply view).revisions revision = some bucket) :
    view.revisions revision = some bucket ∨ effect = .publish revision bucket := by
  cases effect with
  | publish own stored =>
      simp only [Effect.apply, Function.update_apply] at found
      split at found
      · rename_i hit
        subst hit
        cases found
        exact .inr rfl
      · exact .inl found
  | still | learn | allocate | place | withdraw | announce | retract => exact .inl found

end Effects

theorem Effect.fresh_le (effect : Effect) (view : View) :
    view.fresh ≤ (effect.apply view).fresh := by
  cases effect with
  | allocate maker => exact Nat.le_succ _
  | still | learn | place | publish | withdraw | announce | retract => exact Nat.le_refl _

/-- Every entry of a bucket is stored under its own id. -/
def View.Keyed (view : View) : Prop :=
  ∀ bucket key config, view.buckets bucket key = some config → config.id = key

/-- What every registry satisfies in the middle of a run. -/
structure View.Sound (view : View) : Prop where
  keyed : view.Keyed
  flat : ∀ key config, view.flat key = some config → config.id = key
  published : ∀ revision bucket, view.revisions revision = some bucket →
    bucket < view.fresh
  allocated : ∀ bucket key config, view.buckets bucket key = some config →
    bucket < view.fresh

theorem View.sound_initial (clock : Time) : (View.initial clock).Sound := by
  constructor
  · intro bucket key config found
    cases found
  · intro key config found
    cases found
  · intro revision bucket published
    cases published
  · intro bucket key config found
    cases found

/-- What an effect stores, it stores under its own id and in a bucket that has been
created. -/
def Effect.Proper (view : View) : Effect → Prop
  | .place bucket key config => config.id = key ∧ bucket < view.fresh
  | .publish _ bucket => bucket < view.fresh
  | .announce key config => config.id = key
  | .still | .learn _ _ | .allocate _ | .withdraw _ _ | .retract _ => True

namespace View.Sound

variable {view : View} (sound : view.Sound)

include sound

theorem elapse (duration : Nat) : (view.elapse duration).Sound :=
  ⟨sound.keyed, sound.flat, sound.published, sound.allocated⟩

theorem apply {effect : Effect} (proper : effect.Proper view) :
    (effect.apply view).Sound := by
  constructor
  · intro bucket key config found
    rcases effect.buckets_of_some found with old | rfl
    · exact sound.keyed bucket key config old
    · exact proper.1
  · intro key config found
    rcases effect.flat_of_some found with old | rfl
    · exact sound.flat key config old
    · exact proper
  · intro revision bucket published
    rcases effect.revisions_of_some published with old | rfl
    · exact lt_of_lt_of_le (sound.published revision bucket old) (effect.fresh_le view)
    · exact proper
  · intro bucket key config found
    rcases effect.buckets_of_some found with old | rfl
    · exact lt_of_lt_of_le (sound.allocated bucket key config old) (effect.fresh_le view)
    · exact proper.2

end View.Sound

/-- The bucket that a stage is about to store in or to publish. -/
def Stage.Targets (stage : Stage) (bucket : Nat) : Prop :=
  match stage with
  | .insert _ own _ _ | .fill _ own _ _ | .publish _ own _ _ => own = bucket
  | _ => False

/-- The assertions that hold in every run. -/
def soundness : Outline View RegistryJob Stage Effect where
  memory := View.Sound
  thread _ stage view := ∀ bucket, stage.Targets bucket → bucket < view.fresh
  routine _ effect _ := effect.Detached

/-- An effect of a thread keeps the registry sound, and the stage after it holds on to
no bucket that has not been created. -/
theorem View.Sound.act {view : View} {stage next : Stage} {effect : Effect}
    (sound : view.Sound) (created : ∀ bucket, stage.Targets bucket → bucket < view.fresh)
    (acts : stage.act view = .perform effect next) :
    (effect.apply view).Sound ∧
      ∀ bucket, next.Targets bucket → bucket < (effect.apply view).fresh := by
  have looked : ∀ {stage : Stage}, (∀ bucket, ¬stage.Targets bucket) →
      Action.perform .still stage = .perform effect next →
      (effect.apply view).Sound ∧
        ∀ bucket, next.Targets bucket → bucket < (effect.apply view).fresh := by
    rintro stage none ⟨rfl, rfl⟩
    exact ⟨sound, fun bucket owns => absurd owns (none bucket)⟩
  cases stage with
  | done | fault | announce | retract => cases acts
  | readClock c clientID =>
      refine looked ?_ acts
      intro bucket owns
      exact owns
  | descend config level stores response =>
      refine looked ?_ acts
      intro bucket owns
      cases level <;> exact owns
  | revision config stores response =>
      cases acts
      refine ⟨sound, ?_⟩
      intro bucket
      split
      · rename_i own published
        rintro rfl
        exact sound.published _ _ published
      · exact fun owns => owns.elim
  | insert config bucket stores response =>
      cases acts
      exact ⟨sound.apply ⟨rfl, created bucket rfl⟩, fun _ owns => owns.elim⟩
  | allocate config stores response =>
      cases acts
      refine ⟨sound.apply trivial, ?_⟩
      rintro bucket rfl
      exact Nat.lt_succ_self _
  | fill config bucket stores response =>
      cases acts
      exact ⟨sound.apply ⟨rfl, created bucket rfl⟩, created⟩
  | publish config bucket stores response =>
      cases acts
      exact ⟨sound.apply (created bucket rfl), fun _ owns => owns.elim⟩
  | store config stores response =>
      cases stores with
      | nil => cases acts
      | cons level stores =>
          cases acts
          exact ⟨sound.apply trivial, fun _ owns => owns.elim⟩
  | seek c clientID level =>
      refine looked ?_ acts
      intro bucket
      split
      · cases level <;> exact fun owns => owns
      · exact fun owns => owns
  | seekRevision c clientID =>
      refine looked ?_ acts
      intro bucket
      split <;> exact fun owns => owns
  | check c clientID bucket =>
      refine looked ?_ acts
      intro other
      split
      · split <;> exact fun owns => owns
      · exact fun owns => owns
  | take c clientID bucket config =>
      cases acts
      refine ⟨sound.apply trivial, ?_⟩
      intro other
      split <;> exact fun owns => owns.elim
  | visit timeout keys reaped =>
      cases keys with
      | nil => cases acts
      | cons key keys =>
          refine looked ?_ acts
          intro bucket
          split <;> exact fun owns => owns
  | age timeout config keys reaped =>
      refine looked ?_ acts
      intro bucket
      split <;> exact fun owns => owns
  | locate timeout config keys reaped =>
      refine looked ?_ acts
      intro bucket
      split <;> exact fun owns => owns
  | reap timeout config bucket keys reaped =>
      cases acts
      refine ⟨sound.apply trivial, ?_⟩
      intro other
      split <;> exact fun owns => owns.elim
  | forget timeout cfg keys reaped =>
      cases acts
      exact ⟨sound.apply trivial, fun _ owns => owns.elim⟩

theorem soundness_valid : soundness.Valid stageMachine fun _ _ => True := by
  constructor
  · intro pool job _ _ bucket owns
    cases job with
    | addInstance c | removeInstance c =>
        simp only [stageMachine, Stage.start, Stage.entry] at owns
        split at owns
        · split at owns <;> exact owns.elim
        · exact owns.elim
    | idleInstancesReaper timeout order => exact owns.elim
  · intro pool index thread holds _ found
    have created := holds.thread thread (List.mem_of_getElem? found)
    simp only [stageMachine]
    cases acts : thread.state.act pool.mem with
    | perform effect next =>
        have acted := holds.memory.act created acts
        refine ⟨acted.1, acted.2, ?_, fun _ _ kept => kept⟩
        intro other foreign _ _ kept bucket owns
        exact lt_of_lt_of_le (kept bucket owns) (effect.fresh_le pool.mem)
    | spawn routine next =>
        rcases Stage.spawn_cases acts with ⟨_, _, _, rfl, rfl⟩ | ⟨_, _, _, rfl, rfl⟩
        · exact ⟨fun _ owns => owns.elim, rfl⟩
        · exact ⟨fun _ owns => owns.elim, trivial⟩
    | finish result => trivial
  · intro pool index job routine holds _ found
    have detached := holds.routine _ (List.mem_of_getElem? found)
    refine ⟨?_, ?_, ?_⟩
    · apply holds.memory.apply
      cases routine with
      | announce key config => exact detached
      | retract key => trivial
      | still | learn | allocate | place | publish | withdraw => exact detached.elim
    · intro thread member bucket owns
      exact lt_of_lt_of_le (holds.thread thread member bucket owns)
        (routine.fresh_le pool.mem)
    · intro entry member
      exact holds.routine entry (List.mem_of_mem_eraseIdx member)
  · intro pool duration holds _
    exact ⟨holds.memory.elapse duration, holds.thread, holds.routine⟩

/-- The outline holds in every run of the stages that starts from a sound registry. -/
theorem soundness_reaches {guard : StagePool → Choice RegistryJob Nat → Prop}
    {view : View} {pool : StagePool} (sound : view.Sound)
    (reaches : stageMachine.Reaches guard (Pool.idle view) pool) : soundness.Holds pool :=
  soundness_valid.reaches (reaches.mono fun _ _ _ => trivial) (Outline.holds_idle _ sound)

/-- A run of the server from a sound registry is followed by one of the stages, all along
which the registry is sound. -/
theorem View.Sound.stages {guard : RegistryPool → Choice RegistryJob Nat → Prop}
    {mem : Memory} {view : View} {pool : RegistryPool} (sound : view.Sound)
    (represents : Represents mem view)
    (guard' : StagePool → Choice RegistryJob Nat → Prop)
    (implies : ∀ {pool pool' choice}, stageSimulation.Relates pool pool' →
      guard pool choice → guard' pool' choice)
    (reaches : registryMachine.Reaches guard (Pool.idle mem) pool) :
    ∃ pool', stageMachine.Reaches
        (fun pool choice => guard' pool choice ∧ soundness.Holds pool) (Pool.idle view) pool' ∧
      stageSimulation.Relates pool pool' ∧ soundness.Holds pool' := by
  have idle : stageSimulation.Relates (Pool.idle mem) (Pool.idle view) :=
    Simulation.relates_idle represents
  rcases idle.reaches guard' implies reaches with ⟨pool', reaches', relates⟩
  exact ⟨pool', reaches'.strengthen (soundness_reaches sound), relates,
    soundness_reaches sound reaches'⟩

/-- Every memory that the server reaches is that of a sound registry. -/
theorem sound_of_reachable {guard : RegistryPool → Choice RegistryJob Nat → Prop}
    {clock : Time} {pool : RegistryPool}
    (reachable : registryMachine.Reaches guard (Pool.idle (Memory.initial clock)) pool) :
    ∃ view, Represents pool.mem view ∧ view.Sound := by
  rcases (View.sound_initial clock).stages (represents_initial clock) (fun _ _ => True)
    (fun _ _ => trivial) reachable with ⟨pool', _, relates, sound⟩
  exact ⟨pool'.mem, relates.mem, sound.memory⟩

end CloudRunSsh.Proxy
