import CloudRunSsh.Proxy.Growth
import CloudRunSsh.Proxy.Renewals

/-!
# Instances that keep their place

A registration lasts as long as its client renews it before the reaper finds it expired.  Until
then nothing takes the instance away from its client: not the reaper, not the deregistrations of
other clients, and not what other instances do.  So the instance is in every listing of its
revision, and once there is a rule for it, there always is one that leads to its client.
-/

namespace CloudRunSsh.Proxy

open CloudRunSsh.Concurrency

/-- One client alone registers an instance, it does not deregister it, and it renews it in time:
where the reaper looks at a registration of the instance, that has not expired.  No bucket is
published over that of the revision, as where two first registrations cross each other. -/
structure Attended (inst revision owner : String) (pool : RegistryPool)
    (choice : Choice RegistryJob Nat) : Prop where
  registered : ∀ c, choice = .start (.addInstance c) → c.param APIPathParam.instance = inst →
    c.getHeader xServerlessSSHClientID = owner
  deregistered : ∀ c, choice = .start (.removeInstance c) →
    c.param APIPathParam.instance = inst → c.getHeader xServerlessSSHClientID ≠ owner
  renewed : ∀ index thread timeout config keys reaped, choice = .thread index →
    pool.threads[index]? = some thread →
    thread.state = reaping timeout keys (reapIfIdle timeout config reaped) → config.id = inst →
    ¬Expired timeout pool.mem.clock config
  published : ∀ job map,
    Program.pending pool choice =
      some (job, @RegistryOp.set .revisions revisionToInstancesMap revision map) →
    pool.mem.lookup revisionToInstancesMap revision = none

namespace StagePool

/-- The condition for the stages. -/
structure Attended (inst revision owner : String) (pool : StagePool)
    (choice : Choice RegistryJob Nat) : Prop where
  registered : ∀ c, choice = .start (.addInstance c) → c.param APIPathParam.instance = inst →
    c.getHeader xServerlessSSHClientID = owner
  deregistered : ∀ c, choice = .start (.removeInstance c) →
    c.param APIPathParam.instance = inst → c.getHeader xServerlessSSHClientID ≠ owner
  renewed : ∀ index thread timeout config keys reaped, choice = .thread index →
    pool.threads[index]? = some thread → thread.state = .age timeout config keys reaped →
    config.id = inst → ¬Expired timeout pool.mem.clock config
  published : ∀ job bucket, pool.pending choice = some (job, .publish revision bucket) →
    pool.mem.revisions revision = none

end StagePool

theorem Attended.stages {inst revision owner : String} {pool : RegistryPool} {pool' : StagePool}
    {choice : Choice RegistryJob Nat} (relates : stageSimulation.Relates pool pool')
    (attended : Attended inst revision owner pool choice) :
    StagePool.Attended inst revision owner pool' choice := by
  have represents : Represents pool.mem pool'.mem := relates.mem
  refine ⟨attended.registered, attended.deregistered, ?_, ?_⟩
  · intro index thread timeout config keys reaped chosen found state own
    have running := relates.getElem?_threads found
    rw [← represents.clock]
    refine attended.renewed index _ timeout config keys reaped chosen running ?_ own
    rw [Simulation.thread, state]
    rfl
  · intro job bucket pending
    have unpublished := attended.published job (bucketRef bucket)
      (pending_of_relates relates (by rintro ⟨⟩) pending)
    rw [represents.revisions, Option.map_eq_none_iff] at unpublished
    exact unpublished

section Spares

variable (inst owner : String)

/-- A stage that leaves what there is about an instance to its owner. -/
def Stage.Spares : Stage → Prop
  | .readClock c clientID => c.param APIPathParam.instance = inst → clientID = owner
  | .announce config _ | .descend config _ _ _ | .revision config _ _ | .insert config _ _ _
  | .allocate config _ _ | .fill config _ _ _ => config.id = inst → config.tunnel = owner
  | .seek c clientID _ | .seekRevision c clientID | .check c clientID _ =>
      c.param APIPathParam.instance = inst → clientID ≠ owner
  | .take _ _ _ config | .retract _ config | .locate _ config _ _ | .reap _ config _ _ _
  | .forget _ config _ _ => config.id ≠ inst
  | .done _ | .fault | .publish _ _ _ _ | .store _ _ _ | .visit _ _ _ | .age _ _ _ _ => True

/-- An effect that does. -/
def Effect.Spares : Effect → Prop
  | .place _ key config | .announce key config => key = inst → config.tunnel = owner
  | .withdraw _ key | .retract key => key ≠ inst
  | .still | .learn _ _ | .allocate _ | .publish _ _ => True

/-- Wherever the instance is registered, it is with its owner. -/
structure View.Belongs (view : View) : Prop where
  buckets : ∀ bucket, Only (fun config => config.tunnel = owner) (view.buckets bucket inst)
  flat : Only (fun config => config.tunnel = owner) (view.flat inst)

/-- Nobody is about to take an instance from its owner. -/
def sparing : Outline View RegistryJob Stage Effect where
  memory := View.Belongs inst owner
  thread _ stage _ := stage.Spares inst owner
  routine _ effect _ := effect.Spares inst owner

end Spares

section Sparing

variable {inst revision owner : String} {view : View} {effect : Effect}

theorem belongs_initial (clock : Time) : (View.initial clock).Belongs inst owner :=
  ⟨fun _ => nofun, nofun⟩

theorem View.Belongs.apply (belongs : view.Belongs inst owner)
    (spares : effect.Spares inst owner) : (effect.apply view).Belongs inst owner := by
  refine ⟨fun bucket => (belongs.buckets bucket).buckets ?_, belongs.flat.flat ?_⟩
  · rintro config rfl
    exact spares rfl
  · rintro config rfl
    exact spares rfl

theorem spares_start {pool : StagePool} {job : RegistryJob}
    (attended : pool.Attended inst revision owner (.start job)) :
    (Stage.start job).Spares inst owner := by
  cases job with
  | addInstance c =>
      rw [Stage.start, Stage.entry]
      split
      · split <;> trivial
      · exact attended.registered c rfl
  | removeInstance c =>
      rw [Stage.start, Stage.entry]
      split
      · split <;> trivial
      · exact attended.deregistered c rfl
  | idleInstancesReaper timeout order => trivial

/-- A stage that spares the instance does not take it, and neither does the next. -/
theorem spares_act {stage : Stage} (sound : view.Sound) (belongs : view.Belongs inst owner)
    (renewed : ∀ timeout config keys reaped, stage = .age timeout config keys reaped →
      config.id = inst → ¬Expired timeout view.clock config)
    (spares : stage.Spares inst owner) :
    match stage.act view with
    | .perform effect next => effect.Spares inst owner ∧ next.Spares inst owner
    | .spawn routine next => routine.Spares inst owner ∧ next.Spares inst owner
    | .finish _ => True := by
  cases stage with
  | done result => trivial
  | fault => trivial
  | readClock c clientID => exact ⟨trivial, spares⟩
  | announce config response => exact ⟨spares, spares⟩
  | descend config level stores response =>
      refine ⟨trivial, ?_⟩
      cases level <;> exact spares
  | revision config stores response =>
      refine ⟨trivial, ?_⟩
      split <;> exact spares
  | insert config bucket stores response => exact ⟨spares, trivial⟩
  | allocate config stores response => exact ⟨trivial, spares⟩
  | fill config bucket stores response => exact ⟨spares, trivial⟩
  | publish config bucket stores response => exact ⟨trivial, trivial⟩
  | store config stores response => cases stores <;> trivial
  | seek c clientID level =>
      refine ⟨trivial, ?_⟩
      split
      · cases level <;> exact spares
      · trivial
  | seekRevision c clientID =>
      refine ⟨trivial, ?_⟩
      split
      · exact spares
      · trivial
  | check c clientID bucket =>
      refine ⟨trivial, ?_⟩
      split
      · rename_i config found
        split
        · rename_i matched
          -- an entry of the instance has the client id of its owner, and the request another
          intro own
          rw [sound.keyed _ _ _ found] at own
          rw [own] at found
          exact spares own (matched.trans (belongs.buckets bucket config found))
        · trivial
      · trivial
  | take c clientID bucket config =>
      refine ⟨spares, ?_⟩
      split
      · rename_i cfg found
        intro own
        exact spares ((sound.keyed _ _ _ found).symm.trans own)
      · trivial
  | retract c cfg => exact ⟨spares, trivial⟩
  | visit timeout keys reaped =>
      cases keys with
      | nil => trivial
      | cons key keys =>
          refine ⟨trivial, ?_⟩
          split <;> trivial
  | age timeout config keys reaped =>
      refine ⟨trivial, ?_⟩
      split
      · rename_i expired
        exact fun own => renewed timeout config keys reaped rfl own expired
      · trivial
  | locate timeout config keys reaped =>
      refine ⟨trivial, ?_⟩
      split
      · exact spares
      · trivial
  | reap timeout config bucket keys reaped =>
      refine ⟨spares, ?_⟩
      split
      · rename_i cfg found
        intro own
        exact spares ((sound.keyed _ _ _ found).symm.trans own)
      · trivial
  | forget timeout cfg keys reaped => exact ⟨spares, trivial⟩

theorem sparing_valid :
    (sparing inst owner).Valid stageMachine fun (pool : StagePool) choice =>
      pool.Attended inst revision owner choice ∧ soundness.Holds pool := by
  constructor
  · intro pool job _ admitted
    exact spares_start admitted.1
  · intro pool index thread holds admitted found
    have acted := spares_act admitted.2.memory holds.memory
      (fun timeout config keys reaped state => admitted.1.renewed index thread timeout config keys
        reaped rfl found state)
      (holds.thread thread (List.mem_of_getElem? found))
    simp only [stageMachine]
    cases acts : thread.state.act pool.mem with
    | perform effect next =>
        rw [acts] at acted
        exact ⟨holds.memory.apply acted.1, acted.2, fun _ _ _ _ spares => spares,
          fun _ _ spares => spares⟩
    | spawn routine next =>
        rw [acts] at acted
        exact ⟨acted.2, acted.1⟩
    | finish result => trivial
  · intro pool index job routine holds _ found
    have spares := holds.routine _ (List.mem_of_getElem? found)
    exact ⟨holds.memory.apply spares, holds.thread,
      fun entry member => holds.routine entry (List.mem_of_mem_eraseIdx member)⟩
  · intro pool duration holds _
    exact ⟨⟨holds.memory.buckets, holds.memory.flat⟩, holds.thread, holds.routine⟩

end Sparing

/-- What there is about an instance stays, and so does the bucket of a revision. -/
structure View.Retains (inst revision : String) (view after : View) : Prop where
  revisions : ∀ bucket, view.revisions revision = some bucket →
    after.revisions revision = some bucket
  buckets : ∀ bucket, (view.buckets bucket inst).isSome → (after.buckets bucket inst).isSome
  flat : (view.flat inst).isSome → (after.flat inst).isSome

/-- The bucket of a revision has the instance. -/
def View.Holds (inst revision : String) (view : View) : Prop :=
  ∃ bucket, view.revisions revision = some bucket ∧ (view.buckets bucket inst).isSome

/-- What a registration of the instance has done by a stage. -/
def Stage.Secures (inst revision : String) (c : Context) : Stage → View → Prop
  | .fault, _ | .done (.reaped _), _ => True
  | .done (.response answer), _ => c.writer.sent = none → ¬answer.Accepted
  | .readClock own _, _ => own = c
  | .announce config _, _ | .descend config _ _ _, _ | .revision config _ _, _
  | .allocate config _ _, _ | .fill config _ _ _, _ =>
      config.id = inst ∧ config.revision = revision
  | .insert config bucket _ _, view => config.id = inst ∧ view.revisions revision = some bucket
  | .publish config bucket _ _, view =>
      config.revision = revision ∧ (view.buckets bucket inst).isSome
  | .store _ _ _, view => view.Holds inst revision
  | _, _ => False

section Secures

variable {inst revision owner : String} {view after : View} {effect : Effect} {stage : Stage}
variable {c : Context}

theorem View.Holds.mono (holds : view.Holds inst revision)
    (retains : view.Retains inst revision after) : after.Holds inst revision := by
  obtain ⟨bucket, published, present⟩ := holds
  exact ⟨bucket, retains.revisions bucket published, retains.buckets bucket present⟩

theorem Stage.Secures.mono (secures : stage.Secures inst revision c view)
    (retains : view.Retains inst revision after) : stage.Secures inst revision c after := by
  cases stage with
  | insert => exact ⟨secures.1, retains.revisions _ secures.2⟩
  | publish => exact ⟨secures.1, retains.buckets _ secures.2⟩
  | store => exact View.Holds.mono secures retains
  | done result => cases result <;> exact secures
  | _ => exact secures

/-- An effect that spares the instance keeps it, and the bucket of its revision is kept as long as
none is published over it. -/
theorem Effect.Spares.retains (spares : effect.Spares inst owner) (sound : view.Sound)
    (unpublished : ∀ bucket, effect = .publish revision bucket →
      view.revisions revision = none) :
    view.Retains inst revision (effect.apply view) := by
  cases effect with
  | still | learn => exact ⟨fun _ => id, fun _ => id, id⟩
  | allocate maker =>
      refine ⟨fun _ => id, fun bucket present => ?_, id⟩
      obtain ⟨config, found⟩ := Option.isSome_iff_exists.mp present
      have other : bucket ≠ view.fresh := Nat.ne_of_lt (sound.allocated bucket inst config found)
      simp only [Effect.apply]
      rwa [Function.update_of_ne other]
  | place bucket key config =>
      refine ⟨fun _ => id, fun other present => ?_, id⟩
      simp only [Effect.apply, Function.update_apply]
      split
      · simp only [Function.update_apply]
        split
        · rfl
        · rename_i same _
          rwa [← same]
      · exact present
  | publish own bucket =>
      refine ⟨fun old published => ?_, fun _ => id, id⟩
      by_cases same : own = revision
      · subst same
        rw [unpublished bucket rfl] at published
        cases published
      · simp only [Effect.apply]
        rwa [Function.update_of_ne (Ne.symm same)]
  | withdraw bucket key =>
      refine ⟨fun _ => id, fun other present => ?_, id⟩
      simp only [Effect.apply, Function.update_apply]
      split
      · rename_i same
        rwa [Function.update_of_ne (Ne.symm spares), ← same]
      · exact present
  | announce key config =>
      refine ⟨fun _ => id, fun _ => id, fun present => ?_⟩
      simp only [Effect.apply, Function.update_apply]
      split
      · rfl
      · exact present
  | retract key =>
      refine ⟨fun _ => id, fun _ => id, fun present => ?_⟩
      simp only [Effect.apply]
      rwa [Function.update_of_ne (Ne.symm spares)]

/-- What a registration of the instance does, it has done at the next stage. -/
theorem secures_act (secures : stage.Secures inst revision c view)
    (here : c.param APIPathParam.instance = inst)
    (under : c.param APIPathParam.revision = revision) :
    match stage.act view with
    | .perform effect next => next.Secures inst revision c (effect.apply view)
    | .spawn _ next => next.Secures inst revision c view
    | .finish result => ∀ answer, result = some (.response answer) → c.writer.sent = none →
        answer.Accepted → view.Holds inst revision := by
  cases stage with
  | done result =>
      rintro answer ⟨⟩ unsent accepted
      exact absurd accepted (secures unsent)
  | fault => rintro answer ⟨⟩
  | readClock own clientID =>
      obtain rfl : own = c := secures
      exact ⟨here, under⟩
  | announce config response => exact secures
  | descend config level stores response => cases level <;> exact secures
  | revision config stores response =>
      obtain ⟨own, same⟩ := secures
      simp only [Stage.act]
      split
      · rename_i bucket published
        rw [same] at published
        exact ⟨own, published⟩
      · exact ⟨own, same⟩
  | insert config bucket stores response =>
      obtain ⟨rfl, published⟩ := secures
      exact ⟨bucket, published, by simp [Effect.apply]⟩
  | allocate config stores response => exact secures
  | fill config bucket stores response =>
      obtain ⟨rfl, same⟩ := secures
      exact ⟨same, by simp [Effect.apply]⟩
  | publish config bucket stores response =>
      obtain ⟨rfl, present⟩ := secures
      exact ⟨bucket, by simp [Effect.apply], present⟩
  | store config stores response =>
      cases stores with
      | nil => exact fun _ _ _ _ => secures
      | cons level stores => exact secures
  | _ => exact secures.elim

theorem secures_start (inst revision : String) (c : Context) (view : View) :
    (Stage.start (.addInstance c)).Secures inst revision c view := by
  have relies := relies_start c view
  rw [Stage.start, Stage.entry] at relies ⊢
  split
  · rename_i missing
    rw [if_pos missing] at relies
    split
    · trivial
    · rename_i config found
      rw [found] at relies
      exact relies
  · rfl

/-- The steps of an attended run, in a registry that is sound and spares the instance. -/
def AttendedStages (inst revision owner : String) (pool : StagePool)
    (choice : Choice RegistryJob Nat) : Prop :=
  (pool.Attended inst revision owner choice ∧ soundness.Holds pool) ∧
    (sparing inst owner).Holds pool

end Secures

/-- A registration of the instance that is accepted has put it into the bucket of its revision,
and there it stays. -/
def leased (inst revision owner : String) :
    Pledge stageMachine (AttendedStages inst revision owner) (View.Retains inst revision) where
  thread job stage view := ∀ c, job = .addInstance c → c.param APIPathParam.instance = inst →
    c.param APIPathParam.revision = revision → stage.Secures inst revision c view
  result job found view := ∀ c answer, job = .addInstance c →
    c.param APIPathParam.instance = inst → c.param APIPathParam.revision = revision →
    found = some (.response answer) → c.writer.sent = none → answer.Accepted →
    view.Holds inst revision
  start := by
    rintro pool _ _ c rfl _ _
    exact secures_start inst revision c pool.mem
  next := by
    intro pool index running admitted found secures
    have acted := spares_act admitted.1.2.memory admitted.2.memory
      (fun timeout config keys reaped state => admitted.1.1.renewed index running timeout config
        keys reaped rfl found state)
      (admitted.2.thread running (List.mem_of_getElem? found))
    simp only [stageMachine]
    cases acts : running.state.act pool.mem with
    | perform effect next =>
        rw [acts] at acted
        refine ⟨acted.1.retains admitted.1.2.memory ?_, fun c same here under => ?_⟩
        · rintro bucket rfl
          exact admitted.1.1.published _ _ (StagePool.pending_of_act found acts)
        · have secured := secures_act (secures c same here under) here under
          rwa [acts] at secured
    | spawn routine next =>
        intro c same here under
        have secured := secures_act (secures c same here under) here under
        rwa [acts] at secured
    | finish result =>
        intro c answer same here under
        have secured := secures_act (secures c same here under) here under
        rw [acts] at secured
        exact secured answer
  fire := by
    intro pool index entry admitted found
    have member := List.mem_of_getElem? found
    have spares := admitted.2.routine entry member
    refine Effect.Spares.retains spares admitted.1.2.memory fun bucket publishes => ?_
    have detached := admitted.1.2.routine entry member
    rw [publishes] at detached
    exact detached.elim
  elapse _ _ := ⟨fun _ => id, fun _ => id, id⟩
  keepsThread retains secures c same here under := (secures c same here under).mono retains
  keepsResult retains holds c answer same here under found unsent accepted :=
    (holds c answer same here under found unsent accepted).mono retains

/-! ## Listings and rules -/

/-- The memories of the attended runs that go on from a configuration. -/
def RegistryPool.Attending (inst revision owner : String) (pool : RegistryPool) (mem : Memory) :
    Prop :=
  ∃ later : RegistryPool, registryMachine.Reaches (Attended inst revision owner) pool later ∧
    later.mem = mem

/-- A map has the instance, with its owner. -/
def Memory.Leased (mem : Memory) (map : InstanceToConfigMap) (inst owner : String) : Prop :=
  ∃ config, mem.lookup map inst = some config ∧ config.id = inst ∧ config.tunnel = owner

section Runs

variable {inst revision owner : String} {clock : Time} {pool later : RegistryPool}
variable {pool' : StagePool}

/-- An attended run of the server is followed by one of the stages. -/
theorem attendedStages_of_reaches (relates : stageSimulation.Relates pool pool')
    (sound : soundness.Holds pool') (spares : (sparing inst owner).Holds pool')
    (reaches : registryMachine.Reaches (Attended inst revision owner) pool later) :
    ∃ later', stageMachine.Reaches (AttendedStages inst revision owner) pool' later' ∧
      stageSimulation.Relates later later' ∧ soundness.Holds later' ∧
      (sparing inst owner).Holds later' := by
  obtain ⟨later', reaches', relates'⟩ := relates.reaches (StagePool.Attended inst revision owner)
    (fun relates attended => attended.stages relates) reaches
  have soundly := reaches'.strengthen fun reached =>
    soundness_valid.reaches (reached.mono fun _ _ _ => trivial) sound
  have sparingly := soundly.strengthen fun reached => sparing_valid.reaches reached spares
  exact ⟨later', sparingly, relates',
    soundness_valid.reaches (reaches'.mono fun _ _ _ => trivial) sound,
    sparing_valid.reaches soundly spares⟩

/-- What a view has of the instance, its memory has, with the owner. -/
theorem leased_of_isSome (relates : stageSimulation.Relates pool pool')
    (sound : soundness.Holds pool') (spares : (sparing inst owner).Holds pool') :
    (∀ bucket, (pool'.mem.buckets bucket inst).isSome →
      pool.mem.Leased (bucketRef bucket) inst owner) ∧
    ((pool'.mem.flat inst).isSome → pool.mem.Leased instanceToConfigMap inst owner) := by
  have represents : Represents pool.mem pool'.mem := relates.mem
  constructor
  · intro bucket present
    obtain ⟨config, found⟩ := Option.isSome_iff_exists.mp present
    exact ⟨config, (represents.buckets bucket inst).trans found,
      sound.memory.keyed _ _ _ found, spares.memory.buckets bucket config found⟩
  · intro present
    obtain ⟨config, found⟩ := Option.isSome_iff_exists.mp present
    exact ⟨config, (represents.flat inst).trans found, sound.memory.flat _ _ found,
      spares.memory.flat config found⟩

/-- An attended run, with what its stages guarantee. -/
theorem attended_reached
    (reachable : registryMachine.Reaches (Attended inst revision owner)
      (Pool.idle (Memory.initial clock)) pool) :
    ∃ pool', stageSimulation.Relates pool pool' ∧ soundness.Holds pool' ∧
      (sparing inst owner).Holds pool' ∧ (leased inst revision owner).Holds pool' := by
  have idle : stageSimulation.Relates (Pool.idle (Memory.initial clock))
      (Pool.idle (View.initial clock)) := Simulation.relates_idle (represents_initial clock)
  obtain ⟨pool', reaches, relates, sound, spares⟩ := attendedStages_of_reaches idle
    (Outline.holds_idle _ (View.sound_initial clock)) (Outline.holds_idle _ (belongs_initial clock))
    reachable
  exact ⟨pool', relates, sound, spares, (Pledge.holds_idle _).reaches reaches⟩

/-- Once a registration of the instance is accepted, the revision keeps a bucket that has it. -/
theorem bucket_of_accepted
    (reachable : registryMachine.Reaches (Attended inst revision owner)
      (Pool.idle (Memory.initial clock)) pool)
    {outcome : Outcome RegistryJob RegistryOp (Option JobResult)} (member : outcome ∈ pool.finished)
    {c answer : Context} (job : outcome.job = .addInstance c)
    (here : c.param APIPathParam.instance = inst) (under : c.param APIPathParam.revision = revision)
    (result : outcome.result = some (.response answer)) (unsent : c.writer.sent = none)
    (accept : answer.Accepted) :
    ∃ map, ∀ mem, pool.Attending inst revision owner mem →
      mem.lookup revisionToInstancesMap revision = some map ∧ mem.Leased map inst owner := by
  obtain ⟨pool', relates, sound, spares, pledged⟩ := attended_reached reachable
  rw [relates.finished] at member
  obtain ⟨outcome', within, rfl⟩ := List.mem_map.mp member
  obtain ⟨bucket, published, present⟩ :=
    pledged.result outcome' within c answer job here under result unsent accept
  refine ⟨bucketRef bucket, ?_⟩
  rintro _ ⟨later, reaches, rfl⟩
  obtain ⟨later', reaches', relates', sound', spares'⟩ :=
    attendedStages_of_reaches relates sound spares reaches
  have kept : later'.mem.revisions revision = some bucket ∧
      (later'.mem.buckets bucket inst).isSome := by
    refine pledged.keeps (fun view => view.revisions revision = some bucket ∧
      (view.buckets bucket inst).isSome) ?_ ⟨published, present⟩ reaches'
    exact fun retains before => ⟨retains.revisions bucket before.1, retains.buckets bucket before.2⟩
  have represents : Represents later.mem later'.mem := relates'.mem
  exact ⟨represents.lookup_revisions.mpr ⟨bucket, kept.1, rfl⟩,
    (leased_of_isSome relates' sound' spares').1 bucket kept.2⟩

/-- Once the flat map has the instance, it keeps it. -/
theorem flat_of_announced
    (reachable : registryMachine.Reaches (Attended inst revision owner)
      (Pool.idle (Memory.initial clock)) pool)
    {config : ServerlessInstance} (found : pool.mem.lookup instanceToConfigMap inst = some config)
    {mem : Memory} (ahead : pool.Attending inst revision owner mem) :
    mem.Leased instanceToConfigMap inst owner := by
  obtain ⟨pool', relates, sound, spares, pledged⟩ := attended_reached reachable
  obtain ⟨later, reaches, rfl⟩ := ahead
  obtain ⟨later', reaches', relates', sound', spares'⟩ :=
    attendedStages_of_reaches relates sound spares reaches
  have represents : Represents pool.mem pool'.mem := relates.mem
  rw [represents.flat] at found
  refine (leased_of_isSome relates' sound' spares').2 ?_
  refine pledged.keeps (fun view => (view.flat inst).isSome = true) ?_ ?_ reaches'
  · exact fun retains => retains.flat
  · rw [found]
    rfl

end Runs

section Handlers

variable {inst revision owner : String} {clock : Time} {pool : RegistryPool} {query : Context}

/-- The listing of a revision has the instance, if the lookups along the path find something and
the bucket has it, in whatever memory each of them is performed. -/
theorem getRevisionIngress_amid (untouched : query.Untouched) (named : query.Named)
    (map : InstanceToConfigMap) :
    (getRevisionIngress query).Amid execute
      (fun mem => mem.Leads query ∧
        mem.lookup revisionToInstancesMap (query.param APIPathParam.revision) = some map ∧
          mem.Leased map inst owner)
      fun listing => listing.Succeeds ∧
        ∃ config, listing.Lists config ∧ config.id = inst ∧ config.tunnel = owner := by
  obtain ⟨project, region, service, revision⟩ := named
  rw [getRevisionIngress, if_neg (not_or_intro project
    (not_or_intro region (not_or_intro service revision)))]
  refine amid_get fun mem fits => ⟨_, fits.1.project, ?_⟩
  refine amid_get fun mem fits => ⟨_, fits.1.region, ?_⟩
  refine amid_get fun mem fits => ⟨_, fits.1.service, ?_⟩
  refine amid_get fun mem fits => ⟨map, fits.2.1, ?_⟩
  rintro mem ⟨_, _, config, found, id, tunnel⟩
  refine ⟨succeeds_sendIngressResponse untouched _, config, ?_, id, tunnel⟩
  exact (lists_sendIngressResponse untouched _ config).mpr
    (List.mem_map_of_mem (Dict.mem_items.mpr found))

/-- The rules have one that leads from the instance to its owner, if the flat map has it. -/
theorem getIngessRules_amid (untouched : query.Untouched) :
    (getIngessRules query).Amid execute (fun mem => mem.Leased instanceToConfigMap inst owner)
      fun rules => rules.writer.delivered = 200 ∧
        Chunk.text (" ".intercalate [inst, owner] ++ "\n") ∈ rules.writer.body := by
  rintro mem ⟨config, found, rfl, rfl⟩
  refine ⟨delivered_lines untouched _ _, ?_⟩
  refine (body_foldl_write (mem.read instanceToConfigMap).items (fun entry =>
    .text (" ".intercalate [entry.2.id, entry.2.tunnel] ++ "\n")) _).symm ▸ ?_
  exact List.mem_append_right _ (List.mem_map_of_mem (Dict.mem_items.mpr found))

/-- As long as a client renews its instance in time, once the registration was accepted every
listing of the revision has it, and once there is a rule for it every answer with rules has one
that leads to the client, whatever others request and whenever the reaper runs. -/
theorem listed_of_attended
    (reachable : registryMachine.Reaches (Attended inst revision owner)
      (Pool.idle (Memory.initial clock)) pool) :
    (∀ outcome ∈ pool.finished, ∀ c answer, outcome.job = .addInstance c →
      c.param APIPathParam.instance = inst → c.param APIPathParam.revision = revision →
      outcome.result = some (.response answer) → c.writer.sent = none → answer.Accepted →
      ∀ query : Context, query.Untouched → query.Named →
        (∀ name ∈ [APIPathParam.project, APIPathParam.region, APIPathParam.service,
          APIPathParam.revision], query.param name = c.param name) →
        (getRevisionIngress query).Amid execute (pool.Attending inst revision owner)
          fun listing => listing.Succeeds ∧
            ∃ config, listing.Lists config ∧ config.id = inst ∧ config.tunnel = owner) ∧
    ((pool.mem.lookup instanceToConfigMap inst).isSome → ∀ query : Context, query.Untouched →
      (getIngessRules query).Amid execute (pool.Attending inst revision owner) fun rules =>
        rules.writer.delivered = 200 ∧
          Chunk.text (" ".intercalate [inst, owner] ++ "\n") ∈ rules.writer.body) := by
  constructor
  · intro outcome member c answer job here under result unsent accept query untouched named along
    obtain ⟨map, place⟩ := bucket_of_accepted reachable member job here under result unsent accept
    refine (getRevisionIngress_amid untouched named map).mono fun mem ahead => ⟨?_, ?_⟩
    · obtain ⟨later, reaches, rfl⟩ := ahead
      have leads := leads_of_accepted ((reachable.trans reaches).mono fun _ _ _ => trivial)
        (reaches.mem_finished member) job result unsent accept
      exact leads.congr along
    · rw [along _ (by simp), under]
      exact place mem ahead
  · intro present query untouched
    obtain ⟨config, found⟩ := Option.isSome_iff_exists.mp present
    exact (getIngessRules_amid untouched).mono fun _ ahead =>
      flat_of_announced reachable found ahead

end Handlers

/-- The program is about to look the bucket of a revision up. -/
def locates : RegistryM JobResult → Bool
  | .op (@RegistryOp.get .revisions _ _) _ => true
  | _ => false

/-- A program that asks for the time does not find a registration expired. -/
def findsFresh (clock : Time) : RegistryM JobResult → Bool
  | .op .now rest => !locates (rest clock)
  | _ => true

theorem findsFresh_of_expired {timeout clock : Time} {config : ServerlessInstance}
    (expired : Expired timeout clock config) (keys : List String) (reaped : Nat) :
    findsFresh clock (reaping timeout keys (reapIfIdle timeout config reaped)) = false := by
  have evicts : (if clock - config.lastPing ≥ timeout then evict config reaped
      else .pure reaped) = evict config reaped := if_pos expired
  rw [reapIfIdle_eq]
  exact congrArg (fun rest => !locates (reaping timeout keys rest)) evicts

/-- One client alone registers the instance, others deregister it, the reaper finds nothing
expired, and no bucket is published over that of the revision. -/
def attends (inst revision owner : String) (pool : RegistryPool)
    (choice : Choice RegistryJob Nat) : Bool :=
  (match choice with
    | .start (.addInstance c) =>
        c.param APIPathParam.instance != inst || c.getHeader xServerlessSSHClientID == owner
    | .start (.removeInstance c) =>
        c.param APIPathParam.instance != inst || c.getHeader xServerlessSSHClientID != owner
    | .thread index =>
        (pool.threads[index]?).all fun thread => findsFresh pool.mem.clock thread.state
    | _ => true) &&
    match Program.pending pool choice with
    | some (_, @RegistryOp.set .revisions _ key _) =>
        key != revision || (pool.mem.lookup revisionToInstancesMap revision).isNone
    | _ => true

theorem attended_of_attends {inst revision owner : String} {pool : RegistryPool}
    {choice : Choice RegistryJob Nat} (passed : attends inst revision owner pool choice = true) :
    Attended inst revision owner pool choice := by
  obtain ⟨safe, unpublished⟩ := Bool.and_eq_true_iff.mp passed
  refine ⟨?_, ?_, ?_, ?_⟩
  · rintro c rfl here
    simpa [here] using safe
  · rintro c rfl here
    simpa [here] using safe
  · rintro index thread timeout config keys reaped rfl found state rfl expired
    change (pool.threads[index]?).all (fun thread => findsFresh pool.mem.clock thread.state) = true
      at safe
    rw [found, Option.all_some, state, findsFresh_of_expired expired] at safe
    cases safe
  · intro job map pending
    rw [pending] at unpublished
    simpa using unpublished

/-- A registration that the reaper finds in time, and that another client tries to remove. -/
theorem listed_of_attended_single :
    ∃ pool : RegistryPool, (getRevisionIngress (instanceContext .get "p" "r" "s" "v" "" "")).Amid
        execute (pool.Attending "i" "v" "t") (fun listing => listing.Succeeds ∧
          ∃ config, listing.Lists config ∧ config.id = "i" ∧ config.tunnel = "t") ∧
      (getIngessRules { request := ⟨.get, "/ingress-rules", [], []⟩ }).Amid execute
        (pool.Attending "i" "v" "t") fun rules => rules.writer.delivered = 200 ∧
          Chunk.text (" ".intercalate ["i", "t"] ++ "\n") ∈ rules.writer.body := by
  have ran : ∃ (pool : RegistryPool) (spawned : List RegistryOp),
      registryMachine.run (attends "i" "v" "t") (Pool.idle (Memory.initial 0))
        (.start (.addInstance (instanceContext .post "p" "r" "s" "v" "i" "t")) ::
          List.replicate 13 (.thread 0) ++ [.routine 0, .event 10,
            .start (.idleInstancesReaper 50 ["i"]), .thread 0, .thread 0, .thread 0,
            .start (.removeInstance (instanceContext .delete "p" "r" "s" "v" "i" "u"))] ++
          List.replicate 6 (.thread 0)) = some pool ∧
      pool.finished.head? = some ⟨.addInstance (instanceContext .post "p" "r" "s" "v" "i" "t"),
        some (.response (respond (instanceContext .post "p" "r" "s" "v" "i" "t") 202 "t")),
        spawned⟩ ∧
      (pool.mem.lookup instanceToConfigMap "i").isSome := ⟨_, _, rfl, rfl, rfl⟩
  obtain ⟨pool, spawned, ran, first, present⟩ := ran
  have accept : (respond (instanceContext .post "p" "r" "s" "v" "i" "t") 202 "t").Accepted :=
    delivered_sendResponseWithHeaders _ _ _ _ _ _ rfl (by decide)
  have reachable : registryMachine.Reaches (Attended "i" "v" "t")
      (Pool.idle (Memory.initial 0)) pool :=
    (Machine.reaches_of_run ran).mono fun _ _ passed => attended_of_attends passed
  obtain ⟨listed, ruled⟩ := listed_of_attended reachable
  exact ⟨pool, listed _ (List.mem_of_mem_head? first) _ _ rfl rfl rfl rfl rfl accept _ rfl
    ⟨by decide, by decide, by decide, by decide⟩ (by decide), ruled present _ rfl⟩

end CloudRunSsh.Proxy
