import CloudRunSsh.Concurrency.Simulation
import CloudRunSsh.Proxy.Jobs
import CloudRunSsh.Proxy.View

/-!
# Threads as stages over the view

What is left of a thread is one of finitely many kinds of stages, each named by its
next operation.  The stages form a machine over the view of the registry, and the
server's own machine refines it, step by step.
-/

namespace CloudRunSsh.Proxy

open CloudRunSsh.Concurrency

/-- The stages of a thread.  `stores` are the levels whose lookup missed, which are
stored on the way back; `keys` are the keys that a pass of the reaper has still to
visit. -/
inductive Stage where
  | done (result : JobResult)
  | fault
  -- registration
  | readClock (c : Context) (clientID : String)
  | announce (config : ServerlessInstance) (response : Context)
  | descend (config : ServerlessInstance) (level : Level) (stores : List Level)
      (response : Context)
  | revision (config : ServerlessInstance) (stores : List Level) (response : Context)
  | insert (config : ServerlessInstance) (bucket : Nat) (stores : List Level)
      (response : Context)
  | allocate (config : ServerlessInstance) (stores : List Level) (response : Context)
  | fill (config : ServerlessInstance) (bucket : Nat) (stores : List Level)
      (response : Context)
  | publish (config : ServerlessInstance) (bucket : Nat) (stores : List Level)
      (response : Context)
  | store (config : ServerlessInstance) (stores : List Level) (response : Context)
  -- deregistration
  | seek (c : Context) (clientID : String) (level : Level)
  | seekRevision (c : Context) (clientID : String)
  | check (c : Context) (clientID : String) (bucket : Nat)
  | take (c : Context) (clientID : String) (bucket : Nat) (config : ServerlessInstance)
  | retract (c : Context) (cfg : ServerlessInstance)
  -- reaper
  | visit (timeout : Time) (keys : List String) (reaped : Nat)
  | age (timeout : Time) (config : ServerlessInstance) (keys : List String)
      (reaped : Nat)
  | locate (timeout : Time) (config : ServerlessInstance) (keys : List String)
      (reaped : Nat)
  | reap (timeout : Time) (config : ServerlessInstance) (bucket : Nat)
      (keys : List String) (reaped : Nat)
  | forget (timeout : Time) (cfg : ServerlessInstance) (keys : List String)
      (reaped : Nat)

/-- One step of a thread. -/
inductive Action where
  | perform (effect : Effect) (stage : Stage)
  | spawn (routine : Effect) (stage : Stage)
  | finish (result : Option JobResult)

/-- The name that a request addresses at a level. -/
def Level.param (level : Level) (c : Context) : String :=
  match level with
  | .project => c.param APIPathParam.project
  | .region => c.param APIPathParam.region
  | .service => c.param APIPathParam.service

namespace Stage

/-- The first stage of a handler, after the check of the client id. -/
def entry (c : Context) (proceed : Context → String → Stage) : Stage :=
  if c.getHeader xServerlessSSHClientID = "" then
    match getProxyConfig c with
    | none => .fault
    | some config =>
        .done (.response ((c.header xServerlessSSHServerID config.id).abortWithError 400
          "missing SSH_PROXY_CLIENT_ID"))
  else proceed c (c.getHeader xServerlessSSHClientID)

/-- The first stage of a job. -/
def start : RegistryJob → Stage
  | .addInstance c => entry c .readClock
  | .removeInstance c => entry c fun c clientID => .seek c clientID .project
  | .idleInstancesReaper timeout order => .visit timeout order 0

/-- The lookup below a level of a registration. -/
def descendBelow (config : ServerlessInstance) (level : Level) (stores : List Level)
    (response : Context) : Stage :=
  match level.below with
  | some below => .descend config below stores response
  | none => .revision config stores response

/-- The lookup below a level of a deregistration. -/
def seekBelow (c : Context) (clientID : String) (level : Level) : Stage :=
  match level.below with
  | some below => .seek c clientID below
  | none => .seekRevision c clientID

/-- The end of a deregistration that found nothing to remove. -/
def notFound (c : Context) (clientID : String) : Stage :=
  .done (.response (respond c 404 clientID))

/-- What a thread does next. -/
def act : Stage → View → Action
  | .done result, _ => .finish (some result)
  | .fault, _ => .finish none
  | .readClock c clientID, view =>
      .perform .still
        (.announce (registration c clientID view.clock) (respond c 202 clientID))
  | .announce config response, _ =>
      .spawn (.announce config.id config) (.descend config .project [] response)
  | .descend config level stores response, view =>
      .perform .still
        (descendBelow config level
          (if view.known level (level.key config) then stores else level :: stores)
          response)
  | .revision config stores response, view =>
      .perform .still
        (match view.revisions config.revision with
        | some bucket => .insert config bucket stores response
        | none => .allocate config stores response)
  | .insert config bucket stores response, _ =>
      .perform (.place bucket config.id config) (.store config stores response)
  | .allocate config stores response, view =>
      .perform (.allocate config.id) (.fill config view.fresh stores response)
  | .fill config bucket stores response, _ =>
      .perform (.place bucket config.id config) (.publish config bucket stores response)
  | .publish config bucket stores response, _ =>
      .perform (.publish config.revision bucket) (.store config stores response)
  | .store _ [] response, _ => .finish (some (.response response))
  | .store config (level :: stores) response, _ =>
      .perform (.learn level (level.key config)) (.store config stores response)
  | .seek c clientID level, view =>
      .perform .still
        (if view.known level (level.param c) then seekBelow c clientID level
        else notFound c clientID)
  | .seekRevision c clientID, view =>
      .perform .still
        (match view.revisions (c.param APIPathParam.revision) with
        | some bucket => .check c clientID bucket
        | none => notFound c clientID)
  | .check c clientID bucket, view =>
      .perform .still
        (match view.buckets bucket (c.param APIPathParam.instance) with
        | some config =>
            if clientID = config.tunnel then .take c clientID bucket config
            else notFound c clientID
        | none => notFound c clientID)
  | .take c clientID bucket config, view =>
      .perform (.withdraw bucket config.id)
        (match view.buckets bucket config.id with
        | some cfg => .retract c cfg
        | none => notFound c clientID)
  | .retract c cfg, _ =>
      .spawn (.retract cfg.id) (.done (.response (deregistered c cfg)))
  | .visit _ [] reaped, _ => .finish (some (.reaped reaped))
  | .visit timeout (key :: keys) reaped, view =>
      .perform .still
        (match view.flat key with
        | some config => .age timeout config keys reaped
        | none => .visit timeout keys reaped)
  | .age timeout config keys reaped, view =>
      .perform .still
        (if view.clock - config.lastPing ≥ timeout then
          .locate timeout config keys reaped
        else .visit timeout keys reaped)
  | .locate timeout config keys reaped, view =>
      .perform .still
        (match view.revisions config.revision with
        | some bucket => .reap timeout config bucket keys reaped
        | none => .visit timeout keys reaped)
  | .reap timeout config bucket keys reaped, view =>
      .perform (.withdraw bucket config.id)
        (match view.buckets bucket config.id with
        | some cfg => .forget timeout cfg keys reaped
        | none => .visit timeout keys reaped)
  | .forget timeout cfg keys reaped, _ =>
      .perform (.retract cfg.id) (.visit timeout keys (reaped + 1))

/-- The stages that start a goroutine. -/
theorem spawn_cases {stage next : Stage} {routine : Effect} {view : View}
    (acts : stage.act view = .spawn routine next) :
    (∃ config response, stage = .announce config response ∧
      routine = .announce config.id config ∧ next = .descend config .project [] response) ∨
    ∃ c cfg, stage = .retract c cfg ∧ routine = .retract cfg.id ∧
      next = .done (.response (deregistered c cfg)) := by
  cases stage with
  | announce config response =>
      cases acts
      exact .inl ⟨config, response, rfl, rfl, rfl⟩
  | retract c cfg =>
      cases acts
      exact .inr ⟨c, cfg, rfl, rfl, rfl⟩
  | visit timeout keys reaped => cases keys <;> cases acts
  | store config stores response => cases stores <;> cases acts
  | _ => cases acts

end Stage

/-- The step of a thread over a view. -/
def Action.next (view : View) : Action → Next View Stage Effect (Option JobResult)
  | .perform effect stage => .continue (effect.apply view) stage
  | .spawn routine stage => .spawn routine stage
  | .finish result => .finish result

/-- The machine of the stages. -/
def stageMachine : Machine View RegistryJob Stage Effect (Option JobResult) Nat where
  start := Stage.start
  next _ stage view := (stage.act view).next view
  fire := Effect.apply
  elapse := View.elapse

/-- A configuration of the machine of the stages. -/
abbrev StagePool := Pool View RegistryJob Stage Effect (Option JobResult)

/-- The stores on the way back from the descent. -/
def flush {Value : Type} (config : ServerlessInstance) :
    List Level → RegistryM Value → RegistryM Value
  | [], rest => rest
  | level :: stores, rest =>
      .op (.set level.map (level.key config) level.child) fun _ => flush config stores rest

/-- The descent from a level. -/
def descent {Value : Type} (config : ServerlessInstance) :
    Level → RegistryM Value → RegistryM Value
  | .project => atProjects config projectToRegionsMap
  | .region => atRegions config regionToServicesMap
  | .service => atServices config serviceToRevisionsMap

/-- The lookups of a deregistration from a level. -/
def pursuit (c : Context) (clientID : String) : Level → RegistryM Context
  | .project => deregister c clientID
  | .region => seekRegion c clientID regionToServicesMap
  | .service => seekService c clientID serviceToRevisionsMap

/-- A handler's program as that of its thread. -/
def answering (program : RegistryM Context) : RegistryM JobResult :=
  program.bind fun c => .pure (.response c)

/-- What the reaper does with an instance, followed by the rest of its pass. -/
def reaping (timeout : Time) (keys : List String) (program : RegistryM Nat) :
    RegistryM JobResult :=
  (program.bind fun reaped => idleInstancesReaper timeout keys reaped).bind fun reaped =>
    .pure (.reaped reaped)

/-- The program that a stage stands for. -/
def Stage.program : Stage → RegistryM JobResult
  | .done result => .pure result
  | .fault => .panic
  | .readClock c clientID => answering (register c clientID)
  | .announce config response =>
      answering (.go (@RegistryOp.set .instances instanceToConfigMap config.id config)
        (descent config .project (.pure response)))
  | .descend config level stores response =>
      answering (descent config level (flush config stores (.pure response)))
  | .revision config stores response =>
      answering (atRevisions config revisionToInstancesMap
        (flush config stores (.pure response)))
  | .insert config bucket stores response =>
      answering (.op (@RegistryOp.set .instances (bucketRef bucket) config.id config)
        fun _ => flush config stores (.pure response))
  | .allocate config stores response =>
      answering (.op (.new .instances) fun bucket =>
        .op (.set bucket config.id config) fun _ =>
          .op (.set revisionToInstancesMap config.revision bucket) fun _ =>
            flush config stores (.pure response))
  | .fill config bucket stores response =>
      answering (.op (@RegistryOp.set .instances (bucketRef bucket) config.id config)
        fun _ =>
          .op (@RegistryOp.set .revisions revisionToInstancesMap config.revision
            (bucketRef bucket)) fun _ => flush config stores (.pure response))
  | .publish config bucket stores response =>
      answering (.op (@RegistryOp.set .revisions revisionToInstancesMap config.revision
        (bucketRef bucket)) fun _ => flush config stores (.pure response))
  | .store config stores response => answering (flush config stores (.pure response))
  | .seek c clientID level => answering (pursuit c clientID level)
  | .seekRevision c clientID =>
      answering (Proxy.seekRevision c clientID revisionToInstancesMap)
  | .check c clientID bucket => answering (checkTunnel c clientID (bucketRef bucket))
  | .take c clientID bucket config =>
      answering (takeInstance c clientID (bucketRef bucket) config)
  | .retract c cfg =>
      answering (.go (.del instanceToConfigMap cfg.id) (.pure (deregistered c cfg)))
  | .visit timeout keys reaped => reaping timeout keys (.pure reaped)
  | .age timeout config keys reaped =>
      reaping timeout keys (reapIfIdle timeout config reaped)
  | .locate timeout config keys reaped => reaping timeout keys (evict config reaped)
  | .reap timeout config bucket keys reaped =>
      reaping timeout keys (reapFrom (bucketRef bucket) config reaped)
  | .forget timeout cfg keys reaped => reaping timeout keys (forgetInstance cfg reaped)

section Refinement

variable {mem : Memory} {view : View} {job : RegistryJob}

/-- A step of a program matches a step of a stage. -/
abbrev StepMatches (job : RegistryJob) (mem : Memory) (program : RegistryM JobResult)
    (next : Next View Stage Effect (Option JobResult)) : Prop :=
  (registryMachine.next job program mem).Matches Represents Stage.program
    Effect.operation next

/-- A lookup whose answer is known leads to the stage for that answer. -/
theorem matches_lookup (represents : Represents mem view) {kind : MapType}
    {map : Ref kind} {key : String} {rest : Option kind.Value → RegistryM JobResult}
    {answer : Option kind.Value} {stage : Stage} (found : mem.lookup map key = answer)
    (continues : rest answer = stage.program) :
    StepMatches job mem (.op (.get map key) rest) (.continue view stage) := by
  refine ⟨mem, ?_, represents⟩
  rw [← continues, ← found]
  rfl

/-- An operation with an effect leads to the stage after it. -/
theorem matches_effect (represents : Represents mem view) (effect : Effect)
    {rest : effect.operation.Res → RegistryM JobResult} {stage : Stage}
    (continues : rest (execute effect.operation mem).1 = stage.program) :
    StepMatches job mem (.op effect.operation rest)
      (.continue (effect.apply view) stage) := by
  refine ⟨(execute effect.operation mem).2, ?_, represents.apply effect⟩
  rw [← continues]
  rfl

theorem matches_descend (represents : Represents mem view) (config : ServerlessInstance)
    (level : Level) (stores : List Level) (response : Context) :
    StepMatches job mem (Stage.descend config level stores response).program
      (((Stage.descend config level stores response).act view).next view) := by
  have found := represents.known level (level.key config)
  simp only [Stage.act, Action.next, Effect.apply]
  cases known : view.known level (level.key config) with
  | true =>
      rw [known, if_pos rfl] at found
      cases level <;> exact matches_lookup represents found rfl
  | false =>
      rw [known, if_neg (by decide)] at found
      cases level <;> exact matches_lookup represents found rfl

theorem matches_seek (represents : Represents mem view) (c : Context) (clientID : String)
    (level : Level) :
    StepMatches job mem (Stage.seek c clientID level).program
      (((Stage.seek c clientID level).act view).next view) := by
  have found := represents.known level (level.param c)
  simp only [Stage.act, Action.next, Effect.apply]
  cases known : view.known level (level.param c) with
  | true =>
      rw [known, if_pos rfl] at found
      cases level <;> exact matches_lookup represents found rfl
  | false =>
      rw [known, if_neg (by decide)] at found
      cases level <;> exact matches_lookup represents found rfl

/-- Every step of a stage is a step of the program it stands for. -/
theorem stage_matches (represents : Represents mem view) (stage : Stage) :
    StepMatches job mem stage.program ((stage.act view).next view) := by
  cases stage with
  | done result => rfl
  | fault => rfl
  | readClock c clientID =>
      refine ⟨mem, ?_, represents⟩
      rw [← represents.clock]
      rfl
  | announce config response => rfl
  | descend config level stores response =>
      exact matches_descend represents config level stores response
  | revision config stores response =>
      have found := represents.revisions config.revision
      simp only [Stage.act, Action.next, Effect.apply]
      cases known : view.revisions config.revision with
      | none =>
          rw [known] at found
          exact matches_lookup represents found rfl
      | some bucket =>
          rw [known] at found
          exact matches_lookup represents found rfl
  | insert config bucket stores response =>
      exact matches_effect represents (.place bucket config.id config) rfl
  | allocate config stores response =>
      refine ⟨_, ?_, represents.apply (.allocate config.id)⟩
      have created : (⟨mem.fresh⟩ : InstanceToConfigMap) = bucketRef view.fresh := by
        rw [represents.fresh, bucketRef]
      simp only [Stage.program]
      rw [← created]
      rfl
  | fill config bucket stores response =>
      exact matches_effect represents (.place bucket config.id config) rfl
  | publish config bucket stores response =>
      exact matches_effect represents (.publish config.revision bucket) rfl
  | store config stores response =>
      cases stores with
      | nil => rfl
      | cons level stores =>
          exact matches_effect represents (.learn level (level.key config)) rfl
  | seek c clientID level => exact matches_seek represents c clientID level
  | seekRevision c clientID =>
      have found := represents.revisions (c.param APIPathParam.revision)
      simp only [Stage.act, Action.next, Effect.apply]
      cases known : view.revisions (c.param APIPathParam.revision) with
      | none =>
          rw [known] at found
          exact matches_lookup represents found rfl
      | some bucket =>
          rw [known] at found
          exact matches_lookup represents found rfl
  | check c clientID bucket =>
      have found := represents.buckets bucket (c.param APIPathParam.instance)
      simp only [Stage.act, Action.next, Effect.apply]
      cases known : view.buckets bucket (c.param APIPathParam.instance) with
      | none =>
          rw [known] at found
          exact matches_lookup represents found rfl
      | some config =>
          rw [known] at found
          apply matches_lookup represents found
          dsimp only
          split <;> rfl
  | take c clientID bucket config =>
      have found := represents.buckets bucket config.id
      apply matches_effect represents (.withdraw bucket config.id)
      change Program.bind _ _ = _
      simp only [Effect.operation, execute, found]
      cases view.buckets bucket config.id <;> rfl
  | retract c cfg => rfl
  | visit timeout keys reaped =>
      cases keys with
      | nil => rfl
      | cons key keys =>
          have found := represents.flat key
          simp only [Stage.act, Action.next, Effect.apply]
          cases known : view.flat key with
          | none =>
              rw [known] at found
              exact matches_lookup represents found rfl
          | some config =>
              rw [known] at found
              exact matches_lookup represents found rfl
  | age timeout config keys reaped =>
      have idle : Stage.program (.age timeout config keys reaped) =
          reaping timeout keys (.op .now fun current =>
            if current - config.lastPing ≥ timeout then evict config reaped
            else .pure reaped) := by
        rw [← reapIfIdle_eq]
        rfl
      rw [idle]
      simp only [Stage.act, Action.next, Effect.apply]
      refine ⟨mem, ?_, represents⟩
      by_cases expired : view.clock - config.lastPing ≥ timeout
      · rw [if_pos expired]
        rw [← represents.clock] at expired
        have continues : (if mem.clock - config.lastPing ≥ timeout then
            evict config reaped else .pure reaped) = evict config reaped :=
          if_pos expired
        exact congrArg (fun rest => Next.continue mem (reaping timeout keys rest)) continues
      · rw [if_neg expired]
        rw [← represents.clock] at expired
        have continues : (if mem.clock - config.lastPing ≥ timeout then
            evict config reaped else .pure reaped) = .pure reaped := if_neg expired
        exact congrArg (fun rest => Next.continue mem (reaping timeout keys rest)) continues
  | locate timeout config keys reaped =>
      have found := represents.revisions config.revision
      simp only [Stage.act, Action.next, Effect.apply]
      cases known : view.revisions config.revision with
      | none =>
          rw [known] at found
          exact matches_lookup represents found rfl
      | some bucket =>
          rw [known] at found
          exact matches_lookup represents found rfl
  | reap timeout config bucket keys reaped =>
      have found := represents.buckets bucket config.id
      apply matches_effect represents (.withdraw bucket config.id)
      change Program.bind _ _ = _
      simp only [Effect.operation, execute, found]
      cases view.buckets bucket config.id <;> rfl
  | forget timeout cfg keys reaped =>
      exact matches_effect represents (.retract cfg.id) rfl

theorem start_program (job : RegistryJob) : job.program = (Stage.start job).program := by
  cases job with
  | addInstance c =>
      simp only [RegistryJob.program, addInstance_eq, getSSHProxyClientID, Stage.start,
        Stage.entry]
      split
      · cases getProxyConfig c <;> rfl
      · rfl
  | removeInstance c =>
      simp only [RegistryJob.program, removeInstance_eq, getSSHProxyClientID, Stage.start,
        Stage.entry]
      split
      · cases getProxyConfig c <;> rfl
      · rfl
  | idleInstancesReaper timeout order => rfl

end Refinement

/-- The server refines the machine of the stages. -/
def stageSimulation : Simulation registryMachine stageMachine where
  related := Represents
  state _ := Stage.program
  routine := Effect.operation
  start := start_program
  next _ stage represents := stage_matches represents stage
  fire effect represents := represents.apply effect
  elapse duration represents := represents.elapse duration

end CloudRunSsh.Proxy
