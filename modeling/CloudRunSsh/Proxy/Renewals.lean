import CloudRunSsh.Proxy.Removals
import CloudRunSsh.Proxy.Server

/-!
# Renewals during a pass of the reaper

The reaper compares the age of one registration with the timeout, and then removes what
a bucket and the flat map hold about the instance at two later moments.  It removes
expired registrations only when it finds no live one there at the comparison, and when
none is stored there until it is done with the instance.
-/

namespace CloudRunSsh.Proxy

open CloudRunSsh.Concurrency

/-- The registration was last renewed at least the timeout ago. -/
def Expired (timeout clock : Time) (config : ServerlessInstance) : Prop :=
  clock - config.lastPing ≥ timeout

theorem Expired.elapse {timeout clock : Time} {config : ServerlessInstance}
    (expired : Expired timeout clock config) (duration : Nat) :
    Expired timeout (clock + duration) config := by
  have later : clock ≤ clock + duration := Int.le_add_of_nonneg_right (Int.natCast_nonneg _)
  exact Int.le_trans expired (Int.sub_le_sub_right later _)

section Server

variable (pool : RegistryPool)

/-- The reaper has found a registration expired and is about to look its bucket up. -/
def Evicting (timeout : Time) (config : ServerlessInstance) : Prop :=
  ∃ thread ∈ pool.threads, ∃ order keys reaped,
    thread.job = .idleInstancesReaper timeout order ∧
      thread.state = reaping timeout keys (evict config reaped)

/-- The reaper is about to take an instance out of a bucket. -/
def Reaping (timeout : Time) (map : InstanceToConfigMap) (key : String) : Prop :=
  ∃ thread ∈ pool.threads, ∃ order rest,
    thread.job = .idleInstancesReaper timeout order ∧
      thread.state = .op (.getAndDel map key) rest

/-- The reaper is about to delete an instance from the flat map. -/
def Forgetting (timeout : Time) (key : String) : Prop :=
  ∃ thread ∈ pool.threads, ∃ order rest,
    thread.job = .idleInstancesReaper timeout order ∧
      thread.state = .op (.del instanceToConfigMap key) rest

/-- When the reaper finds a registration expired, the flat map and the bucket of the
revision hold no live one of that instance, and none comes in there until the reaper is
done with the instance. -/
structure SparesLive (choice : Choice RegistryJob Nat) : Prop where
  check : ∀ index thread timeout order config keys reaped,
    choice = .thread index → pool.threads[index]? = some thread →
    thread.job = .idleInstancesReaper timeout order →
    thread.state = reaping timeout keys (reapIfIdle timeout config reaped) →
    Expired timeout pool.mem.clock config →
    Only (Expired timeout pool.mem.clock)
        (pool.mem.lookup instanceToConfigMap config.id) ∧
      ∀ map, pool.mem.lookup revisionToInstancesMap config.revision = some map →
        Only (Expired timeout pool.mem.clock) (pool.mem.lookup map config.id)
  bucket : ∀ job (map : InstanceToConfigMap) key config timeout,
    Program.pending pool choice = some (job, @RegistryOp.set .instances map key config) →
    Reaping pool timeout map key ∨
      (∃ found, Evicting pool timeout found ∧ found.id = key ∧
        pool.mem.lookup revisionToInstancesMap found.revision = some map) →
    Expired timeout pool.mem.clock config
  flat : ∀ job key config timeout,
    Program.pending pool choice =
      some (job, @RegistryOp.set .instances instanceToConfigMap key config) →
    (∃ found, Evicting pool timeout found ∧ found.id = key) ∨
      (∃ map, Reaping pool timeout map key) ∨ Forgetting pool timeout key →
    Expired timeout pool.mem.clock config
  published : ∀ job (map : InstanceToConfigMap) config timeout,
    Program.pending pool choice =
      some (job, @RegistryOp.set .revisions revisionToInstancesMap config.revision map) →
    Evicting pool timeout config →
    Only (Expired timeout pool.mem.clock) (pool.mem.lookup map config.id)

end Server

namespace StagePool

variable (pool : StagePool)

/-- The reaper is about to look a bucket up. -/
def Evicting (timeout : Time) (config : ServerlessInstance) : Prop :=
  ∃ thread ∈ pool.threads, ∃ order keys reaped,
    thread.job = .idleInstancesReaper timeout order ∧
      thread.state = .locate timeout config keys reaped

/-- The reaper is about to take an instance out of a bucket. -/
def Reaping (timeout : Time) (bucket : Nat) (key : String) : Prop :=
  ∃ thread ∈ pool.threads, ∃ order own config keys reaped,
    thread.job = .idleInstancesReaper timeout order ∧
      thread.state = .reap own config bucket keys reaped ∧ config.id = key

/-- The reaper is about to delete an instance from the flat map. -/
def Forgetting (timeout : Time) (key : String) : Prop :=
  ∃ thread ∈ pool.threads, ∃ order own cfg keys reaped,
    thread.job = .idleInstancesReaper timeout order ∧
      thread.state = .forget own cfg keys reaped ∧ cfg.id = key

/-- The condition for the stages. -/
structure SparesLive (choice : Choice RegistryJob Nat) : Prop where
  check : ∀ index thread timeout order config keys reaped,
    choice = .thread index → pool.threads[index]? = some thread →
    thread.job = .idleInstancesReaper timeout order →
    thread.state = .age timeout config keys reaped →
    Expired timeout pool.mem.clock config →
    Only (Expired timeout pool.mem.clock) (pool.mem.flat config.id) ∧
      ∀ bucket, pool.mem.revisions config.revision = some bucket →
        Only (Expired timeout pool.mem.clock) (pool.mem.buckets bucket config.id)
  bucket : ∀ job bucket key config timeout,
    pool.pending choice = some (job, .place bucket key config) →
    pool.Reaping timeout bucket key ∨
      (∃ found, pool.Evicting timeout found ∧ found.id = key ∧
        pool.mem.revisions found.revision = some bucket) →
    Expired timeout pool.mem.clock config
  flat : ∀ job key config timeout,
    pool.pending choice = some (job, .announce key config) →
    (∃ found, pool.Evicting timeout found ∧ found.id = key) ∨
      (∃ bucket, pool.Reaping timeout bucket key) ∨ pool.Forgetting timeout key →
    Expired timeout pool.mem.clock config
  published : ∀ job bucket config timeout,
    pool.pending choice = some (job, .publish config.revision bucket) →
    pool.Evicting timeout config →
    Only (Expired timeout pool.mem.clock) (pool.mem.buckets bucket config.id)

end StagePool

section Stages

variable {pool : RegistryPool} {pool' : StagePool} {timeout : Time} {key : String}
variable (relates : stageSimulation.Relates pool pool')

include relates

theorem StagePool.Evicting.server {config : ServerlessInstance}
    (evicting : pool'.Evicting timeout config) : Proxy.Evicting pool timeout config := by
  rcases evicting with ⟨thread, member, order, keys, reaped, job, state⟩
  refine ⟨stageSimulation.thread thread, relates.mem_threads member, order, keys, reaped,
    job, ?_⟩
  simp only [Simulation.thread, state]
  rfl

theorem StagePool.Reaping.server {bucket : Nat}
    (reaping : pool'.Reaping timeout bucket key) :
    Proxy.Reaping pool timeout (bucketRef bucket) key := by
  rcases reaping with ⟨thread, member, order, own, config, keys, reaped, job, state, rfl⟩
  refine ⟨stageSimulation.thread thread, relates.mem_threads member, order, ?_⟩
  simp only [Simulation.thread, state]
  exact ⟨_, job, rfl⟩

theorem StagePool.Forgetting.server (forgetting : pool'.Forgetting timeout key) :
    Proxy.Forgetting pool timeout key := by
  rcases forgetting with ⟨thread, member, order, own, cfg, keys, reaped, job, state, rfl⟩
  refine ⟨stageSimulation.thread thread, relates.mem_threads member, order, ?_⟩
  simp only [Simulation.thread, state]
  exact ⟨_, job, rfl⟩

theorem SparesLive.stages {choice : Choice RegistryJob Nat}
    (spares : SparesLive pool choice) : StagePool.SparesLive pool' choice := by
  have represents : Represents pool.mem pool'.mem := relates.mem
  have published : ∀ {revision bucket}, pool'.mem.revisions revision = some bucket →
      pool.mem.lookup revisionToInstancesMap revision = some (bucketRef bucket) := by
    intro revision bucket found
    rw [represents.revisions, found, Option.map_some]
  constructor
  · rintro index thread timeout order config keys reaped rfl found job state
    rw [← represents.clock, ← represents.flat]
    intro expired
    have running := relates.getElem?_threads found
    have checked := spares.check index _ timeout order config keys reaped rfl running job
      (by simp only [Simulation.thread, state]; rfl) expired
    refine ⟨checked.1, ?_⟩
    intro bucket located
    rw [← represents.buckets]
    exact checked.2 _ (published located)
  · intro job bucket key config timeout pending late
    rw [← represents.clock]
    apply spares.bucket job (bucketRef bucket) key config timeout
      (pending_of_relates relates (by rintro ⟨⟩) pending)
    rcases late with reaping | ⟨found, evicting, own, located⟩
    · exact .inl (reaping.server relates)
    · exact .inr ⟨found, evicting.server relates, own, published located⟩
  · intro job key config timeout pending late
    rw [← represents.clock]
    apply spares.flat job key config timeout (pending_of_relates relates (by rintro ⟨⟩) pending)
    rcases late with ⟨found, evicting, own⟩ | ⟨bucket, reaping⟩ | forgetting
    · exact .inl ⟨found, evicting.server relates, own⟩
    · exact .inr (.inl ⟨bucketRef bucket, reaping.server relates⟩)
    · exact .inr (.inr (forgetting.server relates))
  · intro job bucket config timeout pending evicting
    rw [← represents.clock, ← represents.buckets]
    exact spares.published job (bucketRef bucket) config timeout
      (pending_of_relates relates (by rintro ⟨⟩) pending) (evicting.server relates)

end Stages

/-! ## The outline -/

/-- What holds at a stage of the reaper: the entries that it is going to remove have
expired. -/
def Evicts (timeout : Time) (view : View) : Stage → Prop
  | .visit own _ _ | .age own _ _ _ => own = timeout
  | .locate own config _ _ =>
      own = timeout ∧ Only (Expired timeout view.clock) (view.flat config.id) ∧
        ∀ bucket, view.revisions config.revision = some bucket →
          Only (Expired timeout view.clock) (view.buckets bucket config.id)
  | .reap own config bucket _ _ =>
      own = timeout ∧ Only (Expired timeout view.clock) (view.flat config.id) ∧
        Only (Expired timeout view.clock) (view.buckets bucket config.id)
  | .forget own cfg _ _ =>
      own = timeout ∧ Only (Expired timeout view.clock) (view.flat cfg.id)
  | _ => False

/-- Passes of the reaper only remove what has expired, and start no goroutine. -/
def eviction : Outline View RegistryJob Stage Effect where
  memory _ := True
  thread job stage view := ∀ timeout order,
    job = .idleInstancesReaper timeout order → Evicts timeout view stage
  routine job _ _ := ∀ timeout order, job ≠ .idleInstancesReaper timeout order

theorem Evicts.elapse {timeout : Time} {view : View} {stage : Stage}
    (evicts : Evicts timeout view stage) (duration : Nat) :
    Evicts timeout (view.elapse duration) stage := by
  have later : ∀ {entry}, Only (Expired timeout view.clock) entry →
      Only (Expired timeout (view.elapse duration).clock) entry :=
    fun only => only.mono fun _ expired => expired.elapse duration
  cases stage with
  | locate own config keys reaped =>
      exact ⟨evicts.1, later evicts.2.1, fun bucket located => later (evicts.2.2 bucket located)⟩
  | reap own config bucket keys reaped =>
      exact ⟨evicts.1, later evicts.2.1, later evicts.2.2⟩
  | forget own cfg keys reaped => exact ⟨evicts.1, later evicts.2⟩
  | _ => exact evicts

/-- What the reaper is about to remove stays expired. -/
theorem Evicts.spared {pool : StagePool} {choice : Choice RegistryJob Nat}
    {timeout : Time} {order : List String} {effect : Effect} {job : RegistryJob}
    {thread : Thread RegistryJob Stage Effect} (spares : pool.SparesLive choice)
    (member : thread ∈ pool.threads) (author : thread.job = .idleInstancesReaper timeout order)
    (pending : pool.pending choice = some (job, effect))
    (evicts : Evicts timeout pool.mem thread.state) :
    Evicts timeout (effect.apply pool.mem) thread.state := by
  cases state : thread.state with
  | locate own config keys reaped =>
      rw [state] at evicts
      rcases evicts with ⟨rfl, flat, buckets⟩
      have evicting : pool.Evicting own config :=
        ⟨thread, member, order, keys, reaped, author, state⟩
      simp only [Evicts, Effect.clock_apply, true_and]
      constructor
      · apply flat.flat
        rintro stored rfl
        exact spares.flat job config.id stored own pending (.inl ⟨config, evicting, rfl⟩)
      · intro bucket located
        rcases Effect.revisions_of_some located with before | rfl
        · apply (buckets bucket before).buckets
          rintro stored rfl
          exact spares.bucket job bucket config.id stored own pending
            (.inr ⟨config, evicting, rfl, before⟩)
        · exact spares.published job bucket config own pending evicting
  | reap own config bucket keys reaped =>
      rw [state] at evicts
      rcases evicts with ⟨rfl, flat, buckets⟩
      have reaping : pool.Reaping own bucket config.id :=
        ⟨thread, member, order, own, config, keys, reaped, author, state, rfl⟩
      simp only [Evicts, Effect.clock_apply, true_and]
      constructor
      · apply flat.flat
        rintro stored rfl
        exact spares.flat job config.id stored own pending (.inr (.inl ⟨bucket, reaping⟩))
      · apply buckets.buckets
        rintro stored rfl
        exact spares.bucket job bucket config.id stored own pending (.inl reaping)
  | forget own cfg keys reaped =>
      rw [state] at evicts
      rcases evicts with ⟨rfl, flat⟩
      simp only [Evicts, Effect.clock_apply, true_and]
      apply flat.flat
      rintro stored rfl
      exact spares.flat job cfg.id stored own pending
        (.inr (.inr ⟨thread, member, order, own, cfg, keys, reaped, author, state, rfl⟩))
  | _ =>
      rw [state] at evicts
      exact evicts

/-- The next stage of the reaper. -/
theorem Evicts.act {pool : StagePool} {index : Nat} {timeout : Time} {order : List String}
    {thread : Thread RegistryJob Stage Effect} {effect : Effect} {next : Stage}
    (spares : pool.SparesLive (.thread index)) (sound : pool.mem.Sound)
    (found : pool.threads[index]? = some thread)
    (author : thread.job = .idleInstancesReaper timeout order)
    (acts : thread.state.act pool.mem = .perform effect next)
    (evicts : Evicts timeout pool.mem thread.state) :
    Evicts timeout (effect.apply pool.mem) next := by
  cases state : thread.state with
  | visit own keys reaped =>
      rw [state] at acts evicts
      cases keys with
      | nil => cases acts
      | cons key keys =>
          cases acts
          split <;> exact evicts
  | age own config keys reaped =>
      rw [state] at acts evicts
      have same : own = timeout := evicts
      subst same
      cases acts
      split
      · rename_i expired
        exact ⟨rfl, spares.check index thread own order config keys reaped rfl found author
          state expired⟩
      · rfl
  | locate own config keys reaped =>
      rw [state] at acts evicts
      rcases evicts with ⟨rfl, flat, buckets⟩
      cases acts
      split
      · rename_i bucket located
        exact ⟨rfl, flat, buckets bucket located⟩
      · rfl
  | reap own config bucket keys reaped =>
      rw [state] at acts evicts
      rcases evicts with ⟨rfl, flat, buckets⟩
      cases acts
      split
      · rename_i cfg entry
        refine ⟨rfl, ?_⟩
        rw [sound.keyed _ _ _ entry]
        exact flat
      · rfl
  | forget own cfg keys reaped =>
      rw [state] at acts evicts
      cases acts
      exact evicts.1
  | _ =>
      rw [state] at evicts
      exact evicts.elim

theorem eviction_valid :
    eviction.Valid stageMachine fun (pool : StagePool) choice =>
      pool.SparesLive choice ∧ soundness.Holds pool := by
  constructor
  · rintro pool job _ _ timeout order rfl
    rfl
  · intro pool index thread holds admitted found
    have evicts := holds.thread thread (List.mem_of_getElem? found)
    simp only [stageMachine]
    cases acts : thread.state.act pool.mem with
    | perform effect next =>
        have pending := StagePool.pending_of_act found acts
        refine ⟨trivial, ?_, ?_, fun _ _ kept => kept⟩
        · intro timeout order author
          exact (evicts timeout order author).act admitted.1 admitted.2.memory found author acts
        · intro other foreign _ running kept timeout order author
          exact (kept timeout order author).spared admitted.1 (List.mem_of_getElem? running)
            author pending
    | spawn routine next =>
        rcases Stage.spawn_cases acts with ⟨_, _, state, rfl, rfl⟩ | ⟨_, _, state, rfl, rfl⟩
        all_goals
          rw [state] at evicts
          exact ⟨fun timeout order author => (evicts timeout order author).elim,
            fun timeout order author => (evicts timeout order author).elim⟩
    | finish result => trivial
  · intro pool index job routine holds admitted found
    have pending : StagePool.pending pool (.routine index) = some (job, routine) := found
    refine ⟨trivial, ?_, ?_⟩
    · intro thread member timeout order author
      exact (holds.thread thread member timeout order author).spared admitted.1 member author
        pending
    · intro entry member
      exact holds.routine entry (List.mem_of_mem_eraseIdx member)
  · intro pool duration holds _
    exact ⟨trivial,
      fun thread member timeout order author =>
        (holds.thread thread member timeout order author).elapse duration,
      holds.routine⟩

/-- A step of the reaper removes what has expired only. -/
theorem eviction_step {pool next : StagePool} {choice : Choice RegistryJob Nat}
    {timeout : Time} {order : List String} {config : ServerlessInstance}
    (holds : eviction.Holds pool)
    (author : pool.author choice = some (.idleInstancesReaper timeout order))
    (stepped : stageMachine.step pool choice = some next)
    (removed : pool.mem.Removed next.mem config) : Expired timeout pool.mem.clock config := by
  rcases Machine.step_cases stepped with ⟨job, rfl, rfl⟩ | ⟨index, thread, rfl, found, rfl⟩ |
    ⟨index, job, routine, rfl, found, rfl⟩ | ⟨duration, rfl, rfl⟩
  · cases author
  · simp only [Pool.author, found, Option.map_some, Option.some.injEq] at author
    have evicts := holds.thread thread (List.mem_of_getElem? found) timeout order author
    simp only [stageMachine] at removed
    cases acts : thread.state.act pool.mem with
    | perform effect after =>
        rw [acts] at removed
        cases state : thread.state with
        | reap own config bucket keys reaped =>
            rw [state] at acts evicts
            cases acts
            exact evicts.2.2 _ removed.withdraw
        | forget own cfg keys reaped =>
            rw [state] at acts evicts
            cases acts
            exact evicts.2 _ removed.retract
        | visit own keys reaped =>
            rw [state] at acts
            cases keys with
            | nil => cases acts
            | cons key keys =>
                cases acts
                exact removed.irrefl.elim
        | age | locate =>
            rw [state] at acts
            cases acts
            exact removed.irrefl.elim
        | _ =>
            rw [state] at evicts
            exact evicts.elim
    | spawn routine after =>
        rw [acts] at removed
        exact removed.irrefl.elim
    | finish result =>
        rw [acts] at removed
        exact removed.irrefl.elim
  · simp only [Pool.author, found, Option.map_some, Option.some.injEq] at author
    exact absurd author (holds.routine _ (List.mem_of_getElem? found) timeout order)
  · cases author

/-- The operation deletes nothing. -/
def RegistryOp.Keeps : RegistryOp → Prop
  | .del _ _ | .getAndDel _ _ => False
  | .now | .new _ | .get _ _ | .set _ _ _ | .forEach _ _ => True

theorem addInstance_keeps (c : Context) : (addInstance c).Every RegistryOp.Keeps := by
  have keeps : ∀ {config operation}, OfCascade config operation → operation.Keeps := by
    intro config operation ofCascade
    cases operation with
    | del | getAndDel => exact ofCascade
    | now | new | get | set | forEach => trivial
  rw [addInstance_eq]
  apply getSSHProxyClientID_every
  intro c' clientID _
  cases clientID with
  | none => trivial
  | some clientID =>
      refine ⟨trivial, fun ts => ⟨trivial, ?_⟩⟩
      have inline : (atProjects (registration c' clientID ts) projectToRegionsMap
          (.pure (respond c' 202 clientID))).Inline (OfCascade _) :=
        atProjects_inline _ trivial
      exact inline.every.mono fun _ ofCascade => keeps ofCascade

theorem RegistryOp.Keeps.lookup {operation : RegistryOp} (keeps : operation.Keeps)
    {mem : Memory} {map : InstanceToConfigMap} {key : String} {config : ServerlessInstance}
    (found : mem.lookup map key = some config) (created : map.addr < mem.fresh) :
    (execute operation mem).2.lookup map key ≠ none := by
  have present : mem.lookup map key ≠ none := by
    rw [found]
    nofun
  cases operation with
  | del | getAndDel => exact keeps.elim
  | now | get | forEach => exact present
  | new kind =>
      cases kind with
      | «instances» =>
          have other : map ≠ ⟨mem.fresh⟩ := by
            rintro rfl
            exact Nat.lt_irrefl _ created
          have kept := mem.lookup_clear ⟨mem.fresh⟩ map key
          rw [if_neg other] at kept
          exact kept.trans_ne present
      | revisions | services | regions | projects =>
          exact (Memory.lookup_write_of_kind_ne mem (by decide) _ _).trans_ne present
  | @set kind other stored value =>
      cases kind with
      | «instances» =>
          have inserted := mem.lookup_insert other map stored key value
          split at inserted
          · exact inserted.trans_ne (Option.some_ne_none value)
          · exact inserted.trans_ne present
      | revisions | services | regions | projects =>
          exact (Memory.lookup_write_of_kind_ne mem (by decide) _ _).trans_ne present

/-- No thread or goroutine of a registration deletes anything. -/
theorem keeps_of_pending {guard : RegistryPool → Choice RegistryJob Nat → Prop}
    {mem : Memory} {pool : RegistryPool} {choice : Choice RegistryJob Nat} {c : Context}
    {operation : RegistryOp} (reaches : registryMachine.Reaches guard (Pool.idle mem) pool)
    (pending : Program.pending pool choice = some (.addInstance c, operation)) :
    operation.Keeps := by
  have every : ∀ job : RegistryJob,
      job.program.Every fun operation : RegistryOp =>
        ∀ c, job = .addInstance c → operation.Keeps := by
    intro job
    cases job with
    | addInstance c =>
        have handled : (addInstance c).Every RegistryOp.Keeps := addInstance_keeps c
        have answered : (RegistryJob.addInstance c).program.Every RegistryOp.Keeps :=
          handled.bind fun _ => Program.every_pure _
        exact answered.mono fun _ keeps _ _ => keeps
    | removeInstance c =>
        exact Program.every_of_forall (fun _ _ other => by cases other) _
    | idleInstancesReaper timeout order =>
        exact Program.every_of_forall (fun _ _ other => by cases other) _
  exact Program.permitted_of_reaches every reaches pending c rfl

/-- From here on, only registrations and the reaper take steps, what is stored in one
entry of a map is as recent as a given time, and the reaper does not run so late that the
given time lies beyond its timeout. -/
structure Renewing (map : InstanceToConfigMap) (key : String) (since : Time)
    (pool : RegistryPool) (choice : Choice RegistryJob Nat) : Prop where
  registrations : ∀ c, pool.author choice ≠ some (.removeInstance c)
  stores : ∀ job config,
    Program.pending pool choice = some (job, @RegistryOp.set .instances map key config) →
    since ≤ config.lastPing
  live : ∀ timeout order,
    pool.author choice = some (.idleInstancesReaper timeout order) →
    ¬pool.mem.clock - since ≥ timeout

section Runs

variable {clock : Time} {earlier pool next target : RegistryPool}
variable {choice : Choice RegistryJob Nat} {config : ServerlessInstance}
variable (reachable : registryMachine.Reaches (fun _ _ => True)
  (Pool.idle (Memory.initial clock)) earlier)

include reachable

/-- Every registration that a step of the reaper removes has expired. -/
theorem reaped_expired {timeout : Time} {order : List String}
    (reaches : registryMachine.Reaches SparesLive (Pool.idle earlier.mem) pool)
    (author : pool.author choice = some (.idleInstancesReaper timeout order))
    (stepped : registryMachine.step pool choice = some next)
    (removed : pool.mem.Removed next.mem config) : Expired timeout pool.mem.clock config := by
  rcases sound_of_reachable reachable with ⟨view, represents, sound⟩
  rcases sound.stages represents StagePool.SparesLive
    (fun relates spares => spares.stages relates) reaches with ⟨pool', reaches', relates, _⟩
  have holds := eviction_valid.reaches reaches' (Outline.holds_idle _ trivial)
  have represents' : Represents pool.mem pool'.mem := relates.mem
  rcases relates.step stepped with ⟨next', stepped', relates'⟩
  rw [relates.author] at author
  rw [represents'.clock]
  exact eviction_step holds author stepped' (removed.view represents' relates'.mem)

/-- A map that holds something is not one that has still to be created. -/
theorem addr_lt_fresh {map : InstanceToConfigMap} {key : String}
    (reaches : registryMachine.Reaches SparesLive (Pool.idle earlier.mem) pool)
    (found : pool.mem.lookup map key = some config) : map.addr < pool.mem.fresh := by
  rcases sound_of_reachable reachable with ⟨view, represents, sound⟩
  rcases sound.stages represents (fun _ _ => True) (fun _ _ => trivial) reaches with
    ⟨pool', _, relates, sound'⟩
  have represents' : Represents pool.mem pool'.mem := relates.mem
  rw [represents'.fresh]
  rcases map with ⟨address⟩
  cases address with
  | zero => exact Nat.succ_pos _
  | succ bucket =>
      apply Nat.succ_lt_succ
      apply sound'.memory.allocated bucket key config
      exact (represents'.buckets bucket key).symm.trans found

/-- A step that is renewing in time leaves a registration that is recent. -/
theorem Renewing.step {map : InstanceToConfigMap} {key : String} {since : Time}
    (renewing : Renewing map key since pool choice)
    (reaches : registryMachine.Reaches SparesLive (Pool.idle earlier.mem) pool)
    (stepped : registryMachine.step pool choice = some next)
    (found : pool.mem.lookup map key = some config) (recent : since ≤ config.lastPing) :
    ∃ config', next.mem.lookup map key = some config' ∧ since ≤ config'.lastPing := by
  by_cases same : next.mem.lookup map key = some config
  · exact ⟨config, same, recent⟩
  have internal : ∀ duration, choice ≠ .event duration := by
    rintro duration rfl
    cases stepped
    exact same found
  have changed : next.mem ≠ pool.mem := by
    intro equal
    rw [equal] at same
    exact same found
  rcases Program.pending_of_mem_ne stepped internal changed with
    ⟨job, operation, pending, result⟩
  cases after : next.mem.lookup map key with
  | some config' =>
      rw [result] at after
      rcases lookup_of_execute after with old | rfl
      · rw [result] at same
        exact absurd (after.trans (old.symm.trans found)) same
      · exact ⟨config', rfl, renewing.stores job config' pending⟩
  | none =>
      have author := Program.author_of_pending pending
      exfalso
      cases job with
      | addInstance c =>
          rw [result] at after
          exact (keeps_of_pending reaches pending).lookup found
            (addr_lt_fresh reachable reaches found) after
      | removeInstance c => exact renewing.registrations c author
      | idleInstancesReaper timeout order =>
          have expired := reaped_expired reachable reaches author stepped
            ⟨map, key, found, same⟩
          exact renewing.live timeout order author
            (Int.le_trans expired (Int.sub_le_sub_left recent _))

/-- The reaper removes expired registrations only, in every run in which no live one is
where it is going to remove something, and a registration that is renewed in time stays,
or is replaced by one that is as recent. -/
theorem reaper_spares_live
    (reaches : registryMachine.Reaches SparesLive (Pool.idle earlier.mem) pool) :
    (∀ {choice next timeout order config},
      pool.author choice = some (.idleInstancesReaper timeout order) →
      registryMachine.step pool choice = some next → pool.mem.Removed next.mem config →
      pool.mem.clock - config.lastPing ≥ timeout) ∧
    ∀ {map : InstanceToConfigMap} {key config target},
      pool.mem.lookup map key = some config →
      registryMachine.Reaches (fun pool choice => SparesLive pool choice ∧
        Renewing map key config.lastPing pool choice) pool target →
      ∃ config', target.mem.lookup map key = some config' ∧
        config.lastPing ≤ config'.lastPing := by
  refine ⟨fun author stepped removed => reaped_expired reachable reaches author stepped removed,
    ?_⟩
  intro map key config target found renewing
  induction renewing with
  | refl => exact ⟨config, found, Int.le_refl _⟩
  | tail reached admitted stepped ih =>
      rcases ih with ⟨current, held, recent⟩
      exact admitted.2.step reachable (reaches.trans (reached.mono fun _ _ both => both.1))
        stepped held recent

end Runs

/-- All entries of a map of instances have expired. -/
def allExpired (timeout : Time) (mem : Memory) (map : InstanceToConfigMap) : Bool :=
  (mem.read map).items.all fun entry => decide (mem.clock - entry.2.lastPing ≥ timeout)

/-- While the reaper runs, nothing is stored, and everything has expired. -/
def undisturbed (pool : RegistryPool) (choice : Choice RegistryJob Nat) : Bool :=
  pool.jobs.all fun
    | .idleInstancesReaper timeout _ =>
        (match Program.pending pool choice with
          | some (_, .set _ _ _) => false
          | _ => true) &&
          allExpired timeout pool.mem instanceToConfigMap &&
          (pool.mem.read revisionToInstancesMap).items.all fun entry =>
            allExpired timeout pool.mem entry.2
    | _ => true

theorem only_of_allExpired {timeout : Time} {mem : Memory} {map : InstanceToConfigMap}
    (expired : allExpired timeout mem map = true) (key : String) :
    Only (Expired timeout mem.clock) (mem.lookup map key) := by
  intro config found
  have entry : (key, config) ∈ (mem.read map).items := Dict.mem_items.mpr found
  have idle : mem.clock - config.lastPing ≥ timeout :=
    of_decide_eq_true (List.all_eq_true.mp expired _ entry)
  exact idle

theorem sparesLive_of_undisturbed {pool : RegistryPool} {choice : Choice RegistryJob Nat}
    (passed : undisturbed pool choice = true) : SparesLive pool choice := by
  have reaper : ∀ {thread : Thread RegistryJob (RegistryM JobResult) RegistryOp}
      {timeout order}, thread ∈ pool.threads →
      thread.job = .idleInstancesReaper timeout order →
      (∀ {job kind} {map : Ref kind} {key value},
        Program.pending pool choice ≠ some (job, .set map key value)) ∧
      allExpired timeout pool.mem instanceToConfigMap = true ∧
      ∀ entry ∈ (pool.mem.read revisionToInstancesMap).items,
        allExpired timeout pool.mem entry.2 = true := by
    intro thread timeout order member job
    have checked := List.all_eq_true.mp passed _ (Pool.mem_jobs_of_thread member)
    simp only [job, Bool.and_eq_true] at checked
    refine ⟨?_, checked.1.2, List.all_eq_true.mp checked.2⟩
    intro author kind map key value pending
    rw [pending] at checked
    cases checked.1.1
  have evicting : ∀ {timeout config}, Evicting pool timeout config →
      ∀ {job kind} {map : Ref kind} {key value},
        Program.pending pool choice ≠ some (job, .set map key value) := by
    rintro timeout config ⟨thread, member, order, keys, reaped, job, state⟩
    exact (reaper member job).1
  have reaping : ∀ {timeout map key}, Reaping pool timeout map key →
      ∀ {job kind} {map : Ref kind} {key value},
        Program.pending pool choice ≠ some (job, .set map key value) := by
    rintro timeout map key ⟨thread, member, order, rest, job, state⟩
    exact (reaper member job).1
  have forgetting : ∀ {timeout key}, Forgetting pool timeout key →
      ∀ {job kind} {map : Ref kind} {key value},
        Program.pending pool choice ≠ some (job, .set map key value) := by
    rintro timeout key ⟨thread, member, order, rest, job, state⟩
    exact (reaper member job).1
  constructor
  · rintro index thread timeout order config keys reaped rfl found job _ _
    have expired := (reaper (List.mem_of_getElem? found) job).2
    refine ⟨only_of_allExpired expired.1 _, ?_⟩
    intro map located
    exact only_of_allExpired (expired.2 (config.revision, map) (Dict.mem_items.mpr located)) _
  · intro job map key config timeout pending late
    rcases late with late | ⟨found, late, _⟩
    · exact absurd pending (reaping late)
    · exact absurd pending (evicting late)
  · intro job key config timeout pending late
    rcases late with ⟨found, late, _⟩ | ⟨map, late⟩ | late
    · exact absurd pending (evicting late)
    · exact absurd pending (reaping late)
    · exact absurd pending (forgetting late)
  · intro job map config timeout pending late
    exact absurd pending (evicting late)

/-- A registration that nobody renews is removed when it has expired. -/
theorem reaper_spares_live_expired :
    ∃ (pool next : RegistryPool) (config : ServerlessInstance),
      pool.mem.Removed next.mem config ∧ pool.mem.clock - config.lastPing ≥ 50 := by
  have ran : ∃ (pool next : RegistryPool) (config : ServerlessInstance),
      registryMachine.run undisturbed (Pool.idle (Memory.initial 0))
        (.start (.addInstance (instanceContext .post "p" "r" "s" "v" "i" "t")) ::
          List.replicate 13 (.thread 0) ++ [.routine 0, .event 100,
            .start (.idleInstancesReaper 50 ["i"]), .thread 0, .thread 0, .thread 0]) =
        some pool ∧
      pool.author (.thread 0 : Choice RegistryJob Nat) = some (.idleInstancesReaper 50 ["i"]) ∧
      registryMachine.step pool (.thread 0) = some next ∧
      pool.mem.lookup (bucketRef 0) "i" = some config ∧
      next.mem.lookup (bucketRef 0) "i" = none :=
    ⟨_, _, _, rfl, rfl, rfl, rfl, rfl⟩
  rcases ran with ⟨pool, next, config, ran, author, stepped, found, gone⟩
  have reaches := (Machine.reaches_of_run ran).mono
    fun pool choice passed => sparesLive_of_undisturbed passed
  have removed : pool.mem.Removed next.mem config := by
    refine ⟨bucketRef 0, "i", found, ?_⟩
    rw [gone]
    nofun
  exact ⟨pool, next, config, removed,
    (reaper_spares_live .refl reaches).1 author stepped removed⟩

/-- A registration that is renewed between the check and the removal is removed. -/
theorem reaper_removes_live :
    ∃ (pool next : RegistryPool) (config : ServerlessInstance),
      registryMachine.Reaches (fun _ _ => True) (Pool.idle (Memory.initial 0)) pool ∧
      pool.author (.thread 0 : Choice RegistryJob Nat) = some (.idleInstancesReaper 50 ["i"]) ∧
      registryMachine.step pool (.thread 0) = some next ∧
      pool.mem.Removed next.mem config ∧ ¬pool.mem.clock - config.lastPing ≥ 50 := by
  have ran : ∃ (pool next : RegistryPool) (config : ServerlessInstance),
      registryMachine.run (fun _ _ => true) (Pool.idle (Memory.initial 0))
        (.start (.addInstance (instanceContext .post "p" "r" "s" "v" "i" "t")) ::
          List.replicate 13 (.thread 0) ++ [.routine 0, .event 100,
            .start (.idleInstancesReaper 50 ["i"]), .thread 0, .thread 0,
            .start (.addInstance (instanceContext .post "p" "r" "s" "v" "i" "t"))] ++
          List.replicate 8 (.thread 1) ++ [.routine 0, .thread 0]) = some pool ∧
      pool.author (.thread 0 : Choice RegistryJob Nat) = some (.idleInstancesReaper 50 ["i"]) ∧
      registryMachine.step pool (.thread 0) = some next ∧
      pool.mem.lookup (bucketRef 0) "i" = some config ∧
      next.mem.lookup (bucketRef 0) "i" = none ∧
      ¬pool.mem.clock - config.lastPing ≥ 50 :=
    ⟨_, _, _, rfl, rfl, rfl, rfl, rfl, by decide⟩
  rcases ran with ⟨pool, next, config, ran, author, stepped, found, gone, live⟩
  refine ⟨pool, next, config, ?_, author, stepped, ⟨bucketRef 0, "i", found, ?_⟩, live⟩
  · exact (Machine.reaches_of_run ran).mono fun _ _ _ => trivial
  · rw [gone]
    nofun

end CloudRunSsh.Proxy
