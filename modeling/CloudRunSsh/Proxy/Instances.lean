import CloudRunSsh.Concurrency.Sessions
import CloudRunSsh.Proxy.Soundness

/-!
# Requests about different instances

The requests about one instance form a session.  They leave the entries of every other
instance alone, with one exception: the bucket that a first registration publishes may
replace another bucket that was published in the meantime.  It does no harm when that
bucket is empty and nobody is about to store into it.
-/

namespace CloudRunSsh.Proxy

open CloudRunSsh.Concurrency

/-- The instance that a request is about. -/
def RegistryJob.inst : RegistryJob → String
  | .addInstance c | .removeInstance c => c.param APIPathParam.instance
  | .idleInstancesReaper _ _ => ""

/-- A thread is about to store a registration in a bucket. -/
def AboutToStore (pool : RegistryPool) (bucket : InstanceToConfigMap) : Prop :=
  ∃ thread ∈ pool.threads, ∃ key config rest,
    thread.state = .op (@RegistryOp.set .instances bucket key config) rest

/-- No step replaces the bucket of a revision while it holds an entry, or while a thread
is about to store one in it. -/
def KeepsBuckets (pool : RegistryPool) (choice : Choice RegistryJob Nat) : Prop :=
  ∀ job revision bucket old,
    Program.pending pool choice =
      some (job, @RegistryOp.set .revisions revisionToInstancesMap revision bucket) →
    pool.mem.lookup revisionToInstancesMap revision = some old →
    (∀ key, pool.mem.lookup old key = none) ∧ ¬AboutToStore pool old

/-- The step publishes no bucket for a revision that has one. -/
def publishesOnce (pool : RegistryPool) (choice : Choice RegistryJob Nat) : Bool :=
  match Program.pending pool choice with
  | some (_, @RegistryOp.set .revisions map revision _) =>
      (pool.mem.lookup map revision).isNone
  | _ => true

/-- Buckets that are published once are kept. -/
theorem keepsBuckets_of_publishesOnce {pool : RegistryPool}
    {choice : Choice RegistryJob Nat} (once : publishesOnce pool choice = true) :
    KeepsBuckets pool choice := by
  intro job revision bucket old pending published
  simp only [publishesOnce, pending] at once
  rw [published] at once
  cases once

namespace StagePool

/-- A thread is about to store a registration in a published bucket. -/
def AboutToInsert (pool : StagePool) (bucket : Nat) : Prop :=
  ∃ thread ∈ pool.threads, ∃ config stores response,
    thread.state = .insert config bucket stores response

/-- The bucket of a revision can be replaced without harm. -/
def Replaceable (pool : StagePool) (revision : String) : Prop :=
  ∀ old, pool.mem.revisions revision = some old →
    (∀ key, pool.mem.buckets old key = none) ∧ ¬AboutToInsert pool old

/-- The condition on the buckets, for the stages. -/
def KeepsBuckets (pool : StagePool) (choice : Choice RegistryJob Nat) : Prop :=
  ∀ index thread config bucket stores response, choice = .thread index →
    pool.threads[index]? = some thread →
    thread.state = .publish config bucket stores response →
    Replaceable pool config.revision

end StagePool

theorem KeepsBuckets.stages {pool : RegistryPool} {pool' : StagePool}
    {choice : Choice RegistryJob Nat} (relates : stageSimulation.Relates pool pool')
    (keeps : KeepsBuckets pool choice) : StagePool.KeepsBuckets pool' choice := by
  rintro index thread config bucket stores response rfl found state old published
  have pending : Program.pending pool (.thread index : Choice RegistryJob Nat) =
      some (thread.job, @RegistryOp.set .revisions revisionToInstancesMap config.revision
        (bucketRef bucket)) := by
    simp only [Program.pending, relates.getElem?_threads found, Option.bind_some,
      Simulation.thread, state]
    rfl
  have represents : Represents pool.mem pool'.mem := relates.mem
  have stored : pool.mem.lookup revisionToInstancesMap config.revision =
      some (bucketRef old) := by
    rw [represents.revisions, published]
    rfl
  rcases keeps _ _ _ _ pending stored with ⟨empty, nobody⟩
  constructor
  · intro key
    rw [← represents.buckets]
    exact empty key
  · rintro ⟨other, member, entry, stores, response, inserting⟩
    apply nobody
    refine ⟨stageSimulation.thread other, ?_, entry.id, entry, ?_⟩
    · exact relates.mem_threads member
    · simp only [Simulation.thread, inserting]
      exact ⟨_, rfl⟩

/-- The effect concerns the entries of one instance at most. -/
def Effect.About (key : String) : Effect → Prop
  | .place _ own _ | .withdraw _ own | .announce own _ | .retract own => own = key
  | .still | .learn _ _ | .allocate _ | .publish _ _ => True

/-- What a change of the memory to `after` leaves alone of an instance. -/
structure LeavesAlone (key : String) (pool : StagePool) (after : View) : Prop where
  fresh : pool.mem.fresh ≤ after.fresh
  flat : after.flat key = pool.mem.flat key
  known : ∀ level name, pool.mem.known level name = true →
    after.known level name = true
  entries : ∀ bucket, bucket < pool.mem.fresh →
    after.buckets bucket key = pool.mem.buckets bucket key
  kept : ∀ bucket config, after.buckets bucket key = some config →
    pool.mem.buckets bucket key = some config
  published : ∀ revision bucket, pool.mem.revisions revision = some bucket →
    pool.mem.buckets bucket key ≠ none ∨ StagePool.AboutToInsert pool bucket →
    after.revisions revision = some bucket

section Entries

variable {view : View} {own key other : String} (about : own = key) (different : other ≠ key)

include about different

theorem buckets_place {config : ServerlessInstance} {target : Nat} (bucket : Nat) :
    ((Effect.place target own config).apply view).buckets bucket other =
      view.buckets bucket other := by
  have foreign : other ≠ own := fun same => different (same.trans about)
  simp only [Effect.apply, Function.update_apply]
  split
  · rename_i same
    rw [Function.update_of_ne foreign, same]
  · rfl

theorem buckets_withdraw {target : Nat} (bucket : Nat) :
    ((Effect.withdraw target own).apply view).buckets bucket other =
      view.buckets bucket other := by
  have foreign : other ≠ own := fun same => different (same.trans about)
  simp only [Effect.apply, Function.update_apply]
  split
  · rename_i same
    rw [Function.update_of_ne foreign, same]
  · rfl

end Entries

/-- Steps about one instance leave the others alone. -/
theorem Effect.About.leavesAlone {pool : StagePool} {effect : Effect} {key other : String}
    (about : effect.About key) (different : other ≠ key)
    (replaces : ∀ revision bucket, effect = .publish revision bucket →
      StagePool.Replaceable pool revision) :
    LeavesAlone other pool (effect.apply pool.mem) := by
  constructor
  · exact effect.fresh_le pool.mem
  · cases effect with
    | announce own config =>
        have foreign : other ≠ own := fun same => different (same.trans about)
        exact Function.update_of_ne foreign _ _
    | retract own =>
        have foreign : other ≠ own := fun same => different (same.trans about)
        exact Function.update_of_ne foreign _ _
    | still | learn | allocate | place | publish | withdraw => rfl
  · intro level name known
    cases effect with
    | learn level' name' => simp only [Effect.apply, known, Bool.true_or]
    | still | allocate | place | publish | withdraw | announce | retract => exact known
  · intro bucket created
    cases effect with
    | allocate maker =>
        simp only [Effect.apply, Function.update_of_ne (Nat.ne_of_lt created)]
    | place bucket' own config => exact buckets_place about different bucket
    | withdraw bucket' own => exact buckets_withdraw about different bucket
    | still | learn | publish | announce | retract => rfl
  · intro bucket config found
    cases effect with
    | allocate maker =>
        simp only [Effect.apply, Function.update_apply] at found
        split at found
        · cases found
        · exact found
    | place bucket' own config =>
        rw [buckets_place about different] at found
        exact found
    | withdraw bucket' own =>
        rw [buckets_withdraw about different] at found
        exact found
    | still | learn | publish | announce | retract => exact found
  · intro revision bucket published held
    cases effect with
    | publish revision' bucket' =>
        simp only [Effect.apply, Function.update_apply]
        split
        · rename_i same
          subst same
          rcases replaces _ _ rfl bucket published with ⟨empty, nobody⟩
          rcases held with present | inserting
          · exact absurd (empty other) present
          · exact absurd inserting nobody
        · exact published
    | still | learn | allocate | place | withdraw | announce | retract => exact published

/-- The response to a request without a client id. -/
def refusal (c : Context) (config : ProxyConfig) : Context :=
  (c.header xServerlessSSHServerID config.id).abortWithError 400
    "missing SSH_PROXY_CLIENT_ID"

theorem delivered_refusal {c : Context} (unsent : c.writer.sent = none)
    (config : ProxyConfig) : (refusal c config).writer.delivered = 400 := by
  rw [refusal]
  apply Context.delivered_abortWithError _ (by decide)
  rw [Context.sent_header]
  exact unsent

/-- The stages of a registration before its goroutine is started, and those of its
refusal. -/
def Arriving (c : Context) : Stage → Prop
  | .done result =>
      c.getHeader xServerlessSSHClientID = "" ∧
        ∃ config, result = .response (refusal c config)
  | .fault => c.getHeader xServerlessSSHClientID = ""
  | .readClock own clientID => own = c ∧ clientID = c.getHeader xServerlessSSHClientID
  | .announce config response =>
      (∃ ts, config = registration c (c.getHeader xServerlessSSHClientID) ts) ∧
        response = respond c 202 (c.getHeader xServerlessSSHClientID)
  | _ => False

theorem arriving_start (c : Context) : Arriving c (Stage.start (.addInstance c)) := by
  simp only [Stage.start, Stage.entry]
  split
  · rename_i missing
    split
    · exact missing
    · exact ⟨missing, _, rfl⟩
  · exact ⟨rfl, rfl⟩

end CloudRunSsh.Proxy
