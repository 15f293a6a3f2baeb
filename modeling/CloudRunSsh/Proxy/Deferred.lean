import Mathlib.Data.List.Induction
import CloudRunSsh.Proxy.Instances
import CloudRunSsh.Proxy.Paths

/-!
# Deferred updates of the flat map

A request changes the bucket of its instance at once and the flat map in a goroutine.
The goroutines of one instance run in any order, so the flat map ends up with what the
goroutine that happens to run last has written.  It agrees with the buckets when that
goroutine is the one that was started last.
-/

namespace CloudRunSsh.Proxy

open CloudRunSsh.Concurrency

/-- Requests about one instance are made one after another, always under the same
path. -/
def OneAtATime {Mem Local Routine Result : Type} (path : String → Path)
    (pool : Pool Mem RegistryJob Local Routine Result)
    (choice : Choice RegistryJob Nat) : Prop :=
  ∀ job, choice = .start job →
    (∃ c, (job = .addInstance c ∨ job = .removeInstance c) ∧ c.writer.sent = none ∧
      c.path = path (c.param APIPathParam.instance)) ∧
    ∀ thread ∈ pool.threads, thread.job.inst ≠ job.inst

theorem OneAtATime.stages {path : String → Path} {pool : RegistryPool} {pool' : StagePool}
    {choice : Choice RegistryJob Nat} (relates : stageSimulation.Relates pool pool')
    (oneAtATime : OneAtATime path pool choice) : OneAtATime path pool' choice := by
  intro job started
  rcases oneAtATime job started with ⟨request, threads⟩
  refine ⟨request, ?_⟩
  intro thread member
  exact threads (stageSimulation.thread thread) (relates.mem_threads member)

/-- A goroutine that is the only pending one of its instance does what the goroutine
started last for the instance does. -/
def LastStartedLast (pool : RegistryPool) (choice : Choice RegistryJob Nat) : Prop :=
  ∀ index job routine, choice = .routine index →
    pool.routines[index]? = some (job, routine) →
    (pool.session RegistryJob.inst job.inst).routines = [(job, routine)] →
    (pool.session RegistryJob.inst job.inst).started.getLast? = some routine

/-- All entries of an instance are in the bucket of its revision, or in a bucket that its
own request has created. -/
def Confined (revision key : String) (own : Option Nat) (view : View) : Prop :=
  ∀ bucket config, view.buckets bucket key = some config →
    view.revisions revision = some bucket ∨ own = some bucket

/-- The bucket of the revision holds what it should about the instance, and no other
bucket holds anything. -/
def Steady (revision key : String) (value : Option ServerlessInstance) (view : View) :
    Prop :=
  view.bucketEntry revision key = value ∧ Confined revision key none view

/-- A bucket that a request about the instance has created and not published. -/
structure Private (key : String) (bucket : Nat) (view : View) : Prop where
  created : bucket < view.fresh
  maker : view.maker bucket = key
  unpublished : ∀ revision, view.revisions revision ≠ some bucket

/-- What holds of the instance once the goroutine of a registration has been started. -/
def Placing (config : ServerlessInstance) (response : Context) (view : View) :
    Stage → Prop
  | .descend own _ _ answer | .revision own _ answer | .allocate own _ answer =>
      (own = config ∧ answer = response) ∧ Confined config.revision config.id none view
  | .insert own bucket _ answer =>
      (own = config ∧ answer = response) ∧ Confined config.revision config.id none view ∧
        view.revisions config.revision = some bucket
  | .fill own bucket _ answer =>
      (own = config ∧ answer = response) ∧ Confined config.revision config.id none view ∧
        Private config.id bucket view
  | .publish own bucket _ answer =>
      (own = config ∧ answer = response) ∧
        Confined config.revision config.id (some bucket) view ∧
        Private config.id bucket view ∧ view.buckets bucket config.id = some config
  | .store own _ answer =>
      (own = config ∧ answer = response) ∧ Steady config.revision config.id (some config) view
  | _ => False

/-- The stages of a deregistration before it takes anything, and those of its failure. -/
def Seeking (key : String) (c : Context) : Stage → Prop
  | .done result => ∃ c', result = .response c' ∧ ¬c'.Accepted
  | .fault => True
  | .seek own _ _ | .seekRevision own _ | .check own _ _ => own = c
  | .take own _ _ config => own = c ∧ config.id = key
  | _ => False

/-- A request about the instance, as it comes in. -/
structure Addresses (revision key : String) (c : Context) : Prop where
  inst : c.param APIPathParam.instance = key
  revision : c.param APIPathParam.revision = revision
  unsent : c.writer.sent = none

/-- What holds of a session in the course of a request.  `before` is what the bucket held
about the instance when the request came in. -/
inductive Handling (revision key : String) (before : Option ServerlessInstance)
    (view : View) : RegistryJob → Stage → List Effect → Prop where
  | arriving {c : Context} {stage : Stage} (addresses : Addresses revision key c)
      (arriving : Arriving c stage) (steady : Steady revision key before view) :
      Handling revision key before view (.addInstance c) stage []
  | placing {c : Context} {ts : Time} {stage : Stage} (addresses : Addresses revision key c)
      (placing : Placing (registration c (c.getHeader xServerlessSSHClientID) ts)
        (respond c 202 (c.getHeader xServerlessSSHClientID)) view stage) :
      Handling revision key before view (.addInstance c) stage
        [.announce key (registration c (c.getHeader xServerlessSSHClientID) ts)]
  | seeking {c : Context} {stage : Stage} (addresses : Addresses revision key c)
      (seeking : Seeking key c stage) (steady : Steady revision key before view) :
      Handling revision key before view (.removeInstance c) stage []
  | taken {c : Context} {cfg : ServerlessInstance} (addresses : Addresses revision key c)
      (own : cfg.id = key) (gone : Steady revision key none view) :
      Handling revision key before view (.removeInstance c) (.retract c cfg) []
  | removed {c : Context} {cfg : ServerlessInstance} (addresses : Addresses revision key c)
      (gone : Steady revision key none view) :
      Handling revision key before view (.removeInstance c)
        (.done (.response (deregistered c cfg))) [.retract key]

/-- The client was told that its request succeeded. -/
def Succeeded {Routine : Type}
    (outcome : Outcome RegistryJob Routine (Option JobResult)) : Bool :=
  match outcome.result with
  | some (.response c) => c.writer.delivered == 202
  | _ => false

/-- What a goroutine leaves in the flat map. -/
def RegistryOp.leaves : RegistryOp → Option ServerlessInstance
  | @RegistryOp.set .instances _ _ config => some config
  | _ => none

/-- What the goroutine started last leaves in the flat map. -/
def left (started : List Effect) : Option ServerlessInstance :=
  started.getLast?.bind fun effect => effect.operation.leaves

/-- A request starts a goroutine if and only if it succeeds. -/
def Faithful (key : String) (outcome : Outcome RegistryJob Effect (Option JobResult)) :
    Prop :=
  if Succeeded outcome then
    match outcome.job with
    | .addInstance c => ∃ ts, outcome.spawned =
        [.announce key (registration c (c.getHeader xServerlessSSHClientID) ts)]
    | .removeInstance _ => outcome.spawned = [.retract key]
    | .idleInstancesReaper _ _ => False
  else outcome.spawned = []

/-- What holds of the session of an instance. -/
structure Deferral (revision : String → String) (key : String) (view : View)
    (session : Session RegistryJob Stage Effect (Option JobResult)) : Prop where
  flat : session.routines = [] → view.flat key = left session.started
  routines : ∀ entry ∈ session.routines, entry.2.About key ∧ entry.2.Detached
  finished : ∀ outcome ∈ session.finished, Faithful key outcome
  threads : session.threads = [] ∧
      Steady (revision key) key (left session.started) view ∨
    ∃ thread, session.threads = [thread] ∧
      Handling (revision key) key
        (left (session.finished.flatMap fun outcome => outcome.spawned)) view thread.job
        thread.state thread.spawned

section Foreign

variable {revision key : String} {value : Option ServerlessInstance} {pool : StagePool}
variable {after : View}

theorem Confined.spared {own : Option Nat} (confined : Confined revision key own pool.mem)
    (alone : LeavesAlone key pool after) : Confined revision key own after := by
  intro bucket config found
  have before := alone.kept bucket config found
  rcases confined bucket config before with published | created
  · left
    apply alone.published _ _ published
    left
    rw [before]
    nofun
  · exact .inr created

theorem Steady.spared (steady : Steady revision key value pool.mem)
    (sound : pool.mem.Sound) (alone : LeavesAlone key pool after) :
    Steady revision key value after := by
  refine ⟨?_, steady.2.spared alone⟩
  cases value with
  | none =>
      apply Option.eq_none_iff_forall_ne_some.mpr
      intro config found
      rcases Option.bind_eq_some_iff.mp found with ⟨bucket, _, entry⟩
      have before := alone.kept bucket config entry
      rcases steady.2 bucket config before with published | created
      · have missing := steady.1
        rw [View.bucketEntry, published, Option.bind_some, before] at missing
        cases missing
      · cases created
  | some config =>
      rcases Option.bind_eq_some_iff.mp steady.1 with ⟨bucket, published, entry⟩
      have present : pool.mem.buckets bucket key ≠ none := by
        rw [entry]
        exact Option.some_ne_none config
      rw [View.bucketEntry, alone.published _ _ published (.inl present), Option.bind_some,
        alone.entries bucket (sound.published _ _ published)]
      exact entry

/-- A private bucket is published by requests about its own instance only. -/
theorem Private.spared {bucket : Nat} {effect : Effect} {view : View}
    (isPrivate : Private key bucket view)
    (made : ∀ revision own, effect = .publish revision own → view.maker own ≠ key) :
    Private key bucket (effect.apply view) := by
  rcases isPrivate with ⟨created, maker, unpublished⟩
  refine ⟨lt_of_lt_of_le created (effect.fresh_le view), ?_, ?_⟩
  · cases effect with
    | allocate other =>
        simp only [Effect.apply, Function.update_of_ne (Nat.ne_of_lt created)]
        exact maker
    | still | learn | place | publish | withdraw | announce | retract => exact maker
  · intro revision
    cases effect with
    | publish revision' own =>
        have different : own ≠ bucket := by
          rintro rfl
          exact made _ _ rfl maker
        simp only [Effect.apply, Function.update_apply]
        split
        · intro equal
          exact different (Option.some.inj equal)
        · exact unpublished revision
    | still | learn | allocate | place | withdraw | announce | retract =>
        exact unpublished revision

theorem Placing.spared {config : ServerlessInstance} {response : Context} {stage : Stage}
    {effect : Effect} (placing : Placing config response pool.mem stage)
    (sound : pool.mem.Sound) (alone : LeavesAlone config.id pool (effect.apply pool.mem))
    (made : ∀ revision own, effect = .publish revision own →
      pool.mem.maker own ≠ config.id)
    (live : ∃ thread ∈ pool.threads, thread.state = stage) :
    Placing config response (effect.apply pool.mem) stage := by
  cases stage with
  | descend own level stores answer | revision own stores answer
  | allocate own stores answer => exact ⟨placing.1, placing.2.spared alone⟩
  | insert own bucket stores answer =>
      rcases placing with ⟨same, confined, published⟩
      rcases live with ⟨thread, member, state⟩
      refine ⟨same, confined.spared alone, ?_⟩
      exact alone.published _ _ published (.inr ⟨thread, member, own, stores, answer, state⟩)
  | fill own bucket stores answer =>
      rcases placing with ⟨same, confined, isPrivate⟩
      exact ⟨same, confined.spared alone, isPrivate.spared made⟩
  | publish own bucket stores answer =>
      rcases placing with ⟨same, confined, isPrivate, entry⟩
      refine ⟨same, confined.spared alone, isPrivate.spared made, ?_⟩
      rw [alone.entries bucket isPrivate.created]
      exact entry
  | store own stores answer =>
      exact ⟨placing.1, placing.2.spared sound alone⟩
  | done | fault | readClock | announce | seek | seekRevision | check | take | retract
  | visit | age | locate | reap | forget => exact placing.elim

theorem Handling.spared {before : Option ServerlessInstance}
    {thread : Thread RegistryJob Stage Effect} {effect : Effect}
    (handling : Handling revision key before pool.mem thread.job thread.state thread.spawned)
    (sound : pool.mem.Sound) (alone : LeavesAlone key pool (effect.apply pool.mem))
    (made : ∀ revision own, effect = .publish revision own → pool.mem.maker own ≠ key)
    (live : thread ∈ pool.threads) :
    Handling revision key before (effect.apply pool.mem) thread.job thread.state
      thread.spawned := by
  have running : ∃ other ∈ pool.threads, other.state = thread.state := ⟨thread, live, rfl⟩
  generalize thread.job = job, thread.state = stage, thread.spawned = spawned
    at handling running
  cases handling with
  | arriving addresses arriving steady =>
      exact .arriving addresses arriving (steady.spared sound alone)
  | placing addresses placing =>
      have own := addresses.inst
      subst own
      exact .placing addresses (placing.spared sound alone made running)
  | seeking addresses seeking steady =>
      exact .seeking addresses seeking (steady.spared sound alone)
  | taken addresses own gone => exact .taken addresses own (gone.spared sound alone)
  | removed addresses gone => exact .removed addresses (gone.spared sound alone)

theorem Deferral.spared {revision : String → String} {effect : Effect}
    {session : Session RegistryJob Stage Effect (Option JobResult)}
    (deferral : Deferral revision key pool.mem session) (sound : pool.mem.Sound)
    (alone : LeavesAlone key pool (effect.apply pool.mem))
    (made : ∀ revision own, effect = .publish revision own → pool.mem.maker own ≠ key)
    (live : ∀ thread ∈ session.threads, thread ∈ pool.threads) :
    Deferral revision key (effect.apply pool.mem) session := by
  refine ⟨?_, deferral.routines, deferral.finished, ?_⟩
  · intro drained
    rw [alone.flat]
    exact deferral.flat drained
  · rcases deferral.threads with ⟨none, steady⟩ | ⟨thread, one, handling⟩
    · exact .inl ⟨none, steady.spared sound alone⟩
    · refine .inr ⟨thread, one, handling.spared sound alone made (live thread ?_)⟩
      rw [one]
      exact List.mem_singleton_self thread

end Foreign

section Own

variable {revision key : String} {before : Option ServerlessInstance} {pool : StagePool}
variable {c : Context} {config : ServerlessInstance}

/-- What a step of a request has to establish about its session. -/
def Continues (revision key : String) (before : Option ServerlessInstance)
    (pool : StagePool) (job : RegistryJob) (spawned : List Effect) : Action → Prop
  | .perform effect next =>
      Handling revision key before (effect.apply pool.mem) job next spawned ∧
        (effect.About key ∧ (effect.apply pool.mem).flat = pool.mem.flat) ∧
        ∀ revision bucket, effect = .publish revision bucket →
          StagePool.Replaceable pool revision ∧ pool.mem.maker bucket = key
  | .spawn routine next =>
      Handling revision key before pool.mem job next (spawned ++ [routine]) ∧
        routine.About key ∧ routine.Detached
  | .finish result =>
      Faithful key ⟨job, result, spawned⟩ ∧
        ∀ started, left started = before →
          Steady revision key (left (started ++ spawned)) pool.mem

theorem left_append (started : List Effect) (routine : Effect) :
    left (started ++ [routine]) = routine.operation.leaves := by
  rw [left, List.getLast?_concat]
  rfl

/-- A lookup changes nothing. -/
theorem Continues.look {job : RegistryJob} {spawned : List Effect} {next : Stage}
    (handling : Handling revision key before pool.mem job next spawned) :
    Continues revision key before pool job spawned (.perform .still next) :=
  ⟨handling, ⟨trivial, rfl⟩, fun _ _ equal => by cases equal⟩

/-- A request that fails changes nothing. -/
theorem Continues.fail {job : RegistryJob} {result : Option JobResult}
    (steady : Steady revision key before pool.mem)
    (failed : Succeeded (⟨job, result, []⟩ : Outcome RegistryJob Effect _) = false) :
    Continues revision key before pool job [] (.finish result) := by
  constructor
  · rw [Faithful, failed]
    rfl
  · rintro started rfl
    rw [List.append_nil]
    exact steady

theorem Arriving.act {stage : Stage} (addresses : Addresses revision key c)
    (arriving : Arriving c stage) (steady : Steady revision key before pool.mem) :
    Continues revision key before pool (.addInstance c) [] (stage.act pool.mem) := by
  cases stage with
  | done result =>
      rcases arriving with ⟨_, config, rfl⟩
      apply Continues.fail steady
      simp only [Succeeded, delivered_refusal addresses.unsent]
      decide
  | fault => exact Continues.fail steady rfl
  | readClock own clientID =>
      rcases arriving with ⟨rfl, rfl⟩
      exact Continues.look (.arriving addresses ⟨⟨pool.mem.clock, rfl⟩, rfl⟩ steady)
  | announce own response =>
      rcases arriving with ⟨⟨ts, rfl⟩, rfl⟩
      have inst := addresses.inst
      subst inst
      have revision := addresses.revision
      subst revision
      exact ⟨.placing addresses ⟨⟨rfl, rfl⟩, steady.2⟩, rfl, rfl⟩
  | descend | revision | insert | allocate | fill | publish | store | seek
  | seekRevision | check | take | retract | visit | age | locate | reap | forget =>
      exact arriving.elim

/-- A store into a bucket, next to entries that are confined. -/
theorem Confined.place {view : View} {own : Option Nat} {bucket : Nat}
    (confined : Confined revision key own view)
    (placed : view.revisions revision = some bucket ∨ own = some bucket) :
    Confined revision key own ((Effect.place bucket key config).apply view) := by
  intro other entry found
  simp only [Effect.apply, Function.update_apply] at found
  split at found
  · rename_i same
    rw [same]
    exact placed
  · exact confined other entry found

/-- Every step of a registration whose goroutine has been started. -/
theorem Placing.act {stage : Stage} {ts : Time} (addresses : Addresses revision key c)
    (placing : Placing (registration c (c.getHeader xServerlessSSHClientID) ts)
      (respond c 202 (c.getHeader xServerlessSSHClientID)) pool.mem stage)
    (sound : pool.mem.Sound)
    (keeps : ∀ own bucket stores response, stage = .publish own bucket stores response →
      StagePool.Replaceable pool own.revision) :
    Continues revision key before pool (.addInstance c)
      [.announce key (registration c (c.getHeader xServerlessSSHClientID) ts)]
      (stage.act pool.mem) := by
  have inst := addresses.inst
  subst inst
  have named := addresses.revision
  subst named
  cases stage with
  | descend own level stores answer =>
      apply Continues.look
      apply Handling.placing addresses
      cases level with
      | project | region | service => exact placing
  | revision own stores answer =>
      rcases placing with ⟨⟨rfl, rfl⟩, confined⟩
      apply Continues.look
      apply Handling.placing addresses
      split
      · rename_i bucket published
        exact ⟨⟨rfl, rfl⟩, confined, published⟩
      · exact ⟨⟨rfl, rfl⟩, confined⟩
  | insert own bucket stores answer =>
      rcases placing with ⟨⟨rfl, rfl⟩, confined, published⟩
      refine ⟨.placing addresses ⟨⟨rfl, rfl⟩, ?_, ?_⟩, ⟨rfl, rfl⟩, ?_⟩
      · simp only [View.bucketEntry, Effect.apply, published, Option.bind_some,
          Function.update_self]
      · exact confined.place (.inl published)
      · intro revision target equal
        cases equal
  | allocate own stores answer =>
      rcases placing with ⟨⟨rfl, rfl⟩, confined⟩
      refine ⟨.placing addresses ⟨⟨rfl, rfl⟩, ?_, ?_⟩, ⟨trivial, rfl⟩, ?_⟩
      · intro bucket entry found
        simp only [Effect.apply, Function.update_apply] at found
        split at found
        · cases found
        · exact confined bucket entry found
      · refine ⟨Nat.lt_succ_self _, Function.update_self .., ?_⟩
        intro revision published
        exact absurd (sound.published revision _ published) (Nat.lt_irrefl _)
      · intro revision target equal
        cases equal
  | fill own bucket stores answer =>
      rcases placing with ⟨⟨rfl, rfl⟩, confined, isPrivate⟩
      refine ⟨.placing addresses ⟨⟨rfl, rfl⟩, ?_, ?_, ?_⟩, ⟨rfl, rfl⟩, ?_⟩
      · apply Confined.place _ (.inr rfl)
        intro other entry found
        exact .inl ((confined other entry found).resolve_right fun created => by cases created)
      · exact ⟨isPrivate.created, isPrivate.maker, isPrivate.unpublished⟩
      · simp only [Effect.apply, Function.update_self]
      · intro revision target equal
        cases equal
  | publish own bucket stores answer =>
      rcases placing with ⟨⟨rfl, rfl⟩, confined, isPrivate, entry⟩
      have replaceable := keeps _ bucket stores _ rfl
      refine ⟨.placing addresses ⟨⟨rfl, rfl⟩, ?_, ?_⟩, ⟨trivial, rfl⟩, ?_⟩
      · simp only [View.bucketEntry, Effect.apply, Function.update_self, Option.bind_some]
        exact entry
      · -- the bucket that is replaced holds nothing, so all entries are in the new one
        intro other config found
        left
        rcases confined other config found with old | new
        · have missing : (none : Option ServerlessInstance) = some config :=
            ((replaceable other old).1 _).symm.trans found
          cases missing
        · rw [← new]
          exact Function.update_self ..
      · rintro revision target ⟨rfl, rfl⟩
        exact ⟨replaceable, isPrivate.maker⟩
  | store own stores answer =>
      rcases placing with ⟨⟨rfl, rfl⟩, steady⟩
      cases stores with
      | nil =>
          have delivered : (respond c 202
              (c.getHeader xServerlessSSHClientID)).writer.delivered = 202 :=
            delivered_sendResponseWithHeaders _ _ _ _ _ _ addresses.unsent (by decide)
          constructor
          · rw [Faithful, if_pos]
            · exact ⟨ts, rfl⟩
            · simp only [Succeeded, delivered]
              decide
          · intro started _
            rw [left_append]
            exact steady
      | cons level stores =>
          refine ⟨.placing addresses ⟨⟨rfl, rfl⟩, steady⟩, ⟨trivial, rfl⟩, ?_⟩
          intro revision target equal
          cases equal
  | done | fault | readClock | announce | seek | seekRevision | check | take | retract
  | visit | age | locate | reap | forget => exact placing.elim

theorem delivered_notFound (unsent : c.writer.sent = none) (clientID : String) :
    (respond c 404 clientID).writer.delivered = 404 :=
  delivered_sendResponseWithHeaders _ _ _ _ _ _ unsent (by decide)

/-- Every step of a deregistration that has not taken anything yet. -/
theorem Seeking.act {stage : Stage} (addresses : Addresses revision key c)
    (seeking : Seeking key c stage) (steady : Steady revision key before pool.mem)
    (sound : pool.mem.Sound) :
    Continues revision key before pool (.removeInstance c) [] (stage.act pool.mem) := by
  have rejected : ∀ clientID, Seeking key c (Stage.notFound c clientID) := by
    intro clientID
    refine ⟨_, rfl, ?_⟩
    rw [Context.Accepted, delivered_notFound addresses.unsent]
    decide
  cases stage with
  | done result =>
      rcases seeking with ⟨c', rfl, failed⟩
      apply Continues.fail steady
      simp only [Succeeded, beq_eq_false_iff_ne]
      exact failed
  | fault => exact Continues.fail steady rfl
  | seek own clientID level =>
      have same : own = c := seeking
      subst same
      apply Continues.look
      apply Handling.seeking addresses _ steady
      split
      · cases level with
        | project | region | service => exact rfl
      · exact rejected clientID
  | seekRevision own clientID =>
      have same : own = c := seeking
      subst same
      apply Continues.look
      apply Handling.seeking addresses _ steady
      split
      · exact rfl
      · exact rejected clientID
  | check own clientID bucket =>
      have same : own = c := seeking
      subst same
      apply Continues.look
      apply Handling.seeking addresses _ steady
      split
      · rename_i config found
        split
        · exact ⟨rfl, (sound.keyed _ _ _ found).trans addresses.inst⟩
        · exact rejected clientID
      · exact rejected clientID
  | take own clientID bucket config =>
      rcases seeking with ⟨rfl, inst⟩
      subst inst
      refine ⟨?_, ⟨rfl, rfl⟩, fun _ _ equal => by cases equal⟩
      cases entry : pool.mem.buckets bucket config.id with
      | none =>
          rw [View.apply_withdraw_of_none entry]
          exact .seeking addresses (rejected clientID) steady
      | some cfg =>
          have published := (steady.2 bucket cfg entry).resolve_right fun created => by
            cases created
          refine .taken addresses (sound.keyed _ _ _ entry) ⟨?_, ?_⟩
          · simp only [View.bucketEntry, Effect.apply, published, Option.bind_some,
              Function.update_self]
          · intro other config' found
            simp only [Effect.apply, Function.update_apply] at found
            split at found
            · rename_i same
              rw [same]
              exact .inl published
            · exact steady.2 other config' found
  | readClock | announce | descend | revision | insert | allocate | fill | publish
  | store | retract | visit | age | locate | reap | forget => exact seeking.elim

/-- Every step of a request. -/
theorem Handling.act {job : RegistryJob} {stage : Stage} {spawned : List Effect}
    (handling : Handling revision key before pool.mem job stage spawned)
    (sound : pool.mem.Sound)
    (keeps : ∀ own bucket stores response, stage = .publish own bucket stores response →
      StagePool.Replaceable pool own.revision) :
    Continues revision key before pool job spawned (stage.act pool.mem) := by
  cases handling with
  | arriving addresses arriving steady => exact arriving.act addresses steady
  | placing addresses placing => exact placing.act addresses sound keeps
  | seeking addresses seeking steady => exact seeking.act addresses steady sound
  | @taken c cfg addresses own gone =>
      subst own
      exact ⟨.removed addresses gone, rfl, trivial⟩
  | @removed c cfg addresses gone =>
      have delivered : (deregistered c cfg).writer.delivered = 202 :=
        delivered_sendResponseWithHeaders _ _ _ _ _ _ addresses.unsent (by decide)
      constructor
      · rw [Faithful, if_pos]
        simp only [Succeeded, delivered]
        decide
      · intro started _
        exact (left_append started (.retract key)).symm ▸ gone

theorem seeking_start {c : Context} (addresses : Addresses revision key c) :
    Seeking key c (Stage.start (.removeInstance c)) := by
  simp only [Stage.start, Stage.entry]
  split
  · split
    · trivial
    · rename_i config _
      refine ⟨_, rfl, ?_⟩
      have delivered := delivered_refusal addresses.unsent config
      rw [Context.Accepted]
      exact fun accepted => absurd (delivered.symm.trans accepted) (by decide)
  · exact rfl

end Own

/-- A goroutine that is the only pending one of its instance does what the goroutine
started last for the instance does. -/
def StagePool.LastStartedLast (pool : StagePool) (choice : Choice RegistryJob Nat) : Prop :=
  ∀ index job routine, choice = .routine index →
    pool.routines[index]? = some (job, routine) →
    (pool.session RegistryJob.inst job.inst).routines = [(job, routine)] →
    ∃ latest, (pool.session RegistryJob.inst job.inst).started.getLast? = some latest ∧
      latest.operation = routine.operation

/-- The guard of requests with deferred updates, together with what holds in every
run. -/
def DeferralGuard (path : String → Path) (pool : StagePool)
    (choice : Choice RegistryJob Nat) : Prop :=
  ((OneAtATime path pool choice ∧ StagePool.KeepsBuckets pool choice) ∧
    StagePool.LastStartedLast pool choice) ∧ soundness.Holds pool

section Sessions

variable {revision key : String} {before : Option ServerlessInstance} {view : View}

/-- What happens to the clock and the flat map does not concern the buckets. -/
theorem Handling.unaffected {job : RegistryJob} {stage : Stage} {spawned : List Effect}
    (handling : Handling revision key before view job stage spawned) (clock : Time)
    (flat : String → Option ServerlessInstance) :
    Handling revision key before { view with clock, flat } job stage spawned := by
  cases handling with
  | arriving addresses arriving steady => exact .arriving addresses arriving steady
  | placing addresses placing =>
      apply Handling.placing addresses
      cases stage with
      | fill own bucket stores answer =>
          rcases placing with ⟨same, confined, ⟨created, maker, unpublished⟩⟩
          exact ⟨same, confined, ⟨created, maker, unpublished⟩⟩
      | publish own bucket stores answer =>
          rcases placing with ⟨same, confined, ⟨created, maker, unpublished⟩, entry⟩
          exact ⟨same, confined, ⟨created, maker, unpublished⟩, entry⟩
      | descend | revision | insert | allocate | store => exact placing
      | done | fault | readClock | announce | seek | seekRevision | check | take | retract
      | visit | age | locate | reap | forget => exact placing.elim
  | seeking addresses seeking steady => exact .seeking addresses seeking steady
  | taken addresses own gone => exact .taken addresses own gone
  | removed addresses gone => exact .removed addresses gone

/-- What happens to the clock, and to the flat map of a session whose goroutines have
not all run. -/
theorem Deferral.unaffected {revision : String → String}
    {session : Session RegistryJob Stage Effect (Option JobResult)}
    {routines : List (RegistryJob × Effect)} (clock : Time)
    {flat : String → Option ServerlessInstance}
    (deferral : Deferral revision key view session)
    (left : routines = [] → flat key = left session.started)
    (pending : ∀ entry ∈ routines, entry ∈ session.routines) :
    Deferral revision key { view with clock, flat } { session with routines } := by
  refine ⟨left, ?_, deferral.finished, ?_⟩
  · intro entry member
    exact deferral.routines entry (pending entry member)
  · rcases deferral.threads with ⟨none, steady⟩ | ⟨thread, one, handling⟩
    · exact .inl ⟨none, steady⟩
    · exact .inr ⟨thread, one, handling.unaffected clock flat⟩

section Steps

variable {revision : String → String} {thread : Thread RegistryJob Stage Effect}
variable {session : Session RegistryJob Stage Effect (Option JobResult)}

theorem Deferral.handling (deferral : Deferral revision key view session)
    (one : session.threads = [thread]) :
    Handling (revision key) key
      (left (session.finished.flatMap fun outcome => outcome.spawned)) view thread.job
      thread.state thread.spawned := by
  rcases deferral.threads with ⟨none, _⟩ | ⟨thread', one', handling⟩
  · rw [none] at one
    cases one
  · rw [one'] at one
    cases one
    exact handling

theorem Deferral.continue (deferral : Deferral revision key view session)
    (one : session.threads = [thread]) {after : View} {next : Stage}
    (flat : after.flat = view.flat)
    (continues : Handling (revision key) key
      (left (session.finished.flatMap fun outcome => outcome.spawned)) after thread.job
      next thread.spawned) :
    Deferral revision key after
      { session with threads := [{ thread with state := next }] } := by
  refine ⟨?_, deferral.routines, deferral.finished, .inr ⟨_, rfl, continues⟩⟩
  intro drained
  have settled := deferral.flat drained
  rw [Session.started, one] at settled
  rw [flat]
  exact settled

theorem Deferral.spawn (deferral : Deferral revision key view session) {routine : Effect} {next : Stage}
    (continues : Handling (revision key) key
      (left (session.finished.flatMap fun outcome => outcome.spawned)) view thread.job
      next (thread.spawned ++ [routine]))
    (detached : routine.About key ∧ routine.Detached) :
    Deferral revision key view
      { session with
        threads := [{ thread with state := next, spawned := thread.spawned ++ [routine] }]
        routines := session.routines ++ [(thread.job, routine)] } := by
  refine ⟨?_, ?_, deferral.finished, .inr ⟨_, rfl, continues⟩⟩
  · intro drained
    exact absurd drained (List.append_ne_nil_of_right_ne_nil _ (List.cons_ne_nil _ _))
  · intro entry member
    rcases List.mem_append.mp member with old | new
    · exact deferral.routines entry old
    · rw [List.mem_singleton.mp new]
      exact detached

theorem Deferral.finish (deferral : Deferral revision key view session)
    (one : session.threads = [thread]) {result : Option JobResult}
    (faithful : Faithful key ⟨thread.job, result, thread.spawned⟩)
    (steady : Steady (revision key) key
      (left ((session.finished.flatMap fun outcome => outcome.spawned) ++ thread.spawned))
      view) :
    Deferral revision key view
      { session with
        threads := []
        finished := session.finished ++ [⟨thread.job, result, thread.spawned⟩] } := by
  have started : @Session.started RegistryJob Stage Effect (Option JobResult)
      { session with
        threads := []
        finished := session.finished ++ [⟨thread.job, result, thread.spawned⟩] } =
      (session.finished.flatMap fun outcome => outcome.spawned) ++ thread.spawned := by
    simp only [Session.started, List.flatMap_append, List.flatMap_cons, List.flatMap_nil,
      List.append_nil]
  refine ⟨?_, deferral.routines, ?_, .inl ⟨rfl, ?_⟩⟩
  · intro drained
    have settled := deferral.flat drained
    rw [Session.started, one, List.flatMap_cons, List.flatMap_nil, List.append_nil]
      at settled
    rw [started]
    exact settled
  · intro outcome member
    rcases List.mem_append.mp member with old | new
    · exact deferral.finished outcome old
    · rw [List.mem_singleton.mp new]
      exact faithful
  · rw [started]
    exact steady

end Steps

/-- A goroutine changes nothing but the entry of its instance in the flat map. -/
theorem Effect.Detached.apply {effect : Effect} (detached : effect.Detached)
    (about : effect.About key) (view : View) :
    ∃ flat, effect.apply view = { view with clock := view.clock, flat } ∧
      flat key = effect.operation.leaves := by
  cases effect with
  | announce own config =>
      refine ⟨_, rfl, ?_⟩
      rw [show own = key from about]
      exact Function.update_self ..
  | retract own =>
      refine ⟨_, rfl, ?_⟩
      rw [show own = key from about]
      exact Function.update_self ..
  | still | learn | allocate | place | publish | withdraw => exact detached.elim

theorem deferral_idle {revision : String → String} (clock : Time) :
    Deferral revision key (View.initial clock) ⟨[], [], []⟩ := by
  refine ⟨fun _ => rfl, fun _ member => absurd member List.not_mem_nil,
    fun _ member => absurd member List.not_mem_nil, .inl ⟨rfl, rfl, ?_⟩⟩
  intro bucket config found
  cases found

theorem deferral_valid (path : String → Path) :
    SessionAssertion.Valid RegistryJob.inst
      (Deferral fun key => (path key).revision) stageMachine (DeferralGuard path) := by
  constructor
  · rintro pool job holds ⟨⟨⟨oneAtATime, _⟩, _⟩, _⟩
    rcases oneAtATime job rfl with ⟨⟨c, request, unsent, along⟩, threads⟩
    have noThread := Pool.session_threads_eq_nil threads
    have deferral := holds.session job.inst
    have steady := (deferral.threads.resolve_right fun ⟨thread, one, _⟩ => by
      rw [noThread] at one
      cases one).2
    have started : (pool.session RegistryJob.inst job.inst).started =
        (pool.session RegistryJob.inst job.inst).finished.flatMap
          fun outcome => outcome.spawned := by
      rw [Session.started, noThread, List.flatMap_nil, List.append_nil]
    rw [started] at steady
    refine ⟨noThread, ?_, deferral.routines, deferral.finished, ?_⟩
    · intro drained
      rw [deferral.flat drained, started]
      simp only [Session.started, Machine.fresh, List.flatMap_cons, List.flatMap_nil,
        List.append_nil]
    · refine .inr ⟨_, rfl, ?_⟩
      have addresses : Addresses (path job.inst).revision job.inst c := by
        rcases request with rfl | rfl
        · exact ⟨rfl, congrArg Path.revision along, unsent⟩
        · exact ⟨rfl, congrArg Path.revision along, unsent⟩
      rcases request with rfl | rfl
      · exact .arriving addresses (arriving_start c) steady
      · exact .seeking addresses (seeking_start addresses) steady
  · rintro pool index thread holds ⟨⟨⟨_, keeps⟩, _⟩, sound⟩ found one
    have deferral := holds.session thread.job.inst
    have spares : ∀ effect : Effect, effect.About thread.job.inst →
        (∀ revision bucket, effect = .publish revision bucket →
          StagePool.Replaceable pool revision ∧
            pool.mem.maker bucket = thread.job.inst) →
        SessionAssertion.Spares RegistryJob.inst (Deferral fun key => (path key).revision)
          pool thread.job.inst (effect.apply pool.mem) := by
      intro effect about publishes other different kept
      apply kept.spared sound.memory
      · apply about.leavesAlone different
        intro revision bucket equal
        exact (publishes revision bucket equal).1
      · intro revision bucket equal maker
        exact different (maker.symm.trans (publishes revision bucket equal).2)
      · exact fun _ member => Pool.session_threads_subset member
    simp only [SessionAssertion.Establishes, stageMachine] at *
    generalize pool.session RegistryJob.inst thread.job.inst = session at deferral one
    have handling := deferral.handling one
    have acts := handling.act sound.memory fun own bucket stores response equal =>
      keeps index _ own bucket stores response rfl found equal
    cases acted : thread.state.act pool.mem with
    | perform effect next =>
        rw [acted] at acts
        rcases acts with ⟨continues, ⟨about, flat⟩, publishes⟩
        exact ⟨deferral.continue one flat continues, spares effect about publishes⟩
    | spawn routine next =>
        rw [acted] at acts
        exact deferral.spawn acts.1 acts.2
    | finish result =>
        rw [acted] at acts
        exact deferral.finish one acts.1 (acts.2 _ rfl)
  · rintro pool index job routine before after holds ⟨⟨_, last⟩, sound⟩ found split
    have deferral := holds.session job.inst
    have own : (job, routine) ∈ (pool.session RegistryJob.inst job.inst).routines := by
      rw [split]
      exact List.mem_append_right before List.mem_cons_self
    rcases deferral.routines _ own with ⟨about, detached⟩
    constructor
    · rcases detached.apply about pool.mem with ⟨flat, applied, leaves⟩
      change Deferral _ _ (routine.apply pool.mem) _
      rw [applied]
      apply deferral.unaffected
      · intro drained
        rcases List.append_eq_nil_iff.mp drained with ⟨rfl, rfl⟩
        rcases last index job routine rfl found split with ⟨latest, recent, same⟩
        rw [leaves, left, recent, Option.bind_some, same]
      · intro entry member
        rw [split]
        rcases List.mem_append.mp member with earlier | later
        · exact List.mem_append_left _ earlier
        · exact List.mem_append_right _ (List.mem_cons_of_mem _ later)
    · intro other different kept
      apply kept.spared sound.memory
      · apply about.leavesAlone different
        rintro revision bucket rfl
        exact detached.elim
      · rintro revision bucket rfl
        exact detached.elim
      · exact fun _ member => Pool.session_threads_subset member
  · rintro pool duration key holds _
    have deferral := holds.session key
    exact deferral.unaffected _ deferral.flat fun _ member => member

end Sessions

/-! ## The server -/

/-- The entry of an instance in the bucket of a revision. -/
def Memory.entry (mem : Memory) (revision inst : String) : Option ServerlessInstance := do
  let instances ← mem.lookup revisionToInstancesMap revision
  mem.lookup instances inst

theorem Represents.entry {mem : Memory} {view : View} (represents : Represents mem view)
    (revision inst : String) : mem.entry revision inst = view.bucketEntry revision inst := by
  rw [Memory.entry, represents.revisions, View.bucketEntry]
  cases view.revisions revision with
  | none => rfl
  | some bucket => exact represents.buckets bucket inst

/-- The last request about an instance that succeeded. -/
def lastSuccess (pool : RegistryPool) (inst : String) :
    Option (Outcome RegistryJob RegistryOp (Option JobResult)) :=
  ((pool.session RegistryJob.inst inst).finished.filter Succeeded).getLast?

/-- The session of an instance in the server is that of the stages. -/
theorem session_of_relates {pool : RegistryPool} {pool' : StagePool}
    (relates : stageSimulation.Relates pool pool') (key : String) :
    pool.session RegistryJob.inst key =
      ⟨(pool'.session RegistryJob.inst key).threads.map stageSimulation.thread,
        (pool'.session RegistryJob.inst key).routines.map stageSimulation.entry,
        (pool'.session RegistryJob.inst key).finished.map stageSimulation.outcome⟩ := by
  simp only [Pool.session, relates.threads, relates.routines, relates.finished,
    List.filter_map]
  rfl

theorem LastStartedLast.stages {pool : RegistryPool} {pool' : StagePool}
    {choice : Choice RegistryJob Nat} (relates : stageSimulation.Relates pool pool')
    (last : LastStartedLast pool choice) : StagePool.LastStartedLast pool' choice := by
  intro index job routine equal found only
  have session := session_of_relates relates job.inst
  have found' : pool.routines[index]? = some (job, routine.operation) := by
    rw [relates.routines, List.getElem?_map, found]
    rfl
  have only' : (pool.session RegistryJob.inst job.inst).routines =
      [(job, routine.operation)] := by
    rw [session, only]
    rfl
  have recent := last index job routine.operation equal found' only'
  have started : (pool.session RegistryJob.inst job.inst).started =
      (pool'.session RegistryJob.inst job.inst).started.map Effect.operation := by
    rw [session]
    simp only [Session.started, List.flatMap_map, List.map_append, List.map_flatMap]
    rfl
  rw [started, List.getLast?_map] at recent
  exact Option.map_eq_some_iff.mp recent

/-- The last request that succeeded determines what the goroutine started last leaves. -/
theorem left_of_lastSuccess {key : String}
    (finished : List (Outcome RegistryJob Effect (Option JobResult)))
    (faithful : ∀ outcome ∈ finished, Faithful key outcome) :
    (∃ c result ts, (finished.filter Succeeded).getLast? =
          some ⟨.addInstance c, result,
            [.announce key (registration c (c.getHeader xServerlessSSHClientID) ts)]⟩ ∧
        left (finished.flatMap fun outcome => outcome.spawned) =
          some (registration c (c.getHeader xServerlessSSHClientID) ts)) ∨
      (∀ c result spawned, (finished.filter Succeeded).getLast? ≠
          some ⟨.addInstance c, result, spawned⟩) ∧
        left (finished.flatMap fun outcome => outcome.spawned) = none := by
  induction finished using List.reverseRecOn with
  | nil => exact .inr ⟨nofun, rfl⟩
  | append_singleton finished outcome ih =>
      have recent := faithful outcome (List.mem_append_right finished List.mem_cons_self)
      have earlier := ih fun outcome member =>
        faithful outcome (List.mem_append_left _ member)
      rw [Faithful] at recent
      split at recent
      · rename_i succeeded
        rw [List.filter_append, List.filter_cons_of_pos succeeded, List.filter_nil,
          List.getLast?_concat, List.flatMap_append, List.flatMap_cons, List.flatMap_nil,
          List.append_nil]
        rcases outcome with ⟨job, result, spawned⟩
        cases job with
        | addInstance c =>
            rcases recent with ⟨ts, rfl⟩
            left
            exact ⟨c, result, ts, rfl, left_append _ _⟩
        | removeInstance c =>
            have started : spawned = [.retract key] := recent
            subst started
            refine .inr ⟨?_, left_append _ _⟩
            rintro c' result' spawned ⟨⟩
        | idleInstancesReaper timeout order => exact recent.elim
      · rename_i failed
        rw [List.filter_append, List.filter_cons_of_neg failed, List.filter_nil,
          List.append_nil, List.flatMap_append, List.flatMap_cons, List.flatMap_nil,
          List.append_nil, recent, List.append_nil]
        exact earlier

/-- A request that comes in while no other is being handled, a step of its thread, or a pause. -/
def quietly (path : String → Path) (pool : RegistryPool) : Choice RegistryJob Nat → Bool
  | .start (.addInstance c) | .start (.removeInstance c) =>
      pool.threads.isEmpty && c.writer.sent.isNone &&
        c.path == path (c.param APIPathParam.instance)
  | .thread _ | .event _ => true
  | .start (.idleInstancesReaper _ _) | .routine _ => false

theorem oneAtATime_of_quietly {path : String → Path} {pool : RegistryPool}
    {choice : Choice RegistryJob Nat} (passed : quietly path pool choice = true) :
    OneAtATime path pool choice := by
  rintro job rfl
  have request : ∃ c, (job = .addInstance c ∨ job = .removeInstance c) ∧
      (pool.threads.isEmpty && c.writer.sent.isNone &&
        c.path == path (c.param APIPathParam.instance)) = true := by
    cases job with
    | addInstance c => exact ⟨c, .inl rfl, passed⟩
    | removeInstance c => exact ⟨c, .inr rfl, passed⟩
    | idleInstancesReaper timeout order => cases passed
  rcases request with ⟨c, request, passed⟩
  simp only [Bool.and_eq_true, List.isEmpty_iff, Option.isNone_iff_eq_none,
    beq_iff_eq] at passed
  refine ⟨⟨c, request, passed.1.2, passed.2⟩, ?_⟩
  intro thread member
  rw [passed.1.1] at member
  exact absurd member List.not_mem_nil

/-- Once everything has run, the flat map holds the registration of the last successful
request, and so does the bucket of the revision, and nothing when that request was a
deregistration, in every run that keeps the buckets and in which no goroutine of an
instance overtakes the one started last. -/
theorem routes_agree {path : String → Path} {clock : Time} {target : RegistryPool}
    (reaches : registryMachine.Reaches
      (fun pool choice => (OneAtATime path pool choice ∧ KeepsBuckets pool choice) ∧
        LastStartedLast pool choice) (Pool.idle (Memory.initial clock)) target)
    (quiescent : target.Quiescent) (inst : String) :
    (∀ c result spawned,
      lastSuccess target inst = some ⟨.addInstance c, result, spawned⟩ →
      ∃ ts, spawned = [@RegistryOp.set .instances instanceToConfigMap inst
            (registration c (c.getHeader xServerlessSSHClientID) ts)] ∧
          target.mem.lookup instanceToConfigMap inst =
            some (registration c (c.getHeader xServerlessSSHClientID) ts) ∧
          target.mem.entry (path inst).revision inst =
            some (registration c (c.getHeader xServerlessSSHClientID) ts)) ∧
      ((∀ c result spawned,
          lastSuccess target inst ≠ some ⟨.addInstance c, result, spawned⟩) →
        target.mem.lookup instanceToConfigMap inst = none ∧
          target.mem.entry (path inst).revision inst = none) := by
  rcases (View.sound_initial clock).stages (represents_initial clock)
    (fun pool choice => (OneAtATime path pool choice ∧
      StagePool.KeepsBuckets pool choice) ∧ StagePool.LastStartedLast pool choice)
    (fun relates admitted => ⟨⟨admitted.1.1.stages relates, admitted.1.2.stages relates⟩,
      admitted.2.stages relates⟩) reaches
    with ⟨target', reaches', relates, _⟩
  have holds := (deferral_valid path).reaches reaches'
    (SessionAssertion.holds_idle fun key => deferral_idle clock)
  have represents : Represents target.mem target'.mem := relates.mem
  have deferral := holds.session inst
  -- nothing is running any more
  have stopped := relates.quiescent.mp quiescent
  have noThread : (target'.session RegistryJob.inst inst).threads = [] := by
    simp only [Pool.session, stopped.1, List.filter_nil]
  have drained : (target'.session RegistryJob.inst inst).routines = [] := by
    simp only [Pool.session, stopped.2, List.filter_nil]
  have started : (target'.session RegistryJob.inst inst).started =
      (target'.session RegistryJob.inst inst).finished.flatMap
        fun outcome => outcome.spawned := by
    rw [Session.started, noThread, List.flatMap_nil, List.append_nil]
  have flat := deferral.flat drained
  have entry := (deferral.threads.resolve_right (by
    rintro ⟨thread, one, _⟩
    rw [noThread] at one
    cases one)).2.1
  rw [started, ← represents.flat] at flat
  rw [started, ← represents.entry] at entry
  have last : lastSuccess target inst =
      (((target'.session RegistryJob.inst inst).finished.filter Succeeded).getLast?).map
        stageSimulation.outcome := by
    rw [lastSuccess, session_of_relates relates, List.filter_map, List.getLast?_map]
    rfl
  rcases left_of_lastSuccess _ deferral.finished with
    ⟨c', result', ts, success, leaves⟩ | ⟨failed, leaves⟩
  · rw [success] at last
    constructor
    · intro c result spawned recent
      rw [recent] at last
      cases last
      exact ⟨ts, rfl, flat.trans leaves, entry.trans leaves⟩
    · intro none
      exact absurd last (none c' result' _)
  · constructor
    · intro c result spawned recent
      rw [recent] at last
      rcases Option.map_eq_some_iff.mp last.symm with ⟨⟨job, result', spawned'⟩, success, same⟩
      cases same
      exact absurd success (failed _ _ _)
    · intro _
      exact ⟨flat.trans leaves, entry.trans leaves⟩

theorem lastStartedLast_of_quietly {path : String → Path} {pool : RegistryPool}
    {choice : Choice RegistryJob Nat} (passed : quietly path pool choice = true) :
    LastStartedLast pool choice := by
  rintro index job routine rfl
  cases passed

/-- Requests that are handled quietly and publish buckets once meet all conditions. -/
theorem reaches_of_quietly {path : String → Path} {source target : RegistryPool}
    {choices : List (Choice RegistryJob Nat)}
    (ran : registryMachine.run
      (fun pool choice => quietly path pool choice && publishesOnce pool choice) source choices =
        some target) :
    registryMachine.Reaches
      (fun pool choice => (OneAtATime path pool choice ∧ KeepsBuckets pool choice) ∧
        LastStartedLast pool choice) source target := by
  refine (Machine.reaches_of_run ran).mono fun pool choice passed => ?_
  rw [Bool.and_eq_true] at passed
  exact ⟨⟨oneAtATime_of_quietly passed.1, keepsBuckets_of_publishesOnce passed.2⟩,
    lastStartedLast_of_quietly passed.1⟩

/-- An instance registers, renews its registration and deregisters, and another one registers. -/
def lateRequests : List (Choice RegistryJob Nat) :=
  .start (.addInstance (instanceContext .post "p" "r" "s" "v" "i" "t")) ::
    List.replicate 13 (.thread 0) ++
  .event 5 :: .start (.addInstance (instanceContext .post "p" "r" "s" "v" "i" "t")) ::
    List.replicate 8 (.thread 0) ++
  .start (.removeInstance (instanceContext .delete "p" "r" "s" "v" "i" "t")) ::
    List.replicate 8 (.thread 0) ++
  .start (.addInstance (instanceContext .post "p" "r" "s" "v" "j" "u")) ::
    List.replicate 8 (.thread 0)

/-- Their goroutines run after them: that of the renewal, that of the first registration, that of
the other instance, and that of the deregistration. -/
theorem routes_agree_late :
    ∃ (target : RegistryPool) (ts : Time),
      registryMachine.run (fun _ _ => true) (Pool.idle (Memory.initial 0))
        (lateRequests ++ [.routine 1, .routine 0, .routine 1, .routine 0]) = some target ∧
      (target.mem.lookup instanceToConfigMap "i" = none ∧ target.mem.entry "v" "i" = none) ∧
      target.mem.lookup instanceToConfigMap "j" =
        some (registration (instanceContext .post "p" "r" "s" "v" "j" "u") "u" ts) ∧
      target.mem.entry "v" "j" =
        some (registration (instanceContext .post "p" "r" "s" "v" "j" "u") "u" ts) := by
  let path (inst : String) : Path := ⟨"p", "r", "s", "v", inst⟩
  have ran : ∃ middle first second third target,
      registryMachine.run (fun pool choice => quietly path pool choice && publishesOnce pool choice)
        (Pool.idle (Memory.initial 0)) lateRequests = some middle ∧
      (registryMachine.step middle (.routine 1) = some first ∧
        LastStartedLast middle (.routine 1) ∧ publishesOnce middle (.routine 1) = true) ∧
      (registryMachine.step first (.routine 0) = some second ∧
        LastStartedLast first (.routine 0) ∧ publishesOnce first (.routine 0) = true) ∧
      (registryMachine.step second (.routine 1) = some third ∧
        LastStartedLast second (.routine 1) ∧ publishesOnce second (.routine 1) = true) ∧
      (registryMachine.step third (.routine 0) = some target ∧
        LastStartedLast third (.routine 0) ∧ publishesOnce third (.routine 0) = true) ∧
      target.Quiescent ∧
      (∃ result spawned, lastSuccess target "i" =
        some ⟨.removeInstance (instanceContext .delete "p" "r" "s" "v" "i" "t"), result,
          spawned⟩) ∧
      (∃ result spawned, lastSuccess target "j" =
        some ⟨.addInstance (instanceContext .post "p" "r" "s" "v" "j" "u"), result, spawned⟩) ∧
      registryMachine.run (fun _ _ => true) (Pool.idle (Memory.initial 0))
        (lateRequests ++ [.routine 1, .routine 0, .routine 1, .routine 0]) = some target := by
    refine ⟨_, _, _, _, _, rfl, ⟨rfl, ?_, rfl⟩, ⟨rfl, ?_, rfl⟩, ⟨rfl, ?_, rfl⟩, ⟨rfl, ?_, rfl⟩,
      ⟨rfl, rfl⟩, ⟨_, _, rfl⟩, ⟨_, _, rfl⟩, rfl⟩
    · rintro index job routine ⟨⟩ ⟨⟩ only
      cases only
    · rintro index job routine ⟨⟩ ⟨⟩ only
      cases only
    · rintro index job routine ⟨⟩ ⟨⟩ _
      rfl
    · rintro index job routine ⟨⟩ ⟨⟩ _
      rfl
  obtain ⟨middle, first, second, third, target, quiet, fired, fired', fired'', fired''', quiescent,
    ⟨result, spawned, removed⟩, ⟨result', spawned', added⟩, ran⟩ := ran
  have tail {source next : RegistryPool} {index : Nat}
      (reaches : registryMachine.Reaches
        (fun pool choice => (OneAtATime path pool choice ∧ KeepsBuckets pool choice) ∧
          LastStartedLast pool choice) (Pool.idle (Memory.initial 0)) source)
      (fired : registryMachine.step source (.routine index) = some next ∧
        LastStartedLast source (.routine index) ∧ publishesOnce source (.routine index) = true) :=
    reaches.tail ⟨⟨(fun _ started => by cases started), keepsBuckets_of_publishesOnce fired.2.2⟩,
      fired.2.1⟩ fired.1
  have drained := tail (tail (tail (tail (reaches_of_quietly quiet) fired) fired') fired'') fired'''
  have gone := (routes_agree drained quiescent "i").2 (by rw [removed]; rintro _ _ _ ⟨⟩)
  obtain ⟨ts, _, flat, entry⟩ := (routes_agree drained quiescent "j").1 _ _ _ added
  exact ⟨target, ts, ran, gone, flat, entry⟩

/-- A registration and a deregistration one after the other, of which the goroutine of
the registration runs last, leave a route to an instance that is gone. -/
theorem routes_disagree :
    ∃ target, registryMachine.Reaches
        (OneAtATime fun inst => ⟨"p", "r", "s", "v", inst⟩)
        (Pool.idle (Memory.initial 0)) target ∧
      target.Quiescent ∧
      (∃ result spawned, lastSuccess target "i" =
        some ⟨.removeInstance (instanceContext .delete "p" "r" "s" "v" "i" "t"), result,
          spawned⟩) ∧
      target.mem.lookup instanceToConfigMap "i" ≠ none := by
  have ran : ∃ middle last target,
      registryMachine.run (quietly fun inst => ⟨"p", "r", "s", "v", inst⟩)
        (Pool.idle (Memory.initial 0))
        (.start (.addInstance (instanceContext .post "p" "r" "s" "v" "i" "t")) ::
          List.replicate 13 (.thread 0) ++
          .start (.removeInstance (instanceContext .delete "p" "r" "s" "v" "i" "t")) ::
          List.replicate 8 (.thread 0)) = some middle ∧
      registryMachine.step middle (.routine 1) = some last ∧
      registryMachine.step last (.routine 0) = some target ∧ target.Quiescent ∧
      (∃ result spawned, lastSuccess target "i" =
        some ⟨.removeInstance (instanceContext .delete "p" "r" "s" "v" "i" "t"), result,
          spawned⟩) ∧
      target.mem.lookup instanceToConfigMap "i" ≠ none :=
    ⟨_, _, _, rfl, rfl, rfl, ⟨rfl, rfl⟩, ⟨_, _, rfl⟩, by decide⟩
  rcases ran with ⟨middle, last, target, ran, second, first, disagrees⟩
  refine ⟨target, ?_, disagrees⟩
  have handled := (Machine.reaches_of_run ran).mono
    fun pool choice passed => oneAtATime_of_quietly passed
  exact (handled.tail (fun _ started => by cases started) second).tail
    (fun _ started => by cases started) first

end CloudRunSsh.Proxy
