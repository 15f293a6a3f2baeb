import CloudRunSsh.Proxy.Instances
import CloudRunSsh.Proxy.Paths

/-!
# Bursts of registrations

Any number of registrations of different instances run at the same time, as when a new
revision scales up.  Each is stored in the bucket that it published or found published,
so it is found afterwards unless that bucket was replaced by the bucket of another first
registration.
-/

namespace CloudRunSsh.Proxy

open CloudRunSsh.Concurrency

/-- Only registrations are started, each of another instance than all earlier ones. -/
def Distinct {Mem Local Routine Result : Type}
    (pool : Pool Mem RegistryJob Local Routine Result)
    (choice : Choice RegistryJob Nat) : Prop :=
  ∀ job, choice = .start job → (∃ c, job = .addInstance c) ∧
    (∀ thread ∈ pool.threads, thread.job.inst ≠ job.inst) ∧
    ∀ outcome ∈ pool.finished, outcome.job.inst ≠ job.inst

theorem Distinct.stages {pool : RegistryPool} {pool' : StagePool}
    {choice : Choice RegistryJob Nat} (relates : stageSimulation.Relates pool pool')
    (distinct : Distinct pool choice) : Distinct pool' choice := by
  intro job started
  rcases distinct job started with ⟨registers, threads, finished⟩
  refine ⟨registers, ?_, ?_⟩
  · intro thread member
    exact threads (stageSimulation.thread thread) (relates.mem_threads member)
  · intro outcome member
    apply finished (stageSimulation.outcome outcome)
    rw [relates.finished]
    exact List.mem_map_of_mem member

/-- The levels above the one that is looked up next. -/
def Level.above : Level → List Level
  | .project => []
  | .region => [.project]
  | .service => [.project, .region]

/-- The levels of the nested map above the revisions. -/
def Level.every : List Level := [.project, .region, .service]

/-- The names of a registration at some levels are known, or are still to be stored. -/
def Learned (config : ServerlessInstance) (levels stores : List Level) (view : View) :
    Prop :=
  ∀ level ∈ levels, view.known level (level.key config) = true ∨ level ∈ stores

/-- The registration is in the bucket that its revision points to. -/
def Settled (config : ServerlessInstance) (view : View) : Prop :=
  view.bucketEntry config.revision config.id = some config

/-- The registration is found along its own path. -/
def Registered (config : ServerlessInstance) (view : View) : Prop :=
  Learned config Level.every [] view ∧ Settled config view

/-- What holds of the instance once its goroutine has been started. -/
def Registering (config : ServerlessInstance) (view : View) : Stage → Prop
  | .descend own level stores _ => own = config ∧ Learned config level.above stores view
  | .revision own stores _ => own = config ∧ Learned config Level.every stores view
  | .insert own bucket stores _ =>
      own = config ∧ Learned config Level.every stores view ∧
        view.revisions config.revision = some bucket
  | .allocate own stores _ => own = config ∧ Learned config Level.every stores view
  | .fill own bucket stores _ =>
      own = config ∧ Learned config Level.every stores view ∧ bucket < view.fresh
  | .publish own bucket stores _ =>
      own = config ∧ Learned config Level.every stores view ∧ bucket < view.fresh ∧
        view.buckets bucket config.id = some config
  | .store own stores _ =>
      own = config ∧ Learned config Level.every stores view ∧ Settled config view
  | _ => False

/-- The registration is in the flat map, or its goroutine is still pending. -/
def Announced (job : RegistryJob) (config : ServerlessInstance) (view : View)
    (routines : List (RegistryJob × Effect)) : Prop :=
  routines = [(job, .announce config.id config)] ∨
    routines = [] ∧ view.flat config.id = some config

/-- What is left of a session of a burst: nothing yet, one registration, or its
outcome. -/
inductive Burst (key : String) (view : View) :
    Session RegistryJob Stage Effect (Option JobResult) → Prop where
  | idle : Burst key view ⟨[], [], []⟩
  | arriving {c : Context} {stage : Stage} (own : c.param APIPathParam.instance = key)
      (arriving : Arriving c stage) :
      Burst key view ⟨[⟨.addInstance c, stage, []⟩], [], []⟩
  | registering {c : Context} {ts : Time} {stage : Stage} {spawned : List Effect}
      {routines : List (RegistryJob × Effect)} (own : c.param APIPathParam.instance = key)
      (registering :
        Registering (registration c (c.getHeader xServerlessSSHClientID) ts) view stage)
      (announced : Announced (.addInstance c)
        (registration c (c.getHeader xServerlessSSHClientID) ts) view routines) :
      Burst key view ⟨[⟨.addInstance c, stage, spawned⟩], routines, []⟩
  | registered {c : Context} {ts : Time} {result : Option JobResult}
      {spawned : List Effect} {routines : List (RegistryJob × Effect)}
      (own : c.param APIPathParam.instance = key)
      (registered : Registered (registration c (c.getHeader xServerlessSSHClientID) ts) view)
      (announced : Announced (.addInstance c)
        (registration c (c.getHeader xServerlessSSHClientID) ts) view routines) :
      Burst key view ⟨[], routines, [⟨.addInstance c, result, spawned⟩]⟩
  | refused {c : Context} {result : Option JobResult}
      (own : c.param APIPathParam.instance = key)
      (refused : c.getHeader xServerlessSSHClientID = "") :
      Burst key view ⟨[], [], [⟨.addInstance c, result, []⟩]⟩

section Foreign

variable {config : ServerlessInstance} {pool : StagePool} {after : View}

theorem Learned.mono {levels stores : List Level} {view : View}
    (learned : Learned config levels stores view)
    (known : ∀ level name, view.known level name = true → after.known level name = true) :
    Learned config levels stores after := by
  intro level member
  rcases learned level member with old | missing
  · exact .inl (known level _ old)
  · exact .inr missing

theorem Settled.spared (settled : Settled config pool.mem) (sound : pool.mem.Sound)
    (alone : LeavesAlone config.id pool after) : Settled config after := by
  rcases Option.bind_eq_some_iff.mp settled with ⟨bucket, published, entry⟩
  have present : pool.mem.buckets bucket config.id ≠ none := by
    rw [entry]
    nofun
  unfold Settled View.bucketEntry
  rw [alone.published _ _ published (.inl present), Option.bind_some,
    alone.entries bucket (sound.published _ _ published)]
  exact entry

/-- Steps that leave an instance alone do not disturb its registration. -/
theorem Registering.spared {stage : Stage} (registering : Registering config pool.mem stage)
    (sound : pool.mem.Sound) (alone : LeavesAlone config.id pool after)
    (live : ∃ thread ∈ pool.threads, thread.state = stage) :
    Registering config after stage := by
  cases stage with
  | descend own level stores response | revision own stores response
  | allocate own stores response =>
      exact ⟨registering.1, registering.2.mono alone.known⟩
  | insert own bucket stores response =>
      rcases registering with ⟨same, learned, published⟩
      rcases live with ⟨thread, member, state⟩
      refine ⟨same, learned.mono alone.known, ?_⟩
      exact alone.published _ _ published
        (.inr ⟨thread, member, own, stores, response, state⟩)
  | fill own bucket stores response =>
      rcases registering with ⟨same, learned, created⟩
      exact ⟨same, learned.mono alone.known, lt_of_lt_of_le created alone.fresh⟩
  | publish own bucket stores response =>
      rcases registering with ⟨same, learned, created, entry⟩
      refine ⟨same, learned.mono alone.known, lt_of_lt_of_le created alone.fresh, ?_⟩
      rw [alone.entries bucket created]
      exact entry
  | store own stores response =>
      rcases registering with ⟨same, learned, settled⟩
      exact ⟨same, learned.mono alone.known, settled.spared sound alone⟩
  | done | fault | readClock | announce | seek | seekRevision | check | take | retract
  | visit | age | locate | reap | forget => exact registering.elim

theorem Announced.spared {job : RegistryJob} {routines : List (RegistryJob × Effect)}
    (announced : Announced job config pool.mem routines)
    (alone : LeavesAlone config.id pool after) : Announced job config after routines := by
  rcases announced with pending | ⟨drained, stored⟩
  · exact .inl pending
  · refine .inr ⟨drained, ?_⟩
    rw [alone.flat]
    exact stored

/-- Steps that leave an instance alone do not disturb its session. -/
theorem Burst.spared {key : String}
    {session : Session RegistryJob Stage Effect (Option JobResult)}
    (burst : Burst key pool.mem session)
    (live : ∀ thread ∈ session.threads, thread ∈ pool.threads)
    (sound : pool.mem.Sound) (alone : LeavesAlone key pool after) :
    Burst key after session := by
  cases burst with
  | idle => exact .idle
  | arriving own arriving => exact .arriving own arriving
  | registering own registering announced =>
      subst own
      have running := live _ List.mem_cons_self
      exact .registering rfl (registering.spared sound alone ⟨_, running, rfl⟩)
        (announced.spared alone)
  | registered own registered announced =>
      subst own
      exact .registered rfl
        ⟨registered.1.mono alone.known, registered.2.spared sound alone⟩
        (announced.spared alone)
  | refused own refused => exact .refused own refused

end Foreign

section Own

variable {view : View} {config : ServerlessInstance} {c : Context}

/-- What a step of a registration has to establish about its session. -/
def Registering.Continues (config : ServerlessInstance) (view : View) (pool : StagePool) :
    Action → Prop
  | .perform effect next =>
      Registering config (effect.apply view) next ∧
        (effect.About config.id ∧ (effect.apply view).flat = view.flat) ∧
        ∀ revision bucket, effect = .publish revision bucket →
          StagePool.Replaceable pool revision
  | .spawn _ _ => False
  | .finish _ => Registered config view

theorem Learned.descend {level : Level} {stores : List Level}
    (learned : Learned config level.above stores view) :
    Learned config (level :: level.above)
      (if view.known level (level.key config) then stores else level :: stores) view := by
  intro other member
  by_cases known : view.known level (level.key config) = true
  · rw [if_pos known]
    rcases List.mem_cons.mp member with rfl | above
    · exact .inl known
    · exact learned other above
  · rw [if_neg known]
    rcases List.mem_cons.mp member with rfl | above
    · exact .inr List.mem_cons_self
    · rcases learned other above with old | missing
      · exact .inl old
      · exact .inr (List.mem_cons_of_mem level missing)

/-- Every step of a registration brings it on. -/
theorem Registering.act {stage : Stage} {pool : StagePool}
    (registering : Registering config pool.mem stage)
    (keeps : ∀ own bucket stores response, stage = .publish own bucket stores response →
      StagePool.Replaceable pool own.revision) :
    Registering.Continues config pool.mem pool (stage.act pool.mem) := by
  cases stage with
  | descend own level stores response =>
      rcases registering with ⟨rfl, learned⟩
      have descended := learned.descend
      refine ⟨?_, ⟨trivial, rfl⟩, fun _ _ equal => by cases equal⟩
      cases level with
      | project => exact ⟨rfl, descended⟩
      | region =>
          refine ⟨rfl, fun level member => descended level ?_⟩
          revert member
          cases level <;> decide
      | service =>
          refine ⟨rfl, fun level member => descended level ?_⟩
          cases level <;> decide
  | revision own stores response =>
      rcases registering with ⟨rfl, learned⟩
      refine ⟨?_, ⟨trivial, rfl⟩, fun _ _ equal => by cases equal⟩
      cases published : pool.mem.revisions own.revision with
      | some bucket => exact ⟨rfl, learned, published⟩
      | none => exact ⟨rfl, learned⟩
  | insert own bucket stores response =>
      rcases registering with ⟨rfl, learned, published⟩
      refine ⟨⟨rfl, learned, ?_⟩, ⟨rfl, rfl⟩, fun _ _ equal => by cases equal⟩
      simp only [Settled, View.bucketEntry, Effect.apply, published, Option.bind_some,
        Function.update_self]
  | allocate own stores response =>
      rcases registering with ⟨rfl, learned⟩
      exact ⟨⟨rfl, learned, Nat.lt_succ_self _⟩, ⟨trivial, rfl⟩,
        fun _ _ equal => by cases equal⟩
  | fill own bucket stores response =>
      rcases registering with ⟨rfl, learned, created⟩
      refine ⟨⟨rfl, learned, created, ?_⟩, ⟨rfl, rfl⟩, fun _ _ equal => by cases equal⟩
      simp only [Effect.apply, Function.update_self]
  | publish own bucket stores response =>
      rcases registering with ⟨rfl, learned, created, entry⟩
      refine ⟨⟨rfl, learned, ?_⟩, ⟨trivial, rfl⟩, ?_⟩
      · simp only [Settled, View.bucketEntry, Effect.apply, Function.update_self,
          Option.bind_some]
        exact entry
      · rintro revision target ⟨rfl, rfl⟩
        exact keeps own bucket stores response rfl
  | store own stores response =>
      rcases registering with ⟨rfl, learned, settled⟩
      cases stores with
      | nil => exact ⟨learned, settled⟩
      | cons level stores =>
          refine ⟨⟨rfl, ?_, settled⟩, ⟨trivial, rfl⟩, fun _ _ equal => by cases equal⟩
          intro other member
          rcases learned other member with old | missing
          · left
            simp only [Effect.apply, old, Bool.true_or]
          · rcases List.mem_cons.mp missing with rfl | later
            · left
              simp [Effect.apply]
            · exact .inr later
  | done | fault | readClock | announce | seek | seekRevision | check | take | retract
  | visit | age | locate | reap | forget => exact registering.elim

/-- The descent begins with nothing to store. -/
theorem registering_descend {response : Context} :
    Registering config view (.descend config .project [] response) := by
  refine ⟨rfl, ?_⟩
  intro level member
  exact absurd member List.not_mem_nil

end Own

section Sessions

variable {key : String} {view : View}
variable {session : Session RegistryJob Stage Effect (Option JobResult)}

/-- The guard of a burst, together with what holds in every run. -/
def BurstGuard (pool : StagePool) (choice : Choice RegistryJob Nat) : Prop :=
  (Distinct pool choice ∧ StagePool.KeepsBuckets pool choice) ∧ soundness.Holds pool

theorem Burst.unused (burst : Burst key view session) (threads : session.threads = [])
    (finished : session.finished = []) : session = ⟨[], [], []⟩ := by
  cases burst with
  | idle => rfl
  | arriving | registering => cases threads
  | registered | refused => cases finished

/-- What happens to the clock and the flat map does not concern the descent. -/
theorem Registering.unaffected {config : ServerlessInstance} {stage : Stage}
    (registering : Registering config view stage) (clock : Time)
    (flat : String → Option ServerlessInstance) :
    Registering config { view with clock, flat } stage := by
  cases stage <;> exact registering

/-- The goroutine of a registration runs. -/
theorem Announced.fire {job other : RegistryJob} {config : ServerlessInstance}
    {routine : Effect} {before after : List (RegistryJob × Effect)}
    (announced : Announced job config view (before ++ (other, routine) :: after)) :
    routine = .announce config.id config ∧
      Announced job config (routine.apply view) (before ++ after) := by
  rcases announced with pending | ⟨drained, _⟩
  · rcases List.append_eq_singleton_iff.mp pending with ⟨rfl, rest⟩ | ⟨_, rest⟩
    · cases rest
      refine ⟨rfl, .inr ⟨rfl, ?_⟩⟩
      simp only [Effect.apply, Function.update_self]
    · cases rest
  · exact absurd drained (by simp)

theorem burst_valid :
    SessionAssertion.Valid RegistryJob.inst Burst stageMachine BurstGuard := by
  constructor
  · rintro pool job holds ⟨⟨distinct, _⟩, _⟩
    rcases distinct job rfl with ⟨⟨c, rfl⟩, threads, finished⟩
    have noThread := Pool.session_threads_eq_nil threads
    have noOutcome := Pool.session_finished_eq_nil finished
    have unused := (holds.session (RegistryJob.addInstance c).inst).unused noThread noOutcome
    refine ⟨noThread, ?_⟩
    rw [unused]
    exact .arriving rfl (arriving_start c)
  · rintro pool index thread holds ⟨⟨_, keeps⟩, sound⟩ found one
    have burst := holds.session thread.job.inst
    have spares : ∀ effect : Effect, effect.About thread.job.inst →
        (∀ revision bucket, effect = .publish revision bucket →
          StagePool.Replaceable pool revision) →
        SessionAssertion.Spares RegistryJob.inst Burst pool thread.job.inst
          (effect.apply pool.mem) := by
      intro effect about replaces other different kept
      exact kept.spared (fun _ member => Pool.session_threads_subset member) sound.memory
        (about.leavesAlone different replaces)
    simp only [SessionAssertion.Establishes, stageMachine] at *
    generalize pool.session RegistryJob.inst thread.job.inst = session at burst one
    cases burst with
    | idle | registered | refused => cases one
    | @arriving c stage own arriving =>
        cases one
        cases stage with
        | done result => exact .refused own arriving.1
        | fault => exact .refused own arriving
        | readClock own' clientID =>
            rcases arriving with ⟨rfl, rfl⟩
            exact ⟨.arriving own ⟨⟨pool.mem.clock, rfl⟩, rfl⟩, fun _ _ kept => kept⟩
        | announce config response =>
            rcases arriving with ⟨⟨ts, rfl⟩, _⟩
            exact .registering own registering_descend (.inl rfl)
        | descend | revision | insert | allocate | fill | publish | store | seek
        | seekRevision | check | take | retract | visit | age | locate | reap | forget =>
            exact arriving.elim
    | @registering c ts stage spawned routines own registering announced =>
        cases one
        have acts := registering.act fun own bucket stores response equal =>
          keeps index _ own bucket stores response rfl found equal
        cases acted : stage.act pool.mem with
        | perform effect next =>
            rw [acted] at acts
            rcases acts with ⟨continues, ⟨about, flat⟩, replaces⟩
            refine ⟨.registering own continues ?_, spares effect about replaces⟩
            rcases announced with pending | ⟨drained, stored⟩
            · exact .inl pending
            · exact .inr ⟨drained, (congrFun flat _).trans stored⟩
        | spawn routine next =>
            rw [acted] at acts
            exact acts.elim
        | finish result =>
            rw [acted] at acts
            exact .registered own acts announced
  · rintro pool index job routine before after holds ⟨_, sound⟩ found split
    have burst := holds.session job.inst
    have detached := sound.routine _ (List.mem_of_getElem? found)
    have spares : routine.About job.inst →
        SessionAssertion.Spares RegistryJob.inst Burst pool job.inst
          (routine.apply pool.mem) := by
      intro about other different kept
      apply kept.spared (fun _ member => Pool.session_threads_subset member) sound.memory
      apply about.leavesAlone different
      rintro revision bucket rfl
      exact detached.elim
    generalize pool.session RegistryJob.inst job.inst = session at burst split
    cases burst with
    | idle | arriving | refused => exact absurd split (by simp)
    | registering own registering announced =>
        cases split
        rcases announced.fire with ⟨rfl, announced⟩
        exact ⟨.registering own (registering.unaffected _ _) announced, spares own⟩
    | registered own registered announced =>
        cases split
        rcases announced.fire with ⟨rfl, announced⟩
        exact ⟨.registered own registered announced, spares own⟩
  · rintro pool duration key holds _
    have burst := holds.session key
    generalize pool.session RegistryJob.inst key = session at burst
    cases burst with
    | idle => exact .idle
    | arriving own arriving => exact .arriving own arriving
    | registering own registering announced =>
        exact .registering own (registering.unaffected _ _) announced
    | registered own registered announced => exact .registered own registered announced
    | refused own refused => exact .refused own refused

end Sessions

/-! ## The server -/

/-- The lookup of an instance from the projects downwards. -/
def Memory.find (mem : Memory) (path : Path) : Option ServerlessInstance := do
  let regions ← mem.lookup projectToRegionsMap path.project
  let services ← mem.lookup regions path.region
  let revisions ← mem.lookup services path.service
  let instances ← mem.lookup revisions path.revision
  mem.lookup instances path.inst

theorem Represents.find {mem : Memory} {view : View} (represents : Represents mem view)
    (c : Context) : mem.find c.path = view.addressed c := by
  by_cases project : view.known .project (c.param APIPathParam.project) = true
  · have regions : mem.lookup projectToRegionsMap (c.param APIPathParam.project) =
        some regionToServicesMap := represents.lookup_known .project project
    by_cases region : view.known .region (c.param APIPathParam.region) = true
    · have services : mem.lookup regionToServicesMap (c.param APIPathParam.region) =
          some serviceToRevisionsMap := represents.lookup_known .region region
      by_cases service : view.known .service (c.param APIPathParam.service) = true
      · have revisions : mem.lookup serviceToRevisionsMap (c.param APIPathParam.service) =
            some revisionToInstancesMap := represents.lookup_known .service service
        simp only [Memory.find, Context.path, regions, services, revisions,
          represents.revisions, Option.bind_eq_bind, Option.bind_some, View.addressed,
          project, region, service, true_and, if_true, View.bucketEntry]
        cases view.revisions (c.param APIPathParam.revision) with
        | none => rfl
        | some bucket => exact represents.buckets bucket _
      · have unknown : mem.lookup serviceToRevisionsMap (c.param APIPathParam.service) =
            none := represents.lookup_unknown .service service
        simp only [Memory.find, Context.path, regions, services, unknown,
          Option.bind_eq_bind, Option.bind_some, Option.bind_none, View.addressed, service,
          Bool.false_eq_true, and_false, if_false]
    · have unknown : mem.lookup regionToServicesMap (c.param APIPathParam.region) = none :=
        represents.lookup_unknown .region region
      simp only [Memory.find, Context.path, regions, unknown, Option.bind_eq_bind,
        Option.bind_some, Option.bind_none, View.addressed, region, Bool.false_eq_true,
        false_and, and_false, if_false]
  · have unknown : mem.lookup projectToRegionsMap (c.param APIPathParam.project) = none :=
      represents.lookup_unknown .project project
    simp only [Memory.find, Context.path, unknown, Option.bind_eq_bind, Option.bind_none,
      View.addressed, project, Bool.false_eq_true, false_and, if_false]

/-- A deregistration removes the entry that it addresses. -/
theorem View.addressed_unregister {view : View} (c : Context) :
    (view.unregister (c.param APIPathParam.revision)
      (c.param APIPathParam.instance)).addressed c = none := by
  have removed : (view.unregister (c.param APIPathParam.revision)
      (c.param APIPathParam.instance)).bucketEntry (c.param APIPathParam.revision)
        (c.param APIPathParam.instance) = none := by
    rcases view.bucketEntry_cases (c.param APIPathParam.revision)
      (c.param APIPathParam.instance) with missing | ⟨bucket, cfg, found, entry⟩
    · rw [View.unregister_of_none missing]
      exact missing
    · rw [View.unregister_of_some found entry]
      simp only [View.bucketEntry, Effect.apply, found, Option.bind_some,
        Function.update_self]
  rw [View.addressed, removed, ite_self]

theorem Registered.addressed {view : View} {c : Context} {clientID : String} {ts : Time}
    (registered : Registered (registration c clientID ts) view) :
    view.addressed c = some (registration c clientID ts) := by
  have known : ∀ level ∈ Level.every, view.known level
      (level.key (registration c clientID ts)) = true := by
    intro level member
    exact (registered.1 level member).resolve_right List.not_mem_nil
  have project := known .project (by decide)
  have region := known .region (by decide)
  have service := known .service (by decide)
  rw [View.addressed]
  rw [if_pos ⟨project, region, service⟩]
  exact registered.2

/-- A deregistration with the client id of the entry that it addresses is accepted, and
removes the entry. -/
theorem removeInstance_removes {mem after : Memory} {view : View} {c : Context}
    {config : ServerlessInstance}
    {outcome : Outcome RegistryJob RegistryOp (Option JobResult)}
    (represents : Represents mem view) (keyed : view.Keyed) (untouched : c.Untouched)
    (clientID : c.getHeader xServerlessSSHClientID ≠ "")
    (addressed : view.addressed c = some config)
    (owner : c.getHeader xServerlessSSHClientID = config.tunnel)
    (completes : registryMachine.Completes mem (.removeInstance c) after outcome) :
    (∃ c', outcome.result = some (.response c') ∧ c'.Accepted) ∧
      after.find c.path = none ∧
      after.lookup instanceToConfigMap (c.param APIPathParam.instance) = none := by
  have represents' := completes_represents represents keyed completes
  simp only [View.perform, addressed] at represents'
  rw [if_pos ⟨clientID, owner⟩] at represents'
  rcases removeInstance_accepted represents keyed untouched clientID completes with
    ⟨c', result, accepted⟩
  refine ⟨⟨c', result, accepted.mpr ⟨config, addressed, owner⟩⟩, ?_, ?_⟩
  · rw [represents'.find]
    exact View.addressed_unregister c
  · have entry : view.bucketEntry (c.param APIPathParam.revision)
        (c.param APIPathParam.instance) = some config := by
      rcases View.addressed_eq_some.mp addressed with ⟨_, found⟩
      exact Option.bind_eq_some_iff.mpr found
    rw [represents'.flat, View.flat_unregister keyed, entry, Option.isSome_some, if_pos rfl,
      Function.update_self]

/-- What a session of a burst leaves once its goroutine has run. -/
theorem Burst.outcome {key : String} {view : View}
    {session : Session RegistryJob Stage Effect (Option JobResult)}
    {outcome : Outcome RegistryJob Effect (Option JobResult)} {c : Context}
    (burst : Burst key view session) (drained : session.routines = [])
    (member : outcome ∈ session.finished) (job : outcome.job = .addInstance c)
    (clientID : c.getHeader xServerlessSSHClientID ≠ "") :
    ∃ ts, Registered (registration c (c.getHeader xServerlessSSHClientID) ts) view ∧
      view.flat (c.param APIPathParam.instance) =
        some (registration c (c.getHeader xServerlessSSHClientID) ts) := by
  cases burst with
  | idle | arriving | registering => exact absurd member List.not_mem_nil
  | refused _ refused =>
      rw [List.mem_singleton.mp member] at job
      cases job
      exact absurd refused clientID
  | @registered _ ts _ _ routines _ registered announced =>
      rw [List.mem_singleton.mp member] at job
      cases job
      refine ⟨ts, registered, ?_⟩
      have empty : routines = [] := drained
      rcases announced with pending | ⟨_, stored⟩
      · rw [empty] at pending
        cases pending
      · exact stored

/-- What has been started may proceed. -/
theorem distinct_of_isWork {Mem Local Routine Result : Type}
    {pool : Pool Mem RegistryJob Local Routine Result} {choice : Choice RegistryJob Nat}
    (work : choice.IsWork) : Distinct pool choice := by
  intro job started
  rw [started] at work
  exact work.elim

/-- Registrations of two instances may be started. -/
theorem distinct_pair {first second : Context} (mem : Memory)
    {guard : RegistryPool → Choice RegistryJob Nat → Prop}
    (admits : ∀ {pool job}, Distinct pool (.start job) → guard pool (.start job))
    (different : first.param APIPathParam.instance ≠ second.param APIPathParam.instance) :
    registryMachine.Reaches guard (Pool.idle mem)
      ⟨mem, [registryMachine.fresh (.addInstance first),
        registryMachine.fresh (.addInstance second)], [], []⟩ := by
  have opened : registryMachine.Reaches guard (Pool.idle mem)
      ⟨mem, [registryMachine.fresh (.addInstance first)], [], []⟩ := by
    refine .tail .refl (admits ?_ : guard _ (.start (.addInstance first))) rfl
    rintro job ⟨rfl⟩
    exact ⟨⟨first, rfl⟩, fun _ member => absurd member List.not_mem_nil,
      fun _ member => absurd member List.not_mem_nil⟩
  refine opened.tail (admits ?_ : guard _ (.start (.addInstance second))) rfl
  rintro job ⟨rfl⟩
  refine ⟨⟨second, rfl⟩, ?_, fun _ member => absurd member List.not_mem_nil⟩
  intro thread member
  rw [List.mem_singleton.mp member]
  exact different

/-- Every registration of a burst is found along its own path and in the flat map, and a
deregistration with its client id removes it, in every run of the burst that keeps the
buckets. -/
theorem burst_registers {clock : Time} {earlier target : RegistryPool}
    (reachable : registryMachine.Reaches (fun _ _ => True)
      (Pool.idle (Memory.initial clock)) earlier)
    (burst : registryMachine.Reaches
      (fun pool choice => Distinct pool choice ∧ KeepsBuckets pool choice)
      (Pool.idle earlier.mem) target)
    (quiescent : target.Quiescent) :
    ∀ outcome ∈ target.finished, ∀ c, outcome.job = .addInstance c →
      c.getHeader xServerlessSSHClientID ≠ "" →
      (∃ ts, target.mem.find c.path =
            some (registration c (c.getHeader xServerlessSSHClientID) ts) ∧
          target.mem.lookup instanceToConfigMap (c.param APIPathParam.instance) =
            some (registration c (c.getHeader xServerlessSSHClientID) ts)) ∧
        ∀ d after outcome', d.path = c.path → d.Untouched →
          d.getHeader xServerlessSSHClientID = c.getHeader xServerlessSSHClientID →
          registryMachine.Completes target.mem (.removeInstance d) after outcome' →
          (∃ d', outcome'.result = some (.response d') ∧ d'.Accepted) ∧
            after.find c.path = none ∧
            after.lookup instanceToConfigMap (c.param APIPathParam.instance) = none := by
  rcases sound_of_reachable reachable with ⟨view, represents, sound⟩
  rcases sound.stages represents (fun pool choice => Distinct pool choice ∧
      StagePool.KeepsBuckets pool choice)
    (fun relates admitted => ⟨admitted.1.stages relates, admitted.2.stages relates⟩) burst
    with ⟨target', burst', relates, steady⟩
  have holds := burst_valid.reaches burst' (SessionAssertion.holds_idle fun _ => .idle)
  have sound' := steady.memory
  have represents' : Represents target.mem target'.mem := relates.mem
  intro outcome member c job clientID
  rw [relates.finished] at member
  rcases List.mem_map.mp member with ⟨outcome', member', rfl⟩
  have own : outcome' ∈ (target'.session RegistryJob.inst
      (c.param APIPathParam.instance)).finished := by
    apply List.mem_filter.mpr
    refine ⟨member', decide_eq_true ?_⟩
    rw [show outcome'.job = .addInstance c from job]
    rfl
  have drained : (target'.session RegistryJob.inst
      (c.param APIPathParam.instance)).routines = [] := by
    simp only [Pool.session, (relates.quiescent.mp quiescent).2, List.filter_nil]
  rcases (holds.session _).outcome drained own job clientID with ⟨ts, registered, flat⟩
  refine ⟨⟨ts, ?_, (represents'.flat _).trans flat⟩, ?_⟩
  · rw [represents'.find]
    exact registered.addressed
  · intro d after outcome'' path untouched owner completes
    have addressed : target'.mem.addressed d =
        some (registration c (c.getHeader xServerlessSSHClientID) ts) := by
      rw [← represents'.find, path, represents'.find]
      exact registered.addressed
    have removed := removeInstance_removes represents' sound'.keyed untouched
      (owner.trans_ne clientID) addressed owner completes
    rw [path] at removed
    have inst : d.param APIPathParam.instance = c.param APIPathParam.instance :=
      congrArg Path.inst path
    rw [inst] at removed
    exact removed

/-- Two registrations of one new revision, of which the second looks the revision up
after the first has published its bucket. -/
theorem burst_registers_pair :
    ∃ target ts, registryMachine.Reaches
        (fun pool choice => Distinct pool choice ∧ KeepsBuckets pool choice)
        (Pool.idle (Memory.initial 0)) target ∧
      target.mem.find ⟨"p", "r", "s", "v", "i"⟩ =
        some (registration (instanceContext .post "p" "r" "s" "v" "i" "t") "t" ts) := by
  have ran : ∃ target,
      registryMachine.run (fun pool choice => choice.IsWork && publishesOnce pool choice)
        ⟨Memory.initial 0,
          [registryMachine.fresh
              (.addInstance (instanceContext .post "p" "r" "s" "v" "i" "t")),
            registryMachine.fresh
              (.addInstance (instanceContext .post "p" "r" "s" "v" "j" "t"))], [], []⟩
        ([.thread 1, .thread 1] ++ List.replicate 13 (.thread 0) ++
          List.replicate 6 (.thread 0) ++ [.routine 0, .routine 0]) = some target ∧
      target.Quiescent ∧
      target.finished.map (·.job) =
        [.addInstance (instanceContext .post "p" "r" "s" "v" "i" "t"),
          .addInstance (instanceContext .post "p" "r" "s" "v" "j" "t")] :=
    ⟨_, rfl, ⟨rfl, rfl⟩, rfl⟩
  rcases ran with ⟨target, ran, quiescent, finished⟩
  have opened := @distinct_pair (instanceContext .post "p" "r" "s" "v" "i" "t")
    (instanceContext .post "p" "r" "s" "v" "j" "t") (Memory.initial 0)
    (fun pool choice => Distinct pool choice ∧ KeepsBuckets pool choice)
    (fun distinct => ⟨distinct, fun _ _ _ _ pending => by cases pending⟩) (by decide)
  have reaches := opened.trans ((Machine.reaches_of_run ran).mono fun pool choice passed => by
    rw [Bool.and_eq_true] at passed
    exact ⟨distinct_of_isWork (of_decide_eq_true passed.1),
      keepsBuckets_of_publishesOnce passed.2⟩)
  have registered : RegistryJob.addInstance
      (instanceContext .post "p" "r" "s" "v" "i" "t") ∈ target.finished.map (·.job) := by
    rw [finished]
    exact List.mem_cons_self
  rcases List.mem_map.mp registered with ⟨outcome, member, job⟩
  rcases (burst_registers .refl reaches quiescent outcome member _ job (by decide)).1 with
    ⟨ts, found, _⟩
  exact ⟨target, ts, reaches, found⟩

/-- Two registrations of one new revision, step by step in turn, lose the first: its
bucket is replaced by that of the second. -/
theorem burst_loses_registration :
    ∃ target, registryMachine.Reaches Distinct (Pool.idle (Memory.initial 0)) target ∧
      target.Quiescent ∧
      target.finished.map (·.job) =
        [.addInstance (instanceContext .post "p" "r" "s" "v" "i" "t"),
          .addInstance (instanceContext .post "p" "r" "s" "v" "j" "t")] ∧
      target.mem.find ⟨"p", "r", "s", "v", "i"⟩ = none := by
  have ran : ∃ target, registryMachine.run (fun _ choice => choice.IsWork)
      ⟨Memory.initial 0,
        [registryMachine.fresh
            (.addInstance (instanceContext .post "p" "r" "s" "v" "i" "t")),
          registryMachine.fresh
            (.addInstance (instanceContext .post "p" "r" "s" "v" "j" "t"))], [], []⟩
      ((List.replicate 12 [.thread 0, .thread 1]).flatten ++
        [.thread 0, .thread 0, .routine 0, .routine 0]) = some target ∧
      target.Quiescent ∧
      target.finished.map (·.job) =
        [.addInstance (instanceContext .post "p" "r" "s" "v" "i" "t"),
          .addInstance (instanceContext .post "p" "r" "s" "v" "j" "t")] ∧
      target.mem.find ⟨"p", "r", "s", "v", "i"⟩ = none :=
    ⟨_, rfl, ⟨rfl, rfl⟩, rfl, by decide⟩
  rcases ran with ⟨target, ran, lost⟩
  refine ⟨target, ?_, lost⟩
  have opened := @distinct_pair (instanceContext .post "p" "r" "s" "v" "i" "t")
    (instanceContext .post "p" "r" "s" "v" "j" "t") (Memory.initial 0) Distinct
    (fun distinct => distinct) (by decide)
  apply opened.trans
  apply (Machine.reaches_of_run ran).mono
  intro pool choice passed
  exact distinct_of_isWork (of_decide_eq_true passed)

end CloudRunSsh.Proxy
