import CloudRunSsh.Concurrency.Persistence
import CloudRunSsh.Proxy.Truthfulness

/-!
# Paths that stay

No handler removes a name from the upper levels, and neither does the reaper: they only take
instances out of buckets.  So once a registration has been answered, its path is never unknown
again, whatever is deregistered or reaped, and in whatever order the threads go on.
-/

namespace CloudRunSsh.Proxy

open CloudRunSsh.Concurrency

/-- What is known stays known, and a revision that has a bucket still has one. -/
structure View.Grows (view after : View) : Prop where
  known : ∀ level key, view.known level key = true → after.known level key = true
  revisions : ∀ revision, (view.revisions revision).isSome → (after.revisions revision).isSome

theorem Effect.grows (effect : Effect) (view : View) : view.Grows (effect.apply view) := by
  cases effect with
  | learn level key =>
      refine ⟨fun other query known => ?_, fun _ => id⟩
      exact Bool.or_eq_true_iff.mpr (.inl known)
  | publish revision bucket =>
      refine ⟨fun _ _ => id, fun other published => ?_⟩
      simp only [Effect.apply, Function.update_apply]
      split
      · rfl
      · exact published
  | still | allocate | place | withdraw | announce | retract => exact ⟨fun _ _ => id, fun _ => id⟩

/-- How far a level is from the top. -/
def Level.depth : Level → Nat
  | .project => 0
  | .region => 1
  | .service => 2

/-- The registration is the one that a request is for. -/
structure Along (c : Context) (config : ServerlessInstance) : Prop where
  level : ∀ level : Level, level.key config = level.param c
  revision : config.revision = c.param APIPathParam.revision

theorem along_registration (c : Context) (clientID : String) (ts : Time) :
    Along c (registration c clientID ts) :=
  ⟨fun level => by cases level <;> rfl, rfl⟩

/-- Above a depth, a name is known, or it is still to be stored. -/
def Passed (view : View) (config : ServerlessInstance) (depth : Nat) (stores : List Level) : Prop :=
  ∀ level : Level, level.depth < depth → view.known level (level.key config) = true ∨
    level ∈ stores

/-- The path of a request leads to a bucket. -/
def View.Reached (view : View) (c : Context) : Prop :=
  view.Knows c ∧ (view.revisions (c.param APIPathParam.revision)).isSome

/-- What a registration can rely on at a stage. -/
def Stage.Relies (c : Context) : Stage → View → Prop
  | .fault, _ | .done (.reaped _), _ => True
  | .done (.response answer), _ => c.writer.sent = none → ¬answer.Accepted
  | .readClock own _, _ => own = c
  | .announce config _, _ => Along c config
  | .descend config level stores _, view => Along c config ∧ Passed view config level.depth stores
  | .revision config stores _, view | .allocate config stores _, view
  | .fill config _ stores _, view | .publish config _ stores _, view =>
      Along c config ∧ Passed view config 3 stores
  | .insert config _ stores _, view | .store config stores _, view =>
      Along c config ∧ Passed view config 3 stores ∧ (view.revisions config.revision).isSome
  | _, _ => False

section Growth

variable {c : Context} {stage : Stage} {view after : View} {config : ServerlessInstance}
  {stores : List Level} {depth : Nat}

theorem Passed.mono (passed : Passed view config depth stores) (grows : view.Grows after) :
    Passed after config depth stores :=
  fun level above => (passed level above).imp_left (grows.known level _)

theorem View.Reached.mono (reached : view.Reached c) (grows : view.Grows after) :
    after.Reached c := by
  obtain ⟨⟨project, region, service⟩, published⟩ := reached
  exact ⟨⟨grows.known _ _ project, grows.known _ _ region, grows.known _ _ service⟩,
    grows.revisions _ published⟩

theorem Stage.Relies.mono (relies : stage.Relies c view) (grows : view.Grows after) :
    stage.Relies c after := by
  cases stage with
  | descend | revision | allocate | fill | publish => exact ⟨relies.1, relies.2.mono grows⟩
  | insert | store =>
      obtain ⟨along, passed, published⟩ := relies
      exact ⟨along, passed.mono grows, grows.revisions _ published⟩
  | done result => cases result <;> exact relies
  | _ => exact relies

/-- With nothing left to store, the path leads to a bucket. -/
theorem reached_of_passed (along : Along c config) (passed : Passed view config 3 [])
    (published : (view.revisions config.revision).isSome) : view.Reached c := by
  have known (level : Level) (above : level.depth < 3) :
      view.known level (level.param c) = true := by
    rw [← along.level level]
    exact (passed level above).resolve_right List.not_mem_nil
  rw [along.revision] at published
  exact ⟨⟨known .project (by decide), known .region (by decide), known .service (by decide)⟩,
    published⟩

theorem passed_cons {level : Level} (passed : Passed view config level.depth stores) :
    Passed view config (level.depth + 1)
      (if view.known level (level.key config) then stores else level :: stores) := by
  intro other above
  by_cases same : other = level
  · subst same
    by_cases known : view.known other (other.key config) = true
    · exact .inl known
    · rw [if_neg known]
      exact .inr List.mem_cons_self
  · have deeper : other.depth < level.depth := by
      refine Nat.lt_of_le_of_ne (Nat.le_of_lt_succ above) fun equal => same ?_
      cases other <;> cases level <;> first | rfl | cases equal
    refine (passed other deeper).imp_right fun member => ?_
    split
    · exact member
    · exact List.mem_cons_of_mem _ member

/-- What a stage of a registration does leads to one that can rely on what it found. -/
theorem relies_act (relies : stage.Relies c view) :
    match stage.act view with
    | .perform effect next => next.Relies c (effect.apply view)
    | .spawn _ next => next.Relies c view
    | .finish result => ∀ answer, result = some (.response answer) → c.writer.sent = none →
        answer.Accepted → view.Reached c := by
  cases stage with
  | done result =>
      rintro answer ⟨⟩ unsent accepted
      exact absurd accepted (relies unsent)
  | fault => rintro answer ⟨⟩
  | readClock own clientID =>
      obtain rfl : own = c := relies
      exact along_registration own clientID view.clock
  | announce config response => exact ⟨relies, fun level above => absurd above (Nat.not_lt_zero _)⟩
  | descend config level stores response =>
      obtain ⟨along, passed⟩ := relies
      have further := passed_cons passed
      cases level <;> exact ⟨along, further⟩
  | revision config stores response =>
      obtain ⟨along, passed⟩ := relies
      simp only [Stage.act]
      split
      · rename_i bucket published
        exact ⟨along, passed, by rw [Effect.apply, published]; rfl⟩
      · exact ⟨along, passed⟩
  | insert config bucket stores response =>
      obtain ⟨along, passed, published⟩ := relies
      exact ⟨along, passed, published⟩
  | allocate config stores response => exact relies
  | fill config bucket stores response => exact relies
  | publish config bucket stores response =>
      obtain ⟨along, passed⟩ := relies
      exact ⟨along, passed, by simp [Effect.apply]⟩
  | store config stores response =>
      obtain ⟨along, passed, published⟩ := relies
      cases stores with
      | nil =>
          rintro answer ⟨⟩ _ _
          exact reached_of_passed along passed published
      | cons level stores =>
          refine ⟨along, fun other above => ?_, published⟩
          rcases passed other above with known | member
          · exact .inl (Bool.or_eq_true_iff.mpr (.inl known))
          · rcases List.mem_cons.mp member with rfl | later
            · exact .inl (by simp [Effect.apply])
            · exact .inr later
  | _ => exact relies.elim

theorem relies_start (c : Context) (view : View) :
    (Stage.start (.addInstance c)).Relies c view := by
  rw [Stage.start, Stage.entry]
  split
  · split
    · trivial
    · rename_i config _
      intro unsent accepted
      have kept : (c.header xServerlessSSHServerID config.id).writer.sent = none := unsent
      have refused : ((c.header xServerlessSSHServerID config.id).abortWithError 400
          "missing SSH_PROXY_CLIENT_ID").writer.delivered = 400 :=
        Context.delivered_abortWithError kept (by decide) _
      cases refused.symm.trans accepted
  · rfl

end Growth

/-- A registration that is accepted has a path that leads to a bucket. -/
def accepted : Pledge stageMachine (fun _ _ => True) View.Grows where
  thread job stage view := ∀ c, job = .addInstance c → stage.Relies c view
  result job found view := ∀ c answer, job = .addInstance c → found = some (.response answer) →
    c.writer.sent = none → answer.Accepted → view.Reached c
  start := by
    rintro pool _ _ c rfl
    exact relies_start c pool.mem
  next := by
    intro pool _ running _ _ relies
    simp only [stageMachine]
    cases acts : running.state.act pool.mem with
    | perform effect next =>
        refine ⟨effect.grows pool.mem, fun c same => ?_⟩
        have relied := relies_act (relies c same)
        rwa [acts] at relied
    | spawn routine next =>
        intro c same
        have relied := relies_act (relies c same)
        rwa [acts] at relied
    | finish result =>
        intro c answer same
        have relied := relies_act (relies c same)
        rw [acts] at relied
        exact relied answer
  fire _ _ := Effect.grows _ _
  elapse _ _ := ⟨fun _ _ => id, fun _ => id⟩
  keepsThread grows relies c same := (relies c same).mono grows
  keepsResult grows reached c answer same found unsent accepted :=
    (reached c answer same found unsent accepted).mono grows

/-- The lookups along a path find something, whatever else is in the registry. -/
structure Memory.Leads (mem : Memory) (c : Context) : Prop where
  project : mem.lookup projectToRegionsMap (c.param APIPathParam.project) =
    some regionToServicesMap
  region : mem.lookup regionToServicesMap (c.param APIPathParam.region) =
    some serviceToRevisionsMap
  service : mem.lookup serviceToRevisionsMap (c.param APIPathParam.service) =
    some revisionToInstancesMap
  revision : ∃ instances,
    mem.lookup revisionToInstancesMap (c.param APIPathParam.revision) = some instances

/-- A path leads wherever its names do. -/
theorem Memory.Leads.congr {mem : Memory} {c query : Context} (leads : mem.Leads c)
    (along : ∀ name ∈ [APIPathParam.project, APIPathParam.region, APIPathParam.service,
      APIPathParam.revision], query.param name = c.param name) : mem.Leads query := by
  simp only [List.forall_mem_cons, List.not_mem_nil, false_imp_iff, implies_true, and_true] at along
  obtain ⟨project, region, service, revision⟩ := along
  refine ⟨?_, ?_, ?_, ?_⟩
  · rw [project]
    exact leads.project
  · rw [region]
    exact leads.region
  · rw [service]
    exact leads.service
  · rw [revision]
    exact leads.revision

theorem Represents.leads {mem : Memory} {view : View} (represents : Represents mem view)
    {c : Context} (reached : view.Reached c) : mem.Leads c := by
  obtain ⟨⟨project, region, service⟩, published⟩ := reached
  obtain ⟨bucket, published⟩ := Option.isSome_iff_exists.mp published
  exact ⟨represents.lookup_known .project project, represents.lookup_known .region region,
    represents.lookup_known .service service,
    _, represents.lookup_revisions.mpr ⟨bucket, published, rfl⟩⟩

/-- The memories of the runs that go on from a configuration. -/
def RegistryPool.Ahead (pool : RegistryPool) (mem : Memory) : Prop :=
  ∃ later : RegistryPool, registryMachine.Reaches (fun _ _ => True) pool later ∧ later.mem = mem

theorem leads_of_accepted {clock : Time} {pool : RegistryPool}
    (reachable : registryMachine.Reaches (fun _ _ => True) (Pool.idle (Memory.initial clock)) pool)
    {outcome : Outcome RegistryJob RegistryOp (Option JobResult)} (member : outcome ∈ pool.finished)
    {c answer : Context} (job : outcome.job = .addInstance c)
    (result : outcome.result = some (.response answer)) (unsent : c.writer.sent = none)
    (accept : answer.Accepted) : pool.mem.Leads c := by
  have idle : stageSimulation.Relates (Pool.idle (Memory.initial clock))
      (Pool.idle (View.initial clock)) := Simulation.relates_idle (represents_initial clock)
  obtain ⟨pool', reaches, relates⟩ :=
    idle.reaches (fun _ _ => True) (fun _ _ => trivial) reachable
  rw [relates.finished] at member
  obtain ⟨outcome', within, rfl⟩ := List.mem_map.mp member
  have holds : accepted.Holds pool' := (Pledge.holds_idle _).reaches reaches
  exact Represents.leads relates.mem
    (holds.result outcome' within c answer job result unsent accept)

section Listings

variable {query : Context} {Value : Type} {post : Value → Prop}

theorem amid_get {admitted : Memory → Prop} {kind : MapType} {map : Ref kind} {key : String}
    {rest : Option kind.Value → RegistryM Value}
    (leads : ∀ mem, admitted mem → ∃ value, mem.lookup map key = some value ∧
      (rest (some value)).Amid execute admitted post) :
    (map.get key >>= rest).Amid execute admitted post := by
  intro mem fits
  obtain ⟨value, stored, amid⟩ := leads mem fits
  have answer : (execute (.get map key) mem).1 = some value := stored
  rw [answer]
  exact amid

/-- Every listing along a path succeeds, if the lookups find something in whatever memory each of
them is performed. -/
theorem listing_amid (untouched : query.Untouched) (named : query.Named) :
    ∀ handler ∈ [getProjectIngress, getRegionIngress, getServiceIngress, getRevisionIngress],
      (handler query).Amid execute (fun mem => mem.Leads query) Context.Succeeds := by
  obtain ⟨project, region, service, revision⟩ := named
  have sent (instances : List ServerlessInstance) :
      (sendIngressResponse query instances).Succeeds :=
    succeeds_sendIngressResponse untouched instances
  simp only [List.forall_mem_cons, List.not_mem_nil, false_imp_iff, implies_true, and_true]
  refine ⟨?_, ?_, ?_, ?_⟩
  · rw [getProjectIngress, if_neg project]
    exact amid_get fun mem leads => ⟨_, leads.project, fun _ _ => sent _⟩
  · rw [getRegionIngress, if_neg (not_or_intro project region)]
    refine amid_get fun mem leads => ⟨_, leads.project, ?_⟩
    exact amid_get fun mem leads => ⟨_, leads.region, fun _ _ => sent _⟩
  · rw [getServiceIngress, if_neg (not_or_intro project (not_or_intro region service))]
    refine amid_get fun mem leads => ⟨_, leads.project, ?_⟩
    refine amid_get fun mem leads => ⟨_, leads.region, ?_⟩
    exact amid_get fun mem leads => ⟨_, leads.service, fun _ _ => sent _⟩
  · rw [getRevisionIngress, if_neg (not_or_intro project
      (not_or_intro region (not_or_intro service revision)))]
    refine amid_get fun mem leads => ⟨_, leads.project, ?_⟩
    refine amid_get fun mem leads => ⟨_, leads.region, ?_⟩
    refine amid_get fun mem leads => ⟨_, leads.service, ?_⟩
    refine amid_get fun mem leads => ?_
    obtain ⟨instances, found⟩ := leads.revision
    exact ⟨instances, found, fun _ _ => sent _⟩

/-- Once a registration has been accepted, every listing along its path succeeds, whatever the
other threads do between the lookups of the listing. -/
theorem listing_of_accepted {clock : Time} {pool : RegistryPool}
    (reachable : registryMachine.Reaches (fun _ _ => True) (Pool.idle (Memory.initial clock)) pool)
    {outcome : Outcome RegistryJob RegistryOp (Option JobResult)} (member : outcome ∈ pool.finished)
    {c answer : Context} (job : outcome.job = .addInstance c)
    (result : outcome.result = some (.response answer)) (unsent : c.writer.sent = none)
    (accept : answer.Accepted) (untouched : query.Untouched) (named : query.Named)
    (along : ∀ name ∈ [APIPathParam.project, APIPathParam.region, APIPathParam.service,
      APIPathParam.revision], query.param name = c.param name) :
    ∀ handler ∈ [getProjectIngress, getRegionIngress, getServiceIngress, getRevisionIngress],
      (handler query).Amid execute pool.Ahead Context.Succeeds := by
  intro handler listed
  refine (listing_amid untouched named handler listed).mono ?_
  rintro _ ⟨later, reaches, rfl⟩
  exact (leads_of_accepted (reachable.trans reaches) (reaches.mem_finished member) job result
    unsent accept).congr along

end Listings

/-- A registration: the listings along its path succeed even while it is removed again. -/
theorem listing_of_accepted_single :
    let query := instanceContext .get "p" "r" "s" "v" "" ""
    ∃ pool : RegistryPool, registryMachine.Reaches (fun _ _ => True)
        (Pool.idle (Memory.initial 0)) pool ∧
      ∀ handler ∈ [getProjectIngress, getRegionIngress, getServiceIngress, getRevisionIngress],
        (handler query).Amid execute pool.Ahead Context.Succeeds := by
  have ran : ∃ (pool : RegistryPool) (spawned : List RegistryOp),
      registryMachine.run (fun _ _ => true) (Pool.idle (Memory.initial 0))
        (.start (.addInstance (instanceContext .post "p" "r" "s" "v" "i" "t")) ::
          List.replicate 13 (.thread 0)) = some pool ∧
      pool.finished = [⟨.addInstance (instanceContext .post "p" "r" "s" "v" "i" "t"),
        some (.response (respond (instanceContext .post "p" "r" "s" "v" "i" "t") 202 "t")),
        spawned⟩] := ⟨_, _, rfl, rfl⟩
  obtain ⟨pool, spawned, ran, finished⟩ := ran
  have accept : (respond (instanceContext .post "p" "r" "s" "v" "i" "t") 202 "t").Accepted :=
    delivered_sendResponseWithHeaders _ _ _ _ _ _ rfl (by decide)
  have reachable : registryMachine.Reaches (fun _ _ => True) (Pool.idle (Memory.initial 0)) pool :=
    (Machine.reaches_of_run ran).mono fun _ _ _ => trivial
  have member := List.mem_of_mem_head? (l := pool.finished) (by rw [finished]; rfl)
  exact ⟨pool, reachable, listing_of_accepted reachable member rfl rfl rfl accept rfl
    ⟨by decide, by decide, by decide, by decide⟩ (by decide)⟩

end CloudRunSsh.Proxy
