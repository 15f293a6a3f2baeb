import CloudRunSsh.Concurrency.Solo
import CloudRunSsh.Proxy.Soundness

/-!
# Completed calls

A call that runs alone, whose goroutine finishes before the next call, does what its
sequential evaluation does, and on the view that is one update: a registration, a
deregistration, or the sweep of the reaper over the keys it visits.
-/

namespace CloudRunSsh.Proxy

open CloudRunSsh.Concurrency

/-- The heap of a running server: address zero is in use. -/
def Memory.Started (mem : Memory) : Prop := 1 ≤ mem.fresh

theorem Memory.Started.execute {mem : Memory} (operation : RegistryOp)
    (started : mem.Started) : (execute operation mem).2.Started := by
  cases operation with
  | new kind => exact Nat.le_succ_of_le started
  | now | get | set | del | getAndDel | forEach => exact started

/-- Stores into different maps commute. -/
theorem execute_set_comm (mem : Memory) {kind kind' : MapType} (map : Ref kind)
    (other : Ref kind') (key : String) (value : kind.Value) (key' : String)
    (value' : kind'.Value) (different : ∀ same : kind = kind', same ▸ map ≠ other) :
    (execute (.set other key' value') (execute (.set map key value) mem).2).2 =
      (execute (.set map key value) (execute (.set other key' value') mem).2).2 := by
  have first : (mem.write map ((mem.read map).insert key value)).read other =
      mem.read other := by
    by_cases same : kind = kind'
    · subst same
      exact Memory.read_write_of_ne mem (Ne.symm (different rfl)) _
    · exact Memory.read_write_of_kind_ne mem (Ne.symm same) _
  have second : (mem.write other ((mem.read other).insert key' value')).read map =
      mem.read map := by
    by_cases same : kind = kind'
    · subst same
      exact Memory.read_write_of_ne mem (different rfl) _
    · exact Memory.read_write_of_kind_ne mem same _
  simp only [execute]
  rw [first, second]
  exact Memory.write_comm mem _ _ _ _ different

/-- The creation of a bucket commutes with a store in the flat map. -/
theorem execute_new_comm {mem : Memory} (started : mem.Started)
    (config : ServerlessInstance) :
    (execute (.new .instances) (execute (@RegistryOp.set .instances instanceToConfigMap
        config.id config) mem).2).2 =
      (execute (@RegistryOp.set .instances instanceToConfigMap config.id config)
        (execute (.new .instances) mem).2).2 := by
  have unused : (⟨mem.fresh⟩ : InstanceToConfigMap) ≠ instanceToConfigMap := by
    intro equal
    have zero : mem.fresh = 0 := congrArg Ref.addr equal
    rw [Memory.Started, zero] at started
    exact absurd started (by decide)
  have kept := Memory.read_write_of_ne mem (Ne.symm unused)
    (∅ : Dict String ServerlessInstance)
  have swapped := Memory.write_comm mem instanceToConfigMap
    (⟨mem.fresh⟩ : InstanceToConfigMap)
    ((mem.read instanceToConfigMap).insert config.id config) ∅
    fun _ equal => unused equal.symm
  simp only [execute]
  rw [Memory.fresh_write, swapped, ← kept]
  rfl

/-- The store of a registration in the flat map commutes with the descent. -/
theorem commutes_of_ofCascade {config : ServerlessInstance} {operation : RegistryOp}
    (ofCascade : OfCascade config operation) :
    Program.Commutes execute Memory.Started
      (@RegistryOp.set .instances instanceToConfigMap config.id config) operation := by
  intro mem started
  cases operation with
  | @get kind map key =>
      exact ⟨Memory.lookup_write_of_kind_ne mem ofCascade _ key, rfl⟩
  | @set kind map key value =>
      refine ⟨rfl, ?_⟩
      by_cases same : kind = .instances
      · subst same
        rcases ofCascade with ⟨rfl, rfl⟩
        by_cases flat : map = instanceToConfigMap
        · subst flat
          rfl
        · exact execute_set_comm mem _ _ _ _ _ _ fun _ equal => flat equal.symm
      · exact execute_set_comm mem _ _ _ _ _ _ fun equal => absurd equal.symm same
  | new kind =>
      have instances : kind = .instances := ofCascade
      subst instances
      exact ⟨rfl, execute_new_comm started config⟩
  | now | del | getAndDel | forEach => exact ofCascade.elim

theorem register_detachable (c : Context) (clientID : String) :
    (answering (register c clientID)).Detachable execute Memory.Started := by
  intro ts
  have inline : (atProjects (registration c clientID ts) projectToRegionsMap
      (.pure (respond c 202 clientID))).Inline (OfCascade _) :=
    atProjects_inline _ trivial
  have answered : (answering (atProjects (registration c clientID ts) projectToRegionsMap
      (.pure (respond c 202 clientID)))).Inline (OfCascade _) :=
    inline.bind fun _ => trivial
  constructor
  · exact answered.every.mono fun _ ofCascade => commutes_of_ofCascade ofCascade
  · exact answered.detachable

theorem fetch_detachable {kind : MapType} {map : Ref kind} {key : String}
    {missing : RegistryM Context} {found : kind.Value → RegistryM Context}
    (none : (answering missing).Detachable execute Memory.Started)
    (some : ∀ value, (answering (found value)).Detachable execute Memory.Started) :
    (answering (fetch map key missing found)).Detachable execute Memory.Started := by
  intro answer
  cases answer with
  | none => exact none
  | some value => exact some value

theorem deregister_detachable (c : Context) (clientID : String) :
    (answering (deregister c clientID)).Detachable execute Memory.Started := by
  have notFound : (answering (.pure (respond c 404 clientID))).Detachable execute
      Memory.Started := trivial
  apply fetch_detachable notFound
  intro regions
  apply fetch_detachable notFound
  intro services
  apply fetch_detachable notFound
  intro revisions
  apply fetch_detachable notFound
  intro instances
  apply fetch_detachable notFound
  intro config
  split
  · intro answer
    cases answer with
    | none => trivial
    | some cfg => exact ⟨trivial, trivial⟩
  · exact notFound

theorem reapIfIdle_inline (timeout : Time) (config : ServerlessInstance) (reaped : Nat) :
    (reapIfIdle timeout config reaped).Inline fun _ => True := by
  rw [reapIfIdle_eq]
  refine ⟨trivial, fun current => ?_⟩
  dsimp only
  split
  · refine ⟨trivial, fun answer => ?_⟩
    cases answer with
    | none => trivial
    | some instances =>
        refine ⟨trivial, fun answer => ?_⟩
        cases answer with
        | none => trivial
        | some cfg => exact ⟨trivial, fun _ => trivial⟩
  · trivial

theorem idleInstancesReaper_inline (timeout : Time) (keys : List String) (reaped : Nat) :
    (idleInstancesReaper timeout keys reaped).Inline fun _ => True := by
  induction keys generalizing reaped with
  | nil => trivial
  | cons key keys ih =>
      refine ⟨trivial, fun answer => ?_⟩
      cases answer with
      | none => exact ih reaped
      | some config =>
          apply (reapIfIdle_inline timeout config reaped).bind
          exact fun reaped => ih reaped

/-- Nothing that a handler does after starting a goroutine depends on it. -/
theorem program_detachable (job : RegistryJob) :
    job.program.Detachable execute Memory.Started := by
  rw [start_program]
  cases job with
  | addInstance c =>
      simp only [Stage.start, Stage.entry]
      split
      · cases getProxyConfig c <;> trivial
      · exact register_detachable c _
  | removeInstance c =>
      simp only [Stage.start, Stage.entry]
      split
      · cases getProxyConfig c <;> trivial
      · exact deregister_detachable c _
  | idleInstancesReaper timeout order =>
      apply Program.Inline.detachable
      exact (idleInstancesReaper_inline timeout order 0).bind fun _ => trivial

/-- A completed call ends as the evaluation of its program does. -/
theorem eval_of_completed {job : RegistryJob} {mem after : Memory}
    {outcome : Outcome RegistryJob RegistryOp (Option JobResult)} (started : mem.Started)
    (completes : registryMachine.Completes mem job after outcome) :
    outcome.job = job ∧ (outcome.result, after) = job.program.eval execute mem :=
  Program.eval_of_completes started (fun operation _ => Memory.Started.execute operation)
    (program_detachable job) completes

namespace View

/-- Put a registration into the bucket of its revision, which is created if there is
none. -/
def settle (config : ServerlessInstance) (view : View) : View :=
  match view.revisions config.revision with
  | some bucket => (Effect.place bucket config.id config).apply view
  | none =>
      (Effect.publish config.revision view.fresh).apply
        ((Effect.place view.fresh config.id config).apply
          ((Effect.allocate config.id).apply view))

/-- Make the names of a registration known at some levels. -/
def learn (config : ServerlessInstance) (levels : List Level) (view : View) : View :=
  levels.foldl (fun view level => (Effect.learn level (level.key config)).apply view) view

/-- A registration. -/
def register (config : ServerlessInstance) (view : View) : View :=
  (((Effect.announce config.id config).apply view).settle config).learn config
    [.service, .region, .project]

/-- The entry that a request addresses. -/
def addressed (c : Context) (view : View) : Option ServerlessInstance :=
  if view.known .project (c.param APIPathParam.project) ∧
      view.known .region (c.param APIPathParam.region) ∧
      view.known .service (c.param APIPathParam.service) then
    view.bucketEntry (c.param APIPathParam.revision) (c.param APIPathParam.instance)
  else none

/-- Take an instance out of the bucket that a revision points to, and what was found
there out of the flat map. -/
def unregister (revision id : String) (view : View) : View :=
  match view.revisions revision with
  | some bucket =>
      match view.buckets bucket id with
      | some cfg => (Effect.retract cfg.id).apply ((Effect.withdraw bucket id).apply view)
      | none => view
  | none => view

/-- What the reaper does about one key. -/
def reap (timeout : Time) (key : String) (view : View) : View :=
  match view.flat key with
  | some config =>
      if view.clock - config.lastPing ≥ timeout then
        view.unregister config.revision config.id
      else view
  | none => view

/-- A pass of the reaper over some keys. -/
def sweep (timeout : Time) (keys : List String) (view : View) : View :=
  keys.foldl (fun view key => view.reap timeout key) view

@[simp] theorem known_settle (config : ServerlessInstance) (view : View) :
    (view.settle config).known = view.known := by
  rw [settle]
  split <;> rfl

/-- A name that is known already is not learned. -/
theorem apply_learn_of_known {view : View} {level : Level} {key : String}
    (known : view.known level key = true) :
    (Effect.learn level key).apply view = view := by
  have same : (fun other query =>
      view.known other query || (decide (other = level) && decide (query = key))) =
      view.known := by
    funext other query
    by_cases hit : other = level ∧ query = key
    · rcases hit with ⟨rfl, rfl⟩
      simp [known]
    · have missed : (decide (other = level) && decide (query = key)) = false := by
        simpa using hit
      rw [missed, Bool.or_false]
  simp only [Effect.apply, same]

/-- Taking out what is not there changes nothing. -/
theorem apply_withdraw_of_none {view : View} {bucket : Nat} {key : String}
    (missing : view.buckets bucket key = none) :
    (Effect.withdraw bucket key).apply view = view := by
  simp only [Effect.apply]
  rw [← missing, Function.update_eq_self, Function.update_eq_self]

/-- What is known stays known. -/
theorem known_learn {config : ServerlessInstance} {levels : List Level} {view : View}
    {level : Level} {key : String} (known : view.known level key = true) :
    (view.learn config levels).known level key = true := by
  induction levels generalizing view with
  | nil => exact known
  | cons other levels ih =>
      apply ih
      simp [Effect.apply, known]

theorem learn_append (config : ServerlessInstance) (levels more : List Level)
    (view : View) :
    view.learn config (levels ++ more) = (view.learn config levels).learn config more :=
  List.foldl_append

end View

/-- Evaluated on a memory, a program ends with a value that is accepted, in a memory
that a view agrees with. -/
def EndsIn {Value : Type} (program : RegistryM Value) (mem : Memory)
    (accept : Value → Prop) (view : View) : Prop :=
  (∃ value, (program.eval execute mem).1 = some value ∧ accept value) ∧
    Represents (program.eval execute mem).2 view

section Evaluation

variable {mem : Memory} {view final : View} {stage next : Stage}
variable {accept : JobResult → Prop}

/-- A step of a program that is known, as a step of its evaluation. -/
theorem eval_of_continue {job : RegistryJob} {program rest : RegistryM JobResult}
    {after : Memory} (stepped : registryMachine.next job program mem = .continue after rest) :
    program.eval execute mem = rest.eval execute after := by
  cases program with
  | pure value => cases stepped
  | panic => cases stepped
  | go operation rest => cases stepped
  | op operation rest =>
      cases stepped
      rfl

/-- A stage that performs an effect evaluates as the stage after it. -/
theorem EndsIn.perform {effect : Effect} (represents : Represents mem view)
    (acts : stage.act view = .perform effect next)
    (rest : ∀ {mem}, Represents mem (effect.apply view) →
      EndsIn next.program mem accept final) :
    EndsIn stage.program mem accept final := by
  have agrees := @stage_matches mem view (.idleInstancesReaper 0 []) represents stage
  rw [acts] at agrees
  rcases agrees with ⟨after, stepped, represented⟩
  rw [EndsIn]
  rw [eval_of_continue stepped]
  exact rest represented

/-- A stage that only looks something up evaluates as the stage after it. -/
theorem EndsIn.look (represents : Represents mem view)
    (acts : stage.act view = .perform .still next)
    (rest : ∀ {mem}, Represents mem view → EndsIn next.program mem accept final) :
    EndsIn stage.program mem accept final :=
  EndsIn.perform represents acts rest

/-- A stage that starts a goroutine evaluates as the stage after it, once the goroutine
has run. -/
theorem EndsIn.spawn {routine : Effect} (represents : Represents mem view)
    (acts : stage.act view = .spawn routine next)
    (rest : ∀ {mem}, Represents mem (routine.apply view) →
      EndsIn next.program mem accept final) :
    EndsIn stage.program mem accept final := by
  have agrees := @stage_matches mem view (.idleInstancesReaper 0 []) represents stage
  rw [acts] at agrees
  have program : stage.program = .go routine.operation next.program := by
    cases form : stage.program with
    | pure value => rw [form] at agrees; cases agrees
    | panic => rw [form] at agrees; cases agrees
    | op operation rest => rw [form] at agrees; cases agrees
    | go operation rest =>
        rw [form] at agrees
        cases agrees
        rfl
  rw [program]
  exact rest (represents.apply routine)

theorem endsIn_store (represents : Represents mem view) (config : ServerlessInstance)
    (stores : List Level) (response : Context) :
    EndsIn (Stage.store config stores response).program mem (· = .response response)
      (view.learn config stores) := by
  induction stores generalizing mem view with
  | nil => exact ⟨⟨_, rfl, rfl⟩, represents⟩
  | cons level stores ih =>
      apply EndsIn.perform represents rfl
      exact ih

theorem endsIn_revision (represents : Represents mem view) (config : ServerlessInstance)
    (stores : List Level) (response : Context) :
    EndsIn (Stage.revision config stores response).program mem (· = .response response)
      ((view.settle config).learn config stores) := by
  apply EndsIn.perform represents rfl
  intro mem represents
  cases found : view.revisions config.revision with
  | some bucket =>
      apply EndsIn.perform represents rfl
      intro mem represents
      rw [View.settle, found]
      exact endsIn_store represents config stores response
  | none =>
      apply EndsIn.perform represents rfl
      intro mem represents
      apply EndsIn.perform represents rfl
      intro mem represents
      apply EndsIn.perform represents rfl
      intro mem represents
      rw [View.settle, found]
      exact endsIn_store represents config stores response

/-- The descent from a level, given that of the level below. -/
theorem endsIn_descend_of_below (lower : List Level) (represents : Represents mem view)
    {config : ServerlessInstance} {level : Level} {stores : List Level}
    {response : Context}
    (below : ∀ {mem stores}, Represents mem view →
      EndsIn (Stage.descendBelow config level stores response).program mem
        (· = .response response) ((view.settle config).learn config (lower ++ stores))) :
    EndsIn (Stage.descend config level stores response).program mem (· = .response response)
      ((view.settle config).learn config (lower ++ level :: stores)) := by
  apply EndsIn.perform represents rfl
  intro mem represents
  cases known : view.known level (level.key config) with
  | false => exact below represents
  | true =>
      have settled : ((view.settle config).learn config lower).known level
          (level.key config) = true := by
        apply View.known_learn
        rw [View.known_settle]
        exact known
      have nothing : (view.settle config).learn config (lower ++ level :: stores) =
          (view.settle config).learn config (lower ++ stores) := by
        rw [View.learn_append, View.learn_append]
        exact congrArg (View.learn config stores) (View.apply_learn_of_known settled)
      rw [nothing]
      exact below represents

theorem endsIn_descend (represents : Represents mem view) (config : ServerlessInstance)
    (stores : List Level) (response : Context) :
    EndsIn (Stage.descend config .project stores response).program mem
      (· = .response response)
      ((view.settle config).learn config ([.service, .region] ++ .project :: stores)) := by
  apply endsIn_descend_of_below [.service, .region] represents
  intro mem stores represents
  apply endsIn_descend_of_below [.service] represents
  intro mem stores represents
  apply endsIn_descend_of_below [] represents
  intro mem stores represents
  exact endsIn_revision represents config stores response

/-- `addInstance`, once the client id is known, is one registration. -/
theorem endsIn_register (represents : Represents mem view) (c : Context)
    (clientID : String) :
    EndsIn (Stage.readClock c clientID).program mem
      (· = .response (respond c 202 clientID))
      (view.register (registration c clientID view.clock)) := by
  apply EndsIn.perform represents rfl
  intro mem represents
  apply EndsIn.spawn represents rfl
  intro mem represents
  exact endsIn_descend represents _ [] (respond c 202 clientID)

/-- What it takes for a request to address an entry. -/
theorem View.addressed_eq_some {c : Context} {config : ServerlessInstance} :
    view.addressed c = some config ↔
      (view.known .project (c.param APIPathParam.project) ∧
        view.known .region (c.param APIPathParam.region) ∧
        view.known .service (c.param APIPathParam.service)) ∧
      ∃ bucket, view.revisions (c.param APIPathParam.revision) = some bucket ∧
        view.buckets bucket (c.param APIPathParam.instance) = some config := by
  rw [View.addressed]
  split
  · rename_i known
    simp only [View.bucketEntry, Option.bind_eq_some_iff, known, true_and]
  · rename_i unknown
    simp only [reduceCtorEq, unknown, false_and]

/-- `removeInstance` with the client id of the addressed entry removes it. -/
theorem endsIn_deregister (represents : Represents mem view) (keyed : view.Keyed)
    {c : Context} {clientID : String} {config : ServerlessInstance}
    (addressed : view.addressed c = some config) (owner : clientID = config.tunnel) :
    EndsIn (Stage.seek c clientID .project).program mem
      (· = .response (deregistered c config))
      (view.unregister (c.param APIPathParam.revision) (c.param APIPathParam.instance)) := by
  rw [View.addressed_eq_some] at addressed
  rcases addressed with ⟨⟨project, region, service⟩, bucket, revision, entry⟩
  have id : config.id = c.param APIPathParam.instance := keyed bucket _ config entry
  apply EndsIn.look represents rfl
  intro mem represents
  rw [show Level.project.param c = c.param APIPathParam.project from rfl, if_pos project]
  apply EndsIn.look represents rfl
  intro mem represents
  rw [show Level.region.param c = c.param APIPathParam.region from rfl, if_pos region]
  apply EndsIn.look represents rfl
  intro mem represents
  rw [show Level.service.param c = c.param APIPathParam.service from rfl, if_pos service]
  apply EndsIn.look represents rfl
  intro mem represents
  rw [revision]
  apply EndsIn.look represents rfl
  intro mem represents
  simp only [entry, owner, if_true]
  apply EndsIn.perform represents rfl
  intro mem represents
  rw [id] at represents
  simp only [id, entry]
  apply EndsIn.spawn represents rfl
  intro mem represents
  simp only [View.unregister, revision, entry]
  exact ⟨⟨_, rfl, rfl⟩, represents⟩

/-- `removeInstance` without a matching entry changes nothing. -/
theorem endsIn_deregister_of_mismatch (represents : Represents mem view)
    {c : Context} {clientID : String}
    (mismatch : ∀ config, view.addressed c = some config → clientID ≠ config.tunnel) :
    EndsIn (Stage.seek c clientID .project).program mem
      (· = .response (respond c 404 clientID)) view := by
  have missed : ∀ {mem}, Represents mem view →
      EndsIn (Stage.notFound c clientID).program mem
        (· = .response (respond c 404 clientID)) view :=
    fun represents => ⟨⟨_, rfl, rfl⟩, represents⟩
  apply EndsIn.look represents rfl
  intro mem represents
  split
  · rename_i project
    apply EndsIn.look represents rfl
    intro mem represents
    split
    · rename_i region
      apply EndsIn.look represents rfl
      intro mem represents
      split
      · rename_i service
        apply EndsIn.look represents rfl
        intro mem represents
        split
        · rename_i bucket revision
          apply EndsIn.look represents rfl
          intro mem represents
          split
          · rename_i config entry
            have addressed : view.addressed c = some config :=
              View.addressed_eq_some.mpr
                ⟨⟨project, region, service⟩, bucket, revision, entry⟩
            rw [if_neg (mismatch config addressed)]
            exact missed represents
          · exact missed represents
        · exact missed represents
      · exact missed represents
    · exact missed represents
  · exact missed represents

/-- A pass of the reaper is a sweep. -/
theorem endsIn_visit (represents : Represents mem view) (timeout : Time)
    (keys : List String) (reaped : Nat) :
    EndsIn (Stage.visit timeout keys reaped).program mem (fun _ => True)
      (view.sweep timeout keys) := by
  induction keys generalizing mem view reaped with
  | nil => exact ⟨⟨_, rfl, trivial⟩, represents⟩
  | cons key keys ih =>
      rw [View.sweep, List.foldl_cons, View.reap]
      apply EndsIn.look represents rfl
      intro mem represents
      cases found : view.flat key with
      | none => exact ih represents reaped
      | some config =>
          apply EndsIn.look represents rfl
          intro mem represents
          dsimp only
          split
          · apply EndsIn.look represents rfl
            intro mem represents
            rw [View.unregister]
            cases revision : view.revisions config.revision with
            | none => exact ih represents reaped
            | some bucket =>
                apply EndsIn.perform represents rfl
                intro mem represents
                dsimp only
                cases entry : view.buckets bucket config.id with
                | none =>
                    rw [View.apply_withdraw_of_none entry] at represents
                    exact ih represents reaped
                | some cfg =>
                    apply EndsIn.perform represents rfl
                    intro mem represents
                    exact ih represents (reaped + 1)
          · exact ih represents reaped

end Evaluation

end CloudRunSsh.Proxy
