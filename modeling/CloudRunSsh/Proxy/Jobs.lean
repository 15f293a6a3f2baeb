import CloudRunSsh.Proxy.Cascade

/-!
# The threads of the server

A thread of the server handles a registration or a deregistration, or is one pass of
the reaper.  The two handlers and the pass are cut into the pieces between their
atomic operations, so that what is left of a thread has a name at every moment.
-/

namespace CloudRunSsh.Proxy

open CloudRunSsh.Concurrency

/-- What a thread is started for.  A pass of the reaper is given its timeout and the
order in which it visits the keys. -/
inductive RegistryJob where
  | addInstance (c : Context)
  | removeInstance (c : Context)
  | idleInstancesReaper (timeout : Time) (order : List String)

/-- What a thread leaves behind: the context with its response, or the number of
reaped instances. -/
inductive JobResult where
  | response (c : Context)
  | reaped (reapedInstances : Nat)

/-- The program of each thread. -/
def RegistryJob.program : RegistryJob → RegistryM JobResult
  | .addInstance c => (Proxy.addInstance c).bind fun c => .pure (.response c)
  | .removeInstance c => (Proxy.removeInstance c).bind fun c => .pure (.response c)
  | .idleInstancesReaper timeout order =>
      (Proxy.idleInstancesReaper timeout order 0).bind fun count => .pure (.reaped count)

/-- Any number of threads over one memory, in any interleaving. -/
def registryMachine :
    Machine Memory RegistryJob (RegistryM JobResult) RegistryOp (Option JobResult) Nat :=
  Program.machine execute RegistryJob.program Memory.elapse

/-- A configuration of the server. -/
abbrev RegistryPool :=
  Pool Memory RegistryJob (RegistryM JobResult) RegistryOp (Option JobResult)

variable {Value : Type}

/-- One lookup with a continuation for each outcome. -/
def fetch {kind : MapType} (map : Ref kind) (key : String) (missing : RegistryM Value)
    (found : kind.Value → RegistryM Value) : RegistryM Value :=
  .op (.get map key) fun
    | some value => found value
    | none => missing

/-- The response to a deregistration that succeeded. -/
def deregistered (c : Context) (cfg : ServerlessInstance) : Context :=
  sendResponseWithHeaders c 202 cfg.project cfg.region cfg.service cfg.revision cfg.id
    cfg.tunnel

/-- Take the instance out of its bucket, after the client id was found to match. -/
def takeInstance (c : Context) (clientID : String) (instances : InstanceToConfigMap)
    (config : ServerlessInstance) : RegistryM Context :=
  .op (.getAndDel instances config.id) fun
    | some cfg =>
        .go (.del instanceToConfigMap cfg.id) (.pure (deregistered c cfg))
    | none => .pure (respond c 404 clientID)

/-- Compare the client id with the tunnel of the addressed entry. -/
def checkTunnel (c : Context) (clientID : String) (instances : InstanceToConfigMap) :
    RegistryM Context :=
  fetch instances (c.param APIPathParam.instance) (.pure (respond c 404 clientID))
    fun config =>
      if clientID = config.tunnel then takeInstance c clientID instances config
      else .pure (respond c 404 clientID)

def seekRevision (c : Context) (clientID : String) (revisions : RevisionToInstancesMap) :
    RegistryM Context :=
  fetch revisions (c.param APIPathParam.revision) (.pure (respond c 404 clientID))
    (checkTunnel c clientID)

def seekService (c : Context) (clientID : String) (services : ServiceToRevisionsMap) :
    RegistryM Context :=
  fetch services (c.param APIPathParam.service) (.pure (respond c 404 clientID))
    (seekRevision c clientID)

def seekRegion (c : Context) (clientID : String) (regions : RegionToServicesMap) :
    RegistryM Context :=
  fetch regions (c.param APIPathParam.region) (.pure (respond c 404 clientID))
    (seekService c clientID)

/-- `removeInstance` once the client id is known. -/
def deregister (c : Context) (clientID : String) : RegistryM Context :=
  fetch projectToRegionsMap (c.param APIPathParam.project)
    (.pure (respond c 404 clientID)) (seekRegion c clientID)

/-- A lookup is determined by its two continuations. -/
theorem fetch_congr {kind : MapType} {map : Ref kind} {key : String}
    {missing : RegistryM Value} {found : kind.Value → RegistryM Value}
    {rest : Option kind.Value → RegistryM Value} (none_eq : rest none = missing)
    (some_eq : ∀ value, rest (some value) = found value) :
    (map.get key).bind rest = fetch map key missing found := by
  apply congrArg (Program.op _)
  funext answer
  cases answer with
  | none => exact none_eq
  | some value => exact some_eq value

theorem eval_fetch {mem : Memory} {kind : MapType} (map : Ref kind) (key : String)
    (missing : RegistryM Value) (found : kind.Value → RegistryM Value) :
    (fetch map key missing found).eval execute mem =
      (mem.lookup map key).elim (missing.eval execute mem) fun value =>
        (found value).eval execute mem := by
  simp only [fetch, Program.eval, execute]
  cases mem.lookup map key <;> rfl

/-- `removeInstance` is the check of the client id followed by the lookups. -/
theorem removeInstance_eq (c : Context) :
    removeInstance c =
      (getSSHProxyClientID c (getProxyConfig c)).bind fun
        | (c, none) => .pure c
        | (c, some clientID) => deregister c clientID := by
  apply congrArg (Program.bind _)
  funext ⟨c, clientID⟩
  cases clientID with
  | none => rfl
  | some clientID =>
      apply fetch_congr rfl
      intro regions
      apply fetch_congr rfl
      intro services
      apply fetch_congr rfl
      intro revisions
      apply fetch_congr rfl
      intro instances
      apply fetch_congr rfl
      intro config
      dsimp only
      split
      · apply congrArg (Program.op _)
        funext answer
        cases answer <;> rfl
      · rfl

/-- The last step on an idle instance. -/
def forgetInstance (cfg : ServerlessInstance) (reapedInstances : Nat) : RegistryM Nat :=
  .op (.del instanceToConfigMap cfg.id) fun _ => .pure (reapedInstances + 1)

def reapFrom (instances : InstanceToConfigMap) (config : ServerlessInstance)
    (reapedInstances : Nat) : RegistryM Nat :=
  .op (.getAndDel instances config.id) fun
    | some cfg => forgetInstance cfg reapedInstances
    | none => .pure reapedInstances

/-- What the reaper does about an instance once it has found it idle. -/
def evict (config : ServerlessInstance) (reapedInstances : Nat) : RegistryM Nat :=
  fetch revisionToInstancesMap config.revision (.pure reapedInstances)
    fun instances => reapFrom instances config reapedInstances

/-- `reapIfIdle` is the idle check followed by the eviction. -/
theorem reapIfIdle_eq (timeout : Time) (config : ServerlessInstance)
    (reapedInstances : Nat) :
    reapIfIdle timeout config reapedInstances =
      .op .now fun current =>
        if current - config.lastPing ≥ timeout then evict config reapedInstances
        else .pure reapedInstances := by
  apply congrArg (Program.op _)
  funext current
  dsimp only [Program.pure_eq, Program.pure_bind]
  split
  · apply fetch_congr rfl
    intro instances
    apply congrArg (Program.op _)
    funext answer
    cases answer <;> rfl
  · rfl

/-- A visit of the reaper is a lookup, the callback on what it finds, and the rest. -/
theorem idleInstancesReaper_cons (timeout : Time) (key : String) (rest : List String)
    (reapedInstances : Nat) :
    idleInstancesReaper timeout (key :: rest) reapedInstances =
      fetch instanceToConfigMap key (idleInstancesReaper timeout rest reapedInstances)
        fun config => (reapIfIdle timeout config reapedInstances).bind
          (idleInstancesReaper timeout rest) :=
  fetch_congr rfl fun _ => rfl

/-- The operation stores nothing. -/
def RegistryOp.StoresNothing : RegistryOp → Prop
  | .new _ | .set _ _ _ => False
  | .now | .get _ _ | .del _ _ | .getAndDel _ _ | .forEach _ _ => True

theorem every_fetch {allowed : RegistryOp → Prop} {kind : MapType} {map : Ref kind}
    {key : String} {missing : RegistryM Value} {found : kind.Value → RegistryM Value}
    (permitted : allowed (.get map key)) (none : missing.Every allowed)
    (some : ∀ value, (found value).Every allowed) :
    (fetch map key missing found).Every allowed := by
  refine ⟨permitted, ?_⟩
  intro answer
  cases answer with
  | none => exact none
  | some value => exact some value

theorem removeInstance_storesNothing (c : Context) :
    (removeInstance c).Every RegistryOp.StoresNothing := by
  rw [removeInstance_eq]
  apply getSSHProxyClientID_every
  intro c' clientID _
  cases clientID with
  | none => trivial
  | some clientID =>
      refine every_fetch (by trivial) (by trivial) fun regions => ?_
      refine every_fetch (by trivial) (by trivial) fun services => ?_
      refine every_fetch (by trivial) (by trivial) fun revisions => ?_
      refine every_fetch (by trivial) (by trivial) fun instances => ?_
      refine every_fetch (by trivial) (by trivial) fun config => ?_
      split
      · refine ⟨trivial, ?_⟩
        intro removed
        cases removed with
        | none => trivial
        | some cfg => exact ⟨trivial, trivial⟩
      · trivial

theorem reapIfIdle_storesNothing (timeout : Time) (config : ServerlessInstance)
    (reapedInstances : Nat) :
    (reapIfIdle timeout config reapedInstances).Every RegistryOp.StoresNothing := by
  rw [reapIfIdle_eq]
  refine ⟨trivial, ?_⟩
  intro current
  dsimp only
  split
  · refine every_fetch (by trivial) (by trivial) fun instances => ?_
    refine ⟨trivial, ?_⟩
    intro removed
    cases removed with
    | none => trivial
    | some cfg => exact ⟨trivial, fun _ => trivial⟩
  · trivial

theorem idleInstancesReaper_storesNothing (timeout : Time) (order : List String)
    (reapedInstances : Nat) :
    (idleInstancesReaper timeout order reapedInstances).Every RegistryOp.StoresNothing := by
  induction order generalizing reapedInstances with
  | nil => trivial
  | cons key rest ih =>
      refine ⟨trivial, ?_⟩
      intro answer
      cases answer with
      | none => exact ih reapedInstances
      | some config => exact (reapIfIdle_storesNothing timeout config reapedInstances).bind ih

end CloudRunSsh.Proxy
