import CloudRunSsh.Concurrency.Panics
import CloudRunSsh.Proxy.Authorization
import CloudRunSsh.Proxy.Responses

/-!
# Nil dereferences and failed type assertions

Registrations are only built by `addInstance`, which sets every field, so the handlers
and the reaper can dereference what they find.  Three things are not guaranteed: the
access control when the file was not loaded, the configuration in the context when the
request came through the internal router, and the types of the claims.
-/

namespace CloudRunSsh.Proxy

open CloudRunSsh.Concurrency

/-- What the running server works on: a request of either router, or a pass of the
reaper. -/
inductive ServerJob where
  | internal (request : Request)
  | external (job : ExternalRequest)
  | idleInstancesReaper (timeout : Time) (order : List String)

def ServerJob.program (config : ProxyConfig) : ServerJob → RegistryM JobResult
  | .internal request =>
      (serveInternal config request).bind fun c => .pure (.response c)
  | .external job => (serveExternal config job).bind fun c => .pure (.response c)
  | .idleInstancesReaper timeout order =>
      (Proxy.idleInstancesReaper timeout order 0).bind fun count => .pure (.reaped count)

/-- Requests of both routers and passes of the reaper, in any interleaving. -/
def serverMachine (config : ProxyConfig) :
    Machine Memory ServerJob (RegistryM JobResult) RegistryOp (Option JobResult) Nat :=
  Program.machine execute (ServerJob.program config) Memory.elapse

/-- Both routers can be built. -/
def Starts (config : ProxyConfig) : Prop :=
  (∃ internal, internalAPI config = some internal) ∧
    ∀ idtoken, ∃ external, externalAPI idtoken config = some external

/-- The jobs that dereference nil or assert a wrong type: instances posted or deleted
without a client id on the internal router, and claims of an unexpected type. -/
def ServerJob.Panics (config : ProxyConfig) (access : AccessControl) : ServerJob → Prop
  | .internal request =>
      (request.On .addInstance ∨ request.On .removeInstance) ∧
        request.header xServerlessSSHClientID = ""
  | .external job => PresentsMistyped job.idtoken config access job.request
  | .idleInstancesReaper _ _ => False

section Programs

variable {Value : Type}

theorem panicFree_fetch {kind : MapType} {map : Ref kind} {key : String}
    {missing : RegistryM Value} {found : kind.Value → RegistryM Value}
    (none : missing.PanicFree) (some : ∀ value, (found value).PanicFree) :
    (fetch map key missing found).PanicFree := by
  intro answer
  cases answer with
  | none => exact none
  | some value => exact some value

theorem panicFree_get {kind : MapType} {map : Ref kind} {key : String}
    {rest : Option kind.Value → RegistryM Value} (missing : (rest none).PanicFree)
    (found : ∀ value, (rest (some value)).PanicFree) :
    ((map.get key).bind rest).PanicFree := by
  intro answer
  cases answer with
  | none => exact missing
  | some value => exact found value

theorem panicFree_toBucket {c : Context} {missing : RegistryM Value}
    {found : InstanceToConfigMap → RegistryM Value} (none : missing.PanicFree)
    (some : ∀ instances, (found instances).PanicFree) :
    (toBucket c missing found).PanicFree := by
  apply panicFree_fetch none
  intro regions
  apply panicFree_fetch none
  intro services
  apply panicFree_fetch none
  intro revisions
  exact panicFree_fetch none some

variable {config : ServerlessInstance} {rest : RegistryM Value}

theorem atRevisions_panicFree (revisions : RevisionToInstancesMap)
    (free : rest.PanicFree) : (atRevisions config revisions rest).PanicFree := by
  intro answer
  cases answer with
  | some instances => exact fun _ => free
  | none => exact fun _ _ _ => free

theorem atServices_panicFree (services : ServiceToRevisionsMap)
    (free : rest.PanicFree) : (atServices config services rest).PanicFree := by
  intro answer
  cases answer with
  | some revisions => exact atRevisions_panicFree revisions free
  | none => exact atRevisions_panicFree _ fun _ => free

theorem atRegions_panicFree (regions : RegionToServicesMap)
    (free : rest.PanicFree) : (atRegions config regions rest).PanicFree := by
  intro answer
  cases answer with
  | some services => exact atServices_panicFree services free
  | none => exact atServices_panicFree _ fun _ => free

theorem atProjects_panicFree (projects : ProjectToRegionsMap)
    (free : rest.PanicFree) : (atProjects config projects rest).PanicFree := by
  intro answer
  cases answer with
  | some regions => exact atRegions_panicFree regions free
  | none => exact atRegions_panicFree _ fun _ => free

end Programs

section Handlers

variable {c : Context}

/-- A handler that needs a client id panics when there is neither one nor a
configuration to name in the answer. -/
theorem panicsIff_of_clientID {rest : Context × Option String → RegistryM Context}
    (free : ∀ answer, (rest answer).PanicFree) :
    Program.PanicsIff
      (c.getHeader xServerlessSSHClientID = "" ∧ getProxyConfig c = none)
      ((getSSHProxyClientID c (getProxyConfig c)).bind rest) := by
  apply Program.PanicsIff.bind _ free
  unfold getSSHProxyClientID
  constructor
  · intro nothing
    simp only [nothing.1, if_true, nothing.2]
  · intro something
    dsimp only
    split
    · rename_i missing
      cases config : getProxyConfig c with
      | none => exact absurd ⟨missing, config⟩ something
      | some config => trivial
    · trivial

theorem addInstance_panicsIff (c : Context) :
    Program.PanicsIff
      (c.getHeader xServerlessSSHClientID = "" ∧ getProxyConfig c = none)
      (addInstance c) := by
  rw [addInstance_eq]
  apply panicsIff_of_clientID
  intro answer
  obtain ⟨c', clientID⟩ := answer
  cases clientID with
  | none => trivial
  | some clientID => exact fun ts => atProjects_panicFree _ (by trivial)

theorem deregister_panicFree (c : Context) (clientID : String) :
    (deregister c clientID).PanicFree := by
  refine panicFree_fetch (by trivial) fun regions => ?_
  refine panicFree_fetch (by trivial) fun services => ?_
  refine panicFree_fetch (by trivial) fun revisions => ?_
  refine panicFree_fetch (by trivial) fun instances => ?_
  refine panicFree_fetch (by trivial) fun config => ?_
  split
  · intro removed
    cases removed with
    | none => trivial
    | some cfg => trivial
  · trivial

theorem removeInstance_panicsIff (c : Context) :
    Program.PanicsIff
      (c.getHeader xServerlessSSHClientID = "" ∧ getProxyConfig c = none)
      (removeInstance c) := by
  rw [removeInstance_eq]
  apply panicsIff_of_clientID
  intro answer
  obtain ⟨c', clientID⟩ := answer
  cases clientID with
  | none => trivial
  | some clientID => exact deregister_panicFree c' clientID

theorem getInstanceByID_panicFree (c : Context) : (getInstanceByID c).PanicFree := by
  rw [getInstanceByID_eq]
  split
  · trivial
  · exact panicFree_fetch (by trivial) fun _ => by trivial

theorem getInstance_panicFree (c : Context) : (getInstance c).PanicFree := by
  rw [getInstance_eq]
  apply panicFree_toBucket (by trivial)
  intro instances
  exact panicFree_fetch (by trivial) fun _ => getInstanceByID_panicFree c

theorem getProjectIngress_panicFree (c : Context) : (getProjectIngress c).PanicFree := by
  unfold getProjectIngress
  dsimp only
  split
  · trivial
  · exact panicFree_get (by trivial) fun _ _ => by trivial

theorem getRegionIngress_panicFree (c : Context) : (getRegionIngress c).PanicFree := by
  unfold getRegionIngress
  dsimp only
  split
  · trivial
  · refine panicFree_get (by trivial) fun regions => ?_
    exact panicFree_get (by trivial) fun _ _ => by trivial

theorem getServiceIngress_panicFree (c : Context) : (getServiceIngress c).PanicFree := by
  unfold getServiceIngress
  dsimp only
  split
  · trivial
  · refine panicFree_get (by trivial) fun regions => ?_
    refine panicFree_get (by trivial) fun services => ?_
    exact panicFree_get (by trivial) fun _ _ => by trivial

theorem getRevisionIngress_panicFree (c : Context) : (getRevisionIngress c).PanicFree := by
  by_cases named : c.Named
  · rw [getRevisionIngress_of_named named]
    exact panicFree_toBucket (by trivial) fun _ _ => by trivial
  · rw [getRevisionIngress_of_unnamed named]
    trivial

theorem reapIfIdle_panicFree (timeout : Time) (config : ServerlessInstance)
    (reapedInstances : Nat) : (reapIfIdle timeout config reapedInstances).PanicFree := by
  rw [reapIfIdle_eq]
  intro current
  dsimp only
  split
  · refine panicFree_fetch (by trivial) fun instances => ?_
    intro removed
    cases removed with
    | none => trivial
    | some cfg => exact fun _ => trivial
  · trivial

theorem idleInstancesReaper_panicFree (timeout : Time) (order : List String)
    (reapedInstances : Nat) :
    (idleInstancesReaper timeout order reapedInstances).PanicFree := by
  induction order generalizing reapedInstances with
  | nil => trivial
  | cons key rest ih =>
      intro answer
      cases answer with
      | none => exact ih reapedInstances
      | some config => exact (reapIfIdle_panicFree timeout config reapedInstances).bind ih

/-- Only the handlers that change an instance need a client id, and only without a
configuration do they panic. -/
theorem Endpoint.handler_panicsIff (access : AccessControl) (endpoint : Endpoint)
    (c : Context) :
    Program.PanicsIff
      ((endpoint = .addInstance ∨ endpoint = .removeInstance) ∧
        c.getHeader xServerlessSSHClientID = "" ∧ getProxyConfig c = none)
      (endpoint.handler access c) := by
  cases endpoint with
  | addInstance =>
      simp only [true_or, true_and]
      exact addInstance_panicsIff c
  | removeInstance =>
      simp only [or_true, true_and]
      exact removeInstance_panicsIff c
  | getIngessRules => exact Program.PanicFree.panicsIff (fun _ => trivial) (by simp)
  | getAllowedHosts => exact Program.PanicFree.panicsIff (by trivial) (by simp)
  | getProjectIngress => exact (getProjectIngress_panicFree c).panicsIff (by simp)
  | getRegionIngress => exact (getRegionIngress_panicFree c).panicsIff (by simp)
  | getServiceIngress => exact (getServiceIngress_panicFree c).panicsIff (by simp)
  | getRevisionIngress => exact (getRevisionIngress_panicFree c).panicsIff (by simp)
  | getInstance => exact (getInstance_panicFree c).panicsIff (by simp)
  | getInstanceByID => exact (getInstanceByID_panicFree c).panicsIff (by simp)

end Handlers

section Routers

variable {config : ProxyConfig} {access : AccessControl}

theorem serveInternal_panicsIff (found : config.accessControl = some access)
    (request : Request) :
    Program.PanicsIff
      ((request.On .addInstance ∨ request.On .removeInstance) ∧
        request.header xServerlessSSHClientID = "")
      (serveInternal config request) := by
  by_cases matched : ∃ endpoint, request.On endpoint
  · obtain ⟨endpoint, on⟩ := matched
    have same : ∀ other, request.On other ↔ endpoint = other :=
      fun other => ⟨on.unique, fun equal => equal ▸ on⟩
    have unconfigured : getProxyConfig { request } = none := rfl
    have panicsIff := endpoint.handler_panicsIff access { request }
    simp only [unconfigured, and_true] at panicsIff
    rw [same, same, serveInternal_of_on found on]
    exact panicsIff
  · simp only [serveInternal, internalAPI_eq found]
    rw [Engine.serve_of_unmatched fun endpoint _ on => matched ⟨endpoint, on⟩]
    have off : ¬((request.On .addInstance ∨ request.On .removeInstance) ∧
        request.header xServerlessSSHClientID = "") := by
      rintro ⟨on | on, _⟩
      · exact matched ⟨_, on⟩
      · exact matched ⟨_, on⟩
    exact Program.PanicFree.panicsIff (by trivial) off

/-- With the configuration in the context no handler panics. -/
theorem guarded_panicFree (found : config.accessControl = some access)
    (endpoint : Endpoint) {c : Context} (running : c.aborted = false)
    (configured : getProxyConfig c ≠ none) :
    (runHandlers (endpoint.guarded config access) c).PanicFree := by
  rcases endpoint.runHandlers_guarded found running with ⟨_, served⟩ | ⟨_, operands, served⟩
  · rw [served]
    exact (endpoint.handler_panicsIff access c).free fun panics => configured panics.2.2
  · rw [served]
    trivial

/-- Behind the verifier nothing panics. -/
theorem runHandlers_verifier_panicsIff {idtoken : IDToken} {verifier : HandlerFunc}
    {rest : List HandlerFunc} (c : Context) (found : config.accessControl = some access)
    (built : idTokenVerifier idtoken config = some verifier) (running : c.aborted = false)
    (free : (runHandlers rest (c.set configContextKey config)).PanicFree) :
    Program.PanicsIff (PresentsMistyped idtoken config access c.request)
      (runHandlers (verifier :: rest) c) := by
  rcases runHandlers_verifier found built rest running with
    ⟨_, mistyped, panics⟩ | ⟨_, typed, passes⟩ | ⟨_, typed, code, _, rejects⟩
  · rw [panics]
    exact ⟨fun _ => rfl, fun typed => absurd mistyped typed⟩
  · rw [passes]
    exact free.panicsIff typed
  · rw [rejects]
    exact Program.PanicFree.panicsIff (by trivial) typed

theorem serveExternal_panicsIff (found : config.accessControl = some access)
    (job : ExternalRequest) :
    Program.PanicsIff (PresentsMistyped job.idtoken config access job.request)
      (serveExternal config job) := by
  obtain ⟨verifier, built⟩ := @exists_idTokenVerifier job.idtoken _ _ found
  simp only [serveExternal, externalAPI_eq access built]
  by_cases matched : ∃ endpoint ∈ Endpoint.external, job.request.On endpoint
  · obtain ⟨endpoint, member, on⟩ := matched
    rw [Engine.serve_of_on member on]
    apply runHandlers_verifier_panicsIff { request := job.request } found built rfl
    exact guarded_panicFree found endpoint rfl (Option.some_ne_none config)
  · rw [Engine.serve_of_unmatched fun endpoint member on =>
      matched ⟨endpoint, member, on⟩]
    exact runHandlers_verifier_panicsIff
      { request := job.request, writer := { status := 404 } } found built rfl trivial

/-- The routers can be built when there is an access control. -/
theorem starts_iff : Starts config ↔ ∃ access, config.accessControl = some access := by
  constructor
  · intro starts
    obtain ⟨internal, built⟩ := starts.1
    obtain ⟨handler, allowed, _⟩ := Option.bind_eq_some_iff.mp built
    obtain ⟨access, found, _⟩ := Option.bind_eq_some_iff.mp allowed
    exact ⟨access, found⟩
  · rintro ⟨access, found⟩
    refine ⟨⟨_, internalAPI_eq found⟩, fun idtoken => ?_⟩
    obtain ⟨verifier, built⟩ := @exists_idTokenVerifier idtoken _ _ found
    exact ⟨_, externalAPI_eq access built⟩

end Routers

/-- `main` has an access control exactly when the file was loaded. -/
theorem accessControl_configure_iff (projectID sshProxyServerID : String)
    (parse : String → Option String) (newYAML : Except String YAMLProvider) :
    (∃ access, (configure projectID sshProxyServerID parse
        (loadYAML newYAML)).accessControl = some access) ↔
      ∃ loaded, loadYAML newYAML = .ok loaded := by
  cases loaded : loadYAML newYAML with
  | ok config =>
      rw [accessControl_configure]
      exact ⟨fun _ => ⟨config, rfl⟩, fun _ => accessControl_of_loadYAML loaded⟩
  | error message =>
      have missing : (configure projectID sshProxyServerID parse
          (.error message)).accessControl = none := by
        simp only [configure]
        split
        · rfl
        · split <;> rfl
      rw [missing]
      constructor
      · rintro ⟨access, found⟩
        cases found
      · rintro ⟨config, found⟩
        cases found

/-- Every job panics at once under its condition, and not at all otherwise. -/
theorem ServerJob.program_panicsIff {config : ProxyConfig} {access : AccessControl}
    (found : config.accessControl = some access) (job : ServerJob) :
    Program.PanicsIff (job.Panics config access) (job.program config) := by
  cases job with
  | internal request =>
      exact (serveInternal_panicsIff found request).bind fun _ => by trivial
  | external job => exact (serveExternal_panicsIff found job).bind fun _ => by trivial
  | idleInstancesReaper timeout order =>
      apply Program.PanicFree.panicsIff _ id
      exact (idleInstancesReaper_panicFree timeout order 0).bind fun _ => by trivial

/-- The server starts without dereferencing nil exactly when the file was loaded.  Then,
in every run, the requests and passes that end in a panic are exactly those of
`ServerJob.Panics`. -/
theorem server_panics_iff (newYAML : Except String YAMLProvider)
    (projectID sshProxyServerID : String) (parse : String → Option String) :
    let config := configure projectID sshProxyServerID parse (loadYAML newYAML)
    (Starts config ↔ ∃ loaded, loadYAML newYAML = .ok loaded) ∧
      ∀ access, config.accessControl = some access →
        ∀ clock pool, (serverMachine config).Reaches (fun _ _ => True)
          (Pool.idle (Memory.initial clock)) pool →
        ∀ outcome ∈ pool.finished,
          outcome.result = none ↔ outcome.job.Panics config access := by
  intro config
  refine ⟨starts_iff.trans (accessControl_configure_iff ..), ?_⟩
  intro access found clock pool reached outcome member
  exact Program.panicked_iff_of_reaches (ServerJob.program_panicsIff found) reached member

/-- A request to the internal router as a thread that runs the handler. -/
theorem fresh_internal {config : ProxyConfig} {access : AccessControl}
    (found : config.accessControl = some access) {endpoint : Endpoint} {request : Request}
    (on : request.On endpoint) :
    (serverMachine config).fresh (.internal request) =
      ⟨.internal request, (endpoint.handler access { request }).bind fun c =>
        .pure (.response c), []⟩ := by
  rw [← serveInternal_of_on found on]
  rfl

/-- The configuration of a server with a configuration file. -/
def loadedConfig : ProxyConfig :=
  configure "p" "" some (loadYAML (.ok ⟨fun _ => (singleProjectFile, none)⟩))

/-- The server starts.  A registration ends with a response, a deregistration without a client id
in a panic, and a pass of the reaper over the registration with its count. -/
theorem server_panics_iff_requests :
    Starts loadedConfig ∧
      ∃ pool registered deregistered swept,
        (serverMachine loadedConfig).Reaches (fun _ _ => True) (Pool.idle (Memory.initial 0))
          pool ∧
        pool.finished = [registered, deregistered, swept] ∧
        (registered.job = .internal (instanceContext .post "p" "r" "s" "v" "i" "t").request ∧
          registered.result ≠ none) ∧
        (deregistered.job = .internal (instanceContext .delete "p" "r" "s" "v" "i" "").request ∧
          deregistered.result = none) ∧
        swept.job = .idleInstancesReaper 0 ["i"] ∧ swept.result ≠ none := by
  have panics_iff :=
    server_panics_iff (.ok ⟨fun _ => (singleProjectFile, none)⟩) "p" "" some
  have access : loadedConfig.accessControl = some _ := rfl
  have post : (instanceContext .post "p" "r" "s" "v" "i" "t").request.On .addInstance := ⟨rfl, rfl⟩
  have delete : (instanceContext .delete "p" "r" "s" "v" "i" "").request.On .removeInstance :=
    ⟨rfl, rfl⟩
  have started : (serverMachine loadedConfig).Reaches (fun _ _ => True)
      (Pool.idle (Memory.initial 0))
      ⟨Memory.initial 0, [(serverMachine loadedConfig).fresh (.internal _),
        (serverMachine loadedConfig).fresh (.internal _),
        (serverMachine loadedConfig).fresh (.idleInstancesReaper 0 ["i"])], [], []⟩ :=
    .head (.start (.internal (instanceContext .post "p" "r" "s" "v" "i" "t").request)) trivial rfl
      (.head (.start (.internal (instanceContext .delete "p" "r" "s" "v" "i" "").request)) trivial
        rfl (.head (.start (.idleInstancesReaper 0 ["i"])) trivial rfl .refl))
  -- the routes are found before the steps of the handlers are evaluated
  rw [fresh_internal access post, fresh_internal access delete] at started
  have ran : ∃ pool registered deregistered swept,
      (serverMachine loadedConfig).run (fun _ _ => true)
        ⟨Memory.initial 0,
          [⟨.internal (instanceContext .post "p" "r" "s" "v" "i" "t").request,
              (addInstance (instanceContext .post "p" "r" "s" "v" "i" "t")).bind fun c =>
                .pure (.response c), []⟩,
            ⟨.internal (instanceContext .delete "p" "r" "s" "v" "i" "").request,
              (removeInstance (instanceContext .delete "p" "r" "s" "v" "i" "")).bind fun c =>
                .pure (.response c), []⟩,
            (serverMachine loadedConfig).fresh (.idleInstancesReaper 0 ["i"])], [], []⟩
        (List.replicate 13 (.thread 0) ++ .thread 0 :: .routine 0 ::
          List.replicate 6 (.thread 0)) = some pool ∧
      pool.finished = [registered, deregistered, swept] ∧
      registered.job = .internal (instanceContext .post "p" "r" "s" "v" "i" "t").request ∧
      deregistered.job = .internal (instanceContext .delete "p" "r" "s" "v" "i" "").request ∧
      swept.job = .idleInstancesReaper 0 ["i"] :=
    ⟨_, _, _, _, rfl, rfl, rfl, rfl, rfl⟩
  obtain ⟨pool, registered, deregistered, swept, ran, finished, first, second, third⟩ := ran
  have reached := started.trans ((Machine.reaches_of_run ran).mono fun _ _ _ => trivial)
  have exact_iff := panics_iff.2 _ rfl 0 pool reached
  rw [finished, List.forall_mem_cons, List.forall_mem_cons, List.forall_mem_singleton, first,
    second, third] at exact_iff
  refine ⟨panics_iff.1.mpr ⟨_, rfl⟩, pool, registered, deregistered, swept, reached, finished,
    ⟨first, exact_iff.1.not.mpr ?_⟩, ⟨second, exact_iff.2.1.mpr ⟨.inr ⟨rfl, rfl⟩, rfl⟩⟩, third,
    exact_iff.2.2.not.mpr id⟩
  rintro ⟨_, unnamed⟩
  exact absurd unnamed (by decide)

/-- Without a configuration file the server does not start, and with one a registration
without a client id panics on the internal router. -/
theorem server_panics :
    (¬Starts (configure "p" "" some (loadYAML (.error "no such file")))) ∧
      ∃ config, loadYAML (.ok ⟨fun _ => (singleProjectFile, none)⟩) = .ok config ∧
        ∃ pool, (serverMachine (configure "p" "" some (.ok config))).Reaches
            (fun _ _ => True) (Pool.idle (Memory.initial 0)) pool ∧
          ∃ outcome ∈ pool.finished, outcome.result = none := by
  constructor
  · intro starts
    obtain ⟨access, found⟩ := starts_iff.mp starts
    cases found
  · have loaded : loadYAML (.ok ⟨fun _ => (singleProjectFile, none)⟩) = .ok _ := rfl
    refine ⟨_, loaded, ?_⟩
    let request : Request :=
      { method := .post, fullPath := Endpoint.addInstance.fullPath, params := []
        headers := [] }
    obtain ⟨access, found⟩ := accessControl_of_loadYAML loaded
    rw [← accessControl_configure "p" "" some] at found
    have panics := (ServerJob.program_panicsIff found (.internal request)).panics
      ⟨.inl ⟨rfl, rfl⟩, rfl⟩
    exact ⟨_, Program.reaches_panicked panics _, _, List.mem_singleton_self _, rfl⟩

end CloudRunSsh.Proxy
