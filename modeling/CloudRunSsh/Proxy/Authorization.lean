import CloudRunSsh.Proxy.Endpoints
import CloudRunSsh.Proxy.Jobs

/-!
# Authorization of the external router

A request on the external router performs no operation at all unless its token
identifies an allowed caller, and none that changes a map unless its path passes the
whitelists.  Both facts are read off the chain of handlers of each route; every
registry reached through that router then holds whitelisted registrations only.
-/

namespace CloudRunSsh.Proxy

open CloudRunSsh.Concurrency

/-- Operations that leave every map as it is. -/
def RegistryOp.IsRead : RegistryOp → Prop
  | .now | .get _ _ | .forEach _ _ => True
  | .new _ | .set _ _ _ | .del _ _ | .getAndDel _ _ => False

/-- An operation stores no registration except under the given path. -/
def RegistryOp.StoresUnder (project region service revision : String) :
    RegistryOp → Prop
  | @RegistryOp.set .instances _ _ config =>
      config.project = project ∧ config.region = region ∧ config.service = service ∧
        config.revision = revision
  | _ => True

/-- What a request may do: nothing unless it is identified, and only reads unless its
path is whitelisted, under which it registers then. -/
structure Permitted (idtoken : IDToken) (config : ProxyConfig)
    (accessControl : AccessControl) (request : Request) (operation : RegistryOp) :
    Prop where
  identified : Identified idtoken config accessControl.allowedIdentities request
  whitelisted : ¬operation.IsRead → request.Whitelisted accessControl
  stores : operation.StoresUnder (request.param APIPathParam.project)
    (request.param APIPathParam.region) (request.param APIPathParam.service)
    (request.param APIPathParam.revision)

theorem OfCascade.storesUnder {config : ServerlessInstance} {operation : RegistryOp}
    (ofCascade : OfCascade config operation) :
    operation.StoresUnder config.project config.region config.service
      config.revision := by
  cases operation with
  | @set kind map key value =>
      cases kind with
      | «instances» =>
          rcases ofCascade with ⟨_, rfl⟩
          exact ⟨rfl, rfl, rfl, rfl⟩
      | revisions | services | regions | projects => trivial
  | now | new | get | del | getAndDel | forEach => trivial

/-- An operation stores no registration except under the path of the request. -/
def Request.Stores (request : Request) : RegistryOp → Prop :=
  RegistryOp.StoresUnder (request.param APIPathParam.project)
    (request.param APIPathParam.region) (request.param APIPathParam.service)
    (request.param APIPathParam.revision)

theorem addInstance_every (c : Context) :
    (addInstance c).Every c.request.Stores := by
  rw [addInstance_eq]
  apply getSSHProxyClientID_every
  intro c' clientID same
  cases clientID with
  | none => trivial
  | some clientID =>
      have stores : c.request.Stores = c'.request.Stores := by rw [same]
      rw [stores]
      refine ⟨trivial, fun ts => ⟨⟨rfl, rfl, rfl, rfl⟩, ?_⟩⟩
      have inline : (atProjects (registration c' clientID ts) projectToRegionsMap
          (.pure (respond c' 202 clientID))).Inline (OfCascade _) :=
        atProjects_inline _ trivial
      exact inline.every.mono fun _ ofCascade => ofCascade.storesUnder

section Lookups

variable {Value : Type} {allowed : RegistryOp → Prop} {kind : MapType}

/-- A lookup with a continuation for each outcome. -/
theorem every_get {map : Ref kind} {key : String}
    {rest : Option kind.Value → RegistryM Value} (permitted : allowed (.get map key))
    (missing : (rest none).Every allowed)
    (found : ∀ value, (rest (some value)).Every allowed) :
    ((map.get key).bind rest).Every allowed := by
  constructor
  · exact permitted
  · intro answer
    cases answer with
    | none => exact missing
    | some value => exact found value

end Lookups

theorem removeInstance_every (c : Context) :
    (removeInstance c).Every c.request.Stores := by
  apply (removeInstance_storesNothing c).mono
  intro operation nothing
  cases operation with
  | new | set => exact nothing.elim
  | now | get | del | getAndDel | forEach => trivial

theorem getInstanceByID_every (c : Context) :
    (getInstanceByID c).Every RegistryOp.IsRead := by
  rw [getInstanceByID]
  dsimp only
  split
  · trivial
  · exact every_get (by trivial) (by trivial) fun _ => by trivial

theorem getInstance_every (c : Context) : (getInstance c).Every RegistryOp.IsRead := by
  refine every_get (by trivial) (by trivial) fun regions => ?_
  refine every_get (by trivial) (by trivial) fun services => ?_
  refine every_get (by trivial) (by trivial) fun revisions => ?_
  refine every_get (by trivial) (by trivial) fun instances => ?_
  refine every_get (by trivial) (by trivial) fun _ => ?_
  exact getInstanceByID_every c

theorem getProjectIngress_every (c : Context) :
    (getProjectIngress c).Every RegistryOp.IsRead := by
  unfold getProjectIngress
  dsimp only
  split
  · trivial
  · refine every_get (by trivial) (by trivial) fun _ => ?_
    exact ⟨trivial, fun _ => trivial⟩

theorem getRegionIngress_every (c : Context) :
    (getRegionIngress c).Every RegistryOp.IsRead := by
  unfold getRegionIngress
  dsimp only
  split
  · trivial
  · refine every_get (by trivial) (by trivial) fun regions => ?_
    refine every_get (by trivial) (by trivial) fun _ => ?_
    exact ⟨trivial, fun _ => trivial⟩

theorem getServiceIngress_every (c : Context) :
    (getServiceIngress c).Every RegistryOp.IsRead := by
  unfold getServiceIngress
  dsimp only
  split
  · trivial
  · refine every_get (by trivial) (by trivial) fun regions => ?_
    refine every_get (by trivial) (by trivial) fun services => ?_
    refine every_get (by trivial) (by trivial) fun _ => ?_
    exact ⟨trivial, fun _ => trivial⟩

theorem getRevisionIngress_every (c : Context) :
    (getRevisionIngress c).Every RegistryOp.IsRead := by
  unfold getRevisionIngress
  dsimp only
  split
  · trivial
  · refine every_get (by trivial) (by trivial) fun regions => ?_
    refine every_get (by trivial) (by trivial) fun services => ?_
    refine every_get (by trivial) (by trivial) fun revisions => ?_
    refine every_get (by trivial) (by trivial) fun instances => ?_
    exact ⟨trivial, fun _ => trivial⟩

theorem getIngessRules_every (c : Context) :
    (getIngessRules c).Every RegistryOp.IsRead :=
  ⟨trivial, fun _ => trivial⟩

theorem RegistryOp.IsRead.storesUnder {operation : RegistryOp}
    (isRead : operation.IsRead) (project region service revision : String) :
    operation.StoresUnder project region service revision := by
  cases operation with
  | set => exact isRead.elim
  | now | new | get | del | getAndDel | forEach => trivial

/-- Only the endpoints behind the access control do more than read, and they store
nothing except under the path of the request. -/
theorem Endpoint.handler_every (access : AccessControl) (endpoint : Endpoint)
    (c : Context) :
    (endpoint.handler access c).Every fun operation : RegistryOp =>
      (¬operation.IsRead → endpoint.Controlled) ∧ c.request.Stores operation := by
  have reads : (endpoint.handler access c).Every RegistryOp.IsRead →
      (endpoint.handler access c).Every fun operation : RegistryOp =>
        (¬operation.IsRead → endpoint.Controlled) ∧ c.request.Stores operation :=
    fun every => every.mono fun _ isRead =>
      ⟨fun writes => absurd isRead writes, isRead.storesUnder ..⟩
  cases endpoint with
  | getIngessRules => exact reads (getIngessRules_every c)
  | getAllowedHosts => exact reads (by trivial)
  | getProjectIngress => exact reads (getProjectIngress_every c)
  | getRegionIngress => exact reads (getRegionIngress_every c)
  | getServiceIngress => exact reads (getServiceIngress_every c)
  | getRevisionIngress => exact reads (getRevisionIngress_every c)
  | getInstance => exact reads (getInstance_every c)
  | getInstanceByID => exact reads (getInstanceByID_every c)
  | addInstance =>
      exact (addInstance_every c).mono fun _ stores => ⟨fun _ => trivial, stores⟩
  | removeInstance =>
      exact (removeInstance_every c).mono fun _ stores => ⟨fun _ => trivial, stores⟩

section Routes

variable {idtoken : IDToken} {config : ProxyConfig} {access : AccessControl}
variable {verifier : HandlerFunc} {c : Context}

/-- The handlers behind the verifier only run for an identified request. -/
theorem verified_every {allowed : RegistryOp → Prop} {rest : List HandlerFunc}
    (found : config.accessControl = some access)
    (built : idTokenVerifier idtoken config = some verifier) (running : c.aborted = false)
    (after : Identified idtoken config access.allowedIdentities c.request →
      (runHandlers rest (c.set configContextKey config)).Every allowed) :
    (runHandlers (verifier :: rest) c).Every allowed := by
  rcases runHandlers_verifier found built rest running with
    ⟨_, _, panics⟩ | ⟨identified, _, passes⟩ | ⟨_, _, code, _, rejects⟩
  · rw [panics]
    trivial
  · rw [passes]
    exact after identified
  · rw [rejects]
    trivial

/-- What an endpoint does for an identified request is permitted. -/
theorem guarded_every (found : config.accessControl = some access) (endpoint : Endpoint)
    (running : c.aborted = false)
    (identified : Identified idtoken config access.allowedIdentities c.request) :
    (runHandlers (endpoint.guarded config access) c).Every
      (Permitted idtoken config access c.request) := by
  rcases endpoint.runHandlers_guarded found running with
    ⟨admitted, served⟩ | ⟨_, operands, served⟩
  · rw [served]
    apply (endpoint.handler_every access c).mono
    rintro operation ⟨controlled, stores⟩
    exact ⟨identified, fun writes => admitted (controlled writes), stores⟩
  · rw [served]
    trivial

/-- Whatever the external router does for a request is permitted. -/
theorem serveExternal_every (found : config.accessControl = some access)
    (job : ExternalRequest) :
    (serveExternal config job).Every
      (Permitted job.idtoken config access job.request) := by
  obtain ⟨verifier, built⟩ := @exists_idTokenVerifier job.idtoken _ _ found
  simp only [serveExternal, externalAPI_eq access built]
  by_cases matched : ∃ endpoint ∈ Endpoint.external, job.request.On endpoint
  · obtain ⟨endpoint, member, on⟩ := matched
    rw [Engine.serve_of_on member on]
    apply verified_every found built rfl
    intro identified
    exact @guarded_every _ _ _ (Context.set { request := job.request } configContextKey config)
      found endpoint rfl identified
  · rw [Engine.serve_of_unmatched fun endpoint member on =>
      matched ⟨endpoint, member, on⟩]
    exact verified_every found built rfl fun _ => trivial

end Routes

/-- Any number of external requests over one memory, in any interleaving. -/
def externalMachine (config : ProxyConfig) :
    Machine Memory ExternalRequest (RegistryM Context) RegistryOp (Option Context) Nat :=
  Program.machine execute (serveExternal config) Memory.elapse

/-- Every registration in any map of the memory has a whitelisted path. -/
def Memory.Whitelisted (access : AccessControl) (mem : Memory) : Prop :=
  ∀ (map : InstanceToConfigMap) (key : String) (config : ServerlessInstance),
    mem.lookup map key = some config →
    Proxy.Whitelisted access config.project config.region config.service config.revision

theorem Permitted.whitelisted_of_set {idtoken : IDToken} {config : ProxyConfig}
    {access : AccessControl} {request : Request} {map : InstanceToConfigMap}
    {key : String} {stored : ServerlessInstance}
    (permitted : Permitted idtoken config access request (.set map key stored)) :
    Proxy.Whitelisted access stored.project stored.region stored.service
      stored.revision := by
  obtain ⟨project, region, service, revision⟩ := permitted.stores
  rw [project, region, service, revision]
  exact permitted.whitelisted id

/-- A permitted operation adds whitelisted registrations only. -/
theorem Memory.Whitelisted.execute {idtoken : IDToken} {config : ProxyConfig}
    {access : AccessControl} {request : Request} {operation : RegistryOp} {mem : Memory}
    (permitted : Permitted idtoken config access request operation)
    (whitelisted : mem.Whitelisted access) :
    (execute operation mem).2.Whitelisted access := by
  intro map key stored found
  rcases lookup_of_execute found with old | rfl
  · exact whitelisted map key stored old
  · exact permitted.whitelisted_of_set

section Runs

variable {config : ProxyConfig} {access : AccessControl}

variable {pool next : Pool Memory ExternalRequest (RegistryM Context) RegistryOp
  (Option Context)}

/-- In a run of the external router, every operation about to be performed is permitted
for the request it is for. -/
theorem external_pending (found : config.accessControl = some access) {mem : Memory}
    (reached : (externalMachine config).Reaches (fun _ _ => True) (Pool.idle mem) pool)
    {choice : Choice ExternalRequest Nat} {job : ExternalRequest}
    {operation : RegistryOp}
    (about : Program.pending pool choice = some (job, operation)) :
    Permitted job.idtoken config access job.request operation :=
  Program.permitted_of_reaches (serveExternal_every found) reached about

/-- A registry that only the external router changed holds whitelisted registrations
only. -/
theorem external_whitelisted (found : config.accessControl = some access) {clock : Time}
    (reached : (externalMachine config).Reaches (fun _ _ => True)
      (Pool.idle (Memory.initial clock)) pool) :
    pool.mem.Whitelisted access := by
  have initial : (Memory.initial clock).Whitelisted access := by
    intro map key stored found
    cases found
  have holds : (Program.permitting (Memory.Whitelisted access) fun job : ExternalRequest =>
      Permitted job.idtoken config access job.request).Holds pool := by
    apply Program.permitting_of_reaches (fun job (_ : True) => serveExternal_every found job)
      _ _ (fun _ _ _ => trivial) initial reached
    · exact fun _ _ _ permitted whitelisted => whitelisted.execute permitted
    · exact fun _ _ whitelisted => whitelisted
  exact holds.memory

end Runs

theorem not_isRead_of_execute_ne {operation : RegistryOp} {mem : Memory}
    (changed : (execute operation mem).2 ≠ mem) : ¬operation.IsRead := by
  intro isRead
  cases operation with
  | now | get | forEach => exact changed rfl
  | new | set | del | getAndDel => exact isRead

/-- Authorization of the external router, for every loaded configuration as `main`
completes it.  From any registry, whatever requests arrive and however they
interleave, an operation is only performed for an identified request, and the memory
only changes for one whose path is whitelisted as well; so a registry that started
empty only ever holds whitelisted registrations. -/
theorem externalAPI_authorized {newYAML : Except String YAMLProvider}
    {loaded : ProxyConfig} (wasLoaded : loadYAML newYAML = .ok loaded)
    (projectID sshProxyServerID : String) (parse : String → Option String) :
    let config := configure projectID sshProxyServerID parse (.ok loaded)
    let machine := externalMachine config
    ∃ access, config.accessControl = some access ∧
      (∀ mem pool, machine.Reaches (fun _ _ => True) (Pool.idle mem) pool →
        (∀ (choice : Choice ExternalRequest Nat) job operation,
          Program.pending pool choice = some (job, operation) →
          Identified job.idtoken config access.allowedIdentities job.request) ∧
        (∀ choice next, machine.step pool choice = some next →
          (∀ duration, choice ≠ .event duration) → next.mem ≠ pool.mem →
          ∃ job operation, Program.pending pool choice = some (job, operation) ∧
            Identified job.idtoken config access.allowedIdentities job.request ∧
            job.request.Whitelisted access)) ∧
      (∀ clock pool, machine.Reaches (fun _ _ => True)
          (Pool.idle (Memory.initial clock)) pool →
        pool.mem.Whitelisted access) := by
  obtain ⟨access, found⟩ := accessControl_of_loadYAML wasLoaded
  rw [← accessControl_configure projectID sshProxyServerID parse] at found
  refine ⟨access, found, ?_, fun clock pool => external_whitelisted found⟩
  intro mem pool reached
  constructor
  · intro choice job operation about
    exact (external_pending found reached about).identified
  · intro choice next stepped internal changed
    obtain ⟨job, operation, about, performed⟩ :=
      Program.pending_of_mem_ne stepped internal changed
    have permitted := external_pending found reached about
    rw [performed] at changed
    exact ⟨job, operation, about, permitted.identified,
      permitted.whitelisted (not_isRead_of_execute_ne changed)⟩

/-- A configuration file that admits registrations of one project. -/
def singleProjectFile : ProxyConfigFile where
  id := allUUIDs
  projectID := "host"
  accessControl := {
    allowedProjects := ["tenant"]
    allowedIdentities := ["tunnel@tenant.iam.gserviceaccount.com"] }

/-- With that file, whatever requests arrive, only that project gets registered. -/
theorem externalAPI_singleProject :
    ∃ loaded, loadYAML (.ok ⟨fun _ => (singleProjectFile, none)⟩) = .ok loaded ∧
      ∀ clock pool,
        (externalMachine (configure "" "" some (.ok loaded))).Reaches (fun _ _ => True)
          (Pool.idle (Memory.initial clock)) pool →
        ∀ (map : InstanceToConfigMap) key config,
          pool.mem.lookup map key = some config → config.project = "tenant" := by
  have wasLoaded : loadYAML (.ok ⟨fun _ => (singleProjectFile, none)⟩) = .ok _ := rfl
  refine ⟨_, wasLoaded, ?_⟩
  intro clock pool reached map key config stored
  obtain ⟨access, found, -, whitelisted⟩ := externalAPI_authorized wasLoaded "" "" some
  rw [accessControl_configure] at found
  cases found
  have admitted := (whitelisted clock pool reached map key config stored).project.2
  simpa [optionalSet, StringSet.newSet, singleProjectFile] using admitted

end CloudRunSsh.Proxy
