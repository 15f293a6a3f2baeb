import CloudRunSsh.Proxy.Handlers

/-!
# Registration as a cascade of lookups

The four nested constructors of `addInstance` amount to one descent through the five
maps.  At each level a hit continues with the map found, and a miss continues with
the package-level map and stores it on the way back.  The bucket of the revision is
the only map that is ever created.
-/

namespace CloudRunSsh.Proxy

open CloudRunSsh.Concurrency

variable {Value : Type} (config : ServerlessInstance)

/-- Put the instance into the bucket of its revision, which is created on a miss. -/
def atRevisions (revisions : RevisionToInstancesMap) (rest : RegistryM Value) :
    RegistryM Value :=
  .op (.get revisions config.revision) fun
    | some instances => .op (.set instances config.id config) fun _ => rest
    | none =>
        .op (.new .instances) fun bucket =>
          .op (.set bucket config.id config) fun _ =>
            .op (.set revisions config.revision bucket) fun _ => rest

def atServices (services : ServiceToRevisionsMap) (rest : RegistryM Value) :
    RegistryM Value :=
  .op (.get services config.service) fun
    | some revisions => atRevisions config revisions rest
    | none =>
        atRevisions config revisionToInstancesMap
          (.op (.set services config.service revisionToInstancesMap) fun _ => rest)

def atRegions (regions : RegionToServicesMap) (rest : RegistryM Value) :
    RegistryM Value :=
  .op (.get regions config.region) fun
    | some services => atServices config services rest
    | none =>
        atServices config serviceToRevisionsMap
          (.op (.set regions config.region serviceToRevisionsMap) fun _ => rest)

def atProjects (projects : ProjectToRegionsMap) (rest : RegistryM Value) :
    RegistryM Value :=
  .op (.get projects config.project) fun
    | some regions => atRegions config regions rest
    | none =>
        atRegions config regionToServicesMap
          (.op (.set projects config.project regionToServicesMap) fun _ => rest)

/-- The innermost statement of every constructor. -/
def loadRevision (revisions : RevisionToInstancesMap) (rest : RegistryM Value) :
    RegistryM Value :=
  (revisions.getOrCompute config.revision (instanceToConfigMapProvider config)).bind
    fun entry =>
      if entry.2 = true then (entry.1.set config.id config).bind fun _ => rest else rest

def loadService (services : ServiceToRevisionsMap) (rest : RegistryM Value) :
    RegistryM Value :=
  (services.getOrCompute config.service (revisionToInstancesMapProvider config)).bind
    fun entry => if entry.2 = true then loadRevision config entry.1 rest else rest

def loadRegion (regions : RegionToServicesMap) (rest : RegistryM Value) :
    RegistryM Value :=
  (regions.getOrCompute config.region (serviceToRevisionsMapProvider config)).bind
    fun entry => if entry.2 = true then loadService config entry.1 rest else rest

def loadProject (projects : ProjectToRegionsMap) (rest : RegistryM Value) :
    RegistryM Value :=
  (projects.getOrCompute config.project (regionToServicesMapProvider config)).bind
    fun entry => if entry.2 = true then loadRegion config entry.1 rest else rest

variable {Value' : Type}

theorem loadRevision_bind (revisions : RevisionToInstancesMap) (rest : RegistryM Value)
    (after : Value → RegistryM Value') :
    (loadRevision config revisions rest).bind after =
      loadRevision config revisions (rest.bind after) := by
  simp only [loadRevision, Program.bind_assoc]
  congr 1
  funext entry
  split <;> simp only [Program.bind_assoc]

theorem loadService_bind (services : ServiceToRevisionsMap) (rest : RegistryM Value)
    (after : Value → RegistryM Value') :
    (loadService config services rest).bind after =
      loadService config services (rest.bind after) := by
  simp only [loadService, Program.bind_assoc]
  congr 1
  funext entry
  split
  · rw [loadRevision_bind]
  · rfl

theorem loadRegion_bind (regions : RegionToServicesMap) (rest : RegistryM Value)
    (after : Value → RegistryM Value') :
    (loadRegion config regions rest).bind after =
      loadRegion config regions (rest.bind after) := by
  simp only [loadRegion, Program.bind_assoc]
  congr 1
  funext entry
  split
  · rw [loadService_bind]
  · rfl

/-- `revisionToInstancesMapProvider` loads the revision and returns the
package-level map. -/
theorem revisionToInstancesMapProvider_eq :
    revisionToInstancesMapProvider config =
      loadRevision config revisionToInstancesMap (.pure revisionToInstancesMap) := by
  rfl

theorem serviceToRevisionsMapProvider_eq :
    serviceToRevisionsMapProvider config =
      loadService config serviceToRevisionsMap (.pure serviceToRevisionsMap) := by
  rfl

theorem regionToServicesMapProvider_eq :
    regionToServicesMapProvider config =
      loadRegion config regionToServicesMap (.pure regionToServicesMap) := by
  rfl

/-- `GetOrCompute` followed by work on a hit, as one lookup. -/
theorem getOrCompute_bind {kind : MapType} (map : Ref kind) (key : String)
    (valueFn : RegistryM kind.Value) (loaded : kind.Value → RegistryM Value)
    (rest : RegistryM Value) :
    ((map.getOrCompute key valueFn).bind fun entry =>
        if entry.2 = true then loaded entry.1 else rest) =
      .op (.get map key) fun
        | some value => loaded value
        | none => valueFn.bind fun value => .op (.set map key value) fun _ => rest := by
  refine congrArg (Program.op _) (funext fun answer => ?_)
  cases answer with
  | some value => rfl
  | none => exact Program.bind_assoc valueFn _ _

theorem loadRevision_eq (revisions : RevisionToInstancesMap) (rest : RegistryM Value) :
    loadRevision config revisions rest = atRevisions config revisions rest := by
  refine (getOrCompute_bind revisions config.revision _
    (fun instances => (instances.set config.id config).bind fun _ => rest) rest).trans ?_
  refine congrArg (Program.op _) (funext fun answer => ?_)
  cases answer <;> rfl

theorem loadService_eq (services : ServiceToRevisionsMap) (rest : RegistryM Value) :
    loadService config services rest = atServices config services rest := by
  refine (getOrCompute_bind services config.service _
    (fun revisions => loadRevision config revisions rest) rest).trans ?_
  refine congrArg (Program.op _) (funext fun answer => ?_)
  cases answer with
  | some revisions => exact loadRevision_eq config revisions rest
  | none =>
      dsimp only
      rw [revisionToInstancesMapProvider_eq, loadRevision_bind, loadRevision_eq]
      rfl

theorem loadRegion_eq (regions : RegionToServicesMap) (rest : RegistryM Value) :
    loadRegion config regions rest = atRegions config regions rest := by
  refine (getOrCompute_bind regions config.region _
    (fun services => loadService config services rest) rest).trans ?_
  refine congrArg (Program.op _) (funext fun answer => ?_)
  cases answer with
  | some services => exact loadService_eq config services rest
  | none =>
      dsimp only
      rw [serviceToRevisionsMapProvider_eq, loadService_bind, loadService_eq]
      rfl

theorem loadProject_eq (projects : ProjectToRegionsMap) (rest : RegistryM Value) :
    loadProject config projects rest = atProjects config projects rest := by
  refine (getOrCompute_bind projects config.project _
    (fun regions => loadRegion config regions rest) rest).trans ?_
  refine congrArg (Program.op _) (funext fun answer => ?_)
  cases answer with
  | some regions => exact loadRegion_eq config regions rest
  | none =>
      dsimp only
      rw [regionToServicesMapProvider_eq, loadRegion_bind, loadRegion_eq]
      rfl

/-- The registration that `addInstance` builds at time `ts`. -/
def registration (c : Context) (clientID : String) (ts : Time) : ServerlessInstance where
  project := c.param APIPathParam.project
  region := c.param APIPathParam.region
  service := c.param APIPathParam.service
  revision := c.param APIPathParam.revision
  id := c.param APIPathParam.instance
  tunnel := clientID
  lastPing := ts

/-- The response to a request about the instance that `c` addresses. -/
def respond (c : Context) (status : Nat) (clientID : String) : Context :=
  sendResponseWithHeaders c status (c.param APIPathParam.project)
    (c.param APIPathParam.region) (c.param APIPathParam.service)
    (c.param APIPathParam.revision) (c.param APIPathParam.instance) clientID

/-- `addInstance` once the client id is known. -/
def register (c : Context) (clientID : String) : RegistryM Context :=
  .op .now fun ts =>
    .go (.set instanceToConfigMap (registration c clientID ts).id
      (registration c clientID ts))
      (atProjects (registration c clientID ts) projectToRegionsMap
        (.pure (respond c 202 clientID)))

/-- `addInstance` is the check of the client id followed by the cascade. -/
theorem addInstance_eq (c : Context) :
    addInstance c =
      (getSSHProxyClientID c (getProxyConfig c)).bind fun
        | (c, none) => .pure c
        | (c, some clientID) => register c clientID := by
  refine congrArg (Program.bind _) (funext fun ⟨c, clientID⟩ => ?_)
  cases clientID with
  | none => rfl
  | some clientID =>
      refine congrArg (Program.op _) (funext fun ts => ?_)
      refine congrArg (Program.go _) ?_
      exact loadProject_eq (registration c clientID ts) projectToRegionsMap
        (.pure (respond c 202 clientID))

/-- The client id check keeps the request and performs no operation. -/
theorem getSSHProxyClientID_every {Value : Type} {allowed : RegistryOp → Prop}
    {c : Context} {rest : Context × Option String → RegistryM Value}
    (every : ∀ c' clientID, c'.request = c.request → (rest (c', clientID)).Every allowed) :
    ((getSSHProxyClientID c (getProxyConfig c)).bind rest).Every allowed := by
  simp only [getSSHProxyClientID]
  split
  · split
    · trivial
    · exact every _ _ rfl
  · exact every _ _ rfl

/-- The operations that the descent for a registration may perform: lookups above the
buckets, the creation of a bucket, and stores, which put nothing but the registration
itself into a map of instances. -/
def OfCascade : RegistryOp → Prop
  | @RegistryOp.get kind _ _ => kind ≠ .instances
  | @RegistryOp.set .instances _ key value => key = config.id ∧ value = config
  | @RegistryOp.set _ _ _ _ => True
  | .new kind => kind = .instances
  | .now | .del _ _ | .getAndDel _ _ | .forEach _ _ => False

variable {config} {rest : RegistryM Value}

theorem atRevisions_inline (revisions : RevisionToInstancesMap)
    (inline : rest.Inline (OfCascade config)) :
    (atRevisions config revisions rest).Inline (OfCascade config) := by
  refine ⟨nofun, fun answer => ?_⟩
  cases answer with
  | some instances => exact ⟨⟨rfl, rfl⟩, fun _ => inline⟩
  | none => exact ⟨rfl, fun _ => ⟨⟨rfl, rfl⟩, fun _ => ⟨trivial, fun _ => inline⟩⟩⟩

theorem atServices_inline (services : ServiceToRevisionsMap)
    (inline : rest.Inline (OfCascade config)) :
    (atServices config services rest).Inline (OfCascade config) := by
  refine ⟨nofun, fun answer => ?_⟩
  cases answer with
  | some revisions => exact atRevisions_inline revisions inline
  | none => exact atRevisions_inline _ ⟨trivial, fun _ => inline⟩

theorem atRegions_inline (regions : RegionToServicesMap)
    (inline : rest.Inline (OfCascade config)) :
    (atRegions config regions rest).Inline (OfCascade config) := by
  refine ⟨nofun, fun answer => ?_⟩
  cases answer with
  | some services => exact atServices_inline services inline
  | none => exact atServices_inline _ ⟨trivial, fun _ => inline⟩

theorem atProjects_inline (projects : ProjectToRegionsMap)
    (inline : rest.Inline (OfCascade config)) :
    (atProjects config projects rest).Inline (OfCascade config) := by
  refine ⟨nofun, fun answer => ?_⟩
  cases answer with
  | some regions => exact atRegions_inline regions inline
  | none => exact atRegions_inline _ ⟨trivial, fun _ => inline⟩

end CloudRunSsh.Proxy
