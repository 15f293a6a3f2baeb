import CloudRunSsh.Proxy.Gin

/-!
# Request handlers and the reaper

The handlers of `main.go` that read or change the registry, and the body of the
loop that drops idle instances.  Output to the server's log is left out.
-/

namespace CloudRunSsh.Proxy

open CloudRunSsh.Concurrency

namespace APIPathParam

def project : String := "project"
def region : String := "regions"
def service : String := "service"
def revision : String := "revision"
def «instance» : String := "instance"

end APIPathParam

def configContextKey : String := "ssh_proxy_server_config"

def xProjectID : String := "x-project-id"
def xServerlessRegion : String := "x-s8s-region"
def xServerlessService : String := "x-s8s-service"
def xServerlessRevision : String := "x-s8s-revision"
def xServerlessInstanceID : String := "x-s8s-instance-id"
def xServerlessSSHProxyID : String := "x-s8s-ssh-proxy-id"
def xServerlessSSHProxyHost : String := "x-s8s-ssh-proxy-host"
def xServerlessSSHProxyProjectID : String := "x-s8s-ssh-proxy-project-id"
def xServerlessSSHClientID : String := "x-s8s-ssh-client-id"
def xServerlessSSHServerID : String := "x-s8s-ssh-server-id"
def xServerlessSSHVisitorID : String := "x-s8s-ssh-visitor-id"
def xServerlessSSHAuthorization : String := "x-s8s-ssh-authorization"
def xServerlessSSHContentLength : String := "x-s8s-ssh-content-length"

/-- `sendResponseWithHeaders`. -/
def sendResponseWithHeaders (c : Context) (status : Nat)
    (project region service revision inst id : String) : Context :=
  let c := c.status status
  let c := c.header xProjectID project
  let c := c.header xServerlessRegion region
  let c := c.header xServerlessService service
  let c := c.header xServerlessRevision revision
  let c := c.header xServerlessInstanceID inst
  if id ≠ "" then c.header xServerlessSSHClientID id else c

/-- `getProxyConfig`: nil when no middleware stored a configuration. -/
def getProxyConfig (c : Context) : Option ProxyConfig := c.get configContextKey

/-- `getSSHProxyClientID`.  Without a client id it reads the configuration, which
panics when that is nil. -/
def getSSHProxyClientID (c : Context) (config : Option ProxyConfig) :
    RegistryM (Context × Option String) :=
  let clientID := c.getHeader xServerlessSSHClientID
  if clientID = "" then
    match config with
    | none => .panic
    | some config =>
        let c := c.header xServerlessSSHServerID config.id
        return (c.abortWithError 400 "missing SSH_PROXY_CLIENT_ID", none)
  else return (c, some clientID)

/-- `instanceToConfigMapProvider`: a new bucket that holds the instance. -/
def instanceToConfigMapProvider (config : ServerlessInstance) :
    RegistryM InstanceToConfigMap := do
  let configMap ← haxmapNew .instances
  configMap.set config.id config
  return configMap

/-- `revisionToInstancesMapProvider`. -/
def revisionToInstancesMapProvider (config : ServerlessInstance) :
    RegistryM RevisionToInstancesMap := do
  let (instances, loaded) ← revisionToInstancesMap.getOrCompute config.revision
    (instanceToConfigMapProvider config)
  if loaded then
    instances.set config.id config
  return revisionToInstancesMap

/-- `serviceToRevisionsMapProvider`. -/
def serviceToRevisionsMapProvider (config : ServerlessInstance) :
    RegistryM ServiceToRevisionsMap := do
  let (revisions, loaded) ← serviceToRevisionsMap.getOrCompute config.service
    (revisionToInstancesMapProvider config)
  if loaded then
    let (instances, loaded) ← revisions.getOrCompute config.revision
      (instanceToConfigMapProvider config)
    if loaded then
      instances.set config.id config
  return serviceToRevisionsMap

/-- `regionToServicesMapProvider`. -/
def regionToServicesMapProvider (config : ServerlessInstance) :
    RegistryM RegionToServicesMap := do
  let (services, loaded) ← regionToServicesMap.getOrCompute config.region
    (serviceToRevisionsMapProvider config)
  if loaded then
    let (revisions, loaded) ← services.getOrCompute config.service
      (revisionToInstancesMapProvider config)
    if loaded then
      let (instances, loaded) ← revisions.getOrCompute config.revision
        (instanceToConfigMapProvider config)
      if loaded then
        instances.set config.id config
  return regionToServicesMap

/-- `addInstance`. -/
def addInstance (c : Context) : RegistryM Context := do
  let proxyConfig := getProxyConfig c
  let (c, clientID) ← getSSHProxyClientID c proxyConfig
  match clientID with
  | none => return c
  | some clientID =>
      let project := c.param APIPathParam.project
      let region := c.param APIPathParam.region
      let service := c.param APIPathParam.service
      let revision := c.param APIPathParam.revision
      let inst := c.param APIPathParam.instance
      let ts ← now
      let config : ServerlessInstance :=
        { project, region, service, revision, id := inst, tunnel := clientID
          lastPing := ts }
      instanceToConfigMap.goSet inst config
      let (regions, loaded) ← projectToRegionsMap.getOrCompute project
        (regionToServicesMapProvider config)
      if loaded then
        let (services, loaded) ← regions.getOrCompute region
          (serviceToRevisionsMapProvider config)
        if loaded then
          let (revisions, loaded) ← services.getOrCompute service
            (revisionToInstancesMapProvider config)
          if loaded then
            let (instances, loaded) ← revisions.getOrCompute revision
              (instanceToConfigMapProvider config)
            if loaded then
              instances.set inst config
      return sendResponseWithHeaders c 202 project region service revision inst clientID

/-- `removeInstance`. -/
def removeInstance (c : Context) : RegistryM Context := do
  let proxyConfig := getProxyConfig c
  let (c, clientID) ← getSSHProxyClientID c proxyConfig
  match clientID with
  | none => return c
  | some clientID =>
      let project := c.param APIPathParam.project
      let region := c.param APIPathParam.region
      let service := c.param APIPathParam.service
      let revision := c.param APIPathParam.revision
      let inst := c.param APIPathParam.instance
      let notFound :=
        sendResponseWithHeaders c 404 project region service revision inst clientID
      let some regions ← projectToRegionsMap.get project | return notFound
      let some services ← regions.get region | return notFound
      let some revisions ← services.get service | return notFound
      let some instances ← revisions.get revision | return notFound
      let some config ← instances.get inst | return notFound
      if clientID = config.tunnel then
        let some cfg ← instances.getAndDel config.id | return notFound
        instanceToConfigMap.goDel cfg.id
        return sendResponseWithHeaders c 202 cfg.project cfg.region cfg.service
          cfg.revision cfg.id cfg.tunnel
      else return notFound

/-- `getInstanceByID`.  Marshalling a registration does not fail, so the branch for
an encoding error is left out. -/
def getInstanceByID (c : Context) : RegistryM Context := do
  let inst := c.param APIPathParam.instance
  if inst = "" then
    return c.status 400
  match ← instanceToConfigMap.get inst with
  | some cfg =>
      let c := sendResponseWithHeaders c 200 cfg.project cfg.region cfg.service
        cfg.revision cfg.id cfg.tunnel
      let c := c.header "content-type" "application/json"
      let c := c.write (.json cfg.toJson)
      return c.fprintln [cfg.id, cfg.tunnel, c.getHeader xServerlessSSHVisitorID]
  | none => return c.json 404 (.obj [("instance", .str inst)])

/-- `getInstance`. -/
def getInstance (c : Context) : RegistryM Context := do
  let inst := c.param APIPathParam.instance
  let notFound :=
    if inst ≠ "" then c.json 404 (.obj [("instance", .str inst)]) else c
  let some regions ← projectToRegionsMap.get (c.param APIPathParam.project)
    | return notFound
  let some services ← regions.get (c.param APIPathParam.region) | return notFound
  let some revisions ← services.get (c.param APIPathParam.service) | return notFound
  let some instances ← revisions.get (c.param APIPathParam.revision)
    | return notFound
  let some _ ← instances.get inst | return notFound
  getInstanceByID c

/-- The line that `sendIngressResponse` encodes for one instance. -/
def ingressLine (index : Nat) (config : ServerlessInstance) : Json :=
  .obj [("index", .num index), ("instance", config.toJson)]

/-- `sendIngressResponse`: one document per instance. -/
def sendIngressResponse (c : Context) (instances : List ServerlessInstance) : Context :=
  if instances.length = 0 then c.status 204
  else
    let c := c.status 200
    let c := c.header "transfer-encoding" "chunked"
    let c := c.header "content-type" "application/json"
    let c := c.header xServerlessSSHContentLength (toString instances.length)
    let c := c.writeHeaderNow
    instances.zipIdx.foldl
      (fun c entry => c.write (.json (ingressLine entry.2 entry.1))) c

/-- The registrations in `instanceToConfigMap` that satisfy `keep`. -/
def collectInstances (keep : ServerlessInstance → Bool) :
    RegistryM (List ServerlessInstance) := do
  let entries ← instanceToConfigMap.forEach
  return (entries.map Prod.snd).filter keep

/-- `getProjectIngress`. -/
def getProjectIngress (c : Context) : RegistryM Context := do
  let project := c.param APIPathParam.project
  if project = "" then
    return c.status 400
  let some _ ← projectToRegionsMap.get project | return c.status 404
  let instances ← collectInstances fun config => config.project == project
  return sendIngressResponse c instances

/-- `getRegionIngress`. -/
def getRegionIngress (c : Context) : RegistryM Context := do
  let project := c.param APIPathParam.project
  let region := c.param APIPathParam.region
  if project = "" ∨ region = "" then
    return c.status 400
  let some regions ← projectToRegionsMap.get project | return c.status 404
  let some _ ← regions.get region | return c.status 404
  let instances ← collectInstances fun config =>
    config.project == project && config.region == region
  return sendIngressResponse c instances

/-- `getServiceIngress`. -/
def getServiceIngress (c : Context) : RegistryM Context := do
  let project := c.param APIPathParam.project
  let region := c.param APIPathParam.region
  let service := c.param APIPathParam.service
  if project = "" ∨ region = "" ∨ service = "" then
    return c.status 400
  let some regions ← projectToRegionsMap.get project | return c.status 404
  let some services ← regions.get region | return c.status 404
  let some _ ← services.get service | return c.status 404
  let instances ← collectInstances fun config =>
    config.project == project && config.region == region && config.service == service
  return sendIngressResponse c instances

/-- `getRevisionIngress`: unlike its siblings it lists the bucket of the revision, not
the registrations whose fields match the path. -/
def getRevisionIngress (c : Context) : RegistryM Context := do
  let project := c.param APIPathParam.project
  let region := c.param APIPathParam.region
  let service := c.param APIPathParam.service
  let revision := c.param APIPathParam.revision
  if project = "" ∨ region = "" ∨ service = "" ∨ revision = "" then
    return c.status 400
  let some regions ← projectToRegionsMap.get project | return c.status 404
  let some services ← regions.get region | return c.status 404
  let some revisions ← services.get service | return c.status 404
  let some instances ← revisions.get revision | return c.status 404
  let entries ← instances.forEach
  return sendIngressResponse c (entries.map Prod.snd)

/-- `getIngessRules`: one line per registration, read by the tunnel front end. -/
def getIngessRules (c : Context) : RegistryM Context := do
  let c := c.status 200
  let c := c.header "content-type" "text/plain"
  let c := c.writeHeaderNow
  let entries ← instanceToConfigMap.forEach
  return entries.foldl (fun c entry => c.fprintln [entry.2.id, entry.2.tunnel]) c

/-- `getAllowedHosts`.  Building the handler dereferences the access control. -/
def getAllowedHosts (config : ProxyConfig) : Option HandlerFunc := do
  let accessControl ← config.accessControl
  return fun c => do
    let c := c.status 200
    let c := c.header "content-type" "text/plain"
    let c := c.writeHeaderNow
    return accessControl.allowedHosts.elements.foldl (fun c host => c.fprintln [host]) c

def maxIdleTimeout : Time := 15 * 60 * 1000000000

/-- The callback of `idleInstancesReaper` on one entry of the flat map. -/
def reapIfIdle (timeout : Time) (config : ServerlessInstance) (reapedInstances : Nat) :
    RegistryM Nat := do
  let idle ← since config.lastPing
  if idle ≥ timeout then
    let some instances ← revisionToInstancesMap.get config.revision
      | return reapedInstances
    let some cfg ← instances.getAndDel config.id | return reapedInstances
    instanceToConfigMap.del cfg.id
    return reapedInstances + 1
  else return reapedInstances

/-- One tick of `idleInstancesReaper`.  `ForEach` visits keys in an order of its own and
reads the entry of each when it gets there, so the order is an argument and a key
without an entry is passed over. -/
def idleInstancesReaper (timeout : Time) : List String → Nat → RegistryM Nat
  | [], reapedInstances => return reapedInstances
  | key :: rest, reapedInstances => do
      match ← instanceToConfigMap.get key with
      | some config =>
          let reapedInstances ← reapIfIdle timeout config reapedInstances
          idleInstancesReaper timeout rest reapedInstances
      | none => idleInstancesReaper timeout rest reapedInstances

end CloudRunSsh.Proxy
