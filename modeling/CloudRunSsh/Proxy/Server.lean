import CloudRunSsh.Proxy.Middleware

/-!
# The proxy server

The configuration that `main` settles on and the two routers it serves.
-/

namespace CloudRunSsh.Proxy

def projectAPI : String := "/project/:" ++ APIPathParam.project
def regionAPI : String := "/region/:" ++ APIPathParam.region
def serviceAPI : String := "/service/:" ++ APIPathParam.service
def revisionAPI : String := "/revision/:" ++ APIPathParam.revision
def instanceAPI : String := "/instance/:" ++ APIPathParam.instance

/-- `uuid.Nil.String()`. -/
def allUUIDs : String := "00000000-0000-0000-0000-000000000000"

/-- The configuration part of `main`: what was loaded, completed from the environment,
with the canonical text of its id.  `parse` is `uuid.Parse` followed by `String`. -/
def configure (projectID sshProxyServerID : String) (parse : String → Option String)
    (loaded : Except String ProxyConfig) : ProxyConfig :=
  let (sshProxyServerID, config) :=
    match loaded with
    | .ok c => (c.id, if c.projectID = "" then c.withProjectID projectID else c)
    | .error _ => (sshProxyServerID, ProxyConfig.new projectID)
  if sshProxyServerID = "" then config.withID allUUIDs
  else
    match parse sshProxyServerID with
    | some id => config.withID id
    | none => config.withID allUUIDs

/-- `main` changes nothing about the access control. -/
theorem accessControl_configure (projectID sshProxyServerID : String)
    (parse : String → Option String) (config : ProxyConfig) :
    (configure projectID sshProxyServerID parse (.ok config)).accessControl =
      config.accessControl := by
  simp only [configure]
  split
  · split <;> rfl
  · split <;> split <;> rfl

/-- The internal router.  It fails to be built when the access control is nil. -/
def internalAPI (config : ProxyConfig) : Option Engine := do
  let allowedHosts ← getAllowedHosts config
  let internalAPI : RouterGroup := {}
  let internalProjectAPI := internalAPI.group projectAPI
  let internalRegionAPI := internalProjectAPI.group regionAPI
  let internalServiceAPI := internalRegionAPI.group serviceAPI
  let internalRevisionAPI := internalServiceAPI.group revisionAPI
  return {
    middleware := internalAPI.handlers
    routes := [
      internalAPI.handle .get "/ingress-rules" [getIngessRules],
      internalAPI.handle .get "/allowed-hosts" [allowedHosts],
      internalProjectAPI.handle .get "/" [getProjectIngress],
      internalRegionAPI.handle .get "/" [getRegionIngress],
      internalServiceAPI.handle .get "/" [getServiceIngress],
      internalRevisionAPI.handle .get "/" [getRevisionIngress],
      internalRevisionAPI.handle .get instanceAPI [getInstance],
      internalRevisionAPI.handle .post instanceAPI [addInstance],
      internalRevisionAPI.handle .delete instanceAPI [removeInstance],
      internalAPI.handle .get instanceAPI [getInstanceByID]] }

/-- The external router.  The token verifier guards every route, the access control
only those of a single instance. -/
def externalAPI (idtoken : IDToken) (config : ProxyConfig) : Option Engine := do
  let verifier ← idTokenVerifier idtoken config
  let externalAPI : RouterGroup := ({} : RouterGroup).use verifier
  let externalProjectAPI := externalAPI.group projectAPI
  let externalRegionAPI := externalProjectAPI.group regionAPI
  let externalServiceAPI := externalRegionAPI.group serviceAPI
  let externalRevisionAPI := externalServiceAPI.group revisionAPI
  let accessControlFilter := accessControl config
  return {
    middleware := externalAPI.handlers
    routes := [
      externalProjectAPI.handle .get "/" [getProjectIngress],
      externalRegionAPI.handle .get "/" [getRegionIngress],
      externalServiceAPI.handle .get "/" [getServiceIngress],
      externalRevisionAPI.handle .get "/" [getRevisionIngress],
      externalRevisionAPI.handle .get instanceAPI [accessControlFilter, getInstance],
      externalRevisionAPI.handle .post instanceAPI [accessControlFilter, addInstance],
      externalRevisionAPI.handle .delete instanceAPI
        [accessControlFilter, removeInstance],
      externalAPI.handle .get instanceAPI [getInstanceByID]] }

/-- A request on the external router, with the token service as it answers then. -/
structure ExternalRequest where
  request : Request
  idtoken : IDToken

/-- The program that serves an external request. -/
def serveExternal (config : ProxyConfig) (job : ExternalRequest) : RegistryM Context :=
  match externalAPI job.idtoken config with
  | some externalAPI => externalAPI.serve job.request
  | none => .panic

/-- A request about one instance, with a client id, as the internal router passes it
on. -/
def instanceContext (method : Method) (project region service revision inst : String)
    (clientID : String) : Context where
  request := {
    method
    fullPath := projectAPI ++ regionAPI ++ serviceAPI ++ revisionAPI ++ instanceAPI
    params := [(APIPathParam.project, project), (APIPathParam.region, region),
      (APIPathParam.service, service), (APIPathParam.revision, revision),
      (APIPathParam.instance, inst)]
    headers := [(xServerlessSSHClientID, clientID)] }

end CloudRunSsh.Proxy
