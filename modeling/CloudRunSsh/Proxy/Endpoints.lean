import CloudRunSsh.Proxy.Server
import CloudRunSsh.Proxy.Verdicts

/-!
# Endpoints

The routes of the two routers, with the chain of handlers that each of them runs.
Both routers share the handlers of a single instance and of the listings; the external
one puts the verifier in front of all of them and the access control in front of those
that address an instance by its path.
-/

namespace CloudRunSsh.Proxy

open CloudRunSsh.Concurrency

/-- The routes, named by their handlers. -/
inductive Endpoint where
  | getIngessRules
  | getAllowedHosts
  | getProjectIngress
  | getRegionIngress
  | getServiceIngress
  | getRevisionIngress
  | getInstance
  | addInstance
  | removeInstance
  | getInstanceByID
  deriving DecidableEq, Repr

namespace Endpoint

def method : Endpoint → Method
  | .addInstance => .post
  | .removeInstance => .delete
  | .getIngessRules | .getAllowedHosts | .getProjectIngress | .getRegionIngress
  | .getServiceIngress | .getRevisionIngress | .getInstance | .getInstanceByID => .get

/-- The pattern under which both routers register the handler. -/
def fullPath : Endpoint → String
  | .getIngessRules => "/ingress-rules"
  | .getAllowedHosts => "/allowed-hosts"
  | .getProjectIngress => projectAPI ++ "/"
  | .getRegionIngress => projectAPI ++ regionAPI ++ "/"
  | .getServiceIngress => projectAPI ++ regionAPI ++ serviceAPI ++ "/"
  | .getRevisionIngress => projectAPI ++ regionAPI ++ serviceAPI ++ revisionAPI ++ "/"
  | .getInstance | .addInstance | .removeInstance =>
      projectAPI ++ regionAPI ++ serviceAPI ++ revisionAPI ++ instanceAPI
  | .getInstanceByID => instanceAPI

/-- The handler at the end of the chain. -/
def handler (access : AccessControl) : Endpoint → HandlerFunc
  | .getIngessRules => Proxy.getIngessRules
  | .getAllowedHosts => fun c =>
      let c := c.status 200
      let c := c.header "content-type" "text/plain"
      let c := c.writeHeaderNow
      .pure (access.allowedHosts.elements.foldl (fun c host => c.fprintln [host]) c)
  | .getProjectIngress => Proxy.getProjectIngress
  | .getRegionIngress => Proxy.getRegionIngress
  | .getServiceIngress => Proxy.getServiceIngress
  | .getRevisionIngress => Proxy.getRevisionIngress
  | .getInstance => Proxy.getInstance
  | .addInstance => Proxy.addInstance
  | .removeInstance => Proxy.removeInstance
  | .getInstanceByID => Proxy.getInstanceByID

/-- The endpoints of the internal router. -/
def internal : List Endpoint :=
  [.getIngessRules, .getAllowedHosts, .getProjectIngress, .getRegionIngress,
    .getServiceIngress, .getRevisionIngress, .getInstance, .addInstance, .removeInstance,
    .getInstanceByID]

/-- The endpoints of the external router. -/
def external : List Endpoint :=
  [.getProjectIngress, .getRegionIngress, .getServiceIngress, .getRevisionIngress,
    .getInstance, .addInstance, .removeInstance, .getInstanceByID]

theorem mem_internal (endpoint : Endpoint) : endpoint ∈ internal := by
  cases endpoint <;> decide

/-- The endpoints that the external router puts behind the access control. -/
def Controlled : Endpoint → Prop
  | .getInstance | .addInstance | .removeInstance => True
  | .getIngessRules | .getAllowedHosts | .getProjectIngress | .getRegionIngress
  | .getServiceIngress | .getRevisionIngress | .getInstanceByID => False

instance : DecidablePred Controlled := fun endpoint =>
  match endpoint with
  | .getInstance | .addInstance | .removeInstance => .isTrue trivial
  | .getIngessRules | .getAllowedHosts | .getProjectIngress | .getRegionIngress
  | .getServiceIngress | .getRevisionIngress | .getInstanceByID => .isFalse id

/-- A pattern and a method belong to one endpoint only. -/
theorem eq_of_route {endpoint other : Endpoint} (method : endpoint.method = other.method)
    (fullPath : endpoint.fullPath = other.fullPath) : endpoint = other := by
  cases endpoint <;> cases other <;> first
    | rfl
    | exact absurd method (by decide)
    | exact absurd fullPath (by decide)

/-- The route of an endpoint whose handler some middleware precedes. -/
def route (chain : Endpoint → List HandlerFunc) (endpoint : Endpoint) : Route :=
  ⟨endpoint.method, endpoint.fullPath, chain endpoint⟩

end Endpoint

/-- The router matches the request with the endpoint. -/
def Request.On (request : Request) (endpoint : Endpoint) : Prop :=
  request.method = endpoint.method ∧ request.fullPath = endpoint.fullPath

theorem Request.On.unique {request : Request} {endpoint other : Endpoint}
    (on : request.On endpoint) (on' : request.On other) : endpoint = other :=
  Endpoint.eq_of_route (on.1.symm.trans on'.1) (on.2.symm.trans on'.2)

/-- A handler at the end of a chain. -/
theorem runHandlers_singleton (handler : HandlerFunc) (c : Context) :
    runHandlers [handler] c = handler c := by
  have ends : (fun returned : Context =>
      if returned.aborted then (Pure.pure returned : RegistryM Context)
      else runHandlers [] returned) = .pure := by
    funext returned
    split <;> rfl
  rw [runHandlers, Program.bind_eq, ends, Program.bind_pure]

/-- A router with routes for some endpoints runs the chain of the one that matches. -/
theorem Engine.serve_of_on {middleware : List HandlerFunc} {endpoints : List Endpoint}
    {chain : Endpoint → List HandlerFunc} {request : Request} {endpoint : Endpoint}
    (member : endpoint ∈ endpoints) (on : request.On endpoint) :
    Engine.serve ⟨middleware, endpoints.map (Endpoint.route chain)⟩ request =
      runHandlers (chain endpoint) { request } := by
  have matching : (endpoints.map (Endpoint.route chain)).find? (fun route =>
      route.method == request.method && route.fullPath == request.fullPath) =
      some (Endpoint.route chain endpoint) := by
    induction endpoints with
    | nil => exact absurd member List.not_mem_nil
    | cons other endpoints ih =>
        rw [List.map_cons, List.find?_cons]
        by_cases same : request.On other
        · rw [on.unique same]
          simp only [Endpoint.route, same.1, same.2, BEq.rfl, Bool.and_self]
        · have missed : ((Endpoint.route chain other).method == request.method &&
              (Endpoint.route chain other).fullPath == request.fullPath) = false := by
            rw [Bool.and_eq_false_imp]
            intro method
            rw [beq_eq_false_iff_ne]
            intro fullPath
            exact same ⟨(beq_iff_eq.mp method).symm, fullPath.symm⟩
          rw [missed]
          rcases List.mem_cons.mp member with rfl | later
          · exact absurd on same
          · exact ih later
  simp only [Engine.serve, matching]
  rfl

/-- Without a match it runs its middleware on a context with status 404. -/
theorem Engine.serve_of_unmatched {middleware : List HandlerFunc}
    {endpoints : List Endpoint} {chain : Endpoint → List HandlerFunc} {request : Request}
    (unmatched : ∀ endpoint ∈ endpoints, ¬request.On endpoint) :
    Engine.serve ⟨middleware, endpoints.map (Endpoint.route chain)⟩ request =
      runHandlers middleware { request, writer := { status := 404 } } := by
  rw [Engine.serve]
  split
  · rename_i route matched
    obtain ⟨endpoint, member, rfl⟩ := List.mem_map.mp (List.mem_of_find?_eq_some matched)
    have on := List.find?_some matched
    simp only [Bool.and_eq_true, beq_iff_eq] at on
    exact absurd ⟨on.1.symm, on.2.symm⟩ (unmatched endpoint member)
  · rfl

/-- The program that serves an internal request. -/
def serveInternal (config : ProxyConfig) (request : Request) : RegistryM Context :=
  match internalAPI config with
  | some internalAPI => internalAPI.serve request
  | none => .panic

section Routers

variable {config : ProxyConfig} {access : AccessControl}

/-- The internal router runs the handlers alone. -/
theorem internalAPI_eq (found : config.accessControl = some access) :
    internalAPI config =
      some ⟨[], Endpoint.internal.map
        (Endpoint.route fun endpoint => [endpoint.handler access])⟩ := by
  simp only [internalAPI, getAllowedHosts, found, Option.bind_eq_bind, Option.bind_some,
    Option.pure_def]
  rfl

theorem serveInternal_of_on (found : config.accessControl = some access) {endpoint : Endpoint}
    {request : Request} (on : request.On endpoint) :
    serveInternal config request = endpoint.handler access { request } := by
  simp only [serveInternal, internalAPI_eq found]
  rw [Engine.serve_of_on endpoint.mem_internal on, runHandlers_singleton]

/-- What the external router runs behind the verifier. -/
def Endpoint.guarded (config : ProxyConfig) (access : AccessControl)
    (endpoint : Endpoint) : List HandlerFunc :=
  if endpoint.Controlled then [accessControl config, endpoint.handler access]
  else [endpoint.handler access]

/-- The external router runs the verifier first. -/
theorem externalAPI_eq (access : AccessControl) {idtoken : IDToken} {verifier : HandlerFunc}
    (built : idTokenVerifier idtoken config = some verifier) :
    externalAPI idtoken config =
      some ⟨[verifier], Endpoint.external.map
        (Endpoint.route fun endpoint => verifier :: endpoint.guarded config access)⟩ := by
  simp only [externalAPI, built, Option.bind_eq_bind, Option.bind_some, Option.pure_def]
  rfl

/-- What the verifier makes of the chain behind it. -/
theorem runHandlers_verifier {idtoken : IDToken} {verifier : HandlerFunc}
    (found : config.accessControl = some access)
    (built : idTokenVerifier idtoken config = some verifier) (rest : List HandlerFunc)
    {c : Context} (running : c.aborted = false) :
    (¬Identified idtoken config access.allowedIdentities c.request ∧
        PresentsMistyped idtoken config access c.request ∧
        runHandlers (verifier :: rest) c = .panic) ∨
      (Identified idtoken config access.allowedIdentities c.request ∧
        ¬PresentsMistyped idtoken config access c.request ∧
        runHandlers (verifier :: rest) c =
          runHandlers rest (c.set configContextKey config)) ∨
      (¬Identified idtoken config access.allowedIdentities c.request ∧
        ¬PresentsMistyped idtoken config access c.request ∧
        ∃ code ∈ [401, 403, 500],
          runHandlers (verifier :: rest) c = .pure (c.abortWithStatus code)) := by
  have unaborted : (c.set configContextKey config).aborted = false := running
  rw [runHandlers]
  rcases idTokenVerifier_verdict found built c with
    ⟨stranger, mistyped, panics⟩ | ⟨identified, typed, passes⟩ |
      ⟨stranger, typed, code, listed, rejects⟩
  · refine .inl ⟨stranger, mistyped, ?_⟩
    rw [panics]
    rfl
  · refine .inr (.inl ⟨identified, typed, ?_⟩)
    rw [passes, Program.bind_eq, Program.pure_bind, unaborted, if_neg nofun]
  · refine .inr (.inr ⟨stranger, typed, code, listed, ?_⟩)
    rw [rejects]
    rfl

/-- Behind the verifier, a request either reaches its handler or is refused by the access
control. -/
theorem Endpoint.runHandlers_guarded (found : config.accessControl = some access)
    (endpoint : Endpoint) {c : Context} (running : c.aborted = false) :
    ((endpoint.Controlled → c.request.Whitelisted access) ∧
        runHandlers (endpoint.guarded config access) c = endpoint.handler access c) ∨
      ((endpoint.Controlled ∧ ¬c.request.Whitelisted access) ∧
        ∃ operands, runHandlers (endpoint.guarded config access) c =
          .pure ((c.fprintln operands).abortWithStatus 401)) := by
  rw [Endpoint.guarded]
  split
  · rename_i controlled
    rw [runHandlers]
    rcases accessControl_verdict found c with
      ⟨whitelisted, passes⟩ | ⟨unlisted, operands, rejects⟩
    · refine .inl ⟨fun _ => whitelisted, ?_⟩
      rw [passes, Program.bind_eq, Program.pure_bind, running, if_neg nofun]
      exact runHandlers_singleton _ c
    · refine .inr ⟨⟨controlled, unlisted⟩, operands, ?_⟩
      rw [rejects]
      rfl
  · rename_i uncontrolled
    refine .inl ⟨fun controlled => absurd controlled uncontrolled, ?_⟩
    exact runHandlers_singleton _ c

end Routers

end CloudRunSsh.Proxy
