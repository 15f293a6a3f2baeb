import CloudRunSsh.Proxy.Handlers

/-!
# Authentication and access control

The two middlewares of the external router.  The token service is a parameter: it may
fail to provide a validator, and a validator either rejects a token for an audience
or returns its payload.
-/

namespace CloudRunSsh.Proxy

/-- `idtoken.Payload`. -/
structure Payload where
  issuer : String
  audience : String
  claims : List (String × Json)

/-- The package `idtoken`: the error of `NewValidator`, if any, and `Validate` on a
token and an audience. -/
structure IDToken where
  newValidator : Option String
  validate : String → String → Except String Payload

/-- `authorizedTokenIssuers`. -/
def authorizedTokenIssuers : StringSet :=
  .newSet ["https://accounts.google.com", "https://accounts.google.com/"]

/-- The server name for `sshProxyServerNameTemplate`. -/
def sshProxyServerName (config : ProxyConfig) : String :=
  config.id ++ ".ssh-proxy.internal"

/-- The checks of `idTokenVerifier` on the claims of a valid token.  The type assertions
panic on a claim of another type. -/
def verifyClaims (config : ProxyConfig) (allowedIdentities : StringSet)
    (claims : List (String × Json)) (c : Context) : RegistryM Context :=
  match claims.lookup "email" with
  | none => return c.abortWithStatus 401
  | some (.str identity) =>
      if !allowedIdentities.contains identity then return c.abortWithStatus 401
      else
        match claims.lookup "email_verified" with
        | none => return c.abortWithStatus 401
        | some (.bool emailVerified) =>
            if !emailVerified then return c.abortWithStatus 401
            else return c.set configContextKey config
        | some _ => .panic
  | some _ => .panic

/-- `idTokenVerifier`.  Building the handler dereferences the access control. -/
def idTokenVerifier (idtoken : IDToken) (config : ProxyConfig) : Option HandlerFunc := do
  let accessControl ← config.accessControl
  return fun c =>
    if c.getHeader xServerlessSSHProxyProjectID ≠ config.projectID ∨
        c.getHeader xServerlessSSHProxyID ≠ config.id ∨
        c.getHeader xServerlessSSHServerID ≠ config.id then
      return c.abortWithStatus 403
    else
      let idToken := c.getHeader xServerlessSSHAuthorization
      if idToken = "" then return c.abortWithStatus 403
      else
        match idtoken.newValidator with
        | some _ => return c.abortWithStatus 500
        | none =>
            match idtoken.validate idToken (sshProxyServerName config) with
            | .error _ => return c.abortWithStatus 401
            | .ok payload =>
                if !authorizedTokenIssuers.contains payload.issuer then
                  return c.abortWithStatus 401
                else if sshProxyServerName config ≠ payload.audience ∨
                    c.getHeader xServerlessSSHProxyHost ≠ payload.audience then
                  return c.abortWithStatus 401
                else
                  verifyClaims config accessControl.allowedIdentities payload.claims c

/-- The local function `validator` of `accessControl`. -/
def validator (value : String) (whitelist : StringSet) : Bool :=
  decide (value ≠ "") && (whitelist.isEmpty || whitelist.contains value)

/-- `accessControl`.  The rejection is written to the body before the status is set. -/
def accessControl (config : ProxyConfig) : HandlerFunc := fun c =>
  match config.accessControl with
  | none => .panic
  | some accessControl =>
      let project := c.param APIPathParam.project
      let region := c.param APIPathParam.region
      let service := c.param APIPathParam.service
      let revision := c.param APIPathParam.revision
      if !validator project accessControl.allowedProjects then
        return (c.fprintln ["rejected project:", project]).abortWithStatus 401
      else if !validator region accessControl.allowedRegions then
        return (c.fprintln ["rejected region:", region]).abortWithStatus 401
      else if !validator service accessControl.allowedServices then
        return (c.fprintln ["rejected service:", service]).abortWithStatus 401
      else if !validator revision accessControl.allowedRevisions then
        return (c.fprintln ["rejected revision:", revision]).abortWithStatus 401
      else return c

end CloudRunSsh.Proxy
