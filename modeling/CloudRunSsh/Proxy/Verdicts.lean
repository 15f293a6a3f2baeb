import CloudRunSsh.Proxy.Middleware

/-!
# The verdicts of the middlewares

Both middlewares decide on the request alone.  The verifier lets it through, answers
with one of three codes, or panics on claims of an unexpected type; the access control
lets it through or writes a line and aborts.
-/

namespace CloudRunSsh.Proxy

open CloudRunSsh.Concurrency

/-- The identity part: what a request has to present to pass `idTokenVerifier`. -/
structure Identified (idtoken : IDToken) (config : ProxyConfig)
    (allowedIdentities : StringSet) (request : Request) : Prop where
  projectID : request.header xServerlessSSHProxyProjectID = config.projectID
  proxyID : request.header xServerlessSSHProxyID = config.id
  serverID : request.header xServerlessSSHServerID = config.id
  token : request.header xServerlessSSHAuthorization ≠ ""
  validator : idtoken.newValidator = none
  payload : ∃ payload,
    idtoken.validate (request.header xServerlessSSHAuthorization)
        (config.id ++ ".ssh-proxy.internal") = .ok payload ∧
      payload.issuer ∈ authorizedTokenIssuers.elements ∧
      payload.audience = config.id ++ ".ssh-proxy.internal" ∧
      request.header xServerlessSSHProxyHost = payload.audience ∧
      (∃ email, payload.claims.lookup "email" = some (.str email) ∧
        email ∈ allowedIdentities.elements) ∧
      payload.claims.lookup "email_verified" = some (.bool true)

/-- A whitelist admits a value: it lists it, or it lists nothing and the value is not
empty. -/
def Admits (whitelist : StringSet) (value : String) : Prop :=
  value ≠ "" ∧ (whitelist.elements = [] ∨ value ∈ whitelist.elements)

/-- All four whitelists admit a path. -/
structure Whitelisted (accessControl : AccessControl)
    (project region service revision : String) : Prop where
  project : Admits accessControl.allowedProjects project
  region : Admits accessControl.allowedRegions region
  service : Admits accessControl.allowedServices service
  revision : Admits accessControl.allowedRevisions revision

/-- The path parameters of a request pass the whitelists. -/
def Request.Whitelisted (request : Request) (accessControl : AccessControl) : Prop :=
  Proxy.Whitelisted accessControl (request.param APIPathParam.project)
    (request.param APIPathParam.region) (request.param APIPathParam.service)
    (request.param APIPathParam.revision)

/-- A handler that performs no operation and goes on to the next one. -/
def GoesOn (program : RegistryM Context) : Prop :=
  ∃ c, program = .pure c ∧ c.aborted = false

section AccessControl

variable {config : ProxyConfig} {access : AccessControl}

theorem validator_iff {value : String} {whitelist : StringSet} :
    validator value whitelist = true ↔ Admits whitelist value := by
  simp only [validator, Admits, Bool.and_eq_true, decide_eq_true_eq, Bool.or_eq_true,
    StringSet.isEmpty_iff, StringSet.contains_iff]

/-- The access control lets exactly the whitelisted paths through. -/
theorem accessControl_verdict (found : config.accessControl = some access) (c : Context) :
    (c.request.Whitelisted access ∧ accessControl config c = .pure c) ∨
      (¬c.request.Whitelisted access ∧ ∃ operands,
        accessControl config c = .pure ((c.fprintln operands).abortWithStatus 401)) := by
  by_cases whitelisted : c.request.Whitelisted access
  · have project := validator_iff.mpr whitelisted.project
    have region := validator_iff.mpr whitelisted.region
    have service := validator_iff.mpr whitelisted.service
    have revision := validator_iff.mpr whitelisted.revision
    refine .inl ⟨whitelisted, ?_⟩
    simp only [accessControl, found, Context.param, project, region, service, revision,
      Bool.not_true, Bool.false_eq_true, if_false]
    rfl
  · refine .inr ⟨whitelisted, ?_⟩
    rw [accessControl]
    rw [found]
    dsimp only
    split
    · exact ⟨_, rfl⟩
    · rename_i project
      split
      · exact ⟨_, rfl⟩
      · rename_i region
        split
        · exact ⟨_, rfl⟩
        · rename_i service
          split
          · exact ⟨_, rfl⟩
          · rename_i revision
            simp only [Bool.not_eq_true', Bool.not_eq_false, validator_iff] at *
            exact absurd ⟨project, region, service, revision⟩ whitelisted

/-- `accessControl` goes on exactly for the whitelisted paths. -/
theorem accessControl_goesOn (found : config.accessControl = some access) {c : Context}
    (running : c.aborted = false) :
    GoesOn (accessControl config c) ↔ c.request.Whitelisted access := by
  rcases accessControl_verdict found c with ⟨whitelisted, passes⟩ | ⟨refused, _, rejects⟩
  · exact ⟨fun _ => whitelisted, fun _ => ⟨c, passes, running⟩⟩
  · constructor
    · intro goesOn
      obtain ⟨passed, returned, unaborted⟩ := goesOn
      cases rejects.symm.trans returned
      cases unaborted
    · intro whitelisted
      exact absurd whitelisted refused

end AccessControl

section Claims

variable {config : ProxyConfig} {identities : StringSet} {claims : List (String × Json)}

/-- The claims name a listed identity whose email is verified. -/
structure Vouched (identities : StringSet) (claims : List (String × Json)) : Prop where
  email : ∃ email, claims.lookup "email" = some (.str email) ∧
    email ∈ identities.elements
  verified : claims.lookup "email_verified" = some (.bool true)

/-- A claim that is looked at has an unexpected type: the email is not a string, or that
of a listed identity comes with a verification that is not a truth value. -/
def Mistyped (identities : StringSet) (claims : List (String × Json)) : Prop :=
  (∃ email, claims.lookup "email" = some email ∧ ∀ text, email ≠ .str text) ∨
    (∃ email, claims.lookup "email" = some (.str email) ∧
      email ∈ identities.elements) ∧
    ∃ verified, claims.lookup "email_verified" = some verified ∧
      ∀ value, verified ≠ .bool value

theorem vouched_iff :
    Vouched identities claims ↔
      (∃ email, claims.lookup "email" = some (.str email) ∧
        email ∈ identities.elements) ∧
      claims.lookup "email_verified" = some (.bool true) :=
  ⟨fun vouched => ⟨vouched.email, vouched.verified⟩, fun ⟨email, verified⟩ =>
    ⟨email, verified⟩⟩

theorem Vouched.not_mistyped (vouched : Vouched identities claims) :
    ¬Mistyped identities claims := by
  obtain ⟨⟨email, named, _⟩, verified⟩ := vouched
  rintro (⟨other, named', typed⟩ | ⟨_, value, verified', typed⟩)
  · exact typed email (Option.some.inj (named'.symm.trans named))
  · exact typed true (Option.some.inj (verified'.symm.trans verified))

/-- The checks on the claims panic on a type, let the request through, or reject it. -/
theorem verifyClaims_verdict (c : Context) :
    (Mistyped identities claims ∧ verifyClaims config identities claims c = .panic) ∨
      (Vouched identities claims ∧
        verifyClaims config identities claims c = .pure (c.set configContextKey config)) ∨
      (¬Mistyped identities claims ∧ ¬Vouched identities claims ∧
        verifyClaims config identities claims c = .pure (c.abortWithStatus 401)) := by
  cases named : claims.lookup "email" with
  | none => simp [Mistyped, vouched_iff, verifyClaims, named]
  | some email =>
      cases email with
      | str email =>
          by_cases listed : email ∈ identities.elements
          · have contained : identities.contains email = true :=
              StringSet.contains_iff.mpr listed
            cases checked : claims.lookup "email_verified" with
            | none => simp [Mistyped, vouched_iff, verifyClaims, named, listed, checked]
            | some verified =>
                cases verified with
                | bool value =>
                    cases value <;>
                      simp [Mistyped, vouched_iff, verifyClaims, named, listed, contained,
                        checked]
                | null | num | str | time | arr | obj =>
                    simp [Mistyped, vouched_iff, verifyClaims, named, listed, checked]
          · simp [Mistyped, vouched_iff, verifyClaims, named, listed]
      | null | bool | num | time | arr | obj =>
          simp [Mistyped, vouched_iff, verifyClaims, named]

end Claims

section Verifier

variable {idtoken : IDToken} {config : ProxyConfig} {access : AccessControl}
variable {verifier : HandlerFunc} {request : Request}

theorem exists_idTokenVerifier (found : config.accessControl = some access) :
    ∃ verifier, idTokenVerifier idtoken config = some verifier := by
  rw [idTokenVerifier, found]
  exact ⟨_, rfl⟩

/-- The request and its token pass every check before those on the claims. -/
structure Presented (idtoken : IDToken) (config : ProxyConfig) (request : Request)
    (payload : Payload) : Prop where
  projectID : request.header xServerlessSSHProxyProjectID = config.projectID
  proxyID : request.header xServerlessSSHProxyID = config.id
  serverID : request.header xServerlessSSHServerID = config.id
  token : request.header xServerlessSSHAuthorization ≠ ""
  available : idtoken.newValidator = none
  valid : idtoken.validate (request.header xServerlessSSHAuthorization)
    (sshProxyServerName config) = .ok payload
  issuer : payload.issuer ∈ authorizedTokenIssuers.elements
  audience : payload.audience = sshProxyServerName config
  host : request.header xServerlessSSHProxyHost = payload.audience

theorem Presented.unique {payload other : Payload}
    (presented : Presented idtoken config request payload)
    (presented' : Presented idtoken config request other) : payload = other :=
  Except.ok.inj (presented.valid.symm.trans presented'.valid)

/-- A request is identified when what it presents is vouched for. -/
theorem identified_iff {identities : StringSet} :
    Identified idtoken config identities request ↔
      ∃ payload, Presented idtoken config request payload ∧
        Vouched identities payload.claims := by
  constructor
  · rintro ⟨projectID, proxyID, serverID, token, available, payload, valid, issuer,
      audience, host, email, verified⟩
    exact ⟨payload, ⟨projectID, proxyID, serverID, token, available, valid, issuer, audience,
      host⟩, email, verified⟩
  · rintro ⟨payload, presented, vouched⟩
    exact ⟨presented.projectID, presented.proxyID, presented.serverID, presented.token,
      presented.available, payload, presented.valid, presented.issuer, presented.audience,
      presented.host, vouched.email, vouched.verified⟩

/-- The verifier goes on to the claims of what is presented, or rejects the request. -/
theorem idTokenVerifier_presented (found : config.accessControl = some access)
    (built : idTokenVerifier idtoken config = some verifier) (c : Context) :
    (∃ payload, Presented idtoken config c.request payload ∧
        verifier c = verifyClaims config access.allowedIdentities payload.claims c) ∨
      ((¬∃ payload, Presented idtoken config c.request payload) ∧
        ∃ code ∈ [401, 403, 500], verifier c = .pure (c.abortWithStatus code)) := by
  simp only [idTokenVerifier, found, Option.bind_eq_bind, Option.bind_some,
    Option.pure_def, Option.some.injEq] at built
  subst built
  dsimp only
  split
  · rename_i headers
    refine .inr ⟨?_, 403, by decide, rfl⟩
    rintro ⟨payload, presented⟩
    rcases headers with projectID | proxyID | serverID
    · exact projectID presented.projectID
    · exact proxyID presented.proxyID
    · exact serverID presented.serverID
  · rename_i headers
    simp only [not_or, not_not] at headers
    split
    · rename_i token
      exact .inr ⟨fun ⟨_, presented⟩ => presented.token token, 403, by decide, rfl⟩
    · rename_i token
      split
      · rename_i message unavailable
        refine .inr ⟨fun ⟨_, presented⟩ => ?_, 500, by decide, rfl⟩
        cases unavailable.symm.trans presented.available
      · rename_i available
        split
        · rename_i message invalid
          refine .inr ⟨fun ⟨_, presented⟩ => ?_, 401, by decide, rfl⟩
          cases invalid.symm.trans presented.valid
        · rename_i payload valid
          have same : ∀ {other}, Presented idtoken config c.request other →
              payload = other :=
            fun presented => Except.ok.inj (valid.symm.trans presented.valid)
          split
          · rename_i unauthorized
            refine .inr ⟨fun ⟨_, presented⟩ => ?_, 401, by decide, rfl⟩
            have authorized := presented.issuer
            rw [← same presented, ← StringSet.contains_iff] at authorized
            rw [authorized] at unauthorized
            cases unauthorized
          · rename_i issuer
            split
            · rename_i audience
              refine .inr ⟨fun ⟨_, presented⟩ => ?_, 401, by decide, rfl⟩
              cases same presented
              rcases audience with other | host
              · exact other presented.audience.symm
              · exact host presented.host
            · rename_i audience
              simp only [not_or, not_not] at audience
              have authorized : payload.issuer ∈ authorizedTokenIssuers.elements := by
                simpa using issuer
              exact .inl ⟨payload, ⟨headers.1, headers.2.1, headers.2.2, token, available,
                valid, authorized, audience.1.symm, audience.2⟩, rfl⟩

/-- What is presented has claims of an unexpected type. -/
def PresentsMistyped (idtoken : IDToken) (config : ProxyConfig) (access : AccessControl)
    (request : Request) : Prop :=
  ∃ payload, Presented idtoken config request payload ∧
    Mistyped access.allowedIdentities payload.claims

/-- The verifier panics on a type, lets identified requests through, and rejects the
others with one of three codes. -/
theorem idTokenVerifier_verdict (found : config.accessControl = some access)
    (built : idTokenVerifier idtoken config = some verifier) (c : Context) :
    (¬Identified idtoken config access.allowedIdentities c.request ∧
        PresentsMistyped idtoken config access c.request ∧ verifier c = .panic) ∨
      (Identified idtoken config access.allowedIdentities c.request ∧
        ¬PresentsMistyped idtoken config access c.request ∧
        verifier c = .pure (c.set configContextKey config)) ∨
      (¬Identified idtoken config access.allowedIdentities c.request ∧
        ¬PresentsMistyped idtoken config access c.request ∧
        ∃ code ∈ [401, 403, 500], verifier c = .pure (c.abortWithStatus code)) := by
  rw [identified_iff]
  rcases idTokenVerifier_presented found built c with
    ⟨payload, presented, goes⟩ | ⟨nothing, code, listed, rejects⟩
  · rw [goes]
    have mistyped_iff : PresentsMistyped idtoken config access c.request ↔
        Mistyped access.allowedIdentities payload.claims :=
      ⟨fun ⟨_, other, mistyped⟩ => presented.unique other ▸ mistyped,
        fun mistyped => ⟨payload, presented, mistyped⟩⟩
    have vouched_iff : (∃ payload, Presented idtoken config c.request payload ∧
        Vouched access.allowedIdentities payload.claims) ↔
        Vouched access.allowedIdentities payload.claims :=
      ⟨fun ⟨_, other, vouched⟩ => presented.unique other ▸ vouched,
        fun vouched => ⟨payload, presented, vouched⟩⟩
    rw [mistyped_iff, vouched_iff]
    rcases @verifyClaims_verdict config access.allowedIdentities payload.claims c with
      ⟨mistyped, panics⟩ | ⟨vouched, passes⟩ | ⟨typed, unvouched, rejects⟩
    · exact .inl ⟨fun vouched => vouched.not_mistyped mistyped, mistyped, panics⟩
    · exact .inr (.inl ⟨vouched, vouched.not_mistyped, passes⟩)
    · exact .inr (.inr ⟨unvouched, typed, 401, by decide, rejects⟩)
  · refine .inr (.inr ⟨?_, ?_, code, listed, rejects⟩)
    · exact fun ⟨payload, presented, _⟩ => nothing ⟨payload, presented⟩
    · exact fun ⟨payload, presented, _⟩ => nothing ⟨payload, presented⟩

/-- `idTokenVerifier` goes on exactly for the identified requests. -/
theorem idTokenVerifier_goesOn (found : config.accessControl = some access)
    (built : idTokenVerifier idtoken config = some verifier) {c : Context}
    (running : c.aborted = false) :
    GoesOn (verifier c) ↔
      Identified idtoken config access.allowedIdentities c.request := by
  rcases idTokenVerifier_verdict found built c with
    ⟨stranger, _, panics⟩ | ⟨identified, _, passes⟩ | ⟨stranger, _, code, _, rejects⟩
  · constructor
    · rintro ⟨passed, returned, _⟩
      cases panics.symm.trans returned
    · exact fun identified => absurd identified stranger
  · exact ⟨fun _ => identified, fun _ => ⟨_, passes, running⟩⟩
  · constructor
    · rintro ⟨passed, returned, unaborted⟩
      cases rejects.symm.trans returned
      cases unaborted
    · exact fun identified => absurd identified stranger

end Verifier

end CloudRunSsh.Proxy
