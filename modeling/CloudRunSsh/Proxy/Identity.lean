import CloudRunSsh.Proxy.Server
import CloudRunSsh.Proxy.Verdicts

/-!
# One identity on its way to the verifier

The identifier of the server stands in the configuration file, in the environment of the
front proxy and in that of the clients.  The server compares what arrives with the
canonical text of its own, which `uuid.Parse` made from the configured one; clients and
front proxy send theirs as it is.
-/

namespace CloudRunSsh.Proxy

open CloudRunSsh.Concurrency

/-- A lower-case hexadecimal digit. -/
def isLowerHex (c : Char) : Bool := c.isDigit || decide ('a' ≤ c ∧ c ≤ 'f')

/-- `xxxxxxxx-xxxx-xxxx-xxxx-xxxxxxxxxxxx` in lower case. -/
def Canonical (id : String) : Prop :=
  id.toList.length = 36 ∧
    id.toList.zipIdx.all (fun (c, position) =>
      if position ∈ [8, 13, 18, 23] then c == '-' else isLowerHex c) = true

instance (id : String) : Decidable (Canonical id) := instDecidableAnd

/-- What `google/uuid` documents about `Parse` followed by `String`: the result is the
canonical text, which is parsed to itself, and the empty text is rejected. -/
structure ParsesUUIDs (parse : String → Option String) : Prop where
  canonical : ∀ {text id}, parse text = some id → Canonical id
  fixed : ∀ {id}, Canonical id → parse id = some id
  empty : parse "" = none

/-- `${value:-default}` of the shell. -/
def orDefault (value default : String) : String := if value = "" then default else value

/-- What a client finds in `/tmp/cloud_run_ssh.env`. -/
structure ClientEnvironment where
  sshProxyServerID : String
  sshProxyClientID : String
  projectID : String
  gcpRegion : String
  kService : String
  kRevision : String
  instanceID : String

/-- The environment of the front proxy. -/
structure ProxyEnvironment where
  sshProxyServerID : String
  projectID : String
  sshProxyServerAPIPort : String
  sshProxyServerTunnelPort : String

namespace ProxyEnvironment

variable (env : ProxyEnvironment)

/-- The value that `start_ssh_proxy_server` renders for `%SSH_PROXY_SERVER_ID%`. -/
def serverID : String := orDefault env.sshProxyServerID allUUIDs

/-- `tls.commonName` in `ssh_proxy_server.yaml`. -/
def commonName : String := env.serverID ++ ".ssh-proxy.internal"

end ProxyEnvironment

/-- `ping_ssh_proxy_server`, with the token that the metadata server issued. -/
def pingSSHProxyServer (env : ClientEnvironment) (method : Method) (idToken : String) :
    Request where
  method
  fullPath := projectAPI ++ regionAPI ++ serviceAPI ++ revisionAPI ++ instanceAPI
  params := [(APIPathParam.project, env.projectID), (APIPathParam.region, env.gcpRegion),
    (APIPathParam.service, env.kService), (APIPathParam.revision, env.kRevision),
    (APIPathParam.instance, env.instanceID)]
  headers := [(xServerlessSSHAuthorization, idToken),
    (xServerlessSSHServerID, env.sshProxyServerID),
    (xServerlessSSHClientID, env.sshProxyClientID)]

/-- `poll_ssh_proxy_server`: the name on the certificate of the server has to be the
expected one, and is the audience of the token. -/
def pollSSHProxyServer (env : ClientEnvironment) (method : Method)
    (sshProxyServerName : String) (idTokenFor : String → String) : Option Request :=
  if sshProxyServerName ≠ env.sshProxyServerID ++ ".ssh-proxy.internal" then none
  else some (pingSSHProxyServer env method (idTokenFor sshProxyServerName))

/-- The node `ssh-registry-api-secure` of the front proxy: the headers it sets replace
those of the request. -/
def sshRegistryAPISecure (env : ProxyEnvironment) (request : Request) : Request :=
  { request with
    headers := [(xServerlessSSHProxyProjectID, env.projectID),
      (xServerlessSSHProxyID, env.serverID),
      (xServerlessSSHProxyHost, env.serverID ++ ".ssh-proxy.internal"),
      ("x-s8s-ssh-proxy-api-port", orDefault env.sshProxyServerAPIPort "5000"),
      ("x-s8s-ssh-proxy-tunnel-port", orDefault env.sshProxyServerTunnelPort "5555")] ++
      request.headers }

/-- The token service accepts the client's tokens, each for the audience it was issued
for, and finds a listed identity with a verified email in them. -/
structure Honest (idtoken : IDToken) (identities : StringSet)
    (idTokenFor : String → String) : Prop where
  issued : ∀ audience, idTokenFor audience ≠ ""
  available : idtoken.newValidator = none
  accepts : ∀ audience, ∃ payload,
    idtoken.validate (idTokenFor audience) audience = .ok payload ∧
      payload.audience = audience ∧ payload.issuer ∈ authorizedTokenIssuers.elements ∧
      Vouched identities payload.claims

section Verifier

variable {parse : String → Option String} {text id : String} {loaded : ProxyConfig}

/-- A configured identifier that can be parsed is replaced by its canonical text. -/
theorem id_configure (parses : ParsesUUIDs parse) (parsed : parse loaded.id = some id)
    (projectID sshProxyServerID : String) :
    (configure projectID sshProxyServerID parse (.ok loaded)).id = id := by
  have given : loaded.id ≠ "" := by
    intro empty
    rw [empty, parses.empty] at parsed
    cases parsed
  simp only [configure, given, if_false, parsed]
  split <;> rfl

theorem canonical_iff (parses : ParsesUUIDs parse) (parsed : parse text = some id) :
    Canonical text ↔ id = text := by
  constructor
  · intro canonical
    exact Option.some.inj (parsed.symm.trans (parses.fixed canonical))
  · rintro rfl
    exact parses.canonical parsed

variable {config : ProxyConfig} {access : AccessControl} {idtoken : IDToken}
variable {idTokenFor : String → String}

/-- A request with an honest token is identified when the identifiers agree. -/
theorem identified_sshRegistryAPISecure (client : ClientEnvironment)
    (front : ProxyEnvironment) (method : Method)
    (honest : Honest idtoken access.allowedIdentities idTokenFor)
    (projects : front.projectID = config.projectID) (server : front.serverID = config.id)
    (own : client.sshProxyServerID = config.id) :
    Identified idtoken config access.allowedIdentities
      (sshRegistryAPISecure front
        (pingSSHProxyServer client method (idTokenFor front.commonName))) := by
  obtain ⟨payload, valid, audience, issuer, vouched⟩ := honest.accepts front.commonName
  have name : front.commonName = sshProxyServerName config :=
    congrArg (· ++ ".ssh-proxy.internal") server
  refine identified_iff.mpr ⟨payload, ?_, vouched⟩
  rw [name] at valid audience ⊢
  exact {
    projectID := projects
    proxyID := server
    serverID := own
    token := honest.issued _
    available := honest.available
    valid := valid
    issuer := issuer
    audience := audience
    host := name.trans audience.symm }

/-- Whoever configures one identifier everywhere, in a spelling that `uuid.Parse` accepts,
gets the requests of its clients through the verifier exactly when the spelling is the
canonical one. -/
theorem verifier_passes_iff_canonical (parses : ParsesUUIDs parse)
    (accepted : parse text = some id) (configured : loaded.id = text)
    (projectID sshProxyServerID : String) (client : ClientEnvironment)
    (front : ProxyEnvironment) (method : Method) (fronts : front.sshProxyServerID = text)
    (clients : client.sshProxyServerID = text)
    (projects : front.projectID =
      (configure projectID sshProxyServerID parse (.ok loaded)).projectID)
    (found : loaded.accessControl = some access)
    (honest : Honest idtoken access.allowedIdentities idTokenFor) :
    ∃ request verifier,
      pollSSHProxyServer client method front.commonName idTokenFor = some request ∧
      idTokenVerifier idtoken
          (configure projectID sshProxyServerID parse (.ok loaded)) = some verifier ∧
      (GoesOn (verifier { request := sshRegistryAPISecure front request }) ↔
        Canonical text) := by
  have given : text ≠ "" := by
    rintro rfl
    rw [parses.empty] at accepted
    cases accepted
  have server : front.serverID = text := by
    rw [ProxyEnvironment.serverID, fronts, orDefault, if_neg given]
  have own : (configure projectID sshProxyServerID parse (.ok loaded)).id = id := by
    apply id_configure parses
    rw [configured]
    exact accepted
  rw [← accessControl_configure projectID sshProxyServerID parse] at found
  generalize configure projectID sshProxyServerID parse (.ok loaded) = config at *
  obtain ⟨verifier, built⟩ := @exists_idTokenVerifier idtoken _ _ found
  refine ⟨pingSSHProxyServer client method (idTokenFor front.commonName), verifier, ?_,
    built, ?_⟩
  · rw [pollSSHProxyServer, if_neg]
    rw [not_not, ProxyEnvironment.commonName, server, clients]
  · rw [canonical_iff parses accepted, idTokenVerifier_goesOn found built rfl]
    constructor
    · intro identified
      have compared : front.serverID = config.id := identified.proxyID
      exact (own.symm.trans compared.symm).trans server
    · rintro rfl
      exact identified_sshRegistryAPISecure client front method honest projects
        (server.trans own.symm) (clients.trans own.symm)

end Verifier

/-- `uuid.Parse` on the hyphenated spellings in either case. -/
def parseHyphenated (text : String) : Option String :=
  let lower := String.ofList (text.toList.map Char.toLower)
  if Canonical text then some text else if Canonical lower then some lower else none

theorem parsesUUIDs_hyphenated : ParsesUUIDs parseHyphenated := by
  constructor
  · intro text id parsed
    simp only [parseHyphenated] at parsed
    split at parsed
    · rename_i canonical
      cases parsed
      exact canonical
    · split at parsed
      · rename_i canonical
        cases parsed
        exact canonical
      · cases parsed
  · intro id canonical
    exact if_pos canonical
  · decide

/-- A server whose file gives that identifier, with one allowed identity. -/
def identifiedConfig (id : String) : ProxyConfig where
  proxyConfig := { id, projectID := "host" }
  accessControl := some {
    allowedProjects := .newSetWithSize
    allowedRegions := .newSetWithSize
    allowedServices := .newSetWithSize
    allowedRevisions := .newSetWithSize
    allowedIdentities := .newSet ["tunnel@tenant.iam.gserviceaccount.com"]
    allowedHosts := .newSetWithSize }

def identifiedClient (id : String) : ClientEnvironment where
  sshProxyServerID := id
  sshProxyClientID := "t"
  projectID := "tenant"
  gcpRegion := "r"
  kService := "s"
  kRevision := "v"
  instanceID := "i"

def identifiedProxy (id : String) : ProxyEnvironment where
  sshProxyServerID := id
  projectID := "host"
  sshProxyServerAPIPort := ""
  sshProxyServerTunnelPort := ""

/-- A token that names its audience. -/
def tokenFor (audience : String) : String := "token for " ++ audience

/-- A token service that accepts these tokens. -/
def audienceTokens : IDToken where
  newValidator := none
  validate idToken audience :=
    if idToken = tokenFor audience then .ok {
      issuer := "https://accounts.google.com"
      audience
      claims := [("email", .str "tunnel@tenant.iam.gserviceaccount.com"),
        ("email_verified", .bool true)] }
    else .error "idtoken: audience provided does not match aud claim in the JWT"

theorem honest_audienceTokens :
    Honest audienceTokens (.newSet ["tunnel@tenant.iam.gserviceaccount.com"]) tokenFor := by
  constructor
  · intro audience empty
    have characters := congrArg String.toList empty
    simp [tokenFor] at characters
  · rfl
  · intro audience
    have issuer : "https://accounts.google.com" ∈ authorizedTokenIssuers.elements := by
      decide
    exact ⟨_, if_pos rfl, rfl, issuer, ⟨_, rfl, by decide⟩, rfl⟩

/-- With the canonical spelling the client passes. -/
theorem verifier_passes_canonical :
    let id := "6ba7b810-9dad-11d1-80b4-00c04fd430c8"
    ∃ request verifier,
      pollSSHProxyServer (identifiedClient id) .post (identifiedProxy id).commonName
        tokenFor = some request ∧
      idTokenVerifier audienceTokens
          (configure "" "" parseHyphenated (.ok (identifiedConfig id))) = some verifier ∧
      GoesOn (verifier { request := sshRegistryAPISecure (identifiedProxy id) request }) := by
  intro id
  have accepted : parseHyphenated id = some id := by decide
  have configured : (identifiedConfig id).id = id := rfl
  obtain ⟨request, verifier, polled, built, passes⟩ :=
    verifier_passes_iff_canonical parsesUUIDs_hyphenated accepted configured "" ""
      (identifiedClient id) (identifiedProxy id) .post rfl rfl (by decide) rfl
      honest_audienceTokens
  exact ⟨request, verifier, polled, built, passes.mpr (by decide)⟩

/-- In upper case the same identifier is accepted by the parser, and its clients are
rejected. -/
theorem verifier_rejects_upper_case :
    let id := "6BA7B810-9DAD-11D1-80B4-00C04FD430C8"
    parseHyphenated id = some "6ba7b810-9dad-11d1-80b4-00c04fd430c8" ∧
    ∃ request verifier,
      pollSSHProxyServer (identifiedClient id) .post (identifiedProxy id).commonName
        tokenFor = some request ∧
      idTokenVerifier audienceTokens
          (configure "" "" parseHyphenated (.ok (identifiedConfig id))) = some verifier ∧
      ¬GoesOn (verifier
        { request := sshRegistryAPISecure (identifiedProxy id) request }) := by
  intro id
  have found := accessControl_configure "" "" parseHyphenated (identifiedConfig id)
  obtain ⟨verifier, built⟩ := @exists_idTokenVerifier audienceTokens _ _ found
  refine ⟨by decide, _, verifier, rfl, built, ?_⟩
  intro goesOn
  have identified := (idTokenVerifier_goesOn found built rfl).mp goesOn
  exact absurd identified.proxyID (by decide)

end CloudRunSsh.Proxy
