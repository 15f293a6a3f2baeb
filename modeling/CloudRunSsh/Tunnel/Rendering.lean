import CloudRunSsh.Data.ShellWords
import CloudRunSsh.Data.Templates
import CloudRunSsh.Proxy.Identity

/-!
# Rendering the configurations of the tunnel

The sidecar, the front proxy and the visitor render the configurations of `gost` from
templates, each with its own chain of `sed` replacements.  What a placeholder stands for
is the variable that the registration scripts have after they sourced
`/tmp/cloud_run_ssh.env`, in which the sidecar wrote the values without quotes.
-/

namespace CloudRunSsh.Tunnel

open CloudRunSsh.Proxy (ProxyEnvironment allUUIDs orDefault)

/-- No symbol of the text means something to `sed` or marks a placeholder. -/
def IsPlain (text : String) : Prop :=
  ∀ symbol ∈ text.toList, symbol ∉ ['|', '&', '\\', '%', '\n']

instance : DecidablePred IsPlain := fun text => List.decidableBAll _ text.toList

/-- A value that stands for itself in a replacement and forms no placeholder. -/
structure Plain where
  text : String
  plain : IsPlain text

namespace Plain

/-- `${value:-default}` of the shell. -/
def orDefault (value default : Plain) : Plain :=
  if value.text = "" then default else value

theorem text_orDefault (value default : Plain) :
    (value.orDefault default).text = Proxy.orDefault value.text default.text := by
  rw [orDefault, Proxy.orDefault]
  split <;> rfl

theorem mark_not_mem (value : Plain) : '%' ∉ value.text.toList := by
  intro member
  exact value.plain _ member (by decide)

end Plain

def port5000 : Plain := ⟨"5000", by decide⟩
def port5050 : Plain := ⟨"5050", by decide⟩
def port5555 : Plain := ⟨"5555", by decide⟩
def port8080 : Plain := ⟨"8080", by decide⟩
def zeroUUID : Plain := ⟨allUUIDs, by decide⟩
def undefinedFlavor : Plain := ⟨"undefined", by decide⟩

/-- What the scripts find in their environments, in the metadata, in `/webssh.port`, on
the certificate of the server and in the answer of the registry.  An unset variable is
the empty text. -/
structure Environment where
  projectID : Plain
  projectNum : Plain
  gcpRegion : Plain
  kService : Plain
  kRevision : Plain
  instanceID : Plain
  instanceUUID : Plain
  webSSHPort : Plain
  defaultWebSSHPort : Plain
  webAppPort : Plain
  enableSSHProxy : String
  sshProxyServerID : Plain
  sshProxyServerHost : Plain
  sshProxyServerAPIPort : Plain
  sshProxyServerTunnelPort : Plain
  sshProxyServerPort : Plain
  sshProxyServerName : String
  sshProxyVisitorID : Plain
  tunnel : Plain
  userName : Plain
  sshUserName : Plain
  contentFlavor : Plain
  sshContentFlavor : Plain

/-- A placeholder is a name of capitals and underscores between `%`. -/
def placeholderMarking : Marking Char where
  mark := '%'
  inName symbol := symbol.isUpper || symbol == '_'
  mark_not_inName := by decide

/-- The text may stand between the marks of a placeholder. -/
def IsName (text : String) : Prop :=
  ∀ symbol ∈ text.toList, placeholderMarking.inName symbol = true

instance : DecidablePred IsName := fun text => List.decidableBAll _ text.toList

/-- `-e "s|%NAME%|value|g"`, for each name with its value. -/
abbrev Chain := List (String × Plain)

def Chain.rules (chain : Chain) : List (Template.Rule Char) :=
  chain.map fun (name, value) => ⟨name.toList, value.text.toList⟩

/-- `sed` with the replacements of a chain, on one line. -/
def sed (chain : Chain) (line : String) : List Char :=
  Template.run '%' chain.rules line.toList

def valueIn (table : Chain) (name : String) : List Char :=
  (table.lookup name).elim [] (·.text.toList)

/-- The line's placeholders come in pairs of marks and are among the given ones. -/
def Renderable (names : List String) (line : String) : Prop :=
  ∃ template ∈ Template.read '%' line.toList, template.WellFormed placeholderMarking ∧
    ∀ name ∈ template.names, String.ofList name ∈ names

instance (names : List String) : DecidablePred (Renderable names) := fun line =>
  inferInstanceAs (Decidable (∃ template ∈ Template.read '%' line.toList,
    template.WellFormed placeholderMarking ∧
      ∀ name ∈ template.names, String.ofList name ∈ names))

/-- A line that is given by its symbols need not be decoded. -/
theorem renderable_ofList {names : List String} {symbols : List Char}
    (checked : ∃ template ∈ Template.read '%' symbols, template.WellFormed placeholderMarking ∧
      ∀ name ∈ template.names, String.ofList name ∈ names) :
    Renderable names (String.ofList symbols) := by
  rw [Renderable, String.toList_ofList]
  exact checked

/-- One run of `sed`: the lines of the template that have placeholders (the others have
no `%` and stay as they are), and the chain. -/
structure Rendering where
  template : List String
  placeholders : List String
  chain : Chain
  renderable : ∀ line ∈ template, Renderable placeholders line
  named : ∀ name ∈ chain.map Prod.fst, IsName name
  covered : ∀ name ∈ placeholders, name ∈ chain.map Prod.fst
  consistent : ∀ entry ∈ chain, chain.lookup entry.1 = some entry.2

namespace Rendering

variable (rendering : Rendering)

/-- The chain fills each line, in any order. -/
theorem sed_eq_fill {order : Chain} (permuted : order.Perm rendering.chain)
    {line : String} (member : line ∈ rendering.template) :
    ∃ template, Template.read '%' line.toList = some template ∧
      template.WellFormed placeholderMarking ∧
      (∀ name ∈ template.names, String.ofList name ∈ rendering.placeholders) ∧
      sed order line =
        template.fill fun name => valueIn rendering.chain (String.ofList name) := by
  obtain ⟨template, found, wellFormed, listed⟩ := rendering.renderable line member
  refine ⟨template, found, wellFormed, listed, ?_⟩
  rw [sed, ← Template.write_of_read found]
  apply Template.run_write wellFormed
  · intro rule ruled
    obtain ⟨entry, inOrder, rfl⟩ := List.mem_map.mp ruled
    have inChain := permuted.mem_iff.mp inOrder
    exact ⟨rendering.named _ (List.mem_map_of_mem inChain), entry.2.mark_not_mem⟩
  · intro rule ruled _
    obtain ⟨entry, inOrder, rfl⟩ := List.mem_map.mp ruled
    have inChain := permuted.mem_iff.mp inOrder
    simp [valueIn, rendering.consistent entry inChain]
  · intro name occurs
    obtain ⟨entry, inChain, same⟩ :=
      List.mem_map.mp (rendering.covered _ (listed name occurs))
    refine ⟨_, List.mem_map_of_mem (permuted.mem_iff.mpr inChain), ?_⟩
    simp [same]

/-- No placeholder is left. -/
theorem not_mem_sed {order : Chain} (permuted : order.Perm rendering.chain)
    {line : String} (member : line ∈ rendering.template) : '%' ∉ sed order line := by
  obtain ⟨template, _, wellFormed, listed, filled⟩ :=
    rendering.sed_eq_fill permuted member
  rw [filled]
  apply Template.mark_not_mem_fill wellFormed
  intro name occurs
  obtain ⟨entry, inChain, same⟩ :=
    List.mem_map.mp (rendering.covered _ (listed name occurs))
  rw [← same, valueIn, rendering.consistent entry inChain]
  exact entry.2.mark_not_mem

end Rendering

/-- The variable that a placeholder stands for. -/
def variableOf (placeholder : String) : String :=
  if placeholder = "SSH_HTTP_PORT" then "WEBSSH_PORT" else placeholder

namespace Rendering

/-- In any order of the replacements no placeholder is left, and each is replaced by the
value of its variable. -/
def Faithful (values : String → List Char) (rendering : Rendering) : Prop :=
  ∀ order : Chain, order.Perm rendering.chain → ∀ line ∈ rendering.template,
    '%' ∉ sed order line ∧
      (Template.read '%' line.toList).map
        (Template.fill fun name => values (variableOf (String.ofList name))) =
          some (sed order line)

/-- A line of the template has the placeholder. -/
def Shows (rendering : Rendering) (name : String) : Prop :=
  ∃ line ∈ rendering.template, ∃ template ∈ Template.read '%' line.toList,
    name.toList ∈ template.names

/-- The shell reads the values of placeholders as they are, but for variables that do not
come from the file. -/
def Literal (shell : Shell) (own : List String) (rendering : Rendering) : Prop :=
  ∀ name, rendering.Shows name → name ∉ own → shell.Literal (valueIn rendering.chain name)

variable {rendering : Rendering} {values : String → List Char}

theorem Shows.listed {name : String} (shows : rendering.Shows name) :
    name ∈ rendering.placeholders := by
  obtain ⟨line, member, template, found, occurs⟩ := shows
  obtain ⟨read, same, _, listed, _⟩ := rendering.sed_eq_fill (List.Perm.refl _) member
  rw [Option.mem_def, same] at found
  cases found
  have inPlaceholders := listed _ occurs
  rwa [String.ofList_toList] at inPlaceholders

/-- A chain of literal values. -/
theorem literal_of_chain {shell : Shell} {own : List String}
    (literal : ∀ entry ∈ rendering.chain, shell.Literal entry.2.text.toList) :
    rendering.Literal shell own := by
  intro name shows _
  obtain ⟨entry, inChain, same⟩ := List.mem_map.mp (rendering.covered name shows.listed)
  rw [← same, valueIn, rendering.consistent entry inChain]
  exact literal entry inChain

/-- The variables that a configuration shows are those of its chain, if they are never
longer than those. -/
theorem faithful_iff_agree
    (shorter : ∀ name ∈ rendering.placeholders,
      (values (variableOf name)).length < (valueIn rendering.chain name).length ∨
        values (variableOf name) = valueIn rendering.chain name) :
    rendering.Faithful values ↔
      ∀ name, rendering.Shows name → values (variableOf name) = valueIn rendering.chain name := by
  constructor
  · rintro faithful name ⟨line, member, template, found, occurs⟩
    obtain ⟨read, same, _, listed, filled⟩ := rendering.sed_eq_fill (List.Perm.refl _) member
    have shown := (faithful _ (List.Perm.refl _) line member).2
    rw [same] at found
    cases found
    rw [same, filled, Option.map_some] at shown
    have agree := Template.agree_of_fill
      (fun symbols inNames => shorter _ (listed symbols inNames)) (Option.some.inj shown) _ occurs
    rwa [String.ofList_toList] at agree
  · intro agree order permuted line member
    refine ⟨rendering.not_mem_sed permuted member, ?_⟩
    obtain ⟨template, found, _, _, filled⟩ := rendering.sed_eq_fill permuted member
    rw [found, filled, Option.map_some]
    refine congrArg some (Template.fill_congr fun symbols occurs => agree _ ?_)
    refine ⟨line, member, template, found, ?_⟩
    rwa [String.toList_ofList]

/-- With a file in which no line is a program, a configuration is faithful if and only if
the shell reads the values in it as they are. -/
theorem faithful_iff_literal {shell : Shell} {file : List (String × List Char)}
    (regular : shell.Regular file) {own : List String}
    (given : ∀ name ∈ own, name ∈ rendering.placeholders →
      values (variableOf name) = valueIn rendering.chain name)
    (sourced : ∀ name ∈ rendering.placeholders, name ∉ own →
      values (variableOf name) = shell.source file (variableOf name) ∧
        file.reverse.lookup (variableOf name) = some (valueIn rendering.chain name)) :
    rendering.Faithful values ↔ rendering.Literal shell own := by
  have assigned : ∀ name ∈ rendering.placeholders, name ∉ own →
      shell.assigned (valueIn rendering.chain name) = some (values (variableOf name)) := by
    intro name listed shared
    obtain ⟨same, written⟩ := sourced name listed shared
    rw [same, Shell.source_of_regular regular written]
  rw [faithful_iff_agree]
  · constructor
    · intro agree name shows shared
      rw [← Shell.assigned_eq_self_iff, assigned name shows.listed shared, agree name shows]
    · intro literal name shows
      by_cases isOwn : name ∈ own
      · exact given name isOwn shows.listed
      · have itself := Shell.assigned_eq_self_iff.mpr (literal name shows isOwn)
        rw [assigned name shows.listed isOwn] at itself
        exact Option.some.inj itself
  · intro name listed
    by_cases isOwn : name ∈ own
    · exact Or.inr (given name isOwn listed)
    · exact Shell.assigned_shorter (assigned name listed isOwn)

/-- A line with one placeholder shows the value of its variable. -/
theorem Faithful.agree (faithful : rendering.Faithful values) {line : String}
    (member : line ∈ rendering.template) {before name after : List Char}
    (found : Template.read '%' line.toList = some (.hole before name (.text after))) :
    values (variableOf (String.ofList name)) =
      valueIn rendering.chain (String.ofList name) := by
  obtain ⟨template, same, _, _, filled⟩ :=
    rendering.sed_eq_fill (List.Perm.refl _) member
  have shown := (faithful _ (List.Perm.refl _) line member).2
  rw [found] at same shown
  cases same
  rw [filled, Option.map_some] at shown
  have equal := Option.some.inj shown
  simp only [Template.fill, List.append_assoc] at equal
  exact List.append_cancel_right (List.append_cancel_left equal)

end Rendering

/-- `CLOUD_RUN_FQDN` -/
def cloudRunFQDN (env : Environment) : List Char :=
  env.kService.text.toList ++ '-' :: env.projectNum.text.toList ++
    '.' :: env.gcpRegion.text.toList ++ ".run.app".toList

/-- What stands in `/tmp/cloud_run_ssh.env` with the proxy enabled: after `export`, each
variable and what it is set to.  The shell that sources the file reads these texts. -/
def cloudRunSSHEnv (env : Environment) : List (String × List Char) :=
  [("PROJECT_ID", env.projectID.text.toList),
    ("PROJECT_NUM", env.projectNum.text.toList),
    ("GCP_REGION", env.gcpRegion.text.toList),
    ("K_SERVICE", env.kService.text.toList),
    ("K_REVISION", env.kRevision.text.toList),
    ("INSTANCE_ID", env.instanceID.text.toList),
    ("INSTANCE_UUID", env.instanceUUID.text.toList),
    ("CLOUD_RUN_FQDN", '\x27' :: cloudRunFQDN env ++ ['\x27']),
    ("SSH_SERVER_URL", '\x27' :: "https://".toList ++ cloudRunFQDN env ++ ['\x27']),
    ("USER_NAME", (env.userName.orDefault env.sshUserName).text.toList),
    ("SSH_USER_NAME", (env.userName.orDefault env.sshUserName).text.toList),
    ("WEBSSH_PORT", (env.webSSHPort.orDefault env.defaultWebSSHPort).text.toList),
    ("SSH_CONTENT_FLAVOR",
      ((env.contentFlavor.orDefault env.sshContentFlavor).orDefault undefinedFlavor).text.toList),
    ("SSH_PROXY_CLIENT_ID", env.instanceUUID.text.toList),
    ("SSH_PROXY_SERVER_ID", (env.sshProxyServerID.orDefault zeroUUID).text.toList),
    ("SSH_PROXY_SERVER_HOST", env.sshProxyServerHost.text.toList),
    ("SSH_PROXY_SERVER_API_PORT", (env.sshProxyServerAPIPort.orDefault port5000).text.toList),
    ("SSH_PROXY_SERVER_TUNNEL_PORT",
      (env.sshProxyServerTunnelPort.orDefault port5555).text.toList),
    ("SSH_PROXY_SERVER_ENABLED", "true".toList)]

/-- `ssh_proxy_client.yaml`. -/
def sshProxyClientYAML : List String :=
  ["          addr: \"%SSH_PROXY_CLIENT_ID%.ssh.internal:%SSH_HTTP_PORT%\"",
    "            host: \"127.0.0.1:%SSH_HTTP_PORT%\"",
    "  - name: \"ssh-%INSTANCE_ID%\"",
    "          addr: \"%SSH_PROXY_CLIENT_ID%.ssh.internal:8443\"",
    "          addr: \"%SSH_PROXY_CLIENT_ID%.ssh.internal:2222\"",
    "    addr: \"127.0.0.1:%SSH_PROXY_SERVER_API_PORT%\"",
    "          addr: \"%SSH_PROXY_SERVER_ID%.ssh-proxy.internal:%SSH_PROXY_SERVER_API_PORT%\"",
    "  - name: \"%INSTANCE_ID%\"",
    "          addr: \"%SSH_PROXY_CLIENT_ID%.ssh.internal:1111\"",
    "        hostname: \"%SSH_PROXY_CLIENT_ID%.ssh.internal\"",
    "      - ip: \"%SSH_PROXY_SERVER_HOST%\"",
    "        hostname: \"%SSH_PROXY_SERVER_ID%.ssh-proxy.internal\"",
    "      - ip: \"%SSH_PROXY_SERVER_HOST%\"",
    "        hostname: \"%SSH_PROXY_SERVER_ID%.ssh.internal\"",
    "        hostname: \"%K_SERVICE%-%PROJECT_NUM%.%GCP_REGION%.run.app\"",
    "            addr: \"%SSH_PROXY_SERVER_HOST%:%SSH_PROXY_SERVER_TUNNEL_PORT%\"",
    "                tunnel.id: \"%SSH_PROXY_CLIENT_ID%\"",
    "                serverName: \"%SSH_PROXY_SERVER_ID%.ssh-proxy.internal\"",
    "  commonName: \"%K_REVISION%.%K_SERVICE%.%PROJECT_NUM%.%GCP_REGION%.run.app\"",
    "  organization: \"%PROJECT_ID%-%INSTANCE_ID%\""]

/-- The replacements of `init-cloud-run-ssh-server-config`. -/
def clientChain (env : Environment) : Chain :=
  [("SSH_PROXY_SERVER_ID", env.sshProxyServerID),
    ("SSH_PROXY_CLIENT_ID", env.instanceUUID),
    ("SSH_PROXY_SERVER_HOST", env.sshProxyServerHost),
    ("SSH_PROXY_SERVER_API_PORT", env.sshProxyServerAPIPort.orDefault port5000),
    ("SSH_PROXY_SERVER_TUNNEL_PORT", env.sshProxyServerTunnelPort.orDefault port5555),
    ("PROJECT_ID", env.projectID),
    ("PROJECT_NUM", env.projectNum),
    ("GCP_REGION", env.gcpRegion),
    ("K_SERVICE", env.kService),
    ("K_REVISION", env.kRevision),
    ("INSTANCE_ID", env.instanceID),
    ("APP_HTTP_PORT", env.webAppPort.orDefault port8080),
    ("SSH_HTTP_PORT", env.webSSHPort.orDefault env.defaultWebSSHPort)]

def sshProxyClient (env : Environment) : Rendering where
  template := sshProxyClientYAML
  placeholders := ["SSH_PROXY_SERVER_ID", "SSH_PROXY_CLIENT_ID", "SSH_PROXY_SERVER_HOST",
    "SSH_PROXY_SERVER_API_PORT", "SSH_PROXY_SERVER_TUNNEL_PORT", "PROJECT_ID",
    "PROJECT_NUM", "GCP_REGION", "K_SERVICE", "K_REVISION", "INSTANCE_ID",
    "SSH_HTTP_PORT"]
  chain := clientChain env
  renderable := by
    simp only [sshProxyClientYAML, List.forall_mem_cons, List.not_mem_nil, IsEmpty.forall_iff,
      implies_true, and_true]
    and_intros <;> exact renderable_ofList (by decide +kernel)
  named := by simp only [clientChain, List.map_cons, List.map_nil]; decide +kernel
  covered := by simp only [clientChain, List.map_cons, List.map_nil]; decide +kernel
  consistent := by simp [clientChain, List.lookup_cons]

/-- `init-cloud-run-ssh-server-config` renders when the proxy is enabled. -/
def initCloudRunSSHServerConfig (env : Environment) : Option Rendering :=
  if orDefault env.enableSSHProxy "false" = "true" then some (sshProxyClient env) else none

/-- `ssh_proxy_server.yaml`. -/
def sshProxyServerYAML : List String :=
  ["    addr: \":%SSH_PROXY_SERVER_API_PORT%\"",
    "          addr: \"%SSH_PROXY_SERVER_ID%.ssh-proxy.internal:8080\"",
    "              x-s8s-ssh-proxy-project-id: \"%PROJECT_ID%\"",
    "              x-s8s-ssh-proxy-id: \"%SSH_PROXY_SERVER_ID%\"",
    "              x-s8s-ssh-proxy-host: \"%SSH_PROXY_SERVER_ID%.ssh-proxy.internal\"",
    "              x-s8s-ssh-proxy-api-port: \"%SSH_PROXY_SERVER_API_PORT%\"",
    "              x-s8s-ssh-proxy-tunnel-port: \"%SSH_PROXY_SERVER_TUNNEL_PORT%\"",
    "    addr: \":%SSH_PROXY_SERVER_TUNNEL_PORT%\"",
    "        hostname: \"%SSH_PROXY_SERVER_ID%.ssh-proxy.internal\"",
    "  commonName: \"%SSH_PROXY_SERVER_ID%.ssh-proxy.internal\"",
    "  organization: \"%PROJECT_ID%\""]

/-- The replacements of `start_ssh_proxy_server`, one of them twice. -/
def serverChain (env : Environment) : Chain :=
  [("SSH_PROXY_SERVER_API_PORT", env.sshProxyServerAPIPort.orDefault port5000),
    ("SSH_PROXY_SERVER_TUNNEL_PORT", env.sshProxyServerTunnelPort.orDefault port5555),
    ("SSH_PROXY_SERVER_PORT", env.sshProxyServerPort.orDefault port5050),
    ("SSH_PROXY_SERVER_ID", env.sshProxyServerID.orDefault zeroUUID),
    ("SSH_PROXY_SERVER_ID", env.sshProxyServerID.orDefault zeroUUID),
    ("PROJECT_ID", env.projectID)]

/-- `start_ssh_proxy_server`. -/
def startSSHProxyServer (env : Environment) : Rendering where
  template := sshProxyServerYAML
  placeholders := ["SSH_PROXY_SERVER_API_PORT", "SSH_PROXY_SERVER_TUNNEL_PORT",
    "SSH_PROXY_SERVER_ID", "PROJECT_ID"]
  chain := serverChain env
  renderable := by
    simp only [sshProxyServerYAML, List.forall_mem_cons, List.not_mem_nil, IsEmpty.forall_iff,
      implies_true, and_true]
    and_intros <;> exact renderable_ofList (by decide +kernel)
  named := by simp only [serverChain, List.map_cons, List.map_nil]; decide +kernel
  covered := by simp only [serverChain, List.map_cons, List.map_nil]; decide +kernel
  consistent := by simp [serverChain, List.lookup_cons]

/-- `ssh_proxy_visitor_http.yaml`. -/
def sshProxyVisitorHTTPYAML : List String :=
  ["    addr: \"127.0.0.1:%SSH_PROXY_SERVER_API_PORT%\"",
    "          addr: \"%SSH_PROXY_SERVER_ID%.ssh-proxy.internal:%SSH_PROXY_SERVER_API_PORT%\"",
    "        hostname: \"%SSH_PROXY_VISITOR_ID%.ssh.internal\"",
    "      - ip: \"%SSH_PROXY_SERVER_HOST%\"",
    "        hostname: \"%SSH_PROXY_SERVER_ID%.ssh-proxy.internal\"",
    "      - ip: \"%SSH_PROXY_SERVER_HOST%\"",
    "        hostname: \"%SSH_PROXY_SERVER_ID%.ssh.internal\"",
    "  commonName: \"%SSH_PROXY_VISITOR_ID%.ssh.internal\"",
    "  organization: \"%PROJECT_ID%\""]

/-- `ssh_proxy_visitor.yaml`. -/
def sshProxyVisitorYAML : List String :=
  ["        - name: \"%INSTANCE_ID%\"",
    "            addr: \"%SSH_PROXY_SERVER_HOST%:%SSH_PROXY_SERVER_TUNNEL_PORT%\"",
    "                tunnel.id: \"%SSH_PROXY_CLIENT_ID%\"",
    "                serverName: \"%SSH_PROXY_SERVER_ID%.ssh-proxy.internal\"",
    "  commonName: \"%SSH_PROXY_VISITOR_ID%.ssh.internal\"",
    "  organization: \"%PROJECT_ID%\""]

/-- The first chain of `start_ssh_proxy_visitor`. -/
def visitorHTTPChain (env : Environment) : Chain :=
  [("SSH_PROXY_SERVER_HOST", env.sshProxyServerHost),
    ("SSH_PROXY_SERVER_API_PORT", env.sshProxyServerAPIPort.orDefault port5000),
    ("SSH_PROXY_SERVER_ID", env.sshProxyServerID),
    ("SSH_PROXY_VISITOR_ID", env.sshProxyVisitorID),
    ("PROJECT_ID", env.projectID),
    ("INSTANCE_ID", env.instanceID)]

/-- The second chain of `start_ssh_proxy_visitor`. -/
def visitorChain (env : Environment) : Chain :=
  [("SSH_PROXY_SERVER_HOST", env.sshProxyServerHost),
    ("SSH_PROXY_SERVER_TUNNEL_PORT", env.sshProxyServerTunnelPort.orDefault port5555),
    ("SSH_PROXY_SERVER_ID", env.sshProxyServerID),
    ("SSH_PROXY_CLIENT_ID", env.tunnel),
    ("SSH_PROXY_VISITOR_ID", env.sshProxyVisitorID),
    ("PROJECT_ID", env.projectID),
    ("INSTANCE_ID", env.instanceID)]

def sshProxyVisitorHTTP (env : Environment) : Rendering where
  template := sshProxyVisitorHTTPYAML
  placeholders := ["SSH_PROXY_SERVER_HOST", "SSH_PROXY_SERVER_API_PORT",
    "SSH_PROXY_SERVER_ID", "SSH_PROXY_VISITOR_ID", "PROJECT_ID"]
  chain := visitorHTTPChain env
  renderable := by
    simp only [sshProxyVisitorHTTPYAML, List.forall_mem_cons, List.not_mem_nil, IsEmpty.forall_iff,
      implies_true, and_true]
    and_intros <;> exact renderable_ofList (by decide +kernel)
  named := by simp only [visitorHTTPChain, List.map_cons, List.map_nil]; decide +kernel
  covered := by simp only [visitorHTTPChain, List.map_cons, List.map_nil]; decide +kernel
  consistent := by simp [visitorHTTPChain, List.lookup_cons]

def sshProxyVisitor (env : Environment) : Rendering where
  template := sshProxyVisitorYAML
  placeholders := ["SSH_PROXY_SERVER_HOST", "SSH_PROXY_SERVER_TUNNEL_PORT",
    "SSH_PROXY_SERVER_ID", "SSH_PROXY_CLIENT_ID", "SSH_PROXY_VISITOR_ID", "PROJECT_ID",
    "INSTANCE_ID"]
  chain := visitorChain env
  renderable := by
    simp only [sshProxyVisitorYAML, List.forall_mem_cons, List.not_mem_nil, IsEmpty.forall_iff,
      implies_true, and_true]
    and_intros <;> exact renderable_ofList (by decide +kernel)
  named := by simp only [visitorChain, List.map_cons, List.map_nil]; decide +kernel
  covered := by simp only [visitorChain, List.map_cons, List.map_nil]; decide +kernel
  consistent := by simp [visitorChain, List.lookup_cons]

/-- `start_ssh_proxy_visitor` stops when the certificate bears another name than the
expected one. -/
def startSSHProxyVisitor (env : Environment) : List Rendering :=
  if env.sshProxyServerName ≠ env.sshProxyServerID.text ++ ".ssh-proxy.internal" then []
  else [sshProxyVisitorHTTP env, sshProxyVisitor env]

/-- The variables of the visitor that do not come from the file: the identifier that it made
and the tunnel that the registry named. -/
def ownVariables : List String := ["SSH_PROXY_VISITOR_ID", "SSH_PROXY_CLIENT_ID"]

def visitorVariables (shell : Shell) (env : Environment) (name : String) : List Char :=
  if name = "SSH_PROXY_VISITOR_ID" then env.sshProxyVisitorID.text.toList
  else if name = "SSH_PROXY_CLIENT_ID" then env.tunnel.text.toList
  else shell.source (cloudRunSSHEnv env) name

/-- All configurations agree with the variables of the scripts that source the file. -/
structure RenderedFaithfully (shell : Shell) (env : Environment) : Prop where
  sidecar : ∀ rendering ∈ initCloudRunSSHServerConfig env,
    rendering.Faithful (shell.source (cloudRunSSHEnv env))
  server : (startSSHProxyServer env).Faithful (shell.source (cloudRunSSHEnv env))
  visitor : ∀ rendering ∈ startSSHProxyVisitor env,
    rendering.Faithful (visitorVariables shell env)

/-- The shell reads the values in all configurations as they are. -/
structure RenderedLiteral (shell : Shell) (env : Environment) : Prop where
  sidecar : ∀ rendering ∈ initCloudRunSSHServerConfig env, rendering.Literal shell []
  server : (startSSHProxyServer env).Literal shell []
  visitor : ∀ rendering ∈ startSSHProxyVisitor env, rendering.Literal shell ownVariables

/-- The identifier of the server is set if anything that lacks its default is rendered. -/
def Named (env : Environment) : Prop :=
  orDefault env.enableSSHProxy "false" = "true" ∨
    env.sshProxyServerName = env.sshProxyServerID.text ++ ".ssh-proxy.internal" →
      env.sshProxyServerID.text ≠ ""

section Agreement

variable {shell : Shell} {env : Environment}

theorem orDefault_of_ne {value : Plain} (set : value.text ≠ "") (default : Plain) :
    value.orDefault default = value := if_neg set

theorem sshProxyClient_faithful_iff (regular : shell.Regular (cloudRunSSHEnv env))
    (set : env.sshProxyServerID.text ≠ "") :
    (sshProxyClient env).Faithful (shell.source (cloudRunSSHEnv env)) ↔
      (sshProxyClient env).Literal shell [] := by
  apply Rendering.faithful_iff_literal regular (List.forall_mem_nil _)
  simp [sshProxyClient, clientChain, cloudRunSSHEnv, variableOf, valueIn, List.lookup_cons,
    orDefault_of_ne set]

theorem startSSHProxyServer_faithful_iff (regular : shell.Regular (cloudRunSSHEnv env)) :
    (startSSHProxyServer env).Faithful (shell.source (cloudRunSSHEnv env)) ↔
      (startSSHProxyServer env).Literal shell [] := by
  apply Rendering.faithful_iff_literal regular (List.forall_mem_nil _)
  simp [startSSHProxyServer, serverChain, cloudRunSSHEnv, variableOf, valueIn, List.lookup_cons]

theorem sshProxyVisitorHTTP_faithful_iff (regular : shell.Regular (cloudRunSSHEnv env))
    (set : env.sshProxyServerID.text ≠ "") :
    (sshProxyVisitorHTTP env).Faithful (visitorVariables shell env) ↔
      (sshProxyVisitorHTTP env).Literal shell ownVariables := by
  apply Rendering.faithful_iff_literal regular
  · simp [ownVariables, sshProxyVisitorHTTP, visitorHTTPChain, visitorVariables, variableOf,
      valueIn, List.lookup_cons]
  · simp [ownVariables, sshProxyVisitorHTTP, visitorHTTPChain, visitorVariables, cloudRunSSHEnv,
      variableOf, valueIn, List.lookup_cons, orDefault_of_ne set]

theorem sshProxyVisitor_faithful_iff (regular : shell.Regular (cloudRunSSHEnv env))
    (set : env.sshProxyServerID.text ≠ "") :
    (sshProxyVisitor env).Faithful (visitorVariables shell env) ↔
      (sshProxyVisitor env).Literal shell ownVariables := by
  apply Rendering.faithful_iff_literal regular
  · simp [ownVariables, sshProxyVisitor, visitorChain, visitorVariables, variableOf, valueIn,
      List.lookup_cons]
  · simp [ownVariables, sshProxyVisitor, visitorChain, visitorVariables, cloudRunSSHEnv,
      variableOf, valueIn, List.lookup_cons, orDefault_of_ne set]

/-- The line on which the sidecar and the visitor name the server. -/
def serverHostname : String := "        hostname: \"%SSH_PROXY_SERVER_ID%.ssh-proxy.internal\""

theorem read_serverHostname :
    Template.read '%' serverHostname.toList =
      some (.hole "        hostname: \"".toList "SSH_PROXY_SERVER_ID".toList
        (.text ".ssh-proxy.internal\"".toList)) := by
  decide +kernel

/-- Without an identifier the file has the default. -/
theorem source_of_unset (regular : shell.Regular (cloudRunSSHEnv env))
    (unset : env.sshProxyServerID.text = "") :
    shell.source (cloudRunSSHEnv env) "SSH_PROXY_SERVER_ID" = zeroUUID.text.toList := by
  have written : (cloudRunSSHEnv env).reverse.lookup "SSH_PROXY_SERVER_ID" =
      some zeroUUID.text.toList := by
    simp [cloudRunSSHEnv, List.lookup_cons, Plain.orDefault, unset]
  have literal : shell.Literal zeroUUID.text.toList := rfl
  have assigned := Shell.source_of_regular regular written
  rw [Shell.assigned_eq_self_iff.mpr literal] at assigned
  exact Option.some.inj assigned

/-- A chain without the default is not faithful when the identifier is not set. -/
theorem set_of_faithful {rendering : Rendering} {values : String → List Char}
    (faithful : rendering.Faithful values) (member : serverHostname ∈ rendering.template)
    (wanted : env.sshProxyServerID.text = "" →
      values "SSH_PROXY_SERVER_ID" = zeroUUID.text.toList)
    (replaced : valueIn rendering.chain "SSH_PROXY_SERVER_ID" =
      env.sshProxyServerID.text.toList) : env.sshProxyServerID.text ≠ "" := by
  intro empty
  have agree := faithful.agree member read_serverHostname
  rw [String.ofList_toList, replaced] at agree
  change values "SSH_PROXY_SERVER_ID" = _ at agree
  rw [wanted empty, empty] at agree
  revert agree
  decide

/-- What renders the identifier of the server without its default needs it set. -/
theorem named_of_renderedFaithfully (regular : shell.Regular (cloudRunSSHEnv env))
    (faithful : RenderedFaithfully shell env) : Named env := by
  rintro (enabled | expected)
  · apply set_of_faithful (faithful.sidecar (sshProxyClient env) _)
    · simp [sshProxyClient, sshProxyClientYAML, serverHostname]
    · exact source_of_unset regular
    · simp [sshProxyClient, clientChain, valueIn]
    · simp [initCloudRunSSHServerConfig, enabled]
  · apply set_of_faithful (faithful.visitor (sshProxyVisitorHTTP env) _)
    · simp [sshProxyVisitorHTTP, sshProxyVisitorHTTPYAML, serverHostname]
    · simpa [visitorVariables] using source_of_unset regular
    · simp [sshProxyVisitorHTTP, visitorHTTPChain, valueIn, List.lookup_cons]
    · simp [startSSHProxyVisitor, expected]

theorem faithful_iff_of_sidecar (regular : shell.Regular (cloudRunSSHEnv env)) (named : Named env)
    {rendering : Rendering} (member : rendering ∈ initCloudRunSSHServerConfig env) :
    rendering.Faithful (shell.source (cloudRunSSHEnv env)) ↔ rendering.Literal shell [] := by
  rw [initCloudRunSSHServerConfig] at member
  split at member
  · rename_i enabled
    cases Option.mem_some.mp member
    exact sshProxyClient_faithful_iff regular (named (.inl enabled))
  · cases member

theorem faithful_iff_of_visitor (regular : shell.Regular (cloudRunSSHEnv env)) (named : Named env)
    {rendering : Rendering} (member : rendering ∈ startSSHProxyVisitor env) :
    rendering.Faithful (visitorVariables shell env) ↔
      rendering.Literal shell ownVariables := by
  rw [startSSHProxyVisitor] at member
  split at member
  · exact absurd member List.not_mem_nil
  · rename_i expected
    have set := named (.inr (not_not.mp expected))
    rcases List.mem_cons.mp member with rfl | last
    · exact sshProxyVisitorHTTP_faithful_iff regular set
    · rw [List.mem_singleton.mp last]
      exact sshProxyVisitor_faithful_iff regular set

end Agreement

/-- A sidecar that leaves the identifier of the server to its default. -/
def unnamedServer : Environment where
  projectID := ⟨"my-project-1", by decide⟩
  projectNum := ⟨"1234567890", by decide⟩
  gcpRegion := ⟨"us-central1", by decide⟩
  kService := ⟨"my-service", by decide⟩
  kRevision := ⟨"my-service-00001", by decide⟩
  instanceID := ⟨"0069c7a9", by decide⟩
  instanceUUID := ⟨"1c4b7c3e-0000-4000-8000-000000000001", by decide⟩
  webSSHPort := ⟨"", by decide⟩
  defaultWebSSHPort := port8080
  webAppPort := ⟨"", by decide⟩
  enableSSHProxy := "true"
  sshProxyServerID := ⟨"", by decide⟩
  sshProxyServerHost := ⟨"10.0.0.1", by decide⟩
  sshProxyServerAPIPort := ⟨"", by decide⟩
  sshProxyServerTunnelPort := ⟨"", by decide⟩
  sshProxyServerPort := ⟨"", by decide⟩
  sshProxyServerName := allUUIDs ++ ".ssh-proxy.internal"
  sshProxyVisitorID := ⟨"1c4b7c3e-0000-4000-8000-000000000002", by decide⟩
  tunnel := ⟨"1c4b7c3e-0000-4000-8000-000000000001", by decide⟩
  userName := ⟨"", by decide⟩
  sshUserName := ⟨"cloudrun", by decide⟩
  contentFlavor := ⟨"", by decide⟩
  sshContentFlavor := ⟨"", by decide⟩

theorem regular_unnamedServer (shell : Shell) :
    shell.Regular (cloudRunSSHEnv unnamedServer) := by
  simp only [Shell.Regular, cloudRunSSHEnv, List.forall_mem_cons]
  and_intros <;> first | rfl | exact List.forall_mem_nil _

/-- The sidecar of a server with an identifier. -/
def namedServer : Environment := { unnamedServer with sshProxyServerID := zeroUUID }

/-- The environment of the front proxy, as the verifier's clients meet it. -/
def frontProxy (env : Environment) : ProxyEnvironment where
  sshProxyServerID := env.sshProxyServerID.text
  projectID := env.projectID.text
  sshProxyServerAPIPort := env.sshProxyServerAPIPort.text
  sshProxyServerTunnelPort := env.sshProxyServerTunnelPort.text

/-- The certificate of the front proxy bears the name that the tokens are issued for. -/
theorem sed_commonName (env : Environment) :
    sed (serverChain env) "  commonName: \"%SSH_PROXY_SERVER_ID%.ssh-proxy.internal\"" =
      ("  commonName: \"" ++ (frontProxy env).commonName ++ "\"").toList := by
  have member : "  commonName: \"%SSH_PROXY_SERVER_ID%.ssh-proxy.internal\"" ∈
      (startSSHProxyServer env).template := by
    simp [startSSHProxyServer, sshProxyServerYAML]
  have found : Template.read '%'
      "  commonName: \"%SSH_PROXY_SERVER_ID%.ssh-proxy.internal\"".toList =
        some (.hole "  commonName: \"".toList "SSH_PROXY_SERVER_ID".toList
          (.text ".ssh-proxy.internal\"".toList)) := by
    decide +kernel
  obtain ⟨template, same, _, _, filled⟩ :=
    (startSSHProxyServer env).sed_eq_fill (List.Perm.refl _) member
  rw [found] at same
  cases same
  have name : (frontProxy env).serverID =
      (env.sshProxyServerID.orDefault zeroUUID).text :=
    (Plain.text_orDefault env.sshProxyServerID zeroUUID).symm
  change sed (startSSHProxyServer env).chain _ = _
  rw [filled, ProxyEnvironment.commonName, name]
  simp [Template.fill, startSSHProxyServer, serverChain, valueIn, List.lookup_cons]

end CloudRunSsh.Tunnel
