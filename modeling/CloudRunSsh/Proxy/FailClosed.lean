import CloudRunSsh.Proxy.Server
import CloudRunSsh.Proxy.Verdicts

/-!
# Loading the access control

An empty list in the configuration allows everything, so a list that gets lost while
the file is decoded opens the server.  `FailsClosed` says that none does: what cannot
be decoded is not loaded, and what is loaded decides as the file does.  `LoadYAML`
achieves it exactly for the files that `Populate` decodes without an error.
-/

namespace CloudRunSsh.Proxy

open CloudRunSsh.Concurrency

/-- The library decodes the whole file: it opens it and populates the struct without
an error. -/
def CompletelyDecoded (newYAML : Except String YAMLProvider) : Prop :=
  ∃ provider, newYAML = .ok provider ∧ (provider.populate {}).2 = none

/-- The documented meaning of `Populate`: without an error the struct holds what the
file lists. -/
def Populates (newYAML : Except String YAMLProvider) (file : ProxyConfigFile) : Prop :=
  ∀ provider, newYAML = .ok provider → (provider.populate {}).2 = none →
    (provider.populate {}).1 = file

/-- The set holds exactly the listed strings. -/
def StringSet.Holds (set : StringSet) (listed : List String) : Prop :=
  ∀ value, value ∈ set.elements ↔ value ∈ listed

/-- The six sets are those of the file. -/
structure AccessControl.Holds (access : AccessControl) (lists : AccessControlLists) :
    Prop where
  projects : access.allowedProjects.Holds lists.allowedProjects
  regions : access.allowedRegions.Holds lists.allowedRegions
  services : access.allowedServices.Holds lists.allowedServices
  revisions : access.allowedRevisions.Holds lists.allowedRevisions
  identities : access.allowedIdentities.Holds lists.allowedIdentities
  hosts : access.allowedHosts.Holds lists.allowedHosts

/-- A value that is not empty, and that the file lists or gives no list for. -/
def ListedOrOpen (listed : List String) (value : String) : Prop :=
  value ≠ "" ∧ (value ∈ listed ∨ listed = [])

/-- The file lets the path of the request through. -/
structure AccessControlLists.Allow (lists : AccessControlLists) (request : Request) :
    Prop where
  project : ListedOrOpen lists.allowedProjects (request.param APIPathParam.project)
  region : ListedOrOpen lists.allowedRegions (request.param APIPathParam.region)
  service : ListedOrOpen lists.allowedServices (request.param APIPathParam.service)
  revision : ListedOrOpen lists.allowedRevisions (request.param APIPathParam.revision)

/-- Loading never opens more than the file does. -/
structure FailsClosed (newYAML : Except String YAMLProvider) (file : ProxyConfigFile) :
    Prop where
  rejected : ¬CompletelyDecoded newYAML → ∃ message, loadYAML newYAML = .error message
  holds : ∀ config, loadYAML newYAML = .ok config →
    ∃ access, config.accessControl = some access ∧ access.Holds file.accessControl
  decides : ∀ config, loadYAML newYAML = .ok config →
    ∀ (projectID sshProxyServerID : String) (parse : String → Option String)
      (c : Context), c.aborted = false →
      (GoesOn (accessControl (configure projectID sshProxyServerID parse (.ok config)) c) ↔
        file.accessControl.Allow c.request)

/-- An empty set is one that the file gives no list for. -/
theorem StringSet.Holds.elements_eq_nil {set : StringSet} {listed : List String}
    (holds : set.Holds listed) : set.elements = [] ↔ listed = [] := by
  simp only [List.eq_nil_iff_forall_not_mem]
  exact forall_congr' fun value => not_congr (holds value)

theorem StringSet.Holds.admits {set : StringSet} {listed : List String}
    (holds : set.Holds listed) (value : String) :
    Admits set value ↔ ListedOrOpen listed value := by
  unfold Admits ListedOrOpen
  rw [holds.elements_eq_nil, holds value, or_comm]

theorem AccessControl.Holds.whitelisted {access : AccessControl}
    {lists : AccessControlLists} (holds : access.Holds lists) (request : Request) :
    request.Whitelisted access ↔ lists.Allow request := by
  constructor
  · intro whitelisted
    exact ⟨(holds.projects.admits _).mp whitelisted.project,
      (holds.regions.admits _).mp whitelisted.region,
      (holds.services.admits _).mp whitelisted.service,
      (holds.revisions.admits _).mp whitelisted.revision⟩
  · intro allow
    exact ⟨(holds.projects.admits _).mpr allow.project,
      (holds.regions.admits _).mpr allow.region,
      (holds.services.admits _).mpr allow.service,
      (holds.revisions.admits _).mpr allow.revision⟩

/-- Whatever `Populate` reports, what it filled in is loaded. -/
theorem loadYAML_ok (provider : YAMLProvider) :
    ∃ config, loadYAML (.ok provider) = .ok config ∧
      ∃ access, config.accessControl = some access ∧
        access.Holds (provider.populate {}).1.accessControl := by
  refine ⟨_, rfl, _, rfl, ?_⟩
  exact {
    projects := fun _ => mem_optionalSet
    regions := fun _ => mem_optionalSet
    services := fun _ => mem_optionalSet
    revisions := fun _ => mem_optionalSet
    identities := fun _ => StringSet.mem_newSet
    hosts := fun _ => StringSet.mem_newSet }

/-- A configuration is only loaded from a provider. -/
theorem provider_of_loadYAML {newYAML : Except String YAMLProvider}
    {config : ProxyConfig} (loaded : loadYAML newYAML = .ok config) :
    ∃ provider, newYAML = .ok provider := by
  cases newYAML with
  | error message => cases loaded
  | ok provider => exact ⟨provider, rfl⟩

/-- What is loaded from a completely decoded file holds its lists. -/
theorem holds_of_loadYAML {newYAML : Except String YAMLProvider}
    {file : ProxyConfigFile} (populates : Populates newYAML file)
    (reported : ∀ provider, newYAML = .ok provider → (provider.populate {}).2 = none)
    {config : ProxyConfig} (loaded : loadYAML newYAML = .ok config) :
    ∃ access, config.accessControl = some access ∧
      access.Holds file.accessControl := by
  obtain ⟨provider, opened⟩ := provider_of_loadYAML loaded
  obtain ⟨config', loaded', access, found, holds⟩ := loadYAML_ok provider
  rw [opened, loaded'] at loaded
  cases loaded
  rw [populates provider opened (reported provider opened)] at holds
  exact ⟨access, found, holds⟩

/-- The access control fails closed exactly when `Populate` reports no error on a file
that opens: its error is dropped. -/
theorem failsClosed_iff_populated (newYAML : Except String YAMLProvider)
    (file : ProxyConfigFile) (populates : Populates newYAML file) :
    FailsClosed newYAML file ↔
      ∀ provider, newYAML = .ok provider → (provider.populate {}).2 = none := by
  constructor
  · intro closed provider opened
    by_contra failed
    have incomplete : ¬CompletelyDecoded newYAML := by
      intro complete
      obtain ⟨provider', opened', decoded⟩ := complete
      cases opened.symm.trans opened'
      exact failed decoded
    obtain ⟨message, refused⟩ := closed.rejected incomplete
    rw [opened] at refused
    cases refused
  · intro reported
    constructor
    · intro incomplete
      cases newYAML with
      | error message => exact ⟨message, rfl⟩
      | ok provider => exact absurd ⟨provider, rfl, reported provider rfl⟩ incomplete
    · intro config loaded
      exact holds_of_loadYAML populates reported loaded
    · intro config loaded projectID sshProxyServerID parse c running
      obtain ⟨access, found, holds⟩ := holds_of_loadYAML populates reported loaded
      rw [← accessControl_configure projectID sshProxyServerID parse] at found
      rw [accessControl_goesOn found running]
      exact holds.whitelisted c.request

/-- A file with a single project. -/
def trustedFile : ProxyConfigFile :=
  { accessControl := { allowedProjects := ["trusted"] } }

theorem failsClosed_trustedFile :
    FailsClosed (.ok ⟨fun _ => (trustedFile, none)⟩) trustedFile := by
  apply (failsClosed_iff_populated _ trustedFile ?_).mpr
  · intro provider opened
    cases opened
    rfl
  · intro provider opened _
    cases opened
    rfl

/-- The project stands where the list is expected: `Populate` fails and leaves the list
empty, the configuration is loaded, and every other project is let through. -/
theorem loadYAML_opens_undecoded :
    let undecoded : Except String YAMLProvider :=
      .ok ⟨fun empty => (empty, some "cannot unmarshal !!str into []string")⟩
    ¬FailsClosed undecoded trustedFile ∧
      ∃ config, loadYAML undecoded = .ok config ∧
        ∀ parse, GoesOn (accessControl (configure "p" "" parse (.ok config))
          (instanceContext .post "intruder" "r" "s" "v" "i" "t")) := by
  constructor
  · intro closed
    have incomplete : ¬CompletelyDecoded (.ok ⟨fun empty =>
        (empty, some "cannot unmarshal !!str into []string")⟩) := by
      intro complete
      obtain ⟨provider, opened, decoded⟩ := complete
      cases opened
      cases decoded
    obtain ⟨message, refused⟩ := closed.rejected incomplete
    cases refused
  · refine ⟨_, rfl, fun parse => ?_⟩
    apply (accessControl_goesOn (accessControl_configure "p" "" parse _) rfl).mpr
    exact ⟨⟨by decide, .inl rfl⟩, ⟨by decide, .inl rfl⟩, ⟨by decide, .inl rfl⟩,
      ⟨by decide, .inl rfl⟩⟩

end CloudRunSsh.Proxy
