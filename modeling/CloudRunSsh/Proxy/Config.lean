import Mathlib.Data.List.Dedup

/-!
# Proxy configuration

`pkg/config/config.go`: the configuration file as the YAML library decodes it, and
the sets that the access control reads.  The library itself is a parameter: opening
the file may fail, and populating a struct returns whatever it filled in together
with an optional error.
-/

namespace CloudRunSsh.Proxy

/-- `mapset.Set[string]`: a duplicate-free collection of strings. -/
structure StringSet where
  elements : List String
  nodup : elements.Nodup

namespace StringSet

/-- `mapset.NewSet`. -/
def newSet (values : List String) : StringSet :=
  ⟨values.dedup, values.nodup_dedup⟩

/-- `mapset.NewSetWithSize(0)`. -/
def newSetWithSize : StringSet := ⟨[], .nil⟩

/-- `Set.Contains`. -/
def contains (set : StringSet) (value : String) : Bool :=
  decide (value ∈ set.elements)

/-- `Set.IsEmpty`. -/
def isEmpty (set : StringSet) : Bool := set.elements.isEmpty

@[simp] theorem contains_iff {set : StringSet} {value : String} :
    set.contains value = true ↔ value ∈ set.elements := by
  simp only [contains, decide_eq_true_eq]

@[simp] theorem mem_newSet {values : List String} {value : String} :
    value ∈ (newSet values).elements ↔ value ∈ values := List.mem_dedup

@[simp] theorem isEmpty_iff {set : StringSet} :
    set.isEmpty = true ↔ set.elements = [] := List.isEmpty_iff

end StringSet

/-- `accessControl`: the lists as they stand in the file. -/
structure AccessControlLists where
  allowedProjects : List String := []
  allowedRegions : List String := []
  allowedServices : List String := []
  allowedRevisions : List String := []
  allowedIdentities : List String := []
  allowedHosts : List String := []

/-- `proxyConfig`: the decoded file. -/
structure ProxyConfigFile where
  id : String := ""
  projectID : String := ""
  accessControl : AccessControlLists := {}

/-- `AccessControl`: the sets built from the lists. -/
structure AccessControl where
  allowedProjects : StringSet
  allowedRegions : StringSet
  allowedServices : StringSet
  allowedRevisions : StringSet
  allowedIdentities : StringSet
  allowedHosts : StringSet

/-- `ProxyConfig`.  `New` leaves the access control nil. -/
structure ProxyConfig where
  proxyConfig : ProxyConfigFile
  accessControl : Option AccessControl

namespace ProxyConfig

/-- The promoted field `config.ID`. -/
def id (config : ProxyConfig) : String := config.proxyConfig.id

/-- The promoted field `config.ProjectID`. -/
def projectID (config : ProxyConfig) : String := config.proxyConfig.projectID

/-- Assignment to `config.ID`. -/
def withID (config : ProxyConfig) (id : String) : ProxyConfig :=
  { config with proxyConfig := { config.proxyConfig with id } }

/-- Assignment to `config.ProjectID`. -/
def withProjectID (config : ProxyConfig) (projectID : String) : ProxyConfig :=
  { config with proxyConfig := { config.proxyConfig with projectID } }

end ProxyConfig

/-- What `cfg.NewYAML` returns: `Populate` fills a struct and may report an
error. -/
structure YAMLProvider where
  populate : ProxyConfigFile → ProxyConfigFile × Option String

/-- The set for a list that may be left out of the file. -/
def optionalSet (values : List String) : StringSet :=
  if values.length > 0 then .newSet values else .newSetWithSize

@[simp] theorem mem_optionalSet {values : List String} {value : String} :
    value ∈ (optionalSet values).elements ↔ value ∈ values := by
  cases values with
  | nil => simp [optionalSet, StringSet.newSetWithSize]
  | cons head tail => simp [optionalSet]

/-- `LoadYAML`, given what `cfg.NewYAML` returned.  The error of `Populate` is
dropped. -/
def loadYAML (newYAML : Except String YAMLProvider) : Except String ProxyConfig := do
  let provider ← newYAML
  let config := (provider.populate {}).1
  let lists := config.accessControl
  return {
    proxyConfig := config
    accessControl := some {
      allowedIdentities := .newSet lists.allowedIdentities
      allowedHosts := .newSet lists.allowedHosts
      allowedProjects := optionalSet lists.allowedProjects
      allowedRegions := optionalSet lists.allowedRegions
      allowedServices := optionalSet lists.allowedServices
      allowedRevisions := optionalSet lists.allowedRevisions } }

/-- `New`. -/
def ProxyConfig.new (projectID : String) : ProxyConfig :=
  { proxyConfig := { projectID }, accessControl := none }

/-- A loaded configuration always carries its access control. -/
theorem accessControl_of_loadYAML {newYAML : Except String YAMLProvider}
    {config : ProxyConfig} (loaded : loadYAML newYAML = .ok config) :
    ∃ accessControl, config.accessControl = some accessControl := by
  cases newYAML with
  | error message => cases loaded
  | ok provider =>
      cases loaded
      exact ⟨_, rfl⟩

end CloudRunSsh.Proxy
