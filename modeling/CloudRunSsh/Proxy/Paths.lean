import CloudRunSsh.Proxy.Expiry
import CloudRunSsh.Proxy.Responses

/-!
# The nested map as one map keyed by paths

The registry is meant to be a map from whole paths to registrations.  All projects
share the package-level maps of the levels below, so it behaves like one exactly as
long as every registration names the same project, region and service, names them
properly, and no instance moves to a second revision while it is in the bucket of a
first one.  The first registration that breaks one of these conditions is visible
under a path that it was not made under.
-/

namespace CloudRunSsh.Proxy

open CloudRunSsh.Concurrency

/-- The whole tuple that a registration is made under. -/
structure Path where
  project : String
  region : String
  service : String
  revision : String
  inst : String
  deriving DecidableEq, Repr

def ServerlessInstance.path (config : ServerlessInstance) : Path :=
  ⟨config.project, config.region, config.service, config.revision, config.id⟩

/-- The path that a request addresses. -/
def Context.path (c : Context) : Path :=
  ⟨c.param APIPathParam.project, c.param APIPathParam.region,
    c.param APIPathParam.service, c.param APIPathParam.revision,
    c.param APIPathParam.instance⟩

/-- A map from paths to the latest registrations that were not removed. -/
abbrev PathMap := Path → Option ServerlessInstance

/-- What a call does to a map keyed by paths. -/
def PathMap.perform (paths : PathMap) (call : Call) : PathMap :=
  match call.job with
  | .addInstance c =>
      if c.getHeader xServerlessSSHClientID = "" then paths
      else
        Function.update paths c.path
          (some (registration c (c.getHeader xServerlessSSHClientID) call.clock))
  | .removeInstance c =>
      match paths c.path with
      | some config =>
          if c.getHeader xServerlessSSHClientID ≠ "" ∧
              c.getHeader xServerlessSSHClientID = config.tunnel then
            Function.update paths c.path none
          else paths
      | none => paths
  | .idleInstancesReaper _ _ => paths

/-- The map that a sequence of calls leads to. -/
def PathMap.ofCalls (calls : List Call) : PathMap :=
  calls.foldl PathMap.perform fun _ => none

/-- Clients cannot tell the registry from a map keyed by paths. -/
structure Observes (mem : Memory) (paths : PathMap) : Prop where
  listing : ∀ c, c.Untouched → ∃ c',
    (getRevisionIngress c).eval execute mem = (some c', mem) ∧
      ∀ config, c'.Lists config ↔ ∃ inst, paths { c.path with inst } = some config
  lookup : ∀ c, c.Untouched → ∃ c',
    (getInstance c).eval execute mem = (some c', mem) ∧
      ∀ config, c'.Returns config ↔ paths c.path = some config
  removal : ∀ c after outcome, c.Untouched → c.getHeader xServerlessSSHClientID ≠ "" →
    registryMachine.Completes mem (.removeInstance c) after outcome →
    ∃ c', outcome.result = some (.response c') ∧
      (c'.Accepted ↔ ∃ config, paths c.path = some config ∧
        c.getHeader xServerlessSSHClientID = config.tunnel)

/-- A registration that goes with all earlier ones: all names are given, project, region
and service are those of every earlier registration, and no other revision has the
instance. -/
structure Compatible (mem : Memory) (c : Context) : Prop where
  named : c.Named
  inst : c.param APIPathParam.instance ≠ ""
  project : ∀ name regions, mem.lookup projectToRegionsMap name = some regions →
    name = c.param APIPathParam.project
  region : ∀ name services, mem.lookup regionToServicesMap name = some services →
    name = c.param APIPathParam.region
  service : ∀ name revisions, mem.lookup serviceToRevisionsMap name = some revisions →
    name = c.param APIPathParam.service
  exclusive : Exclusive mem c

/-- Registrations and deregistrations, of which the registrations are compatible. -/
def CompatibleCalls (mem : Memory) : RegistryJob → Prop
  | .addInstance c => c.getHeader xServerlessSSHClientID ≠ "" → Compatible mem c
  | .removeInstance _ => True
  | .idleInstancesReaper _ _ => False

section Condition

variable {mem : Memory} {view : View} {c : Context}

theorem Compatible.level (compatible : Compatible mem c) (represents : Represents mem view)
    {level : Level} {name : String} (known : view.known level name = true) :
    name = level.param c := by
  have found := represents.lookup_known level known
  cases level with
  | project => exact compatible.project name _ found
  | region => exact compatible.region name _ found
  | service => exact compatible.service name _ found

/-- The condition, read off the view. -/
theorem Compatible.of_view (represents : Represents mem view) (named : c.Named)
    (inst : c.param APIPathParam.instance ≠ "")
    (levels : ∀ level name, view.known level name = true → name = level.param c)
    (alone : ∀ revision, revision ≠ c.param APIPathParam.revision →
      view.bucketEntry revision (c.param APIPathParam.instance) = none) :
    Compatible mem c := by
  have level : ∀ (level : Level) name (value : level.kind.Value),
      mem.lookup level.map name = some value → name = level.param c := by
    intro level name value found
    apply levels
    rw [represents.known] at found
    split at found
    · assumption
    · cases found
  refine ⟨named, inst, level .project, level .region, level .service, ?_⟩
  intro revision instances other published
  cases found : mem.lookup instances (c.param APIPathParam.instance) with
  | none => rfl
  | some config =>
      have entry := represents.bucketEntry.mpr ⟨instances, published, found⟩
      rw [alone revision other] at entry
      cases entry

end Condition

/-! ## The invariant -/

/-- The registry tracks a map keyed by paths. -/
structure Tracks (paths : PathMap) (view : View) : Prop where
  coherent : view.Coherent
  single : ∀ level name other, view.known level name = true →
    view.known level other = true → name = other
  placed : ∀ id config, view.flat id = some config →
    (config.project ≠ "" ∧ config.region ≠ "" ∧ config.service ≠ "" ∧
      config.revision ≠ "" ∧ config.id ≠ "") ∧
      ∀ level : Level, view.known level (level.key config) = true
  paths : ∀ path config, paths path = some config ↔
    view.flat path.inst = some config ∧ config.path = path

section Invariant

variable {mem : Memory} {view : View} {paths : PathMap} {c : Context}

theorem key_registration (c : Context) (clientID : String) (ts : Time) (level : Level) :
    level.key (registration c clientID ts) = level.param c := by
  cases level <;> rfl

theorem path_eq_iff {config : ServerlessInstance} {inst : String} :
    config.path = { c.path with inst } ↔
      (∀ level : Level, level.key config = level.param c) ∧
        config.revision = c.param APIPathParam.revision ∧ config.id = inst := by
  constructor
  · intro equal
    simp only [ServerlessInstance.path, Context.path, Path.mk.injEq] at equal
    rcases equal with ⟨project, region, service, revision, id⟩
    refine ⟨?_, revision, id⟩
    intro level
    cases level with
    | project => exact project
    | region => exact region
    | service => exact service
  · rintro ⟨levels, revision, id⟩
    have project : config.project = c.param APIPathParam.project := levels .project
    have region : config.region = c.param APIPathParam.region := levels .region
    have service : config.service = c.param APIPathParam.service := levels .service
    rw [ServerlessInstance.path, Context.path, project, region, service, revision, id]

theorem View.knows_iff : view.Knows c ↔
    ∀ level : Level, view.known level (level.param c) = true := by
  constructor
  · rintro ⟨project, region, service⟩ level
    cases level with
    | project => exact project
    | region => exact region
    | service => exact service
  · intro levels
    exact ⟨levels .project, levels .region, levels .service⟩

/-- The entries that requests reach are those stored under their paths. -/
theorem Tracks.entry (tracks : Tracks paths view) (wellFormed : view.WellFormed)
    (inst : String) (config : ServerlessInstance) :
    paths { c.path with inst } = some config ↔
      view.Knows c ∧
        view.bucketEntry (c.param APIPathParam.revision) inst = some config := by
  rw [tracks.paths, tracks.coherent, path_eq_iff, View.knows_iff]
  constructor
  · rintro ⟨found, levels, revision, _⟩
    refine ⟨?_, found, revision⟩
    intro level
    rw [← levels level]
    exact (tracks.placed inst config found).2 level
  · rintro ⟨knows, found, revision⟩
    refine ⟨found, ?_, revision, wellFormed.flat inst config found⟩
    intro level
    exact tracks.single level _ _ ((tracks.placed inst config found).2 level) (knows level)

/-- The entry that a request addresses is the one stored under its path. -/
theorem Tracks.addressed (tracks : Tracks paths view) (wellFormed : view.WellFormed)
    (config : ServerlessInstance) :
    view.addressed c = some config ↔ paths c.path = some config := by
  have entry := @Tracks.entry _ _ c tracks wellFormed (c.param APIPathParam.instance) config
  refine Iff.trans ?_ entry.symm
  rw [View.addressed_eq_some, View.bucketEntry, Option.bind_eq_some_iff]
  rfl

/-- All names of a stored registration are given. -/
theorem Tracks.named (tracks : Tracks paths view) {inst : String}
    {config : ServerlessInstance} (found : paths { c.path with inst } = some config) :
    c.Named ∧ inst ≠ "" := by
  rcases (tracks.paths _ _).mp found with ⟨flat, equal⟩
  rcases path_eq_iff.mp equal with ⟨levels, revision, id⟩
  rcases (tracks.placed _ _ flat).1 with ⟨project, region, service, named, inst⟩
  have project' : config.project = c.param APIPathParam.project := levels .project
  have region' : config.region = c.param APIPathParam.region := levels .region
  have service' : config.service = c.param APIPathParam.service := levels .service
  rw [project'] at project
  rw [region'] at region
  rw [service'] at service
  rw [revision] at named
  rw [id] at inst
  exact ⟨⟨project, region, service, named⟩, inst⟩

/-- A registry that tracks a map keyed by paths answers as the map does. -/
theorem Tracks.observes (tracks : Tracks paths view) (represents : Represents mem view)
    (wellFormed : view.WellFormed) : Observes mem paths := by
  constructor
  · intro c untouched
    rcases getRevisionIngress_lists represents untouched with ⟨c', evaluates, lists⟩
    refine ⟨c', evaluates, fun config => ?_⟩
    rw [lists]
    constructor
    · rintro ⟨_, knows, id, found⟩
      exact ⟨id, (tracks.entry wellFormed id config).mpr ⟨knows, found⟩⟩
    · rintro ⟨id, found⟩
      rcases (tracks.entry wellFormed id config).mp found with ⟨knows, entry⟩
      exact ⟨(tracks.named found).1, knows, id, entry⟩
  · intro c untouched
    rcases getInstance_returns represents untouched with ⟨c', evaluates, returns⟩
    refine ⟨c', evaluates, fun config => ?_⟩
    rw [returns]
    constructor
    · rintro ⟨_, present, flat⟩
      rcases Option.isSome_iff_exists.mp present with ⟨other, addressed⟩
      have found := (tracks.addressed wellFormed other).mp addressed
      have stored := ((tracks.paths _ _).mp found).1
      rw [show other = config from Option.some.inj (stored.symm.trans flat)] at found
      exact found
    · intro found
      have addressed := (tracks.addressed wellFormed config).mpr found
      refine ⟨(tracks.named found).2, ?_, ((tracks.paths _ _).mp found).1⟩
      rw [addressed]
      rfl
  · intro c after outcome untouched clientID completes
    rcases removeInstance_accepted represents wellFormed.keyed untouched clientID completes
      with ⟨c', result, accepted⟩
    refine ⟨c', result, accepted.trans ?_⟩
    simp only [tracks.addressed wellFormed]

theorem Tracks.elapse (tracks : Tracks paths view) (duration : Nat) :
    Tracks paths (view.elapse duration) :=
  ⟨tracks.coherent, tracks.single, tracks.placed, tracks.paths⟩

theorem tracks_initial (clock : Time) : Tracks (fun _ => none) (View.initial clock) := by
  refine ⟨View.coherent_initial clock, ?_, ?_, ?_⟩
  · intro level name other known
    cases known
  · intro id config found
    cases found
  · intro path config
    simp [View.initial]

/-- What a compatible registration replaces was stored under the same path. -/
theorem Tracks.replaced (tracks : Tracks paths view) (represents : Represents mem view)
    (wellFormed : view.WellFormed) (compatible : Compatible mem c)
    {config : ServerlessInstance}
    (found : view.flat (c.param APIPathParam.instance) = some config) :
    config.path = c.path := by
  apply path_eq_iff.mpr
  refine ⟨?_, ?_, wellFormed.flat _ config found⟩
  · intro level
    exact compatible.level represents ((tracks.placed _ config found).2 level)
  · by_contra other
    have entry := (tracks.coherent _ _ _).mpr ⟨found, rfl⟩
    rw [compatible.exclusive.bucketEntry represents other] at entry
    cases entry

/-- A compatible registration. -/
theorem Tracks.register (tracks : Tracks paths view) (represents : Represents mem view)
    (wellFormed : view.WellFormed) (compatible : Compatible mem c) (clientID : String)
    (ts : Time) :
    Tracks (Function.update paths c.path (some (registration c clientID ts)))
      (view.register (registration c clientID ts)) := by
  constructor
  · apply tracks.coherent.register wellFormed
    intro revision other
    exact compatible.exclusive.bucketEntry represents other
  · have own : ∀ level name,
        (view.register (registration c clientID ts)).known level name = true →
          name = level.param c := by
      intro level name known
      rcases View.known_register.mp known with old | new
      · exact compatible.level represents old
      · exact new.trans (key_registration c clientID ts level)
    intro level name other known known'
    exact (own level name known).trans (own level other known').symm
  · intro id config found
    rw [View.flat_register, Function.update_apply] at found
    split at found
    · cases found
      refine ⟨?_, View.known_register_own⟩
      rcases compatible.named with ⟨project, region, service, revision⟩
      exact ⟨project, region, service, revision, compatible.inst⟩
    · rcases tracks.placed id config found with ⟨named, known⟩
      exact ⟨named, fun level => View.known_register.mpr (.inl (known level))⟩
  · intro path config
    rw [View.flat_register, Function.update_apply, Function.update_apply]
    by_cases same : path = c.path
    · subst same
      have own : c.path.inst = (registration c clientID ts).id := rfl
      rw [if_pos rfl, if_pos own]
      constructor
      · rintro ⟨rfl⟩
        exact ⟨rfl, rfl⟩
      · intro found
        exact found.1
    · rw [if_neg same]
      by_cases own : path.inst = (registration c clientID ts).id
      · rw [if_pos own, tracks.paths, own]
        constructor
        · rintro ⟨found, rfl⟩
          exact absurd (tracks.replaced represents wellFormed compatible found) same
        · rintro ⟨⟨rfl⟩, rfl⟩
          exact absurd rfl same
      · rw [if_neg own]
        exact tracks.paths path config

/-- A deregistration. -/
theorem Tracks.unregister (tracks : Tracks paths view) (wellFormed : view.WellFormed)
    {owned : ServerlessInstance} (stored : paths c.path = some owned) :
    Tracks (Function.update paths c.path none)
      (view.unregister (c.param APIPathParam.revision) (c.param APIPathParam.instance)) := by
  have addressed := ((tracks.entry wellFormed _ _).mp stored).2
  have flat : (view.unregister (c.param APIPathParam.revision)
      (c.param APIPathParam.instance)).flat =
      Function.update view.flat (c.param APIPathParam.instance) none := by
    rw [View.flat_unregister wellFormed.keyed, addressed]
    rfl
  constructor
  · exact tracks.coherent.unregister wellFormed _ _
  · intro level name other
    rw [View.known_unregister]
    exact tracks.single level name other
  · intro id config found
    rw [flat, Function.update_apply] at found
    split at found
    · cases found
    · rw [View.known_unregister]
      exact tracks.placed id config found
  · intro path config
    rw [flat, Function.update_apply, Function.update_apply]
    by_cases same : path = c.path
    · rw [if_pos same, same]
      simp [Context.path]
    · rw [if_neg same, tracks.paths]
      by_cases own : path.inst = c.param APIPathParam.instance
      · rw [if_pos own, own]
        constructor
        · rintro ⟨found, rfl⟩
          rcases (tracks.paths _ _).mp stored with ⟨flat, equal⟩
          rw [Option.some.inj (found.symm.trans flat)] at same
          exact absurd equal same
        · rintro ⟨found, _⟩
          cases found
      · rw [if_neg own]

/-- Calls do to the registry what they do to the map. -/
theorem Tracks.perform (tracks : Tracks paths view) (represents : Represents mem view)
    (wellFormed : view.WellFormed) {job : RegistryJob} (admitted : CompatibleCalls mem job) :
    Tracks (paths.perform ⟨job, view.clock⟩) (view.perform job) := by
  cases job with
  | addInstance c =>
      simp only [PathMap.perform, View.perform]
      split
      · exact tracks
      · rename_i clientID
        exact tracks.register represents wellFormed (admitted clientID) _ _
  | removeInstance c =>
      simp only [PathMap.perform, View.perform]
      cases stored : paths c.path with
      | none =>
          have missing : view.addressed c = none := by
            apply Option.eq_none_iff_forall_ne_some.mpr
            intro config addressed
            rw [(tracks.addressed wellFormed config).mp addressed] at stored
            cases stored
          rw [missing]
          exact tracks
      | some config =>
          rw [(tracks.addressed wellFormed config).mpr stored]
          dsimp only
          split
          · exact tracks.unregister wellFormed stored
          · exact tracks
  | idleInstancesReaper timeout order => exact admitted.elim

end Invariant

theorem PathMap.ofCalls_append (calls : List Call) (call : Call) :
    PathMap.ofCalls (calls ++ [call]) = (PathMap.ofCalls calls).perform call :=
  List.foldl_append

/-- The registry tracks the map of its calls as long as all registrations are
compatible. -/
theorem History.tracks {calls : List Call} {mem : Memory}
    (history : History CompatibleCalls calls mem) :
    ∃ view, Represents mem view ∧ view.WellFormed ∧
      Tracks (PathMap.ofCalls calls) view := by
  apply history.represented fun calls view => Tracks (PathMap.ofCalls calls) view
  · exact tracks_initial
  · intro calls view duration tracks
    exact tracks.elapse duration
  · intro calls mem view job represents wellFormed tracks admitted
    rw [PathMap.ofCalls_append]
    exact tracks.perform represents wellFormed admitted

/-- A request that addresses a path. -/
def Path.visit (path : Path) : Context :=
  instanceContext .get path.project path.region path.service path.revision path.inst ""

/-- The path with another name at a level. -/
def Path.rename (path : Path) (name : String) : Level → Path
  | .project => { path with project := name }
  | .region => { path with region := name }
  | .service => { path with service := name }

/-- The name of a path at a level. -/
def Path.name (path : Path) : Level → String
  | .project => path.project
  | .region => path.region
  | .service => path.service

theorem Path.visit_untouched (path : Path) : path.visit.Untouched := rfl

/-- A level is renamed, and the other levels keep their names. -/
theorem Path.name_rename (path : Path) (name : String) (level other : Level) :
    (path.rename name level).name other = if other = level then name else path.name other := by
  cases level <;> cases other <;> rfl

theorem name_path (c : Context) (level : Level) : c.path.name level = level.param c := by
  cases level <;> rfl

theorem Path.knows_visit {view : View} {path : Path} : view.Knows path.visit ↔
    ∀ level : Level, view.known level (path.name level) = true := by
  rw [View.knows_iff]
  apply forall_congr'
  intro level
  cases level <;> rfl

section Necessity

variable {mem : Memory} {view : View} {paths : PathMap}

/-- What a client learns from the listings. -/
theorem Observes.lists (observes : Observes mem paths) (represents : Represents mem view)
    (path : Path) (config : ServerlessInstance) :
    (path.visit.Named ∧ view.Knows path.visit ∧
        ∃ id, view.bucketEntry path.revision id = some config) ↔
      ∃ inst, paths { path with inst } = some config := by
  rcases getRevisionIngress_lists represents path.visit_untouched with
    ⟨c', evaluates, lists⟩
  rcases observes.listing path.visit path.visit_untouched with ⟨c'', evaluates', lists'⟩
  have same : c' = c'' := by
    rw [evaluates] at evaluates'
    exact Option.some.inj (congrArg Prod.fst evaluates')
  subst same
  exact (lists config).symm.trans (lists' config)

/-- What a client learns from the lookups. -/
theorem Observes.finds (observes : Observes mem paths) (represents : Represents mem view)
    (path : Path) (config : ServerlessInstance) :
    (path.inst ≠ "" ∧ (view.addressed path.visit).isSome ∧
        view.flat path.inst = some config) ↔
      paths path = some config := by
  rcases getInstance_returns represents path.visit_untouched with ⟨c', evaluates, returns⟩
  rcases observes.lookup path.visit path.visit_untouched with ⟨c'', evaluates', returns'⟩
  have same : c' = c'' := by
    rw [evaluates] at evaluates'
    exact Option.some.inj (congrArg Prod.fst evaluates')
  subst same
  exact (returns config).symm.trans (returns' config)

variable {c : Context} {clientID : String} {ts : Time}

/-- After a registration that is not compatible, a client can tell the registry from the
map. -/
theorem Tracks.compatible (tracks : Tracks paths view) (represents : Represents mem view)
    (wellFormed : view.WellFormed) {after : Memory}
    (represents' : Represents after (view.register (registration c clientID ts)))
    (observes : Observes after
      (Function.update paths c.path (some (registration c clientID ts)))) :
    Compatible mem c := by
  have own : ∀ path,
      Function.update paths c.path (some (registration c clientID ts)) path =
        some (registration c clientID ts) → path = c.path := by
    intro path stored
    rw [Function.update_apply] at stored
    split at stored
    · assumption
    · exact ((tracks.paths _ _).mp stored).2.symm
  have stored : Function.update paths c.path (some (registration c clientID ts)) c.path =
      some (registration c clientID ts) := Function.update_self ..
  have named : c.Named :=
    ((observes.lists represents' c.path _).mpr
      ⟨c.param APIPathParam.instance, stored⟩).1
  have inst := ((observes.finds represents' c.path _).mpr stored).1
  -- a path that leads to the instance is the one it was registered under
  have reached : ∀ path : Path, path.inst = c.param APIPathParam.instance →
      (∀ level : Level, view.known level (path.name level) = true ∨
        path.name level = level.param c) →
      (path.revision = c.param APIPathParam.revision ∨
        (view.bucketEntry path.revision path.inst).isSome) → path = c.path := by
    intro path same levels held
    apply own
    apply (observes.finds represents' path _).mp
    refine ⟨by rwa [same], ?_, ?_⟩
    · have knows : (view.register (registration c clientID ts)).Knows path.visit := by
        apply Path.knows_visit.mpr
        intro level
        rw [View.known_register, key_registration]
        exact levels level
      have entry : ((view.register (registration c clientID ts)).bucketEntry path.revision
          path.inst).isSome := by
        rw [View.bucketEntry_register wellFormed]
        split
        · rfl
        · rename_i different
          exact held.resolve_left fun revision => different ⟨revision, same⟩
      rcases Option.isSome_iff_exists.mp entry with ⟨config, entry⟩
      apply Option.isSome_iff_exists.mpr
      exact ⟨config, View.addressed_eq_some.mpr ⟨knows, Option.bind_eq_some_iff.mp entry⟩⟩
    · rw [View.flat_register, same]
      exact Function.update_self ..
  apply Compatible.of_view represents named inst
  · intro level name known
    have same : c.path.rename name level = c.path := by
      apply reached
      · cases level <;> rfl
      · intro other
        rw [Path.name_rename]
        split
        · rename_i hit
          exact .inl (hit ▸ known)
        · exact .inr (name_path c other)
      · left
        cases level <;> rfl
    have renamed := Path.name_rename c.path name level level
    rw [same, name_path, if_pos rfl] at renamed
    exact renamed.symm
  · intro revision other
    cases found : view.bucketEntry revision (c.param APIPathParam.instance) with
    | none => rfl
    | some config =>
        have same : { c.path with revision } = c.path := by
          apply reached
          · rfl
          · intro level
            right
            rw [← name_path]
            cases level <;> rfl
          · exact .inr (Option.isSome_iff_exists.mpr ⟨config, found⟩)
        exact absurd (congrArg Path.revision same) other

end Necessity

/-- The registry is a map keyed by paths as long as all registrations are compatible:
so it is in every history of such registrations and of deregistrations, and one more
registration keeps it so if and only if it is compatible too. -/
theorem registry_tracks_paths {calls : List Call} {mem : Memory}
    (history : History CompatibleCalls calls mem) :
    Observes mem (PathMap.ofCalls calls) ∧
      ∀ c after outcome, c.getHeader xServerlessSSHClientID ≠ "" →
        registryMachine.Completes mem (.addInstance c) after outcome →
        (Observes after (PathMap.ofCalls (calls ++ [⟨.addInstance c, mem.clock⟩])) ↔
          Compatible mem c) := by
  rcases history.tracks with ⟨view, represents, wellFormed, tracks⟩
  refine ⟨tracks.observes represents wellFormed, ?_⟩
  intro c after outcome clientID completes
  constructor
  · intro observes
    have represents' := completes_represents represents wellFormed.keyed completes
    simp only [View.perform, if_neg clientID] at represents'
    simp only [PathMap.ofCalls_append, PathMap.perform, if_neg clientID,
      represents.clock] at observes
    exact tracks.compatible represents wellFormed represents' observes
  · intro compatible
    have extended := history.call (show CompatibleCalls mem (.addInstance c) from
      fun _ => compatible) completes
    rcases extended.tracks with ⟨view', represents', wellFormed', tracks'⟩
    exact tracks'.observes represents' wellFormed'

/-- One registration and its renewal: the registry is a map before and after it. -/
theorem registry_tracks_paths_renewed :
    let job := RegistryJob.addInstance (instanceContext .post "p" "r" "s" "v" "i" "t")
    ∃ mem after outcome,
      registryMachine.Completes mem job after outcome ∧
      Observes mem (PathMap.ofCalls [⟨job, 0⟩]) ∧
      Observes after (PathMap.ofCalls [⟨job, 0⟩, ⟨job, 0⟩]) := by
  intro job
  have start : History CompatibleCalls [] (Memory.initial 0) := .start 0
  have named : (instanceContext .post "p" "r" "s" "v" "i" "t").Named := by
    rw [Context.Named]
    decide
  have compatible : CompatibleCalls (Memory.initial 0) job := by
    intro _
    refine ⟨named, by decide, ?_, ?_, ?_, ?_⟩
    · intro _ _ found
      cases found
    · intro _ _ found
      cases found
    · intro _ _ found
      cases found
    · intro _ _ _ found
      cases found
  rcases start.extend (represents_initial 0) (View.wellFormed_initial 0) job compatible
    with ⟨mem, history, represents, _⟩
  rcases Program.completes execute RegistryJob.program Memory.elapse mem job with
    ⟨after, outcome, completes⟩
  have tracked := registry_tracks_paths history
  have again : Compatible mem (instanceContext .post "p" "r" "s" "v" "i" "t") := by
    apply Compatible.of_view represents named (by decide)
    · intro level name known
      rcases View.known_register.mp known with old | new
      · cases old
      · rw [new]
        cases level <;> rfl
    · intro revision other
      refine (View.bucketEntry_register (View.wellFormed_initial 0) _ _).trans ?_
      exact if_neg fun hit => other hit.1
  refine ⟨mem, after, outcome, completes, tracked.1, ?_⟩
  have observes := (tracked.2 _ after outcome (by decide) completes).mpr again
  rwa [show mem.clock = 0 from represents.clock] at observes

/-- A lookup under one project returns an instance that was registered under another
project only. -/
theorem registry_mixes_projects :
    let first := RegistryJob.addInstance (instanceContext .post "A" "r" "s" "v" "i" "t")
    let second := RegistryJob.addInstance (instanceContext .post "B" "r" "s" "v" "j" "t")
    ∃ mem, History (fun _ _ => True) [⟨first, 0⟩, ⟨second, 0⟩] mem ∧
      ¬Observes mem (PathMap.ofCalls [⟨first, 0⟩, ⟨second, 0⟩]) := by
  intro first second
  have start : History (fun _ _ => True) [] (Memory.initial 0) := .start 0
  rcases start.extend (represents_initial 0) (View.wellFormed_initial 0) first trivial
    with ⟨mem, history, represents, wellFormed⟩
  rcases history.extend represents wellFormed second trivial
    with ⟨mem', history, represents', _⟩
  rw [show mem.clock = 0 from represents.clock] at history
  refine ⟨mem', history, ?_⟩
  intro observes
  have knows : ((View.perform (View.initial 0) first).perform second).Knows
      (Path.visit ⟨"A", "r", "s", "v", "j"⟩) := ⟨rfl, rfl, rfl⟩
  have shown := (observes.finds represents' ⟨"A", "r", "s", "v", "j"⟩
    ⟨"B", "r", "s", "v", "j", "t", 0⟩).mp
  have addressed : ((View.perform (View.initial 0) first).perform second).addressed
      (Path.visit ⟨"A", "r", "s", "v", "j"⟩) = some ⟨"B", "r", "s", "v", "j", "t", 0⟩ :=
    View.addressed_eq_some.mpr ⟨knows, 0, rfl, rfl⟩
  cases shown ⟨by decide, Option.isSome_iff_exists.mpr ⟨_, addressed⟩, rfl⟩

end CloudRunSsh.Proxy
