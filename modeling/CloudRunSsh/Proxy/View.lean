import CloudRunSsh.Proxy.Registry

/-!
# The registry without pointers

All constructors of `addInstance` return package-level maps, so the upper three levels
of the nested map are three sets of names, whichever pointers lead to them.  The view
keeps just these sets, the bucket that each revision points to, the buckets, and the
flat map.  It also remembers for which instance a bucket was created, which the server
does not record.
-/

namespace CloudRunSsh.Proxy

open CloudRunSsh.Concurrency

/-- The levels of the nested map above the revisions. -/
inductive Level where
  | project
  | region
  | service
  deriving DecidableEq, Repr

namespace Level

/-- The kind of map that a level is looked up in. -/
@[reducible] def kind : Level → MapType
  | .project => .projects
  | .region => .regions
  | .service => .services

/-- The package-level map of a level. -/
def map (level : Level) : Ref level.kind := ⟨0⟩

/-- The package-level map below, which is what a level stores. -/
def child : (level : Level) → level.kind.Value
  | .project => regionToServicesMap
  | .region => serviceToRevisionsMap
  | .service => revisionToInstancesMap

/-- The name of a registration at a level. -/
def key : Level → ServerlessInstance → String
  | .project, config => config.project
  | .region, config => config.region
  | .service, config => config.service

/-- The level below, if it is not that of the revisions. -/
def below : Level → Option Level
  | .project => some .region
  | .region => some .service
  | .service => none

theorem kind_injective : Function.Injective kind := by
  intro level other equal
  cases level <;> cases other <;> first | rfl | cases equal

end Level

/-- The registry that a memory stands for. -/
structure View where
  clock : Time
  flat : String → Option ServerlessInstance
  known : Level → String → Bool
  revisions : String → Option Nat
  buckets : Nat → String → Option ServerlessInstance
  fresh : Nat
  maker : Nat → String

/-- The pointer to the bucket with a number.  The flat map is the map of this kind with
address zero. -/
def bucketRef (bucket : Nat) : InstanceToConfigMap := ⟨bucket + 1⟩

@[simp] theorem bucketRef_inj {bucket other : Nat} :
    bucketRef bucket = bucketRef other ↔ bucket = other := by
  simp [bucketRef]

theorem bucketRef_ne (bucket : Nat) : bucketRef bucket ≠ instanceToConfigMap := by
  simp [bucketRef, instanceToConfigMap]

/-- A view agrees with a memory. -/
structure Represents (mem : Memory) (view : View) : Prop where
  clock : mem.clock = view.clock
  fresh : mem.fresh = view.fresh + 1
  flat : ∀ key, mem.lookup instanceToConfigMap key = view.flat key
  known : ∀ (level : Level) key,
    mem.lookup level.map key = if view.known level key then some level.child else none
  revisions : ∀ key,
    mem.lookup revisionToInstancesMap key = (view.revisions key).map bucketRef
  buckets : ∀ bucket key, mem.lookup (bucketRef bucket) key = view.buckets bucket key

namespace View

/-- The view of the memory that `main` starts with. -/
def initial (clock : Time) : View where
  clock
  flat _ := none
  known _ _ := false
  revisions _ := none
  buckets _ _ := none
  fresh := 0
  maker _ := ""

/-- The entry of an instance in the bucket that its revision points to. -/
def bucketEntry (view : View) (revision id : String) : Option ServerlessInstance :=
  (view.revisions revision).bind fun bucket => view.buckets bucket id

end View

theorem represents_initial (clock : Time) :
    Represents (Memory.initial clock) (View.initial clock) := by
  constructor <;> intros <;> rfl

/-- The bucket that the lookups along a path reach. -/
def Memory.bucketAt (mem : Memory) (project region service revision : String) :
    Option InstanceToConfigMap := do
  let regions ← mem.lookup projectToRegionsMap project
  let services ← mem.lookup regions region
  let revisions ← mem.lookup services service
  mem.lookup revisions revision

section Lookups

variable {mem : Memory} {view : View}

theorem Represents.lookup_known (represents : Represents mem view) (level : Level)
    {key : String} (known : view.known level key = true) :
    mem.lookup level.map key = some level.child := by
  rw [represents.known, if_pos known]

theorem Represents.lookup_unknown (represents : Represents mem view) (level : Level)
    {key : String} (unknown : ¬view.known level key = true) :
    mem.lookup level.map key = none := by
  rw [represents.known, if_neg unknown]

/-- A level leads to the level below exactly for the names it knows. -/
theorem Represents.lookup_eq_some (represents : Represents mem view) (level : Level)
    {key : String} {child : level.kind.Value} :
    mem.lookup level.map key = some child ↔
      view.known level key = true ∧ level.child = child := by
  rw [represents.known]
  split
  · rename_i known
    simp only [known, true_and, Option.some.injEq]
  · rename_i unknown
    simp only [reduceCtorEq, unknown, false_and]

theorem Represents.lookup_revisions (represents : Represents mem view)
    {revision : String} {instances : InstanceToConfigMap} :
    mem.lookup revisionToInstancesMap revision = some instances ↔
      ∃ bucket, view.revisions revision = some bucket ∧ bucketRef bucket = instances := by
  rw [represents.revisions]
  exact Option.map_eq_some_iff

/-- A bucket is reached along a path exactly when the names above it are known. -/
theorem Represents.bucketAt_eq_some (represents : Represents mem view)
    {project region service revision : String} {instances : InstanceToConfigMap} :
    mem.bucketAt project region service revision = some instances ↔
      (view.known .project project = true ∧ view.known .region region = true ∧
        view.known .service service = true) ∧
      ∃ bucket, view.revisions revision = some bucket ∧ bucketRef bucket = instances := by
  constructor
  · intro reached
    obtain ⟨regions, atProject, reached⟩ := Option.bind_eq_some_iff.mp reached
    obtain ⟨services, atRegion, reached⟩ := Option.bind_eq_some_iff.mp reached
    obtain ⟨revisions, atService, reached⟩ := Option.bind_eq_some_iff.mp reached
    obtain ⟨project, rfl⟩ := (represents.lookup_eq_some .project).mp atProject
    obtain ⟨region, rfl⟩ := (represents.lookup_eq_some .region).mp atRegion
    obtain ⟨service, rfl⟩ := (represents.lookup_eq_some .service).mp atService
    exact ⟨⟨project, region, service⟩, represents.lookup_revisions.mp reached⟩
  · intro reached
    obtain ⟨⟨project, region, service⟩, published⟩ := reached
    have atProject := (represents.lookup_eq_some .project).mpr ⟨project, rfl⟩
    have atRegion := (represents.lookup_eq_some .region).mpr ⟨region, rfl⟩
    have atService := (represents.lookup_eq_some .service).mpr ⟨service, rfl⟩
    apply Option.bind_eq_some_iff.mpr
    refine ⟨_, atProject, Option.bind_eq_some_iff.mpr ⟨_, atRegion, ?_⟩⟩
    exact Option.bind_eq_some_iff.mpr
      ⟨_, atService, represents.lookup_revisions.mpr published⟩

end Lookups

/-- What one operation does to the registry. -/
inductive Effect where
  | still
  | learn (level : Level) (key : String)
  | allocate (maker : String)
  | place (bucket : Nat) (key : String) (config : ServerlessInstance)
  | publish (revision : String) (bucket : Nat)
  | withdraw (bucket : Nat) (key : String)
  | announce (key : String) (config : ServerlessInstance)
  | retract (key : String)

namespace Effect

/-- The operation with that effect. -/
def operation : Effect → RegistryOp
  | .still => .now
  | .learn level key => .set level.map key level.child
  | .allocate _ => .new .instances
  | .place bucket key config =>
      @RegistryOp.set .instances (bucketRef bucket) key config
  | .publish revision bucket =>
      @RegistryOp.set .revisions revisionToInstancesMap revision (bucketRef bucket)
  | .withdraw bucket key => .getAndDel (bucketRef bucket) key
  | .announce key config => @RegistryOp.set .instances instanceToConfigMap key config
  | .retract key => .del instanceToConfigMap key

/-- The effect on the view. -/
def apply : Effect → View → View
  | .still, view => view
  | .learn level key, view =>
      { view with
        known := fun other query =>
          view.known other query || (decide (other = level) && decide (query = key)) }
  | .allocate maker, view =>
      { view with
        buckets := Function.update view.buckets view.fresh fun _ => none
        maker := Function.update view.maker view.fresh maker
        fresh := view.fresh + 1 }
  | .place bucket key config, view =>
      { view with
        buckets := Function.update view.buckets bucket
          (Function.update (view.buckets bucket) key (some config)) }
  | .publish revision bucket, view =>
      { view with
        revisions := Function.update view.revisions revision (some bucket) }
  | .withdraw bucket key, view =>
      { view with
        buckets := Function.update view.buckets bucket
          (Function.update (view.buckets bucket) key none) }
  | .announce key config, view =>
      { view with flat := Function.update view.flat key (some config) }
  | .retract key, view => { view with flat := Function.update view.flat key none }

end Effect

namespace View

/-- The clock moves forward. -/
def elapse (duration : Nat) (view : View) : View :=
  { view with clock := view.clock + duration }

end View

namespace Represents

variable {mem : Memory} {view : View}

theorem elapse (represents : Represents mem view) (duration : Nat) :
    Represents (mem.elapse duration) (view.elapse duration) :=
  { represents with
    clock := congrArg (· + (duration : Int)) represents.clock }

/-- A write to a map of another kind than instances leaves flat map and buckets as they
are. -/
theorem lookup_instances (represents : Represents mem view) {kind : MapType}
    (different : kind ≠ .instances) (ref : Ref kind) (dict : Dict String kind.Value) :
    (∀ key, (mem.write ref dict).lookup instanceToConfigMap key = view.flat key) ∧
      ∀ bucket key,
        (mem.write ref dict).lookup (bucketRef bucket) key = view.buckets bucket key := by
  constructor
  · intro key
    rw [Memory.lookup_write_of_kind_ne mem different.symm]
    exact represents.flat key
  · intro bucket key
    rw [Memory.lookup_write_of_kind_ne mem different.symm]
    exact represents.buckets bucket key

/-- A write to a map of instances leaves the upper levels as they are. -/
theorem lookup_upper (represents : Represents mem view) (ref : InstanceToConfigMap)
    (dict : Dict String ServerlessInstance) :
    (∀ (level : Level) key, (mem.write ref dict).lookup level.map key =
        if view.known level key then some level.child else none) ∧
      ∀ key, (mem.write ref dict).lookup revisionToInstancesMap key =
        (view.revisions key).map bucketRef := by
  constructor
  · intro level key
    have different : level.kind ≠ .instances := by cases level <;> decide
    rw [Memory.lookup_write_of_kind_ne mem different]
    exact represents.known level key
  · intro key
    rw [Memory.lookup_write_of_kind_ne mem (by decide)]
    exact represents.revisions key

/-- A write to a map of instances, described by what can be looked up afterwards. -/
theorem write_instances (represents : Represents mem view) {ref : InstanceToConfigMap}
    {dict : Dict String ServerlessInstance} {after : View}
    (upper : after.known = view.known ∧ after.revisions = view.revisions)
    (rest : after.clock = view.clock ∧ after.fresh = view.fresh)
    (flat : ∀ key, (mem.write ref dict).lookup instanceToConfigMap key = after.flat key)
    (buckets : ∀ bucket key,
      (mem.write ref dict).lookup (bucketRef bucket) key = after.buckets bucket key) :
    Represents (mem.write ref dict) after := by
  have kept := represents.lookup_upper ref dict
  constructor
  · rw [rest.1]
    exact represents.clock
  · rw [rest.2]
    exact represents.fresh
  · exact flat
  · rw [upper.1]
    exact kept.1
  · rw [upper.2]
    exact kept.2
  · exact buckets

/-- Every operation acts on the view as its effect says. -/
theorem apply (represents : Represents mem view) (effect : Effect) :
    Represents (execute effect.operation mem).2 (effect.apply view) := by
  cases effect with
  | still => exact represents
  | learn level key =>
      have different : level.kind ≠ .instances := by cases level <;> decide
      have kept := represents.lookup_instances different level.map
        ((mem.read level.map).insert key level.child)
      refine ⟨represents.clock, represents.fresh, kept.1, ?_, ?_, kept.2⟩
      · intro other query
        by_cases same : other = level
        · subst same
          refine (Memory.lookup_insert mem _ _ _ _ _).trans ?_
          rw [represents.known]
          by_cases hit : query = key <;> simp [Effect.apply, hit]
        · have kinds : other.kind ≠ level.kind := fun equal =>
            same (Level.kind_injective equal)
          refine (Memory.lookup_write_of_kind_ne mem kinds _ _).trans ?_
          rw [represents.known]
          simp [Effect.apply, same]
      · intro query
        have kinds : MapType.revisions ≠ level.kind := by cases level <;> decide
        exact (Memory.lookup_write_of_kind_ne mem kinds _ _).trans
          (represents.revisions query)
  | allocate maker =>
      have created : (⟨mem.fresh⟩ : InstanceToConfigMap) = bucketRef view.fresh := by
        rw [represents.fresh, bucketRef]
      have written : Represents (mem.write (bucketRef view.fresh) ∅)
          { view with
            buckets := Function.update view.buckets view.fresh fun _ => none
            maker := Function.update view.maker view.fresh maker } := by
        refine represents.write_instances ⟨?_, ?_⟩ ⟨?_, ?_⟩ ?_ ?_ <;> try rfl
        · intro key
          rw [Memory.lookup_clear, if_neg (bucketRef_ne _).symm]
          exact represents.flat key
        · intro bucket key
          rw [Memory.lookup_clear, represents.buckets]
          by_cases same : bucket = view.fresh
          · subst same
            simp
          · simp [same]
      simp only [Effect.operation, execute, created]
      exact { written with fresh := congrArg (· + 1) written.fresh }
  | place bucket key config =>
      refine represents.write_instances ⟨?_, ?_⟩ ⟨?_, ?_⟩ ?_ ?_ <;> try rfl
      · intro query
        rw [Memory.lookup_insert, if_neg fun hit => bucketRef_ne _ hit.1.symm]
        exact represents.flat query
      · intro other query
        rw [Memory.lookup_insert, represents.buckets]
        by_cases same : other = bucket
        · subst same
          by_cases hit : query = key <;> simp [Effect.apply, hit]
        · simp [Effect.apply, same]
  | publish revision bucket =>
      have kept := represents.lookup_instances (by decide) revisionToInstancesMap
        ((mem.read revisionToInstancesMap).insert revision (bucketRef bucket))
      refine ⟨represents.clock, represents.fresh, kept.1, ?_, ?_, kept.2⟩
      · intro level query
        have kinds : level.kind ≠ .revisions := by cases level <;> decide
        exact (Memory.lookup_write_of_kind_ne mem kinds _ _).trans
          (represents.known level query)
      · intro query
        refine (Memory.lookup_insert mem _ _ _ _ _).trans ?_
        rw [represents.revisions]
        by_cases hit : query = revision <;> simp [Effect.apply, hit]
  | withdraw bucket key =>
      refine represents.write_instances ⟨?_, ?_⟩ ⟨?_, ?_⟩ ?_ ?_ <;> try rfl
      · intro query
        rw [Memory.lookup_erase, if_neg fun hit => bucketRef_ne _ hit.1.symm]
        exact represents.flat query
      · intro other query
        rw [Memory.lookup_erase, represents.buckets]
        by_cases same : other = bucket
        · subst same
          by_cases hit : query = key <;> simp [Effect.apply, hit]
        · simp [Effect.apply, same]
  | announce key config =>
      refine represents.write_instances ⟨?_, ?_⟩ ⟨?_, ?_⟩ ?_ ?_ <;> try rfl
      · intro query
        rw [Memory.lookup_insert, represents.flat]
        by_cases hit : query = key <;> simp [Effect.apply, hit]
      · intro other query
        rw [Memory.lookup_insert, if_neg fun hit => bucketRef_ne _ hit.1]
        exact represents.buckets other query
  | retract key =>
      refine represents.write_instances ⟨?_, ?_⟩ ⟨?_, ?_⟩ ?_ ?_ <;> try rfl
      · intro query
        rw [Memory.lookup_erase, represents.flat]
        by_cases hit : query = key <;> simp [Effect.apply, hit]
      · intro other query
        rw [Memory.lookup_erase, if_neg fun hit => bucketRef_ne _ hit.1]
        exact represents.buckets other query

end Represents

end CloudRunSsh.Proxy
