import Mathlib.Logic.Function.Basic
import CloudRunSsh.Concurrency.Program
import CloudRunSsh.Data.Dict

/-!
# The instance registry

The package-level maps of `main.go` and the operations of `haxmap` on them.  A map
is a pointer into a heap, so that two owners of one pointer see each other's
updates.  `Get`, `Set`, `Del` and `GetAndDel` are atomic; `GetOrCompute` is a `Get`
followed, on a miss, by the constructor and a `Set`.
-/

namespace CloudRunSsh.Proxy

open CloudRunSsh.Concurrency

/-- `time.Time` and `time.Duration`, in nanoseconds. -/
abbrev Time := Int

/-- `ServerlessInstance`: one registration. -/
structure ServerlessInstance where
  project : String
  region : String
  service : String
  revision : String
  id : String
  tunnel : String
  lastPing : Time
  deriving DecidableEq, Repr

/-- The instantiations of `haxmap.Map` that the server uses, named by what their
values are indexed by. -/
inductive MapType where
  | instances
  | revisions
  | services
  | regions
  | projects
  deriving DecidableEq, Repr

/-- A pointer to a map. -/
structure Ref (kind : MapType) where
  addr : Nat
  deriving DecidableEq, Repr

abbrev InstanceToConfigMap := Ref .instances
abbrev RevisionToInstancesMap := Ref .revisions
abbrev ServiceToRevisionsMap := Ref .services
abbrev RegionToServicesMap := Ref .regions
abbrev ProjectToRegionsMap := Ref .projects

/-- The value type of each kind of map. -/
@[reducible] def MapType.Value : MapType → Type
  | .instances => ServerlessInstance
  | .revisions => InstanceToConfigMap
  | .services => RevisionToInstancesMap
  | .regions => ServiceToRevisionsMap
  | .projects => RegionToServicesMap

def instanceToConfigMap : InstanceToConfigMap := ⟨0⟩
def revisionToInstancesMap : RevisionToInstancesMap := ⟨0⟩
def serviceToRevisionsMap : ServiceToRevisionsMap := ⟨0⟩
def regionToServicesMap : RegionToServicesMap := ⟨0⟩
def projectToRegionsMap : ProjectToRegionsMap := ⟨0⟩

/-- The clock and the heap of maps.  Addresses from `fresh` on are unused. -/
structure Memory where
  clock : Time
  heap : (kind : MapType) → Nat → Dict String kind.Value
  fresh : Nat

namespace Memory

/-- The memory when `main` starts: the package-level maps are empty. -/
def initial (clock : Time) : Memory := ⟨clock, fun _ _ => ∅, 1⟩

/-- The map behind a pointer. -/
def read (mem : Memory) {kind : MapType} (ref : Ref kind) : Dict String kind.Value :=
  mem.heap kind ref.addr

/-- Replace the map behind a pointer. -/
def write (mem : Memory) {kind : MapType} (ref : Ref kind)
    (dict : Dict String kind.Value) : Memory :=
  { mem with
    heap := Function.update mem.heap kind
      (Function.update (mem.heap kind) ref.addr dict) }

/-- Look a key up behind a pointer. -/
def lookup (mem : Memory) {kind : MapType} (ref : Ref kind) (key : String) :
    Option kind.Value :=
  (mem.read ref).lookup key

/-- The clock moves forward. -/
def elapse (duration : Nat) (mem : Memory) : Memory :=
  { mem with clock := mem.clock + duration }

@[simp] theorem fresh_write (mem : Memory) {kind : MapType} (ref : Ref kind)
    (dict : Dict String kind.Value) : (mem.write ref dict).fresh = mem.fresh := rfl

@[simp] theorem read_write (mem : Memory) {kind : MapType} (ref : Ref kind)
    (dict : Dict String kind.Value) : (mem.write ref dict).read ref = dict := by
  simp [write, read]

theorem read_write_of_ne (mem : Memory) {kind : MapType} {ref other : Ref kind}
    (different : other ≠ ref) (dict : Dict String kind.Value) :
    (mem.write ref dict).read other = mem.read other := by
  have addresses : other.addr ≠ ref.addr := by
    intro equal
    apply different
    cases other
    cases ref
    exact congrArg _ equal
  simp [write, read, addresses]

theorem read_write_of_kind_ne (mem : Memory) {kind kind' : MapType} {ref : Ref kind}
    {other : Ref kind'} (different : kind' ≠ kind) (dict : Dict String kind.Value) :
    (mem.write ref dict).read other = mem.read other := by
  simp [write, read, different]

theorem lookup_write_of_kind_ne (mem : Memory) {kind kind' : MapType} {ref : Ref kind}
    {other : Ref kind'} (different : kind' ≠ kind) (dict : Dict String kind.Value)
    (key : String) : (mem.write ref dict).lookup other key = mem.lookup other key := by
  rw [lookup, read_write_of_kind_ne mem different, lookup]

/-- Writes to different maps can be swapped. -/
theorem write_comm (mem : Memory) {kind kind' : MapType} (ref : Ref kind)
    (other : Ref kind') (dict : Dict String kind.Value) (dict' : Dict String kind'.Value)
    (different : ∀ same : kind = kind', same ▸ ref ≠ other) :
    (mem.write ref dict).write other dict' = (mem.write other dict').write ref dict := by
  by_cases same : kind = kind'
  · subst same
    have addresses : ref.addr ≠ other.addr := by
      intro equal
      apply different rfl
      cases ref
      cases other
      exact congrArg _ equal
    simp only [write, Function.update_self, Function.update_idem, Memory.mk.injEq,
      true_and, and_true]
    rw [Function.update_comm addresses]
  · simp only [write, Memory.mk.injEq, true_and, and_true]
    rw [Function.update_of_ne (Ne.symm same), Function.update_of_ne same,
      Function.update_comm same]

/-- Lookups after an entry was stored. -/
theorem lookup_insert (mem : Memory) {kind : MapType} (map ref : Ref kind)
    (key query : String) (value : kind.Value) :
    (mem.write map ((mem.read map).insert key value)).lookup ref query =
      if ref = map ∧ query = key then some value else mem.lookup ref query := by
  by_cases same : ref = map
  · subst same
    rw [lookup, read_write, Dict.lookup_insert]
    simp only [true_and, lookup]
  · rw [lookup, read_write_of_ne mem same]
    simp only [same, false_and, if_false, lookup]

/-- Lookups after an entry was deleted. -/
theorem lookup_erase (mem : Memory) {kind : MapType} (map ref : Ref kind)
    (key query : String) :
    (mem.write map ((mem.read map).erase key)).lookup ref query =
      if ref = map ∧ query = key then none else mem.lookup ref query := by
  by_cases same : ref = map
  · subst same
    rw [lookup, read_write, Dict.lookup_erase]
    simp only [true_and, lookup]
  · rw [lookup, read_write_of_ne mem same]
    simp only [same, false_and, if_false, lookup]

/-- Lookups after a map was emptied. -/
theorem lookup_clear (mem : Memory) {kind : MapType} (map ref : Ref kind)
    (query : String) :
    (mem.write map ∅).lookup ref query =
      if ref = map then none else mem.lookup ref query := by
  by_cases same : ref = map
  · subst same
    rw [lookup, read_write, if_pos rfl]
    rfl
  · rw [lookup, read_write_of_ne mem same]
    simp only [same, if_false, lookup]

end Memory

/-- The atomic operations of the server's threads. -/
inductive RegistryOp where
  | now
  | new (kind : MapType)
  | get {kind : MapType} (map : Ref kind) (key : String)
  | set {kind : MapType} (map : Ref kind) (key : String) (value : kind.Value)
  | del {kind : MapType} (map : Ref kind) (key : String)
  | getAndDel {kind : MapType} (map : Ref kind) (key : String)
  | forEach (kind : MapType) (map : Ref kind)

/-- What each operation answers. -/
@[reducible] def RegistryOp.Res : RegistryOp → Type
  | .now => Time
  | .new kind => Ref kind
  | @RegistryOp.get kind _ _ => Option kind.Value
  | @RegistryOp.set _ _ _ _ => Unit
  | @RegistryOp.del _ _ _ => Unit
  | @RegistryOp.getAndDel kind _ _ => Option kind.Value
  | .forEach kind _ => List (String × kind.Value)

/-- The operations as an interface for programs. -/
abbrev registry : Interface := ⟨RegistryOp, RegistryOp.Res⟩

/-- Effect and answer of each operation.  `haxmap.New` hands out an unused
address. -/
def execute : Program.Execution registry Memory
  | .now, mem => (mem.clock, mem)
  | .new kind, mem =>
      (⟨mem.fresh⟩, { mem.write ⟨mem.fresh⟩ (∅ : Dict String kind.Value) with
        fresh := mem.fresh + 1 })
  | .get map key, mem => (mem.lookup map key, mem)
  | .set map key value, mem => ((), mem.write map ((mem.read map).insert key value))
  | .del map key, mem => ((), mem.write map ((mem.read map).erase key))
  | .getAndDel map key, mem =>
      (mem.lookup map key, mem.write map ((mem.read map).erase key))
  | .forEach _ map, mem => ((mem.read map).items, mem)

/-- What is found behind a pointer after an update of the map there or elsewhere. -/
theorem Memory.lookup_write_cases {mem : Memory} {kind kind' : MapType}
    {map : Ref kind} {ref : Ref kind'} {dict : Dict String kind.Value} {key : String}
    {value : kind'.Value} (found : (mem.write map dict).lookup ref key = some value) :
    mem.lookup ref key = some value ∨
      ∃ same : kind = kind', same ▸ map = ref ∧
        (same ▸ dict : Dict String kind'.Value).lookup key = some value := by
  by_cases same : kind' = kind
  · subst same
    by_cases aliased : ref = map
    · subst aliased
      rw [lookup, read_write] at found
      exact .inr ⟨rfl, rfl, found⟩
    · rw [lookup, read_write_of_ne mem aliased] at found
      exact .inl found
  · rw [lookup, read_write_of_kind_ne mem same] at found
    exact .inl found

/-- An operation brings no value into a map except by storing it. -/
theorem lookup_of_execute {operation : RegistryOp} {mem : Memory} {kind : MapType}
    {ref : Ref kind} {key : String} {value : kind.Value}
    (found : (execute operation mem).2.lookup ref key = some value) :
    mem.lookup ref key = some value ∨ operation = .set ref key value := by
  cases operation with
  | now | get | forEach => exact .inl found
  | new created =>
      rcases Memory.lookup_write_cases found with old | ⟨rfl, rfl, empty⟩
      · exact .inl old
      · cases empty
  | set map stored written =>
      rcases Memory.lookup_write_cases found with old | ⟨rfl, rfl, inserted⟩
      · exact .inl old
      · rw [Dict.lookup_insert] at inserted
        split at inserted
        · subst key
          cases inserted
          exact .inr rfl
        · exact .inl inserted
  | del map erased =>
      rcases Memory.lookup_write_cases found with old | ⟨rfl, rfl, left⟩
      · exact .inl old
      · rw [Dict.lookup_erase] at left
        split at left
        · cases left
        · exact .inl left
  | getAndDel map erased =>
      rcases Memory.lookup_write_cases found with old | ⟨rfl, rfl, left⟩
      · exact .inl old
      · rw [Dict.lookup_erase] at left
        split at left
        · cases left
        · exact .inl left

/-- Programs of the server. -/
abbrev RegistryM := Program registry

/-- One operation as a program. -/
@[reducible] def operate (operation : RegistryOp) : RegistryM operation.Res :=
  @Program.perform registry operation

/-- `time.Now`. -/
def now : RegistryM Time := operate .now

/-- `time.Since`. -/
def since (instant : Time) : RegistryM Time := do
  let current ← now
  return current - instant

/-- `haxmap.New`. -/
def haxmapNew (kind : MapType) : RegistryM (Ref kind) := operate (.new kind)

namespace Ref

variable {kind : MapType}

/-- `Map.Get`. -/
def get (map : Ref kind) (key : String) : RegistryM (Option kind.Value) :=
  operate (.get map key)

/-- `Map.Set`. -/
def set (map : Ref kind) (key : String) (value : kind.Value) : RegistryM Unit :=
  operate (.set map key value)

/-- `Map.Del`. -/
def del (map : Ref kind) (key : String) : RegistryM Unit := operate (.del map key)

/-- `Map.GetAndDel`. -/
def getAndDel (map : Ref kind) (key : String) : RegistryM (Option kind.Value) :=
  operate (.getAndDel map key)

/-- `go map.Set(key, value)`. -/
def goSet (map : Ref kind) (key : String) (value : kind.Value) : RegistryM Unit :=
  @Program.spawn registry (.set map key value)

/-- `go map.Del(key)`. -/
def goDel (map : Ref kind) (key : String) : RegistryM Unit :=
  @Program.spawn registry (.del map key)

/-- `Map.ForEach`, as the entries it visits. -/
def forEach (map : Ref kind) : RegistryM (List (String × kind.Value)) :=
  operate (.forEach kind map)

/-- `Map.GetOrCompute`: on a miss the constructor runs between the lookup and an
unconditional store, and the caller is told that nothing was loaded. -/
def getOrCompute (map : Ref kind) (key : String) (valueFn : RegistryM kind.Value) :
    RegistryM (kind.Value × Bool) := do
  match ← map.get key with
  | some value => return (value, true)
  | none =>
      let value ← valueFn
      map.set key value
      return (value, false)

end Ref

end CloudRunSsh.Proxy
