import CloudRunSsh.Proxy.Expiry
import CloudRunSsh.Proxy.Postcondition

/-!
# One pass of the reaper

`ForEach` hands every entry of the flat map to a callback that deletes from the flat map
and from the bucket that the entry's revision points to.  While both maps agree, a pass
takes away exactly the registrations that have been idle for the timeout, counts them,
and changes nothing else.
-/

namespace CloudRunSsh.Proxy

open CloudRunSsh.Concurrency

namespace Memory

/-- The flat map has an entry exactly where the bucket of its revision has it, under the
instance that it names. -/
def Agrees (mem : Memory) : Prop :=
  ∀ id config, mem.lookup instanceToConfigMap id = some config ↔
    mem.bucketEntry config.revision id = some config ∧ config.id = id

/-- The instance is registered and has been idle for the timeout. -/
def Expires (mem : Memory) (timeout : Time) (id : String) (config : ServerlessInstance) :
    Prop :=
  mem.lookup instanceToConfigMap id = some config ∧ mem.clock - config.lastPing ≥ timeout

/-- The map holds the entry of an expired instance: it is the flat map or the bucket of
the entry's revision. -/
def Loses (mem : Memory) (timeout : Time) (map : InstanceToConfigMap) (id : String) :
    Prop :=
  ∃ config, mem.Expires timeout id config ∧
    (map = instanceToConfigMap ∨
      mem.lookup revisionToInstancesMap config.revision = some map)

/-- The key leads to an expired instance. -/
def expiresAt (mem : Memory) (timeout : Time) (id : String) : Bool :=
  (mem.lookup instanceToConfigMap id).any fun config =>
    decide (mem.clock - config.lastPing ≥ timeout)

end Memory

/-- A pass took away the expired registrations, and counted them, and nothing else has
changed. -/
structure Reaps (timeout : Time) (mem after : Memory) (reapedInstances : Nat) : Prop where
  removed : ∀ id config, mem.Expires timeout id config →
    after.lookup instanceToConfigMap id = none ∧
      after.bucketEntry config.revision id = none
  kept : ∀ map id, ¬mem.Loses timeout map id → after.lookup map id = mem.lookup map id
  upper : ∀ {kind : MapType}, kind ≠ .instances → ∀ (ref : Ref kind) key,
    after.lookup ref key = mem.lookup ref key
  agrees : after.Agrees
  count : reapedInstances =
    ((mem.read instanceToConfigMap).items.filter fun entry =>
      decide (mem.clock - entry.2.lastPing ≥ timeout)).length

namespace Memory

variable {mem : Memory} {bucket : InstanceToConfigMap} {id : String}
variable {config : ServerlessInstance}

theorem bucketEntry_eq_some {revision : String} :
    mem.bucketEntry revision id = some config ↔
      ∃ instances, mem.lookup revisionToInstancesMap revision = some instances ∧
        mem.lookup instances id = some config :=
  Option.bind_eq_some_iff

/-- The memory without an instance in a bucket and in the flat map. -/
def forget (mem : Memory) (bucket : InstanceToConfigMap) (id : String) : Memory :=
  let taken := mem.write bucket ((mem.read bucket).erase id)
  taken.write instanceToConfigMap ((taken.read instanceToConfigMap).erase id)

theorem lookup_forget (ref : InstanceToConfigMap) (key : String) :
    (mem.forget bucket id).lookup ref key =
      if (ref = instanceToConfigMap ∨ ref = bucket) ∧ key = id then none
      else mem.lookup ref key := by
  rw [forget, lookup_erase, lookup_erase]
  by_cases same : key = id <;> by_cases flat : ref = instanceToConfigMap <;>
    by_cases here : ref = bucket <;> simp [same, flat, here]

theorem lookup_forget_of_kind_ne {kind : MapType} (different : kind ≠ .instances)
    (ref : Ref kind) (key : String) :
    (mem.forget bucket id).lookup ref key = mem.lookup ref key := by
  rw [forget, lookup_write_of_kind_ne _ different, lookup_write_of_kind_ne _ different]

/-- A registration is in a bucket. -/
theorem Agrees.exists_bucket (agrees : mem.Agrees)
    (found : mem.lookup instanceToConfigMap id = some config) :
    ∃ instances, mem.lookup revisionToInstancesMap config.revision = some instances ∧
      mem.lookup instances id = some config :=
  bucketEntry_eq_some.mp ((agrees id config).mp found).1

/-- In a history that registers no instance under a second revision, the maps agree. -/
theorem agrees_of_history {calls : List Call} (history : History ExclusiveCalls calls mem) :
    mem.Agrees := by
  obtain ⟨view, represents, wellFormed, coherent⟩ := history.coherent
  intro id config
  rw [represents.bucketEntry_eq, represents.flat, coherent]
  constructor
  · intro found
    exact ⟨⟨found, rfl⟩, wellFormed.flat id config found⟩
  · intro entry
    exact entry.1.1

/-- Without a registration the maps still agree. -/
theorem Agrees.forget (agrees : mem.Agrees)
    (found : mem.lookup instanceToConfigMap id = some config)
    (published : mem.lookup revisionToInstancesMap config.revision = some bucket) :
    (mem.forget bucket id).Agrees := by
  intro key other
  simp only [bucketEntry_eq_some, lookup_forget,
    lookup_forget_of_kind_ne (show MapType.revisions ≠ .instances by decide)]
  by_cases same : key = id
  · subst same
    simp only [true_or, and_true, if_true, reduceCtorEq, false_iff]
    rintro ⟨⟨instances, listed, entry⟩, own⟩
    -- an entry left under the key would have been the registration that went
    split at entry
    · cases entry
    · rename_i elsewhere
      have registered : mem.lookup instanceToConfigMap key = some other :=
        (agrees key other).mpr ⟨bucketEntry_eq_some.mpr ⟨instances, listed, entry⟩, own⟩
      rw [found] at registered
      cases registered
      rw [published] at listed
      cases listed
      exact elsewhere (.inr rfl)
  · simp only [same, and_false, if_false]
    rw [← bucketEntry_eq_some]
    exact agrees key other

end Memory

section Visit

variable {mem : Memory} {timeout : Time} {id : String} {config : ServerlessInstance}

/-- The callback on an expired registration. -/
theorem eval_reapIfIdle_expired (agrees : mem.Agrees)
    (expires : mem.Expires timeout id config) {bucket : InstanceToConfigMap}
    (published : mem.lookup revisionToInstancesMap config.revision = some bucket)
    (entry : mem.lookup bucket id = some config) (reaped : Nat) :
    (reapIfIdle timeout config reaped).eval execute mem =
      (some (reaped + 1), mem.forget bucket id) := by
  have own : config.id = id := ((agrees id config).mp expires.1).2
  rw [reapIfIdle_eq]
  refine (congrArg (Program.eval execute · mem) (if_pos expires.2)).trans ?_
  rw [evict, eval_fetch, published, Option.elim_some]
  simp only [reapFrom, Program.eval, execute, own, entry, forgetInstance, Memory.forget]

/-- The callback on any other registration. -/
theorem eval_reapIfIdle_recent (recent : ¬mem.clock - config.lastPing ≥ timeout)
    (reaped : Nat) :
    (reapIfIdle timeout config reaped).eval execute mem = (some reaped, mem) := by
  rw [reapIfIdle_eq]
  exact congrArg (Program.eval execute · mem) (if_neg recent)

/-- What visits of some keys have done. -/
structure Swept (timeout : Time) (keys : List String) (mem after : Memory) : Prop where
  clock : after.clock = mem.clock
  agrees : after.Agrees
  upper : ∀ {kind : MapType}, kind ≠ .instances → ∀ (ref : Ref kind) key,
    after.lookup ref key = mem.lookup ref key
  taken : ∀ map, ∀ key ∈ keys, mem.Loses timeout map key → after.lookup map key = none
  kept : ∀ map key, ¬(key ∈ keys ∧ mem.Loses timeout map key) →
    after.lookup map key = mem.lookup map key

theorem Memory.expiresAt_iff :
    mem.expiresAt timeout id = true ↔ ∃ config, mem.Expires timeout id config := by
  simp only [Memory.expiresAt, Option.any_eq_true, decide_eq_true_eq, Memory.Expires]

/-- An expired registration loses its entries in the flat map and in its bucket. -/
theorem Memory.Expires.loses_iff (expires : mem.Expires timeout id config)
    {bucket : InstanceToConfigMap}
    (published : mem.lookup revisionToInstancesMap config.revision = some bucket)
    (map : InstanceToConfigMap) :
    mem.Loses timeout map id ↔ map = instanceToConfigMap ∨ map = bucket := by
  constructor
  · rintro ⟨other, ⟨found, _⟩, holds⟩
    rw [expires.1] at found
    cases found
    rcases holds with flat | listed
    · exact .inl flat
    · rw [published] at listed
      cases listed
      exact .inr rfl
  · intro holds
    refine ⟨config, expires, ?_⟩
    rcases holds with flat | rfl
    · exact .inl flat
    · exact .inr published

/-- The visit of an expired registration. -/
theorem Memory.Expires.swept (expires : mem.Expires timeout id config)
    (agrees : mem.Agrees) {bucket : InstanceToConfigMap}
    (published : mem.lookup revisionToInstancesMap config.revision = some bucket) :
    Swept timeout [id] mem (mem.forget bucket id) := by
  constructor
  · rfl
  · exact agrees.forget expires.1 published
  · intro kind different ref key
    exact Memory.lookup_forget_of_kind_ne different ref key
  · intro map key visited loses
    rw [List.mem_singleton] at visited
    subst key
    rw [Memory.lookup_forget]
    exact if_pos ⟨(expires.loses_iff published map).mp loses, rfl⟩
  · intro map key keeps
    rw [Memory.lookup_forget]
    apply if_neg
    rintro ⟨holds, rfl⟩
    exact keeps ⟨List.mem_singleton_self key, (expires.loses_iff published map).mpr holds⟩

/-- The visit of a key that leads to no expired registration. -/
theorem swept_recent (agrees : mem.Agrees) (recent : mem.expiresAt timeout id = false) :
    Swept timeout [id] mem mem := by
  constructor
  · rfl
  · exact agrees
  · exact fun _ _ _ => rfl
  · intro map key visited loses
    rw [List.mem_singleton] at visited
    subst key
    obtain ⟨config, expires, _⟩ := loses
    rw [Memory.expiresAt_iff.mpr ⟨config, expires⟩] at recent
    cases recent
  · exact fun _ _ _ => rfl

variable (timeout) in
/-- One visit of `ForEach`, with what it leaves of the pass. -/
theorem eval_visit (agrees : mem.Agrees) (id : String) :
    ∃ after, Swept timeout [id] mem after ∧ ∀ keys reaped,
      (idleInstancesReaper timeout (id :: keys) reaped).eval execute mem =
        (idleInstancesReaper timeout keys
          (reaped + (mem.expiresAt timeout id).toNat)).eval execute after := by
  simp only [idleInstancesReaper_cons, eval_fetch, Memory.expiresAt]
  cases found : mem.lookup instanceToConfigMap id with
  | none =>
      refine ⟨mem, swept_recent agrees ?_, fun keys reaped => rfl⟩
      rw [Memory.expiresAt, found]
      rfl
  | some config =>
      by_cases expired : mem.clock - config.lastPing ≥ timeout
      · have expires : mem.Expires timeout id config := ⟨found, expired⟩
        obtain ⟨bucket, published, entry⟩ := agrees.exists_bucket found
        refine ⟨mem.forget bucket id, expires.swept agrees published, ?_⟩
        intro keys reaped
        simp only [Option.elim_some, Option.any_some, expired, decide_true, Bool.toNat_true]
        exact Program.eval_bind execute
          (eval_reapIfIdle_expired agrees expires published entry reaped)
      · refine ⟨mem, swept_recent agrees ?_, ?_⟩
        · rw [Memory.expiresAt, found]
          exact decide_eq_false expired
        · intro keys reaped
          simp only [Option.elim_some, Option.any_some, expired, decide_false,
            Bool.toNat_false, Nat.add_zero]
          exact Program.eval_bind execute (eval_reapIfIdle_recent expired reaped)

end Visit

section Pass

variable {mem middle after : Memory} {timeout : Time} {id key : String}
variable {keys : List String}

/-- The visit of one key leaves the flat entries of the others. -/
theorem Swept.lookup_flat (swept : Swept timeout [id] mem after) (different : key ≠ id)
    (map : InstanceToConfigMap) : after.lookup map key = mem.lookup map key :=
  swept.kept map key fun loses => different (List.mem_singleton.mp loses.1)

/-- The visit of one key does not change what the others are about to lose. -/
theorem Swept.loses_iff (swept : Swept timeout [id] mem after) (different : key ≠ id)
    (map : InstanceToConfigMap) :
    after.Loses timeout map key ↔ mem.Loses timeout map key := by
  simp only [Memory.Loses, Memory.Expires, swept.lookup_flat different, swept.clock,
    swept.upper (show MapType.revisions ≠ .instances by decide)]

theorem Swept.expiresAt (swept : Swept timeout [id] mem after) (different : key ≠ id) :
    after.expiresAt timeout key = mem.expiresAt timeout key := by
  simp only [Memory.expiresAt, swept.lookup_flat different, swept.clock]

/-- The visit of one key, followed by the visits of others. -/
theorem Swept.cons (first : Swept timeout [id] mem middle)
    (rest : Swept timeout keys middle after) (once : id ∉ keys) :
    Swept timeout (id :: keys) mem after := by
  constructor
  · exact rest.clock.trans first.clock
  · exact rest.agrees
  · intro kind different ref key
    rw [rest.upper different, first.upper different]
  · intro map key visited loses
    rcases List.mem_cons.mp visited with rfl | visited
    · have later := rest.kept map key fun loses => once loses.1
      rw [later]
      exact first.taken map key (List.mem_singleton_self key) loses
    · have different : key ≠ id := fun same => once (same ▸ visited)
      exact rest.taken map key visited ((first.loses_iff different map).mpr loses)
  · intro map key keeps
    by_cases same : key = id
    · subst same
      have spared : ¬mem.Loses timeout map key :=
        fun loses => keeps ⟨List.mem_cons_self, loses⟩
      rw [rest.kept map key fun loses => once loses.1]
      exact first.kept map key fun loses => spared loses.2
    · rw [rest.kept map key, first.lookup_flat same]
      rintro ⟨visited, loses⟩
      exact keeps ⟨List.mem_cons_of_mem id visited, (first.loses_iff same map).mp loses⟩

variable (timeout) in
/-- Visits of keys, each of them once, count the expired ones among them. -/
theorem eval_idleInstancesReaper (agrees : mem.Agrees) (once : keys.Nodup) (reaped : Nat) :
    ∃ after, Swept timeout keys mem after ∧
      (idleInstancesReaper timeout keys reaped).eval execute mem =
        (some (reaped + keys.countP (mem.expiresAt timeout)), after) := by
  induction keys generalizing mem reaped with
  | nil =>
      refine ⟨mem, ⟨rfl, agrees, fun _ _ _ => rfl, ?_, fun _ _ _ => rfl⟩, rfl⟩
      intro map key visited
      cases visited
  | cons id keys ih =>
      have first : id ∉ keys := (List.nodup_cons.mp once).1
      obtain ⟨middle, visit, evaluates⟩ := eval_visit timeout agrees id
      obtain ⟨after, swept, later⟩ := ih visit.agrees (List.nodup_cons.mp once).2
        (reaped + (mem.expiresAt timeout id).toNat)
      refine ⟨after, visit.cons swept first, ?_⟩
      have others : keys.countP (middle.expiresAt timeout) =
          keys.countP (mem.expiresAt timeout) := by
        apply List.countP_congr
        intro key member
        rw [visit.expiresAt fun same => first (same ▸ member)]
      have count : (id :: keys).countP (mem.expiresAt timeout) =
          (mem.expiresAt timeout id).toNat + keys.countP (mem.expiresAt timeout) := by
        rw [List.countP_cons, Nat.add_comm]
        cases mem.expiresAt timeout id <;> rfl
      rw [evaluates, later, others, count, Nat.add_assoc]

/-- The keys of the flat map, in any order, lead to the expired entries. -/
theorem countP_expiresAt (order : keys.Perm (mem.read instanceToConfigMap).keys) :
    keys.countP (mem.expiresAt timeout) =
      ((mem.read instanceToConfigMap).items.filter fun entry =>
        decide (mem.clock - entry.2.lastPing ≥ timeout)).length := by
  rw [order.countP_eq, ← Dict.items_keys, List.countP_map, ← List.countP_eq_length_filter]
  apply List.countP_congr
  intro entry member
  have found : mem.lookup instanceToConfigMap entry.1 = some entry.2 :=
    Dict.mem_items.mp member
  simp only [Function.comp_apply, Memory.expiresAt, found, Option.any_some]

/-- A pass of the reaper is exact: it takes the expired registrations out of both maps,
counts them, leaves every other entry, and keeps the agreement of the maps. -/
theorem reaper_exact (mem : Memory) (agrees : mem.Agrees) (timeout : Time)
    (order : List String) (visits : order.Perm (mem.read instanceToConfigMap).keys) :
    ∃ after reapedInstances,
      (idleInstancesReaper timeout order 0).eval execute mem =
        (some reapedInstances, after) ∧
      Reaps timeout mem after reapedInstances := by
  have once : order.Nodup := visits.nodup_iff.mpr (mem.read instanceToConfigMap).keys_nodup
  obtain ⟨after, swept, evaluates⟩ := eval_idleInstancesReaper timeout agrees once 0
  have visited : ∀ {id config}, mem.Expires timeout id config → id ∈ order := by
    intro id config expires
    apply visits.mem_iff.mpr
    exact AList.lookup_isSome.mp (Option.isSome_of_eq_some expires.1)
  refine ⟨after, _, evaluates, ?_, ?_, swept.upper, swept.agrees, ?_⟩
  · intro id config expires
    obtain ⟨bucket, published, _⟩ := agrees.exists_bucket expires.1
    have visit : id ∈ order := visited expires
    constructor
    · exact swept.taken instanceToConfigMap id visit ⟨config, expires, .inl rfl⟩
    · rw [Memory.bucketEntry, swept.upper (by decide), published]
      exact swept.taken bucket id visit ⟨config, expires, .inr published⟩
  · intro map id keeps
    exact swept.kept map id fun loses => keeps loses.2
  · rw [Nat.zero_add, countP_expiresAt visits]

end Pass

/-- Two registrations under one revision, the first of them ten minutes older. -/
def registeredPair : Memory :=
  let older : ServerlessInstance := ⟨"p", "r", "s", "v", "i", "t", 0⟩
  let newer : ServerlessInstance := ⟨"p", "r", "s", "v", "j", "t", 600000000000⟩
  let entries := ((∅ : Dict String ServerlessInstance).insert "j" newer).insert "i" older
  let published := (Memory.initial 900000000000).write revisionToInstancesMap
    ((∅ : Dict String InstanceToConfigMap).insert "v" ⟨1⟩)
  (published.write (⟨1⟩ : InstanceToConfigMap) entries).write instanceToConfigMap entries

theorem registeredPair_agrees : registeredPair.Agrees := by
  have published : ∀ revision, registeredPair.lookup revisionToInstancesMap revision =
      if revision = "v" then some ⟨1⟩ else none :=
    fun revision => Dict.lookup_insert _ _ _ _
  have bucket : ∀ id, registeredPair.lookup (⟨1⟩ : InstanceToConfigMap) id =
      registeredPair.lookup instanceToConfigMap id := fun _ => rfl
  have flat : ∀ id, registeredPair.lookup instanceToConfigMap id =
      if id = "i" then some ⟨"p", "r", "s", "v", "i", "t", 0⟩
      else if id = "j" then some ⟨"p", "r", "s", "v", "j", "t", 600000000000⟩ else none :=
    fun id => (Dict.lookup_insert _ _ _ _).trans
      (if_congr Iff.rfl rfl (Dict.lookup_insert _ _ _ _))
  intro id config
  rw [Memory.bucketEntry, published]
  constructor
  · intro found
    have listed := found
    rw [flat] at listed
    split at listed
    · cases listed
      exact ⟨(bucket id).trans found, Eq.symm ‹id = "i"›⟩
    · split at listed
      · cases listed
        exact ⟨(bucket id).trans found, Eq.symm ‹id = "j"›⟩
      · cases listed
  · rintro ⟨found, _⟩
    split at found
    · exact (bucket id).symm.trans found
    · cases found

/-- A pass over the pair once the first registration has been idle for the timeout. -/
theorem reaper_exact_pair :
    ∃ after,
      (idleInstancesReaper maxIdleTimeout ["j", "i"] 0).eval execute registeredPair =
        (some 1, after) ∧
      Reaps maxIdleTimeout registeredPair after 1 := by
  obtain ⟨after, reapedInstances, evaluates, reaps⟩ := reaper_exact registeredPair
    registeredPair_agrees maxIdleTimeout ["j", "i"] (List.Perm.swap _ _ _)
  have counted : reapedInstances = 1 := reaps.count
  subst counted
  exact ⟨after, evaluates, reaps⟩

end CloudRunSsh.Proxy
