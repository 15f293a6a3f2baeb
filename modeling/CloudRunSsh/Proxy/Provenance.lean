import CloudRunSsh.Proxy.Growth
import CloudRunSsh.Proxy.Removals

/-!
# Where registrations come from

Nothing gets into the registry that nobody posted: whatever the threads do, every entry of every
map is the registration of one request, with its path and its client id, at a time that has passed.
So neither do the listings and the rules tell of any other.
-/

namespace CloudRunSsh.Proxy

open CloudRunSsh.Concurrency

/-- The registration of a request that was asked for, at some time up to now. -/
def Posted (asked : RegistryJob → Prop) (clock : Time) (config : ServerlessInstance) : Prop :=
  ∃ c, asked (.addInstance c) ∧ c.getHeader xServerlessSSHClientID ≠ "" ∧
    ∃ ts, ts ≤ clock ∧ config = registration c (c.getHeader xServerlessSSHClientID) ts

theorem Posted.mono {asked more : RegistryJob → Prop} {clock later : Time}
    {config : ServerlessInstance} (posted : Posted asked clock config)
    (implies : ∀ job, asked job → more job) (passed : clock ≤ later) :
    Posted more later config := by
  obtain ⟨c, request, named, ts, before, made⟩ := posted
  exact ⟨c, implies _ request, named, ts, Int.le_trans before passed, made⟩

section Outlines

variable (asked : RegistryJob → Prop)

/-- What a stage is going to store was posted. -/
def Stage.Stems (clock : Time) : Stage → Prop
  | .readClock c clientID => asked (.addInstance c) ∧ clientID ≠ "" ∧
      clientID = c.getHeader xServerlessSSHClientID
  | .announce config _ | .descend config _ _ _ | .revision config _ _ | .insert config _ _ _
  | .allocate config _ _ | .fill config _ _ _ => Posted asked clock config
  | _ => True

/-- What an effect stores was posted. -/
def Effect.Stems (clock : Time) : Effect → Prop
  | .place _ _ config | .announce _ config => Posted asked clock config
  | _ => True

/-- All that is stored was posted. -/
structure View.Genuine (view : View) : Prop where
  buckets : ∀ bucket key, Only (Posted asked view.clock) (view.buckets bucket key)
  flat : ∀ key, Only (Posted asked view.clock) (view.flat key)

/-- Nothing is stored, or about to be, that was not posted. -/
def provenance : Outline View RegistryJob Stage Effect where
  memory := View.Genuine asked
  thread _ stage view := stage.Stems asked view.clock
  routine _ effect view := effect.Stems asked view.clock

end Outlines

section Provenance

variable {asked : RegistryJob → Prop} {view : View} {effect : Effect} {stage : Stage}
variable {clock later : Time}

theorem Stage.Stems.mono (stems : stage.Stems asked clock) (passed : clock ≤ later) :
    stage.Stems asked later := by
  cases stage with
  | announce | descend | revision | insert | allocate | fill =>
      exact Posted.mono stems (fun _ => id) passed
  | _ => exact stems

theorem Effect.Stems.mono (stems : effect.Stems asked clock) (passed : clock ≤ later) :
    effect.Stems asked later := by
  cases effect with
  | place | announce => exact Posted.mono stems (fun _ => id) passed
  | _ => exact stems

theorem View.Genuine.apply (genuine : view.Genuine asked)
    (stems : effect.Stems asked view.clock) : (effect.apply view).Genuine asked := by
  refine ⟨fun bucket key => ?_, fun key => ?_⟩
  · rw [Effect.clock_apply]
    refine (genuine.buckets bucket key).buckets ?_
    rintro config rfl
    exact stems
  · rw [Effect.clock_apply]
    refine (genuine.flat key).flat ?_
    rintro config rfl
    exact stems

theorem View.Genuine.elapse (genuine : view.Genuine asked) (duration : Nat) :
    (view.elapse duration).Genuine asked := by
  have passed : view.clock ≤ (view.elapse duration).clock :=
    Int.le_add_of_nonneg_right (Int.natCast_nonneg duration)
  exact ⟨fun bucket key => (genuine.buckets bucket key).mono fun _ posted =>
      posted.mono (fun _ => id) passed,
    fun key => (genuine.flat key).mono fun _ posted => posted.mono (fun _ => id) passed⟩

theorem stems_start {job : RegistryJob} (request : asked job) (clock : Time) :
    (Stage.start job).Stems asked clock := by
  cases job with
  | addInstance c =>
      rw [Stage.start, Stage.entry]
      split
      · split <;> trivial
      · rename_i named
        exact ⟨request, named, rfl⟩
  | removeInstance c =>
      rw [Stage.start, Stage.entry]
      split
      · split <;> trivial
      · trivial
  | idleInstancesReaper timeout order => trivial

/-- What a stage stores stems from what it read, and so does the next stage. -/
theorem stems_act (stems : stage.Stems asked view.clock) :
    match stage.act view with
    | .perform effect next => effect.Stems asked view.clock ∧ next.Stems asked view.clock
    | .spawn routine next => routine.Stems asked view.clock ∧ next.Stems asked view.clock
    | .finish _ => True := by
  cases stage with
  | done result => trivial
  | fault => trivial
  | readClock c clientID =>
      obtain ⟨request, named, rfl⟩ := stems
      exact ⟨trivial, c, request, named, view.clock, Int.le_refl _, rfl⟩
  | announce config response => exact ⟨stems, stems⟩
  | descend config level stores response =>
      refine ⟨trivial, ?_⟩
      cases level <;> exact stems
  | revision config stores response =>
      refine ⟨trivial, ?_⟩
      split <;> exact stems
  | insert config bucket stores response => exact ⟨stems, trivial⟩
  | allocate config stores response => exact ⟨trivial, stems⟩
  | fill config bucket stores response => exact ⟨stems, trivial⟩
  | publish config bucket stores response => exact ⟨trivial, trivial⟩
  | store config stores response => cases stores <;> trivial
  | seek c clientID level =>
      refine ⟨trivial, ?_⟩
      split
      · cases level <;> trivial
      · trivial
  | seekRevision c clientID =>
      refine ⟨trivial, ?_⟩
      split <;> trivial
  | check c clientID bucket =>
      refine ⟨trivial, ?_⟩
      split
      · split <;> trivial
      · trivial
  | take c clientID bucket config =>
      refine ⟨trivial, ?_⟩
      split <;> trivial
  | retract c cfg => exact ⟨trivial, trivial⟩
  | visit timeout keys reaped =>
      cases keys with
      | nil => trivial
      | cons key keys =>
          refine ⟨trivial, ?_⟩
          split <;> trivial
  | age timeout config keys reaped =>
      refine ⟨trivial, ?_⟩
      split <;> trivial
  | locate timeout config keys reaped =>
      refine ⟨trivial, ?_⟩
      split <;> trivial
  | reap timeout config bucket keys reaped =>
      refine ⟨trivial, ?_⟩
      split <;> trivial
  | forget timeout cfg keys reaped => exact ⟨trivial, trivial⟩

theorem provenance_valid :
    (provenance asked).Valid stageMachine fun (_ : StagePool) choice =>
      ∀ job, choice = .start job → asked job := by
  constructor
  · intro pool job _ admitted
    exact stems_start (admitted job rfl) pool.mem.clock
  · intro pool index thread holds _ found
    have acted := stems_act (holds.thread thread (List.mem_of_getElem? found))
    simp only [stageMachine]
    cases acts : thread.state.act pool.mem with
    | perform effect next =>
        rw [acts] at acted
        have same : (effect.apply pool.mem).clock = pool.mem.clock := Effect.clock_apply
        refine ⟨holds.memory.apply acted.1, ?_, ?_, ?_⟩
        · exact acted.2.mono (Int.le_of_eq same.symm)
        · exact fun _ _ _ _ stems => Stage.Stems.mono stems (Int.le_of_eq same.symm)
        · exact fun _ _ stems => Effect.Stems.mono stems (Int.le_of_eq same.symm)
    | spawn routine next =>
        rw [acts] at acted
        exact ⟨acted.2, acted.1⟩
    | finish result => trivial
  · intro pool index job routine holds _ found
    have stems := holds.routine _ (List.mem_of_getElem? found)
    have same : (routine.apply pool.mem).clock = pool.mem.clock := Effect.clock_apply
    refine ⟨holds.memory.apply stems, ?_, ?_⟩
    · exact fun thread member =>
        Stage.Stems.mono (holds.thread thread member) (Int.le_of_eq same.symm)
    · exact fun entry member => Effect.Stems.mono
        (holds.routine entry (List.mem_of_mem_eraseIdx member)) (Int.le_of_eq same.symm)
  · intro pool duration holds _
    have passed : pool.mem.clock ≤ (pool.mem.elapse duration).clock :=
      Int.le_add_of_nonneg_right (Int.natCast_nonneg duration)
    exact ⟨holds.memory.elapse duration,
      fun thread member => Stage.Stems.mono (holds.thread thread member) passed,
      fun entry member => Effect.Stems.mono (holds.routine entry member) passed⟩

end Provenance

theorem genuine_initial (asked : RegistryJob → Prop) (clock : Time) :
    (View.initial clock).Genuine asked :=
  ⟨fun _ _ => nofun, fun _ => nofun⟩

/-- Every entry of a reachable registry was posted, under its key. -/
theorem posted_of_reachable {clock : Time} {pool : RegistryPool}
    (reachable : registryMachine.Reaches (fun _ _ => True) (Pool.idle (Memory.initial clock)) pool)
    {map : InstanceToConfigMap} {key : String} {config : ServerlessInstance}
    (found : pool.mem.lookup map key = some config) :
    config.id = key ∧ Posted (· ∈ pool.requests) pool.mem.clock config := by
  obtain ⟨pool', reaches, relates, sound⟩ := (View.sound_initial clock).stages
    (represents_initial clock) (fun _ choice => ∀ job, choice = .start job → job ∈ pool.requests)
    (fun _ both => both.2) reachable.requested
  have holds := provenance_valid.reaches (reaches.mono fun _ _ both => both.1)
    (Outline.holds_idle _ (genuine_initial (· ∈ pool.requests) clock))
  have represents : Represents pool.mem pool'.mem := relates.mem
  rw [represents.clock]
  obtain ⟨address⟩ := map
  cases address with
  | zero =>
      have stored := (represents.flat key).symm.trans found
      exact ⟨sound.memory.flat _ _ stored, holds.memory.flat key config stored⟩
  | succ bucket =>
      have stored := (represents.buckets bucket key).symm.trans found
      exact ⟨sound.memory.keyed _ _ _ stored, holds.memory.buckets bucket key config stored⟩

section Listings

variable {query : Context} {admitted : Memory → Prop} {genuine : ServerlessInstance → Prop}

theorem not_lists_status (untouched : query.Untouched) (code : Nat)
    (config : ServerlessInstance) : ¬(query.status code).Lists config := by
  rintro ⟨index, member⟩
  rw [Context.body_status, untouched.body] at member
  cases member

/-- A lookup in a listing, whatever it finds. -/
theorem amid_lookup {Value : Type} {post : Value → Prop} {kind : MapType} {map : Ref kind}
    {key : String} {rest : Option kind.Value → RegistryM Value}
    (missing : (rest none).Amid execute admitted post)
    (found : ∀ value, (rest (some value)).Amid execute admitted post) :
    (map.get key >>= rest).Amid execute admitted post := by
  intro mem _
  change (rest (mem.lookup map key)).Amid execute admitted post
  cases mem.lookup map key with
  | none => exact missing
  | some value => exact found value

variable (stored : ∀ mem, admitted mem → ∀ (map : InstanceToConfigMap) key config,
  mem.lookup map key = some config → genuine config)

include stored

/-- The entries of a map are listed as they are stored. -/
theorem amid_forEach (untouched : query.Untouched) (map : InstanceToConfigMap)
    (keep : ServerlessInstance → Bool) :
    (map.forEach >>= fun entries => pure (sendIngressResponse query
      ((entries.map Prod.snd).filter keep)) : RegistryM Context).Amid execute admitted
      fun listing => ∀ config, listing.Lists config → genuine config := by
  intro mem fits config lists
  have member := List.mem_of_mem_filter ((lists_sendIngressResponse untouched _ config).mp lists)
  obtain ⟨entry, within, rfl⟩ := List.mem_map.mp member
  exact stored mem fits map entry.1 entry.2 (Dict.mem_items.mp within)

/-- Listings tell of nothing but what the maps hold. -/
theorem listing_genuine (untouched : query.Untouched) :
    ∀ handler ∈ [getProjectIngress, getRegionIngress, getServiceIngress, getRevisionIngress],
      (handler query).Amid execute admitted fun listing =>
        ∀ config, listing.Lists config → genuine config := by
  have refused (code : Nat) (config : ServerlessInstance)
      (lists : (query.status code).Lists config) : genuine config :=
    (not_lists_status untouched code config lists).elim
  simp only [List.forall_mem_cons, List.not_mem_nil, false_imp_iff, implies_true, and_true]
  refine ⟨?_, ?_, ?_, ?_⟩
  · rw [getProjectIngress]
    split
    · exact refused 400
    · refine amid_lookup (refused 404) fun _ => ?_
      exact amid_forEach stored untouched instanceToConfigMap _
  · rw [getRegionIngress]
    split
    · exact refused 400
    · refine amid_lookup (refused 404) fun _ => amid_lookup (refused 404) fun _ => ?_
      exact amid_forEach stored untouched instanceToConfigMap _
  · rw [getServiceIngress]
    split
    · exact refused 400
    · refine amid_lookup (refused 404) fun _ => amid_lookup (refused 404) fun _ =>
        amid_lookup (refused 404) fun _ => ?_
      exact amid_forEach stored untouched instanceToConfigMap _
  · rw [getRevisionIngress]
    split
    · exact refused 400
    · refine amid_lookup (refused 404) fun _ => amid_lookup (refused 404) fun _ =>
        amid_lookup (refused 404) fun _ => amid_lookup (refused 404) fun instances => ?_
      intro mem fits config lists
      have member := (lists_sendIngressResponse untouched _ config).mp lists
      obtain ⟨entry, within, rfl⟩ := List.mem_map.mp member
      exact stored mem fits instances entry.1 entry.2 (Dict.mem_items.mp within)

end Listings

/-- Whatever the threads do, an entry is under its own id, and it is what one of the requests has
posted up to now, with nothing of another.  A listing that is taken while they go on tells of
nothing else. -/
theorem genuine_of_reachable {clock : Time} {pool : RegistryPool}
    (reachable : registryMachine.Reaches (fun _ _ => True) (Pool.idle (Memory.initial clock))
      pool) :
    (∀ (map : InstanceToConfigMap) key config, pool.mem.lookup map key = some config →
      config.id = key ∧ Posted (· ∈ pool.requests) pool.mem.clock config) ∧
    ∀ query : Context, query.Untouched →
      ∀ handler ∈ [getProjectIngress, getRegionIngress, getServiceIngress, getRevisionIngress],
        (handler query).Amid execute pool.Ahead fun listing =>
          ∀ config, listing.Lists config → ∃ later : RegistryPool,
            registryMachine.Reaches (fun _ _ => True) pool later ∧
              Posted (· ∈ later.requests) later.mem.clock config := by
  refine ⟨fun map key config found => posted_of_reachable reachable found, ?_⟩
  intro query untouched
  refine listing_genuine ?_ untouched
  rintro _ ⟨later, reaches, rfl⟩ map key config found
  exact ⟨later, reaches, (posted_of_reachable (reachable.trans reaches) found).2⟩

/-- A registration, as it is stored ten nanoseconds later. -/
theorem genuine_of_reachable_single :
    ∃ (pool : RegistryPool) (config : ServerlessInstance),
      pool.mem.lookup (bucketRef 0) "i" = some config ∧
        Posted (· ∈ pool.requests) pool.mem.clock config := by
  have ran : ∃ (pool : RegistryPool) (config : ServerlessInstance),
      registryMachine.run (fun _ _ => true) (Pool.idle (Memory.initial 0))
        (.start (.addInstance (instanceContext .post "p" "r" "s" "v" "i" "t")) ::
          List.replicate 12 (.thread 0) ++ [.event 10]) = some pool ∧
      pool.mem.lookup (bucketRef 0) "i" = some config := ⟨_, _, rfl, rfl⟩
  obtain ⟨pool, config, ran, found⟩ := ran
  have reachable : registryMachine.Reaches (fun _ _ => True) (Pool.idle (Memory.initial 0)) pool :=
    (Machine.reaches_of_run ran).mono fun _ _ _ => trivial
  exact ⟨pool, config, found, ((genuine_of_reachable reachable).1 _ _ _ found).2⟩

end CloudRunSsh.Proxy
