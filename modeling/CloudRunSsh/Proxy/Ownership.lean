import CloudRunSsh.Proxy.Removals
import CloudRunSsh.Proxy.Server

/-!
# Who owns what a deregistration removes

A deregistration compares its client id with the tunnel of one entry, and then removes
what its bucket and the flat map hold about the instance at two later moments.  It
removes nobody else's registration when the flat map held none at the comparison, and
when none is stored in the entries that it is going to remove.
-/

namespace CloudRunSsh.Proxy

open CloudRunSsh.Concurrency

/-- The registration was made with the client id of the request. -/
def Context.Owns (c : Context) (config : ServerlessInstance) : Prop :=
  config.tunnel = c.getHeader xServerlessSSHClientID

/-- A deregistration is about to take an entry out of a bucket. -/
def Taking (pool : RegistryPool) (c : Context) (map : InstanceToConfigMap) (key : String) :
    Prop :=
  ∃ thread ∈ pool.threads, thread.job = .removeInstance c ∧
    ∃ rest, thread.state = .op (.getAndDel map key) rest

/-- A deregistration has taken an entry out of its bucket and has not yet deleted that of
the flat map. -/
def Retracting (pool : RegistryPool) (c : Context) (key : String) : Prop :=
  (∃ thread ∈ pool.threads, thread.job = .removeInstance c ∧
      ∃ rest, thread.state = .go (.del instanceToConfigMap key) rest) ∨
    (.removeInstance c, .del instanceToConfigMap key) ∈ pool.routines

/-- The flat map holds nobody else's registration of an instance when a deregistration
finds that it owns the entry of its bucket, and nobody else's registration is stored in
an entry that a deregistration is going to remove. -/
structure RespectsOwners (pool : RegistryPool) (choice : Choice RegistryJob Nat) :
    Prop where
  check : ∀ c (map : InstanceToConfigMap) config,
    Program.pending pool choice =
      some (.removeInstance c, .get map (c.param APIPathParam.instance)) →
    pool.mem.lookup map (c.param APIPathParam.instance) = some config → c.Owns config →
    Only c.Owns
      (pool.mem.lookup instanceToConfigMap (c.param APIPathParam.instance))
  bucket : ∀ job (map : InstanceToConfigMap) key config c,
    Program.pending pool choice = some (job, @RegistryOp.set .instances map key config) →
    Taking pool c map key → c.Owns config
  flat : ∀ job key config c,
    Program.pending pool choice =
      some (job, @RegistryOp.set .instances instanceToConfigMap key config) →
    (∃ map, Taking pool c map key) ∨ Retracting pool c key → c.Owns config

namespace StagePool

/-- A deregistration is about to take an entry out of a bucket. -/
def Taking (pool : StagePool) (c : Context) (bucket : Nat) (key : String) : Prop :=
  ∃ thread ∈ pool.threads, thread.job = .removeInstance c ∧
    ∃ own clientID config, thread.state = .take own clientID bucket config ∧
      config.id = key

/-- A deregistration has taken an entry and has not yet deleted that of the flat map. -/
def Retracting (pool : StagePool) (c : Context) (key : String) : Prop :=
  (∃ thread ∈ pool.threads, thread.job = .removeInstance c ∧
      ∃ own cfg, thread.state = .retract own cfg ∧ cfg.id = key) ∨
    (.removeInstance c, .retract key) ∈ pool.routines

/-- The condition for the stages. -/
structure RespectsOwners (pool : StagePool) (choice : Choice RegistryJob Nat) : Prop where
  check : ∀ index thread c clientID bucket config,
    choice = .thread index → pool.threads[index]? = some thread →
    thread.job = .removeInstance c → thread.state = .check c clientID bucket →
    pool.mem.buckets bucket (c.param APIPathParam.instance) = some config →
    c.Owns config → Only c.Owns (pool.mem.flat (c.param APIPathParam.instance))
  bucket : ∀ job bucket key config c,
    pool.pending choice = some (job, .place bucket key config) →
    pool.Taking c bucket key → c.Owns config
  flat : ∀ job key config c,
    pool.pending choice = some (job, .announce key config) →
    (∃ bucket, pool.Taking c bucket key) ∨ pool.Retracting c key → c.Owns config

end StagePool

section Stages

variable {pool : RegistryPool} {pool' : StagePool} {c : Context} {key : String}

theorem StagePool.Taking.server {bucket : Nat}
    (relates : stageSimulation.Relates pool pool') (taking : pool'.Taking c bucket key) :
    Proxy.Taking pool c (bucketRef bucket) key := by
  rcases taking with ⟨thread, member, job, own, clientID, config, state, rfl⟩
  refine ⟨stageSimulation.thread thread, ?_, job, ?_⟩
  · exact relates.mem_threads member
  · simp only [Simulation.thread, state]
    exact ⟨_, rfl⟩

theorem StagePool.Retracting.server (relates : stageSimulation.Relates pool pool')
    (retracting : pool'.Retracting c key) : Proxy.Retracting pool c key := by
  rcases retracting with ⟨thread, member, job, own, cfg, state, rfl⟩ | member
  · left
    refine ⟨stageSimulation.thread thread, ?_, job, ?_⟩
    · exact relates.mem_threads member
    · simp only [Simulation.thread, state]
      exact ⟨_, rfl⟩
  · exact .inr (relates.mem_routines member)

theorem RespectsOwners.stages {choice : Choice RegistryJob Nat}
    (relates : stageSimulation.Relates pool pool') (respects : RespectsOwners pool choice) :
    StagePool.RespectsOwners pool' choice := by
  have represents : Represents pool.mem pool'.mem := relates.mem
  constructor
  · rintro index thread c clientID bucket config rfl found job state entry owns
    rw [← represents.flat]
    apply respects.check c (bucketRef bucket) config
    · simp only [Program.pending, relates.getElem?_threads found, Option.bind_some,
        Simulation.thread, state, job]
      rfl
    · rw [represents.buckets]
      exact entry
    · exact owns
  · intro job bucket key config c pending taking
    exact respects.bucket job (bucketRef bucket) key config c
      (pending_of_relates relates (by rintro ⟨⟩) pending) (taking.server relates)
  · intro job key config c pending removing
    apply respects.flat job key config c (pending_of_relates relates (by rintro ⟨⟩) pending)
    rcases removing with ⟨bucket, taking⟩ | retracting
    · exact .inl ⟨bucketRef bucket, taking.server relates⟩
    · exact .inr (retracting.server relates)

end Stages

/-- What holds at a stage of a deregistration: the entries that it is going to remove
are its own. -/
def Removes (c : Context) (view : View) : Stage → Prop
  | .seek own clientID _ | .seekRevision own clientID | .check own clientID _ =>
      own = c ∧ clientID = c.getHeader xServerlessSSHClientID
  | .take _ _ bucket config =>
      Only c.Owns (view.buckets bucket config.id) ∧ Only c.Owns (view.flat config.id)
  | .retract _ cfg => Only c.Owns (view.flat cfg.id)
  | .done _ | .fault => True
  | _ => False

/-- Threads and goroutines of deregistrations only remove their own registrations. -/
def ownership : Outline View RegistryJob Stage Effect where
  memory _ := True
  thread job stage view := ∀ c, job = .removeInstance c → Removes c view stage
  routine job effect view := ∀ c, job = .removeInstance c →
    ∃ key, effect = .retract key ∧ Only c.Owns (view.flat key)

theorem removes_start (c : Context) (view : View) :
    Removes c view (Stage.start (.removeInstance c)) := by
  simp only [Stage.start, Stage.entry]
  split
  · split <;> trivial
  · exact ⟨rfl, rfl⟩

section Steps

variable {pool : StagePool} {choice : Choice RegistryJob Nat}
variable (respects : pool.RespectsOwners choice)

include respects

/-- What another thread is about to remove stays its own. -/
theorem Removes.spared {c : Context} {effect : Effect} {job : RegistryJob}
    {thread : Thread RegistryJob Stage Effect} (member : thread ∈ pool.threads)
    (author : thread.job = .removeInstance c)
    (pending : pool.pending choice = some (job, effect))
    (removes : Removes c pool.mem thread.state) :
    Removes c (effect.apply pool.mem) thread.state := by
  cases state : thread.state with
  | take own clientID bucket config =>
      rw [state] at removes
      have taking : pool.Taking c bucket config.id :=
        ⟨thread, member, author, own, clientID, config, state, rfl⟩
      constructor
      · apply removes.1.buckets
        rintro stored rfl
        exact respects.bucket job bucket config.id stored c pending taking
      · apply removes.2.flat
        rintro stored rfl
        exact respects.flat job config.id stored c pending (.inl ⟨bucket, taking⟩)
  | retract own cfg =>
      rw [state] at removes
      apply Only.flat removes
      rintro stored rfl
      exact respects.flat job cfg.id stored c pending
        (.inr (.inl ⟨thread, member, author, own, cfg, state, rfl⟩))
  | _ =>
      rw [state] at removes
      exact removes

/-- What a goroutine is about to remove stays its own. -/
theorem Only.spared {c : Context} {key : String} {effect : Effect} {job : RegistryJob}
    (member : (.removeInstance c, .retract key) ∈ pool.routines)
    (pending : pool.pending choice = some (job, effect))
    (only : Only c.Owns (pool.mem.flat key)) :
    Only c.Owns ((effect.apply pool.mem).flat key) := by
  apply only.flat
  rintro stored rfl
  exact respects.flat job key stored c pending (.inr (.inr member))

end Steps

/-- The next stage of a deregistration. -/
theorem Removes.act {pool : StagePool} {index : Nat} {c : Context}
    {thread : Thread RegistryJob Stage Effect} {effect : Effect} {next : Stage}
    (respects : pool.RespectsOwners (.thread index)) (sound : pool.mem.Sound)
    (found : pool.threads[index]? = some thread) (author : thread.job = .removeInstance c)
    (acts : thread.state.act pool.mem = .perform effect next)
    (removes : Removes c pool.mem thread.state) : Removes c (effect.apply pool.mem) next := by
  cases state : thread.state with
  | done | fault | retract =>
      rw [state] at acts
      cases acts
  | seek own clientID level =>
      rw [state] at acts removes
      cases acts
      split
      · cases level <;> exact removes
      · trivial
  | seekRevision own clientID =>
      rw [state] at acts removes
      cases acts
      split
      · exact removes
      · trivial
  | check own clientID bucket =>
      rw [state] at acts removes
      rcases removes with ⟨rfl, rfl⟩
      cases acts
      split
      · rename_i config entry
        split
        · rename_i owner
          have keyed := sound.keyed _ _ _ entry
          constructor
          · rw [keyed]
            intro other entry'
            cases entry.symm.trans entry'
            exact owner.symm
          · rw [keyed]
            exact respects.check index thread own _ bucket config rfl found author state entry
              owner.symm
        · trivial
      · trivial
  | take own clientID bucket config =>
      rw [state] at acts removes
      cases acts
      split
      · rename_i cfg entry
        change Only c.Owns (pool.mem.flat cfg.id)
        rw [sound.keyed _ _ _ entry]
        exact removes.2
      · trivial
  | _ =>
      rw [state] at removes
      exact removes.elim

theorem ownership_valid :
    ownership.Valid stageMachine fun (pool : StagePool) choice =>
      pool.RespectsOwners choice ∧ soundness.Holds pool := by
  constructor
  · rintro pool job _ _ c rfl
    exact removes_start c pool.mem
  · intro pool index thread holds admitted found
    have removes := holds.thread thread (List.mem_of_getElem? found)
    simp only [stageMachine]
    cases acts : thread.state.act pool.mem with
    | perform effect next =>
        have pending := StagePool.pending_of_act found acts
        refine ⟨trivial, ?_, ?_, ?_⟩
        · intro c author
          exact (removes c author).act admitted.1 admitted.2.memory found author acts
        · intro other foreign _ running kept c author
          exact (kept c author).spared admitted.1 (List.mem_of_getElem? running) author pending
        · rintro ⟨job, routine⟩ member kept c rfl
          rcases kept c rfl with ⟨key, rfl, only⟩
          exact ⟨key, rfl, only.spared admitted.1 member pending⟩
    | spawn routine next =>
        rcases Stage.spawn_cases acts with
          ⟨config, response, state, rfl, rfl⟩ | ⟨own, cfg, state, rfl, rfl⟩
        · rw [state] at removes
          exact ⟨fun c author => (removes c author).elim,
            fun c author => (removes c author).elim⟩
        · rw [state] at removes
          exact ⟨fun c author => trivial, fun c author => ⟨cfg.id, rfl, removes c author⟩⟩
    | finish result => trivial
  · intro pool index job routine holds admitted found
    have pending : StagePool.pending pool (.routine index) = some (job, routine) := found
    refine ⟨trivial, ?_, ?_⟩
    · intro thread member c author
      exact (holds.thread thread member c author).spared admitted.1 member author pending
    · rintro ⟨other, effect⟩ member c rfl
      have started := List.mem_of_mem_eraseIdx member
      rcases holds.routine _ started c rfl with ⟨key, rfl, only⟩
      exact ⟨key, rfl, only.spared admitted.1 started pending⟩
  · intro pool duration holds _
    exact ⟨trivial, holds.thread, holds.routine⟩

/-- A step of a deregistration removes its own registrations only. -/
theorem ownership_step {pool next : StagePool} {choice : Choice RegistryJob Nat}
    {c : Context} {config : ServerlessInstance} (holds : ownership.Holds pool)
    (author : pool.author choice = some (.removeInstance c))
    (stepped : stageMachine.step pool choice = some next)
    (removed : pool.mem.Removed next.mem config) : c.Owns config := by
  rcases Machine.step_cases stepped with ⟨job, rfl, rfl⟩ | ⟨index, thread, rfl, found, rfl⟩ |
    ⟨index, job, routine, rfl, found, rfl⟩ | ⟨duration, rfl, rfl⟩
  · cases author
  · simp only [Pool.author, found, Option.map_some, Option.some.injEq] at author
    have removes := holds.thread thread (List.mem_of_getElem? found) c author
    simp only [stageMachine] at removed
    cases acts : thread.state.act pool.mem with
    | perform effect after =>
        rw [acts] at removed
        cases state : thread.state with
        | take own clientID bucket config =>
            rw [state] at acts removes
            cases acts
            exact removes.1 _ removed.withdraw
        | done | fault | retract =>
            rw [state] at acts
            cases acts
        | seek | seekRevision | check =>
            rw [state] at acts
            cases acts
            exact removed.irrefl.elim
        | _ =>
            rw [state] at removes
            exact removes.elim
    | spawn routine after =>
        rw [acts] at removed
        exact removed.irrefl.elim
    | finish result =>
        rw [acts] at removed
        exact removed.irrefl.elim
  · simp only [Pool.author, found, Option.map_some, Option.some.injEq] at author
    rcases holds.routine _ (List.mem_of_getElem? found) c author with ⟨key, rfl, only⟩
    exact only _ removed.retract
  · cases author

/-- The operation leaves every memory as it is. -/
def RegistryOp.Reads (operation : RegistryOp) : Prop :=
  ∀ mem, (execute operation mem).2 = mem

/-- The answer of an operation is a registration that the request owns, in the entry that
it addresses. -/
def Context.Matches (c : Context) : (operation : RegistryOp) → operation.Res → Prop
  | @RegistryOp.get .instances _ key, answer =>
      key = c.param APIPathParam.instance ∧ ∃ config, answer = some config ∧ c.Owns config
  | _, _ => False

theorem inlineUntil_fetch {Value : Type} {c : Context} {kind : MapType} {map : Ref kind}
    {key : String} {value : Value} {found : kind.Value → RegistryM Value}
    (some : ∀ value, ¬c.Matches (.get map key) (some value) →
      (found value).InlineUntil RegistryOp.Reads c.Matches) :
    (fetch map key (.pure value) found).InlineUntil RegistryOp.Reads c.Matches := by
  refine ⟨fun mem => rfl, ?_⟩
  intro answer unmatched
  cases answer with
  | none => trivial
  | some value => exact some value unmatched

/-- A deregistration changes nothing until it finds a registration that it owns in the
entry that it addresses, whatever happens between its lookups. -/
theorem removeInstance_inline (c : Context) :
    (removeInstance c).InlineUntil RegistryOp.Reads c.Matches := by
  simp only [removeInstance_eq, getSSHProxyClientID]
  split
  · cases getProxyConfig c <;> trivial
  · apply inlineUntil_fetch
    intro regions _
    apply inlineUntil_fetch
    intro services _
    apply inlineUntil_fetch
    intro revisions _
    apply inlineUntil_fetch
    intro instances _
    apply inlineUntil_fetch
    intro config unmatched
    have foreign : ¬c.getHeader xServerlessSSHClientID = config.tunnel := by
      intro owner
      exact unmatched ⟨rfl, config, rfl, owner.symm⟩
    rw [if_neg foreign]
    trivial

/-- No deregistration removes a registration made with another client id, in every run
that respects owners, and one that finds no registration of its own in the entry that it
addresses changes nothing at all. -/
theorem deregistrations_respect_owners {clock : Time} {earlier : RegistryPool}
    (reachable : registryMachine.Reaches (fun _ _ => True) (Pool.idle (Memory.initial clock))
      earlier) :
    (∀ {pool next : RegistryPool} {choice : Choice RegistryJob Nat} {c : Context}
        {config : ServerlessInstance},
      registryMachine.Reaches RespectsOwners (Pool.idle earlier.mem) pool →
      pool.author choice = some (.removeInstance c) →
      registryMachine.step pool choice = some next →
      pool.mem.Removed next.mem config →
      config.tunnel = c.getHeader xServerlessSSHClientID) ∧
    ∀ c, (removeInstance c).InlineUntil RegistryOp.Reads c.Matches := by
  refine ⟨?_, removeInstance_inline⟩
  intro pool next choice c config reaches author stepped removed
  rcases sound_of_reachable reachable with ⟨view, represents, sound⟩
  rcases sound.stages represents StagePool.RespectsOwners
    (fun relates respects => respects.stages relates) reaches with
    ⟨pool', reaches', relates, _⟩
  have holds := ownership_valid.reaches reaches' (Outline.holds_idle _ trivial)
  rcases relates.step stepped with ⟨next', stepped', relates'⟩
  rw [relates.author] at author
  exact ownership_step holds author stepped' (removed.view relates.mem relates'.mem)

/-- All deregistrations present one client id, nobody registers with another, and the
flat map holds no other registration of the instance that is looked up. -/
def singleOwner (clientID : String) (pool : RegistryPool) (choice : Choice RegistryJob Nat) :
    Bool :=
  (match Program.pending pool choice with
    | some (_, @RegistryOp.get .instances _ key) =>
        (pool.mem.lookup instanceToConfigMap key).all fun config => config.tunnel == clientID
    | some (_, @RegistryOp.set .instances _ _ config) => config.tunnel == clientID
    | _ => true) &&
    pool.jobs.all fun
      | .removeInstance c => c.getHeader xServerlessSSHClientID == clientID
      | _ => true

theorem respectsOwners_of_singleOwner {clientID : String} {pool : RegistryPool}
    {choice : Choice RegistryJob Nat} (passed : singleOwner clientID pool choice = true) :
    RespectsOwners pool choice := by
  rw [singleOwner, Bool.and_eq_true] at passed
  rcases passed with ⟨safe, presented⟩
  have owner : ∀ {c : Context}, .removeInstance c ∈ pool.jobs →
      c.getHeader xServerlessSSHClientID = clientID :=
    fun member => beq_iff_eq.mp (List.all_eq_true.mp presented _ member)
  have taking : ∀ {c : Context} {map : InstanceToConfigMap} {key : String},
      Taking pool c map key → c.getHeader xServerlessSSHClientID = clientID := by
    intro c map key removing
    rcases removing with ⟨thread, member, job, _⟩
    apply owner
    rw [← job]
    exact Pool.mem_jobs_of_thread member
  constructor
  · intro c map config pending _ _ other found
    rw [pending] at safe
    change (pool.mem.lookup instanceToConfigMap (c.param APIPathParam.instance)).all
      (fun config => config.tunnel == clientID) = true at safe
    rw [found] at safe
    exact (beq_iff_eq.mp safe).trans
      (owner (Pool.mem_jobs_of_author (Program.author_of_pending pending))).symm
  · intro job map key config c pending removing
    rw [pending] at safe
    exact (beq_iff_eq.mp safe).trans (taking removing).symm
  · intro job key config c pending removing
    rw [pending] at safe
    refine (beq_iff_eq.mp safe).trans ?_
    rcases removing with ⟨map, removing⟩ | ⟨thread, member, job, _⟩ | member
    · exact (taking removing).symm
    · symm
      apply owner
      rw [← job]
      exact Pool.mem_jobs_of_thread member
    · symm
      apply owner
      exact Pool.mem_jobs_of_routine member

/-- A registration that its own client removes, up to the goroutine's deletion. -/
theorem deregistrations_respect_owners_single :
    ∃ (pool next : RegistryPool) (config : ServerlessInstance),
      pool.mem.Removed next.mem config ∧ config.tunnel = "t" := by
  have ran : ∃ (pool next : RegistryPool) (config : ServerlessInstance),
      registryMachine.run (singleOwner "t") (Pool.idle (Memory.initial 0))
        (.start (.addInstance (instanceContext .post "p" "r" "s" "v" "i" "t")) ::
          List.replicate 13 (.thread 0) ++ .routine 0 ::
          .start (.removeInstance (instanceContext .delete "p" "r" "s" "v" "i" "t")) ::
          List.replicate 8 (.thread 0)) = some pool ∧
      pool.author (.routine 0 : Choice RegistryJob Nat) =
        some (.removeInstance (instanceContext .delete "p" "r" "s" "v" "i" "t")) ∧
      registryMachine.step pool (.routine 0) = some next ∧
      pool.mem.lookup instanceToConfigMap "i" = some config ∧
      next.mem.lookup instanceToConfigMap "i" = none :=
    ⟨_, _, _, rfl, rfl, rfl, rfl, rfl⟩
  rcases ran with ⟨pool, next, config, ran, author, stepped, found, gone⟩
  have reaches := (Machine.reaches_of_run ran).mono
    fun pool choice passed => respectsOwners_of_singleOwner passed
  have removed : pool.mem.Removed next.mem config := by
    refine ⟨instanceToConfigMap, "i", found, ?_⟩
    rw [gone]
    nofun
  exact ⟨pool, next, config, removed,
    (deregistrations_respect_owners .refl).1 reaches author stepped removed⟩

/-- One instance that two clients have registered under two revisions: the client of one
removes the registration of the other from the flat map. -/
theorem deregistration_removes_foreign :
    ∃ (pool next : RegistryPool) (config : ServerlessInstance),
      registryMachine.Reaches (fun _ _ => True) (Pool.idle (Memory.initial 0)) pool ∧
      pool.author (.routine 0 : Choice RegistryJob Nat) =
        some (.removeInstance (instanceContext .delete "p" "r" "s" "v" "i" "t")) ∧
      registryMachine.step pool (.routine 0) = some next ∧
      pool.mem.Removed next.mem config ∧
      config.tunnel ≠ (instanceContext .delete "p" "r" "s" "v" "i" "t").getHeader
        xServerlessSSHClientID := by
  have ran : ∃ (pool next : RegistryPool) (config : ServerlessInstance),
      registryMachine.run (fun _ _ => true) (Pool.idle (Memory.initial 0))
        (.start (.addInstance (instanceContext .post "p" "r" "s" "v" "i" "t")) ::
          List.replicate 13 (.thread 0) ++ .routine 0 ::
          .start (.addInstance (instanceContext .post "p" "r" "s" "w" "i" "u")) ::
          List.replicate 10 (.thread 0) ++ .routine 0 ::
          .start (.removeInstance (instanceContext .delete "p" "r" "s" "v" "i" "t")) ::
          List.replicate 8 (.thread 0)) = some pool ∧
      pool.author (.routine 0 : Choice RegistryJob Nat) =
        some (.removeInstance (instanceContext .delete "p" "r" "s" "v" "i" "t")) ∧
      registryMachine.step pool (.routine 0) = some next ∧
      pool.mem.lookup instanceToConfigMap "i" = some config ∧
      next.mem.lookup instanceToConfigMap "i" = none ∧
      config.tunnel ≠ (instanceContext .delete "p" "r" "s" "v" "i" "t").getHeader
        xServerlessSSHClientID :=
    ⟨_, _, _, rfl, rfl, rfl, rfl, rfl, by decide⟩
  rcases ran with ⟨pool, next, config, ran, author, stepped, found, gone, foreign⟩
  refine ⟨pool, next, config, ?_, author, stepped, ⟨instanceToConfigMap, "i", found, ?_⟩,
    foreign⟩
  · exact (Machine.reaches_of_run ran).mono fun _ _ _ => trivial
  · rw [gone]
    nofun

end CloudRunSsh.Proxy
