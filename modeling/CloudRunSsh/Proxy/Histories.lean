import CloudRunSsh.Proxy.Sequential

/-!
# Sequential histories

A history is a sequence of completed calls between which time may pass.  On the view
each call is one update, and three facts are kept by every update: buckets are created
before they are published, no two revisions share one, and entries are stored under
their own ids.
-/

namespace CloudRunSsh.Proxy

open CloudRunSsh.Concurrency

namespace View

/-- What every registry satisfies between calls. -/
structure WellFormed (view : View) : Prop extends view.Sound where
  injective : ∀ revision other bucket, view.revisions revision = some bucket →
    view.revisions other = some bucket → revision = other

theorem wellFormed_initial (clock : Time) : (initial clock).WellFormed := by
  refine ⟨sound_initial clock, ?_⟩
  intro revision other bucket published
  cases published

variable {view : View} {config : ServerlessInstance}

/-- Learning names changes nothing but what is known. -/
theorem learn_eq (levels : List Level) :
    view.learn config levels =
      { view with known := (view.learn config levels).known } := by
  induction levels generalizing view with
  | nil => rfl
  | cons level levels ih =>
      exact @ih ((Effect.learn level (level.key config)).apply view)

theorem known_learn_iff {levels : List Level} {level : Level} {key : String} :
    (view.learn config levels).known level key = true ↔
      view.known level key = true ∨ level ∈ levels ∧ key = level.key config := by
  induction levels generalizing view with
  | nil => simp [learn]
  | cons other levels ih =>
      refine ih.trans ?_
      simp only [Effect.apply, Bool.or_eq_true, Bool.and_eq_true, decide_eq_true_eq,
        List.mem_cons]
      constructor
      · rintro ((known | ⟨rfl, rfl⟩) | ⟨member, same⟩)
        · exact .inl known
        · exact .inr ⟨.inl rfl, rfl⟩
        · exact .inr ⟨.inr member, same⟩
      · rintro (known | ⟨rfl | member, same⟩)
        · exact .inl (.inl known)
        · exact .inl (.inr ⟨rfl, same⟩)
        · exact .inr ⟨member, same⟩

@[simp] theorem flat_register :
    (view.register config).flat =
      Function.update view.flat config.id (some config) := by
  rw [register, learn_eq, settle]
  split <;> rfl

/-- A registration makes its own names known and no others. -/
theorem known_register {level : Level} {key : String} :
    (view.register config).known level key = true ↔
      view.known level key = true ∨ key = level.key config := by
  rw [register, known_learn_iff, known_settle]
  have every : level ∈ [Level.service, .region, .project] := by cases level <;> decide
  simp only [every, true_and, Effect.apply]

theorem known_register_own (level : Level) :
    (view.register config).known level (level.key config) = true :=
  known_register.mpr (.inr rfl)

/-- A registration is in the bucket of its revision. -/
theorem bucketEntry_register_own (view : View) (config : ServerlessInstance) :
    (view.register config).bucketEntry config.revision config.id = some config := by
  rw [register, learn_eq]
  simp only [bucketEntry, settle, Effect.apply]
  cases found : view.revisions config.revision with
  | some bucket => simp [found]
  | none => simp

/-- A registration changes one entry of the buckets. -/
theorem bucketEntry_register (wellFormed : view.WellFormed) (revision id : String) :
    (view.register config).bucketEntry revision id =
      if revision = config.revision ∧ id = config.id then some config
      else view.bucketEntry revision id := by
  rw [register, learn_eq]
  simp only [bucketEntry, settle, Effect.apply]
  cases found : view.revisions config.revision with
  | some bucket =>
      by_cases own : revision = config.revision
      · subst own
        by_cases same : id = config.id <;> simp [found, same]
      · cases other : view.revisions revision with
        | none => simp [own]
        | some bucket' =>
            have distinct : bucket' ≠ bucket := by
              rintro rfl
              exact own (wellFormed.injective _ _ _ other found)
            simp [own, distinct]
  | none =>
      by_cases own : revision = config.revision
      · subst own
        by_cases same : id = config.id <;> simp [found, same]
      · cases other : view.revisions revision with
        | none => simp [other, own]
        | some bucket' =>
            have old := wellFormed.published _ _ other
            have distinct : bucket' ≠ view.fresh := Nat.ne_of_lt old
            simp [other, own, distinct]

theorem Sound.announce_settle (sound : view.Sound) :
    (((Effect.announce config.id config).apply view).settle config).Sound := by
  have announced : ((Effect.announce config.id config).apply view).Sound :=
    sound.apply rfl
  rw [settle]
  split
  · rename_i bucket published
    exact announced.apply ⟨rfl, announced.published _ _ published⟩
  · have created : ((Effect.allocate config.id).apply
        ((Effect.announce config.id config).apply view)).Sound := announced.apply trivial
    have filled := @Sound.apply _ created (.place view.fresh config.id config)
      ⟨rfl, Nat.lt_succ_self view.fresh⟩
    exact @Sound.apply _ filled (.publish config.revision view.fresh)
      (Nat.lt_succ_self view.fresh)

theorem Sound.learning (sound : view.Sound) (levels : List Level) :
    (view.learn config levels).Sound := by
  rw [learn_eq]
  exact ⟨sound.keyed, sound.flat, sound.published, sound.allocated⟩

theorem WellFormed.register (wellFormed : view.WellFormed) :
    (view.register config).WellFormed := by
  refine ⟨wellFormed.toSound.announce_settle.learning _, ?_⟩
  rw [View.register, learn_eq, settle]
  split
  · exact wellFormed.injective
  · intro revision other bucket first second
    simp only [Effect.apply, Function.update_apply] at first second
    split at first <;> split at second
    · subst revision other
      rfl
    · cases first
      exact absurd (wellFormed.published _ _ second) (Nat.lt_irrefl _)
    · cases second
      exact absurd (wellFormed.published _ _ first) (Nat.lt_irrefl _)
    · exact wellFormed.injective _ _ _ first second

/-- What there is about an instance in the bucket of a revision. -/
theorem bucketEntry_cases (view : View) (revision id : String) :
    view.bucketEntry revision id = none ∨
      ∃ bucket cfg, view.revisions revision = some bucket ∧
        view.buckets bucket id = some cfg := by
  cases entry : view.bucketEntry revision id with
  | none => exact .inl rfl
  | some cfg =>
      rcases Option.bind_eq_some_iff.mp entry with ⟨bucket, found, entry⟩
      exact .inr ⟨bucket, cfg, found, entry⟩

theorem unregister_of_none {revision id : String}
    (missing : view.bucketEntry revision id = none) :
    view.unregister revision id = view := by
  rw [unregister]
  split
  · rename_i bucket found
    simp only [bucketEntry, found, Option.bind_some] at missing
    rw [missing]
  · rfl

theorem unregister_of_some {revision id : String} {bucket : Nat}
    {cfg : ServerlessInstance} (found : view.revisions revision = some bucket)
    (entry : view.buckets bucket id = some cfg) :
    view.unregister revision id =
      (Effect.retract cfg.id).apply ((Effect.withdraw bucket id).apply view) := by
  simp only [unregister, found, entry]

@[simp] theorem clock_unregister (revision id : String) :
    (view.unregister revision id).clock = view.clock := by
  rcases view.bucketEntry_cases revision id with missing | ⟨bucket, cfg, found, entry⟩
  · rw [unregister_of_none missing]
  · rw [unregister_of_some found entry]
    rfl

@[simp] theorem known_unregister (revision id : String) :
    (view.unregister revision id).known = view.known := by
  rcases view.bucketEntry_cases revision id with missing | ⟨bucket, cfg, found, entry⟩
  · rw [unregister_of_none missing]
  · rw [unregister_of_some found entry]
    rfl

/-- A deregistration changes the flat map if it finds an entry in the bucket. -/
theorem flat_unregister (keyed : view.Keyed) (revision id : String) :
    (view.unregister revision id).flat =
      if (view.bucketEntry revision id).isSome then Function.update view.flat id none
      else view.flat := by
  rcases view.bucketEntry_cases revision id with missing | ⟨bucket, cfg, found, entry⟩
  · rw [unregister_of_none missing, missing]
    rfl
  · have own : cfg.id = id := keyed bucket id cfg entry
    rw [unregister_of_some found entry, bucketEntry, found, Option.bind_some, entry, own]
    rfl

/-- A deregistration removes one entry of the buckets. -/
theorem bucketEntry_unregister (wellFormed : view.WellFormed)
    (revision id other key : String) :
    (view.unregister revision id).bucketEntry other key =
      if other = revision ∧ key = id then none else view.bucketEntry other key := by
  rcases view.bucketEntry_cases revision id with missing | ⟨bucket, cfg, found, entry⟩
  · rw [unregister_of_none missing]
    split
    · rename_i own
      rw [own.1, own.2]
      exact missing
    · rfl
  · rw [unregister_of_some found entry]
    simp only [bucketEntry, Effect.apply]
    by_cases own : other = revision
    · subst own
      by_cases same : key = id <;> simp [found, same]
    · cases published : view.revisions other with
      | none => simp
      | some bucket' =>
          have distinct : bucket' ≠ bucket := by
            rintro rfl
            exact own (wellFormed.injective _ _ _ published found)
          simp [own, distinct]

theorem WellFormed.unregister (wellFormed : view.WellFormed) (revision id : String) :
    (view.unregister revision id).WellFormed := by
  rcases view.bucketEntry_cases revision id with missing | ⟨bucket, cfg, found, entry⟩
  · rw [unregister_of_none missing]
    exact wellFormed
  · rw [unregister_of_some found entry]
    have withdrawn : ((Effect.withdraw bucket id).apply view).Sound :=
      wellFormed.toSound.apply trivial
    exact ⟨withdrawn.apply trivial, wellFormed.injective⟩

theorem WellFormed.elapse (wellFormed : view.WellFormed) (duration : Nat) :
    (view.elapse duration).WellFormed :=
  ⟨wellFormed.toSound.elapse duration, wellFormed.injective⟩

theorem WellFormed.reap (wellFormed : view.WellFormed) (timeout : Time) (key : String) :
    (view.reap timeout key).WellFormed := by
  rw [View.reap]
  split
  · split
    · exact wellFormed.unregister _ _
    · exact wellFormed
  · exact wellFormed

theorem WellFormed.sweep (wellFormed : view.WellFormed) (timeout : Time)
    (keys : List String) : (view.sweep timeout keys).WellFormed := by
  induction keys generalizing view with
  | nil => exact wellFormed
  | cons key keys ih => exact ih (wellFormed.reap timeout key)

/-- The buckets and the flat map hold the same registrations, each in the bucket of its
revision. -/
def Coherent (view : View) : Prop :=
  ∀ revision id config, view.bucketEntry revision id = some config ↔
    view.flat id = some config ∧ config.revision = revision

theorem coherent_initial (clock : Time) : (initial clock).Coherent := by
  intro revision id config
  simp [bucketEntry, initial]

/-- A registration keeps the two indexes in agreement when no other revision has the
instance. -/
theorem Coherent.register (coherent : view.Coherent) (wellFormed : view.WellFormed)
    (alone : ∀ revision, revision ≠ config.revision →
      view.bucketEntry revision config.id = none) :
    (view.register config).Coherent := by
  intro revision id entry
  rw [bucketEntry_register wellFormed, flat_register, Function.update_apply]
  by_cases same : id = config.id
  · subst same
    by_cases own : revision = config.revision
    · subst own
      simp only [and_self, if_true, Option.some.injEq]
      constructor
      · rintro rfl
        exact ⟨rfl, rfl⟩
      · rintro ⟨rfl, _⟩
        rfl
    · simp only [own, false_and, if_false, if_true, alone revision own, Option.some.injEq,
        reduceCtorEq, false_iff, not_and]
      rintro rfl
      exact Ne.symm own
  · simp only [same, and_false, if_false]
    exact coherent revision id entry

theorem Coherent.unregister (coherent : view.Coherent) (wellFormed : view.WellFormed)
    (revision id : String) : (view.unregister revision id).Coherent := by
  cases present : view.bucketEntry revision id with
  | none =>
      rw [unregister_of_none present]
      exact coherent
  | some config =>
      intro other key entry
      rw [bucketEntry_unregister wellFormed, flat_unregister wellFormed.keyed, present]
      simp only [Option.isSome_some, if_true, Function.update_apply]
      by_cases same : key = id
      · subst same
        simp only [and_true, if_true, reduceCtorEq, false_and, iff_false]
        split
        · nofun
        · rename_i different
          intro found
          have first := (coherent _ _ _).mp present
          have second := (coherent _ _ _).mp found
          have equal : entry = config := Option.some.inj (second.1.symm.trans first.1)
          rw [equal] at second
          exact different (second.2.symm.trans first.2)
      · simp only [same, and_false, if_false]
        exact coherent other key entry

/-- What a completed call does to the view. -/
def perform (view : View) : RegistryJob → View
  | .addInstance c =>
      if c.getHeader xServerlessSSHClientID = "" then view
      else
        view.register (registration c (c.getHeader xServerlessSSHClientID) view.clock)
  | .removeInstance c =>
      match view.addressed c with
      | some config =>
          if c.getHeader xServerlessSSHClientID ≠ "" ∧
              c.getHeader xServerlessSSHClientID = config.tunnel then
            view.unregister (c.param APIPathParam.revision) (c.param APIPathParam.instance)
          else view
      | none => view
  | .idleInstancesReaper timeout order => view.sweep timeout order

theorem WellFormed.perform (wellFormed : view.WellFormed) (job : RegistryJob) :
    (view.perform job).WellFormed := by
  cases job with
  | addInstance c =>
      simp only [View.perform]
      split
      · exact wellFormed
      · exact wellFormed.register
  | removeInstance c =>
      simp only [View.perform]
      split
      · split
        · exact wellFormed.unregister _ _
        · exact wellFormed
      · exact wellFormed
  | idleInstancesReaper timeout order => exact wellFormed.sweep timeout order

end View

/-- The evaluation of a call is its update of the view. -/
theorem eval_represents {mem : Memory} {view : View} (represents : Represents mem view)
    (keyed : view.Keyed) (job : RegistryJob) :
    Represents (job.program.eval execute mem).2 (view.perform job) := by
  rw [start_program]
  cases job with
  | addInstance c =>
      simp only [Stage.start, Stage.entry, View.perform]
      split
      · cases getProxyConfig c <;> exact represents
      · exact (endsIn_register represents c _).2
  | removeInstance c =>
      simp only [Stage.start, Stage.entry]
      split
      · rename_i empty
        have unchanged : view.perform (.removeInstance c) = view := by
          simp only [View.perform, empty, ne_eq, not_true, false_and, if_false]
          split <;> rfl
        rw [unchanged]
        cases getProxyConfig c <;> exact represents
      · rename_i clientID
        simp only [View.perform]
        cases addressed : view.addressed c with
        | none =>
            refine (endsIn_deregister_of_mismatch represents ?_).2
            intro config found
            rw [addressed] at found
            cases found
        | some config =>
            dsimp only
            split
            · rename_i owner
              exact (endsIn_deregister represents keyed addressed owner.2).2
            · rename_i stranger
              refine (endsIn_deregister_of_mismatch represents ?_).2
              intro other found owner
              rw [addressed] at found
              cases found
              exact stranger ⟨clientID, owner⟩
  | idleInstancesReaper timeout order =>
      exact (endsIn_visit represents timeout order 0).2

/-- A completed call is its update of the view. -/
theorem completes_represents {mem after : Memory} {view : View} {job : RegistryJob}
    {outcome : Outcome RegistryJob RegistryOp (Option JobResult)}
    (represents : Represents mem view) (keyed : view.Keyed)
    (completes : registryMachine.Completes mem job after outcome) :
    Represents after (view.perform job) := by
  have started : mem.Started := by
    rw [Memory.Started, represents.fresh]
    exact Nat.succ_pos _
  have evaluated := congrArg Prod.snd (eval_of_completed started completes).2
  rw [show after = (job.program.eval execute mem).2 from evaluated]
  exact eval_represents represents keyed job

/-- A call of a history, with the moment at which it was made. -/
structure Call where
  job : RegistryJob
  clock : Time

/-- Sequences of completed calls, each admitted in the memory it is made in, from the
memory that `main` starts with.  Time may pass between two calls. -/
inductive History (admits : Memory → RegistryJob → Prop) : List Call → Memory → Prop where
  | start (clock : Time) : History admits [] (Memory.initial clock)
  | elapse {calls : List Call} {mem : Memory} (duration : Nat) :
      History admits calls mem → History admits calls (mem.elapse duration)
  | call {calls : List Call} {mem after : Memory} {job : RegistryJob}
      {outcome : Outcome RegistryJob RegistryOp (Option JobResult)} :
      History admits calls mem → admits mem job →
      registryMachine.Completes mem job after outcome →
      History admits (calls ++ [⟨job, mem.clock⟩]) after

/-- Every admitted call can be made, and does what it does to the view. -/
theorem History.extend {admits : Memory → RegistryJob → Prop} {calls : List Call}
    {mem : Memory} {view : View} (history : History admits calls mem)
    (represents : Represents mem view) (wellFormed : view.WellFormed)
    (job : RegistryJob) (admitted : admits mem job) :
    ∃ after, History admits (calls ++ [⟨job, mem.clock⟩]) after ∧
      Represents after (view.perform job) ∧ (view.perform job).WellFormed := by
  rcases Program.completes execute RegistryJob.program Memory.elapse mem job with
    ⟨after, outcome, completes⟩
  exact ⟨after, history.call admitted completes,
    completes_represents represents wellFormed.keyed completes, wellFormed.perform job⟩

/-- A property of the calls and the view that every admitted call keeps. -/
theorem History.represented {admits : Memory → RegistryJob → Prop} {calls : List Call}
    {mem : Memory} (history : History admits calls mem)
    (property : List Call → View → Prop)
    (initial : ∀ clock, property [] (View.initial clock))
    (elapsed : ∀ calls view duration, property calls view →
      property calls (view.elapse duration))
    (called : ∀ calls mem view job, Represents mem view → view.WellFormed →
      property calls view → admits mem job →
      property (calls ++ [⟨job, view.clock⟩]) (view.perform job)) :
    ∃ view, Represents mem view ∧ view.WellFormed ∧ property calls view := by
  induction history with
  | start clock =>
      exact ⟨View.initial clock, represents_initial clock, View.wellFormed_initial clock,
        initial clock⟩
  | elapse duration _ ih =>
      rcases ih with ⟨view, represents, wellFormed, holds⟩
      exact ⟨view.elapse duration, represents.elapse duration, wellFormed.elapse duration,
        elapsed _ _ duration holds⟩
  | @call calls mem after job outcome _ admitted completes ih =>
      rcases ih with ⟨view, represents, wellFormed, holds⟩
      refine ⟨view.perform job,
        completes_represents represents wellFormed.keyed completes,
        wellFormed.perform job, ?_⟩
      rw [represents.clock]
      exact called calls mem view job represents wellFormed holds admitted

end CloudRunSsh.Proxy
