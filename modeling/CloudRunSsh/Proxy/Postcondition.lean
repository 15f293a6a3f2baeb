import CloudRunSsh.Proxy.Histories
import CloudRunSsh.Proxy.Server

/-!
# What a completed registration leaves behind

Whichever names of the path are known already, a registration that runs alone ends in
the same way: it is found along its path and in the flat map, and nothing else of the
registry has changed.  On the view this is the update `register`; here it is read off
the maps themselves.
-/

namespace CloudRunSsh.Proxy

open CloudRunSsh.Concurrency

/-- The entry of an instance in the bucket of a revision. -/
def Memory.bucketEntry (mem : Memory) (revision id : String) :
    Option ServerlessInstance := do
  let instances ← mem.lookup revisionToInstancesMap revision
  mem.lookup instances id

/-- The registration is stored under its path and in the flat map, and everything else
is as before. -/
structure Registers (mem after : Memory) (config : ServerlessInstance) : Prop where
  found : ∃ bucket,
    after.bucketAt config.project config.region config.service config.revision =
        some bucket ∧
      after.lookup bucket config.id = some config
  flat : after.lookup instanceToConfigMap config.id = some config
  otherFlat : ∀ id, id ≠ config.id →
    after.lookup instanceToConfigMap id = mem.lookup instanceToConfigMap id
  otherEntries : ∀ revision id, ¬(revision = config.revision ∧ id = config.id) →
    after.bucketEntry revision id = mem.bucketEntry revision id
  published : ∀ revision bucket,
    mem.lookup revisionToInstancesMap revision = some bucket →
      after.lookup revisionToInstancesMap revision = some bucket
  reachable : ∀ project region service revision bucket,
    mem.bucketAt project region service revision = some bucket →
      after.bucketAt project region service revision = some bucket

section Maps

variable {mem : Memory} {view : View}

theorem Represents.bucketEntry_eq (represents : Represents mem view)
    (revision id : String) : mem.bucketEntry revision id = view.bucketEntry revision id := by
  simp only [Memory.bucketEntry, View.bucketEntry, represents.revisions,
    Option.bind_eq_bind, Option.bind_map]
  congr 1
  funext bucket
  exact represents.buckets bucket id

end Maps

section Update

variable {view : View} {config : ServerlessInstance}

/-- A registration publishes a bucket for its own revision only, and keeps the one that
is there. -/
theorem View.revisions_register (revision : String) :
    (view.register config).revisions revision =
      if revision = config.revision then
        some ((view.revisions config.revision).getD view.fresh)
      else view.revisions revision := by
  rw [View.register, View.learn_eq, View.settle]
  cases published : view.revisions config.revision with
  | some bucket =>
      by_cases own : revision = config.revision
      · subst own
        simp [Effect.apply, published]
      · simp [Effect.apply, published, own]
  | none => by_cases own : revision = config.revision <;> simp [Effect.apply, published, own]

theorem View.revisions_register_of_some {revision : String} {bucket : Nat}
    (published : view.revisions revision = some bucket) :
    (view.register config).revisions revision = some bucket := by
  rw [View.revisions_register]
  split
  · rename_i own
    rw [← own, published]
    rfl
  · exact published

/-- On the maps, `register` stores the registration and keeps everything else. -/
theorem registers_of_register {mem after : Memory} (before : Represents mem view)
    (wellFormed : view.WellFormed) (represents : Represents after (view.register config)) :
    Registers mem after config := by
  constructor
  · have own := @View.revisions_register view config config.revision
    rw [if_pos rfl] at own
    have names : ∀ level : Level,
        (view.register config).known level (level.key config) = true :=
      View.known_register_own
    have entry := View.bucketEntry_register_own view config
    rw [View.bucketEntry, own, Option.bind_some] at entry
    refine ⟨_, represents.bucketAt_eq_some.mpr
      ⟨⟨names .project, names .region, names .service⟩, _, own, rfl⟩, ?_⟩
    rw [represents.buckets]
    exact entry
  · rw [represents.flat, View.flat_register, Function.update_self]
  · intro id different
    rw [represents.flat, before.flat, View.flat_register, Function.update_of_ne different]
  · intro revision id other
    rw [represents.bucketEntry_eq, before.bucketEntry_eq, View.bucketEntry_register wellFormed,
      if_neg other]
  · intro revision instances published
    obtain ⟨bucket, stored, rfl⟩ := before.lookup_revisions.mp published
    exact represents.lookup_revisions.mpr
      ⟨bucket, View.revisions_register_of_some stored, rfl⟩
  · intro project region service revision instances reached
    obtain ⟨⟨project, region, service⟩, bucket, published, rfl⟩ :=
      before.bucketAt_eq_some.mp reached
    exact represents.bucketAt_eq_some.mpr
      ⟨⟨View.known_register.mpr (.inl project), View.known_register.mpr (.inl region),
        View.known_register.mpr (.inl service)⟩,
        bucket, View.revisions_register_of_some published, rfl⟩

end Update

/-- A registration without a client id does nothing. -/
theorem addInstance_without_client {mem after : Memory} {c : Context}
    {outcome : Outcome RegistryJob RegistryOp (Option JobResult)}
    (started : mem.Started) (missing : c.getHeader xServerlessSSHClientID = "")
    (completes : registryMachine.Completes mem (.addInstance c) after outcome) :
    after = mem := by
  have evaluated := congrArg Prod.snd (eval_of_completed started completes).2
  rw [start_program] at evaluated
  simp only [Stage.start, Stage.entry, missing, if_true] at evaluated
  rw [show after = _ from evaluated]
  cases getProxyConfig c <;> rfl

/-- In every state that completed calls lead to, a registration that completes stores
what it built, and changes nothing else.  Without a client id nothing is built. -/
theorem addInstance_registers {calls : List Call} {mem after : Memory} {c : Context}
    {outcome : Outcome RegistryJob RegistryOp (Option JobResult)}
    (history : History (fun _ _ => True) calls mem)
    (completes : registryMachine.Completes mem (.addInstance c) after outcome) :
    (c.getHeader xServerlessSSHClientID ≠ "" →
      Registers mem after
        (registration c (c.getHeader xServerlessSSHClientID) mem.clock)) ∧
    (c.getHeader xServerlessSSHClientID = "" → after = mem) := by
  obtain ⟨view, before, wellFormed, _⟩ := history.represented (fun _ _ => True)
    (fun _ => trivial) (fun _ _ _ _ => trivial) fun _ _ _ _ _ _ _ _ => trivial
  constructor
  · intro clientID
    have represents := completes_represents before wellFormed.keyed completes
    simp only [View.perform, clientID, if_false] at represents
    rw [before.clock]
    exact registers_of_register before wellFormed represents
  · intro missing
    have started : mem.Started := by
      rw [Memory.Started, before.fresh]
      exact Nat.succ_pos _
    exact addInstance_without_client started missing completes

/-- Two instances of a revision: the second registration keeps the first one. -/
theorem addInstance_registers_second :
    let first := instanceContext .post "p" "r" "s" "v" "i" "t"
    let second := instanceContext .post "p" "r" "s" "v" "j" "u"
    ∃ mem after outcome,
      History (fun _ _ => True) [⟨.addInstance first, 0⟩] mem ∧
      registryMachine.Completes mem (.addInstance second) after outcome ∧
      Registers mem after (registration second "u" mem.clock) := by
  intro first second
  have start : History (fun _ _ => True) [] (Memory.initial 0) := .start 0
  obtain ⟨mem, history, _⟩ := start.extend (represents_initial 0)
    (View.wellFormed_initial 0) (.addInstance first) trivial
  rcases Program.completes execute RegistryJob.program Memory.elapse mem
    (.addInstance second) with ⟨after, outcome, completes⟩
  exact ⟨mem, after, outcome, history, completes,
    (addInstance_registers history completes).1 (by decide)⟩

end CloudRunSsh.Proxy
