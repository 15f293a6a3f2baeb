import CloudRunSsh.Proxy.Histories
import CloudRunSsh.Proxy.Server

/-!
# Expiry

The reaper walks the flat map and reaches the buckets through the revision that it
finds there.  As long as no instance is registered under a second revision while it is
still in the bucket of a first one, flat map and buckets agree, and a full pass leaves
no idle registration behind.  Without that proviso an entry can be stranded in a bucket
that no pass reaches any more.
-/

namespace CloudRunSsh.Proxy

open CloudRunSsh.Concurrency

/-- The instance that a request names is in no bucket of another revision than the one
it names. -/
def Exclusive (mem : Memory) (c : Context) : Prop :=
  ∀ revision instances, revision ≠ c.param APIPathParam.revision →
    mem.lookup revisionToInstancesMap revision = some instances →
    mem.lookup instances (c.param APIPathParam.instance) = none

/-- Calls that register no instance under a second revision. -/
def ExclusiveCalls (mem : Memory) : RegistryJob → Prop
  | .addInstance c => c.getHeader xServerlessSSHClientID ≠ "" → Exclusive mem c
  | .removeInstance _ | .idleInstancesReaper _ _ => True

/-- No registration, in the flat map or in a bucket, has been idle for the timeout. -/
structure NoneExpired (timeout : Time) (mem : Memory) : Prop where
  flat : ∀ key config, mem.lookup instanceToConfigMap key = some config →
    mem.clock - config.lastPing < timeout
  buckets : ∀ revision instances key config,
    mem.lookup revisionToInstancesMap revision = some instances →
    mem.lookup instances key = some config → mem.clock - config.lastPing < timeout

/-- What a bucket holds, on the view. -/
theorem Represents.bucketEntry {mem : Memory} {view : View}
    (represents : Represents mem view) {revision key : String}
    {config : ServerlessInstance} :
    view.bucketEntry revision key = some config ↔
      ∃ instances, mem.lookup revisionToInstancesMap revision = some instances ∧
        mem.lookup instances key = some config := by
  rw [represents.revisions]
  constructor
  · intro entry
    rcases Option.bind_eq_some_iff.mp entry with ⟨bucket, found, entry⟩
    refine ⟨bucketRef bucket, ?_, ?_⟩
    · rw [found]
      rfl
    · exact (represents.buckets bucket key).trans entry
  · rintro ⟨instances, found, entry⟩
    rcases Option.map_eq_some_iff.mp found with ⟨bucket, published, rfl⟩
    rw [View.bucketEntry, published]
    exact (represents.buckets bucket key).symm.trans entry

theorem Exclusive.bucketEntry {mem : Memory} {view : View} {c : Context}
    (exclusive : Exclusive mem c) (represents : Represents mem view) {revision : String}
    (other : revision ≠ c.param APIPathParam.revision) :
    view.bucketEntry revision (c.param APIPathParam.instance) = none := by
  cases entry : view.bucketEntry revision (c.param APIPathParam.instance) with
  | none => rfl
  | some config =>
      rcases represents.bucketEntry.mp entry with ⟨instances, found, stored⟩
      rw [exclusive revision instances other found] at stored
      cases stored

namespace View

variable {view : View} (timeout : Time)

/-- The reaper's step on one key keeps the agreement, adds nothing to the flat map, and
leaves nothing idle at that key. -/
theorem Coherent.reap (coherent : view.Coherent) (wellFormed : view.WellFormed)
    (key : String) :
    (view.reap timeout key).Coherent ∧ (view.reap timeout key).clock = view.clock ∧
      ∀ id config, (view.reap timeout key).flat id = some config →
        view.flat id = some config ∧
          (id = key → view.clock - config.lastPing < timeout) := by
  rw [View.reap]
  split
  · rename_i config found
    split
    · rename_i expired
      have own : config.id = key := wellFormed.flat key config found
      have entry : view.bucketEntry config.revision key = some config :=
        (coherent _ _ _).mpr ⟨found, rfl⟩
      rw [own]
      refine ⟨coherent.unregister wellFormed _ _, clock_unregister _ _, ?_⟩
      intro id other left
      rw [flat_unregister wellFormed.keyed, entry, Option.isSome_some, if_pos rfl,
        Function.update_apply] at left
      split at left
      · cases left
      · rename_i different
        exact ⟨left, fun same => absurd same different⟩
    · rename_i recent
      refine ⟨coherent, rfl, ?_⟩
      intro id other left
      refine ⟨left, ?_⟩
      rintro rfl
      rw [found] at left
      cases left
      exact Int.not_le.mp recent
  · rename_i missing
    refine ⟨coherent, rfl, ?_⟩
    intro id other left
    refine ⟨left, ?_⟩
    rintro rfl
    rw [missing] at left
    cases left

/-- A pass keeps the agreement, adds nothing to the flat map, and leaves nothing idle at
the keys it visits. -/
theorem Coherent.sweep (coherent : view.Coherent) (wellFormed : view.WellFormed)
    (keys : List String) :
    (view.sweep timeout keys).Coherent ∧ (view.sweep timeout keys).clock = view.clock ∧
      ∀ id config, (view.sweep timeout keys).flat id = some config →
        view.flat id = some config ∧
          (id ∈ keys → view.clock - config.lastPing < timeout) := by
  induction keys generalizing view with
  | nil =>
      refine ⟨coherent, rfl, ?_⟩
      intro id config left
      exact ⟨left, fun member => absurd member List.not_mem_nil⟩
  | cons key keys ih =>
      have first := coherent.reap timeout wellFormed key
      have later := ih first.1 (wellFormed.reap timeout key)
      refine ⟨later.1, later.2.1.trans first.2.1, ?_⟩
      intro id config left
      have kept := later.2.2 id config left
      have before := first.2.2 id config kept.1
      refine ⟨before.1, ?_⟩
      intro member
      rcases List.mem_cons.mp member with same | member
      · exact before.2 same
      · rw [← first.2.1]
        exact kept.2 member

end View

/-- In a history that registers no instance under a second revision, flat map and
buckets agree. -/
theorem History.coherent {calls : List Call} {mem : Memory}
    (history : History ExclusiveCalls calls mem) :
    ∃ view, Represents mem view ∧ view.WellFormed ∧ view.Coherent := by
  apply history.represented fun _ view => view.Coherent
  · exact View.coherent_initial
  · intro calls view duration coherent
    exact coherent
  · intro calls mem view job represents wellFormed coherent admitted
    cases job with
    | addInstance c =>
        simp only [View.perform]
        split
        · exact coherent
        · rename_i clientID
          apply coherent.register wellFormed
          intro revision other
          exact (admitted clientID).bucketEntry represents other
    | removeInstance c =>
        simp only [View.perform]
        split
        · split
          · exact coherent.unregister wellFormed _ _
          · exact coherent
        · exact coherent
    | idleInstancesReaper timeout order => exact (coherent.sweep timeout wellFormed order).1

/-- Expiry is complete: after a full pass of the reaper no idle registration remains
anywhere, in every history that registers no instance under a second revision while it
is in the bucket of another one. -/
theorem reaper_complete {calls : List Call} {mem after : Memory} {timeout : Time}
    {order : List String}
    {outcome : Outcome RegistryJob RegistryOp (Option JobResult)}
    (history : History ExclusiveCalls calls mem)
    (full : ∀ key config, mem.lookup instanceToConfigMap key = some config → key ∈ order)
    (completes : registryMachine.Completes mem (.idleInstancesReaper timeout order) after
      outcome) :
    NoneExpired timeout after := by
  rcases history.coherent with ⟨view, represents, wellFormed, coherent⟩
  have swept := coherent.sweep timeout wellFormed order
  have represented := completes_represents represents wellFormed.keyed completes
  have flat : ∀ key config, (view.sweep timeout order).flat key = some config →
      after.clock - config.lastPing < timeout := by
    intro key config left
    have kept := swept.2.2 key config left
    have listed : key ∈ order := by
      apply full key config
      rw [represents.flat]
      exact kept.1
    rw [represented.clock]
    exact lt_of_eq_of_lt (congrArg (· - config.lastPing) swept.2.1) (kept.2 listed)
  constructor
  · intro key config found
    rw [represented.flat] at found
    exact flat key config found
  · intro revision instances key config published found
    have entry := represented.bucketEntry.mpr ⟨instances, published, found⟩
    exact flat key config ((swept.1 _ _ _).mp entry).1

/-- A registration, a pause of the maximal idle time, another registration, and a full pass, which
takes the first registration and leaves the second. -/
theorem reaper_complete_pair :
    let expired : ServerlessInstance := ⟨"p", "r", "s", "v", "i", "t", 0⟩
    let recent : ServerlessInstance := ⟨"p", "r", "s", "v", "j", "u", 900000000000⟩
    ∃ mem after outcome,
      History ExclusiveCalls
        [⟨.addInstance (instanceContext .post "p" "r" "s" "v" "i" "t"), 0⟩,
          ⟨.addInstance (instanceContext .post "p" "r" "s" "v" "j" "u"), 900000000000⟩] mem ∧
      (mem.lookup instanceToConfigMap "i" = some expired ∧
        mem.lookup instanceToConfigMap "j" = some recent ∧ ¬NoneExpired maxIdleTimeout mem) ∧
      registryMachine.Completes mem (.idleInstancesReaper maxIdleTimeout ["j", "i"]) after
        outcome ∧
      NoneExpired maxIdleTimeout after ∧ after.lookup instanceToConfigMap "i" = none ∧
        after.lookup instanceToConfigMap "j" = some recent := by
  intro expired recent
  rcases (History.start 0).extend (represents_initial 0) (View.wellFormed_initial 0)
    (.addInstance (instanceContext .post "p" "r" "s" "v" "i" "t"))
    (show ExclusiveCalls _ _ from fun _ _ _ _ found => by cases found)
    with ⟨first, history, represents, wellFormed⟩
  have exclusive : ExclusiveCalls (first.elapse 900000000000)
      (.addInstance (instanceContext .post "p" "r" "s" "v" "j" "u")) := by
    intro _ revision instances other published
    rw [(represents.elapse 900000000000).revisions] at published
    change Option.map bucketRef (Function.update (fun _ => none) "v" (some 0) revision) = _
      at published
    rw [Function.update_of_ne (show revision ≠ "v" from other)] at published
    cases published
  rcases (history.elapse 900000000000).extend (represents.elapse _) (wellFormed.elapse _) _ exclusive
    with ⟨mem, history, represents', wellFormed⟩
  rw [show (first.elapse 900000000000).clock = 900000000000 from
    (represents.elapse 900000000000).clock] at history
  rcases Program.completes execute RegistryJob.program Memory.elapse mem
    (.idleInstancesReaper maxIdleTimeout ["j", "i"]) with ⟨after, outcome, completes⟩
  have swept := completes_represents represents' wellFormed.keyed completes
  refine ⟨mem, after, outcome, history, ⟨represents'.flat "i", represents'.flat "j", ?_⟩, completes,
    reaper_complete history ?_ completes, swept.flat "i", swept.flat "j"⟩
  · intro noneExpired
    have alive := noneExpired.flat "i" expired (represents'.flat "i")
    rw [represents'.clock] at alive
    exact absurd alive (by decide)
  · intro key config found
    have listed := (represents'.flat key).symm.trans found
    change Function.update (Function.update (fun _ => none) "i" _) "j" _ key = some config at listed
    simp only [Function.update_apply] at listed
    split at listed
    · subst key
      exact List.mem_cons_self
    · split at listed
      · subst key
        exact List.mem_cons_of_mem _ List.mem_cons_self
      · cases listed

/-- An instance registered under two revisions, one after the other, leaves an idle
registration behind in the bucket of the first revision. -/
theorem reaper_strands_registration :
    let first := RegistryJob.addInstance (instanceContext .post "p" "r" "s" "v1" "i" "t")
    let second := RegistryJob.addInstance (instanceContext .post "p" "r" "s" "v2" "i" "t")
    ∃ mem after outcome,
      History (fun _ _ => True) [⟨first, 0⟩, ⟨second, 0⟩] mem ∧
      (∀ key config, mem.lookup instanceToConfigMap key = some config → key ∈ ["i"]) ∧
      registryMachine.Completes mem (.idleInstancesReaper maxIdleTimeout ["i"]) after
        outcome ∧
      ¬NoneExpired maxIdleTimeout after := by
  intro first second
  have start : History (fun _ _ => True) [] (Memory.initial 0) := .start 0
  rcases start.extend (represents_initial 0) (View.wellFormed_initial 0) first trivial
    with ⟨mem, history, represents, wellFormed⟩
  rcases history.extend represents wellFormed second trivial
    with ⟨mem', history, represents', wellFormed⟩
  rw [show mem.clock = 0 from represents.clock] at history
  rcases Program.completes execute RegistryJob.program Memory.elapse
    (mem'.elapse 900000000000) (.idleInstancesReaper maxIdleTimeout ["i"])
    with ⟨after, outcome, completes⟩
  have represented := completes_represents (represents'.elapse 900000000000)
    (wellFormed.elapse _).keyed completes
  refine ⟨_, after, outcome, history.elapse 900000000000, ?_, completes, ?_⟩
  · intro key config found
    have listed := (represents'.flat key).symm.trans found
    change Function.update (Function.update (fun _ => none) "i" _) "i" _ key =
      some config at listed
    rw [Function.update_idem, Function.update_apply] at listed
    split at listed
    · subst key
      exact List.mem_cons_self
    · cases listed
  · intro noneExpired
    have stranded := @Represents.bucketEntry _ _ represented "v1" "i"
      ⟨"p", "r", "s", "v1", "i", "t", 0⟩
    rcases stranded.mp rfl with ⟨instances, published, found⟩
    have recent := noneExpired.buckets _ _ _ _ published found
    rw [represented.clock] at recent
    exact absurd recent (by decide)

end CloudRunSsh.Proxy
