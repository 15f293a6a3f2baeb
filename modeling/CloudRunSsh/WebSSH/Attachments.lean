import CloudRunSsh.WebSSH.Dictionaries

/-!
# Attachments of the web terminal

What a trace of the event loop tells about its workers.  A WebSocket claims a worker at
most once, from the address that the worker was created for, and only while the worker is
open.
-/

namespace CloudRunSsh.WebSSH

open CloudRunSsh.Concurrency

/-- What a reaction does to the worker of an id. -/
def Reaction.worker (id : String) (before : Option Worker) : Reaction → Option Worker
  | .registered created srcAddr => if id = created then some { srcAddr } else before
  | .attached claimed srcAddr =>
      if id = claimed then before.map fun worker => worker.setHandler srcAddr else before
  | .closed gone | .crashed gone _ =>
      if id = gone then before.map fun worker => { worker with closed := true } else before
  | .refused | .connecting | .failed | .rejected | .ignored => before

theorem workers_getOrNew (server : Server) (ip : String) :
    (server.getOrNew ip).2.workers = server.workers := by
  rw [Server.getOrNew]
  split <;> rfl

theorem posts_getOrNew (server : Server) (ip : String) :
    (server.getOrNew ip).2.posts = server.posts := by
  rw [Server.getOrNew]
  split <;> rfl

theorem Handled.workers {server after : Server} {callback : Callback} {reaction : Reaction}
    (handled : Handled server callback after reaction) (query : String) :
    after.workers.lookup query = reaction.worker query (server.workers.lookup query) := by
  cases handled with
  | refused =>
      rw [workers_getOrNew]
      rfl
  | connecting =>
      dsimp only
      rw [workers_getOrNew]
      rfl
  | failed => rfl
  | registered _ => exact workers_register query
  | rejected => rfl
  | attached _ _ exists' =>
      rw [workers_attach, Reaction.worker]
      split
      · rename_i same
        rw [same, exists']
        rfl
      · rfl
  | ignored timers => rfl
  | closed timers exists' _ _ _ =>
      rw [workers_remove, Reaction.worker]
      split
      · rename_i same
        rw [same, exists']
        rfl
      · rfl
  | crashed timers exists' _ _ =>
      refine (Dict.lookup_insert _ _ _ _).trans ?_
      rw [Reaction.worker]
      split
      · rename_i same
        rw [same, exists']
        rfl
      · rfl

/-- What never changes back in the life of a worker. -/
structure Worker.Becomes (worker later : Worker) : Prop where
  srcAddr : later.srcAddr = worker.srcAddr
  handler : worker.handler ≠ none → later.handler ≠ none
  closed : worker.closed = true → later.closed = true

theorem Worker.becomes_setHandler (worker : Worker) (handler : Addr) :
    worker.Becomes (worker.setHandler handler) := by
  constructor
  · exact worker.setHandler_srcAddr handler
  · exact fun _ => worker.setHandler_handler handler
  · exact (worker.setHandler_closed handler).trans

/-- A worker stays, whatever happens. -/
theorem Handled.becomes {server after : Server} {callback : Callback} {reaction : Reaction}
    (handled : Handled server callback after reaction) (fresh : FreshIds server callback)
    {id : String} {worker : Worker} (exists' : server.workers.lookup id = some worker) :
    ∃ later, after.workers.lookup id = some later ∧ worker.Becomes later := by
  have same : worker.Becomes worker := ⟨rfl, fun attached => attached, fun closed => closed⟩
  rw [handled.workers, exists']
  cases reaction with
  | registered created srcAddr =>
      cases handled with
      | @registered index post created found =>
          rw [Reaction.worker, if_neg]
          · exact ⟨worker, rfl, same⟩
          · rintro rfl
            rw [(fresh index id rfl).2] at exists'
            cases exists'
  | attached claimed srcAddr =>
      rw [Reaction.worker]
      split
      · exact ⟨_, rfl, worker.becomes_setHandler srcAddr⟩
      · exact ⟨worker, rfl, same⟩
  | closed gone =>
      rw [Reaction.worker]
      split
      · exact ⟨_, rfl, rfl, fun attached => attached, fun _ => rfl⟩
      · exact ⟨worker, rfl, same⟩
  | crashed gone fault =>
      rw [Reaction.worker]
      split
      · exact ⟨_, rfl, rfl, fun attached => attached, fun _ => rfl⟩
      · exact ⟨worker, rfl, same⟩
  | refused => exact ⟨worker, rfl, same⟩
  | connecting => exact ⟨worker, rfl, same⟩
  | failed => exact ⟨worker, rfl, same⟩
  | rejected => exact ⟨worker, rfl, same⟩
  | ignored => exact ⟨worker, rfl, same⟩

/-- What a trace tells about the workers and the requests in flight after it. -/
structure Recorded (trace : List (Callback × Reaction)) (server : Server) : Prop where
  attached : ∀ callback id srcAddr, (callback, .attached id srcAddr) ∈ trace →
    ∃ worker, server.workers.lookup id = some worker ∧ worker.handler ≠ none
  closed : ∀ callback id, (callback, .closed id) ∈ trace →
    ∃ worker, server.workers.lookup id = some worker ∧ worker.closed = true
  crashed : ∀ callback id fault, (callback, .crashed id fault) ∈ trace →
    ∃ worker, server.workers.lookup id = some worker ∧ worker.closed = true
  registered : ∀ callback id srcAddr, (callback, .registered id srcAddr) ∈ trace →
    ∃ worker, server.workers.lookup id = some worker ∧ worker.srcAddr = srcAddr
  created : ∀ id worker, server.workers.lookup id = some worker →
    (.postStart worker.srcAddr true, .connecting) ∈ trace ∧
      ∃ index, (.postDone index (some id), .registered id worker.srcAddr) ∈ trace
  waiting : ∀ post ∈ server.posts, (.postStart post.srcAddr true, .connecting) ∈ trace

theorem recorded_initial : Recorded [] Server.initial := by
  constructor
  · exact fun _ _ _ member => absurd member List.not_mem_nil
  · exact fun _ _ member => absurd member List.not_mem_nil
  · exact fun _ _ _ member => absurd member List.not_mem_nil
  · exact fun _ _ _ member => absurd member List.not_mem_nil
  · intro id worker exists'
    cases exists'
  · exact fun _ member => absurd member List.not_mem_nil

/-- A worker that was there before is the one of before, or was changed. -/
theorem Handled.worker_before {server after : Server} {callback : Callback}
    {reaction : Reaction} (handled : Handled server callback after reaction)
    {id : String} {later : Worker} (exists' : after.workers.lookup id = some later) :
    (∃ worker, server.workers.lookup id = some worker ∧ later.srcAddr = worker.srcAddr) ∨
      ∃ index post, server.posts[index]? = some post ∧ callback = .postDone index (some id) ∧
        reaction = .registered id post.srcAddr ∧ later = { srcAddr := post.srcAddr } := by
  rw [handled.workers] at exists'
  have changed : ∀ {change : Worker → Worker},
      (server.workers.lookup id).map change = some later →
      (∀ worker, (change worker).srcAddr = worker.srcAddr) →
      ∃ worker, server.workers.lookup id = some worker ∧ later.srcAddr = worker.srcAddr := by
    intro change found kept
    rcases Option.map_eq_some_iff.mp found with ⟨worker, old, rfl⟩
    exact ⟨worker, old, kept worker⟩
  cases reaction with
  | registered created srcAddr =>
      rw [Reaction.worker] at exists'
      split at exists'
      · rename_i same
        subst same
        cases exists'
        cases handled with
        | registered found => exact .inr ⟨_, _, found, rfl, rfl, rfl⟩
      · exact .inl ⟨later, exists', rfl⟩
  | attached claimed srcAddr =>
      rw [Reaction.worker] at exists'
      split at exists'
      · exact .inl (changed exists' fun worker => worker.setHandler_srcAddr srcAddr)
      · exact .inl ⟨later, exists', rfl⟩
  | closed gone =>
      rw [Reaction.worker] at exists'
      split at exists'
      · exact .inl (changed exists' fun _ => rfl)
      · exact .inl ⟨later, exists', rfl⟩
  | crashed gone fault =>
      rw [Reaction.worker] at exists'
      split at exists'
      · exact .inl (changed exists' fun _ => rfl)
      · exact .inl ⟨later, exists', rfl⟩
  | refused => exact .inl ⟨later, exists', rfl⟩
  | connecting => exact .inl ⟨later, exists', rfl⟩
  | failed => exact .inl ⟨later, exists', rfl⟩
  | rejected => exact .inl ⟨later, exists', rfl⟩
  | ignored => exact .inl ⟨later, exists', rfl⟩

/-- A request in flight was so before, or has just been accepted. -/
theorem Handled.post_before {server after : Server} {callback : Callback}
    {reaction : Reaction} (handled : Handled server callback after reaction) {post : Post}
    (member : post ∈ after.posts) : post ∈ server.posts ∨
      callback = .postStart post.srcAddr true ∧ reaction = .connecting := by
  cases handled with
  | refused =>
      rw [posts_getOrNew] at member
      exact .inl member
  | connecting =>
      dsimp only at member
      rw [posts_getOrNew] at member
      rcases List.mem_append.mp member with old | new
      · exact .inl old
      · rw [List.mem_singleton.mp new]
        exact .inr ⟨rfl, rfl⟩
  | failed => exact .inl (List.mem_of_mem_eraseIdx member)
  | registered _ =>
      rw [posts_register] at member
      exact .inl (List.mem_of_mem_eraseIdx member)
  | rejected => exact .inl member
  | attached _ _ _ => exact .inl member
  | ignored timers => exact .inl member
  | closed timers _ _ _ _ =>
      rw [rest_remove.1] at member
      exact .inl member
  | crashed timers _ _ _ => exact .inl member

theorem Recorded.handled {trace : List (Callback × Reaction)} {server after : Server}
    {callback : Callback} {reaction : Reaction} (recorded : Recorded trace server)
    (fresh : FreshIds server callback) (handled : Handled server callback after reaction) :
    Recorded (trace ++ [(callback, reaction)]) after := by
  have split : ∀ {record}, record ∈ trace ++ [(callback, reaction)] →
      record ∈ trace ∨ record = (callback, reaction) := by
    intro record member
    rcases List.mem_append.mp member with old | new
    · exact .inl old
    · exact .inr (List.mem_singleton.mp new)
  have old : ∀ {record}, record ∈ trace → record ∈ trace ++ [(callback, reaction)] :=
    fun member => List.mem_append_left _ member
  have new : (callback, reaction) ∈ trace ++ [(callback, reaction)] :=
    List.mem_append_right _ (List.mem_singleton_self _)
  -- what was known of a worker is known of what it becomes
  have later : ∀ {id} {known : Worker → Prop},
      (∀ {worker later}, known worker → worker.Becomes later → known later) →
      (∃ worker, server.workers.lookup id = some worker ∧ known worker) →
      ∃ worker, after.workers.lookup id = some worker ∧ known worker := by
    intro id known kept before
    rcases before with ⟨worker, exists', holds⟩
    rcases handled.becomes fresh exists' with ⟨next, found, becomes⟩
    exact ⟨next, found, kept holds becomes⟩
  constructor
  · intro callback' id srcAddr member
    rcases split member with before | same
    · exact later (fun holds becomes => becomes.handler holds)
        (recorded.attached callback' id srcAddr before)
    · cases same
      rw [handled.workers, Reaction.worker, if_pos rfl]
      cases handled with
      | @attached _ _ _ worker _ _ exists' =>
          rw [exists']
          exact ⟨_, rfl, worker.setHandler_handler srcAddr⟩
  · intro callback' id member
    rcases split member with before | same
    · exact later (fun holds becomes => becomes.closed holds)
        (recorded.closed callback' id before)
    · cases same
      rw [handled.workers, Reaction.worker, if_pos rfl]
      cases handled with
      | closed timers exists' _ _ _ =>
          rw [exists']
          exact ⟨_, rfl, rfl⟩
  · intro callback' id fault member
    rcases split member with before | same
    · exact later (fun holds becomes => becomes.closed holds)
        (recorded.crashed callback' id fault before)
    · cases same
      rw [handled.workers, Reaction.worker, if_pos rfl]
      cases handled with
      | crashed timers exists' _ _ =>
          rw [exists']
          exact ⟨_, rfl, rfl⟩
  · intro callback' id srcAddr member
    rcases split member with before | same
    · exact later (fun holds becomes => becomes.srcAddr.trans holds)
        (recorded.registered callback' id srcAddr before)
    · cases same
      rw [handled.workers, Reaction.worker, if_pos rfl]
      exact ⟨_, rfl, rfl⟩
  · intro id worker exists'
    rcases handled.worker_before exists' with ⟨before, found, same⟩ |
      ⟨index, post, waiting, called, reacted, created⟩
    · rcases recorded.created id before found with ⟨started, index, registered⟩
      rw [same]
      exact ⟨old started, index, old registered⟩
    · rw [created]
      refine ⟨old (recorded.waiting post (List.mem_of_getElem? waiting)), index, ?_⟩
      rw [← called, ← reacted]
      exact new
  · intro post member
    rcases handled.post_before member with before | ⟨called, reacted⟩
    · exact old (recorded.waiting post before)
    · rw [← called, ← reacted]
      exact new

theorem recorded_of_traces {maxconn : Int} {trace : List (Callback × Reaction)}
    {server : Server} (traces : (eventLoop maxconn).Traces FreshIds trace server) :
    Recorded trace server := by
  apply traces.invariant recorded_initial
  intro trace server after callback reaction reached recorded fresh reacted
  rcases coherent_of_traces reached with ⟨owner, coherent⟩
  exact recorded.handled fresh (handled_of_react coherent reacted)

/-- The claim of a worker by the WebSocket of an address: what the callback presents, and
what was handled before it. -/
structure Claim (before : List (Callback × Reaction)) (callback : Callback) (id : String)
    (srcAddr : Addr) : Prop where
  presented : callback = .wsockOpen srcAddr (some id)
  unattached : ∀ earlier other, (earlier, .attached id other) ∉ before
  unclosed : ∀ earlier, (earlier, .closed id) ∉ before
  uncrashed : ∀ earlier fault, (earlier, .crashed id fault) ∉ before
  client : ∀ earlier owner, (earlier, .registered id owner) ∈ before → owner.1 = srcAddr.1
  created : ∃ owner index, (.postStart owner true, .connecting) ∈ before ∧
    (.postDone index (some id), .registered id owner) ∈ before

/-- A WebSocket is only ever attached to a worker that is open and has none, from the
address that the worker belongs to. -/
theorem Coherent.claim {owner : Nat → String} {trace : List (Callback × Reaction)}
    {server after : Server} {callback : Callback} {id : String} {srcAddr : Addr}
    (coherent : Coherent owner server) (recorded : Recorded trace server)
    (handled : Handled server callback after (.attached id srcAddr)) :
    Claim trace callback id srcAddr := by
  cases handled with
  | @attached _ workers _ worker registered entry exists' =>
      have present : server.entry workers id ≠ none := by
        rw [entry]
        nofun
      have waiting : worker.handler = none :=
        (coherent.unclaimed workers id id worker entry exists').2
      have opened : worker.closed = false :=
        coherent.unclosed srcAddr.1 workers id id worker registered entry exists'
      have client : worker.srcAddr.1 = srcAddr.1 := by
        rcases coherent.exists_worker workers id present with ⟨old, found, own⟩
        cases exists'.symm.trans found
        exact own.trans (coherent.clients srcAddr.1 workers registered).1
      -- what the trace knows of the worker is known of this one
      have known : ∀ {property : Worker → Prop},
          (∃ worker, server.workers.lookup id = some worker ∧ property worker) →
          property worker := by
        intro property before
        rcases before with ⟨old, found, holds⟩
        cases exists'.symm.trans found
        exact holds
      constructor
      · rfl
      · intro earlier other member
        exact known (recorded.attached earlier id other member) waiting
      · intro earlier member
        have closed := known (recorded.closed earlier id member)
        rw [opened] at closed
        cases closed
      · intro earlier fault member
        have closed := known (recorded.crashed earlier id fault member)
        rw [opened] at closed
        cases closed
      · intro earlier created member
        rw [← known (recorded.registered earlier id created member)]
        exact client
      · rcases recorded.created id worker exists' with ⟨started, index, done⟩
        exact ⟨worker.srcAddr, index, started, done⟩

/-- In every run in which ids are distinct, every WebSocket that is attached to a worker
is the first one, comes from the client whose POST created the worker, and comes before
the worker is closed. -/
theorem attached_once_by_owner {maxconn : Int} {trace : List (Callback × Reaction)}
    {server : Server} (traces : (eventLoop maxconn).Traces FreshIds trace server) :
    ∀ before callback id srcAddr rest,
      trace = before ++ (callback, .attached id srcAddr) :: rest →
      Claim before callback id srcAddr := by
  have every : ∀ before record rest, trace = before ++ record :: rest →
      ∀ id srcAddr, record.2 = .attached id srcAddr → Claim before record.1 id srcAddr := by
    refine traces.at_every_step ?_
    intro before server after callback reaction reached _ reacted id srcAddr attached
    rcases coherent_of_traces reached with ⟨owner, coherent⟩
    cases attached
    exact coherent.claim (recorded_of_traces reached) (handled_of_react coherent reacted)
  intro before callback id srcAddr rest split
  exact every before (callback, .attached id srcAddr) rest split id srcAddr rfl

/-- A worker is created, claimed by the client that created it, and not claimed again. -/
theorem attached_once_by_owner_twice_presented :
    ∃ trace server,
      (eventLoop 20).Traces FreshIds trace server ∧
        trace.map Prod.snd = [.connecting, .registered "worker" ("10.0.0.1", 4001),
          .rejected, .attached "worker" ("10.0.0.1", 4002), .rejected, .closed "worker"] ∧
        Claim (trace.take 3) (.wsockOpen ("10.0.0.1", 4002) (some "worker")) "worker"
          ("10.0.0.1", 4002) := by
  have ran : (eventLoop 20).run (fun server callback => decide (FreshIds server callback)) []
      Server.initial
      [.postStart ("10.0.0.1", 4001) true, .postDone 0 (some "worker"),
        .wsockOpen ("10.0.0.2", 4002) (some "worker"),
        .wsockOpen ("10.0.0.1", 4002) (some "worker"),
        .wsockOpen ("10.0.0.1", 4003) (some "worker"), .close "worker"] = some (_, _) := rfl
  have traces := (Reactor.traces_of_run .start ran).mono fun _ _ => of_decide_eq_true
  exact ⟨_, _, traces, rfl, attached_once_by_owner traces _ _ _ _ _ rfl⟩

end CloudRunSsh.WebSSH
