import CloudRunSsh.WebSSH.Attachments

/-!
# Registered workers of the web terminal

A worker that is not closed can be found under the address of its client, as long as no
connection that was made displaces the dictionary of that address.
-/

namespace CloudRunSsh.WebSSH

open CloudRunSsh.Concurrency

/-- A worker is stored in the dictionary of its address that is in `clients`, or none is
there. -/
def Undisplaced (server : Server) : Callback → Prop
  | .postDone index (some _) => ∀ post ∈ server.posts[index]?,
      server.clients.lookup post.srcAddr.1 = none ∨
        server.clients.lookup post.srcAddr.1 = some post.workers
  | .postDone _ none | .postStart _ _ | .wsockOpen _ _ | .recycle _ | .close _ => True

instance (server : Server) : (callback : Callback) → Decidable (Undisplaced server callback)
  | .postDone index (some _) => by
      rw [Undisplaced]
      infer_instance
  | .postDone _ none => .isTrue trivial
  | .postStart _ _ => .isTrue trivial
  | .wsockOpen _ _ => .isTrue trivial
  | .recycle _ => .isTrue trivial
  | .close _ => .isTrue trivial

/-- What a registry offers for a worker that is not closed. -/
structure Registered (server : Server) : Prop where
  keyed : ∀ id worker, server.workers.lookup id = some worker → worker.closed = false →
    ∃ workers, server.clients.lookup worker.srcAddr.1 = some workers ∧
      server.entry workers id ≠ none
  claimable : ∀ id worker port, server.workers.lookup id = some worker →
    worker.closed = false → worker.handler = none →
    (wsockOpen server (worker.srcAddr.1, port) (some id)).2 =
      .attached id (worker.srcAddr.1, port)
  closes : ∀ id worker, server.workers.lookup id = some worker → worker.closed = false →
    (close server id worker).2 = .closed id

/-- What holds as long as no dictionary was displaced. -/
structure Kept (server : Server) : Prop where
  named : server.workers.lookup "" = none
  listed : ∀ id worker, server.workers.lookup id = some worker → worker.closed = false →
    ∃ workers value, server.entry workers id = some value ∧
      (worker.handler = none → value = some id)
  registered : ∀ workers id worker, server.entry workers id ≠ none →
    server.workers.lookup id = some worker →
    worker.closed = false ∧ server.clients.lookup worker.srcAddr.1 = some workers
  filled : ∀ ip workers, server.clients.lookup ip = some workers →
    ∃ id, server.entry workers id ≠ none

theorem kept_initial : Kept Server.initial := by
  constructor
  · rfl
  · intro id worker exists'
    cases exists'
  · intro workers id worker present
    exact absurd rfl present
  · intro ip workers registered
    cases registered

/-- An open worker is in the dictionary of its address. -/
theorem Kept.keyed {server : Server} (kept : Kept server) {id : String} {worker : Worker}
    (exists' : server.workers.lookup id = some worker) (opened : worker.closed = false) :
    ∃ workers value, server.clients.lookup worker.srcAddr.1 = some workers ∧
      server.entry workers id = some value ∧ (worker.handler = none → value = some id) := by
  rcases kept.listed id worker exists' opened with ⟨workers, value, entry, waiting⟩
  have present : server.entry workers id ≠ none := by
    rw [entry]
    nofun
  exact ⟨workers, value, (kept.registered workers id worker present exists').2, entry, waiting⟩

/-- A worker that waits in the dictionary of an address is claimed from there. -/
theorem wsockOpen_of_waiting {server : Server} {srcAddr : Addr} {workers : Nat} {id : String}
    {worker : Worker} (registered : server.clients.lookup srcAddr.1 = some workers)
    (entry : server.entry workers id = some (some id)) (named : id ≠ "")
    (exists' : server.workers.lookup id = some worker) :
    (wsockOpen server srcAddr (some id)).2 = .attached id srcAddr := by
  have filled : server.size workers ≠ 0 := by
    intro empty
    rw [Server.size_eq_zero.mp empty id] at entry
    cases entry
  have found : ((server.dicts workers).lookup id).join = some id :=
    Option.join_eq_some_iff.mpr entry
  have left : (server.setDict workers ((server.dicts workers).insert id none)).workers.lookup id =
      some worker := exists'
  simp only [wsockOpen, registered, if_neg filled, if_neg named, found, left]

theorem Kept.registered_of {server : Server} (kept : Kept server) : Registered server := by
  constructor
  · intro id worker exists' opened
    rcases kept.keyed exists' opened with ⟨workers, value, registered, entry, _⟩
    refine ⟨workers, registered, ?_⟩
    rw [entry]
    nofun
  · intro id worker port exists' opened waiting
    rcases kept.keyed exists' opened with ⟨workers, value, registered, entry, same⟩
    rw [same waiting] at entry
    have named : id ≠ "" := by
      rintro rfl
      rw [kept.named] at exists'
      cases exists'
    exact wsockOpen_of_waiting registered entry named exists'
  · intro id worker exists' opened
    rcases kept.keyed exists' opened with ⟨workers, value, registered, entry, _⟩
    rcases close_cases server id worker with ⟨closed, _⟩ |
      ⟨_, ⟨_, _, _, removed⟩ | ⟨missing, _⟩⟩
    · rw [opened] at closed
      cases closed
    · rw [removed]
    · rw [missing workers registered] at entry
      cases entry

section Steps

variable {owner : Nat → String} {server after : Server}

/-- Requests in flight, timers and unused dictionaries do not matter. -/
theorem Kept.congr (kept : Kept server) (clients : after.clients = server.clients)
    (dicts : after.dicts = server.dicts) (workers : after.workers = server.workers) :
    Kept after := by
  have entries : after.entry = server.entry := by
    funext table id
    rw [Server.entry, dicts]
    rfl
  constructor
  · rw [workers]
    exact kept.named
  · rw [workers, entries]
    exact kept.listed
  · rw [workers, entries, clients]
    exact kept.registered
  · rw [entries, clients]
    exact kept.filled

theorem Kept.getOrNew (kept : Kept server) (ip : String) : Kept (server.getOrNew ip).2 := by
  rw [Server.getOrNew]
  split
  · exact kept
  · exact kept.congr rfl rfl rfl

/-- A dictionary that a request holds is empty, or the one in `clients`. -/
theorem Kept.held {post : Post} (kept : Kept server) (coherent : Coherent owner server)
    (own : owner post.workers = post.srcAddr.1) :
    server.size post.workers = 0 ∨
      server.clients.lookup post.srcAddr.1 = some post.workers := by
  rw [Server.size_eq_zero, or_iff_not_imp_left]
  intro filled
  push Not at filled
  rcases filled with ⟨id, present⟩
  rcases coherent.exists_worker post.workers id present with ⟨worker, exists', same⟩
  have registered := (kept.registered post.workers id worker present exists').2
  rw [same, own] at registered
  exact registered

theorem Kept.register {post : Post} {id : String} (kept : Kept server)
    (coherent : Coherent owner server) (own : owner post.workers = post.srcAddr.1)
    (fresh : id ≠ "" ∧ server.workers.lookup id = none)
    (undisplaced : server.clients.lookup post.srcAddr.1 = none ∨
      server.clients.lookup post.srcAddr.1 = some post.workers) :
    Kept (WebSSH.register server post id) := by
  constructor
  · rw [workers_register, if_neg fresh.1.symm]
    exact kept.named
  · intro query worker exists' opened
    rw [workers_register] at exists'
    split at exists'
    · rename_i same
      refine ⟨post.workers, some id, ?_, fun _ => congrArg some same.symm⟩
      rw [entry_register, if_pos ⟨rfl, same⟩]
    · rename_i different
      rcases kept.listed query worker exists' opened with ⟨workers, value, entry, waiting⟩
      refine ⟨workers, value, ?_, waiting⟩
      rw [entry_register, if_neg fun both => different both.2]
      exact entry
  · intro workers query worker present exists'
    rw [entry_register] at present
    rw [workers_register] at exists'
    rw [clients_register]
    split at present
    · rename_i new
      rw [if_pos new.2] at exists'
      cases exists'
      refine ⟨rfl, ?_⟩
      rw [new.1]
      split
      · rfl
      · rename_i filled
        exact (kept.held coherent own).resolve_left fun empty => filled ⟨empty, rfl⟩
    · rw [if_neg (coherent.ne_of_fresh fresh.2 present)] at exists'
      rcases kept.registered workers query worker present exists' with ⟨opened, registered⟩
      refine ⟨opened, ?_⟩
      split
      · rename_i replaced
        rw [replaced.2] at registered
        rcases undisplaced with missing | held
        · rw [missing] at registered
          cases registered
        · exact held.symm.trans registered
      · exact registered
  · intro ip workers registered
    rw [clients_register] at registered
    split at registered
    · cases registered
      refine ⟨id, ?_⟩
      rw [entry_register, if_pos ⟨rfl, rfl⟩]
      nofun
    · rcases kept.filled ip workers registered with ⟨query, present⟩
      refine ⟨query, ?_⟩
      rw [entry_register]
      split
      · nofun
      · exact present

theorem Kept.attach {workers : Nat} {id : String} {worker : Worker} (kept : Kept server)
    (entry : server.entry workers id = some (some id))
    (exists' : server.workers.lookup id = some worker) (srcAddr : Addr) :
    Kept (WebSSH.attach server workers id worker srcAddr) := by
  constructor
  · rw [workers_attach, if_neg]
    · exact kept.named
    · rintro rfl
      rw [kept.named] at exists'
      cases exists'
  · intro query later found opened
    rw [workers_attach] at found
    split at found
    · rename_i same
      cases found
      refine ⟨workers, none, ?_, fun waiting => absurd waiting (worker.setHandler_handler _)⟩
      rw [entry_attach, if_pos ⟨rfl, same⟩]
    · rename_i different
      rcases kept.listed query later found opened with ⟨other, value, old, waiting⟩
      refine ⟨other, value, ?_, waiting⟩
      rw [entry_attach, if_neg fun both => different both.2]
      exact old
  · intro other query later present found
    have old := entry_of_attach entry present
    rw [workers_attach] at found
    split at found
    · rename_i same
      subst same
      cases found
      rw [Worker.setHandler_closed, Worker.setHandler_srcAddr]
      exact kept.registered other query worker old exists'
    · exact kept.registered other query later old found
  · intro ip other registered
    rcases kept.filled ip other registered with ⟨query, present⟩
    refine ⟨query, ?_⟩
    rw [entry_attach]
    split
    · nofun
    · exact present

theorem Kept.remove {workers : Nat} {id : String} {worker : Worker} (kept : Kept server)
    (coherent : Coherent owner server)
    (exists' : server.workers.lookup id = some worker)
    (registered : server.clients.lookup worker.srcAddr.1 = some workers)
    (present : server.entry workers id ≠ none) :
    Kept (WebSSH.remove server workers id worker) := by
  constructor
  · rw [workers_remove, if_neg]
    · exact kept.named
    · rintro rfl
      rw [kept.named] at exists'
      cases exists'
  · intro query later found opened
    rw [workers_remove] at found
    split at found
    · cases found
      cases opened
    · rename_i different
      rcases kept.listed query later found opened with ⟨other, value, entry, waiting⟩
      refine ⟨other, value, ?_, waiting⟩
      rw [entry_remove, if_neg fun both => different both.2]
      exact entry
  · intro other query later left found
    have old := left
    rw [entry_remove] at old
    split at old
    · exact absurd rfl old
    · rename_i different
      have others : query ≠ id := by
        rintro rfl
        exact different ⟨coherent.unique other workers query old present, rfl⟩
      rw [workers_remove, if_neg others] at found
      rcases kept.registered other query later old found with ⟨opened, before⟩
      refine ⟨opened, ?_⟩
      by_cases same : later.srcAddr.1 = worker.srcAddr.1
      -- the dictionary of the address is kept for the workers that are left
      · rw [same, registered] at before
        cases before
        rw [clients_remove_of_filled left, same]
        exact registered
      · rw [clients_remove_of_ne same]
        exact before
  · intro ip other left
    have before := clients_remove left
    by_cases same : ip = worker.srcAddr.1
    · rw [same, registered] at before
      cases before
      by_contra empty
      push Not at empty
      rw [same, clients_remove_of_empty empty] at left
      cases left
    · rcases kept.filled ip other before with ⟨query, entry⟩
      refine ⟨query, ?_⟩
      rw [entry_remove, if_neg]
      · exact entry
      · rintro ⟨rfl, _⟩
        have own := (coherent.clients ip other before).1
        exact same (own.symm.trans (coherent.clients _ other registered).1)

/-- A callback that displaces nothing keeps every open worker registered, and no callback
fails to close a worker that is registered. -/
theorem Kept.handled {callback : Callback} {reaction : Reaction} (kept : Kept server)
    (coherent : Coherent owner server) (fresh : FreshIds server callback)
    (undisplaced : Undisplaced server callback)
    (handled : Handled server callback after reaction) :
    Kept after ∧ ∀ id fault, reaction ≠ .crashed id fault := by
  cases handled with
  | refused => exact ⟨kept.getOrNew _, nofun⟩
  | connecting => exact ⟨(kept.getOrNew _).congr rfl rfl rfl, nofun⟩
  | failed => exact ⟨kept.congr rfl rfl rfl, nofun⟩
  | @registered index post id found =>
      have left : Kept { server with posts := server.posts.eraseIdx index } :=
        kept.congr rfl rfl rfl
      have own := (coherent.posts post (List.mem_of_getElem? found)).1
      have resumed := coherent.resumed index
      exact ⟨left.register resumed own (fresh index id rfl) (undisplaced post found), nofun⟩
  | rejected => exact ⟨kept, nofun⟩
  | attached _ entry exists' => exact ⟨kept.attach entry exists' _, nofun⟩
  | ignored timers => exact ⟨kept.congr rfl rfl rfl, nofun⟩
  | closed timers exists' _ registered present =>
      have fired := coherent.withPosts timers coherent.posts
      have left : Kept { server with timers } := kept.congr rfl rfl rfl
      exact ⟨left.remove fired exists' registered present, nofun⟩
  | crashed timers exists' opened missing =>
      rcases kept.keyed exists' opened with ⟨workers, value, registered, entry, _⟩
      rw [missing workers registered] at entry
      cases entry

/-- A worker that displaces a dictionary leaves an open worker behind that is no longer
registered. -/
theorem Kept.displaced {post : Post} {id : String} (kept : Kept server)
    (coherent : Coherent owner server) (own : owner post.workers = post.srcAddr.1)
    (fresh : server.workers.lookup id = none)
    (registered : server.clients.lookup post.srcAddr.1 ≠ none)
    (different : server.clients.lookup post.srcAddr.1 ≠ some post.workers) :
    ¬ Registered (WebSSH.register server post id) := by
  intro registered'
  have empty := (kept.held coherent own).resolve_right different
  rcases Option.ne_none_iff_exists'.mp registered with ⟨workers, found⟩
  rcases kept.filled post.srcAddr.1 workers found with ⟨query, present⟩
  rcases coherent.exists_worker workers query present with ⟨worker, exists', same⟩
  rw [(coherent.clients post.srcAddr.1 workers found).1] at same
  have opened := (kept.registered workers query worker present exists').1
  have others := coherent.ne_of_fresh fresh present
  have stays : (WebSSH.register server post id).workers.lookup query = some worker := by
    rw [workers_register, if_neg others]
    exact exists'
  rcases registered'.keyed query worker stays opened with ⟨current, now, entry⟩
  rw [clients_register, if_pos ⟨empty, same⟩] at now
  cases now
  rw [entry_register, if_neg fun both => others both.2] at entry
  exact entry (Server.size_eq_zero.mp empty query)

theorem Kept.undisplaced {maxconn : Int} {callback : Callback} {reaction : Reaction}
    (kept : Kept server) (coherent : Coherent owner server) (fresh : FreshIds server callback)
    (reacted : react maxconn server callback = some (after, reaction))
    (registered : Registered after) : Undisplaced server callback := by
  cases callback with
  | postDone index result =>
      cases result with
      | none => trivial
      | some id =>
          rcases Option.map_eq_some_iff.mp reacted with ⟨post, found, same⟩
          cases same
          have left : Kept { server with posts := server.posts.eraseIdx index } :=
            kept.congr rfl rfl rfl
          have own := (coherent.posts post (List.mem_of_getElem? found)).1
          intro held member
          cases Option.some.inj (found.symm.trans member)
          by_contra displaced
          rcases not_or.mp displaced with ⟨other, different⟩
          have resumed := coherent.resumed index
          exact left.displaced resumed own (fresh index id rfl).2 other different registered
  | postStart srcAddr accepted => trivial
  | wsockOpen srcAddr presented => trivial
  | recycle id => trivial
  | close id => trivial

end Steps

theorem kept_of_undisplaced {maxconn : Int} {trace : List (Callback × Reaction)}
    {server : Server}
    (traces : (eventLoop maxconn).Traces
      (fun server callback => FreshIds server callback ∧ Undisplaced server callback)
      trace server) :
    Kept server ∧ ∀ callback id fault, (callback, .crashed id fault) ∉ trace := by
  apply holds_of_traces traces
  · constructor
    · exact kept_initial
    · exact fun _ _ _ => List.not_mem_nil
  · intro trace owner server after callback reaction ih coherent fresh undisplaced _ handled
    rcases ih.1.handled coherent fresh undisplaced handled with ⟨kept, closes⟩
    refine ⟨kept, ?_⟩
    intro callback id fault member
    rcases List.mem_append.mp member with before | last
    · exact ih.2 callback id fault before
    · cases List.mem_singleton.mp last
      exact closes id fault rfl

/-- Only runs without displacement have every open worker registered all along. -/
theorem undisplaced_of_registered {maxconn : Int} {trace : List (Callback × Reaction)}
    {server : Server}
    (traces : (eventLoop maxconn).Traces
      (fun server callback => FreshIds server callback ∧ ∀ after reaction,
        (eventLoop maxconn).react server callback = some (after, reaction) → Registered after)
      trace server) :
    (eventLoop maxconn).Traces
      (fun server callback => FreshIds server callback ∧ Undisplaced server callback)
      trace server := by
  apply traces.strengthen
  intro trace server after callback reaction _ before admitted reacted
  refine ⟨admitted.1, ?_⟩
  rcases coherent_of_traces (before.mono fun _ _ => And.left) with ⟨owner, coherent⟩
  have kept := (kept_of_undisplaced before).1
  exact kept.undisplaced coherent admitted.1 reacted (admitted.2 _ _ reacted)

/-- In every run in which ids are distinct and no dictionary is displaced, every state
offers every open worker under the address of its client, and no worker failed to be
closed. -/
theorem registered_of_undisplaced {maxconn : Int} {trace : List (Callback × Reaction)}
    {server : Server}
    (traces : (eventLoop maxconn).Traces
      (fun server callback => FreshIds server callback ∧ Undisplaced server callback)
      trace server) :
    Registered server ∧ ∀ callback id fault, (callback, .crashed id fault) ∉ trace := by
  rcases kept_of_undisplaced traces with ⟨kept, closes⟩
  exact ⟨kept.registered_of, closes⟩

/-- Two POSTs of one client, the second of which starts when the first one is done. -/
theorem registered_of_undisplaced_consecutive :
    ∃ (trace : List (Callback × Reaction)) (server : Server),
      trace.map Prod.snd = [.connecting, .registered "first" ("10.0.0.1", 4001), .connecting,
        .registered "second" ("10.0.0.1", 4002)] ∧
        Registered server ∧
        ∀ callback id fault, (callback, .crashed id fault) ∉ trace := by
  have ran : (eventLoop 20).run (fun server callback =>
      decide (FreshIds server callback ∧ Undisplaced server callback)) [] Server.initial
      [.postStart ("10.0.0.1", 4001) true, .postDone 0 (some "first"),
        .postStart ("10.0.0.1", 4002) true, .postDone 0 (some "second")] = some (_, _) := rfl
  have traces := (Reactor.traces_of_run .start ran).mono fun _ _ => of_decide_eq_true
  exact ⟨_, _, rfl, registered_of_undisplaced traces⟩

/-- Two POSTs of one client that both start before either of them is done: the second
worker displaces the first one, which can no longer be claimed, and which cannot be recycled
without failing the assertion. -/
theorem registered_concurrent_fails :
    ∃ trace server after,
      (eventLoop 20).Traces FreshIds trace server ∧
        (eventLoop 20).Traces FreshIds
          (trace ++ [(.wsockOpen ("10.0.0.1", 4003) (some "first"), .rejected),
            (.recycle "first", .crashed "first" .assertionError)]) after ∧
        trace.map Prod.snd = [.connecting, .connecting,
          .registered "first" ("10.0.0.1", 4001), .registered "second" ("10.0.0.1", 4002)] ∧
        ¬ Registered server := by
  have ran : (eventLoop 20).run (fun server callback => decide (FreshIds server callback)) []
      Server.initial
      [.postStart ("10.0.0.1", 4001) true, .postStart ("10.0.0.1", 4002) true,
        .postDone 0 (some "first"), .postDone 0 (some "second")] = some (_, _) := rfl
  have traces := (Reactor.traces_of_run .start ran).mono fun _ _ => of_decide_eq_true
  refine ⟨_, _, _, traces, (traces.next ?_ rfl).next ?_ rfl, rfl, ?_⟩
  · nofun
  · nofun
  · intro registered
    rcases registered.keyed "first" ⟨("10.0.0.1", 4001), none, false⟩ rfl rfl with
      ⟨workers, found, present⟩
    cases found
    exact present rfl

end CloudRunSsh.WebSSH
