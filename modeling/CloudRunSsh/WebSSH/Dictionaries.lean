import CloudRunSsh.WebSSH.Server

/-!
# The dictionaries of the session registry

A dictionary may be in `clients`, held by requests that wait for their connections, or
both, or neither.  Whichever it is, all of its entries are about one client address, and
no worker has an entry in two dictionaries.
-/

namespace CloudRunSsh.WebSSH

open CloudRunSsh.Concurrency

/-- The entry of an id in a dictionary. -/
def Server.entry (server : Server) (workers : Nat) (id : String) : Option (Option String) :=
  (server.dicts workers).lookup id

theorem Server.size_eq_zero {server : Server} {workers : Nat} :
    server.size workers = 0 ↔ ∀ id, server.entry workers id = none := by
  rw [size, List.length_eq_zero_iff, Dict.items_eq_nil]
  rfl

/-- What holds of all dictionaries that were ever created.  `owner` tells which client
address a dictionary was created for. -/
structure Coherent (owner : Nat → String) (server : Server) : Prop where
  clients : ∀ ip workers, server.clients.lookup ip = some workers →
    owner workers = ip ∧ workers < server.fresh
  posts : ∀ post ∈ server.posts,
    owner post.workers = post.srcAddr.1 ∧ post.workers < server.fresh
  created : ∀ workers id, server.entry workers id ≠ none → workers < server.fresh
  exists_worker : ∀ workers id, server.entry workers id ≠ none →
    ∃ worker, server.workers.lookup id = some worker ∧ worker.srcAddr.1 = owner workers
  unique : ∀ workers other id, server.entry workers id ≠ none →
    server.entry other id ≠ none → workers = other
  unclaimed : ∀ workers id named worker, server.entry workers id = some (some named) →
    server.workers.lookup id = some worker → named = id ∧ worker.handler = none
  unclosed : ∀ ip workers id named worker, server.clients.lookup ip = some workers →
    server.entry workers id = some (some named) → server.workers.lookup id = some worker →
    worker.closed = false

theorem coherent_initial : Coherent (fun _ => "") Server.initial := by
  constructor
  · intro ip workers found
    cases found
  · intro post member
    exact absurd member List.not_mem_nil
  · intro workers id present
    exact absurd rfl present
  · intro workers id present
    exact absurd rfl present
  · intro workers other id present
    exact absurd rfl present
  · intro workers id named worker found
    cases found
  · intro ip workers id named worker found
    cases found

namespace Coherent

variable {owner : Nat → String} {server : Server} (coherent : Coherent owner server)

include coherent

/-- Which requests are in flight, and which timers are set, does not matter. -/
theorem withPosts {posts : List Post} (timers : List String)
    (kept : ∀ post ∈ posts, owner post.workers = post.srcAddr.1 ∧
      post.workers < server.fresh) :
    Coherent owner { server with posts, timers } :=
  ⟨coherent.clients, kept, coherent.created, coherent.exists_worker, coherent.unique,
    coherent.unclaimed, coherent.unclosed⟩

/-- A request that goes on is no longer in flight. -/
theorem resumed (index : Nat) :
    Coherent owner { server with posts := server.posts.eraseIdx index } :=
  coherent.withPosts server.timers fun post member =>
    coherent.posts post (List.mem_of_mem_eraseIdx member)

/-- A request gets the dictionary of its own address. -/
theorem getOrNew (ip : String) :
    ∃ owner', Coherent owner' (server.getOrNew ip).2 ∧
      owner' (server.getOrNew ip).1 = ip ∧
      (server.getOrNew ip).1 < (server.getOrNew ip).2.fresh := by
  rw [Server.getOrNew]
  cases found : server.clients.lookup ip with
  | some workers =>
      have own := coherent.clients ip workers found
      exact ⟨owner, coherent, own.1, own.2⟩
  | none =>
      have same : ∀ {workers}, workers < server.fresh →
          Function.update owner server.fresh ip workers = owner workers :=
        fun old => Function.update_of_ne (Nat.ne_of_lt old) _ _
      refine ⟨Function.update owner server.fresh ip, ?_, Function.update_self _ _ _,
        Nat.lt_succ_self _⟩
      constructor
      · intro ip' workers found
        have old := coherent.clients ip' workers found
        exact ⟨(same old.2).trans old.1, Nat.lt_succ_of_lt old.2⟩
      · intro post member
        have old := coherent.posts post member
        exact ⟨(same old.2).trans old.1, Nat.lt_succ_of_lt old.2⟩
      · intro workers id present
        exact Nat.lt_succ_of_lt (coherent.created workers id present)
      · intro workers id present
        rw [same (coherent.created workers id present)]
        exact coherent.exists_worker workers id present
      · exact coherent.unique
      · exact coherent.unclaimed
      · exact coherent.unclosed

end Coherent

section Entries

variable {server : Server} {workers other : Nat} {id query : String}
variable {dict : Dict String (Option String)}

theorem entry_setDict : (server.setDict workers dict).entry other query =
    if other = workers then dict.lookup query else server.entry other query := by
  simp only [Server.entry, Server.setDict, Function.update_apply]
  split <;> rfl

theorem entry_insert {value : Option String} :
    (server.setDict workers ((server.dicts workers).insert id value)).entry other query =
      if other = workers ∧ query = id then some value else server.entry other query := by
  rw [entry_setDict]
  by_cases same : other = workers
  · subst same
    rw [if_pos rfl, Dict.lookup_insert]
    simp only [true_and, Server.entry]
  · rw [if_neg same, if_neg fun both => same both.1]

theorem entry_erase :
    (server.setDict workers ((server.dicts workers).erase id)).entry other query =
      if other = workers ∧ query = id then none else server.entry other query := by
  rw [entry_setDict]
  by_cases same : other = workers
  · subst same
    rw [if_pos rfl, Dict.lookup_erase]
    simp only [true_and, Server.entry]
  · rw [if_neg same, if_neg fun both => same both.1]

end Entries

section Register

variable {server : Server} {post : Post} {id : String}

theorem clients_register (ip : String) :
    (register server post id).clients.lookup ip =
      if server.size post.workers = 0 ∧ ip = post.srcAddr.1 then some post.workers
      else server.clients.lookup ip := by
  by_cases empty : server.size post.workers = 0
  · simp only [register, empty, if_true, true_and]
    exact Dict.lookup_insert _ _ _ _
  · simp only [register, empty, if_false, false_and]
    rfl

theorem entry_register (workers : Nat) (query : String) :
    (register server post id).entry workers query =
      if workers = post.workers ∧ query = id then some (some id)
      else server.entry workers query := by
  by_cases empty : server.size post.workers = 0
  · simp only [register, empty, if_true]
    exact entry_insert
  · simp only [register, empty, if_false]
    exact entry_insert

theorem workers_register (query : String) :
    (register server post id).workers.lookup query =
      if query = id then some { srcAddr := post.srcAddr } else server.workers.lookup query := by
  by_cases empty : server.size post.workers = 0
  · simp only [register, empty, if_true]
    exact Dict.lookup_insert _ _ _ _
  · simp only [register, empty, if_false]
    exact Dict.lookup_insert _ _ _ _

theorem fresh_register : (register server post id).fresh = server.fresh := by
  rw [register]
  split <;> rfl

theorem posts_register : (register server post id).posts = server.posts := by
  rw [register]
  split <;> rfl

/-- An entry is never about a worker that does not exist. -/
theorem Coherent.ne_of_fresh {owner : Nat → String} (coherent : Coherent owner server)
    (fresh : server.workers.lookup id = none) {workers : Nat} {query : String}
    (present : server.entry workers query ≠ none) : query ≠ id := by
  rintro rfl
  rcases coherent.exists_worker workers query present with ⟨worker, found, _⟩
  rw [fresh] at found
  cases found

theorem Coherent.register {owner : Nat → String} (coherent : Coherent owner server)
    (own : owner post.workers = post.srcAddr.1 ∧ post.workers < server.fresh)
    (fresh : server.workers.lookup id = none) :
    Coherent owner (WebSSH.register server post id) := by
  have old : ∀ {workers query}, server.entry workers query ≠ none → query ≠ id :=
    fun present => coherent.ne_of_fresh fresh present
  constructor
  · intro ip workers found
    rw [clients_register] at found
    rw [fresh_register]
    split at found
    · rename_i registered
      cases found
      exact ⟨own.1.trans registered.2.symm, own.2⟩
    · exact coherent.clients ip workers found
  · rw [posts_register, fresh_register]
    exact coherent.posts
  · intro workers query present
    rw [entry_register] at present
    rw [fresh_register]
    split at present
    · rename_i new
      rw [new.1]
      exact own.2
    · exact coherent.created workers query present
  · intro workers query present
    rw [entry_register] at present
    rw [workers_register]
    split at present
    · rename_i new
      rw [if_pos new.2, new.1]
      exact ⟨_, rfl, own.1.symm⟩
    · rw [if_neg (old present)]
      exact coherent.exists_worker workers query present
  · intro workers other query present present'
    rw [entry_register] at present present'
    split at present <;> split at present'
    · rename_i new new'
      exact new.1.trans new'.1.symm
    · rename_i new _
      exact absurd new.2 (old present')
    · rename_i _ new
      exact absurd new.2 (old present)
    · exact coherent.unique workers other query present present'
  · intro workers query named worker found exists'
    rw [entry_register] at found
    rw [workers_register] at exists'
    split at found
    · rename_i new
      rw [if_pos new.2] at exists'
      cases found
      cases exists'
      exact ⟨new.2.symm, rfl⟩
    · have present : server.entry workers query ≠ none := by
        rw [found]
        nofun
      rw [if_neg (old present)] at exists'
      exact coherent.unclaimed workers query named worker found exists'
  · intro ip workers query named worker registered found exists'
    rw [clients_register] at registered
    rw [entry_register] at found
    rw [workers_register] at exists'
    split at found
    · rename_i new
      rw [if_pos new.2] at exists'
      cases exists'
      rfl
    · have present : server.entry workers query ≠ none := by
        rw [found]
        nofun
      rw [if_neg (old present)] at exists'
      split at registered
      · rename_i empty
        cases registered
        exact absurd (Server.size_eq_zero.mp empty.1 query) present
      · exact coherent.unclosed ip workers query named worker registered found exists'

end Register

/-- The registry after a worker was claimed. -/
def attach (server : Server) (workers : Nat) (id : String) (worker : Worker) (srcAddr : Addr) :
    Server :=
  (server.setDict workers ((server.dicts workers).insert id none)).setWorker id
    (worker.setHandler srcAddr)

/-- What a WebSocket does: nothing, or it claims the worker whose id it presents. -/
theorem wsockOpen_cases {owner : Nat → String} {server : Server}
    (coherent : Coherent owner server) (srcAddr : Addr) (presented : Option String) :
    wsockOpen server srcAddr presented = (server, .rejected) ∨
      ∃ workers id worker, presented = some id ∧
        server.clients.lookup srcAddr.1 = some workers ∧
        server.entry workers id = some (some id) ∧ server.workers.lookup id = some worker ∧
        wsockOpen server srcAddr presented =
          (attach server workers id worker srcAddr, .attached id srcAddr) := by
  rw [wsockOpen]
  split
  · exact .inl rfl
  · rename_i workers registered
    split
    · exact .inl rfl
    · split
      · exact .inl rfl
      · rename_i workerID
        split
        · exact .inl rfl
        · split
          · exact .inl rfl
          · rename_i named found
            have entry : server.entry workers workerID = some (some named) :=
              Option.join_eq_some_iff.mp found
            have present : server.entry workers workerID ≠ none := by
              rw [entry]
              nofun
            rcases coherent.exists_worker workers workerID present with ⟨worker, exists', _⟩
            have same := (coherent.unclaimed workers workerID named worker entry exists').1
            subst same
            right
            refine ⟨workers, named, worker, rfl, registered, entry, exists', ?_⟩
            have kept : (server.setDict workers
                ((server.dicts workers).insert named none)).workers.lookup named =
                  some worker := exists'
            simp only [kept]
            rfl

section Attach

variable {server : Server} {workers : Nat} {id : String} {worker : Worker} {srcAddr : Addr}

theorem entry_attach (other : Nat) (query : String) :
    (attach server workers id worker srcAddr).entry other query =
      if other = workers ∧ query = id then some none else server.entry other query :=
  entry_insert

theorem workers_attach (query : String) :
    (attach server workers id worker srcAddr).workers.lookup query =
      if query = id then some (worker.setHandler srcAddr) else server.workers.lookup query :=
  Dict.lookup_insert _ _ _ _

/-- A claim does not add entries. -/
theorem entry_of_attach {other : Nat} {query : String}
    (entry : server.entry workers id = some (some id))
    (present : (attach server workers id worker srcAddr).entry other query ≠ none) :
    server.entry other query ≠ none := by
  rw [entry_attach] at present
  split at present
  · rename_i same
    rw [same.1, same.2, entry]
    nofun
  · exact present

end Attach

@[simp] theorem Worker.setHandler_srcAddr (worker : Worker) (handler : Addr) :
    (worker.setHandler handler).srcAddr = worker.srcAddr := by
  rw [setHandler]
  split <;> rfl

@[simp] theorem Worker.setHandler_closed (worker : Worker) (handler : Addr) :
    (worker.setHandler handler).closed = worker.closed := by
  rw [setHandler]
  split <;> rfl

theorem Worker.setHandler_handler (worker : Worker) (handler : Addr) :
    (worker.setHandler handler).handler ≠ none := by
  rw [setHandler]
  split
  · nofun
  · rename_i attached
    intro missing
    exact attached (Option.isNone_iff_eq_none.mpr missing)

theorem Coherent.attach {owner : Nat → String} {server : Server}
    (coherent : Coherent owner server) {workers : Nat} {id : String} {worker : Worker}
    (entry : server.entry workers id = some (some id))
    (exists' : server.workers.lookup id = some worker) (srcAddr : Addr) :
    Coherent owner (WebSSH.attach server workers id worker srcAddr) := by
  have present : server.entry workers id ≠ none := by
    rw [entry]
    nofun
  -- the other entries are about other workers
  have others : ∀ {other query named},
      (WebSSH.attach server workers id worker srcAddr).entry other query = some (some named) →
        server.entry other query = some (some named) ∧ query ≠ id := by
    intro other query named live
    rw [entry_attach] at live
    split at live
    · cases live
    · rename_i different
      refine ⟨live, ?_⟩
      rintro rfl
      apply different
      refine ⟨coherent.unique other workers query ?_ present, rfl⟩
      rw [live]
      nofun
  constructor
  · exact coherent.clients
  · exact coherent.posts
  · exact fun other query here => coherent.created other query (entry_of_attach entry here)
  · intro other query here
    rcases coherent.exists_worker other query (entry_of_attach entry here) with
      ⟨old, found, own⟩
    rw [workers_attach]
    split
    · rename_i same
      subst same
      cases exists'.symm.trans found
      exact ⟨_, rfl, (congrArg Prod.fst (worker.setHandler_srcAddr srcAddr)).trans own⟩
    · exact ⟨old, found, own⟩
  · intro other other' query here here'
    exact coherent.unique other other' query (entry_of_attach entry here)
      (entry_of_attach entry here')
  · intro other query named current live found
    have old := others live
    rw [workers_attach, if_neg old.2] at found
    exact coherent.unclaimed other query named current old.1 found
  · intro ip other query named current registered live found
    have old := others live
    rw [workers_attach, if_neg old.2] at found
    exact coherent.unclosed ip other query named current registered old.1 found

/-- What `clear_worker` does: it removes the entry of the worker, or does not find it. -/
theorem clearWorker_cases (server : Server) (id : String) (worker : Worker) :
    (∃ workers, server.clients.lookup worker.srcAddr.1 = some workers ∧
        server.entry workers id ≠ none ∧
        clearWorker server id worker = .ok (server.pop worker.srcAddr.1 workers id)) ∨
      (∀ workers, server.clients.lookup worker.srcAddr.1 = some workers →
          server.entry workers id = none) ∧
        ∃ fault, clearWorker server id worker = .error fault := by
  rw [clearWorker]
  cases registered : server.clients.lookup worker.srcAddr.1 with
  | none =>
      right
      refine ⟨?_, _, rfl⟩
      intro workers found
      cases found
  | some workers =>
      dsimp only
      split
      · rename_i missing
        refine .inr ⟨?_, _, rfl⟩
        intro other found
        cases found
        exact Option.isNone_iff_eq_none.mp missing
      · rename_i present
        refine .inl ⟨workers, rfl, ?_, rfl⟩
        intro missing
        exact present (Option.isNone_iff_eq_none.mpr missing)

/-- The registry after a worker was closed and its entry was removed. -/
def remove (server : Server) (workers : Nat) (id : String) (worker : Worker) : Server :=
  (server.setWorker id { worker with closed := true }).pop worker.srcAddr.1 workers id

/-- What closing a worker does: nothing when it is closed already; else its entry is
removed, or is not found. -/
theorem close_cases (server : Server) (id : String) (worker : Worker) :
    worker.closed = true ∧ close server id worker = (server, .ignored) ∨
      worker.closed = false ∧
        ((∃ workers, server.clients.lookup worker.srcAddr.1 = some workers ∧
            server.entry workers id ≠ none ∧
            close server id worker = (remove server workers id worker, .closed id)) ∨
          (∀ workers, server.clients.lookup worker.srcAddr.1 = some workers →
              server.entry workers id = none) ∧
            ∃ fault, close server id worker =
              (server.setWorker id { worker with closed := true }, .crashed id fault)) := by
  rw [close]
  cases closed : worker.closed with
  | true => exact .inl ⟨rfl, if_pos rfl⟩
  | false =>
      right
      rw [if_neg (by decide)]
      refine ⟨rfl, ?_⟩
      rcases clearWorker_cases (server.setWorker id { worker with closed := true }) id worker
        with ⟨workers, registered, present, cleared⟩ | ⟨missing, fault, failed⟩
      · left
        refine ⟨workers, registered, present, ?_⟩
        simp only [cleared]
        rfl
      · right
        refine ⟨missing, fault, ?_⟩
        simp only [failed]

/-- A registry in which one worker was closed, and in which entries may have been
removed. -/
theorem Coherent.retire {owner : Nat → String} {server after : Server}
    (coherent : Coherent owner server) {id : String} {worker : Worker}
    (exists' : server.workers.lookup id = some worker)
    (rest : after.posts = server.posts ∧ after.fresh = server.fresh)
    (found : ∀ query, after.workers.lookup query =
      if query = id then some { worker with closed := true }
      else server.workers.lookup query)
    (clients : ∀ ip workers, after.clients.lookup ip = some workers →
      server.clients.lookup ip = some workers)
    (entries : ∀ workers query value, after.entry workers query = some value →
      server.entry workers query = some value)
    (gone : ∀ ip workers named, after.clients.lookup ip = some workers →
      after.entry workers id ≠ some (some named)) : Coherent owner after := by
  have kept : ∀ {workers query}, after.entry workers query ≠ none →
      server.entry workers query ≠ none := by
    intro workers query here
    rcases Option.ne_none_iff_exists'.mp here with ⟨value, found⟩
    rw [entries workers query value found]
    nofun
  constructor
  · rw [rest.2]
    exact fun ip workers registered => coherent.clients ip workers (clients ip workers registered)
  · rw [rest.1, rest.2]
    exact coherent.posts
  · rw [rest.2]
    exact fun workers query here => coherent.created workers query (kept here)
  · intro workers query here
    rcases coherent.exists_worker workers query (kept here) with ⟨old, old_found, own⟩
    rw [found]
    split
    · rename_i same
      subst same
      cases exists'.symm.trans old_found
      exact ⟨_, rfl, own⟩
    · exact ⟨old, old_found, own⟩
  · exact fun workers other query here here' =>
      coherent.unique workers other query (kept here) (kept here')
  · intro workers query named current live current_found
    have old := entries workers query _ live
    rw [found] at current_found
    split at current_found
    · rename_i same
      subst same
      cases current_found
      exact coherent.unclaimed workers query named worker old exists'
    · exact coherent.unclaimed workers query named current old current_found
  · intro ip workers query named current registered live current_found
    rw [found] at current_found
    split at current_found
    · rename_i same
      subst same
      exact absurd live (gone ip workers named registered)
    · exact coherent.unclosed ip workers query named current (clients ip workers registered)
        (entries workers query _ live) current_found

section Remove

variable {server : Server} {workers : Nat} {id : String} {worker : Worker}

theorem clients_remove {ip : String} {other : Nat}
    (registered : (remove server workers id worker).clients.lookup ip = some other) :
    server.clients.lookup ip = some other := by
  unfold remove Server.pop at registered
  dsimp only at registered
  split at registered
  · have erased := Dict.lookup_erase server.clients worker.srcAddr.1 ip
    have left : (server.clients.erase worker.srcAddr.1).lookup ip = some other := registered
    rw [erased] at left
    split at left
    · cases left
    · exact left
  · exact registered

theorem clients_remove_of_ne {ip : String} (different : ip ≠ worker.srcAddr.1) :
    (remove server workers id worker).clients.lookup ip = server.clients.lookup ip := by
  unfold remove Server.pop
  dsimp only
  split
  · exact (Dict.lookup_erase _ _ _).trans (if_neg different)
  · rfl

theorem clients_remove_of_filled {query : String}
    (present : (remove server workers id worker).entry workers query ≠ none) :
    (remove server workers id worker).clients = server.clients := by
  unfold remove Server.pop at present ⊢
  dsimp only at present ⊢
  split
  · rename_i empty
    rw [if_pos empty] at present
    exact absurd (Server.size_eq_zero.mp empty query) present
  · rfl

theorem clients_remove_of_empty
    (empty : ∀ query, (remove server workers id worker).entry workers query = none) :
    (remove server workers id worker).clients.lookup worker.srcAddr.1 = none := by
  unfold remove Server.pop at empty ⊢
  dsimp only at empty ⊢
  split
  · exact (Dict.lookup_erase _ _ _).trans (if_pos rfl)
  · rename_i filled
    rw [if_neg filled] at empty
    exact absurd (Server.size_eq_zero.mpr empty) filled

theorem entry_remove (other : Nat) (query : String) :
    (remove server workers id worker).entry other query =
      if other = workers ∧ query = id then none else server.entry other query := by
  unfold remove Server.pop
  dsimp only
  split <;> exact entry_erase

theorem workers_remove (query : String) :
    (remove server workers id worker).workers.lookup query =
      if query = id then some { worker with closed := true }
      else server.workers.lookup query := by
  unfold remove Server.pop
  dsimp only
  split <;> exact Dict.lookup_insert _ _ _ _

theorem rest_remove : (remove server workers id worker).posts = server.posts ∧
    (remove server workers id worker).fresh = server.fresh := by
  unfold remove Server.pop
  dsimp only
  split <;> exact ⟨rfl, rfl⟩

end Remove

theorem Coherent.remove {owner : Nat → String} {server : Server}
    (coherent : Coherent owner server) {workers : Nat} {id : String} {worker : Worker}
    (exists' : server.workers.lookup id = some worker)
    (present : server.entry workers id ≠ none) :
    Coherent owner (WebSSH.remove server workers id worker) := by
  have entries : ∀ other query value,
      (WebSSH.remove server workers id worker).entry other query = some value →
        server.entry other query = some value := by
    intro other query value found
    rw [entry_remove] at found
    split at found
    · cases found
    · exact found
  apply coherent.retire exists' rest_remove workers_remove (fun _ _ => clients_remove) entries
  intro ip other named found live
  have old : server.entry other id ≠ none := by
    rw [entries other id _ live]
    nofun
  rw [entry_remove, if_pos ⟨coherent.unique other workers id old present, rfl⟩] at live
  cases live

theorem Coherent.crash {owner : Nat → String} {server : Server}
    (coherent : Coherent owner server) {id : String} {worker : Worker}
    (exists' : server.workers.lookup id = some worker)
    (missing : ∀ workers, server.clients.lookup worker.srcAddr.1 = some workers →
      server.entry workers id = none) :
    Coherent owner (server.setWorker id { worker with closed := true }) := by
  refine coherent.retire exists' ⟨rfl, rfl⟩ (fun query => Dict.lookup_insert _ _ _ _)
    (fun _ _ registered => registered) (fun _ _ _ found => found) ?_
  intro ip workers named registered live
  have present : server.entry workers id ≠ none := by
    rw [show server.entry workers id = _ from live]
    nofun
  -- a dictionary in `clients` that holds the worker is the one of its address
  rcases coherent.exists_worker workers id present with ⟨old, found, own⟩
  cases exists'.symm.trans found
  rw [(coherent.clients ip workers registered).1.symm.trans own.symm] at registered
  exact present (missing workers registered)

/-! ## Every callback -/

/-- What a callback can do. -/
inductive Handled (server : Server) : Callback → Server → Reaction → Prop where
  | refused {srcAddr : Addr} {accepted : Bool} :
      Handled server (.postStart srcAddr accepted) (server.getOrNew srcAddr.1).2 .refused
  | connecting {srcAddr : Addr} :
      Handled server (.postStart srcAddr true)
        { (server.getOrNew srcAddr.1).2 with
          posts := (server.getOrNew srcAddr.1).2.posts ++
            [⟨srcAddr, (server.getOrNew srcAddr.1).1⟩] } .connecting
  | failed {index : Nat} :
      Handled server (.postDone index none)
        { server with posts := server.posts.eraseIdx index } .failed
  | registered {index : Nat} {post : Post} {id : String} :
      server.posts[index]? = some post →
      Handled server (.postDone index (some id))
        (register { server with posts := server.posts.eraseIdx index } post id)
        (.registered id post.srcAddr)
  | rejected {srcAddr : Addr} {presented : Option String} :
      Handled server (.wsockOpen srcAddr presented) server .rejected
  | attached {srcAddr : Addr} {workers : Nat} {id : String} {worker : Worker} :
      server.clients.lookup srcAddr.1 = some workers →
      server.entry workers id = some (some id) → server.workers.lookup id = some worker →
      Handled server (.wsockOpen srcAddr (some id)) (attach server workers id worker srcAddr)
        (.attached id srcAddr)
  | ignored {callback : Callback} (timers : List String) :
      Handled server callback { server with timers } .ignored
  | closed {callback : Callback} (timers : List String) {workers : Nat} {id : String}
      {worker : Worker} :
      server.workers.lookup id = some worker → worker.closed = false →
      server.clients.lookup worker.srcAddr.1 = some workers →
      server.entry workers id ≠ none →
      Handled server callback (remove { server with timers } workers id worker) (.closed id)
  | crashed {callback : Callback} (timers : List String) {id : String} {worker : Worker}
      {fault : Fault} :
      server.workers.lookup id = some worker → worker.closed = false →
      (∀ workers, server.clients.lookup worker.srcAddr.1 = some workers →
        server.entry workers id = none) →
      Handled server callback
        ({ server with timers }.setWorker id { worker with closed := true }) (.crashed id fault)

theorem handled_of_close {server after : Server} {callback : Callback} {reaction : Reaction}
    {id : String} {worker : Worker} (timers : List String)
    (exists' : server.workers.lookup id = some worker)
    (closed : close { server with timers } id worker = (after, reaction)) :
    Handled server callback after reaction := by
  rcases close_cases { server with timers } id worker with ⟨_, same⟩ |
    ⟨opened, ⟨workers, registered, present, removed⟩ | ⟨missing, fault, failed⟩⟩
  · rw [same] at closed
    cases closed
    exact .ignored timers
  · rw [removed] at closed
    cases closed
    exact .closed timers exists' opened registered present
  · rw [failed] at closed
    cases closed
    exact .crashed timers exists' opened missing

theorem handled_of_react {owner : Nat → String} {server after : Server} {maxconn : Int}
    {callback : Callback} {reaction : Reaction} (coherent : Coherent owner server)
    (reacted : react maxconn server callback = some (after, reaction)) :
    Handled server callback after reaction := by
  cases callback with
  | postStart srcAddr accepted =>
      simp only [react, postStart, Option.some.injEq] at reacted
      split at reacted
      · cases reacted
        exact .refused
      · cases accepted with
        | false =>
            cases reacted
            exact .refused
        | true =>
            cases reacted
            exact .connecting
  | postDone index result =>
      rcases Option.map_eq_some_iff.mp reacted with ⟨post, found, same⟩
      cases result with
      | none =>
          cases same
          exact .failed
      | some id =>
          cases same
          exact .registered found
  | wsockOpen srcAddr presented =>
      have result : wsockOpen server srcAddr presented = (after, reaction) :=
        Option.some.inj reacted
      rcases wsockOpen_cases coherent srcAddr presented with rejected |
        ⟨workers, id, worker, rfl, registered, entry, exists', attached⟩
      · rw [rejected] at result
        cases result
        exact .rejected
      · rw [attached] at result
        cases result
        exact .attached registered entry exists'
  | recycle id =>
      simp only [react] at reacted
      split at reacted
      · rcases Option.map_eq_some_iff.mp reacted with ⟨worker, exists', same⟩
        rw [recycleWorker] at same
        split at same
        · cases same
          exact .ignored _
        · exact handled_of_close _ exists' same
      · cases reacted
  | close id =>
      rcases Option.map_eq_some_iff.mp reacted with ⟨worker, exists', same⟩
      exact handled_of_close server.timers exists' same

/-- Whatever the event loop handles, the dictionaries stay coherent. -/
theorem Coherent.handled {owner : Nat → String} {server after : Server}
    {callback : Callback} {reaction : Reaction} (coherent : Coherent owner server)
    (fresh : FreshIds server callback) (handled : Handled server callback after reaction) :
    ∃ owner, Coherent owner after := by
  cases handled with
  | refused =>
      rcases coherent.getOrNew _ with ⟨owner', coherent', _⟩
      exact ⟨owner', coherent'⟩
  | connecting =>
      rcases coherent.getOrNew _ with ⟨owner', coherent', own⟩
      refine ⟨owner', coherent'.withPosts _ ?_⟩
      intro post member
      rcases List.mem_append.mp member with old | new
      · exact coherent'.posts post old
      · rw [List.mem_singleton.mp new]
        exact own
  | failed => exact ⟨owner, coherent.resumed _⟩
  | @registered index post id found =>
      have own := coherent.posts post (List.mem_of_getElem? found)
      exact ⟨owner, (coherent.resumed index).register own (fresh index id rfl).2⟩
  | rejected => exact ⟨owner, coherent⟩
  | attached _ entry exists' => exact ⟨owner, coherent.attach entry exists' _⟩
  | ignored timers => exact ⟨owner, coherent.withPosts timers coherent.posts⟩
  | closed timers exists' _ _ present =>
      exact ⟨owner, (coherent.withPosts timers coherent.posts).remove exists' present⟩
  | crashed timers exists' _ missing =>
      exact ⟨owner, (coherent.withPosts timers coherent.posts).crash exists' missing⟩

section Runs

variable {maxconn : Int} {trace : List (Callback × Reaction)} {server : Server}

/-- After every trace the dictionaries are coherent. -/
theorem coherent_of_traces (traces : (eventLoop maxconn).Traces FreshIds trace server) :
    ∃ owner, Coherent owner server := by
  apply traces.invariant
  · exact ⟨_, coherent_initial⟩
  · rintro _ _ _ _ _ _ ⟨owner, coherent⟩ fresh reacted
    exact coherent.handled fresh (handled_of_react coherent reacted)

/-- What holds at the start and is preserved by every admitted callback, handled with
coherent dictionaries, holds after every trace. -/
theorem holds_of_traces {guard : Server → Callback → Prop}
    {property : List (Callback × Reaction) → Server → Prop}
    (traces : (eventLoop maxconn).Traces
      (fun server callback => FreshIds server callback ∧ guard server callback) trace server)
    (initial : property [] Server.initial)
    (preserved : ∀ {trace owner server after callback reaction}, property trace server →
      Coherent owner server → FreshIds server callback → guard server callback →
      react maxconn server callback = some (after, reaction) →
      Handled server callback after reaction →
      property (trace ++ [(callback, reaction)]) after) : property trace server := by
  apply traces.invariant initial
  intro trace server after callback reaction reached ih admitted reacted
  obtain ⟨owner, coherent⟩ := coherent_of_traces (reached.mono fun _ _ => And.left)
  exact preserved ih coherent admitted.1 admitted.2 reacted
    (handled_of_react coherent reacted)

end Runs

end CloudRunSsh.WebSSH
