import Mathlib.Data.Fintype.EquivFin
import Mathlib.Data.List.Perm.Basic
import CloudRunSsh.WebSSH.Registrations

/-!
# The limit of live connections

When a POST starts, the web terminal compares the number of registered sessions of its
client with the limit; the session of the POST is registered when the POST is done.  The
open sessions of a client and its POSTs in flight together stay within the limit, as long
as every POST that starts finds room among both.
-/

namespace CloudRunSsh.WebSSH

open CloudRunSsh.Concurrency

/-- The worker is a live session of a client. -/
def Worker.livesAt (ip : String) (worker : Worker) : Bool :=
  worker.srcAddr.1 == ip && !worker.closed

namespace Server

/-- How many live sessions a client has. -/
def live (server : Server) (ip : String) : Nat :=
  server.workers.items.countP (Worker.livesAt ip ·.2)

/-- How many POSTs of a client wait for their connections. -/
def inFlight (server : Server) (ip : String) : Nat :=
  server.posts.countP (·.srcAddr.1 == ip)

def occupied (server : Server) (ip : String) : Nat := server.live ip + server.inFlight ip

/-- `workers and len(workers) >= options.maxconn`. -/
def tooMany (maxconn : Int) (server : Server) (ip : String) : Prop :=
  (server.getOrNew ip).2.size (server.getOrNew ip).1 ≠ 0 ∧
    ((server.getOrNew ip).2.size (server.getOrNew ip).1 : Int) ≥ maxconn

instance (maxconn : Int) (server : Server) (ip : String) :
    Decidable (server.tooMany maxconn ip) := instDecidableAnd

end Server

/-- A POST that is not refused finds room for its session. -/
def Reserved (maxconn : Int) (server : Server) : Callback → Prop
  | .postStart srcAddr true =>
      ¬server.tooMany maxconn srcAddr.1 → (server.occupied srcAddr.1 : Int) < maxconn
  | .postStart _ false | .postDone _ _ | .wsockOpen _ _ | .recycle _ | .close _ => True

instance (maxconn : Int) (server : Server) :
    (callback : Callback) → Decidable (Reserved maxconn server callback)
  | .postStart srcAddr true => inferInstanceAs (Decidable
      (¬server.tooMany maxconn srcAddr.1 → (server.occupied srcAddr.1 : Int) < maxconn))
  | .postStart _ false => .isTrue trivial
  | .postDone _ _ => .isTrue trivial
  | .wsockOpen _ _ => .isTrue trivial
  | .recycle _ => .isTrue trivial
  | .close _ => .isTrue trivial

section Counting

variable {server after : Server} {id : String} {worker : Worker}

theorem live_of_updated
    (updated : ∀ query, after.workers.lookup query =
      if query = id then some worker else server.workers.lookup query) (ip : String) :
    after.live ip + (server.workers.lookup id).toList.countP (Worker.livesAt ip) =
      server.live ip + [worker].countP (Worker.livesAt ip) :=
  Dict.countP_items updated (Worker.livesAt ip)

theorem live_congr (same : after.workers = server.workers) (ip : String) :
    after.live ip = server.live ip := by
  rw [Server.live, same]
  rfl

theorem inFlight_congr (same : after.posts = server.posts) (ip : String) :
    after.inFlight ip = server.inFlight ip := by
  rw [Server.inFlight, same]
  rfl

/-- A POST that goes on is no longer in flight. -/
theorem inFlight_resumed {index : Nat} {post : Post}
    (found : server.posts[index]? = some post) (ip : String) :
    server.inFlight ip = (server.posts.eraseIdx index).countP (·.srcAddr.1 == ip) +
      if post.srcAddr.1 = ip then 1 else 0 := by
  obtain ⟨bound, same⟩ := List.getElem?_eq_some_iff.mp found
  have split := List.getElem_cons_eraseIdx_perm bound
  rw [same] at split
  rw [Server.inFlight, ← split.countP_eq, List.countP_cons]
  simp only [beq_iff_eq]

/-- The new session of a POST takes the room of the POST. -/
theorem occupied_register {index : Nat} {post : Post}
    (found : server.posts[index]? = some post) (fresh : server.workers.lookup id = none)
    (ip : String) :
    (register { server with posts := server.posts.eraseIdx index } post id).occupied ip =
      server.occupied ip := by
  have counted := live_of_updated (@workers_register
    { server with posts := server.posts.eraseIdx index } post id) ip
  have waiting : (register { server with posts := server.posts.eraseIdx index } post
      id).inFlight ip = (server.posts.eraseIdx index).countP (·.srcAddr.1 == ip) :=
    inFlight_congr posts_register ip
  change _ + (server.workers.lookup id).toList.countP _ = server.live ip + _ at counted
  rw [fresh, Option.toList_none, List.countP_nil, List.countP_singleton] at counted
  rw [Server.occupied, Server.occupied, waiting, inFlight_resumed found]
  simp only [Worker.livesAt, Bool.not_false, Bool.and_true, beq_iff_eq] at counted
  omega

/-- A worker that is closed gives its room back. -/
theorem live_of_closed (exists' : server.workers.lookup id = some worker)
    (updated : ∀ query, after.workers.lookup query =
      if query = id then some { worker with closed := true }
      else server.workers.lookup query) (ip : String) : after.live ip ≤ server.live ip := by
  have counted := live_of_updated updated ip
  rw [exists', List.countP_singleton] at counted
  simp only [Worker.livesAt, Bool.not_true, Bool.and_false, Bool.false_eq_true,
    if_false] at counted
  omega

theorem livesAt_setHandler (worker : Worker) (handler : Addr) (ip : String) :
    (worker.setHandler handler).livesAt ip = worker.livesAt ip := by
  rw [Worker.livesAt, Worker.livesAt, worker.setHandler_srcAddr, worker.setHandler_closed]

/-- A worker that is attached keeps its room. -/
theorem live_attach {workers : Nat} (exists' : server.workers.lookup id = some worker)
    (srcAddr : Addr) (ip : String) :
    (attach server workers id worker srcAddr).live ip = server.live ip := by
  have counted := live_of_updated (@workers_attach server workers id worker srcAddr) ip
  rw [exists', Option.toList_some, List.countP_singleton, List.countP_singleton,
    livesAt_setHandler] at counted
  exact Nat.add_right_cancel counted

/-- Only a POST that starts to connect takes room. -/
theorem Handled.occupied_le {callback : Callback} {reaction : Reaction}
    (handled : Handled server callback after reaction) (fresh : FreshIds server callback)
    (other : reaction ≠ .connecting) (ip : String) : after.occupied ip ≤ server.occupied ip := by
  cases handled with
  | refused =>
      apply Nat.le_of_eq
      rw [Server.occupied, live_congr (workers_getOrNew _ _) ip,
        inFlight_congr (posts_getOrNew _ _) ip, Server.occupied]
  | connecting => exact absurd rfl other
  | @failed index =>
      apply Nat.add_le_add_left
      exact (List.eraseIdx_sublist _ index).countP_le
  | @registered index post id found =>
      exact Nat.le_of_eq (occupied_register found (fresh index id rfl).2 ip)
  | rejected => exact Nat.le_refl _
  | attached _ _ exists' =>
      exact Nat.add_le_add_right (Nat.le_of_eq (live_attach exists' _ ip)) _
  | ignored timers => exact Nat.le_refl _
  | @closed _ timers workers id worker exists' _ _ _ =>
      apply Nat.add_le_add
      · apply live_of_closed exists'
        exact @workers_remove { server with timers } workers id worker
      · exact Nat.le_of_eq (inFlight_congr rest_remove.1 ip)
  | crashed timers exists' _ _ =>
      apply Nat.add_le_add_right
      exact live_of_closed exists' (fun query => Dict.lookup_insert _ _ _ _) ip

/-- What starts to connect was not refused, and takes room for one session. -/
theorem connecting_of_react {maxconn : Int} {callback : Callback}
    (reacted : react maxconn server callback = some (after, .connecting))
    (handled : Handled server callback after .connecting) :
    ∃ srcAddr, callback = .postStart srcAddr true ∧ ¬server.tooMany maxconn srcAddr.1 ∧
      ∀ ip, after.occupied ip = server.occupied ip + if srcAddr.1 = ip then 1 else 0 := by
  cases handled with
  | @connecting srcAddr =>
      refine ⟨srcAddr, rfl, ?_, ?_⟩
      · intro refused
        simp only [react, postStart, Option.some.injEq] at reacted
        split at reacted
        · cases congrArg Prod.snd reacted
        · rename_i allowed
          exact allowed refused
      · intro ip
        have waiting : ({ (server.getOrNew srcAddr.1).2 with
            posts := (server.getOrNew srcAddr.1).2.posts ++
              [⟨srcAddr, (server.getOrNew srcAddr.1).1⟩] } : Server).inFlight ip =
            server.inFlight ip + if srcAddr.1 = ip then 1 else 0 := by
          rw [Server.inFlight, posts_getOrNew, List.countP_append, List.countP_singleton]
          simp only [beq_iff_eq]
          rfl
        have sessions := live_congr (workers_getOrNew server srcAddr.1) ip
        rw [Server.occupied, waiting, Server.occupied, Nat.add_assoc]
        exact congrArg (· + _) sessions

end Counting

section Runs

variable {maxconn : Int} {trace : List (Callback × Reaction)} {server : Server}

/-- Sessions and POSTs in flight together stay within the limit. -/
theorem occupied_le_of_reserved (positive : 1 ≤ maxconn)
    (traces : (eventLoop maxconn).Traces
      (fun server callback => FreshIds server callback ∧ Reserved maxconn server callback)
      trace server) (ip : String) : (server.occupied ip : Int) ≤ maxconn := by
  apply holds_of_traces traces
  · have empty : Server.initial.occupied ip = 0 := rfl
    rw [empty]
    omega
  · intro trace owner server after callback reaction within coherent fresh room reacted
      handled
    by_cases connects : reaction = .connecting
    · subst connects
      obtain ⟨srcAddr, rfl, allowed, taken⟩ := connecting_of_react reacted handled
      have free := room allowed
      rw [taken]
      split
      · rename_i own
        subst own
        omega
      · omega
    · have kept := handled.occupied_le fresh connects ip
      omega

/-- In every run whose POSTs find room for their sessions, the live sessions of a client
are within the limit in every state. -/
theorem live_le_of_reserved (positive : 1 ≤ maxconn)
    (traces : (eventLoop maxconn).Traces
      (fun server callback => FreshIds server callback ∧ Reserved maxconn server callback)
      trace server) (ip : String) : (server.live ip : Int) ≤ maxconn := by
  have within := occupied_le_of_reserved positive traces ip
  rw [Server.occupied] at within
  omega

/-- Two POSTs of one client, the second of which finds no room but is refused. -/
theorem live_le_of_reserved_consecutive :
    ∃ trace server,
      (eventLoop 1).Traces
        (fun server callback => FreshIds server callback ∧ Reserved 1 server callback)
        trace server ∧
      trace.map Prod.snd =
        [.connecting, .registered "first" ("10.0.0.1", 4001), .refused, .closed "first"] ∧
        (server.live "10.0.0.1" : Int) ≤ 1 := by
  have ran : (eventLoop 1).run (fun server callback =>
      decide (FreshIds server callback ∧ Reserved 1 server callback)) [] Server.initial
      [.postStart ("10.0.0.1", 4001) true, .postDone 0 (some "first"),
        .postStart ("10.0.0.1", 4002) true, .close "first"] = some (_, _) := rfl
  have traces := (Reactor.traces_of_run .start ran).mono fun _ _ => of_decide_eq_true
  have within := live_le_of_reserved (by decide) traces "10.0.0.1"
  exact ⟨_, _, traces, rfl, within⟩

/-- Two POSTs of one client that both start before either of them is done: with a limit of
one session the client has two. -/
theorem live_le_concurrent_fails :
    ∃ trace server,
      (eventLoop 1).Traces FreshIds trace server ∧
        trace.map Prod.snd = [.connecting, .connecting,
          .registered "first" ("10.0.0.1", 4001), .registered "second" ("10.0.0.1", 4002)] ∧
        ¬(server.live "10.0.0.1" : Int) ≤ 1 := by
  have ran : (eventLoop 1).run (fun server callback => decide (FreshIds server callback)) []
      Server.initial
      [.postStart ("10.0.0.1", 4001) true, .postStart ("10.0.0.1", 4002) true,
        .postDone 0 (some "first"), .postDone 0 (some "second")] = some (_, _) := rfl
  have traces := (Reactor.traces_of_run .start ran).mono fun _ _ => of_decide_eq_true
  exact ⟨_, _, traces, rfl, by decide⟩

end Runs

section Continuations

variable {maxconn : Int} {trace : List (Callback × Reaction)} {server : Server}

theorem exists_freshId (server : Server) :
    ∃ id, id ≠ "" ∧ server.workers.lookup id = none := by
  obtain ⟨id, fresh⟩ := Infinite.exists_notMem_finset (insert "" server.workers.keys.toFinset)
  rw [Finset.mem_insert, not_or, List.mem_toFinset] at fresh
  exact ⟨id, fresh.1, AList.lookup_eq_none.mpr fresh.2⟩

/-- The POSTs in flight can all be done, and then their room is taken by sessions. -/
theorem exists_done (traces : (eventLoop maxconn).Traces FreshIds trace server) :
    ∃ rest final, (eventLoop maxconn).Traces FreshIds (trace ++ rest) final ∧
      ∀ ip, final.live ip = server.occupied ip := by
  induction waiting : server.posts generalizing trace server with
  | nil =>
      refine ⟨[], server, ?_, ?_⟩
      · rw [List.append_nil]
        exact traces
      · intro ip
        rw [Server.occupied, Server.inFlight, waiting]
        rfl
  | cons post posts ih =>
      obtain ⟨id, named, fresh⟩ := exists_freshId server
      have found : server.posts[0]? = some post := by
        rw [waiting]
        rfl
      have done : (eventLoop maxconn).react server (.postDone 0 (some id)) = some
          (register { server with posts := server.posts.eraseIdx 0 } post id,
            .registered id post.srcAddr) := by
        change postDone server 0 (some id) = _
        rw [postDone, found]
        rfl
      have reached := traces.next (by
        intro index other same
        cases same
        exact ⟨named, fresh⟩) done
      have left : (register { server with posts := server.posts.eraseIdx 0 } post id).posts =
          posts := by
        rw [posts_register, waiting]
        rfl
      obtain ⟨rest, final, later, sessions⟩ := ih reached left
      rw [← List.append_cons] at later
      refine ⟨_, final, later, ?_⟩
      intro ip
      rw [sessions, occupied_register found fresh]

/-- A POST that starts to connect without room can exceed the limit. -/
theorem exceeds_of_not_reserved {srcAddr : Addr} {after : Server}
    (traces : (eventLoop maxconn).Traces FreshIds trace server)
    (connects : react maxconn server (.postStart srcAddr true) = some (after, .connecting))
    (full : ¬Reserved maxconn server (.postStart srcAddr true)) :
    ∃ rest final,
      (eventLoop maxconn).Traces FreshIds
        (trace ++ (.postStart srcAddr true, .connecting) :: rest) final ∧
        maxconn < final.live srcAddr.1 := by
  obtain ⟨owner, coherent⟩ := coherent_of_traces traces
  obtain ⟨_, same, _, taken⟩ := connecting_of_react connects (handled_of_react coherent connects)
  cases same
  have fresh : FreshIds server (.postStart srcAddr true) := nofun
  have reacted : (eventLoop maxconn).react server (.postStart srcAddr true) =
    some (after, .connecting) := connects
  have started := traces.next fresh reacted
  obtain ⟨rest, final, later, sessions⟩ := exists_done started
  refine ⟨rest, final, ?_, ?_⟩
  · rw [List.append_cons]
    exact later
  · have excess := not_lt.mp (Classical.not_imp.mp full).2
    have own := taken srcAddr.1
    rw [if_pos rfl] at own
    rw [sessions, own]
    omega

end Continuations

/-- A POST starts to connect when no other POST of its client is in flight. -/
def Alone (server : Server) : Callback → Prop
  | .postStart srcAddr true => ∀ post ∈ server.posts, post.srcAddr.1 ≠ srcAddr.1
  | .postStart _ false | .postDone _ _ | .wsockOpen _ _ | .recycle _ | .close _ => True

/-- Each client has at most one POST in flight, which displaces no dictionary. -/
structure Unrivalled (server : Server) : Prop where
  apart : (server.posts.map (·.srcAddr.1)).Nodup
  held : ∀ post ∈ server.posts, server.clients.lookup post.srcAddr.1 = none ∨
    server.clients.lookup post.srcAddr.1 = some post.workers

section Unrivalled

variable {server after : Server}

theorem clients_getOrNew (server : Server) (ip : String) :
    (server.getOrNew ip).2.clients = server.clients := by
  rw [Server.getOrNew]
  split <;> rfl

/-- The dictionary of an address is the one in `clients`, or none is there. -/
theorem lookup_getOrNew (server : Server) (ip : String) :
    server.clients.lookup ip = none ∨
      server.clients.lookup ip = some (server.getOrNew ip).1 := by
  rw [Server.getOrNew]
  split
  · rename_i found
    exact .inr found
  · rename_i missing
    exact .inl missing

theorem Unrivalled.undisplaced (unrivalled : Unrivalled server) (callback : Callback) :
    Undisplaced server callback := by
  cases callback with
  | postDone index result =>
      cases result with
      | none => trivial
      | some id =>
          intro post found
          exact unrivalled.held post (List.mem_of_getElem? found)
  | postStart srcAddr accepted => trivial
  | wsockOpen srcAddr presented => trivial
  | recycle id => trivial
  | close id => trivial

/-- Fewer requests in flight, and fewer dictionaries in `clients`. -/
theorem Unrivalled.fewer (unrivalled : Unrivalled server)
    (posts : after.posts.Sublist server.posts)
    (clients : ∀ ip workers, after.clients.lookup ip = some workers →
      server.clients.lookup ip = some workers) : Unrivalled after := by
  constructor
  · exact (posts.map _).nodup unrivalled.apart
  · intro post member
    cases found : after.clients.lookup post.srcAddr.1 with
    | none => exact .inl rfl
    | some workers =>
        right
        rw [← clients _ _ found]
        apply (unrivalled.held post (posts.subset member)).resolve_left
        intro missing
        rw [clients _ _ found] at missing
        cases missing

theorem Unrivalled.handled {callback : Callback} {reaction : Reaction}
    (unrivalled : Unrivalled server) (alone : Alone server callback)
    (handled : Handled server callback after reaction) : Unrivalled after := by
  cases handled with
  | refused =>
      apply unrivalled.fewer
      · rw [posts_getOrNew]
      · rw [clients_getOrNew]
        exact fun _ _ found => found
  | @connecting srcAddr =>
      constructor
      · change (((server.getOrNew srcAddr.1).2.posts ++ [_]).map _).Nodup
        rw [posts_getOrNew, List.map_append, List.map_singleton, List.nodup_append]
        refine ⟨unrivalled.apart, List.nodup_singleton _, ?_⟩
        intro ip member other last
        obtain ⟨post, inFlight, rfl⟩ := List.mem_map.mp member
        rw [List.mem_singleton.mp last]
        exact alone post inFlight
      · intro post member
        change (server.getOrNew srcAddr.1).2.clients.lookup _ = none ∨
          (server.getOrNew srcAddr.1).2.clients.lookup _ = some _
        rw [clients_getOrNew]
        rcases List.mem_append.mp member with before | new
        · rw [posts_getOrNew] at before
          exact unrivalled.held post before
        · rw [List.mem_singleton.mp new]
          exact lookup_getOrNew server srcAddr.1
  | @failed index =>
      exact unrivalled.fewer (List.eraseIdx_sublist _ index) fun _ _ found => found
  | @registered index post id found =>
      have fewer : Unrivalled { server with posts := server.posts.eraseIdx index } :=
        unrivalled.fewer (List.eraseIdx_sublist _ index) fun _ _ found => found
      obtain ⟨bound, same⟩ := List.getElem?_eq_some_iff.mp found
      have split := List.getElem_cons_eraseIdx_perm bound
      have distinct := (split.map (·.srcAddr.1)).nodup_iff.mpr unrivalled.apart
      rw [same, List.map_cons, List.nodup_cons] at distinct
      constructor
      · rw [posts_register]
        exact fewer.apart
      · intro other member
        rw [posts_register] at member
        rw [clients_register, if_neg]
        · exact fewer.held other member
        · rintro ⟨_, own⟩
          exact distinct.1 (own ▸ List.mem_map_of_mem member)
  | rejected => exact unrivalled
  | attached _ _ _ => exact unrivalled.fewer (List.Sublist.refl _) fun _ _ found => found
  | ignored timers => exact unrivalled.fewer (List.Sublist.refl _) fun _ _ found => found
  | @closed _ timers workers id worker _ _ _ _ =>
      apply unrivalled.fewer
      · rw [rest_remove.1]
      · exact fun _ _ found => @clients_remove { server with timers } workers id worker _ _ found
  | crashed timers _ _ _ =>
      exact unrivalled.fewer (List.Sublist.refl _) fun _ _ found => found

/-- Where every open worker is registered, the size of a client's dictionary is not less
than the number of its live sessions. -/
theorem Kept.live_le_size (kept : Kept server) (ip : String) :
    server.live ip ≤ (server.getOrNew ip).2.size (server.getOrNew ip).1 := by
  have listed : ∀ entry ∈ server.workers.items.filter (Worker.livesAt ip ·.2),
      ∃ workers, server.clients.lookup ip = some workers ∧
        entry.1 ∈ (server.dicts workers).items.map Prod.fst := by
    rintro ⟨id, worker⟩ member
    obtain ⟨inside, lives⟩ := List.mem_filter.mp member
    simp only [Worker.livesAt, Bool.and_eq_true, beq_iff_eq, Bool.not_eq_true'] at lives
    obtain ⟨workers, value, registered, entry, _⟩ :=
      kept.keyed (Dict.mem_items.mp inside) lives.2
    rw [lives.1] at registered
    exact ⟨workers, registered, List.mem_map_of_mem (Dict.mem_items.mpr entry)⟩
  have nodup : ((server.workers.items.filter (Worker.livesAt ip ·.2)).map Prod.fst).Nodup :=
    (List.filter_sublist.map _).nodup server.workers.items_keys_nodup
  rw [Server.live, List.countP_eq_length_filter]
  rw [Server.getOrNew]
  split
  · rename_i workers found
    have inside : (server.workers.items.filter (Worker.livesAt ip ·.2)).map Prod.fst ⊆
        (server.dicts workers).items.map Prod.fst := by
      intro id member
      obtain ⟨entry, inside, rfl⟩ := List.mem_map.mp member
      obtain ⟨other, registered, here⟩ := listed entry inside
      rw [found] at registered
      cases registered
      exact here
    have bound := (nodup.subperm inside).length_le
    rw [List.length_map, List.length_map] at bound
    exact bound
  · rename_i missing
    have none : server.workers.items.filter (Worker.livesAt ip ·.2) = [] := by
      apply List.eq_nil_iff_forall_not_mem.mpr
      intro entry member
      obtain ⟨workers, registered, _⟩ := listed entry member
      rw [missing] at registered
      cases registered
    rw [none]
    exact Nat.zero_le _

/-- A POST that is alone finds room by the check of the code. -/
theorem Kept.reserved_of_alone {maxconn : Int} (kept : Kept server) (positive : 1 ≤ maxconn)
    {callback : Callback} (alone : Alone server callback) :
    Reserved maxconn server callback := by
  cases callback with
  | postStart srcAddr accepted =>
      cases accepted with
      | false => trivial
      | true =>
          intro allowed
          have none : server.inFlight srcAddr.1 = 0 := by
            apply List.countP_eq_zero.mpr
            intro post member
            simpa using alone post member
          have listed := kept.live_le_size srcAddr.1
          rw [Server.tooMany, not_and_or, not_not, not_le] at allowed
          rw [Server.occupied, none]
          omega
  | postDone index result => trivial
  | wsockOpen srcAddr presented => trivial
  | recycle id => trivial
  | close id => trivial

theorem unrivalled_of_alone {maxconn : Int} {trace : List (Callback × Reaction)}
    (traces : (eventLoop maxconn).Traces
      (fun server callback => FreshIds server callback ∧ Alone server callback) trace server) :
    Unrivalled server := by
  apply holds_of_traces traces
  · constructor
    · exact List.nodup_nil
    · exact fun _ absent => absurd absent List.not_mem_nil
  · intro trace owner server after callback reaction unrivalled _ _ alone _ handled
    exact unrivalled.handled alone handled

/-- As long as each client has one POST in flight at a time, no dictionary is displaced
and every POST finds room. -/
theorem reserved_of_alone {maxconn : Int} (positive : 1 ≤ maxconn)
    {trace : List (Callback × Reaction)}
    (traces : (eventLoop maxconn).Traces
      (fun server callback => FreshIds server callback ∧ Alone server callback) trace server) :
    (eventLoop maxconn).Traces
      (fun server callback => FreshIds server callback ∧ Undisplaced server callback ∧
        Reserved maxconn server callback) trace server := by
  apply traces.strengthen
  intro trace server after callback reaction reached before admitted _
  have kept := (kept_of_undisplaced (before.mono fun _ _ both => ⟨both.1, both.2.1⟩)).1
  exact ⟨admitted.1, (unrivalled_of_alone reached).undisplaced _,
    kept.reserved_of_alone positive admitted.2⟩

end Unrivalled

end CloudRunSsh.WebSSH
