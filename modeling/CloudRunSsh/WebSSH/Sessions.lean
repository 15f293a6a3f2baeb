import CloudRunSsh.WebSSH.Attachments

/-!
# Sessions that end

The event loop with its sockets: which worker each of them refers to, which workers the loop
watches, and which channels were closed.  Whatever becomes of the dictionaries, a worker that is
not closed has someone who closes it: its timer as long as it waits for a socket, and then its
socket.
-/

namespace CloudRunSsh.WebSSH

open CloudRunSsh.Concurrency

/-- The registry with the open sockets, each with the worker of `worker_ref`, the workers whose
file descriptors the loop watches, and those whose channels were closed, in order. -/
structure Sessions where
  server : Server
  sockets : Dict Nat (Option String)
  watched : List String
  closed : List String

/-- What the loop runs.  A message on a socket, a file descriptor that is ready, and `call_later`
of `update_handler` may fail, and then the worker closes itself. -/
inductive SessionEvent where
  | postStart (srcAddr : Addr) (accepted : Bool)
  | postDone (index : Nat) (result : Option String)
  | wsockOpen (socket : Nat) (srcAddr : Addr) (id : Option String)
  | onMessage (socket : Nat) (fails : Bool)
  | onClose (socket : Nat)
  | ready (id : String) (fails : Bool)
  | retry (id : String) (fails : Bool)
  | recycle (id : String)
  deriving DecidableEq, Repr

/-- The worker that a socket claims. -/
def Reaction.claimed : Reaction → Option String
  | .attached id _ => some id
  | _ => none

/-- The worker that is closed.  `chan.close` comes before `clear_worker`, so it does not matter
whether that fails. -/
def Reaction.ended : Reaction → Option String
  | .closed id | .crashed id _ => some id
  | _ => none

namespace Sessions

/-- The worker of `worker_ref`. -/
def workerRef (self : Sessions) (socket : Nat) : Option String :=
  (self.sockets.lookup socket).join

/-- The worker has a handler. -/
def hasHandler (self : Sessions) (id : String) : Bool :=
  (self.server.workers.lookup id).any (·.handler.isSome)

/-- An open socket is not opened again, what is closed is silent, and only a worker with a handler
writes. -/
def happens (self : Sessions) : SessionEvent → Bool
  | .postStart _ _ | .postDone _ _ | .recycle _ => true
  | .wsockOpen socket _ _ => (self.sockets.lookup socket).isNone
  | .onMessage socket _ | .onClose socket => (self.sockets.lookup socket).isSome
  | .ready id _ => id ∈ self.watched
  | .retry id _ => self.hasHandler id

/-- What an event means for the registry. -/
def callback (self : Sessions) : SessionEvent → Option Callback
  | .postStart srcAddr accepted => some (.postStart srcAddr accepted)
  | .postDone index result => some (.postDone index result)
  | .wsockOpen _ srcAddr id => some (.wsockOpen srcAddr id)
  | .onMessage socket fails => if fails then (self.workerRef socket).map .close else none
  | .onClose socket => (self.workerRef socket).map .close
  | .ready id fails | .retry id fails => if fails then some (.close id) else none
  | .recycle id => some (.recycle id)

/-- The sockets after an event. -/
def socketsAfter (self : Sessions) (reaction : Reaction) : SessionEvent → Dict Nat (Option String)
  | .wsockOpen socket _ _ => self.sockets.insert socket reaction.claimed
  | .onClose socket => self.sockets.erase socket
  | _ => self.sockets

/-- `add_handler` when a worker is attached, `remove_handler` when one with a handler is closed. -/
def watchedAfter (self : Sessions) (reaction : Reaction) : List String :=
  match reaction.ended with
  | some id => if self.hasHandler id then self.watched.filter (· ≠ id) else self.watched
  | none => self.watched ++ reaction.claimed.toList

def after (self : Sessions) (event : SessionEvent) (server : Server) (reaction : Reaction) :
    Sessions where
  server := server
  sockets := self.socketsAfter reaction event
  watched := self.watchedAfter reaction
  closed := self.closed ++ reaction.ended.toList

/-- The part of the registry in an event. -/
def handle (maxconn : Int) (self : Sessions) (event : SessionEvent) : Option (Server × Reaction) :=
  match self.callback event with
  | none => some (self.server, .ignored)
  | some callback => WebSSH.react maxconn self.server callback

/-- One event. -/
def react (maxconn : Int) (self : Sessions) (event : SessionEvent) :
    Option (Sessions × Reaction) :=
  if self.happens event then
    (self.handle maxconn event).map fun handled =>
      (self.after event handled.1 handled.2, handled.2)
  else none

end Sessions

/-- The event loop, from when the server is started. -/
def sessionLoop (maxconn : Int) : Reactor Sessions SessionEvent Reaction where
  initial := ⟨.initial, ∅, [], []⟩
  react := Sessions.react maxconn

/-- The ids of workers are not empty and pairwise distinct. -/
def FreshSessions (self : Sessions) (event : SessionEvent) : Prop :=
  ∀ callback ∈ self.callback event, FreshIds self.server callback

instance (self : Sessions) (event : SessionEvent) : Decidable (FreshSessions self event) :=
  inferInstanceAs (Decidable (∀ callback ∈ self.callback event, FreshIds self.server callback))

section Registry

variable {owner : Nat → String} {server after : Server} {maxconn : Int} {callback : Callback}
  {reaction : Reaction}

theorem timers_getOrNew (server : Server) (ip : String) :
    (server.getOrNew ip).2.timers = server.timers := by
  rw [Server.getOrNew]
  split <;> rfl

theorem timers_remove (server : Server) (workers : Nat) (id : String) (worker : Worker) :
    (remove server workers id worker).timers = server.timers := by
  rw [remove, Server.pop]
  split <;> rfl

/-- After closing, a worker is closed, and no timer has changed. -/
theorem close_spec (server : Server) {id : String} {worker : Worker}
    (exists' : server.workers.lookup id = some worker) :
    (close server id worker).1.timers = server.timers ∧
      ∀ later, (close server id worker).1.workers.lookup id = some later →
        later.closed = true := by
  rcases close_cases server id worker with ⟨closed, same⟩ |
    ⟨_, ⟨workers, _, _, same⟩ | ⟨_, fault, same⟩⟩
  · rw [same]
    refine ⟨rfl, fun later found => ?_⟩
    cases exists'.symm.trans found
    exact closed
  · rw [same]
    refine ⟨timers_remove _ _ _ _, fun later found => ?_⟩
    rw [workers_remove, if_pos rfl] at found
    cases found
    rfl
  · rw [same]
    refine ⟨rfl, fun later found => ?_⟩
    have own := (Dict.lookup_insert _ _ _ _).symm.trans found
    rw [if_pos rfl] at own
    cases own
    rfl

/-- A worker that is to be closed is closed. -/
theorem closed_of_react {id : String}
    (reacted : react maxconn server (.close id) = some (after, reaction)) :
    after.timers = server.timers ∧
      ∀ worker, after.workers.lookup id = some worker → worker.closed = true := by
  obtain ⟨worker, exists', same⟩ := Option.map_eq_some_iff.mp reacted
  have spec := close_spec server exists'
  rw [same] at spec
  exact spec

/-- A timer that fires leaves its worker closed, or with a handler. -/
theorem recycled_of_react {id : String}
    (reacted : react maxconn server (.recycle id) = some (after, reaction)) :
    after.timers = server.timers.erase id ∧
      ∀ worker, after.workers.lookup id = some worker →
        worker.closed = true ∨ worker.handler ≠ none := by
  simp only [react] at reacted
  split at reacted
  · obtain ⟨worker, exists', same⟩ := Option.map_eq_some_iff.mp reacted
    rw [recycleWorker] at same
    split at same
    · rename_i attached
      cases same
      refine ⟨rfl, fun later found => .inr ?_⟩
      cases exists'.symm.trans found
      exact Option.isSome_iff_ne_none.mp attached
    · have spec := close_spec { server with timers := server.timers.erase id } exists'
      rw [same] at spec
      exact ⟨spec.1, fun later found => .inl (spec.2 later found)⟩
  · cases reacted

theorem timers_register (server : Server) (post : Post) (id : String) :
    (register server post id).timers = server.timers ++ [id] := by
  rw [register]
  split <;> rfl

/-- Only a timer that fires is gone. -/
theorem timers_of_react (coherent : Coherent owner server)
    (reacted : react maxconn server callback = some (after, reaction)) {id : String}
    (other : callback ≠ .recycle id) (armed : id ∈ server.timers) : id ∈ after.timers := by
  cases callback with
  | postStart srcAddr accepted =>
      obtain rfl : (postStart maxconn server srcAddr accepted).1 = after :=
        congrArg Prod.fst (Option.some.inj reacted)
      rw [← timers_getOrNew server srcAddr.1] at armed
      simp only [postStart]
      split
      · exact armed
      · split <;> exact armed
  | postDone index result =>
      obtain ⟨post, _, done⟩ := Option.map_eq_some_iff.mp reacted
      cases result with
      | none =>
          cases done
          exact armed
      | some id =>
          cases done
          rw [timers_register]
          exact List.mem_append_left _ armed
  | wsockOpen srcAddr presented =>
      have opened : wsockOpen server srcAddr presented = (after, reaction) :=
        Option.some.inj reacted
      rcases wsockOpen_cases coherent srcAddr presented with rejected |
        ⟨workers, id, worker, _, _, _, _, attached⟩
      · cases rejected.symm.trans opened
        exact armed
      · cases attached.symm.trans opened
        exact armed
  | recycle fired =>
      rw [(recycled_of_react reacted).1]
      refine (List.mem_erase_of_ne ?_).mpr armed
      rintro rfl
      exact other rfl
  | close id =>
      rw [(closed_of_react reacted).1]
      exact armed

end Registry

theorem Reaction.claimed_eq_some {reaction : Reaction} {id : String}
    (claimed : reaction.claimed = some id) : ∃ srcAddr, reaction = .attached id srcAddr := by
  cases reaction with
  | attached claimed' srcAddr =>
      cases claimed
      exact ⟨srcAddr, rfl⟩
  | _ => cases claimed

theorem Reaction.ended_eq_some {reaction : Reaction} {id : String}
    (ended : reaction.ended = some id) :
    reaction = .closed id ∨ ∃ fault, reaction = .crashed id fault := by
  cases reaction with
  | closed gone =>
      cases ended
      exact .inl rfl
  | crashed gone fault =>
      cases ended
      exact .inr ⟨fault, rfl⟩
  | _ => cases ended

/-- What the registry does in an event, and what the loop relies on. -/
structure Effect (sessions : Sessions) (event : SessionEvent) (server : Server)
    (reaction : Reaction) : Prop where
  workers : ∀ id, server.workers.lookup id = reaction.worker id (sessions.server.workers.lookup id)
  becomes : ∀ id worker, sessions.server.workers.lookup id = some worker →
    ∃ later, server.workers.lookup id = some later ∧ worker.Becomes later
  created : ∀ id srcAddr, reaction = .registered id srcAddr →
    sessions.server.workers.lookup id = none ∧ id ∈ server.timers
  claimed : ∀ id, reaction.claimed = some id →
    (∃ socket srcAddr, event = .wsockOpen socket srcAddr (some id)) ∧
      ∃ worker, sessions.server.workers.lookup id = some worker ∧
        worker.handler = none ∧ worker.closed = false
  ended : ∀ id, reaction.ended = some id →
    ∃ worker, sessions.server.workers.lookup id = some worker ∧ worker.closed = false
  fired : ∀ id ∈ sessions.server.timers, id ∈ server.timers ∨
    ∀ worker, server.workers.lookup id = some worker →
      worker.closed = true ∨ worker.handler ≠ none
  left : ∀ socket id, event = .onClose socket → sessions.workerRef socket = some id →
    ∀ worker, server.workers.lookup id = some worker → worker.closed = true

theorem Sessions.opened_of_callback (self : Sessions) {event : SessionEvent} {srcAddr : Addr}
    {presented : Option String}
    (called : self.callback event = some (.wsockOpen srcAddr presented)) :
    ∃ socket, event = .wsockOpen socket srcAddr presented := by
  cases event with
  | wsockOpen socket opener id =>
      cases called
      exact ⟨socket, rfl⟩
  | postStart => cases called
  | postDone => cases called
  | recycle => cases called
  | onMessage socket fails =>
      simp only [callback] at called
      split at called
      · obtain ⟨_, _, same⟩ := Option.map_eq_some_iff.mp called
        cases same
      · cases called
  | onClose socket =>
      obtain ⟨_, _, same⟩ := Option.map_eq_some_iff.mp called
      cases same
  | ready id fails => cases fails <;> cases called
  | retry id fails => cases fails <;> cases called

theorem effect_of_handle {owner : Nat → String} {maxconn : Int} {self : Sessions}
    {event : SessionEvent} {server : Server} {reaction : Reaction}
    (coherent : Coherent owner self.server) (fresh : FreshSessions self event)
    (handled : self.handle maxconn event = some (server, reaction)) :
    Effect self event server reaction := by
  rw [Sessions.handle] at handled
  cases called : self.callback event with
  | none =>
      rw [called] at handled
      cases handled
      constructor
      · exact fun _ => rfl
      · exact fun id worker exists' => ⟨worker, exists', rfl, fun attached => attached,
          fun closed => closed⟩
      · exact nofun
      · exact nofun
      · exact nofun
      · exact fun id armed => .inl armed
      · rintro socket id rfl refers
        rw [Sessions.callback, refers] at called
        cases called
  | some callback =>
      rw [called] at handled
      have reacted : WebSSH.react maxconn self.server callback = some (server, reaction) := handled
      have step := handled_of_react coherent reacted
      constructor
      · exact step.workers
      · exact fun id worker exists' => step.becomes (fresh _ called) exists'
      · rintro id srcAddr rfl
        cases step with
        | @registered index post id found =>
            refine ⟨(fresh _ called index id rfl).2, ?_⟩
            rw [timers_register]
            exact List.mem_append_right _ (List.mem_singleton_self id)
      · intro id claimed
        obtain ⟨srcAddr, rfl⟩ := Reaction.claimed_eq_some claimed
        cases step with
        | @attached _ workers _ worker registered entry exists' =>
            obtain ⟨socket, same⟩ := self.opened_of_callback called
            exact ⟨⟨socket, srcAddr, same⟩, worker, exists',
              (coherent.unclaimed workers id id worker entry exists').2,
              coherent.unclosed srcAddr.1 workers id id worker registered entry exists'⟩
      · intro id ended
        rcases Reaction.ended_eq_some ended with rfl | ⟨fault, rfl⟩
        · cases step with
          | closed _ exists' opened _ _ => exact ⟨_, exists', opened⟩
        · cases step with
          | crashed _ exists' opened _ => exact ⟨_, exists', opened⟩
      · intro id armed
        by_cases recycled : callback = .recycle id
        · subst recycled
          exact .inr (recycled_of_react reacted).2
        · exact .inl (timers_of_react coherent reacted recycled armed)
      · rintro socket id rfl refers
        rw [Sessions.callback, refers] at called
        cases called
        exact (closed_of_react reacted).2

/-- What an event makes of the worker of an id. -/
theorem Effect.before {self : Sessions} {event : SessionEvent} {server : Server}
    {reaction : Reaction} (effect : Effect self event server reaction) {id : String}
    {later : Worker} (found : server.workers.lookup id = some later) :
    (∃ srcAddr, reaction = .registered id srcAddr ∧ later = { srcAddr }) ∨
      (∃ worker srcAddr, reaction = .attached id srcAddr ∧
        self.server.workers.lookup id = some worker ∧ later = worker.setHandler srcAddr) ∨
      (∃ worker, reaction.ended = some id ∧
        self.server.workers.lookup id = some worker ∧ later = { worker with closed := true }) ∨
      self.server.workers.lookup id = some later := by
  rw [effect.workers] at found
  cases reaction with
  | registered created srcAddr =>
      rw [Reaction.worker] at found
      split at found
      · rename_i same
        subst same
        cases found
        exact .inl ⟨srcAddr, rfl, rfl⟩
      · exact .inr (.inr (.inr found))
  | attached claimed srcAddr =>
      rw [Reaction.worker] at found
      split at found
      · rename_i same
        subst same
        obtain ⟨worker, exists', rfl⟩ := Option.map_eq_some_iff.mp found
        exact .inr (.inl ⟨worker, srcAddr, rfl, exists', rfl⟩)
      · exact .inr (.inr (.inr found))
  | closed gone =>
      rw [Reaction.worker] at found
      split at found
      · rename_i same
        subst same
        obtain ⟨worker, exists', rfl⟩ := Option.map_eq_some_iff.mp found
        exact .inr (.inr (.inl ⟨worker, rfl, exists', rfl⟩))
      · exact .inr (.inr (.inr found))
  | crashed gone fault =>
      rw [Reaction.worker] at found
      split at found
      · rename_i same
        subst same
        obtain ⟨worker, exists', rfl⟩ := Option.map_eq_some_iff.mp found
        exact .inr (.inr (.inl ⟨worker, rfl, exists', rfl⟩))
      · exact .inr (.inr (.inr found))
  | refused => exact .inr (.inr (.inr found))
  | connecting => exact .inr (.inr (.inr found))
  | failed => exact .inr (.inr (.inr found))
  | rejected => exact .inr (.inr (.inr found))
  | ignored => exact .inr (.inr (.inr found))

/-! ## Who closes a worker -/

/-- An open worker waits for a socket, and then its timer is set, or it has one: the loop holds
it, and its socket refers to it.  Nothing else is held, and each channel is closed once, when its
worker is. -/
structure Tended (sessions : Sessions) : Prop where
  waiting : ∀ id worker, sessions.server.workers.lookup id = some worker → worker.closed = false →
    worker.handler = none → id ∈ sessions.server.timers
  attached : ∀ id worker, sessions.server.workers.lookup id = some worker → worker.closed = false →
    worker.handler ≠ none → id ∈ sessions.watched ∧ ∃ socket, sessions.workerRef socket = some id
  watched : ∀ id ∈ sessions.watched, ∃ worker, sessions.server.workers.lookup id = some worker ∧
    worker.closed = false ∧ worker.handler ≠ none
  watchedOnce : sessions.watched.Nodup
  released : ∀ id, id ∈ sessions.closed ↔
    ∃ worker, sessions.server.workers.lookup id = some worker ∧ worker.closed = true
  closedOnce : sessions.closed.Nodup
  refers : ∀ socket id, sessions.workerRef socket = some id →
    ∃ worker, sessions.server.workers.lookup id = some worker ∧ worker.handler ≠ none
  apart : ∀ socket other id, sessions.workerRef socket = some id →
    sessions.workerRef other = some id → socket = other

section Step

variable {self : Sessions} {event : SessionEvent} {server : Server} {reaction : Reaction}
  {socket : Nat} {id : String}

/-- A worker that is closed in an event is closed. -/
theorem Effect.closed_of_ended (effect : Effect self event server reaction)
    (ended : reaction.ended = some id) :
    ∃ worker, server.workers.lookup id = some worker ∧ worker.closed = true := by
  obtain ⟨worker, exists', _⟩ := effect.ended id ended
  refine ⟨{ worker with closed := true }, ?_, rfl⟩
  rw [effect.workers, exists']
  rcases Reaction.ended_eq_some ended with rfl | ⟨fault, rfl⟩
  · exact if_pos rfl
  · exact if_pos rfl

/-- A worker that is claimed in an event is open, and has a handler. -/
theorem Effect.worker_of_claimed (effect : Effect self event server reaction)
    (claimed : reaction.claimed = some id) :
    ∃ worker, server.workers.lookup id = some worker ∧
      worker.closed = false ∧ worker.handler ≠ none := by
  obtain ⟨_, worker, exists', _, opened⟩ := effect.claimed id claimed
  obtain ⟨srcAddr, rfl⟩ := Reaction.claimed_eq_some claimed
  refine ⟨worker.setHandler srcAddr, ?_, (worker.setHandler_closed srcAddr).trans opened,
    worker.setHandler_handler srcAddr⟩
  rw [effect.workers, exists']
  exact if_pos rfl

/-- An open worker is new, or has just been claimed, or is as it was. -/
theorem Effect.open_before (effect : Effect self event server reaction) {later : Worker}
    (found : server.workers.lookup id = some later) (opened : later.closed = false) :
    (later.handler = none ∧ id ∈ server.timers) ∨ reaction.claimed = some id ∨
      self.server.workers.lookup id = some later := by
  rcases effect.before found with ⟨srcAddr, registered, rfl⟩ | ⟨old, srcAddr, rfl, _⟩ |
    ⟨old, _, _, rfl⟩ | same
  · exact .inl ⟨rfl, (effect.created id srcAddr registered).2⟩
  · exact .inr (.inl rfl)
  · cases opened
  · exact .inr (.inr same)

/-- A closed worker was closed before, or has just been closed. -/
theorem Effect.closed_before (effect : Effect self event server reaction) {later : Worker}
    (found : server.workers.lookup id = some later) (closed : later.closed = true) :
    reaction.ended = some id ∨ self.server.workers.lookup id = some later := by
  rcases effect.before found with ⟨srcAddr, _, rfl⟩ | ⟨old, srcAddr, rfl, same, rfl⟩ |
    ⟨old, ended, _⟩ | same
  · cases closed
  · obtain ⟨_, worker, exists', _, opened⟩ := effect.claimed id rfl
    cases same.symm.trans exists'
    cases ((old.setHandler_closed srcAddr).trans opened).symm.trans closed
  · exact .inl ended
  · exact .inr same

/-- A socket refers to the worker that it referred to, or has just been opened for it. -/
theorem Sessions.workerRef_cases
    (refers : (self.after event server reaction).workerRef socket = some id) :
    self.workerRef socket = some id ∨
      (∃ srcAddr presented, event = .wsockOpen socket srcAddr presented) ∧
        reaction.claimed = some id := by
  have entry : ((self.socketsAfter reaction event).lookup socket).join = some id := refers
  cases event with
  | wsockOpen opened srcAddr presented =>
      rw [Sessions.socketsAfter, Dict.lookup_insert] at entry
      split at entry
      · rename_i same
        exact .inr ⟨⟨srcAddr, presented, same ▸ rfl⟩, entry⟩
      · exact .inl entry
  | onClose left =>
      rw [Sessions.socketsAfter, Dict.lookup_erase] at entry
      split at entry
      · cases entry
      · exact .inl entry
  | postStart => exact .inl entry
  | postDone => exact .inl entry
  | onMessage => exact .inl entry
  | ready => exact .inl entry
  | retry => exact .inl entry
  | recycle => exact .inl entry

/-- A socket that is not closed refers to its worker. -/
theorem Sessions.workerRef_after (happens : self.happens event = true)
    (refers : self.workerRef socket = some id) (stays : event ≠ .onClose socket) :
    (self.after event server reaction).workerRef socket = some id := by
  change ((self.socketsAfter reaction event).lookup socket).join = some id
  cases event with
  | wsockOpen opened srcAddr presented =>
      -- the socket that is opened is none of those that are open
      have different : socket ≠ opened := by
        rintro rfl
        rw [Sessions.workerRef, Option.isNone_iff_eq_none.mp happens] at refers
        cases refers
      rw [Sessions.socketsAfter, Dict.lookup_insert, if_neg different]
      exact refers
  | onClose left =>
      rw [Sessions.socketsAfter, Dict.lookup_erase, if_neg]
      · exact refers
      · rintro rfl
        exact stays rfl
  | postStart => exact refers
  | postDone => exact refers
  | onMessage => exact refers
  | ready => exact refers
  | retry => exact refers
  | recycle => exact refers

/-- A socket that is opened for a worker refers to it. -/
theorem Sessions.workerRef_claimed {srcAddr : Addr} {presented : Option String}
    (claimed : reaction.claimed = some id) :
    (self.after (.wsockOpen socket srcAddr presented) server reaction).workerRef socket =
      some id := by
  have entry : ((self.sockets.insert socket reaction.claimed).lookup socket).join = some id := by
    rw [Dict.lookup_insert, if_pos rfl]
    exact claimed
  exact entry

/-- What the loop watches is what it watched, less a worker that is closed, and a worker that is
claimed. -/
theorem Tended.mem_watched (tended : Tended self) :
    id ∈ (self.after event server reaction).watched ↔
      id ∈ self.watched ∧ reaction.ended ≠ some id ∨ reaction.claimed = some id := by
  change id ∈ self.watchedAfter reaction ↔ _
  rw [Sessions.watchedAfter]
  cases ended : reaction.ended with
  | none => simp [Option.mem_toList]
  | some gone =>
      have unclaimed : reaction.claimed = none := by
        rcases Reaction.ended_eq_some ended with rfl | ⟨fault, rfl⟩ <;> rfl
      rw [unclaimed]
      dsimp only
      split
      · simp [eq_comm (a := id)]
      · rename_i missing
        -- without a handler the loop does not watch it
        have unwatched : gone ∉ self.watched := by
          intro watched
          obtain ⟨worker, exists', _, attached⟩ := tended.watched gone watched
          apply missing
          rw [Sessions.hasHandler, exists']
          exact Option.isSome_iff_ne_none.mpr attached
        constructor
        · intro watched
          refine .inl ⟨watched, ?_⟩
          rintro ⟨⟩
          exact unwatched watched
        · rintro (⟨watched, _⟩ | ⟨⟨⟩⟩)
          exact watched

theorem Tended.waiting_after (tended : Tended self) (effect : Effect self event server reaction)
    {worker : Worker} (found : server.workers.lookup id = some worker)
    (opened : worker.closed = false) (waiting : worker.handler = none) : id ∈ server.timers := by
  rcases effect.open_before found opened with ⟨_, armed⟩ | claimed | exists'
  · exact armed
  · obtain ⟨later, same, _, attached⟩ := effect.worker_of_claimed claimed
    cases found.symm.trans same
    exact absurd waiting attached
  · rcases effect.fired id (tended.waiting id worker exists' opened waiting) with armed | finished
    · exact armed
    · rcases finished worker found with closed | attached
      · cases closed.symm.trans opened
      · exact absurd waiting attached

theorem Tended.attached_after (tended : Tended self) (happens : self.happens event = true)
    (effect : Effect self event server reaction) {worker : Worker}
    (found : server.workers.lookup id = some worker) (opened : worker.closed = false)
    (attached : worker.handler ≠ none) :
    id ∈ (self.after event server reaction).watched ∧
      ∃ socket, (self.after event server reaction).workerRef socket = some id := by
  rw [tended.mem_watched]
  rcases effect.open_before found opened with ⟨waiting, _⟩ | claimed | exists'
  · exact absurd waiting attached
  · obtain ⟨⟨socket, srcAddr, rfl⟩, _⟩ := effect.claimed id claimed
    exact ⟨.inr claimed, socket, Sessions.workerRef_claimed claimed⟩
  · obtain ⟨watched, socket, refers⟩ := tended.attached id worker exists' opened attached
    refine ⟨.inl ⟨watched, ?_⟩, socket, Sessions.workerRef_after happens refers ?_⟩
    · intro ended
      obtain ⟨later, same, closed⟩ := effect.closed_of_ended ended
      cases found.symm.trans same
      cases closed.symm.trans opened
    · intro left
      cases (effect.left socket id left refers worker found).symm.trans opened

theorem Tended.watched_after (tended : Tended self) (effect : Effect self event server reaction)
    (watched : id ∈ (self.after event server reaction).watched) :
    ∃ worker, server.workers.lookup id = some worker ∧
      worker.closed = false ∧ worker.handler ≠ none := by
  rcases tended.mem_watched.mp watched with ⟨before, stays⟩ | claimed
  · obtain ⟨worker, exists', opened, attached⟩ := tended.watched id before
    obtain ⟨later, found, becomes⟩ := effect.becomes id worker exists'
    refine ⟨later, found, Bool.eq_false_iff.mpr fun closed => ?_, becomes.handler attached⟩
    rcases effect.closed_before found closed with ended | same
    · exact stays ended
    · cases exists'.symm.trans same
      cases opened.symm.trans closed
  · exact effect.worker_of_claimed claimed

theorem Tended.watchedOnce_after (tended : Tended self)
    (effect : Effect self event server reaction) :
    (self.after event server reaction).watched.Nodup := by
  change (self.watchedAfter reaction).Nodup
  rw [Sessions.watchedAfter]
  split
  · split
    · exact tended.watchedOnce.filter _
    · exact tended.watchedOnce
  · cases claimed : reaction.claimed with
    | none =>
        rw [Option.toList_none, List.append_nil]
        exact tended.watchedOnce
    | some id =>
        refine tended.watchedOnce.append (List.nodup_singleton id) ?_
        rw [Option.toList_some, List.disjoint_singleton]
        intro watched
        obtain ⟨_, worker, exists', waiting, _⟩ := effect.claimed id claimed
        obtain ⟨same, found, _, attached⟩ := tended.watched id watched
        cases exists'.symm.trans found
        exact attached waiting

theorem Tended.released_after (tended : Tended self) (effect : Effect self event server reaction) :
    id ∈ (self.after event server reaction).closed ↔
      ∃ worker, server.workers.lookup id = some worker ∧ worker.closed = true := by
  change id ∈ self.closed ++ reaction.ended.toList ↔ _
  rw [List.mem_append, Option.mem_toList, tended.released]
  constructor
  · rintro (⟨worker, exists', closed⟩ | ended)
    · obtain ⟨later, found, becomes⟩ := effect.becomes id worker exists'
      exact ⟨later, found, becomes.closed closed⟩
    · exact effect.closed_of_ended ended
  · rintro ⟨worker, found, closed⟩
    rcases effect.closed_before found closed with ended | exists'
    · exact .inr ended
    · exact .inl ⟨worker, exists', closed⟩

theorem Tended.closedOnce_after (tended : Tended self)
    (effect : Effect self event server reaction) :
    (self.after event server reaction).closed.Nodup := by
  change (self.closed ++ reaction.ended.toList).Nodup
  cases ended : reaction.ended with
  | none =>
      rw [Option.toList_none, List.append_nil]
      exact tended.closedOnce
  | some id =>
      refine tended.closedOnce.append (List.nodup_singleton id) ?_
      rw [Option.toList_some, List.disjoint_singleton, tended.released]
      rintro ⟨worker, found, closed⟩
      obtain ⟨same, exists', opened⟩ := effect.ended id ended
      cases exists'.symm.trans found
      cases opened.symm.trans closed

/-- What a socket refers to is a worker with a handler. -/
theorem Tended.refers_after (tended : Tended self) (effect : Effect self event server reaction)
    (refers : (self.after event server reaction).workerRef socket = some id) :
    ∃ worker, server.workers.lookup id = some worker ∧ worker.handler ≠ none := by
  rcases Sessions.workerRef_cases refers with before | ⟨_, claimed⟩
  · obtain ⟨worker, exists', attached⟩ := tended.refers socket id before
    obtain ⟨later, found, becomes⟩ := effect.becomes id worker exists'
    exact ⟨later, found, becomes.handler attached⟩
  · obtain ⟨worker, found, _, attached⟩ := effect.worker_of_claimed claimed
    exact ⟨worker, found, attached⟩

/-- A worker that is claimed was referred to by no socket. -/
theorem Tended.unclaimed (tended : Tended self) (effect : Effect self event server reaction)
    (claimed : reaction.claimed = some id) : self.workerRef socket ≠ some id := by
  intro refers
  obtain ⟨_, worker, exists', waiting, _⟩ := effect.claimed id claimed
  obtain ⟨same, found, attached⟩ := tended.refers socket id refers
  cases exists'.symm.trans found
  exact attached waiting

theorem Tended.apart_after (tended : Tended self) (effect : Effect self event server reaction)
    {other : Nat} (refers : (self.after event server reaction).workerRef socket = some id)
    (again : (self.after event server reaction).workerRef other = some id) : socket = other := by
  rcases Sessions.workerRef_cases refers with before | ⟨⟨srcAddr, presented, opened⟩, claimed⟩ <;>
    rcases Sessions.workerRef_cases again with earlier | ⟨⟨_, _, same⟩, claimed'⟩
  · exact tended.apart socket other id before earlier
  · exact absurd before (tended.unclaimed effect claimed')
  · exact absurd earlier (tended.unclaimed effect claimed)
  · cases opened.symm.trans same
    rfl

/-- Whatever happens, an open worker has someone who closes it. -/
theorem Tended.after (tended : Tended self) (happens : self.happens event = true)
    (effect : Effect self event server reaction) :
    Tended (self.after event server reaction) where
  waiting _ _ := tended.waiting_after effect
  attached _ _ := tended.attached_after happens effect
  watched _ := tended.watched_after effect
  watchedOnce := tended.watchedOnce_after effect
  released _ := tended.released_after effect
  closedOnce := tended.closedOnce_after effect
  refers _ _ := tended.refers_after effect
  apart _ _ _ := tended.apart_after effect

end Step

section Runs

variable {maxconn : Int} {trace : List (SessionEvent × Reaction)} {self : Sessions}

theorem tended_initial : Tended ⟨.initial, ∅, [], []⟩ := by
  constructor
  · intro id worker found
    cases found
  · intro id worker found
    cases found
  · exact nofun
  · exact List.nodup_nil
  · intro id
    constructor
    · exact nofun
    · rintro ⟨worker, found, _⟩
      cases found
  · exact List.nodup_nil
  · intro socket id refers
    cases refers
  · intro socket other id refers
    cases refers

/-- One event is one callback of the registry, or none. -/
theorem handle_of_react {after : Sessions} {event : SessionEvent} {reaction : Reaction}
    (reacted : self.react maxconn event = some (after, reaction)) :
    self.happens event = true ∧ ∃ server, self.handle maxconn event = some (server, reaction) ∧
      after = self.after event server reaction := by
  rw [Sessions.react] at reacted
  split at reacted
  · rename_i happens
    obtain ⟨⟨server, _⟩, handled, same⟩ := Option.map_eq_some_iff.mp reacted
    cases same
    exact ⟨happens, server, handled, rfl⟩
  · cases reacted

/-- What the loop makes of the registry is a run of the registry. -/
theorem registry_of_traces (traces : (sessionLoop maxconn).Traces FreshSessions trace self) :
    ∃ callbacks, (eventLoop maxconn).Traces FreshIds callbacks self.server := by
  apply traces.invariant
  · exact ⟨[], .start⟩
  · rintro _ before after event reaction _ ⟨callbacks, reached⟩ fresh reacted
    obtain ⟨_, server, handled, rfl⟩ := handle_of_react reacted
    rw [Sessions.handle] at handled
    split at handled
    · cases handled
      exact ⟨callbacks, reached⟩
    · rename_i callback called
      exact ⟨_, reached.next (fresh callback called) handled⟩

/-- Whatever the loop runs, an open worker has someone who closes it. -/
theorem tended_of_traces (traces : (sessionLoop maxconn).Traces FreshSessions trace self) :
    Tended self := by
  apply traces.invariant tended_initial
  intro _ before after event reaction reached tended fresh reacted
  obtain ⟨callbacks, registry⟩ := registry_of_traces reached
  obtain ⟨owner, coherent⟩ := coherent_of_traces registry
  obtain ⟨happens, server, handled, rfl⟩ := handle_of_react reacted
  exact tended.after happens (effect_of_handle coherent fresh handled)

/-- Whatever the loop runs, every open worker is watched and has its socket, or its timer is
set, and no channel is closed twice.  When no socket is open and no timer is left, the loop
watches nothing, and the channel of every worker was closed, once. -/
theorem released_of_traces (traces : (sessionLoop maxconn).Traces FreshSessions trace self) :
    Tended self ∧ (self.sockets = ∅ → self.server.timers = [] → self.watched = [] ∧
      ∀ id worker, self.server.workers.lookup id = some worker →
        worker.closed = true ∧ self.closed.count id = 1) := by
  have tended := tended_of_traces traces
  refine ⟨tended, fun silent elapsed => ?_⟩
  have shut : ∀ id worker, self.server.workers.lookup id = some worker →
      worker.closed = true := by
    intro id worker found
    by_contra opened
    rw [Bool.not_eq_true] at opened
    by_cases waiting : worker.handler = none
    · have armed := tended.waiting id worker found opened waiting
      rw [elapsed] at armed
      cases armed
    · obtain ⟨_, socket, refers⟩ := tended.attached id worker found opened waiting
      rw [Sessions.workerRef, silent] at refers
      cases refers
  constructor
  · refine List.eq_nil_iff_forall_not_mem.mpr fun id watched => ?_
    obtain ⟨worker, found, opened, _⟩ := tended.watched id watched
    cases opened.symm.trans (shut id worker found)
  · intro id worker found
    refine ⟨shut id worker found, List.count_eq_one_of_mem tended.closedOnce ?_⟩
    exact (tended.released id).mpr ⟨worker, found, shut id worker found⟩

/-- One worker is claimed and served, another is not; then the client leaves. -/
theorem released_of_traces_served : ∃ trace self,
    (sessionLoop 20).Traces FreshSessions trace self ∧
      self.sockets = ∅ ∧ self.server.timers = [] ∧ self.closed = ["idle", "worker"] ∧
      self.watched = [] ∧ ∀ id worker, self.server.workers.lookup id = some worker →
        worker.closed = true ∧ self.closed.count id = 1 := by
  have ran : (sessionLoop 20).run (fun self event => decide (FreshSessions self event)) []
      ⟨.initial, ∅, [], []⟩
      [.postStart ("10.0.0.1", 4001) true, .postDone 0 (some "worker"),
        .postStart ("10.0.0.1", 4002) true, .postDone 0 (some "idle"),
        .wsockOpen 0 ("10.0.0.1", 4003) (some "worker"),
        .wsockOpen 1 ("10.0.0.1", 4004) (some "worker"), .onMessage 0 false,
        .ready "worker" false, .recycle "worker", .recycle "idle", .onClose 1,
        .onClose 0] = some (_, _) := rfl
  have traces := (Reactor.traces_of_run .start ran).mono fun _ _ => of_decide_eq_true
  exact ⟨_, _, traces, rfl, rfl, rfl, (released_of_traces traces).2 rfl rfl⟩

end Runs

end CloudRunSsh.WebSSH
