import Mathlib.Logic.Function.Basic
import CloudRunSsh.Concurrency.Trace
import CloudRunSsh.Data.Dict

/-!
# The session registry of the web terminal

The registry of `webssh`: for every client address a dictionary from session ids to
workers, reached through the module-level dictionary `clients`.  Dictionaries are objects,
so a request that holds one across a `yield` still holds it when `clients` refers to
another.  Every callback of the event loop is one step.
-/

namespace CloudRunSsh.WebSSH

open CloudRunSsh.Concurrency

/-- An address and a port. -/
abbrev Addr := String × Nat

/-- `Worker`: what the registry uses of a session.  `handler` is the address of the
WebSocket that it is attached to. -/
structure Worker where
  srcAddr : Addr
  handler : Option Addr := none
  closed : Bool := false

/-- A POST that waits for its SSH connection, with the dictionary it holds. -/
structure Post where
  srcAddr : Addr
  workers : Nat

/-- The registry with the requests in flight.  Dictionaries from `fresh` on are unused;
an entry of a dictionary is a worker, named by its id, or `None`. -/
structure Server where
  clients : Dict String Nat
  dicts : Nat → Dict String (Option String)
  fresh : Nat
  workers : Dict String Worker
  posts : List Post
  timers : List String

namespace Server

/-- The registry when the module is loaded. -/
def initial : Server where
  clients := ∅
  dicts _ := ∅
  fresh := 0
  workers := ∅
  posts := []
  timers := []

/-- `clients.get(ip, {})`: the dictionary of an address, or a new one that is not in
`clients`. -/
def getOrNew (server : Server) (ip : String) : Nat × Server :=
  match server.clients.lookup ip with
  | some workers => (workers, server)
  | none => (server.fresh, { server with fresh := server.fresh + 1 })

/-- `len(workers)`. -/
def size (server : Server) (workers : Nat) : Nat := (server.dicts workers).items.length

/-- Replace one dictionary. -/
def setDict (server : Server) (workers : Nat) (dict : Dict String (Option String)) :
    Server :=
  { server with dicts := Function.update server.dicts workers dict }

/-- Replace the attributes of one worker. -/
def setWorker (server : Server) (id : String) (worker : Worker) : Server :=
  { server with workers := server.workers.insert id worker }

/-- `workers.pop(id)`, followed by `clients.pop(ip)` when no worker is left. -/
def pop (server : Server) (ip : String) (workers : Nat) (id : String) : Server :=
  let server := server.setDict workers ((server.dicts workers).erase id)
  if server.size workers = 0 then { server with clients := server.clients.erase ip }
  else server

end Server

/-- The exceptions of `clear_worker`. -/
inductive Fault where
  | typeError
  | assertionError
  deriving DecidableEq, Repr

/-- `clear_worker`.  Without a dictionary the membership test of the assertion fails
itself; emptying `clients` when it is empty is left out. -/
def clearWorker (server : Server) (id : String) (worker : Worker) : Except Fault Server :=
  match server.clients.lookup worker.srcAddr.1 with
  | none => .error .typeError
  | some workers =>
      if ((server.dicts workers).lookup id).isNone then .error .assertionError
      else .ok (server.pop worker.srcAddr.1 workers id)

/-- What the event loop runs.  The outcome of an SSH connection is the id of the new
worker, or nothing when it failed. -/
inductive Callback where
  | postStart (srcAddr : Addr) (accepted : Bool)
  | postDone (index : Nat) (result : Option String)
  | wsockOpen (srcAddr : Addr) (id : Option String)
  | recycle (id : String)
  | close (id : String)
  deriving DecidableEq, Repr

/-- What a callback results in. -/
inductive Reaction where
  | refused
  | connecting
  | failed
  | registered (id : String) (srcAddr : Addr)
  | rejected
  | attached (id : String) (srcAddr : Addr)
  | ignored
  | closed (id : String)
  | crashed (id : String) (fault : Fault)
  deriving DecidableEq, Repr

/-- `IndexHandler.post` up to the `yield`.  `accepted` tells whether the checks of the
origin and of the arguments pass. -/
def postStart (maxconn : Int) (server : Server) (srcAddr : Addr) (accepted : Bool) :
    Server × Reaction :=
  let (workers, server) := server.getOrNew srcAddr.1
  if server.size workers ≠ 0 ∧ (server.size workers : Int) ≥ maxconn then (server, .refused)
  else if !accepted then (server, .refused)
  else ({ server with posts := server.posts ++ [⟨srcAddr, workers⟩] }, .connecting)

/-- `IndexHandler.post` after the `yield`, when the connection was made. -/
def register (server : Server) (post : Post) (id : String) : Server :=
  let server :=
    if server.size post.workers = 0 then
      { server with clients := server.clients.insert post.srcAddr.1 post.workers }
    else server
  let server := server.setWorker id { srcAddr := post.srcAddr }
  let server := server.setDict post.workers ((server.dicts post.workers).insert id (some id))
  { server with timers := server.timers ++ [id] }

/-- `IndexHandler.post` after the `yield`. -/
def postDone (server : Server) (index : Nat) (result : Option String) :
    Option (Server × Reaction) :=
  (server.posts[index]?).map fun post =>
    let server := { server with posts := server.posts.eraseIdx index }
    match result with
    | none => (server, .failed)
    | some id => (register server post id, .registered id post.srcAddr)

/-- `Worker.set_handler`. -/
def Worker.setHandler (worker : Worker) (handler : Addr) : Worker :=
  if worker.handler.isNone then { worker with handler := some handler } else worker

/-- `WsockHandler.open`.  An id that is missing or empty is no value. -/
def wsockOpen (server : Server) (srcAddr : Addr) (id : Option String) : Server × Reaction :=
  match server.clients.lookup srcAddr.1 with
  | none => (server, .rejected)
  | some workers =>
      if server.size workers = 0 then (server, .rejected)
      else
        match id with
        | none => (server, .rejected)
        | some workerID =>
            if workerID = "" then (server, .rejected)
            else
              match ((server.dicts workers).lookup workerID).join with
              | none => (server, .rejected)
              | some id =>
                  let server := server.setDict workers
                    ((server.dicts workers).insert workerID none)
                  match server.workers.lookup id with
                  | none => (server, .rejected)
                  | some worker =>
                      (server.setWorker id (worker.setHandler srcAddr),
                        .attached id srcAddr)

/-- `Worker.close`.  The worker counts as closed also when `clear_worker` fails. -/
def close (server : Server) (id : String) (worker : Worker) : Server × Reaction :=
  if worker.closed then (server, .ignored)
  else
    let server := server.setWorker id { worker with closed := true }
    match clearWorker server id worker with
    | .ok server => (server, .closed id)
    | .error fault => (server, .crashed id fault)

/-- `recycle_worker`. -/
def recycleWorker (server : Server) (id : String) (worker : Worker) : Server × Reaction :=
  if worker.handler.isSome then (server, .ignored) else close server id worker

/-- One callback.  A POST resumes once, a timer fires once, and a worker that does not
exist cannot be closed. -/
def react (maxconn : Int) (server : Server) : Callback → Option (Server × Reaction)
  | .postStart srcAddr accepted => some (postStart maxconn server srcAddr accepted)
  | .postDone index result => postDone server index result
  | .wsockOpen srcAddr id => some (wsockOpen server srcAddr id)
  | .recycle id =>
      if id ∈ server.timers then
        (server.workers.lookup id).map fun worker =>
          recycleWorker { server with timers := server.timers.erase id } id worker
      else none
  | .close id => (server.workers.lookup id).map fun worker => close server id worker

/-- The event loop of the web terminal. -/
def eventLoop (maxconn : Int) : Reactor Server Callback Reaction where
  initial := Server.initial
  react := react maxconn

/-- The ids of workers are not empty and pairwise distinct. -/
def FreshIds (server : Server) (callback : Callback) : Prop :=
  ∀ index id, callback = .postDone index (some id) →
    id ≠ "" ∧ server.workers.lookup id = none

instance (server : Server) : (callback : Callback) → Decidable (FreshIds server callback)
  | .postDone index (some id) =>
      decidable_of_iff (id ≠ "" ∧ server.workers.lookup id = none) (by simp [FreshIds])
  | .postDone _ none => .isTrue nofun
  | .postStart _ _ => .isTrue nofun
  | .wsockOpen _ _ => .isTrue nofun
  | .recycle _ => .isTrue nofun
  | .close _ => .isTrue nofun

end CloudRunSsh.WebSSH
