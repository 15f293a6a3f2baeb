import CloudRunSsh.Concurrency.Trace

/-!
# Keystrokes of the web terminal

A worker keeps the data that the channel has not accepted yet in `data_to_dst`.  It sends when
a message arrives, when the event loop calls it and when a retry is due; what is not accepted
waits for the next time.
-/

namespace CloudRunSsh.WebSSH

open CloudRunSsh.Concurrency

/-- `IOLoop.READ` and `IOLoop.WRITE`. -/
inductive Mode where
  | read
  | write
  deriving DecidableEq, Repr

/-- The events that the loop reports in one call. -/
structure Events where
  read : Bool
  write : Bool
  error : Bool
  deriving DecidableEq, Repr

/-- What `chan.send` comes to: the number of leading characters that are accepted, or an error.
The error is fatal if the channel is closed or the connection was reset. -/
inductive SendAnswer where
  | accepts (sent : Nat)
  | retriable
  | fatal
  deriving DecidableEq, Repr

/-- The characters that the channel accepts of what is handed to `chan.send`. -/
def SendAnswer.accepted {Symbol : Type} (data : List Symbol) : SendAnswer → List Symbol
  | .accepts sent => data.take sent
  | .retriable => []
  | .fatal => []

/-- What `chan.recv` comes to: data for a WebSocket that is open or not, the end of the data, or
an error. -/
inductive ReceiveAnswer where
  | data (opened : Bool)
  | ended
  | retriable
  | fatal
  deriving DecidableEq, Repr

/-- `Worker`, once it has a handler: what the keystrokes use of it, what the loop watches its
descriptor for, and how many retries the loop has scheduled. -/
structure Relay (Symbol : Type) where
  dataToDst : List (List Symbol) := []
  mode : Mode := .read
  closed : Bool := false
  registered : Option Mode := some .read
  retries : Nat := 0
  deriving DecidableEq, Repr

namespace Relay

variable {Symbol : Type}

/-- `Worker.update_handler`. -/
def updateHandler (mode : Mode) (relay : Relay Symbol) : Relay Symbol :=
  let relay :=
    if relay.mode ≠ mode then { relay with registered := some mode, mode := mode } else relay
  if mode = .write then { relay with retries := relay.retries + 1 } else relay

/-- `Worker.close`. -/
def close (relay : Relay Symbol) : Relay Symbol :=
  if relay.closed then relay else { relay with closed := true, registered := none }

/-- `Worker.on_read`. -/
def onRead (answer : ReceiveAnswer) (relay : Relay Symbol) : Relay Symbol :=
  match answer with
  | .data opened => if opened then relay else relay.close
  | .ended => relay.close
  | .retriable => relay
  | .fatal => relay.close

/-- `Worker.on_write`, with what it hands to `chan.send`. -/
def onWrite (answer : SendAnswer) (relay : Relay Symbol) : Relay Symbol × Option (List Symbol) :=
  if relay.dataToDst = [] then (relay, none)
  else
    let data := relay.dataToDst.flatten
    match answer with
    | .retriable => (relay.updateHandler .write, some data)
    | .fatal => (relay.close, some data)
    | .accepts sent =>
        let rest := data.drop sent
        if rest ≠ [] then (updateHandler .write { relay with dataToDst := [rest] }, some data)
        else (updateHandler .read { relay with dataToDst := [] }, some data)

/-- `Worker.__call__`. -/
def call (events : Events) (received : ReceiveAnswer) (answer : SendAnswer)
    (relay : Relay Symbol) : Relay Symbol × Option (List Symbol) :=
  let relay := if events.read then relay.onRead received else relay
  let (relay, handed) := if events.write then relay.onWrite answer else (relay, none)
  (if events.error then relay.close else relay, handed)

/-- `WsockHandler.on_message` for a live worker, from `data` on. -/
def deliver (data : List Symbol) (answer : SendAnswer) (relay : Relay Symbol) :
    Relay Symbol × Option (List Symbol) :=
  if data = [] then (relay, none)
  else onWrite answer { relay with dataToDst := relay.dataToDst ++ [data] }

end Relay

/-- What the event loop runs for a worker. -/
inductive RelayCallback (Symbol : Type) where
  | message (data : List Symbol) (answer : SendAnswer)
  | poll (events : Events) (received : ReceiveAnswer) (answer : SendAnswer)
  | retry (answer : SendAnswer)
  | leave

/-- The worker after a callback, and what it hands to `chan.send` in it.  The loop polls a
descriptor as long as it is registered, and a retry runs once. -/
def relayReact {Symbol : Type} (relay : Relay Symbol) :
    RelayCallback Symbol → Option (Relay Symbol × Option (List Symbol))
  | .message data answer =>
      some (if relay.closed then (relay, none) else relay.deliver data answer)
  | .poll events received answer =>
      if relay.registered = none then none else some (relay.call events received answer)
  | .retry answer =>
      match relay.retries with
      | 0 => none
      | retries + 1 =>
          some ({ relay with retries := retries }.call ⟨false, true, false⟩ .retriable answer)
  | .leave => some (relay.close, none)

/-- The event loop, from the time on when the worker has a handler. -/
def relayLoop (Symbol : Type) :
    Reactor (Relay Symbol) (RelayCallback Symbol) (Option (List Symbol)) where
  initial := {}
  react := relayReact

section Stream

variable {Symbol : Type}

/-- The data of a callback. -/
def RelayCallback.data : RelayCallback Symbol → List Symbol
  | .message data _ => data
  | .poll .. | .retry _ | .leave => []

/-- What the channel accepts in a callback of what is handed to it: the characters that its
answer says. -/
def RelayCallback.accepted (handed : Option (List Symbol)) : RelayCallback Symbol → List Symbol
  | .message _ answer => handed.elim [] answer.accepted
  | .poll _ _ answer => handed.elim [] answer.accepted
  | .retry answer => handed.elim [] answer.accepted
  | .leave => []

/-- All data that arrived, in its order. -/
def arrived (trace : List (RelayCallback Symbol × Option (List Symbol))) : List Symbol :=
  trace.flatMap fun record => record.1.data

/-- All data that the channel accepted, in its order. -/
def accepted (trace : List (RelayCallback Symbol × Option (List Symbol))) : List Symbol :=
  trace.flatMap fun record => record.1.accepted record.2

namespace Relay

/-- The data that the channel has not accepted. -/
def pending (relay : Relay Symbol) : List Symbol := relay.dataToDst.flatten

/-- Before data is sent: no piece of data is empty, and the loop watches for the mode of the
worker, which is `READ` where no data is pending. -/
structure Ready (relay : Relay Symbol) : Prop where
  pieces : [] ∉ relay.dataToDst
  registered : relay.registered = some relay.mode
  idle : relay.dataToDst = [] → relay.mode = .read

/-- Between two callbacks, where data is pending the mode is `WRITE` and a retry is scheduled. -/
structure Settled (relay : Relay Symbol) : Prop extends Ready relay where
  waiting : relay.dataToDst ≠ [] → relay.mode = .write ∧ 0 < relay.retries

variable {relay : Relay Symbol}

theorem pending_eq_nil (pieces : [] ∉ relay.dataToDst) :
    relay.pending = [] ↔ relay.dataToDst = [] := by
  rw [pending, List.flatten_eq_nil_iff]
  constructor
  · intro empty
    cases found : relay.dataToDst with
    | nil => rfl
    | cons piece rest =>
        rw [found] at pieces empty
        rw [empty piece List.mem_cons_self] at pieces
        exact absurd List.mem_cons_self pieces
  · intro empty
    rw [empty]
    exact List.forall_mem_nil _

@[simp] theorem dataToDst_updateHandler (mode : Mode) (relay : Relay Symbol) :
    (relay.updateHandler mode).dataToDst = relay.dataToDst := by
  rw [updateHandler]
  split <;> split <;> rfl

@[simp] theorem closed_updateHandler (mode : Mode) (relay : Relay Symbol) :
    (relay.updateHandler mode).closed = relay.closed := by
  rw [updateHandler]
  split <;> split <;> rfl

/-- The loop watches for the new mode. -/
theorem updateHandler_registered (mode : Mode) (relay : Relay Symbol)
    (registered : relay.registered = some relay.mode) :
    (relay.updateHandler mode).mode = mode ∧
      (relay.updateHandler mode).registered = some mode := by
  by_cases same : relay.mode = mode
  · cases mode with
    | read => simp [updateHandler, same, registered]
    | write => simp [updateHandler, same, registered]
  · cases mode with
    | read => simp [updateHandler, same]
    | write => simp [updateHandler, same]

theorem updateHandler_retries (relay : Relay Symbol) :
    0 < (relay.updateHandler .write).retries := by
  rw [updateHandler]
  exact Nat.succ_pos _

theorem settled_updateHandler (pieces : [] ∉ relay.dataToDst)
    (registered : relay.registered = some relay.mode) (filled : relay.dataToDst ≠ []) :
    (relay.updateHandler .write).Settled := by
  obtain ⟨mode, watched⟩ := updateHandler_registered .write relay registered
  constructor
  · constructor
    · rwa [dataToDst_updateHandler]
    · rw [mode, watched]
    · rw [dataToDst_updateHandler]
      exact fun empty => absurd empty filled
  · exact fun _ => ⟨mode, updateHandler_retries relay⟩

@[simp] theorem dataToDst_close (relay : Relay Symbol) :
    relay.close.dataToDst = relay.dataToDst := by
  rw [close]
  split <;> rfl

@[simp] theorem closed_close (relay : Relay Symbol) : relay.close.closed = true := by
  rw [close]
  split
  · assumption
  · rfl

/-- What the channel accepts and what is pending afterwards is what was pending before. -/
theorem accepted_onWrite (answer : SendAnswer) (relay : Relay Symbol) :
    (relay.onWrite answer).2.elim [] answer.accepted ++ (relay.onWrite answer).1.pending =
      relay.pending := by
  rw [onWrite]
  split
  · rfl
  · cases answer with
    | retriable => simp [pending, SendAnswer.accepted]
    | fatal => simp [pending, SendAnswer.accepted]
    | accepts sent =>
        dsimp only
        split
        · simp [pending, SendAnswer.accepted]
        · rename_i sentAll
          rw [not_not] at sentAll
          have whole := List.take_append_drop sent relay.dataToDst.flatten
          rw [sentAll] at whole
          simpa [pending, SendAnswer.accepted] using whole

/-- A worker that is live after sending was live before. -/
theorem live_of_onWrite {answer : SendAnswer} (live : (relay.onWrite answer).1.closed = false) :
    relay.closed = false := by
  rw [onWrite] at live
  split at live
  · exact live
  · cases answer with
    | retriable => simpa using live
    | fatal => simp at live
    | accepts sent =>
        dsimp only at live
        split at live
        · simpa using live
        · simpa using live

/-- A worker that is live after sending is settled. -/
theorem settled_onWrite {answer : SendAnswer} (ready : relay.Ready)
    (live : (relay.onWrite answer).1.closed = false) : (relay.onWrite answer).1.Settled := by
  rw [onWrite] at live ⊢
  split
  · rename_i empty
    exact ⟨ready, fun filled => absurd empty filled⟩
  · rename_i filled
    cases answer with
    | retriable => exact settled_updateHandler ready.pieces ready.registered filled
    | fatal => simp [filled] at live
    | accepts sent =>
        dsimp only
        split
        · rename_i more
          refine settled_updateHandler (fun empty => more ?_) ready.registered (by simp)
          exact (List.mem_singleton.mp empty).symm
        · obtain ⟨mode, registered⟩ := updateHandler_registered .read
            { relay with dataToDst := [] } ready.registered
          constructor
          · constructor
            · simp
            · rw [mode, registered]
            · exact fun _ => mode
          · simp

theorem onRead_eq (answer : ReceiveAnswer) (relay : Relay Symbol) :
    relay.onRead answer = relay ∨ relay.onRead answer = relay.close := by
  cases answer with
  | data opened =>
      cases opened with
      | false => exact .inr rfl
      | true => exact .inl rfl
  | ended => exact .inr rfl
  | retriable => exact .inl rfl
  | fatal => exact .inr rfl

section Call

variable {events : Events} {received : ReceiveAnswer} {answer : SendAnswer}

theorem accepted_call :
    (relay.call events received answer).2.elim [] answer.accepted ++
      (relay.call events received answer).1.pending = relay.pending := by
  have read : (if events.read then relay.onRead received else relay).pending =
      relay.pending := by
    split
    · rcases onRead_eq received relay with same | same
      · rw [same]
      · rw [same, pending, dataToDst_close, pending]
    · rfl
  have error : ∀ after : Relay Symbol,
      (if events.error then after.close else after).pending = after.pending := by
    intro after
    split
    · rw [pending, dataToDst_close, pending]
    · rfl
  rw [call]
  dsimp only
  split
  · rw [error, accepted_onWrite, read]
  · rw [error, read]
    rfl

/-- Nothing that closes the worker was read or reported in a call that it is live after. -/
theorem call_of_live (live : (relay.call events received answer).1.closed = false) :
    (relay.call events received answer).1 =
      if events.write then (relay.onWrite answer).1 else relay := by
  rw [call] at live ⊢
  dsimp only at live ⊢
  cases error : events.error with
  | true =>
      rw [error, if_pos rfl, closed_close] at live
      cases live
  | false =>
      rw [error, if_neg Bool.false_ne_true] at live
      rw [if_neg Bool.false_ne_true]
      have unread : (if events.read then relay.onRead received else relay) = relay := by
        split
        · rename_i read
          rcases onRead_eq received relay with same | same
          · exact same
          · rw [if_pos read, same] at live
            have open' : relay.close.closed = false := by
              split at live
              · exact live_of_onWrite live
              · exact live
            rw [closed_close] at open'
            cases open'
        · rfl
      rw [unread]
      split <;> rfl

theorem live_of_call (live : (relay.call events received answer).1.closed = false) :
    relay.closed = false := by
  have same := call_of_live live
  rw [same] at live
  split at live
  · exact live_of_onWrite live
  · exact live

theorem settled_call (ready : relay.Ready) (writes : events.write = false → relay.Settled)
    (live : (relay.call events received answer).1.closed = false) :
    (relay.call events received answer).1.Settled := by
  have same := call_of_live live
  rw [same] at live ⊢
  split
  · rename_i write
    rw [if_pos write] at live
    exact settled_onWrite ready live
  · rename_i write
    exact writes (Bool.eq_false_iff.mpr write)

end Call

theorem accepted_deliver (data : List Symbol) (answer : SendAnswer) :
    (relay.deliver data answer).2.elim [] answer.accepted ++
      (relay.deliver data answer).1.pending = relay.pending ++ data := by
  rw [deliver]
  split
  · rename_i empty
    rw [empty, List.append_nil]
    rfl
  · rw [accepted_onWrite, pending, List.flatten_append, List.flatten_singleton, pending]

theorem live_of_deliver {data : List Symbol} {answer : SendAnswer}
    (live : (relay.deliver data answer).1.closed = false) : relay.closed = false := by
  rw [deliver] at live
  split at live
  · exact live
  · have before := live_of_onWrite live
    exact before

theorem settled_deliver {data : List Symbol} {answer : SendAnswer} (settled : relay.Settled)
    (live : (relay.deliver data answer).1.closed = false) :
    (relay.deliver data answer).1.Settled := by
  rw [deliver] at live ⊢
  split
  · exact settled
  · rename_i filled
    rw [if_neg filled] at live
    refine settled_onWrite ⟨?_, settled.registered, ?_⟩ live
    · simp [settled.pieces, Ne.symm filled]
    · simp

end Relay

/-- What a callback keeps of a worker that stays live, with the data that arrives and what the
channel accepts. -/
structure Relay.Kept (relay : Relay Symbol) (data taken : List Symbol)
    (after : Relay Symbol) : Prop where
  live : relay.closed = false
  settled : relay.Settled → after.Settled
  whole : taken ++ after.pending = relay.pending ++ data

theorem kept_of_relayReact {relay : Relay Symbol} {callback : RelayCallback Symbol}
    {result : Relay Symbol × Option (List Symbol)}
    (reacted : relayReact relay callback = some result) (live : result.1.closed = false) :
    relay.Kept callback.data (callback.accepted result.2) result.1 := by
  cases callback with
  | message data answer =>
      obtain rfl := Option.some_inj.mp reacted
      split at live
      · rename_i closed
        rw [closed] at live
        cases live
      · rename_i opened
        rw [if_neg opened]
        exact ⟨Relay.live_of_deliver live, fun settled => Relay.settled_deliver settled live,
          Relay.accepted_deliver data answer⟩
  | poll events received answer =>
      obtain ⟨_, same⟩ := Option.ite_none_left_eq_some.mp reacted
      obtain rfl := Option.some_inj.mp same
      refine ⟨Relay.live_of_call live,
        fun settled => Relay.settled_call settled.toReady (fun _ => settled) live, ?_⟩
      rw [RelayCallback.accepted, Relay.accepted_call, RelayCallback.data, List.append_nil]
  | retry answer =>
      cases scheduled : relay.retries with
      | zero =>
          rw [relayReact, scheduled] at reacted
          cases reacted
      | succ retries =>
          rw [relayReact, scheduled] at reacted
          obtain rfl := Option.some_inj.mp reacted
          have before := Relay.live_of_call live
          refine ⟨before, fun settled => ?_, ?_⟩
          · -- the retry that runs is gone, so what is left over schedules another
            refine Relay.settled_call ⟨settled.pieces, settled.registered, settled.idle⟩ ?_ live
            exact fun unwritten => nomatch unwritten
          · rw [RelayCallback.accepted, Relay.accepted_call, RelayCallback.data, List.append_nil]
            rfl
  | leave =>
      obtain rfl := Option.some_inj.mp reacted
      rw [Relay.closed_close] at live
      cases live

variable {guard : Relay Symbol → RelayCallback Symbol → Prop}
variable {trace : List (RelayCallback Symbol × Option (List Symbol))} {relay : Relay Symbol}

/-- A live worker is settled, and no data is lost, doubled or out of its order. -/
def Streams (trace : List (RelayCallback Symbol × Option (List Symbol)))
    (relay : Relay Symbol) : Prop :=
  relay.closed = false → relay.Settled ∧ accepted trace ++ relay.pending = arrived trace

theorem streams_of_traces (traces : (relayLoop Symbol).Traces guard trace relay) :
    Streams trace relay := by
  apply traces.invariant
  · intro _
    exact ⟨⟨⟨List.not_mem_nil, rfl, fun _ => rfl⟩, fun filled => absurd rfl filled⟩, rfl⟩
  · intro trace relay after callback handed _ holds _ reacted live
    have kept := kept_of_relayReact reacted live
    obtain ⟨settled, whole⟩ := holds kept.live
    refine ⟨kept.settled settled, ?_⟩
    calc accepted (trace ++ [(callback, handed)]) ++ after.pending
        = accepted trace ++ (callback.accepted handed ++ after.pending) := by
          simp [accepted]
      _ = accepted trace ++ relay.pending ++ callback.data := by
          rw [kept.whole, List.append_assoc]
      _ = arrived (trace ++ [(callback, handed)]) := by
          rw [whole]
          simp [arrived]

/-- As long as the worker is live, what the channel accepted and what is pending are what
arrived, in its order; and the worker is in `WRITE` mode with a retry scheduled exactly if data
is pending, and in `READ` mode otherwise. -/
theorem keystrokes_faithful (traces : (relayLoop Symbol).Traces guard trace relay)
    (live : relay.closed = false) :
    accepted trace ++ relay.pending = arrived trace ∧
      relay.registered = some relay.mode ∧
      (relay.mode = .write ∧ 0 < relay.retries ↔ relay.pending ≠ []) ∧
      (relay.pending = [] → relay.mode = .read) := by
  obtain ⟨settled, whole⟩ := streams_of_traces traces live
  have empty := Relay.pending_eq_nil settled.pieces
  refine ⟨whole, settled.registered, ?_, ?_⟩
  · constructor
    · rintro ⟨mode, _⟩ none
      rw [settled.idle (empty.mp none)] at mode
      cases mode
    · exact fun some => settled.waiting fun none => some (empty.mpr none)
  · exact fun none => settled.idle (empty.mp none)

end Stream

/-- A message that is sent in two parts, with the channel blocked in between. -/
theorem keystrokes_faithful_parts :
    ∃ (trace : List (RelayCallback Char × Option (List Char))) (relay : Relay Char),
      (relayLoop Char).Traces (fun _ _ => True) trace relay ∧
        trace.map Prod.snd = [some ['l', 's'], some ['s'], some ['s']] ∧
        arrived trace = ['l', 's'] ∧ accepted trace = ['l', 's'] ∧
        accepted trace ++ relay.pending = arrived trace ∧
        relay.registered = some relay.mode ∧
        (relay.mode = .write ∧ 0 < relay.retries ↔ relay.pending ≠ []) ∧
        (relay.pending = [] → relay.mode = .read) := by
  have ran : (relayLoop Char).run (fun _ _ => true) [] {}
      [.message ['l', 's'] (.accepts 1), .retry .retriable, .retry (.accepts 1)] =
      some ([(.message ['l', 's'] (.accepts 1), some ['l', 's']), (.retry .retriable, some ['s']),
        (.retry (.accepts 1), some ['s'])], { retries := 0 }) := rfl
  have traces := (Reactor.traces_of_run .start ran).mono fun _ _ _ => trivial
  exact ⟨_, _, traces, rfl, rfl, rfl, keystrokes_faithful traces rfl⟩

end CloudRunSsh.WebSSH
