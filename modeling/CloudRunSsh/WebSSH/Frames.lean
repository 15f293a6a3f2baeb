import CloudRunSsh.Data.Writers
import CloudRunSsh.WebSSH.Messages

/-!
# Frames of the terminal

The page writes what is typed and the size of its terminal as JSON, and `on_message` reads it.  On
the way from the terminal to the channel nothing is lost, whatever is typed.
-/

namespace CloudRunSsh.WebSSH

open JSON CloudRunSsh.Concurrency

/-- The code points of a string: two surrogates are one, and a single one stands for itself. -/
def codePoints (string : JSString) : PyString := joinUnits (string.map UInt16.toNat)

/-- The whole numbers that a number of JavaScript holds exactly. -/
abbrev SafeInteger := { value : Int // value.natAbs < 2 ^ 53 }

/-- What the terminal sends: `term.onData` what is typed, and `term.on_resize` its size. -/
inductive TerminalFrame where
  | data (input : JSString)
  | resize (cols rows : SafeInteger)

namespace TerminalFrame

/-- `{ 'data': data }` and `{ 'resize': [cols, rows] }`. -/
def document : TerminalFrame → Document
  | .data input => .object [(.ofText "data", .string (codePoints input))]
  | .resize cols rows => .object [(.ofText "resize", .array [.int cols, .int rows])]

/-- The text that is sent. -/
def text (frame : TerminalFrame) : PyString := stringifyStyle.render frame.document

/-- What is typed. -/
def typed : TerminalFrame → PyString
  | .data input => codePoints input
  | .resize _ _ => []

/-- The sizes that the terminal takes on. -/
def sizes : TerminalFrame → List (List Value)
  | .data _ => []
  | .resize cols rows => [[.int cols, .int rows]]

end TerminalFrame

theorem joined_codePoints (string : JSString) : Joined (codePoints string) := by
  refine joined_joinUnits fun unit member => ?_
  obtain ⟨unit, _, rfl⟩ := List.mem_map.mp member
  exact unit.toNat_lt

theorem fits_safeInteger {digits depth : Nat} (many : 16 ≤ digits) (value : SafeInteger) :
    (Document.int value).Fits digits depth := by
  refine .int (Nat.le_trans ?_ many)
  rw [PyString.decimalText, List.length_map]
  exact (Nat.length_toDigits_le_iff (by decide) (by decide)).mpr
    (Nat.lt_trans value.property (by decide))

theorem fits_document {digits depth : Nat} (many : 16 ≤ digits) (deep : 2 ≤ depth)
    (frame : TerminalFrame) : frame.document.Fits digits depth := by
  obtain ⟨depth, rfl⟩ := Nat.exists_eq_add_of_le' deep
  cases frame with
  | data input =>
      exact .keyed [.ofText "data"] rfl (by decide) (by decide)
        (List.forall_mem_singleton.mpr (.string (joined_codePoints input)))
  | resize cols rows =>
      exact .keyed [.ofText "resize"] rfl (by decide) (by decide)
        (List.forall_mem_singleton.mpr (.array (List.forall_mem_cons.mpr
          ⟨fits_safeInteger many cols,
            List.forall_mem_singleton.mpr (fits_safeInteger many rows)⟩)))

section Frame

variable {limits : Limits} (many : 16 ≤ limits.digits) (deep : 2 ≤ limits.depth)
variable (resizePty : List Value → ResizeAnswer) (write : WriteAnswer) {relay : Relay Nat}

include many deep

/-- `json.loads` reads a frame as the page wrote it. -/
theorem loads_frame (frame : TerminalFrame) :
    loads limits (.text frame.text) = .ok frame.document.value :=
  loads_render (fits_document many deep frame)

/-- What is typed goes to the worker as it is, and `resize_pty` is called with a size. -/
theorem wsockOnMessage_frame (frame : TerminalFrame) (opened : relay.closed = false) :
    let processed := wsockOnMessage limits resizePty write relay (.text frame.text)
    processed.handed.elim [] write.accepted ++ processed.relay.pending =
        relay.pending ++ frame.typed ∧
      processed.resizes = frame.sizes := by
  dsimp only
  rw [wsockOnMessage, if_neg (by simp [opened]), loads_frame many deep frame]
  cases frame with
  | data input =>
      refine ⟨?_, rfl⟩
      change (writeData write relay (.string (codePoints input))).handed.elim [] write.accepted ++
        (writeData write relay (.string (codePoints input))).relay.pending = _
      by_cases empty : codePoints input = []
      · simp [writeData, TerminalFrame.typed, empty]
      · exact accepted_writeData empty
  | resize cols rows =>
      have size : resizeOf (Document.fields [(.ofText "resize", .array [.int cols, .int rows])]) =
          .array [.int cols, .int rows] := rfl
      have none : dataOf (Document.fields [(.ofText "resize", .array [.int cols, .int rows])]) =
          .null := rfl
      simp only [TerminalFrame.document, Document.value, size, none, resizeTerminal, Value.truthy,
        Value.items, TerminalFrame.sizes]
      by_cases failed : resizePty [.int cols, .int rows] = .other
      · simp [failed, TerminalFrame.typed]
      · simp [failed, TerminalFrame.typed, writeData]

end Frame

/-- `Worker.__call__`, with what is handed to `chan.send`.  An exception of `on_write` leaves
it. -/
def Relay.callback (events : Events) (received : ReceiveAnswer) (write : WriteAnswer)
    (relay : Relay Nat) : Relay Nat × Option PyString :=
  let relay := if events.read then relay.onRead received else relay
  let (written, raised) := if events.write then relay.attempt write else ((relay, none), false)
  (if events.error ∧ raised = false then written.1.close else written.1, written.2)

/-- What the event loop runs for a worker whose WebSocket is a terminal of the page. -/
inductive TerminalCallback where
  | frame (frame : TerminalFrame) (resizePty : List Value → ResizeAnswer) (write : WriteAnswer)
  | poll (events : Events) (received : ReceiveAnswer) (write : WriteAnswer)
  | retry (write : WriteAnswer)
  | leave

/-- What a callback does besides: what it hands to `chan.send`, and the sizes with which it
calls `resize_pty`. -/
abbrev TerminalReaction := Option PyString × List (List Value)

/-- The worker after a callback, and what is done in it. -/
def terminalReact (limits : Limits) (relay : Relay Nat) :
    TerminalCallback → Option (Relay Nat × TerminalReaction)
  | .frame frame resizePty write =>
      let processed := wsockOnMessage limits resizePty write relay (.text frame.text)
      some (processed.relay, processed.handed, processed.resizes)
  | .poll events received write =>
      if relay.registered = none then none
      else
        let (after, handed) := relay.callback events received write
        some (after, handed, [])
  | .retry write =>
      match relay.retries with
      | 0 => none
      | retries + 1 =>
          let (after, handed) :=
            Relay.callback ⟨false, true, false⟩ .retriable write { relay with retries := retries }
          some (after, handed, [])
  | .leave => some (relay.close, none, [])

/-- The event loop, from the time on when the worker has a handler. -/
def terminalLoop (limits : Limits) : Reactor (Relay Nat) TerminalCallback TerminalReaction where
  initial := {}
  react := terminalReact limits

namespace TerminalCallback

/-- What is typed before a callback. -/
def typed : TerminalCallback → PyString
  | .frame written _ _ => written.typed
  | .poll .. | .retry _ | .leave => []

/-- The sizes that the terminal takes on. -/
def sizes : TerminalCallback → List (List Value)
  | .frame written _ _ => written.sizes
  | .poll .. | .retry _ | .leave => []

/-- What the channel accepts of what is handed to it: the characters that its answer says. -/
def accepted (handed : Option PyString) : TerminalCallback → PyString
  | .frame _ _ write => handed.elim [] write.accepted
  | .poll _ _ write => handed.elim [] write.accepted
  | .retry write => handed.elim [] write.accepted
  | .leave => []

/-- The sizes of which a request is sent to the channel, among those that `resize_pty` is
called with. -/
def told (resizes : List (List Value)) : TerminalCallback → List (List Value)
  | .frame _ resizePty _ => resizes.filter fun size => resizePty size = .sent
  | .poll .. | .retry _ | .leave => []

end TerminalCallback

section Session

/-- Everything that is typed, in its order. -/
def allTyped (trace : List (TerminalCallback × TerminalReaction)) : PyString :=
  trace.flatMap fun record => record.1.typed

/-- The sizes that the terminal takes on, in their order. -/
def allSizes (trace : List (TerminalCallback × TerminalReaction)) : List (List Value) :=
  trace.flatMap fun record => record.1.sizes

/-- The sizes of the terminal for which `resize_pty` does not fail. -/
def sendableSizes (trace : List (TerminalCallback × TerminalReaction)) : List (List Value) :=
  trace.flatMap fun record => record.1.told record.1.sizes

/-- Everything that the channel accepts, in its order. -/
def allAccepted (trace : List (TerminalCallback × TerminalReaction)) : PyString :=
  trace.flatMap fun record => record.1.accepted record.2.1

/-- The sizes that `resize_pty` is called with, in their order. -/
def allResizes (trace : List (TerminalCallback × TerminalReaction)) : List (List Value) :=
  trace.flatMap fun record => record.2.2

/-- The sizes that the channel is told, in their order. -/
def allTold (trace : List (TerminalCallback × TerminalReaction)) : List (List Value) :=
  trace.flatMap fun record => record.1.told record.2.2

variable {limits : Limits} {guard : Relay Nat → TerminalCallback → Prop}
variable {trace : List (TerminalCallback × TerminalReaction)} {relay after : Relay Nat}
variable {reaction : TerminalReaction}

theorem live_of_attempt {write : WriteAnswer} (live : (relay.attempt write).1.1.closed = false) :
    relay.closed = false := by
  cases write with
  | answers answer => exact Relay.live_of_onWrite live
  | raises =>
      rw [Relay.attempt] at live
      split at live <;> exact live
  | unclear => exact Relay.live_of_onWrite live

/-- A worker that is live after it was called was live before, and nothing that was pending is
lost. -/
theorem accepted_callback {events : Events} {received : ReceiveAnswer} {write : WriteAnswer}
    (live : (relay.callback events received write).1.closed = false) :
    relay.closed = false ∧ (relay.callback events received write).2.elim [] write.accepted ++
      (relay.callback events received write).1.pending = relay.pending := by
  rw [Relay.callback] at live ⊢
  dsimp only at live ⊢
  have read : (if events.read then relay.onRead received else relay).closed = false →
      (if events.read then relay.onRead received else relay) = relay := by
    intro live
    split at live
    · rename_i reads
      rcases Relay.onRead_eq received relay with same | same
      · rw [if_pos reads, same]
      · rw [same, Relay.closed_close] at live
        cases live
    · rename_i reads
      rw [if_neg reads]
  generalize (if events.read then relay.onRead received else relay) = before at live read ⊢
  generalize written : (if events.write then before.attempt write else ((before, none), false)) =
    result at live ⊢
  split at live
  · rw [Relay.closed_close] at live
    cases live
  · rename_i unfailed
    rw [if_neg unfailed]
    split at written
    · subst written
      rw [← read (live_of_attempt live)]
      exact ⟨live_of_attempt live, accepted_attempt write before⟩
    · subst written
      rw [← read live]
      exact ⟨live, rfl⟩

variable (many : 16 ≤ limits.digits) (deep : 2 ≤ limits.depth)

include many deep

/-- What a callback does to a worker that stays live. -/
theorem terminalReact_spec {callback : TerminalCallback}
    (reacted : terminalReact limits relay callback = some (after, reaction))
    (live : after.closed = false) :
    relay.closed = false ∧
      callback.accepted reaction.1 ++ after.pending = relay.pending ++ callback.typed ∧
      reaction.2 = callback.sizes := by
  cases callback with
  | frame written resizePty write =>
      cases reacted
      have opened : relay.closed = false := by
        rw [wsockOnMessage] at live
        split at live
        · exact live
        · rename_i opened
          exact Bool.not_eq_true _ ▸ opened
      exact ⟨opened, wsockOnMessage_frame many deep resizePty write written opened⟩
  | poll events received write =>
      obtain ⟨_, same⟩ := Option.ite_none_left_eq_some.mp reacted
      cases same
      obtain ⟨opened, kept⟩ := accepted_callback live
      exact ⟨opened, kept.trans (List.append_nil _).symm, rfl⟩
  | retry write =>
      cases scheduled : relay.retries with
      | zero =>
          rw [terminalReact, scheduled] at reacted
          cases reacted
      | succ retries =>
          rw [terminalReact, scheduled] at reacted
          cases reacted
          obtain ⟨opened, kept⟩ := accepted_callback live
          exact ⟨opened, kept.trans (List.append_nil _).symm, rfl⟩
  | leave =>
      cases reacted
      rw [Relay.closed_close] at live
      cases live

/-- As long as the worker is live, what the channel accepted and what is pending are what was
typed; `resize_pty` was called with every size of the terminal; and the channel was told those
for which it sent the request.  All of them are in their order. -/
theorem terminal_faithful (traces : (terminalLoop limits).Traces guard trace relay)
    (live : relay.closed = false) :
    allAccepted trace ++ relay.pending = allTyped trace ∧
      allResizes trace = allSizes trace ∧ allTold trace = sendableSizes trace := by
  revert live
  apply traces.invariant
  · exact fun _ => ⟨rfl, rfl, rfl⟩
  · intro trace relay after callback reaction _ holds _ reacted live
    obtain ⟨before, kept, resized⟩ := terminalReact_spec many deep reacted live
    obtain ⟨whole, called, told⟩ := holds before
    refine ⟨?_, ?_, ?_⟩
    · calc allAccepted (trace ++ [(callback, reaction)]) ++ after.pending
          = allAccepted trace ++ (callback.accepted reaction.1 ++ after.pending) := by
            simp [allAccepted]
        _ = allAccepted trace ++ relay.pending ++ callback.typed := by
            rw [kept, List.append_assoc]
        _ = allTyped (trace ++ [(callback, reaction)]) := by
            rw [whole]
            simp [allTyped]
    · calc allResizes (trace ++ [(callback, reaction)])
          = allResizes trace ++ reaction.2 := by simp [allResizes]
        _ = allSizes (trace ++ [(callback, reaction)]) := by
            rw [called, resized]
            simp [allSizes]
    · calc allTold (trace ++ [(callback, reaction)])
          = allTold trace ++ callback.told reaction.2 := by simp [allTold]
        _ = sendableSizes (trace ++ [(callback, reaction)]) := by
            rw [told, resized]
            simp [sendableSizes]

end Session

/-- A quotation mark and a return, of which the channel takes the first; a size that it is told
and one that it cannot be told; and an unpaired surrogate, for which `chan.send` raises. -/
theorem terminal_faithful_quoted :
    ∃ (trace : List (TerminalCallback × TerminalReaction)) (relay : Relay Nat),
      (terminalLoop ⟨1000, 4300⟩).Traces (fun _ _ => True) trace relay ∧
        relay.pending = [0x0D, 0xD800] ∧ allTyped trace = [0x22, 0x0D, 0xD800] ∧
        allSizes trace = [[.int 80, .int 24], [.int 5000000000, .int 24]] ∧
        sendableSizes trace = [[.int 80, .int 24]] ∧
        allAccepted trace ++ relay.pending = allTyped trace ∧
        allResizes trace = allSizes trace ∧ allTold trace = sendableSizes trace := by
  let limits : Limits := ⟨1000, 4300⟩
  let small : SafeInteger := ⟨24, by decide⟩
  let typed := wsockOnMessage limits (fun _ => .sent) (.answers (.accepts 1)) {}
    (.text (TerminalFrame.data [0x22, 0x0D]).text)
  let sized := wsockOnMessage limits (fun _ => .sent) .raises typed.relay
    (.text (TerminalFrame.resize ⟨80, by decide⟩ small).text)
  let failed := wsockOnMessage limits (fun _ => .structError) .raises sized.relay
    (.text (TerminalFrame.resize ⟨5000000000, by decide⟩ small).text)
  let raised := wsockOnMessage limits (fun _ => .sent) .raises failed.relay
    (.text (TerminalFrame.data [0xD800]).text)
  have traces : (terminalLoop limits).Traces (fun _ _ => True)
      [(.frame (.data [0x22, 0x0D]) (fun _ => .sent) (.answers (.accepts 1)),
          typed.handed, typed.resizes),
        (.frame (.resize ⟨80, by decide⟩ small) (fun _ => .sent) .raises,
          sized.handed, sized.resizes),
        (.frame (.resize ⟨5000000000, by decide⟩ small) (fun _ => .structError) .raises,
          failed.handed, failed.resizes),
        (.frame (.data [0xD800]) (fun _ => .sent) .raises, raised.handed, raised.resizes)]
      raised.relay :=
    .next (.next (.next (.next .start trivial rfl) trivial rfl) trivial rfl) trivial rfl
  have live : raised.relay.closed = false := by decide +kernel
  have pending : raised.relay.pending = [0x0D, 0xD800] := by decide +kernel
  exact ⟨_, _, traces, pending, rfl, rfl, rfl,
    terminal_faithful (by decide) (by decide) traces live⟩

end CloudRunSsh.WebSSH
