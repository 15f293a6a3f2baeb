import CloudRunSsh.Data.JSON
import CloudRunSsh.WebSSH.Keystrokes

/-!
# Messages of the browser

A message of the browser is JSON: an object with the size of the terminal, with keystrokes, or
with both.  Messages of any other shape are to be ignored.
-/

namespace CloudRunSsh.WebSSH

open JSON

/-- What `resize_pty` comes to: a request that is sent, one of the exceptions that are caught,
or another one. -/
inductive ResizeAnswer where
  | sent
  | typeError
  | structError
  | sshException
  | other
  deriving DecidableEq, Repr

/-- What becomes of the keystrokes of a message: `chan.send` answers as `on_write` expects,
raises another exception, or fails for good for a worker that `clear_worker` fails for. -/
inductive WriteAnswer where
  | answers (answer : SendAnswer)
  | raises
  | unclear
  deriving DecidableEq, Repr

/-- The characters that the channel accepts of what is handed to `chan.send`. -/
def WriteAnswer.accepted (data : PyString) : WriteAnswer → PyString
  | .answers answer => answer.accepted data
  | .raises => []
  | .unclear => []

/-- `Worker.on_write` with what it hands to `chan.send`, and whether it raises an exception. -/
def Relay.attempt (write : WriteAnswer) (relay : Relay Nat) :
    (Relay Nat × Option PyString) × Bool :=
  match write with
  | .answers answer => (relay.onWrite answer, false)
  -- data that raises is still pending
  | .raises =>
      if relay.dataToDst = [] then ((relay, none), false)
      else ((relay, some relay.dataToDst.flatten), true)
  | .unclear => (relay.onWrite .fatal, relay.dataToDst ≠ [])

/-- The exceptions that leave `on_message`. -/
inductive MessageError where
  | loads (error : LoadError)
  | len
  | resize
  | write
  deriving DecidableEq, Repr

/-- What a message does: the worker after it, what is handed to `chan.send`, the calls of
`resize_pty`, and the exception that is raised. -/
structure Processed where
  relay : Relay Nat
  handed : Option PyString := none
  resizes : List (List Value) := []
  raised : Option MessageError := none

/-- `msg.get("resize")`. -/
def resizeOf (fields : List (PyString × Value)) : Value := getItem fields (.ofText "resize")

/-- `msg.get("data")`. -/
def dataOf (fields : List (PyString × Value)) : Value := getItem fields (.ofText "data")

/-- `on_message` from the size of the terminal to the keystrokes. -/
def resizeTerminal (resizePty : List Value → ResizeAnswer) (relay : Relay Nat)
    (resize : Value) : Processed :=
  if resize.truthy then
    match resize.items with
    -- `len` fails for what has no length
    | none => { relay, raised := some .len }
    | some items =>
        if items.length = 2 then
          { relay, resizes := [items],
            raised := if resizePty items = .other then some .resize else none }
        else { relay }
  else { relay }

/-- `on_message` from the keystrokes on. -/
def writeData (write : WriteAnswer) (relay : Relay Nat) (data : Value) : Processed :=
  match data with
  | .string text =>
      if text = [] then { relay }
      else
        let (written, raised) :=
          Relay.attempt write { relay with dataToDst := relay.dataToDst ++ [text] }
        { relay := written.1, handed := written.2,
          raised := if raised then some .write else none }
  | _ => { relay }

/-- `WsockHandler.on_message`. -/
def wsockOnMessage (limits : Limits) (resizePty : List Value → ResizeAnswer) (write : WriteAnswer)
    (relay : Relay Nat) (message : Message) : Processed :=
  if relay.closed then { relay }
  else
    match loads limits message with
    | .error .jsonDecodeError => { relay }
    | .error error => { relay, raised := some (.loads error) }
    | .ok (.object fields) =>
        let resized := resizeTerminal resizePty relay (resizeOf fields)
        if resized.raised ≠ none then resized
        else { writeData write relay (dataOf fields) with resizes := resized.resizes }
    | .ok _ => { relay }

section Message

variable (limits : Limits) (resizePty : List Value → ResizeAnswer) (write : WriteAnswer)
variable (relay : Relay Nat) (message : Message)

/-- The message asks for a size of two elements. -/
def Resizes (fields : List (PyString × Value)) : Prop :=
  ∃ items, (resizeOf fields).items = some items ∧ items.length = 2

/-- The message has keystrokes. -/
def Types (fields : List (PyString × Value)) (text : PyString) : Prop :=
  dataOf fields = .string text ∧ text ≠ []

/-- The message is an object with a size or keystrokes. -/
def Meaningful : Prop :=
  ∃ fields, loads limits message = .ok (.object fields) ∧
    (Resizes fields ∨ ∃ text, Types fields text)

/-- No exception leaves `on_message`, a message without a meaning changes nothing, and the
keystrokes of a message are delivered whatever else is in it. -/
structure Tolerates : Prop where
  returns : (wsockOnMessage limits resizePty write relay message).raised = none
  ignores : ¬Meaningful limits message →
    (wsockOnMessage limits resizePty write relay message).resizes = [] ∧
      (wsockOnMessage limits resizePty write relay message).relay = relay
  delivers : ∀ fields text, loads limits message = .ok (.object fields) → Types fields text →
    (wsockOnMessage limits resizePty write relay message).handed.elim [] write.accepted ++
      (wsockOnMessage limits resizePty write relay message).relay.pending = relay.pending ++ text

/-- `json.loads` raises nothing but `JSONDecodeError`; a size that is not empty, zero, false or
null has a length, and if that is two `resize_pty` raises nothing that is not caught; and
keystrokes are answered as `on_write` expects. -/
structure Expected : Prop where
  loads : ∀ error, loads limits message = .error error → error = .jsonDecodeError
  resize : ∀ fields, JSON.loads limits message = .ok (.object fields) →
    (resizeOf fields).truthy = true → ∃ items, (resizeOf fields).items = some items ∧
      (items.length = 2 → resizePty items ≠ .other)
  write : ∀ fields text, JSON.loads limits message = .ok (.object fields) → Types fields text →
    ∃ answer, write = .answers answer

variable {limits resizePty write relay message}

theorem raised_resizeTerminal (resize : Value) :
    (resizeTerminal resizePty relay resize).raised = none ↔
      (resize.truthy = true → ∃ items, resize.items = some items ∧
        (items.length = 2 → resizePty items ≠ .other)) := by
  rw [resizeTerminal]
  cases truthy : resize.truthy with
  | false => simp
  | true =>
      cases found : resize.items with
      | none => simp
      | some items =>
          by_cases pair : items.length = 2
          · simp [pair]
          · simp [pair]

theorem resizes_resizeTerminal {resize : Value}
    (other : ¬∃ items, resize.items = some items ∧ items.length = 2) :
    (resizeTerminal resizePty relay resize).resizes = [] := by
  rw [resizeTerminal]
  split
  · split
    · rfl
    · rename_i items found
      rw [if_neg fun pair => other ⟨items, found, pair⟩]
  · rfl

theorem raised_attempt (filled : relay.dataToDst ≠ []) :
    (relay.attempt write).2 = false ↔ ∃ answer, write = .answers answer := by
  cases write with
  | answers answer => simp [Relay.attempt]
  | raises => simp [Relay.attempt, filled]
  | unclear => simp [Relay.attempt, filled]

/-- What the channel accepts and what is pending afterwards is what was pending before. -/
theorem accepted_attempt (write : WriteAnswer) (relay : Relay Nat) :
    (relay.attempt write).1.2.elim [] write.accepted ++ (relay.attempt write).1.1.pending =
      relay.pending := by
  cases write with
  | answers answer => exact Relay.accepted_onWrite answer relay
  | raises =>
      rw [Relay.attempt]
      split <;> rfl
  | unclear => exact Relay.accepted_onWrite .fatal relay

theorem raised_writeData (data : Value) :
    (writeData write relay data).raised = none ↔
      ∀ text, data = .string text ∧ text ≠ [] → ∃ answer, write = .answers answer := by
  simp only [writeData]
  cases data with
  | string text =>
      by_cases empty : text = []
      · simp [empty]
      · rw [← @raised_attempt write { relay with dataToDst := relay.dataToDst ++ [text] } (by simp)]
        simp [empty]
  | null => simp
  | bool value => simp
  | int value => simp
  | float value => simp
  | array elements => simp
  | object fields => simp

theorem relay_writeData {data : Value} (other : ¬∃ text, data = .string text ∧ text ≠ []) :
    (writeData write relay data).relay = relay := by
  simp only [writeData]
  split
  · rename_i text
    rw [if_pos (not_not.mp fun filled => other ⟨text, rfl, filled⟩)]
  · rfl

/-- Keystrokes are delivered to the worker, even if they cannot be sent. -/
theorem accepted_writeData {text : PyString} (filled : text ≠ []) :
    (writeData write relay (.string text)).handed.elim [] write.accepted ++
      (writeData write relay (.string text)).relay.pending = relay.pending ++ text := by
  simp only [writeData, if_neg filled]
  rw [accepted_attempt, Relay.pending, List.flatten_append, List.flatten_singleton, Relay.pending]

variable (resizePty write) in
theorem wsockOnMessage_object (live : relay.closed = false) {fields : List (PyString × Value)}
    (loaded : loads limits message = .ok (.object fields)) :
    wsockOnMessage limits resizePty write relay message =
      let resized := resizeTerminal resizePty relay (resizeOf fields)
      if resized.raised ≠ none then resized
      else { writeData write relay (dataOf fields) with resizes := resized.resizes } := by
  rw [wsockOnMessage]
  rw [live, if_neg Bool.false_ne_true, loaded]

variable (relay) in
theorem expected_object_iff {fields : List (PyString × Value)}
    (loaded : loads limits message = .ok (.object fields)) :
    Expected limits resizePty write message ↔
      (resizeTerminal resizePty relay (resizeOf fields)).raised = none ∧
        (writeData write relay (dataOf fields)).raised = none := by
  rw [raised_resizeTerminal, raised_writeData]
  constructor
  · intro expected
    exact ⟨expected.resize fields loaded, fun text => expected.write fields text loaded⟩
  · rintro ⟨resized, written⟩
    constructor
    · intro error failed
      cases loaded.symm.trans failed
    · intro others same
      cases loaded.symm.trans same
      exact resized
    · intro others text same
      cases loaded.symm.trans same
      exact written text

/-- What an object needs. -/
theorem tolerates_object_iff (live : relay.closed = false) {fields : List (PyString × Value)}
    (loaded : loads limits message = .ok (.object fields)) :
    Tolerates limits resizePty write relay message ↔
      Expected limits resizePty write message := by
  have processed := wsockOnMessage_object resizePty write live loaded
  dsimp only at processed
  rw [expected_object_iff relay loaded]
  by_cases resized : (resizeTerminal resizePty relay (resizeOf fields)).raised = none
  · rw [if_neg (not_not.mpr resized)] at processed
    constructor
    · intro tolerates
      have returns := tolerates.returns
      rw [processed] at returns
      exact ⟨resized, returns⟩
    · rintro ⟨_, written⟩
      constructor
      · rw [processed]
        exact written
      · intro meaningless
        rw [processed]
        constructor
        · exact resizes_resizeTerminal fun pair => meaningless ⟨fields, loaded, .inl pair⟩
        · exact relay_writeData fun keys => meaningless ⟨fields, loaded, .inr keys⟩
      · intro others text same types
        cases loaded.symm.trans same
        rw [processed, types.1]
        exact accepted_writeData types.2
  · rw [if_pos resized] at processed
    refine iff_of_false ?_ fun expected => resized expected.1
    intro tolerates
    have returns := tolerates.returns
    rw [processed] at returns
    exact resized returns

variable (resizePty write) in
theorem wsockOnMessage_other (live : relay.closed = false)
    (other : ¬∃ fields, loads limits message = .ok (.object fields)) :
    (wsockOnMessage limits resizePty write relay message).resizes = [] ∧
      (wsockOnMessage limits resizePty write relay message).relay = relay ∧
      ((wsockOnMessage limits resizePty write relay message).raised = none ↔
        ∀ error, loads limits message = .error error → error = .jsonDecodeError) := by
  rw [wsockOnMessage]
  rw [live, if_neg Bool.false_ne_true]
  cases loaded : loads limits message with
  | error error =>
      cases error with
      | jsonDecodeError => simp
      | unicodeDecodeError => simp
      | recursionError => simp
      | valueError => simp
  | ok value =>
      cases value with
      | object fields => exact absurd ⟨fields, loaded⟩ other
      | null => simp
      | bool value => simp
      | int value => simp
      | float value => simp
      | string text => simp
      | array elements => simp

/-- A live worker ignores malformed messages exactly where only the exceptions that are caught
are raised, and a size that is true has a length. -/
theorem tolerates_iff (live : relay.closed = false) :
    Tolerates limits resizePty write relay message ↔
      Expected limits resizePty write message := by
  by_cases object : ∃ fields, loads limits message = .ok (.object fields)
  · obtain ⟨fields, loaded⟩ := object
    exact tolerates_object_iff live loaded
  · obtain ⟨resizes, same, returns⟩ :=
      wsockOnMessage_other resizePty write live object
    constructor
    · intro tolerates
      exact ⟨returns.mp tolerates.returns, fun fields loaded => absurd ⟨fields, loaded⟩ object,
        fun fields _ loaded => absurd ⟨fields, loaded⟩ object⟩
    · intro expected
      exact ⟨returns.mpr expected.loads, fun _ => ⟨resizes, same⟩,
        fun fields _ loaded => absurd ⟨fields, loaded⟩ object⟩

end Message

/-- The interpreter's own limits. -/
def defaultLimits : Limits := ⟨1000, 4300⟩

/-- A message whose size is a number. -/
def numberMessage : Message := .text (.ofText "\x7b\"resize\": 5, \"data\": \"ls\"\x7d")

theorem tolerates_iff_number :
    Tolerates defaultLimits (fun _ => .sent) (.answers (.accepts 2)) ({} : Relay Nat)
        numberMessage ↔
      Expected defaultLimits (fun _ => .sent) (.answers (.accepts 2)) numberMessage :=
  tolerates_iff rfl

/-- `len` fails for a number, and the keystrokes after it are lost. -/
theorem tolerates_fails :
    ¬∀ limits resizePty write relay message, Relay.closed relay = false →
      Tolerates limits resizePty write relay message := by
  intro always
  have tolerates := always defaultLimits (fun _ => .sent) (.answers (.accepts 2)) {}
    numberMessage rfl
  exact absurd tolerates.returns (by decide +kernel)

end CloudRunSsh.WebSSH
