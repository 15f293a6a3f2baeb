import CloudRunSsh.Concurrency.Trace
import CloudRunSsh.Data.JSON
import CloudRunSsh.Data.JavaScript
import CloudRunSsh.Data.Templates

/-!
# The command dialog

An entry of the catalog fills a dialog with an input for each argument, and the Run button sends
the command with what is filled in.  Every connection has its own queue of pending commands and
binds its own handlers to the buttons of the dialog, where they stay when it is closed.
-/

namespace CloudRunSsh.WebSSH.Commands

open CloudRunSsh.Concurrency

/-- A command: its key and name, the names of its arguments, and its template. -/
structure Command where
  key : String
  name : String
  args : List String
  tpl : Template UInt16
  deriving DecidableEq

def hole (literal name : String) (rest : Template UInt16) : Template UInt16 :=
  .hole (JSString.ofString literal) (JSString.ofString name) rest

/-- `commands.cmds` of the catalog, where a command without a name has its key for it.  jQuery reads
these keys as they are from the attributes of an element. -/
def commands : List Command :=
  [⟨"ping", "ping", ["count", "host"], hole "ping -c " "count" (hole " " "host" (.text []))⟩,
    ⟨"curl_telnet", "curl-telnet", ["host", "port"],
      hole "curl -v telnet://" "host" (hole ":" "port" (.text []))⟩,
    ⟨"telnet", "telnet", ["host", "port"], hole "telnet " "host" (hole " " "port" (.text []))⟩,
    ⟨"tcpping", "tcpping", ["host", "port"], hole "tcpping " "host" (hole " " "port" (.text []))⟩]

/-- The units that Handlebars escapes. -/
def escapes : List (Nat × String) :=
  [(0x26, "&amp;"), (0x3C, "&lt;"), (0x3E, "&gt;"), (0x22, "&quot;"), (0x27, "&#x27;"),
    (0x60, "&#x60;"), (0x3D, "&#x3D;")]

/-- `escapeExpression`. -/
def escapeExpression (text : JSString) : JSString :=
  text.flatMap fun unit =>
    match escapes.lookup unit.toNat with
    | some escape => JSString.ofString escape
    | none => [unit]

/-- The values that are set, in this order.  A later value of a name counts. -/
abbrev Arguments := List (String × JSString)

/-- What a hole is filled with. -/
def Arguments.value (args : Arguments) (name : JSString) : JSString :=
  match args.reverse.find? fun arg => JSString.ofString arg.1 = name with
  | some arg => escapeExpression arg.2
  | none => []

/-- `cmd.providers.cmd(args)`. -/
def Command.render (cmd : Command) (args : Arguments) : JSString := cmd.tpl.fill args.value

/-- An input of the dialog: `data-cmd`, `data-arg` and what is filled in. -/
structure Input where
  cmd : String
  arg : String
  val : JSString
  deriving DecidableEq, Repr

/-- The text of `#command` and the inputs of `#commandConfig`. -/
structure Dialog where
  command : String
  inputs : List Input
  deriving DecidableEq, Repr

def Dialog.empty : Dialog := ⟨"command", []⟩

/-- `readyState` of a socket.  It is closed when `onclose` has run. -/
inductive SocketState where
  | connecting
  | opened
  | closing
  | closed
  deriving DecidableEq, Repr

/-- What is sent over a socket: a text, or `JSON.stringify({ 'data': data })`. -/
inductive Frame where
  | text (data : JSString)
  | data (data : JSString)
  deriving DecidableEq, Repr

/-- Frames, each with the number of the connection over whose socket it is sent. -/
abbrev Frames := List (Nat × Frame)

/-- The variables of a connection.  `firing` tells whether `$commandCallbacks` is firing for good,
as it is once a callback has thrown, and `loading` whether the catalog has been asked for. -/
structure Scope where
  socket : SocketState := .connecting
  commandQueue : List Command := []
  firing : Bool := false
  loading : Bool := false
  deriving DecidableEq

/-- The page: every connection so far, the one whose handler the entries of the catalog have, and
the dialog. -/
structure Page where
  connections : List Scope
  catalog : Option Nat
  dialog : Dialog
  deriving DecidableEq

/-- What a handler comes to. -/
structure Handled where
  scope : Scope
  dialog : Dialog
  sent : Frames
  threw : Bool

/-- What `$commandCallbacks` are fired for. -/
inductive Op where
  | update
  | exec
  | abort
  deriving DecidableEq, Repr

/-- `$commandCallbacks.fire`.  The callback needs the name of the command. -/
def Scope.fire (scope : Scope) (dialog : Dialog) (sent : Frames) (op : Op) (cmd : Option Command) :
    Handled :=
  if scope.firing then ⟨scope, dialog, sent, false⟩
  else
    match cmd with
    | none => ⟨{ scope with firing := true }, dialog, sent, true⟩
    | some _ => ⟨scope, if op = .update then dialog else .empty, sent, false⟩

/-- `getArgs`.  Only where there are inputs, the key of the command is needed. -/
def getArgs (inputs : List Input) : Option Command → Option Arguments
  | none => if inputs = [] then some [] else none
  | some cmd =>
      some (inputs.filterMap fun input =>
        if cmd.key = input.cmd ∧ input.arg ∈ cmd.args ∧ input.val ≠ [] then
          some (input.arg, input.val)
        else none)

def newline : JSString := JSString.ofString "\n"
def carriageReturn : JSString := JSString.ofString "\r"

/-- The handler of the Run button, given `wssh.send`. -/
def Scope.runCommand (send : JSString → Option Frames) (scope : Scope) (dialog : Dialog) :
    Handled :=
  let rest := { scope with commandQueue := scope.commandQueue.tail }
  match scope.commandQueue.head?, getArgs dialog.inputs scope.commandQueue.head? with
  | _, none => ⟨rest, dialog, [], true⟩
  | some cmd, some (arg :: args) =>
      match send (cmd.render (arg :: args) ++ newline) with
      | none => ⟨rest, dialog, [], true⟩
      | some sent => rest.fire dialog sent .exec (some cmd)
  | cmd, some _ => rest.fire dialog [] .exec cmd

/-- The handler of the Cancel button. -/
def Scope.cancelCommand (scope : Scope) (dialog : Dialog) : Handled :=
  { scope with commandQueue := scope.commandQueue.tail }.fire dialog [] .abort
    scope.commandQueue.head?

/-- The handler of keys, a while after the last one. -/
def Scope.preview (scope : Scope) (dialog : Dialog) : Handled :=
  match getArgs dialog.inputs scope.commandQueue.head? with
  | none => ⟨scope, dialog, [], true⟩
  | some _ => scope.fire dialog [] .update scope.commandQueue.head?

/-- The handlers that the connections have bound to a button, up to one that throws. -/
def dispatch (handler : Scope → Dialog → Handled) :
    List Scope → Dialog → List Scope × Dialog × Frames
  | [], dialog => ([], dialog, [])
  | scope :: rest, dialog =>
      let handled := handler scope dialog
      if handled.threw then (handled.scope :: rest, handled.dialog, handled.sent)
      else
        let later := dispatch handler rest handled.dialog
        (handled.scope :: later.1, later.2.1, handled.sent ++ later.2.2)

/-- What the Disconnect button sends. -/
def exit : Frame := .data (JSString.ofString "\n\rexit\n\r")

/-- The handlers of the Disconnect button, from a connection on.  A socket that is not open yet
throws. -/
def disconnect : Nat → List Scope → List Scope × Frames
  | _, [] => ([], [])
  | number, scope :: rest =>
      match scope.socket with
      | .connecting => (scope :: rest, [])
      | .opened =>
          let later := disconnect (number + 1) rest
          ({ scope with socket := .closing } :: later.1, (number, exit) :: later.2)
      | .closing | .closed =>
          let later := disconnect (number + 1) rest
          (scope :: later.1, later.2)

/-- What happens in the page.  The server accepts a connection, the sockets and the catalogs answer
in any order, and the user clicks and fills in. -/
inductive Event where
  | connect
  | socketOpen (number : Nat)
  | socketClosing (number : Nat)
  | socketClose (number : Nat)
  | catalogsLoaded (number : Nat)
  | entry (key : String)
  | fill (field : Nat) (value : JSString)
  | preview (number : Nat)
  | run
  | cancel
  | disconnect
  deriving DecidableEq, Repr

namespace Page

/-- `wssh.send` of the last connection.  It is deleted when the socket is closed. -/
def send (page : Page) (data : JSString) : Option Frames :=
  match (page.connections.getLast?).map Scope.socket with
  | none | some .closed | some .connecting => none
  | some .closing => some []
  | some .opened =>
      if JSON.isJSON (data.map UInt16.toNat) then some [(page.connections.length - 1, .text data)]
      else some [(page.connections.length - 1, .data (JSString.trim data ++ carriageReturn))]

/-- A change of the variables of a connection that has a property. -/
def update (page : Page) (number : Nat) (may : Scope → Bool) (change : Scope → Scope) :
    Option (Page × Frames) :=
  if page.connections[number]?.any may then
    some ({ page with connections := page.connections.modify number change }, [])
  else none

/-- The page after a click on a button of the dialog. -/
def click (page : Page) (handler : Scope → Dialog → Handled) : Page × Frames :=
  let dispatched := dispatch handler page.connections page.dialog
  ({ page with connections := dispatched.1, dialog := dispatched.2.1 }, dispatched.2.2)

/-- One event. -/
def react (page : Page) : Event → Option (Page × Frames)
  | .connect =>
      -- another attempt is refused until the socket is closed
      if page.connections.all (·.socket = .closed) then
        some ({ page with connections := page.connections ++ [{}] }, [])
      else some (page, [])
  | .socketOpen number =>
      page.update number (·.socket = .connecting) fun scope =>
        { scope with socket := .opened, loading := true }
  | .socketClosing number =>
      page.update number (·.socket = .opened) fun scope => { scope with socket := .closing }
  | .socketClose number =>
      page.update number (·.socket ≠ .closed) fun scope => { scope with socket := .closed }
  | .catalogsLoaded number =>
      ({ page with catalog := some number } : Page).update number (·.loading) fun scope =>
        { scope with loading := false }
  | .entry key =>
      match page.catalog, commands.find? (·.key = key) with
      | some number, some cmd =>
          some ({ page with
            connections := page.connections.modify number fun scope =>
              { scope with commandQueue := scope.commandQueue ++ [cmd] }
            dialog := ⟨cmd.name, cmd.args.map fun arg => ⟨cmd.key, arg, []⟩⟩ }, [])
      | none, _ | _, none => none
  | .fill field value =>
      -- an input has no line breaks
      let value := value.filter (· ∉ newline ++ carriageReturn)
      some ({ page with dialog := { page.dialog with
        inputs := page.dialog.inputs.modify field fun input => { input with val := value } } }, [])
  | .preview number =>
      page.update number (fun _ => true) fun scope => (scope.preview page.dialog).scope
  | .run => some (page.click (Scope.runCommand page.send))
  | .cancel => some (page.click Scope.cancelCommand)
  | .disconnect =>
      let disconnected := Commands.disconnect 0 page.connections
      some ({ page with connections := disconnected.1 }, disconnected.2)

end Page

/-- The page, from when it is loaded. -/
def page : Reactor Page Event Frames where
  initial := ⟨[], none, .empty⟩
  react := Page.react

theorem exists_render {cmd : Command} (listed : cmd ∈ commands) (args : Arguments) :
    ∃ front rest, cmd.render args = front ++ rest ∧
      front ∈ [[112, 105], [99, 117], [116, 101], [116, 99]] := by
  simp only [commands, List.mem_cons, List.not_mem_nil, or_false] at listed
  rcases listed with rfl | rfl | rfl | rfl
  · exact ⟨[112, 105], _, rfl, by decide⟩
  · exact ⟨[99, 117], _, rfl, by decide⟩
  · exact ⟨[116, 101], _, rfl, by decide⟩
  · exact ⟨[116, 99], _, rfl, by decide⟩

/-- No command is JSON. -/
theorem isJSON_render {cmd : Command} (listed : cmd ∈ commands) (args : Arguments)
    (back : JSString) : JSON.isJSON ((cmd.render args ++ back).map UInt16.toNat) = false := by
  obtain ⟨front, rest, same, opening⟩ := exists_render listed args
  rw [same]
  simp only [List.mem_cons, List.not_mem_nil, or_false] at opening
  rcases opening with rfl | rfl | rfl | rfl
  all_goals exact JSON.isJSON_eq_false (by decide) rfl

section Handlers

variable {scope : Scope} {dialog : Dialog} {sent : Frames} {op : Op} {cmd : Option Command}
  {send : JSString → Option Frames}

@[simp] theorem commandQueue_fire :
    (scope.fire dialog sent op cmd).scope.commandQueue = scope.commandQueue := by
  cases cmd with
  | none | some _ =>
      rw [Scope.fire]
      split_ifs <;> rfl

@[simp] theorem sent_fire : (scope.fire dialog sent op cmd).sent = sent := by
  cases cmd with
  | none | some _ =>
      rw [Scope.fire]
      split_ifs <;> rfl

/-- The Run button takes the first command of the queue, whatever it comes to. -/
theorem commandQueue_runCommand :
    (scope.runCommand send dialog).scope.commandQueue = scope.commandQueue.tail := by
  rw [Scope.runCommand]
  split
  · rfl
  · split
    · rfl
    · exact commandQueue_fire
  · exact commandQueue_fire

theorem commandQueue_cancelCommand :
    (scope.cancelCommand dialog).scope.commandQueue = scope.commandQueue.tail := commandQueue_fire

theorem commandQueue_preview :
    (scope.preview dialog).scope.commandQueue = scope.commandQueue := by
  rw [Scope.preview]
  split
  · rfl
  · exact commandQueue_fire

theorem sent_cancelCommand : (scope.cancelCommand dialog).sent = [] := sent_fire

theorem dispatch_singleton (handler : Scope → Dialog → Handled) :
    dispatch handler [scope] dialog =
      ([(handler scope dialog).scope], (handler scope dialog).dialog,
        (handler scope dialog).sent) := by
  rw [dispatch]
  split_ifs
  · rfl
  · rw [dispatch]
    exact congrArg (_, _, ·) (List.append_nil _)

/-- No handler of the Cancel button sends anything. -/
theorem sent_dispatch_cancel (connections : List Scope) (dialog : Dialog) :
    (dispatch Scope.cancelCommand connections dialog).2.2 = [] := by
  induction connections generalizing dialog with
  | nil => rfl
  | cons scope rest ih =>
      rw [dispatch]
      split_ifs
      · exact sent_cancelCommand
      · change (scope.cancelCommand dialog).sent ++ _ = []
        rw [sent_cancelCommand, ih, List.append_nil]

theorem commandQueue_disconnect (number : Nat) (connections : List Scope) :
    (disconnect number connections).1.map Scope.commandQueue =
      connections.map Scope.commandQueue := by
  induction connections generalizing number with
  | nil => rfl
  | cons scope rest ih =>
      rw [disconnect]
      split
      · rfl
      · exact congrArg (scope.commandQueue :: ·) (ih _)
      · exact congrArg (scope.commandQueue :: ·) (ih _)
      · exact congrArg (scope.commandQueue :: ·) (ih _)

end Handlers

/-- The arguments that are filled in. -/
def Dialog.filled (dialog : Dialog) : Arguments :=
  dialog.inputs.filterMap fun input => if input.val ≠ [] then some (input.arg, input.val) else none

/-- The dialog has the name of a command and an input for each of its arguments. -/
structure Dialog.Shows (dialog : Dialog) (cmd : Command) : Prop where
  command : dialog.command = cmd.name
  inputs : dialog.inputs.map (fun input => (input.cmd, input.arg)) =
    cmd.args.map fun arg => (cmd.key, arg)

/-- Of the command that is shown, the arguments are the ones that are filled in. -/
theorem Dialog.Shows.getArgs_eq {dialog : Dialog} {cmd : Command} (shows : dialog.Shows cmd) :
    getArgs dialog.inputs (some cmd) = some dialog.filled := by
  refine congrArg some (List.filterMap_congr fun input member => ?_)
  have listed : (input.cmd, input.arg) ∈ cmd.args.map fun arg => (cmd.key, arg) :=
    shows.inputs ▸ List.mem_map_of_mem member
  obtain ⟨arg, known, same⟩ := List.mem_map.mp listed
  obtain ⟨key, rfl⟩ := Prod.mk.inj same
  simp only [key, known, true_and]

theorem map_modify {Item Value : Type} {read : Item → Value} {change : Item → Item}
    (same : ∀ item, read (change item) = read item) (items : List Item) (index : Nat) :
    (items.modify index change).map read = items.map read := by
  induction items generalizing index with
  | nil => rw [List.modify_nil]
  | cons item rest ih =>
      cases index with
      | zero => rw [List.modify_zero_cons, List.map_cons, List.map_cons, same]
      | succ index => rw [List.modify_succ_cons, List.map_cons, List.map_cons, ih]

/-- As long as there is one connection, the dialog shows the last command of its queue. -/
structure Kept (page : Page) : Prop where
  shown : ∀ queue, page.connections.map Scope.commandQueue = [queue] →
    ∀ cmd ∈ queue.getLast?, cmd ∈ commands ∧ page.dialog.Shows cmd
  catalog : ∀ number ∈ page.catalog, number < page.connections.length

section Invariant

variable {page : Page} {connections : List Scope} {catalog : Option Nat}

/-- What leaves the queues and the dialog as they are. -/
theorem Kept.of_queues (kept : Kept page)
    (queues : connections.map Scope.commandQueue = page.connections.map Scope.commandQueue)
    (bound : ∀ number ∈ catalog, number < page.connections.length) :
    Kept ⟨connections, catalog, page.dialog⟩ := by
  have lengths := congrArg List.length queues
  rw [List.length_map, List.length_map] at lengths
  constructor
  · intro queue single
    exact kept.shown queue (queues ▸ single)
  · intro number member
    exact lengths ▸ bound number member

theorem Kept.update {number : Nat} {may : Scope → Bool} {change : Scope → Scope} {after : Page}
    {sent : Frames} (kept : Kept page)
    (bound : ∀ number ∈ catalog, number < page.connections.length)
    (updated : Page.update { page with catalog := catalog } number may change = some (after, sent))
    (same : ∀ scope, (change scope).commandQueue = scope.commandQueue) : Kept after := by
  rw [Page.update] at updated
  split_ifs at updated
  cases updated
  exact kept.of_queues (map_modify same _ _) bound

/-- A new connection has nothing pending. -/
theorem Kept.connected (kept : Kept page) :
    Kept { page with connections := page.connections ++ [{}] } := by
  constructor
  · intro queue single
    rw [List.map_append, List.append_eq_singleton_iff] at single
    rcases single with ⟨_, last⟩ | ⟨_, none⟩
    · cases last
      nofun
    · cases none
  · intro number member
    rw [List.length_append]
    exact Nat.lt_add_right _ (kept.catalog number member)

/-- An entry of the catalog fills the dialog with the command that it adds to the queue. -/
theorem Kept.chosen {number : Nat} {key : String} {cmd : Command} (kept : Kept page)
    (bound : page.catalog = some number) (found : commands.find? (·.key = key) = some cmd) :
    Kept { page with
      connections := page.connections.modify number fun scope =>
        { scope with commandQueue := scope.commandQueue ++ [cmd] }
      dialog := ⟨cmd.name, cmd.args.map fun arg => ⟨cmd.key, arg, []⟩⟩ } := by
  have inside := kept.catalog number bound
  refine ⟨?_, fun other member => ?_⟩
  · intro queue single shown last
    dsimp only at single
    obtain ⟨connections, catalog, dialog⟩ := page
    match connections with
    | [] => cases inside
    | [scope] =>
        obtain rfl : number = 0 := Nat.lt_one_iff.mp inside
        cases single
        rw [List.getLast?_concat] at last
        cases last
        exact ⟨List.mem_of_find?_eq_some found, rfl, by simp⟩
    | _ :: _ :: rest =>
        have lengths := congrArg List.length single
        simp at lengths
  · rw [List.length_modify]
    exact kept.catalog other member

/-- Values are filled into inputs of the same command. -/
theorem Kept.filled (kept : Kept page) (field : Nat) (value : JSString) :
    Kept { page with dialog := { page.dialog with
      inputs := page.dialog.inputs.modify field fun input => { input with val := value } } } := by
  refine ⟨fun queue single cmd last => ?_, kept.catalog⟩
  obtain ⟨listed, shows⟩ := kept.shown queue single cmd last
  refine ⟨listed, shows.command, ?_⟩
  rw [← shows.inputs]
  apply map_modify
  exact fun _ => rfl

theorem lt_of_any {number : Nat} {may : Scope → Bool} (found : page.connections[number]?.any may) :
    number < page.connections.length := by
  by_contra out
  rw [List.getElem?_eq_none (Nat.le_of_not_lt out)] at found
  cases found

end Invariant

/-- The commands that are pending in the connection that was accepted last. -/
def Page.currentQueue (page : Page) : List Command :=
  ((page.connections.getLast?).map Scope.commandQueue).getD []

/-- The connection whose socket is open. -/
def Page.openSocket (page : Page) : Option Nat := page.connections.findIdx? (·.socket = .opened)

/-- The Run button sends the command of the dialog with the arguments that are filled in, if there
are any, once and over the open socket.  The Cancel button sends nothing.  Both leave no command
pending. -/
def RunsOnce (page : Page) (after : Page) (sent : Frames) : Event → Prop
  | .run =>
      (page.dialog.filled ≠ [] → ∃ socket cmd, page.openSocket = some socket ∧ cmd ∈ commands ∧
        cmd.name = page.dialog.command ∧
        sent = [(socket, .data (JSString.trim (cmd.render page.dialog.filled) ++
          carriageReturn))]) ∧
      after.currentQueue = []
  | .cancel => sent = [] ∧ after.currentQueue = []
  | .connect | .socketOpen _ | .socketClosing _ | .socketClose _ | .catalogsLoaded _ | .entry _
  | .fill .. | .preview _ | .disconnect => True

/-- The buttons are clicked in the first connection of the page, with at most one command pending.
A command with arguments is run while it is pending and the socket is open. -/
def Orderly (page : Page) : Event → Prop
  | .run =>
      page.connections.length ≤ 1 ∧ page.currentQueue.length ≤ 1 ∧
        (page.dialog.filled ≠ [] → page.currentQueue ≠ [] ∧ page.openSocket ≠ none)
  | .cancel => page.connections.length ≤ 1 ∧ page.currentQueue.length ≤ 1
  | .connect | .socketOpen _ | .socketClosing _ | .socketClose _ | .catalogsLoaded _ | .entry _
  | .fill .. | .preview _ | .disconnect => True

section Clicks

variable {page : Page} {handler : Scope → Dialog → Handled}

/-- A handler that takes the first command leaves nothing pending, if that is the only one. -/
theorem Kept.click (kept : Kept page)
    (taken : ∀ scope dialog, (handler scope dialog).scope.commandQueue = scope.commandQueue.tail)
    (first : page.connections.length ≤ 1) (pending : page.currentQueue.length ≤ 1) :
    Kept (page.click handler).1 ∧ (page.click handler).1.currentQueue = [] := by
  obtain ⟨connections, catalog, dialog⟩ := page
  match connections with
  | [] => exact ⟨⟨nofun, kept.catalog⟩, rfl⟩
  | [scope] =>
      have queue : (handler scope dialog).scope.commandQueue = [] := by
        rw [taken, ← List.length_eq_zero_iff, List.length_tail]
        exact Nat.sub_eq_zero_of_le pending
      rw [Page.click, dispatch_singleton]
      refine ⟨⟨?_, kept.catalog⟩, queue⟩
      intro rest single cmd last
      rw [← List.head_eq_of_cons_eq single, queue] at last
      cases last
  | _ :: _ :: rest => exact absurd first (by simp)

/-- A command with arguments that is shown and pending is sent over the open socket. -/
theorem Kept.sent_run (kept : Kept page) (first : page.connections.length ≤ 1)
    (pending : page.currentQueue.length ≤ 1) (filled : page.dialog.filled ≠ [])
    (ready : page.currentQueue ≠ [] ∧ page.openSocket ≠ none) :
    ∃ socket cmd, page.openSocket = some socket ∧ cmd ∈ commands ∧
      cmd.name = page.dialog.command ∧
      (page.click (Scope.runCommand page.send)).2 =
        [(socket, .data (JSString.trim (cmd.render page.dialog.filled) ++ carriageReturn))] := by
  obtain ⟨connections, catalog, dialog⟩ := page
  match connections with
  | [] => exact absurd rfl ready.1
  | [scope] =>
      obtain ⟨cmd, queue⟩ := List.length_eq_one_iff.mp
        (Nat.le_antisymm pending (List.length_pos_iff.mpr ready.1))
      change scope.commandQueue = [cmd] at queue
      have opened : scope.socket = .opened := by
        by_contra shut
        exact ready.2 (by simp [Page.openSocket, shut])
      obtain ⟨listed, shows⟩ := kept.shown [cmd] (congrArg ([·]) queue) cmd rfl
      refine ⟨0, cmd, by simp [Page.openSocket, opened], listed, shows.command.symm, ?_⟩
      have trimmed : JSString.trim (cmd.render dialog.filled ++ newline) =
          JSString.trim (cmd.render dialog.filled) := trimBy_concat (by decide)
      have sending : Page.send ⟨[scope], catalog, dialog⟩ (cmd.render dialog.filled ++ newline) =
          some [(0, .data (JSString.trim (cmd.render dialog.filled) ++ carriageReturn))] := by
        rw [← trimmed]
        simp only [Page.send, List.getLast?_singleton, Option.map_some, opened,
          isJSON_render listed, Bool.false_eq_true, if_false, List.length_singleton]
      obtain ⟨arg, args, some⟩ := List.exists_cons_of_ne_nil filled
      rw [Page.click, dispatch_singleton]
      dsimp only
      rw [Scope.runCommand, queue]
      dsimp only [List.head?_cons]
      rw [shows.getArgs_eq, some]
      dsimp only
      rw [← some, sending]
      exact sent_fire
  | _ :: _ :: rest => exact absurd first (by simp)

end Clicks

/-! ## Every run -/

section Runs

variable {state after : Page} {event : Event} {sent : Frames} {trace : List (Event × Frames)}

/-- Every event that is in order keeps the dialog and the queue together. -/
theorem Kept.react (kept : Kept state) (orderly : Orderly state event)
    (reacted : state.react event = some (after, sent)) : Kept after := by
  cases event with
  | connect =>
      rw [Page.react] at reacted
      split_ifs at reacted
      · cases reacted
        exact kept.connected
      · cases reacted
        exact kept
  | socketOpen number | socketClosing number | socketClose number =>
      exact kept.update kept.catalog reacted fun _ => rfl
  | catalogsLoaded number =>
      refine kept.update ?_ reacted fun _ => rfl
      rw [Page.react, Page.update] at reacted
      split_ifs at reacted with found
      rintro _ ⟨⟩
      exact lt_of_any found
  | preview number => exact kept.update kept.catalog reacted fun _ => commandQueue_preview
  | entry key =>
      rw [Page.react] at reacted
      split at reacted
      · rename_i number cmd bound found
        cases reacted
        exact kept.chosen bound found
      · cases reacted
      · cases reacted
  | fill field value =>
      cases reacted
      exact kept.filled field _
  | run =>
      cases reacted
      exact (kept.click (fun _ _ => commandQueue_runCommand) orderly.1 orderly.2.1).1
  | cancel =>
      cases reacted
      exact (kept.click (fun _ _ => commandQueue_cancelCommand) orderly.1 orderly.2).1
  | disconnect =>
      cases reacted
      exact kept.of_queues (commandQueue_disconnect 0 _) kept.catalog

theorem kept_of_traces (traces : page.Traces Orderly trace state) : Kept state := by
  induction traces with
  | start => exact ⟨nofun, nofun⟩
  | next _ orderly reacted kept => exact kept.react orderly reacted

/-- In a run in which every click is in order, the Run button runs the command of the dialog
once. -/
theorem runsOnce_of_traces (traces : page.Traces Orderly trace state)
    (orderly : Orderly state event) (reacted : state.react event = some (after, sent)) :
    RunsOnce state after sent event := by
  have kept := kept_of_traces traces
  cases event with
  | run =>
      cases reacted
      refine ⟨fun filled => ?_, ?_⟩
      · exact kept.sent_run orderly.1 orderly.2.1 filled (orderly.2.2 filled)
      · exact (kept.click (fun _ _ => commandQueue_runCommand) orderly.1 orderly.2.1).2
  | cancel =>
      cases reacted
      refine ⟨sent_dispatch_cancel _ _, ?_⟩
      exact (kept.click (fun _ _ => commandQueue_cancelCommand) orderly.1 orderly.2).2
  | connect | socketOpen | socketClosing | socketClose | catalogsLoaded | entry | fill | preview
  | disconnect => trivial

end Runs

/-- The page after some connections, with an open one in which `ping` is chosen from the catalog and
the host is `h`. -/
def pinging (connections : List Scope) : Page where
  connections := connections ++ [{ socket := .opened, commandQueue := commands.take 1 }]
  catalog := some connections.length
  dialog := ⟨"ping", [⟨"ping", "count", []⟩, ⟨"ping", "host", [104]⟩]⟩

/-- In the first connection, the command is run. -/
theorem runsOnce_of_traces_ping :
    RunsOnce (pinging []) ⟨[{ socket := .opened }], some 0, .empty⟩
      [(0, .data (JSString.ofString "ping -c  h\r"))] .run := by
  have traces : page.Traces Orderly
      [(.connect, []), (.socketOpen 0, []), (.catalogsLoaded 0, []), (.entry "ping", []),
        (.fill 1 [104], [])] (pinging []) :=
    ((((Reactor.Traces.start.next trivial rfl).next trivial rfl).next trivial rfl).next trivial
      rfl).next trivial rfl
  have orderly : Orderly (pinging []) .run := ⟨by decide, by decide, fun _ => by decide⟩
  exact runsOnce_of_traces traces orderly rfl

/-- In the second connection, the handler of the first one throws, and nothing is sent. -/
theorem runsOnce_reconnected_fails :
    ¬∀ (trace : List (Event × Frames)) (state after : Page) (event : Event) (sent : Frames),
      page.Traces (fun _ _ => True) trace state → state.react event = some (after, sent) →
        RunsOnce state after sent event := by
  intro runs
  have traces : page.Traces (fun _ _ => True)
      [(.connect, []), (.socketOpen 0, []), (.catalogsLoaded 0, []), (.socketClose 0, []),
        (.connect, []), (.socketOpen 1, []), (.catalogsLoaded 1, []), (.entry "ping", []),
        (.fill 1 [104], [])] (pinging [{ socket := .closed }]) :=
    ((((((((Reactor.Traces.start.next trivial rfl).next trivial rfl).next trivial rfl).next trivial
      rfl).next trivial rfl).next trivial rfl).next trivial rfl).next trivial rfl).next trivial rfl
  obtain ⟨_, _, _, _, _, sent⟩ := (runs _ _ _ .run _ traces rfl).1 (by decide)
  cases sent

end CloudRunSsh.WebSSH.Commands
