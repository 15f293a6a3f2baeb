import Mathlib.Data.List.TakeWhile
import CloudRunSsh.Concurrency.Trace
import CloudRunSsh.Data.JavaScript

/-!
# Connecting from the page

The page connects in up to three steps: it reads a key file, posts the form and opens a socket.
Each is asynchronous, and a variable tells whether the page is connecting.  The page is served
over HTTP, and what jQuery, the terminal and the dialogs do themselves is assumed not to throw.
-/

namespace CloudRunSsh.WebSSH.Connecting

open CloudRunSsh.Concurrency

/-- How JavaScript writes a number of JSON. -/
structure JSNumber where
  text : List Char
  plain : ∀ char ∈ text, char ∈ "0123456789+-.e".toList

/-- A value that JSON stands for, or `undefined`. -/
inductive JSValue where
  | undefined
  | null
  | bool (value : Bool)
  | number (number : JSNumber)
  | string (units : JSString)
  | array (elements : List JSValue)
  | object (fields : List (JSString × JSValue))

namespace JSValue

/-- A member of a value.  Only objects have the members that are asked for. -/
def get (name : String) : JSValue → JSValue
  | object fields =>
      match fields.find? fun field => field.1 = JSString.ofString name with
      | some field => field.2
      | none => undefined
  | undefined | null | bool _ | number _ | string _ | array _ => undefined

/-- The value counts as true. -/
def truthy : JSValue → Bool
  | undefined | null => false
  | bool value => value
  | number value => value.text ≠ ['0']
  | string units => units ≠ []
  | array _ | object _ => true

mutual

/-- The value as a string, unless it cannot be converted: an object that has a member
`toString` has no method of that name. -/
def text : JSValue → Option JSString
  | undefined => some (JSString.ofString "undefined")
  | null => some (JSString.ofString "null")
  | bool value => some (JSString.ofString (if value then "true" else "false"))
  | number value => some (JSString.ofText value.text)
  | string units => some units
  | array elements => (texts elements).map (JSString.join ',')
  | object fields =>
      if JSString.ofString "toString" ∈ fields.map Prod.fst then none
      else some (JSString.ofString "[object Object]")

/-- The elements of an array as strings, where `null` is empty. -/
def texts : List JSValue → Option (List JSString)
  | [] => some []
  | null :: rest => (texts rest).map ([] :: ·)
  | element :: rest => (text element).bind fun first => (texts rest).map (first :: ·)

end

/-- Nothing throws where the value is written, if it counts as true. -/
def printable (value : JSValue) : Bool := !value.truthy || value.text.isSome

end JSValue

/-- `replace` of the first occurrence. -/
def replaceFirst (pattern value : JSString) : JSString → JSString
  | [] => []
  | unit :: rest =>
      if pattern.isPrefixOf (unit :: rest) then value ++ (unit :: rest).drop pattern.length
      else unit :: replaceFirst pattern value rest

def hash : UInt16 := UInt16.ofNat '#'.toNat

/-- `ws_url`: the URL of the page without query and fragment, for a socket. -/
def wsURL (href : JSString) : JSString :=
  replaceFirst (JSString.ofString "http") (JSString.ofString "ws")
    (href.takeWhile fun unit => unit ≠ UInt16.ofNat '?'.toNat && unit ≠ hash)

/-- `url`. -/
def socketURL (href id : JSString) : JSString :=
  let join := if (wsURL href).getLast? = some (UInt16.ofNat '/'.toNat) then []
    else JSString.ofString "/"
  wsURL href ++ join ++ JSString.ofString "ws?id=" ++ id

/-- `DISCONNECTED`, `CONNECTING` and `CONNECTED`. -/
inductive ConnectState where
  | disconnected
  | connecting
  | connected
  deriving DecidableEq, Repr

/-- What the page waits for.  A socket may be left without the handlers of its events. -/
inductive Operation where
  | keyFile
  | post
  | socket (handled : Bool)
  deriving DecidableEq, Repr

/-- `state`, what is outstanding, and `validated_form_data`, of which it only matters whether
`populate_form` can put it in the form: a value may have no conversion to a string. -/
structure Connection where
  state : ConnectState
  outstanding : List Operation
  validatedFormData : Option Bool
  deriving DecidableEq, Repr

/-- An attempt to connect: with the form, where `errors` tells whether `validate_form_data` finds
any and `keyFile` whether a key file is chosen; with options, where `opens` tells whether a
request can be sent to their URL at all and `kept` is what `validated_form_data` is set to, if it
is; or with arguments on which `connect` throws. -/
inductive ConnectAttempt where
  | form (errors keyFile : Bool)
  | options (errors opens : Bool) (kept : Option Bool)
  | malformed
  deriving DecidableEq, Repr

/-- How the reading of a key file ends. -/
inductive KeyFileOutcome where
  | text
  | undecodable
  | failed
  deriving DecidableEq, Repr

/-- What jQuery passes on: the status, 0 for a request that failed, and `responseJSON`. -/
structure Response where
  status : Nat
  responseJSON : JSValue

/-- What happens to the page. -/
inductive ConnectEvent where
  | connect (attempt : ConnectAttempt)
  | keyFile (outcome : KeyFileOutcome)
  | complete (response : Response)
  | socketOpen (handled : Bool)
  | socketError (handled : Bool)
  | socketClose (handled : Bool)

/-- What the page does: nothing but to change its state, or to start a request while others are
outstanding. -/
inductive ConnectReaction where
  | silent
  | posting (others : List Operation)
  deriving DecidableEq, Repr

namespace Connection

/-- `log_status` with the form to fill in, and `DISCONNECTED` unless that throws. -/
def disconnect (page : Connection) : Connection :=
  if page.validatedFormData = some false then page
  else { page with state := .disconnected, validatedFormData := none }

/-- `ajax_complete_callback`.  Where it throws, the state is as it was. -/
def ajaxCompleteCallback (href : JSString) (page : Connection) (response : Response) : Connection :=
  if response.status ≠ 200 then page.disconnect
  else
    match response.responseJSON with
    | .undefined | .null => page
    | message =>
        if (message.get "id").truthy then
          match (message.get "id").text with
          | none => page
          | some id =>
              -- a socket cannot be opened for a URL with a fragment
              if hash ∈ socketURL href id then page
              -- the encoding is written to the console before the handlers are set
              else { page with outstanding := .socket (message.get "encoding").printable ::
                page.outstanding }
        else
          match message.get "status" with
          | .string _ => page.disconnect
          -- `log_status` splits the status
          | _ => page

/-- `$.ajax`.  A request that cannot be opened is complete at once, with status 0. -/
def ajax (href : JSString) (page : Connection) (opens : Bool) : Connection :=
  if opens then { page with outstanding := .post :: page.outstanding }
  else page.ajaxCompleteCallback href ⟨0, .undefined⟩

/-- `connect`. -/
def connect (href : JSString) (debug : Bool) (page : Connection) :
    ConnectAttempt → Connection × ConnectReaction
  | .malformed => (page, .silent)
  | .form errors keyFile =>
      if page.state ≠ .disconnected then (page, .silent)
      else if errors ∧ ¬debug then (page, .silent)
      else if keyFile ∧ ¬debug then
        ({ page with state := .connecting, outstanding := .keyFile :: page.outstanding }, .silent)
      else ({ page.ajax href true with state := .connecting }, .posting page.outstanding)
  | .options errors opens kept =>
      if page.state ≠ .disconnected then (page, .silent)
      else if errors ∧ ¬debug then (page, .silent)
      else
        let sent := page.ajax href opens
        ({ sent with
          state := .connecting
          validatedFormData := kept.or sent.validatedFormData }, .posting page.outstanding)

/-- An operation has ended. -/
def without (page : Connection) (operation : Operation) : Connection :=
  { page with outstanding := page.outstanding.erase operation }

/-- The callback of `read_file_as_text`, if there is one to call. -/
def keyFileRead (href : JSString) (page : Connection) :
    KeyFileOutcome → Connection × ConnectReaction
  | .text => (page.ajax href true, .posting page.outstanding)
  | .undecodable | .failed => (page, .silent)

/-- One event.  Only what is outstanding can end. -/
def react (href : JSString) (debug : Bool) (page : Connection) :
    ConnectEvent → Option (Connection × ConnectReaction)
  | .connect attempt => some (page.connect href debug attempt)
  | .keyFile outcome =>
      if .keyFile ∈ page.outstanding then
        some ((page.without .keyFile).keyFileRead href outcome)
      else none
  | .complete response =>
      if .post ∈ page.outstanding then
        some ((page.without .post).ajaxCompleteCallback href response, .silent)
      else none
  | .socketOpen handled =>
      if .socket handled ∈ page.outstanding then
        some (if handled then { page with state := .connected } else page, .silent)
      else none
  | .socketError handled =>
      if .socket handled ∈ page.outstanding then some (page, .silent) else none
  | .socketClose handled =>
      if .socket handled ∈ page.outstanding then
        some (if handled then (page.without (.socket true)).disconnect
          else page.without (.socket false), .silent)
      else none

end Connection

/-- The page, from when it is loaded. -/
def client (href : JSString) (debug : Bool) : Reactor Connection ConnectEvent ConnectReaction where
  initial := ⟨.disconnected, [], none⟩
  react := Connection.react href debug

theorem mem_replaceFirst {pattern value text : JSString} {unit : UInt16}
    (member : unit ∈ replaceFirst pattern value text) : unit ∈ value ∨ unit ∈ text := by
  induction text with
  | nil => exact absurd member List.not_mem_nil
  | cons first rest ih =>
      rw [replaceFirst] at member
      split_ifs at member
      · exact (List.mem_append.mp member).imp_right List.mem_of_mem_drop
      · rcases List.mem_cons.mp member with rfl | later
        · exact .inr List.mem_cons_self
        · exact (ih later).imp_right (List.mem_cons_of_mem _)

theorem hash_not_mem_wsURL (href : JSString) : hash ∉ wsURL href := by
  intro member
  rcases mem_replaceFirst member with inside | inside
  · exact absurd inside (by decide)
  · have kept := List.mem_takeWhile_imp inside
    rw [Bool.and_eq_true_iff, decide_eq_true_iff, decide_eq_true_iff] at kept
    exact kept.2 rfl

/-- The URL has a fragment only if the id has a number sign. -/
theorem hash_mem_socketURL {href id : JSString} : hash ∈ socketURL href id ↔ hash ∈ id := by
  have plain := hash_not_mem_wsURL href
  have join : hash ∉ (if (wsURL href).getLast? = some (UInt16.ofNat '/'.toNat) then []
      else JSString.ofString "/") := by
    split_ifs <;> decide
  have path : hash ∉ JSString.ofString "ws?id=" := by decide
  rw [socketURL, List.mem_append, List.mem_append, List.mem_append]
  exact or_iff_right (not_or_intro (not_or_intro plain join) path)

/-- At most one thing is outstanding, and then the page is not disconnected. -/
structure Alone (page : Connection) : Prop where
  single : page.outstanding.length ≤ 1
  busy : page.outstanding ≠ [] → page.state ≠ .disconnected

theorem alone_of_nil (state : ConnectState) (data : Option Bool) : Alone ⟨state, [], data⟩ :=
  ⟨Nat.zero_le _, fun some => absurd rfl some⟩

section Steps

variable {href : JSString} {debug : Bool} {page : Connection} {operation : Operation}

/-- What is outstanding is the only thing. -/
theorem Alone.exists_eq (alone : Alone page) (member : operation ∈ page.outstanding) :
    ∃ state data, page = ⟨state, [operation], data⟩ := by
  obtain ⟨state, outstanding, data⟩ := page
  obtain ⟨other, rfl⟩ := List.length_eq_one_iff.mp
    (Nat.le_antisymm alone.single (List.length_pos_of_mem member))
  obtain rfl := List.mem_singleton.mp member
  exact ⟨state, data, rfl⟩

@[simp] theorem without_single (state : ConnectState) (operation : Operation)
    (data : Option Bool) :
    Connection.without ⟨state, [operation], data⟩ operation = ⟨state, [], data⟩ := by
  rw [Connection.without, List.erase_cons_head]

theorem Alone.state_ne (alone : Alone page) (member : operation ∈ page.outstanding) :
    page.state ≠ .disconnected := alone.busy (List.ne_nil_of_mem member)

/-- A disconnected page waits for nothing. -/
theorem Alone.outstanding_eq_nil (alone : Alone page) (idle : page.state = .disconnected) :
    page.outstanding = [] := by
  by_contra some
  exact alone.busy some idle

/-- A response that the page can use: of another status, or an object with an id that a socket
can be opened for and an encoding that can be written, or without an id and with a status that
is a string. -/
def Response.Usable (response : Response) : Prop :=
  response.status = 200 →
    if (response.responseJSON.get "id").truthy then
      (∃ id, (response.responseJSON.get "id").text = some id ∧ hash ∉ id) ∧
        (response.responseJSON.get "encoding").printable
    else ∃ status, response.responseJSON.get "status" = .string status

/-- After a response the page is disconnected, it waits for a socket, or nothing has changed. -/
theorem ajaxCompleteCallback_cases (page : Connection) (response : Response) :
    page.ajaxCompleteCallback href response = page.disconnect ∨
      (∃ handled, page.ajaxCompleteCallback href response =
        { page with outstanding := .socket handled :: page.outstanding } ∧
          (response.Usable → handled = true)) ∨
      page.ajaxCompleteCallback href response = page ∧ ¬response.Usable := by
  by_cases ok : response.status = 200
  swap
  · exact .inl (if_pos ok)
  rw [Connection.ajaxCompleteCallback, if_neg (not_not_intro ok)]
  have usable : response.Usable ↔ _ := forall_prop_of_true ok
  have nothing : ∀ message, message = response.responseJSON →
      message.get "id" = .undefined → message.get "status" = .undefined → ¬response.Usable := by
    rintro message rfl id status
    have falsy : ¬(response.responseJSON.get "id").truthy = true := by
      rw [id]
      exact Bool.false_ne_true
    rw [usable, if_neg falsy, status]
    rintro ⟨_, same⟩
    cases same
  split
  · rename_i same
    exact .inr (.inr ⟨rfl, nothing _ same.symm rfl rfl⟩)
  · rename_i same
    exact .inr (.inr ⟨rfl, nothing _ same.symm rfl rfl⟩)
  · split_ifs with truthy
    · split
      · rename_i missing
        refine .inr (.inr ⟨rfl, ?_⟩)
        rw [usable, if_pos truthy, missing]
        rintro ⟨⟨_, found, _⟩, _⟩
        cases found
      · rename_i id found
        split_ifs with fragment
        · refine .inr (.inr ⟨rfl, ?_⟩)
          rw [usable, if_pos truthy, found]
          rintro ⟨⟨_, same, plain⟩, _⟩
          cases same
          exact plain (hash_mem_socketURL.mp fragment)
        · refine .inr (.inl ⟨_, rfl, ?_⟩)
          rw [usable, if_pos truthy]
          exact And.right
    · split
      · exact .inl rfl
      · rename_i other
        refine .inr (.inr ⟨rfl, ?_⟩)
        rw [usable, if_neg truthy]
        rintro ⟨status, same⟩
        exact other status same

/-- What an event leads to, if at most one thing is outstanding. -/
inductive ConnectStep (debug : Bool) :
    Connection → ConnectEvent → Connection → ConnectReaction → Prop where
  | stay {page : Connection} {event : ConnectEvent} : ConnectStep debug page event page .silent
  | read {event : ConnectEvent} {data : Option Bool} :
      ConnectStep debug ⟨.disconnected, [], data⟩ event ⟨.connecting, [.keyFile], data⟩ .silent
  | post {event : ConnectEvent} {data : Option Bool} :
      ConnectStep debug ⟨.disconnected, [], data⟩ event ⟨.connecting, [.post], data⟩ (.posting [])
  | sent {errors : Bool} {kept data : Option Bool} (valid : ¬(errors = true ∧ ¬debug = true)) :
      ConnectStep debug ⟨.disconnected, [], data⟩ (.connect (.options errors true kept))
        ⟨.connecting, [.post], kept.or data⟩ (.posting [])
  | unsent {errors : Bool} {kept data after : Option Bool}
      (valid : ¬(errors = true ∧ ¬debug = true)) :
      ConnectStep debug ⟨.disconnected, [], data⟩ (.connect (.options errors false kept))
        ⟨.connecting, [], after⟩ (.posting [])
  | fileRead {state : ConnectState} {data : Option Bool} :
      ConnectStep debug ⟨state, [.keyFile], data⟩ (.keyFile .text) ⟨state, [.post], data⟩
        (.posting [])
  | fileLost {state : ConnectState} {data : Option Bool} {outcome : KeyFileOutcome}
      (lost : outcome ≠ .text) :
      ConnectStep debug ⟨state, [.keyFile], data⟩ (.keyFile outcome) ⟨state, [], data⟩ .silent
  | refused {state : ConnectState} {data : Option Bool} {response : Response} :
      ConnectStep debug ⟨state, [.post], data⟩ (.complete response)
        (Connection.disconnect ⟨state, [], data⟩) .silent
  | accepted {state : ConnectState} {data : Option Bool} {response : Response} {handled : Bool}
      (usable : response.Usable → handled = true) :
      ConnectStep debug ⟨state, [.post], data⟩ (.complete response) ⟨state, [.socket handled], data⟩
        .silent
  | unusable {state : ConnectState} {data : Option Bool} {response : Response}
      (unusable : ¬response.Usable) :
      ConnectStep debug ⟨state, [.post], data⟩ (.complete response) ⟨state, [], data⟩ .silent
  | opened {state : ConnectState} {data : Option Bool} :
      ConnectStep debug ⟨state, [.socket true], data⟩ (.socketOpen true)
        ⟨.connected, [.socket true], data⟩ .silent
  | closed {state : ConnectState} {data : Option Bool} :
      ConnectStep debug ⟨state, [.socket true], data⟩ (.socketClose true)
        (Connection.disconnect ⟨state, [], data⟩) .silent
  | unheard {state : ConnectState} {data : Option Bool} :
      ConnectStep debug ⟨state, [.socket false], data⟩ (.socketClose false) ⟨state, [], data⟩
        .silent

theorem connectStep_of_connect (alone : Alone page) (attempt : ConnectAttempt) :
    ConnectStep debug page (.connect attempt) (page.connect href debug attempt).1
      (page.connect href debug attempt).2 := by
  obtain ⟨state, outstanding, data⟩ := page
  cases attempt with
  | malformed => exact .stay
  | form errors keyFile =>
      rw [Connection.connect]
      split_ifs with busy invalid reading
      · exact .stay
      · exact .stay
      · obtain rfl := not_not.mp busy
        obtain rfl := alone.outstanding_eq_nil rfl
        exact .read
      · obtain rfl := not_not.mp busy
        obtain rfl := alone.outstanding_eq_nil rfl
        exact .post
  | options errors opens kept =>
      rw [Connection.connect]
      split_ifs with busy invalid
      · exact .stay
      · exact .stay
      · obtain rfl := not_not.mp busy
        obtain rfl := alone.outstanding_eq_nil rfl
        cases opens with
        | true => exact .sent invalid
        | false =>
            -- the callback leaves nothing outstanding either
            have nothing (data : Option Bool) :
                (Connection.disconnect ⟨.disconnected, [], data⟩).outstanding = [] := by
              rw [Connection.disconnect]
              split_ifs <;> rfl
            dsimp only [Connection.ajax, Connection.ajaxCompleteCallback]
            rw [if_neg Bool.false_ne_true, if_pos (by decide), nothing]
            exact .unsent invalid

/-- Every event is one of these steps. -/
theorem connectStep_of_react {event : ConnectEvent} {after : Connection}
    {reaction : ConnectReaction} (alone : Alone page)
    (reacted : page.react href debug event = some (after, reaction)) :
    ConnectStep debug page event after reaction := by
  cases event with
  | connect attempt =>
      have step : ConnectStep debug page (.connect attempt) (page.connect href debug attempt).1
          (page.connect href debug attempt).2 := connectStep_of_connect alone attempt
      rw [Option.some.inj reacted] at step
      exact step
  | keyFile outcome =>
      rw [Connection.react] at reacted
      split_ifs at reacted with waiting
      obtain ⟨state, data, rfl⟩ := alone.exists_eq waiting
      rw [without_single] at reacted
      cases outcome with
      | text =>
          cases reacted
          exact .fileRead
      | undecodable | failed =>
          cases reacted
          exact .fileLost (by decide)
  | complete response =>
      rw [Connection.react] at reacted
      split_ifs at reacted with waiting
      obtain ⟨state, data, rfl⟩ := alone.exists_eq waiting
      rw [without_single] at reacted
      rcases @ajaxCompleteCallback_cases href ⟨state, [], data⟩ response with
        same | ⟨handled, same, usable⟩ | ⟨same, bad⟩
      all_goals
        rw [same] at reacted
        cases reacted
      · exact .refused
      · exact .accepted usable
      · exact .unusable bad
  | socketOpen handled =>
      rw [Connection.react] at reacted
      split_ifs at reacted with waiting heard
      · subst heard
        obtain ⟨state, data, rfl⟩ := alone.exists_eq waiting
        cases reacted
        exact .opened
      · cases reacted
        exact .stay
  | socketError handled =>
      rw [Connection.react] at reacted
      split_ifs at reacted
      cases reacted
      exact .stay
  | socketClose handled =>
      rw [Connection.react] at reacted
      split_ifs at reacted with waiting heard
      · subst heard
        obtain ⟨state, data, rfl⟩ := alone.exists_eq waiting
        rw [without_single] at reacted
        cases reacted
        exact .closed
      · obtain rfl := Bool.eq_false_iff.mpr heard
        obtain ⟨state, data, rfl⟩ := alone.exists_eq waiting
        rw [without_single] at reacted
        cases reacted
        exact .unheard

theorem alone_disconnect (state : ConnectState) (data : Option Bool) :
    Alone (Connection.disconnect ⟨state, [], data⟩) := by
  rw [Connection.disconnect]
  split_ifs <;> exact alone_of_nil _ _

/-- One thing at a time stays so, and a request is started only if nothing else is outstanding. -/
theorem ConnectStep.alone {event : ConnectEvent} {after : Connection}
    {reaction : ConnectReaction} (step : ConnectStep debug page event after reaction)
    (alone : Alone page) : Alone after ∧ ∀ others, reaction = .posting others → others = [] := by
  have posting : ∀ others : List Operation,
      ConnectReaction.posting [] = .posting others → others = [] := by
    rintro _ ⟨⟩
    rfl
  have one {state : ConnectState} {data : Option Bool} {operation : Operation}
      (busy : state ≠ .disconnected) : Alone ⟨state, [operation], data⟩ :=
    ⟨Nat.le_refl _, fun _ => busy⟩
  have connecting : ConnectState.connecting ≠ .disconnected := by decide
  cases step with
  | stay => exact ⟨alone, nofun⟩
  | read => exact ⟨one connecting, nofun⟩
  | post | sent => exact ⟨one connecting, posting⟩
  | unsent => exact ⟨alone_of_nil _ _, posting⟩
  | fileRead => exact ⟨one (alone.state_ne List.mem_cons_self), posting⟩
  | accepted => exact ⟨one (alone.state_ne List.mem_cons_self), nofun⟩
  | opened => exact ⟨one (by decide), nofun⟩
  | fileLost | unusable | unheard => exact ⟨alone_of_nil _ _, nofun⟩
  | refused | closed => exact ⟨alone_disconnect _ _, nofun⟩

end Steps

/-! ## Every run -/

/-- The event does not end an attempt without the page noticing: the key file is read, the
response can be used, and what is given can be sent and can be put in the form again. -/
def Noticed (debug : Bool) (page : Connection) : ConnectEvent → Prop
  | .connect (.options errors opens kept) =>
      page.state = .disconnected → ¬(errors = true ∧ ¬debug = true) →
        opens = true ∧ kept ≠ some false
  | .keyFile outcome => outcome = .text
  | .complete response => response.Usable
  | .connect _ | .socketOpen _ | .socketError _ | .socketClose _ => True

/-- The page is disconnected whenever nothing is outstanding, and nothing keeps it from being so
again. -/
structure Settled (page : Connection) : Prop where
  idle : page.outstanding = [] → page.state = .disconnected
  handled : .socket false ∉ page.outstanding
  refills : page.validatedFormData ≠ some false

theorem settled_disconnect {state : ConnectState} {data : Option Bool}
    (refills : data ≠ some false) : Settled (Connection.disconnect ⟨state, [], data⟩) := by
  rw [Connection.disconnect, if_neg refills]
  exact ⟨fun _ => rfl, List.not_mem_nil, nofun⟩

theorem ConnectStep.settled {debug : Bool} {page after : Connection} {event : ConnectEvent}
    {reaction : ConnectReaction} (step : ConnectStep debug page event after reaction)
    (noticed : Noticed debug page event) (settled : Settled page) : Settled after := by
  have waiting {state : ConnectState} {data : Option Bool} {operation : Operation}
      (handled : operation ≠ .socket false) (refills : data ≠ some false) :
      Settled ⟨state, [operation], data⟩ :=
    ⟨nofun, fun member => handled (List.mem_singleton.mp member).symm, refills⟩
  cases step with
  | stay => exact settled
  | read | post | fileRead => exact waiting nofun settled.refills
  | sent valid =>
      refine waiting nofun ?_
      have refills := (noticed rfl valid).2
      rename_i kept data
      cases kept with
      | none => exact settled.refills
      | some kept => exact refills
  | unsent valid => cases (noticed rfl valid).1
  | fileLost lost => exact absurd noticed lost
  | refused | closed => exact settled_disconnect settled.refills
  | accepted usable => exact waiting (by rw [usable noticed]; nofun) settled.refills
  | unusable unusable => exact absurd noticed unusable
  | opened => exact waiting nofun settled.refills
  | unheard => exact absurd List.mem_cons_self settled.handled

section Runs

variable {href : JSString} {debug : Bool} {guard : Connection → ConnectEvent → Prop}
  {trace : List (ConnectEvent × ConnectReaction)} {page : Connection}

theorem alone_of_traces (traces : (client href debug).Traces guard trace page) : Alone page := by
  induction traces with
  | start => exact alone_of_nil _ _
  | next _ _ reacted alone => exact ((connectStep_of_react alone reacted).alone alone).1

/-- In every run, no request is started while something is outstanding. -/
theorem posting_of_traces (traces : (client href debug).Traces guard trace page) :
    ∀ event others, (event, .posting others) ∈ trace → others = [] := by
  induction traces with
  | start => exact fun _ _ member => absurd member List.not_mem_nil
  | next reached _ reacted ih =>
      intro event others member
      have alone := alone_of_traces reached
      rcases List.mem_append.mp member with earlier | last
      · exact ih event others earlier
      · cases List.mem_singleton.mp last
        exact ((connectStep_of_react alone reacted).alone alone).2 others rfl

theorem settled_of_traces (traces : (client href debug).Traces (Noticed debug) trace page) :
    Settled page := by
  induction traces with
  | start => exact ⟨fun _ => rfl, List.not_mem_nil, nofun⟩
  | next reached noticed reacted settled =>
      exact (connectStep_of_react (alone_of_traces reached) reacted).settled noticed settled

/-- In a run in which every end is noticed, the page is disconnected whenever nothing is
outstanding, and no request is started while something is. -/
theorem disconnected_of_traces (traces : (client href debug).Traces (Noticed debug) trace page) :
    (page.outstanding = [] → page.state = .disconnected) ∧
      ∀ event others, (event, .posting others) ∈ trace → others = [] :=
  ⟨(settled_of_traces traces).idle, posting_of_traces traces⟩

end Runs

/-- A form without a key file, a response with an id, and a socket that opens and closes. -/
theorem disconnected_of_traces_socket :
    let reached : Connection := ⟨.disconnected, [], none⟩
    (reached.outstanding = [] → reached.state = .disconnected) ∧
      ∀ event others, (event, ConnectReaction.posting others) ∈
        [(ConnectEvent.connect (.form false false), .posting []),
          (.complete ⟨200, .object [(JSString.ofString "id", .string [97])]⟩, .silent),
          (.socketOpen true, .silent), (.socketClose true, .silent)] → others = [] := by
  have usable : Response.Usable ⟨200, .object [(JSString.ofString "id", .string [97])]⟩ := by
    intro _
    exact ⟨⟨[97], rfl, by decide⟩, rfl⟩
  have traces : (client (JSString.ofString "https://host/") false).Traces (Noticed false)
      [(.connect (.form false false), .posting []),
        (.complete ⟨200, .object [(JSString.ofString "id", .string [97])]⟩, .silent),
        (.socketOpen true, .silent), (.socketClose true, .silent)] ⟨.disconnected, [], none⟩ :=
    (((Reactor.Traces.start.next trivial rfl).next usable rfl).next trivial rfl).next trivial rfl
  exact disconnected_of_traces traces

/-- A response that is no JSON leaves the page connecting with nothing outstanding, and without
`debug` a key file that is not text does, too. -/
theorem disconnected_response_fails :
    (¬∀ (href : JSString) (trace : List (ConnectEvent × ConnectReaction)) (page : Connection),
      (client href true).Traces (fun _ _ => True) trace page →
        (page.outstanding = [] → page.state = .disconnected) ∧
          ∀ event others, (event, .posting others) ∈ trace → others = []) ∧
    ¬∀ (href : JSString) (trace : List (ConnectEvent × ConnectReaction)) (page : Connection),
      (client href false).Traces (fun _ _ => True) trace page →
        (page.outstanding = [] → page.state = .disconnected) ∧
          ∀ event others, (event, .posting others) ∈ trace → others = [] := by
  constructor
  · intro settles
    have traces : (client [] true).Traces (fun _ _ => True)
        [(.connect (.form false false), .posting []), (.complete ⟨200, .undefined⟩, .silent)]
        ⟨.connecting, [], none⟩ :=
      (Reactor.Traces.start.next trivial rfl).next trivial rfl
    exact absurd ((settles _ _ _ traces).1 rfl) (by decide)
  · intro settles
    have traces : (client [] false).Traces (fun _ _ => True)
        [(.connect (.form false true), .silent), (.keyFile .undecodable, .silent)]
        ⟨.connecting, [], none⟩ :=
      (Reactor.Traces.start.next trivial rfl).next trivial rfl
    exact absurd ((settles _ _ _ traces).1 rfl) (by decide)

end CloudRunSsh.WebSSH.Connecting
