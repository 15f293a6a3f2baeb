import CloudRunSsh.Data.Writers
import CloudRunSsh.WebSSH.Connecting
import CloudRunSsh.WebSSH.Posts

/-!
# Answers to a post

Whatever a request is answered with is an object of three members, written as JSON with closing
tags escaped.  The page reads from it what the server put there, and can use every one: it does not
stay connecting with nothing outstanding, and the socket asks for the worker that was answered.
-/

namespace CloudRunSsh.WebSSH

open JSON Connecting CloudRunSsh.Concurrency

/-- What `gen_id` gives: `token_urlsafe` and `hex` have letters, digits, `-` and `_`. -/
structure WorkerID where
  text : List Char
  filled : text ≠ []
  urlSafe : ∀ char ∈ text, (char.isAlphanum || char ∈ ['-', '_']) = true

/-- How `ssh_connect` ends: with a worker, with an exception that `post` catches, or with another
one, for which `write_error` finds a reason. -/
inductive Connected where
  | worker (id : WorkerID) (encoding : PyString)
  | failed (message : PyString)
  | uncaught (reason : PyString)

/-- What comes from there has no surrogates. -/
def Connected.Legible : Connected → Prop
  | .worker _ text | .failed text | .uncaught text => WebSSH.Legible text

/-- `self.result`. -/
structure PostResult where
  id : Option PyString := none
  status : Option PyString := none
  encoding : Option PyString := none
  deriving DecidableEq, Repr

/-- What a request is answered with: the result of `post`, or of `write_error`. -/
def IndexHandler.answer {Key : Type} (settings : PostSettings Key) (self : IndexHandler)
    (request : FormRequest) (sshConnect : SSHArgs Key → Connected) : PostResult :=
  match self.submit settings request with
  | .error failure => { status := some (failure.status request.arguments) }
  | .ok args =>
      match sshConnect args with
      | .worker id encoding => { id := some (symbols id.text), encoding := some encoding }
      | .failed message => { status := some message }
      | .uncaught reason => { status := some reason }

/-- `null`, or a string. -/
def optional : Option PyString → Document
  | none => .null
  | some text => .string text

namespace PostResult

variable (result : PostResult)

def document : Document :=
  .object [(.ofText "id", optional result.id), (.ofText "status", optional result.status),
    (.ofText "encoding", optional result.encoding)]

/-- `json_encode` of the result, which is the body of the answer. -/
def body : PyString := escapeTags (dumpsStyle.render result.document)

end PostResult

/-- The id that `WsockHandler.open` looks up. -/
def WsockHandler.workerID (query : List Char) : Except BadRequest (List Char) :=
  getValue (Percent.parse query) "id"

/-- The units of a string that is read. -/
def unitsOf (text : PyString) : JSString := text.flatMap JSString.ofCodePoint

mutual

/-- A value of JSON as JavaScript has it.  How a number is written is left open. -/
def jsValue : Value → Option JSValue
  | .null => some .null
  | .bool value => some (.bool value)
  | .int _ | .float _ => none
  | .string text => some (.string (unitsOf text))
  | .array elements => (jsValues elements).map .array
  | .object fields => (jsFields fields).map .object

def jsValues : List Value → Option (List JSValue)
  | [] => some []
  | element :: elements =>
      (jsValue element).bind fun first => (jsValues elements).map (first :: ·)

def jsFields : List (PyString × Value) → Option (List (JSString × JSValue))
  | [] => some []
  | (name, value) :: fields =>
      (jsValue value).bind fun first => (jsFields fields).map ((unitsOf name, first) :: ·)

end

/-- `responseJSON` of an answer with this body. -/
def responseJSON (body : PyString) : JSValue := ((JSON.parse body).bind jsValue).getD .undefined

/-- What jQuery passes on of an answer: a swallowed error is answered with 200 like a result. -/
def PostResult.response (result : PostResult) : Response := ⟨200, responseJSON result.body⟩

/-- The query of the URL of the socket, which the server gets. -/
def socketQuery (href id : JSString) : Option (List Char) :=
  JSString.characters ((socketURL href id).dropWhile (· ≠ UInt16.ofNat '?'.toNat)).tail

/-- A string or `null` of JavaScript. -/
def jsOptional : Option PyString → JSValue
  | none => .null
  | some text => .string (unitsOf text)

theorem jsValue_optional (text : Option PyString) :
    jsValue (optional text).value = some (jsOptional text) := by
  cases text with
  | none => rw [optional, Document.value, jsValue, jsOptional]
  | some text => rw [optional, Document.value, jsValue, jsOptional]

theorem fits_optional {text : Option PyString} (legible : ∀ found ∈ text, Legible found) :
    (optional text).Fits 0 0 := by
  cases text with
  | none => exact .null
  | some text => exact .string (joined_of_valid (legible text rfl))

namespace PostResult

variable {result : PostResult}

/-- The texts of the result have no surrogates. -/
structure Legible (result : PostResult) : Prop where
  id : ∀ text ∈ result.id, WebSSH.Legible text
  status : ∀ text ∈ result.status, WebSSH.Legible text
  encoding : ∀ text ∈ result.encoding, WebSSH.Legible text

theorem Legible.fits (legible : result.Legible) : result.document.Fits 0 1 := by
  refine .keyed [.ofText "id", .ofText "status", .ofText "encoding"] rfl (by decide) (by decide) ?_
  simp only [List.forall_mem_cons, List.not_mem_nil, false_imp_iff, implies_true, and_true]
  exact ⟨fits_optional legible.id, fits_optional legible.status, fits_optional legible.encoding⟩

/-- What the page reads of a result is what the server put there. -/
theorem Legible.responseJSON_body (legible : result.Legible) :
    responseJSON result.body = .object [(JSString.ofString "id", jsOptional result.id),
      (JSString.ofString "status", jsOptional result.status),
      (JSString.ofString "encoding", jsOptional result.encoding)] := by
  have read : JSON.parse result.body = some result.document.value := by
    rw [body, ← dumpsStyle.render_withTags legible.fits]
    exact parse_render legible.fits
  rw [WebSSH.responseJSON, read, document, Document.value, Document.fields_eq_map]
  simp only [List.map_cons, List.map_nil, Option.bind_some, jsValue, jsFields, jsValue_optional,
    Option.map_some, Option.getD_some]
  rfl

end PostResult

section Answer

variable {Key : Type} {settings : PostSettings Key} {self : IndexHandler} {request : FormRequest}
variable {sshConnect : SSHArgs Key → Connected}

/-- An answer either has a worker, or a status. -/
theorem answer_cases (legible : ∀ args, (sshConnect args).Legible) :
    (∃ (id : WorkerID) (encoding : PyString), Legible encoding ∧
      self.answer settings request sshConnect =
        { id := some (symbols id.text), encoding := some encoding }) ∨
    ∃ status, Legible status ∧
      self.answer settings request sshConnect = { status := some status } := by
  rw [IndexHandler.answer]
  cases submitted : self.submit settings request with
  | error failure => exact .inr ⟨_, legible_status submitted, rfl⟩
  | ok args =>
      have texts := legible args
      dsimp only
      cases connected : sshConnect args with
      | worker id encoding =>
          rw [connected] at texts
          exact .inl ⟨id, encoding, texts, rfl⟩
      | failed text | uncaught text =>
          rw [connected] at texts
          exact .inr ⟨text, texts, rfl⟩

/-- Whatever is posted, the page reads the result as the server has it. -/
theorem responseJSON_of_answer (legible : ∀ args, (sshConnect args).Legible) :
    let result := self.answer settings request sshConnect
    result.response.responseJSON = .object [(JSString.ofString "id", jsOptional result.id),
      (JSString.ofString "status", jsOptional result.status),
      (JSString.ofString "encoding", jsOptional result.encoding)] := by
  have whole : (self.answer settings request sshConnect).Legible := by
    rcases @answer_cases _ settings self request sshConnect legible with
      ⟨id, encoding, text, same⟩ | ⟨status, text, same⟩
    · rw [same]
      exact ⟨by rintro _ ⟨⟩; exact legible_symbols _, by rintro _ ⟨⟩, by rintro _ ⟨⟩; exact text⟩
    · rw [same]
      exact ⟨by rintro _ ⟨⟩, by rintro _ ⟨⟩; exact text, by rintro _ ⟨⟩⟩
  exact whole.responseJSON_body

end Answer

namespace WorkerID

variable (id : WorkerID)

theorem unreserved : ∀ char ∈ id.text, Percent.isUnreserved char = true := by
  intro char member
  have safe := id.urlSafe char member
  rw [Percent.isUnreserved]
  rw [Bool.or_eq_true_iff, decide_eq_true_iff] at safe ⊢
  refine safe.imp_right fun other => ?_
  simp only [List.mem_cons, List.not_mem_nil, or_false] at other ⊢
  exact other.elim .inl fun underscore => .inr (.inl underscore)

theorem ascii : ∀ char ∈ id.text, 0x2D ≤ char.toNat ∧ char.toNat ≤ 0x7A := by
  intro char member
  have safe := id.urlSafe char member
  rw [Bool.or_eq_true_iff, decide_eq_true_iff] at safe
  rcases safe with letter | special
  · have range := isAlphanum_range letter
    exact ⟨Nat.le_trans (by decide) range.1, range.2⟩
  · have all : ∀ char ∈ ['-', '_'], 0x2D ≤ char.toNat ∧ char.toNat ≤ 0x7A :=
      List.all_iff_forall_prop.mp (by decide)
    exact all char special

/-- The page has a unit for each character of the id. -/
theorem unitsOf_symbols : unitsOf (symbols id.text) = JSString.ofText id.text := by
  rw [unitsOf, symbols, JSString.ofText, List.flatMap_map]

theorem ofText_eq : JSString.ofText id.text =
    id.text.map fun char => UInt16.ofNat char.toNat := by
  rw [JSString.ofText, ← List.flatMap_singleton' (id.text.map _), List.flatMap_map]
  refine List.flatMap_congr fun char member => ?_
  have range := id.ascii char member
  exact JSString.ofCodePoint_of_lt (by omega)

theorem hash_not_mem : hash ∉ JSString.ofText id.text := by
  rw [id.ofText_eq]
  intro member
  obtain ⟨char, within, same⟩ := List.mem_map.mp member
  have range := id.ascii char within
  have number := congrArg UInt16.toNat same
  rw [UInt16.toNat_ofNat_of_lt' (Nat.lt_of_le_of_lt range.2 (by decide))] at number
  change char.toNat = 0x23 at number
  omega

theorem ofText_ne_nil : JSString.ofText id.text ≠ [] := by
  rw [id.ofText_eq, Ne, List.map_eq_nil_iff]
  exact id.filled

theorem clean_text : clean id.text = id.text := by
  refine clean_eq_iff.mpr ⟨fun char member => ?_, trimmed_of_forall fun char member => ?_⟩
  · have range := id.ascii char member
    rw [isControl]
    simp
    omega
  · have range := id.ascii char member
    rw [isStripped]
    simp
    omega

theorem encode_text : Percent.encode id.text = id.text := by
  rw [Percent.encode, ← List.flatMap_singleton' id.text, List.flatMap_assoc]
  refine List.flatMap_congr fun char member => ?_
  have range := id.ascii char member
  have other : char ≠ ' ' := by
    rintro rfl
    exact absurd range.1 (by decide)
  rw [List.flatMap_singleton, Percent.encodeChar, if_neg other,
    if_pos (id.unreserved char member)]

/-- A query of the id is read as the id. -/
theorem workerID_query : WsockHandler.workerID ("id=".toList ++ id.text) = .ok id.text := by
  have written : "id=".toList ++ id.text = Percent.serialize [("id".toList, id.text)] := by
    rw [Percent.serialize, List.map_singleton, List.intercalate_singleton]
    exact congrArg ("id=".toList ++ ·) id.encode_text.symm
  have argument : getArgument [(Percent.bytesOf "id".toList, Percent.bytesOf id.text)] "id" none =
      .ok (clean id.text) := by
    rw [getArgument, List.filter_cons_of_pos (by simp), List.filter_nil, List.mapM_cons,
      Percent.textOf_bytesOf]
    rfl
  rw [WsockHandler.workerID, getValue, written, Percent.parse_serialize]
  change (getArgument [(Percent.bytesOf "id".toList, Percent.bytesOf id.text)] "id" none >>= _) = _
  rw [argument, id.clean_text]
  exact if_neg id.filled

end WorkerID

def question : UInt16 := UInt16.ofNat '?'.toNat

theorem question_not_mem_wsURL (href : JSString) : question ∉ wsURL href := by
  intro member
  rcases mem_replaceFirst member with inside | inside
  · exact absurd inside (by decide)
  · have kept := List.mem_takeWhile_imp inside
    rw [Bool.and_eq_true_iff, decide_eq_true_iff] at kept
    exact kept.1 rfl

/-- The query of the socket is that of the id, whatever the URL of the page is. -/
theorem socketQuery_eq (href : JSString) (id : List Char) :
    socketQuery href (JSString.ofText id) = some ("id=".toList ++ id) := by
  have plain : ∀ unit ∈ wsURL href ++
      (if (wsURL href).getLast? = some (UInt16.ofNat '/'.toNat) then [] else
        JSString.ofString "/") ++ JSString.ofString "ws",
      decide (unit ≠ UInt16.ofNat '?'.toNat) = true := by
    intro unit member
    rw [decide_eq_true_iff]
    rintro rfl
    rw [List.mem_append, List.mem_append] at member
    rcases member with (path | join) | name
    · exact question_not_mem_wsURL href path
    · split at join
      · cases join
      · exact absurd join (by decide)
    · exact absurd name (by decide)
  have split : socketURL href (JSString.ofText id) = (wsURL href ++
      (if (wsURL href).getLast? = some (UInt16.ofNat '/'.toNat) then [] else
        JSString.ofString "/") ++ JSString.ofString "ws") ++
      UInt16.ofNat '?'.toNat :: (JSString.ofText ("id=".toList ++ id)) := by
    have texts : JSString.ofText ("id=".toList ++ id) =
        JSString.ofString "id=" ++ JSString.ofText id := List.flatMap_append
    rw [socketURL, texts, List.append_assoc (wsURL href ++ _), List.append_assoc (wsURL href ++ _)]
    rfl
  rw [socketQuery, split, List.dropWhile_append_of_pos plain,
    List.dropWhile_cons_of_neg (by simp), List.tail_cons, JSString.characters_ofText]

/-- A worker for whoever asks. -/
def exampleConnect : SSHArgs Unit → Connected :=
  fun _ => .worker ⟨['x'], by decide, List.forall_mem_singleton.mpr (by decide)⟩ (.ofText "utf-8")

theorem legible_exampleConnect (args : SSHArgs Unit) : (exampleConnect args).Legible :=
  legible_ofText "utf-8"

section Served

variable {Key : Type} {settings : PostSettings Key} {self : IndexHandler} {request : FormRequest}
variable {sshConnect : SSHArgs Key → Connected}

/-- The worker that was answered is the one that the socket asks for. -/
theorem workerID_of_answer (legible : ∀ args, (sshConnect args).Legible) {args : SSHArgs Key}
    {id : WorkerID} {encoding : PyString} (submitted : self.submit settings request = .ok args)
    (connected : sshConnect args = .worker id encoding) (href : JSString) :
    ∃ units query, ((self.answer settings request sshConnect).response.responseJSON.get "id").text =
        some units ∧ socketQuery href units = some query ∧
        WsockHandler.workerID query = .ok id.text := by
  refine ⟨JSString.ofText id.text, _, ?_, socketQuery_eq href id.text, id.workerID_query⟩
  have same : self.answer settings request sshConnect =
      { id := some (symbols id.text), encoding := some encoding } := by
    rw [IndexHandler.answer, submitted]
    dsimp only
    rw [connected]
  rw [responseJSON_of_answer legible, same, ← id.unitsOf_symbols]
  rfl

/-- Whatever is posted, the page reads the result as the server has it.  If the result has a
worker, the socket of the page asks for that worker, whatever the URL of the page is. -/
theorem answer_faithful (legible : ∀ args, (sshConnect args).Legible) :
    let result := self.answer settings request sshConnect
    result.response.responseJSON = .object [(JSString.ofString "id", jsOptional result.id),
      (JSString.ofString "status", jsOptional result.status),
      (JSString.ofString "encoding", jsOptional result.encoding)] ∧
    ∀ args id encoding, self.submit settings request = .ok args →
      sshConnect args = .worker id encoding → ∀ href, ∃ units query,
        (result.response.responseJSON.get "id").text = some units ∧
          socketQuery href units = some query ∧ WsockHandler.workerID query = .ok id.text :=
  ⟨responseJSON_of_answer legible,
    fun _ _ _ submitted connected => workerID_of_answer legible submitted connected⟩

theorem answer_faithful_example :
    let result := exampleHandler.answer exampleSettings exampleForm exampleConnect
    ∃ units query, (result.response.responseJSON.get "id").text = some units ∧
      socketQuery (JSString.ofString "http://host/?a#b") units = some query ∧
        WsockHandler.workerID query = .ok ['x'] :=
  (answer_faithful legible_exampleConnect).2 ⟨['a'], 22, ['b'], [], none, []⟩ _ _ rfl rfl _

/-- The page can use every answer. -/
theorem usable_answer (legible : ∀ args, (sshConnect args).Legible) :
    (self.answer settings request sshConnect).response.Usable := by
  intro _
  rw [responseJSON_of_answer legible]
  rcases @answer_cases _ settings self request sshConnect legible with
    ⟨id, encoding, _, same⟩ | ⟨status, _, same⟩
  · rw [same]
    have filled := id.ofText_ne_nil
    have truthy : (JSValue.string (unitsOf (symbols id.text))).truthy = true := by
      rw [id.unitsOf_symbols, JSValue.truthy, decide_eq_true_iff]
      exact filled
    refine (if_pos truthy).mpr ⟨⟨JSString.ofText id.text, ?_, id.hash_not_mem⟩, ?_⟩
    · rw [← id.unitsOf_symbols]
      rfl
    · change (!(JSValue.string (unitsOf encoding)).truthy || _) = true
      exact Bool.or_true _
  · rw [same]
    exact (if_neg Bool.false_ne_true).mpr ⟨unitsOf status, rfl⟩

end Served

/-- The request is complete with an answer of the server, or with another status, as where it
failed.  All else is noticed by the page. -/
def Served (debug : Bool) (page : Connection) : ConnectEvent → Prop
  | .complete response => response.status ≠ 200 ∨
      ∃ (Key : Type) (settings : PostSettings Key) (self : IndexHandler) (request : FormRequest)
        (sshConnect : SSHArgs Key → Connected), (∀ args, (sshConnect args).Legible) ∧
          response = (self.answer settings request sshConnect).response
  | event => Noticed debug page event

theorem noticed_of_served {debug : Bool} {page : Connection} {event : ConnectEvent}
    (served : Served debug page event) : Noticed debug page event := by
  cases event with
  | complete response =>
      rcases served with other | ⟨_, settings, self, request, sshConnect, legible, rfl⟩
      · exact fun ok => absurd ok other
      · exact usable_answer legible
  | connect attempt | keyFile outcome | socketOpen | socketError | socketClose => exact served

/-- In every run of the page against the server, whatever is posted and however it ends, the page
is disconnected whenever nothing is outstanding, and a socket is never left without handlers. -/
theorem settled_of_served {href : JSString} {debug : Bool}
    {trace : List (ConnectEvent × ConnectReaction)} {page : Connection}
    (traces : (client href debug).Traces (Served debug) trace page) :
    (page.outstanding = [] → page.state = .disconnected) ∧ .socket false ∉ page.outstanding := by
  have settled := settled_of_traces (traces.mono fun _ _ => noticed_of_served)
  exact ⟨settled.idle, settled.handled⟩

/-- A form, the answer with a worker, and a socket that opens and closes. -/
theorem settled_of_served_example :
    let reached : Connection := ⟨.disconnected, [], none⟩
    (reached.outstanding = [] → reached.state = .disconnected) ∧
      .socket false ∉ reached.outstanding := by
  let response := (exampleHandler.answer exampleSettings exampleForm exampleConnect).response
  have answered : Connection.react (JSString.ofString "http://host/") false
      ⟨.connecting, [.post], none⟩ (.complete response) =
        some (⟨.connecting, [.socket true], none⟩, .silent) := by
    have read : response = ⟨200, .object [(JSString.ofString "id", .string [120]),
        (JSString.ofString "status", .null),
        (JSString.ofString "encoding", .string (JSString.ofString "utf-8"))]⟩ :=
      congrArg (Response.mk 200) (responseJSON_of_answer legible_exampleConnect)
    rw [read]
    rfl
  have traces : (client (JSString.ofString "http://host/") false).Traces (Served false)
      [(.connect (.form false false), .posting []), (.complete response, .silent),
        (.socketOpen true, .silent), (.socketClose true, .silent)] ⟨.disconnected, [], none⟩ :=
    (((Reactor.Traces.start.next trivial rfl).next
      (.inr ⟨Unit, _, _, _, _, legible_exampleConnect, rfl⟩) answered).next trivial rfl).next
        trivial rfl
  exact settled_of_served traces

end CloudRunSsh.WebSSH
