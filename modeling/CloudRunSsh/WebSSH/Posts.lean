import CloudRunSsh.Data.Documents
import CloudRunSsh.WebSSH.CrossOrigin
import CloudRunSsh.WebSSH.Hostnames
import CloudRunSsh.WebSSH.PrivateKeys
import CloudRunSsh.WebSSH.TrustedDownstream

/-!
# Posts

`IndexHandler.post` as a whole: what it reads from the form, what it refuses, and what
`ssh_connect` is given.  Whatever is refused is answered with a status for the page.
-/

namespace CloudRunSsh.WebSSH

/-- The decimal digits of Unicode. -/
structure DecimalData where
  decimal : Nat → Option Nat
  ascii : ∀ symbol < 128, decimal symbol =
    if PyString.isDigit symbol then some (symbol - '0'.toNat) else none

/-- Only those of ASCII. -/
def DecimalData.plain : DecimalData where
  decimal symbol := if PyString.isDigit symbol then some (symbol - '0'.toNat) else none
  ascii _ _ := rfl

namespace DecimalData

variable (decimals : DecimalData)

/-- The digits of an integer.  There may be an underscore between two of them. -/
def digits : PyString → Option (List Nat)
  | [] => none
  | symbol :: rest =>
      match decimals.decimal symbol with
      | none => none
      | some digit =>
          match rest with
          | [] => some [digit]
          | next :: others =>
              if next = '_'.toNat then (digits others).map (digit :: ·)
              else (digits (next :: others)).map (digit :: ·)

/-- `to_int`, of a text without blanks around it.  There is no result on a `ValueError`, which too
many digits are as well. -/
def toInt (maxDigits : Nat) (text : PyString) : Option Int :=
  let sign := text.head?
  let signed := sign = some '-'.toNat ∨ sign = some '+'.toNat
  match decimals.digits (if signed then text.tail else text) with
  | none => none
  | some digits =>
      if maxDigits < digits.length then none
      else
        let value : Int := digits.foldl (fun value digit => value * 10 + digit) 0
        some (if sign = some '-'.toNat then -value else value)

end DecimalData

/-- `is_valid_port`. -/
def isValidPort (port : Int) : Bool := 0 < port && port < 65536

/-- A request with the file `privatekey` of a multipart form, if there is one: its name and its
contents. -/
structure FormRequest extends PostRequest where
  privatekeyFile : Option (List Char × List UInt8)

/-- What the server knows: the tables of Unicode, how many digits an integer may have, whether the
policy is a `RejectPolicy`, the hosts that `lookup` finds in the host keys, and how paramiko reads
a key. -/
structure PostSettings (Key : Type) where
  unicode : UnicodeData
  decimals : DecimalData
  maxDigits : Nat
  rejectPolicy : Bool
  systemHostKeys : List Char → Bool
  hostKeys : List Char → Bool
  classes : KeyClasses Key

/-- What `ssh_connect` is given, and the verification code that the client keeps. -/
structure SSHArgs (Key : Type) where
  hostname : List Char
  port : Nat
  username : List Char
  password : List Char
  pkey : Option Key
  totp : List Char

/-- Why a request does not get to `ssh_connect`: for what is checked before the form and for a value
of it, for a header that cannot be set, for a file that is no text, for a host without keys, or for
a key. -/
inductive PostFailure where
  | refused (error : PostError)
  | unsafeHeader
  | invalidFile (data : List UInt8)
  | notAllowed (hostname : List Char) (port : Nat)
  | key (error : KeyError)
  deriving DecidableEq

/-- The code points of characters. -/
def symbols (text : List Char) : PyString := text.map Char.toNat

/-- The text of a number. -/
def numberText (number : Nat) : List Char := Nat.toDigits 10 number

namespace IndexHandler

variable {Key : Type} (settings : PostSettings Key) (self : IndexHandler) (request : FormRequest)

/-- `get_argument`, as `post` fails on it. -/
def readArgument (name : String) : Except PostFailure (List Char) :=
  match getArgument request.arguments name (some []) with
  | .ok value => .ok value
  | .error reason => .error (.refused (.badRequest reason))

/-- `get_value`. -/
def readValue (name : String) : Except PostFailure (List Char) :=
  match getValue request.arguments name with
  | .ok value => .ok value
  | .error reason => .error (.refused (.badRequest reason))

/-- An `InvalidValueError`, which `post` makes a bad request of. -/
def invalidValue (message : String) (value : List Char) : PostFailure :=
  .refused (.badRequest (.invalidValue (message ++ String.ofList value)))

/-- `get_hostname`. -/
def getHostname : Except PostFailure (List Char) := do
  let value ← readValue request "hostname"
  if isValidHostname (symbols value) = some true ∨ isValidIPAddress (symbols value) then
    return value
  else throw (invalidValue "Invalid hostname: " value)

/-- `get_port`. -/
def getPort : Except PostFailure Nat := do
  let value ← readArgument request "port"
  if value = [] then return 22
  else
    match settings.decimals.toInt settings.maxDigits (symbols value) with
    | none => throw (invalidValue "Invalid port: " value)
    | some port =>
        if isValidPort port then return port.toNat
        else throw (invalidValue "Invalid port: " value)

/-- `get_privatekey`: the key and the name of its file. -/
def getPrivatekey : Except PostFailure (List Char × List Char) :=
  match request.privatekeyFile with
  | some (filename, data) =>
      match Percent.textOf data with
      | some text => .ok (trimBy isStripped text, filename)
      | none => .error (.invalidFile data)
  | none => do
      let value ← readArgument request "privatekey"
      return (value, [])

/-- `lookup_hostname`, which only a `RejectPolicy` asks for. -/
def lookupHostname (hostname : List Char) (port : Nat) : Except PostFailure Unit :=
  let key := if port = 22 then hostname else '[' :: hostname ++ ']' :: ':' :: numberText port
  if settings.rejectPolicy ∧ settings.systemHostKeys key = false ∧
      settings.hostKeys key = false then
    .error (.notAllowed hostname port)
  else .ok ()

/-- The key object, if there is a key. -/
def readKey (privatekey passphrase filename : List Char) :
    Except PostFailure (Option Key) :=
  if privatekey = [] then .ok none
  else
    match PrivateKey.init (symbols privatekey) (some passphrase) (symbols filename) with
    | .error error => .error (.key error)
    | .ok key =>
        match (key.getPkeyObj settings.classes).1 with
        | .error error => .error (.key error)
        | .ok pkey => .ok (some pkey)

/-- `get_args`. -/
def readArgs : Except PostFailure (SSHArgs Key) := do
  let hostname ← getHostname request
  let port ← getPort settings request
  let username ← readValue request "username"
  let password ← readArgument request "password"
  let (privatekey, filename) ← getPrivatekey request
  let passphrase ← readArgument request "passphrase"
  let totp ← readArgument request "totp"
  lookupHostname settings hostname port
  let pkey ← readKey settings privatekey passphrase filename
  return { hostname, port, username, password, pkey, totp }

/-- `set_header` refuses control characters. -/
def isUnsafe (value : PyString) : Bool := value.any (· < 0x20)

/-- `post` up to where `ssh_connect` is submitted. -/
def submit : Except PostFailure (SSHArgs Key) :=
  match self.post settings.unicode request.toPostRequest fun _ => Except.ok () with
  | ⟨_, .error error⟩ => .error (.refused error)
  | ⟨allowOrigin, .ok ()⟩ =>
      if allowOrigin.any isUnsafe then .error .unsafeHeader else readArgs settings request

end IndexHandler

/-- `repr` of a byte between quotation marks. -/
def reprByte (quote : Nat) (byte : UInt8) : PyString :=
  let symbol := byte.toNat
  if symbol = quote ∨ symbol = '\\'.toNat then ['\\'.toNat, symbol]
  else if symbol = 0x09 then PyString.ofText "\\t"
  else if symbol = 0x0A then PyString.ofText "\\n"
  else if symbol = 0x0D then PyString.ofText "\\r"
  else if 0x20 ≤ symbol ∧ symbol < 0x7F then [symbol]
  else PyString.ofText "\\x" ++
      [JSON.hexSymbol (symbol / 0x10), JSON.hexSymbol (symbol % 0x10)]

/-- `repr` of bytes. -/
def reprBytes (data : List UInt8) : PyString :=
  let quote := if 0x27 ∈ data ∧ 0x22 ∉ data then 0x22 else 0x27
  'b'.toNat :: quote :: data.flatMap (reprByte quote) ++ [quote]

/-- What `decode_argument` says of bytes that are no text. -/
def invalidUnicode (name : String) (data : List UInt8) : PyString :=
  PyString.ofText "Invalid unicode in " ++ PyString.ofText name ++ PyString.ofText ": " ++
    reprBytes (data.take 40)

/-- The value of a name that is no text. -/
def undecodable (arguments : List (List UInt8 × List UInt8)) (name : String) : List UInt8 :=
  match arguments.find? fun argument =>
    argument.1 = Percent.bytesOf name.toList ∧ Percent.textOf argument.2 = none with
  | some argument => argument.2
  | none => []

/-- `str` of the error for a bad request. -/
def BadRequest.message (arguments : List (List UInt8 × List UInt8)) : BadRequest → PyString
  | .invalidUnicode name => WebSSH.invalidUnicode name (undecodable arguments name)
  | .missingArgument name => PyString.ofText "Missing argument " ++ PyString.ofText name
  | .invalidValue message => PyString.ofText message

/-- The message of the `HTTPError`, if one is raised. -/
def PostFailure.message (arguments : List (List UInt8 × List UInt8)) :
    PostFailure → Option PyString
  | .refused .uncaughtException => none
  | .refused .tooManyLiveConnections => some (PyString.ofText "Too many live connections.")
  | .refused .crossOrigin => some (PyString.ofText "Cross origin operation is not allowed.")
  | .refused (.badRequest reason) => some (reason.message arguments)
  | .refused (.originError _) | .unsafeHeader => none
  | .invalidFile data => some (WebSSH.invalidUnicode "privatekey" data)
  | .notAllowed hostname port =>
      some (PyString.ofText "Connection to " ++ symbols hostname ++ PyString.ofText ":" ++
        symbols (numberText port) ++ PyString.ofText " is not allowed.")
  | .key (.invalidValueError message) => some message
  | .key .unboundLocalError => none

/-- `log_message` of an `HTTPError` without arguments. -/
def logMessage (message : PyString) : PyString :=
  message.flatMap fun symbol => if symbol = '%'.toNat then ['%'.toNat, '%'.toNat] else [symbol]

/-- The reason of the status 500, for what is not caught. -/
def internalServerError : PyString := PyString.ofText "Internal Server Error"

/-- What `write_error` gives as the status. -/
def PostFailure.status (arguments : List (List UInt8 × List UInt8)) (failure : PostFailure) :
    PyString :=
  match failure.message arguments with
  | some message => logMessage message
  | none => internalServerError

/-! ## Failures without a message -/

section Explained

variable {Result Next Key : Type} {arguments : List (List UInt8 × List UInt8)}

/-- A text without surrogates. -/
def Legible (text : PyString) : Prop := ∀ symbol ∈ text, symbol.isValidChar

theorem legible_symbols (text : List Char) : Legible (symbols text) := by
  intro symbol member
  obtain ⟨char, _, rfl⟩ := List.mem_map.mp member
  exact char.valid

theorem legible_ofText (text : String) : Legible (PyString.ofText text) :=
  legible_symbols text.toList

theorem Legible.append {front back : PyString} (first : Legible front) (second : Legible back) :
    Legible (front ++ back) := List.forall_mem_append.mpr ⟨first, second⟩

theorem legible_of_small {text : PyString} (small : ∀ symbol ∈ text, symbol < 0xD800) :
    Legible text := fun symbol member => .inl (small symbol member)

theorem reprByte_small (quote : Nat) (byte : UInt8) :
    ∀ symbol ∈ reprByte quote byte, symbol < 0xD800 := by
  have below := byte.toNat_lt
  have text : ∀ text ∈ ["\\t", "\\n", "\\r", "\\x"], ∀ symbol ∈ PyString.ofText text,
      symbol < 0xD800 := List.all_iff_forall_prop.mp (by decide)
  have digit (value : Nat) : JSON.hexSymbol (value % 0x10) < 0xD800 := by
    rw [JSON.hexSymbol, JSON.zero]
    split <;> omega
  rw [reprByte]
  split_ifs with escaped
  · simp only [List.forall_mem_cons, List.not_mem_nil, false_imp_iff, implies_true, and_true]
    exact ⟨by decide, by omega⟩
  · exact text _ (by decide)
  · exact text _ (by decide)
  · exact text _ (by decide)
  · exact List.forall_mem_singleton.mpr (by omega)
  · have tens := digit (byte.toNat / 0x10)
    rw [Nat.mod_eq_of_lt (by omega)] at tens
    refine List.forall_mem_append.mpr ⟨text _ (by decide), ?_⟩
    exact List.forall_mem_cons.mpr ⟨tens, List.forall_mem_singleton.mpr (digit _)⟩

theorem legible_invalidUnicode (name : String) (data : List UInt8) :
    Legible (WebSSH.invalidUnicode name data) := by
  refine (((legible_ofText _).append (legible_ofText _)).append (legible_ofText _)).append
    (legible_of_small ?_)
  rw [reprBytes]
  generalize quoted : (if 0x27 ∈ data.take 40 ∧ 0x22 ∉ data.take 40 then 0x22 else 0x27) = quote
  have ascii : quote < 0x80 := by
    rw [← quoted]
    split <;> decide
  refine List.forall_mem_cons.mpr ⟨by decide, List.forall_mem_cons.mpr ⟨by omega, ?_⟩⟩
  refine List.forall_mem_append.mpr ⟨fun symbol member => ?_,
    List.forall_mem_singleton.mpr (by omega)⟩
  obtain ⟨byte, _, inside⟩ := List.mem_flatMap.mp member
  exact reprByte_small quote byte symbol inside

/-- What is said of anything but a key is legible. -/
theorem legible_message {failure : PostFailure} (other : ∀ error, failure ≠ .key error)
    {message : PyString} (said : failure.message arguments = some message) : Legible message := by
  cases failure with
  | refused error =>
      cases error with
      | uncaughtException | originError error => cases said
      | tooManyLiveConnections | crossOrigin =>
          cases said
          exact legible_ofText _
      | badRequest reason =>
          cases said
          cases reason with
          | invalidUnicode name => exact legible_invalidUnicode _ _
          | missingArgument name => exact (legible_ofText _).append (legible_ofText _)
          | invalidValue message => exact legible_ofText _
  | unsafeHeader => cases said
  | invalidFile data =>
      cases said
      exact legible_invalidUnicode _ _
  | notAllowed hostname port =>
      cases said
      exact ((((legible_ofText _).append (legible_symbols _)).append (legible_ofText _)).append
        (legible_symbols _)).append (legible_ofText _)
  | key error => exact absurd rfl (other error)

/-- Every failure has a legible message. -/
def Explained (arguments : List (List UInt8 × List UInt8)) (result : Except PostFailure Result) :
    Prop :=
  ∀ failure, result = .error failure →
    ∃ message, failure.message arguments = some message ∧ Legible message

theorem explained_ok (value : Result) : Explained arguments (.ok value) := nofun

theorem explained_error {failure : PostFailure} {message : PyString}
    (said : failure.message arguments = some message) (legible : Legible message) :
    Explained arguments (.error failure : Except PostFailure Result) := by
  rintro _ ⟨⟩
  exact ⟨message, said, legible⟩

/-- The form is refused for something other than a key. -/
theorem explained_other {failure : PostFailure} {message : PyString}
    (said : failure.message arguments = some message) (other : ∀ error, failure ≠ .key error) :
    Explained arguments (.error failure : Except PostFailure Result) :=
  explained_error said (legible_message other said)

theorem Explained.bind {result : Except PostFailure Result}
    {next : Result → Except PostFailure Next} (explained : Explained arguments result)
    (after : ∀ value, result = .ok value → Explained arguments (next value)) :
    Explained arguments (result >>= next) := by
  cases result with
  | error failure =>
      obtain ⟨message, said, legible⟩ := explained failure rfl
      exact explained_error said legible
  | ok value => exact after value rfl

variable {settings : PostSettings Key} {request : FormRequest}

open IndexHandler

theorem explained_readArgument (name : String) :
    Explained request.arguments (readArgument request name) := by
  rw [readArgument]
  split
  · exact explained_ok _
  · exact explained_other rfl nofun

theorem explained_readValue (name : String) :
    Explained request.arguments (readValue request name) := by
  rw [readValue]
  split
  · exact explained_ok _
  · exact explained_other rfl nofun

theorem explained_getHostname : Explained request.arguments (getHostname request) := by
  refine (explained_readValue "hostname").bind fun value _ => ?_
  split
  · exact explained_ok _
  · exact explained_other rfl nofun

theorem explained_getPort : Explained request.arguments (getPort settings request) := by
  refine (explained_readArgument "port").bind fun value _ => ?_
  split
  · exact explained_ok _
  · split
    · exact explained_other rfl nofun
    · split
      · exact explained_ok _
      · exact explained_other rfl nofun

theorem explained_getPrivatekey : Explained request.arguments (getPrivatekey request) := by
  rw [getPrivatekey]
  split
  · split
    · exact explained_ok _
    · exact explained_other rfl nofun
  · exact (explained_readArgument "privatekey").bind fun _ _ => explained_ok _

theorem explained_lookupHostname (hostname : List Char) (port : Nat) :
    Explained request.arguments (lookupHostname settings hostname port) := by
  rw [lookupHostname]
  generalize (if port = 22 then hostname else '[' :: hostname ++ ']' :: ':' :: numberText port) =
    key
  split
  · exact explained_other rfl nofun
  · exact explained_ok _

theorem legible_invalidKey (password : Option (List Char)) :
    Legible (PrivateKey.invalidKey password) := by
  rcases password with _ | _ | ⟨first, rest⟩
  · exact legible_ofText _
  · exact legible_ofText _
  · exact (((legible_ofText _).append (legible_ofText _)).append (legible_symbols _)).append
      (legible_ofText _)

/-- A key that is not empty has a line, so `get_pkey_obj` raises nothing but an
`InvalidValueError`. -/
theorem explained_getPkeyObj (classes : KeyClasses Key) {privatekey : PyString}
    (filled : privatekey ≠ []) (filename : List Char) (password : Option (List Char))
    {error : KeyError}
    (raised : (PrivateKey.getPkeyObj classes
      ⟨privatekey, symbols filename, password, ⟨privatekey, 0⟩, []⟩).1 = .error error) :
    ∃ message, error = .invalidValueError message ∧ Legible message := by
  rcases exists_beginsAt privatekey with ⟨start, name, begins⟩ | none
  · rcases exists_firstAnswer (PrivateKey.replyAt classes privatekey start password)
      (candidates name) with ⟨front, other, first⟩ | refused
    · obtain ⟨_, ⟨key, _, result⟩ | ⟨_, result⟩⟩ :=
        @PrivateKey.getPkeyObj_of_firstAnswer _ classes _ (symbols filename) _ _ _ begins _ _ first
      · cases result.symm.trans raised
      · cases result.symm.trans raised
        exact ⟨_, rfl, legible_ofText _⟩
    · obtain ⟨_, result⟩ :=
        @PrivateKey.getPkeyObj_of_all_refuse _ classes _ (symbols filename) _ _ _ begins refused
      cases result.symm.trans raised
      exact ⟨_, rfl, legible_invalidKey _⟩
  · obtain ⟨result, _⟩ :=
      @PrivateKey.getPkeyObj_of_unknown _ classes _ (symbols filename) password filled none
    cases result.symm.trans raised
    exact ⟨_, rfl, ((legible_ofText _).append (legible_symbols _)).append (legible_ofText _)⟩

theorem explained_readKey (privatekey passphrase filename : List Char) :
    Explained request.arguments (readKey settings privatekey passphrase filename) := by
  rw [readKey]
  split
  · exact explained_ok _
  · rename_i filled
    have filled' : symbols privatekey ≠ [] := mt List.map_eq_nil_iff.mp filled
    rw [PrivateKey.init]
    split
    · rename_i error refused
      split at refused
      · cases refused
        exact explained_error rfl (legible_ofText _)
      · cases refused
    · rename_i key opened
      split at opened
      · cases opened
      · cases opened
        split
        · rename_i error raised
          obtain ⟨message, rfl, legible⟩ :=
            explained_getPkeyObj settings.classes filled' filename _ raised
          exact explained_error rfl legible
        · exact explained_ok _

/-- Nothing in the form is refused without a legible message. -/
theorem explained_readArgs : Explained request.arguments (readArgs settings request) := by
  refine explained_getHostname.bind fun hostname _ => ?_
  refine explained_getPort.bind fun port _ => ?_
  refine (explained_readValue "username").bind fun username _ => ?_
  refine (explained_readArgument "password").bind fun password _ => ?_
  refine explained_getPrivatekey.bind fun key _ => ?_
  refine (explained_readArgument "passphrase").bind fun passphrase _ => ?_
  refine (explained_readArgument "totp").bind fun totp _ => ?_
  refine (explained_lookupHostname hostname port).bind fun _ _ => ?_
  exact (explained_readKey key.1 passphrase key.2).bind fun _ _ => explained_ok _

/-- The origin that is checked: that in the form, or else that in the header. -/
def Checked (request : PostRequest) (origin : PyString) : Prop :=
  origin ≠ [] ∧ ∃ event, argument request "_origin" = .ok event ∧
    origin = if event ≠ [] then event else request.origin.getD []

variable {self : IndexHandler} {unicode : UnicodeData} {posted : PostRequest}

theorem argument_error {name : String} {error : PostError}
    (failed : argument posted name = .error error) : ∃ reason, error = .badRequest reason := by
  rw [argument] at failed
  split at failed
  · cases failed
  · cases failed
    exact ⟨_, rfl⟩

/-- The request asks for an exception, which only the debug mode heeds. -/
def AsksForError (self : IndexHandler) (posted : PostRequest) : Prop :=
  self.debug = true ∧ ∃ value, argument posted "error" = .ok value ∧ value ≠ []

/-- The limits raise an exception without a message if they are asked to, and no other one. -/
theorem checkLimits_cases :
    AsksForError self posted ∧ self.checkLimits posted = .error .uncaughtException ∨
      ¬AsksForError self posted ∧ (self.checkLimits posted = .ok () ∨
        self.checkLimits posted = .error .tooManyLiveConnections ∨
        ∃ reason, self.checkLimits posted = .error (.badRequest reason)) := by
  have counted : (if posted.workers ≠ 0 ∧ (posted.workers : Int) ≥ self.maxconn then
      throw .tooManyLiveConnections else pure () : Except PostError Unit) = .ok () ∨
      (if posted.workers ≠ 0 ∧ (posted.workers : Int) ≥ self.maxconn then
        throw .tooManyLiveConnections else pure () : Except PostError Unit) =
          .error .tooManyLiveConnections := by
    split
    · exact .inr rfl
    · exact .inl rfl
  rw [checkLimits]
  by_cases debug : self.debug = true
  · rw [if_pos debug]
    cases read : argument posted "error" with
    | error error =>
        obtain ⟨reason, rfl⟩ := argument_error read
        refine .inr ⟨?_, .inr (.inr ⟨reason, rfl⟩)⟩
        rintro ⟨_, value, same, _⟩
        rw [read] at same
        cases same
    | ok value =>
        by_cases empty : value = []
        · subst empty
          refine .inr ⟨?_, counted.imp_right .inl⟩
          rintro ⟨_, value, same, filled⟩
          rw [read] at same
          cases same
          exact filled rfl
        · refine .inl ⟨⟨debug, value, read, empty⟩, ?_⟩
          change (if value ≠ [] then _ else _) = _
          rw [if_pos empty]
          rfl
  · rw [if_neg debug]
    exact .inr ⟨fun asked => debug asked.1, counted.imp_right .inl⟩

theorem checkOrigin_originError_iff {error : OriginError} :
    self.checkOrigin unicode posted = .error (.originError error) ↔
      ∃ origin, Checked posted origin ∧
        WebSSH.checkOrigin unicode self.originPolicy posted.host origin = .error error := by
  rw [IndexHandler.checkOrigin]
  cases read : argument posted "_origin" with
  | error failure =>
      obtain ⟨reason, rfl⟩ := argument_error read
      refine iff_of_false (fun same => ?_) ?_
      · cases same
      · rintro ⟨_, ⟨_, _, same, _⟩, _⟩
        rw [read] at same
        cases same
  | ok event =>
      have checked {origin : PyString} : Checked posted origin ↔
          origin ≠ [] ∧ origin = if event ≠ [] then event else posted.origin.getD [] := by
        rw [Checked, read]
        simp
      change (if (if event ≠ [] then event else posted.origin.getD []) = [] then _ else _) = _ ↔ _
      simp only [checked]
      generalize (if event ≠ [] then event else posted.origin.getD []) = origin
      by_cases empty : origin = []
      · rw [if_pos empty]
        refine iff_of_false (fun same => ?_) ?_
        · cases same
        · rintro ⟨_, ⟨filled, rfl⟩, _⟩
          exact filled empty
      · rw [if_neg empty]
        constructor
        · intro failed
          refine ⟨origin, ⟨empty, rfl⟩, ?_⟩
          split at failed
          · rename_i raised
            cases failed
            exact raised
          · cases failed
          · cases failed
        · rintro ⟨_, ⟨_, rfl⟩, raised⟩
          rw [raised]
          rfl

theorem checkOrigin_error {failure : PostError}
    (failed : self.checkOrigin unicode posted = .error failure) :
    failure = .crossOrigin ∨ (∃ reason, failure = .badRequest reason) ∨
      ∃ error, failure = .originError error := by
  rw [IndexHandler.checkOrigin] at failed
  cases read : argument posted "_origin" with
  | error failure =>
      obtain ⟨reason, rfl⟩ := argument_error read
      rw [read] at failed
      cases failed
      exact .inr (.inl ⟨reason, rfl⟩)
  | ok event =>
      rw [read] at failed
      change (if (if event ≠ [] then event else posted.origin.getD []) = [] then _ else _) = _
        at failed
      generalize (if event ≠ [] then event else posted.origin.getD []) = origin at failed
      split at failed
      · cases failed
      · split at failed
        · cases failed
          exact .inr (.inr ⟨_, rfl⟩)
        · cases failed
          exact .inl rfl
        · cases failed

theorem legible_logMessage {message : PyString} (legible : Legible message) :
    Legible (logMessage message) := by
  intro symbol member
  obtain ⟨original, inside, written⟩ := List.mem_flatMap.mp member
  split at written
  · rw [List.mem_cons, List.mem_singleton, or_self] at written
    rw [written]
    exact .inl (by decide)
  · rw [List.mem_singleton.mp written]
    exact legible original inside

/-- Whatever a request fails for, its status is legible. -/
theorem legible_status {failure : PostFailure}
    (failed : self.submit settings request = .error failure) :
    Legible (failure.status request.arguments) := by
  have legible {message : PyString} (said : failure.message request.arguments = some message) :
      Legible message := by
    rw [submit] at failed
    split at failed
    · cases failed
      exact legible_message (by rintro _ ⟨⟩) said
    · split at failed
      · cases failed
        exact legible_message (by rintro _ ⟨⟩) said
      · obtain ⟨other, same, legible⟩ := explained_readArgs failure failed
        cases said.symm.trans same
        exact legible
  rw [PostFailure.status]
  split
  · rename_i said
    exact legible_logMessage (legible said)
  · exact legible_ofText _

end Explained

section Validated

variable {Result Next Key : Type} {settings : PostSettings Key} {request : FormRequest}
variable {value : List Char}

open IndexHandler

/-- A value has no white space at its ends, and of the control characters at most those from the
tab to the carriage return and those from U+007F on. -/
structure Cleaned (value : List Char) : Prop where
  plain : ∀ char ∈ value, 0x08 < char.toNat ∧ (char.toNat < 0x0E ∨ 0x1F < char.toNat)
  trimmed : Trimmed isStripped value

/-- What a client may be asked to connect to: a host name, what is not told from one, or an
address, a port and a user, and a host with keys if the policy rejects others. -/
structure Validated (settings : PostSettings Key) (args : SSHArgs Key) : Prop where
  hostname : IsHostname (symbols args.hostname) ∨ Disguised (symbols args.hostname) ∨
    isValidIPAddress (symbols args.hostname) = true
  port : 0 < args.port ∧ args.port < 65536
  username : args.username ≠ []
  cleaned : ∀ value ∈ [args.hostname, args.username, args.password, args.totp], Cleaned value
  known : settings.rejectPolicy = true →
    ∃ key, (key = args.hostname ∧ args.port = 22 ∨
      key = '[' :: args.hostname ++ ']' :: ':' :: numberText args.port ∧ args.port ≠ 22) ∧
        (settings.systemHostKeys key = true ∨ settings.hostKeys key = true)

theorem bind_eq_ok {Error : Type} {result : Except Error Result}
    {next : Result → Except Error Next} {final : Next} (returned : (result >>= next) = .ok final) :
    ∃ value, result = .ok value ∧ next value = .ok final := by
  cases result with
  | error failure => cases returned
  | ok value => exact ⟨value, rfl, returned⟩

theorem cleaned_clean (text : List Char) : Cleaned (clean text) := by
  refine ⟨fun char member => ?_, trimmed_trimBy _⟩
  obtain ⟨other, _, rfl⟩ := List.mem_map.mp ((trimBy_sublist _).subset member)
  rw [replaceControl]
  split
  · exact ⟨by decide, .inr (by decide)⟩
  · rename_i plain
    simp only [isControl, Bool.or_eq_true, Bool.and_eq_true, decide_eq_true_eq] at plain
    omega

theorem exists_of_mapM {Item : Type} {error : Type} {read : Item → Except error Result}
    {items : List Item} {values : List Result} (returned : items.mapM read = .ok values) :
    ∀ value ∈ values, ∃ item ∈ items, read item = .ok value := by
  induction items generalizing values with
  | nil =>
      cases returned
      exact List.forall_mem_nil _
  | cons item items ih =>
      rw [List.mapM_cons] at returned
      cases first : read item with
      | error error =>
          rw [first] at returned
          cases returned
      | ok value =>
          cases others : items.mapM read with
          | error error =>
              rw [first, others] at returned
              cases returned
          | ok rest =>
              rw [first, others] at returned
              cases returned
              refine List.forall_mem_cons.mpr ⟨⟨item, List.mem_cons_self, first⟩, ?_⟩
              intro value member
              obtain ⟨found, within, same⟩ := ih others value member
              exact ⟨found, List.mem_cons_of_mem _ within, same⟩

theorem cleaned_getArgument {arguments : List (List UInt8 × List UInt8)} {name : String}
    {default : Option (List Char)} (cleaned : ∀ value ∈ default, Cleaned value)
    (read : getArgument arguments name default = .ok value) : Cleaned value := by
  rw [getArgument] at read
  obtain ⟨values, all, returned⟩ := bind_eq_ok read
  split at returned
  · rename_i last
    cases returned
    obtain ⟨item, _, same⟩ := exists_of_mapM all value (List.mem_of_getLast? last)
    split at same
    · cases same
      exact cleaned_clean _
    · cases same
  · cases returned
    exact cleaned value rfl
  · cases returned

theorem cleaned_readArgument {name : String} (read : readArgument request name = .ok value) :
    Cleaned value := by
  rw [readArgument] at read
  split at read
  · rename_i found
    cases read
    refine cleaned_getArgument ?_ found
    rintro _ ⟨⟩
    exact ⟨List.forall_mem_nil _, trimmed_of_forall (List.forall_mem_nil _)⟩
  · cases read

theorem cleaned_readValue {name : String} (read : readValue request name = .ok value) :
    Cleaned value ∧ value ≠ [] := by
  rw [readValue] at read
  split at read
  · rename_i found
    cases read
    obtain ⟨argument, found, returned⟩ := bind_eq_ok found
    split at returned
    · cases returned
    · rename_i filled
      cases returned
      refine ⟨cleaned_getArgument ?_ found, filled⟩
      rintro _ ⟨⟩
  · cases read

theorem getHostname_ok (read : getHostname request = .ok value) : Cleaned value ∧
    (IsHostname (symbols value) ∨ Disguised (symbols value) ∨
      isValidIPAddress (symbols value) = true) := by
  obtain ⟨hostname, found, returned⟩ := bind_eq_ok read
  split at returned
  · rename_i valid
    cases returned
    refine ⟨(cleaned_readValue found).1, ?_⟩
    rcases valid with named | address
    · rcases isHostname_or_disguised named with named | disguised
      · exact .inl named
      · exact .inr (.inl disguised)
    · exact .inr (.inr address)
  · cases returned

theorem getPort_ok {port : Nat} (read : getPort settings request = .ok port) :
    0 < port ∧ port < 65536 := by
  obtain ⟨text, _, returned⟩ := bind_eq_ok read
  split at returned
  · cases returned
    decide
  · split at returned
    · cases returned
    · split at returned
      · rename_i number _ valid
        cases returned
        rw [isValidPort, Bool.and_eq_true_iff, decide_eq_true_iff, decide_eq_true_iff] at valid
        omega
      · cases returned

theorem lookupHostname_ok {port : Nat} (found : lookupHostname settings value port = .ok ())
    (rejects : settings.rejectPolicy = true) :
    ∃ key, (key = value ∧ port = 22 ∨
      key = '[' :: value ++ ']' :: ':' :: numberText port ∧ port ≠ 22) ∧
        (settings.systemHostKeys key = true ∨ settings.hostKeys key = true) := by
  rw [lookupHostname] at found
  refine ⟨if port = 22 then value else '[' :: value ++ ']' :: ':' :: numberText port, ?_, ?_⟩
  · split
    · rename_i standard
      exact .inl ⟨rfl, standard⟩
    · rename_i other
      exact .inr ⟨rfl, other⟩
  · generalize (if port = 22 then value else '[' :: value ++ ']' :: ':' :: numberText port) = key
      at found ⊢
    split at found
    · cases found
    · rename_i known
      rw [rejects, and_iff_right rfl, not_and_or, Bool.not_eq_false, Bool.not_eq_false] at known
      exact known

/-- Whatever is posted, `ssh_connect` is only given what is validated. -/
theorem validated_of_submit {self : IndexHandler} {args : SSHArgs Key}
    (submitted : self.submit settings request = .ok args) : Validated settings args := by
  rw [submit] at submitted
  split at submitted
  · cases submitted
  · split at submitted
    · cases submitted
    · obtain ⟨hostname, hostnameRead, submitted⟩ := bind_eq_ok submitted
      obtain ⟨port, portRead, submitted⟩ := bind_eq_ok submitted
      obtain ⟨username, usernameRead, submitted⟩ := bind_eq_ok submitted
      obtain ⟨password, passwordRead, submitted⟩ := bind_eq_ok submitted
      obtain ⟨⟨privatekey, filename⟩, _, submitted⟩ := bind_eq_ok submitted
      obtain ⟨passphrase, _, submitted⟩ := bind_eq_ok submitted
      obtain ⟨totp, totpRead, submitted⟩ := bind_eq_ok submitted
      obtain ⟨_, found, submitted⟩ := bind_eq_ok submitted
      obtain ⟨pkey, _, submitted⟩ := bind_eq_ok submitted
      cases submitted
      obtain ⟨cleanHostname, valid⟩ := getHostname_ok hostnameRead
      obtain ⟨cleanUsername, filled⟩ := cleaned_readValue usernameRead
      refine ⟨valid, getPort_ok portRead, filled, ?_, lookupHostname_ok found⟩
      simp only [List.forall_mem_cons, List.not_mem_nil, false_imp_iff, implies_true, and_true]
      exact ⟨cleanHostname, cleanUsername, cleaned_readArgument passwordRead,
        cleaned_readArgument totpRead⟩

end Validated

/-- A server that knows no host keys and asks for none. -/
def exampleSettings : PostSettings Unit where
  unicode := .ascii
  decimals := .plain
  maxDigits := 4300
  rejectPolicy := false
  systemHostKeys _ := false
  hostKeys _ := false
  classes _ := (.sshException, 0)

def exampleForm : FormRequest where
  arguments := [(Percent.bytesOf ['h', 'o', 's', 't', 'n', 'a', 'm', 'e'], Percent.bytesOf ['a']),
    (Percent.bytesOf ['u', 's', 'e', 'r', 'n', 'a', 'm', 'e'], Percent.bytesOf ['b'])]
  host := none
  origin := none
  workers := 0
  privatekeyFile := none

/-- A server that only connects to one host. -/
def rejectSettings : PostSettings Unit :=
  { exampleSettings with
    rejectPolicy := true
    hostKeys := (· = "[ssh.example.com]:2222".toList) }

def rejectForm : FormRequest :=
  let field (name value : String) := (Percent.bytesOf name.toList, Percent.bytesOf value.toList)
  { exampleForm with
    arguments := [field "hostname" " ssh.example.com\n", field "port" "2222",
      field "username" "root", field "password" "a\x01b\n c\x02"] }

theorem validated_of_submit_example :
    let args := ⟨"ssh.example.com".toList, 2222, "root".toList, "a b\n c".toList, none, []⟩
    exampleHandler.submit rejectSettings rejectForm = .ok args ∧ Validated rejectSettings args := by
  intro args
  have submitted : exampleHandler.submit rejectSettings rejectForm = .ok args := rfl
  exact ⟨submitted, validated_of_submit submitted⟩

end CloudRunSsh.WebSSH
