import Mathlib.Data.List.Flatten
import CloudRunSsh.WebSSH.Page

/-!
# Automatic login

With `SSH_AUTO_LOGIN` the server writes user name and password into the script of the page,
and the page posts them back.  They are written as text of HTML into string literals of
JavaScript, and the server takes white space off what it gets.
-/

namespace CloudRunSsh.WebSSH

/-- The variables with the credentials.  No variable contains a null character. -/
structure Credentials where
  userName : List Char
  userPassword : List Char
  userName_nul : Char.ofNat 0 ∉ userName
  userPassword_nul : Char.ofNat 0 ∉ userPassword

/-- `xhtml_escape` of one character. -/
def escapeChar (char : Char) : List Char :=
  if char = '&' then ['&', 'a', 'm', 'p', ';']
  else if char = '<' then ['&', 'l', 't', ';']
  else if char = '>' then ['&', 'g', 't', ';']
  else if char = '\x22' then ['&', 'q', 'u', 'o', 't', ';']
  else if char = '\x27' then ['&', '#', '3', '9', ';']
  else [char]

/-- `xhtml_escape`, which a template applies to its values. -/
def xhtmlEscape (text : List Char) : List Char := text.flatMap escapeChar

/-- The defaults of `SSH_HOST` and `SSH_PORT`. -/
def sshHost : List Char := ['l', 'o', 'c', 'a', 'l', 'h', 'o', 's', 't']

@[inherit_doc sshHost]
def sshPort : List Char := ['2', '2', '2', '2']

/-- The script of the page.  The text of a script is not decoded as HTML, and an error in
one of its literals stops all of it. -/
def script (credentials : Credentials) : Option SSHServer := do
  let host ← literal (xhtmlEscape sshHost)
  let port ← literal (xhtmlEscape sshPort)
  let user ← literal (xhtmlEscape credentials.userName)
  let pass ← literal (xhtmlEscape credentials.userPassword)
  return { host, port, login := some { user, pass } }

/-- The white space of `str.strip`. -/
def isStripped (char : Char) : Bool :=
  char.toNat ∈ [0x09, 0x0A, 0x0B, 0x0C, 0x0D, 0x1C, 0x1D, 0x1E, 0x1F, 0x20, 0x85, 0xA0, 0x1680,
    0x2028, 0x2029, 0x202F, 0x205F, 0x3000] || (0x2000 ≤ char.toNat && char.toNat ≤ 0x200A)

/-- `_remove_control_chars_regex`. -/
def isControl (char : Char) : Bool :=
  char.toNat ≤ 0x08 || (0x0E ≤ char.toNat && char.toNat ≤ 0x1F)

def replaceControl (char : Char) : Char := if isControl char then ' ' else char

/-- What `get_argument` makes of a text. -/
def clean (text : List Char) : List Char := trimBy isStripped (text.map replaceControl)

/-- Why a request is answered with 400. -/
inductive BadRequest where
  | invalidUnicode (name : String)
  | missingArgument (name : String)
  | invalidValue (message : String)
  deriving DecidableEq, Repr

/-- `get_argument`: the last value of a name. -/
def getArgument (arguments : List (List UInt8 × List UInt8)) (name : String)
    (default : Option (List Char)) : Except BadRequest (List Char) := do
  let values ← (arguments.filter fun argument =>
      argument.1 = Percent.bytesOf name.toList).mapM fun argument =>
    match Percent.textOf argument.2 with
    | some text => Except.ok (clean text)
    | none => .error (.invalidUnicode name)
  match values.getLast?, default with
  | some value, _ => .ok value
  | none, some default => .ok default
  | none, none => .error (.missingArgument name)

/-- `get_value`. -/
def getValue (arguments : List (List UInt8 × List UInt8)) (name : String) :
    Except BadRequest (List Char) := do
  let value ← getArgument arguments name none
  if value = [] then .error (.invalidValue ("Missing value " ++ name))
  else .ok value

/-- The user name and the password among what `get_args` returns.  Host and port are those
of the page, which pass their checks. -/
def getArgs (body : List Char) : Except BadRequest (List Char × List Char) := do
  let username ← getValue (Percent.parse body) "username"
  let password ← getArgument (Percent.parse body) "password" (some [])
  return (username, password)

/-- What the server answers to the page opened without parameters, if the page gets as far
as to post something. -/
def autoLogin (credentials : Credentials) :
    Option (Except BadRequest (List Char × List Char)) :=
  (script credentials).bind fun server => (load server [] []).map getArgs

/-- `ssh_connect` gets the credentials as they are. -/
def LogsIn (credentials : Credentials) : Prop :=
  autoLogin credentials = some (.ok (credentials.userName, credentials.userPassword))

/-- A value on its way from the template to `ssh_connect`. -/
def transmitted (value : List Char) : Option (List Char) :=
  (literal (xhtmlEscape value)).bind fun string =>
    (JSString.characters (JSString.trim string)).map clean

/-- A value that arrives as it is: no character of it is escaped for HTML, has a meaning in
a literal or is a control character, and neither `trim` nor `strip` takes anything off. -/
structure Survives (value : List Char) : Prop where
  plain : ∀ char ∈ value, char ∉ ['&', '<', '>', '\x22', '\x27', '\\', '\n', '\r'] ∧
    isControl char = false
  trimmed : Trimmed JSString.isSpace (JSString.ofText value)
  stripped : Trimmed isStripped value

/-- The characters that `xhtml_escape` escapes. -/
def isEscaped (char : Char) : Bool := char ∈ ['&', '<', '>', '\x22', '\x27']

theorem escapeChar_of_plain {char : Char} (plain : isEscaped char = false) :
    escapeChar char = [char] := by
  simp only [isEscaped, decide_eq_false_iff_not, List.mem_cons, List.not_mem_nil, or_false,
    not_or] at plain
  obtain ⟨ampersand, less, greater, quote, apostrophe⟩ := plain
  rw [escapeChar, if_neg ampersand, if_neg less, if_neg greater, if_neg quote,
    if_neg apostrophe]

theorem xhtmlEscape_of_plain {text : List Char} (plain : ∀ char ∈ text, isEscaped char = false) :
    xhtmlEscape text = text := by
  induction text with
  | nil => rfl
  | cons char rest ih =>
      rw [List.forall_mem_cons] at plain
      change escapeChar char ++ xhtmlEscape rest = _
      rw [escapeChar_of_plain plain.1, ih plain.2]
      rfl

/-- Each escaped character adds a semicolon. -/
theorem count_xhtmlEscape (text : List Char) :
    (xhtmlEscape text).count ';' = text.count ';' + text.countP isEscaped := by
  induction text with
  | nil => rfl
  | cons char rest ih =>
      have here : (escapeChar char).count ';' =
          [char].count ';' + if isEscaped char then 1 else 0 := by
        cases plain : isEscaped char with
        | false =>
            rw [escapeChar_of_plain plain]
            rfl
        | true =>
            have all : ∀ char ∈ ['&', '<', '>', '\x22', '\x27'],
                (escapeChar char).count ';' = [char].count ';' + 1 :=
              List.all_iff_forall_prop.mp (by decide)
            exact all char (of_decide_eq_true plain)
      change (escapeChar char ++ xhtmlEscape rest).count ';' =
        ([char] ++ rest).count ';' + _
      rw [List.count_append, List.count_append, here, ih, List.countP_cons]
      omega

theorem count_clean (text : List Char) : (clean text).count ';' = text.count ';' := by
  rw [clean, count_trimBy (by decide)]
  induction text with
  | nil => rfl
  | cons char rest ih =>
      rw [List.map_cons, List.count_cons, List.count_cons, ih, replaceControl]
      split
      · rename_i control
        have other : char ≠ ';' := by
          intro same
          rw [same] at control
          exact absurd control (by decide)
        rw [beq_false_of_ne other]
        rfl
      · rfl

theorem length_ofText_clean (text : List Char) :
    (JSString.ofText (clean text)).length ≤ (JSString.ofText text).length := by
  have mapped : (JSString.ofText (text.map replaceControl)).length =
      (JSString.ofText text).length := by
    induction text with
    | nil => rfl
    | cons char rest ih =>
        rw [List.map_cons, JSString.ofText_cons, JSString.ofText_cons, List.length_append,
          List.length_append, ih, replaceControl]
        split
        · rename_i control
          have small : char.toNat < 0x10000 := by
            simp only [isControl, Bool.or_eq_true, Bool.and_eq_true, decide_eq_true_eq] at control
            omega
          rw [JSString.ofCodePoint_of_lt small]
          rfl
        · rfl
  rw [← mapped]
  apply List.Sublist.length_le
  exact (trimBy_sublist _).flatMap _

theorem replaceControl_eq_iff {char : Char} :
    replaceControl char = char ↔ isControl char = false := by
  rw [replaceControl]
  split
  · rename_i control
    constructor
    · intro same
      rw [← same] at control
      exact absurd control (by decide)
    · intro plain
      rw [plain] at control
      cases control
  · rename_i plain
    exact ⟨fun _ => Bool.eq_false_iff.mpr plain, fun _ => rfl⟩

theorem map_replaceControl_iff {text : List Char} :
    text.map replaceControl = text ↔ ∀ char ∈ text, isControl char = false := by
  induction text with
  | nil => simp
  | cons char rest ih =>
      rw [List.map_cons, List.cons.injEq, ih, replaceControl_eq_iff, List.forall_mem_cons]

/-- A text is left as it is if and only if it has no control characters and no white space
at its ends. -/
theorem clean_eq_iff {text : List Char} :
    clean text = text ↔ (∀ char ∈ text, isControl char = false) ∧ Trimmed isStripped text := by
  constructor
  · intro kept
    have length : (trimBy isStripped (text.map replaceControl)).length =
        (text.map replaceControl).length := by
      rw [List.length_map]
      exact congrArg List.length kept
    have trimmed := trimmed_of_length length
    rw [clean, trimBy_of_trimmed trimmed] at kept
    rw [kept] at trimmed
    exact ⟨map_replaceControl_iff.mp kept, trimmed⟩
  · rintro ⟨plain, trimmed⟩
    rw [clean, map_replaceControl_iff.mpr plain]
    exact trimBy_of_trimmed trimmed

theorem transmitted_of_survives {value : List Char} (survives : Survives value) :
    transmitted value = some value := by
  have unescaped : xhtmlEscape value = value := by
    apply xhtmlEscape_of_plain
    intro char member
    have plain := (survives.plain char member).1
    rw [isEscaped, decide_eq_false_iff_not]
    intro escaped
    apply plain
    simp only [List.mem_cons, List.not_mem_nil, or_false] at escaped ⊢
    tauto
  have read : literal value = some (JSString.ofText value) := by
    apply literal_of_plain
    intro char member special
    apply (survives.plain char member).1
    simp only [List.mem_cons, List.not_mem_nil, or_false] at special ⊢
    tauto
  rw [transmitted, unescaped, read, Option.bind_some, JSString.trim, trimBy_of_trimmed
    survives.trimmed, JSString.characters_ofText]
  apply congrArg some
  exact clean_eq_iff.mpr ⟨fun char member => (survives.plain char member).2, survives.stripped⟩

/-- A semicolon is never lost, so that a value that arrives had none added. -/
theorem unescaped_of_read {value text : List Char} {string : JSString}
    (read : literal (xhtmlEscape value) = some string)
    (made : JSString.ofText text = JSString.trim string) (cleaned : clean text = value) :
    ∀ char ∈ value, isEscaped char = false := by
  have semicolon : Verbatim ';' := by decide
  have counts : (xhtmlEscape value).count ';' ≤ value.count ';' := by
    calc (xhtmlEscape value).count ';' ≤ string.count (UInt16.ofNat ';'.toNat) :=
          (literal_shortens read).keeps ';' semicolon
      _ = (JSString.trim string).count (UInt16.ofNat ';'.toNat) := by
          rw [JSString.trim, count_trimBy (by decide)]
      _ = text.count ';' := by
          rw [← made]
          exact JSString.count_ofText (by decide) text
      _ = value.count ';' := by
          rw [← cleaned, count_clean]
  rw [count_xhtmlEscape] at counts
  have none : value.countP isEscaped = 0 := by omega
  rw [List.countP_eq_zero] at none
  intro char member
  exact Bool.eq_false_iff.mpr (none char member)

theorem survives_of_transmitted {value : List Char} (arrived : transmitted value = some value) :
    Survives value := by
  obtain ⟨string, read, arrived⟩ := Option.bind_eq_some_iff.mp arrived
  obtain ⟨text, characters, cleaned⟩ := Option.map_eq_some_iff.mp arrived
  have made := JSString.ofText_of_characters characters
  have unescaped := unescaped_of_read read made cleaned
  rw [xhtmlEscape_of_plain unescaped] at read
  -- No step makes the value longer, so that none makes it shorter.
  have lengths : (JSString.ofText value).length ≤ (JSString.trim string).length := by
    rw [← made, ← cleaned]
    exact length_ofText_clean text
  have shorter := (literal_shortens read).length_le
  have trims : (JSString.trim string).length ≤ string.length :=
    (trimBy_sublist string).length_le
  have plain := plain_of_literal read (Nat.le_trans lengths trims)
  rw [literal_of_plain plain] at read
  cases read
  have trimmed : Trimmed JSString.isSpace (JSString.ofText value) :=
    trimmed_of_length (Nat.le_antisymm trims lengths)
  have same : text = value := by
    rw [JSString.trim, trimBy_of_trimmed trimmed, JSString.characters_ofText] at characters
    exact (Option.some.inj characters).symm
  rw [same] at cleaned
  obtain ⟨uncontrolled, stripped⟩ := clean_eq_iff.mp cleaned
  refine ⟨?_, trimmed, stripped⟩
  intro char member
  refine ⟨?_, uncontrolled char member⟩
  intro special
  have escaped := unescaped char member
  have literal := plain char member
  rw [isEscaped, decide_eq_false_iff_not] at escaped
  simp only [List.mem_cons, List.not_mem_nil, or_false] at special escaped literal
  tauto

/-- A value arrives as it is if and only if it survives. -/
theorem transmitted_iff {value : List Char} :
    transmitted value = some value ↔ Survives value :=
  ⟨survives_of_transmitted, transmitted_of_survives⟩

theorem Field.name_injective {field other : Field}
    (same : Percent.bytesOf field.name.toList = Percent.bytesOf other.name.toList) :
    field = other := by
  have names := String.toList_injective (Percent.bytesOf_injective same)
  cases field <;> cases other <;> first | rfl | exact absurd names (by decide)

/-- The server finds each field under its name. -/
theorem getArgument_field (texts : Field → List Char) (field : Field)
    (default : Option (List Char)) :
    getArgument (Percent.parse
      (Percent.serialize (attrs.map fun field => (field.name.toList, texts field))))
        field.name default = .ok (clean (texts field)) := by
  have found : (Percent.parse
      (Percent.serialize (attrs.map fun field => (field.name.toList, texts field)))).filter
        (fun argument => argument.1 = Percent.bytesOf field.name.toList) =
      [(Percent.bytesOf field.name.toList, Percent.bytesOf (texts field))] := by
    rw [Percent.parse_serialize, List.map_map, List.filter_map]
    have named : (fun other : Field =>
        decide (Percent.bytesOf other.name.toList = Percent.bytesOf field.name.toList)) =
          fun other => decide (other = field) := by
      funext other
      apply decide_eq_decide.mpr
      constructor
      · exact Field.name_injective
      · rintro rfl
        rfl
    have once : attrs.filter (fun other => other = field) = [field] := by
      cases field <;> rfl
    change List.map _ (attrs.filter fun other =>
      decide (Percent.bytesOf other.name.toList = Percent.bytesOf field.name.toList)) = _
    rw [named, once]
    rfl
  rw [getArgument, found]
  simp only [List.mapM_cons, List.mapM_nil, Percent.textOf_bytesOf]
  rfl

theorem getArgs_serialize (texts : Field → List Char) :
    getArgs (Percent.serialize (attrs.map fun field => (field.name.toList, texts field))) =
      if clean (texts .username) = [] then .error (.invalidValue "Missing value username")
      else .ok (clean (texts .username), clean (texts .password)) := by
  have username := getArgument_field texts .username none
  have password := getArgument_field texts .password (some [])
  change getArgument _ "username" none = _ at username
  change getArgument _ "password" (some []) = _ at password
  rw [getArgs, getValue, username, password]
  change (if clean (texts .username) = [] then Except.error _ else Except.ok _) >>= _ = _
  split
  · rfl
  · rfl

/-- The values of the fields in the form of a login. -/
def loginTexts (username password : List Char) : Field → List Char
  | .hostname => sshHost
  | .port => sshPort
  | .username => username
  | .password => password
  | .totp | .privatekey | .passphrase => []

/-- The page posts the login if both values have a text. -/
theorem load_eq (user pass : JSString) :
    load ⟨JSString.ofText sshHost, JSString.ofText sshPort, some ⟨user, pass⟩⟩ [] [] = do
      let username ← JSString.characters (JSString.trim user)
      let password ← JSString.characters (JSString.trim pass)
      return Percent.serialize
        (attrs.map fun field => (field.name.toList, loginTexts username password field)) := by
  rw [load_login rfl]
  cases username : JSString.characters (JSString.trim user) with
  | none => exact @connectWithOptions_of_lone _ .username username
  | some username =>
      cases password : JSString.characters (JSString.trim pass) with
      | none => exact @connectWithOptions_of_lone _ .password password
      | some password =>
          apply connectWithOptions_of_characters
          intro field
          cases field with
          | hostname =>
              have host : JSString.characters (JSString.trim (JSString.ofText sshHost)) =
                some sshHost := by decide
              exact host
          | port =>
              have port : JSString.characters (JSString.trim (JSString.ofText sshPort)) =
                some sshPort := by decide
              exact port
          | username => exact username
          | password => exact password
          | totp => rfl
          | privatekey => rfl
          | passphrase => rfl

/-- What the server takes from the form. -/
theorem map_load (user pass : JSString) :
    (load ⟨JSString.ofText sshHost, JSString.ofText sshPort, some ⟨user, pass⟩⟩ [] []).map
        getArgs = do
      let username ← (JSString.characters (JSString.trim user)).map clean
      let password ← (JSString.characters (JSString.trim pass)).map clean
      return if username = [] then .error (.invalidValue "Missing value username")
        else .ok (username, password) := by
  rw [load_eq]
  cases JSString.characters (JSString.trim user) with
  | none => rfl
  | some username =>
      cases JSString.characters (JSString.trim pass) with
      | none => rfl
      | some password => exact congrArg some (getArgs_serialize (loginTexts username password))

/-- The two values go the same way, and an empty user name is rejected. -/
theorem autoLogin_eq (credentials : Credentials) :
    autoLogin credentials = do
      let username ← transmitted credentials.userName
      let password ← transmitted credentials.userPassword
      return if username = [] then .error (.invalidValue "Missing value username")
        else .ok (username, password) := by
  have host : literal (xhtmlEscape sshHost) = some (JSString.ofText sshHost) := by decide
  have port : literal (xhtmlEscape sshPort) = some (JSString.ofText sshPort) := by decide
  rw [autoLogin, script, host, port, transmitted, transmitted]
  cases literal (xhtmlEscape credentials.userName) with
  | none => rfl
  | some user =>
      cases literal (xhtmlEscape credentials.userPassword) with
      | none => simp
      | some pass => exact map_load user pass

theorem logsIn_iff_transmitted {credentials : Credentials} :
    LogsIn credentials ↔ credentials.userName ≠ [] ∧
      transmitted credentials.userName = some credentials.userName ∧
        transmitted credentials.userPassword = some credentials.userPassword := by
  rw [LogsIn, autoLogin_eq]
  cases transmitted credentials.userName with
  | none => simp
  | some username =>
      cases transmitted credentials.userPassword with
      | none => simp
      | some password =>
          change some (if username = [] then Except.error _ else Except.ok (username, password)) =
            some (Except.ok (credentials.userName, credentials.userPassword)) ↔ _
          split
          · rename_i empty
            simp only [Option.some.injEq, reduceCtorEq, empty, false_iff]
            rintro ⟨filled, same, _⟩
            exact filled same.symm
          · rename_i filled
            simp only [Option.some.injEq, Except.ok.injEq, Prod.mk.injEq]
            constructor
            · rintro ⟨rfl, rfl⟩
              exact ⟨filled, rfl, rfl⟩
            · exact And.right

/-- `ssh_connect` gets the credentials of the environment if and only if there is a user
name and both values survive their way through the page. -/
theorem logsIn_iff (credentials : Credentials) :
    LogsIn credentials ↔ credentials.userName ≠ [] ∧ Survives credentials.userName ∧
      Survives credentials.userPassword := by
  rw [logsIn_iff_transmitted, transmitted_iff, transmitted_iff]

/-- The password `a&b` arrives as `a&amp;b`. -/
theorem autoLogin_ampersand_fails :
    ¬LogsIn ⟨['u', 's', 'e', 'r'], ['a', '&', 'b'], by decide, by decide⟩ := by
  rw [logsIn_iff_transmitted]
  rintro ⟨_, _, arrived⟩
  exact absurd arrived (by decide)

end CloudRunSsh.WebSSH
