import CloudRunSsh.Data.PrintedFormats
import CloudRunSsh.WebSSH.Page

/-!
# The login URL

Without `SSH_AUTO_LOGIN` the container logs a URL with the password in `base64url`.  When
the URL is opened, the page decodes the password as standard base64.
-/

namespace CloudRunSsh.WebSSH

/-- A character that stands for itself in the query of a URL. -/
def isQueryChar (char : Char) : Bool :=
  0x21 ≤ char.toNat && char.toNat ≤ 0x7E && char ∉ ['\x22', '#', '%', '\x27', '<', '>']

/-- A text that is left as it is by a browser that reads the URL. -/
def IsQuery (text : List Char) : Prop := ∀ char ∈ text, isQueryChar char = true

instance : DecidablePred IsQuery := fun text => List.decidableBAll _ text

structure QueryText where
  text : List Char
  plain : IsQuery text

/-- What the container has besides the password: its `printf`, the other values in the URL,
and those in `window.ssh_server`. -/
structure Container where
  printf : Printf
  userName : QueryText
  projectID : QueryText
  gcpRegion : QueryText
  kService : QueryText
  kRevision : QueryText
  host : JSString
  port : JSString

/-- The lines of `basenc`, of at most as many columns. -/
def wrapFrom (columns : Nat) : Nat → List Char → List Char
  | _, [] => ['\n']
  | column, char :: rest =>
      if column = columns then '\n' :: char :: wrapFrom columns 1 rest
      else char :: wrapFrom columns (column + 1) rest

/-- `basenc --base64url`. -/
def basenc (bytes : List UInt8) : List Char :=
  if bytes = [] then [] else wrapFrom 76 0 (Base64.encode Base64.urlSafe bytes)

/-- `USER_PASSWORD_B64`: `printf "${USER_PASSWORD}" | basenc --base64url | tr -d '\n'`. -/
def userPasswordB64 (container : Container) (userPassword : List Char) : List Char :=
  (basenc (container.printf.print userPassword)).filter (· ≠ '\n')

def staticParams : List Char :=
  "hostname=localhost&port=2222&term=xterm-256color".toList

/-- What comes before the password in `SSH_SERVER_PARAMS`. -/
def otherParams (container : Container) : List Char :=
  staticParams ++ "&username=".toList ++ container.userName.text ++ "&title=".toList ++
    container.projectID.text ++ '_' :: container.gcpRegion.text ++
      '_' :: container.kService.text ++ '_' :: container.kRevision.text

/-- `SSH_SERVER_PARAMS`. -/
def sshServerParams (container : Container) (userPasswordB64 : List Char) : List Char :=
  otherParams container ++ '&' :: ("password=".toList ++ userPasswordB64)

/-- The form of the page that is opened with the URL. -/
def openedForm (container : Container) (userPassword : List Char) : FormMap :=
  (parseURLData ⟨container.host, container.port, none⟩
    (urlString (sshServerParams container (userPasswordB64 container userPassword)) [])
      .empty).formMap

/-- The password in the form is the one of the environment. -/
def DecodesPassword (container : Container) (userPassword : List Char) : Prop :=
  openedForm container userPassword .password = .string (JSString.ofText userPassword)

theorem filter_wrapFrom {text : List Char} (plain : '\n' ∉ text) (columns column : Nat) :
    (wrapFrom columns column text).filter (· ≠ '\n') = text := by
  induction text generalizing column with
  | nil => rfl
  | cons char rest ih =>
      rw [List.mem_cons, not_or] at plain
      have kept : decide (char ≠ '\n') = true := decide_eq_true (Ne.symm plain.1)
      rw [wrapFrom]
      split
      · rw [List.filter_cons_of_neg (by decide),
          List.filter_cons_of_pos (p := fun char => char ≠ '\n') kept, ih plain.2]
      · rw [List.filter_cons_of_pos (p := fun char => char ≠ '\n') kept, ih plain.2]

/-- What `base64url` is written in stands for itself in a query. -/
theorem isQueryChar_encode {bytes : List UInt8} {char : Char}
    (member : char ∈ Base64.encode Base64.urlSafe bytes) :
    isQueryChar char = true ∧ char ∉ ['\n', '&'] := by
  rcases Base64.urlSafe_char member with letter | special
  · have range := isAlphanum_range letter
    have other : ∀ other ∈ ['\x22', '#', '%', '\x27', '<', '>'] ++ ['\n', '&'],
        other.isAlphanum = false := List.all_iff_forall_prop.mp (by decide)
    have plain : char ∉ ['\x22', '#', '%', '\x27', '<', '>'] ++ ['\n', '&'] := by
      intro member
      rw [other char member] at letter
      cases letter
    rw [List.mem_append, not_or] at plain
    simp only [isQueryChar, Bool.and_eq_true, decide_eq_true_eq]
    exact ⟨⟨⟨by omega, by omega⟩, plain.1⟩, plain.2⟩
  · have all : ∀ char ∈ ['-', '_', '='], isQueryChar char = true ∧ char ∉ ['\n', '&'] :=
      List.all_iff_forall_prop.mp (by decide)
    exact all char special

theorem userPasswordB64_eq (container : Container) (userPassword : List Char) :
    userPasswordB64 container userPassword =
      Base64.encode Base64.urlSafe (container.printf.print userPassword) := by
  rw [userPasswordB64, basenc]
  split
  · rename_i empty
    rw [empty]
    rfl
  · apply filter_wrapFrom
    intro newline
    exact (isQueryChar_encode newline).2 (by decide)

/-- The parameters stand for themselves in the URL. -/
theorem isQuery_sshServerParams (container : Container) {value : List Char}
    (plain : IsQuery value) : IsQuery (sshServerParams container value) := by
  have constants : IsQuery staticParams ∧ IsQuery "&username=".toList ∧
      IsQuery "&title=".toList ∧ IsQuery "password=".toList := by decide +kernel
  obtain ⟨static, username, title, password⟩ := constants
  have underscore : isQueryChar '_' = true := by decide
  have ampersand : isQueryChar '&' = true := by decide
  simp only [IsQuery, sshServerParams, otherParams, List.forall_mem_append,
    List.forall_mem_cons]
  exact ⟨⟨⟨⟨⟨⟨⟨⟨static, username⟩, container.userName.plain⟩, title⟩,
    container.projectID.plain⟩, underscore, container.gcpRegion.plain⟩, underscore,
    container.kService.plain⟩, underscore, container.kRevision.plain⟩, ampersand, password,
    plain⟩

/-- The text has no white space. -/
theorem trimmed_of_query {value : List Char} (plain : IsQuery value) :
    Trimmed JSString.isSpace (JSString.ofText value) := by
  apply trimmed_of_forall
  intro unit member
  obtain ⟨char, among, member⟩ := List.mem_flatMap.mp member
  have query := plain char among
  simp only [isQueryChar, Bool.and_eq_true, decide_eq_true_eq] at query
  have small : char.toNat < 0x10000 := by omega
  rw [JSString.ofCodePoint_of_lt small, List.mem_singleton] at member
  rw [member, JSString.isSpace, JSString.toNat_unit small]
  simp only [Bool.or_eq_false_iff, Bool.and_eq_false_iff, decide_eq_false_iff_not, List.mem_cons,
    List.not_mem_nil, or_false]
  omega

theorem parseItem_password {value : List Char}
    (trimmed : Trimmed JSString.isSpace (JSString.ofText value)) (data : URLData) :
    parseItem data (JSString.ofText ("password=".toList ++ value)) =
      data.setField .password (.string (JSString.ofText value)) := by
  have pair : JSString.split '=' (JSString.ofText ("password=".toList ++ value)) =
      JSString.ofString "password" :: JSString.split '=' (JSString.ofText value) := by
    have text : "password=".toList ++ value = "password".toList ++ '=' :: value := rfl
    rw [text, JSString.split_append (by decide), JSString.split_of_not_mem (by decide)
      (by decide)]
    rfl
  have key : formKeys.find? (fun field => JSString.ofString field.name =
      JSString.toLowerCase (JSString.trim (JSString.ofString "password"))) = some .password := by
    decide +kernel
  rw [parseItem, pair, List.headD_cons, List.tail_cons, key, JSString.join_split, JSString.trim,
    trimBy_of_trimmed trimmed]

/-- The last `password` of a query is the one that counts. -/
theorem parseURLData_password (host port : JSString) (front : List Char) {value : List Char}
    (separate : '&' ∉ value) (trimmed : Trimmed JSString.isSpace (JSString.ofText value))
    (data : URLData) :
    (parseURLData ⟨host, port, none⟩ (JSString.ofText
      ((front ++ '&' :: ("password=".toList ++ value)) ++ ['&'])) data).formMap .password =
        if value = [] then .string [] else decodePassword (JSString.ofText value) := by
  have item : '&' ∉ "password=".toList ++ value := by
    rw [List.mem_append, not_or]
    exact ⟨by decide, separate⟩
  have items : JSString.split '&' (JSString.ofText
      ((front ++ '&' :: ("password=".toList ++ value)) ++ ['&'])) =
        JSString.split '&' (JSString.ofText front) ++
          [JSString.ofText ("password=".toList ++ value)] ++ [[]] := by
    rw [JSString.split_append (by decide), JSString.split_append (by decide),
      JSString.split_of_not_mem (by decide) item]
    rfl
  have filled : (JSString.split '&' (JSString.ofText
      ((front ++ '&' :: ("password=".toList ++ value)) ++ ['&']))).foldl parseItem
        data =
      ((JSString.split '&' (JSString.ofText front)).foldl parseItem
        data).setField .password (.string (JSString.ofText value)) := by
    rw [items, List.foldl_append, List.foldl_append, List.foldl_cons, List.foldl_nil,
      List.foldl_cons, List.foldl_nil, parseItem_password trimmed, parseItem_nil]
  simp only [parseURLData, prefill, filled, URLData.setField_formMap, FormValue.get,
    Option.isNone_none, true_and, ne_eq, JSString.ofText_eq_nil]
  by_cases empty : value = []
  · rw [if_neg (not_not.mpr empty), if_pos empty, URLData.setField_formMap, empty]
    rfl
  · rw [if_pos empty, if_neg empty, URLData.setField_formMap]

/-- What the form has for the password. -/
theorem openedForm_password (container : Container) (userPassword : List Char) :
    openedForm container userPassword .password =
      if ∀ sextet ∈ Base64.sextets (container.printf.print userPassword), sextet < 62 then
        .string ((container.printf.print userPassword).map fun byte => UInt16.ofNat byte.toNat)
      else .null := by
  have plain : IsQuery (Base64.encode Base64.urlSafe (container.printf.print userPassword)) :=
    fun char member => (isQueryChar_encode member).1
  have unescaped : '%' ∉ sshServerParams container
      (Base64.encode Base64.urlSafe (container.printf.print userPassword)) := by
    intro member
    exact absurd (isQuery_sshServerParams container plain '%' member) (by decide)
  have separate : '&' ∉ Base64.encode Base64.urlSafe (container.printf.print userPassword) := by
    intro member
    exact (isQueryChar_encode member).2 (by decide)
  rw [openedForm, userPasswordB64_eq, urlString, Percent.decodeURIComponent_of_plain unescaped,
    Percent.decodeURIComponent_of_plain List.not_mem_nil, Option.getD_some, Option.getD_some,
    sshServerParams, parseURLData_password _ _ _ separate (trimmed_of_query plain), decodePassword,
    JSString.characters_ofText, Option.bind_some, Base64.atob_urlSafe]
  by_cases empty : container.printf.print userPassword = []
  · rw [if_pos (Base64.encode_eq_nil.mpr empty), empty]
    rfl
  · rw [if_neg (mt Base64.encode_eq_nil.mp empty)]
    split_ifs
    · rfl
    · rfl

/-- A string with one unit a byte. -/
theorem string_eq_iff {bytes : List UInt8} {text : List Char} :
    bytes.map (fun byte => UInt16.ofNat byte.toNat) = JSString.ofText text ↔
      Printf.latin1 bytes = text := by
  have units : bytes.map (fun byte => UInt16.ofNat byte.toNat) =
      JSString.ofText (Printf.latin1 bytes) := by
    induction bytes with
    | nil => rfl
    | cons byte rest ih =>
        have small : byte.toNat < 0x10000 := Nat.lt_trans byte.toNat_lt (by decide)
        change _ = JSString.ofCodePoint (Char.ofNat byte.toNat).toNat ++
          JSString.ofText (Printf.latin1 rest)
        rw [List.map_cons, ih, Printf.toNat_latin1, JSString.ofCodePoint_of_lt small]
        rfl
  rw [units]
  constructor
  · intro same
    have texts := congrArg JSString.characters same
    rw [JSString.characters_ofText, JSString.characters_ofText] at texts
    exact Option.some.inj texts
  · intro same
    rw [same]

/-- The page reads the password back if and only if `printf` prints it as it is, one byte a
character, and no group of six of its bits is one of the two that the alphabets write
differently. -/
theorem decodesPassword_iff (container : Container) (userPassword : List Char) :
    DecodesPassword container userPassword ↔
      container.printf.PrintsItself userPassword ∧
        ∀ sextet ∈ Base64.sextets (Percent.bytesOf userPassword), sextet < 62 := by
  rw [DecodesPassword, openedForm_password]
  constructor
  · intro decoded
    split at decoded
    · rename_i small
      have itself := Printf.latin1_print_iff.mp (string_eq_iff.mp (FormValue.string.inj decoded))
      rw [itself.print] at small
      exact ⟨itself, small⟩
    · cases decoded
  · rintro ⟨itself, small⟩
    rw [← itself.print] at small
    rw [if_pos small]
    exact congrArg FormValue.string (string_eq_iff.mpr (Printf.latin1_print_iff.mpr itself))

/-- `???` is `Pz8_` in the URL, which `atob` rejects. -/
theorem decodesPassword_questionMarks_fails :
    ¬∀ container userPassword, Char.ofNat 0 ∉ userPassword →
      DecodesPassword container userPassword := by
  intro always
  have decoded := always ⟨⟨fun _ => none, fun _ => [], [], nofun, fun _ => nofun, by decide⟩,
    ⟨[], nofun⟩, ⟨[], nofun⟩, ⟨[], nofun⟩, ⟨[], nofun⟩, ⟨[], nofun⟩, [], []⟩
    ['?', '?', '?'] (by decide)
  rw [DecodesPassword, openedForm_password] at decoded
  exact absurd decoded (by decide)

end CloudRunSsh.WebSSH
