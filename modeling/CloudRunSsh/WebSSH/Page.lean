import Mathlib.Logic.Function.Basic
import CloudRunSsh.Data.Base64
import CloudRunSsh.Data.Percent

/-!
# The login form of the page

When the page opens, the form data come from what the server put into `window.ssh_server`
and from the URL.  They are cleaned and posted.
-/

namespace CloudRunSsh.WebSSH

/-- The fields that `clean_data` goes through: `form_keys`, and what only the form has. -/
inductive Field where
  | hostname
  | port
  | username
  | password
  | totp
  | privatekey
  | passphrase
  deriving DecidableEq, Repr

def Field.name : Field → String
  | hostname => "hostname"
  | port => "port"
  | username => "username"
  | password => "password"
  | totp => "totp"
  | privatekey => "privatekey"
  | passphrase => "passphrase"

def formKeys : List Field := [.hostname, .port, .username, .password, .totp]

def optsKeys : List String :=
  ["bgcolor", "title", "encoding", "command", "term", "fontsize", "fontcolor", "cursor"]

/-- The value of a field. -/
inductive FormValue where
  | undefined
  | null
  | string (units : JSString)
  deriving DecidableEq, Repr

/-- `opts[attr] || ''`. -/
def FormValue.get : FormValue → JSString
  | .string units => units
  | .undefined | .null => []

abbrev FormMap := Field → FormValue

/-- The two maps that `parse_url_data` fills. -/
structure URLData where
  formMap : FormMap
  optsMap : String → Option JSString

namespace URLData

def empty : URLData where
  formMap _ := .undefined
  optsMap _ := none

def setField (data : URLData) (field : Field) (value : FormValue) : URLData :=
  { data with formMap := Function.update data.formMap field value }

def setOpt (data : URLData) (key : String) (value : JSString) : URLData :=
  { data with optsMap := Function.update data.optsMap key (some value) }

@[simp] theorem setField_formMap (data : URLData) (field : Field) (value : FormValue) :
    (data.setField field value).formMap field = value := by
  simp [setField]

end URLData

/-- The credentials of `window.ssh_server`. -/
structure Login where
  user : JSString
  pass : JSString

/-- `window.ssh_server`, with a login if `auto_login` is set. -/
structure SSHServer where
  host : JSString
  port : JSString
  login : Option Login

/-- `decode_password`. -/
def decodePassword (encoded : JSString) : FormValue :=
  match (JSString.characters encoded).bind Base64.atob with
  | some bytes => .string (bytes.map fun byte => UInt16.ofNat byte.toNat)
  | none => .null

/-- One item of the loop.  A key in another case is the same key: all keys are ASCII and
none has a `k`, the one letter that is the lower case of another letter as well. -/
def parseItem (data : URLData) (item : JSString) : URLData :=
  let pair := JSString.split '=' item
  let key := JSString.toLowerCase (JSString.trim (pair.headD []))
  let value := JSString.trim (JSString.join '=' pair.tail)
  match formKeys.find? fun field => JSString.ofString field.name = key with
  | some field => data.setField field (.string value)
  | none =>
      match optsKeys.find? fun name => JSString.ofString name = key with
      | some name => data.setOpt name value
      | none => data

/-- The values from the server, before the URL is read. -/
def prefill (server : SSHServer) (data : URLData) : URLData :=
  match server.login with
  | some login =>
      (((data.setField .hostname (.string server.host)).setField .port
        (.string server.port)).setField .username (.string login.user)).setField .password
          (.string login.pass)
  | none => data

/-- `parse_url_data`. -/
def parseURLData (server : SSHServer) (string : JSString) (data : URLData) : URLData :=
  let data := (JSString.split '&' string).foldl parseItem (prefill server data)
  if server.login.isNone ∧ (data.formMap .password).get ≠ [] then
    data.setField .password (decodePassword (data.formMap .password).get)
  else data

/-- What `parse_url_data` gets: query and fragment, decoded. -/
def urlString (search hash : List Char) : JSString :=
  JSString.ofText ((Percent.decodeURIComponent search).getD [] ++
    '&' :: (Percent.decodeURIComponent hash).getD [])

/-- The attributes that `clean_data` goes through. -/
def attrs : List Field := formKeys ++ [.privatekey, .passphrase]

/-- `clean_data`. -/
def cleanData (formMap : FormMap) : FormMap := fun field =>
  .string (JSString.trim (formMap field).get)

/-- `connect_with_options`: the body that is posted.  The page has `debug: true`, with which
`validate_form_data` lets every form pass.  A value with a lone surrogate cannot be
encoded. -/
def connectWithOptions (formMap : FormMap) : Option (List Char) :=
  (attrs.mapM fun field =>
    (JSString.characters (cleanData formMap field).get).map (field.name.toList, ·)).map
      Percent.serialize

/-- What the page posts when it has been loaded.  A password that is no base64 is an error,
and without form data the page shows the form. -/
def load (server : SSHServer) (search hash : List Char) : Option (List Char) :=
  let formMap := (parseURLData server (urlString search hash) .empty).formMap
  if formMap .password = .null then none
  else if ∀ field ∈ formKeys, formMap field = .undefined then none
  else connectWithOptions formMap

theorem mem_attrs (field : Field) : field ∈ attrs := by
  cases field <;> decide

theorem connectWithOptions_of_characters {formMap : FormMap} {texts : Field → List Char}
    (found : ∀ field, JSString.characters (JSString.trim (formMap field).get) =
      some (texts field)) :
    connectWithOptions formMap =
      some (Percent.serialize (attrs.map fun field => (field.name.toList, texts field))) := by
  have posted : (fun field : Field =>
      (JSString.characters (cleanData formMap field).get).map (field.name.toList, ·)) =
        fun field => pure (field.name.toList, texts field) := by
    funext field
    change (JSString.characters (JSString.trim (formMap field).get)).map _ = _
    rw [found]
    rfl
  rw [connectWithOptions, posted, List.mapM_pure]
  rfl

theorem connectWithOptions_of_lone {formMap : FormMap} {field : Field}
    (lone : JSString.characters (JSString.trim (formMap field).get) = none) :
    connectWithOptions formMap = none := by
  have fails : (JSString.characters (cleanData formMap field).get).map (field.name.toList, ·) =
      none := by
    change (JSString.characters (JSString.trim (formMap field).get)).map _ = _
    rw [lone]
    rfl
  rw [connectWithOptions, Base64.mapM_eq_none (mem_attrs field) fails]
  rfl

/-- An item without a key changes nothing. -/
theorem parseItem_nil (data : URLData) : parseItem data [] = data := rfl

/-- Without parameters the form has the login of the server. -/
theorem parseURLData_login {server : SSHServer} {login : Login} (found : server.login = some login)
    (data : URLData) : parseURLData server (urlString [] []) data = prefill server data := by
  have parameters : urlString [] [] = [UInt16.ofNat '&'.toNat] := by
    rw [urlString, Percent.decodeURIComponent_of_plain List.not_mem_nil]
    rfl
  rw [parseURLData, parameters, found]
  rfl

/-- With a login the page posts the form at once. -/
theorem load_login {server : SSHServer} {login : Login} (found : server.login = some login) :
    load server [] [] = connectWithOptions (prefill server .empty).formMap := by
  have filled : (prefill server .empty).formMap .password = .string login.pass := by
    rw [prefill, found]
    rfl
  rw [load, parseURLData_login found, filled, if_neg (by nofun), if_neg]
  intro empty
  have undefined := empty .password (by decide)
  rw [filled] at undefined
  cases undefined

end CloudRunSsh.WebSSH
