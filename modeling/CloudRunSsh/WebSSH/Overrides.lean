import Mathlib.Data.List.Induction
import CloudRunSsh.WebSSH.Page

/-!
# What the URL overrides

`parse_url_data` writes the server's login into the form map, lets every item of query and
fragment overwrite it, and decodes the password afterwards.  Whether the password came from
the URL is not recorded, so the decoding looks at `auto_login` instead.
-/

namespace CloudRunSsh.WebSSH

/-- The key of an item. -/
def itemKey (item : JSString) : JSString :=
  JSString.toLowerCase (JSString.trim ((JSString.split '=' item).headD []))

/-- The value of an item. -/
def itemValue (item : JSString) : JSString :=
  JSString.trim (JSString.join '=' (JSString.split '=' item).tail)

/-- The items of the query, and then those of the fragment. -/
def urlItems (search hash : List Char) : List JSString :=
  [search, hash].flatMap fun part =>
    JSString.split '&' (JSString.ofText ((Percent.decodeURIComponent part).getD []))

/-- The last value of a key. -/
def lastValue (items : List JSString) (name : String) : Option JSString :=
  ((items.filter fun item => itemKey item = JSString.ofString name).map itemValue).getLast?

/-- The value that the server provides for a field. -/
def serverValue (server : SSHServer) (field : Field) : FormValue :=
  match server.login, field with
  | some _, .hostname => .string server.host
  | some _, .port => .string server.port
  | some login, .username => .string login.user
  | some login, .password => .string login.pass
  | _, _ => .undefined

/-- The value that a field should have: the last one in the URL, decoded for a password, and
the server's if there is none. -/
def fieldValue (server : SSHServer) (items : List JSString) (field : Field) : FormValue :=
  match lastValue items field.name with
  | some value => if field = .password then decodePassword value else .string value
  | none => serverValue server field

/-- The maps hold what the URL says, and otherwise what the server says. -/
structure Overrides (server : SSHServer) (items : List JSString) (data : URLData) : Prop where
  form : ∀ field ∈ formKeys, data.formMap field = fieldValue server items field
  opts : ∀ name ∈ optsKeys, data.optsMap name = lastValue items name
  formOnly : ∀ field, field ∉ formKeys → data.formMap field = .undefined
  optsOnly : ∀ name, name ∉ optsKeys → data.optsMap name = none

theorem ofString_injective {name other : String}
    (same : JSString.ofString name = JSString.ofString other) : name = other := by
  have texts := congrArg JSString.characters same
  rw [JSString.ofString, JSString.ofString, JSString.characters_ofText,
    JSString.characters_ofText] at texts
  exact String.toList_injective (Option.some.inj texts)

theorem name_injective {field other : Field} (same : field.name = other.name) :
    field = other := by
  cases field <;> cases other <;> first | rfl | exact absurd same (by decide)

/-- No name is one of a field and of an option. -/
theorem name_not_mem_optsKeys (field : Field) : field.name ∉ optsKeys := by
  cases field <;> decide

theorem formMap_setField (data : URLData) (field : Field) (value : FormValue) :
    (data.setField field value).formMap = Function.update data.formMap field value := rfl

theorem optsMap_setOpt (data : URLData) (name : String) (value : JSString) :
    (data.setOpt name value).optsMap = Function.update data.optsMap name (some value) := rfl

theorem parseItem_eq (data : URLData) (item : JSString) :
    parseItem data item =
      match formKeys.find? fun field => JSString.ofString field.name = itemKey item with
      | some field => data.setField field (.string (itemValue item))
      | none =>
          match optsKeys.find? fun name => JSString.ofString name = itemKey item with
          | some name => data.setOpt name (itemValue item)
          | none => data := rfl

/-- An item sets the field that its key names, or the option, or nothing. -/
theorem parseItem_cases (data : URLData) (item : JSString) :
    (∃ field ∈ formKeys, itemKey item = JSString.ofString field.name ∧
        parseItem data item = data.setField field (.string (itemValue item))) ∨
      (∃ name ∈ optsKeys, itemKey item = JSString.ofString name ∧
        parseItem data item = data.setOpt name (itemValue item)) ∨
      ((∀ field ∈ formKeys, itemKey item ≠ JSString.ofString field.name) ∧
        (∀ name ∈ optsKeys, itemKey item ≠ JSString.ofString name) ∧
        parseItem data item = data) := by
  rw [parseItem_eq]
  cases found : formKeys.find? fun field => JSString.ofString field.name = itemKey item with
  | some field =>
      left
      have check := List.find?_some found
      exact ⟨field, List.mem_of_find?_eq_some found, (of_decide_eq_true check).symm, rfl⟩
  | none =>
      right
      cases chosen : optsKeys.find? fun name => JSString.ofString name = itemKey item with
      | some name =>
          left
          have check := List.find?_some chosen
          exact ⟨name, List.mem_of_find?_eq_some chosen, (of_decide_eq_true check).symm, rfl⟩
      | none =>
          right
          refine ⟨?_, ?_, rfl⟩
          · intro other member same
            exact List.find?_eq_none.mp found other member (decide_eq_true same.symm)
          · intro other member same
            exact List.find?_eq_none.mp chosen other member (decide_eq_true same.symm)

theorem formMap_parseItem (data : URLData) (item : JSString) {field : Field}
    (member : field ∈ formKeys) :
    (parseItem data item).formMap field =
      if itemKey item = JSString.ofString field.name then .string (itemValue item)
      else data.formMap field := by
  rcases parseItem_cases data item with ⟨other, _, hit, parsed⟩ | ⟨name, option, hit, parsed⟩ |
    ⟨missed, _, parsed⟩
  · rw [parsed, hit, formMap_setField, Function.update_apply]
    apply if_congr _ rfl rfl
    constructor
    · intro same
      rw [same]
    · intro same
      exact (name_injective (ofString_injective same)).symm
  · rw [parsed, if_neg]
    · rfl
    · rw [hit]
      intro same
      exact name_not_mem_optsKeys field (ofString_injective same ▸ option)
  · rw [parsed, if_neg (missed field member)]

theorem optsMap_parseItem (data : URLData) (item : JSString) {name : String}
    (member : name ∈ optsKeys) :
    (parseItem data item).optsMap name =
      if itemKey item = JSString.ofString name then some (itemValue item)
      else data.optsMap name := by
  rcases parseItem_cases data item with ⟨field, _, hit, parsed⟩ | ⟨other, _, hit, parsed⟩ |
    ⟨_, missed, parsed⟩
  · rw [parsed, if_neg]
    · rfl
    · rw [hit]
      intro same
      exact name_not_mem_optsKeys field (ofString_injective same ▸ member)
  · rw [parsed, hit, optsMap_setOpt, Function.update_apply]
    apply if_congr _ rfl rfl
    constructor
    · intro same
      rw [same]
    · intro same
      exact (ofString_injective same).symm
  · rw [parsed, if_neg (missed name member)]

/-- An item leaves alone what is not in the list of its map. -/
theorem parseItem_keeps (data : URLData) (item : JSString) :
    (∀ field, field ∉ formKeys → (parseItem data item).formMap field = data.formMap field) ∧
      ∀ name, name ∉ optsKeys → (parseItem data item).optsMap name = data.optsMap name := by
  rcases parseItem_cases data item with ⟨other, member, _, parsed⟩ | ⟨other, member, _, parsed⟩ |
    ⟨_, _, parsed⟩
  · rw [parsed]
    refine ⟨?_, fun _ _ => rfl⟩
    intro field outside
    apply Function.update_of_ne
    rintro rfl
    exact outside member
  · rw [parsed]
    refine ⟨fun _ _ => rfl, ?_⟩
    intro name outside
    apply Function.update_of_ne
    rintro rfl
    exact outside member
  · rw [parsed]
    exact ⟨fun _ _ => rfl, fun _ _ => rfl⟩

theorem lastValue_concat (items : List JSString) (item : JSString) (name : String) :
    lastValue (items ++ [item]) name =
      if itemKey item = JSString.ofString name then some (itemValue item)
      else lastValue items name := by
  rw [lastValue, List.filter_append, List.map_append]
  split
  · rename_i hit
    rw [List.filter_singleton, decide_eq_true hit]
    exact List.getLast?_concat
  · rename_i missed
    rw [List.filter_singleton, decide_eq_false missed]
    simp [lastValue]

/-- What the items of the URL leave in the maps. -/
structure Filled (items : List JSString) (data after : URLData) : Prop where
  form : ∀ field ∈ formKeys, after.formMap field =
    (lastValue items field.name).elim (data.formMap field) .string
  opts : ∀ name ∈ optsKeys, after.optsMap name =
    (lastValue items name).or (data.optsMap name)
  formOnly : ∀ field, field ∉ formKeys → after.formMap field = data.formMap field
  optsOnly : ∀ name, name ∉ optsKeys → after.optsMap name = data.optsMap name

theorem filled_foldl (items : List JSString) (data : URLData) :
    Filled items data (items.foldl parseItem data) := by
  induction items using List.reverseRecOn with
  | nil => exact ⟨fun _ _ => rfl, fun _ _ => rfl, fun _ _ => rfl, fun _ _ => rfl⟩
  | append_singleton items item ih =>
      rw [List.foldl_append, List.foldl_cons, List.foldl_nil]
      have keeps := parseItem_keeps (items.foldl parseItem data) item
      constructor
      · intro field member
        rw [formMap_parseItem _ _ member, ih.form field member, lastValue_concat]
        split
        · rfl
        · rfl
      · intro name member
        rw [optsMap_parseItem _ _ member, ih.opts name member, lastValue_concat]
        split
        · rfl
        · rfl
      · intro field outside
        rw [keeps.1 field outside, ih.formOnly field outside]
      · intro name outside
        rw [keeps.2 name outside, ih.optsOnly name outside]

theorem split_urlString (search hash : List Char) :
    JSString.split '&' (urlString search hash) = urlItems search hash := by
  rw [urlString, JSString.split_append (by decide), urlItems, List.flatMap_cons,
    List.flatMap_cons, List.flatMap_nil, List.append_nil]

/-- The values of the server are those that `parse_url_data` starts from. -/
theorem formMap_prefill (server : SSHServer) :
    (prefill server .empty).formMap = serverValue server := by
  obtain ⟨host, port, login⟩ := server
  funext field
  cases login with
  | none => rfl
  | some login => cases field <;> rfl

theorem optsMap_prefill (server : SSHServer) (name : String) :
    (prefill server .empty).optsMap name = none := by
  obtain ⟨host, port, login⟩ := server
  cases login <;> rfl

/-- Only an empty password is decoded to itself. -/
theorem decodePassword_eq_self {encoded : JSString} :
    decodePassword encoded = .string encoded ↔ encoded = [] := by
  constructor
  · intro same
    by_contra filled
    rw [decodePassword] at same
    split at same
    · rename_i bytes decoded
      obtain ⟨text, found, decoded⟩ := Option.bind_eq_some_iff.mp decoded
      have units : JSString.ofText text = encoded := JSString.ofText_of_characters found
      have some : text ≠ [] := by
        intro empty
        rw [empty] at units
        exact filled units.symm
      have shorter := Base64.length_atob_lt decoded some
      have longer := JSString.length_le_ofText text
      rw [units, ← FormValue.string.inj same, List.length_map] at longer
      exact absurd shorter (Nat.not_lt.mpr longer)
    · cases same
  · rintro rfl
    rfl

/-- What the step after the loop makes of the password. -/
def finalPassword (server : SSHServer) (password : FormValue) : FormValue :=
  if server.login.isNone ∧ password.get ≠ [] then decodePassword password.get else password

/-- After the loop only the password changes. -/
theorem parseURLData_eq (server : SSHServer) (search hash : List Char) :
    parseURLData server (urlString search hash) .empty =
      let data := (urlItems search hash).foldl parseItem (prefill server .empty)
      data.setField .password (finalPassword server (data.formMap .password)) := by
  rw [parseURLData, split_urlString]
  dsimp only
  rw [finalPassword]
  split
  · rfl
  · rw [URLData.setField, Function.update_eq_self]

theorem serverValue_of_not_mem {field : Field} (outside : field ∉ formKeys) (server : SSHServer) :
    serverValue server field = .undefined := by
  obtain ⟨host, port, login⟩ := server
  cases field with
  | hostname | port | username | password | totp => exact absurd (by decide) outside
  | privatekey | passphrase => cases login <;> rfl

/-- After the loop everything but the password is as it should be. -/
theorem Filled.overrides_iff {server : SSHServer} {items : List JSString} {data : URLData}
    (filled : Filled items (prefill server .empty) data) (password : FormValue) :
    Overrides server items (data.setField .password password) ↔
      password = fieldValue server items .password := by
  constructor
  · intro overrides
    rw [← overrides.form .password (by decide), URLData.setField_formMap]
  · rintro rfl
    constructor
    · intro field member
      rw [formMap_setField, Function.update_apply]
      split
      · rename_i same
        rw [same]
      · rename_i other
        rw [filled.form field member, formMap_prefill, fieldValue]
        cases lastValue items field.name with
        | none => rfl
        | some value => exact (if_neg other).symm
    · intro name member
      have found := filled.opts name member
      rw [optsMap_prefill, Option.or_none] at found
      exact found
    · intro field outside
      have other : field ≠ .password := fun same => outside (same ▸ by decide)
      rw [formMap_setField, Function.update_of_ne other, filled.formOnly field outside,
        formMap_prefill, serverValue_of_not_mem outside]
    · intro name outside
      exact (filled.optsOnly name outside).trans (optsMap_prefill server name)

/-- The password is as it should be unless one from the URL is kept undecoded. -/
theorem finalPassword_iff (server : SSHServer) (found : Option JSString) :
    finalPassword server (found.elim (serverValue server .password) .string) =
        (match found with
          | some value => if Field.password = .password then decodePassword value else .string value
          | none => serverValue server .password) ↔
      ∀ value, found = some value → server.login.isSome → value = [] := by
  obtain ⟨host, port, login⟩ := server
  cases found with
  | none => cases login <;> simp [finalPassword, serverValue, FormValue.get]
  | some value =>
      cases login with
      | none =>
          by_cases empty : value = []
          · subst value
            simp [finalPassword, FormValue.get, decodePassword_eq_self.mpr rfl]
          · simp [finalPassword, FormValue.get, empty]
      | some login =>
          simp [finalPassword, eq_comm (b := decodePassword value), decodePassword_eq_self]

/-- The URL overrides the server consistently if and only if `auto_login` is off, or the URL
has no password, or an empty one. -/
theorem parseURLData_overrides_iff (server : SSHServer) (search hash : List Char) :
    Overrides server (urlItems search hash)
        (parseURLData server (urlString search hash) .empty) ↔
      ∀ value, lastValue (urlItems search hash) "password" = some value →
        server.login.isSome → value = [] := by
  have filled := filled_foldl (urlItems search hash) (prefill server .empty)
  rw [parseURLData_eq, filled.overrides_iff, filled.form .password (by decide), formMap_prefill]
  exact finalPassword_iff server _

/-- A password in the URL of a page with `auto_login` is posted as it is written there. -/
theorem parseURLData_overrides_fails :
    ¬∀ server search hash, Overrides server (urlItems search hash)
      (parseURLData server (urlString search hash) .empty) := by
  intro always
  have overrides := always ⟨[], [], some ⟨[], []⟩⟩ "password=c2VjcmV0".toList []
  have password := overrides.form .password (by decide)
  exact absurd password (by decide +kernel)

end CloudRunSsh.WebSSH
