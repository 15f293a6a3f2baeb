import Mathlib.Data.List.Nodup
import CloudRunSsh.Data.Lines
import CloudRunSsh.WebSSH.Overrides

/-!
# Arguments in the URL

Form data and options are passed in the query and in the fragment of the URL.  The page decodes
both and then looks for the items, so that an escaped ampersand separates them as well.
-/

namespace CloudRunSsh.WebSSH

/-- The keys of arguments that are passed as they are. -/
def argumentKeys : List String :=
  ["hostname", "port", "username", "totp"] ++ optsKeys

/-- A key with its value. -/
structure URLArgument where
  key : String
  value : List Char
  supported : key ∈ argumentKeys
  nonempty : value ≠ []
  trimmed : Trimmed JSString.isSpace (JSString.ofText value)

namespace URLArgument

variable (argument : URLArgument)

/-- `key=value`. -/
def text : List Char := argument.key.toList ++ '=' :: argument.value

/-- `key=encodeURIComponent(value)`. -/
def escaped : List Char :=
  argument.key.toList ++ '=' :: Percent.encodeURIComponent argument.value

end URLArgument

/-- A map from keys to values, of which some are in the query and the others in the fragment. -/
structure URLArguments where
  query : List URLArgument
  fragment : List URLArgument
  distinct : ((query ++ fragment).map URLArgument.key).Nodup

/-- The items, joined. -/
def joinedArguments (arguments : List URLArgument) : List Char :=
  ['&'].intercalate (arguments.map URLArgument.escaped)

namespace URLArguments

variable (arguments : URLArguments)

def all : List URLArgument := arguments.query ++ arguments.fragment

/-- The value of a key. -/
def value (key : String) : Option (List Char) :=
  (arguments.all.find? fun argument => argument.key = key).map URLArgument.value

/-- The page is opened with the arguments in its URL. -/
def parsed (host port : JSString) : URLData :=
  parseURLData ⟨host, port, none⟩
    (urlString (Percent.asQuery (joinedArguments arguments.query))
      (joinedArguments arguments.fragment)) .empty

/-- The maps are those that were written. -/
structure Restored (data : URLData) : Prop where
  form : ∀ field, data.formMap field =
    (arguments.value field.name).elim .undefined fun value => .string (JSString.ofText value)
  opts : ∀ name ∈ optsKeys, data.optsMap name = (arguments.value name).map JSString.ofText
  optsOnly : ∀ name, name ∉ optsKeys → data.optsMap name = none

end URLArguments

theorem argumentKeys_plain : ∀ key ∈ argumentKeys, '%' ∉ key.toList ∧ '\x27' ∉ key.toList ∧
    '&' ∉ key.toList ∧ '=' ∉ key.toList ∧ key ≠ "" ∧
      JSString.toLowerCase (JSString.trim (JSString.ofString key)) = JSString.ofString key :=
  List.all_iff_forall_prop.mp (by decide +kernel)

theorem URLArgument.decodes (argument : URLArgument) :
    Percent.Decodes argument.escaped argument.text := by
  obtain ⟨escape, apostrophe, _⟩ := argumentKeys_plain argument.key argument.supported
  have key := Percent.Decodes.plain escape apostrophe
  have equals : Percent.Decodes ['='] ['='] := .plain (by decide) (by decide)
  exact key.append (equals.append (.encodeURIComponent argument.value))

/-- What is decoded: the items with their values as they are. -/
theorem decodes_joinedArguments (arguments : List URLArgument) :
    Percent.Decodes (joinedArguments arguments)
      (['&'].intercalate (arguments.map URLArgument.text)) :=
  .intercalate (.plain (by decide) (by decide)) arguments fun argument _ => argument.decodes

/-- The items that the page finds in the URL. -/
def URLArguments.items (arguments : URLArguments) : List JSString :=
  urlItems (Percent.asQuery (joinedArguments arguments.query)) (joinedArguments arguments.fragment)

theorem URLArguments.items_eq (arguments : URLArguments) :
    arguments.items =
      [arguments.query, arguments.fragment].flatMap fun part =>
        JSString.split '&' (JSString.ofText (['&'].intercalate (part.map URLArgument.text))) := by
  simp only [URLArguments.items, urlItems, List.flatMap_cons, List.flatMap_nil,
    (decodes_joinedArguments arguments.query).query.decodeURIComponent,
    (decodes_joinedArguments arguments.fragment).fragment.decodeURIComponent, Option.getD_some]

/-- Joined texts without separators are split where they were joined. -/
theorem split_intercalate {texts : List (List Char)} (whole : ∀ text ∈ texts, '&' ∉ text)
    (nonempty : texts ≠ []) :
    JSString.split '&' (JSString.ofText (['&'].intercalate texts)) =
      texts.map JSString.ofText := by
  induction texts with
  | nil => exact absurd rfl nonempty
  | cons text rest ih =>
      obtain ⟨first, later⟩ := List.forall_mem_cons.mp whole
      cases rest with
      | nil =>
          rw [List.intercalate_singleton, JSString.split_of_not_mem (by decide) first]
          rfl
      | cons next rest =>
          rw [List.intercalate_cons_cons, List.append_assoc, List.singleton_append,
            JSString.split_append (by decide), ih later (List.cons_ne_nil _ _),
            JSString.split_of_not_mem (by decide) first]
          rfl

/-- An item is read as it was written. -/
theorem URLArgument.item (argument : URLArgument) :
    itemKey (JSString.ofText argument.text) = JSString.ofString argument.key ∧
      itemValue (JSString.ofText argument.text) = JSString.ofText argument.value := by
  obtain ⟨_, _, _, equals, _, lower⟩ := argumentKeys_plain argument.key argument.supported
  have pair : JSString.split '=' (JSString.ofText argument.text) =
      JSString.ofString argument.key :: JSString.split '=' (JSString.ofText argument.value) := by
    rw [URLArgument.text, JSString.split_append (by decide),
      JSString.split_of_not_mem (by decide) equals]
    rfl
  constructor
  · rw [itemKey, pair, List.headD_cons, lower]
  · rw [itemValue, pair, List.tail_cons, JSString.join_split, JSString.trim,
      trimBy_of_trimmed argument.trimmed]

theorem lastValue_append (items others : List JSString) (name : String) :
    lastValue (items ++ others) name = (lastValue others name).or (lastValue items name) := by
  rw [lastValue, List.filter_append, List.map_append, List.getLast?_append]
  rfl

theorem lastValue_items {arguments : List URLArgument}
    (distinct : (arguments.map URLArgument.key).Nodup) (name : String) :
    lastValue (arguments.map fun argument => JSString.ofText argument.text) name =
      (arguments.find? fun argument => argument.key = name).map fun argument =>
        JSString.ofText argument.value := by
  induction arguments with
  | nil => rfl
  | cons argument rest ih =>
      obtain ⟨key, value⟩ := argument.item
      rw [List.map_cons, List.nodup_cons] at distinct
      rw [List.map_cons, ← List.singleton_append, lastValue_append, ih distinct.2]
      have single : lastValue [JSString.ofText argument.text] name =
          if argument.key = name then some (JSString.ofText argument.value) else none := by
        have concat := lastValue_concat [] (JSString.ofText argument.text) name
        rw [List.nil_append, key, value] at concat
        rw [concat]
        exact if_congr ⟨ofString_injective, congrArg JSString.ofString⟩ rfl rfl
      rw [single]
      by_cases same : argument.key = name
      · have missing : rest.find? (fun argument => argument.key = name) = none := by
          rw [List.find?_eq_none]
          intro other member again
          exact distinct.1 (List.mem_map.mpr ⟨other, member, (of_decide_eq_true again).trans
            same.symm⟩)
        rw [missing, if_pos same, List.find?_cons_of_pos (by simpa using same)]
        rfl
      · rw [if_neg same, Option.or_none, List.find?_cons_of_neg (by simpa using same)]

/-- What one part of the URL says about a key. -/
theorem lastValue_part {part : List URLArgument} (whole : ∀ argument ∈ part, '&' ∉ argument.value)
    (distinct : (part.map URLArgument.key).Nodup) {name : String} (named : name ≠ "") :
    lastValue (JSString.split '&' (JSString.ofText
        (['&'].intercalate (part.map URLArgument.text)))) name =
      (part.find? fun argument => argument.key = name).map fun argument =>
        JSString.ofText argument.value := by
  by_cases empty : part = []
  · subst empty
    have other : itemKey [] ≠ JSString.ofString name := by
      intro same
      have nothing : JSString.ofString "" = JSString.ofString name := same
      exact named (ofString_injective nothing).symm
    exact (lastValue_concat [] [] name).trans (if_neg other)
  · rw [split_intercalate, List.map_map]
    · exact lastValue_items distinct name
    · intro text member
      obtain ⟨argument, among, rfl⟩ := List.mem_map.mp member
      obtain ⟨_, _, key, _⟩ := argumentKeys_plain argument.key argument.supported
      rw [URLArgument.text, List.mem_append, List.mem_cons, not_or, not_or]
      exact ⟨key, by decide, whole argument among⟩
    · exact mt List.map_eq_nil_iff.mp empty

/-- The items have the values that were written, if no value has an ampersand. -/
theorem lastValue_arguments (arguments : URLArguments)
    (whole : ∀ argument ∈ arguments.all, '&' ∉ argument.value) {name : String} (named : name ≠ "") :
    lastValue arguments.items name = (arguments.value name).map JSString.ofText := by
  have distinct := arguments.distinct
  rw [List.map_append, List.nodup_append] at distinct
  obtain ⟨distinct, distinct', apart⟩ := distinct
  obtain ⟨wholeQuery, wholeFragment⟩ := List.forall_mem_append.mp whole
  rw [arguments.items_eq, List.flatMap_cons, List.flatMap_cons, List.flatMap_nil, List.append_nil,
    lastValue_append, lastValue_part wholeQuery distinct named,
    lastValue_part wholeFragment distinct' named, URLArguments.value, URLArguments.all,
    List.find?_append, Option.map_map]
  cases first : arguments.query.find? fun argument => argument.key = name with
  | none =>
      rw [Option.none_or, Option.map_none, Option.or_none]
      rfl
  | some argument =>
      have key := List.find?_some first
      have missing : arguments.fragment.find? (fun argument => argument.key = name) = none := by
        rw [List.find?_eq_none]
        intro other member same
        exact apart _ (List.mem_map_of_mem (List.mem_of_find?_eq_some first)) _
          (List.mem_map_of_mem member) ((of_decide_eq_true key).trans (of_decide_eq_true same).symm)
      rw [missing]
      rfl

/-- Other keys have no value. -/
theorem URLArguments.value_eq_none (arguments : URLArguments) {name : String}
    (unsupported : name ∉ argumentKeys) : arguments.value name = none := by
  rw [URLArguments.value, Option.map_eq_none_iff, List.find?_eq_none]
  intro argument _ same
  exact unsupported (of_decide_eq_true same ▸ argument.supported)

theorem URLArguments.value_of_mem (arguments : URLArguments) {argument : URLArgument}
    (member : argument ∈ arguments.all) : arguments.value argument.key = some argument.value := by
  rw [URLArguments.value]
  cases found : arguments.all.find? fun other => other.key = argument.key with
  | none => exact absurd (decide_eq_true rfl) (List.find?_eq_none.mp found argument member)
  | some other =>
      have key := List.find?_some found
      have same : other = argument := List.inj_on_of_nodup_map arguments.distinct
        (List.mem_of_find?_eq_some found) member (of_decide_eq_true key)
      rw [same, Option.map_some]

/-- The value of an item is a part of it. -/
theorem mem_of_mem_itemValue {item : JSString} {unit : UInt16} (member : unit ∈ itemValue item)
    (other : unit ≠ UInt16.ofNat '='.toNat) : unit ∈ item := by
  have inside := (trimBy_sublist _).mem member
  rcases LineFormat.mem_intercalate inside with same | ⟨part, found, inside⟩
  · exact absurd same other
  · have parts := List.mem_of_mem_tail found
    rw [JSString.split, List.splitOn_eq_splitOnP] at parts
    exact (LineFormat.not_mem_of_mem_splitOnP parts unit inside).1

/-- No item of a URL has an ampersand. -/
theorem ampersand_not_mem_item {search hash : List Char} {item : JSString}
    (member : item ∈ urlItems search hash) : UInt16.ofNat '&'.toNat ∉ item := by
  obtain ⟨part, _, member⟩ := List.mem_flatMap.mp member
  rw [JSString.split, List.splitOn_eq_splitOnP] at member
  intro inside
  have apart := (LineFormat.not_mem_of_mem_splitOnP member _ inside).2
  rw [beq_self_eq_true] at apart
  cases apart

theorem ampersand_not_mem_lastValue {search hash : List Char} {name : String} {value : List Char}
    (found : lastValue (urlItems search hash) name = some (JSString.ofText value)) :
    '&' ∉ value := by
  obtain ⟨item, member, same⟩ := List.mem_map.mp (List.mem_of_getLast? found)
  have clean := ampersand_not_mem_item (List.mem_filter.mp member).1
  have units : UInt16.ofNat '&'.toNat ∉ JSString.ofText value := by
    rw [← same]
    exact fun inside => clean (mem_of_mem_itemValue inside (by decide))
  rw [← List.count_eq_zero, JSString.count_ofText (by decide), List.count_eq_zero] at units
  exact units

section Restored

variable (arguments : URLArguments) (host port : JSString)

/-- The items are filled in, and then the password is decoded. -/
theorem URLArguments.exists_filled :
    ∃ data, Filled arguments.items (prefill ⟨host, port, none⟩ .empty) data ∧
      arguments.parsed host port =
        data.setField .password (finalPassword ⟨host, port, none⟩ (data.formMap .password)) :=
  ⟨_, filled_foldl arguments.items _, parseURLData_eq _ _ _⟩

/-- The maps have the last values of the items.  The password is not among them. -/
theorem URLArguments.parsed_formMap {field : Field} (other : field ≠ .password) :
    (arguments.parsed host port).formMap field =
      if field ∈ formKeys then
        (lastValue arguments.items field.name).elim .undefined .string
      else .undefined := by
  obtain ⟨data, filled, parsed⟩ := arguments.exists_filled host port
  rw [parsed, formMap_setField, Function.update_of_ne other]
  split_ifs with member
  · exact filled.form field member
  · exact filled.formOnly field member

theorem URLArguments.parsed_optsMap (name : String) :
    (arguments.parsed host port).optsMap name =
      if name ∈ optsKeys then lastValue arguments.items name else none := by
  obtain ⟨data, filled, parsed⟩ := arguments.exists_filled host port
  rw [parsed]
  split_ifs with member
  · exact (filled.opts name member).trans (Option.or_none)
  · exact filled.optsOnly name member

/-- Without a password in the URL the form has none. -/
theorem URLArguments.parsed_password
    (missing : lastValue arguments.items "password" = none) :
    (arguments.parsed host port).formMap .password = .undefined := by
  obtain ⟨data, filled, parsed⟩ := arguments.exists_filled host port
  have undefined := filled.form .password (by decide)
  change _ = (lastValue _ "password").elim _ _ at undefined
  rw [missing] at undefined
  rw [parsed, URLData.setField_formMap, undefined]
  rfl

variable {arguments : URLArguments} {host port : JSString}

/-- What is restored comes from an item, so it has no ampersand. -/
theorem URLArguments.Restored.ampersand_not_mem
    (restored : arguments.Restored (arguments.parsed host port)) {argument : URLArgument}
    (member : argument ∈ arguments.all) : '&' ∉ argument.value := by
  have found := arguments.value_of_mem member
  rcases List.mem_append.mp argument.supported with field | option
  · have fields : ∀ key ∈ ["hostname", "port", "username", "totp"],
        ∃ field ∈ formKeys, field.name = key ∧ field ≠ .password := by
      simp only [List.forall_mem_cons]
      exact ⟨⟨.hostname, by decide⟩, ⟨.port, by decide⟩, ⟨.username, by decide⟩,
        ⟨.totp, by decide⟩, List.forall_mem_nil _⟩
    obtain ⟨field, listed, name, other⟩ := fields argument.key field
    have form := restored.form field
    rw [arguments.parsed_formMap host port other, if_pos listed, name, found] at form
    cases last : lastValue arguments.items argument.key with
    | none =>
        rw [last] at form
        cases form
    | some value =>
        rw [last] at form
        rw [FormValue.string.inj form] at last
        exact ampersand_not_mem_lastValue last
  · have opts := restored.opts argument.key option
    rw [arguments.parsed_optsMap, if_pos option, found] at opts
    exact ampersand_not_mem_lastValue opts

/-- Without ampersands, the form has the values that were written. -/
theorem URLArguments.form_restored (whole : ∀ argument ∈ arguments.all, '&' ∉ argument.value)
    (field : Field) :
    (arguments.parsed host port).formMap field =
      (arguments.value field.name).elim .undefined fun value => .string (JSString.ofText value) := by
  have named : field.name ≠ "" := by cases field <;> decide
  by_cases password : field = .password
  · subst password
    have missing := arguments.value_eq_none (by decide : "password" ∉ argumentKeys)
    rw [arguments.parsed_password]
    · change _ = (arguments.value "password").elim _ _
      rw [missing]
      rfl
    · rw [lastValue_arguments arguments whole (by decide), missing]
      rfl
  · rw [arguments.parsed_formMap host port password]
    split_ifs with member
    · rw [lastValue_arguments arguments whole named]
      cases arguments.value field.name <;> rfl
    · rw [arguments.value_eq_none]
      · rfl
      · cases field with
        | hostname | port | username | totp | password => exact absurd (by decide) member
        | privatekey | passphrase => decide

/-- Without ampersands, every option has the value that was written. -/
theorem URLArguments.opts_restored (whole : ∀ argument ∈ arguments.all, '&' ∉ argument.value)
    {name : String} (member : name ∈ optsKeys) :
    (arguments.parsed host port).optsMap name = (arguments.value name).map JSString.ofText := by
  have named : name ≠ "" := by
    rintro rfl
    exact absurd member (by decide)
  rw [arguments.parsed_optsMap, if_pos member, lastValue_arguments arguments whole named]

variable (arguments host port)

/-- The arguments are restored exactly if no value has an ampersand. -/
theorem URLArguments.restored_iff :
    arguments.Restored (arguments.parsed host port) ↔
      ∀ argument ∈ arguments.all, '&' ∉ argument.value := by
  constructor
  · intro restored argument member
    exact restored.ampersand_not_mem member
  · intro whole
    refine ⟨form_restored whole, fun name member => opts_restored whole member, ?_⟩
    intro name outside
    rw [arguments.parsed_optsMap, if_neg outside]

end Restored

/-- A command with an ampersand is cut off there. -/
theorem restored_ampersand_fails :
    ¬∀ (arguments : URLArguments) (host port : JSString),
      arguments.Restored (arguments.parsed host port) := by
  intro always
  have restored := always ⟨[⟨"command", "a&b".toList, by decide, by decide, by decide⟩], [],
    by decide⟩ [] []
  exact absurd (restored.opts "command" (by decide)) (by decide +kernel)

end CloudRunSsh.WebSSH
