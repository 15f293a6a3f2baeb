import CloudRunSsh.WebSSH.Connecting
import CloudRunSsh.WebSSH.Posts

/-!
# Messages from other pages

A page that embeds the terminal connects with a message.  Its origin goes with the form, and the
server checks it in place of that of the terminal.  What is posted is what jQuery makes of the
message, so that it depends on the message whether the origin goes with it.
-/

namespace CloudRunSsh.WebSSH.Connecting

open CloudRunSsh.Concurrency

/-- The names of the values that are posted, with the values. -/
abbrev FormPairs := List (JSString × JSString)

/-- `add`: a value under a name, where `null` is empty. -/
def addPair (name : JSString) : JSValue → Option FormPairs
  | .undefined | .null => some [(name, [])]
  | value => value.text.map fun text => [(name, text)]

/-- A member that `extend` leaves out. -/
def proto : JSString := JSString.ofString "__proto__"

/-- `rbracket`. -/
def endsInBrackets (name : JSString) : Bool := (JSString.ofString "[]").isSuffixOf name

/-- The name of a member of something named. -/
def memberName (name member : JSString) : JSString :=
  name ++ JSString.ofString "[" ++ member ++ JSString.ofString "]"

/-- What stands between the brackets for an element: its index, if there is more to name. -/
def elementName (index : Nat) : JSValue → JSString
  | .array _ | .object _ => JSString.ofText (Nat.toDigits 10 index)
  | .undefined | .null | .bool _ | .number _ | .string _ => []

mutual

/-- `buildParams`. -/
def buildParams (name : JSString) : JSValue → Option FormPairs
  | .array elements => buildElements name 0 elements
  | .object fields => buildFields name fields
  | .undefined => addPair name .undefined
  | .null => addPair name .null
  | .bool value => addPair name (.bool value)
  | .number number => addPair name (.number number)
  | .string units => addPair name (.string units)

def buildElements (name : JSString) : Nat → List JSValue → Option FormPairs
  | _, [] => some []
  | index, element :: rest =>
      (if endsInBrackets name then addPair name element
        else buildParams (memberName name (elementName index element)) element).bind fun first =>
          (buildElements name (index + 1) rest).map (first ++ ·)

def buildFields (name : JSString) : List (JSString × JSValue) → Option FormPairs
  | [] => some []
  | (member, value) :: rest =>
      (if member = proto then some []
        else buildParams (memberName name member) value).bind fun first =>
          (buildFields name rest).map (first ++ ·)

end

/-- `jQuery.param` of an object. -/
def paramFields (fields : List (JSString × JSValue)) : Option FormPairs :=
  ((fields.filter (·.1 ≠ proto)).mapM fun field => buildParams field.1 field.2).map List.flatten

/-- The members `name` and `value` of an element, which may not be `null`. -/
def paramElement : JSValue → Option FormPairs
  | .undefined | .null => none
  | element => (element.get "name").text.bind fun name => addPair name (element.get "value")

/-- `jQuery.param` of an array. -/
def paramElements (elements : List JSValue) : Option FormPairs :=
  (elements.mapM paramElement).map List.flatten

/-- The pairs as text.  A name or a value with a lone surrogate cannot be encoded. -/
def encodePairs (pairs : FormPairs) : Option (List (List Char × List Char)) :=
  pairs.mapM fun pair =>
    (JSString.characters pair.1).bind fun name =>
      (JSString.characters pair.2).map fun value => (name, value)

/-- A member of an object is set. -/
def setMember (name : String) (value : JSValue) (fields : List (JSString × JSValue)) :
    List (JSString × JSValue) :=
  if fields.any fun field => field.1 = JSString.ofString name then
    fields.map fun field => if field.1 = JSString.ofString name then (field.1, value) else field
  else fields ++ [(JSString.ofString name, value)]

/-- What `clean_data` does with one attribute. -/
def cleanMember (fields : List (JSString × JSValue)) (attr : String) :
    List (JSString × JSValue) :=
  let value := (JSValue.object fields).get attr
  if value.truthy then
    match value with
    | .string units => setMember attr (.string (JSString.trim units)) fields
    | _ => fields
  else setMember attr (.string []) fields

/-- `clean_data`. -/
def cleanMembers (fields : List (JSString × JSValue)) : List (JSString × JSValue) :=
  (attrs.map Field.name).foldl cleanMember fields

/-- The parameters of `connect`. -/
def parameters : List String :=
  ["hostname", "port", "username", "password", "privatekey", "passphrase", "totp"]

/-- What the page puts into every form: the type of the terminal and the token of the session. -/
structure FormContext where
  term : JSString
  xsrf : JSString

/-- What a call of `connect` leads to: nothing, the form of the page, or options for a URL, which is
that of the form if `url` does not count as true. -/
inductive Submission where
  | nothing
  | form
  | options (url : JSValue) (pairs : List (List Char × List Char))

namespace FormContext

variable (context : FormContext) (eventOrigin : Option (List Char))

/-- The members of an object that are posted. -/
def members (fields : List (JSString × JSValue)) : List (JSString × JSValue) :=
  let data := setMember "_xsrf" (.string context.xsrf)
    (setMember "term" (.string context.term) (cleanMembers fields))
  match eventOrigin with
  | some origin => setMember "_origin" (.string (JSString.ofText origin)) data
  | none => data

/-- What is posted, if nothing throws. -/
def submitted (url : JSValue) (pairs : Option FormPairs) : Submission :=
  match pairs.bind encodePairs with
  | some pairs => .options url pairs
  | none => .nothing

/-- `connect`, from when the page is disconnected and the options have passed
`validate_form_data`.  Members that are set on a number or on an array are not posted. -/
def connect : List JSValue → Submission
  | [] | .undefined :: _ => .form
  | .null :: _ => .nothing
  | .bool _ :: _ | .number _ :: _ => .options .undefined []
  | .array elements :: _ => submitted .undefined (paramElements elements)
  | .object fields :: _ =>
      submitted ((JSValue.object fields).get "url")
        (paramFields (context.members eventOrigin fields))
  | .string hostname :: rest =>
      let fields := (parameters.map JSString.ofString).zip
        (.string hostname :: rest ++ List.replicate 6 .undefined)
      submitted .undefined (paramFields (context.members eventOrigin fields))

end FormContext

/-- `event.origin`: the serialization of an origin, or `null`. -/
structure EventOrigin where
  text : List Char
  filled : text ≠ []
  visible : ∀ char ∈ text, '!' ≤ char ∧ char ≤ '~'

/-- The arguments in a message: an array of JSON or one value, or else the parts of the text. -/
def messageArguments (data : JSString) : Option JSValue → List JSValue
  | some (.array elements) => elements
  | some value => [value]
  | none => (JSString.split '|' data).map .string

/-- What calls `connect`: a message, of which JSON makes a value or nothing, or something in the
page.  `passes` tells whether the page is disconnected and `validate_form_data` lets the options
pass without throwing. -/
inductive ConnectCall where
  | message (origin : EventOrigin) (data : JSString) (json : Option JSValue) (passes : Bool)
  | page (args : List JSValue) (passes : Bool)

/-- `connect`, when it gets as far as to submit something. -/
def submit (context : FormContext) (eventOrigin : Option (List Char)) (args : List JSValue)
    (passes : Bool) : Submission :=
  if passes then context.connect eventOrigin args else .nothing

/-- One call, with `event_origin` before and after it. -/
def callConnect (context : FormContext) (eventOrigin : Option (List Char)) :
    ConnectCall → Option (Option (List Char) × Submission)
  | .message origin data json passes =>
      some (none, submit context (some origin.text) (messageArguments data json) passes)
  | .page args passes => some (eventOrigin, submit context eventOrigin args passes)

/-- The page, as far as it keeps the origin of a message. -/
def embedded (context : FormContext) :
    Reactor (Option (List Char)) ConnectCall Submission where
  initial := none
  react := callConnect context

/-- A name has one value, however often it occurs. -/
structure Sole {Name Value : Type} (name : Name) (value : Value) (pairs : List (Name × Value)) :
    Prop where
  present : ∃ pair ∈ pairs, pair.1 = name
  only : ∀ pair ∈ pairs, pair.1 = name → pair.2 = value

theorem sole_setMember (name : String) (value : JSValue) (fields : List (JSString × JSValue)) :
    Sole (JSString.ofString name) value (setMember name value fields) := by
  rw [setMember]
  split
  · rename_i present
    obtain ⟨field, member, same⟩ := List.any_eq_true.mp present
    constructor
    · refine ⟨_, List.mem_map_of_mem member, ?_⟩
      split <;> exact of_decide_eq_true same
    · intro pair member same
      obtain ⟨old, _, rfl⟩ := List.mem_map.mp member
      split
      · rfl
      · rename_i other
        rw [if_neg other] at same
        exact absurd same other
  · rename_i absent
    constructor
    · exact ⟨_, List.mem_append_right _ (List.mem_singleton_self _), rfl⟩
    · intro pair member same
      rcases List.mem_append.mp member with old | new
      · refine absurd (List.any_eq_true.mpr ⟨pair, old, decide_eq_true same⟩) absent
      · rw [List.mem_singleton.mp new]

/-- A name, or that of a member of what it names. -/
def Under (name key : JSString) : Prop :=
  key = name ∨ ∃ rest, key = name ++ UInt16.ofNat '['.toNat :: rest

theorem Under.of_member {name member key : JSString} (under : Under (memberName name member) key) :
    Under name key := by
  have bracket : memberName name member = name ++ UInt16.ofNat '['.toNat ::
      (member ++ JSString.ofString "]") := by
    rw [memberName, List.append_assoc, List.append_assoc]
    rfl
  rcases under with rfl | ⟨rest, rfl⟩
  · exact .inr ⟨_, bracket⟩
  · rw [bracket, List.append_assoc]
    exact .inr ⟨_, rfl⟩

theorem addPair_under {name : JSString} {value : JSValue} {pairs : FormPairs}
    (added : addPair name value = some pairs) : ∀ pair ∈ pairs, pair.1 = name := by
  unfold addPair at added
  split at added
  · cases added
    exact List.forall_mem_singleton.mpr rfl
  · cases added
    exact List.forall_mem_singleton.mpr rfl
  · obtain ⟨text, _, rfl⟩ := Option.map_eq_some_iff.mp added
    exact List.forall_mem_singleton.mpr rfl

mutual

theorem buildParams_under {name : JSString} :
    (value : JSValue) → {pairs : FormPairs} → buildParams name value = some pairs →
      ∀ pair ∈ pairs, Under name pair.1
  | .array elements, pairs, built => by
      rw [buildParams] at built
      exact buildElements_under elements 0 built
  | .object fields, pairs, built => by
      rw [buildParams] at built
      exact buildFields_under fields built
  | .undefined, pairs, built => by
      rw [buildParams] at built
      exact fun pair member => .inl (addPair_under built pair member)
  | .null, pairs, built => by
      rw [buildParams] at built
      exact fun pair member => .inl (addPair_under built pair member)
  | .bool _, pairs, built => by
      rw [buildParams] at built
      exact fun pair member => .inl (addPair_under built pair member)
  | .number _, pairs, built => by
      rw [buildParams] at built
      exact fun pair member => .inl (addPair_under built pair member)
  | .string _, pairs, built => by
      rw [buildParams] at built
      exact fun pair member => .inl (addPair_under built pair member)

theorem buildElements_under {name : JSString} :
    (elements : List JSValue) → (index : Nat) → {pairs : FormPairs} →
      buildElements name index elements = some pairs → ∀ pair ∈ pairs, Under name pair.1
  | [], index, pairs, built => by
      rw [buildElements] at built
      cases built
      exact nofun
  | element :: rest, index, pairs, built => by
      rw [buildElements] at built
      obtain ⟨first, here, built⟩ := Option.bind_eq_some_iff.mp built
      obtain ⟨others, there, rfl⟩ := Option.map_eq_some_iff.mp built
      intro pair member
      rcases List.mem_append.mp member with inFirst | inOthers
      · split at here
        · exact .inl (addPair_under here pair inFirst)
        · exact (buildParams_under element here pair inFirst).of_member
      · exact buildElements_under rest (index + 1) there pair inOthers

theorem buildFields_under {name : JSString} :
    (fields : List (JSString × JSValue)) → {pairs : FormPairs} →
      buildFields name fields = some pairs → ∀ pair ∈ pairs, Under name pair.1
  | [], pairs, built => by
      rw [buildFields] at built
      cases built
      exact nofun
  | (member', value) :: rest, pairs, built => by
      rw [buildFields] at built
      obtain ⟨first, here, built⟩ := Option.bind_eq_some_iff.mp built
      obtain ⟨others, there, rfl⟩ := Option.map_eq_some_iff.mp built
      intro pair member
      rcases List.mem_append.mp member with inFirst | inOthers
      · split at here
        · cases here
          cases inFirst
        · exact (buildParams_under value here pair inFirst).of_member
      · exact buildFields_under rest there pair inOthers

end

/-- The values that are read are those of the items. -/
theorem mem_of_mapM {Item Value : Type} {read : Item → Option Value} {items : List Item}
    {values : List Value} (all : items.mapM read = some values) {value : Value} :
    value ∈ values ↔ ∃ item ∈ items, read item = some value := by
  induction items generalizing values with
  | nil =>
      cases all
      simp
  | cons item rest ih =>
      rw [List.mapM_cons] at all
      obtain ⟨first, here, all⟩ := Option.bind_eq_some_iff.mp all
      obtain ⟨others, found, all⟩ := Option.bind_eq_some_iff.mp all
      cases all
      rw [List.mem_cons, ih found, List.exists_mem_cons_iff, here, Option.some.injEq, eq_comm]

/-- What is posted under a name without brackets is the member of that name. -/
theorem Sole.paramFields {name : String} {text : JSString} {fields : List (JSString × JSValue)}
    (plain : UInt16.ofNat '['.toNat ∉ JSString.ofString name)
    (other : JSString.ofString name ≠ proto)
    (sole : Sole (JSString.ofString name) (.string text) fields) {pairs : FormPairs}
    (posted : Connecting.paramFields fields = some pairs) :
    Sole (JSString.ofString name) text pairs := by
  obtain ⟨built, all, rfl⟩ := Option.map_eq_some_iff.mp posted
  constructor
  · obtain ⟨field, member, same⟩ := sole.present
    have string : buildParams field.1 field.2 = some [(JSString.ofString name, text)] := by
      rw [sole.only field member same, buildParams, same]
      rfl
    have kept : field ∈ fields.filter (·.1 ≠ proto) := by
      refine List.mem_filter.mpr ⟨member, decide_eq_true ?_⟩
      rw [same]
      exact other
    refine ⟨_, List.mem_flatten_of_mem ((mem_of_mapM all).mpr ⟨field, kept, string⟩)
      (List.mem_singleton_self _), rfl⟩
  · intro pair member same
    obtain ⟨first, inBuilt, inFirst⟩ := List.mem_flatten.mp member
    obtain ⟨field, kept, found⟩ := (mem_of_mapM all).mp inBuilt
    have within := (List.mem_filter.mp kept).1
    rcases buildParams_under field.2 found pair inFirst with here | ⟨rest, below⟩
    · rw [sole.only field within (here.symm.trans same), buildParams] at found
      cases found
      rw [List.mem_singleton.mp inFirst]
    · -- the name of a member of something has a bracket
      rw [same] at below
      refine absurd ?_ plain
      rw [below]
      exact List.mem_append_right _ List.mem_cons_self

theorem Sole.encodePairs {name : String} {text : List Char} {pairs : FormPairs}
    (sole : Sole (JSString.ofString name) (JSString.ofText text) pairs)
    {encoded : List (List Char × List Char)}
    (posted : Connecting.encodePairs pairs = some encoded) : Sole name.toList text encoded := by
  constructor
  · obtain ⟨pair, member, same⟩ := sole.present
    refine ⟨(name.toList, text), (mem_of_mapM posted).mpr ⟨pair, member, ?_⟩, rfl⟩
    rw [same, sole.only pair member same, JSString.ofString, JSString.characters_ofText,
      JSString.characters_ofText]
    rfl
  · intro read member same
    obtain ⟨pair, within, found⟩ := (mem_of_mapM posted).mp member
    obtain ⟨key, first, found⟩ := Option.bind_eq_some_iff.mp found
    obtain ⟨value, second, rfl⟩ := Option.map_eq_some_iff.mp found
    have named : pair.1 = JSString.ofString name := by
      rw [← JSString.ofText_of_characters first, JSString.ofString]
      exact congrArg JSString.ofText same
    rw [sole.only pair within named, JSString.characters_ofText] at second
    exact (Option.some.inj second).symm

theorem Sole.parse {name : String} {text : List Char} {pairs : List (List Char × List Char)}
    (sole : Sole name.toList text pairs) :
    Sole (Percent.bytesOf name.toList) (Percent.bytesOf text)
      (Percent.parse (Percent.serialize pairs)) := by
  obtain ⟨⟨pair, member, same⟩, only⟩ := sole
  rw [Percent.parse_serialize]
  constructor
  · exact ⟨_, List.mem_map_of_mem member, congrArg Percent.bytesOf same⟩
  · intro read inside same
    obtain ⟨other, within, rfl⟩ := List.mem_map.mp inside
    exact congrArg Percent.bytesOf (only other within (Percent.bytesOf_injective same))

/-- The server takes the value of the form, whatever the URL says. -/
theorem Sole.argument {name : String} {text : List Char}
    {query body : List (List UInt8 × List UInt8)} {default : Option (List Char)}
    {value : List Char}
    (sole : Sole (Percent.bytesOf name.toList) (Percent.bytesOf text) body)
    (read : getArgument (query ++ body) name default = .ok value) : value = clean text := by
  obtain ⟨values, all, returned⟩ := bind_eq_ok read
  rw [List.filter_append, List.mapM_append] at all
  obtain ⟨front, _, all⟩ := bind_eq_ok all
  obtain ⟨own, found, all⟩ := bind_eq_ok all
  cases all
  obtain ⟨pair, member, same⟩ := sole.present
  have filled : own ≠ [] := by
    intro empty
    subst empty
    have within : pair ∈ body.filter fun argument =>
        argument.1 = Percent.bytesOf name.toList :=
      List.mem_filter.mpr ⟨member, decide_eq_true same⟩
    cases kept : body.filter fun argument => argument.1 = Percent.bytesOf name.toList with
    | nil =>
        rw [kept] at within
        cases within
    | cons first rest =>
        rw [kept, List.mapM_cons] at found
        obtain ⟨value, _, found⟩ := bind_eq_ok found
        obtain ⟨others, _, found⟩ := bind_eq_ok found
        cases found
  have last : own.getLast filled = clean text := by
    obtain ⟨item, inside, value⟩ := exists_of_mapM found _ (List.getLast_mem filled)
    obtain ⟨within, named⟩ := List.mem_filter.mp inside
    rw [sole.only item within (of_decide_eq_true named), Percent.textOf_bytesOf] at value
    exact (Except.ok.inj value).symm
  rw [List.getLast?_append_of_ne_nil _ filled, List.getLast?_eq_some_getLast filled,
    last] at returned
  exact (Except.ok.inj returned).symm

/-- The members of the first argument are posted: it is a string, or an object. -/
def HasMembers (args : List JSValue) : Prop :=
  (∃ hostname rest, args = .string hostname :: rest) ∨ ∃ fields rest, args = .object fields :: rest

/-- What a call submits, with the origin of its own message and of no other. -/
def ConnectCall.submission (context : FormContext) : ConnectCall → Submission
  | .message origin data json passes =>
      submit context (some origin.text) (messageArguments data json) passes
  | .page args passes => submit context none args passes

section Page

variable {context : FormContext} {origin : List Char} {args : List JSValue} {url : JSValue}
  {pairs : List (List Char × List Char)}

theorem submitted_eq {built : Option FormPairs} {given : JSValue}
    (submitted : FormContext.submitted given built = .options url pairs) :
    ∃ raw, built = some raw ∧ encodePairs raw = some pairs := by
  rw [FormContext.submitted] at submitted
  split at submitted
  · rename_i encoded found
    cases submitted
    exact Option.bind_eq_some_iff.mp found
  · cases submitted

/-- The origin of a message is the one `_origin` that is posted. -/
theorem sole_members {fields : List (JSString × JSValue)} {given : JSValue}
    (submitted : FormContext.submitted given
      (paramFields (context.members (some origin) fields)) = .options url pairs) :
    Sole "_origin".toList origin pairs := by
  obtain ⟨raw, built, encoded⟩ := submitted_eq submitted
  have set : Sole (JSString.ofString "_origin") (.string (JSString.ofText origin))
      (context.members (some origin) fields) := sole_setMember _ _ _
  exact (set.paramFields (by decide) (by decide) built).encodePairs encoded

theorem sole_of_connect (members : HasMembers args)
    (submitted : context.connect (some origin) args = .options url pairs) :
    Sole "_origin".toList origin pairs := by
  rcases members with ⟨hostname, rest, rfl⟩ | ⟨fields, rest, rfl⟩
  · rw [FormContext.connect] at submitted
    exact sole_members submitted
  · rw [FormContext.connect] at submitted
    exact sole_members submitted

/-- A field with its value, as an element of an array. -/
def fieldElement (field : List Char × List Char) : JSValue :=
  .object [(JSString.ofString "name", .string (JSString.ofText field.1)),
    (JSString.ofString "value", .string (JSString.ofText field.2))]

theorem paramElements_fields (fields : List (List Char × List Char)) :
    paramElements (fields.map fieldElement) =
      some (fields.map fun field => (JSString.ofText field.1, JSString.ofText field.2)) := by
  have each : (fields.map fieldElement).mapM paramElement =
      some (fields.map fun field => [(JSString.ofText field.1, JSString.ofText field.2)]) := by
    induction fields with
    | nil => rfl
    | cons field rest ih =>
        rw [List.map_cons, List.mapM_cons, ih]
        rfl
  rw [paramElements, each]
  exact congrArg some List.map_eq_flatMap.symm

theorem encodePairs_fields (fields : List (List Char × List Char)) :
    encodePairs (fields.map fun field => (JSString.ofText field.1, JSString.ofText field.2)) =
      some fields := by
  rw [encodePairs]
  induction fields with
  | nil => rfl
  | cons field rest ih =>
      rw [List.map_cons, List.mapM_cons, ih, JSString.characters_ofText, JSString.characters_ofText]
      rfl

/-- An array is posted as the fields that it lists, whatever the origin of the message. -/
theorem connect_array (eventOrigin : Option (List Char)) (fields : List (List Char × List Char))
    (rest : List JSValue) :
    context.connect eventOrigin (.array (fields.map fieldElement) :: rest) =
      .options .undefined fields := by
  rw [FormContext.connect, paramElements_fields, FormContext.submitted, Option.bind_some,
    encodePairs_fields]

/-- Outside of messages there is no origin, and each call submits what is its own. -/
theorem submissions_of_traces {guard : Option (List Char) → ConnectCall → Prop}
    {calls : List (ConnectCall × Submission)} {eventOrigin : Option (List Char)}
    (traces : (embedded context).Traces guard calls eventOrigin) :
    eventOrigin = none ∧ ∀ record ∈ calls, record.2 = record.1.submission context := by
  apply traces.invariant
  · exact ⟨rfl, List.forall_mem_nil _⟩
  · rintro _ _ after call submission _ ⟨rfl, every⟩ _ called
    refine ⟨?_, List.forall_mem_append.mpr ⟨every, List.forall_mem_singleton.mpr ?_⟩⟩
    · cases call <;> cases called <;> rfl
    · cases call <;> cases called <;> rfl

end Page

/-! ## What the server makes of it -/

section Server

variable {data : UnicodeData} {self : IndexHandler} {request : PostRequest}

/-- The origin in the form is looked at first. -/
theorem checkOrigin_of_event {event : PyString} (filled : event ≠ [])
    (argument : IndexHandler.argument request "_origin" = .ok event)
    (rejects : self.Rejects data request.host event) :
    self.checkOrigin data request = .error .crossOrigin := by
  rw [IndexHandler.checkOrigin, argument]
  change (if (if event ≠ [] then event else request.origin.getD []) = [] then _ else _) = _
  rw [if_pos filled, if_neg filled, rejects]
  rfl

theorem EventOrigin.clean (origin : EventOrigin) : WebSSH.clean origin.text = origin.text := by
  have plain : ∀ char ∈ origin.text, isControl char = false ∧ isStripped char = false := by
    intro char member
    obtain ⟨least, most⟩ := origin.visible char member
    have low : 0x21 ≤ char.toNat := least
    have high : char.toNat ≤ 0x7E := most
    constructor
    · simp only [isControl, Bool.or_eq_false_iff, Bool.and_eq_false_iff, decide_eq_false_iff_not]
      omega
    · simp only [isStripped, List.mem_cons, List.not_mem_nil, or_false, Bool.or_eq_false_iff,
        Bool.and_eq_false_iff, decide_eq_false_iff_not]
      omega
  rw [clean_eq_iff]
  exact ⟨fun char member => (plain char member).1,
    trimmed_of_forall fun char member => (plain char member).2⟩

theorem post_of_event {Args : Type} {origin : EventOrigin} {query : List (List UInt8 × List UInt8)}
    {pairs : List (List Char × List Char)} (getArgs : PostRequest → Except PostError Args)
    (sole : Sole "_origin".toList origin.text pairs)
    (posted : request.arguments = query ++ Percent.parse (Percent.serialize pairs))
    (rejects : self.Rejects data request.host (symbols origin.text)) :
    ∃ error, (self.post data request getArgs).result = .error error ∧
      error.status ∈ [400, 403, 429] := by
  rw [IndexHandler.post, checkLimits_of_debug (debug_of_rejects rejects)]
  split_ifs
  · exact ⟨_, rfl, by decide⟩
  · dsimp only
    cases read : IndexHandler.argument request "_origin" with
    | error reason =>
        rw [IndexHandler.checkOrigin, read]
        rw [IndexHandler.argument] at read
        split at read
        · cases read
        · cases read
          exact ⟨_, rfl, List.mem_cons_self⟩
    | ok event =>
        have sent : event = symbols origin.text := by
          rw [IndexHandler.argument, posted] at read
          split at read
          · rename_i value found
            cases read
            rw [sole.parse.argument found, origin.clean]
            rfl
          · cases read
        rw [checkOrigin_of_event ?_ read (sent ▸ rejects)]
        · exact ⟨_, rfl, by decide⟩
        · rw [sent]
          exact fun empty => origin.filled (List.map_eq_nil_iff.mp empty)

end Server

/-- In every run of the page: what a message submits with a string or an object as its first
argument is refused by the server if the policy rejects the origin of that message, whatever the
message and the URL say about an origin.  A message with an array is posted as it says.  Nothing
that is submitted outside of messages has the origin of one. -/
theorem message_refused {context : FormContext}
    {guard : Option (List Char) → ConnectCall → Prop} {calls : List (ConnectCall × Submission)}
    {eventOrigin : Option (List Char)}
    (traces : (embedded context).Traces guard calls eventOrigin) :
    (∀ origin data json passes url pairs,
      (.message origin data json passes, .options url pairs) ∈ calls →
      HasMembers (messageArguments data json) →
      ∀ (unicode : UnicodeData) (self : IndexHandler) (request : PostRequest)
        (query : List (List UInt8 × List UInt8)) (Args : Type)
        (getArgs : PostRequest → Except PostError Args),
      request.arguments = query ++ Percent.parse (Percent.serialize pairs) →
      self.Rejects unicode request.host (symbols origin.text) →
      ∃ error, (self.post unicode request getArgs).result = .error error ∧
        error.status ∈ [400, 403, 429]) ∧
    (∀ origin data fields rest submission,
      (.message origin data (some (.array (.array (fields.map fieldElement) :: rest))) true,
        submission) ∈ calls → submission = .options .undefined fields) ∧
    ∀ args passes submission, (.page args passes, submission) ∈ calls →
      submission = submit context none args passes := by
  obtain ⟨_, every⟩ := submissions_of_traces traces
  refine ⟨?_, ?_, ?_⟩
  · intro origin data json passes url pairs member members unicode self request query Args getArgs
      posted rejects
    have submitted : Submission.options url pairs =
        submit context (some origin.text) (messageArguments data json) passes := every _ member
    rw [submit] at submitted
    split at submitted
    · exact post_of_event getArgs (sole_of_connect members submitted.symm) posted rejects
    · cases submitted
  · intro origin data fields rest submission member
    have submitted : submission = submit context (some origin.text)
        (.array (fields.map fieldElement) :: rest) true := every _ member
    rw [submitted, submit, if_pos rfl, connect_array]
  · exact fun args passes submission member => every _ member

/-- The terminal at `t` may be embedded in pages of `http://a`, and gets a message from a page of
`http://b` that claims to be one of these. -/
theorem message_refused_example :
    ∃ pairs, ("_origin".toList, "http://b".toList) ∈ pairs ∧
      ∃ error, (IndexHandler.post .ascii ⟨false, .origins [PyString.ofText "http://a"], 1, nofun⟩
        ⟨Percent.parse (Percent.serialize pairs), some (PyString.ofText "t"),
          some (PyString.ofText "http://t"), 0⟩ fun _ => Except.ok ()).result = .error error ∧
        error.status ∈ [400, 403, 429] := by
  have traces : (embedded ⟨JSString.ofString "xterm", []⟩).Traces (fun _ _ => True)
      [(.message ⟨"http://b".toList, by decide, List.all_iff_forall_prop.mp (by decide)⟩ []
          (some (.object [(JSString.ofString "hostname", .string (JSString.ofString "h")),
            (JSString.ofString "_origin", .string (JSString.ofString "http://a"))])) true,
        .options .undefined [("hostname".toList, ['h']), ("_origin".toList, "http://b".toList),
          ("port".toList, []), ("username".toList, []), ("password".toList, []),
          ("totp".toList, []), ("privatekey".toList, []), ("passphrase".toList, []),
          ("term".toList, "xterm".toList), ("_xsrf".toList, [])])] none :=
    Reactor.Traces.start.next trivial rfl
  refine ⟨_, ?_, (message_refused traces).1 _ _ _ _ _ _ (List.mem_singleton_self _)
    (.inr ⟨_, _, rfl⟩) .ascii _ _ [] Unit (fun _ => Except.ok ()) rfl ?_⟩
  · decide
  · decide

end CloudRunSsh.WebSSH.Connecting
