import Mathlib.Data.List.Basic
import Mathlib.Data.Option.Basic

/-!
# Host keys

`AutoAddPolicy` asks the store of the system and the store of the user for the key of a host,
and adds a key that is missing to the user's store and to its file.  All clients share the
stores, and a lock lets one call in at a time.
-/

namespace CloudRunSsh.WebSSH

/-- `paramiko.hostkeys.HostKeyEntry`. -/
structure HostKeyEntry (Key : Type) where
  hostnames : List (List Char)
  key : Key
  deriving DecidableEq, Repr

/-- What the policy uses of paramiko.  The equality of `Key` is the equality of its keys. -/
structure Paramiko (Key : Type) where
  getName : Key → List Char
  getBase64 : Key → List Char
  /-- The entry is for the host. -/
  covers : HostKeyEntry Key → List Char → Bool
  /-- `HostKeys.lookup`: a dictionary from key types to the keys of the entries for a host,
  or `None` if there is no entry.  A dictionary is true, as it is not empty. -/
  lookup : List (HostKeyEntry Key) → List Char → Option (List Char → Option Key)
  lookup_eq_none (entries : List (HostKeyEntry Key)) (hostname : List Char) :
    lookup entries hostname = none ↔ ∀ entry ∈ entries, covers entry hostname = false
  get_eq_none {entries : List (HostKeyEntry Key)} {hostname : List Char}
    {get : List Char → Option Key} (found : lookup entries hostname = some get)
    (keytype : List Char) :
    get keytype = none ↔
      ∀ entry ∈ entries, covers entry hostname = true → getName entry.key ≠ keytype
  get_eq_some {entries : List (HostKeyEntry Key)} {hostname : List Char}
    {get : List Char → Option Key} (found : lookup entries hostname = some get)
    {keytype : List Char} {key : Key} (listed : get keytype = some key) :
    getName key = keytype ∧ ∃ entry ∈ entries, covers entry hostname = true ∧ entry.key = key

/-- The stores of a client, and the file that the user's store is kept in. -/
structure Client (Key : Type) where
  systemHostKeys : List (HostKeyEntry Key)
  hostKeys : List (HostKeyEntry Key)
  hostKeysFile : List Char
  deriving DecidableEq, Repr

/-- What becomes of opening and writing the file. -/
inductive Disk where
  | works
  | failsToOpen
  | failsAfter (count : Nat)
  deriving DecidableEq, Repr

/-- What `missing_host_key` raises. -/
inductive PolicyError (Key : Type) where
  | badHostKey (hostname : List Char) (key expected : Key)
  | ioError
  deriving DecidableEq, Repr

/-- A call of `missing_host_key`. -/
structure Call (Key : Type) where
  hostname : List Char
  key : Key
  disk : Disk
  deriving DecidableEq, Repr

/-- The client after a call, and what the call raises. -/
structure Answered (Key : Type) where
  client : Client Key
  raised : Option (PolicyError Key)
  deriving DecidableEq, Repr

section Stores

variable {Key : Type} (paramiko : Paramiko Key)

/-- The dictionary of the store that is consulted. -/
def consulted (client : Client Key) (hostname : List Char) : Option (List Char → Option Key) :=
  paramiko.lookup client.systemHostKeys hostname <|> paramiko.lookup client.hostKeys hostname

/-- The key of the presented key's type in the store that is consulted. -/
def recordedKey (client : Client Key) (call : Call Key) : Option Key :=
  (consulted paramiko client call.hostname).bind fun get => get (paramiko.getName call.key)

/-- `'{} {} {}\n'.format(hostname, keytype, key.get_base64())`. -/
def hostKeyLine (hostname : List Char) (key : Key) : List Char :=
  hostname ++ ' ' :: paramiko.getName key ++ ' ' :: paramiko.getBase64 key ++ ['\n']

/-- `AutoAddPolicy.missing_host_key` from the log message on. -/
def addHostKey (client : Client Key) (call : Call Key) : Answered Key :=
  -- the entry is in memory before the file is opened
  let added := { client with hostKeys := client.hostKeys ++ [⟨[call.hostname], call.key⟩] }
  let line := hostKeyLine paramiko call.hostname call.key
  match call.disk with
  | .works => ⟨{ added with hostKeysFile := client.hostKeysFile ++ line }, none⟩
  | .failsToOpen => ⟨added, some .ioError⟩
  | .failsAfter count =>
      ⟨{ added with hostKeysFile := client.hostKeysFile ++ line.take count }, some .ioError⟩

theorem hostKeys_addHostKey (client : Client Key) (call : Call Key) :
    (addHostKey paramiko client call).client.hostKeys =
      client.hostKeys ++ [⟨[call.hostname], call.key⟩] := by
  rw [addHostKey]
  cases call.disk with
  | works => rfl
  | failsToOpen => rfl
  | failsAfter count => rfl

theorem addHostKey_works {client : Client Key} {call : Call Key} (works : call.disk = .works) :
    addHostKey paramiko client call =
      ⟨{ client with
          hostKeys := client.hostKeys ++ [⟨[call.hostname], call.key⟩]
          hostKeysFile := client.hostKeysFile ++ hostKeyLine paramiko call.hostname call.key },
        none⟩ := by
  rw [addHostKey, works]

theorem raised_addHostKey_of_broken {client : Client Key} {call : Call Key}
    (broken : call.disk ≠ .works) : (addHostKey paramiko client call).raised ≠ none := by
  rw [addHostKey]
  cases disk : call.disk with
  | works => exact absurd disk broken
  | failsToOpen => exact Option.some_ne_none _
  | failsAfter count => exact Option.some_ne_none _

theorem raised_addHostKey (client : Client Key) (call : Call Key) (expected : Key) :
    (addHostKey paramiko client call).raised ≠
      some (.badHostKey call.hostname call.key expected) := by
  rw [addHostKey]
  cases call.disk with
  | works => exact fun same => nomatch same
  | failsToOpen => exact fun same => nomatch same
  | failsAfter count => exact fun same => nomatch same

/-- A store records a key for a host. -/
def Records (entries : List (HostKeyEntry Key)) (hostname : List Char) (key : Key) : Prop :=
  ∃ entry ∈ entries, paramiko.covers entry hostname = true ∧ entry.key = key

/-- One of the stores records the key for the host of a call. -/
def Known (client : Client Key) (call : Call Key) (key : Key) : Prop :=
  Records paramiko client.systemHostKeys call.hostname key ∨
    Records paramiko client.hostKeys call.hostname key

/-- One of the stores records a key of the type for the host. -/
def TypeKnown (client : Client Key) (call : Call Key) : Prop :=
  ∃ key, Known paramiko client call key ∧ paramiko.getName key = paramiko.getName call.key

/-- One of the stores records a key of the type for the host that is not the presented one. -/
def Changed (client : Client Key) (call : Call Key) : Prop :=
  ∃ key, Known paramiko client call key ∧
    paramiko.getName key = paramiko.getName call.key ∧ key ≠ call.key

/-- The system's store knows the host by other types of keys only, and hides a key of the type
in the user's store. -/
def Shadowed (client : Client Key) (call : Call Key) : Prop :=
  (∃ get, paramiko.lookup client.systemHostKeys call.hostname = some get ∧
    get (paramiko.getName call.key) = none) ∧
    ∃ key, Records paramiko client.hostKeys call.hostname key ∧
      paramiko.getName key = paramiko.getName call.key

variable {paramiko} {entries : List (HostKeyEntry Key)} {hostname : List Char}
variable {client : Client Key} {call : Call Key}

theorem Changed.typeKnown (changed : Changed paramiko client call) :
    TypeKnown paramiko client call := by
  obtain ⟨key, known, same, _⟩ := changed
  exact ⟨key, known, same⟩

theorem Shadowed.typeKnown (shadowed : Shadowed paramiko client call) :
    TypeKnown paramiko client call := by
  obtain ⟨_, key, recorded, same⟩ := shadowed
  exact ⟨key, .inr recorded, same⟩

theorem not_records_of_lookup (unknown : paramiko.lookup entries hostname = none) (key : Key) :
    ¬Records paramiko entries hostname key := by
  rintro ⟨entry, member, covered, _⟩
  have apart := (paramiko.lookup_eq_none entries hostname).mp unknown entry member
  rw [apart] at covered
  cases covered

theorem not_records_of_get {get : List Char → Option Key} {key : Key}
    (found : paramiko.lookup entries hostname = some get)
    (none : get (paramiko.getName key) = none) : ¬Records paramiko entries hostname key := by
  rintro ⟨entry, member, covered, rfl⟩
  exact (paramiko.get_eq_none found _).mp none entry member covered rfl

theorem records_of_get {get : List Char → Option Key} {keytype : List Char} {key : Key}
    (found : paramiko.lookup entries hostname = some get) (listed : get keytype = some key) :
    Records paramiko entries hostname key :=
  (paramiko.get_eq_some found listed).2

/-- A key type that is recorded but not found is hidden. -/
theorem shadowed_of_typeKnown (unfound : recordedKey paramiko client call = none)
    (known : TypeKnown paramiko client call) : Shadowed paramiko client call := by
  obtain ⟨key, recorded, same⟩ := known
  rw [recordedKey, consulted] at unfound
  cases system : paramiko.lookup client.systemHostKeys call.hostname with
  | some get =>
      rw [system] at unfound
      have missing : get (paramiko.getName call.key) = none := unfound
      refine ⟨⟨get, system, missing⟩, key, ?_, same⟩
      exact recorded.resolve_left (not_records_of_get system (same ▸ missing))
  | none =>
      -- the system's store records nothing, and the user's store has no key of the type
      have user := recorded.resolve_left (not_records_of_lookup system key)
      rw [system] at unfound
      cases found : paramiko.lookup client.hostKeys call.hostname with
      | none => exact absurd user (not_records_of_lookup found key)
      | some get =>
          rw [found] at unfound
          have missing : get (paramiko.getName call.key) = none := unfound
          exact absurd user (not_records_of_get found (same ▸ missing))

/-- The key that is found is recorded. -/
theorem known_of_recordedKey {expected : Key}
    (found : recordedKey paramiko client call = some expected) :
    Known paramiko client call expected := by
  obtain ⟨get, chosen, listed⟩ := Option.bind_eq_some_iff.mp found
  rw [consulted] at chosen
  rcases (Option.orElse_eq_some _ _ _).mp chosen with system | ⟨_, user⟩
  · exact .inl (records_of_get system listed)
  · exact .inr (records_of_get user listed)

end Stores

section Policy

variable {Key : Type} [DecidableEq Key] (paramiko : Paramiko Key)

/-- `AutoAddPolicy.is_missing_host_key`, with `None` as `false`. -/
def isMissingHostKey (client : Client Key) (hostname : List Char) (key : Key) :
    Except (PolicyError Key) Bool :=
  match consulted paramiko client hostname with
  | none => .ok true
  | some get =>
      match get (paramiko.getName key) with
      | none => .ok true
      | some hostKey =>
          if hostKey ≠ key then .error (.badHostKey hostname key hostKey) else .ok false

/-- `AutoAddPolicy.missing_host_key`. -/
def missingHostKey (client : Client Key) (call : Call Key) : Answered Key :=
  match isMissingHostKey paramiko client call.hostname call.key with
  | .error exception => ⟨client, some exception⟩
  | .ok false => ⟨client, none⟩
  | .ok true => addHostKey paramiko client call

theorem missingHostKey_none {client : Client Key} {call : Call Key}
    (missing : recordedKey paramiko client call = none) :
    missingHostKey paramiko client call = addHostKey paramiko client call := by
  rw [missingHostKey, isMissingHostKey]
  rw [recordedKey] at missing
  cases found : consulted paramiko client call.hostname with
  | none => rfl
  | some get =>
      rw [found, Option.bind_some] at missing
      dsimp only
      rw [missing]

theorem missingHostKey_some {client : Client Key} {call : Call Key} {expected : Key}
    (known : recordedKey paramiko client call = some expected) :
    missingHostKey paramiko client call =
      ⟨client, if expected = call.key then none
        else some (.badHostKey call.hostname call.key expected)⟩ := by
  rw [missingHostKey, isMissingHostKey]
  rw [recordedKey] at known
  cases found : consulted paramiko client call.hostname with
  | none =>
      rw [found] at known
      cases known
  | some get =>
      rw [found, Option.bind_some] at known
      dsimp only
      rw [known]
      by_cases same : expected = call.key
      · simp [same]
      · simp [same]

/-- Each call of a sequence has a property in the state that the calls before it leave. -/
def EachCall (property : Client Key → Call Key → Prop) : Client Key → List (Call Key) → Prop
  | _, [] => True
  | client, call :: calls =>
      property client call ∧ EachCall property (missingHostKey paramiko client call).client calls

/-- Two properties that agree where an invariant holds agree over whole sequences of calls, if
the first property carries the invariant on. -/
theorem eachCall_congr (invariant : Client Key → Prop)
    {property property' : Client Key → Call Key → Prop}
    (agree : ∀ client call, invariant client → (property client call ↔ property' client call))
    (kept : ∀ client call, invariant client → property client call →
      invariant (missingHostKey paramiko client call).client)
    {client : Client Key} (holds : invariant client) (calls : List (Call Key)) :
    EachCall paramiko property client calls ↔ EachCall paramiko property' client calls := by
  induction calls generalizing client with
  | nil => rfl
  | cons call calls ih =>
      have head := agree client call holds
      constructor
      · rintro ⟨first, rest⟩
        exact ⟨head.mp first, (ih (kept client call holds first)).mp rest⟩
      · rintro ⟨first, rest⟩
        have first' := head.mpr first
        exact ⟨first', (ih (kept client call holds first')).mpr rest⟩

/-- A changed key is refused, and a key is only added for a host and a type that neither store
records. -/
def Guarded (client : Client Key) (call : Call Key) : Prop :=
  (Changed paramiko client call →
    (∃ expected, (missingHostKey paramiko client call).raised =
        some (.badHostKey call.hostname call.key expected)) ∧
      (missingHostKey paramiko client call).client = client) ∧
    (TypeKnown paramiko client call →
      (missingHostKey paramiko client call).client.hostKeys = client.hostKeys)

/-- No key of the type is hidden, and where the presented key is found no other key of the
type is recorded. -/
def Unambiguous (client : Client Key) (call : Call Key) : Prop :=
  ¬Shadowed paramiko client call ∧
    (recordedKey paramiko client call = some call.key → ¬Changed paramiko client call)

/-- A key is only refused for another one of its type that is recorded. -/
theorem known_of_raised {client : Client Key} {call : Call Key} {expected : Key}
    (refused : (missingHostKey paramiko client call).raised =
      some (.badHostKey call.hostname call.key expected)) :
    Known paramiko client call expected ∧ expected ≠ call.key := by
  cases found : recordedKey paramiko client call with
  | none =>
      rw [missingHostKey_none paramiko found] at refused
      exact absurd refused (raised_addHostKey paramiko client call expected)
  | some key =>
      rw [missingHostKey_some paramiko found] at refused
      obtain ⟨different, same⟩ := Option.ite_none_left_eq_some.mp refused
      cases same
      exact ⟨known_of_recordedKey found, different⟩

/-- What one call needs. -/
theorem guarded_iff (client : Client Key) (call : Call Key) :
    Guarded paramiko client call ↔ Unambiguous paramiko client call := by
  cases found : recordedKey paramiko client call with
  | none =>
      have added : (missingHostKey paramiko client call).client.hostKeys ≠ client.hostKeys := by
        rw [missingHostKey_none paramiko found, hostKeys_addHostKey]
        exact fun same => absurd (List.append_right_eq_self.mp same) (List.cons_ne_nil _ _)
      constructor
      · rintro ⟨_, fresh⟩
        exact ⟨fun shadowed => added (fresh shadowed.typeKnown),
          fun same => nomatch found.symm.trans same⟩
      · rintro ⟨unhidden, _⟩
        have fresh : ¬TypeKnown paramiko client call :=
          fun known => unhidden (shadowed_of_typeKnown found known)
        exact ⟨fun changed => absurd changed.typeKnown fresh, fun known => absurd known fresh⟩
  | some expected =>
      have unhidden : ¬Shadowed paramiko client call := by
        rintro ⟨⟨get, system, missing⟩, _⟩
        rw [recordedKey, consulted, system] at found
        exact absurd (missing.symm.trans found) (Option.some_ne_none _).symm
      rw [Guarded, Unambiguous, missingHostKey_some paramiko found, found, and_iff_right unhidden]
      by_cases same : expected = call.key
      · subst same
        simp
      · simp [same]

/-- Over any sequence of calls, a changed key is refused and nothing is added twice if and only
if no call meets a hidden key or records that differ. -/
theorem eachCall_guarded_iff (client : Client Key) (calls : List (Call Key)) :
    EachCall paramiko (Guarded paramiko) client calls ↔
      EachCall paramiko (Unambiguous paramiko) client calls :=
  eachCall_congr paramiko (fun _ => True)
    (fun client call _ => guarded_iff paramiko client call) (fun _ _ _ _ => trivial) trivial calls

end Policy

/-- Two keys of one type and a key of another. -/
inductive SampleKey where
  | rsa
  | otherRsa
  | ed25519
  deriving DecidableEq, Repr

namespace SampleKey

def getName : SampleKey → List Char
  | rsa | otherRsa => "ssh-rsa".toList
  | ed25519 => "ssh-ed25519".toList

def getBase64 : SampleKey → List Char
  | rsa => "AAAAB3NzaC1yc2E".toList
  | otherRsa => "AAAAB3NzaC1yc2F".toList
  | ed25519 => "AAAAC3NzaC1lZDI".toList

end SampleKey

/-- The entries for a host by its name, and the first key of each type. -/
def sampleParamiko : Paramiko SampleKey where
  getName := SampleKey.getName
  getBase64 := SampleKey.getBase64
  covers entry hostname := hostname ∈ entry.hostnames
  lookup entries hostname :=
    let found := entries.filter fun entry => hostname ∈ entry.hostnames
    if found = [] then none
    else some fun keytype => (found.map HostKeyEntry.key).find? fun key => key.getName = keytype
  lookup_eq_none entries hostname := by simp
  get_eq_none {entries hostname get} found keytype := by
    obtain ⟨_, same⟩ := Option.ite_none_left_eq_some.mp found
    cases same
    simp
  get_eq_some {entries hostname get} found {keytype key} listed := by
    obtain ⟨_, same⟩ := Option.ite_none_left_eq_some.mp found
    cases same
    have member := List.mem_of_find?_eq_some listed
    simp only [List.mem_map, List.mem_filter] at member
    obtain ⟨entry, ⟨inside, covered⟩, own⟩ := member
    exact ⟨by simpa using List.find?_some listed, entry, inside, covered, own⟩

/-- The system knows the host by a key of another type, so a key is added that differs from the
recorded one. -/
theorem eachCall_guarded_fails :
    ¬∀ client calls, EachCall sampleParamiko (Guarded sampleParamiko) client calls := by
  intro always
  let entry : HostKeyEntry SampleKey := ⟨["host".toList], .rsa⟩
  let call : Call SampleKey := ⟨"host".toList, .otherRsa, .works⟩
  have guarded := (always ⟨[⟨["host".toList], .ed25519⟩], [entry], []⟩ [call]).1
  have recorded : Records sampleParamiko [entry] call.hostname .rsa :=
    ⟨entry, List.mem_singleton_self entry, by decide +kernel, rfl⟩
  have same := guarded.2 ⟨.rsa, .inr recorded, rfl⟩
  exact absurd same (by decide +kernel)

end CloudRunSsh.WebSSH
