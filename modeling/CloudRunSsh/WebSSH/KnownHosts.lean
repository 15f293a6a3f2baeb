import CloudRunSsh.Data.JavaScript
import CloudRunSsh.Data.Lines
import CloudRunSsh.WebSSH.HostKeys

/-!
# The known-hosts file

The file of the user's store has one entry on a line: the names of the host, the type of the
key and the key, separated by blanks.  A name is written as it is, and an entry is in the store
before it is in the file.
-/

namespace CloudRunSsh.WebSSH

/-- `str.isspace`, of one character. -/
def isWhitespace (symbol : Char) : Bool :=
  let code := symbol.toNat
  (9 ≤ code && code ≤ 13) || (28 ≤ code && code ≤ 32) || code == 0x85 || code == 0xA0 ||
    code == 0x1680 || (0x2000 ≤ code && code ≤ 0x200A) || code == 0x2028 || code == 0x2029 ||
    code == 0x202F || code == 0x205F || code == 0x3000

/-- The lines of a file that is opened as text. -/
def isLineEnd (symbol : Char) : Bool := symbol == '\n' || symbol == '\r'

theorem isWhitespace_of_isLineEnd {symbol : Char} (ends : isLineEnd symbol = true) :
    isWhitespace symbol = true := by
  simp only [isLineEnd, Bool.or_eq_true, beq_iff_eq] at ends
  rcases ends with rfl | rfl
  · decide
  · decide

/-- No white space. -/
def Solid (word : List Char) : Prop := ∀ symbol ∈ word, isWhitespace symbol = false

instance (word : List Char) : Decidable (Solid word) := List.decidableBAll _ _

theorem Solid.blank {word : List Char} (solid : Solid word) : ' ' ∉ word :=
  fun member => absurd (solid ' ' member) (by decide)

theorem Solid.lineEnd {word : List Char} (solid : Solid word) :
    ∀ symbol ∈ word, isLineEnd symbol = false :=
  fun symbol member => Bool.eq_false_iff.mpr fun ends =>
    Bool.eq_false_iff.mp (solid symbol member) (isWhitespace_of_isLineEnd ends)

/-- A host name that is one field of a line and one name in it. -/
structure Writable (hostname : List Char) : Prop where
  blank : ' ' ∉ hostname
  lineEnd : ∀ symbol ∈ hostname, isLineEnd symbol = false
  comma : ',' ∉ hostname
  first : ∃ symbol ∈ hostname.head?, isWhitespace symbol = false ∧ symbol ≠ '#'

/-- The names are among those of the first field of a line that is no comment and has two more
fields. -/
def NamesOn (line : List Char) (hostnames : List (List Char)) : Prop :=
  ∃ first more, trimBy isWhitespace line = first ++ ' ' :: more ∧ ' ' ∉ first ∧ ' ' ∈ more ∧
    first.head? ≠ some '#' ∧ hostnames.Sublist (first.splitOn ',')

/-- A name and a key on a line, without its end. -/
def writtenLine {Key : Type} (paramiko : Paramiko Key) (hostname : List Char) (key : Key) :
    List Char :=
  hostname ++ ' ' :: paramiko.getName key ++ ' ' :: paramiko.getBase64 key

/-- `HostKeys.check`: the store gives the key for the host. -/
def Listed {Key : Type} (paramiko : Paramiko Key) (entries : List (HostKeyEntry Key))
    (hostname : List Char) (key : Key) : Prop :=
  ∃ get, paramiko.lookup entries hostname = some get ∧ get (paramiko.getName key) = some key

/-- What `HostKeys.load` of paramiko does with a line, and the texts of keys.  A line adds one
entry at most, with names that are on it, or else it cannot be read, and the file neither.  A
name and a key that were written are read back, unless the entries before give the key
already. -/
structure ParamikoText (Key : Type) extends Paramiko Key where
  addedBy : List (HostKeyEntry Key) → List Char → Option (List (HostKeyEntry Key))
  addedBy_nil (entries : List (HostKeyEntry Key)) : addedBy entries [] = some []
  length_addedBy {entries : List (HostKeyEntry Key)} {line : List Char}
    {added : List (HostKeyEntry Key)} : addedBy entries line = some added → added.length ≤ 1
  names_addedBy {entries : List (HostKeyEntry Key)} {line : List Char}
    {added : List (HostKeyEntry Key)} : addedBy entries line = some added →
      ∀ entry ∈ added, NamesOn line entry.hostnames
  addedBy_new {entries : List (HostKeyEntry Key)} {hostname : List Char} {key : Key} :
    Writable hostname → ¬Listed toParamiko entries hostname key →
      addedBy entries (writtenLine toParamiko hostname key) = some [⟨[hostname], key⟩]
  addedBy_listed {entries : List (HostKeyEntry Key)} {hostname : List Char} {key : Key} :
    Writable hostname → Listed toParamiko entries hostname key →
      addedBy entries (writtenLine toParamiko hostname key) = some []
  solid_name (key : Key) : Solid (getName key)
  solid_base64 (key : Key) : Solid (getBase64 key)

section Text

variable {Key : Type} (paramiko : ParamikoText Key)

/-- The line of an entry. -/
def entryLine (entry : HostKeyEntry Key) : List Char :=
  hostKeyLine paramiko.toParamiko ([','].intercalate entry.hostnames) entry.key

/-- The file of a store. -/
def serialize (store : List (HostKeyEntry Key)) : List Char :=
  store.flatMap (entryLine paramiko)

/-- `HostKeys.load`, with the entries that the store has before. -/
def loadFrom (entries : List (HostKeyEntry Key)) (text : List Char) :
    Option (List (HostKeyEntry Key)) :=
  (text.splitOnP isLineEnd).foldlM
    (fun entries line => (paramiko.addedBy entries line).map (entries ++ ·)) entries

/-- The store of a file. -/
def loadHostKeys (text : List Char) : Option (List (HostKeyEntry Key)) := loadFrom paramiko [] text

variable {paramiko} {entries : List (HostKeyEntry Key)} {text rest : List Char}

theorem loadFrom_line {line : List Char} (single : ∀ symbol ∈ line, isLineEnd symbol = false) :
    loadFrom paramiko entries line = (paramiko.addedBy entries line).map (entries ++ ·) := by
  rw [loadFrom, List.splitOnP_eq_singleton single, List.foldlM_cons]
  exact Option.bind_fun_some _

theorem loadFrom_append : loadFrom paramiko entries (text ++ '\n' :: rest) =
    (loadFrom paramiko entries text).bind fun read => loadFrom paramiko read rest := by
  rw [loadFrom, List.splitOnP_append_cons _ _ (by decide), List.foldlM_append]
  rfl

theorem loadFrom_nil : loadFrom paramiko entries [] = some entries := by
  rw [loadFrom_line (List.forall_mem_nil _), paramiko.addedBy_nil]
  exact congrArg some (List.append_nil entries)

theorem hostKeyLine_eq (paramiko : Paramiko Key) (hostname : List Char) (key : Key) :
    hostKeyLine paramiko hostname key = writtenLine paramiko hostname key ++ ['\n'] := by
  simp [hostKeyLine, writtenLine]

/-- A file of lines is read before what comes after it. -/
theorem loadFrom_serialize_append (store : List (HostKeyEntry Key)) :
    loadFrom paramiko entries (serialize paramiko store ++ rest) =
      (loadFrom paramiko entries (serialize paramiko store)).bind fun read =>
        loadFrom paramiko read rest := by
  induction store generalizing entries with
  | nil =>
      rw [serialize, List.flatMap_nil, loadFrom_nil]
      rfl
  | cons entry store ih =>
      rw [serialize, List.flatMap_cons, ← serialize, entryLine, hostKeyLine_eq,
        List.append_assoc, List.append_assoc, List.append_assoc, List.singleton_append,
        List.singleton_append, loadFrom_append, loadFrom_append, Option.bind_assoc]
      exact congrArg _ (funext fun _ => ih)

theorem serialize_append (store : List (HostKeyEntry Key)) (entry : HostKeyEntry Key) :
    serialize paramiko (store ++ [entry]) =
      serialize paramiko store ++ serialize paramiko [entry] :=
  List.flatMap_append

theorem serialize_singleton (hostname : List Char) (key : Key) :
    serialize paramiko [⟨[hostname], key⟩] =
      hostKeyLine paramiko.toParamiko hostname key := by
  simp [serialize, entryLine]

variable (paramiko) in
/-- The file is the text of the store. -/
def Saved (client : Client Key) : Prop :=
  client.hostKeysFile = serialize paramiko client.hostKeys

/-- What is read is added to the entries, and comes from lines. -/
theorem loadFrom_spec {read : List (HostKeyEntry Key)}
    (loaded : loadFrom paramiko entries text = some read) :
    ∃ added, read = entries ++ added ∧
      ∀ entry ∈ added, ∃ line ∈ text.splitOnP isLineEnd, NamesOn line entry.hostnames := by
  rw [loadFrom] at loaded
  generalize text.splitOnP isLineEnd = lines at loaded ⊢
  induction lines generalizing entries with
  | nil =>
      obtain rfl := Option.some.inj loaded
      exact ⟨[], (List.append_nil _).symm, List.forall_mem_nil _⟩
  | cons line lines ih =>
      rw [List.foldlM_cons] at loaded
      obtain ⟨next, first, later⟩ := Option.bind_eq_some_iff.mp loaded
      obtain ⟨here, added, rfl⟩ := Option.map_eq_some_iff.mp first
      obtain ⟨others, rfl, found⟩ := ih later
      refine ⟨here ++ others, List.append_assoc .., ?_⟩
      intro entry member
      rcases List.mem_append.mp member with inHere | inOthers
      · exact ⟨line, List.mem_cons_self, paramiko.names_addedBy added entry inHere⟩
      · obtain ⟨other, inLines, names⟩ := found entry inOthers
        exact ⟨other, List.mem_cons_of_mem _ inLines, names⟩

/-- The symbols of a name are those of its line. -/
theorem NamesOn.mem {line : List Char} {hostnames : List (List Char)}
    (names : NamesOn line hostnames) {hostname : List Char} (member : hostname ∈ hostnames) :
    ∀ symbol ∈ hostname, symbol ∈ line ∧ symbol ≠ ' ' ∧ symbol ≠ ',' := by
  obtain ⟨first, more, whole, unblank, _, _, sublist⟩ := names
  have apart := sublist.subset member
  rw [List.splitOn_eq_splitOnP] at apart
  intro symbol inside
  obtain ⟨inFirst, other⟩ := LineFormat.not_mem_of_mem_splitOnP apart symbol inside
  have inLine : (trimBy isWhitespace line).Sublist line := trimBy_sublist line
  refine ⟨?_, ?_, ?_⟩
  · apply inLine.subset
    rw [whole]
    exact List.mem_append_left _ inFirst
  · rintro rfl
    exact unblank inFirst
  · rintro rfl
    exact absurd other (by decide)

/-- Names that are read have no line ends. -/
theorem unbroken_of_loadHostKeys {read : List (HostKeyEntry Key)}
    (loaded : loadHostKeys paramiko text = some read) :
    ∀ entry ∈ read, ∀ hostname ∈ entry.hostnames, ∀ symbol ∈ hostname,
      isLineEnd symbol = false := by
  obtain ⟨added, rfl, found⟩ := loadFrom_spec loaded
  intro entry member hostname inNames symbol inside
  obtain ⟨line, inLines, names⟩ := found entry member
  exact (LineFormat.not_mem_of_mem_splitOnP inLines symbol
    (names.mem inNames symbol inside).1).2

theorem unbroken_writtenLine {hostname : List Char} (key : Key)
    (unbroken : ∀ symbol ∈ hostname, isLineEnd symbol = false) :
    ∀ symbol ∈ writtenLine paramiko.toParamiko hostname key, isLineEnd symbol = false := by
  simp only [writtenLine, List.forall_mem_append, List.forall_mem_cons]
  exact ⟨⟨unbroken, by decide, (paramiko.solid_name key).lineEnd⟩, by decide,
    (paramiko.solid_base64 key).lineEnd⟩

/-- A file has no more entries than the store that it was written from, if the names of the
store have no line ends. -/
theorem length_le_of_loadFrom {store read : List (HostKeyEntry Key)}
    (unbroken : ∀ entry ∈ store, ∀ hostname ∈ entry.hostnames, ∀ symbol ∈ hostname,
      isLineEnd symbol = false)
    (loaded : loadFrom paramiko entries (serialize paramiko store) = some read) :
    read.length ≤ entries.length + store.length := by
  induction store generalizing entries with
  | nil =>
      rw [serialize, List.flatMap_nil, loadFrom_nil] at loaded
      rw [Option.some.inj loaded]
      exact Nat.le_refl _
  | cons entry store ih =>
      rw [List.forall_mem_cons] at unbroken
      have names : ∀ symbol ∈ [','].intercalate entry.hostnames, isLineEnd symbol = false := by
        intro symbol member
        rcases LineFormat.mem_intercalate member with rfl | ⟨hostname, found, inside⟩
        · decide
        · exact unbroken.1 hostname found symbol inside
      rw [serialize, List.flatMap_cons, ← serialize, entryLine, hostKeyLine_eq, List.append_assoc,
        List.singleton_append, loadFrom_append,
        loadFrom_line (unbroken_writtenLine entry.key names)] at loaded
      obtain ⟨next, first, later⟩ := Option.bind_eq_some_iff.mp loaded
      obtain ⟨added, here, rfl⟩ := Option.map_eq_some_iff.mp first
      have one := paramiko.length_addedBy here
      have bound := ih unbroken.2 later
      rw [List.length_append] at bound
      rw [List.length_cons]
      omega

/-- A text up to the first of two blanks, in a text that has no others. -/
theorem sublist_before_blank {first more hostname middle last : List Char}
    (unblank : ' ' ∉ hostname) (unblankMiddle : ' ' ∉ middle) (unblankLast : ' ' ∉ last)
    (again : ' ' ∈ more)
    (sublist : (first ++ ' ' :: more).Sublist (hostname ++ ' ' :: middle ++ ' ' :: last)) :
    first.Sublist hostname := by
  obtain ⟨front, back, split, inFront, inBack⟩ := List.append_sublist_iff.mp sublist
  have total := congrArg (List.count ' ') split
  have several := inBack.count_le ' '
  have one := List.count_pos_iff.mpr again
  simp only [List.count_append, List.count_cons_self, List.count_eq_zero.mpr unblank,
    List.count_eq_zero.mpr unblankMiddle, List.count_eq_zero.mpr unblankLast] at total several
  have unblankFront : ' ' ∉ front := List.count_eq_zero.mp (by omega)
  refine inFront.trans ?_
  rw [List.append_assoc, List.cons_append] at split
  rcases List.append_eq_append_iff.mp split with ⟨between, rfl, blanks⟩ | ⟨between, rfl, _⟩
  · cases between with
    | nil => rw [List.append_nil]
    | cons symbol between =>
        rw [← (List.cons.inj blanks).1] at unblankFront
        exact absurd (List.mem_append_right _ List.mem_cons_self) unblankFront
  · exact List.sublist_append_left _ _

/-- A name that is read back alone from its line is writable. -/
theorem writable_of_namesOn {hostname line : List Char} {key : Key}
    (inLines : line ∈ (hostKeyLine paramiko.toParamiko hostname key).splitOnP isLineEnd)
    (names : NamesOn line [hostname]) : Writable hostname := by
  have symbols := names.mem (List.mem_singleton_self _)
  have unbroken : ∀ symbol ∈ hostname, isLineEnd symbol = false := fun symbol inside =>
    (LineFormat.not_mem_of_mem_splitOnP inLines symbol (symbols symbol inside).1).2
  have unblank : ' ' ∉ hostname := fun member => (symbols ' ' member).2.1 rfl
  have comma : ',' ∉ hostname := fun member => (symbols ',' member).2.2 rfl
  refine ⟨unblank, unbroken, comma, ?_⟩
  -- the name is on the only line that is not empty
  rw [hostKeyLine_eq, List.splitOnP_append_cons _ _ (by decide), List.splitOnP_nil,
    List.splitOnP_eq_singleton (unbroken_writtenLine key unbroken), List.mem_append,
    List.mem_singleton, List.mem_singleton] at inLines
  obtain ⟨first, more, whole, _, again, uncommented, sublist⟩ := names
  rcases inLines with rfl | rfl
  · have inside : first.Sublist hostname := by
      apply sublist_before_blank unblank (paramiko.solid_name key).blank
        (paramiko.solid_base64 key).blank again
      rw [← whole]
      exact trimBy_sublist _
    have single : first.splitOn ',' = [first] :=
      List.splitOn_eq_singleton fun member => comma (inside.subset member)
    rw [single, List.singleton_sublist, List.mem_singleton] at sublist
    subst sublist
    cases hostname with
    | nil =>
        have head : ' ' ∈ (trimBy isWhitespace
            (writtenLine paramiko.toParamiko [] key)).head? := by
          rw [whole]
          rfl
        exact absurd (unblank_of_head_trimBy head) (by decide)
    | cons symbol rest =>
        have head : symbol ∈ (trimBy isWhitespace
            (writtenLine paramiko.toParamiko (symbol :: rest) key)).head? := by
          rw [whole]
          rfl
        exact ⟨symbol, rfl, unblank_of_head_trimBy head, fun same => uncommented (same ▸ rfl)⟩
  · exact absurd whole (by simp [trimBy])

/-- An entry that is written is read after the others if its name is one name on a line, and
they do not give the key for the host already. -/
theorem loadHostKeys_append_iff {client : Client Key} (saved : Saved paramiko client)
    (hostname : List Char) (key : Key) :
    loadHostKeys paramiko (client.hostKeysFile ++ hostKeyLine paramiko.toParamiko hostname key) =
        some (client.hostKeys ++ [⟨[hostname], key⟩]) ↔
      loadHostKeys paramiko client.hostKeysFile = some client.hostKeys ∧ Writable hostname ∧
        ¬Listed paramiko.toParamiko client.hostKeys hostname key := by
  have written : ∀ {entries}, Writable hostname →
      loadFrom paramiko entries (hostKeyLine paramiko.toParamiko hostname key) =
        (paramiko.addedBy entries (writtenLine paramiko.toParamiko hostname key)).map
          (entries ++ ·) := by
    intro entries writable
    rw [hostKeyLine_eq, loadFrom_append, loadFrom_line (unbroken_writtenLine key writable.lineEnd)]
    simp only [loadFrom_nil]
    exact Option.bind_fun_some _
  rw [loadHostKeys, saved, loadFrom_serialize_append, ← saved, ← loadHostKeys]
  constructor
  · intro same
    obtain ⟨read, before, after⟩ := Option.bind_eq_some_iff.mp same
    have unread : read ≠ client.hostKeys ++ [⟨[hostname], key⟩] := by
      rintro rfl
      -- the file has more entries than lines
      have names := unbroken_of_loadHostKeys before
      rw [List.forall_mem_append] at names
      rw [saved, loadHostKeys] at before
      have bound := length_le_of_loadFrom names.1 before
      rw [List.length_append, List.length_nil, List.length_singleton] at bound
      omega
    obtain ⟨added, spec, found⟩ := loadFrom_spec after
    rcases List.eq_nil_or_concat added with rfl | ⟨front, last, rfl⟩
    · rw [List.append_nil] at spec
      exact absurd spec.symm unread
    · rw [List.concat_eq_append, ← List.append_assoc] at spec
      obtain ⟨_, last_eq⟩ := List.append_inj' spec rfl
      cases (List.cons.inj last_eq).1
      obtain ⟨line, inLines, names⟩ := found ⟨[hostname], key⟩ (by simp)
      have writable := writable_of_namesOn inLines names
      rw [written writable] at after
      have fresh : ¬Listed paramiko.toParamiko read hostname key := by
        intro listed
        rw [paramiko.addedBy_listed writable listed] at after
        exact unread ((List.append_nil read).symm.trans (Option.some.inj after))
      rw [paramiko.addedBy_new writable fresh] at after
      obtain rfl := List.append_cancel_right (Option.some.inj after)
      exact ⟨before, writable, fresh⟩
  · rintro ⟨same, writable, fresh⟩
    rw [same, Option.bind_some, written writable, paramiko.addedBy_new writable fresh]
    rfl

end Text

section Policy

variable {Key : Type} [DecidableEq Key] (paramiko : ParamikoText Key)

/-- After a call the file reads as the store.  A call that raises leaves both as they were, and
one that returns adds one entry to both or none. -/
def Mirrors (client : Client Key) (call : Call Key) : Prop :=
  let answered := missingHostKey paramiko.toParamiko client call
  loadHostKeys paramiko answered.client.hostKeysFile = some answered.client.hostKeys ∧
    (answered.raised ≠ none → answered.client = client) ∧
    (answered.raised = none → answered.client = client ∨
      ∃ entry, answered.client.hostKeys = client.hostKeys ++ [entry] ∧
        answered.client.hostKeysFile = client.hostKeysFile ++ serialize paramiko [entry])

/-- The file reads as the store, and where the host key is missing the file can be written, the
name of the host is one name on a line, and the user's store does not give the key already. -/
def Writes (client : Client Key) (call : Call Key) : Prop :=
  loadHostKeys paramiko client.hostKeysFile = some client.hostKeys ∧
    (recordedKey paramiko.toParamiko client call = none →
      call.disk = .works ∧ Writable call.hostname ∧
        ¬Listed paramiko.toParamiko client.hostKeys call.hostname call.key)

variable {paramiko} {client : Client Key} {call : Call Key}

theorem Mirrors.saved (mirrors : Mirrors paramiko client call) (saved : Saved paramiko client) :
    Saved paramiko (missingHostKey paramiko.toParamiko client call).client := by
  obtain ⟨_, raises, returns⟩ := mirrors
  by_cases raised : (missingHostKey paramiko.toParamiko client call).raised = none
  · rcases returns raised with same | ⟨entry, store, file⟩
    · rw [same]
      exact saved
    · rw [Saved, store, file, saved, serialize_append]
  · rw [raises raised]
    exact saved

theorem mirrors_addHostKey_iff (saved : Saved paramiko client)
    (missing : recordedKey paramiko.toParamiko client call = none) :
    Mirrors paramiko client call ↔
      loadHostKeys paramiko client.hostKeysFile = some client.hostKeys ∧
        call.disk = .works ∧ Writable call.hostname ∧
          ¬Listed paramiko.toParamiko client.hostKeys call.hostname call.key := by
  rw [Mirrors, missingHostKey_none _ missing]
  by_cases works : call.disk = .works
  · rw [addHostKey_works _ works]
    dsimp only
    rw [loadHostKeys_append_iff saved, ← serialize_singleton]
    constructor
    · rintro ⟨⟨same, readable⟩, _⟩
      exact ⟨same, works, readable⟩
    · rintro ⟨same, _, readable⟩
      exact ⟨⟨same, readable⟩, fun raised => absurd rfl raised, fun _ => .inr ⟨_, rfl, rfl⟩⟩
  · -- the entry stays in memory when the file fails
    refine iff_of_false ?_ fun writes => works writes.2.1
    rintro ⟨_, raises, _⟩
    have same := congrArg Client.hostKeys (raises (raised_addHostKey_of_broken _ works))
    rw [hostKeys_addHostKey] at same
    exact absurd (List.append_right_eq_self.mp same) (List.cons_ne_nil _ _)

/-- What one call needs. -/
theorem mirrors_iff (saved : Saved paramiko client) :
    Mirrors paramiko client call ↔ Writes paramiko client call := by
  cases found : recordedKey paramiko.toParamiko client call with
  | none =>
      rw [mirrors_addHostKey_iff saved found, Writes]
      exact and_congr_right' (imp_iff_right found).symm
  | some expected =>
      rw [Mirrors, Writes, missingHostKey_some paramiko.toParamiko found, found]
      simp

variable (paramiko)

/-- The file reads as the store after each call of a sequence if and only if it does so before,
and no call that adds a key meets a file that cannot be written, a name that is not one name on
a line, or a key that the user's store gives for the host already. -/
theorem eachCall_mirrors_iff (systemHostKeys hostKeys : List (HostKeyEntry Key))
    (calls : List (Call Key)) :
    EachCall paramiko.toParamiko (Mirrors paramiko)
        ⟨systemHostKeys, hostKeys, serialize paramiko hostKeys⟩ calls ↔
      EachCall paramiko.toParamiko (Writes paramiko)
        ⟨systemHostKeys, hostKeys, serialize paramiko hostKeys⟩ calls := by
  have saved : Saved paramiko ⟨systemHostKeys, hostKeys, serialize paramiko hostKeys⟩ := rfl
  exact eachCall_congr paramiko.toParamiko (Saved paramiko)
    (fun _ _ saved => mirrors_iff saved) (fun _ _ saved mirrors => mirrors.saved saved) saved calls

end Policy

namespace SampleKey

/-- The key of a type and a text. -/
def read (keytype base64 : List Char) : Option SampleKey :=
  [rsa, otherRsa, ed25519].find? fun key => key.getName = keytype ∧ key.getBase64 = base64

/-- `HostKeys.check` -/
def isListed (entries : List (HostKeyEntry SampleKey)) (key : SampleKey) (hostname : List Char) :
    Bool :=
  (sampleParamiko.lookup entries hostname).any fun get => get key.getName = some key

/-- `HostKeys.load`, of a line. -/
def addedBy (entries : List (HostKeyEntry SampleKey)) (line : List Char) :
    List (HostKeyEntry SampleKey) :=
  if (trimBy isWhitespace line).head? = some '#' then []
  else
    match (trimBy isWhitespace line).splitOn ' ' with
    | names :: keytype :: base64 :: _ =>
        match read keytype base64 with
        | some key =>
            let hostnames :=
              (names.splitOn ',').filter fun hostname => !isListed entries key hostname
            if hostnames = [] then [] else [⟨hostnames, key⟩]
        | none => []
    | _ => []

theorem isListed_iff {entries : List (HostKeyEntry SampleKey)} {key : SampleKey}
    {hostname : List Char} :
    isListed entries key hostname = true ↔ Listed sampleParamiko entries hostname key := by
  rw [isListed, Listed, Option.any_eq_true]
  simp only [decide_eq_true_eq]
  rfl

theorem solid_getName (key : SampleKey) : Solid key.getName := by
  cases key <;> decide +kernel

theorem solid_getBase64 (key : SampleKey) : Solid key.getBase64 := by
  cases key <;> decide +kernel

theorem read_key (key : SampleKey) : read key.getName key.getBase64 = some key := by
  cases key <;> decide +kernel

theorem addedBy_spec (entries : List (HostKeyEntry SampleKey)) (line : List Char) :
    addedBy entries line = [] ∨
      ∃ entry, addedBy entries line = [entry] ∧ NamesOn line entry.hostnames := by
  rw [addedBy]
  split
  · exact Or.inl rfl
  · rename_i uncommented
    split
    · rename_i names keytype base64 rest fields
      split
      · rename_i key _
        dsimp only
        split
        · exact Or.inl rfl
        · have whole : trimBy isWhitespace line =
              names ++ ' ' :: (keytype ++ ' ' :: [' '].intercalate (base64 :: rest)) := by
            have joined : [' '].intercalate ((trimBy isWhitespace line).splitOn ' ') = _ :=
              List.intercalate_splitOn ' '
            rw [← joined, fields, List.intercalate_cons_cons, List.intercalate_cons_cons]
            simp
          have part : names ∈ (trimBy isWhitespace line).splitOnP (· == ' ') := by
            rw [← List.splitOn_eq_splitOnP, fields]
            exact List.mem_cons_self
          refine Or.inr ⟨_, rfl, names, _, whole, ?_, ?_, ?_, List.filter_sublist⟩
          · intro member
            exact absurd (LineFormat.not_mem_of_mem_splitOnP part ' ' member).2 (by decide)
          · exact List.mem_append_right _ List.mem_cons_self
          · intro comment
            rw [whole, List.head?_append, comment] at uncommented
            exact uncommented rfl
      · exact Or.inl rfl
    · exact Or.inl rfl

theorem addedBy_writtenLine {entries : List (HostKeyEntry SampleKey)} {hostname : List Char}
    (writable : Writable hostname) (key : SampleKey) :
    addedBy entries (writtenLine sampleParamiko hostname key) =
      if isListed entries key hostname then [] else [⟨[hostname], key⟩] := by
  obtain ⟨first, head, unblank, uncommented⟩ := writable.first
  obtain ⟨rest, rfl⟩ := List.head?_eq_some_iff.mp head
  have joined : writtenLine sampleParamiko (first :: rest) key =
      (first :: rest ++ ' ' :: key.getName ++ [' ']) ++ key.getBase64 := by
    simp [writtenLine, sampleParamiko]
  have trimmed : Trimmed isWhitespace (writtenLine sampleParamiko (first :: rest) key) := by
    constructor
    · rintro _ ⟨⟩
      exact unblank
    · intro last ending
      rw [joined, List.getLast?_append_of_ne_nil _ (by cases key <;> decide +kernel)] at ending
      exact solid_getBase64 key last (List.mem_of_mem_getLast? ending)
  have fields : (writtenLine sampleParamiko (first :: rest) key).splitOn ' ' =
      [first :: rest, key.getName, key.getBase64] := by
    have last : key.getBase64.splitOn ' ' = [key.getBase64] :=
      List.splitOn_eq_singleton (solid_getBase64 key).blank
    have written : writtenLine sampleParamiko (first :: rest) key =
        (first :: rest) ++ ' ' :: (key.getName ++ ' ' :: key.getBase64) := by
      simp [joined]
    rw [written, List.splitOn_append_cons_self_of_not_mem writable.blank,
      List.splitOn_append_cons_self_of_not_mem (solid_getName key).blank, last]
  have names : (first :: rest).splitOn ',' = [first :: rest] :=
    List.splitOn_eq_singleton writable.comma
  have plain : (writtenLine sampleParamiko (first :: rest) key).head? ≠ some '#' :=
    fun same => uncommented (Option.some.inj same)
  rw [addedBy, trimBy_of_trimmed trimmed, if_neg plain, fields]
  dsimp only
  rw [read_key, names]
  cases listed : isListed entries key (first :: rest) with
  | true => simp [listed]
  | false => simp [listed]

end SampleKey

/-- The sample keys with their text. -/
def sampleParamikoText : ParamikoText SampleKey where
  toParamiko := sampleParamiko
  addedBy entries line := some (SampleKey.addedBy entries line)
  addedBy_nil entries := by simp [SampleKey.addedBy, trimBy]
  length_addedBy {entries line added} same := by
    obtain rfl := Option.some.inj same
    rcases SampleKey.addedBy_spec entries line with none | ⟨entry, one, _⟩
    · rw [none]
      exact Nat.zero_le 1
    · rw [one]
      exact Nat.le_refl 1
  names_addedBy {entries line added} same := by
    obtain rfl := Option.some.inj same
    rcases SampleKey.addedBy_spec entries line with none | ⟨other, one, names⟩
    · rw [none]
      exact List.forall_mem_nil _
    · rw [one]
      exact List.forall_mem_singleton.mpr names
  addedBy_new {entries hostname key} writable fresh := by
    rw [SampleKey.addedBy_writtenLine writable, if_neg (mt SampleKey.isListed_iff.mp fresh)]
  addedBy_listed {entries hostname key} writable listed := by
    rw [SampleKey.addedBy_writtenLine writable, if_pos (SampleKey.isListed_iff.mpr listed)]
  solid_name := SampleKey.solid_getName
  solid_base64 := SampleKey.solid_getBase64

/-- A key that cannot be written to the file is in the store all the same. -/
theorem eachCall_mirrors_fails :
    ¬∀ systemHostKeys hostKeys calls,
      EachCall sampleParamikoText.toParamiko (Mirrors sampleParamikoText)
        ⟨systemHostKeys, hostKeys, serialize sampleParamikoText hostKeys⟩ calls := by
  intro always
  have mirrors := (always [] [] [⟨"localhost".toList, .rsa, .failsToOpen⟩]).1
  exact absurd mirrors.1 (by decide +kernel)

end CloudRunSsh.WebSSH
