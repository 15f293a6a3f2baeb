import CloudRunSsh.Data.Lines
import CloudRunSsh.Proxy.Jobs
import CloudRunSsh.Proxy.Server

/-!
# Ingress rules as text

The tunnel front end reads the routes from a text that has one registration on a line.
The text is written without any quoting, so it is read back as the registry exactly when
no instance id and no client id has a character in it that structures the text.
-/

namespace CloudRunSsh.Proxy

open CloudRunSsh.Concurrency

/-- The rule list as the tunnel front end reads it. -/
def ingressFormat : LineFormat Char where
  newline := '\n'
  blank symbol := symbol == ' ' || symbol == '\t'
  mark := '#'

/-- The rules that a text lists, each a host and the tunnel that it leads to. -/
def parseRules (text : String) : List (String × String) :=
  (ingressFormat.pairs text.toList).map fun rule =>
    (String.ofList rule.1, String.ofList rule.2)

/-- No character of the text structures a rule list. -/
def Verbatim (text : String) : Prop :=
  ∀ symbol ∈ text.toList, symbol ≠ ' ' ∧ symbol ≠ '\t' ∧ symbol ≠ '\n' ∧ symbol ≠ '#'

instance (text : String) : Decidable (Verbatim text) :=
  List.decidableBAll _ _

theorem plain_iff (text : String) :
    ingressFormat.Plain text.toList ↔ text ≠ "" ∧ Verbatim text := by
  constructor
  · intro plain
    constructor
    · rintro rfl
      exact plain.nonempty rfl
    · intro symbol member
      have blank := plain.blank symbol member
      simp only [ingressFormat, Bool.or_eq_false_iff, beq_eq_false_iff_ne] at blank
      refine ⟨blank.1, blank.2, ?_, ?_⟩
      · rintro rfl
        exact plain.newline member
      · rintro rfl
        exact plain.mark member
  · rintro ⟨nonempty, verbatim⟩
    constructor
    · intro empty
      exact nonempty (String.toList_inj.mp empty)
    · intro member
      exact (verbatim _ member).2.2.1 rfl
    · intro symbol member
      have ordinary := verbatim symbol member
      simp [ingressFormat, ordinary.1, ordinary.2.1]
    · intro member
      exact (verbatim _ member).2.2.2 rfl

theorem mem_parseRules {text : String} {rule : String × String} :
    rule ∈ parseRules text ↔ (rule.1.toList, rule.2.toList) ∈ ingressFormat.pairs text.toList := by
  constructor
  · intro member
    rcases List.mem_map.mp member with ⟨found, listed, rfl⟩
    simpa only [String.toList_ofList] using listed
  · intro listed
    refine List.mem_map.mpr ⟨_, listed, ?_⟩
    simp only [String.ofList_toList]

/-- The text of a write, unless it is that of a document. -/
def Chunk.text? : Chunk → Option String
  | .text content => some content
  | .json _ => none

/-- The body as a text, if it consists of texts. -/
def Writer.text? (writer : Writer) : Option String :=
  (writer.body.mapM Chunk.text?).map String.join

/-- The words of the rule of a registration. -/
def ruleWords (entry : String × ServerlessInstance) : List Char × List Char :=
  (entry.2.id.toList, entry.2.tunnel.toList)

/-- The line of a registration. -/
def ruleLine (entry : String × ServerlessInstance) : String :=
  " ".intercalate [entry.2.id, entry.2.tunnel] ++ "\n"

theorem body_foldl_fprintln (entries : List (String × ServerlessInstance)) (c : Context) :
    (entries.foldl (fun c entry => c.fprintln [entry.2.id, entry.2.tunnel]) c).writer.body =
      c.writer.body ++ entries.map fun entry => Chunk.text (ruleLine entry) := by
  induction entries generalizing c with
  | nil => exact (List.append_nil _).symm
  | cons entry rest ih =>
      rw [List.foldl_cons, ih, Context.fprintln, Context.body_write, List.append_assoc]
      rfl

theorem mapM_text (entries : List (String × ServerlessInstance)) :
    (entries.map fun entry => Chunk.text (ruleLine entry)).mapM Chunk.text? =
      some (entries.map ruleLine) := by
  induction entries with
  | nil => rfl
  | cons entry rest ih =>
      rw [List.map_cons, List.mapM_cons, ih]
      rfl

/-- The handler writes the list of the words of all rules. -/
theorem toList_join_ruleLine (entries : List (String × ServerlessInstance)) :
    (String.join (entries.map ruleLine)).toList =
      ingressFormat.list ' ' (entries.map ruleWords) := by
  rw [String.toList_join, LineFormat.list, LineFormat.write, List.flatMap_map,
    List.flatMap_map, List.flatMap_map]
  apply List.flatMap_congr
  intro entry _
  simp only [ruleLine, String.toList_append, String.toList_intercalate]
  rfl

/-- The text that the handler writes for a registry. -/
theorem getIngessRules_text (mem : Memory) {c : Context} (empty : c.writer.body = []) :
    ∃ c', (getIngessRules c).eval execute mem = (some c', mem) ∧
      c'.writer.text? =
        some (String.join ((mem.read instanceToConfigMap).items.map ruleLine)) := by
  refine ⟨_, rfl, ?_⟩
  simp only [execute, Writer.text?, body_foldl_fprintln, Context.body_writeHeaderNow,
    Context.body_header, Context.body_status, empty, List.nil_append, mapM_text,
    Option.map_some]

/-- The rule list that the handler writes is the flat map if and only if nothing in the
flat map is empty or structures the text. -/
theorem parseRules_iff (mem : Memory) :
    (∀ rule, rule ∈ parseRules
          (String.join ((mem.read instanceToConfigMap).items.map ruleLine)) ↔
        ∃ key config, mem.lookup instanceToConfigMap key = some config ∧
          rule = (config.id, config.tunnel)) ↔
      ∀ key config, mem.lookup instanceToConfigMap key = some config →
        (config.id ≠ "" ∧ Verbatim config.id) ∧
          config.tunnel ≠ "" ∧ Verbatim config.tunnel := by
  have held : ∀ rule : String × String,
      (rule.1.toList, rule.2.toList) ∈
          (mem.read instanceToConfigMap).items.map ruleWords ↔
        ∃ key config, mem.lookup instanceToConfigMap key = some config ∧
          rule = (config.id, config.tunnel) := by
    intro rule
    constructor
    · intro member
      rcases List.mem_map.mp member with ⟨⟨key, config⟩, entry, same⟩
      refine ⟨key, config, Dict.mem_items.mp entry, ?_⟩
      simp only [ruleWords, Prod.mk.injEq, String.toList_inj] at same
      exact Prod.ext same.1.symm same.2.symm
    · rintro ⟨key, config, found, rfl⟩
      exact List.mem_map.mpr ⟨(key, config), Dict.mem_items.mpr found, rfl⟩
  have rules : (∀ rule, rule ∈ parseRules
          (String.join ((mem.read instanceToConfigMap).items.map ruleLine)) ↔
        ∃ key config, mem.lookup instanceToConfigMap key = some config ∧
          rule = (config.id, config.tunnel)) ↔
      ∀ words, words ∈ ingressFormat.pairs (ingressFormat.list ' '
          ((mem.read instanceToConfigMap).items.map ruleWords)) ↔
        words ∈ (mem.read instanceToConfigMap).items.map ruleWords := by
    simp only [mem_parseRules, toList_join_ruleLine, ← held]
    constructor
    · intro same words
      have rule := same (String.ofList words.1, String.ofList words.2)
      simpa only [String.toList_ofList] using rule
    · intro same rule
      exact same _
  have listed := @LineFormat.mem_pairs_list_iff Char _ ingressFormat ' ' rfl (by decide)
    (by decide) ((mem.read instanceToConfigMap).items.map ruleWords)
  rw [rules, listed]
  constructor
  · intro plain key config found
    have words := plain (ruleWords (key, config))
      (List.mem_map_of_mem (Dict.mem_items.mpr found))
    exact ⟨(plain_iff _).mp words.1, (plain_iff _).mp words.2⟩
  · intro verbatim words member
    rcases List.mem_map.mp member with ⟨⟨key, config⟩, entry, rfl⟩
    have both := verbatim key config (Dict.mem_items.mp entry)
    exact ⟨(plain_iff _).mpr both.1, (plain_iff _).mpr both.2⟩

/-- What a request about an instance looks like: the id is a path segment, and the client
id is the value of a header. -/
structure Context.Segmented (c : Context) : Prop where
  inst : c.param APIPathParam.instance ≠ ""
  segment : '/' ∉ (c.param APIPathParam.instance).toList
  carriageReturn : '\r' ∉ (c.getHeader xServerlessSSHClientID).toList
  newline : '\n' ∉ (c.getHeader xServerlessSSHClientID).toList

/-- A registration with an id and a tunnel. -/
def Named (config : ServerlessInstance) : Prop :=
  config.id ≠ "" ∧ config.tunnel ≠ ""

/-- The operation registers nothing without an id or a tunnel. -/
def RegistryOp.StoresNamed : RegistryOp → Prop
  | @RegistryOp.set .instances _ _ config => Named config
  | _ => True

theorem addInstance_storesNamed {c : Context} (segmented : c.Segmented) :
    (addInstance c).Every RegistryOp.StoresNamed := by
  simp only [addInstance_eq, getSSHProxyClientID]
  split
  · cases getProxyConfig c <;> trivial
  · rename_i given
    refine ⟨trivial, fun ts => ?_⟩
    have named : Named (registration c (c.getHeader xServerlessSSHClientID) ts) :=
      ⟨segmented.inst, given⟩
    have inline : (atProjects (registration c (c.getHeader xServerlessSSHClientID) ts)
        projectToRegionsMap (.pure (respond c 202 (c.getHeader xServerlessSSHClientID)))).Inline
        (OfCascade _) := atProjects_inline _ trivial
    refine ⟨named, inline.every.mono ?_⟩
    intro operation ofCascade
    cases operation with
    | @set kind map key value =>
        cases kind with
        | «instances» =>
            rcases ofCascade with ⟨_, rfl⟩
            exact named
        | revisions | services | regions | projects => trivial
    | now | new | get | del | getAndDel | forEach => trivial

/-- Requests to register come in as the router passes them on. -/
def SegmentedRequests (_ : RegistryPool) (choice : Choice RegistryJob Nat) : Prop :=
  ∀ c, choice = .start (.addInstance c) → c.Segmented

/-- Every registration in the flat map has an id and a tunnel. -/
theorem named_of_reaches {clock : Time} {pool : RegistryPool}
    (reaches : registryMachine.Reaches SegmentedRequests (Pool.idle (Memory.initial clock))
      pool) {key : String} {config : ServerlessInstance}
    (found : pool.mem.lookup instanceToConfigMap key = some config) : Named config := by
  have storesNamed : ∀ {operation : RegistryOp}, operation.StoresNothing →
      operation.StoresNamed := by
    intro operation nothing
    cases operation with
    | new | set => exact nothing.elim
    | now | get | del | getAndDel | forEach => trivial
  have every : ∀ job : RegistryJob, (∀ c, job = .addInstance c → c.Segmented) →
      job.program.Every RegistryOp.StoresNamed := by
    intro job segmented
    cases job with
    | addInstance c => exact (addInstance_storesNamed (segmented c rfl)).bind fun _ => trivial
    | removeInstance c =>
        have stores := (removeInstance_storesNothing c).mono fun _ nothing => storesNamed nothing
        exact stores.bind fun _ => trivial
    | idleInstancesReaper timeout order =>
        have stores := (idleInstancesReaper_storesNothing timeout order 0).mono
          fun _ nothing => storesNamed nothing
        exact stores.bind fun _ => trivial
  have initial : ∀ key config,
      (Memory.initial clock).lookup instanceToConfigMap key = some config → Named config := by
    intro key config found
    cases found
  have admits : ∀ (pool : RegistryPool) job, SegmentedRequests pool (.start job) →
      ∀ c, job = .addInstance c → c.Segmented := by
    rintro pool job segmented c rfl
    exact segmented c rfl
  have holds : (Program.permitting
      (fun mem : Memory => ∀ key config,
        mem.lookup instanceToConfigMap key = some config → Named config)
      fun _ : RegistryJob => RegistryOp.StoresNamed).Holds pool := by
    apply Program.permitting_of_reaches every _ _ admits initial reaches
    · intro job operation mem named kept key config found
      rcases lookup_of_execute found with old | rfl
      · exact kept key config old
      · exact named
    · intro duration mem kept
      exact kept
  exact holds.memory key config found

/-- The rule list that is read back from the text of the handler is the flat map, in
every registry that is reached, if and only if no instance id and no client id in the
flat map has a character in it that structures the text. -/
theorem ingress_rules_decode {clock : Time} {pool : RegistryPool}
    (reaches : registryMachine.Reaches SegmentedRequests (Pool.idle (Memory.initial clock))
      pool) {c : Context} (empty : c.writer.body = []) :
    ∃ c' text, (getIngessRules c).eval execute pool.mem = (some c', pool.mem) ∧
      c'.writer.text? = some text ∧
      ((∀ rule, rule ∈ parseRules text ↔
          ∃ key config, pool.mem.lookup instanceToConfigMap key = some config ∧
            rule = (config.id, config.tunnel)) ↔
        ∀ key config, pool.mem.lookup instanceToConfigMap key = some config →
          Verbatim config.id ∧ Verbatim config.tunnel) := by
  rcases getIngessRules_text pool.mem empty with ⟨c', evaluated, text⟩
  refine ⟨c', _, evaluated, text, ?_⟩
  rw [parseRules_iff]
  constructor
  · intro plain key config found
    exact ⟨(plain key config found).1.2, (plain key config found).2.2⟩
  · intro verbatim key config found
    have named := named_of_reaches reaches found
    exact ⟨⟨named.1, (verbatim key config found).1⟩, named.2, (verbatim key config found).2⟩

/-- Requests that have come in. -/
theorem reaches_received {source : RegistryPool} {requests : List Context}
    (segmented : ∀ c ∈ requests, c.Segmented) :
    registryMachine.Reaches SegmentedRequests source
      { source with
        threads := source.threads ++
          requests.map fun c => registryMachine.fresh (.addInstance c) } := by
  induction requests generalizing source with
  | nil =>
      rw [List.map_nil, List.append_nil]
      exact .refl
  | cons c requests ih =>
      obtain ⟨first, others⟩ := List.forall_mem_cons.mp segmented
      have admitted : SegmentedRequests source (.start (.addInstance c)) := by
        rintro _ ⟨⟩
        exact first
      rw [List.map_cons, List.append_cons]
      exact .head _ admitted rfl (ih others)

/-- Requests that have been handled, and whose goroutines have run. -/
theorem reaches_registered {requests : List Context} {choices : List (Choice RegistryJob Nat)}
    {pool : RegistryPool} (segmented : ∀ c ∈ requests, c.Segmented)
    (ran : registryMachine.run (fun _ choice => choice.IsWork)
      ⟨Memory.initial 0, requests.map fun c => registryMachine.fresh (.addInstance c), [], []⟩
      choices = some pool) :
    registryMachine.Reaches SegmentedRequests (Pool.idle (Memory.initial 0)) pool := by
  apply (reaches_received segmented).trans
  apply (Machine.reaches_of_run ran).mono
  intro pool choice passed c started
  subst started
  cases passed

/-- Two registrations whose ids and client ids are ordinary words are read back, and no others. -/
theorem ingress_rules_decode_pair :
    ∃ (pool : RegistryPool) (c' : Context) (text : String),
      registryMachine.Reaches SegmentedRequests (Pool.idle (Memory.initial 0)) pool ∧
      (getIngessRules { request := ⟨.get, "/ingress-rules", [], []⟩ }).eval execute pool.mem =
        (some c', pool.mem) ∧
      c'.writer.text? = some text ∧
      ∀ rule, rule ∈ parseRules text ↔ rule = ("i", "t") ∨ rule = ("j", "u") := by
  have ran : ∃ pool, registryMachine.run (fun _ choice => choice.IsWork)
        ⟨Memory.initial 0, [instanceContext .post "p" "r" "s" "v" "i" "t",
          instanceContext .post "p" "r" "s" "w" "j" "u"].map fun c =>
            registryMachine.fresh (.addInstance c), [], []⟩
        (List.replicate 13 (.thread 0) ++ List.replicate 10 (.thread 0) ++
          [.routine 1, .routine 0]) = some pool ∧
      (pool.mem.read instanceToConfigMap).items =
        [("i", registration (instanceContext .post "p" "r" "s" "v" "i" "t") "t" 0),
          ("j", registration (instanceContext .post "p" "r" "s" "w" "j" "u") "u" 0)] :=
    ⟨_, rfl, rfl⟩
  rcases ran with ⟨pool, ran, items⟩
  have held : ∀ {key config}, pool.mem.lookup instanceToConfigMap key = some config ↔
      (key, config) =
          ("i", registration (instanceContext .post "p" "r" "s" "v" "i" "t") "t" 0) ∨
        (key, config) =
          ("j", registration (instanceContext .post "p" "r" "s" "w" "j" "u") "u" 0) := by
    intro key config
    have listed : (key, config) ∈ (pool.mem.read instanceToConfigMap).items ↔ _ :=
      Dict.mem_items
    rw [items, List.mem_cons, List.mem_singleton] at listed
    exact listed.symm
  have reaches := reaches_registered
    (List.forall_mem_cons.mpr ⟨⟨by decide, by decide, by decide, by decide⟩,
      List.forall_mem_singleton.mpr ⟨by decide, by decide, by decide, by decide⟩⟩) ran
  rcases @ingress_rules_decode _ _ reaches { request := ⟨.get, "/ingress-rules", [], []⟩ } rfl
    with ⟨c', text, evaluated, written, decodes⟩
  have verbatim : ∀ key config, pool.mem.lookup instanceToConfigMap key = some config →
      Verbatim config.id ∧ Verbatim config.tunnel := by
    intro key config found
    rcases held.mp found with same | same
    · cases same
      exact ⟨by decide, by decide⟩
    · cases same
      exact ⟨by decide, by decide⟩
  refine ⟨pool, c', text, reaches, evaluated, written, fun rule => ?_⟩
  rw [decodes.mpr verbatim rule]
  constructor
  · rintro ⟨key, config, found, rfl⟩
    rcases held.mp found with same | same
    · cases same
      exact .inl rfl
    · cases same
      exact .inr rfl
  · rintro (rfl | rfl)
    · exact ⟨"i", _, held.mpr (.inl rfl), rfl⟩
    · exact ⟨"j", _, held.mpr (.inr rfl), rfl⟩

/-- An instance id with a blank in it is read back as another instance. -/
theorem ingress_rules_altered :
    ∃ (pool : RegistryPool) (c' : Context) (text : String),
      registryMachine.Reaches SegmentedRequests (Pool.idle (Memory.initial 0)) pool ∧
      (getIngessRules { request := ⟨.get, "/ingress-rules", [], []⟩ }).eval execute pool.mem =
        (some c', pool.mem) ∧
      c'.writer.text? = some text ∧
      ¬∀ rule, rule ∈ parseRules text ↔
        ∃ key config, pool.mem.lookup instanceToConfigMap key = some config ∧
          rule = (config.id, config.tunnel) := by
  have ran : ∃ pool, registryMachine.run (fun _ choice => choice.IsWork)
        ⟨Memory.initial 0, [instanceContext .post "p" "r" "s" "v" "a b" "t"].map fun c =>
          registryMachine.fresh (.addInstance c), [], []⟩
        (List.replicate 13 (.thread 0) ++ [.routine 0]) = some pool ∧
      pool.mem.lookup instanceToConfigMap "a b" =
        some (registration (instanceContext .post "p" "r" "s" "v" "a b" "t") "t" 0) :=
    ⟨_, rfl, rfl⟩
  rcases ran with ⟨pool, ran, found⟩
  rcases @getIngessRules_text pool.mem { request := ⟨.get, "/ingress-rules", [], []⟩ } rfl with
    ⟨c', evaluated, written⟩
  refine ⟨pool, c', _, ?_, evaluated, written, ?_⟩
  · exact reaches_registered
      (List.forall_mem_singleton.mpr ⟨by decide, by decide, by decide, by decide⟩) ran
  · intro decodes
    have verbatim := ((parseRules_iff pool.mem).mp decodes "a b" _ found).1.2
    exact absurd verbatim (by decide)

end CloudRunSsh.Proxy
