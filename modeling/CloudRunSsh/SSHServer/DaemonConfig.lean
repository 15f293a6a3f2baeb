import CloudRunSsh.Data.LineEdits

/-!
# The configuration of sshd

When the container starts, two scripts edit `/config/sshd/sshd_config` line by line.  The file may
be on a volume, and then the scripts find what they made of it the last time.
-/

namespace CloudRunSsh.SSHServer

open LineEdit

/-- A value that is all digits. -/
structure Digits where
  text : List Char
  filled : text ≠ []
  digits : text.all Char.isDigit

/-- What the scripts read of their environment.  A number that is empty counts as unset. -/
structure BootEnvironment where
  listenPort : Option Digits := none
  sshPort : Option Digits := none
  umask : Option Digits := none
  passwordAccess : List Char := []
  userName : List Char := []
  sshUserName : List Char := []

/-- The characters of the values that are replaced, and of those written in their place. -/
def isValueChar (char : Char) : Bool := char.isDigit || char.isLower || char = '.'

theorem unmarked_letter {first : Char} {word : List Char} (letter : first ≠ '#')
    (rest : List Char) :
    unmarked '#' (first :: word ++ rest) = first :: word ++ rest :=
  if_neg letter

/-- `^#?Port \d+` -/
def port : Place Char :=
  .ofRun '#' "Port ".toList Char.isDigit isValueChar (unmarked_letter (by decide)) (by
    intro char digit
    rw [isValueChar, digit, Bool.true_or, Bool.true_or])

/-- `^#?ListenAddress 0\.0\.0\.0` -/
def listenAddress : Place Char :=
  .ofWords '#' "ListenAddress ".toList ["0.0.0.0".toList] isValueChar
    (unmarked_letter (by decide)) (by decide)

/-- `^#?X11Forwarding (?:yes|no)` -/
def x11Forwarding : Place Char :=
  .ofWords '#' "X11Forwarding ".toList ["yes".toList, "no".toList] isValueChar
    (unmarked_letter (by decide)) (by decide)

/-- `^#?TCPKeepAlive (?:yes|no)` -/
def tcpKeepAlive : Place Char :=
  .ofWords '#' "TCPKeepAlive ".toList ["yes".toList, "no".toList] isValueChar
    (unmarked_letter (by decide)) (by decide)

/-- The settings that are deleted, wherever they are. -/
def overridden : List (List Char) :=
  ["PermitRootLogin".toList, "AuthorizedKeysFile".toList, "AllowTcpForwarding".toList,
    "Banner".toList]

def sftpServer : List Char := "/usr/lib/ssh/sftp-server".toList

def defaultPort : Digits := ⟨"2222".toList, by decide, by decide⟩

namespace BootEnvironment

variable (env : BootEnvironment)

def listenPortText : List Char := (env.listenPort.getD defaultPort).text

def sshPortText : List Char := (env.sshPort.getD defaultPort).text

def umaskText : List Char := env.umask.elim "022".toList Digits.text

/-- `USER_NAME` as the second script exports it. -/
def exportedUserName : List Char := if env.userName = [] then env.sshUserName else env.userName

/-- `s/^#Port [[:digit:]]\+/Port …/`, and the same without the mark. -/
def listenOnPort : List (LineEdit Char) :=
  ["#Port ".toList, "Port ".toList].map fun word =>
    total (substitute (fun line => (after? word line).bind port.value?)
      ("Port ".toList ++ env.listenPortText))

/-- Whether users may log in with a password. -/
def Allows : Prop := env.passwordAccess = "true".toList

instance : Decidable env.Allows := inferInstanceAs (Decidable (env.passwordAccess = _))

def setPasswordAccess : List (LineEdit Char) :=
  if env.Allows then
    [total (change "#PasswordAuthentication".toList "PasswordAuthentication yes".toList),
      total (change "PasswordAuthentication".toList "PasswordAuthentication yes".toList)]
  else
    [total (change "PasswordAuthentication".toList "PasswordAuthentication no".toList)]

def setUmask : LineEdit Char :=
  total (substituteEnd sftpServer (sftpServer ++ (" -u ".toList ++ env.umaskText)))

/-- What `init-openssh-server-config` does to the lines. -/
def initOpenSSHServerConfig : List (LineEdit Char) :=
  env.listenOnPort ++ env.setPasswordAccess ++ [env.setUmask]

/-- What `init-cloud-run-ssh-server-config` does to the lines. -/
def initCloudRunSSHServerConfig : List (LineEdit Char) :=
  overridden.map delete ++
  [total (listenAddress.rewrite "127.0.0.1".toList), total (x11Forwarding.rewrite "no".toList),
    total (tcpKeepAlive.rewrite "yes".toList)] ++
  [total (port.rewrite env.sshPortText)]

/-- The lines that the second script appends. -/
def appended : List (List Char) :=
  [[], "# Cloud Run SSH server".toList] ++
    (if env.exportedUserName = "root".toList then ["PermitRootLogin yes".toList] else []) ++
    ["AuthorizedKeysFile /wssh/secrets/1/authorized_keys".toList, "AllowTcpForwarding yes".toList,
      "Banner /cloud_run_ssh_banner".toList]

/-- What both scripts do to the lines. -/
def edits : List (LineEdit Char) := env.initOpenSSHServerConfig ++ env.initCloudRunSSHServerConfig

/-- The file after a start of the container. -/
def boot (lines : List (List Char)) : List (List Char) := run env.edits lines ++ env.appended

end BootEnvironment

/-- A line that is neither empty nor a comment. -/
def isDirective (line : List Char) : Bool := line.head?.any (· ≠ '#')

def directives (lines : List (List Char)) : List (List Char) := lines.filter isDirective

def passwordWords : List (List Char) :=
  ["#PasswordAuthentication".toList, "PasswordAuthentication".toList]

def passwordLines : List (List Char) :=
  ["PasswordAuthentication yes".toList, "PasswordAuthentication no".toList]

/-- A setting that the commands for passwords, the umask and the deleted lines do not touch. -/
structure Beside (place : Place Char) : Prop where
  passwords : Apart place.words passwordWords
  missed : ∀ text ∈ passwordLines, place.rest? text = none
  clear : ∀ pattern ∈ overridden, ∀ word ∈ place.words, Clear pattern word
  starts : ∀ pattern ∈ overridden, pattern.head?.any (!place.alphabet ·)
  slash : '/' ∉ place.mark :: place.word
  ends : place.alphabet '/' = false

theorem beside_port : Beside port := by
  constructor <;> decide

theorem beside_listenAddress : Beside listenAddress := by
  constructor <;> decide

theorem beside_x11Forwarding : Beside x11Forwarding := by
  constructor <;> decide

theorem beside_tcpKeepAlive : Beside tcpKeepAlive := by
  constructor <;> decide

theorem reads_digits (number : Digits) : port.Reads number.text :=
  fun _ _ => Place.value?_ofRun number.filled (List.all_eq_true.mp number.digits)

theorem fits_digits (number : Digits) : port.Fits number.text :=
  (reads_digits number).fits fun symbol member => by
    change (symbol.isDigit || symbol.isLower || symbol = '.') = true
    rw [List.all_eq_true.mp number.digits symbol member, Bool.true_or, Bool.true_or]

theorem fits_listenAddress : listenAddress.Fits "127.0.0.1".toList :=
  ⟨List.all_eq_true.mp (by decide), fun _ _ _ => .inl rfl⟩

theorem fits_x11Forwarding : x11Forwarding.Fits "no".toList :=
  ⟨List.all_eq_true.mp (by decide), fun _ _ _ => .inr rfl⟩

theorem fits_tcpKeepAlive : tcpKeepAlive.Fits "yes".toList :=
  ⟨List.all_eq_true.mp (by decide), fun _ _ _ => .inr rfl⟩

namespace BootEnvironment

variable (env : BootEnvironment)

/-- The commands on the settings that are the same at every start. -/
def settings : List (LineEdit Char) :=
  [total (listenAddress.rewrite "127.0.0.1".toList), total (x11Forwarding.rewrite "no".toList),
    total (tcpKeepAlive.rewrite "yes".toList)]

/-- The commands after those for passwords, but for the port. -/
def later : List (LineEdit Char) := env.setUmask :: overridden.map delete ++ settings

/-- The commands between the two for the port. -/
def middle : List (LineEdit Char) := env.setPasswordAccess ++ env.later

theorem starts_sftpServer : sftpServer.head? = some '/' := by decide

theorem setPasswordAccess_cases : ∀ edit ∈ env.setPasswordAccess,
    ∃ word ∈ passwordWords, ∃ text ∈ passwordLines, edit = total (change word text) := by
  intro edit member
  rw [setPasswordAccess] at member
  split at member
  · rcases List.mem_pair.mp member with rfl | rfl
    · exact ⟨_, List.mem_cons_self, _, List.mem_cons_self, rfl⟩
    · exact ⟨_, List.mem_cons_of_mem _ List.mem_cons_self, _, List.mem_cons_self, rfl⟩
  · rw [List.mem_singleton.mp member]
    exact ⟨_, List.mem_cons_of_mem _ List.mem_cons_self, _,
      List.mem_cons_of_mem _ List.mem_cons_self, rfl⟩

variable {env} {place : Place Char} {text : List Char}

/-- What comes before a setting commutes with it. -/
theorem commutes_of_beside (beside : Beside place) (fits : place.Fits text) :
    ∀ edit ∈ env.setPasswordAccess ++ env.setUmask :: overridden.map delete,
      edit.Commutes (place.rewrite text) := by
  intro edit member
  rcases List.mem_append.mp member with passwords | umask | deletes
  · obtain ⟨word, within, made, written, rfl⟩ := setPasswordAccess_cases env edit passwords
    refine Place.change_commutes ?_ (beside.missed made written)
    exact fun own inside other single => beside.passwords own inside other (by
      rwa [List.mem_singleton.mp single])
  · exact Place.substituteEnd_commutes beside.ends starts_sftpServer beside.slash fits
  · rename_i within
    obtain ⟨pattern, inside, rfl⟩ := List.mem_map.mp within
    obtain ⟨first, starts, outside⟩ := (Option.any_eq_true _ _).mp (beside.starts pattern inside)
    exact Place.delete_commutes (by simpa using outside) starts (beside.clear pattern inside) fits

theorem settings_cases : ∀ edit ∈ settings, ∃ (place : Place Char) (text : List Char),
    Beside place ∧ place.Fits text ∧ Apart place.words port.words ∧
      edit = total (place.rewrite text) := by
  refine List.forall_mem_cons.mpr ⟨?_, List.forall_mem_cons.mpr ⟨?_, List.forall_mem_cons.mpr
    ⟨?_, List.forall_mem_nil _⟩⟩⟩
  · exact ⟨_, _, beside_listenAddress, fits_listenAddress, by decide, rfl⟩
  · exact ⟨_, _, beside_x11Forwarding, fits_x11Forwarding, by decide, rfl⟩
  · exact ⟨_, _, beside_tcpKeepAlive, fits_tcpKeepAlive, by decide, rfl⟩

/-- It does not matter when the port is set. -/
theorem commutes_middle (fits : port.Fits text) :
    ∀ edit ∈ env.middle, edit.Commutes (port.rewrite text) := by
  intro edit member
  rw [middle, later, ← List.append_assoc] at member
  rcases List.mem_append.mp member with front | setting
  · exact commutes_of_beside beside_port fits edit front
  · obtain ⟨place, written, _, _, apart, rfl⟩ := settings_cases edit setting
    exact Place.commutes_rewrite apart

theorem settles_passwords : Settles env.setPasswordAccess := by
  refine ⟨fun edit member => ?_, ?_⟩
  · obtain ⟨word, _, made, _, rfl⟩ := setPasswordAccess_cases env edit member
    exact idempotent_change word made
  · rw [setPasswordAccess]
    split
    · exact List.pairwise_pair.mpr (change_keeps _ _ _)
    · exact List.pairwise_singleton _ _

theorem slash_not_mem_umask : '/' ∉ " -u ".toList ++ env.umaskText := by
  rw [List.mem_append, not_or]
  refine ⟨by decide, fun member => ?_⟩
  rw [umaskText] at member
  cases chosen : env.umask with
  | none =>
      rw [chosen] at member
      exact absurd member (by decide)
  | some number =>
      rw [chosen] at member
      exact absurd (List.all_eq_true.mp number.digits '/' member) (by decide)

/-- The umask is set where none has been set. -/
theorem ended_setUmask (front : List Char) :
    ¬sftpServer <:+ front ++ (sftpServer ++ (" -u ".toList ++ env.umaskText)) := by
  rw [← List.append_assoc]
  exact not_suffix_append starts_sftpServer slash_not_mem_umask
    (List.mem_append_left _ (by decide : ' ' ∈ " -u ".toList)) (by decide) _

theorem settles_settings : Settles settings := by
  refine ⟨fun edit member => ?_, ?_⟩
  · obtain ⟨place, text, _, fits, _, rfl⟩ := settings_cases edit member
    exact Place.idempotent fits
  · refine List.pairwise_cons.mpr ⟨?_, List.pairwise_pair.mpr ?_⟩
    · refine List.forall_mem_cons.mpr ⟨?_, List.forall_mem_singleton.mpr ?_⟩
      · exact (Place.commutes_rewrite (by decide)).keeps
      · exact (Place.commutes_rewrite (by decide)).keeps
    · exact (Place.commutes_rewrite (by decide)).keeps

theorem settles_middle : Settles env.middle := by
  rw [middle, later, ← List.append_assoc]
  have front : Settles (env.setPasswordAccess ++ env.setUmask :: overridden.map delete) := by
    refine settles_passwords.append ((settles_singleton
      (idempotent_substituteEnd ended_setUmask)).append
      (settles_delete overridden) ?_) ?_
    · intro _ _ edit member
      change edit ∈ overridden.map delete at member
      obtain ⟨pattern, _, rfl⟩ := List.mem_map.mp member
      exact delete_keeps pattern _
    · intro other within edit member
      obtain ⟨word, among, made, written, rfl⟩ := setPasswordAccess_cases env other within
      rcases List.mem_cons.mp member with rfl | deletes
      · have absent : ∀ word ∈ passwordWords, '/' ∉ word := by decide
        have unended : ∀ text ∈ passwordLines, ¬sftpServer <:+ text := by decide
        exact substituteEnd_keeps_change starts_sftpServer (absent word among)
          (unended made written)
      · obtain ⟨pattern, _, rfl⟩ := List.mem_map.mp deletes
        exact delete_keeps pattern _
  refine front.append settles_settings ?_
  intro other within edit member
  obtain ⟨place, text, beside, fits, _, rfl⟩ := settings_cases edit member
  exact (commutes_of_beside beside fits other within).keeps

variable (env)

/-- The port of the first script has no effect. -/
theorem script_edits (line : List Char) :
    script env.edits line = (script env.middle line).map (port.rewrite env.sshPortText) := by
  have split : env.edits = env.listenOnPort ++ (env.middle ++
      [total (port.rewrite env.sshPortText)]) := by
    simp only [edits, initOpenSSHServerConfig, initCloudRunSSHServerConfig, middle, later, settings,
      List.append_assoc, List.cons_append, List.nil_append]
  have listened : script env.listenOnPort line = some (port.rewrite env.listenPortText line) :=
    Place.rewrite_twice (reads_digits _) line
  have commutes : (script env.middle).Commutes (port.rewrite env.listenPortText) :=
    Commutes.script (commutes_middle (fits_digits _))
  rw [split, script_append, listened, Option.bind_some, script_append, commutes, Option.bind_map]
  cases script env.middle line with
  | none => rfl
  | some made => exact congrArg some (Place.rewrite_rewrite (reads_digits _) made)

/-- What the setting of passwords becomes. -/
def passwordLine : List Char :=
  if env.Allows then "PasswordAuthentication yes".toList else "PasswordAuthentication no".toList

theorem passwordLine_mem :
    env.passwordLine ∈ passwordLines := by
  rw [passwordLine]
  split
  · exact List.mem_cons_self
  · exact List.mem_cons_of_mem _ List.mem_cons_self

theorem begins_passwordLine :
    ∀ text ∈ passwordLines,
      "PasswordAuthentication".toList <+: text ∧ ¬"#PasswordAuthentication".toList <+: text := by
  decide

/-- A line for passwords that no command after it touches. -/
theorem script_later (text : List Char)
    (written : text ∈ passwordLines) :
    script env.later text = some text := by
  refine script_of_forall fun edit member => ?_
  rcases List.mem_cons.mp member with rfl | later
  · have unended : ∀ text ∈ passwordLines, ¬sftpServer <:+ text := by decide
    exact congrArg some (substituteEnd_of_not (unended text written))
  · rcases List.mem_append.mp later with deletes | setting
    · obtain ⟨pattern, within, rfl⟩ := List.mem_map.mp deletes
      have absent : ∀ pattern ∈ overridden, ∀ text ∈ passwordLines, ¬pattern <:+: text := by decide
      exact delete_of_not (absent pattern within text written)
    · obtain ⟨place, _, beside, _, _, rfl⟩ := settings_cases edit setting
      exact congrArg some (Place.rewrite_of_none (beside.missed text written))

/-- A line for passwords is left as it is, or it is replaced. -/
theorem script_passwords (line : List Char)
    (uncommented : ¬"#PasswordAuthentication".toList <+: line) :
    script env.setPasswordAccess line =
      if "PasswordAuthentication".toList <+: line then some env.passwordLine else some line := by
  have first : change "#PasswordAuthentication".toList "PasswordAuthentication yes".toList line =
      line := change_of_not uncommented
  by_cases allows : env.Allows
  · rw [setPasswordAccess, passwordLine, if_pos allows, if_pos allows]
    change some (change _ _ (change _ _ line)) = _
    rw [first, change, apply_ite some]
  · rw [setPasswordAccess, passwordLine, if_neg allows, if_neg allows]
    change some (change _ _ line) = _
    rw [change, apply_ite some]

theorem script_middle {line : List Char} (uncommented : ¬"#PasswordAuthentication".toList <+: line)
    (begins : "PasswordAuthentication".toList <+: line) :
    script env.middle line = some env.passwordLine := by
  rw [middle, script_append, script_passwords env line uncommented, if_pos begins,
    Option.bind_some, script_later env _ (passwordLine_mem env)]

variable {env} {old new : BootEnvironment} {line : List Char}

theorem fixed_later {made : List Char} (fixed : ∀ edit ∈ old.later, edit made = some made) :
    ∀ edit ∈ new.later, edit made = some made := by
  refine List.forall_mem_cons.mpr ⟨?_, fun edit member =>
    fixed edit (List.mem_cons_of_mem _ member)⟩
  refine congrArg some (substituteEnd_of_not ?_)
  exact not_suffix_of_substituteEnd ended_setUmask
    (Option.some.inj (fixed old.setUmask List.mem_cons_self))

/-- The next start leaves what the last one made, but for the port and the access with
passwords. -/
theorem middle_middle
    (agree : (old.Allows ↔ new.Allows) ∨ ¬"#PasswordAuthentication".toList <+: line) :
    (script old.middle line).bind (script new.middle) =
      script { new with umask := old.umask }.middle line := by
  by_cases same : old.Allows ↔ new.Allows
  · have passwords : new.setPasswordAccess = old.setPasswordAccess := by
      rw [setPasswordAccess, setPasswordAccess]
      simp only [same]
    have whole : { new with umask := old.umask }.middle = old.middle :=
      congrArg (· ++ old.later) passwords
    rw [whole]
    cases edited : script old.middle line with
    | none => rfl
    | some made =>
        have fixed := settles_middle.fixed edited
        rw [Option.bind_some, middle, passwords]
        refine script_of_forall fun edit member => ?_
        rcases List.mem_append.mp member with first | second
        · exact fixed edit (List.mem_append_left _ first)
        · exact fixed_later (fun edit later => fixed edit (List.mem_append_right _ later)) edit
            second
  · have uncommented := agree.resolve_left same
    by_cases begins : "PasswordAuthentication".toList <+: line
    · have written := passwordLine_mem old
      have first : "PasswordAuthentication".toList <+: old.passwordLine ∧
          ¬"#PasswordAuthentication".toList <+: old.passwordLine :=
        begins_passwordLine _ written
      rw [script_middle old uncommented begins, Option.bind_some, script_middle new first.2 first.1,
        script_middle _ uncommented begins]
      rfl
    · have left : ∀ env : BootEnvironment, script env.middle line = script env.later line := by
        intro env
        rw [middle, script_append, script_passwords env line uncommented, if_neg begins,
          Option.bind_some]
      have settled := @settles_middle { new with umask := old.umask }
      rw [left, left]
      change _ = script old.later line
      cases edited : script old.later line with
      | none => rfl
      | some made =>
          rw [Option.bind_some]
          refine script_of_forall fun edit member => ?_
          rcases List.mem_append.mp member with first | second
          · refine keeps_script (fun other within => ?_) line made ?_ edited
            · exact (List.pairwise_append.mp settled.keeps).2.2 edit first other within
            · obtain ⟨word, among, text, _, rfl⟩ := setPasswordAccess_cases new edit first
              refine congrArg some (change_of_not ?_)
              rcases List.mem_pair.mp among with rfl | rfl
              · exact uncommented
              · exact begins
          · exact fixed_later (settled.of_append.fixed edited) edit second

theorem edits_edits
    (agree : (old.Allows ↔ new.Allows) ∨ ¬"#PasswordAuthentication".toList <+: line) :
    (script old.edits line).bind (script new.edits) =
      script { new with umask := old.umask }.edits line := by
  have commutes : (script new.middle).Commutes (port.rewrite old.sshPortText) :=
    Commutes.script (commutes_middle (fits_digits _))
  rw [script_edits, script_edits { new with umask := old.umask }, ← middle_middle agree,
    Option.bind_map, Option.map_bind]
  refine congrArg _ (funext fun made => ?_)
  rw [Function.comp_apply, script_edits, commutes, Option.map_map]
  refine congrArg (Option.map · _) (funext fun made => ?_)
  exact Place.rewrite_rewrite (reads_digits _) made

/-- The lines that no command touches. -/
def remarks : List (List Char) := [[], "# Cloud Run SSH server".toList]

/-- The lines that the next start deletes. -/
def announced (env : BootEnvironment) : List (List Char) :=
  (if env.exportedUserName = "root".toList then ["PermitRootLogin yes".toList] else []) ++
    ["AuthorizedKeysFile /wssh/secrets/1/authorized_keys".toList, "AllowTcpForwarding yes".toList,
      "Banner /cloud_run_ssh_banner".toList]

def announcements : List (List Char) :=
  ["PermitRootLogin yes".toList, "AuthorizedKeysFile /wssh/secrets/1/authorized_keys".toList,
    "AllowTcpForwarding yes".toList, "Banner /cloud_run_ssh_banner".toList]

theorem announced_subset (env : BootEnvironment) : env.announced ⊆ announcements := by
  rw [announced]
  split
  · exact List.Subset.refl _
  · exact List.subset_cons_self _ _

theorem appended_eq (env : BootEnvironment) : env.appended = remarks ++ env.announced :=
  List.append_assoc _ _ _

/-- Lines that are neither for passwords nor for the umask. -/
theorem script_middle_other (env : BootEnvironment)
    (other : ∀ word ∈ passwordWords, ¬word <+: line) (ended : ¬sftpServer <:+ line) :
    script env.middle line = (script (overridden.map delete) line).bind (script settings) := by
  have uncommented := other _ List.mem_cons_self
  have unset := other _ (List.mem_cons_of_mem _ List.mem_cons_self)
  rw [middle, script_append, script_passwords env line uncommented, if_neg unset, Option.bind_some,
    later, List.cons_append, script, setUmask, total, substituteEnd_of_not ended, Option.bind_some,
    script_append]

theorem script_remark (env : BootEnvironment) (member : line ∈ remarks) :
    script env.edits line = some line := by
  have plain : ∀ line ∈ remarks,
      (∀ word ∈ passwordWords, ¬word <+: line) ∧ ¬sftpServer <:+ line ∧ port.rest? line = none ∧
        (script (overridden.map delete) line).bind (script settings) = some line := by decide
  obtain ⟨other, ended, unset, same⟩ := plain line member
  rw [script_edits, script_middle_other env other ended, same, Option.map_some,
    Place.rewrite_of_none unset]

theorem script_announced {old : BootEnvironment} (env : BootEnvironment)
    (member : line ∈ old.announced) : script env.edits line = none := by
  have deleted : ∀ line ∈ announcements,
      (∀ word ∈ passwordWords, ¬word <+: line) ∧ ¬sftpServer <:+ line ∧ ∃ pattern ∈ overridden, pattern <:+: line := by
    decide
  obtain ⟨other, ended, found⟩ := deleted line (announced_subset old member)
  rw [script_edits, script_middle_other env other ended, script_delete found, Option.bind_none,
    Option.map_none]

end BootEnvironment

open BootEnvironment

/-! ## The file over many starts -/

/-- A file after starts from some lines, the last of them with an environment.  What earlier starts
have appended is gone but for remarks. -/
def Booted (env : BootEnvironment) (lines file : List (List Char)) : Prop :=
  ∃ rest, (∀ line ∈ rest, line ∈ remarks) ∧ file = run env.edits lines ++ rest ++ env.appended

section Starts

variable {old new : BootEnvironment} {lines file : List (List Char)}

theorem Booted.boot (booted : Booted old lines file)
    (agree : (new.Allows ↔ old.Allows) ∨
      ∀ line ∈ lines, ¬"#PasswordAuthentication".toList <+: line) :
    Booted { new with umask := old.umask } lines (new.boot file) := by
  obtain ⟨rest, remarked, rfl⟩ := booted
  refine ⟨rest ++ remarks, ?_, ?_⟩
  · intro line member
    exact (List.mem_append.mp member).elim (remarked line) id
  · have again : run new.edits (run old.edits lines) =
        run { new with umask := old.umask }.edits lines := by
      rw [run_eq_filterMap, run_eq_filterMap, run_eq_filterMap, List.filterMap_filterMap]
      refine List.filterMap_congr fun line member => edits_edits ?_
      exact agree.imp Iff.symm fun uncommented => uncommented line member
    have kept : ∀ lines : List (List Char), (∀ line ∈ lines, line ∈ remarks) →
        run new.edits lines = lines := by
      intro lines remarked
      rw [run_eq_filterMap]
      exact (List.filterMap_congr fun line member =>
        script_remark new (remarked line member)).trans List.filterMap_some
    have gone : run new.edits old.announced = [] := by
      rw [run_eq_filterMap]
      exact List.filterMap_eq_nil_iff.mpr fun line member => script_announced new member
    rw [BootEnvironment.boot, run_append, run_append, again, kept rest remarked, appended_eq old,
      run_append, kept remarks fun _ member => member, gone]
    simp only [List.append_assoc, List.nil_append]
    rfl

theorem Booted.foldl {first : BootEnvironment} (booted : Booted first lines file)
    (later : List BootEnvironment)
    (agree : (∀ env ∈ later, env.Allows ↔ first.Allows) ∨
      ∀ line ∈ lines, ¬"#PasswordAuthentication".toList <+: line) :
    Booted { later.getLastD first with umask := first.umask } lines
      (later.foldl (fun lines env => env.boot lines) file) := by
  induction later generalizing first file with
  | nil => exact booted
  | cons env later ih =>
      have next := booted.boot (agree.imp_left fun all => all env List.mem_cons_self)
      have rest := ih next (agree.imp_left fun all other member =>
        (all other (List.mem_cons_of_mem _ member)).trans (all env List.mem_cons_self).symm)
      rw [List.foldl_cons]
      cases later with
      | nil => exact rest
      | cons other later => exact rest

theorem run_listenPort (env : BootEnvironment) (port : Option Digits) :
    run { env with listenPort := port }.edits lines = run env.edits lines := by
  rw [run_eq_filterMap, run_eq_filterMap]
  refine List.filterMap_congr fun line _ => ?_
  rw [script_edits, script_edits env]
  rfl

theorem directives_append (lines more : List (List Char)) :
    directives (lines ++ more) = directives lines ++ directives more :=
  List.filter_append _ _

/-- However often the container starts on the same file, and with whatever settings, the directives
are those of a single start with the last settings, but for the umask, which remains the first.
The port of the first script never counts.  Access with passwords is to be the same every time if
the file has it in a comment. -/
theorem directives_of_boots (first : BootEnvironment) (later : List BootEnvironment)
    (lines : List (List Char))
    (agree : (∀ env ∈ later, env.Allows ↔ first.Allows) ∨
      ∀ line ∈ lines, ¬"#PasswordAuthentication".toList <+: line) :
    directives (later.foldl (fun lines env => env.boot lines) (first.boot lines)) =
      directives ({ later.getLastD first with
        umask := first.umask, listenPort := none }.boot lines) := by
  have booted : Booted first lines (first.boot lines) :=
    ⟨[], List.forall_mem_nil _, by rw [List.append_nil]; rfl⟩
  obtain ⟨rest, remarked, same⟩ := booted.foldl later agree
  have silent : directives rest = [] := by
    have quiet : ∀ line ∈ remarks, ¬isDirective line := by decide
    exact List.filter_eq_nil_iff.mpr fun line member => quiet line (remarked line member)
  rw [same, directives_append, directives_append, silent, List.append_nil, BootEnvironment.boot,
    directives_append]
  refine congrArg (directives · ++ _) ?_
  exact (run_listenPort { later.getLastD first with umask := first.umask } none).symm

end Starts

/-- Two starts of a container whose file is on a volume. -/
theorem directives_of_boots_example :
    let first : BootEnvironment := { umask := some ⟨"077".toList, by decide, by decide⟩ }
    let second : BootEnvironment := { passwordAccess := "true".toList, userName := "root".toList }
    let lines := ["PasswordAuthentication no".toList, "#Port 22".toList]
    directives (second.boot (first.boot lines)) =
      directives ({ second with umask := first.umask, listenPort := none }.boot lines) := by
  intro first second lines
  exact directives_of_boots first [second] lines (.inr (by decide))

/-- What the file has of the settings that the scripts are about. -/
structure Configured (env : BootEnvironment) (file : List (List Char)) : Prop where
  port : ∀ line ∈ file, ∀ rest, port.rest? line = some rest →
    line = "Port ".toList ++ env.sshPortText ++ rest
  listenAddress : ∀ line ∈ file, listenAddress.rest? line = none
  x11Forwarding : ∀ line ∈ file, ∀ rest, x11Forwarding.rest? line = some rest →
    line = "X11Forwarding no".toList ++ rest
  tcpKeepAlive : ∀ line ∈ file, ∀ rest, tcpKeepAlive.rest? line = some rest →
    line = "TCPKeepAlive yes".toList ++ rest
  passwords : ∀ line ∈ file, "PasswordAuthentication".toList <+: line → line = env.passwordLine
  commented : env.Allows → ∀ line ∈ file, ¬"#PasswordAuthentication".toList <+: line
  umask : ∀ line ∈ file, ¬sftpServer <:+ line
  permitRootLogin : file.filter ("PermitRootLogin".toList <:+: ·) =
    if env.exportedUserName = "root".toList then ["PermitRootLogin yes".toList] else []
  authorizedKeysFile : file.filter ("AuthorizedKeysFile".toList <:+: ·) =
    ["AuthorizedKeysFile /wssh/secrets/1/authorized_keys".toList]
  allowTcpForwarding : file.filter ("AllowTcpForwarding".toList <:+: ·) =
    ["AllowTcpForwarding yes".toList]
  banner : file.filter ("Banner".toList <:+: ·) = ["Banner /cloud_run_ssh_banner".toList]

section Configured

variable {env : BootEnvironment} {lines : List (List Char)} {line : List Char}

/-- No command changes a line that the commands have made. -/
theorem fixed_of_run (member : line ∈ run env.edits lines) :
    ∀ edit ∈ env.middle ++ [total (port.rewrite env.sshPortText)], edit line = some line := by
  rw [run_eq_filterMap] at member
  obtain ⟨start, _, made⟩ := List.mem_filterMap.mp member
  rw [script_edits] at made
  obtain ⟨between, edited, rfl⟩ := Option.map_eq_some_iff.mp made
  have fits := fits_digits (env.sshPort.getD defaultPort)
  intro edit within
  rcases List.mem_append.mp within with inside | last
  · exact (commutes_middle fits edit inside).keeps between _
      (settles_middle.fixed edited edit inside) rfl
  · rw [List.mem_singleton.mp last]
    exact Place.idempotent fits between _ rfl

/-- What is appended is for none of the other settings. -/
theorem fixed_of_appended (member : line ∈ env.appended) :
    ∀ edit ∈ env.setPasswordAccess ++ env.setUmask :: settings ++
      [total (port.rewrite env.sshPortText)], edit line = some line := by
  have plain : ∀ line ∈ remarks ++ announcements,
      (∀ word ∈ passwordWords, ¬word <+: line) ∧ ¬sftpServer <:+ line ∧
        ∀ place ∈ [listenAddress, x11Forwarding, tcpKeepAlive, port], place.rest? line = none := by
    decide
  rw [appended_eq] at member
  obtain ⟨other, ended, unset⟩ := plain line (List.mem_append.mpr
    ((List.mem_append.mp member).imp_right fun within => announced_subset env within))
  simp only [List.forall_mem_cons] at unset
  intro edit within
  rw [List.append_assoc, List.mem_append, List.cons_append, List.mem_cons] at within
  rcases within with passwords | rfl | settings
  · obtain ⟨word, among, _, _, rfl⟩ := setPasswordAccess_cases env edit passwords
    exact congrArg some (change_of_not (other word among))
  · exact congrArg some (substituteEnd_of_not ended)
  · revert edit
    refine List.forall_mem_cons.mpr ⟨?_, List.forall_mem_cons.mpr ⟨?_, List.forall_mem_cons.mpr
      ⟨?_, List.forall_mem_singleton.mpr ?_⟩⟩⟩
    · exact congrArg some (Place.rewrite_of_none unset.1)
    · exact congrArg some (Place.rewrite_of_none unset.2.1)
    · exact congrArg some (Place.rewrite_of_none unset.2.2.1)
    · exact congrArg some (Place.rewrite_of_none unset.2.2.2.1)

theorem fixed_of_boot (member : line ∈ env.boot lines) :
    ∀ edit ∈ env.setPasswordAccess ++ env.setUmask :: settings ++
      [total (port.rewrite env.sshPortText)], edit line = some line := by
  rcases List.mem_append.mp member with edited | appended
  · intro edit within
    refine fixed_of_run edited edit ?_
    rw [middle, later]
    simp only [List.mem_append, List.mem_cons] at within ⊢
    rcases within with (passwords | umask | setting) | port
    · exact .inl (.inl passwords)
    · exact .inl (.inr (.inl (.inl umask)))
    · exact .inl (.inr (.inr setting))
    · exact .inr port
  · exact fixed_of_appended appended

/-- What is left of an overridden setting is what is appended. -/
theorem filter_boot {pattern : List Char} (member : pattern ∈ overridden) :
    (env.boot lines).filter (pattern <:+: ·) = env.announced.filter (pattern <:+: ·) := by
  have deleted : (run env.edits lines).filter (pattern <:+: ·) = [] := by
    refine List.filter_eq_nil_iff.mpr fun line within => ?_
    have deletes : delete pattern ∈ env.middle ++ [total (port.rewrite env.sshPortText)] := by
      rw [middle, later]
      simp only [List.mem_append, List.mem_cons, List.mem_map]
      exact .inl (.inr (.inl (.inr ⟨pattern, member, rfl⟩)))
    simpa using not_infix_of_delete (fixed_of_run within _ deletes)
  have unremarked : ∀ pattern ∈ overridden, remarks.filter (pattern <:+: ·) = [] := by decide
  rw [BootEnvironment.boot, appended_eq, List.filter_append, List.filter_append, deleted,
    unremarked pattern member]
  rfl

theorem change_mem_passwords (env : BootEnvironment) :
    total (change "PasswordAuthentication".toList env.passwordLine) ∈ env.setPasswordAccess := by
  rw [setPasswordAccess, passwordLine]
  split
  · exact List.mem_cons_of_mem _ List.mem_cons_self
  · exact List.mem_cons_self

/-- Whatever the file was, after a start every setting is what the environment says. -/
theorem configured_boot (env : BootEnvironment) (lines : List (List Char)) :
    Configured env (env.boot lines) := by
  have fixed : ∀ line ∈ env.boot lines, ∀ rewrite,
      total rewrite ∈ env.setPasswordAccess ++ env.setUmask :: settings ++
        [total (port.rewrite env.sshPortText)] → rewrite line = line :=
    fun line member rewrite within => Option.some.inj (fixed_of_boot member _ within)
  have found : ∀ (place : Place Char) (text : List Char),
      total (place.rewrite text) ∈ env.setPasswordAccess ++ env.setUmask :: settings ++
        [total (port.rewrite env.sshPortText)] →
      ∀ line ∈ env.boot lines, ∀ rest, place.rest? line = some rest →
        line = place.word ++ text ++ rest :=
    fun place text within line member rest found =>
      (fixed line member _ within).symm.trans (Place.rewrite_of_some found)
  have within : ∀ edit ∈ settings, edit ∈ env.setPasswordAccess ++ env.setUmask :: settings ++
      [total (port.rewrite env.sshPortText)] := fun edit member =>
    List.mem_append_left _ (List.mem_append_right _ (List.mem_cons_of_mem _ member))
  constructor
  · exact found port _ (List.mem_append_right _ List.mem_cons_self)
  · intro line member
    by_contra present
    obtain ⟨rest, reads⟩ := Option.ne_none_iff_exists'.mp present
    have same := found listenAddress _ (within _ List.mem_cons_self) line member rest reads
    rw [same, Place.rest?_written] at reads
    cases reads
  · intro line member rest reads
    exact found x11Forwarding _ (within _ (List.mem_cons_of_mem _ List.mem_cons_self)) line member
      rest reads
  · intro line member rest reads
    exact found tcpKeepAlive _ (within _ (List.mem_cons_of_mem _ (List.mem_cons_of_mem _
      List.mem_cons_self))) line member rest reads
  · intro line member begins
    exact (fixed line member _ (List.mem_append_left _ (List.mem_append_left _
      (change_mem_passwords env)))).symm.trans (change_of_begins begins)
  · intro allows line member begins
    have same := fixed line member
      (change "#PasswordAuthentication".toList "PasswordAuthentication yes".toList)
      (List.mem_append_left _ (List.mem_append_left _ (by
        rw [setPasswordAccess, if_pos allows]
        exact List.mem_cons_self)))
    rw [change_of_begins begins] at same
    exact absurd (same ▸ begins) (by decide)
  · intro line member
    refine not_suffix_of_substituteEnd (@ended_setUmask env) (fixed line member _ ?_)
    exact List.mem_append_left _ (List.mem_append_right _ List.mem_cons_self)
  · rw [filter_boot (by decide), announced]
    split <;> rfl
  · rw [filter_boot (by decide), announced]
    split <;> rfl
  · rw [filter_boot (by decide), announced]
    split <;> rfl
  · rw [filter_boot (by decide), announced]
    split <;> rfl

end Configured

end CloudRunSsh.SSHServer
