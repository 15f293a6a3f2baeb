import Mathlib.Data.Bool.AllAny
import Mathlib.Data.List.TakeWhile
import CloudRunSsh.Data.Lines
import CloudRunSsh.WebSSH.PrimaryDomain

/-!
# Host names

`is_valid_hostname` splits a name at its dots and matches the labels with two regular
expressions.  An end anchor of Python also matches before a newline at the end, and without
case the class of the letters has four more.
-/

namespace CloudRunSsh.WebSSH

/-- The other letters that match `[a-z]` with `re.IGNORECASE`: a capital I with a dot, a small
one without, the long s and the sign of the unit kelvin. -/
def oddLetters : List Nat := [0x130, 0x131, 0x17F, 0x212A]

/-- `[a-z0-9-]` without case. -/
def isAllowed (symbol : Nat) : Bool :=
  PyString.isLetter symbol || PyString.isDigit symbol || symbol == PyString.hyphen ||
    oddLetters.contains symbol

/-- `$`. -/
def atEnd (rest : PyString) : Bool := rest = [] ∨ rest = [PyString.newline]

/-- What a class that is repeated can take from the beginning of a text, the longest first, and
what it leaves. -/
def repeated (admits : Nat → Bool) (most : Nat) (text : PyString) : List (PyString × PyString) :=
  (List.range' 1 (min most (text.takeWhile admits).length)).reverse.map (text.splitAt ·)

/-- `numeric.match`. -/
def numericMatch (label : PyString) : Bool :=
  (repeated PyString.isDigit label.length label).any fun (_, rest) => atEnd rest

/-- `allowed.match`. -/
def allowedMatch (label : PyString) : Bool :=
  label.head? ≠ some PyString.hyphen &&
    (repeated isAllowed 63 label).any fun (taken, rest) =>
      taken.getLast? ≠ some PyString.hyphen && atEnd rest

/-- `is_valid_hostname`, which fails with an `IndexError` on an empty name. -/
def isValidHostname (hostname : PyString) : Option Bool :=
  (hostname.getItem (-1)).map fun last =>
    let hostname := if last = PyString.dot then hostname.dropLast else hostname
    if hostname.length > 253 then false
    else if numericMatch ((labels hostname).getLastD []) then false
    else (labels hostname).all allowedMatch

/-- A label of at most 63 letters, digits and hyphens, with no hyphen at its ends. -/
structure IsLabel (label : PyString) : Prop where
  nonempty : label ≠ []
  short : label.length ≤ 63
  plain : ∀ symbol ∈ label,
    PyString.isLetter symbol ∨ PyString.isDigit symbol ∨ symbol = PyString.hyphen
  first : label.head? ≠ some PyString.hyphen
  last : label.getLast? ≠ some PyString.hyphen

/-- Labels of which the last one is not a number. -/
structure AreLabels (labels : List PyString) : Prop where
  each : ∀ label ∈ labels, IsLabel label
  topLevel : ∀ label ∈ labels.getLast?, ∃ symbol ∈ label, PyString.isDigit symbol = false

/-- A name without the dot that it may end with. -/
def undotted (hostname : PyString) : PyString :=
  if hostname.getLast? = some PyString.dot then hostname.dropLast else hostname

/-- The names that are to be accepted. -/
structure IsHostname (hostname : PyString) : Prop where
  short : (undotted hostname).length ≤ 253
  named : AreLabels (labels (undotted hostname))

/-- A text without the newline that it may end with. -/
def unended (text : PyString) : PyString :=
  if text.getLast? = some PyString.newline then text.dropLast else text

theorem mem_repeated {admits : Nat → Bool} {most : Nat} {text taken rest : PyString} :
    (taken, rest) ∈ repeated admits most text ↔
      text = taken ++ rest ∧ taken ≠ [] ∧ taken.length ≤ most ∧
        ∀ symbol ∈ taken, admits symbol = true := by
  rw [repeated, List.mem_map]
  simp only [List.mem_reverse, List.mem_range'_1, List.splitAt_eq, Prod.mk.injEq]
  constructor
  · rintro ⟨count, ⟨some, few⟩, rfl, rfl⟩
    have front : text.take count = (text.takeWhile admits).take count := by
      conv_lhs => rw [← List.takeWhile_append_dropWhile (p := admits) (l := text)]
      exact List.take_append_of_le_length (by omega)
    have length : (text.take count).length = count := by
      rw [front, List.length_take]
      omega
    refine ⟨(List.take_append_drop count text).symm, ?_, by omega, ?_⟩
    · rw [← List.length_pos_iff]
      omega
    · intro symbol member
      rw [front] at member
      exact List.mem_takeWhile_imp (List.mem_of_mem_take member)
  · rintro ⟨rfl, filled, short, all⟩
    refine ⟨taken.length, ⟨List.length_pos_iff.mpr filled, ?_⟩, List.take_left, List.drop_left⟩
    rw [List.takeWhile_append_of_pos all, List.length_append]
    omega

/-- What is taken up to the end is the text without a newline at its end. -/
theorem unended_append {taken rest : PyString} (plain : PyString.newline ∉ taken)
    (ended : atEnd rest = true) : unended (taken ++ rest) = taken := by
  rw [unended]
  rcases of_decide_eq_true ended with rfl | rfl
  · rw [List.append_nil, if_neg]
    exact fun last => plain (List.mem_of_getLast? last)
  · rw [if_pos List.getLast?_concat, List.dropLast_concat]

theorem exists_ending (text : PyString) :
    ∃ rest, text = unended text ++ rest ∧ atEnd rest = true := by
  rw [unended]
  split_ifs with last
  · exact ⟨[PyString.newline], (List.dropLast_append_getLast? _ last).symm, by decide⟩
  · exact ⟨[], (List.append_nil text).symm, rfl⟩

/-- A class that is repeated up to the end matches the text without a newline at its end. -/
theorem any_repeated (admits : Nat → Bool) (excluded : admits PyString.newline = false)
    (accepts : PyString → Bool) (most : Nat) (text : PyString) :
    ((repeated admits most text).any fun (taken, rest) => accepts taken && atEnd rest) = true ↔
      unended text ≠ [] ∧ (unended text).length ≤ most ∧
        (∀ symbol ∈ unended text, admits symbol = true) ∧ accepts (unended text) = true := by
  rw [List.any_eq_true]
  constructor
  · rintro ⟨⟨taken, rest⟩, member, accepted⟩
    obtain ⟨rfl, filled, short, all⟩ := mem_repeated.mp member
    obtain ⟨accepted, ended⟩ := Bool.and_eq_true_iff.mp accepted
    have plain : PyString.newline ∉ taken := fun inside =>
      absurd (all _ inside) (by rw [excluded]; exact Bool.false_ne_true)
    rw [unended_append plain ended]
    exact ⟨filled, short, all, accepted⟩
  · rintro ⟨filled, short, all, accepted⟩
    obtain ⟨rest, split, ended⟩ := exists_ending text
    exact ⟨(unended text, rest), mem_repeated.mpr ⟨split, filled, short, all⟩,
      Bool.and_eq_true_iff.mpr ⟨accepted, ended⟩⟩

theorem numericMatch_iff (label : PyString) :
    numericMatch label = true ↔
      unended label ≠ [] ∧ ∀ symbol ∈ unended label, PyString.isDigit symbol = true := by
  have fits : (unended label).length ≤ label.length := by
    obtain ⟨rest, split, _⟩ := exists_ending label
    have lengths := congrArg List.length split
    rw [List.length_append] at lengths
    omega
  have matched := any_repeated PyString.isDigit (by decide) (fun _ => true) label.length label
  rw [and_iff_right fits, and_iff_left rfl] at matched
  exact matched

theorem allowedMatch_iff (label : PyString) :
    allowedMatch label = true ↔
      label.head? ≠ some PyString.hyphen ∧ unended label ≠ [] ∧ (unended label).length ≤ 63 ∧
        (∀ symbol ∈ unended label, isAllowed symbol = true) ∧
        (unended label).getLast? ≠ some PyString.hyphen := by
  have matched := any_repeated isAllowed (by decide)
    (fun taken => taken.getLast? ≠ some PyString.hyphen) 63 label
  rw [decide_eq_true_iff] at matched
  rw [allowedMatch, Bool.and_eq_true_iff, decide_eq_true_iff]
  exact and_congr_right fun _ => matched

/-- A letter of ASCII for one of the others. -/
def asLetter (symbol : Nat) : Nat := if oddLetters.contains symbol then 'k'.toNat else symbol

/-- A label without what the expressions do not tell from a label. -/
def disclosed (label : PyString) : PyString := (unended label).map asLetter

/-- A name that is no name of the grammar because of a newline after a label or because of a
letter that is not in ASCII, but would be one otherwise. -/
structure Disguised (hostname : PyString) : Prop where
  odd : ∃ symbol ∈ hostname, symbol = PyString.newline ∨ symbol ∈ oddLetters
  short : (undotted hostname).length ≤ 253
  named : AreLabels ((labels (undotted hostname)).map disclosed)

theorem asLetter_of_not_mem {symbol : Nat} (plain : symbol ∉ oddLetters) :
    asLetter symbol = symbol := by
  rw [asLetter, if_neg]
  rwa [List.contains_iff_mem]

theorem asLetter_eq_hyphen {symbol : Nat} :
    asLetter symbol = PyString.hyphen ↔ symbol = PyString.hyphen := by
  by_cases odd : symbol ∈ oddLetters
  · have all : ∀ symbol ∈ oddLetters,
        (asLetter symbol = PyString.hyphen ↔ symbol = PyString.hyphen) :=
      List.all_iff_forall_prop.mp (by decide)
    exact all symbol odd
  · rw [asLetter_of_not_mem odd]

theorem isDigit_asLetter (symbol : Nat) :
    PyString.isDigit (asLetter symbol) = PyString.isDigit symbol := by
  by_cases odd : symbol ∈ oddLetters
  · have all : ∀ symbol ∈ oddLetters,
        PyString.isDigit (asLetter symbol) = PyString.isDigit symbol :=
      List.all_iff_forall_prop.mp (by decide)
    exact all symbol odd
  · rw [asLetter_of_not_mem odd]

theorem isAllowed_iff {symbol : Nat} :
    isAllowed symbol = true ↔ PyString.isLetter (asLetter symbol) ∨
      PyString.isDigit (asLetter symbol) ∨ asLetter symbol = PyString.hyphen := by
  by_cases odd : symbol ∈ oddLetters
  · have all : ∀ symbol ∈ oddLetters, isAllowed symbol = true ∧
        PyString.isLetter (asLetter symbol) = true := List.all_iff_forall_prop.mp (by decide)
    exact iff_of_true (all symbol odd).1 (.inl (all symbol odd).2)
  · rw [asLetter_of_not_mem odd, isAllowed]
    simp [odd, or_assoc]

theorem head?_unended {label : PyString} (filled : unended label ≠ []) :
    (unended label).head? = label.head? := by
  obtain ⟨rest, split, _⟩ := exists_ending label
  obtain ⟨first, others, found⟩ := List.exists_cons_of_ne_nil filled
  rw [found] at split ⊢
  rw [split]
  rfl

/-- What `allowed` matches is a label, apart from what it does not tell from one. -/
theorem allowedMatch_iff_isLabel {label : PyString} :
    allowedMatch label = true ↔ IsLabel (disclosed label) := by
  have hyphens : ∀ symbol : Option Nat, symbol.map asLetter = some PyString.hyphen ↔
      symbol = some PyString.hyphen := by
    intro symbol
    cases symbol with
    | none => exact iff_of_false nofun nofun
    | some symbol => simpa using asLetter_eq_hyphen
  rw [allowedMatch_iff]
  constructor
  · rintro ⟨first, filled, short, plain, last⟩
    constructor
    · rwa [disclosed, ne_eq, List.map_eq_nil_iff]
    · rwa [disclosed, List.length_map]
    · exact List.forall_mem_map.mpr fun symbol member => isAllowed_iff.mp (plain symbol member)
    · rwa [disclosed, List.head?_map, ne_eq, hyphens, head?_unended filled]
    · rwa [disclosed, List.getLast?_map, ne_eq, hyphens]
  · rintro ⟨filled, short, plain, first, last⟩
    rw [disclosed, ne_eq, List.map_eq_nil_iff] at filled
    rw [disclosed, List.length_map] at short
    rw [disclosed, List.head?_map, ne_eq, hyphens, head?_unended filled] at first
    rw [disclosed, List.getLast?_map, ne_eq, hyphens] at last
    exact ⟨first, filled, short,
      fun symbol member => isAllowed_iff.mpr (List.forall_mem_map.mp plain symbol member), last⟩

/-- The last label is a number if it is one without a newline at its end. -/
theorem numericMatch_eq_false_iff {label : PyString} (filled : unended label ≠ []) :
    numericMatch label = false ↔
      ∃ symbol ∈ disclosed label, PyString.isDigit symbol = false := by
  have numeric := not_congr (numericMatch_iff label)
  rw [Bool.not_eq_true, and_iff_right filled] at numeric
  simp only [numeric, disclosed, List.mem_map, exists_exists_and_eq_and, isDigit_asLetter]
  simp

/-- The checks of the labels. -/
theorem areLabels_disclosed_iff {front : List PyString} {last : PyString} :
    AreLabels ((front ++ [last]).map disclosed) ↔
      numericMatch last = false ∧ (front ++ [last]).all allowedMatch = true := by
  have matched : ((front ++ [last]).all allowedMatch = true) ↔
      ∀ label ∈ (front ++ [last]).map disclosed, IsLabel label := by
    rw [List.all_eq_true, List.forall_mem_map]
    exact forall₂_congr fun label _ => allowedMatch_iff_isLabel
  have topmost : ((front ++ [last]).map disclosed).getLast? = some (disclosed last) := by
    rw [List.map_append]
    exact List.getLast?_concat
  have filled : (∀ label ∈ (front ++ [last]).map disclosed, IsLabel label) → unended last ≠ [] := by
    intro each
    have label := each (disclosed last) (List.mem_map_of_mem List.mem_concat_self)
    exact mt List.map_eq_nil_iff.mpr label.nonempty
  constructor
  · rintro ⟨each, topLevel⟩
    exact ⟨(numericMatch_eq_false_iff (filled each)).mpr (topLevel _ topmost),
      matched.mpr each⟩
  · rintro ⟨numeric, all⟩
    have each := matched.mp all
    refine ⟨each, ?_⟩
    rw [topmost]
    rintro _ ⟨⟩
    exact (numericMatch_eq_false_iff (filled each)).mp numeric

/-- What is accepted is a name, apart from what is not told from one. -/
theorem isValidHostname_iff (hostname : PyString) :
    isValidHostname hostname = some true ↔
      (undotted hostname).length ≤ 253 ∧
        AreLabels ((labels (undotted hostname)).map disclosed) := by
  rw [isValidHostname, PyString.getItem_last]
  cases ending : hostname.getLast? with
  | none =>
      obtain rfl := List.getLast?_eq_none_iff.mp ending
      refine iff_of_false nofun ?_
      rintro ⟨_, named⟩
      exact (named.each [] (List.mem_singleton_self _)).nonempty rfl
  | some last =>
      have name : (if last = PyString.dot then hostname.dropLast else hostname) =
          undotted hostname := by
        rw [undotted, ending]
        exact if_congr Option.some_inj.symm rfl rfl
      obtain ⟨front, topmost, split⟩ :=
        (List.eq_nil_or_concat (labels (undotted hostname))).resolve_left
          (List.splitOn_ne_nil PyString.dot _)
      rw [List.concat_eq_append] at split
      rw [Option.map_some, Option.some_inj, name, split, areLabels_disclosed_iff]
      dsimp only
      rw [split, List.getLastD_concat]
      split_ifs with long numeric
      · exact iff_of_false not_false fun short => absurd short.1 (Nat.not_le.mpr long)
      · refine iff_of_false not_false fun valid => ?_
        rw [numeric] at valid
        exact absurd valid.2.1 Bool.noConfusion
      · rw [and_iff_right (Nat.not_lt.mp long), and_iff_right (Bool.eq_false_iff.mpr numeric)]

/-- A symbol of a name, other than a dot, is in one of its labels. -/
theorem exists_label {hostname : PyString} {symbol : Nat} (member : symbol ∈ hostname)
    (other : symbol ≠ PyString.dot) : ∃ label ∈ labels (undotted hostname), symbol ∈ label := by
  have inside : symbol ∈ undotted hostname := by
    rw [undotted]
    split_ifs with last
    · rw [← List.dropLast_append_getLast? _ last] at member
      exact (List.mem_append.mp member).resolve_right (mt List.mem_singleton.mp other)
    · exact member
  exact LineFormat.exists_mem_splitOn inside other

theorem mem_of_mem_labels {hostname label : PyString} {symbol : Nat}
    (found : label ∈ labels (undotted hostname)) (member : symbol ∈ label) : symbol ∈ hostname := by
  rw [labels, List.splitOn_eq_splitOnP] at found
  have inside := (LineFormat.not_mem_of_mem_splitOnP found symbol member).1
  rw [undotted] at inside
  split_ifs at inside
  · exact (List.dropLast_prefix hostname).mem inside
  · exact inside

/-- Nothing is taken for something else in a label that has only plain symbols. -/
theorem disclosed_of_plain {label : PyString} (whole : PyString.newline ∉ label)
    (plain : ∀ symbol ∈ label, symbol ∉ oddLetters) : disclosed label = label := by
  have same : unended label = label := if_neg fun last => whole (List.mem_of_getLast? last)
  have letters : label.map asLetter = label.map id :=
    List.map_congr_left fun symbol member => asLetter_of_not_mem (plain symbol member)
  rw [disclosed, same, letters, List.map_id]

/-- All labels of a name of plain symbols are what they seem. -/
theorem map_disclosed_labels {hostname : PyString}
    (plain : ¬∃ symbol ∈ hostname, symbol = PyString.newline ∨ symbol ∈ oddLetters) :
    (labels (undotted hostname)).map disclosed = labels (undotted hostname) := by
  have each : ∀ label ∈ labels (undotted hostname), disclosed label = id label := by
    intro label found
    apply disclosed_of_plain
    · exact fun member => plain ⟨_, mem_of_mem_labels found member, .inl rfl⟩
    · exact fun symbol member other => plain ⟨symbol, mem_of_mem_labels found member, .inr other⟩
  rw [List.map_congr_left each, List.map_id]

/-- What is accepted is a name or disguised as one. -/
theorem isHostname_or_disguised {hostname : PyString}
    (valid : isValidHostname hostname = some true) : IsHostname hostname ∨ Disguised hostname := by
  obtain ⟨short, named⟩ := (isValidHostname_iff hostname).mp valid
  by_cases odd : ∃ symbol ∈ hostname, symbol = PyString.newline ∨ symbol ∈ oddLetters
  · exact .inr ⟨odd, short, named⟩
  · rw [map_disclosed_labels odd] at named
    exact .inl ⟨short, named⟩

/-- A label has only plain symbols. -/
theorem IsLabel.not_odd {label : PyString} (named : IsLabel label) {symbol : Nat}
    (member : symbol ∈ label) : ¬(symbol = PyString.newline ∨ symbol ∈ oddLetters) := by
  have all : ∀ symbol ∈ PyString.newline :: oddLetters, ¬(PyString.isLetter symbol ∨
      PyString.isDigit symbol ∨ symbol = PyString.hyphen) := List.all_iff_forall_prop.mp (by decide)
  exact fun odd => all symbol (List.mem_cons.mpr odd) (named.plain symbol member)

/-- `is_valid_hostname` accepts exactly the names of the grammar, but for a name that has a
newline after a label or a letter for another one. -/
theorem isValidHostname_iff_isHostname (hostname : PyString) :
    (isValidHostname hostname = some true ↔ IsHostname hostname) ↔ ¬Disguised hostname := by
  by_cases odd : ∃ symbol ∈ hostname, symbol = PyString.newline ∨ symbol ∈ oddLetters
  · have unnamed : ¬IsHostname hostname := by
      rintro ⟨_, named⟩
      obtain ⟨symbol, member, odd⟩ := odd
      have other : symbol ≠ PyString.dot := by
        rintro rfl
        exact absurd odd (by decide)
      obtain ⟨label, found, inside⟩ := exists_label member other
      exact (named.each label found).not_odd inside odd
    rw [iff_false_right unnamed, isValidHostname_iff]
    exact not_congr ⟨fun valid => ⟨odd, valid.1, valid.2⟩, fun disguised =>
      ⟨disguised.short, disguised.named⟩⟩
  · have undisguised : ¬Disguised hostname := fun disguised => odd disguised.odd
    rw [iff_true_right undisguised, isValidHostname_iff, map_disclosed_labels odd]
    exact ⟨fun valid => ⟨valid.1, valid.2⟩, fun named => ⟨named.short, named.named⟩⟩

/-- A newline at the end is accepted. -/
theorem isValidHostname_newline_fails :
    ¬∀ hostname, hostname ≠ [] → (isValidHostname hostname = some true ↔ IsHostname hostname) := by
  intro always
  have named := (always (PyString.ofText "a\n") (by decide)).mp (by decide)
  have label := named.named.each (PyString.ofText "a\n") (by decide)
  have ending : PyString.newline ∈ PyString.ofText "a\n" := by decide
  exact label.not_odd ending (.inl rfl)

end CloudRunSsh.WebSSH
