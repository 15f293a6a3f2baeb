import Mathlib.Algebra.BigOperators.Group.List.Basic
import Mathlib.Algebra.GroupWithZero.Nat
import CloudRunSsh.Data.JavaScript
import CloudRunSsh.Data.Regex

/-!
# The control sequences of the transcript

Before output goes to the transcript, everything that `controlSequenceRegex` matches is
taken out.
-/

namespace CloudRunSsh.WebSSH

/-- The unit of a character of ASCII. -/
def unit (char : Char) : UInt16 := UInt16.ofNat char.toNat

def esc : UInt16 := unit '\x1B'

def oneOf (chars : List Char) (symbol : UInt16) : Bool := (chars.map unit).contains symbol

/-- `[0-9]` -/
def isDigit (symbol : UInt16) : Bool := 0x30 ≤ symbol.toNat && symbol.toNat ≤ 0x39

/-- `[A-Z]` -/
def isUpper (symbol : UInt16) : Bool := 0x41 ≤ symbol.toNat && symbol.toNat ≤ 0x5A

/-- `[a-z]` -/
def isLower (symbol : UInt16) : Bool := 0x61 ≤ symbol.toNat && symbol.toNat ≤ 0x7A

/-- `[a-zA-Z]` -/
def isLetter (symbol : UInt16) : Bool := isLower symbol || isUpper symbol

/-- `[0A-Z]` -/
def isCharset (symbol : UInt16) : Bool := symbol == unit '0' || isUpper symbol

/-- `([0-9]*;)*` -/
def parametersRegex : Regex UInt16 := .star (.seq (.star (.set isDigit)) (.set (oneOf [';'])))

/-- `([0-9]*[a-zA-Z])?` -/
def finalRegex : Regex UInt16 := .opt (.seq (.star (.set isDigit)) (.set isLetter))

/-- `[\[\]]([0-9]*;)*[\?>]?([0-9]*[a-zA-Z])?` -/
def bracketRegex : Regex UInt16 :=
  .seq (.set (oneOf ['[', ']']))
    (.seq parametersRegex (.seq (.opt (.set (oneOf ['?', '>']))) finalRegex))

/-- `[\(\)>=][0A-Z]?` -/
def designationRegex : Regex UInt16 :=
  .seq (.set (oneOf ['(', ')', '>', '='])) (.opt (.set isCharset))

/-- What may follow the escape character. -/
def afterEscRegex : Regex UInt16 := .opt (.alt bracketRegex designationRegex)

/-- `controlSequenceRegex`. -/
def controlSequenceRegex : Regex UInt16 := .seq (.set (oneOf ['\x1B'])) afterEscRegex

theorem oneOf_iff {chars : List Char} {symbol : UInt16} :
    oneOf chars symbol = true ↔ ∃ char ∈ chars, unit char = symbol := by
  rw [oneOf, List.contains_iff_mem, List.mem_map]

theorem not_digit_of_letter {symbol : UInt16} (letter : isLetter symbol = true) :
    isDigit symbol = false := by
  simp only [isLetter, isLower, isUpper, Bool.or_eq_true, Bool.and_eq_true,
    decide_eq_true_eq] at letter
  simp only [isDigit, Bool.and_eq_false_iff, decide_eq_false_iff_not]
  omega

/-- A digit is in none of the sets that come after digits. -/
theorem rests_set_digit {admits : UInt16 → Bool}
    (disjoint : ∀ symbol, isDigit symbol = true → admits symbol = false) (symbol : UInt16)
    (text : JSString) (digit : isDigit symbol = true) :
    (Regex.set admits).rests (symbol :: text) = [] := by
  rw [Regex.rests, disjoint symbol digit]
  rfl

theorem digit_not_semicolon (symbol : UInt16) (digit : isDigit symbol = true) :
    oneOf [';'] symbol = false := by
  by_contra semicolon
  obtain ⟨char, member, rfl⟩ := oneOf_iff.mp (eq_true_of_ne_false semicolon)
  rw [List.mem_singleton.mp member] at digit
  exact absurd digit (by decide)

theorem digit_not_letter (symbol : UInt16) (digit : isDigit symbol = true) :
    isLetter symbol = false := by
  by_contra letter
  rw [not_digit_of_letter (eq_true_of_ne_false letter)] at digit
  cases digit

/-- Parameters that are followed by a semicolon are consumed. -/
theorem exec_parameters (text : JSString) :
    parametersRegex.exec text =
      match text.dropWhile isDigit with
      | [] => some text
      | symbol :: rest =>
          if oneOf [';'] symbol then parametersRegex.exec rest else some text := by
  rw [parametersRegex, Regex.exec_star Regex.progresses_set.seq_right,
    Regex.exec_star_seq (fun symbol rest digit =>
      rests_set_digit digit_not_semicolon symbol rest digit)]
  cases text.dropWhile isDigit with
  | nil => rfl
  | cons symbol rest =>
      rw [Regex.exec_set_cons]
      by_cases semicolon : oneOf [';'] symbol = true
      · simp only [semicolon, if_true]
      · simp only [semicolon, Bool.false_eq_true, if_false]

/-- A final letter is consumed with the digits before it. -/
theorem exec_final (text : JSString) :
    finalRegex.exec text =
      match text.dropWhile isDigit with
      | [] => some text
      | symbol :: rest => if isLetter symbol then some rest else some text := by
  rw [finalRegex, Regex.exec_opt Regex.progresses_set.seq_right,
    Regex.exec_star_seq (fun symbol rest digit =>
      rests_set_digit digit_not_letter symbol rest digit)]
  cases text.dropWhile isDigit with
  | nil => rfl
  | cons symbol rest =>
      rw [Regex.exec_set_cons]
      dsimp only
      split <;> rfl

theorem exec_mark (symbol : UInt16) (text : JSString) :
    (Regex.opt (.set (oneOf ['?', '>']))).exec (symbol :: text) =
      some (if oneOf ['?', '>'] symbol then text else symbol :: text) := by
  rw [Regex.exec_opt Regex.progresses_set, Regex.exec_set_cons]
  split <;> rfl

theorem total_final : finalRegex.Total := Regex.total_opt _

theorem total_marked : (Regex.seq (.opt (.set (oneOf ['?', '>']))) finalRegex).Total :=
  (Regex.total_opt _).seq total_final

theorem total_parameters :
    (Regex.seq parametersRegex (.seq (.opt (.set (oneOf ['?', '>']))) finalRegex)).Total :=
  Regex.Total.seq (Regex.total_star _) total_marked

theorem exec_bracket (symbol : UInt16) (text : JSString) :
    bracketRegex.exec (symbol :: text) =
      if oneOf ['[', ']'] symbol then
        ((parametersRegex.exec text).bind (Regex.opt (.set (oneOf ['?', '>']))).exec).bind
          finalRegex.exec
      else none := by
  rw [bracketRegex, Regex.exec_seq total_parameters, Regex.exec_set_cons]
  split
  · rw [Option.bind_some, Regex.exec_seq total_marked, Option.bind_assoc]
    apply congrArg (Option.bind _)
    funext rest
    exact Regex.exec_seq total_final rest
  · rfl

theorem exec_designation (symbol : UInt16) (text : JSString) :
    designationRegex.exec (symbol :: text) =
      if oneOf ['(', ')', '>', '='] symbol then
        some (((Regex.set isCharset).exec text).getD text)
      else none := by
  rw [designationRegex, Regex.exec_seq (Regex.total_opt _), Regex.exec_set_cons]
  split
  · exact Regex.exec_opt Regex.progresses_set text
  · rfl

theorem progresses_afterEsc : (Regex.alt bracketRegex designationRegex).Progresses :=
  Regex.Progresses.alt Regex.progresses_set.seq_left Regex.progresses_set.seq_left

theorem total_afterEsc : afterEscRegex.Total := Regex.total_opt _

/-- An escape character is matched with what the rest of the expression matches. -/
theorem exec_cons_esc (text : JSString) :
    controlSequenceRegex.exec (esc :: text) = afterEscRegex.exec text := by
  rw [controlSequenceRegex, Regex.exec_seq total_afterEsc, Regex.exec_set_cons,
    if_pos (by decide), Option.bind_some]

/-- An escape character is matched with what belongs to it. -/
theorem exec_esc (text : JSString) :
    controlSequenceRegex.exec (esc :: text) =
      some (((bracketRegex.exec text).or (designationRegex.exec text)).getD text) := by
  rw [exec_cons_esc, afterEscRegex, Regex.exec_opt progresses_afterEsc, Regex.exec_alt]

/-- Nothing else is matched. -/
theorem exec_other {symbol : UInt16} (other : symbol ≠ esc) (text : JSString) :
    controlSequenceRegex.exec (symbol :: text) = none := by
  rw [controlSequenceRegex, Regex.exec_seq total_afterEsc, Regex.exec_set_cons, if_neg]
  · rfl
  · intro escape
    obtain ⟨char, member, rfl⟩ := oneOf_iff.mp escape
    rw [List.mem_singleton.mp member] at other
    exact other rfl

/-- A parameter of a control sequence. -/
structure Parameter where
  digits : JSString
  decimal : ∀ digit ∈ digits, isDigit digit = true

/-- `?` or `>` before the parameters. -/
inductive PrivateMark where
  | question
  | greater

def PrivateMark.symbol : PrivateMark → UInt16
  | question => unit '?'
  | greater => unit '>'

structure FinalLetter where
  symbol : UInt16
  letter : isLetter symbol = true

structure Designator where
  symbol : UInt16
  charset : isCharset symbol = true

/-- The kinds of sequences that the expression names. -/
inductive ControlSequence where
  | csi (mark : Option PrivateMark) (parameters : List Parameter) (final : FinalLetter)
  | designation (closing : Bool) (designator : Designator)
  | keypad (numeric : Bool)

/-- The parameters with the semicolons between them. -/
def joined (parameters : List Parameter) : JSString :=
  [unit ';'].intercalate (parameters.map Parameter.digits)

def ControlSequence.text : ControlSequence → JSString
  | csi mark parameters final =>
      esc :: unit '[' :: ((mark.map PrivateMark.symbol).toList ++ joined parameters ++
        [final.symbol])
  | designation closing designator =>
      [esc, unit (if closing then ')' else '('), designator.symbol]
  | keypad numeric => [esc, unit (if numeric then '>' else '=')]

/-- Output without escape characters. -/
structure Printable where
  text : JSString
  plain : esc ∉ text

/-- Runs of printable output with control sequences between them. -/
structure Output where
  first : Printable
  rest : List (ControlSequence × Printable)

def Output.text (output : Output) : JSString :=
  output.first.text ++ output.rest.flatMap fun entry => entry.1.text ++ entry.2.text

/-- The output without the control sequences. -/
def Output.printed (output : Output) : JSString :=
  output.first.text ++ output.rest.flatMap fun entry => entry.2.text

/-- Digits before something else than a digit. -/
theorem dropWhile_digits {digits : JSString} (decimal : ∀ digit ∈ digits, isDigit digit = true)
    {symbol : UInt16} (other : isDigit symbol = false) (rest : JSString) :
    (digits ++ symbol :: rest).dropWhile isDigit = symbol :: rest := by
  rw [List.dropWhile_append_of_pos decimal, List.dropWhile_cons_of_neg]
  rw [other]
  exact Bool.false_ne_true

theorem joined_cons_cons (parameter next : Parameter) (parameters : List Parameter) :
    joined (parameter :: next :: parameters) =
      parameter.digits ++ unit ';' :: joined (next :: parameters) := by
  simp only [joined, List.map_cons, List.intercalate_cons_cons, List.append_assoc,
    List.singleton_append]

theorem joined_singleton (parameter : Parameter) : joined [parameter] = parameter.digits :=
  List.intercalate_singleton

/-- A text that begins with no parameter before a semicolon is left as it is. -/
theorem exec_parameters_of_digits {digits : JSString}
    (decimal : ∀ digit ∈ digits, isDigit digit = true) {symbol : UInt16}
    (other : isDigit symbol = false) (last : oneOf [';'] symbol = false) (rest : JSString) :
    parametersRegex.exec (digits ++ symbol :: rest) = some (digits ++ symbol :: rest) := by
  rw [exec_parameters, dropWhile_digits decimal other]
  dsimp only
  rw [last, if_neg Bool.false_ne_true]

theorem letter_not_semicolon {symbol : UInt16} (letter : isLetter symbol = true) :
    oneOf [';'] symbol = false := by
  by_contra semicolon
  obtain ⟨char, member, rfl⟩ := oneOf_iff.mp (eq_true_of_ne_false semicolon)
  rw [List.mem_singleton.mp member] at letter
  exact absurd letter (by decide)

/-- All parameters but the last one are consumed. -/
theorem exec_parameters_joined (parameters : List Parameter) {symbol : UInt16}
    (letter : isLetter symbol = true) (rest : JSString) :
    ∃ digits : JSString, (∀ digit ∈ digits, isDigit digit = true) ∧
      parametersRegex.exec (joined parameters ++ symbol :: rest) =
        some (digits ++ symbol :: rest) := by
  have other := not_digit_of_letter letter
  have last := letter_not_semicolon letter
  induction parameters with
  | nil =>
      have none : ∀ digit ∈ ([] : JSString), isDigit digit = true := List.forall_mem_nil _
      exact ⟨[], none, exec_parameters_of_digits none other last rest⟩
  | cons parameter parameters ih =>
      cases parameters with
      | nil =>
          refine ⟨parameter.digits, parameter.decimal, ?_⟩
          rw [joined_singleton]
          exact exec_parameters_of_digits parameter.decimal other last rest
      | cons next parameters =>
          obtain ⟨digits, decimal, found⟩ := ih
          refine ⟨digits, decimal, ?_⟩
          rw [joined_cons_cons, List.append_assoc, List.cons_append, exec_parameters,
            dropWhile_digits parameter.decimal (by decide)]
          exact (if_pos (by decide)).trans found

/-- Digits and the final letter are consumed. -/
theorem exec_final_of_digits {digits : JSString}
    (decimal : ∀ digit ∈ digits, isDigit digit = true) {symbol : UInt16}
    (letter : isLetter symbol = true) (rest : JSString) :
    finalRegex.exec (digits ++ symbol :: rest) = some rest := by
  rw [exec_final, dropWhile_digits decimal (not_digit_of_letter letter)]
  exact if_pos letter

theorem not_mark {symbol : UInt16} (plain : isDigit symbol = true ∨ isLetter symbol = true) :
    oneOf ['?', '>'] symbol = false := by
  by_contra mark
  obtain ⟨char, member, rfl⟩ := oneOf_iff.mp (eq_true_of_ne_false mark)
  rcases List.mem_pair.mp member with rfl | rfl
  · exact absurd plain (by decide)
  · exact absurd plain (by decide)

/-- A sequence without a mark is consumed whole. -/
theorem exec_csi_unmarked (parameters : List Parameter) (final : FinalLetter)
    (following : JSString) :
    controlSequenceRegex.exec
        ((ControlSequence.csi none parameters final).text ++ following) =
      some following := by
  obtain ⟨digits, decimal, consumed⟩ :=
    exec_parameters_joined parameters final.letter following
  have unmarked : (Regex.opt (.set (oneOf ['?', '>']))).exec
      (digits ++ final.symbol :: following) = some (digits ++ final.symbol :: following) := by
    cases digits with
    | nil =>
        rw [List.nil_append, exec_mark, not_mark (.inr final.letter)]
        rfl
    | cons digit digits =>
        rw [List.cons_append, exec_mark,
          not_mark (.inl (decimal digit List.mem_cons_self))]
        rfl
  simp only [ControlSequence.text, Option.map_none, Option.toList_none, List.nil_append,
    List.cons_append, List.append_assoc]
  rw [exec_esc, exec_bracket, if_pos (by decide), consumed, Option.bind_some, unmarked,
    Option.bind_some, exec_final_of_digits decimal final.letter]
  rfl

theorem PrivateMark.oneOf_symbol (mark : PrivateMark) :
    oneOf ['?', '>'] mark.symbol = true := by
  cases mark <;> decide

/-- After a mark only the first parameter is consumed, and only if it is the last one. -/
theorem exec_csi_marked (mark : PrivateMark) (parameters : List Parameter)
    (final : FinalLetter) (following : JSString) :
    controlSequenceRegex.exec
        ((ControlSequence.csi (some mark) parameters final).text ++ following) =
      some (if parameters.length ≤ 1 then following
        else joined parameters ++ final.symbol :: following) := by
  have started : parametersRegex.exec
      (mark.symbol :: (joined parameters ++ final.symbol :: following)) =
        some (mark.symbol :: (joined parameters ++ final.symbol :: following)) := by
    apply exec_parameters_of_digits (List.forall_mem_nil _)
    · cases mark <;> decide
    · cases mark <;> decide
  have finished : finalRegex.exec (joined parameters ++ final.symbol :: following) =
      some (if parameters.length ≤ 1 then following
        else joined parameters ++ final.symbol :: following) := by
    cases parameters with
    | nil =>
        have short : ([] : List Parameter).length ≤ 1 := Nat.zero_le 1
        rw [if_pos short]
        exact exec_final_of_digits (List.forall_mem_nil _) final.letter following
    | cons parameter parameters =>
        cases parameters with
        | nil =>
            have short : [parameter].length ≤ 1 := Nat.le_refl 1
            rw [joined_singleton, exec_final_of_digits parameter.decimal final.letter,
              if_pos short]
        | cons next parameters =>
            rw [joined_cons_cons, List.append_assoc, List.cons_append, exec_final,
              dropWhile_digits parameter.decimal (by decide)]
            exact (if_neg (by decide)).trans (congrArg some (if_neg (by simp)).symm)
  simp only [ControlSequence.text, Option.map_some, Option.toList_some, List.cons_append,
    List.append_assoc, List.nil_append]
  rw [exec_esc, exec_bracket, if_pos (by decide), started, Option.bind_some, exec_mark,
    if_pos mark.oneOf_symbol, Option.bind_some, finished]
  rfl

theorem exec_designation_of (opening : UInt16) (bracket : oneOf ['[', ']'] opening = false)
    (designates : oneOf ['(', ')', '>', '='] opening = true) (text : JSString) :
    controlSequenceRegex.exec (esc :: opening :: text) =
      some (((Regex.set isCharset).exec text).getD text) := by
  rw [exec_esc, exec_bracket, bracket, if_neg Bool.false_ne_true, exec_designation,
    if_pos designates]
  rfl

/-- A designation is consumed whole. -/
theorem exec_designation_whole (closing : Bool) (designator : Designator)
    (following : JSString) :
    controlSequenceRegex.exec
        ((ControlSequence.designation closing designator).text ++ following) =
      some following := by
  change controlSequenceRegex.exec
    (esc :: unit (if closing then ')' else '(') :: designator.symbol :: following) = _
  rw [exec_designation_of, Regex.exec_set_cons, if_pos designator.charset]
  · rfl
  · cases closing <;> decide
  · cases closing <;> decide

/-- A mode of the keypad is consumed with one more symbol if it is a charset. -/
theorem exec_keypad (numeric : Bool) (following : JSString) :
    controlSequenceRegex.exec ((ControlSequence.keypad numeric).text ++ following) =
      some (((Regex.set isCharset).exec following).getD following) := by
  change controlSequenceRegex.exec
    (esc :: unit (if numeric then '>' else '=') :: following) = _
  apply exec_designation_of
  · cases numeric <;> decide
  · cases numeric <;> decide

/-! ## All sequences -/

/-- Printable output stays. -/
theorem removeAll_plain {text : JSString} (plain : esc ∉ text) (rest : JSString) :
    controlSequenceRegex.removeAll (text ++ rest) =
      text ++ controlSequenceRegex.removeAll rest := by
  induction text with
  | nil => rfl
  | cons symbol text ih =>
      rw [List.mem_cons, not_or] at plain
      rw [List.cons_append, Regex.removeAll_of_none (exec_other (Ne.symm plain.1) _),
        ih plain.2]
      rfl

theorem progresses_controlSequence : controlSequenceRegex.Progresses :=
  Regex.progresses_set.seq_left

/-- What a sequence leaves of itself. -/
def ControlSequence.residue : ControlSequence → JSString
  | csi (some _) parameters final =>
      if parameters.length ≤ 1 then [] else joined parameters ++ [final.symbol]
  | csi none _ _ | designation _ _ | keypad _ => []

/-- What a sequence leaves of the output after it. -/
def ControlSequence.spare : ControlSequence → JSString → JSString
  | keypad _, text => ((Regex.set isCharset).exec text).getD text
  | csi _ _ _, text | designation _ _, text => text

theorem joined_plain {parameters : List Parameter} {symbol : UInt16}
    (member : symbol ∈ joined parameters) : isDigit symbol = true ∨ symbol = unit ';' := by
  induction parameters with
  | nil => cases member
  | cons parameter parameters ih =>
      cases parameters with
      | nil =>
          rw [joined_singleton] at member
          exact .inl (parameter.decimal symbol member)
      | cons next parameters =>
          rw [joined_cons_cons, List.mem_append, List.mem_cons] at member
          rcases member with digit | here | later
          · exact .inl (parameter.decimal symbol digit)
          · exact .inr here
          · exact ih later

theorem esc_not_mem_residue (sequence : ControlSequence) : esc ∉ sequence.residue := by
  intro member
  match sequence with
  | .csi none _ _ | .designation _ _ | .keypad _ => cases member
  | .csi (some _) parameters final =>
      rw [ControlSequence.residue] at member
      split at member
      · cases member
      · rcases List.mem_append.mp member with parameter | last
        · rcases joined_plain parameter with digit | semicolon
          · exact absurd digit (by decide)
          · exact absurd semicolon (by decide)
        · have letter := final.letter
          rw [← List.mem_singleton.mp last] at letter
          exact absurd letter (by decide)

theorem exec_charset_append (run : Printable) (rest : List (ControlSequence × Printable)) :
    let following := rest.flatMap fun entry => entry.1.text ++ entry.2.text
    ((Regex.set isCharset).exec (run.text ++ following)).getD (run.text ++ following) =
      ((Regex.set isCharset).exec run.text).getD run.text ++ following := by
  intro following
  cases text : run.text with
  | cons symbol others =>
      rw [List.cons_append, Regex.exec_set_cons, Regex.exec_set_cons]
      split <;> rfl
  | nil =>
      have first : (Regex.set isCharset).exec following = none := by
        cases rest with
        | nil => rfl
        | cons entry rest =>
            obtain ⟨sequence, run⟩ := entry
            cases sequence <;> exact Regex.exec_set_cons.trans (if_neg (by decide))
      rw [List.nil_append, first]
      rfl

theorem spare_suffix (sequence : ControlSequence) (text : JSString) :
    sequence.spare text <:+ text := by
  cases sequence with
  | csi mark parameters final => exact List.suffix_rfl
  | designation closing designator => exact List.suffix_rfl
  | keypad numeric =>
      rw [ControlSequence.spare]
      cases found : (Regex.set isCharset).exec text with
      | none => exact List.suffix_rfl
      | some left => exact (Regex.consumes_of_exec found).suffix

/-- What is left of a sequence and of the run after it. -/
theorem removeAll_sequence (sequence : ControlSequence) (run : Printable)
    (rest : List (ControlSequence × Printable)) :
    let following := rest.flatMap fun entry => entry.1.text ++ entry.2.text
    controlSequenceRegex.removeAll (sequence.text ++ (run.text ++ following)) =
      sequence.residue ++ sequence.spare run.text ++
        controlSequenceRegex.removeAll following := by
  intro following
  have found : controlSequenceRegex.exec (sequence.text ++ (run.text ++ following)) =
      some (sequence.residue ++ (sequence.spare run.text ++ following)) := by
    match sequence with
    | .csi none parameters final => exact exec_csi_unmarked parameters final _
    | .designation closing designator => exact exec_designation_whole closing designator _
    | .keypad numeric =>
        rw [exec_keypad, exec_charset_append]
        rfl
    | .csi (some mark) parameters final =>
        rw [exec_csi_marked, ControlSequence.residue]
        split
        · rfl
        · rw [List.append_assoc]
          rfl
  have plain : esc ∉ sequence.spare run.text := fun member =>
    run.plain ((spare_suffix sequence run.text).subset member)
  rw [progresses_controlSequence.removeAll found,
    removeAll_plain (esc_not_mem_residue sequence), removeAll_plain plain, List.append_assoc]

theorem removeAll_text (output : Output) :
    controlSequenceRegex.removeAll output.text =
      output.first.text ++ output.rest.flatMap fun entry =>
        entry.1.residue ++ entry.1.spare entry.2.text := by
  rw [Output.text, removeAll_plain output.first.plain]
  apply congrArg (output.first.text ++ ·)
  induction output.rest with
  | nil => rfl
  | cons entry rest ih =>
      rw [List.flatMap_cons, List.flatMap_cons, List.append_assoc, removeAll_sequence, ih]

/-- The sequence is removed without a residue, and nothing of the output after it. -/
def ControlSequence.Clean : ControlSequence → JSString → Prop
  | csi mark parameters _, _ => mark.isSome → parameters.length ≤ 1
  | designation _ _, _ => True
  | keypad _, text => ∀ symbol ∈ text.head?, isCharset symbol = false

theorem residue_spare_of_clean {sequence : ControlSequence} {text : JSString}
    (clean : sequence.Clean text) : sequence.residue = [] ∧ sequence.spare text = text := by
  match sequence with
  | .csi none _ _ | .designation _ _ => exact ⟨rfl, rfl⟩
  | .csi (some mark) parameters final =>
      exact ⟨if_pos (clean rfl), rfl⟩
  | .keypad numeric =>
      refine ⟨rfl, ?_⟩
      rw [ControlSequence.spare]
      cases text with
      | nil => rfl
      | cons symbol text =>
          rw [Regex.exec_set_cons, clean symbol rfl]
          rfl

theorem two_of_count_joined {parameters : List Parameter} (several : ¬parameters.length ≤ 1) :
    unit ';' ∈ joined parameters := by
  match parameters with
  | [] | [_] => exact absurd (by simp) several
  | parameter :: next :: parameters =>
      rw [joined_cons_cons]
      exact List.mem_append_right _ List.mem_cons_self

theorem count_spare (sequence : ControlSequence) (text : JSString) :
    (sequence.spare text).count (unit ';') = text.count (unit ';') := by
  cases sequence with
  | csi mark parameters final => rfl
  | designation closing designator => rfl
  | keypad numeric =>
      rw [ControlSequence.spare]
      cases text with
      | nil => rfl
      | cons symbol text =>
          rw [Regex.exec_set_cons]
          split
          · rename_i charset
            have other : symbol ≠ unit ';' := by
              rintro rfl
              exact absurd charset (by decide)
            rw [Option.getD_some, List.count_cons_of_ne other]
          · rfl

/-- Terms that do not change a sum are zero. -/
theorem eq_zero_of_sum_eq {Element : Type} {elements : List Element} {term more : Element → Nat}
    (same : (elements.map fun element => term element + more element).sum =
      (elements.map more).sum) : ∀ element ∈ elements, term element = 0 := by
  have zero : (elements.map term).sum = 0 := by
    rw [List.sum_map_add] at same
    omega
  intro element member
  exact List.sum_eq_zero_iff_forall_eq_nat.mp zero _ (List.mem_map_of_mem member)

/-- A residue shows in the semicolons. -/
theorem residue_eq_nil_of_same {rest : List (ControlSequence × Printable)}
    (same : (rest.flatMap fun entry => entry.1.residue ++ entry.1.spare entry.2.text) =
      rest.flatMap fun entry => entry.2.text) :
    ∀ entry ∈ rest, entry.1.residue = [] := by
  have counts := congrArg (List.count (unit ';')) same
  simp only [List.count_flatMap, Function.comp_def, List.count_append, count_spare] at counts
  intro entry member
  have none : entry.1.residue.count (unit ';') = 0 := eq_zero_of_sum_eq counts entry member
  cases found : entry.1 with
  | designation closing designator => rfl
  | keypad numeric => rfl
  | csi mark parameters final =>
      cases mark with
      | none => rfl
      | some mark =>
          rw [found, ControlSequence.residue] at none
          rw [ControlSequence.residue]
          split
          · rfl
          · rename_i several
            rw [if_neg several, List.count_eq_zero, List.mem_append, not_or] at none
            exact absurd (two_of_count_joined several) none.1

/-- A sequence that leaves nothing and eats nothing is as an output has it. -/
theorem clean_of_residue_spare {sequence : ControlSequence} {text : JSString}
    (residue : sequence.residue = []) (spared : sequence.spare text = text) :
    sequence.Clean text := by
  cases sequence with
  | designation closing designator => trivial
  | csi mark parameters final =>
      cases mark with
      | none => exact fun marked => absurd marked Bool.false_ne_true
      | some mark =>
          intro _
          rw [ControlSequence.residue] at residue
          by_contra several
          rw [if_neg several] at residue
          exact List.append_ne_nil_of_right_ne_nil _ (List.cons_ne_nil _ _) residue
  | keypad numeric =>
      intro symbol first
      cases text with
      | nil => cases first
      | cons other others =>
          cases first
          by_contra charset
          -- the symbol is eaten, so that the rest is the whole
          rw [ControlSequence.spare, Regex.exec_set_cons, if_pos (eq_true_of_ne_false charset),
            Option.getD_some] at spared
          exact List.cons_ne_self _ _ spared.symm

theorem clean_of_same {rest : List (ControlSequence × Printable)}
    (same : (rest.flatMap fun entry => entry.1.residue ++ entry.1.spare entry.2.text) =
      rest.flatMap fun entry => entry.2.text) :
    ∀ entry ∈ rest, entry.1.Clean entry.2.text := by
  have residues := residue_eq_nil_of_same same
  -- without residues, a symbol that was eaten shows in the length
  have lengths := congrArg List.length same
  have split : ∀ entry ∈ rest, entry.2.text.length =
      entry.2.text.length - (entry.1.spare entry.2.text).length +
        (entry.1.residue ++ entry.1.spare entry.2.text).length := by
    intro entry member
    have suffix := (spare_suffix entry.1 entry.2.text).length_le
    rw [residues entry member, List.nil_append]
    omega
  rw [List.length_flatMap, List.length_flatMap, List.map_congr_left split] at lengths
  have none := eq_zero_of_sum_eq lengths.symm
  intro entry member
  have suffix := spare_suffix entry.1 entry.2.text
  exact clean_of_residue_spare (residues entry member)
    (suffix.eq_of_length_le (Nat.sub_eq_zero_iff_le.mp (none entry member)))

/-- The expression removes exactly the control sequences of an output if and only if no
sequence with `?` or `>` has two parameters or more, and no run after a keypad mode begins
with `0` or a capital. -/
theorem removeAll_iff_clean (output : Output) :
    controlSequenceRegex.removeAll output.text = output.printed ↔
      ∀ entry ∈ output.rest, entry.1.Clean entry.2.text := by
  rw [removeAll_text, Output.printed]
  constructor
  · intro same
    exact clean_of_same (List.append_cancel_left same)
  · intro clean
    apply congrArg (output.first.text ++ ·)
    apply List.flatMap_congr
    intro entry member
    obtain ⟨residue, spare⟩ := residue_spare_of_clean (clean entry member)
    rw [residue, spare, List.nil_append]

/-- `ESC [ ? 1 ; 2 h` leaves `1;2h`. -/
theorem removeAll_printed_fails :
    ¬∀ output : Output, controlSequenceRegex.removeAll output.text = output.printed := by
  intro always
  have same := always ⟨⟨[], List.not_mem_nil⟩,
    [(.csi (some .question) [⟨[unit '1'], List.forall_mem_singleton.mpr (by decide)⟩,
        ⟨[unit '2'], List.forall_mem_singleton.mpr (by decide)⟩] ⟨unit 'h', by decide⟩,
      ⟨[], List.not_mem_nil⟩)]⟩
  exact absurd same (by decide)

end CloudRunSsh.WebSSH
