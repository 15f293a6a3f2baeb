import Mathlib.Data.List.Basic

/-!
# Files of assignments that a shell reads

A file of lines `export NAME=text` is read by a shell: quotes are removed, and the text ends
at a blank.  Expansions, commands and quotes that are not closed in their line make the file
a program of its own, which is left to the shell.
-/

namespace CloudRunSsh

/-- What reading a file depends on besides its text: the names after a tilde that have a
home directory, the variables that the shell has already, and what becomes of the variables
with a file that is a program. -/
structure Shell where
  isHome : List Char → Bool
  inherited : String → List Char
  otherwise : List (String × List Char) → String → List Char

namespace Shell

variable (shell : Shell)

def isBlank (char : Char) : Bool := char ∈ [' ', '\t']

def isQuote (char : Char) : Bool := char ∈ ['\x27', '\x22']

/-- What ends a command or stands for the output of one. -/
def isOperator (char : Char) : Bool :=
  char ∈ ['\x60', ';', '(', ')', '<', '>', '|', '&', '\\', '\n']

/-- After a dollar sign. -/
def beginsExpansion (char : Char) : Bool :=
  char.isAlphanum ||
    char ∈ ['_', '*', '@', '#', '?', '$', '!', '-', '{', '(', '[', '\x27', '\x22']

/-- The parts of a text between pairs of dots. -/
def terms : List Char → List (List Char)
  | [] => [[]]
  | ['.'] => [['.']]
  | '.' :: '.' :: rest => [] :: terms rest
  | char :: rest =>
      match terms rest with
      | [] => [[char]]
      | term :: others => (char :: term) :: others

def isInteger (text : List Char) : Bool :=
  let digits := if text.head? ∈ [some '+', some '-'] then text.tail else text
  digits ≠ [] && digits.all Char.isDigit

def isLetter (text : List Char) : Bool := text.length = 1 && text.all Char.isAlpha

/-- `x..y` and `x..y..increment`, with integers or letters. -/
def isSequence (text : List Char) : Bool :=
  match terms text with
  | [first, last] => (isInteger first && isInteger last) || (isLetter first && isLetter last)
  | [first, last, increment] =>
      ((isInteger first && isInteger last) || (isLetter first && isLetter last)) &&
        isInteger increment
  | _ => false

/-- After a brace: there is one that closes it, with commas or a sequence between them. -/
def expandsBraces : Nat → Bool → List Char → List Char → Bool
  | _, _, _, [] => false
  | level, comma, inner, char :: rest =>
      if char = '}' ∧ level = 0 ∧ (comma ∨ isSequence inner) then true
      else
        expandsBraces (if char = '{' then level + 1 else if char = '}' then level - 1 else level)
          (comma || (char = ',' && level = 0)) (inner ++ [char]) rest

/-- The name after a tilde. -/
def loginName (text : List Char) : List Char :=
  text.takeWhile fun char => char ∉ ['/', ':'] && !isBlank char && !isQuote char

/-- A character that does not stand for itself, outside of quotes.  A tilde is replaced at
the start and after a colon. -/
def isActive (start : Bool) (char : Char) (rest : List Char) : Bool :=
  isOperator char || (char = '$' && rest.head?.any beginsExpansion) ||
    (char = '~' && start && shell.isHome (loginName rest)) ||
    (char = '{' && (expandsBraces 0 false [] rest || rest.any isQuote))

/-- What may follow the text: names that are exported, too. -/
def isTrailing (char : Char) : Bool :=
  char.isAlphanum || isBlank char || char ∈ ['_', '-', '.']

inductive Quoting where
  | none | single | double
  deriving DecidableEq

/-- The value of the rest of a text, unless it is a program. -/
def assignedFrom : Quoting → Bool → List Char → Option (List Char)
  | .none, _, [] => some []
  -- The quotes are closed by a later line.
  | .single, _, [] => Option.none
  | .double, _, [] => Option.none
  | .single, _, char :: rest =>
      if char = '\x27' then assignedFrom .none false rest
      else (assignedFrom .single false rest).map (char :: ·)
  | .double, _, char :: rest =>
      if char = '\x22' then assignedFrom .none false rest
      else if char ∈ ['$', '\x60', '\\'] then Option.none
      else (assignedFrom .double false rest).map (char :: ·)
  | .none, start, char :: rest =>
      if isBlank char then if rest.all isTrailing then some [] else Option.none
      else if char = '\x27' then assignedFrom .single false rest
      else if char = '\x22' then assignedFrom .double false rest
      else if shell.isActive start char rest then Option.none
      else (assignedFrom .none (char = ':') rest).map (char :: ·)

/-- The value that `export NAME=text` assigns. -/
def assigned (text : List Char) : Option (List Char) := shell.assignedFrom .none true text

def literalFrom : Bool → List Char → Bool
  | _, [] => true
  | start, char :: rest =>
      !isBlank char && !isQuote char && !shell.isActive start char rest &&
        literalFrom (char = ':') rest

/-- A text that has neither blanks nor quotes, and nothing that the shell replaces or takes
for the end of a command. -/
def Literal (text : List Char) : Prop := shell.literalFrom true text = true

instance : DecidablePred shell.Literal := fun _ => inferInstanceAs (Decidable (_ = _))

/-- No line of the file is a program. -/
def Regular (file : List (String × List Char)) : Prop :=
  ∀ line ∈ file, (shell.assigned line.2).isSome = true

instance : DecidablePred shell.Regular := fun file => List.decidableBAll _ file

/-- `source`: the value of a variable after a file of exports was read. -/
def source (file : List (String × List Char)) (name : String) : List Char :=
  if shell.Regular file then
    match file.reverse.lookup name with
    | some text => (shell.assigned text).getD []
    | Option.none => shell.inherited name
  else shell.otherwise file name

variable {shell} {text : List Char}

/-- What is assigned is shorter than the text, unless the text is literal. -/
theorem assignedFrom_shorter {quoting : Quoting} {start : Bool} {value : List Char}
    (assigned : shell.assignedFrom quoting start text = some value) :
    value.length < text.length ∨
      quoting = .none ∧ value = text ∧ shell.literalFrom start text = true := by
  induction text generalizing quoting start value with
  | nil =>
      cases quoting with
      | none => exact Or.inr ⟨rfl, (Option.some.inj assigned).symm, rfl⟩
      | single => cases assigned
      | double => cases assigned
  | cons char rest ih =>
      rw [List.length_cons]
      -- a quotation mark is left out
      have quote : ∀ {quoting start}, shell.assignedFrom quoting start rest = some value →
          value.length < rest.length + 1 := by
        intro quoting start later
        rcases ih later with shorter | ⟨_, rfl, _⟩
        · exact Nat.lt_succ_of_lt shorter
        · exact Nat.lt_succ_self _
      have kept : ∀ {quoting start},
          (shell.assignedFrom quoting start rest).map (char :: ·) = some value →
            value.length < rest.length + 1 ∨ quoting = .none ∧ value = char :: rest ∧
              shell.literalFrom start rest = true := by
        intro quoting start later
        obtain ⟨tail, read, rfl⟩ := Option.map_eq_some_iff.mp later
        rcases ih read with shorter | ⟨unquoted, rfl, literal⟩
        · exact Or.inl (Nat.succ_lt_succ shorter)
        · exact Or.inr ⟨unquoted, rfl, literal⟩
      cases quoting with
      | none =>
          rw [assignedFrom] at assigned
          split at assigned
          · split at assigned
            · rw [← Option.some.inj assigned]
              exact Or.inl (Nat.succ_pos _)
            · cases assigned
          split at assigned
          · exact Or.inl (quote assigned)
          split at assigned
          · exact Or.inl (quote assigned)
          split at assigned
          · cases assigned
          · rename_i blank single double active
            rcases kept assigned with shorter | ⟨_, same, literal⟩
            · exact Or.inl shorter
            · refine Or.inr ⟨rfl, same, ?_⟩
              simp [literalFrom, isQuote, blank, single, double, active, literal]
      | single =>
          rw [assignedFrom] at assigned
          split at assigned
          · exact Or.inl (quote assigned)
          · exact (kept assigned).imp_right fun ⟨quoted, _⟩ => nomatch quoted
      | double =>
          rw [assignedFrom] at assigned
          split at assigned
          · exact Or.inl (quote assigned)
          split at assigned
          · cases assigned
          · exact (kept assigned).imp_right fun ⟨quoted, _⟩ => nomatch quoted

theorem assignedFrom_literal {start : Bool} (literal : shell.literalFrom start text = true) :
    shell.assignedFrom .none start text = some text := by
  induction text generalizing start with
  | nil => rfl
  | cons char rest ih =>
      simp only [literalFrom, isQuote, Bool.and_eq_true, Bool.not_eq_true', List.mem_cons,
        List.not_mem_nil, or_false, decide_eq_false_iff_not, not_or] at literal
      obtain ⟨⟨⟨blank, single, double⟩, active⟩, later⟩ := literal
      rw [assignedFrom, if_neg (ne_true_of_eq_false blank), if_neg single, if_neg double,
        if_neg (ne_true_of_eq_false active), ih later]
      rfl

/-- A text is assigned as it is if and only if it is literal. -/
theorem assigned_eq_self_iff : shell.assigned text = some text ↔ shell.Literal text := by
  constructor
  · intro same
    rcases assignedFrom_shorter same with shorter | ⟨_, _, literal⟩
    · exact absurd shorter (Nat.lt_irrefl _)
    · exact literal
  · exact assignedFrom_literal

/-- Another text is assigned as a shorter one. -/
theorem assigned_shorter {value : List Char} (assigned : shell.assigned text = some value) :
    value.length < text.length ∨ value = text :=
  (assignedFrom_shorter assigned).imp_right fun ⟨_, same, _⟩ => same

/-- The quotes, and what comes after a blank, are not part of the value. -/
example : shell.assigned ['\x27', 'i', 'd', '\x27'] = some ['i', 'd'] ∧
    shell.assigned ['i', 'd', ' ', '2'] = some ['i', 'd'] := ⟨rfl, rfl⟩

theorem source_of_regular {file : List (String × List Char)} (regular : shell.Regular file)
    {name : String} (found : file.reverse.lookup name = some text) :
    some (shell.source file name) = shell.assigned text := by
  have member : (name, text) ∈ file := by
    obtain ⟨front, back, split, _⟩ := List.lookup_eq_some_iff.mp found
    rw [← List.mem_reverse, split]
    exact List.mem_append_right _ List.mem_cons_self
  obtain ⟨value, assigned⟩ := Option.isSome_iff_exists.mp (regular _ member)
  rw [source, if_pos regular, found, assigned]
  exact congrArg (fun read => some (Option.getD read [])) assigned

end Shell

end CloudRunSsh
