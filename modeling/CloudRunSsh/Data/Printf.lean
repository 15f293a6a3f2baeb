import CloudRunSsh.Data.Percent

/-!
# The `printf` of the shell

`printf` with a format and no arguments.  Conversions and escape sequences of the format are
replaced, but a conversion that fails prints its percent sign.
-/

namespace CloudRunSsh

open Percent (bytesOf)

/-- The characters that begin conversions and escape sequences. -/
def isMark (byte : UInt8) : Bool := byte = 0x25 || byte = 0x5C

def marks (bytes : List UInt8) : Nat := bytes.countP isMark

/-- What depends on the version, the clock and the locale: what a conversion that is made
prints without an argument, with the number of characters that it takes after the percent
sign, or an error that ends the output; what a character beyond ASCII is written as; and
the text of `--help`.  Neither of the first two prints more marks than it takes. -/
structure Printf where
  conversion : List Char → Option (List UInt8 × Nat)
  wide : Nat → List UInt8
  help : List UInt8
  conversion_marks : ∀ {text bytes taken}, conversion text = some (bytes, taken) →
    marks bytes ≤ marks (bytesOf (text.take taken))
  wide_marks : ∀ code, ∀ byte ∈ (wide code).tail, isMark byte = false
  help_other : help ≠ bytesOf "--help".toList

namespace Printf

variable (printf : Printf)

/-- `\a`, `\b`, `\e`, `\E`, `\f`, `\n`, `\r`, `\t`, `\v`, and the characters that are
themselves without the backslash. -/
def controls : List (Char × UInt8) :=
  [('a', 0x07), ('b', 0x08), ('e', 0x1B), ('E', 0x1B), ('f', 0x0C), ('n', 0x0A), ('r', 0x0D),
    ('t', 0x09), ('v', 0x0B), ('\\', 0x5C), ('\x27', 0x27), ('\x22', 0x22), ('?', 0x3F)]

/-- The digits at the front of a text, up to a limit. -/
def digits (base limit : Nat) (text : List Char) : List Char :=
  (text.take limit).takeWhile fun digit => (digitValue base digit).isSome

/-- `\xHH`, `\uHHHH` and `\UHHHHHHHH`, after the letter.  Without digits the backslash is
printed. -/
def hexadecimal (limit : Nat) (print : Nat → List UInt8) (text : List Char) :
    List UInt8 × Nat :=
  match numberOf 16 (digits 16 limit text) with
  | some code =>
      if digits 16 limit text = [] then ([0x5C], 0)
      else (print code, (digits 16 limit text).length + 1)
  | none => ([0x5C], 0)

/-- `tescape`: what is printed for a backslash and the characters after it, and how many of
them it takes. -/
def escape : List Char → List UInt8 × Nat
  | [] => ([0x5C], 0)
  | 'x' :: rest => hexadecimal 2 (fun code => [UInt8.ofNat code]) rest
  | 'u' :: rest =>
      hexadecimal 4 (fun code => if code < 0x80 then [UInt8.ofNat code] else printf.wide code) rest
  | 'U' :: rest =>
      hexadecimal 8 (fun code => if code < 0x80 then [UInt8.ofNat code] else printf.wide code) rest
  | char :: rest =>
      match controls.lookup char with
      | some byte => ([byte], 1)
      | none =>
          match numberOf 8 (digits 8 3 (char :: rest)) with
          | some code =>
              if digits 8 3 (char :: rest) = [] then ([0x5C], 0)
              else ([UInt8.ofNat code], (digits 8 3 (char :: rest)).length)
          | none => ([0x5C], 0)

/-- `SKIP1` -/
def isFlag (char : Char) : Bool := char ∈ ['#', '\x27', '-', '+', ' ', '0']

/-- `LENMODS` -/
def isModifier (char : Char) : Bool := char ∈ ['h', 'j', 'l', 'L', 't', 'z']

def afterWidth : List Char → List Char
  | '*' :: rest => rest
  | text => text.dropWhile Char.isDigit

def afterPrecision : List Char → List Char
  | '.' :: '*' :: rest => rest
  | '.' :: '-' :: rest => rest.dropWhile Char.isDigit
  | '.' :: rest => rest.dropWhile Char.isDigit
  | text => text

/-- A conversion from its modifiers on. -/
def afterFields (text : List Char) : List Char :=
  afterPrecision (afterWidth (text.dropWhile isFlag))

/-- Flags, width and precision of a conversion. -/
def fields (text : List Char) : List Char :=
  text.take (text.length - (afterFields text).length)

/-- What is left when as many parentheses have been closed. -/
def closed : Nat → List Char → List Char
  | _, [] => []
  | 0, text => text
  | depth + 1, char :: rest =>
      if char = '(' then closed (depth + 2) rest
      else if char = ')' then closed depth rest
      else closed (depth + 1) rest

/-- The format of a time that is not followed by `T`.  The byte after the end, which one
that is not closed is judged by, is taken for another. -/
def isInvalidTime : List Char → Bool
  | '(' :: rest => (closed 1 rest).head? ≠ some 'T'
  | _ => false

/-- A conversion that fails with a warning. -/
def isRefused (text : List Char) : Bool :=
  isInvalidTime ((afterFields text).dropWhile isModifier)

/-- One without modifiers, which is left as it was. -/
def isReprinted (text : List Char) : Bool := isInvalidTime (afterFields text)

/-- What is printed for a percent sign and the characters after it, and how many of them it
takes. -/
def convert (text : List Char) : Option (List UInt8 × Nat) :=
  if isReprinted text then some ([0x25], 0)
  -- The first modifier was replaced by the character of the conversion.
  else if isRefused text then
    some (0x25 :: bytesOf (fields text ++ ['(']), (fields text).length + 1)
  else printf.conversion text

/-- The output for a format, after some characters of it. -/
def printFrom : Nat → List Char → List UInt8
  | _, [] => []
  | skip + 1, _ :: rest => printFrom skip rest
  | 0, char :: rest =>
      if char = '%' then
        match printf.convert rest with
        | some (bytes, taken) => bytes ++ printFrom taken rest
        | none => []
      else if char = '\\' then
        (printf.escape rest).1 ++ printFrom (printf.escape rest).2 rest
      else String.utf8EncodeChar char ++ printFrom 0 rest

/-- The output for a format.  One that begins with a dash is taken for options. -/
def print (format : List Char) : List UInt8 :=
  if format = "--help".toList then printf.help
  else if format.head? = some '-' ∧ 1 < format.length then []
  else printf.printFrom 0 format

/-- What follows a backslash is printed as it is, with the backslash. -/
def EscapesItself (text : List Char) : Prop :=
  (printf.escape text).1 = 0x5C :: bytesOf (text.take (printf.escape text).2)

instance (text : List Char) : Decidable (printf.EscapesItself text) :=
  inferInstanceAs (Decidable (_ = _))

/-- What follows each of the marks in a text is as described. -/
def AfterEach (mark : Char) (described : List Char → Prop) (text : List Char) : Prop :=
  ∀ rest, mark :: rest <:+ text → described rest

/-- A format that is printed as it is, one byte a character. -/
structure PrintsItself (format : List Char) : Prop where
  ascii : ∀ char ∈ format, char.toNat < 0x80
  noOption : ¬(format.head? = some '-' ∧ 1 < format.length)
  unconverted : AfterEach '%' (fun rest => isReprinted rest = true) format
  unescaped : AfterEach '\\' printf.EscapesItself format

variable {printf} {text : List Char}

theorem marks_append (bytes others : List UInt8) :
    marks (bytes ++ others) = marks bytes + marks others := List.countP_append

theorem marks_eq_zero {bytes : List UInt8} :
    marks bytes = 0 ↔ ∀ byte ∈ bytes, isMark byte = false := by
  rw [marks, List.countP_eq_zero]
  simp

theorem isMark_eq_false {byte : UInt8} :
    isMark byte = false ↔ byte.toNat ≠ '%'.toNat ∧ byte.toNat ≠ '\\'.toNat := by
  rw [isMark, Bool.or_eq_false_iff, decide_eq_false_iff_not, decide_eq_false_iff_not,
    ← UInt8.toNat_inj, ← UInt8.toNat_inj]
  rfl

/-- A byte beyond ASCII is no mark. -/
theorem isMark_of_wide {byte : UInt8} (wide : 0x80 ≤ byte.toNat) : isMark byte = false := by
  rw [isMark_eq_false]
  change byte.toNat ≠ 37 ∧ byte.toNat ≠ 92
  omega

/-- Other characters than the two have no marks. -/
theorem marks_plain {char : Char} (percent : char ≠ '%') (backslash : char ≠ '\\') :
    marks (String.utf8EncodeChar char) = 0 := by
  rw [marks_eq_zero]
  rcases Nat.lt_or_ge char.toNat 0x80 with ascii | wide
  · rw [Percent.utf8EncodeChar_ascii ascii, List.forall_mem_singleton]
    have same : (UInt8.ofNat char.toNat).toNat = char.toNat := by
      rw [UInt8.toNat_ofNat']
      omega
    rw [isMark_eq_false, same]
    exact ⟨fun same => percent (Char.toNat_inj.mp same),
      fun same => backslash (Char.toNat_inj.mp same)⟩
  · intro byte member
    exact isMark_of_wide ((Percent.utf8EncodeChar_wide wide).2 byte member)

theorem marks_bytesOf_plain {text : List Char} (percent : '%' ∉ text) (backslash : '\\' ∉ text) :
    marks (bytesOf text) = 0 := by
  induction text with
  | nil => rfl
  | cons char rest ih =>
      rw [List.mem_cons, not_or] at percent backslash
      rw [Percent.bytesOf_cons, marks_append,
        marks_plain (Ne.symm percent.1) (Ne.symm backslash.1), ih percent.2 backslash.2]

/-- ASCII characters without marks. -/
def Unmarked (text : List Char) : Prop :=
  ∀ char ∈ text, char.toNat < 0x80 ∧ char ≠ '%' ∧ char ≠ '\\'

theorem Unmarked.percent (unmarked : Unmarked text) : '%' ∉ text :=
  fun member => (unmarked '%' member).2.1 rfl

theorem Unmarked.backslash (unmarked : Unmarked text) : '\\' ∉ text :=
  fun member => (unmarked '\\' member).2.2 rfl

theorem Unmarked.marks (unmarked : Unmarked text) : marks (bytesOf text) = 0 :=
  marks_bytesOf_plain unmarked.percent unmarked.backslash

/-- An escape sequence takes ASCII characters without marks, and prints at most one mark,
at the front. -/
def Takes (text : List Char) (step : List UInt8 × Nat) : Prop :=
  Unmarked (text.take step.2) ∧ ∀ byte ∈ step.1.tail, isMark byte = false

theorem tail_singleton (byte : UInt8) : ∀ other ∈ [byte].tail, isMark other = false :=
  List.forall_mem_nil _

theorem takes_nothing (text : List Char) (byte : UInt8) : Takes text ([byte], 0) :=
  ⟨List.forall_mem_nil _, tail_singleton byte⟩

theorem alphanum_plain {char : Char} (letter : char.isAlphanum = true) :
    char.toNat < 0x80 ∧ char ≠ '%' ∧ char ≠ '\\' := by
  have range := isAlphanum_range letter
  refine ⟨by omega, ?_, ?_⟩
  · rintro rfl
    exact absurd letter (by decide)
  · rintro rfl
    exact absurd letter (by decide)

theorem digits_alphanum {base limit : Nat} (small : base ≤ 16) {text : List Char} :
    ∀ digit ∈ digits base limit text, digit.isAlphanum = true := by
  intro digit member
  rw [digits] at member
  have valued := List.mem_takeWhile_imp member
  exact isAlphanum_of_digitValue small valued

theorem take_digits (base limit : Nat) (text : List Char) :
    text.take (digits base limit text).length = digits base limit text :=
  (List.prefix_iff_eq_take.mp
    ((List.takeWhile_prefix _).trans (List.take_prefix limit text))).symm

theorem hexadecimal_takes {limit : Nat} {print : Nat → List UInt8} {letter : Char}
    (isLetter : letter.isAlphanum = true)
    (single : ∀ code, ∀ byte ∈ (print code).tail, isMark byte = false) (text : List Char) :
    Takes (letter :: text) (hexadecimal limit print text) := by
  rw [hexadecimal]
  split
  · rename_i code _
    split
    · exact takes_nothing _ _
    · constructor
      · intro char member
        rw [List.take_succ_cons, take_digits] at member
        rcases List.mem_cons.mp member with rfl | digit
        · exact alphanum_plain isLetter
        · exact alphanum_plain (digits_alphanum (by decide) char digit)
      · exact single code
  · exact takes_nothing _ _

/-- What an escape sequence takes and prints, unless it is two backslashes. -/
theorem escape_spec (printf : Printf) (text : List Char) :
    (∃ rest, text = '\\' :: rest ∧ printf.escape text = ([0x5C], 1)) ∨
      Takes text (printf.escape text) := by
  have wide : ∀ code, ∀ byte ∈ (if code < 0x80 then [UInt8.ofNat code]
      else printf.wide code).tail, isMark byte = false := by
    intro code
    split
    · exact tail_singleton _
    · exact printf.wide_marks code
  fun_cases escape printf text with
  | case1 => exact Or.inr (takes_nothing _ _)
  | case2 rest =>
      exact Or.inr (hexadecimal_takes (by decide) (fun _ => tail_singleton _) rest)
  | case3 rest => exact Or.inr (hexadecimal_takes (by decide) wide rest)
  | case4 rest => exact Or.inr (hexadecimal_takes (by decide) wide rest)
  | case5 char rest _ _ _ byte found =>
      by_cases double : char = '\\'
      · left
        subst double
        have backslash : byte = 0x5C := by
          apply Option.some.inj
          rw [← found]
          rfl
        exact ⟨rest, rfl, by rw [backslash]⟩
      · right
        obtain ⟨before, after, split, _⟩ := List.lookup_eq_some_iff.mp found
        have member : (char, byte) ∈ controls := by simp [split]
        have all : ∀ entry ∈ controls, entry.1.toNat < 0x80 ∧ entry.1 ≠ '%' := by decide
        obtain ⟨ascii, percent⟩ := all _ member
        constructor
        · intro other taken
          rw [List.mem_singleton.mp taken]
          exact ⟨ascii, percent, double⟩
        · exact tail_singleton byte
  | case6 char rest => exact Or.inr (takes_nothing _ _)
  | case7 char rest =>
      right
      constructor
      · intro digit member
        rw [take_digits] at member
        exact alphanum_plain (digits_alphanum (by decide) digit member)
      · exact tail_singleton _
  | case8 char rest => exact Or.inr (takes_nothing _ _)

theorem Takes.marks_le {text : List Char} {step : List UInt8 × Nat} (takes : Takes text step) :
    marks step.1 ≤ 1 ∧ marks (bytesOf (text.take step.2)) = 0 := by
  constructor
  · cases bytes : step.1 with
    | nil => exact Nat.zero_le 1
    | cons first rest =>
        have none := takes.2
        rw [bytes, List.tail_cons] at none
        have one : marks [first] ≤ 1 := List.countP_le_length
        rw [← List.singleton_append, marks_append, marks_eq_zero.mpr none]
        exact one
  · exact takes.1.marks

/-- An escape sequence prints no more marks than it takes. -/
theorem marks_escape_le (printf : Printf) (text : List Char) :
    marks (printf.escape text).1 ≤ 1 + marks (bytesOf (text.take (printf.escape text).2)) := by
  rcases printf.escape_spec text with ⟨rest, _, printed⟩ | takes
  · rw [printed]
    exact Nat.le_add_right 1 _
  · have bounds := takes.marks_le
    omega

/-- An escape sequence takes no percent sign. -/
theorem percent_not_taken (printf : Printf) (text : List Char) :
    '%' ∉ text.take (printf.escape text).2 := by
  intro member
  rcases printf.escape_spec text with ⟨rest, rfl, printed⟩ | takes
  · rw [printed] at member
    exact absurd (List.mem_singleton.mp member) (by decide)
  · exact takes.1.percent member

theorem marks_take_drop (text : List Char) (count : Nat) :
    marks (bytesOf text) =
      marks (bytesOf (text.take count)) + marks (bytesOf (text.drop count)) := by
  rw [← marks_append, ← Percent.bytesOf_append, List.take_append_drop]

section AfterEach

variable {mark char : Char} {described : List Char → Prop}

theorem AfterEach.nil : AfterEach mark described [] := by
  intro rest suffix
  rw [List.suffix_nil] at suffix
  cases suffix

theorem AfterEach.cons (other : char ≠ mark) (each : AfterEach mark described text) :
    AfterEach mark described (char :: text) := by
  intro rest suffix
  rcases List.suffix_cons_iff.mp suffix with same | suffix
  · exact absurd (List.cons.inj same).1.symm other
  · exact each rest suffix

theorem AfterEach.cons_mark (here : described text) (each : AfterEach mark described text) :
    AfterEach mark described (mark :: text) := by
  intro rest suffix
  rcases List.suffix_cons_iff.mp suffix with same | suffix
  · rw [(List.cons.inj same).2]
    exact here
  · exact each rest suffix

theorem AfterEach.append {front : List Char} (other : mark ∉ front)
    (each : AfterEach mark described text) : AfterEach mark described (front ++ text) := by
  induction front with
  | nil => exact each
  | cons char rest ih =>
      rw [List.mem_cons, not_or] at other
      exact (ih other.2).cons (Ne.symm other.1)

/-- Characters that are taken without the mark. -/
theorem AfterEach.of_drop {count : Nat} (other : mark ∉ text.take count)
    (each : AfterEach mark described (text.drop count)) : AfterEach mark described text := by
  rw [← List.take_append_drop count text]
  exact each.append other

theorem AfterEach.of_suffix {suffix : List Char} (each : AfterEach mark described text)
    (isSuffix : suffix <:+ text) : AfterEach mark described suffix :=
  fun rest inner => each rest (inner.trans isSuffix)

end AfterEach

/-- What is left after characters without marks. -/
def Skips (text rest : List Char) : Prop := ∃ front, front ++ rest = text ∧ Unmarked front

theorem Skips.refl (text : List Char) : Skips text text := ⟨[], rfl, nofun⟩

theorem Skips.trans {rest last : List Char} (first : Skips text rest) (second : Skips rest last) :
    Skips text last := by
  obtain ⟨front, rfl, plain⟩ := first
  obtain ⟨middle, rfl, alsoPlain⟩ := second
  exact ⟨front ++ middle, List.append_assoc .., List.forall_mem_append.mpr ⟨plain, alsoPlain⟩⟩

theorem skips_dropWhile {skipped : Char → Bool}
    (plain : ∀ char, skipped char = true → char.toNat < 0x80 ∧ char ≠ '%' ∧ char ≠ '\\')
    (text : List Char) : Skips text (text.dropWhile skipped) :=
  ⟨text.takeWhile skipped, List.takeWhile_append_dropWhile,
    fun char member => plain char (List.mem_takeWhile_imp member)⟩

theorem skips_cons {char : Char}
    (plain : char.toNat < 0x80 ∧ char ≠ '%' ∧ char ≠ '\\') (rest : List Char) :
    Skips (char :: rest) rest :=
  ⟨[char], rfl, List.forall_mem_singleton.mpr plain⟩

theorem skips_digits (text : List Char) : Skips text (text.dropWhile Char.isDigit) := by
  apply skips_dropWhile
  intro char digit
  apply alphanum_plain
  rw [Char.isAlphanum, digit, Bool.or_true]

theorem skips_afterWidth (text : List Char) : Skips text (afterWidth text) := by
  fun_cases afterWidth text with
  | case1 rest => exact skips_cons (by decide) rest
  | case2 => exact skips_digits text

theorem skips_afterPrecision (text : List Char) : Skips text (afterPrecision text) := by
  fun_cases afterPrecision text with
  | case1 rest => exact (skips_cons (by decide) _).trans (skips_cons (by decide) rest)
  | case2 rest =>
      exact (skips_cons (by decide) _).trans ((skips_cons (by decide) rest).trans
        (skips_digits rest))
  | case3 rest => exact (skips_cons (by decide) rest).trans (skips_digits rest)
  | case4 => exact Skips.refl text

/-- Flags, width and precision have no marks. -/
theorem fields_spec (text : List Char) :
    fields text ++ afterFields text = text ∧ Unmarked (fields text) := by
  have flags : ∀ char, isFlag char = true →
      char.toNat < 0x80 ∧ char ≠ '%' ∧ char ≠ '\\' := by
    intro char flag
    have all : ∀ char ∈ ['#', '\x27', '-', '+', ' ', '0'],
        char.toNat < 0x80 ∧ char ≠ '%' ∧ char ≠ '\\' := List.all_iff_forall_prop.mp (by decide)
    exact all char (of_decide_eq_true flag)
  obtain ⟨front, same, plain⟩ := (skips_dropWhile flags text).trans
    ((skips_afterWidth _).trans (skips_afterPrecision _))
  have taken : fields text = front := by
    have length := congrArg List.length same
    rw [List.length_append] at length
    rw [fields, afterFields, ← length, Nat.add_sub_cancel]
    conv_lhs => rw [← same]
    exact List.take_left
  rw [taken]
  exact ⟨same, plain⟩

/-- A conversion that is not left as it was has modifiers. -/
theorem modifier_of_refused (refused : isRefused text = true)
    (changed : isReprinted text = false) :
    ∃ modifier rest, afterFields text = modifier :: rest ∧ isModifier modifier = true := by
  rw [isRefused] at refused
  rw [isReprinted] at changed
  cases after : afterFields text with
  | nil =>
      rw [after] at refused
      cases refused
  | cons modifier rest =>
      refine ⟨modifier, rest, rfl, ?_⟩
      by_contra other
      rw [after, List.dropWhile_cons_of_neg other, ← after, changed] at refused
      cases refused

theorem modifier_plain {modifier : Char} (isModifier : isModifier modifier = true) :
    modifier.toNat < 0x80 ∧ modifier ≠ '%' ∧ modifier ≠ '\\' ∧ modifier ≠ '(' := by
  have all : ∀ char ∈ ['h', 'j', 'l', 'L', 't', 'z'],
      char.toNat < 0x80 ∧ char ≠ '%' ∧ char ≠ '\\' ∧ char ≠ '(' :=
    List.all_iff_forall_prop.mp (by decide)
  exact all modifier (of_decide_eq_true isModifier)

/-- A conversion that fails prints its percent sign, and nothing else that is a mark. -/
theorem convert_of_refused (printf : Printf) (refused : isRefused text = true) :
    ∃ front taken, printf.convert text = some (0x25 :: bytesOf front, taken) ∧
      Unmarked front ∧ Unmarked (text.take taken) := by
  rw [convert]
  split
  · exact ⟨[], 0, rfl, nofun, nofun⟩
  · rename_i changed
    obtain ⟨modifier, rest, after, isModifier⟩ :=
      modifier_of_refused refused (eq_false_of_ne_true changed)
    obtain ⟨whole, plain⟩ := fields_spec text
    have taken : text.take ((fields text).length + 1) = fields text ++ [modifier] :=
      calc text.take ((fields text).length + 1)
        _ = (fields text ++ modifier :: rest).take ((fields text).length + 1) := by
            rw [← after, whole]
        _ = _ := List.take_length_add_append 1
    refine ⟨fields text ++ ['('], _, rfl, List.forall_mem_append.mpr ⟨plain, ?_⟩, ?_⟩
    · exact List.forall_mem_singleton.mpr (by decide)
    · rw [taken]
      obtain ⟨ascii, percent, backslash, _⟩ := modifier_plain isModifier
      exact List.forall_mem_append.mpr
        ⟨plain, List.forall_mem_singleton.mpr ⟨ascii, percent, backslash⟩⟩

theorem convert_of_not_refused (printf : Printf) (made : isRefused text = false) :
    printf.convert text = printf.conversion text := by
  have changed : isReprinted text = false := by
    by_contra reprinted
    rw [isRefused] at made
    rw [isReprinted, Bool.not_eq_false] at reprinted
    cases after : afterFields text with
    | nil =>
        rw [after] at reprinted
        cases reprinted
    | cons char rest =>
        by_cases parenthesis : char = '('
        · rw [after, parenthesis] at reprinted made
          rw [List.dropWhile_cons_of_neg (by decide), reprinted] at made
          cases made
        · rw [after, isInvalidTime] at reprinted
          · cases reprinted
          · intro other same
            exact parenthesis (List.cons.inj same).1
  rw [convert, changed, made]
  rfl

end Printf

end CloudRunSsh
