import Mathlib.Data.List.DropRight

/-!
# Strings and string literals of JavaScript

A string of JavaScript is a sequence of UTF-16 code units.  A string literal stands for at
most as many code units as it has itself, and for fewer if there is an escape sequence in
it.
-/

namespace CloudRunSsh

section Trimming

variable {Symbol : Type} (blank : Symbol → Bool)

/-- A text without the blanks at its ends. -/
def trimBy (text : List Symbol) : List Symbol := (text.dropWhile blank).rdropWhile blank

/-- No blanks at the ends. -/
def Trimmed (text : List Symbol) : Prop :=
  (∀ symbol ∈ text.head?, blank symbol = false) ∧
    ∀ symbol ∈ text.getLast?, blank symbol = false

instance (text : List Symbol) : Decidable (Trimmed blank text) :=
  inferInstanceAs (Decidable ((∀ symbol ∈ text.head?, blank symbol = false) ∧
    ∀ symbol ∈ text.getLast?, blank symbol = false))

variable {blank} {text : List Symbol}

theorem trimBy_sublist (text : List Symbol) : (trimBy blank text).Sublist text :=
  (List.rdropWhile_prefix blank (text.dropWhile blank)).sublist.trans
    (List.dropWhile_suffix blank).sublist

theorem trimBy_of_trimmed (trimmed : Trimmed blank text) : trimBy blank text = text := by
  cases text with
  | nil => rfl
  | cons first rest =>
      have front : (first :: rest).dropWhile blank = first :: rest := by
        rw [List.dropWhile_cons_of_neg]
        simpa using trimmed.1 first rfl
      rw [trimBy, front, List.rdropWhile_eq_self_iff]
      intro filled
      rw [trimmed.2 _ (List.getLast?_eq_getLast_of_ne_nil filled)]
      decide

/-- A blank at the end is trimmed. -/
theorem trimBy_concat {last : Symbol} (blanks : blank last = true) :
    trimBy blank (text ++ [last]) = trimBy blank text := by
  rw [trimBy, List.dropWhile_append]
  split_ifs with empty
  · have nothing : [last].dropWhile blank = [] := List.dropWhile_cons_of_pos blanks
    rw [trimBy, nothing, List.isEmpty_iff.mp empty]
  · exact List.rdropWhile_concat_pos _ _ _ blanks

/-- Of a text that begins without blanks, only the end can be trimmed. -/
theorem exists_trimBy_append {front : List Symbol}
    (unblank : ∀ symbol ∈ front, blank symbol = false) (nonempty : front ≠ []) (back : List Symbol) :
    ∃ rest, rest <+: back ∧ trimBy blank (front ++ back) = front ++ rest := by
  obtain ⟨first, others, rfl⟩ := List.exists_cons_of_ne_nil nonempty
  have leading : ((first :: others) ++ back).dropWhile blank = (first :: others) ++ back :=
    List.dropWhile_cons_of_neg (by simpa using unblank first List.mem_cons_self)
  rw [trimBy, leading]
  have split : ((first :: others) ++ back).rdropWhile blank ++
      ((first :: others) ++ back).rtakeWhile blank = (first :: others) ++ back :=
    List.rdropWhile_append_rtakeWhile
  have kept := List.rdropWhile_prefix blank ((first :: others) ++ back)
  rcases List.prefix_or_prefix_of_prefix kept (List.prefix_append _ back) with less | more
  · obtain ⟨missing, whole⟩ := less
    cases missing with
    | nil =>
        rw [List.append_nil] at whole
        exact ⟨[], List.nil_prefix, by rw [whole, List.append_nil]⟩
    | cons symbol missing =>
        have inside : symbol ∈ first :: others := whole ▸ List.mem_append_right _ List.mem_cons_self
        have taken :
            ((first :: others) ++ back).rtakeWhile blank = symbol :: (missing ++ back) := by
          apply List.append_cancel_left (split.trans _)
          rw [← List.cons_append, ← List.append_assoc, whole]
        have trimmed := List.mem_rtakeWhile_imp (taken ▸ List.mem_cons_self)
        rw [unblank symbol inside] at trimmed
        cases trimmed
  · obtain ⟨rest, whole⟩ := more
    rw [← whole, List.prefix_append_right_inj] at kept
    exact ⟨rest, kept, whole.symm⟩

theorem unblank_of_head_trimBy {first : Symbol} (head : first ∈ (trimBy blank text).head?) :
    blank first = false := by
  obtain ⟨rest, split⟩ := List.rdropWhile_prefix blank (text.dropWhile blank)
  have front : (text.dropWhile blank).head? = some first := by
    rw [← split, List.head?_append, ← trimBy, Option.mem_def.mp head]
    rfl
  have unblank := List.head?_dropWhile_not blank text
  rw [front] at unblank
  simpa using unblank

/-- Nothing is left to trim. -/
theorem trimmed_trimBy (text : List Symbol) : Trimmed blank (trimBy blank text) := by
  refine ⟨fun symbol head => unblank_of_head_trimBy head, fun symbol last => ?_⟩
  have filled : trimBy blank text ≠ [] := by
    intro empty
    rw [empty] at last
    cases last
  rw [List.getLast?_eq_some_getLast filled, Option.mem_some_iff] at last
  rw [← last]
  exact Bool.eq_false_iff.mpr (List.rdropWhile_last_not blank _ filled)

theorem trimmed_of_forall (unblank : ∀ symbol ∈ text, blank symbol = false) :
    Trimmed blank text :=
  ⟨fun _ first => unblank _ (List.mem_of_mem_head? first),
    fun _ last => unblank _ (List.mem_of_mem_getLast? last)⟩

/-- Only a text that has no blanks at its ends keeps its length. -/
theorem trimmed_of_length (kept : (trimBy blank text).length = text.length) :
    Trimmed blank text := by
  have same : trimBy blank text = text := (trimBy_sublist text).eq_of_length kept
  have inner := List.rdropWhile_prefix blank (text.dropWhile blank)
  have front : text.dropWhile blank = text := by
    apply (List.dropWhile_suffix blank).sublist.eq_of_length
    have shorter := inner.length_le
    change (trimBy blank text).length ≤ _ at shorter
    have longer := (List.dropWhile_suffix (l := text) blank).length_le
    omega
  rw [trimBy, front] at same
  constructor
  · intro first head
    cases text with
    | nil => cases head
    | cons other rest =>
        cases head
        cases found : blank first with
        | false => rfl
        | true =>
            rw [List.dropWhile_cons_of_pos found] at front
            have lengths := congrArg List.length front
            have shorter := (List.dropWhile_suffix (l := rest) blank).length_le
            rw [List.length_cons] at lengths
            omega
  · intro last ending
    have filled : text ≠ [] := by
      intro empty
      rw [empty] at ending
      cases ending
    rw [List.getLast?_eq_getLast_of_ne_nil filled] at ending
    cases ending
    simpa using List.rdropWhile_eq_self_iff.mp same filled

/-- Symbols that are no blanks stay. -/
theorem count_trimBy [DecidableEq Symbol] {symbol : Symbol} (kept : blank symbol = false)
    (text : List Symbol) : (trimBy blank text).count symbol = text.count symbol := by
  have absent : ∀ text : List Symbol, (text.takeWhile blank).count symbol = 0 := by
    intro text
    apply List.count_eq_zero_of_not_mem
    intro member
    rw [List.mem_takeWhile_imp member] at kept
    cases kept
  have front : ∀ text : List Symbol, (text.dropWhile blank).count symbol = text.count symbol := by
    intro text
    have split := congrArg (List.count symbol) (List.takeWhile_append_dropWhile (p := blank) (l := text))
    rw [List.count_append, absent, Nat.zero_add] at split
    exact split
  rw [trimBy, List.rdropWhile, List.count_reverse, front, List.count_reverse, front]

end Trimming

/-! ## Code units -/

/-- A string of JavaScript. -/
abbrev JSString := List UInt16

namespace JSString

/-- The units of a code point: two from `U+10000` on. -/
def ofCodePoint (code : Nat) : JSString :=
  if code < 0x10000 then [UInt16.ofNat code]
  else [UInt16.ofNat (0xD800 + (code - 0x10000) / 0x400),
    UInt16.ofNat (0xDC00 + (code - 0x10000) % 0x400)]

/-- The string of a text. -/
def ofText (text : List Char) : JSString := text.flatMap fun char => ofCodePoint char.toNat

def isLead (unit : UInt16) : Bool := 0xD800 ≤ unit.toNat && unit.toNat < 0xDC00

def isTrail (unit : UInt16) : Bool := 0xDC00 ≤ unit.toNat && unit.toNat < 0xE000

/-- The code point of a pair of surrogates. -/
def codePoint (lead trail : UInt16) : Nat :=
  0x10000 + (lead.toNat - 0xD800) * 0x400 + (trail.toNat - 0xDC00)

/-- The text of a string.  A string with a lone surrogate has none. -/
def characters : JSString → Option (List Char)
  | [] => some []
  | [unit] => if isLead unit || isTrail unit then none else some [Char.ofNat unit.toNat]
  | first :: second :: rest =>
      if isLead first then
        if isTrail second then
          (characters rest).map (Char.ofNat (codePoint first second) :: ·)
        else none
      else if isTrail first then none
      else (characters (second :: rest)).map (Char.ofNat first.toNat :: ·)

@[simp] theorem ofText_nil : ofText [] = [] := rfl

@[simp] theorem ofText_cons (char : Char) (text : List Char) :
    ofText (char :: text) = ofCodePoint char.toNat ++ ofText text := rfl

@[simp] theorem ofText_append (text rest : List Char) :
    ofText (text ++ rest) = ofText text ++ ofText rest := List.flatMap_append

theorem ofCodePoint_of_lt {code : Nat} (small : code < 0x10000) :
    ofCodePoint code = [UInt16.ofNat code] := if_pos small

theorem length_ofCodePoint_pos (code : Nat) : 1 ≤ (ofCodePoint code).length := by
  rw [ofCodePoint]
  split
  · exact Nat.le_refl 1
  · exact Nat.le_succ 1

theorem length_ofCodePoint_le (code : Nat) : (ofCodePoint code).length ≤ 2 := by
  rw [ofCodePoint]
  split
  · exact Nat.le_succ 1
  · exact Nat.le_refl 2

theorem length_le_ofText (text : List Char) : text.length ≤ (ofText text).length := by
  induction text with
  | nil => exact Nat.le_refl 0
  | cons char rest ih =>
      have one := length_ofCodePoint_pos char.toNat
      rw [ofText_cons, List.length_append, List.length_cons]
      omega

theorem ofText_eq_nil {text : List Char} : ofText text = [] ↔ text = [] := by
  constructor
  · intro empty
    have shorter := length_le_ofText text
    rw [empty] at shorter
    exact List.length_eq_zero_iff.mp (Nat.le_zero.mp shorter)
  · rintro rfl
    rfl

/-- A character is no surrogate. -/
theorem toNat_char (char : Char) :
    char.toNat < 0xD800 ∨ 0xE000 ≤ char.toNat ∧ char.toNat < 0x110000 := by
  have valid := char.valid
  simp only [UInt32.isValidChar, Nat.isValidChar] at valid
  change char.toNat < 0xD800 ∨ 0xDFFF < char.toNat ∧ char.toNat < 0x110000 at valid
  omega

theorem toNat_charOfNat {code : Nat} (valid : code.isValidChar) : (Char.ofNat code).toNat = code := by
  rw [Char.ofNat, dif_pos valid]
  rfl

theorem toNat_unit {code : Nat} (small : code < 0x10000) : (UInt16.ofNat code).toNat = code := by
  rw [UInt16.toNat_ofNat']
  exact Nat.mod_eq_of_lt small

theorem isLead_iff {unit : UInt16} :
    isLead unit = true ↔ 0xD800 ≤ unit.toNat ∧ unit.toNat < 0xDC00 := by
  simp [isLead]

theorem isTrail_iff {unit : UInt16} :
    isTrail unit = true ↔ 0xDC00 ≤ unit.toNat ∧ unit.toNat < 0xE000 := by
  simp [isTrail]

/-- The units of a character are itself, or a pair of surrogates. -/
theorem ofCodePoint_cases (char : Char) :
    (∃ unit, ofCodePoint char.toNat = [unit] ∧ isLead unit = false ∧ isTrail unit = false ∧
      unit.toNat = char.toNat) ∨
    ∃ lead trail, ofCodePoint char.toNat = [lead, trail] ∧ isLead lead = true ∧
      isTrail trail = true ∧ codePoint lead trail = char.toNat := by
  have range := toNat_char char
  rw [ofCodePoint]
  split
  · rename_i small
    have unit := toNat_unit small
    left
    refine ⟨UInt16.ofNat char.toNat, rfl, ?_, ?_, unit⟩
    · rw [Bool.eq_false_iff, ne_eq, isLead_iff, unit]
      omega
    · rw [Bool.eq_false_iff, ne_eq, isTrail_iff, unit]
      omega
  · have upper : (UInt16.ofNat (0xD800 + (char.toNat - 0x10000) / 0x400)).toNat = _ :=
      toNat_unit (by omega)
    have lower : (UInt16.ofNat (0xDC00 + (char.toNat - 0x10000) % 0x400)).toNat = _ :=
      toNat_unit (by omega)
    right
    refine ⟨UInt16.ofNat (0xD800 + (char.toNat - 0x10000) / 0x400),
      UInt16.ofNat (0xDC00 + (char.toNat - 0x10000) % 0x400), rfl, ?_, ?_, ?_⟩
    · rw [isLead_iff, upper]
      omega
    · rw [isTrail_iff, lower]
      omega
    · unfold codePoint
      omega

/-- A unit that is no surrogate is a character. -/
theorem ofCodePoint_unit {unit : UInt16} (single : isLead unit = false)
    (whole : isTrail unit = false) :
    unit.toNat.isValidChar ∧ ofCodePoint unit.toNat = [unit] := by
  have bound := unit.toNat_lt
  rw [Bool.eq_false_iff, ne_eq, isLead_iff] at single
  rw [Bool.eq_false_iff, ne_eq, isTrail_iff] at whole
  constructor
  · rw [Nat.isValidChar]
    omega
  · rw [ofCodePoint_of_lt bound, UInt16.ofNat_toNat]

/-- The units of the code point of a pair. -/
theorem ofCodePoint_codePoint {lead trail : UInt16} (isLead : isLead lead = true)
    (isTrail : isTrail trail = true) :
    (codePoint lead trail).isValidChar ∧
      ofCodePoint (codePoint lead trail) = [lead, trail] := by
  rw [isLead_iff] at isLead
  rw [isTrail_iff] at isTrail
  have upper : 0xD800 + (codePoint lead trail - 0x10000) / 0x400 = lead.toNat := by
    unfold codePoint
    omega
  have lower : 0xDC00 + (codePoint lead trail - 0x10000) % 0x400 = trail.toNat := by
    unfold codePoint
    omega
  have large : 0x10000 ≤ codePoint lead trail ∧ codePoint lead trail < 0x110000 := by
    unfold codePoint
    omega
  constructor
  · rw [Nat.isValidChar]
    omega
  · rw [ofCodePoint, if_neg (by omega), upper, lower, UInt16.ofNat_toNat, UInt16.ofNat_toNat]

theorem characters_unit {unit : UInt16} (single : isLead unit = false)
    (whole : isTrail unit = false) (rest : JSString) :
    characters (unit :: rest) = (characters rest).map (Char.ofNat unit.toNat :: ·) := by
  cases rest with
  | nil => simp [characters, single, whole]
  | cons second rest => simp [characters, single, whole]

theorem characters_pair {lead trail : UInt16} (isLead : isLead lead = true)
    (isTrail : isTrail trail = true) (rest : JSString) :
    characters (lead :: trail :: rest) =
      (characters rest).map (Char.ofNat (codePoint lead trail) :: ·) := by
  simp [characters, isLead, isTrail]

/-- A string has the text that it was made of. -/
theorem characters_ofText (text : List Char) : characters (ofText text) = some text := by
  induction text with
  | nil => rfl
  | cons char rest ih =>
      rw [ofText_cons]
      rcases ofCodePoint_cases char with
        ⟨unit, units, single, whole, code⟩ | ⟨lead, trail, units, isLead, isTrail, code⟩
      · rw [units, List.singleton_append, characters_unit single whole, ih, code,
          Char.ofNat_toNat]
        rfl
      · rw [units, List.cons_append, List.singleton_append, characters_pair isLead isTrail, ih,
          code, Char.ofNat_toNat]
        rfl

/-- The text of a string makes the string. -/
theorem ofText_of_characters {string : JSString} {text : List Char}
    (read : characters string = some text) : ofText text = string := by
  induction string using characters.induct generalizing text with
  | case1 =>
      cases read
      rfl
  | case2 unit lone =>
      rw [characters, if_pos lone] at read
      cases read
  | case3 unit whole =>
      rw [characters, if_neg whole] at read
      cases read
      rw [Bool.or_eq_true, not_or, Bool.not_eq_true, Bool.not_eq_true] at whole
      obtain ⟨valid, units⟩ := ofCodePoint_unit whole.1 whole.2
      rw [ofText_cons, toNat_charOfNat valid, units]
      rfl
  | case4 lead trail rest isLead isTrail ih =>
      rw [characters_pair isLead isTrail, Option.map_eq_some_iff] at read
      obtain ⟨others, found, rfl⟩ := read
      obtain ⟨valid, units⟩ := ofCodePoint_codePoint isLead isTrail
      rw [ofText_cons, toNat_charOfNat valid, units, ih found]
      rfl
  | case5 lead second rest isLead lone =>
      rw [characters, if_pos isLead, if_neg lone] at read
      cases read
  | case6 first second rest single lone =>
      rw [characters, if_neg single, if_pos lone] at read
      cases read
  | case7 first second rest single whole ih =>
      rw [Bool.not_eq_true] at single whole
      rw [characters_unit single whole, Option.map_eq_some_iff] at read
      obtain ⟨others, found, rfl⟩ := read
      obtain ⟨valid, units⟩ := ofCodePoint_unit single whole
      rw [ofText_cons, toNat_charOfNat valid, units, ih found]
      rfl

/-- A character below the surrogates occurs as often as its unit. -/
theorem count_ofText {symbol : Char} (small : symbol.toNat < 0xD800) (text : List Char) :
    (ofText text).count (UInt16.ofNat symbol.toNat) = text.count symbol := by
  have bound : symbol.toNat < 0x10000 := by omega
  have unit := toNat_unit bound
  induction text with
  | nil => rfl
  | cons char rest ih =>
      rw [ofText_cons, List.count_append, ih, List.count_cons, Nat.add_comm]
      apply congrArg
      rcases ofCodePoint_cases char with
        ⟨other, units, _, _, code⟩ | ⟨lead, trail, units, isLead, isTrail, code⟩
      · rw [units, List.count_singleton]
        by_cases same : char = symbol
        · have here : other = UInt16.ofNat symbol.toNat := by
            rw [← UInt16.toNat_inj, unit, code, same]
          simp [here, same]
        · have elsewhere : other ≠ UInt16.ofNat symbol.toNat := by
            intro here
            rw [here, unit] at code
            exact same (Char.toNat_inj.mp code.symm)
          rw [beq_false_of_ne elsewhere, beq_false_of_ne same]
      · have different : char ≠ symbol := by
          intro same
          subst same
          unfold codePoint at code
          omega
        rw [isLead_iff] at isLead
        rw [isTrail_iff] at isTrail
        have absent : UInt16.ofNat symbol.toNat ∉ [lead, trail] := by
          intro member
          rw [List.mem_pair] at member
          rcases member with same | same
          · rw [← same, unit] at isLead
            omega
          · rw [← same, unit] at isTrail
            omega
        rw [units, List.count_eq_zero_of_not_mem absent, beq_false_of_ne different]
        rfl

/-- The string of an ASCII constant. -/
def ofString (text : String) : JSString := ofText text.toList

/-- White space and line ends. -/
def isSpace (unit : UInt16) : Bool :=
  unit.toNat ∈ [0x09, 0x0A, 0x0B, 0x0C, 0x0D, 0x20, 0xA0, 0x1680, 0x2028, 0x2029, 0x202F, 0x205F,
    0x3000, 0xFEFF] || (0x2000 ≤ unit.toNat && unit.toNat ≤ 0x200A)

def trim (string : JSString) : JSString := trimBy isSpace string

/-- `toLowerCase`, of the capitals of ASCII. -/
def toLowerCase (string : JSString) : JSString :=
  string.map fun unit => if 0x41 ≤ unit.toNat ∧ unit.toNat ≤ 0x5A then unit + 0x20 else unit

/-- `split` with a separator of one unit, and `join`. -/
def split (separator : Char) (string : JSString) : List JSString :=
  List.splitOn (UInt16.ofNat separator.toNat) string

@[inherit_doc split]
def join (separator : Char) (strings : List JSString) : JSString :=
  [UInt16.ofNat separator.toNat].intercalate strings

section Separators

variable {separator : Char} (ascii : separator.toNat < 0x80)

include ascii

theorem not_mem_ofText {text : List Char} (plain : separator ∉ text) :
    UInt16.ofNat separator.toNat ∉ ofText text := by
  have small : separator.toNat < 0xD800 := by omega
  rw [← List.count_eq_zero, count_ofText small, List.count_eq_zero]
  exact plain

theorem split_of_not_mem {text : List Char} (plain : separator ∉ text) :
    split separator (ofText text) = [ofText text] :=
  List.splitOn_eq_singleton (not_mem_ofText ascii plain)

theorem split_append (text rest : List Char) :
    split separator (ofText (text ++ separator :: rest)) =
      split separator (ofText text) ++ split separator (ofText rest) := by
  have small : separator.toNat < 0x10000 := by omega
  rw [split, ofText_append, ofText_cons, ofCodePoint_of_lt small]
  exact List.splitOn_append_cons_self _ _

end Separators

theorem join_split (separator : Char) (string : JSString) :
    join separator (split separator string) = string :=
  List.intercalate_splitOn _

end JSString

/-- A digit of a number to a base up to sixteen. -/
def digitValue (base : Nat) (digit : Char) : Option Nat :=
  let value :=
    if digit.isDigit then digit.toNat - '0'.toNat
    else if 'a' ≤ digit ∧ digit ≤ 'f' then digit.toNat - 'a'.toNat + 10
    else if 'A' ≤ digit ∧ digit ≤ 'F' then digit.toNat - 'A'.toNat + 10
    else 16
  if value < base then some value else none

/-- The number that digits stand for. -/
def numberOf (base : Nat) (digits : List Char) : Option Nat :=
  digits.foldlM (fun number digit => (digitValue base digit).map (number * base + ·)) 0

/-- The octal digits at the front of a text, as many as fit into a byte. -/
def octalDigits (text : List Char) : List Char :=
  let limit := if text.head?.any (· ≤ '3') then 3 else 2
  (text.take limit).takeWhile fun digit => (digitValue 8 digit).isSome

/-- `\b`, `\t`, `\n`, `\v`, `\f`, `\r`; any other character stands for itself. -/
def singleEscape (char : Char) : Nat :=
  if char = 'b' then 0x08
  else if char = 't' then 0x09
  else if char = 'n' then 0x0A
  else if char = 'v' then 0x0B
  else if char = 'f' then 0x0C
  else if char = 'r' then 0x0D
  else char.toNat

/-- `\xHH` and `\uHHHH`, after the letter. -/
def hexEscape (length : Nat) (text : List Char) : Option (JSString × Nat) :=
  if length ≤ text.length then
    (numberOf 16 (text.take length)).map fun code => ([UInt16.ofNat code], length + 1)
  else none

/-- `\u{H…}`, after the opening brace. -/
def codePointEscape (text : List Char) : Option (JSString × Nat) :=
  (numberOf 16 (text.takeWhile (· ≠ '}'))).bind fun code =>
    if text.head? ≠ some '}' ∧ '}' ∈ text ∧ code ≤ 0x10FFFF then
      some (JSString.ofCodePoint code, (text.takeWhile (· ≠ '}')).length + 3)
    else none

/-- The escape sequences of one octal number or of one character. -/
def characterEscape (first : Char) (rest : List Char) : Option (JSString × Nat) :=
  if octalDigits (first :: rest) = [] then
    some (JSString.ofCodePoint (singleEscape first), 1)
  else
    (numberOf 8 (octalDigits (first :: rest))).map fun code =>
      ([UInt16.ofNat code], (octalDigits (first :: rest)).length)

/-- What follows a backslash in a literal: its value, and how many characters it takes.
An error if it is no escape sequence. -/
def escapeSequence : List Char → Option (JSString × Nat)
  | [] => none
  | 'x' :: rest => hexEscape 2 rest
  | 'u' :: '{' :: rest => codePointEscape rest
  | 'u' :: rest => hexEscape 4 rest
  | '\r' :: '\n' :: _ => some ([], 2)
  | first :: rest =>
      if first.toNat ∈ [0x0A, 0x0D, 0x2028, 0x2029] then some ([], 1)
      else characterEscape first rest

/-- The value of a literal's text, after some characters of it. -/
def literalFrom : Nat → List Char → Option JSString
  | _, [] => some []
  | skip + 1, _ :: rest => literalFrom skip rest
  | 0, char :: rest =>
      if char = '\\' then
        match escapeSequence rest with
        | some (units, taken) => (literalFrom taken rest).map (units ++ ·)
        | none => none
      else if char ∈ ['\x22', '\n', '\r'] then none
      else (literalFrom 0 rest).map (JSString.ofCodePoint char.toNat ++ ·)

/-- The value of a double-quoted literal in sloppy mode.  An error if the text between the
quotes ends the literal, or does not let the second quote end it. -/
def literal (text : List Char) : Option JSString := literalFrom 0 text

/-- Without backslashes a literal stands for its text. -/
theorem literal_of_plain {text : List Char}
    (plain : ∀ char ∈ text, char ∉ ['\\', '\x22', '\n', '\r']) :
    literal text = some (JSString.ofText text) := by
  rw [literal]
  induction text with
  | nil => rfl
  | cons char rest ih =>
      have here := plain char List.mem_cons_self
      rw [List.mem_cons, not_or] at here
      rw [literalFrom, if_neg here.1, if_neg here.2,
        ih fun other member => plain other (List.mem_cons_of_mem _ member)]
      rfl

/-- A character that is part of no escape sequence but its own. -/
def Verbatim (symbol : Char) : Prop :=
  symbol.toNat < 0x80 ∧ symbol.isAlphanum = false ∧ symbol ∉ ['\\', '{', '}', '\n', '\r']

instance (symbol : Char) : Decidable (Verbatim symbol) :=
  inferInstanceAs (Decidable (_ ∧ _ ∧ _))

/-- What an escape sequence stands for is no longer than its text, and no character that
stands for itself gets lost. -/
structure Shortens (text : List Char) (units : JSString) : Prop where
  length_le : units.length ≤ (JSString.ofText text).length
  keeps : ∀ symbol, Verbatim symbol →
    text.count symbol ≤ units.count (UInt16.ofNat symbol.toNat)

theorem Shortens.of_absent {text : List Char} {units : JSString}
    (short : units.length ≤ text.length) (absent : ∀ symbol, Verbatim symbol → symbol ∉ text) :
    Shortens text units where
  length_le := Nat.le_trans short (JSString.length_le_ofText text)
  keeps symbol verbatim := by
    rw [List.count_eq_zero_of_not_mem (absent symbol verbatim)]
    exact Nat.zero_le _

theorem Shortens.append {text rest : List Char} {units others : JSString}
    (here : Shortens text units) (later : Shortens rest others) :
    Shortens (text ++ rest) (units ++ others) where
  length_le := by
    rw [JSString.ofText_append, List.length_append, List.length_append]
    exact Nat.add_le_add here.length_le later.length_le
  keeps symbol verbatim := by
    rw [List.count_append, List.count_append]
    exact Nat.add_le_add (here.keeps symbol verbatim) (later.keeps symbol verbatim)

theorem Shortens.itself (text : List Char) : Shortens text (JSString.ofText text) where
  length_le := Nat.le_refl _
  keeps symbol verbatim := by
    rw [JSString.count_ofText]
    exact Nat.lt_trans verbatim.1 (by decide)

theorem isAlphanum_of_digitValue {base : Nat} (small : base ≤ 16) {digit : Char}
    (valued : (digitValue base digit).isSome = true) : digit.isAlphanum = true := by
  change ((digit.isUpper || digit.isLower) || digit.isDigit) = true
  rw [Bool.or_eq_true, Bool.or_eq_true]
  by_cases number : digit.isDigit = true
  · exact Or.inr number
  · left
    by_cases lower : 'a' ≤ digit ∧ digit ≤ 'f'
    · right
      change (decide _ && decide _) = true
      rw [Bool.and_eq_true, decide_eq_true_eq, decide_eq_true_eq]
      exact ⟨lower.1, Nat.le_trans lower.2 (by decide)⟩
    · by_cases upper : 'A' ≤ digit ∧ digit ≤ 'F'
      · left
        change decide _ = true
        rw [decide_eq_true_eq]
        exact ⟨upper.1, Nat.le_trans upper.2 (by decide)⟩
      · simp only [digitValue, number, Bool.false_eq_true, if_neg lower, if_neg upper,
          if_false] at valued
        rw [if_neg (by omega)] at valued
        cases valued

theorem isAlphanum_range {char : Char} (letter : char.isAlphanum = true) :
    0x30 ≤ char.toNat ∧ char.toNat ≤ 0x7A := by
  have range {first last : Char} (inside : first.val ≤ char.val ∧ char.val ≤ last.val) :
      first.toNat ≤ char.toNat ∧ char.toNat ≤ last.toNat :=
    ⟨UInt32.le_iff_toNat_le.mp inside.1, UInt32.le_iff_toNat_le.mp inside.2⟩
  have both {first last : Char}
      (inside : (decide (first.val ≤ char.val) && decide (char.val ≤ last.val)) = true) :
      first.val ≤ char.val ∧ char.val ≤ last.val := by
    rwa [Bool.and_eq_true, decide_eq_true_eq, decide_eq_true_eq] at inside
  change ((char.isUpper || char.isLower) || char.isDigit) = true at letter
  rw [Bool.or_eq_true, Bool.or_eq_true] at letter
  rcases letter with (upper | lower) | digit
  · have upper' := @range 'A' 'Z' (of_decide_eq_true upper)
    exact ⟨Nat.le_trans (by decide) upper'.1, Nat.le_trans upper'.2 (by decide)⟩
  · have lower' := @range 'a' 'z' (both lower)
    exact ⟨Nat.le_trans (by decide) lower'.1, lower'.2⟩
  · have digit' := @range '0' '9' (both digit)
    exact ⟨digit'.1, Nat.le_trans digit'.2 (by decide)⟩

theorem digitValue_verbatim {base : Nat} (small : base ≤ 16) {symbol : Char}
    (verbatim : Verbatim symbol) : digitValue base symbol = none := by
  rw [← Option.not_isSome_iff_eq_none]
  intro valued
  have letter := isAlphanum_of_digitValue small valued
  rw [verbatim.2.1] at letter
  cases letter

theorem not_mem_of_numberOf {base : Nat} (small : base ≤ 16) {symbol : Char}
    (verbatim : Verbatim symbol) {digits : List Char} {number : Nat}
    (found : numberOf base digits = some number) : symbol ∉ digits := by
  rw [numberOf] at found
  generalize 0 = start at found
  induction digits generalizing start with
  | nil => exact List.not_mem_nil
  | cons digit rest ih =>
      rw [List.foldlM_cons] at found
      obtain ⟨next, value, later⟩ := Option.bind_eq_some_iff.mp found
      intro member
      rcases List.mem_cons.mp member with same | member
      · rw [← same, digitValue_verbatim small verbatim] at value
        cases value
      · exact ih _ later member

theorem Verbatim.ne_letter {symbol letter : Char} (verbatim : Verbatim symbol)
    (isLetter : letter.isAlphanum = true) : symbol ≠ letter := by
  intro same
  rw [← same, verbatim.2.1] at isLetter
  cases isLetter

theorem hexEscape_shortens {length : Nat} {text : List Char} {units : JSString} {taken : Nat}
    {letter : Char} (isLetter : letter.isAlphanum = true)
    (found : hexEscape length text = some (units, taken)) :
    Shortens ((letter :: text).take taken) units := by
  rw [hexEscape] at found
  split at found
  · obtain ⟨code, digits, same⟩ := Option.map_eq_some_iff.mp found
    cases same
    rw [List.take_succ_cons]
    apply Shortens.of_absent
    · exact Nat.le_add_left 1 _
    · intro symbol verbatim member
      rcases List.mem_cons.mp member with same | member
      · exact verbatim.ne_letter isLetter same
      · exact not_mem_of_numberOf (Nat.le_refl 16) verbatim digits member
  · cases found

theorem take_takeWhile_succ {text : List Char} {closing : Char} (closed : closing ∈ text) :
    text.take ((text.takeWhile (· ≠ closing)).length + 1) =
      text.takeWhile (· ≠ closing) ++ [closing] := by
  induction text with
  | nil => cases closed
  | cons first rest ih =>
      by_cases here : first = closing
      · simp [here]
      · have later := ih ((List.mem_cons.mp closed).resolve_left (Ne.symm here))
        rw [List.takeWhile_cons_of_pos (by simpa using here), List.length_cons,
          List.take_succ_cons, later, List.cons_append]

theorem codePointEscape_shortens {text : List Char} {units : JSString} {taken : Nat}
    (found : codePointEscape text = some (units, taken)) :
    Shortens (('u' :: '{' :: text).take taken) units := by
  obtain ⟨code, digits, chosen⟩ := Option.bind_eq_some_iff.mp found
  split at chosen
  · rename_i ok
    cases chosen
    rw [List.take_succ_cons, List.take_succ_cons, take_takeWhile_succ ok.2.1]
    apply Shortens.of_absent
    · have two := JSString.length_ofCodePoint_le code
      rw [List.length_cons, List.length_cons]
      omega
    · intro symbol verbatim member
      rw [List.mem_cons, List.mem_cons, List.mem_append, List.mem_singleton] at member
      rcases member with same | same | member | same
      · exact verbatim.ne_letter (by decide) same
      · exact verbatim.2.2 (by simp [same])
      · exact not_mem_of_numberOf (Nat.le_refl 16) verbatim digits member
      · exact verbatim.2.2 (by simp [same])
  · cases chosen

theorem prefix_octalDigits (text : List Char) : octalDigits text <+: text :=
  (List.takeWhile_prefix _).trans (List.take_prefix _ text)

theorem length_singleEscape_le (char : Char) :
    (JSString.ofCodePoint (singleEscape char)).length ≤
      (JSString.ofCodePoint char.toNat).length := by
  have one := JSString.length_ofCodePoint_pos char.toNat
  have cases : singleEscape char = char.toNat ∨ singleEscape char < 0x10000 := by
    rw [singleEscape]
    split_ifs <;> simp
  rcases cases with same | small
  · rw [same]
  · rw [JSString.ofCodePoint_of_lt small]
    exact one

theorem singleEscape_verbatim {symbol : Char} (verbatim : Verbatim symbol) :
    singleEscape symbol = symbol.toNat := by
  rw [singleEscape]
  split_ifs with b t n v f r
  · exact absurd b (verbatim.ne_letter (by decide))
  · exact absurd t (verbatim.ne_letter (by decide))
  · exact absurd n (verbatim.ne_letter (by decide))
  · exact absurd v (verbatim.ne_letter (by decide))
  · exact absurd f (verbatim.ne_letter (by decide))
  · exact absurd r (verbatim.ne_letter (by decide))
  · rfl

theorem characterEscape_shortens {first : Char} {rest : List Char} {units : JSString}
    {taken : Nat} (found : characterEscape first rest = some (units, taken)) :
    Shortens ((first :: rest).take taken) units := by
  rw [characterEscape] at found
  split at found
  · cases found
    rw [List.take_succ_cons, List.take_zero]
    constructor
    · rw [JSString.ofText_cons, JSString.ofText_nil, List.append_nil]
      exact length_singleEscape_le first
    · intro symbol verbatim
      by_cases same : first = symbol
      · have small : symbol.toNat < 0x10000 := Nat.lt_trans verbatim.1 (by omega)
        rw [same, singleEscape_verbatim verbatim, JSString.ofCodePoint_of_lt small,
          List.count_singleton_self, List.count_singleton_self]
      · rw [List.count_singleton, beq_false_of_ne same]
        exact Nat.zero_le _
  · rename_i filled
    obtain ⟨code, digits, same⟩ := Option.map_eq_some_iff.mp found
    cases same
    rw [← List.prefix_iff_eq_take.mp (prefix_octalDigits _)]
    apply Shortens.of_absent
    · exact List.length_pos_iff.mpr filled
    · intro symbol verbatim
      exact not_mem_of_numberOf (by decide) verbatim digits

theorem Verbatim.not_lineEnd {symbol : Char} (verbatim : Verbatim symbol) :
    symbol.toNat ∉ [0x0A, 0x0D, 0x2028, 0x2029] := by
  intro member
  have small := verbatim.1
  have ending : symbol.toNat = '\n'.toNat ∨ symbol.toNat = '\r'.toNat := by
    simp only [List.mem_cons, List.not_mem_nil, or_false] at member
    change symbol.toNat = 10 ∨ symbol.toNat = 13
    omega
  apply verbatim.2.2
  rcases ending with same | same
  · simp [Char.toNat_inj.mp same]
  · simp [Char.toNat_inj.mp same]

theorem escapeSequence_shortens {text : List Char} {units : JSString} {taken : Nat}
    (found : escapeSequence text = some (units, taken)) :
    Shortens (text.take taken) units := by
  fun_cases escapeSequence text with
  | case1 => cases found
  | case2 rest => exact hexEscape_shortens (by decide) found
  | case3 rest => exact codePointEscape_shortens found
  | case4 rest unbraced =>
      rw [escapeSequence] at found
      · exact hexEscape_shortens (by decide) found
      · exact unbraced
  | case5 rest =>
      cases found
      apply Shortens.of_absent (Nat.zero_le _)
      intro symbol verbatim member
      apply verbatim.2.2
      rcases List.mem_pair.mp member with same | same
      · simp [same]
      · simp [same]
  | case6 first rest notX unbraced notU single ends =>
      rw [escapeSequence, if_pos ends] at found
      · cases found
        apply Shortens.of_absent (Nat.zero_le _)
        intro symbol verbatim member
        rw [List.mem_singleton.mp member] at verbatim
        exact verbatim.not_lineEnd ends
      all_goals assumption
  | case7 first rest notX unbraced notU single inner =>
      rw [escapeSequence, if_neg inner] at found
      · exact characterEscape_shortens found
      all_goals assumption

theorem Shortens.escape {text : List Char} {units : JSString} (shortens : Shortens text units) :
    Shortens ('\\' :: text) units ∧
      units.length < (JSString.ofText ('\\' :: text)).length := by
  have longer : (JSString.ofText ('\\' :: text)).length = (JSString.ofText text).length + 1 :=
    rfl
  have shorter := shortens.length_le
  refine ⟨⟨by omega, ?_⟩, by omega⟩
  intro symbol verbatim
  have different : '\\' ≠ symbol := by
    intro same
    apply verbatim.2.2
    simp [← same]
  rw [List.count_cons_of_ne different]
  exact shortens.keeps symbol verbatim

/-- What a literal stands for is no longer than its text, and shorter if there is an escape
sequence in it. -/
theorem literalFrom_shortens {skip : Nat} {text : List Char} {value : JSString}
    (found : literalFrom skip text = some value) :
    Shortens (text.drop skip) value ∧
      ('\\' ∈ text.drop skip → value.length < (JSString.ofText (text.drop skip)).length) := by
  induction text generalizing skip value with
  | nil =>
      rw [literalFrom] at found
      cases found
      rw [List.drop_nil]
      exact ⟨Shortens.itself [], nofun⟩
  | cons char rest ih =>
      cases skip with
      | succ skip => exact ih found
      | zero =>
          rw [literalFrom] at found
          rw [List.drop_zero]
          split at found
          · rename_i escape
            split at found
            · rename_i units taken sequence
              obtain ⟨others, later, rfl⟩ := Option.map_eq_some_iff.mp found
              have joined := (escapeSequence_shortens sequence).append (ih later).1
              rw [List.take_append_drop] at joined
              rw [escape]
              exact ⟨joined.escape.1, fun _ => joined.escape.2⟩
            · cases found
          · rename_i plain
            split at found
            · cases found
            · obtain ⟨others, later, rfl⟩ := Option.map_eq_some_iff.mp found
              obtain ⟨shortens, shorter⟩ := ih later
              rw [List.drop_zero] at shortens shorter
              have here : Shortens [char] (JSString.ofCodePoint char.toNat) := by
                simpa using Shortens.itself [char]
              constructor
              · exact here.append shortens
              · intro escaped
                have inner := shorter ((List.mem_cons.mp escaped).resolve_left (Ne.symm plain))
                rw [JSString.ofText_cons, List.length_append, List.length_append]
                omega

theorem literal_shortens {text : List Char} {value : JSString}
    (found : literal text = some value) : Shortens text value :=
  (literalFrom_shortens found).1

/-- Only a literal without escape sequences has as many units as its text. -/
theorem plain_of_literal {text : List Char} {value : JSString}
    (found : literal text = some value)
    (kept : (JSString.ofText text).length ≤ value.length) :
    ∀ char ∈ text, char ∉ ['\\', '\x22', '\n', '\r'] := by
  have unescaped : '\\' ∉ text := by
    intro escaped
    exact absurd ((literalFrom_shortens found).2 escaped) (Nat.not_lt.mpr kept)
  clear kept
  rw [literal] at found
  induction text generalizing value with
  | nil => nofun
  | cons first rest ih =>
      rw [List.mem_cons, not_or] at unescaped
      have plain : first ≠ '\\' := Ne.symm unescaped.1
      rw [literalFrom, if_neg plain] at found
      split at found
      · cases found
      · rename_i inner
        obtain ⟨others, later, rfl⟩ := Option.map_eq_some_iff.mp found
        rw [List.forall_mem_cons]
        constructor
        · rw [List.mem_cons, not_or]
          exact ⟨plain, inner⟩
        · exact ih later unescaped.2

end CloudRunSsh
