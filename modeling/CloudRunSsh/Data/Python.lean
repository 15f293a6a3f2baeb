import Mathlib.Algebra.Group.Nat.Defs
import Mathlib.Data.List.Induction
import Mathlib.Data.List.TakeWhile
import CloudRunSsh.Data.JavaScript

/-!
# Strings of Python

A string of Python is a list of code points, surrogates among them.  An index below zero
counts from the end.
-/

namespace CloudRunSsh

/-- A string of Python. -/
abbrev PyString := List Nat

namespace PyString

/-- The code points of a text. -/
def ofText (text : String) : PyString := text.toList.map Char.toNat

def dot : Nat := '.'.toNat

def hyphen : Nat := '-'.toNat

def newline : Nat := '\n'.toNat

/-- `0` to `9`. -/
def isDigit (symbol : Nat) : Bool := '0'.toNat ≤ symbol && symbol ≤ '9'.toNat

/-- The letters of ASCII. -/
def isLetter (symbol : Nat) : Bool :=
  ('a'.toNat ≤ symbol && symbol ≤ 'z'.toNat) || ('A'.toNat ≤ symbol && symbol ≤ 'Z'.toNat)

/-- `str.lower`, of a symbol of ASCII. -/
def lowerASCII (symbol : Nat) : Nat :=
  if 'A'.toNat ≤ symbol ∧ symbol ≤ 'Z'.toNat then symbol + 32 else symbol

/-- `str.isspace`, of one symbol. -/
def isSpace (symbol : Nat) : Bool :=
  symbol ∈ [0x85, 0xA0, 0x1680, 0x2028, 0x2029, 0x202F, 0x205F, 0x3000] ||
    (0x09 ≤ symbol && symbol ≤ 0x0D) || (0x1C ≤ symbol && symbol ≤ 0x20) ||
    (0x2000 ≤ symbol && symbol ≤ 0x200A)

/-- `str.strip`. -/
def strip (string : PyString) : PyString := trimBy isSpace string

/-- The text before the first of a symbol, all of it if there is none. -/
def before (symbol : Nat) (string : PyString) : PyString := string.takeWhile (· ≠ symbol)

/-- The text after the first of a symbol. -/
def after (symbol : Nat) (string : PyString) : PyString := (string.dropWhile (· ≠ symbol)).tail

/-- `str.startswith`. -/
def startsWith (string front : PyString) : Bool := front.isPrefixOf string

/-- `str.endswith`. -/
def endsWith (string back : PyString) : Bool := back.isSuffixOf string

section Partition

variable {symbol : Nat} {front : PyString}

theorem before_append_cons (free : symbol ∉ front) (rest : PyString) :
    before symbol (front ++ symbol :: rest) = front := by
  rw [before, List.takeWhile_append_of_pos, List.takeWhile_cons_of_neg (by simp), List.append_nil]
  intro other member
  exact decide_eq_true fun same => free (same ▸ member)

theorem after_append_cons (free : symbol ∉ front) (rest : PyString) :
    after symbol (front ++ symbol :: rest) = rest := by
  rw [after, List.dropWhile_append_of_pos, List.dropWhile_cons_of_neg (by simp), List.tail_cons]
  intro other member
  exact decide_eq_true fun same => free (same ▸ member)

theorem after_of_not_mem (free : symbol ∉ front) : after symbol front = [] := by
  rw [after, List.dropWhile_eq_nil_iff.mpr, List.tail_nil]
  intro other member
  exact decide_eq_true fun same => free (same ▸ member)

end Partition

/-- `string[index]`, where there is no item on an `IndexError`. -/
def getItem (string : PyString) (index : Int) : Option Nat :=
  let index := if index < 0 then index + string.length else index
  if index < 0 then none else string[index.toNat]?

/-- The items from the end on are those of the reversed string. -/
theorem getItem_fromEnd (string : PyString) (index : Nat) :
    string.getItem (-1 - index) = string.reverse[index]? := by
  have negative : -1 - (index : Int) < 0 := by omega
  rw [getItem]
  rw [if_pos negative]
  by_cases inside : index < string.length
  · rw [if_neg (by omega), List.getElem?_reverse inside]
    congr 1
    omega
  · rw [if_pos (by omega), List.getElem?_eq_none]
    rw [List.length_reverse]
    omega

theorem getItem_last (string : PyString) : string.getItem (-1) = string.getLast? := by
  have last := getItem_fromEnd string 0
  rw [← List.head?_eq_getElem?, List.head?_reverse] at last
  exact last

/-- The number that decimal digits stand for. -/
def decimal (digits : PyString) : Nat :=
  digits.foldl (fun number digit => 10 * number + (digit - '0'.toNat)) 0

/-- Digits without leading zeros. -/
structure IsDecimal (text : PyString) : Prop where
  digits : ∀ symbol ∈ text, isDigit symbol = true
  nonempty : text ≠ []
  plain : text.head? = some '0'.toNat → text.length = 1

theorem exists_digit {symbol : Nat} (digit : isDigit symbol = true) :
    ∃ value ≤ 9, symbol = '0'.toNat + value := by
  rw [isDigit, Bool.and_eq_true_iff, decide_eq_true_iff, decide_eq_true_iff] at digit
  have nine : '9'.toNat = '0'.toNat + 9 := rfl
  exact ⟨symbol - '0'.toNat, by omega, by omega⟩

theorem decimal_append (front : PyString) (value : Nat) :
    decimal (front ++ ['0'.toNat + value]) = 10 * decimal front + value := by
  rw [decimal, List.foldl_append, List.foldl_cons, List.foldl_nil, Nat.add_sub_cancel_left]
  rfl

section Decimal

variable {digits others : PyString}

theorem decimal_lt (all : ∀ symbol ∈ digits, isDigit symbol = true) :
    decimal digits < 10 ^ digits.length := by
  induction digits using List.reverseRecOn with
  | nil => decide
  | append_singleton front last ih =>
      rw [List.forall_mem_append, List.forall_mem_singleton] at all
      obtain ⟨value, _, rfl⟩ := exists_digit all.2
      have less := ih all.1
      rw [decimal_append, List.length_append, List.length_singleton, Nat.pow_succ]
      omega

theorem le_decimal {first : Nat} (positive : 1 ≤ first)
    (all : ∀ symbol ∈ digits, isDigit symbol = true) :
    10 ^ digits.length ≤ decimal (('0'.toNat + first) :: digits) := by
  induction digits using List.reverseRecOn with
  | nil =>
      rw [← List.nil_append ['0'.toNat + first], decimal_append]
      exact Nat.le_add_left_of_le positive
  | append_singleton front last ih =>
      rw [List.forall_mem_append, List.forall_mem_singleton] at all
      obtain ⟨value, _, rfl⟩ := exists_digit all.2
      have least := ih all.1
      rw [← List.cons_append, decimal_append, List.length_append, List.length_singleton,
        Nat.pow_succ]
      omega

/-- As many digits for the same number are the same. -/
theorem eq_of_decimal_of_length (all : ∀ symbol ∈ digits, isDigit symbol = true)
    (all' : ∀ symbol ∈ others, isDigit symbol = true)
    (length : digits.length = others.length) (same : decimal digits = decimal others) :
    digits = others := by
  induction digits using List.reverseRecOn generalizing others with
  | nil => exact (List.eq_nil_of_length_eq_zero length.symm).symm
  | append_singleton front last ih =>
      rcases List.eq_nil_or_concat others with rfl | ⟨front', last', rfl⟩
      · exact absurd length (by simp)
      · rw [List.concat_eq_append] at all' length same ⊢
        rw [List.forall_mem_append, List.forall_mem_singleton] at all all'
        obtain ⟨value, _, rfl⟩ := exists_digit all.2
        obtain ⟨value', _, rfl⟩ := exists_digit all'.2
        rw [decimal_append, decimal_append] at same
        obtain ⟨fronts, rfl⟩ : decimal front = decimal front' ∧ value = value' := by omega
        rw [List.length_append, List.length_append, Nat.add_right_cancel_iff] at length
        rw [ih all.1 all'.1 length fronts]

end Decimal

/-- A shorter text is a smaller number. -/
theorem IsDecimal.decimal_lt_of_length {text other : PyString} (isDecimal : IsDecimal text)
    (isDecimal' : IsDecimal other) (shorter : text.length < other.length) :
    decimal text < decimal other := by
  obtain ⟨first, rest, rfl⟩ := List.exists_cons_of_ne_nil isDecimal'.nonempty
  obtain ⟨digit, all⟩ := List.forall_mem_cons.mp isDecimal'.digits
  obtain ⟨value, _, rfl⟩ := exists_digit digit
  have filled := List.length_pos_iff.mpr isDecimal.nonempty
  rw [List.length_cons] at shorter
  have positive : 1 ≤ value := by
    by_contra zero
    obtain rfl : value = 0 := by omega
    have single := isDecimal'.plain rfl
    rw [List.length_cons] at single
    omega
  calc decimal text < 10 ^ text.length := decimal_lt isDecimal.digits
    _ ≤ 10 ^ rest.length := Nat.pow_le_pow_right (by decide) (by omega)
    _ ≤ decimal (('0'.toNat + value) :: rest) := le_decimal positive all

/-- A number is written in one way. -/
theorem IsDecimal.eq_of_decimal {text other : PyString} (isDecimal : IsDecimal text)
    (isDecimal' : IsDecimal other) (same : decimal text = decimal other) : text = other := by
  rcases Nat.lt_trichotomy text.length other.length with shorter | length | longer
  · exact absurd same (isDecimal.decimal_lt_of_length isDecimal' shorter).ne
  · exact eq_of_decimal_of_length isDecimal.digits isDecimal'.digits length same
  · exact absurd same (isDecimal'.decimal_lt_of_length isDecimal longer).ne'

/-- The text of a number. -/
def decimalText (number : Nat) : PyString := (Nat.toDigits 10 number).map Char.toNat

theorem isDigit_decimalText {number symbol : Nat} (member : symbol ∈ decimalText number) :
    isDigit symbol = true := by
  obtain ⟨char, within, rfl⟩ := List.mem_map.mp member
  have digit := Nat.isDigit_of_mem_toDigits (b := 10) (by decide) (by decide) within
  rw [Char.isDigit, Bool.and_eq_true_iff, decide_eq_true_iff, decide_eq_true_iff] at digit
  rw [isDigit, Bool.and_eq_true_iff, decide_eq_true_iff, decide_eq_true_iff]
  exact ⟨UInt32.le_iff_toNat_le.mp digit.1, UInt32.le_iff_toNat_le.mp digit.2⟩

theorem decimalText_ne_nil (number : Nat) : decimalText number ≠ [] := by
  rw [decimalText, Ne, List.map_eq_nil_iff]
  exact Nat.toDigits_ne_nil

theorem decimal_decimalText (number : Nat) : decimal (decimalText number) = number := by
  rw [decimal, decimalText, List.foldl_map]
  exact Nat.ofDigitChars_eq_foldl.symm.trans Nat.ofDigitChars_ten_toDigits

/-- Only the text of zero begins with a zero. -/
theorem head_decimalText {number : Nat} (head : (decimalText number).head? = some '0'.toNat) :
    number = 0 := by
  induction number using Nat.base_induction 10 (by decide) with
  | single number small =>
      rw [decimalText, Nat.toDigits_of_lt_base small, List.map_singleton, List.head?_cons,
        Option.some_inj, Nat.toNat_digitChar_of_lt_ten small] at head
      exact Nat.add_eq_left.mp head
  | digit front last digit positive ih =>
      rw [decimalText, ← Nat.toDigits_append_toDigits (by decide) positive digit,
        List.map_append] at head
      rw [← decimalText, List.head?_append_of_ne_nil _ (decimalText_ne_nil front)] at head
      rw [ih head] at positive
      cases positive

end PyString

end CloudRunSsh
