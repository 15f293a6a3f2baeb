import Mathlib.Data.List.Basic

/-!
# Base64

The encoding with either alphabet, and the forgiving decoder of browsers, which knows the
standard alphabet only.  It reads the other one back as long as the two of its characters
that differ do not occur.
-/

namespace CloudRunSsh.Base64

/-- The bytes in groups of six bits, the last one filled up with zeros. -/
def sextets : List UInt8 → List Nat
  | a :: b :: c :: rest =>
      a.toNat / 4 :: (a.toNat % 4 * 16 + b.toNat / 16) :: (b.toNat % 16 * 4 + c.toNat / 64) ::
        c.toNat % 64 :: sextets rest
  | [a, b] => [a.toNat / 4, a.toNat % 4 * 16 + b.toNat / 16, b.toNat % 16 * 4]
  | [a] => [a.toNat / 4, a.toNat % 4 * 16]
  | [] => []

/-- The bytes of groups of six bits.  Surplus bits at the end are dropped, and a single
group too many is an error. -/
def ofSextets : List Nat → Option (List UInt8)
  | a :: b :: c :: d :: rest =>
      (ofSextets rest).map fun bytes =>
        UInt8.ofNat (a * 4 + b / 16) :: UInt8.ofNat (b % 16 * 16 + c / 4) ::
          UInt8.ofNat (c % 4 * 64 + d) :: bytes
  | [a, b, c] => some [UInt8.ofNat (a * 4 + b / 16), UInt8.ofNat (b % 16 * 16 + c / 4)]
  | [a, b] => some [UInt8.ofNat (a * 4 + b / 16)]
  | [_] => none
  | [] => some []

theorem sextets_lt (bytes : List UInt8) : ∀ sextet ∈ sextets bytes, sextet < 64 := by
  induction bytes using sextets.induct with
  | case1 a b c rest ih =>
      have first := a.toNat_lt
      have second := b.toNat_lt
      have third := c.toNat_lt
      simp only [sextets, List.forall_mem_cons]
      exact ⟨by omega, by omega, by omega, by omega, ih⟩
  | case2 a b =>
      have first := a.toNat_lt
      have second := b.toNat_lt
      simp only [sextets, List.forall_mem_cons]
      exact ⟨by omega, by omega, by omega, List.forall_mem_nil _⟩
  | case3 a =>
      have first := a.toNat_lt
      simp only [sextets, List.forall_mem_cons]
      exact ⟨by omega, by omega, List.forall_mem_nil _⟩
  | case4 => exact List.forall_mem_nil _

theorem ofNat_eq (byte : UInt8) {number : Nat} (same : number = byte.toNat) :
    UInt8.ofNat number = byte := by
  rw [same, UInt8.ofNat_toNat]

/-- The groups of bytes give the bytes back. -/
theorem ofSextets_sextets (bytes : List UInt8) : ofSextets (sextets bytes) = some bytes := by
  induction bytes using sextets.induct with
  | case1 a b c rest ih =>
      have first := a.toNat_lt
      have second := b.toNat_lt
      have third := c.toNat_lt
      rw [sextets, ofSextets, ih, Option.map_some, ofNat_eq a (by omega),
        ofNat_eq b (by omega), ofNat_eq c (by omega)]
  | case2 a b =>
      have first := a.toNat_lt
      have second := b.toNat_lt
      rw [sextets, ofSextets, ofNat_eq a (by omega), ofNat_eq b (by omega)]
  | case3 a =>
      have first := a.toNat_lt
      rw [sextets, ofSextets, ofNat_eq a (by omega)]
  | case4 => rfl

def isASCIISpace (char : Char) : Bool := char ∈ ['\t', '\n', '\x0c', '\r', ' ']

/-- The characters for the last two of the 64 values. -/
structure Alphabet where
  plus : Char
  slash : Char
  plus_plain : isASCIISpace plus = false ∧ plus ≠ '='
  slash_plain : isASCIISpace slash = false ∧ slash ≠ '='

def standard : Alphabet := ⟨'+', '/', by decide, by decide⟩

/-- The alphabet of `base64url`. -/
def urlSafe : Alphabet := ⟨'-', '_', by decide, by decide⟩

def Alphabet.digit (alphabet : Alphabet) (sextet : Nat) : Char :=
  if sextet < 26 then Char.ofNat ('A'.toNat + sextet)
  else if sextet < 52 then Char.ofNat ('a'.toNat + (sextet - 26))
  else if sextet < 62 then Char.ofNat ('0'.toNat + (sextet - 52))
  else if sextet = 62 then alphabet.plus
  else alphabet.slash

/-- The padding to a multiple of four characters. -/
def padding (length : Nat) : List Char := List.replicate ((3 - length % 3) % 3) '='

def encode (alphabet : Alphabet) (bytes : List UInt8) : List Char :=
  (sextets bytes).map alphabet.digit ++ padding bytes.length

/-- The value of a character of the standard alphabet. -/
def valueOf (char : Char) : Option Nat :=
  if char.isUpper then some (char.toNat - 'A'.toNat)
  else if char.isLower then some (char.toNat - 'a'.toNat + 26)
  else if char.isDigit then some (char.toNat - '0'.toNat + 52)
  else if char = '+' then some 62
  else if char = '/' then some 63
  else none

/-- One or two `=` at the end of whole groups of four characters are left out. -/
def dropPadding (text : List Char) : List Char :=
  if text.length % 4 = 0 then
    ((text.reverse.take 2).dropWhile (· = '=') ++ text.reverse.drop 2).reverse
  else text

/-- `atob`, the forgiving decoder. -/
def atob (text : List Char) : Option (List UInt8) :=
  ((dropPadding (text.filter fun char => !isASCIISpace char)).mapM valueOf).bind ofSextets

theorem length_dropPadding_le (text : List Char) :
    (dropPadding text).length ≤ text.length := by
  rw [dropPadding]
  split
  · have halves : text.length = ((text.reverse.take 2) ++ text.reverse.drop 2).length := by
      rw [List.take_append_drop, List.length_reverse]
    rw [List.length_reverse, List.length_append, halves, List.length_append]
    exact Nat.add_le_add_right (List.dropWhile_sublist _).length_le _
  · exact Nat.le_refl _

/-- Three bytes take four groups of six bits. -/
theorem length_of_ofSextets {sextets : List Nat} {bytes : List UInt8}
    (read : ofSextets sextets = some bytes) : bytes.length * 4 ≤ sextets.length * 3 := by
  induction sextets using ofSextets.induct generalizing bytes with
  | case1 a b c d rest ih =>
      rw [ofSextets] at read
      obtain ⟨others, found, rfl⟩ := Option.map_eq_some_iff.mp read
      have shorter := ih found
      simp only [List.length_cons]
      omega
  | case2 | case3 | case5 =>
      cases read
      simp
  | case4 => cases read

theorem length_of_mapM {Symbol Value : Type} {value : Symbol → Option Value}
    {symbols : List Symbol} {values : List Value} (read : symbols.mapM value = some values) :
    values.length = symbols.length := by
  induction symbols generalizing values with
  | nil =>
      cases read
      rfl
  | cons symbol rest ih =>
      rw [List.mapM_cons] at read
      obtain ⟨first, _, read⟩ := Option.bind_eq_some_iff.mp read
      obtain ⟨others, found, read⟩ := Option.bind_eq_some_iff.mp read
      cases read
      rw [List.length_cons, List.length_cons, ih found]

/-- Decoding makes a text shorter. -/
theorem length_atob_lt {text : List Char} {bytes : List UInt8}
    (decoded : atob text = some bytes) (filled : text ≠ []) : bytes.length < text.length := by
  obtain ⟨sextets, values, read⟩ := Option.bind_eq_some_iff.mp decoded
  have unpadded := length_dropPadding_le (text.filter fun char => !isASCIISpace char)
  have unspaced := List.length_filter_le (fun char => !isASCIISpace char) text
  have groups := length_of_mapM values
  have fewer := length_of_ofSextets read
  have positive := List.length_pos_of_ne_nil filled
  omega

/-- The first 62 characters are the same in all alphabets. -/
theorem digit_standard (alphabet : Alphabet) {sextet : Nat} (small : sextet < 62) :
    alphabet.digit sextet = standard.digit sextet := by
  simp only [Alphabet.digit]
  split_ifs with upper lower
  · rfl
  · rfl
  · rfl

theorem valueOf_standard {sextet : Nat} (small : sextet < 64) :
    valueOf (standard.digit sextet) = some sextet ∧
      isASCIISpace (standard.digit sextet) = false ∧ standard.digit sextet ≠ '=' := by
  decide +revert

theorem length_sextets (bytes : List UInt8) :
    (sextets bytes).length + (padding bytes.length).length = (bytes.length + 2) / 3 * 4 := by
  rw [padding, List.length_replicate]
  induction bytes using sextets.induct with
  | case1 a b c rest ih =>
      simp only [sextets, List.length_cons] at ih ⊢
      omega
  | case2 a b => simp [sextets]
  | case3 a => simp [sextets]
  | case4 => rfl

/-- Three bytes are four characters, and so is what is left. -/
theorem length_encode (alphabet : Alphabet) (bytes : List UInt8) :
    (encode alphabet bytes).length = (bytes.length + 2) / 3 * 4 := by
  rw [encode, List.length_append, List.length_map]
  exact length_sextets bytes

theorem encode_eq_nil {alphabet : Alphabet} {bytes : List UInt8} :
    encode alphabet bytes = [] ↔ bytes = [] := by
  rw [← List.length_eq_zero_iff, ← List.length_eq_zero_iff, length_encode]
  omega

theorem dropWhile_eq {digits : List Char} (last : ∀ digit ∈ digits, digit ≠ '=') :
    digits.dropWhile (· = '=') = digits := by
  cases digits with
  | nil => rfl
  | cons digit rest =>
      apply List.dropWhile_cons_of_neg
      simpa using last digit List.mem_cons_self

/-- The padding is what is left out. -/
theorem dropPadding_append {digits : List Char} {length : Nat}
    (whole : (digits.length + (padding length).length) % 4 = 0)
    (last : ∀ digit ∈ digits, digit ≠ '=') :
    dropPadding (digits ++ padding length) = digits := by
  have front : ∀ count, ∀ digit ∈ digits.reverse.take count, digit ≠ '=' := by
    intro count digit member
    exact last digit (List.mem_reverse.mp (List.mem_of_mem_take member))
  have turned : (digits ++ padding length).reverse = padding length ++ digits.reverse := by
    rw [List.reverse_append, padding, List.reverse_replicate]
  rw [dropPadding, if_pos (by rw [List.length_append]; exact whole), turned]
  have few : (3 - length % 3) % 3 < 3 := Nat.mod_lt _ (by decide)
  rw [padding]
  generalize (3 - length % 3) % 3 = count at few
  match count, few with
  | 0, _ =>
      change ((digits.reverse.take 2).dropWhile _ ++ digits.reverse.drop 2).reverse = digits
      rw [dropWhile_eq (front 2), List.take_append_drop, List.reverse_reverse]
  | 1, _ =>
      change ((digits.reverse.take 1).dropWhile _ ++ digits.reverse.drop 1).reverse = digits
      rw [dropWhile_eq (front 1), List.take_append_drop, List.reverse_reverse]
  | 2, _ =>
      change digits.reverse.reverse = digits
      exact List.reverse_reverse digits

theorem digit_plain (alphabet : Alphabet) {sextet : Nat} (small : sextet < 64) :
    isASCIISpace (alphabet.digit sextet) = false ∧ alphabet.digit sextet ≠ '=' := by
  by_cases same : sextet < 62
  · rw [digit_standard alphabet same]
    exact (valueOf_standard small).2
  · rw [Alphabet.digit]
    rw [if_neg (by omega), if_neg (by omega), if_neg same]
    split_ifs
    · exact alphabet.plus_plain
    · exact alphabet.slash_plain

theorem urlSafe_char {bytes : List UInt8} {char : Char} (member : char ∈ encode urlSafe bytes) :
    char.isAlphanum = true ∨ char ∈ ['-', '_', '='] := by
  have all : ∀ sextet, sextet < 64 → (urlSafe.digit sextet).isAlphanum = true ∨
      urlSafe.digit sextet ∈ ['-', '_', '='] := by decide
  rcases List.mem_append.mp member with digit | padded
  · obtain ⟨sextet, among, rfl⟩ := List.mem_map.mp digit
    exact all sextet (sextets_lt bytes sextet among)
  · right
    rw [(List.mem_replicate.mp padded).2]
    decide

/-- What the decoder reads of an encoded text. -/
theorem atob_encode (alphabet : Alphabet) (bytes : List UInt8) :
    atob (encode alphabet bytes) =
      (((sextets bytes).map alphabet.digit).mapM valueOf).bind ofSextets := by
  have plain : ∀ char ∈ (sextets bytes).map alphabet.digit,
      isASCIISpace char = false ∧ char ≠ '=' := by
    intro char member
    obtain ⟨sextet, among, rfl⟩ := List.mem_map.mp member
    exact digit_plain alphabet (sextets_lt bytes sextet among)
  have unspaced : (encode alphabet bytes).filter (fun char => !isASCIISpace char) =
      encode alphabet bytes := by
    rw [List.filter_eq_self]
    intro char member
    rw [Bool.not_eq_true']
    rcases List.mem_append.mp member with digit | padded
    · exact (plain char digit).1
    · rw [(List.mem_replicate.mp padded).2]
      decide
  rw [atob, unspaced, encode, dropPadding_append]
  · rw [List.length_map, length_sextets]
    exact Nat.mul_mod_left _ 4
  · exact fun char member => (plain char member).2

/-- One failure makes the whole list fail. -/
theorem mapM_eq_none {Symbol Value : Type} {value : Symbol → Option Value}
    {symbols : List Symbol} {symbol : Symbol} (member : symbol ∈ symbols)
    (fails : value symbol = none) : symbols.mapM value = none := by
  induction symbols with
  | nil => cases member
  | cons first rest ih =>
      rw [List.mapM_cons]
      rcases List.mem_cons.mp member with here | later
      · rw [← here, fails]
        rfl
      · rw [ih later]
        cases value first <;> rfl

theorem mapM_valueOf {numbers : List Nat} (small : ∀ number ∈ numbers, number < 64) :
    (numbers.map standard.digit).mapM valueOf = some numbers := by
  induction numbers with
  | nil => rfl
  | cons number rest ih =>
      rw [List.forall_mem_cons] at small
      rw [List.map_cons, List.mapM_cons, (valueOf_standard small.1).1, ih small.2]
      rfl

/-- What is written with the standard alphabet is read back. -/
theorem atob_standard (bytes : List UInt8) : atob (encode standard bytes) = some bytes := by
  rw [atob_encode, mapM_valueOf (sextets_lt bytes)]
  exact ofSextets_sextets bytes

/-- Of the other alphabet, texts without the two characters that differ are read back, and
the others are errors. -/
theorem atob_urlSafe (bytes : List UInt8) :
    atob (encode urlSafe bytes) =
      if ∀ sextet ∈ sextets bytes, sextet < 62 then some bytes else none := by
  split
  · rename_i small
    have same : (sextets bytes).map urlSafe.digit = (sextets bytes).map standard.digit := by
      apply List.map_congr_left
      intro sextet member
      exact digit_standard urlSafe (small sextet member)
    rw [← atob_standard bytes, encode, encode, same]
  · rename_i other
    push Not at other
    obtain ⟨sextet, member, large⟩ := other
    have bound := sextets_lt bytes sextet member
    have foreign : valueOf (urlSafe.digit sextet) = none := by
      have last : sextet = 62 ∨ sextet = 63 := by omega
      rcases last with rfl | rfl
      · decide
      · decide
    rw [atob_encode, mapM_eq_none (List.mem_map_of_mem member) foreign]
    rfl

end CloudRunSsh.Base64
