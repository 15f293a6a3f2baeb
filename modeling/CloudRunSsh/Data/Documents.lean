import Mathlib.Data.List.Chain
import CloudRunSsh.Data.JSON

/-!
# Writing JSON

Writers of JSON differ in the symbols that they escape and in the blanks after their separators.
What any of them writes is read as what was written, by `json.loads` and by `JSON.parse`.
-/

namespace CloudRunSsh.JSON

/-- A hexadecimal digit. -/
def hexSymbol (digit : Nat) : Nat := if digit < 10 then zero + digit else 0x61 + (digit - 10)

/-- The four digits of a unit. -/
def hexUnit (code : Nat) : PyString :=
  [hexSymbol (code / 0x1000 % 16), hexSymbol (code / 0x100 % 16), hexSymbol (code / 0x10 % 16),
    hexSymbol (code % 16)]

/-- `\uXXXX`. -/
def unicodeEscape (code : Nat) : PyString := reverseSolidus :: 0x75 :: hexUnit code

/-- The surrogates of a code point. -/
def highSurrogate (code : Nat) : Nat := 0xD800 + (code - 0x10000) / 0x400

def lowSurrogate (code : Nat) : Nat := 0xDC00 + (code - 0x10000) % 0x400

theorem hexDigit_hexSymbol {digit : Nat} (small : digit < 16) :
    hexDigit (hexSymbol digit) = some digit := by
  unfold hexSymbol hexDigit zero
  split
  · rw [if_pos (by omega), Nat.add_sub_cancel_left]
  · rw [if_neg (by omega), if_neg (by omega), if_pos (by omega)]
    congr 1
    omega

theorem isHighSurrogate_iff {code : Nat} :
    isHighSurrogate code = true ↔ 0xD800 ≤ code ∧ code ≤ 0xDBFF := by
  simp [isHighSurrogate]

theorem isLowSurrogate_iff {code : Nat} :
    isLowSurrogate code = true ↔ 0xDC00 ≤ code ∧ code ≤ 0xDFFF := by
  simp [isLowSurrogate]

theorem isHighSurrogate_highSurrogate {code : Nat} (large : 0x10000 ≤ code)
    (small : code ≤ 0x10FFFF) : isHighSurrogate (highSurrogate code) = true := by
  rw [isHighSurrogate_iff, highSurrogate]
  omega

theorem isLowSurrogate_lowSurrogate (code : Nat) : isLowSurrogate (lowSurrogate code) = true := by
  rw [isLowSurrogate_iff, lowSurrogate]
  omega

theorem joinSurrogates_add (front back : Nat) :
    joinSurrogates (0xD800 + front) (0xDC00 + back) = 0x10000 + front * 0x400 + back :=
  congrArg₂ (fun front back => 0x10000 + front * 0x400 + back) (Nat.add_sub_cancel_left _ _)
    (Nat.add_sub_cancel_left _ _)

theorem joinSurrogates_surrogates {code : Nat} (large : 0x10000 ≤ code) :
    joinSurrogates (highSurrogate code) (lowSurrogate code) = code := by
  rw [highSurrogate, lowSurrogate, joinSurrogates_add, Nat.add_assoc, Nat.div_add_mod']
  exact Nat.add_sub_cancel' large

/-- Two surrogates are a code point above the units. -/
theorem joinSurrogates_range {high low : Nat} (isHigh : isHighSurrogate high = true)
    (isLow : isLowSurrogate low = true) :
    0x10000 ≤ joinSurrogates high low ∧ joinSurrogates high low ≤ 0x10FFFF := by
  rw [isHighSurrogate_iff] at isHigh
  rw [isLowSurrogate_iff] at isLow
  obtain ⟨front, rfl⟩ := Nat.exists_eq_add_of_le isHigh.1
  obtain ⟨back, rfl⟩ := Nat.exists_eq_add_of_le isLow.1
  rw [joinSurrogates_add]
  omega

/-- The scanner reads the value from the front of the text, and leaves the rest. -/
def Reads {Result : Type} (scanner : Scanner Result) (text : PyString) (value : Result)
    (rest : PyString) : Prop :=
  ∃ shorter, scanner text = .ok ⟨value, rest, shorter⟩

theorem reads_hexUnit {code : Nat} (small : code < 0x10000) (rest : PyString) :
    Reads scanHex (hexUnit code ++ rest) code rest := by
  have digits : [hexSymbol (code / 0x1000 % 16), hexSymbol (code / 0x100 % 16),
      hexSymbol (code / 0x10 % 16), hexSymbol (code % 16)].mapM hexDigit =
      some [code / 0x1000 % 16, code / 0x100 % 16, code / 0x10 % 16, code % 16] := by
    simp [hexDigit_hexSymbol, Nat.mod_lt]
  have value : [code / 0x1000 % 16, code / 0x100 % 16, code / 0x10 % 16, code % 16].foldl
      (fun code digit => code * 16 + digit) 0 = code := by
    simp only [List.foldl_cons, List.foldl_nil]
    omega
  refine ⟨by simp +arith [hexUnit], ?_⟩
  simp only [hexUnit, List.cons_append, List.nil_append, scanHex, digits, value]

/-- A text between quotation marks stands for the symbols.  A symbol stands for itself, or is
escaped: by its letter, as a unit, or as two surrogates. -/
inductive Spells : PyString → PyString → Prop where
  | nil : Spells [] []
  | plain {symbol : Nat} {symbols text : PyString} (printable : 0x20 ≤ symbol)
      (unquoted : symbol ≠ quotationMark) (unescaped : symbol ≠ reverseSolidus)
      (others : Spells symbols text) : Spells (symbol :: symbols) (symbol :: text)
  | letter {letter symbol : Nat} {symbols text : PyString}
      (found : escapes.lookup letter = some symbol) (others : Spells symbols text) :
      Spells (symbol :: symbols) (reverseSolidus :: letter :: text)
  | unit {symbol : Nat} {symbols text : PyString} (small : symbol < 0x10000)
      (others : Spells symbols text) : Spells (symbol :: symbols) (unicodeEscape symbol ++ text)
  | pair {symbol : Nat} {symbols text : PyString} (large : 0x10000 ≤ symbol)
      (small : symbol ≤ 0x10FFFF) (others : Spells symbols text) :
      Spells (symbol :: symbols)
        (unicodeEscape (highSurrogate symbol) ++ (unicodeEscape (lowSurrogate symbol) ++ text))

/-- No two surrogates are next to each other that are one code point, and there is no code point
above the last one. -/
structure Joined (symbols : PyString) : Prop where
  apart : symbols.IsChain fun high low =>
    ¬(isHighSurrogate high = true ∧ isLowSurrogate low = true)
  codes : ∀ symbol ∈ symbols, symbol ≤ 0x10FFFF

theorem Joined.tail {symbol : Nat} {symbols : PyString} (joined : Joined (symbol :: symbols)) :
    Joined symbols :=
  ⟨joined.apart.of_cons, (List.forall_mem_cons.mp joined.codes).2⟩

theorem Joined.nil : Joined [] := ⟨.nil, List.forall_mem_nil _⟩

/-- Without surrogates there is nothing to join. -/
theorem joined_of_valid {symbols : PyString} (valid : ∀ symbol ∈ symbols, symbol.isValidChar) :
    Joined symbols := by
  induction symbols with
  | nil => exact .nil
  | cons symbol symbols ih =>
      obtain ⟨first, others⟩ := List.forall_mem_cons.mp valid
      have joined := ih others
      rw [Nat.isValidChar] at first
      refine ⟨List.isChain_cons.mpr ⟨fun _ _ surrogates => ?_, joined.apart⟩,
        List.forall_mem_cons.mpr ⟨by omega, joined.codes⟩⟩
      have high := isHighSurrogate_iff.mp surrogates.1
      omega

section Strings

variable {symbols text rest : PyString}

/-- The text does not go on with the escape sequence of a low surrogate. -/
def Ends (text : PyString) : Prop :=
  ∀ after, text = reverseSolidus :: 0x75 :: after →
    ∃ unit others, after = hexUnit unit ++ others ∧ unit < 0x10000 ∧ isLowSurrogate unit = false

/-- After a high surrogate there is no escape sequence of a low one. -/
theorem Spells.ends {high : Nat} (spells : Spells symbols text) (joined : Joined (high :: symbols))
    (isHigh : isHighSurrogate high = true) (rest : PyString) :
    Ends (text ++ quotationMark :: rest) := by
  intro after next
  cases spells with
  | nil => cases next
  | plain printable unquoted unescaped others =>
      exact absurd (List.cons.inj next).1 unescaped
  | letter found others =>
      obtain ⟨rfl, _⟩ := List.cons.inj (List.cons.inj next).2
      cases found
  | @unit symbol symbols text small others =>
      have apart := (List.isChain_cons_cons.mp joined.apart).1
      refine ⟨symbol, text ++ quotationMark :: rest, ?_, small, ?_⟩
      · simpa [unicodeEscape] using next.symm
      · exact Bool.eq_false_iff.mpr fun isLow => apart ⟨isHigh, isLow⟩
  | @pair symbol symbols text large small others =>
      have range := isHighSurrogate_iff.mp (isHighSurrogate_highSurrogate large small)
      refine ⟨highSurrogate symbol,
        unicodeEscape (lowSurrogate symbol) ++ text ++ quotationMark :: rest, ?_, by omega, ?_⟩
      · simpa [unicodeEscape] using next.symm
      · rw [← Bool.not_eq_true, isLowSurrogate_iff]
        omega

theorem reads_escape_letter {letter symbol : Nat} (found : escapes.lookup letter = some symbol) :
    Reads scanEscape (letter :: rest) symbol rest := by
  have other : letter ≠ 0x75 := by
    rintro rfl
    cases found
  refine ⟨Nat.lt_succ_self _, ?_⟩
  rw [scanEscape, if_neg other, found]

theorem reads_escape_unit {code : Nat} (small : code < 0x10000)
    (ends : isHighSurrogate code = true → Ends rest) :
    Reads scanEscape (0x75 :: (hexUnit code ++ rest)) code rest := by
  obtain ⟨shorter, scanned⟩ := reads_hexUnit small rest
  refine ⟨Nat.lt_succ_of_lt shorter, ?_⟩
  rw [scanEscape, if_pos rfl, scanned]
  change (if isHighSurrogate code = true then _ else _) = _
  split
  · rename_i isHigh
    split
    · rename_i mark letter after next
      split
      · rename_i escape
        obtain ⟨rfl, rfl⟩ := escape
        obtain ⟨unit, others, rfl, small, single⟩ := ends isHigh after next
        obtain ⟨shorter, scanned⟩ := reads_hexUnit small others
        rw [scanned]
        change (if isLowSurrogate unit = true then _ else _) = _
        rw [if_neg (by simp [single])]
      · rfl
    · rfl
  · rfl

theorem reads_escape_pair {high low : Nat} (isHigh : isHighSurrogate high = true)
    (isLow : isLowSurrogate low = true) :
    Reads scanEscape (0x75 :: (hexUnit high ++ (unicodeEscape low ++ rest)))
      (joinSurrogates high low) rest := by
  have highRange := isHighSurrogate_iff.mp isHigh
  have lowRange := isLowSurrogate_iff.mp isLow
  obtain ⟨shorter, scanned⟩ := reads_hexUnit (show high < 0x10000 by omega)
    (unicodeEscape low ++ rest)
  obtain ⟨shorter', scanned'⟩ := reads_hexUnit (show low < 0x10000 by omega) rest
  refine ⟨by simp +arith [unicodeEscape, hexUnit], ?_⟩
  rw [scanEscape, if_pos rfl, scanned]
  change (if isHighSurrogate high = true then _ else _) = _
  rw [if_pos isHigh]
  change (if reverseSolidus = reverseSolidus ∧ 0x75 = 0x75 then
    (scanHex (hexUnit low ++ rest) >>= fun second => _) else _) = _
  rw [if_pos ⟨rfl, rfl⟩, scanned']
  change (if isLowSurrogate low = true then _ else _) = _
  rw [if_pos isLow]

theorem reads_string_escape {escape : PyString} {symbol : Nat} {symbols after : PyString}
    (first : Reads scanEscape escape symbol after) (others : Reads scanString after symbols rest) :
    Reads scanString (reverseSolidus :: escape) (symbol :: symbols) rest := by
  obtain ⟨shorter, escaped⟩ := first
  obtain ⟨shorter', scanned⟩ := others
  refine ⟨Nat.lt_succ_of_lt (Nat.lt_trans shorter' shorter), ?_⟩
  rw [scanString, if_neg (by decide), if_pos rfl, escaped]
  change (scanString after >>= fun others => _) = _
  rw [scanned]
  rfl

/-- A string is read to its closing quotation mark. -/
theorem Spells.reads (spells : Spells symbols text) (joined : Joined symbols) (rest : PyString) :
    Reads scanString (text ++ quotationMark :: rest) symbols rest := by
  induction spells with
  | nil =>
      rw [List.nil_append]
      refine ⟨Nat.lt_succ_self _, ?_⟩
      rw [scanString, if_pos rfl]
  | plain printable unquoted unescaped others ih =>
      obtain ⟨shorter, scanned⟩ := ih joined.tail
      rw [List.cons_append]
      refine ⟨Nat.lt_succ_of_lt shorter, ?_⟩
      rw [scanString, if_neg unquoted, if_neg unescaped,
        if_neg (Nat.not_lt.mpr printable), scanned]
      rfl
  | @letter letter symbol symbols text found others ih =>
      exact reads_string_escape (reads_escape_letter found) (ih joined.tail)
  | @unit symbol symbols text small others ih =>
      rw [List.append_assoc]
      exact reads_string_escape
        (reads_escape_unit small fun isHigh => others.ends joined isHigh rest)
        (ih joined.tail)
  | @pair symbol symbols text large small others ih =>
      rw [List.append_assoc, List.append_assoc]
      refine reads_string_escape ?_ (ih joined.tail)
      have escape := @reads_escape_pair (text ++ quotationMark :: rest) _ _
        (isHighSurrogate_highSurrogate large small) (isLowSurrogate_lowSurrogate symbol)
      rwa [joinSurrogates_surrogates large] at escape

end Strings

/-- The text of an integer. -/
def integerText (value : Int) : PyString :=
  if value < 0 then minus :: PyString.decimalText value.natAbs
  else PyString.decimalText value.natAbs

/-- The text does not go on with a number. -/
def Stops (text : PyString) : Prop :=
  ∀ symbol ∈ text.head?, isDigit symbol = false ∧ symbol ≠ decimalPoint ∧ symbol ≠ 0x65 ∧
    symbol ≠ 0x45

/-- The text of a number begins with a digit. -/
theorem exists_decimalText (number : Nat) :
    ∃ symbol digits, PyString.decimalText number = symbol :: digits ∧ isDigit symbol = true := by
  obtain ⟨symbol, digits, text⟩ :=
    List.exists_cons_of_ne_nil (PyString.decimalText_ne_nil number)
  exact ⟨symbol, digits, text, PyString.isDigit_decimalText (text ▸ List.mem_cons_self)⟩

theorem digitsValue_decimalText (number : Nat) :
    digitsValue (PyString.decimalText number) = number := by
  have value : digitsValue (PyString.decimalText number) =
      PyString.decimal (PyString.decimalText number) := by
    rw [digitsValue, PyString.decimal]
    congr 1
    funext value symbol
    rw [Nat.mul_comm]
    rfl
  rw [value, PyString.decimal_decimalText]

section Integers

variable {rest : PyString}

theorem Stops.takeWhile (stops : Stops rest) : rest.takeWhile isDigit = [] := by
  cases rest with
  | nil => rfl
  | cons symbol rest => rw [List.takeWhile_cons_of_neg (by simp [(stops symbol rfl).1])]

theorem integerDigits_decimalText (stops : Stops rest) (number : Nat) :
    integerDigits (PyString.decimalText number ++ rest) = PyString.decimalText number := by
  have filled := PyString.decimalText_ne_nil number
  rw [integerDigits, List.head?_append_of_ne_nil _ filled]
  split
  · rename_i head
    rw [PyString.head_decimalText head]
    rfl
  · rw [List.takeWhile_append_of_pos (p := isDigit) fun _ => PyString.isDigit_decimalText,
      stops.takeWhile, List.append_nil]

theorem unsigned_integerText (value : Int) (rest : PyString) :
    unsigned (integerText value ++ rest) = PyString.decimalText value.natAbs ++ rest := by
  rw [integerText]
  split
  · rw [List.cons_append, unsigned, if_pos (by rfl), List.tail_cons]
  · obtain ⟨symbol, digits, text, digit⟩ := exists_decimalText value.natAbs
    rw [unsigned, if_neg]
    rw [text, List.cons_append, List.head?_cons, Option.some_inj]
    rintro rfl
    cases digit

theorem fractionDigits_of_stops (stops : Stops rest) : fractionDigits rest = [] := by
  cases rest with
  | nil => rfl
  | cons symbol rest => rw [fractionDigits, if_neg (stops symbol rfl).2.1]

theorem exponentDigits_of_stops (stops : Stops rest) : exponentDigits rest = none := by
  cases rest with
  | nil => rfl
  | cons symbol rest =>
      have letter := (stops symbol rfl).2.2
      rw [exponentDigits, if_neg (by simp [letter])]

theorem numberParts_integerText (value : Int) (stops : Stops rest) :
    numberParts (integerText value ++ rest) =
      ⟨decide ((integerText value ++ rest).head? = some minus),
        PyString.decimalText value.natAbs, [], none, rest⟩ := by
  have whole := integerDigits_decimalText stops value.natAbs
  have front : afterWhole (integerText value ++ rest) = rest := by
    rw [afterWhole, unsigned_integerText, whole, List.drop_left]
  have fraction := fractionDigits_of_stops stops
  have back : afterFraction (integerText value ++ rest) = rest := by
    simp only [afterFraction, front, fraction, if_true]
  simp only [numberParts, unsigned_integerText, whole, front, fraction, back,
    exponentDigits_of_stops stops, Option.map_none]

theorem head_integerText (value : Int) (rest : PyString) :
    (integerText value ++ rest).head? = some minus ↔ value < 0 := by
  rw [integerText]
  split
  · rename_i negative
    simp [negative]
  · rename_i positive
    obtain ⟨symbol, digits, text, digit⟩ := exists_decimalText value.natAbs
    rw [text, List.cons_append, List.head?_cons, Option.some_inj]
    refine ⟨?_, fun negative => absurd negative positive⟩
    rintro rfl
    cases digit

theorem reads_integerText {maxDigits : Nat} {value : Int} (stops : Stops rest)
    (short : (PyString.decimalText value.natAbs).length ≤ maxDigits) :
    Reads (matchNumber maxDigits) (integerText value ++ rest) (.int value) rest := by
  have filled := PyString.decimalText_ne_nil value.natAbs
  have parts := numberParts_integerText value stops
  have sign : (if value < 0 then -(value.natAbs : Int) else value.natAbs) = value := by
    split <;> omega
  refine ⟨?_, ?_⟩
  · rw [List.length_append, Nat.lt_add_left_iff_pos, List.length_pos_iff, integerText]
    split
    · exact List.cons_ne_nil _ _
    · exact filled
  · simp only [matchNumber, parts, filled, dite_false, List.append_nil, ne_eq, not_true, if_false,
      digitsValue_decimalText, Nat.not_lt.mpr short, head_integerText, decide_eq_true_eq, sign]

end Integers

/-- What is written. -/
inductive Document where
  | null
  | bool (value : Bool)
  | int (value : Int)
  | string (symbols : PyString)
  | array (elements : List Document)
  | object (members : List (PyString × Document))

/-- How it is written: what stands between quotation marks for a string, and the blanks after a
separator. -/
structure Style where
  quote : PyString → PyString
  gap : PyString
  spells : ∀ symbols, (∀ symbol ∈ symbols, symbol ≤ 0x10FFFF) → Spells symbols (quote symbols)
  blanks : ∀ symbol ∈ gap, isBlank symbol = true

namespace Document

mutual

/-- What a document is read as. -/
def value : Document → Value
  | .null => .null
  | .bool value => .bool value
  | .int value => .int value
  | .string symbols => .string symbols
  | .array elements => .array (values elements)
  | .object members => .object (fields members)

def values : List Document → List Value
  | [] => []
  | element :: elements => element.value :: values elements

def fields : List (PyString × Document) → List (PyString × Value)
  | [] => []
  | (key, item) :: members => (key, item.value) :: fields members

end

theorem values_eq_map (elements : List Document) : values elements = elements.map value := by
  induction elements with
  | nil => rw [values, List.map_nil]
  | cons element elements ih => rw [values, ih, List.map_cons]

theorem fields_eq_map (members : List (PyString × Document)) :
    fields members = members.map fun member => (member.1, member.2.value) := by
  induction members with
  | nil => rw [fields, List.map_nil]
  | cons member members ih => rw [fields, ih, List.map_cons]

/-- The document is within the limits, and no two members of an object have the same key. -/
inductive Fits (digits : Nat) : Nat → Document → Prop where
  | null {depth : Nat} : Fits digits depth .null
  | bool {depth : Nat} {value : Bool} : Fits digits depth (.bool value)
  | int {depth : Nat} {value : Int} (short : (PyString.decimalText value.natAbs).length ≤ digits) :
      Fits digits depth (.int value)
  | string {depth : Nat} {symbols : PyString} (joined : Joined symbols) :
      Fits digits depth (.string symbols)
  | array {depth : Nat} {elements : List Document}
      (fits : ∀ element ∈ elements, Fits digits depth element) :
      Fits digits (depth + 1) (.array elements)
  | object {depth : Nat} {members : List (PyString × Document)}
      (distinct : (members.map Prod.fst).Nodup) (keys : ∀ member ∈ members, Joined member.1)
      (fits : ∀ member ∈ members, Fits digits depth member.2) :
      Fits digits (depth + 1) (.object members)

/-- An object whose keys are known. -/
theorem Fits.keyed {digits depth : Nat} {members : List (PyString × Document)}
    (keys : List PyString) (same : members.map Prod.fst = keys) (distinct : keys.Nodup)
    (valid : ∀ key ∈ keys, ∀ symbol ∈ key, symbol.isValidChar)
    (fits : ∀ member ∈ members, Fits digits depth member.2) :
    Fits digits (depth + 1) (.object members) := by
  subst same
  exact .object distinct
    (fun member within => joined_of_valid (valid _ (List.mem_map_of_mem within))) fits

end Document

namespace Style

/-- A string with its quotation marks. -/
def string (style : Style) (symbols : PyString) : PyString :=
  quotationMark :: style.quote symbols ++ [quotationMark]

/-- Items with separators between them. -/
def sequence (style : Style) (items : List PyString) : PyString :=
  List.intercalate (valueSeparator :: style.gap) items

/-- The text of a member of an object. -/
def member (style : Style) (key item : PyString) : PyString :=
  style.string key ++ nameSeparator :: style.gap ++ item

mutual

/-- The text of a document. -/
def render (style : Style) : Document → PyString
  | .null => .ofText "null"
  | .bool true => .ofText "true"
  | .bool false => .ofText "false"
  | .int value => integerText value
  | .string symbols => style.string symbols
  | .array elements => beginArray :: style.sequence (style.elements elements) ++ [endArray]
  | .object members => beginObject :: style.sequence (style.members members) ++ [endObject]

def elements (style : Style) : List Document → List PyString
  | [] => []
  | element :: elements => style.render element :: style.elements elements

def members (style : Style) : List (PyString × Document) → List PyString
  | [] => []
  | (key, item) :: members => style.member key (style.render item) :: style.members members

end

theorem elements_eq_map (style : Style) (elements : List Document) :
    style.elements elements = elements.map style.render := by
  induction elements with
  | nil => rw [Style.elements, List.map_nil]
  | cons element elements ih => rw [Style.elements, ih, List.map_cons]

theorem members_eq_map (style : Style) (members : List (PyString × Document)) :
    style.members members =
      members.map fun member => style.member member.1 (style.render member.2) := by
  induction members with
  | nil => rw [Style.members, List.map_nil]
  | cons member members ih => rw [Style.members, ih, List.map_cons]

end Style

/-- What no value begins with: the closing brackets, and a byte order mark. -/
def foreign : List Nat := [endArray, endObject, 0xFEFF]

section Containers

variable {scanner : Scanner Value} {text after later rest : PyString} {item : Value} {symbol : Nat}

/-- After an element the array ends, or there is another one. -/
theorem reads_element {items others : List Value} (first : Reads scanner text item after)
    (next : skip after = symbol :: later)
    (goesOn : symbol = endArray ∧ others = [] ∧ rest = later ∨
      symbol = valueSeparator ∧ Reads (parseElements scanner) (skip later) others rest)
    (all : items = item :: others) : Reads (parseElements scanner) text items rest := by
  subst all
  obtain ⟨shorter, scanned⟩ := first
  have token := Nat.lt_trans (length_of_skip next) shorter
  have whole : rest.length < text.length := by
    rcases goesOn with ⟨-, -, rfl⟩ | ⟨-, shorter', -⟩
    · exact token
    · exact Nat.lt_trans shorter' (Nat.lt_of_le_of_lt (length_skip_le later) token)
  refine ⟨whole, ?_⟩
  rw [parseElements, scanned]
  dsimp only [bind, Except.bind]
  split
  · rename_i none
    rw [next] at none
    cases none
  · rename_i symbol' later' next'
    rw [next] at next'
    cases next'
    rcases goesOn with ⟨rfl, rfl, rfl⟩ | ⟨rfl, shorter', scanned'⟩
    · rw [if_pos rfl]
    · rw [if_neg (by decide), if_pos rfl, scanned']

/-- After a member the object ends, or there is another one. -/
theorem reads_member {afterMark afterName afterKey name : PyString}
    {fields all : List (PyString × Value)} (key : Reads scanString afterMark name afterName)
    (colon : skip afterName = nameSeparator :: afterKey)
    (first : Reads scanner (skip afterKey) item after) (next : skip after = symbol :: later)
    (goesOn : symbol = endObject ∧ all = setItem fields name item ∧ rest = later ∨
      symbol = valueSeparator ∧
        Reads (parseMembers scanner (setItem fields name item)) (skip later) all rest) :
    Reads (parseMembers scanner fields) (quotationMark :: afterMark) all rest := by
  obtain ⟨shorterKey, scannedKey⟩ := key
  obtain ⟨shorter, scanned⟩ := first
  have token : later.length < (quotationMark :: afterMark).length := by
    have second := length_of_skip colon
    have third := length_skip_le afterKey
    have last := length_of_skip next
    rw [List.length_cons]
    omega
  have whole : rest.length < (quotationMark :: afterMark).length := by
    rcases goesOn with ⟨-, -, rfl⟩ | ⟨-, shorter', -⟩
    · exact token
    · exact Nat.lt_trans shorter' (Nat.lt_of_le_of_lt (length_skip_le later) token)
  refine ⟨whole, ?_⟩
  rw [parseMembers, if_neg (by simp), scannedKey]
  dsimp only [bind, Except.bind]
  split
  · rename_i none
    rw [colon] at none
    cases none
  · rename_i separator afterKey' colon'
    rw [colon] at colon'
    cases colon'
    rw [if_neg (by simp), scanned]
    dsimp only
    split
    · rename_i none
      rw [next] at none
      cases none
    · rename_i symbol' later' next'
      rw [next] at next'
      cases next'
      rcases goesOn with ⟨rfl, rfl, rfl⟩ | ⟨rfl, shorter', scanned'⟩
      · rw [if_pos rfl]
      · rw [if_neg (by decide), if_pos rfl, scanned']

theorem reads_array {items : List Value}
    (filled : ∀ symbol ∈ text.head?, symbol ∉ foreign)
    (token : skip text = text) (elements : Reads (parseElements scanner) text items rest) :
    Reads (parseArray scanner) text (.array items) rest := by
  have front : Reads (parseElements scanner) (skip text) items rest := by rwa [token]
  obtain ⟨shorter, scanned⟩ := front
  refine ⟨Nat.lt_of_lt_of_le shorter (length_skip_le text), ?_⟩
  rw [parseArray]
  split
  · rename_i none
    rw [none] at shorter
    cases shorter
  · rename_i symbol' rest' next
    rw [if_neg, scanned]
    · rfl
    · rintro rfl
      rw [token] at next
      exact filled _ (by rw [next, List.head?_cons]; rfl) (by decide)

theorem reads_object {members : List (PyString × Value)}
    (filled : ∀ symbol ∈ text.head?, symbol ∉ foreign)
    (token : skip text = text) (scanned : Reads (parseMembers scanner []) text members rest) :
    Reads (parseObject scanner) text (.object members) rest := by
  have front : Reads (parseMembers scanner []) (skip text) members rest := by rwa [token]
  obtain ⟨shorter, scanned⟩ := front
  refine ⟨Nat.lt_of_lt_of_le shorter (length_skip_le text), ?_⟩
  rw [parseObject]
  split
  · rename_i none
    rw [none] at shorter
    cases shorter
  · rename_i symbol' rest' next
    rw [if_neg, scanned]
    · rfl
    · rintro rfl
      rw [token] at next
      exact filled _ (by rw [next, List.head?_cons]; rfl) (by decide)

end Containers

/-- The constants of Python are not at the front of the text. -/
def Strict (text : PyString) : Prop :=
  pythonConstants.any (fun constant => constant.isPrefixOf text) = false

/-- The text begins with a token of a value. -/
structure Opens (text : PyString) : Prop where
  token : ∀ rest, skip (text ++ rest) = text ++ rest
  strict : ∀ rest, Strict (text ++ rest)
  noEnd : ∀ rest, ∀ symbol ∈ (text ++ rest).head?, symbol ∉ foreign

theorem Opens.append {text : PyString} (opens : Opens text) (more : PyString) :
    Opens (text ++ more) where
  token rest := by rw [List.append_assoc, opens.token]
  strict rest := by
    rw [List.append_assoc]
    exact opens.strict (more ++ rest)
  noEnd rest := by
    rw [List.append_assoc]
    exact opens.noEnd (more ++ rest)

/-- The blanks after a separator are passed over. -/
theorem Style.skip_gap (style : Style) {text : PyString} (opens : Opens text) (rest : PyString) :
    skip (style.gap ++ (text ++ rest)) = text ++ rest := by
  rw [skip, List.dropWhile_append_of_pos style.blanks]
  exact opens.token rest

/-- No number goes on with what stands after a value. -/
theorem stops_cons {symbol : Nat} (follows : symbol ∈ [valueSeparator, endArray, endObject])
    (rest : PyString) : Stops (symbol :: rest) := by
  intro symbol' same
  cases same
  rw [List.mem_cons, List.mem_cons, List.mem_singleton] at follows
  rcases follows with rfl | rfl | rfl <;> decide

/-- The text is read as the value, whatever follows. -/
structure Writes (scanner : Scanner Value) (value : Value) (text : PyString) : Prop where
  opens : Opens text
  reads : ∀ rest, Stops rest → Reads scanner (text ++ rest) value rest

/-- Scanners that are `scan_once` where no constant of Python is, and enter so many arrays and
objects. -/
structure Reader (digits : Nat) (scan : Nat → Scanner Value) : Prop where
  flat : ∀ depth text, Strict text →
    ∃ array object, scan depth text = scanWith digits array object text
  nested : ∀ depth text, Strict text → scan (depth + 1) text =
    scanWith digits (parseArray (scan depth)) (parseObject (scan depth)) text

theorem reader_scanOnce (digits : Nat) : Reader digits (scanOnce digits) where
  flat depth text _ := by
    cases depth with
    | zero => exact ⟨_, _, rfl⟩
    | succ depth => exact ⟨_, _, rfl⟩
  nested _ _ _ := rfl

theorem reader_scanStrictOnce (digits : Nat) : Reader digits (scanStrictOnce digits) where
  flat depth text strict := by
    cases depth with
    | zero => exact ⟨_, _, if_neg (by simp [show _ = false from strict])⟩
    | succ depth => exact ⟨_, _, if_neg (by simp [show _ = false from strict])⟩
  nested depth text strict := if_neg (by simp [show _ = false from strict])

/-- A text begins with a token if its first symbol is no blank, no closing bracket, and not the
first one of a constant. -/
theorem opens_cons {symbol : Nat} (rest : PyString) (filled : isBlank symbol = false)
    (noEnd : symbol ∉ foreign) (constants : symbol ∉ [0x4E, 0x49, minus]) :
    Opens (symbol :: rest) where
  token rest' := List.dropWhile_cons_of_neg (by simp [filled])
  strict rest' := by
    obtain ⟨first, constants⟩ := List.ne_and_not_mem_of_not_mem_cons constants
    obtain ⟨second, constants⟩ := List.ne_and_not_mem_of_not_mem_cons constants
    have third := List.ne_of_not_mem_cons constants
    have texts : pythonConstants = [0x4E :: PyString.ofText "aN",
      0x49 :: PyString.ofText "nfinity", minus :: PyString.ofText "Infinity"] := rfl
    simp [Strict, texts, List.isPrefixOf_cons_cons, first.symm, second.symm, third.symm]
  noEnd rest' symbol' same := by
    cases same
    exact noEnd

/-- A negative number is no constant of Python's. -/
theorem opens_minus {digit : Nat} (rest : PyString) (isDigit : isDigit digit = true) :
    Opens (minus :: digit :: rest) where
  token rest' := List.dropWhile_cons_of_neg (by decide)
  strict rest' := by
    have texts : pythonConstants = [0x4E :: PyString.ofText "aN",
      0x49 :: PyString.ofText "nfinity", minus :: 0x49 :: PyString.ofText "nfinity"] := rfl
    have other : 0x49 ≠ digit := by
      rintro rfl
      cases isDigit
    simp [Strict, texts, List.isPrefixOf_cons_cons, other, minus]
  noEnd rest' symbol' same := by
    cases same
    decide

theorem digit_range {symbol : Nat} (digit : isDigit symbol = true) :
    0x30 ≤ symbol ∧ symbol ≤ 0x39 := by
  rw [isDigit, Bool.and_eq_true_iff, decide_eq_true_iff, decide_eq_true_iff] at digit
  exact digit

/-- An integer begins with a digit, or with a sign and a digit. -/
theorem exists_integerText (value : Int) : ∃ symbol others, integerText value = symbol :: others ∧
    (isDigit symbol = true ∨
      symbol = minus ∧ ∃ digit digits, others = digit :: digits ∧ isDigit digit = true) := by
  obtain ⟨symbol, digits, text, digit⟩ := exists_decimalText value.natAbs
  rw [integerText, text]
  split
  · exact ⟨minus, _, rfl, .inr ⟨rfl, symbol, digits, rfl, digit⟩⟩
  · exact ⟨symbol, digits, rfl, .inl digit⟩

theorem opens_integerText (value : Int) : Opens (integerText value) := by
  obtain ⟨symbol, others, text, first | ⟨rfl, digit, digits, rfl, second⟩⟩ :=
    exists_integerText value
  · have range := digit_range first
    rw [text]
    refine opens_cons others ?_ ?_ ?_
    · simp only [isBlank, Bool.or_eq_false_iff, beq_eq_false_iff_ne]
      omega
    · simp only [foreign, endArray, endObject, List.mem_cons, List.not_mem_nil, or_false]
      omega
    · simp only [minus, List.mem_cons, List.not_mem_nil, or_false]
      omega
  · rw [text]
    exact opens_minus digits second

/-- A number is no other token. -/
theorem scanWith_integerText {digits : Nat} {array object : Scanner Value} (value : Int)
    (rest : PyString) : scanWith digits array object (integerText value ++ rest) =
      matchNumber digits (integerText value ++ rest) := by
  have texts : constants.map Prod.fst = [0x6E :: PyString.ofText "ull",
    0x74 :: PyString.ofText "rue", 0x66 :: PyString.ofText "alse", 0x4E :: PyString.ofText "aN",
    0x49 :: PyString.ofText "nfinity", minus :: 0x49 :: PyString.ofText "nfinity"] := rfl
  have other {symbol : Nat} {others : PyString} (all : ∀ text ∈ constants.map Prod.fst,
      text.isPrefixOf (symbol :: others) = false) :
      constants.find? (fun constant => constant.1.isPrefixOf (symbol :: others)) = none :=
    List.find?_eq_none.mpr fun constant member =>
      Bool.eq_false_iff.mp (all _ (List.mem_map_of_mem member))
  obtain ⟨symbol, others, text, first | ⟨rfl, digit, digits, rfl, second⟩⟩ :=
    exists_integerText value
  · have range := digit_range first
    rw [text, List.cons_append, scanWith, if_neg (by unfold quotationMark; omega),
      if_neg (by unfold beginArray; omega), if_neg (by unfold beginObject; omega), other]
    rw [texts]
    simp only [List.forall_mem_cons, List.isPrefixOf_cons_cons, minus, Bool.and_eq_false_imp,
      beq_iff_eq]
    grind
  · have range := digit_range second
    rw [text, List.cons_append, scanWith, if_neg (by decide), if_neg (by decide),
      if_neg (by decide), other]
    rw [texts]
    simp only [List.forall_mem_cons, List.cons_append, List.isPrefixOf_cons_cons, minus,
      Bool.and_eq_false_imp, beq_iff_eq]
    grind

section Sequences

variable (style : Style)

theorem Style.sequence_singleton (item : PyString) : style.sequence [item] = item :=
  List.intercalate_singleton

theorem Style.sequence_cons_cons (first second : PyString) (others : List PyString) :
    style.sequence (first :: second :: others) =
      first ++ valueSeparator :: (style.gap ++ style.sequence (second :: others)) := by
  rw [Style.sequence, List.intercalate_cons_cons, List.append_assoc]
  rfl

/-- The elements are read one by one: the first of them begins with a token. -/
theorem Style.reads_elements {scanner : Scanner Value} {items : List (Value × PyString)}
    (filled : items ≠ []) (writes : ∀ item ∈ items, Writes scanner item.1 item.2)
    (rest : PyString) :
    Opens (style.sequence (items.map Prod.snd)) ∧
      Reads (parseElements scanner) (style.sequence (items.map Prod.snd) ++ endArray :: rest)
        (items.map Prod.fst) rest := by
  induction items with
  | nil => exact absurd rfl filled
  | cons item items ih =>
      obtain ⟨first, others⟩ := List.forall_mem_cons.mp writes
      cases items with
      | nil =>
          rw [List.map_singleton, Style.sequence_singleton]
          exact ⟨first.opens, reads_element (first.reads _ (stops_cons (by decide) rest)) rfl
            (.inl ⟨rfl, rfl, rfl⟩) rfl⟩
      | cons item' items =>
          obtain ⟨opens, reads⟩ := ih (List.cons_ne_nil _ _) others
          rw [List.map_cons, List.map_cons, Style.sequence_cons_cons]
          refine ⟨first.opens.append _, ?_⟩
          rw [List.append_assoc, List.cons_append, List.append_assoc]
          refine reads_element (first.reads _ (stops_cons (by decide) _)) rfl (.inr ⟨rfl, ?_⟩) rfl
          have later := style.skip_gap opens (endArray :: rest)
          rw [List.map_cons] at later
          rw [later]
          exact reads

theorem setItem_of_not_mem {fields : List (PyString × Value)} {key : PyString} (value : Value)
    (absent : key ∉ fields.map Prod.fst) : setItem fields key value = fields ++ [(key, value)] := by
  induction fields with
  | nil => rfl
  | cons field fields ih =>
      rw [List.map_cons, List.mem_cons, not_or] at absent
      rw [setItem, if_neg (Ne.symm absent.1), ih absent.2, List.cons_append]

/-- The members are read one by one, after the ones that `fields` has. -/
theorem Style.reads_members {scanner : Scanner Value} (fields : List (PyString × Value))
    {items : List (PyString × Value × PyString)} (filled : items ≠ [])
    (keys : ∀ item ∈ items, Joined item.1)
    (writes : ∀ item ∈ items, Writes scanner item.2.1 item.2.2)
    (distinct : (fields.map Prod.fst ++ items.map Prod.fst).Nodup) (rest : PyString) :
    Opens (style.sequence (items.map fun item => style.member item.1 item.2.2)) ∧
      Reads (parseMembers scanner fields)
        (style.sequence (items.map fun item => style.member item.1 item.2.2) ++ endObject :: rest)
        (fields ++ items.map fun item => (item.1, item.2.1)) rest := by
  induction items generalizing fields with
  | nil => exact absurd rfl filled
  | cons item items ih =>
      obtain ⟨joined, keys⟩ := List.forall_mem_cons.mp keys
      obtain ⟨first, others⟩ := List.forall_mem_cons.mp writes
      have key (after : PyString) := (style.spells item.1 joined.codes).reads joined
        (nameSeparator :: (style.gap ++ (item.2.2 ++ after)))
      have text (after : PyString) : style.member item.1 item.2.2 ++ after =
          quotationMark :: (style.quote item.1 ++ quotationMark ::
            (nameSeparator :: (style.gap ++ (item.2.2 ++ after)))) := by
        simp [Style.member, Style.string]
      have value {after : PyString} (stops : Stops after) : Reads scanner
          (skip (style.gap ++ (item.2.2 ++ after))) item.2.1 after := by
        rw [style.skip_gap first.opens]
        exact first.reads after stops
      have absent : item.1 ∉ fields.map Prod.fst := by
        intro member
        exact (List.nodup_append.mp distinct).2.2 _ member _ List.mem_cons_self rfl
      have extended := setItem_of_not_mem item.2.1 absent
      have opens : Opens (style.member item.1 item.2.2) := by
        have opens := text []
        rw [List.append_nil] at opens
        rw [opens]
        exact opens_cons _ (by decide) (by decide) (by decide)
      cases items with
      | nil =>
          rw [List.map_singleton, Style.sequence_singleton, text]
          exact ⟨opens, reads_member (key _) rfl (value (stops_cons (by decide) rest)) rfl
            (.inl ⟨rfl, extended.symm, rfl⟩)⟩
      | cons item' items =>
          have distinct : ((setItem fields item.1 item.2.1).map Prod.fst ++
              (item' :: items).map Prod.fst).Nodup := by
            rw [extended, List.map_append, List.append_assoc]
            exact distinct
          obtain ⟨opens', reads⟩ := ih _ (List.cons_ne_nil _ _) keys others distinct
          rw [List.map_cons, List.map_cons, Style.sequence_cons_cons]
          refine ⟨opens.append _, ?_⟩
          rw [List.append_assoc, List.cons_append, List.append_assoc, text]
          refine reads_member (key _) rfl (value (stops_cons (by decide) _)) rfl
            (.inr ⟨rfl, ?_⟩)
          have later := style.skip_gap opens' (endObject :: rest)
          rw [List.map_cons] at later
          rw [later, List.map_cons, List.append_cons fields, ← extended]
          exact reads

end Sequences

section Reader

variable {digits depth : Nat} {scan : Nat → Scanner Value} (reader : Reader digits scan)
variable (style : Style)

include reader

/-- What `scan_once` reads without entering anything is read at every depth. -/
theorem Reader.writes {text : PyString} {value : Value} (opens : Opens text)
    (reads : ∀ array object rest, Stops rest →
      Reads (scanWith digits array object) (text ++ rest) value rest) :
    Writes (scan depth) value text where
  opens := opens
  reads rest stops := by
    obtain ⟨array, object, same⟩ := reader.flat depth (text ++ rest) (opens.strict rest)
    obtain ⟨shorter, scanned⟩ := reads array object rest stops
    exact ⟨shorter, same.trans scanned⟩

/-- The texts of `null`, `true` and `false`. -/
theorem Reader.constant {text : String} {value : Value}
    (known : (PyString.ofText text, value) ∈ constants.take 3) :
    Writes (scan depth) value (.ofText text) := by
  simp only [constants, List.take_succ_cons, List.take_zero, List.mem_cons, List.not_mem_nil,
    Prod.mk.injEq, or_false] at known
  rcases known with ⟨same, rfl⟩ | ⟨same, rfl⟩ | ⟨same, rfl⟩
  all_goals
    rw [same]
    refine reader.writes (opens_cons _ (by decide) (by decide) (by decide)) ?_
    intro array object rest stops
    refine ⟨?_, rfl⟩
    rw [List.length_append]
    exact Nat.lt_add_of_pos_left (by decide)

theorem Reader.int {value : Int} (short : (PyString.decimalText value.natAbs).length ≤ digits) :
    Writes (scan depth) (.int value) (integerText value) := by
  refine reader.writes (opens_integerText value) ?_
  intro array object rest stops
  obtain ⟨shorter, scanned⟩ := reads_integerText stops short
  exact ⟨shorter, (scanWith_integerText value rest).trans scanned⟩

theorem Reader.string {symbols : PyString} (joined : Joined symbols) :
    Writes (scan depth) (.string symbols) (style.string symbols) := by
  refine reader.writes (opens_cons _ (by decide) (by decide) (by decide)) ?_
  intro array object rest stops
  obtain ⟨shorter, scanned⟩ := (style.spells symbols joined.codes).reads joined rest
  have text : style.string symbols ++ rest =
      quotationMark :: (style.quote symbols ++ quotationMark :: rest) := by
    simp [Style.string]
  rw [text]
  refine ⟨Nat.lt_succ_of_lt shorter, ?_⟩
  rw [scanWith, if_pos rfl, scanned]
  rfl

theorem Reader.array (items : List (Value × PyString))
    (writes : ∀ item ∈ items, Writes (scan depth) item.1 item.2) :
    Writes (scan (depth + 1)) (.array (items.map Prod.fst))
      (beginArray :: style.sequence (items.map Prod.snd) ++ [endArray]) := by
  have opens : Opens (beginArray :: style.sequence (items.map Prod.snd) ++ [endArray]) :=
    opens_cons _ (by decide) (by decide) (by decide)
  refine ⟨opens, fun rest stops => ?_⟩
  have inside : Reads (parseArray (scan depth))
      (style.sequence (items.map Prod.snd) ++ endArray :: rest) (.array (items.map Prod.fst))
      rest := by
    cases items with
    | nil => exact ⟨Nat.lt_succ_self _, rfl⟩
    | cons item items =>
        obtain ⟨opens, reads⟩ := style.reads_elements (List.cons_ne_nil _ _) writes rest
        exact reads_array (opens.noEnd _) (opens.token _) reads
  obtain ⟨shorter, scanned⟩ := inside
  have text : beginArray :: style.sequence (items.map Prod.snd) ++ [endArray] ++ rest =
      beginArray :: (style.sequence (items.map Prod.snd) ++ endArray :: rest) := by simp
  have scan := reader.nested depth _ (opens.strict rest)
  rw [text] at scan ⊢
  refine ⟨Nat.lt_succ_of_lt shorter, scan.trans ?_⟩
  rw [scanWith, if_neg (by decide), if_pos rfl, scanned]
  rfl

theorem Reader.object (items : List (PyString × Value × PyString))
    (distinct : (items.map Prod.fst).Nodup) (keys : ∀ item ∈ items, Joined item.1)
    (writes : ∀ item ∈ items, Writes (scan depth) item.2.1 item.2.2) :
    Writes (scan (depth + 1)) (.object (items.map fun item => (item.1, item.2.1)))
      (beginObject :: style.sequence (items.map fun item => style.member item.1 item.2.2) ++
        [endObject]) := by
  have opens : Opens (beginObject ::
      style.sequence (items.map fun item => style.member item.1 item.2.2) ++ [endObject]) :=
    opens_cons _ (by decide) (by decide) (by decide)
  refine ⟨opens, fun rest stops => ?_⟩
  have inside : Reads (parseObject (scan depth))
      (style.sequence (items.map fun item => style.member item.1 item.2.2) ++ endObject :: rest)
      (.object (items.map fun item => (item.1, item.2.1))) rest := by
    cases items with
    | nil => exact ⟨Nat.lt_succ_self _, rfl⟩
    | cons item items =>
        obtain ⟨opens, reads⟩ := style.reads_members [] (List.cons_ne_nil _ _) keys
          writes distinct rest
        exact reads_object (opens.noEnd _) (opens.token _) reads
  obtain ⟨shorter, scanned⟩ := inside
  have text : beginObject :: style.sequence (items.map fun item => style.member item.1 item.2.2) ++
      [endObject] ++ rest = beginObject :: (style.sequence
        (items.map fun item => style.member item.1 item.2.2) ++ endObject :: rest) := by simp
  have scan := reader.nested depth _ (opens.strict rest)
  rw [text] at scan ⊢
  refine ⟨Nat.lt_succ_of_lt shorter, scan.trans ?_⟩
  rw [scanWith, if_neg (by decide), if_neg (by decide), if_pos rfl, scanned]
  rfl

/-- A document is read as its value. -/
theorem Reader.document {document : Document} (fits : document.Fits digits depth) :
    Writes (scan depth) document.value (style.render document) := by
  induction fits with
  | null =>
      rw [Document.value, Style.render]
      exact reader.constant (by simp [constants])
  | @bool depth value =>
      cases value <;> rw [Document.value, Style.render] <;>
        exact reader.constant (by simp [constants])
  | int short =>
      rw [Document.value, Style.render]
      exact reader.int short
  | string joined =>
      rw [Document.value, Style.render]
      exact reader.string style joined
  | @array depth elements _ ih =>
      have writes := reader.array style (elements.map fun element =>
        (element.value, style.render element)) (List.forall_mem_map.mpr ih)
      rw [List.map_map, List.map_map] at writes
      rw [Document.value, Style.render, Document.values_eq_map, Style.elements_eq_map]
      exact writes
  | @object depth members distinct keys _ ih =>
      have writes := reader.object style (members.map fun member =>
        (member.1, member.2.value, style.render member.2)) (by rwa [List.map_map])
        (List.forall_mem_map.mpr keys) (List.forall_mem_map.mpr ih)
      rw [List.map_map, List.map_map] at writes
      rw [Document.value, Style.render, Document.fields_eq_map, Style.members_eq_map]
      exact writes

end Reader

/-! ## Round trips -/

/-- `JSON.parse`.  It has no limits: no value of a text is deeper or has more digits than the text
is long. -/
def parse (text : PyString) : Option Value :=
  match scanStrictOnce text.length text.length (skip text) with
  | .ok scanned => if skip scanned.rest = [] then some scanned.value else none
  | .error _ => none

/-- A text that is read as a value is read to its end. -/
theorem Writes.whole {scanner : Scanner Value} {value : Value} {text : PyString}
    (writes : Writes scanner value text) : Reads scanner (skip text) value [] := by
  have token := writes.opens.token []
  have reads := writes.reads [] (by simp [Stops])
  rw [List.append_nil] at token reads
  rwa [token]

section RoundTrips

variable {style : Style} {document : Document}

/-- `json.loads` reads what was written. -/
theorem loads_render {limits : Limits} (fits : document.Fits limits.digits limits.depth) :
    loads limits (.text (style.render document)) = .ok document.value := by
  have writes := (reader_scanOnce limits.digits).document style fits
  obtain ⟨shorter, scanned⟩ := writes.whole
  have mark : (style.render document).head? ≠ some 0xFEFF := by
    intro same
    rw [← List.append_nil (style.render document)] at same
    exact writes.opens.noEnd [] _ same (by decide)
  rw [loads, if_neg mark, decode, scanned]
  rfl

theorem length_le_sequence (style : Style) {item : PyString} {items : List PyString}
    (member : item ∈ items) : item.length ≤ (style.sequence items).length := by
  induction items with
  | nil => cases member
  | cons first items ih =>
      cases items with
      | nil =>
          rw [List.mem_singleton] at member
          rw [member, style.sequence_singleton]
      | cons second items =>
          rw [style.sequence_cons_cons, List.length_append]
          rcases List.mem_cons.mp member with rfl | member
          · exact Nat.le_add_right _ _
          · have shorter := ih member
            rw [List.length_cons, List.length_append]
            omega

/-- No value is deeper or has more digits than its text is long. -/
theorem fits_of_length {digits depth digits' depth' : Nat} (fits : document.Fits digits depth)
    (short : (style.render document).length ≤ digits')
    (flat : (style.render document).length ≤ depth') : document.Fits digits' depth' := by
  induction fits generalizing depth' with
  | null => exact .null
  | bool => exact .bool
  | int _ =>
      rw [Style.render, integerText] at short
      refine .int ?_
      split at short
      · rw [List.length_cons] at short
        omega
      · exact short
  | string joined => exact .string joined
  | array _ ih =>
      rw [Style.render, Style.elements_eq_map, List.length_append, List.length_cons] at short flat
      obtain ⟨depth', rfl⟩ : ∃ depth, depth' = depth + 1 := ⟨depth' - 1, by omega⟩
      refine .array fun element member => ?_
      have shorter := length_le_sequence style
        (List.mem_map_of_mem (f := style.render) member)
      exact ih element member (by omega) (by omega)
  | object distinct keys _ ih =>
      rw [Style.render, Style.members_eq_map, List.length_append, List.length_cons] at short flat
      obtain ⟨depth', rfl⟩ : ∃ depth, depth' = depth + 1 := ⟨depth' - 1, by omega⟩
      refine .object distinct keys fun member within => ?_
      have shorter := length_le_sequence style (List.mem_map_of_mem
        (f := fun member => style.member member.1 (style.render member.2)) within)
      rw [Style.member, List.length_append] at shorter
      exact ih member within (by omega) (by omega)

/-- `JSON.parse` reads what was written. -/
theorem parse_render {digits depth : Nat} (fits : document.Fits digits depth) :
    parse (style.render document) = some document.value := by
  have writes := (reader_scanStrictOnce (style.render document).length).document style
    (fits_of_length fits (Nat.le_refl _) (Nat.le_refl _))
  obtain ⟨shorter, scanned⟩ := writes.whole
  rw [parse, scanned]
  rfl

end RoundTrips

end CloudRunSsh.JSON
