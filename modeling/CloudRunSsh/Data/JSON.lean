import CloudRunSsh.Data.Python

/-!
# JSON as Python and JavaScript read it

`json.loads` of a text or of bytes.  Arrays and objects can only be nested as deep as the
interpreter's stack allows, and an integer can only have so many digits.  `JSON.parse` has no such
limits, and no constants that are not JSON.
-/

namespace CloudRunSsh.JSON

/-- A floating-point number as it is written: `±digits · 10^exponent`, or a constant. -/
inductive FloatLiteral where
  | decimal (negative : Bool) (digits : Nat) (exponent : Int)
  | infinity (negative : Bool)
  | nan
  deriving DecidableEq, Repr

/-- The value that `float` gives is zero.  The numbers up to half of the smallest positive one
are rounded to it. -/
def FloatLiteral.isZero : FloatLiteral → Bool
  | .decimal _ digits exponent =>
      if 0 ≤ exponent then digits = 0 else digits * 2 ^ 1075 ≤ 10 ^ exponent.natAbs
  | .infinity _ | .nan => false

/-- What `json.loads` returns. -/
inductive Value where
  | null
  | bool (value : Bool)
  | int (value : Int)
  | float (value : FloatLiteral)
  | string (text : PyString)
  | array (elements : List Value)
  | object (fields : List (PyString × Value))

namespace Value

/-- `bool(value)`. -/
def truthy : Value → Bool
  | .null => false
  | .bool value => value
  | .int value => value ≠ 0
  | .float value => !value.isZero
  | .string text => !text.isEmpty
  | .array elements => !elements.isEmpty
  | .object fields => !fields.isEmpty

/-- The items that `*value` stands for, if the value has a length. -/
def items : Value → Option (List Value)
  | .null | .bool _ | .int _ | .float _ => none
  | .string text => some (text.map fun symbol => .string [symbol])
  | .array elements => some elements
  | .object fields => some (fields.map fun field => .string field.1)

end Value

/-- `fields[key] = value`: a key keeps its place. -/
def setItem (fields : List (PyString × Value)) (key : PyString) (value : Value) :
    List (PyString × Value) :=
  match fields with
  | [] => [(key, value)]
  | field :: fields =>
      if field.1 = key then (key, value) :: fields else field :: setItem fields key value

/-- `fields.get(key)`. -/
def getItem (fields : List (PyString × Value)) (key : PyString) : Value :=
  match fields.find? fun field => field.1 = key with
  | some field => field.2
  | none => .null

/-- What `json.loads` raises. -/
inductive LoadError where
  | jsonDecodeError
  | unicodeDecodeError
  | recursionError
  | valueError
  deriving DecidableEq, Repr

/-- What is read from the front of a text.  Something is read, so the rest is shorter. -/
structure Scanned (Result : Type) (text : PyString) where
  value : Result
  rest : PyString
  shorter : rest.length < text.length

/-- A scanner reads from the front of a text. -/
abbrev Scanner (Result : Type) :=
  (text : PyString) → Except LoadError (Scanned Result text)

/-- What is read from a later part of a text. -/
def Scanned.within {Result : Type} {text later : PyString} (scanned : Scanned Result later)
    (shorter : later.length ≤ text.length) : Scanned Result text :=
  ⟨scanned.value, scanned.rest, Nat.lt_of_lt_of_le scanned.shorter shorter⟩

def quotationMark : Nat := 0x22
def reverseSolidus : Nat := 0x5C
def beginArray : Nat := 0x5B
def endArray : Nat := 0x5D
def beginObject : Nat := 0x7B
def endObject : Nat := 0x7D
def nameSeparator : Nat := 0x3A
def valueSeparator : Nat := 0x2C
def minus : Nat := 0x2D
def plus : Nat := 0x2B
def decimalPoint : Nat := 0x2E
def zero : Nat := 0x30

/-- The blanks between tokens. -/
def isBlank (symbol : Nat) : Bool :=
  symbol == 0x20 || symbol == 0x09 || symbol == 0x0A || symbol == 0x0D

def isDigit (symbol : Nat) : Bool := 0x30 ≤ symbol && symbol ≤ 0x39

/-- The text from the next token on. -/
def skip (text : PyString) : PyString := text.dropWhile isBlank

theorem length_skip_le (text : PyString) : (skip text).length ≤ text.length :=
  (List.dropWhile_suffix isBlank).length_le

/-- A token that follows is not longer than the text. -/
theorem length_of_skip {text rest : PyString} {symbol : Nat} (next : skip text = symbol :: rest) :
    rest.length < text.length := by
  have shorter := length_skip_le text
  rw [next] at shorter
  exact shorter

/-- The value of a hexadecimal digit. -/
def hexDigit (symbol : Nat) : Option Nat :=
  if 0x30 ≤ symbol ∧ symbol ≤ 0x39 then some (symbol - 0x30)
  else if 0x41 ≤ symbol ∧ symbol ≤ 0x46 then some (symbol - 0x41 + 10)
  else if 0x61 ≤ symbol ∧ symbol ≤ 0x66 then some (symbol - 0x61 + 10)
  else none

/-- The four digits of `\uXXXX`. -/
def scanHex : Scanner Nat
  | first :: second :: third :: fourth :: rest =>
      match [first, second, third, fourth].mapM hexDigit with
      | some digits =>
          .ok ⟨digits.foldl (fun code digit => code * 16 + digit) 0, rest, by
            simp only [List.length_cons]
            omega⟩
      | none => .error .jsonDecodeError
  | _ => .error .jsonDecodeError

def isHighSurrogate (code : Nat) : Bool := 0xD800 ≤ code && code ≤ 0xDBFF

def isLowSurrogate (code : Nat) : Bool := 0xDC00 ≤ code && code ≤ 0xDFFF

/-- The code point of two surrogates. -/
def joinSurrogates (high low : Nat) : Nat := 0x10000 + (high - 0xD800) * 0x400 + (low - 0xDC00)

/-- The letters of the other escape sequences. -/
def escapes : List (Nat × Nat) :=
  [(0x22, 0x22), (0x5C, 0x5C), (0x2F, 0x2F), (0x62, 0x08), (0x66, 0x0C), (0x6E, 0x0A),
    (0x72, 0x0D), (0x74, 0x09)]

/-- An escape sequence after its backslash.  A high surrogate takes in a low one after it. -/
def scanEscape : Scanner Nat
  | [] => .error .jsonDecodeError
  | letter :: rest =>
      if letter = 0x75 then do
        let first ← scanHex rest
        let single : Scanned Nat (letter :: rest) :=
          ⟨first.value, first.rest, Nat.lt_succ_of_lt first.shorter⟩
        if isHighSurrogate first.value then
          match next : first.rest with
          | mark :: letter' :: after =>
              if mark = reverseSolidus ∧ letter' = 0x75 then do
                let second ← scanHex after
                if isLowSurrogate second.value then
                  .ok ⟨joinSurrogates first.value second.value, second.rest, by
                    have shorter := first.shorter
                    have shorter' := second.shorter
                    rw [next] at shorter
                    simp only [List.length_cons] at shorter ⊢
                    omega⟩
                else .ok single
              else .ok single
          | _ => .ok single
        else .ok single
      else
        match escapes.lookup letter with
        | some code => .ok ⟨code, rest, Nat.lt_succ_self _⟩
        | none => .error .jsonDecodeError

/-- `scanstring`: a string after its opening quotation mark. -/
def scanString (text : PyString) : Except LoadError (Scanned PyString text) :=
  match text with
  | [] => .error .jsonDecodeError
  | symbol :: rest =>
      if symbol = quotationMark then .ok ⟨[], rest, Nat.lt_succ_self _⟩
      else if symbol = reverseSolidus then do
        let escaped ← scanEscape rest
        let others ← scanString escaped.rest
        .ok ⟨escaped.value :: others.value, others.rest,
          Nat.lt_succ_of_lt (Nat.lt_trans others.shorter escaped.shorter)⟩
      else if symbol < 0x20 then .error .jsonDecodeError
      else do
        let others ← scanString rest
        .ok ⟨symbol :: others.value, others.rest, Nat.lt_succ_of_lt others.shorter⟩
termination_by text.length
decreasing_by
  · exact Nat.lt_succ_of_lt escaped.shorter
  · exact Nat.lt_succ_self _

def digitsValue (digits : PyString) : Nat :=
  digits.foldl (fun value symbol => value * 10 + (symbol - zero)) 0

/-- The digits of `0|[1-9]\d*`, if there are some. -/
def integerDigits (text : PyString) : PyString :=
  if text.head? = some zero then [zero] else text.takeWhile isDigit

/-- The digits of `\.\d+`, if there are some. -/
def fractionDigits : PyString → PyString
  | symbol :: rest => if symbol = decimalPoint then rest.takeWhile isDigit else []
  | [] => []

/-- The sign and the digits of `[eE][-+]?\d+`, and the text after them, if there are some. -/
def exponentDigits : PyString → Option (Bool × PyString × PyString)
  | letter :: rest =>
      if letter = 0x65 ∨ letter = 0x45 then
        let down := rest.head? = some minus
        let digits := if down ∨ rest.head? = some plus then rest.tail else rest
        if digits.takeWhile isDigit = [] then none
        else some (down, digits.takeWhile isDigit, digits.dropWhile isDigit)
      else none
  | [] => none

/-- The parts of a number, and the text after it. -/
structure NumberParts where
  negative : Bool
  whole : PyString
  fraction : PyString
  exponent : Option (Bool × PyString)
  rest : PyString

/-- The text after a sign. -/
def unsigned (text : PyString) : PyString :=
  if text.head? = some minus then text.tail else text

/-- The text after the whole part of a number. -/
def afterWhole (text : PyString) : PyString :=
  (unsigned text).drop (integerDigits (unsigned text)).length

/-- The text after the fraction of a number. -/
def afterFraction (text : PyString) : PyString :=
  let fraction := fractionDigits (afterWhole text)
  if fraction = [] then afterWhole text else (afterWhole text).drop (fraction.length + 1)

/-- The longest number at the front of a text, if the text begins with one. -/
def numberParts (text : PyString) : NumberParts where
  negative := text.head? = some minus
  whole := integerDigits (unsigned text)
  fraction := fractionDigits (afterWhole text)
  exponent := (exponentDigits (afterFraction text)).map fun found => (found.1, found.2.1)
  rest :=
    match exponentDigits (afterFraction text) with
    | some found => found.2.2
    | none => afterFraction text

theorem length_exponentDigits {text : PyString} {found : Bool × PyString × PyString}
    (some : exponentDigits text = some found) : found.2.2.length ≤ text.length := by
  cases text with
  | nil => cases some
  | cons letter rest =>
      obtain ⟨_, same⟩ := Option.ite_none_right_eq_some.mp some
      obtain ⟨_, same⟩ := Option.ite_none_left_eq_some.mp same
      cases same
      have shorter := (List.dropWhile_suffix (l := if rest.head? = .some minus ∨
        rest.head? = .some plus then rest.tail else rest) isDigit).length_le
      refine Nat.le_trans shorter ?_
      split
      · rw [List.length_tail, List.length_cons]
        omega
      · exact Nat.le_succ _

theorem length_afterWhole {text : PyString} (filled : integerDigits (unsigned text) ≠ []) :
    (afterWhole text).length < text.length := by
  have sign : (unsigned text).length ≤ text.length := by
    rw [unsigned]
    split
    · rw [List.length_tail]
      exact Nat.sub_le _ 1
    · exact Nat.le_refl _
  have some : unsigned text ≠ [] := by
    intro empty
    rw [empty] at filled
    exact filled rfl
  have digits := List.length_pos_iff.mpr filled
  have symbols := List.length_pos_iff.mpr some
  rw [afterWhole, List.length_drop]
  omega

theorem length_afterFraction (text : PyString) :
    (afterFraction text).length ≤ (afterWhole text).length := by
  simp only [afterFraction]
  split
  · exact Nat.le_refl _
  · rw [List.length_drop]
    exact Nat.sub_le _ _

/-- A number takes something from the text. -/
theorem length_numberParts {text : PyString} (filled : (numberParts text).whole ≠ []) :
    (numberParts text).rest.length < text.length := by
  have shorter := Nat.lt_of_le_of_lt (length_afterFraction text) (length_afterWhole filled)
  rw [numberParts]
  dsimp only
  split
  · rename_i found some
    exact Nat.lt_of_le_of_lt (length_exponentDigits some) shorter
  · exact shorter

/-- `_match_number`: an integer, or a floating-point number if there is a fraction or an
exponent.  An integer of too many digits is refused. -/
def matchNumber (maxDigits : Nat) : Scanner Value := fun text =>
  let parts := numberParts text
  if filled : parts.whole = [] then .error .jsonDecodeError
  else
    let digits := digitsValue (parts.whole ++ parts.fraction)
    let shorter := length_numberParts filled
    match parts.exponent with
    | some (down, power) =>
        let exponent : Int := if down then -digitsValue power else digitsValue power
        .ok ⟨.float (.decimal parts.negative digits (exponent - parts.fraction.length)),
          parts.rest, shorter⟩
    | none =>
        if parts.fraction ≠ [] then
          .ok ⟨.float (.decimal parts.negative digits (-parts.fraction.length)), parts.rest,
            shorter⟩
        else if maxDigits < parts.whole.length then .error .valueError
        else .ok ⟨.int (if parts.negative then -digits else digits), parts.rest, shorter⟩

section Containers

variable (value : Scanner Value)

/-- The elements of an array from the first one on. -/
def parseElements (text : PyString) : Except LoadError (Scanned (List Value) text) := do
  let first ← value text
  match next : skip first.rest with
  | [] => .error .jsonDecodeError
  | symbol :: rest =>
      have shorter := Nat.lt_trans (length_of_skip next) first.shorter
      if symbol = endArray then .ok ⟨[first.value], rest, shorter⟩
      else if symbol = valueSeparator then do
        let others ← parseElements (skip rest)
        .ok ⟨first.value :: others.value, others.rest, Nat.lt_trans others.shorter
          (Nat.lt_of_le_of_lt (length_skip_le rest) shorter)⟩
      else .error .jsonDecodeError
termination_by text.length
decreasing_by exact Nat.lt_of_le_of_lt (length_skip_le rest) shorter

/-- `_parse_array`: an array after its opening bracket. -/
def parseArray (text : PyString) : Except LoadError (Scanned Value text) :=
  match next : skip text with
  | [] => .error .jsonDecodeError
  | symbol :: rest =>
      if symbol = endArray then .ok ⟨.array [], rest, length_of_skip next⟩
      else do
        let elements ← parseElements value (skip text)
        .ok ⟨.array elements.value, elements.rest,
          Nat.lt_of_lt_of_le elements.shorter (length_skip_le text)⟩

/-- The members of an object from a key on, after the members that `fields` has. -/
def parseMembers (fields : List (PyString × Value)) (text : PyString) :
    Except LoadError (Scanned (List (PyString × Value)) text) :=
  match text with
  | [] => .error .jsonDecodeError
  | mark :: afterMark =>
      if mark ≠ quotationMark then .error .jsonDecodeError
      else do
        let key ← scanString afterMark
        match colon : skip key.rest with
        | [] => .error .jsonDecodeError
        | separator :: afterKey =>
            if separator ≠ nameSeparator then .error .jsonDecodeError
            else do
              let item ← value (skip afterKey)
              let fields := setItem fields key.value item.value
              match next : skip item.rest with
              | [] => .error .jsonDecodeError
              | symbol :: rest =>
                  have shorter : rest.length < (mark :: afterMark).length := by
                    have first := key.shorter
                    have second := length_of_skip colon
                    have third := length_skip_le afterKey
                    have fourth := item.shorter
                    have last := length_of_skip next
                    rw [List.length_cons]
                    omega
                  if symbol = endObject then .ok ⟨fields, rest, shorter⟩
                  else if symbol = valueSeparator then do
                    let others ← parseMembers fields (skip rest)
                    .ok ⟨others.value, others.rest, Nat.lt_trans others.shorter
                      (Nat.lt_of_le_of_lt (length_skip_le rest) shorter)⟩
                  else .error .jsonDecodeError
termination_by text.length
decreasing_by exact Nat.lt_of_le_of_lt (length_skip_le rest) shorter

/-- `_parse_object`: an object after its opening brace. -/
def parseObject (text : PyString) : Except LoadError (Scanned Value text) :=
  match next : skip text with
  | [] => .error .jsonDecodeError
  | symbol :: rest =>
      if symbol = endObject then .ok ⟨.object [], rest, length_of_skip next⟩
      else do
        let fields ← parseMembers value [] (skip text)
        .ok ⟨.object fields.value, fields.rest,
          Nat.lt_of_lt_of_le fields.shorter (length_skip_le text)⟩

end Containers

/-- What the interpreter allows: how deep arrays and objects are nested, and how many digits an
integer has. -/
structure Limits where
  depth : Nat
  digits : Nat

/-- The names of the constants. -/
def constants : List (PyString × Value) :=
  [(.ofText "null", .null), (.ofText "true", .bool true), (.ofText "false", .bool false),
    (.ofText "NaN", .float .nan), (.ofText "Infinity", .float (.infinity false)),
    (.ofText "-Infinity", .float (.infinity true))]

/-- `scan_once`, given what reads an array and an object. -/
def scanWith (maxDigits : Nat) (array object : Scanner Value) : Scanner Value
  | [] => .error .jsonDecodeError
  | symbol :: rest =>
      if symbol = quotationMark then do
        let scanned ← scanString rest
        .ok ⟨.string scanned.value, scanned.rest, Nat.lt_succ_of_lt scanned.shorter⟩
      else if symbol = beginArray then do
        let scanned ← array rest
        .ok (scanned.within (Nat.le_succ _))
      else if symbol = beginObject then do
        let scanned ← object rest
        .ok (scanned.within (Nat.le_succ _))
      else
        match constants.find? fun constant => constant.1.isPrefixOf (symbol :: rest) with
        | some constant => .ok ⟨constant.2, rest.drop (constant.1.length - 1), by
            rw [List.length_drop, List.length_cons]
            omega⟩
        | none => matchNumber maxDigits (symbol :: rest)

/-- `scan_once`, where so many arrays and objects can still be entered. -/
def scanOnce (maxDigits : Nat) : (depth : Nat) → Scanner Value
  | 0 => scanWith maxDigits (fun _ => .error .recursionError) fun _ => .error .recursionError
  | depth + 1 =>
      scanWith maxDigits (parseArray (scanOnce maxDigits depth))
        (parseObject (scanOnce maxDigits depth))

/-- `JSONDecoder.decode`. -/
def decode (limits : Limits) (text : PyString) : Except LoadError Value := do
  let scanned ← scanOnce limits.digits limits.depth (skip text)
  if skip scanned.rest = [] then .ok scanned.value else .error .jsonDecodeError

/-- The encodings that JSON can be in.  The ones with a byte order mark say where it leaves the
choice of the order to it. -/
inductive Encoding where
  | utf8
  | utf8sig
  | utf16
  | utf16be
  | utf16le
  | utf32
  | utf32be
  | utf32le
  deriving DecidableEq, Repr

/-- `detect_encoding`: by the byte order mark, or else by the zeros among the first bytes. -/
def detectEncoding (data : List UInt8) : Encoding :=
  if [0x00, 0x00, 0xFE, 0xFF].isPrefixOf data ∨ [0xFF, 0xFE, 0x00, 0x00].isPrefixOf data then
    .utf32
  else if [0xFE, 0xFF].isPrefixOf data ∨ [0xFF, 0xFE].isPrefixOf data then .utf16
  else if [0xEF, 0xBB, 0xBF].isPrefixOf data then .utf8sig
  else
    match data with
    | first :: second :: third :: fourth :: _ =>
        if first = 0 then if second ≠ 0 then .utf16be else .utf32be
        else if second = 0 then if third ≠ 0 ∨ fourth ≠ 0 then .utf16le else .utf32le
        else .utf8
    | [first, second] =>
        if first = 0 then .utf16be else if second = 0 then .utf16le else .utf8
    | _ => .utf8

/-- The bytes that follow the first one of a character in UTF-8. -/
def isContinuation (byte : UInt8) : Bool := 0x80 ≤ byte && byte ≤ 0xBF

/-- The code point of the first byte of a character and the bytes after it. -/
def codeOf (first : Nat) (others : List UInt8) : Nat :=
  others.foldl (fun code byte => code * 0x40 + byte.toNat % 0x40) first

/-- UTF-8, in which surrogates pass. -/
def decodeUTF8 : List UInt8 → Option PyString
  | [] => some []
  | first :: rest =>
      if first ≤ 0x7F then (decodeUTF8 rest).map (first.toNat :: ·)
      else
        match rest with
        | [] => none
        | second :: rest =>
            if !isContinuation second then none
            else if 0xC2 ≤ first ∧ first ≤ 0xDF then
              (decodeUTF8 rest).map (codeOf (first.toNat % 0x20) [second] :: ·)
            else
              match rest with
              | [] => none
              | third :: rest =>
                  if !isContinuation third then none
                  else if 0xE0 ≤ first ∧ first ≤ 0xEF then
                    if first = 0xE0 ∧ second < 0xA0 then none
                    else
                      (decodeUTF8 rest).map (codeOf (first.toNat % 0x10) [second, third] :: ·)
                  else
                    match rest with
                    | [] => none
                    | fourth :: rest =>
                        if !isContinuation fourth then none
                        else if 0xF0 ≤ first ∧ first ≤ 0xF4 then
                          if first = 0xF0 ∧ second < 0x90 ∨ first = 0xF4 ∧ 0x90 ≤ second then none
                          else
                            (decodeUTF8 rest).map
                              (codeOf (first.toNat % 0x08) [second, third, fourth] :: ·)
                        else none

/-- The units of two bytes, with the higher byte first. -/
def unitsBE : List UInt8 → Option (List Nat)
  | [] => some []
  | [_] => none
  | high :: low :: rest => (unitsBE rest).map ((high.toNat * 0x100 + low.toNat) :: ·)

/-- The units of two bytes, with the lower byte first. -/
def unitsLE : List UInt8 → Option (List Nat)
  | [] => some []
  | [_] => none
  | low :: high :: rest => (unitsLE rest).map ((high.toNat * 0x100 + low.toNat) :: ·)

/-- The code points of UTF-16, in which single surrogates pass. -/
def joinUnits : List Nat → PyString
  | high :: low :: rest =>
      if isHighSurrogate high && isLowSurrogate low then
        joinSurrogates high low :: joinUnits rest
      else high :: joinUnits (low :: rest)
  | [unit] => [unit]
  | [] => []

/-- The code points of UTF-32, from the units of two bytes in the order of the bytes. -/
def joinHalves (code : Nat → Nat → Nat) : List Nat → Option PyString
  | [] => some []
  | [_] => none
  | first :: second :: rest =>
      if code first second ≤ 0x10FFFF then (joinHalves code rest).map (code first second :: ·)
      else none

def decodeUTF32BE (data : List UInt8) : Option PyString :=
  (unitsBE data).bind (joinHalves fun first second => first * 0x10000 + second)

def decodeUTF32LE (data : List UInt8) : Option PyString :=
  (unitsLE data).bind (joinHalves fun first second => second * 0x10000 + first)

/-- `data.decode(encoding, 'surrogatepass')`, or nothing where it fails. -/
def decodeBytes (data : List UInt8) : Encoding → Option PyString
  | .utf8 => decodeUTF8 data
  | .utf8sig => decodeUTF8 (data.drop 3)
  | .utf16 =>
      if data.head? = some 0xFE then (unitsBE (data.drop 2)).map joinUnits
      else (unitsLE (data.drop 2)).map joinUnits
  | .utf16be => (unitsBE data).map joinUnits
  | .utf16le => (unitsLE data).map joinUnits
  | .utf32 =>
      if data.head? = some 0x00 then decodeUTF32BE (data.drop 4) else decodeUTF32LE (data.drop 4)
  | .utf32be => decodeUTF32BE data
  | .utf32le => decodeUTF32LE data

/-- A text, or bytes. -/
inductive Message where
  | text (text : PyString)
  | bytes (data : List UInt8)
  deriving DecidableEq, Repr

/-- `json.loads`.  A text must not begin with a byte order mark. -/
def loads (limits : Limits) : Message → Except LoadError Value
  | .text text =>
      if text.head? = some 0xFEFF then .error .jsonDecodeError else decode limits text
  | .bytes data =>
      match decodeBytes data (detectEncoding data) with
      | some text => decode limits text
      | none => .error .unicodeDecodeError

/-! ## JSON as JavaScript reads it -/

/-- The constants that only Python knows. -/
def pythonConstants : List PyString := [.ofText "NaN", .ofText "Infinity", .ofText "-Infinity"]

/-- A value, in which integers of so many digits are read. -/
def scanStrict (maxDigits : Nat) (array object : Scanner Value) : Scanner Value := fun text =>
  if pythonConstants.any fun constant => constant.isPrefixOf text then .error .jsonDecodeError
  else scanWith maxDigits array object text

/-- A value, where so many arrays and objects can still be entered. -/
def scanStrictOnce (maxDigits : Nat) : (depth : Nat) → Scanner Value
  | 0 => scanStrict maxDigits (fun _ => .error .recursionError) fun _ => .error .recursionError
  | depth + 1 =>
      scanStrict maxDigits (parseArray (scanStrictOnce maxDigits depth))
        (parseObject (scanStrictOnce maxDigits depth))

/-- `JSON.parse` takes the text.  It has no limits: no value of a text is deeper or has more digits
than the text is long. -/
def isJSON (text : PyString) : Bool :=
  (scanStrictOnce text.length text.length (skip text)).toOption.any fun scanned =>
    skip scanned.rest = []

/-- A symbol that no token begins with. -/
def Foreign (symbol : Nat) : Prop :=
  isBlank symbol = false ∧ symbol ≠ quotationMark ∧ symbol ≠ beginArray ∧ symbol ≠ beginObject ∧
    symbol ≠ minus ∧ isDigit symbol = false

instance (symbol : Nat) : Decidable (Foreign symbol) :=
  inferInstanceAs (Decidable (isBlank symbol = false ∧ symbol ≠ quotationMark ∧
    symbol ≠ beginArray ∧ symbol ≠ beginObject ∧ symbol ≠ minus ∧ isDigit symbol = false))

/-- A text is no JSON if it begins like no value. -/
theorem isJSON_eq_false {symbol : Nat} {rest : PyString} (foreign : Foreign symbol)
    (other : constants.find? (fun constant => constant.1.isPrefixOf (symbol :: rest)) = none) :
    isJSON (symbol :: rest) = false := by
  obtain ⟨filled, unquoted, noArray, noObject, positive, noDigit⟩ := foreign
  have number (maxDigits : Nat) :
      matchNumber maxDigits (symbol :: rest) = .error .jsonDecodeError := by
    have unsigned : unsigned (symbol :: rest) = symbol :: rest :=
      if_neg fun same => positive (Option.some.inj same)
    have nonzero : (symbol :: rest).head? ≠ some zero := by
      intro same
      rw [Option.some.inj same] at noDigit
      cases noDigit
    have none : (numberParts (symbol :: rest)).whole = [] := by
      change integerDigits (JSON.unsigned _) = []
      rw [unsigned, integerDigits, if_neg nonzero, List.takeWhile_cons_of_neg (by simp [noDigit])]
    rw [matchNumber, dif_pos none]
  have scanned (maxDigits : Nat) (array object : Scanner Value) :
      scanStrict maxDigits array object (symbol :: rest) = .error .jsonDecodeError := by
    rw [scanStrict, scanWith, if_neg unquoted, if_neg noArray, if_neg noObject, other]
    dsimp only
    rw [number, ite_self]
  have front : skip (symbol :: rest) = symbol :: rest :=
    List.dropWhile_cons_of_neg (by simp [filled])
  have whole (maxDigits depth : Nat) :
      scanStrictOnce maxDigits depth (symbol :: rest) = .error .jsonDecodeError := by
    cases depth <;> exact scanned _ _ _
  rw [isJSON, front, whole]
  rfl

end CloudRunSsh.JSON
