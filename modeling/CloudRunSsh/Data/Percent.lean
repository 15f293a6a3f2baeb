import Mathlib.Data.Bool.AllAny
import CloudRunSsh.Data.JavaScript

/-!
# Percent-encoding

Form data as a browser posts it and as a server reads it: what is read is what was posted.
-/

namespace CloudRunSsh.Percent

/-- The UTF-8 bytes of a text. -/
def bytesOf (text : List Char) : List UInt8 := text.flatMap String.utf8EncodeChar

/-- The text of UTF-8 bytes. -/
def textOf (bytes : List UInt8) : Option (List Char) :=
  bytes.toByteArray.utf8Decode?.map Array.toList

@[simp] theorem bytesOf_nil : bytesOf [] = [] := rfl

@[simp] theorem bytesOf_cons (char : Char) (text : List Char) :
    bytesOf (char :: text) = String.utf8EncodeChar char ++ bytesOf text := rfl

theorem textOf_bytesOf (text : List Char) : textOf (bytesOf text) = some text := by
  change (text.utf8Encode.utf8Decode?).map Array.toList = some text
  rw [List.utf8Decode?_utf8Encode]
  rfl

@[simp] theorem bytesOf_append (text rest : List Char) :
    bytesOf (text ++ rest) = bytesOf text ++ bytesOf rest := List.flatMap_append

theorem utf8EncodeChar_ascii {char : Char} (ascii : char.toNat < 0x80) :
    String.utf8EncodeChar char = [UInt8.ofNat char.toNat] := by
  change char.val.toNat < 0x80 at ascii
  rw [String.utf8EncodeChar, if_pos (by omega)]
  rfl

/-- Other characters have several bytes, none of them ASCII. -/
theorem utf8EncodeChar_wide {char : Char} (wide : 0x80 ≤ char.toNat) :
    2 ≤ (String.utf8EncodeChar char).length ∧
      ∀ byte ∈ String.utf8EncodeChar char, 0x80 ≤ byte.toNat := by
  change 0x80 ≤ char.val.toNat at wide
  simp only [String.utf8EncodeChar]
  split_ifs
  · omega
  · simp only [List.length_cons, List.forall_mem_cons, UInt8.toNat_ofNat']
    refine ⟨by decide, by omega, by omega, List.forall_mem_nil _⟩
  · simp only [List.length_cons, List.forall_mem_cons, UInt8.toNat_ofNat']
    refine ⟨by decide, by omega, by omega, by omega, List.forall_mem_nil _⟩
  · simp only [List.length_cons, List.forall_mem_cons, UInt8.toNat_ofNat']
    refine ⟨by decide, by omega, by omega, by omega, by omega, List.forall_mem_nil _⟩

theorem bytesOf_injective {text other : List Char} (same : bytesOf text = bytesOf other) :
    text = other := by
  have texts := congrArg textOf same
  rw [textOf_bytesOf, textOf_bytesOf] at texts
  exact Option.some.inj texts

/-- The characters that `encodeURIComponent` leaves as they are. -/
def isUnreserved (char : Char) : Bool :=
  char.isAlphanum || char ∈ ['-', '_', '.', '!', '~', '*', '\x27', '(', ')']

def hexDigit (value : Nat) : Char :=
  if value < 10 then Char.ofNat ('0'.toNat + value) else Char.ofNat ('A'.toNat + (value - 10))

def encodeByte (byte : UInt8) : List Char :=
  ['%', hexDigit (byte.toNat / 16), hexDigit (byte.toNat % 16)]

/-- One character in form data, where a space is a plus sign. -/
def encodeChar (char : Char) : List Char :=
  if char = ' ' then ['+']
  else if isUnreserved char then [char]
  else (String.utf8EncodeChar char).flatMap encodeByte

def encode (text : List Char) : List Char := text.flatMap encodeChar

/-- Names with their values as a browser posts them. -/
def serialize (pairs : List (List Char × List Char)) : List Char :=
  ['&'].intercalate (pairs.map fun (name, value) => encode name ++ '=' :: encode value)

/-- The bytes of a text with escapes.  A percent sign that begins no escape stands for
itself. -/
def unquote : List Char → List UInt8
  | [] => []
  | '%' :: high :: low :: rest =>
      match numberOf 16 [high, low] with
      | some code => UInt8.ofNat code :: unquote rest
      | none => String.utf8EncodeChar '%' ++ unquote (high :: low :: rest)
  | char :: rest => String.utf8EncodeChar char ++ unquote rest

def plusToSpace (char : Char) : Char := if char = '+' then ' ' else char

def unquotePlus (text : List Char) : List UInt8 := unquote (text.map plusToSpace)

/-- A field of form data.  Empty fields are left out, and a name may have no value. -/
def parseField (field : List Char) : Option (List UInt8 × List UInt8) :=
  if field = [] then none
  else some (unquotePlus (field.takeWhile (· ≠ '=')),
    unquotePlus ((field.dropWhile (· ≠ '=')).drop 1))

/-- The names with their values as a server reads them. -/
def parse (body : List Char) : List (List UInt8 × List UInt8) :=
  (body.splitOn '&').filterMap parseField

/-- `decodeURIComponent`: the bytes of a text with escapes, which must be UTF-8. -/
def unescape : List Char → Option (List UInt8)
  | [] => some []
  | '%' :: rest =>
      match rest with
      | high :: low :: rest =>
          (numberOf 16 [high, low]).bind fun code => (unescape rest).map (UInt8.ofNat code :: ·)
      | _ => none
  | char :: rest => (unescape rest).map (String.utf8EncodeChar char ++ ·)

def decodeURIComponent (text : List Char) : Option (List Char) := (unescape text).bind textOf

theorem unescape_of_plain {text : List Char} (plain : '%' ∉ text) :
    unescape text = some (bytesOf text) := by
  induction text with
  | nil => rfl
  | cons char rest ih =>
      rw [List.mem_cons, not_or] at plain
      rw [unescape, ih plain.2]
      · rfl
      · exact Ne.symm plain.1

/-- A text without escapes stands for itself. -/
theorem decodeURIComponent_of_plain {text : List Char} (plain : '%' ∉ text) :
    decodeURIComponent text = some text := by
  rw [decodeURIComponent, unescape_of_plain plain]
  exact textOf_bytesOf text

theorem unquote_cons {char : Char} (plain : char ≠ '%') (rest : List Char) :
    unquote (char :: rest) = String.utf8EncodeChar char ++ unquote rest := by
  rw [unquote]
  exact fun _ _ _ escape => absurd escape plain

theorem hexDigit_spec {value : Nat} (small : value < 16) :
    digitValue 16 (hexDigit value) = some value ∧ (hexDigit value).isAlphanum = true := by
  decide +revert

theorem numberOf_hexDigits (byte : UInt8) :
    numberOf 16 [hexDigit (byte.toNat / 16), hexDigit (byte.toNat % 16)] =
      some byte.toNat := by
  have bound := byte.toNat_lt
  have high := (@hexDigit_spec (byte.toNat / 16) (by omega)).1
  have low := (@hexDigit_spec (byte.toNat % 16) (by omega)).1
  simp [numberOf, List.foldlM_cons, high, low]
  omega

theorem unquotePlus_encodeByte (byte : UInt8) (rest : List Char) :
    unquotePlus (encodeByte byte ++ rest) = byte :: unquotePlus rest := by
  have bound := byte.toNat_lt
  have kept : ∀ value, value < 16 → plusToSpace (hexDigit value) = hexDigit value := by
    intro value small
    apply if_neg
    intro plus
    have digit := (hexDigit_spec small).2
    rw [plus] at digit
    exact absurd digit (by decide)
  change unquote (plusToSpace '%' :: plusToSpace (hexDigit (byte.toNat / 16)) ::
    plusToSpace (hexDigit (byte.toNat % 16)) :: rest.map plusToSpace) = _
  rw [kept _ (by omega), kept _ (by omega)]
  change unquote ('%' :: hexDigit (byte.toNat / 16) :: hexDigit (byte.toNat % 16) :: _) = _
  rw [unquote, numberOf_hexDigits]
  change UInt8.ofNat byte.toNat :: _ = _
  rw [UInt8.ofNat_toNat]
  rfl

theorem unquotePlus_flatMap_encodeByte (bytes : List UInt8) (rest : List Char) :
    unquotePlus (bytes.flatMap encodeByte ++ rest) = bytes ++ unquotePlus rest := by
  induction bytes with
  | nil => rfl
  | cons byte others ih =>
      rw [List.flatMap_cons, List.append_assoc, unquotePlus_encodeByte, ih]
      rfl

/-- The characters that have a meaning in form data are escaped. -/
theorem isUnreserved_ne {char : Char} (unreserved : isUnreserved char = true) :
    char ∉ ['%', '+', '&', '='] := by
  have escaped : ∀ char ∈ ['%', '+', '&', '='], isUnreserved char = false :=
    List.all_iff_forall_prop.mp (by decide)
  intro member
  rw [escaped char member] at unreserved
  cases unreserved

theorem unquotePlus_encodeChar (char : Char) (rest : List Char) :
    unquotePlus (encodeChar char ++ rest) =
      String.utf8EncodeChar char ++ unquotePlus rest := by
  rw [encodeChar]
  split
  · rename_i space
    rw [space]
    change unquote (' ' :: rest.map plusToSpace) = _
    exact unquote_cons (by decide) _
  · split
    · rename_i unreserved
      have other := isUnreserved_ne unreserved
      simp only [List.mem_cons, List.not_mem_nil, or_false, not_or] at other
      change unquote (plusToSpace char :: rest.map plusToSpace) = _
      rw [plusToSpace, if_neg other.2.1]
      exact unquote_cons other.1 _
    · exact unquotePlus_flatMap_encodeByte _ rest

/-- What is read of an encoded text is its bytes. -/
theorem unquotePlus_encode (text : List Char) : unquotePlus (encode text) = bytesOf text := by
  induction text with
  | nil => rfl
  | cons char rest ih =>
      change unquotePlus (encodeChar char ++ encode rest) = _
      rw [unquotePlus_encodeChar, ih, bytesOf_cons]

theorem not_mem_encodeByte {symbol : Char} (letter : symbol.isAlphanum = false)
    (escape : symbol ≠ '%') (byte : UInt8) : symbol ∉ encodeByte byte := by
  intro member
  have bound := byte.toNat_lt
  simp only [encodeByte, List.mem_cons, List.not_mem_nil, or_false] at member
  rcases member with same | same | same
  · exact escape same
  · have digit := (@hexDigit_spec (byte.toNat / 16) (by omega)).2
    rw [← same, letter] at digit
    cases digit
  · have digit := (@hexDigit_spec (byte.toNat % 16) (by omega)).2
    rw [← same, letter] at digit
    cases digit

theorem not_mem_encode {separator : Char} (separates : separator ∈ ['&', '='])
    (text : List Char) : separator ∉ encode text := by
  have other : ∀ separator ∈ ['&', '='],
      separator.isAlphanum = false ∧ separator ≠ '+' ∧ separator ≠ '%' ∧
        separator ∈ ['%', '+', '&', '='] := List.all_iff_forall_prop.mp (by decide)
  obtain ⟨letter, plus, escape, reserved⟩ := other separator separates
  intro member
  obtain ⟨char, _, member⟩ := List.mem_flatMap.mp member
  rw [encodeChar] at member
  split at member
  · exact plus (List.mem_singleton.mp member)
  · split at member
    · rename_i unreserved
      rw [List.mem_singleton.mp member] at reserved
      exact isUnreserved_ne unreserved reserved
    · obtain ⟨byte, _, member⟩ := List.mem_flatMap.mp member
      exact not_mem_encodeByte letter escape byte member

theorem parseField_encode (name value : List Char) :
    parseField (encode name ++ '=' :: encode value) = some (bytesOf name, bytesOf value) := by
  have filled : encode name ++ '=' :: encode value ≠ [] := by simp
  have inner : ∀ char ∈ encode name, decide (char ≠ '=') = true := by
    intro char member
    apply decide_eq_true
    intro same
    rw [same] at member
    exact not_mem_encode (by decide) name member
  have named : (encode name ++ '=' :: encode value).takeWhile (· ≠ '=') = encode name := by
    rw [List.takeWhile_append_of_pos inner, List.takeWhile_cons_of_neg (by decide),
      List.append_nil]
  have valued : (encode name ++ '=' :: encode value).dropWhile (· ≠ '=') =
      '=' :: encode value := by
    rw [List.dropWhile_append_of_pos inner, List.dropWhile_cons_of_neg (by decide)]
  rw [parseField, if_neg filled, named, valued, List.drop_one, List.tail_cons,
    unquotePlus_encode, unquotePlus_encode]

/-- What a server reads is what the browser posted. -/
theorem parse_serialize (pairs : List (List Char × List Char)) :
    parse (serialize pairs) = pairs.map fun (name, value) => (bytesOf name, bytesOf value) := by
  cases pairs with
  | nil => rfl
  | cons first rest =>
      rw [parse, serialize, List.splitOn_intercalate]
      · have fields : (parseField ∘ fun (name, value) => encode name ++ '=' :: encode value) =
            some ∘ fun (name, value) => (bytesOf name, bytesOf value) := by
          funext pair
          exact parseField_encode pair.1 pair.2
        rw [List.filterMap_map, fields, List.filterMap_eq_map]
      · intro field member
        obtain ⟨pair, _, rfl⟩ := List.mem_map.mp member
        intro ampersand
        rw [List.mem_append, List.mem_cons] at ampersand
        rcases ampersand with inName | same | inValue
        · exact not_mem_encode (by decide) pair.1 inName
        · exact absurd same (by decide)
        · exact not_mem_encode (by decide) pair.2 inValue
      · simp

/-- `encodeURIComponent` of one character. -/
def encodeURIComponentChar (char : Char) : List Char :=
  if isUnreserved char then [char] else (String.utf8EncodeChar char).flatMap encodeByte

/-- `encodeURIComponent`. -/
def encodeURIComponent (text : List Char) : List Char := text.flatMap encodeURIComponentChar

/-- What a browser makes of such a text in a query: an apostrophe is escaped there. -/
def asQuery (text : List Char) : List Char :=
  text.flatMap fun char => if char = '\x27' then ['%', '2', '7'] else [char]

/-- A text is decoded to another one, whatever follows. -/
def Escapes (escaped text : List Char) : Prop :=
  ∀ rest, unescape (escaped ++ rest) = (unescape rest).map (bytesOf text ++ ·)

section Escapes

variable {escaped escaped' text text' : List Char}

theorem Escapes.nil : Escapes [] [] := by
  intro rest
  rw [List.nil_append, bytesOf_nil]
  cases unescape rest <;> rfl

theorem Escapes.append (escapes : Escapes escaped text) (escapes' : Escapes escaped' text') :
    Escapes (escaped ++ escaped') (text ++ text') := by
  intro rest
  rw [List.append_assoc, escapes, escapes', bytesOf_append, Option.map_map]
  congr 1
  funext bytes
  exact (List.append_assoc _ _ _).symm

theorem Escapes.char {char : Char} (plain : char ≠ '%') : Escapes [char] [char] := by
  intro rest
  rw [List.singleton_append, unescape]
  · rw [bytesOf_cons, bytesOf_nil, List.append_nil]
  · exact plain

theorem Escapes.plain (plain : '%' ∉ text) : Escapes text text := by
  induction text with
  | nil => exact .nil
  | cons char rest ih =>
      rw [List.mem_cons, not_or] at plain
      exact (Escapes.char (Ne.symm plain.1)).append (ih plain.2)

theorem unescape_encodeByte (byte : UInt8) (rest : List Char) :
    unescape (encodeByte byte ++ rest) = (unescape rest).map (byte :: ·) := by
  change unescape ('%' :: hexDigit (byte.toNat / 16) :: hexDigit (byte.toNat % 16) :: rest) = _
  rw [unescape, numberOf_hexDigits, Option.bind_some, UInt8.ofNat_toNat]

theorem Escapes.utf8 (char : Char) :
    Escapes ((String.utf8EncodeChar char).flatMap encodeByte) [char] := by
  intro rest
  rw [bytesOf_cons, bytesOf_nil, List.append_nil]
  induction String.utf8EncodeChar char with
  | nil =>
      rw [List.flatMap_nil, List.nil_append]
      cases unescape rest <;> rfl
  | cons byte others ih =>
      rw [List.flatMap_cons, List.append_assoc, unescape_encodeByte, ih, Option.map_map]
      rfl

theorem Escapes.encodeURIComponentChar (char : Char) :
    Escapes (encodeURIComponentChar char) [char] := by
  rw [Percent.encodeURIComponentChar]
  split_ifs with unreserved
  · refine .char fun same => isUnreserved_ne unreserved ?_
    rw [same]
    exact List.mem_cons_self
  · exact .utf8 char

theorem Escapes.decodeURIComponent (escapes : Escapes escaped text) :
    decodeURIComponent escaped = some text := by
  have whole := escapes []
  rw [List.append_nil, unescape, Option.map_some, List.append_nil] at whole
  rw [Percent.decodeURIComponent, whole]
  exact textOf_bytesOf text

end Escapes

theorem asQuery_append (text rest : List Char) :
    asQuery (text ++ rest) = asQuery text ++ asQuery rest := List.flatMap_append

theorem asQuery_of_plain {text : List Char} (plain : '\x27' ∉ text) : asQuery text = text := by
  induction text with
  | nil => rfl
  | cons char rest ih =>
      rw [List.mem_cons, not_or] at plain
      rw [asQuery, List.flatMap_cons, if_neg (Ne.symm plain.1)]
      exact congrArg (char :: ·) (ih plain.2)

/-- A text is decoded to another one from the fragment and from the query of a URL. -/
structure Decodes (escaped text : List Char) : Prop where
  fragment : Escapes escaped text
  query : Escapes (asQuery escaped) text

namespace Decodes

variable {escaped escaped' text text' : List Char}

theorem nil : Decodes [] [] := ⟨.nil, .nil⟩

theorem append (decodes : Decodes escaped text) (decodes' : Decodes escaped' text') :
    Decodes (escaped ++ escaped') (text ++ text') where
  fragment := decodes.fragment.append decodes'.fragment
  query := by
    rw [asQuery_append]
    exact decodes.query.append decodes'.query

theorem plain (escapes : '%' ∉ text) (apostrophes : '\x27' ∉ text) : Decodes text text where
  fragment := .plain escapes
  query := by
    rw [asQuery_of_plain apostrophes]
    exact .plain escapes

theorem encodeURIComponentChar (char : Char) : Decodes (encodeURIComponentChar char) [char] where
  fragment := .encodeURIComponentChar char
  query := by
    by_cases apostrophe : char = '\x27'
    · subst apostrophe
      exact Escapes.utf8 '\x27'
    · rw [asQuery_of_plain]
      · exact .encodeURIComponentChar char
      · rw [Percent.encodeURIComponentChar]
        split_ifs
        · exact mt List.mem_singleton.mp (Ne.symm apostrophe)
        · intro member
          obtain ⟨byte, _, member⟩ := List.mem_flatMap.mp member
          exact not_mem_encodeByte (by decide) (by decide) byte member

/-- What is encoded is decoded. -/
theorem encodeURIComponent (text : List Char) : Decodes (encodeURIComponent text) text := by
  induction text with
  | nil => exact nil
  | cons char rest ih => exact (encodeURIComponentChar char).append ih

/-- Texts that are joined are decoded one by one. -/
theorem intercalate {Item : Type} {separator : Char} {escaped text : Item → List Char}
    (separators : Decodes [separator] [separator]) (items : List Item)
    (decodes : ∀ item ∈ items, Decodes (escaped item) (text item)) :
    Decodes ([separator].intercalate (items.map escaped))
      ([separator].intercalate (items.map text)) := by
  induction items with
  | nil => exact nil
  | cons item rest ih =>
      obtain ⟨first, later⟩ := List.forall_mem_cons.mp decodes
      cases rest with
      | nil =>
          rw [List.map_singleton, List.map_singleton, List.intercalate_singleton,
            List.intercalate_singleton]
          exact first
      | cons next rest =>
          rw [List.map_cons, List.map_cons, List.map_cons, List.map_cons,
            List.intercalate_cons_cons, List.intercalate_cons_cons]
          exact (first.append separators).append (ih later)

end Decodes

end CloudRunSsh.Percent
