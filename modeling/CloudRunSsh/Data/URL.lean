import Mathlib.Data.Bool.AllAny
import Mathlib.Data.List.DropRight
import Mathlib.Data.List.TakeWhile
import CloudRunSsh.Data.IPAddress

/-!
# URLs

`urllib.parse.urlparse` of Python: the scheme of a URL, its network location and the port.
-/

namespace CloudRunSsh

/-- What Python knows of the characters beyond ASCII: `str.lower`, and the normal form `NFKC`. -/
structure UnicodeData where
  lower : PyString → PyString
  normalize : PyString → PyString
  lower_ascii : ∀ text : PyString, (∀ symbol ∈ text, symbol < 128) →
    lower text = text.map PyString.lowerASCII

/-- Only ASCII is changed. -/
def UnicodeData.ascii : UnicodeData where
  lower := List.map PyString.lowerASCII
  normalize := id
  lower_ascii _ _ := rfl

namespace URL

def slash : Nat := '/'.toNat

def colon : Nat := ':'.toNat

def opening : Nat := '['.toNat

def closing : Nat := ']'.toNat

/-- What ends a network location. -/
def isDelimiter (symbol : Nat) : Bool := symbol ∈ PyString.ofText "/?#"

/-- `scheme_chars`. -/
def isScheme (symbol : Nat) : Bool :=
  PyString.isLetter symbol || PyString.isDigit symbol || symbol ∈ PyString.ofText "+-."

/-- The URL without the control characters and spaces before it, and without tabs and line ends. -/
def cleaned (url : PyString) : PyString :=
  (url.dropWhile (· ≤ 0x20)).filter (· ∉ [0x09, 0x0D, 0x0A])

/-- The scheme, and the URL after it. -/
def splitScheme (url : PyString) : PyString × PyString :=
  match url.dropWhile (· ≠ colon) with
  | [] => ([], url)
  | _ :: rest =>
      let scheme := url.takeWhile (· ≠ colon)
      if scheme.head?.any PyString.isLetter ∧ scheme.all isScheme then
        (scheme.map PyString.lowerASCII, rest)
      else ([], url)

/-- `_splitnetloc`, if there is a network location. -/
def splitNetloc (url : PyString) : PyString :=
  if PyString.startsWith url (PyString.ofText "//") then
    (url.drop 2).takeWhile fun symbol => !isDelimiter symbol
  else []

/-- `_check_bracketed_host`. -/
def checkBracketedHost (hostname : PyString) : Bool :=
  if hostname.head? = some 'v'.toNat then
    let isHex := fun symbol => (IPAddress.hexDigit symbol).isSome
    hostname.tail.takeWhile isHex ≠ [] &&
      match hostname.tail.dropWhile isHex with
      | symbol :: rest => symbol = PyString.dot && rest ≠ [] && PyString.newline ∉ rest
      | [] => false
  else
    match IPAddress.ipAddress hostname with
    | some (.v6 _ _) => true
    | _ => false

/-- `_checknetloc`. -/
def checkNetloc (data : UnicodeData) (netloc : PyString) : Bool :=
  let kept := netloc.filter (· ∉ PyString.ofText "@:#?")
  netloc.all (· < 128) || kept = data.normalize kept ||
    (data.normalize kept).all (· ∉ PyString.ofText "/?#@:")

/-- The parts of a URL. -/
structure ParseResult where
  scheme : PyString
  netloc : PyString
  deriving DecidableEq, Repr

/-- `urlparse`, without a result on a `ValueError`. -/
def urlparse (data : UnicodeData) (url : PyString) : Option ParseResult :=
  let (scheme, url) := splitScheme (cleaned url)
  let netloc := splitNetloc url
  if decide (opening ∈ netloc) ≠ decide (closing ∈ netloc) then none
  else if opening ∈ netloc ∧
      ¬checkBracketedHost (PyString.before closing (PyString.after opening netloc)) then none
  else if checkNetloc data netloc then some ⟨scheme, netloc⟩
  else none

/-- The text of the port. -/
def ParseResult.portText (parsed : ParseResult) : PyString :=
  let hostinfo := parsed.netloc.rtakeWhile (· ≠ '@'.toNat)
  if opening ∈ hostinfo then
    PyString.after colon (PyString.after closing (PyString.after opening hostinfo))
  else PyString.after colon hostinfo

/-- `port`, without a result on a `ValueError`. -/
def ParseResult.port (parsed : ParseResult) : Option (Option Nat) :=
  if parsed.portText = [] then some none
  else if ¬parsed.portText.all PyString.isDigit then none
  else if PyString.decimal parsed.portText > 65535 then none
  else some (some (PyString.decimal parsed.portText))

/-- The symbols of a name or of an IPv4 address, in lower case. -/
def nameSymbols : List Nat := PyString.ofText "abcdefghijklmnopqrstuvwxyz0123456789-_."

/-- The symbols of an IPv6 address, in lower case. -/
def literalSymbols : List Nat := PyString.ofText "0123456789abcdef:."

/-- A host in lower case: a name or an IPv4 address, or an IPv6 address in brackets. -/
inductive IsHost : PyString → Prop where
  | name {host : PyString} (nonempty : host ≠ []) (plain : ∀ symbol ∈ host, symbol ∈ nameSymbols) :
      IsHost host
  | bracketed {literal : PyString} (plain : ∀ symbol ∈ literal, symbol ∈ literalSymbols)
      (address : (IPAddress.ipv6Number literal).isSome) :
      IsHost (opening :: (literal ++ [closing]))

/-- A port that can be connected to. -/
structure IsPort (text : PyString) : Prop extends PyString.IsDecimal text where
  positive : 1 ≤ PyString.decimal text
  bounded : PyString.decimal text ≤ 65535

/-- A host, and a port if there is one. -/
structure Authority where
  host : PyString
  port : Option PyString
  isHost : IsHost host
  isPort : ∀ text ∈ port, IsPort text

/-- The symbols of an authority. -/
def authoritySymbols : List Nat := opening :: closing :: colon :: nameSymbols

/-- What is known of these symbols. -/
structure Plain (symbol : Nat) : Prop where
  ascii : symbol < 128
  lower : PyString.lowerASCII symbol = symbol
  inner : isDelimiter symbol = false
  user : symbol ≠ '@'.toNat
  visible : 0x20 < symbol
  unblank : PyString.isSpace symbol = false

theorem plain_of_mem {symbol : Nat} (member : symbol ∈ authoritySymbols) : Plain symbol := by
  have all : ∀ symbol ∈ authoritySymbols, symbol < 128 ∧ PyString.lowerASCII symbol = symbol ∧
      isDelimiter symbol = false ∧ symbol ≠ '@'.toNat ∧ 0x20 < symbol ∧
        PyString.isSpace symbol = false := List.all_iff_forall_prop.mp (by decide)
  obtain ⟨ascii, lower, inner, user, visible, unblank⟩ := all symbol member
  exact ⟨ascii, lower, inner, user, visible, unblank⟩

theorem mem_nameSymbols_of_isDigit {symbol : Nat} (digit : PyString.isDigit symbol = true) :
    symbol ∈ nameSymbols := by
  obtain ⟨value, small, rfl⟩ := PyString.exists_digit digit
  have all : ∀ value ∈ List.range 10, '0'.toNat + value ∈ nameSymbols :=
    List.all_iff_forall_prop.mp (by decide)
  exact all value (List.mem_range.mpr (Nat.lt_succ_of_le small))

theorem not_mem_nameSymbols :
    opening ∉ nameSymbols ∧ closing ∉ nameSymbols ∧ colon ∉ nameSymbols := by decide

theorem not_mem_literalSymbols :
    opening ∉ literalSymbols ∧ closing ∉ literalSymbols ∧ 'v'.toNat ∉ literalSymbols := by decide

theorem IsHost.plain {host : PyString} (isHost : IsHost host) :
    ∀ symbol ∈ host, symbol ∈ authoritySymbols := by
  have literals : ∀ symbol ∈ literalSymbols, symbol ∈ authoritySymbols :=
    List.all_iff_forall_prop.mp (by decide)
  intro symbol member
  cases isHost with
  | name _ plain => exact List.mem_of_mem_drop (i := 3) (plain symbol member)
  | bracketed plain _ =>
      rcases List.mem_cons.mp member with rfl | member
      · exact List.mem_cons_self
      · rcases List.mem_append.mp member with member | member
        · exact literals symbol (plain symbol member)
        · rw [List.mem_singleton.mp member]
          exact List.mem_cons_of_mem _ List.mem_cons_self

theorem IsHost.nonempty {host : PyString} (isHost : IsHost host) : host ≠ [] := by
  cases isHost with
  | name nonempty _ => exact nonempty
  | bracketed _ _ => exact List.cons_ne_nil _ _

/-- No host ends with a colon. -/
theorem IsHost.getLast?_ne {host : PyString} (isHost : IsHost host) :
    host.getLast? ≠ some colon := by
  cases isHost with
  | name _ plain =>
      exact fun last => not_mem_nameSymbols.2.2 (plain colon (List.mem_of_getLast? last))
  | bracketed _ _ =>
      rw [← List.cons_append, List.getLast?_append, List.getLast?_singleton, Option.some_or]
      decide

namespace Authority

variable (authority : Authority)

/-- The port after its colon. -/
def portText : PyString := authority.port.elim [] (colon :: ·)

/-- The authority as it is written. -/
def text : PyString := authority.host ++ authority.portText

theorem plain : ∀ symbol ∈ authority.text, symbol ∈ authoritySymbols := by
  intro symbol member
  rcases List.mem_append.mp member with member | member
  · exact authority.isHost.plain symbol member
  · cases written : authority.port with
    | none =>
        rw [portText, written] at member
        exact absurd member List.not_mem_nil
    | some port =>
        rw [portText, written] at member
        have isPort := authority.isPort port written
        rcases List.mem_cons.mp member with rfl | member
        · decide
        · exact List.mem_of_mem_drop (i := 3)
            (mem_nameSymbols_of_isDigit (isPort.digits symbol member))

theorem nonempty : authority.text ≠ [] :=
  List.append_ne_nil_of_left_ne_nil authority.isHost.nonempty _

/-- No authority ends with a colon. -/
theorem getLast?_ne : authority.text.getLast? ≠ some colon := by
  cases written : authority.port with
  | none =>
      rw [text, portText, written, Option.elim_none, List.append_nil]
      exact authority.isHost.getLast?_ne
  | some port =>
      have isPort := authority.isPort port written
      obtain ⟨front, final, split⟩ := (List.eq_nil_or_concat port).resolve_left isPort.nonempty
      rw [List.concat_eq_append] at split
      have digit := isPort.digits final (by rw [split]; exact List.mem_concat_self)
      rw [text, portText, written, Option.elim_some, split, ← List.cons_append,
        ← List.append_assoc, List.getLast?_concat, ne_eq, Option.some_inj]
      rintro rfl
      exact absurd digit (by decide)

theorem portText_plain : ∀ symbol ∈ authority.portText,
    symbol = colon ∨ PyString.isDigit symbol = true := by
  intro symbol member
  cases written : authority.port with
  | none =>
      rw [portText, written] at member
      exact absurd member List.not_mem_nil
  | some port =>
      rw [portText, written] at member
      exact (List.mem_cons.mp member).imp_right ((authority.isPort port written).digits symbol)

theorem not_mem_portText : opening ∉ authority.portText ∧ closing ∉ authority.portText :=
  ⟨fun member => absurd (authority.portText_plain _ member) (by decide),
    fun member => absurd (authority.portText_plain _ member) (by decide)⟩

/-- Without brackets in the host there are none. -/
theorem not_mem_text (plain : ∀ symbol ∈ authority.host, symbol ∈ nameSymbols) :
    opening ∉ authority.text ∧ closing ∉ authority.text := by
  obtain ⟨opens, closes⟩ := authority.not_mem_portText
  rw [text, List.mem_append, List.mem_append]
  exact ⟨(Or.elim · (fun member => not_mem_nameSymbols.1 (plain _ member)) opens),
    (Or.elim · (fun member => not_mem_nameSymbols.2.1 (plain _ member)) closes)⟩

theorem text_of_bracketed {literal : PyString}
    (bracketed : authority.host = opening :: (literal ++ [closing])) :
    authority.text = opening :: (literal ++ closing :: authority.portText) := by
  rw [text, bracketed, List.cons_append, List.append_assoc, List.singleton_append]

/-- An address in brackets is one. -/
theorem checkBracketedHost_of_literal {literal : PyString}
    (plain : ∀ symbol ∈ literal, symbol ∈ literalSymbols)
    (address : (IPAddress.ipv6Number literal).isSome) : checkBracketedHost literal = true := by
  obtain ⟨ip, found⟩ := Option.isSome_iff_exists.mp address
  have slashes : IPAddress.slash ∉ literal := fun member => absurd (plain _ member) (by decide)
  have percents : IPAddress.percent ∉ literal := fun member => absurd (plain _ member) (by decide)
  have version : literal.head? ≠ some 'v'.toNat := fun first =>
    not_mem_literalSymbols.2.2 (plain _ (List.mem_of_head? first))
  rw [checkBracketedHost, if_neg version,
    IPAddress.ipAddress_of_ipv6Number found slashes percents]

/-- The brackets of an authority pass the checks. -/
theorem brackets :
    (opening ∈ authority.text ↔ closing ∈ authority.text) ∧ (opening ∈ authority.text →
      checkBracketedHost (PyString.before closing (PyString.after opening authority.text)) =
        true) := by
  obtain ⟨host, port, isHost, isPort⟩ := authority
  cases isHost with
  | name nonempty plain =>
      obtain ⟨opens, closes⟩ := not_mem_text ⟨host, port, .name nonempty plain, isPort⟩ plain
      exact ⟨iff_of_false opens closes, fun member => absurd member opens⟩
  | bracketed plain address =>
      rename_i literal
      rw [text_of_bracketed _ rfl]
      have inner : closing ∉ literal := fun member =>
        not_mem_literalSymbols.2.1 (plain closing member)
      have after := @PyString.after_append_cons opening [] List.not_mem_nil
        (literal ++ closing :: portText ⟨_, port, .bracketed plain address, isPort⟩)
      rw [List.nil_append] at after
      rw [after, PyString.before_append_cons inner]
      refine ⟨iff_of_true List.mem_cons_self ?_, fun _ => ?_⟩
      · exact List.mem_cons_of_mem _ (List.mem_append_right _ List.mem_cons_self)
      · exact checkBracketedHost_of_literal plain address

theorem after_colon_portText :
    PyString.after colon authority.portText = authority.port.getD [] := by
  cases written : authority.port with
  | none =>
      rw [portText, written]
      rfl
  | some port =>
      rw [portText, written]
      exact @PyString.after_append_cons colon [] List.not_mem_nil port

/-- The port is read as it is written. -/
theorem portText_eq (scheme : PyString) :
    ParseResult.portText ⟨scheme, authority.text⟩ = authority.port.getD [] := by
  have whole : authority.text.rtakeWhile (· ≠ '@'.toNat) = authority.text :=
    List.rtakeWhile_eq_self_iff.mpr fun symbol member =>
      decide_eq_true (plain_of_mem (authority.plain symbol member)).user
  rw [ParseResult.portText]
  dsimp only
  rw [whole]
  obtain ⟨host, port, isHost, isPort⟩ := authority
  cases isHost with
  | name nonempty plain =>
      rw [if_neg (not_mem_text ⟨host, port, .name nonempty plain, isPort⟩ plain).1]
      have free : colon ∉ host := fun member => not_mem_nameSymbols.2.2 (plain colon member)
      cases port with
      | none =>
          rw [text, portText, Option.elim_none, List.append_nil]
          exact PyString.after_of_not_mem free
      | some port => exact PyString.after_append_cons free port
  | bracketed plain address =>
      rename_i literal
      have free : closing ∉ literal := fun member =>
        not_mem_literalSymbols.2.1 (plain closing member)
      have inner := @PyString.after_append_cons opening [] List.not_mem_nil
        (literal ++ closing :: portText ⟨_, port, .bracketed plain address, isPort⟩)
      rw [List.nil_append] at inner
      rw [text_of_bracketed _ rfl, if_pos List.mem_cons_self, inner,
        PyString.after_append_cons free]
      exact after_colon_portText ⟨_, port, .bracketed plain address, isPort⟩

theorem port_eq (scheme : PyString) :
    ParseResult.port ⟨scheme, authority.text⟩ = some (authority.port.map PyString.decimal) := by
  rw [ParseResult.port, portText_eq]
  cases written : authority.port with
  | none => rfl
  | some port =>
      have isPort := authority.isPort port written
      have digits : ¬¬port.all PyString.isDigit = true :=
        not_not_intro (List.all_eq_true.mpr isPort.digits)
      rw [Option.getD_some, if_neg isPort.nonempty, if_neg digits,
        if_neg (Nat.not_lt.mpr isPort.bounded)]
      rfl

end Authority

/-- What may follow an authority: nothing, or a path. -/
def IsPath (path : PyString) : Prop := ∀ symbol ∈ path.head?, symbol = slash

/-- The schemes of the web. -/
def schemes : List PyString := [PyString.ofText "http", PyString.ofText "https"]

section Parse

variable {front path : PyString}

theorem takeWhile_isDelimiter (authority : Authority) (isPath : IsPath path) :
    (authority.text ++ path).takeWhile (fun symbol => !isDelimiter symbol) = authority.text := by
  rw [List.takeWhile_append_of_pos]
  · cases path with
    | nil => rw [List.takeWhile_nil, List.append_nil]
    | cons symbol rest =>
        rw [isPath symbol rfl, List.takeWhile_cons_of_neg (by decide), List.append_nil]
  · intro symbol member
    rw [(plain_of_mem (authority.plain symbol member)).inner]
    rfl

/-- Only symbols of the path are taken out. -/
theorem cleaned_append (visible : ∀ symbol ∈ front, 0x20 < symbol) (nonempty : front ≠ [])
    (isPath : IsPath path) : ∃ rest, IsPath rest ∧ cleaned (front ++ path) = front ++ rest := by
  obtain ⟨first, others, rfl⟩ := List.exists_cons_of_ne_nil nonempty
  have leading : ((first :: others) ++ path).dropWhile (· ≤ 0x20) = (first :: others) ++ path :=
    List.dropWhile_cons_of_neg (by simpa using visible first List.mem_cons_self)
  have kept : (first :: others).filter (· ∉ [0x09, 0x0D, 0x0A]) = first :: others := by
    rw [List.filter_eq_self]
    intro symbol member
    have large := visible symbol member
    simp only [List.mem_cons, List.not_mem_nil, or_false, decide_eq_true_eq]
    omega
  rw [cleaned, leading, List.filter_append, kept]
  refine ⟨_, ?_, rfl⟩
  cases path with
  | nil => nofun
  | cons symbol rest =>
      obtain rfl := isPath symbol rfl
      rw [List.filter_cons_of_pos (by decide)]
      intro symbol first
      exact (Option.some.inj first).symm

/-- The parts of a URL, after its scheme is split off. -/
theorem urlparse_of_splitScheme (data : UnicodeData) (authority : Authority) {url scheme : PyString}
    (isPath : IsPath path) (split : splitScheme (cleaned url) =
      (scheme, PyString.ofText "//" ++ (authority.text ++ path))) :
    urlparse data url = some ⟨scheme, authority.text⟩ := by
  have netloc : splitNetloc (PyString.ofText "//" ++ (authority.text ++ path)) =
      authority.text := by
    have slashes : PyString.startsWith (PyString.ofText "//" ++ (authority.text ++ path))
        (PyString.ofText "//") = true := List.isPrefixOf_iff_prefix.mpr (List.prefix_append _ _)
    rw [splitNetloc, if_pos slashes]
    exact takeWhile_isDelimiter authority isPath
  obtain ⟨paired, bracketed⟩ := authority.brackets
  have ascii : checkNetloc data authority.text = true := by
    have all : authority.text.all (· < 128) = true := List.all_eq_true.mpr fun symbol member =>
      decide_eq_true (plain_of_mem (authority.plain symbol member)).ascii
    rw [checkNetloc, all]
    rfl
  rw [urlparse, split]
  dsimp only
  rw [netloc, if_neg (not_not_intro (decide_eq_decide.mpr paired)),
    if_neg (fun failed => failed.2 (bracketed failed.1)), if_pos ascii]

theorem urlparse_of_scheme (data : UnicodeData) (authority : Authority) (isPath : IsPath path)
    {scheme : PyString} (known : scheme ∈ schemes) :
    urlparse data (scheme ++ PyString.ofText "://" ++ authority.text ++ path) =
      some ⟨scheme, authority.text⟩ := by
  have facts : ∀ scheme ∈ schemes, scheme ≠ [] ∧ colon ∉ scheme ∧
      (∀ symbol ∈ scheme ++ PyString.ofText "://", 0x20 < symbol) ∧
        scheme.head?.any PyString.isLetter = true ∧ scheme.all isScheme = true ∧
          scheme.map PyString.lowerASCII = scheme := by
    intro scheme known
    rcases List.mem_pair.mp known with rfl | rfl <;>
      exact ⟨by decide, by decide, List.all_iff_forall_prop.mp (by decide), by decide, by decide,
        by decide⟩
  obtain ⟨nonempty, free, visible, letter, symbols, lower⟩ := facts scheme known
  obtain ⟨rest, isRest, clean⟩ := @cleaned_append
    (scheme ++ PyString.ofText "://" ++ authority.text) path
    (List.forall_mem_append.mpr ⟨visible, fun symbol member =>
      (plain_of_mem (authority.plain symbol member)).visible⟩)
    (List.append_ne_nil_of_right_ne_nil _ authority.nonempty) isPath
  apply urlparse_of_splitScheme data authority isRest
  have written : scheme ++ PyString.ofText "://" ++ authority.text ++ rest =
      scheme ++ colon :: (PyString.ofText "//" ++ (authority.text ++ rest)) := by
    rw [List.append_assoc, List.append_assoc]
    rfl
  have behind : (scheme ++ colon :: (PyString.ofText "//" ++ (authority.text ++ rest))).dropWhile
      (· ≠ colon) = colon :: (PyString.ofText "//" ++ (authority.text ++ rest)) := by
    rw [List.dropWhile_append_of_pos, List.dropWhile_cons_of_neg (by simp)]
    exact fun symbol member => decide_eq_true fun same => free (same ▸ member)
  have front : (scheme ++ colon :: (PyString.ofText "//" ++ (authority.text ++ rest))).takeWhile
      (· ≠ colon) = scheme := PyString.before_append_cons free _
  rw [clean, written, splitScheme, behind, front]
  dsimp only
  rw [if_pos ⟨letter, symbols⟩, lower]

theorem urlparse_of_slashes (data : UnicodeData) (authority : Authority) (isPath : IsPath path) :
    urlparse data (PyString.ofText "//" ++ authority.text ++ path) =
      some ⟨[], authority.text⟩ := by
  obtain ⟨rest, isRest, clean⟩ := @cleaned_append (PyString.ofText "//" ++ authority.text) path
    (List.forall_mem_append.mpr ⟨List.all_iff_forall_prop.mp (by decide), fun symbol member =>
      (plain_of_mem (authority.plain symbol member)).visible⟩)
    (List.append_ne_nil_of_right_ne_nil _ authority.nonempty) isPath
  apply urlparse_of_splitScheme data authority isRest
  rw [clean, List.append_assoc, splitScheme]
  split
  · rfl
  · rw [if_neg]
    rintro ⟨letter, _⟩
    have front : (PyString.ofText "//" ++ (authority.text ++ rest)).takeWhile (· ≠ colon) =
        slash :: (slash :: (authority.text ++ rest)).takeWhile (· ≠ colon) :=
      List.takeWhile_cons_of_pos (by decide)
    rw [front] at letter
    change PyString.isLetter slash = true at letter
    exact absurd letter (by decide)

end Parse

end URL

end CloudRunSsh