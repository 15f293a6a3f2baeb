import Mathlib.Data.Bool.AllAny
import CloudRunSsh.Data.Documents

/-!
# Writers of JSON

`json.dumps` of Python, `JSON.stringify` of a browser and `encoding/json` of Go.  They escape the
same symbols by letters, and differ in the other ones that they escape.  A text that becomes a part
of a page has its closing tags escaped afterwards, and documents may come one on a line.
-/

namespace CloudRunSsh.JSON

/-- The symbols that are escaped by letters. -/
def shortEscapes : List (Nat × Nat) :=
  [(0x22, 0x22), (0x5C, 0x5C), (0x08, 0x62), (0x0C, 0x66), (0x0A, 0x6E), (0x0D, 0x72),
    (0x09, 0x74)]

/-- A symbol as it is written, where some symbols are escaped. -/
def escapeSymbol (escaped : Nat → Bool) (symbol : Nat) : PyString :=
  match shortEscapes.lookup symbol with
  | some letter => [reverseSolidus, letter]
  | none =>
      if escaped symbol then
        if symbol < 0x10000 then unicodeEscape symbol
        else unicodeEscape (highSurrogate symbol) ++ unicodeEscape (lowSurrogate symbol)
      else [symbol]

theorem shortEscapes_lookup {symbol letter : Nat}
    (found : shortEscapes.lookup symbol = some letter) : escapes.lookup letter = some symbol := by
  rw [List.lookup_eq_some_iff] at found
  obtain ⟨before, after, split, _⟩ := found
  have member : (symbol, letter) ∈ shortEscapes := by
    rw [split]
    exact List.mem_append_right _ List.mem_cons_self
  have all : ∀ escape ∈ shortEscapes, escapes.lookup escape.2 = some escape.1 :=
    List.all_iff_forall_prop.mp (by decide)
  exact all _ member

section Escapes

variable {escaped : Nat → Bool} (controls : ∀ symbol < 0x20, escaped symbol = true)

include controls

theorem spells_escapeSymbol {symbol : Nat} (small : symbol ≤ 0x10FFFF) {symbols text : PyString}
    (others : Spells symbols text) :
    Spells (symbol :: symbols) (escapeSymbol escaped symbol ++ text) := by
  rw [escapeSymbol]
  split
  · rename_i letter found
    exact .letter (shortEscapes_lookup found) others
  · rename_i none
    split
    · split
      · rename_i below
        exact .unit below others
      · rename_i above
        rw [List.append_assoc]
        exact .pair (Nat.le_of_not_lt above) small others
    · rename_i plain
      have printable : 0x20 ≤ symbol :=
        Nat.le_of_not_lt fun control => plain (controls symbol control)
      refine .plain printable ?_ ?_ others
      · rintro rfl
        cases none
      · rintro rfl
        cases none

theorem spells_flatMap {symbols : PyString} (small : ∀ symbol ∈ symbols, symbol ≤ 0x10FFFF) :
    Spells symbols (symbols.flatMap (escapeSymbol escaped)) := by
  induction symbols with
  | nil => exact .nil
  | cons symbol symbols ih =>
      obtain ⟨first, others⟩ := List.forall_mem_cons.mp small
      rw [List.flatMap_cons]
      exact spells_escapeSymbol controls first (ih others)

end Escapes

/-- The style of a writer that escapes the given symbols. -/
def Style.ofEscaped (escaped : Nat → Bool) (controls : ∀ symbol < 0x20, escaped symbol = true)
    (gap : PyString) (blanks : ∀ symbol ∈ gap, isBlank symbol = true) : Style where
  quote symbols := symbols.flatMap (escapeSymbol escaped)
  gap := gap
  spells _ small := spells_flatMap controls small
  blanks := blanks

/-- `json.dumps`: what is not printable ASCII is escaped. -/
def dumpsStyle : Style :=
  .ofEscaped (fun symbol => symbol < 0x20 || 0x7E < symbol) (by simp +contextual) [0x20]
    (by simp [isBlank])

/-- `JSON.stringify`: surrogates that are no pair are escaped. -/
def stringifyStyle : Style :=
  .ofEscaped (fun symbol => symbol < 0x20 || isHighSurrogate symbol || isLowSurrogate symbol)
    (by simp +contextual) [] (List.forall_mem_nil _)

/-- `encoding/json`: what means something in HTML is escaped, and the line ends of JavaScript. -/
def marshalStyle : Style :=
  .ofEscaped (fun symbol => symbol < 0x20 || symbol ∈ [0x26, 0x3C, 0x3E, 0x2028, 0x2029])
    (by simp +contextual) [] (List.forall_mem_nil _)

def lessThan : Nat := 0x3C

def solidus : Nat := 0x2F

/-- `text.replace("</", "<\\/")`. -/
def escapeTags : PyString → PyString
  | [] => []
  | [symbol] => [symbol]
  | first :: second :: rest =>
      if first = lessThan ∧ second = solidus then
        first :: reverseSolidus :: second :: escapeTags rest
      else first :: escapeTags (second :: rest)

section Tags

variable {symbols text : PyString}

theorem escapeTags_cons {symbol : Nat} (other : symbol ≠ lessThan) (text : PyString) :
    escapeTags (symbol :: text) = symbol :: escapeTags text := by
  cases text with
  | nil => rw [escapeTags, escapeTags]
  | cons second rest => rw [escapeTags, if_neg fun tag => other tag.1]

/-- The text after the first symbol is escaped by itself, but for the slash of a closing tag. -/
theorem escapeTags_lessThan (text : PyString) :
    escapeTags (lessThan :: text) = lessThan :: escapeTags text ∨
      ∃ rest, text = solidus :: rest ∧ escapeTags (lessThan :: text) =
        lessThan :: reverseSolidus :: escapeTags text := by
  cases text with
  | nil =>
      rw [escapeTags, escapeTags]
      exact .inl rfl
  | cons second rest =>
      by_cases slash : second = solidus
      · subst slash
        refine .inr ⟨rest, rfl, ?_⟩
        rw [escapeTags, if_pos ⟨rfl, rfl⟩, escapeTags_cons (by decide)]
      · rw [escapeTags, if_neg fun tag => slash tag.2]
        exact .inl rfl

theorem escapeTags_of_not_mem {front : PyString} (free : lessThan ∉ front) (text : PyString) :
    escapeTags (front ++ text) = front ++ escapeTags text := by
  induction front with
  | nil => rfl
  | cons symbol front ih =>
      rw [List.mem_cons, not_or] at free
      rw [List.cons_append, escapeTags_cons (Ne.symm free.1), ih free.2, List.cons_append]

/-- No closing tag goes across the two parts. -/
theorem escapeTags_append (text : PyString) {rest : PyString} (free : rest.head? ≠ some solidus) :
    escapeTags (text ++ rest) = escapeTags text ++ escapeTags rest := by
  induction text using escapeTags.induct with
  | case1 => rfl
  | case2 symbol =>
      cases rest with
      | nil => rw [List.append_nil, escapeTags, List.append_nil]
      | cons second rest =>
          rw [List.head?_cons, Ne, Option.some_inj] at free
          exact if_neg fun tag => free tag.2
  | case3 first second text tag ih =>
      rw [escapeTags, if_pos tag, List.cons_append, List.cons_append, escapeTags, if_pos tag, ih]
      rfl
  | case4 first second text noTag ih =>
      rw [escapeTags, if_neg noTag, List.cons_append, List.cons_append, escapeTags, if_neg noTag,
        ← List.cons_append, ih]
      rfl

/-- A plain slash can be escaped. -/
theorem Spells.solidus (spells : Spells symbols (solidus :: text)) :
    Spells symbols (reverseSolidus :: JSON.solidus :: text) := by
  generalize whole : JSON.solidus :: text = spelled at spells
  cases spells with
  | nil => cases whole
  | plain printable unquoted unescaped others =>
      obtain ⟨rfl, rfl⟩ := List.cons.inj whole
      exact .letter rfl others
  | letter found others => cases (List.cons.inj whole).1
  | unit small others => cases (List.cons.inj whole).1
  | pair large small others => cases (List.cons.inj whole).1

theorem not_mem_unicodeEscape (unit : Nat) : lessThan ∉ unicodeEscape unit := by
  have digit (value : Nat) : lessThan ≠ hexSymbol (value % 16) := by
    rw [hexSymbol, lessThan, zero]
    split <;> omega
  simp only [unicodeEscape, hexUnit, List.mem_cons, List.not_mem_nil, or_false, not_or]
  exact ⟨by decide, by decide, digit _, digit _, digit _, digit _⟩

theorem Spells.escapeTags (spells : Spells symbols text) : Spells symbols (escapeTags text) := by
  induction spells with
  | nil => exact .nil
  | @plain symbol symbols text printable unquoted unescaped others ih =>
      by_cases opens : symbol = lessThan
      · subst opens
        rcases escapeTags_lessThan text with same | ⟨rest, rfl, same⟩
        · rw [same]
          exact .plain printable unquoted unescaped ih
        · rw [same, escapeTags_cons (by decide)]
          rw [escapeTags_cons (by decide)] at ih
          exact .plain printable unquoted unescaped ih.solidus
      · rw [escapeTags_cons opens]
        exact .plain printable unquoted unescaped ih
  | @letter letter symbol symbols text found others ih =>
      have other : letter ≠ lessThan := by
        rintro rfl
        cases found
      rw [escapeTags_cons (by decide), escapeTags_cons other]
      exact .letter found ih
  | unit small others ih =>
      rw [escapeTags_of_not_mem (not_mem_unicodeEscape _)]
      exact .unit small ih
  | pair large small others ih =>
      rw [escapeTags_of_not_mem (not_mem_unicodeEscape _),
        escapeTags_of_not_mem (not_mem_unicodeEscape _)]
      exact .pair large small ih

end Tags

/-- Closing tags within strings are escaped. -/
def Style.withTags (style : Style) : Style where
  quote symbols := escapeTags (style.quote symbols)
  gap := style.gap
  spells symbols small := (style.spells symbols small).escapeTags
  blanks := style.blanks

section Documents

variable (style : Style)

theorem escapeTags_of_free {text : PyString} (free : lessThan ∉ text) : escapeTags text = text := by
  have same := escapeTags_of_not_mem free []
  rwa [List.append_nil, escapeTags, List.append_nil] at same

theorem Style.not_mem_gap : lessThan ∉ style.gap := by
  intro member
  have blank := style.blanks _ member
  cases blank

theorem escapeTags_string (symbols : PyString) :
    escapeTags (style.string symbols) = style.withTags.string symbols := by
  rw [Style.string, Style.string, List.cons_append, escapeTags_cons (by decide),
    escapeTags_append _ (by decide), escapeTags_of_free (show lessThan ∉ [quotationMark] by decide)]
  rfl

/-- No closing tag goes across a separator. -/
theorem Style.escapeTags_separate {separator : Nat}
    (free : separator ≠ lessThan ∧ separator ≠ solidus) (text rest : PyString) :
    escapeTags (text ++ separator :: (style.gap ++ rest)) =
      escapeTags text ++ separator :: (style.gap ++ escapeTags rest) := by
  have head : (separator :: (style.gap ++ rest)).head? ≠ some solidus :=
    fun same => free.2 (Option.some.inj same)
  rw [escapeTags_append _ head, escapeTags_cons free.1, escapeTags_of_not_mem style.not_mem_gap]

theorem Style.escapeTags_member (key item : PyString) :
    escapeTags (style.member key item) = style.withTags.member key (escapeTags item) := by
  rw [Style.member, Style.member, List.append_assoc, List.cons_append,
    style.escapeTags_separate (by decide), escapeTags_string, List.append_assoc]
  rfl

theorem escapeTags_sequence (items : List PyString) :
    escapeTags (style.sequence items) = style.withTags.sequence (items.map escapeTags) := by
  induction items with
  | nil => rfl
  | cons first items ih =>
      cases items with
      | nil => rw [List.map_singleton, Style.sequence_singleton, Style.sequence_singleton]
      | cons second items =>
          rw [List.map_cons, List.map_cons, Style.sequence_cons_cons, Style.sequence_cons_cons,
            style.escapeTags_separate (by decide), ih]
          rfl

/-- A sequence in brackets. -/
theorem escapeTags_enclosed {first last : Nat} (opens : first ≠ lessThan)
    (closes : last ≠ solidus) (text : PyString) :
    escapeTags (first :: text ++ [last]) = first :: escapeTags text ++ [last] := by
  have head : [last].head? ≠ some solidus := fun same => closes (Option.some.inj same)
  rw [List.cons_append, escapeTags_cons opens, escapeTags_append _ head]
  rfl

/-- What is escaped in the text is what the writer could have escaped. -/
theorem Style.render_withTags {digits depth : Nat} {document : Document}
    (fits : document.Fits digits depth) :
    style.withTags.render document = escapeTags (style.render document) := by
  induction fits with
  | null =>
      rw [Style.render, Style.render]
      exact (escapeTags_of_free (by decide)).symm
  | @bool _ value =>
      cases value <;> rw [Style.render, Style.render] <;>
        exact (escapeTags_of_free (by decide)).symm
  | @int _ value _ =>
      rw [Style.render, Style.render, escapeTags_of_free]
      intro member
      rw [integerText] at member
      split at member
      · rcases List.mem_cons.mp member with same | member
        · cases same
        · cases PyString.isDigit_decimalText member
      · cases PyString.isDigit_decimalText member
  | string _ => rw [Style.render, Style.render, escapeTags_string]
  | @array _ elements _ ih =>
      have texts : elements.map style.withTags.render =
          (elements.map style.render).map escapeTags := by
        rw [List.map_map]
        exact List.map_congr_left ih
      rw [Style.render, Style.render, Style.elements_eq_map, Style.elements_eq_map,
        escapeTags_enclosed (by decide) (by decide), escapeTags_sequence, texts]
  | @object _ members _ _ _ ih =>
      have texts : (members.map fun member =>
          style.withTags.member member.1 (style.withTags.render member.2)) =
          (members.map fun member => style.member member.1 (style.render member.2)).map
            escapeTags := by
        rw [List.map_map]
        refine List.map_congr_left fun member within => ?_
        rw [ih member within]
        exact (style.escapeTags_member _ _).symm
      rw [Style.render, Style.render, Style.members_eq_map, Style.members_eq_map,
        escapeTags_enclosed (by decide) (by decide), escapeTags_sequence, texts]

end Documents

def newline : Nat := 0x0A

/-- A document on a line of its own. -/
def Style.line (style : Style) (document : Document) : PyString :=
  style.render document ++ [newline]

/-- The lines that have ended. -/
def completeLines (text : PyString) : List PyString := (text.splitOn newline).dropLast

section Lines

variable {style : Style}

theorem Spells.printable {symbols text : PyString} (spells : Spells symbols text) :
    ∀ symbol ∈ text, 0x20 ≤ symbol := by
  have escape (code : Nat) : ∀ symbol ∈ unicodeEscape code, 0x20 ≤ symbol := by
    have digit (value : Nat) : 0x20 ≤ hexSymbol (value % 16) := by
      rw [hexSymbol, zero]
      split <;> omega
    simp only [unicodeEscape, hexUnit, List.forall_mem_cons, List.not_mem_nil, false_imp_iff,
      implies_true, and_true]
    exact ⟨by decide, by decide, digit _, digit _, digit _, digit _⟩
  induction spells with
  | nil => exact List.forall_mem_nil _
  | plain printable _ _ _ ih => exact List.forall_mem_cons.mpr ⟨printable, ih⟩
  | @letter letter symbol _ _ found _ ih =>
      have all : ∀ escape ∈ escapes, 0x20 ≤ escape.1 := List.all_iff_forall_prop.mp (by decide)
      obtain ⟨before, after, split, _⟩ := List.lookup_eq_some_iff.mp found
      have known : (letter, symbol) ∈ escapes := by
        rw [split]
        exact List.mem_append_right _ List.mem_cons_self
      exact List.forall_mem_cons.mpr ⟨by decide, List.forall_mem_cons.mpr ⟨all _ known, ih⟩⟩
  | unit _ _ ih => exact List.forall_mem_append.mpr ⟨escape _, ih⟩
  | pair _ _ _ ih =>
      exact List.forall_mem_append.mpr ⟨escape _, List.forall_mem_append.mpr ⟨escape _, ih⟩⟩

theorem printable_integerText (value : Int) : ∀ symbol ∈ integerText value, 0x20 ≤ symbol := by
  have digits : ∀ symbol ∈ PyString.decimalText value.natAbs, 0x20 ≤ symbol := by
    intro symbol member
    have digit := PyString.isDigit_decimalText member
    rw [PyString.isDigit, Bool.and_eq_true_iff, decide_eq_true_iff] at digit
    exact Nat.le_trans (by decide) digit.1
  rw [integerText]
  split
  · exact List.forall_mem_cons.mpr ⟨by decide, digits⟩
  · exact digits

theorem Style.printable_string (style : Style) {symbols : PyString} (joined : Joined symbols) :
    ∀ symbol ∈ style.string symbols, 0x20 ≤ symbol := by
  have quoted := (style.spells symbols joined.codes).printable
  exact List.forall_mem_append.mpr ⟨List.forall_mem_cons.mpr ⟨by decide, quoted⟩,
    List.forall_mem_singleton.mpr (by decide)⟩

section Printable

variable (gap : ∀ symbol ∈ style.gap, 0x20 ≤ symbol)

include gap

theorem Style.printable_sequence {items : List PyString}
    (printable : ∀ item ∈ items, ∀ symbol ∈ item, 0x20 ≤ symbol) :
    ∀ symbol ∈ style.sequence items, 0x20 ≤ symbol := by
  induction items with
  | nil => exact List.forall_mem_nil _
  | cons first items ih =>
      obtain ⟨front, others⟩ := List.forall_mem_cons.mp printable
      cases items with
      | nil => rwa [style.sequence_singleton]
      | cons second items =>
          rw [style.sequence_cons_cons]
          exact List.forall_mem_append.mpr ⟨front, List.forall_mem_cons.mpr ⟨by decide,
            List.forall_mem_append.mpr ⟨gap, ih others⟩⟩⟩

/-- A text of JSON has no line ends of its own, if there are none after its separators. -/
theorem Style.printable_render {digits depth : Nat} {document : Document}
    (fits : document.Fits digits depth) : ∀ symbol ∈ style.render document, 0x20 ≤ symbol := by
  have enclosed {first last : Nat} {text : PyString} (opens : 0x20 ≤ first) (closes : 0x20 ≤ last)
      (inside : ∀ symbol ∈ text, 0x20 ≤ symbol) :
      ∀ symbol ∈ first :: text ++ [last], 0x20 ≤ symbol :=
    List.forall_mem_append.mpr ⟨List.forall_mem_cons.mpr ⟨opens, inside⟩,
      List.forall_mem_singleton.mpr closes⟩
  induction fits with
  | null =>
      rw [Style.render]
      decide
  | @bool _ value =>
      cases value <;> rw [Style.render] <;> decide
  | int _ =>
      rw [Style.render]
      exact printable_integerText _
  | string joined =>
      rw [Style.render]
      exact style.printable_string joined
  | array _ ih =>
      rw [Style.render, Style.elements_eq_map]
      exact enclosed (by decide) (by decide)
        (Style.printable_sequence gap (List.forall_mem_map.mpr ih))
  | object _ keys _ ih =>
      rw [Style.render, Style.members_eq_map]
      refine enclosed (by decide) (by decide)
        (Style.printable_sequence gap (List.forall_mem_map.mpr fun member within => ?_))
      exact List.forall_mem_append.mpr ⟨List.forall_mem_append.mpr
        ⟨style.printable_string (keys member within), List.forall_mem_cons.mpr ⟨by decide, gap⟩⟩,
        ih member within⟩

end Printable

theorem completeLines_append {line : PyString} (plain : newline ∉ line) (rest : PyString) :
    completeLines (line ++ newline :: rest) = line :: completeLines rest := by
  rw [completeLines, List.splitOn_append_cons_self_of_not_mem plain,
    List.dropLast_cons_of_ne_nil (List.splitOn_ne_nil _ _), completeLines]

theorem completeLines_of_not_mem {text : PyString} (plain : newline ∉ text) :
    completeLines text = [] := by
  rw [completeLines, List.splitOn_eq_singleton plain, List.dropLast_singleton]

/-- Of lines that have arrived in part, those that have ended are read. -/
theorem completeLines_of_prefixed {lines : List PyString} (plain : ∀ line ∈ lines, newline ∉ line)
    {received : PyString} (arrived : received <+: lines.flatMap (· ++ [newline])) :
    completeLines received = lines.take (received.count newline) := by
  induction lines generalizing received with
  | nil =>
      rw [List.prefix_nil.mp arrived]
      rfl
  | cons line lines ih =>
      obtain ⟨own, others⟩ := List.forall_mem_cons.mp plain
      rw [List.flatMap_cons] at arrived
      by_cases short : received.length ≤ line.length
      · have within : received <+: line := List.prefix_of_prefix_length_le arrived
          ((List.prefix_append _ _).trans (List.prefix_append _ _)) short
        have none : newline ∉ received := fun member => own (within.subset member)
        rw [completeLines_of_not_mem none, List.count_eq_zero.mpr none, List.take_zero]
      · -- the line has ended, and the rest is of the others
        have ended : line ++ [newline] <+: received := List.prefix_of_prefix_length_le
          (List.prefix_append _ _) arrived (by simp; omega)
        obtain ⟨rest, rfl⟩ := ended
        have later := ih others ((List.prefix_append_right_inj _).mp arrived)
        rw [List.append_assoc, List.singleton_append, completeLines_append own, later,
          List.count_append, List.count_cons_self, List.count_eq_zero.mpr own, Nat.zero_add,
          List.take_succ_cons]

theorem newline_not_mem_render (gap : ∀ symbol ∈ style.gap, 0x20 ≤ symbol) {document : Document}
    (fits : ∃ digits depth, document.Fits digits depth) : newline ∉ style.render document := by
  obtain ⟨digits, depth, fits⟩ := fits
  exact fun inside => absurd (Style.printable_render gap fits _ inside) (by decide)

/-- There is a line for each document. -/
theorem count_newline {documents : List Document} (gap : ∀ symbol ∈ style.gap, 0x20 ≤ symbol)
    (fits : ∀ document ∈ documents, ∃ digits depth, document.Fits digits depth) :
    (documents.flatMap style.line).count newline = documents.length := by
  induction documents with
  | nil => rfl
  | cons document documents ih =>
      obtain ⟨own, others⟩ := List.forall_mem_cons.mp fits
      rw [List.flatMap_cons, List.count_append, ih others, Style.line, List.count_append,
        List.count_eq_zero.mpr (newline_not_mem_render gap own), List.count_singleton_self,
        List.length_cons]
      omega

/-- Of documents on lines, those whose lines have arrived are read, in order. -/
theorem parse_completeLines {documents : List Document}
    (gap : ∀ symbol ∈ style.gap, 0x20 ≤ symbol)
    (fits : ∀ document ∈ documents, ∃ digits depth, document.Fits digits depth)
    {received : PyString}
    (arrived : received <+: documents.flatMap style.line) :
    (completeLines received).map parse =
      (documents.take (received.count newline)).map fun document => some document.value := by
  have plain : ∀ line ∈ documents.map style.render, newline ∉ line := by
    exact List.forall_mem_map.mpr fun document member =>
      newline_not_mem_render gap (fits document member)
  have lines : documents.flatMap style.line =
      (documents.map style.render).flatMap (· ++ [newline]) := by
    rw [List.flatMap_map]
    rfl
  rw [lines] at arrived
  rw [completeLines_of_prefixed plain arrived, ← List.map_take, List.map_map]
  refine List.map_congr_left fun document member => ?_
  obtain ⟨digits, depth, fits⟩ := fits document (List.mem_of_mem_take member)
  exact parse_render fits

end Lines

theorem head_joinUnits {first symbol : Nat} {units : List Nat}
    (head : symbol ∈ (joinUnits (first :: units)).head?) : symbol = first ∨ 0x10000 ≤ symbol := by
  cases units with
  | nil =>
      rw [joinUnits] at head
      exact .inl (Option.some.inj head).symm
  | cons second units =>
      rw [joinUnits] at head
      split at head
      · rename_i pair
        rw [Bool.and_eq_true_iff] at pair
        rw [← Option.some.inj head]
        exact .inr (joinSurrogates_range pair.1 pair.2).1
      · exact .inl (Option.some.inj head).symm

/-- The code points of units have no pair left. -/
theorem joined_joinUnits {units : List Nat} (small : ∀ unit ∈ units, unit < 0x10000) :
    Joined (joinUnits units) := by
  induction units using joinUnits.induct with
  | case1 high low rest pair ih =>
      rw [Bool.and_eq_true_iff] at pair
      have range := joinSurrogates_range pair.1 pair.2
      have joined := ih (List.forall_mem_cons.mp (List.forall_mem_cons.mp small).2).2
      rw [joinUnits, if_pos (by simp [pair])]
      refine ⟨List.isChain_cons.mpr ⟨fun next _ surrogates => ?_, joined.apart⟩,
        List.forall_mem_cons.mpr ⟨range.2, joined.codes⟩⟩
      have high := isHighSurrogate_iff.mp surrogates.1
      omega
  | case2 high low rest single ih =>
      obtain ⟨unit, others⟩ := List.forall_mem_cons.mp small
      have joined := ih others
      rw [joinUnits, if_neg single]
      refine ⟨List.isChain_cons.mpr ⟨fun next head surrogates => ?_, joined.apart⟩,
        List.forall_mem_cons.mpr ⟨by omega, joined.codes⟩⟩
      rcases head_joinUnits head with rfl | large
      · exact single (by simp [surrogates])
      · have low := isLowSurrogate_iff.mp surrogates.2
        omega
  | case3 unit =>
      rw [joinUnits]
      have bound := List.forall_mem_singleton.mp small
      exact ⟨.singleton _, List.forall_mem_singleton.mpr (by omega)⟩
  | case4 => exact .nil

end CloudRunSsh.JSON
