import CloudRunSsh.Data.Printf

/-!
# The formats that `printf` prints as they are

What is printed is the format itself if and only if each of its conversions is one that
fails and every escape sequence stands for itself.  The percent signs and backslashes that
are printed are counted: none is printed that does not come from one of the format.
-/

namespace CloudRunSsh

open Percent (bytesOf)

namespace Printf

variable {printf : Printf} {text : List Char}

/-- No more marks are printed than the format has, and fewer unless each of its conversions
is refused. -/
theorem marks_printFrom (printf : Printf) (skip : Nat) (text : List Char) :
    marks (printf.printFrom skip text) ≤ marks (bytesOf (text.drop skip)) ∧
      (marks (bytesOf (text.drop skip)) ≤ marks (printf.printFrom skip text) →
        AfterEach '%' (fun rest => isRefused rest = true) (text.drop skip)) := by
  induction text generalizing skip with
  | nil =>
      rw [List.drop_nil]
      exact ⟨Nat.le_refl 0, fun _ => AfterEach.nil⟩
  | cons char rest ih =>
      cases skip with
      | succ skip => exact ih skip
      | zero =>
          rw [printFrom, List.drop_zero, Percent.bytesOf_cons, marks_append]
          split
          · rename_i percent
            subst percent
            have one : marks (String.utf8EncodeChar '%') = 1 := rfl
            cases refused : isRefused rest with
            | true =>
                obtain ⟨front, taken, converted, plainFront, plainTaken⟩ :=
                  printf.convert_of_refused refused
                have later := ih taken
                have printed : marks (0x25 :: bytesOf front) = 1 + marks (bytesOf front) :=
                  marks_append [0x25] _
                simp only [converted]
                rw [one, marks_append, printed, plainFront.marks, marks_take_drop rest taken,
                  plainTaken.marks]
                refine ⟨by omega, ?_⟩
                intro kept
                exact AfterEach.cons_mark refused
                  (AfterEach.of_drop plainTaken.percent (later.2 (by omega)))
            | false =>
                rw [convert_of_not_refused printf refused, one]
                suffices less : _ < 1 + marks (bytesOf rest) from
                  ⟨Nat.le_of_lt less, fun kept => absurd less (Nat.not_lt.mpr kept)⟩
                split
                · rename_i bytes taken conversion
                  have here := printf.conversion_marks conversion
                  have later := (ih taken).1
                  rw [marks_append, marks_take_drop rest taken]
                  omega
                · exact Nat.lt_add_right _ Nat.one_pos
          · rename_i percent
            split
            · rename_i backslash
              have one : marks (String.utf8EncodeChar char) = 1 := by
                rw [backslash]
                rfl
              have here := printf.marks_escape_le rest
              have later := ih (printf.escape rest).2
              rw [one, marks_append, marks_take_drop rest (printf.escape rest).2]
              refine ⟨by omega, ?_⟩
              intro kept
              exact AfterEach.cons percent
                (AfterEach.of_drop (printf.percent_not_taken rest) (later.2 (by omega)))
            · rename_i backslash
              have later := ih 0
              rw [marks_append, marks_plain percent backslash]
              rw [List.drop_zero] at later
              refine ⟨by omega, ?_⟩
              intro kept
              exact AfterEach.cons percent (later.2 (by omega))

/-- There is one way to split bytes before their first mark. -/
theorem append_mark_inj {front other rest others : List UInt8} {first second : UInt8}
    (plain : marks front = 0) (plainOther : marks other = 0) (marked : isMark first = true)
    (markedOther : isMark second = true)
    (same : front ++ first :: rest = other ++ second :: others) :
    front = other ∧ first = second ∧ rest = others := by
  rw [marks_eq_zero] at plain plainOther
  induction front generalizing other with
  | nil =>
      cases other with
      | nil => exact ⟨rfl, List.cons.inj same⟩
      | cons byte bytes =>
          rw [(List.cons.inj same).1, plainOther byte List.mem_cons_self] at marked
          cases marked
  | cons head tail ih =>
      cases other with
      | nil =>
          rw [← (List.cons.inj same).1, plain head List.mem_cons_self] at markedOther
          cases markedOther
      | cons byte bytes =>
          obtain ⟨rfl, later⟩ := List.cons.inj same
          rw [List.forall_mem_cons] at plain plainOther
          obtain ⟨rfl, sides⟩ := ih plain.2 plainOther.2 later
          exact ⟨rfl, sides⟩

/-- An escape sequence that prints as many marks as it takes prints one, first. -/
theorem escape_of_marks (kept : 1 + marks (bytesOf text) ≤ marks (printf.escape text).1 +
      marks (bytesOf (text.drop (printf.escape text).2))) :
    Takes text (printf.escape text) ∧
      ∃ first tail, (printf.escape text).1 = first :: tail ∧ isMark first = true := by
  rw [marks_take_drop text (printf.escape text).2] at kept
  rcases printf.escape_spec text with ⟨rest, rfl, printed⟩ | takes
  · rw [printed] at kept
    change 1 + (1 + _) ≤ 1 + _ at kept
    omega
  · refine ⟨takes, ?_⟩
    cases printed : (printf.escape text).1 with
    | nil =>
        rw [printed] at kept
        change 1 + _ ≤ 0 + _ at kept
        omega
    | cons first tail =>
        have tailPlain := takes.2
        rw [printed, List.tail_cons, ← marks_eq_zero] at tailPlain
        have split : marks (first :: tail) = marks [first] + marks tail :=
          marks_append [first] tail
        refine ⟨first, tail, rfl, ?_⟩
        cases marked : isMark first with
        | true => rfl
        | false =>
            have zero : marks [first] = 0 := by
              rw [marks_eq_zero, List.forall_mem_singleton]
              exact marked
            rw [printed] at kept
            omega

/-- A refused conversion that is printed as it is has no modifiers, and what follows is
printed as it is. -/
theorem reprinted_of_same {front other : List UInt8} (refused : isRefused text = true)
    (plain : marks front = 0) (plainOther : marks other = 0)
    (same : front ++ printf.printFrom 0 ('%' :: text) = other ++ bytesOf ('%' :: text)) :
    front = other ∧ isReprinted text = true ∧ printf.printFrom 0 text = bytesOf text := by
  rw [printFrom, if_pos rfl, convert, Percent.bytesOf_cons] at same
  cases reprinted : isReprinted text with
  | true =>
      rw [if_pos reprinted] at same
      obtain ⟨agree, _, later⟩ := append_mark_inj plain plainOther rfl rfl same
      exact ⟨agree, rfl, later⟩
  | false =>
      rw [if_neg (ne_true_of_eq_false reprinted), if_pos refused] at same
      obtain ⟨_, _, later⟩ := append_mark_inj plain plainOther rfl rfl same
      obtain ⟨modifier, rest, after, isModifier⟩ := modifier_of_refused refused reprinted
      obtain ⟨ascii, _, _, parenthesis⟩ := modifier_plain isModifier
      have texts : bytesOf (fields text) ++ (0x28 :: printf.printFrom _ text) =
          bytesOf (fields text) ++ (String.utf8EncodeChar modifier ++ bytesOf rest) :=
        calc bytesOf (fields text) ++ (0x28 :: printf.printFrom _ text)
          _ = bytesOf (fields text ++ ['(']) ++ printf.printFrom _ text := by
              rw [Percent.bytesOf_append, List.append_assoc]
              rfl
          _ = bytesOf text := later
          _ = bytesOf (fields text ++ modifier :: rest) := by
              rw [← after, (fields_spec text).1]
          _ = _ := by rw [Percent.bytesOf_append, Percent.bytesOf_cons]
      have bytes := List.append_cancel_left texts
      rw [Percent.utf8EncodeChar_ascii ascii] at bytes
      have codes := congrArg UInt8.toNat (List.cons.inj bytes).1
      rw [UInt8.toNat_ofNat', Nat.mod_eq_of_lt (by omega)] at codes
      exact absurd (Char.toNat_inj.mp codes.symm) parenthesis

/-- What is printed is the format itself only if each escape sequence and each conversion
stands for itself: each mark that is printed comes from one of the format, so that the
first ones agree, and so on. -/
theorem unescaped_of_printFrom {front other : List UInt8} {skip : Nat}
    (plain : marks front = 0) (plainOther : marks other = 0)
    (refused : AfterEach '%' (fun rest => isRefused rest = true) (text.drop skip))
    (same : front ++ printf.printFrom skip text = other ++ bytesOf (text.drop skip)) :
    front = other ∧ AfterEach '%' (fun rest => isReprinted rest = true) (text.drop skip) ∧
      AfterEach '\\' printf.EscapesItself (text.drop skip) := by
  induction text generalizing skip front other with
  | nil =>
      rw [List.drop_nil] at same ⊢
      exact ⟨by simpa [printFrom] using same, AfterEach.nil, AfterEach.nil⟩
  | cons char rest ih =>
      cases skip with
      | succ skip => exact ih plain plainOther refused same
      | zero =>
          rw [List.drop_zero] at refused same ⊢
          have restRefused := refused.of_suffix (List.suffix_cons char rest)
          by_cases percent : char = '%'
          · subst percent
            obtain ⟨agree, reprinted, later⟩ :=
              reprinted_of_same (refused rest (List.suffix_refl _)) plain plainOther same
            obtain ⟨_, unconverted, unescaped⟩ :=
              @ih [] [] 0 rfl rfl restRefused later
            exact ⟨agree, unconverted.cons_mark reprinted, unescaped.cons (by decide)⟩
          rw [printFrom, if_neg percent, Percent.bytesOf_cons] at same
          split at same
          · rename_i backslash
            subst backslash
            change front ++ ((printf.escape rest).1 ++ _) = other ++ 0x5C :: bytesOf rest at same
            have totals := congrArg marks same
            have one : marks (0x5C :: bytesOf rest) = 1 + marks (bytesOf rest) :=
              marks_append [0x5C] _
            have bound := (printf.marks_printFrom (printf.escape rest).2 rest).1
            rw [marks_append, marks_append, marks_append, plain, plainOther, one] at totals
            obtain ⟨takes, first, tail, printed, marked⟩ :=
              @escape_of_marks printf rest (by omega)
            have tailPlain := takes.2
            rw [printed, List.tail_cons, ← marks_eq_zero] at tailPlain
            rw [printed, List.cons_append] at same
            obtain ⟨agree, head, later⟩ :=
              append_mark_inj plain plainOther marked (by decide) same
            rw [← List.take_append_drop (printf.escape rest).2 rest, Percent.bytesOf_append,
              List.take_append_drop] at later
            obtain ⟨taken, unconverted, unescaped⟩ := ih tailPlain takes.marks_le.2
              (restRefused.of_suffix (List.drop_suffix _ rest)) later
            have itself : printf.EscapesItself rest := by
              rw [EscapesItself, printed, head, taken]
            exact ⟨agree, (unconverted.of_drop takes.1.percent).cons percent,
              (unescaped.of_drop takes.1.backslash).cons_mark itself⟩
          · rename_i backslash
            have extra := marks_plain percent backslash
            rw [← List.append_assoc, ← List.append_assoc] at same
            obtain ⟨agree, unconverted, unescaped⟩ := @ih (front ++ String.utf8EncodeChar char)
              (other ++ String.utf8EncodeChar char) 0
              (by rw [marks_append, plain, extra]) (by rw [marks_append, plainOther, extra])
              restRefused same
            exact ⟨List.append_cancel_right agree, unconverted.cons percent,
              unescaped.cons backslash⟩

theorem printFrom_of_unescaped {skip : Nat}
    (unconverted : AfterEach '%' (fun rest => isReprinted rest = true) (text.drop skip))
    (unescaped : AfterEach '\\' printf.EscapesItself (text.drop skip)) :
    printf.printFrom skip text = bytesOf (text.drop skip) := by
  induction text generalizing skip with
  | nil => rw [List.drop_nil, printFrom, Percent.bytesOf_nil]
  | cons char rest ih =>
      cases skip with
      | succ skip => exact ih unconverted unescaped
      | zero =>
          rw [List.drop_zero] at unconverted unescaped ⊢
          have restUnconverted := unconverted.of_suffix (List.suffix_cons char rest)
          have restUnescaped := unescaped.of_suffix (List.suffix_cons char rest)
          have later := @ih 0 restUnconverted restUnescaped
          rw [printFrom]
          split
          · rename_i percent
            subst percent
            have reprinted := unconverted rest (List.suffix_refl _)
            rw [convert, if_pos reprinted]
            change [0x25] ++ printf.printFrom 0 rest = _
            rw [later]
            rfl
          split
          · rename_i backslash
            subst backslash
            have itself : (printf.escape rest).1 = _ := unescaped rest (List.suffix_refl _)
            rw [itself, ih (restUnconverted.of_suffix (List.drop_suffix _ rest))
              (restUnescaped.of_suffix (List.drop_suffix _ rest)), List.cons_append,
              ← Percent.bytesOf_append, List.take_append_drop]
            rfl
          · rw [later]
            rfl

/-- The bytes as characters, one by one. -/
def latin1 (bytes : List UInt8) : List Char := bytes.map fun byte => Char.ofNat byte.toNat

theorem toNat_latin1 (byte : UInt8) : (Char.ofNat byte.toNat).toNat = byte.toNat := by
  have bound := byte.toNat_lt
  apply JSString.toNat_charOfNat
  left
  omega

def isWide (char : Char) : Bool := 0x80 ≤ char.toNat

theorem latin1_append (bytes others : List UInt8) :
    latin1 (bytes ++ others) = latin1 bytes ++ latin1 others := List.map_append

theorem marks_latin1 (bytes : List UInt8) : marks (bytesOf (latin1 bytes)) = marks bytes := by
  induction bytes with
  | nil => rfl
  | cons byte rest ih =>
      have here : marks (String.utf8EncodeChar (Char.ofNat byte.toNat)) = marks [byte] := by
        have same := toNat_latin1 byte
        rcases Nat.lt_or_ge byte.toNat 0x80 with ascii | wide
        · rw [Percent.utf8EncodeChar_ascii (by omega), same, UInt8.ofNat_toNat]
        · have zero : marks [byte] = 0 := by
            rw [marks_eq_zero, List.forall_mem_singleton]
            exact isMark_of_wide wide
          rw [zero]
          apply marks_plain
          · intro percent
            rw [percent] at same
            change 37 = _ at same
            omega
          · intro backslash
            rw [backslash] at same
            change 92 = _ at same
            omega
      change marks (String.utf8EncodeChar (Char.ofNat byte.toNat) ++ bytesOf (latin1 rest)) =
        marks ([byte] ++ rest)
      rw [marks_append, marks_append, ih, here]

theorem take_ascii (printf : Printf) (text : List Char) :
    ∀ char ∈ text.take (printf.escape text).2, char.toNat < 0x80 := by
  intro char member
  rcases printf.escape_spec text with ⟨rest, rfl, printed⟩ | takes
  · rw [printed] at member
    rw [List.mem_singleton.mp member]
    decide
  · exact (takes.1 char member).1

theorem countP_isWide_ascii {text : List Char} (ascii : ∀ char ∈ text, char.toNat < 0x80) :
    text.countP isWide = 0 := by
  rw [List.countP_eq_zero]
  intro char member
  have small := ascii char member
  rw [isWide, decide_eq_true_eq]
  omega

theorem countP_isWide_char (char : Char) :
    2 * [char].countP isWide ≤ (latin1 (String.utf8EncodeChar char)).countP isWide := by
  rcases Nat.lt_or_ge char.toNat 0x80 with ascii | wide
  · rw [countP_isWide_ascii (by simpa using ascii)]
    exact Nat.zero_le _
  · obtain ⟨several, large⟩ := Percent.utf8EncodeChar_wide wide
    have all : (latin1 (String.utf8EncodeChar char)).countP isWide =
        (latin1 (String.utf8EncodeChar char)).length := by
      rw [List.countP_eq_length]
      intro other member
      obtain ⟨byte, among, rfl⟩ := List.mem_map.mp member
      rw [isWide, toNat_latin1, decide_eq_true_eq]
      exact large byte among
    have one : [char].countP isWide ≤ 1 := List.countP_le_length
    rw [all, latin1, List.length_map]
    omega

/-- A format whose conversions are refused is printed with all its characters beyond
ASCII. -/
theorem countP_isWide_printFrom {skip : Nat}
    (refused : AfterEach '%' (fun rest => isRefused rest = true) (text.drop skip)) :
    2 * (text.drop skip).countP isWide ≤ (latin1 (printf.printFrom skip text)).countP isWide := by
  have taken : ∀ {text : List Char} {count : Nat},
      (∀ char ∈ text.take count, char.toNat < 0x80) →
        text.countP isWide = (text.drop count).countP isWide := by
    intro text count ascii
    have split : text.countP isWide = (text.take count).countP isWide +
        (text.drop count).countP isWide := by
      rw [← List.countP_append, List.take_append_drop]
    rw [split, countP_isWide_ascii ascii, Nat.zero_add]
  induction text generalizing skip with
  | nil => simp
  | cons char rest ih =>
      cases skip with
      | succ skip => exact ih refused
      | zero =>
          rw [List.drop_zero] at refused ⊢
          have restRefused := refused.of_suffix (List.suffix_cons char rest)
          rw [printFrom, ← List.singleton_append, List.countP_append]
          split
          · rename_i percent
            subst percent
            obtain ⟨front, count, converted, _, plain⟩ :=
              printf.convert_of_refused (refused rest (List.suffix_refl _))
            have later := @ih count (restRefused.of_suffix (List.drop_suffix _ rest))
            have here : ['%'].countP isWide = 0 := rfl
            simp only [converted]
            rw [latin1_append, List.countP_append, here,
              taken fun char member => (plain char member).1]
            omega
          split
          · rename_i backslash
            have here : [char].countP isWide = 0 := by
              rw [backslash]
              rfl
            have later := @ih (printf.escape rest).2
              (restRefused.of_suffix (List.drop_suffix _ rest))
            rw [latin1_append, List.countP_append, here, taken (printf.take_ascii rest)]
            omega
          · have here := countP_isWide_char char
            have later := @ih 0 restRefused
            rw [List.drop_zero] at later
            rw [latin1_append, List.countP_append]
            omega

theorem latin1_bytesOf {text : List Char} (ascii : ∀ char ∈ text, char.toNat < 0x80) :
    latin1 (bytesOf text) = text := by
  induction text with
  | nil => rfl
  | cons char rest ih =>
      rw [List.forall_mem_cons] at ascii
      have same : (UInt8.ofNat char.toNat).toNat = char.toNat := by
        rw [UInt8.toNat_ofNat']
        omega
      rw [Percent.bytesOf_cons, latin1_append, ih ascii.2, Percent.utf8EncodeChar_ascii ascii.1]
      change [Char.ofNat (UInt8.ofNat char.toNat).toNat] ++ rest = _
      rw [same, Char.ofNat_toNat]
      rfl

theorem latin1_injective {bytes others : List UInt8} (same : latin1 bytes = latin1 others) :
    bytes = others := by
  apply List.map_injective_iff.mpr _ same
  intro byte other equal
  have numbers := congrArg Char.toNat equal
  rw [toNat_latin1, toNat_latin1] at numbers
  exact UInt8.toNat_inj.mp numbers

theorem PrintsItself.print {format : List Char} (itself : printf.PrintsItself format) :
    printf.print format = bytesOf format := by
  have other : format ≠ "--help".toList := by
    intro same
    exact itself.noOption (same ▸ by decide)
  rw [Printf.print, if_neg other, if_neg itself.noOption]
  exact @printFrom_of_unescaped printf format 0 itself.unconverted itself.unescaped

/-- A format is printed as it is, one byte a character, if and only if it is ASCII and no
option, its conversions are refused without a change, and each of its escape sequences
stands for itself. -/
theorem latin1_print_iff {format : List Char} :
    latin1 (printf.print format) = format ↔ printf.PrintsItself format := by
  constructor
  · intro printed
    have other : format ≠ "--help".toList := by
      intro same
      rw [print, if_pos same, same] at printed
      exact printf.help_other (latin1_injective (printed.trans rfl))
    have noOption : ¬(format.head? = some '-' ∧ 1 < format.length) := by
      intro option
      rw [print, if_neg other, if_pos option] at printed
      rw [← printed] at option
      exact absurd option.2 (by decide)
    rw [print, if_neg other, if_neg noOption] at printed
    have refused : AfterEach '%' (fun rest => isRefused rest = true) format := by
      apply (printf.marks_printFrom 0 format).2
      have same := marks_latin1 (printf.printFrom 0 format)
      rw [printed] at same
      exact Nat.le_of_eq same
    have ascii : ∀ char ∈ format, char.toNat < 0x80 := by
      have twice := @countP_isWide_printFrom printf format 0 refused
      rw [printed, List.drop_zero] at twice
      have none : format.countP isWide = 0 := by omega
      rw [List.countP_eq_zero] at none
      intro char member
      have narrow := none char member
      rw [isWide, decide_eq_true_eq] at narrow
      omega
    have bytes : printf.printFrom 0 format = bytesOf format := by
      apply latin1_injective
      rw [printed, latin1_bytesOf ascii]
    obtain ⟨_, unconverted, unescaped⟩ :=
      @unescaped_of_printFrom printf format [] [] 0 rfl rfl refused bytes
    exact ⟨ascii, noOption, unconverted, unescaped⟩
  · intro itself
    rw [itself.print]
    exact latin1_bytesOf itself.ascii

end Printf

end CloudRunSsh
