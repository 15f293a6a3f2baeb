import CloudRunSsh.WebSSH.Transcript

/-!
# When the transcript is flushed

Every pause in the output ends an entry of the transcript.  A pause inside of a control
sequence or next to a line break shows in the transcript: the sequence is no longer
recognised, and the line break is dropped with an empty line.
-/

namespace CloudRunSsh.WebSSH

/-- A control sequence that begins in the first part ends in the second. -/
def RunsOver (text rest : JSString) : Prop :=
  ∃ front tail left, text = front ++ esc :: tail ∧
    controlSequenceRegex.exec (esc :: (tail ++ rest)) = some left ∧ left.length < rest.length

/-- A line break begins in the first part and ends in the second. -/
def CutsBreak (text rest : JSString) : Prop :=
  text.getLast? = some cr ∧ rest.head? = some lf

/-- Some line is not empty. -/
def Visible (text : JSString) : Prop := ∃ line ∈ splitLines text, line ≠ []

instance : DecidablePred Visible := fun text =>
  inferInstanceAs (Decidable (∃ line ∈ splitLines text, line ≠ []))

/-- A line break between visible lines is at the end of the first part or at the beginning
of the second. -/
def DropsBreak (text rest : JSString) : Prop :=
  (Visible text ∧ Visible rest) ∧ ([cr, lf] <:+ text ∨ [cr, lf] <+: rest)

instance (text rest : JSString) : Decidable (CutsBreak text rest) :=
  inferInstanceAs (Decidable (_ ∧ _))

instance (text rest : JSString) : Decidable (DropsBreak text rest) :=
  inferInstanceAs (Decidable ((_ ∧ _) ∧ (_ ∨ _)))

/-- No pause is inside of a control sequence. -/
def Unbroken : List JSString → Prop
  | [] => True
  | piece :: rest => ¬RunsOver piece rest.flatten ∧ Unbroken rest

/-- No pause is inside of a line break, or drops one. -/
def LinesKept : List JSString → Prop
  | [] => True
  | piece :: rest =>
      (¬CutsBreak piece rest.flatten ∧ ¬DropsBreak piece rest.flatten) ∧ LinesKept rest

/-- The pieces without control sequences. -/
def cleaned (pieces : List JSString) : List JSString :=
  pieces.map controlSequenceRegex.removeAll

/-- The text of the transcript is that of one flush at the end. -/
def FlushIndependent (batches : List (List JSString)) : Prop :=
  (record batches).transcript.flatten = (record [batches.flatten]).transcript.flatten

/-- The lines of a text without the empty ones. -/
def compactLines (text : JSString) : JSString :=
  JSString.join '\n' ((splitLines text).filter (· ≠ []))

theorem entry_eq (data : List JSString) :
    entry data = compactLines (controlSequenceRegex.removeAll data.flatten) := rfl

theorem foldl_addToTranscript (batch : List JSString) (recorder : Recorder) :
    batch.foldl (addToTranscript true) recorder =
      { recorder with data := recorder.data ++ batch } := by
  induction batch generalizing recorder with
  | nil => rw [List.foldl_nil, List.append_nil]
  | cons text batch ih =>
      rw [List.foldl_cons, ih]
      simp [addToTranscript]

theorem onTimeout_eq (batch transcript : List JSString) :
    (onTimeout ⟨batch, transcript⟩).data = [] ∧
      (onTimeout ⟨batch, transcript⟩).transcript.flatten =
        transcript.flatten ++ entry batch := by
  rw [onTimeout]
  split
  · rename_i empty
    change batch = [] at empty
    subst batch
    exact ⟨rfl, (List.append_nil _).symm⟩
  · refine ⟨rfl, ?_⟩
    dsimp only
    split
    · rename_i empty
      rw [empty, List.append_nil]
    · rw [List.flatten_append, List.flatten_singleton]

/-- The transcript is the entries of the batches, one after another. -/
theorem flatten_record (batches : List (List JSString)) :
    (record batches).transcript.flatten = (batches.map entry).flatten := by
  have general : ∀ recorder : Recorder, recorder.data = [] →
      (batches.foldl (fun recorder batch =>
        onTimeout (batch.foldl (addToTranscript true) recorder)) recorder).transcript.flatten =
          recorder.transcript.flatten ++ (batches.map entry).flatten := by
    induction batches with
    | nil => exact fun recorder _ => (List.append_nil _).symm
    | cons batch batches ih =>
        intro recorder empty
        have step := onTimeout_eq (recorder.data ++ batch) recorder.transcript
        rw [List.foldl_cons, foldl_addToTranscript, ih _ step.1, step.2, empty, List.map_cons,
          List.flatten_cons, List.append_assoc]
        rfl
  exact general ⟨[], []⟩ rfl

/-- The lines that are not empty, when `started` says that there is one already and
`pending` that a line break came after it. -/
def emit (started pending : Bool) : JSString → JSString
  | first :: second :: rest =>
      if first = cr ∧ second = lf then emit started true rest
      else (if started && pending then [lf] else []) ++ first :: emit true false (second :: rest)
  | [symbol] => (if started && pending then [lf] else []) ++ [symbol]
  | [] => []

/-- Where `emit` is after a text. -/
def emitted (started pending : Bool) : JSString → Bool × Bool
  | first :: second :: rest =>
      if first = cr ∧ second = lf then emitted started true rest
      else emitted true false (second :: rest)
  | [_] => (true, false)
  | [] => (started, pending)

theorem splitLines_ne_nil (text : JSString) : splitLines text ≠ [] := by
  induction text using splitLines.induct with
  | case1 first second rest broken ih =>
      rw [splitLines, if_pos broken]
      exact List.cons_ne_nil _ _
  | case2 first second rest whole ih =>
      rw [splitLines, if_neg whole]
      cases found : splitLines (second :: rest) with
      | nil => exact absurd found ih
      | cons line lines => exact List.cons_ne_nil _ _
  | case3 symbol => exact List.cons_ne_nil _ _
  | case4 => exact List.cons_ne_nil _ _

section Emit

variable {first second : UInt16} {text rest : JSString}

theorem splitLines_break : splitLines (cr :: lf :: rest) = [] :: splitLines rest := by
  rw [splitLines, if_pos ⟨rfl, rfl⟩]

theorem splitLines_other (rest : JSString) (whole : ¬(first = cr ∧ second = lf)) :
    ∃ line lines, splitLines (second :: rest) = line :: lines ∧
      splitLines (first :: second :: rest) = (first :: line) :: lines := by
  rw [splitLines, if_neg whole]
  cases found : splitLines (second :: rest) with
  | nil => exact absurd found (splitLines_ne_nil _)
  | cons line lines => exact ⟨line, lines, rfl, rfl⟩

theorem visible_break : Visible (cr :: lf :: rest) ↔ Visible rest := by
  rw [Visible, splitLines_break, List.exists_mem_cons_iff]
  exact or_iff_right fun empty => empty rfl

theorem visible_other (whole : ¬(first = cr ∧ second = lf)) :
    Visible (first :: second :: rest) := by
  obtain ⟨line, lines, _, found⟩ := splitLines_other rest whole
  rw [Visible, found]
  exact ⟨first :: line, List.mem_cons_self, List.cons_ne_nil _ _⟩

theorem visible_singleton (symbol : UInt16) : Visible [symbol] :=
  ⟨[symbol], List.mem_cons_self, List.cons_ne_nil _ _⟩

theorem not_visible_nil : ¬Visible [] := by
  rintro ⟨line, member, filled⟩
  exact filled (List.mem_singleton.mp member)

theorem prefix_break : [cr, lf] <+: cr :: lf :: rest := ⟨rest, rfl⟩

theorem not_prefix_other (whole : ¬(first = cr ∧ second = lf)) :
    ¬[cr, lf] <+: first :: second :: rest := by
  rintro ⟨others, same⟩
  cases same
  exact whole ⟨rfl, rfl⟩

theorem emit_break (started pending : Bool) :
    emit started pending (cr :: lf :: rest) = emit started true rest := by
  rw [emit, if_pos ⟨rfl, rfl⟩]

theorem emit_other (started pending : Bool) (whole : ¬(first = cr ∧ second = lf)) :
    emit started pending (first :: second :: rest) =
      (if started && pending then [lf] else []) ++ first :: emit true false (second :: rest) := by
  rw [emit, if_neg whole]

/-- The line break that comes before the first visible line. -/
def leading (started pending : Bool) (text : JSString) : JSString :=
  if started = true ∧ Visible text ∧ (pending = true ∨ [cr, lf] <+: text) then [lf] else []

/-- Where the output begins only matters for a line break before it. -/
theorem emit_eq (started pending : Bool) (text : JSString) :
    emit started pending text = leading started pending text ++ emit false false text := by
  induction text using splitLines.induct generalizing started pending with
  | case1 first second rest broken ih =>
      obtain ⟨rfl, rfl⟩ := broken
      have same : leading started pending (cr :: lf :: rest) = leading started true rest := by
        simp only [leading, visible_break, prefix_break, or_true, true_or]
      have fresh : leading false true rest = [] := if_neg fun holds => by cases holds.1
      rw [emit_break, emit_break, same, ih started true, ih false true, fresh, List.nil_append]
  | case2 first second rest whole ih =>
      rw [emit_other _ _ whole, emit_other _ _ whole, leading]
      simp [visible_other whole, not_prefix_other whole]
  | case3 symbol =>
      have short : ¬[cr, lf] <+: [symbol] := fun longer =>
        absurd longer.length_le (by simp)
      simp [emit, leading, visible_singleton, short]
  | case4 => simp [emit, leading, not_visible_nil]

/-- The lines of a text without the empty ones but the first. -/
def openLines (text : JSString) : JSString :=
  JSString.join '\n'
    ((splitLines text).headD [] :: (splitLines text).tail.filter (· ≠ []))

theorem filter_eq_nil_of_not_visible (blank : ¬Visible text) :
    (splitLines text).filter (· ≠ []) = [] := by
  apply List.filter_eq_nil_iff.mpr
  intro line member filled
  exact blank ⟨line, member, of_decide_eq_true filled⟩

theorem join_cons_head (symbol : UInt16) (line : JSString) (lines : List JSString) :
    JSString.join '\n' ((symbol :: line) :: lines) =
      symbol :: JSString.join '\n' (line :: lines) := by
  cases lines with
  | nil => simp [JSString.join]
  | cons next lines => simp [JSString.join, List.intercalate_cons_cons]

theorem compactLines_of_not_visible (blank : ¬Visible text) : compactLines text = [] := by
  rw [compactLines, filter_eq_nil_of_not_visible blank]
  rfl

theorem compactLines_break : compactLines (cr :: lf :: rest) = compactLines rest := by
  rw [compactLines, splitLines_break, List.filter_cons_of_neg (by simp), compactLines]

theorem openLines_break :
    openLines (cr :: lf :: rest) = leading true true rest ++ compactLines rest := by
  rw [openLines, splitLines_break, List.headD_cons, List.tail_cons, leading]
  by_cases visible : Visible rest
  · obtain ⟨line, member, filled⟩ := visible
    have kept : line ∈ (splitLines rest).filter (· ≠ []) :=
      List.mem_filter.mpr ⟨member, decide_eq_true filled⟩
    rw [if_pos ⟨rfl, ⟨line, member, filled⟩, .inl rfl⟩, compactLines]
    cases found : (splitLines rest).filter (· ≠ []) with
    | nil =>
        rw [found] at kept
        cases kept
    | cons line lines => simp [JSString.join, List.intercalate_cons_cons, lf, unit]
  · rw [if_neg fun holds => visible holds.2.1, filter_eq_nil_of_not_visible visible,
      compactLines_of_not_visible visible]
    rfl

/-- `emit` gives the lines that are not empty. -/
theorem emit_compactLines (text : JSString) :
    emit false false text = compactLines text ∧ emit true false text = openLines text := by
  induction text using splitLines.induct with
  | case1 first second rest broken ih =>
      obtain ⟨rfl, rfl⟩ := broken
      have fresh : leading false true rest = [] := if_neg fun holds => by cases holds.1
      constructor
      · rw [emit_break, emit_eq, fresh, ih.1, compactLines_break, List.nil_append]
      · rw [emit_break, emit_eq, ih.1, openLines_break]
  | case2 first second rest whole ih =>
      obtain ⟨line, lines, found, found'⟩ := splitLines_other rest whole
      have opened : first :: openLines (second :: rest) =
          openLines (first :: second :: rest) := by
        rw [openLines, openLines, found, found', List.headD_cons, List.headD_cons,
          join_cons_head]
        rfl
      have compacted : compactLines (first :: second :: rest) =
          openLines (first :: second :: rest) := by
        rw [compactLines, openLines, found', List.filter_cons_of_pos (by simp)]
        rfl
      constructor
      · rw [emit_other _ _ whole, ih.2, opened, compacted]
        rfl
      · rw [emit_other _ _ whole, ih.2, opened]
        rfl
  | case3 symbol => exact ⟨rfl, rfl⟩
  | case4 => exact ⟨rfl, rfl⟩

/-! ## Two pieces -/

theorem emitted_break (started pending : Bool) :
    emitted started pending (cr :: lf :: rest) = emitted started true rest := by
  rw [emitted, if_pos ⟨rfl, rfl⟩]

theorem emitted_other (started pending : Bool) (whole : ¬(first = cr ∧ second = lf)) :
    emitted started pending (first :: second :: rest) =
      emitted true false (second :: rest) := by
  rw [emitted, if_neg whole]

/-- A text without a line break across its end is followed by the lines of the rest. -/
theorem emit_append (started pending : Bool) (whole : ¬CutsBreak text rest) :
    emit started pending (text ++ rest) =
      emit started pending text ++
        emit (emitted started pending text).1 (emitted started pending text).2 rest := by
  induction text using splitLines.induct generalizing started pending with
  | case1 first second text broken ih =>
      obtain ⟨rfl, rfl⟩ := broken
      have later : ¬CutsBreak text rest := by
        rintro ⟨last, next⟩
        cases text with
        | nil => cases last
        | cons third text =>
            exact whole ⟨by rw [List.getLast?_cons_cons, List.getLast?_cons_cons, last], next⟩
      rw [List.cons_append, List.cons_append, emit_break, emit_break, emitted_break,
        ih started true later]
  | case2 first second text whole' ih =>
      have later : ¬CutsBreak (second :: text) rest := fun cuts =>
        whole ⟨by rw [List.getLast?_cons_cons]; exact cuts.1, cuts.2⟩
      rw [List.cons_append, List.cons_append, emit_other _ _ whole', emit_other _ _ whole',
        emitted_other _ _ whole', ← List.cons_append, ih true false later, List.append_assoc,
        List.cons_append]
  | case3 symbol =>
      cases rest with
      | nil => exact (List.append_nil _).symm
      | cons next rest =>
          have apart : ¬(symbol = cr ∧ next = lf) := by
            rintro ⟨rfl, rfl⟩
            exact whole ⟨rfl, rfl⟩
          rw [List.singleton_append, emit_other _ _ apart, emit, emitted, List.append_assoc]
          rfl
  | case4 => rfl

theorem suffix_cons_cons (whole : ¬(first = cr ∧ second = lf)) :
    [cr, lf] <:+ first :: second :: text ↔ [cr, lf] <:+ second :: text := by
  rw [List.suffix_cons_iff]
  apply or_iff_right
  intro same
  cases same
  exact whole ⟨rfl, rfl⟩

/-- What `emit` has seen after a text. -/
theorem emitted_eq (started pending : Bool) (text : JSString) :
    ((emitted started pending text).1 = true ↔ started = true ∨ Visible text) ∧
      ((emitted started pending text).2 = true ↔
        (text = [] ∧ pending = true) ∨ [cr, lf] <:+ text) := by
  induction text using splitLines.induct generalizing started pending with
  | case1 first second text broken ih =>
      obtain ⟨rfl, rfl⟩ := broken
      have ending : [cr, lf] <:+ cr :: lf :: text ↔ text = [] ∨ [cr, lf] <:+ text := by
        rw [List.suffix_cons_iff, List.suffix_cons_iff]
        simp [cr, lf, unit, eq_comm]
      rw [emitted_break, visible_break, (ih started true).1, (ih started true).2, ending]
      simp
  | case2 first second text whole ih =>
      rw [emitted_other _ _ whole, (ih true false).1, (ih true false).2, suffix_cons_cons whole]
      simp [visible_other whole]
  | case3 symbol =>
      have short : ¬[cr, lf] <:+ [symbol] := fun longer =>
        absurd longer.length_le (by simp)
      simp [emitted, visible_singleton, short]
  | case4 => simp [emitted, not_visible_nil]

/-- Two pieces have the lines of the whole, but for the line breaks that were dropped. -/
theorem compactLines_append (whole : ¬CutsBreak text rest) :
    compactLines (text ++ rest) =
      compactLines text ++ (if DropsBreak text rest then [lf] else []) ++ compactLines rest := by
  have seen := emitted_eq false false text
  have dropped : leading (emitted false false text).1 (emitted false false text).2 rest =
      if DropsBreak text rest then [lf] else [] := by
    simp only [leading, seen, DropsBreak, Bool.false_eq_true, and_false, false_or, and_assoc]
  rw [← (emit_compactLines (text ++ rest)).1, emit_append _ _ whole,
    emit_eq (emitted false false text).1, dropped, (emit_compactLines text).1,
    (emit_compactLines rest).1, List.append_assoc]

/-- Every carriage return that is not part of a line break is kept. -/
theorem count_emit (started pending : Bool) (text : JSString) :
    (emit started pending text).count cr + (splitLines text).length = text.count cr + 1 := by
  have lead : ∀ started pending : Bool,
      (if started && pending then [lf] else []).count cr = 0 := by decide
  have apart : lf ≠ cr := by decide
  induction text using splitLines.induct generalizing started pending with
  | case1 first second text broken ih =>
      obtain ⟨rfl, rfl⟩ := broken
      have later := ih started true
      rw [emit_break, splitLines_break, List.length_cons, List.count_cons_self,
        List.count_cons_of_ne apart]
      omega
  | case2 first second text whole ih =>
      obtain ⟨line, lines, found, found'⟩ := splitLines_other text whole
      have later := ih true false
      rw [found] at later
      rw [emit_other _ _ whole, found', List.count_append, lead, List.count_cons,
        List.count_cons]
      simp only [List.length_cons] at later ⊢
      omega
  | case3 symbol =>
      rw [emit, List.count_append, lead, Nat.zero_add]
      rfl
  | case4 => rfl

theorem count_compactLines (text : JSString) :
    (compactLines text).count cr + (splitLines text).length = text.count cr + 1 := by
  rw [← (emit_compactLines text).1, count_emit]

theorem length_splitLines_cons (apart : first ≠ cr) :
    (splitLines (first :: text)).length = (splitLines text).length := by
  cases text with
  | nil => rfl
  | cons second text =>
      obtain ⟨line, lines, found, found'⟩ :=
        splitLines_other text fun broken => apart broken.1
      rw [found, found', List.length_cons, List.length_cons]

theorem cutsBreak_cons_cons {first second : UInt16} {text rest : JSString} :
    CutsBreak (first :: second :: text) rest ↔ CutsBreak (second :: text) rest := by
  rw [CutsBreak, CutsBreak, List.getLast?_cons_cons]

/-- A line break across the end of the first piece is one more. -/
theorem length_splitLines_append (text rest : JSString) :
    (splitLines (text ++ rest)).length + 1 =
      (splitLines text).length + (splitLines rest).length +
        if CutsBreak text rest then 1 else 0 := by
  induction text using splitLines.induct with
  | case1 first second text broken ih =>
      obtain ⟨rfl, rfl⟩ := broken
      have same : CutsBreak (cr :: lf :: text) rest ↔ CutsBreak text rest := by
        cases text with
        | nil => simp [CutsBreak, cr, lf, unit]
        | cons third text => rw [cutsBreak_cons_cons, cutsBreak_cons_cons]
      rw [List.cons_append, List.cons_append, splitLines_break, splitLines_break,
        List.length_cons, List.length_cons]
      simp only [same]
      omega
  | case2 first second text whole ih =>
      obtain ⟨line, lines, found, found'⟩ := splitLines_other text whole
      obtain ⟨line', lines', found'', found'''⟩ := splitLines_other (text ++ rest) whole
      rw [List.cons_append, found, found''] at ih
      rw [List.cons_append, List.cons_append, found', found''']
      simp only [cutsBreak_cons_cons, List.length_cons] at ih ⊢
      omega
  | case3 symbol =>
      cases rest with
      | nil => simp [splitLines, CutsBreak]
      | cons next rest =>
          by_cases cut : symbol = cr ∧ next = lf
          · obtain ⟨rfl, rfl⟩ := cut
            have fewer : (splitLines (lf :: rest)).length = (splitLines rest).length :=
              length_splitLines_cons (by decide)
            rw [List.singleton_append, splitLines_break, fewer, if_pos ⟨rfl, rfl⟩,
              List.length_cons, splitLines, List.length_singleton, Nat.add_comm 1]
          · obtain ⟨line, lines, found, found'⟩ := splitLines_other rest cut
            have apart : ¬CutsBreak [symbol] (next :: rest) := by
              rintro ⟨last, first⟩
              cases last
              cases first
              exact cut ⟨rfl, rfl⟩
            rw [List.singleton_append, found', found, if_neg apart, splitLines,
              List.length_singleton, List.length_cons, List.length_cons, Nat.add_comm 1]
  | case4 =>
      rw [List.nil_append, if_neg fun cuts => nomatch cuts.1]
      exact Nat.add_comm _ 1

/-- Two pieces keep a carriage return more if a line break goes across the end of the
first. -/
theorem count_compactLines_append (text rest : JSString) :
    (compactLines text).count cr + (compactLines rest).count cr =
      (compactLines (text ++ rest)).count cr + if CutsBreak text rest then 1 else 0 := by
  have first := count_compactLines text
  have second := count_compactLines rest
  have whole := count_compactLines (text ++ rest)
  have lines := length_splitLines_append text rest
  rw [List.count_append] at whole
  omega

end Emit

/-- The symbol is not part of a line break. -/
def isInk (symbol : UInt16) : Bool := symbol != cr && symbol != lf

theorem extends_mark {admits : UInt16 → Bool} : (Regex.opt (.set admits)).Extends :=
  Regex.extends_set.opt Regex.progresses_set

theorem extends_final : finalRegex.Extends :=
  (Regex.extends_set.star_seq (rests_set_digit digit_not_letter)).opt
    Regex.progresses_set.seq_right

theorem extends_parameters : parametersRegex.Extends :=
  (Regex.extends_set.star_seq (rests_set_digit digit_not_semicolon)).star
    Regex.progresses_set.seq_right

theorem extends_bracket : bracketRegex.Extends :=
  Regex.extends_set.seq (extends_parameters.seq (extends_mark.seq extends_final total_final)
    total_marked) total_parameters

theorem extends_controlSequence : controlSequenceRegex.Extends := by
  have designation : designationRegex.Extends :=
    Regex.extends_set.seq extends_mark (Regex.total_opt _)
  exact Regex.extends_set.seq ((extends_bracket.alt designation).opt progresses_afterEsc)
    (Regex.total_opt _)

/-- What follows an escape character in a match has neither escape characters nor line
breaks. -/
theorem taken_of_exec {tail left : JSString}
    (found : controlSequenceRegex.exec (esc :: tail) = some left) :
    ∃ taken, taken ++ left = tail ∧ ∀ symbol ∈ taken, symbol ≠ esc ∧ isInk symbol = true := by
  rw [exec_cons_esc] at found
  obtain ⟨taken, split, mentioned⟩ := (Regex.consumes_of_exec found).taken
  refine ⟨taken, split, ?_⟩
  intro symbol member
  have known := mentioned symbol member
  refine ⟨?_, ?_⟩
  · rintro rfl
    exact absurd known (by decide)
  · simp only [isInk, Bool.and_eq_true, bne_iff_ne]
    constructor
    · rintro rfl
      exact absurd known (by decide)
    · rintro rfl
      exact absurd known (by decide)

section Seams

variable {text rest : JSString}

theorem runsOver_cons {symbol : UInt16} (other : symbol ≠ esc) :
    RunsOver (symbol :: text) rest ↔ RunsOver text rest := by
  constructor
  · rintro ⟨front, tail, left, split, found, shorter⟩
    cases front with
    | nil =>
        cases split
        exact absurd rfl other
    | cons first front =>
        cases split
        exact ⟨front, tail, left, rfl, found, shorter⟩
  · rintro ⟨front, tail, left, rfl, found, shorter⟩
    exact ⟨symbol :: front, tail, left, rfl, found, shorter⟩

theorem runsOver_append {front : JSString} (plain : esc ∉ front) (text : JSString) :
    RunsOver (front ++ text) rest ↔ RunsOver text rest := by
  induction front with
  | nil => rfl
  | cons symbol front ih =>
      rw [List.mem_cons, not_or] at plain
      rw [List.cons_append, runsOver_cons (Ne.symm plain.1), ih plain.2]

/-- The text that remains after a sequence that ends in the first piece. -/
theorem runsOver_esc {left : JSString}
    (found : controlSequenceRegex.exec (esc :: text) = some left)
    (found' : controlSequenceRegex.exec (esc :: (text ++ rest)) = some (left ++ rest)) :
    RunsOver (esc :: text) rest ↔ RunsOver left rest := by
  obtain ⟨taken, split, plain⟩ := taken_of_exec found
  have others : esc ∉ taken := fun member => (plain esc member).1 rfl
  rw [← runsOver_append others left, split]
  constructor
  · rintro ⟨front, tail, left', same, matched, shorter⟩
    cases front with
    | nil =>
        cases same
        rw [found'] at matched
        cases matched
        rw [List.length_append] at shorter
        exact absurd shorter (by omega)
    | cons first front =>
        cases same
        exact ⟨front, tail, left', rfl, matched, shorter⟩
  · rintro ⟨front, tail, left', rfl, matched, shorter⟩
    exact ⟨esc :: front, tail, left', rfl, matched, shorter⟩

/-- A match that ends in the second piece has taken visible symbols from it. -/
theorem countP_removeAll_lt {left : JSString}
    (found : controlSequenceRegex.exec (esc :: text ++ rest) = some left)
    (shorter : left.length < rest.length) :
    (controlSequenceRegex.removeAll left).countP isInk <
      (controlSequenceRegex.removeAll rest).countP isInk := by
  obtain ⟨taken, split, plain⟩ := taken_of_exec found
  rcases List.append_eq_append_iff.mp split with ⟨others, _, rfl⟩ | ⟨others, rfl, rfl⟩
  · rw [List.length_append] at shorter
    exact absurd shorter (by omega)
  · have among : ∀ symbol ∈ others, symbol ≠ esc ∧ isInk symbol = true :=
      fun symbol member => plain symbol (List.mem_append_right _ member)
    have ink : others.countP isInk = others.length :=
      List.countP_eq_length.mpr fun symbol member => (among symbol member).2
    rw [removeAll_plain fun member => (among esc member).1 rfl, List.countP_append, ink]
    rw [List.length_append] at shorter
    omega

/-- A control sequence that runs over the end of the first piece takes visible symbols from
the second; otherwise the pieces can be cleaned one by one. -/
theorem removeAll_append (text rest : JSString) :
    (RunsOver text rest →
      (controlSequenceRegex.removeAll (text ++ rest)).countP isInk <
        (controlSequenceRegex.removeAll text).countP isInk +
          (controlSequenceRegex.removeAll rest).countP isInk) ∧
      (¬RunsOver text rest →
        controlSequenceRegex.removeAll (text ++ rest) =
          controlSequenceRegex.removeAll text ++ controlSequenceRegex.removeAll rest) := by
  induction count : text.length using Nat.strongRecOn generalizing text with
  | ind count ih =>
      cases text with
      | nil =>
          refine ⟨?_, fun _ => rfl⟩
          rintro ⟨front, tail, left, split, _⟩
          exact absurd split (by simp)
      | cons symbol text =>
          by_cases escape : symbol = esc
          · subst symbol
            obtain ⟨left, found⟩ : ∃ left, controlSequenceRegex.exec (esc :: text) = some left :=
              ⟨_, exec_esc text⟩
            have fewer := progresses_controlSequence _ left (List.mem_of_mem_head? found)
            rw [progresses_controlSequence.removeAll found]
            rcases extends_controlSequence (esc :: text) rest with same | ⟨left', found', shorter⟩
            · rw [found] at same
              rw [runsOver_esc found same, progresses_controlSequence.removeAll same]
              exact ih left.length (count ▸ fewer) left rfl
            · refine ⟨fun _ => ?_, fun apart => absurd ⟨[], text, left', rfl, found', shorter⟩ apart⟩
              rw [progresses_controlSequence.removeAll found']
              exact Nat.lt_add_left _ (countP_removeAll_lt found' shorter)
          · obtain ⟨over', apart⟩ := ih text.length (count ▸ Nat.lt_succ_self _) text rfl
            rw [runsOver_cons escape, List.cons_append,
              Regex.removeAll_of_none (exec_other escape _),
              Regex.removeAll_of_none (exec_other escape _)]
            constructor
            · intro runs
              have fewer := over' runs
              rw [List.countP_cons, List.countP_cons]
              omega
            · intro whole
              rw [apart whole, List.cons_append]

end Seams

theorem cleaned_cons (piece : JSString) (pieces : List JSString) :
    cleaned (piece :: pieces) = controlSequenceRegex.removeAll piece :: cleaned pieces := rfl

theorem removeAll_flatten {pieces : List JSString} (unbroken : Unbroken pieces) :
    controlSequenceRegex.removeAll pieces.flatten = (cleaned pieces).flatten := by
  induction pieces with
  | nil => rfl
  | cons piece pieces ih =>
      rw [List.flatten_cons, (removeAll_append piece pieces.flatten).2 unbroken.1,
        ih unbroken.2, cleaned_cons, List.flatten_cons]

/-- A control sequence that runs over a pause shows in the number of visible symbols. -/
theorem countP_removeAll_flatten {pieces : List JSString} (broken : ¬Unbroken pieces) :
    (controlSequenceRegex.removeAll pieces.flatten).countP isInk <
      (cleaned pieces).flatten.countP isInk := by
  induction pieces with
  | nil => exact absurd trivial broken
  | cons piece pieces ih =>
      obtain ⟨fewer, same⟩ := removeAll_append piece pieces.flatten
      rw [List.flatten_cons, cleaned_cons, List.flatten_cons, List.countP_append]
      by_cases later : Unbroken pieces
      · have runs : RunsOver piece pieces.flatten := not_not.mp fun apart =>
          broken ⟨apart, later⟩
        rw [← removeAll_flatten later]
        exact fewer runs
      · have less := ih later
        by_cases runs : RunsOver piece pieces.flatten
        · have strict := fewer runs
          omega
        · rw [same runs, List.countP_append]
          omega

theorem compactLines_flatten {texts : List JSString} (kept : LinesKept texts) :
    compactLines texts.flatten = (texts.map compactLines).flatten := by
  induction texts with
  | nil => rfl
  | cons text texts ih =>
      rw [List.flatten_cons, compactLines_append kept.1.1, if_neg kept.1.2, List.append_nil,
        ih kept.2, List.map_cons, List.flatten_cons]

/-- A line break that a pause is inside of leaves a carriage return behind; one that a pause
drops is missing. -/
theorem lines_lost {texts : List JSString} (lost : ¬LinesKept texts) :
    (compactLines texts.flatten).count cr < (texts.map compactLines).flatten.count cr ∨
      ((compactLines texts.flatten).count cr = (texts.map compactLines).flatten.count cr ∧
        (texts.map compactLines).flatten.length < (compactLines texts.flatten).length) := by
  induction texts with
  | nil => exact absurd trivial lost
  | cons text texts ih =>
      have counts := count_compactLines_append text texts.flatten
      rw [List.flatten_cons, List.map_cons, List.flatten_cons, List.count_append,
        List.length_append]
      by_cases cuts : CutsBreak text texts.flatten
      · left
        rw [if_pos cuts] at counts
        by_cases kept : LinesKept texts
        · rw [← compactLines_flatten kept]
          omega
        · rcases ih kept with fewer | ⟨same, _⟩
          · omega
          · omega
      · rw [if_neg cuts] at counts
        have lengths := congrArg List.length (compactLines_append cuts)
        rw [List.length_append, List.length_append] at lengths
        by_cases kept : LinesKept texts
        · have drops : DropsBreak text texts.flatten := not_not.mp fun apart =>
            lost ⟨⟨cuts, apart⟩, kept⟩
          rw [if_pos drops, List.length_singleton] at lengths
          rw [← compactLines_flatten kept]
          right
          constructor
          · omega
          · omega
        · rcases ih kept with fewer | ⟨same, shorter⟩
          · left
            omega
          · right
            constructor
            · omega
            · omega

theorem countP_emit (started pending : Bool) (text : JSString) :
    (emit started pending text).countP isInk = text.countP isInk := by
  have lead : ∀ started pending : Bool,
      (if started && pending then [lf] else []).countP isInk = 0 := by decide
  induction text using splitLines.induct generalizing started pending with
  | case1 first second text broken ih =>
      obtain ⟨rfl, rfl⟩ := broken
      rw [emit_break, ih, List.countP_cons_of_neg (by decide),
        List.countP_cons_of_neg (by decide)]
  | case2 first second text whole ih =>
      rw [emit_other _ _ whole, List.countP_append, lead, List.countP_cons, ih,
        List.countP_cons (l := second :: text), Nat.zero_add]
  | case3 symbol => rw [emit, List.countP_append, lead, Nat.zero_add]
  | case4 => rfl

/-- The lines keep every visible symbol. -/
theorem countP_map_compactLines (texts : List JSString) :
    (texts.map compactLines).flatten.countP isInk = texts.flatten.countP isInk := by
  induction texts with
  | nil => rfl
  | cons text texts ih =>
      rw [List.map_cons, List.flatten_cons, List.flatten_cons, List.countP_append,
        List.countP_append, ih, ← (emit_compactLines text).1, countP_emit]

/-- The transcript does not depend on when it is flushed if and only if no pause is inside of
a control sequence, and none is inside of a line break or next to one that has visible output
on both sides. -/
theorem flushIndependent_iff (batches : List (List JSString)) :
    FlushIndependent batches ↔
      Unbroken (batches.map List.flatten) ∧ LinesKept (cleaned (batches.map List.flatten)) := by
  have entries : (batches.map entry).flatten =
      ((cleaned (batches.map List.flatten)).map compactLines).flatten := by
    rw [cleaned, List.map_map, List.map_map]
    rfl
  have once : ([batches.flatten].map entry).flatten =
      compactLines (controlSequenceRegex.removeAll (batches.map List.flatten).flatten) := by
    rw [List.map_singleton, List.flatten_singleton, entry_eq, List.flatten_flatten]
  rw [FlushIndependent, flatten_record, flatten_record, entries, once]
  constructor
  · intro same
    have unbroken : Unbroken (batches.map List.flatten) := by
      by_contra broken
      have fewer := countP_removeAll_flatten broken
      have counts := congrArg (List.countP isInk) same
      rw [countP_map_compactLines, ← (emit_compactLines _).1, countP_emit] at counts
      omega
    rw [removeAll_flatten unbroken] at same
    refine ⟨unbroken, ?_⟩
    by_contra lost
    have different := lines_lost lost
    rw [same] at different
    omega
  · rintro ⟨unbroken, kept⟩
    rw [removeAll_flatten unbroken, compactLines_flatten kept]

/-- A line break is lost when the output pauses after it. -/
theorem flushIndependent_fails : ¬∀ batches, FlushIndependent batches := by
  intro always
  have same := always [[[unit 'a', cr, lf]], [[unit 'b']]]
  exact absurd same (by unfold FlushIndependent; decide)

end CloudRunSsh.WebSSH
