import CloudRunSsh.WebSSH.ControlSequences

/-!
# The transcript

Output is collected until it pauses.  Then it is rid of control sequences and empty lines
and becomes one entry of the transcript.  When the transcript is read, a loop takes out
every backspace with the symbol before it.
-/

namespace CloudRunSsh.WebSSH

def cr : UInt16 := unit '\r'

def lf : UInt16 := unit '\n'

/-- `split('\r\n')`. -/
def splitLines : JSString → List JSString
  | first :: second :: rest =>
      if first = cr ∧ second = lf then [] :: splitLines rest
      else (splitLines (second :: rest)).modifyHead (first :: ·)
  | [symbol] => [[symbol]]
  | [] => [[]]

/-- The entry that the collected output becomes. -/
def entry (data : List JSString) : JSString :=
  JSString.join '\n'
    ((splitLines (controlSequenceRegex.removeAll data.flatten)).filter (· ≠ []))

/-- What `addToTranscript` has collected, and the transcript. -/
structure Recorder where
  data : List JSString
  transcript : List JSString

/-- `addToTranscript`, up to the timer. -/
def addToTranscript (isTranscriptEnabled : Bool) (recorder : Recorder) (text : JSString) :
    Recorder :=
  if isTranscriptEnabled then { recorder with data := recorder.data ++ [text] } else recorder

/-- The callback of the timer. -/
def onTimeout (recorder : Recorder) : Recorder :=
  if recorder.data = [] then recorder
  else
    { data := []
      transcript :=
        if entry recorder.data = [] then recorder.transcript
        else recorder.transcript ++ [entry recorder.data] }

/-- The recorder after some output, with a pause after each batch. -/
def record (batches : List (List JSString)) : Recorder :=
  batches.foldl (fun recorder batch => onTimeout (batch.foldl (addToTranscript true) recorder))
    ⟨[], []⟩

def backspace : UInt16 := unit '\x08'

/-- `.`: no line terminator. -/
def dot (symbol : UInt16) : Bool := symbol.toNat ∉ [0x0A, 0x0D, 0x2028, 0x2029]

/-- `/.\x08/` -/
def backspaceRegex : Regex UInt16 := .seq (.set dot) (.set (oneOf ['\x08']))

/-- The loop of `getTranscript`, for as many rounds. -/
def foldBackspaces : Nat → JSString → Option JSString
  | 0, _ => none
  | rounds + 1, text =>
      if backspace ∈ text then foldBackspaces rounds (backspaceRegex.removeFirst text)
      else some text

/-- The loop ends, and with a text without backspaces. -/
def FoldsBackspaces (transcript : List JSString) : Prop :=
  ∃ rounds folded, foldBackspaces rounds transcript.flatten = some folded ∧
    backspace ∉ folded

/-- Every backspace finds something to erase on its line, or is erased itself by a later
one there.  The line has a width, and is idle after a backspace that found nothing and
became its first symbol. -/
def erasable : (width : Nat) → (idle : Bool) → JSString → Bool
  | _, idle, [] => !idle
  | width, idle, symbol :: rest =>
      if dot symbol = false then !idle && erasable 0 false rest
      else if symbol = backspace then
        if width = 0 then erasable 1 true rest
        else erasable (width - 1) (idle && width != 1) rest
      else erasable (width + 1) idle rest

theorem dot_backspace : dot backspace = true := by decide

/-- A symbol goes with a backspace right after it, unless it ends a line. -/
theorem exec_backspaceRegex (symbol : UInt16) (rest : JSString) :
    backspaceRegex.exec (symbol :: rest) =
      if dot symbol = true ∧ rest.head? = some backspace then some rest.tail else none := by
  rw [backspaceRegex, Regex.exec, Regex.rests, Regex.rests]
  by_cases visible : dot symbol = true
  · rw [if_pos visible, List.flatMap_cons, List.flatMap_nil, List.append_nil]
    cases rest with
    | nil => exact (if_neg fun hit => by cases hit.2).symm
    | cons next rest =>
        have hit : oneOf ['\x08'] next = true ↔ next = backspace := by
          rw [oneOf_iff]
          simp [backspace, eq_comm]
        by_cases erased : next = backspace
        · rw [Regex.rests, if_pos (hit.mpr erased)]
          simp [visible, erased]
        · rw [Regex.rests, if_neg (mt hit.mp erased)]
          simp [erased]
  · rw [if_neg visible, if_neg (fun hit => visible hit.1)]
    rfl

theorem removeFirst_cons (symbol : UInt16) (rest : JSString) :
    backspaceRegex.removeFirst (symbol :: rest) =
      if dot symbol = true ∧ rest.head? = some backspace then rest.tail
      else symbol :: backspaceRegex.removeFirst rest := by
  rw [Regex.removeFirst, exec_backspaceRegex]
  by_cases hit : dot symbol = true ∧ rest.head? = some backspace
  · rw [if_pos hit, if_pos hit]
  · rw [if_neg hit, if_neg hit]

/-- The position in a text: how wide the line is, whether it is idle, and that no match
ends here. -/
structure Position (width : Nat) (idle : Bool) (text : JSString) : Prop where
  idle : idle = true → 1 ≤ width
  first : text.head? = some backspace → width = 0

theorem Position.start (text : JSString) : Position 0 false text :=
  ⟨fun idle => absurd idle Bool.false_ne_true, fun _ => rfl⟩

section Rounds

variable {width : Nat} {idle : Bool} {symbol : UInt16} {rest text : JSString}

/-- Without a match at a symbol, the next symbol has a position as well. -/
theorem Position.next (missed : ¬(dot symbol = true ∧ rest.head? = some backspace))
    (visible : dot symbol = true) (width : Nat) (idle : Bool) :
    Position (width + 1) idle rest :=
  ⟨fun _ => Nat.le_add_left 1 width, fun first => absurd ⟨visible, first⟩ missed⟩

theorem erasable_lineEnd (ends : dot symbol = false) :
    erasable width idle (symbol :: rest) = (!idle && erasable 0 false rest) := by
  rw [erasable, if_pos ends]

theorem erasable_visible (visible : dot symbol = true) (other : symbol ≠ backspace) :
    erasable width idle (symbol :: rest) = erasable (width + 1) idle rest := by
  rw [erasable, if_neg (Bool.eq_false_iff.not_left.mpr visible), if_neg other]

theorem erasable_backspace :
    erasable width idle (backspace :: rest) =
      if width = 0 then erasable 1 true rest
      else erasable (width - 1) (idle && width != 1) rest := by
  rw [erasable, if_neg (by decide), if_pos rfl]

/-- A match changes nothing about what can be erased. -/
theorem Position.erasable_match (position : Position width idle (symbol :: backspace :: rest))
    (visible : dot symbol = true) :
    erasable width idle (symbol :: backspace :: rest) = erasable width idle rest := by
  by_cases erased : symbol = backspace
  · subst symbol
    have start : width = 0 := position.first rfl
    subst width
    have busy : idle = false := by
      by_contra idle
      exact absurd (position.idle (eq_true_of_ne_false idle)) (Nat.not_succ_le_zero 0)
    rw [busy, erasable_backspace, if_pos rfl, erasable_backspace, if_neg Nat.one_ne_zero]
    rfl
  · rw [erasable_visible visible erased, erasable_backspace, if_neg (Nat.succ_ne_zero width),
      Nat.add_sub_cancel]
    cases idle with
    | false => rfl
    | true =>
        have wide : width ≠ 0 := Nat.one_le_iff_ne_zero.mp (position.idle rfl)
        congr 1
        simpa using wide

/-- A round changes nothing about what can be erased. -/
theorem Position.erasable_removeFirst (position : Position width idle text) :
    erasable width idle (backspaceRegex.removeFirst text) = erasable width idle text := by
  induction text generalizing width idle with
  | nil => rfl
  | cons symbol rest ih =>
      rw [removeFirst_cons]
      by_cases hit : dot symbol = true ∧ rest.head? = some backspace
      · rw [if_pos hit]
        obtain ⟨others, rfl⟩ := List.head?_eq_some_iff.mp hit.2
        exact (position.erasable_match hit.1).symm
      · rw [if_neg hit]
        cases visible : dot symbol with
        | false => rw [erasable_lineEnd visible, erasable_lineEnd visible, ih (.start rest)]
        | true =>
            have next := Position.next hit visible
            by_cases erased : symbol = backspace
            · subst symbol
              rw [erasable_backspace, erasable_backspace, if_pos (position.first rfl),
                if_pos (position.first rfl), ih (next 0 true)]
            · rw [erasable_visible visible erased, erasable_visible visible erased,
                ih (next width idle)]

/-- A round that changes nothing has found no match anywhere. -/
theorem missed_of_stuck
    (stuck : backspaceRegex.removeFirst (symbol :: rest) = symbol :: rest) :
    ¬(dot symbol = true ∧ rest.head? = some backspace) ∧
      backspaceRegex.removeFirst rest = rest := by
  rw [removeFirst_cons] at stuck
  split at stuck
  · have lengths := congrArg List.length stuck
    rw [List.length_tail, List.length_cons] at lengths
    exact absurd lengths (by omega)
  · rename_i missed
    exact ⟨missed, List.tail_eq_of_cons_eq stuck⟩

/-- A round that changes the text makes it shorter. -/
theorem length_removeFirst_lt (changed : backspaceRegex.removeFirst text ≠ text) :
    (backspaceRegex.removeFirst text).length < text.length := by
  induction text with
  | nil => exact absurd rfl changed
  | cons symbol rest ih =>
      rw [removeFirst_cons] at changed ⊢
      split at changed
      · rename_i hit
        rw [if_pos hit, List.length_tail, List.length_cons]
        omega
      · rename_i missed
        rw [if_neg missed]
        exact Nat.succ_lt_succ (ih fun same => changed (congrArg (symbol :: ·) same))

/-- Without a match, a line that is idle stays so. -/
theorem erasable_idle (stuck : backspaceRegex.removeFirst text = text)
    (first : text.head? ≠ some backspace) : erasable width true text = false := by
  induction text generalizing width with
  | nil => rfl
  | cons symbol rest ih =>
      obtain ⟨missed, still⟩ := missed_of_stuck stuck
      cases visible : dot symbol with
      | false => rw [erasable_lineEnd visible, Bool.not_true, Bool.false_and]
      | true =>
          have other : symbol ≠ backspace := fun same => first (congrArg some same)
          rw [erasable_visible visible other]
          exact ih still fun next => missed ⟨visible, next⟩

/-- Without a match, a backspace stays. -/
theorem Position.erasable_of_stuck (position : Position width idle text)
    (stuck : backspaceRegex.removeFirst text = text) (member : backspace ∈ text) :
    erasable width idle text = false := by
  induction text generalizing width idle with
  | nil => cases member
  | cons symbol rest ih =>
      obtain ⟨missed, still⟩ := missed_of_stuck stuck
      by_cases erased : symbol = backspace
      · subst symbol
        rw [erasable_backspace, if_pos (position.first rfl)]
        exact erasable_idle still fun next => missed ⟨dot_backspace, next⟩
      · have later : backspace ∈ rest := List.mem_of_ne_of_mem (Ne.symm erased) member
        cases visible : dot symbol with
        | false => rw [erasable_lineEnd visible, ih (.start rest) still later, Bool.and_false]
        | true =>
            rw [erasable_visible visible erased]
            exact ih (Position.next missed visible width idle) still later

/-- A text without backspaces leaves nothing to erase. -/
theorem erasable_of_not_mem (absent : backspace ∉ text) : erasable width false text = true := by
  induction text generalizing width with
  | nil => rfl
  | cons symbol rest ih =>
      rw [List.mem_cons, not_or] at absent
      cases visible : dot symbol with
      | false => rw [erasable_lineEnd visible, ih absent.2, Bool.not_false, Bool.true_and]
      | true => rw [erasable_visible visible (Ne.symm absent.1), ih absent.2]

end Rounds

/-- A loop that ends has erased every backspace. -/
theorem erasable_of_foldBackspaces {rounds : Nat} {text folded : JSString}
    (ended : foldBackspaces rounds text = some folded) : erasable 0 false text = true := by
  induction rounds generalizing text with
  | zero => cases ended
  | succ rounds ih =>
      rw [foldBackspaces] at ended
      split at ended
      · rw [← (Position.start text).erasable_removeFirst]
        exact ih ended
      · rename_i absent
        exact erasable_of_not_mem absent

/-- The loop ends when every backspace can be erased. -/
theorem exists_foldBackspaces {text : JSString} (erases : erasable 0 false text = true) :
    ∃ rounds folded, foldBackspaces rounds text = some folded ∧ backspace ∉ folded := by
  induction count : text.length using Nat.strongRecOn generalizing text with
  | ind count ih =>
      by_cases member : backspace ∈ text
      · have changed : backspaceRegex.removeFirst text ≠ text := by
          intro stuck
          rw [(Position.start text).erasable_of_stuck stuck member] at erases
          cases erases
        have same := (Position.start text).erasable_removeFirst
        obtain ⟨rounds, folded, ended, absent⟩ := ih _
          (count ▸ length_removeFirst_lt changed) (same.trans erases) rfl
        refine ⟨rounds + 1, folded, ?_, absent⟩
        rw [foldBackspaces, if_pos member, ended]
      · exact ⟨1, text, if_neg member, member⟩

/-- The loop ends if and only if every backspace finds something to erase on its line, or
is erased itself by a later one there. -/
theorem foldsBackspaces_iff_erasable (transcript : List JSString) :
    FoldsBackspaces transcript ↔ erasable 0 false transcript.flatten = true := by
  constructor
  · rintro ⟨rounds, folded, ended, _⟩
    exact erasable_of_foldBackspaces ended
  · exact exists_foldBackspaces

/-- The server sends a single backspace. -/
theorem foldsBackspaces_record_fails :
    ¬∀ batches, FoldsBackspaces (record batches).transcript := by
  intro always
  obtain ⟨rounds, folded, ended, _⟩ := always [[[backspace]]]
  exact absurd (erasable_of_foldBackspaces ended) (by decide)

end CloudRunSsh.WebSSH
