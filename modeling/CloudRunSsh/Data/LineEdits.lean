import Mathlib.Data.List.DropRight
import Mathlib.Data.List.Infix

/-!
# Editing line by line

The commands of stream editors that delete lines, change them, or substitute their beginning or
their end, run one after another over the lines of a file.  Commands that look at different parts
of a line commute, and a script whose commands do not disturb each other settles: its results are
left as they are by every command.
-/

namespace CloudRunSsh

/-- A command of an editor: what it makes of a line, if it does not delete it. -/
abbrev LineEdit (Symbol : Type) := List Symbol → Option (List Symbol)

namespace LineEdit

variable {Symbol : Type}

/-- Commands one after another, each over the whole file. -/
def run (edits : List (LineEdit Symbol)) (lines : List (List Symbol)) : List (List Symbol) :=
  edits.foldl (fun lines edit => lines.filterMap edit) lines

/-- Commands one after another on one line. -/
def script : List (LineEdit Symbol) → LineEdit Symbol
  | [], line => some line
  | edit :: edits, line => (edit line).bind (script edits)

/-- It does not matter whether a file is edited command by command or line by line. -/
theorem run_eq_filterMap (edits : List (LineEdit Symbol)) (lines : List (List Symbol)) :
    run edits lines = lines.filterMap (script edits) := by
  induction edits generalizing lines with
  | nil => exact (List.filterMap_some).symm
  | cons edit edits ih =>
      rw [run, List.foldl_cons]
      exact (ih _).trans List.filterMap_filterMap

theorem run_append (edits : List (LineEdit Symbol)) (lines more : List (List Symbol)) :
    run edits (lines ++ more) = run edits lines ++ run edits more := by
  rw [run_eq_filterMap, run_eq_filterMap, run_eq_filterMap, List.filterMap_append]

theorem script_append (edits more : List (LineEdit Symbol)) (line : List Symbol) :
    script (edits ++ more) line = (script edits line).bind (script more) := by
  induction edits generalizing line with
  | nil => rfl
  | cons edit edits ih =>
      rw [List.cons_append, script, script, Option.bind_assoc]
      exact congrArg _ (funext ih)

/-- A command that deletes nothing. -/
def total (rewrite : List Symbol → List Symbol) : LineEdit Symbol := fun line => some (rewrite line)

/-- A command that does not change its own results. -/
def Idempotent (edit : LineEdit Symbol) : Prop :=
  ∀ line made, edit line = some made → edit made = some made

/-- A command that leaves the results of another one as that leaves them. -/
def Keeps (edit other : LineEdit Symbol) : Prop :=
  ∀ line made, other line = some line → edit line = some made → other made = some made

/-- No command of the script changes its own results, or disturbs those of the ones before. -/
structure Settles (edits : List (LineEdit Symbol)) : Prop where
  idempotent : ∀ edit ∈ edits, edit.Idempotent
  keeps : edits.Pairwise fun other edit => edit.Keeps other

theorem Settles.tail {edit : LineEdit Symbol} {edits : List (LineEdit Symbol)}
    (settles : Settles (edit :: edits)) : Settles edits :=
  ⟨fun other member => settles.idempotent other (List.mem_cons_of_mem _ member),
    settles.keeps.of_cons⟩

/-- What every command leaves as it is, the script does. -/
theorem script_of_forall {edits : List (LineEdit Symbol)} {line : List Symbol}
    (fixed : ∀ edit ∈ edits, edit line = some line) : script edits line = some line := by
  induction edits with
  | nil => rfl
  | cons edit edits ih =>
      rw [script, fixed edit List.mem_cons_self, Option.bind_some]
      exact ih fun other member => fixed other (List.mem_cons_of_mem _ member)

theorem keeps_script {edits : List (LineEdit Symbol)} {other : LineEdit Symbol}
    (keeps : ∀ edit ∈ edits, edit.Keeps other) : (script edits).Keeps other := by
  induction edits with
  | nil =>
      intro line made fixed same
      cases same
      exact fixed
  | cons edit edits ih =>
      intro line made fixed edited
      obtain ⟨between, first, edited⟩ := Option.bind_eq_some_iff.mp edited
      refine ih (fun later member => keeps later (List.mem_cons_of_mem _ member)) between made ?_
        edited
      exact keeps edit List.mem_cons_self line between fixed first

/-- The results of a script that settles are left as they are by each of its commands. -/
theorem Settles.fixed {edits : List (LineEdit Symbol)} (settles : Settles edits)
    {line made : List Symbol} (edited : script edits line = some made) :
    ∀ edit ∈ edits, edit made = some made := by
  induction edits generalizing line with
  | nil => exact List.forall_mem_nil _
  | cons edit edits ih =>
      obtain ⟨between, first, edited⟩ := Option.bind_eq_some_iff.mp edited
      refine List.forall_mem_cons.mpr ⟨?_, ih settles.tail edited⟩
      refine keeps_script (List.pairwise_cons.mp settles.keeps).1 between made ?_ edited
      exact settles.idempotent edit List.mem_cons_self line between first

theorem Settles.append {edits more : List (LineEdit Symbol)} (settles : Settles edits)
    (others : Settles more) (keeps : ∀ other ∈ edits, ∀ edit ∈ more, edit.Keeps other) :
    Settles (edits ++ more) := by
  refine ⟨fun edit member => ?_, List.pairwise_append.mpr ⟨settles.keeps, others.keeps, keeps⟩⟩
  rcases List.mem_append.mp member with first | second
  · exact settles.idempotent edit first
  · exact others.idempotent edit second

theorem Settles.of_append {edits more : List (LineEdit Symbol)}
    (settles : Settles (edits ++ more)) : Settles more :=
  ⟨fun edit member => settles.idempotent edit (List.mem_append_right _ member),
    (List.pairwise_append.mp settles.keeps).2.1⟩

theorem settles_singleton {edit : LineEdit Symbol} (idempotent : edit.Idempotent) :
    Settles [edit] :=
  ⟨List.forall_mem_singleton.mpr idempotent, List.pairwise_singleton _ _⟩

/-- A command does to what a function makes of a line what the function makes of the result. -/
def Commutes (edit : LineEdit Symbol) (rewrite : List Symbol → List Symbol) : Prop :=
  ∀ line, edit (rewrite line) = (edit line).map rewrite

theorem Commutes.script {edits : List (LineEdit Symbol)} {rewrite : List Symbol → List Symbol}
    (commutes : ∀ edit ∈ edits, edit.Commutes rewrite) : (script edits).Commutes rewrite := by
  induction edits with
  | nil => exact fun _ => rfl
  | cons edit edits ih =>
      intro line
      rw [LineEdit.script, LineEdit.script, commutes edit List.mem_cons_self, Option.bind_map,
        Option.map_bind]
      exact congrArg _ (funext (ih fun later member =>
        commutes later (List.mem_cons_of_mem _ member)))

/-- A function that commutes with a command leaves its results as that leaves them. -/
theorem Commutes.keeps {edit : LineEdit Symbol} {rewrite : List Symbol → List Symbol}
    (commutes : edit.Commutes rewrite) : (total rewrite).Keeps edit := by
  rintro line _ fixed ⟨⟩
  rw [commutes, fixed, Option.map_some]

section Commands

variable [DecidableEq Symbol]

/-- What follows a word at the beginning of a line. -/
def after? (word line : List Symbol) : Option (List Symbol) :=
  if word <+: line then some (line.drop word.length) else none

theorem after?_eq_some {word line rest : List Symbol} :
    after? word line = some rest ↔ line = word ++ rest := by
  rw [after?]
  split
  · rename_i front
    obtain ⟨left, rfl⟩ := front
    rw [List.drop_left, Option.some.injEq, List.append_cancel_left_eq]
  · rename_i other
    refine iff_of_false nofun ?_
    rintro rfl
    exact other (List.prefix_append word rest)

theorem after?_eq_none {word line : List Symbol} : after? word line = none ↔ ¬word <+: line := by
  rw [after?]
  split
  · rename_i front
    exact iff_of_false nofun (not_not_intro front)
  · rename_i other
    exact iff_of_true rfl other

/-- `/pattern/d`, for a pattern that stands for itself. -/
def delete (pattern : List Symbol) : LineEdit Symbol := fun line =>
  if pattern <:+: line then none else some line

/-- `/^word/c\text`. -/
def change (word text line : List Symbol) : List Symbol :=
  if word <+: line then text else line

/-- `s/word$/text/`. -/
def substituteEnd (word text line : List Symbol) : List Symbol :=
  if word <:+ line then line.take (line.length - word.length) ++ text else line

/-- `s/^…/text/`, for a pattern whose match leaves the rest of a line. -/
def substitute (rest? : List Symbol → Option (List Symbol)) (text line : List Symbol) :
    List Symbol :=
  (rest? line).elim line (text ++ ·)

/-- A line without a mark at its beginning, as `^#?` matches it. -/
def unmarked (mark : Symbol) : List Symbol → List Symbol
  | [] => []
  | symbol :: rest => if symbol = mark then rest else symbol :: rest

end Commands

section Heads

variable {pattern word head rest line : List Symbol}

/-- No occurrence of a pattern begins in a head, whatever follows. -/
def Clear (pattern head : List Symbol) : Prop :=
  ∀ part ∈ head.tails, part = [] ∨ ¬part <+: pattern ∧ ¬pattern <+: part

instance [DecidableEq Symbol] (pattern head : List Symbol) : Decidable (Clear pattern head) :=
  List.decidableBAll _ _

theorem not_prefix_append (short : ¬word <+: head) (long : ¬head <+: word) :
    ¬word <+: head ++ rest := by
  intro front
  rcases List.prefix_or_prefix_of_prefix front (List.prefix_append head rest) with inside | beyond
  · exact short inside
  · exact long beyond

theorem Clear.append (clear : Clear pattern head) (more : Clear pattern rest) :
    Clear pattern (head ++ rest) := by
  intro part member
  rw [List.mem_tails] at member
  obtain ⟨before, split⟩ := member
  rcases List.append_eq_append_iff.mp split with ⟨own, rfl, rfl⟩ | ⟨own, rfl, rfl⟩
  · rcases clear own ((List.mem_tails _ _).mpr ⟨before, rfl⟩) with rfl | ⟨short, long⟩
    · exact more _ ((List.mem_tails _ _).mpr (List.suffix_refl _))
    · refine .inr ⟨?_, not_prefix_append long short⟩
      exact fun front => short ((List.prefix_append own rest).trans front)
  · exact more part ((List.mem_tails _ _).mpr ⟨own, rfl⟩)

/-- After a clear head a pattern occurs exactly if it occurs in the rest. -/
theorem Clear.infix_append (clear : Clear pattern head) :
    pattern <:+: head ++ rest ↔ pattern <:+: rest := by
  induction head with
  | nil => rw [List.nil_append]
  | cons symbol head ih =>
      have later : Clear pattern head := fun part member =>
        clear part ((List.mem_tails _ _).mpr
          (((List.mem_tails _ _).mp member).trans (List.suffix_cons symbol head)))
      rw [List.cons_append, List.infix_cons_iff, ih later]
      refine or_iff_right fun front => ?_
      rcases clear _ ((List.mem_tails _ _).mpr (List.suffix_refl _)) with none | ⟨short, long⟩
      · cases none
      · exact not_prefix_append long short front

/-- A pattern does not begin where its first symbol is not. -/
theorem clear_of_not_mem {first : Symbol} {others : List Symbol} (absent : first ∉ head) :
    Clear (first :: others) head := by
  intro part member
  cases part with
  | nil => exact .inl rfl
  | cons symbol part =>
      have within : symbol ∈ head :=
        ((List.mem_tails _ _).mp member).subset List.mem_cons_self
      refine .inr ⟨fun front => ?_, fun front => ?_⟩
      · rw [List.cons_prefix_cons] at front
        exact absent (front.1 ▸ within)
      · rw [List.cons_prefix_cons] at front
        exact absent (front.1 ▸ within)

/-- A word that begins with a symbol that is not in the head ends a line exactly if it ends the
rest. -/
theorem suffix_append_iff {first : Symbol} {others : List Symbol} (absent : first ∉ head) :
    first :: others <:+ head ++ rest ↔ first :: others <:+ rest := by
  refine ⟨fun back => ?_, fun back => back.trans (List.suffix_append head rest)⟩
  rcases List.suffix_or_suffix_of_suffix back (List.suffix_append head rest) with inside | beyond
  · exact inside
  · obtain ⟨more, split⟩ := beyond
    rw [← split] at back
    cases more with
    | nil =>
        rw [← split]
        exact List.suffix_refl _
    | cons symbol more =>
        obtain ⟨before, same⟩ := back
        rw [List.cons_append, List.cons.injEq] at split
        rw [← List.append_assoc] at same
        have within := List.append_cancel_right same
        rw [split.1] at within
        exact absurd (by rw [← within]; simp) absent

/-- A word does not end a line that ends with other symbols. -/
theorem not_suffix_append {first last : Symbol} {more : List Symbol}
    (starts : word.head? = some first) (absent : first ∉ more) (member : last ∈ more)
    (other : last ∉ word) (front : List Symbol) :
    ¬word <:+ front ++ more := by
  obtain ⟨others, rfl⟩ := List.head?_eq_some_iff.mp starts
  intro back
  rcases List.suffix_or_suffix_of_suffix back (List.suffix_append front more) with inside | beyond
  · exact absent (inside.subset List.mem_cons_self)
  · exact other (beyond.subset member)

/-- A word is at the beginning of a line exactly if it is in front of what begins with a symbol
that is not in it. -/
theorem prefix_append_iff {first : Symbol} {others : List Symbol} (absent : first ∉ word) :
    word <+: head ++ first :: others ↔ word <+: head := by
  refine ⟨fun front => ?_, fun front => front.trans (List.prefix_append head _)⟩
  rcases List.prefix_or_prefix_of_prefix front (List.prefix_append head _) with inside | beyond
  · exact inside
  · obtain ⟨more, rfl⟩ := beyond
    cases more with
    | nil => rw [List.append_nil]
    | cons symbol more =>
        obtain ⟨left, same⟩ := front
        rw [List.append_assoc, List.append_cancel_left_eq, List.cons_append,
          List.cons.injEq] at same
        exact absurd (by rw [← same.1]; simp) absent

/-- A symbol that is not in a word does not end before it. -/
theorem after?_append [DecidableEq Symbol] {first : Symbol} {front more : List Symbol}
    (absent : first ∉ word) :
    after? word (front ++ first :: more) = (after? word front).map (· ++ first :: more) := by
  by_cases begins : word <+: front
  · obtain ⟨left, rfl⟩ := begins
    rw [after?_eq_some.mpr rfl, Option.map_some, after?_eq_some, List.append_assoc]
  · rw [after?_eq_none.mpr begins, Option.map_none, after?_eq_none, prefix_append_iff absent]
    exact begins

theorem takeWhile_append_cons {among : Symbol → Bool} {first : Symbol} {front more : List Symbol}
    (other : among first = false) :
    (front ++ first :: more).takeWhile among = front.takeWhile among := by
  induction front with
  | nil => rw [List.nil_append, List.takeWhile_cons_of_neg (by simp [other]), List.takeWhile_nil]
  | cons symbol front ih => rw [List.cons_append, List.takeWhile_cons, List.takeWhile_cons, ih]

/-- No symbol of the class is left in front. -/
theorem takeWhile_dropWhile {among : Symbol → Bool} (line : List Symbol) :
    (line.dropWhile among).takeWhile among = [] := by
  induction line with
  | nil => rfl
  | cons symbol line ih =>
      rw [List.dropWhile_cons]
      split
      · exact ih
      · rename_i other
        exact List.takeWhile_cons_of_neg other

theorem dropWhile_append_cons {among : Symbol → Bool} {first : Symbol} {front more : List Symbol}
    (other : among first = false) :
    (front ++ first :: more).dropWhile among = front.dropWhile among ++ first :: more := by
  induction front with
  | nil => rw [List.nil_append, List.dropWhile_cons_of_neg (by simp [other])]; rfl
  | cons symbol front ih =>
      rw [List.cons_append, List.dropWhile_cons, List.dropWhile_cons]
      split
      · exact ih
      · rfl

end Heads

section Parts

variable [DecidableEq Symbol] {pattern word text line : List Symbol}
variable {rewrite : List Symbol → List Symbol}

theorem delete_of_found (found : pattern <:+: line) : delete pattern line = none := if_pos found

theorem delete_of_not (missed : ¬pattern <:+: line) : delete pattern line = some line :=
  if_neg missed

theorem not_infix_of_delete (fixed : delete pattern line = some line) : ¬pattern <:+: line := by
  intro found
  rw [delete_of_found found] at fixed
  cases fixed

theorem idempotent_delete (pattern : List Symbol) : (delete pattern).Idempotent := by
  intro line made edited
  rw [delete] at edited
  split at edited
  · cases edited
  · rename_i absent
    cases edited
    exact if_neg absent

/-- What is not deleted is left as it is. -/
theorem delete_keeps (pattern : List Symbol) (other : LineEdit Symbol) :
    (delete pattern).Keeps other := by
  intro line made fixed edited
  rw [delete] at edited
  split at edited
  · cases edited
  · cases edited
    exact fixed

theorem settles_delete (patterns : List (List Symbol)) : Settles (patterns.map delete) :=
  ⟨List.forall_mem_map.mpr fun pattern _ => idempotent_delete pattern,
    List.pairwise_map.mpr (List.pairwise_of_forall fun _ later => delete_keeps later _)⟩

/-- A line is deleted if it has one of the patterns. -/
theorem script_delete {patterns : List (List Symbol)}
    (found : ∃ pattern ∈ patterns, pattern <:+: line) :
    script (patterns.map delete) line = none := by
  induction patterns with
  | nil =>
      obtain ⟨_, member, _⟩ := found
      cases member
  | cons pattern patterns ih =>
      rw [List.map_cons, script]
      by_cases within : pattern <:+: line
      · rw [delete_of_found within, Option.bind_none]
      · rw [delete_of_not within, Option.bind_some]
        obtain ⟨other, member, inside⟩ := found
        rcases List.mem_cons.mp member with rfl | later
        · exact absurd inside within
        · exact ih ⟨other, later, inside⟩

theorem change_of_begins (begins : word <+: line) : change word text line = text := if_pos begins

theorem change_of_not (other : ¬word <+: line) : change word text line = line := if_neg other

theorem idempotent_change (word text : List Symbol) : (total (change word text)).Idempotent := by
  rintro line _ ⟨⟩
  refine congrArg some ?_
  by_cases begins : word <+: line
  · rw [change_of_begins begins]
    exact ite_self text
  · rw [change_of_not begins, change_of_not begins]

/-- Two changes to the same text. -/
theorem change_keeps (word other text : List Symbol) :
    (total (change word text)).Keeps (total (change other text)) := by
  rintro line _ fixed ⟨⟩
  by_cases begins : word <+: line
  · rw [change_of_begins begins]
    exact congrArg some (ite_self text)
  · rw [change_of_not begins]
    exact fixed

theorem substituteEnd_append (front : List Symbol) :
    substituteEnd word text (front ++ word) = front ++ text := by
  rw [substituteEnd, if_pos (List.suffix_append front word), List.length_append,
    Nat.add_sub_cancel, List.take_left]

theorem substituteEnd_of_not (other : ¬word <:+ line) : substituteEnd word text line = line :=
  if_neg other

theorem idempotent_substituteEnd (ended : ∀ front, ¬word <:+ front ++ text) :
    (total (substituteEnd word text)).Idempotent := by
  rintro line _ ⟨⟩
  refine congrArg some ?_
  by_cases back : word <:+ line
  · obtain ⟨front, rfl⟩ := back
    rw [substituteEnd_append, substituteEnd_of_not (ended front)]
  · rw [substituteEnd_of_not back, substituteEnd_of_not back]

/-- A line that is left as it is does not end with what would be replaced. -/
theorem not_suffix_of_substituteEnd (ended : ∀ front, ¬word <:+ front ++ text)
    (fixed : substituteEnd word text line = line) : ¬word <:+ line := by
  rintro ⟨front, rfl⟩
  rw [substituteEnd_append] at fixed
  exact ended front (fixed ▸ List.suffix_append front word)

/-- The end of a line is not where it is changed. -/
theorem substituteEnd_keeps_change {first : Symbol} {start made more : List Symbol}
    (starts : word.head? = some first) (absent : first ∉ start) (kept : ¬word <:+ made) :
    (total (substituteEnd word (word ++ more))).Keeps (total (change start made)) := by
  obtain ⟨others, rfl⟩ := List.head?_eq_some_iff.mp starts
  rintro line _ fixed ⟨⟩
  refine congrArg some ?_
  replace fixed : change start made line = line := Option.some.inj fixed
  by_cases back : first :: others <:+ line
  · obtain ⟨front, rfl⟩ := back
    have other : ¬start <+: front ++ first :: others := by
      intro begins
      rw [change, if_pos begins] at fixed
      exact kept (fixed ▸ List.suffix_append front _)
    rw [substituteEnd_append]
    refine if_neg fun begins => other ?_
    exact (prefix_append_iff absent).mpr ((prefix_append_iff absent).mp begins)
  · rw [substituteEnd_of_not back]
    exact fixed

end Parts

/-! ## Settings -/

/-- Words that cannot be at the beginning of the same line. -/
def Apart (words others : List (List Symbol)) : Prop :=
  ∀ word ∈ words, ∀ other ∈ others, ¬word <+: other ∧ ¬other <+: word

instance [DecidableEq Symbol] (words others : List (List Symbol)) :
    Decidable (Apart words others) :=
  List.decidableBAll _ _

theorem Apart.symm {words others : List (List Symbol)} (apart : Apart words others) :
    Apart others words :=
  fun other member word within => (apart word within other member).symm

/-- Where `s/^#?word value/word text/` finds a value: behind a word at the beginning of a line,
which a mark may precede.  Symbols outside of an alphabet end a value. -/
structure Place (Symbol : Type) [DecidableEq Symbol] where
  mark : Symbol
  word : List Symbol
  value? : List Symbol → Option (List Symbol)
  alphabet : Symbol → Bool
  unmarked_word : ∀ rest, unmarked mark (word ++ rest) = word ++ rest
  /-- What is left of a line is what follows a value. -/
  split : ∀ {line rest}, value? line = some rest →
    ∃ value : List Symbol, (∀ symbol ∈ value, alphabet symbol) ∧ line = value ++ rest
  ends : ∀ front first more, alphabet first = false →
    value? (front ++ first :: more) = (value? front).map (· ++ first :: more)

namespace Place

variable [DecidableEq Symbol]

/-- The place of a value that is one of some words, as `(?:yes|no)` matches it. -/
def ofWords (mark : Symbol) (word : List Symbol) (words : List (List Symbol))
    (alphabet : Symbol → Bool) (bare : ∀ rest, unmarked mark (word ++ rest) = word ++ rest)
    (within : words.all (·.all alphabet)) : Place Symbol where
  mark := mark
  word := word
  value? line := words.findSome? (after? · line)
  alphabet := alphabet
  unmarked_word := bare
  split := by
    intro line rest found
    obtain ⟨value, member, behind⟩ := List.exists_of_findSome?_eq_some found
    exact ⟨value, List.all_eq_true.mp (List.all_eq_true.mp within value member),
      after?_eq_some.mp behind⟩
  ends := by
    intro front first more outside
    induction words with
    | nil => rfl
    | cons value words ih =>
        rw [List.all_cons, Bool.and_eq_true] at within
        have absent : first ∉ value := fun member =>
          absurd (List.all_eq_true.mp within.1 first member) (by simp [outside])
        rw [List.findSome?_cons, List.findSome?_cons, after?_append absent]
        cases after? value front with
        | none => exact ih within.2
        | some rest => rfl

/-- The place of a value that is as long as symbols of a class go on, as `\d+` matches it. -/
def ofRun (mark : Symbol) (word : List Symbol) (among alphabet : Symbol → Bool)
    (bare : ∀ rest, unmarked mark (word ++ rest) = word ++ rest)
    (within : ∀ symbol, among symbol → alphabet symbol) : Place Symbol where
  mark := mark
  word := word
  value? line := if line.takeWhile among = [] then none else some (line.dropWhile among)
  alphabet := alphabet
  unmarked_word := bare
  split := by
    intro line rest found
    split at found
    · cases found
    · cases found
      refine ⟨line.takeWhile among, fun symbol member => within symbol ?_,
        List.takeWhile_append_dropWhile.symm⟩
      exact List.mem_takeWhile_imp member
  ends := by
    intro front first more outside
    have other : among first = false := by
      by_contra inside
      exact absurd (within first (by simpa using inside)) (by simp [outside])
    rw [takeWhile_append_cons other, dropWhile_append_cons other]
    split
    · rfl
    · rfl

/-- Digits are found in the place of digits. -/
theorem value?_ofRun {mark : Symbol} {word text : List Symbol} {among alphabet : Symbol → Bool}
    {bare : ∀ rest, unmarked mark (word ++ rest) = word ++ rest}
    {within : ∀ symbol, among symbol → alphabet symbol} (filled : text ≠ [])
    (all : ∀ symbol ∈ text, among symbol) {line rest : List Symbol}
    (found : (ofRun mark word among alphabet bare within).value? line = some rest) :
    (ofRun mark word among alphabet bare within).value? (text ++ rest) = some rest := by
  have ended : rest.takeWhile among = [] ∧ rest.dropWhile among = rest := by
    change (if _ then _ else _) = _ at found
    split at found
    · cases found
    · cases found
      exact ⟨takeWhile_dropWhile line, List.dropWhile_idempotent among line⟩
  change (if _ then _ else _) = _
  rw [List.takeWhile_append_of_pos all, List.dropWhile_append_of_pos all, ended.1, ended.2,
    List.append_nil, if_neg filled]

variable (place : Place Symbol)

def rest? (line : List Symbol) : Option (List Symbol) :=
  (after? place.word (unmarked place.mark line)).bind place.value?

def rewrite (text : List Symbol) : List Symbol → List Symbol :=
  substitute place.rest? (place.word ++ text)

/-- What may be before the value. -/
def words : List (List Symbol) := [place.word, place.mark :: place.word]

/-- A text that is written like a value, and that can be told from what follows it. -/
structure Fits (text : List Symbol) : Prop where
  alphabet : ∀ symbol ∈ text, place.alphabet symbol
  stable : ∀ line rest, place.value? line = some rest →
    place.value? (text ++ rest) = none ∨ place.value? (text ++ rest) = some rest

variable {place} {line rest text : List Symbol}

theorem rewrite_of_none (missed : place.rest? line = none) : place.rewrite text line = line := by
  rw [rewrite, substitute, missed, Option.elim_none]

theorem rewrite_of_some (found : place.rest? line = some rest) :
    place.rewrite text line = place.word ++ text ++ rest := by
  rw [rewrite, substitute, found, Option.elim_some]

/-- The line has one of the words and then a value. -/
theorem of_rest? (found : place.rest? line = some rest) :
    ∃ front ∈ place.words, ∃ value, place.value? value = some rest ∧ line = front ++ value := by
  obtain ⟨value, behind, valued⟩ := Option.bind_eq_some_iff.mp found
  rw [after?_eq_some] at behind
  cases line with
  | nil => exact ⟨place.word, List.mem_cons_self, value, valued, behind⟩
  | cons symbol line =>
      rw [unmarked] at behind
      split at behind
      · rename_i same
        exact ⟨place.mark :: place.word, by simp [words], value, valued, by rw [behind, same]; rfl⟩
      · exact ⟨place.word, List.mem_cons_self, value, valued, behind⟩

/-- A line is left as it is, or its beginning is replaced by another. -/
theorem rewrite_cases (place : Place Symbol) (text line : List Symbol) :
    place.rewrite text line = line ∨ ∃ front ∈ place.words, ∃ value rest,
      (∀ symbol ∈ value, place.alphabet symbol) ∧ line = front ++ value ++ rest ∧
        place.rewrite text line = place.word ++ text ++ rest := by
  cases found : place.rest? line with
  | none => exact .inl (rewrite_of_none found)
  | some rest =>
      obtain ⟨front, member, valued, reads, rfl⟩ := of_rest? found
      obtain ⟨value, inside, rfl⟩ := place.split reads
      exact .inr ⟨front, member, value, rest, inside, (List.append_assoc _ _ _).symm,
        rewrite_of_some found⟩

/-- A text that is found again in the place of the values. -/
def Reads (place : Place Symbol) (text : List Symbol) : Prop :=
  ∀ line rest, place.value? line = some rest → place.value? (text ++ rest) = some rest

theorem Reads.fits (reads : place.Reads text)
    (alphabet : ∀ symbol ∈ text, place.alphabet symbol) : place.Fits text :=
  ⟨alphabet, fun line rest found => .inr (reads line rest found)⟩

/-- What was written is found again, if it is a value at all. -/
theorem rest?_written (text rest : List Symbol) :
    place.rest? (place.word ++ text ++ rest) = place.value? (text ++ rest) := by
  rw [rest?, List.append_assoc, place.unmarked_word, after?_eq_some.mpr rfl, Option.bind_some]

/-- Of two settings of the same place the second remains, if it can find the first. -/
theorem rewrite_rewrite {old : List Symbol} (reads : place.Reads old) (line : List Symbol) :
    place.rewrite text (place.rewrite old line) = place.rewrite text line := by
  cases found : place.rest? line with
  | none => exact congrArg _ (rewrite_of_none found)
  | some rest =>
      obtain ⟨_, _, value, valued, _⟩ := of_rest? found
      have again : place.rest? (place.rewrite old line) = some rest := by
        rw [rewrite_of_some found, rest?_written, reads value rest valued]
      rw [rewrite_of_some again, rewrite_of_some found]

/-- Two commands for the word behind the mark and without it. -/
theorem rewrite_twice (reads : place.Reads text) (line : List Symbol) :
    script ([place.mark :: place.word, place.word].map fun word => total
      (substitute (fun line => (after? word line).bind place.value?) (place.word ++ text))) line =
        some (place.rewrite text line) := by
  refine congrArg some ?_
  have apart : ∀ line, after? place.word (place.mark :: line) = none := by
    intro line
    by_contra found
    obtain ⟨rest, found⟩ := Option.ne_none_iff_exists'.mp found
    have bare := place.unmarked_word rest
    rw [← after?_eq_some.mp found, unmarked, if_pos rfl] at bare
    exact List.cons_ne_self _ _ bare.symm
  by_cases marked : ∃ left, line = place.mark :: left
  · obtain ⟨left, rfl⟩ := marked
    have behind : after? (place.mark :: place.word) (place.mark :: left) =
        after? place.word left := by
      simp only [after?, List.cons_prefix_cons, true_and, List.length_cons, List.drop_succ_cons]
    have same : place.rest? (place.mark :: left) = (after? place.word left).bind place.value? := by
      rw [rest?, unmarked, if_pos rfl]
    cases found : (after? place.word left).bind place.value? with
    | none =>
        rw [rewrite_of_none (same.trans found), substitute, substitute, behind, found,
          Option.elim_none, apart]
        rfl
    | some rest =>
        obtain ⟨value, _, valued⟩ := Option.bind_eq_some_iff.mp found
        rw [rewrite_of_some (same.trans found), substitute, substitute, behind, found,
          Option.elim_some, List.append_assoc, after?_eq_some.mpr rfl, Option.bind_some,
          reads value rest valued, Option.elim_some, List.append_assoc]
  · have first : after? (place.mark :: place.word) line = none := by
      rw [after?_eq_none]
      rintro ⟨left, rfl⟩
      exact marked ⟨_, rfl⟩
    have bare : unmarked place.mark line = line := by
      cases line with
      | nil => rfl
      | cons symbol left => exact if_neg fun same => marked ⟨left, by rw [same]⟩
    rw [substitute, substitute, first, Option.bind_none, Option.elim_none, rewrite, substitute,
      rest?, bare]

theorem idempotent (fits : place.Fits text) : (total (place.rewrite text)).Idempotent := by
  rintro line _ ⟨⟩
  refine congrArg some ?_
  cases found : place.rest? line with
  | none => rw [rewrite_of_none found, rewrite_of_none found]
  | some rest =>
      obtain ⟨_, _, value, valued, _⟩ := of_rest? found
      rw [rewrite_of_some found]
      rcases fits.stable value rest valued with missed | again
      · exact rewrite_of_none ((rest?_written text rest).trans missed)
      · exact rewrite_of_some ((rest?_written text rest).trans again)

section Beside

variable {word start front : List Symbol} {words : List (List Symbol)}

/-- Nothing that begins apart from the words is found. -/
theorem rest?_eq_none (apart : Apart place.words words) (member : front ∈ words) :
    place.rest? (front ++ rest) = none := by
  by_contra found
  obtain ⟨left, found⟩ := Option.ne_none_iff_exists'.mp found
  obtain ⟨own, within, value, _, same⟩ := of_rest? found
  obtain ⟨short, long⟩ := apart own within front member
  exact not_prefix_append short long (same ▸ List.prefix_append own value)

/-- Settings of places that are apart commute. -/
theorem commutes_rewrite {other : Place Symbol} {written : List Symbol}
    (apart : Apart other.words place.words) :
    (total (other.rewrite written)).Commutes (place.rewrite text) := by
  intro line
  refine congrArg some ?_
  rcases place.rewrite_cases text line with same | ⟨front, member, value, rest, _, rfl, made⟩
  · rw [same]
    rcases other.rewrite_cases written line with kept | ⟨_, _, _, _, _, _, made⟩
    · rw [kept, same]
    · have missed : place.rest? (other.rewrite written line) = none := by
        rw [made, List.append_assoc]
        exact rest?_eq_none apart.symm List.mem_cons_self
      exact (rewrite_of_none missed).symm
  · have missed : ∀ left, other.rewrite written (front ++ value ++ left) = front ++ value ++ left :=
      fun left => by
        rw [List.append_assoc]
        exact rewrite_of_none (rest?_eq_none apart member)
    rw [missed, made, List.append_assoc]
    exact rewrite_of_none (rest?_eq_none apart List.mem_cons_self)

/-- A change of lines that begin apart, into a line that is not found, commutes with a setting. -/
theorem change_commutes (apart : Apart place.words [start])
    (kept : place.rest? word = none) :
    (total (change start word)).Commutes (place.rewrite text) := by
  intro line
  refine congrArg some ?_
  by_cases begins : start <+: line
  · obtain ⟨left, rfl⟩ := begins
    rw [rewrite_of_none (rest?_eq_none apart List.mem_cons_self),
      change_of_begins (List.prefix_append start left), rewrite_of_none kept]
  · rw [change_of_not begins]
    rcases place.rewrite_cases text line with same | ⟨_, _, _, rest, _, _, made⟩
    · rw [same, change_of_not begins]
    · rw [made, List.append_assoc]
      obtain ⟨long, short⟩ := apart place.word List.mem_cons_self start List.mem_cons_self
      exact change_of_not (not_prefix_append short long)

variable {first : Symbol} (outside : place.alphabet first = false)

include outside

theorem not_mem_value {value : List Symbol} (inside : ∀ symbol ∈ value, place.alphabet symbol) :
    first ∉ value := fun member =>
  absurd (inside first member) (by simp [outside])

/-- Deleting lines with a pattern that does not begin in what a setting replaces or writes
commutes with it. -/
theorem delete_commutes {pattern : List Symbol} (starts : pattern.head? = some first)
    (clear : ∀ word ∈ place.words, Clear pattern word) (fits : place.Fits text) :
    (delete pattern).Commutes (place.rewrite text) := by
  obtain ⟨others, rfl⟩ := List.head?_eq_some_iff.mp starts
  have behind : ∀ front ∈ place.words, ∀ value : List Symbol,
      (∀ symbol ∈ value, place.alphabet symbol) → ∀ rest,
        first :: others <:+: front ++ value ++ rest ↔ first :: others <:+: rest :=
    fun front member value inside rest =>
      ((clear front member).append (clear_of_not_mem (not_mem_value outside inside))).infix_append
  intro line
  rcases place.rewrite_cases text line with same | ⟨front, member, value, rest, inside, rfl, made⟩
  · rw [same]
    by_cases found : first :: others <:+: line
    · rw [delete_of_found found, Option.map_none]
    · rw [delete_of_not found, Option.map_some, same]
  · rw [made]
    by_cases found : first :: others <:+: rest
    · rw [delete_of_found ((behind _ List.mem_cons_self _ fits.alphabet _).mpr found),
        delete_of_found ((behind _ member _ inside _).mpr found), Option.map_none]
    · rw [delete_of_not (mt (behind _ List.mem_cons_self _ fits.alphabet _).mp found),
        delete_of_not (mt (behind _ member _ inside _).mp found), Option.map_some, made]

/-- What follows a symbol that ends a value has no part in a setting. -/
theorem rewrite_append (absent : first ∉ place.mark :: place.word) (front more : List Symbol) :
    place.rewrite text (front ++ first :: more) = place.rewrite text front ++ first :: more := by
  obtain ⟨other, apart⟩ := not_or.mp (mt List.mem_cons.mpr absent)
  have bare : unmarked place.mark (front ++ first :: more) =
      unmarked place.mark front ++ first :: more := by
    cases front with
    | nil => exact if_neg other
    | cons symbol front =>
        rw [List.cons_append, unmarked, unmarked]
        split
        · rfl
        · rfl
  have found : place.rest? (front ++ first :: more) =
      (place.rest? front).map (· ++ first :: more) := by
    rw [rest?, rest?, bare, after?_append apart, Option.bind_map, Option.map_bind]
    exact congrArg _ (funext fun value => place.ends value first more outside)
  cases reads : place.rest? front with
  | none =>
      rw [reads, Option.map_none] at found
      rw [rewrite_of_none reads, rewrite_of_none found]
  | some rest =>
      rw [reads, Option.map_some] at found
      rw [rewrite_of_some reads, rewrite_of_some found]
      simp only [List.append_assoc]

/-- A substitution at the end of a line, behind what a setting replaces or writes, commutes with
it. -/
theorem substituteEnd_commutes {word more : List Symbol} (starts : word.head? = some first)
    (absent : first ∉ place.mark :: place.word) (fits : place.Fits text) :
    (total (substituteEnd word (word ++ more))).Commutes (place.rewrite text) := by
  obtain ⟨others, rfl⟩ := List.head?_eq_some_iff.mp starts
  intro line
  refine congrArg some ?_
  by_cases back : first :: others <:+ line
  · obtain ⟨front, rfl⟩ := back
    rw [rewrite_append outside absent, substituteEnd_append, substituteEnd_append, List.cons_append,
      rewrite_append outside absent]
  · rw [substituteEnd_of_not back]
    rcases place.rewrite_cases text line with same | ⟨_, _, _, rest, _, rfl, made⟩
    · rw [same, substituteEnd_of_not back]
    · have apart : first ∉ place.word ++ text := by
        rw [List.mem_append]
        exact not_or_intro (fun member => absent (List.mem_cons_of_mem _ member))
          (not_mem_value outside fits.alphabet)
      rw [made, substituteEnd_of_not]
      rw [suffix_append_iff apart]
      exact fun inside => back (inside.trans (List.suffix_append _ _))

end Beside

end Place

end LineEdit

end CloudRunSsh
