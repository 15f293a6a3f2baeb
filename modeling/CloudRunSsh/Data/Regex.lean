import Mathlib.Data.List.Basic
import Mathlib.Data.List.TakeDrop

/-!
# Regular expressions with backtracking

A match at the beginning of a text is tried in a fixed order: the first alternative
before the second, one more repetition before none.  The texts that the attempts leave
are listed in this order, and the first one counts.
-/

namespace CloudRunSsh

/-- Patterns: one symbol of a set, sequences, alternatives, and greedy repetition at most
once or any number of times. -/
inductive Regex (Symbol : Type) where
  | set (admits : Symbol → Bool)
  | seq (first second : Regex Symbol)
  | alt (first second : Regex Symbol)
  | opt (body : Regex Symbol)
  | star (body : Regex Symbol)

namespace Regex

variable {Symbol : Type}

/-- At most `bound` repetitions.  One that consumes nothing does not count. -/
def iterate (step : List Symbol → List (List Symbol)) : Nat → List Symbol → List (List Symbol)
  | 0, text => [text]
  | bound + 1, text =>
      ((step text).filter fun left => left.length < text.length).flatMap (iterate step bound) ++
        [text]

/-- What the attempts at a match at the beginning leave of the text. -/
def rests : Regex Symbol → List Symbol → List (List Symbol)
  | .set admits, text =>
      match text with
      | [] => []
      | symbol :: left => if admits symbol then [left] else []
  | .seq first second, text => (first.rests text).flatMap second.rests
  | .alt first second, text => first.rests text ++ second.rests text
  | .opt body, text => iterate body.rests 1 text
  | .star body, text => iterate body.rests text.length text

/-- What the match at the beginning leaves of the text. -/
def exec (regex : Regex Symbol) (text : List Symbol) : Option (List Symbol) :=
  (regex.rests text).head?

/-- `replaceAll` by the empty string, after some symbols of a match. -/
def removeAllFrom (regex : Regex Symbol) : Nat → List Symbol → List Symbol
  | _, [] => []
  | skip + 1, _ :: text => removeAllFrom regex skip text
  | 0, symbol :: text =>
      match regex.exec (symbol :: text) with
      | some left =>
          if left.length ≤ text.length then removeAllFrom regex (text.length - left.length) text
          else symbol :: removeAllFrom regex 0 text
      | none => symbol :: removeAllFrom regex 0 text

/-- `replaceAll` by the empty string. -/
def removeAll (regex : Regex Symbol) (text : List Symbol) : List Symbol :=
  removeAllFrom regex 0 text

/-- `replace` of the first match by the empty string. -/
def removeFirst (regex : Regex Symbol) : List Symbol → List Symbol
  | [] => []
  | symbol :: text =>
      match regex.exec (symbol :: text) with
      | some left => left
      | none => symbol :: removeFirst regex text

/-- The symbol is in a set of the pattern. -/
def mentions (symbol : Symbol) : Regex Symbol → Bool
  | .set admits => admits symbol
  | .seq first second | .alt first second => first.mentions symbol || second.mentions symbol
  | .opt body | .star body => body.mentions symbol

/-- What was consumed consists of symbols of the pattern. -/
structure Consumes (regex : Regex Symbol) (text left : List Symbol) : Prop where
  taken : ∃ taken, taken ++ left = text ∧ ∀ symbol ∈ taken, regex.mentions symbol = true

namespace Consumes

variable {regex other : Regex Symbol} {text middle left : List Symbol}

theorem refl (regex : Regex Symbol) (text : List Symbol) : Consumes regex text text :=
  ⟨[], rfl, List.forall_mem_nil _⟩

theorem trans (first : Consumes regex text middle) (second : Consumes regex middle left) :
    Consumes regex text left := by
  obtain ⟨taken, rfl, mentioned⟩ := first.taken
  obtain ⟨others, rfl, mentioned'⟩ := second.taken
  refine ⟨taken ++ others, List.append_assoc _ _ _, ?_⟩
  exact List.forall_mem_append.mpr ⟨mentioned, mentioned'⟩

theorem mono (consumes : Consumes regex text left)
    (implies : ∀ symbol, regex.mentions symbol = true → other.mentions symbol = true) :
    Consumes other text left := by
  obtain ⟨taken, split, mentioned⟩ := consumes.taken
  exact ⟨taken, split, fun symbol member => implies symbol (mentioned symbol member)⟩

theorem suffix (consumes : Consumes regex text left) : left <:+ text := by
  obtain ⟨taken, split, _⟩ := consumes.taken
  exact ⟨taken, split⟩

end Consumes

theorem consumes_of_mem_iterate {regex : Regex Symbol}
    {step : List Symbol → List (List Symbol)}
    (each : ∀ text, ∀ left ∈ step text, Consumes regex text left) {bound : Nat}
    {text left : List Symbol} (member : left ∈ iterate step bound text) :
    Consumes regex text left := by
  induction bound generalizing text with
  | zero =>
      rw [iterate, List.mem_singleton] at member
      rw [member]
      exact Consumes.refl regex text
  | succ bound ih =>
      rw [iterate, List.mem_append, List.mem_singleton, List.mem_flatMap] at member
      rcases member with ⟨middle, attempt, member⟩ | rfl
      · exact (each text middle (List.mem_filter.mp attempt).1).trans (ih member)
      · exact Consumes.refl regex left

theorem consumes_of_mem_rests {regex : Regex Symbol} {text left : List Symbol}
    (member : left ∈ regex.rests text) : Consumes regex text left := by
  induction regex generalizing text left with
  | set admits =>
      cases text with
      | nil => cases member
      | cons symbol rest =>
          rw [rests] at member
          split at member
          · rename_i admitted
            rw [List.mem_singleton.mp member]
            exact ⟨[symbol], rfl, List.forall_mem_singleton.mpr admitted⟩
          · cases member
  | seq first second ih ih' =>
      obtain ⟨middle, attempt, member⟩ := List.mem_flatMap.mp member
      apply ((ih attempt).mono _).trans ((ih' member).mono _)
      · intro symbol mentioned
        rw [mentions, mentioned, Bool.true_or]
      · intro symbol mentioned
        rw [mentions, mentioned, Bool.or_true]
  | alt first second ih ih' =>
      rcases List.mem_append.mp member with member | member
      · apply (ih member).mono
        intro symbol mentioned
        rw [mentions, mentioned, Bool.true_or]
      · apply (ih' member).mono
        intro symbol mentioned
        rw [mentions, mentioned, Bool.or_true]
  | opt body ih | star body ih =>
      apply consumes_of_mem_iterate _ member
      intro text left attempt
      exact (ih attempt).mono fun _ mentioned => mentioned

theorem consumes_of_exec {regex : Regex Symbol} {text left : List Symbol}
    (found : regex.exec text = some left) : Consumes regex text left :=
  consumes_of_mem_rests (List.mem_of_mem_head? found)

/-- The pattern matches at the beginning of every text. -/
def Total (regex : Regex Symbol) : Prop := ∀ text, ∃ left, regex.exec text = some left

/-- Every match consumes something. -/
def Progresses (regex : Regex Symbol) : Prop :=
  ∀ text, ∀ left ∈ regex.rests text, left.length < text.length

section Exec

variable {regex first second body : Regex Symbol} {admits : Symbol → Bool}
variable {symbol : Symbol} {text left : List Symbol}

theorem exec_set_cons :
    (set admits).exec (symbol :: text) = if admits symbol then some text else none := by
  rw [exec, rests]
  split <;> rfl

/-- If the second part always matches, the first match of the first part counts. -/
theorem exec_seq (total : second.Total) (text : List Symbol) :
    (seq first second).exec text = (first.exec text).bind second.exec := by
  rw [exec, rests, exec]
  cases first.rests text with
  | nil => rfl
  | cons left others =>
      obtain ⟨rest, found⟩ := total left
      rw [List.flatMap_cons, List.head?_append]
      change (second.exec left).or _ = second.exec left
      rw [found, Option.some_or]

theorem Total.seq (total : first.Total) (total' : second.Total) : (seq first second).Total := by
  intro text
  obtain ⟨middle, found⟩ := total text
  rw [exec_seq total', found]
  exact total' middle

theorem exec_alt (text : List Symbol) :
    (alt first second).exec text = (first.exec text).or (second.exec text) := by
  rw [exec, rests, List.head?_append]
  rfl

theorem progresses_set : (set admits).Progresses := by
  intro text left member
  cases text with
  | nil => cases member
  | cons symbol rest =>
      rw [rests] at member
      split at member
      · rw [List.mem_singleton.mp member]
        exact Nat.lt_succ_self _
      · cases member

/-- A sequence consumes what its parts do. -/
theorem Progresses.seq_left (progresses : first.Progresses) :
    (seq first second).Progresses := by
  intro text left member
  obtain ⟨middle, attempt, member⟩ := List.mem_flatMap.mp member
  have before := progresses text middle attempt
  have after := (consumes_of_mem_rests member).suffix.length_le
  exact Nat.lt_of_le_of_lt after before

theorem Progresses.seq_right (progresses : second.Progresses) :
    (seq first second).Progresses := by
  intro text left member
  obtain ⟨middle, attempt, member⟩ := List.mem_flatMap.mp member
  have before := (consumes_of_mem_rests attempt).suffix.length_le
  have after := progresses middle left member
  exact Nat.lt_of_lt_of_le after before

theorem Progresses.alt (progresses : first.Progresses) (progresses' : second.Progresses) :
    (alt first second).Progresses := by
  intro text left member
  rcases List.mem_append.mp member with member | member
  · exact progresses text left member
  · exact progresses' text left member

theorem exists_head?_iterate (step : List Symbol → List (List Symbol)) (bound : Nat)
    (text : List Symbol) : ∃ left, (iterate step bound text).head? = some left := by
  cases bound with
  | zero => exact ⟨text, rfl⟩
  | succ bound =>
      rw [iterate, List.head?_append, List.head?_cons, Option.or_some]
      exact ⟨_, rfl⟩

/-- One step of a repetition. -/
theorem head?_iterate (progresses : body.Progresses) (bound : Nat) (text : List Symbol) :
    (iterate body.rests (bound + 1) text).head? =
      match body.exec text with
      | some left => (iterate body.rests bound left).head?
      | none => some text := by
  have all : (body.rests text).filter (fun left => left.length < text.length) =
      body.rests text :=
    List.filter_eq_self.mpr fun left member => decide_eq_true (progresses text left member)
  rw [iterate, all, exec]
  cases body.rests text with
  | nil => rfl
  | cons left others =>
      obtain ⟨rest, found⟩ := exists_head?_iterate body.rests bound left
      rw [List.flatMap_cons, List.append_assoc, List.head?_append]
      dsimp only [List.head?_cons]
      rw [found, Option.some_or]

/-- More repetitions than symbols make no difference. -/
theorem iterate_eq {step : List Symbol → List (List Symbol)} {bound bound' : Nat}
    (enough : text.length ≤ bound) (enough' : text.length ≤ bound') :
    iterate step bound text = iterate step bound' text := by
  induction bound generalizing text bound' with
  | zero =>
      rw [List.eq_nil_of_length_eq_zero (Nat.le_zero.mp enough)]
      cases bound' with
      | zero => rfl
      | succ bound' => simp [iterate]
  | succ bound ih =>
      cases bound' with
      | zero =>
          rw [List.eq_nil_of_length_eq_zero (Nat.le_zero.mp enough')]
          simp [iterate]
      | succ bound' =>
          rw [iterate, iterate]
          congr 1
          apply List.flatMap_congr
          intro left attempt
          have shorter := of_decide_eq_true (List.mem_filter.mp attempt).2
          exact ih (Nat.le_of_lt_succ (Nat.lt_of_lt_of_le shorter enough))
            (Nat.le_of_lt_succ (Nat.lt_of_lt_of_le shorter enough'))

theorem exec_opt (progresses : body.Progresses) (text : List Symbol) :
    (opt body).exec text = some ((body.exec text).getD text) := by
  rw [exec, rests, head?_iterate progresses]
  cases body.exec text <;> rfl

/-- A repetition goes on as long as its body matches. -/
theorem exec_star (progresses : body.Progresses) (text : List Symbol) :
    (star body).exec text =
      match body.exec text with
      | some left => (star body).exec left
      | none => some text := by
  rw [exec, rests, iterate_eq (Nat.le_refl _) (Nat.le_succ _), head?_iterate progresses]
  cases found : body.exec text with
  | none => rfl
  | some left =>
      have shorter := (consumes_of_exec found).suffix.length_le
      exact congrArg List.head? (iterate_eq shorter (Nat.le_refl _))

theorem total_opt (body : Regex Symbol) : (opt body).Total :=
  fun text => exists_head?_iterate body.rests 1 text

theorem total_star (body : Regex Symbol) : (star body).Total :=
  fun text => exists_head?_iterate body.rests text.length text

/-- Symbols before a pattern that begins with none of them. -/
theorem rests_star_seq (rejects : ∀ symbol text, admits symbol = true →
    second.rests (symbol :: text) = []) (text : List Symbol) :
    (seq (star (set admits)) second).rests text = second.rests (text.dropWhile admits) := by
  induction text with
  | nil =>
      rw [rests, rests]
      simp [iterate]
  | cons symbol text ih =>
      rw [rests, rests, List.length_cons, iterate, rests]
      by_cases admitted : admits symbol = true
      · rw [List.dropWhile_cons_of_pos admitted, ← ih, rests, rests, if_pos admitted]
        simp [rejects symbol text admitted]
      · rw [List.dropWhile_cons_of_neg admitted, if_neg admitted]
        simp

theorem exec_star_seq (rejects : ∀ symbol text, admits symbol = true →
    second.rests (symbol :: text) = []) (text : List Symbol) :
    (seq (star (set admits)) second).exec text = second.exec (text.dropWhile admits) := by
  rw [exec, rests_star_seq rejects, exec]

end Exec

/-- On a longer text the match is the same, or it runs into what was appended. -/
def Extends (regex : Regex Symbol) : Prop :=
  ∀ text rest, regex.exec (text ++ rest) = (regex.exec text).map (· ++ rest) ∨
    ∃ left, regex.exec (text ++ rest) = some left ∧ left.length < rest.length

section Extends

variable {first second body : Regex Symbol} {admits : Symbol → Bool}

theorem extends_set : (set admits).Extends := by
  intro text rest
  cases text with
  | nil =>
      cases rest with
      | nil => exact .inl rfl
      | cons symbol rest =>
          by_cases admitted : admits symbol = true
          · right
            exact ⟨rest, exec_set_cons.trans (if_pos admitted), Nat.lt_succ_self _⟩
          · exact .inl (exec_set_cons.trans (if_neg admitted))
  | cons symbol text =>
      left
      rw [List.cons_append, exec_set_cons, exec_set_cons]
      split <;> rfl

theorem Extends.seq (extends_first : first.Extends) (extends_second : second.Extends)
    (total : second.Total) : (Regex.seq first second).Extends := by
  intro text rest
  rw [exec_seq total, exec_seq total]
  rcases extends_first text rest with same | ⟨left, found, shorter⟩
  · rw [same]
    cases first.exec text with
    | none => exact .inl rfl
    | some middle => exact extends_second middle rest
  · right
    obtain ⟨last, found'⟩ := total left
    refine ⟨last, ?_, ?_⟩
    · rw [found, Option.bind_some, found']
    · exact Nat.lt_of_le_of_lt (consumes_of_exec found').suffix.length_le shorter

theorem Extends.alt (extends_first : first.Extends) (extends_second : second.Extends) :
    (Regex.alt first second).Extends := by
  intro text rest
  rw [exec_alt, exec_alt]
  rcases extends_first text rest with same | ⟨left, found, shorter⟩
  · rw [same]
    cases first.exec text with
    | none => exact extends_second text rest
    | some left => exact .inl rfl
  · right
    exact ⟨left, by rw [found, Option.some_or], shorter⟩

theorem Extends.opt (extends_body : body.Extends) (progresses : body.Progresses) :
    (Regex.opt body).Extends := by
  intro text rest
  rw [exec_opt progresses, exec_opt progresses]
  rcases extends_body text rest with same | ⟨left, found, shorter⟩
  · left
    rw [same]
    cases body.exec text <;> rfl
  · right
    exact ⟨left, by rw [found, Option.getD_some], shorter⟩

theorem Extends.star (extends_body : body.Extends) (progresses : body.Progresses) :
    (Regex.star body).Extends := by
  intro text rest
  induction count : text.length using Nat.strongRecOn generalizing text with
  | ind count ih =>
      rw [exec_star progresses, exec_star progresses text]
      rcases extends_body text rest with same | ⟨left, found, shorter⟩
      · rw [same]
        cases found : body.exec text with
        | none => exact .inl rfl
        | some left =>
            have fewer := progresses text left (List.mem_of_mem_head? found)
            exact ih left.length (count ▸ fewer) left rfl
      · right
        obtain ⟨last, found'⟩ := total_star body left
        refine ⟨last, ?_, ?_⟩
        · rw [found]
          exact found'
        · exact Nat.lt_of_le_of_lt (consumes_of_exec found').suffix.length_le shorter

/-- Symbols before a pattern that begins with none of them. -/
theorem Extends.star_seq (extends_second : second.Extends)
    (rejects : ∀ symbol text, admits symbol = true → second.rests (symbol :: text) = []) :
    (Regex.seq (.star (.set admits)) second).Extends := by
  intro text rest
  rw [exec_star_seq rejects, exec_star_seq rejects]
  cases found : text.dropWhile admits with
  | cons symbol others =>
      have longer : (text ++ rest).dropWhile admits = symbol :: others ++ rest := by
        rw [List.dropWhile_append, found]
        rfl
      rw [longer]
      exact extends_second (symbol :: others) rest
  | nil =>
      have longer : (text ++ rest).dropWhile admits = rest.dropWhile admits := by
        rw [List.dropWhile_append, found]
        rfl
      rw [longer]
      have dropped : rest.dropWhile admits <:+ rest := List.dropWhile_suffix admits
      rcases extends_second [] (rest.dropWhile admits) with same | ⟨left, matched, shorter⟩
      · rw [List.nil_append] at same
        rw [same]
        cases matched : second.exec [] with
        | none => exact .inl rfl
        | some left =>
            rw [List.suffix_nil.mp (consumes_of_exec matched).suffix]
            by_cases shorter : (rest.dropWhile admits).length < rest.length
            · exact .inr ⟨rest.dropWhile admits, rfl, shorter⟩
            · left
              rw [dropped.eq_of_length_le (Nat.not_lt.mp shorter)]
      · right
        exact ⟨left, matched, Nat.lt_of_lt_of_le shorter dropped.length_le⟩

end Extends

section Remove

variable {regex : Regex Symbol} {symbol : Symbol} {text left : List Symbol}

theorem removeAllFrom_eq (skip : Nat) (text : List Symbol) :
    regex.removeAllFrom skip text = regex.removeAll (text.drop skip) := by
  induction skip generalizing text with
  | zero => rw [removeAll, List.drop_zero]
  | succ skip ih =>
      cases text with
      | nil => rfl
      | cons symbol text => exact ih text

theorem removeAll_of_none (missed : regex.exec (symbol :: text) = none) :
    regex.removeAll (symbol :: text) = symbol :: regex.removeAll text := by
  rw [removeAll, removeAllFrom, missed, removeAll]

theorem removeAll_of_exec (found : regex.exec (symbol :: text) = some left)
    (shorter : left.length ≤ text.length) :
    regex.removeAll (symbol :: text) = regex.removeAll left := by
  have rest : text.drop (text.length - left.length) = left := by
    obtain ⟨taken, split⟩ := (consumes_of_exec found).suffix
    cases taken with
    | nil =>
        have lengths := congrArg List.length split
        rw [List.nil_append, List.length_cons] at lengths
        exact absurd shorter (by omega)
    | cons first taken =>
        rw [List.cons_append] at split
        cases split
        simp
  rw [removeAll, removeAllFrom, found]
  dsimp only
  rw [if_pos shorter, removeAllFrom_eq, rest]

/-- A match at the beginning is removed. -/
theorem Progresses.removeAll (progresses : regex.Progresses)
    (found : regex.exec text = some left) : regex.removeAll text = regex.removeAll left := by
  have shorter := progresses text left (List.mem_of_mem_head? found)
  cases text with
  | nil => exact absurd shorter (Nat.not_lt_zero _)
  | cons symbol text => exact removeAll_of_exec found (Nat.le_of_lt_succ shorter)

end Remove

end Regex

end CloudRunSsh
