import Mathlib.Data.List.DropRight
import CloudRunSsh.Data.Python

/-!
# Primary domains

`is_same_primary_domain` compares two domains from the end, one symbol after another, until
the second dot.  It decides whether they have the last two labels in common.
-/

namespace CloudRunSsh.WebSSH

section Scan

variable (domain1 domain2 : PyString)

/-- `is_same_primary_domain` after its loop. -/
def afterScan (i : Int) (dots : Nat) : Option Bool :=
  let l1 := domain1.length
  let l2 := domain2.length
  let m := min l1 l2
  if l1 = l2 then some true
  else if dots = 0 then some false
  else (if l1 > m then domain1.getItem i else domain2.getItem i).map fun c => c = PyString.dot

/-- The loop of `is_same_primary_domain`, with what is left of its bound on `i`. -/
def scan : Nat → Int → Nat → Option Bool
  | 0, i, dots => afterScan domain1 domain2 i dots
  | left + 1, i, dots => do
      let c1 ← domain1.getItem i
      let c2 ← domain2.getItem i
      if c1 = c2 then
        if c1 = PyString.dot then
          if dots + 1 = 2 then some true else scan left (i - 1) (dots + 1)
        else scan left (i - 1) dots
      else some false

/-- `is_same_primary_domain`, without a result if an index leaves its string. -/
def isSamePrimaryDomain : Option Bool :=
  scan domain1 domain2 (min domain1.length domain2.length) (-1) 0

end Scan

/-- The labels of a domain. -/
def labels (domain : PyString) : List PyString := domain.splitOn PyString.dot

theorem labels_of_not_mem {domain : PyString} (plain : PyString.dot ∉ domain) :
    labels domain = [domain] := List.splitOn_eq_singleton plain

theorem labels_append (front rest : PyString) :
    labels (front ++ PyString.dot :: rest) = labels front ++ labels rest :=
  List.splitOn_append_cons_self front rest

theorem labels_cons (symbol : Nat) (rest : PyString) :
    labels (symbol :: rest) =
      if symbol = PyString.dot then [] :: labels rest
      else (labels rest).modifyHead (symbol :: ·) := by
  rw [labels, List.splitOn_cons_eq_if_modifyHead]
  exact if_congr beq_iff_eq rfl rfl

theorem exists_labels (domain : PyString) : ∃ label others, labels domain = label :: others :=
  List.exists_cons_of_ne_nil (List.splitOn_ne_nil PyString.dot domain)

/-- The domains are the same, or both have a dot and have their last two labels in common. -/
def SamePrimaryDomain (domain1 domain2 : PyString) : Prop :=
  domain1 = domain2 ∨
    PyString.dot ∈ domain1 ∧ PyString.dot ∈ domain2 ∧
      (labels domain1).rtake 2 = (labels domain2).rtake 2

theorem samePrimaryDomain_equivalence : Equivalence SamePrimaryDomain where
  refl domain := .inl rfl
  symm := by
    rintro domain1 domain2 (same | ⟨dotted1, dotted2, same⟩)
    · exact .inl same.symm
    · exact .inr ⟨dotted2, dotted1, same.symm⟩
  trans := by
    rintro domain1 domain2 domain3 (rfl | ⟨dotted1, dotted2, same⟩) same'
    · exact same'
    · rcases same' with rfl | ⟨_, dotted3, same'⟩
      · exact .inr ⟨dotted1, dotted2, same⟩
      · exact .inr ⟨dotted1, dotted3, same.trans same'⟩

/-- The labels of a reversed domain are its labels, reversed and from the last one on. -/
theorem labels_reverse (domain : PyString) :
    labels domain.reverse = ((labels domain).map List.reverse).reverse := by
  by_cases dotted : PyString.dot ∈ domain
  · obtain ⟨first, rest, split, plain⟩ := List.eq_append_cons_of_mem dotted
    have plain' : PyString.dot ∉ first.reverse := by
      rw [List.mem_reverse]
      exact plain
    have shorter : rest.length < domain.length := by
      rw [split, List.length_append, List.length_cons]
      omega
    rw [split, List.reverse_append, List.reverse_cons, List.append_assoc,
      List.singleton_append, labels_append, labels_append, labels_reverse rest,
      labels_of_not_mem plain', labels_of_not_mem plain, List.map_append, List.reverse_append]
    rfl
  · have plain : PyString.dot ∉ domain.reverse := by
      rw [List.mem_reverse]
      exact dotted
    rw [labels_of_not_mem dotted, labels_of_not_mem plain]
    rfl
termination_by domain.length

/-- What is compared are the first two labels of the reversed domains. -/
theorem rtake_labels_inj {domain1 domain2 : PyString} :
    (labels domain1).rtake 2 = (labels domain2).rtake 2 ↔
      (labels domain1.reverse).take 2 = (labels domain2.reverse).take 2 := by
  rw [labels_reverse, labels_reverse, List.rtake_eq_reverse_take_reverse,
    List.rtake_eq_reverse_take_reverse, ← List.map_reverse, ← List.map_reverse, ← List.map_take,
    ← List.map_take, List.reverse_inj]
  exact (List.map_injective_iff.mpr List.reverse_injective).eq_iff.symm

/-- A symbol before a text begins its first label, or ends an empty one. -/
theorem take_labels_cons (symbol : Nat) (rest : PyString) (count : Nat) :
    (labels (symbol :: rest)).take (count + 1) =
      if symbol = PyString.dot then [] :: (labels rest).take count
      else ((labels rest).take (count + 1)).modifyHead (symbol :: ·) := by
  obtain ⟨label, others, split⟩ := exists_labels rest
  rw [labels_cons]
  split_ifs
  · rfl
  · rw [split]
    rfl

/-- Labels are the same after the same symbol if they are the same without it. -/
theorem modifyHead_cons_inj {symbol : Nat} {rest1 rest2 : PyString} {count : Nat} :
    ((labels rest1).take (count + 1)).modifyHead (symbol :: ·) =
        ((labels rest2).take (count + 1)).modifyHead (symbol :: ·) ↔
      (labels rest1).take (count + 1) = (labels rest2).take (count + 1) := by
  obtain ⟨label1, others1, split1⟩ := exists_labels rest1
  obtain ⟨label2, others2, split2⟩ := exists_labels rest2
  rw [split1, split2]
  simp

/-- Texts that begin differently begin with different labels. -/
theorem take_labels_cons_ne {symbol1 symbol2 : Nat} (differ : symbol1 ≠ symbol2)
    (rest1 rest2 : PyString) (count : Nat) :
    (labels (symbol1 :: rest1)).take (count + 1) ≠
      (labels (symbol2 :: rest2)).take (count + 1) := by
  intro same
  have whole := congrArg (fun labels => labels.head?.bind List.head?) same
  obtain ⟨label1, others1, split1⟩ := exists_labels rest1
  obtain ⟨label2, others2, split2⟩ := exists_labels rest2
  rw [take_labels_cons, take_labels_cons, split1, split2] at whole
  split_ifs at whole <;> simp_all

/-- The verdict on what is left of the reversed domains, after some dots. -/
def agree (dots : Nat) : PyString → PyString → Bool
  | [], [] => true
  | symbol :: _, [] | [], symbol :: _ => dots ≠ 0 ∧ symbol = PyString.dot
  | symbol1 :: rest1, symbol2 :: rest2 =>
      if symbol1 = symbol2 then
        if symbol1 = PyString.dot then dots + 1 = 2 ∨ agree (dots + 1) rest1 rest2
        else agree dots rest1 rest2
      else false

/-- The domains agree as far as it takes to compare `count + 1` more labels. -/
def Agree (count : Nat) (rest1 rest2 : PyString) : Prop :=
  rest1 = rest2 ∨ (count = 0 ∨ PyString.dot ∈ rest1) ∧ (count = 0 ∨ PyString.dot ∈ rest2) ∧
    (labels rest1).take (count + 1) = (labels rest2).take (count + 1)

theorem Agree.symm {count : Nat} {rest1 rest2 : PyString} (agrees : Agree count rest1 rest2) :
    Agree count rest2 rest1 := by
  rcases agrees with same | ⟨dotted1, dotted2, same⟩
  · exact .inl same.symm
  · exact .inr ⟨dotted2, dotted1, same.symm⟩

/-- A domain that has come to its end agrees with one that has a label there. -/
theorem agree_nil_cons {count symbol : Nat} {rest : PyString} :
    Agree count [] (symbol :: rest) ↔ count = 0 ∧ symbol = PyString.dot := by
  constructor
  · rintro (same | ⟨ended, _, same⟩)
    · cases same
    · obtain rfl := ended.resolve_right List.not_mem_nil
      refine ⟨rfl, ?_⟩
      by_contra other
      obtain ⟨label, others, split⟩ := exists_labels rest
      rw [take_labels_cons, if_neg other, split] at same
      cases same
  · rintro ⟨rfl, rfl⟩
    exact .inr ⟨.inl rfl, .inl rfl, by rw [take_labels_cons, if_pos rfl]; rfl⟩

/-- A dot ends the last label that is compared. -/
theorem agree_zero_cons_dot (rest1 rest2 : PyString) :
    Agree 0 (PyString.dot :: rest1) (PyString.dot :: rest2) := by
  refine .inr ⟨.inl rfl, .inl rfl, ?_⟩
  rw [take_labels_cons, take_labels_cons, if_pos rfl, if_pos rfl]
  rfl

theorem agree_one_cons_dot {rest1 rest2 : PyString} :
    Agree 1 (PyString.dot :: rest1) (PyString.dot :: rest2) ↔ Agree 0 rest1 rest2 := by
  rw [Agree, Agree, take_labels_cons, take_labels_cons, if_pos rfl, if_pos rfl,
    List.cons_inj_right, List.cons_inj_right]
  simp

theorem agree_cons {count symbol : Nat} {rest1 rest2 : PyString} (plain : symbol ≠ PyString.dot) :
    Agree count (symbol :: rest1) (symbol :: rest2) ↔ Agree count rest1 rest2 := by
  rw [Agree, Agree, take_labels_cons, take_labels_cons, if_neg plain, if_neg plain,
    modifyHead_cons_inj, List.cons_inj_right, List.mem_cons, List.mem_cons,
    or_iff_right plain.symm, or_iff_right plain.symm]

theorem not_agree_cons {count symbol1 symbol2 : Nat} {rest1 rest2 : PyString}
    (differ : symbol1 ≠ symbol2) : ¬Agree count (symbol1 :: rest1) (symbol2 :: rest2) := by
  rintro (same | ⟨_, _, same⟩)
  · exact differ (List.cons.inj same).1
  · exact take_labels_cons_ne differ rest1 rest2 count same

theorem agree_iff {dots count : Nat} (one : dots + count = 1) (rest1 rest2 : PyString) :
    agree dots rest1 rest2 = true ↔ Agree count rest1 rest2 := by
  induction rest1 generalizing rest2 dots count with
  | nil =>
      have ended : dots ≠ 0 ↔ count = 0 := by omega
      cases rest2 with
      | nil => exact iff_of_true rfl (.inl rfl)
      | cons symbol rest => rw [agree, decide_eq_true_iff, agree_nil_cons, ended]
  | cons symbol1 rest1 ih =>
      have ended : dots ≠ 0 ↔ count = 0 := by omega
      cases rest2 with
      | nil =>
          rw [agree, decide_eq_true_iff, ended, ← agree_nil_cons]
          exact ⟨Agree.symm, Agree.symm⟩
      | cons symbol2 rest2 =>
          rw [agree]
          split_ifs with same separates
          · subst same separates
            cases count with
            | zero =>
                have last : dots + 1 = 2 := by omega
                exact iff_of_true (decide_eq_true (Or.inl last)) (agree_zero_cons_dot rest1 rest2)
            | succ count =>
                obtain ⟨rfl, rfl⟩ : dots = 0 ∧ count = 0 := by omega
                rw [decide_eq_true_iff, agree_one_cons_dot, ← ih rfl]
                simp
          · subst same
            rw [agree_cons separates]
            exact ih one rest2
          · exact iff_of_false not_false (not_agree_cons same)

theorem drop_reverse_of_le (domain : PyString) {seen : Nat} (ended : domain.length ≤ seen) :
    domain.reverse.drop seen = [] := by
  apply List.drop_eq_nil_of_le
  rw [List.length_reverse]
  exact ended

theorem lt_length_reverse {domain : PyString} {seen : Nat} (inside : seen < domain.length) :
    seen < domain.reverse.length := by
  rw [List.length_reverse]
  exact inside

/-- One of the domains has come to its end. -/
theorem afterScan_eq (domain1 domain2 : PyString) {seen : Nat} (dots : Nat)
    (ended : seen = min domain1.length domain2.length) :
    afterScan domain1 domain2 (-1 - seen) dots =
      some (agree dots (domain1.reverse.drop seen) (domain2.reverse.drop seen)) := by
  rw [afterScan, PyString.getItem_fromEnd, PyString.getItem_fromEnd, ← ended]
  rcases Nat.lt_trichotomy domain1.length domain2.length with less | same | more
  · have inside : seen < domain2.length := by omega
    have outside : ¬domain1.length > seen := by omega
    rw [if_neg less.ne, if_neg outside, List.getElem?_eq_getElem (lt_length_reverse inside),
      drop_reverse_of_le domain1 (by omega), List.drop_eq_getElem_cons (lt_length_reverse inside),
      agree]
    split_ifs with none
    · simp [none]
    · simp [none]
  · rw [if_pos same, drop_reverse_of_le domain1 (by omega), drop_reverse_of_le domain2 (by omega),
      agree]
  · have inside : domain1.length > seen := by omega
    rw [if_neg more.ne', if_pos inside, List.getElem?_eq_getElem (lt_length_reverse inside),
      drop_reverse_of_le domain2 (by omega),
      List.drop_eq_getElem_cons (lt_length_reverse inside), agree]
    split_ifs with none
    · simp [none]
    · simp [none]

/-- The scan goes along the reversed domains. -/
theorem scan_eq (domain1 domain2 : PyString) {left seen : Nat} (dots : Nat)
    (within : seen + left = min domain1.length domain2.length) :
    scan domain1 domain2 left (-1 - seen) dots =
      some (agree dots (domain1.reverse.drop seen) (domain2.reverse.drop seen)) := by
  induction left generalizing seen dots with
  | zero => exact afterScan_eq domain1 domain2 dots within
  | succ left ih =>
      have inside1 : seen < domain1.reverse.length := lt_length_reverse (by omega)
      have inside2 : seen < domain2.reverse.length := lt_length_reverse (by omega)
      have next : -1 - (seen : Int) - 1 = -1 - (seen + 1 : Nat) := by omega
      rw [scan, PyString.getItem_fromEnd, PyString.getItem_fromEnd,
        List.getElem?_eq_getElem inside1, List.getElem?_eq_getElem inside2,
        List.drop_eq_getElem_cons inside1, List.drop_eq_getElem_cons inside2, agree, next]
      change (if _ then _ else _) = _
      split_ifs with same separates last
      · rw [decide_eq_true (.inl last)]
      · rw [ih (dots + 1) (by omega)]
        simp [last]
      · rw [ih dots (by omega)]
      · rfl

/-- `is_same_primary_domain` never leaves its strings, decides whether the domains are the same
or have their last two labels in common, and is an equivalence. -/
theorem isSamePrimaryDomain_iff :
    (∀ domain1 domain2, ∃ verdict, isSamePrimaryDomain domain1 domain2 = some verdict ∧
        (verdict = true ↔ SamePrimaryDomain domain1 domain2)) ∧
      Equivalence fun domain1 domain2 => isSamePrimaryDomain domain1 domain2 = some true := by
  have decides : ∀ domain1 domain2, ∃ verdict,
      isSamePrimaryDomain domain1 domain2 = some verdict ∧
        (verdict = true ↔ SamePrimaryDomain domain1 domain2) := by
    intro domain1 domain2
    refine ⟨_, scan_eq domain1 domain2 0 (Nat.zero_add _), ?_⟩
    have one : 0 + 1 = 1 := rfl
    rw [List.drop_zero, List.drop_zero, agree_iff one, Agree, SamePrimaryDomain,
      rtake_labels_inj, List.reverse_inj, List.mem_reverse, List.mem_reverse]
    simp
  refine ⟨decides, ?_⟩
  have same : (fun domain1 domain2 => isSamePrimaryDomain domain1 domain2 = some true) =
      SamePrimaryDomain := by
    funext domain1 domain2
    obtain ⟨verdict, found, correct⟩ := decides domain1 domain2
    rw [found, Option.some_inj]
    exact propext correct
  rw [same]
  exact samePrimaryDomain_equivalence

end CloudRunSsh.WebSSH
