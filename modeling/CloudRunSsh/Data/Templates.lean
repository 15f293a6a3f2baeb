import Mathlib.Data.List.Infix

/-!
# Filling templates by replacement

A template is a text with named holes, each name between two marks.  It is filled by a
chain of global replacements, one for each name.  If the names and the texts between two
holes cannot be taken for each other, the chain fills every hole with the value of its
name, and its order does not matter.
-/

namespace CloudRunSsh

variable {Symbol : Type}

section Replacement

variable [DecidableEq Symbol]

/-- Leftmost replacement without rescanning, as it goes on `skipped` symbols before the
end of the last occurrence. -/
def replaceFrom (pattern value : List Symbol) : Nat → List Symbol → List Symbol
  | _, [] => []
  | skipped + 1, _ :: rest => replaceFrom pattern value skipped rest
  | 0, symbol :: rest =>
      if pattern.isPrefixOf (symbol :: rest) then
        value ++ replaceFrom pattern value (pattern.length - 1) rest
      else symbol :: replaceFrom pattern value 0 rest

/-- Every occurrence of a pattern replaced. -/
def replaceAll (pattern value text : List Symbol) : List Symbol :=
  replaceFrom pattern value 0 text

variable {pattern value text : List Symbol} {mark symbol : Symbol}

@[simp] theorem replaceAll_nil : replaceAll pattern value [] = [] := rfl

theorem replaceFrom_skip (pattern value skipped text : List Symbol) :
    replaceFrom pattern value skipped.length (skipped ++ text) =
      replaceAll pattern value text := by
  induction skipped with
  | nil => rfl
  | cons symbol rest ih => exact ih

theorem replaceAll_occurrence (name value text : List Symbol) :
    replaceAll (mark :: name) value (mark :: name ++ text) =
      value ++ replaceAll (mark :: name) value text := by
  have occurs : (mark :: name).isPrefixOf (mark :: (name ++ text)) = true :=
    List.isPrefixOf_iff_prefix.mpr (List.prefix_append (mark :: name) text)
  change replaceFrom (mark :: name) value 0 (mark :: (name ++ text)) = _
  rw [replaceFrom, if_pos occurs]
  exact congrArg (value ++ ·) (replaceFrom_skip (mark :: name) value name text)

theorem replaceAll_cons (absent : ¬pattern <+: symbol :: text) :
    replaceAll pattern value (symbol :: text) =
      symbol :: replaceAll pattern value text := by
  change replaceFrom pattern value 0 (symbol :: text) = _
  rw [replaceFrom, if_neg]
  · rfl
  · exact fun occurs => absent (List.isPrefixOf_iff_prefix.mp occurs)

/-- A pattern that begins with a mark leaves a text without marks as it is. -/
theorem replaceAll_append {unmarked name : List Symbol} (free : mark ∉ unmarked) :
    replaceAll (mark :: name) value (unmarked ++ text) =
      unmarked ++ replaceAll (mark :: name) value text := by
  induction unmarked with
  | nil => rfl
  | cons symbol rest ih =>
      rw [List.mem_cons, not_or] at free
      rw [List.cons_append, List.cons_append, replaceAll_cons, ih free.2]
      intro occurs
      exact free.1 (List.cons_prefix_cons.mp occurs).1

theorem replaceAll_of_not_mem {name : List Symbol} (free : mark ∉ text) :
    replaceAll (mark :: name) value text = text := by
  have replaced := @replaceAll_append _ _ value [] mark text name free
  rwa [replaceAll_nil, List.append_nil] at replaced

/-- Of a pattern that begins with its only mark, an occurrence at the end is taken off, if there
is none before it. -/
theorem replaceAll_concat {name : List Symbol} (single : mark ∉ name)
    (absent : ¬mark :: name <:+: text) : replaceAll (mark :: name) [] (text ++ mark :: name) =
      text := by
  induction text with
  | nil =>
      have replaced : replaceAll (mark :: name) [] (mark :: name ++ []) =
          [] ++ replaceAll (mark :: name) [] [] := replaceAll_occurrence name [] []
      rwa [replaceAll_nil, List.append_nil, List.append_nil] at replaced
  | cons symbol rest ih =>
      rw [List.cons_append, replaceAll_cons, ih fun inside => absent (List.infix_cons inside)]
      rw [← List.cons_append]
      intro occurs
      rcases List.prefix_or_prefix_of_prefix occurs (List.prefix_append _ _) with within | across
      · exact absent within.isInfix
      · obtain ⟨back, split⟩ := across
        obtain ⟨_, tail⟩ := List.cons.inj split
        cases back with
        | nil =>
            rw [List.append_nil] at split
            exact absent (split ▸ List.infix_refl _)
        | cons other back =>
            -- the occurrence would go on with the mark inside of the pattern
            rw [← split, List.prefix_append_right_inj, split] at occurs
            have marked : other = mark := (List.cons_prefix_cons.mp occurs).1
            rw [← tail, marked] at single
            exact single (List.mem_append_right _ List.mem_cons_self)

end Replacement

/-- The marks of a template, and the symbols that its names may have. -/
structure Marking (Symbol : Type) where
  mark : Symbol
  inName : Symbol → Bool
  mark_not_inName : inName mark = false

/-- A text with named holes. -/
inductive Template (Symbol : Type) where
  | text (literal : List Symbol)
  | hole (literal name : List Symbol) (rest : Template Symbol)
  deriving DecidableEq

namespace Template

variable (marking : Marking Symbol)

/-- A name between its marks. -/
def marked (mark : Symbol) (name : List Symbol) : List Symbol := mark :: (name ++ [mark])

/-- The text of a template. -/
def write (mark : Symbol) : Template Symbol → List Symbol
  | text literal => literal
  | hole literal name rest => literal ++ marked mark name ++ rest.write mark

def names : Template Symbol → List (List Symbol)
  | text _ => []
  | hole _ name rest => name :: rest.names

/-- The template with a value in each hole. -/
def fill (values : List Symbol → List Symbol) : Template Symbol → List Symbol
  | text literal => literal
  | hole literal name rest => literal ++ values name ++ rest.fill values

/-- Between a hole and this rest stands no text that might be a name. -/
def Separated : Template Symbol → Prop
  | text _ => True
  | hole literal _ _ => ∃ symbol ∈ literal, marking.inName symbol = false

/-- Names and texts cannot be taken for each other. -/
def WellFormed : Template Symbol → Prop
  | text literal => marking.mark ∉ literal
  | hole literal name rest =>
      marking.mark ∉ literal ∧ (∀ symbol ∈ name, marking.inName symbol = true) ∧
        rest.Separated marking ∧ rest.WellFormed

variable {marking} {mark : Symbol}

theorem fill_congr {values others : List Symbol → List Symbol}
    {template : Template Symbol}
    (agree : ∀ name ∈ template.names, values name = others name) :
    template.fill values = template.fill others := by
  induction template with
  | text literal => rfl
  | hole literal name rest ih =>
      rw [fill, fill, agree name List.mem_cons_self,
        ih fun later member => agree later (List.mem_cons_of_mem _ member)]

theorem length_fill_le {values others : List Symbol → List Symbol} {template : Template Symbol}
    (shorter : ∀ name ∈ template.names, (values name).length ≤ (others name).length) :
    (template.fill values).length ≤ (template.fill others).length := by
  induction template with
  | text literal => exact Nat.le_refl _
  | hole literal name rest ih =>
      have here := shorter name List.mem_cons_self
      have later := ih fun other member => shorter other (List.mem_cons_of_mem _ member)
      simp only [fill, List.length_append]
      omega

/-- Values that are shorter unless they are the same fill a template differently unless they
are the same. -/
theorem agree_of_fill {values others : List Symbol → List Symbol} {template : Template Symbol}
    (shorter : ∀ name ∈ template.names,
      (values name).length < (others name).length ∨ values name = others name)
    (same : template.fill values = template.fill others) :
    ∀ name ∈ template.names, values name = others name := by
  induction template with
  | text literal => nofun
  | hole literal name rest ih =>
      have inRest := fun other member => shorter other (List.mem_cons_of_mem name member)
      have restLe := @length_fill_le _ values others rest fun other member =>
        (inRest other member).elim Nat.le_of_lt (fun equal => Nat.le_of_eq (congrArg _ equal))
      have lengths := congrArg List.length same
      simp only [fill, List.length_append] at lengths
      have here : values name = others name :=
        (shorter name List.mem_cons_self).resolve_left (by omega)
      rw [fill, fill, here] at same
      intro other member
      rcases List.mem_cons.mp member with rfl | later
      · exact here
      · exact ih inRest (List.append_cancel_left same) other later

/-- A text before a template. -/
def prepend (before : List Symbol) : Template Symbol → Template Symbol
  | text literal => text (before ++ literal)
  | hole literal name rest => hole (before ++ literal) name rest

theorem write_prepend (before : List Symbol) (template : Template Symbol) :
    (prepend before template).write mark = before ++ template.write mark := by
  cases template <;> simp [prepend, write, marked]

theorem names_prepend (before : List Symbol) (template : Template Symbol) :
    (prepend before template).names = template.names := by
  cases template <;> rfl

theorem fill_prepend (values : List Symbol → List Symbol) (before : List Symbol)
    (template : Template Symbol) :
    (prepend before template).fill values = before ++ template.fill values := by
  cases template <;> simp [prepend, fill]

theorem Separated.prepend {before : List Symbol} {template : Template Symbol}
    (outside : ∃ symbol ∈ before, marking.inName symbol = false) :
    (prepend before template).Separated marking := by
  obtain ⟨symbol, member, foreign⟩ := outside
  cases template with
  | text literal => trivial
  | hole literal name rest =>
      exact ⟨symbol, List.mem_append_left _ member, foreign⟩

theorem WellFormed.prepend {before : List Symbol} {template : Template Symbol}
    (free : marking.mark ∉ before) (wellFormed : template.WellFormed marking) :
    (prepend before template).WellFormed marking := by
  cases template with
  | text literal =>
      exact fun member => (List.mem_append.mp member).elim free wellFormed
  | hole literal name rest =>
      refine ⟨?_, wellFormed.2⟩
      exact fun member => (List.mem_append.mp member).elim free wellFormed.1

theorem not_mem_of_inName {name : List Symbol}
    (named : ∀ symbol ∈ name, marking.inName symbol = true) : marking.mark ∉ name := by
  intro member
  have inside := named _ member
  rw [marking.mark_not_inName] at inside
  cases inside

/-- A word up to the first mark is determined by the text. -/
theorem eq_of_prefix_mark {word other rest : List Symbol} (free : mark ∉ word)
    (otherFree : mark ∉ other) (found : word ++ [mark] <+: other ++ mark :: rest) :
    word = other := by
  induction word generalizing other with
  | nil =>
      cases other with
      | nil => rfl
      | cons symbol others =>
          rw [List.nil_append, List.cons_append, List.cons_prefix_cons] at found
          exact absurd (found.1 ▸ List.mem_cons_self) otherFree
  | cons symbol word ih =>
      cases other with
      | nil =>
          rw [List.nil_append, List.cons_append, List.cons_prefix_cons] at found
          exact absurd (found.1 ▸ List.mem_cons_self) free
      | cons next others =>
          rw [List.cons_append, List.cons_append, List.cons_prefix_cons] at found
          rw [List.mem_cons, not_or] at free otherFree
          rw [found.1, ih free.2 otherFree.2 found.2]

/-- The mark behind a hole does not begin a name. -/
theorem not_prefix_write {name : List Symbol} {template : Template Symbol}
    (named : ∀ symbol ∈ name, marking.inName symbol = true)
    (separated : template.Separated marking)
    (wellFormed : template.WellFormed marking) :
    ¬name ++ [marking.mark] <+: template.write marking.mark := by
  intro found
  cases template with
  | text literal =>
      apply wellFormed
      exact found.subset (List.mem_append_right _ List.mem_cons_self)
  | hole literal own rest =>
      obtain ⟨symbol, member, foreign⟩ := separated
      have same : name = literal := by
        apply eq_of_prefix_mark (not_mem_of_inName named) wellFormed.1
        · simpa [write, marked] using found
      have inside := named symbol (same ▸ member)
      rw [foreign] at inside
      cases inside

theorem write_of_names_nil {values : List Symbol → List Symbol}
    {template : Template Symbol} (filled : template.names = []) :
    template.write mark = template.fill values := by
  cases template with
  | text literal => rfl
  | hole literal name rest => cases filled

/-- No mark is left where the values have none. -/
theorem mark_not_mem_fill {values : List Symbol → List Symbol}
    {template : Template Symbol} (wellFormed : template.WellFormed marking)
    (free : ∀ name ∈ template.names, marking.mark ∉ values name) :
    marking.mark ∉ template.fill values := by
  induction template with
  | text literal => exact wellFormed
  | hole literal name rest ih =>
      obtain ⟨unmarked, _, _, later⟩ := wellFormed
      have following := ih later fun other member => free other (List.mem_cons_of_mem _ member)
      simp only [fill, List.mem_append, not_or]
      exact ⟨⟨unmarked, free name List.mem_cons_self⟩, following⟩

variable [DecidableEq Symbol]

/-- Reading with the literal, and then the name, that has been read so far. -/
def readFrom (mark : Symbol) :
    List Symbol → Option (List Symbol) → List Symbol → Option (Template Symbol)
  | literal, none, [] => some (text literal)
  | _, some _, [] => none
  | literal, none, symbol :: rest =>
      if symbol = mark then readFrom mark literal (some []) rest
      else readFrom mark (literal ++ [symbol]) none rest
  | literal, some name, symbol :: rest =>
      if symbol = mark then (readFrom mark [] none rest).map (hole literal name)
      else readFrom mark literal (some (name ++ [symbol])) rest

/-- The template that a text writes, if its marks come in pairs. -/
def read (mark : Symbol) (written : List Symbol) : Option (Template Symbol) :=
  readFrom mark [] none written

instance decidableSeparated :
    (template : Template Symbol) → Decidable (template.Separated marking)
  | text _ => .isTrue trivial
  | hole literal _ _ =>
      inferInstanceAs (Decidable (∃ symbol ∈ literal, marking.inName symbol = false))

instance decidableWellFormed :
    (template : Template Symbol) → Decidable (template.WellFormed marking)
  | text literal => inferInstanceAs (Decidable (marking.mark ∉ literal))
  | hole literal name rest =>
      have := decidableWellFormed rest
      inferInstanceAs (Decidable (marking.mark ∉ literal ∧
        (∀ symbol ∈ name, marking.inName symbol = true) ∧
          rest.Separated marking ∧ rest.WellFormed marking))

theorem write_of_readFrom {written : List Symbol} {literal : List Symbol}
    {name : Option (List Symbol)} {template : Template Symbol}
    (found : readFrom mark literal name written = some template) :
    template.write mark = literal ++ name.elim [] (mark :: ·) ++ written := by
  induction written generalizing literal name template with
  | nil =>
      cases name with
      | none =>
          cases found
          simp [write]
      | some name => cases found
  | cons symbol rest ih =>
      cases name with
      | none =>
          rw [readFrom] at found
          split at found
          · rename_i marked
            rw [ih found, marked]
            simp
          · rw [ih found]
            simp
      | some name =>
          rw [readFrom] at found
          split at found
          · rename_i marked
            obtain ⟨last, later, rfl⟩ := Option.map_eq_some_iff.mp found
            rw [write, ih later, marked, Template.marked]
            simp
          · rw [ih found]
            simp

/-- What is read is what was written. -/
theorem write_of_read {written : List Symbol} {template : Template Symbol}
    (found : read mark written = some template) : template.write mark = written := by
  have := write_of_readFrom found
  simpa using this

/-- The holes of one name, filled. -/
def plug (name value : List Symbol) : Template Symbol → Template Symbol
  | text literal => text literal
  | hole literal own rest =>
      if own = name then prepend (literal ++ value) (rest.plug name value)
      else hole literal own (rest.plug name value)

theorem names_plug (name value : List Symbol) (template : Template Symbol) :
    (template.plug name value).names = template.names.filter (· ≠ name) := by
  induction template with
  | text literal => rfl
  | hole literal own rest ih =>
      rw [plug]
      split
      · rename_i same
        rw [names_prepend, ih, names, List.filter_cons_of_neg]
        simpa using same
      · rename_i other
        rw [names, ih, names, List.filter_cons_of_pos]
        simpa using other

theorem fill_plug {values : List Symbol → List Symbol} {name value : List Symbol}
    {template : Template Symbol} (own : name ∈ template.names → values name = value) :
    (template.plug name value).fill values = template.fill values := by
  induction template with
  | text literal => rfl
  | hole literal first rest ih =>
      have later := ih fun member => own (List.mem_cons_of_mem _ member)
      rw [plug]
      split
      · rename_i same
        subst same
        rw [fill_prepend, later, fill, own List.mem_cons_self]
      · rw [fill, fill, later]

theorem Separated.plug {name value : List Symbol} {template : Template Symbol}
    (separated : template.Separated marking) :
    (template.plug name value).Separated marking := by
  cases template with
  | text literal => trivial
  | hole literal own rest =>
      rw [Template.plug]
      split
      · obtain ⟨symbol, member, foreign⟩ := separated
        exact Separated.prepend ⟨symbol, List.mem_append_left _ member, foreign⟩
      · exact separated

theorem WellFormed.plug {name value : List Symbol} {template : Template Symbol}
    (free : marking.mark ∉ value) (wellFormed : template.WellFormed marking) :
    (template.plug name value).WellFormed marking := by
  induction template with
  | text literal => exact wellFormed
  | hole literal own rest ih =>
      obtain ⟨unmarked, named, separated, later⟩ := wellFormed
      rw [Template.plug]
      split
      · apply WellFormed.prepend _ (ih later)
        exact fun member => (List.mem_append.mp member).elim unmarked free
      · exact ⟨unmarked, named, separated.plug, ih later⟩

/-- The replacement of one marked name fills the holes of that name. -/
theorem replaceAll_write {name value : List Symbol} {template : Template Symbol}
    (named : ∀ symbol ∈ name, marking.inName symbol = true)
    (wellFormed : template.WellFormed marking) :
    replaceAll (marked marking.mark name) value
        (template.write marking.mark) =
      (template.plug name value).write marking.mark := by
  induction template with
  | text literal => exact replaceAll_of_not_mem wellFormed
  | hole literal own rest ih =>
      obtain ⟨free, ownNamed, separated, later⟩ := wellFormed
      have ownFree := not_mem_of_inName ownNamed
      have skipped {text unmarked : List Symbol} (free : marking.mark ∉ unmarked) :
          replaceAll (marked marking.mark name) value (unmarked ++ text) =
            unmarked ++ replaceAll (marked marking.mark name) value text :=
        replaceAll_append free
      rw [plug, write, List.append_assoc, skipped free]
      split
      · rename_i same
        subst same
        have filled : replaceAll (marked marking.mark own) value
            (marked marking.mark own ++ rest.write marking.mark) =
              value ++ replaceAll (marked marking.mark own) value
                (rest.write marking.mark) :=
          replaceAll_occurrence _ _ _
        rw [filled, ih later, write_prepend, List.append_assoc]
      · rename_i other
        have first : ¬marked marking.mark name <+:
            marking.mark :: (own ++ marking.mark :: rest.write marking.mark) := by
          intro found
          rw [marked, List.cons_prefix_cons] at found
          exact other (eq_of_prefix_mark (not_mem_of_inName named) ownFree found.2).symm
        have second : ¬marked marking.mark name <+:
            marking.mark :: rest.write marking.mark := by
          intro found
          rw [marked, List.cons_prefix_cons] at found
          exact not_prefix_write named separated later found.2
        have opened : marked marking.mark own ++ rest.write marking.mark =
            marking.mark :: (own ++ marking.mark :: rest.write marking.mark) := by
          simp [marked]
        rw [opened, replaceAll_cons first, skipped ownFree, replaceAll_cons second,
          ih later, write, marked]
        simp

/-- A name with the value that replaces it. -/
structure Rule (Symbol : Type) where
  name : List Symbol
  value : List Symbol

/-- A chain of global replacements, in order. -/
def run (mark : Symbol) (rules : List (Rule Symbol)) (text : List Symbol) : List Symbol :=
  rules.foldl
    (fun text rule => replaceAll (marked mark rule.name) rule.value text) text

/-- A rule that replaces a name by a text without marks. -/
def Rule.Regular (marking : Marking Symbol) (rule : Rule Symbol) : Prop :=
  (∀ symbol ∈ rule.name, marking.inName symbol = true) ∧ marking.mark ∉ rule.value

/-- A chain that has a rule for each name fills the template, in any order. -/
theorem run_write {values : List Symbol → List Symbol} {rules : List (Rule Symbol)}
    {template : Template Symbol} (wellFormed : template.WellFormed marking)
    (regular : ∀ rule ∈ rules, rule.Regular marking)
    (agree : ∀ rule ∈ rules, rule.name ∈ template.names → values rule.name = rule.value)
    (covered : ∀ name ∈ template.names, ∃ rule ∈ rules, rule.name = name) :
    run marking.mark rules (template.write marking.mark) = template.fill values := by
  induction rules generalizing template with
  | nil =>
      apply write_of_names_nil
      apply List.eq_nil_iff_forall_not_mem.mpr
      intro name member
      obtain ⟨rule, absent, _⟩ := covered name member
      exact absurd absent List.not_mem_nil
  | cons rule rules ih =>
      have own := regular rule List.mem_cons_self
      change run marking.mark rules (replaceAll _ rule.value _) = _
      rw [replaceAll_write own.1 wellFormed]
      rw [ih (wellFormed.plug own.2)]
      · exact fill_plug (agree rule List.mem_cons_self)
      · exact fun later member => regular later (List.mem_cons_of_mem _ member)
      · intro later member occurs
        rw [names_plug] at occurs
        exact agree later (List.mem_cons_of_mem _ member) (List.mem_filter.mp occurs).1
      · intro name member
        rw [names_plug, List.mem_filter] at member
        obtain ⟨other, found, same⟩ := covered name member.1
        rcases List.mem_cons.mp found with rfl | later
        · simp [same] at member
        · exact ⟨other, later, same⟩

end Template

end CloudRunSsh
