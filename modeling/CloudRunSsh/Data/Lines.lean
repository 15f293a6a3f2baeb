import Mathlib.Data.List.TakeWhile

/-!
# Records on lines

A text of records has one record on a line, with its fields separated by blanks and a
comment from a mark to the end of the line.  A word is read back as it was written
exactly if no symbol in it structures the text.
-/

namespace CloudRunSsh

/-- The symbols that structure a text. -/
structure LineFormat (Symbol : Type) where
  newline : Symbol
  blank : Symbol → Bool
  mark : Symbol

namespace LineFormat

variable {Symbol : Type}

theorem not_mem_of_mem_splitOnP {separates : Symbol → Bool} {text part : List Symbol}
    (member : part ∈ text.splitOnP separates) :
    ∀ symbol ∈ part, symbol ∈ text ∧ separates symbol = false := by
  induction text generalizing part with
  | nil =>
      rw [List.splitOnP_nil, List.mem_singleton] at member
      subst member
      exact fun _ absent => absurd absent List.not_mem_nil
  | cons head rest ih =>
      intro symbol inside
      rw [List.splitOnP_cons_eq_if_modifyHead] at member
      split at member
      · rcases List.mem_cons.mp member with rfl | later
        · exact absurd inside List.not_mem_nil
        · have found := ih later symbol inside
          exact ⟨List.mem_cons_of_mem _ found.1, found.2⟩
      · rename_i kept
        rcases List.exists_cons_of_ne_nil (rest.splitOnP_ne_nil separates) with
          ⟨first, others, parts⟩
        rw [parts] at member ih
        rcases List.mem_cons.mp member with rfl | later
        · rcases List.mem_cons.mp inside with rfl | deeper
          · exact ⟨List.mem_cons_self, Bool.eq_false_iff.mpr kept⟩
          · have found := ih List.mem_cons_self symbol deeper
            exact ⟨List.mem_cons_of_mem _ found.1, found.2⟩
        · have found := ih (List.mem_cons_of_mem _ later) symbol inside
          exact ⟨List.mem_cons_of_mem _ found.1, found.2⟩

theorem mem_intercalate {separator symbol : Symbol} {words : List (List Symbol)}
    (member : symbol ∈ [separator].intercalate words) :
    symbol = separator ∨ ∃ word ∈ words, symbol ∈ word := by
  induction words with
  | nil => exact absurd member List.not_mem_nil
  | cons word rest ih =>
      cases rest with
      | nil =>
          rw [List.intercalate_singleton] at member
          exact .inr ⟨word, List.mem_cons_self, member⟩
      | cons next rest =>
          rw [List.intercalate_cons_cons] at member
          rcases List.mem_append.mp member with early | later
          · rcases List.mem_append.mp early with own | between
            · exact .inr ⟨word, List.mem_cons_self, own⟩
            · exact .inl (List.mem_singleton.mp between)
          · rcases ih later with between | ⟨other, found, inside⟩
            · exact .inl between
            · exact .inr ⟨other, List.mem_cons_of_mem _ found, inside⟩

/-- A symbol of a text, other than the separator, is in one of the parts. -/
theorem exists_mem_splitOn [DecidableEq Symbol] {separator symbol : Symbol} {text : List Symbol}
    (member : symbol ∈ text) (other : symbol ≠ separator) :
    ∃ part ∈ text.splitOn separator, symbol ∈ part := by
  have joined : [separator].intercalate (text.splitOn separator) = text :=
    List.intercalate_splitOn separator
  rw [← joined] at member
  exact (mem_intercalate member).resolve_left other

/-- Words without separators are split where they were joined. -/
theorem splitOnP_intercalate {separates : Symbol → Bool} {separator : Symbol}
    (separating : separates separator = true) {words : List (List Symbol)}
    (kept : ∀ word ∈ words, ∀ symbol ∈ word, separates symbol = false)
    (some : words ≠ []) : ([separator].intercalate words).splitOnP separates = words := by
  induction words with
  | nil => exact absurd rfl some
  | cons word rest ih =>
      have own := kept word List.mem_cons_self
      cases rest with
      | nil => rw [List.intercalate_singleton, List.splitOnP_eq_singleton own]
      | cons next rest =>
          have others := ih (fun other member => kept other (List.mem_cons_of_mem _ member))
            (List.cons_ne_nil _ _)
          rw [List.intercalate_cons_cons, List.append_assoc, List.singleton_append,
            List.splitOnP_append_cons_of_forall_mem own separator separating, others]

variable [DecidableEq Symbol] (format : LineFormat Symbol)

/-- The fields of a line before its comment. -/
def fields (line : List Symbol) : List (List Symbol) :=
  ((line.takeWhile fun symbol => !decide (symbol = format.mark)).splitOnP format.blank).filter
    fun field => !field.isEmpty

/-- The fields of every line. -/
def read (text : List Symbol) : List (List (List Symbol)) :=
  (text.splitOn format.newline).map format.fields

/-- A line for every record, with the fields separated by one symbol. -/
def write (separator : Symbol) (records : List (List (List Symbol))) : List Symbol :=
  records.flatMap fun record => [separator].intercalate record ++ [format.newline]

/-- A word that can be read as one field. -/
structure Plain (word : List Symbol) : Prop where
  nonempty : word ≠ []
  newline : format.newline ∉ word
  blank : ∀ symbol ∈ word, format.blank symbol = false
  mark : format.mark ∉ word

variable {format}

/-- Every field that is read is plain. -/
theorem plain_of_mem_read {text field : List Symbol} {record : List (List Symbol)}
    (record_mem : record ∈ format.read text) (field_mem : field ∈ record) :
    format.Plain field := by
  rcases List.mem_map.mp record_mem with ⟨line, line_mem, rfl⟩
  rcases List.mem_filter.mp field_mem with ⟨part, nonempty⟩
  have inside := not_mem_of_mem_splitOnP part
  have before : ∀ symbol ∈ field, symbol ∈ line ∧ symbol ≠ format.mark := by
    intro symbol member
    have taken := (inside symbol member).1
    exact ⟨List.takeWhile_subset _ taken, by simpa using List.mem_takeWhile_imp taken⟩
  constructor
  · simpa using nonempty
  · intro member
    rw [List.splitOn_eq_splitOnP] at line_mem
    have split := not_mem_of_mem_splitOnP line_mem _ (before _ member).1
    simp at split
  · exact fun symbol member => (inside symbol member).2
  · exact fun member => (before _ member).2 rfl

section Write

variable {separator : Symbol} (blank : format.blank separator = true)
variable (line : separator ≠ format.newline) (text : separator ≠ format.mark)

include blank text in
/-- The fields of a line of plain words are these words. -/
theorem fields_intercalate {record : List (List Symbol)}
    (plain : ∀ word ∈ record, format.Plain word) :
    format.fields ([separator].intercalate record) = record := by
  have uncommented : ([separator].intercalate record).takeWhile
      (fun symbol => !decide (symbol = format.mark)) = [separator].intercalate record := by
    apply List.takeWhile_eq_self_iff.mpr
    intro symbol member
    rcases mem_intercalate member with rfl | ⟨word, found, inside⟩
    · simp [text]
    · have different : symbol ≠ format.mark := by
        rintro rfl
        exact (plain word found).mark inside
      simp [different]
  have nonempty : record.filter (fun field => !field.isEmpty) = record := by
    apply List.filter_eq_self.mpr
    intro word member
    simpa using (plain word member).nonempty
  rw [fields, uncommented]
  cases record with
  | nil => rfl
  | cons word rest =>
      rw [splitOnP_intercalate blank (fun other member => (plain other member).blank)
        (List.cons_ne_nil _ _), nonempty]

include blank line text in
/-- Records of plain words are read back as they were written. -/
theorem read_write {records : List (List (List Symbol))}
    (plain : ∀ record ∈ records, ∀ word ∈ record, format.Plain word) :
    format.read (format.write separator records) = records ++ [[]] := by
  induction records with
  | nil => simp [read, write, fields]
  | cons record rest ih =>
      have own := plain record List.mem_cons_self
      have single : format.newline ∉ [separator].intercalate record := by
        intro member
        rcases mem_intercalate member with same | ⟨word, found, inside⟩
        · exact line same.symm
        · exact (own word found).newline inside
      have others := ih fun other member => plain other (List.mem_cons_of_mem _ member)
      rw [read] at others ⊢
      rw [write, List.flatMap_cons, List.append_assoc, List.singleton_append,
        List.splitOn_append_cons_self_of_not_mem single, List.map_cons,
        fields_intercalate blank text own]
      exact congrArg (record :: ·) others

end Write

/-- The first two fields of a record, if it has as many. -/
def pair : List (List Symbol) → Option (List Symbol × List Symbol)
  | first :: second :: _ => some (first, second)
  | _ => none

variable (format)

/-- The pairs that a text lists. -/
def pairs (text : List Symbol) : List (List Symbol × List Symbol) :=
  (format.read text).filterMap pair

/-- The text that lists pairs. -/
def list (separator : Symbol) (pairs : List (List Symbol × List Symbol)) : List Symbol :=
  format.write separator (pairs.map fun pair => [pair.1, pair.2])

variable {format}

theorem plain_of_mem_pairs {text : List Symbol} {found : List Symbol × List Symbol}
    (member : found ∈ format.pairs text) : format.Plain found.1 ∧ format.Plain found.2 := by
  rcases List.mem_filterMap.mp member with ⟨record, record_mem, same⟩
  cases record with
  | nil => cases same
  | cons first rest =>
      cases rest with
      | nil => cases same
      | cons second rest =>
          cases same
          exact ⟨plain_of_mem_read record_mem List.mem_cons_self,
            plain_of_mem_read record_mem (List.mem_cons_of_mem _ List.mem_cons_self)⟩

theorem pairs_list {separator : Symbol} (blank : format.blank separator = true)
    (line : separator ≠ format.newline) (text : separator ≠ format.mark)
    {listed : List (List Symbol × List Symbol)}
    (plain : ∀ found ∈ listed, format.Plain found.1 ∧ format.Plain found.2) :
    format.pairs (format.list separator listed) = listed := by
  have words : ∀ record ∈ listed.map (fun pair => [pair.1, pair.2]), ∀ word ∈ record,
      format.Plain word := by
    intro record member word inside
    rcases List.mem_map.mp member with ⟨found, found_mem, rfl⟩
    rcases List.mem_cons.mp inside with rfl | later
    · exact (plain found found_mem).1
    · rw [List.mem_singleton.mp later]
      exact (plain found found_mem).2
  rw [pairs, list, read_write blank line text words, List.filterMap_append,
    List.filterMap_map]
  have each : (pair ∘ fun found : List Symbol × List Symbol => [found.1, found.2]) = some := by
    funext found
    rfl
  rw [each, List.filterMap_some]
  exact List.append_nil listed

/-- What a text lists can be read back if and only if all of it is plain. -/
theorem mem_pairs_list_iff {separator : Symbol} (blank : format.blank separator = true)
    (line : separator ≠ format.newline) (text : separator ≠ format.mark)
    (listed : List (List Symbol × List Symbol)) :
    (∀ found, found ∈ format.pairs (format.list separator listed) ↔ found ∈ listed) ↔
      ∀ found ∈ listed, format.Plain found.1 ∧ format.Plain found.2 := by
  constructor
  · intro same found member
    exact plain_of_mem_pairs ((same found).mpr member)
  · intro plain found
    rw [pairs_list blank line text plain]

end LineFormat

end CloudRunSsh
