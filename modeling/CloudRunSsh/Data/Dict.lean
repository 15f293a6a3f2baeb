import Mathlib.Data.List.AList

/-!
# Dictionaries

A dictionary maps each of finitely many keys to one value.  Lookup after an
update is the only thing clients reason about; the order of the entries is that of
the underlying association list.
-/

namespace CloudRunSsh

/-- A finite map with an iteration order. -/
abbrev Dict (Key Value : Type) := AList fun _ : Key => Value

namespace Dict

variable {Key Value : Type} [DecidableEq Key]

theorem lookup_insert (dict : Dict Key Value) (key query : Key) (value : Value) :
    (dict.insert key value).lookup query =
      if query = key then some value else dict.lookup query := by
  split
  · subst query
    exact AList.lookup_insert dict
  · exact AList.lookup_insert_ne ‹_›

theorem lookup_erase (dict : Dict Key Value) (key query : Key) :
    (dict.erase key).lookup query = if query = key then none else dict.lookup query := by
  split
  · subst query
    exact AList.lookup_erase key dict
  · exact AList.lookup_erase_ne ‹_›

/-- The entries in iteration order. -/
def items (dict : Dict Key Value) : List (Key × Value) :=
  dict.entries.map fun entry => (entry.1, entry.2)

@[simp] theorem mem_items {dict : Dict Key Value} {key : Key} {value : Value} :
    (key, value) ∈ dict.items ↔ dict.lookup key = some value := by
  rw [← Option.mem_def, AList.mem_lookup_iff]
  simp only [items, List.mem_map, Prod.mk.injEq]
  constructor
  · rintro ⟨⟨key, value⟩, member, rfl, rfl⟩
    exact member
  · intro member
    exact ⟨⟨key, value⟩, member, rfl, rfl⟩

/-- A dictionary without entries answers no lookup. -/
theorem items_eq_nil {dict : Dict Key Value} :
    dict.items = [] ↔ ∀ key, dict.lookup key = none := by
  rw [List.eq_nil_iff_forall_not_mem]
  constructor
  · intro empty key
    cases found : dict.lookup key with
    | none => rfl
    | some value => exact absurd (mem_items.mpr found) (empty (key, value))
  · intro missing entry member
    have found := mem_items.mp member
    rw [missing] at found
    cases found

omit [DecidableEq Key] in
@[simp] theorem items_keys (dict : Dict Key Value) :
    dict.items.map Prod.fst = dict.keys := by
  simp only [items, List.map_map, AList.keys, List.keys]
  rfl

omit [DecidableEq Key] in
/-- No key occurs twice in the iteration. -/
theorem items_keys_nodup (dict : Dict Key Value) : (dict.items.map Prod.fst).Nodup := by
  rw [items_keys]
  exact dict.keys_nodup

/-- Dictionaries with the same lookups have the same entries. -/
theorem items_perm {dict other : Dict Key Value}
    (same : ∀ key, dict.lookup key = other.lookup key) : dict.items.Perm other.items := by
  apply List.Perm.map
  apply List.lookup_ext dict.nodupKeys other.nodupKeys
  intro key value
  change value ∈ dict.lookup key ↔ value ∈ other.lookup key
  rw [same]

theorem items_insert (dict : Dict Key Value) (key : Key) (value : Value) :
    items (dict.insert key value) = (key, value) :: items (dict.erase key) := rfl

/-- The entry of a key, and the others. -/
theorem items_perm_erase (dict : Dict Key Value) (key : Key) :
    dict.items.Perm
      ((dict.lookup key).toList.map (key, ·) ++ items (dict.erase key)) := by
  cases found : dict.lookup key with
  | none =>
      apply items_perm
      intro query
      rw [lookup_erase]
      split
      · rename_i here
        rw [here, found]
      · rfl
  | some old =>
      change dict.items.Perm ((key, old) :: items (dict.erase key))
      rw [← items_insert]
      apply items_perm
      intro query
      rw [lookup_insert]
      split
      · rename_i here
        rw [here, found]
      · rfl

/-- The entries of an updated dictionary that pass a check: those from before, less the
entry that was replaced, and with the new one. -/
theorem countP_items {dict after : Dict Key Value} {key : Key} {value : Value}
    (updated : ∀ query, after.lookup query =
      if query = key then some value else dict.lookup query) (check : Value → Bool) :
    after.items.countP (check ·.2) + ((dict.lookup key).toList.countP check) =
      dict.items.countP (check ·.2) + [value].countP check := by
  have inserted : after.items.Perm ((key, value) :: items (dict.erase key)) := by
    rw [← items_insert]
    apply items_perm
    intro query
    rw [updated, lookup_insert]
  have others : ((dict.lookup key).toList.map (key, ·)).countP (check ·.2) =
      (dict.lookup key).toList.countP check := List.countP_map
  have new : [value].countP check = if check value then 1 else 0 := List.countP_singleton
  rw [inserted.countP_eq, (items_perm_erase dict key).countP_eq, List.countP_append,
    List.countP_cons, others, new]
  dsimp only
  omega

@[simp] theorem lookup_isSome {dict : Dict Key Value} {key : Key} :
    (dict.lookup key).isSome ↔ key ∈ dict :=
  AList.lookup_isSome

end Dict

end CloudRunSsh
