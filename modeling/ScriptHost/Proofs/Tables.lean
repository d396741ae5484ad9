import Mathlib.Data.Option.Basic
import ScriptHost.Machine.Table

/-! What the tables hold after a change: the name that was changed has its new value, and every
other name has the one it had. -/

namespace ScriptHost.Table

variable {α : Type} {t : Table α} {v : α}

theorem get?_cons (n : String) (w : α) (rest : Table α) (name : String) :
    Table.get? ((n, w) :: rest) name = if name = n then some w else Table.get? rest name := by
  unfold Table.get?
  rw [List.lookup_cons]
  split
  · rename_i h
    rw [if_pos (beq_iff_eq.mp h)]
  · rename_i h
    rw [if_neg (beq_eq_false_iff_ne.mp h)]

theorem mem_of_get? {name : String} (found : t.get? name = some v) : (name, v) ∈ t := by
  obtain ⟨before, rest, rfl, -⟩ := List.lookup_eq_some_iff.mp found
  exact List.mem_append_right before List.mem_cons_self

theorem get?_set (t : Table α) (name : String) (v : α) (other : String) :
    (t.set name v).get? other = if other = name then some v else t.get? other := by
  induction t with
  | nil => exact get?_cons name v [] other
  | cons entry rest ih =>
    obtain ⟨n, w⟩ := entry
    unfold Table.set
    split
    · rename_i h
      obtain rfl := beq_iff_eq.mp h
      rw [get?_cons, get?_cons]
      split <;> rfl
    · rename_i h
      rw [get?_cons, get?_cons, ih]
      by_cases other_n : other = n
      · subst other_n
        rw [if_pos rfl, if_pos rfl, if_neg fun same => h (beq_iff_eq.mpr same)]
      · rw [if_neg other_n, if_neg other_n]

theorem get?_set_self (t : Table α) (name : String) (v : α) :
    (t.set name v).get? name = some v := by
  rw [get?_set, if_pos rfl]

theorem get?_set_of_ne (t : Table α) {name other : String} (v : α) (ne : other ≠ name) :
    (t.set name v).get? other = t.get? other := by
  rw [get?_set, if_neg ne]

theorem get?_update (t : Table α) (name : String) (f : α → α) (other : String) :
    (t.update name f).get? other =
      if other = name then (t.get? other).map f else t.get? other := by
  induction t with
  | nil => simp [Table.update, Table.get?]
  | cons entry rest ih =>
    obtain ⟨n, w⟩ := entry
    unfold Table.update
    split
    · rename_i h
      obtain rfl := beq_iff_eq.mp h
      rw [get?_cons, get?_cons]
      split <;> rfl
    · rename_i h
      rw [get?_cons, get?_cons, ih]
      by_cases other_n : other = n
      · subst other_n
        rw [if_pos rfl, if_pos rfl, if_neg fun same => h (beq_iff_eq.mpr same)]
      · rw [if_neg other_n, if_neg other_n]

theorem get?_update_self (t : Table α) (name : String) (f : α → α) :
    (t.update name f).get? name = (t.get? name).map f := by
  rw [get?_update, if_pos rfl]

theorem get?_update_of_ne (t : Table α) {name other : String} (f : α → α) (ne : other ≠ name) :
    (t.update name f).get? other = t.get? other := by
  rw [get?_update, if_neg ne]

theorem get?_erase (t : Table α) (name : String) (other : String) :
    (t.erase name).get? other = if other = name then none else t.get? other := by
  induction t with
  | nil => simp [Table.erase, Table.get?]
  | cons entry rest ih =>
    obtain ⟨n, w⟩ := entry
    unfold Table.erase at ih ⊢
    rw [List.filter_cons, get?_cons]
    by_cases kept : n = name
    · subst kept
      rw [if_neg (by simp), ih]
      split <;> rfl
    · rw [if_pos (by simpa using kept), get?_cons, ih]
      by_cases other_n : other = n
      · subst other_n
        rw [if_pos rfl, if_neg kept, if_pos rfl]
      · rw [if_neg other_n, if_neg other_n]

theorem get?_erase_self (t : Table α) (name : String) : (t.erase name).get? name = none := by
  rw [get?_erase, if_pos rfl]

theorem get?_erase_of_ne (t : Table α) {name other : String} (ne : other ≠ name) :
    (t.erase name).get? other = t.get? other := by
  rw [get?_erase, if_neg ne]

/-- What is left in a table is what was there under another name. -/
theorem get?_erase_some {name other : String} (found : Table.get? (t.erase name) other = some v) :
    other ≠ name ∧ t.get? other = some v := by
  rw [get?_erase] at found
  split at found
  · cases found
  · exact ⟨‹_›, found⟩

/-! ### The order of names -/

/-- The names in a table, in the order in which they were entered. -/
def names (t : Table α) : List String := t.map (·.1)

theorem names_set (t : Table α) (name : String) (v : α) : t.names <+: (t.set name v).names := by
  induction t with
  | nil => exact List.nil_prefix
  | cons entry rest ih =>
    unfold Table.set
    split
    · exact List.prefix_refl _
    · exact (List.prefix_cons_inj _).mpr ih

theorem names_update (t : Table α) (name : String) (f : α → α) :
    (t.update name f).names = t.names := by
  induction t with
  | nil => rfl
  | cons entry rest ih =>
    unfold Table.update
    split
    · rfl
    · exact congrArg (List.cons _) ih

theorem has_iff {name : String} : t.has name = true ↔ ∃ v, t.get? name = some v :=
  Option.isSome_iff_exists

theorem has_update (t : Table α) (name : String) (f : α → α) (other : String) :
    (t.update name f).has other = t.has other := by
  unfold Table.has
  rw [get?_update]
  split
  · exact Option.isSome_map
  · rfl

theorem has_set (t : Table α) (name : String) (v : α) {other : String} :
    (t.set name v).has other = true ↔ other = name ∨ t.has other = true := by
  unfold Table.has
  rw [get?_set]
  split
  · exact iff_of_true rfl (.inl ‹_›)
  · exact (or_iff_right ‹_›).symm

end ScriptHost.Table
