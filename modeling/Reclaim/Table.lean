namespace Reclaim

abbrev Table (α : Type) := List (Nat × α)

namespace Table

variable {α : Type}

def get? (table : Table α) (key : Nat) : Option α :=
  match table with
  | [] => none
  | (k, value) :: rest => if k = key then some value else get? rest key

def erase (table : Table α) (key : Nat) : Table α := table.filter fun entry => entry.1 ≠ key

def insert (table : Table α) (key : Nat) (value : α) : Table α := (key, value) :: table.erase key

theorem get?_insert (table : Table α) (key other : Nat) (value : α) :
    (table.insert key value).get? other =
      if key = other then some value else (table.erase key).get? other := by
  simp [insert, get?]

theorem get?_erase_same (table : Table α) (key : Nat) : (table.erase key).get? key = none := by
  induction table with
  | nil => rfl
  | cons entry rest ih =>
    unfold erase at ih ⊢
    by_cases same : entry.1 = key
    · simpa [List.filter_cons, same] using ih
    · simp only [List.filter_cons, ne_eq, same, not_false_eq_true, decide_true, ↓reduceIte, get?]
      exact ih

theorem get?_erase_other (table : Table α) {key other : Nat} (differ : other ≠ key) :
    (table.erase key).get? other = table.get? other := by
  induction table with
  | nil => rfl
  | cons entry rest ih =>
    unfold erase at ih ⊢
    by_cases same : entry.1 = key
    · have : entry.1 ≠ other := fun h => differ (h.symm.trans same)
      simp only [List.filter_cons, ne_eq, same, not_true_eq_false, decide_false, Bool.false_eq_true,
        ↓reduceIte, get?, ih]
      simp [← same, this]
    · simp only [List.filter_cons, ne_eq, same, not_false_eq_true, decide_true, ↓reduceIte, get?,
        ih]

end Table

end Reclaim
