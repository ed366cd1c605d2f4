import Reclaim.Table
import Mathlib.Data.List.Perm.Basic

namespace Reclaim.Table

variable {α : Type} {table : Table α} {key : Nat} {value : α}

def keys (table : Table α) : List Nat := table.map Prod.fst

theorem get?_eq_none_iff : table.get? key = none ↔ key ∉ table.keys := by
  induction table with
  | nil => simp [get?, keys]
  | cons entry rest ih =>
    by_cases here : entry.1 = key
    · simp [get?, keys, here]
    · have elsewhere : ¬key = entry.1 := fun same => here same.symm
      simpa [get?, keys, here, elsewhere] using ih

theorem erase_of_get?_none (absent : table.get? key = none) : table.erase key = table := by
  refine List.filter_eq_self.mpr fun entry present => ?_
  have differs : entry.1 ≠ key := fun same =>
    get?_eq_none_iff.mp absent (same ▸ List.mem_map_of_mem present)
  simpa using differs

theorem erase_insert : (table.insert key value).erase key = table.erase key := by
  simp [insert, erase, List.filter_filter]

theorem get?_of_mem (distinct : table.keys.Nodup) (present : (key, value) ∈ table) :
    table.get? key = some value := by
  induction table with
  | nil => cases present
  | cons entry rest ih =>
    obtain ⟨fresh, others⟩ := List.nodup_cons.mp distinct
    rcases List.mem_cons.mp present with rfl | deep
    · simp [get?]
    · have elsewhere : entry.1 ≠ key := fun same => fresh (same ▸ List.mem_map_of_mem deep)
      simpa [get?, elsewhere] using ih others deep

theorem perm_of_get? (distinct : table.keys.Nodup) (found : table.get? key = some value) :
    table.Perm ((key, value) :: table.erase key) := by
  induction table with
  | nil => cases found
  | cons entry rest ih =>
    obtain ⟨fresh, others⟩ := List.nodup_cons.mp distinct
    by_cases here : entry.1 = key
    · simp only [get?, here, if_true, Option.some.injEq] at found
      have gone : erase rest key = rest :=
        erase_of_get?_none (get?_eq_none_iff.mpr (here ▸ fresh))
      have dropped : erase (entry :: rest) key = erase rest key := by
        simp [erase, here]
      rw [dropped, gone, ← here, ← found]
    · simp only [get?, here, if_false] at found
      have kept : erase (entry :: rest) key = entry :: erase rest key := by
        simp [erase, here]
      rw [kept]
      exact ((ih others found).cons entry).trans (List.Perm.swap _ _ _)

theorem keys_erase_nodup (distinct : table.keys.Nodup) : (table.erase key).keys.Nodup :=
  distinct.sublist (List.filter_sublist.map _)

theorem keys_insert_nodup (distinct : table.keys.Nodup) : (table.insert key value).keys.Nodup :=
  List.nodup_cons.mpr
    ⟨get?_eq_none_iff.mp (get?_erase_same table key), keys_erase_nodup distinct⟩

@[simp] theorem get?_insert_same : (table.insert key value).get? key = some value := by
  simp [get?_insert]

theorem get?_insert_other {other : Nat} (differ : other ≠ key) :
    (table.insert key value).get? other = table.get? other := by
  rw [get?_insert, if_neg differ.symm, get?_erase_other table differ]

end Reclaim.Table
