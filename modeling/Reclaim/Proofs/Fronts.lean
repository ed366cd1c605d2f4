import Mathlib.Data.List.TakeWhile

namespace Reclaim

variable {ε : Type}

theorem front_eq_filter {ready : ε → Bool} {line : List ε}
    (falls : line.Pairwise fun ahead behind => ready behind = true → ready ahead = true) :
    line.takeWhile ready = line.filter ready ∧ line.dropWhile ready = line.filter (!ready ·) := by
  induction line with
  | nil => exact ⟨rfl, rfl⟩
  | cons first rest ih =>
    obtain ⟨ahead, falls⟩ := List.pairwise_cons.mp falls
    obtain ⟨taken, left⟩ := ih falls
    cases goes : ready first with
    | true => simp [goes, taken, left]
    | false =>
      have none_ready : ∀ other ∈ rest, ready other = false := by
        intro other behind
        refine Bool.eq_false_iff.mpr fun comes => ?_
        have never := ahead other behind comes
        rw [goes] at never
        cases never
      have taken : rest.filter ready = [] := by simpa using none_ready
      have left : rest.filter (!ready ·) = rest := by simpa using none_ready
      simp [goes, taken, left]

theorem dropWhile_dropWhile {early late : ε → Bool}
    (lasts : ∀ item, early item = true → late item = true) (line : List ε) :
    (line.dropWhile early).dropWhile late = line.dropWhile late := by
  induction line with
  | nil => rfl
  | cons first rest ih =>
    cases goes : early first with
    | true => simp [goes, lasts first goes, ih]
    | false => rw [List.dropWhile_cons_of_neg (by simp [goes])]

theorem dropWhile_append_congr {ready : ε → Bool} {one other : List ε}
    (alike : one.dropWhile ready = other.dropWhile ready) (more : List ε) :
    (one ++ more).dropWhile ready = (other ++ more).dropWhile ready := by
  rw [List.dropWhile_append, List.dropWhile_append, alike]

theorem takeWhile_concat {ready : ε → Bool} {last : ε} (stays : ready last = false)
    (line : List ε) : (line ++ [last]).takeWhile ready = line.takeWhile ready := by
  induction line with
  | nil => simp [stays]
  | cons first rest ih => simp only [List.cons_append, List.takeWhile_cons, ih]

theorem dropWhile_concat {ready : ε → Bool} {last : ε} (stays : ready last = false)
    (line : List ε) : (line ++ [last]).dropWhile ready = line.dropWhile ready ++ [last] := by
  induction line with
  | nil => simp [stays]
  | cons first rest ih =>
    simp only [List.cons_append, List.dropWhile_cons, ih]
    split <;> rfl

end Reclaim
