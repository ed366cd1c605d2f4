import Reclaim.Memory.Buddy
import Mathlib.Data.Nat.Bitwise
import Mathlib.Data.List.Perm.Basic
import Mathlib.Algebra.BigOperators.Group.List.Basic

namespace Reclaim

-- The blocks meant are told by offset and order alone; their unit is the least block size.
def Claim.covers (unit place : Nat) (cell : Claim) : Bool :=
  cell.offset ≤ place && place < cell.offset + unit <<< cell.order

def Claim.Apart (unit : Nat) (one other : Claim) : Prop :=
  one.offset + unit <<< one.order ≤ other.offset ∨ other.offset + unit <<< other.order ≤ one.offset

structure Tiles (unit size : Nat) (cells : List Claim) : Prop where
  aligned : ∀ cell ∈ cells, unit <<< cell.order ∣ cell.offset
  cover : ∀ place, cells.countP (·.covers unit place) = if place < size then 1 else 0

namespace Tiles

variable {unit size offset order : Nat} {cells left right : List Claim} {cell : Claim}

theorem perm (tiles : Tiles unit size left) (same : left.Perm right) : Tiles unit size right where
  aligned := fun cell present => tiles.aligned cell (same.mem_iff.mpr present)
  cover := fun place => by
    rw [← same.countP_eq]
    exact tiles.cover place

theorem covers_halves (unit place offset order : Nat) :
    (if (⟨offset, order + 1⟩ : Claim).covers unit place then 1 else 0) =
      (if (⟨offset, order⟩ : Claim).covers unit place then 1 else 0) +
        if (⟨offset + unit <<< order, order⟩ : Claim).covers unit place then 1 else 0 := by
  simp only [Claim.covers, Nat.shiftLeft_succ, Bool.and_eq_true, decide_eq_true_eq]
  split <;> split <;> split <;> omega

theorem halve (tiles : Tiles unit size (⟨offset, order + 1⟩ :: cells)) :
    Tiles unit size (⟨offset, order⟩ :: ⟨offset + unit <<< order, order⟩ :: cells) where
  aligned := by
    have whole := tiles.aligned _ List.mem_cons_self
    have half : unit <<< order ∣ offset :=
      Nat.dvd_trans ⟨2, by rw [Nat.shiftLeft_succ, Nat.mul_comm]⟩ whole
    intro cell present
    rcases List.mem_cons.mp present with rfl | present
    · exact half
    rcases List.mem_cons.mp present with rfl | present
    · exact Nat.dvd_add half (Nat.dvd_refl _)
    · exact tiles.aligned cell (List.mem_cons_of_mem _ present)
  cover := fun place => by
    have whole := tiles.cover place
    have parts := covers_halves unit place offset order
    simp only [List.countP_cons] at whole ⊢
    omega

theorem join (aligned : unit <<< (order + 1) ∣ offset)
    (tiles : Tiles unit size (⟨offset, order⟩ :: ⟨offset + unit <<< order, order⟩ :: cells)) :
    Tiles unit size (⟨offset, order + 1⟩ :: cells) where
  aligned := by
    intro cell present
    rcases List.mem_cons.mp present with rfl | present
    · exact aligned
    · exact tiles.aligned cell (List.mem_cons_of_mem _ (List.mem_cons_of_mem _ present))
  cover := fun place => by
    have whole := tiles.cover place
    have parts := covers_halves unit place offset order
    simp only [List.countP_cons] at whole ⊢
    omega

theorem shift_pos (some_unit : 0 < unit) (order : Nat) : 0 < unit <<< order := by
  rw [Nat.shiftLeft_eq]
  exact Nat.mul_pos some_unit (Nat.two_pow_pos order)

theorem end_le (tiles : Tiles unit size cells) (some_unit : 0 < unit) (present : cell ∈ cells) :
    cell.offset + unit <<< cell.order ≤ size := by
  have some_bytes := shift_pos some_unit cell.order
  have covered : cell.covers unit (cell.offset + unit <<< cell.order - 1) = true := by
    simp only [Claim.covers, Bool.and_eq_true, decide_eq_true_eq]
    omega
  have counted : 0 < cells.countP (·.covers unit (cell.offset + unit <<< cell.order - 1)) :=
    List.countP_pos_iff.mpr ⟨cell, present, covered⟩
  rw [tiles.cover] at counted
  split at counted <;> omega

theorem apart (tiles : Tiles unit size cells) (some_unit : 0 < unit) :
    cells.Pairwise (Claim.Apart unit) := by
  refine List.pairwise_iff_forall_sublist.mpr fun {one other} both => ?_
  by_contra meet
  have first := shift_pos some_unit one.order
  have second := shift_pos some_unit other.order
  have twice := both.countP_le (p := (·.covers unit (max one.offset other.offset)))
  have here : one.covers unit (max one.offset other.offset) = true ∧
      other.covers unit (max one.offset other.offset) = true := by
    simp only [Claim.Apart, Claim.covers, Bool.and_eq_true, decide_eq_true_eq] at meet ⊢
    omega
  simp only [List.countP_cons, List.countP_nil, here, if_true, tiles.cover] at twice
  split at twice <;> omega

theorem covered_below (offset length bound : Nat) :
    (List.range bound).countP (fun place => offset ≤ place && place < offset + length) =
      min bound (offset + length) - min bound offset := by
  induction bound with
  | zero => simp
  | succ bound ih =>
    rw [List.range_succ, List.countP_append, ih]
    by_cases inside : offset ≤ bound ∧ bound < offset + length
    · simp only [List.countP_cons, List.countP_nil, inside, decide_true, Bool.and_self, if_true]
      omega
    · have outside : (decide (offset ≤ bound) && decide (bound < offset + length)) = false := by
        simpa using inside
      simp only [List.countP_cons, List.countP_nil, outside, Bool.false_eq_true, if_false]
      omega

theorem countP_one (cells : List Claim) (place : Nat) :
    (cells.map fun cell => [place].countP (cell.covers unit)).sum =
      cells.countP (·.covers unit place) := by
  induction cells with
  | nil => rfl
  | cons cell rest ih =>
    rw [List.map_cons, List.sum_cons, ih, List.countP_cons, List.countP_cons, List.countP_nil]
    omega

theorem covered_sum (bound : Nat) (cells : List Claim) :
    (cells.map fun cell => (List.range bound).countP (cell.covers unit)).sum =
      ((List.range bound).map fun place => cells.countP (·.covers unit place)).sum := by
  induction bound with
  | zero => simp
  | succ bound ih =>
    simp only [List.range_succ, List.countP_append, List.map_append, List.sum_append]
    rw [List.sum_map_add, ih, countP_one]
    rfl

theorem total (tiles : Tiles unit size cells) (some_unit : 0 < unit) :
    (cells.map (unit <<< ·.order)).sum = size := by
  have lengths : cells.map (unit <<< ·.order) =
      cells.map fun cell => (List.range size).countP (cell.covers unit) := by
    refine List.map_congr_left fun cell present => ?_
    have inside := tiles.end_le some_unit present
    have counted := covered_below cell.offset (unit <<< cell.order) size
    change unit <<< cell.order = (List.range size).countP fun place => _ && _
    rw [counted]
    generalize unit <<< cell.order = length at inside ⊢
    omega
  rw [lengths, covered_sum]
  have ones : (List.range size).map (fun place => cells.countP (·.covers unit place)) =
      (List.range size).map fun _ => 1 := by
    refine List.map_congr_left fun place present => ?_
    rw [tiles.cover, if_pos (List.mem_range.mp present)]
  rw [ones]
  simp

theorem offset_fresh (tiles : Tiles unit size (cell :: cells)) (some_unit : 0 < unit) :
    ∀ other ∈ cells, other.offset ≠ cell.offset := by
  intro other present same
  have apart := List.rel_of_pairwise_cons (tiles.apart some_unit) present
  have first := shift_pos some_unit cell.order
  have second := shift_pos some_unit other.order
  rcases apart with left | right <;> omega

theorem single (unit order : Nat) : Tiles unit (unit <<< order) [⟨0, order⟩] where
  aligned := by
    intro cell present
    rw [List.mem_singleton.mp present]
    exact Nat.dvd_zero _
  cover := fun place => by
    simp [Claim.covers, List.countP_cons]

end Tiles

theorem xor_block {exponent offset : Nat} (aligned : 2 ^ exponent ∣ offset) :
    (offset ^^^ 2 ^ exponent = offset + 2 ^ exponent ∧ 2 ^ (exponent + 1) ∣ offset) ∨
      (2 ^ exponent ≤ offset ∧ offset ^^^ 2 ^ exponent = offset - 2 ^ exponent ∧
        2 ^ (exponent + 1) ∣ offset - 2 ^ exponent) := by
  obtain ⟨index, rfl⟩ := aligned
  have turned : 2 ^ exponent * index ^^^ 2 ^ exponent = 2 ^ exponent * (index ^^^ 1) := by
    have distributed : (index ^^^ 1) <<< exponent = index <<< exponent ^^^ 1 <<< exponent :=
      Nat.shiftLeft_xor_distrib
    simp only [Nat.shiftLeft_eq, Nat.one_mul] at distributed
    rw [Nat.mul_comm, ← distributed, Nat.mul_comm]
  rw [turned]
  rcases Nat.even_or_odd index with even | odd
  · left
    obtain ⟨half, double⟩ := even.two_dvd
    refine ⟨by rw [Nat.xor_one_of_even even, Nat.mul_add, Nat.mul_one], half, ?_⟩
    rw [double, Nat.pow_succ, Nat.mul_assoc]
  · right
    obtain ⟨half, double⟩ := odd
    have some_index : 2 ^ exponent * 1 ≤ 2 ^ exponent * index := Nat.mul_le_mul_left _ (by omega)
    refine ⟨by omega, by rw [Nat.xor_one_of_odd ⟨half, double⟩, Nat.mul_sub, Nat.mul_one], half, ?_⟩
    rw [double, Nat.pow_succ, Nat.mul_add, Nat.mul_one, Nat.add_sub_cancel, Nat.mul_assoc]

theorem two_pow_shift (exponent order : Nat) : (2 ^ exponent) <<< order = 2 ^ (exponent + order) := by
  rw [Nat.shiftLeft_eq, ← Nat.pow_add]

theorem Tiles.join_buddies {exponent size offset order : Nat} {cells : List Claim}
    (tiles : Tiles (2 ^ exponent) size
      (⟨offset, order⟩ :: ⟨offset ^^^ (2 ^ exponent) <<< order, order⟩ :: cells)) :
    Tiles (2 ^ exponent) size
      (⟨min offset (offset ^^^ (2 ^ exponent) <<< order), order + 1⟩ :: cells) := by
  have aligned : (2 ^ exponent) <<< order ∣ offset := tiles.aligned _ List.mem_cons_self
  have block := two_pow_shift exponent order
  have double : 2 ^ (exponent + order + 1) = (2 ^ exponent) <<< (order + 1) :=
    (two_pow_shift exponent (order + 1)).symm
  rw [block] at aligned
  rcases xor_block aligned with ⟨upper, whole⟩ | ⟨some_lower, lower, whole⟩
  · rw [double] at whole
    rw [← block] at upper
    rw [upper] at tiles ⊢
    rw [Nat.min_eq_left (Nat.le_add_right _ _)]
    exact tiles.join whole
  · rw [double] at whole
    rw [← block] at lower some_lower whole
    rw [lower] at tiles ⊢
    rw [Nat.min_eq_right (Nat.sub_le _ _)]
    have swapped := tiles.perm (List.Perm.swap _ _ _)
    have back : offset = offset - (2 ^ exponent) <<< order + (2 ^ exponent) <<< order := by omega
    rw [back, Nat.add_sub_cancel] at swapped
    exact swapped.join whole

end Reclaim
