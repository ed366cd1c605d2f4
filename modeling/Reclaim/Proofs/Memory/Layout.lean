import Reclaim.Proofs.Memory.FreeLists

namespace Reclaim

namespace Word

theorem limit_pow : limit = 2 ^ 64 := Nat.one_shiftLeft 64

theorem powerAbove_pow (n : Nat) : ∃ exponent, powerAbove n = 2 ^ exponent := by
  unfold powerAbove
  split
  · exact ⟨0, rfl⟩
  · exact ⟨_, Nat.one_shiftLeft _⟩

theorem le_powerAbove (n : Nat) : n ≤ powerAbove n := by
  unfold powerAbove
  split
  · assumption
  · have below := Nat.lt_log2_self (n := n - 1)
    rw [Nat.one_shiftLeft]
    omega

theorem powerAbove_le {n exponent : Nat} (fits : n ≤ 2 ^ exponent) :
    powerAbove n ≤ 2 ^ exponent := by
  unfold powerAbove
  split
  · exact Nat.one_le_two_pow
  · rw [Nat.one_shiftLeft]
    refine Nat.pow_le_pow_right (by omega) ?_
    have small : (n - 1).log2 < exponent := (Nat.log2_lt (by omega)).mpr (by omega)
    omega

theorem powerAbove_mono {n m : Nat} (le : n ≤ m) : powerAbove n ≤ powerAbove m := by
  obtain ⟨exponent, power⟩ := powerAbove_pow m
  rw [power]
  exact powerAbove_le (power ▸ Nat.le_trans le (le_powerAbove m))

theorem powerAbove_lt {n : Nat} (some_bytes : 0 < n) : powerAbove n < 2 * n := by
  unfold powerAbove
  split
  · omega
  · have least := Nat.log2_self_le (n := n - 1) (by omega)
    rw [Nat.one_shiftLeft, Nat.pow_succ]
    omega

theorem powerAbove_twice (n : Nat) : powerAbove (powerAbove n) = powerAbove n := by
  refine Nat.le_antisymm ?_ (le_powerAbove _)
  obtain ⟨exponent, power⟩ := powerAbove_pow n
  rw [power]
  exact powerAbove_le (Nat.le_refl _)

theorem powerAbove_of_powerAbove? {n power : Nat} (found : powerAbove? n = some power) :
    power = powerAbove n ∧ powerAbove n < limit := by
  unfold powerAbove? at found
  split at found
  · rename_i small
    cases found
    exact ⟨rfl, small⟩
  · cases found

end Word

-- Blocks have at least `2 ^ unit` bytes, a heap has `2 ^ inner` of the least blocks, and there are
-- `2 ^ outer` heaps.
structure Shape where
  unit : Nat
  inner : Nat
  outer : Nat
  narrow : unit + inner + outer < 64
  few : outer < 32

structure Shape.Fits (shape : Shape) (buddy : Buddy) : Prop where
  minBlock : buddy.minBlock = 2 ^ shape.unit
  heapSize : buddy.heapSize = 2 ^ (shape.unit + shape.inner)
  size : buddy.size = 2 ^ (shape.unit + shape.inner + shape.outer)
  heapCount : buddy.heapCount = 2 ^ shape.outer
  maxOrder : buddy.maxOrder = shape.inner + shape.outer

namespace Shape.Fits

variable {shape : Shape} {buddy : Buddy}

theorem blockSize (fits : shape.Fits buddy) (order : Nat) :
    buddy.blockSize order = 2 ^ (shape.unit + order) := by
  rw [Buddy.blockSize, fits.minBlock, two_pow_shift]

theorem some_unit (fits : shape.Fits buddy) : 0 < buddy.minBlock := by
  rw [fits.minBlock]
  exact Nat.two_pow_pos _

theorem some_bytes (fits : shape.Fits buddy) (order : Nat) : 0 < buddy.blockSize order := by
  rw [fits.blockSize]
  exact Nat.two_pow_pos _

theorem whole (fits : shape.Fits buddy) : buddy.blockSize buddy.maxOrder = buddy.size := by
  rw [fits.blockSize, fits.maxOrder, fits.size, Nat.add_assoc]

theorem heaps (fits : shape.Fits buddy) : buddy.size = buddy.heapSize * buddy.heapCount := by
  rw [fits.size, fits.heapSize, fits.heapCount, ← Nat.pow_add]

theorem some_heap (fits : shape.Fits buddy) : 0 < buddy.heapSize := by
  rw [fits.heapSize]
  exact Nat.two_pow_pos _

theorem size_lt (fits : shape.Fits buddy) : buddy.size < Word.limit := by
  rw [fits.size, Word.limit_pow]
  exact Nat.pow_lt_pow_right (by omega) shape.narrow

theorem blockSize_dvd (fits : shape.Fits buddy) {order : Nat} (small : order ≤ shape.inner) :
    buddy.blockSize order ∣ buddy.heapSize := by
  rw [fits.blockSize, fits.heapSize]
  exact Nat.pow_dvd_pow 2 (by omega)

theorem blocks_le (fits : shape.Fits buddy) {size : Nat} (inside : size ≤ buddy.heapSize) :
    Word.powerAbove ((size + buddy.minBlock - 1) / buddy.minBlock) ≤ 2 ^ shape.inner := by
  refine Word.powerAbove_le (Nat.le_of_lt_succ ((Nat.div_lt_iff_lt_mul fits.some_unit).mpr ?_))
  have product : buddy.heapSize = 2 ^ shape.inner * buddy.minBlock := by
    rw [fits.heapSize, fits.minBlock, ← Nat.pow_add, Nat.add_comm]
  have unit := fits.some_unit
  rw [Nat.succ_mul, ← product]
  omega

theorem orderOf_le (fits : shape.Fits buddy) {size : Nat} (inside : size ≤ buddy.heapSize) :
    buddy.orderOf size ≤ shape.inner := by
  have power := fits.blocks_le inside
  unfold Buddy.orderOf
  obtain ⟨exponent, same⟩ := Word.powerAbove_pow ((size + buddy.minBlock - 1) / buddy.minBlock)
  rw [same] at power ⊢
  rw [Nat.log2_two_pow]
  exact (Nat.pow_le_pow_iff_right (by omega)).mp power

end Shape.Fits

namespace Buddy

theorem freeFrom_replicate (order count : Nat) (above : List (List Nat)) :
    freeFrom order (List.replicate count [] ++ above) = freeFrom (order + count) above := by
  induction count generalizing order with
  | zero => rfl
  | succ count ih =>
    have inner := ih (order + 1)
    rw [List.replicate_succ, List.cons_append]
    simp only [freeFrom, List.map_nil, List.nil_append, inner]
    congr 1
    omega

theorem ofLayout?_fits {heap : BufferHeap} {layout : BuddyLayout} {buddy : Buddy}
    (accepted : ofLayout? heap layout = .ok buddy) :
    (∃ shape : Shape, shape.Fits buddy) ∧
      buddy.size = Word.powerAbove layout.capacity ∧
      buddy.heapSize = Word.powerAbove layout.heapSize ∧
      buddy.minBlock = Word.powerAbove layout.minBlock ∧
      buddy.free = List.replicate buddy.maxOrder [] ++ [[0]] ∧
      buddy.taken = [] ∧ buddy.used = 0 ∧ buddy.backing = [] := by
  unfold ofLayout? at accepted
  split at accepted
  · cases accepted
  rename_i ordered
  split at accepted
  · rename_i size heapSize sizeFound heapFound
    obtain ⟨rfl, wide⟩ := Word.powerAbove_of_powerAbove? sizeFound
    obtain ⟨rfl, -⟩ := Word.powerAbove_of_powerAbove? heapFound
    dsimp only at accepted
    split at accepted
    · cases accepted
    rename_i few
    obtain ⟨top, topPower⟩ := Word.powerAbove_pow layout.capacity
    obtain ⟨middle, middlePower⟩ := Word.powerAbove_pow layout.heapSize
    obtain ⟨unit, unitPower⟩ := Word.powerAbove_pow layout.minBlock
    have blocksFit : Word.powerAbove layout.minBlock ≤ Word.powerAbove layout.heapSize :=
      Word.powerAbove_mono (by omega)
    have heapsFit : Word.powerAbove layout.heapSize ≤ Word.powerAbove layout.capacity :=
      Word.powerAbove_mono (by omega)
    rw [unitPower, middlePower] at blocksFit
    rw [middlePower, topPower] at heapsFit
    have low : unit ≤ middle := (Nat.pow_le_pow_iff_right (by omega)).mp blocksFit
    have high : middle ≤ top := (Nat.pow_le_pow_iff_right (by omega)).mp heapsFit
    have narrow : top < 64 := by
      rw [topPower, Word.limit_pow] at wide
      exact (Nat.pow_lt_pow_iff_right (by omega)).mp wide
    rw [topPower, middlePower, unitPower] at accepted
    rw [topPower, middlePower] at few
    rw [Nat.one_shiftLeft] at few
    rw [Nat.pow_div high (by omega)] at accepted few
    rw [Nat.pow_div (Nat.le_trans low high) (by omega), Nat.log2_two_pow] at accepted
    have least : top - middle < 32 :=
      (Nat.pow_lt_pow_iff_right (by omega)).mp (Nat.lt_of_not_le few)
    cases accepted
    have half : middle = unit + (middle - unit) := by omega
    have full : top = unit + (middle - unit) + (top - middle) := by omega
    have orders : top - unit = middle - unit + (top - middle) := by omega
    refine ⟨⟨⟨unit, middle - unit, top - middle, by omega, least⟩, ?_⟩,
      topPower.symm, middlePower.symm, unitPower.symm, rfl, rfl, rfl, rfl⟩
    exact ⟨rfl, congrArg (2 ^ ·) half, congrArg (2 ^ ·) full, rfl, orders⟩
  · cases accepted

end Buddy

end Reclaim
