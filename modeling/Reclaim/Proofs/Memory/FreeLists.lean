import Reclaim.Proofs.Memory.Tiling

namespace Reclaim.Buddy

def freeFrom : (order : Nat) → List (List Nat) → List Claim
  | _, [] => []
  | order, stack :: above => stack.map (⟨·, order⟩) ++ freeFrom (order + 1) above

def freeCells (free : List (List Nat)) : List Claim := freeFrom 0 free

def takenCells (taken : Table Nat) : List Claim := taken.map fun entry => ⟨entry.1, entry.2⟩

def cells (buddy : Buddy) : List Claim := takenCells buddy.taken ++ freeCells buddy.free

variable {buddy : Buddy} {free : List (List Nat)} {offset order level : Nat}

theorem mem_freeFrom {cell : Claim} {first : Nat} :
    cell ∈ freeFrom first free ↔
      ∃ order, cell.order = first + order ∧ cell.offset ∈ free.getD order [] := by
  induction free generalizing first with
  | nil => simp [freeFrom]
  | cons stack above ih =>
    rw [freeFrom, List.mem_append, ih]
    constructor
    · rintro (here | ⟨order, same, deep⟩)
      · obtain ⟨offset, present, rfl⟩ := List.mem_map.mp here
        exact ⟨0, rfl, present⟩
      · exact ⟨order + 1, by omega, deep⟩
    · rintro ⟨order, same, present⟩
      cases order with
      | zero => exact .inl (List.mem_map.mpr ⟨cell.offset, present, by rw [show first = cell.order from same.symm]⟩)
      | succ order => exact .inr ⟨order, by omega, present⟩

theorem mem_freeCells {cell : Claim} :
    cell ∈ freeCells free ↔ cell.offset ∈ free.getD cell.order [] := by
  rw [freeCells, mem_freeFrom]
  constructor
  · rintro ⟨order, same, present⟩
    rwa [same, Nat.zero_add]
  · exact fun present => ⟨cell.order, (Nat.zero_add _).symm, present⟩

theorem freeFrom_modify (first : Nat) (inside : order < free.length) :
    (freeFrom first (free.modify order (offset :: ·))).Perm
      (⟨offset, first + order⟩ :: freeFrom first free) := by
  induction free generalizing first order with
  | nil => cases inside
  | cons stack above ih =>
    cases order with
    | zero => exact List.Perm.refl _
    | succ order =>
      have inner := ih (first + 1) (Nat.lt_of_succ_lt_succ inside)
      rw [List.modify_succ_cons]
      refine (List.Perm.append_left _ inner).trans ?_
      rw [show first + 1 + order = first + (order + 1) by omega]
      exact List.perm_middle

theorem freeFrom_set {rest : List Nat} (first : Nat) (inside : order < free.length)
    (same : (free.getD order []).Perm (offset :: rest)) :
    (freeFrom first free).Perm (⟨offset, first + order⟩ :: freeFrom first (free.set order rest)) := by
  induction free generalizing first order with
  | nil => cases inside
  | cons stack above ih =>
    cases order with
    | zero => exact (List.Perm.append_right _ (same.map _))
    | succ order =>
      have inner := ih (first + 1) (Nat.lt_of_succ_lt_succ inside) same
      rw [List.set_cons_succ]
      refine (List.Perm.append_left _ inner).trans ?_
      rw [show first + 1 + order = first + (order + 1) by omega]
      exact List.perm_middle

theorem freeCells_push (inside : order < free.length) :
    (freeCells (free.modify order (offset :: ·))).Perm (⟨offset, order⟩ :: freeCells free) := by
  simpa [freeCells] using freeFrom_modify 0 inside

theorem freeCells_pop {rest : List Nat} (inside : order < free.length)
    (same : (free.getD order []).Perm (offset :: rest)) :
    (freeCells free).Perm (⟨offset, order⟩ :: freeCells (free.set order rest)) := by
  simpa [freeCells] using freeFrom_set 0 inside same

theorem split_length : (buddy.split offset order level free).length = free.length := by
  induction level generalizing free with
  | zero => rfl
  | succ below ih =>
    unfold split
    split
    · rw [ih, List.length_modify]
    · rfl

theorem split_tiles {size : Nat} {others : List Claim} (up : order ≤ level)
    (inside : level ≤ free.length)
    (tiles : Tiles buddy.minBlock size (⟨offset, level⟩ :: (others ++ freeCells free))) :
    Tiles buddy.minBlock size
      (⟨offset, order⟩ :: (others ++ freeCells (buddy.split offset order level free))) := by
  induction level generalizing free with
  | zero =>
    have : order = 0 := by omega
    subst this
    exact tiles
  | succ below ih =>
    unfold split
    split
    · rename_i further
      refine ih further (by rw [List.length_modify]; omega) ?_
      refine tiles.halve.perm (List.Perm.cons _ ?_)
      refine List.perm_middle.symm.trans (List.Perm.append_left _ ?_)
      exact (freeCells_push (by omega)).symm
    · have : order = below + 1 := by omega
      subst this
      exact tiles

theorem replaceDeepest_perm {top : Nat} {stack : List Nat} (present : offset ∈ stack) :
    (offset :: replaceDeepest offset top stack).Perm (top :: stack) := by
  induction stack with
  | nil => cases present
  | cons entry deeper ih =>
    by_cases below : offset ∈ deeper
    · simp only [replaceDeepest, below, if_true]
      exact (List.Perm.swap _ _ _).trans (((ih below).cons entry).trans (List.Perm.swap _ _ _))
    · have here : entry = offset := by
        rcases List.mem_cons.mp present with same | deep
        · exact same.symm
        · exact absurd deep below
      simp only [replaceDeepest, below, here, if_true, if_false]
      exact List.Perm.swap _ _ _

theorem takeOut?_perm {stack rest : List Nat} (taken : takeOut? offset stack = some rest) :
    stack.Perm (offset :: rest) := by
  cases stack with
  | nil => cases taken
  | cons top deeper =>
    by_cases below : offset ∈ deeper
    · simp only [takeOut?, below, if_true] at taken
      cases taken
      exact (replaceDeepest_perm below).symm
    · by_cases here : top = offset
      · simp only [takeOut?, below, here, if_true, if_false] at taken
        cases taken
        rw [here]
      · simp only [takeOut?, below, here, if_false] at taken
        cases taken

theorem merge_length {room : Nat} : (buddy.merge free offset order room).length = free.length := by
  induction room generalizing free offset order with
  | zero => exact List.length_modify ..
  | succ room ih =>
    unfold merge
    dsimp only
    split
    · rw [ih, List.length_set]
    · exact List.length_modify ..

theorem merge_congr {other : Buddy} {room : Nat} (same : other.minBlock = buddy.minBlock) :
    other.merge free offset order room = buddy.merge free offset order room := by
  induction room generalizing free offset order with
  | zero => rfl
  | succ room ih => simp only [merge, blockSize, same, ih]

theorem merge_tiles {exponent size room : Nat} {others : List Claim}
    (unit : buddy.minBlock = 2 ^ exponent) (inside : order + room < free.length)
    (tiles : Tiles buddy.minBlock size (⟨offset, order⟩ :: (others ++ freeCells free))) :
    Tiles buddy.minBlock size (others ++ freeCells (buddy.merge free offset order room)) := by
  have freed {free : List (List Nat)} {offset order : Nat} (inside : order < free.length)
      (tiles : Tiles buddy.minBlock size (⟨offset, order⟩ :: (others ++ freeCells free))) :
      Tiles buddy.minBlock size (others ++ freeCells (free.modify order (offset :: ·))) :=
    tiles.perm (List.perm_middle.symm.trans (List.Perm.append_left _ (freeCells_push inside).symm))
  induction room generalizing free offset order with
  | zero => exact freed inside tiles
  | succ room ih =>
    unfold merge
    dsimp only
    split
    · rename_i rest taken
      have popped := freeCells_pop (show order < free.length by omega) (takeOut?_perm taken)
      refine ih (by rw [List.length_set]; omega) ?_
      have pair := tiles.perm (List.Perm.cons _
        ((List.Perm.append_left others popped).trans List.perm_middle))
      unfold blockSize at pair ⊢
      rw [unit] at pair ⊢
      exact pair.join_buddies
    · exact freed (by omega) tiles

end Reclaim.Buddy
