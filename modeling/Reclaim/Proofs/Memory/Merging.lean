import Reclaim.Proofs.Memory.FreeLists

namespace Reclaim

theorem xor_upper {exponent offset : Nat} (aligned : 2 ^ (exponent + 1) ∣ offset) :
    offset ^^^ 2 ^ exponent = offset + 2 ^ exponent := by
  have double : 2 ^ (exponent + 1) = 2 ^ exponent + 2 ^ exponent := by rw [Nat.pow_succ, Nat.mul_two]
  have half : 2 ^ exponent ∣ offset := Nat.dvd_trans (Nat.pow_dvd_pow 2 (by omega)) aligned
  rcases xor_block half with ⟨upper, -⟩ | ⟨some_lower, -, whole⟩
  · exact upper
  · have rest := Nat.dvd_sub aligned whole
    rw [Nat.sub_sub_self some_lower] at rest
    have small := Nat.le_of_dvd (Nat.two_pow_pos _) rest
    have some_bytes := Nat.two_pow_pos exponent
    omega

namespace Buddy

variable {buddy : Buddy} {free : List (List Nat)} {offset order level : Nat} {stack rest : List Nat}
  {cell : Claim}

-- Splitting only fills lists that were empty, and merging stops where the buddy is not free. The
-- block of the whole range has no buddy.
def Merged (buddy : Buddy) (free : List (List Nat)) : Prop :=
  ∀ order < buddy.maxOrder, ∀ offset ∈ free.getD order [],
    offset ^^^ buddy.blockSize order ∉ free.getD order []

theorem stack_set {other : Nat} (inside : order < free.length) :
    (free.set order stack).getD other [] =
      if other = order then stack else free.getD other [] := by
  rw [List.getD_eq_getElem?_getD, List.getElem?_set]
  by_cases same : other = order
  · simp [same, inside]
  · simp [same, Ne.symm same]

theorem stack_push {other : Nat} (inside : order < free.length) :
    (free.modify order (offset :: ·)).getD other [] =
      if other = order then offset :: free.getD order [] else free.getD other [] := by
  rw [List.getD_eq_getElem?_getD, List.getElem?_modify]
  by_cases same : other = order
  · simp [same, inside]
  · simp [same, Ne.symm same]

theorem set_stack (popped : free.getD order [] = stack) : free.set order stack = free := by
  by_cases inside : order < free.length
  · rw [← popped, List.getD_eq_getElem _ _ inside, List.set_getElem_self]
  · exact List.set_eq_of_length_le (Nat.le_of_not_lt inside)

theorem takeOut?_none : takeOut? offset stack = none ↔ offset ∉ stack := by
  cases stack with
  | nil => simp [takeOut?]
  | cons top deeper =>
    by_cases below : offset ∈ deeper
    · simp [takeOut?, below]
    · by_cases here : top = offset
      · subst here
        simp [takeOut?, below]
      · simp [takeOut?, below, here, Ne.symm here]

namespace Merged

theorem fewer (merged : buddy.Merged free) (inside : order < free.length)
    (less : stack ⊆ free.getD order []) : buddy.Merged (free.set order stack) := by
  intro at_order below one present
  rw [stack_set inside] at present ⊢
  split at present
  · rename_i here
    rw [if_pos here]
    rw [here] at below ⊢
    exact fun buddies => merged order below one (less present) (less buddies)
  · rename_i elsewhere
    rw [if_neg elsewhere]
    exact merged at_order below one present

theorem push (merged : buddy.Merged free) (inside : order < free.length)
    (some_bytes : 0 < buddy.blockSize order)
    (alone : order < buddy.maxOrder → offset ^^^ buddy.blockSize order ∉ free.getD order []) :
    buddy.Merged (free.modify order (offset :: ·)) := by
  intro at_order below one present
  rw [stack_push inside] at present ⊢
  split at present
  · rename_i here
    rw [if_pos here]
    rw [here] at below ⊢
    intro buddies
    rcases List.mem_cons.mp present with rfl | old
    · rcases List.mem_cons.mp buddies with same | other
      · have none_left : one ^^^ (one ^^^ buddy.blockSize order) = 0 := by rw [same, Nat.xor_self]
        rw [← Nat.xor_assoc, Nat.xor_self, Nat.zero_xor] at none_left
        omega
      · exact alone below other
    · rcases List.mem_cons.mp buddies with same | other
      · refine alone below ?_
        rw [← same, Nat.xor_xor_cancel_right]
        exact old
      · exact merged order below one old other
  · rename_i elsewhere
    rw [if_neg elsewhere]
    exact merged at_order below one present

end Merged

theorem split_merged (some_unit : 0 < buddy.minBlock) (inside : level ≤ free.length)
    (empty : ∀ between, order ≤ between → between < level → free.getD between [] = [])
    (merged : buddy.Merged free) : buddy.Merged (buddy.split offset order level free) := by
  induction level generalizing free with
  | zero => exact merged
  | succ below ih =>
    unfold split
    split
    · rename_i further
      refine ih (by rw [List.length_modify]; omega) ?_ ?_
      · intro between up down
        rw [stack_push inside, if_neg (by omega)]
        exact empty between up (by omega)
      · refine merged.push inside (Tiles.shift_pos some_unit below) fun _ => ?_
        rw [empty below further (Nat.lt_succ_self _)]
        exact List.not_mem_nil
    · exact merged

theorem merge_merged {room : Nat} (some_unit : 0 < buddy.minBlock)
    (whole : order + room = buddy.maxOrder) (lists : free.length = buddy.maxOrder + 1)
    (merged : buddy.Merged free) : buddy.Merged (buddy.merge free offset order room) := by
  induction room generalizing free offset order with
  | zero =>
    exact merged.push (by omega) (Tiles.shift_pos some_unit order) fun below => by omega
  | succ room ih =>
    have inside : order < free.length := by omega
    unfold merge
    dsimp only
    split
    · rename_i left taken
      refine ih (by omega) (by rw [List.length_set, lists]) ?_
      exact merged.fewer inside fun one present =>
        (takeOut?_perm taken).mem_iff.mpr (List.mem_cons_of_mem _ present)
    · rename_i absent
      exact merged.push inside (Tiles.shift_pos some_unit order) fun _ => takeOut?_none.mp absent

-- Each half that was split off is alone in its list, and merging finds it there.
theorem merge_split {exponent room : Nat} (unit : buddy.minBlock = 2 ^ exponent)
    (up : order ≤ level) (inside : level ≤ free.length)
    (aligned : buddy.blockSize level ∣ offset)
    (empty : ∀ between, order ≤ between → between < level → free.getD between [] = []) :
    buddy.merge (buddy.split offset order level free) offset order (level - order + room) =
      buddy.merge free offset level room := by
  induction level generalizing free room with
  | zero =>
    have : order = 0 := by omega
    subst this
    rw [Nat.sub_self, Nat.zero_add]
    rfl
  | succ below ih =>
    rcases Nat.lt_or_ge below order with last | further
    · have : order = below + 1 := by omega
      subst this
      rw [Nat.sub_self, Nat.zero_add, split, if_neg (by omega)]
    have block : buddy.blockSize below = 2 ^ (exponent + below) := by
      rw [blockSize, unit, two_pow_shift]
    have other : offset ^^^ buddy.blockSize below = offset + buddy.blockSize below := by
      rw [block]
      refine xor_upper ?_
      rw [blockSize, unit, two_pow_shift] at aligned
      exact aligned
    have none_there := empty below further (Nat.lt_succ_self _)
    have half : (free.modify below ((offset + buddy.blockSize below) :: ·)).getD below [] =
        [offset + buddy.blockSize below] := by
      rw [stack_push inside, if_pos rfl, none_there]
    have back : (free.modify below ((offset + buddy.blockSize below) :: ·)).set below [] = free := by
      rw [List.modify_eq_set, List.set_set]
      exact set_stack none_there
    have step : buddy.merge (free.modify below ((offset + buddy.blockSize below) :: ·))
        offset below (room + 1) = buddy.merge free offset (below + 1) room := by
      rw [merge, other, half]
      simp only [takeOut?, List.not_mem_nil, if_false, if_true]
      rw [back, Nat.min_eq_left (Nat.le_add_right _ _)]
    rw [split, if_pos further, show below + 1 - order + room = below - order + (room + 1) by omega,
      ← step]
    refine ih further (by rw [List.length_modify]; omega) ?_ ?_
    · refine Nat.dvd_trans ⟨2, ?_⟩ aligned
      rw [blockSize, blockSize, Nat.shiftLeft_succ, Nat.mul_comm]
    · intro between up down
      rw [stack_push inside, if_neg (by omega)]
      exact empty between up (by omega)

-- The block on top of the least order that has one, from the order of the cell on. The cell is cut
-- from its lower end.
structure Carves (buddy : Buddy) (cell : Claim) (level : Nat) (rest : List Nat) : Prop where
  up : cell.order ≤ level
  top : level ≤ buddy.maxOrder
  least : ∀ order, cell.order ≤ order → order < level → buddy.stack order = []
  popped : buddy.stack level = cell.offset :: rest

def carved (buddy : Buddy) (cell : Claim) (level : Nat) (rest : List Nat) : List (List Nat) :=
  buddy.split cell.offset cell.order level (buddy.free.set level rest)

namespace Carves

variable (carves : buddy.Carves cell level rest)

include carves

theorem empty (inside : level < buddy.free.length) :
    ∀ between, cell.order ≤ between → between < level →
      (buddy.free.set level rest).getD between [] = [] := by
  intro between up below
  rw [stack_set inside, if_neg (by omega)]
  exact carves.least between up below

theorem merged (some_unit : 0 < buddy.minBlock) (lists : buddy.free.length = buddy.maxOrder + 1)
    (merged : buddy.Merged buddy.free) : buddy.Merged (buddy.carved cell level rest) := by
  have top := carves.top
  have inside : level < buddy.free.length := by omega
  refine split_merged some_unit (by rw [List.length_set]; omega) (carves.empty inside) ?_
  refine merged.fewer inside fun one present => ?_
  rw [show buddy.free.getD level [] = cell.offset :: rest from carves.popped]
  exact List.mem_cons_of_mem _ present

theorem restored {exponent : Nat} (unit : buddy.minBlock = 2 ^ exponent)
    (lists : buddy.free.length = buddy.maxOrder + 1) (merged : buddy.Merged buddy.free)
    (aligned : buddy.blockSize level ∣ cell.offset) :
    buddy.merge (buddy.carved cell level rest) cell.offset cell.order
      (buddy.maxOrder - cell.order) = buddy.free := by
  have top := carves.top
  have up := carves.up
  have inside : level < buddy.free.length := by omega
  have pushed : (buddy.free.set level rest).modify level (cell.offset :: ·) = buddy.free := by
    rw [List.modify_eq_set, List.set_set, List.getElem?_set_self inside]
    exact set_stack carves.popped
  rw [show buddy.maxOrder - cell.order = level - cell.order + (buddy.maxOrder - level) by omega,
    carved, merge_split unit up (by rw [List.length_set]; omega) aligned (carves.empty inside)]
  cases room : buddy.maxOrder - level with
  | zero => exact pushed
  | succ room =>
    have present : cell.offset ∈ buddy.free.getD level [] := by
      rw [show buddy.free.getD level [] = cell.offset :: rest from carves.popped]
      exact List.mem_cons_self
    have alone : cell.offset ^^^ buddy.blockSize level ∉ rest := fun buddies => by
      refine merged level (by omega) cell.offset present ?_
      rw [show buddy.free.getD level [] = cell.offset :: rest from carves.popped]
      exact List.mem_cons_of_mem _ buddies
    have absent := takeOut?_none.mpr alone
    rw [merge, stack_set inside, if_pos rfl, absent]
    exact pushed

end Carves

end Buddy

end Reclaim
