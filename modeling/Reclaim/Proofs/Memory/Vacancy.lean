import Reclaim.Proofs.Memory.Allocation

namespace Reclaim

namespace Word

theorem powerAbove_units (size exponent : Nat) :
    2 ^ exponent * powerAbove ((max size 1 + 2 ^ exponent - 1) / 2 ^ exponent) =
      max (2 ^ exponent) (powerAbove size) := by
  have some_unit := Nat.two_pow_pos exponent
  obtain ⟨count, counted⟩ := powerAbove_pow ((max size 1 + 2 ^ exponent - 1) / 2 ^ exponent)
  obtain ⟨top, rounded⟩ := powerAbove_pow size
  have some_rounded := le_powerAbove size
  rw [counted, ← Nat.pow_add]
  refine Nat.le_antisymm ?_ (Nat.max_le.mpr ⟨Nat.pow_le_pow_right (by omega) (by omega), ?_⟩)
  · have enough : 2 ^ exponent ≤ 2 ^ max exponent top ∧ 2 ^ top ≤ 2 ^ max exponent top :=
      ⟨Nat.pow_le_pow_right (by omega) (by omega), Nat.pow_le_pow_right (by omega) (by omega)⟩
    have whole : 2 ^ max exponent top = 2 ^ (max exponent top - exponent) * 2 ^ exponent := by
      rw [← Nat.pow_add]
      congr 1
      omega
    have units : (max size 1 + 2 ^ exponent - 1) / 2 ^ exponent ≤
        2 ^ (max exponent top - exponent) := by
      refine Nat.le_of_lt_succ ((Nat.div_lt_iff_lt_mul some_unit).mpr ?_)
      rw [Nat.succ_mul, ← whole]
      omega
    have least := powerAbove_le units
    rw [counted] at least
    have joined := Nat.mul_le_mul_right (2 ^ exponent) least
    rw [← whole, ← Nat.pow_add, Nat.add_comm] at joined
    rw [rounded]
    rcases Nat.le_total exponent top with low | high
    · rw [Nat.max_eq_right low] at joined
      omega
    · rw [Nat.max_eq_left high] at joined
      omega
  · refine powerAbove_le ?_
    have enough := le_powerAbove ((max size 1 + 2 ^ exponent - 1) / 2 ^ exponent)
    rw [counted] at enough
    have covered := Nat.mul_le_mul_left (2 ^ exponent) enough
    rw [← Nat.pow_add] at covered
    have split := Nat.div_add_mod (max size 1 + 2 ^ exponent - 1) (2 ^ exponent)
    have rest := Nat.mod_lt (max size 1 + 2 ^ exponent - 1) some_unit
    omega

end Word

theorem add_le_of_aligned {unit one other : Nat} (left : unit ∣ one) (right : unit ∣ other)
    (below : one < other) : one + unit ≤ other := by
  obtain ⟨low, rfl⟩ := left
  obtain ⟨high, rfl⟩ := right
  rw [← Nat.mul_succ]
  exact Nat.mul_le_mul_left _ (Nat.lt_of_mul_lt_mul_left below)

namespace Buddy

variable {shape : Shape} {buddy : Buddy} {offset order : Nat}

-- A place where a block of the order would meet no block that is handed out.
structure Vacant (buddy : Buddy) (cell : Claim) : Prop where
  aligned : buddy.blockSize cell.order ∣ cell.offset
  inside : cell.offset + buddy.blockSize cell.order ≤ buddy.size
  apart : ∀ other ∈ takenCells buddy.taken, cell.Apart buddy.minBlock other

theorem blockSize_succ (buddy : Buddy) (order : Nat) :
    buddy.blockSize (order + 1) = buddy.blockSize order + buddy.blockSize order := by
  rw [blockSize, blockSize, Nat.shiftLeft_succ, Nat.two_mul]

theorem blockSize_dvd (fits : shape.Fits buddy) {least : Nat} (le : least ≤ order) :
    buddy.blockSize least ∣ buddy.blockSize order := by
  rw [fits.blockSize, fits.blockSize]
  exact Nat.pow_dvd_pow 2 (by omega)

theorem blockSize_orderOf (fits : shape.Fits buddy) (size : Nat) :
    buddy.blockSize (buddy.orderOf (max size 1)) =
      max buddy.minBlock (Word.powerAbove size) := by
  obtain ⟨count, counted⟩ :=
    Word.powerAbove_pow ((max size 1 + 2 ^ shape.unit - 1) / 2 ^ shape.unit)
  rw [fits.minBlock, ← Word.powerAbove_units, counted, fits.blockSize, orderOf, fits.minBlock,
    counted, Nat.log2_two_pow, Nat.pow_add]

theorem Vacant.halves (vacant : buddy.Vacant ⟨offset, order + 1⟩) :
    buddy.Vacant ⟨offset, order⟩ ∧ buddy.Vacant ⟨offset + buddy.blockSize order, order⟩ := by
  have double := blockSize_succ buddy order
  have aligned : buddy.blockSize order ∣ offset :=
    Nat.dvd_trans ⟨2, by rw [double, Nat.mul_two]⟩ vacant.aligned
  have inside : offset + buddy.blockSize (order + 1) ≤ buddy.size := vacant.inside
  have apart : ∀ other ∈ takenCells buddy.taken,
      offset + buddy.blockSize (order + 1) ≤ other.offset ∨
        other.offset + buddy.minBlock <<< other.order ≤ offset := vacant.apart
  refine ⟨⟨aligned, ?_, ?_⟩, ⟨Nat.dvd_add aligned (Nat.dvd_refl _), ?_, ?_⟩⟩
  · change offset + buddy.blockSize order ≤ buddy.size
    omega
  · intro other taken
    change offset + buddy.blockSize order ≤ other.offset ∨
      other.offset + buddy.minBlock <<< other.order ≤ offset
    have clear := apart other taken
    omega
  · change offset + buddy.blockSize order + buddy.blockSize order ≤ buddy.size
    omega
  · intro other taken
    change offset + buddy.blockSize order + buddy.blockSize order ≤ other.offset ∨
      other.offset + buddy.minBlock <<< other.order ≤ offset + buddy.blockSize order
    have clear := apart other taken
    omega

theorem freeFrom_single {free : List (List Nat)} {top : Nat} (first : Nat)
    (alone : freeFrom first free = [⟨offset, first + top⟩]) (length : free.length = top + 1) :
    free = List.replicate top [] ++ [[offset]] := by
  induction free generalizing first top with
  | nil => cases length
  | cons stack above ih =>
    rcases List.append_eq_singleton_iff.mp alone with ⟨empty, later⟩ | ⟨here, none_later⟩
    · have bare : stack = [] := List.map_eq_nil_iff.mp empty
      subst bare
      cases top with
      | zero =>
        rw [List.length_eq_zero_iff.mp (Nat.succ.inj length)] at later
        cases later
      | succ top =>
        rw [ih (first + 1) (by rw [later]; congr 2; omega) (Nat.succ.inj length)]
        rfl
    · obtain ⟨only, rfl, same⟩ := List.map_eq_singleton_iff.mp here
      obtain ⟨rfl, orders⟩ := Claim.mk.inj same
      have : top = 0 := by omega
      subst this
      rw [List.length_eq_zero_iff.mp (Nat.succ.inj length)]
      rfl

namespace Sound

variable (sound : Sound shape buddy)

include sound

theorem free_aligned {cell : Claim} (free : cell ∈ freeCells buddy.free) :
    buddy.blockSize cell.order ∣ cell.offset :=
  sound.tiled.aligned cell (List.mem_append_right _ free)

theorem free_order {cell : Claim} (free : cell ∈ freeCells buddy.free) :
    cell.order ≤ buddy.maxOrder := by
  by_contra above
  have listed := mem_freeCells.mp free
  rw [List.getD_eq_default _ _ (by rw [sound.lists]; omega)] at listed
  cases listed

-- Otherwise its halves would be free blocks of their own, and they are buddies.
theorem vacant_free (vacant : buddy.Vacant ⟨offset, order⟩) :
    ∃ cell ∈ freeCells buddy.free, order ≤ cell.order ∧ cell.offset ≤ offset ∧
      offset + buddy.blockSize order ≤ cell.offset + buddy.blockSize cell.order := by
  induction order generalizing offset with
  | zero =>
    have some_unit := sound.fits.some_bytes 0
    have inside : offset + buddy.blockSize 0 ≤ buddy.size := vacant.inside
    have counted := sound.tiled.cover offset
    rw [if_pos (by omega)] at counted
    obtain ⟨cell, present, covers⟩ := List.countP_pos_iff.mp (Nat.lt_of_lt_of_eq Nat.one_pos counted.symm)
    simp only [Claim.covers, Bool.and_eq_true, decide_eq_true_eq] at covers
    rcases List.mem_append.mp present with taken | free
    · have apart : offset + buddy.blockSize 0 ≤ cell.offset ∨
          cell.offset + buddy.minBlock <<< cell.order ≤ offset := vacant.apart cell taken
      omega
    · refine ⟨cell, free, Nat.zero_le _, covers.1, ?_⟩
      have unit := blockSize_dvd sound.fits (Nat.zero_le cell.order)
      exact add_le_of_aligned vacant.aligned
        (Nat.dvd_add (Nat.dvd_trans unit (sound.free_aligned free)) unit) covers.2
  | succ order ih =>
    obtain ⟨lower, upper⟩ := vacant.halves
    obtain ⟨left, leftFree, leftOrder, leftStart, leftStop⟩ := ih lower
    obtain ⟨right, rightFree, rightOrder, rightStart, rightStop⟩ := ih upper
    have double := blockSize_succ buddy order
    have some_bytes := sound.fits.some_bytes order
    have whole : buddy.blockSize (order + 1) ∣ offset := vacant.aligned
    rcases Nat.lt_or_ge order left.order with larger | same
    · have unit := blockSize_dvd sound.fits larger
      refine ⟨left, leftFree, larger, leftStart, ?_⟩
      exact add_le_of_aligned whole
        (Nat.dvd_add (Nat.dvd_trans unit (sound.free_aligned leftFree)) unit) (by omega)
    rcases Nat.lt_or_ge order right.order with larger | alike
    · have unit := blockSize_dvd sound.fits larger
      refine ⟨right, rightFree, larger, ?_, by omega⟩
      by_contra after
      have beyond := add_le_of_aligned whole
        (Nat.dvd_trans unit (sound.free_aligned rightFree)) (Nat.lt_of_not_le after)
      omega
    -- Both halves are free blocks of their own, next to each other.
    · have leftSame : left = ⟨offset, order⟩ := by
        obtain ⟨start, level⟩ := left
        have : level = order := Nat.le_antisymm same leftOrder
        subst this
        have : start = offset := by
          simp only at leftStart leftStop
          omega
        subst this
        rfl
      have rightSame : right = ⟨offset + buddy.blockSize order, order⟩ := by
        obtain ⟨start, level⟩ := right
        have : level = order := Nat.le_antisymm alike rightOrder
        subst this
        have : start = offset + buddy.blockSize level := by
          simp only at rightStart rightStop
          omega
        subst this
        rfl
      have below : order < buddy.maxOrder := by
        have inside : offset + buddy.blockSize (order + 1) ≤ buddy.size := vacant.inside
        have fits : buddy.blockSize (order + 1) ≤ buddy.blockSize buddy.maxOrder := by
          rw [sound.fits.whole]
          omega
        rw [sound.fits.blockSize, sound.fits.blockSize] at fits
        have exponents := (Nat.pow_le_pow_iff_right (by omega)).mp fits
        omega
      have buddies : offset ^^^ buddy.blockSize order = offset + buddy.blockSize order := by
        rw [sound.fits.blockSize] at whole ⊢
        exact xor_upper whole
      rw [leftSame] at leftFree
      rw [rightSame] at rightFree
      have alone := sound.merged order below offset (mem_freeCells.mp leftFree)
      rw [buddies] at alone
      exact absurd (mem_freeCells.mp rightFree) alone

theorem free_vacant {level : Nat} (up : order ≤ level)
    (free : (⟨offset, level⟩ : Claim) ∈ freeCells buddy.free) :
    buddy.Vacant ⟨offset, order⟩ where
  aligned := Nat.dvd_trans (blockSize_dvd sound.fits up) (sound.free_aligned free)
  inside := by
    have whole := sound.tiled.end_le sound.fits.some_unit (List.mem_append_right _ free)
    change offset + buddy.blockSize level ≤ buddy.size at whole
    have part := Nat.le_of_dvd (sound.fits.some_bytes level) (blockSize_dvd sound.fits up)
    change offset + buddy.blockSize order ≤ buddy.size
    omega
  apart := by
    intro other taken
    have separate := (List.pairwise_append.mp (sound.tiled.apart sound.fits.some_unit)).2.2
      other taken _ free
    have part := Nat.le_of_dvd (sound.fits.some_bytes level) (blockSize_dvd sound.fits up)
    unfold Claim.Apart blockSize at *
    simp only at separate ⊢
    omega

theorem lacks_iff : buddy.Lacks order ↔ ¬∃ offset, buddy.Vacant ⟨offset, order⟩ := by
  constructor
  · rintro lacks ⟨offset, vacant⟩
    obtain ⟨cell, free, up, -⟩ := sound.vacant_free vacant
    have listed := mem_freeCells.mp free
    rw [show buddy.free.getD cell.order [] = [] from lacks cell.order (sound.free_order free) up]
      at listed
    cases listed
  · intro none_vacant level top up
    refine List.eq_nil_iff_forall_not_mem.mpr fun offset present => none_vacant ⟨offset, ?_⟩
    exact sound.free_vacant up (mem_freeCells.mpr present)

theorem idle_free (none_taken : takenCells buddy.taken = []) :
    buddy.free = List.replicate buddy.maxOrder [] ++ [[0]] := by
  have whole := sound.fits.whole
  have vacant : buddy.Vacant ⟨0, buddy.maxOrder⟩ := by
    refine ⟨Nat.dvd_zero _, ?_, ?_⟩
    · change 0 + buddy.blockSize buddy.maxOrder ≤ buddy.size
      omega
    · rw [none_taken]
      exact fun other present => (List.not_mem_nil present).elim
  obtain ⟨⟨start, order⟩, free, up, first, -⟩ := sound.vacant_free vacant
  have same : order = buddy.maxOrder := Nat.le_antisymm (sound.free_order free) up
  have zero : start = 0 := Nat.le_zero.mp first
  subst same zero
  have split := List.perm_cons_erase free
  have tiles := sound.tiled
  rw [cells, none_taken, List.nil_append] at tiles
  have tiles := tiles.perm split
  -- A second free block would have to lie outside the range.
  have alone : (freeCells buddy.free).erase ⟨0, buddy.maxOrder⟩ = [] := by
    refine List.eq_nil_iff_forall_not_mem.mpr fun other left => ?_
    have some_bytes := sound.fits.some_bytes other.order
    have inside := tiles.end_le sound.fits.some_unit (List.mem_cons_of_mem _ left)
    have apart : 0 + buddy.blockSize buddy.maxOrder ≤ other.offset ∨
        other.offset + buddy.blockSize other.order ≤ 0 :=
      List.rel_of_pairwise_cons (tiles.apart sound.fits.some_unit) left
    change other.offset + buddy.blockSize other.order ≤ buddy.size at inside
    omega
  rw [alone, List.perm_singleton] at split
  refine freeFrom_single 0 ?_ sound.lists
  rw [Nat.zero_add]
  exact split

end Sound

end Buddy

def Run.RefusedUnasked {σ α : Type} (run : Run σ α) : Prop :=
  (∃ error, run.result = .error (.error error)) ∧
    ∀ call outcome, Event.asked call outcome ∉ run.events

theorem Buddy.Claims.found {shape : Shape} {buddy : Buddy} {size level : Nat} {cell : Claim}
    {rest : List Nat} (claims : buddy.Claims shape size cell level rest) :
    ¬buddy.Lacks (buddy.orderOf (max size 1)) := by
  intro lacks
  have none_there := lacks level claims.carves.top (claims.order ▸ claims.carves.up)
  rw [claims.carves.popped] at none_there
  cases none_there

theorem Buddy.allocate_refused {δ : Type} [Device δ] {shape : Shape} {buddy : Buddy}
    (machine : Machine δ) (sound : buddy.Sound shape) {size : Nat}
    (inside : size ≤ buddy.heapSize) :
    (Supply.allocate size (.buddy buddy, machine)).RefusedUnasked ↔
      buddy.Lacks (buddy.orderOf (max size 1)) := by
  have ended := allocate_run machine sound size
  generalize Supply.allocate size (.buddy buddy, machine) = run at ended
  cases ended with
  | refused error lacks =>
    have fits := Nat.not_lt.mpr inside
    exact ⟨fun _ => lacks.resolve_left fits,
      fun _ => ⟨⟨error, rfl⟩, fun _ _ => List.not_mem_nil⟩⟩
  | backed cell level rest backing claims =>
    refine ⟨?_, fun lacks => absurd lacks claims.found⟩
    rintro ⟨⟨error, failed⟩, -⟩
    cases failed
  | failed cell level rest error device claims =>
    refine ⟨?_, fun lacks => absurd lacks claims.found⟩
    rintro ⟨-, unasked⟩
    exact absurd List.mem_cons_self (unasked _ _)
  | made cell level rest device outcome claims =>
    refine ⟨?_, fun lacks => absurd lacks claims.found⟩
    rintro ⟨⟨error, failed⟩, -⟩
    cases failed

def Block.place (heapSize : Nat) (block : Block) : Nat := block.heap * heapSize + block.offset

namespace BuddyLayout

def rounded (layout : BuddyLayout) (size : Nat) : Nat :=
  max (Word.powerAbove layout.minBlock) (Word.powerAbove size)

-- Somewhere in the capacity a range of the rounded size, aligned to that size, meets no block.
def HasRoom (layout : BuddyLayout) (blocks : List Block) (size : Nat) : Prop :=
  ∃ start, layout.rounded size ∣ start ∧
    start + layout.rounded size ≤ Word.powerAbove layout.capacity ∧
    ∀ block ∈ blocks,
      start + layout.rounded size ≤ block.place (Word.powerAbove layout.heapSize) ∨
        block.place (Word.powerAbove layout.heapSize) + block.size ≤ start

end BuddyLayout

namespace Depot

variable {δ : Type} {shape : Shape} {depot : Depot δ} {given : List Claim}

theorem Sound.vacant_iff (sound : depot.Sound shape given) (idle : depot.waiting = [])
    {start order : Nat} :
    depot.buddy.Vacant ⟨start, order⟩ ↔
      depot.buddy.blockSize order ∣ start ∧
        start + depot.buddy.blockSize order ≤ depot.buddy.size ∧
        ∀ block ∈ depot.held,
          start + depot.buddy.blockSize order ≤ block.place depot.buddy.heapSize ∨
            block.place depot.buddy.heapSize + block.size ≤ start := by
  have taken := sound.taken
  rw [idle, List.map_nil, List.append_nil] at taken
  have place (cell : Claim) :
      (depot.buddy.blockAt cell).place depot.buddy.heapSize = cell.offset :=
    Nat.div_add_mod' cell.offset depot.buddy.heapSize
  constructor
  · intro vacant
    refine ⟨vacant.aligned, vacant.inside, fun block held => ?_⟩
    rw [sound.held] at held
    obtain ⟨cell, listed, rfl⟩ := List.mem_map.mp held
    rw [place]
    exact vacant.apart cell (taken.mem_iff.mpr listed)
  · rintro ⟨aligned, inside, apart⟩
    refine ⟨aligned, inside, fun cell present => ?_⟩
    have held : depot.buddy.blockAt cell ∈ depot.held := by
      rw [sound.held]
      exact List.mem_map_of_mem (taken.mem_iff.mp present)
    have clear := apart _ held
    rw [place] at clear
    exact clear

theorem Sound.idle_opened (sound : depot.Sound shape given) (idle : depot.waiting = [])
    (none_held : depot.held = []) :
    depot.buddy.free = List.replicate depot.buddy.maxOrder [] ++ [[0]] ∧
      depot.buddy.taken = [] ∧ depot.buddy.used = 0 ∧ depot.buddy.backing = [] := by
  have none_given : given = [] := by
    have held := sound.held
    rw [none_held] at held
    exact List.map_eq_nil_iff.mp held.symm
  have none_taken : Buddy.takenCells depot.buddy.taken = [] := by
    have taken := sound.taken
    rw [idle, none_given] at taken
    exact taken.eq_nil
  refine ⟨sound.buddy.idle_free none_taken, List.map_eq_nil_iff.mp none_taken, ?_, ?_⟩
  · rw [sound.buddy.charged, none_taken]
    rfl
  · refine List.eq_nil_iff_forall_not_mem.mpr fun entry present => ?_
    have found := Table.get?_of_mem sound.backed.distinct present
    have some_blocks := sound.backed.used entry.1 entry.2 found
    have counted := sound.backed.counted entry.1
    rw [found, none_held] at counted
    change entry.2.blocks = 0 at counted
    omega

variable [Device δ]

-- Without an allocation on the way, a request is refused outright just where it has no room; free
-- buddies are merged, and once all blocks are back the whole range is one free block again.
theorem reached_complete {heap : BufferHeap} {layout : BuddyLayout} {buddy : Buddy} {device : δ}
    (accepted : Buddy.ofLayout? heap layout = .ok buddy)
    (reached : Reached (opened buddy device) depot) (idle : depot.waiting = []) :
    (∀ size ≤ Word.powerAbove layout.heapSize,
      (depot.allocated size).RefusedUnasked ↔ ¬layout.HasRoom depot.held size) ∧
      depot.buddy.Merged depot.buddy.free ∧
      (depot.held = [] →
        depot.buddy.free = List.replicate buddy.maxOrder [] ++ [[0]] ∧
          buddy.blockSize buddy.maxOrder = Word.powerAbove layout.capacity ∧
          depot.buddy.taken = [] ∧ depot.buddy.used = 0 ∧ depot.buddy.backing = []) := by
  obtain ⟨shape, start⟩ := opened_sound device accepted
  obtain ⟨given, sound⟩ := reached_sound reached start
  obtain ⟨-, size, heapSize, minBlock, -⟩ := Buddy.ofLayout?_fits accepted
  have fits := sound.buddy.fits
  have begun : shape.Fits buddy := start.buddy.fits
  have sameSize := (fits.size.trans begun.size.symm).trans size
  have sameHeap := (fits.heapSize.trans begun.heapSize.symm).trans heapSize
  have sameUnit := (fits.minBlock.trans begun.minBlock.symm).trans minBlock
  have sameOrder := fits.maxOrder.trans begun.maxOrder.symm
  refine ⟨fun request inside => ?_, sound.buddy.merged, fun none_held => ?_⟩
  · have rounded := Buddy.blockSize_orderOf fits request
    rw [sameUnit] at rounded
    rw [← sameHeap] at inside
    rw [allocated, Buddy.allocate_refused depot.machine sound.buddy inside,
      sound.buddy.lacks_iff]
    unfold BuddyLayout.HasRoom BuddyLayout.rounded
    rw [← rounded, ← sameSize, ← sameHeap]
    exact not_congr (exists_congr fun start => sound.vacant_iff idle)
  · obtain ⟨free, taken, used, backing⟩ := sound.idle_opened idle none_held
    rw [sameOrder] at free
    exact ⟨free, begun.whole.trans size, taken, used, backing⟩

theorem reached_complete_full :
    ∃ (buddy : Buddy) (full empty : Depot Scripted),
      Buddy.ofLayout? .upload ⟨60, 7, 32⟩ = .ok buddy ∧
      Reached (opened buddy Scripted.standard) full ∧ full.held = [⟨0, 32, 1⟩, ⟨0, 8, 0⟩] ∧
      (full.allocated 17).RefusedUnasked ∧
      Reached (opened buddy Scripted.standard) empty ∧
      empty.buddy.free = [[], [], [], [0]] := by
  have accepted : Buddy.ofLayout? .upload ⟨60, 7, 32⟩ =
      .ok ⟨.upload, 64, 8, 32, 2, 3, [[], [], [], [0]], [], 0, []⟩ := rfl
  have begun : Reached (opened
      ⟨.upload, 64, 8, 32, 2, 3, [[], [], [], [0]], [], 0, []⟩ Scripted.standard) _ := .start
  have small := ((begun.step (.request 5)).step (.make 0)).step (.conclude 0)
  have full := ((small.step (.request 20)).step (.make 0)).step (.conclude 0)
  have empty := (full.step (.free 1)).step (.free 0)
  obtain ⟨refused, -⟩ := reached_complete accepted full rfl
  obtain ⟨-, -, whole⟩ := reached_complete accepted empty rfl
  refine ⟨_, _, _, accepted, full, rfl, (refused 17 (by decide)).mpr ?_, empty, (whole rfl).1⟩
  rintro ⟨start, ⟨index, rfl⟩, inside, apart⟩
  have first := apart ⟨0, 32, 1⟩ List.mem_cons_self
  have second := apart ⟨0, 8, 0⟩ (List.mem_cons_of_mem _ List.mem_cons_self)
  have rounded : BuddyLayout.rounded ⟨60, 7, 32⟩ 17 = 32 := by decide
  have capacity : Word.powerAbove 60 = 64 := by decide
  have heaps : Word.powerAbove 32 = 32 := by decide
  simp only [Block.place, rounded, capacity, heaps] at inside first second
  omega

end Depot

end Reclaim
