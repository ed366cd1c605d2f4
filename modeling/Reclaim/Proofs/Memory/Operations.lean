import Reclaim.Proofs.Memory.Layout
import Reclaim.Proofs.Memory.Merging
import Reclaim.Proofs.Execution
import Reclaim.Proofs.Table

namespace Reclaim.Buddy

def bytes (buddy : Buddy) (cells : List Claim) : Nat := (cells.map (buddy.blockSize ·.order)).sum

structure Sound (shape : Shape) (buddy : Buddy) : Prop where
  fits : shape.Fits buddy
  lists : buddy.free.length = buddy.maxOrder + 1
  tiled : Tiles buddy.minBlock buddy.size buddy.cells
  charged : buddy.used = buddy.bytes (takenCells buddy.taken)
  small : ∀ cell ∈ takenCells buddy.taken, cell.order ≤ shape.inner
  merged : buddy.Merged buddy.free

def recorded (buddy : Buddy) (cell : Claim) (free : List (List Nat)) : Buddy :=
  { buddy with
    free, used := buddy.used + buddy.blockSize cell.order
    taken := buddy.taken.insert cell.offset cell.order }

def erased (buddy : Buddy) (offset : Nat) : Buddy :=
  { buddy with taken := buddy.taken.erase offset }

def released (buddy : Buddy) (cell : Claim) : Buddy :=
  { buddy.erased cell.offset with
    used := buddy.used - buddy.blockSize cell.order
    free := (buddy.erased cell.offset).merge buddy.free cell.offset cell.order
      (buddy.maxOrder - cell.order) }

def rebacked (buddy : Buddy) (backing : Table Backing) : Buddy := { buddy with backing }

variable {shape : Shape} {buddy : Buddy} {cell : Claim}

theorem Sound.rebacked (sound : Sound shape buddy) (backing : Table Backing) :
    Sound shape (buddy.rebacked backing) :=
  ⟨⟨sound.fits.1, sound.fits.2, sound.fits.3, sound.fits.4, sound.fits.5⟩,
    sound.lists, sound.tiled, sound.charged, sound.small, sound.merged⟩

theorem bytes_perm {left right : List Claim} (same : left.Perm right) :
    buddy.bytes left = buddy.bytes right :=
  (same.map _).sum_nat

namespace Sound

variable (sound : Sound shape buddy)

include sound

theorem keys_nodup : buddy.taken.keys.Nodup := by
  have apart := sound.tiled.apart sound.fits.some_unit
  have taken := (List.pairwise_append.mp apart).1
  refine List.pairwise_map.mpr ((List.pairwise_map.mp taken).imp ?_)
  intro one other separate same
  have first := sound.fits.some_bytes one.2
  have second := sound.fits.some_bytes other.2
  unfold blockSize at first second
  rcases separate with left | right
  · dsimp only at left
    omega
  · dsimp only at right
    omega

theorem bytes_le : buddy.bytes (takenCells buddy.taken) ≤ buddy.size := by
  have total := sound.tiled.total sound.fits.some_unit
  rw [cells, List.map_append, List.sum_append] at total
  unfold bytes blockSize
  omega

theorem get?_taken (present : cell ∈ takenCells buddy.taken) :
    buddy.taken.get? cell.offset = some cell.order := by
  obtain ⟨entry, inside, rfl⟩ := List.mem_map.mp present
  exact Table.get?_of_mem sound.keys_nodup inside

theorem taken_perm (present : cell ∈ takenCells buddy.taken) :
    (takenCells buddy.taken).Perm (cell :: takenCells (buddy.taken.erase cell.offset)) :=
  (Table.perm_of_get? sound.keys_nodup (sound.get?_taken present)).map _

theorem blockSize_le_used (present : cell ∈ takenCells buddy.taken) :
    buddy.blockSize cell.order ≤ buddy.used := by
  rw [sound.charged, bytes_perm (sound.taken_perm present)]
  exact Nat.le_add_right _ _

theorem block_inside (present : cell ∈ takenCells buddy.taken) :
    (buddy.blockAt cell).offset + (buddy.blockAt cell).size ≤ buddy.heapSize ∧
      (buddy.blockAt cell).heap < buddy.heapCount := by
  have within := sound.tiled.end_le sound.fits.some_unit (List.mem_append_left _ present)
  have some_bytes := sound.fits.some_bytes cell.order
  have divides := sound.fits.blockSize_dvd (sound.small cell present)
  have aligned := sound.tiled.aligned cell (List.mem_append_left _ present)
  change buddy.blockSize cell.order ∣ cell.offset at aligned
  change cell.offset + buddy.blockSize cell.order ≤ buddy.size at within
  refine ⟨?_, ?_⟩
  · have below := Nat.mod_lt cell.offset sound.fits.some_heap
    obtain ⟨start, starts⟩ := (Nat.dvd_mod_iff divides).mpr aligned
    obtain ⟨stop, stops⟩ := divides
    change cell.offset % buddy.heapSize + buddy.blockSize cell.order ≤ buddy.heapSize
    rw [starts, stops] at below ⊢
    rw [← Nat.mul_succ]
    exact Nat.mul_le_mul_left _ (Nat.lt_of_mul_lt_mul_left below)
  · refine (Nat.div_lt_iff_lt_mul sound.fits.some_heap).mpr ?_
    rw [Nat.mul_comm, ← sound.fits.heaps]
    omega

end Sound

theorem Sound.fresh {free : List (List Nat)} (sound : Sound shape buddy)
    (tiled : Tiles buddy.minBlock buddy.size
      (cell :: (takenCells buddy.taken ++ freeCells free))) :
    buddy.taken.get? cell.offset = none := by
  refine Table.get?_eq_none_iff.mpr fun present => ?_
  obtain ⟨entry, inside, same⟩ := List.mem_map.mp present
  have taken : (⟨entry.1, entry.2⟩ : Claim) ∈ takenCells buddy.taken := List.mem_map_of_mem inside
  exact tiled.offset_fresh sound.fits.some_unit _ (List.mem_append_left _ taken) same

theorem Sound.recorded {free : List (List Nat)} (sound : Sound shape buddy)
    (small : cell.order ≤ shape.inner) (lists : free.length = buddy.free.length)
    (tiled : Tiles buddy.minBlock buddy.size
      (cell :: (takenCells buddy.taken ++ freeCells free)))
    (merged : buddy.Merged free) :
    Sound shape (buddy.recorded cell free) ∧
      takenCells (buddy.recorded cell free).taken = cell :: takenCells buddy.taken := by
  have fresh := sound.fresh tiled
  have written : takenCells (buddy.recorded cell free).taken = cell :: takenCells buddy.taken := by
    simp [Buddy.recorded, takenCells, Table.insert, Table.erase_of_get?_none fresh]
  refine ⟨⟨⟨sound.fits.1, sound.fits.2, sound.fits.3, sound.fits.4, sound.fits.5⟩,
    lists.trans sound.lists, ?_, ?_, ?_, merged⟩, written⟩
  · rw [cells, written]
    exact tiled
  · rw [written]
    change buddy.used + _ = _ + _
    rw [sound.charged, Nat.add_comm]
    rfl
  · rw [written]
    intro other present
    rcases List.mem_cons.mp present with rfl | old
    · exact small
    · exact sound.small other old

theorem Sound.released (sound : Sound shape buddy) (present : cell ∈ takenCells buddy.taken) :
    Sound shape (buddy.released cell) := by
  have order := sound.small cell present
  have orders := sound.fits.maxOrder
  have lists := sound.lists
  have taken := sound.taken_perm present
  refine ⟨⟨sound.fits.1, sound.fits.2, sound.fits.3, sound.fits.4, sound.fits.5⟩,
    merge_length.trans sound.lists, ?_, ?_, ?_, ?_⟩
  · have unit : (buddy.erased cell.offset).minBlock = 2 ^ shape.unit := sound.fits.minBlock
    exact merge_tiles unit (by omega) (sound.tiled.perm (taken.append_right _))
  · have charged := sound.charged
    rw [bytes_perm taken] at charged
    change buddy.used - _ = buddy.bytes (takenCells (buddy.taken.erase cell.offset))
    rw [charged]
    exact Nat.add_sub_cancel_left ..
  · intro other left
    exact sound.small other (taken.mem_iff.mpr (List.mem_cons_of_mem _ left))
  · have some_unit : 0 < (buddy.erased cell.offset).minBlock := sound.fits.some_unit
    have whole : cell.order + (buddy.maxOrder - cell.order) = buddy.maxOrder := by omega
    exact merge_merged some_unit whole lists sound.merged

def more (buddy : Buddy) (block : Block) (backing : Backing) : Buddy :=
  buddy.rebacked (buddy.backing.insert block.heap { backing with blocks := backing.blocks + 1 })

def fewer (buddy : Buddy) (block : Block) (backing : Backing) : Buddy :=
  buddy.rebacked (buddy.backing.insert block.heap { backing with blocks := backing.blocks - 1 })

theorem firstFree?_spec {order level : Nat} (found : buddy.firstFree? order = some level) :
    order ≤ level ∧ level ≤ buddy.maxOrder ∧ buddy.stack level ≠ [] ∧
      ∀ between, order ≤ between → between < level → buddy.stack between = [] := by
  obtain ⟨chosen, inside, least⟩ := List.find?_range_eq_some.mp found
  have inside := List.mem_range.mp inside
  simp only [Bool.and_eq_true, decide_eq_true_eq, Bool.not_eq_true', List.isEmpty_eq_false_iff]
    at chosen
  refine ⟨chosen.1, Nat.le_of_lt_succ inside, chosen.2, fun between up below => ?_⟩
  simpa [up] using least between below

def Lacks (buddy : Buddy) (order : Nat) : Prop :=
  ∀ level ≤ buddy.maxOrder, order ≤ level → buddy.stack level = []

theorem firstFree?_none {order : Nat} (absent : buddy.firstFree? order = none) :
    buddy.Lacks order := by
  intro level top up
  simpa [up] using List.find?_eq_none.mp absent level (List.mem_range.mpr (Nat.lt_succ_of_le top))

theorem Lacks.firstFree? {order : Nat} (lacks : buddy.Lacks order) :
    buddy.firstFree? order = none := by
  refine List.find?_eq_none.mpr fun level listed => ?_
  have top := Nat.le_of_lt_succ (List.mem_range.mp listed)
  simpa using lacks level top

def claimed (buddy : Buddy) (cell : Claim) (level : Nat) (rest : List Nat) : Buddy :=
  buddy.recorded cell (buddy.carved cell level rest)

structure Claims (shape : Shape) (buddy : Buddy) (size : Nat) (cell : Claim) (level : Nat)
    (rest : List Nat) : Prop where
  inside : size ≤ buddy.heapSize
  order : cell.order = buddy.orderOf (max size 1)
  carves : buddy.Carves cell level rest
  fresh : buddy.taken.get? cell.offset = none
  sound : Sound shape (buddy.claimed cell level rest)
  taken : takenCells (buddy.claimed cell level rest).taken = cell :: takenCells buddy.taken

theorem Claims.present {size level : Nat} {rest : List Nat}
    (claims : Claims shape buddy size cell level rest) :
    cell ∈ takenCells (buddy.claimed cell level rest).taken := by
  rw [claims.taken]
  exact List.mem_cons_self

theorem claim_run (sound : Sound shape buddy) (size : Nat) :
    (∃ error, claim size buddy = ⟨.error (.error error), buddy, []⟩ ∧
        (buddy.heapSize < size ∨ buddy.Lacks (buddy.orderOf (max size 1)))) ∨
      ∃ cell level rest, Claims shape buddy size cell level rest ∧
        ((∃ backing, buddy.backing.get? (buddy.blockAt cell).heap = some backing ∧
            claim size buddy = ⟨.ok (.inl (buddy.blockAt cell)),
              (buddy.claimed cell level rest).more (buddy.blockAt cell) backing, []⟩) ∨
          buddy.backing.get? (buddy.blockAt cell).heap = none ∧
            claim size buddy = ⟨.ok (.inr cell), buddy.claimed cell level rest, []⟩) := by
  rcases Nat.lt_or_ge buddy.heapSize size with large | inside
  · exact .inl ⟨.invalidParameter, by simp [claim, large], .inl large⟩
  have fits : ¬buddy.heapSize < size := Nat.not_lt.mpr inside
  cases search : buddy.firstFree? (buddy.orderOf (max size 1)) with
  | none =>
    exact .inl ⟨.outOfDeviceMemory, by simp [claim, fits, search], .inr (firstFree?_none search)⟩
  | some level =>
    obtain ⟨up, top, nonempty, least⟩ := firstFree?_spec search
    obtain ⟨offset, rest, popped⟩ := List.exists_cons_of_ne_nil nonempty
    have lists := sound.lists
    have small : buddy.orderOf (max size 1) ≤ shape.inner :=
      sound.fits.orderOf_le (Nat.max_le.mpr ⟨inside, sound.fits.some_heap⟩)
    let cell : Claim := ⟨offset, buddy.orderOf (max size 1)⟩
    have carves : buddy.Carves cell level rest := ⟨up, top, least, popped⟩
    have pop : (buddy.free.getD level []).Perm (offset :: rest) := .of_eq popped
    have opened := sound.tiled.perm
      ((List.Perm.append_left _ (freeCells_pop (by omega) pop)).trans List.perm_middle)
    have splits := split_tiles up (by rw [List.length_set]; omega) opened
    have length : (buddy.carved cell level rest).length = buddy.free.length :=
      split_length.trans List.length_set
    have merged := carves.merged sound.fits.some_unit lists sound.merged
    obtain ⟨after, taken⟩ := sound.recorded small length splits merged
    have room := Nat.lt_of_le_of_lt (after.charged ▸ after.bytes_le) after.fits.size_lt
    have added := Word.add_ok room
    refine .inr ⟨cell, level, rest, ⟨inside, rfl, carves, sound.fresh splits, after, taken⟩, ?_⟩
    cases found : buddy.backing.get? (buddy.blockAt cell).heap with
    | none =>
      refine .inr ⟨rfl, ?_⟩
      simp [claim, fits, search, popped, added, found, claimed, recorded, carved, cell]
    | some backing =>
      refine .inl ⟨backing, rfl, ?_⟩
      simp [claim, fits, search, popped, added, found, claimed, recorded, carved, cell, back, more,
        Buddy.rebacked]

variable {δ : Type} {backing : Backing}

theorem release_run (sound : Sound shape buddy) (present : cell ∈ takenCells buddy.taken) :
    release cell.offset cell.order (buddy.erased cell.offset) =
      ⟨.ok (), buddy.released cell, []⟩ := by
  have enough := Word.sub_ok (sound.blockSize_le_used present)
  have same : (buddy.erased cell.offset).blockSize cell.order = buddy.blockSize cell.order := rfl
  simp [release, same, show (buddy.erased cell.offset).used = buddy.used from rfl, enough]
  rfl

theorem conclude_failed (machine : Machine δ) (sound : Sound shape buddy)
    (present : cell ∈ takenCells buddy.taken) (error : Error) :
    conclude cell (.error error) (buddy, machine) =
      ⟨.error (.error error), (buddy.released cell, machine), []⟩ := by
  have freed := release_run sound present
  unfold erased at freed
  simp [conclude, buddyOf, Part.first, freed]

theorem conclude_spare (machine : Machine δ) (memory : Memory)
    (found : buddy.backing.get? (buddy.blockAt cell).heap = some backing) :
    conclude cell (.ok memory) (buddy, machine) =
      ⟨.ok (buddy.blockAt cell),
        (buddy.more (buddy.blockAt cell) backing,
          { machine with live := machine.live.erase (.memory memory.serial) }),
        [.dropped (.memory memory.serial)]⟩ := by
  simp [conclude, found, back, buddyOf, machineOf, Part.first, Part.second, Machine.drop, more,
    Buddy.rebacked]

theorem conclude_first (machine : Machine δ) (memory : Memory)
    (bare : buddy.backing.get? (buddy.blockAt cell).heap = none) :
    conclude cell (.ok memory) (buddy, machine) =
      ⟨.ok (buddy.blockAt cell),
        (buddy.rebacked (buddy.backing.insert (buddy.blockAt cell).heap ⟨memory, 1⟩), machine),
        [.noted (.heapBacked buddy.heap (buddy.blockAt cell).heap)]⟩ := by
  simp [conclude, bare, back, buddyOf, Part.first, Buddy.rebacked]

theorem deallocate_start (sound : Sound shape buddy) (present : cell ∈ takenCells buddy.taken) :
    ¬(buddy.heapCount ≤ (buddy.blockAt cell).heap ∨
        buddy.heapSize ≤ (buddy.blockAt cell).offset) ∧
      (buddy.blockAt cell).heap * buddy.heapSize + (buddy.blockAt cell).offset = cell.offset := by
  obtain ⟨inside, heap⟩ := sound.block_inside present
  have some_bytes : 0 < (buddy.blockAt cell).size := sound.fits.some_bytes cell.order
  refine ⟨by omega, ?_⟩
  rw [Nat.mul_comm]
  exact Nat.div_add_mod ..

theorem deallocate_fewer (machine : Machine δ) (sound : Sound shape buddy)
    (present : cell ∈ takenCells buddy.taken)
    (found : buddy.backing.get? (buddy.blockAt cell).heap = some backing)
    (several : 1 < backing.blocks) :
    deallocate (buddy.blockAt cell) (buddy, machine) =
      ⟨.ok (), ((buddy.released cell).fewer (buddy.blockAt cell) backing, machine), []⟩ := by
  obtain ⟨inside, start⟩ := deallocate_start sound present
  have taken := sound.get?_taken present
  have freed := release_run sound present
  have less := Word.sub_ok (Nat.le_of_lt several)
  have more : ¬backing.blocks - 1 = 0 := by omega
  unfold erased at freed
  simp [deallocate, inside, start, taken, buddyOf, Part.first, freed, found, less, more, back,
    fewer, Buddy.rebacked]

theorem deallocate_last (machine : Machine δ) (sound : Sound shape buddy)
    (present : cell ∈ takenCells buddy.taken)
    (found : buddy.backing.get? (buddy.blockAt cell).heap = some backing)
    (last : backing.blocks = 1) :
    deallocate (buddy.blockAt cell) (buddy, machine) =
      ⟨.ok (), ((buddy.released cell).rebacked
          (buddy.backing.erase (buddy.blockAt cell).heap),
        { machine with live := machine.live.erase (.memory backing.memory.serial) }),
        [.dropped (.memory backing.memory.serial),
          .noted (.heapReleased buddy.heap (buddy.blockAt cell).heap)]⟩ := by
  obtain ⟨inside, start⟩ := deallocate_start sound present
  have taken := sound.get?_taken present
  have freed := release_run sound present
  have less : Word.sub backing.blocks 1 = .ok 0 := by rw [last]; rfl
  unfold erased at freed
  simp [deallocate, inside, start, taken, buddyOf, machineOf, Part.first, Part.second, freed,
    found, less, Machine.drop, Buddy.rebacked]
  rfl

end Reclaim.Buddy
