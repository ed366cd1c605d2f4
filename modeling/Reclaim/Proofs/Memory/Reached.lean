import Reclaim.Proofs.Memory.Depot
import Reclaim.Device.Scripted

namespace Reclaim

def Block.Apart (one other : Block) : Prop :=
  one.heap ≠ other.heap ∨ one.offset + one.size ≤ other.offset ∨
    other.offset + other.size ≤ one.offset

-- The sums, shifts and products that no check guards stay within a word.
structure Buddy.InRange (buddy : Buddy) : Prop where
  shifts : ∀ order ≤ buddy.maxOrder, order < 64 ∧ buddy.blockSize order < Word.limit
  requests : ∀ size ≤ buddy.heapSize, buddy.orderOf (max size 1) ≤ buddy.maxOrder ∧
    Word.powerAbove ((max size 1 + buddy.minBlock - 1) / buddy.minBlock) < Word.limit
  ends : ∀ cell ∈ buddy.cells, cell.offset + buddy.blockSize cell.order < Word.limit
  heaps : buddy.heapCount < 2 ^ 32 ∧
    ∀ cell ∈ buddy.cells, cell.offset / buddy.heapSize < buddy.heapCount
  starts : ∀ block : Block, block.heap < buddy.heapCount → block.offset < buddy.heapSize →
    block.heap * buddy.heapSize + block.offset < Word.limit
  counts : ∀ entry ∈ buddy.backing, entry.2.blocks + 1 < Word.limit
  rest : buddy.used ≤ buddy.size

theorem Buddy.ofLayout?_sound {heap : BufferHeap} {layout : BuddyLayout} {buddy : Buddy}
    (accepted : ofLayout? heap layout = .ok buddy) : ∃ shape, buddy.Sound shape := by
  obtain ⟨⟨shape, fits⟩, -, -, -, free, taken, used, -⟩ := ofLayout?_fits accepted
  have none_taken : takenCells buddy.taken = [] := by rw [taken]; rfl
  have whole : buddy.cells = [⟨0, buddy.maxOrder⟩] := by
    rw [cells, none_taken, free, freeCells, freeFrom_replicate]
    simp [freeFrom]
  refine ⟨shape, fits, ?_, ?_, ?_, ?_, ?_⟩
  · simp [free]
  · rw [whole, ← fits.whole]
    exact Tiles.single _ _
  · rw [none_taken, used]
    rfl
  · simp [none_taken]
  · intro order below offset present
    rw [free, List.getD_append _ _ _ _ (by rwa [List.length_replicate])] at present
    simp at present

theorem Buddy.Sound.inRange {shape : Shape} {buddy : Buddy} (sound : buddy.Sound shape)
    (counted : ∀ entry ∈ buddy.backing, entry.2.blocks ≤ buddy.taken.length) :
    buddy.InRange where
  shifts := by
    intro order le
    have orders := sound.fits.maxOrder
    have narrow := shape.narrow
    refine ⟨by omega, ?_⟩
    rw [sound.fits.blockSize, Word.limit_pow]
    exact Nat.pow_lt_pow_right (by omega) (by omega)
  requests := by
    intro size inside
    have orders := sound.fits.maxOrder
    have narrow := shape.narrow
    have some_size : max size 1 ≤ buddy.heapSize :=
      Nat.max_le.mpr ⟨inside, sound.fits.some_heap⟩
    refine ⟨?_, ?_⟩
    · have small := sound.fits.orderOf_le some_size
      omega
    · refine Nat.lt_of_le_of_lt (sound.fits.blocks_le some_size) ?_
      rw [Word.limit_pow]
      exact Nat.pow_lt_pow_right (by omega) (by omega)
  ends := by
    intro cell present
    have within := sound.tiled.end_le sound.fits.some_unit present
    exact Nat.lt_of_le_of_lt within sound.fits.size_lt
  heaps := by
    refine ⟨?_, ?_⟩
    · rw [sound.fits.heapCount]
      exact Nat.pow_lt_pow_right (by omega) shape.few
    · intro cell present
      have within := sound.tiled.end_le sound.fits.some_unit present
      have some_bytes := sound.fits.some_bytes cell.order
      refine (Nat.div_lt_iff_lt_mul sound.fits.some_heap).mpr ?_
      rw [Nat.mul_comm, ← sound.fits.heaps]
      unfold blockSize at some_bytes
      omega
  starts := by
    intro block heap offset
    have below : (block.heap + 1) * buddy.heapSize ≤ buddy.heapCount * buddy.heapSize :=
      Nat.mul_le_mul_right _ heap
    have room := sound.fits.size_lt
    rw [sound.fits.heaps, Nat.mul_comm] at room
    rw [Nat.succ_mul] at below
    omega
  counts := by
    intro entry present
    have blocks := counted entry present
    have taken : (takenCells buddy.taken).length ≤ buddy.size := by
      refine Nat.le_trans ?_ sound.bytes_le
      have ones := List.length_le_sum_of_one_le
        ((takenCells buddy.taken).map (buddy.blockSize ·.order)) fun bytes listed => by
          obtain ⟨cell, -, rfl⟩ := List.mem_map.mp listed
          exact sound.fits.some_bytes cell.order
      rwa [List.length_map] at ones
    have half : buddy.size ≤ 2 ^ 63 := by
      rw [sound.fits.size]
      exact Nat.pow_le_pow_right (by omega) (Nat.le_of_lt_succ shape.narrow)
    rw [takenCells, List.length_map] at taken
    rw [Word.limit_pow]
    omega
  rest := sound.charged ▸ sound.bytes_le

namespace Depot

variable {δ : Type} {shape : Shape} {depot : Depot δ} {given : List Claim}

theorem opened_sound {heap : BufferHeap} {layout : BuddyLayout} {buddy : Buddy} (device : δ)
    (accepted : Buddy.ofLayout? heap layout = .ok buddy) :
    ∃ shape, (opened buddy device).Sound shape [] := by
  obtain ⟨shape, sound⟩ := Buddy.ofLayout?_sound accepted
  obtain ⟨-, -, -, -, -, taken, -, backing⟩ := Buddy.ofLayout?_fits accepted
  refine ⟨shape, sound, rfl, ?_, ?_, ?_⟩
  · exact List.Perm.of_eq (congrArg Buddy.takenCells taken)
  · change Backed buddy.backing []
    rw [backing]
    exact Backed.opened
  · change Live (Machine.start device) (serials buddy.backing ++ [])
    rw [backing]
    exact Live.opened device

theorem Sound.blocks_le (sound : depot.Sound shape given) :
    ∀ entry ∈ depot.buddy.backing, entry.2.blocks ≤ depot.buddy.taken.length := by
  intro entry present
  have found := Table.get?_of_mem sound.backed.distinct present
  have counted := sound.backed.counted entry.1
  rw [found] at counted
  change entry.2.blocks = _ at counted
  have held : depot.held.length = given.length := by rw [sound.held, List.length_map]
  have taken := sound.taken.length_eq
  rw [Buddy.takenCells, List.length_map, List.length_append] at taken
  have some_held := List.countP_le_length (p := fun block => block.heap = entry.1) (l := depot.held)
  omega

theorem block_apart (buddy : Buddy) {one other : Claim}
    (apart : one.Apart buddy.minBlock other) :
    (buddy.blockAt one).Apart (buddy.blockAt other) := by
  by_cases same : (buddy.blockAt one).heap = (buddy.blockAt other).heap
  · have first := Nat.div_add_mod one.offset buddy.heapSize
    have second := Nat.div_add_mod other.offset buddy.heapSize
    simp only [Buddy.blockAt] at same
    rw [same] at first
    refine .inr ?_
    simp only [Buddy.blockAt, Buddy.blockSize]
    unfold Claim.Apart at apart
    omega
  · exact .inl same

theorem Sound.held_apart (sound : depot.Sound shape given) :
    depot.held.Pairwise Block.Apart := by
  have cells := sound.buddy.tiled.apart sound.buddy.fits.some_unit
  have taken := (List.pairwise_append.mp cells).1
  have both := (sound.taken.pairwise_iff fun {_ _} => Or.symm).mp taken
  rw [sound.held]
  exact List.pairwise_map.mpr ((List.pairwise_append.mp both).1.imp (block_apart depot.buddy))

theorem Sound.conclude_failed {place : Nat} {claim : Claim} {error : Error}
    (sound : depot.Sound shape given)
    (found : depot.waiting[place]? = some ⟨claim, some (.error error)⟩) :
    conclude place depot = ⟨.ok (.refused error),
        { depot with
          buddy := depot.buddy.released claim
          waiting := depot.waiting.eraseIdx place }, []⟩ ∧
      (Buddy.takenCells depot.buddy.taken).Perm
        (claim :: Buddy.takenCells (depot.buddy.released claim).taken) := by
  have listed : claim ∈ depot.waiting.map (·.claim) :=
    List.mem_map_of_mem (List.mem_of_getElem? found)
  have present := sound.taken.mem_iff.mpr (List.mem_append_right given listed)
  have ran := Buddy.conclude_failed depot.machine sound.buddy present error
  refine ⟨?_, sound.buddy.taken_perm present⟩
  simp [conclude, resume, found, bothOf, ran]

variable [Device δ]

theorem serves (sound : depot.Sound shape given) (step : DepotStep δ) :
    depot.Serves shape step.run := by
  cases step with
  | request size => exact request_serves sound size
  | make place => exact make_serves sound place
  | conclude place => exact conclude_serves sound place
  | free place => exact free_serves sound place
  | device change =>
    exact ⟨_, _, _, given, rfl, { sound with live := sound.live.onDevice _ }⟩

theorem reached_sound {start : Depot δ} (reached : Reached start depot)
    (sound : start.Sound shape given) : ∃ given, depot.Sound shape given := by
  induction reached with
  | start => exact ⟨given, sound⟩
  | step prior step ih =>
    obtain ⟨before, sound⟩ := ih
    obtain ⟨answer, after, events, now, ran, kept⟩ := serves sound step
    rw [ran]
    exact ⟨now, kept⟩

theorem Reached.trans {start later : Depot δ} (first : Reached start depot)
    (rest : Reached depot later) : Reached start later := by
  induction rest with
  | start => exact first
  | step prior step ih => exact .step ih step

theorem Reached.ran {start after : Depot δ} {answer : Except Stop MemoryAnswer}
    {events : List Event} (prior : Reached start depot) (step : DepotStep δ)
    (ran : step.run depot = ⟨answer, after, events⟩) : Reached start after := by
  have path := prior.step step
  rwa [ran] at path

-- The blocks recorded and the free blocks tile the capacity, at every point of every run.
theorem reached_tiled {heap : BufferHeap} {layout : BuddyLayout} {buddy : Buddy} {device : δ}
    (accepted : Buddy.ofLayout? heap layout = .ok buddy)
    (reached : Reached (opened buddy device) depot) :
    Tiles (Word.powerAbove layout.minBlock) (Word.powerAbove layout.capacity)
        depot.buddy.cells ∧
      depot.held.Pairwise Block.Apart ∧
      (∀ block ∈ depot.held, block.offset + block.size ≤ Word.powerAbove layout.heapSize ∧
        block.heap < Word.powerAbove layout.capacity / Word.powerAbove layout.heapSize) ∧
      depot.buddy.used = depot.buddy.bytes (Buddy.takenCells depot.buddy.taken) ∧
      depot.buddy.InRange ∧
      ∀ step : DepotStep δ, ∃ answer, (step.run depot).result = .ok answer := by
  obtain ⟨shape, start⟩ := opened_sound device accepted
  obtain ⟨given, sound⟩ := reached_sound reached start
  obtain ⟨-, size, heapSize, minBlock, -⟩ := Buddy.ofLayout?_fits accepted
  have sameSize : depot.buddy.size = Word.powerAbove layout.capacity :=
    (sound.buddy.fits.size.trans start.buddy.fits.size.symm).trans size
  have sameHeap : depot.buddy.heapSize = Word.powerAbove layout.heapSize :=
    (sound.buddy.fits.heapSize.trans start.buddy.fits.heapSize.symm).trans heapSize
  have sameUnit : depot.buddy.minBlock = Word.powerAbove layout.minBlock :=
    (sound.buddy.fits.minBlock.trans start.buddy.fits.minBlock.symm).trans minBlock
  rw [← sameSize, ← sameHeap, ← sameUnit]
  refine ⟨sound.buddy.tiled, sound.held_apart, ?_, sound.buddy.charged,
    sound.buddy.inRange sound.blocks_le, ?_⟩
  · intro block present
    rw [sound.held] at present
    obtain ⟨cell, listed, rfl⟩ := List.mem_map.mp present
    have inside := sound.buddy.block_inside
      (sound.taken.mem_iff.mpr (List.mem_append_left _ listed))
    rw [sound.buddy.fits.heaps, Nat.mul_div_cancel_left _ sound.buddy.fits.some_heap]
    exact inside
  · intro step
    obtain ⟨answer, after, events, now, ran, -⟩ := serves sound step
    exact ⟨answer, by rw [ran]⟩

-- Two allocations wait at once, and the second memory heap is spare.
theorem reached_tiled_pair :
    ∃ (buddy : Buddy) (depot : Depot Scripted),
      Buddy.ofLayout? .upload ⟨60, 7, 32⟩ = .ok buddy ∧
      Reached (opened buddy Scripted.standard) depot ∧
      depot.held = [⟨16, 16, 0⟩, ⟨0, 8, 0⟩] ∧
      Tiles 8 64 depot.buddy.cells ∧ depot.held.Pairwise Block.Apart := by
  have accepted : Buddy.ofLayout? .upload ⟨60, 7, 32⟩ =
      .ok ⟨.upload, 64, 8, 32, 2, 3, [[], [], [], [0]], [], 0, []⟩ := rfl
  have begun : Reached (opened
      ⟨.upload, 64, 8, 32, 2, 3, [[], [], [], [0]], [], 0, []⟩ Scripted.standard) _ := .start
  have waiting := (begun.step (.request 5)).step (.request 12)
  have made := (waiting.step (.make 0)).step (.make 1)
  have reached := (made.step (.conclude 0)).step (.conclude 0)
  obtain ⟨tiles, apart, -⟩ := reached_tiled accepted reached
  exact ⟨_, _, accepted, reached, rfl, tiles, apart⟩

-- Device heaps exist for held blocks and for allocations on the way, and for nothing else.
theorem reached_backed {heap : BufferHeap} {layout : BuddyLayout} {buddy : Buddy} {device : δ}
    (accepted : Buddy.ofLayout? heap layout = .ok buddy)
    (reached : Reached (opened buddy device) depot) :
    (∀ index, (depot.buddy.backing.get? index).isSome ↔
        ∃ block ∈ depot.held, block.heap = index) ∧
      (∀ index entry, depot.buddy.backing.get? index = some entry →
        entry.blocks = depot.held.countP (·.heap = index)) ∧
      (depot.machine.live.Perm ((serials depot.buddy.backing ++
          depot.waiting.filterMap Suspended.memory?).map .memory) ∧
        depot.machine.live.Nodup) ∧
      ∀ place claim error, depot.waiting[place]? = some ⟨claim, some (.error error)⟩ →
        (DepotStep.conclude place).run depot = ⟨.ok (.refused error),
          { depot with
            buddy := depot.buddy.released claim
            waiting := depot.waiting.eraseIdx place }, []⟩ ∧
        (Buddy.takenCells depot.buddy.taken).Perm
          (claim :: Buddy.takenCells (depot.buddy.released claim).taken) := by
  obtain ⟨shape, start⟩ := opened_sound device accepted
  obtain ⟨given, sound⟩ := reached_sound reached start
  refine ⟨?_, ?_, ⟨sound.live.exact, ?_⟩, ?_⟩
  · intro index
    constructor
    · intro some_entry
      obtain ⟨entry, found⟩ := Option.isSome_iff_exists.mp some_entry
      have counted := sound.backed.counted index
      have positive := sound.backed.used index entry found
      rw [found] at counted
      change entry.blocks = _ at counted
      rw [counted] at positive
      obtain ⟨block, present, here⟩ := List.countP_pos_iff.mp positive
      exact ⟨block, present, of_decide_eq_true here⟩
    · rintro ⟨block, present, rfl⟩
      obtain ⟨entry, found⟩ := sound.backed.found present
      exact Option.isSome_iff_exists.mpr ⟨entry, found⟩
  · intro index entry found
    have counted := sound.backed.counted index
    rwa [found] at counted
  · have apart : ∀ one other, one ≠ other → Resource.memory one ≠ Resource.memory other :=
      fun _ _ differ same => differ (Resource.memory.inj same)
    exact sound.live.exact.nodup_iff.mpr (List.Pairwise.map _ apart sound.live.distinct)
  · intro place claim error found
    exact sound.conclude_failed found

theorem reached_backed_failed :
    ∃ (buddy : Buddy) (device : Scripted) (depot : Depot Scripted) (claim : Claim),
      Buddy.ofLayout? .upload ⟨60, 7, 32⟩ = .ok buddy ∧ Reached (opened buddy device) depot ∧
      depot.waiting[0]? = some ⟨claim, some (.error .outOfDeviceMemory)⟩ ∧
      ((depot.buddy.backing.get? 0).isSome ↔ ∃ block ∈ depot.held, block.heap = 0) ∧
      ((DepotStep.conclude 0).run depot).state.held = depot.held := by
  have accepted : Buddy.ofLayout? .upload ⟨60, 7, 32⟩ =
      .ok ⟨.upload, 64, 8, 32, 2, 3, [[], [], [], [0]], [], 0, []⟩ := rfl
  have begun : Reached (opened ⟨.upload, 64, 8, 32, 2, 3, [[], [], [], [0]], [], 0, []⟩
      (Scripted.standard.extend .memory [.done, .failed .outOfDeviceMemory])) _ := .start
  have waiting := (begun.step (.request 5)).step (.request 12)
  have made := (waiting.step (.make 0)).step (.make 1)
  have reached := made.step (.conclude 1)
  obtain ⟨backed, -, -, failed⟩ := reached_backed accepted reached
  obtain ⟨step, -⟩ := failed 0 _ _ rfl
  exact ⟨_, _, _, _, accepted, reached, rfl, backed 0, by rw [step]⟩

end Depot

end Reclaim
