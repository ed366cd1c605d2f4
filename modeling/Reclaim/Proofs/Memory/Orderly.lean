import Reclaim.Proofs.Memory.Restoring
import Reclaim.Proofs.Ownership.Stores

namespace Reclaim

variable {δ : Type}

namespace Buddy

variable {buddy : Buddy} {backing : Table Backing} {entry : Backing} {block : Block}

def InUse (backing : Table Backing) : Prop :=
  ∀ heap entry, backing.get? heap = some entry → 0 < entry.blocks

theorem InUse.insert (used : InUse backing) (some_blocks : 0 < entry.blocks) (heap : Nat) :
    InUse (backing.insert heap entry) := by
  intro other found there
  by_cases same : other = heap
  · subst same
    rw [Table.get?_insert_same] at there
    cases there
    exact some_blocks
  · rw [Table.get?_insert_other same] at there
    exact used other found there

theorem InUse.erase (used : InUse backing) (heap : Nat) : InUse (backing.erase heap) := by
  intro other found there
  by_cases same : other = heap
  · subst same
    rw [Table.get?_erase_same] at there
    cases there
  · rw [Table.get?_erase_other _ same] at there
    exact used other found there

structure Orderly (buddy : Buddy) : Prop where
  sound : ∃ shape, buddy.Sound shape
  used : InUse buddy.backing

theorem Orderly.rebacked (orderly : buddy.Orderly) (used : InUse backing) :
    (buddy.rebacked backing).Orderly := by
  obtain ⟨shape, sound⟩ := orderly.sound
  exact ⟨⟨shape, sound.rebacked backing⟩, used⟩

theorem ofLayout?_orderly {heap : BufferHeap} {layout : BuddyLayout}
    (accepted : ofLayout? heap layout = .ok buddy) : buddy.Orderly := by
  obtain ⟨-, -, -, -, -, -, -, bare⟩ := ofLayout?_fits accepted
  refine ⟨ofLayout?_sound accepted, ?_⟩
  rw [bare]
  exact fun _ _ there => by cases there

theorem allocate_orderly [Device δ] (machine : Machine δ) (orderly : buddy.Orderly) (size : Nat) :
    ∃ after, (Supply.allocate size (.buddy buddy, machine)).state.1 = .buddy after ∧
      after.Orderly := by
  obtain ⟨⟨shape, sound⟩, used⟩ := orderly
  have ends := allocate_run machine sound size
  generalize Supply.allocate size (.buddy buddy, machine) = run at ends
  cases ends with
  | refused error lacks => exact ⟨buddy, rfl, ⟨shape, sound⟩, used⟩
  | backed cell level rest backing claims found =>
    have claimed : (buddy.claimed cell level rest).Orderly := ⟨⟨shape, claims.sound⟩, used⟩
    exact ⟨_, rfl, claimed.rebacked (used.insert (Nat.succ_pos _) _)⟩
  | failed cell level rest error device claims =>
    exact ⟨buddy, congrArg Supply.buddy (claims.restored sound), ⟨shape, sound⟩, used⟩
  | made cell level rest device outcome claims bare went =>
    have claimed : (buddy.claimed cell level rest).Orderly := ⟨⟨shape, claims.sound⟩, used⟩
    exact ⟨_, rfl, claimed.rebacked (used.insert Nat.one_pos _)⟩

theorem blockAt_place (order : Nat) (inside : block.offset < buddy.heapSize) :
    (buddy.blockAt ⟨block.heap * buddy.heapSize + block.offset, order⟩).heap = block.heap ∧
      (buddy.blockAt ⟨block.heap * buddy.heapSize + block.offset, order⟩).offset =
        block.offset := by
  have some_heap : 0 < buddy.heapSize := Nat.lt_of_le_of_lt (Nat.zero_le _) inside
  constructor
  · change (block.heap * buddy.heapSize + block.offset) / buddy.heapSize = block.heap
    rw [Nat.mul_comm, Nat.mul_add_div some_heap, Nat.div_eq_of_lt inside, Nat.add_zero]
  · change (block.heap * buddy.heapSize + block.offset) % buddy.heapSize = block.offset
    rw [Nat.mul_comm, Nat.mul_add_mod, Nat.mod_eq_of_lt inside]

theorem deallocate_at (machine : Machine δ) {other : Block} (heap : other.heap = block.heap)
    (offset : other.offset = block.offset) (within : block.heap < buddy.heapCount)
    (inside : block.offset < buddy.heapSize) :
    deallocate block (buddy, machine) = deallocate other (buddy, machine) := by
  have here : ¬(buddy.heapCount ≤ block.heap ∨ buddy.heapSize ≤ block.offset) := by omega
  simp [deallocate, heap, offset, here]

theorem deallocate_unbacked {shape : Shape} {cell : Claim} (machine : Machine δ)
    (sound : buddy.Sound shape) (present : cell ∈ takenCells buddy.taken)
    (bare : buddy.backing.get? (buddy.blockAt cell).heap = none) :
    deallocate (buddy.blockAt cell) (buddy, machine) =
      ⟨.ok (), (buddy.released cell, machine), []⟩ := by
  obtain ⟨inside, start⟩ := deallocate_start sound present
  have taken := sound.get?_taken present
  have freed := release_run sound present
  unfold erased at freed
  simp [deallocate, inside, start, taken, buddyOf, Part.first, freed, bare]

theorem deallocate_answers (block : Block) :
    Action.Answers (fun both : Buddy × Machine δ => both.1.Orderly) (deallocate block) := by
  rintro ⟨buddy, machine⟩ orderly
  by_cases outside : buddy.heapCount ≤ block.heap ∨ buddy.heapSize ≤ block.offset
  · have ran : deallocate block (buddy, machine) =
        ⟨.ok (), (buddy, machine), [.noted (.blockOutside block buddy.heap)]⟩ := by
      simp [deallocate, outside]
    rw [ran]
    exact ⟨rfl, orderly⟩
  have within : block.heap < buddy.heapCount := by omega
  have inside : block.offset < buddy.heapSize := by omega
  cases taken : buddy.taken.get? (block.heap * buddy.heapSize + block.offset) with
  | none =>
    have ran : deallocate block (buddy, machine) = ⟨.ok (), (buddy, machine),
        [.noted (.blockUnknown (block.heap * buddy.heapSize + block.offset))]⟩ := by
      simp [deallocate, outside, taken]
    rw [ran]
    exact ⟨rfl, orderly⟩
  | some order =>
    obtain ⟨⟨shape, sound⟩, used⟩ := orderly
    let cell : Claim := ⟨block.heap * buddy.heapSize + block.offset, order⟩
    have present : cell ∈ takenCells buddy.taken := by
      refine List.mem_map.mpr ⟨(cell.offset, order), ?_, rfl⟩
      exact (Table.perm_of_get? sound.keys_nodup taken).mem_iff.mpr List.mem_cons_self
    have released : (buddy.released cell).Orderly := ⟨⟨shape, sound.released present⟩, used⟩
    obtain ⟨heap, offset⟩ := blockAt_place order inside
    rw [deallocate_at machine heap offset within inside]
    cases found : buddy.backing.get? (buddy.blockAt cell).heap with
    | none =>
      rw [deallocate_unbacked machine sound present found]
      exact ⟨rfl, released⟩
    | some entry =>
      have some_blocks := used _ _ found
      rcases Nat.lt_or_ge 1 entry.blocks with several | alone
      · rw [deallocate_fewer machine sound present found several]
        exact ⟨rfl, released.rebacked (used.insert (Nat.sub_pos_of_lt several) _)⟩
      · rw [deallocate_last machine sound present found (Nat.le_antisymm alone some_blocks)]
        exact ⟨rfl, released.rebacked (used.erase _)⟩

end Buddy

namespace Dedicated

variable {dedicated : Dedicated} {heap : DedicatedHeap} {size id : Nat}

def IsFull (dedicated : Dedicated) (size : Nat) : Prop :=
  Word.limit ≤ dedicated.used + size ∨ maxId ≤ dedicated.lastId

def entered (dedicated : Dedicated) (memory : Memory) (size : Nat) : Dedicated :=
  { dedicated with
    used := dedicated.used + size
    lastId := dedicated.lastId + 1
    live := dedicated.live.insert (dedicated.lastId + 1) ⟨memory, size⟩ }

def left (dedicated : Dedicated) (id : Nat) (heap : DedicatedHeap) : Dedicated :=
  { dedicated with used := dedicated.used - heap.size, live := dedicated.live.erase id }

def bytes (live : Table DedicatedHeap) : Nat := (live.map (·.2.size)).sum

structure Orderly (dedicated : Dedicated) : Prop where
  neat : dedicated.Neat
  charged : dedicated.used = bytes dedicated.live

theorem ofHeap_orderly (heap : BufferHeap) : (ofHeap heap).Orderly :=
  ⟨⟨List.nodup_nil, fun _ present => (List.not_mem_nil present).elim⟩, rfl⟩

theorem Orderly.found (orderly : dedicated.Orderly) (there : dedicated.live.get? id = some heap) :
    dedicated.used = heap.size + bytes (dedicated.live.erase id) := by
  rw [orderly.charged]
  exact ((Table.perm_of_get? orderly.neat.distinct there).map _).sum_nat

theorem deallocate_unknown {block : Block} (machine : Machine δ)
    (unknown : dedicated.live.get? block.heap = none) :
    deallocate block (dedicated, machine) =
      ⟨.ok (), (dedicated, machine), [.noted (.heapUnknown block.heap)]⟩ := by
  simp [deallocate, unknown]

theorem Orderly.deallocate_found {block : Block} (orderly : dedicated.Orderly) (machine : Machine δ)
    (there : dedicated.live.get? block.heap = some heap) :
    deallocate block (dedicated, machine) = ⟨.ok (),
      (dedicated.left block.heap heap,
        { machine with live := machine.live.erase (.memory heap.memory.serial) }),
      [.dropped (.memory heap.memory.serial)]⟩ := by
  have charged := orderly.found there
  have enough := Word.sub_ok ((Nat.le_add_right heap.size _).trans_eq charged.symm)
  simp [deallocate, there, enough, dedicatedOf, machineOf, Part.first, Part.second, Machine.drop,
    Dedicated.left]

theorem Orderly.left (orderly : dedicated.Orderly)
    (there : dedicated.live.get? id = some heap) : (dedicated.left id heap).Orderly := by
  refine ⟨orderly.neat.erase _ _, ?_⟩
  change dedicated.used - heap.size = _
  rw [orderly.found there, Nat.add_sub_cancel_left]
  rfl

theorem Orderly.entered (orderly : dedicated.Orderly) (memory : Memory) (size : Nat) :
    (dedicated.entered memory size).Orderly := by
  refine ⟨orderly.neat.insert _ _, ?_⟩
  change dedicated.used + size = bytes (dedicated.live.insert (dedicated.lastId + 1) ⟨memory, size⟩)
  rw [Table.insert, Table.erase_of_get?_none orderly.neat.fresh, orderly.charged, Nat.add_comm]
  rfl

theorem conclude_full (machine : Machine δ) (memory : Memory) (full : dedicated.IsFull size) :
    conclude size (.ok memory) (dedicated, machine) =
      ⟨.error (.error .allocationFailed),
        (dedicated, { machine with live := machine.live.erase (.memory memory.serial) }),
        [.dropped (.memory memory.serial)]⟩ := by
  unfold IsFull at full
  simp [conclude, full, machineOf, Part.second, Machine.drop]

theorem conclude_entered (machine : Machine δ) (memory : Memory) (room : ¬dedicated.IsFull size) :
    conclude size (.ok memory) (dedicated, machine) =
      ⟨.ok ⟨0, size, dedicated.lastId + 1⟩, (dedicated.entered memory size, machine), []⟩ := by
  unfold IsFull at room
  simp [conclude, room, dedicatedOf, Part.first, entered]

inductive Allocates (dedicated : Dedicated) (machine : Machine δ) (size : Nat) :
    Run (Dedicated × Machine δ) Block → Prop where
  | empty : size = 0 → dedicated.Allocates machine size
      ⟨.error (.error .invalidParameter), (dedicated, machine), []⟩
  | denied (error : Error) (device : δ) : dedicated.Allocates machine size
      ⟨.error (.error error), (dedicated, { machine with device }),
        [.asked (.memory dedicated.heap size) (.failed error)]⟩
  | full (after : Machine δ) (outcome : Outcome) (memory : Memory) : dedicated.IsFull size →
      dedicated.Allocates machine size
        ⟨.error (.error .allocationFailed), (dedicated, after),
          [.asked (.memory dedicated.heap size) outcome, .dropped (.memory memory.serial)]⟩
  | granted (after : Machine δ) (outcome : Outcome) (memory : Memory) :
      dedicated.Allocates machine size
        ⟨.ok ⟨0, size, dedicated.lastId + 1⟩, (dedicated.entered memory size, after),
          [.asked (.memory dedicated.heap size) outcome]⟩

theorem allocate_run [Device δ] (dedicated : Dedicated) (machine : Machine δ) (size : Nat) :
    dedicated.Allocates machine size (allocate size (dedicated, machine)) := by
  by_cases empty : size = 0
  · have ran : allocate size (dedicated, machine) =
        ⟨.error (.error .invalidParameter), (dedicated, machine), []⟩ := by
      simp [allocate, claim, empty, dedicatedOf, Part.first]
    exact ran ▸ .empty empty
  rcases Machine.createMemory_run dedicated.heap size machine with
    ⟨error, device, asked⟩ | ⟨device, outcome, -, asked⟩
  · have ran : allocate size (dedicated, machine) = ⟨.error (.error error),
        (dedicated, { machine with device }),
        [.asked (.memory dedicated.heap size) (.failed error)]⟩ := by
      simp [allocate, claim, empty, dedicatedOf, machineOf, Part.first, Part.second, asked, conclude]
    exact ran ▸ .denied error device
  let memory : Memory := ⟨machine.memoriesMade⟩
  let after : Machine δ := { machine with
    device, memoriesMade := machine.memoriesMade + 1
    live := .memory machine.memoriesMade :: machine.live }
  by_cases full : dedicated.IsFull size
  · have ended := conclude_full after memory full
    have ran : allocate size (dedicated, machine) = ⟨.error (.error .allocationFailed),
        (dedicated, { after with live := after.live.erase (.memory memory.serial) }),
        [.asked (.memory dedicated.heap size) outcome, .dropped (.memory memory.serial)]⟩ := by
      simp [allocate, claim, empty, dedicatedOf, machineOf, Part.first, Part.second, asked, ended,
        after, memory]
    exact ran ▸ .full _ outcome memory full
  · have ended := conclude_entered after memory full
    have ran : allocate size (dedicated, machine) = ⟨.ok ⟨0, size, dedicated.lastId + 1⟩,
        (dedicated.entered memory size, after), [.asked (.memory dedicated.heap size) outcome]⟩ := by
      simp [allocate, claim, empty, dedicatedOf, machineOf, Part.first, Part.second, asked, ended,
        after, memory]
    exact ran ▸ .granted after outcome memory

theorem conclude_orderly (size : Nat) (made : Except Error Memory) :
    Action.Preserves (fun both : Dedicated × Machine δ => both.1.Orderly) (conclude size made) := by
  refine Action.returns_bind (Action.returns_settle made) fun memory => ?_
  refine Action.returns_before ?_ fun _ settled => settled.1
  refine Action.returns_bind Action.returns_get fun both => ?_
  dsimp only
  split
  · refine Action.returns_via (fun _ both => both.1.Orderly) (fun _ seen => seen.1) fun _ => ?_
    exact Action.returns_refuse fun _ orderly => orderly
  · refine Action.returns_via (fun _ both => both.1.Orderly) ?_ fun _ =>
      Action.returns_pure fun _ orderly => orderly
    rintro now ⟨orderly, rfl⟩
    exact orderly.entered memory size

theorem allocate_orderly [Device δ] (size : Nat) :
    Action.Preserves (fun both : Dedicated × Machine δ => both.1.Orderly) (allocate size) := by
  unfold allocate claim
  refine Action.returns_via (fun _ both => both.1.Orderly) ?_ fun _ => ?_
  · intro both orderly
    split <;> exact orderly
  refine Action.returns_look fun both => ?_
  refine Action.returns_via (fun _ both => both.1.Orderly) ?_ fun made => conclude_orderly size made
  have aside : Action.Keeps (fun both : Dedicated × Machine δ => both.1)
      (Action.on machineOf (Machine.createMemory both.1.heap size).attempt) := fun _ => rfl
  exact Action.preserves_of_keeps aside

theorem deallocate_answers (block : Block) :
    Action.Answers (fun both : Dedicated × Machine δ => both.1.Orderly) (deallocate block) := by
  rintro ⟨dedicated, machine⟩ orderly
  cases there : dedicated.live.get? block.heap with
  | none =>
    rw [deallocate_unknown machine there]
    exact ⟨rfl, orderly⟩
  | some heap =>
    rw [orderly.deallocate_found machine there]
    exact ⟨rfl, orderly.left there⟩

end Dedicated

namespace Supply

def Orderly : Supply → Prop
  | buddy b => b.Orderly
  | dedicated d => d.Orderly

theorem allocate_dedicated [Device δ] (size : Nat) (d : Dedicated) (machine : Machine δ) :
    allocate size (dedicated d, machine) =
      let run := Dedicated.allocate size (d, machine)
      ⟨run.result, (dedicated run.state.1, run.state.2), run.events⟩ := by
  by_cases empty : size = 0
  · simp [allocate, allocateWhile, claim, byKind, Dedicated.allocate, Dedicated.claim, empty,
      Part.whole, Dedicated.dedicatedOf, Part.first]
  rcases Machine.createMemory_run d.heap size machine with
    ⟨error, device, ran⟩ | ⟨device, outcome, -, ran⟩ <;>
    simp [allocate, allocateWhile, claim, conclude, byKind, Dedicated.allocate, Dedicated.claim,
      empty, Part.whole, Dedicated.dedicatedOf, Part.first, Part.andThen, machineOf,
      Dedicated.machineOf, Part.second, heap, ran]

-- What is said of a supply lasts: no allocation ends it, and a block can be taken back at any time.
structure Lasting (δ : Type) [Device δ] (holds : Supply → Prop) : Prop where
  allocate (size : Nat) :
    Action.Preserves (fun both : Supply × Machine δ => holds both.1) (allocate size)
  deallocate (block : Block) :
    Action.Answers (fun both : Supply × Machine δ => holds both.1) (deallocate block)

theorem orderly_lasting [Device δ] : Lasting δ Orderly where
  allocate size := by
    rintro ⟨supply, machine⟩ orderly
    cases supply with
    | buddy b =>
      obtain ⟨after, same, kept⟩ := b.allocate_orderly machine orderly size
      exact Run.leaves_of_state (same ▸ kept)
    | dedicated d =>
      rw [allocate_dedicated]
      exact (Dedicated.allocate_orderly size (d, machine) orderly).image
        (fun both => (dedicated both.1, both.2)) (fun _ _ kept => kept) fun _ kept => kept
  deallocate block := by
    rintro ⟨supply, machine⟩ orderly
    cases supply with
    | buddy b => exact Buddy.deallocate_answers block (b, machine) orderly
    | dedicated d => exact Dedicated.deallocate_answers block (d, machine) orderly

end Supply

end Reclaim
