import Reclaim.Device.Scripted
import Reclaim.Memory.Lot
import Reclaim.Proofs.Memory.Orderly

namespace Reclaim

variable {δ : Type}

namespace Dedicated

variable {dedicated : Dedicated} {heap : DedicatedHeap} {id : Nat}

def serials (live : Table DedicatedHeap) : List Nat := live.map (·.2.memory.serial)

theorem serials_entered (orderly : dedicated.Orderly) (memory : Memory) (size : Nat) :
    serials (dedicated.entered memory size).live = memory.serial :: serials dedicated.live := by
  simp [entered, serials, Table.insert, Table.erase_of_get?_none orderly.neat.fresh]

theorem serials_left (orderly : dedicated.Orderly) (there : dedicated.live.get? id = some heap) :
    (serials dedicated.live).Perm (heap.memory.serial :: serials (dedicated.left id heap).live) :=
  (Table.perm_of_get? orderly.neat.distinct there).map _

end Dedicated

def Expected.memory? : Expected → Option Nat
  | ⟨_, some (.ok memory)⟩ => some memory.serial
  | _ => none

def MemoryAnswer.granted? : MemoryAnswer → Option Block
  | .block granted => some granted
  | _ => none

namespace Lot

variable {lot after : Lot δ} {answer : MemoryAnswer} {events : List Event}

def onDevice (lot : Lot δ) (device : δ) : Lot δ :=
  { lot with machine := { lot.machine with device } }

def without (lot : Lot δ) (memory : Memory) : Lot δ :=
  { lot with
    machine := { lot.machine with live := lot.machine.live.erase (.memory memory.serial) } }

def moved (lot : Lot δ) (place : Nat) (one : Expected) : Lot δ :=
  { lot with waiting := one :: lot.waiting.eraseIdx place }

def ended (lot : Lot δ) (place : Nat) : Lot δ :=
  { lot with waiting := lot.waiting.eraseIdx place }

def made (lot : Lot δ) : Lot δ :=
  { lot with machine := { lot.machine with
      memoriesMade := lot.machine.memoriesMade + 1
      live := .memory lot.machine.memoriesMade :: lot.machine.live } }

inductive Came (lot : Lot δ) : LotStep δ → MemoryAnswer → Lot δ → List Event → Prop where
  | empty : Came lot (.request 0) (.refused .invalidParameter) lot []
  | asked {size} (some_bytes : 0 < size) :
      Came lot (.request size) .nothing { lot with waiting := ⟨size, none⟩ :: lot.waiting } []
  | still {step} : Came lot step .nothing lot []
  | moved {step place one} (found : lot.waiting[place]? = some one) :
      Came lot step .nothing (lot.moved place one) []
  | denied {place size} (found : lot.waiting[place]? = some ⟨size, none⟩) (error : Error)
      (device : δ) : Came lot (.make place) .nothing
        ((lot.moved place ⟨size, some (.error error)⟩).onDevice device)
        [.asked (.memory lot.dedicated.heap size) (.failed error)]
  | made {place size} (found : lot.waiting[place]? = some ⟨size, none⟩) (outcome : Outcome)
      (device : δ) : Came lot (.make place) .nothing
        ((lot.moved place ⟨size, some (.ok ⟨lot.machine.memoriesMade⟩)⟩).made.onDevice device)
        [.asked (.memory lot.dedicated.heap size) outcome]
  | failed {place size error} (found : lot.waiting[place]? = some ⟨size, some (.error error)⟩) :
      Came lot (.conclude place) (.refused error) (lot.ended place) []
  | full {place size memory} (found : lot.waiting[place]? = some ⟨size, some (.ok memory)⟩)
      (full : lot.dedicated.IsFull size) :
      Came lot (.conclude place) (.refused .allocationFailed) ((lot.ended place).without memory)
        [.dropped (.memory memory.serial)]
  | granted {place size memory} (found : lot.waiting[place]? = some ⟨size, some (.ok memory)⟩)
      (room : ¬lot.dedicated.IsFull size) :
      Came lot (.conclude place) (.block ⟨0, size, lot.dedicated.lastId + 1⟩)
        { lot.ended place with dedicated := lot.dedicated.entered memory size } []
  | unknown {block : Block} (absent : lot.dedicated.live.get? block.heap = none) :
      Came lot (.free block) .nothing lot [.noted (.heapUnknown block.heap)]
  | freed {block : Block} {heap} (there : lot.dedicated.live.get? block.heap = some heap) :
      Came lot (.free block) .nothing
        { lot.without heap.memory with dedicated := lot.dedicated.left block.heap heap }
        [.dropped (.memory heap.memory.serial)]
  | changed (change : δ → δ) :
      Came lot (.device change) .nothing (lot.onDevice (change lot.machine.device)) []

theorem request_came (lot : Lot δ) (size : Nat) :
    ∃ answer after, request size lot = ⟨.ok answer, after, []⟩ ∧
      lot.Came (.request size) answer after [] := by
  rcases Nat.eq_zero_or_pos size with rfl | some_bytes
  · exact ⟨_, _, rfl, .empty⟩
  · refine ⟨_, _, ?_, .asked some_bytes⟩
    simp [request, Dedicated.claim, Nat.ne_of_gt some_bytes, dedicatedOf, wait]

theorem make_came [Device δ] (lot : Lot δ) (place : Nat) :
    ∃ answer after events, make place lot = ⟨.ok answer, after, events⟩ ∧
      lot.Came (.make place) answer after events := by
  cases found : lot.waiting[place]? with
  | none => exact ⟨_, lot, [], by simp [make, resume, found], .still⟩
  | some one =>
    obtain ⟨size, made⟩ := one
    cases made with
    | some made =>
      exact ⟨_, _, _, by simp [make, resume, found, wait, Lot.moved], .moved found⟩
    | none =>
      rcases Machine.createMemory_run lot.dedicated.heap size lot.machine with
        ⟨error, device, ran⟩ | ⟨device, outcome, -, ran⟩
      · refine ⟨_, _, _, ?_, .denied found error device⟩
        simp [make, resume, found, machineOf, ran, wait, moved, onDevice]
      · refine ⟨_, _, _, ?_, .made found outcome device⟩
        simp [make, resume, found, machineOf, ran, wait, moved, onDevice, Lot.made]

theorem conclude_made {place size : Nat} {memory : Memory}
    (found : lot.waiting[place]? = some ⟨size, some (.ok memory)⟩) :
    lot.dedicated.IsFull size ∧ conclude place lot = ⟨.ok (.refused .allocationFailed),
        (lot.ended place).without memory, [.dropped (.memory memory.serial)]⟩ ∨
      ¬lot.dedicated.IsFull size ∧ conclude place lot =
        ⟨.ok (.block ⟨0, size, lot.dedicated.lastId + 1⟩),
          { lot.ended place with dedicated := lot.dedicated.entered memory size }, []⟩ := by
  by_cases full : lot.dedicated.IsFull size
  · have ran := Dedicated.conclude_full lot.machine memory full
    exact .inl ⟨full, by simp [conclude, resume, found, bothOf, ran, ended, without]⟩
  · have ran := Dedicated.conclude_entered lot.machine memory full
    exact .inr ⟨full, by simp [conclude, resume, found, bothOf, ran, ended]⟩

theorem conclude_came (lot : Lot δ) (place : Nat) :
    ∃ answer after events, conclude place lot = ⟨.ok answer, after, events⟩ ∧
      lot.Came (.conclude place) answer after events := by
  cases found : lot.waiting[place]? with
  | none => exact ⟨_, lot, [], by simp [conclude, resume, found], .still⟩
  | some one =>
    obtain ⟨size, made⟩ := one
    cases made with
    | none => exact ⟨_, _, _, by simp [conclude, resume, found, wait, moved], .moved found⟩
    | some made =>
      cases made with
      | error error =>
        refine ⟨_, _, _, ?_, .failed found⟩
        simp [conclude, resume, found, bothOf, Dedicated.conclude, ended]
      | ok memory =>
        rcases conclude_made found with ⟨full, ran⟩ | ⟨room, ran⟩
        · exact ⟨_, _, _, ran, .full found full⟩
        · exact ⟨_, _, _, ran, .granted found room⟩

theorem free_came (orderly : lot.dedicated.Orderly) (block : Block) :
    ∃ answer after events, free block lot = ⟨.ok answer, after, events⟩ ∧
      lot.Came (.free block) answer after events := by
  cases there : lot.dedicated.live.get? block.heap with
  | none =>
    have ran := Dedicated.deallocate_unknown lot.machine there
    exact ⟨_, _, _, by simp [free, bothOf, ran], .unknown there⟩
  | some heap =>
    have ran := orderly.deallocate_found lot.machine there
    exact ⟨_, _, _, by simp [free, bothOf, ran, without], .freed there⟩

theorem step_came [Device δ] (orderly : lot.dedicated.Orderly) (step : LotStep δ) :
    ∃ answer after events, step.run lot = ⟨.ok answer, after, events⟩ ∧
      lot.Came step answer after events := by
  cases step with
  | request size =>
    obtain ⟨answer, after, ran, came⟩ := request_came lot size
    exact ⟨answer, after, [], ran, came⟩
  | make place => exact make_came lot place
  | conclude place => exact conclude_came lot place
  | free block => exact free_came orderly block
  | device change => exact ⟨_, _, _, rfl, .changed change⟩

structure Sound (lot : Lot δ) : Prop where
  orderly : lot.dedicated.Orderly
  within : lot.dedicated.used < Word.limit
  numbered : lot.dedicated.lastId ≤ Dedicated.maxId
  live : Live lot.machine
    (Dedicated.serials lot.dedicated.live ++ lot.waiting.filterMap Expected.memory?)

theorem opened_sound (heap : BufferHeap) (device : δ) : (opened heap device).Sound where
  orderly := Dedicated.ofHeap_orderly heap
  within := Nat.two_pow_pos 64
  numbered := Nat.zero_le _
  live := .opened device

namespace Sound

theorem first {place : Nat} {one : Expected} (sound : lot.Sound)
    (found : lot.waiting[place]? = some one) : (lot.moved place one).Sound :=
  { sound with
    live := sound.live.perm (((Depot.perm_of_place found).filterMap _).append_left _) }

theorem onDevice (sound : lot.Sound) (device : δ) : (lot.onDevice device).Sound :=
  { sound with live := sound.live.onDevice device }

theorem ended {place size : Nat} {memory : Memory} (sound : lot.Sound)
    (found : lot.waiting[place]? = some ⟨size, some (.ok memory)⟩) :
    Live lot.machine (memory.serial :: (Dedicated.serials lot.dedicated.live ++
      (lot.waiting.eraseIdx place).filterMap Expected.memory?)) :=
  (sound.first found).live.perm List.perm_middle

theorem came {step : LotStep δ} (sound : lot.Sound) (came : lot.Came step answer after events) :
    after.Sound := by
  have orderly := sound.orderly
  cases came with
  | empty | still | unknown => exact sound
  | asked => exact { sound with }
  | moved found => exact sound.first found
  | denied found error device =>
    have first := (sound.first found).onDevice device
    exact { first with }
  | made found outcome device =>
    have first := sound.first found
    exact { first with live := (first.live.create.onDevice device).perm List.perm_middle.symm }
  | failed found =>
    have first := sound.first found
    exact { first with }
  | full found =>
    exact { sound with live := (sound.ended found).drop }
  | @granted place size memory found room =>
    unfold Dedicated.IsFull at room
    have serials := Dedicated.serials_entered orderly memory size
    exact {
      orderly := orderly.entered memory size
      within := by
        change lot.dedicated.used + size < Word.limit
        omega
      numbered := by
        change lot.dedicated.lastId + 1 ≤ Dedicated.maxId
        omega
      live := (sound.ended found).perm (.of_eq (congrArg (· ++ _) serials.symm)) }
  | freed there =>
    exact {
      orderly := orderly.left there
      within := Nat.lt_of_le_of_lt (Nat.sub_le _ _) sound.within
      numbered := sound.numbered
      live := (sound.live.perm ((Dedicated.serials_left orderly there).append_right _)).drop }
  | changed change => exact sound.onDevice _

end Sound

theorem Came.numbers {step : LotStep δ} (came : lot.Came step answer after events) :
    lot.dedicated.lastId ≤ after.dedicated.lastId ∧ ∀ block ∈ answer.granted?,
      lot.dedicated.lastId < block.heap ∧ block.heap ≤ after.dedicated.lastId := by
  cases came with
  | granted found room =>
    refine ⟨Nat.le_succ _, ?_⟩
    rintro _ ⟨⟩
    exact ⟨Nat.lt_succ_self _, Nat.le_refl _⟩
  | empty | asked | still | moved | denied | made | failed | full | unknown | freed | changed =>
    exact ⟨Nat.le_refl _, nofun⟩

def granted (answers : List MemoryAnswer) : List Block := answers.filterMap MemoryAnswer.granted?

structure Keeps (answers : List MemoryAnswer) (lot : Lot δ) : Prop where
  sound : lot.Sound
  below : ∀ block ∈ granted answers, block.heap ≤ lot.dedicated.lastId
  distinct : ((granted answers).map (·.heap)).Nodup

theorem Keeps.came {answers : List MemoryAnswer} {step : LotStep δ} (keeps : Keeps answers lot)
    (came : lot.Came step answer after events) : Keeps (answers ++ [answer]) after := by
  obtain ⟨later, named⟩ := came.numbers
  have more : granted (answers ++ [answer]) = granted answers ++ answer.granted?.toList := by
    cases shown : answer.granted? <;> simp [granted, shown]
  refine ⟨keeps.sound.came came, ?_, ?_⟩
  · intro block present
    rw [more] at present
    rcases List.mem_append.mp present with old | new
    · exact Nat.le_trans (keeps.below block old) later
    · exact (named block (Option.mem_toList.mp new)).2
  · rw [more, List.map_append]
    refine List.nodup_append.mpr ⟨keeps.distinct, ?_, ?_⟩
    · cases answer.granted? <;> simp
    · intro id old other new
      obtain ⟨block, listed, rfl⟩ := List.mem_map.mp old
      obtain ⟨block', listed', rfl⟩ := List.mem_map.mp new
      have before := keeps.below block listed
      have behind := (named block' (Option.mem_toList.mp listed')).1
      omega

variable [Device δ]

theorem Runs.trans {start middle : Lot δ} {answers more : List MemoryAnswer}
    (first : Runs start answers middle) (second : Runs middle more after) :
    Runs start (answers ++ more) after := by
  induction second with
  | start => simpa using first
  | step _ step ran ih =>
    rw [← List.append_assoc]
    exact ih.step step ran

theorem Runs.sound {start : Lot δ} {answers : List MemoryAnswer} (path : Runs start answers lot)
    (sound : start.Sound) : lot.Sound := by
  induction path with
  | start => exact sound
  | step prior step ran ih =>
    obtain ⟨answer, after, events, did, came⟩ := step_came ih.orderly step
    rw [ran] at did
    cases did
    exact ih.came came

theorem runs_keep_accounts {heap : BufferHeap} {device : δ} {answers : List MemoryAnswer}
    (path : Runs (opened heap device) answers lot) : Keeps answers lot := by
  induction path with
  | start =>
    exact ⟨opened_sound heap device, fun _ present => (List.not_mem_nil present).elim, List.nodup_nil⟩
  | step prior step ran ih =>
    obtain ⟨answer, after, events, did, came⟩ := step_came ih.sound.orderly step
    rw [ran] at did
    cases did
    exact ih.came came

-- However many allocations are on the way and whatever is given back, no number is used twice, the
-- bytes counted are those of the heaps in use, and there is one memory for each of these and for each
-- allocation that has just been made one. An allocation that is refused has changed none of the
-- accounts, and what was made for it is gone; short of full bytes or numbers none is refused that the
-- device has made its heap for.
theorem heaps_accounted {heap : BufferHeap} {device : δ} {answers : List MemoryAnswer}
    (path : Runs (opened heap device) answers lot) :
    (((granted answers).map (·.heap)).Nodup ∧
      ∀ block ∈ granted answers, block.heap ≤ Dedicated.maxId) ∧
    (lot.dedicated.used = Dedicated.bytes lot.dedicated.live ∧ lot.dedicated.used < Word.limit) ∧
    (lot.machine.live.Perm ((Dedicated.serials lot.dedicated.live ++
      lot.waiting.filterMap Expected.memory?).map .memory) ∧ lot.machine.live.Nodup) ∧
    (∀ step : LotStep δ, ∃ answer after events, step.run lot = ⟨.ok answer, after, events⟩ ∧
      (after.dedicated = lot.dedicated ∨ (∃ block, answer = .block block) ∨
        ∃ block, step = .free block ∧ (lot.dedicated.live.get? block.heap).isSome)) ∧
    (∀ place size memory, lot.waiting[place]? = some ⟨size, some (.ok memory)⟩ →
      ∃ answer after events, (LotStep.conclude place).run lot = ⟨.ok answer, after, events⟩ ∧
        (lot.dedicated.IsFull size ∧ answer = .refused .allocationFailed ∧
            after.dedicated = lot.dedicated ∧
            after.machine.live = lot.machine.live.erase (.memory memory.serial) ∧
            .memory memory.serial ∉ after.machine.live ∨
          ¬lot.dedicated.IsFull size ∧ answer = .block ⟨0, size, lot.dedicated.lastId + 1⟩ ∧
            after.dedicated = lot.dedicated.entered memory size ∧
            after.machine = lot.machine)) ∧
    ∀ block : Block, lot.dedicated.live.get? block.heap = none →
      (LotStep.free block).run lot = ⟨.ok .nothing, lot, [.noted (.heapUnknown block.heap)]⟩ := by
  have keeps := runs_keep_accounts path
  have sound := keeps.sound
  have distinct : lot.machine.live.Nodup := by
    have apart : ∀ one other, one ≠ other → Resource.memory one ≠ Resource.memory other :=
      fun _ _ differ same => differ (Resource.memory.inj same)
    exact sound.live.exact.nodup_iff.mpr (List.Pairwise.map _ apart sound.live.distinct)
  have numbered (block : Block) (present : block ∈ granted answers) :=
    Nat.le_trans (keeps.below block present) sound.numbered
  refine ⟨⟨keeps.distinct, numbered⟩, ⟨sound.orderly.charged, sound.within⟩,
    ⟨sound.live.exact, distinct⟩, fun step => ?_, ?_, ?_⟩
  · obtain ⟨answer, after, events, ran, came⟩ := step_came sound.orderly step
    refine ⟨answer, after, events, ran, ?_⟩
    cases came with
    | granted => exact .inr (.inl ⟨_, rfl⟩)
    | freed there => exact .inr (.inr ⟨_, rfl, Option.isSome_iff_exists.mpr ⟨_, there⟩⟩)
    | empty | asked | still | moved | denied | made | failed | full | unknown | changed =>
      exact .inl rfl
  · intro place size memory found
    rcases conclude_made found with ⟨full, ran⟩ | ⟨room, ran⟩
    · exact ⟨_, _, _, ran, .inl ⟨full, rfl, rfl, rfl, distinct.not_mem_erase⟩⟩
    · exact ⟨_, _, _, ran, .inr ⟨room, rfl, rfl, rfl⟩⟩
  · intro block absent
    have ran := Dedicated.deallocate_unknown lot.machine absent
    simp [LotStep.run, free, bothOf, ran]

-- Two halves of the range are on the way at once. The second to come in is refused, and its memory
-- is gone.
theorem heaps_accounted_halves :
    ∃ lot : Lot Scripted,
      Runs (opened .upload Scripted.standard) [.nothing, .nothing, .nothing, .nothing,
        .block ⟨0, 2 ^ 63, 1⟩, .refused .allocationFailed] lot ∧
      lot.dedicated.used = 2 ^ 63 ∧ lot.machine.live = [.memory 1] ∧
      lot.dedicated.used = Dedicated.bytes lot.dedicated.live ∧
      (LotStep.free ⟨0, 2 ^ 63, 2⟩).run lot = ⟨.ok .nothing, lot, [.noted (.heapUnknown 2)]⟩ := by
  have opened : Runs (opened .upload Scripted.standard) [] _ := .start
  have asked := (opened.step (.request (2 ^ 63)) rfl).step (.request (2 ^ 63)) rfl
  have made := (asked.step (.make 0) rfl).step (.make 1) rfl
  have path := (made.step (.conclude 0) rfl).step (.conclude 0) rfl
  obtain ⟨-, ⟨charged, -⟩, -, -, -, unknown⟩ := heaps_accounted path
  exact ⟨_, path, rfl, rfl, charged, unknown _ rfl⟩

end Lot

end Reclaim
