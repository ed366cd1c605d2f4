import Reclaim.Device.Scripted
import Reclaim.Proofs.Descriptor.Slots

namespace Reclaim

variable {δ : Type}

def SlotStep.live (step : SlotStep δ) (answer : Except Error SlotAnswer)
    (live : List (Handle × Nat)) : List (Handle × Nat) :=
  match step, answer with
  | .allocate, .ok (.slot handle index) => (handle, index) :: live
  | .free _ _, .ok (.slot handle index) => live.erase (handle, index)
  | .freeHandle handle index, .ok _ => live.erase (handle, index)
  | _, _ => live

namespace SlotClient

variable {kind : Kind} {stride slots : Nat} {live : List (Handle × Nat)}
  {client after : SlotClient δ} {events : List Event}

theorem give_run (accounts : client.manager.Accounts stride slots live) (handle index : Nat) :
    (client.manager.Far stride handle index ∧
      give handle index client = ⟨.error (.fault .overflow), client, []⟩) ∨
    ∃ manager events, ¬ client.manager.Far stride handle index ∧
      give handle index client = ⟨.ok (), { client with manager }, events⟩ ∧
      manager.Accounts stride slots (live.erase (handle, index)) ∧
      ((handle, index) ∉ live → manager = client.manager ∧ ∃ note, events = [.noted note]) := by
  rcases SlotManager.free_run accounts handle index with ⟨far, ran⟩ |
    ⟨manager, events, near, ran, gave, unheld⟩
  · refine .inl ⟨far, ?_⟩
    simp [give, managerOf, SlotManager.managerOf, Part.first, ran]
  · refine .inr ⟨manager, events, near, ?_, gave, unheld⟩
    simp [give, managerOf, SlotManager.managerOf, Part.first, ran]

variable [Device δ] {device : δ}

inductive Ran (device : δ) (kind : Kind) (slots : Nat) :
    List (Handle × Nat) → SlotClient δ → Prop where
  | opened : Ran device kind slots [] (.opened device kind slots)
  | step {live : List (Handle × Nat)} {client after : SlotClient δ}
      {answer : Except Error SlotAnswer} {events : List Event} (step : SlotStep δ) :
      Ran device kind slots live client →
      step.run.attempt client = ⟨.ok answer, after, events⟩ →
      Ran device kind slots (step.live answer live) after

theorem allocate_step (accounts : client.manager.Accounts stride slots live) :
    (∃ error machine events, SlotStep.allocate.run client =
        ⟨.error (.error error), { client with machine }, events⟩) ∨
    (∃ machine events,
      SlotManager.Overflows stride slots client.manager.desc client.machine ∧
      SlotStep.allocate.run client = ⟨.error (.fault .overflow), { client with machine }, events⟩) ∨
    ∃ handle index after events,
      SlotStep.allocate.run client = ⟨.ok (.slot handle index), after, events⟩ ∧
      (handle, index) ∉ live ∧ after.manager.Accounts stride slots ((handle, index) :: live) := by
  rcases SlotManager.allocate_run accounts client.machine with ⟨error, left, told, did⟩ |
    ⟨left, told, overflows, did⟩ | ⟨handle, index, manager, left, told, did, unheld, taken⟩
  · refine .inl ⟨error, left, told, ?_⟩
    simp [SlotStep.run, managerOf, did]
  · refine .inr (.inl ⟨left, told, overflows, ?_⟩)
    simp [SlotStep.run, managerOf, did]
  · refine .inr (.inr ⟨handle, index,
      ⟨manager, left, client.held ++ [(handle, index)]⟩, told, ?_, unheld, taken⟩)
    simp [SlotStep.run, managerOf, did]

theorem step_accounts (accounts : client.manager.Accounts stride slots live) (step : SlotStep δ)
    {answer : Except Error SlotAnswer}
    (ran : step.run.attempt client = ⟨.ok answer, after, events⟩) :
    after.manager.Accounts stride slots (step.live answer live) := by
  rw [Action.run_attempt] at ran
  cases step with
  | allocate =>
    rcases allocate_step accounts with ⟨error, machine, told, did⟩ | ⟨machine, told, -, did⟩ |
      ⟨handle, index, taken, told, did, -, accounted⟩
    · rw [did] at ran
      cases ran
      exact accounts
    · rw [did] at ran
      cases ran
    · rw [did] at ran
      cases ran
      exact accounted
  | free place keep =>
    cases picked : Held.pick? client.held place keep with
    | none =>
      simp [SlotStep.run, picked] at ran
      obtain ⟨rfl, rfl, -⟩ := ran
      exact accounts
    | some choice =>
      obtain ⟨⟨handle, index⟩, held⟩ := choice
      have holding : SlotManager.Accounts stride slots { client with held }.manager live := accounts
      rcases give_run holding handle index with ⟨-, did⟩ | ⟨manager, told, -, did, gave, -⟩
      · simp [SlotStep.run, picked, did] at ran
      · simp [SlotStep.run, picked, did] at ran
        obtain ⟨rfl, rfl, -⟩ := ran
        exact gave
  | freeHandle handle index =>
    rcases give_run accounts handle index with ⟨-, did⟩ | ⟨manager, told, -, did, gave, -⟩
    · simp [SlotStep.run, did] at ran
    · simp [SlotStep.run, did] at ran
      obtain ⟨rfl, rfl, -⟩ := ran
      exact gave
  | device change =>
    simp [SlotStep.run] at ran
    obtain ⟨rfl, rfl, -⟩ := ran
    exact accounts

theorem ran_accounts (path : Ran device kind slots live client) :
    client.manager.Accounts (Device.stride device kind) slots live := by
  induction path with
  | opened => exact SlotManager.ofDevice_accounts device kind slots
  | step step _ ran accounts => exact step_accounts accounts step ran

theorem freeCount_accounts {manager : SlotManager} {index : Nat} {heap : SlotHeap}
    (accounts : manager.Accounts stride slots live) (found : manager.heaps[index]? = some heap) :
    ∃ free, manager.freeCount? index = .ok (some free) ∧
      free + live.countP (·.2 = index) = slots := by
  have shown := accounts.heaps index heap found
  obtain ⟨runs, free, decomposes, counted⟩ := shown.listed
  refine ⟨Range.total runs, ?_, counted⟩
  simp only [SlotManager.freeCount?, found, free, accounts.same_stride,
    SlotHeap.slotCount_along shown.some_stride decomposes.apart]
  rfl

theorem freeRanges_unique {manager other : SlotManager} {others : List (Handle × Nat)} {index : Nat}
    {heap shown : SlotHeap} (accounts : manager.Accounts stride slots live)
    (accounts' : other.Accounts stride slots others) (found : manager.heaps[index]? = some heap)
    (found' : other.heaps[index]? = some shown)
    (start : shown.object.cpuStart = heap.object.cpuStart)
    (held : ∀ handle, (handle, index) ∈ others ↔ (handle, index) ∈ live) :
    other.freeRanges index = manager.freeRanges index := by
  obtain ⟨runs, free, decomposes, -⟩ := (accounts.heaps index heap found).listed
  obtain ⟨runs', free', decomposes', -⟩ := (accounts'.heaps index shown found').listed
  have place : shown.place stride = heap.place stride := by
    unfold SlotHeap.place
    rw [start]
  rw [place] at free' decomposes'
  have same : runs' = runs := decomposes'.unique (decomposes.congr fun slot _ => by rw [held])
  simp only [SlotManager.freeRanges, found, found', free, free', same]

-- After any calls that returned, each heap's free ranges are the runs of its slots that nobody holds,
-- so they depend on these alone; free slots and held ones make up the heap; and what an allocation
-- hands out nobody holds.
theorem slots_exact (path : Ran device kind slots live client) :
    let stride := Device.stride device kind
    live.Nodup ∧
    (∀ handle index, (handle, index) ∈ live → ∃ heap, client.manager.heaps[index]? = some heap ∧
      ∃ slot < slots, handle = heap.place stride slot) ∧
    (∀ index heap, client.manager.heaps[index]? = some heap →
      (∃ runs, client.manager.freeRanges index = runs.map (Range.along (heap.place stride)) ∧
        Range.Decomposes (fun slot => (heap.place stride slot, index) ∉ live) slots runs) ∧
      ∃ free, client.manager.freeCount? index = .ok (some free) ∧
        free + live.countP (·.2 = index) = slots) ∧
    (∀ handle index after events,
      SlotStep.allocate.run client = ⟨.ok (.slot handle index), after, events⟩ →
        (handle, index) ∉ live) ∧
    (∀ fault after events, SlotStep.allocate.run client = ⟨.error (.fault fault), after, events⟩ →
      SlotManager.Overflows stride slots client.manager.desc client.machine) ∧
    ∀ others (other : SlotClient δ), Ran device kind slots others other → ∀ index heap shown,
      client.manager.heaps[index]? = some heap → other.manager.heaps[index]? = some shown →
      shown.object.cpuStart = heap.object.cpuStart →
      (∀ handle, (handle, index) ∈ others ↔ (handle, index) ∈ live) →
      other.manager.freeRanges index = client.manager.freeRanges index := by
  intro stride
  have accounts := ran_accounts path
  refine ⟨accounts.distinct, accounts.inside, ?_, ?_, ?_, ?_⟩
  · intro index heap found
    refine ⟨?_, freeCount_accounts accounts found⟩
    obtain ⟨runs, free, decomposes, -⟩ := (accounts.heaps index heap found).listed
    exact ⟨runs, by simpa only [SlotManager.freeRanges, found] using free, decomposes⟩
  · intro handle index after events ran
    rcases allocate_step accounts with ⟨error, machine, told, did⟩ | ⟨machine, told, -, did⟩ |
      ⟨handle', index', taken, told, did, unheld, -⟩ <;> rw [did] at ran <;> cases ran
    exact unheld
  · intro fault after events ran
    rcases allocate_step accounts with ⟨error, machine, told, did⟩ |
      ⟨machine, told, overflows, did⟩ | ⟨handle, index, taken, told, did, -⟩ <;>
      rw [did] at ran <;> cases ran
    exact overflows
  · intro others other path' index heap shown found found' start held
    exact freeRanges_unique accounts (ran_accounts path') found found' start held

-- Three slots of four are taken; what lies between two slots, what is free already and what is given
-- back a second time make no difference.
theorem slots_exact_middle :
    ∃ (live : List (Handle × Nat)) (client : SlotClient Scripted) (heap : SlotHeap),
      Ran Scripted.standard .view 4 live client ∧
      live = [(0x1000040, 0), (0x1000000, 0)] ∧ client.manager.heaps[0]? = some heap ∧
      client.manager.freeRanges 0 = [⟨0x1000020, 0x1000040⟩, ⟨0x1000060, 0x1000080⟩] ∧
      (∃ runs, client.manager.freeRanges 0 = runs.map (Range.along (heap.place 32)) ∧
        Range.Decomposes (fun slot => (heap.place 32 slot, 0) ∉ live) 4 runs) ∧
      ∃ free, client.manager.freeCount? 0 = .ok (some free) ∧
        free + live.countP (·.2 = 0) = 4 := by
  have path : Ran Scripted.standard .view 4 [] (.opened Scripted.standard .view 4) := .opened
  replace path := ((path.step .allocate rfl).step .allocate rfl).step .allocate rfl
  replace path := (path.step (.freeHandle 0x1000028 0) rfl).step (.freeHandle 0x1000060 0) rfl
  replace path := (path.step (.free 1 true) rfl).step (.free 1 true) rfl
  obtain ⟨-, -, heaps, -⟩ := slots_exact path
  obtain ⟨ranges, count⟩ := heaps 0 _ rfl
  exact ⟨_, _, _, path, by decide +kernel, rfl, by decide +kernel, ranges, count⟩

-- What nobody holds may be given back at any time, whatever it names: that is reported and changes
-- nothing. Only where the slot would end beyond the last address does the call fault, for the end is
-- computed before anything is compared; nothing changes there either.
theorem unheld_ignored (path : Ran device kind slots live client) {handle : Handle} {index : Nat}
    (unheld : (handle, index) ∉ live) :
    let far := client.manager.Far (Device.stride device kind) handle index
    let ran := (SlotStep.freeHandle handle index).run client
    (¬ far → ∃ note, ran = ⟨.ok .nothing, client, [.noted note]⟩) ∧
    (far → ran = ⟨.error (.fault .overflow), client, []⟩) := by
  intro far ran
  rcases give_run (ran_accounts path) handle index with ⟨beyond, did⟩ |
    ⟨manager, events, near, did, -, same⟩
  · refine ⟨fun near => absurd beyond near, fun _ => ?_⟩
    simp [ran, SlotStep.run, did]
  · obtain ⟨rfl, note, rfl⟩ := same unheld
    refine ⟨fun _ => ⟨note, ?_⟩, fun beyond => absurd beyond near⟩
    simp [ran, SlotStep.run, did]

theorem unheld_ignored_ends :
    ∃ (live : List (Handle × Nat)) (client : SlotClient Scripted),
      Ran Scripted.standard .view 4 live client ∧ live = [(0x1000000, 0)] ∧
      (0, 0) ∉ live ∧ (Word.limit - 1, 0) ∉ live ∧
      (∃ note, (SlotStep.freeHandle 0 0).run client = ⟨.ok .nothing, client, [.noted note]⟩) ∧
      (SlotStep.freeHandle (Word.limit - 1) 0).run client =
        ⟨.error (.fault .overflow), client, []⟩ := by
  have path : Ran Scripted.standard .view 4 [] (.opened Scripted.standard .view 4) := .opened
  replace path := path.step .allocate rfl
  refine ⟨_, _, path, rfl, by decide, by decide, ?_, ?_⟩
  · refine (unheld_ignored path (by decide)).1 ?_
    rintro ⟨-, beyond⟩
    revert beyond
    decide
  · refine (unheld_ignored path (by decide)).2 ⟨?_, ?_⟩
    · decide
    · decide

-- The last address names no slot at all, and yet giving it back faults.
theorem unheld_fault :
    ∃ (live : List (Handle × Nat)) (client : SlotClient Scripted),
      Ran Scripted.standard .view 4 live client ∧ Word.limit - 1 < Word.limit ∧
      (Word.limit - 1, 0) ∉ live ∧
      ((SlotStep.freeHandle (Word.limit - 1) 0).run client).result ≠ .ok .nothing := by
  have path : Ran Scripted.standard .view 4 [] (.opened Scripted.standard .view 4) := .opened
  replace path := path.step .allocate rfl
  exact ⟨_, _, path, by decide, by decide, nofun⟩

end SlotClient

end Reclaim
