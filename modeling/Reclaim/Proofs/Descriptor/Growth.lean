import Reclaim.Proofs.Contract
import Reclaim.Proofs.Descriptor.Client
import Mathlib.Algebra.BigOperators.Group.Finset.Basic
import Mathlib.Algebra.Group.Action.Defs
import Mathlib.Algebra.Order.BigOperators.Group.Finset

namespace Reclaim

namespace SlotManager

variable {manager : SlotManager} {stride slots index : Nat} {live : List (Handle × Nat)}

section Counting

theorem held_by_heap (accounts : manager.Accounts stride slots live) :
    live.length = ∑ index ∈ Finset.range manager.heaps.length, live.countP (·.2 = index) := by
  have inside : ∀ index ∈ (live.map Prod.snd : Multiset Nat),
      index ∈ Finset.range manager.heaps.length := by
    intro index among
    obtain ⟨⟨handle, number⟩, held, rfl⟩ := List.mem_map.mp (Multiset.mem_coe.mp among)
    obtain ⟨heap, found, -⟩ := accounts.inside handle number held
    exact Finset.mem_range.mpr (List.getElem?_eq_some_iff.mp found).1
  have counted := Multiset.sum_count_eq_card inside
  rw [Multiset.coe_card, List.length_map] at counted
  rw [← counted]
  refine Finset.sum_congr rfl fun index _ => ?_
  rw [Multiset.coe_count, List.count, List.countP_map]
  rfl

theorem held_of_heap (accounts : manager.Accounts stride slots live)
    (within : index < manager.heaps.length) : live.countP (·.2 = index) ≤ slots := by
  obtain ⟨runs, -, -, counted⟩ :=
    (accounts.heaps index _ (List.getElem?_eq_getElem within)).listed
  omega

theorem held_le (accounts : manager.Accounts stride slots live) :
    live.length ≤ manager.heaps.length * slots := by
  rw [held_by_heap accounts]
  have each := Finset.sum_le_card_nsmul (Finset.range manager.heaps.length)
    (fun index => live.countP (·.2 = index)) slots
    fun index among => held_of_heap accounts (Finset.mem_range.mp among)
  rwa [Finset.card_range, smul_eq_mul] at each

theorem full_of_unready (accounts : manager.Accounts stride slots live)
    (none_ready : manager.ready = []) {heap : SlotHeap} (found : manager.heaps[index]? = some heap) :
    heap.free = [] := by
  by_contra some_free
  have queued := (accounts.queued index).mpr ⟨heap, found, some_free⟩
  rw [none_ready] at queued
  cases queued

theorem held_unready (accounts : manager.Accounts stride slots live)
    (none_ready : manager.ready = []) : live.length = manager.heaps.length * slots := by
  rw [held_by_heap accounts]
  have all (index : Nat) (among : index ∈ Finset.range manager.heaps.length) :
      live.countP (·.2 = index) = slots := by
    have found := List.getElem?_eq_getElem (Finset.mem_range.mp among)
    obtain ⟨runs, free, -, counted⟩ := (accounts.heaps index _ found).listed
    have none_free : runs = [] := by
      simpa [free] using full_of_unready accounts none_ready found
    simpa [none_free, Range.total] using counted
  rw [Finset.sum_congr rfl all, Finset.sum_const, Finset.card_range, smul_eq_mul]

theorem some_free_iff (accounts : manager.Accounts stride slots live) {heap : SlotHeap}
    (found : manager.heaps[index]? = some heap) :
    heap.free ≠ [] ↔ ∃ slot < slots, (heap.place stride slot, index) ∉ live := by
  obtain ⟨runs, free, decomposes, -⟩ := (accounts.heaps index heap found).listed
  constructor
  · intro some_free
    cases runs with
    | nil => exact absurd free some_free
    | cons run rest =>
      have some_slot := decomposes.apart.some_slot run List.mem_cons_self
      have inside := decomposes.inside run List.mem_cons_self
      have covered : Range.Covers (run :: rest) run.start :=
        ⟨run, List.mem_cons_self, Nat.le_refl _, some_slot⟩
      have within : run.start < slots := Nat.lt_of_lt_of_le some_slot inside
      exact ⟨run.start, within, (decomposes.exact run.start within).mp covered⟩
  · rintro ⟨slot, within, unheld⟩ none_free
    obtain ⟨run, among, -⟩ := (decomposes.exact slot within).mpr unheld
    rw [free, List.map_eq_nil_iff] at none_free
    subst none_free
    cases among

end Counting

def Unasked (count : Nat) (past : List Event) (manager : SlotManager) : Prop :=
  manager.heaps.length = count ∧ ∀ call outcome, Event.asked call outcome ∉ past

theorem unasked_start : Unasked manager.heaps.length [] manager :=
  ⟨rfl, fun _ _ => List.not_mem_nil⟩

theorem note_unasked {count : Nat} (note : Note) :
    Action.Retains (Unasked count) (Action.note note) := by
  rintro past manager ⟨as_many, unasked⟩
  refine ⟨as_many, fun call outcome among => ?_⟩
  cases List.mem_append.mp among with
  | inl before => exact unasked call outcome before
  | inr told => cases List.mem_singleton.mp told

theorem free_unasked {count : Nat} (handle : Handle) (index : Nat) :
    Action.Retains (Unasked count) (free handle index) := by
  apply Action.retains_look
  intro manager
  split
  · exact note_unasked _
  apply Action.retains_bind (Action.meets_checked _)
  intro stop
  split
  · exact note_unasked _
  split
  · exact note_unasked _
  · refine Action.meets_before Action.meets_modify ?_
    rintro past now ⟨as_many, unasked⟩
    exact ⟨List.length_set.trans as_many, unasked⟩

end SlotManager

namespace SlotClient

variable {δ : Type} {kind : Kind} {slots stride peak : Nat} {live : List (Handle × Nat)}
  {client after : SlotClient δ} {events : List Event}

theorem give_unasked (handle : Handle) (index : Nat) (client : SlotClient δ) :
    SlotManager.Unasked client.manager.heaps.length (give handle index client).events
      (give handle index client).state.manager :=
  (SlotManager.free_unasked handle index).run SlotManager.unasked_start

variable [Device δ] {device : δ}

-- The calls that returned, with the most slots that were held after any of them.
inductive Peaked (device : δ) (kind : Kind) (slots : Nat) :
    Nat → List (Handle × Nat) → SlotClient δ → Prop where
  | opened : Peaked device kind slots 0 [] (.opened device kind slots)
  | step {peak : Nat} {live : List (Handle × Nat)} {client after : SlotClient δ}
      {answer : Except Error SlotAnswer} {events : List Event} (step : SlotStep δ) :
      Peaked device kind slots peak live client →
      step.run.attempt client = ⟨.ok answer, after, events⟩ →
      Peaked device kind slots (max peak (step.live answer live).length) (step.live answer live) after

theorem Peaked.ran (path : Peaked device kind slots peak live client) :
    Ran device kind slots live client := by
  induction path with
  | opened => exact .opened
  | step step _ ran before => exact before.step step ran

theorem step_unasked (accounts : client.manager.Accounts stride slots live) (step : SlotStep δ) :
    SlotManager.Unasked client.manager.heaps.length (step.run client).events
        (step.run client).state.manager ∨
      step = .allocate ∧ client.manager.ready = [] := by
  have quiet : SlotManager.Unasked client.manager.heaps.length [] client.manager :=
    SlotManager.unasked_start
  cases step with
  | allocate =>
    by_cases none_ready : client.manager.ready = []
    · exact .inr ⟨rfl, none_ready⟩
    obtain ⟨handle, index, manager, did, -, -, as_many⟩ :=
      SlotManager.allocate_ready accounts client.machine none_ready
    left
    simpa [SlotStep.run, managerOf, did] using ⟨as_many, fun _ _ => List.not_mem_nil⟩
  | free place keep =>
    left
    cases picked : Held.pick? client.held place keep with
    | none => simpa [SlotStep.run, picked] using quiet
    | some choice =>
      obtain ⟨⟨handle, index⟩, held⟩ := choice
      have gave := give_unasked handle index { client with held }
      rcases did : give handle index { client with held } with ⟨result, after, events⟩
      rw [did] at gave
      cases result <;> simpa [SlotStep.run, picked, did] using gave
  | freeHandle handle index =>
    left
    have gave := give_unasked handle index client
    rcases did : give handle index client with ⟨result, after, events⟩
    rw [did] at gave
    cases result <;> simpa [SlotStep.run, did] using gave
  | device change =>
    left
    simpa [SlotStep.run] using quiet

theorem allocate_stopped (accounts : client.manager.Accounts stride slots live) {stop : Stop}
    (ran : SlotStep.allocate.run client = ⟨.error stop, after, events⟩) :
    after.manager = client.manager ∧ after.held = client.held ∧
      ∀ fault, stop = .fault fault →
        SlotManager.Overflows stride slots client.manager.desc client.machine := by
  rcases allocate_step accounts with ⟨error, machine, told, did⟩ |
    ⟨machine, told, overflows, did⟩ | ⟨handle, index, taken, told, did, -⟩ <;>
    rw [did] at ran <;> cases ran
  · exact ⟨rfl, rfl, nofun⟩
  · exact ⟨rfl, rfl, fun _ _ => overflows⟩

theorem allocate_grows (accounts : client.manager.Accounts stride slots live)
    (none_ready : client.manager.ready = []) {answer : Except Error SlotAnswer}
    (ran : SlotStep.allocate.run.attempt client = ⟨.ok answer, after, events⟩) :
    (after.manager = client.manager ∧ SlotStep.live (δ := δ) .allocate answer live = live) ∨
      after.manager.heaps.length = client.manager.heaps.length + 1 ∧
        (SlotStep.live (δ := δ) .allocate answer live).length = live.length + 1 := by
  rw [Action.run_attempt] at ran
  rcases SlotManager.allocate_unready accounts client.machine none_ready with
    ⟨error, left, told, did⟩ | ⟨left, told, -, did⟩ |
    ⟨handle, index, manager, left, told, did, -, -, one_more⟩
  · simp [SlotStep.run, managerOf, did] at ran
    obtain ⟨rfl, rfl, -⟩ := ran
    exact .inl ⟨rfl, rfl⟩
  · simp [SlotStep.run, managerOf, did] at ran
  · simp [SlotStep.run, managerOf, did] at ran
    obtain ⟨rfl, rfl, -⟩ := ran
    exact .inr ⟨one_more, rfl⟩

theorem peaked_heaps (path : Peaked device kind slots peak live client) :
    peak ≤ client.manager.heaps.length * slots ∧
      client.manager.heaps.length * slots ≤ peak + (slots - 1) := by
  induction path with
  | opened => exact ⟨Nat.zero_le _, by simp [SlotClient.opened, SlotManager.ofDevice]⟩
  | @step peak live client after answer events step path ran ih =>
    obtain ⟨room, needed⟩ := ih
    have accounts := ran_accounts path.ran
    have counted := step_accounts accounts step ran
    have within := SlotManager.held_le counted
    have state : (step.run client).state = after := by
      have caught := Run.caught_state (step.run client)
      rw [← Action.run_attempt, ran] at caught
      exact caught.symm
    rcases step_unasked accounts step with ⟨as_many, -⟩ | ⟨rfl, none_ready⟩
    · rw [state] at as_many
      rw [as_many] at within ⊢
      omega
    rcases allocate_grows accounts none_ready ran with ⟨same, unheld⟩ | ⟨one_more, taken⟩
    · have before := SlotManager.held_le accounts
      rw [same, unheld]
      omega
    · have full := SlotManager.held_unready accounts none_ready
      have last : client.manager.heaps.length < after.manager.heaps.length := by omega
      have some_slot : 0 < slots := (counted.heaps _ _ (List.getElem?_eq_getElem last)).some_slot
      rw [one_more, taken, Nat.succ_mul]
      omega

theorem heaps_of_peak (path : Peaked device kind slots peak live client) :
    client.manager.heaps.length = (peak + slots - 1) / slots := by
  obtain ⟨room, needed⟩ := peaked_heaps path
  cases heaps : client.manager.heaps with
  | nil =>
    rw [heaps, List.length_nil, Nat.zero_mul] at room
    have none_held : peak = 0 := Nat.le_zero.mp room
    cases slots with
    | zero => simp [none_held]
    | succ fewer =>
      subst none_held
      exact (Nat.div_eq_of_lt (by omega)).symm
  | cons heap rest =>
    have some_slot : 0 < slots := ((ran_accounts path.ran).heaps 0 heap (by simp [heaps])).some_slot
    rw [← heaps]
    refine (Nat.div_eq_of_lt_le ?_ ?_).symm
    · omega
    · rw [Nat.succ_mul]
      omega

-- The manager has as many heaps as the most slots ever held at once take up, whatever was given back
-- in between. Only an allocation that finds all slots of all heaps held asks for one more; if it gets
-- none, all stays as it was, and it faults only where the addresses of the new heap leave the range.
-- The heaps with free slots are queued, each once and no other, so that an allocation, at its start
-- or after it has made a heap, never finds a full one there.
theorem heaps_for_peak (path : Peaked device kind slots peak live client) :
    let manager := client.manager
    let stride := Device.stride device kind
    manager.heaps.length = (peak + slots - 1) / slots ∧
    (∀ (step : SlotStep δ) call outcome, .asked call outcome ∈ (step.run client).events →
      ∀ index heap, manager.heaps[index]? = some heap →
        ∀ slot < slots, (heap.place stride slot, index) ∈ live) ∧
    (∀ stop after events, SlotStep.allocate.run client = ⟨.error stop, after, events⟩ →
      after.manager = manager ∧ after.held = client.held ∧
        ∀ fault, stop = .fault fault →
          SlotManager.Overflows stride slots manager.desc client.machine) ∧
    manager.ready.Nodup ∧
    (∀ index, index ∈ manager.ready ↔ ∃ heap, manager.heaps[index]? = some heap ∧
      ∃ slot < slots, (heap.place stride slot, index) ∉ live) ∧
    SlotManager.dropFull manager.heaps manager.ready = manager.ready ∧
    ∀ machine grown left events,
      (SlotManager.grow : Action (SlotManager × Machine δ) Unit) (manager, machine) =
        ⟨.ok (), (grown, left), events⟩ →
      SlotManager.dropFull grown.heaps grown.ready = grown.ready := by
  intro manager stride
  have accounts : manager.Accounts stride slots live := ran_accounts path.ran
  refine ⟨heaps_of_peak path, ?_, fun stop after events => allocate_stopped accounts,
    accounts.queued_once, fun index => ?_, accounts.dropFull, ?_⟩
  · intro step call outcome asked index heap found slot within
    rcases step_unasked accounts step with ⟨-, unasked⟩ | ⟨-, none_ready⟩
    · exact absurd asked (unasked call outcome)
    by_contra unheld
    exact (SlotManager.some_free_iff accounts found).mpr ⟨slot, within, unheld⟩
      (SlotManager.full_of_unready accounts none_ready found)
  · rw [accounts.queued]
    constructor
    · rintro ⟨heap, found, some_free⟩
      exact ⟨heap, found, (SlotManager.some_free_iff accounts found).mp some_free⟩
    · rintro ⟨heap, found, free_slot⟩
      exact ⟨heap, found, (SlotManager.some_free_iff accounts found).mpr free_slot⟩
  · intro machine grown left events ran
    rcases SlotManager.grow_run accounts machine with ⟨error, left', told, did⟩ |
      ⟨left', told, -, did⟩ | ⟨grown', left', told, did, grows, -⟩ <;>
      rw [did] at ran <;> cases ran
    exact grows.dropFull

-- Three slots of two heaps with two slots each were held; one of the first heap is given back, and
-- the next allocation takes it before it asks for a third heap.
theorem heaps_for_peak_three :
    ∃ (live : List (Handle × Nat)) (client : SlotClient Scripted),
      Peaked Scripted.standard .view 2 3 live client ∧ live.length = 3 ∧
      client.manager.heaps.length = (3 + 2 - 1) / 2 ∧ client.manager.ready.Nodup ∧
      SlotManager.dropFull client.manager.heaps client.manager.ready = client.manager.ready := by
  have path : Peaked Scripted.standard .view 2 0 [] (.opened Scripted.standard .view 2) := .opened
  replace path := ((path.step .allocate rfl).step .allocate rfl).step .allocate rfl
  replace path := (path.step (.free 0 false) rfl).step .allocate rfl
  obtain ⟨heaps, -, -, once, -, none_full, -⟩ := heaps_for_peak path
  exact ⟨_, _, path, by decide +kernel, heaps, once, none_full⟩

end SlotClient

end Reclaim
