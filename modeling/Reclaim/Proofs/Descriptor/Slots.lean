import Reclaim.Descriptor.Client
import Reclaim.Proofs.Device
import Reclaim.Proofs.Descriptor.Runs
import Mathlib.Algebra.Ring.Nat

namespace Reclaim

namespace SlotHeap

def place (heap : SlotHeap) (stride slot : Nat) : Nat := heap.object.cpuStart + slot * stride

-- What a heap of a manager shows, when `live` are all slots that are held: handle and heap number.
structure Accounts (heap : SlotHeap) (stride slots index : Nat) (live : List (Handle × Nat)) :
    Prop where
  some_slot : 0 < slots
  some_stride : 0 < stride
  fits : heap.place stride slots < Word.limit
  listed : ∃ runs, heap.free = runs.map (Range.along (heap.place stride)) ∧
    Range.Decomposes (fun slot => (heap.place stride slot, index) ∉ live) slots runs ∧
    Range.total runs + live.countP (·.2 = index) = slots

variable {heap : SlotHeap} {stride slots index : Nat} {live others : List (Handle × Nat)}

theorem place_rising (heap : SlotHeap) (some_stride : 0 < stride) :
    StrictMono (heap.place stride) :=
  fun _ _ less => Nat.add_lt_add_left (Nat.mul_lt_mul_of_pos_right less some_stride) _

theorem place_succ (heap : SlotHeap) (stride slot : Nat) :
    heap.place stride slot + stride = heap.place stride (slot + 1) := by
  simp only [place, Nat.succ_mul, Nat.add_assoc]

theorem slot_of_handle {handle : Nat} (some_stride : 0 < stride)
    (from_start : heap.object.cpuStart ≤ handle)
    (before : handle + stride ≤ heap.object.cpuStart + slots * stride)
    (aligned : (handle - heap.object.cpuStart) % stride = 0) :
    ∃ slot < slots, handle = heap.place stride slot := by
  have split := Nat.div_add_mod' (handle - heap.object.cpuStart) stride
  rw [aligned, Nat.add_zero] at split
  refine ⟨(handle - heap.object.cpuStart) / stride, ?_, ?_⟩
  · refine Nat.lt_of_mul_lt_mul_right (a := stride) ?_
    omega
  · unfold place
    omega

theorem aligned_of_slot {slot : Nat} (heap : SlotHeap) (stride : Nat) (within : slot < slots) :
    heap.object.cpuStart ≤ heap.place stride slot ∧
      heap.place stride slot + stride ≤ heap.object.cpuStart + slots * stride ∧
      (heap.place stride slot - heap.object.cpuStart) % stride = 0 := by
  refine ⟨Nat.le_add_right _ _, ?_, ?_⟩
  · rw [place_succ]
    exact Nat.add_le_add_left (Nat.mul_le_mul_right _ within) _
  · simp [place]

theorem Accounts.perm (accounts : heap.Accounts stride slots index live)
    (same : live.Perm others) : heap.Accounts stride slots index others := by
  obtain ⟨runs, free, decomposes, counted⟩ := accounts.listed
  refine { accounts with listed := ⟨runs, free, decomposes.congr fun slot _ => ?_, ?_⟩ }
  · rw [same.mem_iff]
  · rw [← same.countP_eq]
    exact counted

theorem accounts_cons {slot : Handle × Nat} (elsewhere : slot.2 ≠ index) :
    heap.Accounts stride slots index (slot :: live) ↔ heap.Accounts stride slots index live := by
  have same (place : Nat) (handle : Handle) : (handle, index) ∉ slot :: live ↔ (handle, index) ∉ live := by
    rw [List.mem_cons, not_or]
    refine and_iff_right fun equal => elsewhere ?_
    rw [← equal]
  have count : (slot :: live).countP (·.2 = index) = live.countP (·.2 = index) :=
    List.countP_cons_of_neg (by simpa using elsewhere)
  constructor
  · intro accounts
    obtain ⟨runs, free, decomposes, counted⟩ := accounts.listed
    exact { accounts with
      listed := ⟨runs, free, decomposes.congr fun place _ => same place _, count ▸ counted⟩ }
  · intro accounts
    obtain ⟨runs, free, decomposes, counted⟩ := accounts.listed
    exact { accounts with
      listed := ⟨runs, free, decomposes.congr fun place _ => (same place _).symm, count ▸ counted⟩ }

theorem slotCount_along {runs : List Range} (some_stride : 0 < stride)
    (apart : Range.Apart runs) :
    Range.slotCount stride (runs.map (Range.along (heap.place stride))) = .ok (Range.total runs) := by
  have sizes : (runs.map (Range.along (heap.place stride))).mapM Range.bytes =
      .ok (runs.map fun run => (run.stop - run.start) * stride) := by
    induction runs with
    | nil => rfl
    | cons run rest ih =>
      obtain ⟨some_slot, -, others⟩ := Range.apart_cons.mp apart
      have le : heap.place stride run.start ≤ heap.place stride run.stop :=
        (heap.place_rising some_stride).monotone (Nat.le_of_lt some_slot)
      have first : Range.bytes (Range.along (heap.place stride) run) =
          .ok ((run.stop - run.start) * stride) := by
        unfold Range.bytes Range.along
        rw [Word.sub_ok le, Nat.sub_mul]
        simp only [place, Nat.add_sub_add_left]
      simp only [List.map_cons, List.mapM_cons, first, ih others]
      rfl
  unfold Range.slotCount
  rw [sizes]
  simp only [bind, Except.bind, Range.foldl_total, Nat.zero_add, Nat.mul_div_cancel _ some_stride]
  rfl

theorem Accounts.take {range : Range} {rest : List Range}
    (accounts : heap.Accounts stride slots index live) (shown : heap.free = range :: rest) :
    (∃ slot < slots, range.start = heap.place stride slot) ∧
      range.start + stride < Word.limit ∧ (range.start, index) ∉ live ∧
      let free := if range.start + stride = range.stop then rest
        else ⟨range.start + stride, range.stop⟩ :: rest
      ({ heap with free } : SlotHeap).Accounts stride slots index ((range.start, index) :: live) := by
  have rising := heap.place_rising accounts.some_stride
  obtain ⟨runs, free, decomposes, counted⟩ := accounts.listed
  cases runs with
  | nil => rw [shown] at free; cases free
  | cons run tail =>
    rw [shown, List.map_cons] at free
    obtain ⟨rfl, rfl⟩ := List.cons.inj free
    obtain ⟨within, is_free, fewer, decomposed⟩ := decomposes.take
    have next : heap.place stride run.start + stride = heap.place stride (run.start + 1) :=
      heap.place_succ stride run.start
    refine ⟨⟨run.start, within, rfl⟩, ?_, is_free, accounts.some_slot, accounts.some_stride,
      accounts.fits, _, ?_, decomposed.congr fun slot _ => ?_, ?_⟩
    · have last := rising.monotone (Nat.succ_le_of_lt within)
      have fits := accounts.fits
      simp only [Range.along, next]
      exact Nat.lt_of_le_of_lt last fits
    · simp only [Range.along, next, rising.injective.eq_iff]
      split <;> rfl
    · simp only [List.mem_cons, not_or, Prod.mk.injEq, and_true]
      exact and_congr_left' (not_congr rising.injective.eq_iff.symm)
    · rw [List.countP_cons_of_pos (by simp)]
      omega

theorem Accounts.giveBack_free {slot : Nat} (accounts : heap.Accounts stride slots index live)
    (within : slot < slots) (unheld : (heap.place stride slot, index) ∉ live) :
    Range.giveBack (heap.place stride slot) (heap.place stride (slot + 1)) heap.free = none := by
  obtain ⟨runs, free, decomposes, -⟩ := accounts.listed
  rw [free, Range.giveBack_along (heap.place_rising accounts.some_stride),
    decomposes.giveBack_free within unheld, Option.map_none]

theorem Accounts.giveBack_held {slot : Nat} (accounts : heap.Accounts stride slots index live)
    (within : slot < slots) (distinct : live.Nodup)
    (held : live.Perm ((heap.place stride slot, index) :: others)) :
    ∃ free,
      Range.giveBack (heap.place stride slot) (heap.place stride (slot + 1)) heap.free = some free ∧
        free ≠ [] ∧ ({ heap with free } : SlotHeap).Accounts stride slots index others := by
  have rising := heap.place_rising accounts.some_stride
  obtain ⟨runs, free, decomposes, counted⟩ := accounts.listed
  have present : (heap.place stride slot, index) ∈ live := held.mem_iff.mpr (by simp)
  obtain ⟨absent, -⟩ := List.nodup_cons.mp (held.nodup_iff.mp distinct)
  obtain ⟨after, given, more, decomposed⟩ :=
    decomposes.giveBack_taken within (not_not_intro present)
  have count := held.countP_eq (·.2 = index)
  rw [List.countP_cons_of_pos (by simp)] at count
  refine ⟨after.map (Range.along (heap.place stride)), ?_, ?_, accounts.some_slot,
    accounts.some_stride, accounts.fits, after, rfl, decomposed.congr fun other _ => ?_, by omega⟩
  · rw [free, Range.giveBack_along rising, given, Option.map_some]
  · intro empty
    rw [List.map_eq_nil_iff] at empty
    subst empty
    simp [Range.total] at more
  · change _ ↔ (heap.place stride other, index) ∉ others
    rw [held.mem_iff, List.mem_cons, not_or]
    by_cases same : other = slot
    · subst same
      exact iff_of_true (.inl rfl) absent
    · have apart : (heap.place stride other, index) ≠ (heap.place stride slot, index) :=
        fun equal => same (rising.injective (congrArg Prod.fst equal))
      simp [same, apart]

end SlotHeap

namespace SlotManager

variable {δ : Type} {manager : SlotManager} {stride slots index : Nat} {heap : SlotHeap}
  {live others : List (Handle × Nat)}

-- The slots that are held are slots of the heaps, each of them once; every heap shows the others as
-- free, and the heaps that have any are queued, each once.
structure Accounts (stride slots : Nat) (manager : SlotManager) (live : List (Handle × Nat)) :
    Prop where
  same_stride : manager.stride = stride
  same_slots : manager.desc.slots = slots
  distinct : live.Nodup
  inside : ∀ handle index, (handle, index) ∈ live →
    ∃ heap, manager.heaps[index]? = some heap ∧ ∃ slot < slots, handle = heap.place stride slot
  heaps : ∀ index (heap : SlotHeap), manager.heaps[index]? = some heap →
    heap.Accounts stride slots index live
  queued_once : manager.ready.Nodup
  queued : ∀ index, index ∈ manager.ready ↔
    ∃ heap, manager.heaps[index]? = some heap ∧ heap.free ≠ []

theorem ofDevice_accounts [Device δ] (device : δ) (kind : Kind) (slotsPerHeap : Nat) :
    Accounts (Device.stride device kind) slotsPerHeap (ofDevice device kind slotsPerHeap) [] where
  same_stride := rfl
  same_slots := rfl
  distinct := .nil
  inside := by simp
  heaps := by simp [ofDevice]
  queued_once := .nil
  queued := by simp [ofDevice]

theorem Accounts.set {after : SlotHeap} {ready : List Nat}
    (accounts : manager.Accounts stride slots live) (found : manager.heaps[index]? = some heap)
    (object : after.object = heap.object) (here : after.Accounts stride slots index others)
    (elsewhere : ∀ index' (shown : SlotHeap), index' ≠ index →
      shown.Accounts stride slots index' live → shown.Accounts stride slots index' others)
    (distinct : others.Nodup)
    (inside : ∀ slot ∈ others, slot ∈ live ∨ ∃ at_ < slots, slot = (heap.place stride at_, index))
    (queued_once : ready.Nodup)
    (queued : ∀ index', index' ∈ ready ↔
      if index' = index then after.free ≠ [] else index' ∈ manager.ready) :
    Accounts stride slots { manager with heaps := manager.heaps.set index after, ready } others := by
  have length : index < manager.heaps.length := (List.getElem?_eq_some_iff.mp found).1
  have at_index : (manager.heaps.set index after)[index]? = some after := by simp [length]
  have at_other {other : Nat} (differ : other ≠ index) :
      (manager.heaps.set index after)[other]? = manager.heaps[other]? :=
    List.getElem?_set_ne (Ne.symm differ)
  refine
    { accounts with
      distinct, queued_once
      inside := fun handle other held => ?_
      heaps := fun other shown there => ?_
      queued := fun other => ?_ }
  · have same : after.place stride = heap.place stride := by
      unfold SlotHeap.place
      rw [object]
    have placed : ∃ heap, manager.heaps[other]? = some heap ∧
        ∃ slot < slots, handle = heap.place stride slot := by
      rcases inside _ held with before | ⟨slot, within, equal⟩
      · exact accounts.inside handle other before
      · cases equal
        exact ⟨heap, found, slot, within, rfl⟩
    obtain ⟨shown, there, slot, within, rfl⟩ := placed
    by_cases differ : other = index
    · subst differ
      rw [found] at there
      cases there
      exact ⟨after, at_index, slot, within, by rw [same]⟩
    · exact ⟨shown, (at_other differ).trans there, slot, within, rfl⟩
  · by_cases differ : other = index
    · subst differ
      rw [at_index] at there
      cases there
      exact here
    · rw [at_other differ] at there
      exact elsewhere other shown differ (accounts.heaps other shown there)
  · rw [queued]
    by_cases differ : other = index
    · subst differ
      simp [at_index]
    · simp only [if_neg differ, at_other differ]
      exact accounts.queued other

theorem Accounts.dropFull (accounts : manager.Accounts stride slots live) :
    SlotManager.dropFull manager.heaps manager.ready = manager.ready := by
  cases queue : manager.ready with
  | nil => rfl
  | cons index waiting =>
    obtain ⟨heap, found, some_free⟩ := (accounts.queued index).mp (by simp [queue])
    have shown : heap.free.isEmpty = false := by simpa using some_free
    simp [SlotManager.dropFull, found, shown]

theorem takeFront_run (accounts : manager.Accounts stride slots live)
    (some_ready : manager.ready ≠ []) :
    ∃ handle index after, takeFront manager = ⟨.ok (handle, index), after, []⟩ ∧
      (handle, index) ∉ live ∧ after.Accounts stride slots ((handle, index) :: live) ∧
      after.heaps.length = manager.heaps.length := by
  cases queue : manager.ready with
  | nil => exact absurd queue some_ready
  | cons index waiting =>
    obtain ⟨heap, found, some_free⟩ := (accounts.queued index).mp (by simp [queue])
    have queued_once := accounts.queued_once
    rw [queue] at queued_once
    obtain ⟨unqueued, waiting_once⟩ := List.nodup_cons.mp queued_once
    cases shown : heap.free with
    | nil => exact absurd shown some_free
    | cons range rest =>
      obtain ⟨⟨slot, within, place⟩, fits, unheld, taken⟩ :=
        (accounts.heaps index heap found).take shown
      let free := if range.start + stride = range.stop then rest
        else ⟨range.start + stride, range.stop⟩ :: rest
      let ready := if free.isEmpty then waiting else index :: waiting
      let after : SlotManager :=
        { manager with heaps := manager.heaps.set index { heap with free }, ready }
      have ran : takeFront manager = ⟨.ok (range.start, index), after, []⟩ := by
        simp [takeFront, queue, found, shown, accounts.same_stride, Word.add_ok fits, after, ready,
          free]
      have queued (other : Nat) :
          other ∈ ready ↔ if other = index then free ≠ [] else other ∈ manager.ready := by
        by_cases empty : free = []
        · have : ready = waiting := by simp [ready, empty]
          rw [this, queue]
          grind
        · have : ready = index :: waiting := by simp [ready, empty]
          rw [this, queue]
          grind
      have ready_once : ready.Nodup := by
        simp only [ready]
        split
        · exact waiting_once
        · exact queued_once
      refine ⟨range.start, index, after, ran, unheld, accounts.set found rfl taken ?_
        (List.nodup_cons.mpr ⟨unheld, accounts.distinct⟩) ?_ ready_once queued, List.length_set⟩
      · intro other shown differ before
        exact (SlotHeap.accounts_cons (Ne.symm differ)).mpr before
      · intro held among
        rcases List.mem_cons.mp among with rfl | among
        · exact .inr ⟨slot, within, by rw [place]⟩
        · exact .inl among

section Freeing

variable {handle : Nat} {slot : Nat}

theorem free_unknown (unknown : manager.heaps[index]? = none) :
    free handle index manager = ⟨.ok (), manager, [.noted (.slotHeapUnknown index)]⟩ := by
  simp [free, unknown]

theorem free_far (found : manager.heaps[index]? = some heap)
    (far : Word.limit ≤ handle + manager.stride) :
    free handle index manager = ⟨.error (.fault .overflow), manager, []⟩ := by
  simp [free, found, Word.add_overflow far]

theorem Accounts.held_aligned (accounts : manager.Accounts stride slots live)
    (found : manager.heaps[index]? = some heap) (held : (handle, index) ∈ live) :
    heap.object.cpuStart ≤ handle ∧ handle + stride ≤ heap.object.cpuStart + slots * stride ∧
      (handle - heap.object.cpuStart) % stride = 0 := by
  obtain ⟨other, there, slot, within, rfl⟩ := accounts.inside handle index held
  rw [found] at there
  cases there
  exact heap.aligned_of_slot stride within

theorem free_foreign (found : manager.heaps[index]? = some heap)
    (near : handle + manager.stride < Word.limit)
    (foreign : handle < heap.object.cpuStart ∨
      heap.object.cpuStart + manager.bytesPerHeap < handle + manager.stride ∨
      (handle - heap.object.cpuStart) % manager.stride ≠ 0) :
    free handle index manager = ⟨.ok (), manager, [.noted (.slotForeign handle index)]⟩ := by
  simp only [free, Action.run_bind, Action.run_get, Run.andThen_ok, found, Word.add_ok near,
    Action.run_lift_ok, Action.run_ite, if_pos foreign, Action.run_note]
  rfl

theorem free_slot (accounts : manager.Accounts stride slots live)
    (found : manager.heaps[index]? = some heap) (within : slot < slots) :
    free (heap.place stride slot) index manager =
      match Range.giveBack (heap.place stride slot) (heap.place stride (slot + 1)) heap.free with
      | none => ⟨.ok (), manager, [.noted (.slotFreedTwice (heap.place stride slot))]⟩
      | some ranges => ⟨.ok (),
          { manager with
            heaps := manager.heaps.set index { heap with free := ranges }
            ready := if heap.free.isEmpty then manager.ready ++ [index] else manager.ready }, []⟩ := by
  have shown := accounts.heaps index heap found
  have near : Word.add (heap.place stride slot) manager.stride =
      .ok (heap.place stride (slot + 1)) := by
    have last : heap.place stride (slot + 1) ≤ heap.place stride slots :=
      (heap.place_rising shown.some_stride).monotone within
    have fits := shown.fits
    have succ := heap.place_succ stride slot
    rw [accounts.same_stride, Word.add_ok (by omega), succ]
  have own : ¬ (heap.place stride slot < heap.object.cpuStart ∨
      heap.object.cpuStart + manager.bytesPerHeap < heap.place stride (slot + 1) ∨
      (heap.place stride slot - heap.object.cpuStart) % manager.stride ≠ 0) := by
    obtain ⟨from_start, before, aligned⟩ := heap.aligned_of_slot stride within
    rw [heap.place_succ] at before
    rw [bytesPerHeap, accounts.same_slots, accounts.same_stride]
    omega
  simp only [free, Action.run_bind, Action.run_get, Run.andThen_ok, found, near,
    Action.run_lift_ok, Action.run_ite, if_neg own]
  cases Range.giveBack (heap.place stride slot) (heap.place stride (slot + 1)) heap.free with
  | none => rfl
  | some ranges => rfl

theorem giveBack_accounts {ranges : List Range} {ready : List Nat}
    (accounts : manager.Accounts stride slots live) (found : manager.heaps[index]? = some heap)
    (held : live.Perm ((handle, index) :: others))
    (after : ({ heap with free := ranges } : SlotHeap).Accounts stride slots index others)
    (some_free : ranges ≠ [])
    (queue : ready = if heap.free.isEmpty then manager.ready ++ [index] else manager.ready) :
    Accounts stride slots
      { manager with heaps := manager.heaps.set index { heap with free := ranges }, ready }
      others := by
  obtain ⟨-, distinct⟩ := List.nodup_cons.mp (held.nodup_iff.mp accounts.distinct)
  have here : index ∈ manager.ready ↔ heap.free ≠ [] := by
    rw [accounts.queued, found]
    simp
  refine accounts.set found rfl after ?_ distinct ?_ ?_ ?_
  · intro other shown differ before
    exact (SlotHeap.accounts_cons (Ne.symm differ)).mp (before.perm held)
  · intro one among
    exact .inl (held.mem_iff.mpr (List.mem_cons_of_mem _ among))
  · have once := accounts.queued_once
    rw [queue]
    split
    · rename_i full
      have absent : index ∉ manager.ready := fun among => here.mp among (by simpa using full)
      exact List.nodup_append.mpr ⟨once, by simp, by grind⟩
    · exact once
  · intro other
    rw [queue]
    by_cases full : heap.free = []
    · grind
    · grind

-- The heap is known, and a slot that starts at the handle would end beyond the last address.
def Far (manager : SlotManager) (stride handle index : Nat) : Prop :=
  manager.heaps[index]? ≠ none ∧ Word.limit ≤ handle + stride

theorem free_run (accounts : manager.Accounts stride slots live) (handle : Nat) (index : Nat) :
    (manager.Far stride handle index ∧
      free handle index manager = ⟨.error (.fault .overflow), manager, []⟩) ∨
    ∃ after events, ¬ manager.Far stride handle index ∧
      free handle index manager = ⟨.ok (), after, events⟩ ∧
      after.Accounts stride slots (live.erase (handle, index)) ∧
      ((handle, index) ∉ live → after = manager ∧ ∃ note, events = [.noted note]) := by
  have strange (unheld : (handle, index) ∉ live) :
      manager.Accounts stride slots (live.erase (handle, index)) := by
    rw [List.erase_of_not_mem unheld]
    exact accounts
  cases found : manager.heaps[index]? with
  | none =>
    have unheld : (handle, index) ∉ live := by
      intro held
      obtain ⟨heap, there, -⟩ := accounts.inside handle index held
      rw [found] at there
      cases there
    exact .inr ⟨manager, _, fun far => far.1 found, free_unknown found, strange unheld,
      fun _ => ⟨rfl, _, rfl⟩⟩
  | some heap =>
    have shown := accounts.heaps index heap found
    have same := accounts.same_stride
    have bytes : manager.bytesPerHeap = slots * stride := by
      rw [bytesPerHeap, accounts.same_slots, same]
    by_cases far : Word.limit ≤ handle + stride
    · exact .inl ⟨⟨by simp [found], far⟩, free_far found (by rw [same]; exact far)⟩
    have near : ¬ manager.Far stride handle index := fun beyond => far beyond.2
    by_cases foreign : handle < heap.object.cpuStart ∨
        heap.object.cpuStart + slots * stride < handle + stride ∨
        (handle - heap.object.cpuStart) % stride ≠ 0
    · have unheld : (handle, index) ∉ live := by
        intro held
        obtain ⟨from_start, before, aligned⟩ := accounts.held_aligned found held
        omega
      refine .inr ⟨manager, _, near, free_foreign found ?_ ?_, strange unheld,
        fun _ => ⟨rfl, _, rfl⟩⟩
      · rw [same]
        exact Nat.not_le.mp far
      · rw [bytes, same]
        exact foreign
    obtain ⟨slot, within, rfl⟩ : ∃ slot < slots, handle = heap.place stride slot :=
      SlotHeap.slot_of_handle shown.some_stride (by omega) (by omega) (by omega)
    have ran := free_slot accounts found within
    by_cases held : (heap.place stride slot, index) ∈ live
    · have perm := List.perm_cons_erase held
      obtain ⟨ranges, given, some_free, after⟩ := shown.giveBack_held within accounts.distinct perm
      rw [given] at ran
      exact .inr ⟨_, _, near, ran, giveBack_accounts accounts found perm after some_free rfl,
        fun unheld => absurd held unheld⟩
    · rw [shown.giveBack_free within held] at ran
      exact .inr ⟨manager, _, near, ran, strange held, fun _ => ⟨rfl, _, rfl⟩⟩

end Freeing

section Allocating

theorem whole_accounts {object : HeapObject} (some_slot : 0 < slots) (some_stride : 0 < stride)
    (fits : object.cpuStart + slots * stride < Word.limit)
    (unheld : ∀ handle, (handle, index) ∉ live) :
    (⟨object, [⟨object.cpuStart, object.cpuStart + slots * stride⟩]⟩ : SlotHeap).Accounts
      stride slots index live := by
  refine ⟨some_slot, some_stride, fits, [⟨0, slots⟩], by simp [Range.along, SlotHeap.place],
    (Range.decomposes_whole some_slot).congr fun slot _ => ?_, ?_⟩
  · exact iff_of_true trivial (unheld _)
  · have nothing : live.countP (·.2 = index) = 0 := by
      rw [List.countP_eq_zero]
      rintro ⟨handle, other⟩ held here
      obtain rfl : other = index := by simpa using here
      exact unheld handle held
    simp [nothing, Range.total]

theorem Accounts.grown {object : HeapObject} (accounts : manager.Accounts stride slots live)
    (some_slot : 0 < slots) (some_stride : 0 < stride)
    (fits : object.cpuStart + slots * stride < Word.limit) :
    Accounts stride slots
      { manager with
        heaps := manager.heaps ++
          [⟨object, [⟨object.cpuStart, object.cpuStart + slots * stride⟩]⟩]
        ready := manager.ready ++ [manager.heaps.length] } live := by
  let made : SlotHeap := ⟨object, [⟨object.cpuStart, object.cpuStart + slots * stride⟩]⟩
  have earlier {index : Nat} {heap : SlotHeap} (found : manager.heaps[index]? = some heap) :
      index < manager.heaps.length := (List.getElem?_eq_some_iff.mp found).1
  have kept {index : Nat} (within : index < manager.heaps.length) :
      (manager.heaps ++ [made])[index]? = manager.heaps[index]? :=
    List.getElem?_append_left within
  have last : (manager.heaps ++ [made])[manager.heaps.length]? = some made := by simp
  have unheld (handle : Handle) : (handle, manager.heaps.length) ∉ live := by
    intro held
    obtain ⟨heap, found, -⟩ := accounts.inside handle _ held
    exact Nat.lt_irrefl _ (earlier found)
  have unqueued : manager.heaps.length ∉ manager.ready := by
    intro among
    obtain ⟨heap, found, -⟩ := (accounts.queued _).mp among
    exact Nat.lt_irrefl _ (earlier found)
  refine
    { accounts with
      inside := fun handle index held => ?_
      heaps := fun index heap found => ?_
      queued_once := List.nodup_append.mpr ⟨accounts.queued_once, by simp, by grind⟩
      queued := fun index => ?_ }
  · obtain ⟨heap, found, placed⟩ := accounts.inside handle index held
    exact ⟨heap, (kept (earlier found)).trans found, placed⟩
  · by_cases within : index < manager.heaps.length
    · rw [kept within] at found
      exact accounts.heaps index heap found
    · have length := (List.getElem?_eq_some_iff.mp found).1
      obtain rfl : index = manager.heaps.length := by
        simp only [List.length_append, List.length_singleton] at length
        omega
      rw [last] at found
      cases found
      exact whole_accounts some_slot some_stride fits unheld
  · rw [List.mem_append, accounts.queued, List.mem_singleton]
    by_cases within : index < manager.heaps.length
    · rw [kept within]
      simp [Nat.ne_of_lt within]
    · by_cases same : index = manager.heaps.length
      · subst same
        simp
      · have beyond : (manager.heaps ++ [made])[index]? = none := by
          rw [List.getElem?_eq_none_iff, List.length_append, List.length_singleton]
          omega
        have before : manager.heaps[index]? = none := by
          rw [List.getElem?_eq_none_iff]
          omega
        rw [beyond, before]
        simp [same]

variable [Device δ]

-- The address range of the heap the machine has just made ends where addresses end, or later.
def Overflows (stride slots : Nat) (desc : HeapDesc) (machine : Machine δ) : Prop :=
  ∃ object left events, Machine.createHeap desc machine = ⟨.ok object, left, events⟩ ∧
    Word.limit ≤ object.cpuStart + slots * stride

theorem grow_run (accounts : manager.Accounts stride slots live) (machine : Machine δ) :
    (∃ error left events,
      grow (manager, machine) = ⟨.error (.error error), (manager, left), events⟩) ∨
    (∃ left events, Overflows stride slots manager.desc machine ∧
      grow (manager, machine) = ⟨.error (.fault .overflow), (manager, left), events⟩) ∨
    ∃ after left events, grow (manager, machine) = ⟨.ok (), (after, left), events⟩ ∧
      after.Accounts stride slots live ∧ after.ready ≠ [] ∧
      after.heaps.length = manager.heaps.length + 1 := by
  by_cases unlaid : manager.desc.slots = 0 ∨ manager.stride = 0
  · let told : Event := .noted (.slotsUnlaid manager.desc.slots manager.desc.kind manager.stride)
    refine .inl ⟨.invalidParameter, machine, [told], ?_⟩
    simp only [grow, Action.run_bind, Action.run_get, Run.andThen_ok, Action.run_ite, if_pos unlaid,
      Action.run_note, Action.run_refuse]
    rfl
  have bytes : manager.bytesPerHeap = slots * stride := by
    rw [bytesPerHeap, accounts.same_slots, accounts.same_stride]
  rw [accounts.same_slots, accounts.same_stride] at unlaid
  rcases created : Machine.createHeap manager.desc machine with ⟨result, left, events⟩
  cases result with
  | error stop =>
    cases stop with
    | error error =>
      refine .inl ⟨error, left, events, ?_⟩
      simp [grow, accounts.same_slots, accounts.same_stride, unlaid, machineOf, Part.second, created]
    | fault fault =>
      -- the device makes a heap or refuses
      rcases Machine.createHeap_run manager.desc machine with ⟨error, device, ran⟩ |
        ⟨cpuStart, gpuStart, device, outcome, -, ran⟩
      · rw [ran] at created
        cases created
      · rw [ran] at created
        cases created
  | ok object =>
    by_cases fits : object.cpuStart + slots * stride < Word.limit
    · let told : Event :=
        .noted (.slotHeapCreated manager.desc.kind manager.heaps.length manager.desc.slots)
      refine .inr (.inr ⟨_, left, events ++ [told], ?_,
        accounts.grown (by omega) (by omega) fits, by simp, List.length_append⟩)
      simp [grow, accounts.same_slots, accounts.same_stride, unlaid, machineOf, managerOf,
        Part.second, Part.first, created, bytes, Word.add_ok fits, told]
    · refine .inr (.inl ⟨left, events, ⟨object, left, events, created, by omega⟩, ?_⟩)
      simp [grow, accounts.same_slots, accounts.same_stride, unlaid, machineOf, Part.second, created,
        bytes, Word.add_overflow (Nat.not_lt.mp fits)]

theorem allocate_start (accounts : manager.Accounts stride slots live) (machine : Machine δ) :
    allocate (manager, machine) =
      if manager.ready.isEmpty then
        (grow (manager, machine)).andThen fun _ => Action.on managerOf takeFront
      else Action.on managerOf takeFront (manager, machine) := by
  simp [allocate, managerOf, Part.first, accounts.dropFull]

theorem allocate_ready (accounts : manager.Accounts stride slots live) (machine : Machine δ)
    (some_ready : manager.ready ≠ []) :
    ∃ handle index after,
      allocate (manager, machine) = ⟨.ok (handle, index), (after, machine), []⟩ ∧
      (handle, index) ∉ live ∧ after.Accounts stride slots ((handle, index) :: live) ∧
      after.heaps.length = manager.heaps.length := by
  obtain ⟨handle, index, after, ran, unheld, taken, as_many⟩ := takeFront_run accounts some_ready
  refine ⟨handle, index, after, ?_, unheld, taken, as_many⟩
  simp [allocate_start accounts, some_ready, managerOf, Part.first, ran]

theorem allocate_unready (accounts : manager.Accounts stride slots live) (machine : Machine δ)
    (none_ready : manager.ready = []) :
    (∃ error left events,
      allocate (manager, machine) = ⟨.error (.error error), (manager, left), events⟩) ∨
    (∃ left events, Overflows stride slots manager.desc machine ∧
      allocate (manager, machine) = ⟨.error (.fault .overflow), (manager, left), events⟩) ∨
    ∃ handle index after left events,
      allocate (manager, machine) = ⟨.ok (handle, index), (after, left), events⟩ ∧
      (handle, index) ∉ live ∧ after.Accounts stride slots ((handle, index) :: live) ∧
      after.heaps.length = manager.heaps.length + 1 := by
  have start := allocate_start accounts machine
  rw [none_ready, List.isEmpty_nil, if_pos rfl] at start
  rcases grow_run accounts machine with ⟨error, left, events, grew⟩ |
    ⟨left, events, overflows, grew⟩ | ⟨grown, left, events, grew, grows, some_ready, one_more⟩
  · exact .inl ⟨error, left, events, by rw [start, grew, Run.andThen_error]⟩
  · exact .inr (.inl ⟨left, events, overflows, by rw [start, grew, Run.andThen_error]⟩)
  · obtain ⟨handle, index, after, ran, unheld, taken, as_many⟩ := takeFront_run grows some_ready
    refine .inr (.inr ⟨handle, index, after, left, events, ?_, unheld, taken,
      as_many.trans one_more⟩)
    simp [start, grew, managerOf, Part.first, ran]

theorem allocate_run (accounts : manager.Accounts stride slots live) (machine : Machine δ) :
    (∃ error left events,
      allocate (manager, machine) = ⟨.error (.error error), (manager, left), events⟩) ∨
    (∃ left events, Overflows stride slots manager.desc machine ∧
      allocate (manager, machine) = ⟨.error (.fault .overflow), (manager, left), events⟩) ∨
    ∃ handle index after left events,
      allocate (manager, machine) = ⟨.ok (handle, index), (after, left), events⟩ ∧
      (handle, index) ∉ live ∧ after.Accounts stride slots ((handle, index) :: live) := by
  by_cases none_ready : manager.ready = []
  · rcases allocate_unready accounts machine none_ready with refused | overflows |
      ⟨handle, index, after, left, events, ran, unheld, taken, -⟩
    · exact .inl refused
    · exact .inr (.inl overflows)
    · exact .inr (.inr ⟨handle, index, after, left, events, ran, unheld, taken⟩)
  · obtain ⟨handle, index, after, ran, unheld, taken, -⟩ :=
      allocate_ready accounts machine none_ready
    exact .inr (.inr ⟨handle, index, after, machine, [], ran, unheld, taken⟩)

end Allocating

end SlotManager

end Reclaim
