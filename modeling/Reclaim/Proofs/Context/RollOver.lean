import Reclaim.Device.Scripted
import Reclaim.Proofs.Context.Binding
import Reclaim.Proofs.Context.Leases
import Reclaim.Proofs.Context.Soundness
import Reclaim.Proofs.Context.Waning

namespace Reclaim

variable {δ α β : Type}

def Event.isRoll (kind : Kind) (fence : Nat) : Event → Bool
  | .noted (.heapRolled rolled batch _) => rolled = kind && batch = fence
  | _ => false

def rolls (kind : Kind) (fence : Nat) (events : List Event) : Nat :=
  events.countP (Event.isRoll kind fence)

inductive HeapCall where
  | reserve (slots : Nat)
  | reclaim (completed : Nat)
  | trim (threshold completed : Nat)
  | close (queue : Queue)
  -- the parts of a reservation, for the states in the midst of one
  | probe (slots : Nat)
  | rollOver

open OnlineHeap in
def HeapCall.run [Device δ] : HeapCall → Action (OnlineHeap × Shared δ) Unit
  | reserve slots => do let _ ← OnlineHeap.reserve slots
  | reclaim completed => reclaimSlots completed
  | trim threshold completed => do let _ ← OnlineHeap.trim threshold completed
  | close queue => do let _ ← Action.on sharedOf (Shared.closeBatch queue)
  | probe slots => do
    let fence ← Action.on sharedOf (Shared.recordingFence .graphics)
    let _ ← Action.on ringOf (Ring.allocate slots fence)
  | rollOver => OnlineHeap.rollOver

namespace OnlineHeap

variable {limit fence : Nat} {kind : Kind} {config : OnlineConfig} {told : List Event}
  {rolled : Nat → Nat} {both : OnlineHeap × Shared δ} {heap : OnlineHeap} {object : HeapObject}
  {live : List Resource}

-- What has happened in a context until then, how often the heap was rolled over at its largest size
-- during each batch, and where the heap is now. Whatever else goes on in the context closes batches
-- and has heaps made.
inductive Lived [Device δ] (kind : Kind) (config : OnlineConfig) :
    List Event → (Nat → Nat) → OnlineHeap × Shared δ → Prop where
  | created {told : List Event} {shared : Shared δ} {heap : OnlineHeap}
      (counted : shared.machine.heapsMade = (madeHeaps told).length)
      (made : (create kind config shared).result = .ok heap) :
      Lived kind config (told ++ (create kind config shared).events) (fun _ => 0)
        (heap, (create kind config shared).state)
  | call {told : List Event} {rolled : Nat → Nat} {both : OnlineHeap × Shared δ}
      (path : Lived kind config told rolled both) (call : HeapCall)
      (returned : (call.run both).returned = true) :
      Lived kind config (told ++ (call.run both).events)
        (fun fence => rolled fence + rolls kind fence (call.run both).events) (call.run both).state
  | elsewhere {told : List Event} {rolled : Nat → Nat} {both : OnlineHeap × Shared δ}
      (path : Lived kind config told rolled both) {after : Shared δ} {events : List Event}
      (forward : both.2.recording.graphics ≤ after.recording.graphics)
      (counted : after.machine.heapsMade = both.2.machine.heapsMade + (madeHeaps events).length) :
      Lived kind config (told ++ events) rolled (both.1, after)

section Living

def Settled (both : OnlineHeap × Shared δ) : Prop :=
  both.1.Sound (both.2.recording.graphics + 1)

theorem settled_of_stands {x : Action (OnlineHeap × Shared δ) α}
    (preserves : ∀ recording : Fences,
      Action.Preserves (Stands (recording.graphics + 1) recording) x) :
    Action.Preserves Settled x := by
  intro both sound
  have settles (now : OnlineHeap × Shared δ)
      (stands : Stands (both.2.recording.graphics + 1) both.2.recording now) : Settled now := by
    unfold Settled
    rw [stands.2]
    exact stands.1
  exact (preserves both.2.recording both ⟨sound, rfl⟩).image id (fun _ => settles) settles

theorem preserves_ignoring {holds : OnlineHeap × Shared δ → Prop}
    {x : Action (OnlineHeap × Shared δ) α} (preserves : Action.Preserves holds x) :
    Action.Preserves holds (do let _ ← x) :=
  Action.returns_bind preserves fun _ => Action.returns_pure fun _ held => held

theorem closeBatch_settled (queue : Queue) :
    Action.Preserves Settled (Action.on (sharedOf (δ := δ)) (Shared.closeBatch queue)) := by
  refine Action.preserves_of_runs fun both sound => Sound.mono sound ?_
  cases queue with
  | graphics => exact Nat.le_succ _
  | compute | copy => exact Nat.le_refl _

variable [Device δ]

theorem call_settled (call : HeapCall) : Action.Preserves (Settled (δ := δ)) call.run := by
  cases call with
  | reserve slots =>
    exact preserves_ignoring (settled_of_stands fun _ => reserve_stands slots (Nat.lt_succ_self _))
  | reclaim completed => exact settled_of_stands fun _ => reclaimSlots_stands completed
  | trim threshold completed =>
    exact preserves_ignoring (settled_of_stands fun _ => trim_stands threshold completed)
  | close queue => exact preserves_ignoring (closeBatch_settled queue)
  | probe slots =>
    refine settled_of_stands fun recording => ?_
    have reads : Action.Returns (Stands (δ := δ) (recording.graphics + 1) recording)
        (Action.on sharedOf (Shared.recordingFence .graphics))
        (fun fence both => Stands (recording.graphics + 1) recording both ∧
          fence = recording.graphics) (Stands (recording.graphics + 1) recording) :=
      fun both stands => ⟨stands, congrArg (PerQueue.get · .graphics) stands.2⟩
    refine Action.returns_bind reads fun fence => ?_
    refine Action.returns_given (fun _ read => read.2) ?_
    rintro rfl
    refine Action.returns_before ?_ fun _ read => read.1
    exact preserves_ignoring (ring_stands fun _ => Ring.allocate_sound (Nat.lt_succ_self _))
  | rollOver => exact settled_of_stands fun _ => rollOver_stands

theorem lived_settled (path : Lived kind config told rolled both) : Settled both := by
  induction path with
  | created counted made => exact (create_sound _ kind config _ trivial).of_ok made
  | call path call returned ih => exact (call_settled call _ ih).of_returned returned
  | elsewhere path forward counted ih => exact ih.mono (Nat.succ_le_succ forward)

theorem create_machine (machine : Machine δ) (config : Config) (board : Board) :
    Action.Returns (fun _ : Unit => True) (Shared.create machine config board)
      (fun shared _ => shared.machine = machine) fun _ => True := by
  refine Action.returns_bind (Action.preserves_fact True _) fun upload => ?_
  refine Action.returns_bind (Action.preserves_fact True _) fun readback => ?_
  exact Action.returns_bind (Action.returns_note _) fun _ => Action.returns_pure fun _ _ => rfl

theorem opened_lived {device : δ} {whole : Config}
    (opens : opened? device whole kind config = some both) :
    ∃ told, Lived kind config told (fun _ => 0) both := by
  unfold opened? at opens
  split at opens
  · rename_i shared _ _ created
    have machine := (create_machine (.start device) whole ⟨[]⟩ () trivial).of_ok
      (congrArg Run.result created)
    split at opens
    · rename_i made
      cases opens
      have counted : shared.machine.heapsMade = (madeHeaps []).length := by
        rw [machine]
        rfl
      have path := Lived.created counted (congrArg Run.result made)
      rw [made] at path
      exact ⟨_, path⟩
    · cases opens
  · cases opens

theorem Lived.device (path : Lived kind config told rolled both) (change : δ → δ) :
    Lived kind config told rolled
      (both.1, { both.2 with machine.device := change both.2.machine.device }) := by
  let after : Shared δ := { both.2 with machine.device := change both.2.machine.device }
  have changed : Lived kind config (told ++ []) rolled (both.1, after) :=
    path.elsewhere (Nat.le_refl _) rfl
  rwa [List.append_nil] at changed

end Living

section Refusing

def Keeps (live : List Resource) (shared : Shared δ) : Prop := shared.machine.live.Sublist live

-- The object at hand is one that shaders can address, or the heap is as it was and the object is all
-- that has been made.
def Spare (heap : OnlineHeap) (live : List Resource) (object : HeapObject)
    (both : OnlineHeap × Shared δ) : Prop :=
  object.gpuStart ≠ none ∨ both.1 = heap ∧
    ∃ left, both.2.machine.live = .heap object.serial :: left ∧ left.Sublist live

theorem keeps_of_wanes {x : Action (Shared δ) α}
    (wanes : ∀ start, Action.Retains (Shared.Wanes start) x) :
    Action.Preserves (Keeps live) x := by
  refine Action.preserves_of_runs fun shared kept => ?_
  have after := (wanes shared.machine).run (Machine.Wanes.refl shared.machine)
  exact after.live.trans kept

theorem address_refused (object : HeapObject) :
    Action.Returns (Spare (δ := δ) heap live object) (Action.on sharedOf (gpuBaseOf object))
      (fun _ _ => True) (heap.Still (Keeps live)) := by
  unfold gpuBaseOf
  cases start : object.gpuStart with
  | some base => exact fun _ _ => trivial
  | none =>
    intro both spare
    obtain ⟨same, left, here, fewer⟩ := spare.resolve_left (absurd start)
    refine ⟨same, ?_⟩
    change (both.2.machine.live.erase (.heap object.serial)).Sublist live
    rw [here, List.erase_cons_head]
    exact fewer

theorem exchange_refused (fence : Nat) (object : HeapObject) :
    Action.Returns (Spare (δ := δ) heap live object) (exchange heap fence object)
      (fun _ _ => True) (heap.Still (Keeps live)) := by
  refine Action.returns_bind (address_refused object) fun base => Action.returns_firm ?_
  refine Action.firm_bind (Action.firm_on (Action.firm_modify _)) fun _ => ?_
  exact Action.firm_bind Action.firm_get fun _ => Action.firm_note _

variable [Device δ]

theorem make_spare (desc : HeapDesc) :
    Action.Returns (heap.Still (Keeps (δ := δ) live)) (Action.on sharedOf (Shared.createHeap desc))
      (Spare heap live) (heap.Still (Keeps live)) := by
  rintro ⟨now, shared⟩ ⟨rfl, kept⟩
  have makes := Shared.createHeap_makes desc [] shared (Machine.Wanes.refl _)
  rw [Action.run_on]
  change (⟨_, (now, _), _⟩ : Run _ _).Leaves _ _
  simp only [sharedOf, Part.second]
  rcases made : Shared.createHeap desc shared with ⟨result, after, events⟩
  rw [made] at makes
  cases result with
  | ok object =>
    obtain ⟨left, here, fewer⟩ := Shared.Makes.live makes
    exact .inr ⟨rfl, left, here, fewer.trans kept⟩
  | error stop =>
    cases stop with
    | error error => exact ⟨rfl, (Machine.Wanes.live makes).trans kept⟩
    | fault fault => trivial

theorem grow_refused (fence : Nat) :
    Action.Returns (heap.Still (Keeps (δ := δ) live)) (grow fence) (fun _ _ => True)
      (heap.Still (Keeps live)) := by
  refine returns_look fun both same => ?_
  rw [same]
  refine Action.returns_bind (make_spare _) fun object => ?_
  refine Action.returns_bind (address_refused object) fun base => Action.returns_firm ?_
  have retires : Action.Firm (Shared.retire (δ := δ) (.heap heap.object)
      (.single .graphics fence) true []) :=
    Action.firm_of_ok fun shared => ⟨(), Shared.retire_ends _ _ _ _ shared⟩
  refine Action.firm_bind (Action.firm_on retires) fun _ => ?_
  exact Action.firm_bind (Action.firm_on (Action.firm_modify _)) fun _ => Action.firm_note _

theorem retrieve_spare (sound : heap.Sound limit) (completed : Nat) (desc : HeapDesc) :
    Action.Returns (heap.Still (Keeps (δ := δ) live))
      (BoundedPool.retrieve parkedOf completed
        (fun fence => Action.on sharedOf (Shared.waitFor .graphics fence))
        (Action.on sharedOf (Shared.createHeap desc)))
      (Spare heap live) (heap.Still (Keeps live)) := by
  refine BoundedPool.retrieve_returns (fun _ still => congrArg OnlineHeap.parked still.same) ?_
    (make_spare desc) fun fence => ?_
  · intro reached item rest popped both still
    obtain ⟨entry, shape, -, rfl⟩ := FenceLine.pop?_some popped
    have parked : entry.item ∈ heap.objects := by
      simp [objects, shape]
    exact .inl (sound.addressed _ parked)
  · exact still_returns (keeps_of_wanes fun _ => Shared.waitFor_wanes .graphics fence)

theorem swap_refused (sound : heap.Sound limit) (fence : Nat) :
    Action.Returns (heap.Still (Keeps (δ := δ) live)) (swap fence) (fun _ _ => True)
      (heap.Still (Keeps live)) := by
  refine swap_returns (fun _ still => still.same) ?_ (make_spare heap.desc)
    (fun completed => retrieve_spare sound completed heap.desc) (exchange_refused fence)
  exact still_returns (keeps_of_wanes fun _ => Shared.completedFence_wanes .graphics)

theorem rollOver_unmoved (sound : heap.Sound limit) :
    Action.Returns (heap.Still (Keeps (δ := δ) live)) rollOver (fun _ _ => True)
      (heap.Still (Keeps live)) := by
  refine Action.returns_bind (still_returns (keeps_of_wanes fun _ =>
    Shared.recordingFence_wanes .graphics)) fun fence => returns_look fun both same => ?_
  dsimp only
  split
  · exact grow_refused fence
  · exact swap_refused sound fence

-- A roll-over that is refused leaves the heap as it was, in all its parts, and on the machine nothing
-- that was not there before.
theorem rollOver_refused (path : Lived kind config told rolled both) {error : Error}
    (refused : (rollOver both).result = .error (.error error)) :
    (rollOver both).state.1 = both.1 ∧
      (rollOver both).state.2.machine.live.Sublist both.2.machine.live := by
  have still := (rollOver_unmoved (lived_settled path) both ⟨rfl, .refl _⟩).of_error refused
  exact ⟨still.same, still.holds⟩

-- A heap is parked, and the one made for the next roll-over has no address.
theorem rollOver_refused_addressless :
    ∃ (told : List Event) (rolled : Nat → Nat) (both : OnlineHeap × Shared Scripted),
      Lived .view ⟨2, 2, 1, 4⟩ told rolled both ∧ both.1.parked.line.size = 1 ∧
      (rollOver both).result = .error (.error .invalidParameter) ∧
      .dropped (.heap 2) ∈ (rollOver both).events ∧ (rollOver both).state.1 = both.1 := by
  have opens := (Option.some_get (by decide +kernel :
    (opened? Scripted.standard .minimal .view ⟨2, 2, 1, 4⟩).isSome = true)).symm
  obtain ⟨told, path⟩ := opened_lived opens
  replace path := (path.call (.reserve 2) (by decide +kernel)).call (.reserve 2) (by decide +kernel)
  replace path := path.device (·.extend .heap [.withoutGpu])
  refine ⟨_, _, _, path, by decide +kernel, by decide +kernel, by decide +kernel,
    (rollOver_refused path (?_ : _ = Except.error (Stop.error .invalidParameter))).1⟩
  decide +kernel

end Refusing

end OnlineHeap

end Reclaim
