import Reclaim.Proofs.Device
import Reclaim.Proofs.Returns
import Mathlib.Data.List.Perm.Basic

namespace Reclaim.Machine

variable {δ : Type}

def Made (machine : Machine δ) : Resource → Prop
  | .heap serial => serial < machine.heapsMade
  | .memory serial => serial < machine.memoriesMade
  | .buffer id => id ≤ machine.buffersMade
  | .object _ => False

-- The list names everything that exists on the machine, once. `floor` buffers and more have been
-- made.
structure Owned (floor : Nat) (owned : List Resource) (machine : Machine δ) : Prop where
  exact : machine.live.Perm owned
  distinct : owned.Nodup
  made : ∀ resource ∈ owned, machine.Made resource
  floor : floor ≤ machine.buffersMade

variable {floor : Nat} {owned rest : List Resource} {resource : Resource}
  {machine after : Machine δ} {refused : Machine δ → Prop}

namespace Owned

theorem start (device : δ) : Owned 0 [] (Machine.start device) :=
  ⟨List.Perm.nil, List.nodup_nil, fun _ present => (List.not_mem_nil present).elim, Nat.zero_le _⟩

theorem perm (holds : machine.Owned floor owned) (same : owned.Perm rest) :
    machine.Owned floor rest where
  exact := holds.exact.trans same
  distinct := same.nodup_iff.mp holds.distinct
  made := fun resource present => holds.made resource (same.mem_iff.mpr present)
  floor := holds.floor

theorem onDevice (holds : machine.Owned floor owned) (device : δ) :
    Owned floor owned { machine with device } :=
  ⟨holds.exact, holds.distinct, holds.made, holds.floor⟩

theorem add (holds : machine.Owned floor owned) (fresh : ¬machine.Made resource)
    (live : after.live = resource :: machine.live) (made : after.Made resource)
    (kept : ∀ other, machine.Made other → after.Made other)
    (buffers : machine.buffersMade ≤ after.buffersMade) :
    after.Owned floor (resource :: owned) where
  exact := live ▸ holds.exact.cons resource
  distinct := List.nodup_cons.mpr ⟨fun present => fresh (holds.made _ present), holds.distinct⟩
  made := List.forall_mem_cons.mpr ⟨made, fun other present => kept other (holds.made other present)⟩
  floor := Nat.le_trans holds.floor buffers

theorem remove (holds : machine.Owned floor (resource :: owned)) :
    Owned floor owned { machine with live := machine.live.erase resource } where
  exact := by
    have left := holds.exact.erase resource
    rwa [List.erase_cons_head] at left
  distinct := (List.nodup_cons.mp holds.distinct).2
  made := fun other present => holds.made other (List.mem_cons_of_mem _ present)
  floor := holds.floor

theorem removeObject (holds : machine.Owned floor owned) (id : Nat) :
    Owned floor owned { machine with live := machine.live.erase (.object id) } where
  exact := by
    have apart : Resource.object id ∉ machine.live := fun present =>
      holds.made _ (holds.exact.mem_iff.mp present)
    rw [List.erase_of_not_mem apart]
    exact holds.exact
  distinct := holds.distinct
  made := holds.made
  floor := holds.floor

end Owned

section Operations

variable [Device δ]

theorem wait_returns (queue : Queue) (fence : Nat) :
    Action.Preserves (Owned (δ := δ) floor owned) (wait queue fence) := by
  intro machine holds
  rcases wait_run queue fence machine with ⟨error, device, ran⟩ | ⟨device, outcome, ran⟩
  · rw [ran]
    exact holds.onDevice device
  · rw [ran]
    exact holds.onDevice device

theorem createHeap_returns (desc : HeapDesc) :
    Action.Returns (Owned (δ := δ) floor owned) (createHeap desc)
      (fun object => Owned floor (.heap object.serial :: owned)) (Owned floor owned) := by
  intro machine holds
  rcases createHeap_run desc machine with ⟨error, device, ran⟩ |
    ⟨cpuStart, gpuStart, device, outcome, -, ran⟩
  · rw [ran]
    exact holds.onDevice device
  · rw [ran]
    refine (holds.onDevice device).add (Nat.lt_irrefl _) rfl (Nat.lt_succ_self _) ?_ (Nat.le_refl _)
    intro other made
    cases other with
    | heap serial => exact Nat.lt_succ_of_lt made
    | memory _ | buffer _ | object _ => exact made

theorem createMemory_returns (heap : BufferHeap) (size : Nat) :
    Action.Returns (Owned (δ := δ) floor owned) (createMemory heap size)
      (fun memory => Owned floor (.memory memory.serial :: owned)) (Owned floor owned) := by
  intro machine holds
  rcases createMemory_run heap size machine with ⟨error, device, ran⟩ |
    ⟨device, outcome, -, ran⟩
  · rw [ran]
    exact holds.onDevice device
  · rw [ran]
    refine (holds.onDevice device).add (Nat.lt_irrefl _) rfl (Nat.lt_succ_self _) ?_ (Nat.le_refl _)
    intro other made
    cases other with
    | memory serial => exact Nat.lt_succ_of_lt made
    | heap _ | buffer _ | object _ => exact made

theorem createBuffer_returns (heap : BufferHeap) (size : Nat) :
    Action.Returns (Owned (δ := δ) floor owned) (createBuffer heap size)
      (fun buffer machine => Owned floor (.buffer buffer.id :: owned) machine ∧
        buffer.heap = heap ∧ floor < buffer.id) (Owned floor owned) := by
  intro machine holds
  rcases createBuffer_run heap size machine with ⟨error, device, events, ran⟩ |
    ⟨device, events, ran⟩
  · rw [ran]
    exact holds.onDevice device
  · rw [ran]
    refine ⟨(holds.onDevice device).add (Nat.not_succ_le_self _) rfl (Nat.le_refl _) ?_
      (Nat.le_succ _), rfl, Nat.lt_succ_of_le holds.floor⟩
    intro other made
    cases other with
    | buffer id => exact Nat.le_succ_of_le made
    | heap _ | memory _ | object _ => exact made

end Operations

end Reclaim.Machine
