import Reclaim.Device.Scripted
import Reclaim.Proofs.Ownership.Session

namespace Reclaim

variable {δ : Type}

@[simp] def Resource.isHeap : Resource → Bool
  | .heap _ => true
  | .memory _ | .buffer _ | .object _ => false

@[simp] def Resource.isMemory : Resource → Bool
  | .memory _ => true
  | .heap _ | .buffer _ | .object _ => false

@[simp] def Retiree.isHeap : Retiree → Bool
  | .heap _ => true
  | .object _ => false

section Stores

open Resource

@[simp] theorem SlotManager.countP_heaps (manager : SlotManager) :
    manager.resources.countP isHeap = manager.heaps.length := by
  simp [resources, Function.comp_def]

@[simp] theorem SlotManager.countP_memories (manager : SlotManager) :
    manager.resources.countP isMemory = 0 := by
  simp [resources]

@[simp] theorem Dedicated.countP_heaps (dedicated : Dedicated) :
    dedicated.resources.countP isHeap = 0 := by
  simp [resources]

@[simp] theorem Dedicated.countP_memories (dedicated : Dedicated) :
    dedicated.resources.countP isMemory = dedicated.live.length := by
  simp [resources, Function.comp_def]

@[simp] theorem Supply.countP_heaps (supply : Supply) : supply.resources.countP isHeap = 0 := by
  cases supply <;> simp [resources, Buddy.resources]

@[simp] theorem Supply.countP_memories (supply : Supply) :
    supply.resources.countP isMemory = supply.heapCount := by
  cases supply <;> simp [resources, Buddy.resources, heapCount, Function.comp_def]

@[simp] theorem BucketPool.countP_heaps (pool : BucketPool Buffer) :
    pool.resources.countP isHeap = 0 := by
  simp [resources]

@[simp] theorem BucketPool.countP_memories (pool : BucketPool Buffer) :
    pool.resources.countP isMemory = 0 := by
  simp [resources]

@[simp] theorem OnlineHeap.countP_heaps (heap : OnlineHeap) :
    heap.resources.countP isHeap = 1 + heap.parked.line.size := by
  simp [resources, objects, FenceLine.size, List.countP_cons, Function.comp_def, Nat.add_comm]

@[simp] theorem OnlineHeap.countP_memories (heap : OnlineHeap) :
    heap.resources.countP isMemory = 0 := by
  simp [resources, objects]

@[simp] theorem countP_retired_heaps (entries : List (Retired Retiree)) :
    (entryResources entries).countP isHeap = entries.countP (·.object.isHeap) := by
  unfold entryResources
  rw [List.countP_filterMap]
  refine List.countP_congr fun entry _ => ?_
  unfold Retired.resource?
  cases entry.object <;> simp

@[simp] theorem countP_retired_memories (entries : List (Retired Retiree)) :
    (entryResources entries).countP isMemory = 0 := by
  refine List.countP_eq_zero.mpr fun resource present => ?_
  obtain ⟨entry, -, same⟩ := List.mem_filterMap.mp present
  unfold Retired.resource? at same
  cases object : entry.object with
  | heap made =>
    rw [object] at same
    cases same
    exact Bool.false_ne_true
  | object id =>
    rw [object] at same
    cases same

@[simp] theorem Session.countP_held_heaps (buffers : List Buffer) :
    (heldResources buffers).countP isHeap = 0 := by
  simp [heldResources]

@[simp] theorem Session.countP_held_memories (buffers : List Buffer) :
    (heldResources buffers).countP isMemory = 0 := by
  simp [heldResources]

end Stores

theorem Machine.liveHeaps_eq (machine : Machine δ) :
    machine.liveHeaps = machine.live.countP Resource.isHeap :=
  List.countP_congr fun resource _ => by cases resource <;> simp

theorem Machine.liveMemories_eq (machine : Machine δ) :
    machine.liveMemories = machine.live.countP Resource.isMemory :=
  List.countP_congr fun resource _ => by cases resource <;> simp

namespace Session

variable [Device δ] {config : Config} {turns : List (Turn δ)} {session : Session δ}

-- The device memory there is backs blocks of the four allocators, and the descriptor heaps there are
-- belong to a slot manager, are in use or parked by an online heap, or wait to be destroyed.
theorem heaps_counted (path : Went config turns session) :
    session.shared.machine.liveMemories = (session.shared.allocators.toList.map fun allocators =>
        allocators.pooled.heapCount + (Supply.dedicated allocators.dedicated).heapCount).sum ∧
      session.shared.machine.liveHeaps =
        (session.shared.slots.toList.map (·.heaps.length)).sum +
          session.onlineHeaps.length + (session.onlineHeaps.map (·.parked.line.size)).sum +
            session.shared.retired.objects.countP (·.object.isHeap) := by
  obtain ⟨-, -, owned, -⟩ := went_accounts path
  constructor
  · rw [Machine.liveMemories_eq, owned.exact.countP_eq]
    simp [Shared.resources, Allocators.resources, heapResources, List.countP_flatMap,
      Function.comp_def, Supply.heapCount]
  · rw [Machine.liveHeaps_eq, owned.exact.countP_eq]
    simp [Shared.resources, Allocators.resources, heapResources, List.countP_flatMap,
      Function.comp_def, List.sum_map_add]
    omega

theorem heaps_counted_rolled :
    ∃ (turns : List (Turn Scripted)) (session : Session Scripted),
      Went { Config.minimal with viewHeap := ⟨2, 4, 1, 2⟩, samplerHeap := .fixed 1 } turns session ∧
        session.shared.machine.liveMemories = 1 + 0 + (0 + 1) ∧
        session.shared.machine.liveHeaps = 1 + 2 + 1 + 1 := by
  have path := opened_went (Option.some_get (by decide +kernel :
    (opened Scripted.standard .immediate { Config.minimal with
      viewHeap := ⟨2, 4, 1, 2⟩, samplerHeap := .fixed 1 } ⟨[]⟩).state.isSome = true)).symm
  replace path := path.step (.reserve (some .view) 2) nofun (by decide +kernel)
  replace path := path.step (.reserve (some .view) 4) nofun (by decide +kernel)
  replace path := path.step (.reserve (some .view) 4) nofun (by decide +kernel)
  replace path := path.step (.suballocate .upload 16 false) nofun (by decide +kernel)
  replace path := path.step (.suballocate .readback 16 true) nofun (by decide +kernel)
  replace path := path.step (.allocateSlot .target) nofun (by decide +kernel)
  obtain ⟨memories, heaps⟩ := heaps_counted path
  exact ⟨_, _, path, memories.trans (by decide +kernel), heaps.trans (by decide +kernel)⟩

end Session

end Reclaim
