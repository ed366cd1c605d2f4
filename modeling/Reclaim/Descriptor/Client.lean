import Reclaim.Descriptor.SlotManager
import Reclaim.Held

namespace Reclaim

inductive SlotStep (δ : Type) where
  | allocate
  | free (place : Nat) (keep : Bool)
  | freeHandle (handle : Handle) (index : Nat)
  -- the device changes by itself
  | device (change : δ → δ)

inductive SlotAnswer where
  | nothing
  | slot (handle : Handle) (index : Nat)
  | absent

structure SlotClient (δ : Type) where
  manager : SlotManager
  machine : Machine δ
  held : List (Handle × Nat)

namespace SlotClient

variable {δ : Type} [Device δ]

def opened (device : δ) (kind : Kind) (slotsPerHeap : Nat) : SlotClient δ :=
  ⟨.ofDevice device kind slotsPerHeap, .start device, []⟩

def managerOf : Part (SlotClient δ) (SlotManager × Machine δ) where
  get client := (client.manager, client.machine)
  put both client := { client with manager := both.1, machine := both.2 }

def give (handle : Handle) (index : Nat) : Action (SlotClient δ) Unit :=
  Action.on managerOf (Action.on SlotManager.managerOf (SlotManager.free handle index))

def freeCounts (client : SlotClient δ) : Except Fault (List Nat) :=
  client.manager.heaps.mapM fun heap => Range.slotCount client.manager.stride heap.free

end SlotClient

open SlotClient in
def SlotStep.run {δ : Type} [Device δ] : SlotStep δ → Action (SlotClient δ) SlotAnswer
  | allocate => do
    let (handle, index) ← Action.on managerOf SlotManager.allocate
    Action.modify fun client => { client with held := client.held ++ [(handle, index)] }
    return .slot handle index
  | free place keep => do
    match Held.pick? (← Action.get).held place keep with
    | none => return .absent
    | some ((handle, index), held) =>
      Action.modify fun client => { client with held }
      give handle index
      return .slot handle index
  | freeHandle handle index => do
    give handle index
    return .nothing
  | device change => do
    Action.modify fun client =>
      { client with machine := { client.machine with device := change client.machine.device } }
    return .nothing

end Reclaim
