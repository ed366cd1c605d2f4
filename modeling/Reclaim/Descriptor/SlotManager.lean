import Reclaim.Descriptor.Free
import Reclaim.Device.Machine

namespace Reclaim

structure SlotHeap where
  object : HeapObject
  free : List Range

-- No heap is ever let go, so a handle stays good for as long as its manager. `ready` is the
-- queue of heaps with free slots.
structure SlotManager where
  desc : HeapDesc
  stride : Nat
  heaps : List SlotHeap
  ready : List Nat

namespace SlotManager

variable {δ : Type} [Device δ]

def ofDevice (device : δ) (kind : Kind) (slotsPerHeap : Nat) : SlotManager :=
  ⟨.cpu kind slotsPerHeap, Device.stride device kind, [], []⟩

def bytesPerHeap (manager : SlotManager) : Nat := manager.desc.slots * manager.stride

def dropFull (heaps : List SlotHeap) : List Nat → List Nat
  | [] => []
  | index :: rest =>
    match heaps[index]? with
    | some heap => if heap.free.isEmpty then dropFull heaps rest else index :: rest
    | none => index :: rest

def managerOf : Part (SlotManager × Machine δ) SlotManager := .first

def machineOf : Part (SlotManager × Machine δ) (Machine δ) := .second

def grow : Action (SlotManager × Machine δ) Unit := do
  let manager := (← Action.get).1
  if manager.desc.slots = 0 ∨ manager.stride = 0 then
    Action.note (.slotsUnlaid manager.desc.slots manager.desc.kind manager.stride)
    Action.refuse .invalidParameter
  else
    let object ← Action.on machineOf (Machine.createHeap manager.desc)
    let stop ← Word.add object.cpuStart manager.bytesPerHeap
    let index := manager.heaps.length
    Action.on managerOf <| Action.modify fun manager =>
      { manager with
        heaps := manager.heaps ++ [⟨object, [⟨object.cpuStart, stop⟩]⟩]
        ready := manager.ready ++ [index] }
    Action.note (.slotHeapCreated manager.desc.kind index manager.desc.slots)

def takeFront : Action SlotManager (Handle × Nat) := do
  let manager ← Action.get
  match manager.ready with
  | [] => Action.refuse .notFound
  | index :: waiting =>
    match manager.heaps[index]? with
    | none => Action.refuse .notFound
    | some heap =>
      match heap.free with
      | [] => Action.refuse .notFound
      | range :: rest =>
        let start ← Word.add range.start manager.stride
        let free := if start = range.stop then rest else ⟨start, range.stop⟩ :: rest
        Action.modify fun manager =>
          { manager with
            heaps := manager.heaps.set index { heap with free }
            ready := if free.isEmpty then waiting else manager.ready }
        return (range.start, index)

def allocate : Action (SlotManager × Machine δ) (Handle × Nat) := do
  Action.on managerOf <| Action.modify fun manager =>
    { manager with ready := dropFull manager.heaps manager.ready }
  if (← Action.get).1.ready.isEmpty then grow
  Action.on managerOf takeFront

-- Takes a slot back. What is no slot of the heap, or is free already, is reported and left.
def free (handle : Handle) (index : Nat) : Action SlotManager Unit := do
  let manager ← Action.get
  match manager.heaps[index]? with
  | none => Action.note (.slotHeapUnknown index)
  | some heap =>
    let base := heap.object.cpuStart
    let stop ← Word.add handle manager.stride
    if handle < base ∨ base + manager.bytesPerHeap < stop ∨ (handle - base) % manager.stride ≠ 0
    then Action.note (.slotForeign handle index)
    else
      match Range.giveBack handle stop heap.free with
      | none => Action.note (.slotFreedTwice handle)
      | some ranges =>
        Action.modify fun manager =>
          { manager with
            heaps := manager.heaps.set index { heap with free := ranges }
            ready := if heap.free.isEmpty then manager.ready ++ [index] else manager.ready }

def freeRanges (manager : SlotManager) (index : Nat) : List Range :=
  match manager.heaps[index]? with
  | some heap => heap.free
  | none => []

def freeCount? (manager : SlotManager) (index : Nat) : Except Fault (Option Nat) :=
  match manager.heaps[index]? with
  | some heap => some <$> Range.slotCount manager.stride heap.free
  | none => .ok none

def text (manager : SlotManager) : String :=
  Text.record "DescriptorHeapManager"
    [("desc", manager.desc.text), ("increment", toString manager.stride),
      ("heaps", toString manager.heaps.length)]

end SlotManager

end Reclaim
