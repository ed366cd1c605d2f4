import Reclaim.Memory.Block
import Reclaim.Device.Machine
import Reclaim.Table

namespace Reclaim

structure DedicatedHeap where
  memory : Memory
  size : Nat

-- Heaps are numbered from 1 in the order they come into use, and no number is used twice.
structure Dedicated where
  heap : BufferHeap
  lastId : Nat
  live : Table DedicatedHeap
  used : Nat

namespace Dedicated

variable {δ : Type} [Device δ]

def ofHeap (heap : BufferHeap) : Dedicated := ⟨heap, 0, [], 0⟩

def maxId : Nat := (1 <<< 32) - 1

def dedicatedOf : Part (Dedicated × Machine δ) Dedicated := .first

def machineOf : Part (Dedicated × Machine δ) (Machine δ) := .second

-- An empty block has no heap to be.
def claim (size : Nat) : Action Dedicated Unit :=
  if size = 0 then Action.refuse .invalidParameter else return ()

-- Enters a heap the device has made. Where the byte count or the numbers run out it goes again.
def conclude (size : Nat) (made : Except Error Memory) : Action (Dedicated × Machine δ) Block := do
  let memory ← Action.settle made
  let dedicated := (← Action.get).1
  if Word.limit ≤ dedicated.used + size ∨ maxId ≤ dedicated.lastId then
    Action.on machineOf (Machine.drop (.memory memory.serial))
    Action.refuse .allocationFailed
  else
    let id := dedicated.lastId + 1
    Action.on dedicatedOf <| Action.modify fun dedicated =>
      { dedicated with
        lastId := id
        used := dedicated.used + size
        live := dedicated.live.insert id ⟨memory, size⟩ }
    return ⟨0, size, id⟩

def allocate (size : Nat) : Action (Dedicated × Machine δ) Block := do
  Action.on dedicatedOf (claim size)
  let heap := (← Action.get).1.heap
  let made ← Action.on machineOf (Machine.createMemory heap size).attempt
  conclude size made

def deallocate (block : Block) : Action (Dedicated × Machine δ) Unit := do
  let dedicated := (← Action.get).1
  match dedicated.live.get? block.heap with
  | none => Action.note (.heapUnknown block.heap)
  | some heap =>
    let used ← Word.sub dedicated.used heap.size
    Action.on dedicatedOf <| Action.modify fun dedicated =>
      { dedicated with used, live := dedicated.live.erase block.heap }
    Action.on machineOf (Machine.drop (.memory heap.memory.serial))

def text (dedicated : Dedicated) : String :=
  Text.record "DirectAllocator"
    [("heap", dedicated.heap.name), ("live", toString dedicated.live.length),
      ("used", toString dedicated.used)]

end Dedicated

end Reclaim
