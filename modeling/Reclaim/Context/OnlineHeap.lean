import Reclaim.Context.Reclaiming
import Reclaim.Pool.Bounded

namespace Reclaim

-- Below its largest size a heap that is rolled over is retired, and one of twice the size takes
-- its place; at its largest size it is parked, and a parked heap that the device is done with
-- comes back.
structure OnlineHeap where
  object : HeapObject
  desc : HeapDesc
  cpuBase : Handle
  gpuBase : Handle
  stride : Nat
  maxSize : Nat
  ring : Ring
  parked : BoundedPool HeapObject

structure Reservation where
  first : Nat
  rolledOver : Bool
deriving DecidableEq

namespace OnlineHeap

variable {δ : Type} [Device δ]

def maxAttempts : Nat := 32

def heapOf : Part (OnlineHeap × Shared δ) OnlineHeap := .first

def sharedOf : Part (OnlineHeap × Shared δ) (Shared δ) := .second

def ringOf : Part (OnlineHeap × Shared δ) Ring where
  get both := both.1.ring
  put ring both := ({ both.1 with ring }, both.2)

def parkedOf : Part (OnlineHeap × Shared δ) (BoundedPool HeapObject) where
  get both := both.1.parked
  put parked both := ({ both.1 with parked }, both.2)

-- A heap that shaders cannot address is of no use here, and goes.
def gpuBaseOf (object : HeapObject) : Action (Shared δ) Handle :=
  match object.gpuStart with
  | some base => return base
  | none => do
    Shared.drop (.heap object.serial)
    Action.refuse .invalidParameter

def create (kind : Kind) (config : OnlineConfig) : Action (Shared δ) OnlineHeap := do
  if !kind.canBeShaderVisible || config.initialSize = 0 || config.maxSize < config.initialSize then
    Action.refuse .invalidParameter
  else
    let desc := HeapDesc.visible kind config.initialSize
    let object ← Shared.createHeap desc
    let gpuBase ← gpuBaseOf object
    match Ring.ofLedger? config.initialSize config.ledgerPlaces with
    | .error error =>
      Shared.drop (.heap object.serial)
      Action.refuse error
    | .ok ring =>
      let device := (← Action.get).machine.device
      return {
        object, desc, ring
        cpuBase := object.cpuStart
        gpuBase
        stride := Device.stride device kind
        maxSize := config.maxSize
        parked := .ofBound config.poolDepth }

-- The heap now in use; what was handed out of the old one says nothing of it.
def install (object : HeapObject) (gpuBase : Handle) (desc : HeapDesc) (heap : OnlineHeap) :
    OnlineHeap :=
  { heap with
    object, gpuBase, desc
    cpuBase := object.cpuStart
    ring := heap.ring.reset desc.slots }

def grow (recording : Nat) : Action (OnlineHeap × Shared δ) Unit := do
  let old := (← Action.get).1
  let desc := HeapDesc.visible old.desc.kind (min (old.desc.slots * 2) old.maxSize)
  let object ← Action.on sharedOf (Shared.createHeap desc)
  let gpuBase ← Action.on sharedOf (gpuBaseOf object)
  Action.on sharedOf (Shared.retire (.heap old.object) (.single .graphics recording) true [])
  Action.on heapOf (Action.modify (install object gpuBase desc))
  Action.note (.heapGrown desc.kind old.desc.slots desc.slots)

-- Whether even the heap parked first is under a batch that is not submitted yet.
def isStalled (heap : OnlineHeap) (recording : Nat) : Bool :=
  heap.parked.line.oldest?.any (recording ≤ ·)

-- No device can be waited for to complete a batch it was not given, so a stalled pool is left alone
-- and one more heap is made.
def swap (recording : Nat) : Action (OnlineHeap × Shared δ) Unit := do
  let completed ← Action.on sharedOf (Shared.completedFence .graphics)
  let old := (← Action.get).1
  let create := Action.on sharedOf (Shared.createHeap old.desc)
  let object ←
    if old.isStalled recording then do
      Action.note (.parkedStalled old.desc.kind recording)
      create
    else
      BoundedPool.retrieve parkedOf completed
        (fun fence => Action.on sharedOf (Shared.waitFor .graphics fence)) create
  let gpuBase ← Action.on sharedOf (gpuBaseOf object)
  Action.on heapOf <| Action.modify fun heap =>
    { install object gpuBase old.desc heap with parked := heap.parked.push old.object recording }
  let parked := (← Action.get).1.parked
  Action.note (.heapRolled old.desc.kind recording parked.line.size)

def rollOver : Action (OnlineHeap × Shared δ) Unit := do
  let recording ← Action.on sharedOf (Shared.recordingFence .graphics)
  let heap := (← Action.get).1
  if heap.desc.slots < heap.maxSize then grow recording else swap recording

-- The first refusal of the ring costs a reclaim, each later one a roll-over.
def reserveWithin (slots : Nat) :
    (attempts : Nat) → (rolledOver reclaimed : Bool) → Action (OnlineHeap × Shared δ) Reservation
  | 0, _, _ => do
    Action.note (.slotsRefused slots (← Action.get).1.desc.kind maxAttempts)
    Action.refuse .ringExhausted
  | attempts + 1, rolledOver, reclaimed => do
    let fence ← Action.on sharedOf (Shared.recordingFence .graphics)
    match ← (Action.on ringOf (Ring.allocate slots fence)).attempt with
    | .ok first => return ⟨first, rolledOver⟩
    | .error error =>
      if error.isExhausted && !reclaimed then
        let completed ← Action.on sharedOf (Shared.completedFence .graphics)
        Action.on ringOf (Ring.deallocate completed)
        reserveWithin slots attempts rolledOver true
      else if error.isExhausted || error = .invalidParameter then
        rollOver
        reserveWithin slots attempts true reclaimed
      else Action.refuse error

def reserve (slots : Nat) : Action (OnlineHeap × Shared δ) Reservation := do
  if (← Action.get).1.maxSize < slots then Action.refuse .invalidParameter
  else reserveWithin slots maxAttempts false false

def reclaimSlots (completed : Nat) : Action (OnlineHeap × Shared δ) Unit :=
  Action.on ringOf (Ring.deallocate completed)

def trim (threshold completed : Nat) : Action (OnlineHeap × Shared δ) Bool := do
  let parked := (← Action.get).1.parked
  match parked.line.evict? threshold completed with
  | none => return false
  | some (object, line) =>
    Action.modify (parkedOf.put { parked with line })
    Action.on sharedOf (Shared.drop (.heap object.serial))
    return true

-- Only slots of the heap in use have handles.
def handles (heap : OnlineHeap) (slot : Nat) : Except Fault (Handle × Handle) := do
  if slot < heap.desc.slots then
    return (← Handle.offset heap.cpuBase slot heap.stride,
      ← Handle.offset heap.gpuBase slot heap.stride)
  else .error .assertion

def objects (heap : OnlineHeap) : List HeapObject :=
  heap.object :: heap.parked.line.entries.map (·.item)

def text (heap : OnlineHeap) : String :=
  Text.record "OnlineDescriptorHeap"
    [("desc", heap.desc.text), ("cpu_base", Handle.cpuText heap.cpuBase),
      ("gpu_base", Handle.gpuText heap.gpuBase), ("max_size", toString heap.maxSize),
      ("ring", heap.ring.text), ("parked_heaps", toString heap.parked.line.size)]

end OnlineHeap

end Reclaim
