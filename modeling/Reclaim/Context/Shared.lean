import Reclaim.Config
import Reclaim.Retirement.Queue
import Reclaim.Descriptor.SlotManager

namespace Reclaim

structure Owner where
  heap : BufferHeap
  dedicated : Bool
deriving DecidableEq

-- A retired thing: a descriptor heap of the library's own, or an object of the caller's.
inductive Retiree where
  | heap (object : HeapObject)
  | object (id : Nat)
deriving DecidableEq

def Retiree.resource : Retiree → Resource
  | .heap made => .heap made.serial
  | .object id => .object id

structure Suballocation where
  block : Block
  owner : Owner
deriving DecidableEq

def Suballocation.text (suballocation : Suballocation) : String :=
  Text.record "Suballocation" [("block", suballocation.block.text)]

structure Allocators where
  pooled : Supply
  dedicated : Dedicated

structure Shared (δ : Type) where
  machine : Machine δ
  config : Config
  board : Board
  recording : Fences
  known : Fences
  buffers : PerBufferHeap (BucketPool Buffer)
  slots : PerKind SlotManager
  allocators : PerBufferHeap Allocators
  retired : Retirement Retiree Owner

namespace Shared

variable {σ δ : Type} [Device δ]

def chooseAllocators (config : Config) (heap : BufferHeap) : Action σ Allocators := do
  let layout ← Action.settle config.buddyLayout?
  return ⟨← Supply.choose heap config.useBuddy layout, .ofHeap heap⟩

def create (machine : Machine δ) (config : Config) (board : Board) : Action σ (Shared δ) := do
  let slots := PerKind.ofFn fun kind => SlotManager.ofDevice machine.device kind config.slotsPerHeap
  let upload ← chooseAllocators config .upload
  let readback ← chooseAllocators config .readback
  Action.note (.sharedCreated config.slotsPerHeap config.useBuddy)
  let pool := BucketPool.ofThreshold bufferMultiple config.trimThreshold
  return {
    machine, config, board
    recording := ⟨1, 1, 1⟩
    known := .unused
    buffers := ⟨pool, pool⟩
    slots
    allocators := ⟨upload, readback⟩
    retired := .empty }

section Parts

def machineOf : Part (Shared δ) (Machine δ) where
  get := machine
  put machine shared := { shared with machine }

def buffersOf (heap : BufferHeap) : Part (Shared δ) (BucketPool Buffer) where
  get shared := shared.buffers.get heap
  put pool shared := { shared with buffers := shared.buffers.set heap pool }
  get_put := by intros; simp

def slotsOf (kind : Kind) : Part (Shared δ) (SlotManager × Machine δ) where
  get shared := (shared.slots.get kind, shared.machine)
  put both shared := { shared with slots := shared.slots.set kind both.1, machine := both.2 }
  get_put := by intros; simp

def pooledOf (heap : BufferHeap) : Part (Shared δ) (Supply × Machine δ) where
  get shared := ((shared.allocators.get heap).pooled, shared.machine)
  put both shared :=
    { shared with
      allocators :=
        shared.allocators.set heap { shared.allocators.get heap with pooled := both.1 }
      machine := both.2 }
  get_put := by intros; simp

def dedicatedOf (heap : BufferHeap) : Part (Shared δ) (Dedicated × Machine δ) where
  get shared := ((shared.allocators.get heap).dedicated, shared.machine)
  put both shared :=
    { shared with
      allocators :=
        shared.allocators.set heap { shared.allocators.get heap with dedicated := both.1 }
      machine := both.2 }
  get_put := by intros; simp

def retiredOf : Part (Shared δ) (Retirement Retiree Owner) where
  get := retired
  put retired shared := { shared with retired }

end Parts

section Timelines

def recordingFence (queue : Queue) : Action (Shared δ) Nat :=
  return (← Action.get).recording.get queue

-- Remembers that the queue has come to `fence`, and answers how far it is known to have come. What
-- has been seen completed stays so, whatever the device says next.
def observe (queue : Queue) (fence : Nat) : Action (Shared δ) Nat := fun shared =>
  let known := max (shared.known.get queue) fence
  ⟨.ok known, { shared with known := shared.known.set queue known }, [.observed queue known]⟩

def completedFence (queue : Queue) : Action (Shared δ) Nat := do
  observe queue (← Action.on machineOf (Machine.look queue))

def reading : Reading (Shared δ) := ⟨completedFence, recordingFence⟩

def timeline : Action (Shared δ) Timeline := do
  let graphics ← completedFence .graphics
  let compute ← completedFence .compute
  let copy ← completedFence .copy
  return ⟨⟨graphics, compute, copy⟩, (← Action.get).recording⟩

def closeBatch (queue : Queue) : Action (Shared δ) Nat := do
  let fence ← recordingFence queue
  Action.modify fun shared =>
    { shared with recording := shared.recording.set queue (fence + 1) }
  Action.emit (.closed queue fence)
  return fence

-- Waits for a batch. Only a submitted batch can be waited for.
def waitFor (queue : Queue) (fence : Nat) : Action (Shared δ) Unit := do
  if fence ≤ (← completedFence queue) then return ()
  else if (← recordingFence queue) ≤ fence then
    Action.note (.waitUnsubmitted fence queue)
    Action.refuse .invalidParameter
  else
    Action.on machineOf (Machine.wait queue fence)
    let _ ← observe queue fence

end Timelines

section Retiring

def drop (resource : Resource) : Action (Shared δ) Unit :=
  Action.on machineOf (Machine.drop resource)

def destroy (retiree : Retiree) : Action (Shared δ) Unit := drop retiree.resource

def giveBack (owner : Owner) (block : Block) : Action (Shared δ) Unit :=
  if owner.dedicated then Action.on (dedicatedOf owner.heap) (Dedicated.deallocate block)
  else Action.on (pooledOf owner.heap) (Supply.deallocate block)

def keeper : Keeper (Shared δ) Retiree Owner := ⟨retiredOf, destroy, giveBack⟩

def retire (retiree : Retiree) (last : Fences) (completion : Bool) (waits : List Wait) :
    Action (Shared δ) Unit := do
  keeper.addObject reading (← Action.get).board ⟨retiree, last, completion, waits⟩

def retireBlock (suballocation : Suballocation) (last : Fences) : Action (Shared δ) Unit :=
  keeper.addBlock reading ⟨suballocation.block, suballocation.owner, last⟩

def trimRetired (teardown : Bool) : Action (Shared δ) Bool := do
  keeper.trim reading (← Action.get).board teardown

def pending (shared : Shared δ) : Nat := shared.retired.pending

end Retiring

end Shared

end Reclaim
