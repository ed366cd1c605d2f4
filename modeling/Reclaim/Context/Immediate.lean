import Reclaim.Context.OnlineHeap

namespace Reclaim

structure Immediate (δ : Type) where
  shared : Shared δ
  view : OnlineHeap
  sampler : OnlineHeap

namespace Immediate

variable {σ δ : Type} [Device δ]

def sharedOf : Part (Immediate δ) (Shared δ) where
  get := shared
  put shared immediate := { immediate with shared }

def viewOf : Part (Immediate δ) (OnlineHeap × Shared δ) where
  get immediate := (immediate.view, immediate.shared)
  put both immediate := { immediate with view := both.1, shared := both.2 }

def samplerOf : Part (Immediate δ) (OnlineHeap × Shared δ) where
  get immediate := (immediate.sampler, immediate.shared)
  put both immediate := { immediate with sampler := both.1, shared := both.2 }

def onlineOf? : Kind → Option (Part (Immediate δ) (OnlineHeap × Shared δ))
  | .view => some viewOf
  | .sampler => some samplerOf
  | .target | .depth => none

-- The two online heaps. Where the second cannot be made the first goes again.
def createHeaps (config : Config) : Action (Shared δ) (OnlineHeap × OnlineHeap) := do
  let view ← OnlineHeap.create .view config.viewHeap
  match ← (OnlineHeap.create .sampler config.samplerHeap).attempt with
  | .ok sampler => return (view, sampler)
  | .error error =>
    Action.each (fun object => Shared.drop (.heap object.serial)) view.objects
    Action.refuse error

def trimOnline (part : Part (Immediate δ) (OnlineHeap × Shared δ)) (threshold completed : Nat) :
    Action (Immediate δ) Unit :=
  Action.on part do
    OnlineHeap.reclaimSlots completed
    let _ ← OnlineHeap.trim threshold completed

def trim : Action (Immediate δ) Bool := do
  let freed ← Action.on sharedOf Shared.trim
  let completed ← Action.on sharedOf (Shared.completedFence .graphics)
  let threshold := (← Action.get).shared.config.trimThreshold
  trimOnline viewOf threshold completed
  trimOnline samplerOf threshold completed
  return freed

def submit (queue : Queue) : Action (Immediate δ) Nat := do
  let fence ← Action.on sharedOf (Shared.closeBatch queue)
  Action.note (.submitted queue fence)
  let _ ← trim
  return fence

-- Closes the batch of each queue in the mask; the others answer 0.
def closeEach (mask : QueueMask) : List Queue → Fences → Action (Immediate δ) Fences
  | [], fences => return fences
  | queue :: rest, fences => do
    if mask.has queue then
      let fence ← Action.on sharedOf (Shared.closeBatch queue)
      closeEach mask rest (fences.set queue fence)
    else closeEach mask rest fences

def flush (mask : QueueMask) : Action (Immediate δ) Fences := do
  let fences ← closeEach mask Queue.all .unused
  let _ ← trim
  return fences

def waitForIdle (queue : Queue) : Action (Immediate δ) Unit := do
  let recording ← Action.on sharedOf (Shared.recordingFence queue)
  let last ← Word.sub recording 1
  if 0 < last then Action.on sharedOf (Shared.waitFor queue last)
  let _ ← trim

def reserve (kind : Kind) (slots : Nat) : Action (Immediate δ) Reservation :=
  match onlineOf? kind with
  | some part => Action.on part (OnlineHeap.reserve slots)
  | none => Action.refuse .invalidParameter

-- Before it goes, a context waits for its queues; one that does not go idle is reported.
def settleQueue (queue : Queue) : Action (Immediate δ) Unit := do
  match ← (waitForIdle queue).attempt with
  | .ok _ => return ()
  | .error error => Action.note (.notIdle queue error)

def settle : Action (Immediate δ) Unit := Action.each settleQueue Queue.all

def text (immediate : Immediate δ) : String :=
  Text.record "ImmediateContext"
    [("shared", immediate.shared.text), ("view_heap", immediate.view.text),
      ("sampler_heap", immediate.sampler.text)]

end Immediate

end Reclaim
