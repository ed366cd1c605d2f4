import Reclaim.Context.Shared

namespace Reclaim

namespace Shared

variable {δ α κ : Type} [Device δ]

def waitEach (fences : Fences) : List Queue → Bool → Action (Shared δ) Bool
  | [], waited => return waited
  | queue :: rest, waited => do
    let fence := fences.get queue
    if fence = 0 then waitEach fences rest waited
    else if (← recordingFence queue) ≤ fence then waitEach fences rest waited
    else if fence ≤ (← completedFence queue) then waitEach fences rest waited
    else
      match ← (waitFor queue fence).attempt with
      | .ok _ => waitEach fences rest true
      | .error error =>
        Action.note (.reclaimWaitFailed error)
        return false

def reclaim : Action (Shared δ) Bool := do
  if ← trimRetired false then return true
  else
    match (← Action.get).retired.oldest? with
    | none => return false
    | some fences => if ← waitEach fences Queue.all false then trimRetired false else return false

-- An allocation that may be tried again: no try retires anything itself. It may use a state of its
-- own besides.
structure Attempt (κ δ α : Type) where
  run : Action (κ × Shared δ) α
  settles : ∀ s, (run s).state.2.pending ≤ s.2.pending

def afterTry (again : Action (κ × Shared δ) α) (tried : Run (κ × Shared δ) α) :
    Run (κ × Shared δ) α :=
  match tried with
  | ⟨.error (.error error), (own, refused), events⟩ =>
    if error.isOutOfMemory then
      match reclaim refused with
      | ⟨.ok true, eased, more⟩ =>
        match again (own, eased) with
        | ⟨result, after, rest⟩ => ⟨result, after, events ++ more ++ .noted .retrying :: rest⟩
      | ⟨.ok false, after, more⟩ => ⟨.error (.error error), (own, after), events ++ more⟩
      | ⟨.error stop, after, more⟩ => ⟨.error stop, (own, after), events ++ more⟩
    else ⟨.error (.error error), (own, refused), events⟩
  | run => run

def tryWithin (attempt : Attempt κ δ α) : (tries : Nat) → Action (κ × Shared δ) α
  | 0 => Action.refuse .outOfMemory
  | tries + 1 => fun s => afterTry (tryWithin attempt tries) (attempt.run s)

-- Tries the allocation, and again after each successful reclaim, for as long as memory is short.
-- There is a try for each retired thing and one more, and no run needs more (`tryAllocate_eq`).
def tryAllocate (attempt : Attempt κ δ α) : Action (κ × Shared δ) α := fun s =>
  tryWithin attempt (s.2.pending + 1) s

def allocateWith (x : Action (Shared δ) α) (kept : Action.Keeps Shared.retired x) :
    Action (Shared δ) α := fun shared =>
  let attempt : Attempt Unit δ α :=
    ⟨Action.on .second x, fun s => Nat.le_of_eq (congrArg Retirement.pending (kept s.2))⟩
  match tryAllocate attempt ((), shared) with
  | ⟨result, after, events⟩ => ⟨result, after.2, events⟩

section Allocations

def createHeap (desc : HeapDesc) : Action (Shared δ) HeapObject :=
  allocateWith (Action.on machineOf (Machine.createHeap desc)) (Action.keeps_on (fun _ _ => rfl) _)

-- A buffer of at least `size` bytes. Buffers belong to the graphics queue.
def acquire (heap : BufferHeap) (size : Nat) : Action (Shared δ) Buffer := do
  let completed ← completedFence .graphics
  BucketPool.retrieve (buffersOf heap) size completed fun bytes =>
    allocateWith (Action.on machineOf (Machine.createBuffer heap bytes))
      (Action.keeps_on (fun _ _ => rfl) _)

def release (heap : BufferHeap) (size : Nat) (buffer : Buffer) : Action (Shared δ) Unit := do
  let fence ← recordingFence .graphics
  let pool := (buffersOf heap).get (← Action.get)
  match pool.push? size buffer fence with
  | some pool => Action.modify ((buffersOf heap).put pool)
  | none =>
    Action.note (.bucketsRefused (BucketPool.bucket pool.multiple size + 1))
    drop (.buffer buffer.id)

def allocateSlot (kind : Kind) : Action (Shared δ) (Handle × Nat) :=
  allocateWith (Action.on (slotsOf kind) SlotManager.allocate) (Action.keeps_on (fun _ _ => rfl) _)

def freeSlot (kind : Kind) (handle : Handle) (index : Nat) : Action (Shared δ) Unit :=
  Action.on (slotsOf kind) (Action.on SlotManager.managerOf (SlotManager.free handle index))

-- A block of `heap` memory; a dedicated one if the request is large or cannot be offset.
def suballocate (heap : BufferHeap) (size : Nat) (cannotBeOffset : Bool) :
    Action (Shared δ) Suballocation := do
  let config := (← Action.get).config
  if needsOwnHeap size config.buddyThreshold cannotBeOffset then
    let block ← allocateWith (Action.on (dedicatedOf heap) (Dedicated.allocate size))
      (Action.keeps_on (fun _ _ => rfl) _)
    return ⟨block, ⟨heap, true⟩⟩
  else
    let block ← allocateWith (Action.on (pooledOf heap) (Supply.allocate size))
      (Action.keeps_on (fun _ _ => rfl) _)
    return ⟨block, ⟨heap, false⟩⟩

end Allocations

def trimBuffers (heap : BufferHeap) (completed : Nat) : Action (Shared δ) Unit := do
  let (gone, pool) := ((buffersOf heap).get (← Action.get)).evict completed
  Action.modify ((buffersOf heap).put pool)
  Action.each (fun buffer => drop (.buffer buffer.id)) gone

def trim : Action (Shared δ) Bool := do
  let freed ← trimRetired false
  let completed ← completedFence .graphics
  trimBuffers .upload completed
  trimBuffers .readback completed
  return freed

def text (shared : Shared δ) : String :=
  Text.record "SharedContext"
    [("recording", shared.recording.text), ("config", shared.config.text),
      ("deferred", shared.retired.text)]

end Shared

end Reclaim
