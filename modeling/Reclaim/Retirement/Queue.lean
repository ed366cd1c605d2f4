import Reclaim.Memory.Block
import Reclaim.Retirement.Reading

namespace Reclaim

structure Retired (α : Type) where
  object : α
  last : Fences
  completion : Bool
  waits : List Wait

structure RetiredBlock (π : Type) where
  block : Block
  parent : π
  last : Fences

-- Both wait in the order of their retirement, and only from the front are they let go: batches are
-- recorded in order, so what retired earlier is ready earlier.
structure Retirement (α π : Type) where
  objects : List (Retired α)
  blocks : List (RetiredBlock π)
  destroyedObjects : Nat
  destroyedBlocks : Nat

namespace Retired

variable {σ α : Type}

def isReady (timeline : Timeline) (board : Board) (retired : Retired α) : Bool :=
  timeline.allows board retired.completion retired.last retired.waits

def mayGo (reading : Reading σ) (board : Board) (retired : Retired α) : Action σ Bool :=
  reading.allows board retired.completion retired.last retired.waits

def text (retired : Retired α) : String :=
  Text.record "RetiredObject"
    [("last_fences", retired.last.text), ("completion_required", toString retired.completion),
      ("deferred_waits", toString retired.waits.length)]

end Retired

namespace RetiredBlock

variable {σ π : Type}

def isReady (timeline : Timeline) (retired : RetiredBlock π) : Bool :=
  timeline.allows ⟨[]⟩ true retired.last []

def mayGo (reading : Reading σ) (retired : RetiredBlock π) : Action σ Bool :=
  reading.allows ⟨[]⟩ true retired.last []

def text (retired : RetiredBlock π) : String :=
  Text.record "RetiredSuballocation"
    [("block", retired.block.text), ("last_fences", retired.last.text)]

end RetiredBlock

namespace Retirement

variable {α π : Type}

def empty : Retirement α π := ⟨[], [], 0, 0⟩

def pending (queue : Retirement α π) : Nat := queue.objects.length + queue.blocks.length

def isEmpty (queue : Retirement α π) : Bool := queue.objects.isEmpty && queue.blocks.isEmpty

def oldestObject? (queue : Retirement α π) : Option Fences := queue.objects.head?.map (·.last)

def oldestBlock? (queue : Retirement α π) : Option Fences := queue.blocks.head?.map (·.last)

def oldest? (queue : Retirement α π) : Option Fences :=
  match queue.oldestObject?, queue.oldestBlock? with
  | some objects, some blocks => some (objects.merge blocks)
  | some fences, none | none, some fences => some fences
  | none, none => none

def text (queue : Retirement α π) : String :=
  Text.record "DeferredDeletionQueue"
    [("pending_objects", toString queue.objects.length),
      ("pending_suballocations", toString queue.blocks.length),
      ("destroyed_objects", toString queue.destroyedObjects),
      ("destroyed_suballocations", toString queue.destroyedBlocks)]

end Retirement

structure Keeper (σ α π : Type) where
  part : Part σ (Retirement α π)
  destroy : α → Action σ Unit
  giveBack : π → Block → Action σ Unit

namespace Keeper

variable {σ α π : Type}

def change (keeper : Keeper σ α π) (f : Retirement α π → Retirement α π) : Action σ Unit :=
  Action.on keeper.part (Action.modify f)

def addObject (keeper : Keeper σ α π) (reading : Reading σ) (board : Board) (retired : Retired α) :
    Action σ Unit := do
  if ← retired.mayGo reading board then
    keeper.destroy retired.object
    keeper.change fun queue => { queue with destroyedObjects := queue.destroyedObjects + 1 }
  else keeper.change fun queue => { queue with objects := queue.objects ++ [retired] }

def addBlock (keeper : Keeper σ α π) (reading : Reading σ) (retired : RetiredBlock π) :
    Action σ Unit := do
  if ← retired.mayGo reading then
    keeper.giveBack retired.parent retired.block
    keeper.change fun queue => { queue with destroyedBlocks := queue.destroyedBlocks + 1 }
  else keeper.change fun queue => { queue with blocks := queue.blocks ++ [retired] }

def takeObject (keeper : Keeper σ α π) (retired : Retired α) (rest : List (Retired α)) :
    Action σ Unit := do
  keeper.change fun queue => { queue with objects := rest }
  keeper.destroy retired.object

def takeBlock (keeper : Keeper σ α π) (retired : RetiredBlock π) (rest : List (RetiredBlock π)) :
    Action σ Unit := do
  keeper.change fun queue => { queue with blocks := rest }
  keeper.giveBack retired.parent retired.block

def trimObjects (keeper : Keeper σ α π) (reading : Reading σ) (board : Board) (teardown : Bool) :
    Action σ Nat := do
  let queue := keeper.part.get (← Action.get)
  Action.drain (fun retired => if teardown then return true else retired.mayGo reading board)
    keeper.takeObject queue.objects

def trimBlocks (keeper : Keeper σ α π) (reading : Reading σ) (teardown : Bool) :
    Action σ Nat := do
  let queue := keeper.part.get (← Action.get)
  Action.drain (fun retired => if teardown then return true else retired.mayGo reading)
    keeper.takeBlock queue.blocks

def trim (keeper : Keeper σ α π) (reading : Reading σ) (board : Board) (teardown : Bool) :
    Action σ Bool := do
  let objects ← keeper.trimObjects reading board teardown
  let blocks ← keeper.trimBlocks reading teardown
  if 0 < objects + blocks then Action.note (.retirementTrimmed objects blocks)
  keeper.change fun queue =>
    { queue with
      destroyedObjects := queue.destroyedObjects + objects
      destroyedBlocks := queue.destroyedBlocks + blocks }
  return decide (0 < objects + blocks)

def close (keeper : Keeper σ α π) : Action σ Unit := do
  let queue := keeper.part.get (← Action.get)
  keeper.change fun _ => .empty
  Action.each (fun retired => keeper.destroy retired.object) queue.objects
  Action.each (fun retired => keeper.giveBack retired.parent retired.block) queue.blocks

end Keeper

end Reclaim
