import Reclaim.Fence
import Reclaim.Action

namespace Reclaim

-- How a timeline is read. Nothing is asked before it is needed, and what has been asked once may
-- have moved when it is asked again.
structure Reading (σ : Type) where
  completed : Queue → Action σ Nat
  recording : Queue → Action σ Nat

namespace Reading

variable {σ : Type}

def still (timeline : Timeline) : Reading σ where
  completed queue := return timeline.completed.get queue
  recording queue := return timeline.recording.get queue

def isDone (reading : Reading σ) (completion : Bool) (queue : Queue) (fence : Nat) :
    Action σ Bool := do
  if fence = 0 then return true
  else if completion then return decide (fence ≤ (← reading.completed queue))
  else return decide (fence < (← reading.recording queue))

def areDone (reading : Reading σ) (completion : Bool) (last : Fences) : List Queue → Action σ Bool
  | [] => return true
  | queue :: rest => do
    if ← reading.isDone completion queue (last.get queue) then areDone reading completion last rest
    else return false

def allows (reading : Reading σ) (board : Board) (completion : Bool) (last : Fences)
    (waits : List Wait) : Action σ Bool := do
  if ← reading.areDone completion last Queue.all then return board.satisfiesAll waits
  else return false

end Reading

end Reclaim
