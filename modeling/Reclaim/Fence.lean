import Reclaim.Queue

namespace Reclaim

structure Board where
  values : List Nat
deriving DecidableEq

structure Wait where
  fence : Nat
  value : Nat
deriving DecidableEq

namespace Board

def valueOf (board : Board) (fence : Nat) : Nat := board.values.getD fence 0

def signal (board : Board) (fence value : Nat) : Board := ⟨board.values.modify fence (max value)⟩

def isReached (board : Board) (fence value : Nat) : Bool := value ≤ board.valueOf fence

def satisfies (board : Board) (wait : Wait) : Bool := board.isReached wait.fence wait.value

def satisfiesAll (board : Board) (waits : List Wait) : Bool := waits.all board.satisfies

def waitText (board : Board) (wait : Wait) : String :=
  Text.record "DeferredWait"
    [("fence", Text.record "SharedFence" [("value", toString (board.valueOf wait.fence))]),
      ("value", toString wait.value)]

end Board

-- How far each queue has come: what the device has completed, and the batch being recorded. Every
-- batch below the recorded one has been submitted.
structure Timeline where
  completed : Fences
  recording : Fences
deriving DecidableEq

namespace Timeline

def isReached (timeline : Timeline) (queue : Queue) (fence : Nat) : Bool :=
  fence ≤ timeline.completed.get queue

def isSubmitted (timeline : Timeline) (queue : Queue) (fence : Nat) : Bool :=
  fence < timeline.recording.get queue

-- Whether what was last used at `last` may go. Where `completion` is required the device must have
-- completed each batch; otherwise it is enough that each has been submitted.
def allows (timeline : Timeline) (board : Board) (completion : Bool) (last : Fences)
    (waits : List Wait) : Bool :=
  let done (queue : Queue) : Bool :=
    let fence := last.get queue
    fence == 0 ||
      if completion then timeline.isReached queue fence else timeline.isSubmitted queue fence
  Queue.all.all done && board.satisfiesAll waits

theorem allows_iff {timeline : Timeline} {board : Board} {completion : Bool} {last : Fences}
    {waits : List Wait} :
    timeline.allows board completion last waits = true ↔
      (∀ queue, last.get queue ≠ 0 →
        if completion then last.get queue ≤ timeline.completed.get queue
        else last.get queue < timeline.recording.get queue) ∧
      ∀ wait ∈ waits, wait.value ≤ board.valueOf wait.fence := by
  have every (done : Queue → Bool) : Queue.all.all done = true ↔ ∀ queue, done queue = true := by
    simp [List.all_eq_true, Queue.mem_all]
  simp only [allows, Bool.and_eq_true, every, Bool.or_eq_true, beq_iff_eq, Decidable.or_iff_not_imp_left,
    Board.satisfiesAll, List.all_eq_true, Board.satisfies, Board.isReached, decide_eq_true_eq]
  cases completion <;> simp [isReached, isSubmitted]

end Timeline

end Reclaim
