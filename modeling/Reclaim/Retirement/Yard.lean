import Reclaim.Retirement.Queue
import Reclaim.Memory.Dedicated

namespace Reclaim

structure Yard (δ : Type) where
  timeline : Timeline
  board : Board
  queue : Retirement Nat Unit
  allocator : Dedicated
  machine : Machine δ

inductive YardStep where
  | object (id : Nat) (last : Fences) (completion : Bool) (waits : List Wait)
  | block (size : Nat) (last : Fences)
  | trim (teardown : Bool)
  | complete (queue : Queue) (fence : Nat)
  | record (queue : Queue) (fence : Nat)
  | signal (fence value : Nat)
  | drop
deriving DecidableEq

inductive YardAnswer where
  | nothing
  | block (block : Block)
  | trimmed (any : Bool)

namespace Yard

variable {δ : Type} [Device δ]

def opened (device : δ) (timeline : Timeline) (board : Board) : Yard δ :=
  ⟨timeline, board, .empty, .ofHeap .upload, .start device⟩

def queueOf : Part (Yard δ) (Retirement Nat Unit) where
  get := queue
  put queue yard := { yard with queue }

def allocatorOf : Part (Yard δ) (Dedicated × Machine δ) where
  get yard := (yard.allocator, yard.machine)
  put both yard := { yard with allocator := both.1, machine := both.2 }

def machineOf : Part (Yard δ) (Machine δ) where
  get := machine
  put machine yard := { yard with machine }

def destroy (id : Nat) : Action (Yard δ) Unit :=
  Action.on machineOf (Machine.drop (.object id))

def giveBack (_ : Unit) (block : Block) : Action (Yard δ) Unit :=
  Action.on allocatorOf (Dedicated.deallocate block)

def allocate (size : Nat) : Action (Yard δ) Block := Action.on allocatorOf (Dedicated.allocate size)

def keeper : Keeper (Yard δ) Nat Unit := ⟨queueOf, destroy, giveBack⟩

end Yard

open Yard in
def YardStep.run {δ : Type} [Device δ] : YardStep → Action (Yard δ) YardAnswer
  | object id last completion waits => do
    let yard ← Action.get
    keeper.addObject (.still yard.timeline) yard.board ⟨id, last, completion, waits⟩
    return .nothing
  | block size last => do
    let block ← Yard.allocate size
    let yard ← Action.get
    keeper.addBlock (.still yard.timeline) ⟨block, (), last⟩
    return .block block
  | trim teardown => do
    let yard ← Action.get
    return .trimmed (← keeper.trim (.still yard.timeline) yard.board teardown)
  | complete queue fence => do
    Action.modify fun yard =>
      { yard with timeline.completed := yard.timeline.completed.set queue fence }
    return .nothing
  | record queue fence => do
    Action.modify fun yard =>
      { yard with timeline.recording := yard.timeline.recording.set queue fence }
    return .nothing
  | signal fence value => do
    Action.modify fun yard => { yard with board := yard.board.signal fence value }
    return .nothing
  | drop => do
    keeper.close
    return .nothing

end Reclaim
