import Reclaim.Retirement.Queue

namespace Reclaim

inductive Parting (α π : Type) where
  | object (object : α)
  | block (parent : π) (block : Block)

structure Moment where
  timeline : Timeline
  board : Board

structure Register (α π : Type) where
  queue : Retirement α π
  gone : List (Parting α π)

inductive RetirementCall (α π : Type) where
  | object (retired : Retired α)
  | block (retired : RetiredBlock π)
  | trim (teardown : Bool)

variable {α π : Type}

namespace Register

def opened : Register α π := ⟨.empty, []⟩

def queueOf : Part (Register α π) (Retirement α π) where
  get := queue
  put queue register := { register with queue }

def write (parting : Parting α π) : Action (Register α π) Unit :=
  Action.modify fun register => { register with gone := register.gone ++ [parting] }

def keeper : Keeper (Register α π) α π where
  part := queueOf
  destroy object := write (.object object)
  giveBack parent block := write (.block parent block)

def close : Action (Register α π) Unit := keeper.close

end Register

open Register in
def RetirementCall.run (moment : Moment) : RetirementCall α π → Action (Register α π) Unit
  | object retired => keeper.addObject (.still moment.timeline) moment.board retired
  | block retired => keeper.addBlock (.still moment.timeline) retired
  | trim teardown => do
    let _ ← keeper.trim (.still moment.timeline) moment.board teardown

end Reclaim
