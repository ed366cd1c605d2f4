import Reclaim.Memory.Supply
import Reclaim.Held

namespace Reclaim

inductive MemoryStep (δ : Type) where
  | allocate (size : Nat)
  -- an allocation and what its caller does while the device makes a heap for it, if it makes one
  | allocateWhile (size : Nat) (meanwhile : List (MemoryStep δ))
  | free (place : Nat) (keep : Bool)
  | freeBlock (block : Block)
  | describe
  -- the device changes by itself
  | device (change : δ → δ)

structure MemoryClient (δ : Type) where
  supply : Supply
  machine : Machine δ
  held : List Block

namespace MemoryClient

variable {δ : Type} [Device δ]

def supplyOf : Part (MemoryClient δ) (Supply × Machine δ) where
  get client := (client.supply, client.machine)
  put both client := { client with supply := both.1, machine := both.2 }

def give (block : Block) : Action (MemoryClient δ) Unit :=
  Action.on supplyOf (Supply.deallocate block)

def hold (allocation : Action (MemoryClient δ) Block) : Action (MemoryClient δ) MemoryAnswer := do
  match ← allocation.attempt with
  | .error error => return .refused error
  | .ok block =>
    Action.modify fun client => { client with held := client.held ++ [block] }
    return .block block

end MemoryClient

mutual

def MemoryStep.run {δ : Type} [Device δ] : MemoryStep δ → Action (MemoryClient δ) MemoryAnswer
  | .allocate size => MemoryClient.hold (Action.on MemoryClient.supplyOf (Supply.allocate size))
  | .allocateWhile size meanwhile =>
    let between : Action (MemoryClient δ) Unit := do
      Action.emit (.meanwhile (← MemoryStep.runAll meanwhile))
    MemoryClient.hold (Supply.allocateWhile MemoryClient.supplyOf between size)
  | .free place keep => do
    match Held.pick? (← Action.get).held place keep with
    | none => return .freed none
    | some (block, held) =>
      Action.modify fun client => { client with held }
      MemoryClient.give block
      return .freed (some block)
  | .freeBlock block => do
    MemoryClient.give block
    return .nothing
  | .describe => return .text (← Action.get).supply.text
  | .device change => do
    Action.modify fun client =>
      { client with machine := { client.machine with device := change client.machine.device } }
    return .nothing

def MemoryStep.runAll {δ : Type} [Device δ] :
    List (MemoryStep δ) → Action (MemoryClient δ) (List MemoryAnswer)
  | [] => return []
  | step :: rest => do
    let answer ← step.run
    return answer :: (← MemoryStep.runAll rest)

end

end Reclaim
