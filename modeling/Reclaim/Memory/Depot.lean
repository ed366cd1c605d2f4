import Reclaim.Memory.Buddy

namespace Reclaim

structure Suspended where
  claim : Claim
  made : Option (Except Error Memory)

-- Any number of allocations may wait for their device heap at once.
structure Depot (δ : Type) where
  buddy : Buddy
  machine : Machine δ
  held : List Block
  waiting : List Suspended

-- Suspended allocations and held blocks are told by place.
inductive DepotStep (δ : Type) where
  | request (size : Nat)
  | make (place : Nat)
  | conclude (place : Nat)
  | free (place : Nat)
  | device (change : δ → δ)

namespace Depot

variable {δ : Type} [Device δ]

def opened (buddy : Buddy) (device : δ) : Depot δ := ⟨buddy, Machine.start device, [], []⟩

def buddyOf : Part (Depot δ) Buddy where
  get depot := depot.buddy
  put buddy depot := { depot with buddy }

def machineOf : Part (Depot δ) (Machine δ) where
  get depot := depot.machine
  put machine depot := { depot with machine }

def bothOf : Part (Depot δ) (Buddy × Machine δ) where
  get depot := (depot.buddy, depot.machine)
  put both depot := { depot with buddy := both.1, machine := both.2 }

def hold (block : Block) : Action (Depot δ) MemoryAnswer := do
  Action.modify fun depot => { depot with held := block :: depot.held }
  return .block block

def wait (one : Suspended) : Action (Depot δ) MemoryAnswer := do
  Action.modify fun depot => { depot with waiting := one :: depot.waiting }
  return .nothing

def request (size : Nat) : Action (Depot δ) MemoryAnswer := do
  match ← (Action.on buddyOf (Buddy.claim size)).attempt with
  | .error error => return .refused error
  | .ok (.inl block) => hold block
  | .ok (.inr claim) => wait ⟨claim, none⟩

def resume (place : Nat) : Action (Depot δ) (Option Suspended) := do
  let depot ← Action.get
  match depot.waiting[place]? with
  | none => return none
  | some one =>
    Action.modify fun depot => { depot with waiting := depot.waiting.eraseIdx place }
    return some one

def make (place : Nat) : Action (Depot δ) MemoryAnswer := do
  let buddy := (← Action.get).buddy
  match ← resume place with
  | some ⟨claim, none⟩ =>
    let made ← (Action.on machineOf (Machine.createMemory buddy.heap buddy.heapSize)).attempt
    wait ⟨claim, some made⟩
  | some ⟨claim, some made⟩ => wait ⟨claim, some made⟩
  | none => return .nothing

def conclude (place : Nat) : Action (Depot δ) MemoryAnswer := do
  match ← resume place with
  | some ⟨claim, some made⟩ =>
    match ← (Action.on bothOf (Buddy.conclude claim made)).attempt with
    | .error error => return .refused error
    | .ok block => hold block
  | some ⟨claim, none⟩ => wait ⟨claim, none⟩
  | none => return .nothing

def free (place : Nat) : Action (Depot δ) MemoryAnswer := do
  match (← Action.get).held[place]? with
  | none => return .freed none
  | some block =>
    Action.modify fun depot => { depot with held := depot.held.eraseIdx place }
    Action.on bothOf (Buddy.deallocate block)
    return .freed (some block)

end Depot

namespace DepotStep

variable {δ : Type} [Device δ]

def run : DepotStep δ → Action (Depot δ) MemoryAnswer
  | request size => Depot.request size
  | make place => Depot.make place
  | conclude place => Depot.conclude place
  | free place => Depot.free place
  | device change => do
    Action.modify fun depot =>
      { depot with machine := { depot.machine with device := change depot.machine.device } }
    return .nothing

end DepotStep

inductive Depot.Reached {δ : Type} [Device δ] (start : Depot δ) : Depot δ → Prop where
  | start : Reached start start
  | step {depot : Depot δ} (prior : Reached start depot) (step : DepotStep δ) :
      Reached start (step.run depot).state

end Reclaim
