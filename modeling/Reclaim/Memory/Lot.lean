import Reclaim.Memory.Dedicated

namespace Reclaim

structure Expected where
  size : Nat
  made : Option (Except Error Memory)

-- The device makes heaps while nobody else is kept waiting.
structure Lot (δ : Type) where
  dedicated : Dedicated
  machine : Machine δ
  waiting : List Expected

-- Allocations on the way are told by place. A caller may give back any block, its own or not.
inductive LotStep (δ : Type) where
  | request (size : Nat)
  | make (place : Nat)
  | conclude (place : Nat)
  | free (block : Block)
  | device (change : δ → δ)

namespace Lot

variable {δ : Type} [Device δ]

def opened (heap : BufferHeap) (device : δ) : Lot δ := ⟨.ofHeap heap, Machine.start device, []⟩

def dedicatedOf : Part (Lot δ) Dedicated where
  get lot := lot.dedicated
  put dedicated lot := { lot with dedicated }

def machineOf : Part (Lot δ) (Machine δ) where
  get lot := lot.machine
  put machine lot := { lot with machine }

def bothOf : Part (Lot δ) (Dedicated × Machine δ) where
  get lot := (lot.dedicated, lot.machine)
  put both lot := { lot with dedicated := both.1, machine := both.2 }

def wait (one : Expected) : Action (Lot δ) MemoryAnswer := do
  Action.modify fun lot => { lot with waiting := one :: lot.waiting }
  return .nothing

def request (size : Nat) : Action (Lot δ) MemoryAnswer := do
  match ← (Action.on dedicatedOf (Dedicated.claim size)).attempt with
  | .error error => return .refused error
  | .ok () => wait ⟨size, none⟩

def resume (place : Nat) : Action (Lot δ) (Option Expected) := do
  let lot ← Action.get
  match lot.waiting[place]? with
  | none => return none
  | some one =>
    Action.modify fun lot => { lot with waiting := lot.waiting.eraseIdx place }
    return some one

def make (place : Nat) : Action (Lot δ) MemoryAnswer := do
  let heap := (← Action.get).dedicated.heap
  match ← resume place with
  | some ⟨size, none⟩ =>
    let made ← (Action.on machineOf (Machine.createMemory heap size)).attempt
    wait ⟨size, some made⟩
  | some ⟨size, some made⟩ => wait ⟨size, some made⟩
  | none => return .nothing

def conclude (place : Nat) : Action (Lot δ) MemoryAnswer := do
  match ← resume place with
  | some ⟨size, some made⟩ =>
    match ← (Action.on bothOf (Dedicated.conclude size made)).attempt with
    | .error error => return .refused error
    | .ok block => return .block block
  | some ⟨size, none⟩ => wait ⟨size, none⟩
  | none => return .nothing

def free (block : Block) : Action (Lot δ) MemoryAnswer := do
  Action.on bothOf (Dedicated.deallocate block)
  return .nothing

end Lot

namespace LotStep

variable {δ : Type} [Device δ]

def run : LotStep δ → Action (Lot δ) MemoryAnswer
  | request size => Lot.request size
  | make place => Lot.make place
  | conclude place => Lot.conclude place
  | free block => Lot.free block
  | device change => do
    Action.modify fun lot =>
      { lot with machine := { lot.machine with device := change lot.machine.device } }
    return .nothing

end LotStep

inductive Lot.Runs {δ : Type} [Device δ] (start : Lot δ) : List MemoryAnswer → Lot δ → Prop where
  | start : Runs start [] start
  | step {answers lot answer after events} (prior : Runs start answers lot) (step : LotStep δ)
      (ran : step.run lot = ⟨.ok answer, after, events⟩) : Runs start (answers ++ [answer]) after

end Reclaim
