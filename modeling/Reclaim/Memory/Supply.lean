import Reclaim.Memory.Buddy
import Reclaim.Memory.Dedicated

namespace Reclaim

inductive Supply where
  | buddy (buddy : Buddy)
  | dedicated (dedicated : Dedicated)

-- An allocation whose device heap is being made.
inductive Ticket where
  | claim (claim : Claim)
  | size (size : Nat)
deriving DecidableEq

inductive Grant where
  | block (block : Block)
  -- a device heap of so many bytes is needed first
  | pending (bytes : Nat) (ticket : Ticket)
deriving DecidableEq

def needsOwnHeap (size threshold : Nat) (cannotBeOffset : Bool) : Bool :=
  threshold < size || cannotBeOffset

namespace Supply

variable {σ δ : Type} [Device δ]

def choose (heap : BufferHeap) (useBuddy : Bool) (layout : BuddyLayout) : Action σ Supply := do
  if useBuddy then
    Action.note (.blocksChosen heap layout.capacity layout.minBlock layout.heapSize)
    return .buddy (← Action.settle (Buddy.ofLayout? heap layout))
  else
    Action.note (.heapsChosen heap)
    return .dedicated (.ofHeap heap)

def heap : Supply → BufferHeap
  | buddy b => b.heap
  | dedicated d => d.heap

def byKind {α : Type} (onBuddy : Action (Buddy × Machine δ) α)
    (onDedicated : Action (Dedicated × Machine δ) α) : Action (Supply × Machine δ) α := fun state =>
  match state with
  | (buddy b, machine) =>
    let run := onBuddy (b, machine)
    ⟨run.result, (buddy run.state.1, run.state.2), run.events⟩
  | (dedicated d, machine) =>
    let run := onDedicated (d, machine)
    ⟨run.result, (dedicated run.state.1, run.state.2), run.events⟩

def claim (size : Nat) : Action (Supply × Machine δ) Grant :=
  byKind
    (do
      match ← Action.on Buddy.buddyOf (Buddy.claim size) with
      | .inl block => return .block block
      | .inr claim => return .pending (← Action.get).1.heapSize (.claim claim))
    (do
      Action.on Dedicated.dedicatedOf (Dedicated.claim size)
      return .pending size (.size size))

-- A ticket is good at the supply that wrote it.
def conclude (ticket : Ticket) (made : Except Error Memory) : Action (Supply × Machine δ) Block :=
  byKind
    (match ticket with
      | .claim claim => Buddy.conclude claim made
      | .size _ => Action.refuse .invalidParameter)
    (match ticket with
      | .size size => Dedicated.conclude size made
      | .claim _ => Action.refuse .invalidParameter)

def machineOf : Part (Supply × Machine δ) (Machine δ) := .second

-- Allocates a block. `meanwhile` is what else goes on while the device makes a heap; it may use the
-- same supply.
def allocateWhile (part : Part σ (Supply × Machine δ)) (meanwhile : Action σ Unit) (size : Nat) :
    Action σ Block := do
  match ← Action.on part (claim size) with
  | .block block => return block
  | .pending bytes ticket =>
    let heap := (part.get (← Action.get)).1.heap
    let made ← Action.on (part.andThen machineOf) (Machine.createMemory heap bytes).attempt
    meanwhile
    Action.on part (conclude ticket made)

def allocate (size : Nat) : Action (Supply × Machine δ) Block :=
  allocateWhile .whole (return ()) size

def deallocate (block : Block) : Action (Supply × Machine δ) Unit :=
  byKind (Buddy.deallocate block) (Dedicated.deallocate block)

def usedBytes : Supply → Nat
  | buddy b => b.used
  | dedicated d => d.used

def blockCount : Supply → Nat
  | buddy b => b.taken.length
  | dedicated d => d.live.length

def heapCount : Supply → Nat
  | buddy b => b.backing.length
  | dedicated d => d.live.length

def memories : Supply → List Memory
  | buddy b => b.backing.map fun entry => entry.2.memory
  | dedicated d => d.live.map fun entry => entry.2.memory

def text : Supply → String
  | buddy b => b.text
  | dedicated d => d.text

end Supply

end Reclaim
