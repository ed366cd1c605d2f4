import Reclaim.Text

namespace Reclaim

-- Each queue numbers its batches from 1. The number of a batch is its fence, and 0 is never
-- used.
inductive Queue where
  | graphics
  | compute
  | copy
deriving DecidableEq

namespace Queue

def all : List Queue := [.graphics, .compute, .copy]

def index : Queue → Nat
  | graphics => 0
  | compute => 1
  | copy => 2

def name : Queue → String
  | graphics => "Graphics"
  | compute => "Compute"
  | copy => "Copy"

theorem mem_all (queue : Queue) : queue ∈ all := by
  cases queue <;> decide

end Queue

-- A set of queues, one bit each. Bits that name no queue are carried along.
structure QueueMask where
  bits : Nat
deriving DecidableEq

namespace QueueMask

def width : Nat := 32

def ofQueue (queue : Queue) : QueueMask := ⟨1 <<< queue.index⟩

def empty : QueueMask := ⟨0⟩

def all : QueueMask := ⟨7⟩

def ofBits? (bits : Nat) : Option QueueMask :=
  if bits &&& all.bits = bits then some ⟨bits⟩ else none

def truncate (bits : Nat) : QueueMask := ⟨bits &&& all.bits⟩

def has (mask : QueueMask) (queue : Queue) : Bool := mask.bits.testBit queue.index

def union (a b : QueueMask) : QueueMask := ⟨a.bits ||| b.bits⟩

def inter (a b : QueueMask) : QueueMask := ⟨a.bits &&& b.bits⟩

def minus (a b : QueueMask) : QueueMask := ⟨a.bits ^^^ (a.bits &&& b.bits)⟩

def contains (a b : QueueMask) : Bool := a.bits &&& b.bits == b.bits

def isEmpty (mask : QueueMask) : Bool := mask.bits == 0

def isAll (mask : QueueMask) : Bool := mask.contains all

def names (mask : QueueMask) : List String :=
  let known := (Queue.all.filter mask.has).map (·.name.toUpper)
  let unknown := (mask.minus all).bits
  if unknown = 0 then known else known ++ [Text.hex unknown]

def text (mask : QueueMask) : String :=
  if mask.isEmpty then Text.tuple "QueueMask" [Text.hex 0]
  else Text.tuple "QueueMask" [" | ".intercalate mask.names]

end QueueMask

structure PerQueue (α : Type) where
  graphics : α
  compute : α
  copy : α
deriving DecidableEq

namespace PerQueue

variable {α β : Type}

def ofFn (f : Queue → α) : PerQueue α := ⟨f .graphics, f .compute, f .copy⟩

def get (m : PerQueue α) : Queue → α
  | .graphics => m.graphics
  | .compute => m.compute
  | .copy => m.copy

def set (m : PerQueue α) (queue : Queue) (value : α) : PerQueue α :=
  match queue with
  | .graphics => { m with graphics := value }
  | .compute => { m with compute := value }
  | .copy => { m with copy := value }

def toList (m : PerQueue α) : List α := [m.graphics, m.compute, m.copy]

def map (f : α → β) (m : PerQueue α) : PerQueue β := ⟨f m.graphics, f m.compute, f m.copy⟩

def zipWith {γ : Type} (f : α → β → γ) (a : PerQueue α) (b : PerQueue β) : PerQueue γ :=
  ofFn fun queue => f (a.get queue) (b.get queue)

def text (item : α → String) (m : PerQueue α) : String :=
  Text.tuple "QueueMap" [Text.list (m.toList.map item)]

@[simp] theorem get_ofFn (f : Queue → α) (queue : Queue) : (ofFn f).get queue = f queue := by
  cases queue <;> rfl

@[simp] theorem get_set_same (m : PerQueue α) (queue : Queue) (value : α) :
    (m.set queue value).get queue = value := by
  cases queue <;> rfl

theorem get_set_other (m : PerQueue α) {queue other : Queue} (value : α) (differ : other ≠ queue) :
    (m.set queue value).get other = m.get other := by
  cases queue <;> cases other <;> first | rfl | exact absurd rfl differ

end PerQueue

-- One fence per queue: the last batch of each that used something, or the progress of each.
abbrev Fences := PerQueue Nat

namespace Fences

def unused : Fences := ⟨0, 0, 0⟩

def single (queue : Queue) (fence : Nat) : Fences := unused.set queue fence

def isUnused (fences : Fences) : Bool := fences.toList.all (· == 0)

def used (fences : Fences) : QueueMask :=
  (Queue.all.filter fun queue => fences.get queue != 0).foldl
    (fun mask queue => mask.union (.ofQueue queue)) .empty

def merge (a b : Fences) : Fences := a.zipWith max b

def text (fences : Fences) : String := PerQueue.text toString fences

end Fences

end Reclaim
