import Reclaim.Action

namespace Reclaim

-- Nothing else is assumed of a device, so what is so of a `Machine` is so with any device.
class Device (δ : Type) where
  answer : Call → δ → Outcome × δ
  -- how far a queue has come; the device goes on while it is asked
  completed : Queue → δ → Nat × δ
  stride : δ → Kind → Nat
  -- addresses of the heap with the given number
  cpuStart : δ → Nat → Nat
  gpuStart : δ → Nat → Nat

structure Machine (δ : Type) where
  device : δ
  heapsMade : Nat
  memoriesMade : Nat
  buffersMade : Nat
  live : List Resource

-- A descriptor heap object. Only a heap that shaders can address has a GPU start.
structure HeapObject where
  serial : Nat
  cpuStart : Nat
  gpuStart : Option Nat
deriving DecidableEq

structure Memory where
  serial : Nat
deriving DecidableEq

structure Buffer where
  id : Nat
  size : Nat
  heap : BufferHeap
deriving DecidableEq

namespace Machine

variable {δ : Type} [Device δ]

def start (device : δ) : Machine δ := ⟨device, 0, 0, 0, []⟩

def ask (call : Call) : Action (Machine δ) Outcome := fun machine =>
  let (outcome, device) := Device.answer call machine.device
  ⟨.ok outcome, { machine with device }, [.asked call outcome]⟩

def createHeap (desc : HeapDesc) : Action (Machine δ) HeapObject := do
  let outcome ← ask (.heap desc)
  let machine ← Action.get
  let serial := machine.heapsMade
  let gpuStart :=
    if desc.shaderVisible && outcome = .done then some (Device.gpuStart machine.device serial)
    else none
  match outcome with
  | .failed error => Action.refuse error
  | _ =>
    Action.modify fun m =>
      { m with heapsMade := serial + 1, live := .heap serial :: m.live }
    return ⟨serial, Device.cpuStart machine.device serial, gpuStart⟩

def createMemory (heap : BufferHeap) (size : Nat) : Action (Machine δ) Memory := do
  match ← ask (.memory heap size) with
  | .failed error => Action.refuse error
  | _ =>
    let serial := (← Action.get).memoriesMade
    Action.modify fun m =>
      { m with memoriesMade := serial + 1, live := .memory serial :: m.live }
    return ⟨serial⟩

def createBuffer (heap : BufferHeap) (size : Nat) : Action (Machine δ) Buffer := do
  match ← ask (.buffer heap size) with
  | .failed error => Action.refuse error
  | _ =>
    let id := (← Action.get).buffersMade + 1
    Action.modify fun m => { m with buffersMade := id, live := .buffer id :: m.live }
    return ⟨id, size, heap⟩

def look (queue : Queue) : Action (Machine δ) Nat := fun machine =>
  let (fence, device) := Device.completed queue machine.device
  ⟨.ok fence, { machine with device }, []⟩

def wait (queue : Queue) (fence : Nat) : Action (Machine δ) Unit := do
  match ← ask (.wait queue fence) with
  | .failed error => Action.refuse error
  | _ => return ()

def drop (resource : Resource) : Action (Machine δ) Unit := do
  Action.modify fun machine => { machine with live := machine.live.erase resource }
  Action.emit (.dropped resource)

def liveHeaps (machine : Machine δ) : Nat :=
  machine.live.countP fun resource => match resource with | .heap _ => true | _ => false

def liveMemories (machine : Machine δ) : Nat :=
  machine.live.countP fun resource => match resource with | .memory _ => true | _ => false

def liveBuffers (machine : Machine δ) : Nat :=
  machine.live.countP fun resource => match resource with | .buffer _ => true | _ => false

end Machine

end Reclaim
