import Reclaim.Device.Machine

namespace Reclaim

inductive CallKind where
  | heap
  | memory
  | buffer
  | wait
deriving DecidableEq

def Call.kind : Call → CallKind
  | heap .. => .heap
  | memory .. => .memory
  | buffer .. => .buffer
  | wait .. => .wait

structure Scripted where
  strides : PerKind Nat
  bases : List Nat
  script : List (CallKind × Outcome)
  completed : Fences
  waitAdvances : Bool

namespace Scripted

def standard : Scripted := ⟨⟨32, 16, 32, 32⟩, [], [], Fences.unused, true⟩

def next (kind : CallKind) : List (CallKind × Outcome) → Outcome × List (CallKind × Outcome)
  | [] => (.done, [])
  | (key, outcome) :: rest =>
    if key = kind then (outcome, rest)
    else
      let (found, kept) := next kind rest
      (found, (key, outcome) :: kept)

def complete (device : Scripted) (queue : Queue) (fence : Nat) : Scripted :=
  { device with completed := device.completed.set queue (max (device.completed.get queue) fence) }

def setCompleted (device : Scripted) (queue : Queue) (fence : Nat) : Scripted :=
  { device with completed := device.completed.set queue fence }

def extend (device : Scripted) (kind : CallKind) (outcomes : List Outcome) : Scripted :=
  { device with script := device.script ++ outcomes.map fun outcome => (kind, outcome) }

def answer (call : Call) (device : Scripted) : Outcome × Scripted :=
  let (outcome, script) := next call.kind device.script
  let device := { device with script }
  match call, outcome with
  | _, .failed _ => (outcome, device)
  | .wait queue fence, _ =>
    (outcome, if device.waitAdvances then device.complete queue fence else device)
  | _, _ => (outcome, device)

-- Heaps lie sixteen megabytes apart unless their places are given.
def cpuStart (device : Scripted) (serial : Nat) : Nat :=
  device.bases.getD serial ((serial + 1) * 0x1000000)

instance : Device Scripted where
  answer := answer
  completed queue device := (device.completed.get queue, device)
  stride device := device.strides.get
  cpuStart := cpuStart
  gpuStart device serial := (1 <<< 40) ||| device.cpuStart serial

end Scripted

inductive DeviceStep where
  | complete (queue : Queue) (fence : Nat)
  | setCompleted (queue : Queue) (fence : Nat)
  | script (kind : CallKind) (outcomes : List Outcome)
  | waitAdvances (advances : Bool)

def DeviceStep.apply : DeviceStep → Scripted → Scripted
  | complete queue fence, device => device.complete queue fence
  | setCompleted queue fence, device => device.setCompleted queue fence
  | script kind outcomes, device => device.extend kind outcomes
  | waitAdvances advances, device => { device with waitAdvances := advances }

end Reclaim
