import Reclaim.Word
import Reclaim.Text

namespace Reclaim

inductive Kind where
  | view
  | sampler
  | target
  | depth
deriving DecidableEq

namespace Kind

def all : List Kind := [.view, .sampler, .target, .depth]

def index : Kind → Nat
  | view => 0
  | sampler => 1
  | target => 2
  | depth => 3

def name : Kind → String
  | view => "CbvSrvUav"
  | sampler => "Sampler"
  | target => "Rtv"
  | depth => "Dsv"

def ofName? (text : String) : Option Kind := all.find? (·.name == text)

def canBeShaderVisible : Kind → Bool
  | view | sampler => true
  | target | depth => false

end Kind

structure PerKind (α : Type) where
  view : α
  sampler : α
  target : α
  depth : α

namespace PerKind

variable {α β : Type}

def ofFn (f : Kind → α) : PerKind α := ⟨f .view, f .sampler, f .target, f .depth⟩

def get (m : PerKind α) : Kind → α
  | .view => m.view
  | .sampler => m.sampler
  | .target => m.target
  | .depth => m.depth

def set (m : PerKind α) (kind : Kind) (value : α) : PerKind α :=
  match kind with
  | .view => { m with view := value }
  | .sampler => { m with sampler := value }
  | .target => { m with target := value }
  | .depth => { m with depth := value }

def toList (m : PerKind α) : List α := [m.view, m.sampler, m.target, m.depth]

@[simp] theorem get_set_same (m : PerKind α) (kind : Kind) (value : α) :
    (m.set kind value).get kind = value := by
  cases kind <;> rfl

theorem get_set_other (m : PerKind α) {kind other : Kind} (value : α) (differ : other ≠ kind) :
    (m.set kind value).get other = m.get other := by
  cases kind <;> cases other <;> first | rfl | exact absurd rfl differ

end PerKind

structure HeapDesc where
  kind : Kind
  slots : Nat
  shaderVisible : Bool
deriving DecidableEq

namespace HeapDesc

def cpu (kind : Kind) (slots : Nat) : HeapDesc := ⟨kind, slots, false⟩

def visible (kind : Kind) (slots : Nat) : HeapDesc := ⟨kind, slots, true⟩

def text (desc : HeapDesc) : String :=
  Text.record "DescriptorHeapDesc"
    [("kind", desc.kind.name), ("num_descriptors", toString desc.slots),
      ("shader_visible", toString desc.shaderVisible)]

end HeapDesc

-- The address of one descriptor slot. It is a token and never followed.
abbrev Handle := Nat

namespace Handle

def offset (handle : Handle) (slot stride : Nat) : Except Fault Handle := do
  Word.add handle (← Word.mul slot stride)

def cpuText (handle : Handle) : String := Text.tuple "CpuDescriptorHandle" [Text.address handle]

def gpuText (handle : Handle) : String := Text.tuple "GpuDescriptorHandle" [Text.address handle]

end Handle

-- A free half-open range of handles.
structure Range where
  start : Nat
  stop : Nat
deriving DecidableEq

namespace Range

def bytes (range : Range) : Except Fault Nat := Word.sub range.stop range.start

def text (range : Range) : String :=
  Text.record "FreeRange" [("start", toString range.start), ("end", toString range.stop)]

end Range

end Reclaim
