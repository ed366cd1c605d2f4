import Reclaim.Word
import Reclaim.Text

namespace Reclaim

inductive BufferHeap where
  | upload
  | readback
deriving DecidableEq

namespace BufferHeap

def all : List BufferHeap := [.upload, .readback]

def name : BufferHeap → String
  | upload => "Upload"
  | readback => "Readback"

def ofName? (text : String) : Option BufferHeap := all.find? (·.name == text)

end BufferHeap

structure PerBufferHeap (α : Type) where
  upload : α
  readback : α

namespace PerBufferHeap

variable {α : Type}

def get (m : PerBufferHeap α) : BufferHeap → α
  | .upload => m.upload
  | .readback => m.readback

def set (m : PerBufferHeap α) (heap : BufferHeap) (value : α) : PerBufferHeap α :=
  match heap with
  | .upload => { m with upload := value }
  | .readback => { m with readback := value }

def toList (m : PerBufferHeap α) : List α := [m.upload, m.readback]

@[simp] theorem get_set_same (m : PerBufferHeap α) (heap : BufferHeap) (value : α) :
    (m.set heap value).get heap = value := by
  cases heap <;> rfl

theorem get_set_other (m : PerBufferHeap α) {heap other : BufferHeap} (value : α)
    (differ : other ≠ heap) : (m.set heap value).get other = m.get other := by
  cases heap <;> cases other <;> first | rfl | exact absurd rfl differ

end PerBufferHeap

structure Block where
  offset : Nat
  size : Nat
  heap : Nat
deriving DecidableEq

namespace Block

def stop (block : Block) : Except Fault Nat := Word.add block.offset block.size

def text (block : Block) : String :=
  Text.record "SuballocationBlock"
    [("offset", toString block.offset), ("size", toString block.size),
      ("heap_id", toString block.heap)]

end Block

inductive MemoryAnswer where
  | nothing
  | block (block : Block)
  | refused (error : Error)
  | freed (block : Option Block)
  | text (text : String)
deriving DecidableEq

end Reclaim
