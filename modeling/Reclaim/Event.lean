import Reclaim.Note

namespace Reclaim

inductive Call where
  | heap (desc : HeapDesc)
  | memory (heap : BufferHeap) (size : Nat)
  | buffer (heap : BufferHeap) (size : Nat)
  | wait (queue : Queue) (fence : Nat)
deriving DecidableEq

-- How the device answers a request. `withoutGpu` makes a heap that shaders cannot address.
inductive Outcome where
  | done
  | withoutGpu
  | failed (error : Error)
deriving DecidableEq

def Outcome.name : Outcome → String
  | done => "ok"
  | withoutGpu => "no_gpu"
  | failed error => error.name

-- A thing with an identity of its own: numbered among the things of its sort, in the order made.
inductive Resource where
  | heap (serial : Nat)
  | memory (serial : Nat)
  | buffer (serial : Nat)
  | object (id : Nat)
deriving DecidableEq

inductive Event where
  | asked (call : Call) (outcome : Outcome)
  | observed (queue : Queue) (fence : Nat)
  | closed (queue : Queue) (fence : Nat)
  | dropped (resource : Resource)
  | noted (note : Note)
  -- other calls have run while the device was busy, and were answered so
  | meanwhile (answers : List MemoryAnswer)
deriving DecidableEq

end Reclaim
