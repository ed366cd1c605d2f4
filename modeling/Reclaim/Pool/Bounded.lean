import Reclaim.Pool.FenceLine

namespace Reclaim

-- At the bound a retrieval makes no other item: it waits for the oldest fence and takes the item
-- that comes free.
structure BoundedPool (α : Type) where
  line : FenceLine α
  bound : Nat

namespace BoundedPool

variable {σ α : Type}

-- A pool without room for one item could only ever wait.
def ofBound (bound : Nat) : BoundedPool α := ⟨.empty, max bound 1⟩

def unbounded : BoundedPool α := ofBound (Word.limit - 1)

def push (pool : BoundedPool α) (item : α) (fence : Nat) : BoundedPool α :=
  { pool with line := pool.line.push item fence }

def lineOf : Part (BoundedPool α) (FenceLine α) where
  get := line
  put line pool := { pool with line }

inductive Choice (α : Type) where
  | reuse (item : α) (rest : FenceLine α)
  | create
  | wait (fence : Nat)

def choose (pool : BoundedPool α) (reached : Nat) : Choice α :=
  match pool.line.oldest? with
  | none => .create
  | some fence =>
    match pool.line.pop? reached with
    | some (item, rest) => .reuse item rest
    | none => if pool.line.size < pool.bound then .create else .wait fence

-- The wait and the creation run with the pool in place, so they may use it themselves; after the
-- wait the item is the one then at the front.
def retrieve (pool : Part σ (BoundedPool α)) (reached : Nat) (wait : Nat → Action σ Unit)
    (create : Action σ α) : Action σ α := do
  match (pool.get (← Action.get)).choose reached with
  | .reuse item rest =>
    Action.modify ((pool.andThen lineOf).put rest)
    return item
  | .create => create
  | .wait fence =>
    Action.note (.poolFull fence)
    wait fence
    FenceLine.retrieve (pool.andThen lineOf) fence create

def text (pool : BoundedPool α) : String :=
  Text.record "BoundedFencePool"
    [("pool", pool.line.poolText), ("max_in_flight", toString pool.bound)]

end BoundedPool

end Reclaim
