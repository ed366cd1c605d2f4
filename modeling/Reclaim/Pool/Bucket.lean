import Reclaim.Pool.FenceLine

namespace Reclaim

-- Bucket `i` serves the sizes that round up to `i + 1` times the multiple, and its items are
-- made at that size.
structure BucketPool (α : Type) where
  multiple : Nat
  threshold : Nat
  buckets : List (FenceLine α)

namespace BucketPool

variable {σ α : Type}

def ofThreshold (multiple threshold : Nat) : BucketPool α := ⟨multiple, threshold, []⟩

def bucket (multiple size : Nat) : Nat := (size - 1) / multiple

def alignedSize (multiple size : Nat) : Except Fault Nat := do
  Word.mul (← Word.add (bucket multiple size) 1) multiple

-- An array of more buckets would not fit the address space.
def maxBuckets : Nat := (1 <<< 58) - 1

def size (pool : BucketPool α) : Nat := pool.buckets.foldl (· + ·.size) 0

-- Puts an item into the bucket of the size it was asked for. `none`: that bucket cannot exist.
def push? (pool : BucketPool α) (size : Nat) (item : α) (fence : Nat) : Option (BucketPool α) :=
  let index := bucket pool.multiple size
  if index < maxBuckets then
    let missing := index + 1 - pool.buckets.length
    let buckets := pool.buckets ++ List.replicate missing .empty
    some { pool with buckets := buckets.modify index (·.push item fence) }
  else none

def pop? (pool : BucketPool α) (size reached : Nat) : Option (α × BucketPool α) :=
  let index := bucket pool.multiple size
  match pool.buckets[index]? with
  | none => none
  | some line =>
    match line.pop? reached with
    | none => none
    | some (item, rest) => some (item, { pool with buckets := pool.buckets.set index rest })

-- At most one item leaves each bucket; the items are given in bucket order.
def evictEach (threshold reached : Nat) : List (FenceLine α) → List α × List (FenceLine α)
  | [] => ([], [])
  | line :: rest =>
    let (items, lines) := evictEach threshold reached rest
    match line.evict? threshold reached with
    | some (item, line) => (item :: items, line :: lines)
    | none => (items, line :: lines)

def evict (pool : BucketPool α) (reached : Nat) : List α × BucketPool α :=
  let (items, buckets) := evictEach pool.threshold reached pool.buckets
  (items, { pool with buckets })

-- Only a creation needs the aligned size, so only a creation can find that it does not fit.
def retrieve (pool : Part σ (BucketPool α)) (size reached : Nat) (create : Nat → Action σ α) :
    Action σ α := do
  let before := pool.get (← Action.get)
  match before.pop? size reached with
  | some (item, rest) =>
    Action.modify (pool.put rest)
    return item
  | none =>
    let aligned ← alignedSize before.multiple size
    Action.note (.bucketMiss aligned)
    create aligned

def text (pool : BucketPool α) : String :=
  Text.record "MultiLevelPool"
    [("multiple", toString pool.multiple), ("buckets", toString pool.buckets.length),
      ("len", toString pool.size), ("trim_threshold", toString pool.threshold)]

end BucketPool

end Reclaim
