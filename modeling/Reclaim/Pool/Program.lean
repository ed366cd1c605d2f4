import Reclaim.Pool.Bounded
import Reclaim.Pool.Bucket

namespace Reclaim

-- What the pools have in common. Pools without sizes ignore them.
class Recycler (P : Type) where
  put : Nat → Nat → Nat → Action P Unit
  retrieve : {σ : Type} → Part σ P → Nat → Nat → (Nat → Action σ Unit) → (Nat → Action σ Nat) →
    Action σ Nat
  evict : Nat → Nat → Action P Nat
  text : P → String

instance : Recycler (FenceLine Nat) where
  put _ id fence := Action.modify (·.push id fence)
  retrieve pool _ reached _ create := FenceLine.retrieve pool reached (create 0)
  evict threshold reached := fun line =>
    match line.evict? threshold reached with
    | some (_, rest) => ⟨.ok 1, rest, []⟩
    | none => ⟨.ok 0, line, []⟩
  text := FenceLine.poolText

instance : Recycler (BoundedPool Nat) where
  put _ id fence := Action.modify (·.push id fence)
  retrieve pool _ reached wait create := BoundedPool.retrieve pool reached wait (create 0)
  evict threshold reached := Action.on BoundedPool.lineOf (Recycler.evict threshold reached)
  text := BoundedPool.text

-- Buckets are trimmed by the threshold they were made with.
instance : Recycler (BucketPool Nat) where
  put size id fence := do
    let pool ← Action.get
    match pool.push? size id fence with
    | some pool => Action.modify fun _ => pool
    | none => Action.note (.bucketsRefused (BucketPool.bucket pool.multiple size + 1))
  retrieve pool size reached _ create := BucketPool.retrieve pool size reached create
  evict _ reached := fun pool =>
    let (items, rest) := pool.evict reached
    ⟨.ok items.length, rest, []⟩
  text := BucketPool.text

mutual

inductive PoolStep where
  | put (size id fence : Nat)
  | retrieve (size reached : Nat) (wait create : Callback)
  | evict (threshold reached : Nat)
  | describe

inductive Callback where
  | mk (during : List PoolStep) (reply : Except Error Nat)

end

mutual

inductive PoolAnswer where
  | nothing
  | evicted (count : Nat)
  | text (text : String)
  | retrieved (heard : List Heard) (got : Except Error Nat)

inductive Heard where
  | create (bytes : Nat)
  | wait (fence : Nat)
  | answer (answer : PoolAnswer)

end

structure Watched (P : Type) where
  pool : P
  heard : List Heard

namespace Watched

variable {P : Type}

def poolOf : Part (Watched P) P where
  get := pool
  put pool watched := { watched with pool }

def hear (heard : Heard) : Action (Watched P) Unit :=
  Action.modify fun watched => { watched with heard := watched.heard ++ [heard] }

-- What is heard inside belongs to the answer and not to the retrieval around it.
def listen {α : Type} (x : Action (Watched P) α) :
    Action (Watched P) (List Heard × Except Error α) := do
  let outer := (← Action.get).heard
  Action.modify fun watched => { watched with heard := [] }
  let got ← x.attempt
  let inner := (← Action.get).heard
  Action.modify fun watched => { watched with heard := outer }
  return (inner, got)

end Watched

variable {P : Type} [Recycler P]

mutual

def PoolStep.run : PoolStep → Action (Watched P) PoolAnswer
  | .put size id fence => do
    Action.on Watched.poolOf (Recycler.put size id fence)
    return .nothing
  | .retrieve size reached wait create => do
    let (heard, got) ← Watched.listen <|
      Recycler.retrieve Watched.poolOf size reached
        (fun fence => do
          Watched.hear (.wait fence)
          let _ ← wait.run)
        (fun bytes => do
          Watched.hear (.create bytes)
          create.run)
    return .retrieved heard got
  | .evict threshold reached => do
    return .evicted (← Action.on Watched.poolOf (Recycler.evict threshold reached))
  | .describe => do
    return .text (Recycler.text (← Action.get).pool)

def Callback.run : Callback → Action (Watched P) Nat
  | .mk during reply => do
    Callback.runAll during
    Action.settle reply

def Callback.runAll : List PoolStep → Action (Watched P) Unit
  | [] => return ()
  | step :: rest => do
    let answer ← step.run
    Watched.hear (.answer answer)
    Callback.runAll rest

end

end Reclaim
