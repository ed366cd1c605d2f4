import Reclaim.Action

namespace Reclaim

structure Waiting (α : Type) where
  fence : Nat
  item : α
deriving DecidableEq

-- Only the item at the front is ever looked at: returns come in fence order, so its fence is the
-- least.
structure FenceLine (α : Type) where
  entries : List (Waiting α)

namespace FenceLine

variable {σ α : Type}

def empty : FenceLine α := ⟨[]⟩

def push (line : FenceLine α) (item : α) (fence : Nat) : FenceLine α :=
  ⟨line.entries ++ [⟨fence, item⟩]⟩

def oldest? (line : FenceLine α) : Option Nat := line.entries.head?.map (·.fence)

def size (line : FenceLine α) : Nat := line.entries.length

def pop? (line : FenceLine α) (reached : Nat) : Option (α × FenceLine α) :=
  match line.entries with
  | [] => none
  | front :: rest => if front.fence ≤ reached then some (front.item, ⟨rest⟩) else none

def evict? (line : FenceLine α) (threshold reached : Nat) : Option (α × FenceLine α) :=
  match line.entries with
  | [] => none
  | front :: rest =>
    if front.fence ≤ reached ∧ threshold ≤ reached - front.fence then some (front.item, ⟨rest⟩)
    else none

def retrieve (line : Part σ (FenceLine α)) (reached : Nat) (create : Action σ α) :
    Action σ α := do
  match (line.get (← Action.get)).pop? reached with
  | some (item, rest) =>
    Action.modify (line.put rest)
    return item
  | none => create

def lineText (item : α → String) (line : FenceLine α) : String :=
  Text.record "FenceQueue"
    [("entries", Text.list (line.entries.map fun entry =>
      Text.record "PoolEntry"
        [("fence_value", toString entry.fence), ("resource", item entry.item)]))]

def poolText (line : FenceLine α) : String :=
  Text.record "FencePool"
    [("len", toString line.size), ("oldest_fence", Text.optional (line.oldest?.map toString))]

end FenceLine

end Reclaim
