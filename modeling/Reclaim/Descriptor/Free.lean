import Reclaim.Descriptor.Basic

namespace Reclaim

namespace Range

-- Gives back `[start, stop)` among ranges that all lie behind it.
def joinFront (start stop : Nat) : List Range → List Range
  | [] => [⟨start, stop⟩]
  | next :: rest =>
    if next.start = stop then ⟨start, next.stop⟩ :: rest else ⟨start, stop⟩ :: next :: rest

-- Gives back `[start, stop)`. Nothing comes of it if the range before already reaches past `start`:
-- the slot is free.
def giveBack (start stop : Nat) : List Range → Option (List Range)
  | [] => some [⟨start, stop⟩]
  | [range] =>
    if start < range.start then some (joinFront start stop [range])
    else if start < range.stop then none
    else if range.stop = start then some [⟨range.start, stop⟩]
    else some [range, ⟨start, stop⟩]
  | range :: next :: rest =>
    if start < range.start then some (joinFront start stop (range :: next :: rest))
    else if next.start ≤ start then (giveBack start stop (next :: rest)).map (range :: ·)
    else if start < range.stop then none
    else if range.stop = start then some (joinFront range.start stop (next :: rest))
    else some (range :: joinFront start stop (next :: rest))

def slotCount (stride : Nat) (ranges : List Range) : Except Fault Nat := do
  let sizes ← ranges.mapM bytes
  return sizes.foldl (· + ·) 0 / stride

end Range

end Reclaim
