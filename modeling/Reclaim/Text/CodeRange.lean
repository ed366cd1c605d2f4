namespace Reclaim

structure CodeRange where
  first : Nat
  last : Nat
deriving DecidableEq

namespace CodeRange

def ofPairs (pairs : List (Nat × Nat)) : List CodeRange := pairs.map fun pair => ⟨pair.1, pair.2⟩

def covers (ranges : List CodeRange) (c : Char) : Bool :=
  ranges.any fun range => range.first ≤ c.toNat && c.toNat ≤ range.last

end CodeRange

end Reclaim
