import Reclaim.Error

namespace Reclaim.Word

-- Counters, sizes and addresses are 64 bits wide. They are kept as natural numbers, and what
-- could leave the range faults and never wraps.
def limit : Nat := 1 <<< 64

def add (a b : Nat) : Except Fault Nat :=
  if a + b < limit then .ok (a + b) else .error .overflow

def sub (a b : Nat) : Except Fault Nat :=
  if b ≤ a then .ok (a - b) else .error .overflow

def mul (a b : Nat) : Except Fault Nat :=
  if a * b < limit then .ok (a * b) else .error .overflow

def powerAbove (n : Nat) : Nat :=
  if n ≤ 1 then 1 else 1 <<< ((n - 1).log2 + 1)

def powerAbove? (n : Nat) : Option Nat :=
  if powerAbove n < limit then some (powerAbove n) else none

theorem add_ok {a b : Nat} (fits : a + b < limit) : add a b = .ok (a + b) := by
  simp [add, fits]

theorem sub_ok {a b : Nat} (le : b ≤ a) : sub a b = .ok (a - b) := by
  simp [sub, le]

theorem mul_ok {a b : Nat} (fits : a * b < limit) : mul a b = .ok (a * b) := by
  simp [mul, fits]

end Reclaim.Word
