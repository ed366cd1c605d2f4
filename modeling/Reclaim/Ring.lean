import Reclaim.Action

namespace Reclaim

structure Wave where
  fence : Nat
  slots : Nat
deriving DecidableEq

def Wave.total (waves : List Wave) : Nat := waves.foldr (fun wave sum => wave.slots + sum) 0

-- What is handed out under one fence is a wave. `head` and `tail` only grow between resets: the
-- position of a counter is its remainder by the size, and the slots from `tail` up to `head` are
-- free. The ledger has one place for each wave that may be outstanding at once; `newest` is the
-- place last written, and the places of a run of waves follow each other around the ledger.
structure Ring where
  size : Nat
  head : Nat
  tail : Nat
  ledger : List (Option Wave)
  newest : Nat
deriving DecidableEq

namespace Ring

def maxLedger : Nat := 32

def defaultLedger : Nat := 16

def fresh (size places : Nat) : Ring := ⟨size, size, 0, List.replicate places none, 0⟩

def ofSize (size : Nat) : Ring := fresh size defaultLedger

def ofLedger? (size places : Nat) : Except Error Ring :=
  if places = 0 ∨ maxLedger < places then .error .invalidParameter else .ok (fresh size places)

def places (ring : Ring) : Nat := ring.ledger.length

def waveAt? (ring : Ring) (place : Nat) : Option Wave := ring.ledger.getD place none

def position (ring : Ring) : Nat := ring.tail % ring.size

def outstanding (ring : Ring) : Nat := ring.ledger.countP (·.isSome)

def inFlight (ring : Ring) : Except Fault Nat := do
  Word.sub (← Word.add ring.tail ring.size) ring.head

def openAt (ring : Ring) (place fence : Nat) : Ring :=
  { ring with ledger := ring.ledger.set place (some ⟨fence, 0⟩), newest := place }

-- Makes the newest wave the one that slots asked for under `fence` are charged to. A request under
-- an older fence than the newest wave's is charged to that wave: its slots live at least as long.
def openWave (fence : Nat) : Action Ring Unit := do
  let ring ← Action.get
  match ring.waveAt? ring.newest with
  | none => Action.modify (·.openAt ring.newest fence)
  | some wave =>
    if fence ≤ wave.fence then return ()
    let next := (ring.newest + 1) % ring.places
    if (ring.waveAt? next).isSome then
      Action.note (.ledgerFull ring.outstanding)
      Action.refuse .ledgerExhausted
    else
      Action.modify (·.openAt next fence)

def consume (slots : Nat) : Action Ring Unit := do
  let ring ← Action.get
  let wave := (ring.waveAt? ring.newest).getD ⟨0, 0⟩
  let charged ← Word.add wave.slots slots
  let tail ← Word.add ring.tail slots
  Action.modify fun ring =>
    { ring with
      ledger := ring.ledger.set ring.newest (some { wave with slots := charged })
      tail }

def requireFree (slots : Nat) : Action Ring Unit := do
  let ring ← Action.get
  if ring.head < (← Word.add ring.tail slots) then Action.refuse .ringExhausted

-- Skips what is left before the end of the ring if a run of `slots` slots would cross it. The slots
-- skipped are charged to the newest wave.
def skipEnd (slots : Nat) : Action Ring Unit := do
  let ring ← Action.get
  let skipped := ring.size - ring.position
  if skipped < slots then
    requireFree skipped
    consume skipped

def takeRun (slots : Nat) : Action Ring Nat := do
  requireFree slots
  let start := (← Action.get).position
  consume slots
  return start

-- Hands out `slots` contiguous slots under `fence` and answers where they start. A run that would
-- cross the end of the ring starts at 0 instead.
def allocate (slots fence : Nat) : Action Ring Nat := do
  let ring ← Action.get
  if ring.size = 0 ∨ ring.size < slots then Action.refuse .invalidParameter
  else if slots = 0 then return ring.position
  else
    openWave fence
    skipEnd slots
    takeRun slots

def reached (fence : Nat) : Option Wave → Bool
  | some wave => wave.fence ≤ fence
  | none => false

def deallocate (completed : Nat) : Action Ring Unit := do
  let ring ← Action.get
  let waves := (ring.ledger.filter (reached completed)).filterMap id
  let head ← Word.add ring.head (Wave.total waves)
  Action.modify fun ring =>
    { ring with
      head
      ledger := ring.ledger.map fun place => if reached completed place then none else place }
  Action.each (fun wave => Action.note (.waveReclaimed wave.slots wave.fence)) waves

def reset (ring : Ring) (size : Nat) : Ring := fresh size ring.places

def mask (ring : Ring) : Nat :=
  ring.ledger.foldr (fun place mask => 2 * mask + if place.isSome then 1 else 0) 0

-- All thirty-two places are shown, those past the ledger's end as empty.
def text (ring : Ring) : String :=
  let shown := ring.ledger ++ List.replicate (maxLedger - ring.places) none
  let waves := shown.map fun place =>
    let wave := place.getD ⟨0, 0⟩
    Text.record "Wave"
      [("fence_value", toString wave.fence), ("num_allocations", toString wave.slots)]
  Text.record "FencedRingBuffer"
    [("size", toString ring.size), ("head", toString ring.head), ("tail", toString ring.tail),
      ("ledger", Text.list waves), ("ledger_capacity", toString ring.places),
      ("ledger_mask", toString ring.mask), ("ledger_index", toString ring.newest)]

end Ring

inductive RingStep where
  | allocate (slots fence : Nat)
  | deallocate (completed : Nat)
  | reset (size : Nat)
deriving DecidableEq

def RingStep.run : RingStep → Action Ring (Option Nat)
  | allocate slots fence => some <$> Ring.allocate slots fence
  | deallocate completed => do
    Ring.deallocate completed
    return none
  | reset size => do
    Action.modify (·.reset size)
    return none

end Reclaim
