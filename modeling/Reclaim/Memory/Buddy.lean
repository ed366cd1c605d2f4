import Reclaim.Memory.Block
import Reclaim.Device.Machine
import Reclaim.Table

namespace Reclaim

structure BuddyLayout where
  capacity : Nat
  minBlock : Nat
  heapSize : Nat
deriving DecidableEq

structure Backing where
  memory : Memory
  blocks : Nat

-- `free` has one stack of offsets for each order; a block of order `k` has `minBlock * 2 ^ k`
-- bytes.
-- `taken` gives the order of each block handed out, by offset.
structure Buddy where
  heap : BufferHeap
  size : Nat
  minBlock : Nat
  heapSize : Nat
  heapCount : Nat
  maxOrder : Nat
  free : List (List Nat)
  taken : Table Nat
  used : Nat
  backing : Table Backing

structure Claim where
  offset : Nat
  order : Nat
deriving DecidableEq

namespace Buddy

variable {δ : Type} [Device δ]

def ofLayout? (heap : BufferHeap) (layout : BuddyLayout) : Except Error Buddy :=
  if layout.minBlock = 0 ∨ layout.heapSize < layout.minBlock ∨
      layout.capacity < layout.heapSize then
    .error .invalidParameter
  else
    match Word.powerAbove? layout.capacity, Word.powerAbove? layout.heapSize with
    | some size, some heapSize =>
      let minBlock := Word.powerAbove layout.minBlock
      let heapCount := size / heapSize
      let maxOrder := (size / minBlock).log2
      if 1 <<< 32 ≤ heapCount then .error .invalidParameter
      else
        .ok {
          heap, size, minBlock, heapSize, heapCount, maxOrder
          free := List.replicate maxOrder [] ++ [[0]]
          taken := [], used := 0, backing := [] }
    | _, _ => .error .invalidParameter

def orderOf (buddy : Buddy) (size : Nat) : Nat :=
  (Word.powerAbove ((size + buddy.minBlock - 1) / buddy.minBlock)).log2

def blockSize (buddy : Buddy) (order : Nat) : Nat := buddy.minBlock <<< order

def stack (buddy : Buddy) (order : Nat) : List Nat := buddy.free.getD order []

def firstFree? (buddy : Buddy) (order : Nat) : Option Nat :=
  (List.range (buddy.maxOrder + 1)).find? fun k => order ≤ k && !(buddy.stack k).isEmpty

-- Halves a block from order `level` down to `order`, keeping its lower half and freeing the upper.
def split (buddy : Buddy) (offset order level : Nat) (free : List (List Nat)) : List (List Nat) :=
  match level with
  | 0 => free
  | below + 1 =>
    if order ≤ below then
      buddy.split offset order below (free.modify below ((offset + buddy.blockSize below) :: ·))
    else free

-- The deepest entry equal to `offset` goes, and the top of the stack takes its place.
def replaceDeepest (offset top : Nat) : List Nat → List Nat
  | [] => []
  | entry :: deeper =>
    if offset ∈ deeper then entry :: replaceDeepest offset top deeper
    else if entry = offset then top :: deeper
    else entry :: deeper

def takeOut? (offset : Nat) : List Nat → Option (List Nat)
  | [] => none
  | top :: deeper =>
    if offset ∈ deeper then some (replaceDeepest offset top deeper)
    else if top = offset then some deeper
    else none

-- Frees a block, joining it with its buddy for as long as that is free. `room` orders are left.
def merge (buddy : Buddy) (free : List (List Nat)) (offset order : Nat) :
    (room : Nat) → List (List Nat)
  | 0 => free.modify order (offset :: ·)
  | room + 1 =>
    let other := offset ^^^ buddy.blockSize order
    match takeOut? other (free.getD order []) with
    | some rest => buddy.merge (free.set order rest) (min offset other) (order + 1) room
    | none => free.modify order (offset :: ·)

def release (offset order : Nat) : Action Buddy Unit := do
  let buddy ← Action.get
  let used ← Word.sub buddy.used (buddy.blockSize order)
  Action.modify fun buddy =>
    { buddy with used, free := buddy.merge buddy.free offset order (buddy.maxOrder - order) }

def blockAt (buddy : Buddy) (claim : Claim) : Block :=
  ⟨claim.offset % buddy.heapSize, buddy.blockSize claim.order, claim.offset / buddy.heapSize⟩

def back (index : Nat) (backing : Backing) : Action Buddy Unit :=
  Action.modify fun buddy => { buddy with backing := buddy.backing.insert index backing }

-- Making a heap takes the device a while in which other calls may come, so an allocation has two
-- halves. The first block of a heap is a mere claim until the device has made the heap.
def claim (size : Nat) : Action Buddy (Block ⊕ Claim) := do
  let buddy ← Action.get
  if buddy.heapSize < size then Action.refuse .invalidParameter
  else
    let order := buddy.orderOf (max size 1)
    match buddy.firstFree? order with
    | none => Action.refuse .outOfDeviceMemory
    | some level =>
      match buddy.stack level with
      | [] => Action.refuse .outOfDeviceMemory
      | offset :: rest =>
        let free := buddy.split offset order level (buddy.free.set level rest)
        let used ← Word.add buddy.used (buddy.blockSize order)
        Action.modify fun buddy =>
          { buddy with free, used, taken := buddy.taken.insert offset order }
        let claim := ⟨offset, order⟩
        let block := buddy.blockAt claim
        match buddy.backing.get? block.heap with
        | some backing =>
          back block.heap { backing with blocks := backing.blocks + 1 }
          return .inl block
        | none => return .inr claim

def buddyOf : Part (Buddy × Machine δ) Buddy := .first

def machineOf : Part (Buddy × Machine δ) (Machine δ) := .second

-- Ends a claim with what the device made. Where another call has backed the heap meanwhile, the
-- second heap is spare and goes; where the device failed, the block goes back.
def conclude (claim : Claim) (made : Except Error Memory) : Action (Buddy × Machine δ) Block := do
  let buddy := (← Action.get).1
  let block := buddy.blockAt claim
  match made with
  | .error error =>
    Action.on buddyOf do
      Action.modify fun buddy => { buddy with taken := buddy.taken.erase claim.offset }
      release claim.offset claim.order
      Action.refuse error
  | .ok memory =>
    match buddy.backing.get? block.heap with
    | some backing =>
      Action.on buddyOf (back block.heap { backing with blocks := backing.blocks + 1 })
      Action.on machineOf (Machine.drop (.memory memory.serial))
    | none =>
      Action.on buddyOf (back block.heap ⟨memory, 1⟩)
      Action.note (.heapBacked buddy.heap block.heap)
    return block

def deallocate (block : Block) : Action (Buddy × Machine δ) Unit := do
  let buddy := (← Action.get).1
  if buddy.heapCount ≤ block.heap ∨ buddy.heapSize ≤ block.offset then
    Action.note (.blockOutside block buddy.heap)
  else
    let offset := block.heap * buddy.heapSize + block.offset
    match buddy.taken.get? offset with
    | none => Action.note (.blockUnknown offset)
    | some order =>
      Action.on buddyOf do
        Action.modify fun buddy => { buddy with taken := buddy.taken.erase offset }
        release offset order
      match buddy.backing.get? block.heap with
      | none => return ()
      | some backing =>
        let blocks ← Word.sub backing.blocks 1
        if blocks = 0 then
          Action.on buddyOf <| Action.modify fun buddy =>
            { buddy with backing := buddy.backing.erase block.heap }
          Action.on machineOf (Machine.drop (.memory backing.memory.serial))
          Action.note (.heapReleased buddy.heap block.heap)
        else Action.on buddyOf (back block.heap { backing with blocks })

def available (buddy : Buddy) : Except Fault Nat := Word.sub buddy.size buddy.used

def text (buddy : Buddy) : String :=
  Text.record "BuddySuballocator"
    [("heap", buddy.heap.name), ("size", toString buddy.size),
      ("min_block_size", toString buddy.minBlock), ("heap_size", toString buddy.heapSize),
      ("used", toString buddy.used), ("backing_heaps", toString buddy.backing.length)]

end Buddy

end Reclaim
