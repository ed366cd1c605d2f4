import Reclaim.Queue
import Reclaim.Descriptor.Basic
import Reclaim.Memory.Block

namespace Reclaim

inductive Level where
  | error
  | warn
  | info
  | debug
  | trace
deriving DecidableEq

def Level.name : Level → String
  | error => "ERROR"
  | warn => "WARN"
  | info => "INFO"
  | debug => "DEBUG"
  | trace => "TRACE"

inductive Note where
  -- pools
  | poolFull (fence : Nat)
  | bucketsRefused (count : Nat)
  | bucketMiss (bytes : Nat)
  -- rings
  | ledgerFull (waves : Nat)
  | waveReclaimed (slots fence : Nat)
  -- descriptor slots
  | slotsUnlaid (slots : Nat) (kind : Kind) (stride : Nat)
  | slotHeapCreated (kind : Kind) (index slots : Nat)
  | slotHeapUnknown (index : Nat)
  | slotForeign (handle index : Nat)
  | slotFreedTwice (handle : Nat)
  -- memory
  | blocksChosen (heap : BufferHeap) (capacity minBlock heapSize : Nat)
  | heapsChosen (heap : BufferHeap)
  | heapBacked (heap : BufferHeap) (index : Nat)
  | heapReleased (heap : BufferHeap) (index : Nat)
  | blockOutside (block : Block) (heap : BufferHeap)
  | blockUnknown (offset : Nat)
  | heapUnknown (index : Nat)
  -- retirement
  | retirementTrimmed (objects blocks : Nat)
  -- contexts
  | sharedCreated (slotsPerHeap : Nat) (buddy : Bool)
  | waitUnsubmitted (fence : Nat) (queue : Queue)
  | retrying
  | reclaimWaitFailed (error : Error)
  | heapGrown (kind : Kind) (before after : Nat)
  | heapRolled (kind : Kind) (fence parked : Nat)
  | parkedStalled (kind : Kind) (fence : Nat)
  | slotsRefused (slots : Nat) (kind : Kind) (attempts : Nat)
  | submitted (queue : Queue) (fence : Nat)
  | notIdle (queue : Queue) (error : Error)
deriving DecidableEq

namespace Note

def level : Note → Level
  | slotsUnlaid .. | slotHeapUnknown .. | slotForeign .. | slotFreedTwice .. | blockOutside ..
  | blockUnknown .. | heapUnknown .. | waitUnsubmitted .. | slotsRefused .. => .error
  | bucketsRefused .. | reclaimWaitFailed .. | notIdle .. => .warn
  | poolFull .. | ledgerFull .. | slotHeapCreated .. | blocksChosen .. | heapsChosen ..
  | sharedCreated .. | retrying | heapGrown .. | heapRolled .. | parkedStalled .. => .debug
  | bucketMiss .. | waveReclaimed .. | heapBacked .. | heapReleased .. | retirementTrimmed ..
  | submitted .. => .trace

def text : Note → String
  | poolFull fence => s!"BoundedFencePool: pool full, waiting for fence {fence}"
  | bucketsRefused count =>
    s!"MultiLevelPool: out of memory growing to {count} buckets, dropping resource"
  | bucketMiss bytes => s!"MultiLevelPool: creating {bytes} byte resource"
  | ledgerFull waves => s!"FencedRingBuffer: ledger full ({waves} waves outstanding)"
  | waveReclaimed slots fence => s!"FencedRingBuffer: reclaimed {slots} slots of wave {fence}"
  | slotsUnlaid slots kind stride =>
    s!"DescriptorHeapManager: cannot lay out {slots} {kind.name} slots with stride {stride}"
  | slotHeapCreated kind index slots =>
    s!"DescriptorHeapManager: created {kind.name} heap #{index} ({slots} slots)"
  | slotHeapUnknown index => s!"DescriptorHeapManager: free into unknown heap #{index}"
  | slotForeign handle index =>
    s!"DescriptorHeapManager: {Handle.cpuText handle} does not belong to heap #{index}"
  | slotFreedTwice handle => s!"DescriptorHeapManager: double free of {Handle.cpuText handle}"
  | blocksChosen heap capacity minBlock heapSize =>
    s!"select_suballocator: {heap.name} buddy over {capacity} bytes, {minBlock} byte blocks, " ++
      s!"{heapSize} byte heaps"
  | heapsChosen heap => s!"select_suballocator: {heap.name} direct allocation"
  | heapBacked heap index => s!"BuddySuballocator: backed {heap.name} heap {index}"
  | heapReleased heap index => s!"BuddySuballocator: released {heap.name} heap {index}"
  | blockOutside block heap =>
    s!"BuddySuballocator: block {block.text} is outside the {heap.name} range"
  | blockUnknown offset => s!"BuddySuballocator: unknown block at offset {Text.hex offset}"
  | heapUnknown index => s!"DirectAllocator: unknown heap {index}"
  | retirementTrimmed objects blocks =>
    s!"DeferredDeletionQueue: destroyed {objects} objects, {blocks} suballocations"
  | sharedCreated slotsPerHeap buddy =>
    s!"SharedContext: created ({slotsPerHeap} CPU descriptors per heap, " ++
      s!"buddy suballocation {buddy})"
  | waitUnsubmitted fence queue =>
    s!"SharedContext: wait for unsubmitted fence {fence} on {queue.name}"
  | retrying => "SharedContext: retrying allocation after reclaiming memory"
  | reclaimWaitFailed error => s!"SharedContext: allocation fallback wait failed: {error.message}"
  | heapGrown kind before after =>
    s!"OnlineDescriptorHeap: grew {kind.name} heap {before} -> {after} slots"
  | heapRolled kind fence parked =>
    s!"OnlineDescriptorHeap: rolled {kind.name} heap over at fence {fence} ({parked} parked)"
  | parkedStalled kind fence =>
    s!"OnlineDescriptorHeap: {kind.name} pool holds only batch {fence}, creating a heap"
  | slotsRefused slots kind attempts =>
    s!"OnlineDescriptorHeap: no room for {slots} {kind.name} slots after {attempts} roll-overs"
  | submitted queue fence => s!"ImmediateContext: submitted {queue.name} batch {fence}"
  | notIdle queue error => s!"ImmediateContext: {queue.name} did not go idle: {error.message}"

end Note

end Reclaim
