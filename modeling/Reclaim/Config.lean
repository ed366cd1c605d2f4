import Reclaim.Pool.Bucket
import Reclaim.Ring
import Reclaim.Memory.Supply

namespace Reclaim

def bufferMultiple : Nat := 64 * 1024

-- Requests above this size get a device heap of their own.
def buddyThreshold : Nat := 64 * 1024

-- After so many batches an idle pooled buffer is let go.
def trimThreshold : Nat := 100

-- A heap that shaders see: it starts at `initialSize` slots and grows up to `maxSize`; up to
-- `poolDepth` retired heaps are kept before a roll-over waits for one.
structure OnlineConfig where
  initialSize : Nat
  maxSize : Nat
  poolDepth : Nat
  ledgerPlaces : Nat
deriving DecidableEq

namespace OnlineConfig

def viewHeap : OnlineConfig := ⟨4096, 1000000, 3, Ring.defaultLedger⟩

def samplerHeap : OnlineConfig := ⟨2048, 2048, 3, Ring.defaultLedger⟩

def fixed (size : Nat) : OnlineConfig := ⟨size, size, 3, Ring.defaultLedger⟩

def text (config : OnlineConfig) : String :=
  Text.record "OnlineHeapConfig"
    [("initial_size", toString config.initialSize), ("max_size", toString config.maxSize),
      ("pool_depth", toString config.poolDepth), ("ledger_capacity", toString config.ledgerPlaces)]

end OnlineConfig

structure Config where
  trimThreshold : Nat
  slotsPerHeap : Nat
  viewHeap : OnlineConfig
  samplerHeap : OnlineConfig
  useBuddy : Bool
  buddyThreshold : Nat
  buddyCapacity : Nat
  buddyMinBlock : Nat
deriving DecidableEq

namespace Config

def minimal : Config where
  trimThreshold := Reclaim.trimThreshold
  slotsPerHeap := 64
  viewHeap := ⟨64, 256, 2, Ring.defaultLedger⟩
  samplerHeap := .fixed 64
  useBuddy := true
  buddyThreshold := Reclaim.buddyThreshold
  buddyCapacity := 16 * 1024 * 1024
  buddyMinBlock := 256

def standard : Config where
  trimThreshold := Reclaim.trimThreshold
  slotsPerHeap := 1024
  viewHeap := .viewHeap
  samplerHeap := .samplerHeap
  useBuddy := true
  buddyThreshold := Reclaim.buddyThreshold
  buddyCapacity := 32 * 1024 * 1024 * 1024
  buddyMinBlock := 256

-- The largest block the buddy sees has to fit into one device heap.
def buddyLayout? (config : Config) : Except Error BuddyLayout :=
  match Word.powerAbove? config.buddyThreshold with
  | some heapSize => .ok ⟨config.buddyCapacity, config.buddyMinBlock, heapSize⟩
  | none => .error .invalidParameter

def text (config : Config) : String :=
  Text.record "ContextConfig"
    [("buffer_pool_trim_threshold", toString config.trimThreshold),
      ("cpu_descriptors_per_heap", toString config.slotsPerHeap),
      ("view_heap", config.viewHeap.text), ("sampler_heap", config.samplerHeap.text),
      ("use_buddy_suballocation", toString config.useBuddy),
      ("buddy_threshold", toString config.buddyThreshold),
      ("buddy_capacity", toString config.buddyCapacity),
      ("buddy_min_block_size", toString config.buddyMinBlock)]

end Config

end Reclaim
