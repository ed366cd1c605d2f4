namespace Reclaim

inductive Error where
  | invalidParameter
  | notFound
  | outOfDeviceMemory
  | outOfMemory
  | allocationFailed
  | ringExhausted
  | ledgerExhausted
  | deviceLost
  | fenceTimeout
deriving DecidableEq

namespace Error

def all : List Error :=
  [.invalidParameter, .notFound, .outOfDeviceMemory, .outOfMemory, .allocationFailed,
    .ringExhausted, .ledgerExhausted, .deviceLost, .fenceTimeout]

def name : Error → String
  | invalidParameter => "InvalidParameter"
  | notFound => "NotFound"
  | outOfDeviceMemory => "OutOfDeviceMemory"
  | outOfMemory => "OutOfMemory"
  | allocationFailed => "AllocationFailed"
  | ringExhausted => "RingExhausted"
  | ledgerExhausted => "LedgerExhausted"
  | deviceLost => "DeviceLost"
  | fenceTimeout => "FenceTimeout"

def message : Error → String
  | invalidParameter => "invalid parameter"
  | notFound => "resource not found"
  | outOfDeviceMemory => "out of device memory"
  | outOfMemory => "out of memory"
  | allocationFailed => "allocation failed"
  | ringExhausted => "ring buffer exhausted"
  | ledgerExhausted => "ring ledger exhausted"
  | deviceLost => "device lost"
  | fenceTimeout => "fence wait timeout"

def ofName? (text : String) : Option Error :=
  all.find? (·.name == text)

-- Freeing memory, the device's or the host's, could let a second try succeed.
def isOutOfMemory : Error → Bool
  | outOfDeviceMemory | outOfMemory => true
  | _ => false

def isDeviceLost : Error → Bool
  | deviceLost | fenceTimeout => true
  | _ => false

-- The ring cannot serve the request now, but may after a reclaim.
def isExhausted : Error → Bool
  | ringExhausted | ledgerExhausted => true
  | _ => false

end Error

-- An `Error` is an answer to the caller, who may go on. A fault is a broken promise of the
-- library's own arithmetic or of the caller, and no answer follows it.
inductive Fault where
  | overflow
  | assertion
deriving DecidableEq

def Fault.message : Fault → String
  | .overflow => "overflow"
  | .assertion => "assertion"

inductive Stop where
  | error (error : Error)
  | fault (fault : Fault)
deriving DecidableEq

end Reclaim
