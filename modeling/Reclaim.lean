import Reclaim.Error
import Reclaim.Word
import Reclaim.Text.CodeRange
import Reclaim.Text.Invisible
import Reclaim.Text.Combining
import Reclaim.Text.Ignorable
import Reclaim.Text
import Reclaim.Queue
import Reclaim.Descriptor.Basic
import Reclaim.Descriptor.Free
import Reclaim.Descriptor.SlotManager
import Reclaim.Memory.Block
import Reclaim.Memory.Buddy
import Reclaim.Memory.Dedicated
import Reclaim.Memory.Supply
import Reclaim.Memory.Client
import Reclaim.Note
import Reclaim.Event
import Reclaim.Action
import Reclaim.Table
import Reclaim.Held
import Reclaim.Ring
import Reclaim.Device.Machine
import Reclaim.Device.Scripted
import Reclaim.Pool.FenceLine
import Reclaim.Pool.Bounded
import Reclaim.Pool.Bucket
import Reclaim.Pool.Program
import Reclaim.Fence
import Reclaim.Retirement.Reading
import Reclaim.Retirement.Queue
import Reclaim.Retirement.Yard
import Reclaim.Config
import Reclaim.Context.Shared
import Reclaim.Context.Reclaiming
import Reclaim.Context.OnlineHeap
import Reclaim.Context.Immediate
import Reclaim.Context.Session
import Reclaim.Descriptor.Client
import Reclaim.Proofs.Ring.Operations
import Reclaim.Proofs.Ring.Grants
import Reclaim.Proofs.Memory.FreeLists
import Reclaim.Proofs.Memory.Merging
import Reclaim.Proofs.Memory.Layout
import Reclaim.Proofs.Memory.Operations
import Reclaim.Memory.Depot
import Reclaim.Memory.Lot
import Reclaim.Proofs.Memory.Backings
import Reclaim.Proofs.Memory.Depot
import Reclaim.Proofs.Memory.Reached
import Reclaim.Proofs.Context.Leases
import Reclaim.Proofs.Contract
import Reclaim.Proofs.Context.Shared
import Reclaim.Proofs.Context.OnlineHeap
import Reclaim.Proofs.Context.Immediate
import Reclaim.Proofs.Context.Session
import Reclaim.Proofs.Memory.Client
import Reclaim.Retirement.Register
import Reclaim.Proofs.Descriptor.Runs
import Reclaim.Proofs.Retirement.Tracking
import Reclaim.Proofs.Retirement.Accounts
import Reclaim.Proofs.Retirement.Yard
import Reclaim.Proofs.Descriptor.Client
import Reclaim.Proofs.Context.Binding
import Reclaim.Proofs.Compositional
import Reclaim.Proofs.Context.Shedding
import Reclaim.Proofs.Context.Looking
import Reclaim.Proofs.Context.Fallback
import Reclaim.Proofs.Ring.WaveLine
import Reclaim.Proofs.Pool.Passages
import Reclaim.Proofs.Returns
import Reclaim.Proofs.Ownership.Machine
import Reclaim.Proofs.Ownership.Stores
import Reclaim.Proofs.Ownership.Shared
import Reclaim.Proofs.Ownership.OnlineHeap
import Reclaim.Proofs.Ownership.Session
import Reclaim.Proofs.Ownership.Counts
import Reclaim.Proofs.Ownership.Buffers
import Reclaim.Proofs.Context.Clock
import Reclaim.Proofs.Context.SharedClock
import Reclaim.Proofs.Context.HeapClock
import Reclaim.Proofs.Context.Timelines
import Reclaim.Proofs.Context.Soundness
import Reclaim.Proofs.Context.Idle
import Reclaim.Proofs.Context.Service
import Reclaim.Proofs.Memory.Allocation
import Reclaim.Proofs.Memory.Vacancy
import Reclaim.Proofs.Memory.Restoring
import Reclaim.Proofs.Context.Waning
import Reclaim.Proofs.Context.RollOver
import Reclaim.Proofs.Pool.Occupancy
import Reclaim.Proofs.Context.Parking
import Reclaim.Proofs.Context.Composition
import Reclaim.Proofs.Pool.Lending
import Reclaim.Proofs.Pool.Loans
import Reclaim.Proofs.Descriptor.Growth
import Reclaim.Proofs.Memory.Orderly
import Reclaim.Proofs.Context.Stock
import Reclaim.Proofs.Context.SessionStock
import Reclaim.Proofs.Context.Retrying
import Reclaim.Proofs.Fronts
import Reclaim.Proofs.Retirement.Trims
import Reclaim.Proofs.Ring.Refusals
import Reclaim.Proofs.Ring.Probing
import Reclaim.Proofs.Context.Probing
import Reclaim.Proofs.Ring.Vacant
import Reclaim.Proofs.Pool.Order
import Reclaim.Proofs.Memory.Lot
import Reclaim.Proofs.Memory.LotClient
import Reclaim.Proofs.Memory.Routing
import Reclaim.Proofs.Context.Suballocation
