import Reclaim.Context.Immediate
import Reclaim.Held

namespace Reclaim

inductive Front where
  | sharedOnly
  | immediate (view sampler : OnlineHeap)
  | online (heap : OnlineHeap)

structure HeldSlot where
  kind : Kind
  handle : Handle
  index : Nat

structure Session (δ : Type) where
  shared : Shared δ
  front : Front
  buffers : List Buffer
  slots : List HeldSlot
  blocks : List Suballocation

inductive ContextStep (δ : Type) where
  -- submission
  | submit (queue : Queue)
  | flush (mask : QueueMask)
  | waitForIdle (queue : Queue)
  | trim
  -- online heaps, of the kind given or the only one there is
  | reserve (kind : Option Kind) (slots : Nat)
  | handles (kind : Option Kind) (slot : Nat)
  | onlineInfo (kind : Option Kind)
  | onlineText (kind : Option Kind)
  | reclaimSlots (completed : Nat)
  | trimParked (threshold completed : Nat)
  -- timelines
  | closeBatch (queue : Queue)
  | waitFor (queue : Queue) (fence : Nat)
  | isReached (queue : Queue) (fence : Nat)
  -- pools, slots and memory
  | acquire (heap : BufferHeap) (size : Nat)
  | release (heap : BufferHeap) (size place : Nat)
  | allocateSlot (kind : Kind)
  | freeSlot (place : Nat) (keep : Bool)
  | freeHandle (kind : Kind) (handle : Handle) (index : Nat)
  | manager (kind : Kind) (index : Nat)
  | suballocate (heap : BufferHeap) (size : Nat) (cannotBeOffset : Bool)
  -- retirement
  | retireBlock (place : Nat) (last : Fences)
  | retireObject (id : Nat) (last : Fences) (completion : Bool) (waits : List Wait)
  | signal (fence value : Nat)
  | trimRetired
  | trimShared
  | destroyAll
  -- an allocation that answers as laid down, and succeeds when nothing is left
  | tryOutcomes (outcomes : List (Option Error))
  | sharedText
  | contextText
  | config
  -- the device changes by itself
  | device (change : δ → δ)
  | drop

inductive ContextAnswer where
  | nothing
  | absent
  | number (n : Nat)
  | flag (b : Bool)
  | fences (fences : Fences)
  | reservation (reservation : Reservation)
  | handles (cpu gpu : Handle) (object : HeapObject)
  | onlineInfo (kind : Kind) (size maxSize : Nat)
  | buffer (buffer : Buffer)
  | slot (handle : Handle) (index : Nat)
  | freedSlot (slot : HeldSlot)
  | manager (heaps : Nat) (free : Option Nat) (ranges : List Range) (text : String)
  | suballocation (suballocation : Suballocation)
  | block (block : Block)
  | tried (got : Except Error Nat) (calls : Nat)
  | config (config : Config)
  | text (text : String)

namespace Session

variable {δ α : Type} [Device δ]

def sharedOf : Part (Session δ) (Shared δ) where
  get := shared
  put shared session := { session with shared }

def withShared (x : Action (Shared δ) α) : Action (Session δ) α := Action.on sharedOf x

def withImmediate (x : Action (Immediate δ) α) : Action (Session δ) α := fun session =>
  match session.front with
  | .immediate view sampler =>
    match x ⟨session.shared, view, sampler⟩ with
    | ⟨result, ⟨shared, view, sampler⟩, events⟩ =>
      ⟨result, { session with shared, front := .immediate view sampler }, events⟩
  | _ => ⟨.error (.error .invalidParameter), session, []⟩

def withOnline (kind : Option Kind) (x : Action (OnlineHeap × Shared δ) α) :
    Action (Session δ) α := fun session =>
  match session.front, kind with
  | .online heap, _ =>
    match x (heap, session.shared) with
    | ⟨result, (heap, shared), events⟩ =>
      ⟨result, { session with shared, front := .online heap }, events⟩
  | .immediate .., some kind =>
    match Immediate.onlineOf? kind with
    | some part => withImmediate (Action.on part x) session
    | none => ⟨.error (.error .invalidParameter), session, []⟩
  | _, _ => ⟨.error (.error .invalidParameter), session, []⟩

def nextOutcome : Action (List (Option Error) × Nat) Nat := fun (outcomes, calls) =>
  match outcomes with
  | [] => ⟨.ok (calls + 1), ([], calls + 1), []⟩
  | none :: rest => ⟨.ok (calls + 1), (rest, calls + 1), []⟩
  | some error :: rest => ⟨.error (.error error), (rest, calls + 1), []⟩

def outcomesAttempt : Shared.Attempt (List (Option Error) × Nat) δ Nat :=
  ⟨Action.on .first nextOutcome, fun _ => Nat.le_refl _⟩

def tryOutcomes (outcomes : List (Option Error)) : Action (Shared δ) ContextAnswer :=
  fun shared =>
    match Action.attempt (Shared.tryAllocate outcomesAttempt) ((outcomes, 0), shared) with
    | ⟨.ok got, ((_, calls), shared), events⟩ => ⟨.ok (.tried got calls), shared, events⟩
    | ⟨.error stop, (_, shared), events⟩ => ⟨.error stop, shared, events⟩

def dropHeaps (objects : List HeapObject) : Action (Shared δ) Unit :=
  Action.each (fun object => Shared.drop (.heap object.serial)) objects

-- What is still waiting is destroyed while its allocators are there; then all else goes.
def closeShared : Action (Shared δ) Unit := do
  let shared ← Action.get
  let waiting := shared.buffers.toList.flatMap fun pool =>
    pool.buckets.flatMap fun line => line.entries.map (·.item)
  Action.each (fun buffer => Shared.drop (.buffer buffer.id)) waiting
  dropHeaps (shared.slots.toList.flatMap fun manager => manager.heaps.map (·.object))
  Shared.keeper.close
  let memories := (← Action.get).allocators.toList.flatMap fun allocators =>
    allocators.pooled.memories ++ (Supply.dedicated allocators.dedicated).memories
  Action.each (fun memory => Shared.drop (.memory memory.serial)) memories

def closeFront : Action (Session δ) Unit := do
  match (← Action.get).front with
  | .sharedOnly => return ()
  | .online heap => withShared (dropHeaps heap.objects)
  | .immediate .. =>
    withImmediate do
      Immediate.settle
      let immediate ← Action.get
      Action.on Immediate.sharedOf (dropHeaps (immediate.view.objects ++ immediate.sampler.objects))
  Action.modify fun session => { session with front := .sharedOnly }

-- The caller lets go of everything: what it holds, then its heaps, then the shared part.
def close : Action (Session δ) Unit := do
  let session ← Action.get
  withShared (Action.each (fun buffer => Shared.drop (.buffer buffer.id)) session.buffers)
  Action.modify fun session => { session with buffers := [], slots := [], blocks := [] }
  closeFront
  withShared closeShared

end Session

open Session in
def ContextStep.run {δ : Type} [Device δ] : ContextStep δ → Action (Session δ) ContextAnswer
  | submit queue => .number <$> withImmediate (Immediate.submit queue)
  | flush mask => .fences <$> withImmediate (Immediate.flush mask)
  | waitForIdle queue => do
    withImmediate (Immediate.waitForIdle queue)
    return .nothing
  | trim => .flag <$> withImmediate Immediate.trim
  | reserve kind slots => .reservation <$> withOnline kind (OnlineHeap.reserve slots)
  | handles kind slot =>
    withOnline kind do
      let heap := (← Action.get).1
      let (cpu, gpu) ← heap.handles slot
      return .handles cpu gpu heap.object
  | onlineInfo kind =>
    withOnline kind do
      let heap := (← Action.get).1
      return .onlineInfo heap.desc.kind heap.desc.slots heap.maxSize
  | onlineText kind => withOnline kind do return .text (← Action.get).1.text
  | reclaimSlots completed => do
    withOnline none (OnlineHeap.reclaimSlots completed)
    return .nothing
  | trimParked threshold completed =>
    .flag <$> withOnline none (OnlineHeap.trim threshold completed)
  | closeBatch queue => .number <$> withShared (Shared.closeBatch queue)
  | waitFor queue fence => do
    withShared (Shared.waitFor queue fence)
    return .nothing
  | isReached queue fence => do
    let completed ← withShared (Shared.completedFence queue)
    return .flag (fence ≤ completed)
  | acquire heap size => do
    let buffer ← withShared (Shared.acquire heap size)
    Action.modify fun session => { session with buffers := session.buffers ++ [buffer] }
    return .buffer buffer
  | release heap size place => do
    match Held.pick? (← Action.get).buffers place false with
    | none => return .absent
    | some (buffer, buffers) =>
      Action.modify fun session => { session with buffers }
      withShared (Shared.release heap size buffer)
      return .number buffer.id
  | allocateSlot kind => do
    let (handle, index) ← withShared (Shared.allocateSlot kind)
    Action.modify fun session => { session with slots := session.slots ++ [⟨kind, handle, index⟩] }
    return .slot handle index
  | freeSlot place keep => do
    match Held.pick? (← Action.get).slots place keep with
    | none => return .absent
    | some (slot, slots) =>
      Action.modify fun session => { session with slots }
      withShared (Shared.freeSlot slot.kind slot.handle slot.index)
      return .freedSlot slot
  | freeHandle kind handle index => do
    withShared (Shared.freeSlot kind handle index)
    return .nothing
  | manager kind index => do
    let manager := (← Action.get).shared.slots.get kind
    let free ← manager.freeCount? index
    return .manager manager.heaps.length free (manager.freeRanges index) manager.text
  | suballocate heap size cannotBeOffset => do
    let suballocation ← withShared (Shared.suballocate heap size cannotBeOffset)
    Action.modify fun session => { session with blocks := session.blocks ++ [suballocation] }
    return .suballocation suballocation
  | retireBlock place last => do
    match Held.pick? (← Action.get).blocks place false with
    | none => return .absent
    | some (suballocation, blocks) =>
      Action.modify fun session => { session with blocks }
      withShared (Shared.retireBlock suballocation last)
      return .block suballocation.block
  | retireObject id last completion waits => do
    withShared (Shared.retire (.object id) last completion waits)
    return .nothing
  | signal fence value => do
    withShared <| Action.modify fun shared =>
      { shared with board := shared.board.signal fence value }
    return .nothing
  | trimRetired => .flag <$> withShared (Shared.trimRetired false)
  | trimShared => .flag <$> withShared Shared.trim
  | destroyAll => do
    let _ ← withShared (Shared.trimRetired true)
    return .nothing
  | tryOutcomes outcomes => withShared (Session.tryOutcomes outcomes)
  | sharedText => return .text (← Action.get).shared.text
  | contextText =>
    withImmediate do return .text (← Action.get).text
  | config => return .config (← Action.get).shared.config
  | device change => do
    withShared <| Action.on Shared.machineOf <| Action.modify fun machine =>
      { machine with device := change machine.device }
    return .nothing
  | drop => do
    close
    return .nothing

structure OnlineStatus where
  size : Nat
  parked : Nat
  inFlight : Nat
  waves : Nat

structure Status where
  pending : Nat
  recording : Fences
  completed : Fences
  pooled : List Nat
  managers : List Nat
  live : List Nat
  online : List OnlineStatus

namespace Session

variable {δ : Type} [Device δ]

def onlineStatus (heap : OnlineHeap) : Except Fault OnlineStatus := do
  return ⟨heap.desc.slots, heap.parked.line.size, ← heap.ring.inFlight, heap.ring.outstanding⟩

def onlineHeaps (session : Session δ) : List OnlineHeap :=
  match session.front with
  | .sharedOnly => []
  | .immediate view sampler => [view, sampler]
  | .online heap => [heap]

def live (session : Session δ) : List Nat :=
  let machine := session.shared.machine
  [machine.liveMemories, machine.liveBuffers, machine.liveHeaps]

-- Looking at the progress of the queues is a reading like any other.
def status : Action (Session δ) Status := do
  let timeline ← withShared Shared.timeline
  let session ← Action.get
  let shared := session.shared
  let online ← session.onlineHeaps.mapM (m := Except Fault) onlineStatus
  return {
    pending := shared.pending
    recording := timeline.recording
    completed := timeline.completed
    pooled := shared.buffers.toList.map BucketPool.size
    managers := shared.slots.toList.map (·.heaps.length)
    live := session.live
    online }

inductive Mode where
  | sharedOnly
  | immediate
  | online (kind : Kind) (config : OnlineConfig)

def openFront : Mode → Action (Shared δ) Front
  | .sharedOnly => return .sharedOnly
  | .immediate => do
    let config := (← Action.get).config
    let (view, sampler) ← Immediate.createHeaps config
    return .immediate view sampler
  | .online kind config => return .online (← OnlineHeap.create kind config)

def opened (device : δ) (mode : Mode) (config : Config) (board : Board) :
    Run (Option (Session δ)) Unit :=
  match Shared.create (.start device) config board () with
  | ⟨.error stop, _, events⟩ => ⟨.error stop, none, events⟩
  | ⟨.ok shared, _, events⟩ =>
    match openFront mode shared with
    | ⟨.error stop, _, more⟩ => ⟨.error stop, none, events ++ more⟩
    | ⟨.ok front, shared, more⟩ => ⟨.ok (), some ⟨shared, front, [], [], []⟩, events ++ more⟩

end Session

end Reclaim
