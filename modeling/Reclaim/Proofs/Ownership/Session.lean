import Reclaim.Context.Session
import Reclaim.Proofs.Memory.Layout
import Reclaim.Proofs.Ownership.OnlineHeap

namespace Reclaim

variable {δ α : Type} {since : Shared δ} {held : List Buffer}

-- Buffers change hands in these steps, and in the last one all there is goes.
def ContextStep.passesBuffers : ContextStep δ → Bool
  | .acquire .. | .release .. | .drop => true
  | _ => false

theorem Held.pick?_some {items rest : List α} {place : Nat} {item : α}
    (picked : pick? items place false = some (item, rest)) :
    items[place % items.length]? = some item ∧ rest = items.eraseIdx (place % items.length) := by
  unfold pick? at picked
  dsimp only at picked
  split at picked
  · cases picked
  · rename_i found
    cases picked
    exact ⟨found, rfl⟩

namespace Session

def heldResources (buffers : List Buffer) : List Resource :=
  buffers.map fun buffer => .buffer buffer.id

def heapResources (heaps : List OnlineHeap) : List Resource := heaps.flatMap OnlineHeap.resources

-- The caller holds the buffers, and nothing else is on the machine but what the context has.
structure Accounts (since : Shared δ) (held : List Buffer) (session : Session δ) : Prop where
  buffers : session.buffers = held
  shared : Shared.Accounts since (heapResources session.onlineHeaps ++ heldResources held)
    session.shared

section Parts

theorem shared_accounts {x : Action (Shared δ) α}
    (preserves : ∀ others, Action.Preserves (Shared.Accounts since others) x) :
    Action.Preserves (Accounts since held) (withShared x) :=
  Action.returns_on (fun _ _ => preserves _) (fun _ accounts => accounts.shared)
    (fun _ _ _ accounts shared => ⟨accounts.buffers, shared⟩)
    fun _ _ accounts shared => ⟨accounts.buffers, shared⟩

theorem immediate_accounts {x : Action (Immediate δ) α}
    (preserves : ∀ others, Action.Preserves (Immediate.Accounts since others) x) :
    Action.Preserves (Accounts since held) (withImmediate x) := by
  rintro ⟨shared, front, buffers, slots, blocks⟩ accounts
  cases front with
  | sharedOnly | online heap => exact accounts
  | immediate view sampler =>
    have started : Immediate.Accounts since (heldResources held) ⟨shared, view, sampler⟩ := by
      refine accounts.shared.perm (.of_eq ?_)
      simp [heapResources, onlineHeaps]
    let whole (now : Immediate δ) : Session δ :=
      ⟨now.shared, .immediate now.view now.sampler, buffers, slots, blocks⟩
    have back (now : Immediate δ) (reached : Immediate.Accounts since (heldResources held) now) :
        Accounts since held (whole now) := by
      refine ⟨accounts.buffers, reached.perm (.of_eq ?_)⟩
      simp [heapResources, onlineHeaps, whole]
    let run := x ⟨shared, view, sampler⟩
    have left : Run.Leaves ⟨run.result, whole run.state, run.events⟩
        (fun _ => Accounts since held) (Accounts since held) :=
      (preserves _ _ started).image whole (fun _ => back) back
    exact left

theorem online_accounts {kind : Option Kind} {x : Action (OnlineHeap × Shared δ) α}
    (preserves : ∀ others, Action.Preserves (OnlineHeap.Accounts since others) x) :
    Action.Preserves (Accounts since held) (withOnline kind x) := by
  rintro ⟨shared, front, buffers, slots, blocks⟩ accounts
  cases front with
  | sharedOnly => exact accounts
  | online heap =>
    have started : OnlineHeap.Accounts since (heldResources held) (heap, shared) := by
      refine accounts.shared.perm (.of_eq ?_)
      simp [heapResources, onlineHeaps]
    let whole (now : OnlineHeap × Shared δ) : Session δ :=
      ⟨now.2, .online now.1, buffers, slots, blocks⟩
    have back (now : OnlineHeap × Shared δ)
        (reached : OnlineHeap.Accounts since (heldResources held) now) :
        Accounts since held (whole now) := by
      refine ⟨accounts.buffers, reached.perm (.of_eq ?_)⟩
      simp [heapResources, onlineHeaps, whole]
    let run := x (heap, shared)
    have left : Run.Leaves ⟨run.result, whole run.state, run.events⟩
        (fun _ => Accounts since held) (Accounts since held) :=
      (preserves _ _ started).image whole (fun _ => back) back
    exact left
  | immediate view sampler =>
    match kind with
    | none | some .target | some .depth => exact accounts
    | some .view =>
      exact immediate_accounts (fun _ => Immediate.view_accounts preserves) _ accounts
    | some .sampler =>
      exact immediate_accounts (fun _ => Immediate.sampler_accounts preserves) _ accounts

end Parts

section Steps

theorem answer_accounts {x : Action (Session δ) α} {f : α → ContextAnswer}
    (preserves : Action.Preserves (Accounts since held) x) :
    Action.Preserves (Accounts since held) (f <$> x) :=
  Action.returns_map preserves

theorem tell_accounts {x : Action (Session δ) α} {f : α → ContextAnswer}
    (preserves : Action.Preserves (Accounts since held) x) :
    Action.Preserves (Accounts since held) (x >>= fun a => return f a) :=
  Action.returns_bind preserves fun _ => Action.returns_pure fun _ accounts => accounts

theorem hold_accounts {slots : Session δ → List HeldSlot} {blocks : Session δ → List Suballocation} :
    Action.Preserves (Accounts since held) (Action.modify fun session =>
      { session with slots := slots session, blocks := blocks session }) :=
  fun _ accounts => ⟨accounts.buffers, accounts.shared⟩

variable [Device δ]

theorem step_accounts (step : ContextStep δ) (plain : step.passesBuffers = false) :
    Action.Preserves (Accounts since held) step.run := by
  have stays {σ : Type} {holds : σ → Prop} {answer : ContextAnswer} :
      Action.Preserves holds (Pure.pure answer) := Action.returns_pure fun _ held => held
  cases step with
  | acquire heap size => cases plain
  | release heap size place => cases plain
  | drop => cases plain
  | submit queue =>
    exact answer_accounts (immediate_accounts fun _ => Immediate.submit_accounts queue)
  | flush mask => exact answer_accounts (immediate_accounts fun _ => Immediate.flush_accounts mask)
  | waitForIdle queue =>
    exact tell_accounts (immediate_accounts fun _ => Immediate.waitForIdle_accounts queue)
  | trim => exact answer_accounts (immediate_accounts fun _ => Immediate.trim_accounts)
  | reserve kind slots =>
    exact answer_accounts (online_accounts fun _ => OnlineHeap.reserve_accounts slots)
  | handles kind slot =>
    refine online_accounts fun _ => Action.returns_look fun both => ?_
    exact Action.returns_bind (Action.returns_checked _) fun _ =>
      Action.returns_pure fun _ read => read.1
  | onlineInfo kind => exact online_accounts fun _ => Action.returns_look fun _ => stays
  | onlineText kind => exact online_accounts fun _ => Action.returns_look fun _ => stays
  | reclaimSlots completed =>
    exact tell_accounts (online_accounts fun _ => OnlineHeap.ring_accounts _)
  | trimParked threshold completed =>
    exact answer_accounts (online_accounts fun _ => OnlineHeap.trim_accounts threshold completed)
  | closeBatch queue =>
    exact answer_accounts (shared_accounts fun _ => Shared.closeBatch_accounts queue)
  | waitFor queue fence =>
    exact tell_accounts (shared_accounts fun _ => Shared.waitFor_accounts queue fence)
  | isReached queue fence =>
    exact tell_accounts (shared_accounts fun _ => Action.returns_after
      (Shared.completedFence_accounts queue) fun _ _ both => both.1)
  | allocateSlot kind =>
    refine Action.returns_bind (shared_accounts fun _ => Shared.allocateSlot_accounts kind)
      fun made => ?_
    exact tell_accounts hold_accounts
  | freeSlot place keep =>
    refine Action.returns_look fun session => ?_
    split
    · exact stays
    rename_i slot slots picked
    refine Action.returns_bind hold_accounts fun _ => ?_
    exact tell_accounts (shared_accounts fun _ =>
      Shared.freeSlot_accounts slot.kind slot.handle slot.index)
  | freeHandle kind handle index =>
    exact tell_accounts (shared_accounts fun _ => Shared.freeSlot_accounts kind handle index)
  | manager kind index =>
    refine Action.returns_look fun session => ?_
    exact Action.returns_bind (Action.returns_checked _) fun _ =>
      Action.returns_pure fun _ read => read.1
  | suballocate heap size cannotBeOffset =>
    refine Action.returns_bind (shared_accounts fun _ =>
      Shared.suballocate_accounts heap size cannotBeOffset) fun made => ?_
    exact tell_accounts hold_accounts
  | retireBlock place last =>
    refine Action.returns_look fun session => ?_
    split
    · exact stays
    rename_i suballocation blocks picked
    refine Action.returns_bind hold_accounts fun _ => ?_
    exact tell_accounts (shared_accounts fun _ => Shared.retireBlock_accounts suballocation last)
  | retireObject id last completion waits =>
    exact tell_accounts (shared_accounts fun _ =>
      Shared.retire_accounts (.object id) last completion waits)
  | signal fence value =>
    refine tell_accounts (shared_accounts fun _ => Action.returns_modify fun shared accounts => ?_)
    exact accounts.quiet (Nat.le_refl _) (Nat.le_refl _) accounts.owned rfl rfl rfl rfl
  | trimRetired => exact answer_accounts (shared_accounts fun _ => Shared.trimRetired_accounts false)
  | trimShared => exact answer_accounts (shared_accounts fun _ => Shared.trim_accounts)
  | destroyAll => exact tell_accounts (shared_accounts fun _ => Shared.trimRetired_accounts true)
  | tryOutcomes outcomes => exact shared_accounts fun _ => tryOutcomes_accounts outcomes
  | sharedText | config => exact Action.returns_look fun _ => stays
  | contextText => exact immediate_accounts fun _ => Action.returns_look fun _ => stays
  | device change =>
    refine tell_accounts (shared_accounts fun _ shared accounts => ?_)
    exact accounts.quiet (Nat.le_refl _) (Nat.le_refl _) (accounts.owned.onDevice _) rfl rfl rfl rfl

end Steps

section Passing

theorem held_remove {place : Nat} {buffer : Buffer} (here : held[place]? = some buffer) :
    (heldResources held).Perm (.buffer buffer.id :: heldResources (held.eraseIdx place)) := by
  obtain ⟨inside, rfl⟩ := List.getElem?_eq_some_iff.mp here
  exact (List.getElem_cons_eraseIdx_perm inside).symm.map _

theorem held_add (held : List Buffer) (buffer : Buffer) :
    (heldResources (held ++ [buffer])).Perm (.buffer buffer.id :: heldResources held) :=
  (List.perm_append_singleton buffer held).map _

structure Gave (before : Session δ) (heap : BufferHeap) (size place : Nat) (buffer : Buffer)
    (after : Session δ) : Prop where
  here : before.buffers[place]? = some buffer
  buffers : after.buffers = before.buffers.eraseIdx place
  front : after.front = before.front
  released : Shared.Released before.shared heap size buffer after.shared

structure Got (since : Shared δ) (before : Session δ) (heap : BufferHeap) (buffer : Buffer)
    (after : Session δ) : Prop where
  buffers : after.buffers = before.buffers ++ [buffer]
  front : after.front = before.front
  acquired : Shared.Acquired since
    (heapResources before.onlineHeaps ++ heldResources before.buffers) heap buffer after.shared

theorem onlineHeaps_of_front {before after : Session δ} (same : after.front = before.front) :
    after.onlineHeaps = before.onlineHeaps := by
  unfold onlineHeaps
  rw [same]

theorem Gave.accounts {before after : Session δ} {heap : BufferHeap} {size place : Nat}
    {buffer : Buffer} (gave : before.Gave heap size place buffer after)
    (accounts : Accounts since before.buffers before) :
    Accounts after.shared after.buffers after := by
  refine ⟨rfl, Shared.Released.accounts (accounts.shared.perm ?_) gave.released⟩
  rw [onlineHeaps_of_front gave.front, gave.buffers]
  exact ((held_remove gave.here).append_left _).trans List.perm_middle

theorem Got.accounts {before after : Session δ} {heap : BufferHeap} {buffer : Buffer}
    (got : Got since before heap buffer after) : Accounts after.shared after.buffers after := by
  refine ⟨rfl, got.acquired.accounts.perm ?_⟩
  rw [onlineHeaps_of_front got.front, got.buffers]
  exact List.perm_middle.symm.trans ((held_add ..).symm.append_left _)

variable [Device δ]

theorem acquire_got (heap : BufferHeap) (size : Nat) (before : Session δ) :
    Action.Returns (fun session => session = before ∧ Accounts since before.buffers session)
      (ContextStep.run (.acquire heap size))
      (fun answer after => ∃ buffer, answer = .buffer buffer ∧ Got since before heap buffer after)
      (Accounts since before.buffers) := by
  let others := heapResources before.onlineHeaps ++ heldResources before.buffers
  have inside : Action.Returns (Shared.Accounts since others) (Shared.acquire heap size)
      (fun buffer => Shared.Acquired since others heap buffer) (Shared.Accounts since others) :=
    Shared.acquire_accounts heap size
  have acquires : Action.Returns
      (fun session => session = before ∧ Accounts since before.buffers session)
      (withShared (Shared.acquire heap size))
      (fun buffer session => session.buffers = before.buffers ∧ session.front = before.front ∧
        Shared.Acquired since others heap buffer session.shared)
      (Accounts since before.buffers) := by
    refine Action.returns_on (fun _ _ => inside) ?_ ?_ ?_
    · rintro session ⟨rfl, accounts⟩
      exact accounts.shared
    · rintro session buffer shared ⟨rfl, -⟩ acquired
      exact ⟨rfl, rfl, acquired⟩
    · rintro session shared ⟨rfl, -⟩ accounts
      exact ⟨rfl, accounts⟩
  refine Action.returns_bind acquires fun buffer => ?_
  refine Action.returns_via (fun _ => Got since before heap buffer) (Action.returns_modify ?_)
    fun _ => Action.returns_pure fun _ got => ⟨buffer, rfl, got⟩
  rintro session ⟨buffers, front, acquired⟩
  exact ⟨congrArg (· ++ [buffer]) buffers, front, acquired⟩

theorem release_gave (heap : BufferHeap) (size place : Nat) (before : Session δ) :
    Action.Returns (· = before) (ContextStep.run (.release heap size place))
      (fun answer after => answer = .absent ∧ after = before ∨
        ∃ buffer, answer = .number buffer.id ∧
          before.Gave heap size (place % before.buffers.length) buffer after)
      fun _ => False := by
  refine Action.returns_bind Action.returns_get fun session => ?_
  refine Action.returns_given (fun _ seen => seen.2.trans seen.1) ?_
  rintro rfl
  refine Action.returns_before ?_ fun _ seen => seen.1
  split
  · exact Action.returns_pure fun _ same => .inl ⟨rfl, same⟩
  rename_i buffer buffers picked
  obtain ⟨here, rfl⟩ := Held.pick?_some picked
  let place := place % session.buffers.length
  refine Action.returns_via (fun _ now => now = { session with
    buffers := session.buffers.eraseIdx place }) (Action.returns_modify ?_) fun _ => ?_
  · rintro now rfl
    rfl
  refine Action.returns_via (fun _ => session.Gave heap size place buffer) ?_ fun _ =>
    Action.returns_pure fun _ gave => .inr ⟨buffer, rfl, gave⟩
  have inside : Action.Returns (· = session.shared) (Shared.release heap size buffer)
      (fun _ => Shared.Released session.shared heap size buffer) fun _ => False :=
    Shared.release_returns heap size buffer session.shared
  refine Action.returns_on (fun _ _ => inside) ?_ ?_ fun _ _ _ never => never
  · rintro now rfl
    rfl
  · rintro now _ shared rfl released
    exact ⟨here, rfl, rfl, released⟩

-- What can come of a step in which nothing faults.
inductive Moves (before : Session δ) :
    ContextStep δ → Except Stop ContextAnswer → Session δ → Prop where
  | quiet {step : ContextStep δ} {result : Except Stop ContextAnswer} {after : Session δ}
      (plain : step.passesBuffers = false)
      (accounts : Accounts before.shared before.buffers after) : Moves before step result after
  | refused {heap : BufferHeap} {size : Nat} {error : Error} {after : Session δ}
      (accounts : Accounts before.shared before.buffers after) :
      Moves before (.acquire heap size) (.error (.error error)) after
  | acquired {heap : BufferHeap} {size : Nat} {buffer : Buffer} {after : Session δ}
      (got : Got before.shared before heap buffer after) :
      Moves before (.acquire heap size) (.ok (.buffer buffer)) after
  | absent {heap : BufferHeap} {size place : Nat} :
      Moves before (.release heap size place) (.ok .absent) before
  | released {heap : BufferHeap} {size place : Nat} {buffer : Buffer} {after : Session δ}
      (gave : before.Gave heap size (place % before.buffers.length) buffer after) :
      Moves before (.release heap size place) (.ok (.number buffer.id)) after

theorem step_moves {session : Session δ}
    (accounts : Accounts session.shared session.buffers session) {step : ContextStep δ}
    (stays : step ≠ .drop) (returned : (step.run session).returned = true) :
    Moves session step (step.run session).result (step.run session).state := by
  have quiet (plain : step.passesBuffers = false) :
      Moves session step (step.run session).result (step.run session).state := by
    have left := step_accounts step plain session accounts
    refine .quiet plain ?_
    match step.run session, left, returned with
    | ⟨.ok _, _, _⟩, reached, _ => exact reached
    | ⟨.error (.error _), _, _⟩, stopped, _ => exact stopped
    | ⟨.error (.fault _), _, _⟩, _, returned => cases returned
  cases step with
  | acquire heap size =>
    have left := acquire_got heap size session session ⟨rfl, accounts⟩
    match ContextStep.run (.acquire heap size) session, left, returned with
    | ⟨.ok _, _, _⟩, ⟨_, rfl, got⟩, _ => exact .acquired got
    | ⟨.error (.error _), _, _⟩, stopped, _ => exact .refused stopped
    | ⟨.error (.fault _), _, _⟩, _, returned => cases returned
  | release heap size place =>
    have left := release_gave heap size place session session rfl
    match ContextStep.run (.release heap size place) session, left, returned with
    | ⟨.ok _, _, _⟩, .inl ⟨rfl, rfl⟩, _ => exact .absent
    | ⟨.ok _, _, _⟩, .inr ⟨_, rfl, gave⟩, _ => exact .released gave
    | ⟨.error (.error _), _, _⟩, never, _ => exact never.elim
    | ⟨.error (.fault _), _, _⟩, _, returned => cases returned
  | drop => exact (stays rfl).elim
  | _ => exact quiet rfl

omit [Device δ] in
theorem Accounts.now {session : Session δ} (accounts : Accounts since held session) :
    Accounts session.shared session.buffers session :=
  ⟨rfl, accounts.buffers ▸ accounts.shared.now⟩

omit [Device δ] in
theorem Moves.accounts {before after : Session δ} {step : ContextStep δ}
    {result : Except Stop ContextAnswer} (moves : Moves before step result after)
    (accounts : Accounts before.shared before.buffers before) :
    Accounts after.shared after.buffers after := by
  cases moves with
  | quiet plain accounts => exact accounts.now
  | refused accounts => exact accounts.now
  | acquired got => exact got.accounts
  | absent => exact accounts
  | released gave => exact gave.accounts accounts

end Passing

end Session

section Opening

theorem Dedicated.start_neat (heap : BufferHeap) : (ofHeap heap).Neat :=
  ⟨List.nodup_nil, fun _ present => (List.not_mem_nil present).elim⟩

theorem Supply.choose_bare (heap : BufferHeap) (useBuddy : Bool) (layout : BuddyLayout) :
    Action.Returns (fun _ : Unit => True) (choose heap useBuddy layout)
      (fun supply _ => supply.Neat ∧ supply.resources = []) fun _ => True := by
  unfold choose
  split
  · refine Action.returns_bind (Action.returns_note _) fun _ => ?_
    refine Action.returns_bind (Action.returns_settle _) fun buddy => ?_
    refine Action.returns_pure ?_
    rintro _ ⟨-, accepted⟩
    obtain ⟨-, -, -, -, -, -, -, backing⟩ := Buddy.ofLayout?_fits accepted
    have bare : buddy.resources = [] := by
      unfold Buddy.resources
      rw [backing]
      rfl
    refine ⟨?_, bare⟩
    change buddy.backing.keys.Nodup
    rw [backing]
    exact List.nodup_nil
  · refine Action.returns_bind (Action.returns_note _) fun _ => ?_
    exact Action.returns_pure fun _ _ => ⟨Dedicated.start_neat heap, rfl⟩

theorem Shared.chooseAllocators_bare (config : Config) (heap : BufferHeap) :
    Action.Returns (fun _ : Unit => True) (chooseAllocators config heap)
      (fun allocators _ => allocators.Neat ∧ allocators.resources = []) fun _ => True := by
  refine Action.returns_bind (Action.returns_settle _) fun layout => ?_
  refine Action.returns_bind (Action.returns_before
    (Supply.choose_bare heap config.useBuddy layout) fun _ _ => trivial) fun supply => ?_
  refine Action.returns_pure fun _ ready => ?_
  obtain ⟨neat, bare⟩ := ready
  exact ⟨⟨neat, Dedicated.start_neat heap⟩, List.append_eq_nil_iff.mpr ⟨bare, rfl⟩⟩

structure Shared.Begins (config : Config) (shared : Shared δ) : Prop where
  accounts : Accounts shared [] shared
  pools : ∀ heap, shared.buffers.get heap = .ofThreshold bufferMultiple config.trimThreshold

theorem Shared.begins_of_bare {config : Config} {shared : Shared δ} {device : δ}
    (machine : shared.machine = .start device)
    (slots : ∀ manager ∈ shared.slots.toList, manager.resources = [])
    (allocators : ∀ heap, (shared.allocators.get heap).Neat ∧
      (shared.allocators.get heap).resources = [])
    (pools : ∀ heap, shared.buffers.get heap = .ofThreshold bufferMultiple config.trimThreshold)
    (retired : shared.retired.objects = []) : shared.Begins config := by
  have bareAllocators : shared.allocators.toList.flatMap Allocators.resources = [] := by
    refine List.flatMap_eq_nil_iff.mpr fun entry present => ?_
    obtain ⟨heap, rfl⟩ := PerBufferHeap.mem_toList.mp present
    exact (allocators heap).2
  have barePools : shared.buffers.toList.flatMap BucketPool.resources = [] := by
    refine List.flatMap_eq_nil_iff.mpr fun pool present => ?_
    obtain ⟨heap, rfl⟩ := PerBufferHeap.mem_toList.mp present
    rw [pools heap]
    rfl
  have nothing : shared.resources = [] := by
    unfold resources
    rw [List.flatMap_eq_nil_iff.mpr slots, bareAllocators, barePools, retired]
    rfl
  refine ⟨⟨fun heap => (allocators heap).1, ?_, .refl _⟩, pools⟩
  rw [nothing, machine]
  exact Machine.Owned.start device

theorem Shared.create_begins [Device δ] (device : δ) (config : Config) (board : Board) :
    Action.Returns (fun _ : Unit => True) (create (.start device) config board)
      (fun shared _ => shared.Begins config) fun _ => True := by
  refine Action.returns_bind (chooseAllocators_bare config .upload) fun upload => ?_
  refine Action.returns_given (fun _ ready => ready) fun uploads => ?_
  refine Action.returns_bind (Action.returns_before (chooseAllocators_bare config .readback)
    fun _ _ => trivial) fun readback => ?_
  refine Action.returns_bind (Action.returns_note _) fun _ => ?_
  refine Action.returns_pure fun _ readbacks => begins_of_bare rfl ?_ ?_ ?_ rfl
  · simp [PerKind.toList, PerKind.ofFn, SlotManager.resources, SlotManager.ofDevice]
  · intro heap
    cases heap with
    | upload => exact uploads
    | readback => exact readbacks
  · intro heap
    cases heap <;> rfl

end Opening

namespace Session

theorem openFront_accounts [Device δ] {others : List Resource} (mode : Mode) (buffers : List Buffer)
    (slots : List HeldSlot) (blocks : List Suballocation) :
    Action.Returns (Shared.Accounts (δ := δ) since others) (openFront mode)
      (fun front shared => Shared.Accounts since
        (heapResources (onlineHeaps ⟨shared, front, buffers, slots, blocks⟩) ++ others) shared)
      (Shared.Accounts since others) := by
  cases mode with
  | sharedOnly => exact Action.returns_pure fun _ accounts => accounts
  | immediate =>
    refine Action.returns_look fun seen => ?_
    refine Action.returns_bind (Immediate.createHeaps_accounts seen.config) fun heaps => ?_
    refine Action.returns_pure fun shared accounts => accounts.perm (.of_eq ?_)
    simp [heapResources, onlineHeaps]
  | online kind config =>
    refine Action.returns_bind (OnlineHeap.create_accounts kind config) fun heap => ?_
    refine Action.returns_pure fun shared accounts => accounts.perm (.of_eq ?_)
    simp [heapResources, onlineHeaps]

structure Turn (δ : Type) where
  before : Session δ
  step : ContextStep δ

section Running

variable [Device δ] {config : Config} {turns : List (Turn δ)} {session : Session δ}

-- Sessions as they come about: over a fresh shared part, with heaps beside it once they can be made,
-- and after steps, each of which returned.
inductive Went (config : Config) : List (Turn δ) → Session δ → Prop where
  | opened {device : δ} {board : Board} {shared : Shared δ}
      (made : (Shared.create (.start device) config board ()).result = .ok shared) :
      Went config [] ⟨shared, .sharedOnly, [], [], []⟩
  | fronted {turns : List (Turn δ)} {session : Session δ} {mode : Mode} {front : Front}
      (path : Went config turns session) (bare : session.front = .sharedOnly)
      (made : (openFront mode session.shared).result = .ok front) :
      Went config turns
        { session with shared := (openFront mode session.shared).state, front }
  | unfronted {turns : List (Turn δ)} {session : Session δ} {mode : Mode} {error : Error}
      (path : Went config turns session)
      (refused : (openFront mode session.shared).result = .error (.error error)) :
      Went config turns { session with shared := (openFront mode session.shared).state }
  | step {turns : List (Turn δ)} {session : Session δ} (path : Went config turns session)
      (step : ContextStep δ) (stays : step ≠ .drop)
      (returned : (step.run session).returned = true) :
      Went config (turns ++ [⟨session, step⟩]) (step.run session).state

theorem fronted_accounts {mode : Mode} {front : Front}
    (accounts : Accounts session.shared session.buffers session) (bare : session.front = .sharedOnly)
    (made : (openFront mode session.shared).result = .ok front) :
    Accounts session.shared session.buffers
      { session with shared := (openFront mode session.shared).state, front } := by
  have others : Shared.Accounts session.shared (heldResources session.buffers)
      session.shared := by
    refine accounts.shared.perm (.of_eq ?_)
    simp [heapResources, onlineHeaps, bare]
  have left := openFront_accounts mode session.buffers session.slots session.blocks
    session.shared others
  exact ⟨rfl, left.of_ok made⟩

theorem unfronted_accounts {mode : Mode} {error : Error}
    (accounts : Accounts session.shared session.buffers session)
    (refused : (openFront mode session.shared).result = .error (.error error)) :
    Accounts session.shared session.buffers
      { session with shared := (openFront mode session.shared).state } := by
  have left := openFront_accounts mode session.buffers session.slots session.blocks
    session.shared accounts.shared
  exact ⟨rfl, left.of_error refused⟩

theorem went_accounts (path : Went config turns session) :
    Accounts session.shared session.buffers session := by
  induction path with
  | opened made =>
    have begins := (Shared.create_begins _ config _ () trivial).of_ok made
    exact ⟨rfl, begins.accounts⟩
  | fronted path bare made ih => exact (fronted_accounts ih bare made).now
  | unfronted path refused ih => exact (unfronted_accounts ih refused).now
  | step path step stays returned ih => exact (step_moves ih stays returned).accounts ih

theorem opened_went {device : δ} {mode : Mode} {board : Board}
    (made : (opened device mode config board).state = some session) : Went config [] session := by
  unfold opened at made
  rcases created : Shared.create (δ := δ) (.start device) config board () with ⟨result, _, first⟩
  rw [created] at made
  cases result with
  | error stop => cases made
  | ok shared =>
    have begun : Went config [] ⟨shared, .sharedOnly, [], [], []⟩ :=
      .opened (congrArg Run.result created)
    rcases fronted : openFront mode shared with ⟨result, after, more⟩
    simp only [fronted] at made
    cases result with
    | error stop => cases made
    | ok front =>
      cases made
      have went := begun.fronted rfl (congrArg Run.result fronted)
      simp only [fronted] at went
      exact went

end Running

end Session

end Reclaim
