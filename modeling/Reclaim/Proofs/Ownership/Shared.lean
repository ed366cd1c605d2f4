import Reclaim.Context.Session
import Reclaim.Proofs.Context.Fallback
import Reclaim.Proofs.Context.Tries
import Reclaim.Proofs.Ownership.Stores
import Reclaim.Proofs.Pool.Lines

namespace Reclaim

variable {δ τ α κ : Type}

def BucketPool.resources (pool : BucketPool Buffer) : List Resource :=
  pool.entries.map fun entry => .buffer entry.item.id

def Allocators.resources (allocators : Allocators) : List Resource :=
  allocators.pooled.resources ++ allocators.dedicated.resources

structure Allocators.Neat (allocators : Allocators) : Prop where
  pooled : allocators.pooled.Neat
  dedicated : allocators.dedicated.Neat

def Retired.resource? (entry : Retired Retiree) : Option Resource :=
  match entry.object with
  | .heap object => some (.heap object.serial)
  | .object _ => none

def entryResources (entries : List (Retired Retiree)) : List Resource :=
  entries.filterMap Retired.resource?

theorem PerKind.flatMap_set (f : τ → List α) (m : PerKind τ) (kind : Kind) :
    ∃ rest, ∀ value, ((m.set kind value).toList.flatMap f).Perm (f value ++ rest) := by
  have inside : kind.index < m.toList.length := by
    cases kind <;> simp [Kind.index, toList]
  refine ⟨(m.toList.eraseIdx kind.index).flatMap f, fun value => ?_⟩
  have same : (m.set kind value).toList = m.toList.set kind.index value := by cases kind <;> rfl
  rw [same]
  exact flatMap_set_perm f m.toList inside value

theorem PerBufferHeap.mem_toList {m : PerBufferHeap τ} {value : τ} :
    value ∈ m.toList ↔ ∃ heap, m.get heap = value := by
  constructor
  · intro present
    rcases List.mem_pair.mp present with same | same
    · exact ⟨.upload, same.symm⟩
    · exact ⟨.readback, same.symm⟩
  · rintro ⟨heap, rfl⟩
    cases heap <;> simp [get, toList]

theorem PerBufferHeap.flatMap_set (f : τ → List α) (m : PerBufferHeap τ) (heap : BufferHeap) :
    ∃ rest, ∀ value, ((m.set heap value).toList.flatMap f).Perm (f value ++ rest) := by
  cases heap with
  | upload => exact ⟨[m.readback].flatMap f, fun value => List.Perm.refl _⟩
  | readback =>
    refine ⟨f m.upload, fun value => ?_⟩
    have shape : (m.set .readback value).toList.flatMap f = f m.upload ++ f value := by
      simp [set, toList]
    rw [shape]
    exact List.perm_append_comm

namespace Shared

def resources (shared : Shared δ) : List Resource :=
  shared.slots.toList.flatMap SlotManager.resources ++
    (shared.allocators.toList.flatMap Allocators.resources ++
      (shared.buffers.toList.flatMap BucketPool.resources ++ entryResources shared.retired.objects))

-- What one state has beside an earlier one: batches closed and completed, and buffers that idled too
-- long gone from the pools.
structure Precedes (before after : Shared δ) : Prop where
  known : before.known.graphics ≤ after.known.graphics
  recording : before.recording.graphics ≤ after.recording.graphics
  thinned : ∀ heap,
    (before.buffers.get heap).Thinned after.known.graphics (after.buffers.get heap)

-- Everything on the machine is held here or by others, and all that has happened since is told by
-- `Precedes`.
structure Accounts (since : Shared δ) (others : List Resource) (shared : Shared δ) : Prop where
  neat : ∀ heap, (shared.allocators.get heap).Neat
  owned : shared.machine.Owned since.machine.buffersMade (shared.resources ++ others)
  since : since.Precedes shared

variable {since shared after : Shared δ} {others more before left : List Resource}
  {refused : Shared δ → Prop}

theorem Precedes.refl (shared : Shared δ) : shared.Precedes shared :=
  ⟨Nat.le_refl _, Nat.le_refl _, fun _ => .refl _⟩

theorem Precedes.same (precedes : since.Precedes shared) (known : after.known = shared.known)
    (recording : after.recording = shared.recording) (buffers : after.buffers = shared.buffers) :
    since.Precedes after :=
  ⟨known ▸ precedes.known, recording ▸ precedes.recording, known ▸ buffers ▸ precedes.thinned⟩

namespace Accounts

theorem perm (accounts : Accounts since others shared) (same : others.Perm more) :
    Accounts since more shared :=
  { accounts with owned := accounts.owned.perm (same.append_left _) }

theorem now (accounts : Accounts since others shared) : Accounts shared others shared where
  neat := accounts.neat
  owned := {
    exact := accounts.owned.exact
    distinct := accounts.owned.distinct
    made := accounts.owned.made
    floor := Nat.le_refl _ }
  since := .refl shared

theorem quiet (accounts : Accounts since others shared)
    (known : shared.known.graphics ≤ after.known.graphics)
    (recording : shared.recording.graphics ≤ after.recording.graphics)
    (machine : after.machine.Owned since.machine.buffersMade (shared.resources ++ others))
    (slots : after.slots = shared.slots) (allocators : after.allocators = shared.allocators)
    (buffers : after.buffers = shared.buffers) (retired : after.retired = shared.retired) :
    Accounts since others after where
  neat := allocators ▸ accounts.neat
  owned := by
    have same : after.resources = shared.resources := by
      unfold resources
      rw [slots, allocators, buffers, retired]
    rwa [same]
  since := {
    known := Nat.le_trans accounts.since.known known
    recording := Nat.le_trans accounts.since.recording recording
    thinned := fun heap => buffers ▸ (accounts.since.thinned heap).mono known }

end Accounts

section Parts

-- A part that is a store on the machine: what it holds is held here, and the rest stands aside.
structure Houses (part : Part (Shared δ) (τ × Machine δ)) (resources : τ → List Resource)
    (neat : τ → Prop) : Prop where
  whole : ∀ shared, part.put (part.get shared) shared = shared
  machine : ∀ shared both, (part.put both shared).machine = both.2
  apart : ∀ shared : Shared δ, ∃ rest, ∀ both,
    (part.put both shared).resources.Perm (resources both.1 ++ rest)
  inside : ∀ shared : Shared δ, (∀ heap, (shared.allocators.get heap).Neat) →
    neat (part.get shared).1
  kept : ∀ (shared : Shared δ) both, (∀ heap, (shared.allocators.get heap).Neat) → neat both.1 →
    ∀ heap, ((part.put both shared).allocators.get heap).Neat
  same : ∀ shared both, (part.put both shared).known = shared.known ∧
    (part.put both shared).recording = shared.recording ∧
    (part.put both shared).buffers = shared.buffers

theorem accounts_on {part : Part (Shared δ) (τ × Machine δ)} {resources : τ → List Resource}
    {neat : τ → Prop} (houses : Houses part resources neat) {x : Action (τ × Machine δ) α}
    (preserves : ∀ floor others, Action.Preserves (Holding resources neat floor others) x) :
    Action.Preserves (Accounts since others) (Action.on part x) := by
  intro shared accounts
  obtain ⟨rest, parted⟩ := houses.apart shared
  have start : Holding resources neat since.machine.buffersMade (rest ++ others)
      (part.get shared) := by
    refine ⟨houses.inside shared accounts.neat, ?_⟩
    have here := parted (part.get shared)
    rw [houses.whole] at here
    rw [← houses.machine shared (part.get shared), houses.whole, ← List.append_assoc]
    exact accounts.owned.perm (here.append_right others)
  have back (both : τ × Machine δ)
      (holding : Holding resources neat since.machine.buffersMade (rest ++ others) both) :
      Accounts since others (part.put both shared) := by
    obtain ⟨known, recording, buffers⟩ := houses.same shared both
    refine ⟨houses.kept shared both accounts.neat holding.neat, ?_, ?_⟩
    · rw [houses.machine]
      refine holding.owned.perm ?_
      rw [← List.append_assoc]
      exact (parted both).symm.append_right others
    · exact accounts.since.same known recording buffers
  exact (preserves _ _ (part.get shared) start).image (fun both => part.put both shared)
    (fun _ both holding => back both holding) fun both holding => back both holding

theorem slots_house (kind : Kind) :
    Houses (slotsOf (δ := δ) kind) SlotManager.resources SlotManager.Neat where
  whole shared := by cases kind <;> rfl
  machine _ _ := rfl
  apart shared := by
    obtain ⟨rest, parted⟩ := shared.slots.flatMap_set SlotManager.resources kind
    refine ⟨rest ++ (shared.allocators.toList.flatMap Allocators.resources ++
      (shared.buffers.toList.flatMap BucketPool.resources ++
        entryResources shared.retired.objects)), fun both => ?_⟩
    rw [← List.append_assoc]
    exact (parted both.1).append_right _
  inside _ _ := trivial
  kept _ _ neat _ := neat
  same _ _ := ⟨rfl, rfl, rfl⟩

theorem pooled_house (heap : BufferHeap) :
    Houses (pooledOf (δ := δ) heap) Supply.resources Supply.Neat where
  whole shared := by cases heap <;> rfl
  machine _ _ := rfl
  apart shared := by
    obtain ⟨rest, parted⟩ := shared.allocators.flatMap_set Allocators.resources heap
    let dedicated := (shared.allocators.get heap).dedicated
    refine ⟨shared.slots.toList.flatMap SlotManager.resources ++ (dedicated.resources ++ (rest ++
      (shared.buffers.toList.flatMap BucketPool.resources ++
        entryResources shared.retired.objects))), fun both => ?_⟩
    refine (((parted ⟨both.1, dedicated⟩).append_right _).append_left _).trans ?_
    simp only [Allocators.resources, List.append_assoc]
    exact List.perm_append_comm_assoc ..
  inside shared neat := (neat heap).pooled
  kept shared both neat kept other := by
    by_cases same : other = heap
    · subst same
      simp only [pooledOf, PerBufferHeap.get_set_same]
      exact ⟨kept, (neat other).dedicated⟩
    · simp only [pooledOf, PerBufferHeap.get_set_other _ _ same]
      exact neat other
  same _ _ := ⟨rfl, rfl, rfl⟩

theorem dedicated_house (heap : BufferHeap) :
    Houses (dedicatedOf (δ := δ) heap) Dedicated.resources Dedicated.Neat where
  whole shared := by cases heap <;> rfl
  machine _ _ := rfl
  apart shared := by
    obtain ⟨rest, parted⟩ := shared.allocators.flatMap_set Allocators.resources heap
    let pooled := (shared.allocators.get heap).pooled
    refine ⟨shared.slots.toList.flatMap SlotManager.resources ++ (pooled.resources ++ (rest ++
      (shared.buffers.toList.flatMap BucketPool.resources ++
        entryResources shared.retired.objects))), fun both => ?_⟩
    refine (((parted ⟨pooled, both.1⟩).append_right _).append_left _).trans ?_
    simp only [Allocators.resources, List.append_assoc]
    refine ((List.perm_append_comm_assoc ..).append_left _).trans ?_
    exact List.perm_append_comm_assoc ..
  inside shared neat := (neat heap).dedicated
  kept shared both neat kept other := by
    by_cases same : other = heap
    · subst same
      simp only [dedicatedOf, PerBufferHeap.get_set_same]
      exact ⟨(neat other).pooled, kept⟩
    · simp only [dedicatedOf, PerBufferHeap.get_set_other _ _ same]
      exact neat other
  same _ _ := ⟨rfl, rfl, rfl⟩

theorem accounts_machine (before left : List Resource) (more : α → List Resource)
    {x : Action (Machine δ) α}
    (returns : ∀ floor owned, Action.Returns (Machine.Owned floor (before ++ owned)) x
      (fun a => Machine.Owned floor (more a ++ owned)) (Machine.Owned floor (left ++ owned))) :
    Action.Returns (Accounts since (before ++ others)) (Action.on machineOf x)
      (fun a => Accounts since (more a ++ others)) (Accounts since (left ++ others)) := by
  have swap (first second third : List Resource) :
      (first ++ (second ++ third)).Perm (second ++ (first ++ third)) :=
    List.perm_append_comm_assoc ..
  intro shared accounts
  have ran := returns _ (shared.resources ++ others) shared.machine (accounts.owned.perm (swap ..))
  have back {held : List Resource} {machine : Machine δ}
      (owned : machine.Owned since.machine.buffersMade (held ++ (shared.resources ++ others))) :
      Accounts since (held ++ others) { shared with machine } :=
    ⟨accounts.neat, owned.perm (swap ..), accounts.since.same rfl rfl rfl⟩
  exact ran.image (fun machine => { shared with machine }) (fun _ _ owned => back owned)
    fun _ owned => back owned

end Parts

section Reading

variable {pre : Shared δ → Prop}

theorem recordingFence_returns (queue : Queue) :
    Action.Returns pre (recordingFence queue)
      (fun fence shared => pre shared ∧ fence = shared.recording.get queue) refused :=
  fun _ holds => ⟨holds, rfl⟩

theorem observe_accounts (queue : Queue) (fence : Nat) :
    Action.Returns (Accounts (δ := δ) since others) (observe queue fence)
      (fun known shared => Accounts since others shared ∧
        (queue = .graphics → known = shared.known.graphics)) refused := by
  intro shared accounts
  refine ⟨accounts.quiet ?_ (Nat.le_refl _) accounts.owned rfl rfl rfl rfl, ?_⟩
  · cases queue with
    | graphics => exact Nat.le_max_left _ _
    | compute | copy => exact Nat.le_refl _
  · rintro rfl
    rfl

theorem closeBatch_accounts (queue : Queue) :
    Action.Returns (Accounts (δ := δ) since others) (closeBatch queue)
      (fun _ => Accounts since others) refused := by
  intro shared accounts
  refine accounts.quiet (Nat.le_refl _) ?_ accounts.owned rfl rfl rfl rfl
  cases queue with
  | graphics => exact Nat.le_succ _
  | compute | copy => exact Nat.le_refl _

variable [Device δ]

theorem completedFence_accounts (queue : Queue) :
    Action.Returns (Accounts (δ := δ) since others) (completedFence queue)
      (fun known shared => Accounts since others shared ∧
        (queue = .graphics → known = shared.known.graphics)) refused := by
  refine Action.returns_via (fun _ => Accounts since others) (fun shared accounts => ?_) fun fence =>
    observe_accounts queue fence
  have owned := accounts.owned
  exact accounts.quiet (Nat.le_refl _) (Nat.le_refl _)
    ⟨owned.exact, owned.distinct, owned.made, owned.floor⟩ rfl rfl rfl rfl

theorem completed_accounts :
    Action.Returns (Accounts (δ := δ) since others) (completedFence .graphics)
      (fun known shared => Accounts since others shared ∧ known ≤ shared.known.graphics) refused :=
  Action.returns_after (completedFence_accounts .graphics) fun _ _ both =>
    ⟨both.1, Nat.le_of_eq (both.2 rfl)⟩

theorem allows_accounts (board : Board) (completion : Bool) (last : Fences) (waits : List Wait) :
    Action.Returns (Accounts (δ := δ) since others) (reading.allows board completion last waits)
      (fun _ => Accounts since others) refused :=
  Reading.allows_composes (Action.returns_compositional _ _)
    (fun queue => Action.returns_after (completedFence_accounts queue) fun _ _ both => both.1)
    (fun queue => Action.returns_after (recordingFence_returns queue) fun _ _ both => both.1)
    board completion last waits

theorem waitFor_accounts (queue : Queue) (fence : Nat) :
    Action.Preserves (Accounts (δ := δ) since others) (waitFor queue fence) := by
  refine Action.returns_bind (Action.returns_after (completedFence_accounts queue)
    fun _ _ both => both.1) fun known => ?_
  split
  · exact Action.returns_pure fun _ accounts => accounts
  refine Action.returns_bind (recordingFence_returns queue) fun recording => ?_
  split
  · refine Action.returns_bind (Action.returns_note _) fun _ => ?_
    exact Action.returns_refuse fun _ both => both.1
  refine Action.returns_bind (Action.returns_before (accounts_machine [] [] (fun _ => [])
    fun _ _ => Machine.wait_returns queue fence) fun _ both => both.1) fun _ => ?_
  refine Action.returns_bind (observe_accounts queue fence) fun _ => ?_
  exact Action.returns_pure fun _ both => both.1

end Reading

section Retiring

theorem Accounts.remove {resource : Resource}
    (accounts : Accounts since (resource :: others) shared) :
    Accounts since others
      { shared with
        machine := { shared.machine with live := shared.machine.live.erase resource } } :=
  ⟨accounts.neat, (accounts.owned.perm List.perm_middle).remove, accounts.since.same rfl rfl rfl⟩

theorem drop_accounts (resource : Resource) :
    Action.Returns (Accounts (δ := δ) since (resource :: others)) (drop resource)
      (fun _ => Accounts since others) refused :=
  fun _ accounts => accounts.remove

theorem destroy_accounts (entry : Retired Retiree) (rest : List (Retired Retiree)) :
    Action.Returns (Accounts (δ := δ) since (entryResources (entry :: rest) ++ others))
      (destroy entry.object) (fun _ => Accounts since (entryResources rest ++ others)) refused := by
  obtain ⟨object, last, completion, waits⟩ := entry
  cases object with
  | heap object => exact drop_accounts (.heap object.serial)
  | object id =>
    intro shared accounts
    exact ⟨accounts.neat, accounts.owned.removeObject id, accounts.since.same rfl rfl rfl⟩

theorem giveBack_accounts (owner : Owner) (block : Block) :
    Action.Preserves (Accounts (δ := δ) since others) (giveBack owner block) := by
  unfold giveBack
  split
  · exact accounts_on (dedicated_house owner.heap) fun _ _ => Dedicated.deallocate_holding block
  · exact accounts_on (pooled_house owner.heap) fun _ _ => Supply.deallocate_holding block

theorem giveBack_surely (owner : Owner) (block : Block) :
    Action.Returns (Accounts (δ := δ) since others) (giveBack owner block)
      (fun _ => Accounts since others) refused :=
  Action.returns_surely (firm_giveBack owner block) (giveBack_accounts owner block)

theorem Accounts.part {queue : Retirement Retiree Owner} (accounts : Accounts since more shared)
    (parted : (entryResources shared.retired.objects ++ more).Perm
      (entryResources queue.objects ++ left)) :
    Accounts since left { shared with retired := queue } where
  neat := accounts.neat
  owned := by
    refine accounts.owned.perm ?_
    unfold resources
    simp only [List.append_assoc]
    exact ((parted.append_left _).append_left _).append_left _
  since := accounts.since.same rfl rfl rfl

theorem stay_accounts (f : Retirement Retiree Owner → Retirement Retiree Owner)
    (objects : ∀ queue, (f queue).objects = queue.objects) :
    Action.Returns (Accounts (δ := δ) since others) (keeper.change f)
      (fun _ => Accounts since others) refused :=
  fun shared accounts => accounts.part
    (.of_eq (congrArg (entryResources · ++ others) (objects shared.retired).symm))

variable [Device δ]

theorem retire_accounts (retiree : Retiree) (last : Fences) (completion : Bool)
    (waits : List Wait) :
    Action.Returns
      (Accounts (δ := δ) since (entryResources [⟨retiree, last, completion, waits⟩] ++ others))
      (retire retiree last completion waits) (fun _ => Accounts since others) refused := by
  let entry : Retired Retiree := ⟨retiree, last, completion, waits⟩
  refine Action.returns_look fun shared => Action.returns_bind (allows_accounts _ _ _ _) fun goes => ?_
  cases goes with
  | true =>
    exact Action.returns_bind (destroy_accounts entry []) fun _ => stay_accounts _ fun _ => rfl
  | false =>
    refine fun shared accounts => accounts.part ?_
    change (entryResources shared.retired.objects ++ (entryResources [entry] ++ others)).Perm
      (entryResources (shared.retired.objects ++ [entry]) ++ others)
    simp only [entryResources, List.filterMap_append, List.append_assoc]
    exact List.Perm.refl _

theorem retireBlock_accounts (suballocation : Suballocation) (last : Fences) :
    Action.Returns (Accounts (δ := δ) since others) (retireBlock suballocation last)
      (fun _ => Accounts since others) refused := by
  refine Action.returns_bind (allows_accounts _ _ _ _) fun goes => ?_
  cases goes with
  | true => exact Action.returns_bind (giveBack_surely _ _) fun _ => stay_accounts _ fun _ => rfl
  | false => exact stay_accounts _ fun _ => rfl

theorem trimObjects_accounts (board : Board) (teardown : Bool) :
    Action.Returns (Accounts (δ := δ) since others) (keeper.trimObjects reading board teardown)
      (fun _ => Accounts since others) refused := by
  let holds (items : List (Retired Retiree)) (shared : Shared δ) : Prop :=
    Accounts since others shared ∧ shared.retired.objects = items
  have asks (item : Retired Retiree) (rest : List (Retired Retiree)) :
      Action.Returns (holds (item :: rest))
        (if teardown then return true else item.mayGo reading board)
        (fun goes => if goes then holds (item :: rest) else Accounts since others) refused := by
    have stays : Action.Returns (holds (item :: rest))
        (if teardown then return true else item.mayGo reading board)
        (fun _ => holds (item :: rest)) refused := by
      split
      · exact Action.returns_pure fun _ held => held
      · have spared : Action.Keeps retired (item.mayGo (reading (δ := δ)) board) :=
          Reading.allows_composes (Action.keeps_compositional _) keeper_spares.completed
            keeper_spares.recording board _ _ _
        exact Action.returns_weaken
          (Action.returns_beside (p := fun queue => queue.objects = item :: rest)
            (allows_accounts board _ _ _) fun s _ => spared s)
          (fun _ held => held) (fun _ _ held => held) fun _ stopped => stopped.1
    refine Action.returns_after stays fun goes shared held => ?_
    cases goes with
    | true => exact held
    | false => exact held.1
  have takes (item : Retired Retiree) (rest : List (Retired Retiree)) :
      Action.Returns (holds (item :: rest)) (keeper.takeObject item rest) (fun _ => holds rest)
        refused := by
    refine Action.returns_via (fun _ shared =>
      Accounts since (entryResources [item] ++ others) shared ∧ shared.retired.objects = rest) ?_
      fun _ => Action.returns_weaken (Action.returns_beside (p := fun queue => queue.objects = rest)
        (destroy_accounts item []) fun s _ => keeps_drop _ s) (fun _ held => held) (fun _ _ held => held)
        fun _ stopped => stopped.1
    intro shared held
    refine ⟨held.1.part ?_, rfl⟩
    rw [held.2, entryResources, ← List.singleton_append, List.filterMap_append, List.append_assoc]
    exact List.perm_append_comm_assoc ..
  refine Action.returns_bind Action.returns_get fun seen => Action.returns_before
    (Action.returns_drain holds holds (Accounts since others) asks takes (fun _ held => held.1) _)
    fun shared both => ⟨both.1, both.2 ▸ rfl⟩

theorem trimBlocks_accounts (teardown : Bool) :
    Action.Returns (Accounts (δ := δ) since others) (keeper.trimBlocks reading teardown)
      (fun _ => Accounts since others) refused := by
  refine Action.returns_look fun seen => (Action.returns_compositional _ _).drain (fun item => ?_)
    (fun item rest => ?_) _
  · split
    · exact Action.returns_pure fun _ accounts => accounts
    · exact allows_accounts _ _ _ _
  · exact Action.returns_bind (stay_accounts _ fun _ => rfl) fun _ => giveBack_surely _ _

theorem trimRetired_accounts (teardown : Bool) :
    Action.Returns (Accounts (δ := δ) since others) (trimRetired teardown)
      (fun _ => Accounts since others) refused := by
  refine Action.returns_look fun shared => ?_
  refine Action.returns_bind (trimObjects_accounts shared.board teardown) fun objects => ?_
  refine Action.returns_bind (trimBlocks_accounts teardown) fun blocks => ?_
  have ends : Action.Returns (Accounts (δ := δ) since others)
      (do
        keeper.change fun queue =>
          { queue with
            destroyedObjects := queue.destroyedObjects + objects
            destroyedBlocks := queue.destroyedBlocks + blocks }
        return decide (0 < objects + blocks))
      (fun _ => Accounts since others) refused :=
    Action.returns_bind (stay_accounts _ fun _ => rfl) fun _ =>
      Action.returns_pure fun _ accounts => accounts
  split
  · exact Action.returns_bind (Action.returns_note _) fun _ => ends
  · exact ends

end Retiring

section Allocating

theorem freeSlot_accounts (kind : Kind) (handle : Handle) (index : Nat) :
    Action.Preserves (Accounts (δ := δ) since others) (freeSlot kind handle index) :=
  accounts_on (slots_house kind) fun _ _ => SlotManager.free_holding handle index

variable [Device δ]

theorem waitEach_accounts (fences : Fences) (queues : List Queue) (waited : Bool) :
    Action.Preserves (Accounts (δ := δ) since others) (waitEach fences queues waited) :=
  waitEach_composes (Action.returns_compositional _ _)
    (fun queue => Action.returns_after (recordingFence_returns queue) fun _ _ both => both.1)
    (fun queue => Action.returns_after (completedFence_accounts queue) fun _ _ both => both.1)
    (fun queue fence => Action.returns_after (Action.returns_attempt (waitFor_accounts queue fence))
      fun result _ kept => by cases result <;> exact kept)
    (fun _ => Action.returns_note _) fences queues waited

theorem reclaim_accounts :
    Action.Preserves (Accounts (δ := δ) since others) reclaim :=
  reclaim_composes (Action.returns_compositional _ _) (trimRetired_accounts false)
    fun fences => waitEach_accounts fences _ _

theorem createHeap_accounts (desc : HeapDesc) :
    Action.Returns (Accounts (δ := δ) since others) (createHeap desc)
      (fun object => Accounts since (.heap object.serial :: others)) (Accounts since others) :=
  allocateWith_returns reclaim_accounts (accounts_machine [] []
    (fun object : HeapObject => [.heap object.serial])
    fun _ _ => Machine.createHeap_returns desc)

theorem allocateSlot_accounts (kind : Kind) :
    Action.Preserves (Accounts (δ := δ) since others) (allocateSlot kind) :=
  allocateWith_returns reclaim_accounts (accounts_on (slots_house kind)
    fun _ _ => SlotManager.allocate_holding)

theorem suballocate_accounts (heap : BufferHeap) (size : Nat) (cannotBeOffset : Bool) :
    Action.Preserves (Accounts (δ := δ) since others) (suballocate heap size cannotBeOffset) := by
  refine Action.returns_look fun shared => ?_
  dsimp only
  split
  · refine Action.returns_bind (allocateWith_returns reclaim_accounts (accounts_on
      (dedicated_house heap) fun _ _ => Dedicated.allocate_holding size)) fun block => ?_
    exact Action.returns_pure fun _ accounts => accounts
  · refine Action.returns_bind (allocateWith_returns reclaim_accounts (accounts_on
      (pooled_house heap) fun _ _ => Supply.allocate_holding size)) fun block => ?_
    exact Action.returns_pure fun _ accounts => accounts

end Allocating

end Shared

namespace Session

theorem tryOutcomes_accounts [Device δ] {since : Shared δ} {others : List Resource}
    (outcomes : List (Option Error)) :
    Action.Preserves (Shared.Accounts since others) (tryOutcomes outcomes) := by
  intro shared accounts
  have once : Action.Preserves (fun s => Shared.Accounts since others s.2)
      (outcomesAttempt (δ := δ)).run :=
    Action.preserves_of_keeps fun _ => rfl
  have tried := Shared.tryWithin_returns Shared.reclaim_accounts once (shared.pending + 1)
    ((outcomes, 0), shared) accounts
  unfold tryOutcomes Action.attempt Shared.tryAllocate
  match Shared.tryWithin outcomesAttempt (shared.pending + 1) ((outcomes, 0), shared), tried with
  | ⟨.ok _, _, _⟩, reached => exact reached
  | ⟨.error (.error _), _, _⟩, stopped => exact stopped
  | ⟨.error (.fault _), _, _⟩, _ => trivial

end Session

end Reclaim
