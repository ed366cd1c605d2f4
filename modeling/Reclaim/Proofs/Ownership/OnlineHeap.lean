import Reclaim.Context.Immediate
import Reclaim.Proofs.Context.Composition
import Reclaim.Proofs.Ownership.Pools

namespace Reclaim

variable {δ α β : Type} {since : Shared δ} {others : List Resource}

namespace OnlineHeap

def resources (heap : OnlineHeap) : List Resource :=
  heap.objects.map fun object => .heap object.serial

def Accounts (since : Shared δ) (others : List Resource) (both : OnlineHeap × Shared δ) : Prop :=
  Shared.Accounts since (both.1.resources ++ others) both.2

theorem resources_unpark {heap : OnlineHeap} {entry : Waiting HeapObject}
    {line : FenceLine HeapObject} (shape : heap.parked.line.entries = entry :: line.entries) :
    heap.resources.Perm
      (.heap entry.item.serial :: resources { heap with parked := { heap.parked with line } }) := by
  have before : heap.resources = .heap heap.object.serial :: .heap entry.item.serial ::
      line.entries.map fun entry => .heap entry.item.serial := by
    simp [resources, objects, shape]
  have after : resources { heap with parked := { heap.parked with line } } =
      .heap heap.object.serial :: line.entries.map fun entry => .heap entry.item.serial := by
    simp [resources, objects]
  rw [before, after]
  exact List.Perm.swap ..

structure Still (heap : OnlineHeap) (holds : Shared δ → Prop) (both : OnlineHeap × Shared δ) :
    Prop where
  same : both.1 = heap
  holds : holds both.2

-- An object is at hand besides, and the heap in use is still the one it was.
def Spares (since : Shared δ) (others : List Resource) (used : HeapObject) (object : HeapObject)
    (both : OnlineHeap × Shared δ) : Prop :=
  both.1.object = used ∧
    Shared.Accounts since (.heap object.serial :: (both.1.resources ++ others)) both.2

variable {heap : OnlineHeap} {refused : OnlineHeap × Shared δ → Prop}

section Stillness

variable {pre stopped : Shared δ → Prop} {post : α → Shared δ → Prop}

theorem still_returns {x : Action (Shared δ) α} (returns : Action.Returns pre x post stopped) :
    Action.Returns (heap.Still pre) (Action.on sharedOf x) (fun a => heap.Still (post a))
      (heap.Still stopped) :=
  Action.returns_on (fun _ _ => returns) (fun _ still => still.holds)
    (fun _ _ _ still holds => ⟨still.same, holds⟩) fun _ _ still holds => ⟨still.same, holds⟩

theorem Still.accounts {both : OnlineHeap × Shared δ}
    (still : heap.Still (Shared.Accounts since (heap.resources ++ others)) both) :
    Accounts since others both := by
  obtain ⟨rfl, holds⟩ := still
  exact holds

theorem returns_still {x : Action (OnlineHeap × Shared δ) α}
    {post : α → OnlineHeap × Shared δ → Prop}
    (returns : ∀ heap : OnlineHeap, Action.Returns
      (heap.Still (Shared.Accounts since (heap.resources ++ others))) x post refused) :
    Action.Returns (Accounts since others) x post refused :=
  fun both accounts => returns both.1 both ⟨rfl, accounts⟩

theorem returns_look {f : OnlineHeap × Shared δ → Action (OnlineHeap × Shared δ) β}
    {last : β → OnlineHeap × Shared δ → Prop}
    (next : ∀ both, both.1 = heap → Action.Returns (heap.Still pre) (f both) last refused) :
    Action.Returns (heap.Still pre) (Action.get >>= f) last refused := by
  refine Action.returns_bind Action.returns_get fun both => ?_
  refine Action.returns_given (fun _ seen => (congrArg Prod.fst seen.2).trans seen.1.same) ?_
  exact fun same => Action.returns_before (next both same) fun _ seen => seen.1

theorem beside_returns {x : Action (Shared δ) α} {f : α → Action (OnlineHeap × Shared δ) β}
    {last : β → OnlineHeap × Shared δ → Prop}
    (returns : Action.Returns pre x post (Shared.Accounts since (heap.resources ++ others)))
    (next : ∀ a, Action.Returns (heap.Still (post a)) (f a) last (Accounts since others)) :
    Action.Returns (heap.Still pre) (Action.on sharedOf x >>= f) last (Accounts since others) :=
  Action.returns_bind (Action.returns_weaken (still_returns returns) (fun _ still => still)
    (fun _ _ still => still) fun _ still => still.accounts) next

theorem shared_accounts {x : Action (Shared δ) α}
    (preserves : ∀ others, Action.Preserves (Shared.Accounts since others) x) :
    Action.Preserves (Accounts since others) (Action.on sharedOf x) :=
  returns_still fun _ => Action.returns_weaken (still_returns (preserves _)) (fun _ still => still)
    (fun _ _ still => still.accounts) fun _ still => still.accounts

theorem ring_accounts (x : Action Ring α) :
    Action.Preserves (Accounts (δ := δ) since others) (Action.on ringOf x) := by
  have keeps : Action.Keeps (fun both : OnlineHeap × Shared δ => (both.1.objects, both.2))
      (Action.on ringOf x) := fun _ => rfl
  exact Action.preserves_of_keeps (p := fun seen => Shared.Accounts since
    (seen.1.map (fun object => .heap object.serial) ++ others) seen.2) keeps

end Stillness

section Making

theorem gpuBaseOf_accounts (object : HeapObject) :
    Action.Returns (Shared.Accounts (δ := δ) since (.heap object.serial :: others))
      (gpuBaseOf object) (fun _ => Shared.Accounts since (.heap object.serial :: others))
      (Shared.Accounts since others) := by
  unfold gpuBaseOf
  split
  · exact Action.returns_pure fun _ accounts => accounts
  · refine Action.returns_bind (Shared.drop_accounts _) fun _ => ?_
    exact Action.returns_refuse fun _ accounts => accounts

variable [Device δ]

theorem create_accounts (kind : Kind) (config : OnlineConfig) :
    Action.Returns (Shared.Accounts (δ := δ) since others) (create kind config)
      (fun heap => Shared.Accounts since (heap.resources ++ others))
      (Shared.Accounts since others) := by
  unfold create
  split
  · exact Action.returns_refuse fun _ accounts => accounts
  refine Action.returns_bind (Shared.createHeap_accounts _) fun object => ?_
  refine Action.returns_bind (gpuBaseOf_accounts object) fun gpuBase => ?_
  split
  · refine Action.returns_bind (Shared.drop_accounts _) fun _ => ?_
    exact Action.returns_refuse fun _ accounts => accounts
  · exact Action.returns_look fun _ => Action.returns_pure fun _ accounts => accounts

end Making

section Rolling

theorem recording_accounts (queue : Queue) :
    Action.Preserves (Accounts (δ := δ) since others)
      (Action.on sharedOf (Shared.recordingFence queue)) :=
  shared_accounts fun _ => Action.returns_after (Shared.recordingFence_returns queue)
    fun _ _ both => both.1

variable [Device δ]

theorem grow_accounts (recording : Nat) :
    Action.Preserves (Accounts (δ := δ) since others) (grow recording) := by
  refine returns_still fun heap => returns_look fun both same => ?_
  rw [same]
  refine beside_returns (Shared.createHeap_accounts _) fun object => ?_
  refine beside_returns (gpuBaseOf_accounts object) fun gpuBase => ?_
  have entered : (.heap object.serial :: (heap.resources ++ others)).Perm
      (entryResources [⟨.heap heap.object, .single .graphics recording, true, []⟩] ++
        (.heap object.serial :: (heap.resources.tail ++ others))) := List.Perm.swap ..
  refine beside_returns (Action.returns_before (Shared.retire_accounts _ _ _ _)
    fun _ accounts => accounts.perm entered) fun _ => ?_
  refine Action.returns_bind (Action.returns_modify fun both still => ?_) fun _ =>
    Action.returns_note _
  obtain ⟨rfl, holds⟩ := still
  exact holds

omit [Device δ] in
theorem spares_unpark {reached : Nat} {item : HeapObject} {rest : FenceLine HeapObject}
    {both : OnlineHeap × Shared δ} (popped : heap.parked.line.pop? reached = some (item, rest))
    (still : heap.Still (Shared.Accounts since (heap.resources ++ others)) both) :
    Spares since others heap.object item ((parkedOf.andThen BoundedPool.lineOf).put rest both) := by
  obtain ⟨rfl, accounts⟩ := still
  obtain ⟨entry, shape, -, rfl⟩ := FenceLine.pop?_some popped
  exact ⟨rfl, accounts.perm ((resources_unpark shape).append_right others)⟩

theorem make_spares (desc : HeapDesc) :
    Action.Returns (heap.Still (Shared.Accounts (δ := δ) since (heap.resources ++ others)))
      (Action.on sharedOf (Shared.createHeap desc)) (Spares since others heap.object)
      (Accounts since others) := by
  refine Action.returns_weaken (still_returns (Shared.createHeap_accounts desc))
    (fun _ still => still) ?_ fun _ still => still.accounts
  rintro object both ⟨rfl, accounts⟩
  exact ⟨rfl, accounts⟩

theorem retrieve_spares (completed : Nat) (desc : HeapDesc) :
    Action.Returns (heap.Still (Shared.Accounts (δ := δ) since (heap.resources ++ others)))
      (BoundedPool.retrieve parkedOf completed
        (fun fence => Action.on sharedOf (Shared.waitFor .graphics fence))
        (Action.on sharedOf (Shared.createHeap desc)))
      (Spares since others heap.object) (Accounts since others) := by
  refine BoundedPool.retrieve_returns (fun _ still => congrArg OnlineHeap.parked still.same)
    (fun popped _ still => spares_unpark popped still) (make_spares desc) fun fence => ?_
  exact Action.returns_weaken (still_returns (Shared.waitFor_accounts .graphics fence))
    (fun _ still => still) (fun _ _ still => still) fun _ still => still.accounts

omit [Device δ] in
theorem park_accounts {used object : HeapObject} {both : OnlineHeap × Shared δ} (base : Handle)
    (desc : HeapDesc) (recording : Nat) (spares : Spares since others used object both) :
    Accounts since others ({ install object base desc both.1 with
      parked := both.1.parked.push used recording }, both.2) := by
  obtain ⟨rfl, accounts⟩ := spares
  have parked : resources { install object base desc both.1 with
      parked := both.1.parked.push both.1.object recording } =
      .heap object.serial :: (both.1.resources.tail ++ [.heap both.1.object.serial]) := by
    simp [resources, objects, install, BoundedPool.push, FenceLine.push]
  refine accounts.perm ?_
  rw [parked]
  exact ((List.perm_append_singleton _ _).symm.cons _).append_right others

omit [Device δ] in
theorem exchange_accounts (recording : Nat) (object : HeapObject) :
    Action.Returns (Spares (δ := δ) since others heap.object object)
      (exchange heap recording object) (fun _ => Accounts since others)
      (Accounts since others) := by
  have stays : Action.Returns (Spares (δ := δ) since others heap.object object)
      (Action.on sharedOf (gpuBaseOf object)) (fun _ => Spares since others heap.object object)
      (Accounts since others) :=
    Action.returns_on (fun _ _ => gpuBaseOf_accounts object) (fun _ spares => spares.2)
      (fun _ _ _ spares accounts => ⟨spares.1, accounts⟩) fun _ _ _ accounts => accounts
  refine Action.returns_bind stays fun base => ?_
  refine Action.returns_via (fun _ => Accounts since others) (Action.returns_modify
    fun _ spares => park_accounts base heap.desc recording spares) fun _ => ?_
  exact Action.returns_look fun _ => Action.returns_note _

theorem swap_accounts (recording : Nat) :
    Action.Preserves (Accounts (δ := δ) since others) (swap recording) := by
  refine returns_still fun heap => swap_returns (fun _ still => still.same) ?_
    (make_spares heap.desc) (fun completed => retrieve_spares completed heap.desc)
    (exchange_accounts recording)
  exact Action.returns_weaken (still_returns Shared.completed_accounts) (fun _ still => still)
    (fun _ _ still => ⟨still.same, still.holds.1⟩) fun _ still => still.accounts

theorem rollOver_accounts : Action.Preserves (Accounts (δ := δ) since others) rollOver := by
  refine Action.returns_bind (recording_accounts .graphics) fun recording => ?_
  refine Action.returns_look fun both => ?_
  dsimp only
  split
  · exact grow_accounts recording
  · exact swap_accounts recording

end Rolling

section Reserving

variable [Device δ]

theorem reserve_accounts (slots : Nat) :
    Action.Preserves (Accounts (δ := δ) since others) (reserve slots) := by
  refine reserve_preserves (fun _ => True) (Action.returns_after (recording_accounts .graphics)
    fun _ _ accounts => ⟨accounts, trivial⟩) (fun _ _ => ring_accounts _) ?_
    (fun _ => ring_accounts _) rollOver_accounts
  exact shared_accounts fun _ => Action.returns_after Shared.completed_accounts fun _ _ both => both.1

omit [Device δ] in
theorem trim_accounts (threshold completed : Nat) :
    Action.Returns (Accounts (δ := δ) since others) (trim threshold completed)
      (fun _ => Accounts since others) refused := by
  refine Action.returns_bind Action.returns_get fun both => ?_
  dsimp only
  split
  · exact Action.returns_pure fun _ seen => seen.1
  rename_i object line evicted
  refine Action.returns_via (fun _ => Accounts since (.heap object.serial :: others))
    (Action.returns_modify ?_) fun _ => ?_
  · rintro now ⟨accounts, rfl⟩
    obtain ⟨entry, shape, -, rfl⟩ := FenceLine.evict?_some evicted
    exact accounts.perm (((resources_unpark shape).append_right others).trans
      List.perm_middle.symm)
  · refine Action.returns_via (fun _ => Accounts since others) ?_ fun _ =>
      Action.returns_pure fun _ accounts => accounts
    exact fun both accounts => (accounts.perm List.perm_middle).remove

end Reserving

end OnlineHeap

namespace Immediate

def Accounts (since : Shared δ) (others : List Resource) (immediate : Immediate δ) : Prop :=
  Shared.Accounts since (immediate.view.resources ++ (immediate.sampler.resources ++ others))
    immediate.shared

theorem shared_accounts {x : Action (Shared δ) α}
    (preserves : ∀ others, Action.Preserves (Shared.Accounts since others) x) :
    Action.Preserves (Accounts since others) (Action.on sharedOf x) :=
  Action.returns_on (fun _ _ => preserves _) (fun _ accounts => accounts)
    (fun _ _ _ _ accounts => accounts) fun _ _ _ accounts => accounts

theorem view_accounts {x : Action (OnlineHeap × Shared δ) α}
    (preserves : ∀ others, Action.Preserves (OnlineHeap.Accounts since others) x) :
    Action.Preserves (Accounts since others) (Action.on viewOf x) :=
  Action.returns_on (fun immediate _ => preserves (immediate.sampler.resources ++ others))
    (fun _ accounts => accounts) (fun _ _ _ _ accounts => accounts) fun _ _ _ accounts => accounts

theorem sampler_accounts {x : Action (OnlineHeap × Shared δ) α}
    (preserves : ∀ others, Action.Preserves (OnlineHeap.Accounts since others) x) :
    Action.Preserves (Accounts since others) (Action.on samplerOf x) := by
  have apart (first second : List Resource) :
      (first ++ (second ++ others)).Perm (second ++ (first ++ others)) :=
    List.perm_append_comm_assoc ..
  have inner (immediate : Immediate δ) (_ : Accounts since others immediate) :=
    preserves (immediate.view.resources ++ others)
  refine Action.returns_on inner ?_ ?_ ?_
  · exact fun immediate accounts => accounts.perm (apart ..)
  · exact fun _ _ _ _ accounts => accounts.perm (apart ..)
  · exact fun _ _ _ accounts => accounts.perm (apart ..)

variable [Device δ]

theorem createHeaps_accounts (config : Config) :
    Action.Returns (Shared.Accounts (δ := δ) since others) (createHeaps config)
      (fun heaps => Shared.Accounts since (heaps.1.resources ++ (heaps.2.resources ++ others)))
      (Shared.Accounts since others) := by
  refine Action.returns_bind (OnlineHeap.create_accounts .view config.viewHeap) fun view => ?_
  refine Action.returns_bind (Action.returns_attempt
    (OnlineHeap.create_accounts .sampler config.samplerHeap)) fun result => ?_
  cases result with
  | ok sampler =>
    refine Action.returns_pure fun shared accounts => accounts.perm ?_
    exact List.perm_append_comm_assoc ..
  | error error =>
    let left (objects : List HeapObject) : Shared δ → Prop :=
      Shared.Accounts since (objects.map (fun object => .heap object.serial) ++ others)
    refine Action.returns_via (fun _ => left []) (Action.returns_each left fun object _ =>
      Shared.drop_accounts (.heap object.serial)) fun _ => ?_
    exact Action.returns_refuse fun _ accounts => accounts

omit [Device δ] in
theorem trimOnline_accounts {part : Part (Immediate δ) (OnlineHeap × Shared δ)}
    (enters : ∀ x : Action (OnlineHeap × Shared δ) Unit,
      (∀ others, Action.Preserves (OnlineHeap.Accounts since others) x) →
        Action.Preserves (Accounts since others) (Action.on part x)) (threshold completed : Nat) :
    Action.Preserves (Accounts since others) (trimOnline part threshold completed) := by
  refine enters _ fun others => ?_
  refine Action.returns_bind (OnlineHeap.ring_accounts _) fun _ => ?_
  exact Action.returns_bind (OnlineHeap.trim_accounts threshold completed) fun _ =>
    Action.returns_pure fun _ accounts => accounts

theorem trim_accounts : Action.Preserves (Accounts (δ := δ) since others) trim := by
  refine Action.returns_bind (shared_accounts fun _ => Shared.trim_accounts) fun freed => ?_
  refine Action.returns_bind (shared_accounts fun _ => Action.returns_after
    Shared.completed_accounts fun _ _ both => both.1) fun completed => ?_
  refine Action.returns_look fun immediate => ?_
  refine Action.returns_bind (trimOnline_accounts (fun _ => view_accounts) _ _) fun _ => ?_
  refine Action.returns_bind (trimOnline_accounts (fun _ => sampler_accounts) _ _) fun _ => ?_
  exact Action.returns_pure fun _ accounts => accounts

theorem submit_accounts (queue : Queue) :
    Action.Preserves (Accounts (δ := δ) since others) (submit queue) := by
  refine Action.returns_bind (shared_accounts fun _ => Shared.closeBatch_accounts queue)
    fun fence => ?_
  refine Action.returns_bind (Action.returns_note _) fun _ => ?_
  exact Action.returns_bind trim_accounts fun _ => Action.returns_pure fun _ accounts => accounts

omit [Device δ] in
theorem closeEach_accounts (mask : QueueMask) (queues : List Queue) (fences : Fences) :
    Action.Preserves (Accounts (δ := δ) since others) (closeEach mask queues fences) := by
  induction queues generalizing fences with
  | nil => exact Action.returns_pure fun _ accounts => accounts
  | cons queue rest ih =>
    unfold closeEach
    split
    · exact Action.returns_bind (shared_accounts fun _ => Shared.closeBatch_accounts queue)
        fun _ => ih _
    · exact ih fences

theorem flush_accounts (mask : QueueMask) :
    Action.Preserves (Accounts (δ := δ) since others) (flush mask) := by
  refine Action.returns_bind (closeEach_accounts mask _ _) fun fences => ?_
  exact Action.returns_bind trim_accounts fun _ => Action.returns_pure fun _ accounts => accounts

theorem waitForIdle_accounts (queue : Queue) :
    Action.Preserves (Accounts (δ := δ) since others) (waitForIdle queue) := by
  have trims : Action.Preserves (Accounts (δ := δ) since others) (do let _ ← trim) :=
    Action.returns_bind trim_accounts fun _ => Action.returns_pure fun _ accounts => accounts
  refine Action.returns_bind (shared_accounts fun _ => Action.returns_after
    (Shared.recordingFence_returns queue) fun _ _ both => both.1) fun recording => ?_
  refine Action.returns_bind (Action.returns_checked _) fun last => ?_
  refine Action.returns_before ?_ fun _ seen => seen.1
  dsimp only
  split
  · exact Action.returns_bind (shared_accounts fun _ => Shared.waitFor_accounts queue last)
      fun _ => trims
  · exact trims

end Immediate

end Reclaim
