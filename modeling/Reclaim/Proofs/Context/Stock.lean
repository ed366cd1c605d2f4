import Reclaim.Proofs.Context.Tries
import Reclaim.Proofs.Device
import Reclaim.Proofs.Memory.Orderly

namespace Reclaim

variable {δ α : Type}

namespace Shared

variable {holds : Config → BufferHeap → Supply → Prop} {shared after : Shared δ}

-- Every pooled supply is as is said of it, and every dedicated one is in order.
structure Stocked (holds : Config → BufferHeap → Supply → Prop) (shared : Shared δ) : Prop where
  pooled : ∀ heap, holds shared.config heap (shared.allocators.get heap).pooled
  dedicated : ∀ heap, (shared.allocators.get heap).dedicated.Orderly

def stock (shared : Shared δ) : Config × PerBufferHeap Allocators :=
  (shared.config, shared.allocators)

namespace Stocked

theorem of_stock (stocked : shared.Stocked holds) (same : after.stock = shared.stock) :
    after.Stocked holds := by
  have config : after.config = shared.config := congrArg Prod.fst same
  have allocators : after.allocators = shared.allocators := congrArg Prod.snd same
  refine ⟨fun heap => ?_, fun heap => ?_⟩
  · rw [config, allocators]
    exact stocked.pooled heap
  · rw [allocators]
    exact stocked.dedicated heap

theorem mono {less : Config → BufferHeap → Supply → Prop} (stocked : shared.Stocked holds)
    (follows : ∀ config heap supply, holds config heap supply → less config heap supply) :
    shared.Stocked less :=
  ⟨fun heap => follows _ _ _ (stocked.pooled heap), stocked.dedicated⟩

theorem set {heap : BufferHeap} {allocators : Allocators} {machine : Machine δ}
    (stocked : shared.Stocked holds) (pooled : holds shared.config heap allocators.pooled)
    (dedicated : allocators.dedicated.Orderly) :
    Stocked holds { shared with
      allocators := shared.allocators.set heap allocators
      machine } := by
  refine ⟨fun other => ?_, fun other => ?_⟩ <;> by_cases same : other = heap
  · subst same
    rw [PerBufferHeap.get_set_same]
    exact pooled
  · rw [PerBufferHeap.get_set_other _ _ same]
    exact stocked.pooled other
  · subst same
    rw [PerBufferHeap.get_set_same]
    exact dedicated
  · rw [PerBufferHeap.get_set_other _ _ same]
    exact stocked.dedicated other

theorem put_pooled (stocked : shared.Stocked holds) {heap : BufferHeap} {both : Supply × Machine δ}
    (kept : holds shared.config heap both.1) : ((pooledOf heap).put both shared).Stocked holds :=
  stocked.set kept (stocked.dedicated heap)

theorem put_dedicated (stocked : shared.Stocked holds) {heap : BufferHeap}
    {both : Dedicated × Machine δ} (kept : both.1.Orderly) :
    ((dedicatedOf heap).put both shared).Stocked holds :=
  stocked.set (stocked.pooled heap) kept

end Stocked

theorem aside_stocked {x : Action (Shared δ) α} (keeps : Action.Keeps stock x) :
    Action.Preserves (Stocked holds) x :=
  Action.preserves_of_runs fun shared stocked => stocked.of_stock (keeps shared)

theorem aside_answers {x : Action (Shared δ) α} (keeps : Action.Keeps stock x)
    (returned : ∀ shared, (x shared).returned = true) : Action.Answers (Stocked holds) x :=
  fun shared stocked => ⟨returned shared, stocked.of_stock (keeps shared)⟩

theorem drop_answers (resource : Resource) :
    Action.Answers (Stocked (δ := δ) holds) (drop resource) :=
  aside_answers (fun _ => rfl) fun _ => rfl

theorem gone_stocked (gone : List Buffer) :
    Action.Preserves (Stocked (δ := δ) holds)
      (Action.each (fun buffer => drop (.buffer buffer.id)) gone) :=
  (Action.answers_each (fun _ => drop_answers _) gone).preserves

theorem release_stocked (heap : BufferHeap) (size : Nat) (buffer : Buffer) :
    Action.Preserves (Stocked (δ := δ) holds) (release heap size buffer) := by
  refine Action.returns_bind (aside_stocked fun _ => rfl) fun fence => ?_
  refine Action.returns_look fun shared => ?_
  dsimp only
  split
  · exact aside_stocked fun _ => rfl
  · exact Action.returns_bind (Action.returns_note _) fun _ => (drop_answers _).preserves

theorem trimBuffers_stocked (heap : BufferHeap) (completed : Nat) :
    Action.Preserves (Stocked (δ := δ) holds) (trimBuffers heap completed) :=
  Action.returns_look fun _ => Action.returns_bind (aside_stocked fun _ => rfl) fun _ =>
    gone_stocked _

variable [Device δ]

theorem waitFor_answers (queue : Queue) (fence : Nat) :
    Action.Answers (Stocked (δ := δ) holds) (waitFor queue fence) := by
  refine Action.answers_bind (aside_answers (fun _ => rfl) fun _ => rfl) fun known => ?_
  split
  · exact Action.answers_pure _
  refine Action.answers_bind (aside_answers (fun _ => rfl) fun _ => rfl) fun recording => ?_
  split
  · exact Action.answers_bind (Action.answers_note _) fun _ =>
      aside_answers (fun _ => rfl) fun _ => rfl
  · have waited (machine : Machine δ) : (Machine.wait queue fence machine).returned = true := by
      rcases Machine.wait_run queue fence machine with ⟨_, _, ran⟩ | ⟨_, _, ran⟩ <;>
        rw [ran] <;> rfl
    refine Action.answers_bind (aside_answers (fun _ => rfl) fun shared => waited shared.machine)
      fun _ => ?_
    exact aside_answers (fun _ => rfl) fun _ => rfl

theorem completedFence_answers (queue : Queue) :
    Action.Answers (Stocked (δ := δ) holds) (completedFence queue) :=
  aside_answers (fun _ => rfl) fun _ => rfl

omit [Device δ] in
theorem recordingFence_answers (queue : Queue) :
    Action.Answers (Stocked (δ := δ) holds) (recordingFence queue) :=
  aside_answers (fun _ => rfl) fun _ => rfl

theorem waitEach_answers (fences : Fences) (queues : List Queue) (waited : Bool) :
    Action.Answers (Stocked (δ := δ) holds) (waitEach fences queues waited) :=
  waitEach_composes (Action.answers_compositional _) recordingFence_answers completedFence_answers
    (fun queue fence => Action.answers_attempt (waitFor_answers queue fence))
    (fun _ => Action.answers_note _) fences queues waited

section Supplied

variable (lasting : ∀ config heap, Supply.Lasting δ (holds config heap))

include lasting

theorem giveBack_answers (owner : Owner) (block : Block) :
    Action.Answers (Stocked (δ := δ) holds) (giveBack owner block) := by
  unfold giveBack
  split
  · exact Action.answers_on (fun _ _ => Dedicated.deallocate_answers block)
      (fun _ stocked => stocked.dedicated owner.heap) fun _ _ stocked => stocked.put_dedicated
  · exact Action.answers_on (fun shared _ => (lasting shared.config owner.heap).deallocate block)
      (fun _ stocked => stocked.pooled owner.heap) fun _ _ stocked => stocked.put_pooled

theorem keeper_answers :
    keeper.Handles (fun _ x => Action.Answers (Stocked (δ := δ) holds) x) reading where
  completed := completedFence_answers
  recording := recordingFence_answers
  change _ := aside_answers (fun _ => rfl) fun _ => rfl
  destroy _ := drop_answers _
  giveBack := giveBack_answers lasting
  tell _ _ := Action.answers_note _

theorem trimRetired_answers (teardown : Bool) :
    Action.Answers (Stocked (δ := δ) holds) (trimRetired teardown) :=
  Action.answers_look fun _ =>
    (keeper_answers lasting).trim (Action.answers_compositional _) _ teardown

theorem retire_answers (retiree : Retiree) (last : Fences) (completion : Bool)
    (waits : List Wait) :
    Action.Answers (Stocked (δ := δ) holds) (retire retiree last completion waits) :=
  Action.answers_look fun _ =>
    (keeper_answers lasting).addObject (Action.answers_compositional _) _ _

theorem retireBlock_answers (suballocation : Suballocation) (last : Fences) :
    Action.Answers (Stocked (δ := δ) holds) (retireBlock suballocation last) :=
  (keeper_answers lasting).addBlock (Action.answers_compositional _) _

theorem reclaim_answers : Action.Answers (Stocked (δ := δ) holds) reclaim :=
  reclaim_composes (Action.answers_compositional _) (trimRetired_answers lasting false)
    fun fences => waitEach_answers fences _ _

theorem trim_stocked : Action.Preserves (Stocked (δ := δ) holds) trim := by
  refine Action.returns_bind (trimRetired_answers lasting false).preserves fun freed => ?_
  refine Action.returns_bind (aside_stocked fun _ => rfl) fun completed => ?_
  refine Action.returns_bind (trimBuffers_stocked .upload completed) fun _ => ?_
  refine Action.returns_bind (trimBuffers_stocked .readback completed) fun _ => ?_
  exact Action.returns_pure fun _ stocked => stocked

theorem allocateWith_stocked {x : Action (Shared δ) α} {kept : Action.Keeps Shared.retired x}
    (once : Action.Preserves (Stocked holds) x) :
    Action.Preserves (Stocked holds) (allocateWith x kept) :=
  allocateWith_returns (reclaim_answers lasting).preserves once

theorem createHeap_stocked (desc : HeapDesc) :
    Action.Preserves (Stocked (δ := δ) holds) (createHeap desc) :=
  allocateWith_stocked lasting (aside_stocked fun _ => rfl)

theorem acquire_stocked (heap : BufferHeap) (size : Nat) :
    Action.Preserves (Stocked (δ := δ) holds) (acquire heap size) := by
  refine Action.returns_bind (aside_stocked fun _ => rfl) fun completed => ?_
  refine Action.returns_look fun shared => ?_
  dsimp only
  split
  · exact Action.returns_bind (aside_stocked fun _ => rfl) fun _ =>
      Action.returns_pure fun _ stocked => stocked
  refine Action.returns_bind (Action.returns_checked _) fun aligned => ?_
  refine Action.returns_before ?_ fun _ both => both.1
  exact Action.returns_bind (Action.returns_note _) fun _ =>
    allocateWith_stocked lasting (aside_stocked fun _ => rfl)

theorem allocateSlot_stocked (kind : Kind) :
    Action.Preserves (Stocked (δ := δ) holds) (allocateSlot kind) :=
  allocateWith_stocked lasting (aside_stocked fun _ => rfl)

omit lasting in
theorem dedicate_stocked (heap : BufferHeap) (size : Nat) :
    Action.Preserves (Stocked (δ := δ) holds)
      (Action.on (dedicatedOf heap) (Dedicated.allocate size)) :=
  Action.returns_on (fun _ _ => Dedicated.allocate_orderly size)
    (fun _ stocked => stocked.dedicated heap) (fun _ _ _ stocked => stocked.put_dedicated)
    fun _ _ stocked => stocked.put_dedicated

theorem supply_stocked (heap : BufferHeap) (size : Nat) :
    Action.Preserves (Stocked (δ := δ) holds)
      (Action.on (pooledOf heap) (Supply.allocate size)) :=
  Action.returns_on (fun shared _ => (lasting shared.config heap).allocate size)
    (fun _ stocked => stocked.pooled heap) (fun _ _ _ stocked => stocked.put_pooled)
    fun _ _ stocked => stocked.put_pooled

theorem suballocate_stocked (heap : BufferHeap) (size : Nat) (cannotBeOffset : Bool) :
    Action.Preserves (Stocked (δ := δ) holds) (suballocate heap size cannotBeOffset) := by
  refine Action.returns_look fun shared => ?_
  dsimp only
  split
  · exact Action.returns_bind (allocateWith_stocked lasting (dedicate_stocked heap size)) fun _ =>
      Action.returns_pure fun _ stocked => stocked
  · exact Action.returns_bind (allocateWith_stocked lasting (supply_stocked lasting heap size))
      fun _ => Action.returns_pure fun _ stocked => stocked

end Supplied

end Shared

end Reclaim
