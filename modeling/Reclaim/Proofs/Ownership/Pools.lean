import Reclaim.Proofs.Ownership.Shared

namespace Reclaim

variable {δ : Type}

namespace Shared

variable {since shared after : Shared δ} {others more left : List Resource}
  {refused : Shared δ → Prop} {heap : BufferHeap} {pool rest : BucketPool Buffer} {buffer : Buffer}

theorem repooled {p : BufferHeap → BucketPool Buffer → Prop} (here : p heap pool)
    (all : ∀ other, p other (shared.buffers.get other)) (other : BufferHeap) :
    p other (((buffersOf heap).put pool shared).buffers.get other) := by
  by_cases same : other = heap
  · subst same
    exact (PerBufferHeap.get_set_same shared.buffers other pool).symm ▸ here
  · exact (PerBufferHeap.get_set_other shared.buffers pool same).symm ▸ all other

theorem resources_repool
    (parted : ((shared.buffers.get heap).resources ++ more).Perm (pool.resources ++ left)) :
    (shared.resources ++ more).Perm (((buffersOf heap).put pool shared).resources ++ left) := by
  obtain ⟨rest, holds⟩ := shared.buffers.flatMap_set BucketPool.resources heap
  have before := holds (shared.buffers.get heap)
  have unchanged : shared.buffers.set heap (shared.buffers.get heap) = shared.buffers := by
    cases heap <;> rfl
  rw [unchanged] at before
  have aside (pooled retired held : List Resource) :
      (pooled ++ rest ++ (retired ++ held)).Perm (pooled ++ held ++ (rest ++ retired)) := by
    simp only [List.append_assoc]
    refine List.Perm.append_left pooled ?_
    rw [← List.append_assoc]
    exact List.perm_append_comm
  unfold resources
  simp only [List.append_assoc]
  refine List.Perm.append_left _ (List.Perm.append_left _ ?_)
  calc (shared.buffers.toList.flatMap BucketPool.resources ++
        (entryResources shared.retired.objects ++ more)).Perm _ := before.append_right _
    List.Perm _ _ := aside ..
    List.Perm _ _ := parted.append_right _
    List.Perm _ _ := (aside ..).symm
    List.Perm _ _ := (holds pool).symm.append_right _

theorem Accounts.repool (accounts : Accounts since more shared)
    (thinned : (shared.buffers.get heap).Thinned shared.known.graphics pool)
    (parted : ((shared.buffers.get heap).resources ++ more).Perm (pool.resources ++ left)) :
    Accounts since left ((buffersOf heap).put pool shared) where
  neat := accounts.neat
  owned := accounts.owned.perm (resources_repool parted)
  since := {
    known := accounts.since.known
    recording := accounts.since.recording
    thinned := repooled ((accounts.since.thinned heap).trans thinned (Nat.le_refl _))
      accounts.since.thinned }

theorem trimBuffers_accounts (heap : BufferHeap) (completed : Nat) :
    Action.Returns
      (fun shared => Accounts (δ := δ) since others shared ∧ completed ≤ shared.known.graphics)
      (trimBuffers heap completed)
      (fun _ shared => Accounts since others shared ∧ completed ≤ shared.known.graphics)
      refused := by
  refine Action.returns_bind Action.returns_get fun shared => ?_
  obtain ⟨alike, gone, items, parted, waited⟩ :=
    BucketPool.entries_evict (shared.buffers.get heap) completed
  let known (now : Shared δ) : Prop := completed ≤ now.known.graphics
  let leaves (buffers : List Buffer) (now : Shared δ) : Prop :=
    Accounts since (buffers.map (fun buffer => .buffer buffer.id) ++ others) now ∧ known now
  refine Action.returns_via (fun _ => leaves (gone.map (·.item))) (Action.returns_modify ?_)
    fun _ => ?_
  · rintro now ⟨⟨accounts, come⟩, rfl⟩
    refine ⟨accounts.repool ⟨alike, gone, parted, fun entry present => ?_⟩ ?_, come⟩
    · exact Nat.le_trans (waited entry present) come
    · have held := (parted.map fun entry => Resource.buffer entry.item.id).append_right others
      rw [List.map_append, List.append_assoc] at held
      refine held.trans ?_
      simp only [List.map_map, Function.comp_def]
      exact List.perm_append_comm_assoc ..
  · change Action.Returns _ (Action.each _ ((shared.buffers.get heap).evict completed).1) _ _
    rw [items]
    refine Action.returns_each leaves fun buffer rest now ⟨accounts, come⟩ => ?_
    exact ⟨accounts.remove, come⟩

theorem trim_accounts [Device δ] :
    Action.Returns (Accounts (δ := δ) since others) trim (fun _ => Accounts since others)
      refused := by
  refine Action.returns_bind (trimRetired_accounts false) fun freed => ?_
  refine Action.returns_bind completed_accounts fun completed => ?_
  refine Action.returns_bind (trimBuffers_accounts .upload completed) fun _ => ?_
  refine Action.returns_bind (trimBuffers_accounts .readback completed) fun _ => ?_
  exact Action.returns_pure fun _ both => both.1

-- Where an acquired buffer is from: out of the pool of its heap, once its fence was reached, or made
-- for the occasion.
inductive Acquired (since : Shared δ) (others : List Resource) (heap : BufferHeap)
    (buffer : Buffer) : Shared δ → Prop where
  | pooled {middle : Shared δ} {entry : Waiting Buffer} {rest : BucketPool Buffer}
      (accounts : Accounts since others middle) (item : entry.item = buffer)
      (reached : entry.fence ≤ middle.known.graphics)
      (alike : (middle.buffers.get heap).Alike rest)
      (parted : (middle.buffers.get heap).entries.Perm (entry :: rest.entries)) :
      Acquired since others heap buffer ((buffersOf heap).put rest middle)
  | made {shared : Shared δ} (accounts : Accounts since (.buffer buffer.id :: others) shared)
      (here : buffer.heap = heap) (fresh : since.machine.buffersMade < buffer.id) :
      Acquired since others heap buffer shared

theorem Acquired.accounts (acquired : Acquired since others heap buffer shared) :
    Accounts shared (.buffer buffer.id :: others) shared := by
  cases acquired with
  | made accounts here fresh => exact accounts.now
  | @pooled middle entry rest accounts item reached alike parted =>
    have changed : (middle.resources ++ others).Perm
        (((buffersOf heap).put rest middle).resources ++ (.buffer buffer.id :: others)) := by
      refine resources_repool ?_
      have held := (parted.map fun entry => Resource.buffer entry.item.id).append_right others
      rw [List.map_cons, item] at held
      exact held.trans List.perm_middle.symm
    exact {
      neat := accounts.neat
      owned := accounts.now.owned.perm changed
      since := .refl _ }

theorem createBuffer_accounts [Device δ] (heap : BufferHeap) (size : Nat) :
    Action.Returns (Accounts (δ := δ) since others)
      (Action.on machineOf (Machine.createBuffer heap size))
      (fun buffer => Acquired since others heap buffer) (Accounts since others) := by
  refine Action.returns_on (fun shared _ => Machine.createBuffer_returns heap size)
    (fun _ accounts => accounts.owned) ?_ ?_
  · rintro shared buffer machine accounts ⟨owned, here, fresh⟩
    refine .made ⟨accounts.neat, ?_, accounts.since.same rfl rfl rfl⟩ here fresh
    exact owned.perm List.perm_middle.symm
  · exact fun shared machine accounts owned =>
      ⟨accounts.neat, owned, accounts.since.same rfl rfl rfl⟩

theorem acquire_accounts [Device δ] (heap : BufferHeap) (size : Nat) :
    Action.Returns (Accounts (δ := δ) since others) (acquire heap size)
      (fun buffer => Acquired since others heap buffer) (Accounts since others) := by
  refine Action.returns_bind completed_accounts fun completed => ?_
  refine Action.returns_bind Action.returns_get fun shared => ?_
  dsimp only
  split
  · rename_i item rest popped
    obtain ⟨alike, -, entry, same, reached, parted⟩ := BucketPool.entries_pop? popped
    refine Action.returns_via (fun _ => Acquired since others heap item) (Action.returns_modify ?_)
      fun _ => Action.returns_pure fun _ acquired => acquired
    rintro now ⟨⟨accounts, come⟩, rfl⟩
    exact .pooled accounts same (Nat.le_trans reached come) alike parted
  · refine Action.returns_bind (Action.returns_checked _) fun aligned => ?_
    refine Action.returns_bind (Action.returns_note _) fun _ => ?_
    refine Action.returns_before (allocateWith_returns reclaim_accounts
      (createBuffer_accounts heap aligned)) ?_
    exact fun _ held => held.1.1.1

inductive Released (before : Shared δ) (heap : BufferHeap) (size : Nat) (buffer : Buffer) :
    Shared δ → Prop where
  | pooled {pool : BucketPool Buffer}
      (alike : (before.buffers.get heap).Alike pool)
      (parted : pool.entries.Perm
        (⟨before.recording.graphics, buffer⟩ :: (before.buffers.get heap).entries)) :
      Released before heap size buffer ((buffersOf heap).put pool before)
  | dropped (full : BucketPool.maxBuckets ≤
      BucketPool.bucket (before.buffers.get heap).multiple size) :
      Released before heap size buffer { before with
        machine := { before.machine with live := before.machine.live.erase (.buffer buffer.id) } }

theorem Released.accounts (accounts : Accounts since (.buffer buffer.id :: others) shared)
    {size : Nat} (released : Released shared heap size buffer after) :
    Accounts after others after := by
  cases released with
  | dropped full => exact accounts.remove.now
  | @pooled pool alike parted =>
    have changed : (shared.resources ++ (.buffer buffer.id :: others)).Perm
        (((buffersOf heap).put pool shared).resources ++ others) := by
      refine resources_repool ?_
      have held := (parted.map fun entry => Resource.buffer entry.item.id).append_right others
      exact (held.trans List.perm_middle.symm).symm
    exact {
      neat := accounts.neat
      owned := accounts.now.owned.perm changed
      since := .refl _ }

theorem release_returns (heap : BufferHeap) (size : Nat) (buffer : Buffer) (before : Shared δ) :
    Action.Returns (· = before) (release heap size buffer)
      (fun _ => Released before heap size buffer) refused := by
  refine Action.returns_bind (recordingFence_returns .graphics) fun fence => ?_
  refine Action.returns_bind Action.returns_get fun shared => ?_
  dsimp only
  split
  · rename_i pool pushed
    refine Action.returns_modify ?_
    rintro now ⟨⟨rfl, rfl⟩, rfl⟩
    obtain ⟨alike, parted⟩ := BucketPool.entries_push? pushed
    exact .pooled alike parted
  · rename_i refused
    refine Action.returns_bind (Action.returns_note _) fun _ => ?_
    rintro now ⟨⟨rfl, -⟩, rfl⟩
    exact .dropped (BucketPool.push?_none refused)

end Shared

section Sizes

open BucketPool

theorem Word.lt_of_mul {a b product : Nat} (fits : mul a b = .ok product) : a * b < limit := by
  unfold mul at fits
  split at fits
  · assumption
  · cases fits

theorem BucketPool.lt_of_aligned {multiple size aligned : Nat}
    (fits : alignedSize multiple size = .ok aligned) :
    (bucket multiple size + 1) * multiple < Word.limit := by
  unfold alignedSize Word.add at fits
  split at fits
  · exact Word.lt_of_mul fits
  · cases fits

theorem BucketPool.bucket_of_aligned {size aligned : Nat}
    (fits : alignedSize bufferMultiple size = .ok aligned) :
    bucket bufferMultiple size < maxBuckets := by
  have room := lt_of_aligned fits
  generalize bucket bufferMultiple size = index at room ⊢
  unfold Word.limit bufferMultiple at room
  unfold maxBuckets
  omega

theorem Shared.acquire_fits [Device δ] {threshold : Nat} (heap : BufferHeap) (size : Nat) :
    Action.Returns
      (fun shared : Shared δ => (ofThreshold bufferMultiple threshold).Alike
        (shared.buffers.get heap))
      (acquire heap size) (fun _ _ => bucket bufferMultiple size < maxBuckets)
      fun _ => True := by
  have looks : Action.Keeps (fun shared : Shared δ => shared.buffers.get heap)
      (completedFence .graphics) := fun _ => rfl
  have settled {α : Type} (x : Action (Shared δ) α) (fact : Prop) :
      Action.Returns (fun _ => fact) x (fun _ _ => fact) fun _ => True :=
    Action.returns_weaken (Action.preserves_fact fact x) (fun _ => id) (fun _ _ => id)
      fun _ _ => trivial
  refine Action.returns_bind (Action.returns_weaken (Action.preserves_of_keeps
    (p := fun pool => (ofThreshold bufferMultiple threshold).Alike pool) looks) (fun _ => id)
    (fun _ _ => id) fun _ _ => trivial) fun completed => ?_
  refine Action.returns_bind Action.returns_get fun shared => ?_
  dsimp only
  split
  · rename_i item rest popped
    refine Action.returns_before (settled _ _) ?_
    rintro now ⟨alike, rfl⟩
    have inside := (entries_pop? popped).2.1
    change bucket (shared.buffers.get heap).multiple size <
      (shared.buffers.get heap).buckets.length at inside
    rw [alike.multiple] at inside
    exact Nat.lt_of_lt_of_le inside (alike.room (Nat.zero_le _))
  · refine Action.returns_bind (Action.returns_checked _) fun aligned => ?_
    refine Action.returns_before (settled _ _) ?_
    rintro now ⟨⟨alike, rfl⟩, fits⟩
    change alignedSize (shared.buffers.get heap).multiple size = .ok aligned at fits
    rw [alike.multiple] at fits
    exact bucket_of_aligned fits

end Sizes

end Reclaim
