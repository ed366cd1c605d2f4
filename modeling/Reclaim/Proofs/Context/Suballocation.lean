import Reclaim.Proofs.Context.Retrying
import Reclaim.Proofs.Memory.Routing

namespace Reclaim

variable {δ α κ : Type}

section Opening

theorem Supply.choose_fits {config : Config} {layout : BuddyLayout} (heap : BufferHeap)
    (chosen : config.buddyLayout? = .ok layout) :
    Action.Returns (fun _ : Unit => True) (choose heap config.useBuddy layout)
      (fun supply _ => supply.Fits config config) fun _ => True := by
  unfold choose
  split
  · rename_i uses
    refine Action.returns_bind (Action.returns_note _) fun _ => ?_
    refine Action.returns_bind (Action.returns_settle _) fun buddy => ?_
    refine Action.returns_pure fun _ made => ⟨Buddy.ofLayout?_orderly made.2, ?_, rfl⟩
    obtain ⟨-, -, heapSize, minBlock, -⟩ := Buddy.ofLayout?_fits made.2
    unfold Config.buddyLayout? at chosen
    split at chosen
    · rename_i rounded
      cases chosen
      obtain ⟨rfl, -⟩ := Word.powerAbove_of_powerAbove? rounded
      rw [Word.powerAbove_twice] at heapSize
      simp [Supply.plan, Config.plan, uses, minBlock, heapSize]
    · cases chosen
  · rename_i alone
    refine Action.returns_bind (Action.returns_note _) fun _ => ?_
    refine Action.returns_pure fun _ _ => ⟨Dedicated.ofHeap_orderly heap, ?_, rfl⟩
    simp [Supply.plan, Config.plan, alone]

theorem Shared.chooseAllocators_fits (config : Config) (heap : BufferHeap) :
    Action.Returns (fun _ : Unit => True) (chooseAllocators config heap)
      (fun allocators _ => allocators.pooled.Fits config config ∧ allocators.dedicated.Orderly)
      fun _ => True := by
  refine Action.returns_bind (Action.returns_settle _) fun layout => ?_
  refine Action.returns_given (fun _ settled => settled.2) fun chosen => ?_
  refine Action.returns_bind (Action.returns_before (Supply.choose_fits heap chosen)
    fun _ _ => trivial) fun supply => ?_
  exact Action.returns_pure fun _ fits => ⟨fits, Dedicated.ofHeap_orderly heap⟩

def Shared.LaidOut (config : Config) (shared : Shared δ) : Prop :=
  shared.Stocked fun now _ => Supply.Fits config now

theorem Session.went_laidOut [Device δ] {config : Config} {turns : List (Turn δ)}
    {session : Session δ} (path : Went config turns session) : session.shared.LaidOut config :=
  went_stocked (fun now _ => Supply.fits_lasting config now)
    (fun device board _ made =>
      (Shared.create_stocked (Shared.chooseAllocators_fits config) device board ()
        trivial).of_ok made)
    path

end Opening

namespace Shared

def supplyOf (owner : Owner) (shared : Shared δ) : Supply :=
  if owner.dedicated then .dedicated (shared.allocators.get owner.heap).dedicated
  else (shared.allocators.get owner.heap).pooled

section Supplies

variable {shared after : Shared δ} {heap : BufferHeap}

theorem supplyOf_of_stock (same : after.stock = shared.stock) (owner : Owner) :
    after.supplyOf owner = shared.supplyOf owner := by
  have allocators : after.allocators = shared.allocators := congrArg Prod.snd same
  unfold supplyOf
  rw [allocators]

theorem supplyOf_dedicated (both : Dedicated × Machine δ) :
    ((dedicatedOf heap).put both shared).supplyOf ⟨heap, true⟩ = .dedicated both.1 := by
  simp [supplyOf, dedicatedOf]

theorem supplyOf_pooled (both : Supply × Machine δ) :
    ((pooledOf heap).put both shared).supplyOf ⟨heap, false⟩ = both.1 := by
  simp [supplyOf, pooledOf]

end Supplies

variable [Device δ] {config : Config} {shared after : Shared δ} {events : List Event}
  {heap : BufferHeap} {size bytes : Nat}

theorem reclaim_stock (ran : reclaim shared = ⟨.ok false, after, events⟩) :
    after.stock = shared.stock := by
  obtain ⟨trimmed, earlier, later, first, -, came⟩ := reclaim_false ran
  have aside : IsAside (stock (δ := δ)) := fun _ _ _ => rfl
  have asked := (trimRetired_false first).1.view_eq aside
  rcases came with ⟨-, rfl⟩ | ⟨fences, waited, middle, waits, ends, -, second, -, last⟩
  · exact asked
  have kept := keeps_waitEach aside fences Queue.all false trimmed
  rw [second] at kept
  rcases last with ⟨-, rfl, -⟩ | ⟨-, last⟩
  · exact kept.trans asked
  · exact ((trimRetired_false last).1.view_eq aside).trans (kept.trans asked)

-- What every try provides, whatever state it starts from, the tries provide: the last one does, and
-- all that has happened in it has happened in the whole. What ran short in it is still short when a
-- reclaim has freed nothing.
theorem Tries.provides {attempt : Attempt κ δ α} {s : κ × Shared δ}
    {tries : List (Run (κ × Shared δ) α)} {whole : Run (κ × Shared δ) α}
    {holds : Shared δ → Prop} {right : α → κ × Shared δ → Prop}
    {short : Error → κ × Shared δ → Prop}
    (path : Tries attempt s tries whole) (reclaims : Action.Preserves holds reclaim)
    (lasts : Action.Preserves (fun s => holds s.2) attempt.run)
    (each : ∀ s, holds s.2 → (attempt.run s).Provides bytes right short)
    (still : ∀ error own refused after, stock after = stock refused →
      short error (own, refused) → short error (own, after))
    (held : holds s.2) : whole.Provides bytes right short := by
  induction path with
  | last enough => exact each _ held
  | givenUp tried scarce kept =>
    have once := each _ held
    rw [tried] at once
    exact once.imp (still _ _ _ _ (reclaim_stock kept)) fun ⟨heap, told⟩ =>
      ⟨heap, List.mem_append_left _ told⟩
  | again tried scarce freed rest ih =>
    have refused := lasts _ held
    rw [tried] at refused
    have eased := reclaims _ refused
    rw [freed] at eased
    exact (ih eased).told fun event told => List.mem_append_right _ (List.mem_cons_of_mem _ told)

theorem allocateWith_provides {x : Action (Shared δ) α} {kept : Action.Keeps Shared.retired x}
    {right : α → Shared δ → Prop} {owner : Owner} (laidOut : shared.LaidOut config)
    (lasts : ∀ holds, (∀ now heap, Supply.Lasting δ (holds now heap)) →
      Action.Preserves (Stocked holds) x)
    (each : ∀ shared, shared.LaidOut config → (x shared).Provides bytes right fun error after =>
      (after.supplyOf owner).Short size error) :
    (allocateWith x kept shared).Provides bytes right fun error after =>
      (after.supplyOf owner).Short size error := by
  have orderly : shared.Orderly := laidOut.mono fun _ _ _ fits => fits.1
  have lawful := plain_lawful kept (lasts _ fun _ _ => Supply.orderly_lasting)
  obtain ⟨tries, whole, path⟩ := Orderly.tries_end lawful (s := ((), shared)) orderly
  have lasting (now : Config) (_ : BufferHeap) := Supply.fits_lasting (δ := δ) config now
  have once (s : Unit × Shared δ) (laidOut : s.2.LaidOut config) :
      ((Attempt.plain x kept).run s).Provides bytes (fun a t => right a t.2) fun error t =>
        (t.2.supplyOf owner).Short size error :=
    (each s.2 laidOut).image (fun t => (s.1, t)) (fun _ _ made => made) fun _ _ short => short
  have still (error : Error) (_ : Unit) (refused after : Shared δ)
      (same : after.stock = refused.stock) (short : (refused.supplyOf owner).Short size error) :
      (after.supplyOf owner).Short size error :=
    supplyOf_of_stock same owner ▸ short
  have provides := path.provides (reclaim_answers lasting).preserves
    (Action.preserves_on .second (lasts _ lasting)) once still laidOut
  rw [← path.whole_eq] at provides
  exact provides.image Prod.snd (fun _ _ made => made) fun _ _ short => short

theorem dedicate_provides (some_bytes : 0 < size) (shared : Shared δ) :
    (Action.on (dedicatedOf heap) (Dedicated.allocate size) shared).Provides size
      (fun block after => block.Serves config size true ∧
        (after.supplyOf ⟨heap, true⟩).Backs size block)
      fun error after => (after.supplyOf ⟨heap, true⟩).Short size error := by
  refine (Dedicated.allocate_provides some_bytes _).image
    (fun both => (dedicatedOf heap).put both shared)
    (fun block both ⟨start, whole, backed⟩ => ?_) fun error both short => ?_
  · rw [supplyOf_dedicated]
    exact ⟨Block.serves_whole some_bytes start whole, backed⟩
  · rw [supplyOf_dedicated]
    exact short

theorem supply_provides (laidOut : shared.LaidOut config) (some_bytes : 0 < size)
    (small : size ≤ config.buddyThreshold) :
    (Action.on (pooledOf heap) (Supply.allocate size) shared).Provides
      (config.heapBytes size !config.useBuddy)
      (fun block after => block.Serves config size (!config.useBuddy) ∧
        (after.supplyOf ⟨heap, false⟩).Backs (config.heapBytes size !config.useBuddy) block)
      fun error after => (after.supplyOf ⟨heap, false⟩).Short size error := by
  refine ((laidOut.pooled heap).provides shared.machine some_bytes small).image
    (fun both => (pooledOf heap).put both shared)
    (fun block both ⟨serves, backed⟩ => ?_) fun error both short => ?_
  · rw [supplyOf_pooled]
    exact ⟨serves, backed⟩
  · rw [supplyOf_pooled]
    exact short

-- In any context that has come about, with whatever configuration it was accepted with, a request
-- for at least one byte never faults. It comes to a block that is right for it and lies in a device
-- heap in use, or it fails because the supply it goes to has no such block left, or no bytes or
-- numbers to enter it by, or because the device has failed.
theorem suballocate_provides {turns : List (Session.Turn δ)} {session : Session δ}
    (path : Session.Went config turns session) (heap : BufferHeap) (some_bytes : 1 ≤ size)
    (cannotBeOffset : Bool) :
    let apart := config.setsApart size cannotBeOffset
    let owner := ⟨heap, needsOwnHeap size config.buddyThreshold cannotBeOffset⟩
    (suballocate heap size cannotBeOffset session.shared).Provides (config.heapBytes size apart)
      (fun made after => made.owner = owner ∧ made.block.Serves config size apart ∧
        (after.supplyOf owner).Backs (config.heapBytes size apart) made.block)
      fun error after => (after.supplyOf owner).Short size error := by
  intro apart owner
  have laidOut := Session.went_laidOut path
  have same : session.shared.config = config := (laidOut.pooled heap).2.2
  unfold suballocate
  rw [Action.run_bind, Action.run_get, Run.andThen_ok, List.nil_append, same]
  by_cases own : needsOwnHeap size config.buddyThreshold cannotBeOffset = true
  · have alone : apart = true := by simp [apart, Config.setsApart, own]
    have from_own : owner = ⟨heap, true⟩ := congrArg (Owner.mk heap) own
    rw [alone, from_own, if_pos own, Action.run_bind]
    exact (allocateWith_provides laidOut (fun _ _ => dedicate_stocked heap size)
      fun _ _ => dedicate_provides some_bytes _).map _ fun _ _ made => ⟨rfl, made⟩
  · have shared : apart = !config.useBuddy := by simp [apart, Config.setsApart, own]
    have from_pool : owner = ⟨heap, false⟩ := congrArg (Owner.mk heap) (Bool.eq_false_iff.mpr own)
    have small : size ≤ config.buddyThreshold := by
      simp [needsOwnHeap] at own
      exact own.1
    rw [shared, from_pool, if_neg own, Action.run_bind]
    exact (allocateWith_provides laidOut (fun _ lasting => supply_stocked lasting heap size)
      fun _ laidOut => supply_provides laidOut some_bytes small).map _ fun _ _ made => ⟨rfl, made⟩

-- A threshold of 100 bytes makes heaps of 128. A request for 40 gets 64 of them, the least block being
-- 32, and where it cannot be offset it gets a heap of just its size.
theorem suballocate_provides_rounded :
    ∃ (turns : List (Session.Turn Scripted)) (session : Session Scripted),
      Session.Went { Config.minimal with
        buddyThreshold := 100, buddyCapacity := 1000, buddyMinBlock := 24 } turns session ∧
      1 ≤ 40 ∧
      let rounded := suballocate .upload 40 false session.shared
      let whole := suballocate .upload 40 true session.shared
      rounded.result = .ok ⟨⟨0, 64, 0⟩, ⟨.upload, false⟩⟩ ∧
        (rounded.state.supplyOf ⟨.upload, false⟩).Backs 128 ⟨0, 64, 0⟩ ∧
        whole.result = .ok ⟨⟨0, 40, 1⟩, ⟨.upload, true⟩⟩ ∧
        (whole.state.supplyOf ⟨.upload, true⟩).Backs 40 ⟨0, 40, 1⟩ := by
  have path := Session.opened_went (Option.some_get (by decide +kernel :
    (Session.opened Scripted.standard .sharedOnly { Config.minimal with
      buddyThreshold := 100, buddyCapacity := 1000, buddyMinBlock := 24 }
      ⟨[]⟩).state.isSome = true)).symm
  have rounded := (suballocate_provides path .upload (by decide : 1 ≤ 40) false).of_ok
    (a := ⟨⟨0, 64, 0⟩, ⟨.upload, false⟩⟩) (by decide +kernel)
  have whole := (suballocate_provides path .upload (by decide : 1 ≤ 40) true).of_ok
    (a := ⟨⟨0, 40, 1⟩, ⟨.upload, true⟩⟩) (by decide +kernel)
  exact ⟨_, _, path, by decide, by decide +kernel, rounded.2.2, by decide +kernel, whole.2.2⟩

end Shared

end Reclaim
