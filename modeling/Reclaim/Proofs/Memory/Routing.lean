import Reclaim.Config
import Reclaim.Proofs.Memory.Orderly
import Reclaim.Proofs.Memory.Vacancy

namespace Reclaim

variable {σ τ δ α β : Type}

namespace Run

-- What was asked for was made, or the run ended in an error of its own that something ran short, or
-- in the one that the device gave when it was asked for a heap of so many bytes.
def Provides (bytes : Nat) (right : α → σ → Prop) (short : Error → σ → Prop) (run : Run σ α) :
    Prop :=
  match run.result with
  | .ok a => right a run.state
  | .error (.error error) =>
    short error run.state ∨ ∃ heap, .asked (.memory heap bytes) (.failed error) ∈ run.events
  | .error (.fault _) => False

variable {bytes : Nat} {right : α → σ → Prop} {short : Error → σ → Prop} {run : Run σ α}

theorem Provides.of_ok {a : α} (provides : run.Provides bytes right short)
    (ended : run.result = .ok a) : right a run.state := by
  unfold Provides at provides
  rwa [ended] at provides

theorem Provides.image {right' : α → τ → Prop} {short' : Error → τ → Prop}
    (provides : run.Provides bytes right short) (f : σ → τ)
    (after : ∀ a s, right a s → right' a (f s))
    (stopped : ∀ error s, short error s → short' error (f s)) :
    (⟨run.result, f run.state, run.events⟩ : Run τ α).Provides bytes right' short' := by
  match run, provides with
  | ⟨.ok a, s, _⟩, made => exact after a s made
  | ⟨.error (.error error), s, _⟩, refused => exact refused.imp_left (stopped error s)

theorem Provides.told (provides : run.Provides bytes right short) {events : List Event}
    (within : run.events ⊆ events) :
    (⟨run.result, run.state, events⟩ : Run σ α).Provides bytes right short := by
  match run, provides with
  | ⟨.ok _, _, _⟩, made => exact made
  | ⟨.error (.error _), _, _⟩, refused =>
    exact refused.imp_right fun ⟨heap, told⟩ => ⟨heap, within told⟩

theorem Provides.map {right' : β → σ → Prop} (provides : run.Provides bytes right short)
    (f : α → β) (after : ∀ a s, right a s → right' (f a) s) :
    (run.andThen fun a => (Pure.pure (f a) : Action σ β)).Provides bytes right' short := by
  match run, provides with
  | ⟨.ok a, s, _⟩, made => exact after a s made
  | ⟨.error (.error _), _, _⟩, refused => exact refused

end Run

namespace Config

def setsApart (config : Config) (size : Nat) (cannotBeOffset : Bool) : Bool :=
  needsOwnHeap size config.buddyThreshold cannotBeOffset || !config.useBuddy

def heapBytes (config : Config) (size : Nat) (apart : Bool) : Nat :=
  if apart then size else Word.powerAbove config.buddyThreshold

@[simp] theorem heapBytes_apart (config : Config) (size : Nat) :
    config.heapBytes size true = size := rfl

@[simp] theorem heapBytes_shared (config : Config) (size : Nat) :
    config.heapBytes size false = Word.powerAbove config.buddyThreshold := rfl

def plan (config : Config) : Option (Nat × Nat) :=
  if config.useBuddy then
    some (Word.powerAbove config.buddyMinBlock, Word.powerAbove config.buddyThreshold)
  else none

end Config

structure Block.Serves (config : Config) (size : Nat) (apart : Bool) (block : Block) : Prop where
  enough : size ≤ block.size
  whole : apart = true → block.offset = 0 ∧ block.size = size
  inside : block.offset + block.size ≤ config.heapBytes size apart
  snug : block.size < 2 * size ∨ block.size = Word.powerAbove config.buddyMinBlock

theorem Block.serves_whole {config : Config} {size : Nat} {block : Block} (some_bytes : 0 < size)
    (start : block.offset = 0) (whole : block.size = size) : block.Serves config size true where
  enough := Nat.le_of_eq whole.symm
  whole := fun _ => ⟨start, whole⟩
  inside := by
    rw [start, whole, Nat.zero_add]
    exact Nat.le_refl _
  snug := by omega

theorem Block.serves_rounded {config : Config} {size : Nat} {block : Block} (some_bytes : 0 < size)
    (rounded : block.size =
      max (Word.powerAbove config.buddyMinBlock) (Word.powerAbove size))
    (inside : block.offset + block.size ≤ Word.powerAbove config.buddyThreshold) :
    block.Serves config size false where
  enough := by
    rw [rounded]
    exact (Word.le_powerAbove size).trans (Nat.le_max_right ..)
  whole := nofun
  inside := inside
  snug := by
    have less := Word.powerAbove_lt some_bytes
    omega

namespace Supply

def plan : Supply → Option (Nat × Nat)
  | buddy b => some (b.minBlock, b.heapSize)
  | dedicated _ => none

def Backs (bytes : Nat) (block : Block) : Supply → Prop
  | buddy b => b.heapSize = bytes ∧ ∃ backing, b.backing.get? block.heap = some backing
  | dedicated d => ∃ heap, d.live.get? block.heap = some heap ∧ heap.size = bytes

-- Nothing else than this can make the supply refuse a request of its own accord: no block of the
-- order or above is free, or the bytes or the numbers would run out.
def Short (size : Nat) (error : Error) : Supply → Prop
  | buddy b => error = .outOfDeviceMemory ∧ b.Lacks (b.orderOf size)
  | dedicated d => error = .allocationFailed ∧ d.IsFull size

end Supply

section Trying

variable [Device δ]

theorem Dedicated.allocate_provides {size : Nat} (some_bytes : 0 < size)
    (both : Dedicated × Machine δ) :
    (allocate size both).Provides size
      (fun block after => block.offset = 0 ∧ block.size = size ∧
        (Supply.dedicated after.1).Backs size block)
      fun error after => (Supply.dedicated after.1).Short size error := by
  have ran := allocate_run both.1 both.2 size
  generalize allocate size (both.1, both.2) = run at ran
  cases ran with
  | empty none => exact absurd none (Nat.ne_of_gt some_bytes)
  | denied error device => exact .inr ⟨_, List.mem_cons_self⟩
  | full after outcome memory full => exact .inl ⟨rfl, full⟩
  | granted after outcome memory =>
    exact ⟨rfl, rfl, ⟨memory, size⟩, Table.get?_insert_same .., rfl⟩

namespace Buddy

variable {shape : Shape} {buddy : Buddy} {size : Nat}

theorem allocate_lacking (machine : Machine δ) (inside : size ≤ buddy.heapSize)
    (lacks : buddy.Lacks (buddy.orderOf (max size 1))) :
    Supply.allocate size (.buddy buddy, machine) =
      ⟨.error (.error .outOfDeviceMemory), (.buddy buddy, machine), []⟩ := by
  have fits : ¬buddy.heapSize < size := Nat.not_lt.mpr inside
  have refused : claim size buddy = ⟨.error (.error .outOfDeviceMemory), buddy, []⟩ := by
    simp [claim, fits, lacks.firstFree?]
  simp [Supply.allocate, Supply.allocateWhile, Part.whole, MemoryClient.claim_of_buddy refused,
    Except.map]

theorem Claims.block (sound : Sound shape buddy) {cell : Claim} {level : Nat} {rest : List Nat}
    (claims : Claims shape buddy size cell level rest) :
    (buddy.blockAt cell).size = max buddy.minBlock (Word.powerAbove size) ∧
      (buddy.blockAt cell).offset + (buddy.blockAt cell).size ≤ buddy.heapSize := by
  constructor
  · change buddy.blockSize cell.order = _
    rw [claims.order, blockSize_orderOf sound.fits]
  · exact (claims.sound.block_inside claims.present).1

theorem allocate_provides (machine : Machine δ) (sound : Sound shape buddy)
    (some_bytes : 0 < size) (inside : size ≤ buddy.heapSize) :
    (Supply.allocate size (.buddy buddy, machine)).Provides buddy.heapSize
      (fun block after => block.size = max buddy.minBlock (Word.powerAbove size) ∧
        block.offset + block.size ≤ buddy.heapSize ∧ after.1.Backs buddy.heapSize block)
      fun error after => after.1.Short size error := by
  have least : max size 1 = size := Nat.max_eq_left some_bytes
  by_cases lacks : buddy.Lacks (buddy.orderOf (max size 1))
  · rw [allocate_lacking machine inside lacks]
    exact .inl ⟨rfl, least ▸ lacks⟩
  have ended := allocate_run machine sound size
  generalize Supply.allocate size (.buddy buddy, machine) = run at ended
  cases ended with
  | refused error short => exact absurd short (not_or.mpr ⟨Nat.not_lt.mpr inside, lacks⟩)
  | backed cell level rest backing claims =>
    obtain ⟨rounded, within⟩ := claims.block sound
    exact ⟨rounded, within, rfl, _, Table.get?_insert_same ..⟩
  | failed cell level rest error device claims => exact .inr ⟨_, List.mem_cons_self⟩
  | made cell level rest device outcome claims =>
    obtain ⟨rounded, within⟩ := claims.block sound
    exact ⟨rounded, within, rfl, _, Table.get?_insert_same ..⟩

end Buddy

end Trying

section Keeping

-- Neither taking blocks nor giving them back changes what a buddy allocator was laid out for.
def Buddy.sizes (buddy : Buddy) : Nat × Nat := (buddy.minBlock, buddy.heapSize)

theorem Buddy.release_sizes (offset order : Nat) :
    Action.Keeps sizes (release offset order) := by
  intro buddy
  unfold release
  cases used : Word.sub buddy.used (buddy.blockSize order) <;> simp [used, sizes]

theorem Buddy.deallocate_sizes (block : Block) :
    Action.Keeps (fun both : Buddy × Machine δ => both.1.sizes) (deallocate block) := by
  unfold deallocate
  refine Action.keeps_bind (fun _ => rfl) fun both => ?_
  dsimp only
  split
  · exact Action.keeps_note _
  split
  · exact Action.keeps_note _
  refine Action.keeps_bind (fun _ => release_sizes _ _ _) fun _ => ?_
  split
  · exact Action.keeps_pure _
  rename_i backing _
  refine Action.keeps_bind (fun _ => ?_) fun blocks => ?_
  · cases Word.sub backing.blocks 1 <;> rfl
  split
  · refine Action.keeps_bind (fun _ => rfl) fun _ => ?_
    exact Action.keeps_bind (fun _ => rfl) fun _ _ => rfl
  · exact fun _ => rfl

namespace Supply

theorem deallocate_plan (block : Block) :
    Action.Keeps (fun both : Supply × Machine δ => both.1.plan) (deallocate block) := by
  rintro ⟨supply, machine⟩
  cases supply with
  | buddy b => exact congrArg some (Buddy.deallocate_sizes block (b, machine))
  | dedicated d => rfl

variable [Device δ]

theorem allocate_plan (size : Nat) {both : Supply × Machine δ} (orderly : both.1.Orderly) :
    (allocate size both).state.1.plan = both.1.plan := by
  obtain ⟨supply, machine⟩ := both
  cases supply with
  | buddy b =>
    obtain ⟨⟨shape, sound⟩, -⟩ := orderly
    have ended := Buddy.allocate_run machine sound size
    generalize allocate size (.buddy b, machine) = run at ended
    cases ended <;> rfl
  | dedicated d =>
    rw [allocate_dedicated]
    rfl

-- The supply is in order and the one that the configuration calls for, which is still in force.
def Fits (config now : Config) (supply : Supply) : Prop :=
  supply.Orderly ∧ supply.plan = config.plan ∧ now = config

theorem fits_lasting (config now : Config) : Lasting δ (Fits config now) where
  allocate size :=
    Action.preserves_beside (p := fun plan => plan = config.plan ∧ now = config)
      (orderly_lasting.allocate size) fun _ orderly => allocate_plan size orderly
  deallocate block :=
    Action.answers_beside (p := fun plan => plan = config.plan ∧ now = config)
      (orderly_lasting.deallocate block) (deallocate_plan block)

variable {config now : Config} {supply : Supply} {size : Nat}

theorem Fits.provides (fits : supply.Fits config now) (machine : Machine δ) (some_bytes : 0 < size)
    (small : size ≤ config.buddyThreshold) :
    (allocate size (supply, machine)).Provides (config.heapBytes size !config.useBuddy)
      (fun block after => block.Serves config size (!config.useBuddy) ∧
        after.1.Backs (config.heapBytes size !config.useBuddy) block)
      fun error after => after.1.Short size error := by
  obtain ⟨orderly, plan, -⟩ := fits
  cases supply with
  | buddy b =>
    obtain ⟨⟨shape, sound⟩, -⟩ := orderly
    obtain ⟨uses, minBlock, heapSize⟩ : config.useBuddy = true ∧
        b.minBlock = Word.powerAbove config.buddyMinBlock ∧
        b.heapSize = Word.powerAbove config.buddyThreshold := by
      cases uses : config.useBuddy <;> simp [Supply.plan, Config.plan, uses] at plan
      exact ⟨rfl, plan⟩
    have inside : size ≤ b.heapSize := by
      rw [heapSize]
      exact small.trans (Word.le_powerAbove _)
    have tried := Buddy.allocate_provides machine sound some_bytes inside
    rw [heapSize, minBlock] at tried
    simp only [uses, Bool.not_true, Config.heapBytes_shared]
    refine tried.image id (fun block after ⟨rounded, within, backed⟩ => ?_) fun _ _ short => short
    exact ⟨Block.serves_rounded some_bytes rounded within, backed⟩
  | dedicated d =>
    have uses : config.useBuddy = false := by
      cases uses : config.useBuddy <;> simp [Supply.plan, Config.plan, uses] at plan ⊢
    rw [allocate_dedicated]
    simp only [uses, Bool.not_false, Config.heapBytes_apart]
    refine (Dedicated.allocate_provides some_bytes (d, machine)).image
      (fun both => (dedicated both.1, both.2)) (fun block after ⟨start, whole, backed⟩ => ?_)
      fun _ _ short => short
    exact ⟨Block.serves_whole some_bytes start whole, backed⟩

end Supply

end Keeping

end Reclaim
