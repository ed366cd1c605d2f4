import Reclaim.Proofs.Contract
import Reclaim.Retirement.Register

namespace Reclaim

variable {σ α π ι : Type}

namespace Retirement

-- What leaves a queue, in the order in which it is destroyed: objects before blocks.
structure Leaving (α π : Type) where
  objects : List (Retired α)
  blocks : List (RetiredBlock π)

def Leaving.isEmpty (leaving : Leaving α π) : Bool :=
  leaving.objects.isEmpty && leaving.blocks.isEmpty

def Leaving.partings (leaving : Leaving α π) : List (Parting α π) :=
  leaving.objects.map (fun retired => .object retired.object) ++
    leaving.blocks.map fun retired => .block retired.parent retired.block

theorem Leaving.some_iff (leaving : Leaving α π) :
    decide (0 < leaving.objects.length + leaving.blocks.length) = !leaving.isEmpty := by
  obtain ⟨objects, blocks⟩ := leaving
  cases objects with
  | nil => cases blocks <;> simp [isEmpty]
  | cons object rest =>
    have some_object : 0 < (object :: rest).length + blocks.length := by
      rw [List.length_cons]
      omega
    exact decide_eq_true some_object

variable (timeline : Timeline) (board : Board) (queue : Retirement α π)

def addObject (retired : Retired α) : Leaving α π × Retirement α π :=
  if retired.isReady timeline board then
    (⟨[retired], []⟩, { queue with destroyedObjects := queue.destroyedObjects + 1 })
  else (⟨[], []⟩, { queue with objects := queue.objects ++ [retired] })

def addBlock (retired : RetiredBlock π) : Leaving α π × Retirement α π :=
  if retired.isReady timeline then
    (⟨[], [retired]⟩, { queue with destroyedBlocks := queue.destroyedBlocks + 1 })
  else (⟨[], []⟩, { queue with blocks := queue.blocks ++ [retired] })

def trim (teardown : Bool) : Leaving α π × Retirement α π :=
  let objectGoes (retired : Retired α) := teardown || retired.isReady timeline board
  let blockGoes (retired : RetiredBlock π) := teardown || retired.isReady timeline
  let leaving : Leaving α π :=
    ⟨queue.objects.takeWhile objectGoes, queue.blocks.takeWhile blockGoes⟩
  (leaving,
    { objects := queue.objects.dropWhile objectGoes
      blocks := queue.blocks.dropWhile blockGoes
      destroyedObjects := queue.destroyedObjects + leaving.objects.length
      destroyedBlocks := queue.destroyedBlocks + leaving.blocks.length })

def remains : Leaving α π := ⟨queue.objects, queue.blocks⟩

end Retirement

namespace Reading

variable (timeline : Timeline)

def doneBy (completion : Bool) (queue : Queue) (fence : Nat) : Bool :=
  fence == 0 ||
    if completion then timeline.isReached queue fence else timeline.isSubmitted queue fence

theorem still_isDone (completion : Bool) (queue : Queue) (fence : Nat) :
    (still timeline : Reading σ).isDone completion queue fence =
      pure (doneBy timeline completion queue fence) := by
  unfold isDone doneBy
  by_cases unused : fence = 0
  · simp [unused]
  · have used : (fence == 0) = false := beq_eq_false_iff_ne.mpr unused
    cases completion <;>
      simp [unused, used, still, Timeline.isReached, Timeline.isSubmitted]

theorem still_areDone (completion : Bool) (last : Fences) (queues : List Queue) :
    (still timeline : Reading σ).areDone completion last queues =
      pure (queues.all fun queue => doneBy timeline completion queue (last.get queue)) := by
  induction queues with
  | nil => rfl
  | cons queue rest ih =>
    rw [areDone, still_isDone, pure_bind, List.all_cons]
    cases doneBy timeline completion queue (last.get queue) with
    | true => exact ih
    | false => rfl

theorem still_allows (board : Board) (completion : Bool) (last : Fences) (waits : List Wait) :
    (still timeline : Reading σ).allows board completion last waits =
      pure (timeline.allows board completion last waits) := by
  have split : timeline.allows board completion last waits =
      (Queue.all.all (fun queue => doneBy timeline completion queue (last.get queue)) &&
        board.satisfiesAll waits) := rfl
  rw [allows, still_areDone, pure_bind, split]
  cases Queue.all.all fun queue => doneBy timeline completion queue (last.get queue) <;> rfl

end Reading

section Drains

theorem each_tracks {shown : List (Parting α π) → Claims σ} {failed : Claims σ}
    {parting : ι → Parting α π} {f : ι → Action σ Unit}
    (one : ∀ item gone, Action.Meets (shown gone) (f item)
      (fun _ => shown (gone ++ [parting item])) failed) (items : List ι)
    (gone : List (Parting α π)) :
    Action.Meets (shown gone) (Action.each f items)
      (fun _ => shown (gone ++ items.map parting)) failed := by
  induction items generalizing gone with
  | nil => exact Action.meets_pure fun past s held => by simpa using held
  | cons item rest ih =>
    refine Action.meets_bind (one item gone) fun _ => ?_
    simpa using ih (gone ++ [parting item])

variable {failed : Claims σ} {goes : ι → Bool} {parting : ι → Parting α π}
  (shown : List ι → List (Parting α π) → Claims σ) {take : ι → List ι → Action σ Unit}

theorem drain_tracks
    (takes : ∀ item rest gone, Action.Meets (shown (item :: rest) gone) (take item rest)
      (fun _ => shown rest (gone ++ [parting item])) failed)
    (items : List ι) (gone : List (Parting α π)) :
    Action.Meets (shown items gone) (Action.drain (fun item => pure (goes item)) take items)
      (fun taken past s => taken = (items.takeWhile goes).length ∧
        shown (items.dropWhile goes) (gone ++ (items.takeWhile goes).map parting) past s)
      failed := by
  induction items generalizing gone with
  | nil => exact Action.meets_pure fun past s held => ⟨rfl, by simpa using held⟩
  | cons item rest ih =>
    refine Action.meets_via (fun answer past s => answer = goes item ∧
      shown (item :: rest) gone past s) (Action.meets_pure fun _ _ held => ⟨rfl, held⟩)
      fun answer => Action.meets_given (fun _ _ both => both.1) ?_
    rintro rfl
    cases may : goes item with
    | true =>
      refine Action.meets_bind (Action.meets_before (takes item rest gone) fun _ _ both => both.2)
        fun _ => Action.meets_bind (ih _) fun more => Action.meets_pure fun past s both => ?_
      simpa [may, both.1] using both.2
    | false => exact Action.meets_pure fun past s both => by simpa [may] using both.2

end Drains

-- A keeper that tells what it holds and what it has let go.
structure Keeper.Tracks (keeper : Keeper σ α π)
    (shown : Retirement α π → List (Parting α π) → Claims σ) (failed : Claims σ) : Prop where
  holds : ∀ queue gone past s, shown queue gone past s → keeper.part.get s = queue
  change : ∀ f queue gone, Action.Meets (shown queue gone) (keeper.change f)
    (fun _ => shown (f queue) gone) failed
  destroy : ∀ object queue gone, Action.Meets (shown queue gone) (keeper.destroy object)
    (fun _ => shown queue (gone ++ [.object object])) failed
  giveBack : ∀ parent block queue gone, Action.Meets (shown queue gone)
    (keeper.giveBack parent block) (fun _ => shown queue (gone ++ [.block parent block])) failed

namespace Keeper.Tracks

variable {keeper : Keeper σ α π} {shown : Retirement α π → List (Parting α π) → Claims σ}
  {failed : Claims σ} {timeline : Timeline} {board : Board} {queue : Retirement α π}
  {gone : List (Parting α π)}

def After (shown : Retirement α π → List (Parting α π) → Claims σ) (gone : List (Parting α π))
    (taken : Retirement.Leaving α π × Retirement α π) : Claims σ :=
  shown taken.2 (gone ++ taken.1.partings)

variable (tracks : keeper.Tracks shown failed)

include tracks

theorem addObject (retired : Retired α) :
    Action.Meets (shown queue gone) (keeper.addObject (.still timeline) board retired)
      (fun _ => After shown gone (queue.addObject timeline board retired)) failed := by
  unfold Keeper.addObject Retired.mayGo Retirement.addObject Retired.isReady After
  rw [Reading.still_allows, pure_bind]
  split
  · refine Action.meets_bind (tracks.destroy _ queue gone) fun _ => ?_
    exact tracks.change _ queue _
  · exact Action.meets_after (tracks.change _ queue gone) fun _ past s left => by
      simpa [Retirement.Leaving.partings] using left

theorem addBlock (retired : RetiredBlock π) :
    Action.Meets (shown queue gone) (keeper.addBlock (.still timeline) retired)
      (fun _ => After shown gone (queue.addBlock timeline retired)) failed := by
  unfold Keeper.addBlock RetiredBlock.mayGo Retirement.addBlock RetiredBlock.isReady After
  rw [Reading.still_allows, pure_bind]
  split
  · refine Action.meets_bind (tracks.giveBack _ _ queue gone) fun _ => ?_
    exact tracks.change _ queue _
  · exact Action.meets_after (tracks.change _ queue gone) fun _ past s left => by
      simpa [Retirement.Leaving.partings] using left

theorem trimObjects (teardown : Bool) :
    let goes (retired : Retired α) := teardown || retired.isReady timeline board
    Action.Meets (shown queue gone) (keeper.trimObjects (.still timeline) board teardown)
      (fun taken past s => taken = (queue.objects.takeWhile goes).length ∧
        shown { queue with objects := queue.objects.dropWhile goes }
          (gone ++ (queue.objects.takeWhile goes).map fun retired => .object retired.object) past s)
      failed := by
  intro goes
  have asks : (fun retired : Retired α => if teardown then return true
      else retired.mayGo (.still timeline : Reading σ) board) =
      fun retired => pure (goes retired) := by
    funext retired
    cases teardown with
    | true => rfl
    | false => exact Reading.still_allows ..
  unfold Keeper.trimObjects
  rw [asks]
  refine Action.meets_bind Action.meets_get fun seen => Action.meets_given
    (fun past s both => both.2 ▸ tracks.holds _ _ past s both.1) fun reads => ?_
  rw [reads]
  refine Action.meets_before (drain_tracks (fun items => shown { queue with objects := items })
    (fun retired rest gone => ?_) queue.objects gone) fun past s both => both.1
  refine Action.meets_bind (tracks.change _ { queue with objects := retired :: rest } gone) fun _ => ?_
  exact tracks.destroy _ _ gone

theorem trimBlocks (teardown : Bool) :
    let goes (retired : RetiredBlock π) := teardown || retired.isReady timeline
    Action.Meets (shown queue gone) (keeper.trimBlocks (.still timeline) teardown)
      (fun taken past s => taken = (queue.blocks.takeWhile goes).length ∧
        shown { queue with blocks := queue.blocks.dropWhile goes }
          (gone ++ (queue.blocks.takeWhile goes).map fun retired =>
            .block retired.parent retired.block) past s)
      failed := by
  intro goes
  have asks : (fun retired : RetiredBlock π => if teardown then return true
      else retired.mayGo (.still timeline : Reading σ)) = fun retired => pure (goes retired) := by
    funext retired
    cases teardown with
    | true => rfl
    | false => exact Reading.still_allows ..
  unfold Keeper.trimBlocks
  rw [asks]
  refine Action.meets_bind Action.meets_get fun seen => Action.meets_given
    (fun past s both => both.2 ▸ tracks.holds _ _ past s both.1) fun reads => ?_
  rw [reads]
  refine Action.meets_before (drain_tracks (fun items => shown { queue with blocks := items })
    (fun retired rest gone => ?_) queue.blocks gone) fun past s both => both.1
  refine Action.meets_bind (tracks.change _ { queue with blocks := retired :: rest } gone) fun _ => ?_
  exact tracks.giveBack _ _ _ gone

theorem trim (teardown : Bool)
    (tells : ∀ objects blocks queue gone, Action.Meets (shown queue gone)
      (Action.note (.retirementTrimmed objects blocks)) (fun _ => shown queue gone) failed) :
    Action.Meets (shown queue gone) (keeper.trim (.still timeline) board teardown)
      (fun any past s => any = !(queue.trim timeline board teardown).1.isEmpty ∧
        After shown gone (queue.trim timeline board teardown) past s) failed := by
  refine Action.meets_bind (tracks.trimObjects teardown) fun objects => ?_
  refine Action.meets_given (fun _ _ both => both.1) ?_
  rintro rfl
  refine Action.meets_bind (Action.meets_before (tracks.trimBlocks teardown) fun _ _ both => both.2)
    fun blocks => ?_
  refine Action.meets_given (fun _ _ both => both.1) ?_
  rintro rfl
  let leaving := (queue.trim timeline board teardown).1
  let left := (queue.trim timeline board teardown).2
  have ends : Action.Meets
      (shown { queue with objects := left.objects, blocks := left.blocks }
        (gone ++ leaving.partings))
      (do
        keeper.change fun queue =>
          { queue with
            destroyedObjects := queue.destroyedObjects + leaving.objects.length
            destroyedBlocks := queue.destroyedBlocks + leaving.blocks.length }
        return decide (0 < leaving.objects.length + leaving.blocks.length))
      (fun any past s => any = !leaving.isEmpty ∧
        After shown gone (queue.trim timeline board teardown) past s) failed :=
    Action.meets_bind (tracks.change _ _ _) fun _ => Action.meets_pure fun past s after =>
      ⟨leaving.some_iff, after⟩
  refine Action.meets_before ?_ fun past s both => by
    simpa only [List.append_assoc] using both.2
  dsimp only
  split
  · exact Action.meets_bind (tells _ _ _ _) fun _ => ends
  · exact ends

theorem close : Action.Meets (shown queue gone) keeper.close
    (fun _ => shown .empty (gone ++ queue.remains.partings)) failed := by
  refine Action.meets_bind Action.meets_get fun seen => Action.meets_given
    (fun past s both => both.2 ▸ tracks.holds _ _ past s both.1) fun reads => ?_
  rw [reads]
  refine Action.meets_bind (Action.meets_before (tracks.change _ queue gone) fun _ _ both => both.1)
    fun _ => ?_
  refine Action.meets_bind (each_tracks (fun retired gone => tracks.destroy retired.object .empty gone)
    queue.objects gone) fun _ => ?_
  refine Action.meets_after (each_tracks (fun retired gone =>
    tracks.giveBack retired.parent retired.block .empty gone) queue.blocks _) fun _ past s left => ?_
  simpa only [Retirement.Leaving.partings, Retirement.remains, List.append_assoc] using left

end Keeper.Tracks

end Reclaim
