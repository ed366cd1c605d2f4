import Reclaim.Context.OnlineHeap
import Reclaim.Proofs.Pool.Lines
import Reclaim.Proofs.Returns

namespace Reclaim

namespace BoundedPool

variable {σ α : Type} {pool : Part σ (BoundedPool α)} {parked : BoundedPool α} {completed : Nat}
  {wait : Nat → Action σ Unit} {create : Action σ α}

theorem retrieve_meets (parked : BoundedPool α) (held : Nat → Claims σ) {found : α → Claims σ}
    {failed : Claims σ}
    (here : ∀ reached past s, held reached past s → pool.get s = parked)
    (takes : ∀ {reached item rest}, parked.line.pop? reached = some (item, rest) →
      ∀ past s, held reached past s → found item past ((pool.andThen lineOf).put rest s))
    (creates : parked.choose completed = .create → Action.Meets (held completed) create found failed)
    (notes : ∀ fence, Action.Meets (held completed) (Action.note (.poolFull fence))
      (fun _ => held completed) failed)
    (waits : ∀ fence, parked.line.oldest? = some fence →
      Action.Meets (held completed) (wait fence) (fun _ => held fence) failed) :
    Action.Meets (held completed) (retrieve pool completed wait create) found failed := by
  have take {reached : Nat} {item : α} {rest : FenceLine α}
      (popped : parked.line.pop? reached = some (item, rest)) :
      Action.Meets (held reached)
        (do
          Action.modify ((pool.andThen lineOf).put rest)
          return item) found failed :=
    Action.meets_bind (Action.meets_before Action.meets_modify (takes popped)) fun _ =>
      Action.meets_pure fun _ _ taken => taken
  refine Action.meets_bind Action.meets_get fun s => Action.meets_given
    (fun _ _ seen => (congrArg pool.get seen.2).trans (here _ _ _ seen.1)) fun same => ?_
  refine Action.meets_before ?_ fun _ _ seen => seen.1
  rw [same]
  cases chosen : parked.choose completed with
  | reuse item rest => exact take (choose_reuse chosen)
  | create => exact creates chosen
  | wait fence =>
    refine Action.meets_bind (notes fence) fun _ => ?_
    refine Action.meets_bind (waits fence (choose_wait chosen)) fun _ => ?_
    refine Action.meets_bind Action.meets_get fun s => Action.meets_given
      (fun _ _ seen => (congrArg pool.get seen.2).trans (here _ _ _ seen.1)) fun same => ?_
    refine Action.meets_before ?_ fun _ _ seen => seen.1
    have front : (pool.andThen lineOf).get s = parked.line := congrArg line same
    rw [front]
    cases popped : parked.line.pop? fence with
    | none => exact absurd popped (waited_pop chosen)
    | some taken => exact take popped

theorem retrieve_returns {held : σ → Prop} {found : α → σ → Prop} {refused : σ → Prop}
    (here : ∀ s, held s → pool.get s = parked)
    (takes : ∀ {reached item rest}, parked.line.pop? reached = some (item, rest) →
      ∀ s, held s → found item ((pool.andThen lineOf).put rest s))
    (creates : Action.Returns held create found refused)
    (waits : ∀ fence, Action.Returns held (wait fence) (fun _ => held) refused) :
    Action.Returns held (retrieve pool completed wait create) found refused := by
  have take {reached : Nat} {item : α} {rest : FenceLine α}
      (popped : parked.line.pop? reached = some (item, rest)) :
      Action.Returns held
        (do
          Action.modify ((pool.andThen lineOf).put rest)
          return item) found refused :=
    Action.returns_bind (Action.returns_modify (takes popped)) fun _ =>
      Action.returns_pure fun _ taken => taken
  refine Action.returns_bind Action.returns_get fun s => Action.returns_given
    (fun _ seen => (congrArg pool.get seen.2).trans (here _ seen.1)) fun same => ?_
  refine Action.returns_before ?_ fun _ seen => seen.1
  rw [same]
  cases chosen : parked.choose completed with
  | reuse item rest => exact take (choose_reuse chosen)
  | create => exact creates
  | wait fence =>
    refine Action.returns_bind (Action.returns_note _) fun _ => ?_
    refine Action.returns_bind (waits fence) fun _ => ?_
    refine Action.returns_bind Action.returns_get fun s => Action.returns_given
      (fun _ seen => (congrArg pool.get seen.2).trans (here _ seen.1)) fun same => ?_
    refine Action.returns_before ?_ fun _ seen => seen.1
    have front : (pool.andThen lineOf).get s = parked.line := congrArg line same
    rw [front]
    cases popped : parked.line.pop? fence with
    | none => exact absurd popped (waited_pop chosen)
    | some taken => exact take popped

theorem retrieve_preserves {held : σ → Prop}
    (takes : ∀ line s, held s → held ((pool.andThen lineOf).put line s))
    (creates : Action.Preserves held create) (waits : ∀ fence, Action.Preserves held (wait fence)) :
    Action.Preserves held (retrieve pool completed wait create) := by
  have take (item : α) (rest : FenceLine α) : Action.Preserves held (do
      Action.modify ((pool.andThen lineOf).put rest)
      return item) :=
    Action.returns_bind (Action.returns_modify (takes rest)) fun _ =>
      Action.returns_pure fun _ kept => kept
  refine Action.returns_look fun s => ?_
  split
  · exact take _ _
  · exact creates
  refine Action.returns_bind (Action.returns_note _) fun _ => ?_
  refine Action.returns_bind (waits _) fun _ => Action.returns_look fun s => ?_
  split
  · exact take _ _
  · exact creates

end BoundedPool

namespace OnlineHeap

variable {δ : Type} {slots recording : Nat}

def exchange (old : OnlineHeap) (recording : Nat) (object : HeapObject) :
    Action (OnlineHeap × Shared δ) Unit := do
  let gpuBase ← Action.on sharedOf (gpuBaseOf object)
  Action.on heapOf <| Action.modify fun heap =>
    { install object gpuBase old.desc heap with parked := heap.parked.push old.object recording }
  let parked := (← Action.get).1.parked
  Action.note (.heapRolled old.desc.kind recording parked.line.size)

variable [Device δ]

section Swapping

theorem swap_meets (old : OnlineHeap) (held : Nat → Claims (OnlineHeap × Shared δ))
    {ready : HeapObject → Claims (OnlineHeap × Shared δ)}
    {pre post failed : Claims (OnlineHeap × Shared δ)}
    (here : ∀ completed past both, held completed past both → both.1 = old)
    (completes : Action.Meets pre (Action.on sharedOf (Shared.completedFence .graphics)) held failed)
    (notes : ∀ completed, Action.Meets (held completed)
      (Action.note (.parkedStalled old.desc.kind recording)) (fun _ => held completed) failed)
    (creates : old.isStalled recording = true → ∀ completed, Action.Meets (held completed)
      (Action.on sharedOf (Shared.createHeap old.desc)) ready failed)
    (retrieves : old.isStalled recording = false → ∀ completed, Action.Meets (held completed)
      (BoundedPool.retrieve parkedOf completed
        (fun fence => Action.on sharedOf (Shared.waitFor .graphics fence))
        (Action.on sharedOf (Shared.createHeap old.desc))) ready failed)
    (exchanges : ∀ object,
      Action.Meets (ready object) (exchange old recording object) (fun _ => post) failed) :
    Action.Meets pre (swap recording) (fun _ => post) failed := by
  refine Action.meets_bind completes fun completed => ?_
  refine Action.meets_bind Action.meets_get fun both => Action.meets_given
    (fun _ _ seen => (congrArg Prod.fst seen.2).trans (here _ _ _ seen.1)) fun same => ?_
  refine Action.meets_before ?_ fun _ _ seen => seen.1
  rw [same]
  dsimp only
  by_cases stalled : old.isStalled recording = true
  · rw [if_pos stalled]
    apply Action.meets_bind (notes completed)
    intro _
    exact Action.meets_bind (creates stalled completed) exchanges
  · rw [if_neg stalled]
    exact Action.meets_bind (retrieves (Bool.eq_false_iff.mpr stalled) completed) exchanges

theorem swap_returns {old : OnlineHeap} {held : OnlineHeap × Shared δ → Prop}
    {ready : HeapObject → OnlineHeap × Shared δ → Prop}
    {post refused : OnlineHeap × Shared δ → Prop} (here : ∀ both, held both → both.1 = old)
    (completes : Action.Returns held (Action.on sharedOf (Shared.completedFence .graphics))
      (fun _ => held) refused)
    (creates : Action.Returns held (Action.on sharedOf (Shared.createHeap old.desc)) ready refused)
    (retrieves : ∀ completed, Action.Returns held
      (BoundedPool.retrieve parkedOf completed
        (fun fence => Action.on sharedOf (Shared.waitFor .graphics fence))
        (Action.on sharedOf (Shared.createHeap old.desc))) ready refused)
    (exchanges : ∀ object,
      Action.Returns (ready object) (exchange old recording object) (fun _ => post) refused) :
    Action.Returns held (swap recording) (fun _ => post) refused := by
  refine Action.returns_bind completes fun completed => ?_
  refine Action.returns_bind Action.returns_get fun both => Action.returns_given
    (fun _ seen => (congrArg Prod.fst seen.2).trans (here _ seen.1)) fun same => ?_
  refine Action.returns_before ?_ fun _ seen => seen.1
  rw [same]
  dsimp only
  split
  · exact Action.returns_bind (Action.returns_note _) fun _ =>
      Action.returns_bind creates exchanges
  · exact Action.returns_bind (retrieves completed) exchanges

end Swapping

section Retaining

variable {holds : Claims (OnlineHeap × Shared δ)}

-- The induction is on the tries that are left.
theorem reserve_retains
    (notes : ∀ kind, Action.Retains holds (Action.note (.slotsRefused slots kind maxAttempts)))
    (reads : Action.Retains holds (Action.on sharedOf (Shared.recordingFence .graphics)))
    (allocates : ∀ fence, Action.Retains holds (Action.on ringOf (Ring.allocate slots fence)))
    (completes : Action.Retains holds (Action.on sharedOf (Shared.completedFence .graphics)))
    (reclaims : ∀ completed, Action.Retains holds (reclaimSlots completed))
    (rolls : Action.Retains holds rollOver) : Action.Retains holds (reserve slots) := by
  have within (attempts : Nat) (rolledOver reclaimed : Bool) :
      Action.Retains holds (reserveWithin slots attempts rolledOver reclaimed) := by
    induction attempts generalizing rolledOver reclaimed with
    | zero =>
      apply Action.retains_look
      intro both
      exact Action.retains_bind (notes _) fun _ => Action.retains_refuse _
    | succ attempts ih =>
      apply Action.retains_bind reads
      intro fence
      apply Action.retains_bind (Action.retains_attempt (allocates fence))
      intro result
      cases result with
      | ok first => exact Action.retains_pure _
      | error error =>
        dsimp only
        split
        · apply Action.retains_bind completes
          intro completed
          exact Action.retains_bind (reclaims completed) fun _ => ih _ _
        split
        · exact Action.retains_bind rolls fun _ => ih _ _
        · exact Action.retains_refuse _
  apply Action.retains_look
  intro both
  split
  · exact Action.retains_refuse _
  · exact within maxAttempts false false

end Retaining

section Preserving

variable {holds : OnlineHeap × Shared δ → Prop}

theorem reserve_preserves (known : Nat → Prop)
    (reads : Action.Returns holds (Action.on sharedOf (Shared.recordingFence .graphics))
      (fun fence both => holds both ∧ known fence) holds)
    (allocates : ∀ fence, known fence →
      Action.Preserves holds (Action.on ringOf (Ring.allocate slots fence)))
    (completes : Action.Preserves holds (Action.on sharedOf (Shared.completedFence .graphics)))
    (reclaims : ∀ completed, Action.Preserves holds (reclaimSlots completed))
    (rolls : Action.Preserves holds rollOver) : Action.Preserves holds (reserve slots) := by
  have within (attempts : Nat) (rolledOver reclaimed : Bool) :
      Action.Preserves holds (reserveWithin slots attempts rolledOver reclaimed) := by
    induction attempts generalizing rolledOver reclaimed with
    | zero =>
      refine Action.returns_look fun both => ?_
      refine Action.returns_bind (Action.returns_note _) fun _ => ?_
      exact Action.returns_refuse fun _ held => held
    | succ attempts ih =>
      refine Action.returns_bind reads fun fence => ?_
      refine Action.returns_given (fun _ read => read.2) fun recorded => ?_
      refine Action.returns_before ?_ fun _ read => read.1
      refine Action.returns_via (fun _ => holds) (Action.returns_after
        (Action.returns_attempt (allocates fence recorded)) ?_) fun result => ?_
      · intro result both held
        cases result <;> exact held
      cases result with
      | ok first => exact Action.returns_pure fun _ held => held
      | error error =>
        dsimp only
        split
        · refine Action.returns_bind completes fun completed => ?_
          exact Action.returns_bind (reclaims completed) fun _ => ih _ _
        split
        · exact Action.returns_bind rolls fun _ => ih _ _
        · exact Action.returns_refuse fun _ held => held
  refine Action.returns_look fun both => ?_
  split
  · exact Action.returns_refuse fun _ held => held
  · exact within maxAttempts false false

end Preserving

end OnlineHeap

end Reclaim
