import Reclaim.Proofs.Context.Composition
import Reclaim.Proofs.Contract

namespace Reclaim.BoundedPool

variable {σ α : Type} {pool : Part σ (BoundedPool α)} {bound most reached : Nat} {held : List α}
  {s : σ} {wait : Nat → Action σ Unit} {create : Action σ α}

-- From one opening on, what callers do who give back only what they hold, and who hold `most` items
-- at once and no more. What the callbacks and everyone else do leaves the pool alone.
inductive Lends (pool : Part σ (BoundedPool α)) (bound most : Nat) : List α → σ → Prop where
  | opened {s : σ} : pool.get s = ofBound bound → Lends pool bound most [] s
  | put {held rest : List α} {item : α} {s : σ} (fence : Nat) : Lends pool bound most held s →
      held.Perm (item :: rest) →
      Lends pool bound most rest (pool.put ((pool.get s).push item fence) s)
  | retrieved {held : List α} {item : α} {s after : σ} {events : List Event} (reached : Nat)
      (wait : Nat → Action σ Unit) (create : Action σ α) : Lends pool bound most held s →
      (∀ fence, Action.Keeps pool.get (wait fence)) → Action.Keeps pool.get create →
      retrieve pool reached wait create s = ⟨.ok item, after, events⟩ →
      (item :: held).length ≤ most → Lends pool bound most (item :: held) after
  | refused {held : List α} {stop : Stop} {s after : σ} {events : List Event} (reached : Nat)
      (wait : Nat → Action σ Unit) (create : Action σ α) : Lends pool bound most held s →
      (∀ fence, Action.Keeps pool.get (wait fence)) → Action.Keeps pool.get create →
      retrieve pool reached wait create s = ⟨.error stop, after, events⟩ →
      Lends pool bound most held after
  | evicted {held : List α} {item : α} {rest : FenceLine α} {s : σ} (threshold reached : Nat) :
      Lends pool bound most held s →
      (pool.get s).line.evict? threshold reached = some (item, rest) →
      Lends pool bound most held ((pool.andThen lineOf).put rest s)
  | elsewhere {held : List α} {s after : σ} : Lends pool bound most held s →
      pool.get after = pool.get s → Lends pool bound most held after

def takeOldest (pool : Part σ (BoundedPool α)) (wait : Nat → Action σ Unit) (oldest : Waiting α)
    (younger : List (Waiting α)) : Action σ α := do
  Action.note (.poolFull oldest.fence)
  wait oldest.fence
  Action.modify ((pool.andThen lineOf).put ⟨younger⟩)
  return oldest.item

theorem retrieve_waits {oldest : Waiting α} {younger : List (Waiting α)}
    (waits : ∀ fence, Action.Keeps pool.get (wait fence))
    (shape : (pool.get s).line.entries = oldest :: younger) (early : reached < oldest.fence)
    (full : (pool.get s).bound ≤ (pool.get s).line.size) :
    retrieve pool reached wait create s = takeOldest pool wait oldest younger s := by
  have chosen : (pool.get s).choose reached = .wait oldest.fence := by
    simp [choose, FenceLine.oldest?, FenceLine.pop?, shape, Nat.not_le.mpr early,
      Nat.not_lt.mpr full]
  have kept := waits oldest.fence s
  simp only [retrieve, takeOldest, Action.run_bind, Action.run_get, Run.andThen_ok, chosen,
    Action.run_note]
  rcases waited : wait oldest.fence s with ⟨result, after, events⟩
  rw [waited] at kept
  cases result with
  | error stop => simp
  | ok done =>
    have popped : ((pool.andThen lineOf).get after).pop? oldest.fence =
        some (oldest.item, ⟨younger⟩) := by
      simp [Part.andThen, lineOf, kept, FenceLine.pop?, shape]
    simp [FenceLine.retrieve, popped]

structure Within (bound most : Nat) (held : Nat) (pool : BoundedPool α) : Prop where
  same_bound : pool.bound = max bound 1
  alive : held + pool.line.size ≤ max bound 1 - 1 + most

namespace Within

variable {count : Nat} {parked : BoundedPool α} {item : α} {rest : FenceLine α}

theorem opened (bound most : Nat) : Within bound most 0 (ofBound bound : BoundedPool α) where
  same_bound := rfl
  alive := Nat.le_trans (Nat.le_of_eq (Nat.zero_add 0)) (Nat.zero_le _)

theorem put (within : Within bound most (count + 1) parked) (item : α) (fence : Nat) :
    Within bound most count (parked.push item fence) where
  same_bound := within.same_bound
  alive := by
    have grown : (parked.push item fence).line.size = parked.line.size + 1 := List.length_append
    have alive := within.alive
    omega

theorem taken {entry : Waiting α} (within : Within bound most count parked)
    (shape : parked.line.entries = entry :: rest.entries) :
    Within bound most (count + 1) { parked with line := rest } where
  same_bound := within.same_bound
  alive := by
    have fewer : parked.line.size = rest.size + 1 := congrArg List.length shape
    have alive := within.alive
    change count + 1 + rest.size ≤ _
    omega

theorem dropped (within : Within bound most (count + 1) parked) : Within bound most count parked where
  same_bound := within.same_bound
  alive := by
    have alive := within.alive
    omega

theorem made (within : Within bound most count parked)
    (chosen : parked.choose reached = .create) (few : count + 1 ≤ most) :
    Within bound most (count + 1) parked where
  same_bound := within.same_bound
  alive := by
    have same := within.same_bound
    have below : parked.line.size < max bound 1 := by
      rcases choose_create_below chosen with none_waits | below
      · rw [FenceLine.size, none_waits]
        exact Nat.lt_of_lt_of_le Nat.zero_lt_one (Nat.le_max_right _ _)
      · omega
    omega

end Within

theorem retrieve_within {count : Nat} {parked : BoundedPool α}
    (within : Within bound most count parked) (reached : Nat)
    (waits : ∀ fence, Action.Keeps pool.get (wait fence)) (creates : Action.Keeps pool.get create) :
    Action.Meets (fun _ s => pool.get s = parked) (retrieve pool reached wait create)
      (fun _ _ s => count + 1 ≤ most → Within bound most (count + 1) (pool.get s))
      (fun _ s => pool.get s = parked) := by
  refine retrieve_meets parked (fun _ _ s => pool.get s = parked) (fun _ _ _ same => same) ?_ ?_ ?_ ?_
  · intro reached item rest popped past s same few
    obtain ⟨entry, shape, -, -⟩ := FenceLine.pop?_some popped
    rw [Part.andThen, pool.get_put, same]
    exact within.taken shape
  · intro chosen
    refine Action.meets_after (Action.meets_of_keeps creates (· = parked)) fun _ _ s same few => ?_
    rw [same]
    exact within.made chosen few
  · exact fun fence => Action.meets_of_keeps (Action.keeps_note _) (· = parked)
  · exact fun fence _ => Action.meets_of_keeps (waits fence) (· = parked)

theorem lends_within (lends : Lends pool bound most held s) :
    Within bound most held.length (pool.get s) := by
  induction lends with
  | opened start =>
    rw [start]
    exact .opened bound most
  | put fence _ gives within =>
    rw [pool.get_put]
    rw [gives.length_eq] at within
    exact within.put _ fence
  | retrieved reached wait create _ waits creates ran few within =>
    have ends := retrieve_within within reached waits creates [] _ rfl
    rw [ran] at ends
    exact ends few
  | refused reached wait create _ waits creates ran within =>
    have ends := retrieve_within within reached waits creates [] _ rfl
    rw [ran] at ends
    exact ends ▸ within
  | evicted threshold reached _ evicts within =>
    obtain ⟨entry, shape, -, -⟩ := FenceLine.evict?_some evicts
    rw [Part.andThen, pool.get_put]
    exact (within.taken shape).dropped
  | elsewhere _ same within =>
    rw [same]
    exact within

-- The items in the pool and in its callers' hands are never more than the bound less one and what
-- may be held at once. A retrieval at the bound, with the oldest item not ready, makes none: it waits
-- for the fence of that item and takes it, or fails as the wait does.
theorem alive_bounded (lends : Lends pool bound most held s) :
    held.length + (pool.get s).line.size ≤ max bound 1 - 1 + most ∧
      ∀ (reached : Nat) (wait : Nat → Action σ Unit) (create : Action σ α),
        (∀ fence, Action.Keeps pool.get (wait fence)) → max bound 1 ≤ (pool.get s).line.size →
        (∀ fence ∈ (pool.get s).line.oldest?, reached < fence) →
        ∃ oldest younger, (pool.get s).line.entries = oldest :: younger ∧
          retrieve pool reached wait create s = takeOldest pool wait oldest younger s := by
  have within := lends_within lends
  refine ⟨within.alive, fun reached wait create waits full early => ?_⟩
  cases shape : (pool.get s).line.entries with
  | nil => simp [FenceLine.size, shape] at full
  | cons oldest younger =>
    refine ⟨oldest, younger, rfl, retrieve_waits waits shape (early _ ?_) ?_⟩
    · simp [FenceLine.oldest?, shape]
    · rw [within.same_bound]
      exact full

section Waiting

def outOfOrder : BoundedPool Nat := ⟨⟨[⟨9, 7⟩, ⟨5, 8⟩]⟩, 1⟩

theorem lends_outOfOrder : Lends .whole 1 2 [] outOfOrder := by
  have quiet (fence : Nat) : Action.Keeps Part.whole.get
      (pure () : Action (BoundedPool Nat) Unit) := Action.keeps_pure ()
  have opened : Lends .whole 1 2 [] (ofBound 1 : BoundedPool Nat) := .opened rfl
  have one : Lends .whole 1 2 [7] (ofBound 1 : BoundedPool Nat) :=
    opened.retrieved 0 (fun _ => pure ()) (pure 7) quiet (Action.keeps_pure 7) rfl (by decide)
  have two : Lends .whole 1 2 [8, 7] (ofBound 1 : BoundedPool Nat) :=
    one.retrieved 0 (fun _ => pure ()) (pure 8) quiet (Action.keeps_pure 8) rfl (by decide)
  exact (two.put 9 (List.Perm.swap 7 8 [])).put 5 (List.Perm.refl _)

theorem alive_bounded_outOfOrder :
    0 + outOfOrder.line.size ≤ max 1 1 - 1 + 2 ∧
      ∃ oldest younger, outOfOrder.line.entries = oldest :: younger ∧
        retrieve .whole 6 (fun _ => pure ()) (pure 3) outOfOrder =
          takeOldest .whole (fun _ => pure ()) oldest younger outOfOrder := by
  obtain ⟨alive, waits⟩ := alive_bounded lends_outOfOrder
  refine ⟨alive, waits 6 _ _ (fun _ => Action.keeps_pure ()) (by decide) ?_⟩
  rintro _ ⟨⟩
  decide

end Waiting

end Reclaim.BoundedPool
