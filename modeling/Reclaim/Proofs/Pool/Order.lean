import Reclaim.Proofs.Fronts
import Reclaim.Proofs.Pool.Passages

namespace Reclaim

variable {σ α : Type}

def Waiting.expired (threshold reached : Nat) (entry : Waiting α) : Bool :=
  decide (entry.fence ≤ reached ∧ threshold ≤ reached - entry.fence)

namespace FenceLine

-- What was returned, and what has left, handed out or evicted. A retrieval that finds nothing ready
-- is its creation, so what that does to the pool are steps of their own.
inductive Serves (pool : Part σ (FenceLine α)) (start : σ) : List (Waiting α) → List α → σ → Prop
    where
  | start : Serves pool start [] [] start
  | put {returned left s} (item : α) (fence : Nat) : Serves pool start returned left s →
      Serves pool start (returned ++ [⟨fence, item⟩]) left (pool.put ((pool.get s).push item fence) s)
  | reused {returned left s item after events} (reached : Nat) (create : Action σ α) :
      Serves pool start returned left s → ((pool.get s).pop? reached).isSome →
      retrieve pool reached create s = ⟨.ok item, after, events⟩ →
      Serves pool start returned (left ++ [item]) after
  | evicted {returned left s item rest} (threshold reached : Nat) :
      Serves pool start returned left s →
      (pool.get s).evict? threshold reached = some (item, rest) →
      Serves pool start returned (left ++ [item]) (pool.put rest s)
  | elsewhere {returned left s after} : Serves pool start returned left s →
      pool.get after = pool.get s → Serves pool start returned left after

inductive Evicts (threshold reached : Nat) : FenceLine α → List α → FenceLine α → Prop where
  | done {line} : line.evict? threshold reached = none → Evicts threshold reached line [] line
  | dropped {line item rest items after} : line.evict? threshold reached = some (item, rest) →
      Evicts threshold reached rest items after → Evicts threshold reached line (item :: items) after

variable {pool : Part σ (FenceLine α)} {start s : σ} {returned : List (Waiting α)}
  {left : List α} {line rest : FenceLine α} {item : α} {reached : Nat}

theorem retrieve_popped (popped : (pool.get s).pop? reached = some (item, rest))
    (create : Action σ α) : retrieve pool reached create s = ⟨.ok item, pool.put rest s, []⟩ := by
  simp [retrieve, popped]

theorem retrieve_creates (none_ready : (pool.get s).pop? reached = none) (create : Action σ α) :
    retrieve pool reached create s = create s := by
  simp [retrieve, none_ready]

theorem Serves.in_order (path : Serves pool start returned left s) :
    ∃ gone, (pool.get start).entries ++ returned = gone ++ (pool.get s).entries ∧
      left = gone.map (·.item) := by
  induction path with
  | start => exact ⟨[], List.append_nil _, rfl⟩
  | put item fence _ ih =>
    obtain ⟨gone, parted, listed⟩ := ih
    refine ⟨gone, ?_, listed⟩
    rw [pool.get_put, push, ← List.append_assoc, parted, List.append_assoc]
  | reused reached create _ ready ran ih =>
    obtain ⟨gone, parted, rfl⟩ := ih
    obtain ⟨⟨taken, rest⟩, popped⟩ := Option.isSome_iff_exists.mp ready
    obtain ⟨entry, shape, -, rfl⟩ := pop?_some popped
    rw [retrieve_popped popped create] at ran
    cases ran
    refine ⟨gone ++ [entry], ?_, by simp⟩
    rw [parted, shape, pool.get_put, List.append_assoc]
    rfl
  | evicted threshold reached _ evicts ih =>
    obtain ⟨gone, parted, rfl⟩ := ih
    obtain ⟨entry, shape, -, rfl⟩ := evict?_some evicts
    refine ⟨gone ++ [entry], ?_, by simp⟩
    rw [parted, shape, pool.get_put, List.append_assoc]
    rfl
  | elsewhere _ same ih =>
    rw [same]
    exact ih

theorem pop?_sorted (sorted : line.entries.Pairwise fun ahead behind => ahead.fence ≤ behind.fence)
    (reached : Nat) :
    (∀ entry ∈ line.entries, reached < entry.fence) ∧ line.pop? reached = none ∨
      ∃ oldest younger, line.entries = oldest :: younger ∧ oldest.fence ≤ reached ∧
        (∀ entry ∈ line.entries, oldest.fence ≤ entry.fence) ∧
        line.pop? reached = some (oldest.item, ⟨younger⟩) := by
  cases shape : line.entries with
  | nil => exact .inl ⟨by simp, by simp [pop?, shape]⟩
  | cons oldest younger =>
    rw [shape] at sorted
    have least : ∀ entry ∈ oldest :: younger, oldest.fence ≤ entry.fence := by
      intro entry present
      rcases List.mem_cons.mp present with rfl | behind
      · exact Nat.le_refl _
      · exact (List.pairwise_cons.mp sorted).1 entry behind
    by_cases ready : oldest.fence ≤ reached
    · exact .inr ⟨oldest, younger, rfl, ready, least, by simp [pop?, shape, ready]⟩
    · refine .inl ⟨fun entry present => ?_, by simp [pop?, shape, ready]⟩
      exact Nat.lt_of_lt_of_le (Nat.not_le.mp ready) (least entry present)

theorem evict?_cons (threshold reached : Nat) (front : Waiting α) (waiting : List (Waiting α)) :
    evict? ⟨front :: waiting⟩ threshold reached =
      if front.expired threshold reached then some (front.item, ⟨waiting⟩) else none := by
  simp [evict?, Waiting.expired]

theorem evicts_iff (threshold reached : Nat) (entries : List (Waiting α)) (items : List α)
    (after : FenceLine α) : Evicts threshold reached ⟨entries⟩ items after ↔
      items = (entries.takeWhile (·.expired threshold reached)).map (·.item) ∧
        after = ⟨entries.dropWhile (·.expired threshold reached)⟩ := by
  induction entries generalizing items after with
  | nil =>
    constructor
    · intro evicts
      cases evicts with
      | done => exact ⟨rfl, rfl⟩
      | dropped drops => cases drops
    · rintro ⟨rfl, rfl⟩
      exact .done rfl
  | cons front waiting ih =>
    have drops := evict?_cons threshold reached front waiting
    cases old : front.expired threshold reached with
    | true =>
      rw [old] at drops
      constructor
      · intro evicts
        cases evicts with
        | done stays => rw [drops] at stays; cases stays
        | dropped goes rest =>
          rw [drops] at goes
          cases goes
          obtain ⟨rfl, rfl⟩ := (ih _ _).mp rest
          simp [old]
      · rintro ⟨rfl, rfl⟩
        simp only [List.takeWhile_cons, List.dropWhile_cons, old, if_true, List.map_cons]
        exact .dropped drops ((ih _ _).mpr ⟨rfl, rfl⟩)
    | false =>
      rw [old] at drops
      constructor
      · intro evicts
        cases evicts with
        | done => simp [old]
        | dropped goes => rw [drops] at goes; cases goes
      · rintro ⟨rfl, rfl⟩
        simp only [List.takeWhile_cons, List.dropWhile_cons, old]
        exact .done drops

theorem evicts_sorted (sorted : line.entries.Pairwise fun ahead behind => ahead.fence ≤ behind.fence)
    (threshold reached : Nat) (items : List α) (after : FenceLine α) :
    Evicts threshold reached line items after ↔
      items = (line.entries.filter (·.expired threshold reached)).map (·.item) ∧
        after = ⟨line.entries.filter (!·.expired threshold reached)⟩ := by
  have falls : line.entries.Pairwise fun ahead behind =>
      behind.expired threshold reached = true → ahead.expired threshold reached = true := by
    refine sorted.imp fun {ahead behind} le old => ?_
    simp only [Waiting.expired, decide_eq_true_eq] at old ⊢
    omega
  obtain ⟨taken, left⟩ := front_eq_filter falls
  rw [← taken, ← left]
  exact evicts_iff threshold reached line.entries items after

-- While items come back in fence order, a retrieval makes an item only where none in the whole pool
-- is ready, and hands out the one that has been in it the longest otherwise; trimming drops all that
-- have expired, the oldest first.
theorem served_by_fence (opening : pool.get start = .empty)
    (path : Serves pool start returned left s)
    (in_order : returned.Pairwise fun earlier later => earlier.fence ≤ later.fence) :
    (∃ gone, returned = gone ++ (pool.get s).entries ∧ left = gone.map (·.item)) ∧
    (∀ reached create,
      (∀ entry ∈ (pool.get s).entries, reached < entry.fence) ∧
        retrieve pool reached create s = create s ∨
      ∃ oldest younger, (pool.get s).entries = oldest :: younger ∧ oldest.fence ≤ reached ∧
        (∀ entry ∈ (pool.get s).entries, oldest.fence ≤ entry.fence) ∧
        retrieve pool reached create s = ⟨.ok oldest.item, pool.put ⟨younger⟩ s, []⟩) ∧
    (∀ more later after, Serves pool s more later after →
      ∃ gone, (pool.get s).entries ++ more = gone ++ (pool.get after).entries ∧
        later = gone.map (·.item)) ∧
    ∀ threshold reached items after, Evicts threshold reached (pool.get s) items after ↔
      items = ((pool.get s).entries.filter (·.expired threshold reached)).map (·.item) ∧
        after = ⟨(pool.get s).entries.filter (!·.expired threshold reached)⟩ := by
  obtain ⟨gone, parted, listed⟩ := path.in_order
  rw [opening] at parted
  have parted : returned = gone ++ (pool.get s).entries := parted
  have sorted : (pool.get s).entries.Pairwise fun ahead behind => ahead.fence ≤ behind.fence := by
    rw [parted] at in_order
    exact (List.pairwise_append.mp in_order).2.1
  refine ⟨⟨gone, parted, listed⟩, fun reached create => ?_, fun _ _ _ onward => onward.in_order,
    evicts_sorted sorted⟩
  rcases pop?_sorted sorted reached with ⟨early, none_ready⟩ | ⟨oldest, younger, shape, ready, least,
    popped⟩
  · exact .inl ⟨early, retrieve_creates none_ready create⟩
  · exact .inr ⟨oldest, younger, shape, ready, least, retrieve_popped popped create⟩

theorem served_by_fence_three :
    let line : FenceLine Nat := ⟨[⟨7, 8⟩, ⟨7, 9⟩]⟩
    Serves .whole (.empty : FenceLine Nat) [⟨5, 6⟩, ⟨7, 8⟩, ⟨7, 9⟩] [6] line ∧
      retrieve .whole 6 (pure 1) line = ⟨.ok 1, line, []⟩ ∧
      Evicts 5 12 line [8, 9] .empty := by
  intro line
  have opened : Serves .whole (.empty : FenceLine Nat) [] [] .empty := .start
  have path : Serves .whole (.empty : FenceLine Nat) [⟨5, 6⟩, ⟨7, 8⟩, ⟨7, 9⟩] [6] line :=
    (((opened.put 6 5).put 8 7).reused 5 (pure 0) rfl rfl).put 9 7
  obtain ⟨-, retrieves, -, evicts⟩ := served_by_fence rfl path (by decide)
  refine ⟨path, ?_, (evicts 5 12 _ _).mpr ⟨rfl, rfl⟩⟩
  rcases retrieves 6 (pure 1) with ⟨-, ran⟩ | ⟨_, _, shape, ready, -⟩
  · exact ran
  · cases shape
    cases Nat.not_le.mpr (Nat.lt_succ_self 6) ready

theorem Serves.replayed {start : FenceLine Nat} {before after returned : List (Waiting Nat)}
    {left : List Nat} {history : List Passing} (replays : Replays before history after)
    (allowed : ∀ passing ∈ history, passing.Allowed)
    (path : Serves .whole start returned left ⟨before⟩) :
    Serves .whole start (returned ++ Passing.entered history)
      (left ++ (Passing.left history).map (·.item)) ⟨after⟩ := by
  induction replays generalizing returned left with
  | nil => simpa [Passing.entered, Passing.left] using path
  | @enter line entry history after _ ih =>
    have onward := ih (fun passing member => allowed passing (List.mem_cons_of_mem _ member))
      (path.put entry.item entry.fence)
    have none_out : (Passing.enter entry).left? = none := rfl
    simpa [Passing.entered, Passing.left, none_out, Passing.entered?] using onward
  | @leave entry line passing history after out _ ih =>
    have due := allowed passing List.mem_cons_self
    have next : Serves .whole start returned (left ++ [entry.item]) ⟨line⟩ := by
      cases passing with
      | enter _ => cases out
      | retrieve _ reached =>
        cases out
        have popped : pop? ⟨entry :: line⟩ reached = some (entry.item, ⟨line⟩) := if_pos due
        exact path.reused reached (pure 0) (congrArg Option.isSome popped)
          (retrieve_popped popped _)
      | evict _ threshold reached =>
        cases out
        exact path.evicted threshold reached (if_pos due)
    have none_in : passing.entered? = none := by
      cases passing with
      | enter _ => cases out
      | retrieve _ _ | evict _ _ _ => rfl
    have onward := ih (fun passing member => allowed passing (List.mem_cons_of_mem _ member)) next
    simpa [Passing.entered, Passing.left, none_in, out] using onward

theorem serves_program (steps : List PoolStep) (s : Watched (FenceLine Nat)) :
    ∃ returned left after events, Callback.runAll steps s = ⟨.ok (), after, events⟩ ∧
      Serves .whole s.pool returned left after.pool := by
  obtain ⟨pool, heard, history, events, ran, -, replays, -, allowed⟩ :=
    (Watched.recounts_all steps s).passesOnce
  exact ⟨_, _, _, _, ran, Serves.start.replayed replays allowed⟩

end FenceLine

end Reclaim
