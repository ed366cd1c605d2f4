import Reclaim.Pool.Bounded
import Reclaim.Pool.Bucket
import Mathlib.Data.List.Perm.Basic

namespace Reclaim

variable {α β : Type}

theorem flatMap_set_perm (f : α → List β) (items : List α) {index : Nat}
    (inside : index < items.length) (item : α) :
    ((items.set index item).flatMap f).Perm (f item ++ (items.eraseIdx index).flatMap f) :=
  (List.set_perm_cons_eraseIdx inside item).flatMap_right f

theorem flatMap_perm (f : α → List β) (items : List α) {index : Nat}
    (inside : index < items.length) :
    (items.flatMap f).Perm (f items[index] ++ (items.eraseIdx index).flatMap f) :=
  ((List.getElem_cons_eraseIdx_perm inside).symm).flatMap_right f

namespace FenceLine

variable {line rest : FenceLine α} {reached threshold : Nat} {item : α}

theorem pop?_some (popped : line.pop? reached = some (item, rest)) :
    ∃ entry, line.entries = entry :: rest.entries ∧ entry.fence ≤ reached ∧ item = entry.item := by
  unfold pop? at popped
  split at popped
  · cases popped
  · rename_i front waiting shape
    split at popped
    · rename_i ready
      cases popped
      exact ⟨front, shape, ready, rfl⟩
    · cases popped

theorem evict?_some (evicted : line.evict? threshold reached = some (item, rest)) :
    ∃ entry, line.entries = entry :: rest.entries ∧ entry.fence + threshold ≤ reached ∧
      item = entry.item := by
  unfold evict? at evicted
  split at evicted
  · cases evicted
  · rename_i front waiting shape
    split at evicted
    · rename_i old
      cases evicted
      exact ⟨front, shape, by omega, rfl⟩
    · cases evicted

end FenceLine

namespace BoundedPool

theorem choose_reuse {pool : BoundedPool α} {reached : Nat} {item : α} {rest : FenceLine α}
    (chosen : pool.choose reached = .reuse item rest) :
    pool.line.pop? reached = some (item, rest) := by
  unfold choose at chosen
  split at chosen
  · cases chosen
  · split at chosen
    · rename_i popped
      cases chosen
      exact popped
    · split at chosen <;> cases chosen

theorem choose_create {pool : BoundedPool α} {reached : Nat}
    (chosen : pool.choose reached = .create) : pool.line.pop? reached = none := by
  unfold choose at chosen
  split at chosen
  · rename_i empty
    have none_waits : pool.line.entries = [] := by
      simpa [FenceLine.oldest?] using empty
    simp [FenceLine.pop?, none_waits]
  · split at chosen
    · cases chosen
    · assumption

theorem choose_create_below {pool : BoundedPool α} {reached : Nat}
    (chosen : pool.choose reached = .create) :
    pool.line.entries = [] ∨ pool.line.size < pool.bound := by
  unfold choose at chosen
  split at chosen
  · rename_i empty
    exact .inl (by simpa [FenceLine.oldest?] using empty)
  · split at chosen
    · cases chosen
    · split at chosen
      · exact .inr ‹_›
      · cases chosen

theorem choose_wait {pool : BoundedPool α} {reached fence : Nat}
    (chosen : pool.choose reached = .wait fence) : pool.line.oldest? = some fence := by
  unfold choose at chosen
  split at chosen
  · cases chosen
  · rename_i oldest
    split at chosen
    · cases chosen
    · split at chosen <;> cases chosen
      exact oldest

theorem waited_pop {pool : BoundedPool α} {reached fence : Nat}
    (chosen : pool.choose reached = .wait fence) :
    pool.line.pop? fence ≠ none := by
  have oldest := choose_wait chosen
  unfold FenceLine.oldest? at oldest
  unfold FenceLine.pop?
  cases shape : pool.line.entries with
  | nil => simp [shape] at oldest
  | cons front waiting =>
    simp only [shape, List.head?_cons, Option.map_some, Option.some.injEq] at oldest
    simp [oldest]

end BoundedPool

namespace BucketPool

variable {pool after : BucketPool α} {size reached fence index : Nat} {item : α}

def entries (pool : BucketPool α) : List (Waiting α) := pool.buckets.flatMap (·.entries)

-- Pools of one make. Neither has more buckets than there can be, unless the earlier one has.
structure Alike (pool after : BucketPool α) : Prop where
  multiple : after.multiple = pool.multiple
  threshold : after.threshold = pool.threshold
  room : pool.buckets.length ≤ maxBuckets → after.buckets.length ≤ maxBuckets

theorem Alike.refl (pool : BucketPool α) : pool.Alike pool := ⟨rfl, rfl, id⟩

theorem Alike.trans {middle : BucketPool α} (first : pool.Alike middle)
    (second : middle.Alike after) : pool.Alike after :=
  ⟨second.multiple.trans first.multiple, second.threshold.trans first.threshold,
    second.room ∘ first.room⟩

structure Thinned (reached : Nat) (pool after : BucketPool α) : Prop where
  alike : pool.Alike after
  entries : ∃ gone : List (Waiting α), pool.entries.Perm (gone ++ after.entries) ∧
    ∀ entry ∈ gone, entry.fence + pool.threshold ≤ reached

theorem Thinned.refl (pool : BucketPool α) : Thinned reached pool pool :=
  ⟨.refl pool, [], List.Perm.refl _, fun _ present => (List.not_mem_nil present).elim⟩

theorem Thinned.trans {middle : BucketPool α} {later : Nat} (first : Thinned reached pool middle)
    (second : Thinned later middle after) (le : reached ≤ later) : Thinned later pool after := by
  obtain ⟨alike, gone, parted, waited⟩ := first
  obtain ⟨alike', gone', parted', waited'⟩ := second
  refine ⟨alike.trans alike', gone ++ gone', ?_, fun entry present => ?_⟩
  · rw [List.append_assoc]
    exact parted.trans (parted'.append_left gone)
  · rcases List.mem_append.mp present with early | late
    · exact Nat.le_trans (waited entry early) le
    · exact alike.threshold ▸ waited' entry late

theorem Thinned.mono {later : Nat} (thinned : Thinned reached pool after) (le : reached ≤ later) :
    Thinned later pool after :=
  thinned.trans (.refl after) le

theorem entries_pop? (popped : pool.pop? size reached = some (item, after)) :
    pool.Alike after ∧ bucket pool.multiple size < pool.buckets.length ∧
      ∃ entry, entry.item = item ∧ entry.fence ≤ reached ∧
        pool.entries.Perm (entry :: after.entries) := by
  unfold pop? at popped
  dsimp only at popped
  split at popped
  · cases popped
  rename_i line here
  split at popped
  · cases popped
  rename_i taken rest out
  cases popped
  obtain ⟨entry, shape, ready, rfl⟩ := FenceLine.pop?_some out
  obtain ⟨inside, same⟩ := List.getElem?_eq_some_iff.mp here
  refine ⟨⟨rfl, rfl, fun room => ?_⟩, inside, entry, rfl, ready, ?_⟩
  · rwa [List.length_set]
  have before := flatMap_perm FenceLine.entries pool.buckets inside
  rw [same, shape] at before
  exact before.trans ((flatMap_set_perm FenceLine.entries pool.buckets inside rest).symm.cons entry)

theorem entries_push? (pushed : pool.push? size item fence = some after) :
    pool.Alike after ∧ after.entries.Perm (⟨fence, item⟩ :: pool.entries) := by
  unfold push? at pushed
  dsimp only at pushed
  split at pushed
  · rename_i exists_bucket
    cases pushed
    refine ⟨⟨rfl, rfl, fun room => ?_⟩, ?_⟩
    · simp only [List.length_modify, List.length_append, List.length_replicate]
      omega
    let lines := pool.buckets ++
      List.replicate (bucket pool.multiple size + 1 - pool.buckets.length) FenceLine.empty
    have inside : bucket pool.multiple size < lines.length := by
      simp only [lines, List.length_append, List.length_replicate]
      omega
    obtain ⟨earlier, line, later, whole, -, changed⟩ :=
      List.exists_of_modify (fun line : FenceLine α => line.push item fence) inside
    have before : pool.entries = lines.flatMap FenceLine.entries := by
      simp [lines, entries, List.flatMap_replicate, FenceLine.empty]
    change ((lines.modify _ _).flatMap FenceLine.entries).Perm _
    rw [before, changed, whole]
    have moved : ((earlier.flatMap FenceLine.entries ++ line.entries) ++
        ⟨fence, item⟩ :: later.flatMap FenceLine.entries).Perm _ := List.perm_middle
    simpa only [List.flatMap_append, List.flatMap_cons, FenceLine.push, List.append_assoc,
      List.singleton_append] using moved
  · cases pushed

theorem push?_none (refused : pool.push? size item fence = none) :
    maxBuckets ≤ bucket pool.multiple size := by
  unfold push? at refused
  dsimp only at refused
  split at refused
  · cases refused
  · exact Nat.le_of_not_lt ‹_›

theorem entries_evictEach (threshold reached : Nat) (lines : List (FenceLine α)) :
    ∃ gone : List (Waiting α), (evictEach threshold reached lines).1 = gone.map (·.item) ∧
      (lines.flatMap (·.entries)).Perm
        (gone ++ (evictEach threshold reached lines).2.flatMap (·.entries)) ∧
      ∀ entry ∈ gone, entry.fence + threshold ≤ reached := by
  induction lines with
  | nil => exact ⟨[], rfl, List.Perm.refl _, fun _ present => (List.not_mem_nil present).elim⟩
  | cons line rest ih =>
    obtain ⟨gone, items, parted, waited⟩ := ih
    unfold evictEach
    cases evicted : line.evict? threshold reached with
    | none =>
      refine ⟨gone, items, ?_, waited⟩
      simp only [List.flatMap_cons]
      exact (parted.append_left _).trans (List.perm_append_comm_assoc ..)
    | some out =>
      obtain ⟨item, left⟩ := out
      obtain ⟨entry, shape, old, rfl⟩ := FenceLine.evict?_some evicted
      refine ⟨entry :: gone, congrArg (entry.item :: ·) items, ?_, ?_⟩
      · simp only [List.flatMap_cons, shape, List.cons_append]
        exact ((parted.append_left _).trans (List.perm_append_comm_assoc ..)).cons entry
      · exact List.forall_mem_cons.mpr ⟨old, waited⟩

theorem length_evictEach (threshold reached : Nat) (lines : List (FenceLine α)) :
    (evictEach threshold reached lines).2.length = lines.length := by
  induction lines with
  | nil => rfl
  | cons line rest ih =>
    unfold evictEach
    cases line.evict? threshold reached <;> exact congrArg (· + 1) ih

theorem entries_evict (pool : BucketPool α) (reached : Nat) :
    pool.Alike (pool.evict reached).2 ∧ ∃ gone : List (Waiting α),
      (pool.evict reached).1 = gone.map (·.item) ∧
      pool.entries.Perm (gone ++ (pool.evict reached).2.entries) ∧
      ∀ entry ∈ gone, entry.fence + pool.threshold ≤ reached :=
  ⟨⟨rfl, rfl, Nat.le_trans (Nat.le_of_eq (length_evictEach ..))⟩,
    entries_evictEach pool.threshold reached pool.buckets⟩

end BucketPool

end Reclaim
