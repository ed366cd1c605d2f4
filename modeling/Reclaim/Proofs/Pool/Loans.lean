import Reclaim.Proofs.Execution
import Reclaim.Proofs.Pool.Lines
import Mathlib.Order.Bounds.Basic

namespace Reclaim.BucketPool

variable {α σ τ : Type} {multiple size index : Nat}

section Sizes

def Serves (multiple size : Nat) : Set Nat :=
  {bytes | 0 < bytes ∧ multiple ∣ bytes ∧ size ≤ bytes}

def bucketSize (multiple index : Nat) : Nat := (index + 1) * multiple

theorem bucketSize_inj (some_multiple : 0 < multiple) {index other : Nat} :
    bucketSize multiple index = bucketSize multiple other ↔ index = other := by
  constructor
  · intro same
    exact Nat.succ.inj (Nat.eq_of_mul_eq_mul_right some_multiple same)
  · rintro rfl
    rfl

theorem le_bucketSize (some_multiple : 0 < multiple) (size : Nat) :
    size ≤ bucketSize multiple (bucket multiple size) := by
  have below := Nat.lt_mul_div_succ (size - 1) some_multiple
  unfold bucketSize bucket
  rw [Nat.mul_comm] at below
  omega

theorem bucketSize_le {bytes : Nat} (serves : bytes ∈ Serves multiple size) :
    bucketSize multiple (bucket multiple size) ≤ bytes := by
  obtain ⟨some_bytes, ⟨times, rfl⟩, le⟩ := serves
  have some_times : 0 < times := Nat.pos_of_mul_pos_left some_bytes
  have below : bucket multiple size < times := by
    refine Nat.div_lt_of_lt_mul ?_
    omega
  rw [bucketSize, Nat.mul_comm multiple]
  exact Nat.mul_le_mul_right multiple below

theorem bucketSize_least (some_multiple : 0 < multiple) (size : Nat) :
    IsLeast (Serves multiple size) (bucketSize multiple (bucket multiple size)) :=
  ⟨⟨Nat.mul_pos (Nat.succ_pos _) some_multiple, Nat.dvd_mul_left _ _,
    le_bucketSize some_multiple size⟩, fun _ => bucketSize_le⟩

theorem bucketSize_lt (some_size : 0 < size) :
    bucketSize multiple (bucket multiple size) < size + multiple := by
  have le := Nat.div_mul_le_self (size - 1) multiple
  unfold bucketSize bucket
  rw [Nat.succ_mul]
  omega

theorem alignedSize_eq (some_multiple : 0 < multiple) (size : Nat) :
    alignedSize multiple size =
      if bucketSize multiple (bucket multiple size) < Word.limit then
        .ok (bucketSize multiple (bucket multiple size))
      else .error .overflow := by
  have le : bucket multiple size + 1 ≤ bucketSize multiple (bucket multiple size) :=
    Nat.le_mul_of_pos_right _ some_multiple
  unfold alignedSize
  by_cases fits : bucketSize multiple (bucket multiple size) < Word.limit
  · rw [if_pos fits, Word.add_ok (Nat.lt_of_le_of_lt le fits)]
    exact Word.mul_ok fits
  rw [if_neg fits]
  by_cases counts : bucket multiple size + 1 < Word.limit
  · rw [Word.add_ok counts]
    exact if_neg fits
  · rw [Word.add_overflow (Nat.not_lt.mp counts)]
    rfl

end Sizes

section Sorting

variable {sizeOf : α → Nat} {pool after : BucketPool α} {item : α} {fence reached : Nat}

def Sorted (sizeOf : α → Nat) (pool : BucketPool α) : Prop :=
  ∀ index line, pool.buckets[index]? = some line → ∀ entry ∈ line.entries,
    sizeOf entry.item = bucketSize pool.multiple index

theorem sorted_ofThreshold (multiple threshold : Nat) :
    (ofThreshold multiple threshold : BucketPool α).Sorted sizeOf :=
  fun _ _ found => absurd found (by simp [ofThreshold])

theorem Sorted.push? (sorted : pool.Sorted sizeOf) (pushed : pool.push? size item fence = some after)
    (right : sizeOf item = bucketSize pool.multiple (bucket pool.multiple size)) :
    after.Sorted sizeOf := by
  unfold BucketPool.push? at pushed
  dsimp only at pushed
  split at pushed
  · cases pushed
    intro index line found entry present
    simp only [List.getElem?_modify, Option.map_eq_map, Option.map_eq_some_iff] at found
    obtain ⟨before, found, rfl⟩ := found
    have old : ∀ entry ∈ before.entries, sizeOf entry.item = bucketSize pool.multiple index := by
      by_cases within : index < pool.buckets.length
      · rw [List.getElem?_append_left within] at found
        exact sorted index before found
      · rw [List.getElem?_append_right (Nat.not_lt.mp within)] at found
        have empty := List.eq_of_mem_replicate (List.mem_of_getElem? found)
        simp [empty, FenceLine.empty]
    split at present
    · rename_i here
      subst here
      cases List.mem_append.mp present with
      | inl before => exact old entry before
      | inr new =>
        rw [List.mem_singleton.mp new]
        exact right
    · exact old entry present
  · cases pushed

theorem Sorted.pop? (sorted : pool.Sorted sizeOf)
    (popped : pool.pop? size reached = some (item, after)) :
    sizeOf item = bucketSize pool.multiple (bucket pool.multiple size) ∧ after.Sorted sizeOf := by
  unfold BucketPool.pop? at popped
  dsimp only at popped
  split at popped
  · cases popped
  rename_i line here
  split at popped
  · cases popped
  rename_i taken rest out
  cases popped
  obtain ⟨entry, shape, -, rfl⟩ := FenceLine.pop?_some out
  refine ⟨sorted _ line here entry (by simp [shape]), ?_⟩
  intro index shown found other present
  by_cases same : bucket pool.multiple size = index
  · subst same
    have length := (List.getElem?_eq_some_iff.mp here).1
    rw [List.getElem?_set_self length] at found
    cases found
    exact sorted _ line here other (by simp [shape, present])
  · rw [List.getElem?_set_ne same] at found
    exact sorted index shown found other present

theorem evictEach_entries (threshold reached : Nat) (lines : List (FenceLine α)) (index : Nat)
    (line : FenceLine α) (found : (evictEach threshold reached lines).2[index]? = some line) :
    ∃ before, lines[index]? = some before ∧ ∀ entry ∈ line.entries, entry ∈ before.entries := by
  induction lines generalizing index with
  | nil => simp [evictEach] at found
  | cons first rest ih =>
    unfold evictEach at found
    cases evicted : first.evict? threshold reached with
    | none =>
      simp only [evicted] at found
      cases index with
      | zero =>
        cases found
        exact ⟨line, rfl, fun _ present => present⟩
      | succ index => exact ih index found
    | some out =>
      obtain ⟨item, left⟩ := out
      simp only [evicted] at found
      cases index with
      | zero =>
        cases found
        obtain ⟨entry, shape, -, -⟩ := FenceLine.evict?_some evicted
        exact ⟨first, rfl, fun other present => by simp [shape, present]⟩
      | succ index => exact ih index found

theorem Sorted.evict (sorted : pool.Sorted sizeOf) (reached : Nat) :
    (pool.evict reached).2.Sorted sizeOf := by
  intro index line found entry present
  obtain ⟨before, there, kept⟩ :=
    evictEach_entries pool.threshold reached pool.buckets index line found
  exact sorted index before there entry (kept entry present)

end Sorting

theorem retrieve_run (pool : Part σ (BucketPool α)) (s : σ)
    (some_multiple : 0 < (pool.get s).multiple) (size reached : Nat) (create : Nat → Action σ α) :
    let least := bucketSize (pool.get s).multiple (bucket (pool.get s).multiple size)
    retrieve pool size reached create s =
      match (pool.get s).pop? size reached with
      | some (item, rest) => ⟨.ok item, pool.put rest s, []⟩
      | none =>
        if least < Word.limit then (do Action.note (.bucketMiss least); create least) s
        else ⟨.error (.fault .overflow), s, []⟩ := by
  intro least
  cases popped : (pool.get s).pop? size reached with
  | some out =>
    obtain ⟨item, rest⟩ := out
    simp [retrieve, popped]
  | none =>
    have aligned := alignedSize_eq some_multiple size
    by_cases fits : least < Word.limit
    · rw [if_pos fits] at aligned ⊢
      simp [retrieve, popped, aligned, least]
    · rw [if_neg fits] at aligned ⊢
      simp [retrieve, popped, aligned]

structure Loans (α τ : Type) where
  pool : BucketPool α
  lent : List (Nat × α)
  others : τ

namespace Loans

variable {sizeOf : α → Nat} {start loans after : Loans α τ} {create : Nat → Action (Loans α τ) α}
  {reached : Nat}

def poolOf : Part (Loans α τ) (BucketPool α) where
  get := pool
  put pool loans := { loans with pool }

-- A retrieval, written down if it gives an item. What its callback lends comes before.
def lend (size reached : Nat) (create : Nat → Action (Loans α τ) α) : Action (Loans α τ) α := do
  let item ← retrieve poolOf size reached create
  Action.modify fun loans => { loans with lent := (size, item) :: loans.lent }
  return item

-- An item whose bucket cannot be is dropped.
def put (loans : Loans α τ) (size : Nat) (item : α) (fence : Nat) : Loans α τ :=
  match loans.pool.push? size item fence with
  | some pool => { loans with pool }
  | none => loans

-- What callers do who give back only what was lent, under a size of the same bucket, and who make
-- items of the size they are asked for. While they make one they may do all of this too.
inductive Deals (sizeOf : α → Nat) : Loans α τ → Loans α τ → Prop where
  | still (loans : Loans α τ) : Deals sizeOf loans loans
  | put {start loans : Loans α τ} {asked size : Nat} {item : α} (fence : Nat) :
      Deals sizeOf start loans → (asked, item) ∈ loans.lent →
      bucket loans.pool.multiple asked = bucket loans.pool.multiple size →
      Deals sizeOf start (loans.put size item fence)
  | evict {start loans : Loans α τ} (reached : Nat) : Deals sizeOf start loans →
      Deals sizeOf start { loans with pool := (loans.pool.evict reached).2 }
  | lend {start loans : Loans α τ} (size reached : Nat) (create : Nat → Action (Loans α τ) α) :
      Deals sizeOf start loans → (∀ bytes, Deals sizeOf loans (create bytes loans).state) →
      (∀ bytes item, (create bytes loans).result = .ok item → sizeOf item = bytes) →
      Deals sizeOf start (lend size reached create loans).state
  | elsewhere {start loans : Loans α τ} (others : τ) : Deals sizeOf start loans →
      Deals sizeOf start { loans with others }

structure Right (multiple : Nat) (sizeOf : α → Nat) (loans : Loans α τ) : Prop where
  same_multiple : loans.pool.multiple = multiple
  sorted : loans.pool.Sorted sizeOf
  lent : ∀ asked item, (asked, item) ∈ loans.lent →
    sizeOf item = bucketSize multiple (bucket multiple asked)

theorem Right.put {asked : Nat} {item : α} (right : loans.Right multiple sizeOf) (fence : Nat)
    (held : (asked, item) ∈ loans.lent)
    (same : bucket loans.pool.multiple asked = bucket loans.pool.multiple size) :
    (loans.put size item fence).Right multiple sizeOf := by
  unfold Loans.put
  split
  · rename_i pool pushed
    have fits := right.lent asked item held
    rw [← right.same_multiple, same] at fits
    exact ⟨(entries_push? pushed).1.multiple.trans right.same_multiple,
      right.sorted.push? pushed fits, right.lent⟩
  · exact right

theorem Right.record {item : α} (right : loans.Right multiple sizeOf)
    (fits : sizeOf item = bucketSize multiple (bucket multiple size)) :
    Right multiple sizeOf { loans with lent := (size, item) :: loans.lent } where
  same_multiple := right.same_multiple
  sorted := right.sorted
  lent asked other among := by
    cases List.mem_cons.mp among with
    | inl here =>
      cases here
      exact fits
    | inr before => exact right.lent asked other before

theorem Right.lend (some_multiple : 0 < multiple) (right : loans.Right multiple sizeOf)
    (inside : ∀ bytes, (create bytes loans).state.Right multiple sizeOf)
    (makes : ∀ bytes item, (create bytes loans).result = .ok item → sizeOf item = bytes) :
    (lend size reached create loans).state.Right multiple sizeOf := by
  have same := right.same_multiple
  have ran := retrieve_run poolOf loans (same.symm ▸ some_multiple) size reached create
  rw [show (poolOf.get loans).multiple = multiple from same] at ran
  simp only [Loans.lend, Action.run_bind, ran]
  split
  · rename_i item rest popped
    obtain ⟨fits, sorted⟩ := right.sorted.pop? popped
    rw [same] at fits
    have kept : Right multiple sizeOf { loans with pool := rest } :=
      ⟨(entries_pop? popped).1.multiple.trans same, sorted, right.lent⟩
    exact kept.record fits
  · split
    · have made := makes (bucketSize multiple (bucket multiple size))
      have left := inside (bucketSize multiple (bucket multiple size))
      simp only [Action.run_note, Run.andThen_ok]
      match did : create (bucketSize multiple (bucket multiple size)) loans with
      | ⟨.ok item, _, _⟩ =>
        rw [did] at made left
        exact left.record (made item rfl)
      | ⟨.error _, _, _⟩ =>
        rw [did] at left
        exact left
    · exact right

theorem deals_right (some_multiple : 0 < multiple) (deals : Deals sizeOf start after)
    (right : start.Right multiple sizeOf) : after.Right multiple sizeOf := by
  induction deals with
  | still loans => exact right
  | put fence _ held same ih => exact (ih right).put fence held same
  | evict reached _ ih =>
    have before := ih right
    exact ⟨before.same_multiple, before.sorted.evict reached, before.lent⟩
  | lend size reached create _ _ makes ih inside =>
    have before := ih right
    exact before.lend some_multiple (fun bytes => inside bytes before) makes
  | elsewhere others _ ih =>
    have before := ih right
    exact ⟨before.same_multiple, before.sorted, before.lent⟩

-- From an empty pool on, every item that is lent is of the least size that serves its request, and
-- so wastes less than one multiple. That size tells the buckets apart. It is computed only where an
-- item has to be made, and there it faults exactly if it leaves the range.
theorem loans_fit {threshold : Nat} {others : τ} (some_multiple : 0 < multiple)
    (deals : Deals sizeOf ⟨.ofThreshold multiple threshold, [], others⟩ after) :
    (∀ asked item, (asked, item) ∈ after.lent →
      IsLeast (Serves multiple asked) (sizeOf item) ∧ asked ≤ sizeOf item ∧
        (0 < asked → sizeOf item < asked + multiple)) ∧
    (∀ size other least least', IsLeast (Serves multiple size) least →
      IsLeast (Serves multiple other) least' →
      (bucket multiple size = bucket multiple other ↔ least = least')) ∧
    ∀ size, ∃ least, IsLeast (Serves multiple size) least ∧
      (alignedSize multiple size = if least < Word.limit then .ok least else .error .overflow) ∧
      ∀ reached create, retrieve poolOf size reached create after =
        match after.pool.pop? size reached with
        | some (item, rest) => ⟨.ok item, { after with pool := rest }, []⟩
        | none =>
          if least < Word.limit then (do Action.note (.bucketMiss least); create least) after
          else ⟨.error (.fault .overflow), after, []⟩ := by
  have right := deals_right some_multiple deals ⟨rfl, sorted_ofThreshold multiple threshold, nofun⟩
  refine ⟨?_, ?_, fun size => ⟨_, bucketSize_least some_multiple size,
    alignedSize_eq some_multiple size, fun reached create => ?_⟩⟩
  · intro asked item among
    rw [right.lent asked item among]
    exact ⟨bucketSize_least some_multiple asked, le_bucketSize some_multiple asked, bucketSize_lt⟩
  · intro size other least least' here there
    rw [here.unique (bucketSize_least some_multiple size),
      there.unique (bucketSize_least some_multiple other)]
    exact (bucketSize_inj some_multiple).symm
  · have same := right.same_multiple
    have ran := retrieve_run poolOf after (same.symm ▸ some_multiple) size reached create
    rwa [show (poolOf.get after).multiple = multiple from same] at ran

section Nested

def unused : Loans (Nat × Nat) Unit := ⟨.ofThreshold 64 100, [], ()⟩

-- Items have a number and a size. While the second is made, the first is lent for 70 bytes and given
-- back as one of 100.
def makeSecond (bytes : Nat) : Action (Loans (Nat × Nat) Unit) (Nat × Nat) := do
  let item ← lend 70 0 fun bytes => pure (1, bytes)
  Action.modify fun loans => loans.put 100 item 5
  return (2, bytes)

theorem deals_makeSecond (bytes : Nat) : Deals Prod.snd unused (makeSecond bytes unused).state := by
  have first : Deals Prod.snd unused ⟨.ofThreshold 64 100, [(70, (1, 128))], ()⟩ :=
    (Deals.still unused).lend 70 0 (fun bytes => pure (1, bytes)) (fun _ => .still _)
      fun bytes item made => by cases made; rfl
  have back : Deals Prod.snd unused
      (Loans.put ⟨.ofThreshold 64 100, [(70, (1, 128))], ()⟩ 100 (1, 128) 5) :=
    first.put 5 List.mem_cons_self rfl
  exact back

theorem loans_fit_nested :
    0 < 64 ∧ ∃ after, Deals Prod.snd unused after ∧
      after.lent = [(128, (1, 128)), (65, (2, 128)), (70, (1, 128))] ∧
      ∀ asked item, (asked, item) ∈ after.lent → IsLeast (Serves 64 asked) item.2 ∧
        asked ≤ item.2 ∧ (0 < asked → item.2 < asked + 64) := by
  have second := (Deals.still unused).lend 65 0 makeSecond deals_makeSecond
    fun bytes item made => by cases made; rfl
  have third := second.lend 128 5 (fun _ => Action.refuse .outOfMemory) (fun _ => .still _)
    fun _ _ made => by cases made
  exact ⟨by decide, _, third, rfl, (loans_fit (by decide) third).1⟩

end Nested

end Loans

end Reclaim.BucketPool
