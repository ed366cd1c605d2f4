import Reclaim.Proofs.Pool.Lines

namespace Reclaim.BoundedPool

variable {α : Type} {pool : BoundedPool α} {line rest : FenceLine α} {recording reached : Nat}
  {counts : Nat → Nat} {item : α}

def oneMore (fence : Nat) (counts : Nat → Nat) (other : Nat) : Nat :=
  counts other + if other = fence then 1 else 0

-- Items come back in fence order, under fences up to the recorded one, and `counts` tells how many
-- have come back under each.
structure Parks (recording : Nat) (counts : Nat → Nat) (pool : BoundedPool α) : Prop where
  sorted : pool.line.entries.Pairwise fun earlier later => earlier.fence ≤ later.fence
  timely : ∀ entry ∈ pool.line.entries, entry.fence ≤ recording
  current : (pool.line.entries.countP fun entry => entry.fence = recording) ≤ counts recording
  size : ∃ fence, pool.line.size ≤ max pool.bound (counts fence)

-- One more item may come: there is room for it, or all that are here came under the same fence.
def HasRoom (recording : Nat) (counts : Nat → Nat) (pool : BoundedPool α) : Prop :=
  (∃ fence, pool.line.size + 1 ≤ max pool.bound (counts fence)) ∨
    ∀ entry ∈ pool.line.entries, entry.fence = recording

theorem parks_ofBound (bound : Nat) : (ofBound bound : BoundedPool α).Parks recording counts where
  sorted := .nil
  timely _ present := (List.not_mem_nil present).elim
  current := Nat.zero_le _
  size := ⟨0, Nat.zero_le _⟩

namespace Parks

theorem fewer (parks : pool.Parks recording counts)
    (fewer : line.entries.Sublist pool.line.entries) :
    Parks recording counts { pool with line } where
  sorted := parks.sorted.sublist fewer
  timely entry present := parks.timely entry (fewer.subset present)
  current := Nat.le_trans (fewer.countP_le ..) parks.current
  size := by
    obtain ⟨fence, le⟩ := parks.size
    exact ⟨fence, Nat.le_trans fewer.length_le le⟩

theorem later {next : Nat} (parks : pool.Parks recording counts) (le : recording ≤ next) :
    pool.Parks next counts := by
  refine { parks with
    timely := fun entry present => Nat.le_trans (parks.timely entry present) le
    current := ?_ }
  rcases Nat.lt_or_eq_of_le le with before | rfl
  · have none_yet : (pool.line.entries.countP fun entry => entry.fence = next) = 0 := by
      refine List.countP_eq_zero.mpr fun entry present => ?_
      have early := parks.timely entry present
      simp only [decide_eq_true_eq]
      omega
    exact none_yet ▸ Nat.zero_le _
  · exact parks.current

theorem size_le (parks : pool.Parks recording counts)
    (same : ∀ entry ∈ pool.line.entries, entry.fence = recording) :
    pool.line.size ≤ counts recording := by
  have all : (pool.line.entries.countP fun entry => entry.fence = recording) = pool.line.size :=
    List.countP_eq_length.mpr fun entry present => decide_eq_true (same entry present)
  exact all ▸ parks.current

theorem push (parks : pool.Parks recording counts) (has_room : pool.HasRoom recording counts)
    (item : α) : (pool.push item recording).Parks recording (oneMore recording counts) where
  sorted := by
    refine List.pairwise_append.mpr ⟨parks.sorted, List.pairwise_singleton _ _, ?_⟩
    intro entry present added among
    rw [List.mem_singleton.mp among]
    exact parks.timely entry present
  timely := by
    intro entry present
    rcases List.mem_append.mp present with old | new
    · exact parks.timely entry old
    · exact Nat.le_of_eq (congrArg Waiting.fence (List.mem_singleton.mp new))
  current := by
    have current := parks.current
    simp only [BoundedPool.push, FenceLine.push, List.countP_append, List.countP_singleton,
      decide_true, if_true, oneMore]
    omega
  size := by
    have grown : (pool.push item recording).line.size = pool.line.size + 1 := List.length_append
    have bound : (pool.push item recording).bound = pool.bound := rfl
    rw [grown, bound]
    rcases has_room with ⟨fence, room⟩ | same
    · refine ⟨fence, Nat.le_trans room ?_⟩
      unfold oneMore
      omega
    · have le := parks.size_le same
      refine ⟨recording, Nat.le_trans (Nat.succ_le_succ le) ?_⟩
      simp only [oneMore, if_true]
      exact Nat.le_max_right _ _

theorem stalled_room (parks : pool.Parks recording counts)
    (stalled : pool.line.oldest?.any (recording ≤ ·) = true) : pool.HasRoom recording counts := by
  refine .inr fun entry present => ?_
  obtain ⟨oldest, here, le⟩ := (Option.any_eq_true ..).mp stalled
  have le : recording ≤ oldest := of_decide_eq_true le
  have early := parks.timely entry present
  have sorted := parks.sorted
  unfold FenceLine.oldest? at here
  cases shape : pool.line.entries with
  | nil => simp [shape] at present
  | cons front waiting =>
    rw [shape] at present sorted
    simp only [shape, List.head?_cons, Option.map_some, Option.some.injEq] at here
    rcases List.mem_cons.mp present with first | behind
    · subst first
      omega
    · have after := (List.pairwise_cons.mp sorted).1 entry behind
      omega

theorem popped_room (parks : pool.Parks recording counts)
    (popped : pool.line.pop? reached = some (item, rest)) :
    Parks recording counts { pool with line := rest } ∧
      HasRoom recording counts { pool with line := rest } := by
  obtain ⟨entry, shape, -, -⟩ := FenceLine.pop?_some popped
  have fewer : rest.entries.Sublist pool.line.entries := shape ▸ List.sublist_cons_self ..
  have size : pool.line.size = rest.size + 1 := congrArg List.length shape
  obtain ⟨fence, le⟩ := parks.size
  exact ⟨parks.fewer fewer, .inl ⟨fence, size ▸ le⟩⟩

end Parks

theorem create_room (chosen : pool.choose reached = .create) : pool.HasRoom recording counts := by
  rcases choose_create_below chosen with none_waits | below
  · exact .inr fun entry present => (List.not_mem_nil (none_waits ▸ present)).elim
  · exact .inl ⟨0, Nat.le_trans below (Nat.le_max_left _ _)⟩

end Reclaim.BoundedPool
