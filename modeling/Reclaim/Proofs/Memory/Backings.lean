import Reclaim.Memory.Buddy
import Reclaim.Proofs.Execution
import Reclaim.Proofs.Table

namespace Reclaim

structure Backed (backing : Table Backing) (held : List Block) : Prop where
  distinct : backing.keys.Nodup
  counted : ∀ heap, ((backing.get? heap).elim 0 Backing.blocks) = held.countP (·.heap = heap)
  used : ∀ heap entry, backing.get? heap = some entry → 0 < entry.blocks

def serials (backing : Table Backing) : List Nat := backing.map (·.2.memory.serial)

namespace Backed

variable {backing : Table Backing} {held rest : List Block} {block : Block} {entry : Backing}
  {memory : Memory}

theorem opened : Backed [] [] where
  distinct := List.nodup_nil
  counted := fun _ => rfl
  used := fun _ _ found => by cases found

theorem insert {now : List Block} {heap : Nat} (backed : Backed backing held)
    (some_blocks : 0 < entry.blocks) (here : entry.blocks = now.countP (·.heap = heap))
    (elsewhere : ∀ other, other ≠ heap →
      now.countP (·.heap = other) = held.countP (·.heap = other)) :
    Backed (backing.insert heap entry) now where
  distinct := Table.keys_insert_nodup backed.distinct
  counted := by
    intro other
    by_cases same : other = heap
    · subst same
      rw [Table.get?_insert_same]
      exact here
    · rw [Table.get?_insert_other same, backed.counted, elsewhere other same]
  used := by
    intro other found inside
    by_cases same : other = heap
    · subst same
      rw [Table.get?_insert_same] at inside
      cases inside
      exact some_blocks
    · rw [Table.get?_insert_other same] at inside
      exact backed.used other found inside

theorem count_cons_other (block : Block) (held : List Block) {other : Nat}
    (differ : other ≠ block.heap) :
    (block :: held).countP (·.heap = other) = held.countP (·.heap = other) := by
  simp [differ.symm]

theorem count_cons_same (block : Block) (held : List Block) :
    (block :: held).countP (·.heap = block.heap) = held.countP (·.heap = block.heap) + 1 := by
  simp

theorem more (backed : Backed backing held) (found : backing.get? block.heap = some entry) :
    Backed (backing.insert block.heap { entry with blocks := entry.blocks + 1 })
      (block :: held) := by
  have before := backed.counted block.heap
  rw [found] at before
  refine backed.insert (Nat.succ_pos _) ?_ fun other differ => count_cons_other block held differ
  rw [count_cons_same, ← before]
  rfl

theorem first (backed : Backed backing held) (bare : backing.get? block.heap = none) :
    Backed (backing.insert block.heap ⟨memory, 1⟩) (block :: held) := by
  have before := backed.counted block.heap
  rw [bare] at before
  refine backed.insert Nat.one_pos ?_ fun other differ => count_cons_other block held differ
  rw [count_cons_same, ← before]
  rfl

theorem found (backed : Backed backing held) (present : block ∈ held) :
    ∃ entry, backing.get? block.heap = some entry := by
  have counted := backed.counted block.heap
  have some_block : 0 < held.countP (·.heap = block.heap) :=
    List.countP_pos_iff.mpr ⟨block, present, decide_eq_true rfl⟩
  cases inside : backing.get? block.heap with
  | none =>
    rw [inside] at counted
    exact absurd some_block (by rw [← counted]; exact Nat.lt_irrefl 0)
  | some entry => exact ⟨entry, rfl⟩

theorem fewer (backed : Backed backing held) (same : held.Perm (block :: rest))
    (found : backing.get? block.heap = some entry) (several : 1 < entry.blocks) :
    Backed (backing.insert block.heap { entry with blocks := entry.blocks - 1 }) rest := by
  have before := backed.counted block.heap
  rw [found, same.countP_eq, count_cons_same] at before
  refine backed.insert (Nat.sub_pos_of_lt several) ?_ fun other differ => ?_
  · exact Nat.sub_eq_of_eq_add before
  · rw [same.countP_eq, count_cons_other block rest differ]

theorem last (backed : Backed backing held) (same : held.Perm (block :: rest))
    (found : backing.get? block.heap = some entry) (alone : entry.blocks = 1) :
    Backed (backing.erase block.heap) rest where
  distinct := Table.keys_erase_nodup backed.distinct
  counted := by
    intro other
    by_cases here : other = block.heap
    · subst here
      have before := backed.counted block.heap
      rw [found, same.countP_eq, count_cons_same] at before
      change entry.blocks = _ at before
      rw [Table.get?_erase_same]
      change 0 = _
      omega
    · rw [Table.get?_erase_other backing here, backed.counted, same.countP_eq,
        count_cons_other block rest here]
  used := by
    intro other kept inside
    by_cases here : other = block.heap
    · subst here
      rw [Table.get?_erase_same] at inside
      cases inside
    · rw [Table.get?_erase_other backing here] at inside
      exact backed.used other kept inside

theorem serials_erase (backed : Backed backing held) {heap : Nat}
    (found : backing.get? heap = some entry) :
    (serials backing).Perm (entry.memory.serial :: serials (backing.erase heap)) :=
  (Table.perm_of_get? backed.distinct found).map _

theorem serials_kept (backed : Backed backing held) {heap blocks : Nat}
    (found : backing.get? heap = some entry) :
    (serials (backing.insert heap { entry with blocks })).Perm (serials backing) :=
  (backed.serials_erase found).symm

theorem serials_first {heap : Nat} (memory : Memory) (bare : backing.get? heap = none) :
    serials (backing.insert heap ⟨memory, 1⟩) = memory.serial :: serials backing := by
  simp [serials, Table.insert, Table.erase_of_get?_none bare]

end Backed

variable {δ : Type}

structure Live (machine : Machine δ) (owned : List Nat) : Prop where
  exact : machine.live.Perm (owned.map Resource.memory)
  made : ∀ serial ∈ owned, serial < machine.memoriesMade
  distinct : owned.Nodup

namespace Live

variable {machine : Machine δ} {owned rest : List Nat} {serial : Nat}

theorem opened (device : δ) : Live (Machine.start device) [] :=
  ⟨List.Perm.nil, fun _ present => (List.not_mem_nil present).elim, List.nodup_nil⟩

theorem perm (live : Live machine owned) (same : owned.Perm rest) : Live machine rest :=
  ⟨live.exact.trans (same.map _), fun _ present => live.made _ (same.mem_iff.mpr present),
    same.nodup_iff.mp live.distinct⟩

theorem onDevice (live : Live machine owned) (device : δ) :
    Live { machine with device } owned :=
  ⟨live.exact, live.made, live.distinct⟩

theorem create (live : Live machine owned) :
    Live { machine with
        memoriesMade := machine.memoriesMade + 1
        live := .memory machine.memoriesMade :: machine.live }
      (machine.memoriesMade :: owned) where
  exact := live.exact.cons _
  made := by
    intro serial present
    rcases List.mem_cons.mp present with rfl | old
    · exact Nat.lt_succ_self _
    · exact Nat.lt_succ_of_lt (live.made serial old)
  distinct := List.nodup_cons.mpr
    ⟨fun present => Nat.lt_irrefl _ (live.made _ present), live.distinct⟩

theorem drop (live : Live machine (serial :: owned)) :
    Live { machine with live := machine.live.erase (.memory serial) } owned where
  exact := by
    have left := live.exact.erase (Resource.memory serial)
    rwa [List.map_cons, List.erase_cons_head] at left
  made := fun _ present => live.made _ (List.mem_cons_of_mem _ present)
  distinct := (List.nodup_cons.mp live.distinct).2

end Live

end Reclaim
