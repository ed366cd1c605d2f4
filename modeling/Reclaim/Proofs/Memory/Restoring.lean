import Reclaim.Proofs.Memory.Vacancy

namespace Reclaim

namespace Buddy

variable {δ : Type} {shape : Shape} {buddy : Buddy} {cell : Claim} {size level : Nat}
  {rest : List Nat} {backing : Backing}

theorem Claims.restored (claims : Claims shape buddy size cell level rest)
    (sound : Sound shape buddy) : (buddy.claimed cell level rest).released cell = buddy := by
  have listed : (⟨cell.offset, level⟩ : Claim) ∈ freeCells buddy.free := by
    refine mem_freeCells.mpr ?_
    rw [show buddy.free.getD level [] = cell.offset :: rest from claims.carves.popped]
    exact List.mem_cons_self
  have free := claims.carves.restored sound.fits.minBlock sound.lists sound.merged
    (sound.free_aligned listed)
  have taken : (buddy.taken.insert cell.offset cell.order).erase cell.offset = buddy.taken := by
    rw [Table.erase_insert, Table.erase_of_get?_none claims.fresh]
  have used : buddy.used + buddy.blockSize cell.order - buddy.blockSize cell.order = buddy.used :=
    Nat.add_sub_cancel ..
  have merged : ((buddy.claimed cell level rest).erased cell.offset).merge
      (buddy.carved cell level rest) cell.offset cell.order (buddy.maxOrder - cell.order) =
      buddy.free := by
    rw [← free]
    exact merge_congr rfl
  change { buddy with
    free := ((buddy.claimed cell level rest).erased cell.offset).merge
      (buddy.carved cell level rest) cell.offset cell.order (buddy.maxOrder - cell.order)
    taken := (buddy.taken.insert cell.offset cell.order).erase cell.offset
    used := buddy.used + buddy.blockSize cell.order - buddy.blockSize cell.order } = buddy
  rw [merged, taken, used]

theorem released_rebacked (table : Table Backing) :
    (buddy.rebacked table).released cell = (buddy.released cell).rebacked table := by
  have merged : ((buddy.rebacked table).erased cell.offset).merge buddy.free cell.offset cell.order
      (buddy.maxOrder - cell.order) = (buddy.erased cell.offset).merge buddy.free cell.offset
      cell.order (buddy.maxOrder - cell.order) := merge_congr rfl
  change { (buddy.released cell).rebacked table with
    free := ((buddy.rebacked table).erased cell.offset).merge buddy.free cell.offset cell.order
      (buddy.maxOrder - cell.order) } = (buddy.released cell).rebacked table
  rw [merged]
  rfl

theorem deallocate_of_buddy {block : Block} {after : Buddy} {machine left : Machine δ}
    {result : Except Stop Unit} {events : List Event}
    (ran : deallocate block (buddy, machine) = ⟨result, (after, left), events⟩) :
    Supply.deallocate block (.buddy buddy, machine) = ⟨result, (.buddy after, left), events⟩ := by
  simp [Supply.deallocate, Supply.byKind, ran]

theorem Claims.deallocate_backed (claims : Claims shape buddy size cell level rest)
    (sound : Sound shape buddy) (machine : Machine δ)
    (found : buddy.backing.get? (buddy.blockAt cell).heap = some backing)
    (used : 0 < backing.blocks) :
    ∃ table, Supply.deallocate (buddy.blockAt cell)
        (.buddy ((buddy.claimed cell level rest).more (buddy.blockAt cell) backing), machine) =
      ⟨.ok (), (.buddy (buddy.rebacked table), machine), []⟩ ∧
      ∀ heap, table.get? heap = buddy.backing.get? heap := by
  let block := buddy.blockAt cell
  let more : Backing := { backing with blocks := backing.blocks + 1 }
  have now : (buddy.backing.insert block.heap more).get? block.heap = some more :=
    Table.get?_insert_same
  have given : Sound shape ((buddy.claimed cell level rest).more block backing) :=
    claims.sound.rebacked _
  have freed := deallocate_fewer machine given claims.present now (Nat.succ_lt_succ used)
  have back : ((buddy.claimed cell level rest).more block backing).released cell =
      buddy.rebacked (buddy.backing.insert block.heap more) := by
    rw [Buddy.more, released_rebacked, claims.restored sound]
    rfl
  rw [back] at freed
  refine ⟨_, deallocate_of_buddy freed, fun heap => ?_⟩
  by_cases here : heap = block.heap
  · subst here
    exact Table.get?_insert_same.trans found.symm
  · exact (Table.get?_insert_other here).trans (Table.get?_insert_other here)

theorem Claims.deallocate_bare (claims : Claims shape buddy size cell level rest)
    (sound : Sound shape buddy) (machine : Machine δ) (memory : Memory)
    (bare : buddy.backing.get? (buddy.blockAt cell).heap = none) :
    Supply.deallocate (buddy.blockAt cell)
        (.buddy ((buddy.claimed cell level rest).rebacked
          (buddy.backing.insert (buddy.blockAt cell).heap ⟨memory, 1⟩)), machine) =
      ⟨.ok (), (.buddy buddy,
          { machine with live := machine.live.erase (.memory memory.serial) }),
        [.dropped (.memory memory.serial),
          .noted (.heapReleased buddy.heap (buddy.blockAt cell).heap)]⟩ := by
  let block := buddy.blockAt cell
  have now : (buddy.backing.insert block.heap ⟨memory, 1⟩).get? block.heap = some ⟨memory, 1⟩ :=
    Table.get?_insert_same
  have given : Sound shape ((buddy.claimed cell level rest).rebacked
      (buddy.backing.insert block.heap ⟨memory, 1⟩)) := claims.sound.rebacked _
  have freed := deallocate_last machine given claims.present now rfl
  have back : ((buddy.claimed cell level rest).rebacked
      (buddy.backing.insert block.heap ⟨memory, 1⟩)).released cell =
      buddy.rebacked (buddy.backing.insert block.heap ⟨memory, 1⟩) := by
    rw [released_rebacked, claims.restored sound]
  have bared : (buddy.backing.insert block.heap ⟨memory, 1⟩).erase block.heap = buddy.backing := by
    rw [Table.erase_insert, Table.erase_of_get?_none bare]
  rw [back] at freed
  have ran := deallocate_of_buddy freed
  change Supply.deallocate block _ = ⟨.ok (), (.buddy (buddy.rebacked
    ((buddy.backing.insert block.heap ⟨memory, 1⟩).erase block.heap)), _), _⟩ at ran
  rw [bared] at ran
  exact ran

end Buddy

namespace Depot

variable {δ : Type} {depot : Depot δ} [Device δ]

-- A failed allocation is answered with the error of the device and changes nothing but the device.
-- A block that is given back at once leaves the free lists, what is recorded and the heaps in use as
-- they were before it was asked for.
theorem reached_restored {heap : BufferHeap} {layout : BuddyLayout} {buddy : Buddy} {device : δ}
    (accepted : Buddy.ofLayout? heap layout = .ok buddy)
    (reached : Reached (opened buddy device) depot) (size : Nat) :
    (∀ call error,
      .asked call (.failed error) ∈ (depot.allocated size).events →
        (depot.allocated size).result = .error (.error error) ∧
          ∃ device, (depot.allocated size).state =
            (.buddy depot.buddy, { depot.machine with device })) ∧
      ∀ block after events, depot.allocated size = ⟨.ok block, after, events⟩ →
        ∃ backing machine more,
          Supply.deallocate block after =
            ⟨.ok (), (.buddy (depot.buddy.rebacked backing), machine), more⟩ ∧
          (∀ heap, backing.get? heap = depot.buddy.backing.get? heap) ∧
          machine.live = depot.machine.live := by
  obtain ⟨shape, start⟩ := opened_sound device accepted
  obtain ⟨given, sound⟩ := reached_sound reached start
  have ended := Buddy.allocate_run depot.machine sound.buddy size
  unfold allocated
  generalize Supply.allocate size (.buddy depot.buddy, depot.machine) = run at ended
  cases ended with
  | refused error lacks =>
    refine ⟨fun call error asked => (List.not_mem_nil asked).elim, ?_⟩
    intro block after events ran
    cases ran
  | backed cell level rest backing claims found =>
    refine ⟨fun call error asked => (List.not_mem_nil asked).elim, ?_⟩
    intro block after events ran
    cases ran
    have used := sound.backed.used _ _ found
    obtain ⟨table, freed, same⟩ :=
      claims.deallocate_backed sound.buddy depot.machine found used
    exact ⟨table, depot.machine, [], freed, same, rfl⟩
  | failed cell level rest error device claims =>
    refine ⟨?_, ?_⟩
    · intro call reason asked
      cases List.mem_singleton.mp asked
      refine ⟨rfl, device, ?_⟩
      rw [claims.restored sound.buddy]
    · intro block after events ran
      cases ran
  | made cell level rest device outcome claims bare went =>
    refine ⟨?_, ?_⟩
    · intro call reason asked
      rcases List.mem_cons.mp asked with same | later
      · cases same
        exact absurd rfl (went reason)
      · cases List.mem_singleton.mp later
    · intro block after events ran
      cases ran
      have freed := claims.deallocate_bare sound.buddy
        { depot.machine with
          device, memoriesMade := depot.machine.memoriesMade + 1
          live := .memory depot.machine.memoriesMade :: depot.machine.live }
        ⟨depot.machine.memoriesMade⟩ bare
      exact ⟨depot.buddy.backing, _, _, freed, fun _ => rfl, List.erase_cons_head ..⟩

theorem reached_restored_twice :
    ∃ (buddy : Buddy) (device : Scripted) (depot : Depot Scripted),
      Buddy.ofLayout? .upload ⟨60, 7, 32⟩ = .ok buddy ∧ Reached (opened buddy device) depot ∧
      depot.held = [⟨0, 8, 0⟩] ∧ depot.buddy.free = [[8], [16], [32], []] ∧
      (depot.allocated 20).result = .error (.error .outOfDeviceMemory) ∧
      (∃ device, (depot.allocated 20).state =
        (.buddy depot.buddy, { depot.machine with device })) ∧
      ∃ backing machine more, Supply.deallocate ⟨8, 8, 0⟩ (depot.allocated 5).state =
        ⟨.ok (), (.buddy (depot.buddy.rebacked backing), machine), more⟩ := by
  have accepted : Buddy.ofLayout? .upload ⟨60, 7, 32⟩ =
      .ok ⟨.upload, 64, 8, 32, 2, 3, [[], [], [], [0]], [], 0, []⟩ := rfl
  have begun : Reached (opened ⟨.upload, 64, 8, 32, 2, 3, [[], [], [], [0]], [], 0, []⟩
      (Scripted.standard.extend .memory [.done, .failed .outOfDeviceMemory])) _ := .start
  have reached := ((begun.step (.request 5)).step (.make 0)).step (.conclude 0)
  obtain ⟨failed, -⟩ := reached_restored accepted reached 20
  obtain ⟨-, restored⟩ := reached_restored accepted reached 5
  obtain ⟨refused, unchanged⟩ := failed _ .outOfDeviceMemory List.mem_cons_self
  obtain ⟨backing, machine, more, freed, -⟩ := restored ⟨8, 8, 0⟩ _ _ rfl
  exact ⟨_, _, _, accepted, reached, rfl, rfl, refused, unchanged, backing, machine, more, freed⟩

end Depot

end Reclaim
