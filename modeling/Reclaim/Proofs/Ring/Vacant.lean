import Reclaim.Proofs.Ring.Refusals

namespace Reclaim.Ring

variable {ring next after : Ring} {older : List Wave} {newest : Wave} {slots fence : Nat}

namespace Holds

theorem consume_free (holds : ring.Holds (older ++ [newest])) (within : ring.size < Word.limit)
    (reaches : ring.head < Word.limit) (free : ring.tail + slots ≤ ring.head) :
    consume slots ring = ⟨.ok (), ring.charged newest slots, []⟩ := by
  have charge := holds.charge_total free
  have charges : newest.slots + slots < Word.limit := by omega
  have moves : ring.tail + slots < Word.limit := by omega
  simp [consume, holds.newest_last, Word.add_ok charges, Word.add_ok moves, Ring.charged,
    Wave.charge]

theorem skipEnd_free (holds : ring.Holds (older ++ [newest])) (within : ring.size < Word.limit)
    (reaches : ring.head < Word.limit) (free : ring.tail + ring.gap slots ≤ ring.head) :
    skipEnd slots ring = ⟨.ok (), ring.charged newest (ring.gap slots), []⟩ := by
  by_cases crosses : ring.size - ring.position < slots
  · have gap : ring.gap slots = ring.size - ring.position := if_pos crosses
    have checked := requireFree_ok free (by omega)
    have consumed := holds.consume_free within reaches free
    rw [gap] at checked consumed ⊢
    simp [skipEnd, crosses, checked, consumed]
  · have gap : ring.gap slots = 0 := if_neg crosses
    rw [gap, charged_zero holds.newest_last]
    simp [skipEnd, crosses]

theorem takeRun_free (holds : ring.Holds (older ++ [newest])) (within : ring.size < Word.limit)
    (reaches : ring.head < Word.limit) (free : ring.tail + slots ≤ ring.head) :
    takeRun slots ring = ⟨.ok ring.position, ring.charged newest slots, []⟩ := by
  have checked := requireFree_ok free (by omega)
  simp [takeRun, checked, holds.consume_free within reaches free]

end Holds

structure Vacant (ring : Ring) : Prop where
  holds : ring.Holds []
  within : ring.size < Word.limit
  reaches : ring.head < Word.limit

namespace Vacant

theorem head_eq (vacant : ring.Vacant) : ring.head = ring.tail + ring.size := vacant.holds.counted

theorem passes_end (vacant : ring.Vacant) (slots : Nat) :
    ring.tail + ring.gap slots ≤ ring.head := by
  have le := ring.gap_le slots
  have head := vacant.head_eq
  omega

theorem allocate_skipped (vacant : ring.Vacant) (asked : 0 < slots) (fits : slots ≤ ring.size)
    (fence : Nat) : ∃ next, ring.Took (ring.gap slots) next ∧
      next.Holds [⟨fence, ring.gap slots⟩] ∧ allocate slots fence ring = takeRun slots next := by
  have opening : Wave.opened? ring.places fence [] = some ([] ++ [⟨fence, 0⟩]) := rfl
  obtain ⟨opened, opens, held, took⟩ := vacant.holds.openWave_opened opening
  have gap : opened.gap slots = ring.gap slots := by
    rw [Ring.gap, Ring.gap, position, position, took.size, took.tail, Nat.add_zero]
  have passes : opened.tail + opened.gap slots ≤ opened.head := by
    rw [took.tail, took.head, gap]
    exact vacant.passes_end slots
  have within : opened.size < Word.limit := took.size ▸ vacant.within
  have reaches : opened.head < Word.limit := took.head ▸ vacant.reaches
  have skips := held.skipEnd_free within reaches passes
  have kept := held.charged_holds passes
  have both := took.trans (charged_took opened ⟨fence, 0⟩ (opened.gap slots))
  rw [gap] at skips kept both
  rw [Nat.zero_add] at both
  refine ⟨_, both, ?_, ?_⟩
  · simpa [Wave.charge] using kept
  · rw [allocate_opened asked fits opens, skips]
    rfl

theorem allocate_served (vacant : ring.Vacant) (asked : 0 < slots) (fits : slots ≤ ring.size)
    (room : ring.tail + ring.gap slots + slots ≤ ring.head) (fence : Nat) :
    (allocate slots fence ring).result = .ok ((ring.tail + ring.gap slots) % ring.size) := by
  obtain ⟨next, took, held, ran⟩ := vacant.allocate_skipped asked fits fence
  have free : next.tail + slots ≤ next.head := by
    rw [took.tail, took.head]
    exact room
  have within : next.size < Word.limit := took.size ▸ vacant.within
  have reaches : next.head < Word.limit := took.head ▸ vacant.reaches
  have alone : next.Holds ([] ++ [⟨fence, ring.gap slots⟩]) := held
  have takes := alone.takeRun_free within reaches free
  rw [ran, takes, position, took.tail, took.size]

theorem allocate_unserved (vacant : ring.Vacant) (asked : 0 < slots) (fits : slots ≤ ring.size)
    (full : ring.head < ring.tail + ring.gap slots + slots) (fence : Nat) :
    ∃ next, ring.Took (ring.gap slots) next ∧ next.Holds [⟨fence, ring.gap slots⟩] ∧
      (allocate slots fence ring = ⟨.error (.fault .overflow), next, []⟩ ∧
          Word.limit ≤ ring.tail + ring.gap slots + slots ∨
        allocate slots fence ring = ⟨.error (.error .ringExhausted), next, []⟩) := by
  obtain ⟨next, took, held, ran⟩ := vacant.allocate_skipped asked fits fence
  have tail := took.tail
  have head := took.head
  refine ⟨next, took, held, ?_⟩
  rcases Nat.lt_or_ge (next.tail + slots) Word.limit with reaches | far
  · have short : next.head < next.tail + slots := by omega
    have refused := requireFree_full short reaches
    exact .inr (by simp [ran, takeRun, refused])
  · have faults := requireFree_fault far
    exact .inl ⟨by simp [ran, takeRun, faults], by omega⟩

theorem room_iff (vacant : ring.Vacant) (asked : 0 < slots) (fits : slots ≤ ring.size) :
    ring.tail + ring.gap slots + slots ≤ ring.head ↔
      slots ≤ max ring.position (ring.size - ring.position) := by
  have head := vacant.head_eq
  have position := position_lt (Nat.lt_of_lt_of_le asked fits)
  unfold gap
  split <;> omega

theorem gap_of_full (vacant : ring.Vacant) (fits : slots ≤ ring.size)
    (full : ring.head < ring.tail + ring.gap slots + slots) :
    ring.gap slots = ring.size - ring.position := by
  have head := vacant.head_eq
  unfold gap at full ⊢
  split at full
  · rename_i crosses
    rw [if_pos crosses]
  · omega

end Vacant

theorem retried_served (skipped : Nat) (holds : ring.Holds [⟨fence, skipped⟩])
    (front : ring.position = 0) (within : ring.size < Word.limit) (asked : 0 < slots)
    (fits : slots ≤ ring.size) {completed : Nat} (covers : fence ≤ completed) (next : Nat) :
    let again := (deallocate completed >>= fun _ => allocate slots next) ring
    again.result = .ok 0 ∨
      again.result = .error (.fault .overflow) ∧ Word.limit ≤ ring.tail + ring.size := by
  intro again
  have counted : ring.head + (skipped + 0) = ring.tail + ring.size := holds.counted
  have gone : [(⟨fence, skipped⟩ : Wave)].takeWhile (·.fence ≤ completed) = [⟨fence, skipped⟩] := by
    simp [covers]
  have none_left : [(⟨fence, skipped⟩ : Wave)].dropWhile (·.fence ≤ completed) = [] := by
    simp [covers]
  have frees := deallocate_exact holds completed
  have left := reclaimed_holds holds completed
  rw [none_left] at left
  simp only [gone, Wave.total_cons, Wave.total_nil] at frees
  rcases frees with ⟨faults, far⟩ | ⟨reaches, notes, went⟩
  · refine .inr ⟨?_, by omega⟩
    simp [again, faults]
  · have head : (ring.reclaimed completed [⟨fence, skipped⟩]).head = ring.head + (skipped + 0) := by
      simp [reclaimed, gone]
    have vacant : (ring.reclaimed completed [⟨fence, skipped⟩]).Vacant :=
      ⟨left, within, by rw [head]; exact reaches⟩
    simp only [again, Action.run_bind, went, Run.andThen_ok]
    have same : (ring.reclaimed completed [⟨fence, skipped⟩]).size = ring.size := rfl
    have start : (ring.reclaimed completed [⟨fence, skipped⟩]).position = 0 := front
    generalize ring.reclaimed completed [⟨fence, skipped⟩] = freed at vacant same start
    have none_skipped : freed.gap slots = 0 := by
      rw [gap, if_neg (by omega)]
    have starts : (freed.tail + freed.gap slots) % freed.size = 0 := by
      rw [none_skipped]
      exact start
    have served := vacant.allocate_served asked (by omega) (by rw [vacant.head_eq]; omega) next
    rw [starts] at served
    exact .inl served

theorem Vacant.unserved_retried (vacant : ring.Vacant) (asked : 0 < slots)
    (fits : slots ≤ ring.size) (full : ring.head < ring.tail + ring.gap slots + slots)
    (fence : Nat) :
    let left := ring.size - ring.position
    let run := allocate slots fence ring
    ∃ stop, run.result = .error stop ∧
      (stop = .fault .overflow ∧ Word.limit ≤ ring.tail + left + slots ∨
        stop = .error .ringExhausted ∧ ∀ completed next, fence ≤ completed →
          let again := (deallocate completed >>= fun _ => allocate slots next) run.state
          again.result = .ok 0 ∨ again.result = .error (.fault .overflow) ∧
            Word.limit ≤ ring.tail + left + ring.size) := by
  intro left run
  obtain ⟨next, took, held, came⟩ := vacant.allocate_unserved asked fits full fence
  have crosses : ring.gap slots = left := vacant.gap_of_full fits full
  rw [crosses] at took held came
  rcases came with ⟨ran, far⟩ | ran
  · have stopped : run.result = .error (.fault .overflow) := congrArg Run.result ran
    exact ⟨_, stopped, .inl ⟨rfl, far⟩⟩
  · have stopped : run.result = .error (.error .ringExhausted) := congrArg Run.result ran
    have left_in : run.state = next := congrArg Run.state ran
    refine ⟨_, stopped, .inr ⟨rfl, fun completed fence' covers => ?_⟩⟩
    have front : next.position = 0 := by
      rw [position, took.tail, took.size]
      exact round_end (Nat.lt_of_lt_of_le asked fits)
    have served := retried_served left held front (took.size ▸ vacant.within) asked
      (took.size.symm ▸ fits) covers fence'
    rw [took.tail, took.size] at served
    rw [left_in]
    exact served

theorem Allocated.took {waves left : List Wave} {result : Except Stop Nat}
    (came : Allocated slots fence ring waves result after left) : ∃ taken, ring.Took taken after := by
  cases came with
  | unfit | nothing | ledgerFull => exact ⟨0, rfl, rfl, rfl, rfl⟩
  | tailFull _ _ _ took | ringFull _ _ _ took | granted _ _ _ took | overflow _ took =>
    exact ⟨_, took⟩

theorem runs_head {size places : Nat} {turns : List Turn} (some_place : 0 < places)
    (path : Runs (fresh size places) turns ring) :
    ring.head = ring.size ∨ ring.head < Word.limit := by
  induction path with
  | nil => exact .inl rfl
  | @turn _ _ step _ _ _ path ran ih =>
    obtain ⟨waves, keeps⟩ := runs_keep some_place path
    cases step with
    | allocate slots fence =>
      obtain ⟨result, left, _, notes, did, -, came⟩ := allocate_exact keeps.holds slots fence
      obtain ⟨taken, took⟩ := came.took
      simp only [RingStep.run, Action.run_attempt, Action.run_map, did] at ran
      rw [← took.head, ← took.size] at ih
      cases came <;> cases ran <;> exact ih
    | deallocate completed =>
      rcases deallocate_exact keeps.holds completed with ⟨did, -⟩ | ⟨reaches, notes, did⟩
      · simp [RingStep.run, did] at ran
      · simp only [RingStep.run, Action.run_attempt, Action.run_bind, did] at ran
        cases ran
        exact .inr reaches
    | reset size =>
      simp only [RingStep.run, Action.run_attempt, Action.run_bind, Action.run_modify] at ran
      cases ran
      exact .inl rfl

theorem vacant_of_runs {size places : Nat} {turns : List Turn} (some_place : 0 < places)
    (path : Runs (fresh size places) turns ring) (within : ring.size < Word.limit)
    (none_out : ring.outstanding = 0) : ring.Vacant := by
  obtain ⟨waves, keeps⟩ := runs_keep some_place path
  have holds := keeps.holds
  have none_left : waves = [] := by
    rw [outstanding_eq holds] at none_out
    exact List.eq_nil_of_length_eq_zero none_out
  refine ⟨none_left ▸ holds, within, ?_⟩
  rcases runs_head some_place path with made | counted
  · exact made ▸ within
  · exact counted

-- A ring with nothing outstanding serves what lies on one side of its tail or on the other, so half
-- its size always. What it refuses it serves once the end skipped for it has been reclaimed. Short
-- of that is only a counter that leaves its range.
theorem vacant_serves {size places : Nat} {start : Ring} {turns : List Turn}
    (made : ofLedger? size places = .ok start) (path : Runs start turns ring)
    (within : ring.size < Word.limit) (none_out : ring.outstanding = 0) (asked : 0 < slots)
    (fits : slots ≤ ring.size) (fence : Nat) :
    let left := ring.size - ring.position
    let run := allocate slots fence ring
    ((∃ first, run.result = .ok first) ↔ slots ≤ max ring.position left) ∧
    (slots ≤ ring.size / 2 → ∃ first, run.result = .ok first) ∧
    ∀ stop, run.result = .error stop →
      stop = .fault .overflow ∧ Word.limit ≤ ring.tail + left + slots ∨
      stop = .error .ringExhausted ∧ ∀ completed next, fence ≤ completed →
        let again := (deallocate completed >>= fun _ => allocate slots next) run.state
        again.result = .ok 0 ∨
          again.result = .error (.fault .overflow) ∧ Word.limit ≤ ring.tail + left + ring.size := by
  intro left run
  obtain ⟨some_place, rfl⟩ := some_place_of_ofLedger? made
  have vacant := vacant_of_runs some_place path within none_out
  have room := vacant.room_iff asked fits
  by_cases free : ring.tail + ring.gap slots + slots ≤ ring.head
  · have served := vacant.allocate_served asked fits free fence
    have serves : ∃ first, run.result = .ok first := ⟨_, served⟩
    refine ⟨iff_of_true serves (room.mp free), fun _ => serves, fun stop stopped => ?_⟩
    rw [served] at stopped
    cases stopped
  · obtain ⟨stop, stopped, retried⟩ :=
      vacant.unserved_retried asked fits (Nat.not_le.mp free) fence
    have short := mt room.mpr free
    have unserved : ¬∃ first, run.result = .ok first := by
      rintro ⟨first, served⟩
      rw [stopped] at served
      cases served
    refine ⟨iff_of_false unserved short, fun half => absurd half (by omega), fun other came => ?_⟩
    rw [stopped] at came
    cases came
    exact retried

theorem vacant_serves_second :
    let ring : Ring := ⟨8, 13, 5, [none, none], 0⟩
    let turns : List Turn := [⟨.allocate 5 3, .ok (some 0)⟩, ⟨.deallocate 3, .ok none⟩]
    Runs (fresh 8 2) turns ring ∧
      (allocate 6 4 ring).result = .error (.error .ringExhausted) ∧
      ((deallocate 4 >>= fun _ => allocate 6 4) (allocate 6 4 ring).state).result = .ok 0 := by
  intro ring turns
  have made : ofLedger? 8 2 = .ok (fresh 8 2) := rfl
  have path : Runs (fresh 8 2) turns ring := .turn (.turn .nil rfl) rfl
  have refused : (allocate 6 4 ring).result = .error (.error .ringExhausted) := rfl
  have serves := (vacant_serves made path (by decide) rfl (by decide : 0 < 6) (by decide) 4).2.2
    _ refused
  refine ⟨path, refused, ?_⟩
  rcases serves with ⟨faulted, -⟩ | ⟨-, retried⟩
  · cases faulted
  · rcases retried 4 4 (Nat.le_refl _) with served | ⟨-, far⟩
    · exact served
    · exact absurd far (by decide)

end Reclaim.Ring
