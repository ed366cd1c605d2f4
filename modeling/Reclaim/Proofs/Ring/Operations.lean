import Reclaim.Proofs.Contract
import Reclaim.Proofs.Fronts
import Reclaim.Proofs.Ring.Waves
import Mathlib.Data.List.TakeWhile

namespace Reclaim.Ring

variable {ring after : Ring} {older waves : List Wave} {newest : Wave} {slots fence : Nat}

def gap (ring : Ring) (slots : Nat) : Nat :=
  if ring.size - ring.position < slots then ring.size - ring.position else 0

def charged (ring : Ring) (newest : Wave) (slots : Nat) : Ring :=
  { ring with
    ledger := ring.ledger.set ring.newest (some (newest.charge slots))
    tail := ring.tail + slots }

theorem charged_took (ring : Ring) (newest : Wave) (slots : Nat) :
    ring.Took slots (ring.charged newest slots) :=
  ⟨rfl, rfl, rfl, by simp [charged, places]⟩

theorem charged_zero (lies : ring.waveAt? ring.newest = some newest) :
    ring.charged newest 0 = ring := by
  have found : ring.ledger[ring.newest]? = some (some newest) := by
    simpa [waveAt?, List.getD_eq_getElem?_getD, Option.getD_eq_iff] using lies
  have same : ring.ledger.set ring.newest (some newest) = ring.ledger := by
    obtain ⟨inside, here⟩ := List.getElem?_eq_some_iff.mp found
    rw [← here]
    exact List.set_getElem_self inside
  simp only [charged, Wave.charge_zero, same, Nat.add_zero]

namespace Holds

theorem charged_holds (holds : ring.Holds (older ++ [newest]))
    (free : ring.tail + slots ≤ ring.head) :
    (ring.charged newest slots).Holds (older ++ [newest.charge slots]) := by
  have counted := holds.counted
  have inside := holds.inside
  simp only [Wave.total_append, Wave.total_cons, Wave.total_nil] at counted
  refine ⟨?_, ?_, ?_, ?_, ?_⟩
  · obtain ⟨vacant, shape, _⟩ := holds.places_eq
    refine ⟨vacant, ?_⟩
    have last : ring.ledger.length - 1 =
        (List.replicate vacant (none : Option Wave) ++ older.map some).length := by
      have length := ring.around_length
      rw [shape] at length
      simp [places] at length ⊢
      omega
    have turned : (ring.charged newest slots).around =
        ring.around.set (ring.ledger.length - 1) (some (newest.charge slots)) :=
      rotate_set inside _
    rw [turned, shape, last, List.map_append, ← List.append_assoc,
      List.set_append_right _ _ (Nat.le_refl _)]
    simp
  · rw [(charged_took ring newest slots).places]
    exact inside
  · have ordered := List.pairwise_append.mp holds.ordered
    refine List.pairwise_append.mpr ⟨ordered.1, List.pairwise_singleton _ _, ?_⟩
    intro wave old other single
    rw [List.mem_singleton.mp single]
    exact ordered.2.2 wave old newest List.mem_cons_self
  · simp only [Wave.total_append, Wave.total_cons, Wave.total_nil, Wave.charge, charged]
    omega
  · simp only [Wave.total_append, Wave.total_cons, Wave.total_nil, Wave.charge, charged]
    omega

theorem newest_last (holds : ring.Holds (older ++ [newest])) :
    ring.waveAt? ring.newest = some newest := by
  rw [holds.newest_eq]
  exact List.getLast?_concat

theorem charge_total (holds : ring.Holds (older ++ [newest]))
    (free : ring.tail + slots ≤ ring.head) : newest.slots + slots ≤ ring.size := by
  have counted := holds.counted
  simp only [Wave.total_append, Wave.total_cons, Wave.total_nil] at counted
  omega

theorem consume_run (holds : ring.Holds (older ++ [newest])) (free : ring.tail + slots ≤ ring.head) :
    consume slots ring = ⟨.ok (), ring.charged newest slots, []⟩ ∨
      (consume slots ring = ⟨.error (.fault .overflow), ring, []⟩ ∧
        Word.limit ≤ ring.tail + ring.size) := by
  have at_newest := holds.newest_last
  have charge := holds.charge_total free
  rcases Nat.lt_or_ge (newest.slots + slots) Word.limit with fits | far
  · rcases Nat.lt_or_ge (ring.tail + slots) Word.limit with reaches | far
    · left
      simp [consume, at_newest, Word.add_ok fits, Word.add_ok reaches, charged, Wave.charge]
    · refine .inr ⟨?_, by omega⟩
      simp [consume, at_newest, Word.add_ok fits, Word.add_overflow far]
  · refine .inr ⟨?_, by omega⟩
    simp [consume, at_newest, Word.add_overflow far]

end Holds

theorem requireFree_ok (free : ring.tail + slots ≤ ring.head)
    (reaches : ring.tail + slots < Word.limit) :
    requireFree slots ring = ⟨.ok (), ring, []⟩ := by
  simp [requireFree, Word.add_ok reaches, Nat.not_lt.mpr free]

theorem requireFree_full (full : ring.head < ring.tail + slots)
    (reaches : ring.tail + slots < Word.limit) :
    requireFree slots ring = ⟨.error (.error .ringExhausted), ring, []⟩ := by
  simp [requireFree, Word.add_ok reaches, full]

theorem requireFree_fault (far : Word.limit ≤ ring.tail + slots) :
    requireFree slots ring = ⟨.error (.fault .overflow), ring, []⟩ := by
  simp [requireFree, Word.add_overflow far]

inductive Allocated (slots fence : Nat) (ring : Ring) (waves : List Wave) :
    Except Stop Nat → Ring → List Wave → Prop where
  | unfit (unfit : ring.size = 0 ∨ ring.size < slots) :
      Allocated slots fence ring waves (.error (.error .invalidParameter)) ring waves
  | nothing (some_size : 0 < ring.size) (nothing : slots = 0) :
      Allocated slots fence ring waves (.ok ring.position) ring waves
  | ledgerFull (asked : 0 < slots) (fits : slots ≤ ring.size)
      (full : Wave.opened? ring.places fence waves = none) :
      Allocated slots fence ring waves (.error (.error .ledgerExhausted)) ring waves
  | tailFull {next opened} (asked : 0 < slots) (fits : slots ≤ ring.size)
      (opening : Wave.opened? ring.places fence waves = some opened) (took : ring.Took 0 next)
      (full : ring.head < ring.tail + ring.gap slots) :
      Allocated slots fence ring waves (.error (.error .ringExhausted)) next opened
  | ringFull {next older newest} (asked : 0 < slots) (fits : slots ≤ ring.size)
      (opening : Wave.opened? ring.places fence waves = some (older ++ [newest]))
      (took : ring.Took (ring.gap slots) next)
      (passed : ring.tail + ring.gap slots ≤ ring.head)
      (full : ring.head < ring.tail + ring.gap slots + slots) :
      Allocated slots fence ring waves (.error (.error .ringExhausted)) next
        (older ++ [newest.charge (ring.gap slots)])
  | granted {next older newest} (asked : 0 < slots) (fits : slots ≤ ring.size)
      (opening : Wave.opened? ring.places fence waves = some (older ++ [newest]))
      (took : ring.Took (ring.gap slots + slots) next)
      (free : ring.tail + ring.gap slots + slots ≤ ring.head) :
      Allocated slots fence ring waves (.ok ((ring.tail + ring.gap slots) % ring.size)) next
        (older ++ [newest.charge (ring.gap slots + slots)])
  | overflow {next older newest skipped}
      (opening : Wave.opened? ring.places fence waves = some (older ++ [newest]))
      (took : ring.Took skipped next) (far : Word.limit ≤ ring.tail + 2 * ring.size) :
      Allocated slots fence ring waves (.error (.fault .overflow)) next
        (older ++ [newest.charge skipped])

theorem position_lt (some_size : 0 < ring.size) : ring.position < ring.size :=
  Nat.mod_lt _ some_size

theorem gap_le (ring : Ring) (slots : Nat) : ring.gap slots ≤ ring.size := by
  unfold gap
  split <;> omega

namespace Holds

theorem skipEnd_run (holds : ring.Holds (older ++ [newest])) (slots : Nat) :
    (skipEnd slots ring = ⟨.error (.fault .overflow), ring, []⟩ ∧
        Word.limit ≤ ring.tail + ring.size) ∨
      (skipEnd slots ring = ⟨.error (.error .ringExhausted), ring, []⟩ ∧
        ring.head < ring.tail + ring.gap slots) ∨
      (skipEnd slots ring = ⟨.ok (), ring.charged newest (ring.gap slots), []⟩ ∧
        ring.tail + ring.gap slots ≤ ring.head) := by
  have le := ring.gap_le slots
  have within := holds.tail_le_head
  by_cases crosses : ring.size - ring.position < slots
  · have gap : ring.gap slots = ring.size - ring.position := if_pos crosses
    have turns : ring.gap slots < slots := gap ▸ crosses
    rcases Nat.lt_or_ge (ring.tail + ring.gap slots) Word.limit with reaches | far
    · rcases Nat.lt_or_ge ring.head (ring.tail + ring.gap slots) with full | free
      · refine .inr (.inl ⟨?_, full⟩)
        simp [skipEnd, turns, ← gap, requireFree_full full reaches]
      · have checked := requireFree_ok free reaches
        rcases holds.consume_run free with consumed | ⟨consumed, far⟩
        · refine .inr (.inr ⟨?_, free⟩)
          simp [skipEnd, turns, ← gap, checked, consumed]
        · refine .inl ⟨?_, far⟩
          simp [skipEnd, turns, ← gap, checked, consumed]
    · refine .inl ⟨?_, by omega⟩
      simp [skipEnd, turns, ← gap, requireFree_fault far]
  · have gap : ring.gap slots = 0 := if_neg crosses
    refine .inr (.inr ⟨?_, ?_⟩)
    · rw [gap, charged_zero holds.newest_last]
      simp [skipEnd, crosses]
    · rw [gap]
      exact within

theorem takeRun_run (holds : ring.Holds (older ++ [newest])) (slots : Nat) :
    (takeRun slots ring = ⟨.error (.fault .overflow), ring, []⟩ ∧
        Word.limit ≤ ring.tail + max slots ring.size) ∨
      (takeRun slots ring = ⟨.error (.error .ringExhausted), ring, []⟩ ∧
        ring.head < ring.tail + slots) ∨
      (takeRun slots ring = ⟨.ok ring.position, ring.charged newest slots, []⟩ ∧
        ring.tail + slots ≤ ring.head) := by
  rcases Nat.lt_or_ge (ring.tail + slots) Word.limit with reaches | far
  · rcases Nat.lt_or_ge ring.head (ring.tail + slots) with full | free
    · refine .inr (.inl ⟨?_, full⟩)
      simp [takeRun, requireFree_full full reaches]
    · have checked := requireFree_ok free reaches
      rcases holds.consume_run free with consumed | ⟨consumed, far⟩
      · refine .inr (.inr ⟨?_, free⟩)
        simp [takeRun, checked, consumed]
      · refine .inl ⟨?_, by omega⟩
        simp [takeRun, checked, consumed]
  · refine .inl ⟨?_, by omega⟩
    simp [takeRun, requireFree_fault far]

end Holds

theorem allocate_opened {next : Ring} (asked : 0 < slots) (fits : slots ≤ ring.size)
    (opens : openWave fence ring = ⟨.ok (), next, []⟩) :
    allocate slots fence ring = (skipEnd slots next).andThen fun _ => takeRun slots := by
  have valid : ¬(ring.size = 0 ∨ ring.size < slots) := by omega
  have some_slots : slots ≠ 0 := by omega
  simp [allocate, valid, some_slots, opens]

theorem opened_exact {next : Ring} (asked : 0 < slots) (fits : slots ≤ ring.size)
    (opening : Wave.opened? ring.places fence waves = some (older ++ [newest]))
    (held : next.Holds (older ++ [newest])) (took : ring.Took 0 next) :
    ∃ result after left,
      ((skipEnd slots next).andThen fun _ => takeRun slots) = ⟨result, after, []⟩ ∧
        after.Holds left ∧ Allocated slots fence ring waves result after left := by
  have gap : next.gap slots = ring.gap slots := by
    rw [Ring.gap, Ring.gap, position, position, took.size, took.tail, Nat.add_zero]
  have head := took.head
  have tail := took.tail
  have size := took.size
  have le := ring.gap_le slots
  rcases held.skipEnd_run slots with ⟨skips, far⟩ | ⟨skips, full⟩ | ⟨skips, passed⟩
  · rw [skips, Run.andThen_error]
    refine ⟨_, _, _, rfl, held, .overflow opening took ?_⟩
    omega
  · rw [skips, Run.andThen_error]
    refine ⟨_, _, _, rfl, held, .tailFull asked fits opening took ?_⟩
    omega
  have kept := held.charged_holds passed
  have both := took.trans (charged_took next newest (next.gap slots))
  rw [skips, Run.andThen_ok]
  generalize next.charged newest (next.gap slots) = middle at kept both ⊢
  rw [gap, Nat.zero_add] at both
  rw [gap] at kept passed
  have head := both.head
  have tail := both.tail
  have size := both.size
  rcases kept.takeRun_run slots with ⟨takes, far⟩ | ⟨takes, full⟩ | ⟨takes, free⟩
  · rw [takes]
    refine ⟨_, _, _, rfl, kept, .overflow opening both ?_⟩
    omega
  · rw [takes]
    refine ⟨_, _, _, rfl, kept, .ringFull asked fits opening both ?_ ?_⟩ <;> omega
  · have whole := both.trans (charged_took middle (newest.charge (ring.gap slots)) slots)
    have left := kept.charged_holds free
    rw [Wave.charge_charge] at left
    rw [takes, position, tail, size]
    refine ⟨_, _, _, rfl, left, .granted asked fits opening whole ?_⟩
    omega

theorem allocate_exact (holds : ring.Holds waves) (slots fence : Nat) :
    ∃ result after left, ∃ notes : List Note,
      allocate slots fence ring = ⟨result, after, notes.map .noted⟩ ∧ after.Holds left ∧
        Allocated slots fence ring waves result after left := by
  by_cases unfit : ring.size = 0 ∨ ring.size < slots
  · have ran : allocate slots fence ring = ⟨.error (.error .invalidParameter), ring, []⟩ := by
      simp [allocate, unfit]
    exact ⟨_, _, _, [], ran, holds, .unfit unfit⟩
  rcases Nat.eq_zero_or_pos slots with nothing | asked
  · have some_size : 0 < ring.size := by omega
    have ran : allocate slots fence ring = ⟨.ok ring.position, ring, []⟩ := by
      simp [allocate, nothing, Nat.ne_of_gt some_size]
    exact ⟨_, _, _, [], ran, holds, .nothing some_size nothing⟩
  have fits : slots ≤ ring.size := by omega
  cases opening : Wave.opened? ring.places fence waves with
  | none =>
    have some_slots : slots ≠ 0 := by omega
    have ran : allocate slots fence ring = ⟨.error (.error .ledgerExhausted), ring,
        [.noted (.ledgerFull ring.outstanding)]⟩ := by
      simp [allocate, unfit, some_slots, holds.openWave_full opening]
    exact ⟨_, _, _, [.ledgerFull ring.outstanding], ran, holds, .ledgerFull asked fits opening⟩
  | some opened =>
    obtain ⟨older, newest, rfl, -⟩ := Wave.opened?_shape opening
    obtain ⟨next, opens, held, took⟩ := holds.openWave_opened opening
    obtain ⟨result, after, left, ran, kept, came⟩ := opened_exact asked fits opening held took
    rw [← allocate_opened asked fits opens] at ran
    exact ⟨result, after, left, [], ran, kept, came⟩

theorem ordered_split (ordered : waves.Pairwise fun older newer => older.fence < newer.fence)
    (completed : Nat) : waves.takeWhile (·.fence ≤ completed) = waves.filter (·.fence ≤ completed) ∧
      waves.dropWhile (·.fence ≤ completed) = waves.filter (completed < ·.fence) := by
  have falls : waves.Pairwise fun older newer =>
      decide (newer.fence ≤ completed) = true → decide (older.fence ≤ completed) = true :=
    ordered.imp fun before reached => by
      have reached := of_decide_eq_true reached
      exact decide_eq_true (by omega)
  obtain ⟨taken, left⟩ := front_eq_filter falls
  refine ⟨taken, left.trans (List.filter_congr fun wave _ => ?_)⟩
  rw [← decide_not]
  exact decide_eq_decide.mpr Nat.not_le

def cleared (completed : Nat) (place : Option Wave) : Option Wave :=
  if reached completed place then none else place

theorem map_cleared (ordered : waves.Pairwise fun older newer => older.fence < newer.fence)
    (completed : Nat) : (waves.map some).map (cleared completed) =
      List.replicate (waves.takeWhile (·.fence ≤ completed)).length none ++
        (waves.dropWhile (·.fence ≤ completed)).map some := by
  have split := ordered_split ordered completed
  conv_lhs => rw [← List.takeWhile_append_dropWhile
    (p := fun wave : Wave => decide (wave.fence ≤ completed)) (l := waves)]
  rw [List.map_append, List.map_append]
  congr 1
  · rw [List.map_map, List.eq_replicate_iff]
    refine ⟨by simp, ?_⟩
    intro place present
    obtain ⟨wave, taken, rfl⟩ := List.mem_map.mp present
    have le := List.mem_takeWhile_imp taken
    simpa [cleared, reached] using le
  · rw [List.map_map]
    refine List.map_congr_left fun wave present => ?_
    rw [split.2] at present
    have lt := (List.mem_filter.mp present).2
    simpa [cleared, reached] using lt

theorem reclaimed_total (holds : ring.Holds waves) (completed : Nat) :
    Wave.total ((ring.ledger.filter (reached completed)).filterMap id) =
      Wave.total (waves.takeWhile (·.fence ≤ completed)) := by
  obtain ⟨vacant, shape⟩ := holds.layout
  have turned : ring.ledger.Perm (List.replicate vacant none ++ waves.map some) :=
    shape ▸ (List.rotate_perm ring.ledger (ring.newest + 1)).symm
  have same := (turned.filter (reached completed)).filterMap id
  have listed : ((waves.map some).filter (reached completed)).filterMap id =
      waves.filter (·.fence ≤ completed) := by
    rw [List.filter_map, List.filterMap_map]
    exact List.filterMap_some ..
  rw [Wave.total_perm same, (ordered_split holds.ordered completed).1, ← listed]
  simp [reached]

def reclaimed (ring : Ring) (completed : Nat) (waves : List Wave) : Ring :=
  { ring with
    head := ring.head + Wave.total (waves.takeWhile (·.fence ≤ completed))
    ledger := ring.ledger.map (cleared completed) }

theorem reclaimed_holds (holds : ring.Holds waves) (completed : Nat) :
    (ring.reclaimed completed waves).Holds (waves.dropWhile (·.fence ≤ completed)) := by
  have total : Wave.total (waves.takeWhile (·.fence ≤ completed)) +
      Wave.total (waves.dropWhile (·.fence ≤ completed)) = Wave.total waves := by
    rw [← Wave.total_append, List.takeWhile_append_dropWhile]
  have counted := holds.counted
  have bounded := holds.bounded
  refine ⟨?_, ?_, ?_, ?_, ?_⟩
  · obtain ⟨vacant, shape⟩ := holds.layout
    refine ⟨vacant + (waves.takeWhile (·.fence ≤ completed)).length, ?_⟩
    have turned : (ring.reclaimed completed waves).around = ring.around.map (cleared completed) :=
      (List.map_rotate ..).symm
    have vacated : (List.replicate vacant none).map (cleared completed) =
        List.replicate vacant none := by
      simp [cleared, reached]
    rw [turned, shape, List.map_append, map_cleared holds.ordered, vacated, ← List.append_assoc,
      List.replicate_append_replicate]
  · simpa [reclaimed, places] using holds.inside
  · exact holds.ordered.sublist (List.dropWhile_sublist _)
  · simp only [reclaimed]
    omega
  · simp only [reclaimed]
    omega

theorem deallocate_exact (holds : ring.Holds waves) (completed : Nat) :
    let back := Wave.total (waves.takeWhile (·.fence ≤ completed))
    (deallocate completed ring = ⟨.error (.fault .overflow), ring, []⟩ ∧
        Word.limit ≤ ring.head + back) ∨
      (ring.head + back < Word.limit ∧ ∃ notes : List Note, deallocate completed ring =
        ⟨.ok (), ring.reclaimed completed waves, notes.map .noted⟩) := by
  have sum := reclaimed_total holds completed
  have unfolded : deallocate completed = (do
      let ring ← Action.get
      let waves := (ring.ledger.filter (reached completed)).filterMap id
      let head ← Word.add ring.head (Wave.total waves)
      Action.modify fun ring => { ring with head, ledger := ring.ledger.map (cleared completed) }
      Action.each (fun wave => Action.note (.waveReclaimed wave.slots wave.fence)) waves) := rfl
  generalize went : (ring.ledger.filter (reached completed)).filterMap id = gone at sum
  rcases Nat.lt_or_ge
    (ring.head + Wave.total (waves.takeWhile (·.fence ≤ completed))) Word.limit with fits | far
  · refine .inr ⟨fits, gone.map fun wave => .waveReclaimed wave.slots wave.fence, ?_⟩
    simp only [unfolded, Action.run_bind, Action.run_get, Run.andThen_ok, went, sum,
      Word.add_ok fits, Action.run_lift_ok, Action.run_modify, Action.run_each_note,
      List.nil_append]
    rfl
  · refine .inl ⟨?_, far⟩
    simp only [unfolded, Action.run_bind, Action.run_get, Run.andThen_ok, went, sum,
      Word.add_overflow far, Action.run_lift_error, Run.andThen_error, List.nil_append]

theorem deallocate_run (holds : ring.Holds waves) (completed : Nat) :
    (deallocate completed ring = ⟨.error (.fault .overflow), ring, []⟩ ∧
        Word.limit ≤ ring.tail + ring.size) ∨
      ∃ notes : List Note, deallocate completed ring =
        ⟨.ok (), ring.reclaimed completed waves, notes.map .noted⟩ := by
  have counted := holds.counted
  have total : Wave.total (waves.takeWhile (·.fence ≤ completed)) ≤ Wave.total waves := by
    conv_rhs => rw [← List.takeWhile_append_dropWhile
      (p := fun wave : Wave => decide (wave.fence ≤ completed)) (l := waves)]
    rw [Wave.total_append]
    exact Nat.le_add_right _ _
  rcases deallocate_exact holds completed with ⟨ran, far⟩ | ⟨-, went⟩
  · exact .inl ⟨ran, by omega⟩
  · exact .inr went

section Retaining

variable {holds : Claims Ring}

theorem openWave_retains (full : ∀ waves, Action.Retains holds (Action.note (.ledgerFull waves)))
    (opens : ∀ past ring place, holds past ring → ring.waveAt? place = none →
      holds past (ring.openAt place fence)) : Action.Retains holds (openWave fence) := by
  refine Action.meets_bind Action.meets_get fun ring => ?_
  cases newest : ring.waveAt? ring.newest with
  | none =>
    refine Action.meets_before Action.meets_modify ?_
    rintro past _ ⟨held, rfl⟩
    exact opens past ring ring.newest held newest
  | some wave =>
    dsimp only
    split
    · exact Action.meets_pure fun _ _ seen => seen.1
    cases next : ring.waveAt? ((ring.newest + 1) % ring.places) with
    | some taken =>
      refine Action.meets_before ?_ fun _ _ seen => seen.1
      exact Action.retains_bind (full ring.outstanding) fun _ => Action.retains_refuse _
    | none =>
      refine Action.meets_before Action.meets_modify ?_
      rintro past _ ⟨held, rfl⟩
      exact opens past ring _ held next

theorem requireFree_retains (slots : Nat) : Action.Retains holds (requireFree slots) := by
  apply Action.retains_look
  intro ring
  apply Action.retains_bind (Action.meets_checked _)
  intro reach
  split
  · exact Action.retains_refuse _
  · exact Action.retains_pure _

theorem consume_retains (charges : ∀ past ring slots, holds past ring →
      holds past (ring.charged ((ring.waveAt? ring.newest).getD ⟨0, 0⟩) slots)) (slots : Nat) :
    Action.Retains holds (consume slots) := by
  refine Action.retains_of_runs fun past ring held => ?_
  let newest := (ring.waveAt? ring.newest).getD ⟨0, 0⟩
  have refused (ran : consume slots ring = ⟨.error (.fault .overflow), ring, []⟩) :
      holds (past ++ (consume slots ring).events) (consume slots ring).state := by
    rw [ran, List.append_nil]
    exact held
  rcases Nat.lt_or_ge (newest.slots + slots) Word.limit with fits | far
  · rcases Nat.lt_or_ge (ring.tail + slots) Word.limit with reaches | far
    · have ran : consume slots ring = ⟨.ok (), ring.charged newest slots, []⟩ := by
        simp [consume, Word.add_ok fits, Word.add_ok reaches, charged, Wave.charge, newest]
      rw [ran, List.append_nil]
      exact charges past ring slots held
    · exact refused (by simp [consume, Word.add_ok fits, Word.add_overflow far, newest])
  · exact refused (by simp [consume, Word.add_overflow far, newest])

theorem allocate_retains (full : ∀ waves, Action.Retains holds (Action.note (.ledgerFull waves)))
    (opens : ∀ past ring place, holds past ring → ring.waveAt? place = none →
      holds past (ring.openAt place fence))
    (charges : ∀ past ring slots, holds past ring →
      holds past (ring.charged ((ring.waveAt? ring.newest).getD ⟨0, 0⟩) slots)) (slots : Nat) :
    Action.Retains holds (allocate slots fence) := by
  have skips : Action.Retains holds (skipEnd slots) := by
    apply Action.retains_look
    intro ring
    dsimp only
    split
    · exact Action.retains_bind (requireFree_retains _) fun _ => consume_retains charges _
    · exact Action.retains_pure _
  have takes : Action.Retains holds (takeRun slots) := by
    apply Action.retains_bind (requireFree_retains slots)
    intro _
    apply Action.retains_look
    intro ring
    exact Action.retains_bind (consume_retains charges slots) fun _ => Action.retains_pure _
  apply Action.retains_look
  intro ring
  split
  · exact Action.retains_refuse _
  split
  · exact Action.retains_pure _
  apply Action.retains_bind (openWave_retains full opens)
  intro _
  exact Action.retains_bind skips fun _ => takes

end Retaining

end Reclaim.Ring
