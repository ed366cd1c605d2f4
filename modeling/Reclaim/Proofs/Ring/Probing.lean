import Reclaim.Proofs.Ring.Refusals

namespace Reclaim

namespace Wave

variable {places fence completed : Nat} {waves opened : List Wave}

theorem opened?_covered {newest : Wave} (covers : fence ≤ newest.fence) (older : List Wave) :
    opened? places fence (older ++ [newest]) = some (older ++ [newest]) := by
  simp [opened?, covers]

theorem takeWhile_newest {newest : Wave} (lasts : completed < newest.fence) (older : List Wave) :
    (older ++ [newest]).takeWhile (·.fence ≤ completed) =
      older.takeWhile (·.fence ≤ completed) :=
  takeWhile_concat (by simpa using lasts) older

theorem dropWhile_newest {newest : Wave} (lasts : completed < newest.fence) (older : List Wave) :
    (older ++ [newest]).dropWhile (·.fence ≤ completed) =
      older.dropWhile (·.fence ≤ completed) ++ [newest] :=
  dropWhile_concat (by simpa using lasts) older

theorem newest_left {older : List Wave} {newest wave : Wave}
    (last : ((older ++ [newest]).dropWhile (·.fence ≤ completed)).getLast? = some wave) :
    wave = newest := by
  obtain ⟨taken, whole⟩ := List.dropWhile_suffix (fun wave : Wave => decide (wave.fence ≤ completed))
    (l := older ++ [newest])
  obtain ⟨front, shape⟩ := List.getLast?_eq_some_iff.mp last
  rw [shape, ← List.append_assoc] at whole
  exact List.singleton_inj.mp (List.append_inj_right' whole rfl)

theorem opened?_dropWhile (short : completed < fence)
    (opening : opened? places fence waves = some opened) :
    opened? places fence (waves.dropWhile (·.fence ≤ completed)) =
      some (opened.dropWhile (·.fence ≤ completed)) := by
  cases waves using List.reverseRecOn with
  | nil =>
    cases opening
    simp [opened?, short]
  | append_singleton older newest _ =>
    simp only [opened?, List.getLast?_concat] at opening
    split at opening
    · rename_i covered
      cases opening
      rw [dropWhile_newest (Nat.lt_of_lt_of_le short covered)]
      simp [opened?, covered]
    · rename_i later
      split at opening
      · rename_i room
        cases opening
        have own : completed < (⟨fence, 0⟩ : Wave).fence := short
        rw [dropWhile_newest own]
        have fewer := (List.dropWhile_sublist
          (fun wave : Wave => decide (wave.fence ≤ completed)) (l := older ++ [newest])).length_le
        cases last : ((older ++ [newest]).dropWhile (·.fence ≤ completed)).getLast? with
        | none => simp [opened?, List.getLast?_eq_none_iff.mp last]
        | some wave =>
          obtain rfl := newest_left last
          have fits := Nat.lt_of_le_of_lt fewer room
          simp [opened?, last, later, fits]
      · cases opening

theorem opened?_takeWhile (short : completed < fence)
    (opening : opened? places fence waves = some opened) :
    opened.takeWhile (·.fence ≤ completed) = waves.takeWhile (·.fence ≤ completed) := by
  rcases opened?_cases opening with rfl | rfl
  · rfl
  · exact takeWhile_newest short waves

end Wave

namespace Ring

def report (slots fence : Nat) : Action Ring (Except Error Nat × Nat × Nat) := do
  let answer ← (allocate slots fence).attempt
  let ring ← Action.get
  let flight ← ring.inFlight
  return (answer, flight, ring.outstanding)

variable {α β : Type} {low high : Nat} {one other : Ring}

-- The rings differ in the places of the ledger, in the waves behind the newest, and in how far they
-- have been reclaimed.
structure Ahead (low high : Nat) (one other : Ring) : Prop where
  size : other.size = one.size
  tail : other.tail = one.tail
  low : one.head = low
  high : other.head = high
  newest : ∃ wave, one.waveAt? one.newest = some wave ∧ other.waveAt? other.newest = some wave

-- The two runs come to the same, unless the first finds too few slots reclaimed.
inductive Abreast (low high : Nat) : Run Ring α → Run Ring α → Prop where
  | together {result : Except Stop α} {one other : Ring} {told heard : List Event}
      (ahead : Ahead low high one other) :
      Abreast low high ⟨result, one, told⟩ ⟨result, other, heard⟩
  | short {one : Ring} {told : List Event} {run : Run Ring α} (less : low < high) :
      Abreast low high ⟨.error (.error .ringExhausted), one, told⟩ run

def InStep (low high : Nat) (x : Action Ring α) : Prop :=
  ∀ one other, Ahead low high one other → Abreast low high (x one) (x other)

theorem Ahead.position (ahead : Ahead low high one other) : other.position = one.position := by
  rw [Ring.position, Ring.position, ahead.size, ahead.tail]

theorem Ahead.recorded (ahead : Ahead low high one other) (wave : Wave) (tail : Nat) :
    Ahead low high { one with ledger := one.ledger.set one.newest (some wave), tail }
      { other with ledger := other.ledger.set other.newest (some wave), tail } := by
  obtain ⟨size, -, low, high, newest, lies, lies'⟩ := ahead
  exact ⟨size, rfl, low, high, wave, getD_set_same lies, getD_set_same lies'⟩

theorem Ahead.inFlight (ahead : Ahead low low one other) : other.inFlight = one.inFlight := by
  rw [Ring.inFlight, Ring.inFlight, ahead.size, ahead.tail, ahead.low, ahead.high]

theorem Abreast.andThen {x y : Run Ring α} {f : α → Action Ring β} (first : Abreast low high x y)
    (next : ∀ a, InStep low high (f a)) : Abreast low high (x.andThen f) (y.andThen f) := by
  cases first with
  | short less => exact .short less
  | @together result one other told heard ahead =>
    cases result with
    | error reason => exact .together ahead
    | ok a =>
      rw [Run.andThen_ok, Run.andThen_ok]
      match f a one, f a other, next a one other ahead with
      | _, _, .together ahead => exact .together ahead
      | _, _, .short less => exact .short less

theorem inStep_bind {x : Action Ring α} {f : α → Action Ring β} (first : InStep low high x)
    (next : ∀ a, InStep low high (f a)) : InStep low high (x >>= f) :=
  fun one other ahead => (first one other ahead).andThen next

theorem inStep_look {f : Ring → Action Ring α}
    (next : ∀ one other, Ahead low high one other → Abreast low high (f one one) (f other other)) :
    InStep low high (Action.get >>= f) := by
  intro one other ahead
  rw [Action.run_bind, Action.run_bind, Action.run_get, Action.run_get, Run.andThen_ok,
    Run.andThen_ok]
  exact next one other ahead

theorem inStep_pure (a : α) : InStep low high (pure a : Action Ring α) :=
  fun _ _ ahead => .together ahead

theorem requireFree_inStep (le : low ≤ high) (slots : Nat) :
    InStep low high (requireFree slots) := by
  intro one other ahead
  have same := ahead.tail
  have heads := ahead.low
  have leads := ahead.high
  rcases Nat.lt_or_ge (one.tail + slots) Word.limit with reaches | far
  · have comes : other.tail + slots < Word.limit := same ▸ reaches
    rcases Nat.lt_or_ge one.head (one.tail + slots) with full | free
    · rw [requireFree_full full reaches]
      rcases Nat.lt_or_ge other.head (other.tail + slots) with filled | room
      · rw [requireFree_full filled comes]
        exact .together ahead
      · exact .short (by omega)
    · rw [requireFree_ok free reaches, requireFree_ok (by omega) comes]
      exact .together ahead
  · rw [requireFree_fault far, requireFree_fault (same ▸ far)]
    exact .together ahead

theorem consume_inStep (slots : Nat) : InStep low high (consume slots) := by
  intro one other ahead
  obtain ⟨wave, lies, lies'⟩ := ahead.newest
  simp only [consume, Action.run_bind, Action.run_get, Run.andThen_ok, lies, lies',
    Option.getD_some, ahead.tail]
  cases Word.add wave.slots slots with
  | error fault => exact .together ahead
  | ok charged =>
    cases Word.add one.tail slots with
    | error fault => exact .together ahead
    | ok tail => exact .together (ahead.recorded { wave with slots := charged } tail)

theorem skipEnd_inStep (le : low ≤ high) (slots : Nat) : InStep low high (skipEnd slots) := by
  refine inStep_look fun one other ahead => ?_
  rw [ahead.size, ahead.position]
  split
  · exact inStep_bind (requireFree_inStep le _) (fun _ => consume_inStep _) one other ahead
  · exact .together ahead

theorem takeRun_inStep (le : low ≤ high) (slots : Nat) : InStep low high (takeRun slots) := by
  refine inStep_bind (requireFree_inStep le slots) fun _ => inStep_look fun one other ahead => ?_
  rw [ahead.position]
  exact inStep_bind (consume_inStep slots) (fun _ => inStep_pure _) one other ahead

theorem Abreast.ok {a : α} {told : List Event} {run : Run Ring α}
    (abreast : Abreast low high ⟨.ok a, one, told⟩ run) :
    ∃ other heard, run = ⟨.ok a, other, heard⟩ ∧ Ahead low high one other := by
  cases abreast with
  | together ahead => exact ⟨_, _, rfl, ahead⟩

theorem Abreast.result {x y : Run Ring α} (abreast : Abreast low high x y) :
    x.result = y.result ∨ low < high ∧ x.result = .error (.error .ringExhausted) := by
  cases abreast with
  | together => exact .inl rfl
  | short less => exact .inr ⟨less, rfl⟩

variable {ring failed : Ring} {older waves opened : List Wave} {newest wave : Wave}
  {slots fence completed : Nat} {events : List Event}

theorem Ahead.reclaimed (ahead : Ahead low high one other) (holds : one.Holds (older ++ [wave]))
    (lasts : completed < wave.fence)
    (level : (one.reclaimed completed (older ++ [wave])).head = high) :
    Ahead high high (one.reclaimed completed (older ++ [wave])) other := by
  obtain ⟨size, tail, -, high, newest, lies, lies'⟩ := ahead
  refine ⟨size, tail, level, high, newest, ?_, lies'⟩
  rw [holds.newest_last] at lies
  cases lies
  have kept := reclaimed_holds holds completed
  rw [Wave.dropWhile_newest lasts] at kept
  exact kept.newest_last

theorem reclaimed_places (ring : Ring) (completed : Nat) (waves : List Wave) :
    (ring.reclaimed completed waves).places = ring.places := by
  simp [reclaimed, places]

theorem opened_reclaimed (holds : ring.Holds waves) (short : completed < fence)
    (opening : Wave.opened? ring.places fence waves = some (older ++ [newest])) :
    ∃ next later, openWave fence ring = ⟨.ok (), next, []⟩ ∧
      openWave fence (ring.reclaimed completed waves) = ⟨.ok (), later, []⟩ ∧
      Wave.opened? (ring.reclaimed completed waves).places fence
        (waves.dropWhile (·.fence ≤ completed)) =
          some (older.dropWhile (·.fence ≤ completed) ++ [newest]) ∧
      Ahead ring.head (ring.reclaimed completed waves).head next later := by
  have lasts : completed < newest.fence := Nat.lt_of_lt_of_le short (Wave.opened?_covers opening)
  have left := Wave.opened?_dropWhile short opening
  rw [Wave.dropWhile_newest lasts, ← reclaimed_places ring completed waves] at left
  obtain ⟨next, opens, held, took⟩ := holds.openWave_opened opening
  obtain ⟨later, opened, kept, stays⟩ := (reclaimed_holds holds completed).openWave_opened left
  exact ⟨next, later, opens, opened, left, stays.size.trans took.size.symm,
    stays.tail.trans took.tail.symm, took.head, stays.head, newest, held.newest_last,
    kept.newest_last⟩

theorem allocate_outstanding (holds : ring.Holds waves) (asked : 0 < slots)
    (fits : slots ≤ ring.size) (opening : Wave.opened? ring.places fence waves = some opened) :
    (allocate slots fence ring).state.outstanding = opened.length := by
  obtain ⟨result, after, left, notes, ran, held, came⟩ := allocate_exact holds slots fence
  rw [ran, outstanding_eq held]
  cases came with
  | unfit | nothing => omega
  | ledgerFull asked fits full =>
    rw [opening] at full
    cases full
  | tailFull asked fits opens | ringFull asked fits opens | granted asked fits opens
  | overflow opens =>
    rw [opening] at opens
    cases opens
    simp

theorem allocate_reopened (holds : failed.Holds (older ++ [wave])) (short : completed < fence)
    (covers : fence ≤ wave.fence) (asked : 0 < slots) (fits : slots ≤ failed.size) :
    let again := failed.reclaimed completed (older ++ [wave])
    allocate slots fence again = (skipEnd slots again).andThen (fun _ => takeRun slots) ∧
      (allocate slots fence again).state.outstanding =
        (older.dropWhile (·.fence ≤ completed) ++ [wave]).length := by
  intro again
  have kept : again.Holds (older.dropWhile (·.fence ≤ completed) ++ [wave]) := by
    rw [← Wave.dropWhile_newest (Nat.lt_of_lt_of_le short covers)]
    exact reclaimed_holds holds completed
  exact ⟨allocate_opened asked fits (openWave_covered kept.newest_last covers),
    allocate_outstanding kept asked fits (Wave.opened?_covered covers _)⟩

theorem allocate_again (holds : ring.Holds waves) (short : completed < fence)
    (refused : allocate slots fence ring = ⟨.error (.error .ringExhausted), failed, events⟩) :
    ∃ charged, failed.Holds charged ∧
      (failed.reclaimed completed charged).head = (ring.reclaimed completed waves).head ∧
      let again := allocate slots fence (failed.reclaimed completed charged)
      let after := allocate slots fence (ring.reclaimed completed waves)
      Abreast (ring.reclaimed completed waves).head (ring.reclaimed completed waves).head again
          after ∧ again.state.outstanding = after.state.outstanding := by
  obtain ⟨asked, fits, next, older, newest, opens, opening, held, took, covers, went⟩ :=
    allocate_full holds refused
  obtain ⟨next', later, opens', opened, left, ahead⟩ := opened_reclaimed holds short opening
  cases opens.symm.trans opens'
  have lasts : completed < newest.fence := Nat.lt_of_lt_of_le short covers
  have room : slots ≤ next.size := took.size.symm ▸ fits
  have some_size : 0 < next.size := Nat.lt_of_lt_of_le asked room
  have inside : slots ≤ (ring.reclaimed completed waves).size := fits
  have after := allocate_opened asked inside opened
  have counted := allocate_outstanding (reclaimed_holds holds completed) asked inside left
  have leads : ring.head ≤ (ring.reclaimed completed waves).head := Nat.le_add_right _ _
  have level (wave : Wave) (stays : completed < wave.fence) :
      next.head + Wave.total ((older ++ [wave]).takeWhile (·.fence ≤ completed)) =
        (ring.reclaimed completed waves).head := by
    rw [Wave.takeWhile_newest stays, ← Wave.takeWhile_newest lasts,
      Wave.opened?_takeWhile short opening, took.head]
    rfl
  rcases went with ⟨-, rfl⟩ | ⟨skips, free, rfl, -⟩
  -- Nothing has been skipped: from the open wave on both do the same.
  · obtain ⟨again, stays⟩ := allocate_reopened held short covers asked room
    refine ⟨_, held, level newest lasts, ?_, stays.trans counted.symm⟩
    rw [again, after]
    exact (skipEnd_inStep (Nat.le_refl _) slots _ _ (ahead.reclaimed held lasts
      (level newest lasts))).andThen fun _ => takeRun_inStep (Nat.le_refl _) slots
  · have kept := held.charged_holds free
    obtain ⟨again, stays⟩ := allocate_reopened kept short covers asked room
    refine ⟨_, kept, level _ lasts, ?_, ?_⟩
    -- The end skipped before the reclaim can be skipped after it, where more is free.
    · have goes := skipEnd_inStep leads slots next later ahead
      rw [skips] at goes
      obtain ⟨skipped, heard, skips', ahead⟩ := goes.ok
      have passed : skipEnd slots ((next.charged newest (next.gap slots)).reclaimed completed
          (older ++ [newest.charge (next.gap slots)])) = ⟨.ok (), _, []⟩ :=
        skipEnd_none some_size (gap_charged some_size room newest)
      rw [again, after, passed, skips']
      exact (Abreast.together (ahead.reclaimed kept lasts (level _ lasts))).andThen fun _ =>
        takeRun_inStep (Nat.le_refl _) slots
    · rw [stays, counted]
      simp

theorem Abreast.report {high : Nat}
    (level : Abreast high high (allocate slots fence one) (allocate slots fence other))
    (counted : (allocate slots fence one).state.outstanding =
      (allocate slots fence other).state.outstanding) :
    (report slots fence one).result = (report slots fence other).result := by
  simp only [Ring.report, Action.run_bind, Action.run_attempt]
  generalize allocate slots fence one = run at level counted ⊢
  generalize allocate slots fence other = run' at level counted ⊢
  cases level with
  | short less => exact absurd less (Nat.lt_irrefl _)
  | @together result one other told heard ahead =>
    dsimp only at counted
    match result with
    | .ok _ | .error (.error _) =>
      simp only [Run.caught_ok, Run.caught_error, Run.andThen_ok, Action.run_bind, Action.run_get,
        ahead.inFlight]
      cases one.inFlight <;> simp [counted]
    | .error (.fault _) => rfl

theorem deallocate_level {charged : List Wave} (held : failed.Holds charged)
    (holds : ring.Holds waves)
    (heads : (failed.reclaimed completed charged).head = (ring.reclaimed completed waves).head) :
    (deallocate completed failed = ⟨.error (.fault .overflow), failed, []⟩ ∧
        deallocate completed ring = ⟨.error (.fault .overflow), ring, []⟩) ∨
      ∃ told heard, deallocate completed failed =
          ⟨.ok (), failed.reclaimed completed charged, told⟩ ∧
        deallocate completed ring = ⟨.ok (), ring.reclaimed completed waves, heard⟩ := by
  have same : failed.head + Wave.total (charged.takeWhile (·.fence ≤ completed)) =
      ring.head + Wave.total (waves.takeWhile (·.fence ≤ completed)) := heads
  rcases deallocate_exact held completed with ⟨left, far⟩ | ⟨reach, told, goes⟩ <;>
    rcases deallocate_exact holds completed with ⟨gone, far'⟩ | ⟨reach', heard, went⟩
  · exact .inl ⟨left, gone⟩
  · omega
  · omega
  · exact .inr ⟨_, _, goes, went⟩

theorem report_again (holds : ring.Holds waves) (short : completed < fence)
    (refused : allocate slots fence ring = ⟨.error (.error .ringExhausted), failed, events⟩) :
    ((deallocate completed >>= fun _ => report slots fence) failed).result =
      ((deallocate completed >>= fun _ => report slots fence) ring).result := by
  obtain ⟨charged, held, heads, level, counted⟩ := allocate_again holds short refused
  rw [Action.run_bind, Action.run_bind]
  rcases deallocate_level held holds heads with ⟨left, gone⟩ | ⟨told, heard, goes, went⟩
  · rw [left, gone]
    rfl
  · rw [goes, went]
    exact level.report counted

theorem report_answers (holds : ring.Holds waves)
    (reach : ring.tail + 3 * ring.size < Word.limit) (slots fence : Nat) :
    ∃ told, (report slots fence ring).result = .ok told := by
  obtain ⟨result, after, left, notes, ran, held, came⟩ := allocate_exact holds slots fence
  have skipped := ring.gap_le slots
  have within : after.tail + after.size < Word.limit ∧
      ∀ fault, result ≠ .error (.fault fault) := by
    cases came with
    | unfit | nothing | ledgerFull => exact ⟨by omega, nofun⟩
    | tailFull _ _ _ took | ringFull _ _ _ took | granted _ _ _ took =>
      have tail := took.tail
      have size := took.size
      exact ⟨by omega, nofun⟩
    | overflow => omega
  obtain ⟨reaches, unbroken⟩ := within
  have tells := held.inFlight_total
  simp only [report, Action.run_bind, Action.run_attempt, ran]
  match result with
  | .ok _ | .error (.error _) => simp [tells reaches]
  | .error (.fault fault) => exact absurd rfl (unbroken fault)

theorem reclaimed_report_answers (holds : ring.Holds waves)
    (reach : ring.tail + 3 * ring.size < Word.limit) (completed slots fence : Nat) :
    ∃ told, ((deallocate completed >>= fun _ => report slots fence) ring).result = .ok told := by
  rcases deallocate_run holds completed with ⟨-, far⟩ | ⟨notes, ran⟩
  · omega
  · rw [Action.run_bind, ran]
    exact report_answers (reclaimed_holds holds completed) reach slots fence

theorem allocate_probed (holds : ring.Holds waves) (short : completed < fence) (slots : Nat) :
    (allocate slots fence ring).result =
        (allocate slots fence (ring.reclaimed completed waves)).result ∨
      ∃ error : Error, error.isExhausted = true ∧
        (allocate slots fence ring).result = .error (.error error) := by
  by_cases unfit : ring.size = 0 ∨ ring.size < slots
  · left
    simp [allocate, reclaimed, unfit]
  rcases Nat.eq_zero_or_pos slots with rfl | asked
  · left
    simp only [allocate, Action.run_bind, Action.run_get, Run.andThen_ok, reclaimed, if_neg unfit]
    rfl
  have fits : slots ≤ ring.size := by omega
  cases opening : Wave.opened? ring.places fence waves with
  | none =>
    right
    refine ⟨.ledgerExhausted, rfl, ?_⟩
    have some_slots : slots ≠ 0 := by omega
    simp [allocate, unfit, some_slots, holds.openWave_full opening]
  | some opened =>
    obtain ⟨older, newest, rfl, -⟩ := Wave.opened?_shape opening
    obtain ⟨next, later, opens, opened, -, ahead⟩ := opened_reclaimed holds short opening
    have inside : slots ≤ (ring.reclaimed completed waves).size := fits
    have leads : ring.head ≤ (ring.reclaimed completed waves).head := Nat.le_add_right _ _
    rw [allocate_opened asked fits opens, allocate_opened asked inside opened]
    have goes := (skipEnd_inStep leads slots next later ahead).andThen
      fun _ => takeRun_inStep leads slots
    exact goes.result.imp_right fun behind => ⟨.ringExhausted, rfl, behind.2⟩

theorem allocate_exhausted (holds : ring.Holds waves) {error : Error}
    (exhausted : error.isExhausted = true)
    (refused : allocate slots fence ring = ⟨.error (.error error), failed, events⟩) :
    error = .ledgerExhausted ∧ failed = ring ∨ error = .ringExhausted := by
  obtain ⟨result, after, left, notes, ran, -, came⟩ := allocate_exact holds slots fence
  rw [refused] at ran
  cases came with
  | unfit =>
    cases ran
    cases exhausted
  | ledgerFull =>
    cases ran
    exact .inl ⟨rfl, rfl⟩
  | tailFull | ringFull =>
    cases ran
    exact .inr rfl
  | nothing | granted | overflow => cases ran

theorem allocate_retried (holds : ring.Holds waves) (short : completed < fence) {error : Error}
    (exhausted : error.isExhausted = true) {told : List Event}
    (refused : allocate slots fence ring = ⟨.error (.error error), failed, events⟩)
    (went : deallocate completed ring = ⟨.ok (), ring.reclaimed completed waves, told⟩) :
    ∃ again heard, deallocate completed failed = ⟨.ok (), again, heard⟩ ∧
      (allocate slots fence again).result =
        (allocate slots fence (ring.reclaimed completed waves)).result := by
  rcases allocate_exhausted holds exhausted refused with ⟨rfl, rfl⟩ | rfl
  · exact ⟨_, _, went, rfl⟩
  · obtain ⟨charged, held, heads, level, -⟩ := allocate_again holds short refused
    rcases deallocate_level held holds heads with ⟨-, gone⟩ | ⟨heard, -, goes, -⟩
    · rw [went] at gone
      cases gone
    · have same := level.result.resolve_right fun behind => Nat.lt_irrefl _ behind.1
      exact ⟨_, _, goes, same⟩

theorem report_retried (holds : ring.Holds waves) (short : completed < fence) {error : Error}
    (exhausted : error.isExhausted = true)
    (refused : allocate slots fence ring = ⟨.error (.error error), failed, events⟩) :
    ((deallocate completed >>= fun _ => report slots fence) failed).result =
      ((deallocate completed >>= fun _ => report slots fence) ring).result := by
  rcases allocate_exhausted holds exhausted refused with ⟨-, rfl⟩ | rfl
  · rfl
  · exact report_again holds short refused

end Ring

end Reclaim
