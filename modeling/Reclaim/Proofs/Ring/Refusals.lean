import Reclaim.Proofs.Ring.WaveLine

namespace Reclaim.Ring

variable {ring next after : Ring} {waves : List Wave} {wave : Wave} {slots fence : Nat}
  {events : List Event}

-- The place of the wave that slots under `fence` are charged to, and the wave as it was: the newest
-- one where it lasts as long, or else one of its own in a vacant place.
inductive MapsTo (ring : Ring) (fence : Nat) : Nat → Wave → Prop where
  | newest {wave : Wave} (lies : ring.waveAt? ring.newest = some wave)
      (covers : fence ≤ wave.fence) : MapsTo ring fence ring.newest wave
  | own {place : Nat} (vacant : ring.waveAt? place = none)
      (older : ∀ wave, ring.waveAt? ring.newest = some wave → wave.fence < fence) :
      MapsTo ring fence place ⟨fence, 0⟩

-- The ring has changed by no more than `skipped` slots at the tail and the wave they are charged to.
structure Touches (ring : Ring) (place : Nat) (wave : Wave) (skipped : Nat) (after : Ring) :
    Prop where
  size : after.size = ring.size
  head : after.head = ring.head
  tail : after.tail = ring.tail + skipped
  places : after.places = ring.places
  newest : after.newest = place
  charged : after.waveAt? place = some (wave.charge skipped)
  others : ∀ other, other ≠ place → after.waveAt? other = ring.waveAt? other
  opens : after.outstanding ≤ ring.outstanding + 1

theorem waveAt?_openAt {place : Nat} (inside : place < ring.places) (fence : Nat) :
    (ring.openAt place fence).waveAt? place = some ⟨fence, 0⟩ := by
  have within : place < ring.ledger.length := inside
  simp [waveAt?, openAt, List.getD_eq_getElem?_getD, within]

theorem openWave_mapsTo (inside : ring.newest < ring.places)
    (opens : openWave fence ring = ⟨.ok (), next, events⟩) :
    ∃ wave, ring.MapsTo fence next.newest wave ∧ next.waveAt? next.newest = some wave ∧
      ∀ other, other ≠ next.newest → next.waveAt? other = ring.waveAt? other := by
  cases lies : ring.waveAt? ring.newest with
  | none =>
    have opened : openWave fence ring = ⟨.ok (), ring.openAt ring.newest fence, []⟩ := by
      simp [openWave, lies]
    rw [opened] at opens
    cases opens
    refine ⟨_, .own lies ?_, waveAt?_openAt inside fence, fun _ => getD_set_other _⟩
    simp [lies]
  | some newest =>
    by_cases covers : fence ≤ newest.fence
    · rw [openWave_covered lies covers] at opens
      cases opens
      exact ⟨newest, .newest lies covers, lies, fun _ _ => rfl⟩
    · cases taken : ring.waveAt? ((ring.newest + 1) % ring.places) with
      | some other => simp [openWave, lies, covers, taken] at opens
      | none =>
        have opened : openWave fence ring =
            ⟨.ok (), ring.openAt ((ring.newest + 1) % ring.places) fence, []⟩ := by
          simp [openWave, lies, covers, taken]
        rw [opened] at opens
        cases opens
        have within := Nat.mod_lt (ring.newest + 1) (Nat.lt_of_le_of_lt (Nat.zero_le _) inside)
        refine ⟨_, .own taken ?_, waveAt?_openAt within fence, fun _ => getD_set_other _⟩
        simpa [lies] using covers

theorem skipEnd_none (some_size : 0 < ring.size) (none_left : ring.gap slots = 0) :
    skipEnd slots ring = ⟨.ok (), ring, []⟩ := by
  have inside := position_lt some_size
  have stays : ¬ring.size - ring.position < slots := by
    intro crosses
    rw [gap, if_pos crosses] at none_left
    omega
  simp [skipEnd, stays]

theorem gap_charged (some_size : 0 < ring.size) (fits : slots ≤ ring.size) (newest : Wave) :
    (ring.charged newest (ring.gap slots)).gap slots = 0 := by
  have starts := start_inside some_size fits
  have size : (ring.charged newest (ring.gap slots)).size = ring.size := rfl
  have place : (ring.charged newest (ring.gap slots)).position =
      (ring.tail + ring.gap slots) % ring.size := rfl
  rw [gap, size, place, if_neg (by omega)]

theorem waveAt?_charged (lies : ring.waveAt? ring.newest = some wave) (slots : Nat) :
    (ring.charged wave slots).waveAt? ring.newest = some (wave.charge slots) :=
  getD_set_same lies

theorem allocate_full (holds : ring.Holds waves)
    (refused : allocate slots fence ring = ⟨.error (.error .ringExhausted), after, events⟩) :
    0 < slots ∧ slots ≤ ring.size ∧ ∃ next older newest,
      openWave fence ring = ⟨.ok (), next, []⟩ ∧
      Wave.opened? ring.places fence waves = some (older ++ [newest]) ∧
      next.Holds (older ++ [newest]) ∧ ring.Took 0 next ∧ fence ≤ newest.fence ∧
      (skipEnd slots next = ⟨.error (.error .ringExhausted), next, []⟩ ∧ after = next ∨
        skipEnd slots next = ⟨.ok (), after, []⟩ ∧ next.tail + next.gap slots ≤ next.head ∧
          after = next.charged newest (next.gap slots) ∧
          takeRun slots after = ⟨.error (.error .ringExhausted), after, []⟩) := by
  obtain ⟨result, left, lasting, notes, ran, -, came⟩ := allocate_exact holds slots fence
  rw [refused] at ran
  have opening : 0 < slots ∧ slots ≤ ring.size ∧ ∃ opened,
      Wave.opened? ring.places fence waves = some opened := by
    cases came with
    | tailFull asked fits opening | ringFull asked fits opening => exact ⟨asked, fits, _, opening⟩
    | unfit | nothing | ledgerFull | granted | overflow => cases ran
  obtain ⟨asked, fits, opened, opening⟩ := opening
  obtain ⟨older, newest, rfl, covered⟩ := Wave.opened?_shape opening
  obtain ⟨next, opens, held, took⟩ := holds.openWave_opened opening
  refine ⟨asked, fits, next, older, newest, opens, opening, held, took, covered, ?_⟩
  rw [allocate_opened asked fits opens] at refused
  rcases held.skipEnd_run slots with ⟨skips, -⟩ | ⟨skips, -⟩ | ⟨skips, free⟩
  · rw [skips] at refused
    cases refused
  · rw [skips] at refused
    cases refused
    exact .inl ⟨skips, rfl⟩
  · have kept := held.charged_holds free
    rw [skips, Run.andThen_ok] at refused
    rcases kept.takeRun_run slots with ⟨takes, -⟩ | ⟨takes, -⟩ | ⟨takes, -⟩
    · rw [takes] at refused
      cases refused
    · rw [takes] at refused
      cases refused
      exact .inr ⟨skips, free, rfl, takes⟩
    · rw [takes] at refused
      cases refused

theorem allocate_full_again (holds : ring.Holds waves)
    (refused : allocate slots fence ring = ⟨.error (.error .ringExhausted), after, events⟩) :
    allocate slots fence after = ⟨.error (.error .ringExhausted), after, []⟩ := by
  obtain ⟨asked, fits, next, older, newest, -, -, held, took, covered, went⟩ :=
    allocate_full holds refused
  have size := took.size
  have fits : slots ≤ next.size := by omega
  rcases went with ⟨skips, rfl⟩ | ⟨-, free, rfl, takes⟩
  · have opens := openWave_covered held.newest_last covered
    rw [allocate_opened asked fits opens, skips]
    rfl
  · have some_size : 0 < next.size := by omega
    have lies := waveAt?_charged held.newest_last (next.gap slots)
    have room : slots ≤ (next.charged newest (next.gap slots)).size := fits
    have skips := skipEnd_none (Nat.lt_of_lt_of_le asked room) (gap_charged some_size fits newest)
    have opens := openWave_covered lies (show fence ≤ (newest.charge _).fence from covered)
    rw [allocate_opened asked room opens, skips, Run.andThen_ok, takes]
    rfl

theorem allocate_full_touches (holds : ring.Holds waves)
    (refused : allocate slots fence ring = ⟨.error (.error .ringExhausted), after, events⟩) :
    ∃ place wave skipped, ring.MapsTo fence place wave ∧
      (skipped = 0 ∨ skipped = ring.size - ring.position) ∧
      ring.Touches place wave skipped after := by
  obtain ⟨asked, fits, next, older, newest, opens, opening, held, took, covered, went⟩ :=
    allocate_full holds refused
  obtain ⟨wave, maps, lies, others⟩ := openWave_mapsTo holds.inside opens
  rw [held.newest_last, Option.some.injEq] at lies
  subst lies
  have shape : ∃ skipped, (skipped = 0 ∨ skipped = ring.size - ring.position) ∧
      after = next.charged newest skipped ∧ after.Holds (older ++ [newest.charge skipped]) := by
    rcases went with ⟨-, rfl⟩ | ⟨-, free, rfl, -⟩
    · exact ⟨0, .inl rfl, (charged_zero held.newest_last).symm, held⟩
    · refine ⟨next.gap slots, ?_, rfl, held.charged_holds free⟩
      rw [gap, position, position, took.size, took.tail, Nat.add_zero]
      split
      · exact .inr rfl
      · exact .inl rfl
  obtain ⟨skipped, bound, rfl, kept⟩ := shape
  have whole := took.trans (charged_took next newest skipped)
  refine ⟨next.newest, newest, skipped, maps, bound, whole.size, whole.head, ?_, whole.places, rfl,
    ?_, ?_, ?_⟩
  · rw [whole.tail, Nat.zero_add]
  · exact waveAt?_charged held.newest_last skipped
  · intro other differ
    exact (getD_set_other _ differ).trans (others other differ)
  · rw [outstanding_eq kept, outstanding_eq holds]
    have counted : (older ++ [newest]).length ≤ waves.length + 1 := by
      rcases Wave.opened?_cases opening with same | same <;> simp [same]
    simpa using counted

theorem runs_repeat {step : RingStep} {answer : Except Error (Option Nat)} {again : List Event}
    (ran : step.run.attempt ring = ⟨.ok answer, after, events⟩)
    (stays : step.run.attempt after = ⟨.ok answer, after, again⟩) (count : Nat) :
    Runs ring (List.replicate (count + 1) ⟨step, answer⟩) after := by
  induction count with
  | zero => exact .turn .nil ran
  | succ count ih =>
    rw [List.replicate_succ']
    exact .turn ih stays

-- A request refused for its size or for want of a wave leaves the ring alone. One refused for want
-- of slots touches no more than the wave it would be charged to. Either way asking again, however
-- often, is refused the same way and changes nothing more.
theorem refusal_contained {size places : Nat} {start : Ring} {turns : List Turn} {error : Error}
    (made : ofLedger? size places = .ok start) (path : Runs start turns ring)
    (refused : allocate slots fence ring = ⟨.error (.error error), after, events⟩) :
    ((error = .invalidParameter ∨ error = .ledgerExhausted) ∧ after = ring ∨
      error = .ringExhausted ∧ ∃ place wave skipped, ring.MapsTo fence place wave ∧
        (skipped = 0 ∨ skipped = ring.size - ring.position) ∧
        ring.Touches place wave skipped after) ∧
    (∃ flight, flight ≤ after.size ∧ after.tail + after.size = after.head + flight ∧
      (after.tail + after.size < Word.limit → after.inFlight = .ok flight)) ∧
    ∀ count, Runs ring (List.replicate (count + 1) ⟨.allocate slots fence, .error error⟩) after := by
  obtain ⟨some_place, rfl⟩ := some_place_of_ofLedger? made
  obtain ⟨waves, keeps⟩ := runs_keep some_place path
  have holds := keeps.holds
  have attempted {one other : Ring} {told : List Event}
      (ran : allocate slots fence one = ⟨.error (.error error), other, told⟩) :
      (RingStep.allocate slots fence).run.attempt one = ⟨.ok (.error error), other, told⟩ := by
    simp [RingStep.run, ran]
  obtain ⟨result, left, lasting, notes, ran, held, came⟩ := allocate_exact holds slots fence
  have same : result = .error (.error error) ∧ left = after := by
    rw [refused] at ran
    cases ran
    exact ⟨rfl, rfl⟩
  obtain ⟨rfl, rfl⟩ := same
  refine ⟨?_, ⟨_, held.bounded, held.counted.symm, held.inFlight_total⟩, ?_⟩
  · cases came with
    | unfit => exact .inl ⟨.inl rfl, rfl⟩
    | ledgerFull => exact .inl ⟨.inr rfl, rfl⟩
    | tailFull | ringFull => exact .inr ⟨rfl, allocate_full_touches holds refused⟩
  · have again : ∃ told, allocate slots fence left = ⟨.error (.error error), left, told⟩ := by
      cases came with
      | unfit | ledgerFull => exact ⟨_, refused⟩
      | tailFull | ringFull => exact ⟨_, allocate_full_again holds refused⟩
    obtain ⟨told, stays⟩ := again
    exact runs_repeat (attempted refused) (attempted stays)

-- A wave is opened, the last three slots are skipped, and the five asked for do not fit behind them.
theorem refusal_contained_skipped :
    let ring : Ring := ⟨8, 8, 5, [some ⟨3, 5⟩, none], 0⟩
    let after : Ring := ⟨8, 8, 8, [some ⟨3, 5⟩, some ⟨4, 3⟩], 1⟩
    ofLedger? 8 2 = .ok (fresh 8 2) ∧ Runs (fresh 8 2) [⟨.allocate 5 3, .ok (some 0)⟩] ring ∧
      allocate 5 4 ring = ⟨.error (.error .ringExhausted), after, []⟩ ∧
      ∀ count, Runs ring (List.replicate (count + 1) ⟨.allocate 5 4, .error .ringExhausted⟩)
        after := by
  intro ring after
  have made : ofLedger? 8 2 = .ok (fresh 8 2) := rfl
  have path : Runs (fresh 8 2) [⟨.allocate 5 3, .ok (some 0)⟩] ring := .turn .nil rfl
  have refused : allocate 5 4 ring = ⟨.error (.error .ringExhausted), after, []⟩ := rfl
  exact ⟨made, path, refused, (refusal_contained made path refused).2.2⟩

end Reclaim.Ring
