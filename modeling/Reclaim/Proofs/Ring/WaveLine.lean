import Mathlib.Algebra.Group.Nat.Defs
import Mathlib.Data.List.ModifyLast
import Reclaim.Proofs.Ring.Grants

namespace Reclaim

-- `taken` counts the slots handed out or skipped since the last reset.
structure WaveLine where
  size : Nat
  places : Nat
  taken : Nat
  waves : List Wave
deriving DecidableEq

namespace WaveLine

def fresh (size places : Nat) : WaveLine := ⟨size, places, 0, []⟩

def inFlight (line : WaveLine) : Nat := Wave.total line.waves

def needsWave (line : WaveLine) (fence : Nat) : Bool := line.waves.getLast?.all (·.fence < fence)

def isFull (line : WaveLine) : Bool := line.waves.length == line.places

def opened (line : WaveLine) (fence : Nat) : WaveLine :=
  if line.needsWave fence then { line with waves := line.waves ++ [⟨fence, 0⟩] } else line

def charged (line : WaveLine) (slots : Nat) : WaveLine :=
  { line with taken := line.taken + slots, waves := line.waves.modifyLast (·.charge slots) }

def gap (line : WaveLine) (slots : Nat) : Nat :=
  let left := line.size - line.taken % line.size
  if left < slots then left else 0

def allocate (line : WaveLine) (slots fence : Nat) : Except Error Nat × WaveLine :=
  if line.size = 0 ∨ line.size < slots then (.error .invalidParameter, line)
  else if slots = 0 then (.ok (line.taken % line.size), line)
  else if line.needsWave fence && line.isFull then (.error .ledgerExhausted, line)
  else
    let opened := line.opened fence
    let skipped := line.gap slots
    if line.size < line.inFlight + skipped then (.error .ringExhausted, opened)
    else if line.size < line.inFlight + skipped + slots then
      (.error .ringExhausted, opened.charged skipped)
    else (.ok ((line.taken + skipped) % line.size), opened.charged (skipped + slots))

def reclaim (line : WaveLine) (completed : Nat) : WaveLine :=
  { line with waves := line.waves.filter (completed < ·.fence) }

def answer (line : WaveLine) : RingStep → Except Error (Option Nat) × WaveLine
  | .allocate slots fence =>
    let (answer, after) := line.allocate slots fence
    (answer.map some, after)
  | .deallocate completed => (.ok none, line.reclaim completed)
  | .reset size => (.ok none, fresh size line.places)

inductive Takes (start : WaveLine) : List Ring.Turn → WaveLine → Prop where
  | nil : Takes start [] start
  | turn {turns line} (path : Takes start turns line) (step : RingStep) :
      Takes start (turns ++ [⟨step, (line.answer step).1⟩]) (line.answer step).2

variable {line : WaveLine}

theorem opened_waves {fence : Nat} (some_place : 0 < line.places)
    (fits : line.waves.length ≤ line.places) :
    Wave.opened? line.places fence line.waves =
      if line.needsWave fence && line.isFull then none else some (line.opened fence).waves := by
  unfold Wave.opened? opened needsWave isFull
  cases last : line.waves.getLast? with
  | none =>
    have none_left := List.getLast?_eq_none_iff.mp last
    have vacant : line.places ≠ 0 := Nat.ne_of_gt some_place
    simp [none_left, vacant.symm]
  | some newest =>
    by_cases covered : fence ≤ newest.fence
    · simp [covered, Nat.not_lt.mpr covered]
    · have later : newest.fence < fence := Nat.not_le.mp covered
      by_cases full : line.waves.length = line.places
      · simp [covered, later, full]
      · have room : line.waves.length < line.places := by omega
        simp [covered, later, full, room]

theorem charged_waves {older : List Wave} {newest : Wave} {slots : Nat}
    (shape : line.waves = older ++ [newest]) :
    (line.charged slots).waves = older ++ [newest.charge slots] := by
  simp only [charged, shape]
  exact List.modifyLast_concat _ _ _

@[simp] theorem opened_size (fence : Nat) : (line.opened fence).size = line.size := by
  unfold opened
  split <;> rfl

@[simp] theorem opened_places (fence : Nat) : (line.opened fence).places = line.places := by
  unfold opened
  split <;> rfl

@[simp] theorem opened_taken (fence : Nat) : (line.opened fence).taken = line.taken := by
  unfold opened
  split <;> rfl

end WaveLine

namespace Ring

variable {ring after : Ring} {line : WaveLine} {slots fence completed : Nat} {events : List Event}

structure Shows (ring : Ring) (line : WaveLine) : Prop where
  size : ring.size = line.size
  places : ring.places = line.places
  taken : ring.tail = line.taken
  holds : ring.Holds line.waves

namespace Shows

theorem some_place (shows : ring.Shows line) : 0 < line.places := by
  rw [← shows.places]
  exact Nat.lt_of_le_of_lt (Nat.zero_le _) shows.holds.inside

theorem waves_le (shows : ring.Shows line) : line.waves.length ≤ line.places := by
  obtain ⟨vacant, -, counted⟩ := shows.holds.places_eq
  rw [← shows.places]
  omega

theorem gap_eq (shows : ring.Shows line) (slots : Nat) : ring.gap slots = line.gap slots := by
  simp only [Ring.gap, WaveLine.gap, position, shows.size, shows.taken]

theorem counted (shows : ring.Shows line) : ring.head + line.inFlight = line.taken + line.size := by
  rw [← shows.taken, ← shows.size]
  exact shows.holds.counted

theorem opening_eq (shows : ring.Shows line) (fence : Nat) :
    Wave.opened? ring.places fence line.waves =
      if line.needsWave fence && line.isFull then none else some (line.opened fence).waves := by
  rw [shows.places]
  exact WaveLine.opened_waves shows.some_place shows.waves_le

theorem opened_eq {opened : List Wave} (shows : ring.Shows line)
    (opening : Wave.opened? ring.places fence line.waves = some opened) :
    (line.needsWave fence && line.isFull) = false ∧ (line.opened fence).waves = opened := by
  rw [shows.opening_eq] at opening
  split at opening
  · cases opening
  · rename_i room
    exact ⟨Bool.eq_false_iff.mpr room, Option.some.inj opening⟩

theorem charged {older : List Wave} {newest : Wave} {skipped : Nat} (shows : ring.Shows line)
    (shape : (line.opened fence).waves = older ++ [newest]) (took : ring.Took skipped after)
    (held : after.Holds (older ++ [newest.charge skipped])) :
    after.Shows ((line.opened fence).charged skipped) where
  size := by
    rw [took.size, shows.size]
    exact (WaveLine.opened_size fence).symm
  places := by
    rw [took.places, shows.places]
    exact (WaveLine.opened_places fence).symm
  taken := by
    rw [took.tail, shows.taken]
    exact congrArg (· + skipped) (WaveLine.opened_taken fence).symm
  holds := by
    rw [WaveLine.charged_waves shape]
    exact held

theorem allocate_agrees (shows : ring.Shows line) (slots fence : Nat) :
    (∃ result after, ∃ notes : List Note,
      (allocate slots fence).attempt ring = ⟨.ok result, after, notes.map .noted⟩ ∧
      (line.allocate slots fence).1 = result ∧ after.Shows (line.allocate slots fence).2) ∨
    (∃ after events,
      (allocate slots fence).attempt ring = ⟨.error (.fault .overflow), after, events⟩ ∧
      Word.limit ≤ line.taken + 2 * line.size) := by
  obtain ⟨result, after, left, notes, ran, held, came⟩ := allocate_exact shows.holds slots fence
  have size := shows.size
  have taken := shows.taken
  have counted := shows.counted
  have gap := shows.gap_eq slots
  simp only [Action.run_attempt, ran]
  cases came with
  | unfit unfit =>
    refine .inl ⟨.error .invalidParameter, ring, notes, rfl, ?_⟩
    rw [size] at unfit
    simp only [WaveLine.allocate, if_pos unfit]
    exact ⟨trivial, shows⟩
  | nothing some_size nothing =>
    refine .inl ⟨.ok ring.position, ring, notes, rfl, ?_⟩
    have valid : ¬(line.size = 0 ∨ line.size < slots) := by omega
    simp only [WaveLine.allocate, if_neg valid, if_pos nothing, position, size, taken]
    exact ⟨trivial, shows⟩
  | ledgerFull asked fits full =>
    refine .inl ⟨.error .ledgerExhausted, ring, notes, rfl, ?_⟩
    have valid : ¬(line.size = 0 ∨ line.size < slots) := by omega
    have refused : (line.needsWave fence && line.isFull) = true := by
      by_contra room
      rw [shows.opening_eq, if_neg room] at full
      cases full
    simp only [WaveLine.allocate, if_neg valid, if_neg (Nat.ne_of_gt asked), if_pos refused]
    exact ⟨trivial, shows⟩
  | tailFull asked fits opening took full =>
    refine .inl ⟨.error .ringExhausted, _, notes, rfl, ?_⟩
    have valid : ¬(line.size = 0 ∨ line.size < slots) := by omega
    obtain ⟨room, waves⟩ := shows.opened_eq opening
    have short : line.size < line.inFlight + line.gap slots := by omega
    simp only [WaveLine.allocate, if_neg valid, if_neg (Nat.ne_of_gt asked), room,
      Bool.false_eq_true, if_false, if_pos short]
    refine ⟨trivial, ?_, ?_, ?_, waves ▸ held⟩
    · rw [took.size, WaveLine.opened_size]
      exact size
    · rw [took.places, WaveLine.opened_places]
      exact shows.places
    · rw [took.tail, WaveLine.opened_taken]
      exact taken
  | ringFull asked fits opening took passed full =>
    refine .inl ⟨.error .ringExhausted, _, notes, rfl, ?_⟩
    have valid : ¬(line.size = 0 ∨ line.size < slots) := by omega
    obtain ⟨room, waves⟩ := shows.opened_eq opening
    have skips : ¬line.size < line.inFlight + line.gap slots := by omega
    have short : line.size < line.inFlight + line.gap slots + slots := by omega
    simp only [WaveLine.allocate, if_neg valid, if_neg (Nat.ne_of_gt asked), room,
      Bool.false_eq_true, if_false, if_neg skips, if_pos short]
    rw [gap] at took held
    exact ⟨trivial, shows.charged waves took held⟩
  | granted asked fits opening took free =>
    refine .inl ⟨.ok ((ring.tail + ring.gap slots) % ring.size), _, notes, rfl, ?_⟩
    have valid : ¬(line.size = 0 ∨ line.size < slots) := by omega
    obtain ⟨room, waves⟩ := shows.opened_eq opening
    have skips : ¬line.size < line.inFlight + line.gap slots := by omega
    have long : ¬line.size < line.inFlight + line.gap slots + slots := by omega
    simp only [WaveLine.allocate, if_neg valid, if_neg (Nat.ne_of_gt asked), room,
      Bool.false_eq_true, if_false, if_neg skips, if_neg long, size, taken, gap]
    rw [gap] at took held
    exact ⟨trivial, shows.charged waves took held⟩
  | overflow opening took far =>
    refine .inr ⟨_, _, rfl, ?_⟩
    omega

theorem reclaim_eq (shows : ring.Shows line) (completed : Nat) :
    (line.reclaim completed).waves = line.waves.dropWhile (·.fence ≤ completed) ∧
      line.waves = line.waves.filter (·.fence ≤ completed) ++ (line.reclaim completed).waves := by
  obtain ⟨taken, left⟩ := ordered_split shows.holds.ordered completed
  refine ⟨left.symm, ?_⟩
  rw [WaveLine.reclaim, ← taken, ← left, List.takeWhile_append_dropWhile]

theorem deallocate_agrees (shows : ring.Shows line) (completed : Nat) :
    (∃ after, ∃ notes : List Note,
      deallocate completed ring = ⟨.ok (), after, notes.map .noted⟩ ∧
      after.Shows (line.reclaim completed)) ∨
    (deallocate completed ring = ⟨.error (.fault .overflow), ring, []⟩ ∧
      Word.limit ≤ line.taken + line.size) := by
  rcases deallocate_run shows.holds completed with ⟨ran, far⟩ | ⟨notes, ran⟩
  · rw [shows.taken, shows.size] at far
    exact .inr ⟨ran, far⟩
  · refine .inl ⟨_, notes, ran, shows.size, ?_, shows.taken, ?_⟩
    · rw [← show ring.places = (line.reclaim completed).places from shows.places]
      simp [Ring.places, reclaimed]
    · rw [(shows.reclaim_eq completed).1]
      exact reclaimed_holds shows.holds completed

theorem fresh (size : Nat) {places : Nat} (some_place : 0 < places) :
    (Ring.fresh size places).Shows (.fresh size places) where
  size := rfl
  places := by simp [Ring.places, Ring.fresh, WaveLine.fresh]
  taken := rfl
  holds := fresh_holds some_place

theorem step_agrees (shows : ring.Shows line) (step : RingStep) :
    (∃ after events, step.run.attempt ring = ⟨.ok (line.answer step).1, after, events⟩ ∧
      after.Shows (line.answer step).2) ∨
    (∃ after events, step.run.attempt ring = ⟨.error (.fault .overflow), after, events⟩ ∧
      Word.limit ≤ line.taken + 2 * line.size) := by
  cases step with
  | allocate slots fence =>
    rcases shows.allocate_agrees slots fence with
      ⟨result, after, notes, ran, same, left⟩ | ⟨after, events, ran, far⟩
    · refine .inl ⟨after, notes.map .noted, ?_, left⟩
      rw [RingStep.run, Action.attempt_map, Action.run_map, ran, ← same]
      simp [WaveLine.answer]
    · refine .inr ⟨after, events, ?_, far⟩
      rw [RingStep.run, Action.attempt_map, Action.run_map, ran, Run.andThen_error]
  | deallocate completed =>
    rcases shows.deallocate_agrees completed with ⟨after, notes, ran, left⟩ | ⟨ran, far⟩
    · refine .inl ⟨after, notes.map .noted, ?_, left⟩
      simp [RingStep.run, ran, WaveLine.answer]
    · refine .inr ⟨ring, [], ?_, by omega⟩
      simp [RingStep.run, ran]
  | reset size =>
    refine .inl ⟨ring.reset size, [], rfl, ?_⟩
    have left := Shows.fresh size shows.some_place
    rw [← shows.places] at left
    simpa [WaveLine.answer, reset, shows.places] using left

end Shows

section Places

variable {start : Ring} {wave : Wave} {place : Nat}

def Grown (start : Ring) : Claims Ring := fun _ ring =>
  ∀ place wave, start.waveAt? place = some wave →
    ∃ more, ring.waveAt? place = some (wave.charge more)

theorem getD_set_other {ledger : List (Option Wave)} {other : Nat} (content : Option Wave)
    (differ : other ≠ place) :
    (ledger.set place content).getD other none = ledger.getD other none := by
  rw [List.getD_eq_getElem?_getD, List.getD_eq_getElem?_getD, List.getElem?_set_ne differ.symm]

theorem getD_set_same {ledger : List (Option Wave)} {content : Option Wave}
    (found : ledger.getD place none = some wave) :
    (ledger.set place content).getD place none = content := by
  have inside : place < ledger.length := by
    by_contra outside
    rw [List.getD_eq_getElem?_getD, List.getElem?_eq_none (Nat.le_of_not_lt outside)] at found
    cases found
  rw [List.getD_eq_getElem?_getD, List.getElem?_set_self inside]
  rfl

variable {past : List Event}

theorem Grown.openAt (grown : Grown start past ring) (vacant : ring.waveAt? place = none)
    (fence : Nat) : Grown start past (ring.openAt place fence) := by
  intro other wave before
  obtain ⟨more, found⟩ := grown other wave before
  have differ : other ≠ place := by
    rintro rfl
    rw [vacant] at found
    cases found
  exact ⟨more, (getD_set_other _ differ).trans found⟩

theorem Grown.charged (grown : Grown start past ring) (slots : Nat) :
    Grown start past (ring.charged ((ring.waveAt? ring.newest).getD ⟨0, 0⟩) slots) := by
  intro place wave before
  obtain ⟨more, found⟩ := grown place wave before
  by_cases newest : place = ring.newest
  · subst newest
    refine ⟨more + slots, (getD_set_same found).trans ?_⟩
    rw [found, Option.getD_some, Wave.charge_charge]
  · exact ⟨more, (getD_set_other _ newest).trans found⟩

theorem allocate_grown (slots fence : Nat) :
    Action.Retains (Grown start) (allocate slots fence) :=
  allocate_retains (fun _ _ _ grown => grown)
    (fun _ _ _ grown vacant => grown.openAt vacant fence) (fun _ _ slots grown => grown.charged slots)
    slots

-- Outstanding waves stay at their places of the ledger: an allocation may add to them, and only a
-- reclaim that comes to its fence takes one away.
def Spares (ring : Ring) (step : RingStep) (after : Ring) : Prop :=
  ∀ place wave, ring.waveAt? place = some wave →
    match step with
    | .allocate .. => ∃ more, after.waveAt? place = some (wave.charge more)
    | .deallocate completed =>
      after.waveAt? place = if wave.fence ≤ completed then none else some wave
    | .reset _ => True

theorem waveAt?_reclaimed {waves : List Wave} (found : ring.waveAt? place = some wave) :
    (ring.reclaimed completed waves).waveAt? place =
      if wave.fence ≤ completed then none else some wave := by
  unfold waveAt? at found ⊢
  rw [List.getD_eq_getElem?_getD] at found ⊢
  cases inside : ring.ledger[place]? with
  | none => simp [inside] at found
  | some content =>
    rw [inside] at found
    cases found
    simp [reclaimed, inside, cleared, reached]

theorem step_spares {waves : List Wave} (holds : ring.Holds waves) (step : RingStep)
    {answer : Except Error (Option Nat)}
    (ran : step.run.attempt ring = ⟨.ok answer, after, events⟩) : ring.Spares step after := by
  intro place wave found
  cases step with
  | allocate slots fence =>
    have here : Grown ring [] ring := fun _ wave before => ⟨0, before⟩
    have grown := Action.meets_attempt (@allocate_grown ring slots fence) [] ring here
    rw [RingStep.run, Action.attempt_map, Action.run_map] at ran
    rcases did : (allocate slots fence).attempt ring with ⟨_ | result, left, told⟩
    · rw [did] at ran
      cases ran
    · rw [did] at grown ran
      cases ran
      cases result with
      | ok first => exact grown place wave found
      | error error => exact grown place wave found
  | deallocate completed =>
    rcases deallocate_run holds completed with ⟨did, -⟩ | ⟨notes, did⟩
    · simp [RingStep.run, did] at ran
    · simp only [RingStep.run, Action.run_attempt, Action.run_bind, did] at ran
      cases ran
      exact waveAt?_reclaimed found
  | reset size => trivial

end Places

theorem runs_agree {size places : Nat} {turns : List Turn} (some_place : 0 < places)
    (path : Runs (Ring.fresh size places) turns ring) :
    ∃ line, WaveLine.Takes (.fresh size places) turns line ∧ ring.Shows line := by
  induction path with
  | nil => exact ⟨_, .nil, .fresh size some_place⟩
  | turn path ran ih =>
    rename_i turns now step answer left events
    obtain ⟨line, takes, shows⟩ := ih
    rcases shows.step_agrees step with ⟨after, told, did, agreed⟩ | ⟨after, told, did, -⟩
    · rw [did] at ran
      cases ran
      exact ⟨_, takes.turn step, agreed⟩
    · rw [did] at ran
      cases ran

theorem outstanding_eq {waves : List Wave} (holds : ring.Holds waves) :
    ring.outstanding = waves.length := by
  obtain ⟨vacant, shape⟩ := holds.layout
  have turned : ring.ledger.Perm (List.replicate vacant none ++ waves.map some) :=
    shape ▸ (List.rotate_perm ring.ledger (ring.newest + 1)).symm
  rw [outstanding, turned.countP_eq, List.countP_append, List.countP_replicate, List.countP_map]
  simp [Function.comp_def]

theorem Holds.inFlight_total {waves : List Wave} (holds : ring.Holds waves)
    (reach : ring.tail + ring.size < Word.limit) : ring.inFlight = .ok (Wave.total waves) := by
  have counted := holds.counted
  have rest : ring.tail + ring.size - ring.head = Wave.total waves := by omega
  unfold Ring.inFlight
  rw [Word.add_ok reach]
  change Word.sub (ring.tail + ring.size) ring.head = _
  rw [Word.sub_ok (by omega), rest]

namespace Shows

theorem inFlight_eq (shows : ring.Shows line) (reach : line.taken + line.size < Word.limit) :
    ring.inFlight = .ok line.inFlight := by
  rw [← shows.taken, ← shows.size] at reach
  exact shows.holds.inFlight_total reach

theorem ledger_full (shows : ring.Shows line) (asked : 0 < slots) (fits : slots ≤ line.size) :
    (line.allocate slots fence).1 = .error .ledgerExhausted ↔
      (∀ wave ∈ line.waves, wave.fence < fence) ∧ line.waves.length = line.places := by
  have valid : ¬(line.size = 0 ∨ line.size < slots) := by omega
  have some_place := shows.some_place
  have refused : (line.allocate slots fence).1 = .error .ledgerExhausted ↔
      line.needsWave fence = true ∧ line.isFull = true := by
    rw [← Bool.and_eq_true]
    cases full : line.needsWave fence && line.isFull with
    | true => simp [WaveLine.allocate, if_neg valid, if_neg (Nat.ne_of_gt asked), full]
    | false =>
      simp only [WaveLine.allocate, if_neg valid, if_neg (Nat.ne_of_gt asked), full,
        Bool.false_eq_true, if_false]
      split
      · simp
      · split <;> simp
  rw [refused, WaveLine.isFull, beq_iff_eq, WaveLine.needsWave]
  refine and_congr_left fun full => ?_
  cases last : line.waves.getLast? with
  | none =>
    rw [List.getLast?_eq_none_iff.mp last] at full
    exact absurd full (Nat.ne_of_lt some_place)
  | some newest =>
    obtain ⟨older, shape⟩ := List.getLast?_eq_some_iff.mp last
    have held := shows.holds
    rw [shape] at held ⊢
    constructor
    · intro later
      exact held.below_newest (by simpa using later)
    · intro all
      simpa using all newest (by simp)

end Shows

-- The ring is told by its waves. Their fences increase, a request finds the ledger full where all
-- places are taken by waves too old for it, and a reclaim takes a first part of the waves. No
-- outstanding wave is ever written over, and the numbers last for 2 ^ 63 slots after each reset.
theorem waves_refined {size places : Nat} {start ring : Ring} {turns : List Turn}
    (made : ofLedger? size places = .ok start) (path : Runs start turns ring) :
    ∃ line, WaveLine.Takes (.fresh size places) turns line ∧
      line.size = ring.size ∧ line.taken = ring.tail ∧
      line.waves.Pairwise (fun older newer => older.fence < newer.fence) ∧
      ring.outstanding = line.waves.length ∧ line.inFlight ≤ line.size ∧
      (∀ slots fence, 0 < slots → slots ≤ line.size →
        ((line.allocate slots fence).1 = .error .ledgerExhausted ↔
          (∀ wave ∈ line.waves, wave.fence < fence) ∧ line.waves.length = line.places)) ∧
      (∀ completed, line.waves =
        line.waves.filter (·.fence ≤ completed) ++ (line.reclaim completed).waves) ∧
      (∀ (step : RingStep) answer after events,
        step.run.attempt ring = ⟨.ok answer, after, events⟩ →
          answer = (line.answer step).1 ∧ ring.Spares step after) ∧
      (line.size < 2 ^ 32 → line.taken < 2 ^ 63 → ring.inFlight = .ok line.inFlight ∧
        ∀ step : RingStep, ∃ after events,
          step.run.attempt ring = ⟨.ok (line.answer step).1, after, events⟩) := by
  obtain ⟨some_place, rfl⟩ := some_place_of_ofLedger? made
  obtain ⟨line, takes, shows⟩ := runs_agree some_place path
  have limit : Word.limit = 2 ^ 64 := by decide
  refine ⟨line, takes, shows.size.symm, shows.taken.symm, shows.holds.ordered,
    outstanding_eq shows.holds, ?_, ?_, fun completed => (shows.reclaim_eq completed).2, ?_, ?_⟩
  · rw [← shows.size]
    exact shows.holds.bounded
  · intro slots fence asked fits
    exact shows.ledger_full asked fits
  · intro step answer after events ran
    refine ⟨?_, step_spares shows.holds step ran⟩
    rcases shows.step_agrees step with ⟨_, _, did, -⟩ | ⟨_, _, did, -⟩
    · rw [ran] at did
      cases did
      rfl
    · rw [ran] at did
      cases did
  · intro narrow few
    refine ⟨shows.inFlight_eq (by omega), fun step => ?_⟩
    rcases shows.step_agrees step with ⟨after, events, did, -⟩ | ⟨_, _, -, far⟩
    · exact ⟨after, events, did⟩
    · omega

theorem waves_refined_full :
    let turns : List Turn := [⟨.allocate 5 3, .ok (some 0)⟩, ⟨.allocate 2 1, .ok (some 5)⟩,
      ⟨.allocate 1 4, .ok (some 7)⟩, ⟨.allocate 1 5, .error .ledgerExhausted⟩,
      ⟨.deallocate 3, .ok none⟩, ⟨.allocate 4 4, .ok (some 0)⟩]
    let ring : Ring := ⟨8, 15, 12, [none, some ⟨4, 5⟩], 1⟩
    ofLedger? 8 2 = .ok (fresh 8 2) ∧ Runs (fresh 8 2) turns ring ∧
      ∃ line, WaveLine.Takes (.fresh 8 2) turns line ∧ line.waves.length = 1 ∧
        ring.inFlight = .ok line.inFlight := by
  intro turns ring
  have made : ofLedger? 8 2 = .ok (fresh 8 2) := rfl
  have path : Runs (fresh 8 2) turns ring :=
    .turn (.turn (.turn (.turn (.turn (.turn .nil rfl) rfl) rfl) rfl) rfl) rfl
  obtain ⟨line, takes, size, taken, -, outstanding, -, -, -, -, lasts⟩ := waves_refined made path
  have narrow : line.size < 2 ^ 32 := by
    rw [size]
    decide
  have few : line.taken < 2 ^ 63 := by
    rw [taken]
    decide
  exact ⟨made, path, line, takes, outstanding.symm, (lasts narrow few).1⟩

end Ring

end Reclaim
