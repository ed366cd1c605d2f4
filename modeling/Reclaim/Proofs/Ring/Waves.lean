import Reclaim.Ring
import Mathlib.Data.List.Rotate

namespace Reclaim

namespace Wave

def lasting (fence : Nat) (waves : List Wave) : Nat := total (waves.filter (fence ≤ ·.fence))

def charge (slots : Nat) (wave : Wave) : Wave := { wave with slots := wave.slots + slots }

def opened? (places fence : Nat) (waves : List Wave) : Option (List Wave) :=
  match waves.getLast? with
  | none => some [⟨fence, 0⟩]
  | some newest =>
    if fence ≤ newest.fence then some waves
    else if waves.length < places then some (waves ++ [⟨fence, 0⟩])
    else none

@[simp] theorem charge_zero (wave : Wave) : wave.charge 0 = wave := rfl

theorem charge_charge (one two : Nat) (wave : Wave) :
    (wave.charge one).charge two = wave.charge (one + two) := by
  simp [charge, Nat.add_assoc]

@[simp] theorem total_nil : total [] = 0 := rfl

@[simp] theorem total_cons (wave : Wave) (waves : List Wave) :
    total (wave :: waves) = wave.slots + total waves := rfl

@[simp] theorem total_append (older newer : List Wave) :
    total (older ++ newer) = total older + total newer := by
  induction older with
  | nil => simp
  | cons wave rest ih => rw [List.cons_append, total_cons, total_cons, ih, Nat.add_assoc]

theorem total_perm {one other : List Wave} (same : one.Perm other) : total one = total other := by
  induction same with
  | nil => rfl
  | cons wave _ ih => rw [total_cons, total_cons, ih]
  | swap first second rest =>
    simp only [total_cons]
    omega
  | trans _ _ first second => exact first.trans second

@[simp] theorem lasting_append (fence : Nat) (older newer : List Wave) :
    lasting fence (older ++ newer) = lasting fence older + lasting fence newer := by
  simp [lasting]

theorem lasting_single_of_le {fence : Nat} {wave : Wave} (le : fence ≤ wave.fence) :
    lasting fence [wave] = wave.slots := by
  simp [lasting, le]

theorem lasting_single_of_lt {fence : Nat} {wave : Wave} (lt : wave.fence < fence) :
    lasting fence [wave] = 0 := by
  simp [lasting, Nat.not_le.mpr lt]

theorem lasting_le_total (fence : Nat) (waves : List Wave) : lasting fence waves ≤ total waves := by
  induction waves with
  | nil => exact Nat.le_refl _
  | cons wave rest ih =>
    rw [← List.singleton_append, lasting_append, total_append]
    refine Nat.add_le_add ?_ ih
    rcases Nat.lt_or_ge wave.fence fence with lt | le
    · rw [lasting_single_of_lt lt]
      exact Nat.zero_le _
    · rw [lasting_single_of_le le, total_cons, total_nil, Nat.add_zero]

theorem lasting_dropWhile {fence completed : Nat} (short : completed < fence) (waves : List Wave) :
    lasting fence (waves.dropWhile (·.fence ≤ completed)) = lasting fence waves := by
  induction waves with
  | nil => rfl
  | cons wave rest ih =>
    by_cases gone : wave.fence ≤ completed
    · rw [List.dropWhile_cons_of_pos (by simpa using gone), ih, ← List.singleton_append (l := rest),
        lasting_append, lasting_single_of_lt (by omega), Nat.zero_add]
    · rw [List.dropWhile_cons_of_neg (by simpa using gone)]

theorem opened?_shape {places fence : Nat} {waves after : List Wave}
    (opened : opened? places fence waves = some after) :
    ∃ older newest, after = older ++ [newest] ∧ fence ≤ newest.fence := by
  unfold opened? at opened
  split at opened
  · cases opened
    exact ⟨[], _, rfl, Nat.le_refl _⟩
  · rename_i newest last
    obtain ⟨older, rfl⟩ := List.getLast?_eq_some_iff.mp last
    split at opened
    · rename_i le
      cases opened
      exact ⟨older, newest, rfl, le⟩
    · split at opened
      · cases opened
        exact ⟨_, _, rfl, Nat.le_refl _⟩
      · cases opened

theorem opened?_covers {places fence : Nat} {waves older : List Wave} {newest : Wave}
    (opening : opened? places fence waves = some (older ++ [newest])) : fence ≤ newest.fence := by
  obtain ⟨_, last, same, covers⟩ := opened?_shape opening
  have last_same : [newest] = [last] := List.append_inj_right' same rfl
  cases last_same
  exact covers

theorem opened?_cases {places fence : Nat} {waves after : List Wave}
    (opened : opened? places fence waves = some after) :
    after = waves ∨ after = waves ++ [⟨fence, 0⟩] := by
  unfold opened? at opened
  split at opened
  · rename_i none_left
    rw [List.getLast?_eq_none_iff.mp none_left]
    cases opened
    exact .inr rfl
  · split at opened
    · cases opened
      exact .inl rfl
    · split at opened
      · cases opened
        exact .inr rfl
      · cases opened

theorem opened?_lasting {places fence : Nat} {waves after : List Wave}
    (opened : opened? places fence waves = some after) (other : Nat) :
    lasting other after = lasting other waves := by
  have empty : lasting other [⟨fence, 0⟩] = 0 :=
    Nat.le_zero.mp (lasting_le_total other [⟨fence, 0⟩])
  rcases opened?_cases opened with rfl | rfl
  · rfl
  · rw [lasting_append, empty, Nat.add_zero]

theorem lasting_charge {fence slots : Nat} {older : List Wave} {newest : Wave}
    (le : fence ≤ newest.fence) :
    lasting fence (older ++ [newest.charge slots]) = lasting fence (older ++ [newest]) + slots := by
  have same : fence ≤ (newest.charge slots).fence := le
  rw [lasting_append, lasting_append, lasting_single_of_le le, lasting_single_of_le same]
  exact (Nat.add_assoc _ _ _).symm

end Wave

namespace Ring

-- The ledger from the place after the newest wave's on, all the way around.
def around (ring : Ring) : List (Option Wave) := ring.ledger.rotate (ring.newest + 1)

-- Read around from the place after the newest the ledger is vacant first, and then has the
-- outstanding waves with their fences increasing. So a reclaim, which goes by fences, gives the
-- slots back in the order they were taken.
structure Holds (ring : Ring) (waves : List Wave) : Prop where
  layout : ∃ vacant, ring.around = List.replicate vacant none ++ waves.map some
  inside : ring.newest < ring.places
  ordered : waves.Pairwise fun older newer => older.fence < newer.fence
  counted : ring.head + Wave.total waves = ring.tail + ring.size
  bounded : Wave.total waves ≤ ring.size

theorem around_length (ring : Ring) : ring.around.length = ring.places := List.length_rotate ..

theorem rotate_set {α : Type} {items : List α} {index : Nat} (inside : index < items.length)
    (item : α) : (items.set index item).rotate (index + 1) =
      (items.rotate (index + 1)).set (items.length - 1) item := by
  refine List.ext_getElem (by simp) fun k left right => ?_
  simp only [List.length_rotate, List.length_set] at left
  simp only [List.getElem_rotate, List.getElem_set, List.length_set]
  have turn : index = (k + (index + 1)) % items.length ↔ items.length - 1 = k := by
    rcases Nat.lt_or_ge (k + (index + 1)) items.length with short | long
    · rw [Nat.mod_eq_of_lt short]
      omega
    · rw [Nat.mod_eq_sub_mod long, Nat.mod_eq_of_lt (by omega)]
      omega
  simp only [turn]

theorem waveAt?_newest {ring : Ring} (inside : ring.newest < ring.places) :
    ring.waveAt? ring.newest = (ring.around.getLast?).join := by
  have within : ring.newest < ring.ledger.length := inside
  have last : ring.around.length - 1 < ring.around.length := by
    rw [around_length]
    omega
  have at_newest : (ring.ledger.length - 1 + (ring.newest + 1)) % ring.ledger.length =
      ring.newest := by
    rw [show ring.ledger.length - 1 + (ring.newest + 1) = ring.ledger.length + ring.newest by omega,
      Nat.add_mod_left, Nat.mod_eq_of_lt within]
  have read : ring.around[ring.around.length - 1] = ring.ledger[ring.newest] := by
    simp only [around, List.getElem_rotate, List.length_rotate, at_newest]
  rw [List.getLast?_eq_getElem?, List.getElem?_eq_getElem last, read]
  simp [waveAt?, List.getElem?_eq_getElem within]

theorem waveAt?_next {ring : Ring} (inside : ring.newest < ring.places) :
    ring.waveAt? ((ring.newest + 1) % ring.places) = (ring.around.head?).join := by
  have nonempty : 0 < ring.ledger.length := Nat.lt_of_le_of_lt (Nat.zero_le _) inside
  have next : (ring.newest + 1) % ring.ledger.length < ring.ledger.length := Nat.mod_lt _ nonempty
  have first : 0 < ring.around.length := by
    rw [around_length]
    exact nonempty
  have read : ring.around[0] = ring.ledger[(ring.newest + 1) % ring.ledger.length] := by
    simp only [around, List.getElem_rotate, Nat.zero_add]
  rw [List.head?_eq_getElem?, List.getElem?_eq_getElem first, read]
  simp [waveAt?, places, List.getElem?_eq_getElem next]

theorem around_openAt_next {ring : Ring} (inside : ring.newest < ring.places) (fence : Nat) :
    (ring.openAt ((ring.newest + 1) % ring.places) fence).around =
      (ring.around.rotate 1).set (ring.places - 1) (some ⟨fence, 0⟩) := by
  have nonempty : 0 < ring.places := Nat.lt_of_le_of_lt (Nat.zero_le _) inside
  have turned : ring.ledger.rotate ((ring.newest + 1) % ring.places + 1) = ring.around.rotate 1 := by
    rw [← List.rotate_rotate, around]
    exact congrArg (List.rotate · 1) (List.rotate_mod ..)
  rw [← turned]
  exact rotate_set (Nat.mod_lt _ nonempty) _

theorem around_openAt_newest {ring : Ring} (inside : ring.newest < ring.places) (fence : Nat) :
    (ring.openAt ring.newest fence).around =
      ring.around.set (ring.places - 1) (some ⟨fence, 0⟩) :=
  rotate_set inside _

theorem fresh_holds {size places : Nat} (some_place : 0 < places) : (fresh size places).Holds [] where
  layout := ⟨places, by simp [around, fresh]⟩
  inside := by simpa [fresh, Ring.places] using some_place
  ordered := .nil
  counted := by simp [fresh]
  bounded := Nat.zero_le _

theorem places_openAt (ring : Ring) (place fence : Nat) :
    (ring.openAt place fence).places = ring.places := by
  simp [places, openAt]

namespace Holds

variable {ring : Ring} {waves : List Wave}

theorem places_eq (holds : ring.Holds waves) :
    ∃ vacant, ring.around = List.replicate vacant none ++ waves.map some ∧
      vacant + waves.length = ring.places := by
  obtain ⟨vacant, shape⟩ := holds.layout
  refine ⟨vacant, shape, ?_⟩
  rw [← around_length, shape]
  simp

theorem tail_le_head (holds : ring.Holds waves) : ring.tail ≤ ring.head := by
  have counted := holds.counted
  have bounded := holds.bounded
  omega

theorem newest_eq (holds : ring.Holds waves) : ring.waveAt? ring.newest = waves.getLast? := by
  obtain ⟨vacant, shape, counted⟩ := holds.places_eq
  have inside := holds.inside
  rw [waveAt?_newest inside, shape]
  cases waves using List.reverseRecOn with
  | nil =>
    cases vacant with
    | zero => simp at counted; omega
    | succ vacant => simp [List.replicate_succ']
  | append_singleton older newest _ => simp [← List.append_assoc]

theorem next_isSome (holds : ring.Holds waves) :
    (ring.waveAt? ((ring.newest + 1) % ring.places)).isSome = decide (waves.length = ring.places) := by
  obtain ⟨vacant, shape, counted⟩ := holds.places_eq
  have inside := holds.inside
  rw [waveAt?_next inside, shape]
  cases vacant with
  | zero =>
    cases waves with
    | nil => simp at counted; omega
    | cons oldest rest => simpa using counted
  | succ vacant =>
    have room : waves.length ≠ ring.places := by omega
    simp [List.replicate_succ, room]

end Holds

structure Took (ring : Ring) (slots : Nat) (after : Ring) : Prop where
  size : after.size = ring.size
  head : after.head = ring.head
  tail : after.tail = ring.tail + slots
  places : after.places = ring.places

theorem Took.trans {one two : Nat} {ring middle after : Ring} (first : ring.Took one middle)
    (second : middle.Took two after) : ring.Took (one + two) after where
  size := second.size.trans first.size
  head := second.head.trans first.head
  tail := by rw [second.tail, first.tail, Nat.add_assoc]
  places := second.places.trans first.places

theorem openAt_took (ring : Ring) (place fence : Nat) : ring.Took 0 (ring.openAt place fence) :=
  ⟨rfl, rfl, rfl, places_openAt ring place fence⟩

theorem openWave_covered {ring : Ring} {wave : Wave} {fence : Nat}
    (lies : ring.waveAt? ring.newest = some wave) (covers : fence ≤ wave.fence) :
    openWave fence ring = ⟨.ok (), ring, []⟩ := by
  simp only [openWave, bind, Action.bind, Action.get, Run.andThen, lies, covers]
  rfl

namespace Holds

variable {ring : Ring} {waves : List Wave}

theorem openAt_newest_holds (holds : ring.Holds []) (fence : Nat) :
    (ring.openAt ring.newest fence).Holds [⟨fence, 0⟩] where
  layout := by
    obtain ⟨vacant, shape, counted⟩ := holds.places_eq
    have inside := holds.inside
    refine ⟨vacant - 1, ?_⟩
    rw [around_openAt_newest inside, shape]
    cases vacant with
    | zero => simp at counted; omega
    | succ vacant =>
      have last : ring.places - 1 = (List.replicate vacant (none : Option Wave)).length := by
        simp at counted ⊢
        omega
      simp [List.replicate_succ', last]
  inside := by
    rw [places_openAt]
    exact holds.inside
  ordered := List.pairwise_singleton _ _
  counted := holds.counted
  bounded := Nat.zero_le _

theorem openAt_next_holds (holds : ring.Holds waves) (room : waves.length < ring.places)
    {fence : Nat} (newer : ∀ wave ∈ waves, wave.fence < fence) :
    (ring.openAt ((ring.newest + 1) % ring.places) fence).Holds (waves ++ [⟨fence, 0⟩]) where
  layout := by
    obtain ⟨vacant, shape, counted⟩ := holds.places_eq
    refine ⟨vacant - 1, ?_⟩
    rw [around_openAt_next holds.inside, shape]
    cases vacant with
    | zero => omega
    | succ vacant =>
      have last : ring.places - 1 =
          (List.replicate vacant (none : Option Wave) ++ waves.map some).length := by
        simp
        omega
      rw [List.replicate_succ, List.cons_append, List.rotate_cons_succ, List.rotate_zero, last,
        List.set_append_right _ _ (Nat.le_refl _)]
      simp
  inside := by
    rw [places_openAt]
    exact Nat.mod_lt _ (Nat.lt_of_le_of_lt (Nat.zero_le _) room)
  ordered := by
    refine List.pairwise_append.mpr ⟨holds.ordered, List.pairwise_singleton _ _, ?_⟩
    intro wave present other single
    rw [List.mem_singleton.mp single]
    exact newer wave present
  counted := by
    rw [Wave.total_append]
    exact holds.counted
  bounded := by
    rw [Wave.total_append]
    exact holds.bounded

theorem below_newest {older : List Wave} {newest : Wave} (holds : ring.Holds (older ++ [newest]))
    {fence : Nat} (lt : newest.fence < fence) : ∀ wave ∈ older ++ [newest], wave.fence < fence := by
  intro wave present
  rcases List.mem_append.mp present with old | last
  · have before := (List.pairwise_append.mp holds.ordered).2.2 wave old newest List.mem_cons_self
    omega
  · rw [List.mem_singleton.mp last]
    exact lt

theorem openWave_opened (holds : ring.Holds waves) {fence : Nat} {after : List Wave}
    (opened : Wave.opened? ring.places fence waves = some after) :
    ∃ next, openWave fence ring = ⟨.ok (), next, []⟩ ∧ next.Holds after ∧ ring.Took 0 next := by
  have newest := holds.newest_eq
  unfold Wave.opened? at opened
  split at opened
  · rename_i none_left
    cases opened
    rw [List.getLast?_eq_none_iff.mp none_left] at holds newest
    refine ⟨_, ?_, holds.openAt_newest_holds fence, openAt_took ..⟩
    simp only [openWave, bind, Action.bind, Action.get, Run.andThen, newest]
    rfl
  · rename_i wave last
    rw [last] at newest
    obtain ⟨older, rfl⟩ := List.getLast?_eq_some_iff.mp last
    split at opened
    · rename_i covered
      cases opened
      exact ⟨ring, openWave_covered newest covered, holds, rfl, rfl, rfl, rfl⟩
    · rename_i later
      split at opened
      · rename_i room
        cases opened
        refine ⟨_, ?_, holds.openAt_next_holds room (holds.below_newest (by omega)),
          openAt_took ..⟩
        have vacant := holds.next_isSome
        rw [decide_eq_false (Nat.ne_of_lt room)] at vacant
        simp only [openWave, bind, Action.bind, Action.get, Run.andThen, newest, later, vacant]
        rfl
      · cases opened

theorem openWave_full (holds : ring.Holds waves) {fence : Nat}
    (full : Wave.opened? ring.places fence waves = none) :
    openWave fence ring = ⟨.error (.error .ledgerExhausted), ring,
      [.noted (.ledgerFull ring.outstanding)]⟩ := by
  have newest := holds.newest_eq
  unfold Wave.opened? at full
  split at full
  · cases full
  · rename_i wave last
    rw [last] at newest
    split at full
    · cases full
    · rename_i later
      split at full
      · cases full
      · rename_i no_room
        obtain ⟨vacant, shape, counted⟩ := holds.places_eq
        have taken := holds.next_isSome
        rw [decide_eq_true (by omega)] at taken
        simp only [openWave, bind, Action.bind, Action.get, Run.andThen, newest, later, taken]
        rfl

end Holds

end Ring

end Reclaim
