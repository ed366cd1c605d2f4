import Reclaim.Proofs.Ring.Operations

namespace Reclaim.Ring

structure Grant where
  first : Nat
  slots : Nat
  fence : Nat
deriving DecidableEq

structure Turn where
  step : RingStep
  answer : Except Error (Option Nat)

def Turn.grant? : Turn → Option Grant
  | ⟨.allocate slots fence, .ok (some first)⟩ =>
    if 0 < slots then some ⟨first, slots, fence⟩ else none
  | _ => none

namespace Grant

-- The call may give the slots of the grant back.
def endedBy (grant : Grant) : RingStep → Bool
  | .allocate .. => false
  | .deallocate completed => grant.fence ≤ completed
  | .reset _ => true

def Disjoint (one other : Grant) : Prop :=
  one.first + one.slots ≤ other.first ∨ other.first + other.slots ≤ one.first

def follow (grants : List Grant) (turn : Turn) : List Grant :=
  (grants.filter fun grant => !grant.endedBy turn.step) ++ turn.grant?.toList

def outstanding (turns : List Turn) : List Grant := turns.foldl follow []

theorem outstanding_concat (turns : List Turn) (turn : Turn) :
    outstanding (turns ++ [turn]) = follow (outstanding turns) turn := by
  simp [outstanding]

theorem follow_allocate (grants : List Grant) (slots fence : Nat)
    (answer : Except Error (Option Nat)) : follow grants ⟨.allocate slots fence, answer⟩ =
      grants ++ (Turn.grant? ⟨.allocate slots fence, answer⟩).toList := by
  simp [follow, endedBy]

theorem follow_refused (grants : List Grant) (slots fence : Nat) (error : Error) :
    follow grants ⟨.allocate slots fence, .error error⟩ = grants := by
  rw [follow_allocate]
  exact List.append_nil _

end Grant

-- Calls one after the other, each answered. A fault is no answer, and nothing follows it.
inductive Runs (start : Ring) : List Turn → Ring → Prop where
  | nil : Runs start [] start
  | turn {turns ring step answer after events} (path : Runs start turns ring)
      (ran : step.run.attempt ring = ⟨.ok answer, after, events⟩) :
      Runs start (turns ++ [⟨step, answer⟩]) after

-- The slots of the grant lie in the window that has not been given back: they were taken when the
-- tail stood at `place`, and all that was charged since then lasts as long as the grant does.
def Secures (ring : Ring) (waves : List Wave) (grant : Grant) : Prop :=
  ∃ place, grant.first = place % ring.size ∧ grant.first + grant.slots ≤ ring.size ∧
    0 < grant.slots ∧ place + grant.slots ≤ ring.tail ∧
    ring.tail ≤ place + Wave.lasting grant.fence waves

variable {ring after : Ring} {older waves opened : List Wave} {newest : Wave} {grant : Grant}
  {slots fence : Nat}

theorem lasting_eq_zero (below : ∀ wave ∈ waves, wave.fence < fence) :
    Wave.lasting fence waves = 0 := by
  have none_left : waves.filter (fence ≤ ·.fence) = [] :=
    List.filter_eq_nil_iff.mpr fun wave present => by
      have := below wave present
      simpa using this
  rw [Wave.lasting, none_left, Wave.total_nil]

theorem secures_took (held : after.Holds (older ++ [newest.charge slots]))
    (opening : Wave.opened? ring.places fence waves = some (older ++ [newest]))
    (took : ring.Took slots after) (secured : ring.Secures waves grant) :
    after.Secures (older ++ [newest.charge slots]) grant := by
  obtain ⟨place, first, inside, some_slots, taken, lasts⟩ := secured
  rw [← Wave.opened?_lasting opening] at lasts
  have covered : grant.fence ≤ newest.fence := by
    by_contra short
    have below := held.below_newest (Nat.not_le.mp short)
    have gone : Wave.lasting grant.fence (older ++ [newest]) = 0 := by
      refine lasting_eq_zero fun wave present => ?_
      rcases List.mem_append.mp present with old | last
      · exact below wave (List.mem_append_left _ old)
      · rw [List.mem_singleton.mp last]
        exact Nat.not_le.mp short
    omega
  have same : grant.fence ≤ (newest.charge slots).fence := covered
  refine ⟨place, ?_, ?_, some_slots, ?_, ?_⟩
  · rw [took.size]
    exact first
  · rw [took.size]
    exact inside
  · rw [took.tail]
    omega
  · rw [took.tail, Wave.lasting_charge covered]
    omega

theorem secures_opened (held : after.Holds opened)
    (opening : Wave.opened? ring.places fence waves = some opened) (took : ring.Took 0 after)
    (secured : ring.Secures waves grant) : after.Secures opened grant := by
  obtain ⟨older, newest, rfl, _⟩ := Wave.opened?_shape opening
  have uncharged : after.Holds (older ++ [newest.charge 0]) := held
  exact secures_took uncharged opening took secured

theorem secures_reclaimed {completed : Nat} (kept : completed < grant.fence)
    (secured : ring.Secures waves grant) :
    (ring.reclaimed completed waves).Secures (waves.dropWhile (·.fence ≤ completed)) grant := by
  obtain ⟨place, first, inside, some_slots, taken, lasts⟩ := secured
  refine ⟨place, first, inside, some_slots, taken, ?_⟩
  rw [Wave.lasting_dropWhile kept]
  exact lasts

theorem round_end (some_size : 0 < ring.size) :
    (ring.tail + (ring.size - ring.position)) % ring.size = 0 := by
  have position := position_lt some_size
  have whole : ring.tail + (ring.size - ring.position) =
      ring.size * (ring.tail / ring.size) + ring.size := by
    have parts := Nat.div_add_mod ring.tail ring.size
    have same : ring.position = ring.tail % ring.size := rfl
    omega
  rw [whole, Nat.mul_add_mod_self_left, Nat.mod_self]

theorem start_inside (some_size : 0 < ring.size) (fits : slots ≤ ring.size) :
    (ring.tail + ring.gap slots) % ring.size + slots ≤ ring.size := by
  unfold gap
  split
  · have round := round_end some_size
    omega
  · have position := position_lt some_size
    have same : (ring.tail + 0) % ring.size = ring.position := rfl
    omega

theorem disjoint_of_window {size place later one other : Nat} (apart : place + one ≤ later)
    (window : later + other ≤ place + size) :
    place % size + one ≤ later % size ∨ later % size + other ≤ place % size := by
  rcases Nat.eq_zero_or_pos size with empty | some_size
  · omega
  have place_parts := Nat.div_add_mod place size
  have later_parts := Nat.div_add_mod later size
  rcases Nat.lt_trichotomy (later / size) (place / size + 1) with same | next | far
  · left
    have order : place / size ≤ later / size := Nat.div_le_div_right (by omega)
    have equal : later / size = place / size := by omega
    rw [equal] at later_parts
    omega
  · right
    rw [next, Nat.mul_add, Nat.mul_one] at later_parts
    omega
  · exfalso
    have turns : size * (place / size + 2) ≤ size * (later / size) := Nat.mul_le_mul_left _ (by omega)
    rw [Nat.mul_add] at turns
    have within := Nat.mod_lt place some_size
    omega

theorem granted_apart (holds : ring.Holds waves) (secured : ring.Secures waves grant)
    (free : ring.tail + ring.gap slots + slots ≤ ring.head) :
    grant.Disjoint ⟨(ring.tail + ring.gap slots) % ring.size, slots, fence⟩ := by
  obtain ⟨place, first, inside, _, taken, lasts⟩ := secured
  have counted := holds.counted
  have total := Wave.lasting_le_total grant.fence waves
  have apart : place + grant.slots ≤ ring.tail + ring.gap slots := by omega
  have window : ring.tail + ring.gap slots + slots ≤ place + ring.size := by omega
  unfold Grant.Disjoint
  rw [first]
  exact disjoint_of_window apart window

theorem granted_secured (some_size : 0 < ring.size) (asked : 0 < slots) (fits : slots ≤ ring.size)
    (opening : Wave.opened? ring.places fence waves = some (older ++ [newest]))
    (took : ring.Took (ring.gap slots + slots) after) :
    after.Secures (older ++ [newest.charge (ring.gap slots + slots)])
      ⟨(ring.tail + ring.gap slots) % ring.size, slots, fence⟩ := by
  have covered := Wave.opened?_covers opening
  have size := took.size
  have tail := took.tail
  refine ⟨ring.tail + ring.gap slots, ?_, ?_, asked, ?_, ?_⟩
  · rw [size]
  · rw [size]
    exact start_inside some_size fits
  · simp only
    omega
  · simp only
    rw [Wave.lasting_charge covered]
    omega

structure Keeps (ring : Ring) (grants : List Grant) (waves : List Wave) : Prop where
  holds : ring.Holds waves
  secured : ∀ grant ∈ grants, ring.Secures waves grant
  apart : grants.Pairwise Grant.Disjoint

theorem allocate_keeps {grants : List Grant} {answer : Except Error (Option Nat)}
    {events : List Event} (keeps : ring.Keeps grants waves)
    (ran : (RingStep.allocate slots fence).run.attempt ring = ⟨.ok answer, after, events⟩) :
    ∃ left, after.Keeps (Grant.follow grants ⟨.allocate slots fence, answer⟩) left := by
  obtain ⟨result, next, left, _, did, held, came⟩ := allocate_exact keeps.holds slots fence
  simp only [RingStep.run, Action.run_attempt, Action.run_map, did] at ran
  cases came with
  | unfit | ledgerFull =>
    cases ran
    rw [Grant.follow_refused]
    exact ⟨_, held, keeps.secured, keeps.apart⟩
  | nothing some_size nothing =>
    cases ran
    have none_added : Grant.follow grants ⟨.allocate slots fence, .ok (some ring.position)⟩ =
        grants := by
      simp [Grant.follow_allocate, Turn.grant?, nothing]
    rw [none_added]
    exact ⟨_, held, keeps.secured, keeps.apart⟩
  | tailFull asked fits opening took full =>
    cases ran
    rw [Grant.follow_refused]
    exact ⟨_, held, fun grant present =>
      secures_opened held opening took (keeps.secured grant present), keeps.apart⟩
  | ringFull asked fits opening took passed full =>
    cases ran
    rw [Grant.follow_refused]
    exact ⟨_, held, fun grant present =>
      secures_took held opening took (keeps.secured grant present), keeps.apart⟩
  | granted asked fits opening took free =>
    cases ran
    have added : Grant.follow grants ⟨.allocate slots fence,
        .ok (some ((ring.tail + ring.gap slots) % ring.size))⟩ =
        grants ++ [⟨(ring.tail + ring.gap slots) % ring.size, slots, fence⟩] := by
      simp [Grant.follow_allocate, Turn.grant?, asked]
    rw [added]
    refine ⟨_, held, ?_, ?_⟩
    · intro grant present
      rcases List.mem_append.mp present with old | new
      · exact secures_took held opening took (keeps.secured grant old)
      · rw [List.mem_singleton.mp new]
        exact granted_secured (by omega) asked fits opening took
    · refine List.pairwise_append.mpr ⟨keeps.apart, List.pairwise_singleton _ _, ?_⟩
      intro grant old other new
      rw [List.mem_singleton.mp new]
      exact granted_apart keeps.holds (keeps.secured grant old) free
  | overflow => cases ran

theorem deallocate_keeps {grants : List Grant} {completed : Nat}
    {answer : Except Error (Option Nat)} {events : List Event} (keeps : ring.Keeps grants waves)
    (ran : (RingStep.deallocate completed).run.attempt ring = ⟨.ok answer, after, events⟩) :
    ∃ left, after.Keeps (Grant.follow grants ⟨.deallocate completed, answer⟩) left := by
  have left : Grant.follow grants ⟨.deallocate completed, answer⟩ =
      grants.filter fun grant => !grant.endedBy (.deallocate completed) := by
    simp [Grant.follow, Turn.grant?]
  rw [left]
  rcases deallocate_run keeps.holds completed with ⟨did, _⟩ | ⟨notes, did⟩
  · simp [RingStep.run, did] at ran
  · simp only [RingStep.run, Action.run_attempt, Action.run_bind, did] at ran
    cases ran
    refine ⟨_, reclaimed_holds keeps.holds completed, ?_, keeps.apart.filter _⟩
    intro grant present
    obtain ⟨old, unended⟩ := List.mem_filter.mp present
    have kept : completed < grant.fence := by simpa [Grant.endedBy] using unended
    exact secures_reclaimed kept (keeps.secured grant old)

theorem turn_keeps {grants : List Grant} {step : RingStep} {answer : Except Error (Option Nat)}
    {events : List Event} (keeps : ring.Keeps grants waves)
    (ran : step.run.attempt ring = ⟨.ok answer, after, events⟩) :
    ∃ left, after.Keeps (Grant.follow grants ⟨step, answer⟩) left := by
  cases step with
  | allocate slots fence => exact allocate_keeps keeps ran
  | deallocate completed => exact deallocate_keeps keeps ran
  | reset size =>
    simp only [RingStep.run, Action.run_attempt, Action.run_bind, Action.run_modify] at ran
    cases ran
    have some_place : 0 < ring.places := Nat.lt_of_le_of_lt (Nat.zero_le _) keeps.holds.inside
    have none_left : Grant.follow grants ⟨.reset size, .ok none⟩ = [] := by
      simp [Grant.follow, Grant.endedBy, Turn.grant?]
    rw [none_left]
    exact ⟨[], fresh_holds some_place, by simp, .nil⟩

theorem runs_keep {size places : Nat} {turns : List Turn} (some_place : 0 < places)
    (path : Runs (fresh size places) turns ring) :
    ∃ waves, ring.Keeps (Grant.outstanding turns) waves := by
  induction path with
  | nil => exact ⟨[], fresh_holds some_place, by simp [Grant.outstanding], .nil⟩
  | turn path ran ih =>
    obtain ⟨waves, keeps⟩ := ih
    rw [Grant.outstanding_concat]
    exact turn_keeps keeps ran

theorem allocate_inside (holds : ring.Holds waves) {first : Nat} {events : List Event}
    (ran : allocate slots fence ring = ⟨.ok first, after, events⟩) : first + slots ≤ ring.size := by
  obtain ⟨result, next, left, _, did, _, came⟩ := allocate_exact holds slots fence
  rw [did] at ran
  cases came with
  | nothing some_size nothing =>
    cases ran
    have position := position_lt some_size
    omega
  | granted asked fits opening took free =>
    cases ran
    exact start_inside (by omega) fits
  | unfit | ledgerFull | tailFull | ringFull | overflow => cases ran

theorem some_place_of_ofLedger? {size places : Nat} {start : Ring}
    (made : ofLedger? size places = .ok start) : 0 < places ∧ start = fresh size places := by
  unfold ofLedger? at made
  split at made
  · cases made
  · cases made
    exact ⟨by omega, rfl⟩

-- Whatever fences come, slots are handed out inside the ring, and no two outstanding grants share
-- a slot.
theorem outstanding_disjoint {size places : Nat} {start ring : Ring} {turns : List Turn}
    (made : ofLedger? size places = .ok start) (path : Runs start turns ring) :
    (∀ slots fence first after events, allocate slots fence ring = ⟨.ok first, after, events⟩ →
      first + slots ≤ ring.size) ∧
    (Grant.outstanding turns).Pairwise Grant.Disjoint := by
  obtain ⟨some_place, rfl⟩ := some_place_of_ofLedger? made
  obtain ⟨waves, keeps⟩ := runs_keep some_place path
  refine ⟨?_, keeps.apart⟩
  intro slots fence first after events ran
  exact allocate_inside keeps.holds ran

theorem outstanding_disjoint_around :
    let turns : List Turn := [⟨.allocate 5 3, .ok (some 0)⟩, ⟨.allocate 2 1, .ok (some 5)⟩,
      ⟨.deallocate 2, .ok none⟩, ⟨.allocate 1 4, .ok (some 7)⟩, ⟨.deallocate 3, .ok none⟩,
      ⟨.allocate 4 4, .ok (some 0)⟩]
    Grant.outstanding turns = [⟨7, 1, 4⟩, ⟨0, 4, 4⟩] ∧
      (Grant.outstanding turns).Pairwise Grant.Disjoint := by
  intro turns
  have made : ofLedger? 8 2 = .ok (fresh 8 2) := rfl
  have path : Runs (fresh 8 2) turns ⟨8, 15, 12, [none, some ⟨4, 5⟩], 1⟩ :=
    .turn (.turn (.turn (.turn (.turn (.turn .nil rfl) rfl) rfl) rfl) rfl) rfl
  exact ⟨by decide, (outstanding_disjoint made path).2⟩

end Reclaim.Ring
