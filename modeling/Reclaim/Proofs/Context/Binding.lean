import Reclaim.Context.OnlineHeap
import Reclaim.Device.Scripted
import Reclaim.Proofs.Contract

namespace Reclaim

-- What happens to a heap: calls of its owner, and whatever the rest of the context does meanwhile.
inductive HeapStep (δ : Type) where
  | reserve (slots : Nat)
  | reclaim (completed : Nat)
  | trim (threshold completed : Nat)
  | elsewhere (change : Shared δ → Shared δ)

structure HeapTurn where
  answer : Option (Except Error Reservation)
  before : HeapObject
  after : HeapObject

namespace HeapTurn

def succeeds (turn : HeapTurn) : Bool :=
  match turn.answer with
  | some (.ok _) => true
  | _ => false

def tells (turn : HeapTurn) : Bool :=
  match turn.answer with
  | some (.ok reservation) => reservation.rolledOver
  | _ => false

def fails (turn : HeapTurn) : Bool :=
  match turn.answer with
  | some (.error _) => true
  | _ => false

-- The reservation failed, but not before it had replaced the heap.
def Hides (turn : HeapTurn) : Prop := turn.fails = true ∧ turn.after ≠ turn.before

def bound (rebinds : HeapTurn → Bool) (first : HeapObject) (turns : List HeapTurn) : HeapObject :=
  turns.foldl (fun bound turn => if rebinds turn then turn.after else bound) first

def inUse (first : HeapObject) (turns : List HeapTurn) : HeapObject :=
  (turns.getLast?.map (·.after)).getD first

end HeapTurn

open OnlineHeap in
def HeapStep.run {δ : Type} [Device δ] :
    HeapStep δ → Action (OnlineHeap × Shared δ) (Option (Except Error Reservation))
  | reserve slots => some <$> (OnlineHeap.reserve slots).attempt
  | reclaim completed => do
    reclaimSlots completed
    return none
  | trim threshold completed => do
    let _ ← OnlineHeap.trim threshold completed
    return none
  | elsewhere change => do
    Action.on sharedOf (Action.modify change)
    return none

namespace OnlineHeap

variable {δ α : Type} {start now after : OnlineHeap × Shared δ} {turns : List HeapTurn}
  {object : HeapObject} {events : List Event}

def inUse (both : OnlineHeap × Shared δ) : HeapObject := both.1.object

theorem keeps_shared (x : Action (Shared δ) α) : Action.Keeps inUse (Action.on sharedOf x) :=
  Action.keeps_on (fun _ _ => rfl) x

theorem keeps_ring (x : Action Ring α) : Action.Keeps inUse (Action.on (ringOf (δ := δ)) x) :=
  Action.keeps_on (fun _ _ => rfl) x

theorem keeps_trim (threshold completed : Nat) :
    Action.Keeps inUse (trim (δ := δ) threshold completed) := by
  unfold trim
  refine Action.keeps_bind (fun _ => rfl) fun both => ?_
  dsimp only
  split
  · exact Action.keeps_pure _
  · refine Action.keeps_bind (fun _ => rfl) fun _ => ?_
    exact Action.keeps_bind (keeps_shared _) fun _ => Action.keeps_pure _

def Unless (rolledOver : Bool) (object : HeapObject) : Claims (OnlineHeap × Shared δ) :=
  fun _ both => rolledOver = false → inUse both = object

theorem meets_unless {rolledOver : Bool} {x : Action (OnlineHeap × Shared δ) α}
    (keeps : Action.Keeps inUse x) :
    Action.Meets (Unless rolledOver object) x (fun _ => Unless rolledOver object)
      fun _ _ => True :=
  Action.meets_weaken (Action.meets_of_keeps keeps fun used => rolledOver = false → used = object)
    (fun _ _ holds => holds) (fun _ _ _ holds => holds) fun _ _ _ => trivial

variable [Device δ]

theorem reserveWithin_tells (slots attempts : Nat) (rolledOver reclaimed : Bool) :
    Action.Meets (Unless (δ := δ) rolledOver object)
      (reserveWithin slots attempts rolledOver reclaimed)
      (fun reservation => Unless reservation.rolledOver object) fun _ _ => True := by
  induction attempts generalizing rolledOver reclaimed with
  | zero =>
    unfold reserveWithin
    refine Action.meets_bind (Action.meets_trivially _) fun both => ?_
    refine Action.meets_bind (Action.meets_trivially _) fun _ => ?_
    exact Action.meets_refuse fun _ _ _ => trivial
  | succ attempts ih =>
    unfold reserveWithin
    refine Action.meets_bind (meets_unless (keeps_shared _)) fun fence => ?_
    refine Action.meets_bind (meets_unless (Action.keeps_attempt (keeps_ring _))) fun result => ?_
    cases result with
    | ok first => exact Action.meets_pure fun _ _ holds => holds
    | error error =>
      dsimp only
      split
      · refine Action.meets_bind (meets_unless (keeps_shared _)) fun completed => ?_
        refine Action.meets_bind (meets_unless (keeps_ring _)) fun _ => ?_
        exact ih rolledOver true
      · split
        · -- from here on the reservation tells of the roll-over
          refine Action.meets_bind (Action.meets_trivially _) fun _ => ?_
          exact Action.meets_before (ih true reclaimed) fun _ _ _ untold => nomatch untold
        · exact Action.meets_refuse fun _ _ _ => trivial

theorem reserve_tells (object : HeapObject) (slots : Nat) :
    Action.Meets (fun _ (both : OnlineHeap × Shared δ) => inUse both = object) (reserve slots)
      (fun reservation => Unless reservation.rolledOver object) fun _ _ => True := by
  unfold reserve
  refine Action.meets_bind Action.meets_get fun both => ?_
  split
  · exact Action.meets_refuse fun _ _ _ => trivial
  · exact Action.meets_before (reserveWithin_tells slots maxAttempts false false)
      fun _ _ seen _ => seen.1

theorem step_tells (step : HeapStep δ) {answer : Option (Except Error Reservation)}
    (ran : step.run now = ⟨.ok answer, after, events⟩) :
    let turn : HeapTurn := ⟨answer, inUse now, inUse after⟩
    turn.tells = false → turn.fails = false → turn.after = turn.before := by
  intro turn untold unfailed
  have kept {x : Action (OnlineHeap × Shared δ) (Option (Except Error Reservation))}
      (keeps : Action.Keeps inUse x) (did : x now = ⟨.ok answer, after, events⟩) :
      turn.after = turn.before := by
    have same := keeps now
    rw [did] at same
    exact same
  cases step with
  | reserve slots =>
    have tells := reserve_tells (inUse now) slots [] now rfl
    rcases reserved : reserve slots now with ⟨result, left, told⟩
    rw [reserved] at tells
    simp only [HeapStep.run, Action.run_map, Action.run_attempt, reserved] at ran
    cases result with
    | ok reservation =>
      cases ran
      exact tells untold
    | error stop =>
      cases stop with
      | error error =>
        cases ran
        cases unfailed
      | fault fault => cases ran
  | reclaim completed =>
    exact kept (Action.keeps_bind (keeps_ring _) fun _ => Action.keeps_pure _) ran
  | trim threshold completed =>
    exact kept (Action.keeps_bind (keeps_trim _ _) fun _ => Action.keeps_pure _) ran
  | elsewhere change =>
    exact kept (Action.keeps_bind (keeps_shared (Action.modify change)) fun _ =>
      Action.keeps_pure _) ran

inductive Runs (start : OnlineHeap × Shared δ) : List HeapTurn → OnlineHeap × Shared δ → Prop where
  | nil : Runs start [] start
  | turn {turns : List HeapTurn} {now after : OnlineHeap × Shared δ}
      {answer : Option (Except Error Reservation)} {events : List Event} (step : HeapStep δ) :
      Runs start turns now → step.run now = ⟨.ok answer, after, events⟩ →
      Runs start (turns ++ [⟨answer, inUse now, inUse after⟩]) after

theorem turns_tell (path : Runs start turns now) :
    ∀ turn ∈ turns, turn.tells = false → ¬ turn.Hides → turn.after = turn.before := by
  induction path with
  | nil => simp
  | turn step _ ran ih =>
    intro turn among untold shown
    rcases List.mem_append.mp among with earlier | last
    · exact ih turn earlier untold shown
    · obtain rfl := List.mem_singleton.mp last
      refine Classical.byContradiction fun other => shown ⟨?_, other⟩
      refine Classical.byContradiction fun unfailed => ?_
      exact other (step_tells step ran untold (Bool.eq_false_iff.mpr unfailed))

theorem inUse_lasts (path : Runs start turns now) {earlier later : List HeapTurn}
    (parts : turns = earlier ++ later)
    (quiet : ∀ turn ∈ later, turn.tells = false ∧ ¬ turn.Hides) :
    inUse now = HeapTurn.inUse (inUse start) earlier := by
  induction path generalizing later with
  | nil =>
    obtain ⟨rfl, -⟩ := List.append_eq_nil_iff.mp parts.symm
    rfl
  | @turn turns now after answer events step path ran ih =>
    rcases List.eq_nil_or_concat later with rfl | ⟨rest, last, rfl⟩
    · rw [List.append_nil] at parts
      simp [← parts, HeapTurn.inUse]
    · rw [List.concat_eq_append, ← List.append_assoc] at parts
      obtain ⟨before, same⟩ := List.append_inj' parts rfl
      obtain rfl := List.singleton_inj.mp same
      have all : ∀ turn ∈ turns ++ [⟨answer, inUse now, inUse after⟩], turn.tells = false →
          ¬ turn.Hides → turn.after = turn.before := turns_tell (path.turn step ran)
      obtain ⟨untold, shown⟩ := quiet ⟨answer, inUse now, inUse after⟩ (by simp)
      have stays : inUse after = inUse now := all _ (by simp) untold shown
      rw [stays]
      exact ih before fun turn among => quiet turn (by simp [among])

theorem bound_inUse (path : Runs start turns now) {rebinds : HeapTurn → Bool}
    (all : ∀ turn ∈ turns, rebinds turn = false → turn.after = turn.before) :
    HeapTurn.bound rebinds (inUse start) turns = inUse now := by
  induction path with
  | nil => rfl
  | @turn turns now after answer events step path ran ih =>
    have before := ih fun turn among => all turn (List.mem_append_left _ among)
    have last := all ⟨answer, inUse now, inUse after⟩ (by simp)
    unfold HeapTurn.bound at before ⊢
    rw [List.foldl_append, before, List.foldl_cons, List.foldl_nil]
    split
    · rfl
    · rename_i unbound
      exact (last (Bool.eq_false_iff.mpr unbound)).symm

-- Between two points of a run one object stays in use, if no reservation between them tells of a
-- roll-over and none that failed hides one. So a caller who binds the heap when it is told so has
-- the one in use bound while nothing is hidden; and always, if it binds after each failure as well.
theorem rollOver_told (path : Runs start turns now) :
    (∀ earlier later, turns = earlier ++ later →
      (∀ turn ∈ later, turn.tells = false ∧ ¬ turn.Hides) →
      inUse now = HeapTurn.inUse (inUse start) earlier) ∧
    ((∀ turn ∈ turns, ¬ turn.Hides) →
      HeapTurn.bound HeapTurn.tells (inUse start) turns = inUse now) ∧
    HeapTurn.bound (fun turn => turn.tells || turn.fails) (inUse start) turns = inUse now := by
  have tell := turns_tell path
  refine ⟨fun _ _ => inUse_lasts path, fun shown => ?_, ?_⟩
  · exact bound_inUse path fun turn among untold => tell turn among untold (shown turn among)
  · refine bound_inUse path fun turn among unbound => ?_
    obtain ⟨untold, unfailed⟩ := Bool.or_eq_false_iff.mp unbound
    exact tell turn among untold fun hides => Bool.eq_false_iff.mp unfailed hides.1

def opened? (device : δ) (config : Config) (kind : Kind) (online : OnlineConfig) :
    Option (OnlineHeap × Shared δ) :=
  match Shared.create (.start device) config ⟨[]⟩ () with
  | ⟨.ok shared, _, _⟩ =>
    match create kind online shared with
    | ⟨.ok heap, shared, _⟩ => some (heap, shared)
    | _ => none
  | _ => none

theorem Runs.returned (path : Runs start turns now) (step : HeapStep δ)
    (answer : Option (Except Error Reservation)) (came : (step.run now).result = .ok answer) :
    Runs start (turns ++ [⟨answer, inUse now, inUse (step.run now).state⟩])
      (step.run now).state := by
  refine @Runs.turn _ _ _ _ _ _ _ (step.run now).events step path ?_
  rw [← came]

def makesOne (shared : Shared Scripted) : Shared Scripted :=
  { shared with
    machine.device := shared.machine.device.extend .heap [.done, .failed .outOfDeviceMemory] }

theorem hidden_run :
    ∃ (start now : OnlineHeap × Shared Scripted) (first elsewhere failed last : HeapTurn),
      opened? Scripted.standard .minimal .view ⟨2, 8, 1, 4⟩ = some start ∧
      Runs start [first, elsewhere, failed, last] now ∧
      first.answer = some (.ok ⟨0, false⟩) ∧ elsewhere.answer = none ∧
      failed.answer = some (.error .outOfDeviceMemory) ∧
      last.answer = some (.ok ⟨0, false⟩) ∧ last.after ≠ first.after ∧
      HeapTurn.bound HeapTurn.tells (inUse start) [first, elsewhere, failed, last] ≠ inUse now := by
  have made := (Option.some_get (by decide +kernel :
    (opened? Scripted.standard .minimal .view ⟨2, 8, 1, 4⟩).isSome = true)).symm
  have path := @Runs.nil Scripted _
    ((opened? Scripted.standard .minimal .view ⟨2, 8, 1, 4⟩).get (by decide +kernel))
  replace path := path.returned (.reserve 1) (some (.ok ⟨0, false⟩)) (by decide +kernel)
  replace path := path.returned (.elsewhere makesOne) none (by decide +kernel)
  replace path := path.returned (.reserve 8) (some (.error .outOfDeviceMemory)) (by decide +kernel)
  replace path := path.returned (.reserve 1) (some (.ok ⟨0, false⟩)) (by decide +kernel)
  exact ⟨_, _, _, _, _, _, made, path, rfl, rfl, rfl, rfl, by decide +kernel, by decide +kernel⟩

theorem rollOver_told_careful :
    ∃ (start now : OnlineHeap × Shared Scripted) (turns : List HeapTurn),
      Runs start turns now ∧
      HeapTurn.bound HeapTurn.tells (inUse start) turns ≠ inUse now ∧
      HeapTurn.bound (fun turn => turn.tells || turn.fails) (inUse start) turns = inUse now := by
  obtain ⟨start, now, first, elsewhere, failed, last, -, path, -, -, -, -, -, unbound⟩ := hidden_run
  obtain ⟨-, -, careful⟩ := rollOver_told path
  exact ⟨start, now, _, path, unbound, careful⟩

-- It is not so that a reservation which tells of no roll-over leaves in use what was in use at the
-- last one that came to a good end, nor that whoever binds when told has it bound.
theorem rollOver_hidden :
    ¬ ∀ (start now : OnlineHeap × Shared Scripted) (earlier between : List HeapTurn)
        (previous last : HeapTurn),
      opened? Scripted.standard .minimal .view ⟨2, 8, 1, 4⟩ = some start →
      Runs start (earlier ++ previous :: (between ++ [last])) now →
      previous.succeeds = true → (∀ turn ∈ between, turn.succeeds = false) →
      last.succeeds = true → last.tells = false → last.after = previous.after := by
  intro law
  obtain ⟨start, now, first, elsewhere, failed, last, made, path, good, none, bad, well, other, -⟩ :=
    hidden_run
  refine other (law start now [] [elsewhere, failed] first last made path ?_ ?_ ?_ ?_)
  · simp [HeapTurn.succeeds, good]
  · simp [HeapTurn.succeeds, none, bad]
  · simp [HeapTurn.succeeds, well]
  · simp [HeapTurn.tells, well]

end OnlineHeap

end Reclaim
