import Reclaim.Context.Reclaiming
import Reclaim.Proofs.Contract

namespace Reclaim

def Event.isTimeless : Event → Bool
  | .observed .. | .closed .. | .asked (.wait ..) _ | .noted (.waitUnsubmitted ..) => false
  | _ => true

def Event.observations (queue : Queue) (events : List Event) : List Nat :=
  events.filterMap fun event => match event with
    | .observed other fence => if other = queue then some fence else none
    | _ => none

structure Clock where
  known : Fences
  recording : Fences

namespace Clock

variable {caller : Bool} {clock : Clock} {event : Event} {events earlier later : List Event}
  {queue : Queue} {fence : Nat} {outcome : Outcome}

def start : Clock := ⟨.unused, ⟨1, 1, 1⟩⟩

def hear (clock : Clock) : Event → Clock
  | .observed queue fence => { clock with known := clock.known.set queue fence }
  | .closed queue fence => { clock with recording := clock.recording.set queue (fence + 1) }
  | _ => clock

def after (clock : Clock) (events : List Event) : Clock := events.foldl hear clock

-- What may come next: a queue is never seen to come back, the batch that is closed is the recorded
-- one, and what is waited for is submitted and not known to have completed. Only a caller who waits
-- by itself may be refused an unsubmitted batch.
def Admits (caller : Bool) (clock : Clock) : Event → Prop
  | .observed queue fence => clock.known.get queue ≤ fence
  | .closed queue fence => fence = clock.recording.get queue
  | .asked (.wait queue fence) _ =>
    clock.known.get queue < fence ∧ fence < clock.recording.get queue
  | .noted (.waitUnsubmitted _ _) => caller = true
  | _ => True

def Accepts (caller : Bool) : Clock → List Event → Prop
  | _, [] => True
  | clock, event :: rest => clock.Admits caller event ∧ (clock.hear event).Accepts caller rest

@[simp] theorem after_append (clock : Clock) (earlier later : List Event) :
    clock.after (earlier ++ later) = (clock.after earlier).after later :=
  List.foldl_append ..

theorem accepts_append : clock.Accepts caller (earlier ++ later) ↔
    clock.Accepts caller earlier ∧ (clock.after earlier).Accepts caller later := by
  induction earlier generalizing clock with
  | nil => simp [Accepts, after]
  | cons event rest ih =>
    simp only [List.cons_append, Accepts, ih, and_assoc]
    rfl

theorem Accepts.admits (accepts : clock.Accepts caller events)
    (split : events = earlier ++ event :: later) :
    (clock.after earlier).Admits caller event := by
  rw [split] at accepts
  exact (accepts_append.mp accepts).2.1

theorem Admits.anyCaller (admits : clock.Admits caller event) : clock.Admits true event := by
  cases event with
  | noted note =>
    cases note with
    | waitUnsubmitted => exact rfl
    | _ => exact admits
  | asked call outcome => cases call <;> exact admits
  | _ => exact admits

theorem Accepts.anyCaller (accepts : clock.Accepts caller events) : clock.Accepts true events := by
  induction events generalizing clock with
  | nil => exact trivial
  | cons event rest ih => exact ⟨accepts.1.anyCaller, ih accepts.2⟩

theorem Admits.known_le (admits : clock.Admits caller event) :
    clock.known.get queue ≤ (clock.hear event).known.get queue := by
  cases event with
  | observed other fence =>
    by_cases same : queue = other
    · subst same
      rw [hear, PerQueue.get_set_same]
      exact admits
    · exact Nat.le_of_eq (PerQueue.get_set_other _ _ same).symm
  | _ => exact Nat.le_refl _

theorem Accepts.known_le (accepts : clock.Accepts caller events) :
    clock.known.get queue ≤ (clock.after events).known.get queue := by
  induction events generalizing clock with
  | nil => exact Nat.le_refl _
  | cons event rest ih => exact Nat.le_trans accepts.1.known_le (ih accepts.2)

theorem Admits.recording_le (admits : clock.Admits caller event) :
    clock.recording.get queue ≤ (clock.hear event).recording.get queue := by
  cases event with
  | closed other fence =>
    by_cases same : queue = other
    · subst same
      obtain rfl : fence = clock.recording.get queue := admits
      rw [hear, PerQueue.get_set_same]
      exact Nat.le_succ _
    · exact Nat.le_of_eq (PerQueue.get_set_other _ _ same).symm
  | _ => exact Nat.le_refl _

theorem Accepts.recording_le (accepts : clock.Accepts caller events) :
    clock.recording.get queue ≤ (clock.after events).recording.get queue := by
  induction events generalizing clock with
  | nil => exact Nat.le_refl _
  | cons event rest ih => exact Nat.le_trans accepts.1.recording_le (ih accepts.2)

theorem Accepts.closed_lt (accepts : clock.Accepts caller events)
    (among : .closed queue fence ∈ events) :
    clock.recording.get queue < (clock.after events).recording.get queue := by
  obtain ⟨earlier, later, rfl⟩ := List.append_of_mem among
  obtain ⟨before, admits, further⟩ := accepts_append.mp accepts
  obtain rfl : fence = (clock.after earlier).recording.get queue := admits
  have begun : clock.recording.get queue ≤ _ := before.recording_le
  have next : ((clock.after earlier).hear _).recording.get queue ≤ _ := further.recording_le
  rw [hear, PerQueue.get_set_same] at next
  rw [after_append]
  exact Nat.lt_of_le_of_lt begun next

theorem observations_cons : Event.observations queue (event :: events) =
    (Event.observations queue [event]) ++ Event.observations queue events :=
  List.filterMap_append (l := [event])

theorem observations_single (among : fence ∈ Event.observations queue [event]) :
    event = .observed queue fence := by
  cases event with
  | observed other seen =>
    by_cases same : other = queue
    · simp [Event.observations, same] at among
      rw [same, among]
    · simp [Event.observations, same] at among
  | _ => simp [Event.observations] at among

theorem Accepts.observed_ge (accepts : clock.Accepts caller events)
    (among : fence ∈ Event.observations queue events) : clock.known.get queue ≤ fence := by
  induction events generalizing clock with
  | nil => cases among
  | cons event rest ih =>
    rw [observations_cons] at among
    rcases List.mem_append.mp among with here | further
    · obtain rfl := observations_single here
      exact accepts.1
    · exact Nat.le_trans accepts.1.known_le (ih accepts.2 further)

theorem Accepts.observed_le (accepts : clock.Accepts caller events)
    (among : fence ∈ Event.observations queue events) :
    fence ≤ (clock.after events).known.get queue := by
  induction events generalizing clock with
  | nil => cases among
  | cons event rest ih =>
    rw [observations_cons] at among
    rcases List.mem_append.mp among with here | further
    · obtain rfl := observations_single here
      have later : (clock.hear (.observed queue fence)).known.get queue ≤
          ((clock.hear (.observed queue fence)).after rest).known.get queue := accepts.2.known_le
      rwa [hear, PerQueue.get_set_same] at later
    · exact ih accepts.2 further

theorem Accepts.observed_rising (accepts : clock.Accepts caller events) :
    (Event.observations queue events).Pairwise (· ≤ ·) := by
  induction events generalizing clock with
  | nil => exact .nil
  | cons event rest ih =>
    rw [observations_cons]
    refine List.pairwise_append.mpr ⟨?_, ih accepts.2, ?_⟩
    · cases event with
      | observed other fence =>
        by_cases same : other = queue <;> simp [Event.observations, same]
      | _ => exact .nil
    · intro fence here seen further
      obtain rfl := observations_single here
      have later := accepts.2.observed_ge further
      rwa [hear, PerQueue.get_set_same] at later

theorem Accepts.never_refused (accepts : clock.Accepts false events) (fence : Nat) (queue : Queue) :
    .noted (.waitUnsubmitted fence queue) ∉ events := by
  intro among
  obtain ⟨earlier, later, split⟩ := List.append_of_mem among
  cases accepts.admits split

theorem accepts_timeless (still : ∀ event ∈ events, event.isTimeless = true) :
    clock.Accepts caller events ∧ clock.after events = clock := by
  induction events with
  | nil => exact ⟨trivial, rfl⟩
  | cons event rest ih =>
    obtain ⟨first, others⟩ := List.forall_mem_cons.mp still
    have same : clock.hear event = clock := by
      cases event with
      | observed | closed => cases first
      | _ => rfl
    have admitted : clock.Admits caller event := by
      cases event with
      | observed | closed => cases first
      | noted note =>
        cases note with
        | waitUnsubmitted => cases first
        | _ => exact trivial
      | asked call outcome =>
        cases call with
        | wait => cases first
        | _ => exact trivial
      | _ => exact trivial
    obtain ⟨accepted, kept⟩ := ih others
    refine ⟨⟨admitted, same.symm ▸ accepted⟩, ?_⟩
    change (clock.hear event).after rest = clock
    rw [same, kept]

end Clock

namespace Action

variable {σ τ α β : Type}

def Timeless (x : Action σ α) : Prop := ∀ s, ∀ event ∈ (x s).events, event.isTimeless = true

theorem timeless_silent {x : Action σ α} (silent : ∀ s, (x s).events = []) : Timeless x := by
  intro s event among
  rw [silent] at among
  cases among

theorem timeless_pure (a : α) : Timeless (Pure.pure a : Action σ α) := timeless_silent fun _ => rfl

theorem timeless_get : Timeless (get : Action σ σ) := timeless_silent fun _ => rfl

theorem timeless_modify (f : σ → σ) : Timeless (modify f) := timeless_silent fun _ => rfl

theorem timeless_refuse (error : Error) : Timeless (refuse error : Action σ α) :=
  timeless_silent fun _ => rfl

theorem timeless_checked (x : Except Fault α) : Timeless (liftM x : Action σ α) := by
  cases x with
  | ok a => exact timeless_silent fun _ => rfl
  | error fault => exact timeless_silent fun _ => rfl

theorem timeless_settle (x : Except Error α) : Timeless (settle x : Action σ α) := by
  cases x with
  | ok a => exact timeless_silent fun _ => rfl
  | error error => exact timeless_silent fun _ => rfl

theorem timeless_emit {event : Event} (still : event.isTimeless = true) :
    Timeless (emit event : Action σ Unit) :=
  fun _ => List.forall_mem_singleton.mpr still

theorem timeless_note {note : Note} (still : (Event.noted note).isTimeless = true) :
    Timeless (Action.note note : Action σ Unit) :=
  timeless_emit still

theorem timeless_bind {x : Action σ α} {f : α → Action σ β} (first : Timeless x)
    (next : ∀ a, Timeless (f a)) : Timeless (x >>= f) := by
  intro s
  rw [run_bind]
  have before := first s
  match x s, before with
  | ⟨.error _, _, _⟩, before => exact before
  | ⟨.ok a, middle, _⟩, before =>
    exact List.forall_mem_append.mpr ⟨before, next a middle⟩

theorem timeless_look {f : σ → Action σ β} (next : ∀ s, Timeless (f s)) :
    Timeless (get >>= f) :=
  timeless_bind timeless_get next

theorem timeless_attempt {x : Action σ α} (still : Timeless x) : Timeless x.attempt := by
  intro s
  rw [run_attempt]
  have before := still s
  match x s, before with
  | ⟨.ok _, _, _⟩, before | ⟨.error (.error _), _, _⟩, before
  | ⟨.error (.fault _), _, _⟩, before => exact before

theorem timeless_on {part : Part σ τ} {x : Action τ α} (still : Timeless x) :
    Timeless (on part x) :=
  fun s => still (part.get s)

theorem timeless_each {f : α → Action σ Unit} (still : ∀ a, Timeless (f a)) (items : List α) :
    Timeless (each f items) := by
  induction items with
  | nil => exact timeless_pure ()
  | cons a rest ih => exact timeless_bind (still a) fun _ => ih

end Action

section Machines

variable {δ : Type}

namespace Machine

theorem timeless_drop (resource : Resource) : Action.Timeless (drop (δ := δ) resource) :=
  Action.timeless_bind (Action.timeless_modify _) fun _ => Action.timeless_emit rfl

variable [Device δ]

theorem timeless_ask {call : Call}
    (still : ∀ outcome, (Event.asked call outcome).isTimeless = true) :
    Action.Timeless (ask (δ := δ) call) :=
  fun _ => List.forall_mem_singleton.mpr (still _)

theorem timeless_createHeap (desc : HeapDesc) : Action.Timeless (createHeap (δ := δ) desc) := by
  apply Action.timeless_bind (timeless_ask fun _ => rfl)
  intro outcome
  apply Action.timeless_look
  intro machine
  cases outcome with
  | failed error => exact Action.timeless_refuse _
  | done | withoutGpu =>
    exact Action.timeless_bind (Action.timeless_modify _) fun _ => Action.timeless_pure _

theorem timeless_createMemory (heap : BufferHeap) (size : Nat) :
    Action.Timeless (createMemory (δ := δ) heap size) := by
  apply Action.timeless_bind (timeless_ask fun _ => rfl)
  intro outcome
  cases outcome with
  | failed error => exact Action.timeless_refuse _
  | done | withoutGpu =>
    apply Action.timeless_look
    intro machine
    exact Action.timeless_bind (Action.timeless_modify _) fun _ => Action.timeless_pure _

theorem timeless_createBuffer (heap : BufferHeap) (size : Nat) :
    Action.Timeless (createBuffer (δ := δ) heap size) := by
  apply Action.timeless_bind (timeless_ask fun _ => rfl)
  intro outcome
  cases outcome with
  | failed error => exact Action.timeless_refuse _
  | done | withoutGpu =>
    apply Action.timeless_look
    intro machine
    exact Action.timeless_bind (Action.timeless_modify _) fun _ => Action.timeless_pure _

end Machine

namespace Dedicated

theorem timeless_deallocate (block : Block) : Action.Timeless (deallocate (δ := δ) block) := by
  apply Action.timeless_look
  intro both
  dsimp only
  split
  · exact Action.timeless_note rfl
  apply Action.timeless_bind (Action.timeless_checked _)
  intro used
  apply Action.timeless_bind (Action.timeless_on (Action.timeless_modify _))
  intro _
  exact Action.timeless_on (Machine.timeless_drop _)

theorem timeless_claim (size : Nat) : Action.Timeless (claim size) := by
  unfold claim
  split
  · exact Action.timeless_refuse _
  · exact Action.timeless_pure _

theorem timeless_conclude (size : Nat) (made : Except Error Memory) :
    Action.Timeless (conclude (δ := δ) size made) := by
  apply Action.timeless_bind (Action.timeless_settle _)
  intro memory
  apply Action.timeless_look
  intro both
  dsimp only
  split
  · exact Action.timeless_bind (Action.timeless_on (Machine.timeless_drop _)) fun _ =>
      Action.timeless_refuse _
  · exact Action.timeless_bind (Action.timeless_on (Action.timeless_modify _)) fun _ =>
      Action.timeless_pure _

variable [Device δ]

theorem timeless_allocate (size : Nat) : Action.Timeless (allocate (δ := δ) size) := by
  apply Action.timeless_bind (Action.timeless_on (timeless_claim size))
  intro _
  apply Action.timeless_look
  intro both
  dsimp only
  refine Action.timeless_bind
    (Action.timeless_on (Action.timeless_attempt (Machine.timeless_createMemory _ _))) ?_
  exact timeless_conclude size

end Dedicated

namespace Buddy

theorem timeless_release (offset order : Nat) : Action.Timeless (release offset order) :=
  Action.timeless_look fun _ => Action.timeless_bind (Action.timeless_checked _) fun _ =>
    Action.timeless_modify _

theorem timeless_claim (size : Nat) : Action.Timeless (claim size) := by
  apply Action.timeless_look
  intro buddy
  split
  · exact Action.timeless_refuse _
  dsimp only
  split
  · exact Action.timeless_refuse _
  split
  · exact Action.timeless_refuse _
  apply Action.timeless_bind (Action.timeless_checked _)
  intro used
  apply Action.timeless_bind (Action.timeless_modify _)
  intro _
  split
  · exact Action.timeless_bind (Action.timeless_modify _) fun _ => Action.timeless_pure _
  · exact Action.timeless_pure _

theorem timeless_conclude (claim : Claim) (made : Except Error Memory) :
    Action.Timeless (conclude (δ := δ) claim made) := by
  apply Action.timeless_look
  intro both
  dsimp only
  cases made with
  | error error =>
    apply Action.timeless_on
    apply Action.timeless_bind (Action.timeless_modify _)
    intro _
    exact Action.timeless_bind (timeless_release _ _) fun _ => Action.timeless_refuse _
  | ok memory =>
    dsimp only
    split
    · apply Action.timeless_bind (Action.timeless_on (Action.timeless_modify _))
      intro _
      exact Action.timeless_bind (Action.timeless_on (Machine.timeless_drop _)) fun _ =>
        Action.timeless_pure _
    · apply Action.timeless_bind (Action.timeless_on (Action.timeless_modify _))
      intro _
      exact Action.timeless_bind (Action.timeless_note rfl) fun _ => Action.timeless_pure _

theorem timeless_deallocate (block : Block) : Action.Timeless (deallocate (δ := δ) block) := by
  apply Action.timeless_look
  intro both
  dsimp only
  split
  · exact Action.timeless_note rfl
  split
  · exact Action.timeless_note rfl
  apply Action.timeless_bind
  · apply Action.timeless_on
    exact Action.timeless_bind (Action.timeless_modify _) fun _ => timeless_release _ _
  intro _
  split
  · exact Action.timeless_pure _
  apply Action.timeless_bind (Action.timeless_checked _)
  intro blocks
  split
  · apply Action.timeless_bind (Action.timeless_on (Action.timeless_modify _))
    intro _
    exact Action.timeless_bind (Action.timeless_on (Machine.timeless_drop _)) fun _ =>
      Action.timeless_note rfl
  · exact Action.timeless_on (Action.timeless_modify _)

end Buddy

namespace Supply

theorem timeless_choose {σ : Type} (heap : BufferHeap) (useBuddy : Bool) (layout : BuddyLayout) :
    Action.Timeless (choose (σ := σ) heap useBuddy layout) := by
  unfold choose
  split
  · apply Action.timeless_bind (Action.timeless_note rfl)
    intro _
    exact Action.timeless_bind (Action.timeless_settle _) fun _ => Action.timeless_pure _
  · exact Action.timeless_bind (Action.timeless_note rfl) fun _ => Action.timeless_pure _

theorem timeless_byKind {α : Type} {onBuddy : Action (Buddy × Machine δ) α}
    {onDedicated : Action (Dedicated × Machine δ) α} (buddies : Action.Timeless onBuddy)
    (heaps : Action.Timeless onDedicated) : Action.Timeless (byKind onBuddy onDedicated) := by
  rintro ⟨supply, machine⟩
  cases supply with
  | buddy b => exact buddies (b, machine)
  | dedicated d => exact heaps (d, machine)

theorem timeless_claim (size : Nat) : Action.Timeless (claim (δ := δ) size) := by
  apply timeless_byKind
  · apply Action.timeless_bind (Action.timeless_on (Buddy.timeless_claim size))
    intro claimed
    cases claimed with
    | inl block => exact Action.timeless_pure _
    | inr claim => exact Action.timeless_look fun _ => Action.timeless_pure _
  · exact Action.timeless_bind (Action.timeless_on (Dedicated.timeless_claim size)) fun _ =>
      Action.timeless_pure _

theorem timeless_conclude (ticket : Ticket) (made : Except Error Memory) :
    Action.Timeless (conclude (δ := δ) ticket made) := by
  cases ticket with
  | claim claim =>
    exact timeless_byKind (Buddy.timeless_conclude claim made) (Action.timeless_refuse _)
  | size size =>
    exact timeless_byKind (Action.timeless_refuse _) (Dedicated.timeless_conclude size made)

theorem timeless_deallocate (block : Block) : Action.Timeless (deallocate (δ := δ) block) :=
  timeless_byKind (Buddy.timeless_deallocate block) (Dedicated.timeless_deallocate block)

variable [Device δ]

theorem timeless_allocate (size : Nat) : Action.Timeless (allocate (δ := δ) size) := by
  apply Action.timeless_bind (Action.timeless_on (timeless_claim size))
  intro granted
  cases granted with
  | block block => exact Action.timeless_pure _
  | pending bytes ticket =>
    apply Action.timeless_look
    intro both
    dsimp only
    refine Action.timeless_bind
      (Action.timeless_on (Action.timeless_attempt (Machine.timeless_createMemory _ _))) ?_
    intro made
    exact Action.timeless_bind (Action.timeless_pure _) fun _ =>
      Action.timeless_on (timeless_conclude ticket made)

end Supply

namespace SlotManager

theorem timeless_takeFront : Action.Timeless takeFront := by
  apply Action.timeless_look
  intro manager
  split
  · exact Action.timeless_refuse _
  split
  · exact Action.timeless_refuse _
  split
  · exact Action.timeless_refuse _
  apply Action.timeless_bind (Action.timeless_checked _)
  intro start
  exact Action.timeless_bind (Action.timeless_modify _) fun _ => Action.timeless_pure _

theorem timeless_free (handle : Handle) (index : Nat) : Action.Timeless (free handle index) := by
  apply Action.timeless_look
  intro manager
  split
  · exact Action.timeless_note rfl
  apply Action.timeless_bind (Action.timeless_checked _)
  intro stop
  split
  · exact Action.timeless_note rfl
  split
  · exact Action.timeless_note rfl
  · exact Action.timeless_modify _

variable [Device δ]

theorem timeless_grow : Action.Timeless (grow (δ := δ)) := by
  apply Action.timeless_look
  intro both
  dsimp only
  split
  · exact Action.timeless_bind (Action.timeless_note rfl) fun _ => Action.timeless_refuse _
  apply Action.timeless_bind (Action.timeless_on (Machine.timeless_createHeap _))
  intro object
  apply Action.timeless_bind (Action.timeless_checked _)
  intro stop
  exact Action.timeless_bind (Action.timeless_on (Action.timeless_modify _)) fun _ =>
    Action.timeless_note rfl

theorem timeless_allocate : Action.Timeless (allocate (δ := δ)) := by
  apply Action.timeless_bind (Action.timeless_on (Action.timeless_modify _))
  intro _
  apply Action.timeless_look
  intro both
  have taking : Action.Timeless (Action.on (managerOf (δ := δ)) takeFront) :=
    Action.timeless_on timeless_takeFront
  dsimp only
  split
  · exact Action.timeless_bind timeless_grow fun _ => taking
  · exact taking

end SlotManager

end Machines

namespace Ring

theorem timeless_openWave (fence : Nat) : Action.Timeless (openWave fence) := by
  apply Action.timeless_look
  intro ring
  split
  · exact Action.timeless_modify _
  split
  · exact Action.timeless_pure _
  dsimp only
  split
  · exact Action.timeless_bind (Action.timeless_note rfl) fun _ => Action.timeless_refuse _
  · exact Action.timeless_modify _

theorem timeless_consume (slots : Nat) : Action.Timeless (consume slots) :=
  Action.timeless_look fun _ => Action.timeless_bind (Action.timeless_checked _) fun _ =>
    Action.timeless_bind (Action.timeless_checked _) fun _ => Action.timeless_modify _

theorem timeless_requireFree (slots : Nat) : Action.Timeless (requireFree slots) := by
  apply Action.timeless_look
  intro ring
  apply Action.timeless_bind (Action.timeless_checked _)
  intro stop
  split
  · exact Action.timeless_refuse _
  · exact Action.timeless_pure _

theorem timeless_allocate (slots fence : Nat) : Action.Timeless (allocate slots fence) := by
  apply Action.timeless_look
  intro ring
  split
  · exact Action.timeless_refuse _
  split
  · exact Action.timeless_pure _
  apply Action.timeless_bind (timeless_openWave fence)
  intro _
  have skips : Action.Timeless (skipEnd slots) := by
    apply Action.timeless_look
    intro ring
    dsimp only
    split
    · exact Action.timeless_bind (timeless_requireFree _) fun _ => timeless_consume _
    · exact Action.timeless_pure _
  apply Action.timeless_bind skips
  intro _
  apply Action.timeless_bind (timeless_requireFree slots)
  intro _
  exact Action.timeless_look fun _ => Action.timeless_bind (timeless_consume slots) fun _ =>
    Action.timeless_pure _

theorem timeless_deallocate (completed : Nat) : Action.Timeless (deallocate completed) := by
  apply Action.timeless_look
  intro ring
  apply Action.timeless_bind (Action.timeless_checked _)
  intro head
  exact Action.timeless_bind (Action.timeless_modify _) fun _ =>
    Action.timeless_each (fun _ => Action.timeless_note rfl) _

end Ring

end Reclaim
