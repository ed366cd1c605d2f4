import Reclaim.Proofs.Context.Shedding
import Reclaim.Proofs.Device

namespace Reclaim

def Event.isFailedWait : Event → Bool
  | .asked (.wait _ _) (.failed _) => true
  | _ => false

def Event.isObserved : Event → Bool
  | .observed _ _ => true
  | _ => false

def Unfailed (events : List Event) : Prop := ∀ event ∈ events, event.isFailedWait = false

theorem unfailed_append {earlier later : List Event} :
    Unfailed (earlier ++ later) ↔ Unfailed earlier ∧ Unfailed later := by
  unfold Unfailed
  exact List.forall_mem_append

-- To ask how far one queue has come moves none of them. What the device has been asked to do may.
def Device.Quiet (δ : Type) [Device δ] : Prop :=
  ∀ (device : δ) queue other,
    (Device.completed other (Device.completed queue device).2).1 = (Device.completed other device).1

namespace Shared

variable {δ α : Type} {before middle after start shared : Shared δ}
  {past earlier later : List Event} {failed : Claims (Shared δ)}

-- The device has been asked and waited for, and nothing else has been touched.
structure Looks (before : Shared δ) (past : List Event) (after : Shared δ) : Prop where
  recording : after.recording = before.recording
  board : after.board = before.board
  retired : after.retired = before.retired
  known : ∀ queue, before.known.get queue ≤ after.known.get queue
  seen : ∀ queue fence, .observed queue fence ∈ past →
    before.known.get queue ≤ fence ∧ fence ≤ after.known.get queue

namespace Looks

theorem refl (shared : Shared δ) : Looks shared [] shared :=
  ⟨rfl, rfl, rfl, fun _ => Nat.le_refl _, fun _ _ => nofun⟩

theorem trans (first : Looks before earlier middle) (second : Looks middle later after) :
    Looks before (earlier ++ later) after where
  recording := second.recording.trans first.recording
  board := second.board.trans first.board
  retired := second.retired.trans first.retired
  known queue := Nat.le_trans (first.known queue) (second.known queue)
  seen queue fence among := by
    rcases List.mem_append.mp among with early | late
    · have ⟨above, below⟩ := first.seen queue fence early
      exact ⟨above, Nat.le_trans below (second.known queue)⟩
    · have ⟨above, below⟩ := second.seen queue fence late
      exact ⟨Nat.le_trans (first.known queue) above, below⟩

theorem tell (looks : Looks before past after) {event : Event} (other : event.isObserved = false)
    (machine : Machine δ) : Looks before (past ++ [event]) { after with machine } where
  recording := looks.recording
  board := looks.board
  retired := looks.retired
  known := looks.known
  seen queue fence among := by
    rcases List.mem_append.mp among with early | late
    · exact looks.seen queue fence early
    · rw [← List.mem_singleton.mp late] at other
      cases other

end Looks

theorem observe_run (queue : Queue) (fence : Nat) (shared : Shared δ) :
    ∃ after, observe queue fence shared =
        ⟨.ok (max (shared.known.get queue) fence), after,
          [.observed queue (max (shared.known.get queue) fence)]⟩ ∧
      Looks shared [.observed queue (max (shared.known.get queue) fence)] after ∧
      after = { shared with
        known := shared.known.set queue (max (shared.known.get queue) fence) } := by
  refine ⟨_, rfl, ⟨rfl, rfl, rfl, fun other => ?_, fun other seen told => ?_⟩, rfl⟩
  · by_cases same : other = queue
    · rw [same, PerQueue.get_set_same]
      exact Nat.le_max_left _ _
    · exact Nat.le_of_eq (PerQueue.get_set_other _ _ same).symm
  · cases List.mem_singleton.mp told
    rw [PerQueue.get_set_same]
    exact ⟨Nat.le_max_left _ _, Nat.le_refl _⟩

theorem observe_looks (queue : Queue) (fence : Nat) :
    Action.Meets (Looks start) (observe queue fence)
      (fun known past s => Looks start past s ∧ .observed queue known ∈ past ∧ fence ≤ known)
      failed := by
  intro past s looks
  obtain ⟨after, ran, looked, -⟩ := observe_run queue fence s
  rw [ran]
  exact ⟨looks.trans looked, List.mem_append_right _ List.mem_cons_self, Nat.le_max_right _ _⟩

variable [Device δ]

-- How far the queue is found to have come if it is asked about next.
def seen (shared : Shared δ) (queue : Queue) : Nat :=
  max (shared.known.get queue) (Device.completed queue shared.machine.device).1

-- The device has been asked how far its queues have come, and that is all.
structure Reads (before : Shared δ) (past : List Event) (after : Shared δ) : Prop
    extends Looks before past after where
  aside : ∃ machine known, after = { before with machine, known }
  only : ∀ event ∈ past, event.isObserved = true
  still : Device.Quiet δ → ∀ queue, after.seen queue = before.seen queue ∧
    ∀ fence, .observed queue fence ∈ past → fence = before.seen queue

namespace Reads

theorem refl (shared : Shared δ) : Reads shared [] shared where
  toLooks := .refl shared
  aside := ⟨_, _, rfl⟩
  only := nofun
  still _ _ := ⟨rfl, fun _ => nofun⟩

theorem trans (first : Reads before earlier middle) (second : Reads middle later after) :
    Reads before (earlier ++ later) after where
  toLooks := first.toLooks.trans second.toLooks
  aside := by
    obtain ⟨_, _, rfl⟩ := first.aside
    obtain ⟨machine, known, rfl⟩ := second.aside
    exact ⟨machine, known, rfl⟩
  only := List.forall_mem_append.mpr ⟨first.only, second.only⟩
  still quiet queue := by
    obtain ⟨same, early⟩ := first.still quiet queue
    obtain ⟨also, late⟩ := second.still quiet queue
    refine ⟨also.trans same, fun fence among => ?_⟩
    rcases List.mem_append.mp among with told | told
    · exact early fence told
    · exact (late fence told).trans same

theorem view_eq {view : Shared δ → α} (reads : Reads before past after) (aside : IsAside view) :
    view after = view before := by
  obtain ⟨_, _, rfl⟩ := reads.aside
  exact aside ..

end Reads

theorem completedFence_run (queue : Queue) (shared : Shared δ) :
    ∃ after, completedFence queue shared =
        ⟨.ok (shared.seen queue), after, [.observed queue (shared.seen queue)]⟩ ∧
      Reads shared [.observed queue (shared.seen queue)] after := by
  let device := (Device.completed queue shared.machine.device).2
  obtain ⟨after, ran, looks, moved⟩ := observe_run queue
    (Device.completed queue shared.machine.device).1 { shared with machine.device := device }
  refine ⟨after, ran, ⟨looks.recording, looks.board, looks.retired, looks.known, looks.seen⟩,
    ⟨_, _, moved⟩, List.forall_mem_singleton.mpr rfl, fun quiet other => ⟨?_, fun fence told => ?_⟩⟩
  · have asked : (Device.completed other device).1 =
        (Device.completed other shared.machine.device).1 := quiet _ _ _
    subst moved
    unfold seen
    rw [asked]
    by_cases same : other = queue
    · subst same
      rw [PerQueue.get_set_same, Nat.max_assoc, Nat.max_self]
    · rw [PerQueue.get_set_other _ _ same]
  · cases List.mem_singleton.mp told
    rfl

omit [Device δ] in
theorem recordingFence_reads {pre : Claims (Shared δ)} (queue : Queue) :
    Action.Meets pre (recordingFence queue)
      (fun fence past s => pre past s ∧ fence = s.recording.get queue) failed := by
  refine Action.meets_bind Action.meets_get fun s => Action.meets_pure fun past t both => ?_
  obtain ⟨holds, rfl⟩ := both
  exact ⟨holds, rfl⟩

theorem completedFence_reads (queue : Queue) :
    Action.Meets (Reads start) (completedFence queue)
      (fun fence past s => Reads start past s ∧ .observed queue fence ∈ past) failed := by
  intro past s reads
  obtain ⟨after, ran, looked⟩ := completedFence_run queue s
  rw [ran]
  exact ⟨reads.trans looked, List.mem_append_right _ List.mem_cons_self⟩

section Waiting

-- Nobody has done more than look, or more than ask if nobody has waited.
structure Watches (waited : Bool) (before : Shared δ) (past : List Event) (after : Shared δ) : Prop
    extends Looks before past after where
  unwaited : waited = false → Reads before past after

def Come (queue : Queue) (fence : Nat) (past : List Event) : Prop :=
  ∃ seen, .observed queue seen ∈ past ∧ fence ≤ seen

def Settled (fences recording : Fences) (queue : Queue) (past : List Event) : Prop :=
  fences.get queue = 0 ∨ recording.get queue ≤ fences.get queue ∨
    Come queue (fences.get queue) past

omit [Device δ] in
theorem Settled.append {fences recording : Fences} {queue : Queue} (past events : List Event)
    (settled : Settled fences recording queue past) :
    Settled fences recording queue (past ++ events) :=
  settled.imp_right <| Or.imp_right fun ⟨fence, told, come⟩ =>
    ⟨fence, List.mem_append_left _ told, come⟩

theorem completedFence_watches (waited : Bool) (queue : Queue) :
    Action.Meets (Watches waited start) (completedFence queue)
      (fun fence past s => Watches waited start past s ∧ .observed queue fence ∈ past) failed := by
  intro past s watches
  obtain ⟨after, ran, looked⟩ := completedFence_run queue s
  rw [ran]
  exact ⟨⟨watches.toLooks.trans looked.toLooks, fun still => (watches.unwaited still).trans looked⟩,
    List.mem_append_right _ List.mem_cons_self⟩

theorem wait_looks (queue : Queue) (fence : Nat) :
    Action.Meets (Looks start) (Action.on machineOf (Machine.wait queue fence))
      (fun _ => Looks (δ := δ) start) fun past _ => ¬ Unfailed past := by
  intro past s looks
  rcases Machine.wait_run queue fence s.machine with ⟨error, device, ran⟩ | ⟨device, outcome, ran⟩
  · rw [Action.on_of_run machineOf ran]
    intro unfailed
    cases unfailed _ (List.mem_append_right _ List.mem_cons_self)
  · rw [Action.on_of_run machineOf ran]
    exact looks.tell rfl _

theorem waitFor_looks (queue : Queue) (fence : Nat) :
    Action.Meets (Looks start) (waitFor queue fence)
      (fun _ past s => Looks (δ := δ) start past s ∧ Come queue fence past)
      fun past _ => start.recording.get queue ≤ fence ∨ ¬ Unfailed past := by
  refine Action.meets_via (fun known past s => Looks start past s ∧ .observed queue known ∈ past)
    (fun past s looks => ?_) fun known => ?_
  · obtain ⟨after, ran, looked⟩ := completedFence_run queue s
    rw [ran]
    exact ⟨looks.trans looked.toLooks, List.mem_append_right _ List.mem_cons_self⟩
  by_cases come : fence ≤ known
  · rw [if_pos come]
    exact Action.meets_pure fun past s both => ⟨both.1, known, both.2, come⟩
  rw [if_neg come]
  refine Action.meets_bind (recordingFence_reads queue) fun recording => ?_
  by_cases unsubmitted : recording ≤ fence
  · rw [if_pos unsubmitted]
    refine Action.meets_via (fun _ _ _ => start.recording.get queue ≤ fence) ?_ fun _ =>
      Action.meets_refuse fun _ _ below => .inl below
    rintro past s ⟨⟨looks, -⟩, rfl⟩
    exact looks.recording ▸ unsubmitted
  · rw [if_neg unsubmitted]
    refine Action.meets_bind (Action.meets_weaken (wait_looks queue fence)
      (fun _ _ all => all.1.1) (fun _ _ _ looks => looks) fun _ _ failed => .inr failed) fun _ => ?_
    exact Action.meets_bind (observe_looks queue fence) fun seen =>
      Action.meets_pure fun past s all => ⟨all.1, seen, all.2⟩

theorem waitEach_settles (fences : Fences) (queues : List Queue) (waited : Bool) :
    Action.Meets (Watches waited start) (waitEach fences queues waited)
      (fun answer past s => Unfailed past → Looks (δ := δ) start past s ∧
        (answer = false → waited = false ∧ Reads start past s) ∧
        ∀ queue ∈ queues, Settled fences start.recording queue past)
      fun _ _ => True := by
  induction queues generalizing waited with
  | nil =>
    exact Action.meets_pure fun past s watches _ =>
      ⟨watches.toLooks, fun still => ⟨still, watches.unwaited still⟩,
        fun _ none => absurd none List.not_mem_nil⟩
  | cons queue rest ih =>
    -- The queue is settled from here on, whatever is done about the rest.
    have settled (waited' : Bool) (follows : waited' = false → waited = false) :
        Action.Meets (fun past s => Settled fences start.recording queue past ∧
            Watches waited' start past s) (waitEach fences rest waited')
          (fun answer past s => Unfailed past → Looks (δ := δ) start past s ∧
            (answer = false → waited = false ∧ Reads start past s) ∧
            ∀ other ∈ queue :: rest, Settled fences start.recording other past)
          fun _ _ => True := by
      refine Action.meets_weaken (Action.meets_lasting _ Settled.append (ih waited'))
        (fun _ _ held => held) (fun answer past s both unfailed => ?_) fun _ _ _ => trivial
      obtain ⟨looks, still, others⟩ := both.2 unfailed
      exact ⟨looks, fun none => ⟨follows (still none).1, (still none).2⟩,
        List.forall_mem_cons.mpr ⟨both.1, others⟩⟩
    unfold waitEach
    dsimp only
    by_cases unused : fences.get queue = 0
    · rw [if_pos unused]
      exact Action.meets_before (settled waited id) fun _ _ watches => ⟨.inl unused, watches⟩
    rw [if_neg unused]
    refine Action.meets_bind (recordingFence_reads queue) fun recording => Action.meets_given
      (fun past s both => both.2.trans (congrArg (PerQueue.get · queue) both.1.recording)) ?_
    rintro rfl
    refine Action.meets_before ?_ fun _ _ both => both.1
    by_cases unsubmitted : start.recording.get queue ≤ fences.get queue
    · rw [if_pos unsubmitted]
      exact Action.meets_before (settled waited id) fun _ _ watches =>
        ⟨.inr (.inl unsubmitted), watches⟩
    rw [if_neg unsubmitted]
    refine Action.meets_bind (completedFence_watches waited queue) fun known => ?_
    by_cases come : fences.get queue ≤ known
    · rw [if_pos come]
      exact Action.meets_before (settled waited id) fun _ _ both =>
        ⟨.inr (.inr ⟨known, both.2, come⟩), both.1⟩
    rw [if_neg come]
    refine Action.meets_bind (Action.meets_weaken (Action.meets_attempt
      (waitFor_looks queue (fences.get queue))) (fun _ _ both => both.1.toLooks)
      (fun _ _ _ ended => ended) fun _ _ _ => trivial) fun result => ?_
    cases result with
    | ok _ =>
      refine Action.meets_before (settled true fun still => Bool.noConfusion still)
        fun _ _ both => ⟨.inr (.inr both.2), both.1, fun still => Bool.noConfusion still⟩
    | error error =>
      refine Action.meets_via (fun _ past _ => ¬ Unfailed past) (fun past s refused => ?_) fun _ =>
        Action.meets_pure fun _ _ failed unfailed => absurd unfailed failed
      exact fun unfailed => refused.elim unsubmitted fun failed =>
        failed (unfailed_append.mp unfailed).1

end Waiting

end Shared

end Reclaim
