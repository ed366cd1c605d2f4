import Reclaim.Proofs.Context.Leases
import Reclaim.Proofs.Context.Looking
import Reclaim.Proofs.Context.Tries

namespace Reclaim

def Retired.berth? (entry : Retired Retiree) : Option Berth :=
  match entry.object with
  | .heap object => some ⟨object.serial, fun lease =>
      entry.completion = true ∧ lease.fence ≤ entry.last.graphics⟩
  | .object _ => none

namespace Shared

variable {δ : Type}

def berths (shared : Shared δ) : List Berth := shared.retired.objects.filterMap Retired.berth?

-- Leases are upheld by the retired objects and by what lies at the other berths; the queue is known
-- to have come as far as `floor`.
structure Upholds (leases : List Lease) (berths : List Berth) (now floor : Nat)
    (past : List Event) (shared : Shared δ) : Prop where
  upheld : Upheld leases (berths ++ shared.berths) now past shared.known.graphics
    shared.machine.heapsMade
  recording : shared.recording.graphics = now
  blocks : shared.retired.blocks = []
  floor : floor ≤ shared.known.graphics

variable {leases : List Lease} {berths : List Berth} {berth : Berth} {now floor : Nat}
  {past events : List Event} {shared after : Shared δ}

namespace Upholds

theorem quiet (holds : shared.Upholds leases berths now floor past)
    (still : quiet events) (known : after.known.graphics = shared.known.graphics)
    (recording : after.recording.graphics = shared.recording.graphics)
    (heapsMade : after.machine.heapsMade = shared.machine.heapsMade)
    (retired : after.retired = shared.retired) :
    after.Upholds leases berths now floor (past ++ events) where
  upheld := by
    unfold Shared.berths
    rw [known, heapsMade, retired]
    exact holds.upheld.quiet still
  recording := recording.trans holds.recording
  blocks := retired ▸ holds.blocks
  floor := known ▸ holds.floor

theorem lower {lower : Nat} (holds : shared.Upholds leases berths now floor past)
    (le : lower ≤ floor) : shared.Upholds leases berths now lower past :=
  { holds with floor := Nat.le_trans le holds.floor }

theorem perm {others : List Berth} (holds : shared.Upholds leases berths now floor past)
    (same : berths.Perm others) : shared.Upholds leases others now floor past :=
  { holds with upheld := holds.upheld.perm (same.append_right _) }

theorem change {honours : Lease → Prop}
    (holds : shared.Upholds leases (berth :: berths) now floor past)
    (enough : ∀ lease ∈ leases, berth.honours lease →
      lease.fence ≤ shared.known.graphics ∨ honours lease) :
    shared.Upholds leases (⟨berth.serial, honours⟩ :: berths) now floor past :=
  { holds with upheld := holds.upheld.change enough }

end Upholds

section Reading

variable {failed : Claims (Shared δ)}

theorem note_upholds (note : Note) :
    Action.Meets (Shared.Upholds leases berths now floor) (Action.note note)
      (fun _ => Shared.Upholds leases berths now floor) failed :=
  fun _ _ holds => holds.quiet (quiet_notes [note]) rfl rfl rfl rfl

theorem observe_upholds (queue : Queue) (fence : Nat) :
    Action.Meets (Shared.Upholds leases berths now floor) (observe queue fence)
      (fun known past s => s.Upholds leases berths now floor past ∧ fence ≤ known ∧
        (queue = .graphics → known = s.known.graphics)) failed := by
  intro past s holds
  refine ⟨?_, Nat.le_max_right _ _, ?_⟩
  · by_cases graphics : queue = .graphics
    · subst graphics
      exact {
        upheld := holds.upheld.know (Nat.le_max_left _ _)
        recording := holds.recording
        blocks := holds.blocks
        floor := Nat.le_trans holds.floor (Nat.le_max_left _ _) }
    · cases queue with
      | graphics => exact absurd rfl graphics
      | compute | copy => exact holds.quiet rfl rfl rfl rfl rfl
  · intro graphics
    subst graphics
    rfl

variable [Device δ]

theorem completedFence_upholds (queue : Queue) :
    Action.Meets (Shared.Upholds leases berths now floor) (completedFence queue)
      (fun known past s => s.Upholds leases berths now floor past ∧
        (queue = .graphics → known = s.known.graphics)) failed := by
  refine Action.meets_via (fun _ => Shared.Upholds leases berths now floor)
    (fun past s holds => ?_) fun fence => Action.meets_after (observe_upholds queue fence)
      fun _ _ _ reached => ⟨reached.1, reached.2.2⟩
  exact holds.quiet (show quiet [] from rfl) rfl rfl rfl rfl

theorem completed_floor :
    Action.Meets (Shared.Upholds leases berths now floor) (completedFence .graphics)
      (fun known => Shared.Upholds leases berths now known) failed :=
  Action.meets_after (completedFence_upholds .graphics) fun _ _ _ reached =>
    { reached.1 with floor := Nat.le_of_eq (reached.2 rfl) }

theorem isDone_upholds (completion : Bool) (queue : Queue) (fence : Nat) :
    Action.Meets (Shared.Upholds leases berths now floor) (reading.isDone completion queue fence)
      (fun done past s => s.Upholds leases berths now floor past ∧
        (done = true → completion = true → queue = .graphics → fence ≤ s.known.graphics))
      failed := by
  unfold Reading.isDone
  by_cases unused : fence = 0
  · rw [if_pos unused]
    exact Action.meets_pure fun past s holds => ⟨holds, fun _ _ _ => unused ▸ Nat.zero_le _⟩
  rw [if_neg unused]
  cases completion with
  | true =>
    refine Action.meets_bind (completedFence_upholds queue) fun known =>
      Action.meets_pure fun past s both => ⟨both.1, fun done _ graphics => ?_⟩
    rw [← both.2 graphics]
    exact of_decide_eq_true done
  | false =>
    exact Action.meets_bind (recordingFence_reads queue) fun recording =>
      Action.meets_pure fun past s both => ⟨both.1, nofun⟩

theorem allows_upholds (board : Board) (completion : Bool) (last : Fences) (waits : List Wait) :
    Action.Meets (Shared.Upholds leases berths now floor)
      (reading.allows board completion last waits)
      (fun goes past s => s.Upholds leases berths now floor past ∧
        (goes = true → completion = true → last.graphics ≤ s.known.graphics)) failed := by
  have others (floor : Nat) (queues : List Queue) : Action.Meets
      (Shared.Upholds (δ := δ) leases berths now floor) (reading.areDone completion last queues)
      (fun _ => Shared.Upholds leases berths now floor) failed :=
    Reading.areDone_composes (Action.meets_compositional _ _)
      (fun queue => Action.meets_after (completedFence_upholds queue) fun _ _ _ both => both.1)
      (fun queue => Action.meets_after (recordingFence_reads queue) fun _ _ _ both => both.1)
      completion last queues
  have done : Action.Meets (Shared.Upholds (δ := δ) leases berths now floor)
      (reading.areDone completion last Queue.all)
      (fun done past s => s.Upholds leases berths now floor past ∧
        (done = true → completion = true → last.graphics ≤ s.known.graphics)) failed := by
    refine Action.meets_bind (isDone_upholds completion .graphics last.graphics) fun done => ?_
    cases done with
    | false => exact Action.meets_pure fun past s both => ⟨both.1, nofun⟩
    | true =>
      cases completion with
      | false =>
        exact Action.meets_weaken (others floor [.compute, .copy]) (fun _ _ both => both.1)
          (fun _ _ _ holds => ⟨holds, fun _ => nofun⟩) fun _ _ stopped => stopped
      | true =>
        -- What has been seen of the graphics queue is the floor from here on.
        refine Action.meets_weaken (others (max floor last.graphics) [.compute, .copy])
          (fun _ _ both => ?_) (fun _ _ _ holds => ?_) fun _ _ stopped => stopped
        · exact { both.1 with floor := Nat.max_le.mpr ⟨both.1.floor, both.2 rfl rfl rfl⟩ }
        · exact ⟨holds.lower (Nat.le_max_left _ _),
            fun _ _ => Nat.le_trans (Nat.le_max_right _ _) holds.floor⟩
  refine Action.meets_bind done fun answer => ?_
  cases answer with
  | true => exact Action.meets_pure fun past s both => ⟨both.1, fun _ => both.2 rfl⟩
  | false => exact Action.meets_pure fun past s both => ⟨both.1, nofun⟩

end Reading

section Asking

variable [Device δ]

theorem wait_upholds (queue : Queue) (fence : Nat) :
    Action.Meets (Shared.Upholds (δ := δ) leases berths now floor)
      (Action.on machineOf (Machine.wait queue fence))
      (fun _ => Shared.Upholds leases berths now floor) (Shared.Upholds leases berths now 0) := by
  intro past s holds
  rcases Machine.wait_run queue fence s.machine with ⟨error, device, ran⟩ | ⟨device, outcome, ran⟩
  · rw [Action.on_of_run machineOf ran]
    exact (holds.lower (Nat.zero_le _)).quiet rfl rfl rfl rfl rfl
  · rw [Action.on_of_run machineOf ran]
    exact holds.quiet rfl rfl rfl rfl rfl

theorem waitFor_upholds (queue : Queue) (fence : Nat) :
    Action.Meets (Shared.Upholds (δ := δ) leases berths now floor) (waitFor queue fence)
      (fun _ past s => s.Upholds leases berths now floor past ∧
        (queue = .graphics → fence ≤ s.known.graphics)) (Shared.Upholds leases berths now 0) := by
  refine Action.meets_bind (completedFence_upholds queue) fun known => ?_
  by_cases come : fence ≤ known
  · rw [if_pos come]
    refine Action.meets_pure fun past s both => ⟨both.1, fun graphics => ?_⟩
    rw [← both.2 graphics]
    exact come
  · rw [if_neg come]
    refine Action.meets_bind (recordingFence_reads queue) fun recording => ?_
    by_cases unsubmitted : recording ≤ fence
    · rw [if_pos unsubmitted]
      refine Action.meets_bind (Action.meets_before (note_upholds _)
        fun _ _ all => all.1.1.lower (Nat.zero_le _)) fun _ => ?_
      exact Action.meets_refuse fun _ _ holds => holds
    · rw [if_neg unsubmitted]
      refine Action.meets_bind (Action.meets_before (wait_upholds queue fence)
        fun _ _ all => all.1.1) fun _ => ?_
      refine Action.meets_bind (observe_upholds queue fence) fun seen => ?_
      refine Action.meets_pure fun past s all => ⟨all.1, fun graphics => ?_⟩
      rw [← all.2.2 graphics]
      exact all.2.1

end Asking

section Retiring

variable {failed : Claims (Shared δ)}

def entryBerths (entries : List (Retired Retiree)) : List Berth :=
  entries.filterMap Retired.berth?

theorem drop_upholds (berth : Berth)
    (outlived : ∀ lease ∈ leases, berth.honours lease → lease.fence ≤ floor) :
    Action.Meets (Shared.Upholds leases (berth :: berths) now floor) (drop (.heap berth.serial))
      (fun _ => Shared.Upholds leases berths now floor) failed := by
  intro past s holds
  exact {
    upheld := holds.upheld.drop fun lease leased honoured =>
      Nat.le_trans (outlived lease leased honoured) holds.floor
    recording := holds.recording
    blocks := holds.blocks
    floor := holds.floor }

theorem drop_spare (serial : Nat) :
    Action.Meets (Shared.Upholds leases (.spare serial :: berths) now floor) (drop (.heap serial))
      (fun _ => Shared.Upholds leases berths now floor) failed :=
  drop_upholds (.spare serial) fun _ _ honoured => honoured.elim

theorem destroy_upholds {entry : Retired Retiree}
    (come : entry.completion = true → entry.last.graphics ≤ floor) :
    Action.Meets (Shared.Upholds leases (entryBerths [entry] ++ berths) now floor)
      (destroy entry.object) (fun _ => Shared.Upholds leases berths now floor) failed := by
  obtain ⟨object, last, completion, waits⟩ := entry
  cases object with
  | object id => exact fun past s holds => holds.quiet rfl rfl rfl rfl rfl
  | heap object =>
    refine drop_upholds ⟨object.serial, _⟩ fun lease leased honoured => ?_
    exact Nat.le_trans honoured.2 (come honoured.1)

theorem Upholds.part (more left : List Berth) (queue : Retirement Retiree Owner)
    (holds : shared.Upholds leases (more ++ berths) now floor past)
    (parted : (left ++ entryBerths queue.objects).Perm (more ++ shared.berths))
    (no_blocks : queue.blocks = []) :
    ({ shared with retired := queue } : Shared δ).Upholds leases (left ++ berths) now floor
      past where
  upheld := by
    refine holds.upheld.perm ?_
    change (more ++ berths ++ shared.berths).Perm (left ++ berths ++ entryBerths queue.objects)
    rw [List.append_assoc, List.append_assoc]
    refine (List.perm_append_comm_assoc ..).trans ?_
    refine (parted.symm.append_left berths).trans ?_
    exact List.perm_append_comm_assoc ..
  recording := holds.recording
  blocks := no_blocks
  floor := holds.floor

theorem change_upholds (f : Retirement Retiree Owner → Retirement Retiree Owner)
    (objects : ∀ queue, (f queue).objects = queue.objects)
    (blocks : ∀ queue, (f queue).blocks = queue.blocks) :
    Action.Meets (Shared.Upholds (δ := δ) leases berths now floor) (keeper.change f)
      (fun _ => Shared.Upholds leases berths now floor) failed :=
  Action.meets_before Action.meets_on_modify fun past s holds => by
    refine holds.part [] [] _ ?_ ((blocks _).trans holds.blocks)
    exact .of_eq (congrArg entryBerths (objects _))

variable [Device δ]

theorem trimObjects_upholds (board : Board) :
    Action.Meets (Shared.Upholds (δ := δ) leases berths now 0)
      (keeper.trimObjects reading board false) (fun _ => Shared.Upholds leases berths now 0)
      failed := by
  let holds (items : List (Retired Retiree)) : Claims (Shared δ) := fun past s =>
    s.retired.objects = items ∧ s.Upholds leases berths now 0 past
  let ready : List (Retired Retiree) → Claims (Shared δ)
    | [] => fun _ _ => True
    | item :: rest => fun past s => s.retired.objects = item :: rest ∧
      s.Upholds leases berths now 0 past ∧
        (item.completion = true → item.last.graphics ≤ s.known.graphics)
  have asks (item : Retired Retiree) (rest : List (Retired Retiree)) :
      Action.Meets (holds (item :: rest)) (item.mayGo reading board)
        (fun goes => if goes then ready (item :: rest) else Shared.Upholds leases berths now 0)
        failed := by
    have spared : Action.Keeps retired (item.mayGo (reading (δ := δ)) board) :=
      Reading.allows_composes (Action.keeps_compositional _) keeper_spares.completed
        keeper_spares.recording board _ _ _
    refine Action.meets_after (Action.meets_beside spared (·.objects = item :: rest)
      (allows_upholds board _ _ _)) fun goes past s both => ?_
    cases goes with
    | true => exact ⟨both.1, both.2.1, both.2.2 rfl⟩
    | false => exact both.2.1
  have takes (item : Retired Retiree) (rest : List (Retired Retiree)) :
      Action.Meets (ready (item :: rest)) (keeper.takeObject item rest) (fun _ => holds rest)
        failed := by
    let floor := if item.completion then item.last.graphics else 0
    have come : item.completion = true → item.last.graphics ≤ floor := fun complete => by
      simp [floor, complete]
    refine Action.meets_via (fun _ past s => s.retired.objects = rest ∧
        s.Upholds leases (entryBerths [item] ++ berths) now floor past)
      (Action.meets_before Action.meets_on_modify fun past s all => ⟨rfl, ?_⟩) fun _ => ?_
    · obtain ⟨line, upholds, reached⟩ := all
      have known : floor ≤ s.known.graphics := by
        cases complete : item.completion with
        | true => simpa [floor, complete] using reached complete
        | false => simp [floor, complete]
      have raised : s.Upholds leases ([] ++ berths) now floor past := { upholds with floor := known }
      refine raised.part [] (entryBerths [item]) _ (.of_eq ?_) upholds.blocks
      unfold Shared.berths
      rw [line]
      exact List.filterMap_append.symm
    · exact Action.meets_after (Action.meets_beside (keeps_drop _) (·.objects = rest)
        (destroy_upholds come)) fun _ _ _ both => ⟨both.1, both.2.lower (Nat.zero_le _)⟩
  refine Action.meets_bind Action.meets_get fun seen => Action.meets_before
    (Action.meets_drain (fun _ => holds) (fun _ => ready)
      (fun _ => Shared.Upholds leases berths now 0) (fun _ => asks) (fun _ => takes)
      (fun _ _ _ held => held.2) 0 _) fun past s both => ⟨both.2 ▸ rfl, both.1⟩

theorem trimRetired_upholds :
    Action.Meets (Shared.Upholds (δ := δ) leases berths now floor) (trimRetired false)
      (fun _ => Shared.Upholds leases berths now 0) failed := by
  have blocks : Action.Meets (Shared.Upholds (δ := δ) leases berths now 0)
      (keeper.trimBlocks reading false) (fun _ => Shared.Upholds leases berths now 0) failed := by
    refine Action.meets_bind Action.meets_get fun seen => Action.meets_given
      (fun past s both => both.2 ▸ both.1.blocks) fun none => ?_
    change Action.Meets _ (Action.drain _ _ seen.retired.blocks) _ _
    rw [none]
    exact Action.meets_pure fun _ _ both => both.1
  refine Action.meets_bind Action.meets_get fun shared => ?_
  refine Action.meets_bind (Action.meets_before (trimObjects_upholds shared.board)
    fun _ _ both => both.1.lower (Nat.zero_le _)) fun objects => ?_
  refine Action.meets_bind blocks fun blocks => ?_
  have ends : Action.Meets (Shared.Upholds (δ := δ) leases berths now 0)
      (do
        keeper.change fun queue =>
          { queue with
            destroyedObjects := queue.destroyedObjects + objects
            destroyedBlocks := queue.destroyedBlocks + blocks }
        return decide (0 < objects + blocks))
      (fun _ => Shared.Upholds leases berths now 0) failed :=
    Action.meets_bind (change_upholds _ (fun _ => rfl) fun _ => rfl) fun _ =>
      Action.meets_pure fun _ _ holds => holds
  split
  · exact Action.meets_bind (note_upholds _) fun _ => ends
  · exact ends

theorem retire_upholds {object : HeapObject} {honours : Lease → Prop} :
    Action.Meets (Shared.Upholds (δ := δ) leases (⟨object.serial, honours⟩ :: berths) now floor)
      (retire (.heap object) (.single .graphics now) true [])
      (fun _ => Shared.Upholds leases berths now 0) failed := by
  let entry : Retired Retiree := ⟨.heap object, .single .graphics now, true, []⟩
  refine Action.meets_bind Action.meets_get fun shared => Action.meets_given
    (fun past s both lease leased => (both.1.upheld.timely lease leased).2) fun timely => ?_
  refine Action.meets_bind (Action.meets_before (allows_upholds shared.board _ _ _)
    fun _ _ both => both.1) fun goes => ?_
  cases goes with
  | true =>
    refine Action.meets_via (fun _ => Shared.Upholds leases berths now now)
      (Action.meets_before (drop_upholds ⟨object.serial, honours⟩
        fun lease leased _ => timely lease leased) fun past s both => ?_) fun _ => ?_
    · exact { both.1 with floor := both.2 rfl rfl }
    · exact Action.meets_after (change_upholds _ (fun _ => rfl) fun _ => rfl)
        fun _ _ _ holds => holds.lower (Nat.zero_le _)
  | false =>
    refine Action.meets_before Action.meets_on_modify fun past s both => ?_
    have kept : s.Upholds leases (entryBerths [entry] ++ berths) now floor past :=
      both.1.change fun lease leased _ => .inr ⟨rfl, timely lease leased⟩
    refine (kept.part _ [] { s.retired with objects := s.retired.objects ++ [entry] } ?_
      both.1.blocks).lower (Nat.zero_le _)
    have waits : entryBerths (s.retired.objects ++ [entry]) = s.berths ++ entryBerths [entry] :=
      List.filterMap_append
    change (entryBerths (s.retired.objects ++ [entry])).Perm _
    rw [waits]
    exact List.perm_append_comm

end Retiring

section Allocating

variable [Device δ]

theorem waitEach_upholds (fences : Fences) (queues : List Queue) (waited : Bool) :
    Action.Meets (Shared.Upholds (δ := δ) leases berths now 0) (waitEach fences queues waited)
      (fun _ => Shared.Upholds leases berths now 0) (Shared.Upholds leases berths now 0) := by
  induction queues generalizing waited with
  | nil => exact Action.meets_pure fun _ _ holds => holds
  | cons queue rest ih =>
    unfold waitEach
    dsimp only
    by_cases unused : fences.get queue = 0
    · rw [if_pos unused]
      exact ih waited
    rw [if_neg unused]
    refine Action.meets_bind (recordingFence_reads queue) fun recording => ?_
    by_cases unsubmitted : recording ≤ fences.get queue
    · rw [if_pos unsubmitted]
      exact Action.meets_before (ih waited) fun _ _ both => both.1
    rw [if_neg unsubmitted]
    refine Action.meets_bind (Action.meets_before (completedFence_upholds queue)
      fun _ _ both => both.1) fun known => ?_
    by_cases come : fences.get queue ≤ known
    · rw [if_pos come]
      exact Action.meets_before (ih waited) fun _ _ both => both.1
    rw [if_neg come]
    refine Action.meets_bind (Action.meets_attempt (Action.meets_before
      (waitFor_upholds queue (fences.get queue)) fun _ _ both => both.1)) fun result => ?_
    cases result with
    | ok _ => exact Action.meets_before (ih true) fun _ _ both => both.1
    | error error =>
      exact Action.meets_bind (note_upholds _) fun _ => Action.meets_pure fun _ _ holds => holds

theorem reclaim_upholds :
    Action.Meets (Shared.Upholds (δ := δ) leases berths now 0) reclaim
      (fun _ => Shared.Upholds leases berths now 0) (Shared.Upholds leases berths now 0) := by
  refine Action.meets_bind trimRetired_upholds fun freed => ?_
  cases freed with
  | true => exact Action.meets_pure fun _ _ holds => holds
  | false =>
    refine Action.meets_bind Action.meets_get fun shared => ?_
    cases shared.retired.oldest? with
    | none => exact Action.meets_pure fun _ _ both => both.1
    | some fences =>
      refine Action.meets_bind (Action.meets_before (waitEach_upholds fences Queue.all false)
        fun _ _ both => both.1) fun waited => ?_
      cases waited with
      | true => exact trimRetired_upholds
      | false => exact Action.meets_pure fun _ _ holds => holds

theorem createHeap_upholds (desc : HeapDesc) :
    Action.Meets (Shared.Upholds (δ := δ) leases berths now floor) (createHeap desc)
      (fun object past s => s.Upholds leases (.spare object.serial :: berths) now 0 past ∧
        (madeHeaps past)[object.serial]? = some desc)
      (Shared.Upholds leases berths now 0) := by
  refine Action.meets_before (allocateWith_meets reclaim_upholds (note_upholds .retrying) ?_)
    fun _ _ holds => holds.lower (Nat.zero_le _)
  intro past s holds
  rcases Machine.createHeap_run desc s.machine with ⟨error, device, ran⟩ |
    ⟨cpuStart, gpuStart, device, outcome, made, ran⟩
  · rw [Action.on_of_run machineOf ran]
    exact holds.quiet rfl rfl rfl rfl rfl
  · rw [Action.on_of_run machineOf ran]
    obtain ⟨upheld, placed⟩ := holds.upheld.make (Event.made?_asked made)
    exact ⟨{ holds with upheld := upheld }, placed⟩

end Allocating

section Trimming

variable {failed : Claims (Shared δ)}

theorem trimBuffers_upholds (heap : BufferHeap) (completed : Nat) :
    Action.Meets (Shared.Upholds (δ := δ) leases berths now floor) (trimBuffers heap completed)
      (fun _ => Shared.Upholds leases berths now floor) failed := by
  refine Action.meets_bind Action.meets_get fun shared => ?_
  refine Action.meets_bind (Action.meets_before Action.meets_modify fun past s both =>
    (List.append_nil past ▸ both.1.quiet rfl rfl rfl rfl rfl :
        Upholds leases berths now floor past ((buffersOf heap).put _ s))) fun _ => ?_
  refine Action.meets_each (fun _ => Shared.Upholds leases berths now floor) fun buffer rest => ?_
  intro past s holds
  exact holds.quiet rfl rfl rfl rfl rfl

theorem trim_upholds [Device δ] :
    Action.Meets (Shared.Upholds (δ := δ) leases berths now floor) trim
      (fun _ => Shared.Upholds leases berths now 0) failed := by
  refine Action.meets_bind trimRetired_upholds fun freed => ?_
  refine Action.meets_bind completed_floor fun completed => ?_
  refine Action.meets_bind (trimBuffers_upholds .upload completed) fun _ => ?_
  refine Action.meets_bind (trimBuffers_upholds .readback completed) fun _ => ?_
  exact Action.meets_pure fun _ _ holds => holds.lower (Nat.zero_le _)

theorem closeBatch_upholds (queue : Queue) :
    Action.Meets (Shared.Upholds (δ := δ) leases berths now floor) (closeBatch queue)
      (fun _ => Shared.Upholds leases berths (if queue = .graphics then now + 1 else now) floor)
      failed := by
  intro past s holds
  have step : closeBatch queue s = ⟨.ok (s.recording.get queue),
      { s with recording := s.recording.set queue (s.recording.get queue + 1) },
      [.closed queue (s.recording.get queue)]⟩ := by
    simp [closeBatch, recordingFence]
  rw [step]
  cases queue with
  | graphics =>
    refine ⟨holds.upheld.close.quiet rfl, ?_, holds.blocks, holds.floor⟩
    exact congrArg (· + 1) holds.recording
  | compute | copy => exact holds.quiet rfl rfl rfl rfl rfl

end Trimming

end Shared

end Reclaim
