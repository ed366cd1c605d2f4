import Reclaim.Proofs.Context.Clock
import Reclaim.Proofs.Context.Tries
import Reclaim.Proofs.Device

namespace Reclaim.Shared

variable {δ α κ : Type} {caller : Bool} {start : Clock} {recording : Fences} {past : List Event}
  {shared after : Shared δ} {failed : Claims (Shared δ)}

-- What has happened since the clock read `start` is what it may hear, and the shared part knows
-- what the clock shows. The batches recorded are these.
structure Told (caller : Bool) (start : Clock) (recording : Fences) (past : List Event)
    (shared : Shared δ) : Prop where
  accepts : start.Accepts caller past
  heard : start.after past = ⟨shared.known, recording⟩
  recording : shared.recording = recording

namespace Told

theorem none_yet (shared : Shared δ) :
    shared.Told caller ⟨shared.known, shared.recording⟩ shared.recording [] :=
  ⟨trivial, rfl, rfl⟩

theorem quiet {events : List Event} (told : shared.Told caller start recording past)
    (still : ∀ event ∈ events, event.isTimeless = true) (known : after.known = shared.known)
    (recorded : after.recording = shared.recording) :
    after.Told caller start recording (past ++ events) := by
  let clock : Clock := ⟨shared.known, recording⟩
  obtain ⟨accepted, kept⟩ : clock.Accepts caller events ∧ clock.after events = clock :=
    Clock.accepts_timeless still
  refine ⟨Clock.accepts_append.mpr ⟨told.accepts, ?_⟩, ?_, recorded.trans told.recording⟩
  · rw [told.heard]
    exact accepted
  · rw [Clock.after_append, told.heard, kept, known]

theorem hear {event : Event} {batches : Fences} (told : shared.Told caller start recording past)
    (admits : Clock.Admits caller ⟨shared.known, recording⟩ event)
    (next : Clock.hear ⟨shared.known, recording⟩ event = ⟨after.known, batches⟩)
    (recorded : after.recording = batches) :
    after.Told caller start batches (past ++ [event]) := by
  refine ⟨Clock.accepts_append.mpr ⟨told.accepts, ?_⟩, ?_, recorded⟩
  · rw [told.heard]
    exact ⟨admits, trivial⟩
  · rw [Clock.after_append, told.heard]
    exact next

end Told

theorem Told.rising {known recorded : Fences}
    (told : shared.Told caller ⟨known, recorded⟩ recording past) (queue : Queue) :
    known.get queue ≤ shared.known.get queue ∧
      recorded.get queue ≤ shared.recording.get queue := by
  have seen : known.get queue ≤ _ := told.accepts.known_le
  have closed : recorded.get queue ≤ _ := told.accepts.recording_le
  rw [told.heard] at seen closed
  rw [told.recording]
  exact ⟨seen, closed⟩

theorem timeless_told {x : Action (Shared δ) α} (still : Action.Timeless x)
    (keeps : Action.Keeps (fun shared => (shared.known, shared.recording)) x) :
    Action.Retains (Told caller start recording) x := by
  refine Action.retains_of_runs fun past shared told => ?_
  have same := keeps shared
  exact told.quiet (still shared) (congrArg Prod.fst same) (congrArg Prod.snd same)

theorem part_told {τ : Type} {part : Part (Shared δ) τ} {x : Action τ α}
    (still : Action.Timeless x)
    (aside : ∀ t (shared : Shared δ), ((part.put t shared).known, (part.put t shared).recording) =
      (shared.known, shared.recording)) :
    Action.Retains (Told caller start recording) (Action.on part x) :=
  timeless_told (Action.timeless_on still) (Action.keeps_on aside x)

theorem note_told {note : Note} (still : (Event.noted note).isTimeless = true) :
    Action.Retains (Told (δ := δ) caller start recording) (Action.note note) :=
  timeless_told (Action.timeless_note still) (Action.keeps_note note)

theorem drop_told (resource : Resource) :
    Action.Retains (Told (δ := δ) caller start recording) (drop resource) :=
  part_told (Machine.timeless_drop resource) fun _ _ => rfl

theorem giveBack_told (owner : Owner) (block : Block) :
    Action.Retains (Told (δ := δ) caller start recording) (giveBack owner block) := by
  unfold giveBack
  split
  · exact part_told (Dedicated.timeless_deallocate block) fun _ _ => rfl
  · exact part_told (Supply.timeless_deallocate block) fun _ _ => rfl

theorem recordingFence_told (queue : Queue) :
    Action.Meets (Told (δ := δ) caller start recording) (recordingFence queue)
      (fun fence past s => s.Told caller start recording past ∧ fence = recording.get queue)
      failed := by
  refine Action.meets_bind Action.meets_get fun s => Action.meets_pure fun past t seen => ?_
  obtain ⟨told, rfl⟩ := seen
  exact ⟨told, by rw [told.recording]⟩

theorem observe_told (queue : Queue) (fence : Nat) :
    Action.Meets (Told (δ := δ) caller start recording) (observe queue fence)
      (fun known past s => s.Told caller start recording past ∧ known = s.known.get queue ∧
        fence ≤ known) failed := by
  intro past s told
  refine ⟨told.hear (Nat.le_max_left _ _) rfl told.recording, ?_, Nat.le_max_right _ _⟩
  exact (PerQueue.get_set_same ..).symm

theorem closeBatch_told (queue : Queue) :
    Action.Meets (Told (δ := δ) caller start recording) (closeBatch queue)
      (fun _ => Told caller start (recording.set queue (recording.get queue + 1))) failed := by
  intro past s told
  obtain rfl := told.recording
  exact told.hear rfl rfl rfl

variable [Device δ]

theorem completedFence_told (queue : Queue) :
    Action.Meets (Told (δ := δ) caller start recording) (completedFence queue)
      (fun known past s => s.Told caller start recording past ∧ known = s.known.get queue)
      failed := by
  refine Action.meets_via (fun _ => Told caller start recording) (fun past s told => ?_)
    fun fence => Action.meets_after (observe_told queue fence) fun _ _ _ seen => ⟨seen.1, seen.2.1⟩
  exact told.quiet (List.forall_mem_nil _) rfl rfl

theorem completed_told (queue : Queue) :
    Action.Retains (Told (δ := δ) caller start recording) (completedFence queue) :=
  Action.meets_after (completedFence_told queue) fun _ _ _ seen => seen.1

theorem wait_told (queue : Queue) (fence : Nat) (submitted : fence < recording.get queue) :
    Action.Meets (fun past s => s.Told caller start recording past ∧ s.known.get queue < fence)
      (Action.on machineOf (Machine.wait queue fence))
      (fun _ => Told (δ := δ) caller start recording) (Told caller start recording) := by
  rintro past s ⟨told, unseen⟩
  rcases Machine.wait_run queue fence s.machine with ⟨error, device, ran⟩ | ⟨device, outcome, ran⟩
  · rw [Action.on_of_run machineOf ran]
    exact told.hear ⟨unseen, submitted⟩ rfl told.recording
  · rw [Action.on_of_run machineOf ran]
    exact told.hear ⟨unseen, submitted⟩ rfl told.recording

theorem waitFor_told (queue : Queue) (fence : Nat)
    (submitted : caller = true ∨ fence < recording.get queue) :
    Action.Meets (Told (δ := δ) caller start recording) (waitFor queue fence)
      (fun _ past s => s.Told caller start recording past ∧ fence ≤ s.known.get queue)
      (Told caller start recording) := by
  apply Action.meets_bind (completedFence_told queue)
  intro known
  by_cases come : fence ≤ known
  · rw [if_pos come]
    refine Action.meets_pure fun past s seen => ⟨seen.1, ?_⟩
    rw [← seen.2]
    exact come
  rw [if_neg come]
  refine Action.meets_via (fun read past s => s.Told caller start recording past ∧
    known = s.known.get queue ∧ read = recording.get queue) ?_ fun read => ?_
  · refine Action.meets_bind Action.meets_get fun s => Action.meets_pure fun past t seen => ?_
    obtain ⟨⟨told, known⟩, rfl⟩ := seen
    exact ⟨told, known, by rw [told.recording]⟩
  by_cases unsubmitted : read ≤ fence
  · rw [if_pos unsubmitted]
    refine Action.meets_via (fun _ => Told caller start recording) ?_ fun _ =>
      Action.meets_refuse fun _ _ told => told
    rintro past s ⟨told, -, rfl⟩
    refine told.hear ?_ rfl told.recording
    rcases submitted with asked | below
    · exact asked
    · omega
  · rw [if_neg unsubmitted]
    refine Action.meets_given (fun past s seen => seen.2.2) ?_
    rintro rfl
    refine Action.meets_bind (Action.meets_before
      (wait_told queue fence (Nat.not_le.mp unsubmitted)) ?_) fun _ => ?_
    · rintro past s ⟨told, rfl, -⟩
      exact ⟨told, Nat.not_le.mp come⟩
    · refine Action.meets_bind (observe_told queue fence) fun seen => Action.meets_pure ?_
      rintro past s ⟨told, rfl, reached⟩
      exact ⟨told, reached⟩

theorem waited_told (queue : Queue) (fence : Nat)
    (submitted : caller = true ∨ fence < recording.get queue) :
    Action.Retains (Told (δ := δ) caller start recording) (waitFor queue fence) :=
  Action.meets_after (waitFor_told queue fence submitted) fun _ _ _ reached => reached.1

theorem keeper_told :
    keeper.Handles (fun _ x => Action.Retains (Told (δ := δ) caller start recording) x) reading where
  completed := completed_told
  recording queue := Action.meets_after (recordingFence_told queue) fun _ _ _ seen => seen.1
  change _ := part_told (Action.timeless_modify _) fun _ _ => rfl
  destroy _ := drop_told _
  giveBack := giveBack_told
  tell _ _ := note_told rfl

theorem retire_told (retiree : Retiree) (last : Fences) (completion : Bool) (waits : List Wait) :
    Action.Retains (Told (δ := δ) caller start recording)
      (retire retiree last completion waits) :=
  Action.retains_look fun _ => keeper_told.addObject (Action.retains_compositional _) _ _

theorem retireBlock_told (suballocation : Suballocation) (last : Fences) :
    Action.Retains (Told (δ := δ) caller start recording) (retireBlock suballocation last) :=
  keeper_told.addBlock (Action.retains_compositional _) _

theorem trimRetired_told (teardown : Bool) :
    Action.Retains (Told (δ := δ) caller start recording) (trimRetired teardown) :=
  Action.retains_look fun _ => keeper_told.trim (Action.retains_compositional _) _ teardown

section Fallback

theorem waitEach_told (fences : Fences) (queues : List Queue) (waited : Bool) :
    Action.Retains (Told (δ := δ) caller start recording) (waitEach fences queues waited) := by
  induction queues generalizing waited with
  | nil => exact Action.retains_pure _
  | cons queue rest ih =>
    unfold waitEach
    dsimp only
    split
    · exact ih _
    apply Action.meets_bind (recordingFence_told queue)
    intro read
    refine Action.meets_given (fun past s seen => seen.2) ?_
    rintro rfl
    refine Action.meets_before ?_ fun past s seen => seen.1
    split
    · exact ih _
    rename_i submitted
    apply Action.retains_bind (completed_told queue)
    intro known
    split
    · exact ih _
    apply Action.retains_bind
      (Action.retains_attempt (waited_told queue _ (.inr (Nat.not_le.mp submitted))))
    intro result
    cases result with
    | ok _ => exact ih _
    | error error => exact Action.retains_bind (note_told rfl) fun _ => Action.retains_pure _

theorem reclaim_told : Action.Retains (Told (δ := δ) caller start recording) reclaim :=
  reclaim_composes (Action.retains_compositional _) (trimRetired_told false)
    fun fences => waitEach_told fences _ _

theorem tryAllocate_told {attempt : Attempt κ δ α}
    (tried : Action.Retains (fun past s => s.2.Told caller start recording past) attempt.run) :
    Action.Retains (fun past s => s.2.Told caller start recording past) (tryAllocate attempt) :=
  fun past s told => tryWithin_meets reclaim_told (note_told rfl) tried _ past s told

theorem allocateWith_told {x : Action (Shared δ) α} {kept : Action.Keeps Shared.retired x}
    (retains : Action.Retains (Told caller start recording) x) :
    Action.Retains (Told caller start recording) (allocateWith x kept) :=
  allocateWith_meets reclaim_told (note_told rfl) retains

end Fallback

section Allocations

theorem createHeap_told (desc : HeapDesc) :
    Action.Retains (Told (δ := δ) caller start recording) (createHeap desc) :=
  allocateWith_told (part_told (Machine.timeless_createHeap desc) fun _ _ => rfl)

theorem acquire_told (heap : BufferHeap) (size : Nat) :
    Action.Retains (Told (δ := δ) caller start recording) (acquire heap size) := by
  apply Action.retains_bind (completed_told .graphics)
  intro completed
  apply Action.retains_look
  intro shared
  dsimp only
  split
  · exact Action.retains_bind (timeless_told (Action.timeless_modify _) fun _ => rfl) fun _ =>
      Action.retains_pure _
  · refine Action.retains_bind (timeless_told (Action.timeless_checked _) ?_) fun bytes => ?_
    · intro s
      cases BucketPool.alignedSize _ _ <;> rfl
    · apply Action.retains_bind (note_told rfl)
      intro _
      exact allocateWith_told (part_told (Machine.timeless_createBuffer heap bytes) fun _ _ => rfl)

omit [Device δ] in
theorem release_told (heap : BufferHeap) (size : Nat) (buffer : Buffer) :
    Action.Retains (Told (δ := δ) caller start recording) (release heap size buffer) := by
  apply Action.retains_bind (Action.meets_after (recordingFence_told .graphics)
    fun _ _ _ seen => seen.1)
  intro fence
  apply Action.retains_look
  intro shared
  dsimp only
  split
  · exact timeless_told (Action.timeless_modify _) fun _ => rfl
  · exact Action.retains_bind (note_told rfl) fun _ => drop_told _

theorem allocateSlot_told (kind : Kind) :
    Action.Retains (Told (δ := δ) caller start recording) (allocateSlot kind) :=
  allocateWith_told (part_told SlotManager.timeless_allocate fun _ _ => rfl)

omit [Device δ] in
theorem freeSlot_told (kind : Kind) (handle : Handle) (index : Nat) :
    Action.Retains (Told (δ := δ) caller start recording) (freeSlot kind handle index) :=
  part_told (Action.timeless_on (SlotManager.timeless_free handle index)) fun _ _ => rfl

theorem suballocate_told (heap : BufferHeap) (size : Nat) (cannotBeOffset : Bool) :
    Action.Retains (Told (δ := δ) caller start recording)
      (suballocate heap size cannotBeOffset) := by
  apply Action.retains_look
  intro shared
  dsimp only
  split
  · refine Action.retains_bind (allocateWith_told (part_told (Dedicated.timeless_allocate size)
      fun _ _ => rfl)) fun block => ?_
    exact Action.retains_pure _
  · refine Action.retains_bind (allocateWith_told (part_told (Supply.timeless_allocate size)
      fun _ _ => rfl)) fun block => ?_
    exact Action.retains_pure _

end Allocations

omit [Device δ] in
theorem trimBuffers_told (heap : BufferHeap) (completed : Nat) :
    Action.Retains (Told (δ := δ) caller start recording) (trimBuffers heap completed) := by
  apply Action.retains_look
  intro shared
  refine Action.retains_bind (timeless_told (Action.timeless_modify _) fun _ => rfl) fun _ => ?_
  exact Action.retains_each (fun _ => drop_told _) _

theorem trim_told : Action.Retains (Told (δ := δ) caller start recording) trim := by
  apply Action.retains_bind (trimRetired_told false)
  intro freed
  apply Action.retains_bind (completed_told .graphics)
  intro completed
  apply Action.retains_bind (trimBuffers_told .upload completed)
  intro _
  exact Action.retains_bind (trimBuffers_told .readback completed) fun _ => Action.retains_pure _

omit [Device δ] in
theorem keeps_recording {x : Action (Shared δ) α}
    (retains : ∀ start recording, Action.Retains (Told true start recording) x) :
    Action.Keeps Shared.recording x := by
  intro shared
  exact ((retains _ _).run (.none_yet shared)).recording

theorem completedFence_keeps (queue : Queue) :
    Action.Keeps Shared.recording (completedFence (δ := δ) queue) :=
  keeps_recording fun _ _ => completed_told queue

theorem waitFor_keeps (queue : Queue) (fence : Nat) :
    Action.Keeps Shared.recording (waitFor (δ := δ) queue fence) :=
  keeps_recording fun _ _ => waited_told queue fence (.inl rfl)

theorem retire_keeps (retiree : Retiree) (last : Fences) (completion : Bool) (waits : List Wait) :
    Action.Keeps Shared.recording (retire (δ := δ) retiree last completion waits) :=
  keeps_recording fun _ _ => retire_told retiree last completion waits

theorem createHeap_keeps (desc : HeapDesc) :
    Action.Keeps Shared.recording (createHeap (δ := δ) desc) :=
  keeps_recording fun _ _ => createHeap_told desc

end Reclaim.Shared
