import Reclaim.Context.Immediate
import Reclaim.Proofs.Context.Composition
import Reclaim.Proofs.Context.SharedClock

namespace Reclaim

variable {δ α : Type} {caller : Bool} {start : Clock} {recording : Fences}

namespace OnlineHeap

def Told (caller : Bool) (start : Clock) (recording : Fences) : Claims (OnlineHeap × Shared δ) :=
  fun past both => both.2.Told caller start recording past

theorem on_told {x : Action (Shared δ) α}
    (retains : Action.Retains (Shared.Told caller start recording) x) :
    Action.Retains (Told caller start recording) (Action.on sharedOf x) :=
  Action.meets_on (fun _ => rfl) fun _ => retains

theorem aside_told {x : Action (OnlineHeap × Shared δ) α} (still : Action.Timeless x)
    (keeps : Action.Keeps Prod.snd x) : Action.Retains (Told caller start recording) x := by
  refine Action.retains_of_runs fun past both told => ?_
  have same := keeps both
  exact Shared.Told.quiet told (still both) (congrArg Shared.known same)
    (congrArg Shared.recording same)

theorem note_told {note : Note} (still : (Event.noted note).isTimeless = true) :
    Action.Retains (Told (δ := δ) caller start recording) (Action.note note) :=
  aside_told (Action.timeless_note still) (Action.keeps_note note)

theorem ring_told {x : Action Ring α} (still : Action.Timeless x) :
    Action.Retains (Told (δ := δ) caller start recording) (Action.on ringOf x) :=
  aside_told (Action.timeless_on still) fun _ => rfl

theorem modify_told (f : OnlineHeap → OnlineHeap) :
    Action.Retains (Told (δ := δ) caller start recording) (Action.on heapOf (Action.modify f)) :=
  aside_told (Action.timeless_on (Action.timeless_modify f)) fun _ => rfl

theorem gpuBaseOf_told (object : HeapObject) :
    Action.Retains (Shared.Told (δ := δ) caller start recording) (gpuBaseOf object) := by
  unfold gpuBaseOf
  split
  · exact Action.retains_pure _
  · exact Action.retains_bind (Shared.drop_told _) fun _ => Action.retains_refuse _

theorem reclaimSlots_told (completed : Nat) :
    Action.Retains (Told (δ := δ) caller start recording) (reclaimSlots completed) :=
  ring_told (Ring.timeless_deallocate completed)

theorem trim_told (threshold completed : Nat) :
    Action.Retains (Told (δ := δ) caller start recording) (trim threshold completed) := by
  apply Action.retains_look
  intro both
  dsimp only
  split
  · exact Action.retains_pure _
  refine Action.retains_bind (aside_told (Action.timeless_modify _) fun _ => rfl) fun _ => ?_
  exact Action.retains_bind (on_told (Shared.drop_told _)) fun _ => Action.retains_pure _

theorem beside_told {heap : OnlineHeap} {x : Action (Shared δ) α}
    (retains : Action.Retains (Shared.Told caller start recording) x) :
    Action.Meets (fun past both => both.1 = heap ∧ Told caller start recording past both)
      (Action.on sharedOf x)
      (fun _ past both => both.1 = heap ∧ Told caller start recording past both)
      (Told caller start recording) := by
  refine Action.meets_on (fun _ => rfl) fun both => ?_
  exact Action.meets_weaken (Action.meets_lasting (fun _ => both.1 = heap) (fun _ _ same => same)
    retains) (fun _ _ held => held) (fun _ _ _ held => held) fun _ _ stopped => stopped.2

theorem exchange_told (old : OnlineHeap) (fence : Nat) (object : HeapObject) :
    Action.Retains (Told (δ := δ) caller start recording) (exchange old fence object) := by
  apply Action.retains_bind (on_told (gpuBaseOf_told object))
  intro gpuBase
  apply Action.retains_bind (modify_told _)
  intro _
  exact Action.retains_look fun _ => note_told rfl

variable [Device δ]

theorem create_told (kind : Kind) (config : OnlineConfig) :
    Action.Retains (Shared.Told (δ := δ) caller start recording) (create kind config) := by
  unfold create
  split
  · exact Action.retains_refuse _
  apply Action.retains_bind (Shared.createHeap_told _)
  intro object
  apply Action.retains_bind (gpuBaseOf_told object)
  intro gpuBase
  split
  · exact Action.retains_bind (Shared.drop_told _) fun _ => Action.retains_refuse _
  · exact Action.retains_look fun _ => Action.retains_pure _

theorem grow_told (fence : Nat) :
    Action.Retains (Told (δ := δ) caller start recording) (grow fence) := by
  apply Action.retains_look
  intro both
  apply Action.retains_bind (on_told (Shared.createHeap_told _))
  intro object
  apply Action.retains_bind (on_told (gpuBaseOf_told object))
  intro gpuBase
  apply Action.retains_bind (on_told (Shared.retire_told _ _ _ _))
  intro _
  exact Action.retains_bind (modify_told _) fun _ => note_told rfl

-- Below the recorded batch is where a parked heap is waited for: a pool all of whose heaps are
-- under that batch is stalled.
theorem retrieve_told {heap : OnlineHeap} (completed : Nat)
    (moving : heap.isStalled recording.graphics = false) :
    Action.Meets (fun past both => both.1 = heap ∧ Told caller start recording past both)
      (BoundedPool.retrieve parkedOf completed
        (fun fence => Action.on sharedOf (Shared.waitFor .graphics fence))
        (Action.on sharedOf (Shared.createHeap heap.desc)))
      (fun _ => Told (δ := δ) caller start recording) (Told caller start recording) := by
  refine BoundedPool.retrieve_meets heap.parked
    (fun _ past both => both.1 = heap ∧ Told caller start recording past both)
    ?_ ?_ ?_ ?_ ?_
  · exact fun _ _ _ held => congrArg OnlineHeap.parked held.1
  · exact fun _ _ _ held => held.2
  · intro _
    exact Action.meets_before (on_told (Shared.createHeap_told _)) fun _ _ held => held.2
  · intro fence past both held
    exact ⟨held.1, note_told rfl past both held.2⟩
  · intro fence oldest
    have submitted : fence < recording.graphics := by
      simpa [isStalled, oldest] using moving
    exact beside_told (Shared.waited_told .graphics fence (.inr submitted))

theorem swap_told : Action.Retains (Told (δ := δ) caller start recording)
    (swap recording.graphics) := by
  rintro past ⟨heap, shared⟩ told
  refine swap_meets heap
    (fun _ past both => both.1 = heap ∧ Told caller start recording past both)
    ?_ (beside_told (Shared.completed_told .graphics)) ?_ ?_ ?_ (exchange_told heap _) past _
    ⟨rfl, told⟩
  · exact fun _ _ _ held => held.1
  · intro completed past both held
    exact ⟨held.1, note_told rfl past both held.2⟩
  · intro _ completed
    exact Action.meets_before (on_told (Shared.createHeap_told _)) fun _ _ held => held.2
  · exact fun moving completed => retrieve_told completed moving

theorem rolls_told : Action.Retains (Told (δ := δ) caller start recording) rollOver := by
  have reads : Action.Meets (Told (δ := δ) caller start recording)
      (Action.on sharedOf (Shared.recordingFence .graphics))
      (fun fence past both => Told caller start recording past both ∧
        fence = recording.graphics) (Told caller start recording) :=
    Action.meets_on (fun _ => rfl) fun _ => Shared.recordingFence_told .graphics
  refine Action.meets_bind reads fun fence => ?_
  refine Action.meets_given (fun past both seen => seen.2) ?_
  rintro rfl
  refine Action.meets_before ?_ fun past both seen => seen.1
  apply Action.retains_look
  intro both
  dsimp only
  split
  · exact grow_told _
  · exact swap_told

theorem reserve_told (slots : Nat) :
    Action.Retains (Told (δ := δ) caller start recording) (reserve slots) := by
  have reads : Action.Retains (Told (δ := δ) caller start recording)
      (Action.on sharedOf (Shared.recordingFence .graphics)) :=
    on_told (Action.meets_after (Shared.recordingFence_told .graphics) fun _ _ _ seen => seen.1)
  exact reserve_retains (fun _ => note_told rfl) reads
    (fun fence => ring_told (Ring.timeless_allocate slots fence))
    (on_told (Shared.completed_told .graphics)) reclaimSlots_told rolls_told

end OnlineHeap

namespace Shared

def Tells (caller : Bool) (start : Clock) : Claims (Shared δ) := fun past shared =>
  shared.Told caller start shared.recording past

theorem Told.tells {past : List Event} {shared : Shared δ}
    (told : shared.Told caller start recording past) : Tells caller start past shared := by
  obtain rfl := told.recording
  exact told

theorem tells_of_told {x : Action (Shared δ) α}
    (retains : ∀ recording, Action.Retains (Told caller start recording) x) :
    Action.Retains (Tells caller start) x := by
  intro past shared tells
  exact (retains shared.recording past shared tells).weaken (fun _ _ _ told => told.tells)
    fun _ _ told => told.tells

theorem closeBatch_tells (queue : Queue) :
    Action.Retains (Tells (δ := δ) caller start) (closeBatch queue) := by
  intro past shared tells
  exact Run.Ends.weaken (closeBatch_told queue past shared tells) (fun _ _ _ told => told.tells)
    fun _ _ tells => tells

end Shared

namespace Immediate

def Tells (caller : Bool) (start : Clock) : Claims (Immediate δ) := fun past immediate =>
  immediate.shared.Tells caller start past

theorem shared_tells {x : Action (Shared δ) α}
    (retains : Action.Retains (Shared.Tells caller start) x) :
    Action.Retains (Tells caller start) (Action.on sharedOf x) :=
  Action.meets_on (fun _ => rfl) fun _ => retains

theorem online_tells {part : Part (Immediate δ) (OnlineHeap × Shared δ)}
    {x : Action (OnlineHeap × Shared δ) α}
    (reads : ∀ immediate, (part.get immediate).2 = immediate.shared)
    (writes : ∀ both immediate, (part.put both immediate).shared = both.2)
    (retains : ∀ recording, Action.Retains (OnlineHeap.Told caller start recording) x) :
    Action.Retains (Tells caller start) (Action.on part x) := by
  intro past immediate tells
  have told : OnlineHeap.Told caller start immediate.shared.recording past
      (part.get immediate) := by
    unfold OnlineHeap.Told
    rw [reads]
    exact tells
  have ends := retains _ past _ told
  have after : ∀ now both, OnlineHeap.Told caller start immediate.shared.recording now both →
      Tells caller start now (part.put both immediate) := by
    intro now both told
    unfold Tells
    rw [writes]
    exact told.tells
  exact ends.image (part.put · immediate) (fun _ => after) after

theorem view_tells {x : Action (OnlineHeap × Shared δ) α}
    (retains : ∀ recording, Action.Retains (OnlineHeap.Told caller start recording) x) :
    Action.Retains (Tells caller start) (Action.on viewOf x) :=
  online_tells (fun _ => rfl) (fun _ _ => rfl) retains

theorem sampler_tells {x : Action (OnlineHeap × Shared δ) α}
    (retains : ∀ recording, Action.Retains (OnlineHeap.Told caller start recording) x) :
    Action.Retains (Tells caller start) (Action.on samplerOf x) :=
  online_tells (fun _ => rfl) (fun _ _ => rfl) retains

theorem note_tells {note : Note} (still : (Event.noted note).isTimeless = true) :
    Action.Retains (Tells (δ := δ) caller start) (Action.note note) := by
  intro past immediate tells
  exact (Shared.note_told still past immediate.shared tells).tells

theorem closeEach_tells (mask : QueueMask) (queues : List Queue) (fences : Fences) :
    Action.Retains (Tells (δ := δ) caller start) (closeEach mask queues fences) := by
  induction queues generalizing fences with
  | nil => exact Action.retains_pure _
  | cons queue rest ih =>
    unfold closeEach
    split
    · exact Action.retains_bind (shared_tells (Shared.closeBatch_tells queue)) fun _ => ih _
    · exact ih fences

theorem trimOnline_told (threshold completed : Nat) (recording : Fences) :
    Action.Retains (OnlineHeap.Told (δ := δ) caller start recording) (do
      OnlineHeap.reclaimSlots completed
      let _ ← OnlineHeap.trim threshold completed) := by
  apply Action.retains_bind (OnlineHeap.reclaimSlots_told completed)
  intro _
  exact Action.retains_bind (OnlineHeap.trim_told threshold completed) fun _ =>
    Action.retains_pure _

variable [Device δ]

theorem trim_tells : Action.Retains (Tells (δ := δ) caller start) trim := by
  apply Action.retains_bind (shared_tells (Shared.tells_of_told fun _ => Shared.trim_told))
  intro freed
  apply Action.retains_bind
    (shared_tells (Shared.tells_of_told fun _ => Shared.completed_told .graphics))
  intro completed
  apply Action.retains_look
  intro immediate
  apply Action.retains_bind (view_tells (trimOnline_told _ completed))
  intro _
  apply Action.retains_bind (sampler_tells (trimOnline_told _ completed))
  intro _
  exact Action.retains_pure _

theorem submit_tells (queue : Queue) :
    Action.Retains (Tells (δ := δ) caller start) (submit queue) := by
  apply Action.retains_bind (shared_tells (Shared.closeBatch_tells queue))
  intro fence
  apply Action.retains_bind (note_tells rfl)
  intro _
  exact Action.retains_bind trim_tells fun _ => Action.retains_pure _

theorem flush_tells (mask : QueueMask) :
    Action.Retains (Tells (δ := δ) caller start) (flush mask) := by
  apply Action.retains_bind (closeEach_tells mask _ _)
  intro fences
  exact Action.retains_bind trim_tells fun _ => Action.retains_pure _

-- The batch before the recorded one has been submitted.
theorem waitForIdle_tells (queue : Queue) :
    Action.Retains (Tells (δ := δ) caller start) (waitForIdle queue) := by
  have trims : Action.Retains (Tells (δ := δ) caller start) (do let _ ← trim) :=
    Action.retains_bind trim_tells fun _ => Action.retains_pure _
  intro past immediate tells
  let recording := immediate.shared.recording
  let told : Claims (Immediate δ) := fun past now => now.shared.Told caller start recording past
  have reads : Action.Meets told (Action.on sharedOf (Shared.recordingFence queue))
      (fun read past now => told past now ∧ read = recording.get queue) (Tells caller start) :=
    Action.meets_on (fun _ => rfl) fun _ => Shared.recordingFence_told queue
  refine Action.meets_bind reads (fun read => ?_) past immediate tells
  refine Action.meets_via (fun last past now => told past now ∧
    (0 < last → last < recording.get queue)) ?_ fun last => ?_
  · intro past now seen
    obtain ⟨held, rfl⟩ := seen
    rw [← List.append_nil past] at held
    unfold Word.sub
    split
    · exact ⟨held, fun some_last => by omega⟩
    · exact held.tells
  dsimp only
  by_cases submitted : 0 < last
  · rw [if_pos submitted]
    refine Action.meets_given (fun past now seen => seen.2 submitted) fun below => ?_
    have waits : Action.Meets told (Action.on sharedOf (Shared.waitFor queue last))
        (fun _ past now => told past now ∧ last ≤ now.shared.known.get queue) told :=
      Action.meets_on (fun _ => rfl) fun _ => Shared.waitFor_told queue last (.inr below)
    refine Action.meets_bind (Action.meets_weaken waits (fun _ _ seen => seen.1)
      (fun _ _ _ reached => reached.1.tells) fun _ _ held => Shared.Told.tells held) fun _ => trims
  · rw [if_neg submitted]
    exact Action.meets_before trims fun _ _ seen => seen.1.tells

theorem createHeaps_tells (config : Config) :
    Action.Retains (Shared.Told (δ := δ) caller start recording) (createHeaps config) := by
  apply Action.retains_bind (OnlineHeap.create_told .view config.viewHeap)
  intro view
  apply Action.retains_bind
    (Action.retains_attempt (OnlineHeap.create_told .sampler config.samplerHeap))
  intro result
  cases result with
  | ok sampler => exact Action.retains_pure _
  | error error =>
    exact Action.retains_bind (Action.retains_each (fun _ => Shared.drop_told _) _) fun _ =>
      Action.retains_refuse _

theorem settle_tells : Action.Retains (Tells (δ := δ) caller start) settle := by
  apply Action.retains_each
  intro queue
  apply Action.retains_bind (Action.retains_attempt (waitForIdle_tells queue))
  intro result
  cases result with
  | ok _ => exact Action.retains_pure _
  | error error => exact note_tells rfl

end Immediate

end Reclaim
