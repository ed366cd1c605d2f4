import Reclaim.Context.Immediate
import Reclaim.Proofs.Context.OnlineHeap

namespace Reclaim.Immediate

variable {δ α : Type} {leases : List Lease} {now floor later : Nat} {past : List Event}
  {immediate : Immediate δ}

structure Honours (leases : List Lease) (now floor : Nat) (past : List Event)
    (immediate : Immediate δ) : Prop where
  view : immediate.view.Fits past
  sampler : immediate.sampler.Fits past
  upholds : ∃ viewWaves samplerWaves, immediate.view.ring.Holds viewWaves ∧
    immediate.sampler.ring.Holds samplerWaves ∧ immediate.shared.Upholds leases
      (immediate.view.berths viewWaves ++ immediate.sampler.berths samplerWaves) now floor past

def Keeps (leases : List Lease) : Claims (Immediate δ) := fun past immediate =>
  ∃ now, immediate.Honours leases now 0 past

def online? (immediate : Immediate δ) : Kind → Option OnlineHeap
  | .view => some immediate.view
  | .sampler => some immediate.sampler
  | .target | .depth => none

-- The same context with its heaps the other way round.
def swapped (immediate : Immediate δ) : Immediate δ :=
  ⟨immediate.shared, immediate.sampler, immediate.view⟩

theorem Honours.lower (honours : immediate.Honours leases now floor past) :
    immediate.Honours leases now 0 past := by
  obtain ⟨view, sampler, viewWaves, samplerWaves, viewHolds, samplerHolds, upholds⟩ := honours
  exact ⟨view, sampler, viewWaves, samplerWaves, viewHolds, samplerHolds,
    upholds.lower (Nat.zero_le _)⟩

theorem Honours.swapped (honours : immediate.Honours leases now floor past) :
    immediate.swapped.Honours leases now floor past := by
  obtain ⟨view, sampler, viewWaves, samplerWaves, viewHolds, samplerHolds, upholds⟩ := honours
  exact ⟨sampler, view, samplerWaves, viewWaves, samplerHolds, viewHolds,
    upholds.perm List.perm_append_comm⟩

section Lifting

theorem meets_shared {x : Action (Shared δ) α} {reached : α → Nat}
    (meets : ∀ berths, Action.Meets (Shared.Upholds leases berths now floor) x
      (fun a => Shared.Upholds leases berths later (reached a))
      (Shared.Upholds leases berths now 0)) :
    Action.Meets (Honours leases now floor) (Action.on sharedOf x)
      (fun a => Honours leases later (reached a)) (Honours leases now 0) := by
  rintro past immediate ⟨view, sampler, viewWaves, samplerWaves, viewHolds, samplerHolds, upholds⟩
  have ran := meets _ past (sharedOf.get immediate) upholds
  rw [Action.run_on]
  match x (sharedOf.get immediate), ran with
  | ⟨.ok a, shared, events⟩, after =>
    exact ⟨view.append events, sampler.append events, viewWaves, samplerWaves, viewHolds,
      samplerHolds, after⟩
  | ⟨.error stop, shared, events⟩, after =>
    exact ⟨view.append events, sampler.append events, viewWaves, samplerWaves, viewHolds,
      samplerHolds, after⟩

variable {x : Action (OnlineHeap × Shared δ) α}
  {left : α → List Event → OnlineHeap × Shared δ → List Lease}

theorem meets_view
    (meets : ∀ others, Action.Meets (OnlineHeap.Honours leases others now floor) x
      (fun a past both => OnlineHeap.Honours (left a past both) others now later past both)
      (OnlineHeap.Honours leases others now later)) :
    Action.Meets (Honours leases now floor) (Action.on viewOf x)
      (fun a past immediate =>
        Honours (left a past (viewOf.get immediate)) now later past immediate)
      (Honours leases now later) := by
  rintro past immediate ⟨view, sampler, viewWaves, samplerWaves, viewHolds, samplerHolds, upholds⟩
  have ran := meets _ past (viewOf.get immediate) ⟨view, viewWaves, viewHolds, upholds⟩
  rw [Action.run_on]
  match x (viewOf.get immediate), ran with
  | ⟨.ok a, both, events⟩, ⟨fits, waves, holds, after⟩ =>
    exact ⟨fits, sampler.append events, waves, samplerWaves, holds, samplerHolds, after⟩
  | ⟨.error stop, both, events⟩, ⟨fits, waves, holds, after⟩ =>
    exact ⟨fits, sampler.append events, waves, samplerWaves, holds, samplerHolds, after⟩

-- What the one heap does, the other does the other way round.
theorem meets_sampler
    (meets : ∀ others, Action.Meets (OnlineHeap.Honours leases others now floor) x
      (fun a past both => OnlineHeap.Honours (left a past both) others now later past both)
      (OnlineHeap.Honours leases others now later)) :
    Action.Meets (Honours leases now floor) (Action.on samplerOf x)
      (fun a past immediate =>
        Honours (left a past (samplerOf.get immediate)) now later past immediate)
      (Honours leases now later) := by
  intro past immediate honours
  have ran := meets_view meets past immediate.swapped honours.swapped
  have turned : Action.on samplerOf x immediate = ⟨(Action.on viewOf x immediate.swapped).result,
      (Action.on viewOf x immediate.swapped).state.swapped,
      (Action.on viewOf x immediate.swapped).events⟩ := rfl
  rw [turned]
  match Action.on viewOf x immediate.swapped, ran with
  | ⟨.ok a, after, events⟩, kept => exact Honours.swapped kept
  | ⟨.error stop, after, events⟩, kept => exact Honours.swapped kept

end Lifting

section Operations

theorem meets_keeps {x : Action (Immediate δ) α} {later : Nat → Nat}
    (meets : ∀ now, Action.Meets (Honours leases now 0) x (fun _ => Honours leases (later now) 0)
      (Honours leases now 0)) :
    Action.Meets (Keeps leases) x (fun _ => Keeps leases) (Keeps leases) := by
  apply Action.meets_exists
  intro now
  exact Action.meets_weaken (meets now) (fun _ _ honours => honours)
    (fun _ _ _ honours => ⟨later now, honours⟩) fun _ _ honours => ⟨now, honours⟩

theorem note_keeps (note : Note) :
    Action.Meets (Keeps (δ := δ) leases) (Action.note note) (fun _ => Keeps leases)
      (Keeps leases) := by
  rintro past immediate ⟨now, view, sampler, viewWaves, samplerWaves, viewHolds, samplerHolds, upholds⟩
  exact ⟨now, view.append _, sampler.append _, viewWaves, samplerWaves, viewHolds, samplerHolds,
    upholds.quiet (quiet_notes [note]) rfl rfl rfl rfl⟩

theorem closeBatch_keeps (queue : Queue) :
    Action.Meets (Keeps (δ := δ) leases) (Action.on sharedOf (Shared.closeBatch queue))
      (fun _ => Keeps leases) (Keeps leases) :=
  meets_keeps fun _ => meets_shared fun _ => Shared.closeBatch_upholds queue

theorem closeEach_keeps (mask : QueueMask) (queues : List Queue) (fences : Fences) :
    Action.Meets (Keeps (δ := δ) leases) (closeEach mask queues fences) (fun _ => Keeps leases)
      (Keeps leases) := by
  induction queues generalizing fences with
  | nil => exact Action.meets_pure fun _ _ keeps => keeps
  | cons queue rest ih =>
    unfold closeEach
    by_cases closes : mask.has queue = true
    · rw [if_pos closes]
      exact Action.meets_bind (closeBatch_keeps queue) fun fence => ih _
    · rw [if_neg closes]
      exact ih fences

theorem trimOnline_keeps {part : Part (Immediate δ) (OnlineHeap × Shared δ)} {kind : Kind}
    (online : onlineOf? kind = some part) (threshold completed : Nat) :
    Action.Meets (Honours leases now completed) (trimOnline part threshold completed)
      (fun _ => Honours leases now completed) (Honours leases now completed) := by
  have trims (others : List Berth) : Action.Meets
      (OnlineHeap.Honours leases others now completed)
      (do
        OnlineHeap.reclaimSlots completed
        let _ ← OnlineHeap.trim threshold completed)
      (fun _ => OnlineHeap.Honours leases others now completed)
      (OnlineHeap.Honours (δ := δ) leases others now completed) := by
    refine Action.meets_bind (OnlineHeap.deallocate_honours completed) fun _ => ?_
    refine Action.meets_bind (OnlineHeap.trim_honours threshold completed) fun _ => ?_
    exact Action.meets_pure fun _ _ honours => honours
  cases kind with
  | view =>
    cases online
    exact meets_view trims
  | sampler =>
    cases online
    exact meets_sampler trims
  | target | depth => cases online

variable [Device δ]

theorem trim_honours :
    Action.Meets (Honours (δ := δ) leases now floor) trim (fun _ => Honours leases now 0)
      (Honours leases now 0) := by
  refine Action.meets_bind (meets_shared fun _ => Shared.trim_upholds) fun freed => ?_
  refine Action.meets_bind (meets_shared fun _ => Shared.completed_floor) fun completed => ?_
  refine Action.meets_bind Action.meets_get fun seen => ?_
  have one (kind : Kind) (part : Part (Immediate δ) (OnlineHeap × Shared δ))
      (online : onlineOf? kind = some part) :
      Action.Meets (Honours leases now completed)
        (trimOnline part seen.shared.config.trimThreshold completed)
        (fun _ => Honours leases now completed) (Honours leases now 0) :=
    Action.meets_weaken (trimOnline_keeps online _ completed) (fun _ _ honours => honours)
      (fun _ _ _ honours => honours) fun _ _ honours => honours.lower
  refine Action.meets_bind (Action.meets_before (one .view viewOf rfl) fun _ _ both => both.1)
    fun _ => ?_
  refine Action.meets_bind (one .sampler samplerOf rfl) fun _ => ?_
  exact Action.meets_pure fun _ _ honours => honours.lower

theorem trim_keeps :
    Action.Meets (Keeps (δ := δ) leases) trim (fun _ => Keeps leases) (Keeps leases) :=
  meets_keeps fun _ => trim_honours

theorem submit_keeps (queue : Queue) :
    Action.Meets (Keeps (δ := δ) leases) (submit queue) (fun _ => Keeps leases) (Keeps leases) := by
  refine Action.meets_bind (closeBatch_keeps queue) fun fence => ?_
  refine Action.meets_bind (note_keeps _) fun _ => ?_
  refine Action.meets_bind trim_keeps fun _ => ?_
  exact Action.meets_pure fun _ _ keeps => keeps

theorem flush_keeps (mask : QueueMask) :
    Action.Meets (Keeps (δ := δ) leases) (flush mask) (fun _ => Keeps leases) (Keeps leases) := by
  refine Action.meets_bind (closeEach_keeps mask Queue.all .unused) fun fences => ?_
  refine Action.meets_bind trim_keeps fun _ => ?_
  exact Action.meets_pure fun _ _ keeps => keeps

theorem waitFor_keeps (queue : Queue) (fence : Nat) :
    Action.Meets (Keeps (δ := δ) leases) (Action.on sharedOf (Shared.waitFor queue fence))
      (fun _ => Keeps leases) (Keeps leases) := by
  apply meets_keeps
  intro now
  apply meets_shared
  intro berths
  exact Action.meets_after (Shared.waitFor_upholds queue fence) fun _ _ _ both => both.1

theorem waitForIdle_keeps (queue : Queue) :
    Action.Meets (Keeps (δ := δ) leases) (waitForIdle queue) (fun _ => Keeps leases)
      (Keeps leases) := by
  have reads : Action.Meets (Keeps (δ := δ) leases)
      (Action.on sharedOf (Shared.recordingFence queue)) (fun _ => Keeps leases)
      (Keeps leases) := by
    rintro past immediate keeps
    rw [← List.append_nil past] at keeps
    exact keeps
  have finish : Action.Meets (Keeps (δ := δ) leases)
      (do
        let _ ← trim) (fun _ => Keeps leases) (Keeps leases) :=
    Action.meets_bind trim_keeps fun _ => Action.meets_pure fun _ _ keeps => keeps
  refine Action.meets_bind reads fun recording => ?_
  refine Action.meets_bind (Action.meets_checked _) fun last => ?_
  dsimp only
  by_cases submitted : 0 < last
  · rw [if_pos submitted]
    exact Action.meets_bind (waitFor_keeps queue last) fun _ => finish
  · rw [if_neg submitted]
    exact finish

theorem reserve_keeps (kind : Kind) (slots : Nat) :
    Action.Meets (Keeps (δ := δ) leases) (reserve kind slots)
      (fun reservation past immediate => ∃ heap, immediate.online? kind = some heap ∧
        Keeps (leases ++ [⟨heap.object.serial, reservation.first, slots,
          immediate.shared.recording.graphics, past⟩]) past immediate)
      (Keeps leases) := by
  apply Action.meets_exists
  intro now
  have leased {reservation : Reservation} {past : List Event} {immediate : Immediate δ}
      {heap : OnlineHeap}
      (honours : immediate.Honours (leases ++
        [OnlineHeap.leaseOf slots now reservation past (heap, immediate.shared)]) now 0 past) :
      Keeps (leases ++ [⟨heap.object.serial, reservation.first, slots,
        immediate.shared.recording.graphics, past⟩]) past immediate := by
    obtain ⟨viewWaves, samplerWaves, -, -, upholds⟩ := honours.upholds
    rw [upholds.recording]
    exact ⟨now, honours⟩
  cases kind with
  | view =>
    refine Action.meets_weaken (meets_view fun _ => OnlineHeap.reserve_honours slots)
      (fun _ _ honours => honours) ?_ fun _ _ honours => ⟨now, honours⟩
    intro reservation past immediate honours
    exact ⟨_, rfl, leased honours⟩
  | sampler =>
    refine Action.meets_weaken (meets_sampler fun _ => OnlineHeap.reserve_honours slots)
      (fun _ _ honours => honours) ?_ fun _ _ honours => ⟨now, honours⟩
    intro reservation past immediate honours
    exact ⟨_, rfl, leased honours⟩
  | target | depth => exact Action.meets_refuse fun _ _ honours => ⟨now, honours⟩

end Operations

section Opening

variable [Device δ]

theorem createHeaps_honours (config : Config) :
    Action.Meets (Shared.Upholds (δ := δ) leases [] now floor) (createHeaps config)
      (fun heaps past shared => Honours leases now 0 past ⟨shared, heaps.1, heaps.2⟩)
      (fun _ _ => True) := by
  have views : Action.Meets (Shared.Upholds (δ := δ) leases [] now floor)
      (OnlineHeap.create .view config.viewHeap)
      (fun view past shared => ∃ waves, view.ring.Holds waves ∧ view.Fits past ∧
        shared.Upholds leases (view.berths waves) now 0 past) (fun _ _ => True) := by
    refine Action.meets_weaken (OnlineHeap.create_honours .view config.viewHeap)
      (fun _ _ upholds => upholds) ?_ fun _ _ _ => trivial
    rintro view past shared ⟨fits, waves, holds, upholds⟩
    rw [List.append_nil] at upholds
    exact ⟨waves, holds, fits, upholds⟩
  refine Action.meets_bind views fun view => ?_
  apply Action.meets_exists
  intro waves
  refine Action.meets_given (fun _ _ both => both.1) fun holds => ?_
  have samplers : Action.Meets
      (fun past shared => view.ring.Holds waves ∧ view.Fits past ∧
        shared.Upholds leases (view.berths waves) now 0 past)
      (OnlineHeap.create .sampler config.samplerHeap)
      (fun sampler past (shared : Shared δ) => view.Fits past ∧
        OnlineHeap.Honours leases (view.berths waves) now 0 past (sampler, shared))
      (fun _ _ => True) :=
    Action.meets_weaken (Action.meets_lasting view.Fits (fun _ events fits => fits.append events)
      (OnlineHeap.create_honours .sampler config.samplerHeap)) (fun _ _ all => all.2)
      (fun _ _ _ both => both) fun _ _ _ => trivial
  refine Action.meets_bind (Action.meets_attempt samplers) fun made => ?_
  cases made with
  | ok sampler =>
    apply Action.meets_pure
    rintro past shared ⟨fits, samplerFits, samplerWaves, samplerHolds, upholds⟩
    exact ⟨fits, samplerFits, waves, samplerWaves, holds, samplerHolds,
      upholds.perm List.perm_append_comm⟩
  | error error =>
    exact Action.meets_bind (Action.meets_trivially _) fun _ =>
      Action.meets_refuse fun _ _ _ => trivial

end Opening

end Reclaim.Immediate
