import Reclaim.Proofs.Context.Timelines
import Reclaim.Proofs.Ownership.Session
import Reclaim.Proofs.Ring.Grants

namespace Reclaim

variable {δ α β : Type}

namespace Wave

theorem opened?_below {places fence limit : Nat} {waves after : List Wave}
    (opened : opened? places fence waves = some after) (below : ∀ wave ∈ waves, wave.fence < limit)
    (near : fence < limit) : ∀ wave ∈ after, wave.fence < limit := by
  unfold opened? at opened
  split at opened
  · cases opened
    exact List.forall_mem_singleton.mpr near
  · split at opened
    · cases opened
      exact below
    · split at opened
      · cases opened
        exact List.forall_mem_append.mpr ⟨below, List.forall_mem_singleton.mpr near⟩
      · cases opened

end Wave

namespace Ring

-- The ring has so many slots and is a line of waves, all of them under batches below the limit.
def Sound (size limit : Nat) (ring : Ring) : Prop :=
  ring.size = size ∧ ∃ waves, ring.Holds waves ∧ ∀ wave ∈ waves, wave.fence < limit

variable {size limit : Nat} {ring : Ring}

theorem Sound.some_place (sound : ring.Sound size limit) : 0 < ring.places := by
  obtain ⟨-, waves, holds, -⟩ := sound
  exact Nat.lt_of_le_of_lt (Nat.zero_le _) holds.inside

theorem fresh_sound {places : Nat} (some_place : 0 < places) :
    (fresh size places).Sound size limit :=
  ⟨rfl, [], fresh_holds some_place, fun _ among => (List.not_mem_nil among).elim⟩

theorem Sound.reset {next : Nat} (sound : ring.Sound size limit) :
    (ring.reset next).Sound next limit :=
  fresh_sound sound.some_place

theorem Sound.mono {later : Nat} (sound : ring.Sound size limit) (le : limit ≤ later) :
    ring.Sound size later := by
  obtain ⟨same, waves, holds, below⟩ := sound
  exact ⟨same, waves, holds, fun wave among => Nat.lt_of_lt_of_le (below wave among) le⟩

theorem charged_below {older : List Wave} {newest : Wave} {slots : Nat}
    (below : ∀ wave ∈ older ++ [newest], wave.fence < limit) :
    ∀ wave ∈ older ++ [newest.charge slots], wave.fence < limit := by
  obtain ⟨before, last⟩ := List.forall_mem_append.mp below
  refine List.forall_mem_append.mpr ⟨before, List.forall_mem_singleton.mpr ?_⟩
  exact last newest List.mem_cons_self

theorem allocate_sound {slots fence : Nat} (near : fence < limit) :
    Action.Preserves (Sound size limit) (allocate slots fence) := by
  rintro ring ⟨rfl, waves, holds, below⟩
  obtain ⟨result, after, left, notes, ran, held, allocated⟩ := allocate_exact holds slots fence
  rw [ran]
  cases allocated with
  | unfit | nothing | ledgerFull => exact ⟨rfl, waves, holds, below⟩
  | tailFull _ _ opening took _ =>
    exact ⟨took.size, _, held, Wave.opened?_below opening below near⟩
  | ringFull _ _ opening took _ _ =>
    exact ⟨took.size, _, held, charged_below (Wave.opened?_below opening below near)⟩
  | granted _ _ opening took _ =>
    exact ⟨took.size, _, held, charged_below (Wave.opened?_below opening below near)⟩
  | overflow => exact trivial

theorem deallocate_sound (completed : Nat) :
    Action.Preserves (Sound size limit) (deallocate completed) := by
  rintro ring ⟨rfl, waves, holds, below⟩
  rcases deallocate_run holds completed with ⟨ran, -⟩ | ⟨notes, ran⟩
  · rw [ran]
    exact trivial
  · rw [ran]
    refine ⟨rfl, _, reclaimed_holds holds completed, fun wave among => below wave ?_⟩
    exact (List.dropWhile_sublist _).subset among

end Ring

namespace OnlineHeap

structure Sound (limit : Nat) (heap : OnlineHeap) : Prop where
  ring : heap.ring.Sound heap.desc.slots limit
  some_slot : 0 < heap.desc.slots
  bounded : heap.desc.slots ≤ heap.maxSize
  visible : heap.desc.shaderVisible = true
  addressed : ∀ object ∈ heap.objects, object.gpuStart ≠ none

variable {limit : Nat} {recording : Fences} {heap : OnlineHeap} {object : HeapObject}
  {refused : OnlineHeap × Shared δ → Prop}

namespace Sound

theorem mono {later : Nat} (sound : heap.Sound limit) (le : limit ≤ later) : heap.Sound later :=
  { sound with ring := sound.ring.mono le }

theorem unpark {line : FenceLine HeapObject} (sound : heap.Sound limit)
    (fewer : line.entries.Sublist heap.parked.line.entries) :
    Sound limit { heap with parked := { heap.parked with line } } := by
  refine { sound with addressed := fun object among => sound.addressed object ?_ }
  exact ((fewer.map _).cons_cons heap.object).subset among

theorem install {desc : HeapDesc} {base : Handle} (sound : heap.Sound limit)
    (some_slot : 0 < desc.slots) (bounded : desc.slots ≤ heap.maxSize)
    (visible : desc.shaderVisible = true) (addressed : object.gpuStart ≠ none) :
    (OnlineHeap.install object base desc heap).Sound limit := by
  refine ⟨sound.ring.reset, some_slot, bounded, visible, List.forall_mem_cons.mpr ⟨addressed, ?_⟩⟩
  exact (List.forall_mem_cons.mp sound.addressed).2

theorem park {fence : Nat} {parted : HeapObject} (sound : heap.Sound limit)
    (addressed : parted.gpuStart ≠ none) :
    Sound limit { heap with parked := heap.parked.push parted fence } := by
  refine { sound with addressed := ?_ }
  have same : objects { heap with parked := heap.parked.push parted fence } =
      heap.objects ++ [parted] := by
    simp [objects, BoundedPool.push, FenceLine.push]
  rw [same]
  exact List.forall_mem_append.mpr ⟨sound.addressed, List.forall_mem_singleton.mpr addressed⟩

end Sound

def Stands (limit : Nat) (recording : Fences) (both : OnlineHeap × Shared δ) : Prop :=
  both.1.Sound limit ∧ both.2.recording = recording

theorem shared_stands {x : Action (Shared δ) α} (keeps : Action.Keeps Shared.recording x) :
    Action.Preserves (Stands limit recording) (Action.on sharedOf x) := by
  have aside : Action.Keeps (fun both : OnlineHeap × Shared δ => (both.1, both.2.recording))
      (Action.on sharedOf x) := fun both => congrArg (both.1, ·) (keeps both.2)
  exact Action.preserves_of_keeps
    (p := fun seen => OnlineHeap.Sound limit seen.1 ∧ seen.2 = recording) aside

theorem ring_stands {x : Action Ring α}
    (preserves : ∀ size, Action.Preserves (Ring.Sound size limit) x) :
    Action.Preserves (Stands (δ := δ) limit recording) (Action.on ringOf x) := by
  refine Action.returns_on (fun both _ => preserves both.1.desc.slots)
    (fun both stands => stands.1.ring) ?_ ?_
  · exact fun both _ ring stands sound => ⟨{ stands.1 with ring := sound }, stands.2⟩
  · exact fun both ring stands sound => ⟨{ stands.1 with ring := sound }, stands.2⟩

theorem reclaimSlots_stands (completed : Nat) :
    Action.Preserves (Stands (δ := δ) limit recording) (reclaimSlots completed) :=
  ring_stands fun _ => Ring.deallocate_sound completed

theorem trim_preserves {holds : OnlineHeap × Shared δ → Prop}
    (unparks : ∀ (both : OnlineHeap × Shared δ) (line : FenceLine HeapObject), holds both →
      line.entries.Sublist both.1.parked.line.entries →
        holds (parkedOf.put { both.1.parked with line } both))
    (drops : ∀ resource, Action.Preserves holds (Action.on sharedOf (Shared.drop resource)))
    (threshold completed : Nat) : Action.Preserves holds (trim threshold completed) := by
  refine Action.returns_bind Action.returns_get fun both => ?_
  dsimp only
  split
  · exact Action.returns_pure fun _ seen => seen.1
  rename_i object line evicted
  refine Action.returns_via (fun _ => holds) (Action.returns_modify ?_) fun _ =>
    Action.returns_bind (drops _) fun _ => Action.returns_pure fun _ held => held
  rintro now ⟨held, rfl⟩
  obtain ⟨entry, shape, -, -⟩ := FenceLine.evict?_some evicted
  refine unparks _ line held ?_
  rw [shape]
  exact List.sublist_cons_self ..

theorem trim_stands (threshold completed : Nat) :
    Action.Preserves (Stands (δ := δ) limit recording) (trim threshold completed) :=
  trim_preserves (fun _ _ stands fewer => ⟨stands.1.unpark fewer, stands.2⟩)
    (fun _ => shared_stands fun _ => rfl) threshold completed

section Making

theorem gpuBaseOf_addressed {holds : Shared δ → Prop}
    (drops : ∀ resource, Action.Preserves holds (Shared.drop resource)) (object : HeapObject) :
    Action.Returns holds (gpuBaseOf object)
      (fun _ shared => holds shared ∧ object.gpuStart ≠ none) holds := by
  unfold gpuBaseOf
  split
  · rename_i base found
    refine Action.returns_pure fun _ held => ⟨held, ?_⟩
    rw [found]
    exact nofun
  · exact Action.returns_bind (drops _) fun _ => Action.returns_refuse fun _ held => held

variable [Device δ]

theorem create_sound (limit : Nat) (kind : Kind) (config : OnlineConfig) :
    Action.Returns (fun _ : Shared δ => True) (create kind config)
      (fun heap _ => heap.Sound limit) fun _ => True := by
  unfold create
  split
  · exact Action.returns_refuse fun _ _ => trivial
  rename_i accepted
  refine Action.returns_bind (Action.preserves_fact True _) fun object => ?_
  refine Action.returns_bind (gpuBaseOf_addressed (fun _ => Action.preserves_fact True _)
    object) fun gpuBase => ?_
  split
  · refine Action.returns_bind (Action.returns_before (Action.preserves_fact True _)
      fun _ _ => trivial) fun _ => ?_
    exact Action.returns_refuse fun _ _ => trivial
  · rename_i ring made
    obtain ⟨some_place, rfl⟩ := Ring.some_place_of_ofLedger? made
    simp only [Bool.or_eq_true, decide_eq_true_eq, not_or] at accepted
    refine Action.returns_look fun seen => Action.returns_pure fun shared addressed => ?_
    refine ⟨Ring.fresh_sound some_place, Nat.pos_of_ne_zero accepted.1.2,
      Nat.not_lt.mp accepted.2, rfl, List.forall_mem_singleton.mpr addressed.2⟩

end Making

section Rolling

theorem Sound.still {both : OnlineHeap × Shared δ} (sound : heap.Sound limit)
    (still : heap.Still (fun shared => shared.recording = recording) both) :
    Stands limit recording both := by
  obtain ⟨rfl, recorded⟩ := still
  exact ⟨sound, recorded⟩

theorem returns_stands {x : Action (OnlineHeap × Shared δ) α}
    {post : α → OnlineHeap × Shared δ → Prop}
    (returns : ∀ heap : OnlineHeap, heap.Sound limit → Action.Returns
      (heap.Still fun shared => shared.recording = recording) x post refused) :
    Action.Returns (Stands limit recording) x post refused :=
  fun both stands => returns both.1 stands.1 both ⟨rfl, stands.2⟩

theorem beside_stands {x : Action (Shared δ) α} {f : α → Action (OnlineHeap × Shared δ) β}
    {post : β → OnlineHeap × Shared δ → Prop} (sound : heap.Sound limit)
    (keeps : Action.Keeps Shared.recording x)
    (next : ∀ a, Action.Returns (heap.Still fun shared => shared.recording = recording) (f a) post
      (Stands limit recording)) :
    Action.Returns (heap.Still fun shared => shared.recording = recording)
      (Action.on sharedOf x >>= f) post (Stands limit recording) :=
  Action.returns_bind (Action.returns_weaken
    (still_returns (Action.preserves_of_keeps (p := (· = recording)) keeps)) (fun _ still => still)
    (fun _ _ still => still) fun _ still => sound.still still) next

theorem address_stands {holds : OnlineHeap × Shared δ → Prop}
    {f : Handle → Action (OnlineHeap × Shared δ) β} {post : β → OnlineHeap × Shared δ → Prop}
    (sound : ∀ both, holds both → both.1.Sound limit ∧ both.2.recording = recording)
    (aside : ∀ (both : OnlineHeap × Shared δ) (shared : Shared δ), holds both →
      shared.recording = recording → holds (both.1, shared))
    (next : ∀ base, object.gpuStart ≠ none →
      Action.Returns holds (f base) post (Stands limit recording)) :
    Action.Returns holds (Action.on sharedOf (gpuBaseOf object) >>= f) post
      (Stands limit recording) := by
  have keeps (resource : Resource) :
      Action.Keeps Shared.recording (Shared.drop (δ := δ) resource) := fun _ => rfl
  have drops (resource : Resource) : Action.Preserves
      (fun shared : Shared δ => shared.recording = recording) (Shared.drop resource) :=
    Action.preserves_of_keeps (p := (· = recording)) (keeps resource)
  refine Action.returns_via (fun _ both => holds both ∧ object.gpuStart ≠ none)
    (Action.returns_on (fun _ _ => gpuBaseOf_addressed drops object)
      (fun both held => (sound both held).2) ?_ ?_) fun base => ?_
  · exact fun both _ shared held found => ⟨aside both shared held found.1, found.2⟩
  · exact fun both shared held recorded => ⟨(sound both held).1, recorded⟩
  · exact Action.returns_given (fun _ found => found.2) fun addressed =>
      Action.returns_before (next base addressed) fun _ found => found.1

variable [Device δ]

theorem grow_stands (fence : Nat) :
    Action.Preserves (Stands (δ := δ) limit recording) (grow fence) := by
  refine returns_stands fun heap sound => returns_look fun both same => ?_
  rw [same]
  refine beside_stands sound (Shared.createHeap_keeps _) fun object => ?_
  refine address_stands (fun both still => sound.still still)
    (fun both shared still recorded => ⟨still.same, recorded⟩) fun base addressed => ?_
  refine beside_stands sound (Shared.retire_keeps _ _ _ _) fun _ => ?_
  refine Action.returns_bind (Action.returns_modify ?_) fun _ => Action.returns_note _
  rintro both ⟨rfl, recorded⟩
  have some_slot := sound.some_slot
  have bounded := sound.bounded
  exact ⟨sound.install (Nat.lt_min.mpr ⟨by omega, by omega⟩) (Nat.min_le_right _ _) rfl addressed,
    recorded⟩

structure Spared (limit : Nat) (recording : Fences) (heap : OnlineHeap)
    (both : OnlineHeap × Shared δ) : Prop where
  stands : Stands limit recording both
  desc : both.1.desc = heap.desc
  maxSize : both.1.maxSize = heap.maxSize

omit [Device δ] in
theorem spared_unpark {reached : Nat} {item : HeapObject} {rest : FenceLine HeapObject}
    {both : OnlineHeap × Shared δ} (sound : heap.Sound limit)
    (popped : heap.parked.line.pop? reached = some (item, rest))
    (still : heap.Still (fun shared => shared.recording = recording) both) :
    Spared limit recording heap ((parkedOf.andThen BoundedPool.lineOf).put rest both) := by
  obtain ⟨rfl, recorded⟩ := still
  obtain ⟨entry, shape, -, -⟩ := FenceLine.pop?_some popped
  refine ⟨⟨sound.unpark ?_, recorded⟩, rfl, rfl⟩
  rw [shape]
  exact List.sublist_cons_self ..

theorem make_spared (sound : heap.Sound limit) (desc : HeapDesc) :
    Action.Returns (heap.Still fun shared : Shared δ => shared.recording = recording)
      (Action.on sharedOf (Shared.createHeap desc)) (fun _ => Spared limit recording heap)
      (Stands limit recording) := by
  refine Action.returns_weaken (still_returns (Action.preserves_of_keeps (p := (· = recording))
    (Shared.createHeap_keeps desc))) (fun _ still => still) ?_ fun _ still => sound.still still
  exact fun _ both still =>
    ⟨sound.still still, congrArg OnlineHeap.desc still.same, congrArg OnlineHeap.maxSize still.same⟩

theorem retrieve_spared (sound : heap.Sound limit) (completed : Nat) (desc : HeapDesc) :
    Action.Returns (heap.Still fun shared : Shared δ => shared.recording = recording)
      (BoundedPool.retrieve parkedOf completed
        (fun fence => Action.on sharedOf (Shared.waitFor .graphics fence))
        (Action.on sharedOf (Shared.createHeap desc)))
      (fun _ => Spared limit recording heap) (Stands limit recording) := by
  refine BoundedPool.retrieve_returns (fun _ still => congrArg OnlineHeap.parked still.same)
    (fun popped _ still => spared_unpark sound popped still) (make_spared sound desc) fun fence => ?_
  exact Action.returns_weaken (still_returns (Action.preserves_of_keeps (p := (· = recording))
    (Shared.waitFor_keeps .graphics fence))) (fun _ still => still) (fun _ _ still => still)
    fun _ still => sound.still still

omit [Device δ] in
theorem exchange_stands (sound : heap.Sound limit) (fence : Nat) (object : HeapObject) :
    Action.Returns (Spared (δ := δ) limit recording heap) (exchange heap fence object)
      (fun _ => Stands limit recording) (Stands limit recording) := by
  refine address_stands (fun _ spared => spared.stands) (fun both shared spared recorded =>
    ⟨⟨spared.stands.1, recorded⟩, spared.desc, spared.maxSize⟩) fun base addressed => ?_
  refine Action.returns_via (fun _ => Stands limit recording) (Action.returns_modify ?_)
    fun _ => Action.returns_look fun _ => Action.returns_note _
  rintro both ⟨⟨now, recorded⟩, desc, -⟩
  have installed : (install object base heap.desc both.1).Sound limit :=
    now.install sound.some_slot (desc ▸ now.bounded) sound.visible addressed
  exact ⟨installed.park (sound.addressed _ List.mem_cons_self), recorded⟩

theorem swap_stands (fence : Nat) :
    Action.Preserves (Stands (δ := δ) limit recording) (swap fence) := by
  refine returns_stands fun heap sound => swap_returns (fun _ still => still.same) ?_
    (make_spared sound heap.desc) (fun completed => retrieve_spared sound completed heap.desc)
    (exchange_stands sound fence)
  exact Action.returns_weaken (still_returns (Action.preserves_of_keeps (p := (· = recording))
    (Shared.completedFence_keeps .graphics))) (fun _ still => still) (fun _ _ still => still)
    fun _ still => sound.still still

theorem rollOver_stands : Action.Preserves (Stands (δ := δ) limit recording) rollOver := by
  refine Action.returns_bind (shared_stands fun _ => rfl) fun fence => ?_
  refine Action.returns_look fun both => ?_
  dsimp only
  split
  · exact grow_stands fence
  · exact swap_stands fence

theorem reserve_stands (slots : Nat) (near : recording.graphics < limit) :
    Action.Preserves (Stands (δ := δ) limit recording) (reserve slots) := by
  have reads : Action.Returns (Stands (δ := δ) limit recording)
      (Action.on sharedOf (Shared.recordingFence .graphics))
      (fun fence both => Stands limit recording both ∧ fence = recording.graphics)
      (Stands limit recording) :=
    fun both stands => ⟨stands, congrArg (PerQueue.get · .graphics) stands.2⟩
  refine reserve_preserves (· = recording.graphics) reads ?_
    (shared_stands (Shared.completedFence_keeps .graphics)) reclaimSlots_stands rollOver_stands
  rintro _ rfl
  exact ring_stands fun _ => Ring.allocate_sound near

end Rolling

theorem sound_of_stands {x : Action (OnlineHeap × Shared δ) α}
    (preserves : ∀ recording, Action.Preserves (Stands limit recording) x) :
    Action.Preserves (fun both => both.1.Sound limit) x :=
  fun both sound => (preserves both.2.recording both ⟨sound, rfl⟩).image id
    (fun _ _ stands => stands.1) fun _ stands => stands.1

end OnlineHeap

namespace Immediate

variable {limit : Nat}

structure Sound (limit : Nat) (immediate : Immediate δ) : Prop where
  view : immediate.view.Sound limit
  sampler : immediate.sampler.Sound limit

theorem shared_sound (x : Action (Shared δ) α) :
    Action.Preserves (Sound limit) (Action.on sharedOf x) := by
  have aside : Action.Keeps (fun immediate : Immediate δ => (immediate.view, immediate.sampler))
      (Action.on sharedOf x) := fun _ => rfl
  have keeps := Action.preserves_of_keeps
    (p := fun heaps => heaps.1.Sound limit ∧ heaps.2.Sound limit) aside
  exact Action.returns_weaken keeps (fun _ sound => ⟨sound.view, sound.sampler⟩)
    (fun _ _ both => ⟨both.1, both.2⟩) fun _ both => ⟨both.1, both.2⟩

theorem view_sound {x : Action (OnlineHeap × Shared δ) α}
    (preserves : Action.Preserves (fun both => both.1.Sound limit) x) :
    Action.Preserves (Sound limit) (Action.on viewOf x) :=
  Action.returns_on (fun _ _ => preserves) (fun _ sound => sound.view)
    (fun _ _ _ sound view => ⟨view, sound.sampler⟩) fun _ _ sound view => ⟨view, sound.sampler⟩

theorem sampler_sound {x : Action (OnlineHeap × Shared δ) α}
    (preserves : Action.Preserves (fun both => both.1.Sound limit) x) :
    Action.Preserves (Sound limit) (Action.on samplerOf x) :=
  Action.returns_on (fun _ _ => preserves) (fun _ sound => sound.sampler)
    (fun _ _ _ sound sampler => ⟨sound.view, sampler⟩)
    fun _ _ sound sampler => ⟨sound.view, sampler⟩

theorem trimHeap_sound (threshold completed : Nat) :
    Action.Preserves (fun both : OnlineHeap × Shared δ => both.1.Sound limit) (do
      OnlineHeap.reclaimSlots completed
      let _ ← OnlineHeap.trim threshold completed) := by
  refine Action.returns_bind (OnlineHeap.sound_of_stands fun _ =>
    OnlineHeap.reclaimSlots_stands completed) fun _ => ?_
  exact Action.returns_bind (OnlineHeap.sound_of_stands fun _ =>
    OnlineHeap.trim_stands threshold completed) fun _ => Action.returns_pure fun _ sound => sound

theorem closeEach_sound (mask : QueueMask) (queues : List Queue) (fences : Fences) :
    Action.Preserves (Sound (δ := δ) limit) (closeEach mask queues fences) := by
  induction queues generalizing fences with
  | nil => exact Action.returns_pure fun _ sound => sound
  | cons queue rest ih =>
    unfold closeEach
    split
    · exact Action.returns_bind (shared_sound _) fun _ => ih _
    · exact ih fences

variable [Device δ]

theorem trim_sound : Action.Preserves (Sound (δ := δ) limit) trim := by
  refine Action.returns_bind (shared_sound _) fun freed => ?_
  refine Action.returns_bind (shared_sound _) fun completed => ?_
  refine Action.returns_look fun immediate => ?_
  refine Action.returns_bind (view_sound (trimHeap_sound _ _)) fun _ => ?_
  refine Action.returns_bind (sampler_sound (trimHeap_sound _ _)) fun _ => ?_
  exact Action.returns_pure fun _ sound => sound

theorem submit_sound (queue : Queue) : Action.Preserves (Sound (δ := δ) limit) (submit queue) := by
  refine Action.returns_bind (shared_sound _) fun fence => ?_
  refine Action.returns_bind (Action.returns_note _) fun _ => ?_
  exact Action.returns_bind trim_sound fun _ => Action.returns_pure fun _ sound => sound

theorem flush_sound (mask : QueueMask) :
    Action.Preserves (Sound (δ := δ) limit) (flush mask) := by
  refine Action.returns_bind (closeEach_sound mask _ _) fun fences => ?_
  exact Action.returns_bind trim_sound fun _ => Action.returns_pure fun _ sound => sound

theorem waitForIdle_sound (queue : Queue) :
    Action.Preserves (Sound (δ := δ) limit) (waitForIdle queue) := by
  have trims : Action.Preserves (Sound (δ := δ) limit) (do let _ ← trim) :=
    Action.returns_bind trim_sound fun _ => Action.returns_pure fun _ sound => sound
  refine Action.returns_bind (shared_sound _) fun recording => ?_
  refine Action.returns_bind (Action.returns_checked _) fun last => ?_
  refine Action.returns_before ?_ fun _ seen => seen.1
  dsimp only
  split
  · exact Action.returns_bind (shared_sound _) fun _ => trims
  · exact trims

theorem createHeaps_sound (limit : Nat) (config : Config) :
    Action.Returns (fun _ : Shared δ => True) (createHeaps config)
      (fun heaps _ => heaps.1.Sound limit ∧ heaps.2.Sound limit) fun _ => True := by
  refine Action.returns_bind (OnlineHeap.create_sound limit .view config.viewHeap) fun view => ?_
  refine Action.returns_given (fun _ sound => sound) fun sound => ?_
  refine Action.returns_bind (Action.returns_attempt (Action.returns_before
    (OnlineHeap.create_sound limit .sampler config.samplerHeap) fun _ _ => trivial))
    fun result => ?_
  cases result with
  | ok sampler => exact Action.returns_pure fun _ made => ⟨sound, made⟩
  | error error =>
    exact Action.returns_bind (Action.preserves_fact True _) fun _ =>
      Action.returns_refuse fun _ _ => trivial

end Immediate

def ContextStep.reserves : ContextStep δ → Bool
  | .reserve .. => true
  | _ => false

namespace Session

variable {limit : Nat} {session : Session δ}

def SoundHeaps (limit : Nat) (session : Session δ) : Prop :=
  ∀ heap ∈ session.onlineHeaps, heap.Sound limit

theorem aside_sound {x : Action (Session δ) α} (keeps : Action.Keeps Session.front x) :
    Action.Preserves (SoundHeaps limit) x := by
  have same : Action.Keeps onlineHeaps x := fun session => onlineHeaps_of_front (keeps session)
  exact Action.preserves_of_keeps (p := fun heaps => ∀ heap ∈ heaps, heap.Sound limit) same

theorem shared_sound (x : Action (Shared δ) α) :
    Action.Preserves (SoundHeaps limit) (withShared x) :=
  aside_sound fun _ => rfl

theorem answer_sound {pre : Session δ → Prop} {x : Action (Session δ) α} {f : α → ContextAnswer}
    (returns : Action.Returns pre x (fun _ => SoundHeaps limit) (SoundHeaps limit)) :
    Action.Returns pre (x >>= fun a => return f a) (fun _ => SoundHeaps limit) (SoundHeaps limit) :=
  Action.returns_bind returns fun _ => Action.returns_pure fun _ sound => sound

theorem immediate_sound {x : Action (Immediate δ) α}
    (preserves : Action.Preserves (Immediate.Sound limit) x) :
    Action.Preserves (SoundHeaps limit) (withImmediate x) := by
  rintro ⟨shared, front, buffers, slots, blocks⟩ sound
  cases front with
  | sharedOnly | online heap => exact sound
  | immediate view sampler =>
    let whole (now : Immediate δ) : Session δ :=
      ⟨now.shared, .immediate now.view now.sampler, buffers, slots, blocks⟩
    have back (now : Immediate δ) (held : Immediate.Sound limit now) :
        SoundHeaps limit (whole now) :=
      List.forall_mem_cons.mpr ⟨held.view, List.forall_mem_singleton.mpr held.sampler⟩
    have started : Immediate.Sound limit ⟨shared, view, sampler⟩ :=
      ⟨sound view (by simp [onlineHeaps]), sound sampler (by simp [onlineHeaps])⟩
    exact (preserves _ started).image whole (fun _ => back) back

theorem online_sound {kind : Option Kind} {x : Action (OnlineHeap × Shared δ) α}
    (sound : session.SoundHeaps limit)
    (leaves : ∀ heap, heap.Sound limit → (x (heap, session.shared)).Leaves
      (fun _ both => both.1.Sound limit) fun both => both.1.Sound limit) :
    (withOnline kind x session).Leaves (fun _ => SoundHeaps limit) (SoundHeaps limit) := by
  rcases withOnline_run kind x session with refused | ⟨_, heap, _, heaps, whole, parts, ran⟩
  · rw [refused]
    exact sound
  unfold SoundHeaps at sound
  rw [heaps, List.forall_mem_append, List.forall_mem_cons] at sound
  obtain ⟨before, here, behind⟩ := sound
  have back (now : OnlineHeap × Shared δ) (held : now.1.Sound limit) :
      SoundHeaps limit (whole now) := by
    unfold SoundHeaps
    rw [(parts now).1, List.forall_mem_append, List.forall_mem_cons]
    exact ⟨before, held, behind⟩
  rw [ran]
  exact (leaves heap here).image whole (fun _ => back) back

theorem online_preserves {kind : Option Kind} {x : Action (OnlineHeap × Shared δ) α}
    (preserves : Action.Preserves (fun both => both.1.Sound limit) x) :
    Action.Preserves (SoundHeaps limit) (withOnline kind x) :=
  fun _ sound => online_sound sound fun heap held => preserves (heap, _) held

variable [Device δ]

theorem step_sound {step : ContextStep δ} (stays : step ≠ .drop) (sound : session.SoundHeaps limit)
    (near : step.reserves = true → session.shared.recording.graphics < limit) :
    (step.run session).Leaves (fun _ => SoundHeaps limit) (SoundHeaps limit) := by
  cases step with
  | drop => exact absurd rfl stays
  | reserve kind slots =>
    have reserved : Action.Returns (· = session) (withOnline kind (OnlineHeap.reserve slots))
        (fun _ => SoundHeaps limit) (SoundHeaps limit) := by
      rintro _ rfl
      refine online_sound sound fun heap held => ?_
      exact (OnlineHeap.reserve_stands slots (near rfl) (heap, _) ⟨held, rfl⟩).image id
        (fun _ _ stands => stands.1) fun _ stands => stands.1
    exact answer_sound (f := .reservation) reserved session rfl
  | submit queue => exact answer_sound (immediate_sound (Immediate.submit_sound queue)) _ sound
  | flush mask => exact answer_sound (immediate_sound (Immediate.flush_sound mask)) _ sound
  | waitForIdle queue =>
    exact answer_sound (immediate_sound (Immediate.waitForIdle_sound queue)) _ sound
  | trim => exact answer_sound (immediate_sound Immediate.trim_sound) _ sound
  | contextText =>
    refine immediate_sound (Action.returns_look fun _ => ?_) _ sound
    exact Action.returns_pure fun _ sound => sound
  | handles kind slot =>
    refine online_preserves (Action.returns_look fun both => ?_) _ sound
    exact Action.returns_bind (Action.returns_checked _) fun _ =>
      Action.returns_pure fun _ read => read.1
  | onlineInfo kind | onlineText kind =>
    refine online_preserves (Action.returns_look fun _ => ?_) _ sound
    exact Action.returns_pure fun _ sound => sound
  | reclaimSlots completed =>
    exact answer_sound (online_preserves (OnlineHeap.sound_of_stands fun _ =>
      OnlineHeap.reclaimSlots_stands completed)) _ sound
  | trimParked threshold completed =>
    exact answer_sound (online_preserves (OnlineHeap.sound_of_stands fun _ =>
      OnlineHeap.trim_stands threshold completed)) _ sound
  | closeBatch | waitFor | isReached | freeHandle | retireObject | signal | trimRetired
  | trimShared | destroyAll | device =>
    exact answer_sound (shared_sound _) _ sound
  | tryOutcomes outcomes => exact shared_sound _ _ sound
  | sharedText | config => exact sound
  | manager kind index =>
    refine Action.returns_look (fun before => ?_) _ sound
    exact Action.returns_bind (Action.returns_checked _) fun _ =>
      Action.returns_pure fun _ read => read.1
  | acquire | allocateSlot | suballocate =>
    refine Action.returns_bind (shared_sound _) (fun made => ?_) _ sound
    exact answer_sound (aside_sound fun _ => rfl)
  | release | freeSlot | retireBlock =>
    refine Action.returns_look (fun before => ?_) _ sound
    split
    · exact Action.returns_pure fun _ sound => sound
    · exact Action.returns_bind (aside_sound fun _ => rfl) fun _ => answer_sound (shared_sound _)

theorem openFront_sound (mode : Mode) (buffers : List Buffer) (slots : List HeldSlot)
    (blocks : List Suballocation) :
    Action.Returns (fun _ : Shared δ => True) (openFront mode)
      (fun front shared => SoundHeaps limit ⟨shared, front, buffers, slots, blocks⟩)
      fun _ => True := by
  cases mode with
  | sharedOnly => exact Action.returns_pure fun _ _ heap among => (List.not_mem_nil among).elim
  | immediate =>
    refine Action.returns_look fun seen => ?_
    refine Action.returns_bind (Immediate.createHeaps_sound limit seen.config) fun heaps => ?_
    exact Action.returns_pure fun _ made =>
      List.forall_mem_cons.mpr ⟨made.1, List.forall_mem_singleton.mpr made.2⟩
  | online kind config =>
    refine Action.returns_bind (OnlineHeap.create_sound limit kind config) fun heap => ?_
    exact Action.returns_pure fun _ made => List.forall_mem_singleton.mpr made

theorem step_rising (step : ContextStep δ) (session : Session δ) :
    session.shared.recording.graphics ≤ (step.run session).state.shared.recording.graphics :=
  (((step_tells step).run (.none_yet session.shared)).rising .graphics).2

theorem front_keeps (mode : Mode) : Action.Keeps Shared.recording (openFront (δ := δ) mode) :=
  Shared.keeps_recording fun _ _ => openFront_told mode

theorem went_soundHeaps {config : Config} {turns : List (Turn δ)}
    (path : Went config turns session) :
    session.SoundHeaps (session.shared.recording.graphics + 1) := by
  induction path with
  | opened made => exact fun heap among => (List.not_mem_nil among).elim
  | fronted path bare made ih =>
    exact (openFront_sound _ _ _ _ _ trivial).of_ok made
  | unfronted path refused ih =>
    rename_i before mode _
    intro heap among
    dsimp only
    rw [front_keeps mode before.shared]
    exact ih heap among
  | step path step stays returned ih =>
    rename_i before
    have sound := (step_sound stays ih fun _ => Nat.lt_succ_self _).of_returned returned
    have rising := step_rising step before
    exact fun heap among => (sound heap among).mono (Nat.succ_le_succ rising)

end Session

end Reclaim
