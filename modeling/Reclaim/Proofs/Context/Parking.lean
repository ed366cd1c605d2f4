import Reclaim.Proofs.Context.OnlineHeap
import Reclaim.Proofs.Context.RollOver
import Reclaim.Proofs.Pool.Occupancy

namespace Reclaim

variable {δ α β : Type} {kind : Kind} {recording fence : Nat} {total : Nat → Nat}
  {past events : List Event}

theorem rolls_append : rolls kind fence (past ++ events) =
    rolls kind fence past + rolls kind fence events :=
  List.countP_append

theorem Event.made?_of_isPlain {event : Event} (plain : event.isPlain = true) :
    event.made? = none := by
  cases event with
  | asked call outcome =>
    cases call <;> cases outcome <;> first | rfl | cases plain
  | _ => rfl

theorem Event.isRoll_of_isPlain {event : Event} (plain : event.isPlain = true) :
    event.isRoll kind fence = false := by
  cases event with
  | noted note => cases note <;> first | rfl | cases plain
  | _ => rfl

theorem madeHeaps_plain (plain : ∀ event ∈ events, event.isPlain = true) :
    madeHeaps events = [] :=
  List.filterMap_eq_nil_iff.mpr fun event present => Event.made?_of_isPlain (plain event present)

theorem rolls_plain (plain : ∀ event ∈ events, event.isPlain = true) :
    rolls kind fence events = 0 :=
  List.countP_eq_zero.mpr fun event present =>
    Bool.eq_false_iff.mp (Event.isRoll_of_isPlain (plain event present))

namespace Shared

variable {shared after : Shared δ}

-- The trace tells of every heap that was made, and so often of one of the kind rolled over.
structure Counts (kind : Kind) (recording : Nat) (total : Nat → Nat) (past : List Event)
    (shared : Shared δ) : Prop where
  recording : shared.recording.graphics = recording
  heapsMade : shared.machine.heapsMade = (madeHeaps past).length
  rolls : ∀ fence, rolls kind fence past = total fence

theorem Counts.plain (counts : shared.Counts kind recording total past)
    (plain : ∀ event ∈ events, event.isPlain = true)
    (recorded : after.recording.graphics = shared.recording.graphics)
    (made : after.machine.heapsMade = shared.machine.heapsMade) :
    after.Counts kind recording total (past ++ events) where
  recording := recorded.trans counts.recording
  heapsMade := by rw [made, counts.heapsMade, madeHeaps_append, madeHeaps_plain plain, List.append_nil]
  rolls fence := by rw [rolls_append, rolls_plain plain, counts.rolls, Nat.add_zero]

theorem Counts.rolled (counts : shared.Counts kind recording total past) (batch size : Nat) :
    shared.Counts kind recording (BoundedPool.oneMore batch total)
      (past ++ [.noted (.heapRolled kind batch size)]) where
  recording := counts.recording
  heapsMade := by
    rw [counts.heapsMade, madeHeaps_append]
    exact congrArg List.length (List.append_nil _).symm
  rolls fence := by
    rw [rolls_append, counts.rolls]
    simp [Reclaim.rolls, Event.isRoll, BoundedPool.oneMore, eq_comm]

theorem counts_retained {x : Action (Shared δ) α} (keeps : Action.Keeps Shared.recording x)
    (wanes : ∀ start, Action.Retains (Wanes start) x) :
    Action.Retains (Counts kind recording total) x := by
  refine Action.retains_of_runs fun past shared counts => ?_
  have after := (wanes shared.machine).run (Machine.Wanes.refl shared.machine)
  exact counts.plain after.plain (congrArg PerQueue.graphics (keeps shared)) after.heapsMade

theorem drop_counts (resource : Resource) :
    Action.Retains (Counts (δ := δ) kind recording total) (drop resource) :=
  counts_retained (fun _ => rfl) fun _ => drop_wanes resource

variable [Device δ]

theorem createHeap_counts (desc : HeapDesc) :
    Action.Meets (Counts (δ := δ) kind recording total) (createHeap desc)
      (fun object past shared => shared.Counts kind recording total past ∧
        (madeHeaps past)[object.serial]? = some desc) (Counts kind recording total) := by
  intro past shared counts
  have makes := createHeap_makes desc [] shared (Machine.Wanes.refl shared.machine)
  have same := congrArg PerQueue.graphics (createHeap_keeps desc shared)
  match createHeap desc shared, makes, same with
  | ⟨.error _, _, _⟩, wanes, same =>
    exact counts.plain (Machine.Wanes.plain wanes) same (Machine.Wanes.heapsMade wanes)
  | ⟨.ok object, after, events⟩, made, same =>
    obtain ⟨serial, heapsMade, -, earlier, outcome, told, plain, done⟩ := made
    rw [List.nil_append] at told
    subst told
    have still : shared.Counts kind recording total (past ++ earlier) :=
      counts.plain plain rfl rfl
    have made : madeHeaps (past ++ earlier ++ [.asked (.heap desc) outcome]) =
        madeHeaps (past ++ earlier) ++ [desc] := by
      rw [madeHeaps_append]
      simp [madeHeaps, Event.made?_asked done]
    have rolled (fence : Nat) : rolls kind fence [.asked (.heap desc) outcome] = 0 := rfl
    change after.Counts kind recording total _ ∧ _
    rw [← List.append_assoc]
    refine ⟨⟨same.trans counts.recording, ?_, fun fence => ?_⟩, ?_⟩
    · rw [made, heapsMade, still.heapsMade, List.length_append]
      rfl
    · rw [rolls_append, still.rolls, rolled, Nat.add_zero]
    · rw [made, serial, still.heapsMade]
      exact List.getElem?_concat_length

end Shared

namespace Ring

variable {size : Nat} {ring : Ring}

structure Stays (size : Nat) (past : List Event) (ring : Ring) : Prop where
  size : ring.size = size
  plain : ∀ event ∈ past, event.isPlain = true

theorem Stays.refl (ring : Ring) : Stays ring.size [] ring :=
  ⟨rfl, fun _ present => (List.not_mem_nil present).elim⟩

theorem note_stays {note : Note} (plain : (Event.noted note).isPlain = true) :
    Action.Retains (Stays size) (Action.note note) := by
  intro past ring stays
  exact ⟨stays.size, List.forall_mem_append.mpr ⟨stays.plain, List.forall_mem_singleton.mpr plain⟩⟩

theorem allocate_stays (slots fence : Nat) : Action.Retains (Stays size) (allocate slots fence) :=
  allocate_retains (fun _ => note_stays rfl) (fun _ _ _ stays _ => ⟨stays.size, stays.plain⟩)
    (fun _ _ _ stays => ⟨stays.size, stays.plain⟩) slots

theorem deallocate_stays (completed : Nat) : Action.Retains (Stays size) (deallocate completed) := by
  apply Action.retains_look
  intro ring
  apply Action.retains_bind (Action.meets_checked _)
  intro head
  apply Action.retains_bind
  · exact Action.meets_before Action.meets_modify fun _ _ stays => ⟨stays.size, stays.plain⟩
  · intro _
    exact Action.retains_each (fun wave => note_stays rfl) _

end Ring

namespace OnlineHeap

open BoundedPool

variable {config : OnlineConfig} {counts rolled others : Nat → Nat} {heap : OnlineHeap}
  {object : HeapObject} {slots : Nat} {told : List Event} {both : OnlineHeap × Shared δ}
  {failed : Claims (OnlineHeap × Shared δ)}

structure Made (kind : Kind) (config : OnlineConfig) (heap : OnlineHeap) : Prop where
  kind : heap.desc.kind = kind
  top : heap.maxSize = config.maxSize
  bound : heap.parked.bound = max config.poolDepth 1

theorem Made.install {desc : HeapDesc} (made : heap.Made kind config)
    (same : desc.kind = heap.desc.kind) (object : HeapObject) (base : Handle) :
    (install object base desc heap).Made kind config :=
  ⟨same.trans made.kind, made.top, made.bound⟩

-- `counts` tells how often the heap was rolled over during each batch, and `total` how often the
-- trace tells of a heap of the kind.
structure Abides (kind : Kind) (config : OnlineConfig) (counts total : Nat → Nat)
    (past : List Event) (both : OnlineHeap × Shared δ) : Prop where
  fits : both.1.Fits past
  made : both.1.Made kind config
  parks : both.1.parked.Parks both.2.recording.graphics counts
  told : both.2.Counts kind both.2.recording.graphics total past

section Frames

theorem abides_of_beside (made : heap.Made kind config) (parks : heap.parked.Parks recording counts)
    (beside : heap.Beside (Shared.Counts kind recording total) past both) :
    Abides kind config counts total past both := by
  obtain ⟨rfl, fits, told⟩ := beside
  have recorded := told.recording
  subst recorded
  exact ⟨fits, made, parks, told⟩

theorem meets_abides {x : Action (OnlineHeap × Shared δ) α}
    {post : α → Claims (OnlineHeap × Shared δ)}
    (meets : ∀ (heap : OnlineHeap) (recording : Nat), heap.Made kind config →
      heap.parked.Parks recording counts →
        Action.Meets (heap.Beside (Shared.Counts kind recording total)) x post failed) :
    Action.Meets (Abides kind config counts total) x post failed :=
  fun past both abides => meets both.1 _ abides.made abides.parks past both
    ⟨rfl, abides.fits, abides.told⟩

theorem beside_abides {x : Action (Shared δ) α} (made : heap.Made kind config)
    (parks : heap.parked.Parks recording counts)
    (retains : Action.Retains (Shared.Counts kind recording total) x) :
    Action.Meets (heap.Beside (Shared.Counts kind recording total)) (Action.on sharedOf x)
      (fun _ => heap.Beside (Shared.Counts kind recording total))
      (Abides kind config counts total) :=
  Action.meets_weaken (meets_beside retains) (fun _ _ beside => beside)
    (fun _ _ _ beside => beside) fun _ _ beside => abides_of_beside made parks beside

theorem shared_abides {x : Action (Shared δ) α} (keeps : Action.Keeps Shared.recording x)
    (wanes : ∀ start, Action.Retains (Shared.Wanes start) x) :
    Action.Retains (Abides kind config counts total) (Action.on sharedOf x) := by
  apply meets_abides
  intro heap recording made parks
  exact Action.meets_after (beside_abides made parks (Shared.counts_retained keeps wanes))
    fun _ _ _ beside => abides_of_beside made parks beside

theorem note_abides {note : Note} (plain : (Event.noted note).isPlain = true) :
    Action.Retains (Abides (δ := δ) kind config counts total) (Action.note note) := by
  rintro past both ⟨fits, made, parks, told⟩
  refine ⟨fits.append _, made, parks, ?_⟩
  exact told.plain (List.forall_mem_singleton.mpr plain) rfl rfl

theorem note_beside_counts {note : Note} (plain : (Event.noted note).isPlain = true) :
    Action.Meets (heap.Beside (Shared.Counts (δ := δ) kind recording total)) (Action.note note)
      (fun _ => heap.Beside (Shared.Counts kind recording total)) failed := by
  rintro past both ⟨same, fits, told⟩
  exact ⟨same, fits.append _, told.plain (List.forall_mem_singleton.mpr plain) rfl rfl⟩

theorem recording_counts {f : Nat → Action (OnlineHeap × Shared δ) β}
    {post : β → Claims (OnlineHeap × Shared δ)}
    (next : Action.Meets (heap.Beside (Shared.Counts kind recording total)) (f recording) post
      failed) :
    Action.Meets (heap.Beside (Shared.Counts kind recording total))
      (Action.on sharedOf (Shared.recordingFence .graphics) >>= f) post failed := by
  rintro past both ⟨same, fits, told⟩
  have read : both.2.recording.get .graphics = recording := told.recording
  have ran := next past both ⟨same, fits, told⟩
  rw [← read] at ran
  exact ran

theorem ring_abides {x : Action Ring α} (stays : ∀ size, Action.Retains (Ring.Stays size) x) :
    Action.Retains (Abides (δ := δ) kind config counts total) (Action.on ringOf x) := by
  refine Action.retains_of_runs fun past both ⟨fits, made, parks, told⟩ => ?_
  have after := (stays both.1.ring.size).run (Ring.Stays.refl both.1.ring)
  exact ⟨fits.moved after.size _, ⟨made.kind, made.top, made.bound⟩, parks,
    told.plain after.plain rfl rfl⟩

end Frames

section Objects

def Offers (object : HeapObject) (slots : Nat) (kind : Kind) (recording : Nat) (total : Nat → Nat) :
    Claims (Shared δ) := fun past shared =>
  MadeWith past object.serial slots ∧ shared.Counts kind recording total past

theorem gpuBaseOf_counts (object : HeapObject) :
    Action.Retains (Shared.Counts (δ := δ) kind recording total) (gpuBaseOf object) := by
  unfold gpuBaseOf
  cases object.gpuStart with
  | some base => exact Action.retains_pure base
  | none => exact Action.retains_bind (Shared.drop_counts _) fun _ => Action.retains_refuse _

theorem offers_retained {x : Action (Shared δ) α}
    (retains : Action.Retains (Shared.Counts kind recording total) x) :
    Action.Meets (Offers object slots kind recording total) x
      (fun _ => Offers object slots kind recording total) (Shared.Counts kind recording total) :=
  Action.meets_weaken (Action.meets_lasting (fun past => MadeWith past object.serial slots)
    (fun _ events placed => placed.append events) retains) (fun _ _ offers => offers)
    (fun _ _ _ offers => offers) fun _ _ stopped => stopped.2

theorem offers_abides {x : Action (Shared δ) α} (made : heap.Made kind config)
    (parks : heap.parked.Parks recording counts)
    (retains : Action.Retains (Shared.Counts kind recording total) x) :
    Action.Meets (heap.Beside (Offers object slots kind recording total)) (Action.on sharedOf x)
      (fun _ => heap.Beside (Offers object slots kind recording total))
      (Abides kind config counts total) :=
  Action.meets_weaken (meets_beside (offers_retained retains)) (fun _ _ beside => beside)
    (fun _ _ _ beside => beside) fun _ _ stopped => abides_of_beside made parks stopped

variable [Device δ]

theorem createHeap_offers (made : heap.Made kind config) (parks : heap.parked.Parks recording counts)
    (desc : HeapDesc) :
    Action.Meets (heap.Beside (Shared.Counts (δ := δ) kind recording total))
      (Action.on sharedOf (Shared.createHeap desc))
      (fun object => heap.Beside (Offers object desc.slots kind recording total))
      (Abides kind config counts total) := by
  refine Action.meets_weaken (meets_beside (Shared.createHeap_counts desc))
    (fun _ _ beside => beside) ?_ fun _ _ stopped => abides_of_beside made parks stopped
  rintro object past both ⟨same, fits, counts, placed⟩
  exact ⟨same, fits, ⟨desc, placed, rfl⟩, counts⟩

theorem grow_abides (made : heap.Made kind config) (parks : heap.parked.Parks recording counts)
    (fence : Nat) :
    Action.Meets (heap.Beside (Shared.Counts (δ := δ) kind recording total)) (grow fence)
      (fun _ => Abides kind config counts total) (Abides kind config counts total) := by
  apply meets_look
  intro old same
  subst same
  refine Action.meets_bind (createHeap_offers made parks _) fun object => ?_
  refine Action.meets_bind (offers_abides made parks (gpuBaseOf_counts object)) fun base => ?_
  refine Action.meets_bind (offers_abides made parks (Shared.counts_retained
    (Shared.retire_keeps _ _ _ _) fun _ => Shared.retire_wanes _ _ _ _)) fun _ => ?_
  refine Action.meets_bind (Action.meets_before Action.meets_on_modify ?_)
    fun _ => note_abides rfl
  rintro past ⟨used, shared⟩ ⟨same, fits, placed, counts⟩
  simp only at same counts
  subst same
  refine abides_of_beside (made.install ?_ object base) parks
    ⟨rfl, ⟨placed, rfl, Nat.min_le_right _ _, fits.parked⟩, counts⟩
  rfl

end Objects

section Turning

-- An object is at hand for the next turn, whatever it took, and the heap in use may be parked.
def Ready (heap : OnlineHeap) (kind : Kind) (recording : Nat) (counts total : Nat → Nat)
    (object : HeapObject) : Claims (OnlineHeap × Shared δ) := fun past both =>
  ∃ line : FenceLine HeapObject, (heap.parking line).parked.Parks recording counts ∧
    (heap.parking line).parked.HasRoom recording counts ∧
      (heap.parking line).Beside (Offers object heap.desc.slots kind recording total) past both

theorem unpark_ready (parks : heap.parked.Parks recording counts)
    (full : heap.desc.slots = heap.maxSize) {item : HeapObject} {rest : FenceLine HeapObject}
    {reached : Nat} (popped : heap.parked.line.pop? reached = some (item, rest))
    (beside : heap.Beside (Shared.Counts kind recording total) past both) :
    heap.Ready kind recording counts total item past
      ((parkedOf.andThen BoundedPool.lineOf).put rest both) := by
  obtain ⟨same, fits, told⟩ := beside
  obtain ⟨entry, shape, -, rfl⟩ := FenceLine.pop?_some popped
  obtain ⟨fewer, has_room⟩ := parks.popped_room popped
  have out := fits.parked entry (shape ▸ List.mem_cons_self)
  refine ⟨rest, fewer, has_room, ?_, fits.parking (shape ▸ List.sublist_cons_self ..),
    full ▸ out, told⟩
  rw [← same]
  rfl

theorem exchange_abides (made : heap.Made kind config) (full : heap.desc.slots = heap.maxSize)
    (object : HeapObject) :
    Action.Meets (heap.Ready (δ := δ) kind recording counts total object)
      (exchange heap recording object)
      (fun _ => Abides kind config (oneMore recording counts) (oneMore recording total))
      (Abides kind config counts total) := by
  apply Action.meets_exists
  intro line
  refine Action.meets_given (fun _ _ ready => And.intro ready.1 ready.2.1) fun ⟨parks, has_room⟩ => ?_
  refine Action.meets_before ?_ fun _ _ ready => ready.2.2
  have fewer : (heap.parking line).Made kind config := ⟨made.kind, made.top, made.bound⟩
  refine Action.meets_bind (offers_abides fewer parks (gpuBaseOf_counts object)) fun base => ?_
  refine Action.meets_via (fun _ => Abides kind config (oneMore recording counts) total)
    (Action.meets_before Action.meets_on_modify ?_) fun _ => ?_
  · rintro past ⟨used, shared⟩ ⟨same, fits, placed, told⟩
    simp only at same told
    subst same
    have recorded := told.recording
    subst recorded
    exact ⟨⟨placed, rfl, fits.top, fits.parked_push full _⟩, ⟨made.kind, made.top, made.bound⟩,
      parks.push has_room heap.object, told⟩
  · refine Action.meets_bind Action.meets_get fun seen => ?_
    rw [made.kind]
    rintro past both ⟨⟨fits, made, parks, told⟩, -⟩
    exact ⟨fits.append _, made, parks, told.rolled _ _⟩

variable [Device δ]

theorem create_ready (made : heap.Made kind config) (parks : heap.parked.Parks recording counts)
    (has_room : heap.parked.HasRoom recording counts) :
    Action.Meets (heap.Beside (Shared.Counts (δ := δ) kind recording total))
      (Action.on sharedOf (Shared.createHeap heap.desc)) (heap.Ready kind recording counts total)
      (Abides kind config counts total) :=
  Action.meets_after (createHeap_offers made parks heap.desc) fun _ _ _ offered =>
    ⟨heap.parked.line, parks, has_room, offered⟩

theorem retrieve_ready (made : heap.Made kind config) (parks : heap.parked.Parks recording counts)
    (full : heap.desc.slots = heap.maxSize) (completed : Nat) :
    Action.Meets (heap.Beside (Shared.Counts (δ := δ) kind recording total))
      (BoundedPool.retrieve parkedOf completed
        (fun fence => Action.on sharedOf (Shared.waitFor .graphics fence))
        (Action.on sharedOf (Shared.createHeap heap.desc)))
      (heap.Ready kind recording counts total) (Abides kind config counts total) := by
  refine retrieve_meets heap.parked (fun _ => heap.Beside (Shared.Counts kind recording total))
    (fun _ _ _ beside => congrArg OnlineHeap.parked beside.1)
    (fun popped _ _ beside => unpark_ready parks full popped beside)
    (fun chosen => create_ready made parks (create_room chosen)) (fun _ => note_beside_counts rfl) ?_
  exact fun fence _ => beside_abides made parks (Shared.counts_retained
    (Shared.waitFor_keeps .graphics fence) fun _ => Shared.waitFor_wanes .graphics fence)

theorem swap_abides (made : heap.Made kind config) (parks : heap.parked.Parks recording counts)
    (full : heap.desc.slots = heap.maxSize) :
    Action.Meets (heap.Beside (Shared.Counts (δ := δ) kind recording total)) (swap recording)
      (fun _ => Abides kind config (oneMore recording counts) (oneMore recording total))
      (Abides kind config counts total) := by
  refine swap_meets heap (fun _ => heap.Beside (Shared.Counts kind recording total))
    (fun _ _ _ beside => beside.1) ?_ (fun _ => note_beside_counts rfl)
    (fun stalled _ => create_ready made parks (parks.stalled_room stalled))
    (fun _ completed => retrieve_ready made parks full completed) (exchange_abides made full)
  exact beside_abides made parks (Shared.counts_retained (Shared.completedFence_keeps .graphics)
    fun _ => Shared.completedFence_wanes .graphics)

theorem rollOver_abides (made : heap.Made kind config) (parks : heap.parked.Parks recording counts) :
    Action.Meets (heap.Beside (Shared.Counts (δ := δ) kind recording total)) rollOver
      (fun _ => if heap.desc.slots < heap.maxSize then Abides kind config counts total
        else Abides kind config (oneMore recording counts) (oneMore recording total))
      (Abides kind config counts total) := by
  apply recording_counts
  apply meets_look
  intro both same
  subst same
  dsimp only
  by_cases room : both.1.desc.slots < both.1.maxSize
  · rw [if_pos room, if_pos room]
    exact grow_abides made parks recording
  · rw [if_neg room, if_neg room]
    refine Action.meets_given (fun _ _ beside => beside.2.1.top) fun top => ?_
    exact swap_abides made parks (Nat.le_antisymm top (Nat.le_of_not_lt room))

end Turning

section Calling

def together (rolled others : Nat → Nat) (fence : Nat) : Nat := rolled fence + others fence

theorem together_oneMore :
    together (oneMore recording rolled) others = oneMore recording (together rolled others) := by
  funext other
  exact Nat.add_right_comm ..

def Abiding (kind : Kind) (config : OnlineConfig) (others : Nat → Nat) :
    Claims (OnlineHeap × Shared δ) := fun past both =>
  ∃ rolled, Abides kind config rolled (together rolled others) past both

theorem abiding_of_abides {x : Action (OnlineHeap × Shared δ) α}
    (retains : ∀ rolled, Action.Retains (Abides kind config rolled (together rolled others)) x) :
    Action.Retains (Abiding kind config others) x :=
  Action.retains_of_runs fun _ _ ⟨rolled, abides⟩ => ⟨rolled, (retains rolled).run abides⟩

theorem closeBatch_abides (queue : Queue) :
    Action.Retains (Abides (δ := δ) kind config counts total)
      (Action.on sharedOf (Shared.closeBatch queue)) := by
  refine Action.retains_of_runs fun past both ⟨fits, made, parks, told⟩ => ?_
  have forward : both.2.recording.graphics ≤
      (both.2.recording.set queue (both.2.recording.get queue + 1)).graphics := by
    cases queue with
    | graphics => exact Nat.le_succ _
    | compute | copy => exact Nat.le_refl _
  have plain : (Event.closed queue (both.2.recording.get queue)).isPlain = true := rfl
  have counts := told.plain (List.forall_mem_singleton.mpr plain) rfl rfl
  exact ⟨fits.append _, made, parks.later forward, rfl, counts.heapsMade, counts.rolls⟩

theorem trim_abides (threshold completed : Nat) :
    Action.Retains (Abides (δ := δ) kind config counts total) (trim threshold completed) := by
  apply meets_abides
  intro heap recording made parks
  apply meets_look
  intro both same
  subst same
  dsimp only
  cases evicted : both.1.parked.line.evict? threshold completed with
  | none => exact Action.meets_pure fun _ _ beside => abides_of_beside made parks beside
  | some out =>
    obtain ⟨object, line⟩ := out
    obtain ⟨entry, shape, -, -⟩ := FenceLine.evict?_some evicted
    have left : line.entries.Sublist both.1.parked.line.entries :=
      shape ▸ List.sublist_cons_self ..
    have fewer : (both.1.parking line).Made kind config := ⟨made.kind, made.top, made.bound⟩
    have parked : (both.1.parking line).parked.Parks recording counts := parks.fewer left
    refine Action.meets_via
      (fun _ => (both.1.parking line).Beside (Shared.Counts kind recording total))
      (Action.meets_before Action.meets_modify ?_) fun _ => ?_
    · rintro past ⟨used, shared⟩ ⟨same, fits, told⟩
      simp only at same
      subst same
      exact ⟨rfl, fits.parking left, told⟩
    · refine Action.meets_bind (beside_abides fewer parked (Shared.drop_counts _)) fun _ => ?_
      exact Action.meets_pure fun _ _ beside => abides_of_beside fewer parked beside

theorem recording_abiding :
    Action.Retains (Abiding (δ := δ) kind config others)
      (Action.on sharedOf (Shared.recordingFence .graphics)) :=
  abiding_of_abides fun _ => shared_abides (fun _ => rfl) fun _ => Shared.recordingFence_wanes .graphics

theorem allocate_abiding (slots fence : Nat) :
    Action.Retains (Abiding (δ := δ) kind config others)
      (Action.on ringOf (Ring.allocate slots fence)) :=
  abiding_of_abides fun _ => ring_abides fun _ => Ring.allocate_stays slots fence

theorem reclaimSlots_abiding (completed : Nat) :
    Action.Retains (Abiding (δ := δ) kind config others) (reclaimSlots completed) :=
  abiding_of_abides fun _ => ring_abides fun _ => Ring.deallocate_stays completed

variable [Device δ]

theorem rollOver_abiding : Action.Retains (Abiding (δ := δ) kind config others) rollOver := by
  rintro past both ⟨rolled, abides⟩
  have ends := rollOver_abides abides.made abides.parks past both ⟨rfl, abides.fits, abides.told⟩
  refine ends.weaken (fun _ now after => ?_) fun _ _ stopped => ⟨rolled, stopped⟩
  by_cases room : both.1.desc.slots < both.1.maxSize
  · rw [if_pos room]
    exact fun abides => ⟨rolled, abides⟩
  · rw [if_neg room, ← together_oneMore]
    exact fun abides => ⟨_, abides⟩

theorem reserve_abiding (slots : Nat) :
    Action.Retains (Abiding (δ := δ) kind config others) (reserve slots) := by
  have completes : Action.Retains (Abiding (δ := δ) kind config others)
      (Action.on sharedOf (Shared.completedFence .graphics)) :=
    abiding_of_abides fun _ => shared_abides (Shared.completedFence_keeps .graphics) fun _ =>
      Shared.completedFence_wanes .graphics
  exact reserve_retains (fun _ => abiding_of_abides fun _ => note_abides rfl) recording_abiding
    (allocate_abiding slots) completes reclaimSlots_abiding rollOver_abiding

theorem call_abiding (call : HeapCall) :
    Action.Retains (Abiding (δ := δ) kind config others) call.run := by
  cases call with
  | reserve slots => exact Action.retains_bind (reserve_abiding slots) fun _ => Action.retains_pure _
  | reclaim completed => exact reclaimSlots_abiding completed
  | trim threshold completed =>
    exact Action.retains_bind (abiding_of_abides fun _ => trim_abides threshold completed)
      fun _ => Action.retains_pure _
  | close queue =>
    exact Action.retains_bind (abiding_of_abides fun _ => closeBatch_abides queue)
      fun _ => Action.retains_pure _
  | probe slots =>
    apply Action.retains_bind recording_abiding
    intro fence
    exact Action.retains_bind (allocate_abiding slots fence) fun _ => Action.retains_pure _
  | rollOver => exact rollOver_abiding

end Calling

section Living

variable [Device δ]

theorem create_abides (kind : Kind) (config : OnlineConfig) :
    Action.Meets (Shared.Counts (δ := δ) kind recording total) (create kind config)
      (fun heap past shared => Abides kind config (fun _ => 0) total past (heap, shared))
      (Shared.Counts kind recording total) := by
  unfold create
  split
  · exact Action.meets_refuse fun _ _ counts => counts
  rename_i accepted
  simp only [Bool.or_eq_true, decide_eq_true_eq, not_or] at accepted
  have top : config.initialSize ≤ config.maxSize := Nat.le_of_not_lt accepted.2
  let desc := HeapDesc.visible kind config.initialSize
  have makes : Action.Meets (Shared.Counts (δ := δ) kind recording total) (Shared.createHeap desc)
      (fun object => Offers object config.initialSize kind recording total)
      (Shared.Counts kind recording total) :=
    Action.meets_after (Shared.createHeap_counts desc) fun _ _ _ made =>
      ⟨⟨desc, made.2, rfl⟩, made.1⟩
  refine Action.meets_bind makes fun object => ?_
  refine Action.meets_bind (offers_retained (gpuBaseOf_counts object)) fun base => ?_
  cases sized : Ring.ofLedger? config.initialSize config.ledgerPlaces with
  | error error =>
    apply Action.meets_bind
    · exact Action.meets_before (Shared.drop_counts _) fun _ _ offers => offers.2
    · exact fun _ => Action.meets_refuse fun _ _ counts => counts
  | ok ring =>
    obtain ⟨-, rfl⟩ := Ring.some_place_of_ofLedger? sized
    refine Action.meets_bind Action.meets_get fun shared => ?_
    apply Action.meets_pure
    rintro past after ⟨⟨placed, counts⟩, -⟩
    have recorded := counts.recording
    subst recorded
    have fits_none (entry : Waiting HeapObject) (present : entry ∈ []) :
        MadeWith past entry.item.serial config.maxSize := (List.not_mem_nil present).elim
    exact ⟨⟨placed, rfl, top, fits_none⟩, ⟨rfl, rfl, rfl⟩, parks_ofBound _, counts⟩

theorem lived_abides (path : Lived kind config told rolled both) :
    ∃ others, Abides kind config rolled (together rolled others) told both := by
  induction path with
  | @created told shared heap counted made =>
    have counts : shared.Counts kind shared.recording.graphics
        (together (fun _ => 0) fun fence => rolls kind fence told) told :=
      ⟨rfl, counted, fun fence => (Nat.zero_add _).symm⟩
    have ends := create_abides kind config told shared counts
    unfold Run.Ends at ends
    rw [made] at ends
    exact ⟨_, ends⟩
  | @call told rolled both path call returned ih =>
    obtain ⟨others, abides⟩ := ih
    obtain ⟨after, now⟩ := (call_abiding call).run ⟨rolled, abides⟩
    have raised : after = fun fence => rolled fence + rolls kind fence (call.run both).events := by
      funext fence
      have before := abides.told.rolls fence
      have later := now.told.rolls fence
      rw [rolls_append, before] at later
      unfold together at later
      omega
    exact ⟨others, raised ▸ now⟩
  | @elsewhere told rolled both path after events forward counted ih =>
    obtain ⟨others, fits, made, parks, counts⟩ := ih
    have heapsMade : after.machine.heapsMade = (madeHeaps (told ++ events)).length := by
      rw [counted, counts.heapsMade, madeHeaps_append, List.length_append]
    have all (fence : Nat) : rolls kind fence (told ++ events) =
        together rolled (fun fence => others fence + rolls kind fence events) fence := by
      rw [rolls_append, counts.rolls]
      exact Nat.add_assoc ..
    exact ⟨_, fits.append events, made, parks.later forward, rfl, heapsMade, all⟩

theorem rollOver_counted (path : Lived kind config told rolled both) (batch : Nat) :
    rolls kind batch (rollOver both).events =
      if (rollOver both).result = .ok () ∧ both.1.maxSize ≤ both.1.desc.slots ∧
        batch = both.2.recording.graphics then 1 else 0 := by
  obtain ⟨others, abides⟩ := lived_abides path
  have before := abides.told.rolls batch
  have ends := rollOver_abides abides.made abides.parks told both ⟨rfl, abides.fits, abides.told⟩
  have raised {counts total : Nat → Nat} (now : Abides kind config counts total
      (told ++ (rollOver both).events) (rollOver both).state) :
      together rolled others batch + rolls kind batch (rollOver both).events = total batch := by
    rw [← before, ← rolls_append]
    exact now.told.rolls batch
  unfold Run.Ends at ends
  cases ended : (rollOver both).result with
  | error stop =>
    rw [ended] at ends
    rw [if_neg fun all => nomatch all.1]
    exact Nat.left_eq_add.mp (raised ends).symm
  | ok _ =>
    rw [ended] at ends
    by_cases room : both.1.desc.slots < both.1.maxSize
    · simp only [if_pos room] at ends
      rw [if_neg fun all => Nat.not_lt.mpr all.2.1 room]
      exact Nat.left_eq_add.mp (raised ends).symm
    · simp only [if_neg room] at ends
      have counted := raised ends
      unfold oneMore at counted
      simp only [Nat.add_left_cancel counted, true_and, Nat.le_of_not_lt room]

-- Parked heaps lie in the order of their batches, none of them later than the one being recorded,
-- and each is as large as the heap may grow. There are no more of them than the pool is made for, or
-- than the heap was rolled over at that size during some one batch.
theorem parked_bounded (path : Lived kind config told rolled both) :
    (both.1.parked.line.entries.Pairwise fun earlier later => earlier.fence ≤ later.fence) ∧
    (∀ entry ∈ both.1.parked.line.entries, entry.fence ≤ both.2.recording.graphics ∧
      MadeWith told entry.item.serial config.maxSize) ∧
    ∃ batch, both.1.parked.line.size ≤ max (max config.poolDepth 1) (rolled batch) := by
  obtain ⟨others, fits, made, parks, -⟩ := lived_abides path
  refine ⟨parks.sorted, fun entry present => ⟨parks.timely entry present, ?_⟩, ?_⟩
  · rw [← made.top]
    exact fits.parked entry present
  · rw [← made.bound]
    exact parks.size

-- Two roll-overs during the first batch leave two heaps in a pool that is made for one.
theorem parked_bounded_stalled :
    ∃ (told : List Event) (rolled : Nat → Nat) (both : OnlineHeap × Shared Scripted),
      Lived .view ⟨2, 2, 1, 4⟩ told rolled both ∧
      both.1.parked.line.entries.map Waiting.fence = [1, 1] ∧ rolled 1 = 2 ∧
      ∃ batch, both.1.parked.line.size ≤ max (max 1 1) (rolled batch) := by
  have opens := (Option.some_get (by decide +kernel :
    (opened? Scripted.standard .minimal .view ⟨2, 2, 1, 4⟩).isSome = true)).symm
  obtain ⟨told, path⟩ := opened_lived opens
  replace path := (path.call (.reserve 2) (by decide +kernel)).call (.reserve 2) (by decide +kernel)
  replace path := (path.call (.reserve 2) (by decide +kernel)).call (.close .graphics)
    (by decide +kernel)
  exact ⟨_, _, _, path, by decide +kernel, by decide +kernel, (parked_bounded path).2.2⟩

end Living

end OnlineHeap

end Reclaim
