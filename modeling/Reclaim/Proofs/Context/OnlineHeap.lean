import Reclaim.Proofs.Context.Composition
import Reclaim.Proofs.Context.Shared

namespace Reclaim

def MadeWith (past : List Event) (serial slots : Nat) : Prop :=
  ∃ desc, (madeHeaps past)[serial]? = some desc ∧ desc.slots = slots

theorem MadeWith.append {past : List Event} {serial slots : Nat} (made : MadeWith past serial slots)
    (events : List Event) : MadeWith (past ++ events) serial slots := by
  obtain ⟨desc, placed, same⟩ := made
  exact ⟨desc, made_append placed events, same⟩

namespace OnlineHeap

variable {δ α : Type}

-- The heap in use has its leases in the ring.
def current (heap : OnlineHeap) (waves : List Wave) : Berth :=
  ⟨heap.object.serial, fun lease => 0 < lease.slots → heap.ring.Secures waves lease.grant⟩

-- A parked heap is left alone until its fence, and that is after its leases.
def parkedBerths (line : FenceLine HeapObject) : List Berth :=
  line.entries.map fun entry => ⟨entry.item.serial, fun lease => lease.fence ≤ entry.fence⟩

def berths (heap : OnlineHeap) (waves : List Wave) : List Berth :=
  heap.current waves :: parkedBerths heap.parked.line

def parking (heap : OnlineHeap) (line : FenceLine HeapObject) : OnlineHeap :=
  { heap with parked := { heap.parked with line := line } }

structure Fits (heap : OnlineHeap) (past : List Event) : Prop where
  made : MadeWith past heap.object.serial heap.desc.slots
  ring : heap.ring.size = heap.desc.slots
  top : heap.desc.slots ≤ heap.maxSize
  parked : ∀ entry ∈ heap.parked.line.entries, MadeWith past entry.item.serial heap.maxSize

structure Honours (leases : List Lease) (others : List Berth) (now floor : Nat)
    (past : List Event) (both : OnlineHeap × Shared δ) : Prop where
  fits : both.1.Fits past
  upholds : ∃ waves, both.1.ring.Holds waves ∧ both.2.Upholds leases
    (both.1.berths waves ++ others) now floor past

variable {leases : List Lease} {others berths : List Berth} {now floor : Nat} {heap : OnlineHeap}
  {past events : List Event} {waves : List Wave} {failed : Claims (OnlineHeap × Shared δ)}

theorem Fits.append (fits : heap.Fits past) (events : List Event) : heap.Fits (past ++ events) :=
  ⟨fits.made.append events, fits.ring, fits.top,
    fun entry present => (fits.parked entry present).append events⟩

theorem Fits.parking {line : FenceLine HeapObject} (fits : heap.Fits past)
    (fewer : line.entries.Sublist heap.parked.line.entries) : (heap.parking line).Fits past :=
  ⟨fits.made, fits.ring, fits.top, fun entry present => fits.parked entry (fewer.subset present)⟩

theorem Fits.moved {after : Ring} (fits : heap.Fits past) (size : after.size = heap.ring.size)
    (events : List Event) : Fits { heap with ring := after } (past ++ events) :=
  ⟨fits.made.append events, size.trans fits.ring, fits.top, (fits.append events).parked⟩

theorem Fits.parked_push (fits : heap.Fits past) (full : heap.desc.slots = heap.maxSize)
    (fence : Nat) : ∀ entry ∈ (heap.parked.push heap.object fence).line.entries,
      MadeWith past entry.item.serial heap.maxSize := by
  intro entry present
  rcases List.mem_append.mp present with old | new
  · exact fits.parked entry old
  · rw [List.mem_singleton.mp new]
    exact full ▸ fits.made

theorem Honours.lower {both : OnlineHeap × Shared δ}
    (honours : Honours leases others now floor past both) :
    Honours leases others now 0 past both := by
  obtain ⟨fits, waves, holds, upholds⟩ := honours
  exact ⟨fits, waves, holds, upholds.lower (Nat.zero_le _)⟩

def Beside (heap : OnlineHeap) (claims : Claims (Shared δ)) : Claims (OnlineHeap × Shared δ) :=
  fun past both => both.1 = heap ∧ heap.Fits past ∧ claims past both.2

section Besides

variable {pre stopped : Claims (Shared δ)} {β : Type}

theorem meets_beside {x : Action (Shared δ) α} {post : α → Claims (Shared δ)}
    (meets : Action.Meets pre x post stopped) :
    Action.Meets (heap.Beside pre) (Action.on sharedOf x) (fun a => heap.Beside (post a))
      (heap.Beside stopped) := by
  apply Action.meets_on (fun _ => rfl)
  intro s
  have framed := Action.meets_lasting (fun past => s.1 = heap ∧ heap.Fits past)
    (fun past events both => ⟨both.1, both.2.append events⟩) meets
  exact Action.meets_weaken framed (fun _ _ all => ⟨⟨all.1, all.2.1⟩, all.2.2⟩)
    (fun _ _ _ all => ⟨all.1.1, all.1.2, all.2⟩) fun _ _ all => ⟨all.1.1, all.1.2, all.2⟩

theorem meets_beside_surely {x : Action (Shared δ) α} {post : α → Claims (Shared δ)}
    (meets : Action.Meets pre x post fun _ _ => False) :
    Action.Meets (heap.Beside pre) (Action.on sharedOf x) (fun a => heap.Beside (post a)) failed :=
  Action.meets_weaken (meets_beside meets) (fun _ _ holds => holds) (fun _ _ _ holds => holds)
    fun _ _ stopped => stopped.2.2.elim

theorem meets_look {f : OnlineHeap × Shared δ → Action (OnlineHeap × Shared δ) β}
    {post : β → Claims (OnlineHeap × Shared δ)}
    (next : ∀ both, both.1 = heap → Action.Meets (heap.Beside pre) (f both) post failed) :
    Action.Meets (heap.Beside pre) (Action.get >>= f) post failed := by
  refine Action.meets_bind Action.meets_get fun both => ?_
  refine Action.meets_given (fun _ s seen => (congrArg Prod.fst seen.2).trans seen.1.1) fun same => ?_
  exact Action.meets_before (next both same) fun _ _ seen => seen.1

theorem honours_of_beside (holds : heap.ring.Holds waves) {both : OnlineHeap × Shared δ}
    (beside : heap.Beside (Shared.Upholds leases (heap.berths waves ++ others) now floor) past both) :
    Honours leases others now floor past both := by
  obtain ⟨rfl, fits, upholds⟩ := beside
  exact ⟨fits, waves, holds, upholds⟩

theorem meets_honours {x : Action (OnlineHeap × Shared δ) α}
    {post : α → Claims (OnlineHeap × Shared δ)}
    (meets : ∀ (heap : OnlineHeap) waves, heap.ring.Holds waves →
      Action.Meets (heap.Beside (Shared.Upholds leases (heap.berths waves ++ others) now floor)) x
        post failed) :
    Action.Meets (Honours leases others now floor) x post failed :=
  fun past both ⟨fits, waves, holds, upholds⟩ =>
    meets both.1 waves holds past both ⟨rfl, fits, upholds⟩

theorem note_beside (note : Note) :
    Action.Meets (heap.Beside (Shared.Upholds (δ := δ) leases berths now floor)) (Action.note note)
      (fun _ => heap.Beside (Shared.Upholds leases berths now floor)) failed := by
  rintro past both ⟨same, fits, upholds⟩
  exact ⟨same, fits.append _, upholds.quiet (quiet_notes [note]) rfl rfl rfl rfl⟩

theorem note_honours (note : Note) :
    Action.Meets (Honours (δ := δ) leases others now floor) (Action.note note)
      (fun _ => Honours leases others now floor) failed := by
  apply meets_honours
  intro heap waves holds
  exact Action.meets_after (note_beside note) fun _ _ _ beside => honours_of_beside holds beside

theorem recording_beside {f : Nat → Action (OnlineHeap × Shared δ) β}
    {post : β → Claims (OnlineHeap × Shared δ)}
    (next : Action.Meets (heap.Beside (Shared.Upholds leases berths now floor)) (f now) post
      failed) :
    Action.Meets (heap.Beside (Shared.Upholds leases berths now floor))
      (Action.on sharedOf (Shared.recordingFence .graphics) >>= f) post failed := by
  have reads : Action.Meets (Shared.Upholds (δ := δ) leases berths now floor)
      (Shared.recordingFence .graphics)
      (fun fence past s => s.Upholds leases berths now floor past ∧ fence = now)
      fun _ _ => False := by
    apply Action.meets_after (Shared.recordingFence_reads .graphics)
    rintro fence past s ⟨upholds, rfl⟩
    exact ⟨upholds, upholds.recording⟩
  refine Action.meets_bind (meets_beside_surely reads) fun fence => ?_
  refine Action.meets_given (fun _ _ beside => beside.2.2.2) fun same => ?_
  subst same
  exact Action.meets_before next fun _ _ beside => ⟨beside.1, beside.2.1, beside.2.2.1⟩

end Besides

section Objects

def Aside (object : HeapObject) (slots : Nat) (leases : List Lease) (berths : List Berth)
    (now floor : Nat) : Claims (Shared δ) := fun past shared =>
  MadeWith past object.serial slots ∧
    shared.Upholds leases (.spare object.serial :: berths) now floor past

variable {object : HeapObject} {slots : Nat} {line rest : FenceLine HeapObject}

theorem meets_aside {x : Action (Shared δ) α} {left : List Berth} {later : Nat}
    {stopped : Claims (Shared δ)}
    (meets : Action.Meets (Shared.Upholds leases (.spare object.serial :: berths) now floor) x
      (fun _ => Shared.Upholds leases (.spare object.serial :: left) now later) stopped) :
    Action.Meets (Aside object slots leases berths now floor) x
      (fun _ => Aside object slots leases left now later) stopped :=
  Action.meets_weaken (Action.meets_lasting (fun past => MadeWith past object.serial slots)
    (fun _ events made => made.append events) meets) (fun _ _ holds => holds)
    (fun _ _ _ holds => holds) fun _ _ stopped => stopped.2

theorem gpuBaseOf_upholds (object : HeapObject) :
    Action.Meets (Shared.Upholds (δ := δ) leases (.spare object.serial :: berths) now floor)
      (gpuBaseOf object)
      (fun _ => Shared.Upholds leases (.spare object.serial :: berths) now floor)
      (Shared.Upholds leases berths now floor) := by
  unfold gpuBaseOf
  cases object.gpuStart with
  | some base => exact Action.meets_pure fun _ _ holds => holds
  | none =>
    apply Action.meets_bind (Shared.drop_spare object.serial)
    intro _
    exact Action.meets_refuse fun _ _ holds => holds

theorem gpuBaseOf_beside (holds : heap.ring.Holds waves) :
    Action.Meets
      (heap.Beside (Aside (δ := δ) object slots leases (heap.berths waves ++ others) now floor))
      (Action.on sharedOf (gpuBaseOf object))
      (fun _ => heap.Beside (Aside object slots leases (heap.berths waves ++ others) now floor))
      (Honours leases others now floor) :=
  Action.meets_weaken (meets_beside (meets_aside (gpuBaseOf_upholds object)))
    (fun _ _ beside => beside) (fun _ _ _ beside => beside)
    fun _ _ stopped => honours_of_beside holds stopped

theorem install_honours {desc : HeapDesc} {both : OnlineHeap × Shared δ} (base : Handle)
    (holds : heap.ring.Holds waves) (top : desc.slots ≤ heap.maxSize)
    (parked : ∀ entry ∈ line.entries, MadeWith past entry.item.serial heap.maxSize)
    (now_used : both.1 = (install object base desc heap).parking line)
    (aside : Aside object desc.slots leases (parkedBerths line ++ others) now floor past both.2) :
    Honours leases others now floor past both := by
  obtain ⟨used, shared⟩ := both
  obtain ⟨made, upholds⟩ := aside
  subst now_used
  have some_place : 0 < heap.ring.places := Nat.lt_of_le_of_lt (Nat.zero_le _) holds.inside
  refine ⟨⟨made, rfl, top, parked⟩, [], Ring.fresh_holds some_place, ?_⟩
  exact upholds.change fun _ _ spare => spare.elim

theorem pop_spare {item : HeapObject} {reached : Nat} {berth : Berth} {shared : Shared δ}
    (popped : line.pop? reached = some (item, rest))
    (upholds : shared.Upholds leases (berth :: parkedBerths line ++ others) now floor past)
    (known : reached ≤ shared.known.graphics) :
    shared.Upholds leases (.spare item.serial :: berth :: parkedBerths rest ++ others) now floor
        past ∧ ∃ fence, line.entries = ⟨fence, item⟩ :: rest.entries := by
  obtain ⟨entries⟩ := line
  cases entries with
  | nil => cases popped
  | cons front entries =>
    simp only [FenceLine.pop?] at popped
    split at popped
    · rename_i le
      cases popped
      refine ⟨?_, front.fence, rfl⟩
      apply (upholds.perm (List.Perm.swap _ _ _)).change
      intro lease leased honoured
      exact .inl (Nat.le_trans honoured (Nat.le_trans le known))
    · cases popped

theorem unpark_beside {item : HeapObject} {reached : Nat} {both : OnlineHeap × Shared δ}
    (popped : heap.parked.line.pop? reached = some (item, rest))
    (beside : heap.Beside (Shared.Upholds leases (heap.berths waves ++ others) now reached) past
      both) :
    (heap.parking rest).Beside
      (Aside item heap.maxSize leases ((heap.parking rest).berths waves ++ others) now reached) past
      (both.1.parking rest, both.2) := by
  obtain ⟨used, shared⟩ := both
  obtain ⟨same, fits, upholds⟩ := beside
  simp only at same upholds
  subst same
  obtain ⟨spare, fence, entries⟩ := pop_spare popped upholds upholds.floor
  have out := fits.parked ⟨fence, item⟩ (entries ▸ List.mem_cons_self)
  exact ⟨rfl, fits.parking (entries ▸ List.sublist_cons_self ..), out, spare⟩

def Found (heap : OnlineHeap) (leases : List Lease) (others : List Berth) (now : Nat)
    (waves : List Wave) (object : HeapObject) : Claims (OnlineHeap × Shared δ) :=
  fun past both => ∃ line : FenceLine HeapObject, (heap.parking line).Beside
    (Aside object heap.desc.slots leases ((heap.parking line).berths waves ++ others) now 0) past both

theorem found_unpark (full : heap.desc.slots = heap.maxSize) {item : HeapObject} {reached : Nat}
    {both : OnlineHeap × Shared δ} (popped : heap.parked.line.pop? reached = some (item, rest))
    (beside : heap.Beside (Shared.Upholds leases (heap.berths waves ++ others) now reached) past
      both) :
    heap.Found leases others now waves item past
      ((parkedOf.andThen BoundedPool.lineOf).put rest both) := by
  obtain ⟨same, fits, made, upholds⟩ := unpark_beside popped beside
  exact ⟨rest, same, fits, full ▸ made, upholds.lower (Nat.zero_le _)⟩

theorem pop?_of_evict? {threshold reached : Nat} {item : HeapObject}
    (evicted : line.evict? threshold reached = some (item, rest)) :
    line.pop? reached = some (item, rest) := by
  obtain ⟨entries⟩ := line
  cases entries with
  | nil => cases evicted
  | cons front entries =>
    simp only [FenceLine.evict?] at evicted
    split at evicted
    · rename_i idle
      cases evicted
      exact if_pos idle.1
    · cases evicted

theorem park_honours (base : Handle) (holds : heap.ring.Holds waves)
    (full : heap.desc.slots = heap.maxSize) {both : OnlineHeap × Shared δ}
    (found : (heap.parking line).Beside
      (Aside object heap.desc.slots leases ((heap.parking line).berths waves ++ others) now floor)
      past both) :
    Honours leases others now floor past (heapOf.put
      { install object base heap.desc (heapOf.get both) with
        parked := (heapOf.get both).parked.push heap.object now } both) := by
  obtain ⟨used, shared⟩ := both
  obtain ⟨same, fits, made, upholds⟩ := found
  simp only at same upholds
  subst same
  have last : parkedBerths (line.push heap.object now) =
      parkedBerths line ++ [⟨heap.object.serial, fun lease => lease.fence ≤ now⟩] :=
    List.map_append
  have timely : shared.Upholds leases (⟨heap.object.serial, fun lease => lease.fence ≤ now⟩ ::
      .spare object.serial :: (parkedBerths line ++ others)) now floor past := by
    apply (upholds.perm (List.Perm.swap _ _ _)).change
    intro lease leased _
    exact .inr (upholds.upheld.timely lease leased).2
  have parked : ∀ entry ∈ (line.push heap.object now).entries,
      MadeWith past entry.item.serial heap.maxSize := fits.parked_push full now
  refine install_honours base holds fits.top parked rfl ⟨made, ?_⟩
  apply (timely.perm (List.Perm.swap _ _ _)).perm
  rw [last, List.append_assoc]
  exact List.perm_middle.symm.cons _

end Objects

section Rolling

variable [Device δ]

theorem completed_beside :
    Action.Meets (heap.Beside (Shared.Upholds (δ := δ) leases berths now floor))
      (Action.on sharedOf (Shared.completedFence .graphics))
      (fun known => heap.Beside (Shared.Upholds leases berths now known)) failed :=
  meets_beside_surely Shared.completed_floor

theorem createHeap_beside (holds : heap.ring.Holds waves) (desc : HeapDesc) :
    Action.Meets
      (heap.Beside (Shared.Upholds (δ := δ) leases (heap.berths waves ++ others) now floor))
      (Action.on sharedOf (Shared.createHeap desc))
      (fun object => heap.Beside
        (Aside object desc.slots leases (heap.berths waves ++ others) now 0))
      (Honours leases others now 0) := by
  refine Action.meets_weaken (meets_beside (Shared.createHeap_upholds desc)) (fun _ _ all => all)
    ?_ fun _ _ stopped => honours_of_beside holds stopped
  rintro object past both ⟨same, fits, upholds, made⟩
  exact ⟨same, fits, ⟨desc, made, rfl⟩, upholds⟩

theorem retire_beside (object : HeapObject) (slots : Nat) :
    Action.Meets
      (heap.Beside (Aside (δ := δ) object slots leases (heap.berths waves ++ others) now floor))
      (Action.on sharedOf (Shared.retire (.heap heap.object) (.single .graphics now) true []))
      (fun _ => heap.Beside
        (Aside object slots leases (parkedBerths heap.parked.line ++ others) now 0)) failed := by
  apply meets_beside_surely
  apply meets_aside
  apply Action.meets_before Shared.retire_upholds
  intro past shared upholds
  exact upholds.perm (List.Perm.swap _ _ _)

theorem grow_honours (holds : heap.ring.Holds waves) :
    Action.Meets
      (heap.Beside (Shared.Upholds (δ := δ) leases (heap.berths waves ++ others) now floor))
      (grow now) (fun _ => Honours leases others now 0) (Honours leases others now 0) := by
  apply meets_look
  intro old same
  subst same
  refine Action.meets_bind (createHeap_beside holds _) fun object => ?_
  refine Action.meets_bind (gpuBaseOf_beside holds) fun base => ?_
  refine Action.meets_bind (retire_beside object _) fun _ => ?_
  refine Action.meets_bind (Action.meets_before Action.meets_on_modify ?_) fun _ => note_honours _
  rintro past both ⟨same, fits, aside⟩
  refine install_honours base holds (Nat.min_le_right _ _) fits.parked ?_ aside
  rw [← same]
  rfl

theorem create_found (holds : heap.ring.Holds waves) :
    Action.Meets
      (heap.Beside (Shared.Upholds (δ := δ) leases (heap.berths waves ++ others) now floor))
      (Action.on sharedOf (Shared.createHeap heap.desc))
      (fun object => heap.Found leases others now waves object) (Honours leases others now 0) :=
  Action.meets_after (createHeap_beside holds heap.desc) fun _ _ _ made =>
    ⟨heap.parked.line, made⟩

theorem retrieve_found (holds : heap.ring.Holds waves) (full : heap.desc.slots = heap.maxSize)
    (completed : Nat) :
    Action.Meets
      (heap.Beside (Shared.Upholds (δ := δ) leases (heap.berths waves ++ others) now completed))
      (BoundedPool.retrieve parkedOf completed
        (fun fence => Action.on sharedOf (Shared.waitFor .graphics fence))
        (Action.on sharedOf (Shared.createHeap heap.desc)))
      (fun object => heap.Found leases others now waves object) (Honours leases others now 0) := by
  refine BoundedPool.retrieve_meets heap.parked
    (fun reached => heap.Beside (Shared.Upholds leases (heap.berths waves ++ others) now reached))
    (fun _ _ _ beside => congrArg OnlineHeap.parked beside.1)
    (fun popped _ _ beside => found_unpark full popped beside) (fun _ => create_found holds)
    (fun _ => note_beside _) fun fence _ => ?_
  refine Action.meets_weaken (meets_beside (Shared.waitFor_upholds .graphics fence))
    (fun _ _ beside => beside) ?_ fun _ _ stopped => honours_of_beside holds stopped
  rintro _ past both ⟨same, fits, upholds, come⟩
  exact ⟨same, fits, { upholds with floor := come rfl }⟩

omit [Device δ] in
theorem exchange_honours (holds : heap.ring.Holds waves) (full : heap.desc.slots = heap.maxSize)
    (object : HeapObject) :
    Action.Meets (heap.Found (δ := δ) leases others now waves object) (exchange heap now object)
      (fun _ => Honours leases others now 0) (Honours leases others now 0) := by
  apply Action.meets_exists
  intro line
  have same : (heap.parking line).ring.Holds waves := holds
  refine Action.meets_bind (gpuBaseOf_beside same) fun base => ?_
  refine Action.meets_bind (Action.meets_before Action.meets_on_modify fun _ _ =>
    park_honours base holds full) fun _ => ?_
  refine Action.meets_bind Action.meets_get fun rolled => ?_
  exact Action.meets_before (note_honours _) fun _ _ both => both.1

theorem swap_honours (holds : heap.ring.Holds waves) (full : heap.desc.slots = heap.maxSize) :
    Action.Meets
      (heap.Beside (Shared.Upholds (δ := δ) leases (heap.berths waves ++ others) now floor))
      (swap now) (fun _ => Honours leases others now 0) (Honours leases others now 0) :=
  swap_meets heap
    (fun completed =>
      heap.Beside (Shared.Upholds leases (heap.berths waves ++ others) now completed))
    (fun _ _ _ beside => beside.1) completed_beside (fun _ => note_beside _)
    (fun _ _ => create_found holds) (fun _ completed => retrieve_found holds full completed)
    (exchange_honours holds full)

theorem rollOver_honours :
    Action.Meets (Honours (δ := δ) leases others now floor) rollOver
      (fun _ => Honours leases others now 0) (Honours leases others now 0) := by
  apply meets_honours
  intro heap waves holds
  apply recording_beside
  apply meets_look
  intro both same
  subst same
  dsimp only
  by_cases room : both.1.desc.slots < both.1.maxSize
  · rw [if_pos room]
    exact grow_honours holds
  · rw [if_neg room]
    refine Action.meets_given (fun _ _ beside => beside.2.1.top) fun top => ?_
    have full : both.1.desc.slots = both.1.maxSize := by omega
    exact swap_honours holds full

end Rolling

section Reserving

theorem ring_honours {after : Ring} {left : List Wave} {shared : Shared δ}
    (fits : heap.Fits past) (held : after.Holds left) (size : after.size = heap.ring.size)
    (upholds : shared.Upholds leases
      (heap.berths waves ++ others) now floor past)
    (secured : ∀ lease ∈ leases, heap.ring.Secures waves lease.grant →
      lease.fence ≤ shared.known.graphics ∨ after.Secures left lease.grant)
    (notes : List Note) :
    Honours leases others now floor (past ++ notes.map .noted)
      ({ heap with ring := after }, shared) := by
  refine ⟨fits.moved size _, left, held, ?_⟩
  have changed : shared.Upholds leases
      (current { heap with ring := after } left :: parkedBerths heap.parked.line ++ others) now
        floor past := by
    refine { upholds with upheld := upholds.upheld.change fun lease leased kept => ?_ }
    by_cases asked : 0 < lease.slots
    · exact (secured lease leased (kept asked)).imp_right fun secure _ => secure
    · exact .inr fun some_slots => absurd some_slots asked
  exact changed.quiet (quiet_notes notes) rfl rfl rfl rfl

theorem lease_honours {after : Ring} {left : List Wave} {shared : Shared δ} {first slots : Nat}
    (fits : heap.Fits past) (held : after.Holds left) (size : after.size = heap.ring.size)
    (upholds : shared.Upholds leases
      (heap.berths waves ++ others) now floor past)
    (secured : ∀ grant, heap.ring.Secures waves grant → after.Secures left grant)
    (inside : first + slots ≤ heap.ring.size)
    (apart : ∀ grant, heap.ring.Secures waves grant → 0 < slots →
      grant.Disjoint ⟨first, slots, now⟩)
    (secure : 0 < slots → after.Secures left ⟨first, slots, now⟩) (notes : List Note) :
    Honours (leases ++ [⟨heap.object.serial, first, slots, now, past ++ notes.map .noted⟩]) others
      now floor (past ++ notes.map .noted) ({ heap with ring := after }, shared) := by
  refine ⟨fits.moved size _, left, held, ?_⟩
  have noted := upholds.quiet (quiet_notes notes) rfl rfl rfl rfl
  obtain ⟨desc, placed, same⟩ := fits.made.append (notes.map .noted)
  have room : first + slots ≤ desc.slots := by
    rw [same, ← fits.ring]
    exact inside
  refine { noted with upheld := noted.upheld.grant rfl rfl rfl placed room ?_ ?_ secure }
  · intro other leased kept slot had has
    unfold Lease.Has at had has
    simp only at has
    have separate := apart other.grant (kept (by omega)) (by omega)
    unfold Ring.Grant.Disjoint Lease.grant at separate
    simp only at separate
    omega
  · intro other leased kept
    exact .inr fun asked => secured other.grant (kept asked)

theorem allocate_honours (holds : heap.ring.Holds waves) (slots : Nat) :
    Action.Meets (heap.Beside (Shared.Upholds (δ := δ) leases
        (heap.berths waves ++ others) now 0))
      (Action.on ringOf (Ring.allocate slots now))
      (fun first past both =>
        Honours (leases ++ [⟨both.1.object.serial, first, slots, now, past⟩]) others now 0 past both)
      (Honours leases others now 0) := by
  rintro past ⟨used, shared⟩ ⟨same, fits, upholds⟩
  simp only at same upholds
  subst same
  obtain ⟨result, after, left, notes, ran, held, came⟩ := Ring.allocate_exact holds slots now
  rw [Action.on_of_run ringOf ran]
  cases came with
  | unfit | ledgerFull =>
    exact ring_honours fits held rfl upholds (fun _ _ secure => .inr secure) notes
  | tailFull asked fit opening took full =>
    exact ring_honours fits held took.size upholds
      (fun _ _ secure => .inr (Ring.secures_opened held opening took secure)) notes
  | ringFull asked fit opening took passed full =>
    exact ring_honours fits held took.size upholds
      (fun _ _ secure => .inr (Ring.secures_took held opening took secure)) notes
  | overflow opening took far =>
    exact ring_honours fits held took.size upholds
      (fun _ _ secure => .inr (Ring.secures_took held opening took secure)) notes
  | nothing some_size nothing =>
    have position := Ring.position_lt some_size
    exact lease_honours fits held rfl upholds (fun _ secure => secure) (by omega)
      (fun _ _ asked => by omega) (fun asked => by omega) notes
  | granted asked fit opening took free =>
    have some_size : 0 < used.ring.size := by omega
    exact lease_honours fits held took.size upholds
      (fun _ secure => Ring.secures_took held opening took secure)
      (Ring.start_inside some_size fit)
      (fun _ secure _ => Ring.granted_apart holds secure free)
      (fun _ => Ring.granted_secured some_size asked fit opening took) notes

theorem deallocate_honours (completed : Nat) :
    Action.Meets (Honours (δ := δ) leases others now completed)
      (Action.on ringOf (Ring.deallocate completed))
      (fun _ => Honours leases others now completed) (Honours leases others now completed) := by
  rintro past ⟨used, shared⟩ ⟨fits, waves, holds, upholds⟩
  rcases Ring.deallocate_run holds completed with ⟨ran, -⟩ | ⟨notes, ran⟩
  · rw [Action.on_of_run ringOf ran]
    exact ring_honours fits holds rfl upholds (fun _ _ secure => .inr secure) []
  · rw [Action.on_of_run ringOf ran]
    refine ring_honours fits (Ring.reclaimed_holds holds completed) rfl upholds ?_ notes
    intro lease leased secure
    rcases Nat.lt_or_ge completed lease.fence with kept | come
    · exact .inr (Ring.secures_reclaimed kept secure)
    · exact .inl (Nat.le_trans come upholds.floor)

theorem trim_honours (threshold completed : Nat) :
    Action.Meets (Honours (δ := δ) leases others now completed) (trim threshold completed)
      (fun _ => Honours leases others now completed) failed := by
  apply meets_honours
  intro heap waves holds
  apply meets_look
  intro both same
  subst same
  dsimp only
  cases evicted : both.1.parked.line.evict? threshold completed with
  | none => exact Action.meets_pure fun _ _ beside => honours_of_beside holds beside
  | some out =>
    obtain ⟨object, line⟩ := out
    have taken : Action.Meets
        (both.1.Beside (Shared.Upholds leases (both.1.berths waves ++ others) now completed))
        (Action.modify (parkedOf.put { both.1.parked with line := line }))
        (fun _ => (both.1.parking line).Beside (Shared.Upholds leases
          (.spare object.serial :: (both.1.parking line).berths waves ++ others) now completed))
        failed := by
      apply Action.meets_before Action.meets_modify
      intro past state beside
      obtain ⟨same, fits, made, upholds⟩ := unpark_beside (pop?_of_evict? evicted) beside
      refine ⟨?_, fits, upholds⟩
      rw [← beside.1]
      rfl
    have used : (both.1.parking line).ring.Holds waves := holds
    refine Action.meets_bind taken fun _ => ?_
    refine Action.meets_bind (meets_beside_surely (Shared.drop_spare object.serial)) fun _ => ?_
    exact Action.meets_pure fun _ _ beside => honours_of_beside used beside

def leaseOf (slots now : Nat) (reservation : Reservation) (past : List Event)
    (both : OnlineHeap × Shared δ) : Lease :=
  ⟨both.1.object.serial, reservation.first, slots, now, past⟩

variable [Device δ]

theorem reserveWithin_honours (slots attempts : Nat) (rolledOver reclaimed : Bool) :
    Action.Meets (Honours (δ := δ) leases others now 0)
      (reserveWithin slots attempts rolledOver reclaimed)
      (fun reservation past both => Honours (leases ++ [leaseOf slots now reservation past both])
        others now 0 past both)
      (Honours leases others now 0) := by
  induction attempts generalizing rolledOver reclaimed with
  | zero =>
    refine Action.meets_bind Action.meets_get fun both => ?_
    refine Action.meets_bind (Action.meets_before (note_honours _) fun _ _ all => all.1) fun _ => ?_
    exact Action.meets_refuse fun _ _ honours => honours
  | succ attempts ih =>
    apply meets_honours
    intro heap waves holds
    apply recording_beside
    refine Action.meets_bind (Action.meets_attempt (allocate_honours holds slots)) fun result => ?_
    cases result with
    | ok first => exact Action.meets_pure fun _ _ honours => honours
    | error error =>
      dsimp only
      by_cases probed : (error.isExhausted && !reclaimed) = true
      · rw [if_pos probed]
        refine meets_honours fun heap waves holds => ?_
        refine Action.meets_bind completed_beside fun completed => ?_
        refine Action.meets_bind (Action.meets_weaken (deallocate_honours completed)
          (fun _ _ beside => honours_of_beside holds beside) (fun _ _ _ honours => honours)
          fun _ _ honours => honours.lower) fun _ => ?_
        exact Action.meets_before (ih rolledOver true) fun _ _ honours => honours.lower
      · rw [if_neg probed]
        by_cases rolls : (error.isExhausted || error = .invalidParameter) = true
        · rw [if_pos rolls]
          exact Action.meets_bind rollOver_honours fun _ => ih true reclaimed
        · rw [if_neg rolls]
          exact Action.meets_refuse fun _ _ honours => honours

theorem reserve_honours (slots : Nat) :
    Action.Meets (Honours (δ := δ) leases others now 0) (reserve slots)
      (fun reservation past both => Honours (leases ++ [leaseOf slots now reservation past both])
        others now 0 past both)
      (Honours leases others now 0) := by
  refine Action.meets_bind Action.meets_get fun both => ?_
  by_cases large : both.1.maxSize < slots
  · rw [if_pos large]
    exact Action.meets_refuse fun _ _ both => both.1
  · rw [if_neg large]
    exact Action.meets_before (reserveWithin_honours slots maxAttempts false false)
      fun _ _ both => both.1

end Reserving

section Creating

variable [Device δ]

theorem create_honours (kind : Kind) (config : OnlineConfig) :
    Action.Meets (Shared.Upholds (δ := δ) leases others now floor) (create kind config)
      (fun heap past shared => Honours leases others now 0 past (heap, shared))
      (Shared.Upholds leases others now 0) := by
  unfold create
  split
  · exact Action.meets_refuse fun _ _ upholds => upholds.lower (Nat.zero_le _)
  rename_i accepted
  simp only [Bool.or_eq_true, decide_eq_true_eq, not_or] at accepted
  have top : config.initialSize ≤ config.maxSize := Nat.le_of_not_lt accepted.2
  let desc := HeapDesc.visible kind config.initialSize
  have makes : Action.Meets (Shared.Upholds (δ := δ) leases others now floor)
      (Shared.createHeap desc) (fun object => Aside object config.initialSize leases others now 0)
      (Shared.Upholds leases others now 0) :=
    Action.meets_after (Shared.createHeap_upholds desc) fun _ _ _ made =>
      ⟨⟨desc, made.2, rfl⟩, made.1⟩
  refine Action.meets_bind makes fun object => ?_
  refine Action.meets_bind (meets_aside (gpuBaseOf_upholds object)) fun base => ?_
  cases sized : Ring.ofLedger? config.initialSize config.ledgerPlaces with
  | error error =>
    refine Action.meets_bind (Action.meets_before (Shared.drop_spare object.serial)
      fun _ _ aside => aside.2) fun _ => ?_
    exact Action.meets_refuse fun _ _ upholds => upholds
  | ok ring =>
    obtain ⟨some_place, rfl⟩ := Ring.some_place_of_ofLedger? sized
    refine Action.meets_bind Action.meets_get fun shared => ?_
    apply Action.meets_pure
    rintro past after ⟨⟨made, upholds⟩, -⟩
    refine ⟨⟨made, rfl, top, ?_⟩, [], Ring.fresh_holds some_place, ?_⟩
    · intro entry present
      exact (List.not_mem_nil present).elim
    · exact upholds.change fun _ _ spare => spare.elim

end Creating

end OnlineHeap

end Reclaim
