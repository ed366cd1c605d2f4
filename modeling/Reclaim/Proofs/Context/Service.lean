import Reclaim.Proofs.Context.Fallback
import Reclaim.Proofs.Context.Soundness

namespace Reclaim

variable {σ τ δ α β : Type}

-- The device did what it was asked. A heap that shaders cannot address is not what was asked for.
def Event.isServed : Event → Bool
  | .asked _ (.failed _) | .asked (.heap _) .withoutGpu => false
  | _ => true

def Served (events : List Event) : Prop := ∀ event ∈ events, event.isServed = true

instance decidableServed (events : List Event) : Decidable (Served events) :=
  List.decidableBAll ..

theorem served_append {earlier later : List Event} :
    Served (earlier ++ later) ↔ Served earlier ∧ Served later :=
  List.forall_mem_append

theorem Served.after {a : α} {middle : σ} {earlier : List Event} {f : α → Action σ β}
    (served : Served ((⟨.ok a, middle, earlier⟩ : Run σ α).andThen f).events) :
    Served (f a middle).events :=
  (served_append.mp served).2

theorem Served.unfailed {events : List Event} (served : Served events) : Unfailed events := by
  intro event among
  have done := served event among
  cases event with
  | asked call outcome =>
    cases outcome with
    | failed error => cases done
    | done | withoutGpu => cases call <;> rfl
  | _ => rfl

namespace Action

-- Where the device does all that it is asked the operation comes to an end of its own.
def Serves (pre : σ → Prop) (x : Action σ α) (post : α → σ → Prop) : Prop :=
  ∀ s, pre s → Served (x s).events → ∃ a, (x s).result = .ok a ∧ post a (x s).state

variable {pre : σ → Prop} {post post' : α → σ → Prop} {x : Action σ α}

theorem Serves.run {f : α → Action σ β} {s : σ} (serves : Serves pre x post) (held : pre s)
    (served : Served ((x >>= f) s).events) :
    ∃ a middle earlier, x s = ⟨.ok a, middle, earlier⟩ ∧ post a middle ∧
      Served (f a middle).events := by
  rw [run_bind] at served
  have ends := serves s held
  match x s, ends, served with
  | ⟨.ok a, middle, earlier⟩, ends, served =>
    obtain ⟨before, after⟩ := served_append.mp served
    obtain ⟨_, same, reached⟩ := ends before
    cases same
    exact ⟨a, middle, earlier, rfl, reached, after⟩
  | ⟨.error _, _, _⟩, ends, served =>
    obtain ⟨_, same, -⟩ := ends served
    cases same

theorem Serves.onward {f : α → Action σ β} {p : Except Stop β → σ → Prop} {s : σ}
    (serves : Serves pre x post) (held : pre s)
    (next : ∀ a middle, post a middle → Served (f a middle).events →
      p (f a middle).result (f a middle).state)
    (served : Served ((x >>= f) s).events) : p ((x >>= f) s).result ((x >>= f) s).state := by
  obtain ⟨a, middle, earlier, ran, reached, rest⟩ := serves.run held served
  rw [run_bind, ran]
  exact next a middle reached rest

theorem serves_bind {f : α → Action σ β} {last : β → σ → Prop} (first : Serves pre x post)
    (next : ∀ a, Serves (post a) (f a) last) : Serves pre (x >>= f) last := by
  intro s held served
  obtain ⟨a, middle, earlier, ran, reached, rest⟩ := first.run held served
  rw [run_bind, ran]
  exact next a middle reached rest

theorem serves_via {f : α → Action σ β} {last : β → σ → Prop} (mid : α → σ → Prop)
    (first : Serves pre x mid) (next : ∀ a, Serves (mid a) (f a) last) :
    Serves pre (x >>= f) last :=
  serves_bind first next

theorem serves_weaken {pre' : σ → Prop} (serves : Serves pre x post) (before : ∀ s, pre' s → pre s)
    (after : ∀ a s, post a s → post' a s) : Serves pre' x post' := by
  intro s held served
  obtain ⟨a, ended, reached⟩ := serves s (before s held) served
  exact ⟨a, ended, after a _ reached⟩

theorem Serves.anyway (serves : Serves (fun _ => True) x post) : Serves pre x post :=
  serves_weaken serves (fun _ _ => trivial) fun _ _ reached => reached

theorem serves_given {fact : Prop} (given : ∀ s, pre s → fact)
    (serves : fact → Serves pre x post) : Serves pre x post :=
  fun s held => serves (given s held) s held

theorem serves_ok (ends : ∀ s, pre s → ∃ a, (x s).result = .ok a ∧ post a (x s).state) :
    Serves pre x post :=
  fun s held _ => ends s held

theorem serves_look {f : σ → Action σ β} {last : β → σ → Prop}
    (next : ∀ s, Serves (fun now => pre now ∧ s = now) (f s) last) : Serves pre (get >>= f) last :=
  serves_bind (fun s held _ => ⟨s, rfl, held, rfl⟩) next

theorem serves_modify {f : σ → σ} {last : σ → Prop} (reached : ∀ s, pre s → last (f s)) :
    Serves pre (modify f) fun _ => last :=
  fun s held _ => ⟨(), rfl, reached s held⟩

theorem serves_note (note : Note) : Serves pre (Action.note note) fun _ => pre :=
  fun _ held _ => ⟨(), rfl, held⟩

theorem Serves.returning {refused : σ → Prop} (serves : Serves pre x post)
    (returns : Returns pre x post' refused) : Serves pre x fun a s => post a s ∧ post' a s := by
  intro s held served
  obtain ⟨a, ended, reached⟩ := serves s held served
  exact ⟨a, ended, reached, (returns s held).of_ok ended⟩

end Action

section Devices

variable [Device δ]

theorem Machine.createHeap_serves {desc : HeapDesc} (visible : desc.shaderVisible = true) :
    Action.Serves (fun _ : Machine δ => True) (createHeap desc)
      fun object _ => object.gpuStart ≠ none := by
  intro machine _
  cases answered : Device.answer (.heap desc) machine.device with
  | mk outcome device =>
    cases outcome with
    | done => simp [createHeap, ask, answered, visible]
    | withoutGpu | failed error => simp [createHeap, ask, answered, Served, Event.isServed]

end Devices

namespace Shared

variable {κ : Type} [Device δ]

theorem afterTry_events (again : Action (κ × Shared δ) α) (tried : Run (κ × Shared δ) α) :
    ∃ more, (afterTry again tried).events = tried.events ++ more := by
  unfold afterTry
  split
  · split
    · split
      · exact ⟨_, List.append_assoc ..⟩
      · exact ⟨_, rfl⟩
      · exact ⟨_, rfl⟩
    · exact ⟨[], (List.append_nil _).symm⟩
  · exact ⟨[], (List.append_nil _).symm⟩

theorem tryAllocate_serves {attempt : Attempt κ δ α} {pre : κ × Shared δ → Prop}
    {post : α → κ × Shared δ → Prop} (serves : Action.Serves pre attempt.run post) :
    Action.Serves pre (tryAllocate attempt) post := by
  intro s held served
  obtain ⟨more, same⟩ := afterTry_events (tryAllocate attempt) (attempt.run s)
  rw [tryAllocate_eq] at served ⊢
  rw [same] at served
  have ends := serves s held (served_append.mp served).1
  match attempt.run s, ends with
  | ⟨.ok a, after, events⟩, ends => exact ends
  | ⟨.error _, _, _⟩, ⟨_, never, _⟩ => cases never

theorem allocateWith_serves {x : Action (Shared δ) α} {kept : Action.Keeps Shared.retired x}
    {post : α → Shared δ → Prop} (serves : Action.Serves (fun _ => True) x post) :
    Action.Serves (fun _ => True) (allocateWith x kept) post := by
  intro shared _ served
  let attempt : Attempt Unit δ α :=
    ⟨Action.on .second x, fun s => Nat.le_of_eq (congrArg Retirement.pending (kept s.2))⟩
  have tries : Action.Serves (fun _ => True) attempt.run fun a s => post a s.2 :=
    fun s _ served => serves s.2 trivial served
  exact tryAllocate_serves tries ((), shared) trivial served

theorem createHeap_serves {desc : HeapDesc} (visible : desc.shaderVisible = true) :
    Action.Serves (fun _ : Shared δ => True) (createHeap desc)
      fun object _ => object.gpuStart ≠ none :=
  allocateWith_serves fun shared _ served =>
    Machine.createHeap_serves visible shared.machine trivial served

theorem completedFence_serves (queue : Queue) :
    Action.Serves (fun _ : Shared δ => True) (completedFence queue) fun _ _ => True :=
  Action.serves_ok fun _ _ => ⟨_, rfl, trivial⟩

theorem waitFor_serves (queue : Queue) (fence : Nat) :
    Action.Serves (fun shared : Shared δ => fence < shared.recording.get queue)
      (waitFor queue fence) fun _ _ => True := by
  intro shared submitted served
  have looked := waitFor_looks queue fence [] shared (.refl shared)
  match waitFor queue fence shared, looked, served with
  | ⟨.ok (), after, events⟩, _, _ => exact ⟨(), rfl, trivial⟩
  | ⟨.error _, after, events⟩, refused, served =>
    refine refused.elim (fun unsubmitted => ?_) fun failed => absurd served.unfailed failed
    exact absurd unsubmitted (Nat.not_le.mpr submitted)

theorem retire_serves (retiree : Retiree) (last : Fences) (completion : Bool) (waits : List Wait) :
    Action.Serves (fun _ : Shared δ => True) (retire retiree last completion waits)
      fun _ _ => True :=
  Action.serves_ok fun shared _ => ⟨(), retire_ends _ _ _ _ shared, trivial⟩

end Shared

namespace Ring

variable {ring : Ring} {slots size limit places : Nat}

theorem allocate_fresh (some_place : 0 < places) (some_size : 0 < size) (fits : slots ≤ size)
    (narrow : size < 2 ^ 32) (fence : Nat) :
    ∃ first after, ∃ notes : List Note, allocate slots fence (fresh size places) =
      ⟨.ok first, after, notes.map .noted⟩ ∧ first + slots ≤ size := by
  have word : Word.limit = 2 ^ 64 := by decide
  have holds : (fresh size places).Holds [] := fresh_holds some_place
  have start : (fresh size places).tail = 0 ∧ (fresh size places).head = size ∧
      (fresh size places).size = size := ⟨rfl, rfl, rfl⟩
  have gap : (fresh size places).gap slots = 0 := by
    simp [Ring.gap, position, fresh, Nat.not_lt.mpr fits]
  obtain ⟨result, after, left, notes, ran, -, came⟩ := allocate_exact holds slots fence
  cases came with
  | nothing | granted => exact ⟨_, _, notes, ran, allocate_inside holds ran⟩
  | ledgerFull _ _ full => cases full
  | unfit | tailFull | ringFull | overflow => omega

theorem allocate_within {fence : Nat} (near : fence < limit) (sound : ring.Sound size limit)
    (some_size : 0 < size) (fits : slots ≤ size) :
    ∃ result after, ∃ notes : List Note,
      allocate slots fence ring = ⟨result, after, notes.map .noted⟩ ∧
        ((∃ first, result = .ok first ∧ first + slots ≤ size) ∨
          (∃ error : Error, result = .error (.error error) ∧ error.isExhausted = true ∧
            after.Sound size limit ∧ after.tail ≤ ring.tail + size) ∨
          (result = .error (.fault .overflow) ∧ Word.limit ≤ ring.tail + 2 * size)) := by
  have keeps : Action.Preserves (Sound size limit) (allocate slots fence) := allocate_sound near
  have kept := keeps ring sound
  obtain ⟨rfl, waves, holds, -⟩ := sound
  obtain ⟨result, after, left, notes, ran, -, came⟩ := allocate_exact holds slots fence
  have skipped := ring.gap_le slots
  rw [ran] at kept
  refine ⟨result, after, notes, ran, ?_⟩
  cases came with
  | nothing | granted => exact .inl ⟨_, rfl, allocate_inside holds ran⟩
  | ledgerFull => exact .inr (.inl ⟨_, rfl, rfl, kept, Nat.le_add_right _ _⟩)
  | tailFull _ _ _ took | ringFull _ _ _ took =>
    have tail := took.tail
    exact .inr (.inl ⟨_, rfl, rfl, kept, by omega⟩)
  | unfit => omega
  | overflow _ _ far => exact .inr (.inr ⟨rfl, far⟩)

theorem deallocate_within (completed : Nat) (sound : ring.Sound size limit) :
    (deallocate completed ring = ⟨.error (.fault .overflow), ring, []⟩ ∧
        Word.limit ≤ ring.tail + size) ∨
      ∃ after, ∃ notes : List Note, deallocate completed ring = ⟨.ok (), after, notes.map .noted⟩ ∧
        after.Sound size limit ∧ after.tail = ring.tail := by
  have kept := deallocate_sound completed ring sound
  obtain ⟨rfl, waves, holds, -⟩ := sound
  rcases deallocate_run holds completed with far | ⟨notes, ran⟩
  · exact .inl far
  · rw [ran] at kept
    exact .inr ⟨_, notes, ran, kept, rfl⟩

end Ring

namespace OnlineHeap

variable {limit : Nat} {recording : Fences} {heap : OnlineHeap} {object : HeapObject}

structure Renewed (heap : OnlineHeap) (both : OnlineHeap × Shared δ) : Prop where
  size : both.1.desc.slots = min (heap.desc.slots * 2) heap.maxSize
  maxSize : both.1.maxSize = heap.maxSize
  fresh : ∃ places, both.1.ring = .fresh both.1.desc.slots places

section Rolling

theorem beside_serves {x : Action (Shared δ) α} {f : α → Action (OnlineHeap × Shared δ) β}
    {fact : α → Prop} {post : β → OnlineHeap × Shared δ → Prop}
    (keeps : Action.Keeps Shared.recording x)
    (serves : Action.Serves (fun shared => shared.recording = recording) x fun a _ => fact a)
    (next : ∀ a, fact a → Action.Serves
      (heap.Still fun shared => shared.recording = recording) (f a) post) :
    Action.Serves (heap.Still fun shared => shared.recording = recording)
      (Action.on sharedOf x >>= f) post := by
  have first : Action.Serves (heap.Still fun shared => shared.recording = recording)
      (Action.on sharedOf x) fun a both =>
        heap.Still (fun shared => shared.recording = recording) both ∧ fact a := by
    rintro ⟨now, shared⟩ ⟨rfl, recorded⟩ served
    obtain ⟨a, ended, known⟩ := serves shared recorded served
    exact ⟨a, ended, ⟨rfl, (keeps shared).trans recorded⟩, known⟩
  refine Action.serves_bind first fun a => Action.serves_given (fun _ both => both.2)
    fun known => ?_
  exact Action.serves_weaken (next a known) (fun _ both => both.1) fun _ _ reached => reached

theorem gpuBaseOf_serves {holds : OnlineHeap × Shared δ → Prop}
    (addressed : object.gpuStart ≠ none) :
    Action.Serves holds (Action.on sharedOf (gpuBaseOf object)) fun _ => holds := by
  refine Action.serves_ok fun both held => ?_
  unfold gpuBaseOf
  split
  · exact ⟨_, rfl, held⟩
  · rename_i none_found
    exact absurd none_found addressed

theorem look_serves {f : OnlineHeap × Shared δ → Action (OnlineHeap × Shared δ) β}
    {post : β → OnlineHeap × Shared δ → Prop}
    (next : ∀ both, both.1 = heap →
      Action.Serves (heap.Still fun shared => shared.recording = recording) (f both) post) :
    Action.Serves (heap.Still fun shared => shared.recording = recording) (Action.get >>= f)
      post := by
  refine Action.serves_look fun both => Action.serves_given
    (fun _ seen => (congrArg Prod.fst seen.2).trans seen.1.same) fun same => ?_
  exact Action.serves_weaken (next both same) (fun _ seen => seen.1) fun _ _ reached => reached

variable [Device δ]

theorem grow_serves (fence : Nat) :
    Action.Serves (heap.Still fun shared : Shared δ => shared.recording = recording) (grow fence)
      fun _ => Renewed heap := by
  refine look_serves fun both same => ?_
  rw [same]
  refine beside_serves (Shared.createHeap_keeps _) (Shared.createHeap_serves rfl).anyway
    fun object addressed => ?_
  refine Action.serves_bind (gpuBaseOf_serves addressed) fun base => ?_
  refine beside_serves (Shared.retire_keeps _ _ _ _) (Shared.retire_serves _ _ _ _).anyway
    fun _ _ => ?_
  refine Action.serves_bind (Action.serves_modify ?_) fun _ => Action.serves_note _
  rintro both ⟨rfl, -⟩
  exact ⟨rfl, rfl, _, rfl⟩

theorem make_serves {desc : HeapDesc} (visible : desc.shaderVisible = true) :
    Action.Serves (heap.Still fun shared : Shared δ => shared.recording = recording)
      (Action.on sharedOf (Shared.createHeap desc)) fun object _ => object.gpuStart ≠ none :=
  fun both _ served => Shared.createHeap_serves visible both.2 trivial served

theorem retrieve_serves (sound : heap.Sound limit) (completed : Nat)
    (moving : heap.isStalled recording.graphics = false) :
    Action.Serves (heap.Still fun shared : Shared δ => shared.recording = recording)
      (BoundedPool.retrieve parkedOf completed
        (fun fence => Action.on sharedOf (Shared.waitFor .graphics fence))
        (Action.on sharedOf (Shared.createHeap heap.desc)))
      fun object _ => object.gpuStart ≠ none := by
  have takes {reached : Nat} {item : HeapObject} {rest : FenceLine HeapObject}
      (popped : heap.parked.line.pop? reached = some (item, rest)) :
      Action.Serves (heap.Still fun shared : Shared δ => shared.recording = recording)
        (do
          Action.modify ((parkedOf.andThen BoundedPool.lineOf).put rest)
          return item) fun object _ => object.gpuStart ≠ none := by
    obtain ⟨entry, shape, -, rfl⟩ := FenceLine.pop?_some popped
    refine Action.serves_ok fun _ _ => ⟨_, rfl, sound.addressed _ ?_⟩
    simp [objects, shape]
  refine look_serves fun both same => ?_
  have here : parkedOf.get both = heap.parked := congrArg OnlineHeap.parked same
  rw [here]
  split
  · rename_i item rest chosen
    exact takes (BoundedPool.choose_reuse chosen)
  · exact make_serves sound.visible
  rename_i fence chosen
  have submitted : fence < recording.graphics := by
    have oldest := BoundedPool.choose_wait chosen
    simpa [isStalled, oldest] using moving
  refine Action.serves_bind (Action.serves_note _) fun _ => ?_
  have waits : Action.Serves (fun shared : Shared δ => shared.recording = recording)
      (Shared.waitFor .graphics fence) fun _ _ => True := by
    refine Action.serves_weaken (Shared.waitFor_serves .graphics fence) ?_ fun _ _ _ => trivial
    rintro shared rfl
    exact submitted
  refine beside_serves (Shared.waitFor_keeps .graphics fence) waits fun _ _ =>
    look_serves fun both same => ?_
  have here : (parkedOf.andThen BoundedPool.lineOf).get both = heap.parked.line :=
    congrArg (fun heap : OnlineHeap => heap.parked.line) same
  rw [here]
  split
  · rename_i item rest popped
    exact takes popped
  · exact make_serves sound.visible

omit [Device δ] in
theorem exchange_serves (sound : heap.Sound limit) (grown : heap.maxSize ≤ heap.desc.slots)
    (fence : Nat) (object : HeapObject) :
    Action.Serves (fun both => object.gpuStart ≠ none ∧ Spared (δ := δ) limit recording heap both)
      (exchange heap fence object) fun _ => Renewed heap := by
  refine Action.serves_given (fun _ both => both.1) fun addressed => ?_
  refine Action.serves_bind (gpuBaseOf_serves addressed) fun base => ?_
  refine Action.serves_via (fun _ => Renewed heap) (Action.serves_modify ?_) fun _ =>
    Action.serves_look fun _ => ?_
  · rintro both ⟨-, spared⟩
    have bounded := sound.bounded
    exact ⟨by change heap.desc.slots = _; omega, spared.maxSize, _, rfl⟩
  · exact Action.serves_weaken (Action.serves_note _) (fun _ seen => seen.1) fun _ _ held => held

theorem swap_serves (sound : heap.Sound limit) (grown : heap.maxSize ≤ heap.desc.slots) :
    Action.Serves (heap.Still fun shared : Shared δ => shared.recording = recording)
      (swap recording.graphics) fun _ => Renewed heap := by
  refine beside_serves (Shared.completedFence_keeps .graphics)
    (Shared.completedFence_serves .graphics).anyway fun completed _ =>
      look_serves fun both same => ?_
  rw [same]
  dsimp only
  split
  · refine Action.serves_bind (Action.serves_note _) fun _ => ?_
    exact Action.serves_bind ((make_serves sound.visible).returning (make_spared sound heap.desc))
      (exchange_serves sound grown _)
  · rename_i moving
    exact Action.serves_bind
      ((retrieve_serves sound completed (Bool.eq_false_iff.mpr moving)).returning
        (retrieve_spared sound completed heap.desc)) (exchange_serves sound grown _)

theorem rollOver_serves (sound : heap.Sound limit) :
    Action.Serves (heap.Still fun shared : Shared δ => shared.recording = recording) rollOver
      fun _ both => Renewed heap both ∧ Stands limit recording both := by
  refine Action.Serves.returning ?_
    (Action.returns_before rollOver_stands fun both still => sound.still still)
  have reads : Action.Serves (fun shared : Shared δ => shared.recording = recording)
      (Shared.recordingFence .graphics) fun fence _ => fence = recording.graphics := by
    refine Action.serves_ok fun shared recorded => ⟨_, rfl, ?_⟩
    exact congrArg PerQueue.graphics recorded
  refine beside_serves (fun _ => rfl) reads fun fence known => look_serves fun both same => ?_
  subst known
  dsimp only
  rw [same]
  split
  · exact grow_serves _
  · rename_i grown
    exact swap_serves sound (Nat.not_lt.mp grown)

end Rolling

section Reserving

def Granted (slots : Nat) (result : Except Stop Reservation) (both : OnlineHeap × Shared δ) :
    Prop :=
  ∃ reservation, result = .ok reservation ∧ reservation.first + slots ≤ both.1.desc.slots

def Comes (slots : Nat) (enough : Prop) (result : Except Stop Reservation)
    (both : OnlineHeap × Shared δ) : Prop :=
  (enough → Granted slots result both) ∧ (¬ enough → result = .error (.error .ringExhausted))

def GrantedUnless (slots : Nat) (far : Prop) (result : Except Stop Reservation)
    (both : OnlineHeap × Shared δ) : Prop :=
  Granted slots result both ∨ far ∧ result = .error (.fault .overflow)

-- So many tries come to a heap of so many slots.
def Reaches (slots attempts size : Nat) : Prop := 0 < attempts ∧ slots ≤ size * 2 ^ (attempts - 1)

variable {slots attempts size maxSize : Nat}

theorem reaches_of_fits (fits : slots ≤ size) (some_left : 0 < attempts) :
    Reaches slots attempts size :=
  ⟨some_left, Nat.le_trans fits (Nat.le_mul_of_pos_right _ (Nat.two_pow_pos _))⟩

theorem reaches_next (small : size < slots) (le : slots ≤ maxSize) :
    Reaches slots attempts (min (size * 2) maxSize) ↔ Reaches slots (attempts + 1) size := by
  unfold Reaches
  cases attempts with
  | zero => simp; omega
  | succ attempts =>
    have next : size * 2 ^ (attempts + 1) = size * 2 * 2 ^ attempts := by
      rw [Nat.pow_succ]
      ac_rfl
    have largest : maxSize ≤ maxSize * 2 ^ attempts :=
      Nat.le_mul_of_pos_right _ (Nat.two_pow_pos _)
    simp only [Nat.succ_pos, true_and, Nat.add_sub_cancel, next]
    rcases Nat.le_total (size * 2) maxSize with below | above
    · rw [Nat.min_eq_left below]
    · rw [Nat.min_eq_right above]
      have doubled : maxSize * 2 ^ attempts ≤ size * 2 * 2 ^ attempts :=
        Nat.mul_le_mul_right _ above
      constructor <;> omega

variable [Device δ] {both : OnlineHeap × Shared δ} {ring : Ring} {events : List Event}
  {error : Error}

section Tries

variable (attempts : Nat) (rolledOver reclaimed : Bool)

theorem reserveWithin_granted {first : Nat}
    (ran : Ring.allocate slots both.2.recording.graphics both.1.ring = ⟨.ok first, ring, events⟩) :
    reserveWithin slots (attempts + 1) rolledOver reclaimed both =
      ⟨.ok ⟨first, rolledOver⟩, ringOf.put ring both, events⟩ := by
  have tried : Action.on ringOf (Ring.allocate slots both.2.recording.graphics) both =
      ⟨.ok first, ringOf.put ring both, events⟩ := Action.on_of_run ringOf ran
  have reads : Action.on sharedOf (Shared.recordingFence .graphics) both =
      ⟨.ok both.2.recording.graphics, both, []⟩ := rfl
  simp only [reserveWithin, Action.run_bind, reads, Run.andThen_ok, Action.run_attempt, tried,
    Run.caught_ok, Action.run_pure, List.nil_append, List.append_nil]

theorem reserveWithin_faulted {fault : Fault}
    (ran : Ring.allocate slots both.2.recording.graphics both.1.ring =
      ⟨.error (.fault fault), ring, events⟩) :
    reserveWithin slots (attempts + 1) rolledOver reclaimed both =
      ⟨.error (.fault fault), ringOf.put ring both, events⟩ := by
  have tried : Action.on ringOf (Ring.allocate slots both.2.recording.graphics) both =
      ⟨.error (.fault fault), ringOf.put ring both, events⟩ := Action.on_of_run ringOf ran
  have reads : Action.on sharedOf (Shared.recordingFence .graphics) both =
      ⟨.ok both.2.recording.graphics, both, []⟩ := rfl
  simp only [reserveWithin, Action.run_bind, reads, Run.andThen_ok, Action.run_attempt, tried,
    Run.caught_fault, Run.andThen_error, List.nil_append]

theorem reserveWithin_refused
    (ran : Ring.allocate slots both.2.recording.graphics both.1.ring =
      ⟨.error (.error error), ring, events⟩) :
    reserveWithin slots (attempts + 1) rolledOver reclaimed both =
      (⟨.ok (), ringOf.put ring both, events⟩ : Run _ Unit).andThen fun _ =>
        (if error.isExhausted && !reclaimed then do
          let completed ← Action.on sharedOf (Shared.completedFence .graphics)
          Action.on ringOf (Ring.deallocate completed)
          reserveWithin slots attempts rolledOver true
        else if error.isExhausted || error = .invalidParameter then do
          rollOver
          reserveWithin slots attempts true reclaimed
        else Action.refuse error : Action (OnlineHeap × Shared δ) Reservation) := by
  have tried : Action.on ringOf (Ring.allocate slots both.2.recording.graphics) both =
      ⟨.error (.error error), ringOf.put ring both, events⟩ := Action.on_of_run ringOf ran
  have reads : Action.on sharedOf (Shared.recordingFence .graphics) both =
      ⟨.ok both.2.recording.graphics, both, []⟩ := rfl
  simp only [reserveWithin, Action.run_bind, reads, Run.andThen_ok, Action.run_attempt, tried,
    Run.caught_error, List.nil_append]

theorem reserveWithin_unfit (small : both.1.ring.size < slots) :
    reserveWithin slots (attempts + 1) rolledOver reclaimed both =
      (rollOver >>= fun _ => reserveWithin slots attempts true reclaimed) both := by
  have ran : Ring.allocate slots both.2.recording.graphics both.1.ring =
      ⟨.error (.error .invalidParameter), both.1.ring, []⟩ := by
    simp [Ring.allocate, small]
  rw [reserveWithin_refused _ _ _ ran]
  rfl

end Tries

theorem renewed_comes {rolledOver reclaimed : Bool} (stands : Stands limit recording both)
    (narrow : both.1.maxSize < 2 ^ 32) (le : slots ≤ both.1.maxSize)
    (ready : both.1.desc.slots < slots ∨ ∃ places, both.1.ring = .fresh both.1.desc.slots places)
    (served : Served (reserveWithin slots attempts rolledOver reclaimed both).events) :
    let run := reserveWithin slots attempts rolledOver reclaimed both
    Comes slots (Reaches slots attempts both.1.desc.slots) run.result run.state := by
  induction attempts generalizing both rolledOver with
  | zero => exact ⟨fun reaches => absurd reaches.1 (Nat.lt_irrefl _), fun _ => rfl⟩
  | succ attempts ih =>
    rcases Nat.lt_or_ge both.1.desc.slots slots with small | fits
    · have smaller : both.1.ring.size < slots := stands.1.ring.1.symm ▸ small
      rw [reserveWithin_unfit _ _ _ smaller] at served ⊢
      refine (rollOver_serves stands.1).onward (p := Comes slots _) ⟨rfl, stands.2⟩ ?_ served
      rintro _ now ⟨renewed, stands⟩ rest
      have came := ih stands (renewed.maxSize ▸ narrow) (renewed.maxSize ▸ le)
        (.inr renewed.fresh) rest
      rw [renewed.size, reaches_next small le] at came
      exact came
    · obtain ⟨places, fresh⟩ := ready.resolve_left (Nat.not_lt.mpr fits)
      have some_place : 0 < places := by
        have some_place := stands.1.ring.some_place
        rw [fresh] at some_place
        simpa [Ring.fresh, Ring.places] using some_place
      have bounded := stands.1.bounded
      obtain ⟨first, after, notes, ran, inside⟩ := Ring.allocate_fresh some_place
        stands.1.some_slot fits (by omega) both.2.recording.graphics
      rw [← fresh] at ran
      rw [reserveWithin_granted _ _ _ ran]
      exact ⟨fun _ => ⟨_, rfl, inside⟩,
        fun none => absurd (reaches_of_fits fits (Nat.succ_pos _)) none⟩

theorem reclaimed_grants {rolledOver : Bool} (near : recording.graphics < limit)
    (stands : Stands limit recording both) (narrow : both.1.maxSize < 2 ^ 32)
    (fits : slots ≤ both.1.desc.slots)
    (served : Served (reserveWithin slots (attempts + 2) rolledOver true both).events) :
    let run := reserveWithin slots (attempts + 2) rolledOver true both
    GrantedUnless slots (Word.limit ≤ both.1.ring.tail + 2 * both.1.desc.slots) run.result
      run.state := by
  obtain ⟨sound, rfl⟩ := stands
  obtain ⟨result, ring, notes, ran, came⟩ := Ring.allocate_within near sound.ring sound.some_slot
    fits
  rcases came with ⟨first, rfl, inside⟩ | ⟨error, rfl, exhausted, kept, -⟩ | ⟨rfl, far⟩
  · rw [reserveWithin_granted _ _ _ ran]
    exact .inl ⟨_, rfl, inside⟩
  · rw [reserveWithin_refused _ _ _ ran] at served ⊢
    simp only [exhausted, Bool.not_true, Bool.and_false, Bool.true_or, if_true, Bool.false_eq_true,
      if_false] at served ⊢
    have left : (ringOf.put ring both).1.Sound limit := { sound with ring := kept }
    refine (rollOver_serves left).onward (p := GrantedUnless slots _) ⟨rfl, rfl⟩ ?_ served.after
    rintro _ now ⟨renewed, stands⟩ (rest : Served (reserveWithin _ (attempts + 1) _ _ now).events)
    have bounded := left.bounded
    have larger : slots ≤ now.1.desc.slots := by
      rw [renewed.size]
      exact Nat.le_min.mpr ⟨Nat.le_trans fits (Nat.le_mul_of_pos_right _ Nat.two_pos),
        Nat.le_trans fits bounded⟩
    have came := renewed_comes stands (renewed.maxSize ▸ narrow)
      (Nat.le_trans larger stands.1.bounded) (.inr renewed.fresh) rest
    exact .inl (came.1 (reaches_of_fits larger (Nat.succ_pos _)))
  · rw [reserveWithin_faulted _ _ _ ran]
    exact .inr ⟨far, rfl⟩

theorem fitting_grants {rolledOver : Bool} (near : recording.graphics < limit)
    (stands : Stands limit recording both) (narrow : both.1.maxSize < 2 ^ 32)
    (fits : slots ≤ both.1.desc.slots)
    (served : Served (reserveWithin slots (attempts + 3) rolledOver false both).events) :
    let run := reserveWithin slots (attempts + 3) rolledOver false both
    GrantedUnless slots (Word.limit ≤ both.1.ring.tail + 3 * both.1.desc.slots) run.result
      run.state := by
  obtain ⟨sound, rfl⟩ := stands
  obtain ⟨result, ring, notes, ran, came⟩ := Ring.allocate_within near sound.ring sound.some_slot
    fits
  rcases came with ⟨first, rfl, inside⟩ | ⟨error, rfl, exhausted, kept, tail⟩ | ⟨rfl, far⟩
  · rw [reserveWithin_granted _ _ _ ran]
    exact .inl ⟨_, rfl, inside⟩
  · rw [reserveWithin_refused _ _ _ ran] at served ⊢
    simp only [exhausted, Bool.not_false, Bool.and_self, if_true] at served ⊢
    let still : OnlineHeap × Shared δ → Prop := Still { both.1 with ring } fun shared =>
      shared.recording = both.2.recording
    have completes : Action.Serves still (Action.on sharedOf (Shared.completedFence .graphics))
        fun _ => still := Action.serves_ok fun _ held => ⟨_, rfl, held.same, held.holds⟩
    refine completes.onward (p := GrantedUnless slots _) (s := ringOf.put ring both) ⟨rfl, rfl⟩
      ?_ served.after
    rintro completed ⟨_, shared⟩ ⟨rfl, recorded⟩ rest
    rcases Ring.deallocate_within completed kept with ⟨reclaimed, far⟩ |
      ⟨left, notes, reclaimed, sound', same⟩
    · rw [Action.run_bind, Action.on_of_run ringOf reclaimed]
      exact .inr ⟨by omega, rfl⟩
    · rw [Action.run_bind, Action.on_of_run ringOf reclaimed] at rest ⊢
      have stands : Stands limit both.2.recording
          (({ both.1 with ring := left }, shared) : OnlineHeap × Shared δ) :=
        ⟨{ sound with ring := sound' }, recorded⟩
      have came := reclaimed_grants near stands narrow fits rest.after
      exact came.imp_right fun ⟨far, ended⟩ => ⟨by dsimp only at far; omega, ended⟩
  · rw [reserveWithin_faulted _ _ _ ran]
    exact .inr ⟨by omega, rfl⟩

theorem reserve_comes (near : recording.graphics < limit) (stands : Stands limit recording both)
    (narrow : both.1.maxSize < 2 ^ 32) (le : slots ≤ both.1.maxSize)
    (served : Served (reserve slots both).events) :
    let run := reserve slots both
    (both.1.desc.slots = 1 ∧ 2 ^ 31 < slots → run.result = .error (.error .ringExhausted)) ∧
      (¬ (both.1.desc.slots = 1 ∧ 2 ^ 31 < slots) → GrantedUnless slots
        (Word.limit ≤ both.1.ring.tail + 3 * both.1.desc.slots) run.result run.state) := by
  have bounded := stands.1.bounded
  have some_slot := stands.1.some_slot
  have tries : reserve slots both = reserveWithin slots maxAttempts false false both := by
    simp [reserve, Nat.not_lt.mpr le]
  rw [tries] at served ⊢
  rcases Nat.lt_or_ge both.1.desc.slots slots with small | fits
  · have came := renewed_comes stands narrow le (.inl small) served
    have enough : Reaches slots maxAttempts both.1.desc.slots ↔
        ¬ (both.1.desc.slots = 1 ∧ 2 ^ 31 < slots) := by
      simp only [Reaches, maxAttempts]
      omega
    rw [enough] at came
    exact ⟨fun short => came.2 (not_not_intro short), fun reaches => .inl (came.1 reaches)⟩
  · have left : maxAttempts = 29 + 3 := rfl
    rw [left] at served ⊢
    exact ⟨fun short => by omega, fun _ => fitting_grants near stands narrow fits served⟩

end Reserving

end OnlineHeap

namespace Session

variable [Device δ] {config : Config} {turns : List (Turn δ)} {session : Session δ}
  {heap : OnlineHeap} {slots : Nat}

-- Whatever has been done before, where the device does all it is asked a reservation of no more
-- slots than the heap may grow to ends well, and lies inside the heap then in use. There are two
-- exceptions. Of the roll-overs of a heap of a single slot the last alone would bring it to more
-- than 2 ^ 31 slots, and the tries end there; and a ring that has numbered close to 2 ^ 64 slots
-- since it was last reset may come to the end of its numbers.
theorem reserve_served (path : Went config turns session) (among : heap ∈ session.onlineHeaps)
    (narrow : heap.maxSize < 2 ^ 32) (le : slots ≤ heap.maxSize)
    (served : Served (OnlineHeap.reserve slots (heap, session.shared)).events) :
    let run := OnlineHeap.reserve slots (heap, session.shared)
    (heap.desc.slots = 1 ∧ 2 ^ 31 < slots → run.result = .error (.error .ringExhausted)) ∧
      (¬ (heap.desc.slots = 1 ∧ 2 ^ 31 < slots) →
        (∃ reservation, run.result = .ok reservation ∧
            reservation.first + slots ≤ run.state.1.desc.slots) ∨
          2 ^ 64 ≤ heap.ring.tail + 3 * heap.desc.slots ∧
            run.result = .error (.fault .overflow)) := by
  have stands : OnlineHeap.Stands _ session.shared.recording (heap, session.shared) :=
    ⟨went_soundHeaps path heap among, rfl⟩
  exact OnlineHeap.reserve_comes (Nat.lt_succ_self _) stands narrow le served

theorem reserve_served_grown :
    ∃ (turns : List (Turn Scripted)) (session : Session Scripted) (heap : OnlineHeap),
      Went Config.minimal turns session ∧ heap ∈ session.onlineHeaps ∧
        heap.desc.slots = 2 ∧ heap.ring.inFlight = .ok 1 ∧
        let run := OnlineHeap.reserve 7 (heap, session.shared)
        Served run.events ∧ run.state.1.desc.slots = 8 ∧
          ∃ reservation, run.result = .ok reservation ∧
            reservation.first + 7 ≤ run.state.1.desc.slots := by
  have path := opened_went (Option.some_get (by decide +kernel :
    (opened Scripted.standard (.online .view ⟨2, 8, 1, 4⟩) Config.minimal ⟨[]⟩).state.isSome =
      true)).symm
  replace path := path.step (.reserve none 1) nofun (by decide +kernel)
  have first {session : Session Scripted} {turns : List (Turn Scripted)} {config : Config}
      (_ : Went config turns session) (some_heap : 0 < session.onlineHeaps.length) :
      session.onlineHeaps[0] ∈ session.onlineHeaps := List.getElem_mem some_heap
  have among := first path (by decide +kernel)
  have came := reserve_served path among (by decide +kernel) (by decide +kernel : 7 ≤ _)
    (by decide +kernel)
  have granted := (came.2 (by decide +kernel)).resolve_right (by decide +kernel)
  exact ⟨_, _, _, path, among, by decide +kernel, by decide +kernel, by decide +kernel,
    by decide +kernel, granted⟩

-- Of the heap of a single slot, the tries end with one that is large enough and has not been asked.
theorem reserve_served_short :
    ∃ (session : Session Scripted) (heap : OnlineHeap),
      (opened Scripted.standard (.online .view ⟨1, 2 ^ 32 - 1, 1, 4⟩) Config.minimal ⟨[]⟩).state =
        some session ∧ heap ∈ session.onlineHeaps ∧ 2 ^ 31 + 1 ≤ heap.maxSize ∧
        let run := OnlineHeap.reserve (2 ^ 31 + 1) (heap, session.shared)
        Served run.events ∧ run.result = .error (.error .ringExhausted) ∧
          run.state.1.desc.slots = 2 ^ 32 - 1 ∧ run.state.1.ring.inFlight = .ok 0 := by
  have made := (Option.some_get (by decide +kernel :
    (opened Scripted.standard (.online .view ⟨1, 2 ^ 32 - 1, 1, 4⟩) Config.minimal
      ⟨[]⟩).state.isSome = true)).symm
  have first {made : Option (Session Scripted)} {session : Session Scripted}
      (_ : made = some session) (some_heap : 0 < session.onlineHeaps.length) :
      session.onlineHeaps[0] ∈ session.onlineHeaps := List.getElem_mem some_heap
  exact ⟨_, _, made, first made (by decide +kernel), by decide +kernel, by decide +kernel,
    by decide +kernel, by decide +kernel, by decide +kernel⟩

end Session

end Reclaim
