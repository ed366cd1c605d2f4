import Reclaim.Device.Scripted
import Reclaim.Proofs.Ownership.Session
import Mathlib.Data.List.Nodup

namespace Reclaim

variable {δ : Type}

@[simp] def Resource.buffer? : Resource → Option Nat
  | .buffer id => some id
  | .heap _ | .memory _ | .object _ => none

section Holders

open Resource

@[simp] theorem SlotManager.no_buffers (manager : SlotManager) :
    manager.resources.filterMap buffer? = [] := by
  simp [resources]

@[simp] theorem Supply.no_buffers (supply : Supply) : supply.resources.filterMap buffer? = [] := by
  cases supply <;> simp [resources, Buddy.resources, Dedicated.resources]

@[simp] theorem Allocators.no_buffers (allocators : Allocators) :
    allocators.resources.filterMap buffer? = [] := by
  simp [resources, Dedicated.resources]

@[simp] theorem OnlineHeap.no_buffers (heap : OnlineHeap) :
    heap.resources.filterMap buffer? = [] := by
  simp [resources]

@[simp] theorem retired_no_buffers (entries : List (Retired Retiree)) :
    (entryResources entries).filterMap buffer? = [] := by
  rw [entryResources, List.filterMap_filterMap, List.filterMap_eq_nil_iff]
  intro entry _
  unfold Retired.resource?
  cases entry.object <;> rfl

@[simp] theorem BucketPool.filterMap_buffers (pool : BucketPool Buffer) :
    pool.resources.filterMap buffer? = pool.entries.map (·.item.id) := by
  simp [resources, Function.comp_def]

@[simp] theorem Session.filterMap_held (buffers : List Buffer) :
    (heldResources buffers).filterMap buffer? = buffers.map (·.id) := by
  simp [heldResources, Function.comp_def]

end Holders

namespace Session

def pooledBuffers (session : Session δ) : List Buffer :=
  session.shared.buffers.toList.flatMap fun pool => pool.entries.map (·.item)

variable {since : Shared δ} {held : List Buffer} {session : Session δ}

theorem live_buffers (accounts : Accounts since session.buffers session) :
    (session.shared.machine.live.filterMap Resource.buffer?).Perm
        ((session.buffers ++ session.pooledBuffers).map (·.id)) ∧
      ((session.buffers ++ session.pooledBuffers).map (·.id)).Nodup := by
  obtain ⟨-, -, owned, -⟩ := accounts
  have parted := owned.exact.filterMap Resource.buffer?
  have none_else {α : Type} (items : List α) : items.flatMap (fun _ => ([] : List Nat)) = [] :=
    List.flatMap_eq_nil_iff.mpr fun _ _ => rfl
  have all : (session.shared.resources ++ (heapResources session.onlineHeaps ++
      heldResources session.buffers)).filterMap Resource.buffer? =
        session.pooledBuffers.map (·.id) ++ session.buffers.map (·.id) := by
    simp [Shared.resources, heapResources, pooledBuffers, List.filterMap_flatMap, List.map_flatMap,
      Function.comp_def, none_else]
  rw [all] at parted
  have counted := parted.trans List.perm_append_comm
  rw [← List.map_append] at counted
  refine ⟨counted, counted.nodup_iff.mp ?_⟩
  have distinct := owned.exact.nodup_iff.mpr owned.distinct
  refine List.Nodup.filterMap (fun one other id first second => ?_) distinct
  cases one <;> cases first
  cases other <;> cases second
  rfl

theorem mem_pooledBuffers {buffer : Buffer} : buffer ∈ session.pooledBuffers ↔
    ∃ heap, ∃ entry ∈ (session.shared.buffers.get heap).entries, entry.item = buffer := by
  simp [pooledBuffers, PerBufferHeap.mem_toList]

theorem mem_live (accounts : Accounts since session.buffers session) {id : Nat} :
    .buffer id ∈ session.shared.machine.live ↔
      (∃ buffer ∈ session.buffers, buffer.id = id) ∨
        ∃ heap, ∃ entry ∈ (session.shared.buffers.get heap).entries, entry.item.id = id := by
  have named : id ∈ session.shared.machine.live.filterMap Resource.buffer? ↔
      .buffer id ∈ session.shared.machine.live := by
    rw [List.mem_filterMap]
    constructor
    · rintro ⟨resource, present, same⟩
      cases resource <;> cases same
      exact present
    · exact fun present => ⟨_, present, rfl⟩
  rw [← named, (live_buffers accounts).1.mem_iff, List.map_append, List.mem_append]
  simp only [List.mem_map, mem_pooledBuffers]
  refine or_congr_right ⟨?_, ?_⟩
  · rintro ⟨buffer, ⟨heap, entry, waits, rfl⟩, same⟩
    exact ⟨heap, entry, waits, same⟩
  · rintro ⟨heap, entry, waits, same⟩
    exact ⟨entry.item, ⟨heap, entry, waits, rfl⟩, same⟩

theorem waiting_apart (accounts : Accounts since session.buffers session) {buffer : Buffer}
    {heap : BufferHeap} {entry : Waiting Buffer} (here : buffer ∈ session.buffers)
    (waits : entry ∈ (session.shared.buffers.get heap).entries) : entry.item.id ≠ buffer.id := by
  have distinct := (live_buffers accounts).2
  rw [List.map_append] at distinct
  have pooled : entry.item ∈ session.pooledBuffers := mem_pooledBuffers.mpr ⟨heap, entry, waits, rfl⟩
  intro same
  refine List.disjoint_of_nodup_append distinct (List.mem_map_of_mem here) ?_
  rw [← same]
  exact List.mem_map_of_mem pooled

theorem held_apart (accounts : Accounts since session.buffers session) {place : Nat}
    {buffer other : Buffer} (here : session.buffers[place]? = some buffer)
    (left : other ∈ session.buffers.eraseIdx place) : other.id ≠ buffer.id := by
  have distinct := (live_buffers accounts).2
  rw [List.map_append] at distinct
  obtain ⟨inside, rfl⟩ := List.getElem?_eq_some_iff.mp here
  have parted := (List.getElem_cons_eraseIdx_perm inside).map (·.id)
  have once := parted.nodup_iff.mpr distinct.of_append_left
  intro same
  refine (List.nodup_cons.mp once).1 ?_
  change session.buffers[place].id ∈ _
  rw [← same]
  exact List.mem_map_of_mem left

theorem held_made (accounts : Accounts since session.buffers session) {buffer : Buffer}
    (here : buffer ∈ session.buffers) : buffer.id ≤ session.shared.machine.buffersMade := by
  have owned : Resource.buffer buffer.id ∈ heldResources session.buffers :=
    List.mem_map_of_mem here
  exact accounts.shared.owned.made _ (List.mem_append_right _ (List.mem_append_right _ owned))

structure Loan where
  heap : BufferHeap
  size : Nat
  buffer : Buffer

structure Return where
  id : Nat
  fence : Nat

-- What a caller writes down: what it has, oldest first, and all it has ever given back.
structure Book where
  loans : List Loan
  returns : List Return

-- The buffer was given back under this batch, and never under a later one.
structure LastReturned (returns : List Return) (id fence : Nat) : Prop where
  given : ⟨id, fence⟩ ∈ returns
  last : ∀ other, ⟨id, other⟩ ∈ returns → other ≤ fence

namespace Book

def blank : Book := ⟨[], []⟩

def entered (book : Book) (before : Session δ) (step : ContextStep δ)
    (result : Except Stop ContextAnswer) : Book :=
  match step, result with
  | .acquire heap size, .ok (.buffer buffer) =>
    { book with loans := book.loans ++ [⟨heap, size, buffer⟩] }
  | .release _ _ place, .ok (.number id) =>
    { loans := book.loans.eraseIdx (place % book.loans.length)
      returns := book.returns ++ [⟨id, before.shared.recording.graphics⟩] }
  | _, _ => book

def ofTurns [Device δ] (turns : List (Turn δ)) : Book :=
  turns.foldl (fun book turn =>
    book.entered turn.before turn.step (turn.step.run turn.before).result) blank

-- Whoever gives a buffer back names the heap and the size that it was asked for.
def Agrees (book : Book) : ContextStep δ → Prop
  | .release heap size place => ∀ loan ∈ book.loans[place % book.loans.length]?,
      heap = loan.heap ∧ size = loan.size
  | _ => True

end Book

def Honest [Device δ] (turns : List (Turn δ)) : Prop :=
  ∀ earlier turn, earlier ++ [turn] <+: turns → (Book.ofTurns earlier).Agrees turn.step

theorem honest_nil [Device δ] : Honest ([] : List (Turn δ)) :=
  fun _ _ within => absurd (List.prefix_nil.mp within) (List.append_ne_nil_of_right_ne_nil _ nofun)

theorem honest_concat [Device δ] {turns : List (Turn δ)} {turn : Turn δ} :
    Honest (turns ++ [turn]) ↔ Honest turns ∧ (Book.ofTurns turns).Agrees turn.step := by
  constructor
  · intro honest
    refine ⟨fun early other within => ?_, honest turns _ (List.prefix_refl _)⟩
    exact honest early other (within.trans (List.prefix_append _ _))
  · rintro ⟨honest, agrees⟩ early other within
    rcases List.prefix_concat_iff.mp within with same | earlier
    · obtain ⟨rfl, one⟩ := List.append_inj' same rfl
      cases one
      exact agrees
    · exact honest early other earlier

structure Sound (config : Config) (book : Book) (session : Session δ) : Prop where
  held : session.buffers = book.loans.map (·.buffer)
  lent : ∀ loan ∈ book.loans, loan.buffer.heap = loan.heap ∧
    BucketPool.bucket bufferMultiple loan.size < BucketPool.maxBuckets
  settled : ∀ loan ∈ book.loans, ∀ fence, ⟨loan.buffer.id, fence⟩ ∈ book.returns →
    fence ≤ session.shared.known.graphics
  pooled : ∀ heap, ∀ entry ∈ (session.shared.buffers.get heap).entries,
    entry.item.heap = heap ∧ LastReturned book.returns entry.item.id entry.fence
  past : ∀ given ∈ book.returns, given.id ≤ session.shared.machine.buffersMade ∧
    given.fence ≤ session.shared.recording.graphics
  pools : ∀ heap,
    (BucketPool.ofThreshold bufferMultiple config.trimThreshold).Alike
      (session.shared.buffers.get heap)

variable {config : Config} {book : Book} {after : Session δ}

theorem Sound.as_many (sound : Sound config book session) :
    session.buffers.length = book.loans.length := by
  rw [sound.held, List.length_map]

theorem Sound.quiet (sound : Sound config book session) (buffers : after.buffers = session.buffers)
    (made : session.shared.machine.buffersMade ≤ after.shared.machine.buffersMade)
    (precedes : session.shared.Precedes after.shared) : Sound config book after := by
  obtain ⟨known, recording, thinned⟩ := precedes
  refine ⟨buffers.trans sound.held, sound.lent, ?_, ?_, ?_, ?_⟩
  · exact fun loan present fence given =>
      Nat.le_trans (sound.settled loan present fence given) known
  · intro heap entry present
    obtain ⟨-, gone, parted, -⟩ := thinned heap
    exact sound.pooled heap entry (parted.mem_iff.mpr (List.mem_append_right gone present))
  · intro given present
    obtain ⟨exists_buffer, timely⟩ := sound.past given present
    exact ⟨Nat.le_trans exists_buffer made, Nat.le_trans timely recording⟩
  · exact fun heap => (sound.pools heap).trans (thinned heap).alike

theorem Sound.lend (sound : Sound config book session) {heap : BufferHeap} {size : Nat}
    {buffer : Buffer} (buffers : after.buffers = session.buffers ++ [buffer])
    (lent : buffer.heap = heap ∧ BucketPool.bucket bufferMultiple size < BucketPool.maxBuckets)
    (settled : ∀ fence, ⟨buffer.id, fence⟩ ∈ book.returns → fence ≤ session.shared.known.graphics)
    (known : after.shared.known = session.shared.known)
    (recording : after.shared.recording = session.shared.recording)
    (machine : after.shared.machine = session.shared.machine)
    (pools : ∀ heap, (session.shared.buffers.get heap).Alike (after.shared.buffers.get heap) ∧
      ∀ entry ∈ (after.shared.buffers.get heap).entries,
        entry ∈ (session.shared.buffers.get heap).entries) :
    Sound config { book with loans := book.loans ++ [⟨heap, size, buffer⟩] } after := by
  refine ⟨?_, ?_, ?_, ?_, ?_, ?_⟩
  · rw [buffers, sound.held, List.map_append]
    rfl
  · intro loan present
    rcases List.mem_append.mp present with old | new
    · exact sound.lent loan old
    · cases List.mem_singleton.mp new
      exact lent
  · intro loan present fence given
    rw [known]
    rcases List.mem_append.mp present with old | new
    · exact sound.settled loan old fence given
    · cases List.mem_singleton.mp new
      exact settled fence given
  · intro heap entry present
    exact sound.pooled heap entry ((pools heap).2 entry present)
  · rw [machine, recording]
    exact sound.past
  · exact fun heap => (sound.pools heap).trans (pools heap).1

theorem Sound.acquired (sound : Sound config book session) {heap : BufferHeap} {size : Nat}
    {buffer : Buffer} (got : Got session.shared session heap buffer after)
    (fits : BucketPool.bucket bufferMultiple size < BucketPool.maxBuckets) :
    Sound config { book with loans := book.loans ++ [⟨heap, size, buffer⟩] } after := by
  obtain ⟨shared, front, buffers, slots, blocks⟩ := after
  obtain ⟨same, -, acquired⟩ := got
  cases acquired with
  | made accounts here fresh =>
    have still : Sound config book { session with shared } :=
      sound.quiet rfl accounts.owned.floor accounts.since
    refine still.lend same ⟨here, fits⟩ ?_ rfl rfl rfl fun _ => ⟨.refl _, fun _ => id⟩
    intro fence given
    exact absurd fresh (Nat.not_lt.mpr (sound.past _ given).1)
  | @pooled middle entry rest accounts item reached alike parted =>
    have still : Sound config book { session with shared := middle } :=
      sound.quiet rfl accounts.owned.floor accounts.since
    have waited := still.pooled heap entry (parted.mem_iff.mpr List.mem_cons_self)
    subst item
    have pools (other : BufferHeap) : (middle.buffers.get other).Alike
        (((Shared.buffersOf heap).put rest middle).buffers.get other) ∧
        ∀ entry ∈ (((Shared.buffersOf heap).put rest middle).buffers.get other).entries,
          entry ∈ (middle.buffers.get other).entries := by
      refine Shared.repooled (p := fun other pool => (middle.buffers.get other).Alike pool ∧
        ∀ entry ∈ pool.entries, entry ∈ (middle.buffers.get other).entries) ?_ ?_ other
      · exact ⟨alike, fun entry present => parted.mem_iff.mpr (List.mem_cons_of_mem _ present)⟩
      · exact fun _ => ⟨.refl _, fun _ => id⟩
    refine still.lend same ⟨waited.1, fits⟩ (fun fence given => ?_) rfl rfl rfl pools
    exact Nat.le_trans (waited.2.last fence given) reached

theorem LastReturned.append {returns : List Return} {id fence : Nat} {given : Return}
    (last : LastReturned returns id fence) (other : id ≠ given.id) :
    LastReturned (returns ++ [given]) id fence := by
  refine ⟨List.mem_append_left _ last.given, fun later present => ?_⟩
  rcases List.mem_append.mp present with old | new
  · exact last.last later old
  · exact absurd (congrArg Return.id (List.mem_singleton.mp new)) other

theorem LastReturned.now {returns : List Return} {id fence : Nat}
    (past : ∀ given ∈ returns, given.fence ≤ fence) :
    LastReturned (returns ++ [⟨id, fence⟩]) id fence := by
  refine ⟨List.mem_append_right _ (List.mem_singleton_self _), fun later present => ?_⟩
  rcases List.mem_append.mp present with old | new
  · exact past _ old
  · exact Nat.le_of_eq (congrArg Return.fence (List.mem_singleton.mp new))

theorem Sound.released (sound : Sound config book session)
    (accounts : Accounts since session.buffers session) {heap : BufferHeap} {size place : Nat}
    {buffer : Buffer} (gave : session.Gave heap size place buffer after)
    (agrees : ∀ loan ∈ book.loans[place]?, heap = loan.heap ∧ size = loan.size) :
    Sound config ⟨book.loans.eraseIdx place,
      book.returns ++ [⟨buffer.id, session.shared.recording.graphics⟩]⟩ after ∧
      after.shared.machine = session.shared.machine := by
  obtain ⟨shared, front, buffers, slots, blocks⟩ := after
  obtain ⟨here, same, -, released⟩ := gave
  simp only at same released
  have held : buffer ∈ session.buffers := List.mem_of_getElem? here
  have placed := here
  rw [sound.held, List.getElem?_map, Option.map_eq_some_iff] at placed
  obtain ⟨loan, place_of_loan, rfl⟩ := placed
  obtain ⟨rfl, rfl⟩ := agrees loan place_of_loan
  obtain ⟨owner, fits⟩ := sound.lent loan (List.mem_of_getElem? place_of_loan)
  cases released with
  | dropped full =>
    rw [(sound.pools loan.heap).multiple] at full
    exact absurd fits (Nat.not_lt.mpr full)
  | @pooled pool alike parted =>
    have remaining : session.buffers.eraseIdx place =
        (book.loans.eraseIdx place).map (·.buffer) := by
      rw [sound.held, List.eraseIdx_map]
    refine ⟨⟨same.trans remaining, ?_, ?_, ?_, ?_, ?_⟩, rfl⟩
    · exact fun other present => sound.lent other (List.mem_of_mem_eraseIdx present)
    · intro other present fence given
      have apart : other.buffer.id ≠ loan.buffer.id :=
        held_apart accounts here (remaining ▸ List.mem_map_of_mem present)
      rcases List.mem_append.mp given with old | new
      · exact sound.settled other (List.mem_of_mem_eraseIdx present) fence old
      · exact absurd (congrArg Return.id (List.mem_singleton.mp new)) apart
    · have waiting (heap : BufferHeap) (entry : Waiting Buffer)
          (present : entry ∈ (session.shared.buffers.get heap).entries) : entry.item.heap = heap ∧
            LastReturned (book.returns ++ [⟨loan.buffer.id, session.shared.recording.graphics⟩])
              entry.item.id entry.fence := by
        obtain ⟨owner, last⟩ := sound.pooled heap entry present
        exact ⟨owner, last.append (waiting_apart accounts held present)⟩
      refine Shared.repooled (p := fun heap pool => ∀ entry ∈ pool.entries,
        entry.item.heap = heap ∧ LastReturned _ entry.item.id entry.fence) ?_ waiting
      intro entry present
      rcases List.mem_cons.mp (parted.mem_iff.mp present) with rfl | old
      · exact ⟨owner, .now fun given old => (sound.past given old).2⟩
      · exact waiting loan.heap entry old
    · intro given present
      rcases List.mem_append.mp present with old | new
      · exact sound.past given old
      · cases List.mem_singleton.mp new
        exact ⟨held_made accounts held, Nat.le_refl _⟩
    · exact Shared.repooled (p := fun _ => BucketPool.Alike _)
        ((sound.pools loan.heap).trans alike) sound.pools

end Session

namespace Session

variable [Device δ] {config : Config} {turns : List (Turn δ)} {session : Session δ}

theorem acquired_fits {threshold : Nat} {heap : BufferHeap} {size : Nat} {answer : ContextAnswer}
    (pools : (BucketPool.ofThreshold bufferMultiple threshold).Alike
      (session.shared.buffers.get heap))
    (acquired : (ContextStep.run (.acquire heap size) session).result = .ok answer) :
    BucketPool.bucket bufferMultiple size < BucketPool.maxBuckets := by
  let fits : Prop := BucketPool.bucket bufferMultiple size < BucketPool.maxBuckets
  let ready (session : Session δ) : Prop :=
    (BucketPool.ofThreshold bufferMultiple threshold).Alike (session.shared.buffers.get heap)
  have shares : Action.Returns ready (withShared (Shared.acquire heap size)) (fun _ _ => fits)
      fun _ => True :=
    Action.returns_on (fun _ _ => Shared.acquire_fits heap size) (fun _ alike => alike)
      (fun _ _ _ _ fits => fits) fun _ _ _ _ => trivial
  have whole : Action.Returns ready (ContextStep.run (.acquire heap size)) (fun _ _ => fits)
      fun _ => True := by
    refine Action.returns_bind shares fun buffer => ?_
    refine Action.returns_via (fun _ _ => fits) (Action.returns_modify fun _ fits => fits) ?_
    exact fun _ => Action.returns_pure fun _ fits => fits
  exact (whole session pools).of_ok acquired

omit [Device δ] in
theorem Sound.moves {book : Book} {step : ContextStep δ} {result : Except Stop ContextAnswer}
    {after : Session δ} (sound : Sound config book session)
    (accounts : Accounts session.shared session.buffers session) (agrees : book.Agrees step)
    (moves : Moves session step result after)
    (fits : ∀ heap size buffer, step = .acquire heap size → result = .ok (.buffer buffer) →
      BucketPool.bucket bufferMultiple size < BucketPool.maxBuckets) :
    Sound config (book.entered session step result) after := by
  have still (left : Accounts session.shared session.buffers after) : Sound config book after :=
    sound.quiet left.buffers left.shared.owned.floor left.shared.since
  cases moves with
  | quiet plain left =>
    have same : book.entered session step result = book := by
      unfold Book.entered
      split
      · cases plain
      · cases plain
      · rfl
    rw [same]
    exact still left
  | refused left => exact still left
  | acquired got => exact sound.acquired got (fits _ _ _ rfl rfl)
  | absent => exact sound
  | released gave =>
    rw [sound.as_many] at gave
    exact (sound.released accounts gave agrees).1

theorem Sound.step {book : Book} {step : ContextStep δ} (sound : Sound config book session)
    (accounts : Accounts session.shared session.buffers session) (agrees : book.Agrees step)
    (stays : step ≠ .drop) (returned : (step.run session).returned = true) :
    Sound config (book.entered session step (step.run session).result)
      (step.run session).state := by
  refine sound.moves accounts agrees (step_moves accounts stays returned) ?_
  rintro heap size buffer rfl acquired
  exact acquired_fits (sound.pools heap) acquired

theorem went_sound (path : Went config turns session) (honest : Honest turns) :
    Sound config (.ofTurns turns) session := by
  induction path with
  | @opened device board shared made =>
    have begins := (Shared.create_begins _ config _ () trivial).of_ok made
    have bare (heap : BufferHeap) : (shared.buffers.get heap).entries = [] := by
      rw [begins.pools heap]
      rfl
    refine ⟨rfl, nofun, nofun, fun heap entry present => ?_, nofun, fun heap => ?_⟩
    · rw [bare heap] at present
      cases present
    · rw [begins.pools heap]
      exact .refl _
  | @fronted turns session mode front path bare made ih =>
    have accounts := fronted_accounts (went_accounts path) bare made
    exact (ih honest).quiet rfl accounts.shared.owned.floor accounts.shared.since
  | @unfronted turns session mode error path refused ih =>
    have accounts := unfronted_accounts (went_accounts path) refused
    exact (ih honest).quiet rfl accounts.shared.owned.floor accounts.shared.since
  | @step turns session path step stays returned ih =>
    obtain ⟨earlier, agrees⟩ := honest_concat.mp honest
    have sound := (ih earlier).step (went_accounts path) agrees stays returned
    unfold Book.ofTurns at sound ⊢
    rw [List.foldl_append]
    exact sound

theorem honest_step (honest : Went config turns session ∧ Honest turns) (step : ContextStep δ)
    (stays : step ≠ .drop) (returned : (step.run session).returned = true)
    (agrees : (Book.ofTurns turns).Agrees step) :
    Went config (turns ++ [⟨session, step⟩]) (step.run session).state ∧
      Honest (turns ++ [⟨session, step⟩]) :=
  ⟨honest.1.step step stays returned, honest_concat.mpr ⟨honest.2, agrees⟩⟩

section Ends

variable {book : Book} {after : Session δ} {step : ContextStep δ}
  {result : Except Stop ContextAnswer}

-- The buffer is of the right heap, nobody else has it, and each batch it was ever released under has
-- completed.
structure Handed (book : Book) (before : Session δ) (heap : BufferHeap) (buffer : Buffer)
    (after : Session δ) : Prop where
  heap : buffer.heap = heap
  free : ∀ other ∈ before.buffers, other.id ≠ buffer.id
  done : ∀ fence, ⟨buffer.id, fence⟩ ∈ book.returns → fence ≤ after.shared.known.graphics

-- The buffer was with nobody, and has been idle for so many batches since its last release.
structure LetGo (book : Book) (threshold : Nat) (before : Session δ) (id : Nat)
    (after : Session δ) : Prop where
  free : ∀ other ∈ before.buffers, other.id ≠ id
  idle : ∃ fence, LastReturned book.returns id fence ∧
    fence + threshold ≤ after.shared.known.graphics

omit [Device δ] in
theorem Sound.handed (sound : Sound config book session) {heap : BufferHeap} {size : Nat}
    {buffer : Buffer} (got : Got session.shared session heap buffer after)
    (fits : BucketPool.bucket bufferMultiple size < BucketPool.maxBuckets) :
    Handed book session heap buffer after := by
  have lent := sound.acquired got fits
  have here : (⟨heap, size, buffer⟩ : Loan) ∈ book.loans ++ [⟨heap, size, buffer⟩] :=
    List.mem_append_right _ (List.mem_singleton_self _)
  refine ⟨(lent.lent _ here).1, fun other present same => ?_, lent.settled _ here⟩
  have distinct := (live_buffers got.accounts).2
  rw [got.buffers, List.map_append, List.map_append] at distinct
  refine List.disjoint_of_nodup_append distinct.of_append_left (List.mem_map_of_mem present) ?_
  rw [same]
  exact List.mem_singleton_self _

omit [Device δ] in
theorem Sound.stays_or_idles (sound : Sound config book session) {shared : Shared δ}
    (precedes : session.shared.Precedes shared) {heap : BufferHeap} {entry : Waiting Buffer}
    (waits : entry ∈ (session.shared.buffers.get heap).entries) :
    entry ∈ (shared.buffers.get heap).entries ∨
      entry.fence + config.trimThreshold ≤ shared.known.graphics := by
  obtain ⟨-, gone, parted, waited⟩ := precedes.thinned heap
  rcases List.mem_append.mp (parted.mem_iff.mp waits) with left | stays
  · refine .inr ?_
    have long := waited entry left
    rwa [(sound.pools heap).threshold] at long
  · exact .inl stays

omit [Device δ] in
theorem Sound.lets_go (sound : Sound config book session)
    (accounts : Accounts session.shared session.buffers session)
    (later : Accounts after.shared after.buffers after) (agrees : book.Agrees step)
    (moves : Moves session step result after) {id : Nat}
    (there : .buffer id ∈ session.shared.machine.live)
    (gone : .buffer id ∉ after.shared.machine.live) :
    LetGo book config.trimThreshold session id after := by
  have unheld {buffer : Buffer} (held : buffer ∈ after.buffers) : buffer.id ≠ id :=
    fun same => gone ((mem_live later).mpr (.inl ⟨buffer, held, same⟩))
  have unpooled {heap : BufferHeap} {entry : Waiting Buffer}
      (waits : entry ∈ (after.shared.buffers.get heap).entries) : entry.item.id ≠ id :=
    fun same => gone ((mem_live later).mpr (.inr ⟨heap, entry, waits, same⟩))
  -- `shared` has the pools as they were when the last buffer left them.
  have idles {shared : Shared δ} (precedes : session.shared.Precedes shared)
      (known : shared.known.graphics ≤ after.shared.known.graphics)
      (elsewhere : ∀ heap, ∀ entry ∈ (shared.buffers.get heap).entries, entry.item.id ≠ id)
      (kept : ∀ buffer ∈ session.buffers, buffer ∈ after.buffers) :
      LetGo book config.trimThreshold session id after := by
    rcases (mem_live accounts).mp there with ⟨buffer, held, same⟩ | ⟨heap, entry, waits, same⟩
    · exact absurd same (unheld (kept buffer held))
    · rcases sound.stays_or_idles precedes waits with stays | idle
      · exact absurd same (elsewhere heap entry stays)
      · subst same
        exact ⟨fun other held => (waiting_apart accounts held waits).symm, entry.fence,
          (sound.pooled heap entry waits).2, Nat.le_trans idle known⟩
  have quiet (left : Accounts session.shared session.buffers after) :
      LetGo book config.trimThreshold session id after :=
    idles left.shared.since (Nat.le_refl _) (fun _ _ => unpooled)
      fun _ held => left.buffers ▸ held
  cases moves with
  | quiet plain left => exact quiet left
  | refused left => exact quiet left
  | absent => exact absurd there gone
  | released gave =>
    rw [sound.as_many] at gave
    rw [(sound.released accounts gave agrees).2] at gone
    exact absurd there gone
  | @acquired heap size buffer after got =>
    have kept (other : Buffer) (held : other ∈ session.buffers) : other ∈ after.buffers := by
      rw [got.buffers]
      exact List.mem_append_left _ held
    have given : buffer ∈ after.buffers := by
      rw [got.buffers]
      exact List.mem_append_right _ (List.mem_singleton_self _)
    obtain ⟨shared, front, buffers, slots, blocks⟩ := after
    cases got.acquired with
    | made since here fresh =>
      exact idles since.since (Nat.le_refl _) (fun _ _ => unpooled) kept
    | @pooled middle entry rest since item reached alike parted =>
      have elsewhere (other : BufferHeap) (waiting : Waiting Buffer)
          (waits : waiting ∈ (middle.buffers.get other).entries) : waiting = entry ∨
            waiting ∈ (((Shared.buffersOf heap).put rest middle).buffers.get other).entries := by
        refine Shared.repooled (p := fun other pool =>
          waiting ∈ (middle.buffers.get other).entries → waiting = entry ∨ waiting ∈ pool.entries)
          ?_ (fun _ => .inr) other waits
        exact fun waits => List.mem_cons.mp (parted.mem_iff.mp waits)
      refine idles since.since (Nat.le_refl _) (fun other waiting waits => ?_) kept
      rcases elsewhere other waiting waits with rfl | left
      · rw [item]
        exact unheld given
      · exact unpooled left

end Ends

-- Each buffer there is has one holder, a caller or a pool. The next one to be acquired is of the
-- right heap and free to be used again, and the next ones to be dropped have been idle.
theorem buffers_pass_safely (path : Went config turns session) (honest : Honest turns) :
    ((session.shared.machine.live.filterMap Resource.buffer?).Perm
        ((session.buffers ++ session.pooledBuffers).map (·.id)) ∧
      ((session.buffers ++ session.pooledBuffers).map (·.id)).Nodup) ∧
    (∀ heap size buffer,
      (ContextStep.run (.acquire heap size) session).result = .ok (.buffer buffer) →
        Handed (.ofTurns turns) session heap buffer
          (ContextStep.run (.acquire heap size) session).state) ∧
    ∀ step : ContextStep δ, step ≠ .drop → (Book.ofTurns turns).Agrees step →
      (step.run session).returned = true → ∀ id, .buffer id ∈ session.shared.machine.live →
        .buffer id ∉ (step.run session).state.shared.machine.live →
          LetGo (.ofTurns turns) config.trimThreshold session id (step.run session).state := by
  have accounts := went_accounts path
  have sound := went_sound path honest
  refine ⟨live_buffers accounts, fun heap size buffer acquired => ?_, ?_⟩
  · obtain ⟨same, told, got⟩ :=
      (acquire_got heap size session session ⟨rfl, accounts⟩).of_ok acquired
    cases told
    exact sound.handed got (acquired_fits (sound.pools heap) acquired)
  · intro step stays agrees returned id there gone
    have moves := step_moves accounts stays returned
    exact sound.lets_go accounts (moves.accounts accounts) agrees moves there gone

def acquired? (run : Run (Session δ) ContextAnswer) : Option Buffer :=
  match run.result with
  | .ok (.buffer buffer) => some buffer
  | _ => none

omit [Device δ] in
theorem of_acquired? {run : Run (Session δ) ContextAnswer} {buffer : Buffer}
    (acquired : acquired? run = some buffer) : run.result = .ok (.buffer buffer) := by
  unfold acquired? at acquired
  split at acquired
  · rename_i same
    cases acquired
    exact same
  · cases acquired

theorem buffers_pass_safely_around :
    ∃ (turns : List (Turn Scripted)) (session : Session Scripted),
      Went { Config.minimal with trimThreshold := 1, viewHeap := .fixed 2, samplerHeap := .fixed 1 }
        turns session ∧ Honest turns ∧
      session.pooledBuffers = [⟨1, 65536, .upload⟩] ∧
      Handed (.ofTurns turns) session .upload ⟨1, 65536, .upload⟩
        (ContextStep.run (.acquire .upload 20) session).state ∧
      LetGo (.ofTurns turns) 1 session 1 (ContextStep.run .trim session).state := by
  have path := opened_went (Option.some_get (by decide +kernel :
    (opened Scripted.standard .immediate { Config.minimal with
      trimThreshold := 1, viewHeap := .fixed 2, samplerHeap := .fixed 1 } ⟨[]⟩).state.isSome =
        true)).symm
  have honest := And.intro path (honest_nil (δ := Scripted))
  replace honest := honest_step honest (.acquire .upload 16) nofun (by decide +kernel) trivial
  replace honest := honest_step honest (.release .upload 16 0) nofun (by decide +kernel) (by
    simp only [Book.Agrees]
    decide +kernel)
  replace honest := honest_step honest (.submit .graphics) nofun (by decide +kernel) trivial
  replace honest := honest_step honest (.submit .graphics) nofun (by decide +kernel) trivial
  replace honest := honest_step honest (.device (·.complete .graphics 2)) nofun (by decide +kernel)
    trivial
  obtain ⟨-, handed, dropped⟩ := buffers_pass_safely honest.1 honest.2
  refine ⟨_, _, honest.1, honest.2, by decide +kernel, ?_, ?_⟩
  · exact handed _ _ _ (of_acquired? (by decide +kernel))
  · exact dropped .trim nofun trivial (by decide +kernel) 1 (by decide +kernel) (by decide +kernel)

end Session

end Reclaim
