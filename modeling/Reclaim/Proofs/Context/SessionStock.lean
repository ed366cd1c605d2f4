import Reclaim.Proofs.Context.Composition
import Reclaim.Proofs.Context.Stock
import Reclaim.Proofs.Context.Timelines
import Reclaim.Proofs.Ownership.Session

namespace Reclaim

variable {δ α : Type}

open Shared

variable {holds : Config → BufferHeap → Supply → Prop}

namespace OnlineHeap

def Stocked (holds : Config → BufferHeap → Supply → Prop) (both : OnlineHeap × Shared δ) : Prop :=
  both.2.Stocked holds

theorem beside_stocked {x : Action (Shared δ) α}
    (preserves : Action.Preserves (Shared.Stocked holds) x) :
    Action.Preserves (Stocked holds) (Action.on sharedOf x) :=
  Action.preserves_on sharedOf preserves

theorem heap_stocked {x : Action (OnlineHeap × Shared δ) α} (keeps : Action.Keeps Prod.snd x) :
    Action.Preserves (Stocked holds) x :=
  Action.preserves_of_runs fun _ stocked => stocked.of_stock (congrArg stock (keeps _))

theorem gpuBaseOf_stocked (object : HeapObject) :
    Action.Preserves (Shared.Stocked (δ := δ) holds) (gpuBaseOf object) := by
  unfold gpuBaseOf
  split
  · exact Action.returns_pure fun _ stocked => stocked
  · exact Action.returns_bind (drop_answers _).preserves fun _ =>
      Action.returns_refuse fun _ stocked => stocked

theorem trim_stocked (threshold completed : Nat) :
    Action.Preserves (Stocked (δ := δ) holds) (trim threshold completed) := by
  refine Action.returns_look fun both => ?_
  dsimp only
  split
  · exact Action.returns_pure fun _ stocked => stocked
  refine Action.returns_bind (heap_stocked fun _ => rfl) fun _ => ?_
  refine Action.returns_bind (beside_stocked (drop_answers _).preserves) fun _ => ?_
  exact Action.returns_pure fun _ stocked => stocked

variable [Device δ] (lasting : ∀ config heap, Supply.Lasting δ (holds config heap))

include lasting

theorem create_stocked (kind : Kind) (config : OnlineConfig) :
    Action.Preserves (Shared.Stocked (δ := δ) holds) (create kind config) := by
  unfold create
  split
  · exact Action.returns_refuse fun _ stocked => stocked
  refine Action.returns_bind (createHeap_stocked lasting _) fun object => ?_
  refine Action.returns_bind (gpuBaseOf_stocked object) fun gpuBase => ?_
  split
  · exact Action.returns_bind (drop_answers _).preserves fun _ =>
      Action.returns_refuse fun _ stocked => stocked
  · exact Action.returns_look fun _ => Action.returns_pure fun _ stocked => stocked

theorem grow_stocked (recording : Nat) :
    Action.Preserves (Stocked (δ := δ) holds) (grow recording) := by
  refine Action.returns_look fun both => ?_
  refine Action.returns_bind (beside_stocked (createHeap_stocked lasting _)) fun object => ?_
  refine Action.returns_bind (beside_stocked (gpuBaseOf_stocked object)) fun gpuBase => ?_
  refine Action.returns_bind (beside_stocked (retire_answers lasting _ _ _ _).preserves) fun _ => ?_
  exact Action.returns_bind (heap_stocked fun _ => rfl) fun _ => Action.returns_note _

theorem swap_stocked (recording : Nat) :
    Action.Preserves (Stocked (δ := δ) holds) (swap recording) := by
  refine Action.returns_bind (beside_stocked (aside_stocked fun _ => rfl)) fun completed => ?_
  refine Action.returns_look fun both => ?_
  have creates : Action.Preserves (Stocked (δ := δ) holds)
      (Action.on sharedOf (createHeap both.1.desc)) :=
    beside_stocked (createHeap_stocked lasting _)
  have exchanges (object : HeapObject) :
      Action.Preserves (Stocked (δ := δ) holds) (exchange both.1 recording object) := by
    refine Action.returns_bind (beside_stocked (gpuBaseOf_stocked object)) fun gpuBase => ?_
    refine Action.returns_bind (heap_stocked fun _ => rfl) fun _ => ?_
    exact Action.returns_look fun _ => Action.returns_note _
  dsimp only
  split
  · refine Action.returns_bind (Action.returns_note _) fun _ => ?_
    exact Action.returns_bind creates exchanges
  · refine Action.returns_bind (BoundedPool.retrieve_preserves (fun _ _ stocked => stocked) creates
      fun fence => ?_) exchanges
    exact beside_stocked (waitFor_answers .graphics fence).preserves

theorem rollOver_stocked : Action.Preserves (Stocked (δ := δ) holds) rollOver := by
  refine Action.returns_bind (beside_stocked (aside_stocked fun _ => rfl)) fun recording => ?_
  refine Action.returns_look fun both => ?_
  dsimp only
  split
  · exact grow_stocked lasting recording
  · exact swap_stocked lasting recording

theorem reserve_stocked (slots : Nat) :
    Action.Preserves (Stocked (δ := δ) holds) (reserve slots) := by
  refine reserve_preserves (fun _ => True) ?_ (fun _ _ => heap_stocked fun _ => rfl)
    (beside_stocked (aside_stocked fun _ => rfl)) (fun _ => heap_stocked fun _ => rfl)
    (rollOver_stocked lasting)
  exact Action.returns_after (beside_stocked (aside_stocked fun _ => rfl))
    fun _ _ stocked => ⟨stocked, trivial⟩

end OnlineHeap

namespace Immediate

def Stocked (holds : Config → BufferHeap → Supply → Prop) (immediate : Immediate δ) : Prop :=
  immediate.shared.Stocked holds

theorem shared_stocked {x : Action (Shared δ) α}
    (preserves : Action.Preserves (Shared.Stocked holds) x) :
    Action.Preserves (Stocked holds) (Action.on sharedOf x) :=
  Action.preserves_on sharedOf preserves

theorem trimOnline_stocked {part : Part (Immediate δ) (OnlineHeap × Shared δ)}
    (enters : ∀ x : Action (OnlineHeap × Shared δ) Unit,
      Action.Preserves (OnlineHeap.Stocked holds) x →
        Action.Preserves (Stocked holds) (Action.on part x)) (threshold completed : Nat) :
    Action.Preserves (Stocked holds) (trimOnline part threshold completed) := by
  refine enters _ ?_
  refine Action.returns_bind (OnlineHeap.heap_stocked fun _ => rfl) fun _ => ?_
  exact Action.returns_bind (OnlineHeap.trim_stocked threshold completed) fun _ =>
    Action.returns_pure fun _ stocked => stocked

theorem closeEach_stocked (mask : QueueMask) (queues : List Queue) (fences : Fences) :
    Action.Preserves (Stocked (δ := δ) holds) (closeEach mask queues fences) := by
  induction queues generalizing fences with
  | nil => exact Action.returns_pure fun _ stocked => stocked
  | cons queue rest ih =>
    unfold closeEach
    split
    · exact Action.returns_bind (shared_stocked (aside_stocked fun _ => rfl)) fun _ => ih _
    · exact ih fences

variable [Device δ] (lasting : ∀ config heap, Supply.Lasting δ (holds config heap))

include lasting

theorem createHeaps_stocked (config : Config) :
    Action.Preserves (Shared.Stocked (δ := δ) holds) (createHeaps config) := by
  refine Action.returns_bind (OnlineHeap.create_stocked lasting .view config.viewHeap)
    fun view => ?_
  refine Action.returns_bind (Action.returns_attempt
    (OnlineHeap.create_stocked lasting .sampler config.samplerHeap)) fun result => ?_
  cases result with
  | ok sampler => exact Action.returns_pure fun _ stocked => stocked
  | error error =>
    exact Action.returns_bind (Action.answers_each (fun _ => drop_answers _) _).preserves fun _ =>
      Action.returns_refuse fun _ stocked => stocked

theorem trim_stocked : Action.Preserves (Stocked (δ := δ) holds) trim := by
  refine Action.returns_bind (shared_stocked (Shared.trim_stocked lasting)) fun freed => ?_
  refine Action.returns_bind (shared_stocked (aside_stocked fun _ => rfl)) fun completed => ?_
  refine Action.returns_look fun immediate => ?_
  refine Action.returns_bind (trimOnline_stocked (fun _ => Action.preserves_on viewOf) _ _)
    fun _ => ?_
  refine Action.returns_bind (trimOnline_stocked (fun _ => Action.preserves_on samplerOf) _ _)
    fun _ => ?_
  exact Action.returns_pure fun _ stocked => stocked

theorem submit_stocked (queue : Queue) :
    Action.Preserves (Stocked (δ := δ) holds) (submit queue) := by
  refine Action.returns_bind (shared_stocked (aside_stocked fun _ => rfl)) fun fence => ?_
  refine Action.returns_bind (Action.returns_note _) fun _ => ?_
  exact Action.returns_bind (trim_stocked lasting) fun _ =>
    Action.returns_pure fun _ stocked => stocked

theorem flush_stocked (mask : QueueMask) :
    Action.Preserves (Stocked (δ := δ) holds) (flush mask) := by
  refine Action.returns_bind (closeEach_stocked mask _ _) fun fences => ?_
  exact Action.returns_bind (trim_stocked lasting) fun _ =>
    Action.returns_pure fun _ stocked => stocked

theorem waitForIdle_stocked (queue : Queue) :
    Action.Preserves (Stocked (δ := δ) holds) (waitForIdle queue) := by
  have trims : Action.Preserves (Stocked (δ := δ) holds) (do let _ ← trim) :=
    Action.returns_bind (trim_stocked lasting) fun _ =>
      Action.returns_pure fun _ stocked => stocked
  refine Action.returns_bind (shared_stocked (aside_stocked fun _ => rfl)) fun recording => ?_
  refine Action.returns_bind (Action.returns_checked _) fun last => ?_
  refine Action.returns_before ?_ fun _ seen => seen.1
  dsimp only
  split
  · exact Action.returns_bind (shared_stocked (waitFor_answers queue last).preserves)
      fun _ => trims
  · exact trims

end Immediate

namespace Session

def Stocked (holds : Config → BufferHeap → Supply → Prop) (session : Session δ) : Prop :=
  session.shared.Stocked holds

theorem caller_stocked {x : Action (Session δ) α} (keeps : Action.Keeps Session.shared x) :
    Action.Preserves (Stocked holds) x :=
  Action.preserves_of_runs fun _ stocked => stocked.of_stock (congrArg stock (keeps _))

theorem shared_stocked {x : Action (Shared δ) α}
    (preserves : Action.Preserves (Shared.Stocked holds) x) :
    Action.Preserves (Stocked holds) (withShared x) :=
  Action.preserves_on sharedOf preserves

theorem immediate_stocked {x : Action (Immediate δ) α}
    (preserves : Action.Preserves (Immediate.Stocked holds) x) :
    Action.Preserves (Stocked holds) (withImmediate x) := by
  rintro ⟨shared, front, buffers, slots, blocks⟩ stocked
  cases front with
  | sharedOnly | online heap => exact stocked
  | immediate view sampler =>
    let whole (now : Immediate δ) : Session δ :=
      ⟨now.shared, .immediate now.view now.sampler, buffers, slots, blocks⟩
    exact (preserves ⟨shared, view, sampler⟩ stocked).image whole (fun _ _ kept => kept)
      fun _ kept => kept

theorem online_stocked {kind : Option Kind} {x : Action (OnlineHeap × Shared δ) α}
    (preserves : Action.Preserves (OnlineHeap.Stocked holds) x) :
    Action.Preserves (Stocked holds) (withOnline kind x) := by
  intro session stocked
  rcases withOnline_run kind x session with refused | ⟨_, heap, _, -, whole, parts, ran⟩
  · rw [refused]
    exact stocked
  have back (both : OnlineHeap × Shared δ) (kept : OnlineHeap.Stocked holds both) :
      Stocked holds (whole both) := by
    unfold Stocked
    rw [(parts both).2]
    exact kept
  rw [ran]
  exact (preserves (heap, session.shared) stocked).image whole (fun _ => back) back

theorem answer_stocked {x : Action (Session δ) α} {f : α → ContextAnswer}
    (preserves : Action.Preserves (Stocked holds) x) :
    Action.Preserves (Stocked holds) (x >>= fun a => return f a) :=
  Action.returns_bind preserves fun _ => Action.returns_pure fun _ stocked => stocked

variable [Device δ] (lasting : ∀ config heap, Supply.Lasting δ (holds config heap))

include lasting

theorem tryOutcomes_stocked (outcomes : List (Option Error)) :
    Action.Preserves (Shared.Stocked (δ := δ) holds) (tryOutcomes outcomes) := by
  intro shared stocked
  have once : Action.Preserves (fun s => Shared.Stocked holds s.2)
      (outcomesAttempt (δ := δ)).run :=
    Action.preserves_of_keeps fun _ => rfl
  have tried := tryWithin_returns (reclaim_answers lasting).preserves once (shared.pending + 1)
    ((outcomes, 0), shared) stocked
  unfold tryOutcomes Action.attempt Shared.tryAllocate
  match Shared.tryWithin outcomesAttempt (shared.pending + 1) ((outcomes, 0), shared), tried with
  | ⟨.ok _, _, _⟩, reached => exact reached
  | ⟨.error (.error _), _, _⟩, stopped => exact stopped
  | ⟨.error (.fault _), _, _⟩, _ => trivial

theorem step_stocked {step : ContextStep δ} (stays : step ≠ .drop) :
    Action.Preserves (Stocked holds) step.run := by
  cases step with
  | drop => exact absurd rfl stays
  | submit queue =>
    exact answer_stocked (immediate_stocked (Immediate.submit_stocked lasting queue))
  | flush mask => exact answer_stocked (immediate_stocked (Immediate.flush_stocked lasting mask))
  | waitForIdle queue =>
    exact answer_stocked (immediate_stocked (Immediate.waitForIdle_stocked lasting queue))
  | trim => exact answer_stocked (immediate_stocked (Immediate.trim_stocked lasting))
  | contextText =>
    exact immediate_stocked (Action.returns_look fun _ => Action.returns_pure fun _ kept => kept)
  | reserve kind slots =>
    exact answer_stocked (online_stocked (OnlineHeap.reserve_stocked lasting slots))
  | handles kind slot =>
    refine online_stocked (Action.returns_look fun both => ?_)
    exact Action.returns_bind (Action.returns_checked _) fun _ =>
      Action.returns_pure fun _ read => read.1
  | onlineInfo kind | onlineText kind =>
    exact online_stocked (Action.returns_look fun _ => Action.returns_pure fun _ kept => kept)
  | reclaimSlots completed =>
    exact answer_stocked (online_stocked (OnlineHeap.heap_stocked fun _ => rfl))
  | trimParked threshold completed =>
    exact answer_stocked (online_stocked (OnlineHeap.trim_stocked threshold completed))
  | closeBatch | isReached | freeHandle | signal | device =>
    exact answer_stocked (shared_stocked (aside_stocked fun _ => rfl))
  | waitFor queue fence =>
    exact answer_stocked (shared_stocked (waitFor_answers queue fence).preserves)
  | retireObject id last completion waits =>
    exact answer_stocked (shared_stocked (retire_answers lasting _ _ _ _).preserves)
  | trimRetired | destroyAll =>
    exact answer_stocked (shared_stocked (trimRetired_answers lasting _).preserves)
  | trimShared => exact answer_stocked (shared_stocked (Shared.trim_stocked lasting))
  | tryOutcomes outcomes => exact shared_stocked (tryOutcomes_stocked lasting outcomes)
  | sharedText | config => exact Action.returns_look fun _ => Action.returns_pure fun _ kept => kept
  | manager kind index =>
    refine Action.returns_look fun before => ?_
    exact Action.returns_bind (Action.returns_checked _) fun _ =>
      Action.returns_pure fun _ read => read.1
  | acquire heap size =>
    refine Action.returns_bind (shared_stocked (acquire_stocked lasting heap size)) fun made => ?_
    exact answer_stocked (caller_stocked fun _ => rfl)
  | allocateSlot kind =>
    refine Action.returns_bind (shared_stocked (allocateSlot_stocked lasting kind)) fun made => ?_
    exact answer_stocked (caller_stocked fun _ => rfl)
  | suballocate heap size cannotBeOffset =>
    refine Action.returns_bind (shared_stocked (suballocate_stocked lasting heap size
      cannotBeOffset)) fun made => ?_
    exact answer_stocked (caller_stocked fun _ => rfl)
  | release heap size place =>
    refine Action.returns_look fun before => ?_
    split
    · exact Action.returns_pure fun _ kept => kept
    · exact Action.returns_bind (caller_stocked fun _ => rfl) fun _ =>
        answer_stocked (shared_stocked (release_stocked heap size _))
  | freeSlot place keep =>
    refine Action.returns_look fun before => ?_
    split
    · exact Action.returns_pure fun _ kept => kept
    · exact Action.returns_bind (caller_stocked fun _ => rfl) fun _ =>
        answer_stocked (shared_stocked (aside_stocked fun _ => rfl))
  | retireBlock place last =>
    refine Action.returns_look fun before => ?_
    split
    · exact Action.returns_pure fun _ kept => kept
    · exact Action.returns_bind (caller_stocked fun _ => rfl) fun _ =>
        answer_stocked (shared_stocked (retireBlock_answers lasting _ last).preserves)

theorem openFront_stocked (mode : Mode) :
    Action.Preserves (Shared.Stocked (δ := δ) holds) (openFront mode) := by
  cases mode with
  | sharedOnly => exact Action.returns_pure fun _ kept => kept
  | immediate =>
    refine Action.returns_look fun seen => ?_
    exact Action.returns_bind (Immediate.createHeaps_stocked lasting seen.config) fun _ =>
      Action.returns_pure fun _ kept => kept
  | online kind config =>
    exact Action.returns_bind (OnlineHeap.create_stocked lasting kind config) fun _ =>
      Action.returns_pure fun _ kept => kept

theorem went_stocked {config : Config} {turns : List (Turn δ)} {session : Session δ}
    (opens : ∀ device board shared,
      (Shared.create (δ := δ) (.start device) config board ()).result = .ok shared →
        shared.Stocked holds)
    (path : Went config turns session) : session.shared.Stocked holds := by
  induction path with
  | opened made => exact opens _ _ _ made
  | fronted path bare made ih => exact (openFront_stocked lasting _ _ ih).of_ok made
  | unfronted path refused ih => exact (openFront_stocked lasting _ _ ih).of_error refused
  | step path step stays returned ih =>
    exact (step_stocked lasting stays _ ih).of_returned returned

end Session

section Opening

theorem Supply.choose_orderly (heap : BufferHeap) (useBuddy : Bool) (layout : BuddyLayout) :
    Action.Returns (fun _ : Unit => True) (choose heap useBuddy layout)
      (fun supply _ => supply.Orderly) fun _ => True := by
  unfold choose
  split
  · refine Action.returns_bind (Action.returns_note _) fun _ => ?_
    refine Action.returns_bind (Action.returns_settle _) fun buddy => ?_
    exact Action.returns_pure fun _ chosen => Buddy.ofLayout?_orderly chosen.2
  · refine Action.returns_bind (Action.returns_note _) fun _ => ?_
    exact Action.returns_pure fun _ _ => Dedicated.ofHeap_orderly heap

theorem Shared.chooseAllocators_orderly (config : Config) (heap : BufferHeap) :
    Action.Returns (fun _ : Unit => True) (chooseAllocators config heap)
      (fun allocators _ => allocators.pooled.Orderly ∧ allocators.dedicated.Orderly)
      fun _ => True := by
  refine Action.returns_bind (Action.returns_settle _) fun layout => ?_
  refine Action.returns_bind (Action.returns_before
    (Supply.choose_orderly heap config.useBuddy layout) fun _ _ => trivial) fun supply => ?_
  exact Action.returns_pure fun _ orderly => ⟨orderly, Dedicated.ofHeap_orderly heap⟩

def Shared.Orderly (shared : Shared δ) : Prop := shared.Stocked fun _ _ => Supply.Orderly

theorem Shared.create_stocked [Device δ] {config : Config}
    (chooses : ∀ heap, Action.Returns (fun _ : Unit => True) (chooseAllocators config heap)
      (fun allocators _ => holds config heap allocators.pooled ∧ allocators.dedicated.Orderly)
      fun _ => True) (device : δ) (board : Board) :
    Action.Returns (fun _ : Unit => True) (create (.start device) config board)
      (fun shared _ => shared.Stocked holds) fun _ => True := by
  refine Action.returns_bind (chooses .upload) fun upload => ?_
  refine Action.returns_given (fun _ right => right) fun uploads => ?_
  refine Action.returns_bind (Action.returns_before (chooses .readback) fun _ _ => trivial)
    fun readback => ?_
  refine Action.returns_bind (Action.returns_note _) fun _ => ?_
  refine Action.returns_pure fun _ readbacks => ⟨fun heap => ?_, fun heap => ?_⟩
  · cases heap with
    | upload => exact uploads.1
    | readback => exact readbacks.1
  · cases heap with
    | upload => exact uploads.2
    | readback => exact readbacks.2

theorem Shared.create_orderly [Device δ] (device : δ) (config : Config) (board : Board) :
    Action.Returns (fun _ : Unit => True) (create (.start device) config board)
      (fun shared _ => shared.Orderly) fun _ => True :=
  create_stocked (chooseAllocators_orderly config) device board

theorem Session.went_orderly [Device δ] {config : Config} {turns : List (Turn δ)}
    {session : Session δ} (path : Went config turns session) : session.shared.Orderly :=
  went_stocked (fun _ _ => Supply.orderly_lasting)
    (fun device board _ made => (Shared.create_orderly device config board () trivial).of_ok made)
    path

end Opening

end Reclaim
