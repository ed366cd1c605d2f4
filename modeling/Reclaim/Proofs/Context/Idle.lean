import Reclaim.Proofs.Context.Fallback
import Reclaim.Proofs.Context.Soundness
import Reclaim.Proofs.Ring.WaveLine

namespace Reclaim

variable {δ α π : Type}

namespace Retirement

variable {queue : Retirement α π} {timeline : Timeline} {recording : Fences} {board : Board}

structure Due (recording : Fences) (board : Board) (queue : Retirement α π) : Prop where
  objects : ∀ retired ∈ queue.objects,
    (∀ q, retired.last.get q ≠ 0 → retired.last.get q < recording.get q) ∧
      ∀ wait ∈ retired.waits, wait.value ≤ board.valueOf wait.fence
  blocks : ∀ retired ∈ queue.blocks, ∀ q, retired.last.get q ≠ 0 →
    retired.last.get q < recording.get q

instance decidableEachQueue (holds : Queue → Prop) [DecidablePred holds] :
    Decidable (∀ q, holds q) :=
  decidable_of_iff (∀ q ∈ Queue.all, holds q)
    ⟨fun each q => each q q.mem_all, fun each q _ => each q⟩

instance decidableDue : Decidable (queue.Due recording board) :=
  decidable_of_iff (_ ∧ _) ⟨fun both => ⟨both.1, both.2⟩, fun due => ⟨due.objects, due.blocks⟩⟩

theorem Due.fewer {fewer : Retirement α π} (due : queue.Due recording board)
    (objects : fewer.objects ⊆ queue.objects) (blocks : fewer.blocks ⊆ queue.blocks) :
    fewer.Due recording board :=
  ⟨fun retired among => due.objects retired (objects among),
    fun retired among => due.blocks retired (blocks among)⟩

end Retirement

namespace Ring

variable {size limit : Nat} {ring : Ring} {waves : List Wave}

def Idle (ring : Ring) : Prop := ring.inFlight = .ok 0 ∧ ring.outstanding = 0

theorem deallocate_idles (completed : Nat) :
    Action.Returns (Sound size limit) (deallocate completed)
      (fun _ ring => ring.Sound size limit ∧ (limit ≤ completed + 1 → ring.Idle))
      (Sound size limit) := by
  rintro ring ⟨rfl, waves, holds, below⟩
  rcases deallocate_exact holds completed with ⟨ran, -⟩ | ⟨fits, notes, ran⟩
  · rw [ran]
    exact trivial
  have held := reclaimed_holds holds completed
  rw [ran]
  refine ⟨⟨rfl, _, held, fun wave among => below wave ?_⟩, fun come => ?_⟩
  · exact (List.dropWhile_sublist _).subset among
  have gone : waves.dropWhile (·.fence ≤ completed) = [] := by
    refine List.dropWhile_eq_nil_iff.mpr fun wave among => ?_
    have near := below wave among
    simpa using (by omega : wave.fence ≤ completed)
  rw [gone] at held
  have counted := held.counted
  rw [Wave.total_nil, Nat.add_zero] at counted
  have reach : (ring.reclaimed completed waves).tail + (ring.reclaimed completed waves).size <
      Word.limit := counted ▸ fits
  refine ⟨?_, outstanding_eq held⟩
  unfold inFlight
  rw [Word.add_ok reach, ← counted]
  change Word.sub _ _ = _
  rw [Word.sub_ok (Nat.le_refl _), Nat.sub_self]

end Ring

namespace Shared

variable {recording : Fences} {board : Board} {idle : List Queue} {shared after : Shared δ}
  {events : List Event} {ι : Type}

-- What waits is due, and so far these queues have been seen to have completed what they were given.
structure Winding (recording : Fences) (board : Board) (idle : List Queue) (shared : Shared δ) :
    Prop where
  recorded : shared.recording = recording
  signalled : shared.board = board
  due : shared.retired.Due recording board
  come : ∀ queue ∈ idle, recording.get queue ≤ shared.known.get queue + 1

def Wound (recording : Fences) (board : Board) (idle : List Queue) (shared : Shared δ) : Prop :=
  shared.Winding recording board idle ∧ ((∀ queue, queue ∈ idle) → shared.pending = 0)

def Holding (recording : Fences) (board : Board) (idle : List Queue)
    (here : Retirement Retiree Owner → Prop) (shared : Shared δ) : Prop :=
  shared.Winding recording board idle ∧ here shared.retired

theorem Winding.looks (winding : shared.Winding recording board idle)
    (looks : Looks shared events after) :
    after.Winding recording board idle where
  recorded := looks.recording.trans winding.recorded
  signalled := looks.board.trans winding.signalled
  due := looks.retired ▸ winding.due
  come queue among := Nat.le_trans (winding.come queue among)
    (Nat.succ_le_succ (looks.known queue))

theorem Wound.looks (wound : shared.Wound recording board idle)
    (looks : Looks shared events after) :
    after.Wound recording board idle := by
  refine ⟨wound.1.looks looks, fun all => ?_⟩
  rw [pending, looks.retired]
  exact wound.2 all

theorem Winding.another {queue : Queue} (winding : shared.Winding recording board idle)
    (come : recording.get queue ≤ shared.known.get queue + 1) :
    shared.Winding recording board (queue :: idle) :=
  { winding with come := List.forall_mem_cons.mpr ⟨come, winding.come⟩ }

-- What there is besides machines, pools, slots and allocators.
def ledger (shared : Shared δ) : Fences × Board × Retirement Retiree Owner × Fences :=
  (shared.recording, shared.board, shared.retired, shared.known)

theorem Looks.of_ledger (same : after.ledger = shared.ledger) : Looks shared [] after := by
  simp only [ledger, Prod.mk.injEq] at same
  obtain ⟨recording, board, retired, known⟩ := same
  exact ⟨recording, board, retired, fun queue => Nat.le_of_eq (known ▸ rfl), fun _ _ => nofun⟩

theorem winds_aside {x : Action (Shared δ) α} (keeps : Action.Keeps ledger x) :
    Action.Preserves (Wound recording board idle) x := by
  intro shared wound
  have stays := wound.looks (.of_ledger (keeps shared))
  unfold Run.Leaves
  split
  · exact stays
  · exact stays
  · exact trivial

theorem keeps_ledger_drop (resource : Resource) :
    Action.Keeps ledger (drop (δ := δ) resource) :=
  Action.keeps_on (fun _ _ => rfl) _

theorem keeps_ledger_giveBack (owner : Owner) (block : Block) :
    Action.Keeps ledger (giveBack (δ := δ) owner block) := by
  unfold giveBack
  split <;> exact Action.keeps_on (fun _ _ => rfl) _

theorem trimBuffers_winds (heap : BufferHeap) (completed : Nat) :
    Action.Preserves (Wound recording board idle) (trimBuffers (δ := δ) heap completed) := by
  refine winds_aside (Action.keeps_bind (fun _ => rfl) fun shared => ?_)
  refine Action.keeps_bind (fun shared => ?_) fun _ =>
    Action.keeps_each (fun _ => keeps_ledger_drop _) _
  cases heap <;> rfl

variable [Device δ]

theorem allows_winds (here : Retirement Retiree Owner → Prop) (front : Foremost) {signals : Board}
    (submitted : ∀ q, front.last.get q ≠ 0 → front.last.get q < recording.get q)
    (met : ∀ wait ∈ front.waits, wait.value ≤ signals.valueOf wait.fence) :
    Action.Returns (Holding (δ := δ) recording board idle here)
      (reading.allows signals front.completion front.last front.waits)
      (fun goes shared => shared.Holding recording board idle here ∧
        ((∀ queue, queue ∈ idle) → goes = true)) fun _ => True := by
  rintro shared ⟨winding, held⟩
  obtain ⟨goes, after, events, ran, reads, refuses⟩ :=
    (allows_reads signals front [] shared (.refl shared)).surely
  rw [ran]
  refine ⟨⟨winding.looks reads.toLooks, reads.retired ▸ held⟩, fun all => ?_⟩
  cases goes with
  | true => rfl
  | false =>
    exfalso
    rcases refuses rfl with ⟨wait, waited, unmet⟩ | ⟨q, used, refused⟩
    · exact Nat.not_le.mpr unmet (met wait waited)
    have below := submitted q used
    cases complete : front.completion with
    | true =>
      rw [complete] at refused
      obtain ⟨seen, told, early⟩ := refused
      have known := (reads.seen q seen told).1
      have come := winding.come q (all q)
      omega
    | false =>
      rw [complete, winding.recorded] at refused
      exact Nat.not_le.mpr below refused

omit [Device δ] in
theorem drain_winds (here : Retirement Retiree Owner → Prop)
    (among : Retirement Retiree Owner → List ι) {ask : ι → Action (Shared δ) Bool}
    {take : ι → List ι → Action (Shared δ) Unit}
    (asks : ∀ item rest, Action.Returns
      (Holding recording board idle fun queue => here queue ∧ among queue = item :: rest) (ask item)
      (fun goes shared => (shared.Holding recording board idle fun queue =>
        here queue ∧ among queue = item :: rest) ∧ ((∀ queue, queue ∈ idle) → goes = true))
      fun _ => True)
    (takes : ∀ item rest, Action.Returns
      (Holding recording board idle fun queue => here queue ∧ among queue = item :: rest)
      (take item rest)
      (fun _ => Holding recording board idle fun queue => here queue ∧ among queue = rest)
      fun _ => True) (items : List ι) :
    Action.Returns (Holding recording board idle fun queue => here queue ∧ among queue = items)
      (Action.drain ask take items)
      (fun _ => Holding recording board idle fun queue =>
        here queue ∧ ((∀ queue, queue ∈ idle) → among queue = [])) fun _ => True := by
  let holds (items : List ι) : Shared δ → Prop :=
    Holding recording board idle fun queue => here queue ∧ among queue = items
  refine Action.returns_drain holds holds _ (fun item rest => ?_) takes
    (fun shared held => ⟨held.1, held.2.1, fun _ => held.2.2⟩) items
  refine Action.returns_after (asks item rest) fun goes shared ⟨held, told⟩ => ?_
  cases goes with
  | true => exact held
  | false => exact ⟨held.1, held.2.1, fun all => absurd (told all) nofun⟩

omit [Device δ] in
theorem take_winds {here left : Retirement Retiree Owner → Prop}
    {f : Retirement Retiree Owner → Retirement Retiree Owner} {x : Action (Shared δ) α}
    (fewer : ∀ queue, here queue → (f queue).objects ⊆ queue.objects ∧
      (f queue).blocks ⊆ queue.blocks ∧ left (f queue))
    (keeps : Action.Keeps ledger x) :
    Action.Returns (Holding recording board idle here) (keeper.change f >>= fun _ => x)
      (fun _ => Holding recording board idle left) fun _ => True := by
  refine Action.returns_via (fun _ => Holding recording board idle left) ?_ fun _ => ?_
  · rintro shared ⟨winding, held⟩
    obtain ⟨objects, blocks, left⟩ := fewer shared.retired held
    exact ⟨{ winding with due := winding.due.fewer objects blocks }, left⟩
  · have preserves : Action.Preserves (Holding recording board idle left) x := by
      refine Action.preserves_of_runs fun shared ⟨winding, held⟩ => ?_
      have looks := Looks.of_ledger (keeps shared)
      exact ⟨winding.looks looks, looks.retired ▸ held⟩
    exact Action.returns_weaken preserves (fun _ held => held) (fun _ _ held => held)
      fun _ _ => trivial

theorem trimObjects_winds :
    Action.Returns (Winding (δ := δ) recording board idle) (keeper.trimObjects reading board false)
      (fun _ => Holding recording board idle fun queue =>
        (∀ queue, queue ∈ idle) → queue.objects = []) fun _ => True := by
  refine Action.returns_bind Action.returns_get fun seen => Action.returns_weaken
    (drain_winds (fun _ => True) (·.objects) (fun item rest => ?_) (fun item rest => ?_) _)
    (fun shared both => ⟨both.1, trivial, both.2 ▸ rfl⟩)
    (fun _ shared left => ⟨left.1, left.2.2⟩) fun _ left => left
  · refine Action.returns_given (fun shared held =>
      held.1.due.objects item (held.2.2 ▸ List.mem_cons_self)) fun ⟨submitted, met⟩ => ?_
    exact allows_winds _ (.ofObject item) submitted met
  · refine take_winds (fun queue ⟨_, same⟩ => ?_) (keeps_ledger_drop _)
    exact ⟨same ▸ List.subset_cons_self _ _, List.Subset.refl _, trivial, rfl⟩

theorem trimBlocks_winds :
    Action.Returns
      (Holding (δ := δ) recording board idle fun queue =>
        (∀ queue, queue ∈ idle) → queue.objects = [])
      (keeper.trimBlocks reading false) (fun _ => Wound recording board idle) fun _ => True := by
  refine Action.returns_bind Action.returns_get fun seen => Action.returns_weaken
    (drain_winds (fun queue => (∀ queue, queue ∈ idle) → queue.objects = []) (·.blocks)
      (fun item rest => ?_) (fun item rest => ?_) _)
    (fun shared both => ⟨both.1.1, both.1.2, both.2 ▸ rfl⟩)
    (fun _ shared left => ⟨left.1, fun all => ?_⟩) fun _ left => left
  · refine Action.returns_given (fun shared held =>
      held.1.due.blocks item (held.2.2 ▸ List.mem_cons_self)) fun submitted => ?_
    exact allows_winds _ (.ofBlock item) submitted nofun
  · refine take_winds (fun queue ⟨objects, same⟩ => ?_) (keeps_ledger_giveBack _ _)
    exact ⟨List.Subset.refl _, same ▸ List.subset_cons_self _ _, objects, rfl⟩
  · unfold pending Retirement.pending
    rw [left.2.1 all, left.2.2 all]
    rfl

theorem trimRetired_winds :
    Action.Returns (Winding (δ := δ) recording board idle) (trimRetired false)
      (fun _ => Wound recording board idle) fun _ => True := by
  refine Action.returns_bind Action.returns_get fun seen => ?_
  refine Action.returns_given (fun _ both => both.2 ▸ both.1.signalled) fun signalled => ?_
  rw [signalled]
  refine Action.returns_bind (Action.returns_before trimObjects_winds fun _ both => both.1)
    fun objects => Action.returns_bind trimBlocks_winds fun blocks => ?_
  have ends : Action.Returns (Wound (δ := δ) recording board idle) (do
      keeper.change fun queue =>
        { queue with
          destroyedObjects := queue.destroyedObjects + objects
          destroyedBlocks := queue.destroyedBlocks + blocks }
      return decide (0 < objects + blocks)) (fun _ => Wound recording board idle) fun _ => True := by
    rintro shared ⟨winding, gone⟩
    exact ⟨{ winding with due := winding.due.fewer (.refl _) (.refl _) }, gone⟩
  split
  · exact Action.returns_bind (Action.returns_note _) fun _ => ends
  · exact ends

theorem completedFence_winds (queue : Queue) :
    Action.Returns (Wound (δ := δ) recording board idle) (completedFence queue)
      (fun completed shared => shared.Wound recording board idle ∧
        (queue ∈ idle → recording.get queue ≤ completed + 1)) fun _ => True := by
  intro shared wound
  obtain ⟨after, ran, reads⟩ := completedFence_run queue shared
  rw [ran]
  refine ⟨wound.looks reads.toLooks, fun among => ?_⟩
  have known := (reads.seen queue _ List.mem_cons_self).1
  exact Nat.le_trans (wound.1.come queue among) (Nat.succ_le_succ known)

theorem trim_winds :
    Action.Returns (Winding (δ := δ) recording board idle) trim
      (fun _ => Wound recording board idle) fun _ => True := by
  have buffers (heap : BufferHeap) (completed : Nat) :
      Action.Returns (Wound (δ := δ) recording board idle) (trimBuffers heap completed)
        (fun _ => Wound recording board idle) fun _ => True :=
    Action.returns_weaken (trimBuffers_winds heap completed) (fun _ wound => wound)
      (fun _ _ wound => wound) fun _ _ => trivial
  refine Action.returns_bind trimRetired_winds fun freed => ?_
  refine Action.returns_bind (completedFence_winds .graphics) fun completed => ?_
  refine Action.returns_bind (Action.returns_before (buffers .upload completed)
    fun _ both => both.1) fun _ => ?_
  refine Action.returns_bind (buffers .readback completed) fun _ => ?_
  exact Action.returns_pure fun _ wound => wound

theorem waitFor_winds {queue : Queue} {last : Nat} (before : last + 1 = recording.get queue) :
    Action.Returns (Winding (δ := δ) recording board idle) (waitFor queue last)
      (fun _ => Winding recording board (queue :: idle)) fun _ => True := by
  intro shared winding
  have looked := waitFor_looks queue last [] shared (.refl shared)
  match waitFor queue last shared, looked with
  | ⟨.ok (), after, events⟩, ⟨looks, seen, told, come⟩ =>
    have reached := Nat.le_trans come (looks.seen queue seen told).2
    exact (winding.looks looks).another (before ▸ Nat.succ_le_succ reached)
  | ⟨.error (.error _), after, events⟩, _ => exact trivial
  | ⟨.error (.fault _), after, events⟩, _ => exact trivial

end Shared

namespace OnlineHeap

variable {limit : Nat} {recording : Fences} {board : Board} {idle : List Queue}

theorem trimHeap_winds (threshold completed : Nat) :
    Action.Returns
      (fun both : OnlineHeap × Shared δ =>
        both.1.Sound limit ∧ both.2.Wound recording board idle)
      (do
        reclaimSlots completed
        let _ ← trim threshold completed)
      (fun _ both => (both.1.Sound limit ∧ (limit ≤ completed + 1 → both.1.ring.Idle)) ∧
        both.2.Wound recording board idle)
      fun _ => True := by
  let holds (both : OnlineHeap × Shared δ) : Prop :=
    (both.1.Sound limit ∧ (limit ≤ completed + 1 → both.1.ring.Idle)) ∧
      both.2.Wound recording board idle
  have drops (resource : Resource) :
      Action.Preserves holds (Action.on sharedOf (Shared.drop resource)) :=
    Action.returns_on (fun _ _ => Shared.winds_aside (Shared.keeps_ledger_drop resource))
      (fun _ held => held.2) (fun _ _ _ held wound => ⟨held.1, wound⟩)
      fun _ _ held wound => ⟨held.1, wound⟩
  have trims : Action.Preserves holds (trim threshold completed) :=
    trim_preserves (fun _ _ held fewer => ⟨⟨held.1.1.unpark fewer, held.1.2⟩, held.2⟩) drops _ _
  refine Action.returns_via (fun _ => holds) ?_ fun _ => ?_
  · refine Action.returns_on (fun both _ => Ring.deallocate_idles completed)
      (fun both held => held.1.ring) ?_ fun _ _ _ _ => trivial
    exact fun both _ ring held idles => ⟨⟨{ held.1 with ring := idles.1 }, idles.2⟩, held.2⟩
  · refine Action.returns_bind (Action.returns_weaken trims (fun _ held => held)
      (fun _ _ held => held) fun _ _ => trivial) fun _ => ?_
    exact Action.returns_pure fun _ held => held

end OnlineHeap

namespace Immediate

variable {recording : Fences} {board : Board} {idle : List Queue}

structure Winding (recording : Fences) (board : Board) (idle : List Queue)
    (immediate : Immediate δ) : Prop where
  shared : immediate.shared.Winding recording board idle
  heaps : immediate.Sound recording.graphics

structure Drained (immediate : Immediate δ) : Prop where
  pending : immediate.shared.pending = 0
  view : immediate.view.ring.Idle
  sampler : immediate.sampler.ring.Idle

variable [Device δ]

theorem trim_winds :
    Action.Returns (Winding (δ := δ) recording board idle) trim
      (fun _ immediate => immediate.Winding recording board idle ∧
        ((∀ queue, queue ∈ idle) → immediate.Drained)) fun _ => True := by
  let wound (immediate : Immediate δ) : Prop :=
    immediate.shared.Wound recording board idle ∧ immediate.Sound recording.graphics
  refine Action.returns_via (fun _ => wound) ?_ fun freed => ?_
  · exact Action.returns_on (fun _ _ => Shared.trim_winds) (fun _ winding => winding.shared)
      (fun _ _ _ winding left => ⟨left, winding.heaps.view, winding.heaps.sampler⟩)
      fun _ _ _ _ => trivial
  refine Action.returns_via (fun completed immediate => wound immediate ∧
    (.graphics ∈ idle → recording.graphics ≤ completed + 1)) ?_ fun completed => ?_
  · refine Action.returns_on (fun _ _ => Shared.completedFence_winds .graphics)
      (fun _ wound => wound.1) ?_ fun _ _ _ _ => trivial
    rintro immediate completed shared ⟨-, sound⟩ ⟨left, come⟩
    exact ⟨⟨left, sound.view, sound.sampler⟩, come⟩
  refine Action.returns_look fun immediate => ?_
  refine Action.returns_given (fun _ both => both.2) fun come => ?_
  refine Action.returns_before ?_ fun _ both => both.1
  let idles (ring : Ring) : Prop := recording.graphics ≤ completed + 1 → ring.Idle
  refine Action.returns_via (fun _ immediate => wound immediate ∧ idles immediate.view.ring) ?_
    fun _ => ?_
  · refine Action.returns_on (fun _ _ => OnlineHeap.trimHeap_winds _ completed)
      (fun _ wound => ⟨wound.2.view, wound.1⟩) ?_ fun _ _ _ _ => trivial
    exact fun _ _ _ wound left => ⟨⟨left.2, left.1.1, wound.2.sampler⟩, left.1.2⟩
  refine Action.returns_via (fun _ immediate => (wound immediate ∧ idles immediate.view.ring) ∧
    idles immediate.sampler.ring) ?_ fun _ => Action.returns_pure ?_
  · refine Action.returns_on (fun _ _ => OnlineHeap.trimHeap_winds _ completed)
      (fun _ both => ⟨both.1.2.sampler, both.1.1⟩) ?_ fun _ _ _ _ => trivial
    exact fun _ _ _ both left => ⟨⟨⟨left.2, both.1.2.view, left.1.1⟩, both.2⟩, left.1.2⟩
  · rintro immediate ⟨⟨⟨left, sound⟩, view⟩, sampler⟩
    exact ⟨⟨left.1, sound⟩, fun all =>
      ⟨left.2 all, view (come (all .graphics)), sampler (come (all .graphics))⟩⟩

theorem waitForIdle_winds (queue : Queue) :
    Action.Returns (Winding (δ := δ) recording board idle) (waitForIdle queue)
      (fun _ immediate => immediate.Winding recording board (queue :: idle) ∧
        ((∀ other, other ∈ queue :: idle) → immediate.Drained)) fun _ => True := by
  have trims : Action.Returns (Winding (δ := δ) recording board (queue :: idle)) (do let _ ← trim)
      (fun _ immediate => immediate.Winding recording board (queue :: idle) ∧
        ((∀ other, other ∈ queue :: idle) → immediate.Drained)) fun _ => True :=
    Action.returns_bind trim_winds fun _ => Action.returns_pure fun _ left => left
  refine Action.returns_via (fun read immediate => immediate.Winding recording board idle ∧
    read = recording.get queue) ?_ fun read => ?_
  · intro immediate winding
    exact ⟨winding, congrArg (PerQueue.get · queue) winding.shared.recorded⟩
  refine Action.returns_bind (Action.returns_checked _) fun last => ?_
  refine Action.returns_given (fun _ both => both.2) fun counted => ?_
  refine Action.returns_given (fun _ both => both.1.2) fun same => ?_
  refine Action.returns_before ?_ fun _ both => both.1.1
  have before : last + 1 = recording.get queue := by
    unfold Word.sub at counted
    split at counted
    · cases counted
      omega
    · cases counted
  dsimp only
  split
  · refine Action.returns_bind (Action.returns_on (fun _ _ => Shared.waitFor_winds before)
      (fun _ winding => winding.shared) ?_ fun _ _ _ _ => trivial) fun _ => trims
    exact fun _ _ _ winding left => ⟨left, winding.heaps.view, winding.heaps.sampler⟩
  · refine Action.returns_before trims fun immediate winding => ?_
    exact ⟨winding.shared.another (by omega), winding.heaps⟩

end Immediate

namespace Session

variable {recording : Fences} {board : Board} {idle queues : List Queue} {session after : Session δ}

def Fronted (holds : Immediate δ → Prop) (session : Session δ) : Prop :=
  ∃ view sampler, session.front = .immediate view sampler ∧ holds ⟨session.shared, view, sampler⟩

structure Winding (recording : Fences) (board : Board) (idle : List Queue) (session : Session δ) :
    Prop where
  shared : session.shared.Winding recording board idle
  heaps : session.SoundHeaps recording.graphics

theorem immediate_winds {x : Action (Immediate δ) α} {post : α → Immediate δ → Prop}
    (returns : Action.Returns (Immediate.Winding recording board idle) x post fun _ => True) :
    Action.Returns (Winding recording board idle) (withImmediate x) (fun a => Fronted (post a))
      fun _ => True := by
  rintro ⟨shared, front, buffers, slots, blocks⟩ winding
  cases front with
  | sharedOnly | online heap => exact trivial
  | immediate view sampler =>
    let whole (now : Immediate δ) : Session δ :=
      ⟨now.shared, .immediate now.view now.sampler, buffers, slots, blocks⟩
    obtain ⟨soundView, soundSampler⟩ := List.forall_mem_cons.mp winding.heaps
    replace soundSampler := List.forall_mem_singleton.mp soundSampler
    exact (returns ⟨shared, view, sampler⟩ ⟨winding.shared, soundView, soundSampler⟩).image whole
      (fun _ now reached => ⟨now.view, now.sampler, rfl, reached⟩) fun _ _ => trivial

theorem Fronted.winding (fronted : session.Fronted (Immediate.Winding recording board idle)) :
    session.Winding recording board idle := by
  obtain ⟨shared, front, buffers, slots, blocks⟩ := session
  obtain ⟨view, sampler, same, winding⟩ := fronted
  simp only at same
  subst same
  exact ⟨winding.shared,
    List.forall_mem_cons.mpr ⟨winding.heaps.view,
      List.forall_mem_singleton.mpr winding.heaps.sampler⟩⟩

variable [Device δ] {config : Config} {turns : List (Turn δ)}

def Turn.closes (turn : Turn δ) : Prop :=
  ∃ fence, .closed .graphics fence ∈ (turn.step.run turn.before).events

def Rested (turns : List (Turn δ)) : Prop :=
  ∀ earlier turn later, turns = earlier ++ turn :: later → turn.step.reserves = true →
    ∃ next ∈ later, next.closes

-- Waits that came to their end, one after the other, and what the device did by itself meanwhile.
inductive Idled (session : Session δ) : List Queue → Session δ → Prop where
  | nil : Idled session [] session
  | device {queues : List Queue} {after : Session δ} (path : Idled session queues after)
      (change : δ → δ) : Idled session queues ((ContextStep.device change).run after).state
  | wait {queues : List Queue} {after : Session δ} (path : Idled session queues after)
      (queue : Queue)
      (ended : ((ContextStep.waitForIdle queue).run after).result.toBool = true) :
      Idled session (queue :: queues) ((ContextStep.waitForIdle queue).run after).state

theorem rested_of_closes {turn : Turn δ} (other : turn.step.reserves = false)
    (closes : turn.closes) : Rested (turns ++ [turn]) := by
  intro earlier reserving later split reserves
  rcases concat_split split with ⟨-, -, rfl⟩ | ⟨between, rfl, -⟩
  · rw [other] at reserves
    cases reserves
  · exact ⟨turn, List.mem_append_right _ (List.mem_singleton_self _), closes⟩

theorem Rested.before {turn : Turn δ} (rested : Rested (turns ++ [turn]))
    (unclosed : ¬ turn.closes) : Rested turns := by
  intro earlier other later split reserves
  have whole : turns ++ [turn] = earlier ++ other :: (later ++ [turn]) := by
    rw [split, List.append_assoc]
    rfl
  obtain ⟨next, among, closes⟩ := rested earlier other _ whole reserves
  rcases List.mem_append.mp among with before | last
  · exact ⟨next, before, closes⟩
  · obtain rfl := List.mem_singleton.mp last
    exact absurd closes unclosed

theorem Turn.closes.advances {step : ContextStep δ} (closes : Turn.closes ⟨session, step⟩) :
    session.shared.recording.graphics < (step.run session).state.shared.recording.graphics := by
  obtain ⟨fence, among⟩ := closes
  have tells := (step_tells step).run (.none_yet session.shared)
  have later : session.shared.recording.graphics < _ := tells.accepts.closed_lt among
  rw [tells.heard] at later
  exact later

theorem rested_sound (path : Went config turns session) (rested : Rested turns) :
    session.SoundHeaps session.shared.recording.graphics := by
  induction path with
  | opened made => exact fun heap among => (List.not_mem_nil among).elim
  | fronted path bare made ih => exact (openFront_sound _ _ _ _ _ trivial).of_ok made
  | unfronted path refused ih =>
    rename_i before mode _
    intro heap among
    dsimp only
    rw [front_keeps mode before.shared]
    exact ih rested heap among
  | step path step stays returned ih =>
    rename_i before
    have idle : step.reserves = false := by
      refine Bool.eq_false_iff.mpr fun reserves => ?_
      obtain ⟨next, among, -⟩ := rested _ ⟨before, step⟩ [] rfl reserves
      cases among
    have near {limit : Nat} (reserves : step.reserves = true) :
        before.shared.recording.graphics < limit := by
      rw [idle] at reserves
      cases reserves
    by_cases closes : Turn.closes ⟨before, step⟩
    · have sound := (step_sound stays (went_soundHeaps path) near).of_returned returned
      exact fun heap among => (sound heap among).mono closes.advances
    · have sound := (step_sound stays (ih (rested.before closes)) near).of_returned returned
      exact fun heap among => (sound heap among).mono (step_rising step before)

theorem idled_winds (winding : session.Winding recording board [])
    (idled : Idled session queues after) :
    after.Winding recording board queues ∧
      ((∀ queue, queue ∈ queues) → after.Fronted Immediate.Drained) := by
  induction idled with
  | nil => exact ⟨winding, fun all => (List.not_mem_nil (all .graphics)).elim⟩
  | device path change ih =>
    obtain ⟨⟨shared, heaps⟩, drained⟩ := ih
    refine ⟨⟨shared.looks (.of_ledger rfl), heaps⟩, fun all => ?_⟩
    obtain ⟨view, sampler, front, drained⟩ := drained all
    exact ⟨view, sampler, front, drained.pending, drained.view, drained.sampler⟩
  | wait path queue ended ih =>
    rename_i queues before
    have waits : Action.Returns (Winding recording board queues)
        (ContextStep.run (.waitForIdle queue)) (fun _ => Fronted (δ := δ) fun now =>
          now.Winding recording board (queue :: queues) ∧
            ((∀ other, other ∈ queue :: queues) → now.Drained)) fun _ => True :=
      Action.returns_bind (immediate_winds (Immediate.waitForIdle_winds queue)) fun _ =>
        Action.returns_pure fun _ left => left
    have left := waits before ih.1
    match ContextStep.run (.waitForIdle queue) before, left, ended with
    | ⟨.ok _, now, _⟩, ⟨view, sampler, front, winding, drained⟩, _ =>
      exact ⟨Fronted.winding ⟨view, sampler, front, winding⟩,
        fun all => ⟨view, sampler, front, drained all⟩⟩
    | ⟨.error _, _, _⟩, _, ended => cases ended

-- Where all that waits was last used in submitted batches and its conditions are met, the graphics
-- batch has been closed since slots were last reserved, and then each queue was waited for in turn
-- to the end, in whatever order: nothing is left waiting, and neither online heap has a slot in
-- use.
theorem idle_drained (path : Went config turns session) (rested : Rested turns)
    (due : session.shared.retired.Due session.shared.recording session.shared.board)
    (idled : Idled session queues after) (all : ∀ queue, queue ∈ queues) :
    after.shared.pending = 0 ∧ ∃ view sampler, after.front = .immediate view sampler ∧
      ∀ heap ∈ [view, sampler], heap.ring.inFlight = .ok 0 ∧ heap.ring.outstanding = 0 := by
  have begins : session.Winding session.shared.recording session.shared.board [] :=
    ⟨⟨rfl, rfl, due, nofun⟩, rested_sound path rested⟩
  obtain ⟨-, drained⟩ := idled_winds begins idled
  obtain ⟨view, sampler, front, pending, idleView, idleSampler⟩ := drained all
  exact ⟨pending, view, sampler, front,
    List.forall_mem_cons.mpr ⟨idleView, List.forall_mem_singleton.mpr idleSampler⟩⟩

-- Work on two queues and a heap that was outgrown meanwhile; the queues are waited for in an order
-- of the caller's, and the device itself shows nothing of what it has completed.
theorem idle_drained_lagging :
    ∃ (turns : List (Turn Scripted)) (session after : Session Scripted),
      Went { Config.minimal with viewHeap := ⟨2, 4, 1, 2⟩, samplerHeap := .fixed 1 } turns session ∧
        session.shared.pending = 3 ∧ (session.onlineHeaps.map (·.ring.outstanding)) = [1, 0] ∧
        Idled session [.compute, .graphics, .copy] after ∧
        (Device.completed .graphics after.shared.machine.device).1 = 0 ∧
        after.shared.pending = 0 ∧ ∃ view sampler, after.front = .immediate view sampler ∧
          ∀ heap ∈ [view, sampler], heap.ring.inFlight = .ok 0 ∧ heap.ring.outstanding = 0 := by
  have path := opened_went (Option.some_get (by decide +kernel :
    (opened { Scripted.standard with waitAdvances := false } .immediate { Config.minimal with
      viewHeap := ⟨2, 4, 1, 2⟩, samplerHeap := .fixed 1 } ⟨[0]⟩).state.isSome = true)).symm
  replace path := path.step (.reserve (some .view) 2) nofun (by decide +kernel)
  replace path := path.step (.reserve (some .view) 4) nofun (by decide +kernel)
  replace path := path.step (.retireObject 7 ⟨1, 0, 1⟩ true [⟨0, 5⟩]) nofun (by decide +kernel)
  replace path := path.step (.retireObject 8 ⟨0, 0, 1⟩ false []) nofun (by decide +kernel)
  replace path := path.step (.signal 0 5) nofun (by decide +kernel)
  replace path := path.step (.flush .all) nofun (by decide +kernel)
  have begins {session : Session Scripted} {turns : List (Turn Scripted)} {config : Config}
      (_ : Went config turns session) : Idled session [] session := .nil
  have idled := (((begins path).wait .copy (by decide +kernel)).wait .graphics
    (by decide +kernel)).wait .compute (by decide +kernel)
  have drained := idle_drained path (rested_of_closes rfl ⟨1, by decide +kernel⟩)
    (by decide +kernel) idled (by decide)
  exact ⟨_, _, _, path, by decide +kernel, by decide +kernel, idled, by decide +kernel, drained⟩

end Session

end Reclaim
