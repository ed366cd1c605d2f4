import Reclaim.Context.Reclaiming
import Reclaim.Proofs.Compositional

namespace Reclaim

section Trimming

variable {σ α π ι : Type} {keeper : Keeper σ α π} {reading : Reading σ}

structure Keeper.Spares (keeper : Keeper σ α π) (reading : Reading σ) : Prop where
  completed : ∀ queue, Action.Keeps keeper.part.get (reading.completed queue)
  recording : ∀ queue, Action.Keeps keeper.part.get (reading.recording queue)
  destroy : ∀ object, Action.Keeps keeper.part.get (keeper.destroy object)
  giveBack : ∀ parent block, Action.Keeps keeper.part.get (keeper.giveBack parent block)

def Keeper.Gone (keeper : Keeper σ α π) (total taken : Nat) : Claims σ := fun _ s =>
  (keeper.part.get s).pending + taken = total

def Keeper.NoMore (keeper : Keeper σ α π) (total : Nat) : Claims σ := fun _ s =>
  (keeper.part.get s).pending ≤ total

namespace Keeper.Spares

variable {total taken : Nat}

theorem drain_counts (line : Retirement α π → List ι) {mayGo : ι → Action σ Bool}
    {take : ι → List ι → Action σ Unit}
    (asks : ∀ item, Action.Keeps keeper.part.get (mayGo item))
    (takes : ∀ item rest s, line (keeper.part.get s) = item :: rest →
      let left := keeper.part.get (take item rest s).state
      line left = rest ∧ left.pending + 1 = (keeper.part.get s).pending)
    (taken : Nat) (items : List ι) :
    Action.Meets (fun past s => line (keeper.part.get s) = items ∧ keeper.Gone total taken past s)
      (Action.drain mayGo take items) (fun more => keeper.Gone total (taken + more))
      (keeper.NoMore total) := by
  let holds (taken : Nat) (items : List ι) : Claims σ := fun past s =>
    line (keeper.part.get s) = items ∧ keeper.Gone total taken past s
  refine Action.meets_drain holds holds (keeper.Gone total) (fun taken item rest => ?_)
    (fun taken item rest => ?_) (fun _ _ _ held => held.2) taken items
  · refine Action.meets_weaken (Action.meets_of_keeps (asks item) fun queue =>
      line queue = item :: rest ∧ queue.pending + taken = total) (fun _ _ held => held)
      (fun goes _ _ held => ?_) fun _ _ held => Nat.le.intro held.2
    cases goes with
    | true => exact held
    | false => exact held.2
  · refine Action.meets_weaken (Action.meets_of_runs fun past s held => ?_)
      (fun _ _ held => held) (fun _ _ _ held => held) fun _ _ held => Nat.le.intro held.2
    obtain ⟨left, fewer⟩ := takes item rest s held.1
    refine ⟨left, ?_⟩
    have counted := held.2
    unfold Gone at *
    omega

variable (spares : keeper.Spares reading) (board : Board) (teardown : Bool)

include spares

theorem asks (completion : Bool) (last : Fences) (waits : List Wait) :
    Action.Keeps keeper.part.get
      (if teardown then return true else reading.allows board completion last waits) := by
  split
  · exact Action.keeps_pure true
  · exact Reading.allows_composes (Action.keeps_compositional _) spares.completed spares.recording
      board completion last waits

theorem trimObjects_counts :
    Action.Meets (keeper.Gone total taken) (keeper.trimObjects reading board teardown)
      (fun more => keeper.Gone total (taken + more)) (keeper.NoMore total) := by
  refine Action.meets_bind Action.meets_get fun seen => Action.meets_before
    (drain_counts Retirement.objects (fun _ => spares.asks board teardown _ _ _)
      (fun item rest s line => ?_) taken _) fun past s both => ⟨both.2 ▸ rfl, both.1⟩
  have left : keeper.part.get (keeper.takeObject item rest s).state =
      { keeper.part.get s with objects := rest } :=
    (spares.destroy item.object _).trans (keeper.part.get_put _ _)
  simp only [left, Retirement.pending, line, List.length_cons]
  exact ⟨trivial, Nat.add_right_comm ..⟩

theorem trimBlocks_counts :
    Action.Meets (keeper.Gone total taken) (keeper.trimBlocks reading teardown)
      (fun more => keeper.Gone total (taken + more)) (keeper.NoMore total) := by
  refine Action.meets_bind Action.meets_get fun seen => Action.meets_before
    (drain_counts Retirement.blocks (fun _ => spares.asks ⟨[]⟩ teardown _ _ _)
      (fun item rest s line => ?_) taken _) fun past s both => ⟨both.2 ▸ rfl, both.1⟩
  have left : keeper.part.get (keeper.takeBlock item rest s).state =
      { keeper.part.get s with blocks := rest } :=
    (spares.giveBack item.parent item.block _).trans (keeper.part.get_put _ _)
  simp only [left, Retirement.pending, line, List.length_cons]
  exact ⟨trivial, rfl⟩

theorem trim_counts :
    Action.Meets (keeper.Gone total 0) (keeper.trim reading board teardown)
      (fun any past s => keeper.NoMore total past s ∧
        (any = true → (keeper.part.get s).pending < total)) (keeper.NoMore total) := by
  refine Action.meets_bind (spares.trimObjects_counts board teardown) fun objects => ?_
  refine Action.meets_bind (spares.trimBlocks_counts teardown) fun blocks => ?_
  have ends : Action.Meets (keeper.Gone total (0 + objects + blocks))
      (do
        keeper.change fun queue =>
          { queue with
            destroyedObjects := queue.destroyedObjects + objects
            destroyedBlocks := queue.destroyedBlocks + blocks }
        return decide (0 < objects + blocks))
      (fun any past s => keeper.NoMore total past s ∧
        (any = true → (keeper.part.get s).pending < total)) (keeper.NoMore total) := by
    refine Action.meets_via (fun _ => keeper.Gone total (0 + objects + blocks))
      (Action.meets_before Action.meets_on_modify fun past s gone => ?_) fun _ =>
      Action.meets_pure fun past s gone => ?_
    · unfold Gone
      rw [keeper.part.get_put]
      exact gone
    · unfold Gone at gone
      refine ⟨Nat.le.intro gone, fun any => ?_⟩
      have some_taken := of_decide_eq_true any
      omega
  split
  · exact Action.meets_via (fun _ => keeper.Gone total (0 + objects + blocks))
      (fun _ _ gone => gone) fun _ => ends
  · exact ends

end Keeper.Spares

end Trimming

namespace Shared

variable {δ α κ : Type} [Device δ]

section Fallback

variable {P : (α : Type) → Action (Shared δ) α → Prop}

theorem waitEach_composes (composes : Action.Compositional P)
    (recording : ∀ queue, P Nat (recordingFence queue))
    (completed : ∀ queue, P Nat (completedFence queue))
    (waits : ∀ queue fence, P _ (waitFor queue fence).attempt)
    (tells : ∀ error, P Unit (Action.note (.reclaimWaitFailed error))) (fences : Fences)
    (queues : List Queue) (waited : Bool) : P Bool (waitEach fences queues waited) := by
  induction queues generalizing waited with
  | nil => exact composes.pure waited
  | cons queue rest ih =>
    unfold waitEach
    dsimp only
    split
    · exact ih waited
    refine composes.bind (recording queue) fun submitted => ?_
    split
    · exact ih waited
    refine composes.bind (completed queue) fun known => ?_
    split
    · exact ih waited
    refine composes.bind (waits queue _) fun result => ?_
    cases result with
    | ok _ => exact ih true
    | error error => exact composes.bind (tells error) fun _ => composes.pure false

theorem reclaim_composes (composes : Action.Compositional P)
    (trims : P Bool (trimRetired false))
    (waits : ∀ fences, P Bool (waitEach fences Queue.all false)) : P Bool reclaim := by
  refine composes.bind trims fun freed => ?_
  split
  · exact composes.pure true
  refine composes.bind composes.get fun shared => ?_
  split
  · exact composes.pure false
  refine composes.bind (waits _) fun waited => ?_
  split
  · exact trims
  · exact composes.pure false

end Fallback

section Keeping

-- A view of the context that neither the machine nor what is known of the queues has a part in.
def IsAside (view : Shared δ → α) : Prop :=
  ∀ shared machine known, view { shared with machine, known } = view shared

theorem keeps_completedFence {view : Shared δ → α} (aside : IsAside view) (queue : Queue) :
    Action.Keeps view (completedFence queue) :=
  Action.keeps_bind (Action.keeps_on (fun _ _ => aside ..) _) fun _ _ => aside ..

theorem keeps_waitFor {view : Shared δ → α} (aside : IsAside view) (queue : Queue) (fence : Nat) :
    Action.Keeps view (waitFor queue fence) := by
  have observes : Action.Keeps view (observe queue fence) := fun _ => aside ..
  unfold waitFor
  refine Action.keeps_bind (keeps_completedFence aside queue) fun reached => ?_
  split
  · exact Action.keeps_pure _
  · refine Action.keeps_bind (fun _ => rfl) fun recording => ?_
    split
    · exact Action.keeps_bind (Action.keeps_note _) fun _ _ => rfl
    · refine Action.keeps_bind (Action.keeps_on (fun _ _ => aside ..) _) fun _ => ?_
      exact Action.keeps_bind observes fun _ => Action.keeps_pure _

theorem keeps_waitEach {view : Shared δ → α} (aside : IsAside view) (fences : Fences)
    (queues : List Queue) (waited : Bool) : Action.Keeps view (waitEach fences queues waited) :=
  waitEach_composes (Action.keeps_compositional view) (fun _ _ => rfl)
    (keeps_completedFence aside) (fun _ _ => Action.keeps_attempt (keeps_waitFor aside _ _))
    (fun _ => Action.keeps_note _) fences queues waited

omit [Device δ] in
theorem keeps_drop (resource : Resource) : Action.Keeps Shared.retired (drop (δ := δ) resource) :=
  Action.keeps_on (fun _ _ => rfl) _

omit [Device δ] in
theorem keeps_giveBack (owner : Owner) (block : Block) :
    Action.Keeps Shared.retired (giveBack (δ := δ) owner block) := by
  unfold giveBack
  split <;> exact Action.keeps_on (fun _ _ => rfl) _

theorem keeper_spares : keeper.Spares (reading (δ := δ)) where
  completed := keeps_completedFence fun _ _ _ => rfl
  recording _ _ := rfl
  destroy retiree := keeps_drop retiree.resource
  giveBack := keeps_giveBack

end Keeping

def Sheds (x : Action (Shared δ) Bool) : Prop :=
  ∀ shared, (x shared).state.pending ≤ shared.pending ∧
    ((x shared).result = .ok true → (x shared).state.pending < shared.pending)

omit [Device δ] in
theorem sheds_false : Sheds (Action.pure false : Action (Shared δ) Bool) :=
  fun _ => ⟨Nat.le_refl _, fun gone => by cases gone⟩

omit [Device δ] in
theorem sheds_bind {x : Action (Shared δ) α} {g : α → Action (Shared δ) Bool}
    (kept : Action.Keeps Shared.retired x) (sheds : ∀ a, Sheds (g a)) :
    Sheds (Action.bind x g) := by
  intro shared
  have same := congrArg Retirement.pending (kept shared)
  match ran : x shared with
  | ⟨.error _, after, _⟩ =>
    rw [ran] at same
    rw [Action.bind_of_error ran]
    exact ⟨Nat.le_of_eq same, fun gone => by cases gone⟩
  | ⟨.ok a, after, _⟩ =>
    rw [ran] at same
    rw [Action.bind_of_ok ran]
    unfold pending at *
    rw [← same]
    exact sheds a after

omit [Device δ] in
theorem sheds_orElse {x y : Action (Shared δ) Bool} (left : Sheds x) (right : Sheds y) :
    Sheds (Action.bind x fun gone => if gone then Action.pure true else y) := by
  intro shared
  have first := left shared
  match ran : x shared with
  | ⟨.error _, after, _⟩ =>
    rw [ran] at first
    rw [Action.bind_of_error ran]
    exact ⟨first.1, fun gone => by cases gone⟩
  | ⟨.ok true, after, _⟩ =>
    rw [ran] at first
    rw [Action.bind_of_ok ran]
    exact ⟨first.1, fun _ => first.2 rfl⟩
  | ⟨.ok false, after, _⟩ =>
    rw [ran] at first
    rw [Action.bind_of_ok ran]
    have second := right after
    exact ⟨Nat.le_trans second.1 first.1, fun gone => Nat.lt_of_lt_of_le (second.2 gone) first.1⟩

theorem sheds_trimRetired (teardown : Bool) : Sheds (trimRetired (δ := δ) teardown) := by
  intro shared
  have counts := keeper_spares.trim_counts shared.board teardown [] shared rfl
  unfold trimRetired
  rw [Action.run_bind, Action.run_get, Run.andThen_ok]
  match keeper.trim reading shared.board teardown shared, counts with
  | ⟨.ok any, _, _⟩, ⟨noMore, fewer⟩ =>
    exact ⟨noMore, fun gone => fewer (Except.ok.inj gone)⟩
  | ⟨.error _, _, _⟩, noMore => exact ⟨noMore, fun gone => by cases gone⟩

theorem sheds_reclaim : Sheds (reclaim (δ := δ)) := by
  unfold reclaim
  refine sheds_orElse (sheds_trimRetired false) (sheds_bind (fun _ => rfl) fun shared => ?_)
  split
  · exact sheds_false
  · refine sheds_bind (keeps_waitEach (fun _ _ _ => rfl) _ _ _) fun waited => ?_
    split
    · exact sheds_trimRetired false
    · exact sheds_false

theorem afterTry_congr {attempt : Attempt κ δ α} {left right : Action (κ × Shared δ) α}
    {s : κ × Shared δ} (same : ∀ t, t.2.pending < s.2.pending → left t = right t) :
    afterTry left (attempt.run s) = afterTry right (attempt.run s) := by
  have settled := attempt.settles s
  generalize attempt.run s = tried at settled
  unfold afterTry
  split
  · rename_i error own refused events
    split
    · have sheds := sheds_reclaim refused
      split
      · rename_i eased more freed
        rw [freed] at sheds
        rw [same (own, eased) (Nat.lt_of_lt_of_le (sheds.2 rfl) settled)]
      · rfl
      · rfl
    · rfl
  · rfl

theorem tryWithin_enough (attempt : Attempt κ δ α) {few many : Nat} (s : κ × Shared δ)
    (enough : s.2.pending < few) (more : s.2.pending < many) :
    tryWithin attempt few s = tryWithin attempt many s := by
  induction few generalizing many s with
  | zero => exact absurd enough (Nat.not_lt_zero _)
  | succ few ih =>
    cases many with
    | zero => exact absurd more (Nat.not_lt_zero _)
    | succ many =>
      exact afterTry_congr fun t fewer => ih t (by omega) (by omega)

-- The tries never run out: a try that asks for another gets one.
theorem tryAllocate_eq (attempt : Attempt κ δ α) (s : κ × Shared δ) :
    tryAllocate attempt s = afterTry (tryAllocate attempt) (attempt.run s) :=
  afterTry_congr fun t fewer => tryWithin_enough attempt t fewer (Nat.lt_succ_self _)

end Shared

end Reclaim
