import Reclaim.Proofs.Returns
import Reclaim.Retirement.Queue

namespace Reclaim

variable {σ α β γ π : Type} {P : (α : Type) → Action σ α → Prop}

namespace Action

-- A property that operations have when those they are built from have it. It can then be carried
-- through an operation without a word about what the property says.
structure Compositional (P : (α : Type) → Action σ α → Prop) : Prop where
  pure : ∀ {α : Type} (a : α), P α (Pure.pure a)
  get : P σ get
  bind : ∀ {α β : Type} {x : Action σ α} {f : α → Action σ β},
    P α x → (∀ a, P β (f a)) → P β (x >>= f)

theorem meets_compositional (holds failed : Claims σ) :
    Compositional fun _ x => Meets holds x (fun _ => holds) failed where
  pure _ := meets_pure fun _ _ held => held
  get := meets_after meets_get fun _ _ _ seen => seen.1
  bind := meets_bind

theorem retains_compositional (holds : Claims σ) : Compositional fun _ x => Retains holds x :=
  meets_compositional holds holds

theorem returns_compositional (holds refused : σ → Prop) :
    Compositional fun _ x => Returns holds x (fun _ => holds) refused where
  pure _ := returns_pure fun _ held => held
  get := returns_after returns_get fun _ _ seen => seen.1
  bind := returns_bind

theorem answers_compositional (holds : σ → Prop) :
    Compositional fun _ x => Answers holds x where
  pure := answers_pure
  get _ held := ⟨rfl, held⟩
  bind := answers_bind

theorem firm_compositional : Compositional fun _ (x : Action σ _) => Firm x where
  pure := firm_pure
  get := firm_get
  bind := firm_bind

theorem keeps_compositional (view : σ → γ) : Compositional fun _ x => Keeps view x where
  pure := keeps_pure
  get _ := rfl
  bind := keeps_bind

namespace Compositional

theorem each (composes : Compositional P) {f : α → Action σ Unit} (one : ∀ a, P Unit (f a))
    (items : List α) : P Unit (Action.each f items) := by
  induction items with
  | nil => exact composes.pure ()
  | cons item rest ih => exact composes.bind (one item) fun _ => ih

theorem drain (composes : Compositional P) {mayGo : α → Action σ Bool}
    {take : α → List α → Action σ Unit} (asks : ∀ item, P Bool (mayGo item))
    (takes : ∀ item rest, P Unit (take item rest)) (items : List α) :
    P Nat (Action.drain mayGo take items) := by
  induction items with
  | nil => exact composes.pure 0
  | cons item rest ih =>
    refine composes.bind (asks item) fun goes => ?_
    cases goes with
    | true =>
      exact composes.bind (takes item rest) fun _ => composes.bind ih fun taken =>
        composes.pure (taken + 1)
    | false => exact composes.pure 0

end Compositional

end Action

section Reading

variable {reading : Reading σ}

theorem Reading.areDone_composes (composes : Action.Compositional P)
    (completed : ∀ queue, P Nat (reading.completed queue))
    (recording : ∀ queue, P Nat (reading.recording queue)) (completion : Bool) (last : Fences)
    (queues : List Queue) : P Bool (reading.areDone completion last queues) := by
  have done (queue : Queue) (fence : Nat) : P Bool (reading.isDone completion queue fence) := by
    unfold isDone
    split
    · exact composes.pure true
    · split
      · exact composes.bind (completed queue) fun _ => composes.pure _
      · exact composes.bind (recording queue) fun _ => composes.pure _
  induction queues with
  | nil => exact composes.pure true
  | cons queue rest ih =>
    refine composes.bind (done queue _) fun answer => ?_
    split
    · exact ih
    · exact composes.pure false

theorem Reading.allows_composes (composes : Action.Compositional P)
    (completed : ∀ queue, P Nat (reading.completed queue))
    (recording : ∀ queue, P Nat (reading.recording queue)) (board : Board) (completion : Bool)
    (last : Fences) (waits : List Wait) : P Bool (reading.allows board completion last waits) := by
  refine composes.bind (areDone_composes composes completed recording completion last _)
    fun answer => ?_
  split
  · exact composes.pure _
  · exact composes.pure false

end Reading

namespace Keeper

variable {keeper : Keeper σ α π} {reading : Reading σ}

structure Handles (P : (α : Type) → Action σ α → Prop) (keeper : Keeper σ α π)
    (reading : Reading σ) : Prop where
  completed : ∀ queue, P Nat (reading.completed queue)
  recording : ∀ queue, P Nat (reading.recording queue)
  change : ∀ f, P Unit (keeper.change f)
  destroy : ∀ object, P Unit (keeper.destroy object)
  giveBack : ∀ parent block, P Unit (keeper.giveBack parent block)
  tell : ∀ objects blocks, P Unit (Action.note (.retirementTrimmed objects blocks))

namespace Handles

variable (handles : Handles P keeper reading) (composes : Action.Compositional P)

include handles composes

theorem objectAsked (board : Board) (retired : Retired α) : P Bool (retired.mayGo reading board) :=
  Reading.allows_composes composes handles.completed handles.recording board _ _ _

theorem blockAsked (retired : RetiredBlock π) : P Bool (retired.mayGo reading) :=
  Reading.allows_composes composes handles.completed handles.recording _ _ _ _

theorem addObject (board : Board) (retired : Retired α) :
    P Unit (keeper.addObject reading board retired) := by
  refine composes.bind (handles.objectAsked composes board retired) fun goes => ?_
  split
  · exact composes.bind (handles.destroy _) fun _ => handles.change _
  · exact handles.change _

theorem addBlock (retired : RetiredBlock π) : P Unit (keeper.addBlock reading retired) := by
  refine composes.bind (handles.blockAsked composes retired) fun goes => ?_
  split
  · exact composes.bind (handles.giveBack _ _) fun _ => handles.change _
  · exact handles.change _

theorem trimObjects (board : Board) (teardown : Bool) :
    P Nat (keeper.trimObjects reading board teardown) := by
  refine composes.bind composes.get fun s => composes.drain (fun retired => ?_)
    (fun retired rest => composes.bind (handles.change _) fun _ => handles.destroy _) _
  split
  · exact composes.pure true
  · exact handles.objectAsked composes board retired

theorem trimBlocks (teardown : Bool) : P Nat (keeper.trimBlocks reading teardown) := by
  refine composes.bind composes.get fun s => composes.drain (fun retired => ?_)
    (fun retired rest => composes.bind (handles.change _) fun _ => handles.giveBack _ _) _
  split
  · exact composes.pure true
  · exact handles.blockAsked composes retired

theorem trim (board : Board) (teardown : Bool) :
    P Bool (keeper.trim reading board teardown) := by
  refine composes.bind (handles.trimObjects composes board teardown) fun objects => ?_
  refine composes.bind (handles.trimBlocks composes teardown) fun blocks => ?_
  have ends := composes.bind (handles.change fun queue =>
    { queue with
      destroyedObjects := queue.destroyedObjects + objects
      destroyedBlocks := queue.destroyedBlocks + blocks }) fun _ =>
    composes.pure (decide (0 < objects + blocks))
  split
  · exact composes.bind (handles.tell objects blocks) fun _ => ends
  · exact ends

theorem close : P Unit keeper.close := by
  refine composes.bind composes.get fun s => composes.bind (handles.change _) fun _ => ?_
  exact composes.bind (composes.each (fun _ => handles.destroy _) _) fun _ =>
    composes.each (fun _ => handles.giveBack _ _) _

end Handles

end Keeper

end Reclaim
