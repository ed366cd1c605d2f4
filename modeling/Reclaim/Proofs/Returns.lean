import Reclaim.Proofs.Contract

namespace Reclaim

variable {σ τ α β : Type}

-- A fault is no return: nothing is said of the state it leaves.
def Run.Leaves (run : Run σ α) (post : α → σ → Prop) (refused : σ → Prop) : Prop :=
  match run.result with
  | .ok a => post a run.state
  | .error (.error _) => refused run.state
  | .error (.fault _) => True

def Run.returned (run : Run σ α) : Bool :=
  match run.result with
  | .error (.fault _) => false
  | .ok _ | .error (.error _) => true

theorem Run.Leaves.of_ok {run : Run σ α} {post : α → σ → Prop} {refused : σ → Prop} {a : α}
    (left : run.Leaves post refused) (ended : run.result = .ok a) : post a run.state := by
  unfold Leaves at left
  rwa [ended] at left

theorem Run.Leaves.of_error {run : Run σ α} {post : α → σ → Prop} {refused : σ → Prop}
    {error : Error} (left : run.Leaves post refused) (ended : run.result = .error (.error error)) :
    refused run.state := by
  unfold Leaves at left
  rwa [ended] at left

theorem Run.Leaves.of_returned {run : Run σ α} {holds : σ → Prop}
    (left : run.Leaves (fun _ => holds) holds) (returned : run.returned = true) :
    holds run.state := by
  match run, left, returned with
  | ⟨.ok _, _, _⟩, left, _ => exact left
  | ⟨.error (.error _), _, _⟩, left, _ => exact left
  | ⟨.error (.fault _), _, _⟩, _, returned => cases returned

theorem Run.leaves_of_state {run : Run σ α} {holds : σ → Prop} (held : holds run.state) :
    run.Leaves (fun _ => holds) holds := by
  match run, held with
  | ⟨.ok _, _, _⟩, held => exact held
  | ⟨.error (.error _), _, _⟩, held => exact held
  | ⟨.error (.fault _), _, _⟩, _ => trivial

theorem Run.Leaves.image {run : Run σ α} {post : α → σ → Prop} {refused : σ → Prop}
    {post' : α → τ → Prop} {refused' : τ → Prop} (left : run.Leaves post refused) (f : σ → τ)
    (after : ∀ a s, post a s → post' a (f s)) (stopped : ∀ s, refused s → refused' (f s)) :
    (⟨run.result, f run.state, run.events⟩ : Run τ α).Leaves post' refused' := by
  match run, left with
  | ⟨.ok a, s, _⟩, reached => exact after a s reached
  | ⟨.error (.error _), s, _⟩, halted => exact stopped s halted
  | ⟨.error (.fault _), _, _⟩, _ => trivial

namespace Action

def Returns (pre : σ → Prop) (x : Action σ α) (post : α → σ → Prop) (refused : σ → Prop) : Prop :=
  ∀ s, pre s → (x s).Leaves post refused

def Preserves (holds : σ → Prop) (x : Action σ α) : Prop :=
  Returns holds x (fun _ => holds) holds

variable {pre pre' refused refused' holds : σ → Prop} {post post' : α → σ → Prop} {x : Action σ α}

theorem returns_weaken (returns : Returns pre x post refused) (before : ∀ s, pre' s → pre s)
    (after : ∀ a s, post a s → post' a s) (stopped : ∀ s, refused s → refused' s) :
    Returns pre' x post' refused' := by
  exact fun s held => (returns s (before s held)).image id after stopped

theorem returns_before (returns : Returns pre x post refused) (before : ∀ s, pre' s → pre s) :
    Returns pre' x post refused :=
  fun s held => returns s (before s held)

theorem returns_after (returns : Returns pre x post refused)
    (after : ∀ a s, post a s → post' a s) : Returns pre x post' refused :=
  returns_weaken returns (fun _ held => held) after fun _ stopped => stopped

theorem returns_given {fact : Prop} (given : ∀ s, pre s → fact)
    (returns : fact → Returns pre x post refused) : Returns pre x post refused :=
  fun s held => returns (given s held) s held

theorem returns_bind {f : α → Action σ β} {mid : α → σ → Prop} {post : β → σ → Prop}
    (first : Returns pre x mid refused) (next : ∀ a, Returns (mid a) (f a) post refused) :
    Returns pre (x >>= f) post refused := by
  intro s held
  have reached := first s held
  rw [run_bind]
  match x s, reached with
  | ⟨.ok a, middle, _⟩, reached =>
    have rest := next a middle reached
    unfold Run.Leaves at rest ⊢
    exact rest
  | ⟨.error (.error _), _, _⟩, stopped => exact stopped
  | ⟨.error (.fault _), _, _⟩, _ => trivial

theorem returns_via {f : α → Action σ β} {post : β → σ → Prop} (mid : α → σ → Prop)
    (first : Returns pre x mid refused) (next : ∀ a, Returns (mid a) (f a) post refused) :
    Returns pre (x >>= f) post refused :=
  returns_bind first next

theorem returns_map {f : α → β} {post : β → σ → Prop}
    (returns : Returns pre x (fun a => post (f a)) refused) : Returns pre (f <$> x) post refused := by
  intro s held
  have left := returns s held
  rw [run_map]
  match x s, left with
  | ⟨.ok _, _, _⟩, reached => exact reached
  | ⟨.error (.error _), _, _⟩, stopped => exact stopped
  | ⟨.error (.fault _), _, _⟩, _ => trivial

theorem returns_pure {a : α} (after : ∀ s, pre s → post a s) :
    Returns pre (Pure.pure a) post refused := after

theorem returns_get : Returns pre get (fun seen s => pre s ∧ seen = s) refused :=
  fun _ held => ⟨held, rfl⟩

theorem returns_look {f : σ → Action σ β} {post : β → σ → Prop}
    (reads : ∀ seen, Returns pre (f seen) post refused) : Returns pre (get >>= f) post refused :=
  returns_bind returns_get fun seen => returns_before (reads seen) fun _ both => both.1

theorem returns_modify {f : σ → σ} {post : σ → Prop} (after : ∀ s, pre s → post (f s)) :
    Returns pre (modify f) (fun _ => post) refused := after

theorem returns_note (note : Note) : Returns pre (Action.note note) (fun _ => pre) refused :=
  fun _ held => held

theorem returns_refuse {error : Error} (stopped : ∀ s, pre s → refused s) :
    Returns pre (refuse error : Action σ α) post refused := stopped

theorem returns_checked (x : Except Fault α) :
    Returns pre (liftM x : Action σ α) (fun a s => pre s ∧ x = .ok a) refused := by
  intro s held
  cases x with
  | ok a => exact ⟨held, rfl⟩
  | error fault => trivial

theorem returns_settle (x : Except Error α) :
    Returns holds (settle x : Action σ α) (fun a s => holds s ∧ x = .ok a) holds := by
  intro s held
  cases x with
  | ok a => exact ⟨held, rfl⟩
  | error error => exact held

theorem returns_attempt (returns : Returns pre x post refused) :
    Returns pre x.attempt
      (fun result => match result with | .ok a => post a | .error _ => refused) refused' := by
  intro s held
  have left := returns s held
  rw [run_attempt]
  match x s, left with
  | ⟨.ok _, _, _⟩, reached => exact reached
  | ⟨.error (.error _), _, _⟩, stopped => exact stopped
  | ⟨.error (.fault _), _, _⟩, _ => trivial

theorem returns_on {part : Part σ τ} {x : Action τ α} {inner : σ → τ → Prop}
    {after : σ → α → τ → Prop} {stopped : σ → τ → Prop}
    (returns : ∀ s, pre s → Returns (inner s) x (after s) (stopped s))
    (inside : ∀ s, pre s → inner s (part.get s))
    (back : ∀ s a t, pre s → after s a t → post a (part.put t s))
    (left : ∀ s t, pre s → stopped s t → refused (part.put t s)) :
    Returns pre (on part x) post refused := by
  intro s held
  exact (returns s held _ (inside s held)).image (fun t => part.put t s)
    (fun a t reached => back s a t held reached) fun t halted => left s t held halted

theorem preserves_of_runs (runs : ∀ s, holds s → holds (x s).state) : Preserves holds x :=
  fun s held => Run.leaves_of_state (runs s held)

theorem preserves_of_keeps {view : σ → τ} {p : τ → Prop} (keeps : Keeps view x) :
    Preserves (fun s => p (view s)) x :=
  preserves_of_runs fun s held => keeps s ▸ held

theorem returns_beside {view : σ → τ} {p : τ → Prop} (returns : Returns pre x post refused)
    (keeps : ∀ s, pre s → view (x s).state = view s) :
    Returns (fun s => pre s ∧ p (view s)) x (fun a s => post a s ∧ p (view s))
      fun s => refused s ∧ p (view s) := by
  rintro s ⟨held, seen⟩
  have left := returns s held
  have same := keeps s held
  match x s, left, same with
  | ⟨.ok _, _, _⟩, left, same | ⟨.error (.error _), _, _⟩, left, same => exact ⟨left, same ▸ seen⟩
  | ⟨.error (.fault _), _, _⟩, _, _ => trivial

theorem preserves_beside {view : σ → τ} {p : τ → Prop} (preserves : Preserves holds x)
    (keeps : ∀ s, holds s → view (x s).state = view s) :
    Preserves (fun s => holds s ∧ p (view s)) x :=
  returns_beside preserves keeps

theorem preserves_fact (fact : Prop) (x : Action σ α) : Preserves (fun _ => fact) x := by
  have keeps : Keeps (fun _ => ()) x := fun _ => rfl
  exact preserves_of_keeps (p := fun _ => fact) keeps

theorem returns_surely (firm : Firm x) (returns : Returns pre x post refused) :
    Returns pre x post refused' := by
  intro s held
  have left := returns s held
  have never := firm s
  match x s, left, never with
  | ⟨.ok _, _, _⟩, reached, _ => exact reached
  | ⟨.error (.error error), _, _⟩, _, never => exact (never error rfl).elim
  | ⟨.error (.fault _), _, _⟩, _, _ => trivial

theorem returns_firm (firm : Firm x) : Returns pre x (fun _ _ => True) refused' :=
  returns_surely firm (returns_before (preserves_fact True x) fun _ _ => trivial)

theorem returns_each {f : α → Action σ Unit} {items : List α} (holds : List α → σ → Prop)
    (one : ∀ item rest, Returns (holds (item :: rest)) (f item) (fun _ => holds rest) refused) :
    Returns (holds items) (each f items) (fun _ => holds []) refused := by
  induction items with
  | nil => exact returns_pure fun _ held => held
  | cons item rest ih => exact returns_bind (one item rest) fun _ => ih

theorem returns_drain {mayGo : α → Action σ Bool} {take : α → List α → Action σ Unit}
    (holds ready : List α → σ → Prop) (halted : σ → Prop)
    (asks : ∀ item rest, Returns (holds (item :: rest)) (mayGo item)
      (fun goes => if goes then ready (item :: rest) else halted) refused)
    (takes : ∀ item rest, Returns (ready (item :: rest)) (take item rest) (fun _ => holds rest)
      refused)
    (emptied : ∀ s, holds [] s → halted s) (items : List α) :
    Returns (holds items) (drain mayGo take items) (fun _ => halted) refused := by
  induction items with
  | nil => exact returns_pure emptied
  | cons item rest ih =>
    refine returns_bind (asks item rest) fun goes => ?_
    cases goes with
    | true =>
      exact returns_bind (takes item rest) fun _ => returns_bind ih fun _ =>
        returns_pure fun _ left => left
    | false => exact returns_pure fun _ left => left

theorem preserves_on (part : Part σ τ) {inner : τ → Prop} {x : Action τ α}
    (preserves : Preserves inner x) : Preserves (fun s => inner (part.get s)) (on part x) :=
  returns_on (fun _ _ => preserves) (fun _ held => held)
    (fun _ _ _ _ reached => (part.get_put ..).symm ▸ reached)
    fun _ _ _ stopped => (part.get_put ..).symm ▸ stopped

section Answering

-- The operation never faults, and what held still holds, however it returns.
def Answers (holds : σ → Prop) (x : Action σ α) : Prop :=
  ∀ s, holds s → (x s).returned = true ∧ holds (x s).state

theorem Answers.preserves (answers : Answers holds x) : Preserves holds x :=
  preserves_of_runs fun s held => (answers s held).2

theorem Answers.ends (answers : Answers holds x) (firm : Firm x) {s : σ} (held : holds s) :
    ∃ a after events, x s = ⟨.ok a, after, events⟩ ∧ holds after := by
  have ⟨returned, kept⟩ := answers s held
  have refuses := firm s
  match x s, returned, kept, refuses with
  | ⟨.ok a, after, events⟩, _, kept, _ => exact ⟨a, after, events, rfl, kept⟩
  | ⟨.error (.error error), _, _⟩, _, _, refuses => exact (refuses error rfl).elim
  | ⟨.error (.fault _), _, _⟩, returned, _, _ => cases returned

theorem answers_beside {view : σ → τ} {p : τ → Prop} (answers : Answers holds x)
    (keeps : Keeps view x) : Answers (fun s => holds s ∧ p (view s)) x := by
  rintro s ⟨held, seen⟩
  obtain ⟨returned, kept⟩ := answers s held
  exact ⟨returned, kept, keeps s ▸ seen⟩

theorem answers_pure (a : α) : Answers holds (Pure.pure a : Action σ α) :=
  fun _ held => ⟨rfl, held⟩

theorem answers_note (note : Note) : Answers holds (Action.note note) := fun _ held => ⟨rfl, held⟩

theorem answers_on {part : Part σ τ} {x : Action τ α} {inner : σ → τ → Prop}
    (answers : ∀ s, holds s → Answers (inner s) x) (inside : ∀ s, holds s → inner s (part.get s))
    (back : ∀ s t, holds s → inner s t → holds (part.put t s)) : Answers holds (on part x) := by
  intro s held
  have ⟨returned, kept⟩ := answers s held _ (inside s held)
  exact ⟨returned, back s _ held kept⟩

theorem answers_bind {f : α → Action σ β} (first : Answers holds x)
    (next : ∀ a, Answers holds (f a)) : Answers holds (x >>= f) := by
  intro s held
  have ⟨returned, kept⟩ := first s held
  rw [run_bind]
  match x s, returned, kept with
  | ⟨.ok a, after, _⟩, _, kept => exact next a after kept
  | ⟨.error (.error _), _, _⟩, _, kept => exact ⟨rfl, kept⟩
  | ⟨.error (.fault _), _, _⟩, returned, _ => cases returned

theorem answers_look {f : σ → Action σ β} (reads : ∀ seen, Answers holds (f seen)) :
    Answers holds (get >>= f) :=
  answers_bind (fun _ held => ⟨rfl, held⟩) reads

theorem answers_attempt (answers : Answers holds x) : Answers holds x.attempt := by
  intro s held
  have ⟨returned, kept⟩ := answers s held
  rw [run_attempt]
  match x s, returned, kept with
  | ⟨.ok _, _, _⟩, _, kept | ⟨.error (.error _), _, _⟩, _, kept => exact ⟨rfl, kept⟩
  | ⟨.error (.fault _), _, _⟩, returned, _ => cases returned

theorem answers_each {f : α → Action σ Unit} (answers : ∀ a, Answers holds (f a))
    (items : List α) : Answers holds (each f items) := by
  induction items with
  | nil => exact answers_pure ()
  | cons a rest ih => exact answers_bind (answers a) fun _ => ih

end Answering

end Action

end Reclaim
