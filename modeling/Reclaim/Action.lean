import Reclaim.Event

namespace Reclaim

-- An operation that stops early still leaves a state and its events.
structure Run (σ α : Type) where
  result : Except Stop α
  state : σ
  events : List Event

namespace Run

variable {σ α β : Type}

@[inline] def andThen (run : Run σ α) (f : α → σ → Run σ β) : Run σ β :=
  match run with
  | ⟨.ok a, s, events⟩ =>
    match f a s with
    | ⟨result, after, more⟩ => ⟨result, after, events ++ more⟩
  | ⟨.error stop, s, events⟩ => ⟨.error stop, s, events⟩

-- An error becomes a value; a fault stays one.
def caught (run : Run σ α) : Run σ (Except Error α) :=
  match run with
  | ⟨.ok a, s, events⟩ => ⟨.ok (.ok a), s, events⟩
  | ⟨.error (.error error), s, events⟩ => ⟨.ok (.error error), s, events⟩
  | ⟨.error (.fault fault), s, events⟩ => ⟨.error (.fault fault), s, events⟩

theorem caught_state (run : Run σ α) : run.caught.state = run.state := by
  unfold caught; split <;> rfl

end Run

def Action (σ α : Type) : Type := σ → Run σ α

structure Part (σ τ : Type) where
  get : σ → τ
  put : τ → σ → σ
  get_put : ∀ t s, get (put t s) = t := by intros; rfl

namespace Part

variable {σ τ υ : Type}

def whole : Part σ σ := ⟨id, fun t _ => t, fun _ _ => rfl⟩

def first : Part (σ × τ) σ := ⟨Prod.fst, fun t s => (t, s.2), fun _ _ => rfl⟩

def second : Part (σ × τ) τ := ⟨Prod.snd, fun t s => (s.1, t), fun _ _ => rfl⟩

def andThen (outer : Part σ τ) (inner : Part τ υ) : Part σ υ where
  get s := inner.get (outer.get s)
  put u s := outer.put (inner.put u (outer.get s)) s
  get_put u s := by rw [outer.get_put, inner.get_put]

end Part

namespace Action

variable {σ τ α β γ : Type}

@[inline] def pure (a : α) : Action σ α := fun s => ⟨.ok a, s, []⟩

@[inline] def bind (x : Action σ α) (f : α → Action σ β) : Action σ β := fun s =>
  (x s).andThen f

instance : Monad (Action σ) where
  pure := Action.pure
  bind := Action.bind

@[inline] def get : Action σ σ := fun s => ⟨.ok s, s, []⟩

@[inline] def modify (f : σ → σ) : Action σ Unit := fun s => ⟨.ok (), f s, []⟩

@[inline] def stop (reason : Stop) : Action σ α := fun s => ⟨.error reason, s, []⟩

def refuse (error : Error) : Action σ α := stop (.error error)

@[inline] def emit (event : Event) : Action σ Unit := fun s => ⟨.ok (), s, [event]⟩

def note (note : Note) : Action σ Unit := emit (.noted note)

@[inline] def checked (x : Except Fault α) : Action σ α := fun s =>
  match x with
  | .ok a => ⟨.ok a, s, []⟩
  | .error fault => ⟨.error (.fault fault), s, []⟩

instance : MonadLift (Except Fault) (Action σ) where
  monadLift := checked

def attempt (x : Action σ α) : Action σ (Except Error α) := fun s => (x s).caught

def settle : Except Error α → Action σ α
  | .ok a => pure a
  | .error error => refuse error

def on (part : Part σ τ) (x : Action τ α) : Action σ α := fun s =>
  let run := x (part.get s)
  ⟨run.result, part.put run.state s, run.events⟩

def each (f : α → Action σ Unit) : List α → Action σ Unit
  | [] => pure ()
  | a :: rest => bind (f a) fun _ => each f rest

def drain (mayGo : α → Action σ Bool) (take : α → List α → Action σ Unit) :
    List α → Action σ Nat
  | [] => pure 0
  | item :: rest =>
    bind (mayGo item) fun goes =>
      if goes then bind (take item rest) fun _ => bind (drain mayGo take rest) fun taken =>
        pure (taken + 1)
      else pure 0

theorem pure_bind (a : α) (g : α → Action σ β) : bind (pure a) g = g a := by
  funext s
  simp [bind, pure, Run.andThen]

theorem bind_pure (x : Action σ α) : bind x pure = x := by
  funext s
  unfold bind
  match x s with
  | ⟨.ok a, after, events⟩ => simp [Run.andThen, pure]
  | ⟨.error reason, after, events⟩ => rfl

theorem bind_assoc (x : Action σ α) (g : α → Action σ β) (h : β → Action σ γ) :
    bind (bind x g) h = bind x fun a => bind (g a) h := by
  funext s
  unfold bind
  match x s with
  | ⟨.error reason, after, events⟩ => rfl
  | ⟨.ok a, middle, events⟩ =>
    simp only [Run.andThen]
    match g a middle with
    | ⟨.error reason, after, more⟩ => rfl
    | ⟨.ok b, after, more⟩ => simp [List.append_assoc]

instance : LawfulMonad (Action σ) := LawfulMonad.mk' _ bind_pure pure_bind bind_assoc

theorem bind_of_ok {x : Action σ α} {g : α → Action σ β} {s after : σ} {a : α} {events : List Event}
    (ran : x s = ⟨.ok a, after, events⟩) :
    bind x g s = ⟨(g a after).result, (g a after).state, events ++ (g a after).events⟩ := by
  simp [bind, Run.andThen, ran]

theorem bind_of_error {x : Action σ α} {g : α → Action σ β} {s after : σ} {reason : Stop}
    {events : List Event} (ran : x s = ⟨.error reason, after, events⟩) :
    bind x g s = ⟨.error reason, after, events⟩ := by
  simp [bind, Run.andThen, ran]

theorem ok_of_bind {x : Action σ α} {g : α → Action σ β} {s after : σ} {b : β}
    {events : List Event} (ran : bind x g s = ⟨.ok b, after, events⟩) :
    ∃ a middle earlier later, x s = ⟨.ok a, middle, earlier⟩ ∧
      g a middle = ⟨.ok b, after, later⟩ ∧ events = earlier ++ later := by
  unfold bind at ran
  match first : x s with
  | ⟨.error reason, middle, earlier⟩ =>
    rw [first] at ran
    cases ran
  | ⟨.ok a, middle, earlier⟩ =>
    rw [first] at ran
    simp only [Run.andThen] at ran
    match second : g a middle with
    | ⟨result, state, later⟩ =>
      rw [second] at ran
      cases ran
      exact ⟨a, middle, earlier, later, rfl, second, rfl⟩

def Keeps (f : σ → β) (x : Action σ α) : Prop := ∀ s, f (x s).state = f s

variable {f : σ → γ}

theorem keeps_pure (a : α) : Keeps f (pure a : Action σ α) := fun _ => rfl

theorem keeps_bind {x : Action σ α} {g : α → Action σ β} (left : Keeps f x)
    (right : ∀ a, Keeps f (g a)) : Keeps f (bind x g) := by
  intro s
  have kept := left s
  unfold bind Run.andThen
  split
  · rename_i a after events ran
    rw [ran] at kept
    exact (right a after).trans kept
  · rename_i ran
    rw [ran] at kept
    exact kept

theorem keeps_emit (event : Event) : Keeps f (emit event : Action σ Unit) := fun _ => rfl

theorem keeps_note (n : Note) : Keeps f (note n : Action σ Unit) := keeps_emit _

theorem keeps_attempt {x : Action σ α} (kept : Keeps f x) : Keeps f (attempt x) := by
  intro s
  unfold attempt
  rw [Run.caught_state]
  exact kept s

theorem keeps_on {part : Part σ τ} (frame : ∀ t s, f (part.put t s) = f s) (x : Action τ α) :
    Keeps f (on part x) := fun _ => frame _ _

theorem keeps_each {g : α → Action σ Unit} (kept : ∀ a, Keeps f (g a)) (items : List α) :
    Keeps f (each g items) := by
  induction items with
  | nil => exact keeps_pure ()
  | cons a rest ih => exact keeps_bind (kept a) fun _ => ih

end Action

end Reclaim
