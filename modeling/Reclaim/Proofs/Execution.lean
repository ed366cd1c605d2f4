import Reclaim.Action

namespace Reclaim

variable {σ τ α β : Type}

instance decidableEqResult {ε : Type} [DecidableEq ε] [DecidableEq α] : DecidableEq (Except ε α)
  | .ok a, .ok b => decidable_of_iff (a = b) (by simp)
  | .error a, .error b => decidable_of_iff (a = b) (by simp)
  | .ok _, .error _ => isFalse nofun
  | .error _, .ok _ => isFalse nofun

namespace Run

@[simp] theorem andThen_ok (a : α) (s : σ) (events : List Event) (f : α → Action σ β) :
    andThen ⟨.ok a, s, events⟩ f = ⟨(f a s).result, (f a s).state, events ++ (f a s).events⟩ := rfl

@[simp] theorem andThen_error (reason : Stop) (s : σ) (events : List Event)
    (f : α → Action σ β) :
    andThen ⟨.error reason, s, events⟩ f = ⟨.error reason, s, events⟩ := rfl

@[simp] theorem caught_ok (a : α) (s : σ) (events : List Event) :
    caught ⟨.ok a, s, events⟩ = ⟨.ok (.ok a), s, events⟩ := rfl

@[simp] theorem caught_error (error : Error) (s : σ) (events : List Event) :
    caught (⟨.error (.error error), s, events⟩ : Run σ α) = ⟨.ok (.error error), s, events⟩ := rfl

@[simp] theorem caught_fault (fault : Fault) (s : σ) (events : List Event) :
    caught (⟨.error (.fault fault), s, events⟩ : Run σ α) = ⟨.error (.fault fault), s, events⟩ := rfl

end Run

namespace Action

@[simp] theorem run_bind (x : Action σ α) (f : α → Action σ β) (s : σ) :
    (x >>= f) s = (x s).andThen f := rfl

@[simp] theorem run_map (f : α → β) (x : Action σ α) (s : σ) :
    (f <$> x) s = (x s).andThen fun a => (Pure.pure (f a) : Action σ β) := rfl

@[simp] theorem run_pure (a : α) (s : σ) : (Pure.pure a : Action σ α) s = ⟨.ok a, s, []⟩ := rfl

@[simp] theorem run_get (s : σ) : (get : Action σ σ) s = ⟨.ok s, s, []⟩ := rfl

@[simp] theorem run_modify (f : σ → σ) (s : σ) : modify f s = ⟨.ok (), f s, []⟩ := rfl

@[simp] theorem run_refuse (error : Error) (s : σ) :
    (refuse error : Action σ α) s = ⟨.error (.error error), s, []⟩ := rfl

@[simp] theorem run_emit (event : Event) (s : σ) : emit event s = ⟨.ok (), s, [event]⟩ := rfl

@[simp] theorem run_note (n : Note) (s : σ) : note n s = ⟨.ok (), s, [.noted n]⟩ := rfl

@[simp] theorem run_lift_ok (a : α) (s : σ) :
    (liftM (Except.ok a : Except Fault α) : Action σ α) s = ⟨.ok a, s, []⟩ := rfl

@[simp] theorem run_lift_error (fault : Fault) (s : σ) :
    (liftM (Except.error fault : Except Fault α) : Action σ α) s =
      ⟨.error (.fault fault), s, []⟩ := rfl

@[simp] theorem run_settle_ok (a : α) (s : σ) :
    (settle (.ok a) : Action σ α) s = ⟨.ok a, s, []⟩ := rfl

@[simp] theorem run_settle_error (error : Error) (s : σ) :
    (settle (.error error) : Action σ α) s = ⟨.error (.error error), s, []⟩ := rfl

@[simp] theorem run_attempt (x : Action σ α) (s : σ) : attempt x s = (x s).caught := rfl

theorem attempt_map (f : α → β) (x : Action σ α) :
    attempt (f <$> x) = Except.map f <$> attempt x := by
  funext s
  simp only [run_attempt, run_map]
  match x s with
  | ⟨.ok _, _, _⟩ | ⟨.error (.error _), _, _⟩ | ⟨.error (.fault _), _, _⟩ => simp [Except.map]

@[simp] theorem run_on (part : Part σ τ) (x : Action τ α) (s : σ) :
    on part x s = ⟨(x (part.get s)).result, part.put (x (part.get s)).state s,
      (x (part.get s)).events⟩ := rfl

theorem on_of_run (part : Part σ τ) {x : Action τ α} {s : σ} {t : τ} {result : Except Stop α}
    {events : List Event} (ran : x (part.get s) = ⟨result, t, events⟩) :
    on part x s = ⟨result, part.put t s, events⟩ := by
  rw [run_on, ran]

@[simp] theorem run_ite (c : Prop) [Decidable c] (x y : Action σ α) (s : σ) :
    (if c then x else y) s = if c then x s else y s := by
  split <;> rfl

theorem run_each_note (f : α → Note) (items : List α) (s : σ) :
    each (fun a => note (f a)) items s = ⟨.ok (), s, (items.map f).map .noted⟩ := by
  induction items with
  | nil => rfl
  | cons a rest ih =>
    change Action.bind _ _ s = _
    rw [bind_of_ok (run_note (f a) s), ih]
    rfl

end Action

namespace Word

theorem add_overflow {a b : Nat} (far : limit ≤ a + b) : add a b = .error .overflow := by
  simp [add, Nat.not_lt.mpr far]

end Word

end Reclaim
