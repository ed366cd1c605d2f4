import Reclaim.Proofs.Execution

namespace Reclaim

variable {σ τ α β : Type}

abbrev Claims (σ : Type) := List Event → σ → Prop

namespace Run

-- A contract speaks of all that has happened until then as well, so that it can say what came
-- before an event.
def Ends (run : Run σ α) (past : List Event) (post : α → Claims σ) (failed : Claims σ) : Prop :=
  match run.result with
  | .ok a => post a (past ++ run.events) run.state
  | .error _ => failed (past ++ run.events) run.state

variable {past : List Event} {post : α → Claims σ} {failed : Claims σ}

theorem Ends.andThen {run : Run σ α} {f : α → Action σ β} {mid : α → Claims σ}
    {post : β → Claims σ} (first : run.Ends past mid failed)
    (next : ∀ a now s, mid a now s → (f a s).Ends now post failed) :
    (run.andThen f).Ends past post failed := by
  match run, first with
  | ⟨.error _, _, _⟩, stopped => exact stopped
  | ⟨.ok a, s, events⟩, reached =>
    have rest := next a _ s reached
    unfold Ends at rest ⊢
    simp only [andThen_ok, ← List.append_assoc]
    exact rest

theorem Ends.caught {run : Run σ α} (first : run.Ends past post failed) :
    run.caught.Ends past
      (fun result => match result with | .ok a => post a | .error _ => failed) failed := by
  match run, first with
  | ⟨.ok _, _, _⟩, reached => exact reached
  | ⟨.error (.error _), _, _⟩, stopped => exact stopped
  | ⟨.error (.fault _), _, _⟩, stopped => exact stopped

theorem Ends.weaken {run : Run σ α} {post' : α → Claims σ} {failed' : Claims σ}
    (ends : run.Ends past post failed) (reached : ∀ a now s, post a now s → post' a now s)
    (stopped : ∀ now s, failed now s → failed' now s) : run.Ends past post' failed' := by
  match run, ends with
  | ⟨.ok a, _, _⟩, holds => exact reached a _ _ holds
  | ⟨.error _, _, _⟩, holds => exact stopped _ _ holds

theorem Ends.surely {run : Run σ α} (ends : run.Ends past post fun _ _ => False) :
    ∃ a s events, run = ⟨.ok a, s, events⟩ ∧ post a (past ++ events) s := by
  match run, ends with
  | ⟨.ok a, s, events⟩, reached => exact ⟨a, s, events, rfl, reached⟩
  | ⟨.error _, _, _⟩, never => exact never.elim

theorem Ends.image {run : Run σ α} {post' : α → Claims τ} {failed' : Claims τ}
    (ends : run.Ends past post failed) (f : σ → τ)
    (reached : ∀ a now s, post a now s → post' a now (f s))
    (stopped : ∀ now s, failed now s → failed' now (f s)) :
    (⟨run.result, f run.state, run.events⟩ : Run τ α).Ends past post' failed' := by
  match run, ends with
  | ⟨.ok a, _, _⟩, holds => exact reached a _ _ holds
  | ⟨.error _, _, _⟩, holds => exact stopped _ _ holds

end Run

namespace Action

def Meets (pre : Claims σ) (x : Action σ α) (post : α → Claims σ) (failed : Claims σ) : Prop :=
  ∀ past s, pre past s → (x s).Ends past post failed

variable {pre failed : Claims σ} {post : α → Claims σ}

theorem meets_bind {x : Action σ α} {f : α → Action σ β} {mid : α → Claims σ}
    {post : β → Claims σ} (first : Meets pre x mid failed)
    (next : ∀ a, Meets (mid a) (f a) post failed) : Meets pre (x >>= f) post failed :=
  fun past s holds => (first past s holds).andThen fun a => next a

theorem meets_via {x : Action σ α} {f : α → Action σ β} {post : β → Claims σ}
    (mid : α → Claims σ) (first : Meets pre x mid failed)
    (next : ∀ a, Meets (mid a) (f a) post failed) : Meets pre (x >>= f) post failed :=
  meets_bind first next

theorem meets_weaken {x : Action σ α} {pre' failed' : Claims σ} {post' : α → Claims σ}
    (meets : Meets pre x post failed) (before : ∀ past s, pre' past s → pre past s)
    (reached : ∀ a past s, post a past s → post' a past s)
    (stopped : ∀ past s, failed past s → failed' past s) : Meets pre' x post' failed' :=
  fun past s holds => (meets past s (before past s holds)).weaken reached stopped

theorem meets_before {x : Action σ α} {pre' : Claims σ} (meets : Meets pre x post failed)
    (before : ∀ past s, pre' past s → pre past s) : Meets pre' x post failed :=
  fun past s holds => meets past s (before past s holds)

theorem meets_after {x : Action σ α} {post' : α → Claims σ} (meets : Meets pre x post failed)
    (reached : ∀ a past s, post a past s → post' a past s) : Meets pre x post' failed :=
  fun past s holds => (meets past s holds).weaken reached fun _ _ stopped => stopped

theorem meets_given {x : Action σ α} {fact : Prop} (given : ∀ past s, pre past s → fact)
    (meets : fact → Meets pre x post failed) : Meets pre x post failed :=
  fun past s holds => meets (given past s holds) past s holds

theorem meets_trivially (x : Action σ α) : Meets pre x (fun _ _ _ => True) fun _ _ => True := by
  intro past s _
  match x s with
  | ⟨.ok _, _, _⟩ | ⟨.error _, _, _⟩ => exact trivial

theorem meets_of_keeps {x : Action σ α} {f : σ → β} (kept : Keeps f x) (holds : β → Prop) :
    Meets (fun _ s => holds (f s)) x (fun _ _ s => holds (f s)) fun _ s => holds (f s) := by
  intro past s before
  have same := kept s
  match x s, same with
  | ⟨.ok _, _, _⟩, same | ⟨.error _, _, _⟩, same =>
    rw [← same] at before
    exact before

theorem meets_beside {x : Action σ α} {f : σ → β} (kept : Keeps f x) (holds : β → Prop)
    (meets : Meets pre x post failed) :
    Meets (fun past s => holds (f s) ∧ pre past s) x
      (fun a past s => holds (f s) ∧ post a past s) failed := by
  rintro past s ⟨before, held⟩
  have same := kept s
  match x s, same, meets past s held with
  | ⟨.ok _, _, _⟩, same, reached => exact ⟨same ▸ before, reached⟩
  | ⟨.error _, _, _⟩, _, stopped => exact stopped

theorem meets_of_runs {x : Action σ α} {after : Claims σ}
    (runs : ∀ past s, pre past s → after (past ++ (x s).events) (x s).state) :
    Meets pre x (fun _ => after) after := by
  intro past s held
  have left := runs past s held
  unfold Run.Ends
  split <;> exact left

theorem meets_exists {x : Action σ α} {pre : β → Claims σ}
    (meets : ∀ b, Meets (pre b) x post failed) :
    Meets (fun past s => ∃ b, pre b past s) x post failed :=
  fun past s ⟨b, holds⟩ => meets b past s holds

theorem meets_pure {a : α} (holds : ∀ past s, pre past s → post a past s) :
    Meets pre (Pure.pure a) post failed := by
  intro past s before
  have after := holds past s before
  rwa [← List.append_nil past] at after

theorem meets_get : Meets pre get (fun seen past s => pre past s ∧ seen = s) failed := by
  intro past s holds
  rw [← List.append_nil past] at holds
  exact ⟨holds, rfl⟩

theorem meets_modify {f : σ → σ} {post : Claims σ} :
    Meets (fun past s => post past (f s)) (modify f) (fun _ => post) failed := by
  intro past s after
  rwa [← List.append_nil past] at after

theorem meets_on_modify {part : Part σ τ} {f : τ → τ} {post : Claims σ} :
    Meets (fun past s => post past (part.put (f (part.get s)) s)) (on part (modify f))
      (fun _ => post) failed := by
  intro past s after
  rwa [← List.append_nil past] at after

theorem meets_refuse {error : Error} (holds : ∀ past s, pre past s → failed past s) :
    Meets pre (refuse error : Action σ α) post failed := by
  intro past s before
  have after := holds past s before
  rwa [← List.append_nil past] at after

theorem meets_checked (x : Except Fault α) :
    Meets failed (liftM x : Action σ α) (fun _ => failed) failed := by
  intro past s holds
  rw [← List.append_nil past] at holds
  cases x with
  | ok _ | error _ => exact holds

theorem meets_settle (x : Except Error α) :
    Meets failed (settle x : Action σ α) (fun _ => failed) failed := by
  cases x with
  | ok a => exact meets_pure fun _ _ holds => holds
  | error error => exact meets_refuse fun _ _ holds => holds

theorem meets_attempt {x : Action σ α} (meets : Meets pre x post failed) :
    Meets pre x.attempt
      (fun result => match result with | .ok a => post a | .error _ => failed) failed :=
  fun past s holds => (meets past s holds).caught

theorem meets_on {part : Part σ τ} {x : Action τ α} (whole : ∀ s, part.put (part.get s) s = s)
    (meets : ∀ s, Meets (fun past t => pre past (part.put t s)) x
      (fun a past t => post a past (part.put t s)) fun past t => failed past (part.put t s)) :
    Meets pre (on part x) post failed := by
  intro past s holds
  rw [← whole s] at holds
  exact meets s past (part.get s) holds

theorem meets_lasting {x : Action σ α} (kept : List Event → Prop)
    (lasts : ∀ past events, kept past → kept (past ++ events)) (meets : Meets pre x post failed) :
    Meets (fun past s => kept past ∧ pre past s) x (fun a past s => kept past ∧ post a past s)
      fun past s => kept past ∧ failed past s := by
  rintro past s ⟨held, holds⟩
  match x s, meets past s holds with
  | ⟨.ok _, _, events⟩, reached => exact ⟨lasts past events held, reached⟩
  | ⟨.error _, _, events⟩, stopped => exact ⟨lasts past events held, stopped⟩

theorem meets_each {f : α → Action σ Unit} {items : List α} (holds : List α → Claims σ)
    (one : ∀ item rest, Meets (holds (item :: rest)) (f item) (fun _ => holds rest) failed) :
    Meets (holds items) (each f items) (fun _ => holds []) failed := by
  induction items with
  | nil => exact meets_pure fun _ _ before => before
  | cons item rest ih => exact meets_bind (one item rest) fun _ => ih

theorem meets_drain {mayGo : α → Action σ Bool} {take : α → List α → Action σ Unit}
    (holds ready : Nat → List α → Claims σ) (halted : Nat → Claims σ)
    (asks : ∀ taken item rest, Meets (holds taken (item :: rest)) (mayGo item)
      (fun goes => if goes then ready taken (item :: rest) else halted taken) failed)
    (takes : ∀ taken item rest, Meets (ready taken (item :: rest)) (take item rest)
      (fun _ => holds (taken + 1) rest) failed)
    (emptied : ∀ taken past s, holds taken [] past s → halted taken past s) (taken : Nat)
    (items : List α) :
    Meets (holds taken items) (drain mayGo take items) (fun more => halted (taken + more))
      failed := by
  induction items generalizing taken with
  | nil => exact meets_pure fun past s held => emptied taken past s held
  | cons item rest ih =>
    refine meets_bind (asks taken item rest) fun goes => ?_
    cases goes with
    | true =>
      refine meets_bind (takes taken item rest) fun _ => meets_bind (ih (taken + 1)) fun more => ?_
      exact meets_pure fun past s reached => by rwa [Nat.add_right_comm] at reached
    | false => exact meets_pure fun past s reached => reached

theorem meets_drain_none {mayGo : α → Action σ Bool} {take : α → List α → Action σ Unit}
    {kept : Claims σ} (items : List α) (empty : items = [] → ∀ past s, pre past s → kept past s)
    (asks : ∀ item ∈ items.head?, Meets pre (mayGo item)
      (fun goes past s => goes = false → kept past s) fun _ _ => True) :
    Meets pre (drain mayGo take items) (fun taken past s => taken = 0 → kept past s)
      fun _ _ => True := by
  cases items with
  | nil => exact meets_pure fun past s held _ => empty rfl past s held
  | cons item rest =>
    refine meets_bind (asks item rfl) fun goes => ?_
    cases goes with
    | true =>
      refine meets_bind (meets_trivially _) fun _ => meets_bind (meets_trivially _) fun taken => ?_
      exact meets_pure fun _ _ _ some_taken => absurd some_taken (Nat.succ_ne_zero taken)
    | false => exact meets_pure fun past s unready _ => unready rfl

section Retention

def Retains (holds : Claims σ) (x : Action σ α) : Prop := Meets holds x (fun _ => holds) holds

variable {holds : Claims σ}

theorem Retains.run {x : Action σ α} {past : List Event} {s : σ} (retains : Retains holds x)
    (held : holds past s) : holds (past ++ (x s).events) (x s).state := by
  have ends := retains past s held
  unfold Run.Ends at ends
  split at ends <;> exact ends

theorem retains_of_runs {x : Action σ α}
    (runs : ∀ past s, holds past s → holds (past ++ (x s).events) (x s).state) :
    Retains holds x :=
  meets_of_runs runs

theorem retains_pure (a : α) : Retains holds (Pure.pure a : Action σ α) :=
  meets_pure fun _ _ held => held

theorem retains_refuse (error : Error) : Retains holds (refuse error : Action σ α) :=
  meets_refuse fun _ _ held => held

theorem retains_bind {x : Action σ α} {f : α → Action σ β} (first : Retains holds x)
    (next : ∀ a, Retains holds (f a)) : Retains holds (x >>= f) :=
  meets_bind first next

theorem retains_look {f : σ → Action σ β} (next : ∀ s, Retains holds (f s)) :
    Retains holds (get >>= f) :=
  meets_bind meets_get fun s => meets_before (next s) fun _ _ seen => seen.1

theorem retains_attempt {x : Action σ α} (retains : Retains holds x) :
    Retains holds x.attempt := by
  apply meets_after (meets_attempt retains)
  intro result past s held
  cases result <;> exact held

theorem retains_each {f : α → Action σ Unit} (retains : ∀ a, Retains holds (f a))
    (items : List α) : Retains holds (each f items) := by
  induction items with
  | nil => exact retains_pure ()
  | cons a rest ih => exact retains_bind (retains a) fun _ => ih

end Retention

section Firmness

-- The operation refuses nothing: it comes to an end of its own or faults.
def Firm (x : Action σ α) : Prop := ∀ s error, (x s).result ≠ .error (.error error)

theorem firm_of_ok {x : Action σ α} (ends : ∀ s, ∃ a, (x s).result = .ok a) : Firm x := by
  intro s error refused
  obtain ⟨a, reached⟩ := ends s
  rw [refused] at reached
  cases reached

theorem firm_pure (a : α) : Firm (Pure.pure a : Action σ α) := firm_of_ok fun _ => ⟨a, rfl⟩

theorem firm_get : Firm (get : Action σ σ) := firm_of_ok fun s => ⟨s, rfl⟩

theorem firm_modify (f : σ → σ) : Firm (modify f) := firm_of_ok fun _ => ⟨(), rfl⟩

theorem firm_emit (event : Event) : Firm (emit event : Action σ Unit) :=
  firm_of_ok fun _ => ⟨(), rfl⟩

theorem firm_note (n : Note) : Firm (note n : Action σ Unit) := firm_emit _

theorem firm_checked (x : Except Fault α) : Firm (liftM x : Action σ α) := by
  cases x with
  | ok a => exact firm_pure a
  | error fault => intro s error refused; cases refused

theorem firm_bind {x : Action σ α} {f : α → Action σ β} (first : Firm x)
    (next : ∀ a, Firm (f a)) : Firm (x >>= f) := by
  intro s error
  rw [run_bind]
  have refused := first s error
  match x s, refused with
  | ⟨.ok a, after, _⟩, _ => exact next a after error
  | ⟨.error reason, _, _⟩, refused => exact fun same => refused (by cases same; rfl)

theorem firm_on {part : Part σ τ} {x : Action τ α} (firm : Firm x) : Firm (on part x) :=
  fun s error => firm (part.get s) error

theorem firm_attempt (x : Action σ α) : Firm x.attempt := by
  intro s error
  rw [run_attempt]
  match x s with
  | ⟨.ok _, _, _⟩ => exact nofun
  | ⟨.error (.error _), _, _⟩ => exact nofun
  | ⟨.error (.fault _), _, _⟩ => exact nofun

end Firmness

end Action

end Reclaim
