import Reclaim.Proofs.Context.Shedding

namespace Reclaim.Shared

variable {δ α κ : Type} [Device δ] {holds : Claims (Shared δ)} {made : α → Claims (Shared δ)}

theorem tryWithin_meets {attempt : Attempt κ δ α} (reclaims : Action.Retains holds reclaim)
    (notes : Action.Retains holds (Action.note .retrying))
    (once : Action.Meets (fun past s => holds past s.2) attempt.run
      (fun a past s => made a past s.2) fun past s => holds past s.2) (tries : Nat) :
    Action.Meets (fun past s => holds past s.2) (tryWithin attempt tries)
      (fun a past s => made a past s.2) fun past s => holds past s.2 := by
  induction tries with
  | zero => exact Action.meets_refuse fun _ _ held => held
  | succ tries ih =>
    intro past s held
    have tried := once past s held
    change (afterTry (tryWithin attempt tries) (attempt.run s)).Ends past _ _
    match attempt.run s, tried with
    | ⟨.ok _, _, _⟩, reached => exact reached
    | ⟨.error (.fault _), _, _⟩, stopped => exact stopped
    | ⟨.error (.error error), (own, refused), events⟩, stopped =>
      unfold afterTry
      by_cases short : error.isOutOfMemory = true
      · simp only [short, if_true]
        have eased := reclaims (past ++ events) refused stopped
        match reclaim refused, eased with
        | ⟨.ok false, after, more⟩, left | ⟨.error _, after, more⟩, left =>
          change holds (past ++ (events ++ more)) after
          rw [← List.append_assoc]
          exact left
        | ⟨.ok true, eased, more⟩, freed =>
          have noted : holds (past ++ events ++ more ++ [.noted .retrying]) eased :=
            notes _ eased freed
          have again := ih _ (own, eased) noted
          unfold Run.Ends at again ⊢
          simpa [List.append_assoc] using again
      · simp only [short]
        exact stopped

theorem allocateWith_meets {x : Action (Shared δ) α} {kept : Action.Keeps Shared.retired x}
    (reclaims : Action.Retains holds reclaim)
    (notes : Action.Retains holds (Action.note .retrying))
    (once : Action.Meets holds x made holds) :
    Action.Meets holds (allocateWith x kept) made holds := by
  intro past s held
  let attempt : Attempt Unit δ α :=
    ⟨Action.on .second x, fun s => Nat.le_of_eq (congrArg Retirement.pending (kept s.2))⟩
  have tried : Action.Meets (fun past s => holds past s.2) attempt.run
      (fun a past s => made a past s.2) fun past s => holds past s.2 :=
    fun past s held => once past s.2 held
  exact tryWithin_meets reclaims notes tried (s.pending + 1) past ((), s) held

section Returning

variable {held : Shared δ → Prop} {given : α → Shared δ → Prop}

theorem tryWithin_returns {attempt : Attempt κ δ α} (reclaims : Action.Preserves held reclaim)
    (once : Action.Returns (fun s => held s.2) attempt.run (fun a s => given a s.2)
      fun s => held s.2) (tries : Nat) :
    Action.Returns (fun s => held s.2) (tryWithin attempt tries) (fun a s => given a s.2)
      fun s => held s.2 := by
  induction tries with
  | zero => exact Action.returns_refuse fun _ kept => kept
  | succ tries ih =>
    intro s kept
    have tried := once s kept
    change (afterTry (tryWithin attempt tries) (attempt.run s)).Leaves _ _
    match attempt.run s, tried with
    | ⟨.ok _, _, _⟩, reached => exact reached
    | ⟨.error (.fault _), _, _⟩, _ => trivial
    | ⟨.error (.error error), (own, refused), events⟩, stopped =>
      unfold afterTry
      by_cases short : error.isOutOfMemory = true
      · simp only [short, if_true]
        have eased := reclaims refused stopped
        match reclaim refused, eased with
        | ⟨.ok false, after, more⟩, left => exact left
        | ⟨.error (.error _), after, more⟩, left => exact left
        | ⟨.error (.fault _), after, more⟩, _ => trivial
        | ⟨.ok true, eased, more⟩, freed => exact ih (own, eased) freed
      · simp only [short]
        exact stopped

theorem allocateWith_returns {x : Action (Shared δ) α} {kept : Action.Keeps Shared.retired x}
    (reclaims : Action.Preserves held reclaim) (once : Action.Returns held x given held) :
    Action.Returns held (allocateWith x kept) given held := by
  intro shared before
  let attempt : Attempt Unit δ α :=
    ⟨Action.on .second x, fun s => Nat.le_of_eq (congrArg Retirement.pending (kept s.2))⟩
  have tried : Action.Returns (fun s => held s.2) attempt.run (fun a s => given a s.2)
      fun s => held s.2 := fun s before => once s.2 before
  exact (tryWithin_returns reclaims tried (shared.pending + 1) ((), shared) before).image Prod.snd
    (fun _ _ reached => reached) fun _ stopped => stopped

end Returning

end Reclaim.Shared
