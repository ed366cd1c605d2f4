import Reclaim.Proofs.Context.Fallback
import Reclaim.Proofs.Context.SessionStock

namespace Reclaim

namespace Run

variable {σ α : Type}

def isShort (run : Run σ α) : Bool :=
  match run.result with
  | .error (.error error) => error.isOutOfMemory
  | .ok _ | .error (.fault _) => false

end Run

namespace Shared

variable {κ δ α : Type} [Device δ] {attempt : Attempt κ δ α} {s : κ × Shared δ}
  {tries others : List (Run (κ × Shared δ) α)} {whole other : Run (κ × Shared δ) α}

-- The runs of the attempt, first to last, and what came of the whole. A try that is not short of
-- memory is the last one, and nothing follows it.
inductive Tries (attempt : Attempt κ δ α) :
    κ × Shared δ → List (Run (κ × Shared δ) α) → Run (κ × Shared δ) α → Prop where
  | last {s : κ × Shared δ} (enough : (attempt.run s).isShort = false) :
      Tries attempt s [attempt.run s] (attempt.run s)
  | givenUp {s : κ × Shared δ} {error : Error} {own : κ} {refused after : Shared δ}
      {events more : List Event}
      (tried : attempt.run s = ⟨.error (.error error), (own, refused), events⟩)
      (short : error.isOutOfMemory = true) (kept : reclaim refused = ⟨.ok false, after, more⟩) :
      Tries attempt s [attempt.run s] ⟨.error (.error error), (own, after), events ++ more⟩
  | again {s : κ × Shared δ} {error : Error} {own : κ} {refused eased : Shared δ}
      {events more : List Event} {tries : List (Run (κ × Shared δ) α)}
      {whole : Run (κ × Shared δ) α}
      (tried : attempt.run s = ⟨.error (.error error), (own, refused), events⟩)
      (short : error.isOutOfMemory = true) (freed : reclaim refused = ⟨.ok true, eased, more⟩)
      (rest : Tries attempt (own, eased) tries whole) :
      Tries attempt s (attempt.run s :: tries)
        ⟨whole.result, whole.state, events ++ more ++ .noted .retrying :: whole.events⟩

theorem afterTry_enough {again : Action (κ × Shared δ) α} {tried : Run (κ × Shared δ) α}
    (enough : tried.isShort = false) : afterTry again tried = tried := by
  match tried, enough with
  | ⟨.ok _, _, _⟩, _ | ⟨.error (.fault _), _, _⟩, _ => rfl
  | ⟨.error (.error error), (own, refused), events⟩, enough =>
    have other : error.isOutOfMemory = false := enough
    simp [afterTry, other]

omit [Device δ] in
theorem isShort_of {error : Error} {t : κ × Shared δ} {events : List Event}
    (tried : attempt.run s = ⟨.error (.error error), t, events⟩)
    (short : error.isOutOfMemory = true) : (attempt.run s).isShort = true := by
  rw [tried]
  exact short

theorem eased_pending {error : Error} {own : κ} {refused eased : Shared δ}
    {events more : List Event}
    (tried : attempt.run s = ⟨.error (.error error), (own, refused), events⟩)
    (freed : reclaim refused = ⟨.ok true, eased, more⟩) : eased.pending < s.2.pending := by
  have settled := attempt.settles s
  have sheds := (sheds_reclaim refused).2
  rw [tried] at settled
  rw [freed] at sheds
  exact Nat.lt_of_lt_of_le (sheds rfl) settled

namespace Tries

-- The bound that `tryAllocate` sets itself is not felt: it does what the tries come to.
theorem whole_eq (path : Tries attempt s tries whole) : tryAllocate attempt s = whole := by
  induction path with
  | last enough =>
    rw [tryAllocate_eq]
    exact afterTry_enough enough
  | givenUp tried short kept =>
    rw [tryAllocate_eq, tried]
    simp [afterTry, short, kept]
  | again tried short freed rest ih =>
    rw [tryAllocate_eq, tried]
    simp [afterTry, short, freed, ih]

theorem unique (path : Tries attempt s tries whole) (also : Tries attempt s others other) :
    others = tries := by
  induction path generalizing others other with
  | last enough =>
    cases also with
    | last => rfl
    | givenUp tried short kept => cases enough.symm.trans (isShort_of tried short)
    | again tried short freed rest => cases enough.symm.trans (isShort_of tried short)
  | givenUp tried short kept =>
    cases also with
    | last => rfl
    | givenUp => rfl
    | again tried' short' freed rest =>
      cases tried.symm.trans tried'
      cases kept.symm.trans freed
  | again tried short freed rest ih =>
    cases also with
    | last enough => cases enough.symm.trans (isShort_of tried short)
    | givenUp tried' short' kept =>
      cases tried.symm.trans tried'
      cases freed.symm.trans kept
    | again tried' short' freed' rest' =>
      cases tried.symm.trans tried'
      cases freed.symm.trans freed'
      rw [ih rest']

theorem length_le (path : Tries attempt s tries whole) : tries.length ≤ 1 + s.2.pending := by
  induction path with
  | last | givenUp => exact Nat.le_add_right 1 _
  | again tried short freed rest ih =>
    have fewer := eased_pending tried freed
    rw [List.length_cons]
    dsimp only at ih
    omega

theorem last_try (path : Tries attempt s tries whole) :
    ∃ last, tries.getLast? = some last ∧ whole.result = last.result ∧
      (last.isShort = false →
        whole.state = last.state ∧ ∃ earlier, whole.events = earlier ++ last.events) := by
  induction path with
  | last enough => exact ⟨_, rfl, rfl, fun _ => ⟨rfl, [], rfl⟩⟩
  | givenUp tried short kept =>
    refine ⟨_, rfl, (congrArg Run.result tried).symm, fun enough => ?_⟩
    cases enough.symm.trans (isShort_of tried short)
  | @again s _ _ _ _ events more tries _ tried short freed rest ih =>
    obtain ⟨last, ends, same, unmoved⟩ := ih
    refine ⟨last, ?_, same, fun enough => ?_⟩
    · rw [List.getLast?_cons, ends]
      rfl
    · obtain ⟨state, earlier, told⟩ := unmoved enough
      refine ⟨state, events ++ more ++ .noted .retrying :: earlier, ?_⟩
      dsimp only
      rw [told]
      simp

end Tries

-- A try leaves the supplies of the context in order, as all does that callers can do to a context
-- (`Session.step_stocked`).
def Attempt.Lawful (attempt : Attempt κ δ α) : Prop :=
  Action.Preserves (fun s => s.2.Orderly) attempt.run

omit [Device δ] in
theorem aside_lawful (keeps : Action.Keeps (fun s => s.2.stock) attempt.run) : attempt.Lawful :=
  Action.preserves_of_runs fun s orderly => orderly.of_stock (keeps s)

omit [Device δ] in
theorem settles_of_keeps {x : Action (Shared δ) α} (kept : Action.Keeps Shared.retired x)
    (s : Unit × Shared δ) : (Action.on .second x s).state.2.pending ≤ s.2.pending :=
  Nat.le_of_eq (congrArg Retirement.pending (kept s.2))

def Attempt.plain (x : Action (Shared δ) α) (kept : Action.Keeps Shared.retired x) :
    Attempt Unit δ α :=
  ⟨Action.on .second x, settles_of_keeps kept⟩

omit [Device δ] in
theorem plain_lawful {x : Action (Shared δ) α} (kept : Action.Keeps Shared.retired x)
    (preserves : Action.Preserves Orderly x) : (Attempt.plain x kept).Lawful :=
  Action.preserves_on .second preserves

theorem suballocate_lawful (heap : BufferHeap) (size : Nat)
    (kept : Action.Keeps Shared.retired
      (Action.on (dedicatedOf (δ := δ) heap) (Dedicated.allocate size)))
    (also : Action.Keeps Shared.retired
      (Action.on (pooledOf (δ := δ) heap) (Supply.allocate size))) :
    (Attempt.plain _ kept).Lawful ∧ (Attempt.plain _ also).Lawful :=
  ⟨plain_lawful kept (dedicate_stocked heap size),
    plain_lawful also (supply_stocked (fun _ _ => Supply.orderly_lasting) heap size)⟩

section Ending

variable {config : Config} {turns : List (Session.Turn δ)} {session : Session δ}

theorem Orderly.reclaim_ends {shared : Shared δ} (orderly : shared.Orderly) :
    ∃ freed after events, reclaim shared = ⟨.ok freed, after, events⟩ ∧ after.Orderly :=
  have answers : Action.Answers Orderly (reclaim (δ := δ)) :=
    reclaim_answers fun _ _ => Supply.orderly_lasting
  answers.ends firm_reclaim orderly

-- By induction on the retired things that wait, of which each reclaim that is followed by another
-- try takes one.
theorem Orderly.tries_end (lawful : attempt.Lawful) (orderly : s.2.Orderly) :
    ∃ tries whole, Tries attempt s tries whole := by
  induction fewer : s.2.pending using Nat.strongRecOn generalizing s with
  | ind pending ih =>
    subst fewer
    have left := lawful s orderly
    rcases tried : attempt.run s with ⟨result, ⟨own, refused⟩, events⟩
    by_cases short : (attempt.run s).isShort = true
    · rw [tried] at short left
      match result, short with
      | .error (.error error), short =>
        obtain ⟨freed, after, more, ran, eased⟩ := Orderly.reclaim_ends left
        cases freed with
        | false => exact ⟨_, _, .givenUp tried short ran⟩
        | true =>
          have cost := eased_pending tried ran
          obtain ⟨tries, whole, rest⟩ := ih after.pending cost (s := (own, after)) eased rfl
          exact ⟨_, _, .again tried short ran rest⟩
    · exact ⟨_, _, .last (Bool.eq_false_iff.mpr short)⟩

-- In any context that has come about the tries of a lawful attempt, which retires nothing, come to
-- an end: there is one for each thing that was retired and one more at most. The caller is answered
-- what the last of them came to; and where that is an error that no reclaim could mend, nothing
-- happens after it.
theorem tryAllocate_ends (lawful : attempt.Lawful) (path : Session.Went config turns session)
    (own : κ) :
    let s := (own, session.shared)
    ∃ tries last, Tries attempt s tries (tryAllocate attempt s) ∧
      (∀ others whole, Tries attempt s others whole →
        others = tries ∧ whole = tryAllocate attempt s) ∧
      tries.length ≤ 1 + session.shared.pending ∧ tries.getLast? = some last ∧
      (tryAllocate attempt s).result = last.result ∧
      ∀ error, last.result = .error (.error error) → error.isOutOfMemory = false →
        (tryAllocate attempt s).state = last.state ∧
          ∃ earlier, (tryAllocate attempt s).events = earlier ++ last.events := by
  intro s
  obtain ⟨tries, whole, ends⟩ := Orderly.tries_end lawful (s := s) (Session.went_orderly path)
  obtain rfl := ends.whole_eq
  obtain ⟨last, final, same, unmoved⟩ := ends.last_try
  refine ⟨tries, last, ends, fun others whole also => ⟨ends.unique also, also.whole_eq.symm⟩,
    ends.length_le, final, same, fun error refused other => unmoved ?_⟩
  unfold Run.isShort
  rw [refused]
  exact other

omit [Device δ] in
theorem outcomes_lawful : (Session.outcomesAttempt (δ := δ)).Lawful := aside_lawful fun _ => rfl

theorem tryAllocate_ends_retried :
    ∃ (turns : List (Session.Turn Scripted)) (session : Session Scripted)
      (last : Run ((List (Option Error) × Nat) × Shared Scripted) Nat),
      Session.Went .minimal turns session ∧ session.shared.pending = 1 ∧
      let s := (([some .outOfDeviceMemory, some .invalidParameter, none], 0), session.shared)
      (∃ tries, Tries Session.outcomesAttempt s tries (tryAllocate Session.outcomesAttempt s) ∧
        tries.length ≤ 2 ∧ tries.getLast? = some last) ∧
      last.result = .error (.error .invalidParameter) ∧ last.state.1 = ([none], 2) ∧
      last.state.2.pending = 0 := by
  have path := Session.opened_went (Option.some_get (by decide +kernel :
    (Session.opened Scripted.standard .sharedOnly .minimal ⟨[]⟩).state.isSome = true)).symm
  replace path := path.step (.retireObject 1 ⟨1, 0, 0⟩ true []) nofun (by decide +kernel)
  replace path := path.step (.closeBatch .graphics) nofun (by decide +kernel)
  obtain ⟨tries, last, runs, -, few, ends, same, unmoved⟩ := tryAllocate_ends
    outcomes_lawful path ([some .outOfDeviceMemory, some .invalidParameter, none], 0)
  have refused : last.result = .error (.error .invalidParameter) :=
    same.symm.trans (by decide +kernel)
  obtain ⟨left, -⟩ := unmoved _ refused rfl
  refine ⟨_, _, last, path, by decide +kernel, ⟨tries, runs, ?_, ends⟩, refused, ?_, ?_⟩
  · exact few.trans (by decide +kernel)
  · rw [← left]
    decide +kernel
  · rw [← left]
    decide +kernel

end Ending

end Shared

end Reclaim
