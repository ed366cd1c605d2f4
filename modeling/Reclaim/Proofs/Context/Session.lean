import Reclaim.Device.Scripted
import Reclaim.Proofs.Context.Immediate

namespace Reclaim

variable {δ α : Type} {leases : List Lease}

namespace Shared

theorem note_quiet (note : Note) :
    Action.Meets (fun past (_ : Unit) => quiet past) (Action.note note)
      (fun _ past _ => quiet past) (fun past _ => quiet past) := by
  intro past _ still
  change (past ++ [Event.noted note]).all Event.isQuiet = true
  rw [List.all_append]
  exact Bool.and_eq_true_iff.mpr ⟨still, rfl⟩

variable [Device δ]

theorem chooseAllocators_quiet (config : Config) (heap : BufferHeap) :
    Action.Meets (fun past (_ : Unit) => quiet past) (chooseAllocators config heap)
      (fun _ past _ => quiet past) (fun past _ => quiet past) := by
  refine Action.meets_bind (Action.meets_settle _) fun layout => ?_
  refine Action.meets_bind ?_ fun _ => Action.meets_pure fun _ _ still => still
  unfold Supply.choose
  split
  · refine Action.meets_bind (note_quiet _) fun _ => ?_
    refine Action.meets_bind (Action.meets_settle _) fun buddy => ?_
    exact Action.meets_pure fun _ _ still => still
  · refine Action.meets_bind (note_quiet _) fun _ => ?_
    exact Action.meets_pure fun _ _ still => still

theorem create_upholds (device : δ) (config : Config) (board : Board) :
    Action.Meets (fun past (_ : Unit) => quiet past)
      (create (.start device) config board)
      (fun shared past _ => shared.Upholds [] [] 1 0 past) (fun past _ => quiet past) := by
  refine Action.meets_bind (chooseAllocators_quiet config .upload) fun upload => ?_
  refine Action.meets_bind (chooseAllocators_quiet config .readback) fun readback => ?_
  refine Action.meets_bind (note_quiet _) fun _ => ?_
  exact Action.meets_pure fun _ _ still => ⟨.start still, rfl, rfl, Nat.zero_le _⟩

end Shared

def ContextStep.isImmediate : ContextStep δ → Bool
  | .submit _ | .flush _ | .waitForIdle _ | .trim => true
  | .reserve (some _) _ => true
  | .device _ => true
  | _ => false

namespace Session

def online? (session : Session δ) (kind : Kind) : Option OnlineHeap :=
  match session.front with
  | .immediate view sampler => Immediate.online? ⟨session.shared, view, sampler⟩ kind
  | _ => none

end Session

def ContextStep.leased (step : ContextStep δ) (result : Except Stop ContextAnswer)
    (past : List Event) (session : Session δ) : List Lease :=
  match step, result with
  | .reserve (some kind) slots, .ok (.reservation reservation) =>
    (session.online? kind).toList.map fun heap =>
      ⟨heap.object.serial, reservation.first, slots, session.shared.recording.graphics, past⟩
  | _, _ => []

namespace Session

variable {session : Session δ} {past : List Event} {config : Config}

-- Everything the caller has leased, and all that has happened, when a session is where it is.
inductive Ran [Device δ] (config : Config) : List Lease → List Event → Session δ → Prop where
  | opened {device : δ} {board : Board} {session : Session δ}
      (made : (opened device .immediate config board).state = some session) :
      Ran config [] (opened device .immediate config board).events session
  | step {leases : List Lease} {past : List Event} {session : Session δ}
      (path : Ran config leases past session) (step : ContextStep δ)
      (taken : step.isImmediate = true) :
      Ran config
        (leases ++ step.leased (step.run session).result (past ++ (step.run session).events)
          (step.run session).state)
        (past ++ (step.run session).events) (step.run session).state

def Within (claims : Claims (Immediate δ)) : Claims (Session δ) := fun past session =>
  ∃ view sampler, session.front = .immediate view sampler ∧
    claims past ⟨session.shared, view, sampler⟩

theorem meets_within {x : Action (Immediate δ) α} {pre stopped : Claims (Immediate δ)}
    {post : α → Claims (Immediate δ)} (meets : Action.Meets pre x post stopped) :
    Action.Meets (Within pre) (withImmediate x) (fun a => Within (post a)) (Within stopped) := by
  rintro past ⟨shared, front, buffers, slots, blocks⟩ ⟨view, sampler, same, holds⟩
  simp only at same
  subst same
  have ran := meets past ⟨shared, view, sampler⟩ holds
  unfold withImmediate
  dsimp only
  match x ⟨shared, view, sampler⟩, ran with
  | ⟨.ok a, ⟨_, view, sampler⟩, events⟩, reached => exact ⟨view, sampler, rfl, reached⟩
  | ⟨.error stop, ⟨_, view, sampler⟩, events⟩, stopped => exact ⟨view, sampler, rfl, stopped⟩

theorem device_keeps (change : δ → δ) :
    Action.Meets (Within (Immediate.Keeps leases))
      (withShared <| Action.on Shared.machineOf <| Action.modify fun machine =>
        { machine with device := change machine.device })
      (fun _ => Within (Immediate.Keeps leases)) (Within (Immediate.Keeps leases)) := by
  rintro past session ⟨view, sampler, front, now, viewFits, samplerFits, viewWaves, samplerWaves,
    viewHolds, samplerHolds, upholds⟩
  exact ⟨view, sampler, front, now, viewFits.append _, samplerFits.append _, viewWaves,
    samplerWaves, viewHolds, samplerHolds, upholds.quiet rfl rfl rfl rfl rfl⟩

variable [Device δ]

theorem withOnline_reserve {view sampler : OnlineHeap} (kind : Kind) (slots : Nat)
    (front : session.front = .immediate view sampler) :
    withOnline (some kind) (OnlineHeap.reserve slots) session =
      withImmediate (Immediate.reserve kind slots) session := by
  obtain ⟨shared, front, buffers, slots, blocks⟩ := session
  simp only at front
  subst front
  cases kind with
  | view | sampler => rfl
  | target | depth => rfl

theorem reserve_within (kind : Kind) (slots : Nat) :
    Action.Meets (Within (Immediate.Keeps (δ := δ) leases))
      (withOnline (some kind) (OnlineHeap.reserve slots))
      (fun reservation past session => ∃ heap, session.online? kind = some heap ∧
        Within (Immediate.Keeps (leases ++ [⟨heap.object.serial, reservation.first, slots,
          session.shared.recording.graphics, past⟩])) past session)
      (Within (Immediate.Keeps leases)) := by
  rintro past session ⟨view, sampler, front, keeps⟩
  rw [withOnline_reserve kind slots front]
  refine (meets_within (Immediate.reserve_keeps kind slots) past session
    ⟨view, sampler, front, keeps⟩).weaken ?_ fun _ _ stopped => stopped
  rintro reservation now after ⟨view, sampler, front, heap, online, keeps⟩
  refine ⟨heap, ?_, view, sampler, front, keeps⟩
  unfold online?
  rw [front]
  exact online

theorem step_keeps (step : ContextStep δ) (taken : step.isImmediate = true) :
    Action.Meets (Within (Immediate.Keeps leases)) step.run
      (fun answer past session =>
        Within (Immediate.Keeps (leases ++ step.leased (.ok answer) past session)) past session)
      (Within (Immediate.Keeps leases)) := by
  have same {step : ContextStep δ} {answer : ContextAnswer} {past : List Event}
      {session : Session δ} (none_leased : step.leased (.ok answer) past session = [])
      (keeps : Within (Immediate.Keeps leases) past session) :
      Within (Immediate.Keeps (leases ++ step.leased (.ok answer) past session)) past session := by
    rw [none_leased, List.append_nil]
    exact keeps
  cases step with
  | submit queue =>
    refine Action.meets_bind (meets_within (Immediate.submit_keeps queue)) fun fence => ?_
    exact Action.meets_pure fun _ _ keeps => same rfl keeps
  | flush mask =>
    refine Action.meets_bind (meets_within (Immediate.flush_keeps mask)) fun fences => ?_
    exact Action.meets_pure fun _ _ keeps => same rfl keeps
  | waitForIdle queue =>
    refine Action.meets_bind (meets_within (Immediate.waitForIdle_keeps queue)) fun _ => ?_
    exact Action.meets_pure fun _ _ keeps => same rfl keeps
  | trim =>
    refine Action.meets_bind (meets_within Immediate.trim_keeps) fun freed => ?_
    exact Action.meets_pure fun _ _ keeps => same rfl keeps
  | reserve kind slots =>
    cases kind with
    | none => cases taken
    | some kind =>
      refine Action.meets_bind (reserve_within kind slots) fun reservation => ?_
      apply Action.meets_pure
      rintro past session ⟨heap, online, keeps⟩
      unfold ContextStep.leased
      simp only [online]
      exact keeps
  | device change =>
    refine Action.meets_bind (device_keeps change) fun _ => ?_
    exact Action.meets_pure fun _ _ keeps => same rfl keeps
  | _ => cases taken

theorem openFront_within {now : Nat} :
    Action.Meets (Shared.Upholds (δ := δ) leases [] now 0) (openFront .immediate)
      (fun front past shared =>
        Within (Immediate.Keeps leases) past ⟨shared, front, [], [], []⟩) (fun _ _ => True) := by
  refine Action.meets_bind Action.meets_get fun seen => ?_
  refine Action.meets_bind (Action.meets_before
    (Immediate.createHeaps_honours seen.config) fun _ _ both => both.1) fun heaps => ?_
  exact Action.meets_pure fun _ _ honours => ⟨heaps.1, heaps.2, rfl, now, honours⟩

theorem opened_keeps {device : δ} {board : Board}
    (made : (opened device .immediate config board).state = some session) :
    Within (Immediate.Keeps []) (opened device .immediate config board).events session := by
  have shares := Shared.create_upholds device config board [] () rfl
  unfold opened at made ⊢
  rcases created : Shared.create (δ := δ) (.start device) config board () with ⟨result, _, first⟩
  rw [created] at made shares
  cases result with
  | error stop => cases made
  | ok shared =>
    have fronts := openFront_within first shared shares
    rcases front : openFront .immediate shared with ⟨result, after, more⟩
    rw [front] at fronts
    simp only [front] at made ⊢
    cases result with
    | error stop => cases made
    | ok front =>
      cases made
      exact fronts

theorem ran_keeps (path : Ran config leases past session) :
    Within (Immediate.Keeps leases) past session := by
  induction path with
  | opened made => exact opened_keeps made
  | step path step taken ih =>
    rename_i leases past session
    have kept := step_keeps step taken past session ih
    rcases ran : step.run session with ⟨result, after, events⟩
    rw [ran] at kept
    cases result with
    | ok answer => exact kept
    | error stop =>
      have none_leased : step.leased (.error stop) (past ++ events) after = [] := by
        unfold ContextStep.leased
        split
        · contradiction
        · rfl
      rw [none_leased, List.append_nil]
      exact kept

-- Slots lie inside the heap they are leased of; they are leased again, and the heap object is dropped,
-- only once the graphics queue has been seen to come to the batch they were leased under.
theorem leases_upheld (path : Ran config leases past session) :
    (∀ lease ∈ leases, ∃ desc, (madeHeaps past)[lease.serial]? = some desc ∧
      lease.first + lease.slots ≤ desc.slots) ∧
    leases.Pairwise Lease.Yields ∧ (∀ lease ∈ leases, lease.Lasts past) ∧
    ∀ fence, 0 < fence → (Reached past fence ↔ fence ≤ session.shared.known.graphics) := by
  obtain ⟨view, sampler, front, now, viewFits, samplerFits, viewWaves, samplerWaves, viewHolds,
    samplerHolds, upholds⟩ := ran_keeps path
  have upheld := upholds.upheld
  exact ⟨upheld.inside, upheld.yielding, upheld.lasting, upheld.seen⟩

theorem leases_upheld_around :
    ∃ (leases : List Lease) (past : List Event) (session : Session Scripted),
      Ran { Config.minimal with viewHeap := ⟨2, 4, 1, 2⟩, samplerHeap := .fixed 1 } leases past
        session ∧
      leases.map (fun lease => (lease.serial, lease.first, lease.slots, lease.fence)) =
        [(0, 0, 2, 1), (2, 0, 4, 1), (2, 0, 4, 2)] ∧
      .dropped (.heap 0) ∈ past ∧
      leases.Pairwise Lease.Yields ∧ ∀ lease ∈ leases, lease.Lasts past := by
  have path := Ran.opened (Option.some_get (by decide +kernel :
    (opened Scripted.standard .immediate { Config.minimal with
      viewHeap := ⟨2, 4, 1, 2⟩, samplerHeap := .fixed 1 } ⟨[]⟩).state.isSome = true)).symm
  replace path := (path.step (.reserve (some .view) 2) rfl).step (.reserve (some .view) 4) rfl
  replace path := (path.step (.submit .graphics) rfl).step (.device (·.complete .graphics 1)) rfl
  replace path := (path.step .trim rfl).step (.reserve (some .view) 4) rfl
  obtain ⟨-, yielding, lasting, -⟩ := leases_upheld path
  exact ⟨_, _, _, path, by decide +kernel, by decide +kernel, yielding, lasting⟩

end Session

end Reclaim
