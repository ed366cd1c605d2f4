import Reclaim.Proofs.Context.Binding
import Reclaim.Proofs.Context.Service
import Reclaim.Proofs.Ring.Probing

namespace Reclaim.OnlineHeap

variable {δ : Type} [Device δ] {slots completed : Nat} {both : OnlineHeap × Shared δ}
  {reservation : Reservation} {waves : List Wave}

-- A reservation that reclaims before it tries.
def reserveReclaimed (slots : Nat) : Action (OnlineHeap × Shared δ) Reservation := do
  if (← Action.get).1.maxSize < slots then Action.refuse .invalidParameter
  else
    let completed ← Action.on sharedOf (Shared.completedFence .graphics)
    Action.on ringOf (Ring.deallocate completed)
    reserveWithin slots maxAttempts false true

theorem reserveWithin_rolled (attempts : Nat) (reclaimed : Bool) :
    Action.Returns (fun _ : OnlineHeap × Shared δ => True)
      (reserveWithin slots attempts true reclaimed)
      (fun reservation _ => reservation.rolledOver = true) fun _ => True := by
  induction attempts generalizing reclaimed with
  | zero =>
    refine Action.returns_look fun both => ?_
    exact Action.returns_bind (Action.returns_note _) fun _ =>
      Action.returns_refuse fun _ _ => trivial
  | succ attempts ih =>
    refine Action.returns_bind (Action.preserves_fact True _) fun fence => ?_
    refine Action.returns_bind (Action.preserves_fact True _) fun result => ?_
    cases result with
    | ok first => exact Action.returns_pure fun _ _ => rfl
    | error error =>
      dsimp only
      split
      · refine Action.returns_bind (Action.preserves_fact True _) fun completed => ?_
        exact Action.returns_bind (Action.preserves_fact True _) fun _ => ih _
      split
      · exact Action.returns_bind (Action.preserves_fact True _) fun _ => ih _
      · exact Action.returns_refuse fun _ _ => trivial

theorem granted_at_once (attempts : Nat)
    (granted : (reserveWithin slots (attempts + 1) false true both).result = .ok reservation)
    (kept : reservation.rolledOver = false) :
    (Ring.allocate slots both.2.recording.graphics both.1.ring).result = .ok reservation.first ∧
      reservation = ⟨reservation.first, false⟩ := by
  rcases ran : Ring.allocate slots both.2.recording.graphics both.1.ring with
    ⟨⟨error⟩ | first, ring, events⟩
  · cases error with
    | fault fault =>
      rw [reserveWithin_faulted _ _ _ ran] at granted
      cases granted
    | error error =>
      rw [reserveWithin_refused _ _ _ ran] at granted
      simp only [Bool.not_true, Bool.and_false, Bool.false_eq_true, if_false, Run.andThen_ok]
        at granted
      split at granted
      · have rolls : Action.Returns (fun _ : OnlineHeap × Shared δ => True)
            (do rollOver; reserveWithin slots attempts true true)
            (fun reservation _ => reservation.rolledOver = true) fun _ => True :=
          Action.returns_bind (Action.preserves_fact True _) fun _ => reserveWithin_rolled _ _
        have rolled := (rolls _ trivial).of_ok granted
        rw [kept] at rolled
        cases rolled
      · cases granted
  · rw [reserveWithin_granted _ _ _ ran] at granted
    cases granted
    exact ⟨rfl, rfl⟩

theorem completedFence_reads
    (known : (Shared.completedFence .graphics both.2).result = .ok completed) :
    ∃ shared told, shared.recording = both.2.recording ∧
      ∀ heap : OnlineHeap, Action.on sharedOf (Shared.completedFence .graphics) (heap, both.2) =
        ⟨.ok completed, (heap, shared), told⟩ := by
  have keeps := Shared.completedFence_keeps .graphics both.2
  rcases looks : Shared.completedFence .graphics both.2 with ⟨result, shared, told⟩
  rw [looks] at known keeps
  obtain rfl : result = .ok completed := known
  exact ⟨shared, told, keeps, fun _ => Action.on_of_run sharedOf looks⟩

theorem reserveReclaimed_granted (holds : both.1.ring.Holds waves)
    (known : (Shared.completedFence .graphics both.2).result = .ok completed)
    (granted : (reserveReclaimed slots both).result = .ok reservation)
    (kept : reservation.rolledOver = false) :
    slots ≤ both.1.maxSize ∧ reservation = ⟨reservation.first, false⟩ ∧
      (∃ told, Ring.deallocate completed both.1.ring =
        ⟨.ok (), both.1.ring.reclaimed completed waves, told⟩) ∧
      (Ring.allocate slots both.2.recording.graphics
        (both.1.ring.reclaimed completed waves)).result = .ok reservation.first := by
  obtain ⟨shared, told, recorded, asks⟩ := completedFence_reads known
  by_cases large : both.1.maxSize < slots
  · simp [reserveReclaimed, large] at granted
  have reclaims : reserveReclaimed slots both =
      (Action.on sharedOf (Shared.completedFence .graphics) >>= fun completed =>
        Action.on ringOf (Ring.deallocate completed) >>= fun _ =>
          reserveWithin slots maxAttempts false true) both := by
    simp [reserveReclaimed, large]
  rw [reclaims, Action.run_bind, asks, Run.andThen_ok, Action.run_bind] at granted
  rcases Ring.deallocate_exact holds completed with ⟨gone, -⟩ | ⟨-, notes, went⟩
  · rw [Action.on_of_run (s := (both.1, shared)) ringOf gone] at granted
    cases granted
  · rw [Action.on_of_run (s := (both.1, shared)) ringOf went] at granted
    obtain ⟨grants, same⟩ := granted_at_once 31 granted kept
    rw [← recorded]
    exact ⟨Nat.not_lt.mp large, same, ⟨_, went⟩, grants⟩

theorem reserveWithin_reclaims (attempts : Nat) {first : Nat} {error : Error} {failed again : Ring}
    {events heard : List Event}
    (known : (Shared.completedFence .graphics both.2).result = .ok completed)
    (exhausted : error.isExhausted = true)
    (ran : Ring.allocate slots both.2.recording.graphics both.1.ring =
      ⟨.error (.error error), failed, events⟩)
    (goes : Ring.deallocate completed failed = ⟨.ok (), again, heard⟩)
    (comes : (Ring.allocate slots both.2.recording.graphics again).result = .ok first) :
    let run := reserveWithin slots (attempts + 2) false false both
    run.result = .ok ⟨first, false⟩ ∧ run.state.1.object = both.1.object := by
  obtain ⟨shared, told, recorded, asks⟩ := completedFence_reads known
  rw [← recorded] at comes
  rcases takes : Ring.allocate slots shared.recording.graphics again with ⟨result, left, noted⟩
  rw [takes] at comes
  obtain rfl : result = .ok first := comes
  have asked : Action.on sharedOf (Shared.completedFence .graphics) (ringOf.put failed both) =
      ⟨.ok completed, ({ both.1 with ring := failed }, shared), told⟩ := asks _
  have reclaims : Action.on ringOf (Ring.deallocate completed)
      (({ both.1 with ring := failed }, shared) : OnlineHeap × Shared δ) =
        ⟨.ok (), ({ both.1 with ring := again }, shared), heard⟩ := Action.on_of_run ringOf goes
  have grants : reserveWithin slots (attempts + 1) false true
      (({ both.1 with ring := again }, shared) : OnlineHeap × Shared δ) =
        ⟨.ok ⟨first, false⟩, ({ both.1 with ring := left }, shared), noted⟩ :=
    reserveWithin_granted _ _ _ takes
  rw [reserveWithin_refused _ _ _ ran]
  simp only [exhausted, Bool.not_false, Bool.and_self, if_true, Run.andThen_ok, Action.run_bind,
    asked, reclaims, grants, true_and]

theorem reserve_probed (holds : both.1.ring.Holds waves)
    (known : (Shared.completedFence .graphics both.2).result = .ok completed)
    (short : completed < both.2.recording.graphics)
    (granted : (reserveReclaimed slots both).result = .ok reservation)
    (kept : reservation.rolledOver = false) :
    (reserve slots both).result = .ok reservation ∧
      (reserve slots both).state.1.object = both.1.object := by
  obtain ⟨le, same, ⟨told, went⟩, comes⟩ := reserveReclaimed_granted holds known granted kept
  have tries : reserve slots both = reserveWithin slots maxAttempts false false both := by
    simp [reserve, Nat.not_lt.mpr le]
  rw [tries, same]
  rcases ran : Ring.allocate slots both.2.recording.graphics both.1.ring with
    ⟨result, failed, events⟩
  have probed := Ring.allocate_probed holds short slots
  rw [ran, comes] at probed
  rcases probed with rfl | ⟨error, exhausted, rfl⟩
  · have grants := reserveWithin_granted 31 false false ran
    exact ⟨congrArg Run.result grants, congrArg (·.state.1.object) grants⟩
  · obtain ⟨again, heard, goes, alike⟩ := Ring.allocate_retried holds short exhausted ran went
    exact reserveWithin_reclaims 30 known exhausted ran goes (alike.trans comes)

-- A request refused by an exhausted ring and made again after a reclaim that does not come to its
-- fence is answered, and leaves as much in flight and as many waves, as if it had been made after the
-- reclaim only. So a reservation rolls no heap over that it would not have, had it reclaimed first.
theorem probing_harmless {size places : Nat} {start ring : Ring} {turns : List Ring.Turn}
    (made : Ring.ofLedger? size places = .ok start) (path : Ring.Runs start turns ring) :
    (∀ slots fence completed error failed events, completed < fence →
      error = .ringExhausted ∨ error = .ledgerExhausted →
      Ring.allocate slots fence ring = ⟨.error (.error error), failed, events⟩ →
        let asked := Ring.deallocate completed >>= fun _ => Ring.report slots fence
        (asked failed).result = (asked ring).result ∧
          (ring.tail + 3 * ring.size < Word.limit → ∃ told, (asked ring).result = .ok told)) ∧
    ∀ (both : OnlineHeap × Shared δ) slots completed reservation, both.1.ring = ring →
      (Shared.completedFence .graphics both.2).result = .ok completed →
      completed < both.2.recording.graphics →
      (reserveReclaimed slots both).result = .ok reservation → reservation.rolledOver = false →
        (reserve slots both).result = .ok reservation ∧
          (reserve slots both).state.1.object = both.1.object := by
  obtain ⟨some_place, rfl⟩ := Ring.some_place_of_ofLedger? made
  obtain ⟨waves, keeps⟩ := Ring.runs_keep some_place path
  refine ⟨?_, ?_⟩
  · intro slots fence completed error failed events short kinds refused
    have exhausted : error.isExhausted = true := by
      rcases kinds with rfl | rfl <;> rfl
    exact ⟨Ring.report_retried keeps.holds short exhausted refused,
      fun reach => Ring.reclaimed_report_answers keeps.holds reach completed slots fence⟩
  · rintro both slots completed reservation rfl known short granted kept
    exact reserve_probed keeps.holds known short granted kept

def firstCompleted (shared : Shared Scripted) : Shared Scripted :=
  { shared with
    recording := shared.recording.set .graphics 2
    machine.device := shared.machine.device.complete .graphics 1 }

-- The try skips the last three slots under a wave of its own, and the slots asked for start behind
-- them.
theorem probing_harmless_skipped :
    let ring : Ring := ⟨8, 8, 5, [some ⟨1, 5⟩, none], 0⟩
    let failed : Ring := ⟨8, 8, 8, [some ⟨1, 5⟩, some ⟨2, 3⟩], 1⟩
    let asked := Ring.deallocate 1 >>= fun _ => Ring.report 5 2
    Ring.allocate 5 2 ring = ⟨.error (.error .ringExhausted), failed, []⟩ ∧
      (asked failed).result = (asked ring).result ∧ (asked ring).result = .ok (.ok 0, 8, 1) ∧
      ∃ (start both : OnlineHeap × Shared Scripted) (turns : List HeapTurn),
        opened? Scripted.standard .minimal .view ⟨8, 16, 1, 2⟩ = some start ∧
        Runs start turns both ∧ both.1.ring = ring ∧ (reserve 5 both).result = .ok ⟨0, false⟩ ∧
        (reserve 5 both).state.1.object = both.1.object := by
  intro ring failed asked
  have made : Ring.ofLedger? 8 2 = .ok (Ring.fresh 8 2) := rfl
  have path : Ring.Runs (Ring.fresh 8 2) [⟨.allocate 5 1, .ok (some 0)⟩] ring := .turn .nil rfl
  have refused : Ring.allocate 5 2 ring = ⟨.error (.error .ringExhausted), failed, []⟩ := rfl
  obtain ⟨answers, reserves⟩ := @probing_harmless Scripted _ _ _ _ _ _ made path
  have opens := (Option.some_get (by decide +kernel :
    (opened? Scripted.standard .minimal .view ⟨8, 16, 1, 2⟩).isSome = true)).symm
  have steps := @Runs.nil Scripted _
    ((opened? Scripted.standard .minimal .view ⟨8, 16, 1, 2⟩).get (by decide +kernel))
  replace steps := steps.returned (.reserve 5) (some (.ok ⟨0, false⟩)) (by decide +kernel)
  replace steps := steps.returned (.elsewhere firstCompleted) none (by decide +kernel)
  have same := (answers 5 2 1 .ringExhausted failed [] (by decide) (.inl rfl) refused).1
  have reserves_there {start now : OnlineHeap × Shared Scripted} {turns : List HeapTurn}
      (_ : Runs start turns now) := reserves now 5 1 ⟨0, false⟩
  obtain ⟨granted, stays⟩ := reserves_there steps (by decide +kernel) (by decide +kernel)
    (by decide +kernel) (by decide +kernel) rfl
  exact ⟨refused, same, by decide +kernel, _, _, _, opens, steps, by decide +kernel, granted, stays⟩

end Reclaim.OnlineHeap
