import Reclaim.Proofs.Memory.Client
import Reclaim.Proofs.Memory.Lot

namespace Reclaim.MemoryClient

variable {δ α β : Type}

structure DrawsOn (client : MemoryClient δ) (lot : Lot δ) : Prop where
  supply : client.supply = .dedicated lot.dedicated
  machine : client.machine = lot.machine

theorem conclude_of_dedicated {size : Nat} {made : Except Error Memory}
    {dedicated after : Dedicated} {machine left : Machine δ} {result : Except Stop Block}
    {events : List Event}
    (ran : Dedicated.conclude size made (dedicated, machine) = ⟨result, (after, left), events⟩) :
    Supply.conclude (.size size) made (.dedicated dedicated, machine) =
      ⟨result, (.dedicated after, left), events⟩ := by
  simp [Supply.conclude, Supply.byKind, ran]

variable [Device δ]

-- The lot comes where the operation leaves the caller, and those on the way are on the way still.
def Traced (x : Action (MemoryClient δ) α) : Prop :=
  ∀ client lot, DrawsOn client lot → lot.Sound →
    ∃ a left events answers after, x client = ⟨.ok a, left, events⟩ ∧ lot.Runs answers after ∧
      left.DrawsOn after ∧ after.waiting = lot.waiting

theorem traced_pure (a : α) : Traced (Pure.pure a : Action (MemoryClient δ) α) :=
  fun client lot draws _ => ⟨a, client, [], [], lot, rfl, .start, draws, rfl⟩

theorem traced_emit (event : Event) : Traced (Action.emit event : Action (MemoryClient δ) Unit) :=
  fun client lot draws _ => ⟨(), client, [event], [], lot, rfl, .start, draws, rfl⟩

theorem traced_bind {x : Action (MemoryClient δ) α} {f : α → Action (MemoryClient δ) β}
    (first : Traced x) (next : ∀ a, Traced (f a)) : Traced (x >>= f) := by
  intro client lot draws sound
  obtain ⟨a, middle, events, answers, between, ran, path, draws, waiting⟩ := first _ _ draws sound
  obtain ⟨b, left, more, later, after, came, rest, draws, still⟩ :=
    next a _ _ draws (path.sound sound)
  refine ⟨b, left, events ++ more, answers ++ later, after, ?_, path.trans rest, draws,
    still.trans waiting⟩
  rw [Action.run_bind, ran, Run.andThen_ok, came]

theorem traced_allocateWhile {between : Action (MemoryClient δ) Unit} (inner : Traced between)
    (size : Nat) : Traced (hold (Supply.allocateWhile supplyOf between size)) := by
  rintro ⟨supply, machine, held⟩ lot ⟨same, alike⟩ sound
  simp only at same alike
  subst same alike
  rcases Nat.eq_zero_or_pos size with rfl | some_bytes
  · have path : lot.Runs [.refused .invalidParameter] lot := Lot.Runs.start.step (.request 0) rfl
    exact ⟨_, _, _, _, _, rfl, path, ⟨rfl, rfl⟩, rfl⟩
  have claims : Supply.claim size (.dedicated lot.dedicated, lot.machine) =
      ⟨.ok (.pending size (.size size)), (.dedicated lot.dedicated, lot.machine), []⟩ := by
    simp [Supply.claim, Supply.byKind, Dedicated.claim, Nat.ne_of_gt some_bytes,
      Dedicated.dedicatedOf, Part.first]
  obtain ⟨result, made, machine, asked, created, caught⟩ :=
    Machine.createMemory_caught lot.dedicated.heap size lot.machine
  let asking : Lot δ := { lot with machine, waiting := ⟨size, some made⟩ :: lot.waiting }
  have asks : (LotStep.request size).run lot =
      ⟨.ok .nothing, { lot with waiting := ⟨size, none⟩ :: lot.waiting }, []⟩ := by
    simp [LotStep.run, Lot.request, Dedicated.claim, Nat.ne_of_gt some_bytes, Lot.dedicatedOf,
      Lot.wait]
  have makes : (LotStep.make 0).run { lot with waiting := ⟨size, none⟩ :: lot.waiting } =
      ⟨.ok .nothing, asking, asked⟩ := by
    simp [LotStep.run, Lot.make, Lot.resume, Lot.machineOf, Lot.wait, created, caught, asking]
  have path := (Lot.Runs.start.step (.request size) asks).step (.make 0) makes
  obtain ⟨done, left, more, answers, middle, came, others, draws, still⟩ := inner
    ⟨.dedicated lot.dedicated, machine, held⟩ asking ⟨rfl, rfl⟩ (path.sound sound)
  obtain ⟨supply, machine, held⟩ := left
  obtain ⟨same, alike⟩ := draws
  simp only at same alike
  subst same alike
  have found : middle.waiting = ⟨size, some made⟩ :: lot.waiting := still
  obtain ⟨answer, after, last, concludes, -⟩ := Lot.conclude_came middle 0
  rcases concluded : Dedicated.conclude size made (middle.dedicated, middle.machine) with
    ⟨result, ⟨dedicated, machine⟩, finish⟩
  let ending : Lot δ := ⟨dedicated, machine, lot.waiting⟩
  cases result with
  | error stop =>
    cases stop with
    | fault fault =>
      simp [Lot.conclude, Lot.resume, Lot.bothOf, found, concluded] at concludes
    | error error =>
      have concludes : (LotStep.conclude 0).run middle = ⟨.ok (.refused error), ending, finish⟩ := by
        simp [LotStep.run, Lot.conclude, Lot.resume, Lot.bothOf, found, concluded, ending]
      refine ⟨.refused error, ⟨.dedicated dedicated, machine, held⟩, asked ++ (more ++ finish), _,
        ending, ?_, (path.trans others).step (.conclude 0) concludes, ⟨rfl, rfl⟩, rfl⟩
      simp [hold, Supply.allocateWhile, supplyOf, claims, Part.andThen, Supply.machineOf,
        Part.second, Supply.heap, created, caught, came, conclude_of_dedicated concluded]
  | ok block =>
    have concludes : (LotStep.conclude 0).run middle = ⟨.ok (.block block), ending, finish⟩ := by
      simp [LotStep.run, Lot.conclude, Lot.resume, Lot.bothOf, found, concluded, ending]
    refine ⟨.block block, ⟨.dedicated dedicated, machine, held ++ [block]⟩,
      asked ++ (more ++ finish), _, ending, ?_, (path.trans others).step (.conclude 0) concludes,
      ⟨rfl, rfl⟩, rfl⟩
    simp [hold, Supply.allocateWhile, supplyOf, claims, Part.andThen, Supply.machineOf,
      Part.second, Supply.heap, created, caught, came, conclude_of_dedicated concluded]

theorem traced_give (block : Block) : Traced (give (δ := δ) block) := by
  rintro ⟨supply, machine, held⟩ lot ⟨same, alike⟩ sound
  simp only at same alike
  subst same alike
  rcases gave : Dedicated.deallocate block (lot.dedicated, lot.machine) with
    ⟨result, ⟨dedicated, machine⟩, events⟩
  obtain ⟨answer, after, told, freed, -⟩ := Lot.free_came sound.orderly block
  cases result with
  | error stop => simp [Lot.free, Lot.bothOf, gave] at freed
  | ok _ =>
    let ending : Lot δ := { lot with dedicated, machine }
    have frees : (LotStep.free block).run lot = ⟨.ok .nothing, ending, events⟩ := by
      simp [LotStep.run, Lot.free, Lot.bothOf, gave, ending]
    refine ⟨(), ⟨.dedicated dedicated, machine, held⟩, events, _, ending, ?_,
      Lot.Runs.start.step (.free block) frees, ⟨rfl, rfl⟩, rfl⟩
    simp [give, supplyOf, Supply.deallocate, Supply.byKind, gave]

theorem traced_free (place : Nat) (keep : Bool) :
    Traced (MemoryStep.run (δ := δ) (.free place keep)) := by
  intro client lot draws sound
  cases picked : Held.pick? client.held place keep with
  | none =>
    refine ⟨.freed none, client, [], [], lot, ?_, .start, draws, rfl⟩
    simp [MemoryStep.run, picked]
  | some given =>
    obtain ⟨block, held⟩ := given
    obtain ⟨_, left, events, answers, after, gave, path, draws, waiting⟩ :=
      traced_give block { client with held } lot ⟨draws.supply, draws.machine⟩ sound
    refine ⟨.freed (some block), left, events, answers, after, ?_, path, draws, waiting⟩
    simp [MemoryStep.run, picked, gave]

mutual

theorem traced_step : ∀ step : MemoryStep δ, Traced step.run
  | .allocate size => by
    unfold MemoryStep.run
    rw [on_allocate]
    exact traced_allocateWhile (traced_pure ()) size
  | .allocateWhile size meanwhile => by
    unfold MemoryStep.run
    exact traced_allocateWhile (traced_bind (traced_steps meanwhile) fun _ => traced_emit _) size
  | .free place keep => traced_free place keep
  | .freeBlock block => by
    unfold MemoryStep.run
    exact traced_bind (traced_give block) fun _ => traced_pure _
  | .describe => by
    intro client lot draws _
    exact ⟨_, client, [], [], lot, rfl, .start, draws, rfl⟩
  | .device change => by
    intro client lot draws _
    refine ⟨.nothing, _, [], _, _, rfl, Lot.Runs.start.step (.device change) rfl, ?_, rfl⟩
    exact ⟨draws.supply, congrArg
      (fun machine => { machine with device := change machine.device }) draws.machine⟩

theorem traced_steps : ∀ steps : List (MemoryStep δ), Traced (MemoryStep.runAll steps)
  | [] => traced_pure []
  | step :: rest => by
    unfold MemoryStep.runAll
    exact traced_bind (traced_step step) fun _ =>
      traced_bind (traced_steps rest) fun _ => traced_pure _

end

-- Whatever a caller does is a run of the lot, and at its end nothing is on the way.
theorem runAll_runs (heap : BufferHeap) (device : δ) (steps : List (MemoryStep δ)) :
    ∃ answers left events said lot,
      MemoryStep.runAll steps ⟨.dedicated (.ofHeap heap), .start device, []⟩ =
        ⟨.ok answers, left, events⟩ ∧
      (Lot.opened heap device).Runs said lot ∧ left.DrawsOn lot ∧ lot.waiting = [] :=
  traced_steps steps _ _ ⟨rfl, rfl⟩ (Lot.opened_sound heap device)

end Reclaim.MemoryClient
