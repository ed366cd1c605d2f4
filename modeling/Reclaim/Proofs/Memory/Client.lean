import Reclaim.Memory.Client
import Reclaim.Proofs.Memory.Reached

namespace Reclaim

variable {δ α β : Type}

mutual

-- The caller frees blocks that it holds, and each of them once.
def MemoryStep.isFair : MemoryStep δ → Bool
  | .allocateWhile _ meanwhile => MemoryStep.areFair meanwhile
  | .free _ keep => !keep
  | .freeBlock _ => false
  | .allocate _ | .describe | .device _ => true

def MemoryStep.areFair : List (MemoryStep δ) → Bool
  | [] => true
  | step :: rest => step.isFair && areFair rest

end

namespace MemoryClient

structure Stands (client : MemoryClient δ) (depot : Depot δ) : Prop where
  supply : client.supply = .buddy depot.buddy
  machine : client.machine = depot.machine
  held : client.held.Perm depot.held

theorem claim_of_buddy {size : Nat} {buddy after : Buddy} {machine : Machine δ}
    {result : Except Stop (Block ⊕ Claim)} {events : List Event}
    (ran : Buddy.claim size buddy = ⟨result, after, events⟩) :
    Supply.claim size (.buddy buddy, machine) = ⟨result.map fun
      | .inl block => .block block
      | .inr claim => .pending after.heapSize (.claim claim), (.buddy after, machine), events⟩ := by
  rcases result with stop | (block | claim) <;>
    simp [Supply.claim, Supply.byKind, Buddy.buddyOf, Part.first, ran, Except.map]

theorem conclude_of_buddy {claim : Claim} {made : Except Error Memory} {buddy after : Buddy}
    {machine left : Machine δ} {result : Except Stop Block} {events : List Event}
    (ran : Buddy.conclude claim made (buddy, machine) = ⟨result, (after, left), events⟩) :
    Supply.conclude (.claim claim) made (.buddy buddy, machine) =
      ⟨result, (.buddy after, left), events⟩ := by
  simp [Supply.conclude, Supply.byKind, ran]

variable [Device δ] {shape : Shape}

-- The depot comes where the operation leaves the caller, and those that waited still wait.
def Follows (shape : Shape) (x : Action (MemoryClient δ) α) : Prop :=
  ∀ client depot given, Stands client depot → depot.Sound shape given →
    ∃ a left events after, x client = ⟨.ok a, left, events⟩ ∧ depot.Reached after ∧
      left.Stands after ∧ after.waiting = depot.waiting

theorem follows_pure (a : α) : Follows shape (Pure.pure a : Action (MemoryClient δ) α) :=
  fun client depot _ stands _ => ⟨a, client, [], depot, rfl, .start, stands, rfl⟩

theorem follows_emit (event : Event) :
    Follows shape (Action.emit event : Action (MemoryClient δ) Unit) :=
  fun client depot _ stands _ => ⟨(), client, [event], depot, rfl, .start, stands, rfl⟩

theorem follows_bind {x : Action (MemoryClient δ) α} {f : α → Action (MemoryClient δ) β}
    (first : Follows shape x) (next : ∀ a, Follows shape (f a)) : Follows shape (x >>= f) := by
  intro client depot given stands sound
  obtain ⟨a, middle, events, between, ran, path, stands, waiting⟩ := first _ _ _ stands sound
  obtain ⟨given, sound⟩ := Depot.reached_sound path sound
  obtain ⟨b, left, more, after, came, rest, stands, still⟩ := next a _ _ _ stands sound
  refine ⟨b, left, events ++ more, after, ?_, path.trans rest, stands, still.trans waiting⟩
  rw [Action.run_bind, ran, Run.andThen_ok, came]

-- An allocation that waits is made memory for, then come the steps of the others, then its end.
theorem follows_suspended {between : Action (MemoryClient δ) Unit} (inner : Follows shape between)
    {depot : Depot δ} {given : List Claim} {claim : Claim} {rest : List Suspended}
    {held : List Block} (sound : depot.Sound shape given) (perm : held.Perm depot.held)
    (waits : depot.waiting = ⟨claim, none⟩ :: rest) :
    ∃ a left events after,
      hold (do
        let heap := (supplyOf.get (← Action.get)).1.heap
        let made ← Action.on (supplyOf.andThen Supply.machineOf)
          (Machine.createMemory heap depot.buddy.heapSize).attempt
        between
        Action.on supplyOf (Supply.conclude (.claim claim) made))
        ⟨.buddy depot.buddy, depot.machine, held⟩ = ⟨.ok a, left, events⟩ ∧
      depot.Reached after ∧ left.Stands after ∧ after.waiting = rest := by
  obtain ⟨result, made, machine, asked, created, caught⟩ :=
    Machine.createMemory_caught depot.buddy.heap depot.buddy.heapSize depot.machine
  let asking : Depot δ := { depot with machine, waiting := ⟨claim, some made⟩ :: rest }
  have make : (DepotStep.make 0).run depot = ⟨.ok .nothing, asking, asked⟩ := by
    simp [DepotStep.run, Depot.make, Depot.resume, Depot.machineOf, Depot.wait, waits, created,
      caught, asking]
  have path := Depot.Reached.start.ran (.make 0) make
  obtain ⟨given, sound⟩ := Depot.reached_sound path sound
  obtain ⟨done, left, more, middle, came, others, stands, still⟩ := inner
    ⟨.buddy depot.buddy, machine, held⟩ asking given ⟨rfl, rfl, perm⟩ sound
  obtain ⟨given, sound⟩ := Depot.reached_sound others sound
  obtain ⟨supply, machine, held⟩ := left
  obtain ⟨same, alike, perm⟩ := stands
  simp only at same alike perm
  subst same alike
  obtain ⟨answer, after, last, given, conclude, -⟩ := Depot.conclude_serves sound 0
  rcases concluded : Buddy.conclude claim made (middle.buddy, middle.machine) with
    ⟨result, ⟨buddy, machine⟩, finish⟩
  have ended : middle.waiting = ⟨claim, some made⟩ :: rest := still
  cases result with
  | error stop =>
    cases stop with
    | fault fault =>
      simp [Depot.conclude, Depot.resume, Depot.bothOf, ended, concluded] at conclude
    | error error =>
      let ending : Depot δ := { middle with buddy, machine, waiting := rest }
      have conclude : (DepotStep.conclude 0).run middle = ⟨.ok (.refused error), ending, finish⟩ := by
        simp [DepotStep.run, Depot.conclude, Depot.resume, Depot.bothOf, ended, concluded, ending]
      refine ⟨.refused error, ⟨.buddy buddy, machine, held⟩, asked ++ (more ++ finish), ending, ?_,
        (path.trans others).ran (.conclude 0) conclude, ⟨rfl, rfl, perm⟩, rfl⟩
      simp [hold, supplyOf, Part.andThen, Supply.machineOf, Part.second, Supply.heap, created,
        caught, came, conclude_of_buddy concluded]
  | ok block =>
    let ending : Depot δ := ⟨buddy, machine, block :: middle.held, rest⟩
    have conclude : (DepotStep.conclude 0).run middle = ⟨.ok (.block block), ending, finish⟩ := by
      simp [DepotStep.run, Depot.conclude, Depot.resume, Depot.bothOf, Depot.hold, ended, concluded,
        ending]
    refine ⟨.block block, ⟨.buddy buddy, machine, held ++ [block]⟩, asked ++ (more ++ finish), ending,
      ?_, (path.trans others).ran (.conclude 0) conclude,
      ⟨rfl, rfl, (List.perm_append_singleton _ _).trans (perm.cons _)⟩, rfl⟩
    simp [hold, supplyOf, Part.andThen, Supply.machineOf, Part.second, Supply.heap, created,
      caught, came, conclude_of_buddy concluded]

theorem follows_allocateWhile {between : Action (MemoryClient δ) Unit}
    (inner : Follows shape between) (size : Nat) :
    Follows shape (hold (Supply.allocateWhile supplyOf between size)) := by
  rintro ⟨supply, machine, held⟩ depot given ⟨same, alike, perm⟩ sound
  simp only at same alike perm
  subst same alike
  rcases Buddy.claim_run sound.buddy size with ⟨error, ran, -⟩ |
      ⟨cell, level, rest, -, outcome⟩
  · have refused : hold (Supply.allocateWhile supplyOf between size)
          ⟨.buddy depot.buddy, depot.machine, held⟩ =
        ⟨.ok (.refused error), ⟨.buddy depot.buddy, depot.machine, held⟩, []⟩ := by
      simp [hold, Supply.allocateWhile, supplyOf, claim_of_buddy ran, Except.map]
    exact ⟨_, _, _, _, refused, .start, ⟨rfl, rfl, perm⟩, rfl⟩
  rcases outcome with ⟨backing, -, ran⟩ | ⟨-, ran⟩
  · let block := depot.buddy.blockAt cell
    let claimed := depot.buddy.claimed cell level rest
    have request : (DepotStep.request size).run depot = ⟨.ok (.block block),
        { depot with
          buddy := claimed.more block backing
          held := block :: depot.held }, []⟩ := by
      simp [DepotStep.run, Depot.request, Depot.buddyOf, Depot.hold, ran, block, claimed]
    have granted : hold (Supply.allocateWhile supplyOf between size)
          ⟨.buddy depot.buddy, depot.machine, held⟩ =
        ⟨.ok (.block block),
          ⟨.buddy (claimed.more block backing), depot.machine, held ++ [block]⟩, []⟩ := by
      simp [hold, Supply.allocateWhile, supplyOf, claim_of_buddy ran, Except.map, block, claimed]
    exact ⟨_, _, _, _, granted, Depot.Reached.start.ran (.request size) request,
      ⟨rfl, rfl, (List.perm_append_singleton _ _).trans (perm.cons _)⟩, rfl⟩
  · let asking : Depot δ := { depot with
      buddy := depot.buddy.claimed cell level rest
      waiting := ⟨cell, none⟩ :: depot.waiting }
    have request : (DepotStep.request size).run depot = ⟨.ok .nothing, asking, []⟩ := by
      simp [DepotStep.run, Depot.request, Depot.buddyOf, Depot.wait, ran, asking]
    have path := Depot.Reached.start.ran (.request size) request
    obtain ⟨given, sound⟩ := Depot.reached_sound path sound
    obtain ⟨a, left, events, after, did, others, stands, still⟩ :=
      follows_suspended inner sound perm rfl
    refine ⟨a, left, events, after, ?_, path.trans others, stands, still⟩
    rw [← did]
    simp [hold, Supply.allocateWhile, supplyOf, claim_of_buddy ran, Except.map, asking]

theorem on_allocate (size : Nat) :
    Action.on (supplyOf (δ := δ)) (Supply.allocate size) =
      Supply.allocateWhile supplyOf (Pure.pure ()) size := by
  funext client
  unfold Supply.allocate Supply.allocateWhile
  rcases claimed : Supply.claim size (client.supply, client.machine) with ⟨result, both, events⟩
  cases result with
  | error stop => simp [supplyOf, claimed, Part.whole]
  | ok grant =>
    cases grant with
    | block block => simp [supplyOf, claimed, Part.whole]
    | pending bytes ticket =>
      rcases created : Machine.createMemory both.1.heap bytes both.2 with ⟨result, machine, asked⟩
      rcases result with (error | fault) | memory
      · simp [supplyOf, claimed, Part.whole, Part.andThen, Supply.machineOf, Part.second, created]
      · simp [supplyOf, claimed, Part.whole, Part.andThen, Supply.machineOf, Part.second, created]
      · simp [supplyOf, claimed, Part.whole, Part.andThen, Supply.machineOf, Part.second, created]

theorem follows_free (place : Nat) :
    Follows shape (MemoryStep.run (δ := δ) (.free place false)) := by
  rintro ⟨supply, machine, held⟩ depot given ⟨same, alike, perm⟩ sound
  simp only at same alike perm
  subst same alike
  cases found : held[place % held.length]? with
  | none =>
    refine ⟨.freed none, ⟨.buddy depot.buddy, depot.machine, held⟩, [], depot, ?_, .start,
      ⟨rfl, rfl, perm⟩, rfl⟩
    simp [MemoryStep.run, Held.pick?, found]
  | some block =>
    have present : block ∈ depot.held := perm.mem_iff.mp (List.mem_of_getElem? found)
    obtain ⟨index, listed⟩ := List.mem_iff_getElem?.mp present
    have left : (held.eraseIdx (place % held.length)).Perm (depot.held.eraseIdx index) :=
      (((Depot.perm_of_place found).symm.trans perm).trans (Depot.perm_of_place listed)).cons_inv
    obtain ⟨answer, after, last, -, freed, -⟩ := Depot.free_serves sound index
    rcases gave : Buddy.deallocate block (depot.buddy, depot.machine) with
      ⟨result, ⟨buddy, machine⟩, events⟩
    cases result with
    | error stop => simp [Depot.free, Depot.bothOf, listed, gave] at freed
    | ok _ =>
      let ending : Depot δ := ⟨buddy, machine, depot.held.eraseIdx index, depot.waiting⟩
      have free : (DepotStep.free index).run depot = ⟨.ok (.freed (some block)), ending, events⟩ := by
        simp [DepotStep.run, Depot.free, Depot.bothOf, listed, gave, ending]
      refine ⟨.freed (some block), ⟨.buddy buddy, machine, held.eraseIdx (place % held.length)⟩,
        events, ending, ?_, Depot.Reached.start.ran (.free index) free, ⟨rfl, rfl, left⟩, rfl⟩
      simp [MemoryStep.run, Held.pick?, found, give, supplyOf, Supply.deallocate, Supply.byKind, gave]

mutual

theorem follows_step : ∀ step : MemoryStep δ, step.isFair = true → Follows shape step.run
  | .allocate size, _ => by
    unfold MemoryStep.run
    rw [on_allocate]
    exact follows_allocateWhile (follows_pure ()) size
  | .allocateWhile size meanwhile, fair => by
    unfold MemoryStep.run
    refine follows_allocateWhile (follows_bind (follows_steps meanwhile ?_) fun _ => ?_) size
    · unfold MemoryStep.isFair at fair
      exact fair
    · exact follows_emit _
  | .free place keep, fair => by
    unfold MemoryStep.isFair at fair
    have gives : keep = false := by simpa using fair
    rw [gives]
    exact follows_free place
  | .freeBlock _, fair => by
    unfold MemoryStep.isFair at fair
    cases fair
  | .describe, _ => by
    intro client depot given stands sound
    exact ⟨_, client, [], depot, rfl, .start, stands, rfl⟩
  | .device change, _ => by
    intro client depot given stands sound
    exact ⟨.nothing, _, [], _, rfl, Depot.Reached.start.step (.device change),
      ⟨stands.supply, congrArg (fun machine => { machine with device := change machine.device })
        stands.machine, stands.held⟩, rfl⟩

theorem follows_steps : ∀ steps : List (MemoryStep δ), MemoryStep.areFair steps = true →
    Follows shape (MemoryStep.runAll steps)
  | [], _ => follows_pure []
  | step :: rest, fair => by
    unfold MemoryStep.areFair at fair
    obtain ⟨first, others⟩ := Bool.and_eq_true_iff.mp fair
    unfold MemoryStep.runAll
    refine follows_bind (follows_step step first) fun answer => ?_
    exact follows_bind (follows_steps rest others) fun answers => follows_pure _

end

-- Whatever a fair caller does, however its calls are nested, is a run of the depot, and at its end
-- nothing waits.
theorem runAll_reached {heap : BufferHeap} {layout : BuddyLayout} {buddy : Buddy} {device : δ}
    {steps : List (MemoryStep δ)} (accepted : Buddy.ofLayout? heap layout = .ok buddy)
    (fair : MemoryStep.areFair steps = true) :
    ∃ answers left events depot,
      MemoryStep.runAll steps ⟨.buddy buddy, .start device, []⟩ = ⟨.ok answers, left, events⟩ ∧
      (Depot.opened buddy device).Reached depot ∧ left.Stands depot ∧ depot.waiting = [] := by
  obtain ⟨shape, sound⟩ := Depot.opened_sound device accepted
  exact follows_steps steps fair _ _ [] ⟨rfl, rfl, .nil⟩ sound

end MemoryClient

end Reclaim
