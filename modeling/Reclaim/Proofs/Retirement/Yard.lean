import Reclaim.Retirement.Yard
import Reclaim.Proofs.Memory.Orderly
import Reclaim.Proofs.Retirement.Accounts

namespace Reclaim

variable {δ : Type}

def Event.object? : Event → Option Nat
  | .dropped (.object id) => some id
  | _ => none

-- The call that a step makes of the queue. A block is retired only where there was memory for it.
def YardStep.call? (result : Except Stop YardAnswer) : YardStep → Option (RetirementCall Nat Unit)
  | object id last completion waits => some (.object ⟨id, last, completion, waits⟩)
  | block _ last =>
    match result with
    | .ok (.block granted) => some (.block ⟨granted, (), last⟩)
    | .ok _ | .error _ => none
  | trim teardown => some (.trim teardown)
  | complete _ _ | record _ _ | signal _ _ | drop => none

def Parting.heaps (gone : List (Parting Nat Unit)) : List Nat :=
  (gone.filterMap Parting.block?).map (·.2.heap)

def Turn.heaps (turns : List (Turn Nat Unit)) : List Nat :=
  ((turns.map (·.blocks)).flatMap (·.added)).map (·.block.heap)

namespace Yard

def moment (yard : Yard δ) : Moment := ⟨yard.timeline, yard.board⟩

-- The events tell what objects have gone, and the allocator has the heaps of the blocks that have
-- not, of those that were ever granted.
structure Shows (granted : List Nat) (queue : Retirement Nat Unit) (gone : List (Parting Nat Unit))
    (past : List Event) (yard : Yard δ) : Prop where
  queue : yard.queue = queue
  orderly : yard.allocator.Orderly
  numbered : granted = List.range' 1 yard.allocator.lastId
  heaps : ∀ id, id ∈ yard.allocator.live.keys ↔ id ∈ granted ∧ id ∉ Parting.heaps gone
  objects : past.filterMap Event.object? = gone.filterMap Parting.object?

namespace Shows

variable {granted : List Nat} {queue : Retirement Nat Unit} {gone : List (Parting Nat Unit)}
  {past : List Event} {yard after : Yard δ}

theorem tell (shows : Shows granted queue gone past yard) (events : List Event)
    (quiet : events.filterMap Event.object? = []) (allocator : after.allocator = yard.allocator) :
    Shows granted after.queue gone (past ++ events) after where
  queue := rfl
  orderly := allocator ▸ shows.orderly
  numbered := allocator ▸ shows.numbered
  heaps := allocator ▸ shows.heaps
  objects := by rw [List.filterMap_append, quiet, List.append_nil, shows.objects]

theorem destroy (shows : Shows granted queue gone past yard) (id : Nat) (machine : Machine δ) :
    Shows granted queue (gone ++ [.object id]) (past ++ [.dropped (.object id)])
      { yard with machine } where
  queue := shows.queue
  orderly := shows.orderly
  numbered := shows.numbered
  heaps := by simpa [Parting.heaps, Parting.block?] using shows.heaps
  objects := by simp [shows.objects, Event.object?, Parting.object?]

theorem giveBack (shows : Shows granted queue gone past yard) (block : Block)
    {allocator : Dedicated} {events : List Event} (machine : Machine δ)
    (quiet : events.filterMap Event.object? = []) (orderly : allocator.Orderly)
    (same : allocator.lastId = yard.allocator.lastId)
    (left : ∀ id, id ∈ allocator.live.keys ↔ id ∈ yard.allocator.live.keys ∧ id ≠ block.heap) :
    Shows granted queue (gone ++ [.block () block]) (past ++ events)
      { yard with allocator, machine } where
  queue := shows.queue
  orderly := orderly
  numbered := shows.numbered.trans (congrArg (List.range' 1) same.symm)
  heaps id := by
    refine (left id).trans ?_
    rw [shows.heaps]
    simp [Parting.heaps, Parting.block?, and_assoc]
  objects := by simp [shows.objects, quiet, Parting.object?]

end Shows

theorem giveBack_shows {granted : List Nat} {queue : Retirement Nat Unit}
    {gone : List (Parting Nat Unit)} {failed : Claims (Yard δ)} (block : Block) :
    Action.Meets (Shows granted queue gone) (giveBack () block)
      (fun _ => Shows granted queue (gone ++ [.block () block])) failed := by
  intro past yard shows
  cases there : yard.allocator.live.get? block.heap with
  | none =>
    -- The block has gone back before, and its heap with it.
    have ran := Dedicated.deallocate_unknown yard.machine there
    rw [giveBack, Action.on_of_run allocatorOf ran]
    refine shows.giveBack block yard.machine rfl shows.orderly rfl fun id => ?_
    refine ⟨fun present => ⟨present, ?_⟩, And.left⟩
    rintro rfl
    exact Table.get?_eq_none_iff.mp there present
  | some heap =>
    have ran := shows.orderly.deallocate_found yard.machine there
    rw [giveBack, Action.on_of_run allocatorOf ran]
    refine shows.giveBack block _ rfl (shows.orderly.left there) rfl fun id => ?_
    simp [Dedicated.left, Table.keys, Table.erase]

theorem tracks [Device δ] (granted : List Nat) :
    keeper.Tracks (Shows (δ := δ) granted) fun _ _ => False where
  holds _ _ _ _ shows := shows.queue
  change f queue gone := by
    intro past yard shows
    let changed : Yard δ := { yard with queue := f yard.queue }
    have told : Shows granted changed.queue gone (past ++ []) changed := shows.tell [] rfl rfl
    simp only [changed, shows.queue] at told
    exact shows.queue ▸ told
  destroy id queue gone := fun past yard shows => shows.destroy id _
  giveBack _ block queue gone := giveBack_shows block

theorem trim_shows [Device δ] {granted : List Nat} {queue : Retirement Nat Unit}
    {gone : List (Parting Nat Unit)} {timeline : Timeline} {board : Board} (teardown : Bool) :
    Action.Meets (Shows (δ := δ) granted queue gone)
      (keeper.trim (.still timeline) board teardown)
      (fun _ => Keeper.Tracks.After (Shows granted) gone (queue.trim timeline board teardown))
      fun _ _ => False := by
  refine Action.meets_after ((tracks granted).trim teardown fun objects blocks queue gone => ?_)
    fun _ _ _ both => both.2
  intro past yard shows
  have told := shows.tell [.noted (.retirementTrimmed objects blocks)] rfl rfl
  exact shows.queue ▸ told

structure Follows (turns : List (Turn Nat Unit)) (register : Register Nat Unit)
    (past : List Event) (yard : Yard δ) : Prop where
  ran : Register.Ran turns register
  shows : Shows (Turn.heaps turns) register.queue register.gone past yard

end Yard

section Heaps

variable {turns : List (Turn Nat Unit)} {register : Register Nat Unit}

theorem Turn.heaps_concat (turn : Turn Nat Unit) :
    heaps (turns ++ [turn]) = heaps turns ++ turn.call.block?.toList.map (·.block.heap) := by
  simp [heaps, Turn.blocks, Passage.added]

theorem Parting.heaps_append (gone more : List (Parting Nat Unit)) :
    heaps (gone ++ more) = heaps gone ++ heaps more := by
  simp [heaps]

theorem Parting.heaps_partings (leaving : Retirement.Leaving Nat Unit) :
    heaps leaving.partings = leaving.blocks.map (·.block.heap) := by
  unfold heaps
  rw [leaving.partings_blocks, List.map_map]
  rfl

theorem Register.Ran.heaps_perm (ran : Register.Ran turns register) :
    (Parting.heaps register.gone ++ register.queue.blocks.map (·.block.heap)).Perm
      (Turn.heaps turns) := by
  have accounts := Register.ran_accounts ran
  have gone : Parting.heaps register.gone =
      ((turns.map (·.blocks)).flatMap (·.left)).map (·.block.heap) := by
    have left (turn : Turn Nat Unit) : turn.left.partings.filterMap Parting.block? =
        turn.blocks.left.map fun retired => (retired.parent, retired.block) :=
      turn.left.partings_blocks
    unfold Parting.heaps
    rw [accounts.recorded, Register.recorded_left left, List.map_map]
    rfl
  rw [gone, ← List.map_append]
  exact accounts.blocks.once.map _

end Heaps

namespace Yard

variable {turns : List (Turn Nat Unit)} {register : Register Nat Unit}
  {past now events : List Event}
  {yard after : Yard δ}

namespace Follows

theorem calls {β : Type} {x : Action (Yard δ) β} (ran : Register.Ran turns register)
    (moment : Moment) (call : RetirementCall Nat Unit) {granted : List Nat}
    (all : granted = Turn.heaps turns ++ call.block?.toList.map (·.block.heap))
    (meets : Action.Meets (Shows granted register.queue register.gone) x
      (fun _ => Keeper.Tracks.After (Shows granted) register.gone (call.takes moment register.queue))
      fun _ _ => False)
    (shows : Shows granted register.queue register.gone past yard) :
    ∃ a after events, x yard = ⟨.ok a, after, events⟩ ∧
      Follows (turns ++ [⟨moment, call, (call.takes moment register.queue).1⟩])
        (call.run moment register).state (past ++ events) after := by
  obtain ⟨a, after, events, ended, called⟩ := (meets past yard shows).surely
  refine ⟨a, after, events, ended, .turn moment call ran, ?_⟩
  obtain ⟨noted, state⟩ := call.run_exact moment register
  rw [state, Turn.heaps_concat, ← all]
  exact called

theorem still (follows : Follows turns register past yard) (events : List Event)
    (quiet : events.filterMap Event.object? = []) (allocator : after.allocator = yard.allocator)
    (queue : after.queue = yard.queue) : Follows turns register (past ++ events) after where
  ran := follows.ran
  shows := by
    rw [← follows.shows.queue, ← queue]
    exact follows.shows.tell events quiet allocator

theorem numbered_nodup (follows : Follows turns register past yard) : (Turn.heaps turns).Nodup := by
  rw [follows.shows.numbered]
  exact List.nodup_range'

theorem live_perm (follows : Follows turns register past yard) :
    yard.allocator.live.keys.Perm (yard.queue.blocks.map (·.block.heap)) := by
  have all := follows.ran.heaps_perm
  have distinct := all.nodup_iff.mpr follows.numbered_nodup
  obtain ⟨-, waiting, apart⟩ := List.nodup_append.mp distinct
  rw [follows.shows.queue, List.perm_ext_iff_of_nodup follows.shows.orderly.neat.distinct waiting]
  intro id
  rw [follows.shows.heaps, ← all.mem_iff, List.mem_append]
  refine ⟨fun ⟨either, remains⟩ => either.resolve_left remains, fun waits => ⟨.inr waits, ?_⟩⟩
  exact fun left => apart id left id waits rfl

theorem grant (follows : Follows turns register past yard) (memory : Memory) (size : Nat)
    (machine : Machine δ) (quiet : events.filterMap Event.object? = []) :
    Shows (Turn.heaps turns ++ [yard.allocator.lastId + 1]) register.queue register.gone
      (past ++ events)
      { yard with allocator := yard.allocator.entered memory size, machine } where
  queue := follows.shows.queue
  orderly := follows.shows.orderly.entered memory size
  numbered := by
    rw [follows.shows.numbered, Nat.add_comm _ 1, ← List.range'_1_concat]
    rfl
  heaps id := by
    have fresh : yard.allocator.lastId + 1 ∉ Parting.heaps register.gone := by
      intro gone
      have granted := follows.ran.heaps_perm.mem_iff.mp (List.mem_append_left _ gone)
      rw [follows.shows.numbered, List.mem_range'_1] at granted
      omega
    have keys : (yard.allocator.entered memory size).live.keys =
        (yard.allocator.lastId + 1) :: yard.allocator.live.keys := by
      simp [Dedicated.entered, Table.insert, Table.keys,
        Table.erase_of_get?_none follows.shows.orderly.neat.fresh]
    rw [keys, List.mem_cons, List.mem_append, List.mem_singleton, follows.shows.heaps]
    constructor
    · rintro (rfl | ⟨granted, remains⟩)
      · exact ⟨.inr rfl, fresh⟩
      · exact ⟨.inl granted, remains⟩
    · rintro ⟨granted | rfl, remains⟩
      · exact .inr ⟨granted, remains⟩
      · exact .inl rfl
  objects := by
    rw [List.filterMap_append, quiet, List.append_nil, follows.shows.objects]

end Follows

def Onward (turns : List (Turn Nat Unit)) (register : Register Nat Unit) (moment : Moment)
    (called : Option (RetirementCall Nat Unit)) (past : List Event) (yard : Yard δ) : Prop :=
  match called with
  | some call => Follows (turns ++ [⟨moment, call, (call.takes moment register.queue).1⟩])
      (call.run moment register).state past yard
  | none => Follows turns register past yard

variable [Device δ]

theorem block_refused (follows : Follows turns register past yard) {size : Nat} {last : Fences}
    {error : Error} {machine : Machine δ}
    (ran : Dedicated.allocate size (yard.allocator, yard.machine) =
      ⟨.error (.error error), (yard.allocator, machine), events⟩)
    (quiet : events.filterMap Event.object? = []) :
    let run := (YardStep.block size last).run yard
    run.returned = true ∧ Onward turns register yard.moment
      ((YardStep.block size last).call? run.result) (past ++ run.events) run.state := by
  have ended : (YardStep.block size last).run yard =
      ⟨.error (.error error), { yard with machine }, events⟩ := by
    simp [YardStep.run, allocate, allocatorOf, ran]
  rw [ended]
  exact ⟨rfl, follows.still events quiet rfl rfl⟩

theorem step_follows (step : YardStep) (stays : step ≠ .drop)
    (follows : Follows turns register past yard) :
    (step.run yard).returned = true ∧ Onward turns register yard.moment
      (step.call? (step.run yard).result) (past ++ (step.run yard).events)
      (step.run yard).state := by
  let moment : Moment := ⟨yard.timeline, yard.board⟩
  cases step with
  | object id last completion waits =>
    obtain ⟨_, after, events, ran, followed⟩ := Follows.calls follows.ran moment
      (.object ⟨id, last, completion, waits⟩) (List.append_nil _).symm ((tracks _).addObject _)
      follows.shows
    have ended : (YardStep.object id last completion waits).run yard =
        ⟨.ok .nothing, after, events⟩ := by simp [YardStep.run, moment, ran]
    rw [ended]
    exact ⟨rfl, followed⟩
  | block size last =>
    have allocated := yard.allocator.allocate_run yard.machine size
    generalize ran : Dedicated.allocate size (yard.allocator, yard.machine) = run at allocated
    cases allocated with
    | empty _ | denied | full => exact block_refused follows ran rfl
    | granted machine outcome memory =>
      have shows := follows.grant memory size machine
        (rfl : [Event.asked (.memory yard.allocator.heap size) outcome].filterMap _ = [])
      obtain ⟨_, after, events, added, followed⟩ := Follows.calls follows.ran moment
        (.block ⟨⟨0, size, yard.allocator.lastId + 1⟩, (), last⟩) rfl ((tracks _).addBlock _) shows
      have ended : (YardStep.block size last).run yard =
          ⟨.ok (.block ⟨0, size, yard.allocator.lastId + 1⟩), after,
            .asked (.memory yard.allocator.heap size) outcome :: events⟩ := by
        simp [YardStep.run, allocate, allocatorOf, ran, moment, added]
      rw [ended]
      rw [List.append_assoc] at followed
      exact ⟨rfl, followed⟩
  | trim teardown =>
    obtain ⟨any, after, events, ran, followed⟩ := Follows.calls follows.ran moment
      (.trim teardown) (List.append_nil _).symm (trim_shows teardown) follows.shows
    have ended : (YardStep.trim teardown).run yard =
        ⟨.ok (.trimmed any), after, events⟩ := by simp [YardStep.run, moment, ran]
    rw [ended]
    exact ⟨rfl, followed⟩
  | complete queue fence => exact ⟨rfl, follows.still [] rfl rfl rfl⟩
  | record queue fence => exact ⟨rfl, follows.still [] rfl rfl rfl⟩
  | signal fence value => exact ⟨rfl, follows.still [] rfl rfl rfl⟩
  | drop => exact absurd rfl stays

inductive Went (opening : Yard δ) : List Event → Yard δ → Prop where
  | opened : Went opening [] opening
  | step {past : List Event} {yard : Yard δ} (path : Went opening past yard) (step : YardStep)
      (stays : step ≠ .drop) :
      Went opening (past ++ (step.run yard).events) (step.run yard).state

omit [Device δ] in
theorem opened_follows (device : δ) (timeline : Timeline) (board : Board) :
    Follows [] .opened [] (opened device timeline board) :=
  ⟨.opened, rfl, Dedicated.ofHeap_orderly _, rfl, fun _ => ⟨nofun, nofun⟩, rfl⟩

-- A run of steps is a run of calls of a register: its queue, the objects destroyed and the order
-- they went in are the same, and the heaps in use are those of the blocks that wait.
theorem went_ran {device : δ} {timeline : Timeline} {board : Board}
    (path : Went (opened device timeline board) past yard) :
    ∃ turns register, Register.Ran turns register ∧ yard.queue = register.queue ∧
      past.filterMap Event.object? = register.gone.filterMap Parting.object? ∧
      yard.allocator.live.keys.Perm (yard.queue.blocks.map (·.block.heap)) := by
  suffices followed : ∃ turns register, Follows turns register past yard by
    obtain ⟨turns, register, follows⟩ := followed
    exact ⟨turns, register, follows.ran, follows.shows.queue, follows.shows.objects,
      follows.live_perm⟩
  induction path with
  | opened => exact ⟨_, _, opened_follows device timeline board⟩
  | step path step stays ih =>
    obtain ⟨turns, register, follows⟩ := ih
    have onward := (step_follows step stays follows).2
    unfold Onward at onward
    split at onward
    · exact ⟨_, _, onward⟩
    · exact ⟨_, _, onward⟩

theorem drop_closes (follows : Follows turns register past yard) :
    ∃ after events, YardStep.drop.run yard = ⟨.ok .nothing, after, events⟩ ∧
      after.queue = .empty ∧ after.allocator.live = [] ∧
      (past ++ events).filterMap Event.object? =
        (Register.close register).state.gone.filterMap Parting.object? := by
  obtain ⟨_, after, events, ran, shows⟩ := ((tracks _).close past yard follows.shows).surely
  refine ⟨after, events, by simp [YardStep.run, ran], shows.queue, ?_, ?_⟩
  · have none : after.allocator.live.keys = [] := by
      refine List.eq_nil_iff_forall_not_mem.mpr fun id present => ?_
      obtain ⟨granted, remains⟩ := (shows.heaps id).mp present
      rw [Parting.heaps_append, Parting.heaps_partings] at remains
      exact remains (follows.ran.heaps_perm.mem_iff.mpr granted)
    exact List.map_eq_nil_iff.mp none
  · rw [Register.close_run]
    exact shows.objects

end Yard

end Reclaim
