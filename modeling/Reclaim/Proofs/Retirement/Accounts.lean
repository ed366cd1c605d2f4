import Reclaim.Proofs.Retirement.Tracking
import Mathlib.Data.List.Perm.Basic
import Mathlib.Data.List.TakeWhile

namespace Reclaim

variable {α π ε : Type}

def Retired.Settled (moment : Moment) (retired : Retired α) : Prop :=
  (∀ queue, retired.last.get queue ≠ 0 →
    if retired.completion then retired.last.get queue ≤ moment.timeline.completed.get queue
    else retired.last.get queue < moment.timeline.recording.get queue) ∧
  ∀ wait ∈ retired.waits, wait.value ≤ moment.board.valueOf wait.fence

def RetiredBlock.Settled (moment : Moment) (retired : RetiredBlock π) : Prop :=
  ∀ queue, retired.last.get queue ≠ 0 →
    retired.last.get queue ≤ moment.timeline.completed.get queue

theorem Retired.settled_of_isReady {moment : Moment} {retired : Retired α}
    (ready : retired.isReady moment.timeline moment.board = true) : retired.Settled moment :=
  Timeline.allows_iff.mp ready

theorem RetiredBlock.settled_of_isReady {moment : Moment} {retired : RetiredBlock π}
    (ready : retired.isReady moment.timeline = true) : retired.Settled moment := by
  intro queue used
  have reached := (Timeline.allows_iff.mp ready).1 queue used
  simpa only [if_true] using reached

def Parting.object? : Parting α π → Option α
  | .object a => some a
  | .block _ _ => none

def Parting.block? : Parting α π → Option (π × Block)
  | .object _ => none
  | .block parent b => some (parent, b)

namespace Retirement.Leaving

theorem partings_objects (leaving : Leaving α π) :
    leaving.partings.filterMap Parting.object? = leaving.objects.map (·.object) := by
  have blocks (entries : List (RetiredBlock π)) :
      (entries.map fun retired => (.block retired.parent retired.block : Parting α π)).filterMap
        Parting.object? = [] := by
    simp [List.filterMap_map, Function.comp_def, Parting.object?]
  have objects (entries : List (Retired α)) :
      (entries.map fun retired => (.object retired.object : Parting α π)).filterMap
        Parting.object? = entries.map (·.object) := by
    simp [List.filterMap_map, Function.comp_def, Parting.object?]
  rw [partings, List.filterMap_append, objects, blocks, List.append_nil]

theorem partings_blocks (leaving : Leaving α π) :
    leaving.partings.filterMap Parting.block? =
      leaving.blocks.map fun retired => (retired.parent, retired.block) := by
  have blocks (entries : List (RetiredBlock π)) :
      (entries.map fun retired => (.block retired.parent retired.block : Parting α π)).filterMap
        Parting.block? = entries.map fun retired => (retired.parent, retired.block) := by
    simp [List.filterMap_map, Function.comp_def, Parting.block?]
  have objects (entries : List (Retired α)) :
      (entries.map fun retired => (.object retired.object : Parting α π)).filterMap
        Parting.block? = [] := by
    simp [List.filterMap_map, Function.comp_def, Parting.block?]
  rw [partings, List.filterMap_append, objects, blocks, List.nil_append]

end Retirement.Leaving

namespace RetirementCall

def takes (moment : Moment) (queue : Retirement α π) :
    RetirementCall α π → Retirement.Leaving α π × Retirement α π
  | object retired => queue.addObject moment.timeline moment.board retired
  | block retired => queue.addBlock moment.timeline retired
  | trim teardown => queue.trim moment.timeline moment.board teardown

def object? : RetirementCall α π → Option (Retired α)
  | object retired => some retired
  | block _ | trim _ => none

def block? : RetirementCall α π → Option (RetiredBlock π)
  | block retired => some retired
  | object _ | trim _ => none

end RetirementCall

-- How entries of one kind pass in a call: the one that comes in, and those that leave.
structure Passage (ε : Type) where
  entered : Option ε
  left : List ε

namespace Passage

def added (passage : Passage ε) : List ε := passage.entered.toList

def queued (passage : Passage ε) : List ε := if passage.left.isEmpty then passage.added else []

-- Those that left from the front: all of them, where none came in.
def trimmed (passage : Passage ε) : List ε :=
  if passage.entered.isNone then passage.left else []

@[simp] theorem added_some (entry : ε) (left : List ε) : added ⟨some entry, left⟩ = [entry] := rfl

@[simp] theorem added_none (left : List ε) : added ⟨none, left⟩ = [] := rfl

@[simp] theorem queued_stays (entry : ε) : queued ⟨some entry, []⟩ = [entry] := rfl

@[simp] theorem queued_leaves (entry : ε) : queued ⟨some entry, [entry]⟩ = [] := rfl

@[simp] theorem queued_none (left : List ε) : queued ⟨none, left⟩ = [] := by
  simp [queued]

@[simp] theorem trimmed_some (entry : ε) (left : List ε) : trimmed ⟨some entry, left⟩ = [] := rfl

@[simp] theorem trimmed_none (left : List ε) : trimmed ⟨none, left⟩ = left := rfl

end Passage

structure Turn (α π : Type) where
  moment : Moment
  call : RetirementCall α π
  left : Retirement.Leaving α π

def Turn.objects (turn : Turn α π) : Passage (Retired α) := ⟨turn.call.object?, turn.left.objects⟩

def Turn.blocks (turn : Turn α π) : Passage (RetiredBlock π) := ⟨turn.call.block?, turn.left.blocks⟩

structure Account (passages : List (Passage ε)) (waiting : List ε) (destroyed : Nat) : Prop where
  once : (passages.flatMap (·.left) ++ waiting).Perm (passages.flatMap (·.added))
  in_order : passages.flatMap (·.trimmed) ++ waiting = passages.flatMap (·.queued)
  counted : destroyed = (passages.flatMap (·.left)).length

namespace Account

variable {passages : List (Passage ε)} {waiting : List ε} {destroyed : Nat}

theorem opened : Account ([] : List (Passage ε)) [] 0 := ⟨.nil, rfl, rfl⟩

theorem enter (account : Account passages waiting destroyed) (entry : ε) :
    Account (passages ++ [⟨some entry, []⟩]) (waiting ++ [entry]) destroyed := by
  refine ⟨?_, ?_, ?_⟩
  · simpa using account.once.append_right [entry]
  · simp [← account.in_order]
  · simpa using account.counted

theorem leave (account : Account passages waiting destroyed) (entry : ε) :
    Account (passages ++ [⟨some entry, [entry]⟩]) waiting (destroyed + 1) := by
  refine ⟨?_, ?_, ?_⟩
  · have swap : ([entry] ++ waiting).Perm (waiting ++ [entry]) := List.perm_append_comm
    have last := swap.append_left (passages.flatMap (·.left))
    have once := account.once.append_right [entry]
    rw [List.append_assoc] at once
    simpa using last.trans once
  · simpa using account.in_order
  · simp [account.counted]

theorem trim {left : List ε} (account : Account passages (left ++ waiting) destroyed) :
    Account (passages ++ [⟨none, left⟩]) waiting (destroyed + left.length) := by
  refine ⟨?_, ?_, ?_⟩
  · simpa using account.once
  · simpa using account.in_order
  · simp [account.counted]

theorem pass (account : Account passages waiting destroyed) :
    Account (passages ++ [⟨none, []⟩]) waiting destroyed :=
  account.trim

theorem total (account : Account passages waiting destroyed) :
    destroyed + waiting.length = (passages.flatMap (·.added)).length := by
  rw [← account.once.length_eq, List.length_append, account.counted]

end Account

namespace Register

def Shows (kept : List Event → Prop) (queue : Retirement α π) (gone : List (Parting α π)) :
    Claims (Register α π) := fun past register => kept past ∧ register = ⟨queue, gone⟩

theorem write_shows (kept : List Event → Prop) (parting : Parting α π) (queue : Retirement α π)
    (gone : List (Parting α π)) {failed : Claims (Register α π)} :
    Action.Meets (Shows kept queue gone) (write parting)
      (fun _ => Shows kept queue (gone ++ [parting])) failed := by
  rintro past register ⟨told, rfl⟩
  exact ⟨(List.append_nil past).symm ▸ told, rfl⟩

theorem tracks (kept : List Event → Prop) :
    keeper.Tracks (Shows (α := α) (π := π) kept) fun _ _ => False where
  holds _ _ _ _ shown := shown.2 ▸ rfl
  change f queue gone := by
    rintro past register ⟨told, rfl⟩
    exact ⟨(List.append_nil past).symm ▸ told, rfl⟩
  destroy object queue gone := write_shows kept (.object object) queue gone
  giveBack parent block queue gone := write_shows kept (.block parent block) queue gone

theorem close_run (register : Register α π) :
    close register =
      ⟨.ok (), ⟨.empty, register.gone ++ register.queue.remains.partings⟩, []⟩ := by
  obtain ⟨_, _, _, ran, rfl, rfl⟩ := ((tracks (· = [])).close [] register ⟨rfl, rfl⟩).surely
  exact ran

end Register

theorem RetirementCall.run_exact (moment : Moment) (call : RetirementCall α π)
    (register : Register α π) :
    ∃ events, call.run moment register =
      ⟨.ok (), ⟨(call.takes moment register.queue).2,
        register.gone ++ (call.takes moment register.queue).1.partings⟩, events⟩ := by
  have shows : Register.Shows (fun _ => True) register.queue register.gone [] register :=
    ⟨trivial, rfl⟩
  have tracks := Register.tracks (α := α) (π := π) fun _ => True
  cases call with
  | object retired =>
    obtain ⟨_, _, events, ran, -, rfl⟩ := (tracks.addObject retired _ _ shows).surely
    exact ⟨events, ran⟩
  | block retired =>
    obtain ⟨_, _, events, ran, -, rfl⟩ := (tracks.addBlock retired _ _ shows).surely
    exact ⟨events, ran⟩
  | trim teardown =>
    obtain ⟨any, _, events, ran, -, -, rfl⟩ := (tracks.trim teardown
      (fun _ _ _ _ _ _ shown => ⟨trivial, shown.2⟩) _ _ shows).surely
    refine ⟨events ++ [], ?_⟩
    rw [RetirementCall.run, Action.run_bind, ran]
    rfl

namespace RetirementCall

variable {moment : Moment} {queue : Retirement α π}

theorem takes_objects {passages : List (Passage (Retired α))} (call : RetirementCall α π)
    (account : Account passages queue.objects queue.destroyedObjects) :
    Account (passages ++ [⟨call.object?, (call.takes moment queue).1.objects⟩])
      (call.takes moment queue).2.objects (call.takes moment queue).2.destroyedObjects := by
  cases call with
  | object retired =>
    simp only [takes, object?, Retirement.addObject]
    split
    · exact account.leave retired
    · exact account.enter retired
  | block retired =>
    simp only [takes, object?, Retirement.addBlock]
    split <;> exact account.pass
  | trim teardown =>
    rw [← List.takeWhile_append_dropWhile (l := queue.objects)
      (p := fun retired => teardown || retired.isReady moment.timeline moment.board)] at account
    exact account.trim

theorem takes_blocks {passages : List (Passage (RetiredBlock π))} (call : RetirementCall α π)
    (account : Account passages queue.blocks queue.destroyedBlocks) :
    Account (passages ++ [⟨call.block?, (call.takes moment queue).1.blocks⟩])
      (call.takes moment queue).2.blocks (call.takes moment queue).2.destroyedBlocks := by
  cases call with
  | object retired =>
    simp only [takes, block?, Retirement.addObject]
    split <;> exact account.pass
  | block retired =>
    simp only [takes, block?, Retirement.addBlock]
    split
    · exact account.leave retired
    · exact account.enter retired
  | trim teardown =>
    rw [← List.takeWhile_append_dropWhile (l := queue.blocks)
      (p := fun retired => teardown || retired.isReady moment.timeline)] at account
    exact account.trim

theorem ready_of_trim {entries : List ε} {ready : ε → Bool} {entry : ε}
    (left : entry ∈ entries.takeWhile (false || ready ·)) : ready entry = true := by
  simpa using List.mem_takeWhile_imp left

theorem takes_settled {call : RetirementCall α π} (staying : call ≠ .trim true) :
    (∀ retired ∈ (call.takes moment queue).1.objects, retired.Settled moment) ∧
      ∀ retired ∈ (call.takes moment queue).1.blocks, retired.Settled moment := by
  cases call with
  | object added =>
    simp only [takes, Retirement.addObject]
    split
    · rename_i ready
      exact ⟨by simpa using Retired.settled_of_isReady ready, by simp⟩
    · exact ⟨by simp, by simp⟩
  | block added =>
    simp only [takes, Retirement.addBlock]
    split
    · rename_i ready
      exact ⟨by simp, by simpa using RetiredBlock.settled_of_isReady ready⟩
    · exact ⟨by simp, by simp⟩
  | trim teardown =>
    cases teardown with
    | true => exact absurd rfl staying
    | false =>
      refine ⟨fun retired left => ?_, fun retired left => ?_⟩
      · exact Retired.settled_of_isReady (ready_of_trim left)
      · exact RetiredBlock.settled_of_isReady (ready_of_trim left)

end RetirementCall

inductive Register.Ran : List (Turn α π) → Register α π → Prop where
  | opened : Ran [] .opened
  | turn {turns : List (Turn α π)} {register : Register α π} (moment : Moment)
      (call : RetirementCall α π) :
      Ran turns register →
      Ran (turns ++ [⟨moment, call, (call.takes moment register.queue).1⟩])
        (call.run moment register).state

structure Accounts (turns : List (Turn α π)) (register : Register α π) : Prop where
  -- All that left was destroyed, in that order, and nothing else was.
  recorded : register.gone = turns.flatMap (·.left.partings)
  objects : Account (turns.map (·.objects)) register.queue.objects register.queue.destroyedObjects
  blocks : Account (turns.map (·.blocks)) register.queue.blocks register.queue.destroyedBlocks
  settled : ∀ turn ∈ turns, turn.call ≠ .trim true →
    (∀ retired ∈ turn.left.objects, retired.Settled turn.moment) ∧
      ∀ retired ∈ turn.left.blocks, retired.Settled turn.moment

namespace Register

theorem turn_accounts {turns : List (Turn α π)} {register : Register α π}
    (accounts : Accounts turns register) (moment : Moment) (call : RetirementCall α π) :
    Accounts (turns ++ [⟨moment, call, (call.takes moment register.queue).1⟩])
      (call.run moment register).state := by
  obtain ⟨events, ran⟩ := call.run_exact moment register
  rw [ran]
  refine ⟨?_, ?_, ?_, ?_⟩
  · simp [accounts.recorded]
  · simpa [Turn.objects] using call.takes_objects accounts.objects
  · simpa [Turn.blocks] using call.takes_blocks accounts.blocks
  · intro turn among
    rcases List.mem_append.mp among with earlier | last
    · exact accounts.settled turn earlier
    · obtain rfl := List.mem_singleton.mp last
      exact RetirementCall.takes_settled

theorem ran_accounts {turns : List (Turn α π)} {register : Register α π}
    (ran : Ran turns register) : Accounts turns register := by
  induction ran with
  | opened => exact ⟨rfl, .opened, .opened, fun _ none => absurd none List.not_mem_nil⟩
  | turn moment call _ accounts => exact turn_accounts accounts moment call

section Recording

variable {β : Type} {pick : Parting α π → Option β} {passage : Turn α π → Passage ε}
  {name : ε → β} {turns : List (Turn α π)}

theorem recorded_left
    (reads : ∀ turn, turn.left.partings.filterMap pick = (passage turn).left.map name) :
    (turns.flatMap (·.left.partings)).filterMap pick =
      ((turns.map passage).flatMap (·.left)).map name := by
  induction turns with
  | nil => rfl
  | cons turn rest ih =>
    simp only [List.flatMap_cons, List.map_cons, List.filterMap_append, List.map_append, ih, reads]

theorem closed_once {register : Register α π} {waiting : List ε} {destroyed : Nat}
    (accounts : Accounts turns register)
    (account : Account (turns.map passage) waiting destroyed)
    (reads : ∀ turn, turn.left.partings.filterMap pick = (passage turn).left.map name)
    (remains : register.queue.remains.partings.filterMap pick = waiting.map name) :
    ((register.gone ++ register.queue.remains.partings).filterMap pick).Perm
      (((turns.map passage).flatMap (·.added)).map name) := by
  rw [List.filterMap_append, accounts.recorded, recorded_left reads, remains, ← List.map_append]
  exact account.once.map name

end Recording

-- However the timeline and the fences move between the calls, the accounts are kept, every call
-- ends, what has left and what waits make up what came; and once the queue has gone, all that was
-- ever retired has been destroyed, each a single time.
theorem all_leave_once {turns : List (Turn α π)} {register : Register α π}
    (ran : Ran turns register) :
    Accounts turns register ∧
    (∀ moment (call : RetirementCall α π), (call.run moment register).result = .ok ()) ∧
    register.queue.destroyedObjects + register.queue.objects.length =
      ((turns.map (·.objects)).flatMap (·.added)).length ∧
    register.queue.destroyedBlocks + register.queue.blocks.length =
      ((turns.map (·.blocks)).flatMap (·.added)).length ∧
    ∃ closed, close register = ⟨.ok (), closed, []⟩ ∧
      closed.gone = register.gone ++ register.queue.remains.partings ∧
      (closed.gone.filterMap Parting.object?).Perm
        (((turns.map (·.objects)).flatMap (·.added)).map (·.object)) ∧
      (closed.gone.filterMap Parting.block?).Perm
        (((turns.map (·.blocks)).flatMap (·.added)).map
          fun retired => (retired.parent, retired.block)) := by
  have accounts := ran_accounts ran
  refine ⟨accounts, ?_, accounts.objects.total, accounts.blocks.total, _, close_run register, rfl,
    ?_, ?_⟩
  · intro moment call
    obtain ⟨events, did⟩ := call.run_exact moment register
    rw [did]
  · exact closed_once accounts accounts.objects (fun turn => turn.left.partings_objects)
      (Retirement.Leaving.partings_objects _)
  · exact closed_once accounts accounts.blocks (fun turn => turn.left.partings_blocks)
      (Retirement.Leaving.partings_blocks _)

theorem all_leave_once_four :
    let early : Moment := ⟨⟨⟨0, 0, 0⟩, ⟨2, 1, 1⟩⟩, ⟨[0]⟩⟩
    let late : Moment := ⟨⟨⟨1, 0, 0⟩, ⟨2, 1, 1⟩⟩, ⟨[5]⟩⟩
    let opening : Register Nat Nat := .opened
    let calls : List (Moment × RetirementCall Nat Nat) :=
      [(early, .object ⟨7, ⟨1, 0, 0⟩, true, [⟨0, 5⟩]⟩), (early, .block ⟨⟨0, 64, 0⟩, 3, ⟨1, 0, 0⟩⟩),
        (early, .object ⟨8, ⟨1, 0, 0⟩, false, []⟩), (late, .object ⟨9, ⟨2, 0, 0⟩, true, []⟩),
        (late, .trim false)]
    let register := calls.foldl (fun register turn => (turn.2.run turn.1 register).state) opening
    register.gone = [.object 8, .object 7, .block 3 ⟨0, 64, 0⟩] ∧
      register.queue.destroyedObjects + register.queue.objects.length = 3 ∧
      ∃ closed, close register = ⟨.ok (), closed, []⟩ ∧
        (closed.gone.filterMap Parting.object?).Perm [7, 8, 9] ∧
        (closed.gone.filterMap Parting.block?).Perm [(3, ⟨0, 64, 0⟩)] := by
  intro early late opening calls register
  have path := ((((Ran.opened.turn early (.object ⟨7, ⟨1, 0, 0⟩, true, [⟨0, 5⟩]⟩)).turn early
    (.block ⟨⟨0, 64, 0⟩, 3, ⟨1, 0, 0⟩⟩)).turn early (.object ⟨8, ⟨1, 0, 0⟩, false, []⟩)).turn late
    (.object ⟨9, ⟨2, 0, 0⟩, true, []⟩)).turn late (.trim false)
  obtain ⟨accounts, -, objects, -, closed, ended, -, objectsGone, blocksGone⟩ :=
    all_leave_once path
  exact ⟨accounts.recorded, objects, closed, ended, objectsGone, blocksGone⟩

end Register

end Reclaim
