import Mathlib.Data.List.Chain
import Reclaim.Proofs.Fronts
import Reclaim.Proofs.Retirement.Accounts

namespace Reclaim

variable {α π ε : Type}

section Readiness

variable {timeline after : Timeline} {board : Board} {last : Fences}

-- Nothing has gone back meanwhile.
structure Moment.Before (earlier later : Moment) : Prop where
  completed : ∀ queue,
    earlier.timeline.completed.get queue ≤ later.timeline.completed.get queue
  recording : ∀ queue,
    earlier.timeline.recording.get queue ≤ later.timeline.recording.get queue
  fences : ∀ fence, earlier.board.valueOf fence ≤ later.board.valueOf fence

theorem Timeline.allows_lasts {before : Board} {completion : Bool} {waits : List Wait}
    (completed : ∀ queue, timeline.completed.get queue ≤ after.completed.get queue)
    (recording : ∀ queue, timeline.recording.get queue ≤ after.recording.get queue)
    (fences : ∀ fence, before.valueOf fence ≤ board.valueOf fence)
    (allowed : timeline.allows before completion last waits = true) :
    after.allows board completion last waits = true := by
  obtain ⟨come, met⟩ := allows_iff.mp allowed
  refine allows_iff.mpr ⟨fun queue used => ?_, fun wait among => ?_⟩
  · have reached := come queue used
    cases completion with
    | true => exact Nat.le_trans reached (completed queue)
    | false => exact Nat.lt_of_lt_of_le reached (recording queue)
  · exact Nat.le_trans (met wait among) (fences wait.fence)

theorem Retired.isReady_lasts {earlier later : Moment} (before : earlier.Before later)
    (retired : Retired α) (ready : retired.isReady earlier.timeline earlier.board = true) :
    retired.isReady later.timeline later.board = true :=
  Timeline.allows_lasts before.completed before.recording before.fences ready

theorem RetiredBlock.isReady_lasts {earlier later : Moment} (before : earlier.Before later)
    (retired : RetiredBlock π) (ready : retired.isReady earlier.timeline = true) :
    retired.isReady later.timeline = true :=
  Timeline.allows_lasts before.completed before.recording (fun _ => Nat.le_refl _) ready

-- Of no queue a later batch.
def Fences.UpTo (one other : Fences) : Prop := ∀ queue, one.get queue ≤ other.get queue

-- A queue that was never used has fence 0, which is below all others: whatever holds the earlier
-- one back holds the later one back.
theorem Timeline.allows_upTo {earlier : Fences} (upTo : earlier.UpTo last)
    (allowed : timeline.allows board true last [] = true) :
    timeline.allows board true earlier [] = true := by
  obtain ⟨come, -⟩ := allows_iff.mp allowed
  refine allows_iff.mpr ⟨fun queue used => ?_, nofun⟩
  have below := upTo queue
  have reached : last.get queue ≤ timeline.completed.get queue := come queue (by omega)
  exact Nat.le_trans below reached

end Readiness

theorem falls_of_upTo (ready : ε → Bool) {last : ε → Fences} {line : List ε}
    (ordered : line.IsChain fun older newer => (last older).UpTo (last newer))
    (passes : ∀ older ∈ line, ∀ newer ∈ line, (last older).UpTo (last newer) →
      ready newer = true → ready older = true) :
    line.Pairwise fun ahead behind => ready behind = true → ready ahead = true := by
  let UpTo (one other : ε) : Prop := (last one).UpTo (last other)
  have : Trans UpTo UpTo UpTo :=
    ⟨fun first second queue => Nat.le_trans (first queue) (second queue)⟩
  have every : line.Pairwise UpTo := List.IsChain.pairwise ordered
  exact every.imp_of_mem fun ahead behind => passes _ ahead _ behind

attribute [ext] Retirement

theorem Retirement.trim_staying (timeline : Timeline) (board : Board) (queue : Retirement α π) :
    let objectGoes : Retired α → Bool := Retired.isReady timeline board
    let blockGoes : RetiredBlock π → Bool := RetiredBlock.isReady timeline
    queue.trim timeline board false =
      (⟨queue.objects.takeWhile objectGoes, queue.blocks.takeWhile blockGoes⟩,
        { objects := queue.objects.dropWhile objectGoes
          blocks := queue.blocks.dropWhile blockGoes
          destroyedObjects :=
            queue.destroyedObjects + (queue.objects.takeWhile objectGoes).length
          destroyedBlocks := queue.destroyedBlocks + (queue.blocks.takeWhile blockGoes).length }) := by
  simp only [Retirement.trim, Bool.false_or]

namespace Register

-- In a queue whose entries were retired in the order of their batches, with nothing else to wait
-- for, a trim destroys what is ready and leaves what is not, as if it had looked at every entry.
theorem trim_misses_none {register : Register α π} (moment : Moment)
    (objects : register.queue.objects.IsChain fun older newer => older.last.UpTo newer.last)
    (blocks : register.queue.blocks.IsChain fun older newer => older.last.UpTo newer.last)
    (plain : ∀ retired ∈ register.queue.objects,
      retired.completion = true ∧ retired.waits = []) :
    let queue := register.queue
    let objectGoes : Retired α → Bool := Retired.isReady moment.timeline moment.board
    let blockGoes : RetiredBlock π → Bool := RetiredBlock.isReady moment.timeline
    let leaving : Retirement.Leaving α π :=
      ⟨queue.objects.filter objectGoes, queue.blocks.filter blockGoes⟩
    ∃ after events,
      (RetirementCall.trim false).run moment register = ⟨.ok (), after, events⟩ ∧
      after.gone = register.gone ++ leaving.partings ∧
      after.queue = {
        objects := queue.objects.filter (!objectGoes ·)
        blocks := queue.blocks.filter (!blockGoes ·)
        destroyedObjects := queue.destroyedObjects + leaving.objects.length
        destroyedBlocks := queue.destroyedBlocks + leaving.blocks.length } ∧
      (∀ retired ∈ after.queue.objects, objectGoes retired = false) ∧
      ∀ retired ∈ after.queue.blocks, blockGoes retired = false := by
  intro queue objectGoes blockGoes leaving
  have objectsFall := falls_of_upTo objectGoes objects
    fun older ahead newer behind upTo goes => by
      obtain ⟨complete, free⟩ := plain older ahead
      obtain ⟨complete', free'⟩ := plain newer behind
      simp only [objectGoes, Retired.isReady, complete, free, complete', free'] at goes ⊢
      exact Timeline.allows_upTo upTo goes
  have blocksFall := falls_of_upTo blockGoes blocks
    fun _ _ _ _ upTo goes => Timeline.allows_upTo upTo goes
  obtain ⟨objectsTaken, objectsLeft⟩ := front_eq_filter objectsFall
  obtain ⟨blocksTaken, blocksLeft⟩ := front_eq_filter blocksFall
  obtain ⟨events, ran⟩ := (RetirementCall.trim false).run_exact moment register
  rw [RetirementCall.takes, Retirement.trim_staying, objectsTaken, objectsLeft, blocksTaken,
    blocksLeft] at ran
  refine ⟨_, events, ran, rfl, rfl, ?_, ?_⟩
  · simp
  · simp

theorem trim_misses_none_three :
    let moment : Moment := ⟨⟨⟨2, 1, 0⟩, ⟨4, 2, 1⟩⟩, ⟨[]⟩⟩
    let register : Register Nat Nat :=
      ⟨⟨[⟨7, ⟨0, 1, 0⟩, true, []⟩, ⟨8, ⟨2, 1, 0⟩, true, []⟩, ⟨9, ⟨3, 1, 0⟩, true, []⟩],
        [⟨⟨0, 64, 0⟩, 3, ⟨2, 0, 0⟩⟩, ⟨⟨64, 64, 0⟩, 3, ⟨2, 0, 1⟩⟩], 4, 0⟩, []⟩
    ∃ after events, (RetirementCall.trim false).run moment register = ⟨.ok (), after, events⟩ ∧
      after.gone = [.object 7, .object 8, .block 3 ⟨0, 64, 0⟩] ∧
      after.queue.objects.map (·.object) = [9] ∧ after.queue.destroyedObjects = 6 ∧
      ∀ retired ∈ after.queue.blocks, retired.isReady moment.timeline = false := by
  intro moment register
  have upTo (one other : Fences) (graphics : one.graphics ≤ other.graphics)
      (compute : one.compute ≤ other.compute) (copy : one.copy ≤ other.copy) : one.UpTo other := by
    intro queue
    cases queue <;> assumption
  have objects : register.queue.objects.IsChain fun older newer => older.last.UpTo newer.last := by
    simp only [register, List.isChain_cons_cons, List.isChain_singleton, and_true]
    exact ⟨upTo _ _ (by decide) (by decide) (by decide),
      upTo _ _ (by decide) (by decide) (by decide)⟩
  have blocks : register.queue.blocks.IsChain fun older newer => older.last.UpTo newer.last := by
    simp only [register, List.isChain_cons_cons, List.isChain_singleton, and_true]
    exact upTo _ _ (by decide) (by decide) (by decide)
  obtain ⟨after, events, ran, gone, left, -, waits⟩ :=
    trim_misses_none moment objects blocks (by simp [register])
  refine ⟨after, events, ran, gone, ?_, ?_, waits⟩
  · rw [left]
    rfl
  · rw [left]
    rfl

end Register

section Confluence

def RetirementCall.trims : RetirementCall α π → Bool
  | trim false => true
  | object _ | block _ | trim true => false

theorem RetirementCall.eq_trim {call : RetirementCall α π} (trims : call.trims = true) :
    call = .trim false := by
  match call, trims with
  | .trim false, _ => rfl

def Turn.asked (turns : List (Turn α π)) : List (Moment × RetirementCall α π) :=
  (turns.filter (!·.call.trims)).map fun turn => (turn.moment, turn.call)

theorem Turn.asked_append (earlier later : List (Turn α π)) :
    asked (earlier ++ later) = asked earlier ++ asked later := by
  simp [asked]

theorem Turn.asked_trim {turn : Turn α π} (trims : turn.call.trims = true) : asked [turn] = [] := by
  simp [asked, trims]

theorem Turn.asked_other {turn : Turn α π} (other : turn.call.trims = false) :
    asked [turn] = [(turn.moment, turn.call)] := by
  simp [asked, other]

def Retirement.ofCalls (calls : List (Moment × RetirementCall α π)) : Retirement α π :=
  calls.foldl (fun queue call => (call.2.takes call.1 queue).2) .empty

-- A trim at the moment would leave the same of both.
structure Retirement.Alike (moment : Moment) (one other : Retirement α π) : Prop where
  objects : one.objects.dropWhile (Retired.isReady moment.timeline moment.board) =
    other.objects.dropWhile (Retired.isReady moment.timeline moment.board)
  blocks : one.blocks.dropWhile (RetiredBlock.isReady moment.timeline) =
    other.blocks.dropWhile (RetiredBlock.isReady moment.timeline)

namespace Retirement.Alike

variable {one other : Retirement α π} {now later : Moment}

theorem trim_first (alike : Alike later one other) (before : now.Before later) :
    Alike later (one.trim now.timeline now.board false).2 other where
  objects := by
    rw [trim_staying, ← alike.objects]
    exact dropWhile_dropWhile (Retired.isReady_lasts before) _
  blocks := by
    rw [trim_staying, ← alike.blocks]
    exact dropWhile_dropWhile (RetiredBlock.isReady_lasts before) _

theorem takes (alike : Alike later one other) {call : RetirementCall α π}
    (asked : call.trims = false) : Alike later (call.takes now one).2 (call.takes now other).2 := by
  obtain ⟨objects, blocks⟩ := alike
  cases call with
  | object retired =>
    simp only [RetirementCall.takes, addObject]
    split
    · exact ⟨objects, blocks⟩
    · exact ⟨dropWhile_append_congr objects _, blocks⟩
  | block retired =>
    simp only [RetirementCall.takes, addBlock]
    split
    · exact ⟨objects, blocks⟩
    · exact ⟨objects, dropWhile_append_congr blocks _⟩
  | trim teardown =>
    cases teardown with
    | false => cases asked
    | true =>
      have none_left {ι : Type} {entries : List ι} : entries.dropWhile (fun _ => true) = [] :=
        List.dropWhile_eq_nil_iff.mpr fun _ _ => rfl
      constructor <;> simp only [RetirementCall.takes, trim, Bool.true_or, none_left]

end Retirement.Alike

namespace Register

variable {turns : List (Turn α π)} {register : Register α π} {later : Moment}

-- The induction is on the calls, with the later moment fixed: it absorbs every trim before it.
theorem ran_alike (ran : Ran turns register) (past : ∀ turn ∈ turns, turn.moment.Before later) :
    Retirement.Alike later register.queue (.ofCalls (Turn.asked turns)) := by
  induction ran with
  | opened => exact ⟨rfl, rfl⟩
  | turn now call ran ih =>
    have alike := ih fun turn among => past turn (List.mem_append_left _ among)
    have before : now.Before later := past _ (List.mem_append_right _ List.mem_cons_self)
    obtain ⟨events, did⟩ := call.run_exact now _
    rw [did, Turn.asked_append]
    cases trims : call.trims with
    | true =>
      obtain rfl := RetirementCall.eq_trim trims
      rw [Turn.asked_trim trims, List.append_nil]
      exact alike.trim_first before
    | false =>
      rw [Turn.asked_other trims, Retirement.ofCalls, List.foldl_append]
      exact alike.takes trims

theorem added_asked {call? : RetirementCall α π → Option ε} (none_brought : call? (.trim false) = none)
    (turns : List (Turn α π)) :
    turns.flatMap (fun turn => (call? turn.call).toList) =
      (Turn.asked turns).flatMap fun call => (call? call.2).toList := by
  induction turns with
  | nil => rfl
  | cons turn rest ih =>
    rw [List.flatMap_cons, ih, ← List.singleton_append (l := rest), Turn.asked_append,
      List.flatMap_append]
    cases trims : turn.call.trims with
    | true => simp [Turn.asked_trim trims, RetirementCall.eq_trim trims, none_brought]
    | false => simp [Turn.asked_other trims]

end Register

theorem Account.left_perm {one other : List (Passage ε)} {waiting : List ε} {destroyed gone : Nat}
    (account : Account one waiting destroyed) (also : Account other waiting gone)
    (same : one.flatMap (·.added) = other.flatMap (·.added)) :
    (one.flatMap (·.left)).Perm (other.flatMap (·.left)) := by
  have both := account.once.trans (same ▸ also.once.symm)
  exact (List.perm_append_right_iff waiting).mp both

theorem partings_perm (turns : List (Turn α π)) :
    (turns.flatMap (·.left.partings)).Perm
      (((turns.map (·.objects)).flatMap (·.left)).map (fun retired => .object retired.object) ++
        ((turns.map (·.blocks)).flatMap (·.left)).map
          fun retired => .block retired.parent retired.block) := by
  have parted := List.flatMap_append_perm turns
    (fun turn => turn.left.objects.map fun retired => (.object retired.object : Parting α π))
    fun turn => turn.left.blocks.map fun retired => .block retired.parent retired.block
  simpa [List.flatMap_map, List.map_flatMap, Turn.objects, Turn.blocks,
    Retirement.Leaving.partings] using parted.symm

namespace Register

variable {one other : List (Turn α π)} {first second : Register α π} {last : Moment}

theorem destroyed_alike (ran : Ran one first) (also : Ran other second)
    (same : Turn.asked one = Turn.asked other) (objects : first.queue.objects = second.queue.objects)
    (blocks : first.queue.blocks = second.queue.blocks) :
    first.queue = second.queue ∧ first.gone.Perm second.gone := by
  have accounts := ran_accounts ran
  have also_accounts := ran_accounts also
  have objectsAdded : (one.map (·.objects)).flatMap (·.added) =
      (other.map (·.objects)).flatMap (·.added) := by
    simp only [List.flatMap_map, Turn.objects, Passage.added]
    rw [added_asked rfl, added_asked rfl, same]
  have blocksAdded : (one.map (·.blocks)).flatMap (·.added) =
      (other.map (·.blocks)).flatMap (·.added) := by
    simp only [List.flatMap_map, Turn.blocks, Passage.added]
    rw [added_asked rfl, added_asked rfl, same]
  have objectsLeft := accounts.objects.left_perm (objects ▸ also_accounts.objects) objectsAdded
  have blocksLeft := accounts.blocks.left_perm (blocks ▸ also_accounts.blocks) blocksAdded
  have objectsCount : first.queue.destroyedObjects = second.queue.destroyedObjects := by
    rw [accounts.objects.counted, also_accounts.objects.counted, objectsLeft.length_eq]
  have blocksCount : first.queue.destroyedBlocks = second.queue.destroyedBlocks := by
    rw [accounts.blocks.counted, also_accounts.blocks.counted, blocksLeft.length_eq]
  constructor
  · exact Retirement.ext objects blocks objectsCount blocksCount
  · rw [accounts.recorded, also_accounts.recorded]
    refine (partings_perm one).trans (List.Perm.trans ?_ (partings_perm other).symm)
    exact (objectsLeft.map _).append (blocksLeft.map _)

-- Two runs of which the same was asked at the same moments, with trims put in anywhere, come to the
-- same with a last trim: the same entries wait in the same order, the same ones have been destroyed,
-- and as many are counted. It is enough that nothing has gone back between a call and the last trim.
theorem trims_absorbed (ran : Ran one first) (also : Ran other second)
    (same : Turn.asked one = Turn.asked other) (past : ∀ turn ∈ one, turn.moment.Before last)
    (also_past : ∀ turn ∈ other, turn.moment.Before last) :
    ∃ left also_left events also_events,
      (RetirementCall.trim false).run last first = ⟨.ok (), left, events⟩ ∧
      (RetirementCall.trim false).run last second = ⟨.ok (), also_left, also_events⟩ ∧
      left.queue = also_left.queue ∧ left.gone.Perm also_left.gone := by
  have alike := ran_alike ran past
  have also_alike := ran_alike also also_past
  rw [← same] at also_alike
  obtain ⟨events, did⟩ := (RetirementCall.trim false).run_exact last first
  obtain ⟨also_events, also_did⟩ := (RetirementCall.trim false).run_exact last second
  have trimmed := ran.turn last (.trim false)
  have also_trimmed := also.turn last (.trim false)
  rw [did] at trimmed
  rw [also_did] at also_trimmed
  refine ⟨_, _, events, also_events, did, also_did, ?_⟩
  refine destroyed_alike trimmed also_trimmed ?_ ?_ ?_
  · rw [Turn.asked_append, Turn.asked_append, Turn.asked_trim rfl, Turn.asked_trim rfl, same]
  · simp only [RetirementCall.takes, Retirement.trim_staying]
    exact alike.objects.trans also_alike.objects.symm
  · simp only [RetirementCall.takes, Retirement.trim_staying]
    exact alike.blocks.trans also_alike.blocks.symm

theorem trims_absorbed_between :
    let early : Moment := ⟨⟨⟨0, 0, 0⟩, ⟨2, 1, 1⟩⟩, ⟨[0]⟩⟩
    let late : Moment := ⟨⟨⟨1, 0, 0⟩, ⟨3, 1, 1⟩⟩, ⟨[5]⟩⟩
    let entries (middle : List (Moment × RetirementCall Nat Nat)) :=
      [(early, .object ⟨7, ⟨1, 0, 0⟩, true, [⟨0, 5⟩]⟩)] ++ middle ++
        [(late, .object ⟨8, ⟨2, 0, 0⟩, false, []⟩), (late, .block ⟨⟨0, 64, 0⟩, 3, ⟨2, 0, 0⟩⟩)]
    let after (calls : List (Moment × RetirementCall Nat Nat)) : Register Nat Nat :=
      calls.foldl (fun register call => (call.2.run call.1 register).state) .opened
    ∃ left also_left events also_events,
      (RetirementCall.trim false).run late (after (entries [])) = ⟨.ok (), left, events⟩ ∧
      (RetirementCall.trim false).run late (after (entries [(late, .trim false)])) =
        ⟨.ok (), also_left, also_events⟩ ∧
      (after (entries [])).gone = [.object 8] ∧
      (after (entries [(late, .trim false)])).gone = [.object 7, .object 8] ∧
      left.queue = also_left.queue ∧ left.gone.Perm also_left.gone := by
  intro early late entries after
  have first := Ran.opened.turn early (.object (π := Nat) ⟨7, ⟨1, 0, 0⟩, true, [⟨0, 5⟩]⟩)
  have path := (first.turn late (.object ⟨8, ⟨2, 0, 0⟩, false, []⟩)).turn late
    (.block ⟨⟨0, 64, 0⟩, 3, ⟨2, 0, 0⟩⟩)
  have also := ((first.turn late (.trim false)).turn late
    (.object ⟨8, ⟨2, 0, 0⟩, false, []⟩)).turn late (.block ⟨⟨0, 64, 0⟩, 3, ⟨2, 0, 0⟩⟩)
  have before : early.Before late := by
    refine ⟨fun queue => ?_, fun queue => ?_, fun fence => ?_⟩
    · cases queue <;> decide
    · cases queue <;> decide
    · cases fence <;> simp [early, late, Board.valueOf]
  have still : late.Before late :=
    ⟨fun _ => Nat.le_refl _, fun _ => Nat.le_refl _, fun _ => Nat.le_refl _⟩
  obtain ⟨left, also_left, events, also_events, ran, also_ran, same⟩ :=
    @trims_absorbed _ _ _ _ _ _ late path also rfl (by simp [before, still])
      (by simp [before, still])
  exact ⟨left, also_left, events, also_events, ran, also_ran, rfl, rfl, same⟩

end Register

end Confluence

end Reclaim
