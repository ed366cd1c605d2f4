import Reclaim.Device.Scripted
import Reclaim.Proofs.Context.Looking

namespace Reclaim

-- What keeps the first entry of a retirement queue there.
structure Foremost where
  completion : Bool
  last : Fences
  waits : List Wait
deriving DecidableEq

namespace Foremost

def ofObject {α : Type} (retired : Retired α) : Foremost :=
  ⟨retired.completion, retired.last, retired.waits⟩

def ofBlock {π : Type} (retired : RetiredBlock π) : Foremost := ⟨true, retired.last, []⟩

def isReady (timeline : Timeline) (board : Board) (front : Foremost) : Bool :=
  timeline.allows board front.completion front.last front.waits

-- No submitted batch of `fences` frees the entry: a condition of its own is not met, or in some
-- queue it was used in, the batch has not been submitted.
def Held (recording : Fences) (board : Board) (fences : Fences) (front : Foremost) : Prop :=
  (∃ wait ∈ front.waits, board.valueOf wait.fence < wait.value) ∨
    ∃ queue, front.last.get queue ≠ 0 ∧ recording.get queue ≤ fences.get queue

-- In no queue that both were used in has the one's batch been submitted and the other's not.
def Agrees (recording : Fences) (a b : Foremost) : Prop :=
  ∀ queue, a.last.get queue ≠ 0 → b.last.get queue ≠ 0 →
    (recording.get queue ≤ a.last.get queue ↔ recording.get queue ≤ b.last.get queue)

-- Why the entry was not let go when it was asked about, going by all that happened then.
def Refused (recording : Fences) (board : Board) (past : List Event) (front : Foremost) : Prop :=
  (∃ wait ∈ front.waits, board.valueOf wait.fence < wait.value) ∨
    ∃ queue, front.last.get queue ≠ 0 ∧
      if front.completion then ∃ seen, .observed queue seen ∈ past ∧ seen < front.last.get queue
      else recording.get queue ≤ front.last.get queue

-- The entry could go by what is known. A batch of its own was seen not to have completed, and to
-- have completed when it was next looked for; since then nobody has asked about the entry.
structure Missed (timeline : Timeline) (board : Board) (events : List Event) (front : Foremost) :
    Prop where
  ready : front.isReady timeline board = true
  passed : ∃ earlier asked looked queue unseen seen,
    events = earlier ++ asked ++ looked ∧ (∀ event ∈ asked ++ looked, event.isObserved = true) ∧
    .observed queue unseen ∈ asked ∧ .observed queue seen ∈ looked ∧
    unseen < front.last.get queue ∧ front.last.get queue ≤ seen

theorem Missed.prepend {timeline : Timeline} {board : Board} {events : List Event}
    {front : Foremost} (missed : front.Missed timeline board events) (before : List Event) :
    front.Missed timeline board (before ++ events) := by
  obtain ⟨ready, earlier, asked, looked, queue, unseen, seen, rfl, rest⟩ := missed
  refine ⟨ready, before ++ earlier, asked, looked, queue, unseen, seen, ?_, rest⟩
  simp only [List.append_assoc]

theorem Refused.append {recording : Fences} {board : Board} {past : List Event} {front : Foremost}
    (refused : front.Refused recording board past) (events : List Event) :
    front.Refused recording board (past ++ events) := by
  refine refused.imp_right fun ⟨queue, used, reason⟩ => ⟨queue, used, ?_⟩
  cases complete : front.completion with
  | true =>
    rw [complete] at reason
    obtain ⟨seen, told, early⟩ := reason
    exact ⟨seen, List.mem_append_left _ told, early⟩
  | false =>
    rw [complete] at reason
    exact reason

theorem Held.own {recording : Fences} {board : Board} {front other : Foremost}
    (held : front.Held recording board other.last) (agree : front.Agrees recording other) :
    front.Held recording board front.last := by
  rcases held with unmet | ⟨queue, used, unsubmitted⟩
  · exact .inl unmet
  · refine .inr ⟨queue, used, ?_⟩
    by_cases unused : other.last.get queue = 0
    · omega
    · exact (agree queue used unused).mpr unsubmitted

end Foremost

namespace Retirement

variable {α π : Type} {queue : Retirement α π} {timeline : Timeline} {board : Board}
  {fences : Fences} {front : Foremost}

def fronts (queue : Retirement α π) : List Foremost :=
  (queue.objects.head?.map Foremost.ofObject).toList ++
    (queue.blocks.head?.map Foremost.ofBlock).toList

theorem oldest?_reads (some_oldest : queue.oldest? = some fences) :
    (∀ front ∈ queue.fronts, ∀ q, front.last.get q ≤ fences.get q) ∧
      ∀ q, ∃ front ∈ queue.fronts, front.last.get q = fences.get q := by
  obtain ⟨objects, blocks, _, _⟩ := queue
  match objects, blocks with
  | [], [] => cases some_oldest
  | object :: _, [] =>
    cases some_oldest
    constructor
    · simp [fronts, Foremost.ofObject]
    · intro q
      exact ⟨Foremost.ofObject object, by simp [fronts], rfl⟩
  | [], block :: _ =>
    cases some_oldest
    constructor
    · simp [fronts, Foremost.ofBlock]
    · intro q
      exact ⟨Foremost.ofBlock block, by simp [fronts], rfl⟩
  | object :: _, block :: _ =>
    cases some_oldest
    have merged (q : Queue) : (object.last.merge block.last).get q =
        max (object.last.get q) (block.last.get q) := PerQueue.get_ofFn _ q
    constructor
    · refine List.forall_mem_cons.mpr ⟨fun q => ?_, List.forall_mem_cons.mpr ⟨fun q => ?_, ?_⟩⟩
      · rw [merged]
        exact Nat.le_max_left _ _
      · rw [merged]
        exact Nat.le_max_right _ _
      · exact List.forall_mem_nil _
    · intro q
      rw [merged]
      rcases Nat.le_total (object.last.get q) (block.last.get q) with le | le
      · exact ⟨Foremost.ofBlock block, by simp [fronts], (Nat.max_eq_right le).symm⟩
      · exact ⟨Foremost.ofObject object, by simp [fronts], (Nat.max_eq_left le).symm⟩

theorem fronts_of_none (none : queue.oldest? = none) : queue.fronts = [] := by
  obtain ⟨objects, blocks, _, _⟩ := queue
  match objects, blocks with
  | [], [] => rfl
  | _ :: _, [] | [], _ :: _ | _ :: _, _ :: _ => cases none

end Retirement

section Firmness

variable {δ : Type}

theorem Machine.firm_drop (resource : Resource) : Action.Firm (drop (δ := δ) resource) :=
  Action.firm_bind (Action.firm_modify _) fun _ => Action.firm_emit _

theorem Dedicated.firm_deallocate (block : Block) : Action.Firm (deallocate (δ := δ) block) := by
  unfold deallocate
  apply Action.firm_bind Action.firm_get
  intro both
  dsimp only
  cases both.1.live.get? block.heap with
  | none => exact Action.firm_note _
  | some heap =>
    apply Action.firm_bind (Action.firm_checked _)
    intro used
    apply Action.firm_bind (Action.firm_on (Action.firm_modify _))
    intro _
    exact Action.firm_on (Machine.firm_drop _)

theorem Buddy.firm_release (offset order : Nat) : Action.Firm (release offset order) :=
  Action.firm_bind Action.firm_get fun _ =>
    Action.firm_bind (Action.firm_checked _) fun _ => Action.firm_modify _

theorem Buddy.firm_deallocate (block : Block) : Action.Firm (deallocate (δ := δ) block) := by
  unfold deallocate
  apply Action.firm_bind Action.firm_get
  intro both
  dsimp only
  split
  · exact Action.firm_note _
  cases both.1.taken.get? (block.heap * both.1.heapSize + block.offset) with
  | none => exact Action.firm_note _
  | some order =>
    apply Action.firm_bind
    · apply Action.firm_on
      exact Action.firm_bind (Action.firm_modify _) fun _ => firm_release _ _
    intro _
    cases both.1.backing.get? block.heap with
    | none => exact Action.firm_pure _
    | some backing =>
      apply Action.firm_bind (Action.firm_checked _)
      intro blocks
      split
      · apply Action.firm_bind (Action.firm_on (Action.firm_modify _))
        intro _
        exact Action.firm_bind (Action.firm_on (Machine.firm_drop _)) fun _ => Action.firm_note _
      · exact Action.firm_on (Action.firm_modify _)

theorem Supply.firm_deallocate (block : Block) : Action.Firm (deallocate (δ := δ) block) := by
  rintro ⟨supply, machine⟩ error
  cases supply with
  | buddy buddy => exact Buddy.firm_deallocate block (buddy, machine) error
  | dedicated dedicated => exact Dedicated.firm_deallocate block (dedicated, machine) error

end Firmness

namespace Shared

variable {δ α κ : Type} {start shared trimmed middle after : Shared δ} {fences : Fences}
  {front : Foremost} {asked looked events : List Event}

section Fronts

variable {queue : Retirement Retiree Owner} {recording known : Fences} {board : Board}

-- What was refused though nothing more is to be waited for is held, by a batch of its own or of the
-- other entry at the front, or a batch of its own has come in the meantime.
theorem held_or_passed (oldest : queue.oldest? = some fences) (among : front ∈ queue.fronts)
    (refused : front.Refused recording board asked)
    (settled : ∀ q, Settled fences recording q looked) :
    (∃ other ∈ queue.fronts, front.Held recording board other.last) ∨
      ∃ q unseen seen, .observed q unseen ∈ asked ∧ .observed q seen ∈ looked ∧
        unseen < front.last.get q ∧ front.last.get q ≤ seen := by
  obtain ⟨within, reads⟩ := Retirement.oldest?_reads oldest
  rcases refused with unmet | ⟨q, used, refused⟩
  · exact .inl ⟨front, among, .inl unmet⟩
  have below := within front among q
  obtain ⟨other, present, same⟩ := reads q
  rcases settled q with unused | unsubmitted | ⟨seen, told, come⟩
  · omega
  · exact .inl ⟨other, present, .inr ⟨q, used, same ▸ unsubmitted⟩⟩
  · cases complete : front.completion with
    | false =>
      rw [complete] at refused
      exact .inl ⟨front, among, .inr ⟨q, used, refused⟩⟩
    | true =>
      rw [complete] at refused
      obtain ⟨unseen, before, early⟩ := refused
      exact .inr ⟨q, unseen, seen, before, told, early, Nat.le_trans below come⟩

theorem ready_of_settled (oldest : queue.oldest? = some fences) (among : front ∈ queue.fronts)
    (free : ¬ ∃ other ∈ queue.fronts, front.Held recording board other.last)
    (settled : ∀ q, Settled fences recording q looked)
    (remembered : ∀ q seen, .observed q seen ∈ looked → seen ≤ known.get q) :
    front.isReady ⟨known, recording⟩ board = true := by
  obtain ⟨within, reads⟩ := Retirement.oldest?_reads oldest
  refine Timeline.allows_iff.mpr ⟨fun q used => ?_, fun wait waited => ?_⟩
  · have below := within front among q
    obtain ⟨other, present, same⟩ := reads q
    have submitted : ¬ recording.get q ≤ fences.get q := fun unsubmitted =>
      free ⟨other, present, .inr ⟨q, used, same ▸ unsubmitted⟩⟩
    have come : fences.get q ≤ known.get q := by
      rcases settled q with unused | unsubmitted | ⟨seen, told, come⟩
      · omega
      · exact absurd unsubmitted submitted
      · exact Nat.le_trans come (remembered q seen told)
    split <;> dsimp only <;> omega
  · exact Nat.not_lt.mp fun unmet => free ⟨front, among, .inl ⟨wait, waited, unmet⟩⟩

end Fronts

theorem firm_giveBack (owner : Owner) (block : Block) :
    Action.Firm (giveBack (δ := δ) owner block) := by
  unfold giveBack
  split
  · exact Action.firm_on (Dedicated.firm_deallocate block)
  · exact Action.firm_on (Supply.firm_deallocate block)

variable [Device δ]

section Asking

variable {failed : Claims (Shared δ)}

theorem isDone_reads (completion : Bool) (queue : Queue) (fence : Nat) :
    Action.Meets (Reads start) (reading.isDone completion queue fence)
      (fun done past s => Reads (δ := δ) start past s ∧ (done = false → fence ≠ 0 ∧
        if completion then ∃ seen, .observed queue seen ∈ past ∧ seen < fence
        else start.recording.get queue ≤ fence)) failed := by
  unfold Reading.isDone
  by_cases unused : fence = 0
  · rw [if_pos unused]
    exact Action.meets_pure fun past s reads => ⟨reads, nofun⟩
  rw [if_neg unused]
  cases completion with
  | true =>
    refine Action.meets_bind (completedFence_reads queue) fun seen =>
      Action.meets_pure fun past s both => ⟨both.1, fun unready => ⟨unused, seen, both.2, ?_⟩⟩
    exact Nat.not_le.mp (of_decide_eq_false unready)
  | false =>
    refine Action.meets_bind (recordingFence_reads queue) fun recording =>
      Action.meets_pure fun past s both => ⟨both.1, fun unready => ⟨unused, ?_⟩⟩
    obtain ⟨reads, rfl⟩ := both
    exact reads.recording ▸ Nat.not_lt.mp (of_decide_eq_false unready)

theorem areDone_reads (completion : Bool) (last : Fences) (queues : List Queue) :
    Action.Meets (Reads start) (reading.areDone completion last queues)
      (fun done past s => Reads (δ := δ) start past s ∧ (done = false → ∃ queue,
        last.get queue ≠ 0 ∧
          if completion then ∃ seen, .observed queue seen ∈ past ∧ seen < last.get queue
          else start.recording.get queue ≤ last.get queue)) failed := by
  induction queues with
  | nil => exact Action.meets_pure fun past s reads => ⟨reads, nofun⟩
  | cons queue rest ih =>
    refine Action.meets_bind (isDone_reads completion queue _) fun done => ?_
    cases done with
    | true => exact Action.meets_before ih fun _ _ both => both.1
    | false =>
      exact Action.meets_pure fun past s both => ⟨both.1, fun _ => ⟨queue, both.2 rfl⟩⟩

theorem allows_reads (board : Board) (front : Foremost) :
    Action.Meets (Reads start) (reading.allows board front.completion front.last front.waits)
      (fun goes past s => Reads (δ := δ) start past s ∧
        (goes = false → front.Refused start.recording board past)) failed := by
  refine Action.meets_bind (areDone_reads front.completion front.last Queue.all) fun done => ?_
  cases done with
  | false => exact Action.meets_pure fun past s both => ⟨both.1, fun _ => .inr (both.2 rfl)⟩
  | true =>
    refine Action.meets_pure fun past s both => ⟨both.1, fun unmet => .inl ?_⟩
    simpa [Board.satisfiesAll, Board.satisfies, Board.isReached] using unmet

theorem retire_ends (retiree : Retiree) (last : Fences) (completion : Bool) (waits : List Wait)
    (shared : Shared δ) : (retire retiree last completion waits shared).result = .ok () := by
  let entry : Retired Retiree := ⟨retiree, last, completion, waits⟩
  obtain ⟨goes, asked, events, ran, -⟩ := (allows_reads shared.board ⟨completion, last, waits⟩
    [] shared (.refl shared)).surely
  replace ran : entry.mayGo reading shared.board shared = ⟨.ok goes, asked, events⟩ := ran
  simp only [retire, Keeper.addObject, Action.run_bind, Action.run_get, Run.andThen_ok, entry, ran]
  cases goes <;> rfl

end Asking

section Trimming

-- Nothing has been freed, for nothing at these fronts was ready when it was asked about.
def Passed (start : Shared δ) (fronts : List Foremost) : Claims (Shared δ) := fun past s =>
  Reads start past s ∧ ∀ front ∈ fronts, front.Refused start.recording start.board past

theorem line_passed {ι : Type} {mayGo : ι → Action (Shared δ) Bool}
    {take : ι → List ι → Action (Shared δ) Unit} (foremost : ι → Foremost) (items : List ι)
    (asks : ∀ item, Action.Meets (Reads start) (mayGo item)
      (fun goes past s => Reads start past s ∧
        (goes = false → (foremost item).Refused start.recording start.board past))
      fun _ _ => True) :
    Action.Meets (Reads start) (Action.drain mayGo take items)
      (fun taken past s => taken = 0 → Passed start (items.head?.map foremost).toList past s)
      fun _ _ => True := by
  refine Action.meets_drain_none items (fun none past s reads => ⟨reads, ?_⟩) fun item first => ?_
  · simp [none]
  · refine Action.meets_after (asks item) fun goes past s both unready => ⟨both.1, ?_⟩
    rw [Option.mem_def.mp first]
    exact fun front among => List.mem_singleton.mp among ▸ both.2 unready

theorem trimObjects_passed :
    Action.Meets (Reads start) (keeper.trimObjects reading start.board false)
      (fun objects past s => objects = 0 → Passed (δ := δ) start
        (start.retired.objects.head?.map Foremost.ofObject).toList past s)
      fun _ _ => True := by
  refine Action.meets_bind Action.meets_get fun seen => Action.meets_given
    (fun past s both => both.2 ▸ both.1.retired) fun (same : seen.retired = start.retired) => ?_
  change Action.Meets _ (Action.drain _ _ seen.retired.objects) _ _
  rw [same]
  refine Action.meets_before (line_passed Foremost.ofObject _ fun item => ?_) fun _ _ both => both.1
  exact allows_reads start.board (.ofObject item)

theorem trimBlocks_passed :
    Action.Meets (Reads start) (keeper.trimBlocks reading false)
      (fun blocks past s => blocks = 0 → Passed (δ := δ) start
        (start.retired.blocks.head?.map Foremost.ofBlock).toList past s)
      fun _ _ => True := by
  refine Action.meets_bind Action.meets_get fun seen => Action.meets_given
    (fun past s both => both.2 ▸ both.1.retired) fun (same : seen.retired = start.retired) => ?_
  change Action.Meets _ (Action.drain _ _ seen.retired.blocks) _ _
  rw [same]
  refine Action.meets_before (line_passed Foremost.ofBlock _ fun item => ?_) fun _ _ both => both.1
  refine Action.meets_after (allows_reads ⟨[]⟩ (.ofBlock item)) fun goes past s both =>
    ⟨both.1, fun unready => (both.2 unready).imp_left ?_⟩
  rintro ⟨wait, waited, -⟩
  cases waited

theorem trimRetired_passed (start : Shared δ) :
    Action.Meets (Reads start) (trimRetired false)
      (fun any past s => any = false → Passed start start.retired.fronts past s)
      fun _ _ => True := by
  refine Action.meets_bind Action.meets_get fun seen => Action.meets_given
    (fun past s both => both.2 ▸ both.1.board) fun (same : seen.board = start.board) => ?_
  rw [same]
  refine Action.meets_bind (Action.meets_before trimObjects_passed fun _ _ both => both.1)
    fun objects => ?_
  refine Action.meets_via (fun blocks past s => objects = 0 → blocks = 0 →
    Passed start start.retired.fronts past s) ?_ fun blocks => ?_
  · by_cases none : objects = 0
    · refine Action.meets_weaken (Action.meets_lasting (fun past =>
          ∀ front ∈ (start.retired.objects.head?.map Foremost.ofObject).toList,
            front.Refused start.recording start.board past)
        (fun past events refused front among => (refused front among).append events)
        trimBlocks_passed) (fun _ _ passed => ⟨(passed none).2, (passed none).1⟩)
        (fun blocks past s both _ empty => ⟨(both.2 empty).1, ?_⟩) fun _ _ _ => trivial
      exact List.forall_mem_append.mpr ⟨both.1, (both.2 empty).2⟩
    · exact Action.meets_after (Action.meets_trivially _) fun _ _ _ _ some_gone =>
        absurd some_gone none
  · by_cases none : objects = 0 ∧ blocks = 0
    · obtain ⟨rfl, rfl⟩ := none
      refine Action.meets_via (fun _ => Passed start start.retired.fronts)
        (Action.meets_before Action.meets_on_modify fun past s passed => passed rfl rfl)
        fun _ => Action.meets_pure fun _ _ passed _ => passed
    · have some_gone : 0 < objects + blocks := by omega
      rw [if_pos some_gone]
      refine Action.meets_bind (Action.meets_trivially _) fun _ =>
        Action.meets_bind (Action.meets_trivially _) fun _ => Action.meets_pure ?_
      simp [some_gone]

theorem trimRetired_false (ran : trimRetired false shared = ⟨.ok false, after, events⟩) :
    Reads shared events after ∧
      ∀ front ∈ shared.retired.fronts, front.Refused shared.recording shared.board events := by
  have passed := trimRetired_passed shared [] shared (.refl shared)
  rw [ran] at passed
  exact passed rfl

end Trimming

theorem reclaim_false (ran : reclaim shared = ⟨.ok false, after, events⟩) :
    ∃ trimmed earlier later, trimRetired false shared = ⟨.ok false, trimmed, earlier⟩ ∧
      events = earlier ++ later ∧
      (trimmed.retired.oldest? = none ∧ after = trimmed ∨
        ∃ fences waited middle waits ends, trimmed.retired.oldest? = some fences ∧
          waitEach fences Queue.all false trimmed = ⟨.ok waited, middle, waits⟩ ∧
          later = waits ++ ends ∧
          (waited = false ∧ after = middle ∧ ends = [] ∨
            waited = true ∧ trimRetired false middle = ⟨.ok false, after, ends⟩)) := by
  unfold reclaim at ran
  obtain ⟨freed, trimmed, earlier, later, first, rest, rfl⟩ := Action.ok_of_bind ran
  cases freed with
  | true => cases rest
  | false =>
    refine ⟨trimmed, earlier, later, first, rfl, ?_⟩
    cases oldest : trimmed.retired.oldest? with
    | none =>
      simp [oldest] at rest
      exact .inl ⟨rfl, rest.1.symm⟩
    | some fences =>
      replace rest : (waitEach fences Queue.all false >>= fun waited =>
          if waited then trimRetired false else return false) trimmed =
          ⟨.ok false, after, later⟩ := by
        rw [← rest]
        simp [oldest]
      obtain ⟨waited, middle, waits, ends, second, last, rfl⟩ := Action.ok_of_bind rest
      refine .inr ⟨fences, waited, middle, waits, ends, rfl, second, rfl, ?_⟩
      cases waited with
      | false =>
        cases last
        exact .inl ⟨rfl, rfl, rfl⟩
      | true => exact .inr ⟨rfl, last⟩

def Exhausted (events : List Event) (shared : Shared δ) : Prop :=
  ∀ front ∈ shared.retired.fronts,
    (front.Missed ⟨shared.known, shared.recording⟩ shared.board events ∧ ¬ Device.Quiet δ) ∨
      ∃ other ∈ shared.retired.fronts, front.Held shared.recording shared.board other.last

theorem reclaim_exhausts (ran : reclaim shared = ⟨.ok false, after, events⟩)
    (unfailed : Unfailed events) : Exhausted events after := by
  obtain ⟨trimmed, asked, later, first, rfl, came⟩ := reclaim_false ran
  obtain ⟨reads, refused⟩ := trimRetired_false first
  rcases came with ⟨oldest, rfl⟩ | ⟨fences, waited, middle, looked, ends, oldest, second, rfl, last⟩
  · intro front among
    rw [Retirement.fronts_of_none oldest] at among
    cases among
  have watched := waitEach_settles fences Queue.all false [] trimmed
    ⟨.refl trimmed, fun _ => .refl trimmed⟩
  rw [second] at watched
  obtain ⟨looks, still, settled⟩ := watched (unfailed_append.mp (unfailed_append.mp unfailed).2).1
  replace settled (q : Queue) := settled q q.mem_all
  intro front among
  rcases last with ⟨unwaited, rfl, rfl⟩ | ⟨-, last⟩
  · have read := (still unwaited).2
    have both := reads.trans read
    rw [reads.retired] at oldest
    rw [reads.recording] at settled
    rw [both.retired] at among
    rw [both.retired, both.recording, both.board, List.append_nil]
    by_cases held : ∃ other ∈ shared.retired.fronts,
        front.Held shared.recording shared.board other.last
    · exact .inr held
    obtain kept | ⟨q, unseen, seen, before, told, early, come⟩ :=
      held_or_passed oldest among (refused front among) settled
    · exact absurd kept held
    refine .inl ⟨⟨?_, [], asked, looked, q, unseen, seen, rfl, both.only, before, told, early, come⟩,
      fun quiet => ?_⟩
    · exact ready_of_settled oldest among held settled fun q seen told => (read.seen q seen told).2
    · have once := (both.still quiet q).2 unseen (List.mem_append_left _ before)
      have again := (both.still quiet q).2 seen (List.mem_append_right _ told)
      omega
  · obtain ⟨again, refused⟩ := trimRetired_false last
    rw [← looks.retired] at oldest
    rw [← looks.recording] at settled
    rw [again.retired] at among
    rw [again.retired, again.recording, again.board]
    obtain kept | ⟨q, unseen, seen, before, told, early, come⟩ :=
      held_or_passed oldest among (refused front among) settled
    · exact .inr kept
    -- What was seen before the second trim was remembered in it.
    have known : seen ≤ middle.known.get q := (looks.seen q seen told).2
    have below := (again.seen q unseen before).1
    omega

theorem keeper_firm : keeper.Handles (fun _ (x : Action (Shared δ) _) => Action.Firm x) reading where
  completed _ := Action.firm_of_ok fun _ => ⟨_, rfl⟩
  recording _ := Action.firm_of_ok fun _ => ⟨_, rfl⟩
  change _ := Action.firm_on (Action.firm_modify _)
  destroy _ := Action.firm_on (Machine.firm_drop _)
  giveBack := firm_giveBack
  tell _ _ := Action.firm_note _

theorem firm_trimRetired (teardown : Bool) : Action.Firm (trimRetired (δ := δ) teardown) :=
  Action.firm_bind Action.firm_get fun _ => keeper_firm.trim Action.firm_compositional _ teardown

-- A reclaim refuses nothing, so that no error of its own stands for the allocation's.
theorem firm_reclaim : Action.Firm (reclaim (δ := δ)) :=
  reclaim_composes Action.firm_compositional (firm_trimRetired false) fun fences =>
    waitEach_composes Action.firm_compositional keeper_firm.recording keeper_firm.completed
      (fun _ _ => Action.firm_attempt _) (fun _ => Action.firm_note _) fences _ _

theorem afterTry_short {again : Action (κ × Shared δ) α} {tried : Run (κ × Shared δ) α}
    {final : κ × Shared δ} {error : Error}
    (ran : afterTry again tried = ⟨.error (.error error), final, events⟩)
    (short : error.isOutOfMemory = true) :
    ∃ more, (reclaim tried.state.2 = ⟨.ok false, final.2, more⟩ ∧ events = tried.events ++ more) ∨
      ∃ eased rest, reclaim tried.state.2 = ⟨.ok true, eased, more⟩ ∧
        again (tried.state.1, eased) = ⟨.error (.error error), final, rest⟩ ∧
        events = tried.events ++ more ++ .noted .retrying :: rest := by
  match tried with
  | ⟨.ok _, _, _⟩ | ⟨.error (.fault _), _, _⟩ => cases ran
  | ⟨.error (.error refusal), (own, refused), earlier⟩ =>
    by_cases shortage : refusal.isOutOfMemory
    · simp only [afterTry, shortage, if_true] at ran
      have firm := firm_reclaim refused
      match freed : reclaim refused with
      | ⟨.ok true, eased, more⟩ =>
        rw [freed] at ran
        injection ran with came left happened
        refine ⟨more, .inr ⟨eased, _, rfl, ?_, happened.symm⟩⟩
        rw [← came, ← left]
      | ⟨.ok false, after, more⟩ =>
        rw [freed] at ran
        cases ran
        exact ⟨more, .inl ⟨rfl, rfl⟩⟩
      | ⟨.error (.error stop), after, more⟩ => exact absurd (congrArg Run.result freed) (firm stop)
      | ⟨.error (.fault fault), after, more⟩ =>
        rw [freed] at ran
        cases ran
    · simp only [afterTry, shortage] at ran
      cases ran
      exact absurd short shortage

theorem Exhausted.prepend (exhausted : Exhausted events shared) (before : List Event) :
    Exhausted (before ++ events) shared := fun front among =>
  (exhausted front among).imp_left fun missed => ⟨missed.1.prepend before, missed.2⟩

theorem tryAllocate_exhausts (attempt : Attempt κ δ α) {s final : κ × Shared δ} {error : Error}
    (ran : tryAllocate attempt s = ⟨.error (.error error), final, events⟩)
    (short : error.isOutOfMemory = true) (unfailed : Unfailed events) :
    Exhausted events final.2 := by
  induction fewer : s.2.pending using Nat.strongRecOn generalizing s events with
  | ind pending ih =>
    subst fewer
    rw [tryAllocate_eq] at ran
    obtain ⟨more, ⟨kept, rfl⟩ | ⟨eased, rest, freed, next, rfl⟩⟩ := afterTry_short ran short
    · exact (reclaim_exhausts kept (unfailed_append.mp unfailed).2).prepend _
    · have sheds := (sheds_reclaim (attempt.run s).state.2).2
      rw [freed] at sheds
      have settles := attempt.settles s
      have last := ih eased.pending (Nat.lt_of_lt_of_le (sheds rfl) settles) next
        (List.forall_mem_cons.mp (unfailed_append.mp unfailed).2).2 rfl
      exact (last.prepend [_]).prepend _

-- Where an allocation is given up and no wait has failed, each entry at the front has a condition
-- of its own that is not met, or was used in a queue in which the oldest object or the oldest block
-- waits for a batch that has not been submitted. It is a batch of its own if the two agree, as they
-- do where there is but one of them. Only on a device that may move while it is asked can an entry
-- be missed besides: its batch has come between the trim and the look for something to wait for.
theorem gaveUp_held (attempt : Attempt κ δ α) {s final : κ × Shared δ} {error : Error}
    (ran : tryAllocate attempt s = ⟨.error (.error error), final, events⟩)
    (short : error.isOutOfMemory = true) (unfailed : Unfailed events) :
    let left := final.2
    let missed (front : Foremost) : Prop :=
      front.Missed ⟨left.known, left.recording⟩ left.board events ∧ ¬ Device.Quiet δ
    (∀ front ∈ left.retired.fronts, missed front ∨
      ∃ other ∈ left.retired.fronts, front.Held left.recording left.board other.last) ∧
    ((∀ a ∈ left.retired.fronts, ∀ b ∈ left.retired.fronts, a.Agrees left.recording b) →
      ∀ front ∈ left.retired.fronts, missed front ∨
        front.Held left.recording left.board front.last) := by
  have exhausted := tryAllocate_exhausts attempt ran short unfailed
  refine ⟨exhausted, fun agree front among => (exhausted front among).imp_right ?_⟩
  rintro ⟨other, present, held⟩
  exact held.own (agree front among other present)

def press (closes : Bool) : Action (Shared Scripted) Unit := do
  let block ← suballocate .upload 1000 false
  retire (.object 1) ⟨1, 0, 0⟩ true []
  if closes then
    let _ ← closeBatch .graphics
  retireBlock block ⟨2, 0, 0⟩

def pressed? (closes : Bool) : Option (Shared Scripted) :=
  match Shared.create (.start Scripted.standard) .minimal ⟨[]⟩ () with
  | ⟨.ok shared, _, _⟩ => some (press closes shared).state
  | _ => none

def Attempt.refusing : Attempt Unit δ Unit where
  run := Action.refuse .outOfDeviceMemory
  settles _ := Nat.le_refl _

instance {events : List Event} : Decidable (Unfailed events) :=
  inferInstanceAs (Decidable (∀ event ∈ events, event.isFailedWait = false))

theorem pressed_some (closes : Bool) : (pressed? closes).isSome = true := by
  cases closes <;> decide +kernel

theorem refusing_run (closes : Bool) :
    ∃ start final events, pressed? closes = some start ∧
      tryAllocate .refusing ((), start) =
        ⟨.error (.error .outOfDeviceMemory), ((), final), events⟩ ∧ Unfailed events ∧
      final.retired.fronts = [⟨true, ⟨1, 0, 0⟩, []⟩, ⟨true, ⟨2, 0, 0⟩, []⟩] ∧
      final.recording = ⟨if closes then 2 else 1, 1, 1⟩ ∧
      (trimRetired false (waitFor .graphics 1 final).state).result = .ok closes := by
  let run := tryAllocate .refusing ((), (pressed? closes).get (pressed_some closes))
  have came : run.result = .error (.error .outOfDeviceMemory) := by
    cases closes <;> decide +kernel
  refine ⟨_, run.state.2, run.events, (Option.some_get (pressed_some closes)).symm, ?_, ?_⟩
  · rw [← came]
  · cases closes <;> decide +kernel

-- While the first batch is being recorded, both are rightly kept.
theorem gaveUp_held_recording :
    ∃ start final events, pressed? false = some start ∧
      tryAllocate .refusing ((), start) =
        ⟨.error (.error .outOfDeviceMemory), ((), final), events⟩ ∧
      final.retired.fronts.length = 2 ∧
      ∀ front ∈ final.retired.fronts, front.Held final.recording final.board front.last := by
  obtain ⟨start, final, events, made, ran, unfailed, fronts, recording, -⟩ := refusing_run false
  refine ⟨start, final, events, made, ran, by rw [fronts]; rfl, ?_⟩
  refine fun front among => ((gaveUp_held .refusing ran rfl unfailed).2 ?_ front among).resolve_left
    fun missed => missed.2 fun _ _ _ => rfl
  intro a _ b _ queue used also
  have first : final.recording.get queue = 1 := by
    rw [recording]
    cases queue <;> rfl
  rw [first]
  exact iff_of_true (Nat.pos_of_ne_zero used) (Nat.pos_of_ne_zero also)

theorem not_held_submitted (board : Board) :
    ¬ (⟨true, ⟨1, 0, 0⟩, []⟩ : Foremost).Held ⟨2, 1, 1⟩ board ⟨1, 0, 0⟩ := by
  rintro (⟨wait, none, -⟩ | ⟨queue, used, unsubmitted⟩)
  · cases none
  · cases queue <;> simp [PerQueue.get] at used unsubmitted

-- It is not so that whatever is at the front when an allocation is given up has a condition of its
-- own that is not met or a batch of its own that has not been submitted: here the object has
-- neither, and a wait for its batch would have freed it.
theorem gaveUp_early :
    ∃ start final events, pressed? true = some start ∧
      tryAllocate .refusing ((), start) =
        ⟨.error (.error .outOfDeviceMemory), ((), final), events⟩ ∧ Unfailed events ∧
      (∃ front ∈ final.retired.fronts,
        ¬ front.Held final.recording final.board front.last) ∧
      (trimRetired false (waitFor .graphics 1 final).state).result = .ok true := by
  obtain ⟨start, final, events, made, ran, unfailed, fronts, recording, freed⟩ := refusing_run true
  refine ⟨start, final, events, made, ran, unfailed, ⟨⟨true, ⟨1, 0, 0⟩, []⟩, ?_, ?_⟩, freed⟩
  · rw [fronts]
    exact List.mem_cons_self
  · rw [recording]
    exact not_held_submitted _

end Shared

-- A device on which the first graphics batch completes when it has been asked about so many times.
structure Countdown where
  asks : Nat

instance : Device Countdown where
  answer _ device := (.done, device)
  completed queue device :=
    match queue with
    | .graphics => (if device.asks = 0 then 1 else 0, ⟨device.asks - 1⟩)
    | .compute | .copy => (0, device)
  stride _ _ := 1
  cpuStart _ serial := serial
  gpuStart _ serial := serial

namespace Shared

def lagging? : Option (Shared Countdown) :=
  let retires : Action (Shared Countdown) Nat := do
    retire (.object 1) ⟨1, 0, 0⟩ true []
    closeBatch .graphics
  match Shared.create (.start ⟨2⟩) .minimal ⟨[]⟩ () with
  | ⟨.ok shared, _, _⟩ => some (retires shared).state
  | _ => none

theorem lagging_some : lagging?.isSome = true := by decide +kernel

-- Nor is it so of an entry that waits alone: its batch has come after the trim, nothing is waited
-- for any more, and the next trim would have freed it.
theorem gaveUp_missed :
    ∃ start final events, lagging? = some start ∧
      tryAllocate .refusing ((), start) =
        ⟨.error (.error .outOfDeviceMemory), ((), final), events⟩ ∧ Unfailed events ∧
      final.retired.fronts = [⟨true, ⟨1, 0, 0⟩, []⟩] ∧
      (∃ front ∈ final.retired.fronts,
        ¬ front.Held final.recording final.board front.last) ∧
      (trimRetired false final).result = .ok true := by
  let run := tryAllocate .refusing ((), lagging?.get lagging_some)
  have came : run.result = .error (.error .outOfDeviceMemory) := by decide +kernel
  have fronts : run.state.2.retired.fronts = [⟨true, ⟨1, 0, 0⟩, []⟩] := by decide +kernel
  have recording : run.state.2.recording = ⟨2, 1, 1⟩ := by decide +kernel
  refine ⟨_, run.state.2, run.events, (Option.some_get lagging_some).symm, ?_, by decide +kernel, fronts,
    ⟨⟨true, ⟨1, 0, 0⟩, []⟩, ?_, ?_⟩, by decide +kernel⟩
  · rw [← came]
  · rw [fronts]
    exact List.mem_cons_self
  · rw [recording]
    exact not_held_submitted _

end Shared

end Reclaim
