import Reclaim.Context.Session
import Reclaim.Device.Scripted
import Reclaim.Proofs.Context.HeapClock
import Reclaim.Proofs.Returns

namespace Reclaim

variable {σ δ α : Type} {caller : Bool} {start : Clock} {recording : Fences}

def ContextStep.waits : ContextStep δ → Bool
  | .waitFor .. => true
  | _ => false

namespace Session

def Tells (caller : Bool) (start : Clock) : Claims (Session δ) := fun past session =>
  session.shared.Tells caller start past

section Parts

theorem shared_tells {x : Action (Shared δ) α}
    (retains : Action.Retains (Shared.Tells caller start) x) :
    Action.Retains (Tells caller start) (withShared x) :=
  Action.meets_on (fun _ => rfl) fun _ => retains

theorem told_tells {x : Action (Shared δ) α}
    (retains : ∀ recording, Action.Retains (Shared.Told caller start recording) x) :
    Action.Retains (Tells caller start) (withShared x) :=
  shared_tells (Shared.tells_of_told retains)

theorem immediate_tells {x : Action (Immediate δ) α}
    (retains : Action.Retains (Immediate.Tells caller start) x) :
    Action.Retains (Tells caller start) (withImmediate x) := by
  rintro past ⟨shared, front, buffers, slots, blocks⟩ tells
  cases front with
  | sharedOnly | online heap => exact Action.retains_refuse .invalidParameter past _ tells
  | immediate view sampler =>
    let whole (now : Immediate δ) : Session δ :=
      ⟨now.shared, .immediate now.view now.sampler, buffers, slots, blocks⟩
    exact (retains past ⟨shared, view, sampler⟩ tells).image whole (fun _ _ _ told => told)
      fun _ _ told => told

theorem withOnline_run (kind : Option Kind) (x : Action (OnlineHeap × Shared δ) α)
    (session : Session δ) :
    withOnline kind x session = ⟨.error (.error .invalidParameter), session, []⟩ ∨
      ∃ earlier heap later, session.onlineHeaps = earlier ++ heap :: later ∧
        ∃ whole : OnlineHeap × Shared δ → Session δ,
          (∀ now, (whole now).onlineHeaps = earlier ++ now.1 :: later ∧
            (whole now).shared = now.2) ∧
          let run := x (heap, session.shared)
          withOnline kind x session = ⟨run.result, whole run.state, run.events⟩ := by
  obtain ⟨shared, front, buffers, slots, blocks⟩ := session
  cases front with
  | sharedOnly => exact .inl rfl
  | online heap =>
    let whole (now : OnlineHeap × Shared δ) : Session δ :=
      ⟨now.2, .online now.1, buffers, slots, blocks⟩
    exact .inr ⟨[], heap, [], rfl, whole, fun _ => ⟨rfl, rfl⟩, rfl⟩
  | immediate view sampler =>
    match kind with
    | none | some .target | some .depth => exact .inl rfl
    | some .view =>
      let whole (now : OnlineHeap × Shared δ) : Session δ :=
        ⟨now.2, .immediate now.1 sampler, buffers, slots, blocks⟩
      exact .inr ⟨[], view, [sampler], rfl, whole, fun _ => ⟨rfl, rfl⟩, rfl⟩
    | some .sampler =>
      let whole (now : OnlineHeap × Shared δ) : Session δ :=
        ⟨now.2, .immediate view now.1, buffers, slots, blocks⟩
      exact .inr ⟨[view], sampler, [], rfl, whole, fun _ => ⟨rfl, rfl⟩, rfl⟩

theorem online_tells {kind : Option Kind} {x : Action (OnlineHeap × Shared δ) α}
    (retains : ∀ recording, Action.Retains (OnlineHeap.Told caller start recording) x) :
    Action.Retains (Tells caller start) (withOnline kind x) := by
  intro past session tells
  rcases withOnline_run kind x session with refused | ⟨_, heap, _, -, whole, parts, ran⟩
  · rw [refused]
    exact Action.retains_refuse .invalidParameter past _ tells
  have back (now : List Event) (both : OnlineHeap × Shared δ)
      (told : both.2.Told caller start session.shared.recording now) :
      Tells caller start now (whole both) := by
    unfold Tells
    rw [(parts both).2]
    exact told.tells
  rw [ran]
  exact (retains session.shared.recording past (heap, session.shared) tells).image whole
    (fun _ => back) back

theorem aside_tells {x : Action (Session δ) α} (still : Action.Timeless x)
    (keeps : Action.Keeps Session.shared x) : Action.Retains (Tells caller start) x := by
  refine Action.retains_of_runs fun past session tells => ?_
  have same := keeps session
  exact (Shared.Told.quiet tells (still session) (congrArg Shared.known same)
    (congrArg Shared.recording same)).tells

theorem hold_tells (f : Session δ → Session δ)
    (aside : ∀ session, (f session).shared = session.shared) :
    Action.Retains (Tells caller start) (Action.modify f) :=
  aside_tells (Action.timeless_modify f) aside

theorem answer_tells {x : Action (Session δ) α} {f : α → ContextAnswer}
    (retains : Action.Retains (Tells caller start) x) :
    Action.Retains (Tells caller start) (x >>= fun a => return f a) :=
  Action.retains_bind retains fun _ => Action.retains_pure _

end Parts

section Closing

theorem dropHeaps_told (objects : List HeapObject) :
    Action.Retains (Shared.Told (δ := δ) caller start recording) (dropHeaps objects) :=
  Action.retains_each (fun _ => Shared.drop_told _) objects

variable [Device δ]

theorem closeShared_told :
    Action.Retains (Shared.Told (δ := δ) caller start recording) closeShared := by
  apply Action.retains_look
  intro shared
  apply Action.retains_bind (Action.retains_each (fun _ => Shared.drop_told _) _)
  intro _
  apply Action.retains_bind (dropHeaps_told _)
  intro _
  apply Action.retains_bind (Shared.keeper_told.close (Action.retains_compositional _))
  intro _
  apply Action.retains_look
  intro shared
  exact Action.retains_each (fun _ => Shared.drop_told _) _

theorem closeFront_tells : Action.Retains (Tells (δ := δ) caller start) closeFront := by
  apply Action.retains_look
  intro session
  have leaves : Action.Retains (Tells (δ := δ) caller start)
      (Action.modify fun session => { session with front := .sharedOnly }) :=
    hold_tells _ fun _ => rfl
  have settles : Action.Retains (Immediate.Tells (δ := δ) caller start) (do
      Immediate.settle
      let immediate ← Action.get
      Action.on Immediate.sharedOf
        (dropHeaps (immediate.view.objects ++ immediate.sampler.objects))) := by
    apply Action.retains_bind Immediate.settle_tells
    intro _
    apply Action.retains_look
    intro immediate
    exact Immediate.shared_tells (Shared.tells_of_told fun _ => dropHeaps_told _)
  split
  · exact Action.retains_pure _
  · exact Action.retains_bind (told_tells fun _ => dropHeaps_told _) fun _ => leaves
  · exact Action.retains_bind (immediate_tells settles) fun _ => leaves

theorem close_tells : Action.Retains (Tells (δ := δ) caller start) close := by
  apply Action.retains_look
  intro session
  apply Action.retains_bind
    (told_tells fun _ => Action.retains_each (fun _ => Shared.drop_told _) _)
  intro _
  refine Action.retains_bind (hold_tells _ fun _ => rfl) fun _ => ?_
  apply Action.retains_bind closeFront_tells
  intro _
  exact told_tells fun _ => closeShared_told

end Closing

section Steps

variable [Device δ]

theorem tryOutcomes_told (outcomes : List (Option Error)) :
    Action.Retains (Shared.Told (δ := δ) caller start recording) (tryOutcomes outcomes) := by
  intro past shared told
  have silent : Action.Timeless nextOutcome :=
    Action.timeless_silent fun ⟨outcomes, calls⟩ => by
      match outcomes with
      | [] | none :: _ | some _ :: _ => rfl
  have tried : Action.Retains (fun past s => s.2.Told caller start recording past)
      (outcomesAttempt (δ := δ)).run := by
    intro past s told
    have quiet := Shared.Told.quiet told (silent s.1) rfl rfl
    change Run.Ends (Action.on .first nextOutcome s) past _ _
    unfold Run.Ends
    split <;> exact quiet
  have ends := Action.retains_attempt (Shared.tryAllocate_told tried) past ((outcomes, 0), shared)
    told
  unfold tryOutcomes
  match Action.attempt (Shared.tryAllocate outcomesAttempt) ((outcomes, 0), shared), ends with
  | ⟨.ok _, _, _⟩, ends | ⟨.error _, _, _⟩, ends => exact ends

theorem step_tells (step : ContextStep δ) :
    Action.Retains (Tells step.waits start) step.run := by
  cases step with
  | submit queue => exact answer_tells (immediate_tells (Immediate.submit_tells queue))
  | flush mask => exact answer_tells (immediate_tells (Immediate.flush_tells mask))
  | waitForIdle queue => exact answer_tells (immediate_tells (Immediate.waitForIdle_tells queue))
  | trim => exact answer_tells (immediate_tells Immediate.trim_tells)
  | reserve kind slots =>
    exact answer_tells (online_tells fun _ => OnlineHeap.reserve_told slots)
  | handles kind slot =>
    refine online_tells fun _ => Action.retains_look fun both => ?_
    exact Action.retains_bind (OnlineHeap.aside_told (Action.timeless_checked _) fun s => by
      cases both.1.handles slot <;> rfl) fun _ => Action.retains_pure _
  | onlineInfo kind | onlineText kind =>
    exact online_tells fun _ => Action.retains_look fun _ => Action.retains_pure _
  | reclaimSlots completed =>
    exact answer_tells (online_tells fun _ => OnlineHeap.reclaimSlots_told completed)
  | trimParked threshold completed =>
    exact answer_tells (online_tells fun _ => OnlineHeap.trim_told threshold completed)
  | closeBatch queue => exact answer_tells (shared_tells (Shared.closeBatch_tells queue))
  | waitFor queue fence =>
    exact answer_tells (told_tells fun _ => Shared.waited_told queue fence (.inl rfl))
  | isReached queue fence =>
    exact answer_tells (told_tells fun _ => Shared.completed_told queue)
  | acquire heap size =>
    apply Action.retains_bind (told_tells fun _ => Shared.acquire_told heap size)
    intro buffer
    exact answer_tells (hold_tells _ fun _ => rfl)
  | release heap size place =>
    apply Action.retains_look
    intro session
    split
    · exact Action.retains_pure _
    · refine Action.retains_bind (hold_tells _ fun _ => rfl) fun _ => ?_
      exact answer_tells (told_tells fun _ => Shared.release_told heap size _)
  | allocateSlot kind =>
    apply Action.retains_bind (told_tells fun _ => Shared.allocateSlot_told kind)
    intro made
    exact answer_tells (hold_tells _ fun _ => rfl)
  | freeSlot place keep =>
    apply Action.retains_look
    intro session
    split
    · exact Action.retains_pure _
    · refine Action.retains_bind (hold_tells _ fun _ => rfl) fun _ => ?_
      exact answer_tells (told_tells fun _ => Shared.freeSlot_told _ _ _)
  | freeHandle kind handle index =>
    exact answer_tells (told_tells fun _ => Shared.freeSlot_told kind handle index)
  | manager kind index =>
    apply Action.retains_look
    intro session
    exact Action.retains_bind (aside_tells (Action.timeless_checked _) fun s => by
      cases (session.shared.slots.get kind).freeCount? index <;> rfl) fun _ =>
        Action.retains_pure _
  | suballocate heap size cannotBeOffset =>
    apply Action.retains_bind
      (told_tells fun _ => Shared.suballocate_told heap size cannotBeOffset)
    intro made
    exact answer_tells (hold_tells _ fun _ => rfl)
  | retireBlock place last =>
    apply Action.retains_look
    intro session
    split
    · exact Action.retains_pure _
    · refine Action.retains_bind (hold_tells _ fun _ => rfl) fun _ => ?_
      exact answer_tells (told_tells fun _ => Shared.retireBlock_told _ last)
  | retireObject id last completion waits =>
    exact answer_tells (told_tells fun _ => Shared.retire_told _ last completion waits)
  | signal fence value =>
    exact answer_tells (told_tells fun _ =>
      Shared.timeless_told (Action.timeless_modify _) fun _ => rfl)
  | trimRetired => exact answer_tells (told_tells fun _ => Shared.trimRetired_told false)
  | trimShared => exact answer_tells (told_tells fun _ => Shared.trim_told)
  | destroyAll => exact answer_tells (told_tells fun _ => Shared.trimRetired_told true)
  | tryOutcomes outcomes => exact told_tells fun _ => tryOutcomes_told outcomes
  | sharedText | config => exact Action.retains_look fun _ => Action.retains_pure _
  | contextText =>
    exact immediate_tells (Action.retains_look fun _ => Action.retains_pure _)
  | device change =>
    exact answer_tells (told_tells fun _ =>
      Shared.part_told (Action.timeless_modify _) fun _ _ => rfl)
  | drop => exact answer_tells close_tells

theorem waitFor_reaches (queue : Queue) (fence : Nat) {answer : ContextAnswer}
    {session after : Session δ} {events : List Event}
    (ran : (ContextStep.waitFor queue fence).run session = ⟨.ok answer, after, events⟩) :
    fence ≤ after.shared.known.get queue := by
  have ends := Shared.waitFor_told queue fence (.inl rfl) [] session.shared (.none_yet _)
  simp only [ContextStep.run, withShared, sharedOf, Action.run_bind, Action.run_on] at ran
  rcases waited : Shared.waitFor queue fence session.shared with ⟨result, now, more⟩
  rw [waited] at ends ran
  cases result with
  | ok done =>
    cases ran
    exact ends.2
  | error stop => cases ran

end Steps

-- Something done with a context: a step of the caller's, or the making of the context or of the
-- heaps beside it. It may have come to its end or not.
structure Deed (δ : Type) where
  step : Option (ContextStep δ)
  succeeded : Bool
  events : List Event

namespace Deed

def waits (deed : Deed δ) : Bool := deed.step.any ContextStep.waits

def ofRun (step : Option (ContextStep δ)) (run : Run σ α) : Deed δ :=
  ⟨step, run.result.toBool, run.events⟩

def trace (deeds : List (Deed δ)) : List Event := deeds.flatMap events

end Deed

section Running

variable [Device δ] {config : Config} {deeds : List (Deed δ)} {session : Session δ}

-- A context and what has been done with it, in order, from its making on. Nothing is left out: what
-- was refused, what faulted half way and the end of the context are deeds like any other.
inductive Recorded (config : Config) : List (Deed δ) → Session δ → Prop where
  | opened {device : δ} {board : Board} {shared : Shared δ}
      (made : (Shared.create (.start device) config board ()).result = .ok shared) :
      Recorded config [.ofRun none (Shared.create (.start device) config board ())]
        ⟨shared, .sharedOnly, [], [], []⟩
  | fronted {deeds : List (Deed δ)} {session : Session δ} {mode : Mode} {front : Front}
      (path : Recorded config deeds session)
      (made : (openFront mode session.shared).result = .ok front) :
      Recorded config (deeds ++ [.ofRun none (openFront mode session.shared)])
        { session with shared := (openFront mode session.shared).state, front }
  | unfronted {deeds : List (Deed δ)} {session : Session δ} {mode : Mode} {stop : Stop}
      (path : Recorded config deeds session)
      (refused : (openFront mode session.shared).result = .error stop) :
      Recorded config (deeds ++ [.ofRun none (openFront mode session.shared)])
        { session with shared := (openFront mode session.shared).state }
  | step {deeds : List (Deed δ)} {session : Session δ} (path : Recorded config deeds session)
      (step : ContextStep δ) :
      Recorded config (deeds ++ [.ofRun (some step) (step.run session)]) (step.run session).state

theorem openFront_told (mode : Mode) :
    Action.Retains (Shared.Told (δ := δ) caller start recording) (openFront mode) := by
  cases mode with
  | sharedOnly => exact Action.retains_pure _
  | immediate =>
    apply Action.retains_look
    intro shared
    exact Action.retains_bind (Immediate.createHeaps_tells _) fun _ => Action.retains_pure _
  | online kind config =>
    exact Action.retains_bind (OnlineHeap.create_told kind config) fun _ => Action.retains_pure _

theorem front_tells (mode : Mode) (shared : Shared δ) :
    (openFront mode shared).state.Tells false ⟨shared.known, shared.recording⟩
      (openFront mode shared).events :=
  (Shared.tells_of_told fun _ => openFront_told mode).run (.none_yet shared)

theorem create_tells {device : δ} {board : Board} {shared : Shared δ}
    (made : (Shared.create (.start device) config board ()).result = .ok shared) :
    shared.Told false .start shared.recording
      (Shared.create (.start device) config board ()).events := by
  have chooses (heap : BufferHeap) :
      Action.Timeless (Shared.chooseAllocators (σ := Unit) config heap) := by
    apply Action.timeless_bind (Action.timeless_settle _)
    intro layout
    exact Action.timeless_bind (Supply.timeless_choose heap _ layout) fun _ =>
      Action.timeless_pure _
  have still : Action.Timeless (Shared.create (σ := Unit) (.start device) config board) := by
    apply Action.timeless_bind (chooses .upload)
    intro upload
    apply Action.timeless_bind (chooses .readback)
    intro readback
    exact Action.timeless_bind (Action.timeless_note rfl) fun _ => Action.timeless_pure _
  have begins : Action.Returns (fun _ : Unit => True) (Shared.create (.start device) config board)
      (fun shared _ => shared.known = .unused ∧ shared.recording = ⟨1, 1, 1⟩) fun _ => True := by
    refine Action.returns_bind (Action.preserves_fact True _) fun upload => ?_
    refine Action.returns_bind (Action.preserves_fact True _) fun readback => ?_
    refine Action.returns_bind (Action.preserves_fact True _) fun _ => ?_
    exact Action.returns_pure fun _ _ => ⟨rfl, rfl⟩
  obtain ⟨known, recording⟩ := (begins () trivial).of_ok made
  obtain ⟨accepts, heard⟩ := Clock.accepts_timeless (still ())
  refine ⟨accepts, heard.trans ?_, rfl⟩
  rw [known, recording]
  rfl

theorem concat_split {items earlier later : List α} {last item : α}
    (split : items ++ [last] = earlier ++ item :: later) :
    (later = [] ∧ items = earlier ∧ last = item) ∨
      ∃ between, later = between ++ [last] ∧ items = earlier ++ item :: between := by
  rcases List.eq_nil_or_concat later with rfl | ⟨between, final, rfl⟩
  · obtain ⟨same, only⟩ := List.append_inj' split rfl
    exact .inl ⟨rfl, same, (List.cons.inj only).1⟩
  · have apart : items ++ [last] = (earlier ++ item :: between) ++ [final] := by
      simpa using split
    obtain ⟨same, only⟩ := List.append_inj' apart rfl
    obtain rfl := (List.cons.inj only).1
    exact .inr ⟨between, List.concat_eq_append, same⟩

structure Recounts (deeds : List (Deed δ)) (session : Session δ) : Prop where
  told : session.shared.Told true .start session.shared.recording (Deed.trace deeds)
  unrefused : ∀ deed ∈ deeds, deed.waits = false → ∀ fence queue,
    .noted (.waitUnsubmitted fence queue) ∉ deed.events
  reached : ∀ earlier deed later queue fence, deeds = earlier ++ deed :: later →
    deed.step = some (.waitFor queue fence) → deed.succeeded = true →
    fence ≤ (Clock.start.after (Deed.trace (earlier ++ [deed]))).known.get queue

omit [Device δ] in
theorem trace_concat (deeds : List (Deed δ)) (deed : Deed δ) :
    Deed.trace (deeds ++ [deed]) = Deed.trace deeds ++ deed.events := by
  simp [Deed.trace]

omit [Device δ] in
theorem Recounts.deed {after : Session δ} {deed : Deed δ} (recounts : Recounts deeds session)
    (told : after.shared.Told deed.waits ⟨session.shared.known, session.shared.recording⟩
      after.shared.recording deed.events)
    (came : ∀ queue fence, deed.step = some (.waitFor queue fence) → deed.succeeded = true →
      fence ≤ after.shared.known.get queue) :
    Recounts (deeds ++ [deed]) after := by
  have clock := recounts.told.heard
  have whole : after.shared.Told true .start after.shared.recording
      (Deed.trace (deeds ++ [deed])) := by
    rw [trace_concat]
    refine ⟨Clock.accepts_append.mpr ⟨recounts.told.accepts, ?_⟩, ?_, rfl⟩
    · rw [clock]
      exact told.accepts.anyCaller
    · rw [Clock.after_append, clock]
      exact told.heard
  refine ⟨whole, ?_, ?_⟩
  · intro other among unwaited fence queue
    rcases List.mem_append.mp among with before | last
    · exact recounts.unrefused other before unwaited fence queue
    · obtain rfl := List.mem_singleton.mp last
      have accepts := told.accepts
      rw [unwaited] at accepts
      exact accepts.never_refused fence queue
  · intro earlier other later queue fence split waited succeeded
    rcases concat_split split with ⟨-, rfl, rfl⟩ | ⟨between, -, before⟩
    · rw [whole.heard]
      exact came queue fence waited succeeded
    · exact recounts.reached earlier other between queue fence before waited succeeded

theorem recorded_recounts (path : Recorded config deeds session) : Recounts deeds session := by
  induction path with
  | opened made =>
    have told := create_tells made
    refine ⟨?_, ?_, ?_⟩
    · rw [Deed.trace, List.flatMap_singleton]
      exact ⟨told.accepts.anyCaller, told.heard, rfl⟩
    · intro deed among _ fence queue
      obtain rfl := List.mem_singleton.mp among
      exact told.accepts.never_refused fence queue
    · intro earlier deed later queue fence split waited
      have among : deed ∈ earlier ++ deed :: later := by simp
      rw [← split] at among
      obtain rfl := List.mem_singleton.mp among
      cases waited
  | fronted path made ih =>
    refine ih.deed (front_tells _ _) ?_
    intro _ _ waited
    cases waited
  | unfronted path refused ih =>
    refine ih.deed (front_tells _ _) ?_
    intro _ _ waited
    cases waited
  | step path step ih =>
    rename_i deeds session
    refine ih.deed ((step_tells step).run (.none_yet session.shared)) ?_
    intro queue fence waited succeeded
    obtain rfl := Option.some.inj waited
    rcases ran : ContextStep.run (.waitFor queue fence) session with ⟨result, after, events⟩
    rw [ran] at succeeded
    cases result with
    | ok answer => exact waitFor_reaches queue fence ran
    | error stop => cases succeeded

-- Whatever is done with a context, and however the device answers: what `completedFence` answers
-- for a queue never falls; every wait that the device is asked for is for a batch that is submitted
-- and not known to have completed; after a wait of a caller's own that ended well the queue has
-- come to its fence; and no other deed has a wait refused.
theorem timelines_kept (path : Recorded config deeds session) (queue : Queue) :
    let events := Deed.trace deeds
    ∃ now, (Shared.completedFence queue session.shared).result = .ok now ∧
      (Event.observations queue events).Pairwise (· ≤ ·) ∧
      (∀ fence ∈ Event.observations queue events, fence ≤ now) ∧
      (∀ earlier fence outcome later,
        events = earlier ++ .asked (.wait queue fence) outcome :: later →
          (Clock.start.after earlier).known.get queue < fence ∧
            fence < (Clock.start.after earlier).recording.get queue) ∧
      (∀ earlier deed later fence, deeds = earlier ++ deed :: later →
        deed.step = some (.waitFor queue fence) → deed.succeeded = true →
          fence ≤ now ∧ ∀ seen ∈ Event.observations queue (Deed.trace later), fence ≤ seen) ∧
      (∀ deed ∈ deeds, deed.waits = false → ∀ fence,
        .noted (.waitUnsubmitted fence queue) ∉ deed.events) ∧
      Clock.start.after events = ⟨session.shared.known, session.shared.recording⟩ := by
  intro events
  have recounts := recorded_recounts path
  have accepts := recounts.told.accepts
  have heard := recounts.told.heard
  let completed := (Device.completed queue session.shared.machine.device).1
  refine ⟨max (session.shared.known.get queue) completed, rfl, accepts.observed_rising, ?_, ?_, ?_,
    ?_, heard⟩
  · intro fence among
    have seen := accepts.observed_le among
    rw [heard] at seen
    exact Nat.le_trans seen (Nat.le_max_left _ _)
  · intro earlier fence outcome later split
    exact accepts.admits split
  · intro earlier deed later fence split waited succeeded
    have reached := recounts.reached earlier deed later queue fence split waited succeeded
    have parted : Deed.trace deeds = Deed.trace (earlier ++ [deed]) ++ Deed.trace later := by
      rw [split]
      simp [Deed.trace]
    rw [parted] at accepts heard
    have further := (Clock.accepts_append.mp accepts).2
    constructor
    · have grown : fence ≤ _ := Nat.le_trans reached further.known_le
      rw [← Clock.after_append, heard] at grown
      exact Nat.le_trans grown (Nat.le_max_left _ _)
    · exact fun seen among => Nat.le_trans reached (further.observed_ge among)
  · intro deed among unwaited fence
    exact recounts.unrefused deed among unwaited fence queue

theorem opened_recorded {device : δ} {mode : Mode} {board : Board}
    (made : (opened device mode config board).state = some session) :
    ∃ deeds, Recorded config deeds session := by
  unfold opened at made
  rcases created : Shared.create (δ := δ) (.start device) config board () with ⟨result, _, first⟩
  rw [created] at made
  cases result with
  | error stop => cases made
  | ok shared =>
    have begun := Recorded.opened (congrArg Run.result created)
    rcases fronted : openFront mode shared with ⟨result, after, more⟩
    simp only [fronted] at made
    cases result with
    | error stop => cases made
    | ok front =>
      cases made
      have recorded := begun.fronted (congrArg Run.result fronted)
      simp only [fronted] at recorded
      exact ⟨_, recorded⟩

end Running

-- A heap that is rolled over a second time waits for the one parked first, the device falls back
-- behind what it has completed, and the context goes.
theorem timelines_kept_behind :
    ∃ (deeds : List (Deed Scripted)) (session : Session Scripted),
      Recorded { Config.minimal with viewHeap := ⟨2, 2, 1, 2⟩, samplerHeap := .fixed 1 } deeds
        session ∧
      .asked (.wait .graphics 2) .done ∈ Deed.trace deeds ∧
      (Device.completed .graphics session.shared.machine.device).1 = 1 ∧
      ∃ now, (Shared.completedFence .graphics session.shared).result = .ok now ∧ 2 ≤ now ∧
        (Event.observations .graphics (Deed.trace deeds)).Pairwise (· ≤ ·) ∧
        ∀ earlier fence outcome later,
          Deed.trace deeds = earlier ++ .asked (.wait .graphics fence) outcome :: later →
            (Clock.start.after earlier).known.get .graphics < fence ∧
              fence < (Clock.start.after earlier).recording.get .graphics := by
  obtain ⟨begun, path⟩ := opened_recorded (Option.some_get (by decide +kernel :
    (opened Scripted.standard .immediate { Config.minimal with
      viewHeap := ⟨2, 2, 1, 2⟩, samplerHeap := .fixed 1 } ⟨[]⟩).state.isSome = true)).symm
  replace path := (path.step (.reserve (some .view) 2)).step (.submit .graphics)
  replace path := (path.step (.reserve (some .view) 2)).step (.submit .graphics)
  replace path := path.step (.reserve (some .view) 2)
  replace path := path.step (.device (·.setCompleted .graphics 1))
  replace path := (path.step (.waitFor .graphics 2)).step .drop
  obtain ⟨now, read, rising, -, waits, reached, -, -⟩ := timelines_kept path .graphics
  have come := reached _ _ [_] 2 (List.append_assoc ..) rfl (by decide +kernel)
  refine ⟨_, _, path, ?_, by decide +kernel, now, read, come.1, rising, waits⟩
  -- the last of the reservations was the one that waited
  refine List.mem_flatMap.mpr ⟨_, List.mem_append_left _ (List.mem_append_left _
    (List.mem_append_left _ (List.mem_append_right _ (List.mem_singleton_self _)))), ?_⟩
  decide +kernel

end Session

end Reclaim
