import Reclaim.Pool.Program
import Reclaim.Proofs.Execution
import Reclaim.Proofs.Pool.Lines

namespace Reclaim

-- One change of a line: an entry comes in, or the front leaves for a retrieval that may rely on
-- `reached`, or for an eviction.
inductive Passing where
  | enter (entry : Waiting Nat)
  | retrieve (entry : Waiting Nat) (reached : Nat)
  | evict (entry : Waiting Nat) (threshold reached : Nat)
deriving DecidableEq

namespace Passing

def entered? : Passing → Option (Waiting Nat)
  | enter entry => some entry
  | retrieve .. | evict .. => none

def left? : Passing → Option (Waiting Nat)
  | enter _ => none
  | retrieve entry _ | evict entry _ _ => some entry

def Allowed : Passing → Prop
  | enter _ => True
  | retrieve entry reached => entry.fence ≤ reached
  | evict entry threshold reached => entry.fence ≤ reached ∧ threshold ≤ reached - entry.fence

@[simp] theorem allowed_enter (entry : Waiting Nat) : (enter entry).Allowed := trivial

@[simp] theorem allowed_retrieve (entry : Waiting Nat) (reached : Nat) :
    (retrieve entry reached).Allowed ↔ entry.fence ≤ reached := .rfl

def entered (history : List Passing) : List (Waiting Nat) := history.filterMap entered?

def left (history : List Passing) : List (Waiting Nat) := history.filterMap left?

end Passing

inductive Replays : List (Waiting Nat) → List Passing → List (Waiting Nat) → Prop where
  | nil {line} : Replays line [] line
  | enter {line entry history after} : Replays (line ++ [entry]) history after →
      Replays line (.enter entry :: history) after
  | leave {entry line passing history after} : passing.left? = some entry →
      Replays line history after → Replays (entry :: line) (passing :: history) after

theorem Replays.append {before middle after : List (Waiting Nat)} {history later : List Passing}
    (first : Replays before history middle) (second : Replays middle later after) :
    Replays before (history ++ later) after := by
  induction first with
  | nil => exact second
  | enter _ ih => exact .enter (ih second)
  | leave out _ ih => exact .leave out (ih second)

theorem Replays.in_order {before after : List (Waiting Nat)} {history : List Passing}
    (replays : Replays before history after) :
    before ++ Passing.entered history = Passing.left history ++ after := by
  induction replays with
  | nil => simp [Passing.entered, Passing.left]
  | @enter line entry history after _ ih =>
    have none_out : (Passing.enter entry).left? = none := rfl
    simpa [Passing.entered, Passing.left, none_out, Passing.entered?] using ih
  | @leave entry line passing history after out _ ih =>
    have none_in : passing.entered? = none := by
      cases passing with
      | enter _ => cases out
      | retrieve _ _ | evict _ _ _ => rfl
    simpa [Passing.entered, Passing.left, none_in, out] using ih

mutual

-- What a step may have done to the line, by what it answered. A retrieval that reuses takes one
-- entry at its end, one that makes an item or fails takes none; all else that happened meanwhile is
-- what its callbacks did.
inductive StepTold : PoolStep → PoolAnswer → List Passing → Prop where
  | put {size id fence} : StepTold (.put size id fence) .nothing [.enter ⟨fence, id⟩]
  | describe {text} : StepTold .describe (.text text) []
  | evictNone {threshold reached} : StepTold (.evict threshold reached) (.evicted 0) []
  | evictOne {threshold reached entry} :
      StepTold (.evict threshold reached) (.evicted 1) [.evict entry threshold reached]
  | reuse {size reached wait create entry} :
      StepTold (.retrieve size reached wait create) (.retrieved [] (.ok entry.item))
        [.retrieve entry reached]
  | create {size reached wait create heard got history} :
      CallbackTold create heard got history →
      StepTold (.retrieve size reached wait create) (.retrieved (.create 0 :: heard) got) history
  | waitFailed {size reached wait create fence heard error history} :
      CallbackTold wait heard (.error error) history →
      StepTold (.retrieve size reached wait create)
        (.retrieved (.wait fence :: heard) (.error error)) history
  | waitReuse {size reached wait create fence heard reply history entry} :
      CallbackTold wait heard (.ok reply) history →
      StepTold (.retrieve size reached wait create)
        (.retrieved (.wait fence :: heard) (.ok entry.item)) (history ++ [.retrieve entry fence])
  | waitCreate {size reached wait create fence heard reply history more got later} :
      CallbackTold wait heard (.ok reply) history → CallbackTold create more got later →
      StepTold (.retrieve size reached wait create)
        (.retrieved (.wait fence :: heard ++ .create 0 :: more) got) (history ++ later)

inductive CallbackTold : Callback → List Heard → Except Error Nat → List Passing → Prop where
  | mk {during reply heard history} : AllTold during heard history →
      CallbackTold (.mk during reply) heard reply history

inductive AllTold : List PoolStep → List Heard → List Passing → Prop where
  | nil : AllTold [] [] []
  | cons {step rest answer history heard later} : StepTold step answer history →
      AllTold rest heard later →
      AllTold (step :: rest) (.answer answer :: heard) (history ++ later)

end

namespace FenceLine

theorem evict_run (threshold reached : Nat) (line : FenceLine Nat) :
    (Recycler.evict threshold reached : Action (FenceLine Nat) Nat) line = ⟨.ok 0, line, []⟩ ∨
      ∃ entry rest, line.entries = entry :: rest ∧
        (Passing.evict entry threshold reached).Allowed ∧
        (Recycler.evict threshold reached : Action (FenceLine Nat) Nat) line =
          ⟨.ok 1, ⟨rest⟩, []⟩ := by
  match shape : line.entries with
  | [] => exact .inl (by simp [Recycler.evict, evict?, shape])
  | front :: rest =>
    by_cases old : front.fence ≤ reached ∧ threshold ≤ reached - front.fence
    · exact .inr ⟨front, rest, rfl, old, by simp [Recycler.evict, evict?, shape, old]⟩
    · exact .inl (by simp [Recycler.evict, evict?, shape, old])

end FenceLine

class Lined (P : Type) [Recycler P] where
  lineOf : Part P (FenceLine Nat)
  put_line : ∀ size id fence, (Recycler.put size id fence : Action P Unit) =
    Action.on lineOf (Action.modify (·.push id fence))
  evict_line : ∀ threshold reached, (Recycler.evict threshold reached : Action P Nat) =
    Action.on lineOf (Recycler.evict threshold reached)
  retrieve_line : ∀ {σ : Type} (pool : Part σ P) (size reached : Nat) (wait : Nat → Action σ Unit)
      (create : Nat → Action σ Nat) (s : σ),
    Recycler.retrieve pool size reached wait create s =
        FenceLine.retrieve (pool.andThen lineOf) reached (create 0) s ∨
      ∃ fence, Recycler.retrieve pool size reached wait create s = (do
        Action.note (.poolFull fence)
        wait fence
        FenceLine.retrieve (pool.andThen lineOf) fence (create 0)) s

instance : Lined (FenceLine Nat) where
  lineOf := .whole
  put_line _ _ _ := rfl
  evict_line _ _ := rfl
  retrieve_line _ _ _ _ _ _ := .inl rfl

namespace BoundedPool

theorem retrieve_line {σ : Type} (pool : Part σ (BoundedPool Nat)) (reached : Nat)
    (wait : Nat → Action σ Unit) (create : Action σ Nat) (s : σ) :
    retrieve pool reached wait create s =
        FenceLine.retrieve (pool.andThen lineOf) reached create s ∨
      ∃ fence, retrieve pool reached wait create s = (do
        Action.note (.poolFull fence)
        wait fence
        FenceLine.retrieve (pool.andThen lineOf) fence create) s := by
  have view : (pool.andThen lineOf).get s = (pool.get s).line := rfl
  cases chosen : (pool.get s).choose reached with
  | reuse item rest =>
    have popped := choose_reuse chosen
    left
    simp [retrieve, FenceLine.retrieve, chosen, view, popped]
  | create =>
    have popped := choose_create chosen
    left
    simp [retrieve, FenceLine.retrieve, chosen, view, popped]
  | wait fence =>
    right
    exact ⟨fence, by simp [retrieve, chosen]⟩

end BoundedPool

instance : Lined (BoundedPool Nat) where
  lineOf := BoundedPool.lineOf
  put_line _ _ _ := rfl
  evict_line _ _ := rfl
  retrieve_line pool _ reached wait create s :=
    BoundedPool.retrieve_line pool reached wait (create 0) s

namespace Watched

variable {P : Type} [Recycler P] [Lined P] {α β : Type} {s after : Watched P}

def entries (pool : P) : List (Waiting Nat) := (Lined.lineOf.get pool).entries

structure Between (s after : Watched P) (heard : List Heard) (history : List Passing) : Prop where
  heard_eq : after.heard = s.heard ++ heard
  replays : Replays (entries s.pool) history (entries after.pool)
  allowed : ∀ passing ∈ history, passing.Allowed

theorem Between.refl (s : Watched P) : Between s s [] [] :=
  ⟨(List.append_nil _).symm, .nil, by simp⟩

theorem Between.trans {middle : Watched P} {heard more : List Heard} {history later : List Passing}
    (first : Between s middle heard history) (second : Between middle after more later) :
    Between s after (heard ++ more) (history ++ later) where
  heard_eq := by rw [second.heard_eq, first.heard_eq, List.append_assoc]
  replays := first.replays.append second.replays
  allowed := by
    intro passing member
    rcases List.mem_append.mp member with early | late
    · exact first.allowed passing early
    · exact second.allowed passing late

-- Started in `s` the action comes to an end or to an error, never to a fault, and there is a
-- history that `told` allows for what was heard and what came of it.
def Recounts (x : Action (Watched P) α)
    (told : List Heard → Except Error α → List Passing → Prop) (s : Watched P) : Prop :=
  ∃ heard got history after events, x.attempt s = ⟨.ok got, after, events⟩ ∧
    Between s after heard history ∧ told heard got history

theorem Recounts.of_run {x y : Action (Watched P) α}
    {told : List Heard → Except Error α → List Passing → Prop} (same : x s = y s)
    (recounts : Recounts y told s) : Recounts x told s := by
  unfold Recounts at recounts ⊢
  rwa [Action.run_attempt, same, ← Action.run_attempt]

theorem Recounts.weaken {x : Action (Watched P) α}
    {told told' : List Heard → Except Error α → List Passing → Prop} (recounts : Recounts x told s)
    (weaker : ∀ heard got history, told heard got history → told' heard got history) :
    Recounts x told' s := by
  obtain ⟨heard, got, history, after, events, ran, between, holds⟩ := recounts
  exact ⟨heard, got, history, after, events, ran, between, weaker _ _ _ holds⟩

theorem Recounts.bind {x : Action (Watched P) α} {f : α → Action (Watched P) β}
    {told : List Heard → Except Error α → List Passing → Prop}
    {next : α → List Heard → Except Error β → List Passing → Prop}
    {whole : List Heard → Except Error β → List Passing → Prop}
    (first : Recounts x told s) (second : ∀ a middle, Recounts (f a) (next a) middle)
    (failed : ∀ heard error history, told heard (.error error) history →
      whole heard (.error error) history)
    (followed : ∀ heard a history more got later, told heard (.ok a) history →
      next a more got later → whole (heard ++ more) got (history ++ later)) :
    Recounts (x >>= f) whole s := by
  obtain ⟨heard, got, history, middle, events, ran, between, holds⟩ := first
  rw [Action.run_attempt] at ran
  match start : x s with
  | ⟨.error (.fault fault), _, _⟩ =>
    rw [start] at ran
    cases ran
  | ⟨.error (.error error), _, _⟩ =>
    rw [start] at ran
    cases ran
    refine ⟨heard, .error error, history, middle, events, ?_, between, failed _ _ _ holds⟩
    simp [start]
  | ⟨.ok a, _, _⟩ =>
    rw [start] at ran
    cases ran
    obtain ⟨more, got, later, after, events', ran', between', holds'⟩ := second a middle
    rw [Action.run_attempt] at ran'
    refine ⟨heard ++ more, got, history ++ later, after, events ++ events', ?_,
      between.trans between', followed _ _ _ _ _ _ holds holds'⟩
    match rest : f a middle with
    | ⟨.error (.fault fault), _, _⟩ =>
      rw [rest] at ran'
      cases ran'
    | ⟨.error (.error error), _, _⟩ | ⟨.ok b, _, _⟩ =>
      rw [rest] at ran'
      cases ran'
      simp [start, rest]

theorem recounts_pure (a : α) (s : Watched P) :
    Recounts (Pure.pure a : Action (Watched P) α)
      (fun heard got history => heard = [] ∧ got = .ok a ∧ history = []) s :=
  ⟨[], .ok a, [], s, [], rfl, .refl s, rfl, rfl, rfl⟩

theorem recounts_note (n : Note) (s : Watched P) :
    Recounts (Action.note n)
      (fun heard got history => heard = [] ∧ got = .ok () ∧ history = []) s :=
  ⟨[], .ok (), [], s, _, rfl, .refl s, rfl, rfl, rfl⟩

theorem recounts_settle (reply : Except Error Nat) (s : Watched P) :
    Recounts (Action.settle reply)
      (fun heard got history => heard = [] ∧ got = reply ∧ history = []) s := by
  cases reply with
  | ok a => exact recounts_pure a s
  | error error => exact ⟨[], .error error, [], s, [], rfl, .refl s, rfl, rfl, rfl⟩

theorem recounts_hear (said : Heard) (s : Watched P) :
    Recounts (hear said) (fun heard got history => heard = [said] ∧ got = .ok () ∧ history = [])
      s := by
  refine ⟨[said], .ok (), [], { s with heard := s.heard ++ [said] }, [], rfl, ?_, rfl, rfl, rfl⟩
  exact ⟨rfl, .nil, by simp⟩

theorem recounts_listen {x : Action (Watched P) α}
    {told : List Heard → Except Error α → List Passing → Prop}
    (inside : ∀ inner, Recounts x told inner) (s : Watched P) :
    Recounts (listen x) (fun heard got history => heard = [] ∧
      ∃ answer, got = .ok answer ∧ told answer.1 answer.2 history) s := by
  obtain ⟨heard, got, history, after, events, ran, between, holds⟩ := inside { s with heard := [] }
  refine ⟨[], .ok (heard, got), history, { after with heard := s.heard }, events, ?_, ?_, rfl, _,
    rfl, holds⟩
  · have all : after.heard = heard := between.heard_eq
    simp [listen, Action.run_attempt] at ran ⊢
    simp [ran, all]
  · exact ⟨(List.append_nil _).symm, between.replays, between.allowed⟩

theorem between_put {line : FenceLine Nat} {history : List Passing}
    (replays : Replays (entries s.pool) history line.entries)
    (allowed : ∀ passing ∈ history, passing.Allowed) :
    Between s { s with pool := Lined.lineOf.put line s.pool } [] history where
  heard_eq := (List.append_nil _).symm
  replays := by
    change Replays _ _ (Lined.lineOf.get (Lined.lineOf.put line s.pool)).entries
    rwa [Lined.lineOf.get_put]
  allowed := allowed

theorem recounts_put (size id fence : Nat) (s : Watched P) :
    Recounts (Action.on poolOf (Recycler.put size id fence))
      (fun heard got history => heard = [] ∧ got = .ok () ∧ history = [.enter ⟨fence, id⟩]) s := by
  rw [Lined.put_line]
  refine ⟨[], .ok (), _, _, _, rfl, between_put (.enter ?_) ?_, rfl, rfl, rfl⟩
  · exact .nil
  · simp

theorem recounts_evict (threshold reached : Nat) (s : Watched P) :
    Recounts (Action.on poolOf (Recycler.evict threshold reached))
      (fun heard got history => heard = [] ∧ (got = .ok 0 ∧ history = [] ∨
        ∃ entry, got = .ok 1 ∧ history = [.evict entry threshold reached])) s := by
  have ran {count : Nat} {line : FenceLine Nat}
      (evicted : (Recycler.evict threshold reached : Action (FenceLine Nat) Nat)
        (Lined.lineOf.get s.pool) = ⟨.ok count, line, []⟩) :
      (Action.on poolOf (Recycler.evict threshold reached)).attempt s =
        ⟨.ok (.ok count), { s with pool := Lined.lineOf.put line s.pool }, []⟩ := by
    rw [Lined.evict_line]
    simp [poolOf, evicted]
  rcases FenceLine.evict_run threshold reached (Lined.lineOf.get s.pool) with
    kept | ⟨entry, rest, shape, old, evicted⟩
  · exact ⟨[], .ok 0, [], _, _, ran kept, between_put .nil (by simp), rfl, .inl ⟨rfl, rfl⟩⟩
  · refine ⟨[], .ok 1, [.evict entry threshold reached], _, _, ran evicted, between_put ?_ ?_, rfl,
      .inr ⟨entry, rfl, rfl⟩⟩
    · rw [entries, shape]
      exact .leave rfl .nil
    · simpa using old

theorem recounts_front {create : Action (Watched P) Nat}
    {told : List Heard → Except Error Nat → List Passing → Prop}
    (created : ∀ s, Recounts create told s) (reached : Nat) (s : Watched P) :
    Recounts (FenceLine.retrieve (poolOf.andThen Lined.lineOf) reached create)
      (fun heard got history =>
        (heard = [] ∧ ∃ entry, got = .ok entry.item ∧ history = [.retrieve entry reached]) ∨
        told heard got history) s := by
  have view : (poolOf.andThen Lined.lineOf).get s = Lined.lineOf.get s.pool := rfl
  cases popped : (Lined.lineOf.get s.pool).pop? reached with
  | none =>
    obtain ⟨heard, got, history, after, events, ran, between, holds⟩ := created s
    refine ⟨heard, got, history, after, events, ?_, between, .inr holds⟩
    rw [← ran]
    simp [FenceLine.retrieve, view, popped]
  | some taken =>
    obtain ⟨item, rest⟩ := taken
    obtain ⟨entry, shape, ready, rfl⟩ := FenceLine.pop?_some popped
    refine ⟨[], .ok entry.item, [.retrieve entry reached],
      { s with pool := Lined.lineOf.put rest s.pool }, [], ?_, between_put ?_ ?_,
      .inl ⟨rfl, entry, rfl, rfl⟩⟩
    · simp [FenceLine.retrieve, popped, Part.andThen, poolOf]
    · rw [entries, shape]
      exact .leave rfl .nil
    · simpa using ready

theorem recounts_said {callback : Callback}
    (inside : ∀ s : Watched P, Recounts callback.run (CallbackTold callback) s) (said : Heard)
    (s : Watched P) :
    Recounts (do hear said; callback.run) (fun heard got history =>
      ∃ inner, heard = said :: inner ∧ CallbackTold callback inner got history) s := by
  refine (recounts_hear said s).bind (fun _ middle => inside middle) ?_ ?_
  · rintro _ _ _ ⟨_, impossible, _⟩
    cases impossible
  · rintro _ _ _ more got later ⟨rfl, _, rfl⟩ holds
    exact ⟨more, rfl, holds⟩

theorem recounts_wait {wait : Callback}
    (inside : ∀ s : Watched P, Recounts wait.run (CallbackTold wait) s) (fence : Nat)
    (s : Watched P) :
    Recounts (do hear (.wait fence); let _ ← wait.run) (fun heard got history =>
      ∃ inner, heard = .wait fence :: inner ∧
        ((∃ reply, got = .ok () ∧ CallbackTold wait inner (.ok reply) history) ∨
          ∃ error, got = .error error ∧ CallbackTold wait inner (.error error) history)) s := by
  rw [← bind_assoc]
  refine (recounts_said inside (.wait fence) s).bind (fun _ middle => recounts_pure () middle) ?_ ?_
  · rintro _ error history ⟨inner, rfl, told⟩
    exact ⟨inner, rfl, .inr ⟨error, rfl, told⟩⟩
  · rintro _ reply history _ _ _ ⟨inner, rfl, told⟩ ⟨rfl, rfl, rfl⟩
    exact ⟨inner, by simp, .inl ⟨reply, rfl, by simpa using told⟩⟩

theorem recounts_retrieve {wait create : Callback}
    (waits : ∀ s : Watched P, Recounts wait.run (CallbackTold wait) s)
    (creates : ∀ s : Watched P, Recounts create.run (CallbackTold create) s)
    (size reached : Nat) (s : Watched P) :
    Recounts (Recycler.retrieve poolOf size reached
        (fun fence => do
          hear (.wait fence)
          let _ ← wait.run)
        (fun bytes => do
          hear (.create bytes)
          create.run))
      (fun heard got history =>
        StepTold (.retrieve size reached wait create) (.retrieved heard got) history) s := by
  have front := recounts_front (recounts_said creates (.create 0))
  rcases Lined.retrieve_line poolOf size reached _ _ s with direct | ⟨fence, waited⟩
  · refine .of_run direct ((front reached s).weaken ?_)
    rintro _ got history (⟨rfl, entry, rfl, rfl⟩ | ⟨inner, rfl, created⟩)
    · exact .reuse
    · exact .create created
  · have waits_first (middle : Watched P) : Recounts (do
        (do hear (.wait fence); let _ ← wait.run)
        FenceLine.retrieve (poolOf.andThen Lined.lineOf) fence (do hear (.create 0); create.run))
        (fun heard got history =>
          StepTold (.retrieve size reached wait create) (.retrieved heard got) history) middle := by
      refine (recounts_wait waits fence middle).bind (fun _ => front fence) ?_ ?_
      · rintro _ error history ⟨inner, rfl, ⟨_, impossible, _⟩ | ⟨_, failed, told⟩⟩
        · cases impossible
        · cases failed
          exact .waitFailed told
      · rintro _ _ history more got later ⟨inner, rfl, ⟨reply, _, told⟩ | ⟨_, impossible, _⟩⟩ ended
        · rcases ended with ⟨rfl, entry, rfl, rfl⟩ | ⟨inner', rfl, created⟩
          · simpa using StepTold.waitReuse told
          · exact .waitCreate told created
        · cases impossible
    refine .of_run waited ((recounts_note _ s).bind (fun _ => waits_first) ?_ ?_)
    · rintro _ _ _ ⟨_, impossible, _⟩
      cases impossible
    · rintro _ _ _ more got later ⟨rfl, _, rfl⟩ told
      exact told

theorem recounts_answer {x : Action (Watched P) α} {step : PoolStep} (answer : α → PoolAnswer)
    (recounts : Recounts x (fun heard got history => heard = [] ∧
      ∃ a, got = .ok a ∧ StepTold step (answer a) history) s) :
    Recounts (do return answer (← x)) (fun heard got history => heard = [] ∧
      ∃ told, got = .ok told ∧ StepTold step told history) s := by
  refine recounts.bind (fun a middle => recounts_pure (answer a) middle) ?_ ?_
  · rintro _ _ _ ⟨_, _, impossible, _⟩
    cases impossible
  · rintro _ _ history _ _ _ ⟨rfl, a, same, told⟩ ⟨rfl, rfl, rfl⟩
    cases same
    exact ⟨rfl, _, rfl, by simpa using told⟩

mutual

theorem recounts_step : ∀ (step : PoolStep) (s : Watched P),
    Recounts step.run (fun heard got history =>
      heard = [] ∧ ∃ answer, got = .ok answer ∧ StepTold step answer history) s
  | .put size id fence, s => by
    refine recounts_answer (fun _ => .nothing) ((recounts_put size id fence s).weaken ?_)
    rintro _ _ _ ⟨rfl, rfl, rfl⟩
    exact ⟨rfl, (), rfl, .put⟩
  | .retrieve size reached wait create, s => by
    have retrieved := recounts_retrieve (P := P) (fun s => recounts_callback wait s)
      (fun s => recounts_callback create s) size reached
    exact recounts_answer (fun answer : List Heard × Except Error Nat =>
      .retrieved answer.1 answer.2) (recounts_listen retrieved s)
  | .evict threshold reached, s => by
    refine recounts_answer .evicted ((recounts_evict threshold reached s).weaken ?_)
    rintro _ _ _ ⟨rfl, ⟨rfl, rfl⟩ | ⟨entry, rfl, rfl⟩⟩
    · exact ⟨rfl, 0, rfl, .evictNone⟩
    · exact ⟨rfl, 1, rfl, .evictOne⟩
  | .describe, s =>
    ⟨[], _, [], s, [], rfl, .refl s, rfl, _, rfl, .describe⟩

theorem recounts_callback : ∀ (callback : Callback) (s : Watched P),
    Recounts callback.run (CallbackTold callback) s
  | .mk during reply, s => by
    refine (recounts_all during s).bind (fun _ middle => recounts_settle reply middle) ?_ ?_
    · rintro _ _ _ ⟨impossible, _⟩
      cases impossible
    · rintro heard _ history _ _ _ ⟨_, told⟩ ⟨rfl, rfl, rfl⟩
      simpa using CallbackTold.mk told

theorem recounts_all : ∀ (steps : List PoolStep) (s : Watched P),
    Recounts (Callback.runAll steps)
      (fun heard got history => got = .ok () ∧ AllTold steps heard history) s
  | [], s => ⟨[], .ok (), [], s, [], rfl, .refl s, rfl, .nil⟩
  | step :: rest, s => by
    have rest_told (answer : PoolAnswer) (middle : Watched P) :
        Recounts (do hear (.answer answer); Callback.runAll rest) (fun heard got history =>
          got = .ok () ∧ ∃ more, heard = .answer answer :: more ∧ AllTold rest more history)
          middle := by
      refine (recounts_hear (.answer answer) middle).bind (fun _ => recounts_all rest) ?_ ?_
      · rintro _ _ _ ⟨_, impossible, _⟩
        cases impossible
      · rintro _ _ _ more _ later ⟨rfl, _, rfl⟩ ⟨rfl, told⟩
        exact ⟨rfl, more, rfl, told⟩
    refine (recounts_step step s).bind rest_told ?_ ?_
    · rintro _ _ _ ⟨_, _, impossible, _⟩
      cases impossible
    · rintro _ _ history _ _ later ⟨rfl, answer, same, told⟩ ⟨rfl, more, rfl, others⟩
      cases same
      exact ⟨rfl, .cons told others⟩

end

-- One history for all that was heard: the line replays it from its first state to its last, what
-- came in goes out in that order, and every entry that left was due.
def PassesOnce (entries : P → List (Waiting Nat)) (steps : List PoolStep) (s : Watched P) : Prop :=
  ∃ pool heard history events,
    Callback.runAll steps s = ⟨.ok (), ⟨pool, s.heard ++ heard⟩, events⟩ ∧
    AllTold steps heard history ∧
    Replays (entries s.pool) history (entries pool) ∧
    entries s.pool ++ Passing.entered history = Passing.left history ++ entries pool ∧
    ∀ passing ∈ history, passing.Allowed

theorem Recounts.passesOnce {steps : List PoolStep}
    (recounts : Recounts (Callback.runAll steps)
      (fun heard got history => got = .ok () ∧ AllTold steps heard history) s) :
    PassesOnce entries steps s := by
  obtain ⟨heard, _, history, after, events, ran, between, rfl, told⟩ := recounts
  refine ⟨after.pool, heard, history, events, ?_, told, between.replays, between.replays.in_order,
    between.allowed⟩
  rw [← between.heard_eq]
  rw [Action.run_attempt] at ran
  match whole : Callback.runAll steps s with
  | ⟨.ok (), _, _⟩ =>
    rw [whole] at ran
    cases ran
    rfl
  | ⟨.error (.error _), _, _⟩ | ⟨.error (.fault _), _, _⟩ =>
    rw [whole] at ran
    cases ran

end Watched

-- Whatever steps the callbacks of a retrieval run on the very pool it asks, with fences in any
-- order, a line and a line with a bound lose nothing, hand out nothing twice and nothing early.
theorem entries_pass_once (steps : List PoolStep) :
    (∀ s : Watched (FenceLine Nat), s.PassesOnce (fun line => line.entries) steps) ∧
      ∀ s : Watched (BoundedPool Nat), s.PassesOnce (fun pool => pool.line.entries) steps :=
  ⟨fun s => (Watched.recounts_all steps s).passesOnce,
    fun s => (Watched.recounts_all steps s).passesOnce⟩

-- The wait drops the front it waited for and returns another item; that one is taken.
example : (Callback.runAll
      [.retrieve 0 3 (.mk [.evict 0 5, .put 0 9 4] (.ok 0)) (.mk [] (.ok 1))]
      (⟨⟨⟨[⟨5, 7⟩]⟩, 1⟩, []⟩ : Watched (BoundedPool Nat))).state.heard =
    [.answer (.retrieved [.wait 5, .answer (.evicted 1), .answer .nothing] (.ok 9))] := rfl

end Reclaim
