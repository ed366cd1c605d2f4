import Reclaim.Descriptor.Free
import Mathlib.Order.Monotone.Defs
import Mathlib.Algebra.Order.Group.Nat
import Mathlib.Tactic.Common

namespace Reclaim

namespace Range

variable {runs rest after : List Range} {run : Range} {slot start stop bound slots : Nat}
  {free : Nat → Prop}

def Holds (range : Range) (slot : Nat) : Prop := range.start ≤ slot ∧ slot < range.stop

def Covers (runs : List Range) (slot : Nat) : Prop := ∃ run ∈ runs, run.Holds slot

structure Apart (runs : List Range) : Prop where
  some_slot : ∀ run ∈ runs, run.start < run.stop
  between : runs.Pairwise fun earlier later => earlier.stop < later.start

structure Decomposes (free : Nat → Prop) (slots : Nat) (runs : List Range) : Prop where
  apart : Apart runs
  inside : ∀ run ∈ runs, run.stop ≤ slots
  exact : ∀ slot < slots, Covers runs slot ↔ free slot

def total : List Range → Nat
  | [] => 0
  | run :: rest => run.stop - run.start + total rest

@[simp] theorem total_nil : total [] = 0 := rfl

@[simp] theorem total_cons (run : Range) (rest : List Range) :
    total (run :: rest) = run.stop - run.start + total rest := rfl

theorem foldl_total (runs : List Range) (stride sum : Nat) :
    (runs.map fun run => (run.stop - run.start) * stride).foldl (· + ·) sum =
      sum + total runs * stride := by
  induction runs generalizing sum with
  | nil => simp
  | cons run rest ih =>
    rw [List.map_cons, List.foldl_cons, ih, total_cons, Nat.add_mul, Nat.add_assoc]

@[simp] theorem not_covers_nil : ¬ Covers [] slot := by
  simp [Covers]

theorem covers_cons : Covers (run :: rest) slot ↔ run.Holds slot ∨ Covers rest slot := by
  simp [Covers]

theorem apart_nil : Apart [] := ⟨by simp, .nil⟩

theorem apart_cons :
    Apart (run :: rest) ↔
      run.start < run.stop ∧ (∀ slot, Covers rest slot → run.stop < slot) ∧ Apart rest := by
  constructor
  · rintro ⟨some_slot, between⟩
    obtain ⟨first, others⟩ := List.pairwise_cons.mp between
    refine ⟨some_slot run (by simp), ?_, fun later among => some_slot later (by simp [among]),
      others⟩
    rintro slot ⟨later, among, from_start, -⟩
    exact Nat.lt_of_lt_of_le (first later among) from_start
  · rintro ⟨first, behind, others⟩
    refine ⟨?_, List.pairwise_cons.mpr ⟨fun later among => ?_, others.between⟩⟩
    · intro one among
      rcases List.mem_cons.mp among with rfl | among
      · exact first
      · exact others.some_slot one among
    · exact behind later.start ⟨later, among, Nat.le_refl _, others.some_slot later among⟩

theorem le_start (apart : Apart runs) (behind : ∀ slot, Covers runs slot → bound ≤ slot)
    (among : run ∈ runs) : bound ≤ run.start :=
  behind run.start ⟨run, among, Nat.le_refl _, apart.some_slot run among⟩

-- `after` are runs as well: of the slots of `before` and the new ones.
structure Joins (start stop : Nat) (before after : List Range) : Prop where
  apart : Apart after
  exact : ∀ slot, Covers after slot ↔ (start ≤ slot ∧ slot < stop) ∨ Covers before slot
  total : total after = stop - start + total before

theorem Joins.cons (joined : Joins start stop rest after) (apart : Apart (run :: rest))
    (before : run.stop < start) : Joins start stop (run :: rest) (run :: after) := by
  obtain ⟨some_slot, behind, -⟩ := apart_cons.mp apart
  refine ⟨apart_cons.mpr ⟨some_slot, ?_, joined.apart⟩, fun slot => ?_, ?_⟩
  · intro slot covered
    rcases (joined.exact slot).mp covered with ⟨from_start, -⟩ | covered
    · exact Nat.lt_of_lt_of_le before from_start
    · exact behind slot covered
  · rw [covers_cons, joined.exact, covers_cons]
    exact or_left_comm
  · rw [total_cons, joined.total, total_cons, Nat.add_left_comm]

theorem joinFront_joins (apart : Apart rest) (some_slot : start < stop)
    (behind : ∀ slot, Covers rest slot → stop ≤ slot) :
    Joins start stop rest (joinFront start stop rest) := by
  cases rest with
  | nil =>
    refine ⟨apart_cons.mpr ⟨some_slot, by simp, apart_nil⟩, fun slot => ?_, rfl⟩
    simp [joinFront, covers_cons, Holds]
  | cons next rest =>
    obtain ⟨next_slot, next_behind, others⟩ := apart_cons.mp apart
    have beyond : stop ≤ next.start := le_start apart behind (by simp)
    by_cases touch : next.start = stop
    · simp only [joinFront, if_pos touch]
      refine ⟨apart_cons.mpr ⟨by simp only; omega, next_behind, others⟩, fun slot => ?_, ?_⟩
      · simp only [covers_cons, Holds, ← or_assoc]
        refine or_congr_left ?_
        omega
      · simp only [total_cons]
        omega
    · simp only [joinFront, if_neg touch]
      refine ⟨apart_cons.mpr ⟨some_slot, fun slot covered => ?_, apart⟩, fun slot => ?_, ?_⟩
      · rcases covers_cons.mp covered with held | covered
        · exact Nat.lt_of_lt_of_le (by simp only; omega) held.1
        · have := next_behind slot covered
          simp only
          omega
      · simp only [covers_cons, Holds]
      · exact total_cons _ _

theorem giveBack_here (range : Range) (ahead : ∀ next ∈ rest, start < next.start) :
    giveBack start stop (range :: rest) =
      if start < range.start then some (joinFront start stop (range :: rest))
      else if start < range.stop then none
      else if range.stop = start then some (joinFront range.start stop rest)
      else some (range :: joinFront start stop rest) := by
  cases rest with
  | nil => rfl
  | cons next rest =>
    have later : ¬ next.start ≤ start := Nat.not_le.mpr (ahead next (by simp))
    simp only [giveBack, if_neg later]

theorem giveBack_later (range next : Range) (past : range.start ≤ start) (later : next.start ≤ start) :
    giveBack start stop (range :: next :: rest) =
      (giveBack start stop (next :: rest)).map (range :: ·) := by
  simp only [giveBack, if_neg (Nat.not_lt.mpr past), if_pos later]

-- What giving back a slot comes to: nothing if the slot is covered, else it is joined.
def GivenBack (slot : Nat) (runs : List Range) (result : Option (List Range)) : Prop :=
  (Covers runs slot ∧ result = none) ∨
    (¬ Covers runs slot ∧ ∃ after, result = some after ∧ Joins slot (slot + 1) runs after)

theorem giveBack_here_exact (apart : Apart (run :: rest)) (ahead : ∀ next ∈ rest, slot < next.start) :
    GivenBack slot (run :: rest) (giveBack slot (slot + 1) (run :: rest)) := by
  obtain ⟨some_slot, behind, others⟩ := apart_cons.mp apart
  have beyond (other : Nat) (covered : Covers rest other) : slot < other := by
    obtain ⟨next, among, from_start, -⟩ := covered
    exact Nat.lt_of_lt_of_le (ahead next among) from_start
  have outside : ¬ Covers rest slot := fun covered => Nat.lt_irrefl _ (beyond slot covered)
  rw [giveBack_here run ahead]
  by_cases before : slot < run.start
  · rw [if_pos before]
    refine .inr ⟨fun covered => ?_, _, rfl, joinFront_joins apart (Nat.lt_succ_self _) ?_⟩
    · rcases covers_cons.mp covered with held | covered
      · exact absurd held.1 (Nat.not_le.mpr before)
      · exact outside covered
    · intro other covered
      rcases covers_cons.mp covered with held | covered
      · exact Nat.lt_of_lt_of_le before held.1
      · exact beyond other covered
  rw [if_neg before]
  by_cases within : slot < run.stop
  · rw [if_pos within]
    exact .inl ⟨covers_cons.mpr (.inl ⟨Nat.not_lt.mp before, within⟩), rfl⟩
  rw [if_neg within]
  have uncovered : ¬ Covers (run :: rest) slot := by
    rw [covers_cons, not_or]
    exact ⟨fun held => within held.2, outside⟩
  by_cases touch : run.stop = slot
  · rw [if_pos touch]
    have joined := joinFront_joins others (by omega : run.start < slot + 1) beyond
    refine .inr ⟨uncovered, _, rfl, joined.apart, fun other => ?_, ?_⟩
    · simp only [joined.exact, covers_cons, Holds, ← or_assoc]
      refine or_congr_left ?_
      omega
    · rw [joined.total, total_cons]
      omega
  · rw [if_neg touch]
    have joined := joinFront_joins others (Nat.lt_succ_self slot) beyond
    exact .inr ⟨uncovered, _, rfl, joined.cons apart (by omega)⟩

theorem giveBack_exact (apart : Apart runs) (slot : Nat) :
    GivenBack slot runs (giveBack slot (slot + 1) runs) := by
  induction runs with
  | nil =>
    refine .inr ⟨not_covers_nil, [⟨slot, slot + 1⟩], rfl, ?_⟩
    exact joinFront_joins apart_nil (Nat.lt_succ_self slot) (by simp)
  | cons run rest ih =>
    obtain ⟨some_slot, behind, others⟩ := apart_cons.mp apart
    cases rest with
    | nil => exact giveBack_here_exact apart (by simp)
    | cons next rest =>
      have gap : run.stop < next.start := le_start others behind (by simp)
      by_cases later : next.start ≤ slot
      · rw [giveBack_later run next (by omega) later]
        have missed : ¬ run.Holds slot := fun held => by have := held.2; omega
        rcases ih others with ⟨covered, none⟩ | ⟨uncovered, after, given, joined⟩
        · exact .inl ⟨covers_cons.mpr (.inr covered), by rw [none, Option.map_none]⟩
        · refine .inr ⟨by rw [covers_cons, not_or]; exact ⟨missed, uncovered⟩, run :: after,
            by rw [given, Option.map_some], joined.cons apart (by omega)⟩
      · refine giveBack_here_exact apart fun one among => ?_
        rcases List.mem_cons.mp among with rfl | among
        · omega
        · have := (List.pairwise_cons.mp others.between).1 one among
          have := others.some_slot next (by simp)
          omega

theorem Decomposes.giveBack_free (decomposes : Decomposes free slots runs) (within : slot < slots)
    (is_free : free slot) : giveBack slot (slot + 1) runs = none := by
  rcases giveBack_exact decomposes.apart slot with ⟨-, none⟩ | ⟨uncovered, -⟩
  · exact none
  · exact absurd ((decomposes.exact slot within).mpr is_free) uncovered

theorem Decomposes.giveBack_taken (decomposes : Decomposes free slots runs) (within : slot < slots)
    (taken : ¬ free slot) :
    ∃ after, giveBack slot (slot + 1) runs = some after ∧ total after = total runs + 1 ∧
      Decomposes (fun other => other = slot ∨ free other) slots after := by
  rcases giveBack_exact decomposes.apart slot with ⟨covered, -⟩ | ⟨-, after, given, joined⟩
  · exact absurd ((decomposes.exact slot within).mp covered) taken
  have inside (other : Nat) (covered : Covers runs other) : other < slots := by
    obtain ⟨run, among, -, before⟩ := covered
    exact Nat.lt_of_lt_of_le before (decomposes.inside run among)
  refine ⟨after, given, ?_, joined.apart, fun run among => ?_, fun other less => ?_⟩
  · rw [joined.total]
    omega
  · have some_slot := joined.apart.some_slot run among
    -- the last slot of the run is one of the first so many
    have last : Covers after (run.stop - 1) := ⟨run, among, by omega, by omega⟩
    rcases (joined.exact _).mp last with ⟨-, only⟩ | covered
    · omega
    · have := inside _ covered
      omega
  · rw [joined.exact, decomposes.exact other less]
    refine or_congr_left ?_
    omega

theorem Decomposes.take (decomposes : Decomposes free slots (run :: rest)) :
    let after := if run.start + 1 = run.stop then rest else ⟨run.start + 1, run.stop⟩ :: rest
    run.start < slots ∧ free run.start ∧ total after + 1 = total (run :: rest) ∧
      Decomposes (fun slot => slot ≠ run.start ∧ free slot) slots after := by
  intro after
  obtain ⟨some_slot, behind, others⟩ := apart_cons.mp decomposes.apart
  have stop_le := decomposes.inside run (by simp)
  have first : Covers (run :: rest) run.start :=
    covers_cons.mpr (.inl ⟨Nat.le_refl _, some_slot⟩)
  have beyond (slot : Nat) (covered : Covers rest slot) : slot ≠ run.start := by
    have := behind slot covered
    omega
  have inside : ∀ next ∈ rest, next.stop ≤ slots := fun next among =>
    decomposes.inside next (List.mem_cons_of_mem _ among)
  refine ⟨by omega, (decomposes.exact _ (by omega)).mp first, ?_⟩
  by_cases single : run.start + 1 = run.stop
  · simp only [after, if_pos single]
    refine ⟨by rw [total_cons]; omega, others, inside, fun slot less => ?_⟩
    rw [← decomposes.exact slot less, covers_cons]
    refine ⟨fun covered => ⟨beyond slot covered, .inr covered⟩, ?_⟩
    rintro ⟨other, ⟨from_start, before⟩ | covered⟩
    · omega
    · exact covered
  · simp only [after, if_neg single]
    refine ⟨by simp only [total_cons]; omega, apart_cons.mpr ⟨by simp only; omega, behind, others⟩,
      ?_, fun slot less => ?_⟩
    · intro next among
      rcases List.mem_cons.mp among with rfl | among
      · exact stop_le
      · exact inside next among
    · rw [← decomposes.exact slot less, covers_cons, covers_cons]
      constructor
      · rintro (⟨from_next, before⟩ | covered)
        · simp only at from_next before
          exact ⟨by omega, .inl ⟨by omega, before⟩⟩
        · exact ⟨beyond slot covered, .inr covered⟩
      · rintro ⟨other, ⟨from_start, before⟩ | covered⟩
        · exact .inl ⟨by simp only; omega, before⟩
        · exact .inr covered

theorem decomposes_whole (some_slot : 0 < slots) :
    Decomposes (fun _ => True) slots [⟨0, slots⟩] := by
  refine ⟨apart_cons.mpr ⟨some_slot, by simp, apart_nil⟩, by simp, fun slot less => ?_⟩
  simp [covers_cons, Holds, less]

theorem Decomposes.congr {other : Nat → Prop} (decomposes : Decomposes free slots runs)
    (same : ∀ slot < slots, free slot ↔ other slot) : Decomposes other slots runs :=
  { decomposes with exact := fun slot less => (decomposes.exact slot less).trans (same slot less) }

theorem apart_unique {others : List Range} (left : Apart runs) (right : Apart others)
    (same : ∀ slot, Covers runs slot ↔ Covers others slot) : runs = others := by
  induction runs generalizing others with
  | nil =>
    cases others with
    | nil => rfl
    | cons other tail =>
      have first : Covers (other :: tail) other.start :=
        ⟨other, by simp, Nat.le_refl _, right.some_slot other (by simp)⟩
      exact absurd ((same _).mpr first) not_covers_nil
  | cons run rest ih =>
    cases others with
    | nil =>
      have first : Covers (run :: rest) run.start :=
        ⟨run, by simp, Nat.le_refl _, left.some_slot run (by simp)⟩
      exact absurd ((same _).mp first) not_covers_nil
    | cons other tail =>
      obtain ⟨run_slot, run_behind, run_others⟩ := apart_cons.mp left
      obtain ⟨other_slot, other_behind, other_others⟩ := apart_cons.mp right
      simp only [covers_cons, Holds] at same
      -- each start is the least slot there is, and each stop the least that is not there
      have start : run.start = other.start := by
        have one := (same run.start).mp (.inl ⟨Nat.le_refl _, run_slot⟩)
        have two := (same other.start).mpr (.inl ⟨Nat.le_refl _, other_slot⟩)
        have := other_behind run.start
        have := run_behind other.start
        grind
      have stop : run.stop = other.stop := by
        have one := same run.stop
        have two := same other.stop
        have := other_behind run.stop
        have := run_behind run.stop
        have := run_behind other.stop
        have := other_behind other.stop
        grind
      obtain rfl : run = other := by
        cases run
        cases other
        cases start
        cases stop
        rfl
      refine congrArg _ (ih run_others other_others fun slot => ?_)
      have one := same slot
      have := run_behind slot
      have := other_behind slot
      grind

theorem Decomposes.unique {others : List Range} (left : Decomposes free slots runs)
    (right : Decomposes free slots others) : runs = others := by
  refine apart_unique left.apart right.apart fun slot => ?_
  by_cases within : slot < slots
  · rw [left.exact slot within, right.exact slot within]
  · refine iff_of_false ?_ ?_
    · rintro ⟨run, among, -, before⟩
      exact within (Nat.lt_of_lt_of_le before (left.inside run among))
    · rintro ⟨run, among, -, before⟩
      exact within (Nat.lt_of_lt_of_le before (right.inside run among))

section Along

-- Where slots lie: in the same order, at addresses of their own.
variable {place : Nat → Nat}

def along (place : Nat → Nat) (run : Range) : Range := ⟨place run.start, place run.stop⟩

theorem joinFront_along (rising : StrictMono place) (start stop : Nat) (runs : List Range) :
    joinFront (place start) (place stop) (runs.map (along place)) =
      (joinFront start stop runs).map (along place) := by
  cases runs with
  | nil => rfl
  | cons next rest =>
    simp only [joinFront, List.map_cons, along, rising.injective.eq_iff]
    split <;> rfl

theorem giveBack_along (rising : StrictMono place) (start stop : Nat) (runs : List Range) :
    giveBack (place start) (place stop) (runs.map (along place)) =
      (giveBack start stop runs).map (List.map (along place)) := by
  induction runs with
  | nil => rfl
  | cons run rest ih =>
    cases rest with
    | nil =>
      have joined := joinFront_along rising start stop [run]
      simp only [List.map_cons, List.map_nil] at joined
      simp only [giveBack, List.map_cons, List.map_nil, joined]
      simp only [along, rising.lt_iff_lt, rising.injective.eq_iff]
      split_ifs <;> rfl
    | cons next rest =>
      have joined (start : Nat) := joinFront_along rising start stop
      have whole := joined start (run :: next :: rest)
      have tail (start : Nat) := joined start (next :: rest)
      simp only [List.map_cons] at whole tail ih
      simp only [giveBack, List.map_cons, whole, ih]
      simp only [along, rising.lt_iff_lt, rising.le_iff_le, rising.injective.eq_iff] at tail ⊢
      simp only [tail]
      split_ifs <;> simp [along, Function.comp_def]

end Along

end Range

end Reclaim
