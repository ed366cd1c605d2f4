import Reclaim.Context.Session
import Reclaim.Proofs.Ring.Grants

namespace Reclaim

def Reached (past : List Event) (fence : Nat) : Prop :=
  ∃ known, fence ≤ known ∧ Event.observed .graphics known ∈ past

def Event.made? : Event → Option HeapDesc
  | .asked (.heap _) (.failed _) => none
  | .asked (.heap desc) _ => some desc
  | _ => none

theorem Event.made?_asked {desc : HeapDesc} {outcome : Outcome}
    (made : ∀ error, outcome ≠ .failed error) :
    (Event.asked (.heap desc) outcome).made? = some desc := by
  cases outcome with
  | done | withoutGpu => rfl
  | failed error => exact absurd rfl (made error)

-- The heaps the device has made; a heap object's serial is its place among them.
def madeHeaps (past : List Event) : List HeapDesc := past.filterMap Event.made?

-- The event makes no heap, drops none and shows nothing of the graphics queue.
def Event.isQuiet : Event → Bool
  | .asked (.heap _) (.failed _) => true
  | .asked (.heap _) _ => false
  | .observed .graphics _ => false
  | .dropped (.heap _) => false
  | _ => true

def quiet (events : List Event) : Bool := events.all Event.isQuiet

structure Lease where
  serial : Nat
  first : Nat
  slots : Nat
  fence : Nat
  since : List Event

namespace Lease

def grant (lease : Lease) : Ring.Grant := ⟨lease.first, lease.slots, lease.fence⟩

def Has (lease : Lease) (slot : Nat) : Prop :=
  lease.first ≤ slot ∧ slot < lease.first + lease.slots

def Yields (earlier later : Lease) : Prop :=
  earlier.serial = later.serial → ∀ slot, earlier.Has slot → later.Has slot →
    Reached later.since earlier.fence

def Lasts (lease : Lease) (past : List Event) : Prop :=
  ∀ before after, past = before ++ .dropped (.heap lease.serial) :: after →
    Reached before lease.fence

end Lease

-- Where a heap object lies, and which leases are kept there beyond what the queue has come to.
structure Berth where
  serial : Nat
  honours : Lease → Prop

def Berth.spare (serial : Nat) : Berth := ⟨serial, fun _ => False⟩

structure Upheld (leases : List Lease) (berths : List Berth) (now : Nat) (past : List Event)
    (known heapsMade : Nat) : Prop where
  begun : 0 < now
  seen : ∀ fence, 0 < fence → (Reached past fence ↔ fence ≤ known)
  counted : heapsMade = (madeHeaps past).length
  timely : ∀ lease ∈ leases, 0 < lease.fence ∧ lease.fence ≤ now
  inside : ∀ lease ∈ leases, ∃ desc, (madeHeaps past)[lease.serial]? = some desc ∧
    lease.first + lease.slots ≤ desc.slots
  lasting : ∀ lease ∈ leases, lease.Lasts past
  gone : ∀ serial, .dropped (.heap serial) ∈ past →
    serial < heapsMade ∧ ∀ berth ∈ berths, berth.serial ≠ serial
  yielding : leases.Pairwise Lease.Yields
  honoured : ∀ berth ∈ berths, ∀ lease ∈ leases, lease.serial = berth.serial →
    lease.fence ≤ known ∨ berth.honours lease
  distinct : (berths.map (·.serial)).Nodup
  below : ∀ berth ∈ berths, berth.serial < heapsMade

section Traces

variable {past events : List Event} {event : Event} {fence : Nat} {lease : Lease}

theorem Reached.append (reached : Reached past fence) (events : List Event) :
    Reached (past ++ events) fence := by
  obtain ⟨known, le, present⟩ := reached
  exact ⟨known, le, List.mem_append_left _ present⟩

theorem reached_append (none_seen : ∀ known, .observed .graphics known ∉ events) :
    Reached (past ++ events) fence ↔ Reached past fence := by
  refine ⟨?_, fun reached => reached.append events⟩
  rintro ⟨known, le, present⟩
  rcases List.mem_append.mp present with old | new
  · exact ⟨known, le, old⟩
  · exact (none_seen known new).elim

theorem madeHeaps_append (past events : List Event) :
    madeHeaps (past ++ events) = madeHeaps past ++ madeHeaps events :=
  List.filterMap_append

theorem Event.made?_of_isQuiet (still : event.isQuiet) : event.made? = none := by
  cases event with
  | asked call outcome =>
    cases call <;> cases outcome <;> first | rfl | cases still
  | _ => rfl

theorem madeHeaps_quiet (still : quiet events) : madeHeaps events = [] :=
  List.filterMap_eq_nil_iff.mpr fun event present =>
    Event.made?_of_isQuiet (List.all_eq_true.mp still event present)

theorem reached_quiet (still : quiet events) : Reached (past ++ events) fence ↔ Reached past fence :=
  reached_append fun _ present => Bool.false_ne_true (List.all_eq_true.mp still _ present)

theorem made_append {serial : Nat} {desc : HeapDesc}
    (made : (madeHeaps past)[serial]? = some desc) (events : List Event) :
    (madeHeaps (past ++ events))[serial]? = some desc := by
  rw [madeHeaps_append]
  obtain ⟨inside, -⟩ := List.getElem?_eq_some_iff.mp made
  rw [List.getElem?_append_left inside]
  exact made

theorem kept_quiet {serial : Nat} (still : quiet events)
    (dropped : .dropped (.heap serial) ∈ past ++ events) : .dropped (.heap serial) ∈ past :=
  (List.mem_append.mp dropped).elim id fun new =>
    (Bool.false_ne_true (List.all_eq_true.mp still _ new)).elim

theorem quiet_notes (notes : List Note) : quiet (notes.map Event.noted) := by
  refine List.all_eq_true.mpr fun event present => ?_
  obtain ⟨note, -, rfl⟩ := List.mem_map.mp present
  rfl

theorem Lease.Lasts.concat (lasts : lease.Lasts past)
    (timely : event = .dropped (.heap lease.serial) → Reached past lease.fence) :
    lease.Lasts (past ++ [event]) := by
  intro before after split
  rcases List.append_eq_append_iff.mp split.symm with ⟨rest, whole, tail⟩ | ⟨rest, whole, tail⟩
  · cases rest with
    | nil =>
      cases tail
      rw [whole, List.append_nil] at timely
      exact timely rfl
    | cons head rest =>
      rw [List.cons_append] at tail
      cases tail
      exact lasts before rest whole
  · cases rest with
    | nil =>
      cases tail
      rw [List.append_nil] at whole
      rw [whole]
      exact timely rfl
    | cons head rest =>
      simp at tail

theorem Lease.Lasts.quiet (lasts : lease.Lasts past) (still : quiet events) :
    lease.Lasts (past ++ events) := by
  induction events generalizing past with
  | nil => rwa [List.append_nil]
  | cons event rest ih =>
    obtain ⟨first, others⟩ := Bool.and_eq_true_iff.mp still
    have one : lease.Lasts (past ++ [event]) := lasts.concat fun same => by
      rw [same] at first
      cases first
    have all := ih one others
    rwa [List.append_assoc] at all

end Traces

namespace Upheld

variable {leases : List Lease} {berths others : List Berth} {berth : Berth}
  {now known heapsMade : Nat} {past events : List Event}

theorem start (still : Reclaim.quiet past) : Upheld [] [] 1 past 0 0 where
  begun := Nat.one_pos
  seen fence some_fence := by
    refine ⟨fun reached => ?_, fun none => absurd some_fence (Nat.not_lt.mpr none)⟩
    obtain ⟨known, -, present⟩ := reached
    exact (Bool.false_ne_true (List.all_eq_true.mp still _ present)).elim
  counted := by rw [madeHeaps_quiet still]; rfl
  timely lease leased := (List.not_mem_nil leased).elim
  inside lease leased := (List.not_mem_nil leased).elim
  lasting lease leased := (List.not_mem_nil leased).elim
  gone serial dropped := (Bool.false_ne_true (List.all_eq_true.mp still _ dropped)).elim
  yielding := .nil
  honoured berth present := (List.not_mem_nil present).elim
  distinct := List.nodup_nil
  below berth present := (List.not_mem_nil present).elim

theorem perm (upheld : Upheld leases berths now past known heapsMade)
    (same : berths.Perm others) : Upheld leases others now past known heapsMade :=
  { upheld with
    honoured := fun berth present => upheld.honoured berth (same.mem_iff.mpr present)
    gone := fun serial dropped => (upheld.gone serial dropped).imp_right fun elsewhere berth present =>
      elsewhere berth (same.mem_iff.mpr present)
    distinct := ((same.map _).nodup_iff).mp upheld.distinct
    below := fun berth present => upheld.below berth (same.mem_iff.mpr present) }

theorem forget (upheld : Upheld leases (berth :: berths) now past known heapsMade) :
    Upheld leases berths now past known heapsMade :=
  { upheld with
    honoured := fun berth present => upheld.honoured berth (List.mem_cons_of_mem _ present)
    gone := fun serial dropped => (upheld.gone serial dropped).imp_right fun elsewhere berth present =>
      elsewhere berth (List.mem_cons_of_mem _ present)
    distinct := (List.nodup_cons.mp upheld.distinct).2
    below := fun berth present => upheld.below berth (List.mem_cons_of_mem _ present) }

theorem change {honours : Lease → Prop}
    (upheld : Upheld leases (berth :: berths) now past known heapsMade)
    (enough : ∀ lease ∈ leases, berth.honours lease → lease.fence ≤ known ∨ honours lease) :
    Upheld leases (⟨berth.serial, honours⟩ :: berths) now past known heapsMade :=
  { upheld with
    honoured := by
      intro other present lease leased same
      rcases List.mem_cons.mp present with rfl | rest
      · rcases upheld.honoured berth List.mem_cons_self lease leased same with early | kept
        · exact .inl early
        · exact enough lease leased kept
      · exact upheld.honoured other (List.mem_cons_of_mem _ rest) lease leased same
    gone := by
      intro serial dropped
      obtain ⟨made, elsewhere⟩ := upheld.gone serial dropped
      refine ⟨made, fun other present => ?_⟩
      rcases List.mem_cons.mp present with rfl | rest
      · exact elsewhere berth List.mem_cons_self
      · exact elsewhere other (List.mem_cons_of_mem _ rest)
    below := by
      intro other present
      rcases List.mem_cons.mp present with rfl | rest
      · exact upheld.below berth List.mem_cons_self
      · exact upheld.below other (List.mem_cons_of_mem _ rest) }

theorem extend {later : Nat} (upheld : Upheld leases berths now past known heapsMade)
    (none_made : madeHeaps events = []) (le : known ≤ later)
    (seen : ∀ fence, 0 < fence → (Reached (past ++ events) fence ↔ fence ≤ later))
    (lasting : ∀ lease ∈ leases, lease.Lasts (past ++ events))
    (gone : ∀ serial, .dropped (.heap serial) ∈ past ++ events →
      serial < heapsMade ∧ ∀ berth ∈ berths, berth.serial ≠ serial) :
    Upheld leases berths now (past ++ events) later heapsMade :=
  { upheld with
    seen, lasting, gone
    counted := by
      rw [madeHeaps_append, none_made, List.append_nil]
      exact upheld.counted
    inside := fun lease leased => by
      obtain ⟨desc, made, fits⟩ := upheld.inside lease leased
      exact ⟨desc, made_append made events, fits⟩
    honoured := fun berth present lease leased same =>
      (upheld.honoured berth present lease leased same).imp_left fun early =>
        Nat.le_trans early le }

theorem quiet (upheld : Upheld leases berths now past known heapsMade)
    (still : Reclaim.quiet events) :
    Upheld leases berths now (past ++ events) known heapsMade :=
  upheld.extend (madeHeaps_quiet still) (Nat.le_refl _)
    (fun fence some_fence => (reached_quiet still).trans (upheld.seen fence some_fence))
    (fun lease leased => (upheld.lasting lease leased).quiet still)
    fun serial dropped => upheld.gone serial (kept_quiet still dropped)

theorem know {later : Nat} (upheld : Upheld leases berths now past known heapsMade)
    (le : known ≤ later) :
    Upheld leases berths now (past ++ [.observed .graphics later]) later heapsMade := by
  refine upheld.extend rfl le (fun fence some_fence => ⟨?_, fun early => ?_⟩)
    (fun lease leased => (upheld.lasting lease leased).concat fun same => by cases same)
    fun serial dropped => upheld.gone serial (by simpa using dropped)
  · rintro ⟨seen, early, present⟩
    rcases List.mem_append.mp present with old | new
    · exact Nat.le_trans ((upheld.seen fence some_fence).mp ⟨seen, early, old⟩) le
    · cases List.mem_singleton.mp new
      exact early
  · exact ⟨later, early, List.mem_append_right _ List.mem_cons_self⟩

theorem close (upheld : Upheld leases berths now past known heapsMade) :
    Upheld leases berths (now + 1) past known heapsMade :=
  { upheld with
    begun := Nat.succ_pos now
    timely := fun lease leased =>
      (upheld.timely lease leased).imp_right fun le => Nat.le_succ_of_le le }

theorem make {desc : HeapDesc} {outcome : Outcome}
    (upheld : Upheld leases berths now past known heapsMade)
    (made : (Event.asked (.heap desc) outcome).made? = some desc) :
    Upheld leases (.spare heapsMade :: berths) now (past ++ [.asked (.heap desc) outcome]) known
        (heapsMade + 1) ∧
      (madeHeaps (past ++ [.asked (.heap desc) outcome]))[heapsMade]? = some desc := by
  have one : madeHeaps [.asked (.heap desc) outcome] = [desc] := by
    simp [madeHeaps, made]
  refine ⟨{ upheld with
    seen := fun fence some_fence => (reached_append (by simp)).trans (upheld.seen fence some_fence)
    counted := ?_
    inside := ?_
    lasting := ?_
    gone := ?_
    honoured := ?_
    distinct := ?_
    below := ?_ }, ?_⟩
  · rw [madeHeaps_append, one, List.length_append, ← upheld.counted]
    rfl
  · intro lease leased
    obtain ⟨desc, before, fits⟩ := upheld.inside lease leased
    exact ⟨desc, made_append before _, fits⟩
  · intro lease leased
    exact (upheld.lasting lease leased).concat fun same => by cases same
  · intro serial dropped
    obtain ⟨made, elsewhere⟩ := upheld.gone serial (by simpa using dropped)
    refine ⟨Nat.lt_succ_of_lt made, fun berth present => ?_⟩
    rcases List.mem_cons.mp present with rfl | old
    · exact Nat.ne_of_gt made
    · exact elsewhere berth old
  · intro berth present lease leased same
    rcases List.mem_cons.mp present with rfl | old
    · obtain ⟨desc, before, -⟩ := upheld.inside lease leased
      obtain ⟨inside, -⟩ := List.getElem?_eq_some_iff.mp before
      rw [← upheld.counted, same] at inside
      exact absurd inside (Nat.lt_irrefl _)
    · exact upheld.honoured berth old lease leased same
  · refine List.nodup_cons.mpr ⟨fun listed => ?_, upheld.distinct⟩
    obtain ⟨berth, present, same⟩ := List.mem_map.mp listed
    have below := upheld.below berth present
    rw [same] at below
    exact Nat.lt_irrefl heapsMade below
  · intro berth present
    rcases List.mem_cons.mp present with rfl | old
    · exact Nat.lt_succ_self _
    · exact Nat.lt_succ_of_lt (upheld.below berth old)
  · rw [madeHeaps_append, one, upheld.counted, List.getElem?_append_right (Nat.le_refl _),
      Nat.sub_self]
    rfl

theorem drop (upheld : Upheld leases (berth :: berths) now past known heapsMade)
    (outlived : ∀ lease ∈ leases, berth.honours lease → lease.fence ≤ known) :
    Upheld leases berths now (past ++ [.dropped (.heap berth.serial)]) known heapsMade := by
  have reached (lease : Lease) (leased : lease ∈ leases)
      (same : Event.dropped (.heap berth.serial) = .dropped (.heap lease.serial)) :
      Reached past lease.fence := by
    injection same with resource
    injection resource with serial
    have come : lease.fence ≤ known :=
      (upheld.honoured berth List.mem_cons_self lease leased serial.symm).elim id
        (outlived lease leased)
    exact (upheld.seen _ (upheld.timely lease leased).1).mpr come
  refine upheld.forget.extend rfl (Nat.le_refl _)
    (fun fence some_fence => (reached_append (by simp)).trans (upheld.seen fence some_fence))
    (fun lease leased => (upheld.lasting lease leased).concat (reached lease leased)) ?_
  intro serial dropped
  rcases List.mem_append.mp dropped with old | new
  · exact upheld.forget.gone serial old
  · cases List.mem_singleton.mp new
    refine ⟨upheld.below berth List.mem_cons_self, fun other present same => ?_⟩
    exact (List.nodup_cons.mp upheld.distinct).1 (List.mem_map.mpr ⟨other, present, same⟩)

theorem grant {lease : Lease} {desc : HeapDesc} {honours : Lease → Prop}
    (upheld : Upheld leases (berth :: berths) now past known heapsMade)
    (here : lease.serial = berth.serial) (fence : lease.fence = now) (since : lease.since = past)
    (made : (madeHeaps past)[lease.serial]? = some desc)
    (fits : lease.first + lease.slots ≤ desc.slots)
    (apart : ∀ other ∈ leases, berth.honours other → ∀ slot, other.Has slot → lease.Has slot →
      other.fence ≤ known)
    (enough : ∀ other ∈ leases, berth.honours other → other.fence ≤ known ∨ honours other)
    (honoured : honours lease) :
    Upheld (leases ++ [lease]) (⟨berth.serial, honours⟩ :: berths) now past known heapsMade := by
  have changed := upheld.change enough
  refine { changed with timely := ?_, inside := ?_, lasting := ?_, yielding := ?_, honoured := ?_ }
  · intro other leased
    rcases List.mem_append.mp leased with old | new
    · exact upheld.timely other old
    · rw [List.mem_singleton.mp new, fence]
      exact ⟨upheld.begun, Nat.le_refl _⟩
  · intro other leased
    rcases List.mem_append.mp leased with old | new
    · exact upheld.inside other old
    · rw [List.mem_singleton.mp new]
      exact ⟨desc, made, fits⟩
  · intro other leased
    rcases List.mem_append.mp leased with old | new
    · exact upheld.lasting other old
    · rw [List.mem_singleton.mp new]
      intro before after split
      have dropped : .dropped (.heap lease.serial) ∈ past := split ▸ List.mem_append_cons_self
      exact absurd here.symm ((upheld.gone lease.serial dropped).2 berth List.mem_cons_self)
  · refine List.pairwise_append.mpr ⟨upheld.yielding, List.pairwise_singleton _ _, ?_⟩
    intro other old new added
    rw [List.mem_singleton.mp added]
    intro same slot had has
    rw [since]
    have reached : other.fence ≤ known :=
      (upheld.honoured berth List.mem_cons_self other old (same.trans here)).elim id
        fun kept => apart other old kept slot had has
    exact (upheld.seen _ (upheld.timely other old).1).mpr reached
  · intro place present other leased same
    rcases List.mem_append.mp leased with old | new
    · exact changed.honoured place present other old same
    · rw [List.mem_singleton.mp new] at same ⊢
      rcases List.mem_cons.mp present with rfl | elsewhere
      · exact .inr honoured
      · have fresh := (List.nodup_cons.mp upheld.distinct).1
        exact absurd (List.mem_map.mpr ⟨place, elsewhere, same.symm.trans here⟩) fresh

end Upheld

end Reclaim
