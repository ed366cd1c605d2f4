import Reclaim.Memory.Depot
import Reclaim.Proofs.Device
import Reclaim.Proofs.Memory.Operations
import Reclaim.Proofs.Memory.Backings

namespace Reclaim

-- The memory the device has made for an allocation that does not know of it yet.
def Suspended.memory? : Suspended → Option Nat
  | ⟨_, some (.ok memory)⟩ => some memory.serial
  | _ => none

namespace Depot

variable {δ : Type} {shape : Shape} {depot : Depot δ} {given : List Claim}

structure Sound (shape : Shape) (depot : Depot δ) (given : List Claim) : Prop where
  buddy : depot.buddy.Sound shape
  held : depot.held = given.map depot.buddy.blockAt
  taken : (Buddy.takenCells depot.buddy.taken).Perm (given ++ depot.waiting.map (·.claim))
  backed : Backed depot.buddy.backing depot.held
  live : Live depot.machine
    (serials depot.buddy.backing ++ depot.waiting.filterMap Suspended.memory?)

def Serves (shape : Shape) (depot : Depot δ) (operation : Action (Depot δ) MemoryAnswer) : Prop :=
  ∃ answer after events given, operation depot = ⟨.ok answer, after, events⟩ ∧
    after.Sound shape given

theorem perm_of_place {α : Type} {items : List α} {place : Nat} {item : α}
    (found : items[place]? = some item) : items.Perm (item :: items.eraseIdx place) := by
  obtain ⟨inside, rfl⟩ := List.getElem?_eq_some_iff.mp found
  exact (List.getElem_cons_eraseIdx_perm inside).symm

theorem request_serves (sound : depot.Sound shape given) (size : Nat) :
    depot.Serves shape (request size) := by
  rcases Buddy.claim_run sound.buddy size with ⟨error, ran, -⟩ |
      ⟨cell, level, rest, claims, outcome⟩
  · have step : request size depot = ⟨.ok (.refused error), depot, []⟩ := by
      simp [request, buddyOf, ran]
    exact ⟨_, _, _, given, step, sound⟩
  rcases outcome with ⟨backing, found, ran⟩ | ⟨bare, ran⟩
  · have step : request size depot = ⟨.ok (.block (depot.buddy.blockAt cell)),
        { depot with
          buddy := (depot.buddy.claimed cell level rest).more (depot.buddy.blockAt cell) backing
          held := depot.buddy.blockAt cell :: depot.held }, []⟩ := by
      simp [request, buddyOf, ran, hold]
    refine ⟨_, _, _, cell :: given, step, ?_⟩
    exact {
      buddy := claims.sound.rebacked _
      held := congrArg (List.cons _) sound.held
      taken := (List.Perm.of_eq claims.taken).trans (sound.taken.cons cell)
      backed := sound.backed.more found
      live := sound.live.perm ((sound.backed.serials_kept found).symm.append_right _) }
  · have step : request size depot = ⟨.ok .nothing,
        { depot with
          buddy := depot.buddy.claimed cell level rest
          waiting := ⟨cell, none⟩ :: depot.waiting }, []⟩ := by
      simp [request, buddyOf, ran, wait]
    refine ⟨_, _, _, given, step, ?_⟩
    exact {
      buddy := claims.sound
      held := sound.held
      taken := (List.Perm.of_eq claims.taken).trans ((sound.taken.cons cell).trans List.perm_middle.symm)
      backed := sound.backed
      live := sound.live }

theorem Sound.resumed {place : Nat} {one : Suspended} (sound : depot.Sound shape given)
    (found : depot.waiting[place]? = some one) :
    Sound shape { depot with waiting := one :: depot.waiting.eraseIdx place } given where
  buddy := sound.buddy
  held := sound.held
  taken := sound.taken.trans (((perm_of_place found).map _).append_left _)
  backed := sound.backed
  live := sound.live.perm (((perm_of_place found).filterMap _).append_left _)

theorem make_serves [Device δ] (sound : depot.Sound shape given) (place : Nat) :
    depot.Serves shape (make place) := by
  cases found : depot.waiting[place]? with
  | none =>
    have step : make place depot = ⟨.ok .nothing, depot, []⟩ := by
      simp [make, resume, found]
    exact ⟨_, _, _, given, step, sound⟩
  | some one =>
    have first := sound.resumed found
    obtain ⟨claim, made⟩ := one
    cases made with
    | some made =>
      have step : make place depot = ⟨.ok .nothing,
          { depot with waiting := ⟨claim, some made⟩ :: depot.waiting.eraseIdx place }, []⟩ := by
        simp [make, resume, found, wait]
      exact ⟨_, _, _, given, step, first⟩
    | none =>
      rcases Machine.createMemory_run depot.buddy.heap depot.buddy.heapSize depot.machine with
        ⟨error, device, ran⟩ | ⟨device, outcome, -, ran⟩
      · have step : make place depot = ⟨.ok .nothing,
            { depot with
              machine := { depot.machine with device }
              waiting := ⟨claim, some (.error error)⟩ :: depot.waiting.eraseIdx place },
            [.asked (.memory depot.buddy.heap depot.buddy.heapSize) (.failed error)]⟩ := by
          simp [make, resume, found, machineOf, ran, wait]
        exact ⟨_, _, _, given, step, { first with live := first.live.onDevice device }⟩
      · have step : make place depot = ⟨.ok .nothing,
            { depot with
              machine := { depot.machine with
                device, memoriesMade := depot.machine.memoriesMade + 1
                live := .memory depot.machine.memoriesMade :: depot.machine.live }
              waiting := ⟨claim, some (.ok ⟨depot.machine.memoriesMade⟩)⟩ ::
                depot.waiting.eraseIdx place },
            [.asked (.memory depot.buddy.heap depot.buddy.heapSize) outcome]⟩ := by
          simp [make, resume, found, machineOf, ran, wait]
        refine ⟨_, _, _, given, step, { first with live := ?_ }⟩
        exact (first.live.create.onDevice device).perm List.perm_middle.symm

theorem conclude_serves (sound : depot.Sound shape given) (place : Nat) :
    depot.Serves shape (conclude place) := by
  cases found : depot.waiting[place]? with
  | none =>
    have step : conclude place depot = ⟨.ok .nothing, depot, []⟩ := by
      simp [conclude, resume, found]
    exact ⟨_, _, _, given, step, sound⟩
  | some one =>
    have first := sound.resumed found
    obtain ⟨cell, made⟩ := one
    have present : cell ∈ Buddy.takenCells depot.buddy.taken :=
      first.taken.mem_iff.mpr (List.mem_append_right _ List.mem_cons_self)
    cases made with
    | none =>
      have step : conclude place depot = ⟨.ok .nothing,
          { depot with waiting := ⟨cell, none⟩ :: depot.waiting.eraseIdx place }, []⟩ := by
        simp [conclude, resume, found, wait]
      exact ⟨_, _, _, given, step, first⟩
    | some made =>
      cases made with
      | error error =>
        have ran := Buddy.conclude_failed depot.machine sound.buddy present error
        have step : conclude place depot = ⟨.ok (.refused error),
            { depot with
              buddy := depot.buddy.released cell
              waiting := depot.waiting.eraseIdx place }, []⟩ := by
          simp [conclude, resume, found, bothOf, ran]
        refine ⟨_, _, _, given, step, ?_⟩
        have left := (sound.buddy.taken_perm present).symm.trans first.taken
        exact {
          buddy := sound.buddy.released present
          held := sound.held
          taken := (left.trans List.perm_middle).cons_inv
          backed := sound.backed
          live := first.live }
      | ok memory =>
        have joined : (Buddy.takenCells depot.buddy.taken).Perm
            (cell :: given ++ (depot.waiting.eraseIdx place).map (·.claim)) :=
          first.taken.trans List.perm_middle
        have owned := first.live.perm List.perm_middle
        cases backing : depot.buddy.backing.get? (depot.buddy.blockAt cell).heap with
        | some entry =>
          have ran := Buddy.conclude_spare depot.machine memory backing
          have step : conclude place depot = ⟨.ok (.block (depot.buddy.blockAt cell)),
              { depot with
                buddy := depot.buddy.more (depot.buddy.blockAt cell) entry
                machine := { depot.machine with
                  live := depot.machine.live.erase (.memory memory.serial) }
                held := depot.buddy.blockAt cell :: depot.held
                waiting := depot.waiting.eraseIdx place },
              [.dropped (.memory memory.serial)]⟩ := by
            simp [conclude, resume, found, bothOf, ran, hold]
          refine ⟨_, _, _, cell :: given, step, ?_⟩
          exact {
            buddy := sound.buddy.rebacked _
            held := congrArg (List.cons _) sound.held
            taken := joined
            backed := sound.backed.more backing
            live := owned.drop.perm ((sound.backed.serials_kept backing).symm.append_right _) }
        | none =>
          have ran := Buddy.conclude_first depot.machine memory backing
          have step : conclude place depot = ⟨.ok (.block (depot.buddy.blockAt cell)),
              { depot with
                buddy := depot.buddy.rebacked
                  (depot.buddy.backing.insert (depot.buddy.blockAt cell).heap ⟨memory, 1⟩)
                held := depot.buddy.blockAt cell :: depot.held
                waiting := depot.waiting.eraseIdx place },
              [.noted (.heapBacked depot.buddy.heap (depot.buddy.blockAt cell).heap)]⟩ := by
            simp [conclude, resume, found, bothOf, ran, hold]
          refine ⟨_, _, _, cell :: given, step, ?_⟩
          have now := Backed.serials_first memory backing
          exact {
            buddy := sound.buddy.rebacked _
            held := congrArg (List.cons _) sound.held
            taken := joined
            backed := sound.backed.first backing
            live := owned.perm (List.Perm.of_eq (congrArg (· ++ _) now.symm)) }

theorem free_serves (sound : depot.Sound shape given) (place : Nat) :
    depot.Serves shape (free place) := by
  cases found : depot.held[place]? with
  | none =>
    have step : free place depot = ⟨.ok (.freed none), depot, []⟩ := by
      simp [free, found]
    exact ⟨_, _, _, given, step, sound⟩
  | some block =>
    have cells := found
    rw [sound.held, List.getElem?_map, Option.map_eq_some_iff] at cells
    obtain ⟨cell, listed, rfl⟩ := cells
    have inside := perm_of_place listed
    have present : cell ∈ Buddy.takenCells depot.buddy.taken :=
      sound.taken.mem_iff.mpr (List.mem_append_left _ (List.mem_of_getElem? listed))
    have held : depot.held.eraseIdx place =
        (given.eraseIdx place).map depot.buddy.blockAt := by
      rw [sound.held, List.eraseIdx_map]
    have left := ((sound.buddy.taken_perm present).symm.trans sound.taken).trans
      (inside.append_right _)
    obtain ⟨entry, backing⟩ := sound.backed.found (List.mem_of_getElem? found)
    have some_blocks := sound.backed.used _ _ backing
    rcases Nat.lt_or_ge 1 entry.blocks with several | alone
    · have ran := Buddy.deallocate_fewer depot.machine sound.buddy present backing several
      have step : free place depot = ⟨.ok (.freed (some (depot.buddy.blockAt cell))),
          { depot with
            buddy := (depot.buddy.released cell).fewer (depot.buddy.blockAt cell) entry
            held := depot.held.eraseIdx place }, []⟩ := by
        simp [free, found, bothOf, ran]
      refine ⟨_, _, _, given.eraseIdx place, step, ?_⟩
      exact {
        buddy := (sound.buddy.released present).rebacked _
        held := held
        taken := left.cons_inv
        backed := sound.backed.fewer (perm_of_place found) backing several
        live := sound.live.perm ((sound.backed.serials_kept backing).symm.append_right _) }
    · have last : entry.blocks = 1 := by omega
      have ran := Buddy.deallocate_last depot.machine sound.buddy present backing last
      have step : free place depot = ⟨.ok (.freed (some (depot.buddy.blockAt cell))),
          { depot with
            buddy := (depot.buddy.released cell).rebacked
              (depot.buddy.backing.erase (depot.buddy.blockAt cell).heap)
            machine := { depot.machine with
              live := depot.machine.live.erase (.memory entry.memory.serial) }
            held := depot.held.eraseIdx place },
          [.dropped (.memory entry.memory.serial),
            .noted (.heapReleased depot.buddy.heap (depot.buddy.blockAt cell).heap)]⟩ := by
        simp [free, found, bothOf, ran]
      refine ⟨_, _, _, given.eraseIdx place, step, ?_⟩
      have owned := sound.live.perm ((sound.backed.serials_erase backing).append_right _)
      exact {
        buddy := (sound.buddy.released present).rebacked _
        held := held
        taken := left.cons_inv
        backed := sound.backed.last (perm_of_place found) backing last
        live := owned.drop }

end Depot

end Reclaim
