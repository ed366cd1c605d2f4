import Reclaim.Proofs.Memory.Client

namespace Reclaim

namespace Buddy

variable {δ : Type} {shape : Shape} {buddy : Buddy} {size : Nat}

@[simp] theorem claimed_heap (cell : Claim) (level : Nat) (rest : List Nat) :
    (buddy.claimed cell level rest).heap = buddy.heap := rfl

@[simp] theorem claimed_heapSize (cell : Claim) (level : Nat) (rest : List Nat) :
    (buddy.claimed cell level rest).heapSize = buddy.heapSize := rfl

@[simp] theorem claimed_backing (cell : Claim) (level : Nat) (rest : List Nat) :
    (buddy.claimed cell level rest).backing = buddy.backing := rfl

@[simp] theorem blockAt_claimed (cell other : Claim) (level : Nat) (rest : List Nat) :
    (buddy.claimed cell level rest).blockAt other = buddy.blockAt other := rfl

inductive Allocates (shape : Shape) (buddy : Buddy) (machine : Machine δ) (size : Nat) :
    Run (Supply × Machine δ) Block → Prop where
  | refused (error : Error)
      (lacks : buddy.heapSize < size ∨ buddy.Lacks (buddy.orderOf (max size 1))) :
      Allocates shape buddy machine size ⟨.error (.error error), (.buddy buddy, machine), []⟩
  | backed (cell : Claim) (level : Nat) (rest : List Nat) (backing : Backing)
      (claims : Claims shape buddy size cell level rest)
      (found : buddy.backing.get? (buddy.blockAt cell).heap = some backing) :
      Allocates shape buddy machine size ⟨.ok (buddy.blockAt cell),
        (.buddy ((buddy.claimed cell level rest).more (buddy.blockAt cell) backing), machine), []⟩
  | failed (cell : Claim) (level : Nat) (rest : List Nat) (error : Error) (device : δ)
      (claims : Claims shape buddy size cell level rest) :
      Allocates shape buddy machine size ⟨.error (.error error),
        (.buddy ((buddy.claimed cell level rest).released cell), { machine with device }),
        [.asked (.memory buddy.heap buddy.heapSize) (.failed error)]⟩
  | made (cell : Claim) (level : Nat) (rest : List Nat) (device : δ) (outcome : Outcome)
      (claims : Claims shape buddy size cell level rest)
      (bare : buddy.backing.get? (buddy.blockAt cell).heap = none)
      (went : ∀ error, outcome ≠ .failed error) :
      Allocates shape buddy machine size ⟨.ok (buddy.blockAt cell),
        (.buddy ((buddy.claimed cell level rest).rebacked
            (buddy.backing.insert (buddy.blockAt cell).heap ⟨⟨machine.memoriesMade⟩, 1⟩)),
          { machine with
            device, memoriesMade := machine.memoriesMade + 1
            live := .memory machine.memoriesMade :: machine.live }),
        [.asked (.memory buddy.heap buddy.heapSize) outcome,
          .noted (.heapBacked buddy.heap (buddy.blockAt cell).heap)]⟩

theorem allocate_run [Device δ] (machine : Machine δ) (sound : Sound shape buddy) (size : Nat) :
    Allocates shape buddy machine size (Supply.allocate size (.buddy buddy, machine)) := by
  rcases claim_run sound size with ⟨error, ran, lacks⟩ | ⟨cell, level, rest, claims, outcome⟩
  · have refused : Supply.allocate size (.buddy buddy, machine) =
        ⟨.error (.error error), (.buddy buddy, machine), []⟩ := by
      simp [Supply.allocate, Supply.allocateWhile, Part.whole, MemoryClient.claim_of_buddy ran,
        Except.map]
    rw [refused]
    exact .refused error lacks
  rcases outcome with ⟨backing, found, ran⟩ | ⟨bare, ran⟩
  · have granted : Supply.allocate size (.buddy buddy, machine) = ⟨.ok (buddy.blockAt cell),
        (.buddy ((buddy.claimed cell level rest).more (buddy.blockAt cell) backing), machine),
        []⟩ := by
      simp [Supply.allocate, Supply.allocateWhile, Part.whole, MemoryClient.claim_of_buddy ran,
        Except.map]
    rw [granted]
    exact .backed cell level rest backing claims found
  · have present := claims.present
    rcases Machine.createMemory_run buddy.heap buddy.heapSize machine with
      ⟨error, device, made⟩ | ⟨device, outcome, went, made⟩
    · have ended := conclude_failed { machine with device } claims.sound present error
      have failed : Supply.allocate size (.buddy buddy, machine) = ⟨.error (.error error),
          (.buddy ((buddy.claimed cell level rest).released cell), { machine with device }),
          [.asked (.memory buddy.heap buddy.heapSize) (.failed error)]⟩ := by
        simp [Supply.allocate, Supply.allocateWhile, Part.whole, MemoryClient.claim_of_buddy ran,
          Except.map, Part.andThen, Supply.machineOf, Part.second, Supply.heap,
          made, MemoryClient.conclude_of_buddy ended]
      rw [failed]
      exact .failed cell level rest error device claims
    · have unbacked : (buddy.claimed cell level rest).backing.get?
          ((buddy.claimed cell level rest).blockAt cell).heap = none := bare
      have ended := conclude_first { machine with
          device, memoriesMade := machine.memoriesMade + 1
          live := .memory machine.memoriesMade :: machine.live } ⟨machine.memoriesMade⟩ unbacked
      have granted : Supply.allocate size (.buddy buddy, machine) = ⟨.ok (buddy.blockAt cell),
          (.buddy ((buddy.claimed cell level rest).rebacked
              (buddy.backing.insert (buddy.blockAt cell).heap ⟨⟨machine.memoriesMade⟩, 1⟩)),
            { machine with
              device, memoriesMade := machine.memoriesMade + 1
              live := .memory machine.memoriesMade :: machine.live }),
          [.asked (.memory buddy.heap buddy.heapSize) outcome,
            .noted (.heapBacked buddy.heap (buddy.blockAt cell).heap)]⟩ := by
        simp [Supply.allocate, Supply.allocateWhile, Part.whole, MemoryClient.claim_of_buddy ran,
          Except.map, Part.andThen, Supply.machineOf, Part.second, Supply.heap,
          made, MemoryClient.conclude_of_buddy ended]
      rw [granted]
      exact .made cell level rest device outcome claims bare went

end Buddy

def Depot.allocated {δ : Type} [Device δ] (depot : Depot δ) (size : Nat) :
    Run (Supply × Machine δ) Block :=
  Supply.allocate size (.buddy depot.buddy, depot.machine)

end Reclaim
