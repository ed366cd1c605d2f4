import Reclaim.Descriptor.SlotManager
import Reclaim.Memory.Supply
import Reclaim.Proofs.Ownership.Machine
import Reclaim.Proofs.Table

namespace Reclaim

variable {δ τ α : Type}

-- A store at work on a machine, in good order; all else on the machine is with others.
structure Holding (resources : τ → List Resource) (neat : τ → Prop) (floor : Nat)
    (others : List Resource) (both : τ × Machine δ) : Prop where
  neat : neat both.1
  owned : both.2.Owned floor (resources both.1 ++ others)

def madeBy : Except Error Memory → List Resource
  | .ok memory => [.memory memory.serial]
  | .error _ => []

section Holding

variable {resources : τ → List Resource} {neat : τ → Prop} {floor : Nat}
  {others before left : List Resource} {refused : τ × Machine δ → Prop}

theorem holding_machine (before left : List Resource) (more : α → List Resource)
    {x : Action (Machine δ) α}
    (returns : ∀ owned, Action.Returns (Machine.Owned floor (before ++ owned)) x
      (fun a => Machine.Owned floor (more a ++ owned)) (Machine.Owned floor (left ++ owned))) :
    Action.Returns (Holding resources neat floor (before ++ others)) (Action.on .second x)
      (fun a => Holding resources neat floor (more a ++ others))
      (Holding resources neat floor (left ++ others)) := by
  have swap (first second third : List Resource) :
      (first ++ (second ++ third)).Perm (second ++ (first ++ third)) :=
    List.perm_append_comm_assoc ..
  refine Action.returns_on (fun both _ => returns (resources both.1 ++ others)) ?_ ?_ ?_
  · intro both holding
    exact holding.owned.perm (swap ..)
  · intro both a machine holding owned
    exact ⟨holding.neat, owned.perm (swap ..)⟩
  · intro both machine holding owned
    exact ⟨holding.neat, owned.perm (swap ..)⟩

theorem holding_drop (resource : Resource) :
    Action.Returns (Holding (δ := δ) resources neat floor (resource :: others))
      (Action.on .second (Machine.drop resource)) (fun _ => Holding resources neat floor others)
      refused :=
  fun _ holding => ⟨holding.neat, (holding.owned.perm List.perm_middle).remove⟩

theorem holding_createMemory [Device δ] (heap : BufferHeap) (size : Nat) :
    Action.Returns (Holding (δ := δ) resources neat floor others)
      (Action.on .second (Machine.createMemory heap size).attempt)
      (fun made => Holding resources neat floor (madeBy made ++ others))
      (Holding resources neat floor others) := by
  refine holding_machine [] [] madeBy fun owned => ?_
  refine Action.returns_after (Action.returns_attempt (Machine.createMemory_returns heap size)) ?_
  intro made machine holds
  cases made with
  | ok memory => exact holds
  | error error => exact holds

theorem holding_store {x : Action τ α}
    (kept : ∀ held : List Resource,
      Action.Preserves (fun store => neat store ∧ (resources store).Perm held) x) :
    Action.Preserves (Holding (δ := δ) resources neat floor others) (Action.on .first x) := by
  refine Action.returns_on (fun both _ => kept (resources both.1)) ?_ ?_ ?_
  · exact fun both holding => ⟨holding.neat, List.Perm.refl _⟩
  · intro both a store holding moved
    exact ⟨moved.1, holding.owned.perm (moved.2.symm.append_right _)⟩
  · intro both store holding moved
    exact ⟨moved.1, holding.owned.perm (moved.2.symm.append_right _)⟩

theorem holding_modify {f : τ → τ} (kept : ∀ store, neat store → neat (f store))
    (passed : ∀ store, neat store →
      (resources store ++ before).Perm (resources (f store) ++ left)) :
    Action.Returns (Holding resources neat floor before)
      (Action.on (.first : Part (τ × Machine δ) τ) (Action.modify f))
      (fun _ => Holding resources neat floor left) refused :=
  fun both holding => ⟨kept both.1 holding.neat, holding.owned.perm (passed both.1 holding.neat)⟩

end Holding

namespace SlotManager

def resources (manager : SlotManager) : List Resource :=
  manager.heaps.map fun heap => .heap heap.object.serial

def Neat (_ : SlotManager) : Prop := True

variable {floor : Nat} {others held : List Resource}

theorem resources_set {heaps : List SlotHeap} {index : Nat} {heap : SlotHeap} (free : List Range)
    (found : heaps[index]? = some heap) :
    (heaps.set index { heap with free }).map (fun heap => Resource.heap heap.object.serial) =
      heaps.map fun heap => .heap heap.object.serial := by
  rw [List.map_set]
  obtain ⟨inside, same⟩ := List.getElem?_eq_some_iff.mp found
  refine List.ext_getElem (by simp) fun place _ _ => ?_
  by_cases here : index = place
  · subst here
    simp [same]
  · simp [here]

theorem takeFront_keeps (held : List Resource) :
    Action.Preserves (fun manager => manager.resources = held) takeFront := by
  refine Action.returns_bind Action.returns_get fun manager => ?_
  split
  · exact Action.returns_refuse fun _ both => both.1
  split
  · exact Action.returns_refuse fun _ both => both.1
  rename_i heap found
  split
  · exact Action.returns_refuse fun _ both => both.1
  refine Action.returns_bind (Action.returns_checked _) fun start => ?_
  refine Action.returns_bind (Action.returns_modify ?_) fun _ =>
    Action.returns_pure fun _ kept => kept
  rintro now ⟨⟨kept, rfl⟩, -⟩
  exact (resources_set _ found).trans kept

theorem free_keeps (handle : Handle) (index : Nat) (held : List Resource) :
    Action.Preserves (fun manager => manager.resources = held) (free handle index) := by
  refine Action.returns_bind Action.returns_get fun manager => ?_
  split
  · exact Action.returns_before (Action.returns_note _) fun _ both => both.1
  rename_i heap found
  refine Action.returns_bind (Action.returns_checked _) fun stop => ?_
  split
  · exact Action.returns_before (Action.returns_note _) fun _ both => both.1.1
  split
  · exact Action.returns_before (Action.returns_note _) fun _ both => both.1.1
  refine Action.returns_modify ?_
  rintro now ⟨⟨kept, rfl⟩, -⟩
  exact (resources_set _ found).trans kept

theorem holding_of_keeps {x : Action SlotManager α}
    (keeps : ∀ held, Action.Preserves (fun manager => manager.resources = held) x) :
    Action.Preserves (Holding (δ := δ) resources Neat floor others) (Action.on .first x) :=
  holding_store fun _ manager ⟨_, same⟩ =>
    Action.returns_weaken (keeps manager.resources) (fun _ kept => kept)
      (fun _ _ kept => ⟨trivial, kept ▸ same⟩) (fun _ kept => ⟨trivial, kept ▸ same⟩) manager rfl

theorem free_holding (handle : Handle) (index : Nat) :
    Action.Preserves (Holding (δ := δ) resources Neat floor others)
      (Action.on managerOf (free handle index)) :=
  holding_of_keeps (free_keeps handle index)

variable [Device δ]

theorem grow_holding :
    Action.Preserves (Holding (δ := δ) resources Neat floor others) grow := by
  refine Action.returns_bind Action.returns_get fun both => ?_
  dsimp only
  split
  · refine Action.returns_bind (Action.returns_note _) fun _ => ?_
    exact Action.returns_refuse fun _ both => both.1
  have makes : Action.Returns (Holding (δ := δ) resources Neat floor others)
      (Action.on machineOf (Machine.createHeap both.1.desc))
      (fun object => Holding resources Neat floor (.heap object.serial :: others))
      (Holding resources Neat floor others) :=
    holding_machine [] [] (fun object : HeapObject => [.heap object.serial])
      fun _ => Machine.createHeap_returns both.1.desc
  refine Action.returns_bind (Action.returns_before makes fun _ both => both.1) fun object => ?_
  refine Action.returns_bind (Action.returns_checked _) fun stop => ?_
  have entered (store : SlotManager) (heap : SlotHeap) (same : heap.object = object)
      (ready : List Nat) : (store.resources ++ (.heap object.serial :: others)).Perm
        (resources { store with heaps := store.heaps ++ [heap], ready } ++ others) := by
    refine .of_eq ?_
    simp [resources, same]
  refine Action.returns_bind (Action.returns_before (holding_modify (fun _ _ => trivial) ?_)
    fun _ both => both.1) fun _ => Action.returns_note _
  exact fun store _ => entered store _ rfl _

theorem allocate_holding :
    Action.Preserves (Holding (δ := δ) resources Neat floor others) allocate := by
  refine Action.returns_bind (holding_modify (fun _ _ => trivial)
    fun _ _ => List.Perm.refl _) fun _ => ?_
  have takes : Action.Preserves (Holding (δ := δ) resources Neat floor others)
      (Action.on managerOf takeFront) :=
    holding_of_keeps takeFront_keeps
  refine Action.returns_look fun both => ?_
  dsimp only
  split
  · exact Action.returns_bind grow_holding fun _ => takes
  · exact takes

end SlotManager

namespace Buddy

def resources (buddy : Buddy) : List Resource :=
  buddy.backing.map fun entry => .memory entry.2.memory.serial

def Neat (buddy : Buddy) : Prop := buddy.backing.keys.Nodup

variable {floor : Nat} {others held : List Resource} {buddy : Buddy} {backing : Backing}
  {index blocks : Nat}

theorem resources_found (neat : buddy.Neat) (found : buddy.backing.get? index = some backing) :
    buddy.resources.Perm (.memory backing.memory.serial ::
      resources { buddy with backing := buddy.backing.erase index }) :=
  (Table.perm_of_get? neat found).map _

theorem resources_kept (neat : buddy.Neat) (found : buddy.backing.get? index = some backing) :
    (resources { buddy with backing := buddy.backing.insert index { backing with blocks } }).Perm
      buddy.resources :=
  (resources_found neat found).symm

theorem resources_first (memory : Memory) (bare : buddy.backing.get? index = none) :
    resources { buddy with backing := buddy.backing.insert index ⟨memory, 1⟩ } =
      .memory memory.serial :: buddy.resources := by
  simp [resources, Table.insert, Table.erase_of_get?_none bare]

theorem back_keeps (found : buddy.backing.get? index = some backing) :
    Action.Returns (fun now => (now.Neat ∧ now.resources.Perm held) ∧ now.backing = buddy.backing)
      (back index { backing with blocks }) (fun _ now => now.Neat ∧ now.resources.Perm held)
      fun now => now.Neat ∧ now.resources.Perm held := by
  refine Action.returns_modify ?_
  rintro now ⟨⟨neat, same⟩, unchanged⟩
  rw [← unchanged] at found
  exact ⟨Table.keys_insert_nodup neat, (resources_kept neat found).trans same⟩

theorem claim_keeps (size : Nat) (held : List Resource) :
    Action.Preserves (fun buddy => buddy.Neat ∧ buddy.resources.Perm held) (claim size) := by
  refine Action.returns_bind Action.returns_get fun buddy => ?_
  split
  · exact Action.returns_refuse fun _ both => both.1
  dsimp only
  split
  · exact Action.returns_refuse fun _ both => both.1
  split
  · exact Action.returns_refuse fun _ both => both.1
  refine Action.returns_bind (Action.returns_checked _) fun used => ?_
  refine Action.returns_via
    (fun _ now => (now.Neat ∧ now.resources.Perm held) ∧ now.backing = buddy.backing)
    (Action.returns_modify ?_) fun _ => ?_
  · rintro now ⟨⟨kept, rfl⟩, -⟩
    exact ⟨kept, rfl⟩
  split
  · rename_i found
    exact Action.returns_bind (back_keeps found) fun _ => Action.returns_pure fun _ kept => kept
  · exact Action.returns_pure fun _ kept => kept.1

theorem release_keeps (offset order : Nat) (table : Table Backing) :
    Action.Preserves (fun buddy => buddy.backing = table) (release offset order) := by
  refine Action.returns_bind Action.returns_get fun buddy => ?_
  refine Action.returns_bind (Action.returns_checked _) fun used => ?_
  exact Action.returns_modify fun _ all => all.1.1

theorem free_keeps (offset order : Nat) (table : Table Backing) :
    Action.Preserves (fun buddy => buddy.backing = table) (do
      Action.modify fun buddy => { buddy with taken := buddy.taken.erase offset }
      release offset order) :=
  Action.returns_via (fun _ buddy => buddy.backing = table)
    (Action.returns_modify fun _ same => same) fun _ => release_keeps offset order table

theorem holding_of_backing {x : Action Buddy α}
    (keeps : ∀ table, Action.Preserves (fun buddy => buddy.backing = table) x)
    (both : Buddy × Machine δ) :
    Action.Returns (fun now => Holding resources Neat floor others now ∧ both = now)
      (Action.on .first x)
      (fun _ now => Holding resources Neat floor others now ∧ now.1.backing = both.1.backing)
      (Holding resources Neat floor others) := by
  have held {store : Buddy} {machine : Machine δ}
      (holding : Holding resources Neat floor others both)
      (same : store.backing = both.1.backing) (there : machine = both.2) :
      Holding resources Neat floor others (store, machine) := by
    obtain ⟨neat, owned⟩ := holding
    subst there
    refine ⟨?_, ?_⟩
    · unfold Neat at neat ⊢
      rwa [same]
    · unfold resources at owned ⊢
      rwa [same]
  refine Action.returns_on (fun now _ => keeps now.1.backing) (fun _ _ => rfl) ?_ ?_
  · rintro now a store ⟨holding, rfl⟩ same
    exact ⟨held holding same rfl, same⟩
  · rintro now store ⟨holding, rfl⟩ same
    exact held holding same rfl

theorem conclude_made_holding (claim : Claim) (memory : Memory) :
    Action.Returns
      (Holding (δ := δ) resources Neat floor (.memory memory.serial :: others))
      (conclude claim (.ok memory)) (fun _ => Holding resources Neat floor others)
      (Holding resources Neat floor others) := by
  refine Action.returns_bind Action.returns_get fun both => ?_
  dsimp only
  split
  · rename_i backing found
    have counts : Action.Returns
        (fun now => Holding resources Neat floor (.memory memory.serial :: others) now ∧ both = now)
        (Action.on buddyOf (back (both.1.blockAt claim).heap
          { backing with blocks := backing.blocks + 1 }))
        (fun _ => Holding (δ := δ) resources Neat floor (.memory memory.serial :: others))
        (Holding resources Neat floor others) := by
      rintro now ⟨holding, rfl⟩
      exact ⟨Table.keys_insert_nodup holding.neat,
        holding.owned.perm ((resources_kept holding.neat found).symm.append_right _)⟩
    refine Action.returns_bind counts fun _ => ?_
    refine Action.returns_bind (holding_drop _) fun _ => ?_
    exact Action.returns_pure fun _ holding => holding
  · rename_i bare
    have backs : Action.Returns
        (fun now => Holding resources Neat floor (.memory memory.serial :: others) now ∧ both = now)
        (Action.on buddyOf (back (both.1.blockAt claim).heap ⟨memory, 1⟩))
        (fun _ => Holding (δ := δ) resources Neat floor others)
        (Holding resources Neat floor others) := by
      rintro now ⟨holding, rfl⟩
      refine ⟨Table.keys_insert_nodup holding.neat, holding.owned.perm ?_⟩
      exact List.perm_middle.trans
        (.of_eq (congrArg (· ++ others) (resources_first memory bare).symm))
    refine Action.returns_bind backs fun _ => ?_
    refine Action.returns_bind (Action.returns_note _) fun _ => ?_
    exact Action.returns_pure fun _ holding => holding

theorem conclude_failed_holding (claim : Claim) (error : Error) :
    Action.Preserves (Holding (δ := δ) resources Neat floor others)
      (conclude claim (.error error)) := by
  refine Action.returns_bind Action.returns_get fun both => ?_
  refine Action.returns_weaken (holding_of_backing (fun table => ?_) both)
    (fun _ both => both) (fun _ _ kept => kept.1) fun _ holding => holding
  refine Action.returns_via (fun _ buddy => buddy.backing = table)
    (Action.returns_modify fun _ same => same) fun _ => ?_
  refine Action.returns_bind (release_keeps _ _ table) fun _ => ?_
  exact Action.returns_refuse fun _ same => same

theorem conclude_holding (claim : Claim) (made : Except Error Memory) :
    Action.Returns (Holding (δ := δ) resources Neat floor (madeBy made ++ others))
      (conclude claim made) (fun _ => Holding resources Neat floor others)
      (Holding resources Neat floor others) := by
  cases made with
  | ok memory => exact conclude_made_holding claim memory
  | error error => exact conclude_failed_holding claim error

theorem deallocate_holding (block : Block) :
    Action.Preserves (Holding (δ := δ) resources Neat floor others) (deallocate block) := by
  refine Action.returns_bind Action.returns_get fun both => ?_
  dsimp only
  split
  · exact Action.returns_before (Action.returns_note _) fun _ both => both.1
  split
  · exact Action.returns_before (Action.returns_note _) fun _ both => both.1
  rename_i order taken
  refine Action.returns_bind (holding_of_backing (free_keeps _ order) both) fun _ => ?_
  split
  · exact Action.returns_pure fun _ kept => kept.1
  rename_i backing found
  refine Action.returns_bind (Action.returns_checked _) fun blocks => ?_
  split
  · have lets_go : Action.Returns
        (fun now => (Holding resources Neat floor others now ∧ now.1.backing = both.1.backing) ∧
          Word.sub backing.blocks 1 = .ok blocks)
        (Action.on buddyOf <| Action.modify fun buddy =>
          { buddy with backing := buddy.backing.erase block.heap })
        (fun _ => Holding (δ := δ) resources Neat floor
          (.memory backing.memory.serial :: others))
        (Holding resources Neat floor others) := by
      rintro now ⟨⟨holding, same⟩, -⟩
      rw [← same] at found
      refine ⟨Table.keys_erase_nodup holding.neat, holding.owned.perm ?_⟩
      exact ((resources_found holding.neat found).append_right others).trans List.perm_middle.symm
    refine Action.returns_bind lets_go fun _ => ?_
    refine Action.returns_bind (holding_drop _) fun _ => ?_
    exact Action.returns_note _
  · rintro now ⟨⟨holding, same⟩, -⟩
    rw [← same] at found
    exact ⟨Table.keys_insert_nodup holding.neat,
      holding.owned.perm ((resources_kept holding.neat found).symm.append_right _)⟩

end Buddy

namespace Dedicated

def resources (dedicated : Dedicated) : List Resource :=
  dedicated.live.map fun entry => .memory entry.2.memory.serial

structure Neat (dedicated : Dedicated) : Prop where
  distinct : dedicated.live.keys.Nodup
  below : ∀ key ∈ dedicated.live.keys, key ≤ dedicated.lastId

variable {floor : Nat} {others : List Resource} {dedicated : Dedicated}

theorem Neat.fresh (neat : dedicated.Neat) : dedicated.live.get? (dedicated.lastId + 1) = none :=
  Table.get?_eq_none_iff.mpr fun present => Nat.not_succ_le_self _ (neat.below _ present)

theorem Neat.insert (neat : dedicated.Neat) (heap : DedicatedHeap) (used : Nat) :
    Neat { dedicated with
      used, lastId := dedicated.lastId + 1
      live := dedicated.live.insert (dedicated.lastId + 1) heap } where
  distinct := Table.keys_insert_nodup neat.distinct
  below := by
    refine List.forall_mem_cons.mpr ⟨Nat.le_refl _, fun key present => ?_⟩
    rw [Table.erase_of_get?_none neat.fresh] at present
    exact Nat.le_succ_of_le (neat.below key present)

theorem Neat.erase (neat : dedicated.Neat) (id used : Nat) :
    Neat { dedicated with used, live := dedicated.live.erase id } where
  distinct := Table.keys_erase_nodup neat.distinct
  below := fun key present =>
    neat.below key ((List.filter_sublist.map Prod.fst).subset present)

theorem claim_holding (size : Nat) :
    Action.Preserves (Holding (δ := δ) resources Neat floor others)
      (Action.on dedicatedOf (claim size)) := by
  refine holding_store fun held => ?_
  unfold claim
  split
  · exact Action.returns_refuse fun _ kept => kept
  · exact Action.returns_pure fun _ kept => kept

theorem conclude_holding (size : Nat) (made : Except Error Memory) :
    Action.Returns (Holding (δ := δ) resources Neat floor (madeBy made ++ others))
      (conclude size made) (fun _ => Holding resources Neat floor others)
      (Holding resources Neat floor others) := by
  cases made with
  | error error =>
    exact Action.returns_via (fun _ _ => False) (Action.returns_refuse fun _ holding => holding)
      fun _ _ impossible => impossible.elim
  | ok memory =>
    refine Action.returns_via
      (fun made => Holding resources Neat floor (.memory made.serial :: others))
      (Action.returns_pure fun _ holding => holding) fun memory => ?_
    refine Action.returns_bind Action.returns_get fun both => ?_
    dsimp only
    split
    · refine Action.returns_bind (Action.returns_before (holding_drop _) fun _ both => both.1)
        fun _ => ?_
      exact Action.returns_refuse fun _ holding => holding
    · refine Action.returns_via (fun _ => Holding resources Neat floor others) ?_ fun _ =>
        Action.returns_pure fun _ holding => holding
      rintro now ⟨holding, rfl⟩
      refine ⟨holding.neat.insert _ _, holding.owned.perm ?_⟩
      refine List.perm_middle.trans (.of_eq ?_)
      simp [dedicatedOf, Part.first, resources, Table.insert,
        Table.erase_of_get?_none holding.neat.fresh]

theorem deallocate_holding (block : Block) :
    Action.Preserves (Holding (δ := δ) resources Neat floor others) (deallocate block) := by
  refine Action.returns_bind Action.returns_get fun both => ?_
  dsimp only
  split
  · exact Action.returns_before (Action.returns_note _) fun _ both => both.1
  rename_i heap found
  refine Action.returns_bind (Action.returns_checked _) fun used => ?_
  refine Action.returns_via
    (fun _ => Holding resources Neat floor (.memory heap.memory.serial :: others)) ?_ fun _ =>
    holding_drop _
  rintro now ⟨⟨holding, rfl⟩, -⟩
  refine ⟨holding.neat.erase _ _, holding.owned.perm ?_⟩
  exact (((Table.perm_of_get? holding.neat.distinct found).map _).append_right others).trans
    List.perm_middle.symm

variable [Device δ]

theorem allocate_holding (size : Nat) :
    Action.Preserves (Holding (δ := δ) resources Neat floor others) (allocate size) := by
  refine Action.returns_bind (claim_holding size) fun _ => ?_
  refine Action.returns_look fun both => ?_
  exact Action.returns_bind (holding_createMemory _ size) fun made => conclude_holding size made

end Dedicated

namespace Supply

def resources : Supply → List Resource
  | buddy b => b.resources
  | dedicated d => d.resources

def Neat : Supply → Prop
  | buddy b => b.Neat
  | dedicated d => d.Neat

def Issues (ticket : Ticket) (supply : Supply) : Prop :=
  match ticket, supply with
  | .claim _, .buddy _ | .size _, .dedicated _ => True
  | .claim _, .dedicated _ | .size _, .buddy _ => False

variable {floor : Nat} {others : List Resource}

theorem holding_buddy {b : Buddy} {machine : Machine δ} :
    Holding resources Neat floor others (buddy b, machine) ↔
      Holding Buddy.resources Buddy.Neat floor others (b, machine) :=
  ⟨fun holding => ⟨holding.neat, holding.owned⟩, fun holding => ⟨holding.neat, holding.owned⟩⟩

theorem holding_dedicated {d : Dedicated} {machine : Machine δ} :
    Holding resources Neat floor others (dedicated d, machine) ↔
      Holding Dedicated.resources Dedicated.Neat floor others (d, machine) :=
  ⟨fun holding => ⟨holding.neat, holding.owned⟩, fun holding => ⟨holding.neat, holding.owned⟩⟩

theorem byKind_returns {onBuddy : Action (Buddy × Machine δ) α}
    {onDedicated : Action (Dedicated × Machine δ) α} {pre refused : Supply × Machine δ → Prop}
    {post : α → Supply × Machine δ → Prop}
    (buddies : Action.Returns (fun both => pre (buddy both.1, both.2)) onBuddy
      (fun a both => post a (buddy both.1, both.2)) fun both => refused (buddy both.1, both.2))
    (dedicates : Action.Returns (fun both => pre (dedicated both.1, both.2)) onDedicated
      (fun a both => post a (dedicated both.1, both.2))
      fun both => refused (dedicated both.1, both.2)) :
    Action.Returns pre (byKind onBuddy onDedicated) post refused := by
  rintro ⟨supply, machine⟩ holds
  cases supply with
  | buddy b =>
    exact (buddies (b, machine) holds).image (fun both => (buddy both.1, both.2))
      (fun _ _ reached => reached) fun _ stopped => stopped
  | dedicated d =>
    exact (dedicates (d, machine) holds).image (fun both => (dedicated both.1, both.2))
      (fun _ _ reached => reached) fun _ stopped => stopped

theorem deallocate_holding (block : Block) :
    Action.Preserves (Holding (δ := δ) resources Neat floor others) (deallocate block) := by
  refine byKind_returns ?_ ?_
  · simp only [holding_buddy]
    exact Buddy.deallocate_holding block
  · simp only [holding_dedicated]
    exact Dedicated.deallocate_holding block

theorem claim_holding (size : Nat) :
    Action.Returns (Holding (δ := δ) resources Neat floor others) (claim size)
      (fun grant both => Holding resources Neat floor others both ∧
        ∀ bytes ticket, grant = .pending bytes ticket → both.1.Issues ticket)
      (Holding resources Neat floor others) := by
  refine byKind_returns ?_ ?_
  · simp only [holding_buddy]
    refine Action.returns_bind (holding_store (Buddy.claim_keeps size)) fun claimed => ?_
    cases claimed with
    | inl block => exact Action.returns_pure fun _ holding => ⟨holding, nofun⟩
    | inr claim =>
      refine Action.returns_bind Action.returns_get fun both => ?_
      refine Action.returns_pure fun _ both => ⟨both.1, ?_⟩
      rintro bytes ticket same
      cases same
      trivial
  · simp only [holding_dedicated]
    refine Action.returns_bind (Dedicated.claim_holding size) fun _ => ?_
    refine Action.returns_pure fun _ holding => ⟨holding, ?_⟩
    rintro bytes ticket same
    cases same
    trivial

theorem conclude_holding (ticket : Ticket) (made : Except Error Memory) :
    Action.Returns
      (fun both => Holding (δ := δ) resources Neat floor (madeBy made ++ others) both ∧
        both.1.Issues ticket)
      (conclude ticket made) (fun _ => Holding resources Neat floor others)
      (Holding resources Neat floor others) := by
  cases ticket with
  | claim claim =>
    refine byKind_returns ?_ (Action.returns_given (fun _ both => both.2) False.elim)
    simp only [holding_buddy]
    exact Action.returns_before (Buddy.conclude_holding claim made) fun _ both => both.1
  | size size =>
    refine byKind_returns (Action.returns_given (fun _ both => both.2) False.elim) ?_
    simp only [holding_dedicated]
    exact Action.returns_before (Dedicated.conclude_holding size made) fun _ both => both.1

variable [Device δ]

theorem allocate_holding (size : Nat) :
    Action.Preserves (Holding (δ := δ) resources Neat floor others) (allocate size) := by
  unfold allocate allocateWhile
  have claims : Action.Returns (Holding (δ := δ) resources Neat floor others)
      (Action.on .whole (claim size)) _ (Holding resources Neat floor others) := claim_holding size
  refine Action.returns_bind claims fun grant => ?_
  cases grant with
  | block block => exact Action.returns_pure fun _ both => both.1
  | pending bytes ticket =>
    refine Action.returns_bind Action.returns_get fun both => ?_
    -- The supply stays of its kind while the machine is asked.
    let writes (supply : Supply) : Prop := supply.Neat ∧ supply.Issues ticket
    have makes : Action.Returns (Holding (δ := δ) resources writes floor others)
        (Action.on (Part.whole.andThen machineOf)
          (Machine.createMemory both.1.heap bytes).attempt)
        (fun made => Holding resources writes floor (madeBy made ++ others))
        (Holding resources writes floor others) := holding_createMemory _ bytes
    refine Action.returns_bind (Action.returns_weaken makes ?_ (fun _ _ holding => holding)
      fun _ holding => ⟨holding.neat.1, holding.owned⟩) fun made => ?_
    · rintro now ⟨⟨holding, issued⟩, -⟩
      exact ⟨⟨holding.neat, issued bytes ticket rfl⟩, holding.owned⟩
    refine Action.returns_via
      (fun _ => Holding resources writes floor (madeBy made ++ others))
      (Action.returns_pure fun _ holding => holding) fun _ => ?_
    exact Action.returns_before (conclude_holding ticket made) fun _ holding =>
      ⟨⟨holding.neat.1, holding.owned⟩, holding.neat.2⟩

end Supply

end Reclaim
