import Reclaim.Proofs.Context.Tries
import Reclaim.Proofs.Device

namespace Reclaim

variable {δ κ α : Type}

def Event.isPlain : Event → Bool
  | .asked (.heap _) (.failed _) => true
  | .asked (.heap _) _ => false
  | .noted (.heapRolled ..) => false
  | _ => true

-- Since the machine was as it was at the start nothing has been made.
structure Machine.Wanes (start : Machine δ) (past : List Event) (machine : Machine δ) : Prop where
  heapsMade : machine.heapsMade = start.heapsMade
  live : machine.live.Sublist start.live
  plain : ∀ event ∈ past, event.isPlain = true

namespace Machine

variable {start machine : Machine δ} {past : List Event} {event : Event}

theorem Wanes.refl (machine : Machine δ) : machine.Wanes [] machine :=
  ⟨rfl, .refl _, fun _ present => (List.not_mem_nil present).elim⟩

theorem Wanes.tell (wanes : start.Wanes past machine) (plain : event.isPlain = true) :
    start.Wanes (past ++ [event]) machine :=
  { wanes with plain := List.forall_mem_append.mpr ⟨wanes.plain, List.forall_mem_singleton.mpr plain⟩ }

theorem Wanes.device (wanes : start.Wanes past machine) (device : δ) :
    start.Wanes past { machine with device } :=
  ⟨wanes.heapsMade, wanes.live, wanes.plain⟩

theorem drop_wanes (resource : Resource) : Action.Retains start.Wanes (drop resource) := by
  intro past machine wanes
  have gone : start.Wanes past { machine with live := machine.live.erase resource } :=
    { wanes with live := List.erase_sublist.trans wanes.live }
  exact gone.tell rfl

theorem wait_wanes [Device δ] (queue : Queue) (fence : Nat) :
    Action.Retains start.Wanes (wait queue fence) := by
  intro past machine wanes
  rcases wait_run queue fence machine with ⟨error, device, ran⟩ | ⟨device, outcome, ran⟩
  · rw [ran]
    exact (wanes.device device).tell rfl
  · rw [ran]
    exact (wanes.device device).tell rfl

theorem look_wanes [Device δ] (queue : Queue) : Action.Retains start.Wanes (look queue) := by
  intro past machine wanes
  rw [← List.append_nil past] at wanes
  exact wanes.device _

def WanesBeside (start : Machine δ) : Claims (κ × Machine δ) := fun past both =>
  start.Wanes past both.2

theorem beside_wanes {x : Action (Machine δ) α} (retains : Action.Retains start.Wanes x) :
    Action.Retains (WanesBeside (κ := κ) start) (Action.on .second x) :=
  Action.meets_on (fun _ => rfl) fun _ => retains

theorem store_wanes {x : Action κ α} (silent : ∀ own, (x own).events = []) :
    Action.Retains (WanesBeside (δ := δ) start) (Action.on .first x) := by
  refine Action.retains_of_runs fun past both wanes => ?_
  rw [Action.run_on, silent, List.append_nil]
  exact wanes

theorem note_beside (note : Note) (plain : (Event.noted note).isPlain = true) :
    Action.Retains (WanesBeside (κ := κ) start) (Action.note note) :=
  fun _ _ wanes => Wanes.tell wanes plain

end Machine

open Machine

section Stores

variable {start : Machine δ}

theorem Dedicated.deallocate_wanes (block : Block) :
    Action.Retains (WanesBeside start) (deallocate block) := by
  apply Action.retains_look
  intro both
  dsimp only
  split
  · exact note_beside _ rfl
  apply Action.retains_bind (Action.meets_checked _)
  intro used
  apply Action.retains_bind (store_wanes fun _ => rfl)
  intro _
  exact beside_wanes (drop_wanes _)

theorem Buddy.release_silent (offset order : Nat) (buddy : Buddy) :
    (release offset order buddy).events = [] := by
  unfold release
  cases used : Word.sub buddy.used (buddy.blockSize order) <;> simp [used]

theorem Buddy.deallocate_wanes (block : Block) :
    Action.Retains (WanesBeside start) (deallocate block) := by
  apply Action.retains_look
  intro both
  dsimp only
  split
  · exact note_beside _ rfl
  split
  · exact note_beside _ rfl
  refine Action.retains_bind (store_wanes fun buddy => Buddy.release_silent ..) fun _ => ?_
  split
  · exact Action.retains_pure _
  apply Action.retains_bind (Action.meets_checked _)
  intro blocks
  split
  · apply Action.retains_bind (store_wanes fun _ => rfl)
    intro _
    exact Action.retains_bind (beside_wanes (drop_wanes _)) fun _ => note_beside _ rfl
  · exact store_wanes fun _ => rfl

theorem Supply.deallocate_wanes (block : Block) :
    Action.Retains (WanesBeside start) (deallocate block) := by
  rintro past ⟨supply, machine⟩ wanes
  cases supply with
  | buddy buddy =>
    have ends := Buddy.deallocate_wanes block past (buddy, machine) wanes
    exact ends.image (fun both => (Supply.buddy both.1, both.2)) (fun _ _ _ held => held)
      fun _ _ held => held
  | dedicated dedicated =>
    have ends := Dedicated.deallocate_wanes block past (dedicated, machine) wanes
    exact ends.image (fun both => (Supply.dedicated both.1, both.2)) (fun _ _ _ held => held)
      fun _ _ held => held

end Stores

namespace Shared

variable {start : Machine δ}

def Wanes (start : Machine δ) : Claims (Shared δ) := fun past shared =>
  start.Wanes past shared.machine

theorem note_wanes (note : Note) (plain : (Event.noted note).isPlain = true) :
    Action.Retains (Wanes start) (Action.note note) :=
  fun _ _ wanes => Machine.Wanes.tell wanes plain

theorem machine_wanes {x : Action (Machine δ) α} (retains : Action.Retains start.Wanes x) :
    Action.Retains (Wanes start) (Action.on machineOf x) :=
  Action.meets_on (fun _ => rfl) fun _ => retains

theorem observe_wanes (queue : Queue) (fence : Nat) :
    Action.Retains (Wanes (δ := δ) start) (observe queue fence) :=
  fun _ _ wanes => Machine.Wanes.tell wanes rfl

theorem recordingFence_wanes (queue : Queue) :
    Action.Retains (Wanes (δ := δ) start) (recordingFence queue) :=
  Action.retains_look fun _ => Action.retains_pure _

theorem drop_wanes (resource : Resource) : Action.Retains (Wanes start) (drop resource) :=
  machine_wanes (Machine.drop_wanes resource)

theorem store_wanes {part : Part (Shared δ) (κ × Machine δ)} {x : Action (κ × Machine δ) α}
    (reads : ∀ shared, (part.get shared).2 = shared.machine)
    (writes : ∀ both shared, (part.put both shared).machine = both.2)
    (retains : Action.Retains (WanesBeside start) x) :
    Action.Retains (Wanes start) (Action.on part x) := by
  intro past shared wanes
  have started : WanesBeside start past (part.get shared) := by
    unfold WanesBeside
    rw [reads]
    exact wanes
  have back (now : List Event) (both : κ × Machine δ) (held : WanesBeside start now both) :
      Wanes start now (part.put both shared) := by
    unfold Wanes
    rw [writes]
    exact held
  exact (retains past _ started).image (part.put · shared) (fun _ => back) back

theorem giveBack_wanes (owner : Owner) (block : Block) :
    Action.Retains (Wanes (δ := δ) start) (giveBack owner block) := by
  unfold giveBack
  split
  · exact store_wanes (fun _ => rfl) (fun _ _ => rfl) (Dedicated.deallocate_wanes block)
  · exact store_wanes (fun _ => rfl) (fun _ _ => rfl) (Supply.deallocate_wanes block)

variable [Device δ]

theorem completedFence_wanes (queue : Queue) :
    Action.Retains (Wanes (δ := δ) start) (completedFence queue) :=
  Action.retains_bind (machine_wanes (look_wanes queue)) fun fence => observe_wanes queue fence

theorem keeper_wanes :
    keeper.Handles (fun _ x => Action.Retains (Wanes (δ := δ) start) x) reading where
  completed := completedFence_wanes
  recording := recordingFence_wanes
  change _ := Action.meets_before Action.meets_on_modify fun _ _ wanes => wanes
  destroy _ := drop_wanes _
  giveBack := giveBack_wanes
  tell _ _ := note_wanes _ rfl

theorem waitFor_wanes (queue : Queue) (fence : Nat) :
    Action.Retains (Wanes (δ := δ) start) (waitFor queue fence) := by
  apply Action.retains_bind (completedFence_wanes queue)
  intro known
  split
  · exact Action.retains_pure _
  apply Action.retains_bind (recordingFence_wanes queue)
  intro recording
  split
  · exact Action.retains_bind (note_wanes _ rfl) fun _ => Action.retains_refuse _
  · apply Action.retains_bind (machine_wanes (Machine.wait_wanes queue fence))
    intro _
    exact Action.retains_bind (observe_wanes queue fence) fun _ => Action.retains_pure _

theorem retire_wanes (retiree : Retiree) (last : Fences) (completion : Bool) (waits : List Wait) :
    Action.Retains (Wanes (δ := δ) start) (retire retiree last completion waits) :=
  Action.retains_look fun _ => keeper_wanes.addObject (Action.retains_compositional _) _ _

theorem trimRetired_wanes (teardown : Bool) :
    Action.Retains (Wanes (δ := δ) start) (trimRetired teardown) :=
  Action.retains_look fun _ => keeper_wanes.trim (Action.retains_compositional _) _ teardown

section Fallback

theorem waitEach_wanes (fences : Fences) (queues : List Queue) (waited : Bool) :
    Action.Retains (Wanes (δ := δ) start) (waitEach fences queues waited) :=
  waitEach_composes (Action.retains_compositional _) recordingFence_wanes completedFence_wanes
    (fun queue fence => Action.retains_attempt (waitFor_wanes queue fence))
    (fun _ => note_wanes _ rfl) fences queues waited

theorem reclaim_wanes : Action.Retains (Wanes (δ := δ) start) reclaim :=
  reclaim_composes (Action.retains_compositional _) (trimRetired_wanes false)
    fun fences => waitEach_wanes fences _ _

structure Makes (start : Machine δ) (desc : HeapDesc) (object : HeapObject) (past : List Event)
    (shared : Shared δ) : Prop where
  serial : object.serial = start.heapsMade
  heapsMade : shared.machine.heapsMade = start.heapsMade + 1
  live : ∃ left, shared.machine.live = .heap object.serial :: left ∧ left.Sublist start.live
  told : ∃ earlier outcome, past = earlier ++ [.asked (.heap desc) outcome] ∧
    (∀ event ∈ earlier, event.isPlain = true) ∧ ∀ error, outcome ≠ .failed error

theorem createHeap_makes (desc : HeapDesc) :
    Action.Meets (Wanes (δ := δ) start) (createHeap desc) (Makes start desc) (Wanes start) := by
  refine allocateWith_meets reclaim_wanes (note_wanes _ rfl) ?_
  intro past shared wanes
  rcases Machine.createHeap_run desc shared.machine with ⟨error, device, ran⟩ |
    ⟨cpuStart, gpuStart, device, outcome, made, ran⟩
  · rw [Action.on_of_run machineOf ran]
    exact (Machine.Wanes.device wanes device).tell rfl
  · rw [Action.on_of_run machineOf ran]
    obtain ⟨heapsMade, live, plain⟩ := wanes
    exact ⟨heapsMade, congrArg (· + 1) heapsMade, ⟨_, rfl, live⟩, past, outcome, rfl, plain, made⟩

end Fallback

end Shared

end Reclaim
