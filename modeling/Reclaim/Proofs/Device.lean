import Reclaim.Device.Machine
import Reclaim.Proofs.Execution

namespace Reclaim.Machine

variable {δ : Type} [Device δ]

theorem wait_run (queue : Queue) (fence : Nat) (machine : Machine δ) :
    (∃ error device, wait queue fence machine =
        ⟨.error (.error error), { machine with device },
          [.asked (.wait queue fence) (.failed error)]⟩) ∨
      ∃ device outcome, wait queue fence machine =
        ⟨.ok (), { machine with device }, [.asked (.wait queue fence) outcome]⟩ := by
  cases answered : Device.answer (.wait queue fence) machine.device with
  | mk outcome device =>
    cases outcome with
    | failed error =>
      refine .inl ⟨error, device, ?_⟩
      simp [wait, ask, answered]
    | done =>
      refine .inr ⟨device, .done, ?_⟩
      simp [wait, ask, answered]
    | withoutGpu =>
      refine .inr ⟨device, .withoutGpu, ?_⟩
      simp [wait, ask, answered]

theorem createHeap_run (desc : HeapDesc) (machine : Machine δ) :
    (∃ error device, createHeap desc machine =
        ⟨.error (.error error), { machine with device }, [.asked (.heap desc) (.failed error)]⟩) ∨
      ∃ cpuStart gpuStart device outcome, (∀ error, outcome ≠ .failed error) ∧
        createHeap desc machine =
          ⟨.ok ⟨machine.heapsMade, cpuStart, gpuStart⟩,
            { machine with
              device, heapsMade := machine.heapsMade + 1
              live := .heap machine.heapsMade :: machine.live }, [.asked (.heap desc) outcome]⟩ := by
  cases answered : Device.answer (.heap desc) machine.device with
  | mk outcome device =>
    let start := if desc.shaderVisible then some (Device.gpuStart device machine.heapsMade) else none
    cases outcome with
    | failed error =>
      refine .inl ⟨error, device, ?_⟩
      simp [createHeap, ask, answered]
    | done =>
      refine .inr ⟨Device.cpuStart device machine.heapsMade, start, device, .done, nofun, ?_⟩
      simp [createHeap, ask, answered, start]
    | withoutGpu =>
      refine .inr ⟨Device.cpuStart device machine.heapsMade, none, device, .withoutGpu, nofun, ?_⟩
      simp [createHeap, ask, answered]

theorem createMemory_run (heap : BufferHeap) (size : Nat) (machine : Machine δ) :
    (∃ error device, createMemory heap size machine =
        ⟨.error (.error error), { machine with device },
          [.asked (.memory heap size) (.failed error)]⟩) ∨
      ∃ device outcome, (∀ error, outcome ≠ .failed error) ∧ createMemory heap size machine =
        ⟨.ok ⟨machine.memoriesMade⟩,
          { machine with
            device, memoriesMade := machine.memoriesMade + 1
            live := .memory machine.memoriesMade :: machine.live },
          [.asked (.memory heap size) outcome]⟩ := by
  cases answered : Device.answer (.memory heap size) machine.device with
  | mk outcome device =>
    cases outcome with
    | failed error => exact .inl ⟨error, device, by simp [createMemory, ask, answered]⟩
    | done => exact .inr ⟨device, .done, nofun, by simp [createMemory, ask, answered]⟩
    | withoutGpu => exact .inr ⟨device, .withoutGpu, nofun, by simp [createMemory, ask, answered]⟩

theorem createMemory_caught (heap : BufferHeap) (size : Nat) (machine : Machine δ) :
    ∃ result made after events, createMemory heap size machine = ⟨result, after, events⟩ ∧
      ∀ (σ : Type) (s : σ) (told : List Event),
        Run.caught ⟨result, s, told⟩ = ⟨.ok made, s, told⟩ := by
  rcases createMemory_run heap size machine with ⟨error, device, ran⟩ | ⟨device, outcome, -, ran⟩
  · exact ⟨_, .error error, _, _, ran, fun _ _ _ => rfl⟩
  · exact ⟨_, .ok _, _, _, ran, fun _ _ _ => rfl⟩

theorem createBuffer_run (heap : BufferHeap) (size : Nat) (machine : Machine δ) :
    (∃ error device events, createBuffer heap size machine =
        ⟨.error (.error error), { machine with device }, events⟩) ∨
      ∃ device events, createBuffer heap size machine =
        ⟨.ok ⟨machine.buffersMade + 1, size, heap⟩,
          { machine with
            device, buffersMade := machine.buffersMade + 1
            live := .buffer (machine.buffersMade + 1) :: machine.live }, events⟩ := by
  cases answered : Device.answer (.buffer heap size) machine.device with
  | mk outcome device =>
    cases outcome with
    | failed error => exact .inl ⟨error, device, _, by simp [createBuffer, ask, answered]; rfl⟩
    | done => exact .inr ⟨device, _, by simp [createBuffer, ask, answered]; rfl⟩
    | withoutGpu => exact .inr ⟨device, _, by simp [createBuffer, ask, answered]; rfl⟩

end Reclaim.Machine
