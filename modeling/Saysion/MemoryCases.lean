/-
This file says once what each step of a `MemoryStore` does, with the operation of
its process that it goes through. The invariants of the store, and what it leaves
alone, are argued from these lemmas and never unfold a step again.
-/

import Saysion.MemoryStore
import Saysion.ProcessSteps

namespace Saysion

/-- What is left of a cleanup after its next chunk. -/
def Cleanup.rest (cleanup : Cleanup) (state : MemoryState) : Cleanup :=
  { cleanup with
    ids := cleanup.ids.drop CLEANUP_BATCH_SIZE
    count := cleanup.count +
      (state.removeExpired cleanup.now (cleanup.ids.take CLEANUP_BATCH_SIZE)).1 }

namespace MemoryStore

variable {idOf : Cookie → Option Id} {store after : MemoryStore} {reply : Reply} {index : Nat}
  {cookie : Cookie} {now later : DateTime} {limit : UInt32}

/-- The store after a cleanup has selected its candidates. -/
def selected (store : MemoryStore) (limit : UInt32) (now : DateTime) : MemoryStore :=
  { store with
    cleanups := Function.update store.cleanups store.nextCleanup
      (some { now, ids := store.state.expiredCandidates now limit.toNat, count := 0 })
    nextCleanup := store.nextCleanup + 1 }

theorem handle_cases {action : HandleAction}
    (step : (memoryStore idOf).step store (.handle action) = some (reply, after)) :
    ∃ process, store.process.handleStep idOf action = some (reply, process) ∧
      after = { store with process } := by
  simp only [memoryStore, MemoryStore.step, Option.bind_eq_bind, Option.bind_eq_some_iff] at step
  obtain ⟨⟨answer, process⟩, handled, step⟩ := step
  cases step
  exact ⟨process, handled, rfl⟩

/-! ### Loading -/

/-- A load reads a record that is unexpired, and validates a copy of it. -/
theorem loadSession_cases (step : store.loadSession idOf cookie now later = some (reply, after)) :
    (idOf cookie = none ∧ reply = .error .cookieFormat ∧ after = store) ∨
      ∃ id, idOf cookie = some id ∧ store.writer = none ∧
        (((store.state.records.lookup id).filter (!·.isExpired now) = none ∧
            reply = .missing ∧ after = store) ∨
          ∃ record validated,
            (store.state.records.lookup id).filter (!·.isExpired now) = some record ∧
            (record.snapshot store.process.heap).1.validateLoaded idOf
              (record.snapshot store.process.heap).2 false cookie later = validated ∧
            ((((∃ error, validated = .error error ∧ reply = .error error) ∨
                  validated = .ok none ∧ reply = .missing) ∧
                after = { store with
                  process := { store.process with heap := (record.snapshot store.process.heap).2 } }) ∨
              ∃ loaded heap, validated = .ok (some (loaded, heap)) ∧
                reply = .handle store.process.nextHandle ∧
                after = { store with
                  process := (store.process.see loaded.id).addHandle loaded heap
                  history := Function.update store.history loaded.family [loaded.id] })) := by
  unfold loadSession at step
  split at step
  · rename_i malformed
    cases step
    exact Or.inl ⟨malformed, rfl, rfl⟩
  rename_i id bound
  split at step
  swap
  · cases step
  rename_i free
  refine Or.inr ⟨id, bound, free, ?_⟩
  split at step
  · rename_i absent
    cases step
    exact Or.inl ⟨absent, rfl, rfl⟩
  · rename_i record present
    refine Or.inr ⟨record, _, present, rfl, ?_⟩
    dsimp only at step
    split at step
    · rename_i error refused
      cases step
      exact Or.inl ⟨Or.inl ⟨error, refused, rfl⟩, rfl⟩
    · rename_i expired
      cases step
      exact Or.inl ⟨Or.inr ⟨expired, rfl⟩, rfl⟩
    · rename_i loaded heap valid
      cases step
      exact Or.inr ⟨loaded, heap, valid, rfl, rfl⟩

/-! ### Storing -/

theorem storeSession_cases (step : store.storeSession index = some (reply, after)) :
    ∃ process, store.process.attempt index = some (reply, process) ∧
      ((∃ error, reply = .error error ∧ after = { store with process }) ∨
        reply = .save store.process.nextSave ∧
          after = { store.setCall store.process.nextSave (some .attempted) with process }) := by
  simp only [storeSession, Option.bind_eq_bind, Option.bind_eq_some_iff] at step
  obtain ⟨⟨answer, process⟩, attempt, step⟩ := step
  obtain ⟨_, _, ⟨error, _, rfl, _⟩ | ⟨_, _, _, rfl, _⟩⟩ := Process.attempt_cases attempt
  · cases step
    exact ⟨process, attempt, Or.inl ⟨error, rfl, rfl⟩⟩
  · cases step
    exact ⟨process, attempt, Or.inr ⟨rfl, rfl⟩⟩

theorem capture_cases (step : store.capture index = some (reply, after)) :
    ∃ save snapshot process, store.calls index = some .attempted ∧
      store.process.saves index = some save ∧
      store.process.capturePersistence index = some (snapshot, process) ∧ reply = .done ∧
      after = { store.setCall index (some (.captured snapshot)) with
        process
        captured := Function.update store.captured index
          (some (save.source.wire store.process.heap)) } := by
  unfold capture at step
  split at step
  · rename_i attempted
    simp only [Option.bind_eq_bind, Option.bind_eq_some_iff] at step
    obtain ⟨save, found, ⟨snapshot, process⟩, captured, step⟩ := step
    cases step
    exact ⟨save, snapshot, process, attempted, found, captured, rfl, rfl⟩
  · cases step

theorem beginBackendWrite_cases (step : store.beginBackendWrite index = some (reply, after)) :
    ∃ snapshot process result, store.calls index = some (.captured snapshot) ∧
      store.process.acquire index none false = some (result, process) ∧ reply = .done ∧
      ((∃ error, result = .error error ∧
          after = { store.setCall index (some (.failed error)) with process }) ∨
        result = .ok () ∧ after = { store.setCall index (some (.guarded snapshot)) with process }) := by
  unfold beginBackendWrite at step
  split at step
  · rename_i snapshot captured
    simp only [Option.bind_eq_bind, Option.bind_eq_some_iff] at step
    obtain ⟨⟨result, process⟩, acquired, step⟩ := step
    refine ⟨snapshot, process, result, captured, acquired, ?_⟩
    cases result with
    | error error =>
      cases step
      exact ⟨rfl, Or.inl ⟨error, rfl, rfl⟩⟩
    | ok _ =>
      cases step
      exact ⟨rfl, Or.inr ⟨rfl, rfl⟩⟩
  · cases step

theorem lock_cases (step : store.lock index = some (reply, after)) :
    ∃ snapshot, store.calls index = some (.guarded snapshot) ∧ store.writer = none ∧
      reply = .done ∧
      after = { store.setCall index (some (.locked snapshot)) with writer := some index } := by
  unfold lock at step
  split at step
  · rename_i snapshot guarded
    split at step
    · rename_i free
      cases step
      exact ⟨snapshot, guarded, free, rfl, rfl⟩
    · cases step
  · cases step

/-- The checks under the lock fail, or the snapshot becomes the record. An update starts no write
that could outlive the call. -/
theorem write_cases (step : store.write index = some (reply, after)) :
    ∃ save snapshot, store.process.saves index = some save ∧
      store.calls index = some (.locked snapshot) ∧ reply = .done ∧
      ((∃ error, save.takeSource store.process.heap store.state = .error error ∧
          after = { store.setCall index (some (.failed error)) with writer := none }) ∨
        ∃ origin taken process,
          save.takeSource store.process.heap store.state = .ok (origin, taken) ∧
          (if origin = some save.source.id then some store.process
            else store.process.dispatch index) = some process ∧
          after = { store.setCall index (some .inserted) with
            process := { process with heap := snapshot.markPersisted process.heap }
            state := taken.insert save.source.id snapshot
            written := Function.update store.written save.source.id (some index)
            births := save.births origin ++ store.births }) := by
  unfold write at step
  split at step
  · rename_i snapshot locked
    simp only [Option.bind_eq_bind, Option.bind_eq_some_iff] at step
    obtain ⟨save, found, step⟩ := step
    refine ⟨save, snapshot, found, locked, ?_⟩
    split at step
    · rename_i error refused
      cases step
      exact ⟨rfl, Or.inl ⟨error, refused, rfl⟩⟩
    · rename_i origin taken replaced
      obtain ⟨process, started, step⟩ := Option.map_eq_some_iff.mp step
      cases step
      exact ⟨rfl, Or.inr ⟨origin, taken, process, replaced, started, rfl⟩⟩
  · cases step

theorem finish_cases (step : store.finish index = some (reply, after)) :
    ∃ save process result, store.process.saves index = some save ∧
      store.calls index = some .inserted ∧
      store.process.finish index = some (result, process) ∧ reply = .done ∧
      ((∃ error, result = .error error ∧
          after = { store.setCall index (some (.failed error)) with
            process
            state := (store.state.remove save.source.id).2
            writer := none }) ∨
        result = .ok () ∧
          after = { store.setCall index (some .finished) with process, writer := none }) := by
  unfold finish at step
  split at step
  · rename_i inserted
    simp only [Option.bind_eq_bind, Option.bind_eq_some_iff] at step
    obtain ⟨save, found, ⟨result, process⟩, finished, step⟩ := step
    refine ⟨save, process, result, found, inserted, finished, ?_⟩
    cases result with
    | error error =>
      cases step
      exact ⟨rfl, Or.inl ⟨error, rfl, rfl⟩⟩
    | ok _ =>
      cases step
      exact ⟨rfl, Or.inr ⟨rfl, rfl⟩⟩
  · cases step

theorem complete_cases (step : store.complete index = some (reply, after)) :
    ∃ save cookie process, store.calls index = some .finished ∧
      store.process.saves index = some save ∧
      store.process.complete index = some (cookie, process) ∧ reply = .cookie cookie ∧
      after = { store.setCall index none with
        process
        history := Function.update store.history save.source.family
          (save.source.id :: store.history save.source.family) } := by
  unfold complete at step
  split at step
  · rename_i finished
    simp only [Option.bind_eq_bind, Option.bind_eq_some_iff] at step
    obtain ⟨save, found, ⟨cookie, process⟩, completed, step⟩ := step
    cases step
    exact ⟨save, cookie, process, finished, found, completed, rfl, rfl⟩
  · cases step

theorem fail_cases (step : store.fail index = some (reply, after)) :
    ∃ error, store.calls index = some (.failed error) ∧ reply = .error error ∧
      after = { store.setCall index none with process := store.process.abandon index } := by
  unfold fail at step
  split at step
  · rename_i error failed
    cases step
    exact ⟨error, failed, rfl, rfl⟩
  · cases step

/-- A call is dropped while it waits for the lifecycle mutex, or for the lock of the store. -/
theorem cancelStore_cases (step : store.cancelStore index = some (reply, after)) :
    (∃ snapshot, store.calls index = some (.captured snapshot) ∨
      store.calls index = some (.guarded snapshot)) ∧ reply = .done ∧
      after = { store.setCall index none with process := store.process.abandon index } := by
  unfold cancelStore at step
  split at step
  · rename_i snapshot captured
    cases step
    exact ⟨⟨snapshot, Or.inl captured⟩, rfl, rfl⟩
  · rename_i snapshot guarded
    cases step
    exact ⟨⟨snapshot, Or.inr guarded⟩, rfl, rfl⟩
  · cases step

/-! ### Destroying -/

theorem destroySession_cases (step : store.destroySession index = some (reply, after)) :
    ∃ process, store.process.requestDelete index = some (reply, process) ∧
      after = { store with process := process.dropHandle index } := by
  simp only [destroySession, Option.bind_eq_bind, Option.bind_eq_some_iff] at step
  obtain ⟨⟨answer, process⟩, requested, step⟩ := step
  cases step
  exact ⟨process, requested, rfl⟩

theorem grantDelete_cases (step : store.grantDelete index = some (reply, after)) :
    ∃ process, store.process.grantDelete index = some (reply, process) ∧
      after = { store with process } := by
  simp only [grantDelete, Option.bind_eq_bind, Option.bind_eq_some_iff] at step
  obtain ⟨⟨answer, process⟩, granted, step⟩ := step
  cases step
  exact ⟨process, granted, rfl⟩

theorem removeRecord_cases (step : store.removeRecord index = some (reply, after)) :
    ∃ deletion target, store.process.deletions index = some deletion ∧
      deletion.target = some target ∧ store.writer = none ∧ reply = .done ∧
      after = { store with
        process := store.process.dropDelete index
        state := (store.state.remove target).2 } := by
  simp only [removeRecord, Option.bind_eq_bind, Option.bind_eq_some_iff] at step
  obtain ⟨deletion, found, target, granted, step⟩ := step
  split at step
  · rename_i free
    cases step
    exact ⟨deletion, target, found, granted, free, rfl, rfl⟩
  · cases step

theorem cancelDestroy_cases (step : store.cancelDestroy index = some (reply, after)) :
    ∃ deletion, store.process.deletions index = some deletion ∧ reply = .done ∧
      after = { store with process := store.process.dropDelete index } := by
  simp only [cancelDestroy, Option.bind_eq_bind, Option.bind_eq_some_iff] at step
  obtain ⟨deletion, found, step⟩ := step
  cases step
  exact ⟨deletion, found, rfl, rfl⟩

/-! ### Clearing and cleaning -/

theorem clearStore_cases (step : store.clearStore = some (reply, after)) :
    store.writer = none ∧ reply = .done ∧ after = { store with state := store.state.clear } := by
  unfold clearStore at step
  split at step
  · rename_i free
    cases step
    exact ⟨free, rfl, rfl⟩
  · cases step

/-- What the start of a cleanup does: it selects candidates, unless there are none. -/
theorem cleanupBatch_cases (step : store.cleanupBatch limit now = some (reply, after)) :
    (¬ (1 ≤ limit ∧ limit ≤ MAX_CLEANUP_LIMIT) ∧ reply = .error .cleanupLimit ∧ after = store) ∨
      ((1 ≤ limit ∧ limit ≤ MAX_CLEANUP_LIMIT) ∧ store.writer = none ∧
        ((store.state.expiredCandidates now limit.toNat = [] ∧ reply = .count 0 ∧ after = store) ∨
          (reply = .cleanup store.nextCleanup ∧ after = store.selected limit now))) := by
  unfold cleanupBatch at step
  split at step
  · rename_i valid
    split at step
    · rename_i free
      dsimp only at step
      split at step
      · rename_i none
        cases step
        exact Or.inr ⟨valid, free, Or.inl ⟨none, rfl, rfl⟩⟩
      · cases step
        exact Or.inr ⟨valid, free, Or.inr ⟨rfl, rfl⟩⟩
    · cases step
  · rename_i invalid
    cases step
    exact Or.inl ⟨invalid, rfl, rfl⟩

/-- What a chunk does: it removes the candidates that are expired by now. -/
theorem removeChunk_cases (step : store.removeChunk index = some (reply, after)) :
    ∃ cleanup chunk, store.cleanups index = some cleanup ∧ store.writer = none ∧
      chunk = cleanup.ids.take CLEANUP_BATCH_SIZE ∧
      ((cleanup.ids.drop CLEANUP_BATCH_SIZE = [] ∧
          reply = .count (cleanup.count + (store.state.removeExpired cleanup.now chunk).1) ∧
          after = { store with
            state := (store.state.removeExpired cleanup.now chunk).2
            cleanups := Function.update store.cleanups index none }) ∨
        (cleanup.ids.drop CLEANUP_BATCH_SIZE ≠ [] ∧ reply = .done ∧
          after = { store with
            state := (store.state.removeExpired cleanup.now chunk).2
            cleanups := Function.update store.cleanups index
              (some (cleanup.rest store.state)) })) := by
  simp only [removeChunk, Option.bind_eq_bind, Option.bind_eq_some_iff] at step
  obtain ⟨cleanup, found, step⟩ := step
  refine ⟨cleanup, cleanup.ids.take CLEANUP_BATCH_SIZE, found, ?_⟩
  split at step
  · rename_i free
    refine ⟨free, rfl, ?_⟩
    split at step
    · rename_i none
      cases step
      exact Or.inl ⟨none, rfl, rfl⟩
    · rename_i some
      cases step
      exact Or.inr ⟨some, rfl, rfl⟩
  · cases step

theorem cancelCleanup_cases (step : store.cancelCleanup index = some (reply, after)) :
    ∃ cleanup, store.cleanups index = some cleanup ∧ reply = .done ∧
      after = { store with cleanups := Function.update store.cleanups index none } := by
  simp only [cancelCleanup, Option.bind_eq_bind, Option.bind_eq_some_iff] at step
  obtain ⟨cleanup, found, step⟩ := step
  cases step
  exact ⟨cleanup, found, rfl, rfl⟩

end MemoryStore

end Saysion
