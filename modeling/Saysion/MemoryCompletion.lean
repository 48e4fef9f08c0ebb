/-
This file proves that no call of a `MemoryStore` waits for ever. A call waits for
two locks: the lifecycle mutex of its clone family and the write half of the
store's own lock. Whatever calls were begun, in whatever order their steps are
taken, and whichever futures were dropped on the way, some call can take a step
until all of them have ended; and then every lock is free.

The order in which the two locks are taken carries the proof: the store's lock is
only waited for under the mutex, and its holder never waits.
-/

import Saysion.Completion
import Saysion.MemoryInvariant
import Saysion.Releasing

namespace Saysion

/-- The steps that carry a call on, rather than begin, cancel or edit something. -/
def MemoryAction.Own : MemoryAction → Prop
  | .capture _ | .beginBackendWrite _ | .lock _ | .write _ | .finish _ | .complete _ | .fail _
  | .grantDelete _ | .removeRecord _ | .removeChunk _ => True
  | _ => False

/-! ### What is left to do -/

/-- The steps that a `store_session` call has left at most. -/
def StorePhase.remaining : StorePhase → Nat
  | .attempted => 6
  | .captured _ => 5
  | .guarded _ => 4
  | .locked _ => 3
  | .inserted => 2
  | .finished | .failed _ => 1

/-- Whether a call may hold the lifecycle mutex. -/
def StorePhase.Guarded : StorePhase → Prop
  | .attempted | .captured _ => False
  | _ => True

/-- The steps that a deletion has left at most. -/
def Deletion.remaining (deletion : Deletion) : Nat := if deletion.target = none then 2 else 1

/-- The chunks that a cleanup has left. -/
def Cleanup.remaining (cleanup : Cleanup) : Nat := cleanup.ids.length / CLEANUP_BATCH_SIZE + 1

namespace MemoryStore

/-- The steps that the calls in progress have left at most. -/
def remaining (store : MemoryStore) : Nat :=
  burden StorePhase.remaining store.calls store.process.nextSave +
    burden Deletion.remaining store.process.deletions store.process.nextDeletion +
      burden Cleanup.remaining store.cleanups store.nextCleanup

/-- No call is in progress, and no lock is taken. -/
structure Idle (store : MemoryStore) : Prop where
  calls : ∀ index, store.calls index = none
  saves : ∀ index, store.process.saves index = none
  guards : ∀ index, store.process.guards index = none
  deletions : ∀ index, store.process.deletions index = none
  cleanups : ∀ index, store.cleanups index = none
  writer : store.writer = none
  free : ∀ session, store.process.Live session → ¬ store.process.Taken session.family

end MemoryStore

/-- What completion relies on, beside the invariant: what is held belongs to a call in progress. -/
structure MemoryPending (store : MemoryStore) : Prop where
  sound : MemorySound store
  attended : store.process.Attended
  saves : ∀ index save, store.process.saves index = some save →
    ∃ phase, store.calls index = some phase ∧ (save.revision = none ↔ phase = .attempted)
  guards : ∀ index guard, store.process.guards index = some guard →
    ∃ phase, store.calls index = some phase ∧ phase.Guarded
  writer : ∀ index, store.writer = some index →
    ∃ phase, store.calls index = some phase ∧ phase.Writes
  cleanups : ∀ index, store.nextCleanup ≤ index → store.cleanups index = none

theorem memoryPending_initial : MemoryPending MemoryStore.initial where
  sound := memorySound_initial
  attended := Process.attended_initial
  saves := by rintro _ _ found; cases found
  guards := by rintro _ _ found; cases found
  writer := by rintro _ found; cases found
  cleanups _ _ := rfl

namespace MemoryPending

variable {idOf : Cookie → Option Id} {store after : MemoryStore} {reply : Reply} {index : Nat}

/-! ### The invariant -/

/-- A step that concerns no `store_session` call. -/
theorem still (pending : MemoryPending store) (sound : MemorySound after)
    (attended : after.process.Attended) (saves : after.process.saves = store.process.saves)
    (guards : after.process.guards = store.process.guards) (calls : after.calls = store.calls)
    (writer : after.writer = store.writer)
    (cleanups : ∀ index, after.nextCleanup ≤ index → after.cleanups index = none) :
    MemoryPending after where
  sound := sound
  attended := attended
  saves index save found := by
    rw [calls]
    exact pending.saves index save (saves ▸ found)
  guards index guard found := by
    rw [calls]
    exact pending.guards index guard (guards ▸ found)
  writer index held := by
    rw [calls]
    exact pending.writer index (writer ▸ held)
  cleanups := cleanups

/-- A step of one `store_session` call. -/
theorem mine (pending : MemoryPending store) (sound : MemorySound after)
    (attended : after.process.Attended) {phase : Option StorePhase}
    (calls : after.calls = Function.update store.calls index phase)
    (others : ∀ key ≠ index, after.process.saves key = store.process.saves key ∧
      after.process.guards key = store.process.guards key)
    (save : ∀ save, after.process.saves index = some save →
      ∃ next, phase = some next ∧ (save.revision = none ↔ next = .attempted))
    (guard : ∀ guard, after.process.guards index = some guard → ∃ next, phase = some next ∧ next.Guarded)
    (writer : ∀ key, after.writer = some key →
      (key ≠ index ∧ store.writer = some key) ∨ key = index ∧ ∃ next, phase = some next ∧ next.Writes)
    (cleanups : after.cleanups = store.cleanups) (nextCleanup : after.nextCleanup = store.nextCleanup) :
    MemoryPending after where
  sound := sound
  attended := attended
  saves key found lookup := by
    rw [calls]
    by_cases same : key = index
    · subst same
      rw [Function.update_self]
      exact save found lookup
    · rw [Function.update_of_ne same]
      exact pending.saves key found ((others key same).1 ▸ lookup)
  guards key found lookup := by
    rw [calls]
    by_cases same : key = index
    · subst same
      rw [Function.update_self]
      exact guard found lookup
    · rw [Function.update_of_ne same]
      exact pending.guards key found ((others key same).2 ▸ lookup)
  writer key held := by
    rw [calls]
    rcases writer key held with ⟨different, earlier⟩ | ⟨rfl, next, same, writes⟩
    · rw [Function.update_of_ne different]
      exact pending.writer key earlier
    · rw [Function.update_self]
      exact ⟨next, same, writes⟩
  cleanups key old := by
    rw [cleanups]
    exact pending.cleanups key (nextCleanup ▸ old)

/-- The holder of the lock is another call than one that does not hold it. -/
theorem other_writer (pending : MemoryPending store) {phase : Option StorePhase}
    (found : store.calls index = phase) (idle : ∀ next, phase = some next → ¬ next.Writes) (key : Nat)
    (held : store.writer = some key) : key ≠ index := by
  rintro rfl
  obtain ⟨next, now, writes⟩ := pending.writer key held
  exact idle next (found.symm.trans now) writes

/-- A call is abandoned: it failed, or its future was dropped before it took the store's lock. -/
theorem abandon (pending : MemoryPending store) {phase : StorePhase}
    (sound : MemorySound { store.setCall index none with process := store.process.abandon index })
    (attended : (store.process.abandon index).Attended) (found : store.calls index = some phase)
    (idle : ¬ phase.Writes) :
    MemoryPending { store.setCall index none with process := store.process.abandon index } := by
  obtain ⟨heap, dropped⟩ := store.process.abandon_eq index
  refine pending.mine sound attended rfl (fun key different => ?_) (fun save lookup => ?_)
    (fun guard lookup => ?_) (fun key held => Or.inl ⟨?_, held⟩) rfl rfl
  · dsimp only
    rw [dropped]
    exact ⟨Function.update_of_ne different _ _, Function.update_of_ne different _ _⟩
  · dsimp only at lookup
    rw [dropped] at lookup
    cases eq_some_of_update_self lookup
  · dsimp only at lookup
    rw [dropped] at lookup
    cases eq_some_of_update_self lookup
  · refine pending.other_writer found (fun next same => ?_) key held
    obtain rfl := Option.some.inj same
    exact idle

/-- A deletion is dropped, or answered. -/
theorem dropDelete (pending : MemoryPending store) {state : MemoryState}
    (sound : MemorySound { store with process := store.process.dropDelete index, state })
    (attended : (store.process.dropDelete index).Attended) :
    MemoryPending { store with process := store.process.dropDelete index, state } := by
  obtain ⟨heap, dropped⟩ := store.process.dropDelete_eq index
  refine pending.still sound attended ?_ ?_ rfl rfl pending.cleanups
  · dsimp only
    rw [dropped]
    rfl
  · dsimp only
    rw [dropped]
    rfl

theorem storeSession (pending : MemoryPending store) (sound : MemorySound after)
    (attended : after.process.Attended) (step : store.storeSession index = some (reply, after)) :
    MemoryPending after := by
  obtain ⟨process, attempt, outcome⟩ := MemoryStore.storeSession_cases step
  obtain ⟨session, _, cases⟩ := Process.attempt_cases attempt
  rcases outcome with ⟨error, rfl, rfl⟩ | ⟨rfl, rfl⟩
  · rcases cases with ⟨_, _, _, rfl⟩ | ⟨_, _, _, wrong, _⟩
    · exact pending.still sound attended rfl rfl rfl rfl pending.cleanups
    · cases wrong
  · rcases cases with ⟨_, _, wrong, _⟩ | ⟨origin, heap, _, _, rfl⟩
    · cases wrong
    have unused := pending.sound.dispatching.locking.unusedSave _ (le_refl store.process.nextSave)
    refine pending.mine sound attended rfl (fun key different => ?_) (fun save lookup => ?_)
      (fun guard lookup => ?_) (fun key held => Or.inl ⟨?_, held⟩) rfl rfl
    · exact ⟨Function.update_of_ne different _ _, rfl⟩
    · obtain rfl := Option.some.inj (eq_some_of_update_self lookup)
      exact ⟨_, rfl, by simp⟩
    · cases unused.2.symm.trans lookup
    · rintro rfl
      obtain ⟨phase, found, _⟩ := pending.writer _ held
      obtain ⟨save, lookup, _⟩ := pending.sound.calls _ phase found
      cases unused.1.symm.trans lookup

theorem capture (pending : MemoryPending store) (sound : MemorySound after)
    (attended : after.process.Attended) (step : store.capture index = some (reply, after)) :
    MemoryPending after := by
  obtain ⟨save, snapshot, process, attempted, found, captured, _, rfl⟩ :=
    MemoryStore.capture_cases step
  obtain ⟨_, _, _, _, rfl⟩ := Process.capturePersistence_cases captured
  refine pending.mine sound attended rfl (fun key different => ?_) (fun save lookup => ?_)
    (fun guard lookup => ?_) (fun key held => Or.inl ⟨?_, held⟩) rfl rfl
  · exact ⟨Function.update_of_ne different _ _, rfl⟩
  · obtain rfl := Option.some.inj (eq_some_of_update_self lookup)
    exact ⟨_, rfl, by simp⟩
  · obtain ⟨phase, now, guarded⟩ := pending.guards index guard lookup
    obtain rfl := Option.some.inj (attempted.symm.trans now)
    exact absurd guarded id
  · exact pending.other_writer attempted (fun next same => Option.some.inj same ▸ id) key held

theorem beginBackendWrite (pending : MemoryPending store) (sound : MemorySound after)
    (attended : after.process.Attended) (step : store.beginBackendWrite index = some (reply, after)) :
    MemoryPending after := by
  obtain ⟨snapshot, process, result, captured, acquired, _, outcome⟩ :=
    MemoryStore.beginBackendWrite_cases step
  obtain ⟨save, found, unguarded, _, cases⟩ := Process.acquire_cases acquired
  have taken : ∀ save, store.process.saves index = some save → save.revision ≠ none := by
    intro save lookup uncaptured
    obtain ⟨phase, now, exact_⟩ := pending.saves index save lookup
    cases captured.symm.trans (now.trans (congrArg some (exact_.mp uncaptured)))
  have other := pending.other_writer captured (fun next same => Option.some.inj same ▸ id)
  rcases cases with ⟨error, heap, _, rfl, rfl⟩ | ⟨guard, heap, _, rfl, rfl⟩
  · rcases outcome with ⟨error, _, rfl⟩ | ⟨wrong, _⟩
    · refine pending.mine sound attended rfl (fun _ _ => ⟨rfl, rfl⟩) (fun save lookup => ?_)
        (fun guard lookup => ?_) (fun key held => Or.inl ⟨other key held, held⟩) rfl rfl
      · exact ⟨_, rfl, by simp [taken save lookup]⟩
      · cases unguarded.symm.trans lookup
    · cases wrong
  · rcases outcome with ⟨_, wrong, _⟩ | ⟨_, rfl⟩
    · cases wrong
    · refine pending.mine sound attended rfl (fun key different => ?_) (fun save lookup => ?_)
        (fun guard lookup => ⟨_, rfl, trivial⟩) (fun key held => Or.inl ⟨other key held, held⟩) rfl rfl
      · exact ⟨rfl, Function.update_of_ne different _ _⟩
      · exact ⟨_, rfl, by simp [taken save lookup]⟩

/-- A step of a captured call that leaves its save and its guard in their tables. -/
theorem proceed (pending : MemoryPending store) (sound : MemorySound after)
    (attended : after.process.Attended) {phase newer : StorePhase}
    (found : store.calls index = some phase) (begun : phase ≠ .attempted)
    (guarded : newer.Guarded)
    (calls : after.calls = Function.update store.calls index (some newer))
    (saves : ∀ key save, after.process.saves key = some save →
      ∃ older, store.process.saves key = some older ∧ older.revision = save.revision)
    (guards : ∀ key ≠ index, after.process.guards key = store.process.guards key)
    (others : ∀ key ≠ index, after.process.saves key = store.process.saves key)
    (writer : ∀ key, after.writer = some key →
      (key ≠ index ∧ store.writer = some key) ∨ key = index ∧ newer.Writes)
    (cleanups : after.cleanups = store.cleanups) (nextCleanup : after.nextCleanup = store.nextCleanup) :
    MemoryPending after := by
  refine pending.mine sound attended calls (fun key different => ⟨others key different,
    guards key different⟩) (fun save lookup => ⟨newer, rfl, ?_⟩)
    (fun guard lookup => ⟨newer, rfl, guarded⟩) (fun key held => ?_) cleanups nextCleanup
  · obtain ⟨older, earlier, same⟩ := saves index save lookup
    obtain ⟨now, there, captured⟩ := pending.saves index older earlier
    obtain rfl := Option.some.inj (found.symm.trans there)
    rw [← same, captured]
    refine ⟨fun wrong => absurd wrong begun, ?_⟩
    rintro rfl
    exact absurd guarded id
  · exact (writer key held).imp_right fun both => ⟨both.1, newer, rfl, both.2⟩

theorem lock (pending : MemoryPending store) (sound : MemorySound after)
    (attended : after.process.Attended) (step : store.lock index = some (reply, after)) :
    MemoryPending after := by
  obtain ⟨snapshot, guarded, _, _, rfl⟩ := MemoryStore.lock_cases step
  refine pending.proceed sound attended guarded (by simp) (by trivial) rfl
    (fun _ save lookup => ⟨save, lookup, rfl⟩) (fun _ _ => rfl) (fun _ _ => rfl)
    (fun key held => Or.inr ⟨(Option.some.inj held).symm, trivial⟩) rfl rfl

theorem write (pending : MemoryPending store) (sound : MemorySound after)
    (attended : after.process.Attended) (step : store.write index = some (reply, after)) :
    MemoryPending after := by
  have holds := pending.sound.writer index
  obtain ⟨save, snapshot, found, locked, _, outcome⟩ := MemoryStore.write_cases step
  rcases outcome with ⟨error, _, rfl⟩ | ⟨origin, taken, process, _, started, rfl⟩
  · exact pending.proceed sound attended locked (by simp) (by trivial) rfl
      (fun _ save lookup => ⟨save, lookup, rfl⟩) (fun _ _ => rfl) (fun _ _ => rfl)
      (fun key held => by cases held) rfl rfl
  have writer : ∀ key, store.writer = some key →
      (key ≠ index ∧ store.writer = some key) ∨ key = index ∧ StorePhase.inserted.Writes := by
    intro key held
    exact Or.inr ⟨Option.some.inj (held.symm.trans (holds _ locked trivial)), trivial⟩
  split at started
  · obtain rfl := Option.some.inj started
    exact pending.proceed sound attended locked (by simp) (by trivial) rfl
      (fun _ save lookup => ⟨save, lookup, rfl⟩) (fun _ _ => rfl) (fun _ _ => rfl) writer rfl rfl
  · obtain ⟨older, lookup, rfl⟩ := Process.dispatch_cases started
    refine pending.proceed sound attended locked (by simp) (by trivial) rfl (fun key save now => ?_)
      (fun _ _ => rfl) (fun key different => Function.update_of_ne different _ _) writer rfl rfl
    rcases update_eq_some now with ⟨rfl, same⟩ | ⟨_, earlier⟩
    · obtain rfl := Option.some.inj same
      exact ⟨older, lookup, rfl⟩
    · exact ⟨save, earlier, rfl⟩

theorem finish (pending : MemoryPending store) (sound : MemorySound after)
    (attended : after.process.Attended) (step : store.finish index = some (reply, after)) :
    MemoryPending after := by
  obtain ⟨save, process, result, found, inserted, finished, _, outcome⟩ :=
    MemoryStore.finish_cases step
  obtain ⟨guard, guarded, _, rfl⟩ := Process.finish_cases finished
  rcases outcome with ⟨error, _, rfl⟩ | ⟨_, rfl⟩ <;>
    exact pending.proceed sound attended inserted (by simp) (by trivial) rfl
      (fun _ save lookup => ⟨save, lookup, rfl⟩)
      (fun key different => Function.update_of_ne different _ _) (fun _ _ => rfl)
      (fun key held => by cases held) rfl rfl

theorem complete (pending : MemoryPending store) (sound : MemorySound after)
    (attended : after.process.Attended) (step : store.complete index = some (reply, after)) :
    MemoryPending after := by
  obtain ⟨save, cookie, process, finished, _, completed, _, rfl⟩ := MemoryStore.complete_cases step
  obtain ⟨save, found, ready⟩ := pending.sound.calls index _ finished
  obtain ⟨guard, guarded⟩ := ready.1
  obtain ⟨_, _, _, _, _, rfl⟩ := Process.complete_of_guard guarded completed
  refine pending.mine sound attended rfl (fun key different => ?_) (fun save lookup => ?_)
    (fun guard lookup => ?_) (fun key held => Or.inl ⟨?_, held⟩) rfl rfl
  · exact ⟨Function.update_of_ne different _ _, Function.update_of_ne different _ _⟩
  · cases eq_some_of_update_self lookup
  · cases eq_some_of_update_self lookup
  · exact pending.other_writer finished (fun next same => Option.some.inj same ▸ id) key held

theorem removeChunk (pending : MemoryPending store) (sound : MemorySound after)
    (attended : after.process.Attended) (step : store.removeChunk index = some (reply, after)) :
    MemoryPending after := by
  obtain ⟨cleanup, chunk, found, _, _, outcome⟩ := MemoryStore.removeChunk_cases step
  have below : ∀ (entry : Option Cleanup) (key : Nat), store.nextCleanup ≤ key →
      Function.update store.cleanups index entry key = none := by
    intro entry key old
    have different : key ≠ index := by
      rintro rfl
      cases (pending.cleanups key old).symm.trans found
    rw [Function.update_of_ne different]
    exact pending.cleanups key old
  rcases outcome with ⟨_, _, rfl⟩ | ⟨_, _, rfl⟩ <;>
    exact pending.still sound attended rfl rfl rfl rfl (below _)

/-- Every step preserves what completion relies on. -/
theorem step (pending : MemoryPending store) {action : MemoryAction}
    (step : (memoryStore idOf).step store action = some (reply, after)) : MemoryPending after := by
  have advances := pending.sound.advances step
  have sound := advances.sound
  have attended := pending.attended.path pending.sound.dispatching advances.path
  cases action with
  | handle action =>
    obtain ⟨process, handled, rfl⟩ := MemoryStore.handle_cases step
    obtain ⟨_, _, _, _, same⟩ := Process.handleStep_eq handled
    refine pending.still sound attended ?_ ?_ rfl rfl pending.cleanups <;>
      simp [same]
  | loadSession cookie now later =>
    rcases MemoryStore.loadSession_cases step with ⟨_, _, rfl⟩ | ⟨id, _, _, ⟨_, _, rfl⟩ |
      ⟨record, validated, _, _, ⟨_, rfl⟩ | ⟨loaded, heap, _, _, rfl⟩⟩⟩
    · exact pending
    · exact pending
    · exact pending.still sound attended rfl rfl rfl rfl pending.cleanups
    · exact pending.still sound attended rfl rfl rfl rfl pending.cleanups
  | storeSession index => exact pending.storeSession sound attended step
  | capture index => exact pending.capture sound attended step
  | beginBackendWrite index => exact pending.beginBackendWrite sound attended step
  | lock index => exact pending.lock sound attended step
  | write index => exact pending.write sound attended step
  | finish index => exact pending.finish sound attended step
  | complete index => exact pending.complete sound attended step
  | fail index =>
    obtain ⟨error, failed, _, rfl⟩ := MemoryStore.fail_cases step
    exact pending.abandon sound attended failed id
  | cancelStore index =>
    obtain ⟨⟨snapshot, captured | guarded⟩, _, rfl⟩ := MemoryStore.cancelStore_cases step
    · exact pending.abandon sound attended captured id
    · exact pending.abandon sound attended guarded id
  | destroySession index =>
    obtain ⟨process, requested, rfl⟩ := MemoryStore.destroySession_cases step
    obtain ⟨session, _, _, rfl⟩ := Process.requestDelete_cases requested
    exact pending.still sound attended rfl rfl rfl rfl pending.cleanups
  | grantDelete index =>
    obtain ⟨process, granted, rfl⟩ := MemoryStore.grantDelete_cases step
    obtain ⟨_, _, _, _, ⟨_, _, _, rfl⟩ | ⟨_, _, _, _, rfl⟩⟩ := Process.grantDelete_cases granted <;>
      exact pending.still sound attended rfl rfl rfl rfl pending.cleanups
  | removeRecord index =>
    obtain ⟨_, _, _, _, _, _, rfl⟩ := MemoryStore.removeRecord_cases step
    exact pending.dropDelete sound attended
  | cancelDestroy index =>
    obtain ⟨_, _, _, rfl⟩ := MemoryStore.cancelDestroy_cases step
    exact pending.dropDelete sound attended
  | clearStore =>
    obtain ⟨_, _, rfl⟩ := MemoryStore.clearStore_cases step
    exact pending.still sound attended rfl rfl rfl rfl pending.cleanups
  | cleanupBatch limit now =>
    rcases MemoryStore.cleanupBatch_cases step with ⟨_, _, rfl⟩ | ⟨_, _, ⟨_, _, rfl⟩ | ⟨_, rfl⟩⟩
    · exact pending
    · exact pending
    · refine pending.still sound attended rfl rfl rfl rfl fun key old => ?_
      have old : store.nextCleanup + 1 ≤ key := old
      have different : key ≠ store.nextCleanup := by omega
      refine (Function.update_of_ne different _ _).trans (pending.cleanups key ?_)
      omega
  | removeChunk index => exact pending.removeChunk sound attended step
  | cancelCleanup index =>
    obtain ⟨cleanup, found, _, rfl⟩ := MemoryStore.cancelCleanup_cases step
    refine pending.still sound attended rfl rfl rfl rfl fun key old => ?_
    exact update_none_eq_none index (pending.cleanups key old)

theorem reachable (reachable : (memoryStore idOf).Reachable store) : MemoryPending store := by
  refine Machine.Reachable.invariant (fun initial => ?_) (fun pending step => pending.step step) reachable
  obtain rfl := initial
  exact memoryPending_initial

/-! ### Every step of a call is one less -/

theorem call_inside (pending : MemoryPending store) {phase : StorePhase}
    (found : store.calls index = some phase) : index < store.process.nextSave := by
  obtain ⟨save, saved, _⟩ := pending.sound.calls index phase found
  exact pending.sound.dispatching.locking.used_of_save saved

theorem deletion_inside (pending : MemoryPending store) {deletion : Deletion}
    (found : store.process.deletions index = some deletion) : index < store.process.nextDeletion := by
  by_contra beyond
  cases (pending.sound.dispatching.locking.unusedDeletion index (not_lt.mp beyond)).symm.trans found

theorem cleanup_inside (pending : MemoryPending store) {cleanup : Cleanup}
    (found : store.cleanups index = some cleanup) : index < store.nextCleanup := by
  by_contra beyond
  cases (pending.cleanups index (not_lt.mp beyond)).symm.trans found

/-- A `store_session` call took a step. -/
theorem lower_call (pending : MemoryPending store) {older : StorePhase} {newer : Option StorePhase}
    (found : store.calls index = some older)
    (calls : after.calls = Function.update store.calls index newer)
    (lower : newer.elim 0 StorePhase.remaining < older.remaining)
    (nextSave : after.process.nextSave = store.process.nextSave)
    (deletions : after.process.deletions = store.process.deletions)
    (nextDeletion : after.process.nextDeletion = store.process.nextDeletion)
    (cleanups : after.cleanups = store.cleanups) (nextCleanup : after.nextCleanup = store.nextCleanup) :
    after.remaining < store.remaining := by
  unfold MemoryStore.remaining
  rw [calls, nextSave, deletions, nextDeletion, cleanups, nextCleanup]
  have less := burden_update_lt (pending.call_inside found) found lower
  omega

/-- A deletion took a step. -/
theorem lower_deletion (pending : MemoryPending store) {older : Deletion} {newer : Option Deletion}
    (found : store.process.deletions index = some older)
    (deletions : after.process.deletions = Function.update store.process.deletions index newer)
    (lower : newer.elim 0 Deletion.remaining < older.remaining) (calls : after.calls = store.calls)
    (nextSave : after.process.nextSave = store.process.nextSave)
    (nextDeletion : after.process.nextDeletion = store.process.nextDeletion)
    (cleanups : after.cleanups = store.cleanups) (nextCleanup : after.nextCleanup = store.nextCleanup) :
    after.remaining < store.remaining := by
  unfold MemoryStore.remaining
  rw [calls, nextSave, deletions, nextDeletion, cleanups, nextCleanup]
  have less := burden_update_lt (pending.deletion_inside found) found lower
  omega

theorem lower_acquire {process after : Process} {result : Except Error Unit}
    (acquired : process.acquire index none false = some (result, after)) :
    after.nextSave = process.nextSave ∧ after.deletions = process.deletions ∧
      after.nextDeletion = process.nextDeletion := by
  obtain ⟨_, _, _, _, ⟨_, _, _, _, rfl⟩ | ⟨_, _, _, _, rfl⟩⟩ := Process.acquire_cases acquired <;>
    exact ⟨rfl, rfl, rfl⟩

/-- A chunk of a cleanup was removed. -/
theorem lower_cleanup (pending : MemoryPending store) {older : Cleanup} {newer : Option Cleanup}
    (found : store.cleanups index = some older)
    (cleanups : after.cleanups = Function.update store.cleanups index newer)
    (lower : newer.elim 0 Cleanup.remaining < older.remaining) (calls : after.calls = store.calls)
    (process : after.process = store.process) (nextCleanup : after.nextCleanup = store.nextCleanup) :
    after.remaining < store.remaining := by
  unfold MemoryStore.remaining
  rw [calls, process, cleanups, nextCleanup]
  have less := burden_update_lt (pending.cleanup_inside found) found lower
  omega

theorem remaining_rest {cleanup : Cleanup} (more : cleanup.ids.drop CLEANUP_BATCH_SIZE ≠ [])
    (state : MemoryState) : (cleanup.rest state).remaining < cleanup.remaining := by
  have longer : CLEANUP_BATCH_SIZE < cleanup.ids.length := by
    rw [← List.length_pos_iff, List.length_drop] at more
    omega
  simp only [Cleanup.remaining, Cleanup.rest, List.length_drop, CLEANUP_BATCH_SIZE] at longer ⊢
  omega

/-- Every step of a call leaves it one step less at most. -/
theorem descends (pending : MemoryPending store) {action : MemoryAction} (own : action.Own)
    (step : (memoryStore idOf).step store action = some (reply, after)) :
    after.remaining < store.remaining := by
  cases action with
  | capture index =>
    obtain ⟨save, snapshot, process, attempted, _, captured, _, rfl⟩ := MemoryStore.capture_cases step
    obtain ⟨_, _, _, _, rfl⟩ := Process.capturePersistence_cases captured
    exact pending.lower_call attempted rfl (by simp [StorePhase.remaining]) rfl rfl rfl rfl rfl
  | beginBackendWrite index =>
    obtain ⟨snapshot, process, result, captured, acquired, _, outcome⟩ :=
      MemoryStore.beginBackendWrite_cases step
    obtain ⟨nextSave, deletions, nextDeletion⟩ := lower_acquire acquired
    rcases outcome with ⟨error, _, rfl⟩ | ⟨_, rfl⟩ <;>
      exact pending.lower_call captured rfl (by simp [StorePhase.remaining]) nextSave deletions
        nextDeletion rfl rfl
  | lock index =>
    obtain ⟨snapshot, guarded, _, _, rfl⟩ := MemoryStore.lock_cases step
    exact pending.lower_call guarded rfl (by simp [StorePhase.remaining]) rfl rfl rfl rfl rfl
  | write index =>
    obtain ⟨save, snapshot, _, locked, _, ⟨error, _, rfl⟩ | ⟨origin, taken, process, _, started, rfl⟩⟩ :=
      MemoryStore.write_cases step
    · exact pending.lower_call locked rfl (by simp [StorePhase.remaining]) rfl rfl rfl rfl rfl
    · split at started
      · obtain rfl := Option.some.inj started
        exact pending.lower_call locked rfl (by simp [StorePhase.remaining]) rfl rfl rfl rfl rfl
      · obtain ⟨_, _, rfl⟩ := Process.dispatch_cases started
        exact pending.lower_call locked rfl (by simp [StorePhase.remaining]) rfl rfl rfl rfl rfl
  | finish index =>
    obtain ⟨save, process, result, _, inserted, finished, _, outcome⟩ := MemoryStore.finish_cases step
    obtain ⟨guard, guarded, _, rfl⟩ := Process.finish_cases finished
    rcases outcome with ⟨error, _, rfl⟩ | ⟨_, rfl⟩ <;>
      exact pending.lower_call inserted rfl (by simp [StorePhase.remaining]) rfl rfl rfl rfl rfl
  | complete index =>
    obtain ⟨save, cookie, process, finished, _, completed, _, rfl⟩ := MemoryStore.complete_cases step
    obtain ⟨save, _, ready⟩ := pending.sound.calls index _ finished
    obtain ⟨guard, guarded⟩ := ready.1
    obtain ⟨_, _, _, _, _, rfl⟩ := Process.complete_of_guard guarded completed
    exact pending.lower_call finished rfl (by simp [StorePhase.remaining]) rfl rfl rfl rfl rfl
  | fail index =>
    obtain ⟨error, failed, _, rfl⟩ := MemoryStore.fail_cases step
    obtain ⟨heap, dropped⟩ := store.process.abandon_eq index
    refine pending.lower_call failed rfl (by simp [StorePhase.remaining]) ?_ ?_ ?_ rfl rfl <;>
    · dsimp only
      rw [dropped]
      rfl
  | grantDelete index =>
    obtain ⟨process, granted, rfl⟩ := MemoryStore.grantDelete_cases step
    obtain ⟨deletion, found, waiting, _, ⟨_, _, _, rfl⟩ | ⟨_, _, _, _, rfl⟩⟩ :=
      Process.grantDelete_cases granted
    · exact pending.lower_deletion found rfl (by simp [Deletion.remaining, waiting]) rfl rfl rfl rfl rfl
    · exact pending.lower_deletion found rfl (by simp [Deletion.remaining, waiting]) rfl rfl rfl rfl rfl
  | removeRecord index =>
    obtain ⟨deletion, target, found, granted, _, _, rfl⟩ := MemoryStore.removeRecord_cases step
    obtain ⟨heap, dropped⟩ := store.process.dropDelete_eq index
    have lower : (none : Option Deletion).elim 0 Deletion.remaining < deletion.remaining := by
      simp [Deletion.remaining, granted]
    refine pending.lower_deletion found ?_ lower rfl ?_ ?_ rfl rfl
    all_goals
      dsimp only
      rw [dropped]
      rfl
  | removeChunk index =>
    obtain ⟨cleanup, chunk, found, _, _, ⟨_, _, rfl⟩ | ⟨more, _, rfl⟩⟩ :=
      MemoryStore.removeChunk_cases step
    · exact pending.lower_cleanup found rfl (Nat.succ_pos _) rfl rfl rfl
    · exact pending.lower_cleanup found rfl (remaining_rest more _) rfl rfl rfl
  | _ => exact absurd own id

/-! ### Some step of a call can be taken -/

theorem isSome_write (pending : MemoryPending store) {snapshot : Session}
    (locked : store.calls index = some (.locked snapshot)) : (store.write index).isSome := by
  obtain ⟨save, found, _⟩ := pending.sound.calls index _ locked
  simp only [MemoryStore.write, locked, found, Option.bind_eq_bind, Option.bind_some]
  split
  · rfl
  · split
    · rfl
    · simp [Process.dispatch, found]

theorem isSome_finish (pending : MemoryPending store) (inserted : store.calls index = some .inserted) :
    (store.finish index).isSome := by
  obtain ⟨save, found, ⟨guard, guarded⟩, _⟩ := pending.sound.calls index _ inserted
  simp only [MemoryStore.finish, inserted, found, Process.finish, guarded, Option.bind_eq_bind,
    Option.bind_some, Option.pure_def]
  split <;> rfl

theorem isSome_complete (pending : MemoryPending store) (finished : store.calls index = some .finished) :
    (store.complete index).isSome := by
  obtain ⟨save, found, ⟨guard, guarded⟩, _⟩ := pending.sound.calls index _ finished
  obtain ⟨phase, now, captured⟩ := pending.saves index save found
  obtain rfl := Option.some.inj (finished.symm.trans now)
  obtain ⟨revision, taken⟩ := Option.ne_none_iff_exists'.mp fun wrong => by cases captured.mp wrong
  simp [MemoryStore.complete, finished, found, Process.complete, Process.acknowledge, taken]

theorem isSome_capture (pending : MemoryPending store) (attempted : store.calls index = some .attempted) :
    (store.capture index).isSome := by
  obtain ⟨save, found, _⟩ := pending.sound.calls index _ attempted
  obtain ⟨phase, now, captured⟩ := pending.saves index save found
  obtain rfl := Option.some.inj (attempted.symm.trans now)
  simp [MemoryStore.capture, attempted, found, Process.capturePersistence, captured.mpr rfl]

theorem isSome_fail {error : Error} (failed : store.calls index = some (.failed error)) :
    (store.fail index).isSome := by
  simp [MemoryStore.fail, failed]

/-- A call that waits for a free mutex is granted it, or refused for good. -/
theorem isSome_beginBackendWrite (pending : MemoryPending store) {snapshot : Session} {save : Save}
    (captured : store.calls index = some (.captured snapshot))
    (found : store.process.saves index = some save)
    (free : ¬ store.process.Taken save.source.family) : (store.beginBackendWrite index).isSome := by
  obtain ⟨_, same, _, unguarded, _⟩ := pending.sound.calls index _ captured
  have free : (save.source.shared store.process.heap).locked = false := by
    simpa [Process.Taken, Session.shared] using free
  simp only [MemoryStore.beginBackendWrite, captured, Process.acquire, found, unguarded, free,
    Option.bind_eq_bind, Option.bind_some, and_self, if_true]
  split <;> rfl

/-- A deletion that waits for a free mutex is granted it, or refused for good. -/
theorem isSome_grantDelete {deletion : Deletion}
    (found : store.process.deletions index = some deletion) (waiting : deletion.target = none)
    (free : ¬ store.process.Taken deletion.session.family) : (store.grantDelete index).isSome := by
  have free : (deletion.session.shared store.process.heap).locked = false := by
    simpa [Process.Taken, Session.shared] using free
  simp only [MemoryStore.grantDelete, Process.grantDelete, found, waiting, free, Option.bind_eq_bind,
    Option.bind_some, and_self, if_true]
  split <;> rfl

theorem isSome_removeRecord {deletion : Deletion} {target : Id}
    (found : store.process.deletions index = some deletion) (granted : deletion.target = some target)
    (free : store.writer = none) : (store.removeRecord index).isSome := by
  simp [MemoryStore.removeRecord, found, granted, free]

theorem isSome_removeChunk {cleanup : Cleanup} (found : store.cleanups index = some cleanup)
    (free : store.writer = none) : (store.removeChunk index).isSome := by
  simp only [MemoryStore.removeChunk, found, free, Option.bind_eq_bind, Option.bind_some, if_true]
  split <;> rfl

/-- When no call can take a step, none is in progress. The holder of the store's lock could go on,
so it is free; then every call but those that wait for a mutex could go on, so nobody holds one, and
these could go on as well. -/
theorem idle_of_stuck (pending : MemoryPending store)
    (stuck : (memoryStore idOf).Stuck MemoryAction.Own store) : store.Idle := by
  have unable : ∀ action : MemoryAction, action.Own → ¬ (store.step idOf action).isSome := by
    intro action own able
    have none : store.step idOf action = none := stuck action own
    rw [none] at able
    cases able
  have writer : store.writer = none := by
    by_contra held
    obtain ⟨index, held⟩ := Option.ne_none_iff_exists'.mp held
    obtain ⟨phase, found, writes⟩ := pending.writer index held
    cases phase with
    | locked snapshot => exact unable (.write index) trivial (pending.isSome_write found)
    | inserted => exact unable (.finish index) trivial (pending.isSome_finish found)
    | _ => exact writes
  have waits : ∀ index phase, store.calls index = some phase → ∃ snapshot, phase = .captured snapshot := by
    intro index phase found
    cases phase with
    | attempted => exact absurd (pending.isSome_capture found) (unable (.capture index) trivial)
    | captured snapshot => exact ⟨snapshot, rfl⟩
    | guarded snapshot =>
      refine absurd ?_ (unable (.lock index) trivial)
      simp [MemoryStore.step, MemoryStore.lock, found, writer]
    | locked snapshot => exact absurd (pending.isSome_write found) (unable (.write index) trivial)
    | inserted => exact absurd (pending.isSome_finish found) (unable (.finish index) trivial)
    | finished => exact absurd (pending.isSome_complete found) (unable (.complete index) trivial)
    | failed error => exact absurd (isSome_fail found) (unable (.fail index) trivial)
  have ungranted : ∀ index deletion, store.process.deletions index = some deletion →
      deletion.target = none := by
    intro index deletion found
    by_contra target
    obtain ⟨target, granted⟩ := Option.ne_none_iff_exists'.mp target
    exact unable (.removeRecord index) trivial (isSome_removeRecord found granted writer)
  have guards : ∀ index, store.process.guards index = none := by
    intro index
    by_contra held
    obtain ⟨guard, held⟩ := Option.ne_none_iff_exists'.mp held
    obtain ⟨phase, found, guarded⟩ := pending.guards index guard held
    obtain ⟨snapshot, rfl⟩ := waits index phase found
    exact guarded
  have free : ∀ session, store.process.Live session → ¬ store.process.Taken session.family := by
    intro session live taken
    obtain ⟨key | key, held⟩ := pending.attended session live taken
    · obtain ⟨guard, found, _⟩ := held
      cases (guards key).symm.trans found
    · obtain ⟨deletion, found, granted, _⟩ := held
      exact granted (ungranted key deletion found)
  have calls : ∀ index, store.calls index = none := by
    intro index
    by_contra busy
    obtain ⟨phase, found⟩ := Option.ne_none_iff_exists'.mp busy
    obtain ⟨snapshot, rfl⟩ := waits index phase found
    obtain ⟨save, saved, _⟩ := pending.sound.calls index _ found
    exact unable (.beginBackendWrite index) trivial
      (pending.isSome_beginBackendWrite found saved (free _ (.save saved)))
  refine ⟨calls, fun index => ?_, guards, fun index => ?_, fun index => ?_, writer, free⟩
  · by_contra busy
    obtain ⟨save, saved⟩ := Option.ne_none_iff_exists'.mp busy
    obtain ⟨phase, found, _⟩ := pending.saves index save saved
    cases (calls index).symm.trans found
  · by_contra busy
    obtain ⟨deletion, found⟩ := Option.ne_none_iff_exists'.mp busy
    exact unable (.grantDelete index) trivial
      (isSome_grantDelete found (ungranted index deletion found) (free _ (.deletion found)))
  · by_contra busy
    obtain ⟨cleanup, found⟩ := Option.ne_none_iff_exists'.mp busy
    exact unable (.removeChunk index) trivial (isSome_removeChunk found writer)

end MemoryPending

/-! ### The results -/

/-- Every call of a `MemoryStore` ends. -/
theorem memoryStore_completes (idOf : Cookie → Option Id) :
    (memoryStore idOf).Completes MemoryAction.Own MemoryPending MemoryStore.Idle
      MemoryStore.remaining where
  preserved pending step := pending.step step
  descends pending own step := pending.descends own step
  progress pending busy := by
    by_contra stuck
    refine busy (@MemoryPending.idle_of_stuck idOf _ pending fun action own => ?_)
    by_contra able
    obtain ⟨outcome, step⟩ := Option.ne_none_iff_exists'.mp able
    exact stuck ⟨action, outcome.1, outcome.2, own, step⟩

/-- No call of a `MemoryStore` waits for ever: from any reachable state, the calls in progress take
at most `remaining` steps, in whatever order they take them; while one of them has not ended, one of
them can take a step; and when all have ended, no lock is taken. -/
theorem memory_calls_end {idOf : Cookie → Option Id} {store : MemoryStore}
    (reachable : (memoryStore idOf).Reachable store) :
    (∀ trace after, (memoryStore idOf).Run store trace after →
      Machine.Owned MemoryAction.Own trace → trace.length ≤ store.remaining ∧
        ((memoryStore idOf).Stuck MemoryAction.Own after → after.Idle)) ∧
      ∃ trace after, (memoryStore idOf).Run store trace after ∧
        Machine.Owned MemoryAction.Own trace ∧ after.Idle := by
  have pending := MemoryPending.reachable reachable
  have completes := memoryStore_completes idOf
  refine ⟨fun trace after run owned => ⟨?_, ?_⟩, completes.settles pending⟩
  · exact (Nat.le_add_right _ _).trans (completes.length_le pending run owned)
  · exact completes.done_of_stuck (completes.invariant_run pending run)

/-- Two saves and a logout of one family that compete for its mutex all end. -/
theorem memory_calls_end_of_competing : ∃ store : MemoryStore,
    (store.calls 1).isSome ∧ (store.calls 2).isSome ∧ (store.process.deletions 0).isSome ∧
      ∃ trace after, (memoryStore some).Run store trace after ∧
        Machine.Owned MemoryAction.Own trace ∧ after.Idle := by
  have run := Machine.run_replay (memoryStore some) .initial
    ([.handle (.new "first"), .handle (.clone 0), .handle (.clone 0), .handle (.clone 0)] ++
      MemoryAction.store 0 0 ++ [.storeSession 1, .capture 1, .beginBackendWrite 1, .lock 1,
        .storeSession 2, .capture 2, .destroySession 3]) (by decide)
  exact ⟨_, by decide, by decide, by decide, (memory_calls_end ⟨_, _, rfl, run⟩).2⟩

end Saysion
