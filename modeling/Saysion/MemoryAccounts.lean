/-
This file proves what it means that a session of a `MemoryStore` has nothing to
save. Every step of the store is one operation on the data cells, so the accounts
of `Saysion/Accounts.lean` are kept over every run; and a call that completes its
save has inserted exactly what the save had captured. So a cell that reports no
change holds what it was handed out with, what a reset declared unchanged, or
what was inserted into the records.
-/

import Saysion.Accounts
import Saysion.MemoryCalls
import Saysion.MemoryRecords

namespace Saysion

variable {idOf : Cookie → Option Id} {store after : MemoryStore} {reply : Reply}
  {action : MemoryAction}

/-! ### The operations of the steps -/

/-- The application resets the change tracking of a handle with this cell. -/
def MemoryAction.Resets (store : MemoryStore) (action : MemoryAction) (data : Ref) : Prop :=
  ∃ index session, action = .handle (.resetDataChanged index) ∧
    store.process.handles index = some session ∧ session.data = data

/-- A call completes its save. -/
def MemoryAction.Completes (_ : MemoryStore) (action : MemoryAction) (index : Nat) : Prop :=
  action = .complete index

/-- A write marks the family of the snapshot as persisted, which only the record refers to. -/
theorem MemoryStore.accounts_write {index : Nat} (step : store.write index = some (reply, after)) :
    store.process.Accounts (action.Resets store) (action.Completes store) reply after.process := by
  obtain ⟨save, snapshot, found, _, _, ⟨_, _, rfl⟩ | ⟨origin, taken, process, _, started, rfl⟩⟩ :=
    MemoryStore.write_cases step
  · exact Process.accounts_of_still (.refl _) (fun _ _ => rfl) rfl
  obtain ⟨heap, follows, kept⟩ : process.heap = store.process.heap ∧
      store.process.Follows process ∧ process.taken = store.process.taken := by
    split at started
    · cases started
      exact ⟨rfl, .refl _, rfl⟩
    · obtain ⟨older, lookup, same⟩ := Process.dispatch_cases started
      have saves : process.saves =
          Function.update store.process.saves index (some { older with dispatched := true }) := by
        rw [same]
        rfl
      exact ⟨by rw [same]; rfl, Process.follows_dispatch started,
        Process.taken_of_same lookup saves rfl rfl⟩
  refine ⟨?_, fun session member => Or.inl ?_, .still (fun data _ => ?_) kept⟩
  · show _ ≤ (Heap.nextCell _)
    rw [heap]
    exact le_rfl
  · obtain ⟨twin, earlier, alike⟩ := follows.live session
      ((Process.live_congr process { process with heap := snapshot.markPersisted process.heap }
        rfl rfl rfl).mp member)
    exact ⟨twin, earlier, alike.data⟩
  · show (snapshot.markPersisted process.heap).cells data = _
    rw [heap]
    rfl

/-- Every step of the store is one operation on the data cells. -/
theorem MemorySound.accounts (sound : MemorySound store) (snapshots : store.process.Snapshots)
    (step : (memoryStore idOf).step store action = some (reply, after)) :
    store.process.Accounts (action.Resets store) (action.Completes store) reply after.process := by
  have same : store.process.Accounts (action.Resets store) (action.Completes store) reply
      store.process := Process.accounts_of_still (.refl _) (fun _ _ => rfl) rfl
  cases action with
  | handle action =>
    obtain ⟨process, handled, rfl⟩ := MemoryStore.handle_cases step
    refine Process.accounts_handleStep handled fun key session resets found => ?_
    exact ⟨key, session, by rw [resets], found, rfl⟩
  | loadSession cookie now later =>
    rcases sound.loadSession_cases step with ⟨_, _, rfl⟩ | ⟨id, _, _, ⟨_, _, rfl⟩ |
      ⟨record, _, _, ⟨_, _, rfl⟩ | ⟨_, rfl, rfl⟩⟩⟩
    · exact same
    · exact same
    · exact Process.accounts_conceal (MemorySound.hidden_snapshot _ _)
    · exact Process.accounts_fetch (MemorySound.fetches_fetched _ _) (record.cells_fetchedHeap _)
  | storeSession index =>
    obtain ⟨process, attempt, ⟨_, rfl, rfl⟩ | ⟨rfl, rfl⟩⟩ := MemoryStore.storeSession_cases step <;>
      exact Process.accounts_attempt
        (sound.dispatching.locking.unusedSave _ le_rfl).1 attempt
  | capture index =>
    obtain ⟨_, _, process, _, _, captured, _, rfl⟩ := MemoryStore.capture_cases step
    exact Process.accounts_capturePersistence sound.dispatching.authority captured
  | beginBackendWrite index =>
    obtain ⟨_, process, _, _, acquired, _, ⟨_, _, rfl⟩ | ⟨_, rfl⟩⟩ :=
      MemoryStore.beginBackendWrite_cases step <;> exact Process.accounts_acquire acquired
  | lock index =>
    obtain ⟨_, _, _, _, rfl⟩ := MemoryStore.lock_cases step
    exact same
  | write index => exact MemoryStore.accounts_write step
  | finish index =>
    obtain ⟨_, process, _, _, _, finished, _, ⟨_, _, rfl⟩ | ⟨_, rfl⟩⟩ :=
      MemoryStore.finish_cases step <;> exact Process.accounts_finish finished
  | complete index =>
    obtain ⟨_, _, process, _, _, completed, _, rfl⟩ := MemoryStore.complete_cases step
    exact Process.accounts_complete snapshots rfl completed
  | fail index =>
    obtain ⟨_, _, _, rfl⟩ := MemoryStore.fail_cases step
    exact Process.accounts_abandon snapshots
  | cancelStore index =>
    obtain ⟨_, _, rfl⟩ := MemoryStore.cancelStore_cases step
    exact Process.accounts_abandon snapshots
  | destroySession index =>
    obtain ⟨process, requested, rfl⟩ := MemoryStore.destroySession_cases step
    exact Process.accounts_requestDelete requested
  | grantDelete index =>
    obtain ⟨process, granted, rfl⟩ := MemoryStore.grantDelete_cases step
    exact Process.accounts_grantDelete granted
  | removeRecord index =>
    obtain ⟨_, _, _, _, _, _, rfl⟩ := MemoryStore.removeRecord_cases step
    exact Process.accounts_dropDelete
  | cancelDestroy index =>
    obtain ⟨_, _, _, rfl⟩ := MemoryStore.cancelDestroy_cases step
    exact Process.accounts_dropDelete
  | clearStore =>
    obtain ⟨_, _, rfl⟩ := MemoryStore.clearStore_cases step
    exact same
  | cleanupBatch limit now =>
    rcases MemoryStore.cleanupBatch_cases step with ⟨_, _, rfl⟩ | ⟨_, _, ⟨_, _, rfl⟩ | ⟨_, rfl⟩⟩ <;>
      exact same
  | removeChunk index =>
    obtain ⟨_, _, _, _, _, ⟨_, _, rfl⟩ | ⟨_, _, rfl⟩⟩ := MemoryStore.removeChunk_cases step <;>
      exact same
  | cancelCleanup index =>
    obtain ⟨_, _, _, rfl⟩ := MemoryStore.cancelCleanup_cases step
    exact same

/-! ### What a completed call has inserted -/

/-- A call inserted its record, which is this snapshot. -/
def MemoryAction.Inserts (index : Nat) (snapshot : SessionSnapshot) (_ : MemoryStore)
    (action : MemoryAction) (_ : Reply) (after : MemoryStore) : Prop :=
  action = .write index ∧ ∃ record, after.state.records.lookup snapshot.id = some record ∧
    record.wire after.process.heap = snapshot

/-- The snapshot was inserted by a call of the run with this trace. -/
abbrev MemoryStore.WasInserted (idOf : Cookie → Option Id) (trace : List (MemoryAction × Reply))
    (index : Nat) (snapshot : SessionSnapshot) (store : MemoryStore) : Prop :=
  (memoryStore idOf).Happened (MemoryAction.Inserts index snapshot) .initial trace store

/-- The invariant of what the calls have inserted. -/
structure Inserted (idOf : Cookie → Option Id) (trace : List (MemoryAction × Reply))
    (store : MemoryStore) : Prop where
  sound : MemorySound store
  snapshots : store.process.Snapshots
  run : (memoryStore idOf).Run .initial trace store
  captured : ∀ index save, store.process.saves index = some save →
    store.captured index = save.snapshot
  inserted : ∀ index save, store.process.saves index = some save → store.HasWritten index →
    ∃ snapshot, save.snapshot = some snapshot ∧ store.WasInserted idOf trace index snapshot

namespace Inserted

variable {trace : List (MemoryAction × Reply)}

/-- A step that captures nothing and writes nothing. -/
theorem keep (inserted : Inserted idOf trace store)
    (step : (memoryStore idOf).step store action = some (reply, after))
    (saves : ∀ index save, after.process.saves index = some save →
      ∃ older, store.process.saves index = some older ∧ save.snapshot = older.snapshot)
    (captured : after.captured = store.captured)
    (calls : ∀ index, after.HasWritten index → store.HasWritten index) :
    Inserted idOf ((action, reply) :: trace) after where
  sound := inserted.sound.step step
  snapshots := (inserted.sound.advances step).path.snapshots inserted.snapshots
  run := inserted.run.tail step
  captured index save found := by
    obtain ⟨older, earlier, same⟩ := saves index save found
    rw [captured, same]
    exact inserted.captured index older earlier
  inserted index save found wrote := by
    obtain ⟨older, earlier, same⟩ := saves index save found
    obtain ⟨snapshot, taken, happened⟩ := inserted.inserted index older earlier (calls index wrote)
    exact ⟨snapshot, same.trans taken, happened.tail step⟩

/-- A step that leaves the calls and their saves alone. -/
theorem still (inserted : Inserted idOf trace store)
    (step : (memoryStore idOf).step store action = some (reply, after))
    (saves : after.process.saves = store.process.saves) (captured : after.captured = store.captured)
    (calls : after.calls = store.calls) :
    Inserted idOf ((action, reply) :: trace) after := by
  refine inserted.keep step (fun _ save found => ⟨save, saves ▸ found, rfl⟩) captured fun index wrote => ?_
  rwa [MemoryStore.HasWritten, calls] at wrote

/-- A call goes on to a phase without a record of its own. -/
theorem proceed (inserted : Inserted idOf trace store)
    (step : (memoryStore idOf).step store action = some (reply, after)) {index : Nat}
    {phase : Option StorePhase} (saves : after.process.saves = store.process.saves)
    (captured : after.captured = store.captured)
    (calls : after.calls = Function.update store.calls index phase)
    (unwritten : phase ≠ some .inserted)
    (wrote : phase = some .finished → store.calls index = some .inserted) :
    Inserted idOf ((action, reply) :: trace) after := by
  refine inserted.keep step (fun _ save found => ⟨save, saves ▸ found, rfl⟩) captured fun key past => ?_
  by_cases own : key = index
  · subst own
    rw [MemoryStore.HasWritten, calls, Function.update_self] at past
    exact Or.inl (wrote (past.resolve_left unwritten))
  · exact past.earlier calls own

/-- A call ends, with its save. -/
theorem finish (inserted : Inserted idOf trace store)
    (step : (memoryStore idOf).step store action = some (reply, after)) {index : Nat}
    (saves : after.process.saves = Function.update store.process.saves index none)
    (captured : after.captured = store.captured)
    (calls : after.calls = Function.update store.calls index none) :
    Inserted idOf ((action, reply) :: trace) after := by
  refine inserted.keep step (fun key save found => ?_) captured fun key past => ?_
  · rw [saves] at found
    rcases update_eq_some found with ⟨_, wrong⟩ | ⟨_, earlier⟩
    · cases wrong
    · exact ⟨save, earlier, rfl⟩
  · by_cases own : key = index
    · subst own
      rw [MemoryStore.HasWritten, calls, Function.update_self] at past
      rcases past with wrong | wrong <;> cases wrong
    · exact past.earlier calls own

theorem abandon (inserted : Inserted idOf trace store) {index : Nat}
    (step : (memoryStore idOf).step store action = some (reply,
      { store.setCall index none with process := store.process.abandon index })) :
    Inserted idOf ((action, reply) :: trace)
      { store.setCall index none with process := store.process.abandon index } := by
  obtain ⟨heap, dropped⟩ := store.process.abandon_eq index
  exact inserted.finish step (by rw [dropped]; rfl) rfl rfl

/-- The step in which a save captures its source. -/
theorem capture (inserted : Inserted idOf trace store) {index : Nat}
    (step : (memoryStore idOf).step store (.capture index) = some (reply, after)) :
    Inserted idOf ((.capture index, reply) :: trace) after := by
  have whole := step
  obtain ⟨save, snapshot, process, attempted, found, captured, _, rfl⟩ :=
    MemoryStore.capture_cases step
  obtain ⟨older, lookup, _, _, rfl⟩ := Process.capturePersistence_cases captured
  obtain rfl := Option.some.inj (found.symm.trans lookup)
  refine ⟨inserted.sound.step whole, (inserted.sound.advances whole).path.snapshots inserted.snapshots,
    inserted.run.tail whole, fun key newer lookup => ?_, fun key newer lookup past => ?_⟩
  · rcases update_eq_some lookup with ⟨rfl, same⟩ | ⟨different, earlier⟩
    · obtain rfl := Option.some.inj same
      exact Function.update_self _ _ _
    · exact (Function.update_of_ne different _ _).trans (inserted.captured key newer earlier)
  · have own : key ≠ index := by
      rintro rfl
      rcases past with now | now <;> cases (eq_some_of_update_self now)
    obtain ⟨wire, taken, happened⟩ := inserted.inserted key newer
      ((Function.update_of_ne own _ _).symm.trans lookup) (past.earlier rfl own)
    exact ⟨wire, taken, happened.tail whole⟩

/-- The step in which a call inserts its record, which is what its save captured. -/
theorem write (inserted : Inserted idOf trace store) {index : Nat}
    (step : (memoryStore idOf).step store (.write index) = some (reply, after)) :
    Inserted idOf ((.write index, reply) :: trace) after := by
  have whole := step
  obtain ⟨save, snapshot, found, locked, _, ⟨_, rfl⟩ |
    ⟨process, taken, _, update, creates, rfl⟩⟩ := inserted.sound.write_cases step
  · exact inserted.proceed whole rfl rfl rfl nofun nofun
  obtain ⟨other, lookup, _, _, copies⟩ := inserted.sound.calls index _ locked
  obtain rfl := Option.some.inj (found.symm.trans lookup)
  obtain ⟨heap, saves⟩ : process.heap = store.process.heap ∧ ∃ newer : Save,
      newer.snapshot = save.snapshot ∧
        process.saves = Function.update store.process.saves index (some newer) := by
    by_cases creating : save.Creates
    · obtain ⟨older, earlier, rfl⟩ := Process.dispatch_cases (creates creating)
      obtain rfl := Option.some.inj (found.symm.trans earlier)
      exact ⟨rfl, { save with dispatched := true }, rfl, rfl⟩
    · rw [update creating]
      exact ⟨rfl, save, rfl, (Function.update_eq_self_iff.mpr found.symm).symm⟩
  obtain ⟨newer, same, saves⟩ := saves
  have wire : (snapshot.wire (snapshot.markPersisted process.heap)) = snapshot.wire store.process.heap := by
    rw [heap]
    rfl
  have captured : save.snapshot = some (snapshot.wire store.process.heap) :=
    (inserted.captured index save found).symm.trans copies.wire
  refine ⟨inserted.sound.step whole, (inserted.sound.advances whole).path.snapshots inserted.snapshots,
    inserted.run.tail whole, fun key later lookup => ?_, fun key later lookup past => ?_⟩
  all_goals
    have lookup : process.saves key = some later := lookup
    rw [saves] at lookup
    rcases update_eq_some lookup with ⟨rfl, new⟩ | ⟨different, earlier⟩
  · obtain rfl := Option.some.inj new
    exact (inserted.captured key save found).trans same.symm
  · exact inserted.captured key later earlier
  · obtain rfl := Option.some.inj new
    refine ⟨_, same.trans captured, .now inserted.run whole ⟨rfl, snapshot, ?_, wire⟩⟩
    show (taken.insert save.source.id snapshot).records.lookup snapshot.id = _
    rw [copies.id, MemoryState.lookup_insert, if_pos rfl]
  · obtain ⟨wire, recorded, happened⟩ := inserted.inserted key later earlier
      (past.earlier rfl different)
    exact ⟨wire, recorded, happened.tail whole⟩

/-- A new save has captured nothing yet. -/
theorem storeSession (inserted : Inserted idOf trace store) {index : Nat}
    (step : (memoryStore idOf).step store (.storeSession index) = some (reply, after)) :
    Inserted idOf ((.storeSession index, reply) :: trace) after := by
  have whole := step
  obtain ⟨process, attempt, outcome⟩ := MemoryStore.storeSession_cases step
  obtain ⟨session, _, ⟨_, _, rfl, rfl⟩ | ⟨origin, heap, _, rfl, rfl⟩⟩ := Process.attempt_cases attempt
  · obtain ⟨_, _, rfl⟩ | ⟨wrong, _⟩ := outcome
    · exact inserted.still whole rfl rfl rfl
    · cases wrong
  obtain ⟨_, wrong, _⟩ | ⟨_, rfl⟩ := outcome
  · cases wrong
  refine ⟨inserted.sound.step whole, (inserted.sound.advances whole).path.snapshots inserted.snapshots,
    inserted.run.tail whole, fun key save lookup => ?_, fun key save lookup past => ?_⟩
  all_goals rcases update_eq_some lookup with ⟨rfl, new⟩ | ⟨different, earlier⟩
  · obtain rfl := Option.some.inj new
    show store.captured store.process.nextSave = none
    by_contra captured
    obtain ⟨snapshot, captured⟩ := Option.ne_none_iff_exists'.mp captured
    exact absurd (inserted.sound.numbered _ snapshot captured) (Nat.lt_irrefl _)
  · exact inserted.captured key save earlier
  · rcases past with now | now <;> cases (eq_some_of_update_self now)
  · obtain ⟨wire, recorded, happened⟩ := inserted.inserted key save earlier
      (past.earlier rfl different)
    exact ⟨wire, recorded, happened.tail whole⟩

/-- Every step keeps the invariant. -/
theorem step (inserted : Inserted idOf trace store)
    (step : (memoryStore idOf).step store action = some (reply, after)) :
    Inserted idOf ((action, reply) :: trace) after := by
  have whole := step
  cases action with
  | handle action =>
    obtain ⟨process, handled, rfl⟩ := MemoryStore.handle_cases step
    obtain ⟨_, _, _, _, rfl⟩ := Process.handleStep_eq handled
    exact inserted.still whole rfl rfl rfl
  | loadSession cookie now later =>
    rcases MemoryStore.loadSession_cases step with ⟨_, _, rfl⟩ | ⟨id, _, _, ⟨_, _, rfl⟩ |
      ⟨record, _, _, _, ⟨_, rfl⟩ | ⟨_, _, _, _, rfl⟩⟩⟩ <;>
      exact inserted.still whole rfl rfl rfl
  | storeSession index => exact inserted.storeSession step
  | capture index => exact inserted.capture step
  | beginBackendWrite index =>
    obtain ⟨_, process, _, _, acquired, _, outcome⟩ := MemoryStore.beginBackendWrite_cases step
    obtain ⟨_, _, _, _, ⟨_, _, _, _, rfl⟩ | ⟨_, _, _, _, rfl⟩⟩ := Process.acquire_cases acquired <;>
    obtain ⟨_, _, rfl⟩ | ⟨_, rfl⟩ := outcome <;>
      exact inserted.proceed whole rfl rfl rfl nofun nofun
  | lock index =>
    obtain ⟨_, _, _, _, rfl⟩ := MemoryStore.lock_cases step
    exact inserted.proceed whole rfl rfl rfl nofun nofun
  | write index => exact inserted.write step
  | finish index =>
    obtain ⟨_, process, _, _, written, finished, _, outcome⟩ := MemoryStore.finish_cases step
    obtain ⟨_, _, _, rfl⟩ := Process.finish_cases finished
    obtain ⟨_, _, rfl⟩ | ⟨_, rfl⟩ := outcome
    · exact inserted.proceed whole rfl rfl rfl nofun nofun
    · exact inserted.proceed whole rfl rfl rfl nofun fun _ => written
  | complete index =>
    obtain ⟨_, _, process, _, _, completed, _, rfl⟩ := MemoryStore.complete_cases step
    obtain ⟨middle, acknowledged, rfl⟩ := Process.complete_cases completed
    obtain ⟨_, _, _, _, _, rfl⟩ := Process.acknowledge_cases acknowledged
    refine inserted.finish whole ?_ rfl rfl
    exact (Process.cells_dropGuard _ index).2
  | fail index =>
    obtain ⟨_, _, _, rfl⟩ := MemoryStore.fail_cases step
    exact inserted.abandon whole
  | cancelStore index =>
    obtain ⟨_, _, rfl⟩ := MemoryStore.cancelStore_cases step
    exact inserted.abandon whole
  | destroySession index =>
    obtain ⟨process, requested, rfl⟩ := MemoryStore.destroySession_cases step
    obtain ⟨_, _, _, rfl⟩ := Process.requestDelete_cases requested
    exact inserted.still whole rfl rfl rfl
  | grantDelete index =>
    obtain ⟨process, granted, rfl⟩ := MemoryStore.grantDelete_cases step
    obtain ⟨_, _, _, _, ⟨_, _, _, rfl⟩ | ⟨_, _, _, _, rfl⟩⟩ := Process.grantDelete_cases granted <;>
      exact inserted.still whole rfl rfl rfl
  | removeRecord index =>
    obtain ⟨_, _, _, _, _, _, rfl⟩ := MemoryStore.removeRecord_cases step
    obtain ⟨heap, dropped⟩ := store.process.dropDelete_eq index
    exact inserted.still whole (by rw [dropped]; rfl) rfl rfl
  | cancelDestroy index =>
    obtain ⟨_, _, _, rfl⟩ := MemoryStore.cancelDestroy_cases step
    obtain ⟨heap, dropped⟩ := store.process.dropDelete_eq index
    exact inserted.still whole (by rw [dropped]; rfl) rfl rfl
  | clearStore =>
    obtain ⟨_, _, rfl⟩ := MemoryStore.clearStore_cases step
    exact inserted.still whole rfl rfl rfl
  | cleanupBatch limit now =>
    rcases MemoryStore.cleanupBatch_cases step with ⟨_, _, rfl⟩ | ⟨_, _, ⟨_, _, rfl⟩ | ⟨_, rfl⟩⟩ <;>
      exact inserted.still whole rfl rfl rfl
  | removeChunk index =>
    obtain ⟨_, _, _, _, _, ⟨_, _, rfl⟩ | ⟨_, _, rfl⟩⟩ := MemoryStore.removeChunk_cases step <;>
      exact inserted.still whole rfl rfl rfl
  | cancelCleanup index =>
    obtain ⟨_, _, _, rfl⟩ := MemoryStore.cancelCleanup_cases step
    exact inserted.still whole rfl rfl rfl

theorem initial (idOf : Cookie → Option Id) : Inserted idOf [] .initial where
  sound := memorySound_initial
  snapshots := by rintro _ _ wrong; cases wrong
  run := .refl
  captured := by rintro _ _ wrong; cases wrong
  inserted := by rintro _ _ wrong; cases wrong

theorem of_run (run : (memoryStore idOf).Run .initial trace store) : Inserted idOf trace store := by
  induction run with
  | refl => exact initial idOf
  | tail _ step inserted => exact inserted.step step

end Inserted

/-! ### The result -/

section Result

variable {trace : List (MemoryAction × Reply)}

/-- A session was handed out, by `new` or by a load, with this cell and these values. -/
abbrev MemoryStore.Began (idOf : Cookie → Option Id) (trace : List (MemoryAction × Reply))
    (data : Ref) (values : Values) (store : MemoryStore) : Prop :=
  (memoryStore idOf).Happened (Machine.Begins MemoryStore.process data values) .initial trace store

/-- The application reset the change tracking of this cell while it held these values. -/
abbrev MemoryStore.WasReset (idOf : Cookie → Option Id) (trace : List (MemoryAction × Reply))
    (data : Ref) (values : Values) (store : MemoryStore) : Prop :=
  (memoryStore idOf).Happened (Machine.Declares MemoryStore.process MemoryAction.Resets data values)
    .initial trace store

/-- A call completed a save that had captured these values of this cell, and it had inserted what
the save captured. -/
def MemoryStore.WasSaved (idOf : Cookie → Option Id) (trace : List (MemoryAction × Reply))
    (data : Ref) (values : Values) (store : MemoryStore) : Prop :=
  ∃ index token snapshot earlier before reply after later,
    trace = later ++ (.complete index, reply) :: earlier ∧
      (memoryStore idOf).Run .initial earlier before ∧
        (memoryStore idOf).step before (.complete index) = some (reply, after) ∧
          (memoryStore idOf).Run after later store ∧
            before.process.taken index = some (token, snapshot) ∧ token.data = data ∧
              snapshot.data = values ∧ before.WasInserted idOf earlier index snapshot

theorem memoryStore_books (idOf : Cookie → Option Id) :
    (memoryStore idOf).Books MemoryStore.process MemoryAction.Resets MemoryAction.Completes where
  initial state initially := by
    obtain rfl : state = MemoryStore.initial := initially
    rfl
  accounts reachable step := by
    obtain ⟨_, _, rfl, run⟩ := reachable
    have inserted := Inserted.of_run run
    exact inserted.sound.accounts inserted.snapshots step

/-- What a completed save had captured was inserted by its call. -/
theorem MemoryStore.wasSaved_of_confirms {data : Ref} {values : Values}
    (confirmed : (memoryStore idOf).Happened
      (Machine.Confirms MemoryStore.process MemoryAction.Completes data values) .initial trace store) :
    store.WasSaved idOf trace data values := by
  obtain ⟨earlier, before, action, reply, after, later, split, run, step,
    ⟨index, token, snapshot, rfl, taken, own, exact_⟩, rest⟩ := confirmed
  obtain ⟨_, _, _, finished, _, _, _, _⟩ := MemoryStore.complete_cases step
  obtain ⟨save, found, _, captured⟩ := Process.save_of_taken taken
  obtain ⟨other, same, inserted⟩ := (Inserted.of_run run).inserted index save found (Or.inr finished)
  obtain rfl := Option.some.inj (captured.symm.trans same)
  exact ⟨index, token, snapshot, earlier, before, reply, after, later, split, run, step, rest, taken,
    own, exact_, inserted⟩

/-- A session that reports nothing to save has nothing to save. In every run of fewer than 2^64
steps, a handle whose `data_changed` is false holds the values it was handed out with in that run, or
values that the application declared unchanged by a reset in it, or values of its cell that a call
captured, inserted into the records and completed in it, whatever edits, clones and overlapping saves
came between. And no save is ever forgotten or counted twice: the active saves of its cell are the
saves in progress that captured it. -/
theorem memory_clean_sessions_were_saved
    (run : (memoryStore idOf).Run .initial trace store) {index : Nat} {session : Session}
    (held : store.process.handles index = some session) :
    (trace.length < 2 ^ 64 → session.dataChanged store.process.heap = false →
      store.Began idOf trace session.data (session.sessionData store.process.heap).values ∨
        store.WasReset idOf trace session.data (session.sessionData store.process.heap).values ∨
          store.WasSaved idOf trace session.data (session.sessionData store.process.heap).values) ∧
    ∃ indices : List Nat, indices.Nodup ∧
      (∀ index, index ∈ indices ↔ ∃ save token, store.process.saves index = some save ∧
        save.revision = some token ∧ token.data = session.data) ∧
      (session.sessionData store.process.heap).activeSaves = indices.length := by
  have keeps := (memoryStore_books idOf).run rfl run
  refine ⟨fun few clean => ?_, keeps.active (Inserted.of_run run).snapshots (.handle held)⟩
  have unchanged : (session.sessionData store.process.heap).changed = false :=
    (Bool.or_eq_false_iff.mp clean).2
  rcases keeps.clean few (.handle held) unchanged with began | reset | confirmed
  · exact Or.inl began
  · exact Or.inr (Or.inl reset)
  · exact Or.inr (Or.inr (MemoryStore.wasSaved_of_confirms confirmed))

end Result

/-- A clone that was edited and then saved through the other handle is clean again. -/
theorem memory_clean_sessions_were_saved_of_clone : ∃ (store : MemoryStore)
    (trace : List (MemoryAction × Reply)) (session : Session),
    store.process.handles 1 = some session ∧
      (session.sessionData store.process.heap).values.lookup "key" = some "value" ∧
        (store.Began some trace session.data (session.sessionData store.process.heap).values ∨
          store.WasReset some trace session.data (session.sessionData store.process.heap).values ∨
            store.WasSaved some trace session.data (session.sessionData store.process.heap).values) := by
  obtain ⟨store, trace, session, run, few, held, value, clean⟩ : ∃ (store : MemoryStore)
      (trace : List (MemoryAction × Reply)) (session : Session),
      (memoryStore some).Run .initial trace store ∧ trace.length < 2 ^ 64 ∧
        store.process.handles 1 = some session ∧
          (session.sessionData store.process.heap).values.lookup "key" = some "value" ∧
            session.dataChanged store.process.heap = false :=
    ⟨_, _, _, Machine.run_replay _ _ ([.handle (.new "first"), .handle (.clone 0),
      .handle (.insertRaw 1 "key" "value")] ++ MemoryAction.store 0 0) (by decide), by decide, rfl,
      by decide, by decide⟩
  exact ⟨store, trace, session, held, value,
    (memory_clean_sessions_were_saved run held).1 few clean⟩

end Saysion
