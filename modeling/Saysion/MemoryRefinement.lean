/-
This file proves that a `MemoryStore` is a table of records: every step of every
run is at most one atomic event of the table of `Saysion/Records.lean`. A call
of `store_session` is one insertion, update or rotation, at its write and
nowhere else; a destruction, a clear and a chunk of a cleanup are one removal;
and a load answers with what the table holds at that moment. So a load reads
what was written last.
-/

import Saysion.MemoryAccounts
import Saysion.MemoryIndex
import Saysion.Records

namespace Saysion

/-! ### What the steps show -/

/-- The event that a save is, once its record is written. -/
def Save.event (save : Save) (snapshot : SessionSnapshot) : RecordEvent Id SessionSnapshot :=
  match save.origin with
  | none => .insert save.source.id snapshot
  | some origin =>
    if origin = save.source.id then .update save.source.id snapshot
    else .rotate origin save.source.id snapshot

/-- The event of a save whose source is there, or whose id is new. -/
theorem Save.step_event (save : Save) (records : Records Id SessionSnapshot)
    (snapshot : SessionSnapshot)
    (there : ∀ source, save.origin = some source → records.present source ≠ none)
    (fresh : save.Creates → save.source.id ∉ records.spent) :
    ∃ later, records.Step (save.event snapshot) later ∧
      (∀ id, later.present id = if id = save.source.id then some snapshot
        else if save.origin = some id then none else records.present id) ∧
      later.spent = insert save.source.id records.spent := by
  unfold Save.event
  cases origin : save.origin with
  | none =>
    refine ⟨_, .insert (fresh (by rw [Save.Creates, origin]; simp)), fun id => ?_, rfl⟩
    rw [Records.present_write, if_neg (Option.some_ne_none id).symm]
  | some source =>
    dsimp only
    by_cases same : source = save.source.id
    · rw [if_pos same]
      refine ⟨_, .update (same ▸ there source origin), fun id => ?_, rfl⟩
      rw [Records.present_write]
      refine ite_congr rfl (fun _ => rfl) fun other => (if_neg fun own => other ?_).symm
      exact (Option.some.inj own).symm.trans same
    · rw [if_neg same]
      refine ⟨_, .rotate (there source origin) (fresh (by rw [Save.Creates, origin]; simpa)),
        fun id => ?_, rfl⟩
      simp only [Records.present_write, Records.present_remove_singleton, Option.some.injEq]

/-- A load at these two readings of the clock finds that the session has expired. -/
def SessionSnapshot.Passed (now later : DateTime) (snapshot : SessionSnapshot) : Prop :=
  ∃ expiry ∈ snapshot.expiry, expiry < now ∨ expiry < later

theorem Session.passed_wire {heap : Heap} {session : Session} {now later : DateTime} :
    (session.wire heap).Passed now later ↔
      session.isExpired now = true ∨ session.isExpired later = true := by
  simp only [SessionSnapshot.Passed, Session.isExpired, Option.any_eq_true, decide_eq_true_eq]
  constructor
  · rintro ⟨expiry, same, past | past⟩
    · exact Or.inl ⟨expiry, same, past⟩
    · exact Or.inr ⟨expiry, same, past⟩
  · rintro (⟨expiry, same, past⟩ | ⟨expiry, same, past⟩)
    · exact ⟨expiry, same, Or.inl past⟩
    · exact ⟨expiry, same, Or.inr past⟩

/-- The steps that neither look at the records nor change them. -/
def MemoryAction.Silent : MemoryAction → Prop
  | .loadSession _ _ _ | .write _ | .finish _ | .removeRecord _ | .clearStore | .removeChunk _ => False
  | _ => True

namespace MemoryStore

/-- The ids that a chunk of a cleanup removes. -/
def expiredChunk (store : MemoryStore) (cleanup : Cleanup) : Set Id :=
  {id | id ∈ cleanup.ids.take CLEANUP_BATCH_SIZE ∧ store.state.expiredAt cleanup.now id = true}

/-- The event that a step shows. A load shows what its caller is handed out. -/
inductive Shows (idOf : Cookie → Option Id) (store : MemoryStore) :
    MemoryAction → Reply → MemoryStore → RecordEvent Id SessionSnapshot → Prop
  | silent {action : MemoryAction} {reply : Reply} {after : MemoryStore} : action.Silent →
      Shows idOf store action reply after .quiet
  | malformed {cookie : Cookie} {now later : DateTime} {after : MemoryStore} :
      idOf cookie = none →
        Shows idOf store (.loadSession cookie now later) (.error .cookieFormat) after .quiet
  | hit {cookie : Cookie} {now later : DateTime} {number : Nat} {after : MemoryStore} {id : Id}
      {session : Session} : idOf cookie = some id → after.process.handles number = some session →
        ¬ (session.wire after.process.heap).Passed now later →
          Shows idOf store (.loadSession cookie now later) (.handle number) after
            (.read id (session.wire after.process.heap))
  | miss {cookie : Cookie} {now later : DateTime} {after : MemoryStore} {id : Id} :
      idOf cookie = some id → Shows idOf store (.loadSession cookie now later) .missing after
        (.miss id (SessionSnapshot.Passed now later))
  | write {index : Nat} {after : MemoryStore} {save : Save} {snapshot : SessionSnapshot} :
      after.calls index = some .inserted → store.process.saves index = some save →
        save.snapshot = some snapshot →
          Shows idOf store (.write index) .done after (save.event snapshot)
  | refuse {index : Nat} {after : MemoryStore} {error : Error} :
      after.calls index = some (.failed error) → Shows idOf store (.write index) .done after .quiet
  | finish {index : Nat} {after : MemoryStore} : after.calls index = some .finished →
      Shows idOf store (.finish index) .done after .quiet
  | takeBack {index : Nat} {after : MemoryStore} {save : Save} {error : Error} :
      after.calls index = some (.failed error) → store.process.saves index = some save →
        save.source.isDestroyed store.process.heap = true →
          Shows idOf store (.finish index) .done after (.remove {save.source.id})
  | removeRecord {index : Nat} {after : MemoryStore} {deletion : Deletion} {target : Id} :
      store.process.deletions index = some deletion → deletion.target = some target →
        Shows idOf store (.removeRecord index) .done after (.remove {target})
  | clear {after : MemoryStore} : Shows idOf store .clearStore .done after (.remove Set.univ)
  | clean {index : Nat} {reply : Reply} {after : MemoryStore} {cleanup : Cleanup} :
      store.cleanups index = some cleanup →
        Shows idOf store (.removeChunk index) reply after (.remove (store.expiredChunk cleanup))

/-- The table that a store represents: its records, as what a load makes of them, and the ids for
which a record-creating write was ever started. -/
structure Represents (store : MemoryStore) (records : Records Id SessionSnapshot) : Prop where
  present : ∀ id, records.present id =
    (store.state.records.lookup id).map (·.wire store.process.heap)
  spent : ∀ id, id ∈ records.spent ↔ id ∈ store.process.dispatched

/-! ### What the steps keep -/

namespace Represents

variable {idOf : Cookie → Option Id} {store after : MemoryStore}
  {records : Records Id SessionSnapshot} {reply : Reply} {action : MemoryAction}
  {trace : List (MemoryAction × Reply)}

/-- A record that is left alone is read as before. -/
theorem kept (represents : store.Represents records) (sound : MemorySound store)
    (advances : store.Advances idOf action after) {id : Id}
    (same : after.state.records.lookup id = store.state.records.lookup id) :
    records.present id = (after.state.records.lookup id).map (·.wire after.process.heap) := by
  rw [represents.present, same]
  cases found : store.state.records.lookup id with
  | none => rfl
  | some record =>
    have apart := (sound.records id record found).apart
    exact congrArg some (apart.wire_eq (advances.path.spares sound.dispatching)).symm

/-- A step that leaves the records alone. -/
theorem still (represents : store.Represents records) (sound : MemorySound store)
    (advances : store.Advances idOf action after) (state : after.state = store.state)
    (dispatched : after.process.dispatched = store.process.dispatched) :
    after.Represents records where
  present id := represents.kept sound advances (by rw [state])
  spent id := by rw [represents.spent, dispatched]

/-- A step that removes some of the records. -/
theorem remove (represents : store.Represents records) (sound : MemorySound store)
    (advances : store.Advances idOf action after) {ids : Set Id}
    (gone : ∀ id ∈ ids, after.state.records.lookup id = none)
    (left : ∀ id ∉ ids, after.state.records.lookup id = store.state.records.lookup id)
    (dispatched : after.process.dispatched = store.process.dispatched) :
    after.Represents (records.remove ids) where
  present id := by
    by_cases member : id ∈ ids
    · rw [Records.present_remove_of_mem _ member, gone id member]
      rfl
    · rw [Records.present_remove_of_notMem _ member]
      exact represents.kept sound advances (left id member)
  spent id := by rw [Records.spent_remove, represents.spent, dispatched]

/-- A load of a hidden record or of none. -/
theorem miss (represents : store.Represents records) {id : Id} {now later : DateTime}
    (stale : ∀ record, store.state.records.lookup id = some record →
      record.isExpired now = true ∨ record.isExpired later = true) :
    records.Step (.miss id (SessionSnapshot.Passed now later)) records := by
  refine .miss fun snapshot there => ?_
  rw [represents.present] at there
  obtain ⟨record, found, rfl⟩ := Option.map_eq_some_iff.mp there
  exact Session.passed_wire.mpr (stale record found)

/-- What a written record leaves of the table. -/
theorem written (represents : store.Represents records) (sound : MemorySound store)
    (advances : store.Advances idOf action after) {later : Records Id SessionSnapshot}
    {save : Save} {snapshot : SessionSnapshot} {record : Session} {taken : MemoryState}
    (replaced : save.takeSource store.process.heap store.state = .ok (save.origin, taken))
    (state : after.state = taken.insert save.source.id record)
    (wire : record.wire after.process.heap = snapshot)
    (present : ∀ id, later.present id = if id = save.source.id then some snapshot
      else if save.origin = some id then none else records.present id)
    (spent : ∀ id, id ∈ later.spent ↔ id ∈ after.process.dispatched) : after.Represents later := by
  obtain ⟨_, lookup⟩ := Save.takeSource_ok replaced
  refine ⟨fun id => ?_, spent⟩
  rw [present]
  by_cases own : id = save.source.id
  · rw [if_pos own, state, MemoryState.lookup_insert, if_pos own]
    exact congrArg some wire.symm
  · have elsewhere : after.state.records.lookup id = taken.records.lookup id := by
      rw [state, MemoryState.lookup_insert, if_neg own]
    rw [if_neg own]
    by_cases source : save.origin = some id
    · rw [if_pos source, elsewhere, lookup, if_pos ⟨source, own⟩]
      rfl
    · rw [if_neg source]
      refine represents.kept sound advances (elsewhere.trans ?_)
      rw [lookup, if_neg fun both => source both.1]

/-- The write of a call is the one event that its save is. -/
theorem write (represents : store.Represents records) (inserted : Inserted idOf trace store) {index : Nat}
    (step : (memoryStore idOf).step store (.write index) = some (reply, after)) :
    ∃ event later, store.Shows idOf (.write index) reply after event ∧ records.Step event later ∧
      after.Represents later := by
  have sound := inserted.sound
  have advances := sound.advances step
  obtain ⟨save, snapshot, found, locked, rfl, ⟨_, rfl⟩ |
    ⟨process, taken, replaced, updates, creates, same⟩⟩ := sound.write_cases step
  · exact ⟨_, _, .refuse (Function.update_self _ _ _), .quiet _,
      represents.still sound advances rfl rfl⟩
  obtain ⟨older, saved, undispatched, ⟨guard, guarded⟩, copies⟩ := sound.calls index _ locked
  obtain rfl := Option.some.inj (found.symm.trans saved)
  obtain ⟨_, _, _, present, _⟩ := Save.recheck_ok (Save.takeSource_ok replaced).1
  have captured : save.snapshot = some (snapshot.wire store.process.heap) :=
    (inserted.captured index save found).symm.trans copies.wire
  have there : ∀ source, save.origin = some source → records.present source ≠ none := by
    intro source origin absent
    obtain ⟨record, there⟩ := Finmap.mem_iff.mp (present source origin)
    rw [represents.present, there] at absent
    cases absent
  have fresh : save.Creates → save.source.id ∉ records.spent := by
    intro creating spent
    exact sound.dispatching.unused index guard save guarded found creating undispatched
      ((represents.spent _).mp spent)
  -- An update changes neither the cells nor what was written under.
  have started : process.heap = store.process.heap ∧ ∀ id, id ∈ process.dispatched ↔
      id = save.source.id ∨ id ∈ store.process.dispatched := by
    by_cases creating : save.Creates
    · obtain ⟨other, lookup, rfl⟩ := Process.dispatch_cases (creates creating)
      obtain rfl := Option.some.inj (found.symm.trans lookup)
      exact ⟨rfl, fun id => List.mem_cons⟩
    · obtain rfl := updates creating
      have known := (represents.spent _).mp (records.present_spent _ (there _ (not_not.mp creating)))
      exact ⟨rfl, fun key => ⟨Or.inr, fun either => either.elim (fun own => own ▸ known) id⟩⟩
  obtain ⟨later, takes, content, spent⟩ :=
    save.step_event records (snapshot.wire store.process.heap) there fresh
  refine ⟨_, later, .write (same ▸ Function.update_self _ _ _) found captured, takes, ?_⟩
  subst same
  refine represents.written sound advances replaced rfl ?_ content fun id => ?_
  · show snapshot.wire (snapshot.markPersisted process.heap) = _
    rw [started.1]
    rfl
  · rw [spent, Set.mem_insert_iff, represents.spent]
    exact (started.2 id).symm

end Represents

end MemoryStore

/-! ### Every step -/

/-- A silent step leaves the records alone. -/
theorem MemoryStore.state_of_silent {idOf : Cookie → Option Id} {store after : MemoryStore}
    {reply : Reply} {action : MemoryAction} (silent : action.Silent)
    (step : (memoryStore idOf).step store action = some (reply, after)) :
    after.state = store.state := by
  cases action with
  | loadSession | write | finish | removeRecord | clearStore | removeChunk => exact silent.elim
  | handle action =>
    obtain ⟨_, _, rfl⟩ := MemoryStore.handle_cases step
    rfl
  | storeSession index =>
    obtain ⟨_, _, ⟨_, _, rfl⟩ | ⟨_, rfl⟩⟩ := MemoryStore.storeSession_cases step <;> rfl
  | capture index =>
    obtain ⟨_, _, _, _, _, _, _, rfl⟩ := MemoryStore.capture_cases step
    rfl
  | beginBackendWrite index =>
    obtain ⟨_, _, _, _, _, _, ⟨_, _, rfl⟩ | ⟨_, rfl⟩⟩ :=
      MemoryStore.beginBackendWrite_cases step <;> rfl
  | lock index =>
    obtain ⟨_, _, _, _, rfl⟩ := MemoryStore.lock_cases step
    rfl
  | complete index =>
    obtain ⟨_, _, _, _, _, _, _, rfl⟩ := MemoryStore.complete_cases step
    rfl
  | fail index =>
    obtain ⟨_, _, _, rfl⟩ := MemoryStore.fail_cases step
    rfl
  | cancelStore index =>
    obtain ⟨_, _, rfl⟩ := MemoryStore.cancelStore_cases step
    rfl
  | destroySession index =>
    obtain ⟨_, _, rfl⟩ := MemoryStore.destroySession_cases step
    rfl
  | grantDelete index =>
    obtain ⟨_, _, rfl⟩ := MemoryStore.grantDelete_cases step
    rfl
  | cancelDestroy index =>
    obtain ⟨_, _, _, rfl⟩ := MemoryStore.cancelDestroy_cases step
    rfl
  | cleanupBatch limit now =>
    rcases MemoryStore.cleanupBatch_cases step with ⟨_, _, rfl⟩ | ⟨_, _, ⟨_, _, rfl⟩ | ⟨_, rfl⟩⟩ <;>
      rfl
  | cancelCleanup index =>
    obtain ⟨_, _, _, rfl⟩ := MemoryStore.cancelCleanup_cases step
    rfl

/-- Only a write starts a record. -/
theorem MemoryStore.Effect.dispatched {idOf : Cookie → Option Id} {store after : MemoryStore}
    {action : MemoryAction} (effect : store.Effect idOf action after)
    (other : ∀ index, action ≠ .write index) :
    after.process.dispatched = store.process.dispatched := by
  cases effect with
  | quiet _ unwritten _ _ => exact unwritten.dispatched
  | capture _ unwritten _ _ _ => exact unwritten.dispatched
  | load _ _ unwritten _ _ _ => exact unwritten.dispatched
  | complete _ _ _ _ unwritten _ _ => exact unwritten.dispatched
  | write => exact absurd rfl (other _)

/-- Every step shows one event of the table. -/
theorem MemoryStore.Represents.step {idOf : Cookie → Option Id} {store after : MemoryStore}
    {records : Records Id SessionSnapshot} {reply : Reply} {action : MemoryAction}
    {trace : List (MemoryAction × Reply)} (represents : store.Represents records)
    (inserted : Inserted idOf trace store)
    (step : (memoryStore idOf).step store action = some (reply, after)) :
    ∃ event later, store.Shows idOf action reply after event ∧ records.Step event later ∧
      after.Represents later := by
  have sound := inserted.sound
  have advances := sound.advances step
  have silently : action.Silent → ∃ event later, store.Shows idOf action reply after event ∧
      records.Step event later ∧ after.Represents later := by
    intro silent
    refine ⟨_, _, .silent silent, .quiet _, represents.still sound advances
      (MemoryStore.state_of_silent silent step) (advances.effect.dispatched ?_)⟩
    rintro index rfl
    exact silent
  cases action with
  | write index => exact represents.write inserted step
  | loadSession cookie now later =>
    have dispatched := advances.effect.dispatched (by simp)
    rcases sound.loadSession_cases step with ⟨malformed, rfl, rfl⟩ | ⟨id, bound, _, outcome⟩
    · exact ⟨_, _, .malformed malformed, .quiet _, represents⟩
    rcases outcome with ⟨absent, rfl, rfl⟩ | ⟨record, found, before, ⟨expired, rfl, rfl⟩ |
      ⟨valid, rfl, rfl⟩⟩
    · exact ⟨_, _, .miss bound, represents.miss fun record found => Or.inl (absent record found),
        represents⟩
    · refine ⟨_, _, .miss bound, represents.miss fun other same => Or.inr ?_,
        represents.still sound advances rfl dispatched⟩
      obtain rfl := Option.some.inj (found.symm.trans same)
      exact expired
    · have same := Session.wire_fetched store.process.heap record
      have unexpired : ¬ ((record.fetched store.process.heap).wire
          (record.fetchedHeap store.process.heap)).Passed now later := by
        rw [same, Session.passed_wire, before, valid]
        simp
      refine ⟨_, _, .hit bound (Function.update_self _ _ _) unexpired, .read ?_,
        represents.still sound advances rfl dispatched⟩
      rw [represents.present, found]
      exact congrArg some same.symm
  | finish index =>
    have dispatched := advances.effect.dispatched (by simp)
    obtain ⟨_, _, _, _, _, _, rfl, _⟩ := MemoryStore.finish_cases step
    obtain ⟨save, guard, found, _, _, ⟨destroyed, rfl⟩ | ⟨_, rfl⟩⟩ := sound.finish_cases step
    · refine ⟨_, _, .takeBack (Function.update_self _ _ _) found destroyed, .remove _ _,
        represents.remove sound advances (fun id own => ?_) (fun id other => ?_) dispatched⟩
      · exact (MemoryState.lookup_remove _ _ _).trans (if_pos own)
      · exact (MemoryState.lookup_remove _ _ _).trans (if_neg other)
    · exact ⟨_, _, .finish (Function.update_self _ _ _), .quiet _,
        represents.still sound advances rfl dispatched⟩
  | removeRecord index =>
    have dispatched := advances.effect.dispatched (by simp)
    obtain ⟨deletion, target, found, granted, _, rfl, rfl⟩ := MemoryStore.removeRecord_cases step
    refine ⟨_, _, .removeRecord found granted, .remove _ _,
      represents.remove sound advances (fun id own => ?_) (fun id other => ?_) dispatched⟩
    · exact (MemoryState.lookup_remove _ _ _).trans (if_pos own)
    · exact (MemoryState.lookup_remove _ _ _).trans (if_neg other)
  | clearStore =>
    have dispatched := advances.effect.dispatched (by simp)
    obtain ⟨_, rfl, rfl⟩ := MemoryStore.clearStore_cases step
    exact ⟨_, _, .clear, .remove _ _, represents.remove sound advances (fun _ _ => rfl)
      (fun id other => absurd (Set.mem_univ id) other) dispatched⟩
  | removeChunk index =>
    have dispatched := advances.effect.dispatched (by simp)
    obtain ⟨cleanup, _, found, _, rfl, outcome⟩ := MemoryStore.removeChunk_cases step
    have state : after.state = (store.state.removeExpired cleanup.now
        (cleanup.ids.take CLEANUP_BATCH_SIZE)).2 := by
      rcases outcome with ⟨_, _, rfl⟩ | ⟨_, _, rfl⟩ <;> rfl
    refine ⟨_, _, .clean found, .remove _ _,
      represents.remove sound advances (fun id past => ?_) (fun id other => ?_) dispatched⟩
    · rw [state, MemoryState.lookup_removeExpired_eq]
      exact if_pos past
    · rw [state, MemoryState.lookup_removeExpired_eq]
      exact if_neg other
  | _ => exact silently trivial

/-- A `MemoryStore` refines a table of records. -/
theorem MemoryStore.refines (idOf : Cookie → Option Id) :
    (memoryStore idOf).Refines Records.specification MemoryStore.Represents
      (MemoryStore.Shows idOf) where
  initial initially := by
    obtain rfl : _ = MemoryStore.initial := initially
    exact ⟨fun _ => rfl, fun _ => ⟨False.elim, nofun⟩⟩
  step reachable represents step := by
    obtain ⟨_, _, rfl, run⟩ := reachable
    obtain ⟨event, later, shown, takes, still⟩ :=
      MemoryStore.Represents.step represents (Inserted.of_run run) step
    exact ⟨event, later, shown, takes, still⟩

/-! ### The results -/

/-- Every run of a `MemoryStore` is a history of one table of records, whatever calls overlap or are
cancelled. Each step is one event of the table at most: a call of `store_session` is the insertion,
the update or the rotation of what it captured, at its write; a removal takes away exactly the
destroyed id, the granted target, all records, or the expired ones of a chunk; a load answers with
the unexpired record of its id or finds none. And the records at the end are those of the table. -/
theorem memory_runs_are_table_histories {idOf : Cookie → Option Id} {start store : MemoryStore}
    {trace : List (MemoryAction × Reply)} (initially : (memoryStore idOf).init start)
    (run : (memoryStore idOf).Run start trace store) :
    ∃ events records, (memoryStore idOf).Shown (MemoryStore.Shows idOf) start trace events store ∧
      Records.specification.Run events records ∧ store.Represents records :=
  (MemoryStore.refines idOf).run initially run

/-- A session that was rotated while another call was cancelled. -/
theorem memory_runs_are_table_histories_of_rotation : ∃ (store : MemoryStore) (session : Session)
    (trace : List (MemoryAction × Reply)) (events : List (RecordEvent Id SessionSnapshot))
    (records : Records Id SessionSnapshot), store.process.handles 0 = some session ∧
      (memoryStore some).Shown (MemoryStore.Shows some) .initial trace events store ∧
        Records.specification.Run events records ∧ records.present "first" = none ∧
          (records.present "second").isSome := by
  obtain ⟨store, trace, session, run, held, old, new⟩ : ∃ (store : MemoryStore)
      (trace : List (MemoryAction × Reply)) (session : Session),
      (memoryStore some).Run .initial trace store ∧ store.process.handles 0 = some session ∧
        store.state.records.lookup "first" = none ∧
          (store.state.records.lookup "second").isSome :=
    ⟨_, _, _, Machine.run_replay _ _ ([.handle (.new "first"), .handle (.clone 0),
      .handle (.clone 0)] ++ MemoryAction.store 1 0 ++ [.storeSession 2, .capture 1,
        .cancelStore 1, .handle (.regenerate 0 "second"), .handle (.clone 0)] ++
          MemoryAction.store 3 2) (by decide), rfl, by decide, by decide⟩
  obtain ⟨events, records, shown, abstractRun, represents⟩ := memory_runs_are_table_histories rfl run
  refine ⟨store, session, trace, events, records, held, shown, abstractRun, ?_, ?_⟩
  · rw [represents.present, old]
    rfl
  · rw [represents.present, Option.isSome_map]
    exact new

/-- A load reads what was written last. In every run, a load of an id hands out a session with
exactly what the latest write under that id wrote, if no removal of it came since and it has not
expired; or it misses, and then nothing was ever written under the id, or it was removed and not
written since, or what was written last has expired. There is no other answer. -/
theorem memory_loads_read_the_last_write {idOf : Cookie → Option Id} {start store after : MemoryStore}
    {trace : List (MemoryAction × Reply)} {cookie : Cookie} {now later : DateTime} {reply : Reply}
    {id : Id} (initially : (memoryStore idOf).init start)
    (run : (memoryStore idOf).Run start trace store) (bound : idOf cookie = some id)
    (step : (memoryStore idOf).step store (.loadSession cookie now later) = some (reply, after)) :
    ∃ events, (memoryStore idOf).Shown (MemoryStore.Shows idOf) start trace events store ∧
      ((∃ number session, reply = .handle number ∧ after.process.handles number = some session ∧
          ¬ (session.wire after.process.heap).Passed now later ∧
            RecordEvent.Current id (session.wire after.process.heap) events) ∨
        reply = .missing ∧ (RecordEvent.Vacant id events ∨
          ∃ snapshot : SessionSnapshot, snapshot.Passed now later ∧
            RecordEvent.Current id snapshot events)) := by
  obtain ⟨events, event, records, last, shown, shows, abstractRun, takes⟩ :=
    (MemoryStore.refines idOf).event initially run step
  refine ⟨events, shown, ?_⟩
  cases shows with
  | silent wrong => exact wrong.elim
  | malformed wrong => cases wrong.symm.trans bound
  | @hit _ _ _ number _ other session found handle unexpired =>
    obtain rfl := Option.some.inj (bound.symm.trans found)
    exact Or.inl ⟨number, session, rfl, handle, unexpired, Records.current_of_read abstractRun takes⟩
  | miss found =>
    obtain rfl := Option.some.inj (bound.symm.trans found)
    exact Or.inr ⟨rfl, Records.vacant_of_miss abstractRun takes⟩

/-- A session that was stored, edited and stored again is read as it was stored last. -/
theorem memory_loads_read_the_last_write_of_update : ∃ (store after : MemoryStore) (session : Session)
    (trace : List (MemoryAction × Reply)) (events : List (RecordEvent Id SessionSnapshot)),
      (memoryStore some).Shown (MemoryStore.Shows some) .initial trace events store ∧
        after.process.handles 4 = some session ∧
          (session.wire after.process.heap).data.lookup "key" = some "2" ∧
            RecordEvent.Current "first" (session.wire after.process.heap) events := by
  obtain ⟨store, after, trace, session, run, step, held, value⟩ : ∃ (store after : MemoryStore)
      (trace : List (MemoryAction × Reply)) (session : Session),
      (memoryStore some).Run .initial trace store ∧
        (memoryStore some).step store (.loadSession "first" 0 0) = some (.handle 4, after) ∧
          after.process.handles 4 = some session ∧
            (session.wire after.process.heap).data.lookup "key" = some "2" :=
    ⟨_, _, _, _, Machine.run_replay _ _ ([.handle (.new "first"), .handle (.insertRaw 0 "key" "1"),
      .handle (.clone 0), .handle (.clone 0)] ++ MemoryAction.store 0 0 ++
        [.handle (.insertRaw 1 "key" "2"), .handle (.clone 1)] ++ MemoryAction.store 1 1) (by decide),
      rfl, rfl, by decide⟩
  obtain ⟨events, shown, ⟨number, other, same, found, _, current⟩ | ⟨wrong, _⟩⟩ :=
    memory_loads_read_the_last_write rfl run rfl step
  · cases same
    obtain rfl := Option.some.inj (held.symm.trans found)
    exact ⟨store, after, session, trace, events, shown, held, value, current⟩
  · cases wrong

end Saysion
