/-
This file follows a `store_session` call of a `MemoryStore` that nothing
interferes with. The record map of the store is read through the heap, so what
a call leaves behind depends on the cells that its records are in: every end of
a save leaves their values alone.
-/

import Saysion.LoneCalls

namespace Saysion

namespace MemoryStore

/-- What the store holds, as far as a caller may know. -/
def records (store : MemoryStore) : RecordMap := fun id =>
  (store.state.records.lookup id).map (Session.wire store.process.heap)

/-- The cells of the records are allocated. -/
def Allocated (store : MemoryStore) : Prop := ∀ id record,
  store.state.records.lookup id = some record → record.data < store.process.heap.nextCell

/-- The schedule in which nothing runs but one call. -/
def onlyStore (index : Nat) (store : MemoryStore) : Option MemoryAction :=
  (store.calls index).map fun
    | .attempted => .capture index
    | .captured _ => .beginBackendWrite index
    | .guarded _ => .lock index
    | .locked _ => .write index
    | .inserted => .finish index
    | .finished => .complete index
    | .failed _ => .fail index

/-- `store_session` with nothing between its steps. -/
def storeAlone (idOf : Cookie → Option Id) (index : Nat) (store : MemoryStore) :
    Option (Reply × MemoryStore) := do
  let (reply, started) ← (memoryStore idOf).step store (.storeSession index)
  match reply with
  | .save save => (memoryStore idOf).conclude (onlyStore save) 7 started
  | _ => return (reply, started)

/-- A lone call is one of the runs of the store. -/
theorem run_storeAlone {idOf : Cookie → Option Id} {index : Nat} {store last : MemoryStore}
    {reply : Reply} (answered : store.storeAlone idOf index = some (reply, last)) :
    ∃ trace, (memoryStore idOf).Run store trace last := by
  simp only [storeAlone, Option.bind_eq_bind, Option.bind_eq_some_iff] at answered
  obtain ⟨⟨first, started⟩, step, answered⟩ := answered
  split at answered
  · obtain ⟨trace, run⟩ := Machine.run_of_conclude answered
    exact ⟨_, (Machine.Run.refl.tail step).trans run⟩
  · cases answered
    exact ⟨_, Machine.Run.refl.tail step⟩

/-- What a lone call leaves behind, for the session that it stores. -/
def storeOutcome (idOf : Cookie → Option Id) (index : Nat) (session : Session)
    (store : MemoryStore) : Option Outcome :=
  (store.storeAlone idOf index).map fun (reply, last) =>
    session.observe last.process.heap last.records reply

variable {idOf : Cookie → Option Id} {store : MemoryStore} {index : Nat} {session : Session}
  {origin : Option Id} {error : Error}

/-! ### The checks under the lock -/

theorem mem_records (store : MemoryStore) (id : Id) :
    id ∈ store.state.records ↔ store.records id ≠ none := by
  rw [records, ← Finmap.lookup_isSome]
  cases store.state.records.lookup id <;> simp

/-- The two checks of the records are what a save may find. -/
theorem mayStore_iff (granted : session.persistenceOrigin store.process.heap = .ok origin) :
    session.MayStore store.process.heap store.records ↔
      ¬ origin.any (· ∉ store.state.records) = true ∧
        ¬ (origin ≠ some session.id ∧ session.id ∈ store.state.records) := by
  rw [mem_records]
  cases origin with
  | none =>
    rw [Session.mayStore_create granted]
    simp
  | some source =>
    have present : (Option.any (fun id => decide (id ∉ store.state.records)) (some source) = true) ↔
        store.records source = none := by
      rw [Option.any_some, decide_eq_true_iff, mem_records, not_not]
    rw [present]
    by_cases own : source = session.id
    · subst own
      rw [Session.mayStore_update granted]
      simp
    · rw [Session.mayStore_rotate granted own]
      simp [own]

/-- The marker is where it was, so the checks are about the records alone. -/
theorem recheck_opened (offers : store.process.Offers index session)
    (granted : session.persistenceOrigin store.process.heap = .ok origin) :
    (session.capturedSave store.process.heap origin).recheck
        (session.opened store.process.heap origin) store.state =
      if session.MayStore store.process.heap store.records then .ok origin
      else .error .sessionConflict := by
  have alive : session.isDestroyed (session.opened store.process.heap origin) = false :=
    (Session.opened_isDestroyed store.process.heap session origin offers.family).trans offers.alive
  have again : (if (session.capturedSave store.process.heap origin).origin = none then .ok none
      else (session.capturedSave store.process.heap origin).source.persistenceOrigin
        (session.opened store.process.heap origin)) =
          (.ok origin : Except Error (Option Id)) := by
    cases origin with
    | none => rfl
    | some source =>
      have saved : (session.capturedSave store.process.heap (some source)).origin ≠ none := nofun
      rw [if_neg saved]
      exact Session.persistenceOrigin_opened granted offers.family
  have source : (session.capturedSave store.process.heap origin).source = session := rfl
  unfold Save.recheck
  rw [again]
  dsimp only
  rw [source, if_neg fun destroyed => Bool.false_ne_true (alive.symm.trans destroyed)]
  by_cases may : session.MayStore store.process.heap store.records
  · obtain ⟨present, vacant⟩ := (mayStore_iff granted).mp may
    rw [if_pos may, if_neg present]
    exact if_neg vacant
  · rw [if_neg may]
    split
    · rfl
    · rename_i present
      refine if_pos ?_
      by_contra vacant
      exact may ((mayStore_iff granted).mpr ⟨present, vacant⟩)

/-- What a save takes out before it inserts. -/
def taken (store : MemoryStore) (session : Session) (origin : Option Id) : MemoryState :=
  match origin.filter (· ≠ session.id) with
  | none => store.state
  | some oldId => (store.state.remove oldId).2

theorem taken_of_kept (store : MemoryStore) (kept : origin.filter (· ≠ session.id) = none) :
    store.taken session origin = store.state := by
  unfold taken
  rw [kept]

theorem taken_of_rotated (store : MemoryStore) {oldId : Id}
    (rotated : origin.filter (· ≠ session.id) = some oldId) :
    store.taken session origin = (store.state.remove oldId).2 := by
  unfold taken
  rw [rotated]

theorem takeSource_opened (offers : store.process.Offers index session)
    (granted : session.persistenceOrigin store.process.heap = .ok origin) :
    (session.capturedSave store.process.heap origin).takeSource
        (session.opened store.process.heap origin) store.state =
      if session.MayStore store.process.heap store.records then
        .ok (origin, store.taken session origin)
      else .error .sessionConflict := by
  unfold Save.takeSource
  rw [recheck_opened offers granted]
  by_cases may : session.MayStore store.process.heap store.records
  · rw [if_pos may, if_pos may]
    dsimp only
    split
    · rename_i kept
      have kept : origin.filter (· ≠ session.id) = none := kept
      rw [store.taken_of_kept kept]
    · rename_i oldId rotated
      have rotated : origin.filter (· ≠ session.id) = some oldId := rotated
      rw [store.taken_of_rotated rotated]
      obtain ⟨rfl, different⟩ := source_of_filter rotated
      have present := (Session.mayStore_rotate granted different).mp may
      split
      · rename_i removed
        have absent : store.state.records.lookup oldId = none := by
          rw [← MemoryState.remove_fst, removed]
        exact absurd (congrArg (Option.map (Session.wire store.process.heap)) absent) present.1
      · rename_i removed
        rw [removed]
  · rw [if_neg may, if_neg may]

/-! ### The records afterwards -/

/-- A save takes out what its family has stored. -/
theorem lookup_taken (store : MemoryStore) (session : Session) (origin : Option Id) {key : Id}
    (other : key ≠ session.id) :
    (store.taken session origin).records.lookup key =
      if origin = some key then none else store.state.records.lookup key := by
  unfold taken
  cases rotated : origin.filter (· ≠ session.id) with
  | none =>
    have kept : origin ≠ some key := by
      rintro rfl
      simp [other] at rotated
    exact (if_neg kept).symm
  | some oldId =>
    obtain ⟨rfl, _⟩ := source_of_filter rotated
    dsimp only
    rw [MemoryState.lookup_remove]
    by_cases same : key = oldId
    · rw [if_pos same, if_pos (congrArg some same.symm)]
    · rw [if_neg same, if_neg fun wrong => same (Option.some.inj wrong).symm]

/-- A heap in which every cell of a record has its values. -/
theorem wire_of_values {before after : Heap} {record : Session}
    (same : (after.cells record.data).values = (before.cells record.data).values) :
    record.wire after = record.wire before :=
  congrArg (SessionSnapshot.mk record.id record.expiry) same

/-- A save that failed leaves the record map as it was. -/
theorem records_of_values {last : MemoryStore} (allocated : store.Allocated)
    (state : last.state = store.state)
    (values : ∀ ref < store.process.heap.nextCell,
      (last.process.heap.cells ref).values = (store.process.heap.cells ref).values) :
    last.records = store.records := by
  funext key
  unfold records
  rw [state]
  cases found : store.state.records.lookup key with
  | none => rfl
  | some record => exact congrArg some (wire_of_values (values _ (allocated key record found)))

/-- A save that went through leaves the record map with its own record in it. -/
theorem records_of_write {last : MemoryStore} {snapshot : Session} (allocated : store.Allocated)
    (granted : session.persistenceOrigin store.process.heap = .ok origin)
    (state : last.state = (store.taken session origin).insert session.id snapshot)
    (wire : snapshot.wire last.process.heap = session.wire store.process.heap)
    (values : ∀ ref < store.process.heap.nextCell,
      (last.process.heap.cells ref).values = (store.process.heap.cells ref).values) :
    last.records = session.stored store.process.heap store.records := by
  have marker := (Session.persistenceOrigin_ok.mp granted).1
  funext key
  unfold records Session.stored
  rw [state, MemoryState.lookup_insert]
  by_cases own : key = session.id
  · rw [if_pos own, own, Function.update_self, Option.map_some, wire]
  · rw [if_neg own, Function.update_of_ne own, lookup_taken store session origin own, marker]
    have kept : (store.state.records.lookup key).map (Session.wire last.process.heap) =
        (store.state.records.lookup key).map (Session.wire store.process.heap) := by
      cases found : store.state.records.lookup key with
      | none => rfl
      | some record => exact congrArg some (wire_of_values (values _ (allocated key record found)))
    cases origin with
    | none => exact kept
    | some source =>
      dsimp only
      by_cases same : source = key
      · rw [if_pos (congrArg some same), same, Function.update_self]
        rfl
      · rw [if_neg fun wrong => same (Option.some.inj wrong), kept]
        show _ = Function.update store.records source none key
        rw [Function.update_of_ne (Ne.symm same)]
        rfl

/-! ### The call -/

theorem storeOutcome_refused (offers : store.process.Offers index session)
    (refused : session.persistenceOrigin store.process.heap = .error error) :
    store.storeOutcome idOf index session =
      some (session.refused store.process.heap store.records) := by
  have answered : (memoryStore idOf).step store (.storeSession index) =
      some (.error .sessionConflict, { store with process := store.process.dropHandle index }) := by
    show store.storeSession index = _
    unfold storeSession
    rw [offers.attempt_refused refused]
    rfl
  unfold storeOutcome storeAlone
  rw [answered]
  rfl

/-- A call that is granted gets its guard and the lock, with its checks still to come. -/
theorem conclude_opened (idOf : Cookie → Option Id) (offers : store.process.Offers index session)
    (granted : session.persistenceOrigin store.process.heap = .ok origin)
    (free : store.writer = none) :
    ∃ started opened : MemoryStore, (memoryStore idOf).step store (.storeSession index) =
        some (.save store.process.nextSave, started) ∧
      opened.process = store.process.guarded index session origin false ∧
      opened.calls store.process.nextSave =
        some (.locked (session.snapshot (session.claimed store.process.heap origin)).1) ∧
      opened.state = store.state ∧
      ∀ fuel reply last,
        (memoryStore idOf).conclude (onlyStore store.process.nextSave) fuel opened =
            some (reply, last) →
          (memoryStore idOf).conclude (onlyStore store.process.nextSave) (fuel + 3) started =
            some (reply, last) := by
  let number := store.process.nextSave
  let snapshot := (session.snapshot (session.claimed store.process.heap origin)).1
  let attempted := store.process.attempted index session origin
  let started := { store.setCall number (some .attempted) with process := attempted }
  have starting : store.storeSession index = some (.save number, started) := by
    unfold storeSession
    rw [offers.attempt_granted granted]
    rfl
  have waiting : started.calls number = some .attempted := Function.update_self _ _ _
  have found : attempted.saves number = some { source := session, origin } :=
    Function.update_self _ _ _
  let copied := { attempted.setSave number (some (session.capturedSave store.process.heap origin)) with
    heap := (session.persistenceSnapshot (session.claimed store.process.heap origin)).2 }
  let ready := { started.setCall number (some (.captured snapshot)) with
    process := copied
    captured := Function.update store.captured number (some (session.wire attempted.heap)) }
  have capturing : started.capture number = some (.done, ready) := by
    unfold capture
    rw [waiting]
    show (attempted.saves number).bind _ = _
    rw [found, Option.bind_some]
    show (attempted.capturePersistence number).bind _ = _
    rw [offers.capture_attempted origin]
    rfl
  have waited : ready.calls number = some (.captured snapshot) := Function.update_self _ _ _
  let process := store.process.guarded index session origin false
  let guarded := { ready.setCall number (some (.guarded snapshot)) with process }
  have acquiring : copied.acquire number none false = some (.ok (), process) :=
    offers.acquire_captured granted false
  have beginning : ready.beginBackendWrite number = some (.done, guarded) := by
    unfold beginBackendWrite
    rw [waited]
    show (copied.acquire number none false).bind _ = _
    rw [acquiring]
    rfl
  have holding : guarded.calls number = some (.guarded snapshot) := Function.update_self _ _ _
  let opened := { guarded.setCall number (some (.locked snapshot)) with writer := some number }
  have locking : guarded.lock number = some (.done, opened) := by
    unfold lock
    rw [holding]
    exact if_pos free
  have first : onlyStore number started = some (.capture number) := by rw [onlyStore, waiting]; rfl
  have second : onlyStore number ready = some (.beginBackendWrite number) := by
    rw [onlyStore, waited]
    rfl
  have third : onlyStore number guarded = some (.lock number) := by
    rw [onlyStore, holding]
    rfl
  have locked : opened.calls number = some (.locked snapshot) := Function.update_self _ _ _
  exact ⟨started, opened, starting, rfl, locked, rfl, fun fuel reply last rest =>
    Machine.conclude_of_step first capturing (Machine.conclude_of_step second beginning
      (Machine.conclude_of_step third locking rest))⟩

/-- A save that fails its checks is dropped with its guard. -/
theorem conclude_rejected {opened : MemoryStore} {snapshot : Session}
    (offers : store.process.Offers index session)
    (granted : session.persistenceOrigin store.process.heap = .ok origin)
    (process : opened.process = store.process.guarded index session origin false)
    (state : opened.state = store.state)
    (locked : opened.calls store.process.nextSave = some (.locked snapshot))
    (may : ¬ session.MayStore store.process.heap store.records) :
    ∃ last : MemoryStore, (memoryStore idOf).conclude (onlyStore store.process.nextSave) 4 opened =
        some (.error .sessionConflict, last) ∧
      last.state = store.state ∧
        last.process.heap = (Ending.failed .sessionConflict).settle
          (session.opened store.process.heap origin) session
          ⟨session.data, (session.sessionData store.process.heap).revision⟩
          (session.writeGuard origin false) := by
  have found : opened.process.saves store.process.nextSave =
      some (session.capturedSave store.process.heap origin) := by
    rw [process]
    exact Function.update_self _ _ _
  have guarded : opened.process.guards store.process.nextSave =
      some (session.writeGuard origin false) := by
    rw [process]
    exact Function.update_self _ _ _
  have heap : opened.process.heap = session.opened store.process.heap origin :=
    congrArg Process.heap process
  let failed := { opened.setCall store.process.nextSave (some (.failed .sessionConflict)) with
    writer := none }
  have writing : opened.write store.process.nextSave = some (.done, failed) := by
    unfold write
    rw [locked]
    show (opened.process.saves _).bind _ = _
    rw [found, Option.bind_some, heap, state, takeSource_opened offers granted, if_neg may]
    rfl
  have waiting : failed.calls store.process.nextSave = some (.failed .sessionConflict) :=
    Function.update_self _ _ _
  let last := { failed.setCall store.process.nextSave none with
    process := opened.process.abandon store.process.nextSave }
  have failing : failed.fail store.process.nextSave = some (.error .sessionConflict, last) := by
    unfold fail
    rw [waiting]
    rfl
  have done : last.calls store.process.nextSave = none := Function.update_self _ _ _
  have first : onlyStore store.process.nextSave opened = some (.write store.process.nextSave) := by
    rw [onlyStore, locked]
    rfl
  have second : onlyStore store.process.nextSave failed = some (.fail store.process.nextSave) := by
    rw [onlyStore, waiting]
    rfl
  have third : onlyStore store.process.nextSave last = none := by
    rw [onlyStore, done]
    rfl
  refine ⟨last, Machine.conclude_of_step first writing
    (Machine.conclude_of_last 1 second failing third), state, ?_⟩
  rw [← heap]
  exact Process.abandon_saved found rfl guarded

/-- A save that passes its checks inserts its record; only an update is no new record. -/
theorem write_inserted {opened : MemoryStore} {snapshot : Session}
    (offers : store.process.Offers index session)
    (granted : session.persistenceOrigin store.process.heap = .ok origin)
    (process : opened.process = store.process.guarded index session origin false)
    (state : opened.state = store.state)
    (locked : opened.calls store.process.nextSave = some (.locked snapshot))
    (may : session.MayStore store.process.heap store.records) :
    ∃ inserted dispatched, opened.write store.process.nextSave = some (.done, inserted) ∧
      inserted.calls store.process.nextSave = some .inserted ∧
      inserted.state = (store.taken session origin).insert session.id snapshot ∧
      inserted.process.saves store.process.nextSave =
        some { session.capturedSave store.process.heap origin with dispatched } ∧
      inserted.process.guards store.process.nextSave = some (session.writeGuard origin false) ∧
      inserted.process.heap = snapshot.markPersisted (session.opened store.process.heap origin) := by
  let number := store.process.nextSave
  let save := session.capturedSave store.process.heap origin
  have found : opened.process.saves number = some save := by
    rw [process]
    exact Function.update_self _ _ _
  have guarded : opened.process.guards number = some (session.writeGuard origin false) := by
    rw [process]
    exact Function.update_self _ _ _
  have heap : opened.process.heap = session.opened store.process.heap origin :=
    congrArg Process.heap process
  have taking : save.takeSource opened.process.heap opened.state =
      .ok (origin, store.taken session origin) := by
    rw [heap, state, takeSource_opened offers granted, if_pos may]
  -- The store after the write, in a process that has started it.
  let inserted (started : Process) : MemoryStore :=
    { opened.setCall number (some .inserted) with
      process := { started with heap := snapshot.markPersisted started.heap }
      state := (store.taken session origin).insert session.id snapshot
      written := Function.update opened.written session.id (some number)
      births := save.births origin ++ opened.births }
  have writing : ∀ started, (if origin = some session.id then some opened.process
        else opened.process.dispatch number) = some started →
      opened.write number = some (.done, inserted started) := by
    intro started starting
    unfold write
    rw [locked]
    show (opened.process.saves number).bind _ = _
    rw [found, Option.bind_some, taking]
    show Option.map _ (if origin = some session.id then some opened.process
      else opened.process.dispatch number) = _
    rw [starting]
    rfl
  have waiting : ∀ started, (inserted started).calls number = some .inserted :=
    fun started => Function.update_self _ _ _
  by_cases own : origin = some session.id
  · exact ⟨inserted opened.process, false, writing _ (if_pos own), waiting _, rfl, found, guarded,
      congrArg snapshot.markPersisted heap⟩
  · let started := { opened.process.setSave number (some { save with dispatched := true }) with
      dispatched := session.id :: opened.process.dispatched }
    have starting : opened.process.dispatch number = some started := by
      simp only [Process.dispatch, found, Option.bind_eq_bind, Option.bind_some]
      rfl
    have kept : started.saves number = some { save with dispatched := true } :=
      Function.update_self _ _ _
    exact ⟨inserted started, true, writing _ ((if_neg own).trans starting), waiting _, rfl, kept,
      guarded, congrArg snapshot.markPersisted heap⟩

/-- A save that passes its checks goes through. -/
theorem conclude_inserted {opened : MemoryStore} {snapshot : Session}
    (offers : store.process.Offers index session)
    (granted : session.persistenceOrigin store.process.heap = .ok origin)
    (process : opened.process = store.process.guarded index session origin false)
    (state : opened.state = store.state)
    (locked : opened.calls store.process.nextSave = some (.locked snapshot))
    (alive : session.isDestroyed (snapshot.markPersisted
      (session.opened store.process.heap origin)) = false)
    (may : session.MayStore store.process.heap store.records) :
    ∃ last : MemoryStore, (memoryStore idOf).conclude (onlyStore store.process.nextSave) 4 opened =
        some (.cookie session.cookieValue, last) ∧
      last.state = (store.taken session origin).insert session.id snapshot ∧
        last.process.heap = Ending.written.settle
          (snapshot.markPersisted (session.opened store.process.heap origin)) session
          ⟨session.data, (session.sessionData store.process.heap).revision⟩
          (session.writeGuard origin false) := by
  let number := store.process.nextSave
  obtain ⟨inserted, dispatched, writing, waiting, changed, saved, guarded, heap⟩ :=
    write_inserted offers granted process state locked may
  let settled := inserted.process.setGuard number
    (some { session.writeGuard origin false with settled := true })
  let finished := { inserted.setCall number (some .finished) with
    process := settled
    writer := none }
  have finishes : inserted.process.finish number = some (.ok (), settled) := by
    have calm : (session.writeGuard origin false).isDestroyed inserted.process.heap = false := by
      rw [heap]
      exact alive
    unfold Process.finish
    show (inserted.process.guards number).bind _ = _
    rw [guarded, Option.bind_some]
    unfold WriteGuard.finish
    rw [if_neg (by simp [calm])]
    rfl
  have finishing : inserted.finish number = some (.done, finished) := by
    unfold finish
    rw [waiting]
    show (inserted.process.saves number).bind _ = _
    rw [saved, Option.bind_some]
    show (inserted.process.finish number).bind _ = _
    rw [finishes]
    rfl
  have kept : settled.guards number = some { session.writeGuard origin false with settled := true } :=
    Function.update_self _ _ _
  have done : finished.calls number = some .finished := Function.update_self _ _ _
  have still : settled.saves number =
      some { session.capturedSave store.process.heap origin with dispatched } := saved
  have completes := Process.complete_saved still rfl kept
  obtain ⟨last, completing, gone, same, settling⟩ : ∃ last : MemoryStore,
      finished.complete number = some (.cookie session.cookieValue, last) ∧
        last.calls number = none ∧ last.state = inserted.state ∧
          last.process.heap = Ending.written.settle inserted.process.heap session
            ⟨session.data, (session.sessionData store.process.heap).revision⟩
            (session.writeGuard origin false) := by
    refine ⟨{ finished.setCall number none with
      process := { (settled.setSave number none).setGuard number none with
        heap := Ending.written.settle inserted.process.heap session
          ⟨session.data, (session.sessionData store.process.heap).revision⟩
          (session.writeGuard origin false) }
      history := Function.update finished.history session.family
        (session.id :: finished.history session.family) }, ?_, Function.update_self _ _ _, rfl, rfl⟩
    unfold complete
    rw [done]
    show (settled.saves number).bind _ = _
    rw [still, Option.bind_some]
    show (settled.complete number).bind _ = _
    rw [completes]
    rfl
  have first : onlyStore number opened = some (.write number) := by
    rw [onlyStore, locked]
    rfl
  have second : onlyStore number inserted = some (.finish number) := by
    rw [onlyStore, waiting]
    rfl
  have third : onlyStore number finished = some (.complete number) := by
    rw [onlyStore, done]
    rfl
  have fourth : onlyStore number last = none := by
    rw [onlyStore, gone]
    rfl
  refine ⟨last, Machine.conclude_of_step first writing (Machine.conclude_of_step second finishing
    (Machine.conclude_of_last 0 third completing fourth)), same.trans changed, ?_⟩
  rw [settling, heap]

/-! ### The snapshot that becomes the record -/

/-- The snapshot is in a family of its own. -/
theorem families_markSnapshot (heap : Heap) (session : Session) (origin : Option Id)
    (old : session.family < heap.nextFamily) :
    ((session.snapshot (session.claimed heap origin)).1.markPersisted
        (session.opened heap origin)).families session.family =
      (session.opened heap origin).families session.family := by
  refine Heap.setFamily_of_ne _ _ _ ?_
  show session.family ≠ (session.claimed heap origin).nextFamily
  rw [Session.claimed_nextFamily]
  exact Nat.ne_of_lt old

/-- The snapshot holds what the session held at its capture. -/
theorem values_snapshot (heap : Heap) (session : Session) (origin : Option Id)
    (old : session.data < heap.nextCell) :
    ((session.opened heap origin).cells
        (session.snapshot (session.claimed heap origin)).1.data).values =
      (session.sessionData heap).values := by
  have cell : (session.snapshot (session.claimed heap origin)).1.data = heap.nextCell :=
    session.claimed_nextCell heap origin
  have other : heap.nextCell ≠ session.data := Ne.symm (Nat.ne_of_lt old)
  have copied : (session.snapshot (session.claimed heap origin)).2.cells heap.nextCell =
      .ofValues ((session.sessionData (session.claimed heap origin)).values) := by
    rw [← session.claimed_nextCell heap origin]
    exact Heap.allocCell_self _ _
  rw [cell]
  show (((session.snapshot (session.claimed heap origin)).2.setCell session.data _).cells
    heap.nextCell).values = _
  rw [Heap.setCell_of_ne _ _ _ other, copied, SessionData.values_ofValues]
  unfold Session.sessionData
  rw [Session.claimed_cells]

/-- A call that started and ran to its end has that answer. -/
theorem storeOutcome_of_conclude {started last : MemoryStore} {save : Nat} {reply : Reply}
    (starting : (memoryStore idOf).step store (.storeSession index) = some (.save save, started))
    (concluded : (memoryStore idOf).conclude (onlyStore save) 7 started = some (reply, last)) :
    store.storeOutcome idOf index session =
      some (session.observe last.process.heap last.records reply) := by
  have answered : store.storeAlone idOf index = some (reply, last) := by
    unfold storeAlone
    rw [starting]
    exact concluded
  unfold storeOutcome
  rw [answered]
  rfl

/-! ### The outcome -/

/-- A lone call of a `MemoryStore` is a conditional write of its records. -/
theorem storeOutcome_eq (idOf : Cookie → Option Id) (offers : store.process.Offers index session)
    (free : store.writer = none) (allocated : store.Allocated) :
    store.storeOutcome idOf index session =
      some (session.conditionalWrite store.process.heap store.records) := by
  cases granting : session.persistenceOrigin store.process.heap with
  | error error =>
    rw [storeOutcome_refused offers granting, Session.conditionalWrite_refused granting]
  | ok origin =>
    obtain ⟨started, opened, starting, process, locked, state, continues⟩ :=
      conclude_opened idOf offers granting free
    have values : ∀ ref < store.process.heap.nextCell,
        ((session.opened store.process.heap origin).cells ref).values =
          (store.process.heap.cells ref).values :=
      fun ref old => Session.opened_values store.process.heap session origin old
    have marker := Session.opened_persistedId store.process.heap session origin offers.family
    have captured := Session.opened_cells store.process.heap session origin offers.data
    by_cases may : session.MayStore store.process.heap store.records
    · have apart := families_markSnapshot store.process.heap session origin offers.family
      have alive : session.isDestroyed ((session.snapshot
          (session.claimed store.process.heap origin)).1.markPersisted
            (session.opened store.process.heap origin)) = false :=
        (congrArg Family.destroy apart).trans
          ((Session.opened_isDestroyed store.process.heap session origin offers.family).trans
            offers.alive)
      obtain ⟨last, concluded, kept, settled⟩ :=
        conclude_inserted offers granting process state locked alive may
      have same : last.records = session.stored store.process.heap store.records := by
        refine records_of_write allocated granting kept ?_ fun ref old => ?_
        · refine congrArg (SessionSnapshot.mk session.id session.expiry) ?_
          show (last.process.heap.cells _).values = _
          rw [settled]
          exact (Session.values_confirmed _ _ _ _ _).trans
            (values_snapshot store.process.heap session origin offers.data)
        · rw [settled]
          exact (Session.values_confirmed _ _ _ _ ref).trans (values ref old)
      rw [storeOutcome_of_conclude starting (continues _ _ _ concluded),
        Session.conditionalWrite_written may, settled, same]
      exact congrArg some (Session.observe_settle granting
        ((congrArg Family.persistedId apart).trans marker) captured .written _ false)
    · obtain ⟨last, concluded, kept, settled⟩ :=
        conclude_rejected offers granting process state locked may
      have same : last.records = store.records := by
        refine records_of_values allocated kept fun ref old => ?_
        rw [settled]
        exact (Session.values_dropped _ _ _ ref).trans (values ref old)
      rw [storeOutcome_of_conclude starting (continues _ _ _ concluded),
        Session.conditionalWrite_failed granting may, settled, same]
      exact congrArg some (Session.observe_settle granting marker captured
        (.failed .sessionConflict) _ false)

end MemoryStore

end Saysion
