/-
This file says once what each operation of a process does: an inversion lemma
for every operation that can be refused, and for every operation that it only
follows the earlier state, or preserves authority in the way
`Saysion/Authority.lean` covers. The invariants of later files, and every store,
argue from these lemmas and never unfold an operation again.
-/

import Saysion.Authority

namespace Saysion.Process

variable {process after : Process} {index : Nat} {reply : Reply}

/-! ### What a step did -/

theorem draw_eq_some {idOf : Cookie → Option Id} {cookie : Cookie} {id : Id}
    (drawn : process.draw idOf cookie = some id) : idOf cookie = some id ∧ id ∉ process.seen := by
  simpa [draw, Option.filter_eq_some_iff] using drawn

/-- The operations on a handle: a new family, a clone, a regeneration, an edit of the data cell or
of the handle's own fields, a destruction, and the end of a handle. -/
theorem handleStep_cases {idOf : Cookie → Option Id} {action : HandleAction}
    (step : process.handleStep idOf action = some (reply, after)) :
    (∃ cookie id, action = .new cookie ∧ process.draw idOf cookie = some id ∧
      reply = .handle process.nextHandle ∧
      after = (process.see id).addHandle (Session.new process.heap cookie id).1
        (Session.new process.heap cookie id).2) ∨
    (∃ index session, action = .clone index ∧ process.handles index = some session ∧
      reply = .handle process.nextHandle ∧ after = process.addHandle session.clone process.heap) ∨
    (∃ index cookie session id, action = .regenerate index cookie ∧
      process.handles index = some session ∧ process.draw idOf cookie = some id ∧
      reply = .done ∧
      after = (process.see id).setHandle index (session.regenerate process.heap cookie id)) ∨
    (∃ index session renewed cell, process.handles index = some session ∧
      session.Twin renewed ∧ reply = .done ∧
      after = { process.setHandle index renewed with
        heap := process.heap.setCell session.data cell }) ∨
    (∃ index session, action = .destroy index ∧ process.handles index = some session ∧
      reply = .done ∧ after = { process with heap := session.destroy process.heap }) ∨
    (∃ index session, action = .drop index ∧ process.handles index = some session ∧
      reply = .done ∧ after = process.dropHandle index) := by
  have kept : ∀ {index : Nat} {session : Session} {heap : Heap},
      process.handles index = some session →
        ({ process with heap } : Process) = { process.setHandle index session with heap } := by
    intro index session heap found
    rw [setHandle, ← found, Function.update_eq_self]
  have unedited : ∀ session : Session,
      process.heap.setCell session.data (process.heap.cells session.data) = process.heap :=
    fun session => congrArg (fun cells => { process.heap with cells }) (Function.update_eq_self _ _)
  cases action with
  | new cookie =>
    simp only [handleStep, Option.bind_eq_bind, Option.bind_eq_some_iff] at step
    obtain ⟨id, drawn, step⟩ := step
    cases step
    exact Or.inl ⟨cookie, id, rfl, drawn, rfl, rfl⟩
  | clone index =>
    simp only [handleStep, Option.bind_eq_bind, Option.bind_eq_some_iff] at step
    obtain ⟨session, found, step⟩ := step
    cases step
    exact Or.inr (Or.inl ⟨index, session, rfl, found, rfl, rfl⟩)
  | regenerate index cookie =>
    simp only [handleStep, Option.bind_eq_bind, Option.bind_eq_some_iff] at step
    obtain ⟨session, found, id, drawn, step⟩ := step
    cases step
    exact Or.inr (Or.inr (Or.inl ⟨index, cookie, session, id, rfl, found, drawn, rfl, rfl⟩))
  | insertRaw index key value =>
    simp only [handleStep, Option.bind_eq_bind, Option.bind_eq_some_iff] at step
    obtain ⟨session, found, step⟩ := step
    cases step
    exact Or.inr (Or.inr (Or.inr (Or.inl ⟨index, session, session, _, found, .refl _, rfl,
      kept found⟩)))
  | remove index key =>
    simp only [handleStep, Option.bind_eq_bind, Option.bind_eq_some_iff] at step
    obtain ⟨session, found, step⟩ := step
    cases step
    exact Or.inr (Or.inr (Or.inr (Or.inl ⟨index, session, session, _, found, .refl _, rfl,
      kept found⟩)))
  | setExpiry index expiry =>
    simp only [handleStep, Option.bind_eq_bind, Option.bind_eq_some_iff] at step
    obtain ⟨session, found, step⟩ := step
    cases step
    refine Or.inr (Or.inr (Or.inr (Or.inl ⟨index, session, _, process.heap.cells session.data, found,
      session.twin_setExpiry expiry, rfl, ?_⟩)))
    rw [unedited]
    rfl
  | setCookieValue index cookie =>
    simp only [handleStep, Option.bind_eq_bind, Option.bind_eq_some_iff] at step
    obtain ⟨session, found, step⟩ := step
    cases step
    refine Or.inr (Or.inr (Or.inr (Or.inl ⟨index, session, _, process.heap.cells session.data, found,
      session.twin_setCookieValue cookie, rfl, ?_⟩)))
    rw [unedited]
    rfl
  | resetDataChanged index =>
    simp only [handleStep, Option.bind_eq_bind, Option.bind_eq_some_iff] at step
    obtain ⟨session, found, step⟩ := step
    cases step
    exact Or.inr (Or.inr (Or.inr (Or.inl ⟨index, session, { session with metadataChanged := false },
      _, found, ⟨rfl, rfl, rfl, rfl, rfl⟩, rfl, rfl⟩)))
  | destroy index =>
    simp only [handleStep, Option.bind_eq_bind, Option.bind_eq_some_iff] at step
    obtain ⟨session, found, step⟩ := step
    cases step
    exact Or.inr (Or.inr (Or.inr (Or.inr (Or.inl ⟨index, session, rfl, found, rfl, rfl⟩))))
  | drop index =>
    simp only [handleStep, Option.bind_eq_bind, Option.bind_eq_some_iff] at step
    obtain ⟨session, found, step⟩ := step
    cases step
    exact Or.inr (Or.inr (Or.inr (Or.inr (Or.inr ⟨index, session, rfl, found, rfl, rfl⟩))))

/-- The operations on a handle leave every call alone. -/
theorem handleStep_eq {idOf : Cookie → Option Id} {action : HandleAction}
    (step : process.handleStep idOf action = some (reply, after)) :
    ∃ heap handles nextHandle seen, after = { process with heap, handles, nextHandle, seen } := by
  rcases handleStep_cases step with
    ⟨_, _, _, _, _, rfl⟩ | ⟨_, _, _, _, _, rfl⟩ | ⟨_, _, _, _, _, _, _, _, rfl⟩ |
    ⟨_, _, _, _, _, _, _, rfl⟩ | ⟨_, _, _, _, _, rfl⟩ | ⟨_, _, _, _, _, rfl⟩ <;>
    exact ⟨_, _, _, _, rfl⟩

theorem handleStep_drop {idOf : Cookie → Option Id} {session : Session}
    (found : process.handles index = some session) :
    process.handleStep idOf (.drop index) = some (.done, process.dropHandle index) := by
  simp [handleStep, found]

theorem attempt_cases (step : process.attempt index = some (reply, after)) :
    ∃ session, process.handles index = some session ∧
      ((∃ error, session.persistenceAttempt process.heap = .error error ∧
          reply = .error error ∧ after = process.dropHandle index) ∨
        ∃ origin heap, session.persistenceAttempt process.heap = .ok (origin, heap) ∧
          reply = .save process.nextSave ∧
          after = { (process.dropHandle index).setSave process.nextSave
              (some { source := session, origin }) with
            heap, nextSave := process.nextSave + 1 }) := by
  simp only [attempt, Option.bind_eq_bind, Option.bind_eq_some_iff] at step
  obtain ⟨session, found, step⟩ := step
  refine ⟨session, found, ?_⟩
  split at step
  · rename_i error refused
    cases step
    exact Or.inl ⟨error, refused, rfl, rfl⟩
  · rename_i origin heap granted
    cases step
    exact Or.inr ⟨origin, heap, granted, rfl, rfl⟩

theorem captureImmutable_cases (step : process.captureImmutable index = some after) :
    ∃ save, process.saves index = some save ∧ save.revision = none ∧
      after = { process.setSave index
          (some { save with
            snapshot := some (save.source.wire process.heap)
            revision := some (save.source.capture process.heap).1 }) with
        heap := (save.source.capture process.heap).2 } := by
  simp only [captureImmutable, Option.bind_eq_bind, Option.bind_eq_some_iff] at step
  obtain ⟨save, found, step⟩ := step
  split at step
  · rename_i uncaptured
    cases step
    exact ⟨save, found, uncaptured, rfl⟩
  · cases step

theorem capturePersistence_cases {snapshot : Session}
    (step : process.capturePersistence index = some (snapshot, after)) :
    ∃ save, process.saves index = some save ∧ save.revision = none ∧
      snapshot = (save.source.snapshot process.heap).1 ∧
      after = { process.setSave index
          (some { save with
            snapshot := some (save.source.wire process.heap)
            revision := some (save.source.capture (save.source.snapshot process.heap).2).1 }) with
        heap := (save.source.persistenceSnapshot process.heap).2 } := by
  simp only [capturePersistence, Option.bind_eq_bind, Option.bind_eq_some_iff] at step
  obtain ⟨save, found, step⟩ := step
  split at step
  · rename_i uncaptured
    cases step
    exact ⟨save, found, uncaptured, rfl, rfl⟩
  · cases step

theorem acquire_cases {receipt : Option Nat} {canOutliveFuture : Bool} {result : Except Error Unit}
    (step : process.acquire index receipt canOutliveFuture = some (result, after)) :
    ∃ save, process.saves index = some save ∧ process.guards index = none ∧
      (save.source.shared process.heap).locked = false ∧
      ((∃ error heap, save.source.beginGuardedWrite process.heap save.origin receipt
            canOutliveFuture = (.error error, heap) ∧
          result = .error error ∧ after = { process with heap }) ∨
        ∃ guard heap, save.source.beginGuardedWrite process.heap save.origin receipt
            canOutliveFuture = (.ok guard, heap) ∧
          result = .ok () ∧ after = { process.setGuard index (some guard) with heap }) := by
  simp only [acquire, Option.bind_eq_bind, Option.bind_eq_some_iff] at step
  obtain ⟨save, found, step⟩ := step
  split at step
  · rename_i free
    refine ⟨save, found, free.1, free.2, ?_⟩
    split at step
    · rename_i error heap refused
      cases step
      exact Or.inl ⟨error, heap, refused, rfl, rfl⟩
    · rename_i guard heap granted
      cases step
      exact Or.inr ⟨guard, heap, granted, rfl, rfl⟩
  · cases step

theorem dispatch_cases (step : process.dispatch index = some after) :
    ∃ save, process.saves index = some save ∧
      after = { process.setSave index (some { save with dispatched := true }) with
        dispatched := save.source.id :: process.dispatched } := by
  simp only [dispatch, Option.bind_eq_bind, Option.bind_eq_some_iff] at step
  obtain ⟨save, found, step⟩ := step
  cases step
  exact ⟨save, found, rfl⟩

theorem finish_cases {result : Except Error Unit}
    (step : process.finish index = some (result, after)) :
    ∃ guard, process.guards index = some guard ∧
      result = (if guard.isDestroyed process.heap then .error .sessionConflict else .ok ()) ∧
      after = process.setGuard index (some { guard with settled := true }) := by
  simp only [finish, Option.bind_eq_bind, Option.bind_eq_some_iff] at step
  obtain ⟨guard, found, step⟩ := step
  cases step
  exact ⟨guard, found, rfl, rfl⟩

theorem requireCleanup_cases (step : process.requireCleanup index = some after) :
    ∃ guard, process.guards index = some guard ∧
      after = process.setGuard index (some { guard with settled := false }) := by
  simp only [requireCleanup, Option.bind_eq_bind, Option.bind_eq_some_iff] at step
  obtain ⟨guard, found, step⟩ := step
  cases step
  exact ⟨guard, found, rfl⟩

theorem confirmRemoved_cases (step : process.confirmRemoved index = some after) :
    ∃ guard, process.guards index = some guard ∧
      after = process.setGuard index (some { guard with settled := true }) := by
  simp only [confirmRemoved, Option.bind_eq_bind, Option.bind_eq_some_iff] at step
  obtain ⟨guard, found, step⟩ := step
  cases step
  exact ⟨guard, found, rfl⟩

theorem acknowledge_cases {cookie : Option Cookie}
    (step : process.acknowledge index = some (cookie, after)) :
    ∃ save revision, process.saves index = some save ∧ save.revision = some revision ∧
      cookie = save.source.cookieValue ∧
      after = { process.setSave index none with
        heap := revision.acknowledge (save.source.markPersisted process.heap) } := by
  simp only [acknowledge, Option.bind_eq_bind, Option.bind_eq_some_iff] at step
  obtain ⟨save, found, revision, captured, step⟩ := step
  cases step
  exact ⟨save, revision, found, captured, rfl, rfl⟩

theorem complete_cases {cookie : Option Cookie}
    (step : process.complete index = some (cookie, after)) :
    ∃ middle, process.acknowledge index = some (cookie, middle) ∧
      after = middle.dropGuard index := by
  simp only [complete, Option.bind_eq_bind, Option.bind_eq_some_iff] at step
  obtain ⟨⟨value, middle⟩, acknowledged, step⟩ := step
  cases step
  exact ⟨middle, acknowledged, rfl⟩

theorem complete_of_acknowledge {cookie : Option Cookie}
    (acknowledge : process.acknowledge index = some (cookie, after)) :
    process.complete index = some (cookie, after.dropGuard index) := by
  simp only [complete, acknowledge, Option.bind_eq_bind, Option.bind_some]
  rfl

/-- The end of a guarded save: the marker, the change tracking, and then the guard. -/
theorem complete_of_guard {cookie : Option Cookie} {guard : WriteGuard}
    (guarded : process.guards index = some guard)
    (step : process.complete index = some (cookie, after)) :
    ∃ save revision, process.saves index = some save ∧ save.revision = some revision ∧
      cookie = save.source.cookieValue ∧
      after = { (process.setSave index none).setGuard index none with
        heap := guard.drop (revision.acknowledge (save.source.markPersisted process.heap)) } := by
  obtain ⟨middle, acknowledged, rfl⟩ := complete_cases step
  obtain ⟨save, revision, found, captured, value, rfl⟩ := acknowledge_cases acknowledged
  refine ⟨save, revision, found, captured, value, ?_⟩
  have still : (process.setSave index none).guards index = some guard := guarded
  simp only [dropGuard, still]
  rfl

theorem requestDelete_cases (step : process.requestDelete index = some (reply, after)) :
    ∃ session, process.handles index = some session ∧
      reply = .deletion process.nextDeletion ∧
      after = { process.setDeletion process.nextDeletion (some { session }) with
        heap := session.destroy process.heap
        nextDeletion := process.nextDeletion + 1 } := by
  simp only [requestDelete, Option.bind_eq_bind, Option.bind_eq_some_iff] at step
  obtain ⟨session, found, step⟩ := step
  cases step
  exact ⟨session, found, rfl, rfl⟩

theorem grantDelete_cases (step : process.grantDelete index = some (reply, after)) :
    ∃ deletion, process.deletions index = some deletion ∧ deletion.target = none ∧
      (deletion.session.shared process.heap).locked = false ∧
      ((∃ error, deletion.session.beginDelete process.heap = .error error ∧
          reply = .error error ∧ after = process.setDeletion index none) ∨
        ∃ target heap, deletion.session.beginDelete process.heap = .ok (target, heap) ∧
          reply = .target target ∧
          after = { process.setDeletion index
              (some { deletion with target := some target }) with heap }) := by
  simp only [grantDelete, Option.bind_eq_bind, Option.bind_eq_some_iff] at step
  obtain ⟨deletion, found, step⟩ := step
  split at step
  · rename_i free
    refine ⟨deletion, found, free.1, free.2, ?_⟩
    split at step
    · rename_i error refused
      cases step
      exact Or.inl ⟨error, refused, rfl, rfl⟩
    · rename_i target heap granted
      cases step
      exact Or.inr ⟨target, heap, granted, rfl, rfl⟩
  · cases step

/-! ### What a drop leaves -/

/-- A drop changes the heap and takes its own entry out of a table. -/
theorem dropGuard_eq (process : Process) (index : Nat) :
    ∃ heap, process.dropGuard index = { process.setGuard index none with heap } := by
  unfold dropGuard
  split
  · rename_i absent
    refine ⟨process.heap, ?_⟩
    rw [setGuard, Function.update_eq_self_iff.mpr absent.symm]
  · exact ⟨_, rfl⟩

theorem dropSave_eq (process : Process) (index : Nat) :
    ∃ heap, process.dropSave index = { process.setSave index none with heap } := by
  unfold dropSave
  split
  · rename_i absent
    refine ⟨process.heap, ?_⟩
    rw [setSave, Function.update_eq_self_iff.mpr absent.symm]
  · exact ⟨_, rfl⟩

theorem abandon_eq (process : Process) (index : Nat) :
    ∃ heap, process.abandon index = { (process.setGuard index none).setSave index none with heap } := by
  obtain ⟨_, guards⟩ := process.dropGuard_eq index
  obtain ⟨heap, saves⟩ := (process.dropGuard index).dropSave_eq index
  refine ⟨heap, ?_⟩
  rw [abandon, saves, guards]
  rfl

theorem dropDelete_eq (process : Process) (index : Nat) :
    ∃ heap, process.dropDelete index = { process.setDeletion index none with heap } := by
  unfold dropDelete
  split
  · rename_i absent
    refine ⟨process.heap, ?_⟩
    rw [setDeletion, Function.update_eq_self_iff.mpr absent.symm]
  · exact ⟨_, rfl⟩

/-! ### What a step follows -/

theorem follows_captureImmutable (step : process.captureImmutable index = some after) :
    process.Follows after := by
  obtain ⟨save, found, _, rfl⟩ := captureImmutable_cases step
  refine (process.follows_setSave index _ fun newer same => ?_).trans
    (follows_heap _ (Heap.keeps_setCell _ _ _))
  obtain rfl := Option.some.inj same
  exact ⟨save, found, rfl, rfl⟩

theorem follows_capturePersistence {snapshot : Session}
    (step : process.capturePersistence index = some (snapshot, after)) :
    process.Follows after := by
  obtain ⟨save, found, _, _, rfl⟩ := capturePersistence_cases step
  refine (process.follows_setSave index _ fun newer same => ?_).trans
    (follows_heap _ (Session.keeps_persistenceSnapshot _ _))
  obtain rfl := Option.some.inj same
  exact ⟨save, found, rfl, rfl⟩

theorem follows_acquire {receipt : Option Nat} {canOutliveFuture : Bool}
    {result : Except Error Unit}
    (step : process.acquire index receipt canOutliveFuture = some (result, after)) :
    process.Follows after := by
  obtain ⟨save, _, _, _, outcome⟩ := acquire_cases step
  have keeps := Session.keeps_beginGuardedWrite process.heap save.source save.origin receipt
    canOutliveFuture
  rcases outcome with ⟨error, heap, refused, _, rfl⟩ | ⟨guard, heap, granted, _, rfl⟩
  · rw [refused] at keeps
    exact process.follows_heap keeps
  · rw [granted] at keeps
    exact (process.follows_setGuard index _).trans (follows_heap _ keeps)

theorem follows_dispatch (step : process.dispatch index = some after) : process.Follows after := by
  obtain ⟨save, found, rfl⟩ := dispatch_cases step
  have follows : process.Follows
      (process.setSave index (some { save with dispatched := true })) := by
    refine process.follows_setSave index _ fun newer same => ?_
    obtain rfl := Option.some.inj same
    exact ⟨save, found, rfl, rfl⟩
  exact follows.congr rfl rfl rfl rfl rfl

theorem follows_dropGuard (process : Process) (index : Nat) :
    process.Follows (process.dropGuard index) := by
  unfold dropGuard
  split
  · exact Follows.refl process
  · exact (process.follows_setGuard index none).trans (follows_heap _ (Heap.keeps_unlock _ _ _))

theorem follows_dropSave (process : Process) (index : Nat) :
    process.Follows (process.dropSave index) := by
  unfold dropSave
  split
  · exact Follows.refl process
  · refine (process.follows_setSave index none fun _ wrong => by cases wrong).trans
      (follows_heap _ ?_)
    split
    · exact Heap.Keeps.refl _
    · exact Heap.keeps_setCell _ _ _

theorem follows_abandon (process : Process) (index : Nat) :
    process.Follows (process.abandon index) :=
  (process.follows_dropGuard index).trans (follows_dropSave _ _)

theorem follows_requestDelete (step : process.requestDelete index = some (reply, after)) :
    process.Follows after := by
  obtain ⟨session, found, _, rfl⟩ := requestDelete_cases step
  have follows : process.Follows
      (process.setDeletion process.nextDeletion (some { session })) := by
    refine process.follows_setDeletion _ _ fun newer same => ?_
    obtain rfl := Option.some.inj same
    exact .handle found
  have destroyed := follows.trans (follows_heap _ (Session.keeps_destroy process.heap session))
  exact destroyed.congr rfl rfl rfl rfl rfl

theorem follows_grantDelete (step : process.grantDelete index = some (reply, after)) :
    process.Follows after := by
  obtain ⟨deletion, found, _, _, outcome⟩ := grantDelete_cases step
  rcases outcome with ⟨error, _, _, rfl⟩ | ⟨target, heap, granted, _, rfl⟩
  · exact process.follows_setDeletion index none fun _ wrong => by cases wrong
  · obtain ⟨_, locked, _⟩ := Session.beginDelete_ok granted
    rw [locked]
    refine (process.follows_setDeletion index _ fun newer same => ?_).trans
      (follows_heap _ (Heap.keeps_lock _ _))
    obtain rfl := Option.some.inj same
    exact (Live.deletion found : process.Live deletion.session)

theorem follows_dropDelete (process : Process) (index : Nat) :
    process.Follows (process.dropDelete index) := by
  unfold dropDelete
  split
  · exact Follows.refl process
  · refine (process.follows_setDeletion index none fun _ wrong => by cases wrong).trans
      (follows_heap _ ?_)
    split
    · exact Heap.Keeps.refl _
    · exact Heap.keeps_unlock _ _ _

end Saysion.Process
