/-
This file proves that a `store_session` call of a `MemoryStore` is atomic under
failure and cancellation. A call that has written is bound to go through: from
its write on it waits for nothing, and only the destruction of its family makes
its `finish` fail. So a call that fails or is dropped has not written, or its
family is destroyed and it has taken its record back; and no step but the last
one of a successful call confirms anything.
-/

import Saysion.MemoryCalls
import Saysion.MemoryRevocation

namespace Saysion

/-! ### A call that has written -/

/-- A call that has written goes through, unless its family is destroyed. -/
structure MemoryStore.Committed (store : MemoryStore) (index : Nat) (family : Ref) : Prop where
  used : index < store.process.nextSave
  allocated : family < store.process.heap.nextFamily
  owner : ∀ save, store.process.saves index = some save → save.source.family = family
  phase : store.calls index = none ∨ store.calls index = some .inserted ∨
    store.calls index = some .finished ∨
      (∃ error, store.calls index = some (.failed error)) ∧
        (store.process.heap.families family).destroy = true

namespace MemorySound

variable {idOf : Cookie → Option Id} {store after : MemoryStore} {reply : Reply}
  {action : MemoryAction} {index : Nat} {save : Save}

/-- The last step of a call clears it. -/
theorem calls_complete (step : store.complete index = some (reply, after)) :
    after.calls index = none := by
  obtain ⟨_, _, _, _, _, _, _, rfl⟩ := MemoryStore.complete_cases step
  exact Function.update_self _ _ _

theorem calls_fail (step : store.fail index = some (reply, after)) : after.calls index = none := by
  obtain ⟨_, _, _, rfl⟩ := MemoryStore.fail_cases step
  exact Function.update_self _ _ _

theorem committed {family : Ref} (sound : MemorySound store)
    (committed : store.Committed index family)
    (step : (memoryStore idOf).step store action = some (reply, after)) :
    after.Committed index family := by
  have advances := sound.advances step
  have climbs := advances.path.climbs sound.dispatching.authority
  have retains := advances.path.retains
  refine ⟨committed.used.trans_le retains.nextSave, committed.allocated.trans_le climbs.nextFamily,
    fun later kept => ?_, ?_⟩
  · obtain ⟨older, earlier, source, _⟩ := retains.save index committed.used later kept
    rw [← source]
    exact committed.owner older earlier
  have destroyed := climbs.destroy family committed.allocated
  by_cases own : action.call = some index
  swap
  · rw [(MemoryStore.frame step).calls index committed.used own]
    exact committed.phase.imp_right (Or.imp_right (Or.imp_right (And.imp_right destroyed)))
  obtain ⟨phase, current, due⟩ := MemoryStore.due_of_call step own
  rcases committed.phase with gone | inserted | finished | ⟨⟨error, failed⟩, _⟩
  · cases gone.symm.trans current
  · obtain rfl := Option.some.inj (inserted.symm.trans current)
    obtain rfl := due.resolve_right fun wrong => wrong.2
    obtain ⟨save, guard, found, _, _, ⟨flag, rfl⟩ | ⟨_, rfl⟩⟩ := sound.finish_cases step
    · refine Or.inr (Or.inr (Or.inr ⟨⟨_, Function.update_self _ _ _⟩, destroyed ?_⟩))
      rw [← committed.owner save found]
      exact flag
    · exact Or.inr (Or.inr (Or.inl (Function.update_self _ _ _)))
  · obtain rfl := Option.some.inj (finished.symm.trans current)
    obtain rfl := due.resolve_right fun wrong => wrong.2
    exact Or.inl (calls_complete step)
  · obtain rfl := Option.some.inj (failed.symm.trans current)
    obtain rfl := due.resolve_right fun wrong => wrong.2
    exact Or.inl (calls_fail step)

theorem committed_run {family : Ref} {trace : List (MemoryAction × Reply)} (sound : MemorySound store)
    (committed : store.Committed index family) (run : (memoryStore idOf).Run store trace after) :
    MemorySound after ∧ after.Committed index family := by
  induction run with
  | refl => exact ⟨sound, committed⟩
  | tail _ step inductionHypothesis =>
    obtain ⟨sound, committed⟩ := inductionHypothesis
    exact ⟨sound.step step, sound.committed committed step⟩

/-- A call fails or is dropped at the end of `step`. -/
theorem quits_cases (quits : action = .fail index ∨ action = .cancelStore index)
    (step : (memoryStore idOf).step store action = some (reply, after)) :
    (∃ error, store.calls index = some (.failed error)) ∨
      ∃ phase, store.calls index = some phase ∧ phase.Waits := by
  have own : action.call = some index := by
    rcases quits with rfl | rfl <;> rfl
  obtain ⟨phase, current, due | ⟨_, waits⟩⟩ := MemoryStore.due_of_call step own
  · refine Or.inl ?_
    cases phase <;> rcases quits with rfl | rfl <;> cases due
    exact ⟨_, current⟩
  · exact Or.inr ⟨phase, current, waits⟩

/-- When a call that has written fails after all, its family is destroyed; it is never dropped. -/
theorem destroyed_of_committed {family : Ref} (committed : store.Committed index family)
    (quits : action = .fail index ∨ action = .cancelStore index)
    (step : (memoryStore idOf).step store action = some (reply, after)) :
    (store.process.heap.families family).destroy = true := by
  rcases quits_cases quits step with ⟨error, failed⟩ | ⟨phase, current, waits⟩
  · rcases committed.phase with gone | inserted | finished | ⟨_, destroyed⟩
    · cases gone.symm.trans failed
    · cases inserted.symm.trans failed
    · cases finished.symm.trans failed
    · exact destroyed
  · rcases committed.phase with gone | inserted | finished | ⟨_, destroyed⟩
    · cases gone.symm.trans current
    · obtain rfl := Option.some.inj (inserted.symm.trans current)
      cases waits
    · obtain rfl := Option.some.inj (finished.symm.trans current)
      cases waits
    · exact destroyed

/-- A step after which a call is bound to go through. -/
theorem commit (sound : MemorySound store) (found : store.process.saves index = some save)
    (step : (memoryStore idOf).step store action = some (reply, after))
    (phase : after.calls index = some .inserted ∨
      (∃ error, after.calls index = some (.failed error)) ∧
        save.source.isDestroyed store.process.heap = true) :
    after.Committed index save.source.family := by
  have advances := sound.advances step
  have climbs := advances.path.climbs sound.dispatching.authority
  have used := sound.dispatching.locking.used_of_save found
  have allocated := (sound.dispatching.authority.allocated _ (.save found)).1
  refine ⟨used.trans_le advances.path.retains.nextSave, allocated.trans_le climbs.nextFamily,
    fun later kept => ?_, ?_⟩
  · obtain ⟨older, earlier, source, _⟩ := advances.path.retains.save index used later kept
    obtain rfl := Option.some.inj (found.symm.trans earlier)
    rw [source]
  · rcases phase with inserted | ⟨failed, destroyed⟩
    · exact Or.inr (Or.inl inserted)
    · exact Or.inr (Or.inr (Or.inr ⟨failed, climbs.destroy _ allocated destroyed⟩))

/-- A step of a call that changes the records commits it. -/
theorem state_of_call (sound : MemorySound store)
    (step : (memoryStore idOf).step store action = some (reply, after))
    (own : action.call = some index) (found : store.process.saves index = some save) :
    after.state = store.state ∨ after.Committed index save.source.family := by
  have commits := sound.commit found step
  cases action <;> cases own
  case capture =>
    obtain ⟨_, _, _, _, _, _, _, rfl⟩ := MemoryStore.capture_cases step
    exact Or.inl rfl
  case beginBackendWrite =>
    obtain ⟨_, _, _, _, _, _, ⟨_, _, rfl⟩ | ⟨_, rfl⟩⟩ := MemoryStore.beginBackendWrite_cases step <;>
      exact Or.inl rfl
  case lock =>
    obtain ⟨_, _, _, _, rfl⟩ := MemoryStore.lock_cases step
    exact Or.inl rfl
  case write =>
    obtain ⟨_, _, _, _, _, ⟨_, rfl⟩ | ⟨_, _, _, _, _, rfl⟩⟩ := sound.write_cases step
    · exact Or.inl rfl
    · exact Or.inr (commits (Or.inl (Function.update_self _ _ _)))
  case finish =>
    obtain ⟨older, _, lookup, _, _, ⟨destroyed, rfl⟩ | ⟨_, rfl⟩⟩ := sound.finish_cases step
    · obtain rfl := Option.some.inj (found.symm.trans lookup)
      exact Or.inr (commits (Or.inr ⟨⟨_, Function.update_self _ _ _⟩, destroyed⟩))
    · exact Or.inl rfl
  case complete =>
    obtain ⟨_, _, _, _, _, _, _, rfl⟩ := MemoryStore.complete_cases step
    exact Or.inl rfl
  case fail =>
    obtain ⟨_, _, _, rfl⟩ := MemoryStore.fail_cases step
    exact Or.inl rfl
  case cancelStore =>
    obtain ⟨_, _, rfl⟩ := MemoryStore.cancelStore_cases step
    exact Or.inl rfl

end MemorySound

/-! ### What a call confirms before its end -/

/-- A cell in which a change that was pending still is: nothing was acknowledged. -/
structure SessionData.Pending (before after : SessionData) : Prop where
  values : after.values = before.values
  revision : after.revision = before.revision
  persistedRevision : after.persistedRevision = before.persistedRevision
  uncertainSave : before.uncertainSave = true → after.uncertainSave = true

namespace SessionData

theorem Pending.refl (data : SessionData) : data.Pending data := ⟨rfl, rfl, rfl, id⟩

theorem Pending.trans {before middle after : SessionData} (first : before.Pending middle)
    (second : middle.Pending after) : before.Pending after where
  values := second.values.trans first.values
  revision := second.revision.trans first.revision
  persistedRevision := second.persistedRevision.trans first.persistedRevision
  uncertainSave flag := second.uncertainSave (first.uncertainSave flag)

theorem pending_capture (data : SessionData) : data.Pending data.capture :=
  ⟨rfl, rfl, rfl, fun flag => by simp [capture, flag]⟩

theorem pending_release (data : SessionData) : data.Pending data.release :=
  ⟨rfl, rfl, rfl, fun _ => rfl⟩

theorem Pending.changed {before after : SessionData} (pending : before.Pending after)
    (changed : before.changed = true) : after.changed = true := by
  unfold SessionData.changed at *
  rw [pending.revision, pending.persistedRevision]
  rw [Bool.or_eq_true] at changed ⊢
  exact changed.imp_left pending.uncertainSave

end SessionData

/-- A change of the heap that confirms nothing for a family: its marker is where it was, and no
change of any data cell is acknowledged. -/
structure Heap.Unconfirmed (before after : Heap) (family : Ref) : Prop where
  marker : (after.families family).persistedId = (before.families family).persistedId
  nextCell : before.nextCell ≤ after.nextCell
  cells : ∀ ref < before.nextCell, (before.cells ref).Pending (after.cells ref)

namespace Heap

variable {before middle after : Heap} {family : Ref}

theorem Unconfirmed.refl (heap : Heap) (family : Ref) : heap.Unconfirmed heap family :=
  ⟨rfl, le_rfl, fun _ _ => .refl _⟩

theorem Unconfirmed.trans (first : before.Unconfirmed middle family)
    (second : middle.Unconfirmed after family) : before.Unconfirmed after family where
  marker := second.marker.trans first.marker
  nextCell := first.nextCell.trans second.nextCell
  cells ref old := (first.cells ref old).trans (second.cells ref (old.trans_le first.nextCell))

/-- A change of the families alone. -/
theorem unconfirmed_of_families (nextCell : after.nextCell = before.nextCell)
    (cells : after.cells = before.cells)
    (marker : (after.families family).persistedId = (before.families family).persistedId) :
    before.Unconfirmed after family :=
  ⟨marker, nextCell.ge, fun ref _ => by rw [cells]; exact .refl _⟩

/-- A change of one data cell. -/
theorem unconfirmed_setCell (heap : Heap) (ref family : Ref) {data : SessionData}
    (pending : (heap.cells ref).Pending data) : heap.Unconfirmed (heap.setCell ref data) family := by
  refine ⟨rfl, le_rfl, fun other _ => ?_⟩
  by_cases same : other = ref
  · rw [same, setCell_self]
    exact pending
  · rw [setCell_of_ne _ _ _ same]
    exact .refl _

theorem unconfirmed_lock (heap : Heap) (ref family : Ref) :
    heap.Unconfirmed (heap.lock ref) family :=
  unconfirmed_of_families rfl rfl (by
    by_cases same : family = ref
    · rw [same, lock, setFamily_self]
    · rw [lock, setFamily_of_ne _ _ _ same])

theorem unconfirmed_unlock (heap : Heap) (ref family : Ref) (uncertain : Bool) :
    heap.Unconfirmed (heap.unlock ref uncertain) family :=
  unconfirmed_of_families rfl rfl (persistedId_unlock _ _ _ _)

end Heap

namespace MemorySound

variable {idOf : Cookie → Option Id} {store after : MemoryStore} {reply : Reply}
  {action : MemoryAction} {index : Nat} {save : Save}

/-- Marking a snapshot as loaded marks no family that is referred to. -/
theorem marker_markPersisted {process : Process} {snapshot : Session} {family : Ref}
    (apart : process.Apart snapshot) (refers : process.Refers family) :
    ((snapshot.markPersisted process.heap).families family).persistedId =
      (process.heap.families family).persistedId := by
  have different : family ≠ snapshot.family := fun same => apart.unreferred (same ▸ refers)
  exact congrArg Family.persistedId (Heap.setFamily_of_ne _ _ _ different)

/-- Dropping a guard and a revision acknowledges nothing. -/
theorem unconfirmed_abandon (process : Process) (index : Nat) (family : Ref) :
    process.heap.Unconfirmed (process.abandon index).heap family := by
  have guarded : process.heap.Unconfirmed (process.dropGuard index).heap family := by
    unfold Process.dropGuard
    split
    · exact .refl _ _
    · exact Heap.unconfirmed_unlock _ _ _ _
  refine guarded.trans ?_
  unfold Process.abandon Process.dropSave
  split
  · exact .refl _ _
  · dsimp only
    split
    · exact .refl _ _
    · exact Heap.unconfirmed_setCell _ _ _ (SessionData.pending_release _)

/-- A capture copies into cells of its own, and acknowledges nothing. -/
theorem unconfirmed_capture {process : Process} {source : Session}
    (family : source.family < process.heap.nextFamily) :
    process.heap.Unconfirmed (source.persistenceSnapshot process.heap).2 source.family := by
  have copied : process.heap.Unconfirmed (source.snapshot process.heap).2 source.family :=
    ⟨congrArg Family.persistedId (Heap.allocFamily_of_lt _ _ family), Nat.le_succ _,
      fun ref old => by
        have kept : (source.snapshot process.heap).2.cells ref = process.heap.cells ref :=
          Heap.allocCell_of_lt (process.heap.allocFamily _) _ old
        rw [kept]
        exact .refl _⟩
  exact copied.trans (Heap.unconfirmed_setCell _ _ _ (SessionData.pending_capture _))

/-- The lifecycle mutex is taken, or taken and released. -/
theorem unconfirmed_acquire {process next : Process} {receipt : Option Nat} {canOutliveFuture : Bool}
    {result : Except Error Unit} (family : Ref)
    (acquire : process.acquire index receipt canOutliveFuture = some (result, next)) :
    process.heap.Unconfirmed next.heap family := by
  obtain ⟨_, _, _, _, ⟨_, heap, refused, _, rfl⟩ | ⟨_, heap, granted, _, rfl⟩⟩ :=
    Process.acquire_cases acquire
  · rcases Session.beginGuardedWrite_error refused with rfl | rfl
    · exact .refl _ _
    · exact (Heap.unconfirmed_lock _ _ _).trans (Heap.unconfirmed_unlock _ _ _ _)
  · obtain ⟨_, _, _, _, rfl⟩ := Session.beginGuardedWrite_ok granted
    exact Heap.unconfirmed_lock _ _ _

/-- No step of a call but the last one of a successful call confirms anything. -/
theorem unconfirmed_of_call (sound : MemorySound store)
    (step : (memoryStore idOf).step store action = some (reply, after))
    (own : action.call = some index) (found : store.process.saves index = some save)
    (incomplete : action ≠ .complete index) :
    store.process.heap.Unconfirmed after.process.heap save.source.family := by
  have family := (sound.dispatching.authority.allocated _ (.save found)).1
  cases action <;> cases own
  case capture =>
    obtain ⟨older, _, process, _, lookup, capture, _, rfl⟩ := MemoryStore.capture_cases step
    obtain rfl := Option.some.inj (found.symm.trans lookup)
    obtain ⟨older, lookup, _, _, rfl⟩ := Process.capturePersistence_cases capture
    obtain rfl := Option.some.inj (found.symm.trans lookup)
    exact unconfirmed_capture family
  case beginBackendWrite =>
    obtain ⟨_, process, _, _, acquire, _, ⟨_, _, rfl⟩ | ⟨_, rfl⟩⟩ :=
      MemoryStore.beginBackendWrite_cases step <;> exact unconfirmed_acquire _ acquire
  case lock =>
    obtain ⟨_, _, _, _, rfl⟩ := MemoryStore.lock_cases step
    exact .refl _ _
  case write =>
    obtain ⟨older, snapshot, lookup, locked, _, ⟨_, rfl⟩ | ⟨process, _, _, updates, creates, rfl⟩⟩ :=
      sound.write_cases step
    · exact .refl _ _
    · have heap : process.heap = store.process.heap := by
        by_cases update : older.Creates
        · obtain ⟨_, _, rfl⟩ := Process.dispatch_cases (creates update)
          rfl
        · rw [updates update]
      obtain ⟨_, _, _, _, copies⟩ := sound.calls index _ locked
      show store.process.heap.Unconfirmed (snapshot.markPersisted process.heap) _
      rw [heap]
      exact Heap.unconfirmed_of_families rfl rfl
        (marker_markPersisted copies.apart (Or.inl ⟨_, .save found, rfl⟩))
  case finish =>
    obtain ⟨_, _, _, _, _, ⟨_, rfl⟩ | ⟨_, rfl⟩⟩ := sound.finish_cases step <;> exact .refl _ _
  case complete => exact absurd rfl incomplete
  case fail =>
    obtain ⟨_, _, _, rfl⟩ := MemoryStore.fail_cases step
    exact unconfirmed_abandon _ _ _
  case cancelStore =>
    obtain ⟨_, _, rfl⟩ := MemoryStore.cancelStore_cases step
    exact unconfirmed_abandon _ _ _

/-- The first step of a call claims the creation at most. -/
theorem unconfirmed_attempt {process next : Process} {handle : Nat} {reply : Reply} (family : Ref)
    (attempt : process.attempt handle = some (reply, next)) :
    process.heap.Unconfirmed next.heap family := by
  obtain ⟨session, _, ⟨_, _, _, rfl⟩ | ⟨origin, heap, granted, _, rfl⟩⟩ :=
    Process.attempt_cases attempt
  · exact .refl _ _
  · obtain ⟨_, _, rfl⟩ := Session.persistenceAttempt_ok granted
    dsimp only
    split
    · refine Heap.unconfirmed_of_families rfl rfl ?_
      by_cases same : family = session.family
      · rw [same]
        exact (congrArg Family.persistedId
          (Heap.setFamily_self process.heap session.family _)).trans rfl
      · exact congrArg Family.persistedId (Heap.setFamily_of_ne _ _ _ same)
    · exact .refl _ _

theorem retains_run (sound : MemorySound store) {trace : List (MemoryAction × Reply)}
    (run : (memoryStore idOf).Run store trace after) : store.process.Retains after.process := by
  induction run with
  | refl => exact .refl _
  | tail earlier step inductionHypothesis =>
    have middle := earlier.invariant (fun sound step => sound.step step) sound
    exact inductionHypothesis.trans (middle.advances step).path.retains

/-- A step of a call that is still there was a step of the same save. -/
theorem save_of_call (sound : MemorySound store)
    (step : (memoryStore idOf).step store action = some (reply, after))
    (own : action.call = some index) {trace : List (MemoryAction × Reply)} {last : MemoryStore}
    (run : (memoryStore idOf).Run after trace last)
    (found : last.process.saves index = some save) :
    ∃ older, store.process.saves index = some older ∧ older.source = save.source ∧
      older.origin = save.origin := by
  obtain ⟨phase, current, _⟩ := MemoryStore.due_of_call step own
  obtain ⟨older, earlier, _⟩ := sound.calls index phase current
  have retains := (sound.advances step).path.retains.trans (retains_run (sound.step step) run)
  obtain ⟨older, earlier, source, origin⟩ :=
    retains.save index (sound.dispatching.locking.used_of_save earlier) save found
  exact ⟨older, earlier, source, origin⟩

/-- A call whose `finish` succeeded is completed next. -/
theorem completes_of_finished (used : index < store.process.nextSave) (sound : MemorySound store)
    (finished : store.calls index = none ∨ store.calls index = some .finished)
    {trace : List (MemoryAction × Reply)} (run : (memoryStore idOf).Run store trace after) :
    after.calls index = none ∨ after.calls index = some .finished := by
  induction run with
  | refl => exact finished
  | @tail _ middle _ action _ earlier step inductionHypothesis =>
    have still := used.trans_le (retains_run sound earlier).nextSave
    by_cases own : action.call = some index
    · obtain ⟨phase, current, due⟩ := MemoryStore.due_of_call step own
      rcases inductionHypothesis with gone | finished
      · cases gone.symm.trans current
      · obtain rfl := Option.some.inj (finished.symm.trans current)
        obtain rfl := due.resolve_right fun wrong => wrong.2
        exact Or.inl (calls_complete step)
    · rw [(MemoryStore.frame step).calls index still own]
      exact inductionHypothesis

/-- A call that is over, or about to be completed, neither fails nor waits. -/
theorem not_quits (done : store.calls index = none ∨ store.calls index = some .finished) :
    ¬ ((∃ error, store.calls index = some (.failed error)) ∨
      ∃ phase, store.calls index = some phase ∧ phase.Waits) := by
  rcases done with gone | finished <;> rintro (⟨_, current⟩ | ⟨phase, current, waits⟩)
  · cases gone.symm.trans current
  · cases gone.symm.trans current
  · cases finished.symm.trans current
  · obtain rfl := Option.some.inj (finished.symm.trans current)
    exact waits

/-- A `finish` in a call that does not go through found its family destroyed; the call leaves
neither its target nor its source behind. -/
theorem absent_of_finish {before : MemoryStore} {older : Save}
    (reachable : (memoryStore idOf).Reachable before)
    (found : before.process.saves index = some older)
    (finish : (memoryStore idOf).step before (.finish index) = some (reply, after))
    {trace : List (MemoryAction × Reply)} (run : (memoryStore idOf).Run after trace store)
    (quits : (∃ error, store.calls index = some (.failed error)) ∨
      ∃ phase, store.calls index = some phase ∧ phase.Waits) :
    older.source.isDestroyed before.process.heap = true ∧
      ∀ key, key = older.source.id ∨ older.origin = some key → key ∉ store.state.records := by
  have sound := MemorySound.reachable reachable
  have later := sound.step finish
  obtain ⟨inserted, records⟩ := sound.finish_records found finish
  obtain ⟨known, lookup, ⟨guard, guarded⟩, born⟩ := sound.calls index _ inserted
  obtain rfl := Option.some.inj (found.symm.trans lookup)
  have destroyed : older.source.isDestroyed before.process.heap = true := by
    by_contra alive
    obtain ⟨other, _, lookup, _, _, ⟨flag, _⟩ | ⟨_, rfl⟩⟩ := sound.finish_cases finish
    · obtain rfl := Option.some.inj (found.symm.trans lookup)
      exact alive flag
    · have used := (sound.advances finish).path.retains.nextSave
      exact not_quits (completes_of_finished ((sound.dispatching.locking.used_of_save found).trans_le used) later
        (Or.inr (Function.update_self _ _ _)) run) quits
  refine ⟨destroyed, fun key either => ?_⟩
  have dispatched : ∀ id ∈ before.process.dispatched, id ∈ after.process.dispatched := by
    obtain ⟨_, _, _, _, _, ⟨_, rfl⟩ | ⟨_, rfl⟩⟩ := sound.finish_cases finish <;>
      exact fun _ member => member
  by_cases target : key = older.source.id
  · subst target
    refine stays_gone (reachable.tail finish) run (dispatched _ born) fun there => ?_
    cases destroyed.symm.trans (((records _).mp there).2 rfl)
  · have origin := either.resolve_left target
    -- Under the guard the origin is the marker, whose record was written once.
    have marker := sound.dispatching.agreement index guard older guarded found
    rw [origin] at marker
    have remembers := reachable_remembers reachable
    have last := remembers.marker older.source.family (Or.inl ⟨_, .save found, rfl⟩)
    have member : key ∈ before.history older.source.family :=
      List.mem_of_head? (last.symm.trans marker)
    refine stays_gone (reachable.tail finish) run (dispatched _ (remembers.born _ key member))
      fun there => ?_
    exact (reachable_installed reachable index older inserted found).2 key origin target
      ((records key).mp there).1

end MemorySound

/-! ### The result -/

/-- A `store_session` call that fails or is dropped has changed nothing, or its family is
destroyed; then it leaves neither its target nor the source of a rotation behind. It has moved no
marker and acknowledged no change. -/
theorem store_session_is_atomic {idOf : Cookie → Option Id} {store last : MemoryStore}
    {ending : MemoryAction} {reply : Reply} {index : Nat} {save : Save}
    (reachable : (memoryStore idOf).Reachable store)
    (found : store.process.saves index = some save)
    (quits : ending = .fail index ∨ ending = .cancelStore index)
    (step : (memoryStore idOf).step store ending = some (reply, last)) :
    (last.state = store.state ∧
      store.process.heap.Unconfirmed last.process.heap save.source.family) ∧
    (∀ before action answer after rest, (memoryStore idOf).Reachable before →
      (memoryStore idOf).step before action = some (answer, after) →
        (memoryStore idOf).Run after rest store →
          action.call = some index ∨ (∃ handle, action = .storeSession handle) ∧ answer = .save index →
          before.process.heap.Unconfirmed after.process.heap save.source.family ∧
            (after.state = before.state ∨ save.source.isDestroyed store.process.heap = true)) ∧
    (∀ before answer after rest, (memoryStore idOf).Reachable before →
      (memoryStore idOf).step before (.finish index) = some (answer, after) →
        (memoryStore idOf).Run after rest store →
          save.source.isDestroyed before.process.heap = true ∧
            ∀ key, key = save.source.id ∨ save.origin = some key → key ∉ last.state.records) ∧
    ∀ other handle error after, (memoryStore idOf).step other (.storeSession handle) =
        some (.error error, after) →
      after.state = other.state ∧ after.process.heap = other.process.heap := by
  have sound := MemorySound.reachable reachable
  have ends : ending.call = some index := by
    rcases quits with rfl | rfl <;> rfl
  have incomplete : ending ≠ .complete index := by
    rcases quits with rfl | rfl <;> simp
  have unchanged : last.state = store.state := by
    rcases quits with rfl | rfl
    · obtain ⟨_, _, _, rfl⟩ := MemoryStore.fail_cases step
      rfl
    · obtain ⟨_, _, rfl⟩ := MemoryStore.cancelStore_cases step
      rfl
  refine ⟨⟨unchanged, sound.unconfirmed_of_call step ends found incomplete⟩,
    fun before action answer after rest earlier own run mine => ?_,
    fun before answer after rest earlier finish run => ?_, fun other handle error after refused => ?_⟩
  · have sound := MemorySound.reachable earlier
    rcases mine with mine | mine
    · obtain ⟨older, known, source, _⟩ := sound.save_of_call own mine run found
      rw [← source]
      constructor
      · refine sound.unconfirmed_of_call own mine known fun completes => ?_
        -- A completed call is over: it does not fail afterwards.
        subst completes
        have used := (sound.advances own).path.retains.nextSave
        exact MemorySound.not_quits (MemorySound.completes_of_finished
          ((sound.dispatching.locking.used_of_save known).trans_le used) (sound.step own)
            (Or.inl (MemorySound.calls_complete own)) run) (MemorySound.quits_cases quits step)
      · refine (sound.state_of_call own mine known).imp_right fun committed => ?_
        exact MemorySound.destroyed_of_committed
          (MemorySound.committed_run (sound.step own) committed run).2 quits step
    · obtain ⟨⟨handle, rfl⟩, rfl⟩ := mine
      obtain ⟨process, attempt, ⟨_, wrong, _⟩ | ⟨_, rfl⟩⟩ := MemoryStore.storeSession_cases own
      · cases wrong
      · exact ⟨MemorySound.unconfirmed_attempt _ attempt, Or.inl rfl⟩
  · have sound := MemorySound.reachable earlier
    obtain ⟨older, known, source, origin⟩ := sound.save_of_call finish rfl run found
    obtain ⟨destroyed, absent⟩ :=
      MemorySound.absent_of_finish earlier known finish run (MemorySound.quits_cases quits step)
    rw [source] at destroyed absent
    rw [origin] at absent
    rw [unchanged]
    exact ⟨destroyed, absent⟩
  · obtain ⟨process, attempt, ⟨_, _, rfl⟩ | ⟨wrong, _⟩⟩ := MemoryStore.storeSession_cases refused
    · obtain ⟨_, _, ⟨_, _, _, rfl⟩ | ⟨_, _, _, wrong, _⟩⟩ := Process.attempt_cases attempt
      · exact ⟨rfl, rfl⟩
      · cases wrong
    · cases wrong

/-- A destruction between the write of a first save and its `finish`: the call fails, and takes its
record back. -/
theorem store_session_is_atomic_on_destruction : ∃ last : MemoryStore,
    last.calls 0 = none ∧ "first" ∉ last.state.records := by
  have written := Machine.run_replay (memoryStore some) .initial
    [.handle (.new "first"), .handle (.clone 0), .storeSession 0, .capture 0, .beginBackendWrite 0,
      .lock 0, .write 0, .handle (.destroy 1)] (by decide)
  have failed := Machine.run_replay (memoryStore some) .initial
    [.handle (.new "first"), .handle (.clone 0), .storeSession 0, .capture 0, .beginBackendWrite 0,
      .lock 0, .write 0, .handle (.destroy 1), .finish 0] (by decide)
  obtain ⟨_, _, absent, _⟩ := @store_session_is_atomic some _ _ (.fail 0) _ 0 _
    ⟨_, _, rfl, failed⟩ rfl (Or.inl rfl) rfl
  exact ⟨_, rfl, (absent _ _ _ _ ⟨_, _, rfl, written⟩ rfl .refl).2 "first" (Or.inl rfl)⟩

end Saysion
