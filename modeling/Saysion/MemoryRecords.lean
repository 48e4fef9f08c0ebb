/-
This file proves that the records of a `MemoryStore` are exact, isolated
snapshots. What a record holds is what the call that last wrote it captured, at
the step at which it captured it; and a load reads exactly that, in a session of
its own that has nothing to save.
-/

import Saysion.MemoryInvariant

namespace Saysion

/-! ### What a call captured -/

namespace MemorySound

variable {idOf : Cookie → Option Id} {store after : MemoryStore} {reply : Reply}
  {action : MemoryAction} {index : Nat} {snapshot : SessionSnapshot}

/-- A capture is recorded by the capturing step alone. -/
theorem captured_step (sound : MemorySound store)
    (step : (memoryStore idOf).step store action = some (reply, after))
    (before : store.captured index ≠ some snapshot) (now : after.captured index = some snapshot) :
    action = .capture index ∧ ∃ save, store.process.saves index = some save ∧
      snapshot = save.source.wire store.process.heap := by
  have unchanged : after.captured ≠ store.captured :=
    fun same => before ((congrFun same index).symm.trans now)
  cases (sound.advances step).effect with
  | quiet _ _ same _ => exact absurd same unchanged
  | load _ _ _ _ same _ => exact absurd same unchanged
  | write _ _ _ _ _ _ _ _ _ same _ => exact absurd same unchanged
  | complete _ _ _ _ _ same _ => exact absurd same unchanged
  | @capture key save _ _ _ found captured _ =>
    rw [captured] at now
    by_cases same : index = key
    · subst same
      rw [Function.update_self] at now
      exact ⟨rfl, save, found, (Option.some.inj now).symm⟩
    · rw [Function.update_of_ne same] at now
      exact absurd now before

/-- What is recorded as captured was captured at some step of the run. -/
theorem captured_run {trace : List (MemoryAction × Reply)}
    (run : (memoryStore idOf).Run MemoryStore.initial trace store)
    (captured : store.captured index = some snapshot) :
    ∃ before reply after earlier later save,
      (memoryStore idOf).Run MemoryStore.initial earlier before ∧
        (memoryStore idOf).step before (.capture index) = some (reply, after) ∧
          (memoryStore idOf).Run after later store ∧ before.process.saves index = some save ∧
            snapshot = save.source.wire before.process.heap := by
  obtain ⟨before, action, reply, after, earlier, later, first, step, absent, present, rest⟩ :=
    run.onset (fun store => store.captured index = some snapshot) (fun wrong => by cases wrong)
      captured
  have sound := first.invariant (fun sound step => sound.step step) memorySound_initial
  obtain ⟨rfl, save, found, same⟩ := sound.captured_step step absent present
  exact ⟨before, reply, after, earlier, later, save, first, step, rest, found, same⟩

end MemorySound

/-! ### What a load reads -/

/-- The cell of a loaded session: a clean one with the values of the record. -/
theorem Session.cells_fetchedHeap (heap : Heap) (record : Session) :
    (record.fetchedHeap heap).cells heap.nextCell =
      (SessionData.ofValues (record.sessionData heap).values).adopt := by
  have copied : (record.snapshot heap).2.cells heap.nextCell =
      .ofValues (record.sessionData heap).values :=
    Heap.allocCell_self (heap.allocFamily { destroy := record.isDestroyed heap }) _
  have adopted : (record.fetchedHeap heap).cells heap.nextCell =
      ((record.snapshot heap).2.cells heap.nextCell).adopt := Heap.setCell_self _ _ _
  rw [adopted, copied]

theorem Session.wire_fetched (heap : Heap) (record : Session) :
    (record.fetched heap).wire (record.fetchedHeap heap) = record.wire heap := by
  have values : ((record.fetchedHeap heap).cells heap.nextCell).values =
      (record.sessionData heap).values := by
    rw [record.cells_fetchedHeap heap, SessionData.values_adopt, SessionData.values_ofValues]
  exact congrArg (SessionSnapshot.mk record.id record.expiry) values

theorem Session.dataChanged_fetched (heap : Heap) (record : Session) :
    (record.fetched heap).dataChanged (record.fetchedHeap heap) = false := by
  show (false || ((record.fetchedHeap heap).cells heap.nextCell).changed) = false
  rw [record.cells_fetchedHeap, SessionData.changed_adopt, Bool.or_false]

/-- Once the lock is free, a load goes through. -/
theorem MemoryStore.loadSession_isSome (idOf : Cookie → Option Id) {store : MemoryStore}
    {cookie : Cookie} {now later : DateTime} (free : store.writer = none) :
    ∃ reply after, store.loadSession idOf cookie now later = some (reply, after) := by
  unfold MemoryStore.loadSession
  split
  · exact ⟨_, _, rfl⟩
  · rw [if_pos free]
    split
    · exact ⟨_, _, rfl⟩
    · dsimp only
      split <;> exact ⟨_, _, rfl⟩

/-! ### The result -/

/-- Every record is a snapshot of its own: bound to its key, not destroyed, and with exactly the
expiry and the values that the call that last wrote it captured. A load returns them, unexpired and
with nothing to save; it finds nothing when there is no such record, and never fails. -/
theorem memory_records_are_exact {idOf : Cookie → Option Id} {store : MemoryStore}
    {trace : List (MemoryAction × Reply)}
    (run : (memoryStore idOf).Run MemoryStore.initial trace store) :
    (∀ id record, store.state.records.lookup id = some record →
      record.id = id ∧ record.isDestroyed store.process.heap = false ∧
        ∃ index, store.written id = some index ∧ ∃ before reply after earlier later save,
          (memoryStore idOf).Run MemoryStore.initial earlier before ∧
            (memoryStore idOf).step before (.capture index) = some (reply, after) ∧
              (memoryStore idOf).Run after later store ∧ before.process.saves index = some save ∧
                save.source.id = id ∧
                  record.wire store.process.heap = save.source.wire before.process.heap) ∧
    ∀ cookie id now later, idOf cookie = some id → store.writer = none →
      ∃ reply after, (memoryStore idOf).step store (.loadSession cookie now later) =
          some (reply, after) ∧
        ((∃ record session, store.state.records.lookup id = some record ∧
            record.isExpired now = false ∧ record.isExpired later = false ∧
              reply = .handle store.process.nextHandle ∧
                after.process.handles store.process.nextHandle = some session ∧
                  session.wire after.process.heap = record.wire store.process.heap ∧
                    session.dataChanged after.process.heap = false) ∨
          ((∀ record, store.state.records.lookup id = some record →
              record.isExpired now = true ∨ record.isExpired later = true) ∧ reply = .missing)) := by
  have sound := run.invariant (fun sound step => sound.step step) memorySound_initial
  constructor
  · intro id record found
    obtain ⟨bound, _, alive, ⟨index, written, captured⟩, _⟩ := sound.records id record found
    obtain ⟨before, reply, after, earlier, later, save, first, step, rest, saved, same⟩ :=
      MemorySound.captured_run run captured
    have source : save.source.id = id :=
      (congrArg SessionSnapshot.id same).symm.trans bound
    exact ⟨bound, alive, index, written, before, reply, after, earlier, later, save, first, step,
      rest, saved, source, same⟩
  · intro cookie id now later bound free
    obtain ⟨reply, after, step⟩ := MemoryStore.loadSession_isSome idOf free
    refine ⟨reply, after, step, ?_⟩
    rcases sound.loadSession_cases step with ⟨malformed, _⟩ | ⟨other, found, _, outcome⟩
    · cases malformed.symm.trans bound
    obtain rfl := Option.some.inj (bound.symm.trans found)
    rcases outcome with ⟨absent, rfl, _⟩ | ⟨record, lookup, unexpired, outcome⟩
    · exact Or.inr ⟨fun record lookup => Or.inl (absent record lookup), rfl⟩
    rcases outcome with ⟨expired, rfl, _⟩ | ⟨fresh, rfl, rfl⟩
    · refine Or.inr ⟨fun other found => Or.inr ?_, rfl⟩
      obtain rfl := Option.some.inj (lookup.symm.trans found)
      exact expired
    · exact Or.inl ⟨record, record.fetched store.process.heap, lookup, unexpired, fresh, rfl,
        Function.update_self _ _ _, Session.wire_fetched _ _, Session.dataChanged_fetched _ _⟩

/-- A stored session is loaded again, after its handle's clone was edited. -/
theorem memory_records_are_exact_after_edit : ∃ store : MemoryStore, ∃ reply after, ∃ session : Session,
    (memoryStore some).step store (.loadSession "first" 0 0) = some (reply, after) ∧
      after.process.handles 2 = some session ∧
        (session.wire after.process.heap).data.lookup "key" = some "1" := by
  have stored := Machine.run_replay (memoryStore some) .initial
    ([.handle (.new "first"), .handle (.insertRaw 0 "key" "1"), .handle (.clone 0)] ++
      MemoryAction.store 0 0 ++ [.handle (.insertRaw 1 "key" "2")]) (by decide)
  obtain ⟨_, loads⟩ := memory_records_are_exact stored
  obtain ⟨reply, after, step, ⟨record, session, found, _, _, _, handle, same, _⟩ | ⟨absent, _⟩⟩ :=
    loads "first" "first" 0 0 rfl rfl
  · refine ⟨_, reply, after, session, step, handle, ?_⟩
    rw [same]
    cases found
    rfl
  · rcases absent _ rfl with wrong | wrong <;> cases wrong

end Saysion
