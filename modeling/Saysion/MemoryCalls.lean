/-
This file separates the calls of a `MemoryStore` from each other: which step a
`store_session` call takes next, and what a step leaves alone of the calls it
does not belong to. Every step edits the records by the operations of
`MemoryState` only, so the expiry index mirrors the records in every store.
-/

import Saysion.MemoryCases
import Saysion.MemoryIndex

namespace Saysion

/-! ### The steps of one call -/

/-- The `store_session` call that a step belongs to, after its first one. -/
def MemoryAction.call : MemoryAction → Option Nat
  | .capture index | .beginBackendWrite index | .lock index | .write index | .finish index
  | .complete index | .fail index | .cancelStore index => some index
  | _ => none

/-- The `cleanup_batch` call that a step belongs to, after its first one. -/
def MemoryAction.cleanup : MemoryAction → Option Nat
  | .removeChunk index | .cancelCleanup index => some index
  | _ => none

namespace StorePhase

/-- The step that a call takes next. -/
def next (index : Nat) : StorePhase → MemoryAction
  | .attempted => .capture index
  | .captured _ => .beginBackendWrite index
  | .guarded _ => .lock index
  | .locked _ => .write index
  | .inserted => .finish index
  | .finished => .complete index
  | .failed _ => .fail index

/-- The phases in which a call waits, so that its future may be dropped. -/
def Waits : StorePhase → Prop
  | .captured _ | .guarded _ => True
  | _ => False

end StorePhase

namespace MemoryStore

variable {idOf : Cookie → Option Id} {store after : MemoryStore} {reply : Reply}
  {action : MemoryAction} {index : Nat}

/-- A step of a call is the one that is due, or a cancellation while the call waits. -/
theorem due_of_call (step : (memoryStore idOf).step store action = some (reply, after))
    (own : action.call = some index) :
    ∃ phase, store.calls index = some phase ∧
      (action = phase.next index ∨ action = .cancelStore index ∧ phase.Waits) := by
  cases action <;> cases own
  case capture =>
    obtain ⟨_, _, _, attempted, _⟩ := capture_cases step
    exact ⟨_, attempted, Or.inl rfl⟩
  case beginBackendWrite =>
    obtain ⟨_, _, _, captured, _⟩ := beginBackendWrite_cases step
    exact ⟨_, captured, Or.inl rfl⟩
  case lock =>
    obtain ⟨_, guarded, _⟩ := lock_cases step
    exact ⟨_, guarded, Or.inl rfl⟩
  case write =>
    obtain ⟨_, _, _, locked, _⟩ := write_cases step
    exact ⟨_, locked, Or.inl rfl⟩
  case finish =>
    obtain ⟨_, _, _, _, inserted, _⟩ := finish_cases step
    exact ⟨_, inserted, Or.inl rfl⟩
  case complete =>
    obtain ⟨_, _, _, finished, _⟩ := complete_cases step
    exact ⟨_, finished, Or.inl rfl⟩
  case fail =>
    obtain ⟨_, failed, _⟩ := fail_cases step
    exact ⟨_, failed, Or.inl rfl⟩
  case cancelStore =>
    obtain ⟨⟨snapshot, captured | guarded⟩, _⟩ := cancelStore_cases step
    · exact ⟨.captured snapshot, captured, Or.inr ⟨rfl, trivial⟩⟩
    · exact ⟨.guarded snapshot, guarded, Or.inr ⟨rfl, trivial⟩⟩

/-- Whether a call is past its write. -/
def HasWritten (store : MemoryStore) (index : Nat) : Prop :=
  store.calls index = some .inserted ∨ store.calls index = some .finished

theorem HasWritten.earlier {key : Nat} {phase : Option StorePhase} (wrote : after.HasWritten key)
    (calls : after.calls = Function.update store.calls index phase) (different : key ≠ index) :
    store.HasWritten key := by
  rw [HasWritten, calls] at wrote
  exact wrote.imp ((Function.update_of_ne different _ _).symm.trans ·)
    ((Function.update_of_ne different _ _).symm.trans ·)

/-- A call that is past its write can only go through. -/
theorem HasWritten.due (wrote : store.HasWritten index)
    (step : (memoryStore idOf).step store action = some (reply, after))
    (own : action.call = some index) :
    store.calls index = some .inserted ∧ action = .finish index ∨
      store.calls index = some .finished ∧ action = .complete index := by
  obtain ⟨phase, current, due⟩ := due_of_call step own
  rcases wrote with inserted | finished
  · obtain rfl := Option.some.inj (current.symm.trans inserted)
    exact Or.inl ⟨inserted, due.resolve_right fun cancelled => cancelled.2⟩
  · obtain rfl := Option.some.inj (current.symm.trans finished)
    exact Or.inr ⟨finished, due.resolve_right fun cancelled => cancelled.2⟩

/-- What a step leaves alone, and what it may do to the records. -/
structure Frame (store : MemoryStore) (action : MemoryAction) (after : MemoryStore) : Prop where
  calls : ∀ index < store.process.nextSave, action.call ≠ some index →
    after.calls index = store.calls index
  cleanups : ∀ index < store.nextCleanup, action.cleanup ≠ some index →
    after.cleanups index = store.cleanups index
  nextCleanup : store.nextCleanup ≤ after.nextCleanup
  edits : store.state.Edits after.state

/-- A step that belongs to no call. -/
theorem Frame.still (calls : after.calls = store.calls) (cleanups : after.cleanups = store.cleanups)
    (nextCleanup : after.nextCleanup = store.nextCleanup) (edits : store.state.Edits after.state) :
    store.Frame action after :=
  ⟨fun _ _ _ => by rw [calls], fun _ _ _ => by rw [cleanups], nextCleanup.ge, edits⟩

/-- A step of one `store_session` call. -/
theorem Frame.own {phase : Option StorePhase} (own : action.call = some index)
    (calls : after.calls = Function.update store.calls index phase)
    (cleanups : after.cleanups = store.cleanups)
    (nextCleanup : after.nextCleanup = store.nextCleanup) (edits : store.state.Edits after.state) :
    store.Frame action after := by
  refine ⟨fun key _ other => ?_, fun _ _ _ => by rw [cleanups], nextCleanup.ge, edits⟩
  rw [calls, Function.update_of_ne fun same => other (own.trans (congrArg some same.symm))]

/-- A step of one `cleanup_batch` call. -/
theorem Frame.clean {cleanup : Option Cleanup} (own : action.cleanup = some index)
    (calls : after.calls = store.calls)
    (cleanups : after.cleanups = Function.update store.cleanups index cleanup)
    (nextCleanup : after.nextCleanup = store.nextCleanup) (edits : store.state.Edits after.state) :
    store.Frame action after := by
  refine ⟨fun _ _ _ => by rw [calls], fun key _ other => ?_, nextCleanup.ge, edits⟩
  rw [cleanups, Function.update_of_ne fun same => other (own.trans (congrArg some same.symm))]

theorem edits_takeSource {save : Save} {heap : Heap} {state taken : MemoryState}
    {origin : Option Id} (replaced : save.takeSource heap state = .ok (origin, taken)) :
    state.Edits taken := by
  unfold Save.takeSource at replaced
  split at replaced
  · cases replaced
  split at replaced
  · cases replaced
    exact .refl
  · rename_i source _
    split at replaced
    · cases replaced
    · rename_i _ removal
      cases replaced
      have removed : state.Edits (state.remove source).2 := MemoryState.Edits.refl.remove source
      rwa [removal] at removed

theorem frame (step : (memoryStore idOf).step store action = some (reply, after)) :
    store.Frame action after := by
  cases action with
  | handle action =>
    obtain ⟨_, _, rfl⟩ := handle_cases step
    exact .still rfl rfl rfl .refl
  | loadSession cookie now later =>
    rcases loadSession_cases step with ⟨_, _, rfl⟩ | ⟨_, _, _, ⟨_, _, rfl⟩ |
      ⟨_, _, _, _, ⟨_, rfl⟩ | ⟨_, _, _, _, rfl⟩⟩⟩ <;> exact .still rfl rfl rfl .refl
  | storeSession key =>
    obtain ⟨process, _, ⟨_, _, rfl⟩ | ⟨_, rfl⟩⟩ := storeSession_cases step
    · exact .still rfl rfl rfl .refl
    · exact ⟨fun index used _ => Function.update_of_ne (Nat.ne_of_lt used) _ _, fun _ _ _ => rfl,
        le_rfl, .refl⟩
  | capture key =>
    obtain ⟨_, _, _, _, _, _, _, rfl⟩ := capture_cases step
    exact .own rfl rfl rfl rfl .refl
  | beginBackendWrite key =>
    obtain ⟨_, _, _, _, _, _, ⟨_, _, rfl⟩ | ⟨_, rfl⟩⟩ := beginBackendWrite_cases step <;>
      exact .own rfl rfl rfl rfl .refl
  | lock key =>
    obtain ⟨_, _, _, _, rfl⟩ := lock_cases step
    exact .own rfl rfl rfl rfl .refl
  | write key =>
    obtain ⟨_, _, _, _, _, ⟨_, _, rfl⟩ | ⟨_, _, _, replaced, _, rfl⟩⟩ := write_cases step
    · exact .own rfl rfl rfl rfl .refl
    · exact .own rfl rfl rfl rfl ((edits_takeSource replaced).insert _ _)
  | finish key =>
    obtain ⟨_, _, _, _, _, _, _, ⟨_, _, rfl⟩ | ⟨_, rfl⟩⟩ := finish_cases step
    · exact .own rfl rfl rfl rfl (.remove _ .refl)
    · exact .own rfl rfl rfl rfl .refl
  | complete key =>
    obtain ⟨_, _, _, _, _, _, _, rfl⟩ := complete_cases step
    exact .own rfl rfl rfl rfl .refl
  | fail key =>
    obtain ⟨_, _, _, rfl⟩ := fail_cases step
    exact .own rfl rfl rfl rfl .refl
  | cancelStore key =>
    obtain ⟨_, _, rfl⟩ := cancelStore_cases step
    exact .own rfl rfl rfl rfl .refl
  | destroySession key =>
    obtain ⟨_, _, rfl⟩ := destroySession_cases step
    exact .still rfl rfl rfl .refl
  | grantDelete key =>
    obtain ⟨_, _, rfl⟩ := grantDelete_cases step
    exact .still rfl rfl rfl .refl
  | removeRecord key =>
    obtain ⟨_, target, _, _, _, _, rfl⟩ := removeRecord_cases step
    exact .still rfl rfl rfl (.remove target .refl)
  | cancelDestroy key =>
    obtain ⟨_, _, _, rfl⟩ := cancelDestroy_cases step
    exact .still rfl rfl rfl .refl
  | clearStore =>
    obtain ⟨_, _, rfl⟩ := clearStore_cases step
    exact .still rfl rfl rfl (.clear .refl)
  | cleanupBatch limit now =>
    obtain ⟨_, _, rfl⟩ | ⟨_, _, ⟨_, _, rfl⟩ | ⟨_, rfl⟩⟩ := cleanupBatch_cases step
    · exact .still rfl rfl rfl .refl
    · exact .still rfl rfl rfl .refl
    · exact ⟨fun _ _ _ => rfl, fun index used _ => Function.update_of_ne (Nat.ne_of_lt used) _ _,
        Nat.le_succ _, .refl⟩
  | removeChunk key =>
    obtain ⟨_, _, _, _, rfl, ⟨_, _, rfl⟩ | ⟨_, _, rfl⟩⟩ := removeChunk_cases step <;>
      exact .clean rfl rfl rfl rfl (MemoryState.edits_removeExpired _ _ _)
  | cancelCleanup key =>
    obtain ⟨_, _, _, rfl⟩ := cancelCleanup_cases step
    exact .clean rfl rfl rfl rfl .refl

/-- The index of every reachable store mirrors its records. -/
theorem indexed_of_reachable (reachable : (memoryStore idOf).Reachable store) :
    store.state.Indexed := by
  obtain ⟨start, trace, initial, run⟩ := reachable
  obtain rfl : start = MemoryStore.initial := initial
  induction run with
  | refl => exact MemoryState.indexed_empty
  | tail _ step inductionHypothesis => exact inductionHypothesis.edits (frame step).edits

end MemoryStore

/-! ### The index -/

/-- The expiry index mirrors the records after any sequence of insertions, removals and clears of an
empty state, and so in every reachable store. -/
theorem expiry_index_mirrors_records (state : MemoryState)
    (reached : MemoryState.empty.Edits state ∨ ∃ idOf store,
      (memoryStore idOf).Reachable store ∧ store.state = state) : state.Mirrors := by
  rcases reached with edits | ⟨idOf, store, reachable, rfl⟩
  · exact (MemoryState.indexed_empty.edits edits).mirrors
  · exact (MemoryStore.indexed_of_reachable reachable).mirrors

/-- A record is updated with another expiry and then rotated: the index has its last expiry under its
last id only. -/
theorem expiry_index_mirrors_records_on_rotation : ∃ state : MemoryState,
    state.expiries.elements = [toLex (9, "second")] ∧ state.Mirrors := by
  have stored := Machine.run_replay (memoryStore some) .initial
    ([.handle (.new "first"), .handle (.setExpiry 0 5)] ++ MemoryAction.store 0 0 ++
      [.loadSession "first" 0 0, .handle (.setExpiry 1 9), .handle (.clone 1)] ++
        MemoryAction.store 1 1 ++ [.handle (.regenerate 2 "second")] ++ MemoryAction.store 2 2)
    (by decide)
  exact ⟨_, by decide, expiry_index_mirrors_records _ (Or.inr ⟨_, _, ⟨_, _, rfl, stored⟩, rfl⟩)⟩

end Saysion
