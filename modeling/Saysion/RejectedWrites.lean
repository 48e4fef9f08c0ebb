/-
This file decides when a rejected write attempt leaves a clone family as certain
as it was. `begin_guarded_write` may refuse before it has a guard, or in the
identity recheck, when it has one: that guard is dropped on the way out without
ever having been handed out, and its drop records a rotation as uncertain,
although nothing was sent.
-/

import Saysion.SessionSave

namespace Saysion

/-- Whether an outcome of the family of a session is recorded as uncertain. -/
def Session.isUncertain (heap : Heap) (session : Session) : Bool := (session.shared heap).uncertain

theorem Session.isUncertain_unlock (heap : Heap) (session : Session) (uncertain : Bool) :
    session.isUncertain ((heap.lock session.family).unlock session.family uncertain) =
      (session.isUncertain heap || uncertain) := by
  unfold isUncertain shared Heap.unlock Heap.lock
  rw [Heap.setFamily_self, Heap.setFamily_self]

/-- A refusal before the recheck changes nothing; one in the recheck drops a guard. -/
theorem Session.beginGuardedWrite_refused {heap after : Heap} {session : Session}
    {origin : Option Id} {receipt : Option Nat} {canOutliveFuture : Bool} {error : Error}
    (refused : session.beginGuardedWrite heap origin receipt canOutliveFuture =
      (.error error, after)) :
    (after = heap ∧ (session.isUncertain heap = true ∨ session.isDestroyed heap = true)) ∨
      (session.isUncertain heap = false ∧ session.isDestroyed heap = false ∧ origin ≠ none ∧
        after = (heap.lock session.family).unlock session.family
          (origin ≠ some session.id && canOutliveFuture)) := by
  unfold beginGuardedWrite Lifecycle.write at refused
  dsimp only at refused
  by_cases uncertain : (heap.families session.family).uncertain = true
  · rw [if_pos uncertain] at refused
    cases refused
    exact Or.inl ⟨rfl, Or.inl uncertain⟩
  rw [if_neg uncertain] at refused
  by_cases destroyed : (heap.families session.family).destroy = true
  · rw [if_pos destroyed] at refused
    cases refused
    exact Or.inl ⟨rfl, Or.inr destroyed⟩
  rw [if_neg destroyed] at refused
  refine Or.inr ⟨Bool.eq_false_iff.mpr uncertain, Bool.eq_false_iff.mpr destroyed, ?_⟩
  dsimp only at refused
  by_cases unsaved : origin = none
  · rw [if_pos unsaved] at refused
    cases refused
  rw [if_neg unsaved] at refused
  refine ⟨unsaved, ?_⟩
  split at refused
  · cases refused
    simp [WriteGuard.drop]
  · split at refused
    · cases refused
    · cases refused
      simp [WriteGuard.drop]

namespace Process

variable {idOf : Cookie → Option Id} {process after : Process} {index : Nat} {save : Save}
  {error : Error}

/-- What a refused acquisition does to the family of the save. -/
theorem isUncertain_acquire {receipt : Option Nat} {canOutliveFuture : Bool}
    (found : process.saves index = some save)
    (refused : process.acquire index receipt canOutliveFuture = some (.error error, after)) :
    save.source.isUncertain after.heap = save.source.isUncertain process.heap ↔
      save.source.isUncertain process.heap = true ∨ save.source.isDestroyed process.heap = true ∨
        save.origin = none ∨ save.origin = some save.source.id ∨ canOutliveFuture = false := by
  obtain ⟨other, lookup, _, _, ⟨_, heap, denied, _, rfl⟩ | ⟨_, _, _, wrong, _⟩⟩ :=
    acquire_cases refused
  swap
  · cases wrong
  obtain rfl := Option.some.inj (found.symm.trans lookup)
  rcases Session.beginGuardedWrite_refused denied with ⟨rfl, early⟩ |
    ⟨certain, alive, saved, rfl⟩
  · exact ⟨fun _ => early.imp_right Or.inl, fun _ => rfl⟩
  · show save.source.isUncertain ((process.heap.lock save.source.family).unlock _ _) = _ ↔ _
    rw [Session.isUncertain_unlock, certain, alive, Bool.false_or]
    by_cases own : save.origin = some save.source.id
    · simp [own]
    · simp [own, saved]

/-- The calls that ask for a guard, with the flag they pass on: `begin_backend_write` of a native
store, and `begin_write` of a token, from the mutex on. -/
def Rejected (idOf : Cookie → Option Id) (process : Process) (index : Nat)
    (canOutliveFuture : Bool) (after : Process) : Prop :=
  ∃ error, (sessionSave idOf).step process (.storeAcquire index canOutliveFuture) =
      some (.error error, after) ∨
    canOutliveFuture = true ∧
      (sessionSave idOf).step process (.acquireWrite index) = some (.error error, after)

end Process

/-- A rejected write attempt leaves the uncertainty of its family as it was exactly when it was set
already, or the family was destroyed, or the attempt was no rotation, or it could not outlive its
future. A second `begin_write` of a token changes nothing at all. -/
theorem rejected_write_keeps_certainty_iff (idOf : Cookie → Option Id) (process after : Process)
    (index : Nat) (save : Save) (found : process.saves index = some save) :
    (∀ canOutliveFuture, process.Rejected idOf index canOutliveFuture after →
      (save.source.isUncertain after.heap = save.source.isUncertain process.heap ↔
        save.source.isUncertain process.heap = true ∨ save.source.isDestroyed process.heap = true ∨
          save.origin = none ∨ save.origin = some save.source.id ∨ canOutliveFuture = false)) ∧
    ∀ error, (sessionSave idOf).step process (.beginWrite index) = some (.error error, after) →
      after = process := by
  constructor
  · rintro canOutliveFuture ⟨error, native | ⟨rfl, token⟩⟩
    · obtain ⟨result, acquire, ⟨_, rfl, _⟩ | ⟨_, wrong⟩⟩ := Process.finishReply_cases native
      · exact Process.isUncertain_acquire found acquire
      · cases wrong
    · obtain ⟨other, result, lookup, _, acquire, ⟨_, rfl, _⟩ | ⟨_, wrong⟩⟩ :=
        Process.acquireWrite_cases token
      · obtain rfl := Option.some.inj (found.symm.trans lookup)
        have still : (process.stopWaiting index save).saves index =
            some { save with waiting := false } := Function.update_self _ _ _
        exact @Process.isUncertain_acquire (process.stopWaiting index save) _ index
          { save with waiting := false } _ _ _ still acquire
      · cases wrong
  · intro error again
    obtain ⟨_, _, ⟨_, _, rfl⟩ | ⟨_, wrong, _⟩⟩ := Process.beginWrite_cases again
    · rfl
    · cases wrong

/-- A stale update is rejected, and the family stays as it was. -/
theorem rejected_write_keeps_certainty_of_update : ∃ (process after : Process) (save : Save),
    process.Rejected some 1 true after ∧
      save.source.isUncertain after.heap = save.source.isUncertain process.heap := by
  have rejected : (((sessionSave some).replay .initial
      [.handle (.new "first"), .handle (.clone 0), .handle (.clone 0), .prepareSave 0, .complete 0,
        .storeAttempt 1, .handle (.regenerate 2 "second"), .prepareSave 2, .complete 2]).get
          (by decide)).2.Rejected some 1 true _ := ⟨.sessionConflict, Or.inl rfl⟩
  exact ⟨_, _, _, rejected, ((rejected_write_keeps_certainty_iff some _ _ 1 _ rfl).1 true
    rejected).mpr (by decide)⟩

/-- Of two clones that rotate the same record, the loser is rejected, and the family of the winner
is uncertain from then on: a logout of the winner fails. -/
theorem rejected_rotation_leaves_uncertainty : ∃ (process after logout : Process) (save : Save),
    (sessionSave some).Reachable process ∧ process.saves 2 = some save ∧
      (sessionSave some).step process (.acquireWrite 2) = some (.error .sessionConflict, after) ∧
        save.source.isUncertain process.heap = false ∧ save.source.isUncertain after.heap = true ∧
          (sessionSave some).step after (.beginDelete 3) = some (.deletion 0, logout) ∧
            ∃ failed, (sessionSave some).step logout (.grantDelete 0) =
              some (.error .uncertainWrite, failed) := by
  have run := Machine.run_replay (sessionSave some) Process.initial
    [.handle (.new "first"), .handle (.clone 0), .handle (.clone 0), .prepareSave 0, .complete 0,
      .handle (.regenerate 1 "second"), .handle (.clone 1), .handle (.regenerate 2 "third"),
      .prepareSave 1, .prepareSave 2, .beginWrite 1, .acquireWrite 1, .completeWithGuard 1 1,
      .beginWrite 2] (by decide)
  exact ⟨_, _, _, _, ⟨_, _, rfl, run⟩, rfl, rfl, rfl, rfl, rfl, _, rfl⟩

end Saysion
