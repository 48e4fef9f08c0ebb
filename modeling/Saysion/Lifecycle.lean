/-
This file models the lifecycle mutex of a clone family and the guards that hold
it. A write guard is held across the backend's work; dropping it unsettled
records the outcome of a creation or rotation as uncertain, and from then on the
mutex hands out no guard of either kind.

The functions here run at the moment the mutex is acquired. Waiting for it is a
matter of the schedule: a step that acquires is taken only while the mutex is
free.
-/

import Saysion.Session

namespace Saysion

/-- A same-lineage write guard. Its state and destroy flag are those of `family`; the receipt
names the save it was made for, when that is a `SessionSave`. -/
structure WriteGuard where
  family : Ref
  receipt : Option Nat
  uncertainOnDrop : Bool
  settled : Bool := false
  deriving DecidableEq

namespace Heap

/-- `Lifecycle::write` and `Lifecycle::delete` lock the mutex and hand out a guard unless an
earlier outcome is uncertain. -/
def lock (heap : Heap) (ref : Ref) : Heap :=
  heap.setFamily ref { heap.families ref with locked := true }

/-- Release the mutex, recording uncertainty when it applies. -/
def unlock (heap : Heap) (ref : Ref) (uncertain : Bool) : Heap :=
  heap.setFamily ref
    { heap.families ref with
      locked := false
      uncertain := (heap.families ref).uncertain || uncertain }

end Heap

namespace Lifecycle

/-- `Lifecycle::write`, once the mutex was acquired. -/
def write (heap : Heap) (family : Ref) (receipt : Option Nat) (uncertainOnDrop : Bool) :
    Except Error (WriteGuard × Heap) :=
  if (heap.families family).uncertain then .error .uncertainWrite
  else if (heap.families family).destroy then .error .sessionConflict
  else .ok ({ family, receipt, uncertainOnDrop }, heap.lock family)

/-- `Lifecycle::delete`, once the mutex was acquired. -/
def delete (heap : Heap) (family : Ref) : Except Error Heap :=
  if (heap.families family).uncertain then .error .uncertainWrite else .ok (heap.lock family)

end Lifecycle

namespace WriteGuard

def isDestroyed (heap : Heap) (guard : WriteGuard) : Bool := (heap.families guard.family).destroy

def isFor (guard : WriteGuard) (receipt : Nat) : Bool := guard.receipt = some receipt

/-- `finish`: the backend has confirmed its outcome. -/
def finish (heap : Heap) (guard : WriteGuard) : Except Error Unit × WriteGuard :=
  (if guard.isDestroyed heap then .error .sessionConflict else .ok (), { guard with settled := true })

def requireCleanup (guard : WriteGuard) : WriteGuard := { guard with settled := false }

def confirmRemoved (guard : WriteGuard) : WriteGuard := { guard with settled := true }

/-- `SessionWriteGuard::drop`. -/
def drop (heap : Heap) (guard : WriteGuard) : Heap :=
  heap.unlock guard.family (!guard.settled && guard.uncertainOnDrop)

end WriteGuard

namespace Session

/-- `begin_guarded_write`, once the mutex was acquired. When the identity recheck fails the new
guard is dropped on the way out, which is what its `Drop` says. -/
def beginGuardedWrite (heap : Heap) (session : Session) (origin : Option Id)
    (receipt : Option Nat) (canOutliveFuture : Bool) : Except Error WriteGuard × Heap :=
  let canCreate := origin ≠ some session.id
  match Lifecycle.write heap session.family receipt (canCreate && canOutliveFuture) with
  | .error error => (.error error, heap)
  | .ok (guard, locked) =>
    if origin = none then (.ok guard, locked)
    else
      match session.persistenceOrigin locked with
      | .error error => (.error error, guard.drop locked)
      | .ok current =>
        if current = origin then (.ok guard, locked)
        else (.error .sessionConflict, guard.drop locked)

/-- `begin_backend_write`. -/
def beginBackendWrite (heap : Heap) (session : Session) (origin : Option Id)
    (canOutliveFuture : Bool) : Except Error WriteGuard × Heap :=
  session.beginGuardedWrite heap origin none canOutliveFuture

/-- `begin_delete` from the moment the mutex was acquired: the id to delete, under a guard. -/
def beginDelete (heap : Heap) (session : Session) : Except Error (Id × Heap) :=
  (Lifecycle.delete heap session.family).map fun locked => (session.deletionTarget locked, locked)

/-- A granted write found the lineage certain and not destroyed, and the marker where the save
expects it. -/
theorem beginGuardedWrite_ok {heap after : Heap} {session : Session} {origin : Option Id}
    {receipt : Option Nat} {canOutliveFuture : Bool} {guard : WriteGuard}
    (granted : session.beginGuardedWrite heap origin receipt canOutliveFuture =
      (.ok guard, after)) :
    (session.shared heap).uncertain = false ∧ session.isDestroyed heap = false ∧
      (origin ≠ none → session.persistedId heap = origin) ∧
      guard = { family := session.family, receipt,
                uncertainOnDrop := origin ≠ some session.id && canOutliveFuture } ∧
      after = heap.lock session.family := by
  unfold beginGuardedWrite Lifecycle.write at granted
  dsimp only at granted
  split at granted
  · cases granted
  · rename_i fresh locked written
    split at written
    · cases written
    · rename_i certain
      split at written
      · cases written
      · rename_i alive
        cases written
        refine ⟨by simpa [shared] using certain, by simpa [isDestroyed, shared] using alive, ?_⟩
        split at granted
        · rename_i unsaved
          cases granted
          exact ⟨fun saved => absurd unsaved saved, rfl, rfl⟩
        · split at granted
          · cases granted
          · rename_i current recheck
            split at granted
            · rename_i same
              cases granted
              obtain ⟨marker, _, _⟩ := persistenceOrigin_ok.mp recheck
              refine ⟨fun _ => ?_, rfl, rfl⟩
              rw [← same, ← marker]
              simp [persistedId, shared, Heap.lock]
            · cases granted

/-- A refused write leaves the heap as it was, or has taken and dropped a guard. -/
theorem beginGuardedWrite_error {heap after : Heap} {session : Session} {origin : Option Id}
    {receipt : Option Nat} {canOutliveFuture : Bool} {error : Error}
    (refused : session.beginGuardedWrite heap origin receipt canOutliveFuture =
      (.error error, after)) :
    after = heap ∨ after = (heap.lock session.family).unlock session.family
      (origin ≠ some session.id && canOutliveFuture) := by
  unfold beginGuardedWrite Lifecycle.write at refused
  dsimp only at refused
  split at refused
  · cases refused
    exact Or.inl rfl
  · rename_i fresh locked written
    split at written
    · cases written
    · split at written
      · cases written
      · cases written
        split at refused
        · cases refused
        · split at refused
          · cases refused
            exact Or.inr (by simp [WriteGuard.drop])
          · split at refused
            · cases refused
            · cases refused
              exact Or.inr (by simp [WriteGuard.drop])

/-- A granted deletion found the lineage certain. -/
theorem beginDelete_ok {heap after : Heap} {session : Session} {target : Id}
    (granted : session.beginDelete heap = .ok (target, after)) :
    (session.shared heap).uncertain = false ∧ after = heap.lock session.family ∧
      target = session.deletionTarget after := by
  unfold beginDelete Lifecycle.delete at granted
  split at granted
  · cases granted
  · rename_i certain
    simp only [Except.map, Except.ok.injEq, Prod.mk.injEq] at granted
    obtain ⟨rfl, rfl⟩ := granted
    exact ⟨by simpa [shared] using certain, rfl, rfl⟩

end Session

end Saysion
