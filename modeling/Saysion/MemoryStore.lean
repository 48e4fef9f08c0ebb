/-
This file models `MemoryStore`: one step for each stretch of a call between two
accesses to shared cells, and one for a cancellation at each await point.

The write half of the store's lock is held across several steps only by
`store_session`; every other call takes the lock and releases it in one step,
which is why such a step needs no writer to be there. What a call has left to
do is its phase, kept under the index of its save.

Four fields are there for the proofs and no step reads them: `captured` keeps
what each call captured, `written` which call last wrote under an id, `births`
logs the record-creating writes, and `history` lists for each clone family the
ids its record has had, the loaded one or those of its successful saves, the
latest first.
-/

import Saysion.Descent
import Saysion.MemoryState
import Saysion.Machine
import Saysion.Process

namespace Saysion

/-- How far a `store_session` call is. The snapshot is its own until it is inserted; a failed call
has released the store's lock, and still has to drop its guard and its revision. -/
inductive StorePhase
  | attempted
  | captured (snapshot : Session)
  | guarded (snapshot : Session)
  | locked (snapshot : Session)
  | inserted
  | finished
  | failed (error : Error)
  deriving DecidableEq

/-- A `cleanup_batch` call between its chunks. -/
structure Cleanup where
  now : DateTime
  ids : List Id
  count : Nat
  deriving DecidableEq

/-- A process with a `MemoryStore`. -/
structure MemoryStore where
  process : Process
  state : MemoryState
  writer : Option Nat
  calls : Nat → Option StorePhase
  cleanups : Nat → Option Cleanup
  nextCleanup : Nat
  captured : Nat → Option SessionSnapshot
  written : Id → Option Nat
  births : List (Birth Id)
  history : Ref → List Id

/-- The steps of a process with a `MemoryStore`. The times are readings of the clock. -/
inductive MemoryAction
  | handle (action : HandleAction)
  | loadSession (cookie : Cookie) (now later : DateTime)
  | storeSession (index : Nat)
  | capture (index : Nat)
  | beginBackendWrite (index : Nat)
  | lock (index : Nat)
  | write (index : Nat)
  | finish (index : Nat)
  | complete (index : Nat)
  | fail (index : Nat)
  | cancelStore (index : Nat)
  | destroySession (index : Nat)
  | grantDelete (index : Nat)
  | removeRecord (index : Nat)
  | cancelDestroy (index : Nat)
  | clearStore
  | cleanupBatch (limit : UInt32) (now : DateTime)
  | removeChunk (index : Nat)
  | cancelCleanup (index : Nat)
  deriving DecidableEq, Repr

/-- The steps of a `store_session` call that goes through. -/
def MemoryAction.store (handle save : Nat) : List MemoryAction :=
  [.storeSession handle, .capture save, .beginBackendWrite save, .lock save, .write save,
    .finish save, .complete save]

def CLEANUP_BATCH_SIZE : Nat := 256

def MAX_CLEANUP_LIMIT : UInt32 := 10000

namespace Save

/-- What `store_session` checks under the lock, in its order; it answers the origin that it read
again. A save without an origin is not checked against the marker a second time. -/
def recheck (save : Save) (heap : Heap) (state : MemoryState) : Except Error (Option Id) :=
  match if save.origin = none then .ok none else save.source.persistenceOrigin heap with
  | .error error => .error error
  | .ok origin =>
    if save.source.isDestroyed heap then .error .sessionConflict
    else if origin.any (· ∉ state.records) then .error .sessionConflict
    else if origin ≠ some save.source.id ∧ save.source.id ∈ state.records then
      .error .sessionConflict
    else .ok origin

/-- The records after the checks, without the source of a rotation. -/
def takeSource (save : Save) (heap : Heap) (state : MemoryState) :
    Except Error (Option Id × MemoryState) :=
  match save.recheck heap state with
  | .error error => .error error
  | .ok origin =>
    match origin.filter (· ≠ save.source.id) with
    | none => .ok (origin, state)
    | some oldId =>
      match state.remove oldId with
      | (none, _) => .error .sessionConflict
      | (some _, taken) => .ok (origin, taken)

/-- The births that a write from an origin is. -/
def births (save : Save) : Option Id → List (Birth Id)
  | none => [.created save.source.id]
  | some origin => if origin = save.source.id then [] else [.rotated origin save.source.id]

theorem births_created (save : Save) : save.births none = [.created save.source.id] := rfl

theorem births_updated {save : Save} {origin : Id} (same : origin = save.source.id) :
    save.births (some origin) = [] := if_pos same

theorem births_rotated {save : Save} {origin : Id} (different : origin ≠ save.source.id) :
    save.births (some origin) = [.rotated origin save.source.id] := if_neg different

end Save

namespace MemoryStore

/-- An empty store in a process that has done nothing yet. -/
def initial : MemoryStore where
  process := .initial
  state := .empty
  writer := none
  calls _ := none
  cleanups _ := none
  nextCleanup := 0
  captured _ := none
  written _ := none
  births := []
  history _ := []

def setCall (store : MemoryStore) (index : Nat) (phase : Option StorePhase) : MemoryStore :=
  { store with calls := Function.update store.calls index phase }

/-! ### Loading -/

/-- `load_session`. The lock is read under, the record is copied into cells of its own, and
`validate_loaded` owns the copy. -/
def loadSession (idOf : Cookie → Option Id) (store : MemoryStore) (cookie : Cookie)
    (now later : DateTime) : Option (Reply × MemoryStore) :=
  match idOf cookie with
  | none => some (.error .cookieFormat, store)
  | some id =>
    if store.writer = none then
      match (store.state.records.lookup id).filter (!·.isExpired now) with
      | none => some (.missing, store)
      | some record =>
        let (snapshot, copied) := record.snapshot store.process.heap
        match snapshot.validateLoaded idOf copied false cookie later with
        | .error error => some (.error error, { store with process := { store.process with heap := copied } })
        | .ok none => some (.missing, { store with process := { store.process with heap := copied } })
        | .ok (some (loaded, heap)) =>
          some (.handle store.process.nextHandle,
            { store with
              process := (store.process.see loaded.id).addHandle loaded heap
              history := Function.update store.history loaded.family [loaded.id] })
    else none

/-! ### Storing -/

/-- `store_session` up to `persistence_attempt`. -/
def storeSession (store : MemoryStore) (index : Nat) : Option (Reply × MemoryStore) := do
  let (reply, process) ← store.process.attempt index
  match reply with
  | .save save => return (reply, { store.setCall save (some .attempted) with process })
  | _ => return (reply, { store with process })

/-- `persistence_snapshot`. -/
def capture (store : MemoryStore) (index : Nat) : Option (Reply × MemoryStore) :=
  match store.calls index with
  | some .attempted => do
    let save ← store.process.saves index
    let (snapshot, process) ← store.process.capturePersistence index
    return (.done,
      { store.setCall index (some (.captured snapshot)) with
        process
        captured := Function.update store.captured index
          (some (save.source.wire store.process.heap)) })
  | _ => none

/-- `begin_backend_write`, whose outcome is known once the call returns or fails. -/
def beginBackendWrite (store : MemoryStore) (index : Nat) : Option (Reply × MemoryStore) :=
  match store.calls index with
  | some (.captured snapshot) => do
    let (result, process) ← store.process.acquire index none false
    match result with
    | .error error => return (.done, { store.setCall index (some (.failed error)) with process })
    | .ok _ => return (.done, { store.setCall index (some (.guarded snapshot)) with process })
  | _ => none

/-- Acquire the write half of the lock. -/
def lock (store : MemoryStore) (index : Nat) : Option (Reply × MemoryStore) :=
  match store.calls index with
  | some (.guarded snapshot) =>
    if store.writer = none then
      some (.done, { store.setCall index (some (.locked snapshot)) with writer := some index })
    else none
  | _ => none

/-- The checks and the writes under the lock. The snapshot is marked as loaded and becomes the
record; a failed check releases the lock. -/
def write (store : MemoryStore) (index : Nat) : Option (Reply × MemoryStore) :=
  match store.calls index with
  | some (.locked snapshot) => do
    let save ← store.process.saves index
    match save.takeSource store.process.heap store.state with
    | .error error =>
      return (.done, { store.setCall index (some (.failed error)) with writer := none })
    | .ok (origin, taken) =>
      let started := if origin = some save.source.id then some store.process
        else store.process.dispatch index
      started.map fun process =>
        (.done,
          { store.setCall index (some .inserted) with
            process := { process with heap := snapshot.markPersisted process.heap }
            state := taken.insert save.source.id snapshot
            written := Function.update store.written save.source.id (some index)
            births := save.births origin ++ store.births })
  | _ => none

/-- `finish`, under the lock: a destroyed family takes the record back. -/
def finish (store : MemoryStore) (index : Nat) : Option (Reply × MemoryStore) :=
  match store.calls index with
  | some .inserted => do
    let save ← store.process.saves index
    let (result, process) ← store.process.finish index
    match result with
    | .error error =>
      return (.done,
        { store.setCall index (some (.failed error)) with
          process
          state := (store.state.remove save.source.id).2
          writer := none })
    | .ok _ => return (.done, { store.setCall index (some .finished) with process, writer := none })
  | _ => none

/-- The end of a successful call. -/
def complete (store : MemoryStore) (index : Nat) : Option (Reply × MemoryStore) :=
  match store.calls index with
  | some .finished => do
    let save ← store.process.saves index
    let (cookie, process) ← store.process.complete index
    return (.cookie cookie,
      { store.setCall index none with
        process
        history := Function.update store.history save.source.family
          (save.source.id :: store.history save.source.family) })
  | _ => none

/-- The end of a call that failed: its guard and its revision are dropped. -/
def fail (store : MemoryStore) (index : Nat) : Option (Reply × MemoryStore) :=
  match store.calls index with
  | some (.failed error) =>
    some (.error error, { store.setCall index none with process := store.process.abandon index })
  | _ => none

/-- The future of a call is dropped while it waits for the lifecycle mutex or for the store. -/
def cancelStore (store : MemoryStore) (index : Nat) : Option (Reply × MemoryStore) :=
  match store.calls index with
  | some (.captured _) | some (.guarded _) =>
    some (.done, { store.setCall index none with process := store.process.abandon index })
  | _ => none

/-! ### Destroying -/

/-- `destroy_session` up to the wait in `begin_delete`; it owns the handle. -/
def destroySession (store : MemoryStore) (index : Nat) : Option (Reply × MemoryStore) := do
  let (reply, process) ← store.process.requestDelete index
  return (reply, { store with process := process.dropHandle index })

def grantDelete (store : MemoryStore) (index : Nat) : Option (Reply × MemoryStore) := do
  let (reply, process) ← store.process.grantDelete index
  return (reply, { store with process })

/-- Remove the record under the lock; the call is done. -/
def removeRecord (store : MemoryStore) (index : Nat) : Option (Reply × MemoryStore) := do
  let deletion ← store.process.deletions index
  let target ← deletion.target
  if store.writer = none then
    return (.done,
      { store with
        process := store.process.dropDelete index
        state := (store.state.remove target).2 })
  else none

/-- The future of `destroy_session` is dropped while it waits for the mutex or for the store. -/
def cancelDestroy (store : MemoryStore) (index : Nat) : Option (Reply × MemoryStore) := do
  let _ ← store.process.deletions index
  return (.done, { store with process := store.process.dropDelete index })

/-! ### Clearing and cleaning -/

def clearStore (store : MemoryStore) : Option (Reply × MemoryStore) :=
  if store.writer = none then some (.done, { store with state := store.state.clear }) else none

/-- `cleanup_batch` up to the selection of its candidates. -/
def cleanupBatch (store : MemoryStore) (limit : UInt32) (now : DateTime) :
    Option (Reply × MemoryStore) :=
  if 1 ≤ limit ∧ limit ≤ MAX_CLEANUP_LIMIT then
    if store.writer = none then
      let ids := store.state.expiredCandidates now limit.toNat
      if ids = [] then some (.count 0, store)
      else
        some (.cleanup store.nextCleanup,
          { store with
            cleanups := Function.update store.cleanups store.nextCleanup (some { now, ids, count := 0 })
            nextCleanup := store.nextCleanup + 1 })
    else none
  else some (.error .cleanupLimit, store)

/-- Remove one chunk of candidates under the lock; the last one answers the count. -/
def removeChunk (store : MemoryStore) (index : Nat) : Option (Reply × MemoryStore) := do
  let cleanup ← store.cleanups index
  if store.writer = none then
    let (count, state) :=
      store.state.removeExpired cleanup.now (cleanup.ids.take CLEANUP_BATCH_SIZE)
    let ids := cleanup.ids.drop CLEANUP_BATCH_SIZE
    let total := cleanup.count + count
    if ids = [] then
      return (.count total,
        { store with state, cleanups := Function.update store.cleanups index none })
    else
      return (.done,
        { store with
          state
          cleanups := Function.update store.cleanups index
            (some { cleanup with ids, count := total }) })
  else none

def cancelCleanup (store : MemoryStore) (index : Nat) : Option (Reply × MemoryStore) := do
  let _ ← store.cleanups index
  return (.done, { store with cleanups := Function.update store.cleanups index none })

/-! ### The machine -/

def step (idOf : Cookie → Option Id) (store : MemoryStore) :
    MemoryAction → Option (Reply × MemoryStore)
  | .handle action => do
    let (reply, process) ← store.process.handleStep idOf action
    return (reply, { store with process })
  | .loadSession cookie now later => store.loadSession idOf cookie now later
  | .storeSession index => store.storeSession index
  | .capture index => store.capture index
  | .beginBackendWrite index => store.beginBackendWrite index
  | .lock index => store.lock index
  | .write index => store.write index
  | .finish index => store.finish index
  | .complete index => store.complete index
  | .fail index => store.fail index
  | .cancelStore index => store.cancelStore index
  | .destroySession index => store.destroySession index
  | .grantDelete index => store.grantDelete index
  | .removeRecord index => store.removeRecord index
  | .cancelDestroy index => store.cancelDestroy index
  | .clearStore => store.clearStore
  | .cleanupBatch limit now => store.cleanupBatch limit now
  | .removeChunk index => store.removeChunk index
  | .cancelCleanup index => store.cancelCleanup index

end MemoryStore

/-- A process with a `MemoryStore`. -/
def memoryStore (idOf : Cookie → Option Id) : Machine MemoryStore MemoryAction Reply where
  init store := store = .initial
  step store action := store.step idOf action

end Saysion
