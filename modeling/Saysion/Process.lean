/-
This file models the part of a running process that every store shares: the
heap, the handles the application holds, the saves and deletions in progress,
and the guards they hold.

A `Save` is a save in progress, whether it is a `SessionSave` token or the
locals of a native `store_session`; the operations on it are the pieces both
are made of, in an order the store decides. The steps are as fine as the
accesses to shared cells, so that another task may run between any two of them.

Two fields are there for the proofs and are never read by a step that models
code, except that a drawn cookie must be new: `seen` lists every id that was
drawn or trusted, in order, and `dispatched` every id for which a
record-creating write was started.
-/

import Saysion.Lifecycle
import Saysion.Seniority

namespace Saysion

/-- What a call answers. -/
inductive Reply
  | done
  | handle (index : Nat)
  | save (index : Nat)
  | deletion (index : Nat)
  | target (id : Id)
  | cookie (value : Option Cookie)
  | missing
  | cleanup (index : Nat)
  | count (removed : Nat)
  | error (error : Error)
  deriving DecidableEq, Repr

/-- A save in progress. The snapshot and the revision are missing between the attempt and the
capture; `waiting` says that a future waits for the lifecycle mutex. -/
structure Save where
  source : Session
  origin : Option Id
  snapshot : Option SessionSnapshot := none
  revision : Option SaveRevision := none
  writeStarted : Bool := false
  waiting : Bool := false
  dispatched : Bool := false
  deriving DecidableEq

/-- Whether the save creates a record under its id: anything but an update. -/
def Save.Creates (save : Save) : Prop := save.origin ≠ some save.source.id

instance (save : Save) : Decidable save.Creates := inferInstanceAs (Decidable (_ ≠ _))

/-- A deletion in progress; with a target it holds the lifecycle mutex. -/
structure Deletion where
  session : Session
  target : Option Id := none
  deriving DecidableEq

/-- The request-local state of a process. -/
structure Process where
  heap : Heap
  handles : Nat → Option Session
  saves : Nat → Option Save
  guards : Nat → Option WriteGuard
  deletions : Nat → Option Deletion
  nextHandle : Nat
  nextSave : Nat
  nextDeletion : Nat
  seen : List Id
  dispatched : List Id

/-- The operations of an application on its handles. -/
inductive HandleAction
  | new (cookie : Cookie)
  | clone (index : Nat)
  | regenerate (index : Nat) (cookie : Cookie)
  | insertRaw (index : Nat) (key value : String)
  | remove (index : Nat) (key : String)
  | setExpiry (index : Nat) (expiry : DateTime)
  | setCookieValue (index : Nat) (cookie : Cookie)
  | resetDataChanged (index : Nat)
  | destroy (index : Nat)
  | drop (index : Nat)
  deriving DecidableEq, Repr

namespace Process

/-- A process that has done nothing yet. -/
def initial : Process where
  heap := .empty
  handles _ := none
  saves _ := none
  guards _ := none
  deletions _ := none
  nextHandle := 0
  nextSave := 0
  nextDeletion := 0
  seen := []
  dispatched := []

/-- The sessions something in the process still owns or borrows. -/
inductive Live (process : Process) : Session → Prop
  | handle {index : Nat} {session : Session} :
      process.handles index = some session → Live process session
  | save {index : Nat} {save : Save} : process.saves index = some save → Live process save.source
  | deletion {index : Nat} {deletion : Deletion} :
      process.deletions index = some deletion → Live process deletion.session

def addHandle (process : Process) (session : Session) (heap : Heap) : Process :=
  { process with
    heap
    handles := Function.update process.handles process.nextHandle (some session)
    nextHandle := process.nextHandle + 1 }

def setHandle (process : Process) (index : Nat) (session : Session) : Process :=
  { process with handles := Function.update process.handles index (some session) }

def dropHandle (process : Process) (index : Nat) : Process :=
  { process with handles := Function.update process.handles index none }

def setSave (process : Process) (index : Nat) (save : Option Save) : Process :=
  { process with saves := Function.update process.saves index save }

def setGuard (process : Process) (index : Nat) (guard : Option WriteGuard) : Process :=
  { process with guards := Function.update process.guards index guard }

def setDeletion (process : Process) (index : Nat) (deletion : Option Deletion) : Process :=
  { process with deletions := Function.update process.deletions index deletion }

/-! ### Handles -/

/-- A drawn cookie is well formed, and its id was never drawn or trusted before. -/
def draw (idOf : Cookie → Option Id) (process : Process) (cookie : Cookie) : Option Id :=
  (idOf cookie).filter (· ∉ process.seen)

def see (process : Process) (id : Id) : Process := { process with seen := enter process.seen id }

def handleStep (idOf : Cookie → Option Id) (process : Process) :
    HandleAction → Option (Reply × Process)
  | .new cookie => do
    let id ← process.draw idOf cookie
    let (session, heap) := Session.new process.heap cookie id
    return (.handle process.nextHandle, (process.see id).addHandle session heap)
  | .clone index => do
    let session ← process.handles index
    return (.handle process.nextHandle, process.addHandle session.clone process.heap)
  | .regenerate index cookie => do
    let session ← process.handles index
    let id ← process.draw idOf cookie
    return (.done,
      (process.see id).setHandle index (session.regenerate process.heap cookie id))
  | .insertRaw index key value => do
    let session ← process.handles index
    return (.done, { process with heap := session.insertRaw process.heap key value })
  | .remove index key => do
    let session ← process.handles index
    return (.done, { process with heap := session.remove process.heap key })
  | .setExpiry index expiry => do
    let session ← process.handles index
    return (.done, process.setHandle index (session.setExpiry expiry))
  | .setCookieValue index cookie => do
    let session ← process.handles index
    return (.done, process.setHandle index (session.setCookieValue cookie))
  | .resetDataChanged index => do
    let session ← process.handles index
    let (reset, heap) := session.resetDataChanged process.heap
    return (.done, { process.setHandle index reset with heap })
  | .destroy index => do
    let session ← process.handles index
    return (.done, { process with heap := session.destroy process.heap })
  | .drop index => do
    let _ ← process.handles index
    return (.done, process.dropHandle index)

/-! ### Saves -/

/-- `persistence_attempt` by the call that consumes a handle. A refused call drops it. -/
def attempt (process : Process) (index : Nat) : Option (Reply × Process) := do
  let session ← process.handles index
  match session.persistenceAttempt process.heap with
  | .error error => return (.error error, process.dropHandle index)
  | .ok (origin, heap) =>
    return (.save process.nextSave,
      { (process.dropHandle index).setSave process.nextSave (some { source := session, origin }) with
        heap
        nextSave := process.nextSave + 1 })

/-- `immutable_snapshot` for a save. -/
def captureImmutable (process : Process) (index : Nat) : Option Process := do
  let save ← process.saves index
  if save.revision = none then
    let ((snapshot, revision), heap) := save.source.immutableSnapshot process.heap
    return { process.setSave index
      (some { save with snapshot := some snapshot, revision := some revision }) with heap }
  else none

/-- `persistence_snapshot` for a save; also returns the snapshot session. -/
def capturePersistence (process : Process) (index : Nat) : Option (Session × Process) := do
  let save ← process.saves index
  if save.revision = none then
    let ((snapshot, revision), heap) := save.source.persistenceSnapshot process.heap
    return (snapshot, { process.setSave index
      (some { save with
              snapshot := some (save.source.wire process.heap), revision := some revision })
      with heap })
  else none

/-- `begin_guarded_write` for a save, at the moment the free mutex is acquired. -/
def acquire (process : Process) (index : Nat) (receipt : Option Nat) (canOutliveFuture : Bool) :
    Option (Except Error Unit × Process) := do
  let save ← process.saves index
  if process.guards index = none ∧ (save.source.shared process.heap).locked = false then
    match save.source.beginGuardedWrite process.heap save.origin receipt canOutliveFuture with
    | (.error error, heap) => return (.error error, { process with heap })
    | (.ok guard, heap) => return (.ok (), { process.setGuard index (some guard) with heap })
  else none

/-- Record that the save starts its record-creating write. -/
def dispatch (process : Process) (index : Nat) : Option Process := do
  let save ← process.saves index
  return { process.setSave index (some { save with dispatched := true }) with
    dispatched := save.source.id :: process.dispatched }

/-- `finish` on the guard of a save. -/
def finish (process : Process) (index : Nat) : Option (Except Error Unit × Process) := do
  let guard ← process.guards index
  let (result, settled) := guard.finish process.heap
  return (result, process.setGuard index (some settled))

def requireCleanup (process : Process) (index : Nat) : Option Process := do
  let guard ← process.guards index
  return process.setGuard index (some guard.requireCleanup)

def confirmRemoved (process : Process) (index : Nat) : Option Process := do
  let guard ← process.guards index
  return process.setGuard index (some guard.confirmRemoved)

/-- Drop the guard with this index, if there is one. -/
def dropGuard (process : Process) (index : Nat) : Process :=
  match process.guards index with
  | none => process
  | some guard => { process.setGuard index none with heap := guard.drop process.heap }

/-- Drop the save with this index, if there is one, with its unacknowledged revision. -/
def dropSave (process : Process) (index : Nat) : Process :=
  match process.saves index with
  | none => process
  | some save =>
    { process.setSave index none with
      heap := match save.revision with
        | none => process.heap
        | some revision => revision.drop process.heap }

/-- Everything a call drops on an early return or a cancellation, the guard first. -/
def abandon (process : Process) (index : Nat) : Process :=
  (process.dropGuard index).dropSave index

/-- `mark_persisted`, `acknowledge_revision` and `into_cookie_value` at the end of a save. -/
def acknowledge (process : Process) (index : Nat) : Option (Option Cookie × Process) := do
  let save ← process.saves index
  let revision ← save.revision
  return (save.source.cookieValue,
    { process.setSave index none with
      heap := revision.acknowledge (save.source.markPersisted process.heap) })

/-- The successful end of a guarded save; the guard is dropped last. -/
def complete (process : Process) (index : Nat) : Option (Option Cookie × Process) := do
  let (cookie, acknowledged) ← process.acknowledge index
  return (cookie, acknowledged.dropGuard index)

/-! ### Deletions -/

/-- The start of `begin_delete` on a handle: destruction is marked before any waiting. -/
def requestDelete (process : Process) (index : Nat) : Option (Reply × Process) := do
  let session ← process.handles index
  return (.deletion process.nextDeletion,
    { process.setDeletion process.nextDeletion (some { session }) with
      heap := session.destroy process.heap
      nextDeletion := process.nextDeletion + 1 })

/-- The end of `begin_delete`, at the moment the free mutex is acquired. -/
def grantDelete (process : Process) (index : Nat) : Option (Reply × Process) := do
  let deletion ← process.deletions index
  if deletion.target = none ∧ (deletion.session.shared process.heap).locked = false then
    match deletion.session.beginDelete process.heap with
    | .error error => return (.error error, process.setDeletion index none)
    | .ok (target, heap) =>
      return (.target target,
        { process.setDeletion index (some { deletion with target := some target }) with heap })
  else none

/-- Drop a deletion, and its guard when it has one. -/
def dropDelete (process : Process) (index : Nat) : Process :=
  match process.deletions index with
  | none => process
  | some deletion =>
    { process.setDeletion index none with
      heap := if deletion.target = none then process.heap
        else process.heap.unlock deletion.session.family false }

end Process

end Saysion
