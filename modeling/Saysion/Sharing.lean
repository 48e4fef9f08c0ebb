/-
This file models who shares the cells of a session: the handles, the captured
revisions and the guards that hold a reference to them. Every operation of
`Session`, of a revision and of a guard may be applied at any time, in any order
and to any of them, so that whatever history a session may have is among the
runs. What the operations of a store or of a request are made of is the same.

The lineage of an owner is there for the proofs and no step reads it: a clone
has the lineage of its original, and so do the revisions and guards that come
from it; a session with cells of its own starts a lineage.
-/

import Saysion.Lifecycle
import Saysion.Machine
import Saysion.Process

namespace Saysion

/-- A value that owns references, with its lineage. -/
structure Owned (Value : Type) where
  lineage : Nat
  value : Value

/-- The owners of shared cells. -/
structure Owners where
  heap : Heap
  handles : Nat → Option (Owned Session)
  revisions : Nat → Option (Owned SaveRevision)
  guards : Nat → Option (Owned WriteGuard)
  nextHandle : Nat
  nextRevision : Nat
  nextGuard : Nat

/-- The operations on a handle that keep its references. -/
inductive SessionEdit
  | regenerate (cookie : Cookie) (id : Id)
  | setExpiry (expiry : DateTime)
  | setCookieValue (cookie : Cookie)
  | insertRaw (key value : String)
  | remove (key : String)
  | resetDataChanged
  | destroy
  | persistenceAttempt
  | markPersisted

/-- The three ways to capture a save. -/
inductive CapturePath
  | persistenceSnapshot
  | immutableSnapshot
  | serializeBounded (fits : Bool)

/-- The operations on a write guard. -/
inductive GuardEdit
  | finish
  | requireCleanup
  | confirmRemoved

inductive ShareAction
  | new (cookie : Cookie) (id : Id)
  | deserialize (wire : SessionSnapshot)
  | clone (index : Nat)
  | drop (index : Nat)
  | edit (index : Nat) (edit : SessionEdit)
  | capture (index : Nat) (path : CapturePath)
  | acknowledge (index revision : Nat)
  | dropRevision (revision : Nat)
  | beginWrite (index : Nat) (origin : Option Id) (receipt : Option Nat) (canOutliveFuture : Bool)
  | beginDelete (index : Nat)
  | settle (guard : Nat) (edit : GuardEdit)
  | dropGuard (guard : Nat)
  | validateLoaded (index : Nat) (cookie : Cookie) (now : DateTime)

/-- The handle after an edit, and the cells. A refused attempt changes nothing. -/
def SessionEdit.apply (heap : Heap) (session : Session) : SessionEdit → Session × Heap
  | .regenerate cookie id => (session.regenerate heap cookie id, heap)
  | .setExpiry expiry => (session.setExpiry expiry, heap)
  | .setCookieValue cookie => (session.setCookieValue cookie, heap)
  | .insertRaw key value => (session, session.insertRaw heap key value)
  | .remove key => (session, session.remove heap key)
  | .resetDataChanged => session.resetDataChanged heap
  | .destroy => (session, session.destroy heap)
  | .persistenceAttempt =>
    match session.persistenceAttempt heap with
    | .error _ => (session, heap)
    | .ok (_, claimed) => (session, claimed)
  | .markPersisted => (session, session.markPersisted heap)

def GuardEdit.apply (heap : Heap) (guard : WriteGuard) : GuardEdit → WriteGuard
  | .finish => (guard.finish heap).2
  | .requireCleanup => guard.requireCleanup
  | .confirmRemoved => guard.confirmRemoved

namespace Owners

def initial : Owners where
  heap := .empty
  handles _ := none
  revisions _ := none
  guards _ := none
  nextHandle := 0
  nextRevision := 0
  nextGuard := 0

/-- The handles and the revisions with a reference to a data cell. -/
def strongCount (owners : Owners) (data : Ref) : Nat :=
  ((Finset.range owners.nextHandle).filter fun key =>
      (owners.handles key).any (·.value.data = data)).card +
    ((Finset.range owners.nextRevision).filter fun key =>
      (owners.revisions key).any (·.value.data = data)).card

def addHandle (owners : Owners) (lineage : Nat) (session : Session) (heap : Heap) : Owners :=
  { owners with
    heap
    handles := Function.update owners.handles owners.nextHandle (some ⟨lineage, session⟩)
    nextHandle := owners.nextHandle + 1 }

def setHandle (owners : Owners) (index : Nat) (handle : Option (Owned Session)) (heap : Heap) :
    Owners :=
  { owners with heap, handles := Function.update owners.handles index handle }

def addRevision (owners : Owners) (lineage : Nat) (revision : SaveRevision) (heap : Heap) : Owners :=
  { owners with
    heap
    revisions := Function.update owners.revisions owners.nextRevision (some ⟨lineage, revision⟩)
    nextRevision := owners.nextRevision + 1 }

def dropRevision (owners : Owners) (index : Nat) (heap : Heap) : Owners :=
  { owners with heap, revisions := Function.update owners.revisions index none }

def addGuard (owners : Owners) (lineage : Nat) (guard : WriteGuard) (heap : Heap) : Owners :=
  { owners with
    heap
    guards := Function.update owners.guards owners.nextGuard (some ⟨lineage, guard⟩)
    nextGuard := owners.nextGuard + 1 }

def setGuard (owners : Owners) (index : Nat) (guard : Option (Owned WriteGuard)) (heap : Heap) :
    Owners :=
  { owners with heap, guards := Function.update owners.guards index guard }

/-- A capture of a save. `persistence_snapshot` also makes a session of its own. -/
def capture (owners : Owners) (handle : Owned Session) : CapturePath → Option (Reply × Owners)
  | .persistenceSnapshot =>
    let ((snapshot, revision), heap) := handle.value.persistenceSnapshot owners.heap
    some (.save owners.nextRevision,
      (owners.addHandle owners.nextHandle snapshot heap).addRevision handle.lineage revision heap)
  | .immutableSnapshot =>
    let ((_, revision), heap) := handle.value.immutableSnapshot owners.heap
    some (.save owners.nextRevision, owners.addRevision handle.lineage revision heap)
  | .serializeBounded fits =>
    match handle.value.serializeBounded (fun wire => if fits then some wire else none)
        owners.heap with
    | none => some (.error .backend, owners)
    | some ((_, revision), heap) =>
      some (.save owners.nextRevision, owners.addRevision handle.lineage revision heap)

/-- `begin_guarded_write`, once the mutex was acquired. -/
def beginWrite (owners : Owners) (handle : Owned Session) (origin : Option Id)
    (receipt : Option Nat) (canOutliveFuture : Bool) : Option (Reply × Owners) :=
  if (handle.value.shared owners.heap).locked then none
  else
    match handle.value.beginGuardedWrite owners.heap origin receipt canOutliveFuture with
    | (.error error, heap) => some (.error error, { owners with heap })
    | (.ok guard, heap) => some (.done, owners.addGuard handle.lineage guard heap)

/-- `begin_delete` of a handle, once the mutex was acquired: its guard records nothing. -/
def beginDelete (owners : Owners) (handle : Owned Session) : Option (Reply × Owners) :=
  let destroyed := handle.value.destroy owners.heap
  if (handle.value.shared destroyed).locked then none
  else
    match handle.value.beginDelete destroyed with
    | .error error => some (.error error, { owners with heap := destroyed })
    | .ok (target, heap) =>
      some (.target target, owners.addGuard handle.lineage
        { family := handle.value.family, receipt := none, uncertainOnDrop := false } heap)

/-- `validate_loaded` consumes its handle; a session it makes starts a lineage. -/
def validateLoaded (idOf : Cookie → Option Id) (owners : Owners) (index : Nat)
    (handle : Owned Session) (cookie : Cookie) (now : DateTime) : Reply × Owners :=
  let rest := owners.setHandle index none owners.heap
  match handle.value.validateLoaded idOf owners.heap
      (1 < owners.strongCount handle.value.data) cookie now with
  | .error error => (.error error, rest)
  | .ok none => (.missing, rest)
  | .ok (some (loaded, heap)) =>
    (.handle owners.nextHandle, rest.addHandle owners.nextHandle loaded heap)

def step (idOf : Cookie → Option Id) (owners : Owners) : ShareAction → Option (Reply × Owners)
  | .new cookie id =>
    let (session, heap) := Session.new owners.heap cookie id
    some (.handle owners.nextHandle, owners.addHandle owners.nextHandle session heap)
  | .deserialize wire =>
    let (session, heap) := Session.deserialize owners.heap wire
    some (.handle owners.nextHandle, owners.addHandle owners.nextHandle session heap)
  | .clone index => do
    let handle ← owners.handles index
    return (.handle owners.nextHandle,
      owners.addHandle handle.lineage handle.value.clone owners.heap)
  | .drop index => do
    let _ ← owners.handles index
    return (.done, owners.setHandle index none owners.heap)
  | .edit index edit => do
    let handle ← owners.handles index
    let (edited, heap) := edit.apply owners.heap handle.value
    return (.done, owners.setHandle index (some { handle with value := edited }) heap)
  | .capture index path => do
    let handle ← owners.handles index
    owners.capture handle path
  | .acknowledge index revision => do
    let handle ← owners.handles index
    let captured ← owners.revisions revision
    let heap := captured.value.acknowledge owners.heap
    let acknowledged := { handle with value := { handle.value with metadataChanged := false } }
    return (.done, (owners.setHandle index (some acknowledged) heap).dropRevision revision heap)
  | .dropRevision revision => do
    let captured ← owners.revisions revision
    return (.done, owners.dropRevision revision (captured.value.drop owners.heap))
  | .beginWrite index origin receipt canOutliveFuture => do
    let handle ← owners.handles index
    owners.beginWrite handle origin receipt canOutliveFuture
  | .beginDelete index => do
    let handle ← owners.handles index
    owners.beginDelete handle
  | .settle guard edit => do
    let held ← owners.guards guard
    return (.done,
      owners.setGuard guard (some { held with value := edit.apply owners.heap held.value })
        owners.heap)
  | .dropGuard guard => do
    let held ← owners.guards guard
    return (.done, owners.setGuard guard none (held.value.drop owners.heap))
  | .validateLoaded index cookie now => do
    let handle ← owners.handles index
    return owners.validateLoaded idOf index handle cookie now

end Owners

/-- The owners of the cells of any number of sessions. -/
def sharing (idOf : Cookie → Option Id) : Machine Owners ShareAction Reply where
  init owners := owners = .initial
  step owners action := owners.step idOf action

end Saysion
