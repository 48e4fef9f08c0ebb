/-
This file says what `store_session` of a server-side store is for: it is one
conditional write. All that a caller may know of such a store is a record map,
the expiry and the values by id. A handle creates its record under an id that is
free, writes over its own record, or puts it in the place of the one it rotates
from; otherwise it reports a conflict and nothing changes.

The second half is the part of a call that every store shares, from the attempt
to the guard, for a call with nothing else going on in its family.
-/

import Saysion.ProcessSteps

namespace Saysion

/-! ### The conditional write -/

/-- What a store holds, as far as a caller may know. -/
abbrev RecordMap := Id → Option SessionSnapshot

/-- What a call answers and leaves behind: the records, and the marker and the change tracking of
its session. -/
structure Outcome where
  reply : Reply
  records : RecordMap
  marker : Option Id
  tracking : SessionData

namespace Session

/-- Whether a save may take effect: as a creation, as an update, or as a rotation. -/
def MayStore (heap : Heap) (records : RecordMap) (session : Session) : Prop :=
  match session.persistedId heap with
  | none => session.fresh = true ∧ (session.shared heap).creationClaimed = false ∧
      records session.id = none
  | some marker =>
    if marker = session.id then records marker ≠ none
    else session.rotationFrom = some marker ∧ records marker ≠ none ∧ records session.id = none

instance (heap : Heap) (records : RecordMap) (session : Session) :
    Decidable (session.MayStore heap records) := by
  unfold MayStore
  split <;> infer_instance

/-- The records with the one of the session in the place of what its family has stored. -/
def stored (heap : Heap) (records : RecordMap) (session : Session) : RecordMap :=
  let others := match session.persistedId heap with
    | none => records
    | some marker => Function.update records marker none
  Function.update others session.id (some (session.wire heap))

/-- The change tracking of a session once its save was confirmed. -/
def confirmed (heap : Heap) (session : Session) : SessionData :=
  (session.sessionData heap).capture.acknowledge (session.sessionData heap).revision

/-- The change tracking of a session once its save was dropped. -/
def unconfirmed (heap : Heap) (session : Session) : SessionData :=
  (session.sessionData heap).capture.release

/-- What `store_session` does to a record map. A save that is refused before it starts captures
nothing. -/
def conditionalWrite (heap : Heap) (records : RecordMap) (session : Session) : Outcome :=
  if session.MayStore heap records then
    { reply := .cookie session.cookieValue
      records := session.stored heap records
      marker := some session.id
      tracking := session.confirmed heap }
  else
    { reply := .error .sessionConflict
      records
      marker := session.persistedId heap
      tracking := match session.persistenceOrigin heap with
        | .error _ => session.sessionData heap
        | .ok _ => session.unconfirmed heap }

end Session

/-! ### How a save ends -/

/-- How a save ends once it has its guard. -/
inductive Ending
  | written
  | revoked
  | failed (error : Error)
  deriving DecidableEq, Repr

/-- What a call leaves behind whose save ends in some way, with these records. -/
def Ending.outcome (heap : Heap) (session : Session) (records : RecordMap) : Ending → Outcome
  | written =>
    { reply := .cookie session.cookieValue
      records
      marker := some session.id
      tracking := session.confirmed heap }
  | revoked =>
    { reply := .cookie none
      records
      marker := session.persistedId heap
      tracking := session.unconfirmed heap }
  | failed error =>
    { reply := .error error
      records
      marker := session.persistedId heap
      tracking := session.unconfirmed heap }

/-- What a call leaves behind that is refused before it starts. -/
def Session.refused (heap : Heap) (records : RecordMap) (session : Session) : Outcome where
  reply := .error .sessionConflict
  records
  marker := session.persistedId heap
  tracking := session.sessionData heap

namespace Session

variable {heap : Heap} {records : RecordMap} {session : Session} {origin : Option Id}
  {error : Error}

/-- A save that may take effect may start. -/
theorem MayStore.granted (may : session.MayStore heap records) :
    session.persistenceOrigin heap = .ok (session.persistedId heap) := by
  refine persistenceOrigin_ok.mpr ⟨rfl, fun unsaved => ?_, fun saved => ?_⟩
  · unfold MayStore at may
    rw [unsaved] at may
    exact ⟨may.1, may.2.1⟩
  · obtain ⟨marker, same⟩ := Option.ne_none_iff_exists'.mp saved
    unfold MayStore at may
    rw [same] at may ⊢
    dsimp only at may
    split at may
    · rename_i own
      exact Or.inl (congrArg some own)
    · exact Or.inr may.1

theorem conditionalWrite_refused (refused : session.persistenceOrigin heap = .error error) :
    session.conditionalWrite heap records = session.refused heap records := by
  have may : ¬ session.MayStore heap records := fun may => by cases may.granted.symm.trans refused
  rw [conditionalWrite, if_neg may, refused]
  rfl

theorem conditionalWrite_written (may : session.MayStore heap records) :
    session.conditionalWrite heap records =
      Ending.written.outcome heap session (session.stored heap records) := if_pos may

theorem conditionalWrite_failed (granted : session.persistenceOrigin heap = .ok origin)
    (may : ¬ session.MayStore heap records) :
    session.conditionalWrite heap records =
      (Ending.failed .sessionConflict).outcome heap session records := by
  rw [conditionalWrite, if_neg may, granted]
  rfl

/-! ### What a granted save may find -/

/-- A creation may take effect when its id is free. -/
theorem mayStore_create (granted : session.persistenceOrigin heap = .ok none) :
    session.MayStore heap records ↔ records session.id = none := by
  obtain ⟨unsaved, allowed, _⟩ := persistenceOrigin_ok.mp granted
  unfold MayStore
  rw [unsaved]
  exact ⟨fun may => may.2.2, fun free => ⟨(allowed rfl).1, (allowed rfl).2, free⟩⟩

/-- An update may take effect when its record is there. -/
theorem mayStore_update (granted : session.persistenceOrigin heap = .ok (some session.id)) :
    session.MayStore heap records ↔ records session.id ≠ none := by
  obtain ⟨saved, _, _⟩ := persistenceOrigin_ok.mp granted
  unfold MayStore
  rw [saved]
  exact iff_of_eq (if_pos rfl)

/-- A rotation may take effect when its source is there and its target is free. -/
theorem mayStore_rotate {source : Id} (granted : session.persistenceOrigin heap = .ok (some source))
    (different : source ≠ session.id) :
    session.MayStore heap records ↔ records source ≠ none ∧ records session.id = none := by
  obtain ⟨saved, _, related⟩ := persistenceOrigin_ok.mp granted
  have rotates : session.rotationFrom = some source := by
    rcases related (by simp) with own | rotates
    · exact absurd (Option.some.inj own) different
    · exact rotates
  unfold MayStore
  rw [saved]
  dsimp only
  rw [if_neg different]
  exact ⟨fun may => may.2, fun free => ⟨rotates, free⟩⟩

theorem stored_create (granted : session.persistenceOrigin heap = .ok none) :
    session.stored heap records =
      Function.update records session.id (some (session.wire heap)) := by
  rw [stored, (persistenceOrigin_ok.mp granted).1]

theorem stored_update (granted : session.persistenceOrigin heap = .ok (some session.id)) :
    session.stored heap records =
      Function.update records session.id (some (session.wire heap)) := by
  rw [stored, (persistenceOrigin_ok.mp granted).1]
  exact Function.update_idem _ _ _

theorem stored_rotate {source : Id} (granted : session.persistenceOrigin heap = .ok (some source)) :
    session.stored heap records =
      Function.update (Function.update records source none) session.id
        (some (session.wire heap)) := by
  rw [stored, (persistenceOrigin_ok.mp granted).1]

/-- A refusal of the origin is always a conflict. -/
theorem persistenceOrigin_error (refused : session.persistenceOrigin heap = .error error) :
    error = .sessionConflict := by
  unfold persistenceOrigin at refused
  dsimp only at refused
  split at refused
  · cases refused
    rfl
  · split at refused
    · cases refused
      rfl
    · cases refused

end Session

/-! ### From the attempt to the guard -/

/-- A handle of a family that is neither destroyed nor uncertain, with no other call under its
guard. What it refers to is allocated. -/
structure Process.Offers (process : Process) (index : Nat) (session : Session) : Prop where
  handle : process.handles index = some session
  family : session.family < process.heap.nextFamily
  data : session.data < process.heap.nextCell
  unguarded : process.guards process.nextSave = none
  unlocked : (session.shared process.heap).locked = false
  certain : (session.shared process.heap).uncertain = false
  alive : session.isDestroyed process.heap = false

namespace Session

/-- The heap after a granted attempt: a creation has claimed its family. -/
def claimed (heap : Heap) (session : Session) (origin : Option Id) : Heap :=
  if origin = none then session.editShared heap fun family => { family with creationClaimed := true }
  else heap

/-- The heap under the guard of a save. -/
def opened (heap : Heap) (session : Session) (origin : Option Id) : Heap :=
  (session.persistenceSnapshot (session.claimed heap origin)).2.lock session.family

/-- The guard of a save of a native store. -/
def writeGuard (session : Session) (origin : Option Id) (canOutliveFuture : Bool) : WriteGuard where
  family := session.family
  receipt := none
  uncertainOnDrop := origin ≠ some session.id && canOutliveFuture

/-- The save of a session, once it has captured its snapshot. -/
def capturedSave (heap : Heap) (session : Session) (origin : Option Id) : Save where
  source := session
  origin
  snapshot := some (session.wire heap)
  revision := some ⟨session.data, (session.sessionData heap).revision⟩

variable {heap : Heap} {session : Session} {origin : Option Id}

theorem claimed_cells (heap : Heap) (session : Session) (origin : Option Id) :
    (session.claimed heap origin).cells = heap.cells := by
  unfold claimed
  split <;> rfl

theorem claimed_nextCell (heap : Heap) (session : Session) (origin : Option Id) :
    (session.claimed heap origin).nextCell = heap.nextCell := by
  unfold claimed
  split <;> rfl

theorem claimed_nextFamily (heap : Heap) (session : Session) (origin : Option Id) :
    (session.claimed heap origin).nextFamily = heap.nextFamily := by
  unfold claimed
  split <;> rfl

theorem claimed_families (heap : Heap) (session : Session) (origin : Option Id) :
    (session.claimed heap origin).families session.family =
      { session.shared heap with
        creationClaimed := (session.shared heap).creationClaimed || origin = none } := by
  unfold claimed
  split
  · rename_i unsaved
    simp [editShared, unsaved]
  · rename_i saved
    simp [shared, saved]

/-- The capture leaves the family alone. -/
theorem snapshot_families (heap : Heap) (session : Session) (origin : Option Id)
    (old : session.family < heap.nextFamily) :
    (session.persistenceSnapshot (session.claimed heap origin)).2.families session.family =
      { session.shared heap with
        creationClaimed := (session.shared heap).creationClaimed || origin = none } := by
  rw [← claimed_families]
  refine Heap.allocFamily_of_lt _ _ ?_
  rw [claimed_nextFamily]
  exact old

/-- Under the guard, the family of the session is locked, and otherwise claimed at most. -/
theorem opened_families (heap : Heap) (session : Session) (origin : Option Id)
    (old : session.family < heap.nextFamily) :
    (session.opened heap origin).families session.family =
      { session.shared heap with
        creationClaimed := (session.shared heap).creationClaimed || origin = none
        locked := true } := by
  unfold opened Heap.lock
  rw [Heap.setFamily_self, snapshot_families heap session origin old]

/-- The snapshot of a session leaves the allocated cells alone. -/
theorem snapshot_cells (heap : Heap) (session : Session) (origin : Option Id) {ref : Ref}
    (old : ref < heap.nextCell) :
    (session.snapshot (session.claimed heap origin)).2.cells ref = heap.cells ref := by
  refine (Heap.allocCell_of_lt _ _ ?_).trans (congrFun (session.claimed_cells heap origin) _)
  rw [Heap.allocFamily_nextCell, claimed_nextCell]
  exact old

/-- Under the guard, the data cell of the session is captured. -/
theorem opened_cells (heap : Heap) (session : Session) (origin : Option Id)
    (old : session.data < heap.nextCell) :
    (session.opened heap origin).cells session.data = (session.sessionData heap).capture := by
  show ((session.snapshot (session.claimed heap origin)).2.setCell session.data
    (((session.snapshot (session.claimed heap origin)).2.cells session.data).capture)).cells
      session.data = _
  rw [Heap.setCell_self, snapshot_cells heap session origin old]
  rfl

/-- Every allocated cell keeps its values under the guard. -/
theorem opened_values (heap : Heap) (session : Session) (origin : Option Id) {ref : Ref}
    (old : ref < heap.nextCell) :
    ((session.opened heap origin).cells ref).values = (heap.cells ref).values := by
  show (((session.snapshot (session.claimed heap origin)).2.setCell session.data
    (((session.snapshot (session.claimed heap origin)).2.cells session.data).capture)).cells
      ref).values = _
  by_cases same : ref = session.data
  · rw [same, Heap.setCell_self, SessionData.values_capture, ← same,
      snapshot_cells heap session origin old]
  · rw [Heap.setCell_of_ne _ _ _ same, snapshot_cells heap session origin old]

theorem opened_persistedId (heap : Heap) (session : Session) (origin : Option Id)
    (old : session.family < heap.nextFamily) :
    session.persistedId (session.opened heap origin) = session.persistedId heap := by
  rw [persistedId, shared, opened_families heap session origin old]
  rfl

theorem opened_isDestroyed (heap : Heap) (session : Session) (origin : Option Id)
    (old : session.family < heap.nextFamily) :
    session.isDestroyed (session.opened heap origin) = session.isDestroyed heap := by
  rw [isDestroyed, shared, opened_families heap session origin old]
  rfl

/-- A save with a source finds it again under its guard. -/
theorem persistenceOrigin_opened {source : Id}
    (granted : session.persistenceOrigin heap = .ok (some source))
    (old : session.family < heap.nextFamily) :
    session.persistenceOrigin (session.opened heap (some source)) = .ok (some source) := by
  obtain ⟨saved, _, related⟩ := persistenceOrigin_ok.mp granted
  have unmoved := (opened_persistedId heap session (some source) old).trans saved
  exact persistenceOrigin_ok.mpr ⟨unmoved, nofun, related⟩

/-- With nothing in its way, a granted attempt gets its guard. -/
theorem beginGuardedWrite_opened (granted : session.persistenceOrigin heap = .ok origin)
    (old : session.family < heap.nextFamily) (certain : (session.shared heap).uncertain = false)
    (alive : session.isDestroyed heap = false) (canOutliveFuture : Bool) :
    session.beginGuardedWrite (session.persistenceSnapshot (session.claimed heap origin)).2 origin
        none canOutliveFuture =
      (.ok (session.writeGuard origin canOutliveFuture), session.opened heap origin) := by
  have families := snapshot_families heap session origin old
  have settled : Lifecycle.write (session.persistenceSnapshot (session.claimed heap origin)).2
      session.family none (origin ≠ some session.id && canOutliveFuture) =
        .ok (session.writeGuard origin canOutliveFuture, session.opened heap origin) := by
    have calm : ((session.persistenceSnapshot (session.claimed heap origin)).2.families
        session.family).uncertain = false := (congrArg Family.uncertain families).trans certain
    have present : ((session.persistenceSnapshot (session.claimed heap origin)).2.families
        session.family).destroy = false := (congrArg Family.destroy families).trans alive
    unfold Lifecycle.write
    rw [if_neg (by simp [calm]), if_neg (by simp [present])]
    rfl
  unfold beginGuardedWrite
  dsimp only
  rw [settled]
  cases origin with
  | none => rfl
  | some source =>
    dsimp only
    rw [if_neg (by simp), persistenceOrigin_opened granted old]
    exact if_pos rfl

end Session

namespace Process

variable {process : Process} {index : Nat} {session : Session} {origin : Option Id}
  {error : Error} {canOutliveFuture : Bool}

/-- A process after a granted attempt. -/
def attempted (process : Process) (index : Nat) (session : Session) (origin : Option Id) :
    Process :=
  { (process.dropHandle index).setSave process.nextSave (some { source := session, origin }) with
    heap := session.claimed process.heap origin
    nextSave := process.nextSave + 1 }

/-- A process whose save is under its guard. -/
def guarded (process : Process) (index : Nat) (session : Session) (origin : Option Id)
    (canOutliveFuture : Bool) : Process :=
  { ((process.attempted index session origin).setSave process.nextSave
        (some (session.capturedSave process.heap origin))).setGuard process.nextSave
      (some (session.writeGuard origin canOutliveFuture)) with
    heap := session.opened process.heap origin }

namespace Offers

theorem attempt_refused (offers : process.Offers index session)
    (refused : session.persistenceOrigin process.heap = .error error) :
    process.attempt index = some (.error .sessionConflict, process.dropHandle index) := by
  obtain rfl := Session.persistenceOrigin_error refused
  simp [attempt, offers.handle, Session.persistenceAttempt, offers.alive, refused]

theorem attempt_granted (offers : process.Offers index session)
    (granted : session.persistenceOrigin process.heap = .ok origin) :
    process.attempt index =
      some (.save process.nextSave, process.attempted index session origin) := by
  have started : session.persistenceAttempt process.heap =
      .ok (origin, session.claimed process.heap origin) := by
    unfold Session.persistenceAttempt
    rw [if_neg (by simp [offers.alive]), granted]
    cases origin with
    | none =>
      have unclaimed := ((Session.persistenceOrigin_ok.mp granted).2.1 rfl).2
      simp [unclaimed, Session.claimed]
    | some source => rfl
  simp only [attempt, offers.handle, started, Option.bind_eq_bind, Option.bind_some]
  rfl

/-- The captured save, and the snapshot of its own that a record is made of. -/
theorem capture_attempted (offers : process.Offers index session) (origin : Option Id) :
    (process.attempted index session origin).capturePersistence process.nextSave =
      some ((session.snapshot (session.claimed process.heap origin)).1,
        { (process.attempted index session origin).setSave process.nextSave
            (some (session.capturedSave process.heap origin)) with
          heap := (session.persistenceSnapshot (session.claimed process.heap origin)).2 }) := by
  have found : (process.attempted index session origin).saves process.nextSave =
      some { source := session, origin } := Function.update_self _ _ _
  have wire : session.wire (session.claimed process.heap origin) = session.wire process.heap := by
    unfold Session.wire Session.sessionData
    rw [Session.claimed_cells]
  have revision : (session.capture (session.snapshot (session.claimed process.heap origin)).2).1 =
      ⟨session.data, (session.sessionData process.heap).revision⟩ := by
    unfold Session.capture Session.sessionData
    rw [Session.snapshot_cells process.heap session origin offers.data]
  simp only [capturePersistence, found, Option.bind_eq_bind, Option.bind_some, if_pos]
  show some (_, { (process.attempted index session origin).setSave process.nextSave
    (some (Save.mk session origin (some (session.wire (session.claimed process.heap origin)))
      (some (session.capture (session.snapshot (session.claimed process.heap origin)).2).1)
        false false false)) with
    heap := (session.persistenceSnapshot (session.claimed process.heap origin)).2 }) = _
  rw [wire, revision]
  rfl

theorem acquire_captured (offers : process.Offers index session)
    (granted : session.persistenceOrigin process.heap = .ok origin) (canOutliveFuture : Bool) :
    Process.acquire
        { (process.attempted index session origin).setSave process.nextSave
            (some (session.capturedSave process.heap origin)) with
          heap := (session.persistenceSnapshot (session.claimed process.heap origin)).2 }
        process.nextSave none canOutliveFuture =
      some (.ok (), process.guarded index session origin canOutliveFuture) := by
  have free : ((session.persistenceSnapshot (session.claimed process.heap origin)).2.families
      session.family).locked = false := by
    rw [Session.snapshot_families process.heap session origin offers.family]
    exact offers.unlocked
  have found : ((process.attempted index session origin).setSave process.nextSave
      (some (session.capturedSave process.heap origin))).saves process.nextSave =
        some (session.capturedSave process.heap origin) := Function.update_self _ _ _
  have granting : (session.capturedSave process.heap origin).source.beginGuardedWrite
      (session.persistenceSnapshot (session.claimed process.heap origin)).2
        (session.capturedSave process.heap origin).origin none canOutliveFuture =
      (.ok (session.writeGuard origin canOutliveFuture), session.opened process.heap origin) :=
    Session.beginGuardedWrite_opened granted offers.family offers.certain offers.alive
      canOutliveFuture
  simp only [acquire, found, Option.bind_eq_bind, Option.bind_some]
  rw [if_pos ⟨offers.unguarded, free⟩, granting]
  rfl

end Offers

end Process

/-! ### After the guard -/

namespace Session

variable {guard : WriteGuard}

/-- A confirmed save leaves its id as the marker. -/
theorem persistedId_confirmed (heap : Heap) (session : Session) (revision : SaveRevision)
    (related : session.persistedId heap = none ∨ session.persistedId heap = some session.id ∨
      session.rotationFrom = session.persistedId heap) (own : guard.family = session.family) :
    session.persistedId (guard.drop (revision.acknowledge (session.markPersisted heap))) =
      some session.id := by
  have marked : session.persistedId (session.markPersisted heap) = some session.id := by
    by_cases moves : session.persistedId heap = none ∨
        session.rotationFrom = session.persistedId heap
    · rw [markPersisted_of_moves moves, persistedId, shared, Heap.setFamily_self]
    · obtain ⟨saved, unrelated⟩ := not_or.mp moves
      rw [markPersisted_of_stale moves]
      exact (related.resolve_left saved).resolve_right unrelated
  rw [← marked]
  unfold persistedId shared WriteGuard.drop Heap.unlock
  rw [own, Heap.setFamily_self]
  rfl

/-- A dropped save leaves the marker where it was. -/
theorem persistedId_dropped (heap : Heap) (session : Session) (revision : SaveRevision)
    (own : guard.family = session.family) :
    session.persistedId (revision.drop (guard.drop heap)) = session.persistedId heap := by
  unfold persistedId shared SaveRevision.drop WriteGuard.drop Heap.unlock
  rw [Heap.setCell_families, own, Heap.setFamily_self]

theorem cells_confirmed (heap : Heap) (session : Session) (guard : WriteGuard)
    (revision : SaveRevision) :
    (guard.drop (revision.acknowledge (session.markPersisted heap))).cells revision.data =
      (heap.cells revision.data).acknowledge revision.revision := Function.update_self _ _ _

theorem cells_dropped (heap : Heap) (guard : WriteGuard) (revision : SaveRevision) :
    (revision.drop (guard.drop heap)).cells revision.data = (heap.cells revision.data).release :=
  Function.update_self _ _ _

/-- Neither end of a save touches any values. -/
theorem values_confirmed (heap : Heap) (session : Session) (guard : WriteGuard)
    (revision : SaveRevision) (ref : Ref) :
    ((guard.drop (revision.acknowledge (session.markPersisted heap))).cells ref).values =
      (heap.cells ref).values := by
  by_cases same : ref = revision.data
  · rw [same, cells_confirmed, SessionData.values_acknowledge]
  · exact congrArg SessionData.values (Function.update_of_ne same _ _)

theorem values_dropped (heap : Heap) (guard : WriteGuard) (revision : SaveRevision) (ref : Ref) :
    ((revision.drop (guard.drop heap)).cells ref).values = (heap.cells ref).values := by
  by_cases same : ref = revision.data
  · rw [same, cells_dropped, SessionData.values_release]
  · exact congrArg SessionData.values (Function.update_of_ne same _ _)

end Session

end Saysion
