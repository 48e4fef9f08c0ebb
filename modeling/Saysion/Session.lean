/-
This file models `Session`: the handle a request holds, the cells its clones
share, and the crate-private operations a store builds a save from.

A clone copies the handle's own fields and shares five cells. `data` is a cell
of its own, because `validate_loaded` may keep it. The other four -- the
persisted id, the creation claim, the lifecycle mutex and the destroy flag --
are always allocated together and cloned together, so they are one `Family`,
and a clone family of the crate is the set of handles with one family
reference. Both kinds of cells live in a heap, and references are heap indices.

The cookie and the id it hashes to are parameters wherever they are used: what
`generate_cookie` draws is chosen by the caller of the model.
-/

import Saysion.SessionData

namespace Saysion

/-- The index of a heap cell. -/
abbrev Ref := Nat

/-- The cells that the clones of a session share besides the data: `persisted_id`,
`creation_claimed`, the lifecycle mutex with its content, and `destroy`. -/
structure Family where
  persistedId : Option Id := none
  creationClaimed : Bool := false
  uncertain : Bool := false
  locked : Bool := false
  destroy : Bool := false
  deriving DecidableEq

/-- The shared cells of a process. Indices from the two counters on are not yet allocated. -/
structure Heap where
  families : Ref → Family
  cells : Ref → SessionData
  nextFamily : Ref
  nextCell : Ref

/-- The handle of a session. -/
structure Session where
  id : Id
  expiry : Option DateTime
  data : Ref
  cookieValue : Option Cookie
  metadataChanged : Bool
  rotationFrom : Option Id
  fresh : Bool
  family : Ref
  deriving DecidableEq

/-- What a save writes: the serialized representation of a session. -/
structure SessionSnapshot where
  id : Id
  expiry : Option DateTime
  data : Values
  deriving DecidableEq

/-- A captured save's claim on change tracking. -/
structure SaveRevision where
  data : Ref
  revision : UInt64
  deriving DecidableEq

namespace Heap

/-- A heap without cells. -/
def empty : Heap where
  families _ := {}
  cells _ := {}
  nextFamily := 0
  nextCell := 0

/-- Overwrite the shared cells of a family. -/
def setFamily (heap : Heap) (ref : Ref) (family : Family) : Heap :=
  { heap with families := Function.update heap.families ref family }

/-- Overwrite a data cell. -/
def setCell (heap : Heap) (ref : Ref) (data : SessionData) : Heap :=
  { heap with cells := Function.update heap.cells ref data }

/-- Allocate the shared cells of a new family. -/
def allocFamily (heap : Heap) (family : Family) : Heap :=
  { heap with
    families := Function.update heap.families heap.nextFamily family
    nextFamily := heap.nextFamily + 1 }

/-- Allocate a data cell. -/
def allocCell (heap : Heap) (data : SessionData) : Heap :=
  { heap with
    cells := Function.update heap.cells heap.nextCell data
    nextCell := heap.nextCell + 1 }

/-! ### What the heap operations leave alone -/

section Frame

variable (heap : Heap) (ref : Ref)

@[simp] theorem setFamily_cells (family : Family) :
    (heap.setFamily ref family).cells = heap.cells := rfl

@[simp] theorem setFamily_nextFamily (family : Family) :
    (heap.setFamily ref family).nextFamily = heap.nextFamily := rfl

@[simp] theorem setFamily_nextCell (family : Family) :
    (heap.setFamily ref family).nextCell = heap.nextCell := rfl

@[simp] theorem setFamily_self (family : Family) :
    (heap.setFamily ref family).families ref = family := Function.update_self _ _ _

theorem setFamily_of_ne (family : Family) {other : Ref} (different : other ≠ ref) :
    (heap.setFamily ref family).families other = heap.families other :=
  Function.update_of_ne different _ _

@[simp] theorem setCell_families (data : SessionData) :
    (heap.setCell ref data).families = heap.families := rfl

@[simp] theorem setCell_nextFamily (data : SessionData) :
    (heap.setCell ref data).nextFamily = heap.nextFamily := rfl

@[simp] theorem setCell_nextCell (data : SessionData) :
    (heap.setCell ref data).nextCell = heap.nextCell := rfl

@[simp] theorem setCell_self (data : SessionData) :
    (heap.setCell ref data).cells ref = data := Function.update_self _ _ _

theorem setCell_of_ne (data : SessionData) {other : Ref} (different : other ≠ ref) :
    (heap.setCell ref data).cells other = heap.cells other :=
  Function.update_of_ne different _ _

@[simp] theorem allocFamily_cells (family : Family) :
    (heap.allocFamily family).cells = heap.cells := rfl

@[simp] theorem allocFamily_nextFamily (family : Family) :
    (heap.allocFamily family).nextFamily = heap.nextFamily + 1 := rfl

@[simp] theorem allocFamily_nextCell (family : Family) :
    (heap.allocFamily family).nextCell = heap.nextCell := rfl

@[simp] theorem allocFamily_self (family : Family) :
    (heap.allocFamily family).families heap.nextFamily = family := Function.update_self _ _ _

theorem allocFamily_of_lt (family : Family) {other : Ref} (old : other < heap.nextFamily) :
    (heap.allocFamily family).families other = heap.families other :=
  Function.update_of_ne (Nat.ne_of_lt old) _ _

@[simp] theorem allocCell_families (data : SessionData) :
    (heap.allocCell data).families = heap.families := rfl

@[simp] theorem allocCell_nextFamily (data : SessionData) :
    (heap.allocCell data).nextFamily = heap.nextFamily := rfl

@[simp] theorem allocCell_nextCell (data : SessionData) :
    (heap.allocCell data).nextCell = heap.nextCell + 1 := rfl

@[simp] theorem allocCell_self (data : SessionData) :
    (heap.allocCell data).cells heap.nextCell = data := Function.update_self _ _ _

theorem allocCell_of_lt (data : SessionData) {other : Ref} (old : other < heap.nextCell) :
    (heap.allocCell data).cells other = heap.cells other :=
  Function.update_of_ne (Nat.ne_of_lt old) _ _

end Frame

end Heap

namespace Session

/-! ### The shared cells of a handle -/

/-- The family cells of a handle. -/
def shared (heap : Heap) (session : Session) : Family := heap.families session.family

/-- The data cell of a handle. -/
def sessionData (heap : Heap) (session : Session) : SessionData := heap.cells session.data

/-- The persisted marker of a handle's family. -/
def persistedId (heap : Heap) (session : Session) : Option Id := (session.shared heap).persistedId

def isDestroyed (heap : Heap) (session : Session) : Bool := (session.shared heap).destroy

/-- Apply an edit to the data cell of a handle. -/
def editData (heap : Heap) (session : Session) (edit : SessionData → SessionData) : Heap :=
  heap.setCell session.data (edit (session.sessionData heap))

/-- Apply an edit to the family cells of a handle. -/
def editShared (heap : Heap) (session : Session) (edit : Family → Family) : Heap :=
  heap.setFamily session.family (edit (session.shared heap))

/-! ### The public operations on a handle -/

/-- `Session::new`, with the cookie it generated and the id the cookie hashes to. -/
def new (heap : Heap) (cookie : Cookie) (id : Id) : Session × Heap :=
  ({ id, expiry := none, data := heap.nextCell, cookieValue := some cookie,
     metadataChanged := false, rotationFrom := none, fresh := true, family := heap.nextFamily },
   (heap.allocFamily {}).allocCell {})

/-- The derived `Deserialize`: the wire fields, and the default of every skipped one. -/
def deserialize (heap : Heap) (wire : SessionSnapshot) : Session × Heap :=
  ({ id := wire.id, expiry := wire.expiry, data := heap.nextCell, cookieValue := none,
     metadataChanged := false, rotationFrom := none, fresh := false, family := heap.nextFamily },
   (heap.allocFamily {}).allocCell (.ofValues wire.data))

/-- `Session::clone`. The cookie value is not cloned; the metadata flag is copied, not shared. -/
def clone (session : Session) : Session := { session with cookieValue := none }

/-- `Session::regenerate`. The rotation source is inherited from the marker unless another
clone has superseded this handle. -/
def regenerate (heap : Heap) (session : Session) (cookie : Cookie) (id : Id) : Session :=
  let origin := session.persistedId heap
  { session with
    rotationFrom :=
      if origin = some session.id ∨ session.rotationFrom = origin then origin
      else session.rotationFrom
    id
    cookieValue := some cookie
    metadataChanged := true }

def insertRaw (heap : Heap) (session : Session) (key value : String) : Heap :=
  session.editData heap fun data => data.insertRaw key value

def remove (heap : Heap) (session : Session) (key : String) : Heap :=
  session.editData heap fun data => data.remove key

def setExpiry (session : Session) (expiry : DateTime) : Session :=
  if session.expiry = some expiry then session
  else { session with expiry := some expiry, metadataChanged := true }

def setCookieValue (session : Session) (cookie : Cookie) : Session :=
  if session.cookieValue = some cookie then session
  else { session with cookieValue := some cookie, metadataChanged := true }

def destroy (heap : Heap) (session : Session) : Heap :=
  session.editShared heap fun family => { family with destroy := true }

/-- Both halves of `reset_data_changed`: the shared cell, and the handle's own flag. -/
def resetDataChanged (heap : Heap) (session : Session) : Session × Heap :=
  ({ session with metadataChanged := false }, session.editData heap SessionData.reset)

def dataChanged (heap : Heap) (session : Session) : Bool :=
  session.metadataChanged || (session.sessionData heap).changed

/-- `is_expired` at a reading of the clock. -/
def isExpired (session : Session) (now : DateTime) : Bool :=
  session.expiry.any (· < now)

/-! ### Capturing a save -/

/-- The values of a handle as they are, with its id and expiry. -/
def wire (heap : Heap) (session : Session) : SessionSnapshot where
  id := session.id
  expiry := session.expiry
  data := (session.sessionData heap).values

/-- `snapshot_values`: an independent copy, in cells of its own. Only the destroy flag is
carried over. -/
def snapshotValues (heap : Heap) (session : Session) (values : Values) : Session × Heap :=
  ({ id := session.id, expiry := session.expiry, data := heap.nextCell, cookieValue := none,
     metadataChanged := false, rotationFrom := none, fresh := false, family := heap.nextFamily },
   (heap.allocFamily { destroy := session.isDestroyed heap }).allocCell (.ofValues values))

def snapshot (heap : Heap) (session : Session) : Session × Heap :=
  session.snapshotValues heap (session.sessionData heap).values

/-- `SaveRevision::capture` on the data cell of a handle. -/
def capture (heap : Heap) (session : Session) : SaveRevision × Heap :=
  ({ data := session.data, revision := (session.sessionData heap).revision },
   session.editData heap SessionData.capture)

def persistenceSnapshot (heap : Heap) (session : Session) : (Session × SaveRevision) × Heap :=
  let (snapshot, copied) := session.snapshot heap
  let (revision, captured) := session.capture copied
  ((snapshot, revision), captured)

def immutableSnapshot (heap : Heap) (session : Session) : (SessionSnapshot × SaveRevision) × Heap :=
  let (revision, captured) := session.capture heap
  ((session.wire heap, revision), captured)

/-- `serialize_bounded`. The encoder writes the payload into the buffer, or reports that the
buffer is too small before anything is captured. -/
def serializeBounded {Payload : Type} (encode : SessionSnapshot → Option Payload) (heap : Heap)
    (session : Session) : Option ((Payload × SaveRevision) × Heap) :=
  (encode (session.wire heap)).map fun payload =>
    let (revision, captured) := session.capture heap
    ((payload, revision), captured)

/-! ### Write authority -/

/-- `persistence_origin`: the marker, when it allows this handle to write. -/
def persistenceOrigin (heap : Heap) (session : Session) : Except Error (Option Id) :=
  let origin := session.persistedId heap
  if origin = none ∧ (!session.fresh || (session.shared heap).creationClaimed) then
    .error .sessionConflict
  else if origin ≠ none ∧ origin ≠ some session.id ∧ session.rotationFrom ≠ origin then
    .error .sessionConflict
  else .ok origin

/-- `persistence_attempt`: the origin of a save that may start, and the one-shot creation
claim when there is none. -/
def persistenceAttempt (heap : Heap) (session : Session) : Except Error (Option Id × Heap) :=
  if session.isDestroyed heap then .error .sessionConflict
  else
    match session.persistenceOrigin heap with
    | .error error => .error error
    | .ok (some origin) => .ok (some origin, heap)
    | .ok none =>
      if (session.shared heap).creationClaimed then .error .sessionConflict
      else .ok (none, session.editShared heap fun family => { family with creationClaimed := true })

/-- `mark_persisted`: a confirmed save moves the marker unless a rotation overtook it. -/
def markPersisted (heap : Heap) (session : Session) : Heap :=
  session.editShared heap fun family =>
    if family.persistedId = none ∨ session.rotationFrom = family.persistedId then
      { family with persistedId := some session.id }
    else family

/-- `validate_loaded`. `idOf` is `id_from_cookie_value`, and `aliased` tells whether the data
cell has another owner. -/
def validateLoaded (idOf : Cookie → Option Id) (heap : Heap) (session : Session)
    (aliased : Bool) (cookie : Cookie) (now : DateTime) :
    Except Error (Option (Session × Heap)) :=
  match idOf cookie with
  | none => .error .cookieFormat
  | some expected =>
    if session.id ≠ expected then .error .idMismatch
    else if session.isExpired now then .ok none
    else if session.isDestroyed heap then .error .sessionConflict
    else
      -- The four lifecycle cells are always new; an unaliased data cell is adopted in place.
      let (data, cells) :=
        if aliased then
          (heap.nextCell, heap.allocCell (.ofValues (session.sessionData heap).values))
        else (session.data, session.editData heap SessionData.adopt)
      .ok (some
        ({ session with
           data, cookieValue := none, metadataChanged := false, rotationFrom := none,
           fresh := false, family := heap.nextFamily },
         cells.allocFamily { persistedId := some session.id }))

/-- The id that `prepare_delete` and `begin_delete` select: the persisted source while the
handle may still write, otherwise its own id. -/
def deletionTarget (heap : Heap) (session : Session) : Id :=
  match session.persistenceOrigin heap with
  | .ok (some origin) => origin
  | _ => session.id

/-! ### When a handle may write -/

/-- A handle may write from its family's marker: from none when it is fresh and creation is
unclaimed, otherwise from its own id or its rotation source. -/
theorem persistenceOrigin_ok {heap : Heap} {session : Session} {origin : Option Id} :
    session.persistenceOrigin heap = .ok origin ↔
      session.persistedId heap = origin ∧
        (origin = none →
          session.fresh = true ∧ (session.shared heap).creationClaimed = false) ∧
        (origin ≠ none → origin = some session.id ∨ session.rotationFrom = origin) := by
  unfold persistenceOrigin
  dsimp only
  split
  · rename_i refused
    obtain ⟨unsaved, denied⟩ := refused
    rw [unsaved]
    constructor
    · intro wrong
      cases wrong
    · rintro ⟨rfl, allowed, _⟩
      obtain ⟨fresh, unclaimed⟩ := allowed rfl
      simp [fresh, unclaimed] at denied
  · rename_i allowed
    split
    · rename_i refused
      obtain ⟨saved, different, unrelated⟩ := refused
      constructor
      · intro wrong
        cases wrong
      · rintro ⟨rfl, _, related⟩
        exact absurd (related saved) (by simp [different, unrelated])
    · rename_i related
      constructor
      · intro equal
        cases equal
        refine ⟨rfl, fun unsaved => ?_, fun saved => ?_⟩
        · simpa [unsaved] using allowed
        · by_contra unrelated
          exact related ⟨saved, fun same => unrelated (Or.inl same),
            fun same => unrelated (Or.inr same)⟩
      · rintro ⟨rfl, _, _⟩
        rfl

/-- What a successful attempt was allowed by, and what it changed. -/
theorem persistenceAttempt_ok {heap after : Heap} {session : Session} {origin : Option Id}
    (attempted : session.persistenceAttempt heap = .ok (origin, after)) :
    session.isDestroyed heap = false ∧ session.persistenceOrigin heap = .ok origin ∧
      after = if origin = none then
          session.editShared heap fun family => { family with creationClaimed := true }
        else heap := by
  unfold persistenceAttempt at attempted
  split at attempted
  · cases attempted
  · rename_i alive
    refine ⟨by simpa using alive, ?_⟩
    split at attempted
    · cases attempted
    · rename_i source granted
      cases attempted
      exact ⟨granted, by simp⟩
    · rename_i granted
      split at attempted
      · cases attempted
      · cases attempted
        exact ⟨granted, by simp⟩

theorem persistenceAttempt_error_of_origin {heap : Heap} {session : Session} {error : Error}
    (refused : session.persistenceOrigin heap = .error error) :
    ∃ reason, session.persistenceAttempt heap = .error reason := by
  unfold persistenceAttempt
  split
  · exact ⟨_, rfl⟩
  · rw [refused]
    exact ⟨_, rfl⟩

/-- A save confirmed from the marker moves it to the save's id. -/
theorem markPersisted_of_moves {heap : Heap} {session : Session}
    (moves : session.persistedId heap = none ∨
      session.rotationFrom = session.persistedId heap) :
    session.markPersisted heap = heap.setFamily session.family
      { session.shared heap with persistedId := some session.id } :=
  congrArg (heap.setFamily session.family) (if_pos moves)

/-- A save confirmed after the marker has moved on changes nothing. -/
theorem markPersisted_of_stale {heap : Heap} {session : Session}
    (stale : ¬ (session.persistedId heap = none ∨
      session.rotationFrom = session.persistedId heap)) :
    session.markPersisted heap = heap :=
  calc session.markPersisted heap
    _ = heap.setFamily session.family (session.shared heap) :=
      congrArg (heap.setFamily session.family) (if_neg stale)
    _ = heap := congrArg (fun families => { heap with families }) (Function.update_eq_self _ _)

end Session

namespace SaveRevision

/-- `SaveRevision::acknowledge`. -/
def acknowledge (heap : Heap) (token : SaveRevision) : Heap :=
  heap.setCell token.data ((heap.cells token.data).acknowledge token.revision)

/-- `SaveRevision::drop`, when the token was not acknowledged. -/
def drop (heap : Heap) (token : SaveRevision) : Heap :=
  heap.setCell token.data (heap.cells token.data).release

end SaveRevision

end Saysion
