/-
This file models the data cell that the clones of a session share: the values,
and the five fields of change tracking that live under the values' lock.

Every save captures the values together with the revision they have, under that
lock, and receives a `SaveRevision`. Acknowledging it records the revision as
persisted; dropping it instead records that the outcome is unknown. While saves
overlap, neither can tell which of them wrote last, so the whole cohort stays
dirty. The tokens themselves are in `Saysion/Session.lean`, where cells have
addresses; here a token is the revision it carries.
-/

import Mathlib.Data.Finmap

namespace Saysion

/-- The session id, Base64 text of a hash. -/
abbrev Id := String

/-- The value of the identifying cookie. -/
abbrev Cookie := String

/-- An instant, in nanoseconds since the Unix epoch. -/
abbrev DateTime := Int

/-- The session's values: raw JSON texts by key. -/
abbrev Values := Finmap fun _ : String => String

/-- The errors of the crate. `uncertainWrite` is a `SessionConflict` with a context, `cookieFormat`
is what the Base64 decoder reports, and `backend` is whatever a driver reports. -/
inductive Error
  | sessionConflict
  | uncertainWrite
  | cookieFormat
  | idMismatch
  | cleanupLimit
  | backend
  deriving DecidableEq, Repr

/-- The cell shared by the clones of a session. -/
structure SessionData where
  values : Values := ∅
  revision : UInt64 := 0
  persistedRevision : UInt64 := 0
  activeSaves : Nat := 0
  overlappingSaves : Bool := false
  uncertainSave : Bool := false
  deriving DecidableEq

namespace SessionData

/-- A cell that starts with these values and no history. -/
def ofValues (values : Values) : SessionData := { values }

/-- Insert a raw value. Storing the value that is there already is no edit. -/
def insertRaw (data : SessionData) (key value : String) : SessionData :=
  if data.values.lookup key = some value then data
  else
    { data with
      values := data.values.insert key value
      revision := data.revision + 1 }

/-- Remove an entry. Removing what is not there is no edit. -/
def remove (data : SessionData) (key : String) : SessionData :=
  if key ∈ data.values then
    { data with
      values := data.values.erase key
      revision := data.revision + 1 }
  else data

/-- The cell after `SaveRevision::capture`; the token carries `data.revision`. -/
def capture (data : SessionData) : SessionData :=
  { data with
    overlappingSaves := data.activeSaves ≠ 0
    uncertainSave := data.uncertainSave || data.activeSaves ≠ 0
    activeSaves := data.activeSaves + 1 }

/-- The cell after `SaveRevision::acknowledge`. -/
def acknowledge (data : SessionData) (revision : UInt64) : SessionData :=
  if data.overlappingSaves then
    { data with
      uncertainSave := true
      activeSaves := data.activeSaves - 1 }
  else
    { data with
      persistedRevision := revision
      uncertainSave := false
      activeSaves := data.activeSaves - 1 }

/-- The cell after an unacknowledged `SaveRevision` was dropped. -/
def release (data : SessionData) : SessionData :=
  { data with
    uncertainSave := true
    activeSaves := data.activeSaves - 1 }

/-- The cell after `reset_data_changed`. -/
def reset (data : SessionData) : SessionData :=
  { data with
    persistedRevision := data.revision
    uncertainSave := false }

/-- The cell after the in-place branch of `validate_loaded`. -/
def adopt (data : SessionData) : SessionData :=
  { data with
    persistedRevision := data.revision
    uncertainSave := false
    overlappingSaves := false }

/-- The data part of `data_changed`. -/
def changed (data : SessionData) : Bool :=
  data.uncertainSave || data.revision ≠ data.persistedRevision

theorem changed_eq_false {data : SessionData} :
    data.changed = false ↔ data.uncertainSave = false ∧ data.revision = data.persistedRevision := by
  simp [changed]

/-! ### What the operations leave alone -/

@[simp] theorem values_capture (data : SessionData) : data.capture.values = data.values := rfl

@[simp] theorem values_release (data : SessionData) : data.release.values = data.values := rfl

@[simp] theorem values_reset (data : SessionData) : data.reset.values = data.values := rfl

@[simp] theorem values_adopt (data : SessionData) : data.adopt.values = data.values := rfl

@[simp] theorem values_ofValues (values : Values) : (ofValues values).values = values := rfl

@[simp] theorem changed_ofValues (values : Values) : (ofValues values).changed = false := rfl

@[simp] theorem changed_adopt (data : SessionData) : data.adopt.changed = false := by
  simp [changed, adopt]

@[simp] theorem values_acknowledge (data : SessionData) (revision : UInt64) :
    (data.acknowledge revision).values = data.values := by
  unfold acknowledge
  split <;> rfl

end SessionData

end Saysion
