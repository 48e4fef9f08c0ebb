/-
This file is the library of record tables: what a store of records is for, over
any type of identities and of values, and with no word on how a store does it.

A table maps some identities to values and remembers which identities were ever
used. An identity is used for one record, from its insertion to its removal: it
may be written again while the record is there, and never after. So a record
that is there holds what was last written, and one that is gone was never
written or was removed for good.
-/

import Mathlib.Data.Set.Insert
import Saysion.Machine

namespace Saysion

/-- A table of records. An identity is spent once a record was inserted under it. -/
structure Records (Id Value : Type*) where
  present : Id → Option Value
  spent : Set Id
  present_spent : ∀ id, present id ≠ none → id ∈ spent

/-- What may happen to a table. A `miss` finds no record but one that is hidden from the reader. -/
inductive RecordEvent (Id Value : Type*)
  | quiet
  | read (id : Id) (value : Value)
  | miss (id : Id) (hidden : Value → Prop)
  | insert (id : Id) (value : Value)
  | update (id : Id) (value : Value)
  | rotate (source target : Id) (value : Value)
  | remove (ids : Set Id)

namespace RecordEvent

variable {Id Value : Type*}

/-- The event writes a value under an identity. -/
def Writes (id : Id) (value : Value) : RecordEvent Id Value → Prop
  | insert target written | update target written | rotate _ target written =>
    target = id ∧ written = value
  | _ => False

/-- The event removes the record of an identity, if there is one. -/
def Removes (id : Id) : RecordEvent Id Value → Prop
  | rotate source _ _ => source = id
  | remove ids => id ∈ ids
  | _ => False

/-- What a history, the latest event first, wrote last under an identity, and did not remove
since. -/
def Current (id : Id) (value : Value) (events : List (RecordEvent Id Value)) : Prop :=
  ∃ newer event older, events = newer ++ event :: older ∧ event.Writes id value ∧
    ∀ later ∈ newer, ¬ later.Removes id ∧ ∀ other, ¬ later.Writes id other

/-- A history never wrote under an identity, or removed its record and wrote none since. -/
def Vacant (id : Id) (events : List (RecordEvent Id Value)) : Prop :=
  (∀ event ∈ events, ∀ value, ¬ event.Writes id value) ∨
    ∃ newer event older, events = newer ++ event :: older ∧ event.Removes id ∧
      ∀ later ∈ newer, ∀ value, ¬ later.Writes id value

end RecordEvent

namespace Records

variable {Id Value : Type*} {records later : Records Id Value} {event : RecordEvent Id Value}
  {events : List (RecordEvent Id Value)} {id key : Id} {value other : Value}

@[ext]
theorem ext' (present : records.present = later.present) (spent : records.spent = later.spent) :
    records = later := by
  cases records
  cases later
  cases present
  cases spent
  rfl

/-! ### The operations -/

/-- The table before any insertion. -/
def empty : Records Id Value where
  present _ := none
  spent := ∅
  present_spent _ wrong := absurd rfl wrong

/-- Write a value, under a new identity or over the record of an old one. -/
def write [DecidableEq Id] (records : Records Id Value) (id : Id) (value : Value) :
    Records Id Value where
  present := Function.update records.present id (some value)
  spent := insert id records.spent
  present_spent key there := by
    by_cases same : key = id
    · exact Or.inl same
    · rw [Function.update_of_ne same] at there
      exact Or.inr (records.present_spent key there)

open scoped Classical in
/-- Remove the records of some identities, which stay spent. -/
noncomputable def remove (records : Records Id Value) (ids : Set Id) : Records Id Value where
  present id := if id ∈ ids then none else records.present id
  spent := records.spent
  present_spent id there := by
    split at there
    · exact absurd rfl there
    · exact records.present_spent id there

@[simp]
theorem present_write_self [DecidableEq Id] (records : Records Id Value) (id : Id) (value : Value) :
    (records.write id value).present id = some value := Function.update_self _ _ _

theorem present_write_of_ne [DecidableEq Id] (records : Records Id Value) (value : Value)
    (different : key ≠ id) : (records.write id value).present key = records.present key :=
  Function.update_of_ne different _ _

theorem present_write [DecidableEq Id] (records : Records Id Value) (id key : Id) (value : Value) :
    (records.write id value).present key = if key = id then some value else records.present key :=
  Function.update_apply _ _ _ _

@[simp]
theorem spent_write [DecidableEq Id] (records : Records Id Value) (id : Id) (value : Value) :
    (records.write id value).spent = insert id records.spent := rfl

theorem present_remove_of_mem (records : Records Id Value) {ids : Set Id} (member : id ∈ ids) :
    (records.remove ids).present id = none := if_pos member

theorem present_remove_of_notMem (records : Records Id Value) {ids : Set Id} (apart : id ∉ ids) :
    (records.remove ids).present id = records.present id := if_neg apart

theorem present_remove_singleton [DecidableEq Id] (records : Records Id Value) (id key : Id) :
    (records.remove {id}).present key = if id = key then none else records.present key := by
  split
  · rename_i same
    exact records.present_remove_of_mem same.symm
  · rename_i different
    exact records.present_remove_of_notMem fun wrong => different wrong.symm

@[simp]
theorem spent_remove (records : Records Id Value) (ids : Set Id) :
    (records.remove ids).spent = records.spent := rfl

/-! ### The events -/

variable [DecidableEq Id]

/-- How an event takes a table to the next. -/
inductive Step : Records Id Value → RecordEvent Id Value → Records Id Value → Prop
  | quiet (records : Records Id Value) : Step records .quiet records
  | read {records : Records Id Value} {id : Id} {value : Value} :
      records.present id = some value → Step records (.read id value) records
  | miss {records : Records Id Value} {id : Id} {hidden : Value → Prop} :
      (∀ value, records.present id = some value → hidden value) →
        Step records (.miss id hidden) records
  | insert {records : Records Id Value} {id : Id} {value : Value} : id ∉ records.spent →
      Step records (.insert id value) (records.write id value)
  | update {records : Records Id Value} {id : Id} {value : Value} : records.present id ≠ none →
      Step records (.update id value) (records.write id value)
  | rotate {records : Records Id Value} {source target : Id} {value : Value} :
      records.present source ≠ none → target ∉ records.spent →
        Step records (.rotate source target value) ((records.remove {source}).write target value)
  | remove (records : Records Id Value) (ids : Set Id) :
      Step records (.remove ids) (records.remove ids)

/-- The specification of a store of records. -/
def specification : Specification (Records Id Value) (RecordEvent Id Value) where
  init := empty
  next := Step

namespace Step

theorem written (step : records.Step event later) (writes : event.Writes id value) :
    later.present id = some value := by
  cases step with
  | quiet | read | miss | remove => exact writes.elim
  | insert | update | rotate =>
    obtain ⟨rfl, rfl⟩ := writes
    exact present_write_self _ _ _

/-- A record that is not written is that of before, unless it was removed. -/
theorem unwritten (step : records.Step event later) (kept : ∀ value, ¬ event.Writes id value) :
    event.Removes id ∧ later.present id = none ∨
      ¬ event.Removes id ∧ later.present id = records.present id := by
  cases step with
  | quiet | read | miss => exact Or.inr ⟨nofun, rfl⟩
  | insert | update =>
    exact Or.inr ⟨nofun, present_write_of_ne _ _ fun same => kept _ ⟨same.symm, rfl⟩⟩
  | @rotate source target value =>
    have apart : id ≠ target := fun same => kept value ⟨same.symm, rfl⟩
    by_cases same : source = id
    · refine Or.inl ⟨same, (present_write_of_ne _ _ apart).trans ?_⟩
      exact present_remove_of_mem _ same.symm
    · refine Or.inr ⟨same, (present_write_of_ne _ _ apart).trans ?_⟩
      exact present_remove_of_notMem _ fun wrong => same wrong.symm
  | remove ids =>
    by_cases member : id ∈ ids
    · exact Or.inl ⟨member, present_remove_of_mem _ member⟩
    · exact Or.inr ⟨member, present_remove_of_notMem _ member⟩

end Step

/-! ### Runs -/

/-- A record that is there holds what was written last, and was not removed since. -/
theorem current_of_present (run : specification.Run events records)
    (there : records.present id = some value) : RecordEvent.Current id value events := by
  induction run with
  | refl => cases there
  | @tail events event middle last before step inductionHypothesis =>
    have step : middle.Step event last := step
    by_cases writes : ∃ other, event.Writes id other
    · obtain ⟨other, writes⟩ := writes
      obtain rfl := Option.some.inj (there.symm.trans (step.written writes))
      exact ⟨[], event, events, rfl, writes, nofun⟩
    · have kept := not_exists.mp writes
      rcases step.unwritten kept with ⟨_, gone⟩ | ⟨stays, same⟩
      · cases gone.symm.trans there
      · obtain ⟨newer, write, older, split, writes, since⟩ :=
          inductionHypothesis (same.symm.trans there)
        refine ⟨event :: newer, write, older, congrArg (event :: ·) split, writes, ?_⟩
        exact List.forall_mem_cons.mpr ⟨⟨stays, kept⟩, since⟩

/-- An identity without a record was never written, or was removed and never written since. -/
theorem vacant_of_absent (run : specification.Run events records)
    (absent : records.present id = none) : RecordEvent.Vacant id events := by
  induction run with
  | refl => exact Or.inl nofun
  | @tail events event middle last before step inductionHypothesis =>
    have step : middle.Step event last := step
    have kept : ∀ value, ¬ event.Writes id value := by
      intro value writes
      cases absent.symm.trans (step.written writes)
    rcases step.unwritten kept with ⟨removes, _⟩ | ⟨_, same⟩
    · exact Or.inr ⟨[], event, events, rfl, removes, nofun⟩
    · rcases inductionHypothesis (same.symm.trans absent) with never |
        ⟨newer, removal, older, split, removes, since⟩
      · exact Or.inl (List.forall_mem_cons.mpr ⟨kept, never⟩)
      · exact Or.inr ⟨event :: newer, removal, older, congrArg (event :: ·) split, removes,
          List.forall_mem_cons.mpr ⟨kept, since⟩⟩

/-- What is read is what was written last. -/
theorem current_of_read (run : specification.Run events records)
    (step : records.Step (.read id value) later) : RecordEvent.Current id value events := by
  cases step with
  | read there => exact current_of_present run there

/-- What is missed is not there, or hidden. -/
theorem vacant_of_miss {hidden : Value → Prop} (run : specification.Run events records)
    (step : records.Step (.miss id hidden) later) :
    RecordEvent.Vacant id events ∨ ∃ value, hidden value ∧ RecordEvent.Current id value events := by
  cases step with
  | miss stale =>
    cases there : records.present id with
    | none => exact Or.inl (vacant_of_absent run there)
    | some value => exact Or.inr ⟨value, stale value there, current_of_present run there⟩

end Records

end Saysion
