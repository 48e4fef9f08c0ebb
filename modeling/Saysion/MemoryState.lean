/-
This file models `MemoryState`: the records of a `MemoryStore`, and the index of
their expiries that bounds a cleanup.

A record is a `Session`, so its values are behind a reference into the heap of
the process. Nothing here reads them.
-/

import Mathlib.Data.Prod.Lex
import Mathlib.Data.String.Basic
import Saysion.OrderedSet
import Saysion.Session

namespace Saysion

/-- The content of a `MemoryStore`, under its lock. -/
structure MemoryState where
  records : Finmap fun _ : Id => Session
  expiries : OrderedSet (DateTime ×ₗ Id)

namespace MemoryState

def empty : MemoryState := ⟨∅, .empty⟩

/-- Remove a record with its expiry entry, and return it. -/
def remove (state : MemoryState) (id : Id) : Option Session × MemoryState :=
  match state.records.lookup id with
  | none => (none, state)
  | some previous =>
    (some previous,
      { records := state.records.erase id
        expiries := match previous.expiry with
          | none => state.expiries
          | some expiry => state.expiries.erase (toLex (expiry, id)) })

/-- Insert a record with its expiry entry in the place of an earlier one. -/
def insert (state : MemoryState) (id : Id) (session : Session) : MemoryState :=
  let removed := (state.remove id).2
  { records := removed.records.insert id session
    expiries := match session.expiry with
      | none => removed.expiries
      | some expiry => removed.expiries.insert (toLex (expiry, id)) }

def clear (_ : MemoryState) : MemoryState := empty

/-- The ids of the oldest entries that expired before `now`, at most `limit` of them. -/
def expiredCandidates (state : MemoryState) (now : DateTime) (limit : Nat) : List Id :=
  ((state.expiries.elements.take limit).takeWhile fun entry => (ofLex entry).1 < now).map
    fun entry => (ofLex entry).2

/-- One chunk of `remove_expired_candidates`: remove the candidates that are still expired, and
count them. -/
def removeExpired (state : MemoryState) (now : DateTime) : List Id → Nat × MemoryState
  | [] => (0, state)
  | id :: rest =>
    if (state.records.lookup id).any (·.expiry.any (· < now)) then
      let (count, last) := (state.remove id).2.removeExpired now rest
      (count + 1, last)
    else state.removeExpired now rest

/-! ### The records after an operation -/

theorem records_remove (state : MemoryState) (id : Id) :
    (state.remove id).2.records = state.records.erase id := by
  unfold remove
  split
  · rename_i absent
    refine Finmap.ext_lookup fun key => ?_
    by_cases same : key = id
    · rw [same, Finmap.lookup_erase, absent]
    · rw [Finmap.lookup_erase_ne same]
  · rfl

theorem records_insert (state : MemoryState) (id : Id) (session : Session) :
    (state.insert id session).records = (state.records.erase id).insert id session := by
  rw [insert, records_remove]

theorem remove_fst (state : MemoryState) (id : Id) :
    (state.remove id).1 = state.records.lookup id := by
  unfold remove
  split
  · rename_i absent
    exact absent.symm
  · rename_i found
    exact found.symm

theorem lookup_remove (state : MemoryState) (id key : Id) :
    (state.remove id).2.records.lookup key =
      if key = id then none else state.records.lookup key := by
  rw [records_remove]
  split
  · rename_i same
    rw [same, Finmap.lookup_erase]
  · rename_i different
    rw [Finmap.lookup_erase_ne different]

theorem lookup_insert (state : MemoryState) (id key : Id) (session : Session) :
    (state.insert id session).records.lookup key =
      if key = id then some session else state.records.lookup key := by
  rw [records_insert]
  split
  · rename_i same
    rw [same, Finmap.lookup_insert]
  · rename_i different
    rw [Finmap.lookup_insert_of_ne _ different, Finmap.lookup_erase_ne different]

/-- A cleanup only removes. -/
theorem lookup_removeExpired (state : MemoryState) (now : DateTime) (ids : List Id) (key : Id)
    {session : Session} (found : (state.removeExpired now ids).2.records.lookup key = some session) :
    state.records.lookup key = some session := by
  induction ids generalizing state with
  | nil => exact found
  | cons id rest inductionHypothesis =>
    rw [removeExpired] at found
    split at found
    · have earlier := inductionHypothesis _ found
      rw [lookup_remove] at earlier
      split at earlier
      · cases earlier
      · exact earlier
    · exact inductionHypothesis _ found

end MemoryState

end Saysion
