/-
This file proves that the expiry index of a `MemoryState` mirrors its records,
whatever sequence of operations led to it, and what a cleanup finds in it: its
candidates are the expired records that come first by expiry and id.
-/

import Mathlib
import Saysion.MemoryState

namespace Saysion

namespace MemoryState

/-- When the record under an id expires, if there is one and it does. -/
def deadline (state : MemoryState) (id : Id) : Option DateTime :=
  (state.records.lookup id).bind (·.expiry)

/-- The index has exactly the expiries of the records. -/
def Indexed (state : MemoryState) : Prop :=
  ∀ expiry id, toLex (expiry, id) ∈ state.expiries.elements ↔ state.deadline id = some expiry

/-- The index as a set is the set of the expiries of the records, each with the id of its record,
and lists none twice. -/
structure Mirrors (state : MemoryState) : Prop where
  entries : {entry | entry ∈ state.expiries.elements} = {entry | ∃ record,
    state.records.lookup (ofLex entry).2 = some record ∧ record.expiry = some (ofLex entry).1}
  nodup : state.expiries.elements.Nodup

/-- What the operations on records can make of a state. -/
inductive Edits (state : MemoryState) : MemoryState → Prop
  | refl : Edits state state
  | remove {middle : MemoryState} (id : Id) : Edits state middle → Edits state (middle.remove id).2
  | insert {middle : MemoryState} (id : Id) (session : Session) :
      Edits state middle → Edits state (middle.insert id session)
  | clear {middle : MemoryState} : Edits state middle → Edits state middle.clear

variable {state middle after : MemoryState} {now : DateTime}

/-! ### The index after an operation -/

theorem deadline_remove (state : MemoryState) (id key : Id) :
    (state.remove id).2.deadline key = if key = id then none else state.deadline key := by
  unfold deadline
  rw [lookup_remove]
  split <;> rfl

theorem deadline_insert (state : MemoryState) (id key : Id) (session : Session) :
    (state.insert id session).deadline key =
      if key = id then session.expiry else state.deadline key := by
  unfold deadline
  rw [lookup_insert]
  split <;> rfl

theorem indexed_empty : empty.Indexed := by
  intro expiry id
  constructor
  · intro member
    cases member
  · intro wrong
    cases wrong

theorem Indexed.remove (indexed : state.Indexed) (id : Id) : (state.remove id).2.Indexed := by
  intro expiry key
  rw [deadline_remove]
  unfold MemoryState.remove
  split
  · rename_i absent
    rw [indexed expiry key]
    split
    · rename_i same
      rw [same, deadline, absent]
      rfl
    · rfl
  · rename_i previous found
    have own : state.deadline id = previous.expiry := by
      rw [deadline, found]
      rfl
    dsimp only
    split
    · rename_i permanent
      rw [indexed expiry key]
      split
      · rename_i same
        rw [same, own, permanent]
      · rfl
    · rename_i former expires
      rw [OrderedSet.mem_erase, indexed expiry key]
      split
      · rename_i same
        subst same
        rw [own, expires]
        exact iff_of_false (fun both => both.1 (by rw [Option.some.inj both.2])) (by simp)
      · rename_i different
        refine and_iff_right fun same => different ?_
        exact (Prod.mk.inj (toLex_inj.mp same)).2

theorem Indexed.insert (indexed : state.Indexed) (id : Id) (session : Session) :
    (state.insert id session).Indexed := by
  intro expiry key
  have removed := indexed.remove id
  rw [deadline_insert]
  unfold MemoryState.insert
  dsimp only
  split
  · rename_i permanent
    rw [removed expiry key, deadline_remove, permanent]
  · rename_i newer expires
    rw [OrderedSet.mem_insert, removed expiry key, deadline_remove, expires]
    by_cases same : key = id
    · simp [same, eq_comm]
    · rw [if_neg same, if_neg same]
      refine or_iff_right fun equal => same ?_
      exact (Prod.mk.inj (toLex_inj.mp equal)).2

/-- The index mirrors the records after any sequence of operations. -/
theorem Indexed.edits (indexed : state.Indexed) (edits : state.Edits after) : after.Indexed := by
  induction edits with
  | refl => exact indexed
  | remove id _ inductionHypothesis => exact inductionHypothesis.remove id
  | insert id session _ inductionHypothesis => exact inductionHypothesis.insert id session
  | clear _ _ => exact indexed_empty

theorem Indexed.mirrors (indexed : state.Indexed) : state.Mirrors where
  entries := by
    ext entry
    exact (indexed (ofLex entry).1 (ofLex entry).2).trans Option.bind_eq_some_iff
  nodup := state.expiries.sorted.imp ne_of_lt

theorem Edits.trans (first : state.Edits middle) (second : middle.Edits after) :
    state.Edits after := by
  induction second with
  | refl => exact first
  | remove id _ inductionHypothesis => exact inductionHypothesis.remove id
  | insert id session _ inductionHypothesis => exact inductionHypothesis.insert id session
  | clear _ inductionHypothesis => exact inductionHypothesis.clear

/-! ### The expired records -/

/-- Whether the record under an id is expired at an instant; there may be none. -/
def expiredAt (state : MemoryState) (now : DateTime) (id : Id) : Bool :=
  (state.deadline id).any (· < now)

/-- The expired records, each with its expiry before its id. -/
def expired (state : MemoryState) (now : DateTime) : Finset (DateTime ×ₗ Id) :=
  state.records.keys.biUnion fun id =>
    ((state.deadline id).toFinset.filter (· < now)).image fun expiry => toLex (expiry, id)

theorem mem_expired {entry : DateTime ×ₗ Id} :
    entry ∈ state.expired now ↔
      state.deadline (ofLex entry).2 = some (ofLex entry).1 ∧ (ofLex entry).1 < now := by
  simp only [expired, Finset.mem_biUnion, Finset.mem_image, Finset.mem_filter, Option.mem_toFinset,
    Option.mem_def]
  constructor
  · rintro ⟨id, _, expiry, ⟨found, past⟩, rfl⟩
    exact ⟨found, past⟩
  · rintro ⟨found, past⟩
    refine ⟨_, ?_, _, ⟨found, past⟩, rfl⟩
    obtain ⟨record, lookup, _⟩ := Option.bind_eq_some_iff.mp found
    exact Finmap.mem_keys.mpr (Finmap.mem_iff.mpr ⟨record, lookup⟩)

theorem expiredAt_iff {id : Id} :
    state.expiredAt now id = true ↔ ∃ expiry, toLex (expiry, id) ∈ state.expired now := by
  simp only [expiredAt, Option.any_eq_true, mem_expired, decide_eq_true_eq]
  rfl

/-- Two expired records with one id are one. -/
theorem expired_injective {first second : DateTime ×ₗ Id} (left : first ∈ state.expired now)
    (right : second ∈ state.expired now) (same : (ofLex first).2 = (ofLex second).2) :
    first = second := by
  have left := (mem_expired.mp left).1
  rw [same, (mem_expired.mp right).1] at left
  exact toLex_inj.mp (Prod.ext (Option.some.inj left).symm same)

/-- The entries that are past come first in the index, and are the expired records. -/
theorem takeWhile_expiries (indexed : state.Indexed) (now : DateTime) :
    state.expiries.elements.takeWhile (fun entry => (ofLex entry).1 < now) =
      (state.expired now).sort := by
  have lower : ∀ first second : DateTime ×ₗ Id, first < second →
      decide ((ofLex second).1 < now) = true → decide ((ofLex first).1 < now) = true := by
    intro first second before past
    simp only [decide_eq_true_eq] at past ⊢
    exact (Prod.Lex.monotone_fst first second before.le).trans_lt past
  rw [OrderedSet.takeWhile_eq_filter _ _ lower]
  have members : (state.expiries.elements.filter fun entry => (ofLex entry).1 < now).toFinset =
      state.expired now := by
    ext entry
    rw [List.mem_toFinset, List.mem_filter, mem_expired, decide_eq_true_eq]
    exact and_congr_left fun _ => indexed (ofLex entry).1 (ofLex entry).2
  have sorted := state.expiries.sorted.filter fun entry => decide ((ofLex entry).1 < now)
  rw [← members]
  exact ((List.toFinset_sort (· ≤ ·) (sorted.imp ne_of_lt)).mpr (sorted.imp le_of_lt)).symm

/-- The candidates of a cleanup are the expired records that come first by expiry and id. -/
theorem expiredCandidates_eq (indexed : state.Indexed) (now : DateTime) (limit : Nat) :
    state.expiredCandidates now limit =
      ((state.expired now).sort.take limit).map fun entry => (ofLex entry).2 := by
  rw [expiredCandidates, ← takeWhile_expiries indexed, List.take_takeWhile]

theorem nodup_expiredCandidates (indexed : state.Indexed) (now : DateTime) (limit : Nat) :
    (state.expiredCandidates now limit).Nodup := by
  rw [expiredCandidates_eq indexed]
  refine List.Nodup.map_on (fun first left second right same => ?_)
    ((Finset.sort_nodup _ _).sublist (List.take_sublist _ _))
  exact expired_injective ((Finset.mem_sort _).mp (List.mem_of_mem_take left))
    ((Finset.mem_sort _).mp (List.mem_of_mem_take right)) same

theorem length_expiredCandidates (indexed : state.Indexed) (now : DateTime) (limit : Nat) :
    (state.expiredCandidates now limit).length = min limit (state.expired now).card := by
  rw [expiredCandidates_eq indexed, List.length_map, List.length_take, Finset.length_sort]

theorem expiredAt_of_candidate (indexed : state.Indexed) {limit : Nat} {id : Id}
    (candidate : id ∈ state.expiredCandidates now limit) : state.expiredAt now id = true := by
  rw [expiredCandidates_eq indexed] at candidate
  obtain ⟨entry, member, rfl⟩ := List.mem_map.mp candidate
  exact expiredAt_iff.mpr ⟨(ofLex entry).1, (Finset.mem_sort _).mp (List.mem_of_mem_take member)⟩

/-! ### What a cleanup removes -/

theorem removeExpired_cons (state : MemoryState) (now : DateTime) (id : Id) (rest : List Id) :
    state.removeExpired now (id :: rest) =
      if state.expiredAt now id then
        (((state.remove id).2.removeExpired now rest).1 + 1,
          ((state.remove id).2.removeExpired now rest).2)
      else state.removeExpired now rest := by
  have same : (state.records.lookup id).any (·.expiry.any (· < now)) = state.expiredAt now id := by
    unfold expiredAt deadline
    cases state.records.lookup id <;> rfl
  rw [removeExpired, same]

theorem expiredAt_remove (state : MemoryState) (now : DateTime) (id key : Id) :
    (state.remove id).2.expiredAt now key = (decide (key ≠ id) && state.expiredAt now key) := by
  unfold expiredAt
  rw [deadline_remove]
  by_cases same : key = id <;> simp [same]

theorem edits_removeExpired (state : MemoryState) (now : DateTime) (ids : List Id) :
    state.Edits (state.removeExpired now ids).2 := by
  induction ids generalizing state with
  | nil => exact .refl
  | cons id rest inductionHypothesis =>
    rw [removeExpired_cons]
    split
    · exact (Edits.refl.remove id).trans (inductionHypothesis _)
    · exact inductionHypothesis _

/-- Chunk after chunk is the same as all at once. -/
theorem removeExpired_append (state : MemoryState) (now : DateTime) (first second : List Id) :
    state.removeExpired now (first ++ second) =
      ((state.removeExpired now first).1 +
          ((state.removeExpired now first).2.removeExpired now second).1,
        ((state.removeExpired now first).2.removeExpired now second).2) := by
  induction first generalizing state with
  | nil => exact Prod.ext (Nat.zero_add _).symm rfl
  | cons id rest inductionHypothesis =>
    rw [List.cons_append, removeExpired_cons, removeExpired_cons]
    split
    · rw [inductionHypothesis]
      exact Prod.ext (Nat.add_right_comm _ _ _) rfl
    · exact inductionHypothesis _

/-- The candidates that are expired are removed, and nothing else changes. -/
theorem lookup_removeExpired_eq (state : MemoryState) (now : DateTime) (ids : List Id) (key : Id) :
    (state.removeExpired now ids).2.records.lookup key =
      if key ∈ ids ∧ state.expiredAt now key = true then none else state.records.lookup key := by
  induction ids generalizing state with
  | nil => simp [removeExpired]
  | cons id rest inductionHypothesis =>
    rw [removeExpired_cons]
    by_cases past : state.expiredAt now id = true
    · rw [if_pos past, inductionHypothesis, lookup_remove, expiredAt_remove]
      by_cases same : key = id
      · simp [same, past]
      · simp [same]
    · rw [if_neg past, inductionHypothesis]
      by_cases same : key = id
      · simp [same, past]
      · simp [same]

/-- The count is that of the records that are gone. -/
theorem removeExpired_fst (state : MemoryState) (now : DateTime) (ids : List Id) :
    (state.removeExpired now ids).1 + (state.removeExpired now ids).2.records.keys.card =
      state.records.keys.card := by
  induction ids generalizing state with
  | nil => exact Nat.zero_add _
  | cons id rest inductionHypothesis =>
    rw [removeExpired_cons]
    split
    · rename_i past
      have there : id ∈ state.records.keys := by
        obtain ⟨expiry, member⟩ := expiredAt_iff.mp past
        obtain ⟨record, lookup, _⟩ := Option.bind_eq_some_iff.mp (mem_expired.mp member).1
        exact Finmap.mem_keys.mpr (Finmap.mem_iff.mpr ⟨record, lookup⟩)
      have rest := inductionHypothesis (state.remove id).2
      rw [records_remove, Finmap.keys_erase, Finset.card_erase_of_mem there] at rest
      have positive := Finset.card_pos.mpr ⟨id, there⟩
      dsimp only
      omega
    · exact inductionHypothesis _

theorem removeExpired_fst_le (state : MemoryState) (now : DateTime) (ids : List Id) :
    (state.removeExpired now ids).1 ≤ ids.length := by
  induction ids generalizing state with
  | nil => exact le_rfl
  | cons id rest inductionHypothesis =>
    rw [removeExpired_cons]
    split
    · exact Nat.succ_le_succ (inductionHypothesis _)
    · exact (inductionHypothesis _).trans (Nat.le_succ _)

/-- While no candidate was renewed or removed, every candidate counts. -/
theorem removeExpired_fst_of_expired (state : MemoryState) (now : DateTime) (ids : List Id)
    (distinct : ids.Nodup) (past : ∀ id ∈ ids, state.expiredAt now id = true) :
    (state.removeExpired now ids).1 = ids.length := by
  induction ids generalizing state with
  | nil => rfl
  | cons id rest inductionHypothesis =>
    obtain ⟨absent, distinct⟩ := List.nodup_cons.mp distinct
    rw [removeExpired_cons, if_pos (past id List.mem_cons_self)]
    refine congrArg (· + 1) (inductionHypothesis _ distinct fun key member => ?_)
    have different : key ≠ id := fun same => absent (same ▸ member)
    rw [expiredAt_remove, past key (List.mem_cons_of_mem _ member)]
    simpa using different

theorem deadline_removeExpired (state : MemoryState) (now : DateTime) (ids : List Id) (key : Id) :
    (state.removeExpired now ids).2.deadline key =
      if key ∈ ids ∧ state.expiredAt now key = true then none else state.deadline key := by
  unfold deadline
  rw [lookup_removeExpired_eq]
  split <;> rfl

theorem expiredAt_removeExpired (state : MemoryState) (now : DateTime) (ids : List Id) (key : Id) :
    (state.removeExpired now ids).2.expiredAt now key =
      (decide (key ∉ ids) && state.expiredAt now key) := by
  have deadline := state.deadline_removeExpired now ids key
  by_cases candidate : key ∈ ids ∧ state.expiredAt now key = true
  · rw [if_pos candidate] at deadline
    rw [expiredAt, deadline]
    simp [candidate.1]
  · rw [if_neg candidate] at deadline
    rw [expiredAt, deadline, ← expiredAt]
    by_cases member : key ∈ ids
    · simpa [member] using candidate
    · simp [member]

/-- A removal of candidates leaves the other expired records. -/
theorem expired_removeExpired (indexed : state.Indexed) (now : DateTime) (limit : Nat) :
    (state.removeExpired now (state.expiredCandidates now limit)).2.expired now =
      state.expired now \ ((state.expired now).sort.take limit).toFinset := by
  ext entry
  have candidate : entry ∈ state.expired now →
      ((ofLex entry).2 ∈ state.expiredCandidates now limit ↔
        entry ∈ (state.expired now).sort.take limit) := by
    intro member
    rw [expiredCandidates_eq indexed, List.mem_map]
    constructor
    · rintro ⟨other, first, same⟩
      have listed := (Finset.mem_sort _).mp (List.mem_of_mem_take first)
      rwa [← expired_injective listed member same]
    · exact fun first => ⟨entry, first, rfl⟩
  rw [Finset.mem_sdiff, List.mem_toFinset, mem_expired, deadline_removeExpired]
  constructor
  · rintro ⟨found, past⟩
    split at found
    · cases found
    · rename_i spared
      have member : entry ∈ state.expired now := mem_expired.mpr ⟨found, past⟩
      refine ⟨member, fun first => spared ⟨(candidate member).mpr first, ?_⟩⟩
      exact expiredAt_iff.mpr ⟨_, member⟩
  · rintro ⟨member, spared⟩
    obtain ⟨found, past⟩ := mem_expired.mp member
    rw [if_neg fun both => spared ((candidate member).mp both.1)]
    exact ⟨found, past⟩

theorem card_expired_removeExpired (indexed : state.Indexed) (now : DateTime) (limit : Nat) :
    ((state.removeExpired now (state.expiredCandidates now limit)).2.expired now).card =
      (state.expired now).card - limit := by
  have subset : ((state.expired now).sort.take limit).toFinset ⊆ state.expired now := by
    intro entry member
    exact (Finset.mem_sort _).mp (List.mem_of_mem_take (List.mem_toFinset.mp member))
  have distinct := (Finset.sort_nodup (state.expired now) (· ≤ ·)).sublist
    (List.take_sublist limit _)
  rw [expired_removeExpired indexed, Finset.card_sdiff_of_subset subset,
    List.toFinset_card_of_nodup distinct, List.length_take, Finset.length_sort]
  omega

end MemoryState

end Saysion
