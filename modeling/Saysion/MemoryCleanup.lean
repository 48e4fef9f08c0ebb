/-
This file proves that a cleanup of a `MemoryStore` removes expired records only,
whatever happens between the selection of its candidates and their removal, and
that it removes exactly the first of them when nothing does.

A candidate may be renewed, replaced or removed before its chunk is due. The
chunk looks at the record that is there by then, under the lock, so what counts
is that record. For a cleanup alone the chunks add up to one removal of all its
candidates, which the index lists in the order of their expiries.
-/

import Saysion.MemoryCalls

namespace Saysion

namespace MemoryStore

variable {idOf : Cookie → Option Id} {store middle after : MemoryStore} {reply : Reply}
  {action : MemoryAction} {index removed : Nat} {now : DateTime} {limit : UInt32}

/-- The records a step removes. -/
def lost (store after : MemoryStore) : Finset Id :=
  store.state.records.keys \ after.state.records.keys

/-- A run from the start of one cleanup, with the number of records that its chunks removed. -/
inductive Cleans (idOf : Cookie → Option Id) (index : Nat) (start : MemoryStore) :
    Nat → MemoryStore → Prop
  | refl : Cleans idOf index start 0 start
  | other {removed : Nat} {middle next : MemoryStore} {action : MemoryAction} {reply : Reply} :
      Cleans idOf index start removed middle →
        (memoryStore idOf).step middle action = some (reply, next) → action ≠ .removeChunk index →
          Cleans idOf index start removed next
  | chunk {removed : Nat} {middle next : MemoryStore} {reply : Reply} :
      Cleans idOf index start removed middle →
        (memoryStore idOf).step middle (.removeChunk index) = some (reply, next) →
          Cleans idOf index start (removed + (middle.lost next).card) next

/-! ### A cleanup among other calls -/

/-- The records a removal takes away are as many as it counts. -/
theorem card_lost (state : MemoryState) (now : DateTime) (ids : List Id) :
    (state.records.keys \ (state.removeExpired now ids).2.records.keys).card =
      (state.removeExpired now ids).1 := by
  have subset : (state.removeExpired now ids).2.records.keys ⊆ state.records.keys := by
    intro id member
    obtain ⟨record, found⟩ := Finmap.mem_iff.mp (Finmap.mem_keys.mp member)
    exact Finmap.mem_keys.mpr (Finmap.mem_iff.mpr
      ⟨record, MemoryState.lookup_removeExpired state now ids id found⟩)
  rw [Finset.card_sdiff_of_subset subset, ← state.removeExpired_fst now ids]
  exact Nat.add_sub_cancel _ _

/-- What a cleanup has left to do, after its chunks have removed so many records. -/
structure Cleaning (store : MemoryStore) (index : Nat) (now : DateTime) (limit removed : Nat) :
    Prop where
  used : index < store.nextCleanup
  cleanup : ∀ cleanup, store.cleanups index = some cleanup →
    cleanup.now = now ∧ cleanup.count = removed ∧ cleanup.count + cleanup.ids.length ≤ limit

theorem cleaning_of_start (start : store.cleanupBatch limit now = some (.cleanup index, after)) :
    after.Cleaning index now limit.toNat 0 := by
  rcases cleanupBatch_cases start with ⟨_, wrong, _⟩ | ⟨_, _, ⟨_, wrong, _⟩ | ⟨same, rfl⟩⟩
  · cases wrong
  · cases wrong
  cases same
  refine ⟨Nat.lt_succ_self _, fun cleanup found => ?_⟩
  have found : Function.update store.cleanups store.nextCleanup _ store.nextCleanup = some cleanup :=
    found
  rw [Function.update_self] at found
  cases found
  refine ⟨rfl, rfl, ?_⟩
  rw [Nat.zero_add, MemoryState.expiredCandidates, List.length_map]
  exact (List.takeWhile_sublist _).length_le.trans (List.length_take_le _ _)

/-- The steps of others leave a cleanup alone, or cancel it. -/
theorem Cleaning.other {bound : Nat} (cleaning : store.Cleaning index now bound removed)
    (step : (memoryStore idOf).step store action = some (reply, after))
    (other : action ≠ .removeChunk index) : after.Cleaning index now bound removed := by
  have frame := frame step
  refine ⟨cleaning.used.trans_le frame.nextCleanup, fun cleanup found => ?_⟩
  by_cases own : action.cleanup = some index
  · cases action <;> cases own
    · exact absurd rfl other
    · obtain ⟨_, _, _, rfl⟩ := cancelCleanup_cases step
      cases (Function.update_self index none store.cleanups).symm.trans found
  · exact cleaning.cleanup cleanup (frame.cleanups index cleaning.used own ▸ found)

/-- A chunk counts what it removes, and no more than it was given. -/
theorem Cleaning.chunk {bound : Nat} (cleaning : store.Cleaning index now bound removed)
    (step : store.removeChunk index = some (reply, after)) :
    after.Cleaning index now bound (removed + (store.lost after).card) ∧
      (∀ key, after.state.records.lookup key = store.state.records.lookup key ∨
        after.state.records.lookup key = none ∧ ∃ record expiry,
          store.state.records.lookup key = some record ∧ record.expiry = some expiry ∧ expiry < now) ∧
      ∀ total, reply = .count total →
        total = removed + (store.lost after).card ∧ total ≤ bound := by
  obtain ⟨cleanup, chunk, found, _, rfl, outcome⟩ := removeChunk_cases step
  obtain ⟨rfl, rfl, enough⟩ := cleaning.cleanup cleanup found
  have state : after.state =
      (store.state.removeExpired cleanup.now (cleanup.ids.take CLEANUP_BATCH_SIZE)).2 := by
    rcases outcome with ⟨_, _, rfl⟩ | ⟨_, _, rfl⟩ <;> rfl
  have counted : (store.lost after).card =
      (store.state.removeExpired cleanup.now (cleanup.ids.take CLEANUP_BATCH_SIZE)).1 := by
    rw [lost, state, card_lost]
  have bounded := store.state.removeExpired_fst_le cleanup.now (cleanup.ids.take CLEANUP_BATCH_SIZE)
  have split : (cleanup.ids.take CLEANUP_BATCH_SIZE).length +
      (cleanup.ids.drop CLEANUP_BATCH_SIZE).length = cleanup.ids.length := by
    rw [← List.length_append, List.take_append_drop]
  refine ⟨⟨cleaning.used.trans_le (Nat.le_of_eq ?_), fun next kept => ?_⟩, fun key => ?_,
    fun total answered => ?_⟩
  · rcases outcome with ⟨_, _, rfl⟩ | ⟨_, _, rfl⟩ <;> rfl
  · rcases outcome with ⟨_, _, rfl⟩ | ⟨_, _, rfl⟩
    · cases (Function.update_self index none store.cleanups).symm.trans kept
    · have kept : Function.update store.cleanups index _ index = some next := kept
      rw [Function.update_self] at kept
      cases kept
      refine ⟨rfl, by rw [counted]; rfl, ?_⟩
      show cleanup.count + _ + (cleanup.ids.drop CLEANUP_BATCH_SIZE).length ≤ bound
      omega
  · rw [state, MemoryState.lookup_removeExpired_eq]
    split
    · rename_i both
      obtain ⟨expiry, member⟩ := MemoryState.expiredAt_iff.mp both.2
      obtain ⟨deadline, past⟩ := MemoryState.mem_expired.mp member
      obtain ⟨record, lookup, expires⟩ := Option.bind_eq_some_iff.mp deadline
      exact Or.inr ⟨rfl, record, expiry, lookup, expires, past⟩
    · exact Or.inl rfl
  · rcases outcome with ⟨_, rfl, _⟩ | ⟨_, rfl, _⟩ <;> cases answered
    rw [counted]
    exact ⟨rfl, by omega⟩

/-- The run lemma: what is true of a cleanup at its start is true until it is over. -/
theorem cleaning_of_cleans {bound : Nat} (cleaning : store.Cleaning index now bound 0)
    (cleans : Cleans idOf index store removed after) : after.Cleaning index now bound removed := by
  induction cleans with
  | refl => exact cleaning
  | other _ step different inductionHypothesis => exact inductionHypothesis.other step different
  | chunk _ step inductionHypothesis => exact (inductionHypothesis.chunk step).1

/-! ### A cleanup alone -/

/-- The schedule in which nothing runs but one cleanup. -/
def onlyCleanup (index : Nat) (store : MemoryStore) : Option MemoryAction :=
  (store.cleanups index).map fun _ => .removeChunk index

/-- `cleanup_batch` with nothing between its steps: the count it answers, and what it leaves. -/
def cleanupAlone (idOf : Cookie → Option Id) (limit : UInt32) (now : DateTime)
    (store : MemoryStore) : Option (Nat × MemoryStore) := do
  let (reply, started) ← (memoryStore idOf).step store (.cleanupBatch limit now)
  match reply with
  | .count removed => return (removed, started)
  | .cleanup index =>
    let (trace, last) ← (memoryStore idOf).drive (onlyCleanup index) (limit.toNat + 2) started
    match trace.head? with
    | some (_, .count removed) => return (removed, last)
    | _ => none
  | _ => none

/-- One cleanup after the other. -/
def cleanupRepeatedly (idOf : Cookie → Option Id) (limit : UInt32) (now : DateTime) :
    Nat → MemoryStore → Option MemoryStore
  | 0, store => some store
  | rounds + 1, store => do
    let (_, last) ← store.cleanupAlone idOf limit now
    cleanupRepeatedly idOf limit now rounds last

/-- The store after a cleanup has removed some candidates and has this much left to do. -/
def cleaned (store : MemoryStore) (index : Nat) (now : DateTime) (ids : List Id)
    (cleanup : Option Cleanup) : MemoryStore :=
  { store with
    state := (store.state.removeExpired now ids).2
    cleanups := Function.update store.cleanups index cleanup }

theorem removeChunk_of_last (free : store.writer = none) {cleanup : Cleanup}
    (found : store.cleanups index = some cleanup)
    (last : cleanup.ids.drop CLEANUP_BATCH_SIZE = []) :
    (memoryStore idOf).step store (.removeChunk index) = some
      (.count (cleanup.count + (store.state.removeExpired cleanup.now cleanup.ids).1),
        store.cleaned index cleanup.now cleanup.ids none) := by
  have all : cleanup.ids.take CLEANUP_BATCH_SIZE = cleanup.ids :=
    List.take_of_length_le (List.drop_eq_nil_iff.mp last)
  show store.removeChunk index = _
  simp only [MemoryStore.removeChunk, found, Option.bind_eq_bind, Option.bind_some, if_pos free,
    if_pos last, all]
  rfl

theorem removeChunk_of_more (free : store.writer = none) {cleanup : Cleanup}
    (found : store.cleanups index = some cleanup)
    (more : cleanup.ids.drop CLEANUP_BATCH_SIZE ≠ []) :
    (memoryStore idOf).step store (.removeChunk index) = some
      (.done, store.cleaned index cleanup.now (cleanup.ids.take CLEANUP_BATCH_SIZE)
        (some (cleanup.rest store.state))) := by
  show store.removeChunk index = _
  simp only [MemoryStore.removeChunk, found, Option.bind_eq_bind, Option.bind_some, if_pos free,
    if_neg more]
  rfl

/-- The chunks of a cleanup alone add up to one removal of all its candidates. -/
theorem drive_onlyCleanup (free : store.writer = none) {cleanup : Cleanup} {fuel : Nat}
    (found : store.cleanups index = some cleanup) (enough : cleanup.ids.length < fuel) :
    ∃ earlier, (memoryStore idOf).drive (onlyCleanup index) (fuel + 1) store =
      some ((.removeChunk index,
          .count (cleanup.count + (store.state.removeExpired cleanup.now cleanup.ids).1)) :: earlier,
        store.cleaned index cleanup.now cleanup.ids none) := by
  induction fuel generalizing store cleanup with
  | zero => cases enough
  | succ fuel inductionHypothesis =>
    have chosen : onlyCleanup index store = some (.removeChunk index) := by
      rw [onlyCleanup, found]
      rfl
    by_cases last : cleanup.ids.drop CLEANUP_BATCH_SIZE = []
    · have quiet : onlyCleanup index (store.cleaned index cleanup.now cleanup.ids none) = none := by
        show (Function.update store.cleanups index none index).map _ = none
        rw [Function.update_self]
        rfl
      exact ⟨[], Machine.drive_of_step chosen (removeChunk_of_last free found last)
        (Machine.drive_of_done _ quiet)⟩
    · have shorter : (cleanup.ids.drop CLEANUP_BATCH_SIZE).length < fuel := by
        have nonempty : cleanup.ids.length ≠ 0 := by
          intro none
          rw [List.length_eq_zero_iff.mp none] at last
          exact last rfl
        rw [List.length_drop, CLEANUP_BATCH_SIZE]
        omega
      obtain ⟨earlier, rest⟩ := @inductionHypothesis
        (store.cleaned index cleanup.now (cleanup.ids.take CLEANUP_BATCH_SIZE)
          (some (cleanup.rest store.state))) free (cleanup.rest store.state)
        (Function.update_self _ _ _) shorter
      refine ⟨earlier ++ [(.removeChunk index, .done)], ?_⟩
      rw [Machine.drive_of_step chosen (removeChunk_of_more free found last) rest, List.cons_append]
      have together := store.state.removeExpired_append cleanup.now
        (cleanup.ids.take CLEANUP_BATCH_SIZE) (cleanup.ids.drop CLEANUP_BATCH_SIZE)
      rw [List.take_append_drop] at together
      rw [together]
      simp only [cleaned, Cleanup.rest, Function.update_idem, Nat.add_assoc, together]

/-- A cleanup alone removes its candidates, in one go as far as anyone can see. -/
theorem cleanupAlone_eq (idOf : Cookie → Option Id) (indexed : store.state.Indexed)
    (valid : 1 ≤ limit ∧ limit ≤ MAX_CLEANUP_LIMIT) (free : store.writer = none) (now : DateTime) :
    ∃ last, store.cleanupAlone idOf limit now =
        some (min limit.toNat (store.state.expired now).card, last) ∧
      last.writer = none ∧ last.state =
        (store.state.removeExpired now (store.state.expiredCandidates now limit.toNat)).2 := by
  have length := MemoryState.length_expiredCandidates indexed now limit.toNat
  have counted := store.state.removeExpired_fst_of_expired now
    (store.state.expiredCandidates now limit.toNat)
    (MemoryState.nodup_expiredCandidates indexed now limit.toNat)
    fun id candidate => MemoryState.expiredAt_of_candidate indexed candidate
  by_cases none : store.state.expiredCandidates now limit.toNat = []
  · have step : (memoryStore idOf).step store (.cleanupBatch limit now) = some (.count 0, store) := by
      show store.cleanupBatch limit now = _
      simp only [MemoryStore.cleanupBatch, if_pos valid, if_pos free, if_pos none]
    refine ⟨store, ?_, free, by rw [none]; rfl⟩
    rw [← length, none]
    simp only [cleanupAlone, step, Option.bind_eq_bind, Option.bind_some]
    rfl
  · have step : (memoryStore idOf).step store (.cleanupBatch limit now) =
        some (.cleanup store.nextCleanup, store.selected limit now) := by
      show store.cleanupBatch limit now = _
      simp only [MemoryStore.cleanupBatch, if_pos valid, if_pos free, if_neg none]
      rfl
    have enough : (store.state.expiredCandidates now limit.toNat).length < limit.toNat + 1 := by
      rw [length]
      omega
    obtain ⟨earlier, driven⟩ := @drive_onlyCleanup idOf (store.selected limit now) store.nextCleanup
      free { now, ids := store.state.expiredCandidates now limit.toNat, count := 0 } (limit.toNat + 1)
      (Function.update_self _ _ _) enough
    refine ⟨(store.selected limit now).cleaned store.nextCleanup now
      (store.state.expiredCandidates now limit.toNat) .none, ?_, free, rfl⟩
    rw [← length, ← counted]
    simp only [cleanupAlone, step, Option.bind_eq_bind, Option.bind_some, driven, List.head?_cons]
    rw [Nat.zero_add]
    rfl

/-- Every cleanup alone takes its share of the expired records, until none is left. -/
theorem cleanupRepeatedly_eq (idOf : Cookie → Option Id) (indexed : store.state.Indexed)
    (valid : 1 ≤ limit ∧ limit ≤ MAX_CLEANUP_LIMIT) (free : store.writer = none) (now : DateTime)
    (rounds : Nat) (enough : (store.state.expired now).card ≤ rounds * limit.toNat) :
    ∃ last, store.cleanupRepeatedly idOf limit now rounds = some last ∧
      ∀ key, last.state.records.lookup key =
        if store.state.expiredAt now key then none else store.state.records.lookup key := by
  induction rounds generalizing store with
  | zero =>
    refine ⟨store, rfl, fun key => (if_neg fun past => ?_).symm⟩
    rw [Nat.zero_mul] at enough
    obtain ⟨expiry, member⟩ := MemoryState.expiredAt_iff.mp past
    exact absurd (Finset.card_pos.mpr ⟨_, member⟩) (Nat.not_lt_of_ge enough)
  | succ rounds inductionHypothesis =>
    obtain ⟨next, alone, nextFree, state⟩ := cleanupAlone_eq idOf indexed valid free now
    have nextIndexed : next.state.Indexed := by
      rw [state]
      exact indexed.edits (MemoryState.edits_removeExpired _ _ _)
    have fewer : (next.state.expired now).card ≤ rounds * limit.toNat := by
      rw [state, MemoryState.card_expired_removeExpired indexed]
      rw [Nat.succ_mul] at enough
      omega
    obtain ⟨last, repeated, drained⟩ := inductionHypothesis nextIndexed nextFree fewer
    refine ⟨last, ?_, fun key => ?_⟩
    · simp only [cleanupRepeatedly, alone, Option.bind_eq_bind, Option.bind_some]
      exact repeated
    -- A record is removed by the first cleanup, by a later one, or not at all.
    rw [drained key, state, MemoryState.lookup_removeExpired_eq, MemoryState.expiredAt_removeExpired]
    by_cases past : store.state.expiredAt now key = true
    · by_cases candidate : key ∈ store.state.expiredCandidates now limit.toNat
      · simp [past, candidate]
      · simp [past, candidate]
    · simp [past]

end MemoryStore

/-! ### The result -/

/-- A cleanup removes records only that are expired when it removes them, and answers how many; alone
it removes those that come first by expiry and id, as many as its limit allows, and repeated it
removes them all. -/
theorem cleanup_removes_expired {idOf : Cookie → Option Id} {store : MemoryStore} {limit : UInt32}
    (now : DateTime) (reachable : (memoryStore idOf).Reachable store)
    (valid : 1 ≤ limit ∧ limit ≤ MAX_CLEANUP_LIMIT) :
    (∀ start index, (memoryStore idOf).step store (.cleanupBatch limit now) =
        some (.cleanup index, start) →
      ∀ removed middle, MemoryStore.Cleans idOf index start removed middle →
        ∀ reply after, (memoryStore idOf).step middle (.removeChunk index) = some (reply, after) →
          (∀ key, after.state.records.lookup key = middle.state.records.lookup key ∨
            after.state.records.lookup key = none ∧ ∃ record expiry,
              middle.state.records.lookup key = some record ∧ record.expiry = some expiry ∧
                expiry < now) ∧
          ∀ total, reply = .count total →
            total = removed + (middle.lost after).card ∧ total ≤ limit.toNat) ∧
    (∀ start total, (memoryStore idOf).step store (.cleanupBatch limit now) =
        some (.count total, start) → total = 0 ∧ start = store) ∧
    (store.writer = none →
      (∃ last, store.cleanupAlone idOf limit now =
          some (min limit.toNat (store.state.expired now).card, last) ∧
        ∀ key, last.state.records.lookup key =
          if key ∈ ((store.state.expired now).sort.take limit.toNat).map fun entry => (ofLex entry).2
          then none else store.state.records.lookup key) ∧
      ∀ rounds, (store.state.expired now).card ≤ rounds * limit.toNat →
        ∃ last, store.cleanupRepeatedly idOf limit now rounds = some last ∧
          ∀ key, last.state.records.lookup key =
            if store.state.expiredAt now key then none else store.state.records.lookup key) := by
  have indexed := MemoryStore.indexed_of_reachable reachable
  refine ⟨fun start index step removed middle cleans reply after chunk => ?_,
    fun start total step => ?_, fun free => ⟨?_, fun rounds enough =>
      MemoryStore.cleanupRepeatedly_eq idOf indexed valid free now rounds enough⟩⟩
  · have cleaning := MemoryStore.cleaning_of_cleans (MemoryStore.cleaning_of_start step) cleans
    exact (cleaning.chunk chunk).2
  · rcases MemoryStore.cleanupBatch_cases step with ⟨_, wrong, _⟩ | ⟨_, _, ⟨_, same, rfl⟩ | ⟨wrong, _⟩⟩
    · cases wrong
    · cases same
      exact ⟨rfl, rfl⟩
    · cases wrong
  · obtain ⟨last, alone, _, state⟩ := MemoryStore.cleanupAlone_eq idOf indexed valid free now
    refine ⟨last, alone, fun key => ?_⟩
    rw [state, MemoryState.lookup_removeExpired_eq, ← MemoryState.expiredCandidates_eq indexed]
    refine if_congr (and_iff_left_of_imp fun candidate => ?_) rfl rfl
    exact MemoryState.expiredAt_of_candidate indexed candidate

/-- Of two stored sessions one expires: a cleanup removes it, and a second one finds nothing. -/
theorem cleanup_removes_expired_of_two : ∃ store last : MemoryStore,
    store.cleanupRepeatedly some 1 10 1 = some last ∧ last.state.records.lookup "first" = none ∧
      "second" ∈ last.state.records := by
  have stored := Machine.run_replay (memoryStore some) .initial
    ([.handle (.new "first"), .handle (.setExpiry 0 5)] ++ MemoryAction.store 0 0 ++
      .handle (.new "second") :: MemoryAction.store 1 1) (by decide)
  obtain ⟨_, _, alone⟩ := @cleanup_removes_expired some _ 1 10 ⟨_, _, rfl, stored⟩ (by decide)
  obtain ⟨last, repeated, drained⟩ := (alone rfl).2 1 (by decide)
  refine ⟨_, last, repeated, ?_, ?_⟩
  · rw [drained "first"]
    rfl
  · rw [Finmap.mem_iff, drained "second"]
    exact ⟨_, rfl⟩

end Saysion
