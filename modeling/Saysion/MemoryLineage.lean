/-
This file proves that a `MemoryStore` never brings an identity back and never
forks one. A registry accounts for the records of every reachable store: the
records are its live identities, and what was born is what a record-creating
write was ever started for. A step of the store shrinks the records, creates
one under an id that was never born, or lets one take the place of another; so
later stages of a store are later stages of its registry.
-/

import Saysion.MemoryInvariant

namespace Saysion

namespace MemoryStore

/-- A registry accounts for the records of a store and for every id that was written under. -/
def Accounted (store : MemoryStore) (registry : Registry Id) : Prop :=
  Accounts registry {id | id ∈ store.state.records} {id | id ∈ store.process.dispatched} store.births

variable {store after : MemoryStore} {registry : Registry Id}

theorem Accounted.shrink (accounted : store.Accounted registry) (unwritten : store.Unwritten after) :
    ∃ later, registry.Advances later ∧ after.Accounted later := by
  have subset : {id | id ∈ after.state.records} ⊆ {id | id ∈ store.state.records} := by
    intro id member
    obtain ⟨record, found⟩ := Finmap.mem_iff.mp member
    exact Finmap.mem_iff.mpr ⟨record, unwritten.records id record found⟩
  unfold Accounted
  rw [unwritten.births, unwritten.dispatched]
  exact Accounts.shrink accounted subset

end MemoryStore

/-- The records after a write: its target, and what was there but the source of a rotation. -/
theorem Save.mem_takeSource {save : Save} {heap : Heap} {state taken : MemoryState}
    {origin : Option Id} {record : Session} {key : Id}
    (replaced : save.takeSource heap state = .ok (origin, taken)) :
    key ∈ (taken.insert save.source.id record).records ↔
      key = save.source.id ∨ origin ≠ some key ∧ key ∈ state.records := by
  obtain ⟨_, records⟩ := Save.takeSource_ok replaced
  rw [Finmap.mem_iff, Finmap.mem_iff, MemoryState.lookup_insert, records]
  by_cases target : key = save.source.id
  · rw [if_pos target]
    exact ⟨fun _ => Or.inl target, fun _ => ⟨record, rfl⟩⟩
  · rw [if_neg target]
    by_cases source : origin = some key
    · rw [if_pos ⟨source, target⟩]
      constructor
      · rintro ⟨_, wrong⟩
        cases wrong
      · rintro (same | ⟨different, _⟩)
        · exact absurd same target
        · exact absurd source different
    · rw [if_neg fun both => source both.1]
      exact ⟨fun there => Or.inr ⟨source, there⟩, fun either => (either.resolve_left target).2⟩

namespace MemorySound

variable {idOf : Cookie → Option Id} {store after : MemoryStore} {reply : Reply}
  {action : MemoryAction} {registry : Registry Id}

/-- The step lemma: one step takes the registry to a later stage. -/
theorem accounted (sound : MemorySound store) (accounted : store.Accounted registry)
    (step : (memoryStore idOf).step store action = some (reply, after)) :
    ∃ later, registry.Advances later ∧ after.Accounted later := by
  cases (sound.advances step).effect with
  | quiet _ unwritten _ _ => exact accounted.shrink unwritten
  | capture _ unwritten _ _ _ => exact accounted.shrink unwritten
  | load _ _ unwritten _ _ _ => exact accounted.shrink unwritten
  | complete _ _ _ _ unwritten _ _ => exact accounted.shrink unwritten
  | @write index save snapshot taken _ _ found replaced updates creates state _ births _ _ _ =>
    obtain ⟨checked, _⟩ := Save.takeSource_ok replaced
    obtain ⟨_, _, _, present, _⟩ := Save.recheck_ok checked
    have records : ∀ key, key ∈ after.state.records ↔
        key = save.source.id ∨ save.origin ≠ some key ∧ key ∈ store.state.records := by
      intro key
      rw [state]
      exact Save.mem_takeSource replaced
    unfold MemoryStore.Accounted
    rw [births]
    cases origin : save.origin with
    | none =>
      obtain ⟨unborn, dispatched⟩ := creates (by rw [Save.Creates, origin]; simp)
      obtain ⟨later, advances, accounts⟩ := Accounts.create accounted unborn
      refine ⟨later, advances, ?_⟩
      have written : {id | id ∈ after.state.records} =
          insert save.source.id {id | id ∈ store.state.records} := by
        ext key
        simp [records key, origin]
      rw [written, dispatched, Save.births_created]
      simpa [Set.insert_def] using accounts
    | some source =>
      by_cases update : source = save.source.id
      · rw [Save.births_updated update, updates (not_not.mpr (origin.trans (congrArg some update)))]
        refine ⟨registry, .refl registry, ?_⟩
        have kept : {id | id ∈ after.state.records} = {id | id ∈ store.state.records} := by
          ext key
          simp only [Set.mem_ofPred_eq, records key]
          constructor
          · rintro (rfl | ⟨_, there⟩)
            · exact update ▸ present source origin
            · exact there
          · intro there
            by_cases target : key = save.source.id
            · exact Or.inl target
            · exact Or.inr ⟨fun same => target
                ((Option.some.inj (same.symm.trans origin)).trans update), there⟩
        rw [kept]
        exact accounted
      · rw [Save.births_rotated update]
        obtain ⟨unborn, dispatched⟩ := creates fun same =>
          update (Option.some.inj (origin.symm.trans same))
        obtain ⟨later, advances, accounts⟩ := Accounts.rotate accounted (present source origin) unborn
        refine ⟨later, advances, ?_⟩
        have written : {id | id ∈ after.state.records} =
            insert save.source.id ({id | id ∈ store.state.records} \ {source}) := by
          ext key
          simp only [Set.mem_ofPred_eq, records key, origin, Set.mem_insert_iff, Set.mem_sdiff,
            Set.mem_singleton_iff, ne_eq, Option.some.injEq]
          exact or_congr_right ⟨fun both => ⟨both.2, fun same => both.1 same.symm⟩,
            fun both => ⟨fun same => both.2 same.symm, both.1⟩⟩
        rw [written, dispatched]
        simpa [Set.insert_def] using accounts

theorem accounted_initial : MemoryStore.initial.Accounted .empty := by
  have records : {id | id ∈ MemoryStore.initial.state.records} = (∅ : Set Id) := by
    ext id
    exact iff_of_false Finmap.notMem_empty (Set.notMem_empty id)
  have born : {id | id ∈ MemoryStore.initial.process.dispatched} = (∅ : Set Id) := by
    ext id
    simp [MemoryStore.initial, Process.initial]
  unfold MemoryStore.Accounted
  rw [records, born]
  exact .empty

/-- A run takes the registry to a later stage. -/
theorem accounted_run (sound : MemorySound store) {trace : List (MemoryAction × Reply)}
    (run : (memoryStore idOf).Run store trace after) (accounted : store.Accounted registry) :
    ∃ later, registry.Advances later ∧ after.Accounted later := by
  induction run with
  | refl => exact ⟨registry, .refl registry, accounted⟩
  | tail earlier step inductionHypothesis =>
    obtain ⟨middle, first, accounted⟩ := inductionHypothesis
    obtain ⟨later, second, accounted⟩ :=
      (earlier.invariant (fun sound step => sound.step step) sound).accounted accounted step
    exact ⟨later, first.trans second, accounted⟩

/-- Every reachable store has a registry. -/
theorem exists_accounted (reachable : (memoryStore idOf).Reachable store) :
    ∃ registry, store.Accounted registry := by
  obtain ⟨start, trace, initial, run⟩ := reachable
  obtain rfl : start = MemoryStore.initial := initial
  obtain ⟨registry, _, accounted⟩ := memorySound_initial.accounted_run run accounted_initial
  exact ⟨registry, accounted⟩

/-- An id that was written under and is not there will never be there. -/
theorem stays_gone (reachable : (memoryStore idOf).Reachable store)
    {trace : List (MemoryAction × Reply)} (run : (memoryStore idOf).Run store trace after) {id : Id}
    (born : id ∈ store.process.dispatched) (gone : id ∉ store.state.records) :
    id ∉ after.state.records := by
  obtain ⟨registry, accounted⟩ := exists_accounted reachable
  obtain ⟨later, advances, ending⟩ := (MemorySound.reachable reachable).accounted_run run accounted
  intro back
  have wasBorn : id ∈ registry.born := by
    rw [accounted.births]
    exact born
  have dead : id ∉ registry.live := by
    rw [accounted.live]
    exact gone
  refine advances.stays_dead wasBorn dead ?_
  rw [ending.live]
  exact back

end MemorySound

/-! ### The records while a call is between its write and its `finish` -/

/-- A call that has written is sure of its record, and of the absence of the record it replaced. -/
def MemoryStore.Installed (store : MemoryStore) : Prop :=
  ∀ index save, store.calls index = some .inserted → store.process.saves index = some save →
    save.source.id ∈ store.state.records ∧
      ∀ source, save.origin = some source → source ≠ save.source.id → source ∉ store.state.records

namespace MemorySound

variable {idOf : Cookie → Option Id} {store after : MemoryStore} {reply : Reply}
  {action : MemoryAction}

theorem installed (sound : MemorySound store) (installed : store.Installed)
    (step : (memoryStore idOf).step store action = some (reply, after)) : after.Installed := by
  have advances := sound.advances step
  -- A save that is there before and after the step is the same save.
  have same : ∀ index save later, store.process.saves index = some save →
      after.process.saves index = some later →
        save.source = later.source ∧ save.origin = later.origin := by
    intro index save later found kept
    have used := sound.dispatching.locking.used_of_save found
    obtain ⟨older, earlier, source, origin⟩ := advances.path.retains.save index used later kept
    obtain rfl := Option.some.inj (found.symm.trans earlier)
    exact ⟨source, origin⟩
  have unwritten : store.Unwritten after → after.Installed := by
    intro unwritten index later now kept
    obtain ⟨before, state⟩ := unwritten.inserted index now
    obtain ⟨save, found, _⟩ := sound.calls index _ before
    obtain ⟨source, origin⟩ := same index save later found kept
    rw [state, ← source, ← origin]
    exact installed index save before found
  cases advances.effect with
  | quiet _ quiet _ _ => exact unwritten quiet
  | capture _ quiet _ _ _ => exact unwritten quiet
  | load _ _ quiet _ _ _ => exact unwritten quiet
  | complete _ _ _ _ quiet _ _ => exact unwritten quiet
  | @write index save snapshot taken _ _ found replaced _ _ state _ _ mine _ _ =>
    intro key later now kept
    obtain rfl := mine key now
    obtain ⟨source, origin⟩ := same key save later found kept
    rw [state, ← source, ← origin]
    refine ⟨(Save.mem_takeSource replaced).mpr (Or.inl rfl), fun source rotated different => ?_⟩
    rw [Save.mem_takeSource replaced]
    rintro (target | ⟨other, _⟩)
    · exact different target
    · exact other rotated

theorem reachable_installed (reachable : (memoryStore idOf).Reachable store) :
    store.Installed := by
  obtain ⟨start, trace, initial, run⟩ := reachable
  obtain rfl : start = MemoryStore.initial := initial
  induction run with
  | refl =>
    rintro _ _ wrong
    cases wrong
  | tail earlier step inductionHypothesis =>
    have sound := earlier.invariant (fun sound step => sound.step step) memorySound_initial
    exact sound.installed inductionHypothesis step

/-- What `finish` leaves behind: it takes the record back when the family was destroyed. -/
theorem finish_records (sound : MemorySound store) {index : Nat} {save : Save}
    (found : store.process.saves index = some save)
    (step : store.finish index = some (reply, after)) :
    store.calls index = some .inserted ∧ ∀ key, key ∈ after.state.records ↔
      key ∈ store.state.records ∧
        (key = save.source.id → save.source.isDestroyed store.process.heap = false) := by
  obtain ⟨older, guard, lookup, _, inserted, outcome⟩ := sound.finish_cases step
  obtain rfl := Option.some.inj (found.symm.trans lookup)
  refine ⟨inserted, fun key => ?_⟩
  rcases outcome with ⟨destroyed, rfl⟩ | ⟨alive, rfl⟩
  · rw [Finmap.mem_iff, Finmap.mem_iff, MemoryState.lookup_remove]
    by_cases target : key = save.source.id
    · simp [target, destroyed]
    · simp [target]
  · exact ⟨fun there => ⟨there, fun _ => alive⟩, fun both => both.1⟩

end MemorySound

/-! ### The results -/

/-- An id that was there and is gone is never there again. -/
theorem removed_record_stays_removed {idOf : Cookie → Option Id}
    {present absent later : MemoryStore} {removal rest : List (MemoryAction × Reply)} {id : Id}
    (reachable : (memoryStore idOf).Reachable present)
    (removed : (memoryStore idOf).Run present removal absent)
    (run : (memoryStore idOf).Run absent rest later) (there : id ∈ present.state.records)
    (gone : id ∉ absent.state.records) : id ∉ later.state.records := by
  obtain ⟨registry, accounted⟩ := MemorySound.exists_accounted reachable
  obtain ⟨middle, first, between⟩ :=
    (MemorySound.reachable reachable).accounted_run removed accounted
  refine MemorySound.stays_gone (reachable.run removed) run ?_ gone
  have live : id ∈ registry.live := by
    rw [accounted.live]
    exact there
  have born : id ∈ middle.born := first.born (registry.live_born live)
  rwa [between.births] at born

/-- A record is stored, loaded by two requests, and removed by the logout of one of them. The other
one saves its changes in vain. -/
theorem removed_record_stays_removed_after_logout : ∃ present later : MemoryStore,
    "first" ∈ present.state.records ∧ later.calls 1 = some (.failed .sessionConflict) ∧
      "first" ∉ later.state.records := by
  obtain ⟨trace, present, removal, absent, rest, later, stored, there, removed, gone, run, refused⟩ :
      ∃ trace present removal absent rest later, (memoryStore some).Run .initial trace present ∧
        "first" ∈ present.state.records ∧ (memoryStore some).Run present removal absent ∧
          "first" ∉ absent.state.records ∧ (memoryStore some).Run absent rest later ∧
            later.calls 1 = some (.failed .sessionConflict) :=
    ⟨_, _, _, _, _, _, Machine.run_replay _ _ (.handle (.new "first") :: MemoryAction.store 0 0)
        (by decide), by decide,
      Machine.run_replay _ _ [.loadSession "first" 0 0, .loadSession "first" 0 0, .destroySession 1,
        .grantDelete 0, .removeRecord 0] (by decide), by decide,
      Machine.run_replay _ _ [.handle (.insertRaw 2 "key" "value"), .storeSession 2, .capture 1,
        .beginBackendWrite 1, .lock 1, .write 1] (by decide), by decide⟩
  exact ⟨present, later, there, refused,
    removed_record_stays_removed ⟨_, _, rfl, stored⟩ removed run there gone⟩

/-- No descent ever has two records, and a rotation takes its source away when it puts its target
there. -/
theorem rotation_never_forks {idOf : Cookie → Option Id} {store : MemoryStore}
    (reachable : (memoryStore idOf).Reachable store) :
    (∀ id ∈ store.state.records, ∃ first, Descends store.births first id) ∧
    (∀ first left right, Descends store.births first left → Descends store.births first right →
      left ∈ store.state.records → right ∈ store.state.records → left = right) ∧
    ∀ index save source, store.process.saves index = some save → save.origin = some source →
      source ≠ save.source.id →
      (store.calls index = some .inserted →
        source ∉ store.state.records ∧ save.source.id ∈ store.state.records) ∧
      ∀ reply after, (memoryStore idOf).step store (.finish index) = some (reply, after) →
        source ∉ after.state.records ∧ (save.source.id ∈ after.state.records ↔
          save.source.isDestroyed store.process.heap = false) := by
  have sound := MemorySound.reachable reachable
  obtain ⟨registry, accounted⟩ := MemorySound.exists_accounted reachable
  refine ⟨fun id there => ?_, fun first left right fromLeft fromRight leftThere rightThere =>
    accounted.eq_of_descends fromLeft fromRight leftThere rightThere, ?_⟩
  · obtain ⟨record, found⟩ := Finmap.mem_iff.mp there
    exact accounted.logged id (sound.records id record found).born
  · intro index save source found origin different
    have installed := fun inserted =>
      MemorySound.reachable_installed reachable index save inserted found
    refine ⟨fun inserted => ⟨(installed inserted).2 source origin different, (installed inserted).1⟩,
      fun reply after step => ?_⟩
    obtain ⟨inserted, records⟩ := sound.finish_records found step
    obtain ⟨target, absent⟩ := installed inserted
    rw [records, records]
    exact ⟨fun both => absent source origin different both.1,
      fun both => both.2 rfl, fun alive => ⟨target, fun _ => alive⟩⟩

/-- A loaded session is rotated: once the call has finished, only its target is there. -/
theorem rotation_never_forks_on_rotation : ∃ after : MemoryStore,
    "first" ∉ after.state.records ∧ "second" ∈ after.state.records := by
  have stored := Machine.run_replay (memoryStore some) .initial
    (.handle (.new "first") :: MemoryAction.store 0 0 ++ [.loadSession "first" 0 0,
      .handle (.regenerate 1 "second"), .storeSession 1, .capture 1, .beginBackendWrite 1, .lock 1,
      .write 1]) (by decide)
  obtain ⟨_, _, rotations⟩ := rotation_never_forks ⟨_, _, rfl, stored⟩
  obtain ⟨_, finished⟩ := rotations 1 _ "first" rfl rfl (by decide)
  obtain ⟨gone, there⟩ := finished _ _ rfl
  exact ⟨_, gone, there.mpr rfl⟩

end Saysion
