/-
This file proves the invariant of a process with a `MemoryStore`. It ties the
phase of every call to the save, the guard and the snapshot it works with, and
every record to the snapshot it was written from.

Every step of the store is a path of coordinated moves of its process, so the
invariants of the process come for free. What remains is bookkeeping: a call in
progress and a record are left alone by every step but their own, because what
they own is apart from everything else.
-/

import Saysion.Isolation
import Saysion.MemoryCases

namespace Saysion

/-! ### What a call relies on -/

/-- The copy that a save made of its source, in cells of its own. -/
structure Save.Copies (process : Process) (captured : Option SessionSnapshot) (save : Save)
    (snapshot : Session) : Prop where
  apart : process.Apart snapshot
  id : snapshot.id = save.source.id
  rotationFrom : snapshot.rotationFrom = none
  wire : captured = some (snapshot.wire process.heap)
  destroyed : snapshot.isDestroyed process.heap = true →
    save.source.isDestroyed process.heap = true

/-- What a call finds in its process at each phase. -/
def StorePhase.Ready (process : Process) (index : Nat) (captured : Option SessionSnapshot)
    (save : Save) : StorePhase → Prop
  | .attempted => save.dispatched = false ∧ process.guards index = none ∧ captured = none
  | .captured snapshot =>
    save.dispatched = false ∧ process.guards index = none ∧ save.Copies process captured snapshot
  | .guarded snapshot | .locked snapshot =>
    save.dispatched = false ∧ (∃ guard, process.guards index = some guard) ∧
      save.Copies process captured snapshot
  | .inserted | .finished =>
    (∃ guard, process.guards index = some guard) ∧ save.source.id ∈ process.dispatched
  | .failed _ => save.dispatched = true → save.source.isDestroyed process.heap = true

/-- Whether a call holds the write half of the store's lock. -/
def StorePhase.Writes : StorePhase → Prop
  | .locked _ | .inserted => True
  | _ => False

/-- What is true of a record: it is the snapshot that was last written under its id. -/
structure MemoryStore.Keeps (store : MemoryStore) (id : Id) (record : Session) : Prop where
  bound : record.id = id
  apart : store.process.Apart record
  alive : record.isDestroyed store.process.heap = false
  written : ∃ index, store.written id = some index ∧
    store.captured index = some (record.wire store.process.heap)
  born : id ∈ store.process.dispatched

/-- The invariant of a process with a `MemoryStore`. -/
structure MemorySound (store : MemoryStore) : Prop where
  dispatching : Dispatching store.process
  tracked : store.process.Tracked
  calls : ∀ index phase, store.calls index = some phase →
    ∃ save, store.process.saves index = some save ∧
      phase.Ready store.process index (store.captured index) save
  writer : ∀ index phase, store.calls index = some phase → phase.Writes →
    store.writer = some index
  records : ∀ id record, store.state.records.lookup id = some record → store.Keeps id record
  numbered : ∀ index snapshot, store.captured index = some snapshot →
    index < store.process.nextSave

namespace MemoryStore

/-- A step that writes no record; it may remove some, but none while a call is between its write
and its `finish`. -/
structure Unwritten (store after : MemoryStore) : Prop where
  written : after.written = store.written
  births : after.births = store.births
  dispatched : after.process.dispatched = store.process.dispatched
  records : ∀ id record, after.state.records.lookup id = some record →
    store.state.records.lookup id = some record
  inserted : ∀ index, after.calls index = some .inserted →
    store.calls index = some .inserted ∧ after.state = store.state

/-- A step that concerns neither the calls nor the records. -/
theorem Unwritten.still {store after : MemoryStore} (written : after.written = store.written)
    (births : after.births = store.births)
    (dispatched : after.process.dispatched = store.process.dispatched)
    (calls : after.calls = store.calls) (state : after.state = store.state) :
    store.Unwritten after :=
  ⟨written, births, dispatched, fun _ _ found => state ▸ found, fun _ now => ⟨calls ▸ now, state⟩⟩

/-- A step of one call that leaves the records alone. -/
theorem Unwritten.own {store after : MemoryStore} {index : Nat} {phase : Option StorePhase}
    (written : after.written = store.written) (births : after.births = store.births)
    (dispatched : after.process.dispatched = store.process.dispatched)
    (calls : after.calls = Function.update store.calls index phase)
    (other : phase ≠ some .inserted) (state : after.state = store.state) :
    store.Unwritten after := by
  refine ⟨written, births, dispatched, fun _ _ found => state ▸ found, fun key now => ⟨?_, state⟩⟩
  rw [calls] at now
  by_cases same : key = index
  · rw [same, Function.update_self] at now
    exact absurd now other
  · rwa [Function.update_of_ne same] at now

/-- What a step does to the records and to what is kept beside them. -/
inductive Effect (idOf : Cookie → Option Id) (store : MemoryStore) :
    MemoryAction → MemoryStore → Prop
  | quiet {action : MemoryAction} {after : MemoryStore} :
      Process.Path idOf Process.Plain store.process after.process → store.Unwritten after →
        after.captured = store.captured → after.history = store.history →
          Effect idOf store action after
  | capture {index : Nat} {save : Save} {after : MemoryStore} :
      Process.Path idOf Process.Plain store.process after.process → store.Unwritten after →
        store.process.saves index = some save →
          after.captured = Function.update store.captured index
            (some (save.source.wire store.process.heap)) →
            after.history = store.history → Effect idOf store (.capture index) after
  | load {cookie : Cookie} {now later : DateTime} {session : Session} {heap : Heap}
      {after : MemoryStore} : store.process.Fetches session heap →
        session.id ∈ store.process.dispatched → store.Unwritten after →
        after.process = (store.process.see session.id).addHandle session heap →
          after.captured = store.captured →
            after.history = Function.update store.history session.family [session.id] →
              Effect idOf store (.loadSession cookie now later) after
  | write {index : Nat} {save : Save} {snapshot : Session} {taken : MemoryState}
      {after : MemoryStore} :
      Process.Path idOf Process.Plain store.process after.process →
        store.process.saves index = some save →
        save.takeSource store.process.heap store.state = .ok (save.origin, taken) →
        (¬ save.Creates → after.process.dispatched = store.process.dispatched) →
        (save.Creates → save.source.id ∉ store.process.dispatched ∧
          after.process.dispatched = save.source.id :: store.process.dispatched) →
        after.state = taken.insert save.source.id snapshot →
        after.written = Function.update store.written save.source.id (some index) →
        after.births = save.births save.origin ++ store.births →
        (∀ key, after.calls key = some .inserted → key = index) →
        after.captured = store.captured → after.history = store.history →
          Effect idOf store (.write index) after
  | complete {index : Nat} {save : Save} {guard : WriteGuard} {cookie : Option Cookie}
      {after : MemoryStore} :
      store.process.saves index = some save → store.process.guards index = some guard →
        save.source.id ∈ store.process.dispatched →
        store.process.complete index = some (cookie, after.process) → store.Unwritten after →
          after.captured = store.captured →
            after.history = Function.update store.history save.source.family
              (save.source.id :: store.history save.source.family) →
              Effect idOf store (.complete index) after

end MemoryStore

/-- What every step of the store does: it is a path of coordinated moves, preserves the invariant,
and has one of the effects. -/
structure MemoryStore.Advances (idOf : Cookie → Option Id) (store : MemoryStore)
    (action : MemoryAction) (after : MemoryStore) : Prop where
  path : Process.Path idOf Process.Coordinated store.process after.process
  sound : MemorySound after
  effect : store.Effect idOf action after

theorem memorySound_initial : MemorySound MemoryStore.initial where
  dispatching := dispatching_initial
  tracked := Process.tracked_initial
  calls := by rintro _ _ found; cases found
  writer := by rintro _ _ found; cases found
  records := by rintro _ _ found; cases found
  numbered := by rintro _ _ found; cases found

namespace Save

variable {process after : Process} {captured : Option SessionSnapshot} {save : Save}
  {snapshot : Session}

theorem Copies.later (copies : save.Copies process captured snapshot)
    (spares : process.Spares after)
    (destroyed : save.source.isDestroyed process.heap = true →
      save.source.isDestroyed after.heap = true) : save.Copies after captured snapshot where
  apart := copies.apart.later spares
  id := copies.id
  rotationFrom := copies.rotationFrom
  wire := copies.wire.trans (congrArg some (copies.apart.wire_eq spares).symm)
  destroyed flag := destroyed (copies.destroyed (copies.apart.isDestroyed_eq spares ▸ flag))

end Save

/-- What a call relies on survives the steps of others. -/
theorem StorePhase.Ready.later {process after : Process} {index : Nat}
    {captured : Option SessionSnapshot} {save : Save} {phase : StorePhase}
    (ready : phase.Ready process index captured save) (spares : process.Spares after)
    (guards : after.guards index = process.guards index)
    (born : ∀ id ∈ process.dispatched, id ∈ after.dispatched)
    (destroyed : save.source.isDestroyed process.heap = true →
      save.source.isDestroyed after.heap = true) : phase.Ready after index captured save := by
  cases phase with
  | attempted => exact ⟨ready.1, guards.trans ready.2.1, ready.2.2⟩
  | captured snapshot =>
    exact ⟨ready.1, guards.trans ready.2.1, ready.2.2.later spares destroyed⟩
  | guarded snapshot =>
    exact ⟨ready.1, guards ▸ ready.2.1, ready.2.2.later spares destroyed⟩
  | locked snapshot =>
    exact ⟨ready.1, guards ▸ ready.2.1, ready.2.2.later spares destroyed⟩
  | inserted => exact ⟨guards ▸ ready.1, born _ ready.2⟩
  | finished => exact ⟨guards ▸ ready.1, born _ ready.2⟩
  | failed error => exact fun written => destroyed (ready written)

namespace MemorySound

variable {idOf : Cookie → Option Id} {store after : MemoryStore} {reply : Reply} {index : Nat}

/-- The part of the proof that all steps share: calls and records are those of before, or satisfy
the invariant. -/
theorem preserve (sound : MemorySound store)
    (path : Process.Path idOf Process.Coordinated store.process after.process)
    (born : ∀ id ∈ store.process.dispatched, id ∈ after.process.dispatched)
    (calls : ∀ key phase, after.calls key = some phase →
      (∃ save, after.process.saves key = some save ∧
        phase.Ready after.process key (after.captured key) save) ∨
        store.calls key = some phase ∧
          after.process.saves key = store.process.saves key ∧
          after.process.guards key = store.process.guards key ∧
          after.captured key = store.captured key)
    (writer : ∀ key phase, after.calls key = some phase → phase.Writes → after.writer = some key)
    (records : ∀ id record, after.state.records.lookup id = some record →
      after.Keeps id record ∨
        store.state.records.lookup id = some record ∧ after.written id = store.written id)
    (captured : ∀ key snapshot, store.captured key = some snapshot →
      after.captured key = some snapshot)
    (numbered : ∀ key snapshot, after.captured key = some snapshot →
      key < after.process.nextSave) : MemorySound after where
  dispatching := sound.dispatching.path path
  tracked := sound.tracked.path path
  calls key phase found := by
    rcases calls key phase found with ready | ⟨earlier, saves, guards, same⟩
    · exact ready
    · obtain ⟨save, saved, ready⟩ := sound.calls key phase earlier
      have allocated := (sound.dispatching.authority.allocated _ (.save saved)).1
      rw [same]
      refine ⟨save, saves.trans saved, ready.later (path.spares sound.dispatching) guards born ?_⟩
      exact (path.climbs sound.dispatching.authority).destroy _ allocated
  writer := writer
  records id record found := by
    rcases records id record found with keeps | ⟨earlier, written⟩
    · exact keeps
    · obtain ⟨bound, apart, alive, ⟨index, last, exact_⟩, older⟩ := sound.records id record earlier
      have spares := path.spares sound.dispatching
      refine ⟨bound, apart.later spares, (apart.isDestroyed_eq spares).trans alive,
        ⟨index, written.trans last, ?_⟩, born id older⟩
      rw [apart.wire_eq spares]
      exact captured index _ exact_
  numbered := numbered

/-- A step that concerns no call. -/
theorem still (sound : MemorySound store)
    (path : Process.Path idOf Process.Coordinated store.process after.process)
    (born : after.process.dispatched = store.process.dispatched)
    (saves : after.process.saves = store.process.saves)
    (guards : after.process.guards = store.process.guards)
    (nextSave : after.process.nextSave = store.process.nextSave) (calls : after.calls = store.calls)
    (writer : after.writer = store.writer)
    (records : ∀ id record, after.state.records.lookup id = some record →
      store.state.records.lookup id = some record)
    (written : after.written = store.written) (captured : after.captured = store.captured) :
    MemorySound after := by
  refine sound.preserve path (fun id member => born ▸ member) (fun key phase found => Or.inr ?_)
    (fun key phase found writes => ?_)
    (fun id record found => Or.inr ⟨records id record found, by rw [written]⟩)
    (fun key snapshot found => captured ▸ found) fun key snapshot found => ?_
  · exact ⟨calls ▸ found, by rw [saves], by rw [guards], by rw [captured]⟩
  · rw [writer]
    exact sound.writer key phase (calls ▸ found) writes
  · rw [nextSave]
    exact sound.numbered key snapshot (captured ▸ found)

/-- A step of one call. -/
theorem own (sound : MemorySound store)
    (path : Process.Path idOf Process.Coordinated store.process after.process)
    (born : ∀ id ∈ store.process.dispatched, id ∈ after.process.dispatched)
    (nextSave : store.process.nextSave ≤ after.process.nextSave)
    {phase : Option StorePhase} (calls : after.calls = Function.update store.calls index phase)
    (others : ∀ key ≠ index, after.process.saves key = store.process.saves key ∧
      after.process.guards key = store.process.guards key)
    (ready : ∀ next, phase = some next → ∃ save, after.process.saves index = some save ∧
      next.Ready after.process index (after.captured index) save)
    (mine : ∀ next, phase = some next → next.Writes → after.writer = some index)
    (theirs : ∀ key ≠ index, store.writer = some key → after.writer = some key)
    (records : ∀ id record, after.state.records.lookup id = some record →
      after.Keeps id record ∨
        store.state.records.lookup id = some record ∧ after.written id = store.written id)
    (captured : ∀ key, after.captured key = store.captured key ∨
      key = index ∧ store.captured key = none ∧ key < store.process.nextSave) :
    MemorySound after := by
  have kept : ∀ key ≠ index, after.captured key = store.captured key :=
    fun key different => (captured key).resolve_right fun both => different both.1
  refine sound.preserve path born (fun key phase found => ?_) (fun key phase found writes => ?_) records
    (fun key snapshot found => ?_) fun key snapshot found => ?_
  · rw [calls] at found
    by_cases same : key = index
    · subst same
      rw [Function.update_self] at found
      exact Or.inl (ready phase found)
    · rw [Function.update_of_ne same] at found
      exact Or.inr ⟨found, (others key same).1, (others key same).2, kept key same⟩
  · rw [calls] at found
    by_cases same : key = index
    · subst same
      rw [Function.update_self] at found
      exact mine phase found writes
    · rw [Function.update_of_ne same] at found
      exact theirs key same (sound.writer key phase found writes)
  · rcases captured key with same | ⟨_, unset, _⟩
    · exact same.trans found
    · cases unset.symm.trans found
  · rcases captured key with same | ⟨_, _, old⟩
    · exact (sound.numbered key snapshot (same.symm.trans found)).trans_le nextSave
    · exact old.trans_le nextSave

/-- While a call is between its write and its `finish`, the lock is not free. -/
theorem untouched (sound : MemorySound store) {state : MemoryState}
    (inserted : store.calls index = some .inserted) (free : store.writer = none ∨ state = store.state) :
    state = store.state := by
  refine free.resolve_left fun unlocked => ?_
  cases unlocked.symm.trans (sound.writer index _ inserted trivial)

theorem stay (idOf : Cookie → Option Id) (process : Process) :
    Process.Path idOf Process.Plain process process :=
  Process.Path.refl

theorem ordinary {process next : Process} (move : Process.Moves idOf process .ordinary next) :
    Process.Path idOf Process.Plain process next :=
  move.path (Or.inl rfl)

/-- A step that sets no marker, captures nothing and writes no record. -/
theorem quiet {action : MemoryAction}
    (path : Process.Path idOf Process.Plain store.process after.process) (sound : MemorySound after)
    (unwritten : store.Unwritten after) (captured : after.captured = store.captured)
    (history : after.history = store.history) : store.Advances idOf action after :=
  ⟨path.coordinated, sound, .quiet path unwritten captured history⟩

/-! ### Storing -/

theorem storeSession (sound : MemorySound store)
    (step : store.storeSession index = some (reply, after)) :
    store.Advances idOf (.storeSession index) after := by
  obtain ⟨process, attempt, outcome⟩ := MemoryStore.storeSession_cases step
  have path : Process.Path idOf Process.Plain store.process process :=
    ordinary (.attempt attempt)
  obtain ⟨session, found, ⟨_, _, refused, rfl⟩ | ⟨origin, heap, granted, answered, rfl⟩⟩ :=
    Process.attempt_cases attempt <;> obtain ⟨error, failed, rfl⟩ | ⟨saved, rfl⟩ := outcome
  · exact quiet path (sound.still path.coordinated rfl rfl rfl rfl rfl rfl (fun _ _ found => found)
    rfl rfl) (.still rfl rfl rfl rfl rfl) rfl rfl
  · cases refused.symm.trans saved
  · cases answered.symm.trans failed
  · refine quiet path (sound.own path.coordinated (fun _ member => member) (Nat.le_succ _) rfl
      (fun key different => ?_) ?_ ?_ (fun key _ held => held)
      (fun _ _ found => Or.inr ⟨found, rfl⟩) fun _ => Or.inl rfl)
        (.own rfl rfl rfl rfl (by simp) rfl) rfl rfl
    · exact ⟨Function.update_of_ne different _ _, rfl⟩
    · rintro _ ⟨⟩
      have uncaptured : store.captured store.process.nextSave = none := by
        by_contra captured
        obtain ⟨snapshot, captured⟩ := Option.ne_none_iff_exists'.mp captured
        exact absurd (sound.numbered _ snapshot captured) (lt_irrefl _)
      exact ⟨_, Function.update_self _ _ _, rfl,
        (sound.dispatching.locking.unusedSave _ le_rfl).2, uncaptured⟩
    · rintro _ ⟨⟩ writes
      cases writes

/-- The copy of a source, at the moment of the capture: what it copies into was not allocated. -/
theorem copies_capture {process next : Process} {snapshot : Session}
    (dispatching : Dispatching process) (tracked : process.Tracked)
    (capture : process.capturePersistence index = some (snapshot, next)) :
    ∃ save newer, process.saves index = some save ∧
      next.saves = Function.update process.saves index (some newer) ∧
      newer.dispatched = save.dispatched ∧ next.guards = process.guards ∧
        newer.Copies next (some (save.source.wire process.heap)) snapshot := by
  have old : ∀ session, next.Live session →
      session.family < process.heap.nextFamily ∧ session.data < process.heap.nextCell := by
    intro session member
    obtain ⟨twin, earlier, same⟩ := (Process.follows_capturePersistence capture).live session member
    rw [← same.family, ← same.data]
    exact dispatching.authority.allocated twin earlier
  have nowTracked : next.Tracked :=
    (Process.Moves.capturePersistence capture :
      Process.Moves (fun _ => none) _ _ _).saved.tracked tracked
  obtain ⟨save, found, _, rfl, rfl⟩ := Process.capturePersistence_cases capture
  obtain ⟨family, data⟩ := dispatching.authority.allocated _ (.save found)
  refine ⟨save, _, found, rfl, rfl, rfl, ⟨⟨Nat.lt_succ_self _, Nat.lt_succ_self _, ?_, ?_⟩, rfl, rfl,
    ?_, fun flag => ?_⟩⟩
  · rintro (⟨session, member, same⟩ | ⟨key, guard, guarded, same⟩)
    · exact absurd same (ne_of_lt (old session member).1)
    · exact absurd same (ne_of_lt (dispatching.locking.allocated _ (.inl key) ⟨guard, guarded, rfl⟩))
  · rintro (⟨session, member, same⟩ | ⟨key, other, revision, lookup, captured, same⟩)
    · exact absurd same (ne_of_lt (old session member).2)
    · rw [nowTracked key other revision lookup captured] at same
      exact absurd same (ne_of_lt (old other.source (.save lookup)).2)
  · refine congrArg some (congrArg (SessionSnapshot.mk save.source.id save.source.expiry) ?_)
    show _ = (((Heap.setCell _ save.source.data _).cells process.heap.nextCell).values)
    rw [Heap.setCell_of_ne _ _ _ (ne_of_gt data)]
    exact (congrArg SessionData.values (Heap.allocCell_self
      (process.heap.allocFamily { destroy := save.source.isDestroyed process.heap })
      (.ofValues (save.source.sessionData process.heap).values))).symm
  · show ((process.heap.allocFamily { destroy := _ }).families save.source.family).destroy = true
    rw [Heap.allocFamily_of_lt _ _ family]
    have flag : ((process.heap.allocFamily
      { destroy := save.source.isDestroyed process.heap }).families process.heap.nextFamily).destroy =
        true := flag
    rwa [Heap.allocFamily_self] at flag

theorem capture (sound : MemorySound store) (step : store.capture index = some (reply, after)) :
    store.Advances idOf (.capture index) after := by
  obtain ⟨save, snapshot, process, attempted, saved, capture, _, rfl⟩ :=
    MemoryStore.capture_cases step
  obtain ⟨known, lookup, undispatched, unguarded, uncaptured⟩ := sound.calls index _ attempted
  obtain rfl := Option.some.inj (saved.symm.trans lookup)
  have path : Process.Path idOf Process.Plain store.process process :=
    ordinary (.capturePersistence capture)
  obtain ⟨older, newer, found, saves, dispatched, guards, copies⟩ :=
    copies_capture sound.dispatching sound.tracked capture
  obtain rfl := Option.some.inj (saved.symm.trans found)
  have same : process.dispatched = store.process.dispatched ∧
      process.nextSave = store.process.nextSave := by
    obtain ⟨_, _, _, _, rfl⟩ := Process.capturePersistence_cases capture
    exact ⟨rfl, rfl⟩
  have used := sound.dispatching.locking.used_of_save saved
  refine ⟨path.coordinated, sound.own path.coordinated (fun _ member => same.1 ▸ member) same.2.ge
    rfl (fun key different => ?_) ?_ ?_ (fun key _ held => held)
    (fun _ _ found => Or.inr ⟨found, rfl⟩) fun key => ?_,
    .capture path (.own rfl rfl same.1 rfl (by simp) rfl) saved rfl rfl⟩
  · exact ⟨saves ▸ Function.update_of_ne different _ _, by rw [guards]⟩
  · rintro _ ⟨⟩
    refine ⟨newer, saves ▸ Function.update_self _ _ _, dispatched.trans undispatched,
      guards ▸ unguarded, ?_⟩
    show newer.Copies process (Function.update store.captured index _ index) snapshot
    rw [Function.update_self]
    exact copies
  · rintro _ ⟨⟩ writes
    cases writes
  · by_cases mine : key = index
    · subst mine
      exact Or.inr ⟨rfl, uncaptured, used⟩
    · exact Or.inl (Function.update_of_ne mine _ _)

theorem beginBackendWrite (sound : MemorySound store)
    (step : store.beginBackendWrite index = some (reply, after)) :
    store.Advances idOf (.beginBackendWrite index) after := by
  obtain ⟨snapshot, process, result, captured, acquire, _, outcome⟩ :=
    MemoryStore.beginBackendWrite_cases step
  obtain ⟨save, saved, undispatched, unguarded, copies⟩ := sound.calls index _ captured
  have path : Process.Path idOf Process.Plain store.process process :=
    ordinary (.acquire (Or.inl rfl) acquire)
  have destroyed := (path.climbs sound.dispatching.authority).destroy _
    (sound.dispatching.authority.allocated _ (.save saved)).1
  have copies := copies.later (path.coordinated.spares sound.dispatching) destroyed
  obtain ⟨_, _, _, _, ⟨_, heap, _, rfl, rfl⟩ | ⟨guard, heap, _, rfl, rfl⟩⟩ :=
    Process.acquire_cases acquire
  · obtain ⟨error, _, rfl⟩ := outcome.resolve_right fun wrong => by cases wrong.1
    refine quiet path (sound.own path.coordinated (fun _ member => member) le_rfl rfl
      (fun key _ => ⟨rfl, rfl⟩) ?_ ?_ (fun key _ held => held) (fun _ _ found => Or.inr ⟨found, rfl⟩)
      fun _ => Or.inl rfl) (.own rfl rfl rfl rfl (by simp) rfl) rfl rfl
    · rintro _ ⟨⟩
      refine ⟨save, saved, fun written => ?_⟩
      cases undispatched.symm.trans written
    · rintro _ ⟨⟩ writes
      cases writes
  · obtain ⟨_, rfl⟩ := outcome.resolve_left fun ⟨_, wrong, _⟩ => by cases wrong
    refine quiet path (sound.own path.coordinated (fun _ member => member) le_rfl rfl
      (fun key different => ?_) ?_ ?_ (fun key _ held => held) (fun _ _ found => Or.inr ⟨found, rfl⟩)
      fun _ => Or.inl rfl) (.own rfl rfl rfl rfl (by simp) rfl) rfl rfl
    · exact ⟨rfl, Function.update_of_ne different _ _⟩
    · rintro _ ⟨⟩
      exact ⟨save, saved, undispatched, ⟨guard, Function.update_self _ _ _⟩, copies⟩
    · rintro _ ⟨⟩ writes
      cases writes

theorem lock (sound : MemorySound store) (step : store.lock index = some (reply, after)) :
    store.Advances idOf (.lock index) after := by
  obtain ⟨snapshot, guarded, free, _, rfl⟩ := MemoryStore.lock_cases step
  refine quiet (stay idOf _) (sound.own (stay idOf _).coordinated (fun _ member => member)
    le_rfl rfl (fun key _ => ⟨rfl, rfl⟩) ?_ ?_ (fun key _ held => ?_)
      (fun _ _ found => Or.inr ⟨found, rfl⟩) fun _ => Or.inl rfl)
    (.own rfl rfl rfl rfl (by simp) rfl) rfl rfl
  · rintro _ ⟨⟩
    obtain ⟨save, saved, ready⟩ := sound.calls index _ guarded
    exact ⟨save, saved, ready⟩
  · rintro _ ⟨⟩ _
    rfl
  · cases free.symm.trans held

end MemorySound

/-! ### The checks under the lock -/

theorem Save.recheck_ok {save : Save} {heap : Heap} {state : MemoryState} {origin : Option Id}
    (checked : save.recheck heap state = .ok origin) :
    (save.origin = none → origin = none) ∧
      (save.origin ≠ none → save.source.persistenceOrigin heap = .ok origin) ∧
      save.source.isDestroyed heap = false ∧
      (∀ source, origin = some source → source ∈ state.records) ∧
      (origin ≠ some save.source.id → save.source.id ∉ state.records) := by
  unfold recheck at checked
  split at checked
  · cases checked
  rename_i current reread
  split at checked
  · cases checked
  rename_i alive
  split at checked
  · cases checked
  rename_i present
  split at checked
  · cases checked
  rename_i absent
  cases checked
  refine ⟨fun unsaved => ?_, fun saved => ?_, by simpa using alive, ?_, ?_⟩
  · rw [if_pos unsaved] at reread
    cases reread
    rfl
  · rw [if_neg saved] at reread
    exact reread
  · rintro source rfl
    simpa using present
  · intro creates member
    exact absent ⟨creates, member⟩

/-- What is left of the records once the source of a rotation is taken out. -/
theorem Save.takeSource_ok {save : Save} {heap : Heap} {state taken : MemoryState}
    {origin : Option Id} (replaced : save.takeSource heap state = .ok (origin, taken)) :
    save.recheck heap state = .ok origin ∧
      ∀ key, taken.records.lookup key =
        if origin = some key ∧ key ≠ save.source.id then none else state.records.lookup key := by
  unfold takeSource at replaced
  split at replaced
  · cases replaced
  rename_i current checked
  split at replaced
  · rename_i unrotated
    cases replaced
    refine ⟨checked, fun key => (if_neg ?_).symm⟩
    rintro ⟨same, different⟩
    simp [same, different] at unrotated
  · rename_i source rotated
    obtain ⟨same, different⟩ : current = some source ∧ source ≠ save.source.id := by
      simpa [Option.filter_eq_some_iff] using rotated
    split at replaced
    · cases replaced
    · rename_i previous removed removal
      cases replaced
      refine ⟨checked, fun key => ?_⟩
      have lookup := state.lookup_remove source key
      rw [removal] at lookup
      rw [lookup, same]
      by_cases equal : key = source
      · rw [if_pos equal, if_pos ⟨congrArg some equal.symm, equal ▸ different⟩]
      · rw [if_neg equal, if_neg fun both => equal (Option.some.inj both.1).symm]

namespace MemorySound

variable {idOf : Cookie → Option Id} {store after : MemoryStore} {reply : Reply} {index : Nat}

/-- Under its guard a save finds the origin of its attempt. -/
theorem origin_eq (sound : MemorySound store) {save : Save} {guard : WriteGuard}
    {origin : Option Id} (found : store.process.saves index = some save)
    (guarded : store.process.guards index = some guard)
    (checked : save.recheck store.process.heap store.state = .ok origin) : origin = save.origin := by
  obtain ⟨unsaved, saved, _⟩ := Save.recheck_ok checked
  by_cases none : save.origin = none
  · rw [unsaved none, none]
  · obtain ⟨marker, _⟩ := Session.persistenceOrigin_ok.mp (saved none)
    rw [← marker]
    exact sound.dispatching.agreement index guard save guarded found

/-- Under its guard, the writing step of a call takes the source of its attempt. -/
theorem write_cases (sound : MemorySound store)
    (step : store.write index = some (reply, after)) :
    ∃ save snapshot, store.process.saves index = some save ∧
      store.calls index = some (.locked snapshot) ∧ reply = .done ∧
      ((∃ error, after = { store.setCall index (some (.failed error)) with writer := none }) ∨
        ∃ process taken, save.takeSource store.process.heap store.state = .ok (save.origin, taken) ∧
          (¬ save.Creates → process = store.process) ∧
          (save.Creates → store.process.dispatch index = some process) ∧
          after = { store.setCall index (some .inserted) with
            process := { process with heap := snapshot.markPersisted process.heap }
            state := taken.insert save.source.id snapshot
            written := Function.update store.written save.source.id (some index)
            births := save.births save.origin ++ store.births }) := by
  obtain ⟨save, snapshot, found, locked, replied, outcome⟩ := MemoryStore.write_cases step
  refine ⟨save, snapshot, found, locked, replied, ?_⟩
  rcases outcome with ⟨error, _, rfl⟩ | ⟨origin, taken, process, replaced, started, rfl⟩
  · exact Or.inl ⟨error, rfl⟩
  · obtain ⟨older, saved, _, ⟨guard, guarded⟩, _⟩ := sound.calls index _ locked
    obtain rfl := Option.some.inj (found.symm.trans saved)
    obtain rfl := sound.origin_eq found guarded (Save.takeSource_ok replaced).1
    refine Or.inr ⟨process, taken, replaced, fun update => ?_, fun creates => ?_, rfl⟩
    · rw [if_pos (not_not.mp update)] at started
      exact (Option.some.inj started).symm
    · rwa [if_neg creates] at started

/-- Marking a snapshot as loaded is seen by nobody. -/
theorem hidden_markPersisted {process : Process} {snapshot : Session}
    (apart : process.Apart snapshot) (unrotated : snapshot.rotationFrom = none) :
    process.Hidden (snapshot.markPersisted process.heap) := by
  by_cases moves : snapshot.persistedId process.heap = none ∨
      snapshot.rotationFrom = snapshot.persistedId process.heap
  · have unset : snapshot.persistedId process.heap = none :=
      moves.elim id fun same => same.symm.trans unrotated
    rw [Session.markPersisted_of_moves moves]
    refine ⟨le_rfl, le_rfl, fun _ _ => rfl, fun ref _ => ?_⟩
    by_cases same : ref = snapshot.family
    · rw [same, Heap.setFamily_self]
      exact Or.inr ⟨apart.unreferred, unset, some snapshot.id, rfl⟩
    · exact Or.inl (Heap.setFamily_of_ne _ _ _ same)
  · rw [Session.markPersisted_of_stale moves]
    exact ⟨le_rfl, le_rfl, fun _ _ => rfl, fun _ _ => Or.inl rfl⟩

/-- The writes under the lock: the creating write starts, and the snapshot becomes the record. -/
theorem write (sound : MemorySound store) (step : store.write index = some (reply, after)) :
    store.Advances idOf (.write index) after := by
  obtain ⟨save, snapshot, found, locked, _, outcome⟩ := sound.write_cases step
  obtain ⟨older, saved, undispatched, ⟨guard, guarded⟩, copies⟩ := sound.calls index _ locked
  obtain rfl := Option.some.inj (found.symm.trans saved)
  have holds : store.writer = some index := sound.writer index _ locked trivial
  have alone : ∀ {writer : Option Nat} (key : Nat), key ≠ index → store.writer = some key →
      writer = some key := fun key different held =>
    absurd (Option.some.inj (held.symm.trans holds)) different
  rcases outcome with ⟨error, rfl⟩ | ⟨process, taken, replaced, updates, creates, rfl⟩
  · refine quiet (stay idOf _) (sound.own (stay idOf _).coordinated (fun _ member => member)
      le_rfl rfl (fun key _ => ⟨rfl, rfl⟩) ?_ ?_ alone (fun _ _ found => Or.inr ⟨found, rfl⟩)
      fun _ => Or.inl rfl)
        (.own rfl rfl rfl rfl (by simp) rfl) rfl rfl
    · rintro _ ⟨⟩
      refine ⟨save, found, fun written => ?_⟩
      cases undispatched.symm.trans written
    · rintro _ ⟨⟩ writes
      cases writes
  obtain ⟨checked, records⟩ := Save.takeSource_ok replaced
  obtain ⟨_, _, alive, present, _⟩ := Save.recheck_ok checked
  -- A creation or a rotation starts its write; an update writes over its own record.
  have started : Process.Path idOf Process.Plain store.process process ∧
      (∀ id ∈ store.process.dispatched, id ∈ process.dispatched) ∧
      save.source.id ∈ process.dispatched ∧ process.guards = store.process.guards ∧
      (∀ key ≠ index, process.saves key = store.process.saves key) ∧
      process.nextSave = store.process.nextSave ∧
      ∃ newer, process.saves index = some newer ∧ newer.source = save.source := by
    by_cases update : save.Creates
    · have dispatch := creates update
      obtain ⟨other, lookup, rfl⟩ := Process.dispatch_cases dispatch
      obtain rfl := Option.some.inj (found.symm.trans lookup)
      exact ⟨ordinary (.dispatch found guarded update undispatched dispatch),
        fun id member => List.mem_cons_of_mem _ member, List.mem_cons_self, rfl,
        fun key different => Function.update_of_ne different _ _, rfl, _, Function.update_self _ _ _,
        rfl⟩
    · obtain rfl := updates update
      have own : save.source.id ∈ store.state.records := present _ (not_not.mp update)
      obtain ⟨record, lookup⟩ := Finmap.mem_iff.mp own
      exact ⟨Process.Path.refl, fun _ member => member, (sound.records _ record lookup).born, rfl,
        fun _ _ => rfl, rfl, save, found, rfl⟩
  obtain ⟨first, born, written, guards, saves, nextSave, newer, entry, source⟩ := started
  have apart : process.Apart snapshot := copies.apart.later (first.coordinated.spares sound.dispatching)
  have path : Process.Path idOf Process.Plain store.process
      { process with heap := snapshot.markPersisted process.heap } :=
    first.trans ((Process.Moves.conceal (hidden_markPersisted apart copies.rotationFrom)).path
      (Or.inr rfl))
  have spares := path.coordinated.spares sound.dispatching
  refine ⟨path.coordinated, sound.own path.coordinated born nextSave.ge rfl
    (fun key different => ?_) ?_ ?_ alone (fun id record lookup => ?_) fun _ => Or.inl rfl,
    .write path found replaced (fun update => ?_) (fun update => ?_) rfl rfl rfl
      (fun key now => ?_) rfl rfl⟩
  · exact ⟨saves key different, by rw [guards]⟩
  · rintro _ ⟨⟩
    exact ⟨newer, entry, ⟨guard, guards ▸ guarded⟩, source ▸ written⟩
  · rintro _ ⟨⟩ _
    exact holds
  · have lookup : (taken.insert save.source.id snapshot).records.lookup id = some record := lookup
    rw [MemoryState.lookup_insert] at lookup
    by_cases same : id = save.source.id
    · rw [if_pos same] at lookup
      obtain rfl := Option.some.inj lookup
      subst same
      refine Or.inl ⟨copies.id, copies.apart.later spares, ?_,
        ⟨index, Function.update_self _ _ _, ?_⟩, written⟩
      · refine (copies.apart.isDestroyed_eq spares).trans ?_
        by_contra flag
        cases alive.symm.trans (copies.destroyed (by simpa using flag))
      · exact copies.wire.trans (congrArg some (copies.apart.wire_eq spares).symm)
    · rw [if_neg same, records id] at lookup
      split at lookup
      · cases lookup
      · exact Or.inr ⟨lookup, Function.update_of_ne same _ _⟩
  · show process.dispatched = store.process.dispatched
    rw [updates update]
  · refine ⟨sound.dispatching.unused index guard save guarded found update undispatched, ?_⟩
    obtain ⟨other, lookup, same⟩ := Process.dispatch_cases (creates update)
    obtain rfl := Option.some.inj (found.symm.trans lookup)
    show process.dispatched = save.source.id :: store.process.dispatched
    rw [same]
  · by_contra different
    have now : Function.update store.calls index (some .inserted) key = some .inserted := now
    rw [Function.update_of_ne different] at now
    exact different (Option.some.inj ((sound.writer key _ now trivial).symm.trans holds))

/-- What `finish` does: it takes the record back when the family was destroyed. -/
theorem finish_cases (sound : MemorySound store) (step : store.finish index = some (reply, after)) :
    ∃ save guard, store.process.saves index = some save ∧
      store.process.guards index = some guard ∧ store.calls index = some .inserted ∧
      ((save.source.isDestroyed store.process.heap = true ∧
          after = { store.setCall index (some (.failed .sessionConflict)) with
            process := store.process.setGuard index (some { guard with settled := true })
            state := (store.state.remove save.source.id).2
            writer := none }) ∨
        (save.source.isDestroyed store.process.heap = false ∧
          after = { store.setCall index (some .finished) with
            process := store.process.setGuard index (some { guard with settled := true })
            writer := none })) := by
  obtain ⟨save, process, result, found, inserted, finish, _, outcome⟩ :=
    MemoryStore.finish_cases step
  obtain ⟨guard, guarded, checked, rfl⟩ := Process.finish_cases finish
  refine ⟨save, guard, found, guarded, inserted, ?_⟩
  have destroyed : guard.isDestroyed store.process.heap =
      save.source.isDestroyed store.process.heap := by
    rw [WriteGuard.isDestroyed, sound.dispatching.locking.own index guard save guarded found]
    rfl
  rw [destroyed] at checked
  by_cases flag : save.source.isDestroyed store.process.heap = true
  · rw [if_pos flag] at checked
    obtain ⟨_, refused, rfl⟩ := outcome.resolve_right fun passed => by
      cases checked.symm.trans passed.1
    cases checked.symm.trans refused
    exact Or.inl ⟨flag, rfl⟩
  · rw [if_neg flag] at checked
    obtain ⟨_, rfl⟩ := outcome.resolve_left fun ⟨_, refused, _⟩ => by
      cases checked.symm.trans refused
    exact Or.inr ⟨by simpa using flag, rfl⟩

theorem finish (sound : MemorySound store) (step : store.finish index = some (reply, after)) :
    store.Advances idOf (.finish index) after := by
  obtain ⟨save, guard, found, guarded, inserted, outcome⟩ := sound.finish_cases step
  obtain ⟨older, saved, _, born⟩ := sound.calls index _ inserted
  obtain rfl := Option.some.inj (found.symm.trans saved)
  have finished : store.process.finish index =
      some (if guard.isDestroyed store.process.heap then .error .sessionConflict else .ok (),
        store.process.setGuard index (some { guard with settled := true })) := by
    simp only [Process.finish, guarded, Option.bind_eq_bind, Option.bind_some]
    rfl
  have path : Process.Path idOf Process.Plain store.process
      (store.process.setGuard index (some { guard with settled := true })) :=
    ordinary (.finish finished)
  have alone : ∀ {writer : Option Nat} (key : Nat), key ≠ index → store.writer = some key →
      writer = some key := fun key different held =>
    absurd (Option.some.inj (held.symm.trans (sound.writer index _ inserted trivial))) different
  have others : ∀ key ≠ index, Function.update store.process.guards index
      (some { guard with settled := true }) key = store.process.guards key :=
    fun key different => Function.update_of_ne different _ _
  rcases outcome with ⟨destroyed, rfl⟩ | ⟨_, rfl⟩
  · have shrinks : ∀ id record,
        (store.state.remove save.source.id).2.records.lookup id = some record →
          store.state.records.lookup id = some record := by
      intro id record lookup
      rw [MemoryState.lookup_remove] at lookup
      split at lookup
      · cases lookup
      · exact lookup
    have elsewhere : ∀ key, Function.update store.calls index
        (some (.failed .sessionConflict)) key ≠ some .inserted := by
      intro key now
      by_cases same : key = index
      · rw [same, Function.update_self] at now
        cases now
      · rw [Function.update_of_ne same] at now
        have holds := sound.writer index _ inserted trivial
        exact same (Option.some.inj ((sound.writer key _ now trivial).symm.trans holds))
    refine quiet path (sound.own path.coordinated (fun _ member => member) le_rfl rfl
      (fun key different => ⟨rfl, others key different⟩) ?_ ?_ alone
      (fun id record lookup => Or.inr ⟨shrinks id record lookup, rfl⟩) fun _ => Or.inl rfl)
      ⟨rfl, rfl, rfl, shrinks, fun key now => absurd now (elsewhere key)⟩ rfl rfl
    · rintro _ ⟨⟩
      exact ⟨save, found, fun _ => destroyed⟩
    · rintro _ ⟨⟩ writes
      cases writes
  · refine quiet path (sound.own path.coordinated (fun _ member => member) le_rfl rfl
      (fun key different => ⟨rfl, others key different⟩) ?_ ?_ alone
        (fun _ _ found => Or.inr ⟨found, rfl⟩) fun _ => Or.inl rfl)
      (.own rfl rfl rfl rfl (by simp) rfl) rfl rfl
    · rintro _ ⟨⟩
      exact ⟨save, found, ⟨_, Function.update_self _ _ _⟩, born⟩
    · rintro _ ⟨⟩ writes
      cases writes

theorem complete (sound : MemorySound store) (step : store.complete index = some (reply, after)) :
    store.Advances idOf (.complete index) after := by
  obtain ⟨save, cookie, process, finished, found, complete, _, rfl⟩ :=
    MemoryStore.complete_cases step
  obtain ⟨older, saved, ⟨guard, guarded⟩, born⟩ := sound.calls index _ finished
  have path : Process.Path idOf Process.Coordinated store.process process :=
    (Process.Moves.complete guarded complete).path ⟨by simp, by simp⟩
  obtain ⟨other, revision, _, _, _, rfl⟩ := Process.complete_of_guard guarded complete
  refine ⟨path, sound.own path (fun _ member => member) le_rfl rfl (fun key different => ?_) ?_ ?_
    (fun key _ held => held) (fun _ _ found => Or.inr ⟨found, rfl⟩) fun _ => Or.inl rfl,
    .complete found guarded (Option.some.inj (saved.symm.trans found) ▸ born) complete
      (.own rfl rfl rfl rfl (by simp) rfl) rfl rfl⟩
  · exact ⟨Function.update_of_ne different _ _, Function.update_of_ne different _ _⟩
  · rintro _ ⟨⟩
  · rintro _ ⟨⟩

/-- A call ends without success: its guard and its revision are dropped. -/
theorem abandon (sound : MemorySound store) {action : MemoryAction}
    (abandonable : store.process.Abandonable index) : store.Advances idOf action
      { store.setCall index none with process := store.process.abandon index } := by
  have path : Process.Path idOf Process.Plain store.process (store.process.abandon index) :=
    ordinary (.abandon abandonable)
  have tables : (store.process.abandon index).dispatched = store.process.dispatched ∧
      (store.process.abandon index).nextSave = store.process.nextSave := by
    obtain ⟨heap, abandoned⟩ := store.process.abandon_eq index
    rw [abandoned]
    exact ⟨rfl, rfl⟩
  refine quiet path (sound.own path.coordinated (fun _ member => tables.1 ▸ member) tables.2.ge rfl
    (fun key different => ?_) ?_ ?_ (fun key _ held => held) (fun _ _ found => Or.inr ⟨found, rfl⟩)
      fun _ => Or.inl rfl) (.own rfl rfl tables.1 rfl (by simp) rfl) rfl rfl
  · show (store.process.abandon index).saves key = _ ∧ (store.process.abandon index).guards key = _
    rw [Process.abandon, Process.saves_dropSave, Process.saves_dropGuard, Agreement.guards_dropSave,
      Process.guards_dropGuard]
    exact ⟨Function.update_of_ne different _ _, Function.update_of_ne different _ _⟩
  · rintro _ ⟨⟩
  · rintro _ ⟨⟩

theorem fail (sound : MemorySound store) (step : store.fail index = some (reply, after)) :
    store.Advances idOf (.fail index) after := by
  obtain ⟨error, failed, _, rfl⟩ := MemoryStore.fail_cases step
  obtain ⟨save, saved, ready⟩ := sound.calls index _ failed
  refine sound.abandon fun other found written => Or.inl ?_
  obtain rfl := Option.some.inj (saved.symm.trans found)
  exact ready written

theorem cancelStore (sound : MemorySound store)
    (step : store.cancelStore index = some (reply, after)) :
    store.Advances idOf (.cancelStore index) after := by
  have unsent : ∀ {save : Save}, store.process.saves index = some save → save.dispatched = false →
      store.process.Abandonable index := by
    intro save found undispatched other lookup written
    obtain rfl := Option.some.inj (found.symm.trans lookup)
    cases undispatched.symm.trans written
  obtain ⟨⟨snapshot, captured | guarded⟩, _, rfl⟩ := MemoryStore.cancelStore_cases step
  · obtain ⟨save, saved, undispatched, _⟩ := sound.calls index _ captured
    exact sound.abandon (unsent saved undispatched)
  · obtain ⟨save, saved, undispatched, _⟩ := sound.calls index _ guarded
    exact sound.abandon (unsent saved undispatched)

/-! ### Destroying, clearing and cleaning -/

theorem handle (sound : MemorySound store) {action : HandleAction} {process : Process}
    (step : store.process.handleStep idOf action = some (reply, process)) :
    store.Advances idOf (.handle action) { store with process } := by
  have path : Process.Path idOf Process.Plain store.process process := ordinary (.handle step)
  obtain ⟨_, _, _, _, rfl⟩ := Process.handleStep_eq step
  exact quiet path (sound.still path.coordinated rfl rfl rfl rfl rfl rfl (fun _ _ found => found)
    rfl rfl) (.still rfl rfl rfl rfl rfl) rfl rfl

theorem destroySession (sound : MemorySound store)
    (step : store.destroySession index = some (reply, after)) :
    store.Advances idOf (.destroySession index) after := by
  obtain ⟨process, request, rfl⟩ := MemoryStore.destroySession_cases step
  have first : Process.Path idOf Process.Plain store.process process :=
    ordinary (.requestDelete request)
  obtain ⟨session, found, _, same⟩ := Process.requestDelete_cases request
  have still : process.handles index = some session := by
    rw [same]
    exact found
  have path := first.trans (ordinary (.handle (Process.handleStep_drop still)))
  subst same
  exact quiet path (sound.still path.coordinated rfl rfl rfl rfl rfl rfl (fun _ _ found => found)
    rfl rfl) (.still rfl rfl rfl rfl rfl) rfl rfl

theorem grantDelete (sound : MemorySound store)
    (step : store.grantDelete index = some (reply, after)) :
    store.Advances idOf (.grantDelete index) after := by
  obtain ⟨process, grant, rfl⟩ := MemoryStore.grantDelete_cases step
  have path : Process.Path idOf Process.Plain store.process process :=
    ordinary (.grantDelete grant)
  obtain ⟨deletion, _, _, _, ⟨_, _, _, rfl⟩ | ⟨_, _, _, _, rfl⟩⟩ := Process.grantDelete_cases grant
  · exact quiet path (sound.still path.coordinated rfl rfl rfl rfl rfl rfl (fun _ _ found => found)
    rfl rfl) (.still rfl rfl rfl rfl rfl) rfl rfl
  · exact quiet path (sound.still path.coordinated rfl rfl rfl rfl rfl rfl (fun _ _ found => found)
    rfl rfl) (.still rfl rfl rfl rfl rfl) rfl rfl

/-- A deletion is dropped, with or without a record that it removed. -/
theorem dropDelete (sound : MemorySound store) {action : MemoryAction} (index : Nat)
    {state : MemoryState} (records : ∀ id record, state.records.lookup id = some record →
      store.state.records.lookup id = some record)
    (free : store.writer = none ∨ state = store.state) :
    store.Advances idOf action { store with process := store.process.dropDelete index, state } := by
  have path : Process.Path idOf Process.Plain store.process (store.process.dropDelete index) :=
    ordinary (.dropDelete index)
  have tables : (store.process.dropDelete index).dispatched = store.process.dispatched ∧
      (store.process.dropDelete index).saves = store.process.saves ∧
        (store.process.dropDelete index).nextSave = store.process.nextSave := by
    obtain ⟨heap, dropped⟩ := store.process.dropDelete_eq index
    rw [dropped]
    exact ⟨rfl, rfl, rfl⟩
  exact quiet path (sound.still path.coordinated tables.1 tables.2.1
    (Agreement.guards_dropDelete _ _) tables.2.2 rfl rfl records rfl rfl)
    ⟨rfl, rfl, tables.1, records, fun _ now => ⟨now, sound.untouched now free⟩⟩ rfl rfl

theorem removeRecord (sound : MemorySound store)
    (step : store.removeRecord index = some (reply, after)) :
    store.Advances idOf (.removeRecord index) after := by
  obtain ⟨deletion, target, _, _, free, _, rfl⟩ := MemoryStore.removeRecord_cases step
  refine sound.dropDelete index (fun id record lookup => ?_) (Or.inl free)
  rw [MemoryState.lookup_remove] at lookup
  split at lookup
  · cases lookup
  · exact lookup

theorem cancelDestroy (sound : MemorySound store)
    (step : store.cancelDestroy index = some (reply, after)) :
    store.Advances idOf (.cancelDestroy index) after := by
  obtain ⟨deletion, _, _, rfl⟩ := MemoryStore.cancelDestroy_cases step
  exact sound.dropDelete index (fun _ _ found => found) (Or.inr rfl)

/-- A step that removes records at most. -/
theorem shrink (sound : MemorySound store) {action : MemoryAction} {state : MemoryState}
    {cleanups : Nat → Option Cleanup} {nextCleanup : Nat}
    (records : ∀ id record, state.records.lookup id = some record →
      store.state.records.lookup id = some record)
    (free : store.writer = none ∨ state = store.state) :
    store.Advances idOf action { store with state, cleanups, nextCleanup } :=
  quiet (stay idOf _) (sound.still (stay idOf _).coordinated rfl rfl rfl rfl rfl rfl records rfl rfl)
    ⟨rfl, rfl, rfl, records, fun _ now => ⟨now, sound.untouched now free⟩⟩ rfl rfl

theorem clearStore (sound : MemorySound store)
    (step : store.clearStore = some (reply, after)) : store.Advances idOf .clearStore after := by
  obtain ⟨free, _, rfl⟩ := MemoryStore.clearStore_cases step
  exact sound.shrink (fun _ _ found => by cases found) (Or.inl free)

theorem cleanupBatch (sound : MemorySound store) {limit : UInt32} {now : DateTime}
    (step : store.cleanupBatch limit now = some (reply, after)) :
    store.Advances idOf (.cleanupBatch limit now) after := by
  obtain ⟨_, _, rfl⟩ | ⟨_, _, ⟨_, _, rfl⟩ | ⟨_, rfl⟩⟩ := MemoryStore.cleanupBatch_cases step <;>
    exact sound.shrink (fun _ _ found => found) (Or.inr rfl)

theorem removeChunk (sound : MemorySound store)
    (step : store.removeChunk index = some (reply, after)) :
    store.Advances idOf (.removeChunk index) after := by
  obtain ⟨_, _, _, free, _, ⟨_, _, rfl⟩ | ⟨_, _, rfl⟩⟩ := MemoryStore.removeChunk_cases step <;>
    exact sound.shrink (fun id _ found => MemoryState.lookup_removeExpired _ _ _ id found)
      (Or.inl free)

theorem cancelCleanup (sound : MemorySound store)
    (step : store.cancelCleanup index = some (reply, after)) :
    store.Advances idOf (.cancelCleanup index) after := by
  obtain ⟨cleanup, _, _, rfl⟩ := MemoryStore.cancelCleanup_cases step
  exact sound.shrink (fun _ _ found => found) (Or.inr rfl)

end MemorySound

/-! ### Loading -/

/-- The session that a load hands out for a record. -/
def Session.fetched (heap : Heap) (record : Session) : Session where
  id := record.id
  expiry := record.expiry
  data := heap.nextCell
  cookieValue := none
  metadataChanged := false
  rotationFrom := none
  fresh := false
  family := heap.nextFamily + 1

/-- The heap after a load: the copy of the record, adopted in place, and its new family. -/
def Session.fetchedHeap (heap : Heap) (record : Session) : Heap :=
  ((record.snapshot heap).1.editData (record.snapshot heap).2 SessionData.adopt).allocFamily
    { persistedId := some record.id }

namespace MemorySound

variable {idOf : Cookie → Option Id} {store after : MemoryStore} {reply : Reply} {index : Nat}
  {cookie : Cookie} {now later : DateTime}

theorem validateLoaded_snapshot {heap : Heap} {record : Session} (bound : idOf cookie = some record.id)
    (alive : record.isDestroyed heap = false) :
    (record.snapshot heap).1.validateLoaded idOf (record.snapshot heap).2 false cookie later =
      if record.isExpired later then .ok none
      else .ok (some (record.fetched heap, record.fetchedHeap heap)) := by
  have copied : (record.snapshot heap).1.isDestroyed (record.snapshot heap).2 = false := by
    refine Eq.trans ?_ alive
    show ((heap.allocFamily { destroy := record.isDestroyed heap }).families
      heap.nextFamily).destroy = _
    rw [Heap.allocFamily_self]
  have expires : (record.snapshot heap).1.isExpired later = record.isExpired later := rfl
  have same : ¬ (record.snapshot heap).1.id ≠ record.id := fun different => different rfl
  unfold Session.validateLoaded
  rw [bound]
  dsimp only
  rw [if_neg same, expires, copied]
  split <;> rfl

/-- What a load does: a record is found and copied only when it is unexpired at both readings of
the clock. -/
theorem loadSession_cases (sound : MemorySound store)
    (step : store.loadSession idOf cookie now later = some (reply, after)) :
    (idOf cookie = none ∧ reply = .error .cookieFormat ∧ after = store) ∨
    ∃ id, idOf cookie = some id ∧ store.writer = none ∧
      (((∀ record, store.state.records.lookup id = some record → record.isExpired now = true) ∧
          reply = .missing ∧ after = store) ∨
        ∃ record, store.state.records.lookup id = some record ∧ record.isExpired now = false ∧
          ((record.isExpired later = true ∧ reply = .missing ∧
              after = { store with
                process := { store.process with heap := (record.snapshot store.process.heap).2 } }) ∨
            (record.isExpired later = false ∧ reply = .handle store.process.nextHandle ∧
              after = { store with
                process := (store.process.see record.id).addHandle
                  (record.fetched store.process.heap) (record.fetchedHeap store.process.heap)
                history := Function.update store.history
                  (record.fetched store.process.heap).family [record.id] }))) := by
  rcases MemoryStore.loadSession_cases step with malformed | ⟨id, bound, free, outcome⟩
  · exact Or.inl malformed
  refine Or.inr ⟨id, bound, free, ?_⟩
  rcases outcome with ⟨absent, replied, same⟩ | ⟨record, validated, present, valid, outcome⟩
  · refine Or.inl ⟨fun record found => ?_, replied, same⟩
    rw [found] at absent
    simpa using absent
  · obtain ⟨found, unexpired⟩ := Option.filter_eq_some_iff.mp present
    obtain ⟨same, _, alive, _⟩ := sound.records id record found
    refine Or.inr ⟨record, found, by simpa using unexpired, ?_⟩
    rw [validateLoaded_snapshot (same ▸ bound) alive] at valid
    by_cases expired : record.isExpired later = true
    · rw [if_pos expired] at valid
      subst valid
      obtain ⟨⟨_, wrong, _⟩ | ⟨_, replied⟩, unchanged⟩ | ⟨_, _, wrong, _⟩ := outcome
      · cases wrong
      · exact Or.inl ⟨expired, replied, unchanged⟩
      · cases wrong
    · rw [if_neg expired] at valid
      subst valid
      obtain ⟨⟨_, wrong, _⟩ | ⟨wrong, _⟩, _⟩ | ⟨_, _, fetched, replied, loaded⟩ := outcome
      · cases wrong
      · cases wrong
      · cases fetched
        exact Or.inr ⟨by simpa using expired, replied, loaded⟩

theorem fetches_fetched (process : Process) (record : Session) :
    process.Fetches (record.fetched process.heap) (record.fetchedHeap process.heap) where
  nextFamily := Nat.le_succ _
  family := Nat.lt_succ_self _
  nextCell := Nat.le_succ _
  data := Nat.lt_succ_self _
  families ref old := by
    show ((process.heap.allocFamily _).allocFamily _).families ref = _
    rw [Heap.allocFamily_of_lt _ _ (old.trans (Nat.lt_succ_self _)), Heap.allocFamily_of_lt _ _ old]
  marker := Heap.allocFamily_self _ _
  rotationFrom := rfl
  fresh := rfl
  fresh_data := le_rfl
  cells ref old := by
    show (((record.snapshot process.heap).2.setCell process.heap.nextCell _).cells ref) = _
    rw [Heap.setCell_of_ne _ _ _ (ne_of_lt old)]
    exact Heap.allocCell_of_lt _ _ old

theorem hidden_snapshot (process : Process) (record : Session) :
    process.Hidden (record.snapshot process.heap).2 where
  nextFamily := Nat.le_succ _
  nextCell := Nat.le_succ _
  cells _ old := Heap.allocCell_of_lt _ _ old
  families _ old := Or.inl (Heap.allocFamily_of_lt _ _ old)

theorem loadSession (sound : MemorySound store)
    (step : store.loadSession idOf cookie now later = some (reply, after)) :
    store.Advances idOf (.loadSession cookie now later) after := by
  have nothing : store.Advances idOf (.loadSession cookie now later) store :=
    quiet (stay idOf _) sound (.still rfl rfl rfl rfl rfl) rfl rfl
  rcases sound.loadSession_cases step with ⟨_, _, rfl⟩ | ⟨id, _, _, ⟨_, _, rfl⟩ |
    ⟨record, found, _, ⟨_, _, rfl⟩ | ⟨_, _, rfl⟩⟩⟩
  · exact nothing
  · exact nothing
  · have path : Process.Path idOf Process.Plain store.process
        { store.process with heap := (record.snapshot store.process.heap).2 } :=
      (Process.Moves.conceal (hidden_snapshot store.process record)).path (Or.inr rfl)
    exact quiet path (sound.still path.coordinated rfl rfl rfl rfl rfl rfl (fun _ _ found => found)
    rfl rfl) (.still rfl rfl rfl rfl rfl) rfl rfl
  · obtain ⟨same, _, _, _, born⟩ := sound.records id record found
    have path : Process.Path idOf Process.Coordinated store.process
        ((store.process.see record.id).addHandle (record.fetched store.process.heap)
          (record.fetchedHeap store.process.heap)) :=
      (Process.Moves.adopt (fetches_fetched store.process record) (same ▸ born)).path
        ⟨by simp, by simp⟩
    exact ⟨path, sound.still path rfl rfl rfl rfl rfl rfl (fun _ _ found => found) rfl rfl,
      .load (fetches_fetched store.process record) (same ▸ born) (.still rfl rfl rfl rfl rfl) rfl rfl
        rfl⟩

/-- Every step of the store is a path of moves, and preserves the invariant. -/
theorem advances (sound : MemorySound store) {action : MemoryAction}
    (step : (memoryStore idOf).step store action = some (reply, after)) :
    store.Advances idOf action after := by
  cases action with
  | handle action =>
    obtain ⟨process, handled, rfl⟩ := MemoryStore.handle_cases step
    exact sound.handle handled
  | loadSession cookie now later => exact sound.loadSession step
  | storeSession index => exact sound.storeSession step
  | capture index => exact sound.capture step
  | beginBackendWrite index => exact sound.beginBackendWrite step
  | lock index => exact sound.lock step
  | write index => exact sound.write step
  | finish index => exact sound.finish step
  | complete index => exact sound.complete step
  | fail index => exact sound.fail step
  | cancelStore index => exact sound.cancelStore step
  | destroySession index => exact sound.destroySession step
  | grantDelete index => exact sound.grantDelete step
  | removeRecord index => exact sound.removeRecord step
  | cancelDestroy index => exact sound.cancelDestroy step
  | clearStore => exact sound.clearStore step
  | cleanupBatch limit now => exact sound.cleanupBatch step
  | removeChunk index => exact sound.removeChunk step
  | cancelCleanup index => exact sound.cancelCleanup step

theorem step (sound : MemorySound store) {action : MemoryAction}
    (step : (memoryStore idOf).step store action = some (reply, after)) : MemorySound after :=
  (sound.advances step).sound

theorem reachable (reachable : (memoryStore idOf).Reachable store) : MemorySound store := by
  refine reachable.invariant (fun initial => ?_) fun sound step => sound.step step
  obtain rfl : _ = MemoryStore.initial := initial
  exact memorySound_initial

end MemorySound

end Saysion
