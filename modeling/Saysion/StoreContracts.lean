/-
This file compares the server-side stores of the crate by what one call of
`store_session` does to their records. `MemoryStore`, the SQL stores and Redis
decide the same case split by different means, and the outcome is the same
conditional write; Redis leaves it where a session has already expired, and
MongoDB where a target is occupied.

Exactly there the promise fails that a record which is gone, or an id that is
taken, is reported as a conflict.
-/

import Saysion.LoneMemoryCalls
import Saysion.MemoryAtomicity
import Saysion.SessionSave

namespace Saysion

/-! ### The programs of the stores -/

/-- A program writes its row under the conditions of a conditional write, or reports a conflict. -/
structure Program.Conditional (heap : Heap) (session : Session) (rows : Id → Option Row)
    (program : Program) : Prop where
  written : session.MayStore heap (recordsOf rows) → ∃ last, program.run rows = (.written, last) ∧
    recordsOf last = session.stored heap (recordsOf rows)
  refused : ¬ session.MayStore heap (recordsOf rows) →
    program.run rows = (.failed .sessionConflict, rows)

section Programs

variable {heap : Heap} {session : Session} {origin : Option Id} {rows : Id → Option Row}
  {row : Row} {program : Program}

theorem recordsOf_eq_none {id : Id} : recordsOf rows id = none ↔ rows id = none :=
  Option.map_eq_none_iff

/-- A row that is written is a record that is written. -/
theorem recordsOf_update (rows : Id → Option Row) (id : Id) (row : Option Row) :
    recordsOf (Function.update rows id row) =
      Function.update (recordsOf rows) id (row.map Row.session) := by
  funext key
  unfold recordsOf
  by_cases same : key = id
  · rw [same, Function.update_self, Function.update_self]
  · rw [Function.update_of_ne same, Function.update_of_ne same]

/-- A conditional program is a conditional write. -/
theorem Program.Conditional.outcome (conditional : program.Conditional heap session rows)
    (granted : session.persistenceOrigin heap = .ok origin) :
    (program.run rows).1.outcome heap session (recordsOf (program.run rows).2) =
      session.conditionalWrite heap (recordsOf rows) := by
  by_cases may : session.MayStore heap (recordsOf rows)
  · obtain ⟨last, ran, stored⟩ := conditional.written may
    rw [ran, Session.conditionalWrite_written may, ← stored]
  · rw [conditional.refused may, Session.conditionalWrite_failed granted may]

/-- A creation is conditional when it looks whether its id is free. -/
theorem Program.conditional_create (granted : session.persistenceOrigin heap = .ok none)
    (written : row.session = session.wire heap)
    (absent : rows session.id = none →
      program.run rows = (.written, Function.update rows session.id (some row)))
    (present : rows session.id ≠ none → program.run rows = (.failed .sessionConflict, rows)) :
    program.Conditional heap session rows := by
  constructor
  · rw [Session.mayStore_create granted, recordsOf_eq_none]
    intro free
    refine ⟨_, absent free, ?_⟩
    rw [recordsOf_update, Session.stored_create granted, Option.map_some, written]
  · rw [Session.mayStore_create granted, recordsOf_eq_none]
    exact present

/-- An update is conditional when it looks whether its record is there. -/
theorem Program.conditional_update
    (granted : session.persistenceOrigin heap = .ok (some session.id))
    (written : row.session = session.wire heap)
    (absent : rows session.id = none → program.run rows = (.failed .sessionConflict, rows))
    (present : rows session.id ≠ none →
      program.run rows = (.written, Function.update rows session.id (some row))) :
    program.Conditional heap session rows := by
  constructor
  · rw [Session.mayStore_update granted, Ne, recordsOf_eq_none]
    intro there
    refine ⟨_, present there, ?_⟩
    rw [recordsOf_update, Session.stored_update granted, Option.map_some, written]
  · rw [Session.mayStore_update granted, Ne, recordsOf_eq_none, not_not]
    exact absent

/-- A rotation is conditional when it looks at both ends. -/
theorem Program.conditional_rotate {source : Id}
    (granted : session.persistenceOrigin heap = .ok (some source)) (different : source ≠ session.id)
    (written : row.session = session.wire heap)
    (moved : rows source ≠ none → rows session.id = none → program.run rows =
      (.written, Function.update (Function.update rows source none) session.id (some row)))
    (refused : rows source = none ∨ rows session.id ≠ none →
      program.run rows = (.failed .sessionConflict, rows)) :
    program.Conditional heap session rows := by
  constructor
  · rw [Session.mayStore_rotate granted different, Ne, recordsOf_eq_none, recordsOf_eq_none]
    intro free
    refine ⟨_, moved free.1 free.2, ?_⟩
    rw [recordsOf_update, recordsOf_update, Session.stored_rotate granted, Option.map_some,
      Option.map_none, written]
  · rw [Session.mayStore_rotate granted different, Ne, recordsOf_eq_none, recordsOf_eq_none,
      not_and_or, not_not]
    exact refused

theorem filter_own (id : Id) : (some id).filter (· ≠ id) = none := by simp

theorem filter_other {id source : Id} (different : source ≠ id) :
    (some source).filter (· ≠ id) = some source := by simp [different]

end Programs

/-! ### The SQL stores -/

namespace SqlxStore

variable {heap : Heap} {session : Session} {origin : Option Id} {snapshot : SessionSnapshot}

theorem write_own (snapshot : SessionSnapshot) : write (some snapshot.id) snapshot =
    .send (.update snapshot.id (row snapshot)) fun updated =>
      if updated ≠ .affected 1 then .failed .sessionConflict else .written := by
  unfold write
  rw [filter_own]
  rfl

theorem write_other {source : Id} (different : source ≠ snapshot.id) :
    write (some source) snapshot =
      .send (.transaction source snapshot.id (row snapshot)) fun
        | .affected removed => if removed ≠ 1 then .failed .sessionConflict else .written
        | refused => .failed (mapInsertError refused) := by
  have rotated := filter_other different
  unfold write
  split
  · rename_i found
    obtain rfl := Option.some.inj (rotated.symm.trans found)
    rfl
  · rename_i kept
    cases rotated.symm.trans kept

/-- The three branches of a SQL store are conditional; a violated key is a conflict. -/
theorem conditional_write (granted : session.persistenceOrigin heap = .ok origin)
    (rows : Id → Option Row) :
    (write origin (session.wire heap)).Conditional heap session rows := by
  have written : (row (session.wire heap)).session = session.wire heap := rfl
  cases origin with
  | none =>
    refine Program.conditional_create granted written (fun absent => ?_) fun present => ?_
    · show Program.run rows (.send (.insert session.id _) _) = _
      simp only [Program.run, Command.execute, Backend.insert_of_absent absent]
    · show Program.run rows (.send (.insert session.id _) _) = _
      simp only [Program.run, Command.execute, Backend.insert_of_present present, mapInsertError]
  | some source =>
    by_cases own : source = session.id
    · subst own
      have update := write_own (session.wire heap)
      refine Program.conditional_update granted written (fun absent => ?_) fun present => ?_
      · refine (congrArg (Program.run rows) update).trans ?_
        show Program.run rows (.send (.update session.id _) _) = _
        simp [Program.run, Command.execute, Backend.update_of_absent absent]
      · refine (congrArg (Program.run rows) update).trans ?_
        show Program.run rows (.send (.update session.id _) _) = _
        simp [Program.run, Command.execute, Backend.update_of_present present]
    · have different : source ≠ (session.wire heap).id := own
      rw [write_other different]
      refine Program.conditional_rotate granted own written (fun there vacant => ?_) fun refused => ?_
      · show Program.run rows (.send (.transaction source session.id _) _) = _
        simp [Program.run, Command.execute, Backend.transaction_of_vacant there own vacant]
      · show Program.run rows (.send (.transaction source session.id _) _) = _
        by_cases absent : rows source = none
        · simp [Program.run, Command.execute, Backend.transaction_of_absent absent]
        · simp [Program.run, Command.execute, mapInsertError,
            Backend.transaction_of_collision absent own (refused.resolve_left absent)]

end SqlxStore

/-! ### Redis -/

namespace RedisStore

variable {heap : Heap} {session : Session} {origin : Option Id} {snapshot : SessionSnapshot}
  {now : DateTime}

/-- Before its expiry a snapshot is written, with some time to live. -/
theorem write_unexpired (origin : Option Id) (started : now.Supported)
    (ends : ∀ expiry, snapshot.expiry = some expiry → expiry.Supported)
    (valid : snapshot.isExpired now = false) :
    ∃ ttl, write origin snapshot now =
      match origin.filter (· ≠ snapshot.id) with
      | some oldId => rotate oldId snapshot ttl
      | none => set origin snapshot ttl := by
  unfold write
  cases expiring : snapshot.expiry with
  | none =>
    have unbounded : snapshot.expiresIn now = none := by
      unfold SessionSnapshot.expiresIn
      rw [expiring]
      rfl
    refine ⟨none, ?_⟩
    rw [unbounded]
    cases origin.filter (· ≠ snapshot.id) with
    | none => exact if_neg (by simp)
    | some oldId => rfl
  | some expiry =>
    obtain ⟨left, positive⟩ := SessionSnapshot.expiresIn_valid expiring valid
    obtain ⟨millis, converted, _⟩ := ttlMillis_supported started (ends expiry expiring) positive
    refine ⟨some millis, ?_⟩
    rw [left]
    dsimp only
    rw [converted, if_neg (by simp)]
    rfl

/-- From its expiry on it removes what its family has stored. -/
theorem write_expired (origin : Option Id) (expired : snapshot.isExpired now = true) :
    write origin snapshot now =
      .send (.delete ((origin.filter (· ≠ snapshot.id)).getD snapshot.id)) fun _ => .revoked := by
  have left := SessionSnapshot.expiresIn_expired expired
  unfold write
  cases expiring : snapshot.expiry with
  | none =>
    unfold SessionSnapshot.isExpired at expired
    rw [expiring] at expired
    cases expired
  | some expiry =>
    rw [left]
    cases origin.filter (· ≠ snapshot.id) with
    | none => exact if_pos ⟨rfl, rfl⟩
    | some oldId => rfl

/-- Before the expiry, the conditions are those of the script and of `NX` and `XX`. -/
theorem conditional_write (granted : session.persistenceOrigin heap = .ok origin)
    (started : now.Supported) (ends : ∀ expiry, session.expiry = some expiry → expiry.Supported)
    (valid : session.isExpired now = false) (rows : Id → Option Row) :
    (write origin (session.wire heap) now).Conditional heap session rows := by
  have unexpired : (session.wire heap).isExpired now = false := valid
  obtain ⟨ttl, written⟩ := @write_unexpired (session.wire heap) now origin started ends unexpired
  rw [written]
  have kept : (row (session.wire heap) ttl).session = session.wire heap := rfl
  cases origin with
  | none =>
    refine Program.conditional_create granted kept (fun absent => ?_) fun present => ?_
    · show Program.run rows (.send (.setNx session.id _) _) = _
      simp [Program.run, Command.execute, Backend.setNx_of_absent absent]
    · show Program.run rows (.send (.setNx session.id _) _) = _
      simp [Program.run, Command.execute, Backend.setNx_of_present present]
  | some source =>
    by_cases own : source = session.id
    · subst own
      rw [show (session.wire heap).id = session.id from rfl, filter_own]
      refine Program.conditional_update granted kept (fun absent => ?_) fun present => ?_
      · show Program.run rows (.send (.update session.id _) _) = _
        simp [Program.run, Command.execute, Backend.update_of_absent absent]
      · show Program.run rows (.send (.update session.id _) _) = _
        simp [Program.run, Command.execute, Backend.update_of_present present]
    · rw [show (session.wire heap).id = session.id from rfl, filter_other own]
      refine Program.conditional_rotate granted own kept (fun there vacant => ?_) fun refused => ?_
      · show Program.run rows (.send (.eval source session.id _) _) = _
        simp [Program.run, Command.execute, Backend.eval_of_vacant there own vacant]
      · show Program.run rows (.send (.eval source session.id _) _) = _
        simp [Program.run, Command.execute, Backend.eval_of_refused refused]

end RedisStore

/-! ### What a save may have lost -/

namespace Session

/-- The record is gone that the marker of the family names. -/
def Lost (heap : Heap) (records : RecordMap) (session : Session) : Prop :=
  ∃ source, session.persistedId heap = some source ∧ records source = none

/-- A record is there under the id that a creation or a rotation wants. -/
def Occupied (heap : Heap) (records : RecordMap) (session : Session) : Prop :=
  session.persistedId heap ≠ some session.id ∧ records session.id ≠ none

variable {heap : Heap} {records : RecordMap} {session : Session}

theorem MayStore.kept (may : session.MayStore heap records) : ¬ session.Lost heap records := by
  rintro ⟨source, saved, absent⟩
  have granted := may.granted
  rw [saved] at granted
  by_cases own : source = session.id
  · subst own
    exact (mayStore_update granted).mp may absent
  · exact ((mayStore_rotate granted own).mp may).1 absent

theorem MayStore.free (may : session.MayStore heap records) : ¬ session.Occupied heap records := by
  rintro ⟨other, present⟩
  have granted := may.granted
  cases saved : session.persistedId heap with
  | none =>
    rw [saved] at granted
    exact present ((mayStore_create granted).mp may)
  | some source =>
    rw [saved] at granted other
    have different : source ≠ session.id := fun own => other (congrArg some own)
    exact present ((mayStore_rotate granted different).mp may).2

end Session

/-! ### MongoDB -/

namespace MongoDbStore

variable {heap : Heap} {session : Session} {origin : Option Id} {snapshot : SessionSnapshot}
  {document : Row} {rows : Id → Option Row} {id : Id}

/-- Every supported expiry has its milliseconds. -/
theorem row_supported (ends : ∀ expiry, snapshot.expiry = some expiry → expiry.Supported) :
    ∃ document, row snapshot = some document ∧ document.session = snapshot := by
  unfold row
  cases expiring : snapshot.expiry with
  | none => exact ⟨_, rfl, rfl⟩
  | some expiry =>
    obtain ⟨millis, converted, _⟩ := expiryDatetime_supported (ends expiry expiring)
    dsimp only
    rw [converted]
    exact ⟨_, rfl, rfl⟩

theorem run_insertOne_absent (absent : rows id = none) :
    (insertOne id document).run rows = (.written, Function.update rows id (some document)) := by
  simp [insertOne, Program.run, Command.execute, Backend.insert_of_absent absent]

/-- The error of the driver is passed on, whatever it says. -/
theorem run_insertOne_present (present : rows id ≠ none) :
    (insertOne id document).run rows = (.failed .backend, rows) := by
  simp [insertOne, Program.run, Command.execute, Backend.insert_of_present present]

theorem write_none (made : row snapshot = some document) :
    write none snapshot = insertOne snapshot.id document := by
  unfold write
  rw [made]
  rfl

theorem write_own (made : row snapshot = some document) : write (some snapshot.id) snapshot =
    .send (.update snapshot.id document) fun replaced =>
      if replaced ≠ .affected 1 then .failed .sessionConflict else .written := by
  unfold write
  rw [made, filter_own]
  rfl

theorem write_other {source : Id} (made : row snapshot = some document)
    (different : source ≠ snapshot.id) : write (some source) snapshot =
      .send (.delete source) fun deleted =>
        if deleted = .affected 0 then .failed .sessionConflict
        else insertOne snapshot.id document := by
  unfold write
  rw [made, filter_other different]

/-- A rotation removes its source first. -/
theorem run_rotation {source : Id} (made : row snapshot = some document)
    (different : source ≠ snapshot.id) (there : rows source ≠ none) :
    (write (some source) snapshot).run rows =
      (insertOne snapshot.id document).run (Function.update rows source none) := by
  rw [write_other made different]
  simp [Program.run, Command.execute, Backend.delete_of_present there]

/-- MongoDB keeps to the conditions where no target is occupied, or the source is gone before. -/
theorem conditional_write (granted : session.persistenceOrigin heap = .ok origin)
    (ends : ∀ expiry, session.expiry = some expiry → expiry.Supported) {rows : Id → Option Row}
    (clear : session.Occupied heap (recordsOf rows) → session.Lost heap (recordsOf rows)) :
    (write origin (session.wire heap)).Conditional heap session rows := by
  obtain ⟨document, made, kept⟩ := @row_supported (session.wire heap) ends
  have marker := (Session.persistenceOrigin_ok.mp granted).1
  cases origin with
  | none =>
    have vacant : rows session.id = none := by
      by_contra present
      obtain ⟨source, saved, _⟩ := clear ⟨by rw [marker]; simp, mt recordsOf_eq_none.mp present⟩
      cases marker.symm.trans saved
    rw [write_none made]
    exact Program.conditional_create granted kept (fun absent => run_insertOne_absent absent)
      fun present => absurd vacant present
  | some source =>
    by_cases own : source = session.id
    · subst own
      have update := write_own made
      refine Program.conditional_update granted kept (fun absent => ?_) fun present => ?_
      · refine (congrArg (Program.run rows) update).trans ?_
        show Program.run rows (.send (.update session.id _) _) = _
        simp [Program.run, Command.execute, Backend.update_of_absent absent]
      · refine (congrArg (Program.run rows) update).trans ?_
        show Program.run rows (.send (.update session.id _) _) = _
        simp [Program.run, Command.execute, Backend.update_of_present present]
    · have different : source ≠ (session.wire heap).id := own
      refine Program.conditional_rotate granted own kept (fun there vacant => ?_) fun refused => ?_
      · rw [run_rotation made different there]
        refine run_insertOne_absent ?_
        exact (Function.update_of_ne (Ne.symm own) _ _).trans vacant
      · have absent : rows source = none := by
          rcases refused with absent | present
          · exact absent
          · have occupied : session.Occupied heap (recordsOf rows) :=
              ⟨by rw [marker]; simpa using own, mt recordsOf_eq_none.mp present⟩
            obtain ⟨other, saved, gone⟩ := clear occupied
            obtain rfl := Option.some.inj (marker.symm.trans saved)
            exact recordsOf_eq_none.mp gone
        rw [write_other made different]
        simp [Program.run, Command.execute, Backend.delete_of_absent absent]

/-- A target that is occupied is an error of the driver. -/
theorem run_occupied (granted : session.persistenceOrigin heap = .ok origin)
    (ends : ∀ expiry, session.expiry = some expiry → expiry.Supported) {rows : Id → Option Row}
    (occupied : session.Occupied heap (recordsOf rows))
    (there : ¬ session.Lost heap (recordsOf rows)) :
    ((write origin (session.wire heap)).run rows).1 = .failed .backend := by
  obtain ⟨document, made, _⟩ := @row_supported (session.wire heap) ends
  obtain ⟨other, present⟩ := occupied
  have taken : rows session.id ≠ none := mt recordsOf_eq_none.mpr present
  have marker := (Session.persistenceOrigin_ok.mp granted).1
  cases origin with
  | none =>
    rw [write_none made]
    exact congrArg Prod.fst (run_insertOne_present taken)
  | some source =>
    have different : source ≠ session.id := by
      rintro rfl
      exact other marker
    have stored : rows source ≠ none :=
      fun absent => there ⟨source, marker, recordsOf_eq_none.mpr absent⟩
    rw [run_rotation made different stored]
    refine congrArg Prod.fst (run_insertOne_present ?_)
    exact ne_of_eq_of_ne (Function.update_of_ne (Ne.symm different) _ _) taken

end MongoDbStore

/-! ### No program sends more than two commands -/

theorem SqlxStore.brief_write (origin : Option Id) (snapshot : SessionSnapshot) :
    (write origin snapshot).Brief 2 := by
  unfold write
  split
  · intro answer
    dsimp only
    split
    · split <;> exact trivial
    · exact trivial
  · split
    · intro answer
      dsimp only
      split <;> exact trivial
    · intro answer
      dsimp only
      split <;> exact trivial

theorem RedisStore.brief_write (origin : Option Id) (snapshot : SessionSnapshot) (now : DateTime) :
    (write origin snapshot now).Brief 2 := by
  have rotates : ∀ source ttl, (rotate source snapshot ttl).Brief 2 := by
    intro source ttl answer
    dsimp only
    split <;> exact trivial
  have sets : ∀ ttl, (set origin snapshot ttl).Brief 2 := by
    intro ttl answer
    dsimp only
    split <;> exact trivial
  have converts : ∀ (next : Nat → Program) (result : Except Error Nat),
      (∀ millis, (next millis).Brief 2) → (Program.ofResult next result).Brief 2 := by
    intro next result brief
    cases result with
    | error error => exact trivial
    | ok millis => exact brief millis
  unfold write
  split
  · split
    · split
      · exact fun _ => trivial
      · exact converts _ _ fun millis => rotates _ _
    · exact rotates _ _
  · dsimp only
    split
    · exact fun _ => trivial
    · split
      · exact converts _ _ fun millis => sets _
      · exact sets _

theorem MongoDbStore.brief_write (origin : Option Id) (snapshot : SessionSnapshot) :
    (write origin snapshot).Brief 2 := by
  have inserts : ∀ id document bound, (insertOne id document).Brief (bound + 1) := by
    intro id document bound answer
    dsimp only
    split <;> exact trivial
  unfold write
  split
  · exact trivial
  · split
    · intro answer
      dsimp only
      split
      · exact trivial
      · exact inserts _ _ 0
    · split
      · intro answer
        dsimp only
        split <;> exact trivial
      · exact inserts _ _ 1

namespace NativeStore

theorem brief (native : NativeStore) (origin : Option Id) (snapshot : SessionSnapshot)
    (now : DateTime) : (native.remote.write origin snapshot now).Brief 2 := by
  cases native with
  | redis => exact RedisStore.brief_write origin snapshot now
  | mongoDb => exact MongoDbStore.brief_write origin snapshot
  | _ => exact SqlxStore.brief_write origin snapshot

theorem tokens (native : NativeStore) : native.remote.tokens = false := by
  cases native <;> rfl

end NativeStore

/-- In a process that any run reaches, a handle of an idle family has all that a call needs. -/
theorem Sound.offers {process : Process} (sound : Sound process) {index : Nat} {session : Session}
    (found : process.handles index = some session)
    (unlocked : (session.shared process.heap).locked = false)
    (certain : (session.shared process.heap).uncertain = false)
    (alive : session.isDestroyed process.heap = false) : process.Offers index session where
  handle := found
  family := (sound.authority.allocated session (.handle found)).1
  data := (sound.authority.allocated session (.handle found)).2
  unguarded := (sound.locking.unusedSave _ le_rfl).2
  unlocked
  certain
  alive

/-! ### The server-side stores -/

/-- The server-side stores of the crate. -/
inductive ServerStore
  | memory
  | remote (native : NativeStore)
  deriving DecidableEq, Repr

namespace ServerStore

/-- A process with a store. -/
def State : ServerStore → Type
  | memory => MemoryStore
  | remote _ => Remote

def process : (store : ServerStore) → store.State → Process
  | memory, state => MemoryStore.process state
  | remote _, state => Remote.process state

def records : (store : ServerStore) → store.State → RecordMap
  | memory, state => MemoryStore.records state
  | remote _, state => Remote.records state

/-- A lone call of `store_session`, at a reading of the clock. -/
def storeSession (idOf : Cookie → Option Id) (index : Nat) (now : DateTime) (session : Session) :
    (store : ServerStore) → store.State → Option Outcome
  | memory, state => MemoryStore.storeOutcome idOf index session state
  | remote native, state => Remote.storeOutcome native.remote idOf index now session state

/-- A state in which nothing else goes on that a call of this handle would wait for. -/
def Quiet (index : Nat) (session : Session) : (store : ServerStore) → store.State → Prop
  | memory, state => (MemoryStore.process state).Offers index session ∧
      MemoryStore.writer state = none ∧ MemoryStore.Allocated state
  | remote _, state => (Remote.process state).Offers index session

/-- The stores that do not keep to a conditional write, and where: Redis once the session has
expired, MongoDB where a target is occupied whose source is not gone. -/
def Departs (heap : Heap) (records : RecordMap) (session : Session) (now : DateTime) :
    ServerStore → Prop
  | remote .redis => session.isExpired now = true
  | remote .mongoDb => session.Occupied heap records ∧ ¬ session.Lost heap records
  | _ => False

/-- The instants that a store converts are ones of the time library: Redis takes the time that is
left, MongoDB the expiry; the other stores convert none. -/
def InRange (session : Session) (now : DateTime) : ServerStore → Prop
  | remote .redis => now.Supported ∧ ∀ expiry, session.expiry = some expiry → expiry.Supported
  | remote .mongoDb => ∀ expiry, session.expiry = some expiry → expiry.Supported
  | _ => True

variable {store : ServerStore} {state : store.State} {idOf : Cookie → Option Id} {index : Nat}
  {now : DateTime} {session : Session}

theorem Quiet.offers (quiet : store.Quiet index session state) :
    (store.process state).Offers index session := by
  cases store with
  | memory => exact quiet.1
  | remote native => exact quiet

/-- A call that is refused before it starts is a conditional write in every store. -/
theorem storeSession_refused (quiet : store.Quiet index session state) {error : Error}
    (refused : session.persistenceOrigin (store.process state).heap = .error error) :
    store.storeSession idOf index now session state =
      some (session.refused (store.process state).heap (store.records state)) := by
  cases store with
  | memory => exact MemoryStore.storeOutcome_refused quiet.1 refused
  | remote native => exact Remote.storeOutcome_refused quiet refused

/-- A store that does not depart from it does a conditional write. -/
theorem storeSession_conditional (quiet : store.Quiet index session state)
    (range : store.InRange session now)
    (keeps : ¬ store.Departs (store.process state).heap (store.records state) session now) :
    store.storeSession idOf index now session state =
      some (session.conditionalWrite (store.process state).heap (store.records state)) := by
  cases granting : session.persistenceOrigin (store.process state).heap with
  | error error =>
    rw [storeSession_refused quiet granting, Session.conditionalWrite_refused granting]
  | ok origin =>
    cases store with
    | memory => exact MemoryStore.storeOutcome_eq idOf quiet.1 quiet.2.1 quiet.2.2
    | remote native =>
      have conditional : (native.remote.write origin (session.wire (Remote.process state).heap)
          now).Conditional (Remote.process state).heap session (Remote.rows state) := by
        cases native with
        | redis =>
          exact RedisStore.conditional_write granting range.1 range.2 (Bool.eq_false_iff.mpr keeps) _
        | mongoDb =>
          refine MongoDbStore.conditional_write granting range fun occupied => ?_
          by_contra there
          exact keeps ⟨occupied, there⟩
        | _ => exact SqlxStore.conditional_write granting _
      refine (Remote.storeOutcome_granted quiet granting native.tokens (native.brief _ _ _)).trans ?_
      exact congrArg some (conditional.outcome granting)

end ServerStore

/-- `MemoryStore`, the SQL stores, and Redis before the expiry of a session, do the same conditional
write. -/
theorem store_session_is_a_conditional_write (store : ServerStore) (state : store.State)
    (idOf : Cookie → Option Id) (index : Nat) (now : DateTime) (session : Session)
    (quiet : store.Quiet index session state) (range : store.InRange session now)
    (other : store ≠ .remote .mongoDb)
    (valid : store = .remote .redis → session.isExpired now = false) :
    store.storeSession idOf index now session state =
      some (session.conditionalWrite (store.process state).heap (store.records state)) := by
  refine ServerStore.storeSession_conditional quiet range ?_
  cases store with
  | memory => exact id
  | remote native =>
    cases native with
    | redis => exact Bool.eq_false_iff.mp (valid rfl)
    | mongoDb => exact absurd rfl other
    | _ => exact id

/-- A rotation in a `MemoryStore` puts the new record in the place of the old one. -/
theorem store_session_is_a_conditional_write_on_rotation : ∃ (store : MemoryStore)
    (session : Session) (outcome : Outcome), store.storeOutcome some 1 session = some outcome ∧
      outcome.reply = .cookie (some "second") ∧ outcome.marker = some "second" ∧
        outcome.records "first" = none ∧ outcome.records "second" ≠ none := by
  let store : MemoryStore := (((memoryStore some).replay .initial
    (.handle (.new "first") :: MemoryAction.store 0 0 ++
      [.loadSession "first" 0 0, .handle (.regenerate 1 "second")])).get (by decide)).2
  have allocated : store.Allocated := by
    intro id record found
    by_cases same : id = "first"
    · subst same
      cases found
      decide
    · cases (Finmap.lookup_insert_of_ne (∅ : Finmap fun _ : Id => Session) same).symm.trans found
  have quiet : ServerStore.memory.Quiet 1 _ store :=
    ⟨⟨rfl, by decide, by decide, rfl, rfl, rfl, rfl⟩, rfl, allocated⟩
  have outcome := store_session_is_a_conditional_write .memory store some 1 0 _ quiet
    trivial nofun nofun
  exact ⟨store, _, _, outcome, rfl, rfl, rfl, nofun⟩

/-! ### Lost records -/

/-- What the contract of `store_session` promises of lost records: that one is gone is a conflict
which creates nothing and leaves the changes pending, and so is an id that is taken, whose record
stays as it is. -/
structure Outcome.ReportsLoss (heap : Heap) (records : RecordMap) (session : Session)
    (outcome : Outcome) : Prop where
  lost : session.Lost heap records → outcome.reply = .error .sessionConflict ∧
    (∀ id, outcome.records id ≠ none → records id ≠ none) ∧
    (session.sessionData heap).Pending outcome.tracking
  occupied : session.Occupied heap records → outcome.reply = .error .sessionConflict ∧
    outcome.records session.id = records session.id

/-- Where a store answers otherwise: a save that may start and has lost its record or its id, in a
store that departs from the conditional write there. -/
def ServerStore.Misreports (heap : Heap) (records : RecordMap) (session : Session) (now : DateTime)
    (store : ServerStore) : Prop :=
  (∃ origin, session.persistenceOrigin heap = .ok origin) ∧
    store.Departs heap records session now ∧
      (session.Lost heap records ∨ session.Occupied heap records)

namespace Session

variable {heap : Heap} {records : RecordMap} {session : Session}

theorem pending_unconfirmed (heap : Heap) (session : Session) :
    (session.sessionData heap).Pending (session.unconfirmed heap) :=
  (SessionData.pending_capture _).trans (SessionData.pending_release _)

theorem reportsLoss_refused (heap : Heap) (records : RecordMap) (session : Session) :
    (session.refused heap records).ReportsLoss heap records session :=
  ⟨fun _ => ⟨rfl, fun _ there => there, SessionData.Pending.refl _⟩, fun _ => ⟨rfl, rfl⟩⟩

/-- A conditional write reports every loss. -/
theorem reportsLoss_conditionalWrite (heap : Heap) (records : RecordMap) (session : Session) :
    (session.conditionalWrite heap records).ReportsLoss heap records session := by
  by_cases may : session.MayStore heap records
  · exact ⟨fun lost => absurd lost may.kept, fun occupied => absurd occupied may.free⟩
  cases granting : session.persistenceOrigin heap with
  | error error =>
    rw [conditionalWrite_refused granting]
    exact reportsLoss_refused heap records session
  | ok origin =>
    rw [conditionalWrite_failed granting may]
    exact ⟨fun _ => ⟨rfl, fun _ there => there, pending_unconfirmed heap session⟩, fun _ => ⟨rfl, rfl⟩⟩

/-- An answer that is no conflict reports no loss. -/
theorem reportsLoss_iff {outcome : Outcome} (other : outcome.reply ≠ .error .sessionConflict) :
    outcome.ReportsLoss heap records session ↔
      ¬ (session.Lost heap records ∨ session.Occupied heap records) := by
  constructor
  · rintro reports (lost | occupied)
    · exact other (reports.lost lost).1
    · exact other (reports.occupied occupied).1
  · intro nothing
    exact ⟨fun lost => absurd (Or.inl lost) nothing,
      fun occupied => absurd (Or.inr occupied) nothing⟩

end Session

/-- Where a store departs, a save that may start ends in no conflict. -/
theorem ServerStore.storeSession_departed {store : ServerStore} {state : store.State}
    {index : Nat} {now : DateTime} {session : Session} {origin : Option Id}
    (idOf : Cookie → Option Id) (quiet : store.Quiet index session state)
    (range : store.InRange session now)
    (granted : session.persistenceOrigin (store.process state).heap = .ok origin)
    (departs : store.Departs (store.process state).heap (store.records state) session now) :
    ∃ outcome, store.storeSession idOf index now session state = some outcome ∧
      outcome.reply ≠ .error .sessionConflict := by
  cases store with
  | memory => exact departs.elim
  | remote native =>
    refine ⟨_, Remote.storeOutcome_granted quiet granted native.tokens (native.brief _ _ _), ?_⟩
    cases native with
    | redis =>
      have expired : (session.wire (Remote.process state).heap).isExpired now = true := departs
      show (Ending.outcome _ _ _ ((RedisStore.write origin _ now).run _).1).reply ≠ _
      rw [RedisStore.write_expired origin expired]
      exact nofun
    | mongoDb =>
      have failed : ((MongoDbStore.write origin (session.wire (Remote.process state).heap)).run
          (Remote.rows state)).1 = .failed .backend :=
        MongoDbStore.run_occupied granted range departs.1 departs.2
      show (Ending.outcome _ _ _ ((MongoDbStore.write origin
        (session.wire (Remote.process state).heap)).run (Remote.rows state)).1).reply ≠ _
      rw [failed]
      exact nofun
    | _ => exact departs.elim

/-- Every server-side store reports a lost record, except Redis for an expired session and MongoDB
for a target that is occupied. -/
theorem lost_records_are_reported_iff (store : ServerStore) (state : store.State)
    (idOf : Cookie → Option Id) (index : Nat) (now : DateTime) (session : Session)
    (quiet : store.Quiet index session state) (range : store.InRange session now) :
    ∃ outcome, store.storeSession idOf index now session state = some outcome ∧
      (outcome.ReportsLoss (store.process state).heap (store.records state) session ↔
        ¬ store.Misreports (store.process state).heap (store.records state) session now) := by
  by_cases departs : store.Departs (store.process state).heap (store.records state) session now
  · cases granting : session.persistenceOrigin (store.process state).heap with
    | error error =>
      refine ⟨_, ServerStore.storeSession_refused quiet granting, iff_of_true
        (Session.reportsLoss_refused _ _ _) ?_⟩
      rintro ⟨⟨origin, granted⟩, _⟩
      cases granting.symm.trans granted
    | ok origin =>
      obtain ⟨outcome, answered, other⟩ :=
        ServerStore.storeSession_departed idOf quiet range granting departs
      refine ⟨outcome, answered, (Session.reportsLoss_iff other).trans (not_congr ?_)⟩
      exact ⟨fun loss => ⟨⟨origin, granting⟩, departs, loss⟩, fun misreports => misreports.2.2⟩
  · exact ⟨_, ServerStore.storeSession_conditional quiet range departs, iff_of_true
      (Session.reportsLoss_conditionalWrite _ _ _) fun misreports => departs misreports.2.1⟩

/-- A save of a session whose record was removed is a conflict in Redis, while it has not expired. -/
theorem lost_records_are_reported_of_removal : ∃ (state : Remote) (session : Session)
    (outcome : Outcome), state.storeOutcome redisStore some 1 0 session = some outcome ∧
      session.Lost state.process.heap state.records ∧
        outcome.ReportsLoss state.process.heap state.records session := by
  let state : Remote := (((remoteMachine redisStore some).replay .initial
    (.handle (.new "first") :: RemoteAction.store 0 0 0 0 ++
      [.read "first" 0, .deliver 0 0, .expire "first"])).get (by decide)).2
  have quiet : ServerStore.Quiet 1 _ (.remote .redis) state :=
    ⟨rfl, by decide, by decide, rfl, rfl, rfl, rfl⟩
  obtain ⟨outcome, answered, reports⟩ := lost_records_are_reported_iff (.remote .redis) state some 1 0
    _ quiet ⟨⟨by decide, by decide⟩, by intro expiry wrong; cases wrong⟩
  refine ⟨state, _, outcome, answered, ⟨"first", rfl, rfl⟩, reports.mpr ?_⟩
  rintro ⟨_, expired, _⟩
  cases expired

/-- Redis answers no cookie, and no conflict, to a save of an expired session whose record is gone;
MongoDB passes on the error of the driver when the id of a new session is taken. -/
theorem lost_records_go_unreported :
    (∃ (state : Remote) (session : Session) (outcome : Outcome),
      (remoteMachine redisStore some).Reachable state ∧
        ServerStore.Quiet 1 session (.remote .redis) state ∧
          session.Lost state.process.heap state.records ∧
            state.storeOutcome redisStore some 1 0 session = some outcome ∧
              outcome.reply = .cookie none ∧
                ¬ outcome.ReportsLoss state.process.heap state.records session) ∧
    ∃ (state : Remote) (session : Session) (outcome : Outcome),
      ServerStore.Quiet 0 session (.remote .mongoDb) state ∧
        session.Occupied state.process.heap state.records ∧
          state.storeOutcome mongoDbStore some 0 0 session = some outcome ∧
            outcome.reply = .error .backend ∧
              ¬ outcome.ReportsLoss state.process.heap state.records session := by
  constructor
  · have run := Machine.run_replay (remoteMachine redisStore some) .initial
      (.handle (.new "first") :: RemoteAction.store 0 0 0 0 ++
        [.read "first" 0, .deliver 0 0, .handle (.setExpiry 1 (-1)), .expire "first"]) (by decide)
    refine ⟨_, _, _, ⟨_, _, rfl, run⟩, ⟨rfl, by decide, by decide, rfl, rfl, rfl, rfl⟩,
      ⟨"first", rfl, rfl⟩, rfl, rfl, fun reports => ?_⟩
    cases (reports.lost ⟨"first", rfl, rfl⟩).1
  · let fresh : Remote := (((remoteMachine mongoDbStore some).replay .initial
      [.handle (.new "first")]).get (by decide)).2
    refine ⟨{ fresh with rows := fun _ => some ⟨none, ⟨"first", none, ∅⟩⟩ }, _, _,
      ⟨rfl, by decide, by decide, rfl, rfl, rfl, rfl⟩, ⟨nofun, nofun⟩, rfl, rfl, fun reports => ?_⟩
    cases (reports.occupied ⟨nofun, nofun⟩).1

end Saysion
