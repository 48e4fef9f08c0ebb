/-
This file models what the remote stores send to their backends. A backend is a
table of rows by id, and a command takes effect on it at one moment: a SQL
statement, a committed transaction, a Redis command or script, or a MongoDB
operation. The part of `store_session` between its guard and its `finish` is a
program of commands, each of which it awaits before it sends the next.

`Program.Obeys` is the contract that the documentation of `SessionSave::origin`
states for every server-side store: what a save without a source, an update and
a rotation may send, and when the write counts as confirmed. A `RemoteStore`
carries the proof that its programs obey it, so the stores of the crate and any
custom store that follows the guard protocol are treated alike.
-/

import Mathlib.Logic.Function.Basic
import Saysion.BackendExpiry

namespace Saysion

/-! ### Commands -/

/-- A command to a backend. `insert` is `INSERT` and `insert_one`, `update` is `UPDATE`, `SET XX`
and `replace_one`, and `delete` is `DELETE`, `DEL` and `delete_one`, each of one id. -/
inductive Command
  | insert (id : Id) (row : Row)
  | setNx (id : Id) (row : Row)
  | update (id : Id) (row : Row)
  | transaction (source target : Id) (row : Row)
  | eval (source target : Id) (row : Row)
  | delete (id : Id)
  | unlink (ids : List Id)
  | clear
  deriving DecidableEq

/-- What a backend reports: how many rows a command affected, or a violated unique key. Nobody
reads the answer to a command that clears. -/
inductive Answer
  | affected (count : Nat)
  | duplicate
  | cleared
  deriving DecidableEq, Repr

namespace Backend

def insert (id : Id) (row : Row) (rows : Id → Option Row) : Answer × (Id → Option Row) :=
  if rows id = none then (.affected 1, Function.update rows id (some row)) else (.duplicate, rows)

def setNx (id : Id) (row : Row) (rows : Id → Option Row) : Answer × (Id → Option Row) :=
  if rows id = none then (.affected 1, Function.update rows id (some row)) else (.affected 0, rows)

def update (id : Id) (row : Row) (rows : Id → Option Row) : Answer × (Id → Option Row) :=
  if rows id = none then (.affected 0, rows) else (.affected 1, Function.update rows id (some row))

def delete (id : Id) (rows : Id → Option Row) : Answer × (Id → Option Row) :=
  if rows id = none then (.affected 0, rows) else (.affected 1, Function.update rows id none)

/-- The transaction of a SQL rotation. An early return of the client rolls it back. -/
def transaction (source target : Id) (row : Row) (rows : Id → Option Row) :
    Answer × (Id → Option Row) :=
  match delete source rows with
  | (.affected 1, removed) =>
    match insert target row removed with
    | (.affected 1, committed) => (.affected 1, committed)
    | (refused, _) => (refused, rows)
  | (absent, _) => (absent, rows)

/-- The script of a Redis rotation. -/
def eval (source target : Id) (row : Row) (rows : Id → Option Row) : Answer × (Id → Option Row) :=
  if rows source = none ∨ rows target ≠ none then (.affected 0, rows)
  else (.affected 1, Function.update (Function.update rows target (some row)) source none)

end Backend

namespace Command

/-- The effect of a command. -/
def execute (rows : Id → Option Row) : Command → Answer × (Id → Option Row)
  | insert id row => Backend.insert id row rows
  | setNx id row => Backend.setNx id row rows
  | update id row => Backend.update id row rows
  | transaction source target row => Backend.transaction source target row rows
  | eval source target row => Backend.eval source target row rows
  | delete id => Backend.delete id rows
  | unlink ids => (.cleared, fun id => if id ∈ ids then none else rows id)
  | clear => (.cleared, fun _ => none)

/-- The id that a command may create a record under. -/
def creates : Command → Option Id
  | insert id _ | setNx id _ | transaction _ id _ | eval _ id _ => some id
  | _ => none

/-- The answers a command may get. -/
def Answers : Command → Answer → Prop
  | insert _ _, answer => answer = .affected 1 ∨ answer = .duplicate
  | transaction _ _ _, answer => answer = .affected 0 ∨ answer = .affected 1 ∨ answer = .duplicate
  | unlink _, answer | clear, answer => answer = .cleared
  | _, answer => answer = .affected 0 ∨ answer = .affected 1

end Command

/-! ### Programs -/

/-- What is left of a write under its guard. `written` is followed by `finish`, and `revoked` is the
end of a write that has expired: it is not acknowledged and answers no cookie. -/
inductive Program
  | send (command : Command) (next : Answer → Program)
  | written
  | revoked
  | failed (error : Error)

/-- `?` on a result that is known without a command. -/
def Program.ofResult {Value : Type} (next : Value → Program) : Except Error Value → Program
  | .error error => .failed error
  | .ok value => next value

/-- How far a program is: it has removed the source of its rotation, it has sent its record-creating
command, or it knows that its record was created. -/
inductive Standing
  | fresh
  | taken
  | sent
  | created
  deriving DecidableEq

/-- Whether a save from an origin may send a command for its id. -/
def Command.Permitted (origin : Option Id) (id : Id) (standing : Standing) : Command → Prop
  | .insert target _ | .setNx target _ =>
    target = id ∧ (standing = .fresh ∧ origin = none ∨ standing = .taken)
  | .update target _ => target = id ∧ origin = some id
  | .transaction source target _ | .eval source target _ =>
    target = id ∧ origin = some source ∧ source ≠ id ∧ standing = .fresh
  | .delete target => target = id ∨ origin = some target
  | .unlink _ | .clear => False

/-- Whether a command removes the source of a rotation to an id. -/
def Command.Takes (origin : Option Id) (id : Id) (command : Command) : Prop :=
  ∃ source, origin = some source ∧ source ≠ id ∧ command = .delete source

instance (origin : Option Id) (id : Id) (command : Command) :
    Decidable (command.Takes origin id) :=
  match origin with
  | none => .isFalse fun ⟨_, wrong, _⟩ => nomatch wrong
  | some source => decidable_of_iff (source ≠ id ∧ command = .delete source)
      ⟨fun both => ⟨source, rfl, both⟩, fun ⟨_, same, both⟩ => Option.some.inj same ▸ both⟩

/-- What an answer tells about the standing. -/
def Standing.after (origin : Option Id) (id : Id) (standing : Standing) (command : Command)
    (answer : Answer) : Standing :=
  if command.creates ≠ none then if answer = .affected 1 then .created else .sent
  else if standing = .fresh ∧ answer = .affected 1 ∧ command.Takes origin id then .taken
  else standing

/-- A program keeps to the contract of a server-side save. -/
def Program.Obeys (origin : Option Id) (id : Id) : Program → Standing → Prop
  | .send command next, standing =>
    command.Permitted origin id standing ∧ ∀ answer, command.Answers answer →
      (next answer).Obeys origin id (standing.after origin id command answer)
  | .written, standing => origin = some id ∨ standing = .created
  | .revoked, standing => standing = .fresh ∨ standing = .taken
  | .failed _, _ => True

/-- A remote store that follows the guard protocol, with native calls or through `SessionSave`
tokens. `write` is given the origin, the snapshot and a reading of the clock. -/
structure RemoteStore where
  tokens : Bool
  rechecksDestroyed : Bool
  selects : DateTime → Row → Bool
  write : Option Id → SessionSnapshot → DateTime → Program
  obeys : ∀ origin snapshot now, (write origin snapshot now).Obeys origin snapshot.id .fresh

/-! ### The SQL stores -/

namespace SqlxStore

/-- `map_insert_error` -/
def mapInsertError : Answer → Error
  | .duplicate => .sessionConflict
  | _ => .backend

/-- The three branches of `store_session`. The stores differ in the placeholders of their
statements. -/
def write (origin : Option Id) (snapshot : SessionSnapshot) : Program :=
  match origin.filter (· ≠ snapshot.id) with
  | some source => .send (.transaction source snapshot.id (row snapshot)) fun
    | .affected removed => if removed ≠ 1 then .failed .sessionConflict else .written
    | refused => .failed (mapInsertError refused)
  | none =>
    if origin.isSome then .send (.update snapshot.id (row snapshot)) fun updated =>
      if updated ≠ .affected 1 then .failed .sessionConflict else .written
    else .send (.insert snapshot.id (row snapshot)) fun
      | .affected _ => .written
      | refused => .failed (mapInsertError refused)

end SqlxStore

/-! ### Redis -/

namespace RedisStore

/-- A key with its `PX` argument, if it has one. -/
def row (snapshot : SessionSnapshot) (ttl : Option Nat) : Row := ⟨ttl.map Int.ofNat, snapshot⟩

def rotate (source : Id) (snapshot : SessionSnapshot) (ttl : Option Nat) : Program :=
  .send (.eval source snapshot.id (row snapshot ttl)) fun rotated =>
    if rotated = .affected 0 then .failed .sessionConflict else .written

def set (origin : Option Id) (snapshot : SessionSnapshot) (ttl : Option Nat) : Program :=
  let command :=
    if origin.isSome then Command.update snapshot.id (row snapshot ttl)
    else .setNx snapshot.id (row snapshot ttl)
  .send command fun saved => if saved = .affected 0 then .failed .sessionConflict else .written

/-- `store_session` after its guard. An expired snapshot is removed instead of written. -/
def write (origin : Option Id) (snapshot : SessionSnapshot) (now : DateTime) : Program :=
  match origin.filter (· ≠ snapshot.id) with
  | some oldId =>
    match snapshot.expiry with
    | some _ =>
      match snapshot.expiresIn now with
      | none => .send (.delete oldId) fun _ => .revoked
      | some ttl => .ofResult (fun millis => rotate oldId snapshot (some millis)) (ttlMillis ttl)
    | none => rotate oldId snapshot none
  | none =>
    let ttl := snapshot.expiresIn now
    if snapshot.expiry.isSome ∧ ttl = none then .send (.delete snapshot.id) fun _ => .revoked
    else
      match ttl with
      | some ttl => .ofResult (fun millis => set origin snapshot (some millis)) (ttlMillis ttl)
      | none => set origin snapshot none

end RedisStore

/-! ### MongoDB -/

namespace MongoDbStore

/-- The document of a snapshot, unless its expiry overflows the milliseconds. -/
def row (snapshot : SessionSnapshot) : Option Row :=
  match snapshot.expiry with
  | none => some ⟨none, snapshot⟩
  | some expiry => (expiryDatetime expiry).map fun millis => ⟨some millis, snapshot⟩

/-- `insert_one`; the error of the driver is passed on. -/
def insertOne (id : Id) (document : Row) : Program :=
  .send (.insert id document) fun
    | .affected _ => .written
    | _ => .failed .backend

def write (origin : Option Id) (snapshot : SessionSnapshot) : Program :=
  match row snapshot with
  | none => .failed .backend
  | some document =>
    match origin.filter (· ≠ snapshot.id) with
    | some oldId => .send (.delete oldId) fun deleted =>
        if deleted = .affected 0 then .failed .sessionConflict else insertOne snapshot.id document
    | none =>
      if origin.isSome then .send (.update snapshot.id document) fun replaced =>
        if replaced ≠ .affected 1 then .failed .sessionConflict else .written
      else insertOne snapshot.id document

end MongoDbStore

/-! ### A store of another crate -/

namespace CustomStore

def row (snapshot : SessionSnapshot) : Row := ⟨none, snapshot⟩

/-- The block of `store_session` that holds the mutex of the records. -/
def write (origin : Option Id) (snapshot : SessionSnapshot) : Program :=
  match origin.filter (· ≠ snapshot.id) with
  | some source => .send (.eval source snapshot.id (row snapshot)) fun moved =>
      if moved = .affected 0 then .failed .sessionConflict else .written
  | none =>
    if origin.isSome then .send (.update snapshot.id (row snapshot)) fun updated =>
      if updated = .affected 0 then .failed .sessionConflict else .written
    else .send (.insert snapshot.id (row snapshot)) fun inserted =>
      if inserted = .duplicate then .failed .sessionConflict else .written

end CustomStore

/-! ### The stores obey the contract -/

section Native

variable {origin : Option Id} {id source : Id} {standing : Standing} {row : Row}
  {next : Answer → Program}

theorem source_of_filter (rotated : origin.filter (· ≠ id) = some source) :
    origin = some source ∧ source ≠ id := by
  simpa [Option.filter_eq_some_iff] using rotated

theorem origin_of_filter (kept : origin.filter (· ≠ id) = none) (saved : origin.isSome = true) :
    origin = some id := by
  obtain ⟨source, rfl⟩ := Option.isSome_iff_exists.mp saved
  simpa [Option.filter_eq_none_iff] using kept

/-- A confirmed creating command is the end of a program. -/
theorem Program.obeys_of_creating {command : Command} (creating : command.creates = some id)
    (permitted : command.Permitted origin id standing)
    (confirmed : ∀ answer, command.Answers answer → next answer = .written ∧ answer = .affected 1 ∨
      ∃ error, next answer = .failed error) :
    (Program.send command next).Obeys origin id standing := by
  refine ⟨permitted, fun answer possible => ?_⟩
  rcases confirmed answer possible with ⟨written, rfl⟩ | ⟨error, failed⟩
  · rw [written]
    refine Or.inr ?_
    rw [Standing.after, if_pos (by simp [creating]), if_pos rfl]
  · rw [failed]
    exact trivial

theorem Program.obeys_of_update (same : origin = some id)
    (confirmed : ∀ answer, next answer = .written ∨ ∃ error, next answer = .failed error) :
    (Program.send (.update id row) next).Obeys origin id standing := by
  refine ⟨⟨rfl, same⟩, fun answer _ => ?_⟩
  rcases confirmed answer with written | ⟨error, failed⟩
  · rw [written]
    exact Or.inl same
  · rw [failed]
    exact trivial

theorem Program.obeys_ofResult {Value : Type} {result : Except Error Value}
    {rest : Value → Program} (obeys : ∀ value, (rest value).Obeys origin id standing) :
    (Program.ofResult rest result).Obeys origin id standing := by
  cases result with
  | error error => exact trivial
  | ok value => exact obeys value

/-- An expired write deletes its origin or its id, and confirms nothing. -/
theorem Program.obeys_of_revoked {target : Id} (own : target = id ∨ origin = some target) :
    (Program.send (.delete target) fun _ => .revoked).Obeys origin id .fresh := by
  refine ⟨own, fun answer _ => ?_⟩
  show _ = _ ∨ _ = _
  rw [Standing.after, if_neg (by simp [Command.creates])]
  split
  · exact Or.inr rfl
  · exact Or.inl rfl

theorem SqlxStore.obeys (origin : Option Id) (snapshot : SessionSnapshot) :
    (write origin snapshot).Obeys origin snapshot.id .fresh := by
  unfold write
  split
  · rename_i source rotated
    obtain ⟨same, different⟩ := source_of_filter rotated
    refine Program.obeys_of_creating rfl ⟨rfl, same, different, rfl⟩ fun answer possible => ?_
    rcases possible with rfl | rfl | rfl
    · exact Or.inr ⟨_, rfl⟩
    · exact Or.inl ⟨rfl, rfl⟩
    · exact Or.inr ⟨_, rfl⟩
  · rename_i kept
    split
    · rename_i saved
      refine Program.obeys_of_update (origin_of_filter kept saved) fun answer => ?_
      split
      · exact Or.inr ⟨_, rfl⟩
      · exact Or.inl rfl
    · rename_i unsaved
      refine Program.obeys_of_creating rfl ⟨rfl, Or.inl ⟨rfl, by simpa using unsaved⟩⟩
        fun answer possible => ?_
      rcases possible with rfl | rfl
      · exact Or.inl ⟨rfl, rfl⟩
      · exact Or.inr ⟨_, rfl⟩

theorem RedisStore.obeys_rotate {snapshot : SessionSnapshot} {ttl : Option Nat}
    (same : origin = some source) (different : source ≠ snapshot.id) :
    (rotate source snapshot ttl).Obeys origin snapshot.id .fresh := by
  refine Program.obeys_of_creating rfl ⟨rfl, same, different, rfl⟩ fun answer possible => ?_
  rcases possible with rfl | rfl
  · exact Or.inr ⟨_, rfl⟩
  · exact Or.inl ⟨rfl, rfl⟩

theorem RedisStore.obeys_set {snapshot : SessionSnapshot} {ttl : Option Nat}
    (kept : origin.filter (· ≠ snapshot.id) = none) :
    (set origin snapshot ttl).Obeys origin snapshot.id .fresh := by
  unfold set
  dsimp only
  split
  · rename_i saved
    refine Program.obeys_of_update (origin_of_filter kept saved) fun answer => ?_
    split
    · exact Or.inr ⟨_, rfl⟩
    · exact Or.inl rfl
  · rename_i unsaved
    refine Program.obeys_of_creating rfl ⟨rfl, Or.inl ⟨rfl, by simpa using unsaved⟩⟩
      fun answer possible => ?_
    rcases possible with rfl | rfl
    · exact Or.inr ⟨_, rfl⟩
    · exact Or.inl ⟨rfl, rfl⟩

theorem RedisStore.obeys (origin : Option Id) (snapshot : SessionSnapshot) (now : DateTime) :
    (write origin snapshot now).Obeys origin snapshot.id .fresh := by
  unfold write
  split
  · rename_i oldId rotated
    obtain ⟨same, different⟩ := source_of_filter rotated
    split
    · split
      · exact Program.obeys_of_revoked (Or.inr same)
      · exact Program.obeys_ofResult fun millis => obeys_rotate same different
    · exact obeys_rotate same different
  · rename_i kept
    dsimp only
    split
    · exact Program.obeys_of_revoked (Or.inl rfl)
    · split
      · exact Program.obeys_ofResult fun millis => obeys_set kept
      · exact obeys_set kept

theorem MongoDbStore.obeys_insertOne {document : Row}
    (permitted : standing = .fresh ∧ origin = none ∨ standing = .taken) :
    (insertOne id document).Obeys origin id standing := by
  refine Program.obeys_of_creating rfl ⟨rfl, permitted⟩ fun answer possible => ?_
  rcases possible with rfl | rfl
  · exact Or.inl ⟨rfl, rfl⟩
  · exact Or.inr ⟨_, rfl⟩

/-- The insertion of a rotation follows only on a deletion that found the source. -/
theorem MongoDbStore.obeys (origin : Option Id) (snapshot : SessionSnapshot) :
    (write origin snapshot).Obeys origin snapshot.id .fresh := by
  unfold write
  split
  · exact trivial
  · split
    · rename_i oldId rotated
      obtain ⟨same, different⟩ := source_of_filter rotated
      refine ⟨Or.inr same, fun answer possible => ?_⟩
      rcases possible with rfl | rfl
      · exact trivial
      · refine obeys_insertOne (Or.inr ?_)
        rw [Standing.after, if_neg (by simp [Command.creates])]
        exact if_pos ⟨rfl, rfl, oldId, same, different, rfl⟩
    · rename_i kept
      split
      · rename_i saved
        refine Program.obeys_of_update (origin_of_filter kept saved) fun answer => ?_
        split
        · exact Or.inr ⟨_, rfl⟩
        · exact Or.inl rfl
      · rename_i unsaved
        exact obeys_insertOne (Or.inl ⟨rfl, by simpa using unsaved⟩)

theorem CustomStore.obeys (origin : Option Id) (snapshot : SessionSnapshot) :
    (write origin snapshot).Obeys origin snapshot.id .fresh := by
  unfold write
  split
  · rename_i source rotated
    obtain ⟨same, different⟩ := source_of_filter rotated
    refine Program.obeys_of_creating rfl ⟨rfl, same, different, rfl⟩ fun answer possible => ?_
    rcases possible with rfl | rfl
    · exact Or.inr ⟨_, rfl⟩
    · exact Or.inl ⟨rfl, rfl⟩
  · rename_i kept
    split
    · rename_i saved
      refine Program.obeys_of_update (origin_of_filter kept saved) fun answer => ?_
      split
      · exact Or.inr ⟨_, rfl⟩
      · exact Or.inl rfl
    · rename_i unsaved
      refine Program.obeys_of_creating rfl ⟨rfl, Or.inl ⟨rfl, by simpa using unsaved⟩⟩
        fun answer possible => ?_
      rcases possible with rfl | rfl
      · exact Or.inl ⟨rfl, rfl⟩
      · exact Or.inr ⟨_, rfl⟩

end Native

/-! ### The remote stores of the crate -/

def sqlxStore : RemoteStore where
  tokens := false
  rechecksDestroyed := false
  selects now row := SqlxStore.selects (SqlxStore.nowUnix now) row
  write origin snapshot _ := SqlxStore.write origin snapshot
  obeys origin snapshot _ := SqlxStore.obeys origin snapshot

def sqlxPostgresStore : RemoteStore := sqlxStore

def sqlxSqliteStore : RemoteStore := sqlxStore

def sqlxMySqlStore : RemoteStore := sqlxStore

def redisStore : RemoteStore where
  tokens := false
  rechecksDestroyed := true
  selects _ _ := true
  write := RedisStore.write
  obeys := RedisStore.obeys

def mongoDbStore : RemoteStore where
  tokens := false
  rechecksDestroyed := true
  selects _ _ := true
  write origin snapshot _ := MongoDbStore.write origin snapshot
  obeys origin snapshot _ := MongoDbStore.obeys origin snapshot

/-- The store of the guide for other crates, which saves through tokens. -/
def customStore : RemoteStore where
  tokens := true
  rechecksDestroyed := false
  selects _ _ := true
  write origin snapshot _ := CustomStore.write origin snapshot
  obeys origin snapshot _ := CustomStore.obeys origin snapshot

/-- The remote stores of the crate. -/
inductive NativeStore
  | sqlxPostgres
  | sqlxSqlite
  | sqlxMySql
  | redis
  | mongoDb
  deriving DecidableEq, Repr

def NativeStore.remote : NativeStore → RemoteStore
  | sqlxPostgres => sqlxPostgresStore
  | sqlxSqlite => sqlxSqliteStore
  | sqlxMySql => sqlxMySqlStore
  | redis => redisStore
  | mongoDb => mongoDbStore

/-! ### What a command does to the rows -/

namespace Backend

variable {id source target : Id} {row : Row} {rows : Id → Option Row}

theorem insert_of_absent (absent : rows id = none) :
    insert id row rows = (.affected 1, Function.update rows id (some row)) := if_pos absent

theorem insert_of_present (present : rows id ≠ none) : insert id row rows = (.duplicate, rows) :=
  if_neg present

theorem setNx_of_absent (absent : rows id = none) :
    setNx id row rows = (.affected 1, Function.update rows id (some row)) := if_pos absent

theorem setNx_of_present (present : rows id ≠ none) : setNx id row rows = (.affected 0, rows) :=
  if_neg present

theorem update_of_absent (absent : rows id = none) : update id row rows = (.affected 0, rows) :=
  if_pos absent

theorem update_of_present (present : rows id ≠ none) :
    update id row rows = (.affected 1, Function.update rows id (some row)) := if_neg present

theorem delete_of_absent (absent : rows id = none) : delete id rows = (.affected 0, rows) :=
  if_pos absent

theorem delete_of_present (present : rows id ≠ none) :
    delete id rows = (.affected 1, Function.update rows id none) := if_neg present

theorem transaction_of_absent (absent : rows source = none) :
    transaction source target row rows = (.affected 0, rows) := by
  simp only [transaction, delete_of_absent absent]

theorem transaction_of_collision (present : rows source ≠ none) (different : source ≠ target)
    (occupied : rows target ≠ none) :
    transaction source target row rows = (.duplicate, rows) := by
  have still : Function.update rows source none target ≠ none := by
    rwa [Function.update_of_ne different.symm]
  simp only [transaction, delete_of_present present, insert_of_present still]

theorem transaction_of_vacant (present : rows source ≠ none) (different : source ≠ target)
    (vacant : rows target = none) :
    transaction source target row rows =
      (.affected 1, Function.update (Function.update rows source none) target (some row)) := by
  have still : Function.update rows source none target = none := by
    rwa [Function.update_of_ne different.symm]
  simp only [transaction, delete_of_present present, insert_of_absent still]

theorem eval_of_refused (refused : rows source = none ∨ rows target ≠ none) :
    eval source target row rows = (.affected 0, rows) := if_pos refused

/-- The script writes the target first, the transaction removes the source first. -/
theorem eval_of_vacant (present : rows source ≠ none) (different : source ≠ target)
    (vacant : rows target = none) :
    eval source target row rows =
      (.affected 1, Function.update (Function.update rows source none) target (some row)) := by
  have permitted : ¬ (rows source = none ∨ rows target ≠ none) := by
    rintro (absent | occupied)
    · exact present absent
    · exact occupied vacant
  rw [eval, if_neg permitted, Function.update_comm different]

end Backend

namespace Command

variable {command : Command} {rows : Id → Option Row} {id : Id}

/-- The id whose record a command puts its own in the place of. -/
def replaces : Command → Option Id
  | transaction source _ _ | eval source _ _ => some source
  | _ => none

/-- Whether a command names two ids where it needs two. -/
def Proper (command : Command) : Prop :=
  ∀ source, command.replaces = some source → command.creates ≠ some source

/-- The rows without the one that a command replaces. -/
def spare (command : Command) (rows : Id → Option Row) : Id → Option Row :=
  match command.replaces with
  | none => rows
  | some source => Function.update rows source none

theorem spare_present {command : Command} {rows : Id → Option Row} {key : Id}
    (there : command.spare rows key ≠ none) : rows key ≠ none := by
  intro absent
  unfold spare at there
  cases replaced : command.replaces with
  | none =>
    rw [replaced] at there
    exact there absent
  | some source =>
    rw [replaced] at there
    refine there ?_
    show Function.update rows source none key = none
    rw [Function.update_apply, absent, ite_self]

/-- A creating command creates its record, in the place of the one it replaces, or changes
nothing. -/
theorem execute_creating (rows : Id → Option Row) (creating : command.creates = some id)
    (proper : command.Proper) :
    ((command.execute rows).1 ≠ .affected 1 ∧ (command.execute rows).2 = rows) ∨
      (rows id = none ∧ (∀ source, command.replaces = some source → rows source ≠ none) ∧
        ∃ row, command.execute rows =
          (.affected 1, Function.update (command.spare rows) id (some row))) := by
  have refused : ∀ {outcome : Answer × (Id → Option Row)} {answer : Answer},
      outcome = (answer, rows) → answer ≠ .affected 1 →
        outcome.1 ≠ .affected 1 ∧ outcome.2 = rows := by
    rintro _ answer rfl different
    exact ⟨different, rfl⟩
  cases command with
  | insert target row =>
    obtain rfl := Option.some.inj creating
    by_cases absent : rows target = none
    · exact Or.inr ⟨absent, nofun, row, Backend.insert_of_absent absent⟩
    · exact Or.inl (refused (Backend.insert_of_present absent) (by decide))
  | setNx target row =>
    obtain rfl := Option.some.inj creating
    by_cases absent : rows target = none
    · exact Or.inr ⟨absent, nofun, row, Backend.setNx_of_absent absent⟩
    · exact Or.inl (refused (Backend.setNx_of_present absent) (by decide))
  | transaction source target row =>
    obtain rfl := Option.some.inj creating
    have different : source ≠ target := fun same => proper source rfl (congrArg some same.symm)
    by_cases absent : rows source = none
    · exact Or.inl (refused (Backend.transaction_of_absent absent) (by decide))
    by_cases vacant : rows target = none
    · refine Or.inr ⟨vacant, fun other same => ?_, row,
        Backend.transaction_of_vacant absent different vacant⟩
      obtain rfl := Option.some.inj same
      exact absent
    · exact Or.inl (refused (Backend.transaction_of_collision absent different vacant) (by decide))
  | eval source target row =>
    obtain rfl := Option.some.inj creating
    have different : source ≠ target := fun same => proper source rfl (congrArg some same.symm)
    by_cases denied : rows source = none ∨ rows target ≠ none
    · exact Or.inl (refused (Backend.eval_of_refused denied) (by decide))
    · obtain ⟨present, vacant⟩ := not_or.mp denied
      refine Or.inr ⟨not_not.mp vacant, fun other same => ?_, row,
        Backend.eval_of_vacant present different (not_not.mp vacant)⟩
      obtain rfl := Option.some.inj same
      exact present
  | update _ _ => cases creating
  | delete _ => cases creating
  | unlink _ => cases creating
  | clear => cases creating

/-- Any other command writes over a record that is there, or removes records. -/
theorem execute_existing (existing : command.creates = none) {key : Id}
    (there : (command.execute rows).2 key ≠ none) : rows key ≠ none := by
  intro absent
  refine there ?_
  cases command with
  | insert _ _ => cases existing
  | setNx _ _ => cases existing
  | transaction _ _ _ => cases existing
  | eval _ _ _ => cases existing
  | update target row =>
    show (Backend.update target row rows).2 key = none
    by_cases missing : rows target = none
    · rw [Backend.update_of_absent missing]
      exact absent
    · rw [Backend.update_of_present missing]
      have other : key ≠ target := by
        rintro rfl
        exact missing absent
      exact (Function.update_of_ne other _ _).trans absent
  | delete target =>
    show (Backend.delete target rows).2 key = none
    by_cases missing : rows target = none
    · rw [Backend.delete_of_absent missing]
      exact absent
    · rw [Backend.delete_of_present missing]
      show Function.update rows target none key = none
      rw [Function.update_apply, absent, ite_self]
  | unlink ids =>
    show (if key ∈ ids then none else rows key) = none
    rw [absent, ite_self]
  | clear => rfl

/-- A deletion leaves nothing under its id, and answers whether there was a record. -/
theorem execute_delete (id : Id) (rows : Id → Option Row) :
    (delete id).execute rows =
      (.affected (if rows id = none then 0 else 1), Function.update rows id none) := by
  show Backend.delete id rows = _
  by_cases absent : rows id = none
  · rw [Backend.delete_of_absent absent, if_pos absent]
    exact congrArg (Prod.mk _) (Function.update_eq_self_iff.mpr absent.symm).symm
  · rw [Backend.delete_of_present absent, if_neg absent]

/-- What a command may answer is what it answers. -/
theorem answers_execute (command : Command) (rows : Id → Option Row) :
    command.Answers (command.execute rows).1 := by
  cases command with
  | insert id row =>
    show (Backend.insert id row rows).1 = _ ∨ (Backend.insert id row rows).1 = _
    unfold Backend.insert
    split
    · exact Or.inl rfl
    · exact Or.inr rfl
  | setNx id row =>
    show (Backend.setNx id row rows).1 = _ ∨ (Backend.setNx id row rows).1 = _
    unfold Backend.setNx
    split
    · exact Or.inr rfl
    · exact Or.inl rfl
  | update id row =>
    show (Backend.update id row rows).1 = _ ∨ (Backend.update id row rows).1 = _
    unfold Backend.update
    split
    · exact Or.inl rfl
    · exact Or.inr rfl
  | transaction source target row =>
    show (Backend.transaction source target row rows).1 = _ ∨
      (Backend.transaction source target row rows).1 = _ ∨
      (Backend.transaction source target row rows).1 = _
    by_cases absent : rows source = none
    · rw [Backend.transaction_of_absent absent]
      exact Or.inl rfl
    simp only [Backend.transaction, Backend.delete_of_present absent]
    by_cases vacant : Function.update rows source none target = none
    · simp [Backend.insert_of_absent vacant]
    · simp [Backend.insert_of_present vacant]
  | eval source target row =>
    show (Backend.eval source target row rows).1 = _ ∨ (Backend.eval source target row rows).1 = _
    unfold Backend.eval
    split
    · exact Or.inl rfl
    · exact Or.inr rfl
  | delete id =>
    show ((delete id).execute rows).1 = _ ∨ ((delete id).execute rows).1 = _
    rw [execute_delete]
    split
    · exact Or.inl rfl
    · exact Or.inr rfl
  | unlink ids => rfl
  | clear => rfl

/-- A permitted creating command names the id of its save, and two ids where it needs two. -/
theorem Permitted.proper {origin : Option Id} {standing : Standing}
    (permitted : command.Permitted origin id standing) : command.Proper := by
  intro source replaced created
  cases command with
  | transaction first target row =>
    obtain ⟨rfl, _, different, _⟩ := permitted
    obtain rfl := Option.some.inj replaced
    exact different (Option.some.inj created).symm
  | eval first target row =>
    obtain ⟨rfl, _, different, _⟩ := permitted
    obtain rfl := Option.some.inj replaced
    exact different (Option.some.inj created).symm
  | _ => cases replaced

/-- When a creating command is permitted: on the source it replaces itself, without a source, or
once the source was removed. -/
theorem Permitted.creating {origin : Option Id} {standing : Standing} {target : Id}
    (permitted : command.Permitted origin id standing) (creating : command.creates = some target) :
    target = id ∧
      (standing = .fresh ∧ origin = none ∧ command.replaces = none ∨
        standing = .taken ∧ command.replaces = none ∨
          standing = .fresh ∧ ∃ source, origin = some source ∧ source ≠ id ∧
            command.replaces = some source) := by
  cases command with
  | insert _ _ =>
    obtain rfl := Option.some.inj creating
    obtain ⟨same, ⟨fresh, unsaved⟩ | taken⟩ := permitted
    · exact ⟨same, Or.inl ⟨fresh, unsaved, rfl⟩⟩
    · exact ⟨same, Or.inr (Or.inl ⟨taken, rfl⟩)⟩
  | setNx _ _ =>
    obtain rfl := Option.some.inj creating
    obtain ⟨same, ⟨fresh, unsaved⟩ | taken⟩ := permitted
    · exact ⟨same, Or.inl ⟨fresh, unsaved, rfl⟩⟩
    · exact ⟨same, Or.inr (Or.inl ⟨taken, rfl⟩)⟩
  | transaction source _ _ =>
    obtain rfl := Option.some.inj creating
    obtain ⟨same, saved, different, fresh⟩ := permitted
    exact ⟨same, Or.inr (Or.inr ⟨fresh, source, saved, different, rfl⟩)⟩
  | eval source _ _ =>
    obtain rfl := Option.some.inj creating
    obtain ⟨same, saved, different, fresh⟩ := permitted
    exact ⟨same, Or.inr (Or.inr ⟨fresh, source, saved, different, rfl⟩)⟩
  | update _ _ => cases creating
  | delete _ => cases creating
  | unlink _ => cases creating
  | clear => cases creating

end Command

end Saysion
