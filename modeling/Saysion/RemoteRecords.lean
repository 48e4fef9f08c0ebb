/-
This file proves what the rows of a remote store hold, and what an acknowledged
save has done. A row is the exact snapshot that one save captured, under the id
of that snapshot; a load hands out such a snapshot and nothing else; and a save
is acknowledged only after a command of its own wrote its snapshot.

`Program.Faithful` is what this takes of a store beyond the guard protocol: it
writes the snapshot it was given, under its id, and reports success only when the
last command was such a write that affected a row.
-/

import Saysion.LoadedSessions
import Saysion.RemoteCompletion

namespace Saysion

/-! ### What a command writes -/

namespace Command

/-- The row that a command may write, and the id it writes it under. -/
def row : Command → Option (Id × Row)
  | insert id row | setNx id row | update id row | transaction _ id row | eval _ id row =>
    some (id, row)
  | delete _ | unlink _ | clear => none

/-- Whether an answer says that the row was written. -/
def confirms (command : Command) (answer : Answer) : Bool :=
  command.row.isSome && decide (answer = .affected 1)

variable {command : Command} {rows : Id → Option Row} {id : Id} {row written : Row}

/-- A row that was not there before is the one that the command writes. -/
theorem row_of_execute (there : (command.execute rows).2 id = some row) :
    rows id = some row ∨ command.row = some (id, row) := by
  have updated : ∀ {target : Id} {newer : Row} {base : Id → Option Row},
      (∀ key found, base key = some found → rows key = some found) →
        Function.update base target (some newer) id = some row →
          rows id = some row ∨ some (target, newer) = some (id, row) := by
    intro target newer base fewer lookup
    by_cases same : id = target
    · subst same
      rw [Function.update_self] at lookup
      exact Or.inr (by rw [Option.some.inj lookup])
    · rw [Function.update_of_ne same] at lookup
      exact Or.inl (fewer id row lookup)
  have removed : ∀ {target : Id} (key : Id) (found : Row),
      Function.update rows target none key = some found → rows key = some found := by
    intro target key found lookup
    by_cases same : key = target
    · subst same
      cases (Function.update_self _ _ _).symm.trans lookup
    · rwa [Function.update_of_ne same] at lookup
  cases command with
  | insert target newer =>
    by_cases absent : rows target = none
    · rw [execute, Backend.insert_of_absent absent] at there
      exact updated (fun _ _ found => found) there
    · rw [execute, Backend.insert_of_present absent] at there
      exact Or.inl there
  | setNx target newer =>
    by_cases absent : rows target = none
    · rw [execute, Backend.setNx_of_absent absent] at there
      exact updated (fun _ _ found => found) there
    · rw [execute, Backend.setNx_of_present absent] at there
      exact Or.inl there
  | update target newer =>
    by_cases absent : rows target = none
    · rw [execute, Backend.update_of_absent absent] at there
      exact Or.inl there
    · rw [execute, Backend.update_of_present absent] at there
      exact updated (fun _ _ found => found) there
  | transaction source target newer =>
    by_cases absent : rows source = none
    · rw [execute, Backend.transaction_of_absent absent] at there
      exact Or.inl there
    simp only [execute, Backend.transaction, Backend.delete_of_present absent] at there
    by_cases vacant : Function.update rows source none target = none
    · rw [Backend.insert_of_absent vacant] at there
      exact updated removed there
    · rw [Backend.insert_of_present vacant] at there
      exact Or.inl there
  | eval source target newer =>
    simp only [execute, Backend.eval] at there
    split at there
    · exact Or.inl there
    · by_cases same : id = source
      · subst same
        cases (Function.update_self _ _ _).symm.trans there
      · exact updated (fun _ _ found => found) ((Function.update_of_ne same _ _).symm.trans there)
  | delete target =>
    rw [execute_delete] at there
    exact Or.inl (removed id row there)
  | unlink ids =>
    have there : (if id ∈ ids then none else rows id) = some row := there
    split at there
    · cases there
    · exact Or.inl there
  | clear => cases there

/-- A confirmed row is there. -/
theorem execute_of_confirms (writes : command.row = some (id, row)) (proper : command.Proper)
    (confirmed : command.confirms (command.execute rows).1 = true) :
    (command.execute rows).2 id = some row := by
  have one : (command.execute rows).1 = .affected 1 := by
    simp only [confirms, Bool.and_eq_true, decide_eq_true_eq] at confirmed
    exact confirmed.2
  cases command with
  | insert target newer =>
    cases writes
    by_cases absent : rows id = none
    · rw [execute, Backend.insert_of_absent absent]
      exact Function.update_self _ _ _
    · rw [execute, Backend.insert_of_present absent] at one
      cases one
  | setNx target newer =>
    cases writes
    by_cases absent : rows id = none
    · rw [execute, Backend.setNx_of_absent absent]
      exact Function.update_self _ _ _
    · rw [execute, Backend.setNx_of_present absent] at one
      cases one
  | update target newer =>
    cases writes
    by_cases absent : rows id = none
    · rw [execute, Backend.update_of_absent absent] at one
      cases one
    · rw [execute, Backend.update_of_present absent]
      exact Function.update_self _ _ _
  | transaction source target newer =>
    cases writes
    have different : source ≠ id := fun same => proper source rfl (congrArg some same.symm)
    by_cases absent : rows source = none
    · rw [execute, Backend.transaction_of_absent absent] at one
      cases one
    by_cases vacant : rows id = none
    · rw [execute, Backend.transaction_of_vacant absent different vacant]
      exact Function.update_self _ _ _
    · rw [execute, Backend.transaction_of_collision absent different vacant] at one
      cases one
  | eval source target newer =>
    cases writes
    have different : source ≠ id := fun same => proper source rfl (congrArg some same.symm)
    by_cases refused : rows source = none ∨ rows id ≠ none
    · rw [execute, Backend.eval_of_refused refused] at one
      cases one
    · obtain ⟨present, vacant⟩ := not_or.mp refused
      rw [execute, Backend.eval_of_vacant present different (not_not.mp vacant)]
      exact Function.update_self _ _ _
  | delete target => cases writes
  | unlink ids => cases writes
  | clear => cases writes

end Command

/-! ### What a program writes -/

/-- A program writes the snapshot it was given and nothing else, in rows of one encoding. It ends
well only if its last command was such a write and affected its row, which is what `saved` says. -/
def Program.Faithful (encodes : Row → Prop) (snapshot : SessionSnapshot) : Program → Bool → Prop
  | .send command next, _ =>
    (∀ id row, command.row = some (id, row) → id = snapshot.id ∧ row.session = snapshot ∧ encodes row) ∧
      ∀ answer, command.Answers answer →
        (next answer).Faithful encodes snapshot (command.confirms answer)
  | .written, saved => saved = true
  | .revoked, _ | .failed _, _ => True

section Native

variable {encodes : Row → Prop} {snapshot : SessionSnapshot} {command : Command}
  {next : Answer → Program} {document : Row} {saved : Bool}

/-- A single write ends a program when it is confirmed. -/
theorem Program.faithful_of_write (writes : command.row = some (snapshot.id, document))
    (exact_ : document.session = snapshot) (encoded : encodes document)
    (ends : ∀ answer, command.Answers answer → next answer = .written ∧ answer = .affected 1 ∨
      ∃ error, next answer = .failed error) :
    (Program.send command next).Faithful encodes snapshot saved := by
  refine ⟨fun id other same => ?_, fun answer possible => ?_⟩
  · cases writes.symm.trans same
    exact ⟨rfl, exact_, encoded⟩
  · rcases ends answer possible with ⟨written, rfl⟩ | ⟨error, failed⟩
    · rw [written]
      show command.confirms _ = true
      simp [Command.confirms, writes]
    · rw [failed]
      exact trivial

theorem Program.faithful_of_delete {id : Id}
    (rest : ∀ answer, (next answer).Faithful encodes snapshot false) :
    (Program.send (.delete id) next).Faithful encodes snapshot saved :=
  ⟨nofun, fun answer _ => rest answer⟩

/-- The encoding of Redis: a time to live if the session expires. -/
def RedisStore.Timed (row : Row) : Prop :=
  ∃ ttl, row = RedisStore.row row.session ttl ∧ (ttl = none ↔ row.session.expiry = none)

/-- How the rows of each store encode the expiry of the session behind them. -/
def NativeStore.Encodes : NativeStore → Row → Prop
  | sqlxPostgres, row | sqlxSqlite, row | sqlxMySql, row => row = SqlxStore.row row.session
  | redis, row => RedisStore.Timed row
  | mongoDb, row => MongoDbStore.row row.session = some row

theorem SqlxStore.faithful (origin : Option Id) (snapshot : SessionSnapshot) :
    (write origin snapshot).Faithful (fun row => row = SqlxStore.row row.session) snapshot false := by
  unfold write
  split
  · refine Program.faithful_of_write rfl rfl rfl fun answer possible => ?_
    rcases possible with rfl | rfl | rfl
    · exact Or.inr ⟨_, rfl⟩
    · exact Or.inl ⟨rfl, rfl⟩
    · exact Or.inr ⟨_, rfl⟩
  · split
    · refine Program.faithful_of_write rfl rfl rfl fun answer possible => ?_
      rcases possible with rfl | rfl
      · exact Or.inr ⟨_, rfl⟩
      · exact Or.inl ⟨rfl, rfl⟩
    · refine Program.faithful_of_write rfl rfl rfl fun answer possible => ?_
      rcases possible with rfl | rfl
      · exact Or.inl ⟨rfl, rfl⟩
      · exact Or.inr ⟨_, rfl⟩

theorem MongoDbStore.session_of_row (made : row snapshot = some document) :
    document.session = snapshot := by
  unfold row at made
  split at made
  · cases made
    rfl
  · obtain ⟨millis, _, rfl⟩ := Option.map_eq_some_iff.mp made
    rfl

theorem MongoDbStore.faithful_insertOne (made : row snapshot = some document) :
    (insertOne snapshot.id document).Faithful (fun row => MongoDbStore.row row.session = some row)
      snapshot saved := by
  have session := session_of_row made
  refine Program.faithful_of_write rfl session (session ▸ made) fun answer possible => ?_
  rcases possible with rfl | rfl
  · exact Or.inl ⟨rfl, rfl⟩
  · exact Or.inr ⟨_, rfl⟩

theorem MongoDbStore.faithful (origin : Option Id) (snapshot : SessionSnapshot) :
    (write origin snapshot).Faithful (fun row => MongoDbStore.row row.session = some row)
      snapshot false := by
  unfold write
  split
  · exact trivial
  rename_i document made
  split
  · refine Program.faithful_of_delete fun answer => ?_
    split
    · exact trivial
    · exact faithful_insertOne made
  · split
    · have session := session_of_row made
      refine Program.faithful_of_write rfl session (session ▸ made) fun answer possible => ?_
      rcases possible with rfl | rfl
      · exact Or.inr ⟨_, rfl⟩
      · exact Or.inl ⟨rfl, rfl⟩
    · exact faithful_insertOne made

theorem RedisStore.faithful_rotate {source : Id} {ttl : Option Nat}
    (timed : ttl = none ↔ snapshot.expiry = none) :
    (rotate source snapshot ttl).Faithful Timed snapshot saved := by
  refine Program.faithful_of_write rfl rfl ⟨ttl, rfl, timed⟩ fun answer possible => ?_
  rcases possible with rfl | rfl
  · exact Or.inr ⟨_, rfl⟩
  · exact Or.inl ⟨rfl, rfl⟩

theorem RedisStore.faithful_set {origin : Option Id} {ttl : Option Nat}
    (timed : ttl = none ↔ snapshot.expiry = none) :
    (set origin snapshot ttl).Faithful Timed snapshot saved := by
  unfold set
  dsimp only
  split
  · refine Program.faithful_of_write rfl rfl ⟨ttl, rfl, timed⟩ fun answer possible => ?_
    rcases possible with rfl | rfl
    · exact Or.inr ⟨_, rfl⟩
    · exact Or.inl ⟨rfl, rfl⟩
  · refine Program.faithful_of_write rfl rfl ⟨ttl, rfl, timed⟩ fun answer possible => ?_
    rcases possible with rfl | rfl
    · exact Or.inr ⟨_, rfl⟩
    · exact Or.inl ⟨rfl, rfl⟩

theorem Program.faithful_ofResult {Value : Type} {result : Except Error Value}
    {rest : Value → Program} (faithful : ∀ value, (rest value).Faithful encodes snapshot saved) :
    (Program.ofResult rest result).Faithful encodes snapshot saved := by
  cases result with
  | error error => exact trivial
  | ok value => exact faithful value

theorem RedisStore.faithful (origin : Option Id) (snapshot : SessionSnapshot) (now : DateTime) :
    (write origin snapshot now).Faithful Timed snapshot false := by
  unfold write
  split
  · split
    · rename_i expiry expires
      split
      · exact Program.faithful_of_delete fun _ => trivial
      · exact Program.faithful_ofResult fun millis => faithful_rotate (by simp [expires])
    · rename_i permanent
      exact faithful_rotate (by simp [permanent])
  · dsimp only
    split
    · exact Program.faithful_of_delete fun _ => trivial
    · rename_i kept
      split
      · rename_i ttl left
        have expires : snapshot.expiry ≠ none := by
          intro permanent
          simp [SessionSnapshot.expiresIn, permanent] at left
        exact Program.faithful_ofResult fun millis => faithful_set (by simp [expires])
      · rename_i none
        refine faithful_set ⟨fun _ => ?_, fun _ => rfl⟩
        by_contra expires
        exact kept ⟨Option.isSome_iff_ne_none.mpr expires, none⟩

/-- The stores of the crate write what they were given, in their own encoding. -/
theorem NativeStore.faithful (native : NativeStore) (origin : Option Id) (snapshot : SessionSnapshot)
    (now : DateTime) :
    (native.remote.write origin snapshot now).Faithful native.Encodes snapshot false := by
  cases native with
  | sqlxPostgres => exact SqlxStore.faithful origin snapshot
  | sqlxSqlite => exact SqlxStore.faithful origin snapshot
  | sqlxMySql => exact SqlxStore.faithful origin snapshot
  | redis => exact RedisStore.faithful origin snapshot now
  | mongoDb => exact MongoDbStore.faithful origin snapshot

end Native

/-! ### The calls of a step -/

/-- A phase in which nothing of the save's own is at stake any more, or yet. -/
def RemotePhase.Bare : RemotePhase → Prop
  | .running _ | .waiting _ _ | .finished => False
  | _ => True

/-- How a call of a save goes on. -/
inductive RemotePhase.Proceeds (store : RemoteStore) (state after : Remote) (save : Save) :
    RemotePhase → RemotePhase → Prop
  | begin (snapshot : SessionSnapshot) (now : DateTime) : save.snapshot = some snapshot →
      Proceeds store state after save .captured (.running (store.write save.origin snapshot now))
  | send (command : Command) (next : Answer → Program) :
      after.flights state.nextFlight = some (save.flight command) →
        Proceeds store state after save (.running (.send command next))
          (.waiting state.nextFlight next)
  | receive {number : Nat} {next : Answer → Program} (flight : Flight) (answer : Answer) :
      state.flights number = some flight → flight.answer = some answer →
        Proceeds store state after save (.waiting number next) (.running (next answer))
  | finish : Proceeds store state after save (.running .written) .finished
  | bare {phase next : RemotePhase} : next.Bare → Proceeds store state after save phase next

namespace Remote

variable {store : RemoteStore} {idOf : Cookie → Option Id} {state after : Remote} {reply : Reply}
  {action : RemoteAction}

/-- What a step does to the calls and to their saves: one starts, captures its source, goes on with
what it captured, or ends. -/
inductive CallEffect (store : RemoteStore) (state : Remote) : RemoteAction → Remote → Prop
  | still {action : RemoteAction} {after : Remote} : after.process.saves = state.process.saves →
      after.calls = state.calls → CallEffect store state action after
  | start {index : Nat} {after : Remote} (save : Save) : save.snapshot = none →
      after.process.saves =
        Function.update state.process.saves state.process.nextSave (some save) →
          after.calls = Function.update state.calls state.process.nextSave (some .attempted) →
            CallEffect store state (.storeSession index) after
  | capture {index : Nat} {after : Remote} (older newer : Save) :
      state.process.saves index = some older → newer.source = older.source →
        newer.snapshot = some (older.source.wire state.process.heap) →
          after.process.saves = Function.update state.process.saves index (some newer) →
            after.calls = Function.update state.calls index (some .captured) →
              CallEffect store state (.capture index) after
  | proceed {action : RemoteAction} {after : Remote} (index : Nat) (older newer : Save)
      (phase next : RemotePhase) : state.process.saves index = some older →
        newer.source = older.source → newer.snapshot = older.snapshot →
          after.process.saves = Function.update state.process.saves index (some newer) →
            state.calls index = some phase →
              after.calls = Function.update state.calls index (some next) →
                phase.Proceeds store state after older next → CallEffect store state action after
  | finish {action : RemoteAction} {after : Remote} (index : Nat) :
      after.process.saves = Function.update state.process.saves index none →
        after.calls = Function.update state.calls index none → CallEffect store state action after

/-- A call goes on and its save stays as it is. -/
theorem callEffect_phase (sound : RemoteSound idOf state) {index : Nat} {phase next : RemotePhase}
    (found : state.calls index = some phase)
    (saves : after.process.saves = state.process.saves)
    (calls : after.calls = Function.update state.calls index (some next))
    (proceeds : ∀ save, state.process.saves index = some save →
      phase.Proceeds store state after save next) : state.CallEffect store action after := by
  obtain ⟨save, saved, _⟩ := sound.calls index phase found
  refine .proceed index save save phase next saved rfl rfl ?_ found calls (proceeds save saved)
  rw [saves, Function.update_eq_self_iff.mpr saved.symm]

theorem callEffect_abandon (index : Nat) : state.CallEffect store action
    { state.setCall index none with process := state.process.abandon index } := by
  obtain ⟨heap, dropped⟩ := state.process.abandon_eq index
  rw [dropped]
  exact .finish index rfl rfl

theorem callEffect_dropDelete (index : Nat) (erasures : Nat → Option Nat) :
    state.CallEffect store action
      { state with process := state.process.dropDelete index, erasures } := by
  obtain ⟨heap, dropped⟩ := state.process.dropDelete_eq index
  rw [dropped]
  exact .still rfl rfl

theorem callEffect_capture (sound : RemoteSound idOf state) {index : Nat}
    (step : state.capture store index = some (reply, after)) :
    state.CallEffect store (.capture index) after := by
  obtain ⟨save, attempted, found, _, ⟨_, _, rfl⟩ |
    ⟨process, ⟨_, captured⟩ | ⟨_, snapshot, captured⟩, rfl⟩⟩ := capture_cases step
  · exact callEffect_phase sound attempted rfl rfl fun _ _ => .bare trivial
  · obtain ⟨older, lookup, _, rfl⟩ := Process.captureImmutable_cases captured
    refine .capture older _ lookup ?_ ?_ rfl rfl <;> rfl
  · obtain ⟨older, lookup, _, _, rfl⟩ := Process.capturePersistence_cases captured
    refine .capture older _ lookup ?_ ?_ rfl rfl <;> rfl

theorem callEffect_send (sound : RemoteSound idOf state) {index : Nat}
    (step : state.send index = some (reply, after)) : state.CallEffect store action after := by
  obtain ⟨save, found, _, ⟨command, next, running, ⟨_, rfl⟩ | ⟨_, process, dispatched, rfl⟩⟩ |
    ⟨error, unremoved, rfl⟩⟩ := send_cases step
  · refine callEffect_phase sound running rfl rfl fun other same => .send command next ?_
    obtain rfl := Option.some.inj (found.symm.trans same)
    exact Function.update_self _ _ _
  · obtain ⟨older, lookup, rfl⟩ := Process.dispatch_cases dispatched
    obtain rfl := Option.some.inj (found.symm.trans lookup)
    refine .proceed index save { save with dispatched := true } _ _ found rfl rfl rfl running rfl
      (.send command next ?_)
    exact Function.update_self _ _ _
  · exact callEffect_phase sound unremoved rfl rfl fun _ _ => .bare trivial

theorem callEffect_finish (sound : RemoteSound idOf state) {index : Nat}
    (step : state.finish store index = some (reply, after)) : state.CallEffect store action after := by
  obtain ⟨_, ⟨written, result, finished, closed, outcome⟩ | ⟨revoked, outcome⟩⟩ := finish_cases step
  · obtain ⟨guard, _, _, rfl⟩ := Process.finish_cases closed
    rcases outcome with ⟨error, process, _, required, rfl⟩ | ⟨_, rfl⟩
    · obtain ⟨_, _, rfl⟩ := Process.requireCleanup_cases required
      refine callEffect_phase sound written rfl rfl fun _ _ => .bare ?_
      split <;> trivial
    · exact callEffect_phase sound written rfl rfl fun _ _ => .finish
  · rcases outcome with ⟨_, process, confirmed, rfl⟩ | ⟨_, result, process, closed, outcome⟩
    · obtain ⟨guard, _, rfl⟩ := Process.confirmRemoved_cases confirmed
      exact callEffect_phase sound revoked rfl rfl fun _ _ => .bare trivial
    · obtain ⟨guard, _, _, rfl⟩ := Process.finish_cases closed
      rcases outcome with ⟨error, _, rfl⟩ | ⟨_, rfl⟩ <;>
        exact callEffect_phase sound revoked rfl rfl fun _ _ => .bare trivial

/-- Every step has one of these effects on the calls. -/
theorem callEffect (sound : RemoteSound idOf state)
    (step : (remoteMachine store idOf).step state action = some (reply, after)) :
    state.CallEffect store action after := by
  cases action with
  | handle action =>
    obtain ⟨process, handled, rfl⟩ := handle_cases step
    obtain ⟨_, _, _, _, rfl⟩ := Process.handleStep_eq handled
    exact .still rfl rfl
  | read cookie now =>
    rcases read_cases step with ⟨_, _, rfl⟩ | ⟨id, _, ⟨_, _, rfl⟩ | ⟨row, _, _, rfl⟩⟩ <;>
      exact .still rfl rfl
  | deliver index now =>
    obtain ⟨cookie, wire, validated, _, _, ⟨_, rfl⟩ | ⟨loaded, heap, _, _, rfl⟩⟩ :=
      deliver_cases step <;> exact .still rfl rfl
  | storeSession index =>
    obtain ⟨process, attempt, outcome⟩ := storeSession_cases step
    obtain ⟨session, _, cases⟩ := Process.attempt_cases attempt
    rcases outcome with ⟨error, rfl, rfl⟩ | ⟨rfl, rfl⟩
    · rcases cases with ⟨_, _, _, rfl⟩ | ⟨_, _, _, wrong, _⟩
      · exact .still rfl rfl
      · cases wrong
    · rcases cases with ⟨_, _, wrong, _⟩ | ⟨origin, heap, _, _, rfl⟩
      · cases wrong
      · refine .start _ ?_ rfl rfl
        rfl
  | capture index => exact callEffect_capture sound step
  | beginWrite index now =>
    obtain ⟨save, snapshot, result, process, captured, found, taken, acquired, _, outcome⟩ :=
      beginWrite_cases step
    obtain ⟨_, _, _, _, ⟨_, _, _, rfl, rfl⟩ | ⟨_, _, _, rfl, rfl⟩⟩ := Process.acquire_cases acquired
    · rcases outcome with ⟨error, _, rfl⟩ | ⟨wrong, _⟩
      · exact callEffect_phase sound captured rfl rfl fun _ _ => .bare trivial
      · cases wrong
    · rcases outcome with ⟨_, wrong, _⟩ | ⟨_, rfl⟩
      · cases wrong
      · refine callEffect_phase sound captured rfl rfl fun other same => ?_
        obtain rfl := Option.some.inj (found.symm.trans same)
        exact .begin snapshot now taken
  | send index => exact callEffect_send sound step
  | execute number =>
    obtain ⟨flight, found, unanswered, rfl⟩ := execute_cases step
    exact .still rfl rfl
  | receive index =>
    obtain ⟨number, flight, answer, sent, answered, _, ⟨next, waiting, rfl⟩ |
      ⟨error, process, removing, confirmed, rfl⟩⟩ := receive_cases step
    · exact callEffect_phase sound waiting rfl rfl fun _ _ => .receive flight answer sent answered
    · obtain ⟨guard, _, rfl⟩ := Process.confirmRemoved_cases confirmed
      exact callEffect_phase sound removing rfl rfl fun _ _ => .bare trivial
  | check index =>
    obtain ⟨guard, written, _, _, _, _, rfl⟩ := check_cases step
    exact callEffect_phase sound written rfl rfl fun _ _ => .bare trivial
  | finish index => exact callEffect_finish sound step
  | complete index =>
    rcases complete_cases step with ⟨cookie, process, _, completed, _, rfl⟩ | ⟨_, _, rfl⟩
    · obtain ⟨middle, acknowledged, rfl⟩ := Process.complete_cases completed
      obtain ⟨_, _, _, _, _, rfl⟩ := Process.acknowledge_cases acknowledged
      obtain ⟨heap, dropped⟩ := Process.dropGuard_eq _ index
      rw [dropped]
      exact .finish index rfl rfl
    · exact callEffect_abandon index
  | fail index =>
    obtain ⟨error, _, _, rfl⟩ := fail_cases step
    exact callEffect_abandon index
  | lose index =>
    obtain ⟨phase, _, _, _, rfl⟩ := lose_cases step
    exact callEffect_abandon index
  | cancelStore index =>
    obtain ⟨phase, _, _, _, rfl⟩ := cancelStore_cases step
    exact callEffect_abandon index
  | destroySession index =>
    obtain ⟨process, requested, rfl⟩ := destroySession_cases step
    obtain ⟨session, _, _, rfl⟩ := Process.requestDelete_cases requested
    exact .still rfl rfl
  | grantDelete index =>
    obtain ⟨process, granted, rfl⟩ := grantDelete_cases step
    obtain ⟨_, _, _, _, ⟨_, _, _, rfl⟩ | ⟨_, _, _, _, rfl⟩⟩ := Process.grantDelete_cases granted <;>
      exact .still rfl rfl
  | erase index =>
    obtain ⟨_, _, _, _, _, _, rfl⟩ := erase_cases step
    exact .still rfl rfl
  | confirmErased index =>
    obtain ⟨_, _, _, _, _, _, _, rfl⟩ := confirmErased_cases step
    exact callEffect_dropDelete index _
  | cancelDestroy index =>
    obtain ⟨_, _, _, rfl⟩ := cancelDestroy_cases step
    exact callEffect_dropDelete index _
  | clearStore =>
    cases step
    exact .still rfl rfl
  | unlink ids =>
    cases step
    exact .still rfl rfl
  | expire id =>
    cases step
    exact .still rfl rfl

/-! ### The commands and the rows of a step -/

/-- What a step does to the commands, the rows and the reads. A command that may write a row is the
next one of a program. -/
inductive WireEffect (idOf : Cookie → Option Id) (state : Remote) : RemoteAction → Remote → Prop
  | still {action : RemoteAction} {after : Remote} : after.flights = state.flights →
      (∀ id row, after.rows id = some row → state.rows id = some row) →
        after.reads = state.reads → WireEffect idOf state action after
  | send {action : RemoteAction} {after : Remote} (flight : Flight) : flight.answer = none →
      (flight.command.row = none ∨ ∃ index next,
        state.calls index = some (.running (.send flight.command next))) →
          after.flights = Function.update state.flights state.nextFlight (some flight) →
            after.rows = state.rows → after.reads = state.reads → WireEffect idOf state action after
  | execute {number : Nat} {flight : Flight} : state.flights number = some flight →
      flight.answer = none →
        WireEffect idOf state (.execute number) (state.takeEffect number flight)
  | read {cookie : Cookie} {now : DateTime} {after : Remote} (id : Id) (row : Row) :
      idOf cookie = some id → state.rows id = some row → after.flights = state.flights →
        after.rows = state.rows →
          after.reads = Function.update state.reads state.nextRead (some (cookie, row.session)) →
            WireEffect idOf state (.read cookie now) after
  | deliver {index : Nat} {now : DateTime} {after : Remote} : after.flights = state.flights →
      after.rows = state.rows → after.reads = Function.update state.reads index none →
        WireEffect idOf state (.deliver index now) after

/-- A step of the process alone. -/
theorem wireEffect_of_same (flights : after.flights = state.flights) (rows : after.rows = state.rows)
    (reads : after.reads = state.reads) : state.WireEffect idOf action after :=
  .still flights (fun _ _ there => rows ▸ there) reads

theorem wireEffect_send {index : Nat} (step : state.send index = some (reply, after)) :
    state.WireEffect idOf action after := by
  obtain ⟨save, found, _, ⟨command, next, running, ⟨_, rfl⟩ | ⟨_, process, dispatched, rfl⟩⟩ |
    ⟨error, unremoved, rfl⟩⟩ := send_cases step
  · exact .send (save.flight command) rfl (Or.inr ⟨index, next, running⟩) rfl rfl rfl
  · exact .send (save.flight command) rfl (Or.inr ⟨index, next, running⟩) rfl rfl rfl
  · exact .send (save.flight _) rfl (Or.inl rfl) rfl rfl rfl

/-- Every step has one of these effects on the backend. -/
theorem wireEffect (step : (remoteMachine store idOf).step state action = some (reply, after)) :
    state.WireEffect idOf action after := by
  cases action with
  | handle action =>
    obtain ⟨process, _, rfl⟩ := handle_cases step
    exact wireEffect_of_same rfl rfl rfl
  | read cookie now =>
    rcases read_cases step with ⟨_, _, rfl⟩ | ⟨id, bound, ⟨_, _, rfl⟩ | ⟨row, selected, _, rfl⟩⟩
    · exact wireEffect_of_same rfl rfl rfl
    · exact wireEffect_of_same rfl rfl rfl
    · exact .read id row bound (Option.filter_eq_some_iff.mp selected).1 rfl rfl rfl
  | deliver index now =>
    obtain ⟨cookie, wire, validated, _, _, ⟨_, rfl⟩ | ⟨loaded, heap, _, _, rfl⟩⟩ :=
      deliver_cases step <;> exact .deliver rfl rfl rfl
  | storeSession index =>
    obtain ⟨process, _, ⟨_, _, rfl⟩ | ⟨_, rfl⟩⟩ := storeSession_cases step <;>
      exact wireEffect_of_same rfl rfl rfl
  | capture index =>
    obtain ⟨save, _, _, _, ⟨_, _, rfl⟩ | ⟨process, _, rfl⟩⟩ := capture_cases step <;>
      exact wireEffect_of_same rfl rfl rfl
  | beginWrite index now =>
    obtain ⟨_, _, _, _, _, _, _, _, _, ⟨_, _, rfl⟩ | ⟨_, rfl⟩⟩ := beginWrite_cases step <;>
      exact wireEffect_of_same rfl rfl rfl
  | send index => exact wireEffect_send step
  | execute number =>
    obtain ⟨flight, found, unanswered, rfl⟩ := execute_cases step
    exact .execute found unanswered
  | receive index =>
    obtain ⟨_, _, _, _, _, _, ⟨_, _, rfl⟩ | ⟨_, _, _, _, rfl⟩⟩ := receive_cases step <;>
      exact wireEffect_of_same rfl rfl rfl
  | check index =>
    obtain ⟨_, _, _, _, _, _, rfl⟩ := check_cases step
    exact wireEffect_of_same rfl rfl rfl
  | finish index =>
    obtain ⟨_, ⟨_, _, _, _, ⟨_, _, _, _, rfl⟩ | ⟨_, rfl⟩⟩ |
      ⟨_, ⟨_, _, _, rfl⟩ | ⟨_, _, _, _, ⟨_, _, rfl⟩ | ⟨_, rfl⟩⟩⟩⟩ := finish_cases step <;>
      exact wireEffect_of_same rfl rfl rfl
  | complete index =>
    rcases complete_cases step with ⟨_, _, _, _, _, rfl⟩ | ⟨_, _, rfl⟩ <;>
      exact wireEffect_of_same rfl rfl rfl
  | fail index =>
    obtain ⟨_, _, _, rfl⟩ := fail_cases step
    exact wireEffect_of_same rfl rfl rfl
  | lose index =>
    obtain ⟨_, _, _, _, rfl⟩ := lose_cases step
    exact wireEffect_of_same rfl rfl rfl
  | cancelStore index =>
    obtain ⟨_, _, _, _, rfl⟩ := cancelStore_cases step
    exact wireEffect_of_same rfl rfl rfl
  | destroySession index =>
    obtain ⟨_, _, rfl⟩ := destroySession_cases step
    exact wireEffect_of_same rfl rfl rfl
  | grantDelete index =>
    obtain ⟨_, _, rfl⟩ := grantDelete_cases step
    exact wireEffect_of_same rfl rfl rfl
  | erase index =>
    obtain ⟨_, _, _, _, _, _, rfl⟩ := erase_cases step
    refine .send _ ?_ (Or.inl ?_) rfl rfl rfl <;> rfl
  | confirmErased index =>
    obtain ⟨_, _, _, _, _, _, _, rfl⟩ := confirmErased_cases step
    exact wireEffect_of_same rfl rfl rfl
  | cancelDestroy index =>
    obtain ⟨_, _, _, rfl⟩ := cancelDestroy_cases step
    exact wireEffect_of_same rfl rfl rfl
  | clearStore =>
    cases step
    refine .send _ ?_ (Or.inl ?_) rfl rfl rfl <;> rfl
  | unlink ids =>
    cases step
    refine .send _ ?_ (Or.inl ?_) rfl rfl rfl <;> rfl
  | expire id =>
    cases step
    refine .still rfl (fun key row there => ?_) rfl
    rcases eq_or_ne key id with rfl | different
    · cases (Function.update_self key none state.rows).symm.trans there
    · exact (Function.update_of_ne different _ _).symm.trans there

end Remote

/-! ### Events -/

/-- A save captured a snapshot, which is the state of its source at that moment. -/
def RemoteAction.Captures (snapshot : SessionSnapshot) (before : Remote) (action : RemoteAction)
    (_ : Reply) (after : Remote) : Prop :=
  ∃ index save, action = .capture index ∧ before.process.saves index = some save ∧
    after.calls index = some .captured ∧ save.source.wire before.process.heap = snapshot

/-- The command that a call waits for took effect, and its row, with this snapshot, is the one under
the snapshot's id. -/
def RemoteAction.Writes (index : Nat) (snapshot : SessionSnapshot) (before : Remote)
    (action : RemoteAction) (_ : Reply) (after : Remote) : Prop :=
  ∃ number next flight row, action = .execute number ∧
    before.calls index = some (.waiting number next) ∧ before.flights number = some flight ∧
      flight.command.row = some (snapshot.id, row) ∧ row.session = snapshot ∧
        after.rows snapshot.id = some row

/-- The snapshot was captured by a save of the run with this trace. -/
abbrev Remote.WasCaptured (store : RemoteStore) (idOf : Cookie → Option Id)
    (trace : List (RemoteAction × Reply)) (snapshot : SessionSnapshot) (state : Remote) : Prop :=
  (remoteMachine store idOf).Happened (RemoteAction.Captures snapshot) .initial trace state

/-- The snapshot was written to the backend by a call of the run with this trace. -/
abbrev Remote.WasWritten (store : RemoteStore) (idOf : Cookie → Option Id)
    (trace : List (RemoteAction × Reply)) (index : Nat) (snapshot : SessionSnapshot)
    (state : Remote) : Prop :=
  (remoteMachine store idOf).Happened (RemoteAction.Writes index snapshot) .initial trace state

/-- What a call has done of its write, with the snapshot of its save. -/
def RemotePhase.Faithful (store : RemoteStore) (idOf : Cookie → Option Id) (encodes : Row → Prop)
    (trace : List (RemoteAction × Reply)) (state : Remote) (index : Nat)
    (captured : Option SessionSnapshot) : RemotePhase → Prop
  | .running program => ∃ snapshot saved, captured = some snapshot ∧
      program.Faithful encodes snapshot saved ∧
        (saved = true → state.WasWritten store idOf trace index snapshot)
  | .waiting number next => ∃ snapshot flight, captured = some snapshot ∧
      state.flights number = some flight ∧
        (∀ id row, flight.command.row = some (id, row) → id = snapshot.id ∧ row.session = snapshot) ∧
          (∀ answer, flight.command.Answers answer →
            (next answer).Faithful encodes snapshot (flight.command.confirms answer)) ∧
              ∀ answer, flight.answer = some answer → flight.command.confirms answer = true →
                state.WasWritten store idOf trace index snapshot
  | .finished => ∃ snapshot, captured = some snapshot ∧ state.WasWritten store idOf trace index snapshot
  | _ => True

/-- The invariant of what is written. -/
structure Recorded (store : RemoteStore) (idOf : Cookie → Option Id) (encodes : Row → Prop)
    (trace : List (RemoteAction × Reply)) (state : Remote) : Prop where
  pending : RemotePending idOf state
  run : (remoteMachine store idOf).Run .initial trace state
  saves : ∀ index save snapshot, state.process.saves index = some save →
    save.snapshot = some snapshot → snapshot.id = save.source.id ∧
      state.WasCaptured store idOf trace snapshot
  calls : ∀ index phase save, state.calls index = some phase →
    state.process.saves index = some save →
      phase.Faithful store idOf encodes trace state index save.snapshot
  flights : ∀ number flight id row, state.flights number = some flight →
    flight.command.row = some (id, row) → row.session.id = id ∧ encodes row ∧
      state.WasCaptured store idOf trace row.session
  rows : ∀ id row, state.rows id = some row → row.session.id = id ∧ encodes row ∧
    state.WasCaptured store idOf trace row.session
  reads : ∀ index cookie wire, state.reads index = some (cookie, wire) →
    idOf cookie = some wire.id ∧ state.WasCaptured store idOf trace wire

theorem recorded_initial (store : RemoteStore) (idOf : Cookie → Option Id) (encodes : Row → Prop) :
    Recorded store idOf encodes [] .initial where
  pending := .initial idOf
  run := .refl
  saves := by rintro _ _ _ found; cases found
  calls := by rintro _ _ _ found; cases found
  flights := by rintro _ _ _ _ found; cases found
  rows := by rintro _ _ found; cases found
  reads := by rintro _ _ _ found; cases found

theorem RemotePhase.Bare.faithful {store : RemoteStore} {idOf : Cookie → Option Id}
    {encodes : Row → Prop} {trace : List (RemoteAction × Reply)} {state : Remote} {index : Nat}
    {captured : Option SessionSnapshot}
    {phase : RemotePhase} (bare : phase.Bare) :
    phase.Faithful store idOf encodes trace state index captured := by
  cases phase with
  | running program => exact absurd bare id
  | waiting number next => exact absurd bare id
  | finished => exact absurd bare id
  | _ => exact trivial

/-- A command names two ids where it needs two. -/
theorem RemoteSound.proper {idOf : Cookie → Option Id} {state : Remote} (sound : RemoteSound idOf state)
    {number : Nat} {flight : Flight} (found : state.flights number = some flight) :
    flight.command.Proper := by
  cases creates : flight.command.creates with
  | some target => exact (sound.creating number flight target found creates).2.1
  | none =>
    intro source _
    rw [creates]
    exact Option.some_ne_none source |>.symm

namespace Recorded

variable {store : RemoteStore} {idOf : Cookie → Option Id} {encodes : Row → Prop}
  {state after : Remote} {reply : Reply} {action : RemoteAction}
  {trace : List (RemoteAction × Reply)}

theorem saves_step (recorded : Recorded store idOf encodes trace state)
    (step : (remoteMachine store idOf).step state action = some (reply, after)) (index : Nat)
    (save : Save) (snapshot : SessionSnapshot) (found : after.process.saves index = some save)
    (taken : save.snapshot = some snapshot) : snapshot.id = save.source.id ∧
      after.WasCaptured store idOf ((action, reply) :: trace) snapshot := by
  have earlier : ∀ older, state.process.saves index = some older → older.snapshot = some snapshot →
      older.source = save.source → snapshot.id = save.source.id ∧
        after.WasCaptured store idOf ((action, reply) :: trace) snapshot := by
    intro older lookup captured source
    obtain ⟨id, happened⟩ := recorded.saves index older snapshot lookup captured
    exact ⟨id.trans (by rw [source]), happened.tail step⟩
  cases Remote.callEffect recorded.pending.sound step with
  | still saves _ => exact earlier save (saves ▸ found) taken rfl
  | start newer uncaptured saves _ =>
    rw [saves] at found
    rcases update_eq_some found with ⟨_, same⟩ | ⟨_, before⟩
    · obtain rfl := Option.some.inj same
      cases uncaptured.symm.trans taken
    · exact earlier save before taken rfl
  | @capture own _ older newer lookup source captured saves calls =>
    rw [saves] at found
    rcases update_eq_some found with ⟨rfl, same⟩ | ⟨_, before⟩
    · obtain rfl := Option.some.inj same
      obtain rfl := Option.some.inj (captured.symm.trans taken)
      refine ⟨by rw [source]; rfl, .now recorded.run step ⟨index, older, rfl, lookup, ?_, rfl⟩⟩
      rw [calls]
      exact Function.update_self _ _ _
    · exact earlier save before taken rfl
  | proceed own older newer _ _ lookup source captured saves _ _ _ =>
    rw [saves] at found
    rcases update_eq_some found with ⟨rfl, same⟩ | ⟨_, before⟩
    · obtain rfl := Option.some.inj same
      exact earlier older lookup (captured.symm.trans taken) source.symm
    · exact earlier save before taken rfl
  | finish own saves _ =>
    rw [saves] at found
    rcases update_eq_some found with ⟨_, wrong⟩ | ⟨_, before⟩
    · cases wrong
    · exact earlier save before taken rfl

/-- What a call has done stays done, and the answer of its command tells whether it has written. -/
theorem calls_stay (recorded : Recorded store idOf encodes trace state)
    (step : (remoteMachine store idOf).step state action = some (reply, after)) {index : Nat}
    {phase : RemotePhase} {save : Save} (found : state.calls index = some phase)
    (saved : state.process.saves index = some save) :
    phase.Faithful store idOf encodes ((action, reply) :: trace) after index save.snapshot := by
  have now := recorded.calls index phase save found saved
  cases phase with
  | running program =>
    obtain ⟨snapshot, saved, taken, rest, done⟩ := now
    exact ⟨snapshot, saved, taken, rest, fun same => (done same).tail step⟩
  | finished =>
    obtain ⟨snapshot, taken, done⟩ := now
    exact ⟨snapshot, taken, done.tail step⟩
  | waiting number next =>
    obtain ⟨snapshot, flight, taken, sent, rows, rest, done⟩ := now
    obtain ⟨answer, still, same⟩ := (recorded.pending.sound.later_step step).flights number flight sent
    refine ⟨snapshot, _, taken, still, rows, rest, fun reported answered confirmed => ?_⟩
    by_cases unanswered : flight.answer = none
    swap
    · exact (done reported ((same unanswered).symm.trans answered) confirmed).tail step
    -- The command takes effect in this step.
    have executed : action = .execute number ∧ reported = (flight.command.execute state.rows).1 ∧
        after.rows = (flight.command.execute state.rows).2 := by
      have unchanged : after.flights number ≠ some flight := by
        intro wrong
        cases (unanswered.symm.trans (congrArg Flight.answer
          (Option.some.inj (wrong.symm.trans still)))).trans answered
      cases Remote.wireEffect step with
      | still flights _ _ => exact absurd (flights ▸ sent) unchanged
      | send other _ _ flights _ _ =>
        refine absurd ?_ unchanged
        rw [flights]
        refine (Function.update_of_ne ?_ _ _).trans sent
        rintro rfl
        cases (recorded.pending.sound.unsent _ le_rfl).symm.trans sent
      | @execute other sent' lookup _ =>
        by_cases different : number = other
        · subst different
          obtain rfl := Option.some.inj (sent.symm.trans lookup)
          have answer_eq := congrArg Flight.answer (Option.some.inj (eq_some_of_update_self still))
          exact ⟨rfl, Option.some.inj (answered.symm.trans answer_eq.symm), rfl⟩
        · exact absurd ((Function.update_of_ne different _ _).trans sent) unchanged
      | read _ _ _ _ flights _ _ => exact absurd (flights ▸ sent) unchanged
      | deliver flights _ _ => exact absurd (flights ▸ sent) unchanged
    obtain ⟨rfl, rfl, effect⟩ := executed
    have writes : flight.command.row.isSome = true := by
      have both := confirmed
      simp only [Command.confirms, Bool.and_eq_true] at both
      exact both.1
    obtain ⟨⟨id, row⟩, writes⟩ := Option.isSome_iff_exists.mp writes
    obtain ⟨rfl, session⟩ := rows id row writes
    refine .now recorded.run step ⟨number, next, flight, row, rfl, found, sent, writes, session, ?_⟩
    rw [effect]
    exact Command.execute_of_confirms writes (recorded.pending.sound.proper sent) confirmed
  | _ => exact trivial

/-- A call goes on faithfully. -/
theorem proceeds (recorded : Recorded store idOf encodes trace state)
    (faithful : ∀ origin snapshot now, (store.write origin snapshot now).Faithful encodes snapshot false)
    (step : (remoteMachine store idOf).step state action = some (reply, after)) {index : Nat}
    {save : Save} {phase next : RemotePhase} (found : state.calls index = some phase)
    (saved : state.process.saves index = some save)
    (proceeds : phase.Proceeds store state after save next) :
    next.Faithful store idOf encodes ((action, reply) :: trace) after index save.snapshot := by
  have now := recorded.calls index phase save found saved
  cases proceeds with
  | begin snapshot moment taken =>
    exact ⟨snapshot, false, taken, faithful save.origin snapshot moment, nofun⟩
  | send command next sent =>
    obtain ⟨snapshot, _, taken, ⟨rows, rest⟩, _⟩ := now
    exact ⟨snapshot, _, taken, sent, fun id row writes => (rows id row writes).imp_right And.left,
      rest, nofun⟩
  | receive flight answer sent answered =>
    obtain ⟨snapshot, other, taken, same, rows, rest, done⟩ := now
    obtain rfl := Option.some.inj (sent.symm.trans same)
    have possible := recorded.pending.answers _ flight answer sent answered
    exact ⟨snapshot, _, taken, rest answer possible, fun confirmed =>
      (done answer answered confirmed).tail step⟩
  | finish =>
    obtain ⟨snapshot, saved, taken, same, done⟩ := now
    exact ⟨snapshot, taken, (done same).tail step⟩
  | bare bare => exact bare.faithful

theorem calls_step (recorded : Recorded store idOf encodes trace state)
    (faithful : ∀ origin snapshot now, (store.write origin snapshot now).Faithful encodes snapshot false)
    (step : (remoteMachine store idOf).step state action = some (reply, after)) (index : Nat)
    (phase : RemotePhase) (save : Save) (found : after.calls index = some phase)
    (saved : after.process.saves index = some save) :
    phase.Faithful store idOf encodes ((action, reply) :: trace) after index save.snapshot := by
  have others : ∀ {own : Nat} {newer : Option Save} {next : Option RemotePhase}, index ≠ own →
      after.process.saves = Function.update state.process.saves own newer →
        after.calls = Function.update state.calls own next →
          phase.Faithful store idOf encodes ((action, reply) :: trace) after index save.snapshot := by
    intro own newer next different saves calls
    rw [calls] at found
    rw [saves] at saved
    exact recorded.calls_stay step ((Function.update_of_ne different _ _).symm.trans found)
      ((Function.update_of_ne different _ _).symm.trans saved)
  cases Remote.callEffect recorded.pending.sound step with
  | still saves calls => exact recorded.calls_stay step (calls ▸ found) (saves ▸ saved)
  | start newer _ saves calls =>
    by_cases own : index = state.process.nextSave
    · rw [calls, own] at found
      obtain rfl := Option.some.inj (eq_some_of_update_self found)
      exact trivial
    · exact others own saves calls
  | @capture key _ older newer _ _ _ saves calls =>
    by_cases own : index = key
    · rw [calls, own] at found
      obtain rfl := Option.some.inj (eq_some_of_update_self found)
      exact trivial
    · exact others own saves calls
  | proceed key older newer first next lookup _ captured saves before calls proceeds =>
    by_cases own : index = key
    · subst own
      rw [calls] at found
      rw [saves] at saved
      obtain rfl := Option.some.inj (eq_some_of_update_self found)
      obtain rfl := Option.some.inj (eq_some_of_update_self saved)
      rw [captured]
      exact recorded.proceeds faithful step before lookup proceeds
    · exact others own saves calls
  | finish key saves calls =>
    by_cases own : index = key
    · rw [calls, own] at found
      cases eq_some_of_update_self found
    · exact others own saves calls

theorem flights_step (recorded : Recorded store idOf encodes trace state)
    (step : (remoteMachine store idOf).step state action = some (reply, after)) (number : Nat)
    (flight : Flight) (id : Id) (row : Row) (found : after.flights number = some flight)
    (writes : flight.command.row = some (id, row)) : row.session.id = id ∧ encodes row ∧
      after.WasCaptured store idOf ((action, reply) :: trace) row.session := by
  have earlier : ∀ older, state.flights number = some older → older.command = flight.command →
      row.session.id = id ∧ encodes row ∧
        after.WasCaptured store idOf ((action, reply) :: trace) row.session := by
    intro older lookup command
    obtain ⟨own, encoded, captured⟩ :=
      recorded.flights number older id row lookup (command ▸ writes)
    exact ⟨own, encoded, captured.tail step⟩
  cases Remote.wireEffect step with
  | still flights _ _ => exact earlier flight (flights ▸ found) rfl
  | send sent unanswered source flights _ _ =>
    rw [flights] at found
    rcases update_eq_some found with ⟨_, new⟩ | ⟨_, before⟩
    · obtain rfl := Option.some.inj new
      rcases source with none | ⟨index, next, running⟩
      · cases none.symm.trans writes
      · obtain ⟨save, saved, _⟩ := recorded.pending.sound.calls index _ running
        obtain ⟨snapshot, _, taken, ⟨rows, _⟩, _⟩ := recorded.calls index _ save running saved
        obtain ⟨rfl, session, encoded⟩ := rows id row writes
        refine ⟨by rw [session], encoded, ?_⟩
        rw [session]
        exact (recorded.saves index save snapshot saved taken).2.tail step
    · exact earlier flight before rfl
  | @execute own sent lookup unanswered =>
    rcases update_eq_some found with ⟨rfl, new⟩ | ⟨_, before⟩
    · obtain rfl := Option.some.inj new
      exact earlier sent lookup rfl
    · exact earlier flight before rfl
  | read _ _ _ _ flights _ _ => exact earlier flight (flights ▸ found) rfl
  | deliver flights _ _ => exact earlier flight (flights ▸ found) rfl

theorem rows_step (recorded : Recorded store idOf encodes trace state)
    (step : (remoteMachine store idOf).step state action = some (reply, after)) (id : Id) (row : Row)
    (there : after.rows id = some row) : row.session.id = id ∧ encodes row ∧
      after.WasCaptured store idOf ((action, reply) :: trace) row.session := by
  have earlier : state.rows id = some row → row.session.id = id ∧ encodes row ∧
      after.WasCaptured store idOf ((action, reply) :: trace) row.session := fun before =>
    (recorded.rows id row before).imp_right fun both => ⟨both.1, both.2.tail step⟩
  cases Remote.wireEffect step with
  | still _ rows _ => exact earlier (rows id row there)
  | send _ _ _ _ rows _ => exact earlier (rows ▸ there)
  | execute lookup unanswered =>
    rcases Command.row_of_execute there with before | writes
    · exact earlier before
    · obtain ⟨own, encoded, captured⟩ := recorded.flights _ _ id row lookup writes
      exact ⟨own, encoded, captured.tail step⟩
  | read _ _ _ _ _ rows _ => exact earlier (rows ▸ there)
  | deliver _ rows _ => exact earlier (rows ▸ there)

theorem reads_step (recorded : Recorded store idOf encodes trace state)
    (step : (remoteMachine store idOf).step state action = some (reply, after)) (index : Nat)
    (cookie : Cookie) (wire : SessionSnapshot) (found : after.reads index = some (cookie, wire)) :
    idOf cookie = some wire.id ∧ after.WasCaptured store idOf ((action, reply) :: trace) wire := by
  have earlier : state.reads index = some (cookie, wire) →
      idOf cookie = some wire.id ∧ after.WasCaptured store idOf ((action, reply) :: trace) wire :=
    fun before =>
      (recorded.reads index cookie wire before).imp_right fun captured => captured.tail step
  cases Remote.wireEffect step with
  | still _ _ reads => exact earlier (reads ▸ found)
  | send _ _ _ _ _ reads => exact earlier (reads ▸ found)
  | execute _ _ => exact earlier found
  | read id row bound lookup _ _ reads =>
    rw [reads] at found
    rcases update_eq_some found with ⟨_, same⟩ | ⟨_, before⟩
    · cases same
      obtain ⟨own, _, captured⟩ := recorded.rows id row lookup
      exact ⟨bound.trans (by rw [own]), captured.tail step⟩
    · exact earlier before
  | deliver _ _ reads =>
    rw [reads] at found
    rcases update_eq_some found with ⟨_, wrong⟩ | ⟨_, before⟩
    · cases wrong
    · exact earlier before

/-- Every step keeps the record of what is written. -/
theorem step (recorded : Recorded store idOf encodes trace state)
    (faithful : ∀ origin snapshot now, (store.write origin snapshot now).Faithful encodes snapshot false)
    (step : (remoteMachine store idOf).step state action = some (reply, after)) :
    Recorded store idOf encodes ((action, reply) :: trace) after where
  pending := recorded.pending.step step
  run := recorded.run.tail step
  saves := recorded.saves_step step
  calls := recorded.calls_step faithful step
  flights := recorded.flights_step step
  rows := recorded.rows_step step
  reads := recorded.reads_step step

theorem of_run
    (faithful : ∀ origin snapshot now, (store.write origin snapshot now).Faithful encodes snapshot false)
    (run : (remoteMachine store idOf).Run .initial trace state) :
    Recorded store idOf encodes trace state := by
  induction run with
  | refl => exact recorded_initial store idOf encodes
  | tail _ step recorded => exact recorded.step faithful step

end Recorded

/-! ### The results -/

/-- A session with cells of its own: it has nothing to save, its id is the marker of its family, and
no other live session refers to its data or to its family. -/
structure Process.Isolates (process : Process) (loaded : Session) : Prop where
  clean : loaded.dataChanged process.heap = false
  marker : loaded.persistedId process.heap = some loaded.id
  alone : ∀ other, process.Live other → other = loaded ∨
    other.data ≠ loaded.data ∧ other.family ≠ loaded.family

/-- A load that accepts what it read makes an isolated session. -/
theorem Remote.isolates_delivered {idOf : Cookie → Option Id} {state : Remote} {wire : SessionSnapshot}
    {loaded : Session} {heap : Heap} {cookie : Cookie} {now : DateTime}
    (authority : Authority state.process)
    (valid : (Session.deserialize state.process.heap wire).1.validateLoaded idOf
      (Session.deserialize state.process.heap wire).2 false cookie now = .ok (some (loaded, heap))) :
    ((state.process.see loaded.id).addHandle loaded heap).Isolates loaded := by
  have fetches := (Process.fetches_deserialize state.process valid).1
  refine ⟨?_, congrArg Family.persistedId fetches.marker, fun other live => ?_⟩
  · obtain ⟨_, data, cells, rfl, rfl, ⟨wrong, _⟩ | ⟨_, rfl, rfl⟩⟩ := Session.validateLoaded_ok valid
    · cases wrong
    · exact (congrArg SessionData.changed (Heap.setCell_self _ _ _)).trans
        (SessionData.changed_adopt _)
  · have earlier : state.process.Live other → other.data ≠ loaded.data ∧
        other.family ≠ loaded.family := by
      intro before
      obtain ⟨family, data⟩ := authority.allocated other before
      exact ⟨(data.trans_le fetches.fresh_data).ne, (family.trans_le fetches.nextFamily).ne⟩
    rcases live with found | found | found
    · rcases update_eq_some found with ⟨_, same⟩ | ⟨_, before⟩
      · exact Or.inl (Option.some.inj same).symm
      · exact Or.inr (earlier (.handle before))
    · exact Or.inr (earlier (.save found))
    · exact Or.inr (earlier (.deletion found))

/-- What the backend of a native store holds, and what a load makes of it, in every run. A row is
under its own id, in the encoding of the store, and holds exactly what some save captured. A load
that found a row never fails: unless the session has expired it hands out exactly what some save
captured, in an isolated session. -/
theorem remote_records_are_exact_snapshots (native : NativeStore) {idOf : Cookie → Option Id}
    {state : Remote} {trace : List (RemoteAction × Reply)}
    (run : (remoteMachine native.remote idOf).Run .initial trace state) :
    (∀ id row, state.rows id = some row → row.session.id = id ∧ native.Encodes row ∧
      state.WasCaptured native.remote idOf trace row.session) ∧
    ∀ index now reply after,
      (remoteMachine native.remote idOf).step state (.deliver index now) = some (reply, after) →
        ∃ cookie wire, state.reads index = some (cookie, wire) ∧ idOf cookie = some wire.id ∧
          state.WasCaptured native.remote idOf trace wire ∧
            (wire.isExpired now = true ∧ reply = .missing ∨
              wire.isExpired now = false ∧ reply = .handle state.process.nextHandle ∧
                ∃ loaded, after.process.handles state.process.nextHandle = some loaded ∧
                  loaded.wire after.process.heap = wire ∧ after.process.Isolates loaded) := by
  have recorded := Recorded.of_run native.faithful run
  refine ⟨recorded.rows, fun index now reply after step => ?_⟩
  obtain ⟨cookie, wire, validated, read, valid, outcome⟩ := Remote.deliver_cases step
  obtain ⟨bound, captured⟩ := recorded.reads index cookie wire read
  refine ⟨cookie, wire, read, bound, captured, ?_⟩
  cases expired : wire.isExpired now with
  | true =>
    obtain rfl := (Session.validateLoaded_expired bound expired).symm.trans valid
    rcases outcome with ⟨⟨_, wrong, _⟩ | ⟨_, missing⟩, _⟩ | ⟨_, _, wrong, _⟩
    · cases wrong
    · exact Or.inl ⟨rfl, missing⟩
    · cases wrong
  | false =>
    obtain ⟨loaded, heap, accepted, exact_⟩ := Session.validateLoaded_valid bound expired
    obtain rfl := accepted.symm.trans valid
    rcases outcome with ⟨⟨_, wrong, _⟩ | ⟨wrong, _⟩, _⟩ | ⟨_, _, same, replied, rfl⟩
    · cases wrong
    · cases wrong
    · cases same
      refine Or.inr ⟨rfl, replied, loaded, Function.update_self _ _ _, exact_, ?_⟩
      exact Remote.isolates_delivered recorded.pending.sound.dispatching.authority accepted

/-- A save of Redis wrote a row with a value, which is what a load then hands out. -/
theorem remote_records_are_exact_snapshots_of_saved : ∃ (state : Remote)
    (trace : List (RemoteAction × Reply)) (row : Row),
    state.rows "first" = some row ∧ row.session.data.lookup "key" = some "value" ∧
      state.WasCaptured (NativeStore.remote .redis) some trace row.session ∧
        ∃ after, (remoteMachine (NativeStore.remote .redis) some).step state (.deliver 0 0) =
          some (.handle 1, after) := by
  obtain ⟨state, trace, run, ⟨row, there, value⟩, after, loaded⟩ : ∃ (state : Remote)
      (trace : List (RemoteAction × Reply)),
      (remoteMachine (NativeStore.remote .redis) some).Run .initial trace state ∧
      (∃ row, state.rows "first" = some row ∧ row.session.data.lookup "key" = some "value") ∧
        ∃ after, (remoteMachine (NativeStore.remote .redis) some).step state (.deliver 0 0) =
          some (.handle 1, after) :=
    ⟨_, _, Machine.run_replay _ _
      ([.handle (.new "first"), .handle (.insertRaw 0 "key" "value")] ++
        RemoteAction.store 0 0 0 0 ++ [.read "first" 0]) (by decide), ⟨_, rfl, by decide⟩, _, rfl⟩
  exact ⟨state, trace, row, there, value,
    ((remote_records_are_exact_snapshots .redis run).1 "first" row there).2.2, after, loaded⟩

/-- A save that is acknowledged was written: its call captured its source, and then a command that
the call itself sent and waited for left exactly that snapshot under its id. -/
theorem acknowledged_saves_were_written (native : NativeStore) {idOf : Cookie → Option Id}
    {state after : Remote} {trace : List (RemoteAction × Reply)} {index : Nat} {reply : Reply}
    (run : (remoteMachine native.remote idOf).Run .initial trace state)
    (finished : state.calls index = some .finished)
    (step : (remoteMachine native.remote idOf).step state (.complete index) = some (reply, after)) :
    ∃ save snapshot, state.process.saves index = some save ∧ save.snapshot = some snapshot ∧
      snapshot.id = save.source.id ∧ reply = .cookie save.source.cookieValue ∧
        state.WasCaptured native.remote idOf trace snapshot ∧
          state.WasWritten native.remote idOf trace index snapshot := by
  have recorded := Recorded.of_run native.faithful run
  rcases Remote.complete_cases step with ⟨cookie, process, _, completed, rfl, rfl⟩ | ⟨wrong, _, _⟩
  swap
  · cases finished.symm.trans wrong
  obtain ⟨middle, acknowledged, rfl⟩ := Process.complete_cases completed
  obtain ⟨save, revision, saved, _, rfl, rfl⟩ := Process.acknowledge_cases acknowledged
  obtain ⟨snapshot, taken, written⟩ := recorded.calls index _ save finished saved
  obtain ⟨own, captured⟩ := recorded.saves index save snapshot saved taken
  exact ⟨save, snapshot, saved, taken, own, rfl, captured, written⟩

/-- A save of MongoDB that rotates an id, in two commands, was written under the new one. -/
theorem acknowledged_saves_were_written_of_rotation : ∃ (state : Remote)
    (trace : List (RemoteAction × Reply)) (save : Save) (snapshot : SessionSnapshot),
      state.process.saves 1 = some save ∧ save.origin = some "first" ∧ snapshot.id = "second" ∧
        state.WasWritten (NativeStore.remote .mongoDb) some trace 1 snapshot := by
  obtain ⟨state, trace, run, finished, ⟨save, saved, origin, source⟩, reply, after, step⟩ :
      ∃ (state : Remote) (trace : List (RemoteAction × Reply)),
        (remoteMachine (NativeStore.remote .mongoDb) some).Run .initial trace state ∧
        state.calls 1 = some .finished ∧
        (∃ save, state.process.saves 1 = some save ∧ save.origin = some "first" ∧
          save.source.id = "second") ∧
        ∃ reply after, (remoteMachine (NativeStore.remote .mongoDb) some).step state (.complete 1) =
          some (reply, after) :=
    ⟨_, _, Machine.run_replay _ _
      ([.handle (.new "first"), .handle (.clone 0)] ++ RemoteAction.store 0 0 0 0 ++
        [.handle (.regenerate 1 "second"), .storeSession 1, .capture 1, .beginWrite 1 0,
          .send 1, .execute 1, .receive 1, .send 1, .execute 2, .receive 1, .finish 1])
      (by decide), rfl, ⟨_, rfl, by decide, by decide⟩, _, _, rfl⟩
  obtain ⟨other, snapshot, same, _, own, _, _, written⟩ :=
    acknowledged_saves_were_written .mongoDb run finished step
  obtain rfl := Option.some.inj (saved.symm.trans same)
  exact ⟨state, trace, save, snapshot, saved, origin, own.trans source, written⟩

end Saysion
