/-
This file proves what it means that a session of a remote store has nothing to
save. Every step of the process is one operation on the data cells, so the
accounts of `Saysion/Accounts.lean` are kept over every run; and a call of a
native store that completes its save has seen its own command write what the save
had captured. So a cell that reports no change holds what it was handed out with,
what a reset declared unchanged, or what the backend was given.
-/

import Saysion.Accounts
import Saysion.RemoteRecords

namespace Saysion

variable {remote : RemoteStore} {idOf : Cookie → Option Id} {state after : Remote} {reply : Reply}
  {action : RemoteAction}

/-! ### The operations of the steps -/

/-- The application resets the change tracking of a handle with this cell. -/
def RemoteAction.Resets (state : Remote) (action : RemoteAction) (data : Ref) : Prop :=
  ∃ index session, action = .handle (.resetDataChanged index) ∧
    state.process.handles index = some session ∧ session.data = data

/-- A call completes its save. The end of a revoked write completes nothing. -/
def RemoteAction.Completes (state : Remote) (action : RemoteAction) (index : Nat) : Prop :=
  action = .complete index ∧ state.calls index = some .finished

/-- The cell of a session that a load read: a clean one with the values of the record. -/
theorem Session.cells_validated {heap after : Heap} {wire : SessionSnapshot} {loaded : Session}
    {cookie : Cookie} {now : DateTime}
    (valid : (Session.deserialize heap wire).1.validateLoaded idOf (Session.deserialize heap wire).2
      false cookie now = .ok (some (loaded, after))) :
    after.cells loaded.data = .ofValues wire.data := by
  obtain ⟨_, data, cells, rfl, rfl, ⟨wrong, _⟩ | ⟨_, rfl, rfl⟩⟩ := Session.validateLoaded_ok valid
  · cases wrong
  · have adopted : (((Session.deserialize heap wire).2.setCell heap.nextCell
        (SessionData.adopt ((Session.deserialize heap wire).2.cells heap.nextCell))).cells
          heap.nextCell) = _ := Heap.setCell_self _ _ _
    refine adopted.trans ?_
    exact congrArg SessionData.adopt (Heap.allocCell_self (heap.allocFamily {}) _)

/-- Every step of the process is one operation on the data cells. -/
theorem RemoteSound.accounts (sound : RemoteSound idOf state) (snapshots : state.process.Snapshots)
    (step : (remoteMachine remote idOf).step state action = some (reply, after)) :
    state.process.Accounts (action.Resets state) (action.Completes state) reply after.process := by
  have same : state.process.Accounts (action.Resets state) (action.Completes state) reply
      state.process := Process.accounts_of_still (.refl _) (fun _ _ => rfl) rfl
  have authority := sound.dispatching.authority
  cases action with
  | handle action =>
    obtain ⟨process, handled, rfl⟩ := Remote.handle_cases step
    refine Process.accounts_handleStep handled fun key session resets found => ?_
    exact ⟨key, session, by rw [resets], found, rfl⟩
  | read cookie now =>
    rcases Remote.read_cases step with ⟨_, _, rfl⟩ | ⟨id, _, ⟨_, _, rfl⟩ | ⟨row, _, _, rfl⟩⟩ <;>
      exact same
  | deliver index now =>
    obtain ⟨cookie, wire, validated, _, valid, ⟨_, rfl⟩ | ⟨loaded, heap, rfl, rfl, rfl⟩⟩ :=
      Remote.deliver_cases step
    · exact Process.accounts_conceal (state.process.hidden_deserialize wire)
    · exact Process.accounts_fetch (Process.fetches_deserialize _ valid).1
        (Session.cells_validated valid)
  | storeSession index =>
    obtain ⟨process, attempt, ⟨_, rfl, rfl⟩ | ⟨rfl, rfl⟩⟩ := Remote.storeSession_cases step <;>
      exact Process.accounts_attempt (sound.dispatching.locking.unusedSave _ le_rfl).1 attempt
  | capture index =>
    obtain ⟨save, _, _, _, ⟨_, _, rfl⟩ | ⟨process, ⟨_, captured⟩ | ⟨_, _, captured⟩, rfl⟩⟩ :=
      Remote.capture_cases step
    · exact same
    · exact Process.accounts_captureImmutable authority captured
    · exact Process.accounts_capturePersistence authority captured
  | beginWrite index now =>
    obtain ⟨_, _, _, process, _, _, _, acquired, _, ⟨_, _, rfl⟩ | ⟨_, rfl⟩⟩ :=
      Remote.beginWrite_cases step <;> exact Process.accounts_acquire acquired
  | send index =>
    obtain ⟨save, _, _, ⟨command, next, _, ⟨_, rfl⟩ | ⟨_, process, dispatched, rfl⟩⟩ | ⟨_, _, rfl⟩⟩ :=
      Remote.send_cases step
    · exact same
    · exact Process.accounts_dispatch dispatched
    · exact same
  | execute number =>
    obtain ⟨flight, _, _, rfl⟩ := Remote.execute_cases step
    exact same
  | receive index =>
    obtain ⟨_, _, _, _, _, _, ⟨_, _, rfl⟩ | ⟨_, process, _, confirmed, rfl⟩⟩ :=
      Remote.receive_cases step
    · exact same
    · exact Process.accounts_confirmRemoved confirmed
  | check index =>
    obtain ⟨_, _, _, _, _, _, rfl⟩ := Remote.check_cases step
    exact same
  | finish index =>
    obtain ⟨_, ⟨_, _, finished, closed, ⟨_, process, _, required, rfl⟩ | ⟨_, rfl⟩⟩ |
      ⟨_, ⟨_, process, confirmed, rfl⟩ | ⟨_, _, process, closed, ⟨_, _, rfl⟩ | ⟨_, rfl⟩⟩⟩⟩ :=
      Remote.finish_cases step
    · obtain ⟨_, _, _, rfl⟩ := Process.finish_cases closed
      obtain ⟨_, _, rfl⟩ := Process.requireCleanup_cases required
      exact Process.accounts_of_still ((state.process.follows_setGuard index _).trans
        (Process.follows_setGuard _ index _)) (fun _ _ => rfl) rfl
    · exact Process.accounts_finish closed
    · exact Process.accounts_confirmRemoved confirmed
    · exact Process.accounts_finish closed
    · exact Process.accounts_finish closed
  | complete index =>
    rcases Remote.complete_cases step with ⟨_, _, finished, completed, _, rfl⟩ | ⟨_, _, rfl⟩
    · exact Process.accounts_complete snapshots ⟨rfl, finished⟩ completed
    · exact Process.accounts_abandon snapshots
  | fail index =>
    obtain ⟨_, _, _, rfl⟩ := Remote.fail_cases step
    exact Process.accounts_abandon snapshots
  | lose index =>
    obtain ⟨_, _, _, _, rfl⟩ := Remote.lose_cases step
    exact Process.accounts_abandon snapshots
  | cancelStore index =>
    obtain ⟨_, _, _, _, rfl⟩ := Remote.cancelStore_cases step
    exact Process.accounts_abandon snapshots
  | destroySession index =>
    obtain ⟨process, requested, rfl⟩ := Remote.destroySession_cases step
    exact Process.accounts_requestDelete requested
  | grantDelete index =>
    obtain ⟨process, granted, rfl⟩ := Remote.grantDelete_cases step
    exact Process.accounts_grantDelete granted
  | erase index =>
    obtain ⟨_, _, _, _, _, _, rfl⟩ := Remote.erase_cases step
    exact same
  | confirmErased index =>
    obtain ⟨_, _, _, _, _, _, _, rfl⟩ := Remote.confirmErased_cases step
    exact Process.accounts_dropDelete
  | cancelDestroy index =>
    obtain ⟨_, _, _, rfl⟩ := Remote.cancelDestroy_cases step
    exact Process.accounts_dropDelete
  | clearStore =>
    cases step
    exact same
  | unlink ids =>
    cases step
    exact same
  | expire id =>
    cases step
    exact same

/-! ### The result -/

theorem Remote.snapshots_of_reachable (reachable : (remoteMachine remote idOf).Reachable state) :
    state.process.Snapshots := by
  obtain ⟨start, trace, rfl, run⟩ := reachable
  induction run with
  | refl => rintro _ _ wrong; cases wrong
  | tail earlier step snapshots =>
    exact ((RemoteSound.reachable ⟨_, _, rfl, earlier⟩).advances step).path.snapshots snapshots

theorem remoteMachine_books (remote : RemoteStore) (idOf : Cookie → Option Id) :
    (remoteMachine remote idOf).Books Remote.process RemoteAction.Resets RemoteAction.Completes where
  initial state initially := by
    obtain rfl : state = Remote.initial := initially
    rfl
  accounts reachable step :=
    (RemoteSound.reachable reachable).accounts (Remote.snapshots_of_reachable reachable) step

section Result

variable {trace : List (RemoteAction × Reply)}

/-- A session was handed out, by `new` or by a load, with this cell and these values. -/
abbrev Remote.Began (remote : RemoteStore) (idOf : Cookie → Option Id)
    (trace : List (RemoteAction × Reply)) (data : Ref) (values : Values) (state : Remote) : Prop :=
  (remoteMachine remote idOf).Happened (Machine.Begins Remote.process data values) .initial trace state

/-- The application reset the change tracking of this cell while it held these values. -/
abbrev Remote.WasReset (remote : RemoteStore) (idOf : Cookie → Option Id)
    (trace : List (RemoteAction × Reply)) (data : Ref) (values : Values) (state : Remote) : Prop :=
  (remoteMachine remote idOf).Happened
    (Machine.Declares Remote.process RemoteAction.Resets data values) .initial trace state

/-- A call completed a save that had captured these values of this cell, and a command of its own had
written what the save captured. -/
def Remote.WasSaved (remote : RemoteStore) (idOf : Cookie → Option Id)
    (trace : List (RemoteAction × Reply)) (data : Ref) (values : Values) (state : Remote) : Prop :=
  ∃ index token snapshot earlier before reply after later,
    trace = later ++ (.complete index, reply) :: earlier ∧
      (remoteMachine remote idOf).Run .initial earlier before ∧
        (remoteMachine remote idOf).step before (.complete index) = some (reply, after) ∧
          (remoteMachine remote idOf).Run after later state ∧
            before.process.taken index = some (token, snapshot) ∧ token.data = data ∧
              snapshot.data = values ∧ before.WasWritten remote idOf earlier index snapshot

/-- What a completed save had captured was written by its call. -/
theorem Remote.wasSaved_of_confirms {native : NativeStore} {data : Ref} {values : Values}
    (confirmed : (remoteMachine native.remote idOf).Happened
      (Machine.Confirms Remote.process RemoteAction.Completes data values) .initial trace state) :
    state.WasSaved native.remote idOf trace data values := by
  obtain ⟨earlier, before, action, reply, after, later, split, run, step,
    ⟨index, token, snapshot, ⟨rfl, finished⟩, taken, own, exact_⟩, rest⟩ := confirmed
  obtain ⟨save, found, _, captured⟩ := Process.save_of_taken taken
  obtain ⟨other, same, written⟩ :=
    (Recorded.of_run native.faithful run).calls index _ save finished found
  obtain rfl := Option.some.inj (captured.symm.trans same)
  exact ⟨index, token, snapshot, earlier, before, reply, after, later, split, run, step, rest, taken,
    own, exact_, written⟩

/-- A session of a native store that reports nothing to save has nothing to save. In every run of
fewer than 2^64 steps, a handle whose `data_changed` is false holds the values it was handed out with
in that run, or values that the application declared unchanged by a reset in it, or values of its
cell that a call captured, wrote to the backend and completed in it, whatever was edited, lost,
cancelled or saved at the same time. And the active saves of its cell are the saves in progress that
captured it. -/
theorem remote_clean_sessions_were_written {native : NativeStore}
    (run : (remoteMachine native.remote idOf).Run .initial trace state) {index : Nat}
    {session : Session} (held : state.process.handles index = some session) :
    (trace.length < 2 ^ 64 → session.dataChanged state.process.heap = false →
      state.Began native.remote idOf trace session.data
          (session.sessionData state.process.heap).values ∨
        state.WasReset native.remote idOf trace session.data
            (session.sessionData state.process.heap).values ∨
          state.WasSaved native.remote idOf trace session.data
            (session.sessionData state.process.heap).values) ∧
    ∃ indices : List Nat, indices.Nodup ∧
      (∀ index, index ∈ indices ↔ ∃ save token, state.process.saves index = some save ∧
        save.revision = some token ∧ token.data = session.data) ∧
      (session.sessionData state.process.heap).activeSaves = indices.length := by
  have keeps := (remoteMachine_books native.remote idOf).run rfl run
  have snapshots := Remote.snapshots_of_reachable ⟨_, _, rfl, run⟩
  refine ⟨fun few clean => ?_, keeps.active snapshots (.handle held)⟩
  have unchanged : (session.sessionData state.process.heap).changed = false :=
    (Bool.or_eq_false_iff.mp clean).2
  rcases keeps.clean few (.handle held) unchanged with began | reset | confirmed
  · exact Or.inl began
  · exact Or.inr (Or.inl reset)
  · exact Or.inr (Or.inr (Remote.wasSaved_of_confirms confirmed))

end Result

/-- A clone that was edited, saved in vain by a call whose command was lost, and saved again. -/
theorem remote_clean_sessions_were_written_of_clone : ∃ (state : Remote)
    (trace : List (RemoteAction × Reply)) (session : Session),
    state.process.handles 2 = some session ∧
      (session.sessionData state.process.heap).values.lookup "key" = some "value" ∧
        (state.Began (NativeStore.remote .sqlxSqlite) some trace session.data
            (session.sessionData state.process.heap).values ∨
          state.WasReset (NativeStore.remote .sqlxSqlite) some trace session.data
              (session.sessionData state.process.heap).values ∨
            state.WasSaved (NativeStore.remote .sqlxSqlite) some trace session.data
              (session.sessionData state.process.heap).values) := by
  obtain ⟨state, trace, session, run, few, held, value, clean⟩ : ∃ (state : Remote)
      (trace : List (RemoteAction × Reply)) (session : Session),
      (remoteMachine (NativeStore.remote .sqlxSqlite) some).Run .initial trace state ∧
        trace.length < 2 ^ 64 ∧ state.process.handles 2 = some session ∧
          (session.sessionData state.process.heap).values.lookup "key" = some "value" ∧
            session.dataChanged state.process.heap = false :=
    ⟨_, _, _, Machine.run_replay _ _ ([.handle (.new "first"), .handle (.clone 0),
      .handle (.clone 0)] ++ RemoteAction.store 0 0 0 0 ++ [.handle (.clone 1),
      .handle (.insertRaw 2 "key" "value"), .storeSession 1, .capture 1, .beginWrite 1 0, .send 1,
      .lose 1] ++ RemoteAction.store 3 2 2 0) (by decide), by decide, rfl, by decide, by decide⟩
  exact ⟨state, trace, session, held, value,
    (remote_clean_sessions_were_written run held).1 few clean⟩

end Saysion
