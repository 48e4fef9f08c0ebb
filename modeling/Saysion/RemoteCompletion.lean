/-
This file proves that no call of a process with a remote store waits for ever,
provided every command that was sent gets an answer. The store's program may be
any that follows the contract: it sends finitely many commands, whatever the
answers are, so its steps are counted along the longest of its branches.

The calls before their guard come first in the rank, since how long a program is
depends on the time at which it begins.
-/

import Mathlib.Data.Prod.Lex
import Saysion.Completion
import Saysion.Releasing
import Saysion.RemoteDeletion

namespace Saysion

/-- The steps that carry a call on, or answer a command, rather than begin, cancel or edit
something. -/
def RemoteAction.Own : RemoteAction → Prop
  | .deliver _ _ | .capture _ | .beginWrite _ _ | .send _ | .execute _ | .receive _ | .check _
  | .finish _ | .complete _ | .fail _ | .grantDelete _ | .erase _ | .confirmErased _ => True
  | _ => False

/-! ### What is left to do -/

/-- The longest way that a program may go on with an answer. -/
def longest (steps : Answer → Nat) : Nat :=
  max (max (steps (.affected 0)) (steps (.affected 1))) (max (steps .duplicate) (steps .cleared))

theorem le_longest {command : Command} {answer : Answer} (possible : command.Answers answer)
    (steps : Answer → Nat) : steps answer ≤ longest steps := by
  have four : answer = .affected 0 ∨ answer = .affected 1 ∨ answer = .duplicate ∨ answer = .cleared := by
    cases command <;> simp only [Command.Answers] at possible <;> tauto
  unfold longest
  rcases four with rfl | rfl | rfl | rfl <;> omega

/-- The steps that a program has left at most, to the end of its call. -/
def Program.steps : Program → Nat
  | .send _ next => longest (fun answer => (next answer).steps) + 3
  | .written => 5
  | .revoked => 2
  | .failed _ => 1

/-- The steps that a call has left to its guard. -/
def RemotePhase.early : RemotePhase → Nat
  | .attempted => 2
  | .captured => 1
  | _ => 0

/-- The steps that a call under its guard has left at most. -/
def RemotePhase.late : RemotePhase → Nat
  | .attempted | .captured => 0
  | .running program => program.steps
  | .waiting _ next => longest (fun answer => (next answer).steps) + 1
  | .unremoved _ => 4
  | .removing _ _ => 2
  | .finished | .expired | .failed _ => 1

/-- Whether a call may hold the lifecycle mutex. -/
def RemotePhase.Guarded : RemotePhase → Prop
  | .attempted | .captured => False
  | _ => True

/-- A command that has no answer yet. -/
def Flight.open (flight : Flight) : Nat := if flight.answer = none then 1 else 0

namespace Remote

/-- The steps that a deletion has left at most. -/
def erasing (state : Remote) (index : Nat) : Nat :=
  match state.process.deletions index with
  | none => 0
  | some deletion =>
    if deletion.target = none then 4 else if state.erasures index = none then 3 else 1

/-- What is left to do before the guards, and then after them. -/
def remaining (state : Remote) : ℕ ×ₗ ℕ :=
  toLex (burden RemotePhase.early state.calls state.process.nextSave,
    burden RemotePhase.late state.calls state.process.nextSave +
      burden Flight.open state.flights state.nextFlight +
        total state.erasing state.process.nextDeletion +
          burden (fun _ => 1) state.reads state.nextRead)

/-- No call is in progress, every command is answered, and no mutex is taken. -/
structure Idle (state : Remote) : Prop where
  calls : ∀ index, state.calls index = none
  saves : ∀ index, state.process.saves index = none
  guards : ∀ index, state.process.guards index = none
  deletions : ∀ index, state.process.deletions index = none
  erasures : ∀ index, state.erasures index = none
  reads : ∀ index, state.reads index = none
  answered : ∀ number flight, state.flights number = some flight → flight.answer ≠ none
  free : ∀ session, state.process.Live session → ¬ state.process.Taken session.family

/-- A save and a guard belong to a call in progress, whose phase tells about them. -/
structure Tabled (state : Remote) : Prop where
  saves : ∀ index save, state.process.saves index = some save →
    ∃ phase, state.calls index = some phase ∧ (phase = .attempted → save.revision = none) ∧
      (save.revision = none → phase = .attempted ∨ ∃ error, phase = .failed error)
  guards : ∀ index guard, state.process.guards index = some guard →
    ∃ phase, state.calls index = some phase ∧ phase.Guarded
  removing : ∀ index number error, state.calls index = some (.removing number error) →
    ∃ flight, state.flights number = some flight
  reads : ∀ index, state.nextRead ≤ index → state.reads index = none

theorem tabled_initial : Remote.initial.Tabled where
  saves := by rintro _ _ found; cases found
  guards := by rintro _ _ found; cases found
  removing := by rintro _ _ _ found; cases found
  reads _ _ := rfl

namespace Tabled

variable {store : RemoteStore} {idOf : Cookie → Option Id} {state after : Remote} {reply : Reply}
  {index : Nat}

/-! ### The tables -/

/-- A step that concerns no `store_session` call. -/
theorem still (tabled : state.Tabled) (saves : after.process.saves = state.process.saves)
    (guards : after.process.guards = state.process.guards) (calls : after.calls = state.calls)
    (kept : ∀ number flight, state.flights number = some flight →
      ∃ answer, after.flights number = some { flight with answer })
    (reads : ∀ index, after.nextRead ≤ index → after.reads index = none) : after.Tabled where
  saves index save found := by
    rw [calls]
    exact tabled.saves index save (saves ▸ found)
  guards index guard found := by
    rw [calls]
    exact tabled.guards index guard (guards ▸ found)
  removing index number error found := by
    obtain ⟨flight, sent⟩ := tabled.removing index number error (calls ▸ found)
    obtain ⟨answer, still⟩ := kept number flight sent
    exact ⟨_, still⟩
  reads := reads

/-- A step of one `store_session` call. -/
theorem mine (tabled : state.Tabled) {phase : Option RemotePhase}
    (calls : after.calls = Function.update state.calls index phase)
    (others : ∀ key ≠ index, after.process.saves key = state.process.saves key ∧
      after.process.guards key = state.process.guards key)
    (save : ∀ save, after.process.saves index = some save → ∃ next, phase = some next ∧
      (next = .attempted → save.revision = none) ∧
        (save.revision = none → next = .attempted ∨ ∃ error, next = .failed error))
    (guard : ∀ guard, after.process.guards index = some guard → ∃ next, phase = some next ∧ next.Guarded)
    (kept : ∀ number flight, state.flights number = some flight →
      ∃ answer, after.flights number = some { flight with answer })
    (removing : ∀ number error, phase = some (.removing number error) →
      ∃ flight, after.flights number = some flight)
    (reads : after.reads = state.reads) (nextRead : after.nextRead = state.nextRead) :
    after.Tabled where
  saves key found lookup := by
    rw [calls]
    by_cases same : key = index
    · subst same
      rw [Function.update_self]
      exact save found lookup
    · rw [Function.update_of_ne same]
      exact tabled.saves key found ((others key same).1 ▸ lookup)
  guards key found lookup := by
    rw [calls]
    by_cases same : key = index
    · subst same
      rw [Function.update_self]
      exact guard found lookup
    · rw [Function.update_of_ne same]
      exact tabled.guards key found ((others key same).2 ▸ lookup)
  removing key number error found := by
    rw [calls] at found
    rcases update_eq_some found with ⟨rfl, same⟩ | ⟨_, earlier⟩
    · exact removing number error same
    · obtain ⟨flight, sent⟩ := tabled.removing key number error earlier
      obtain ⟨answer, still⟩ := kept number flight sent
      exact ⟨_, still⟩
  reads key old := by
    rw [reads]
    exact tabled.reads key (nextRead ▸ old)

/-- A step of a call under its guard, which keeps its revision. -/
theorem proceed (tabled : state.Tabled) {phase newer : RemotePhase}
    (found : state.calls index = some phase) (begun : phase ≠ .attempted)
    (live : ∀ error, phase ≠ .failed error) (guarded : newer.Guarded)
    (calls : after.calls = Function.update state.calls index (some newer))
    (saves : ∀ save, after.process.saves index = some save →
      ∃ older, state.process.saves index = some older ∧ older.revision = save.revision)
    (others : ∀ key ≠ index, after.process.saves key = state.process.saves key ∧
      after.process.guards key = state.process.guards key)
    (kept : ∀ number flight, state.flights number = some flight →
      ∃ answer, after.flights number = some { flight with answer })
    (removing : ∀ number error, newer = .removing number error →
      ∃ flight, after.flights number = some flight)
    (reads : after.reads = state.reads) (nextRead : after.nextRead = state.nextRead) :
    after.Tabled := by
  refine tabled.mine calls others (fun save lookup => ⟨newer, rfl, ?_, fun uncaptured => ?_⟩)
    (fun guard lookup => ⟨newer, rfl, guarded⟩) kept
    (fun number error same => removing number error (Option.some.inj same)) reads nextRead
  · rintro rfl
    exact absurd guarded id
  · obtain ⟨older, earlier, same⟩ := saves save lookup
    obtain ⟨now, there, _, captured⟩ := tabled.saves index older earlier
    obtain rfl := Option.some.inj (found.symm.trans there)
    rcases captured (same.trans uncaptured) with attempted | ⟨error, failed⟩
    · exact absurd attempted begun
    · exact absurd failed (live error)

/-- A call ends, and everything it held is dropped. -/
theorem abandon (tabled : state.Tabled) (index : Nat) :
    ({ state.setCall index none with process := state.process.abandon index } : Remote).Tabled := by
  obtain ⟨heap, dropped⟩ := state.process.abandon_eq index
  refine tabled.mine rfl (fun key different => ?_) (fun save lookup => ?_) (fun guard lookup => ?_)
    (fun number flight sent => ⟨flight.answer, sent⟩) nofun rfl rfl
  · dsimp only
    rw [dropped]
    exact ⟨Function.update_of_ne different _ _, Function.update_of_ne different _ _⟩
  · dsimp only at lookup
    rw [dropped] at lookup
    cases eq_some_of_update_self lookup
  · dsimp only at lookup
    rw [dropped] at lookup
    cases eq_some_of_update_self lookup

theorem storeSession (sound : RemoteSound idOf state) (tabled : state.Tabled)
    (step : state.storeSession index = some (reply, after)) : after.Tabled := by
  obtain ⟨process, attempt, outcome⟩ := storeSession_cases step
  obtain ⟨session, _, cases⟩ := Process.attempt_cases attempt
  rcases outcome with ⟨error, rfl, rfl⟩ | ⟨rfl, rfl⟩
  · rcases cases with ⟨_, _, _, rfl⟩ | ⟨_, _, _, wrong, _⟩
    · exact tabled.still rfl rfl rfl (fun _ flight sent => ⟨flight.answer, sent⟩) tabled.reads
    · cases wrong
  · rcases cases with ⟨_, _, wrong, _⟩ | ⟨origin, heap, _, _, rfl⟩
    · cases wrong
    have unused := sound.dispatching.locking.unusedSave _ (le_refl state.process.nextSave)
    refine tabled.mine rfl (fun key different => ?_) (fun save lookup => ?_) (fun guard lookup => ?_)
      (fun _ flight sent => ⟨flight.answer, sent⟩) nofun rfl rfl
    · exact ⟨Function.update_of_ne different _ _, rfl⟩
    · obtain rfl := Option.some.inj (eq_some_of_update_self lookup)
      exact ⟨_, rfl, fun _ => rfl, fun _ => Or.inl rfl⟩
    · cases unused.2.symm.trans lookup

/-- A call captures its session. -/
theorem captured (tabled : state.Tabled) {process : Process} {newer : Save}
    (attempted : state.calls index = some .attempted)
    (taken : newer.revision ≠ none)
    (saves : process.saves = Function.update state.process.saves index (some newer))
    (guards : process.guards = state.process.guards) :
    ({ state.setCall index (some .captured) with process } : Remote).Tabled := by
  refine tabled.mine rfl (fun key different => ?_) (fun save lookup => ?_) (fun guard lookup => ?_)
    (fun _ flight sent => ⟨flight.answer, sent⟩) nofun rfl rfl
  · dsimp only
    rw [saves, guards]
    exact ⟨Function.update_of_ne different _ _, rfl⟩
  · dsimp only at lookup
    rw [saves] at lookup
    obtain rfl := Option.some.inj (eq_some_of_update_self lookup)
    exact ⟨_, rfl, nofun, fun wrong => absurd wrong taken⟩
  · dsimp only at lookup
    rw [guards] at lookup
    obtain ⟨phase, now, guarded⟩ := tabled.guards index guard lookup
    obtain rfl := Option.some.inj (attempted.symm.trans now)
    exact absurd guarded id

theorem capture (tabled : state.Tabled)
    (step : state.capture store index = some (reply, after)) : after.Tabled := by
  obtain ⟨save, attempted, found, _, ⟨_, _, rfl⟩ |
    ⟨process, ⟨_, captured⟩ | ⟨_, snapshot, captured⟩, rfl⟩⟩ := capture_cases step
  · refine tabled.mine rfl (fun _ _ => ⟨rfl, rfl⟩) (fun save lookup => ⟨_, rfl, nofun, fun _ => ?_⟩)
      (fun guard lookup => ⟨_, rfl, trivial⟩) (fun _ flight sent => ⟨flight.answer, sent⟩) nofun rfl rfl
    exact Or.inr ⟨_, rfl⟩
  · obtain ⟨older, _, _, rfl⟩ := Process.captureImmutable_cases captured
    exact tabled.captured attempted (Option.some_ne_none _) rfl rfl
  · obtain ⟨older, _, _, _, rfl⟩ := Process.capturePersistence_cases captured
    exact tabled.captured attempted (Option.some_ne_none _) rfl rfl

theorem beginWrite (tabled : state.Tabled) {now : DateTime}
    (step : state.beginWrite store index now = some (reply, after)) : after.Tabled := by
  obtain ⟨save, snapshot, result, process, captured, _, _, acquired, _, outcome⟩ :=
    beginWrite_cases step
  obtain ⟨_, _, unguarded, _, cases⟩ := Process.acquire_cases acquired
  have taken : ∀ save, state.process.saves index = some save → save.revision ≠ none := by
    intro save lookup uncaptured
    obtain ⟨phase, now, _, exact_⟩ := tabled.saves index save lookup
    obtain rfl := Option.some.inj (captured.symm.trans now)
    rcases exact_ uncaptured with wrong | ⟨_, wrong⟩ <;> cases wrong
  have kept : ∀ number flight, state.flights number = some flight →
      ∃ answer, state.flights number = some { flight with answer } :=
    fun _ flight sent => ⟨flight.answer, sent⟩
  rcases cases with ⟨error, heap, _, rfl, rfl⟩ | ⟨guard, heap, _, rfl, rfl⟩
  · rcases outcome with ⟨error, _, rfl⟩ | ⟨wrong, _⟩
    · exact tabled.mine rfl (fun _ _ => ⟨rfl, rfl⟩)
        (fun save lookup => ⟨_, rfl, nofun, fun wrong => absurd wrong (taken save lookup)⟩)
        (fun guard lookup => ⟨_, rfl, trivial⟩) kept nofun rfl rfl
    · cases wrong
  · rcases outcome with ⟨_, wrong, _⟩ | ⟨_, rfl⟩
    · cases wrong
    · exact tabled.mine rfl (fun key different => ⟨rfl, Function.update_of_ne different _ _⟩)
        (fun save lookup => ⟨_, rfl, nofun, fun wrong => absurd wrong (taken save lookup)⟩)
        (fun guard lookup => ⟨_, rfl, trivial⟩) kept nofun rfl rfl

theorem send (sound : RemoteSound idOf state) (tabled : state.Tabled)
    (step : state.send index = some (reply, after)) : after.Tabled := by
  have later : ∀ (sent : Flight) number flight, state.flights number = some flight →
      ∃ answer, Function.update state.flights state.nextFlight (some sent) number =
        some { flight with answer } := by
    intro sent number flight found
    have different : number ≠ state.nextFlight := by
      rintro rfl
      cases (sound.unsent _ le_rfl).symm.trans found
    exact ⟨flight.answer, (Function.update_of_ne different _ _).trans found⟩
  obtain ⟨save, found, _, ⟨command, next, running, ⟨_, rfl⟩ | ⟨_, process, dispatched, rfl⟩⟩ |
    ⟨error, unremoved, rfl⟩⟩ := send_cases step
  · exact tabled.proceed running nofun nofun (by trivial) rfl (fun save lookup => ⟨save, lookup, rfl⟩)
      (fun _ _ => ⟨rfl, rfl⟩) (later _) nofun rfl rfl
  · obtain ⟨older, lookup, rfl⟩ := Process.dispatch_cases dispatched
    refine tabled.proceed running nofun nofun (by trivial) rfl (fun save now => ?_)
      (fun key different => ⟨Function.update_of_ne different _ _, rfl⟩) (later _) nofun rfl rfl
    obtain rfl := Option.some.inj (eq_some_of_update_self now)
    exact ⟨older, lookup, rfl⟩
  · refine tabled.proceed unremoved nofun nofun (by trivial) rfl (fun save lookup => ⟨save, lookup, rfl⟩)
      (fun _ _ => ⟨rfl, rfl⟩) (later _) (fun number _ same => ?_) rfl rfl
    cases same
    exact ⟨_, Function.update_self _ _ _⟩

theorem receive (tabled : state.Tabled) (step : state.receive index = some (reply, after)) :
    after.Tabled := by
  obtain ⟨number, flight, answer, _, _, _, ⟨next, waiting, rfl⟩ |
    ⟨error, process, removing, confirmed, rfl⟩⟩ := receive_cases step
  · exact tabled.proceed waiting nofun nofun (by trivial) rfl (fun save lookup => ⟨save, lookup, rfl⟩)
      (fun _ _ => ⟨rfl, rfl⟩) (fun _ flight sent => ⟨flight.answer, sent⟩) nofun rfl rfl
  · obtain ⟨guard, _, rfl⟩ := Process.confirmRemoved_cases confirmed
    exact tabled.proceed removing nofun nofun (by trivial) rfl (fun save lookup => ⟨save, lookup, rfl⟩)
      (fun key different => ⟨rfl, Function.update_of_ne different _ _⟩)
      (fun _ flight sent => ⟨flight.answer, sent⟩) nofun rfl rfl

theorem finish (tabled : state.Tabled) (step : state.finish store index = some (reply, after)) :
    after.Tabled := by
  -- Whatever becomes of the guard, it stays under its index.
  have settled : ∀ {process : Process} {phase newer : RemotePhase},
      state.calls index = some phase → phase ≠ .attempted → (∀ error, phase ≠ .failed error) →
        newer.Guarded → (∀ number error, newer ≠ .removing number error) →
          process.saves = state.process.saves →
            (∀ key ≠ index, process.guards key = state.process.guards key) →
              ({ state.setCall index (some newer) with process } : Remote).Tabled := by
    intro process phase newer found begun live guarded unsent saves guards
    refine tabled.proceed found begun live guarded rfl (fun save lookup => ⟨save, saves ▸ lookup, rfl⟩)
      (fun key different => ⟨congrFun saves key, guards key different⟩)
      (fun _ flight sent => ⟨flight.answer, sent⟩)
      (fun number error same => absurd same (unsent number error)) rfl rfl
  obtain ⟨_, ⟨written, result, finished, closed, outcome⟩ | ⟨revoked, outcome⟩⟩ := finish_cases step
  · obtain ⟨guard, _, _, rfl⟩ := Process.finish_cases closed
    rcases outcome with ⟨error, process, _, required, rfl⟩ | ⟨_, rfl⟩
    · obtain ⟨_, _, rfl⟩ := Process.requireCleanup_cases required
      have guarded : RemotePhase.Guarded (if store.tokens then .failed error else .unremoved error) := by
        split <;> trivial
      have unsent : ∀ number failure,
          (if store.tokens then .failed error else .unremoved error) ≠
            RemotePhase.removing number failure := by
        intro number failure
        split <;> nofun
      refine settled written nofun nofun guarded unsent rfl fun key different => ?_
      exact (Function.update_of_ne different _ _).trans (Function.update_of_ne different _ _)
    · exact settled written nofun nofun (by trivial) nofun rfl
        fun key different => Function.update_of_ne different _ _
  · rcases outcome with ⟨_, process, confirmed, rfl⟩ | ⟨_, result, process, closed, outcome⟩
    · obtain ⟨guard, _, rfl⟩ := Process.confirmRemoved_cases confirmed
      exact settled revoked nofun nofun (by trivial) nofun rfl
        fun key different => Function.update_of_ne different _ _
    · obtain ⟨guard, _, _, rfl⟩ := Process.finish_cases closed
      rcases outcome with ⟨error, _, rfl⟩ | ⟨_, rfl⟩ <;>
        exact settled revoked nofun nofun (by trivial) nofun rfl
          fun key different => Function.update_of_ne different _ _

/-- A deletion is dropped. -/
theorem dropDelete (tabled : state.Tabled) (index : Nat) (erasures : Nat → Option Nat) :
    ({ state with process := state.process.dropDelete index, erasures } : Remote).Tabled := by
  obtain ⟨heap, dropped⟩ := state.process.dropDelete_eq index
  refine tabled.still ?_ ?_ rfl (fun _ flight sent => ⟨flight.answer, sent⟩) tabled.reads
  · dsimp only
    rw [dropped]
    rfl
  · dsimp only
    rw [dropped]
    rfl

/-- Every step keeps the tables. -/
theorem step (sound : RemoteSound idOf state) (tabled : state.Tabled) {action : RemoteAction}
    (step : (remoteMachine store idOf).step state action = some (reply, after)) : after.Tabled := by
  have kept : ∀ number flight, state.flights number = some flight →
      ∃ answer, after.flights number = some { flight with answer } := by
    intro number flight sent
    obtain ⟨answer, still, _⟩ := (sound.later_step step).flights number flight sent
    exact ⟨answer, still⟩
  cases action with
  | handle action =>
    obtain ⟨process, handled, rfl⟩ := handle_cases step
    obtain ⟨_, _, _, _, rfl⟩ := Process.handleStep_eq handled
    exact tabled.still rfl rfl rfl kept tabled.reads
  | read cookie now =>
    rcases read_cases step with ⟨_, _, rfl⟩ | ⟨id, _, ⟨_, _, rfl⟩ | ⟨row, _, _, rfl⟩⟩
    · exact tabled
    · exact tabled
    · refine tabled.still rfl rfl rfl kept fun key old => ?_
      have old : state.nextRead + 1 ≤ key := old
      have different : key ≠ state.nextRead := by omega
      refine (Function.update_of_ne different _ _).trans (tabled.reads key ?_)
      omega
  | deliver index now =>
    obtain ⟨cookie, wire, validated, _, _, ⟨_, rfl⟩ | ⟨loaded, heap, _, _, rfl⟩⟩ := deliver_cases step <;>
      exact tabled.still rfl rfl rfl kept fun key old => update_none_eq_none index (tabled.reads key old)
  | storeSession index => exact tabled.storeSession sound step
  | capture index => exact tabled.capture step
  | beginWrite index now => exact tabled.beginWrite step
  | send index => exact tabled.send sound step
  | execute number =>
    obtain ⟨flight, found, unanswered, rfl⟩ := execute_cases step
    exact tabled.still rfl rfl rfl kept tabled.reads
  | receive index => exact tabled.receive step
  | check index =>
    obtain ⟨guard, written, _, _, _, _, rfl⟩ := check_cases step
    exact tabled.proceed written nofun nofun (by trivial) rfl (fun save lookup => ⟨save, lookup, rfl⟩)
      (fun _ _ => ⟨rfl, rfl⟩) kept nofun rfl rfl
  | finish index => exact tabled.finish step
  | complete index =>
    rcases complete_cases step with ⟨cookie, process, finished, completed, _, rfl⟩ | ⟨_, _, rfl⟩
    · obtain ⟨middle, acknowledged, rfl⟩ := Process.complete_cases completed
      obtain ⟨_, _, _, _, _, rfl⟩ := Process.acknowledge_cases acknowledged
      refine tabled.mine rfl (fun key different => ?_) (fun save lookup => ?_) (fun guard lookup => ?_)
        kept nofun rfl rfl
      · dsimp only
        rw [Process.saves_dropGuard, Process.guards_dropGuard]
        exact ⟨Function.update_of_ne different _ _, Function.update_of_ne different _ _⟩
      · dsimp only at lookup
        rw [Process.saves_dropGuard] at lookup
        cases eq_some_of_update_self lookup
      · dsimp only at lookup
        rw [Process.guards_dropGuard] at lookup
        cases eq_some_of_update_self lookup
    · exact tabled.abandon index
  | fail index =>
    obtain ⟨error, _, _, rfl⟩ := fail_cases step
    exact tabled.abandon index
  | lose index =>
    obtain ⟨phase, _, _, _, rfl⟩ := lose_cases step
    exact tabled.abandon index
  | cancelStore index =>
    obtain ⟨phase, _, _, _, rfl⟩ := cancelStore_cases step
    exact tabled.abandon index
  | destroySession index =>
    obtain ⟨process, requested, rfl⟩ := destroySession_cases step
    obtain ⟨session, _, _, rfl⟩ := Process.requestDelete_cases requested
    exact tabled.still rfl rfl rfl kept tabled.reads
  | grantDelete index =>
    obtain ⟨process, granted, rfl⟩ := grantDelete_cases step
    obtain ⟨_, _, _, _, ⟨_, _, _, rfl⟩ | ⟨_, _, _, _, rfl⟩⟩ := Process.grantDelete_cases granted <;>
      exact tabled.still rfl rfl rfl kept tabled.reads
  | erase index =>
    obtain ⟨_, _, _, _, _, _, rfl⟩ := erase_cases step
    exact tabled.still rfl rfl rfl kept tabled.reads
  | confirmErased index =>
    obtain ⟨_, _, _, _, _, _, _, rfl⟩ := confirmErased_cases step
    exact tabled.dropDelete index _
  | cancelDestroy index =>
    obtain ⟨_, _, _, rfl⟩ := cancelDestroy_cases step
    exact tabled.dropDelete index _
  | clearStore =>
    cases step
    exact tabled.still rfl rfl rfl kept tabled.reads
  | unlink ids =>
    cases step
    exact tabled.still rfl rfl rfl kept tabled.reads
  | expire id =>
    cases step
    exact tabled.still rfl rfl rfl kept tabled.reads

end Tabled

end Remote

/-- What completion relies on. -/
structure RemotePending (idOf : Cookie → Option Id) (state : Remote) : Prop where
  sound : RemoteSound idOf state
  deleting : state.Deleting
  attended : state.process.Attended
  tabled : state.Tabled
  answers : ∀ number flight answer, state.flights number = some flight →
    flight.answer = some answer → flight.command.Answers answer

namespace RemotePending

variable {store : RemoteStore} {idOf : Cookie → Option Id} {state after : Remote} {reply : Reply}
  {index : Nat}

theorem initial (idOf : Cookie → Option Id) : RemotePending idOf .initial where
  sound := remoteSound_initial idOf
  deleting := Remote.deleting_initial
  attended := Process.attended_initial
  tabled := Remote.tabled_initial
  answers := by rintro _ _ _ found; cases found

theorem step (pending : RemotePending idOf state) {action : RemoteAction}
    (step : (remoteMachine store idOf).step state action = some (reply, after)) :
    RemotePending idOf after where
  sound := (pending.sound.advances step).sound
  deleting := pending.sound.deleting_step pending.deleting step
  attended := pending.attended.path pending.sound.dispatching (pending.sound.advances step).path
  tabled := pending.tabled.step pending.sound step
  answers number flight answer found answered := by
    rcases RemoteSound.answered_before (pending.sound.effect step) found answered with earlier | ⟨fresh, _⟩
    · exact pending.answers number flight answer earlier answered
    · obtain rfl := Option.some.inj (answered.symm.trans fresh)
      exact flight.command.answers_execute state.rows

theorem reachable (reachable : (remoteMachine store idOf).Reachable state) :
    RemotePending idOf state := by
  refine reachable.invariant (fun initially => ?_) fun pending step => pending.step step
  obtain rfl : _ = Remote.initial := initially
  exact .initial idOf

/-! ### Every step of a call is one less -/

theorem call_inside (pending : RemotePending idOf state) {phase : RemotePhase}
    (found : state.calls index = some phase) : index < state.process.nextSave := by
  obtain ⟨save, saved, _⟩ := pending.sound.calls index phase found
  exact pending.sound.dispatching.locking.used_of_save saved

theorem deletion_inside (pending : RemotePending idOf state) {deletion : Deletion}
    (found : state.process.deletions index = some deletion) : index < state.process.nextDeletion := by
  by_contra beyond
  cases (pending.sound.dispatching.locking.unusedDeletion index (not_lt.mp beyond)).symm.trans found

/-- A call went on towards its guard. -/
theorem lower_early (pending : RemotePending idOf state) {older newer : RemotePhase}
    (found : state.calls index = some older)
    (calls : after.calls = Function.update state.calls index (some newer))
    (nextSave : after.process.nextSave = state.process.nextSave) (lower : newer.early < older.early) :
    after.remaining < state.remaining := by
  refine Prod.Lex.toLex_lt_toLex.mpr (Or.inl ?_)
  rw [calls, nextSave]
  exact burden_update_lt (pending.call_inside found) found lower

/-- A call under its guard went on, and may have sent a command. -/
theorem lower_late (pending : RemotePending idOf state) {older : RemotePhase}
    {newer : Option RemotePhase} (found : state.calls index = some older)
    (calls : after.calls = Function.update state.calls index newer)
    (nextSave : after.process.nextSave = state.process.nextSave)
    (early : older.early = 0 ∧ newer.elim 0 RemotePhase.early = 0)
    (flights : burden Flight.open after.flights after.nextFlight + newer.elim 0 RemotePhase.late <
      burden Flight.open state.flights state.nextFlight + older.late)
    (erasing : total after.erasing after.process.nextDeletion =
      total state.erasing state.process.nextDeletion)
    (reads : after.reads = state.reads) (nextRead : after.nextRead = state.nextRead) :
    after.remaining < state.remaining := by
  have inside := pending.call_inside found
  have first := @burden_update _ RemotePhase.early state.calls _ index older newer inside found
  have second := @burden_update _ RemotePhase.late state.calls _ index older newer inside found
  refine Prod.Lex.toLex_lt_toLex.mpr (Or.inr ⟨?_, ?_⟩)
  · dsimp only
    rw [calls, nextSave]
    omega
  · dsimp only
    rw [calls, nextSave, erasing, reads, nextRead]
    omega

/-- A step that concerns no `store_session` call. -/
theorem lower_other (calls : after.calls = state.calls)
    (nextSave : after.process.nextSave = state.process.nextSave)
    (lower : burden Flight.open after.flights after.nextFlight +
        total after.erasing after.process.nextDeletion +
          burden (fun _ => 1) after.reads after.nextRead <
      burden Flight.open state.flights state.nextFlight +
        total state.erasing state.process.nextDeletion +
          burden (fun _ => 1) state.reads state.nextRead) : after.remaining < state.remaining := by
  refine Prod.Lex.toLex_lt_toLex.mpr (Or.inr ⟨?_, ?_⟩)
  · rw [calls, nextSave]
  · dsimp only
    rw [calls, nextSave]
    omega

theorem erasing_eq (deletions : after.process.deletions = state.process.deletions)
    (nextDeletion : after.process.nextDeletion = state.process.nextDeletion)
    (erasures : after.erasures = state.erasures) :
    total after.erasing after.process.nextDeletion = total state.erasing state.process.nextDeletion := by
  have same : after.erasing = state.erasing := by
    funext index
    unfold Remote.erasing
    rw [deletions, erasures]
  rw [same, nextDeletion]

/-- A deletion went on. -/
theorem erasing_add (pending : RemotePending idOf state) {deletion : Deletion}
    (found : state.process.deletions index = some deletion)
    (nextDeletion : after.process.nextDeletion = state.process.nextDeletion)
    (deletions : ∀ key ≠ index, after.process.deletions key = state.process.deletions key)
    (erasures : ∀ key ≠ index, after.erasures key = state.erasures key) :
    total after.erasing after.process.nextDeletion + state.erasing index =
      total state.erasing state.process.nextDeletion + after.erasing index := by
  rw [nextDeletion]
  refine total_add (pending.deletion_inside found) fun key different => ?_
  unfold Remote.erasing
  rw [deletions key different, erasures key different]

/-- A call ends, and gives up everything it held. -/
theorem lower_abandon (pending : RemotePending idOf state) {phase : RemotePhase}
    (found : state.calls index = some phase) (early : phase.early = 0) (late : 0 < phase.late) :
    Remote.remaining { state.setCall index none with process := state.process.abandon index } <
      state.remaining := by
  obtain ⟨heap, dropped⟩ := state.process.abandon_eq index
  rw [dropped]
  exact pending.lower_late found rfl rfl ⟨early, rfl⟩ (Nat.add_lt_add_left late _)
    (erasing_eq rfl rfl rfl) rfl rfl

theorem lower_send (pending : RemotePending idOf state) (step : state.send index = some (reply, after)) :
    after.remaining < state.remaining := by
  have sent := fun flight : Flight => @burden_push Flight Flight.open state.flights state.nextFlight flight
  obtain ⟨save, found, _, ⟨command, next, running, ⟨_, rfl⟩ | ⟨_, process, dispatched, rfl⟩⟩ |
    ⟨error, unremoved, rfl⟩⟩ := Remote.send_cases step
  · refine pending.lower_late running rfl rfl ⟨rfl, rfl⟩ ?_ (erasing_eq rfl rfl rfl) rfl rfl
    show burden _ (Function.update _ _ _) (_ + 1) + (longest _ + 1) < _ + (longest _ + 3)
    rw [sent]
    simp only [Flight.open, Save.flight, if_true]
    omega
  · obtain ⟨older, _, rfl⟩ := Process.dispatch_cases dispatched
    refine pending.lower_late running rfl rfl ⟨rfl, rfl⟩ ?_ (erasing_eq rfl rfl rfl) rfl rfl
    show burden _ (Function.update _ _ _) (_ + 1) + (longest _ + 1) < _ + (longest _ + 3)
    rw [sent]
    simp only [Flight.open, Save.flight, if_true]
    omega
  · refine pending.lower_late unremoved rfl rfl ⟨rfl, rfl⟩ ?_ (erasing_eq rfl rfl rfl) rfl rfl
    show burden _ (Function.update _ _ _) (_ + 1) + 2 < _ + 4
    rw [sent]
    simp only [Flight.open, Save.flight, if_true]
    omega

theorem lower_finish (pending : RemotePending idOf state)
    (step : state.finish store index = some (reply, after)) : after.remaining < state.remaining := by
  obtain ⟨_, ⟨written, result, finished, closed, outcome⟩ | ⟨revoked, outcome⟩⟩ :=
    Remote.finish_cases step
  · obtain ⟨guard, _, _, rfl⟩ := Process.finish_cases closed
    rcases outcome with ⟨error, process, _, required, rfl⟩ | ⟨_, rfl⟩
    · obtain ⟨_, _, rfl⟩ := Process.requireCleanup_cases required
      refine pending.lower_late written rfl rfl ⟨rfl, ?_⟩ (Nat.add_lt_add_left ?_ _)
        (erasing_eq rfl rfl rfl) rfl rfl
      · cases store.tokens <;> rfl
      · cases store.tokens <;> simp [RemotePhase.late, Program.steps]
    · exact pending.lower_late written rfl rfl ⟨rfl, rfl⟩
        (Nat.add_lt_add_left (by simp [RemotePhase.late, Program.steps]) _) (erasing_eq rfl rfl rfl) rfl rfl
  · rcases outcome with ⟨_, process, confirmed, rfl⟩ | ⟨_, result, process, closed, outcome⟩
    · obtain ⟨guard, _, rfl⟩ := Process.confirmRemoved_cases confirmed
      exact pending.lower_late revoked rfl rfl ⟨rfl, rfl⟩
        (Nat.add_lt_add_left (by simp [RemotePhase.late, Program.steps]) _) (erasing_eq rfl rfl rfl) rfl rfl
    · obtain ⟨guard, _, _, rfl⟩ := Process.finish_cases closed
      rcases outcome with ⟨error, _, rfl⟩ | ⟨_, rfl⟩ <;>
        exact pending.lower_late revoked rfl rfl ⟨rfl, rfl⟩
          (Nat.add_lt_add_left (by simp [RemotePhase.late, Program.steps]) _) (erasing_eq rfl rfl rfl)
          rfl rfl

theorem lower_receive (pending : RemotePending idOf state)
    (step : state.receive index = some (reply, after)) : after.remaining < state.remaining := by
  obtain ⟨number, flight, answer, sent, answered, _, ⟨next, waiting, rfl⟩ |
    ⟨error, process, removing, confirmed, rfl⟩⟩ := Remote.receive_cases step
  · have shorter := le_longest (pending.answers number flight answer sent answered)
      fun answer => (next answer).steps
    refine pending.lower_late waiting rfl rfl ⟨rfl, rfl⟩ (Nat.add_lt_add_left ?_ _)
      (erasing_eq rfl rfl rfl) rfl rfl
    exact Nat.lt_succ_of_le shorter
  · obtain ⟨guard, _, rfl⟩ := Process.confirmRemoved_cases confirmed
    exact pending.lower_late removing rfl rfl ⟨rfl, rfl⟩
      (Nat.add_lt_add_left (by simp [RemotePhase.late]) _) (erasing_eq rfl rfl rfl) rfl rfl

theorem lower_complete (pending : RemotePending idOf state)
    (step : state.complete index = some (reply, after)) : after.remaining < state.remaining := by
  rcases Remote.complete_cases step with ⟨cookie, process, finished, completed, _, rfl⟩ |
    ⟨expired, _, rfl⟩
  · obtain ⟨middle, acknowledged, rfl⟩ := Process.complete_cases completed
    obtain ⟨_, _, _, _, _, rfl⟩ := Process.acknowledge_cases acknowledged
    obtain ⟨heap, dropped⟩ := Process.dropGuard_eq _ index
    rw [dropped]
    exact pending.lower_late finished rfl rfl ⟨rfl, rfl⟩ (Nat.add_lt_add_left Nat.one_pos _)
      (erasing_eq rfl rfl rfl) rfl rfl
  · exact pending.lower_abandon expired rfl Nat.one_pos

theorem lower_grantDelete (pending : RemotePending idOf state)
    (step : state.grantDelete index = some (reply, after)) : after.remaining < state.remaining := by
  obtain ⟨process, granted, rfl⟩ := Remote.grantDelete_cases step
  obtain ⟨deletion, found, waiting, _, outcome⟩ := Process.grantDelete_cases granted
  have before : state.erasing index = 4 := by simp [Remote.erasing, found, waiting]
  rcases outcome with ⟨_, _, _, rfl⟩ | ⟨target, heap, _, _, rfl⟩
  · have sum := @erasing_add idOf state { state with process := state.process.setDeletion index none }
      index pending _ found rfl (fun key different => Function.update_of_ne different _ _)
      fun _ _ => rfl
    have none : Remote.erasing { state with process := state.process.setDeletion index none } index =
        0 := by
      simp [Remote.erasing, Process.setDeletion]
    refine lower_other rfl rfl (Nat.add_lt_add_right (Nat.add_lt_add_left ?_ _) _)
    omega
  · have sum := @erasing_add idOf state { state with
        process := { state.process.setDeletion index (some { deletion with target := some target }) with
          heap } } index pending _ found rfl
      (fun key different => Function.update_of_ne different _ _) fun _ _ => rfl
    have less : Remote.erasing { state with
        process := { state.process.setDeletion index (some { deletion with target := some target }) with
          heap } } index ≤ 3 := by
      simp only [Remote.erasing, Process.setDeletion, Function.update_self, Option.some_ne_none, if_false]
      split <;> omega
    refine lower_other rfl rfl (Nat.add_lt_add_right (Nat.add_lt_add_left ?_ _) _)
    omega

theorem lower_erase (pending : RemotePending idOf state)
    (step : state.erase index = some (reply, after)) : after.remaining < state.remaining := by
  obtain ⟨deletion, target, found, granted, unsent, _, rfl⟩ := Remote.erase_cases step
  have before : state.erasing index = 3 := by simp [Remote.erasing, found, granted, unsent]
  have sum := @erasing_add idOf state { state with
      erasures := Function.update state.erasures index (some state.nextFlight) } index pending _ found
    rfl (fun _ _ => rfl) fun key different => Function.update_of_ne different _ _
  have less : Remote.erasing { state with
      erasures := Function.update state.erasures index (some state.nextFlight) } index = 1 := by
    simp [Remote.erasing, found, granted]
  have sent := @burden_push Flight Flight.open state.flights state.nextFlight
    { command := .delete target, family := some deletion.session.family }
  refine lower_other rfl rfl (Nat.add_lt_add_right ?_ _)
  show burden _ (Function.update _ _ _) (_ + 1) + total (Remote.erasing { state with
      erasures := Function.update state.erasures index (some state.nextFlight) })
        state.process.nextDeletion < _
  rw [sent, show Flight.open { command := .delete target, family := some deletion.session.family } = 1
    from rfl]
  dsimp only at sum
  omega

theorem lower_confirmErased (pending : RemotePending idOf state)
    (step : state.confirmErased index = some (reply, after)) : after.remaining < state.remaining := by
  obtain ⟨number, flight, answer, erased, sent, answered, _, rfl⟩ := Remote.confirmErased_cases step
  obtain ⟨deletion, target, _, found, granted, _⟩ := pending.deleting.erasures index number erased
  obtain ⟨heap, dropped⟩ := state.process.dropDelete_eq index
  rw [dropped]
  have before : state.erasing index = 1 := by simp [Remote.erasing, found, granted, erased]
  have sum := @erasing_add idOf state { state with
      process := { state.process.setDeletion index none with heap }
      erasures := Function.update state.erasures index none } index pending _ found rfl
    (fun key different => Function.update_of_ne different _ _)
    fun key different => Function.update_of_ne different _ _
  have none : Remote.erasing { state with
      process := { state.process.setDeletion index none with heap }
      erasures := Function.update state.erasures index none } index = 0 := by
    simp [Remote.erasing, Process.setDeletion]
  refine lower_other rfl rfl (Nat.add_lt_add_right (Nat.add_lt_add_left ?_ _) _)
  omega

/-- Every step of a call leaves less to do. -/
theorem descends (pending : RemotePending idOf state) {action : RemoteAction} (own : action.Own)
    (step : (remoteMachine store idOf).step state action = some (reply, after)) :
    after.remaining < state.remaining := by
  cases action with
  | deliver index now =>
    obtain ⟨cookie, wire, validated, found, _, outcome⟩ := Remote.deliver_cases step
    have inside : index < state.nextRead := by
      by_contra beyond
      cases (pending.tabled.reads index (not_lt.mp beyond)).symm.trans found
    have lower := @burden_update_lt _ (fun _ => 1) state.reads _ index _ none inside found Nat.one_pos
    rcases outcome with ⟨_, rfl⟩ | ⟨loaded, heap, _, _, rfl⟩ <;>
      exact lower_other rfl rfl (Nat.add_lt_add_left lower _)
  | capture index =>
    obtain ⟨save, attempted, _, _, ⟨_, _, rfl⟩ |
      ⟨process, ⟨_, captured⟩ | ⟨_, snapshot, captured⟩, rfl⟩⟩ := Remote.capture_cases step
    · exact pending.lower_early attempted rfl rfl Nat.two_pos
    · obtain ⟨older, _, _, rfl⟩ := Process.captureImmutable_cases captured
      exact pending.lower_early attempted rfl rfl (by decide)
    · obtain ⟨older, _, _, _, rfl⟩ := Process.capturePersistence_cases captured
      exact pending.lower_early attempted rfl rfl (by decide)
  | beginWrite index now =>
    obtain ⟨save, snapshot, result, process, captured, _, _, acquired, _, outcome⟩ :=
      Remote.beginWrite_cases step
    obtain ⟨_, _, _, _, ⟨_, _, _, rfl, rfl⟩ | ⟨_, _, _, rfl, rfl⟩⟩ := Process.acquire_cases acquired <;>
      rcases outcome with ⟨error, _, rfl⟩ | ⟨_, rfl⟩ <;>
      exact pending.lower_early captured rfl rfl Nat.one_pos
  | send index => exact pending.lower_send step
  | execute number =>
    obtain ⟨flight, found, unanswered, rfl⟩ := Remote.execute_cases step
    have inside : number < state.nextFlight := by
      by_contra beyond
      cases (pending.sound.unsent number (not_lt.mp beyond)).symm.trans found
    have lower := @burden_update_lt _ Flight.open state.flights _ number _
      (some { flight with answer := some (flight.command.execute state.rows).1 }) inside found
      (by simp [Flight.open, unanswered])
    exact lower_other rfl rfl (Nat.add_lt_add_right (Nat.add_lt_add_right lower _) _)
  | receive index => exact pending.lower_receive step
  | check index =>
    obtain ⟨guard, written, _, _, _, _, rfl⟩ := Remote.check_cases step
    exact pending.lower_late written rfl rfl ⟨rfl, rfl⟩
      (Nat.add_lt_add_left (by simp [RemotePhase.late, Program.steps]) _) (erasing_eq rfl rfl rfl) rfl rfl
  | finish index => exact pending.lower_finish step
  | complete index => exact pending.lower_complete step
  | fail index =>
    obtain ⟨error, running | failed, _, rfl⟩ := Remote.fail_cases step
    · exact pending.lower_abandon running rfl Nat.one_pos
    · exact pending.lower_abandon failed rfl Nat.one_pos
  | grantDelete index => exact pending.lower_grantDelete step
  | erase index => exact pending.lower_erase step
  | confirmErased index => exact pending.lower_confirmErased step
  | _ => exact absurd own id

/-! ### Some step of a call can be taken -/

theorem isSome_capture (pending : RemotePending idOf state)
    (attempted : state.calls index = some .attempted) : (state.capture store index).isSome := by
  obtain ⟨save, found, _⟩ := pending.sound.calls index _ attempted
  obtain ⟨phase, now, uncaptured, _⟩ := pending.tabled.saves index save found
  obtain rfl := Option.some.inj (attempted.symm.trans now)
  simp only [Remote.capture, attempted, found, Option.bind_eq_bind, Option.bind_some]
  split
  · rfl
  · split
    · simp [Process.captureImmutable, found, uncaptured rfl]
    · simp [Process.capturePersistence, found, uncaptured rfl]

/-- A call that waits for a free mutex is granted it, or refused for good. -/
theorem isSome_beginWrite (pending : RemotePending idOf state) {save : Save} (now : DateTime)
    (captured : state.calls index = some .captured) (found : state.process.saves index = some save)
    (free : ¬ state.process.Taken save.source.family) : (state.beginWrite store index now).isSome := by
  obtain ⟨other, same, _, unguarded, snapshot, taken, _⟩ := pending.sound.calls index _ captured
  obtain rfl := Option.some.inj (found.symm.trans same)
  have free : (save.source.shared state.process.heap).locked = false := by
    simpa [Process.Taken, Session.shared] using free
  simp only [Remote.beginWrite, captured, Process.acquire, found, taken, unguarded, free,
    Option.bind_eq_bind, Option.bind_some, and_self, if_true]
  split <;> rfl

theorem isSome_send (pending : RemotePending idOf state) {command : Command} {next : Answer → Program}
    (running : state.calls index = some (.running (.send command next))) : (state.send index).isSome := by
  obtain ⟨save, found, _⟩ := pending.sound.calls index _ running
  simp only [Remote.send, running, found, Option.bind_eq_bind, Option.bind_some]
  split
  · rfl
  · simp [Process.dispatch, found]

theorem isSome_compensate (pending : RemotePending idOf state) {error : Error}
    (unremoved : state.calls index = some (.unremoved error)) : (state.send index).isSome := by
  obtain ⟨save, found, _⟩ := pending.sound.calls index _ unremoved
  simp [Remote.send, unremoved, found]

theorem isSome_receive {number : Nat} {flight : Flight} {next : Answer → Program}
    (waiting : state.calls index = some (.waiting number next))
    (sent : state.flights number = some flight) (answered : flight.answer ≠ none) :
    (state.receive index).isSome := by
  obtain ⟨answer, answered⟩ := Option.ne_none_iff_exists'.mp answered
  simp [Remote.receive, waiting, sent, answered]

theorem isSome_confirm (pending : RemotePending idOf state) {number : Nat} {flight : Flight}
    {error : Error} (removing : state.calls index = some (.removing number error))
    (sent : state.flights number = some flight) (answered : flight.answer ≠ none) :
    (state.receive index).isSome := by
  obtain ⟨answer, answered⟩ := Option.ne_none_iff_exists'.mp answered
  obtain ⟨save, _, ⟨guard, guarded⟩, _⟩ := pending.sound.calls index _ removing
  simp [Remote.receive, removing, sent, answered, Process.confirmRemoved, guarded]

theorem isSome_finish (pending : RemotePending idOf state) {program : Program}
    (running : state.calls index = some (.running program))
    (ended : program = .written ∨ program = .revoked) : (state.finish store index).isSome := by
  obtain ⟨save, _, ⟨guard, guarded, _⟩, _⟩ := pending.sound.calls index _ running
  rcases ended with rfl | rfl
  · simp only [Remote.finish, running, Process.finish, guarded, Option.bind_eq_bind, Option.bind_some,
      Option.pure_def]
    split
    · simp [Process.requireCleanup, Process.setGuard]
    · rfl
  · simp only [Remote.finish, running, Process.finish, Process.confirmRemoved, guarded,
      Option.bind_eq_bind, Option.bind_some, Option.pure_def]
    split
    · rfl
    · split <;> rfl

theorem isSome_complete (pending : RemotePending idOf state)
    (finished : state.calls index = some .finished) : (state.complete index).isSome := by
  obtain ⟨save, found, _⟩ := pending.sound.calls index _ finished
  obtain ⟨phase, now, _, captured⟩ := pending.tabled.saves index save found
  obtain rfl := Option.some.inj (finished.symm.trans now)
  obtain ⟨revision, taken⟩ := Option.ne_none_iff_exists'.mp fun wrong => by
    rcases captured wrong with wrong | ⟨_, wrong⟩ <;> cases wrong
  simp [Remote.complete, finished, Process.complete, Process.acknowledge, found, taken]

/-- A deletion that waits for a free mutex is granted it, or refused for good. -/
theorem isSome_grantDelete {deletion : Deletion}
    (found : state.process.deletions index = some deletion) (waiting : deletion.target = none)
    (free : ¬ state.process.Taken deletion.session.family) : (state.grantDelete index).isSome := by
  have free : (deletion.session.shared state.process.heap).locked = false := by
    simpa [Process.Taken, Session.shared] using free
  simp only [Remote.grantDelete, Process.grantDelete, found, waiting, free, Option.bind_eq_bind,
    Option.bind_some, and_self, if_true]
  split <;> rfl

/-- When no call can take a step and no command can be answered, none is in progress. What was sent
has been answered, so every call but those that wait for a mutex could go on; nobody holds one, and
these could go on as well. -/
theorem idle_of_stuck (pending : RemotePending idOf state)
    (stuck : (remoteMachine store idOf).Stuck RemoteAction.Own state) : state.Idle := by
  have unable : ∀ action : RemoteAction, action.Own → ¬ (state.step store idOf action).isSome := by
    intro action own able
    have none : state.step store idOf action = none := stuck action own
    rw [none] at able
    cases able
  have answered : ∀ number flight, state.flights number = some flight → flight.answer ≠ none := by
    intro number flight sent unanswered
    refine unable (.execute number) trivial ?_
    simp [Remote.step, Remote.execute, sent, unanswered]
  have waits : ∀ index phase, state.calls index = some phase → phase = .captured := by
    intro index phase found
    by_contra other
    cases phase with
    | attempted => exact unable (.capture index) trivial (pending.isSome_capture found)
    | captured => exact other rfl
    | running program =>
      cases program with
      | send command next => exact unable (.send index) trivial (pending.isSome_send found)
      | written => exact unable (.finish index) trivial (pending.isSome_finish found (Or.inl rfl))
      | revoked => exact unable (.finish index) trivial (pending.isSome_finish found (Or.inr rfl))
      | failed error =>
        refine unable (.fail index) trivial ?_
        simp [Remote.step, Remote.fail, found]
    | waiting number next =>
      obtain ⟨save, _, _, flight, sent, _⟩ := pending.sound.calls index _ found
      exact unable (.receive index) trivial (isSome_receive found sent (answered number flight sent))
    | unremoved error => exact unable (.send index) trivial (pending.isSome_compensate found)
    | removing number error =>
      obtain ⟨flight, sent⟩ := pending.tabled.removing index number error found
      exact unable (.receive index) trivial
        (pending.isSome_confirm found sent (answered number flight sent))
    | finished => exact unable (.complete index) trivial (pending.isSome_complete found)
    | expired =>
      refine unable (.complete index) trivial ?_
      simp [Remote.step, Remote.complete, found]
    | failed error =>
      refine unable (.fail index) trivial ?_
      simp [Remote.step, Remote.fail, found]
  have ungranted : ∀ index deletion, state.process.deletions index = some deletion →
      deletion.target = none := by
    intro index deletion found
    by_contra target
    obtain ⟨target, granted⟩ := Option.ne_none_iff_exists'.mp target
    by_cases unsent : state.erasures index = none
    · refine unable (.erase index) trivial ?_
      simp [Remote.step, Remote.erase, found, granted, unsent]
    · obtain ⟨number, erased⟩ := Option.ne_none_iff_exists'.mp unsent
      obtain ⟨_, _, flight, _, _, sent, _⟩ := pending.deleting.erasures index number erased
      obtain ⟨answer, known⟩ := Option.ne_none_iff_exists'.mp (answered number flight sent)
      refine unable (.confirmErased index) trivial ?_
      simp [Remote.step, Remote.confirmErased, erased, sent, known]
  have guards : ∀ index, state.process.guards index = none := by
    intro index
    by_contra held
    obtain ⟨guard, held⟩ := Option.ne_none_iff_exists'.mp held
    obtain ⟨phase, found, guarded⟩ := pending.tabled.guards index guard held
    obtain rfl := waits index phase found
    exact guarded
  have free : ∀ session, state.process.Live session → ¬ state.process.Taken session.family := by
    intro session live taken
    obtain ⟨key | key, held⟩ := pending.attended session live taken
    · obtain ⟨guard, found, _⟩ := held
      cases (guards key).symm.trans found
    · obtain ⟨deletion, found, granted, _⟩ := held
      exact granted (ungranted key deletion found)
  have calls : ∀ index, state.calls index = none := by
    intro index
    by_contra busy
    obtain ⟨phase, found⟩ := Option.ne_none_iff_exists'.mp busy
    obtain rfl := waits index phase found
    obtain ⟨save, saved, _⟩ := pending.sound.calls index _ found
    exact unable (.beginWrite index 0) trivial
      (pending.isSome_beginWrite 0 found saved (free _ (.save saved)))
  have deletions : ∀ index, state.process.deletions index = none := by
    intro index
    by_contra busy
    obtain ⟨deletion, found⟩ := Option.ne_none_iff_exists'.mp busy
    exact unable (.grantDelete index) trivial
      (isSome_grantDelete found (ungranted index deletion found) (free _ (.deletion found)))
  refine ⟨calls, fun index => ?_, guards, deletions, fun index => ?_, fun index => ?_, answered, free⟩
  · by_contra busy
    obtain ⟨save, saved⟩ := Option.ne_none_iff_exists'.mp busy
    obtain ⟨phase, found, _⟩ := pending.tabled.saves index save saved
    cases (calls index).symm.trans found
  · by_contra busy
    obtain ⟨number, erased⟩ := Option.ne_none_iff_exists'.mp busy
    obtain ⟨_, _, _, found, _⟩ := pending.deleting.erasures index number erased
    cases (deletions index).symm.trans found
  · by_contra busy
    obtain ⟨⟨cookie, wire⟩, found⟩ := Option.ne_none_iff_exists'.mp busy
    refine unable (.deliver index 0) trivial ?_
    simp only [Remote.step, Remote.deliver, found, Option.bind_eq_bind, Option.bind_some]
    split <;> rfl

end RemotePending

/-! ### The results -/

/-- Every call of a process with a remote store ends. -/
theorem remoteMachine_completes (store : RemoteStore) (idOf : Cookie → Option Id) :
    (remoteMachine store idOf).Completes RemoteAction.Own (RemotePending idOf) Remote.Idle
      Remote.remaining where
  preserved pending step := pending.step step
  descends pending own step := pending.descends own step
  progress pending busy := by
    by_contra stuck
    refine busy (@RemotePending.idle_of_stuck store idOf _ pending fun action own => ?_)
    by_contra able
    obtain ⟨outcome, step⟩ := Option.ne_none_iff_exists'.mp able
    exact stuck ⟨action, outcome.1, outcome.2, own, step⟩

/-- No call of a process with a remote store waits for ever, whatever its program sends, as long as
its commands are answered: from any reachable state, the calls in progress and the answers to their
commands come to an end, in whatever order they take their steps; where none of them can go on, all
have ended and no mutex is taken; and such a state can be reached. -/
theorem remote_calls_end {store : RemoteStore} {idOf : Cookie → Option Id} {state : Remote}
    (reachable : (remoteMachine store idOf).Reachable state) :
    (¬ ∃ states : Nat → Remote, states 0 = state ∧ ∀ moment, ∃ action reply, action.Own ∧
      (remoteMachine store idOf).step (states moment) action = some (reply, states (moment + 1))) ∧
    (∀ trace after, (remoteMachine store idOf).Run state trace after →
      Machine.Owned RemoteAction.Own trace →
        (remoteMachine store idOf).Stuck RemoteAction.Own after → after.Idle) ∧
    ∃ trace after, (remoteMachine store idOf).Run state trace after ∧
      Machine.Owned RemoteAction.Own trace ∧ after.Idle := by
  have pending := RemotePending.reachable reachable
  have completes := remoteMachine_completes store idOf
  refine ⟨completes.finite pending, fun trace after run _ => ?_, completes.settles pending⟩
  exact completes.done_of_stuck (completes.invariant_run pending run)

/-- A save that waits for its answer, another one that waits for the mutex, and a logout all end. -/
theorem remote_calls_end_of_competing : ∃ state : Remote,
    (state.calls 1).isSome ∧ (state.calls 2).isSome ∧ (state.process.deletions 0).isSome ∧
      ∃ trace after, (remoteMachine mongoDbStore some).Run state trace after ∧
        Machine.Owned RemoteAction.Own trace ∧ after.Idle := by
  have run := Machine.run_replay (remoteMachine mongoDbStore some) .initial
    ([.handle (.new "first"), .handle (.clone 0), .handle (.clone 0), .handle (.clone 0)] ++
      RemoteAction.store 0 0 0 0 ++ [.storeSession 1, .capture 1, .beginWrite 1 0, .send 1,
        .storeSession 2, .capture 2, .destroySession 3]) (by decide)
  exact ⟨_, by decide, by decide, by decide, (remote_calls_end ⟨_, _, rfl, run⟩).2.2⟩

end Saysion
