/-
This file says once what a step of a process with a remote store may do to the
backend, to the commands on their way, and to the deletions. Everything the
later files prove about rows is derived from it: a command takes effect only in
a step of its own, and a creating command is sent only by a save that still
holds its guard and has sent none before.
-/

import Saysion.RemoteSteps

namespace Saysion

namespace Remote

/-- No command takes effect; rows may go away on their own. -/
structure Apart (state after : Remote) : Prop where
  births : after.births = state.births
  reserved : after.reserved = state.reserved
  rows : ∀ id, after.rows id ≠ none → state.rows id ≠ none

/-- The first creating command of a save, under its guard. -/
def Starts (state : Remote) (flight : Flight) (id : Id) : Prop :=
  ∃ index save guard, state.process.saves index = some save ∧
    state.process.guards index = some guard ∧ flight.family = some save.source.family ∧
      id = save.source.id ∧ save.Creates ∧ save.dispatched = false

/-- What a step does to the backend, the commands and the deletions. -/
inductive Effect (state : Remote) : RemoteAction → Remote → Prop
  | idle {action : RemoteAction} {after : Remote} : state.Apart after →
      after.flights = state.flights → after.process.deletions = state.process.deletions →
        after.erasures = state.erasures → Effect state action after
  | launch {action : RemoteAction} {after : Remote} (flight : Flight) : state.Apart after →
      flight.answer = none → (∀ id, flight.command.creates = some id → state.Starts flight id) →
        after.flights = Function.update state.flights state.nextFlight (some flight) →
          after.process.deletions = state.process.deletions → after.erasures = state.erasures →
            Effect state action after
  | takeEffect {number : Nat} {flight : Flight} : state.flights number = some flight →
      flight.answer = none → Effect state (.execute number) (state.takeEffect number flight)
  | request {index : Nat} {after : Remote} (session : Session) : state.Apart after →
      after.flights = state.flights → after.erasures = state.erasures →
        after.process.deletions =
          Function.update state.process.deletions state.process.nextDeletion (some { session }) →
        session.isDestroyed after.process.heap = true → Effect state (.destroySession index) after
  | grant {index : Nat} {after : Remote} (deletion : Deletion) (target : Id) : state.Apart after →
      after.flights = state.flights → after.erasures = state.erasures →
        state.process.deletions index = some deletion → deletion.target = none →
          (deletion.session.shared state.process.heap).locked = false →
            (deletion.session.shared state.process.heap).uncertain = false →
              target = deletion.session.deletionTarget state.process.heap →
                after.process.deletions = Function.update state.process.deletions index
                  (some { deletion with target := some target }) →
                    Effect state (.grantDelete index) after
  | refuse {index : Nat} {after : Remote} (deletion : Deletion) : state.Apart after →
      after.flights = state.flights → after.erasures = state.erasures →
        state.process.deletions index = some deletion → deletion.target = none →
          after.process.deletions = Function.update state.process.deletions index none →
            Effect state (.grantDelete index) after
  | erase {index : Nat} {after : Remote} (deletion : Deletion) (target : Id) : state.Apart after →
      state.process.deletions index = some deletion → deletion.target = some target →
        after.flights = Function.update state.flights state.nextFlight
          (some { command := .delete target, family := some deletion.session.family }) →
            after.erasures = Function.update state.erasures index (some state.nextFlight) →
              after.process.deletions = state.process.deletions → Effect state (.erase index) after
  | forget {action : RemoteAction} {after : Remote} (index : Nat) : state.Apart after →
      after.flights = state.flights → after.erasures = Function.update state.erasures index none →
        after.process.deletions = Function.update state.process.deletions index none →
          Effect state action after

theorem Apart.of_eq {state after : Remote} (births : after.births = state.births)
    (reserved : after.reserved = state.reserved) (rows : after.rows = state.rows) :
    state.Apart after :=
  ⟨births, reserved, fun _ there => rows ▸ there⟩

end Remote

/-! ### The operations on deletions -/

namespace Process

variable {process : Process} {index : Nat}

theorem deletions_abandon (process : Process) (index : Nat) :
    (process.abandon index).deletions = process.deletions := by
  obtain ⟨heap, abandoned⟩ := process.abandon_eq index
  rw [abandoned]
  rfl

theorem deletions_dropDelete (process : Process) (index : Nat) :
    (process.dropDelete index).deletions = Function.update process.deletions index none := by
  obtain ⟨heap, dropped⟩ := process.dropDelete_eq index
  rw [dropped]
  rfl

end Process

namespace RemoteSound

open Remote

variable {store : RemoteStore} {idOf : Cookie → Option Id} {state after : Remote} {reply : Reply}
  {action : RemoteAction} {index : Nat}

/-! ### Storing -/

theorem effect_storeSession (step : state.storeSession index = some (reply, after)) :
    state.Effect action after := by
  obtain ⟨process, attempt, outcome⟩ := storeSession_cases step
  have deletions : process.deletions = state.process.deletions := by
    obtain ⟨_, _, ⟨_, _, _, rfl⟩ | ⟨_, _, _, _, rfl⟩⟩ := Process.attempt_cases attempt <;> rfl
  rcases outcome with ⟨_, _, rfl⟩ | ⟨_, rfl⟩ <;>
    exact .idle (.of_eq rfl rfl rfl) rfl deletions rfl

theorem effect_capture (step : state.capture store index = some (reply, after)) :
    state.Effect action after := by
  obtain ⟨_, _, _, _, ⟨_, _, rfl⟩ | ⟨process, captured, rfl⟩⟩ := capture_cases step
  · exact .idle (.of_eq rfl rfl rfl) rfl rfl rfl
  · refine .idle (.of_eq rfl rfl rfl) rfl ?_ rfl
    rcases captured with ⟨_, captured⟩ | ⟨_, _, captured⟩
    · obtain ⟨_, _, _, rfl⟩ := Process.captureImmutable_cases captured
      rfl
    · obtain ⟨_, _, _, _, rfl⟩ := Process.capturePersistence_cases captured
      rfl

theorem effect_beginWrite {now : DateTime}
    (step : state.beginWrite store index now = some (reply, after)) :
    state.Effect action after := by
  obtain ⟨_, _, _, process, _, _, _, acquire, _, outcome⟩ := beginWrite_cases step
  have deletions : process.deletions = state.process.deletions := by
    obtain ⟨_, _, _, _, ⟨_, _, _, _, rfl⟩ | ⟨_, _, _, _, rfl⟩⟩ := Process.acquire_cases acquire <;> rfl
  rcases outcome with ⟨_, _, rfl⟩ | ⟨_, rfl⟩ <;>
    exact .idle (.of_eq rfl rfl rfl) rfl deletions rfl

theorem effect_send (sound : RemoteSound idOf state)
    (step : state.send index = some (reply, after)) : state.Effect action after := by
  obtain ⟨save, found, _, ⟨command, next, running, ⟨existing, rfl⟩ | ⟨_, process, dispatch, rfl⟩⟩ |
    ⟨error, _, rfl⟩⟩ := send_cases step
  · refine .launch (save.flight command) (.of_eq rfl rfl rfl) rfl (fun id creates => ?_) rfl rfl rfl
    cases existing.symm.trans creates
  · obtain ⟨older, lookup, held, standing, stands, obeys⟩ := sound.calls index _ running
    obtain rfl := Option.some.inj (found.symm.trans lookup)
    obtain ⟨guard, guarded, _⟩ := held
    obtain ⟨_, _, rfl⟩ := Process.dispatch_cases dispatch
    refine .launch (save.flight command) (.of_eq rfl rfl rfl) rfl (fun id creates => ?_) rfl rfl rfl
    obtain ⟨same, new, unsent⟩ := obeys.1.creates creates stands
    exact ⟨index, save, guard, found, guarded, rfl, same, new, unsent⟩
  · refine .launch (save.flight (.delete save.source.id)) (.of_eq rfl rfl rfl) rfl
      (fun id creates => ?_) rfl rfl rfl
    cases creates

theorem effect_receive (step : state.receive index = some (reply, after)) :
    state.Effect action after := by
  obtain ⟨_, _, _, _, _, _, ⟨_, _, rfl⟩ | ⟨_, _, _, confirm, rfl⟩⟩ := receive_cases step
  · exact .idle (.of_eq rfl rfl rfl) rfl rfl rfl
  · obtain ⟨_, _, rfl⟩ := Process.confirmRemoved_cases confirm
    exact .idle (.of_eq rfl rfl rfl) rfl rfl rfl

theorem effect_check (step : state.check store index = some (reply, after)) :
    state.Effect action after := by
  obtain ⟨_, _, _, _, _, _, rfl⟩ := check_cases step
  exact .idle (.of_eq rfl rfl rfl) rfl rfl rfl

theorem effect_finish (step : state.finish store index = some (reply, after)) :
    state.Effect action after := by
  obtain ⟨_, ⟨_, _, _, finish, outcome⟩ | ⟨_, ⟨_, _, confirm, rfl⟩ | ⟨_, _, _, finish, outcome⟩⟩⟩ :=
    finish_cases step
  · obtain ⟨_, _, _, rfl⟩ := Process.finish_cases finish
    rcases outcome with ⟨_, _, _, cleanup, rfl⟩ | ⟨_, rfl⟩
    · obtain ⟨_, _, rfl⟩ := Process.requireCleanup_cases cleanup
      exact .idle (.of_eq rfl rfl rfl) rfl rfl rfl
    · exact .idle (.of_eq rfl rfl rfl) rfl rfl rfl
  · obtain ⟨_, _, rfl⟩ := Process.confirmRemoved_cases confirm
    exact .idle (.of_eq rfl rfl rfl) rfl rfl rfl
  · obtain ⟨_, _, _, rfl⟩ := Process.finish_cases finish
    rcases outcome with ⟨_, _, rfl⟩ | ⟨_, rfl⟩ <;> exact .idle (.of_eq rfl rfl rfl) rfl rfl rfl

/-- A call ends without success. -/
theorem effect_abandon (state : Remote) (index : Nat) : state.Effect action
    { state.setCall index none with process := state.process.abandon index } :=
  .idle (.of_eq rfl rfl rfl) rfl (Process.deletions_abandon _ _) rfl

theorem effect_complete (sound : RemoteSound idOf state)
    (step : state.complete index = some (reply, after)) : state.Effect action after := by
  obtain ⟨cookie, process, finished, complete, _, rfl⟩ | ⟨_, _, rfl⟩ := complete_cases step
  · obtain ⟨_, _, ⟨guard, guarded⟩, _⟩ := sound.calls index _ finished
    obtain ⟨_, _, _, _, _, rfl⟩ := Process.complete_of_guard guarded complete
    exact .idle (.of_eq rfl rfl rfl) rfl rfl rfl
  · exact effect_abandon state index

/-! ### Loading -/

theorem effect_read {cookie : Cookie} {now : DateTime}
    (step : state.read store idOf cookie now = some (reply, after)) :
    state.Effect action after := by
  rcases read_cases step with ⟨_, _, rfl⟩ | ⟨_, _, ⟨_, _, rfl⟩ | ⟨_, _, _, rfl⟩⟩ <;>
    exact .idle (.of_eq rfl rfl rfl) rfl rfl rfl

theorem effect_deliver {now : DateTime}
    (step : state.deliver idOf index now = some (reply, after)) : state.Effect action after := by
  obtain ⟨_, _, _, _, _, ⟨_, rfl⟩ | ⟨_, _, _, _, rfl⟩⟩ := deliver_cases step <;>
    exact .idle (.of_eq rfl rfl rfl) rfl rfl rfl

/-! ### Destroying -/

theorem effect_destroySession (step : state.destroySession index = some (reply, after)) :
    state.Effect (.destroySession index) after := by
  obtain ⟨process, request, rfl⟩ := destroySession_cases step
  obtain ⟨session, _, _, rfl⟩ := Process.requestDelete_cases request
  refine .request session (.of_eq rfl rfl rfl) rfl rfl rfl ?_
  exact congrArg Family.destroy (Heap.setFamily_self _ _ _)

theorem effect_grantDelete (step : state.grantDelete index = some (reply, after)) :
    state.Effect (.grantDelete index) after := by
  obtain ⟨process, grant, rfl⟩ := grantDelete_cases step
  obtain ⟨deletion, found, ungranted, free, ⟨_, _, _, rfl⟩ | ⟨target, heap, granted, _, rfl⟩⟩ :=
    Process.grantDelete_cases grant
  · exact .refuse deletion (.of_eq rfl rfl rfl) rfl rfl found ungranted rfl
  · obtain ⟨certain, rfl, selected⟩ := Session.beginDelete_ok granted
    have marker : deletion.session.persistedId (state.process.heap.lock deletion.session.family) =
        deletion.session.persistedId state.process.heap := by
      show ((state.process.heap.setFamily _ _).families _).persistedId = _
      rw [Heap.setFamily_self]
      rfl
    exact .grant deletion target (.of_eq rfl rfl rfl) rfl rfl found ungranted free certain
      (selected.trans (Session.deletionTarget_congr marker)) rfl

theorem effect_erase (step : state.erase index = some (reply, after)) :
    state.Effect (.erase index) after := by
  obtain ⟨deletion, target, found, granted, _, _, rfl⟩ := erase_cases step
  exact .erase deletion target (.of_eq rfl rfl rfl) found granted rfl rfl rfl

theorem effect_confirmErased (step : state.confirmErased index = some (reply, after)) :
    state.Effect action after := by
  obtain ⟨_, _, _, _, _, _, _, rfl⟩ := confirmErased_cases step
  exact .forget index (.of_eq rfl rfl rfl) rfl rfl (Process.deletions_dropDelete _ _)

theorem effect_cancelDestroy (step : state.cancelDestroy index = some (reply, after)) :
    state.Effect action after := by
  obtain ⟨_, _, _, rfl⟩ := cancelDestroy_cases step
  exact .forget index (.of_eq rfl rfl rfl) rfl rfl (Process.deletions_dropDelete _ _)

/-! ### Every step -/

theorem effect (sound : RemoteSound idOf state)
    (step : (remoteMachine store idOf).step state action = some (reply, after)) :
    state.Effect action after := by
  cases action with
  | handle action =>
    obtain ⟨process, handled, rfl⟩ := handle_cases step
    obtain ⟨_, _, _, _, rfl⟩ := Process.handleStep_eq handled
    exact .idle (.of_eq rfl rfl rfl) rfl rfl rfl
  | read cookie now => exact effect_read step
  | deliver index now => exact effect_deliver step
  | storeSession index => exact effect_storeSession step
  | capture index => exact effect_capture step
  | beginWrite index now => exact effect_beginWrite step
  | send index => exact sound.effect_send step
  | execute number =>
    obtain ⟨flight, found, unanswered, rfl⟩ := execute_cases step
    exact .takeEffect found unanswered
  | receive index => exact effect_receive step
  | check index => exact effect_check step
  | finish index => exact effect_finish step
  | complete index => exact sound.effect_complete step
  | fail index =>
    obtain ⟨_, _, _, rfl⟩ := fail_cases step
    exact effect_abandon state index
  | lose index =>
    obtain ⟨_, _, _, _, rfl⟩ := lose_cases step
    exact effect_abandon state index
  | cancelStore index =>
    obtain ⟨_, _, _, _, rfl⟩ := cancelStore_cases step
    exact effect_abandon state index
  | destroySession index => exact effect_destroySession step
  | grantDelete index => exact effect_grantDelete step
  | erase index => exact effect_erase step
  | confirmErased index => exact effect_confirmErased step
  | cancelDestroy index => exact effect_cancelDestroy step
  | clearStore =>
    cases step
    refine .launch { command := .clear } (.of_eq rfl rfl rfl) rfl (fun id creates => ?_) rfl rfl rfl
    cases creates
  | unlink ids =>
    cases step
    refine .launch { command := .unlink ids } (.of_eq rfl rfl rfl) rfl (fun id creates => ?_) rfl rfl
      rfl
    cases creates
  | expire id =>
    cases step
    refine .idle ⟨rfl, rfl, fun key there absent => ?_⟩ rfl rfl rfl
    have there : Function.update state.rows id none key ≠ none := there
    rw [Function.update_apply, absent, ite_self] at there
    exact there rfl

end RemoteSound

end Saysion
