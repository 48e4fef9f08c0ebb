/-
This file says once what each step of a process with a remote store does: which
phase its call is in, the operation of the process and the command it goes
through, and the state it leaves. What a step preserves, and what it does to the
backend, is argued from these lemmas.
-/

import Saysion.ProcessSteps
import Saysion.Remote

namespace Saysion.Remote

variable {store : RemoteStore} {idOf : Cookie → Option Id} {state after : Remote} {reply : Reply}
  {index number : Nat} {cookie : Cookie} {now : DateTime}

theorem handle_cases {action : HandleAction}
    (step : (remoteMachine store idOf).step state (.handle action) = some (reply, after)) :
    ∃ process, state.process.handleStep idOf action = some (reply, process) ∧
      after = { state with process } := by
  simp only [remoteMachine, Remote.step, Option.bind_eq_bind, Option.bind_eq_some_iff] at step
  obtain ⟨⟨answer, process⟩, handled, step⟩ := step
  cases step
  exact ⟨process, handled, rfl⟩

/-! ### Loading -/

theorem read_cases (step : state.read store idOf cookie now = some (reply, after)) :
    (idOf cookie = none ∧ reply = .error .cookieFormat ∧ after = state) ∨
      ∃ id, idOf cookie = some id ∧
        (((state.rows id).filter (store.selects now) = none ∧ reply = .missing ∧ after = state) ∨
          ∃ row, (state.rows id).filter (store.selects now) = some row ∧ reply = .done ∧
            after = { state with
              reads := Function.update state.reads state.nextRead (some (cookie, row.session))
              nextRead := state.nextRead + 1 }) := by
  unfold read at step
  split at step
  · rename_i malformed
    cases step
    exact Or.inl ⟨malformed, rfl, rfl⟩
  rename_i id bound
  refine Or.inr ⟨id, bound, ?_⟩
  split at step
  · rename_i absent
    cases step
    exact Or.inl ⟨absent, rfl, rfl⟩
  · rename_i row selected
    cases step
    exact Or.inr ⟨row, selected, rfl, rfl⟩

/-- The session of a row is validated in cells of its own, whatever comes of it. -/
theorem deliver_cases (step : state.deliver idOf index now = some (reply, after)) :
    ∃ cookie wire validated, state.reads index = some (cookie, wire) ∧
      (Session.deserialize state.process.heap wire).1.validateLoaded idOf
        (Session.deserialize state.process.heap wire).2 false cookie now = validated ∧
      ((((∃ error, validated = .error error ∧ reply = .error error) ∨
            validated = .ok none ∧ reply = .missing) ∧
          after = { state with
            process := { state.process with heap := (Session.deserialize state.process.heap wire).2 }
            reads := Function.update state.reads index none }) ∨
        ∃ loaded heap, validated = .ok (some (loaded, heap)) ∧
          reply = .handle state.process.nextHandle ∧
          after = { state with
            process := (state.process.see loaded.id).addHandle loaded heap
            reads := Function.update state.reads index none }) := by
  simp only [deliver, Option.bind_eq_bind, Option.bind_eq_some_iff] at step
  obtain ⟨⟨cookie, wire⟩, found, step⟩ := step
  refine ⟨cookie, wire, _, found, rfl, ?_⟩
  split at step
  · rename_i error refused
    cases step
    exact Or.inl ⟨Or.inl ⟨error, refused, rfl⟩, rfl⟩
  · rename_i expired
    cases step
    exact Or.inl ⟨Or.inr ⟨expired, rfl⟩, rfl⟩
  · rename_i loaded heap valid
    cases step
    exact Or.inr ⟨loaded, heap, valid, rfl, rfl⟩

/-! ### Storing -/

theorem storeSession_cases (step : state.storeSession index = some (reply, after)) :
    ∃ process, state.process.attempt index = some (reply, process) ∧
      ((∃ error, reply = .error error ∧ after = { state with process }) ∨
        reply = .save state.process.nextSave ∧
          after = { state.setCall state.process.nextSave (some .attempted) with process }) := by
  simp only [storeSession, Option.bind_eq_bind, Option.bind_eq_some_iff] at step
  obtain ⟨⟨answer, process⟩, attempt, step⟩ := step
  obtain ⟨_, _, ⟨error, _, rfl, _⟩ | ⟨_, _, _, rfl, _⟩⟩ := Process.attempt_cases attempt
  · cases step
    exact ⟨process, attempt, Or.inl ⟨error, rfl, rfl⟩⟩
  · cases step
    exact ⟨process, attempt, Or.inr ⟨rfl, rfl⟩⟩

/-- A store with tokens captures an immutable snapshot, the others one with cells of its own. -/
theorem capture_cases (step : state.capture store index = some (reply, after)) :
    ∃ save, state.calls index = some .attempted ∧ state.process.saves index = some save ∧
      reply = .done ∧
      ((store.rechecksDestroyed = true ∧ save.source.isDestroyed state.process.heap = true ∧
          after = state.setCall index (some (.failed .sessionConflict))) ∨
        ∃ process,
          (store.tokens = true ∧ state.process.captureImmutable index = some process ∨
            store.tokens = false ∧
              ∃ snapshot, state.process.capturePersistence index = some (snapshot, process)) ∧
          after = { state.setCall index (some .captured) with process }) := by
  unfold capture at step
  split at step
  swap
  · cases step
  rename_i attempted
  simp only [Option.bind_eq_bind, Option.bind_eq_some_iff] at step
  obtain ⟨save, found, step⟩ := step
  refine ⟨save, attempted, found, ?_⟩
  split at step
  · rename_i destroyed
    cases step
    exact ⟨rfl, Or.inl ⟨destroyed.1, destroyed.2, rfl⟩⟩
  split at step
  · rename_i tokens
    obtain ⟨process, captured, step⟩ := Option.bind_eq_some_iff.mp step
    cases step
    exact ⟨rfl, Or.inr ⟨process, Or.inl ⟨tokens, captured⟩, rfl⟩⟩
  · rename_i native
    obtain ⟨⟨snapshot, process⟩, captured, step⟩ := Option.bind_eq_some_iff.mp step
    cases step
    exact ⟨rfl, Or.inr ⟨process, Or.inr ⟨Bool.eq_false_iff.mpr native, snapshot, captured⟩, rfl⟩⟩

theorem beginWrite_cases (step : state.beginWrite store index now = some (reply, after)) :
    ∃ save snapshot result process, state.calls index = some .captured ∧
      state.process.saves index = some save ∧ save.snapshot = some snapshot ∧
      state.process.acquire index (if store.tokens then some index else none) true =
        some (result, process) ∧ reply = .done ∧
      ((∃ error, result = .error error ∧
          after = { state.setCall index (some (.failed error)) with process }) ∨
        result = .ok () ∧ after = { state.setCall index
          (some (.running (store.write save.origin snapshot now))) with process }) := by
  unfold beginWrite at step
  split at step
  swap
  · cases step
  rename_i captured
  simp only [Option.bind_eq_bind, Option.bind_eq_some_iff] at step
  obtain ⟨save, found, snapshot, stored, ⟨result, process⟩, acquired, step⟩ := step
  refine ⟨save, snapshot, result, process, captured, found, stored, acquired, ?_⟩
  cases result with
  | error error =>
    cases step
    exact ⟨rfl, Or.inl ⟨error, rfl, rfl⟩⟩
  | ok _ =>
    cases step
    exact ⟨rfl, Or.inr ⟨rfl, rfl⟩⟩

/-- A creating command is dispatched; every other one is sent as it is. -/
theorem send_cases (step : state.send index = some (reply, after)) :
    ∃ save, state.process.saves index = some save ∧ reply = .done ∧
      ((∃ command next, state.calls index = some (.running (.send command next)) ∧
          ((command.creates = none ∧
              after = (state.launch (save.flight command)).setCall index
                (some (.waiting state.nextFlight next))) ∨
            command.creates ≠ none ∧ ∃ process, state.process.dispatch index = some process ∧
              after = { (state.launch (save.flight command)).setCall index
                (some (.waiting state.nextFlight next)) with process })) ∨
        ∃ error, state.calls index = some (.unremoved error) ∧
          after = (state.launch (save.flight (.delete save.source.id))).setCall index
            (some (.removing state.nextFlight error))) := by
  unfold send at step
  split at step
  · rename_i command next running
    simp only [Option.bind_eq_bind, Option.bind_eq_some_iff] at step
    obtain ⟨save, found, step⟩ := step
    refine ⟨save, found, ?_⟩
    split at step
    · rename_i existing
      cases step
      exact ⟨rfl, Or.inl ⟨command, next, running, Or.inl ⟨existing, rfl⟩⟩⟩
    · rename_i creating
      obtain ⟨process, dispatched, step⟩ := Option.bind_eq_some_iff.mp step
      cases step
      exact ⟨rfl, Or.inl ⟨command, next, running, Or.inr ⟨creating, process, dispatched, rfl⟩⟩⟩
  · rename_i error unremoved
    simp only [Option.bind_eq_bind, Option.bind_eq_some_iff] at step
    obtain ⟨save, found, step⟩ := step
    cases step
    exact ⟨save, found, rfl, Or.inr ⟨error, unremoved, rfl⟩⟩
  · cases step

theorem execute_cases (step : state.execute number = some (reply, after)) :
    ∃ flight, state.flights number = some flight ∧ flight.answer = none ∧
      after = state.takeEffect number flight := by
  simp only [execute, Option.bind_eq_bind, Option.bind_eq_some_iff] at step
  obtain ⟨flight, found, step⟩ := step
  split at step
  · rename_i unanswered
    cases step
    exact ⟨flight, found, unanswered, rfl⟩
  · cases step

/-- The program goes on with the answer; that a compensation was removed is confirmed. -/
theorem receive_cases (step : state.receive index = some (reply, after)) :
    ∃ number flight answer, state.flights number = some flight ∧ flight.answer = some answer ∧
      reply = .done ∧
      ((∃ next, state.calls index = some (.waiting number next) ∧
          after = state.setCall index (some (.running (next answer)))) ∨
        ∃ error process, state.calls index = some (.removing number error) ∧
          state.process.confirmRemoved index = some process ∧
          after = { state.setCall index (some (.failed error)) with process }) := by
  unfold receive at step
  split at step
  · rename_i number next waiting
    simp only [Option.bind_eq_bind, Option.bind_eq_some_iff] at step
    obtain ⟨flight, sent, answer, answered, step⟩ := step
    cases step
    exact ⟨number, flight, answer, sent, answered, rfl, Or.inl ⟨next, waiting, rfl⟩⟩
  · rename_i number error removing
    simp only [Option.bind_eq_bind, Option.bind_eq_some_iff] at step
    obtain ⟨flight, sent, answer, answered, process, confirmed, step⟩ := step
    cases step
    exact ⟨number, flight, answer, sent, answered, rfl,
      Or.inr ⟨error, process, removing, confirmed, rfl⟩⟩
  · cases step

theorem check_cases (step : state.check store index = some (reply, after)) :
    ∃ guard, state.calls index = some (.running .written) ∧
      state.process.guards index = some guard ∧ store.tokens = true ∧
      guard.isDestroyed state.process.heap = true ∧ reply = .done ∧
      after = state.setCall index (some (.unremoved .sessionConflict)) := by
  unfold check at step
  split at step
  swap
  · cases step
  rename_i written
  simp only [Option.bind_eq_bind, Option.bind_eq_some_iff] at step
  obtain ⟨guard, guarded, step⟩ := step
  split at step
  · rename_i destroyed
    cases step
    exact ⟨guard, written, guarded, destroyed.1, destroyed.2, rfl, rfl⟩
  · cases step

/-- A written row is kept, or has to be removed; a revoked write is over. -/
theorem finish_cases (step : state.finish store index = some (reply, after)) :
    reply = .done ∧
    ((state.calls index = some (.running .written) ∧ ∃ result finished,
        state.process.finish index = some (result, finished) ∧
        ((∃ error process, result = .error error ∧ finished.requireCleanup index = some process ∧
            after = { state.setCall index
              (some (if store.tokens then .failed error else .unremoved error)) with process }) ∨
          result = .ok () ∧
            after = { state.setCall index (some .finished) with process := finished })) ∨
      state.calls index = some (.running .revoked) ∧
        ((store.tokens = true ∧ ∃ process, state.process.confirmRemoved index = some process ∧
            after = { state.setCall index (some .expired) with process }) ∨
          store.tokens = false ∧ ∃ result process,
            state.process.finish index = some (result, process) ∧
            ((∃ error, result = .error error ∧
                after = { state.setCall index (some (.failed error)) with process }) ∨
              result = .ok () ∧
                after = { state.setCall index (some .expired) with process }))) := by
  unfold finish at step
  split at step
  · rename_i written
    simp only [Option.bind_eq_bind, Option.bind_eq_some_iff] at step
    obtain ⟨⟨result, finished⟩, closed, step⟩ := step
    cases result with
    | error error =>
      obtain ⟨process, cleanup, step⟩ := Option.bind_eq_some_iff.mp step
      cases step
      exact ⟨rfl, Or.inl ⟨written, _, finished, closed, Or.inl ⟨error, process, rfl, cleanup, rfl⟩⟩⟩
    | ok _ =>
      cases step
      exact ⟨rfl, Or.inl ⟨written, _, finished, closed, Or.inr ⟨rfl, rfl⟩⟩⟩
  · rename_i revoked
    split at step
    · rename_i tokens
      simp only [Option.bind_eq_bind, Option.bind_eq_some_iff] at step
      obtain ⟨process, confirmed, step⟩ := step
      cases step
      exact ⟨rfl, Or.inr ⟨revoked, Or.inl ⟨tokens, process, confirmed, rfl⟩⟩⟩
    · rename_i native
      have native := Bool.eq_false_iff.mpr native
      simp only [Option.bind_eq_bind, Option.bind_eq_some_iff] at step
      obtain ⟨⟨result, process⟩, closed, step⟩ := step
      cases result with
      | error error =>
        cases step
        exact ⟨rfl, Or.inr ⟨revoked, Or.inr ⟨native, _, process, closed,
          Or.inl ⟨error, rfl, rfl⟩⟩⟩⟩
      | ok _ =>
        cases step
        exact ⟨rfl, Or.inr ⟨revoked, Or.inr ⟨native, _, process, closed, Or.inr ⟨rfl, rfl⟩⟩⟩⟩
  · cases step

theorem complete_cases (step : state.complete index = some (reply, after)) :
    (∃ cookie process, state.calls index = some .finished ∧
      state.process.complete index = some (cookie, process) ∧ reply = .cookie cookie ∧
      after = { state.setCall index none with process }) ∨
    (state.calls index = some .expired ∧ reply = .cookie none ∧
      after = { state.setCall index none with process := state.process.abandon index }) := by
  unfold complete at step
  split at step
  · rename_i finished
    simp only [Option.bind_eq_bind, Option.bind_eq_some_iff] at step
    obtain ⟨⟨cookie, process⟩, completed, step⟩ := step
    cases step
    exact Or.inl ⟨cookie, process, finished, completed, rfl, rfl⟩
  · rename_i expired
    cases step
    exact Or.inr ⟨expired, rfl, rfl⟩
  · cases step

theorem fail_cases (step : state.fail index = some (reply, after)) :
    ∃ error, (state.calls index = some (.running (.failed error)) ∨
      state.calls index = some (.failed error)) ∧ reply = .error error ∧
      after = { state.setCall index none with process := state.process.abandon index } := by
  unfold fail at step
  split at step
  · rename_i error failed
    cases step
    exact ⟨error, Or.inl failed, rfl, rfl⟩
  · rename_i error failed
    cases step
    exact ⟨error, Or.inr failed, rfl, rfl⟩
  · cases step

/-- A call loses a command that it is about to send, or that it waits for. -/
theorem lose_cases (step : state.lose index = some (reply, after)) :
    ∃ phase, state.calls index = some phase ∧
      ((∃ command next, phase = .running (.send command next)) ∨
        (∃ number next, phase = .waiting number next) ∨ (∃ error, phase = .unremoved error) ∨
          ∃ number error, phase = .removing number error) ∧
      reply = .error .backend ∧
      after = { state.setCall index none with process := state.process.abandon index } := by
  unfold lose at step
  split at step
  · rename_i command next running
    cases step
    exact ⟨_, running, Or.inl ⟨command, next, rfl⟩, rfl, rfl⟩
  · rename_i number next waiting
    cases step
    exact ⟨_, waiting, Or.inr (Or.inl ⟨number, next, rfl⟩), rfl, rfl⟩
  · rename_i error unremoved
    cases step
    exact ⟨_, unremoved, Or.inr (Or.inr (Or.inl ⟨error, rfl⟩)), rfl, rfl⟩
  · rename_i number error removing
    cases step
    exact ⟨_, removing, Or.inr (Or.inr (Or.inr ⟨number, error, rfl⟩)), rfl, rfl⟩
  · cases step

/-- A call is dropped once it has captured, unless it was finished or has failed. -/
theorem cancelStore_cases (step : state.cancelStore index = some (reply, after)) :
    ∃ phase, state.calls index = some phase ∧
      (phase = .captured ∨ (∃ program, phase = .running program) ∨
        (∃ number next, phase = .waiting number next) ∨ (∃ error, phase = .unremoved error) ∨
          ∃ number error, phase = .removing number error) ∧
      reply = .done ∧
      after = { state.setCall index none with process := state.process.abandon index } := by
  unfold cancelStore at step
  split at step
  · rename_i captured
    cases step
    exact ⟨_, captured, Or.inl rfl, rfl, rfl⟩
  · rename_i program running
    cases step
    exact ⟨_, running, Or.inr (Or.inl ⟨program, rfl⟩), rfl, rfl⟩
  · rename_i number next waiting
    cases step
    exact ⟨_, waiting, Or.inr (Or.inr (Or.inl ⟨number, next, rfl⟩)), rfl, rfl⟩
  · rename_i error unremoved
    cases step
    exact ⟨_, unremoved, Or.inr (Or.inr (Or.inr (Or.inl ⟨error, rfl⟩))), rfl, rfl⟩
  · rename_i number error removing
    cases step
    exact ⟨_, removing, Or.inr (Or.inr (Or.inr (Or.inr ⟨number, error, rfl⟩))), rfl, rfl⟩
  · cases step

/-! ### Destroying -/

theorem destroySession_cases (step : state.destroySession index = some (reply, after)) :
    ∃ process, state.process.requestDelete index = some (reply, process) ∧
      after = { state with process := process.dropHandle index } := by
  simp only [destroySession, Option.bind_eq_bind, Option.bind_eq_some_iff] at step
  obtain ⟨⟨answer, process⟩, requested, step⟩ := step
  cases step
  exact ⟨process, requested, rfl⟩

theorem grantDelete_cases (step : state.grantDelete index = some (reply, after)) :
    ∃ process, state.process.grantDelete index = some (reply, process) ∧
      after = { state with process } := by
  simp only [grantDelete, Option.bind_eq_bind, Option.bind_eq_some_iff] at step
  obtain ⟨⟨answer, process⟩, granted, step⟩ := step
  cases step
  exact ⟨process, granted, rfl⟩

theorem erase_cases (step : state.erase index = some (reply, after)) :
    ∃ deletion target, state.process.deletions index = some deletion ∧
      deletion.target = some target ∧ state.erasures index = none ∧ reply = .done ∧
      after = { state.launch
          { command := .delete target, family := some deletion.session.family } with
        erasures := Function.update state.erasures index (some state.nextFlight) } := by
  simp only [erase, Option.bind_eq_bind, Option.bind_eq_some_iff] at step
  obtain ⟨deletion, found, target, granted, step⟩ := step
  split at step
  · rename_i unsent
    cases step
    exact ⟨deletion, target, found, granted, unsent, rfl, rfl⟩
  · cases step

theorem confirmErased_cases (step : state.confirmErased index = some (reply, after)) :
    ∃ number flight answer, state.erasures index = some number ∧
      state.flights number = some flight ∧ flight.answer = some answer ∧ reply = .done ∧
      after = { state with
        process := state.process.dropDelete index
        erasures := Function.update state.erasures index none } := by
  simp only [confirmErased, Option.bind_eq_bind, Option.bind_eq_some_iff] at step
  obtain ⟨number, sent, flight, found, answer, answered, step⟩ := step
  cases step
  exact ⟨number, flight, answer, sent, found, answered, rfl, rfl⟩

theorem cancelDestroy_cases (step : state.cancelDestroy index = some (reply, after)) :
    ∃ deletion, state.process.deletions index = some deletion ∧ reply = .done ∧
      after = { state with
        process := state.process.dropDelete index
        erasures := Function.update state.erasures index none } := by
  simp only [cancelDestroy, Option.bind_eq_bind, Option.bind_eq_some_iff] at step
  obtain ⟨deletion, found, step⟩ := step
  cases step
  exact ⟨deletion, found, rfl, rfl⟩

end Saysion.Remote
