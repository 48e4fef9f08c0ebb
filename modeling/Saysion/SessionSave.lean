/-
This file models the public save protocol: handles, `SessionSave` tokens, their
write guards, and coordinated deletion, as one machine. Any number of tasks act
on it, and each action is what one call does between two awaits. `begin_write`
and `begin_delete` are split where they wait for the lifecycle mutex.

The pieces of a store's own `store_session` are actions too, in any order, so
that whatever a store does with the handles of a family is among the runs.
-/

import Saysion.Coordination
import Saysion.Machine

namespace Saysion

/-- What the tasks of an application may do. The second argument of `completeWithGuard` and
`confirmRemoved` is the guard that is passed, which need not be the token's own. -/
inductive SaveAction
  | handle (action : HandleAction)
  | deserialize (wire : SessionSnapshot)
  | validateLoaded (index : Nat) (cookie : Cookie) (now : DateTime)
  | prepareSave (index : Nat)
  | validateCurrent (index : Nat)
  | beginWrite (index : Nat)
  | acquireWrite (index : Nat)
  | cancelWrite (index : Nat)
  | completeWithGuard (index guard : Nat)
  | confirmRemoved (index guard : Nat)
  | complete (index : Nat)
  | dropSave (index : Nat)
  | dropGuard (index : Nat)
  | prepareDelete (index : Nat)
  | beginDelete (index : Nat)
  | grantDelete (index : Nat)
  | dropDelete (index : Nat)
  | storeAttempt (index : Nat)
  | storeCapture (index : Nat)
  | storeAcquire (index : Nat) (canOutliveFuture : Bool)
  | storeFinish (index : Nat)
  | storeRequireCleanup (index : Nat)
  | storeConfirmRemoved (index : Nat)
  | storeComplete (index : Nat)
  deriving DecidableEq

namespace Process

/-! ### Loading -/

/-- Whether the data cell of a handle has an owner besides the handle: another handle, a save, or
a captured revision. -/
def aliased (process : Process) (index : Nat) (data : Ref) : Bool :=
  (List.range process.nextHandle).any (fun key =>
    key ≠ index && (process.handles key).any fun session => session.data = data) ||
  (List.range process.nextSave).any fun key =>
    (process.saves key).any fun save =>
      save.source.data = data || save.revision.any fun revision => revision.data = data

/-- `validate_loaded` consumes its handle. -/
def validateLoaded (idOf : Cookie → Option Id) (process : Process) (index : Nat) (cookie : Cookie)
    (now : DateTime) : Option (Reply × Process) := do
  let session ← process.handles index
  let rest := process.dropHandle index
  match session.validateLoaded idOf process.heap (process.aliased index session.data) cookie now with
  | .error error => return (.error error, rest)
  | .ok none => return (.missing, rest)
  | .ok (some (loaded, heap)) =>
    return (.handle process.nextHandle, (rest.see loaded.id).addHandle loaded heap)

/-! ### Tokens -/

/-- `SessionSave::new`. -/
def prepareSave (process : Process) (index : Nat) : Option (Reply × Process) := do
  let (reply, attempted) ← process.attempt index
  match reply with
  | .save token =>
    let captured ← attempted.captureImmutable token
    return (.save token, captured)
  | refused => return (refused, attempted)

/-- `SessionSave::validate_current`, which changes nothing. -/
def validateCurrent (process : Process) (index : Nat) : Option (Reply × Process) := do
  let save ← process.saves index
  if save.source.isDestroyed process.heap then return (.error .sessionConflict, process)
  else if save.origin = none then return (.done, process)
  else
    match save.source.persistenceOrigin process.heap with
    | .error error => return (.error error, process)
    | .ok current =>
      return (if current = save.origin then .done else .error .sessionConflict, process)

/-- `SessionSave::begin_write` up to the mutex. A token permits one guarded attempt. -/
def beginWrite (process : Process) (index : Nat) : Option (Reply × Process) := do
  let save ← process.saves index
  if save.writeStarted then return (.error .sessionConflict, process)
  else
    return (.done,
      process.setSave index (some { save with writeStarted := true, waiting := true }))

/-- The end of the waiting, whether it was granted, refused or cancelled. -/
def stopWaiting (process : Process) (index : Nat) (save : Save) : Process :=
  process.setSave index (some { save with waiting := false })

/-- `SessionSave::begin_write` from the mutex on. -/
def acquireWrite (process : Process) (index : Nat) : Option (Reply × Process) := do
  let save ← process.saves index
  if save.waiting then
    let (result, acquired) ← (process.stopWaiting index save).acquire index (some index) true
    match result with
    | .error error => return (.error error, acquired)
    | .ok () => return (.done, acquired)
  else none

/-- The `begin_write` future is dropped while it waits. -/
def cancelWrite (process : Process) (index : Nat) : Option (Reply × Process) := do
  let save ← process.saves index
  if save.waiting then return (.done, process.stopWaiting index save) else none

/-- `SessionSave::complete_with_guard`. The token and the guard are consumed in every case. -/
def completeWithGuard (process : Process) (index guardIndex : Nat) : Option (Reply × Process) := do
  let save ← process.saves index
  let guard ← process.guards guardIndex
  if save.waiting then none
  else if !guard.isFor index then
    return (.error .sessionConflict, (process.dropGuard guardIndex).dropSave index)
  else
    let (result, finished) ← process.finish guardIndex
    match result with
    | .error error =>
      let fenced ← finished.requireCleanup guardIndex
      return (.error error, (fenced.dropGuard guardIndex).dropSave index)
    | .ok () =>
      let (cookie, acknowledged) ← finished.acknowledge index
      return (.cookie cookie, acknowledged.dropGuard guardIndex)

/-- `SessionSave::confirm_removed`. -/
def confirmRemovedWith (process : Process) (index guardIndex : Nat) :
    Option (Reply × Process) := do
  let save ← process.saves index
  let guard ← process.guards guardIndex
  if save.waiting then none
  else if !guard.isFor index then
    return (.error .sessionConflict, (process.dropGuard guardIndex).dropSave index)
  else
    let confirmed ← process.confirmRemoved guardIndex
    return (.done, (confirmed.dropGuard guardIndex).dropSave index)

/-- `SessionSave::complete`, without a guard. -/
def completeUnguarded (process : Process) (index : Nat) : Option (Reply × Process) := do
  let save ← process.saves index
  if save.waiting then none
  else if save.source.isDestroyed process.heap || save.writeStarted then
    return (.cookie none, process.dropSave index)
  else
    let (cookie, acknowledged) ← process.acknowledge index
    return (.cookie cookie, acknowledged)

/-- A token is dropped; a future that borrows it is gone by then. -/
def dropToken (process : Process) (index : Nat) : Option (Reply × Process) := do
  let save ← process.saves index
  if save.waiting then none else return (.done, process.dropSave index)

/-- `prepare_delete`. -/
def prepareDelete (process : Process) (index : Nat) : Option (Reply × Process) := do
  let session ← process.handles index
  return (.target (session.deletionTarget process.heap),
    { process with heap := session.destroy process.heap })

def finishReply : Except Error Unit × Process → Reply × Process
  | (.error error, process) => (.error error, process)
  | (.ok (), process) => (.done, process)

def saveStep (idOf : Cookie → Option Id) (process : Process) :
    SaveAction → Option (Reply × Process)
  | .handle action => process.handleStep idOf action
  | .deserialize wire => some (.handle process.nextHandle, process.deserialize wire)
  | .validateLoaded index cookie now => process.validateLoaded idOf index cookie now
  | .prepareSave index => process.prepareSave index
  | .validateCurrent index => process.validateCurrent index
  | .beginWrite index => process.beginWrite index
  | .acquireWrite index => process.acquireWrite index
  | .cancelWrite index => process.cancelWrite index
  | .completeWithGuard index guard => process.completeWithGuard index guard
  | .confirmRemoved index guard => process.confirmRemovedWith index guard
  | .complete index => process.completeUnguarded index
  | .dropSave index => process.dropToken index
  | .dropGuard index => (process.guards index).map fun _ => (.done, process.dropGuard index)
  | .prepareDelete index => process.prepareDelete index
  | .beginDelete index => process.requestDelete index
  | .grantDelete index => process.grantDelete index
  | .dropDelete index => (process.deletions index).map fun _ => (.done, process.dropDelete index)
  | .storeAttempt index => process.attempt index
  | .storeCapture index => (process.capturePersistence index).map fun captured => (.done, captured.2)
  | .storeAcquire index canOutliveFuture =>
    (process.acquire index none canOutliveFuture).map finishReply
  | .storeFinish index => (process.finish index).map finishReply
  | .storeRequireCleanup index => (process.requireCleanup index).map fun after => (.done, after)
  | .storeConfirmRemoved index => (process.confirmRemoved index).map fun after => (.done, after)
  | .storeComplete index => do
    let guard ← process.guards index
    if guard.settled then
      let (cookie, completed) ← process.complete index
      return (.cookie cookie, completed)
    else none

/-! ### What an action did -/

section Cases

variable {idOf : Cookie → Option Id} {process after : Process} {reply : Reply}
  {index guardIndex : Nat}

theorem validateLoaded_cases {cookie : Cookie} {now : DateTime}
    (step : process.validateLoaded idOf index cookie now = some (reply, after)) :
    ∃ session validated, process.handles index = some session ∧
      session.validateLoaded idOf process.heap (process.aliased index session.data) cookie now =
        validated ∧
      ((((∃ error, validated = .error error ∧ reply = .error error) ∨
            validated = .ok none ∧ reply = .missing) ∧ after = process.dropHandle index) ∨
        ∃ loaded heap, validated = .ok (some (loaded, heap)) ∧
          reply = .handle process.nextHandle ∧
          after = ((process.dropHandle index).see loaded.id).addHandle loaded heap) := by
  simp only [validateLoaded, Option.bind_eq_bind, Option.bind_eq_some_iff] at step
  obtain ⟨session, found, step⟩ := step
  refine ⟨session, _, found, rfl, ?_⟩
  split at step
  · rename_i error refused
    cases step
    exact Or.inl ⟨Or.inl ⟨error, refused, rfl⟩, rfl⟩
  · rename_i expired
    cases step
    exact Or.inl ⟨Or.inr ⟨expired, rfl⟩, rfl⟩
  · rename_i loaded heap valid
    cases step
    exact Or.inr ⟨loaded, heap, valid, rfl, rfl⟩

theorem prepareSave_cases (step : process.prepareSave index = some (reply, after)) :
    ∃ attempted, process.attempt index = some (reply, attempted) ∧
      ((∃ token, reply = .save token ∧ attempted.captureImmutable token = some after) ∨
        (∃ error, reply = .error error) ∧ after = attempted) := by
  simp only [prepareSave, Option.bind_eq_bind, Option.bind_eq_some_iff] at step
  obtain ⟨⟨answer, attempted⟩, attempt, step⟩ := step
  obtain ⟨_, _, ⟨error, _, rfl, _⟩ | ⟨_, _, _, rfl, _⟩⟩ := attempt_cases attempt
  · cases step
    exact ⟨attempted, attempt, Or.inr ⟨⟨error, rfl⟩, rfl⟩⟩
  · obtain ⟨captured, capture, step⟩ := Option.bind_eq_some_iff.mp step
    cases step
    exact ⟨attempted, attempt, Or.inl ⟨_, rfl, capture⟩⟩

theorem validateCurrent_eq (step : process.validateCurrent index = some (reply, after)) :
    after = process := by
  simp only [validateCurrent, Option.bind_eq_bind, Option.bind_eq_some_iff] at step
  obtain ⟨save, _, step⟩ := step
  split at step
  · cases step
    rfl
  split at step
  · cases step
    rfl
  · split at step <;> cases step <;> rfl

theorem beginWrite_cases (step : process.beginWrite index = some (reply, after)) :
    ∃ save, process.saves index = some save ∧
      ((save.writeStarted = true ∧ reply = .error .sessionConflict ∧ after = process) ∨
        save.writeStarted = false ∧ reply = .done ∧ after = process.setSave index
          (some { save with writeStarted := true, waiting := true })) := by
  simp only [beginWrite, Option.bind_eq_bind, Option.bind_eq_some_iff] at step
  obtain ⟨save, found, step⟩ := step
  refine ⟨save, found, ?_⟩
  split at step
  · rename_i started
    cases step
    exact Or.inl ⟨started, rfl, rfl⟩
  · rename_i first
    cases step
    exact Or.inr ⟨Bool.eq_false_iff.mpr first, rfl, rfl⟩

theorem acquireWrite_cases (step : process.acquireWrite index = some (reply, after)) :
    ∃ save result, process.saves index = some save ∧ save.waiting = true ∧
      (process.stopWaiting index save).acquire index (some index) true = some (result, after) ∧
      ((∃ error, result = .error error ∧ reply = .error error) ∨
        result = .ok () ∧ reply = .done) := by
  simp only [acquireWrite, Option.bind_eq_bind, Option.bind_eq_some_iff] at step
  obtain ⟨save, found, step⟩ := step
  split at step
  · rename_i waiting
    obtain ⟨⟨result, acquired⟩, acquire, step⟩ := Option.bind_eq_some_iff.mp step
    cases result with
    | error error =>
      cases step
      exact ⟨save, _, found, waiting, acquire, Or.inl ⟨error, rfl, rfl⟩⟩
    | ok _ =>
      cases step
      exact ⟨save, _, found, waiting, acquire, Or.inr ⟨rfl, rfl⟩⟩
  · cases step

theorem cancelWrite_cases (step : process.cancelWrite index = some (reply, after)) :
    ∃ save, process.saves index = some save ∧ save.waiting = true ∧ reply = .done ∧
      after = process.stopWaiting index save := by
  simp only [cancelWrite, Option.bind_eq_bind, Option.bind_eq_some_iff] at step
  obtain ⟨save, found, step⟩ := step
  split at step
  · rename_i waiting
    cases step
    exact ⟨save, found, waiting, rfl, rfl⟩
  · cases step

/-- A token is completed under its own guard, unless its family was destroyed; a foreign guard is
dropped with it. -/
theorem completeWithGuard_cases
    (step : process.completeWithGuard index guardIndex = some (reply, after)) :
    ∃ save guard, process.saves index = some save ∧ process.guards guardIndex = some guard ∧
      save.waiting = false ∧
      ((guard.receipt ≠ some index ∧ reply = .error .sessionConflict ∧
          after = (process.dropGuard guardIndex).dropSave index) ∨
        guard.receipt = some index ∧ ∃ result finished,
          process.finish guardIndex = some (result, finished) ∧
          ((∃ error fenced, result = .error error ∧ reply = .error error ∧
              finished.requireCleanup guardIndex = some fenced ∧
              after = (fenced.dropGuard guardIndex).dropSave index) ∨
            ∃ cookie acknowledged, result = .ok () ∧ reply = .cookie cookie ∧
              finished.acknowledge index = some (cookie, acknowledged) ∧
              after = acknowledged.dropGuard guardIndex)) := by
  simp only [completeWithGuard, Option.bind_eq_bind, Option.bind_eq_some_iff] at step
  obtain ⟨save, found, guard, guarded, step⟩ := step
  split at step
  · cases step
  rename_i idle
  refine ⟨save, guard, found, guarded, Bool.eq_false_iff.mpr idle, ?_⟩
  split at step
  · rename_i foreign
    cases step
    exact Or.inl ⟨by simpa [WriteGuard.isFor] using foreign, rfl, rfl⟩
  rename_i matching
  obtain ⟨⟨result, finished⟩, finish, step⟩ := Option.bind_eq_some_iff.mp step
  refine Or.inr ⟨by simpa [WriteGuard.isFor] using matching, result, finished, finish, ?_⟩
  cases result with
  | error error =>
    obtain ⟨fenced, cleanup, step⟩ := Option.bind_eq_some_iff.mp step
    cases step
    exact Or.inl ⟨error, fenced, rfl, rfl, cleanup, rfl⟩
  | ok _ =>
    obtain ⟨⟨cookie, acknowledged⟩, acknowledge, step⟩ := Option.bind_eq_some_iff.mp step
    cases step
    exact Or.inr ⟨cookie, acknowledged, rfl, rfl, acknowledge, rfl⟩

theorem confirmRemovedWith_cases
    (step : process.confirmRemovedWith index guardIndex = some (reply, after)) :
    ∃ save guard, process.saves index = some save ∧ process.guards guardIndex = some guard ∧
      save.waiting = false ∧
      ((guard.receipt ≠ some index ∧ reply = .error .sessionConflict ∧
          after = (process.dropGuard guardIndex).dropSave index) ∨
        guard.receipt = some index ∧ reply = .done ∧ ∃ confirmed,
          process.confirmRemoved guardIndex = some confirmed ∧
          after = (confirmed.dropGuard guardIndex).dropSave index) := by
  simp only [confirmRemovedWith, Option.bind_eq_bind, Option.bind_eq_some_iff] at step
  obtain ⟨save, found, guard, guarded, step⟩ := step
  split at step
  · cases step
  rename_i idle
  refine ⟨save, guard, found, guarded, Bool.eq_false_iff.mpr idle, ?_⟩
  split at step
  · rename_i foreign
    cases step
    exact Or.inl ⟨by simpa [WriteGuard.isFor] using foreign, rfl, rfl⟩
  · rename_i matching
    obtain ⟨confirmed, confirm, step⟩ := Option.bind_eq_some_iff.mp step
    cases step
    exact Or.inr ⟨by simpa [WriteGuard.isFor] using matching, rfl, confirmed, confirm, rfl⟩

/-- Without a guard a token is completed, or dropped when its family was destroyed or its guarded
attempt was used. -/
theorem completeUnguarded_cases (step : process.completeUnguarded index = some (reply, after)) :
    ∃ save, process.saves index = some save ∧ save.waiting = false ∧
      (((save.source.isDestroyed process.heap || save.writeStarted) = true ∧
          reply = .cookie none ∧ after = process.dropSave index) ∨
        (save.source.isDestroyed process.heap || save.writeStarted) = false ∧
          ∃ cookie, reply = .cookie cookie ∧
            process.acknowledge index = some (cookie, after)) := by
  simp only [completeUnguarded, Option.bind_eq_bind, Option.bind_eq_some_iff] at step
  obtain ⟨save, found, step⟩ := step
  split at step
  · cases step
  rename_i idle
  refine ⟨save, found, Bool.eq_false_iff.mpr idle, ?_⟩
  split at step
  · rename_i refused
    cases step
    exact Or.inl ⟨refused, rfl, rfl⟩
  · rename_i allowed
    obtain ⟨⟨cookie, acknowledged⟩, acknowledge, step⟩ := Option.bind_eq_some_iff.mp step
    cases step
    exact Or.inr ⟨Bool.eq_false_iff.mpr allowed, cookie, rfl, acknowledge⟩

theorem dropToken_cases (step : process.dropToken index = some (reply, after)) :
    ∃ save, process.saves index = some save ∧ save.waiting = false ∧ reply = .done ∧
      after = process.dropSave index := by
  simp only [dropToken, Option.bind_eq_bind, Option.bind_eq_some_iff] at step
  obtain ⟨save, found, step⟩ := step
  split at step
  · cases step
  · rename_i idle
    cases step
    exact ⟨save, found, Bool.eq_false_iff.mpr idle, rfl, rfl⟩

theorem prepareDelete_cases (step : process.prepareDelete index = some (reply, after)) :
    ∃ session, process.handles index = some session ∧
      reply = .target (session.deletionTarget process.heap) ∧
      after = { process with heap := session.destroy process.heap } := by
  simp only [prepareDelete, Option.bind_eq_bind, Option.bind_eq_some_iff] at step
  obtain ⟨session, found, step⟩ := step
  cases step
  exact ⟨session, found, rfl, rfl⟩

/-- Where an action answers what an operation answers, it leaves what the operation leaves. -/
theorem finishReply_cases {outcome : Option (Except Error Unit × Process)}
    (step : outcome.map finishReply = some (reply, after)) :
    ∃ result, outcome = some (result, after) ∧
      ((∃ error, result = .error error ∧ reply = .error error) ∨
        result = .ok () ∧ reply = .done) := by
  obtain ⟨⟨result, finished⟩, answered, step⟩ := Option.map_eq_some_iff.mp step
  cases result with
  | error error =>
    cases step
    exact ⟨_, answered, Or.inl ⟨error, rfl, rfl⟩⟩
  | ok _ =>
    cases step
    exact ⟨_, answered, Or.inr ⟨rfl, rfl⟩⟩

theorem storeComplete_cases
    (step : process.saveStep idOf (.storeComplete index) = some (reply, after)) :
    ∃ guard cookie, process.guards index = some guard ∧ guard.settled = true ∧
      reply = .cookie cookie ∧ process.complete index = some (cookie, after) := by
  simp only [saveStep, Option.bind_eq_bind, Option.bind_eq_some_iff] at step
  obtain ⟨guard, guarded, step⟩ := step
  split at step
  · rename_i settled
    obtain ⟨⟨cookie, completed⟩, complete, step⟩ := Option.bind_eq_some_iff.mp step
    cases step
    exact ⟨guard, cookie, guarded, settled, rfl, complete⟩
  · cases step

end Cases

/-! ### The moves of an action -/

end Process

/-- The one action that completes a save without its guard. -/
def SaveAction.unguarded : SaveAction → Bool
  | .complete _ => true
  | _ => false

/-- The kinds of moves an action may make: `store` belongs to stores, and only one action
completes without a guard. -/
def SaveAction.Allows (action : SaveAction) (kind : Process.Kind) : Prop :=
  kind ≠ .store ∧ (kind = .unguarded → action.unguarded = true)

namespace Process

variable {idOf : Cookie → Option Id} {process after : Process} {action : SaveAction} {reply : Reply}
  {index guardIndex : Nat}

theorem ordinary_allowed (action : SaveAction) : action.Allows .ordinary :=
  ⟨by simp, by simp⟩

theorem completion_allowed (action : SaveAction) : action.Allows .completion :=
  ⟨by simp, by simp⟩

theorem outside_allowed (action : SaveAction) : action.Allows .outside :=
  ⟨by simp, by simp⟩

/-- A loaded session is in a family of its own, whatever happened to the data cell. -/
theorem adopts_validateLoaded (process : Process) {session loaded : Session} {heap : Heap}
    {aliased : Bool} {cookie : Cookie} {now : DateTime} (data : session.data < process.heap.nextCell)
    (valid : session.validateLoaded idOf process.heap aliased cookie now =
      .ok (some (loaded, heap))) :
    process.Adopts loaded heap ∧ loaded.id = session.id := by
  unfold Session.validateLoaded at valid
  split at valid
  · cases valid
  split at valid
  · cases valid
  split at valid
  · cases valid
  split at valid
  · cases valid
  cases aliased with
  | true =>
    cases valid
    exact ⟨⟨le_rfl, Nat.lt_succ_self _, Nat.le_succ _, Nat.lt_succ_self _,
      fun ref old => Heap.allocFamily_of_lt _ _ old, Heap.allocFamily_self _ _, rfl, rfl⟩, rfl⟩
  | false =>
    cases valid
    exact ⟨⟨le_rfl, Nat.lt_succ_self _, le_rfl, data,
      fun ref old => Heap.allocFamily_of_lt _ _ old, Heap.allocFamily_self _ _, rfl, rfl⟩, rfl⟩

theorem validateLoaded_path {cookie : Cookie} {now : DateTime} (authority : Authority process)
    (step : process.validateLoaded idOf index cookie now = some (reply, after)) :
    Path idOf action.Allows process after := by
  obtain ⟨session, _, found, valid, outcome⟩ := validateLoaded_cases step
  have dropped : Path idOf action.Allows process (process.dropHandle index) :=
    (Moves.handle (handleStep_drop found)).path (ordinary_allowed action)
  rcases outcome with ⟨_, rfl⟩ | ⟨loaded, heap, rfl, _, rfl⟩
  · exact dropped
  · have adopts := (adopts_validateLoaded (process.dropHandle index)
      (authority.allocated session (.handle found)).2 valid).1
    exact dropped.trans ((Moves.trust adopts).path (outside_allowed action))

theorem prepareSave_path (step : process.prepareSave index = some (reply, after)) :
    Path idOf action.Allows process after := by
  obtain ⟨attempted, attempt, outcome⟩ := prepareSave_cases step
  have first : Path idOf action.Allows process attempted :=
    (Moves.attempt attempt).path (ordinary_allowed action)
  rcases outcome with ⟨token, _, capture⟩ | ⟨_, rfl⟩
  · exact first.trans ((Moves.captureImmutable capture).path (ordinary_allowed action))
  · exact first

theorem acquireWrite_path (step : process.acquireWrite index = some (reply, after)) :
    Path idOf action.Allows process after := by
  obtain ⟨save, result, found, _, acquire, _⟩ := acquireWrite_cases step
  have first : Path idOf action.Allows process (process.stopWaiting index save) :=
    (Moves.annotate save.writeStarted false found).path (ordinary_allowed action)
  exact first.trans ((Moves.acquire (Or.inr rfl) acquire).path (ordinary_allowed action))

/-- A token and a guard are dropped together, the guard first. -/
theorem dropBoth_path (process : Process) (index guardIndex : Nat) :
    Path idOf action.Allows process ((process.dropGuard guardIndex).dropSave index) :=
  ((Moves.dropGuard guardIndex).path (outside_allowed action)).trans
    ((Moves.dropSave index).path (outside_allowed action))

theorem completeWithGuard_path (locking : Locking process)
    (step : process.completeWithGuard index guardIndex = some (reply, after)) :
    Path idOf action.Allows process after := by
  obtain ⟨save, guard, found, guarded, _, ⟨_, _, rfl⟩ | ⟨own, result, finished, finish, outcome⟩⟩ :=
    completeWithGuard_cases step
  · exact process.dropBoth_path index guardIndex
  obtain rfl := locking.receipt guardIndex guard index guarded own
  have first : Path idOf action.Allows process finished :=
    (Moves.finish finish).path (ordinary_allowed action)
  rcases outcome with ⟨_, fenced, _, _, requireCleanup, rfl⟩ |
    ⟨cookie, acknowledged, _, _, acknowledge, rfl⟩
  · exact (first.trans ((Moves.requireCleanup requireCleanup).path (ordinary_allowed action))).trans
      (fenced.dropBoth_path index index)
  · obtain ⟨older, _, _, rfl⟩ := finish_cases finish
    have settled : (process.setGuard index (some { older with settled := true })).guards index =
        some { older with settled := true } := Function.update_self _ _ _
    exact first.trans ((Moves.complete settled (complete_of_acknowledge acknowledge)).path
      (completion_allowed action))

theorem confirmRemovedWith_path
    (step : process.confirmRemovedWith index guardIndex = some (reply, after)) :
    Path idOf action.Allows process after := by
  obtain ⟨_, _, _, _, _, ⟨_, _, rfl⟩ | ⟨_, _, confirmed, confirm, rfl⟩⟩ :=
    confirmRemovedWith_cases step
  · exact process.dropBoth_path index guardIndex
  · exact ((Moves.confirmRemoved confirm).path (ordinary_allowed action)).trans
      (confirmed.dropBoth_path index guardIndex)

theorem completeUnguarded_path (step : process.completeUnguarded index = some (reply, after))
    (unguarded : action.unguarded = true) : Path idOf action.Allows process after := by
  obtain ⟨_, _, _, ⟨_, _, rfl⟩ | ⟨_, _, _, acknowledge⟩⟩ := completeUnguarded_cases step
  · exact (Moves.dropSave index).path (outside_allowed action)
  · exact (Moves.acknowledge acknowledge).path ⟨by simp, fun _ => unguarded⟩

/-- Every action of the protocol is a path of allowed moves. -/
theorem saveStep_path (authority : Authority process) (locking : Locking process)
    (step : process.saveStep idOf action = some (reply, after)) :
    Path idOf action.Allows process after := by
  have ordinary : ∀ {next : Process}, Moves idOf process .ordinary next →
      Path idOf action.Allows process next := fun move => move.path (ordinary_allowed action)
  cases action with
  | handle action => exact ordinary (.handle step)
  | deserialize wire =>
    cases step
    exact (Moves.deserialize wire).path (outside_allowed _)
  | validateLoaded index cookie now => exact validateLoaded_path authority step
  | prepareSave index => exact prepareSave_path step
  | validateCurrent index =>
    rw [validateCurrent_eq step]
    exact Path.refl
  | beginWrite index =>
    obtain ⟨_, found, ⟨_, _, rfl⟩ | ⟨_, _, rfl⟩⟩ := beginWrite_cases step
    · exact Path.refl
    · exact ordinary (.annotate true true found)
  | acquireWrite index => exact acquireWrite_path step
  | cancelWrite index =>
    obtain ⟨save, found, _, _, rfl⟩ := cancelWrite_cases step
    exact ordinary (.annotate save.writeStarted false found)
  | completeWithGuard index guard => exact completeWithGuard_path locking step
  | confirmRemoved index guard => exact confirmRemovedWith_path step
  | complete index => exact completeUnguarded_path step rfl
  | dropSave index =>
    obtain ⟨_, _, _, _, rfl⟩ := dropToken_cases step
    exact (Moves.dropSave index).path (outside_allowed _)
  | dropGuard index =>
    simp only [saveStep, Option.map_eq_some_iff] at step
    obtain ⟨_, _, step⟩ := step
    cases step
    exact (Moves.dropGuard index).path (outside_allowed _)
  | prepareDelete index =>
    obtain ⟨session, found, _, rfl⟩ := prepareDelete_cases step
    have destroy : process.handleStep idOf (.destroy index) =
        some (.done, { process with heap := session.destroy process.heap }) := by
      simp [handleStep, found]
    exact ordinary (.handle destroy)
  | beginDelete index => exact ordinary (.requestDelete step)
  | grantDelete index => exact ordinary (.grantDelete step)
  | dropDelete index =>
    simp only [saveStep, Option.map_eq_some_iff] at step
    obtain ⟨_, _, step⟩ := step
    cases step
    exact ordinary (.dropDelete index)
  | storeAttempt index => exact ordinary (.attempt step)
  | storeCapture index =>
    simp only [saveStep, Option.map_eq_some_iff] at step
    obtain ⟨⟨snapshot, captured⟩, capture, step⟩ := step
    cases step
    exact ordinary (.capturePersistence capture)
  | storeAcquire index canOutliveFuture =>
    obtain ⟨_, acquire, _⟩ := finishReply_cases step
    exact ordinary (.acquire (Or.inl rfl) acquire)
  | storeFinish index =>
    obtain ⟨_, finish, _⟩ := finishReply_cases step
    exact ordinary (.finish finish)
  | storeRequireCleanup index =>
    simp only [saveStep, Option.map_eq_some_iff] at step
    obtain ⟨fenced, requireCleanup, step⟩ := step
    cases step
    exact ordinary (.requireCleanup requireCleanup)
  | storeConfirmRemoved index =>
    simp only [saveStep, Option.map_eq_some_iff] at step
    obtain ⟨confirmed, confirm, step⟩ := step
    cases step
    exact ordinary (.confirmRemoved confirm)
  | storeComplete index =>
    obtain ⟨_, _, guarded, _, _, complete⟩ := storeComplete_cases step
    exact (Moves.complete guarded complete).path (completion_allowed _)

end Process

/-! ### The machine -/

/-- The save protocol of a process. -/
def sessionSave (idOf : Cookie → Option Id) : Machine Process SaveAction Reply where
  init process := process = .initial
  step process action := process.saveStep idOf action

/-- The save protocol without the unguarded `complete`. -/
def guardedSave (idOf : Cookie → Option Id) : Machine Process SaveAction Reply :=
  (sessionSave idOf).restrict fun action => !action.unguarded

/-- The invariants of the save protocol. -/
structure Sound (process : Process) : Prop where
  authority : Authority process
  locking : Locking process

theorem sound_initial : Sound Process.initial := ⟨authority_initial, locking_initial⟩

namespace Sound

variable {idOf : Cookie → Option Id} {allowed : Process.Kind → Prop} {process after : Process}

theorem path (sound : Sound process) (path : Process.Path idOf allowed process after) :
    Sound after :=
  path.invariant (fun _ earlier move =>
    ⟨earlier.authority.moves move, earlier.locking.moves earlier.authority move⟩) sound

theorem step (sound : Sound process) {action : SaveAction} {reply : Reply}
    (step : (sessionSave idOf).step process action = some (reply, after)) : Sound after :=
  sound.path (Process.saveStep_path sound.authority sound.locking step)

theorem reachable (reachable : (sessionSave idOf).Reachable process) : Sound process := by
  refine reachable.invariant (fun initial => ?_) fun sound step => sound.step step
  obtain rfl : _ = Process.initial := initial
  exact sound_initial

end Sound

end Saysion
