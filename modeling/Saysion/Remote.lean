/-
This file models a process with a remote store as a machine. What the process
does is as fine as for `MemoryStore`; what it sends is a flight, a command whose
effect and whose answer come in a step of their own, at any later time and at
most once, whether or not the call that sent it is still there. A call waits for
the answer of its flight before it goes on.

The backend removes records on its own as well: an expiry, a cleanup and a
clear may take away any record at any time.

Three fields are there for the proofs and no step reads them: a flight keeps the
family and the rotation of the save that sent it, `births` logs the records that
were created, and `reserved` the sources that a rotation has removed and not yet
replaced, with their targets.
-/

import Saysion.Descent
import Saysion.Machine
import Saysion.Process
import Saysion.RemoteStores

namespace Saysion

/-- A command that was sent. -/
structure Flight where
  command : Command
  answer : Option Answer := none
  family : Option Ref := none
  rotation : Option (Id × Id) := none

/-- How far a `store_session` call is. `unremoved` and `removing` are the compensation of a write
that found its family destroyed, and `expired` is the end of a revoked write. -/
inductive RemotePhase
  | attempted
  | captured
  | running (program : Program)
  | waiting (flight : Nat) (next : Answer → Program)
  | unremoved (error : Error)
  | removing (flight : Nat) (error : Error)
  | finished
  | expired
  | failed (error : Error)

/-- A process with a remote store, and the store's backend. -/
structure Remote where
  process : Process
  rows : Id → Option Row
  flights : Nat → Option Flight
  nextFlight : Nat
  calls : Nat → Option RemotePhase
  reads : Nat → Option (Cookie × SessionSnapshot)
  nextRead : Nat
  erasures : Nat → Option Nat
  births : List (Birth Id)
  reserved : Id → Option Id

/-- The steps of a process with a remote store, of its backend, and of the network between them. The
times are readings of the clock. -/
inductive RemoteAction
  | handle (action : HandleAction)
  | read (cookie : Cookie) (now : DateTime)
  | deliver (index : Nat) (now : DateTime)
  | storeSession (index : Nat)
  | capture (index : Nat)
  | beginWrite (index : Nat) (now : DateTime)
  | send (index : Nat)
  | execute (flight : Nat)
  | receive (index : Nat)
  | check (index : Nat)
  | finish (index : Nat)
  | complete (index : Nat)
  | fail (index : Nat)
  | lose (index : Nat)
  | cancelStore (index : Nat)
  | destroySession (index : Nat)
  | grantDelete (index : Nat)
  | erase (index : Nat)
  | confirmErased (index : Nat)
  | cancelDestroy (index : Nat)
  | clearStore
  | unlink (ids : List Id)
  | expire (id : Id)
  deriving DecidableEq, Repr

/-- The steps of one `store_session` that sends a single command and is not interrupted. -/
def RemoteAction.store (handle save number : Nat) (now : DateTime) : List RemoteAction :=
  [.storeSession handle, .capture save, .beginWrite save now, .send save, .execute number,
    .receive save, .finish save, .complete save]

/-- The source and the target of a save that is a rotation. -/
def Save.rotation (save : Save) : Option (Id × Id) :=
  (save.origin.filter (· ≠ save.source.id)).map fun source => (source, save.source.id)

/-- The flight of a command that a save sends. -/
def Save.flight (save : Save) (command : Command) : Flight where
  command
  family := some save.source.family
  rotation := save.rotation

namespace Flight

/-- The birth of the id that a flight creates. -/
def birth (flight : Flight) (id : Id) : Birth Id :=
  match flight.rotation with
  | none => .created id
  | some (source, _) => .rotated source id

/-- The births that a flight is, once it has its answer. -/
def births (flight : Flight) (answer : Answer) : List (Birth Id) :=
  match flight.command.creates with
  | none => []
  | some id => if answer = .affected 1 then [flight.birth id] else []

/-- A rotation reserves the source that it removes, until its target is there. -/
def reserve (flight : Flight) (answer : Answer) (reserved : Id → Option Id) : Id → Option Id :=
  match flight.rotation with
  | none => reserved
  | some (source, target) =>
    if answer ≠ .affected 1 then reserved
    else if flight.command = .delete source then Function.update reserved source (some target)
    else if flight.command.creates = none then reserved
    else Function.update reserved source none

end Flight

namespace Remote

/-- An empty backend, and a process that has done nothing yet. -/
def initial : Remote where
  process := .initial
  rows _ := none
  flights _ := none
  nextFlight := 0
  calls _ := none
  reads _ := none
  nextRead := 0
  erasures _ := none
  births := []
  reserved _ := none

def setCall (state : Remote) (index : Nat) (phase : Option RemotePhase) : Remote :=
  { state with calls := Function.update state.calls index phase }

/-- Send a command. -/
def launch (state : Remote) (flight : Flight) : Remote :=
  { state with
    flights := Function.update state.flights state.nextFlight (some flight)
    nextFlight := state.nextFlight + 1 }

variable (store : RemoteStore) (idOf : Cookie → Option Id) (state : Remote)

/-! ### Loading -/

/-- The query of `load_session`, when the backend answers it. -/
def read (cookie : Cookie) (now : DateTime) : Option (Reply × Remote) :=
  match idOf cookie with
  | none => some (.error .cookieFormat, state)
  | some id =>
    match (state.rows id).filter (store.selects now) with
    | none => some (.missing, state)
    | some row =>
      some (.done,
        { state with
          reads := Function.update state.reads state.nextRead (some (cookie, row.session))
          nextRead := state.nextRead + 1 })

/-- The end of `load_session`: the text is deserialized and validated. -/
def deliver (index : Nat) (now : DateTime) : Option (Reply × Remote) := do
  let (cookie, wire) ← state.reads index
  let rest := { state with reads := Function.update state.reads index none }
  let (session, heap) := Session.deserialize state.process.heap wire
  match session.validateLoaded idOf heap false cookie now with
  | .error error => return (.error error, { rest with process := { state.process with heap } })
  | .ok none => return (.missing, { rest with process := { state.process with heap } })
  | .ok (some (loaded, heap)) =>
    return (.handle state.process.nextHandle,
      { rest with process := (state.process.see loaded.id).addHandle loaded heap })

/-! ### Storing -/

/-- `store_session` up to `persistence_attempt`, and `prepare_save` up to it. -/
def storeSession (index : Nat) : Option (Reply × Remote) := do
  let (reply, process) ← state.process.attempt index
  match reply with
  | .save save => return (reply, { state.setCall save (some .attempted) with process })
  | _ => return (reply, { state with process })

/-- The snapshot and its revision; some stores look at the destroy flag once more before. -/
def capture (index : Nat) : Option (Reply × Remote) :=
  match state.calls index with
  | some .attempted => do
    let save ← state.process.saves index
    if store.rechecksDestroyed ∧ save.source.isDestroyed state.process.heap = true then
      return (.done, state.setCall index (some (.failed .sessionConflict)))
    else if store.tokens then
      let process ← state.process.captureImmutable index
      return (.done, { state.setCall index (some .captured) with process })
    else
      let (_, process) ← state.process.capturePersistence index
      return (.done, { state.setCall index (some .captured) with process })
  | _ => none

/-- `begin_backend_write` or `begin_write`, and what the store then does up to its first
command. -/
def beginWrite (index : Nat) (now : DateTime) : Option (Reply × Remote) :=
  match state.calls index with
  | some .captured => do
    let save ← state.process.saves index
    let snapshot ← save.snapshot
    let receipt := if store.tokens then some index else none
    let (result, process) ← state.process.acquire index receipt true
    match result with
    | .error error => return (.done, { state.setCall index (some (.failed error)) with process })
    | .ok _ =>
      let program := store.write save.origin snapshot now
      return (.done, { state.setCall index (some (.running program)) with process })
  | _ => none

/-- Send the next command of the program, or the deletion of the compensation. -/
def send (index : Nat) : Option (Reply × Remote) :=
  match state.calls index with
  | some (.running (.send command next)) => do
    let save ← state.process.saves index
    let sent := (state.launch (save.flight command)).setCall index
      (some (.waiting state.nextFlight next))
    if command.creates = none then return (.done, sent)
    else
      let process ← state.process.dispatch index
      return (.done, { sent with process })
  | some (.unremoved error) => do
    let save ← state.process.saves index
    return (.done, (state.launch (save.flight (.delete save.source.id))).setCall index
      (some (.removing state.nextFlight error)))
  | _ => none

/-- A command takes effect, and its answer is known. -/
def takeEffect (number : Nat) (flight : Flight) : Remote :=
  let (answer, rows) := flight.command.execute state.rows
  { state with
    rows
    flights := Function.update state.flights number (some { flight with answer := some answer })
    births := flight.births answer ++ state.births
    reserved := flight.reserve answer state.reserved }

def execute (number : Nat) : Option (Reply × Remote) := do
  let flight ← state.flights number
  if flight.answer = none then return (.done, state.takeEffect number flight) else none

/-- The answer of a command reaches the call that waits for it. -/
def receive (index : Nat) : Option (Reply × Remote) :=
  match state.calls index with
  | some (.waiting number next) => do
    let flight ← state.flights number
    let answer ← flight.answer
    return (.done, state.setCall index (some (.running (next answer))))
  | some (.removing number error) => do
    let flight ← state.flights number
    let _ ← flight.answer
    let process ← state.process.confirmRemoved index
    return (.done, { state.setCall index (some (.failed error)) with process })
  | _ => none

/-- A store with tokens looks at `is_destroyed` after its write, and removes what it wrote. -/
def check (index : Nat) : Option (Reply × Remote) :=
  match state.calls index with
  | some (.running .written) => do
    let guard ← state.process.guards index
    if store.tokens ∧ guard.isDestroyed state.process.heap = true then
      return (.done, state.setCall index (some (.unremoved .sessionConflict)))
    else none
  | _ => none

/-- `finish`. A native store whose family was destroyed has to remove what it wrote; in
`complete_with_guard` the uncertainty stays. -/
def finish (index : Nat) : Option (Reply × Remote) :=
  match state.calls index with
  | some (.running .written) => do
    let (result, finished) ← state.process.finish index
    match result with
    | .error error =>
      let process ← finished.requireCleanup index
      let phase := if store.tokens then .failed error else .unremoved error
      return (.done, { state.setCall index (some phase) with process })
    | .ok _ => return (.done, { state.setCall index (some .finished) with process := finished })
  | some (.running .revoked) =>
    if store.tokens then do
      let process ← state.process.confirmRemoved index
      return (.done, { state.setCall index (some .expired) with process })
    else do
      let (result, process) ← state.process.finish index
      match result with
      | .error error => return (.done, { state.setCall index (some (.failed error)) with process })
      | .ok _ => return (.done, { state.setCall index (some .expired) with process })
  | _ => none

/-- The end of a successful call. A revoked write acknowledges nothing. -/
def complete (index : Nat) : Option (Reply × Remote) :=
  match state.calls index with
  | some .finished => do
    let (cookie, process) ← state.process.complete index
    return (.cookie cookie, { state.setCall index none with process })
  | some .expired =>
    some (.cookie none, { state.setCall index none with process := state.process.abandon index })
  | _ => none

/-- The end of a call that failed. -/
def fail (index : Nat) : Option (Reply × Remote) :=
  match state.calls index with
  | some (.running (.failed error)) | some (.failed error) =>
    some (.error error, { state.setCall index none with process := state.process.abandon index })
  | _ => none

/-- The driver reports an error for a command, whatever became of it. -/
def lose (index : Nat) : Option (Reply × Remote) :=
  match state.calls index with
  | some (.running (.send _ _)) | some (.waiting _ _) | some (.unremoved _)
  | some (.removing _ _) =>
    some (.error .backend, { state.setCall index none with process := state.process.abandon index })
  | _ => none

/-- The future of a call is dropped. A store with tokens may drop them at any time before their
completion. -/
def cancelStore (index : Nat) : Option (Reply × Remote) :=
  match state.calls index with
  | some .captured | some (.running _) | some (.waiting _ _) | some (.unremoved _)
  | some (.removing _ _) =>
    some (.done, { state.setCall index none with process := state.process.abandon index })
  | _ => none

/-! ### Destroying -/

/-- `destroy_session` up to the wait in `begin_delete`; it owns the handle. -/
def destroySession (index : Nat) : Option (Reply × Remote) := do
  let (reply, process) ← state.process.requestDelete index
  return (reply, { state with process := process.dropHandle index })

def grantDelete (index : Nat) : Option (Reply × Remote) := do
  let (reply, process) ← state.process.grantDelete index
  return (reply, { state with process })

/-- Send the deletion of the target, under the guard. -/
def erase (index : Nat) : Option (Reply × Remote) := do
  let deletion ← state.process.deletions index
  let target ← deletion.target
  if state.erasures index = none then
    let flight := { command := .delete target, family := some deletion.session.family }
    return (.done,
      { state.launch flight with
        erasures := Function.update state.erasures index (some state.nextFlight) })
  else none

/-- The deletion was confirmed; the call is done. -/
def confirmErased (index : Nat) : Option (Reply × Remote) := do
  let number ← state.erasures index
  let flight ← state.flights number
  let _ ← flight.answer
  return (.done,
    { state with
      process := state.process.dropDelete index
      erasures := Function.update state.erasures index none })

/-- The future of `destroy_session` is dropped, or the driver reports an error to it. -/
def cancelDestroy (index : Nat) : Option (Reply × Remote) := do
  let _ ← state.process.deletions index
  return (.done,
    { state with
      process := state.process.dropDelete index
      erasures := Function.update state.erasures index none })

/-! ### The machine -/

def step : RemoteAction → Option (Reply × Remote)
  | .handle action => do
    let (reply, process) ← state.process.handleStep idOf action
    return (reply, { state with process })
  | .read cookie now => state.read store idOf cookie now
  | .deliver index now => state.deliver idOf index now
  | .storeSession index => state.storeSession index
  | .capture index => state.capture store index
  | .beginWrite index now => state.beginWrite store index now
  | .send index => state.send index
  | .execute number => state.execute number
  | .receive index => state.receive index
  | .check index => state.check store index
  | .finish index => state.finish store index
  | .complete index => state.complete index
  | .fail index => state.fail index
  | .lose index => state.lose index
  | .cancelStore index => state.cancelStore index
  | .destroySession index => state.destroySession index
  | .grantDelete index => state.grantDelete index
  | .erase index => state.erase index
  | .confirmErased index => state.confirmErased index
  | .cancelDestroy index => state.cancelDestroy index
  | .clearStore => some (.done, state.launch { command := .clear })
  | .unlink ids => some (.done, state.launch { command := .unlink ids })
  | .expire id => some (.done, { state with rows := Function.update state.rows id none })

end Remote

/-- A process with a remote store. -/
def remoteMachine (store : RemoteStore) (idOf : Cookie → Option Id) :
    Machine Remote RemoteAction Reply where
  init state := state = .initial
  step state action := state.step store idOf action

end Saysion
