/-
This file follows a `store_session` call that nothing interferes with: no other
step comes between its own, and its backend answers every command. The schedule
is a policy of the machine, so that a lone call is one of its runs.

A call of a remote store runs the program of its store against the rows. What
the call leaves behind is then a matter of how the program ends.
-/

import Saysion.ConditionalWrites
import Saysion.MemoryStore
import Saysion.Remote

namespace Saysion

/-! ### Programs against rows -/

/-- What rows hold, as far as a caller may know. -/
def recordsOf (rows : Id → Option Row) : RecordMap := fun id => (rows id).map Row.session

/-- How a program ends that has the rows to itself, and the rows it leaves. -/
def Program.run (rows : Id → Option Row) : Program → Ending × (Id → Option Row)
  | .send command next => (next (command.execute rows).1).run (command.execute rows).2
  | .written => (.written, rows)
  | .revoked => (.revoked, rows)
  | .failed error => (.failed error, rows)

/-- A program sends at most this many commands, whatever the answers. -/
def Program.Brief : Program → Nat → Prop
  | .send _ next, bound + 1 => ∀ answer, (next answer).Brief bound
  | .send _ _, 0 => False
  | _, _ => True

namespace Ending

def reply (session : Session) : Ending → Reply
  | written => .cookie session.cookieValue
  | revoked => .cookie none
  | failed error => .error error

/-- The heap after a save has ended. -/
def settle (heap : Heap) (session : Session) (revision : SaveRevision) (guard : WriteGuard) :
    Ending → Heap
  | written => WriteGuard.drop (revision.acknowledge (session.markPersisted heap))
      { guard with settled := true }
  | revoked => revision.drop (WriteGuard.drop heap { guard with settled := true })
  | failed _ => revision.drop (guard.drop heap)

end Ending

namespace Session

/-- What a caller may know of a call, once it has answered. -/
def observe (heap : Heap) (records : RecordMap) (session : Session) (reply : Reply) : Outcome where
  reply
  records
  marker := session.persistedId heap
  tracking := session.sessionData heap

/-- A save that was opened leaves its session behind as its end says. -/
theorem observe_settle {heap opened : Heap} {session : Session} {origin : Option Id}
    (granted : session.persistenceOrigin heap = .ok origin)
    (marker : session.persistedId opened = session.persistedId heap)
    (captured : opened.cells session.data = (session.sessionData heap).capture)
    (ending : Ending) (records : RecordMap) (canOutliveFuture : Bool) :
    session.observe (ending.settle opened session
        ⟨session.data, (session.sessionData heap).revision⟩
          (session.writeGuard origin canOutliveFuture)) records (ending.reply session) =
      ending.outcome heap session records := by
  obtain ⟨same, _, allowed⟩ := persistenceOrigin_ok.mp granted
  have related : session.persistedId opened = none ∨ session.persistedId opened = some session.id ∨
      session.rotationFrom = session.persistedId opened := by
    rw [marker, same]
    by_cases unsaved : origin = none
    · exact Or.inl unsaved
    · exact Or.inr (allowed unsaved)
  have dropped : ∀ guard : WriteGuard, guard.family = session.family → ∀ reply,
      session.observe (SaveRevision.drop (guard.drop opened)
          ⟨session.data, (session.sessionData heap).revision⟩) records reply =
        { reply
          records
          marker := session.persistedId heap
          tracking := session.unconfirmed heap } := by
    intro guard own reply
    unfold observe sessionData
    rw [persistedId_dropped opened session _ own, marker, cells_dropped, captured]
    rfl
  cases ending with
  | written =>
    unfold observe sessionData Ending.settle
    rw [persistedId_confirmed opened session _ related rfl, cells_confirmed, captured]
    rfl
  | revoked => exact dropped _ rfl _
  | failed error => exact dropped _ rfl _

end Session

namespace Process

variable {process : Process} {index : Nat} {save : Save} {guard : WriteGuard}
  {revision : SaveRevision}

/-- The successful end of a save under its guard. -/
theorem complete_saved (found : process.saves index = some save)
    (captured : save.revision = some revision) (guarded : process.guards index = some guard) :
    process.complete index = some (save.source.cookieValue,
      { (process.setSave index none).setGuard index none with
        heap := guard.drop (revision.acknowledge (save.source.markPersisted process.heap)) }) := by
  have still : (process.setSave index none).guards index = some guard := guarded
  simp only [complete, acknowledge, found, captured, Option.bind_eq_bind, Option.bind_some]
  show some (save.source.cookieValue, Process.dropGuard { process.setSave index none with
    heap := revision.acknowledge (save.source.markPersisted process.heap) } index) = _
  simp only [dropGuard, still]
  rfl

/-- Any other end of a save under its guard. -/
theorem abandon_saved (found : process.saves index = some save)
    (captured : save.revision = some revision) (guarded : process.guards index = some guard) :
    (process.abandon index).heap = revision.drop (guard.drop process.heap) := by
  have dropped : process.dropGuard index =
      { process.setGuard index none with heap := guard.drop process.heap } := by
    simp only [dropGuard, guarded]
  have still : (process.setGuard index none).saves index = some save := found
  rw [abandon, dropped]
  simp only [dropSave, still, captured]

end Process

/-! ### A lone call of a remote store -/

namespace Remote

/-- The schedule in which nothing runs but one call, and every command gets its answer. -/
def onlyStore (index : Nat) (now : DateTime) (state : Remote) : Option RemoteAction :=
  match state.calls index with
  | none => none
  | some .attempted => some (.capture index)
  | some .captured => some (.beginWrite index now)
  | some (.running (.send _ _)) | some (.unremoved _) => some (.send index)
  | some (.running (.failed _)) | some (.failed _) => some (.fail index)
  | some (.running _) => some (.finish index)
  | some (.waiting number _) | some (.removing number _) =>
    match (state.flights number).bind Flight.answer with
    | none => some (.execute number)
    | some _ => some (.receive index)
  | some .finished | some .expired => some (.complete index)

/-- `store_session` with nothing between its steps, at a reading of the clock. The calls of the
crate's stores take no more than ten steps. -/
def storeAlone (store : RemoteStore) (idOf : Cookie → Option Id) (index : Nat) (now : DateTime)
    (state : Remote) : Option (Reply × Remote) := do
  let (reply, started) ← (remoteMachine store idOf).step state (.storeSession index)
  match reply with
  | .save save => (remoteMachine store idOf).conclude (onlyStore save now) 11 started
  | _ => return (reply, started)

/-- A lone call is one of the runs of the process. -/
theorem run_storeAlone {store : RemoteStore} {idOf : Cookie → Option Id} {index : Nat}
    {now : DateTime} {state last : Remote} {reply : Reply}
    (answered : state.storeAlone store idOf index now = some (reply, last)) :
    ∃ trace, (remoteMachine store idOf).Run state trace last := by
  simp only [storeAlone, Option.bind_eq_bind, Option.bind_eq_some_iff] at answered
  obtain ⟨⟨first, started⟩, step, answered⟩ := answered
  split at answered
  · obtain ⟨trace, run⟩ := Machine.run_of_conclude answered
    exact ⟨_, (Machine.Run.refl.tail step).trans run⟩
  · cases answered
    exact ⟨_, Machine.Run.refl.tail step⟩

/-- What a call under its guard works with. -/
structure Serves (state : Remote) (index : Nat) (save : Save) (guard : WriteGuard) (heap : Heap) :
    Prop where
  save : ∃ dispatched, state.process.saves index = some { save with dispatched }
  guard : state.process.guards index = some guard
  heap : state.process.heap = heap

variable {store : RemoteStore} {idOf : Cookie → Option Id} {state : Remote} {index number : Nat}
  {now : DateTime} {save : Save} {guard : WriteGuard} {heap : Heap} {revision : SaveRevision}
  {command : Command} {next : Answer → Program}

theorem send_of_running (serves : state.Serves index save guard heap)
    (phase : state.calls index = some (.running (.send command next))) :
    ∃ sent flight, state.send index = some (.done, sent) ∧
      sent.calls index = some (.waiting state.nextFlight next) ∧
      sent.flights state.nextFlight = some flight ∧ flight.command = command ∧
      flight.answer = none ∧ sent.rows = state.rows ∧ sent.Serves index save guard heap := by
  obtain ⟨⟨dispatched, found⟩, guarded, same⟩ := serves
  let flight := ({ save with dispatched } : Save).flight command
  let sent := (state.launch flight).setCall index (some (.waiting state.nextFlight next))
  have waiting : sent.calls index = some (.waiting state.nextFlight next) :=
    Function.update_self _ _ _
  have flown : sent.flights state.nextFlight = some flight := Function.update_self _ _ _
  by_cases existing : command.creates = none
  · refine ⟨sent, flight, ?_, waiting, flown, rfl, rfl, rfl, ⟨dispatched, found⟩, guarded, same⟩
    simp only [send, phase, found, Option.bind_eq_bind, Option.bind_some, if_pos existing]
    rfl
  · let process := { state.process.setSave index (some { save with dispatched := true }) with
      dispatched := save.source.id :: state.process.dispatched }
    have kept : process.saves index = some { save with dispatched := true } :=
      Function.update_self _ _ _
    refine ⟨{ sent with process }, flight, ?_, waiting, flown, rfl, rfl, rfl, ⟨true, kept⟩, guarded,
      same⟩
    simp only [send, phase, found, Process.dispatch, Option.bind_eq_bind, Option.bind_some,
      if_neg existing]
    rfl

theorem execute_of_flight {flight : Flight} (flown : state.flights number = some flight)
    (unanswered : flight.answer = none) :
    ∃ effected, state.execute number = some (.done, effected) ∧ effected.calls = state.calls ∧
      (effected.flights number).bind Flight.answer = some (flight.command.execute state.rows).1 ∧
      effected.rows = (flight.command.execute state.rows).2 ∧
      effected.process = state.process := by
  refine ⟨state.takeEffect number flight, ?_, rfl, ?_, rfl, rfl⟩
  · simp only [execute, flown, Option.bind_eq_bind, Option.bind_some, if_pos unanswered]
    rfl
  · show (Function.update state.flights number _ number).bind Flight.answer = _
    rw [Function.update_self]
    rfl

theorem receive_of_waiting {answer : Answer} (phase : state.calls index = some (.waiting number next))
    (answered : (state.flights number).bind Flight.answer = some answer) :
    state.receive index =
      some (.done, state.setCall index (some (.running (next answer)))) := by
  obtain ⟨flight, flown, known⟩ := Option.bind_eq_some_iff.mp answered
  simp only [receive, phase, flown, known, Option.bind_eq_bind, Option.bind_some]
  rfl

/-- A command is sent, takes effect, and is answered. -/
theorem conclude_send (serves : state.Serves index save guard heap)
    (phase : state.calls index = some (.running (.send command next))) :
    ∃ answered : Remote, answered.Serves index save guard heap ∧
      answered.calls index = some (.running (next (command.execute state.rows).1)) ∧
      answered.rows = (command.execute state.rows).2 ∧
      ∀ fuel reply last, (remoteMachine store idOf).conclude (onlyStore index now) fuel answered =
          some (reply, last) →
        (remoteMachine store idOf).conclude (onlyStore index now) (fuel + 3) state =
          some (reply, last) := by
  obtain ⟨sent, flight, sending, waiting, flown, rfl, unanswered, rows, serving⟩ :=
    send_of_running serves phase
  obtain ⟨effected, executing, calls, answer, changed, still⟩ := execute_of_flight flown unanswered
  rw [rows] at answer changed
  have awaiting : effected.calls index = some (.waiting state.nextFlight next) := calls ▸ waiting
  have receiving := receive_of_waiting awaiting answer
  have served : effected.Serves index save guard heap := by
    obtain ⟨saved, guarded, same⟩ := serving
    rw [← still] at saved guarded same
    exact ⟨saved, guarded, same⟩
  refine ⟨effected.setCall index (some (.running (next (flight.command.execute state.rows).1))),
    ⟨served.save, served.guard, served.heap⟩, Function.update_self _ _ _, changed,
    fun fuel reply last rest => ?_⟩
  have first : onlyStore index now state = some (.send index) := by
    unfold onlyStore
    rw [phase]
  have second : onlyStore index now sent = some (.execute state.nextFlight) := by
    unfold onlyStore
    rw [waiting]
    simp [flown, unanswered]
  have third : onlyStore index now effected = some (.receive index) := by
    unfold onlyStore
    rw [awaiting]
    simp [answer]
  exact Machine.conclude_of_step first sending (Machine.conclude_of_step second executing
    (Machine.conclude_of_step third receiving rest))

/-- A write that is confirmed goes through. -/
theorem conclude_written (serves : state.Serves index save guard heap)
    (captured : save.revision = some revision) (alive : guard.isDestroyed heap = false)
    (phase : state.calls index = some (.running .written)) (extra : Nat) :
    ∃ last : Remote, (remoteMachine store idOf).conclude (onlyStore index now) (extra + 3) state =
        some (Ending.written.reply save.source, last) ∧
      last.rows = state.rows ∧
        last.process.heap = Ending.written.settle heap save.source revision guard := by
  obtain ⟨⟨dispatched, found⟩, guarded, rfl⟩ := serves
  let settled := state.process.setGuard index (some { guard with settled := true })
  let finished := { state.setCall index (some .finished) with process := settled }
  have finishing : state.finish store index = some (.done, finished) := by
    simp only [finish, phase, Process.finish, guarded, WriteGuard.finish, alive,
      Option.bind_eq_bind, Option.bind_some]
    rfl
  have kept : settled.guards index = some { guard with settled := true } :=
    Function.update_self _ _ _
  have waiting : finished.calls index = some .finished := Function.update_self _ _ _
  have still : settled.saves index = some { save with dispatched } := found
  have completes := Process.complete_saved still captured kept
  have completing : ∃ last : Remote,
      finished.complete index = some (.cookie save.source.cookieValue, last) ∧
        last.calls index = none ∧ last.rows = state.rows ∧
          last.process.heap = Ending.written.settle state.process.heap save.source revision guard := by
    refine ⟨{ finished.setCall index none with
      process := { (settled.setSave index none).setGuard index none with
        heap := Ending.written.settle state.process.heap save.source revision guard } },
      ?_, Function.update_self _ _ _, rfl, rfl⟩
    simp only [complete, waiting]
    show (settled.complete index).bind _ = _
    rw [completes]
    rfl
  obtain ⟨last, completing, done, rows, heap⟩ := completing
  have first : onlyStore index now state = some (.finish index) := by
    unfold onlyStore
    rw [phase]
  have second : onlyStore index now finished = some (.complete index) := by
    unfold onlyStore
    rw [waiting]
  have third : onlyStore index now last = none := by
    unfold onlyStore
    rw [done]
  exact ⟨last, Machine.conclude_of_step first finishing
    (Machine.conclude_of_last extra second completing third), rows, heap⟩

/-- A write that is revoked acknowledges nothing. -/
theorem conclude_revoked (serves : state.Serves index save guard heap)
    (captured : save.revision = some revision) (alive : guard.isDestroyed heap = false)
    (native : store.tokens = false) (phase : state.calls index = some (.running .revoked))
    (extra : Nat) :
    ∃ last : Remote, (remoteMachine store idOf).conclude (onlyStore index now) (extra + 3) state =
        some (Ending.revoked.reply save.source, last) ∧
      last.rows = state.rows ∧
        last.process.heap = Ending.revoked.settle heap save.source revision guard := by
  obtain ⟨⟨dispatched, found⟩, guarded, rfl⟩ := serves
  let settled := state.process.setGuard index (some { guard with settled := true })
  let expired := { state.setCall index (some .expired) with process := settled }
  have finishing : state.finish store index = some (.done, expired) := by
    simp only [finish, phase, native, Process.finish, guarded, WriteGuard.finish, alive,
      Option.bind_eq_bind, Option.bind_some]
    rfl
  have kept : settled.guards index = some { guard with settled := true } :=
    Function.update_self _ _ _
  have waiting : expired.calls index = some .expired := Function.update_self _ _ _
  have still : settled.saves index = some { save with dispatched } := found
  let last := { expired.setCall index none with process := settled.abandon index }
  have completing : expired.complete index = some (.cookie none, last) := by
    simp only [complete, waiting]
    rfl
  have done : last.calls index = none := Function.update_self _ _ _
  have first : onlyStore index now state = some (.finish index) := by
    unfold onlyStore
    rw [phase]
  have second : onlyStore index now expired = some (.complete index) := by
    unfold onlyStore
    rw [waiting]
  have third : onlyStore index now last = none := by
    unfold onlyStore
    rw [done]
  exact ⟨last, Machine.conclude_of_step first finishing
    (Machine.conclude_of_last extra second completing third), rfl,
    Process.abandon_saved still captured kept⟩

/-- A write that fails is dropped with its guard. -/
theorem conclude_failed (serves : state.Serves index save guard heap)
    (captured : save.revision = some revision) {error : Error}
    (phase : state.calls index = some (.running (.failed error))) (extra : Nat) :
    ∃ last : Remote, (remoteMachine store idOf).conclude (onlyStore index now) (extra + 3) state =
        some ((Ending.failed error).reply save.source, last) ∧
      last.rows = state.rows ∧
        last.process.heap = (Ending.failed error).settle heap save.source revision guard := by
  obtain ⟨⟨dispatched, found⟩, guarded, rfl⟩ := serves
  let last := { state.setCall index none with process := state.process.abandon index }
  have failing : state.fail index = some (.error error, last) := by
    simp only [fail, phase]
    rfl
  have done : last.calls index = none := Function.update_self _ _ _
  have first : onlyStore index now state = some (.fail index) := by
    unfold onlyStore
    rw [phase]
  have second : onlyStore index now last = none := by
    unfold onlyStore
    rw [done]
  exact ⟨last, Machine.conclude_of_last (extra + 1) first failing second, rfl,
    Process.abandon_saved found captured guarded⟩

/-- A program runs against the rows, command by command, to its end. -/
theorem conclude_program (program : Program) {bound : Nat} (brief : program.Brief bound)
    (serves : state.Serves index save guard heap) (captured : save.revision = some revision)
    (alive : guard.isDestroyed heap = false) (native : store.tokens = false)
    (phase : state.calls index = some (.running program)) :
    ∃ last : Remote,
      (remoteMachine store idOf).conclude (onlyStore index now) (3 * bound + 3) state =
          some ((program.run state.rows).1.reply save.source, last) ∧
        last.rows = (program.run state.rows).2 ∧
          last.process.heap = (program.run state.rows).1.settle heap save.source revision guard := by
  induction program generalizing bound state with
  | written => exact conclude_written serves captured alive phase _
  | revoked => exact conclude_revoked serves captured alive native phase _
  | failed error => exact conclude_failed serves captured phase _
  | send command next inductionHypothesis =>
    cases bound with
    | zero => exact brief.elim
    | succ bound =>
      obtain ⟨answered, serving, running, rows, continues⟩ := conclude_send serves phase
      obtain ⟨last, concluded, changed, settled⟩ :=
        inductionHypothesis _ (brief _) serving running
      rw [rows] at concluded changed settled
      exact ⟨last, continues _ _ _ concluded, changed, settled⟩

/-- What a store holds, as far as a caller may know. -/
def records (state : Remote) : RecordMap := recordsOf state.rows

/-- What a lone call leaves behind, for the session that it stores. -/
def storeOutcome (store : RemoteStore) (idOf : Cookie → Option Id) (index : Nat) (now : DateTime)
    (session : Session) (state : Remote) : Option Outcome :=
  (state.storeAlone store idOf index now).map fun (reply, last) =>
    session.observe last.process.heap last.records reply

variable {session : Session} {origin : Option Id} {error : Error}

theorem storeOutcome_refused (offers : state.process.Offers index session)
    (refused : session.persistenceOrigin state.process.heap = .error error) :
    state.storeOutcome store idOf index now session =
      some (session.refused state.process.heap state.records) := by
  have answered : (remoteMachine store idOf).step state (.storeSession index) =
      some (.error .sessionConflict, { state with process := state.process.dropHandle index }) := by
    show state.storeSession index = _
    unfold storeSession
    rw [offers.attempt_refused refused]
    rfl
  unfold storeOutcome storeAlone
  rw [answered]
  rfl

/-- A call that is granted gets its guard, with its program still to run. -/
theorem conclude_opened (idOf : Cookie → Option Id) (now : DateTime)
    (offers : state.process.Offers index session)
    (granted : session.persistenceOrigin state.process.heap = .ok origin)
    (native : store.tokens = false) :
    ∃ started opened : Remote, (remoteMachine store idOf).step state (.storeSession index) =
        some (.save state.process.nextSave, started) ∧
      opened.Serves state.process.nextSave (session.capturedSave state.process.heap origin)
        (session.writeGuard origin true) (session.opened state.process.heap origin) ∧
      opened.calls state.process.nextSave =
        some (.running (store.write origin (session.wire state.process.heap) now)) ∧
      opened.rows = state.rows ∧
      ∀ fuel reply last,
        (remoteMachine store idOf).conclude (onlyStore state.process.nextSave now) fuel opened =
            some (reply, last) →
          (remoteMachine store idOf).conclude (onlyStore state.process.nextSave now) (fuel + 2)
            started = some (reply, last) := by
  let number := state.process.nextSave
  let attempted := state.process.attempted index session origin
  let started := { state.setCall number (some .attempted) with process := attempted }
  have starting : state.storeSession index = some (.save number, started) := by
    unfold storeSession
    rw [offers.attempt_granted granted]
    rfl
  have waiting : started.calls number = some .attempted := Function.update_self _ _ _
  have found : attempted.saves number = some { source := session, origin } :=
    Function.update_self _ _ _
  let copied := { attempted.setSave number (some (session.capturedSave state.process.heap origin)) with
    heap := (session.persistenceSnapshot (session.claimed state.process.heap origin)).2 }
  let ready := { started.setCall number (some .captured) with process := copied }
  have alive : session.isDestroyed attempted.heap = false := by
    show ((session.claimed state.process.heap origin).families session.family).destroy = false
    rw [Session.claimed_families]
    exact offers.alive
  have capturing : started.capture store number = some (.done, ready) := by
    unfold capture
    rw [waiting]
    show (attempted.saves number).bind _ = _
    rw [found, Option.bind_some, if_neg fun both => Bool.false_ne_true (alive.symm.trans both.2),
      if_neg (by simp [native])]
    show (attempted.capturePersistence number).bind _ = _
    rw [offers.capture_attempted origin]
    rfl
  have waited : ready.calls number = some .captured := Function.update_self _ _ _
  have saved : copied.saves number = some (session.capturedSave state.process.heap origin) :=
    Function.update_self _ _ _
  let program := store.write origin (session.wire state.process.heap) now
  let opened := { ready.setCall number (some (.running program)) with
    process := state.process.guarded index session origin true }
  have acquiring : copied.acquire number none true =
      some (.ok (), state.process.guarded index session origin true) :=
    offers.acquire_captured granted true
  have beginning : ready.beginWrite store number now = some (.done, opened) := by
    unfold beginWrite
    rw [waited]
    show (copied.saves number).bind _ = _
    rw [saved, Option.bind_some, if_neg (by simp [native])]
    show (copied.acquire number none true).bind _ = _
    rw [acquiring]
    rfl
  have first : onlyStore number now started = some (.capture number) := by
    unfold onlyStore
    rw [waiting]
  have second : onlyStore number now ready = some (.beginWrite number now) := by
    unfold onlyStore
    rw [waited]
  have running : opened.calls number = some (.running program) := Function.update_self _ _ _
  refine ⟨started, opened, starting, ⟨⟨false, ?_⟩, Function.update_self _ _ _, rfl⟩, running, rfl,
    fun fuel reply last rest => ?_⟩
  · exact Function.update_self _ _ _
  · exact Machine.conclude_of_step first capturing (Machine.conclude_of_step second beginning rest)

/-- A granted call runs the program of its store. -/
theorem storeOutcome_granted (offers : state.process.Offers index session)
    (granted : session.persistenceOrigin state.process.heap = .ok origin)
    (native : store.tokens = false)
    (brief : (store.write origin (session.wire state.process.heap) now).Brief 2) :
    state.storeOutcome store idOf index now session =
      let ended := (store.write origin (session.wire state.process.heap) now).run state.rows
      some (ended.1.outcome state.process.heap session (recordsOf ended.2)) := by
  obtain ⟨started, opened, starting, serves, running, rows, continues⟩ :=
    conclude_opened idOf now offers granted native
  have alive : (session.writeGuard origin true).isDestroyed
      (session.opened state.process.heap origin) = false :=
    (Session.opened_isDestroyed state.process.heap session origin offers.family).trans offers.alive
  obtain ⟨last, concluded, changed, settled⟩ :=
    conclude_program _ brief serves rfl alive native running
  rw [rows] at concluded changed settled
  have answered : state.storeAlone store idOf index now = some (Ending.reply session
      ((store.write origin (session.wire state.process.heap) now).run state.rows).1, last) := by
    unfold storeAlone
    rw [starting]
    exact continues _ _ _ concluded
  unfold storeOutcome
  rw [answered, Option.map_some]
  refine congrArg some ?_
  show session.observe last.process.heap (recordsOf last.rows) _ = _
  rw [settled, changed]
  exact Session.observe_settle granted
    (Session.opened_persistedId state.process.heap session origin offers.family)
    (Session.opened_cells state.process.heap session origin offers.data) _ _ true

end Remote

end Saysion
