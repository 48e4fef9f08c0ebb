/-
This file proves that every step of a process with a remote store keeps its
invariant, one lemma for each kind of step. The step in which a command takes
effect leaves the process alone; every other step takes a path of coordinated
moves, and at most sends a command or loses a row.
-/

import Saysion.RemoteCases
import Saysion.RemoteInvariant

namespace Saysion

/-- What every step does: it is a path of coordinated moves, keeps the invariant, and brings no
session from elsewhere but one under a born id. -/
structure Remote.Advances (idOf : Cookie → Option Id) (state after : Remote) : Prop where
  path : Process.Path idOf Process.Coordinated state.process after.process
  sound : RemoteSound idOf after
  live : ∀ session, after.process.Live session →
    (∃ twin, state.process.Live twin ∧ twin.id = session.id ∧ twin.family = session.family) ∨
      session.id ∉ state.process.seen ∨ session.id ∈ state.born

theorem Process.Moves.plain {idOf : Cookie → Option Id} {process next : Process}
    (move : Process.Moves idOf process .ordinary next) :
    Process.Path idOf Process.Plain process next :=
  move.path (Or.inl rfl)

namespace RemoteSound

variable {store : RemoteStore} {idOf : Cookie → Option Id} {state after : Remote} {reply : Reply}
  {index : Nat}

theorem plain (path : Process.Path idOf Process.Plain state.process after.process)
    (sound : RemoteSound idOf after) : state.Advances idOf after :=
  ⟨path.coordinated, sound, live_plain path⟩

/-- A call that does not wait need not say what became of its flight. -/
theorem idle {phase : RemotePhase} {result : Remote} (current : state.calls index = some phase)
    (idle : ∀ number next, phase ≠ .waiting number next) :
    ∀ number flight next save, state.calls index = some (.waiting number next) →
      state.process.saves index = some save → state.flights number = some flight →
        flight.command.creates ≠ none → flight.answer = none →
          (result.process.heap.families save.source.family).uncertain = true := by
  intro number flight next save waiting
  exact absurd (Option.some.inj (current.symm.trans waiting)) (idle number next)

/-! ### Storing -/

theorem storeSession (sound : RemoteSound idOf state)
    (step : state.storeSession index = some (reply, after)) : state.Advances idOf after := by
  obtain ⟨process, attempt, outcome⟩ := Remote.storeSession_cases step
  have path : Process.Path idOf Process.Plain state.process process :=
    Process.Moves.plain (.attempt attempt)
  obtain ⟨session, found, ⟨_, _, refused, rfl⟩ | ⟨origin, heap, granted, answered, rfl⟩⟩ :=
    Process.attempt_cases attempt <;> obtain ⟨error, failed, rfl⟩ | ⟨saved, rfl⟩ := outcome
  · exact plain path (sound.still path rfl rfl rfl rfl (sound.sends_none rfl rfl) rfl rfl
      (fun _ there => there) rfl)
  · cases refused.symm.trans saved
  · cases answered.symm.trans failed
  · have unused := sound.dispatching.locking.unusedSave _ le_rfl
    refine plain path (sound.own path (fun _ member => member) rfl
      (fun key different => ⟨Function.update_of_ne different _ _, rfl⟩) ?_ ?_
      (sound.sends_none rfl rfl) rfl rfl rfl rfl)
    · rintro _ ⟨⟩
      exact ⟨_, Function.update_self _ _ _, rfl, unused.2⟩
    · intro number flight next save _ saved
      cases unused.1.symm.trans saved

/-- A capture changes the save's snapshot and revision only. -/
theorem captured (sound : RemoteSound idOf state) {process : Process} {save newer : Save}
    (path : Process.Path idOf Process.Plain state.process process)
    (attempted : state.calls index = some .attempted)
    (found : state.process.saves index = some save)
    (saves : process.saves = Function.update state.process.saves index (some newer))
    (source : newer.source = save.source) (unsent : newer.dispatched = save.dispatched)
    (snapshot : ∃ snapshot, newer.snapshot = some snapshot ∧ snapshot.id = save.source.id)
    (guards : process.guards = state.process.guards)
    (dispatched : process.dispatched = state.process.dispatched) :
    state.Advances idOf { state.setCall index (some .captured) with process } := by
  obtain ⟨older, lookup, undispatched, unguarded⟩ := sound.calls index _ attempted
  obtain rfl := Option.some.inj (found.symm.trans lookup)
  refine plain path (sound.own path (fun id member => dispatched ▸ member) rfl
    (fun key different => ⟨?_, by rw [guards]⟩) ?_ (idle attempted (by simp))
    (sound.sends_none rfl rfl) rfl rfl rfl rfl)
  · rw [saves]
    exact Function.update_of_ne different _ _
  · rintro _ ⟨⟩
    refine ⟨newer, by rw [saves]; exact Function.update_self _ _ _, unsent.trans undispatched,
      guards ▸ unguarded, ?_⟩
    rw [source]
    exact snapshot

theorem capture (sound : RemoteSound idOf state)
    (step : state.capture store index = some (reply, after)) : state.Advances idOf after := by
  obtain ⟨save, attempted, found, _, outcome⟩ := Remote.capture_cases step
  obtain ⟨older, lookup, undispatched, unguarded⟩ := sound.calls index _ attempted
  obtain rfl := Option.some.inj (found.symm.trans lookup)
  rcases outcome with ⟨_, _, rfl⟩ | ⟨process, ⟨_, capture⟩ | ⟨_, snapshot, capture⟩, rfl⟩
  · refine plain .refl (sound.own .refl (fun _ member => member) rfl (fun _ _ => ⟨rfl, rfl⟩) ?_
      (idle attempted (by simp)) (sound.sends_none rfl rfl) rfl rfl rfl rfl)
    rintro _ ⟨⟩
    refine ⟨save, found, fun sent => ?_⟩
    cases undispatched.symm.trans sent
  · have path : Process.Path idOf Process.Plain state.process process :=
      Process.Moves.plain (.captureImmutable capture)
    obtain ⟨other, lookup, _, rfl⟩ := Process.captureImmutable_cases capture
    obtain rfl := Option.some.inj (found.symm.trans lookup)
    exact sound.captured path attempted found rfl rfl rfl ⟨_, rfl, rfl⟩ rfl rfl
  · have path : Process.Path idOf Process.Plain state.process process :=
      Process.Moves.plain (.capturePersistence capture)
    obtain ⟨other, lookup, _, _, rfl⟩ := Process.capturePersistence_cases capture
    obtain rfl := Option.some.inj (found.symm.trans lookup)
    exact sound.captured path attempted found rfl rfl rfl ⟨_, rfl, rfl⟩ rfl rfl

theorem beginWrite (sound : RemoteSound idOf state) {now : DateTime}
    (step : state.beginWrite store index now = some (reply, after)) :
    state.Advances idOf after := by
  obtain ⟨save, snapshot, result, process, captured, found, stored, acquire, _, outcome⟩ :=
    Remote.beginWrite_cases step
  obtain ⟨older, lookup, undispatched, unguarded, wire, known, id⟩ := sound.calls index _ captured
  obtain rfl := Option.some.inj (found.symm.trans lookup)
  obtain rfl := Option.some.inj (stored.symm.trans known)
  have receipt : (if store.tokens = true then some index else none) = none ∨
      (if store.tokens = true then some index else none) = some index := by
    split
    · exact Or.inr rfl
    · exact Or.inl rfl
  have path : Process.Path idOf Process.Plain state.process process :=
    Process.Moves.plain (.acquire receipt acquire)
  obtain ⟨other, lookup, _, _, ⟨_, heap, _, rfl, rfl⟩ | ⟨guard, heap, granted, rfl, rfl⟩⟩ :=
    Process.acquire_cases acquire
  · obtain ⟨error, _, rfl⟩ := outcome.resolve_right fun wrong => by cases wrong.1
    refine plain path (sound.own path (fun _ member => member) rfl (fun _ _ => ⟨rfl, rfl⟩) ?_
      (idle captured (by simp)) (sound.sends_none rfl rfl) rfl rfl rfl rfl)
    rintro _ ⟨⟩
    refine ⟨save, found, fun sent => ?_⟩
    cases undispatched.symm.trans sent
  · obtain ⟨_, rfl⟩ := outcome.resolve_left fun ⟨_, wrong, _⟩ => by cases wrong
    obtain rfl := Option.some.inj (found.symm.trans lookup)
    obtain ⟨_, _, _, rfl, _⟩ := Session.beginGuardedWrite_ok granted
    refine plain path (sound.own path (fun _ member => member) rfl
      (fun key different => ⟨rfl, Function.update_of_ne different _ _⟩) ?_
      (idle captured (by simp)) (sound.sends_none rfl rfl) rfl rfl rfl rfl)
    rintro _ ⟨⟩
    refine ⟨save, found, ⟨_, Function.update_self _ _ _, rfl, fun creates => ?_⟩, .fresh,
      undispatched, ?_⟩
    · have creates : save.origin ≠ some save.source.id := creates
      simp [creates]
    · rw [← id]
      exact store.obeys _ _ _

/-- A command that creates nothing is sent. -/
theorem send_existing (sound : RemoteSound idOf state) {command : Command}
    {next : Answer → Program} {save : Save}
    (running : state.calls index = some (.running (.send command next)))
    (found : state.process.saves index = some save) (existing : command.creates = none) :
    state.Advances idOf ((state.launch (save.flight command)).setCall index
      (some (.waiting state.nextFlight next))) := by
  obtain ⟨older, lookup, held, standing, stands, obeys⟩ := sound.calls index _ running
  obtain rfl := Option.some.inj (found.symm.trans lookup)
  refine plain .refl (sound.own .refl (fun _ member => member) rfl (fun _ _ => ⟨rfl, rfl⟩) ?_
    (idle running (by simp)) (sound.sends_launch rfl rfl fun id creates => ?_) rfl rfl rfl rfl)
  · rintro _ ⟨⟩
    refine ⟨save, found, held, _, Function.update_self _ _ _, rfl, rfl, standing, obeys, ?_⟩
    rw [if_pos (show (save.flight command).command.creates = none from existing)]
    exact stands
  · cases existing.symm.trans creates

/-- A creating command is sent, the only one of its save and the only one ever for its id. -/
theorem send_creating (sound : RemoteSound idOf state) {command : Command}
    {next : Answer → Program} {save : Save} {process : Process}
    (running : state.calls index = some (.running (.send command next)))
    (found : state.process.saves index = some save) (creating : command.creates ≠ none)
    (dispatch : state.process.dispatch index = some process) :
    state.Advances idOf { (state.launch (save.flight command)).setCall index
      (some (.waiting state.nextFlight next)) with process } := by
  obtain ⟨older, lookup, held, standing, stands, obeys⟩ := sound.calls index _ running
  obtain rfl := Option.some.inj (found.symm.trans lookup)
  obtain ⟨id, names⟩ := Option.ne_none_iff_exists'.mp creating
  obtain ⟨rfl, creates, undispatched⟩ := obeys.1.creates names stands
  obtain ⟨guard, guarded, unsettled, uncertain⟩ := held
  have path : Process.Path idOf Process.Plain state.process process :=
    Process.Moves.plain (.dispatch found guarded creates undispatched dispatch)
  have unknown : save.source.id ∉ state.process.dispatched :=
    sound.dispatching.unused index guard save guarded found creates undispatched
  have stems := path.stems
  obtain ⟨other, lookup, rfl⟩ := Process.dispatch_cases dispatch
  obtain rfl := Option.some.inj (found.symm.trans lookup)
  refine plain path (sound.own path (fun _ member => List.mem_cons_of_mem _ member) rfl
    (fun key different => ⟨Function.update_of_ne different _ _, rfl⟩) ?_ (idle running (by simp))
    (sound.sends_launch rfl rfl fun id same => ?_) rfl rfl rfl rfl)
  · rintro _ ⟨⟩
    refine ⟨_, Function.update_self _ _ _, ⟨guard, guarded, unsettled, uncertain⟩, _,
      Function.update_self _ _ _, rfl, rfl, standing, obeys, ?_⟩
    rw [if_neg (show (save.flight command).command.creates ≠ none from creating)]
    exact ⟨rfl, creates⟩
  · obtain rfl := Option.some.inj (names.symm.trans same)
    refine ⟨unknown, List.mem_cons_self, obeys.1.proper, ?_, ?_, ?_, ?_⟩
    · exact fun member => unknown (sound.born _ member)
    · -- The three occasions for a creating command.
      obtain ⟨_, ⟨_, unsaved, alone⟩ | ⟨rfl, alone⟩ | ⟨_, source, saved, different, replaces⟩⟩ :=
        obeys.1.creating names
      · exact Or.inl ⟨Save.rotation_none unsaved, alone⟩
      · obtain ⟨_, source, saved, different, reserved⟩ := stands
        exact Or.inr ⟨source, Save.rotation_eq saved different, different,
          Or.inr ⟨alone, reserved⟩⟩
      · exact Or.inr ⟨source, Save.rotation_eq saved different, different, Or.inl replaces⟩
    · refine ⟨_, rfl, (sound.dispatching.authority.allocated _ (.save found)).1, Or.inr ?_⟩
      exact ⟨index, next, _, Function.update_self _ _ _, Function.update_self _ _ _, rfl⟩
    · intro session member same
      rcases stems.live session member with ⟨twin, earlier, twinId, family⟩ | unseen
      · rcases sound.dispatching.together twin save.source earlier (.save found)
          (twinId.trans same) with together | known
        · exact congrArg some (together.symm.trans family)
        · exact absurd (twinId.trans same ▸ known) unknown
      · exact absurd (same ▸ sound.dispatching.live _ (.save found)) unseen

theorem send (sound : RemoteSound idOf state) (step : state.send index = some (reply, after)) :
    state.Advances idOf after := by
  obtain ⟨save, found, _, ⟨command, next, running, ⟨existing, rfl⟩ | ⟨creating, _, dispatch, rfl⟩⟩ |
    ⟨error, unremoved, rfl⟩⟩ := Remote.send_cases step
  · exact sound.send_existing running found existing
  · exact sound.send_creating running found creating dispatch
  · refine plain .refl (sound.own .refl (fun _ member => member) rfl (fun _ _ => ⟨rfl, rfl⟩) ?_
      (idle unremoved (by simp)) (sound.sends_launch rfl rfl fun id creates => ?_) rfl rfl rfl rfl)
    · rintro _ ⟨⟩
      exact sound.calls index _ unremoved
    · cases creates

theorem receive (sound : RemoteSound idOf state)
    (step : state.receive index = some (reply, after)) : state.Advances idOf after := by
  obtain ⟨number, flight, answer, sent, answered, _, ⟨next, waiting, rfl⟩ |
    ⟨error, process, removing, confirm, rfl⟩⟩ := Remote.receive_cases step
  · obtain ⟨save, found, held, other, lookup, _, _, awaits⟩ := sound.calls index _ waiting
    obtain rfl := Option.some.inj (sent.symm.trans lookup)
    unfold Save.Awaits at awaits
    rw [answered] at awaits
    obtain ⟨standing, stands, obeys⟩ := awaits
    refine plain .refl (sound.own .refl (fun _ member => member) rfl (fun _ _ => ⟨rfl, rfl⟩) ?_ ?_
      (sound.sends_none rfl rfl) rfl rfl rfl rfl)
    · rintro _ ⟨⟩
      exact ⟨save, found, held, standing, stands, obeys⟩
    · intro key flight' next' save' current _ lookup _ unanswered
      cases Option.some.inj (waiting.symm.trans current)
      obtain rfl := Option.some.inj (sent.symm.trans lookup)
      cases unanswered.symm.trans answered
  · obtain ⟨save, found, ⟨guard, guarded⟩, destroyed⟩ := sound.calls index _ removing
    have path : Process.Path idOf Process.Plain state.process process :=
      Process.Moves.plain (.confirmRemoved confirm)
    obtain ⟨other, _, rfl⟩ := Process.confirmRemoved_cases confirm
    refine plain path (sound.own path (fun _ member => member) rfl
      (fun key different => ⟨rfl, Function.update_of_ne different _ _⟩) ?_
      (idle removing (by simp)) (sound.sends_none rfl rfl) rfl rfl rfl rfl)
    rintro _ ⟨⟩
    exact ⟨save, found, fun _ => Or.inl destroyed⟩

/-- A guard is destroyed when its save is. -/
theorem isDestroyed_guard (sound : RemoteSound idOf state) {save : Save} {guard : WriteGuard}
    (found : state.process.saves index = some save)
    (guarded : state.process.guards index = some guard) :
    guard.isDestroyed state.process.heap = save.source.isDestroyed state.process.heap := by
  rw [WriteGuard.isDestroyed, sound.dispatching.locking.own index guard save guarded found]
  rfl

theorem check (sound : RemoteSound idOf state)
    (step : state.check store index = some (reply, after)) : state.Advances idOf after := by
  obtain ⟨guard, written, guarded, _, destroyed, _, rfl⟩ := Remote.check_cases step
  obtain ⟨save, found, _⟩ := sound.calls index _ written
  refine plain .refl (sound.own .refl (fun _ member => member) rfl (fun _ _ => ⟨rfl, rfl⟩) ?_
    (idle written (by simp)) (sound.sends_none rfl rfl) rfl rfl rfl rfl)
  rintro _ ⟨⟩
  exact ⟨save, found, ⟨guard, guarded⟩,
    (sound.isDestroyed_guard found guarded).symm.trans destroyed⟩

/-- A confirmed write has created its record, or updates one that was created. -/
theorem born_of_written (sound : RemoteSound idOf state) {save : Save}
    (written : state.calls index = some (.running .written))
    (found : state.process.saves index = some save) : save.source.id ∈ state.born := by
  obtain ⟨other, lookup, ⟨guard, guarded, _⟩, standing, stands, update | rfl⟩ :=
    sound.calls index _ written
  · obtain rfl := Option.some.inj (found.symm.trans lookup)
    have marker := sound.dispatching.agreement index guard save guarded found
    exact sound.markers _ (Process.Live.refers (.save found)) _ (marker.trans update)
  · obtain rfl := Option.some.inj (found.symm.trans lookup)
    exact stands.2.2

theorem finish (sound : RemoteSound idOf state)
    (step : state.finish store index = some (reply, after)) : state.Advances idOf after := by
  have others : ∀ (guard : WriteGuard) (key : Nat), key ≠ index →
      Function.update state.process.guards index (some guard) key = state.process.guards key :=
    fun guard key different => Function.update_of_ne different _ _
  obtain ⟨_, ⟨written, result, finished, finish, outcome⟩ | ⟨revoked, outcome⟩⟩ :=
    Remote.finish_cases step
  · obtain ⟨save, found, _⟩ := sound.calls index _ written
    have born := sound.born_of_written written found
    have first : Process.Path idOf Process.Plain state.process finished :=
      Process.Moves.plain (.finish finish)
    obtain ⟨guard, guarded, checked, rfl⟩ := Process.finish_cases finish
    rw [sound.isDestroyed_guard found guarded] at checked
    rcases outcome with ⟨error, process, refused, cleanup, rfl⟩ | ⟨_, rfl⟩
    · have destroyed : save.source.isDestroyed state.process.heap = true := by
        by_contra alive
        rw [if_neg alive] at checked
        cases checked.symm.trans refused
      have path := first.trans (Process.Moves.plain (.requireCleanup cleanup))
      obtain ⟨settled, lookup, rfl⟩ := Process.requireCleanup_cases cleanup
      have twice : ∀ key ≠ index, Function.update (Function.update state.process.guards index
          (some { guard with settled := true })) index (some { settled with settled := false }) key =
            state.process.guards key :=
        fun key different => (Function.update_of_ne different _ _).trans (others _ key different)
      refine plain path (sound.own path (fun _ member => member) rfl
        (fun key different => ⟨rfl, twice key different⟩) ?_ (idle written (by simp))
        (sound.sends_none rfl rfl) rfl rfl rfl rfl)
      rintro _ ⟨⟩
      refine ⟨save, found, ?_⟩
      split
      · exact fun _ => Or.inl destroyed
      · exact ⟨⟨_, Function.update_self _ _ _⟩, destroyed⟩
    · refine plain first (sound.own first (fun _ member => member) rfl
        (fun key different => ⟨rfl, others _ key different⟩) ?_ (idle written (by simp))
        (sound.sends_none rfl rfl) rfl rfl rfl rfl)
      rintro _ ⟨⟩
      exact ⟨save, found, ⟨_, Function.update_self _ _ _⟩, born⟩
  · obtain ⟨save, found, _, standing, stands, early⟩ := sound.calls index _ revoked
    have unsent : save.dispatched = false := stands.unsent early
    rcases outcome with ⟨_, process, confirm, rfl⟩ | ⟨_, result, process, finish, outcome⟩
    · have path : Process.Path idOf Process.Plain state.process process :=
        Process.Moves.plain (.confirmRemoved confirm)
      obtain ⟨guard, _, rfl⟩ := Process.confirmRemoved_cases confirm
      refine plain path (sound.own path (fun _ member => member) rfl
        (fun key different => ⟨rfl, others _ key different⟩) ?_ (idle revoked (by simp))
        (sound.sends_none rfl rfl) rfl rfl rfl rfl)
      rintro _ ⟨⟩
      exact ⟨save, found, unsent⟩
    · have path : Process.Path idOf Process.Plain state.process process :=
        Process.Moves.plain (.finish finish)
      obtain ⟨guard, _, _, rfl⟩ := Process.finish_cases finish
      have ends : ∀ phase : RemotePhase, (∀ other : Remote, phase.Ready other index save) →
          state.Advances idOf { state.setCall index (some phase) with
            process := state.process.setGuard index (some { guard with settled := true }) } := by
        intro phase ready
        refine plain path (sound.own path (fun _ member => member) rfl
          (fun key different => ⟨rfl, others _ key different⟩) ?_ (idle revoked (by simp))
          (sound.sends_none rfl rfl) rfl rfl rfl rfl)
        rintro _ ⟨⟩
        exact ⟨save, found, ready _⟩
      rcases outcome with ⟨_, _, rfl⟩ | ⟨_, rfl⟩
      · refine ends _ fun other sent => ?_
        cases unsent.symm.trans sent
      · exact ends _ fun other => unsent

/-- A call ends without success: its guard and its revision are dropped. -/
theorem abandon (sound : RemoteSound idOf state) {phase : RemotePhase}
    (current : state.calls index = some phase) (unfinished : phase ≠ .finished) :
    state.Advances idOf
      { state.setCall index none with process := state.process.abandon index } := by
  have path : Process.Path idOf Process.Plain state.process (state.process.abandon index) :=
    Process.Moves.plain (.abandon (sound.abandonable current unfinished))
  have dispatched : (state.process.abandon index).dispatched = state.process.dispatched := by
    obtain ⟨heap, abandoned⟩ := state.process.abandon_eq index
    rw [abandoned]
    rfl
  refine plain path (sound.own path (fun id member => dispatched ▸ member) rfl
    (fun key different => ?_) ?_ ?_ (sound.sends_none rfl rfl) rfl rfl rfl rfl)
  · show (state.process.abandon index).saves key = _ ∧ (state.process.abandon index).guards key = _
    rw [Process.abandon, Process.saves_dropSave, Process.saves_dropGuard, Agreement.guards_dropSave,
      Process.guards_dropGuard]
    exact ⟨Function.update_of_ne different _ _, Function.update_of_ne different _ _⟩
  · rintro _ ⟨⟩
  · intro number flight next save waiting found sent creating unanswered
    obtain ⟨other, lookup, ready⟩ := sound.calls index _ waiting
    obtain rfl := Option.some.inj (found.symm.trans lookup)
    obtain ⟨_, creates⟩ := creates_of_waiting ready sent creating unanswered
    obtain ⟨guard, guarded, unsettled, fences⟩ := ready.1.fences creates
    rw [← sound.dispatching.locking.own index guard save guarded found]
    exact Process.uncertain_abandon guarded unsettled fences

theorem fail (sound : RemoteSound idOf state) (step : state.fail index = some (reply, after)) :
    state.Advances idOf after := by
  obtain ⟨error, failed, _, rfl⟩ := Remote.fail_cases step
  rcases failed with failed | failed <;> exact sound.abandon failed (by simp)

theorem lose (sound : RemoteSound idOf state) (step : state.lose index = some (reply, after)) :
    state.Advances idOf after := by
  obtain ⟨phase, current, lost, _, rfl⟩ := Remote.lose_cases step
  refine sound.abandon current ?_
  rcases lost with ⟨_, _, rfl⟩ | ⟨_, _, rfl⟩ | ⟨_, rfl⟩ | ⟨_, _, rfl⟩ <;> simp

theorem cancelStore (sound : RemoteSound idOf state)
    (step : state.cancelStore index = some (reply, after)) : state.Advances idOf after := by
  obtain ⟨phase, current, waits, _, rfl⟩ := Remote.cancelStore_cases step
  refine sound.abandon current ?_
  rcases waits with rfl | ⟨_, rfl⟩ | ⟨_, _, rfl⟩ | ⟨_, rfl⟩ | ⟨_, _, rfl⟩ <;> simp

/-- The end of a successful call; the marker moves to a born id. -/
theorem completed (sound : RemoteSound idOf state) {process : Process} {cookie : Option Cookie}
    (finished : state.calls index = some .finished)
    (complete : state.process.complete index = some (cookie, process)) :
    state.Advances idOf { state.setCall index none with process } := by
  obtain ⟨save, found, ⟨guard, guarded⟩, born⟩ := sound.calls index _ finished
  have path : Process.Path idOf Process.Coordinated state.process process :=
    (Process.Moves.complete guarded complete).path ⟨by simp, by simp⟩
  have refersLater : ∀ ref, process.Refers ref → state.process.Refers ref ∨
      state.process.heap.nextFamily ≤ ref := by
    intro ref refers
    by_cases old : ref < state.process.heap.nextFamily
    · exact Or.inl ((path.spares sound.dispatching).refers ref old refers)
    · exact Or.inr (Nat.le_of_not_lt old)
  have later := sound.dispatching.path path
  obtain ⟨other, lookup, marked, kept, nextFamily⟩ :=
    Process.persistedId_complete sound.dispatching guarded complete
  obtain rfl := Option.some.inj (found.symm.trans lookup)
  have markers : ∀ ref, process.Refers ref → ∀ marker,
      (process.heap.families ref).persistedId = some marker → marker ∈ state.born := by
    intro ref refers marker current
    by_cases same : ref = save.source.family
    · rw [same, marked] at current
      exact Option.some.inj current ▸ born
    · rw [kept ref same] at current
      rcases refersLater ref refers with earlier | new
      · exact sound.markers ref earlier marker current
      · have old := Process.refers_lt refers later.authority later.locking
        rw [nextFamily] at old
        exact absurd old (Nat.not_lt_of_ge new)
  have live : ∀ session, process.Live session → state.process.Live session :=
    fun session member => Process.live_complete guarded complete member
  obtain ⟨_, revision, _, _, _, rfl⟩ := Process.complete_of_guard guarded complete
  have others : ∀ key ≠ index, Function.update state.process.saves index none key =
      state.process.saves key ∧ Function.update state.process.guards index none key =
        state.process.guards key :=
    fun key different => ⟨Function.update_of_ne different _ _, Function.update_of_ne different _ _⟩
  refine ⟨path, sound.preserve path (fun session member => Or.inl ⟨session, live session member,
    rfl, rfl⟩) markers (fun _ member => member) (fun key phase current => ?_)
    (fun key number flight next other waiting lookup _ _ _ => ?_) (sound.sends_none rfl rfl) rfl rfl
    (fun _ there => there) sound.reads,
    fun session member => Or.inl ⟨session, live session member, rfl, rfl⟩⟩
  · rcases update_eq_some current with ⟨_, wrong⟩ | ⟨different, earlier⟩
    · cases wrong
    · exact Or.inr ⟨earlier, others key different⟩
  · have different : key ≠ index := by
      rintro rfl
      cases finished.symm.trans waiting
    exact Or.inr ⟨(Function.update_of_ne different _ _).trans waiting, other,
      (others key different).1.trans lookup, rfl⟩

theorem complete (sound : RemoteSound idOf state)
    (step : state.complete index = some (reply, after)) : state.Advances idOf after := by
  obtain ⟨_, _, finished, complete, _, rfl⟩ | ⟨expired, _, rfl⟩ := Remote.complete_cases step
  · exact sound.completed finished complete
  · exact sound.abandon expired (by simp)

end RemoteSound

/-! ### A command takes effect -/

namespace Flight

theorem target_birth (flight : Flight) (id : Id) : (flight.birth id).target = id := by
  unfold birth
  split <;> rfl

theorem mem_births {flight : Flight} {answer : Answer} {id : Id} :
    id ∈ (flight.births answer).map Birth.target ↔
      flight.command.creates = some id ∧ answer = .affected 1 := by
  unfold births
  split
  · rename_i existing
    simp [existing]
  · rename_i created creates
    rw [creates]
    split
    · rename_i affected
      simp [target_birth, affected, eq_comm]
    · rename_i refused
      simp [refused]

/-- A source is newly reserved by the deletion that removed it. -/
theorem reserve_new {flight : Flight} {answer : Answer} {reserved : Id → Option Id}
    {source target : Id} (found : flight.reserve answer reserved source = some target) :
    reserved source = some target ∨ flight.rotation = some (source, target) ∧
      flight.command = .delete source ∧ answer = .affected 1 := by
  unfold reserve at found
  cases rotation : flight.rotation with
  | none =>
    rw [rotation] at found
    exact Or.inl found
  | some pair =>
    obtain ⟨first, second⟩ := pair
    rw [rotation] at found
    dsimp only at found
    split at found
    · exact Or.inl found
    rename_i affected
    split at found
    · rename_i deletes
      by_cases same : source = first
      · subst same
        rw [Function.update_self] at found
        obtain rfl := Option.some.inj found
        exact Or.inr ⟨rfl, deletes, not_not.mp affected⟩
      · rw [Function.update_of_ne same] at found
        exact Or.inl found
    split at found
    · exact Or.inl found
    by_cases same : source = first
    · rw [same, Function.update_self] at found
      cases found
    · rw [Function.update_of_ne same] at found
      exact Or.inl found

theorem reserve_taken {flight : Flight} {reserved : Id → Option Id} {source target : Id}
    (rotation : flight.rotation = some (source, target)) (deletes : flight.command = .delete source) :
    flight.reserve (.affected 1) reserved source = some target := by
  simp only [reserve, rotation, ne_eq, not_true_eq_false, if_false, if_pos deletes,
    Function.update_self]

/-- A reservation ends when a creating command of a rotation takes effect. -/
theorem reserve_kept {flight : Flight} {answer : Answer} {reserved : Id → Option Id}
    {source target : Id} (found : reserved source = some target)
    (deletes : flight.command = .delete source → answer ≠ .affected 1)
    (creates : flight.command.creates ≠ none → answer = .affected 1 →
      ∀ other, flight.rotation ≠ some (source, other)) :
    flight.reserve answer reserved source = some target := by
  unfold reserve
  cases rotation : flight.rotation with
  | none => exact found
  | some pair =>
    obtain ⟨first, second⟩ := pair
    dsimp only
    split
    · exact found
    rename_i affected
    split
    · rename_i removes
      by_cases same : source = first
      · subst same
        exact absurd (deletes removes) affected
      · rwa [Function.update_of_ne same]
    split
    · exact found
    rename_i creating
    by_cases same : source = first
    · subst same
      exact absurd rotation (creates creating (not_not.mp affected) second)
    · rwa [Function.update_of_ne same]

end Flight

namespace RemoteSound

variable {store : RemoteStore} {idOf : Cookie → Option Id} {state after : Remote} {reply : Reply}
  {index number : Nat} {flight : Flight}

theorem mem_born_takeEffect {id : Id} : id ∈ (state.takeEffect number flight).born ↔
    id ∈ state.born ∨
      flight.command.creates = some id ∧ (flight.command.execute state.rows).1 = .affected 1 := by
  show id ∈ (flight.births _ ++ state.births).map Birth.target ↔ _
  rw [List.map_append, List.mem_append, Flight.mem_births]
  exact or_comm

/-- A command that takes effect leaves no row that was not there, but the one it creates. -/
theorem rows_takeEffect (sound : RemoteSound idOf state)
    (found : state.flights number = some flight) {id : Id}
    (there : (state.takeEffect number flight).rows id ≠ none) :
    state.rows id ≠ none ∨
      flight.command.creates = some id ∧ (flight.command.execute state.rows).1 = .affected 1 := by
  have there : (flight.command.execute state.rows).2 id ≠ none := there
  cases creates : flight.command.creates with
  | none => exact Or.inl (Command.execute_existing creates there)
  | some target =>
    obtain ⟨_, proper, _⟩ := sound.creating number flight target found creates
    rcases Command.execute_creating state.rows creates proper with
      ⟨_, same⟩ | ⟨_, _, row, outcome⟩
    · exact Or.inl (same ▸ there)
    · rw [outcome] at there ⊢
      have there : Function.update (flight.command.spare state.rows) target (some row) id ≠ none :=
        there
      by_cases same : id = target
      · exact Or.inr ⟨by rw [same], rfl⟩
      · rw [Function.update_of_ne same] at there
        exact Or.inl (Command.spare_present there)

/-- A reservation ends only when its target is created. -/
theorem reserved_takeEffect (sound : RemoteSound idOf state)
    (found : state.flights number = some flight) (unanswered : flight.answer = none)
    {source target : Id} (reserved : state.reserved source = some target)
    (other : flight.command.creates ≠ some target) :
    (state.takeEffect number flight).reserved source = some target := by
  obtain ⟨_, absent⟩ := sound.reserved source target reserved
  show flight.reserve (flight.command.execute state.rows).1 state.reserved source = _
  refine Flight.reserve_kept reserved (fun deletes => ?_) fun creating affected second rotation => ?_
  · rw [deletes, Command.execute_delete, if_pos absent]
    simp
  · obtain ⟨id, creates⟩ := Option.ne_none_iff_exists'.mp creating
    obtain ⟨_, proper, pending⟩ := sound.creating number flight id found creates
    rcases (pending unanswered).rotation with ⟨unrotated, _⟩ | ⟨first, rotates, _, occasion⟩
    · cases unrotated.symm.trans rotation
    · obtain ⟨rfl, rfl⟩ := Prod.mk.inj (Option.some.inj (rotates.symm.trans rotation))
      rcases occasion with replaces | ⟨_, kept⟩
      · rcases Command.execute_creating state.rows creates proper with
          ⟨refused, _⟩ | ⟨_, present, _⟩
        · exact refused affected
        · exact present _ replaces absent
      · obtain rfl := Option.some.inj (kept.symm.trans reserved)
        exact other creates

/-- What a save of a given standing has done survives the effect of a command, unless it is its own
creating one. -/
theorem stands_takeEffect (sound : RemoteSound idOf state)
    (found : state.flights number = some flight) (unanswered : flight.answer = none) {save : Save}
    {standing : Standing} (saved : state.process.saves index = some save)
    (held : state.Holding index save) (stands : save.Stands state standing) :
    save.Stands (state.takeEffect number flight) standing := by
  refine stands.mono rfl rfl rfl (fun id member => mem_born_takeEffect.mpr (Or.inl member))
    fun unsent source origin different reserved => ?_
  refine sound.reserved_takeEffect found unanswered reserved fun creates => ?_
  obtain ⟨guard, guarded, _⟩ := held
  have creating : save.Creates := fun same =>
    different (Option.some.inj (origin.symm.trans same))
  exact sound.dispatching.unused index guard save guarded saved creating unsent
    (sound.creating number flight _ found creates).1

/-- The call that waits for a command goes on with its answer. -/
theorem awaits_takeEffect (sound : RemoteSound idOf state)
    (found : state.flights number = some flight) (unanswered : flight.answer = none) {save : Save}
    {next : Answer → Program} (saved : state.process.saves index = some save)
    (held : state.Holding index save) (rotation : flight.rotation = save.rotation)
    (awaits : save.Awaits state flight next) :
    save.Awaits (state.takeEffect number flight)
      { flight with answer := some (flight.command.execute state.rows).1 } next := by
  unfold Save.Awaits at awaits
  rw [unanswered] at awaits
  obtain ⟨standing, ⟨permitted, obeys⟩, sent⟩ := awaits
  refine ⟨_, ?_, obeys _ (flight.command.answers_execute state.rows)⟩
  unfold Standing.after
  split
  · rename_i creating
    obtain ⟨id, creates⟩ := Option.ne_none_iff_exists'.mp creating
    obtain ⟨rfl, _⟩ := permitted.creating creates
    rw [if_neg creating] at sent
    split
    · rename_i affected
      exact ⟨sent.1, sent.2, mem_born_takeEffect.mpr (Or.inr ⟨creates, affected⟩)⟩
    · exact sent
  · rename_i existing
    have existing : flight.command.creates = none := by simpa using existing
    rw [if_pos existing] at sent
    split
    · rename_i takes
      obtain ⟨rfl, affected, source, origin, different, deletes⟩ := takes
      refine ⟨sent, source, origin, different, ?_⟩
      show flight.reserve (flight.command.execute state.rows).1 state.reserved source = _
      rw [affected]
      exact Flight.reserve_taken (rotation.trans (Save.rotation_eq origin different)) deletes
    · exact sound.stands_takeEffect found unanswered saved held sent

/-- What a call relies on survives the effect of a command. -/
theorem ready_takeEffect (sound : RemoteSound idOf state)
    (found : state.flights number = some flight) (unanswered : flight.answer = none) {save : Save}
    {phase : RemotePhase} (saved : state.process.saves index = some save)
    (ready : phase.Ready state index save) :
    phase.Ready (state.takeEffect number flight) index save := by
  cases phase with
  | attempted => exact ready
  | captured => exact ready
  | running program =>
    obtain ⟨held, standing, stands, obeys⟩ := ready
    exact ⟨held, standing, sound.stands_takeEffect found unanswered saved held stands, obeys⟩
  | waiting key next =>
    obtain ⟨held, other, lookup, family, rotation, awaits⟩ := ready
    by_cases same : key = number
    · subst same
      obtain rfl := Option.some.inj (found.symm.trans lookup)
      exact ⟨held, _, Function.update_self _ _ _, family, rotation,
        sound.awaits_takeEffect found unanswered saved held rotation awaits⟩
    · refine ⟨held, other, (Function.update_of_ne same _ _).trans lookup, family, rotation, ?_⟩
      unfold Save.Awaits at awaits ⊢
      split at awaits
      · obtain ⟨standing, obeys, sent⟩ := awaits
        refine ⟨standing, obeys, ?_⟩
        split at sent
        · rename_i existing
          rw [if_pos existing]
          exact sound.stands_takeEffect found unanswered saved held sent
        · rename_i creating
          rw [if_neg creating]
          exact sent
      · obtain ⟨standing, stands, obeys⟩ := awaits
        exact ⟨standing, sound.stands_takeEffect found unanswered saved held stands, obeys⟩
  | unremoved error => exact ready
  | removing key error => exact ready
  | finished => exact ⟨ready.1, mem_born_takeEffect.mpr (Or.inl ready.2)⟩
  | expired => exact ready
  | failed error => exact ready

/-- The effect of a command keeps the invariant. -/
theorem takeEffect (sound : RemoteSound idOf state) (found : state.flights number = some flight)
    (unanswered : flight.answer = none) : RemoteSound idOf (state.takeEffect number flight) := by
  -- The commands are those of before, one of them answered.
  have flights : ∀ key other, (state.takeEffect number flight).flights key = some other →
      ∃ older, state.flights key = some older ∧ older.command = other.command ∧
        (other.answer = none → older = other ∧ key ≠ number) := by
    intro key other lookup
    rcases update_eq_some lookup with ⟨rfl, same⟩ | ⟨different, earlier⟩
    · obtain rfl := Option.some.inj same
      exact ⟨flight, found, rfl, nofun⟩
    · exact ⟨other, earlier, rfl, fun _ => ⟨rfl, different⟩⟩
  have fresh : ∀ id, flight.command.creates = some id → id ∉ state.born :=
    fun id creates => ((sound.creating number flight id found creates).2.2 unanswered).unborn
  constructor
  · exact sound.dispatching
  · intro key phase current
    obtain ⟨save, saved, ready⟩ := sound.calls key phase current
    exact ⟨save, saved, sound.ready_takeEffect found unanswered saved ready⟩
  · intro key beyond
    have different : key ≠ number := by
      rintro rfl
      cases (sound.unsent key beyond).symm.trans found
    exact (Function.update_of_ne different _ _).trans (sound.unsent key beyond)
  · intro key other id lookup creates
    obtain ⟨older, earlier, command, still⟩ := flights key other lookup
    obtain ⟨known, proper, pending⟩ := sound.creating key older id earlier (command ▸ creates)
    refine ⟨known, command ▸ proper, fun waiting => ?_⟩
    obtain ⟨rfl, different⟩ := still waiting
    have distinct : flight.command.creates ≠ some id := fun same =>
      different (sound.once key number older flight id earlier found creates same)
    obtain ⟨unborn, rotation, fenced, alone⟩ := pending waiting
    refine ⟨fun member => ?_, ?_, fenced, alone⟩
    · rcases mem_born_takeEffect.mp member with old | ⟨same, _⟩
      · exact unborn old
      · exact distinct same
    · refine rotation.imp_right fun ⟨source, rotates, apart, occasion⟩ =>
        ⟨source, rotates, apart, occasion.imp_right fun ⟨replaces, reserved⟩ => ⟨replaces, ?_⟩⟩
      exact sound.reserved_takeEffect found unanswered reserved distinct
  · intro first second left right id leftFound rightFound leftCreates rightCreates
    obtain ⟨older, earlier, command, _⟩ := flights first left leftFound
    obtain ⟨newer, later, command', _⟩ := flights second right rightFound
    exact sound.once first second older newer id earlier later (command ▸ leftCreates)
      (command' ▸ rightCreates)
  · intro id member
    rcases mem_born_takeEffect.mp member with old | ⟨creates, _⟩
    · exact sound.born id old
    · exact (sound.creating number flight id found creates).1
  · intro id there
    exact mem_born_takeEffect.mpr ((sound.rows_takeEffect found there).imp_left (sound.rows id))
  · intro key cookie wire id current bound
    exact mem_born_takeEffect.mpr (Or.inl (sound.reads key cookie wire id current bound))
  · intro source target reserved
    rcases Flight.reserve_new reserved with old | ⟨_, deletes, affected⟩
    · obtain ⟨member, absent⟩ := sound.reserved source target old
      refine ⟨mem_born_takeEffect.mpr (Or.inl member), ?_⟩
      by_contra there
      rcases sound.rows_takeEffect found there with before | ⟨creates, _⟩
      · exact before absent
      · exact fresh source creates member
    · have affected : (flight.command.execute state.rows).1 = .affected 1 := affected
      rw [deletes, Command.execute_delete] at affected
      have present : state.rows source ≠ none := by
        intro absent
        rw [if_pos absent] at affected
        cases affected
      refine ⟨mem_born_takeEffect.mpr (Or.inl (sound.rows source present)), ?_⟩
      show (flight.command.execute state.rows).2 source = none
      rw [deletes, Command.execute_delete]
      exact Function.update_self _ _ _
  · intro ref refers marker current
    exact mem_born_takeEffect.mpr (Or.inl (sound.markers ref refers marker current))

theorem execute (sound : RemoteSound idOf state)
    (step : state.execute number = some (reply, after)) : state.Advances idOf after := by
  obtain ⟨flight, found, unanswered, rfl⟩ := Remote.execute_cases step
  exact plain .refl (sound.takeEffect found unanswered)

end RemoteSound

/-! ### Loading -/

/-- What a load hands out is the session of the record, in cells of its own. -/
theorem Process.fetches_deserialize (process : Process) {idOf : Cookie → Option Id}
    {wire : SessionSnapshot} {loaded : Session} {heap : Heap} {cookie : Cookie} {now : DateTime}
    (valid : (Session.deserialize process.heap wire).1.validateLoaded idOf
      (Session.deserialize process.heap wire).2 false cookie now = .ok (some (loaded, heap))) :
    process.Fetches loaded heap ∧ idOf cookie = some loaded.id := by
  unfold Session.validateLoaded at valid
  split at valid
  · cases valid
  rename_i expected bound
  split at valid
  · cases valid
  rename_i same
  split at valid
  · cases valid
  split at valid
  · cases valid
  cases valid
  refine ⟨⟨⟨Nat.le_succ _, Nat.lt_succ_self _, Nat.le_succ _, Nat.lt_succ_self _,
    fun ref old => ?_, Heap.allocFamily_self _ _, rfl, rfl⟩, le_rfl, fun ref old => ?_⟩, ?_⟩
  · show ((process.heap.allocFamily _).allocFamily _).families ref = _
    rw [Heap.allocFamily_of_lt _ _ (old.trans (Nat.lt_succ_self _)), Heap.allocFamily_of_lt _ _ old]
  · show (((Session.deserialize process.heap wire).2.setCell process.heap.nextCell _).cells ref) = _
    rw [Heap.setCell_of_ne _ _ _ (ne_of_lt old)]
    exact Heap.allocCell_of_lt _ _ old
  · rw [bound]
    exact congrArg some (not_not.mp same).symm

theorem Process.hidden_deserialize (process : Process) (wire : SessionSnapshot) :
    process.Hidden (Session.deserialize process.heap wire).2 where
  nextFamily := Nat.le_succ _
  nextCell := Nat.le_succ _
  cells _ old := Heap.allocCell_of_lt _ _ old
  families _ old := Or.inl (Heap.allocFamily_of_lt _ _ old)

namespace RemoteSound

variable {store : RemoteStore} {idOf : Cookie → Option Id} {state after : Remote} {reply : Reply}
  {index : Nat}

/-- A step that concerns the backend only. -/
theorem outside (sound : RemoteSound idOf state) (process : after.process = state.process)
    (calls : after.calls = state.calls) (sends : state.Sends after)
    (births : after.births = state.births) (reserved : after.reserved = state.reserved)
    (rows : ∀ id, after.rows id ≠ none → state.rows id ≠ none) (reads : after.reads = state.reads) :
    state.Advances idOf after := by
  have path : Process.Path idOf Process.Plain state.process after.process := by
    rw [process]
    exact .refl
  exact plain path (sound.still path (by rw [process]) (by rw [process]) (by rw [process]) calls sends
    births reserved rows reads)

theorem read (sound : RemoteSound idOf state) {cookie : Cookie} {now : DateTime}
    (step : state.read store idOf cookie now = some (reply, after)) : state.Advances idOf after := by
  have nothing : state.Advances idOf state :=
    sound.outside rfl rfl (sound.sends_none rfl rfl) rfl rfl (fun _ there => there) rfl
  rcases Remote.read_cases step with ⟨_, _, rfl⟩ | ⟨id, bound, ⟨_, _, rfl⟩ | ⟨row, selected, _, rfl⟩⟩
  · exact nothing
  · exact nothing
  have there : id ∈ state.born := by
    refine sound.rows id fun absent => ?_
    rw [absent] at selected
    cases selected
  refine plain .refl (sound.preserve .refl (fun session member => Or.inl ⟨session, member, rfl, rfl⟩)
    sound.markers (fun _ member => member) (fun _ _ found => Or.inr ⟨found, rfl, rfl⟩)
    (fun _ _ _ _ save waiting found _ _ _ => Or.inr ⟨waiting, save, found, rfl⟩)
    (sound.sends_none rfl rfl) rfl rfl (fun _ there => there) fun key other wire id' found bound' => ?_)
  rcases update_eq_some found with ⟨_, same⟩ | ⟨_, earlier⟩
  · cases same
    obtain rfl := Option.some.inj (bound.symm.trans bound')
    exact there
  · exact sound.reads key other wire id' earlier bound'

/-- A session joins under a born id, with this id as its marker. -/
theorem join (sound : RemoteSound idOf state) {session : Session} {heap : Heap}
    (fetches : state.process.Fetches session heap) (born : session.id ∈ state.born) :
    state.Advances idOf { state with
      process := (state.process.see session.id).addHandle session heap
      reads := Function.update state.reads index none } := by
  have path : Process.Path idOf Process.Coordinated state.process
      ((state.process.see session.id).addHandle session heap) :=
    (Process.Moves.adopt fetches (sound.born _ born)).path ⟨by simp, by simp⟩
  have live : ∀ other, ((state.process.see session.id).addHandle session heap).Live other →
      (∃ twin, state.process.Live twin ∧ twin.id = other.id ∧ twin.family = other.family) ∨
        other.id ∉ state.process.seen ∨ other.id ∈ state.born := by
    intro other member
    rcases Process.live_addHandle member with rfl | earlier
    · exact Or.inr (Or.inr born)
    · exact Or.inl ⟨other, Process.live_see.mp earlier, rfl, rfl⟩
  refine ⟨path, sound.preserve path live (fun ref refers marker current => ?_)
    (fun _ member => member) (fun _ _ found => Or.inr ⟨found, rfl, rfl⟩)
    (fun _ _ _ _ save waiting found _ _ _ => Or.inr ⟨waiting, save, found, rfl⟩)
    (sound.sends_none rfl rfl) rfl rfl (fun _ there => there) (fun key cookie wire id found bound => ?_),
    live⟩
  · have current : (heap.families ref).persistedId = some marker := current
    by_cases same : ref = session.family
    · rw [same, fetches.marker] at current
      exact Option.some.inj current ▸ born
    · have earlier : state.process.Refers ref := by
        rcases refers with ⟨other, member, rfl⟩ | ⟨key, guard, found, rfl⟩
        · rcases (Process.live_addHandle member).imp_right Process.live_see.mp with rfl | old
          · exact absurd rfl same
          · exact old.refers
        · exact Process.refers_guard found
      have old := Process.refers_lt earlier sound.dispatching.authority sound.dispatching.locking
      rw [fetches.families ref old] at current
      exact sound.markers ref earlier marker current
  · rcases update_eq_some found with ⟨_, wrong⟩ | ⟨_, earlier⟩
    · cases wrong
    · exact sound.reads key cookie wire id earlier bound

theorem deliver (sound : RemoteSound idOf state) {now : DateTime}
    (step : state.deliver idOf index now = some (reply, after)) : state.Advances idOf after := by
  obtain ⟨cookie, wire, _, found, rfl, outcome⟩ := Remote.deliver_cases step
  have path : Process.Path idOf Process.Plain state.process
      { state.process with heap := (Session.deserialize state.process.heap wire).2 } :=
    (Process.Moves.conceal (state.process.hidden_deserialize wire)).path (Or.inr rfl)
  have forgotten : ∀ key other text id, Function.update state.reads index none key =
      some (other, text) → idOf other = some id → id ∈ state.born := by
    intro key other text id lookup bound
    rcases update_eq_some lookup with ⟨_, wrong⟩ | ⟨_, earlier⟩
    · cases wrong
    · exact sound.reads key other text id earlier bound
  have refused : state.Advances idOf { state with
      process := { state.process with heap := (Session.deserialize state.process.heap wire).2 }
      reads := Function.update state.reads index none } :=
    plain path (sound.preserve path.coordinated (live_plain path) (sound.markers_plain path)
      (fun _ member => member) (fun _ _ found => Or.inr ⟨found, rfl, rfl⟩)
      (fun _ _ _ _ save waiting found _ _ _ => Or.inr ⟨waiting, save, found, rfl⟩)
      (sound.sends_none rfl rfl) rfl rfl (fun _ there => there) forgotten)
  rcases outcome with ⟨_, rfl⟩ | ⟨loaded, heap, valid, _, rfl⟩
  · exact refused
  · obtain ⟨fetches, bound⟩ := state.process.fetches_deserialize valid
    exact sound.join fetches (sound.reads index cookie wire _ found bound)

/-! ### Destroying and clearing -/

theorem handle (sound : RemoteSound idOf state) {action : HandleAction} {process : Process}
    (step : state.process.handleStep idOf action = some (reply, process)) :
    state.Advances idOf { state with process } := by
  have path : Process.Path idOf Process.Plain state.process process :=
    Process.Moves.plain (.handle step)
  obtain ⟨_, _, _, _, rfl⟩ := Process.handleStep_eq step
  exact plain path (sound.still path rfl rfl rfl rfl (sound.sends_none rfl rfl) rfl rfl
    (fun _ there => there) rfl)

theorem destroySession (sound : RemoteSound idOf state)
    (step : state.destroySession index = some (reply, after)) : state.Advances idOf after := by
  obtain ⟨process, request, rfl⟩ := Remote.destroySession_cases step
  have first : Process.Path idOf Process.Plain state.process process :=
    Process.Moves.plain (.requestDelete request)
  obtain ⟨session, found, _, same⟩ := Process.requestDelete_cases request
  have still : process.handles index = some session := by
    rw [same]
    exact found
  have path := first.trans (Process.Moves.plain (.handle (Process.handleStep_drop still)))
  subst same
  exact plain path (sound.still path rfl rfl rfl rfl (sound.sends_none rfl rfl) rfl rfl
    (fun _ there => there) rfl)

theorem grantDelete (sound : RemoteSound idOf state)
    (step : state.grantDelete index = some (reply, after)) : state.Advances idOf after := by
  obtain ⟨process, grant, rfl⟩ := Remote.grantDelete_cases step
  have path : Process.Path idOf Process.Plain state.process process :=
    Process.Moves.plain (.grantDelete grant)
  obtain ⟨deletion, _, _, _, ⟨_, _, _, rfl⟩ | ⟨_, _, _, _, rfl⟩⟩ := Process.grantDelete_cases grant <;>
    exact plain path (sound.still path rfl rfl rfl rfl (sound.sends_none rfl rfl) rfl rfl
      (fun _ there => there) rfl)

theorem erase (sound : RemoteSound idOf state) (step : state.erase index = some (reply, after)) :
    state.Advances idOf after := by
  obtain ⟨_, _, _, _, _, _, rfl⟩ := Remote.erase_cases step
  exact sound.outside rfl rfl (sound.sends_launch rfl rfl nofun) rfl rfl (fun _ there => there) rfl

/-- A deletion is dropped. -/
theorem dropDelete (sound : RemoteSound idOf state) (index : Nat) (erasures : Nat → Option Nat) :
    state.Advances idOf { state with process := state.process.dropDelete index, erasures } := by
  have path : Process.Path idOf Process.Plain state.process (state.process.dropDelete index) :=
    Process.Moves.plain (.dropDelete index)
  have tables : (state.process.dropDelete index).dispatched = state.process.dispatched ∧
      (state.process.dropDelete index).saves = state.process.saves := by
    obtain ⟨heap, dropped⟩ := state.process.dropDelete_eq index
    rw [dropped]
    exact ⟨rfl, rfl⟩
  exact plain path (sound.still path tables.1 tables.2 (Agreement.guards_dropDelete _ _) rfl
    (sound.sends_none rfl rfl) rfl rfl (fun _ there => there) rfl)

theorem confirmErased (sound : RemoteSound idOf state)
    (step : state.confirmErased index = some (reply, after)) : state.Advances idOf after := by
  obtain ⟨_, _, _, _, _, _, _, rfl⟩ := Remote.confirmErased_cases step
  exact sound.dropDelete index _

theorem cancelDestroy (sound : RemoteSound idOf state)
    (step : state.cancelDestroy index = some (reply, after)) : state.Advances idOf after := by
  obtain ⟨_, _, _, rfl⟩ := Remote.cancelDestroy_cases step
  exact sound.dropDelete index _

/-! ### Every step -/

/-- Every step is a path of moves, and keeps the invariant. -/
theorem advances (sound : RemoteSound idOf state) {action : RemoteAction}
    (step : (remoteMachine store idOf).step state action = some (reply, after)) :
    state.Advances idOf after := by
  cases action with
  | handle action =>
    obtain ⟨process, handled, rfl⟩ := Remote.handle_cases step
    exact sound.handle handled
  | read cookie now => exact sound.read step
  | deliver index now => exact sound.deliver step
  | storeSession index => exact sound.storeSession step
  | capture index => exact sound.capture step
  | beginWrite index now => exact sound.beginWrite step
  | send index => exact sound.send step
  | execute number => exact sound.execute step
  | receive index => exact sound.receive step
  | check index => exact sound.check step
  | finish index => exact sound.finish step
  | complete index => exact sound.complete step
  | fail index => exact sound.fail step
  | lose index => exact sound.lose step
  | cancelStore index => exact sound.cancelStore step
  | destroySession index => exact sound.destroySession step
  | grantDelete index => exact sound.grantDelete step
  | erase index => exact sound.erase step
  | confirmErased index => exact sound.confirmErased step
  | cancelDestroy index => exact sound.cancelDestroy step
  | clearStore =>
    cases step
    exact sound.outside rfl rfl (sound.sends_launch rfl rfl nofun) rfl rfl (fun _ there => there) rfl
  | unlink ids =>
    cases step
    exact sound.outside rfl rfl (sound.sends_launch rfl rfl nofun) rfl rfl (fun _ there => there) rfl
  | expire id =>
    cases step
    refine sound.outside rfl rfl (sound.sends_none rfl rfl) rfl rfl (fun key there absent => ?_) rfl
    have there : Function.update state.rows id none key ≠ none := there
    rw [Function.update_apply, absent, ite_self] at there
    exact there rfl

theorem reachable (reachable : (remoteMachine store idOf).Reachable state) :
    RemoteSound idOf state := by
  refine reachable.invariant (fun initial => ?_) fun sound step => (sound.advances step).sound
  obtain rfl : _ = Remote.initial := initial
  exact remoteSound_initial idOf

theorem run (sound : RemoteSound idOf state) {trace : List (RemoteAction × Reply)}
    (run : (remoteMachine store idOf).Run state trace after) : RemoteSound idOf after :=
  run.invariant (fun sound step => (sound.advances step).sound) sound

end RemoteSound

end Saysion
