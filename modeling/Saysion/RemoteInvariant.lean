/-
This file proves the invariant of a process with a remote store. A command that
may create a record and has not taken effect yet is pending, and a pending
command is fenced: the call that sent it still waits for it under its guard, or
its family is uncertain. So whatever happens to the call, no other save and no
deletion of the family gets the mutex as long as the command may take effect.

The other half of the invariant is about ids. Only born ids have rows or
markers, the id of a pending command is unborn, and nobody outside its family
knows it.
-/

import Saysion.Newcomers
import Saysion.Remote
import Saysion.Retention

namespace Saysion

/-! ### What a call relies on -/

namespace Remote

/-- The ids that a record was created under. -/
def born (state : Remote) : List Id := state.births.map Birth.target

/-- The guard of a call will record the outcome as uncertain, should it be dropped. -/
def Fences (state : Remote) (index : Nat) : Prop :=
  ∃ guard, state.process.guards index = some guard ∧ guard.settled = false ∧
    guard.uncertainOnDrop = true

/-- The unsettled guard of a call, which fences when the save creates. -/
def Holding (state : Remote) (index : Nat) (save : Save) : Prop :=
  ∃ guard, state.process.guards index = some guard ∧ guard.settled = false ∧
    (save.Creates → guard.uncertainOnDrop = true)

theorem Holding.fences {state : Remote} {index : Nat} {save : Save}
    (holding : state.Holding index save) (creates : save.Creates) : state.Fences index := by
  obtain ⟨guard, guarded, unsettled, uncertain⟩ := holding
  exact ⟨guard, guarded, unsettled, uncertain creates⟩

end Remote

/-- What a save of a given standing has done to the backend. -/
def Save.Stands (state : Remote) (save : Save) : Standing → Prop
  | .fresh => save.dispatched = false
  | .taken => save.dispatched = false ∧ ∃ source, save.origin = some source ∧
      source ≠ save.source.id ∧ state.reserved source = some save.source.id
  | .sent => save.dispatched = true ∧ save.Creates
  | .created => save.dispatched = true ∧ save.Creates ∧ save.source.id ∈ state.born

/-- What a save may still do once its flight is answered, or with the answer it has. -/
def Save.Awaits (state : Remote) (save : Save) (flight : Flight) (next : Answer → Program) : Prop :=
  match flight.answer with
  | none => ∃ standing,
      (Program.send flight.command next).Obeys save.origin save.source.id standing ∧
      if flight.command.creates = none then save.Stands state standing
      else save.dispatched = true ∧ save.Creates
  | some answer => ∃ standing, save.Stands state standing ∧
      (next answer).Obeys save.origin save.source.id standing

/-- What a call finds in the state at each phase. -/
def RemotePhase.Ready (state : Remote) (index : Nat) (save : Save) : RemotePhase → Prop
  | .attempted => save.dispatched = false ∧ state.process.guards index = none
  | .captured => save.dispatched = false ∧ state.process.guards index = none ∧
      ∃ snapshot, save.snapshot = some snapshot ∧ snapshot.id = save.source.id
  | .running program => state.Holding index save ∧ ∃ standing, save.Stands state standing ∧
      program.Obeys save.origin save.source.id standing
  | .waiting number next => state.Holding index save ∧ ∃ flight,
      state.flights number = some flight ∧ flight.family = some save.source.family ∧
      flight.rotation = save.rotation ∧ save.Awaits state flight next
  | .unremoved _ | .removing _ _ => (∃ guard, state.process.guards index = some guard) ∧
      save.source.isDestroyed state.process.heap = true
  | .finished => (∃ guard, state.process.guards index = some guard) ∧ save.source.id ∈ state.born
  | .expired => save.dispatched = false
  | .failed _ => save.dispatched = true →
      save.source.isDestroyed state.process.heap = true ∨ state.Fences index

/-! ### What a pending command is sure of -/

/-- A command that may still create a record. -/
structure Remote.Pending (state : Remote) (number : Nat) (flight : Flight) (id : Id) : Prop where
  unborn : id ∉ state.born
  rotation : flight.rotation = none ∧ flight.command.replaces = none ∨
    ∃ source, flight.rotation = some (source, id) ∧ source ≠ id ∧
      (flight.command.replaces = some source ∨
        flight.command.replaces = none ∧ state.reserved source = some id)
  fenced : ∃ ref, flight.family = some ref ∧ ref < state.process.heap.nextFamily ∧
    ((state.process.heap.families ref).uncertain = true ∨
      ∃ index next save, state.calls index = some (.waiting number next) ∧
        state.process.saves index = some save ∧ save.source.family = ref)
  alone : ∀ session, state.process.Live session → session.id = id →
    flight.family = some session.family

/-- The invariant of a process with a remote store. -/
structure RemoteSound (idOf : Cookie → Option Id) (state : Remote) : Prop where
  dispatching : Dispatching state.process
  calls : ∀ index phase, state.calls index = some phase →
    ∃ save, state.process.saves index = some save ∧ phase.Ready state index save
  unsent : ∀ number, state.nextFlight ≤ number → state.flights number = none
  creating : ∀ number flight id, state.flights number = some flight →
    flight.command.creates = some id → id ∈ state.process.dispatched ∧ flight.command.Proper ∧
      (flight.answer = none → state.Pending number flight id)
  once : ∀ first second left right id, state.flights first = some left →
    state.flights second = some right → left.command.creates = some id →
      right.command.creates = some id → first = second
  born : ∀ id ∈ state.born, id ∈ state.process.dispatched
  rows : ∀ id, state.rows id ≠ none → id ∈ state.born
  reads : ∀ index cookie wire id, state.reads index = some (cookie, wire) →
    idOf cookie = some id → id ∈ state.born
  reserved : ∀ source target, state.reserved source = some target →
    source ∈ state.born ∧ state.rows source = none
  markers : ∀ ref, state.process.Refers ref → ∀ marker,
    (state.process.heap.families ref).persistedId = some marker → marker ∈ state.born

theorem remoteSound_initial (idOf : Cookie → Option Id) : RemoteSound idOf Remote.initial where
  dispatching := dispatching_initial
  calls := by rintro _ _ found; cases found
  unsent _ _ := rfl
  creating := by rintro _ _ _ found; cases found
  once := by rintro _ _ _ _ _ found; cases found
  born := by rintro _ member; cases member
  rows id there := absurd rfl there
  reads := by rintro _ _ _ _ found; cases found
  reserved := by rintro _ _ found; cases found
  markers := by
    rintro _ (⟨_, found | found | found, _⟩ | ⟨_, _, found, _⟩) <;> cases found

/-! ### Standings -/

/-- A standing depends on what is born and what is reserved only, and both may grow. -/
theorem Save.Stands.mono {state after : Remote} {save newer : Save} {standing : Standing}
    (stands : save.Stands state standing) (source : newer.source = save.source)
    (origin : newer.origin = save.origin) (dispatched : newer.dispatched = save.dispatched)
    (born : ∀ id ∈ state.born, id ∈ after.born)
    (reserved : save.dispatched = false → ∀ source, save.origin = some source →
      source ≠ save.source.id → state.reserved source = some save.source.id →
        after.reserved source = some save.source.id) : newer.Stands after standing := by
  have creates : save.Creates → newer.Creates := by
    unfold Save.Creates
    rw [source, origin]
    exact id
  cases standing with
  | fresh => exact dispatched.trans stands
  | taken =>
    obtain ⟨unsent, old, saved, different, kept⟩ := stands
    refine ⟨dispatched.trans unsent, old, origin.trans saved, source ▸ different, ?_⟩
    rw [source]
    exact reserved unsent old saved different kept
  | sent => exact ⟨dispatched.trans stands.1, creates stands.2⟩
  | created =>
    exact ⟨dispatched.trans stands.1, creates stands.2.1, source ▸ born _ stands.2.2⟩

/-- A standing in which nothing was sent. -/
theorem Save.Stands.unsent {state : Remote} {save : Save} {standing : Standing}
    (stands : save.Stands state standing) (early : standing = .fresh ∨ standing = .taken) :
    save.dispatched = false := by
  rcases early with rfl | rfl
  · exact stands
  · exact stands.1

/-- Once its command is sent, a save creates. -/
theorem Save.Stands.creates {state : Remote} {save : Save} {standing : Standing}
    (stands : save.Stands state standing) (sent : save.dispatched = true) : save.Creates := by
  cases standing with
  | fresh => cases sent.symm.trans stands
  | taken => cases sent.symm.trans stands.1
  | sent => exact stands.2
  | created => exact stands.2.1

/-- A permitted creating command belongs to a save that creates, and that has sent none yet. -/
theorem Command.Permitted.creates {command : Command} {state : Remote} {save : Save} {id : Id}
    {standing : Standing} (permitted : command.Permitted save.origin save.source.id standing)
    (creating : command.creates = some id) (stands : save.Stands state standing) :
    id = save.source.id ∧ save.Creates ∧ save.dispatched = false := by
  obtain ⟨same, ⟨rfl, unsaved, _⟩ | ⟨rfl, _⟩ | ⟨rfl, source, saved, different, _⟩⟩ :=
    permitted.creating creating
  · refine ⟨same, fun wrong => ?_, stands⟩
    cases unsaved.symm.trans wrong
  · obtain ⟨unsent, source, saved, different, _⟩ := stands
    exact ⟨same, fun wrong => different (Option.some.inj (saved.symm.trans wrong)), unsent⟩
  · exact ⟨same, fun wrong => different (Option.some.inj (saved.symm.trans wrong)), stands⟩

theorem Save.rotation_eq {save : Save} {source : Id} (saved : save.origin = some source)
    (different : source ≠ save.source.id) : save.rotation = some (source, save.source.id) := by
  unfold Save.rotation
  rw [saved, Option.filter_some, if_pos (by simpa using different)]
  rfl

theorem Save.rotation_none {save : Save} (unsaved : save.origin = none) : save.rotation = none := by
  unfold Save.rotation
  rw [unsaved]
  rfl

/-! ### The invariant under the steps of others -/

/-- What a call relies on survives the steps of others, as long as no command takes effect. -/
theorem RemotePhase.Ready.later {state after : Remote} {index : Nat} {save : Save}
    {phase : RemotePhase} (ready : phase.Ready state index save)
    (guards : after.process.guards index = state.process.guards index)
    (flights : ∀ number flight, state.flights number = some flight →
      after.flights number = some flight)
    (births : after.births = state.births) (reserved : after.reserved = state.reserved)
    (destroyed : save.source.isDestroyed state.process.heap = true →
      save.source.isDestroyed after.process.heap = true) : phase.Ready after index save := by
  have stands : ∀ standing, save.Stands state standing → save.Stands after standing :=
    fun standing stands => stands.mono rfl rfl rfl
      (fun id member => by unfold Remote.born; rwa [births])
      fun _ source _ _ kept => by rwa [reserved]
  have holding : state.Holding index save → after.Holding index save := by
    unfold Remote.Holding
    rw [guards]
    exact id
  cases phase with
  | attempted => exact ⟨ready.1, guards.trans ready.2⟩
  | captured => exact ⟨ready.1, guards.trans ready.2.1, ready.2.2⟩
  | running program =>
    obtain ⟨held, standing, standing_, obeys⟩ := ready
    exact ⟨holding held, standing, stands standing standing_, obeys⟩
  | waiting number next =>
    obtain ⟨held, flight, found, family, rotation, awaits⟩ := ready
    refine ⟨holding held, flight, flights number flight found, family, rotation, ?_⟩
    unfold Save.Awaits at awaits ⊢
    split at awaits
    · obtain ⟨standing, obeys, standing_⟩ := awaits
      refine ⟨standing, obeys, ?_⟩
      split at standing_
      · rename_i existing
        rw [if_pos existing]
        exact stands standing standing_
      · rename_i creating
        rw [if_neg creating]
        exact standing_
    · obtain ⟨standing, standing_, obeys⟩ := awaits
      exact ⟨standing, stands standing standing_, obeys⟩
  | unremoved error => exact ⟨guards ▸ ready.1, destroyed ready.2⟩
  | removing number error => exact ⟨guards ▸ ready.1, destroyed ready.2⟩
  | finished =>
    refine ⟨guards ▸ ready.1, ?_⟩
    unfold Remote.born
    rw [births]
    exact ready.2
  | expired => exact ready
  | failed error =>
    refine fun sent => (ready sent).imp destroyed ?_
    unfold Remote.Fences
    rw [guards]
    exact id

/-- A pending command survives the steps of others, and a step of its own call that leaves the
family uncertain. -/
theorem Remote.Pending.later {state after : Remote} {number : Nat} {flight : Flight} {id : Id}
    (pending : state.Pending number flight id) (births : after.births = state.births)
    (reserved : after.reserved = state.reserved)
    (nextFamily : state.process.heap.nextFamily ≤ after.process.heap.nextFamily)
    (uncertain : ∀ ref < state.process.heap.nextFamily,
      (state.process.heap.families ref).uncertain = true →
        (after.process.heap.families ref).uncertain = true)
    (waits : ∀ index next save, state.calls index = some (.waiting number next) →
      state.process.saves index = some save →
        (after.process.heap.families save.source.family).uncertain = true ∨
          after.calls index = some (.waiting number next) ∧
            ∃ newer, after.process.saves index = some newer ∧ newer.source = save.source)
    (alone : ∀ session, after.process.Live session → session.id = id →
      ∃ twin, state.process.Live twin ∧ twin.id = id ∧ twin.family = session.family) :
    after.Pending number flight id where
  unborn := by
    unfold Remote.born
    rw [births]
    exact pending.unborn
  rotation := by
    rw [reserved]
    exact pending.rotation
  fenced := by
    obtain ⟨ref, family, allocated, fence⟩ := pending.fenced
    refine ⟨ref, family, allocated.trans_le nextFamily, ?_⟩
    rcases fence with flag | ⟨index, next, save, waiting, found, rfl⟩
    · exact Or.inl (uncertain ref allocated flag)
    · rcases waits index next save waiting found with flag | ⟨still, newer, kept, source⟩
      · exact Or.inl flag
      · exact Or.inr ⟨index, next, newer, still, kept, by rw [source]⟩
  alone session member same := by
    obtain ⟨twin, earlier, twinId, family⟩ := alone session member same
    rw [← family]
    exact pending.alone twin earlier twinId

/-- The commands of a state are those of an earlier one, and at most one that was just sent. -/
structure Remote.Sends (state after : Remote) : Prop where
  unsent : ∀ number, after.nextFlight ≤ number → after.flights number = none
  kept : ∀ number flight, state.flights number = some flight → after.flights number = some flight
  flights : ∀ number flight, after.flights number = some flight →
    state.flights number = some flight ∨ number = state.nextFlight ∧
      ∀ id, flight.command.creates = some id → id ∉ state.process.dispatched ∧
        id ∈ after.process.dispatched ∧ flight.command.Proper ∧ after.Pending number flight id

namespace RemoteSound

variable {idOf : Cookie → Option Id} {state after : Remote} {index : Nat}

theorem sends_none (sound : RemoteSound idOf state) (flights : after.flights = state.flights)
    (nextFlight : after.nextFlight = state.nextFlight) : state.Sends after where
  unsent number beyond := by
    rw [flights]
    exact sound.unsent number (nextFlight ▸ beyond)
  kept number flight found := by
    rw [flights]
    exact found
  flights number flight found := Or.inl (flights ▸ found)

theorem sends_launch (sound : RemoteSound idOf state) {flight : Flight}
    (flights : after.flights = Function.update state.flights state.nextFlight (some flight))
    (nextFlight : after.nextFlight = state.nextFlight + 1)
    (creating : ∀ id, flight.command.creates = some id → id ∉ state.process.dispatched ∧
      id ∈ after.process.dispatched ∧ flight.command.Proper ∧
        after.Pending state.nextFlight flight id) : state.Sends after where
  unsent number beyond := by
    rw [nextFlight] at beyond
    rw [flights, Function.update_of_ne (Nat.ne_of_gt beyond)]
    exact sound.unsent number (Nat.le_of_succ_le beyond)
  kept number older found := by
    rw [flights]
    by_cases same : number = state.nextFlight
    · cases (sound.unsent number same.ge).symm.trans found
    · exact (Function.update_of_ne same _ _).trans found
  flights number newer found := by
    rw [flights] at found
    rcases update_eq_some found with ⟨rfl, same⟩ | ⟨_, earlier⟩
    · obtain rfl := Option.some.inj same
      exact Or.inr ⟨rfl, creating⟩
    · exact Or.inl earlier

/-- The part of the proof that all steps share but the one in which a command takes effect: the
process takes a path, commands are sent, and rows at most disappear. -/
theorem preserve (sound : RemoteSound idOf state)
    (path : Process.Path idOf Process.Coordinated state.process after.process)
    (live : ∀ session, after.process.Live session →
      (∃ twin, state.process.Live twin ∧ twin.id = session.id ∧ twin.family = session.family) ∨
        session.id ∉ state.process.seen ∨ session.id ∈ state.born)
    (markers : ∀ ref, after.process.Refers ref → ∀ marker,
      (after.process.heap.families ref).persistedId = some marker → marker ∈ state.born)
    (dispatched : ∀ id ∈ state.process.dispatched, id ∈ after.process.dispatched)
    (calls : ∀ key phase, after.calls key = some phase →
      (∃ save, after.process.saves key = some save ∧ phase.Ready after key save) ∨
        state.calls key = some phase ∧ after.process.saves key = state.process.saves key ∧
          after.process.guards key = state.process.guards key)
    (waits : ∀ key number flight next save, state.calls key = some (.waiting number next) →
      state.process.saves key = some save → state.flights number = some flight →
        flight.command.creates ≠ none → flight.answer = none →
          (after.process.heap.families save.source.family).uncertain = true ∨
            after.calls key = some (.waiting number next) ∧
              ∃ newer, after.process.saves key = some newer ∧ newer.source = save.source)
    (sends : state.Sends after) (births : after.births = state.births)
    (reserved : after.reserved = state.reserved)
    (rows : ∀ id, after.rows id ≠ none → state.rows id ≠ none)
    (reads : ∀ key cookie wire id, after.reads key = some (cookie, wire) →
      idOf cookie = some id → id ∈ state.born) : RemoteSound idOf after := by
  have climbs := path.climbs sound.dispatching.authority
  have same : after.born = state.born := by
    unfold Remote.born
    rw [births]
  constructor
  · exact sound.dispatching.path path
  · intro key phase found
    rcases calls key phase found with ready | ⟨earlier, saves, guards⟩
    · exact ready
    · obtain ⟨save, saved, ready⟩ := sound.calls key phase earlier
      have allocated := (sound.dispatching.authority.allocated _ (.save saved)).1
      exact ⟨save, saves.trans saved, ready.later guards sends.kept births reserved
        (climbs.destroy _ allocated)⟩
  · exact sends.unsent
  · intro number flight id found creates
    rcases sends.flights number flight found with earlier | ⟨_, new⟩
    · obtain ⟨known, proper, pending⟩ := sound.creating number flight id earlier creates
      refine ⟨dispatched id known, proper, fun unanswered => ?_⟩
      have pending := pending unanswered
      refine pending.later births reserved climbs.nextFamily climbs.uncertain
        (fun key next save waiting found => waits key number flight next save waiting found earlier
          (by simp [creates]) unanswered) fun session member ids => ?_
      rcases live session member with ⟨twin, old, twinId, family⟩ | unseen | born
      · exact ⟨twin, old, twinId.trans ids, family⟩
      · exact absurd (ids ▸ sound.dispatching.seen id known) unseen
      · exact absurd (ids ▸ born) pending.unborn
    · obtain ⟨_, known, proper, pending⟩ := new id creates
      exact ⟨known, proper, fun _ => pending⟩
  · intro first second left right id leftFound rightFound leftCreates rightCreates
    rcases sends.flights first left leftFound with leftOld | ⟨leftNew, leftFresh⟩ <;>
      rcases sends.flights second right rightFound with rightOld | ⟨rightNew, rightFresh⟩
    · exact sound.once first second left right id leftOld rightOld leftCreates rightCreates
    · exact absurd (sound.creating first left id leftOld leftCreates).1
        (rightFresh id rightCreates).1
    · exact absurd (sound.creating second right id rightOld rightCreates).1
        (leftFresh id leftCreates).1
    · exact leftNew.trans rightNew.symm
  · intro id member
    exact dispatched id (sound.born id (same ▸ member))
  · intro id there
    rw [same]
    exact sound.rows id (rows id there)
  · intro key cookie wire id found bound
    rw [same]
    exact reads key cookie wire id found bound
  · intro source target found
    rw [same]
    obtain ⟨member, absent⟩ := sound.reserved source target (reserved ▸ found)
    refine ⟨member, ?_⟩
    by_contra there
    exact rows source there absent
  · intro ref refers marker current
    rw [same]
    exact markers ref refers marker current

/-- A path that sets no marker. -/
theorem markers_plain (sound : RemoteSound idOf state)
    (path : Process.Path idOf Process.Plain state.process after.process) (ref : Ref)
    (refers : after.process.Refers ref) (marker : Id)
    (current : (after.process.heap.families ref).persistedId = some marker) :
    marker ∈ state.born := by
  have marks := path.marks sound.dispatching
  by_cases old : ref < state.process.heap.nextFamily
  · rw [marks.kept ref old refers] at current
    exact sound.markers ref (marks.spares.refers ref old refers) marker current
  · cases (marks.fresh ref (Nat.le_of_not_lt old) refers).symm.trans current

theorem live_plain (path : Process.Path idOf Process.Plain state.process after.process)
    (session : Session) (member : after.process.Live session) :
    (∃ twin, state.process.Live twin ∧ twin.id = session.id ∧ twin.family = session.family) ∨
      session.id ∉ state.process.seen ∨ session.id ∈ state.born :=
  (path.stems.live session member).imp_right Or.inl

/-- A step that concerns no call. -/
theorem still (sound : RemoteSound idOf state)
    (path : Process.Path idOf Process.Plain state.process after.process)
    (dispatched : after.process.dispatched = state.process.dispatched)
    (saves : after.process.saves = state.process.saves)
    (guards : after.process.guards = state.process.guards) (calls : after.calls = state.calls)
    (sends : state.Sends after) (births : after.births = state.births)
    (reserved : after.reserved = state.reserved)
    (rows : ∀ id, after.rows id ≠ none → state.rows id ≠ none)
    (reads : after.reads = state.reads) : RemoteSound idOf after := by
  refine sound.preserve path.coordinated (live_plain path) (sound.markers_plain path)
    (fun id member => dispatched ▸ member) (fun key phase found => Or.inr ?_)
    (fun key number flight next save waiting found _ _ _ => Or.inr ?_) sends births reserved rows
    fun key cookie wire id found bound => sound.reads key cookie wire id (reads ▸ found) bound
  · exact ⟨calls ▸ found, by rw [saves], by rw [guards]⟩
  · exact ⟨by rw [calls]; exact waiting, save, by rw [saves]; exact found, rfl⟩

/-- A step of one call. -/
theorem own (sound : RemoteSound idOf state) {phase : Option RemotePhase}
    (path : Process.Path idOf Process.Plain state.process after.process)
    (dispatched : ∀ id ∈ state.process.dispatched, id ∈ after.process.dispatched)
    (calls : after.calls = Function.update state.calls index phase)
    (others : ∀ key ≠ index, after.process.saves key = state.process.saves key ∧
      after.process.guards key = state.process.guards key)
    (ready : ∀ next, phase = some next → ∃ save, after.process.saves index = some save ∧
      next.Ready after index save)
    (waits : ∀ number flight next save, state.calls index = some (.waiting number next) →
      state.process.saves index = some save → state.flights number = some flight →
        flight.command.creates ≠ none → flight.answer = none →
          (after.process.heap.families save.source.family).uncertain = true)
    (sends : state.Sends after) (births : after.births = state.births)
    (reserved : after.reserved = state.reserved) (rows : after.rows = state.rows)
    (reads : after.reads = state.reads) : RemoteSound idOf after := by
  refine sound.preserve path.coordinated (live_plain path) (sound.markers_plain path)
    dispatched (fun key next found => ?_)
    (fun key number flight next save waiting found sent creating unanswered => ?_) sends births
    reserved (fun id there => rows ▸ there)
    fun key cookie wire id found bound => sound.reads key cookie wire id (reads ▸ found) bound
  · rw [calls] at found
    by_cases same : key = index
    · subst same
      rw [Function.update_self] at found
      exact Or.inl (ready next found)
    · rw [Function.update_of_ne same] at found
      exact Or.inr ⟨found, others key same⟩
  · by_cases same : key = index
    · subst same
      exact Or.inl (waits number flight next save waiting found sent creating unanswered)
    · rw [calls]
      refine Or.inr ⟨(Function.update_of_ne same _ _).trans waiting, save, ?_, rfl⟩
      exact (others key same).1.trans found

end RemoteSound

/-! ### Ends of calls -/

/-- An unsettled guard that fences leaves its family uncertain when it is dropped. -/
theorem Process.uncertain_abandon {process : Process} {index : Nat} {guard : WriteGuard}
    (guarded : process.guards index = some guard) (unsettled : guard.settled = false)
    (fences : guard.uncertainOnDrop = true) :
    ((process.abandon index).heap.families guard.family).uncertain = true := by
  have dropped : ((process.dropGuard index).heap.families guard.family).uncertain = true := by
    unfold dropGuard
    rw [guarded]
    show ((process.heap.unlock guard.family _).families guard.family).uncertain = true
    rw [Heap.unlock, Heap.setFamily_self, unsettled, fences]
    exact Bool.or_true _
  unfold abandon dropSave
  split
  · exact dropped
  · dsimp only
    split
    · exact dropped
    · exact dropped

namespace RemoteSound

variable {idOf : Cookie → Option Id} {state : Remote} {index : Nat} {save : Save}

/-- A call that waits for a creating command belongs to a save that creates. -/
theorem creates_of_waiting {number : Nat} {flight : Flight} {next : Answer → Program}
    (ready : (RemotePhase.waiting number next).Ready state index save)
    (found : state.flights number = some flight) (creating : flight.command.creates ≠ none)
    (unanswered : flight.answer = none) : save.dispatched = true ∧ save.Creates := by
  obtain ⟨_, other, lookup, _, _, awaits⟩ := ready
  obtain rfl := Option.some.inj (found.symm.trans lookup)
  unfold Save.Awaits at awaits
  rw [unanswered] at awaits
  obtain ⟨standing, _, sent⟩ := awaits
  rwa [if_neg creating] at sent

/-- A call that has sent its creating command and is not finished may be given up. -/
theorem abandonable (sound : RemoteSound idOf state) {phase : RemotePhase}
    (found : state.calls index = some phase) (unfinished : phase ≠ .finished) :
    state.process.Abandonable index := by
  intro other lookup sent
  obtain ⟨save, saved, ready⟩ := sound.calls index phase found
  obtain rfl := Option.some.inj (saved.symm.trans lookup)
  cases phase with
  | attempted => cases sent.symm.trans ready.1
  | captured => cases sent.symm.trans ready.1
  | running program =>
    obtain ⟨held, standing, stands, _⟩ := ready
    exact Or.inr (held.fences (stands.creates sent))
  | waiting number next =>
    obtain ⟨held, flight, _, _, _, awaits⟩ := ready
    refine Or.inr (held.fences ?_)
    unfold Save.Awaits at awaits
    split at awaits
    · obtain ⟨standing, _, either⟩ := awaits
      split at either
      · exact either.creates sent
      · exact either.2
    · obtain ⟨standing, stands, _⟩ := awaits
      exact stands.creates sent
  | unremoved error => exact Or.inl ready.2
  | removing number error => exact Or.inl ready.2
  | finished => exact absurd rfl unfinished
  | expired => cases sent.symm.trans ready
  | failed error => exact ready sent

end RemoteSound

end Saysion
