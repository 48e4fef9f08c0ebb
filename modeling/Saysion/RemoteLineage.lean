/-
This file proves that a remote store never brings an id back and never forks
one. A row appears only when a creating command takes effect, each id has at
most one such command, and none for an id that was born.

The registry of a state accounts for its rows and for the sources that a
rotation has removed and not yet replaced: such a source still stands for its
lineage, because the rotation that removed it may still insert its target.
-/

import Saysion.RemoteEffects

namespace Saysion

namespace Remote

/-! ### Later states -/

/-- What one state leaves to every later one: what was sent was sent, what was answered keeps its
answer, the log of births grows, and what was born and is gone stays gone. -/
structure Later (state after : Remote) : Prop where
  flights : ∀ number flight, state.flights number = some flight →
    ∃ answer, after.flights number = some { flight with answer } ∧
      (flight.answer ≠ none → answer = flight.answer)
  births : ∃ newer, after.births = newer ++ state.births
  rows : ∀ id ∈ state.born, after.rows id ≠ none → state.rows id ≠ none

variable {state middle after : Remote} {action : RemoteAction}

theorem Later.refl (state : Remote) : state.Later state where
  flights _ flight found := ⟨flight.answer, found, fun _ => rfl⟩
  births := ⟨[], rfl⟩
  rows _ _ there := there

theorem Later.born (later : state.Later after) {id : Id} (member : id ∈ state.born) :
    id ∈ after.born := by
  obtain ⟨newer, births⟩ := later.births
  unfold Remote.born at member ⊢
  rw [births, List.map_append]
  exact List.mem_append_right _ member

theorem Later.trans (first : state.Later middle) (second : middle.Later after) :
    state.Later after where
  flights number flight found := by
    obtain ⟨answer, between, kept⟩ := first.flights number flight found
    obtain ⟨last, lookup, still⟩ := second.flights number _ between
    refine ⟨last, lookup, fun answered => ?_⟩
    have same := kept answered
    subst same
    exact still answered
  births := by
    obtain ⟨newer, births⟩ := first.births
    obtain ⟨newest, more⟩ := second.births
    exact ⟨newest ++ newer, by rw [more, births, List.append_assoc]⟩
  rows id member there := first.rows id member (second.rows id (first.born member) there)

/-- The commands after a step in which none takes effect. -/
theorem Apart.later (apart : state.Apart after)
    (flights : ∀ number flight, state.flights number = some flight →
      after.flights number = some flight) : state.Later after where
  flights number flight found := ⟨flight.answer, flights number flight found, fun _ => rfl⟩
  births := ⟨[], apart.births⟩
  rows id _ there := apart.rows id there

theorem flights_launch {flight other : Flight} {number : Nat}
    (unsent : state.flights state.nextFlight = none)
    (flights : after.flights = Function.update state.flights state.nextFlight (some flight))
    (found : state.flights number = some other) : after.flights number = some other := by
  have different : number ≠ state.nextFlight := by
    rintro rfl
    cases unsent.symm.trans found
  rw [flights, Function.update_of_ne different]
  exact found

end Remote

namespace RemoteSound

open Remote

variable {store : RemoteStore} {idOf : Cookie → Option Id} {state after : Remote} {reply : Reply}
  {action : RemoteAction} {number : Nat} {flight : Flight} {registry : Registry Id}

/-- A step in which no command takes effect; the other is `execute`. -/
theorem apart_or_takeEffect (sound : RemoteSound idOf state) (effect : state.Effect action after) :
    state.Apart after ∧ (∀ number flight, state.flights number = some flight →
      after.flights number = some flight) ∨
    ∃ number flight, action = .execute number ∧ state.flights number = some flight ∧
      flight.answer = none ∧ after = state.takeEffect number flight := by
  have unsent := sound.unsent _ le_rfl
  cases effect with
  | idle apart flights _ _ => exact Or.inl ⟨apart, fun _ _ found => flights ▸ found⟩
  | launch flight apart _ _ flights _ _ =>
    exact Or.inl ⟨apart, fun _ _ found => flights_launch unsent flights found⟩
  | takeEffect found unanswered => exact Or.inr ⟨_, _, rfl, found, unanswered, rfl⟩
  | request _ apart flights _ _ _ => exact Or.inl ⟨apart, fun _ _ found => flights ▸ found⟩
  | grant _ _ apart flights _ _ _ _ _ _ _ =>
    exact Or.inl ⟨apart, fun _ _ found => flights ▸ found⟩
  | refuse _ apart flights _ _ _ _ => exact Or.inl ⟨apart, fun _ _ found => flights ▸ found⟩
  | erase _ _ apart _ _ flights _ _ =>
    exact Or.inl ⟨apart, fun _ _ found => flights_launch unsent flights found⟩
  | forget _ apart flights _ _ => exact Or.inl ⟨apart, fun _ _ found => flights ▸ found⟩

theorem later_takeEffect (sound : RemoteSound idOf state)
    (found : state.flights number = some flight) (unanswered : flight.answer = none) :
    state.Later (state.takeEffect number flight) where
  flights key other lookup := by
    by_cases same : key = number
    · subst same
      obtain rfl := Option.some.inj (found.symm.trans lookup)
      exact ⟨_, Function.update_self _ _ _, fun answered => absurd unanswered answered⟩
    · exact ⟨other.answer, (Function.update_of_ne same _ _).trans lookup, fun _ => rfl⟩
  births := ⟨_, rfl⟩
  rows id member there := by
    rcases sound.rows_takeEffect found there with earlier | ⟨creates, _⟩
    · exact earlier
    · exact absurd member ((sound.creating number flight id found creates).2.2 unanswered).unborn

/-- The step lemma. -/
theorem later_step (sound : RemoteSound idOf state)
    (step : (remoteMachine store idOf).step state action = some (reply, after)) :
    state.Later after := by
  rcases sound.apart_or_takeEffect (sound.effect step) with
    ⟨apart, flights⟩ | ⟨_, _, _, found, unanswered, rfl⟩
  · exact apart.later flights
  · exact sound.later_takeEffect found unanswered

/-- The run lemma. -/
theorem later_run (sound : RemoteSound idOf state) {trace : List (RemoteAction × Reply)}
    (run : (remoteMachine store idOf).Run state trace after) : state.Later after :=
  run.related Later.refl Later.trans (fun sound step => (sound.advances step).sound)
    (fun sound step => sound.later_step step) sound

/-- A row appears only where a creating command takes effect. -/
theorem appears (sound : RemoteSound idOf state)
    (step : (remoteMachine store idOf).step state action = some (reply, after)) {id : Id}
    (absent : state.rows id = none) (there : after.rows id ≠ none) :
    ∃ number flight, action = .execute number ∧ state.flights number = some flight ∧
      flight.answer = none ∧ flight.command.creates = some id := by
  rcases sound.apart_or_takeEffect (sound.effect step) with
    ⟨apart, _⟩ | ⟨number, flight, rfl, found, unanswered, rfl⟩
  · exact absurd absent (apart.rows id there)
  · rcases sound.rows_takeEffect found there with earlier | ⟨creates, _⟩
    · exact absurd absent earlier
    · exact ⟨number, flight, rfl, found, unanswered, creates⟩

/-- A row that was there and is gone stays gone. -/
theorem stays_gone {present absent later : Remote} {removal rest : List (RemoteAction × Reply)}
    {id : Id} (sound : RemoteSound idOf present)
    (removed : (remoteMachine store idOf).Run present removal absent)
    (run : (remoteMachine store idOf).Run absent rest later) (there : present.rows id ≠ none)
    (gone : absent.rows id = none) : later.rows id = none := by
  have born : id ∈ absent.born := (sound.later_run removed).born (sound.rows id there)
  by_contra back
  exact ((sound.run removed).later_run run).rows id born back gone

end RemoteSound

/-! ### The registry of a state -/

/-- A registry accounts for the rows and the reserved sources of a state; each source was replaced
once, and is gone. -/
structure Remote.Ancestry (state : Remote) (registry : Registry Id) : Prop where
  accounts : Accounts registry {id | state.rows id ≠ none ∨ state.reserved id ≠ none}
    {id | id ∈ state.born} state.births
  spent : ∀ source target, .rotated source target ∈ state.births →
    state.rows source = none ∧ state.reserved source = none
  unique : ∀ source left right, .rotated source left ∈ state.births →
    .rotated source right ∈ state.births → left = right

theorem Remote.ancestry_initial : Remote.initial.Ancestry .empty where
  accounts := by
    have records : {id | Remote.initial.rows id ≠ none ∨ Remote.initial.reserved id ≠ none} =
        (∅ : Set Id) := by
      ext id
      simp [Remote.initial]
    have born : {id | id ∈ Remote.initial.born} = (∅ : Set Id) := by
      ext id
      simp [Remote.initial, Remote.born]
    rw [records, born]
    exact .empty
  spent _ _ entry := by cases entry
  unique _ _ _ entry := by cases entry

namespace Remote.Ancestry

variable {state after : Remote} {registry : Registry Id} {number : Nat} {flight : Flight} {id : Id}

/-- Rows and reservations come from rows and reservations. -/
theorem shrink (ancestry : state.Ancestry registry) (births : after.births = state.births)
    (rows : ∀ id, after.rows id ≠ none → state.rows id ≠ none)
    (reserved : ∀ id, after.reserved id ≠ none → state.rows id ≠ none ∨ state.reserved id ≠ none) :
    ∃ later, after.Ancestry later := by
  have born : after.born = state.born := by
    unfold Remote.born
    rw [births]
  have fewer : {id | after.rows id ≠ none ∨ after.reserved id ≠ none} ⊆
      {id | state.rows id ≠ none ∨ state.reserved id ≠ none} :=
    fun id there => there.elim (fun row => Or.inl (rows id row)) (reserved id)
  obtain ⟨later, _, accounts⟩ := ancestry.accounts.shrink fewer
  refine ⟨later, ?_, ?_, ?_⟩
  · rw [births, born]
    exact accounts
  · intro source target entry
    obtain ⟨absent, free⟩ := ancestry.spent source target (births ▸ entry)
    refine ⟨by_contra fun there => rows source there absent, by_contra fun there => ?_⟩
    rcases reserved source there with row | kept
    · exact row absent
    · exact kept free
  · rw [births]
    exact ancestry.unique

/-- A first insertion. -/
theorem create (ancestry : state.Ancestry registry) (unborn : id ∉ state.born) (row : Row)
    (births : after.births = .created id :: state.births) (reserved : after.reserved = state.reserved)
    (rows : after.rows = Function.update state.rows id (some row)) :
    ∃ later, after.Ancestry later := by
  have born : {key | key ∈ after.born} = insert id {key | key ∈ state.born} := by
    ext key
    simp [Remote.born, births, Birth.target]
  have records : {key | after.rows key ≠ none ∨ after.reserved key ≠ none} =
      insert id {key | state.rows key ≠ none ∨ state.reserved key ≠ none} := by
    ext key
    rw [rows, reserved]
    by_cases same : key = id
    · subst same
      simp
    · simp [same]
  obtain ⟨later, _, accounts⟩ := ancestry.accounts.create unborn
  refine ⟨later, by rw [born, records, births]; exact accounts, ?_, ?_⟩
  · intro source target entry
    rw [births] at entry
    have earlier : .rotated source target ∈ state.births := by simpa using entry
    have different : source ≠ id := by
      rintro rfl
      have known := (ancestry.accounts.chronicle.rotated _ _ earlier).1
      rw [ancestry.accounts.births] at known
      exact unborn known
    rw [rows, reserved, Function.update_of_ne different]
    exact ancestry.spent source target earlier
  · intro source left right entry other
    rw [births] at entry other
    exact ancestry.unique source left right (by simpa using entry) (by simpa using other)

/-- A record takes the place of its source, at once or of a source that is reserved for it. -/
theorem rotate (ancestry : state.Ancestry registry) {source : Id} (different : source ≠ id)
    (there : state.rows source ≠ none ∨ state.reserved source ≠ none) (unborn : id ∉ state.born)
    (row : Row) (births : after.births = .rotated source id :: state.births)
    (reserved : after.reserved = Function.update state.reserved source none)
    (free : state.reserved id = none)
    (rows : after.rows = Function.update (Function.update state.rows source none) id (some row)) :
    ∃ later, after.Ancestry later := by
  have born : {key | key ∈ after.born} = insert id {key | key ∈ state.born} := by
    ext key
    simp [Remote.born, births, Birth.target]
  have records : {key | after.rows key ≠ none ∨ after.reserved key ≠ none} =
      insert id ({key | state.rows key ≠ none ∨ state.reserved key ≠ none} \ {source}) := by
    ext key
    rw [rows, reserved]
    by_cases same : key = id
    · subst same
      simp
    · by_cases old : key = source
      · subst old
        simp [different]
      · simp [same, old]
  obtain ⟨later, _, accounts⟩ := ancestry.accounts.rotate there unborn
  -- Until now nothing had replaced the source.
  have first : ∀ target, .rotated source target ∉ state.births := by
    intro target entry
    obtain ⟨absent, unreserved⟩ := ancestry.spent source target entry
    rcases there with row | kept
    · exact row absent
    · exact kept unreserved
  refine ⟨later, by rw [born, records, births]; exact accounts, ?_, ?_⟩
  · intro older target entry
    rw [births] at entry
    rw [rows, reserved]
    rcases List.mem_cons.mp entry with same | earlier
    · cases same
      rw [Function.update_of_ne different, Function.update_self, Function.update_self]
      exact ⟨rfl, rfl⟩
    · have other : older ≠ source := by
        rintro rfl
        exact first target earlier
      have apart : older ≠ id := by
        rintro rfl
        have known := (ancestry.accounts.chronicle.rotated _ _ earlier).1
        rw [ancestry.accounts.births] at known
        exact unborn known
      rw [Function.update_of_ne apart, Function.update_of_ne other, Function.update_of_ne other]
      exact ancestry.spent older target earlier
  · intro older left right entry other
    rw [births] at entry other
    rcases List.mem_cons.mp entry with same | earlier <;>
      rcases List.mem_cons.mp other with same' | earlier'
    · cases same
      cases same'
      rfl
    · cases same
      exact absurd earlier' (first right)
    · cases same'
      exact absurd earlier (first left)
    · exact ancestry.unique older left right earlier earlier'

end Remote.Ancestry

namespace RemoteSound

open Remote

variable {store : RemoteStore} {idOf : Cookie → Option Id} {state after : Remote} {reply : Reply}
  {action : RemoteAction} {number : Nat} {flight : Flight} {registry : Registry Id} {id : Id}

theorem ancestry_takeEffect (sound : RemoteSound idOf state) (ancestry : state.Ancestry registry)
    (found : state.flights number = some flight) (unanswered : flight.answer = none) :
    ∃ later, (state.takeEffect number flight).Ancestry later := by
  have births : (state.takeEffect number flight).births =
      flight.births (flight.command.execute state.rows).1 ++ state.births := rfl
  have reserved : (state.takeEffect number flight).reserved =
      flight.reserve (flight.command.execute state.rows).1 state.reserved := rfl
  have rows : (state.takeEffect number flight).rows = (flight.command.execute state.rows).2 := rfl
  by_cases created : ∃ id, flight.command.creates = some id ∧
      (flight.command.execute state.rows).1 = .affected 1
  · obtain ⟨id, creates, affected⟩ := created
    obtain ⟨_, proper, pending⟩ := sound.creating number flight id found creates
    obtain ⟨unborn, rotation, _, _⟩ := pending unanswered
    rcases Command.execute_creating state.rows creates proper with
      ⟨refused, _⟩ | ⟨absent, present, row, outcome⟩
    · exact absurd affected refused
    have born : flight.births (.affected 1) = [flight.birth id] := by
      unfold Flight.births
      rw [creates]
      exact if_pos rfl
    have keeps : ∀ source, flight.command ≠ .delete source := by
      intro source same
      rw [same] at creates
      cases creates
    have free : state.reserved id = none := by
      by_contra kept
      obtain ⟨target, kept⟩ := Option.ne_none_iff_exists'.mp kept
      exact unborn (sound.reserved id target kept).1
    rw [affected, born] at births
    rw [affected] at reserved
    rw [outcome] at rows
    rcases rotation with ⟨unrotated, alone⟩ | ⟨source, rotates, different, occasion⟩
    · refine ancestry.create unborn row ?_ ?_ ?_
      · rw [births, Flight.birth, unrotated]
        rfl
      · rw [reserved, Flight.reserve, unrotated]
      · rw [rows, Command.spare, alone]
    · have births : (state.takeEffect number flight).births = .rotated source id :: state.births := by
        rw [births, Flight.birth, rotates]
        rfl
      have reserved : (state.takeEffect number flight).reserved =
          Function.update state.reserved source none := by
        rw [reserved, Flight.reserve, rotates]
        simp only [ne_eq, not_true_eq_false, if_false, keeps, creates, reduceCtorEq]
      rcases occasion with replaces | ⟨alone, kept⟩
      · refine ancestry.rotate different (Or.inl (present source replaces)) unborn row births reserved
          free ?_
        rw [rows, Command.spare, replaces]
      · refine ancestry.rotate different (Or.inr (by simp [kept])) unborn row births reserved free ?_
        have gone : Function.update state.rows source none = state.rows :=
          Function.update_eq_self_iff.mpr (sound.reserved source id kept).2.symm
        rw [rows, Command.spare, alone, gone]
  · have none : flight.births (flight.command.execute state.rows).1 = [] := by
      unfold Flight.births
      split
      · rfl
      · rename_i id creates
        exact if_neg fun affected => created ⟨id, creates, affected⟩
    refine ancestry.shrink (by rw [births, none]; rfl) (fun id there => ?_) fun id there => ?_
    · rcases sound.rows_takeEffect found there with earlier | both
      · exact earlier
      · exact absurd ⟨id, both⟩ created
    · obtain ⟨target, there⟩ := Option.ne_none_iff_exists'.mp there
      rcases Flight.reserve_new there with earlier | ⟨_, deletes, affected⟩
      · exact Or.inr (by simp [earlier])
      · refine Or.inl fun absent => ?_
        have affected : (flight.command.execute state.rows).1 = .affected 1 := affected
        rw [deletes, Command.execute_delete, if_pos absent] at affected
        cases affected

theorem ancestry_step (sound : RemoteSound idOf state) (ancestry : state.Ancestry registry)
    (step : (remoteMachine store idOf).step state action = some (reply, after)) :
    ∃ later, after.Ancestry later := by
  rcases sound.apart_or_takeEffect (sound.effect step) with
    ⟨apart, _⟩ | ⟨_, _, _, found, unanswered, rfl⟩
  · exact ancestry.shrink apart.births apart.rows fun id there => Or.inr (apart.reserved ▸ there)
  · exact sound.ancestry_takeEffect ancestry found unanswered

/-- Every reachable state has a registry. -/
theorem exists_ancestry (reachable : (remoteMachine store idOf).Reachable state) :
    ∃ registry, state.Ancestry registry := by
  obtain ⟨start, trace, initial, run⟩ := reachable
  obtain rfl : start = Remote.initial := initial
  induction run with
  | refl => exact ⟨_, ancestry_initial⟩
  | tail earlier step inductionHypothesis =>
    obtain ⟨registry, ancestry⟩ := inductionHypothesis
    exact ((remoteSound_initial idOf).run earlier).ancestry_step ancestry step

end RemoteSound

/-! ### Deletions that found their record -/

/-- A deletion that has removed a record has removed one that was born, and it is gone. -/
def Remote.Removed (state : Remote) : Prop :=
  ∀ number flight id, state.flights number = some flight → flight.command = .delete id →
    flight.answer = some (.affected 1) → id ∈ state.born ∧ state.rows id = none

namespace RemoteSound

open Remote

variable {store : RemoteStore} {idOf : Cookie → Option Id} {state after : Remote} {reply : Reply}
  {action : RemoteAction}

/-- Commands that were just sent have no answer. -/
theorem answered_before (effect : state.Effect action after) {number : Nat} {flight : Flight}
    {answer : Answer} (found : after.flights number = some flight)
    (answered : flight.answer = some answer) : state.flights number = some flight ∨
      flight.answer = some (flight.command.execute state.rows).1 ∧
        after.rows = (flight.command.execute state.rows).2 := by
  have launched : ∀ {sent : Flight}, sent.answer = none →
      after.flights = Function.update state.flights state.nextFlight (some sent) →
        state.flights number = some flight := by
    intro sent unanswered flights
    rw [flights] at found
    rcases update_eq_some found with ⟨_, same⟩ | ⟨_, earlier⟩
    · obtain rfl := Option.some.inj same
      cases unanswered.symm.trans answered
    · exact earlier
  cases effect with
  | idle _ flights _ _ => exact Or.inl (flights ▸ found)
  | launch sent _ unanswered _ flights _ _ => exact Or.inl (launched unanswered flights)
  | takeEffect lookup _ =>
    rcases update_eq_some found with ⟨rfl, same⟩ | ⟨_, earlier⟩
    · obtain rfl := Option.some.inj same
      exact Or.inr ⟨rfl, rfl⟩
    · exact Or.inl earlier
  | request _ _ flights _ _ _ => exact Or.inl (flights ▸ found)
  | grant _ _ _ flights _ _ _ _ _ _ _ => exact Or.inl (flights ▸ found)
  | refuse _ _ flights _ _ _ _ => exact Or.inl (flights ▸ found)
  | erase _ _ _ _ _ flights _ _ => exact Or.inl (launched rfl flights)
  | forget _ _ flights _ _ => exact Or.inl (flights ▸ found)

theorem removed_step (sound : RemoteSound idOf state) (removed : state.Removed)
    (step : (remoteMachine store idOf).step state action = some (reply, after)) :
    after.Removed := by
  have later := sound.later_step step
  intro number flight id found deletes affected
  rcases answered_before (sound.effect step) found affected with earlier | ⟨answer, rows⟩
  · obtain ⟨born, gone⟩ := removed number flight id earlier deletes affected
    refine ⟨later.born born, ?_⟩
    by_contra there
    exact later.rows id born there gone
  · rw [deletes, Command.execute_delete] at answer rows
    have present : state.rows id ≠ none := by
      intro absent
      rw [if_pos absent] at answer
      cases affected.symm.trans answer
    refine ⟨later.born (sound.rows id present), ?_⟩
    rw [rows]
    exact Function.update_self _ _ _

theorem reachable_removed (reachable : (remoteMachine store idOf).Reachable state) :
    state.Removed := by
  obtain ⟨start, trace, initial, run⟩ := reachable
  obtain rfl : start = Remote.initial := initial
  induction run with
  | refl =>
    rintro _ _ _ found
    cases found
  | tail earlier step inductionHypothesis =>
    exact ((remoteSound_initial idOf).run earlier).removed_step inductionHypothesis step

end RemoteSound

/-! ### The results -/

/-- A remote store sends one creating command for each id, every other command writes over a record
that is there, and so an id that was there and is gone is never there again. -/
theorem removed_id_never_reappears (native : NativeStore) {idOf : Cookie → Option Id}
    {state : Remote} (reachable : (remoteMachine native.remote idOf).Reachable state) :
    (∀ first second left right id, state.flights first = some left →
      state.flights second = some right → left.command.creates = some id →
        right.command.creates = some id → first = second) ∧
    (∀ number flight, state.flights number = some flight → flight.command.creates = none →
      ∀ rows id, rows id = none → (flight.command.execute rows).2 id = none) ∧
    (∀ action reply after id, (remoteMachine native.remote idOf).step state action = some (reply, after) →
      state.rows id = none → after.rows id ≠ none → ∃ number flight, action = .execute number ∧
        state.flights number = some flight ∧ flight.command.creates = some id) ∧
    ∀ removal absent, (remoteMachine native.remote idOf).Run state removal absent →
      (∀ number flight, state.flights number = some flight →
        ∃ answer, absent.flights number = some { flight with answer }) ∧
      ∀ id, state.rows id ≠ none → absent.rows id = none →
        ∀ rest later, (remoteMachine native.remote idOf).Run absent rest later →
          later.rows id = none := by
  have sound := RemoteSound.reachable reachable
  refine ⟨sound.once, fun number flight found existing rows id absent => ?_,
    fun action reply after id step absent there => ?_, fun removal absent removed =>
      ⟨fun number flight found => ?_, fun id there gone rest later run => ?_⟩⟩
  · by_contra there
    exact Command.execute_existing existing there absent
  · obtain ⟨number, flight, execute, found, _, creates⟩ := sound.appears step absent there
    exact ⟨number, flight, execute, found, creates⟩
  · obtain ⟨answer, kept, _⟩ := (sound.later_run removed).flights number flight found
    exact ⟨answer, kept⟩
  · exact sound.stays_gone removed run there gone

/-- A session is stored in Redis, expires there, and is updated by a request that loaded it before:
the update finds no record. -/
theorem removed_id_never_reappears_after_expiry : ∃ present later : Remote,
    present.rows "first" ≠ none ∧ later.rows "first" = none := by
  have stored := Machine.run_replay (remoteMachine redisStore some) .initial
    (.handle (.new "first") :: RemoteAction.store 0 0 0 0 ++ [.read "first" 0, .deliver 0 0])
    (by decide)
  have expired := Machine.run_replay (remoteMachine redisStore some)
    (((remoteMachine redisStore some).replay .initial (.handle (.new "first") ::
      RemoteAction.store 0 0 0 0 ++ [.read "first" 0, .deliver 0 0])).get (by decide)).2
    [.expire "first"] (by decide)
  have updated := Machine.run_replay (remoteMachine redisStore some)
    (((remoteMachine redisStore some).replay
      (((remoteMachine redisStore some).replay .initial (.handle (.new "first") ::
        RemoteAction.store 0 0 0 0 ++ [.read "first" 0, .deliver 0 0])).get (by decide)).2
      [.expire "first"]).get (by decide)).2
    [.storeSession 1, .capture 1, .beginWrite 1 0, .send 1, .execute 1] (by decide)
  have there : (((remoteMachine redisStore some).replay .initial (.handle (.new "first") ::
      RemoteAction.store 0 0 0 0 ++ [.read "first" 0, .deliver 0 0])).get (by decide)).2.rows
        "first" ≠ none := by decide
  obtain ⟨_, _, _, later⟩ := removed_id_never_reappears .redis ⟨_, _, rfl, stored⟩
  have gone := (later _ _ expired).2 "first" there (by decide) _ _ updated
  exact ⟨_, _, there, gone⟩

/-- The two commands of a MongoDB rotation are safe one by one: the source and its replacement are
never there together, a source has one replacement, no descent ever has two records, and a source
that a rotation has removed is never loaded again, whatever becomes of the rotation. -/
theorem mongoDb_rotation_is_safe {idOf : Cookie → Option Id} {state : Remote}
    (reachable : (remoteMachine mongoDbStore idOf).Reachable state) :
    (∀ source target, .rotated source target ∈ state.births →
      ¬ (state.rows source ≠ none ∧ state.rows target ≠ none)) ∧
    (∀ source left right, .rotated source left ∈ state.births →
      .rotated source right ∈ state.births → left = right) ∧
    (∀ id, state.rows id ≠ none → ∃ first, Descends state.births first id) ∧
    (∀ first left right, Descends state.births first left → Descends state.births first right →
      state.rows left ≠ none → state.rows right ≠ none → left = right) ∧
    ∀ number flight source target, state.flights number = some flight →
      flight.rotation = some (source, target) → flight.command = .delete source →
        flight.answer = some (.affected 1) →
          ∀ trace later, (remoteMachine mongoDbStore idOf).Run state trace later →
            later.rows source = none ∧ ∀ cookie now, idOf cookie = some source →
              later.read mongoDbStore idOf cookie now = some (.missing, later) := by
  have sound := RemoteSound.reachable reachable
  obtain ⟨registry, ancestry⟩ := RemoteSound.exists_ancestry reachable
  refine ⟨fun source target entry both => both.1 (ancestry.spent source target entry).1,
    ancestry.unique, fun id there => ancestry.accounts.logged id (sound.rows id there),
    fun first left right fromLeft fromRight leftThere rightThere =>
      ancestry.accounts.eq_of_descends fromLeft fromRight (Or.inl leftThere) (Or.inl rightThere),
    fun number flight source target found _ deletes affected trace later run => ?_⟩
  obtain ⟨born, gone⟩ :=
    RemoteSound.reachable_removed reachable number flight source found deletes affected
  have absent : later.rows source = none := by
    by_contra there
    exact (sound.later_run run).rows source born there gone
  refine ⟨absent, fun cookie now bound => ?_⟩
  simp only [Remote.read, bound, absent, Option.filter_none]

/-- Two requests load a record and rotate it. The first is cancelled between its two commands, and
the second finds no source. -/
theorem mongoDb_rotation_is_safe_when_cancelled : ∃ state : Remote,
    state.rows "second" = none ∧ state.rows "third" = none ∧
      state.read mongoDbStore some "first" 0 = some (.missing, state) := by
  have run := Machine.run_replay (remoteMachine mongoDbStore some) .initial
    (.handle (.new "first") :: RemoteAction.store 0 0 0 0 ++ [.read "first" 0, .deliver 0 0,
      .read "first" 0, .deliver 1 0, .handle (.regenerate 1 "second"),
      .handle (.regenerate 2 "third"), .storeSession 1, .capture 1, .beginWrite 1 0, .send 1,
      .execute 1, .storeSession 2, .capture 2, .beginWrite 2 0, .send 2, .execute 2, .receive 1,
      .cancelStore 1, .receive 2, .fail 2]) (by decide)
  obtain ⟨_, _, _, _, removed⟩ := mongoDb_rotation_is_safe ⟨_, _, rfl, run⟩
  obtain ⟨_, missing⟩ := removed 1 _ "first" "second" rfl rfl rfl rfl [] _ .refl
  exact ⟨_, rfl, rfl, missing "first" 0 rfl⟩

end Saysion
