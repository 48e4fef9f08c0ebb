/-
This file proves that a coordinated deletion is final. When the deletion is
granted, its family is destroyed and nobody writes for it, so every command of
the family that could still create a record has its answer: a call that gave up
waiting for one would have left the family uncertain, and the deletion would
have been refused.

From then on the family and the target are sealed. The seal is stable under
every step, and under it an absent target stays absent; so all that remains is
that the deletion removes what is there.
-/

import Saysion.RemoteLineage

namespace Saysion

/-! ### The seal -/

/-- Nothing can be written for a family, or under the id that its deletion removes, any more. -/
structure Remote.Sealed (state : Remote) (family : Ref) (target : Id) : Prop where
  shut : state.process.Shut family
  seen : target ∈ state.process.seen
  answered : ∀ number flight id, state.flights number = some flight → flight.answer = none →
    flight.command.creates = some id → flight.family ≠ some family ∧ id ≠ target
  claimed : target ∈ state.process.dispatched ∨
    ∀ session, state.process.Live session → session.id = target → session.family = family

namespace RemoteSound

open Remote

variable {store : RemoteStore} {idOf : Cookie → Option Id} {state after : Remote} {reply : Reply}
  {action : RemoteAction} {family : Ref} {target : Id}

/-- A command without an answer was there before, or was just sent. -/
theorem unanswered_before (effect : state.Effect action after) {number : Nat} {flight : Flight}
    (found : after.flights number = some flight) (unanswered : flight.answer = none) :
    state.flights number = some flight ∨
      ∀ id, flight.command.creates = some id → state.Starts flight id := by
  have launched : ∀ {sent : Flight}, (∀ id, sent.command.creates = some id → state.Starts sent id) →
      after.flights = Function.update state.flights state.nextFlight (some sent) →
        state.flights number = some flight ∨
          ∀ id, flight.command.creates = some id → state.Starts flight id := by
    intro sent starts flights
    rw [flights] at found
    rcases update_eq_some found with ⟨_, same⟩ | ⟨_, earlier⟩
    · obtain rfl := Option.some.inj same
      exact Or.inr starts
    · exact Or.inl earlier
  cases effect with
  | idle _ flights _ _ => exact Or.inl (flights ▸ found)
  | launch sent _ _ starts flights _ _ => exact launched starts flights
  | takeEffect lookup _ =>
    rcases update_eq_some found with ⟨_, same⟩ | ⟨_, earlier⟩
    · obtain rfl := Option.some.inj same
      cases unanswered
    · exact Or.inl earlier
  | request _ _ flights _ _ _ => exact Or.inl (flights ▸ found)
  | grant _ _ _ flights _ _ _ _ _ _ _ => exact Or.inl (flights ▸ found)
  | refuse _ _ flights _ _ _ _ => exact Or.inl (flights ▸ found)
  | erase _ _ _ _ _ flights _ _ =>
    refine launched (fun id creates => ?_) flights
    cases creates
  | forget _ _ flights _ _ => exact Or.inl (flights ▸ found)

/-- No save of a sealed family, and no save to the target, may send a creating command. -/
theorem not_starts (sound : RemoteSound idOf state) (sealed : state.Sealed family target)
    {flight : Flight} {id : Id} (starts : state.Starts flight id) :
    flight.family ≠ some family ∧ id ≠ target := by
  obtain ⟨index, save, guard, found, guarded, owner, rfl, creates, unsent⟩ := starts
  have own := sound.dispatching.locking.own index guard save guarded found
  have elsewhere : save.source.family ≠ family := own ▸ sealed.shut.unguarded index guard guarded
  refine ⟨fun same => elsewhere (Option.some.inj (owner.symm.trans same)), ?_⟩
  rintro rfl
  rcases sealed.claimed with known | members
  · exact sound.dispatching.unused index guard save guarded found creates unsent known
  · exact elsewhere (members save.source (.save found) rfl)

/-- The step lemma: a seal is never broken. -/
theorem sealed_step (sound : RemoteSound idOf state) (sealed : state.Sealed family target)
    (step : (remoteMachine store idOf).step state action = some (reply, after)) :
    after.Sealed family target := by
  have advances := sound.advances step
  refine ⟨sealed.shut.path sound.dispatching.authority advances.path,
    (advances.path.climbs sound.dispatching.authority).grows.subset sealed.seen, ?_, ?_⟩
  · intro number flight id found unanswered creates
    rcases unanswered_before (sound.effect step) found unanswered with earlier | starts
    · exact sealed.answered number flight id earlier unanswered creates
    · exact sound.not_starts sealed (starts id creates)
  · rcases sealed.claimed with known | members
    · exact Or.inl (advances.path.dispatched known)
    · by_cases born : target ∈ state.born
      · exact Or.inl (advances.path.dispatched (sound.born target born))
      · refine Or.inr fun session member same => ?_
        rcases advances.live session member with ⟨twin, earlier, id, owner⟩ | unseen | back
        · exact owner.symm.trans (members twin earlier (id.trans same))
        · exact absurd (same ▸ sealed.seen) unseen
        · exact absurd (same ▸ back) born

/-- An absent target stays absent. -/
theorem absent_step (sound : RemoteSound idOf state) (sealed : state.Sealed family target)
    (step : (remoteMachine store idOf).step state action = some (reply, after))
    (absent : state.rows target = none) : after.rows target = none := by
  by_contra there
  obtain ⟨number, flight, _, found, unanswered, creates⟩ := sound.appears step absent there
  exact (sealed.answered number flight target found unanswered creates).2 rfl

/-! ### A granted deletion -/

/-- A command of a family whose mutex is free, and whose outcome is certain, has its answer. -/
theorem not_pending (sound : RemoteSound idOf state) {number : Nat} {flight : Flight} {id : Id}
    (found : state.flights number = some flight) (unanswered : flight.answer = none)
    (creates : flight.command.creates = some id)
    (unguarded : ∀ index guard, state.process.guards index = some guard → guard.family ≠ family)
    (certain : (state.process.heap.families family).uncertain = false) :
    flight.family ≠ some family := by
  intro owner
  obtain ⟨ref, named, _, fence⟩ :=
    ((sound.creating number flight id found creates).2.2 unanswered).fenced
  obtain rfl := Option.some.inj (named.symm.trans owner)
  rcases fence with uncertain | ⟨index, next, save, waiting, saved, rfl⟩
  · cases uncertain.symm.trans certain
  · obtain ⟨other, lookup, ⟨guard, guarded, _⟩, _⟩ := sound.calls index _ waiting
    exact unguarded index guard guarded
      (sound.dispatching.locking.own index guard save guarded saved)

/-- The target of a deletion is the marker of its family, or the id of its handle. -/
theorem deletionTarget_cases (session : Session) (heap : Heap) :
    session.persistedId heap = some (session.deletionTarget heap) ∨
      session.deletionTarget heap = session.id := by
  rw [Session.deletionTarget_eq]
  split
  · exact Or.inr rfl
  · rename_i marker current
    split
    · exact Or.inl current
    · exact Or.inr rfl

/-- A deletion seals its family and its target when it is granted. -/
theorem sealed_of_granted (sound : RemoteSound idOf state) {index : Nat} {deletion : Deletion}
    (found : state.process.deletions index = some deletion)
    (destroyed : deletion.session.isDestroyed state.process.heap = true)
    (free : (deletion.session.shared state.process.heap).locked = false)
    (certain : (deletion.session.shared state.process.heap).uncertain = false) :
    state.Sealed deletion.session.family
      (deletion.session.deletionTarget state.process.heap) := by
  have member : state.process.Live deletion.session := .deletion found
  have unguarded : ∀ key guard, state.process.guards key = some guard →
      guard.family ≠ deletion.session.family := by
    intro key guard guarded same
    have taken := sound.dispatching.locking.exclusive.taken_of_holds deletion.session.family
      (.inl key) ⟨guard, guarded, same⟩
    cases free.symm.trans taken
  have marker : ∀ id, deletion.session.persistedId state.process.heap = some id → id ∈ state.born :=
    fun id current => sound.markers _ member.refers id current
  refine ⟨⟨(sound.dispatching.authority.allocated _ member).1, destroyed, unguarded⟩, ?_, ?_, ?_⟩
  · rcases deletionTarget_cases deletion.session state.process.heap with current | own
    · exact sound.dispatching.seen _ (sound.born _ (marker _ current))
    · rw [own]
      exact sound.dispatching.live _ member
  · intro number flight id sent unanswered creates
    have elsewhere := sound.not_pending sent unanswered creates unguarded certain
    have pending := (sound.creating number flight id sent creates).2.2 unanswered
    refine ⟨elsewhere, ?_⟩
    rintro rfl
    rcases deletionTarget_cases deletion.session state.process.heap with current | own
    · exact pending.unborn (marker _ current)
    · exact elsewhere (pending.alone deletion.session member own.symm)
  · rcases deletionTarget_cases deletion.session state.process.heap with current | own
    · exact Or.inl (sound.born _ (marker _ current))
    · rw [own]
      by_cases known : deletion.session.id ∈ state.process.dispatched
      · exact Or.inl known
      · refine Or.inr fun session other same => ?_
        rcases sound.dispatching.together session deletion.session other member same with
          together | sent
        · exact together
        · exact absurd (same ▸ sent) known

end RemoteSound

/-! ### Deletions and their commands -/

/-- The invariant of the deletions: a granted one is sealed, and its command removes its target. -/
structure Remote.Deleting (state : Remote) : Prop where
  destroyed : ∀ index deletion, state.process.deletions index = some deletion →
    deletion.session.isDestroyed state.process.heap = true
  sealed : ∀ index deletion target, state.process.deletions index = some deletion →
    deletion.target = some target → state.Sealed deletion.session.family target
  erasures : ∀ index number, state.erasures index = some number → ∃ deletion target flight,
    state.process.deletions index = some deletion ∧ deletion.target = some target ∧
      state.flights number = some flight ∧ flight.command = .delete target ∧
        (flight.answer ≠ none → state.rows target = none)

theorem Remote.deleting_initial : Remote.initial.Deleting where
  destroyed _ _ found := by cases found
  sealed _ _ _ found := by cases found
  erasures _ _ found := by cases found

namespace RemoteSound

open Remote

variable {store : RemoteStore} {idOf : Cookie → Option Id} {state after : Remote} {reply : Reply}
  {action : RemoteAction} {index : Nat}

/-- A deletion after a step was there before, was just requested, or was just granted. -/
theorem deletion_before (effect : state.Effect action after) {deletion : Deletion}
    (found : after.process.deletions index = some deletion) :
    state.process.deletions index = some deletion ∨
      deletion.target = none ∧ deletion.session.isDestroyed after.process.heap = true ∨
        ∃ older, state.process.deletions index = some older ∧
          older.session = deletion.session ∧
          (older.session.shared state.process.heap).locked = false ∧
          (older.session.shared state.process.heap).uncertain = false ∧
          deletion.target = some (older.session.deletionTarget state.process.heap) := by
  have gone : ∀ {key : Nat}, Function.update state.process.deletions key none index = some deletion →
      state.process.deletions index = some deletion := by
    intro key found
    rcases update_eq_some found with ⟨_, wrong⟩ | ⟨_, earlier⟩
    · cases wrong
    · exact earlier
  cases effect with
  | idle _ _ deletions _ => exact Or.inl (deletions ▸ found)
  | launch _ _ _ _ _ deletions _ => exact Or.inl (deletions ▸ found)
  | takeEffect _ _ => exact Or.inl found
  | request session _ _ _ deletions destroyed =>
    rw [deletions] at found
    rcases update_eq_some found with ⟨_, same⟩ | ⟨_, earlier⟩
    · obtain rfl := Option.some.inj same
      exact Or.inr (Or.inl ⟨rfl, destroyed⟩)
    · exact Or.inl earlier
  | grant older target _ _ _ lookup _ free certain selected deletions =>
    rw [deletions] at found
    rcases update_eq_some found with ⟨rfl, same⟩ | ⟨_, earlier⟩
    · obtain rfl := Option.some.inj same
      exact Or.inr (Or.inr ⟨older, lookup, rfl, free, certain, congrArg some selected⟩)
    · exact Or.inl earlier
  | refuse _ _ _ _ _ _ deletions => exact Or.inl (gone (deletions ▸ found))
  | erase _ _ _ _ _ _ _ deletions => exact Or.inl (deletions ▸ found)
  | forget _ _ _ _ deletions => exact Or.inl (gone (deletions ▸ found))

/-- A command of a deletion was there before, with the same deletion, or was just sent. -/
theorem erasure_before (sound : RemoteSound idOf state) (deleting : state.Deleting)
    (effect : state.Effect action after) {number : Nat}
    (found : after.erasures index = some number) :
    (state.erasures index = some number ∧
      after.process.deletions index = state.process.deletions index) ∨
    ∃ deletion target, after.process.deletions index = some deletion ∧
      deletion.target = some target ∧ after.flights number =
        some { command := .delete target, family := some deletion.session.family } := by
  have kept : state.erasures index = some number → ∃ deletion target,
      state.process.deletions index = some deletion ∧ deletion.target = some target := by
    intro earlier
    obtain ⟨deletion, target, _, lookup, granted, _⟩ := deleting.erasures index number earlier
    exact ⟨deletion, target, lookup, granted⟩
  cases effect with
  | idle _ _ deletions erasures => exact Or.inl ⟨erasures ▸ found, by rw [deletions]⟩
  | launch _ _ _ _ _ deletions erasures => exact Or.inl ⟨erasures ▸ found, by rw [deletions]⟩
  | takeEffect _ _ => exact Or.inl ⟨found, rfl⟩
  | request _ _ _ erasures deletions _ =>
    have earlier : state.erasures index = some number := erasures ▸ found
    obtain ⟨deletion, _, lookup, _⟩ := kept earlier
    have different : index ≠ state.process.nextDeletion := by
      rintro rfl
      cases (sound.dispatching.locking.unusedDeletion _ le_rfl).symm.trans lookup
    exact Or.inl ⟨earlier, by rw [deletions, Function.update_of_ne different]⟩
  | @grant key _ older _ _ _ erasures lookup ungranted _ _ _ deletions =>
    have earlier : state.erasures index = some number := erasures ▸ found
    obtain ⟨deletion, _, other, granted⟩ := kept earlier
    have different : index ≠ key := by
      rintro rfl
      obtain rfl := Option.some.inj (lookup.symm.trans other)
      cases ungranted.symm.trans granted
    exact Or.inl ⟨earlier, by rw [deletions, Function.update_of_ne different]⟩
  | @refuse key _ older _ _ erasures lookup ungranted deletions =>
    have earlier : state.erasures index = some number := erasures ▸ found
    obtain ⟨deletion, _, other, granted⟩ := kept earlier
    have different : index ≠ key := by
      rintro rfl
      obtain rfl := Option.some.inj (lookup.symm.trans other)
      cases ungranted.symm.trans granted
    exact Or.inl ⟨earlier, by rw [deletions, Function.update_of_ne different]⟩
  | erase deletion target _ lookup granted flights erasures deletions =>
    rw [erasures] at found
    rcases update_eq_some found with ⟨rfl, same⟩ | ⟨_, earlier⟩
    · obtain rfl := Option.some.inj same
      refine Or.inr ⟨deletion, target, deletions ▸ lookup, granted, ?_⟩
      rw [flights]
      exact Function.update_self _ _ _
    · exact Or.inl ⟨earlier, by rw [deletions]⟩
  | forget key _ _ erasures deletions =>
    rw [erasures] at found
    rcases update_eq_some found with ⟨_, wrong⟩ | ⟨different, earlier⟩
    · cases wrong
    · exact Or.inl ⟨earlier, by rw [deletions, Function.update_of_ne different]⟩

/-- The step lemma of the deletions. -/
theorem deleting_step (sound : RemoteSound idOf state) (deleting : state.Deleting)
    (step : (remoteMachine store idOf).step state action = some (reply, after)) :
    after.Deleting := by
  have effect := sound.effect step
  have climbs := (sound.advances step).path.climbs sound.dispatching.authority
  have stays : ∀ index deletion, state.process.deletions index = some deletion →
      deletion.session.isDestroyed after.process.heap = true := fun index deletion found =>
    climbs.destroy _ (sound.dispatching.authority.allocated _ (.deletion found)).1
      (deleting.destroyed index deletion found)
  refine ⟨fun index deletion found => ?_, fun index deletion target found granted => ?_,
    fun index number found => ?_⟩
  · rcases deletion_before effect found with earlier | ⟨_, destroyed⟩ | ⟨older, earlier, same, _⟩
    · exact stays index deletion earlier
    · exact destroyed
    · rw [← same]
      exact stays index older earlier
  · rcases deletion_before effect found with
      earlier | ⟨ungranted, _⟩ | ⟨older, earlier, same, free, certain, selected⟩
    · exact sound.sealed_step (deleting.sealed index deletion target earlier granted) step
    · cases ungranted.symm.trans granted
    · obtain rfl := Option.some.inj (granted.symm.trans selected)
      rw [← same]
      exact sound.sealed_step (sound.sealed_of_granted earlier
        (deleting.destroyed index older earlier) free certain) step
  · rcases sound.erasure_before deleting effect found with
      ⟨earlier, deletions⟩ | ⟨deletion, target, lookup, granted, sent⟩
    · obtain ⟨deletion, target, flight, lookup, granted, sent, deletes, absent⟩ :=
        deleting.erasures index number earlier
      obtain ⟨answer, kept, _⟩ := (sound.later_step step).flights number flight sent
      refine ⟨deletion, target, _, deletions.trans lookup, granted, kept, deletes, fun answered => ?_⟩
      obtain ⟨reported, answer_eq⟩ := Option.ne_none_iff_exists'.mp answered
      rcases answered_before effect kept answer_eq with before | ⟨_, rows⟩
      · have same := congrArg Flight.answer (Option.some.inj (sent.symm.trans before))
        exact sound.absent_step (deleting.sealed index deletion target lookup granted) step
          (absent (same ▸ answered))
      · rw [rows]
        show (flight.command.execute state.rows).2 target = none
        rw [deletes, Command.execute_delete]
        exact Function.update_self _ _ _
    · exact ⟨deletion, target, _, lookup, granted, sent, rfl, fun answered => absurd rfl answered⟩

theorem reachable_deleting (reachable : (remoteMachine store idOf).Reachable state) :
    state.Deleting := by
  obtain ⟨start, trace, initial, run⟩ := reachable
  obtain rfl : start = Remote.initial := initial
  induction run with
  | refl => exact deleting_initial
  | tail earlier step inductionHypothesis =>
    exact ((remoteSound_initial idOf).run earlier).deleting_step inductionHypothesis step

/-- The run lemma of a seal: it is never broken, and what is absent under it stays absent. -/
theorem sealed_run (sound : RemoteSound idOf state) {family : Ref} {target : Id}
    (sealed : state.Sealed family target) (absent : state.rows target = none)
    {trace : List (RemoteAction × Reply)} (run : (remoteMachine store idOf).Run state trace after) :
    after.Sealed family target ∧ after.rows target = none := by
  induction run with
  | refl => exact ⟨sealed, absent⟩
  | tail earlier step inductionHypothesis =>
    have middle := sound.run earlier
    exact ⟨middle.sealed_step inductionHypothesis.1 step,
      middle.absent_step inductionHypothesis.1 step inductionHypothesis.2⟩

/-- A call of a sealed family holds no guard, so it neither finishes nor is finished. -/
theorem unfinished (sound : RemoteSound idOf state) {family : Ref} {target : Id}
    (sealed : state.Sealed family target) {save : Save}
    (found : state.process.saves index = some save) (owner : save.source.family = family) :
    state.calls index ≠ some .finished ∧
      (remoteMachine store idOf).step state (.finish index) = none := by
  have unguarded : state.process.guards index = none := by
    by_contra held
    obtain ⟨guard, guarded⟩ := Option.ne_none_iff_exists'.mp held
    exact sealed.shut.unguarded index guard guarded
      ((sound.dispatching.locking.own index guard save guarded found).trans owner)
  refine ⟨fun finished => ?_, ?_⟩
  · obtain ⟨_, _, ⟨guard, guarded⟩, _⟩ := sound.calls index _ finished
    cases unguarded.symm.trans guarded
  · by_contra ends
    obtain ⟨⟨reply, after⟩, step⟩ := Option.ne_none_iff_exists'.mp ends
    have held : ∃ guard, state.process.guards index = some guard := by
      obtain ⟨_, ⟨_, _, _, finish, _⟩ | ⟨_, ⟨_, _, confirm, _⟩ | ⟨_, _, _, finish, _⟩⟩⟩ :=
        Remote.finish_cases step
      · obtain ⟨guard, guarded, _⟩ := Process.finish_cases finish
        exact ⟨guard, guarded⟩
      · obtain ⟨guard, guarded, _⟩ := Process.confirmRemoved_cases confirm
        exact ⟨guard, guarded⟩
      · obtain ⟨guard, guarded, _⟩ := Process.finish_cases finish
        exact ⟨guard, guarded⟩
    obtain ⟨guard, guarded⟩ := held
    cases unguarded.symm.trans guarded

end RemoteSound

/-! ### The result -/

/-- Once the deletion under a guard of `begin_delete` has succeeded, no save of the family finishes,
no command of the family creates a record, and there is no record under the deleted id, in every
later state. -/
theorem coordinated_deletion_is_final {store : RemoteStore} {idOf : Cookie → Option Id}
    {state later : Remote} (index number : Nat) {deletion : Deletion} {target : Id}
    {flight : Flight} {trace : List (RemoteAction × Reply)}
    (reachable : (remoteMachine store idOf).Reachable state)
    (granted : state.process.deletions index = some deletion)
    (selected : deletion.target = some target) (sent : state.erasures index = some number)
    (found : state.flights number = some flight) (succeeded : flight.answer ≠ none)
    (run : (remoteMachine store idOf).Run state trace later) :
    (∀ key save, later.process.saves key = some save →
      save.source.family = deletion.session.family →
        later.calls key ≠ some .finished ∧
          (remoteMachine store idOf).step later (.finish key) = none) ∧
    (∀ key other reply after, later.flights key = some other →
      other.family = some deletion.session.family →
        (remoteMachine store idOf).step later (.execute key) = some (reply, after) →
          ∀ id, later.rows id = none → after.rows id = none) ∧
    later.rows target = none := by
  have sound := RemoteSound.reachable reachable
  have deleting := RemoteSound.reachable_deleting reachable
  have sealed := deleting.sealed index deletion target granted selected
  have absent : state.rows target = none := by
    obtain ⟨older, id, command, lookup, named, launched, _, gone⟩ :=
      deleting.erasures index number sent
    obtain rfl := Option.some.inj (granted.symm.trans lookup)
    obtain rfl := Option.some.inj (selected.symm.trans named)
    obtain rfl := Option.some.inj (found.symm.trans launched)
    exact gone succeeded
  obtain ⟨stillSealed, stillAbsent⟩ := sound.sealed_run sealed absent run
  have ending := sound.run run
  refine ⟨fun key save saved owner => ending.unfinished stillSealed saved owner,
    fun key other reply after lookup owner step id missing => ?_, stillAbsent⟩
  by_contra there
  obtain ⟨number, sender, execute, launched, unanswered, creates⟩ := ending.appears step missing there
  cases execute
  obtain rfl := Option.some.inj (lookup.symm.trans launched)
  exact (stillSealed.answered key other id lookup unanswered creates).1 owner

/-- A clone logs out while an update of the record runs, and another save of the family waits for the
mutex. The running save finds the family destroyed and removes what it wrote; the waiting one gets
the mutex when the deletion is done, and its write is refused. -/
theorem coordinated_deletion_is_final_after_logout : ∃ state : Remote,
    state.calls 2 = some (.failed .sessionConflict) ∧ state.rows "first" = none ∧
      (remoteMachine customStore some).step state (.finish 2) = none := by
  obtain ⟨earlier, before, deletion, flight, trace, later, save, run, granted, selected, sent, found,
      answered, rest, saved, own, refused⟩ : ∃ earlier before deletion flight trace later save,
      (remoteMachine customStore some).Run .initial earlier before ∧
        before.process.deletions 0 = some deletion ∧ deletion.target = some "first" ∧
          before.erasures 0 = some 3 ∧ before.flights 3 = some flight ∧ flight.answer ≠ none ∧
            (remoteMachine customStore some).Run before trace later ∧
              later.process.saves 2 = some save ∧ save.source.family = deletion.session.family ∧
                later.calls 2 = some (.failed .sessionConflict) :=
    ⟨_, _, _, _, _, _, _, Machine.run_replay _ _
      ([.handle (.new "first"), .handle (.clone 0), .handle (.clone 0), .handle (.clone 0)] ++
        RemoteAction.store 0 0 0 0 ++ [.storeSession 1, .storeSession 2, .capture 1, .capture 2,
          .beginWrite 1 0, .send 1, .destroySession 3, .execute 1, .receive 1, .check 1, .send 1,
          .execute 2, .receive 1, .fail 1, .grantDelete 0, .erase 0, .execute 3]) (by decide),
      rfl, rfl, rfl, rfl, by decide,
      Machine.run_replay _ _ [.confirmErased 0, .beginWrite 2 0] (by decide), rfl, rfl, rfl⟩
  obtain ⟨unfinished, _, gone⟩ := coordinated_deletion_is_final 0 3 ⟨_, _, rfl, run⟩ granted selected
    sent found answered rest
  exact ⟨later, refused, gone, (unfinished 2 save saved own).2⟩

end Saysion
