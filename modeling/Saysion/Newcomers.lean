/-
This file follows what a run of moves can bring into a process. A session that
was not there before shares its id and its family with one that was, or its id
was just drawn; what was sent once is never forgotten; and once a family is
destroyed and nobody holds its mutex for a write, nobody ever will.
-/

import Saysion.Markers

namespace Saysion

namespace Process

variable {idOf : Cookie → Option Id} {process middle after : Process} {kind : Kind}

/-! ### Sessions -/

/-- Every session of the later process has the id and the family of an earlier one, or an id that
was unknown. -/
structure Stems (before after : Process) : Prop where
  grows : before.seen <+: after.seen
  live : ∀ session, after.Live session →
    (∃ twin, before.Live twin ∧ twin.id = session.id ∧ twin.family = session.family) ∨
      session.id ∉ before.seen

theorem Stems.refl (process : Process) : process.Stems process where
  grows := List.prefix_rfl
  live session member := Or.inl ⟨session, member, rfl, rfl⟩

theorem Stems.trans (first : process.Stems middle) (second : middle.Stems after) :
    process.Stems after where
  grows := first.grows.trans second.grows
  live session member := by
    rcases second.live session member with ⟨twin, between, id, family⟩ | unseen
    · rcases first.live twin between with ⟨older, earlier, olderId, olderFamily⟩ | unseen
      · exact Or.inl ⟨older, earlier, olderId.trans id, olderFamily.trans family⟩
      · exact Or.inr (id ▸ unseen)
    · exact Or.inr fun seen => unseen (first.grows.subset seen)

theorem Follows.stems (follows : process.Follows after) : process.Stems after where
  grows := follows.grows
  live session member := by
    obtain ⟨twin, earlier, same⟩ := follows.live session member
    exact Or.inl ⟨twin, earlier, same.id, same.family⟩

theorem stems_attempt {index : Nat} {reply : Reply}
    (step : process.attempt index = some (reply, after)) : process.Stems after := by
  obtain ⟨session, found, ⟨error, _, _, rfl⟩ | ⟨origin, heap, _, _, rfl⟩⟩ := attempt_cases step
  · exact (process.follows_dropHandle index).stems
  · refine ⟨List.prefix_rfl, fun other member => Or.inl ⟨other, ?_, rfl, rfl⟩⟩
    rcases member with lookup | lookup | lookup
    · rcases update_eq_some lookup with ⟨_, wrong⟩ | ⟨_, earlier⟩
      · cases wrong
      · exact .handle earlier
    · rcases update_eq_some lookup with ⟨_, same⟩ | ⟨_, earlier⟩
      · obtain rfl := Option.some.inj same
        exact .handle found
      · exact .save earlier
    · exact .deletion lookup

theorem stems_handleStep {action : HandleAction} {reply : Reply}
    (step : process.handleStep idOf action = some (reply, after)) : process.Stems after := by
  rcases handleStep_cases step with
    ⟨cookie, id, _, drawn, _, rfl⟩ | ⟨index, session, _, found, _, rfl⟩ |
    ⟨index, cookie, session, id, _, found, drawn, _, rfl⟩ |
    ⟨index, session, renewed, cell, found, twin, _, rfl⟩ | ⟨index, session, _, _, _, rfl⟩ |
    ⟨index, session, _, _, _, rfl⟩
  · refine ⟨prefix_enter _ _, fun other member => ?_⟩
    rcases live_addHandle member with rfl | earlier
    · exact Or.inr (draw_eq_some drawn).2
    · exact Or.inl ⟨other, live_see.mp earlier, rfl, rfl⟩
  · refine ⟨List.prefix_rfl, fun other member => Or.inl ?_⟩
    rcases live_addHandle member with rfl | earlier
    · exact ⟨session, .handle found, rfl, rfl⟩
    · exact ⟨other, earlier, rfl, rfl⟩
  · refine ⟨prefix_enter _ _, fun other member => ?_⟩
    rcases live_setHandle member with rfl | earlier
    · exact Or.inr (draw_eq_some drawn).2
    · exact Or.inl ⟨other, live_see.mp earlier, rfl, rfl⟩
  · exact ((process.follows_setHandle index (.handle found) twin).trans
      (follows_heap _ (Heap.keeps_setCell _ _ _))).stems
  · exact (process.follows_heap (Session.keeps_destroy _ _)).stems
  · exact (process.follows_dropHandle index).stems

/-- The moves that set no marker bring no session from elsewhere. -/
theorem Moves.stems (move : Moves idOf process kind after) (plain : Plain kind) :
    process.Stems after := by
  cases move with
  | handle step => exact stems_handleStep step
  | attempt step => exact stems_attempt step
  | captureImmutable step => exact (follows_captureImmutable step).stems
  | capturePersistence step => exact (follows_capturePersistence step).stems
  | annotate _ _ found =>
    refine (process.follows_setSave _ _ fun newer same => ?_).stems
    obtain rfl := Option.some.inj same
    exact ⟨_, found, rfl, rfl⟩
  | acquire _ step => exact (follows_acquire step).stems
  | dispatch _ _ _ _ step => exact (follows_dispatch step).stems
  | finish step =>
    obtain ⟨guard, _, _, rfl⟩ := finish_cases step
    exact (process.follows_setGuard _ _).stems
  | requireCleanup step =>
    obtain ⟨guard, _, rfl⟩ := requireCleanup_cases step
    exact (process.follows_setGuard _ _).stems
  | confirmRemoved step =>
    obtain ⟨guard, _, rfl⟩ := confirmRemoved_cases step
    exact (process.follows_setGuard _ _).stems
  | abandon _ => exact (process.follows_abandon _).stems
  | requestDelete step => exact (follows_requestDelete step).stems
  | grantDelete step => exact (follows_grantDelete step).stems
  | dropDelete index => exact (process.follows_dropDelete index).stems
  | @conceal heap hidden =>
    exact ⟨List.prefix_rfl, fun session member => Or.inl ⟨session,
      (live_congr process { process with heap } rfl rfl rfl).mp member, rfl, rfl⟩⟩
  | adopt _ _ => rcases plain with wrong | wrong <;> cases wrong
  | trust _ => rcases plain with wrong | wrong <;> cases wrong
  | deserialize _ => rcases plain with wrong | wrong <;> cases wrong
  | dropGuard _ => rcases plain with wrong | wrong <;> cases wrong
  | dropSave _ => rcases plain with wrong | wrong <;> cases wrong
  | complete _ _ => rcases plain with wrong | wrong <;> cases wrong
  | acknowledge _ => rcases plain with wrong | wrong <;> cases wrong

theorem Path.stems (path : Path idOf Plain process after) : process.Stems after := by
  induction path with
  | refl => exact .refl _
  | tail _ move inductionHypothesis =>
    obtain ⟨kind, plain, move⟩ := move
    exact inductionHypothesis.trans (move.stems plain)

/-- A guarded completion brings no session at all. -/
theorem live_complete {index : Nat} {guard : WriteGuard} {cookie : Option Cookie}
    (guarded : process.guards index = some guard)
    (step : process.complete index = some (cookie, after)) {session : Session}
    (member : after.Live session) : process.Live session := by
  obtain ⟨_, _, _, _, _, rfl⟩ := complete_of_guard guarded step
  rcases member with lookup | lookup | lookup
  · exact .handle lookup
  · rcases update_eq_some lookup with ⟨_, wrong⟩ | ⟨_, earlier⟩
    · cases wrong
    · exact .save earlier
  · exact .deletion lookup

/-! ### Ids that were sent -/

/-- What was sent once is never forgotten. -/
theorem Moves.dispatched (move : Moves idOf process kind after) {id : Id}
    (member : id ∈ process.dispatched) : id ∈ after.dispatched := by
  cases move with
  | handle step =>
    obtain ⟨_, _, _, _, rfl⟩ := handleStep_eq step
    exact member
  | attempt step =>
    obtain ⟨_, _, ⟨_, _, _, rfl⟩ | ⟨_, _, _, _, rfl⟩⟩ := attempt_cases step <;> exact member
  | captureImmutable step =>
    obtain ⟨_, _, _, rfl⟩ := captureImmutable_cases step
    exact member
  | capturePersistence step =>
    obtain ⟨_, _, _, _, rfl⟩ := capturePersistence_cases step
    exact member
  | acquire _ step =>
    obtain ⟨_, _, _, _, ⟨_, _, _, _, rfl⟩ | ⟨_, _, _, _, rfl⟩⟩ := acquire_cases step <;> exact member
  | dispatch _ _ _ _ step =>
    obtain ⟨_, _, rfl⟩ := dispatch_cases step
    exact List.mem_cons_of_mem _ member
  | finish step =>
    obtain ⟨_, _, _, rfl⟩ := finish_cases step
    exact member
  | requireCleanup step =>
    obtain ⟨_, _, rfl⟩ := requireCleanup_cases step
    exact member
  | confirmRemoved step =>
    obtain ⟨_, _, rfl⟩ := confirmRemoved_cases step
    exact member
  | dropGuard index =>
    obtain ⟨heap, dropped⟩ := process.dropGuard_eq index
    rw [dropped]
    exact member
  | dropSave index =>
    obtain ⟨heap, dropped⟩ := process.dropSave_eq index
    rw [dropped]
    exact member
  | @abandon index _ =>
    obtain ⟨heap, abandoned⟩ := process.abandon_eq index
    rw [abandoned]
    exact member
  | complete guarded step =>
    obtain ⟨_, _, _, _, _, rfl⟩ := complete_of_guard guarded step
    exact member
  | acknowledge step =>
    obtain ⟨_, _, _, _, _, rfl⟩ := acknowledge_cases step
    exact member
  | requestDelete step =>
    obtain ⟨_, _, _, rfl⟩ := requestDelete_cases step
    exact member
  | grantDelete step =>
    obtain ⟨_, _, _, _, ⟨_, _, _, rfl⟩ | ⟨_, _, _, _, rfl⟩⟩ := grantDelete_cases step <;>
      exact member
  | dropDelete index =>
    obtain ⟨heap, dropped⟩ := process.dropDelete_eq index
    rw [dropped]
    exact member
  | adopt _ _ => exact member
  | trust _ => exact member
  | deserialize _ => exact member
  | annotate _ _ _ => exact member
  | conceal _ => exact member

theorem Path.dispatched {allowed : Kind → Prop} (path : Path idOf allowed process after) {id : Id}
    (member : id ∈ process.dispatched) : id ∈ after.dispatched :=
  path.invariant (fun _ member move => move.dispatched member) member

/-! ### Guards -/

/-- A destroyed family whose mutex no save holds. -/
structure Shut (process : Process) (ref : Ref) : Prop where
  allocated : ref < process.heap.nextFamily
  destroyed : (process.heap.families ref).destroy = true
  unguarded : ∀ index guard, process.guards index = some guard → guard.family ≠ ref

/-- The guards after a move are those of before, or one that was granted on a family that was not
destroyed. -/
theorem Moves.guards (move : Moves idOf process kind after) (index : Nat) (guard : WriteGuard)
    (found : after.guards index = some guard) :
    (∃ older, process.guards index = some older ∧ older.family = guard.family) ∨
      (process.heap.families guard.family).destroy = false := by
  have same : after.guards = process.guards →
      (∃ older, process.guards index = some older ∧ older.family = guard.family) ∨
        (process.heap.families guard.family).destroy = false :=
    fun tables => Or.inl ⟨guard, tables ▸ found, rfl⟩
  have replaced : ∀ {key : Nat} {older newer : WriteGuard}, process.guards key = some older →
      Function.update process.guards key (some newer) index = some guard →
        newer.family = older.family →
          (∃ older, process.guards index = some older ∧ older.family = guard.family) ∨
            (process.heap.families guard.family).destroy = false := by
    intro key older newer lookup found family
    rcases update_eq_some found with ⟨rfl, new⟩ | ⟨_, earlier⟩
    · obtain rfl := Option.some.inj new
      exact Or.inl ⟨older, lookup, family.symm⟩
    · exact Or.inl ⟨guard, earlier, rfl⟩
  have dropped : ∀ {key : Nat}, Function.update process.guards key none index = some guard →
      (∃ older, process.guards index = some older ∧ older.family = guard.family) ∨
        (process.heap.families guard.family).destroy = false := by
    intro key found
    rcases update_eq_some found with ⟨_, wrong⟩ | ⟨_, earlier⟩
    · cases wrong
    · exact Or.inl ⟨guard, earlier, rfl⟩
  cases move with
  | handle step =>
    obtain ⟨_, _, _, _, rfl⟩ := handleStep_eq step
    exact same rfl
  | adopt _ _ => exact same rfl
  | trust _ => exact same rfl
  | deserialize _ => exact same rfl
  | attempt step =>
    obtain ⟨_, _, ⟨_, _, _, rfl⟩ | ⟨_, _, _, _, rfl⟩⟩ := attempt_cases step <;> exact same rfl
  | captureImmutable step =>
    obtain ⟨_, _, _, rfl⟩ := captureImmutable_cases step
    exact same rfl
  | capturePersistence step =>
    obtain ⟨_, _, _, _, rfl⟩ := capturePersistence_cases step
    exact same rfl
  | annotate _ _ _ => exact same rfl
  | acquire _ step =>
    obtain ⟨save, _, _, _, ⟨_, _, _, _, rfl⟩ | ⟨granted, _, outcome, _, rfl⟩⟩ := acquire_cases step
    · exact same rfl
    · rcases update_eq_some found with ⟨_, new⟩ | ⟨_, earlier⟩
      · obtain rfl := Option.some.inj new
        obtain ⟨_, alive, _, owner, _⟩ := Session.beginGuardedWrite_ok outcome
        rw [owner]
        exact Or.inr alive
      · exact Or.inl ⟨guard, earlier, rfl⟩
  | dispatch _ _ _ _ step =>
    obtain ⟨_, _, rfl⟩ := dispatch_cases step
    exact same rfl
  | finish step =>
    obtain ⟨older, lookup, _, rfl⟩ := finish_cases step
    exact replaced lookup found rfl
  | requireCleanup step =>
    obtain ⟨older, lookup, rfl⟩ := requireCleanup_cases step
    exact replaced lookup found rfl
  | confirmRemoved step =>
    obtain ⟨older, lookup, rfl⟩ := confirmRemoved_cases step
    exact replaced lookup found rfl
  | dropGuard key =>
    rw [guards_dropGuard] at found
    exact dropped found
  | dropSave key => exact same (Agreement.guards_dropSave _ _)
  | abandon _ =>
    rw [Process.abandon, Agreement.guards_dropSave, guards_dropGuard] at found
    exact dropped found
  | complete guarded step =>
    obtain ⟨_, _, _, _, _, rfl⟩ := complete_of_guard guarded step
    exact dropped found
  | acknowledge step =>
    obtain ⟨_, _, _, _, _, rfl⟩ := acknowledge_cases step
    exact same rfl
  | requestDelete step =>
    obtain ⟨_, _, _, rfl⟩ := requestDelete_cases step
    exact same rfl
  | grantDelete step =>
    obtain ⟨_, _, _, _, ⟨_, _, _, rfl⟩ | ⟨_, _, _, _, rfl⟩⟩ := grantDelete_cases step <;>
      exact same rfl
  | dropDelete index => exact same (Agreement.guards_dropDelete _ _)
  | conceal _ => exact same rfl

theorem Shut.moves {ref : Ref} (shut : process.Shut ref) (authority : Authority process)
    (move : Moves idOf process kind after) : after.Shut ref where
  allocated := shut.allocated.trans_le (move.climbs authority).nextFamily
  destroyed := (move.climbs authority).destroy ref shut.allocated shut.destroyed
  unguarded index guard found family := by
    rcases move.guards index guard found with ⟨older, earlier, same⟩ | alive
    · exact shut.unguarded index older earlier (same.trans family)
    · rw [family] at alive
      cases shut.destroyed.symm.trans alive

/-- A family that is destroyed and not held for a write is never written for again. -/
theorem Shut.path {ref : Ref} {allowed : Kind → Prop} (shut : process.Shut ref)
    (authority : Authority process) (path : Path idOf allowed process after) : after.Shut ref := by
  have both : Authority after ∧ after.Shut ref := by
    induction path with
    | refl => exact ⟨authority, shut⟩
    | tail _ move inductionHypothesis =>
      obtain ⟨kind, _, move⟩ := move
      exact ⟨inductionHypothesis.1.moves move, inductionHypothesis.2.moves inductionHypothesis.1 move⟩
  exact both.2

/-- Every requested deletion has set the destroy flag of its family. -/
def Doomed (process : Process) : Prop :=
  ∀ index deletion, process.deletions index = some deletion →
    deletion.session.isDestroyed process.heap = true

theorem doomed_initial : Doomed initial := by
  rintro _ _ found
  cases found

theorem Doomed.moves (doomed : process.Doomed) (authority : Authority process)
    (move : Moves idOf process kind after) : after.Doomed := by
  have stays : ∀ {index : Nat} {older : Deletion}, process.deletions index = some older →
      older.session.isDestroyed after.heap = true := fun found =>
    (move.climbs authority).destroy _ (authority.allocated _ (.deletion found)).1
      (doomed _ _ found)
  intro index deletion found
  rcases move.deletion index deletion found with
    earlier | ⟨_, destroyed⟩ | ⟨⟨older, earlier, same⟩, _⟩
  · exact stays earlier
  · exact destroyed
  · exact same ▸ stays earlier

theorem Doomed.path {allowed : Kind → Prop} (doomed : process.Doomed) (authority : Authority process)
    (path : Path idOf allowed process after) : after.Doomed := by
  have both : Authority after ∧ after.Doomed := by
    induction path with
    | refl => exact ⟨authority, doomed⟩
    | tail _ move inductionHypothesis =>
      obtain ⟨kind, _, move⟩ := move
      exact ⟨inductionHypothesis.1.moves move, inductionHypothesis.2.moves inductionHypothesis.1 move⟩
  exact both.2

/-- A granted deletion holds the mutex, so no save does. -/
theorem Shut.of_granted {index : Nat} {deletion : Deletion} {target : Id} (doomed : process.Doomed)
    (authority : Authority process) (locking : Locking process)
    (found : process.deletions index = some deletion) (granted : deletion.target = some target) :
    process.Shut deletion.session.family where
  allocated := (authority.allocated _ (.deletion found)).1
  destroyed := doomed index deletion found
  unguarded key guard guarded family := by
    have same := locking.exclusive.unique deletion.session.family (.inr index) (.inl key)
      ⟨deletion, found, by simp [granted], rfl⟩ ⟨guard, guarded, family⟩
    cases same

end Process

end Saysion
