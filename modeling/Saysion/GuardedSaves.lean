/-
This file proves that competing guarded saves agree on one identity. A token
captures its origin before it waits, so several tokens may name one origin; the
recheck under the guard and the climbing marker decide between them. A token
that completes was granted at its origin and leaves the marker at its id, and a
rotation that completes shuts out every token that named the old identity.
-/

import Saysion.Retention
import Saysion.WriteAuthority

namespace Saysion

/-! ### The guarded protocol -/

/-- The invariants of the protocol without the unguarded completion. -/
structure GuardedSound (process : Process) : Prop extends Sound process where
  agreement : Agreement process
  snapshots : process.Snapshots

section

variable {idOf : Cookie → Option Id} {process later after : Process} {action : SaveAction}
  {reply : Reply} {trace : List (SaveAction × Reply)} {index guardIndex : Nat}

theorem guardedSound_initial : GuardedSound Process.initial :=
  ⟨sound_initial, Agreement.initial, by rintro _ _ wrong; cases wrong⟩

theorem guarded_path (sound : GuardedSound process)
    (step : (guardedSave idOf).step process action = some (reply, after)) :
    Process.Path idOf (fun kind => kind ≠ .unguarded) process after := by
  obtain ⟨allowed, step⟩ := Machine.restrict_step.mp step
  refine (Process.saveStep_path sound.authority sound.locking step).mono ?_
  rintro kind ⟨_, restricted⟩ unguarded
  simp [restricted unguarded] at allowed

theorem GuardedSound.path {idOf : Cookie → Option Id} (sound : GuardedSound process)
    (path : Process.Path idOf (fun kind => kind ≠ .unguarded) process after) :
    GuardedSound after := by
  refine path.invariant (fun guarded earlier move => ?_) sound
  exact ⟨⟨earlier.authority.moves move, earlier.locking.moves earlier.authority move⟩,
    earlier.agreement.moves earlier.locking earlier.authority guarded move,
    move.saved.snapshots earlier.snapshots⟩

theorem GuardedSound.step (sound : GuardedSound process)
    (step : (guardedSave idOf).step process action = some (reply, after)) : GuardedSound after :=
  sound.path (guarded_path sound step)

theorem GuardedSound.run (sound : GuardedSound process)
    (run : (guardedSave idOf).Run process trace later) : GuardedSound later :=
  run.invariant (fun earlier step => earlier.step step) sound

theorem climbs_of_guarded (sound : GuardedSound process)
    (run : (guardedSave idOf).Run process trace later) : process.Climbs later :=
  run.related Process.Climbs.refl Process.Climbs.trans (fun earlier step => earlier.step step)
    (fun earlier step => (guarded_path earlier step).climbs earlier.authority) sound

theorem retains_of_guarded (sound : GuardedSound process)
    (run : (guardedSave idOf).Run process trace later) : process.Retains later :=
  run.related Process.Retains.refl Process.Retains.trans (fun earlier step => earlier.step step)
    (fun earlier step => (guarded_path earlier step).retains) sound

/-! ### Completion -/

/-- A completion with `Ok` used the token's own guard, and left the marker at the token's id. -/
theorem completed {cookie : Option Cookie} (sound : GuardedSound process)
    (step : (guardedSave idOf).step process (.completeWithGuard index guardIndex) =
      some (.cookie cookie, after)) :
    ∃ save guard, process.saves index = some save ∧ process.guards index = some guard ∧
      guard.receipt = some index ∧ save.source.persistedId process.heap = save.origin ∧
      save.source.persistedId after.heap = some save.source.id ∧ after.saves index = none ∧
      ∃ revision, save.revision = some revision := by
  obtain ⟨_, step⟩ := Machine.restrict_step.mp step
  have step : process.completeWithGuard index guardIndex = some (.cookie cookie, after) := step
  obtain ⟨save, guard, found, guarded, _, ⟨_, wrong, _⟩ | ⟨own, _, finished, finish, outcome⟩⟩ :=
    Process.completeWithGuard_cases step
  · cases wrong
  obtain rfl := sound.locking.receipt guardIndex guard index guarded own
  obtain ⟨_, _, _, wrong, _⟩ | ⟨value, acknowledged, _, _, acknowledge, rfl⟩ := outcome
  · cases wrong
  obtain ⟨older, olderFound, _, rfl⟩ := Process.finish_cases finish
  have settled : (process.setGuard index (some { older with settled := true })).guards index =
      some { older with settled := true } := Function.update_self _ _ _
  obtain ⟨other, revision, same, captured, _, result⟩ :=
    Process.complete_of_guard settled (Process.complete_of_acknowledge acknowledge)
  obtain rfl := Option.some.inj (found.symm.trans same)
  have marker := sound.agreement index guard save guarded found
  refine ⟨save, guard, found, guarded, own, marker, ?_, ?_, revision, captured⟩
  · rw [result]
    refine (Heap.persistedId_unlock _ _ _ _).trans ?_
    exact sound.authority.marked found marker
  · rw [result]
    exact Function.update_self _ _ _

/-! ### Where a guard came from -/

/-- No guard is handed out: every guard was there, with its receipt. -/
def Process.Ungranted (before after : Process) : Prop :=
  ∀ key guard, after.guards key = some guard →
    ∃ older, before.guards key = some older ∧ older.receipt = guard.receipt

theorem ungranted_of_same (same : after.guards = process.guards) : process.Ungranted after :=
  fun _ guard found => ⟨guard, same ▸ found, rfl⟩

theorem Process.Ungranted.trans {middle : Process} (first : process.Ungranted middle)
    (second : middle.Ungranted after) : process.Ungranted after := by
  intro key guard found
  obtain ⟨between, later, same⟩ := second key guard found
  obtain ⟨older, earlier, same'⟩ := first key between later
  exact ⟨older, earlier, same'.trans same⟩

theorem ungranted_setGuard {guard : WriteGuard} (found : process.guards index = some guard)
    (newer : WriteGuard) (receipt : guard.receipt = newer.receipt) :
    process.Ungranted (process.setGuard index (some newer)) := by
  intro key other lookup
  rcases update_eq_some lookup with ⟨rfl, same⟩ | ⟨_, earlier⟩
  · obtain rfl := Option.some.inj same
    exact ⟨guard, found, receipt⟩
  · exact ⟨other, earlier, rfl⟩

theorem ungranted_dropGuard (process : Process) (index : Nat) :
    process.Ungranted (process.dropGuard index) :=
  fun key guard found => ⟨guard, (Agreement.guards_dropGuard process index key guard found).2, rfl⟩

theorem ungranted_dropSave (process : Process) (index : Nat) :
    process.Ungranted (process.dropSave index) :=
  ungranted_of_same (Agreement.guards_dropSave process index)

theorem ungranted_dropBoth (process : Process) (index guardIndex : Nat) :
    process.Ungranted ((process.dropGuard guardIndex).dropSave index) :=
  (ungranted_dropGuard process guardIndex).trans (ungranted_dropSave _ index)

theorem ungranted_handleStep {handleAction : HandleAction}
    (step : process.handleStep idOf handleAction = some (reply, after)) :
    process.Ungranted after := by
  obtain ⟨_, _, _, _, rfl⟩ := Process.handleStep_eq step
  exact ungranted_of_same rfl

theorem ungranted_attempt (step : process.attempt index = some (reply, after)) :
    process.Ungranted after := by
  obtain ⟨session, _, ⟨_, _, _, rfl⟩ | ⟨_, _, _, _, rfl⟩⟩ := Process.attempt_cases step <;>
    exact ungranted_of_same rfl

theorem ungranted_acknowledge {cookie : Option Cookie}
    (step : process.acknowledge index = some (cookie, after)) : process.Ungranted after := by
  obtain ⟨save, revision, _, _, _, rfl⟩ := Process.acknowledge_cases step
  exact ungranted_of_same rfl

theorem ungranted_completeWithGuard
    (step : process.completeWithGuard index guardIndex = some (reply, after)) :
    process.Ungranted after := by
  obtain ⟨_, _, _, _, _, ⟨_, _, rfl⟩ | ⟨_, _, _, finish, outcome⟩⟩ :=
    Process.completeWithGuard_cases step
  · exact ungranted_dropBoth process index guardIndex
  obtain ⟨older, olderFound, _, rfl⟩ := Process.finish_cases finish
  have first := ungranted_setGuard olderFound { older with settled := true } rfl
  rcases outcome with ⟨_, _, _, _, requireCleanup, rfl⟩ | ⟨_, _, _, _, acknowledge, rfl⟩
  · obtain ⟨settled, settledFound, rfl⟩ := Process.requireCleanup_cases requireCleanup
    exact (first.trans (ungranted_setGuard settledFound { settled with settled := false } rfl)).trans
      (ungranted_dropBoth _ _ _)
  · exact (first.trans (ungranted_acknowledge acknowledge)).trans (ungranted_dropGuard _ _)

theorem ungranted_confirmRemovedWith
    (step : process.confirmRemovedWith index guardIndex = some (reply, after)) :
    process.Ungranted after := by
  obtain ⟨_, _, _, _, _, ⟨_, _, rfl⟩ | ⟨_, _, _, confirm, rfl⟩⟩ :=
    Process.confirmRemovedWith_cases step
  · exact ungranted_dropBoth process index guardIndex
  · obtain ⟨older, olderFound, rfl⟩ := Process.confirmRemoved_cases confirm
    exact (ungranted_setGuard olderFound { older with settled := true } rfl).trans
      (ungranted_dropBoth _ _ _)

theorem ungranted_complete {cookie : Option Cookie}
    (step : process.complete index = some (cookie, after)) : process.Ungranted after := by
  obtain ⟨middle, acknowledged, rfl⟩ := Process.complete_cases step
  exact (ungranted_acknowledge acknowledged).trans (ungranted_dropGuard _ _)

/-- Acquiring hands out at most the guard of the save, with the receipt that was asked for. -/
theorem ungranted_acquire {receipt : Option Nat} {canOutliveFuture : Bool}
    {result : Except Error Unit}
    (step : process.acquire index receipt canOutliveFuture = some (result, after)) (key : Nat)
    (guard : WriteGuard) (found : after.guards key = some guard) :
    (∃ older, process.guards key = some older ∧ older.receipt = guard.receipt) ∨
      key = index ∧ guard.receipt = receipt ∧ result = .ok () := by
  obtain ⟨save, _, _, _, ⟨_, _, _, _, rfl⟩ | ⟨granted, heap, outcome, rfl, rfl⟩⟩ :=
    Process.acquire_cases step
  · exact Or.inl ⟨guard, found, rfl⟩
  · rcases update_eq_some found with ⟨same, new⟩ | ⟨_, earlier⟩
    · obtain rfl := Option.some.inj new
      obtain ⟨_, _, _, rfl, _⟩ := Session.beginGuardedWrite_ok outcome
      exact Or.inr ⟨same, rfl, rfl⟩
    · exact Or.inl ⟨guard, earlier, rfl⟩

/-- A guard with a token's receipt comes from `begin_write` on that token, and from nowhere else. -/
theorem receipt_of_step (step : process.saveStep idOf action = some (reply, after)) {key : Nat}
    {guard : WriteGuard} (found : after.guards key = some guard)
    (receipt : guard.receipt = some key) :
    (∃ older, process.guards key = some older ∧ older.receipt = some key) ∨
      action = .acquireWrite key ∧ reply = .done := by
  have there : process.Ungranted after →
      (∃ older, process.guards key = some older ∧ older.receipt = some key) ∨
        action = .acquireWrite key ∧ reply = .done := by
    intro ungranted
    obtain ⟨older, earlier, same⟩ := ungranted key guard found
    exact Or.inl ⟨older, earlier, same.trans receipt⟩
  cases action with
  | handle action => exact there (ungranted_handleStep step)
  | deserialize wire =>
    cases step
    exact there (ungranted_of_same rfl)
  | validateLoaded index cookie now =>
    refine there (ungranted_of_same ?_)
    obtain ⟨_, _, _, _, ⟨_, rfl⟩ | ⟨_, _, _, _, rfl⟩⟩ := Process.validateLoaded_cases step <;> rfl
  | prepareSave index =>
    obtain ⟨attempted, attempt, outcome⟩ := Process.prepareSave_cases step
    have first := ungranted_attempt attempt
    rcases outcome with ⟨_, _, capture⟩ | ⟨_, rfl⟩
    · obtain ⟨save, _, _, rfl⟩ := Process.captureImmutable_cases capture
      exact there (first.trans (ungranted_of_same rfl))
    · exact there first
  | validateCurrent index =>
    exact there (ungranted_of_same (congrArg Process.guards (Process.validateCurrent_eq step)))
  | beginWrite index =>
    obtain ⟨_, _, ⟨_, _, rfl⟩ | ⟨_, _, rfl⟩⟩ := Process.beginWrite_cases step <;>
      exact there (ungranted_of_same rfl)
  | acquireWrite index =>
    obtain ⟨save, result, _, _, acquire, outcome⟩ := Process.acquireWrite_cases step
    rcases ungranted_acquire acquire key guard found with ⟨older, earlier, alike⟩ | ⟨rfl, _, rfl⟩
    · exact Or.inl ⟨older, earlier, alike.trans receipt⟩
    · obtain ⟨_, wrong, _⟩ | ⟨_, done⟩ := outcome
      · cases wrong
      · exact Or.inr ⟨rfl, done⟩
  | cancelWrite index =>
    obtain ⟨_, _, _, _, rfl⟩ := Process.cancelWrite_cases step
    exact there (ungranted_of_same rfl)
  | completeWithGuard index guard => exact there (ungranted_completeWithGuard step)
  | confirmRemoved index guard => exact there (ungranted_confirmRemovedWith step)
  | complete index =>
    obtain ⟨_, _, _, ⟨_, _, rfl⟩ | ⟨_, _, _, acknowledge⟩⟩ := Process.completeUnguarded_cases step
    · exact there (ungranted_dropSave process index)
    · exact there (ungranted_acknowledge acknowledge)
  | dropSave index =>
    obtain ⟨_, _, _, _, rfl⟩ := Process.dropToken_cases step
    exact there (ungranted_dropSave process index)
  | dropGuard index =>
    simp only [Process.saveStep, Option.map_eq_some_iff] at step
    obtain ⟨_, _, step⟩ := step
    cases step
    exact there (ungranted_dropGuard process index)
  | prepareDelete index =>
    obtain ⟨_, _, _, rfl⟩ := Process.prepareDelete_cases step
    exact there (ungranted_of_same rfl)
  | beginDelete index =>
    obtain ⟨session, _, _, rfl⟩ := Process.requestDelete_cases step
    exact there (ungranted_of_same rfl)
  | grantDelete index =>
    obtain ⟨deletion, _, _, _, ⟨_, _, _, rfl⟩ | ⟨_, _, _, _, rfl⟩⟩ :=
      Process.grantDelete_cases step <;> exact there (ungranted_of_same rfl)
  | dropDelete index =>
    simp only [Process.saveStep, Option.map_eq_some_iff] at step
    obtain ⟨_, _, step⟩ := step
    cases step
    exact there (ungranted_of_same (Agreement.guards_dropDelete process index))
  | storeAttempt index => exact there (ungranted_attempt step)
  | storeCapture index =>
    simp only [Process.saveStep, Option.map_eq_some_iff] at step
    obtain ⟨⟨snapshot, captured⟩, capture, step⟩ := step
    cases step
    obtain ⟨save, _, _, _, rfl⟩ := Process.capturePersistence_cases capture
    exact there (ungranted_of_same rfl)
  | storeAcquire index canOutliveFuture =>
    obtain ⟨_, acquire, _⟩ := Process.finishReply_cases step
    rcases ungranted_acquire acquire key guard found with ⟨older, earlier, alike⟩ | ⟨_, none, _⟩
    · exact Or.inl ⟨older, earlier, alike.trans receipt⟩
    · cases none.symm.trans receipt
  | storeFinish index =>
    obtain ⟨_, finish, _⟩ := Process.finishReply_cases step
    obtain ⟨older, olderFound, _, rfl⟩ := Process.finish_cases finish
    exact there (ungranted_setGuard olderFound { older with settled := true } rfl)
  | storeRequireCleanup index =>
    simp only [Process.saveStep, Option.map_eq_some_iff] at step
    obtain ⟨fenced, requireCleanup, step⟩ := step
    cases step
    obtain ⟨older, olderFound, rfl⟩ := Process.requireCleanup_cases requireCleanup
    exact there (ungranted_setGuard olderFound { older with settled := false } rfl)
  | storeConfirmRemoved index =>
    simp only [Process.saveStep, Option.map_eq_some_iff] at step
    obtain ⟨confirmed, confirm, step⟩ := step
    cases step
    obtain ⟨older, olderFound, rfl⟩ := Process.confirmRemoved_cases confirm
    exact there (ungranted_setGuard olderFound { older with settled := true } rfl)
  | storeComplete index =>
    obtain ⟨_, _, _, _, _, complete⟩ := Process.storeComplete_cases step
    exact there (ungranted_complete complete)

/-- `begin_write` succeeds only while the marker is the origin of the token. -/
theorem origin_of_acquireWrite (sound : GuardedSound process)
    (step : process.acquireWrite index = some (.done, after)) :
    ∃ save, process.saves index = some save ∧
      save.source.persistedId process.heap = save.origin := by
  obtain ⟨save, _, found, _, acquire, ⟨_, _, wrong⟩ | ⟨rfl, _⟩⟩ := Process.acquireWrite_cases step
  · cases wrong
  refine ⟨save, found, ?_⟩
  by_cases unsaved : save.origin = none
  · rw [unsaved]
    exact (sound.authority.creating index save found unsaved).2.2
  obtain ⟨other, otherFound, _, _, ⟨_, _, _, wrong, _⟩ | ⟨guard, heap, granted, _, _⟩⟩ :=
    Process.acquire_cases acquire
  · cases wrong
  · rcases update_eq_some otherFound with ⟨_, same⟩ | ⟨different, _⟩
    · obtain rfl := Option.some.inj same
      exact (Session.beginGuardedWrite_ok granted).2.2.1 unsaved
    · exact absurd rfl different

/-- The guard of a token was granted at some step of the run, which found the marker at the
origin of the token. -/
theorem granted_at_origin {save : Save} {guard : WriteGuard}
    (run : (guardedSave idOf).Run Process.initial trace process)
    (found : process.saves index = some save) (guarded : process.guards index = some guard)
    (receipt : guard.receipt = some index) :
    ∃ before granted earlier later, (guardedSave idOf).Run Process.initial earlier before ∧
      (guardedSave idOf).step before (.acquireWrite index) = some (.done, granted) ∧
        (guardedSave idOf).Run granted later process ∧
          (∃ token, before.saves index = some token ∧ token.source = save.source ∧
            token.origin = save.origin) ∧
          save.source.persistedId before.heap = save.origin := by
  have onset := run.onset
    (fun state => ∃ held, state.guards index = some held ∧ held.receipt = some index)
    (fun ⟨_, wrong, _⟩ => by cases wrong) ⟨guard, guarded, receipt⟩
  obtain ⟨before, action, reply, granted, earlier, later, first, step, without, holds, rest⟩ := onset
  have sound : GuardedSound before := guardedSound_initial.run first
  obtain ⟨held, heldFound, heldReceipt⟩ := holds
  obtain ⟨_, inner⟩ := Machine.restrict_step.mp step
  obtain ⟨rfl, rfl⟩ :=
    (receipt_of_step inner heldFound heldReceipt).resolve_left fun already => without already
  -- The token was there when it was granted, and has kept its source and origin.
  obtain ⟨waiting, waitingFound, marker⟩ := origin_of_acquireWrite sound inner
  have used := sound.locking.used_of_save waitingFound
  obtain ⟨token, tokenFound, source, origin⟩ :=
    (retains_of_guarded sound ((Machine.Run.refl.tail step).trans rest)).save index used save found
  obtain rfl := Option.some.inj (waitingFound.symm.trans tokenFound)
  refine ⟨before, granted, earlier, later, first, step, rest, ⟨waiting, waitingFound, source, origin⟩,
    ?_⟩
  rw [← source, ← origin]
  exact marker

end

/-! ### Competing tokens -/

/-- Competing guarded saves agree on one identity. A token that completes was granted while the
marker was its origin, and leaves the marker at the id of its snapshot. If that was a rotation,
then a token of the family that completes later has another origin, and was not yet captured. -/
theorem competing_saves_agree (idOf : Cookie → Option Id) (process after : Process)
    (trace : List (SaveAction × Reply)) (index guardIndex : Nat) (cookie : Option Cookie)
    (run : (guardedSave idOf).Run Process.initial trace process)
    (step : (guardedSave idOf).step process (.completeWithGuard index guardIndex) =
      some (.cookie cookie, after)) :
    ∃ save snapshot, process.saves index = some save ∧ save.snapshot = some snapshot ∧
      (∃ before granted earlier later, (guardedSave idOf).Run Process.initial earlier before ∧
        (guardedSave idOf).step before (.acquireWrite index) = some (.done, granted) ∧
        (guardedSave idOf).Run granted later process ∧
        (∃ token, before.saves index = some token ∧ token.source = save.source ∧
          token.origin = save.origin) ∧
        save.source.persistedId before.heap = save.origin) ∧
      save.source.persistedId after.heap = some snapshot.id ∧
      ∀ origin, save.origin = some origin → snapshot.id ≠ origin →
        ∀ (later : List (SaveAction × Reply)) (process' after' : Process)
          (other otherGuard : Nat) (token : Save) (cookie' : Option Cookie),
          (guardedSave idOf).Run after later process' → process'.saves other = some token →
          token.source.family = save.source.family →
          (guardedSave idOf).step process' (.completeWithGuard other otherGuard) =
            some (.cookie cookie', after') →
          token.origin ≠ some origin ∧ process.saves other = none := by
  have sound : GuardedSound process := guardedSound_initial.run run
  obtain ⟨save, guard, found, guarded, receipt, marker, moved, gone, revision, captured⟩ :=
    completed sound step
  obtain ⟨snapshot, taken, named⟩ : ∃ snapshot, save.snapshot = some snapshot ∧
      snapshot.id = save.source.id := by
    rcases sound.snapshots index save found with ⟨_, none⟩ | taken
    · cases none.symm.trans captured
    · exact taken
  refine ⟨save, snapshot, found, taken, granted_at_origin run found guarded receipt,
    named ▸ moved, ?_⟩
  intro origin saved rotates later process' after' other otherGuard token cookie' rest tokenFound
    together completion
  have soundAfter : GuardedSound after := sound.step step
  have soundLater : GuardedSound process' := soundAfter.run rest
  obtain ⟨same, _, same_eq, _, _, agreed, _⟩ := completed soundLater completion
  obtain rfl := Option.some.inj (tokenFound.symm.trans same_eq)
  -- The rotation left the marker at an id younger than its origin, and it only climbs from there.
  have younger : rank process.seen origin < rank process.seen save.source.id ∧
      origin ∈ process.seen ∧ save.source.id ∈ process.seen := by
    obtain ⟨related, originSeen, _⟩ := sound.authority.origin_le index save origin found saved
    have source : save.source.rotationFrom = some origin :=
      related.resolve_left fun own => rotates (named.trans own.symm)
    have idSeen := sound.authority.idSeen save.source (.save found)
      (Or.inr fun unset => by cases unset.symm.trans (marker.trans saved))
    exact ⟨(sound.authority.rotation_lt _ (.save found) origin source).2.1, originSeen, idSeen⟩
  have allocated := (sound.authority.allocated save.source (.save found)).1
  have climbs : after.Climbs process' := climbs_of_guarded soundAfter rest
  have climb : process.Climbs after := (guarded_path sound step).climbs sound.authority
  obtain ⟨current, currentMarker, above⟩ := climbs.marker save.source.family
    (allocated.trans_le climb.nextFamily) save.source.id moved
  have tokenMarker : token.origin = some current := by
    rw [← agreed, Session.persistedId, Session.shared, together]
    exact currentMarker
  have grows : process.seen <+: process'.seen := climb.grows.trans climbs.grows
  have oldest : rank process'.seen origin < rank process'.seen current := by
    have start : rank process'.seen origin < rank process'.seen save.source.id := by
      rw [rank_eq_of_grown grows younger.2.1, rank_eq_of_grown grows younger.2.2]
      exact younger.1
    rcases above with rfl | ⟨_, _, beyond⟩
    · exact start
    · exact start.trans beyond
  constructor
  · intro stale
    obtain rfl : current = origin := Option.some.inj (tokenMarker.symm.trans stale)
    exact absurd oldest (lt_irrefl _)
  · -- A token captured before the rotation has an origin that is at most its origin.
    by_contra present
    obtain ⟨earlier, earlierFound⟩ := Option.ne_none_iff_exists'.mp present
    have used := sound.locking.used_of_save earlierFound
    obtain ⟨older, olderFound, source, sameOrigin⟩ := (retains_of_guarded sound
      ((Machine.Run.refl.tail step).trans rest)).save other used token tokenFound
    obtain ⟨_, _, top, topMarker, below⟩ := sound.authority.origin_le other older current olderFound
      (sameOrigin.trans tokenMarker)
    have topOrigin : top = origin := by
      have family : older.source.family = save.source.family := by rw [source, together]
      have current : older.source.persistedId process.heap =
          save.source.persistedId process.heap := by
        rw [Session.persistedId, Session.shared, family]
        rfl
      exact Option.some.inj (topMarker.symm.trans (current.trans (marker.trans saved)))
    obtain ⟨_, currentSeen, _⟩ := sound.authority.origin_le other older current olderFound
      (sameOrigin.trans tokenMarker)
    rw [rank_eq_of_grown grows younger.2.1, rank_eq_of_grown grows currentSeen] at oldest
    rw [topOrigin] at below
    exact absurd oldest (Nat.not_lt_of_ge below)

/-- A rotation that completes: the marker moves from the first id to the second. -/
theorem competing_saves_agree_on_rotation : ∃ (process after : Process) (save : Save)
    (snapshot : SessionSnapshot), process.saves 1 = some save ∧ save.snapshot = some snapshot ∧
      snapshot.id = "second" ∧ save.source.persistedId after.heap = some snapshot.id := by
  have run := Machine.run_replay (guardedSave some) Process.initial
    [.handle (.new "first"), .handle (.clone 0), .prepareSave 0, .beginWrite 0, .acquireWrite 0,
      .completeWithGuard 0 0, .handle (.regenerate 1 "second"), .prepareSave 1, .beginWrite 1,
      .acquireWrite 1] (by decide)
  obtain ⟨save, snapshot, found, taken, _, moved, _⟩ := competing_saves_agree some _ _ _ 1 1
    (some "second") run rfl
  refine ⟨_, _, save, snapshot, found, taken, ?_, moved⟩
  cases found
  cases taken
  rfl

end Saysion
