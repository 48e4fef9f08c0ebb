/-
This file says what the moves of a process do to the saves in progress. A save
keeps its source and its origin as long as it is there, its index is never used
again, and what it captured is the state of its source at one moment.
-/

import Saysion.Moves

namespace Saysion

namespace Process

variable {idOf : Cookie → Option Id} {process middle after : Process} {kind : Kind}

/-! ### What a move does to the saves -/

/-- What a move does to the saves: each is new, or has the source and the origin it had; and it
has the snapshot and the revision it had, or was captured by the move. -/
structure Saved (before after : Process) : Prop where
  nextSave : before.nextSave ≤ after.nextSave
  save : ∀ index save, after.saves index = some save →
    (before.nextSave ≤ index ∧ save.snapshot = none ∧ save.revision = none) ∨
      ∃ older, before.saves index = some older ∧ older.source = save.source ∧
        older.origin = save.origin ∧
        (save.snapshot = older.snapshot ∧ save.revision = older.revision ∨
          save.snapshot = some (save.source.wire before.heap) ∧
            ∃ revision, save.revision = some revision ∧ revision.data = save.source.data)

theorem saved_of_same (saves : after.saves = process.saves)
    (next : after.nextSave = process.nextSave) : process.Saved after :=
  ⟨next.ge, fun _ save found => Or.inr ⟨save, saves ▸ found, rfl, rfl, Or.inl ⟨rfl, rfl⟩⟩⟩

theorem saved_of_drop {index : Nat} (saves : after.saves = Function.update process.saves index none)
    (next : after.nextSave = process.nextSave) : process.Saved after := by
  refine ⟨next.ge, fun key save found => ?_⟩
  rw [saves] at found
  rcases update_eq_some found with ⟨_, wrong⟩ | ⟨_, earlier⟩
  · cases wrong
  · exact Or.inr ⟨save, earlier, rfl, rfl, Or.inl ⟨rfl, rfl⟩⟩

theorem saved_of_set {index : Nat} {older newer : Save} (found : process.saves index = some older)
    (saves : after.saves = Function.update process.saves index (some newer))
    (next : after.nextSave = process.nextSave) (source : older.source = newer.source)
    (origin : older.origin = newer.origin)
    (snapshot : newer.snapshot = older.snapshot ∧ newer.revision = older.revision ∨
      newer.snapshot = some (newer.source.wire process.heap) ∧
        ∃ revision, newer.revision = some revision ∧ revision.data = newer.source.data) :
    process.Saved after := by
  refine ⟨next.ge, fun key save lookup => ?_⟩
  rw [saves] at lookup
  rcases update_eq_some lookup with ⟨rfl, same⟩ | ⟨_, earlier⟩
  · obtain rfl := Option.some.inj same
    exact Or.inr ⟨older, found, source, origin, snapshot⟩
  · exact Or.inr ⟨save, earlier, rfl, rfl, Or.inl ⟨rfl, rfl⟩⟩

theorem saved_dropSave (process : Process) (index : Nat) :
    process.Saved (process.dropSave index) := by
  obtain ⟨heap, dropped⟩ := process.dropSave_eq index
  rw [dropped]
  exact saved_of_drop rfl rfl

theorem Moves.saved (move : Moves idOf process kind after) : process.Saved after := by
  cases move with
  | handle step =>
    obtain ⟨_, _, _, _, rfl⟩ := handleStep_eq step
    exact saved_of_same rfl rfl
  | adopt _ _ => exact saved_of_same rfl rfl
  | trust _ => exact saved_of_same rfl rfl
  | deserialize wire => exact saved_of_same rfl rfl
  | attempt step =>
    obtain ⟨session, _, ⟨_, _, _, rfl⟩ | ⟨origin, heap, _, _, rfl⟩⟩ := attempt_cases step
    · exact saved_of_same rfl rfl
    · refine ⟨Nat.le_succ _, fun index save lookup => ?_⟩
      rcases update_eq_some lookup with ⟨rfl, same⟩ | ⟨_, earlier⟩
      · obtain rfl := Option.some.inj same
        exact Or.inl ⟨le_rfl, rfl, rfl⟩
      · exact Or.inr ⟨save, earlier, rfl, rfl, Or.inl ⟨rfl, rfl⟩⟩
  | captureImmutable step =>
    obtain ⟨save, found, _, rfl⟩ := captureImmutable_cases step
    exact saved_of_set found rfl rfl rfl rfl (Or.inr ⟨rfl, _, rfl, rfl⟩)
  | capturePersistence step =>
    obtain ⟨save, found, _, _, rfl⟩ := capturePersistence_cases step
    exact saved_of_set found rfl rfl rfl rfl (Or.inr ⟨rfl, _, rfl, rfl⟩)
  | annotate _ _ found => exact saved_of_set found rfl rfl rfl rfl (Or.inl ⟨rfl, rfl⟩)
  | acquire _ step =>
    obtain ⟨save, _, _, _, ⟨_, _, _, _, rfl⟩ | ⟨_, _, _, _, rfl⟩⟩ := acquire_cases step <;>
      exact saved_of_same rfl rfl
  | dispatch _ _ _ _ step =>
    obtain ⟨save, found, rfl⟩ := dispatch_cases step
    exact saved_of_set found rfl rfl rfl rfl (Or.inl ⟨rfl, rfl⟩)
  | finish step =>
    obtain ⟨guard, _, _, rfl⟩ := finish_cases step
    exact saved_of_same rfl rfl
  | requireCleanup step =>
    obtain ⟨guard, _, rfl⟩ := requireCleanup_cases step
    exact saved_of_same rfl rfl
  | confirmRemoved step =>
    obtain ⟨guard, _, rfl⟩ := confirmRemoved_cases step
    exact saved_of_same rfl rfl
  | dropGuard index =>
    obtain ⟨heap, dropped⟩ := process.dropGuard_eq index
    rw [dropped]
    exact saved_of_same rfl rfl
  | dropSave index => exact process.saved_dropSave index
  | @abandon index _ =>
    obtain ⟨heap, abandoned⟩ := process.abandon_eq index
    rw [abandoned]
    exact saved_of_drop rfl rfl
  | complete guarded step =>
    obtain ⟨save, revision, _, _, _, rfl⟩ := complete_of_guard guarded step
    exact saved_of_drop rfl rfl
  | acknowledge step =>
    obtain ⟨save, revision, _, _, _, rfl⟩ := acknowledge_cases step
    exact saved_of_drop rfl rfl
  | requestDelete step =>
    obtain ⟨session, _, _, rfl⟩ := requestDelete_cases step
    exact saved_of_same rfl rfl
  | grantDelete step =>
    obtain ⟨deletion, _, _, _, ⟨_, _, _, rfl⟩ | ⟨_, _, _, _, rfl⟩⟩ := grantDelete_cases step <;>
      exact saved_of_same rfl rfl
  | dropDelete index =>
    obtain ⟨heap, dropped⟩ := process.dropDelete_eq index
    rw [dropped]
    exact saved_of_same rfl rfl
  | conceal _ => exact saved_of_same rfl rfl

/-- A save is captured with its revision, and its snapshot names the id of its source. -/
def Snapshots (process : Process) : Prop :=
  ∀ index save, process.saves index = some save → (save.snapshot = none ∧ save.revision = none) ∨
    ∃ snapshot, save.snapshot = some snapshot ∧ snapshot.id = save.source.id

theorem Saved.snapshots (saved : process.Saved after) (snapshots : process.Snapshots) :
    after.Snapshots := by
  intro index save found
  rcases saved.save index save found with ⟨_, none⟩ |
    ⟨older, earlier, source, _, ⟨same, revision⟩ | fresh⟩
  · exact Or.inl none
  · rw [same, revision, ← source]
    exact snapshots index older earlier
  · exact Or.inr ⟨_, fresh.1, rfl⟩

theorem Path.snapshots {allowed : Kind → Prop} (path : Path idOf allowed process after)
    (snapshots : process.Snapshots) : after.Snapshots :=
  path.invariant (fun _ earlier move => move.saved.snapshots earlier) snapshots

/-- A token that is still there is the token that was there. -/
structure Retains (before after : Process) : Prop where
  nextSave : before.nextSave ≤ after.nextSave
  save : ∀ index < before.nextSave, ∀ save, after.saves index = some save →
    ∃ older, before.saves index = some older ∧ older.source = save.source ∧
      older.origin = save.origin

theorem Retains.refl (process : Process) : process.Retains process :=
  ⟨le_rfl, fun _ _ save found => ⟨save, found, rfl, rfl⟩⟩

theorem Retains.trans (first : process.Retains middle) (second : middle.Retains after) :
    process.Retains after where
  nextSave := first.nextSave.trans second.nextSave
  save index old save found := by
    obtain ⟨between, later, source, origin⟩ :=
      second.save index (old.trans_le first.nextSave) save found
    obtain ⟨older, earlier, source', origin'⟩ := first.save index old between later
    exact ⟨older, earlier, source'.trans source, origin'.trans origin⟩

theorem Saved.retains (saved : process.Saved after) : process.Retains after where
  nextSave := saved.nextSave
  save index old save found := by
    rcases saved.save index save found with ⟨new, _⟩ | ⟨older, earlier, source, origin, _⟩
    · exact absurd old (Nat.not_lt_of_ge new)
    · exact ⟨older, earlier, source, origin⟩

theorem Path.retains {allowed : Kind → Prop} (path : Path idOf allowed process after) :
    process.Retains after :=
  path.related Retains.refl Retains.trans (fun _ _ _ => trivial) (fun _ _ move => move.saved.retains)
    (trivial : True)

/-- The revision of a save is one of its source's own cell. -/
def Tracked (process : Process) : Prop :=
  ∀ index save revision, process.saves index = some save → save.revision = some revision →
    revision.data = save.source.data

theorem tracked_initial : Tracked initial := by
  rintro _ _ _ found
  cases found

theorem Saved.tracked (saved : process.Saved after) (tracked : process.Tracked) :
    after.Tracked := by
  intro index save revision found captured
  rcases saved.save index save found with ⟨_, _, none⟩ |
    ⟨older, earlier, source, _, ⟨_, same⟩ | ⟨_, own, fresh, data⟩⟩
  · cases none.symm.trans captured
  · rw [← source]
    exact tracked index older revision earlier (same.symm.trans captured)
  · obtain rfl := Option.some.inj (fresh.symm.trans captured)
    exact data

end Process

end Saysion
