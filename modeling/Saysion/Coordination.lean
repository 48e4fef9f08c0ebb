/-
This file proves what the lifecycle mutex gives: at any moment at most one save
or deletion of a clone family holds it, and, unless somebody completes a save
without its guard, the marker stays where a guarded save found it until that
save completes.

`Evolves` is what a single move may do to the shared cells of a family: the
destroy and uncertainty flags are never reset, and the marker moves at most from
a rotation source to the id that was rotated to. `Climbs` is what is left of it
over a whole run.
-/

import Saysion.Exclusive
import Saysion.Moves

namespace Saysion

/-! ### What a move does to the shared cells -/

/-- A change of the heap that resets no flag of a family, and moves no marker. -/
structure Heap.Evolves (before after : Heap) : Prop where
  nextFamily : before.nextFamily ≤ after.nextFamily
  destroy : ∀ ref < before.nextFamily, (before.families ref).destroy = true →
    (after.families ref).destroy = true
  uncertain : ∀ ref < before.nextFamily, (before.families ref).uncertain = true →
    (after.families ref).uncertain = true
  marker : ∀ ref < before.nextFamily,
    (after.families ref).persistedId = (before.families ref).persistedId

namespace Heap

variable {before middle after : Heap}

theorem Evolves.refl (heap : Heap) : heap.Evolves heap :=
  ⟨le_rfl, fun _ _ flag => flag, fun _ _ flag => flag, fun _ _ => rfl⟩

theorem Evolves.trans (first : before.Evolves middle) (second : middle.Evolves after) :
    before.Evolves after where
  nextFamily := first.nextFamily.trans second.nextFamily
  destroy ref old flag :=
    second.destroy ref (old.trans_le first.nextFamily) (first.destroy ref old flag)
  uncertain ref old flag :=
    second.uncertain ref (old.trans_le first.nextFamily) (first.uncertain ref old flag)
  marker ref old :=
    (second.marker ref (old.trans_le first.nextFamily)).trans (first.marker ref old)

theorem evolves_setCell (heap : Heap) (ref : Ref) (data : SessionData) :
    heap.Evolves (heap.setCell ref data) :=
  ⟨le_rfl, fun _ _ flag => flag, fun _ _ flag => flag, fun _ _ => rfl⟩

theorem evolves_allocCell (heap : Heap) (data : SessionData) : heap.Evolves (heap.allocCell data) :=
  ⟨le_rfl, fun _ _ flag => flag, fun _ _ flag => flag, fun _ _ => rfl⟩

theorem evolves_allocFamily (heap : Heap) (family : Family) :
    heap.Evolves (heap.allocFamily family) where
  nextFamily := Nat.le_succ _
  destroy ref old flag := by rw [heap.allocFamily_of_lt family old, flag]
  uncertain ref old flag := by rw [heap.allocFamily_of_lt family old, flag]
  marker ref old := by rw [heap.allocFamily_of_lt family old]

theorem evolves_setFamily (heap : Heap) (ref : Ref) (family : Family)
    (destroy : (heap.families ref).destroy = true → family.destroy = true)
    (uncertain : (heap.families ref).uncertain = true → family.uncertain = true)
    (marker : family.persistedId = (heap.families ref).persistedId) :
    heap.Evolves (heap.setFamily ref family) where
  nextFamily := le_rfl
  destroy other _ flag := by
    by_cases same : other = ref
    · rw [same, setFamily_self]
      exact destroy (same ▸ flag)
    · rw [heap.setFamily_of_ne ref family same, flag]
  uncertain other _ flag := by
    by_cases same : other = ref
    · rw [same, setFamily_self]
      exact uncertain (same ▸ flag)
    · rw [heap.setFamily_of_ne ref family same, flag]
  marker other _ := by
    by_cases same : other = ref
    · rw [same, setFamily_self, marker]
    · rw [heap.setFamily_of_ne ref family same]

theorem persistedId_unlock (heap : Heap) (ref other : Ref) (uncertain : Bool) :
    ((heap.unlock ref uncertain).families other).persistedId =
      (heap.families other).persistedId := by
  by_cases same : other = ref
  · rw [same, unlock, setFamily_self]
  · rw [unlock, heap.setFamily_of_ne ref _ same]

theorem evolves_lock (heap : Heap) (ref : Ref) : heap.Evolves (heap.lock ref) :=
  heap.evolves_setFamily ref _ id id rfl

theorem evolves_unlock (heap : Heap) (ref : Ref) (uncertain : Bool) :
    heap.Evolves (heap.unlock ref uncertain) :=
  heap.evolves_setFamily ref _ id (fun flag => by simp [flag]) rfl

end Heap

namespace Session

theorem evolves_destroy (heap : Heap) (session : Session) : heap.Evolves (session.destroy heap) :=
  heap.evolves_setFamily _ _ (fun _ => rfl) (fun flag => flag) rfl

theorem evolves_beginGuardedWrite {heap after : Heap} {session : Session} {origin : Option Id}
    {receipt : Option Nat} {canOutliveFuture : Bool} {result : Except Error WriteGuard}
    (outcome : session.beginGuardedWrite heap origin receipt canOutliveFuture = (result, after)) :
    heap.Evolves after := by
  cases result with
  | error error =>
    rcases beginGuardedWrite_error outcome with rfl | rfl
    · exact Heap.Evolves.refl _
    · exact (heap.evolves_lock _).trans (Heap.evolves_unlock _ _ _)
  | ok guard =>
    obtain ⟨_, _, _, _, rfl⟩ := beginGuardedWrite_ok outcome
    exact heap.evolves_lock _

end Session

namespace Process

variable {idOf : Cookie → Option Id} {process middle after : Process} {kind : Kind}

/-- What a move does to the shared cells of the allocated families. -/
structure Evolves (before after : Process) : Prop where
  grows : before.seen <+: after.seen
  nextFamily : before.heap.nextFamily ≤ after.heap.nextFamily
  destroy : ∀ ref < before.heap.nextFamily, (before.heap.families ref).destroy = true →
    (after.heap.families ref).destroy = true
  uncertain : ∀ ref < before.heap.nextFamily, (before.heap.families ref).uncertain = true →
    (after.heap.families ref).uncertain = true
  marker : ∀ ref < before.heap.nextFamily,
    (after.heap.families ref).persistedId = (before.heap.families ref).persistedId ∨
      (¬ before.Refers ref ∧ (before.heap.families ref).persistedId = none) ∨
      ∃ index save, before.saves index = some save ∧ save.source.family = ref ∧
        ((before.heap.families ref).persistedId = none ∨
          save.source.rotationFrom = (before.heap.families ref).persistedId) ∧
        (after.heap.families ref).persistedId = some save.source.id

/-- A move that only changes the heap, without moving a marker. -/
theorem evolves_of_heap (grows : process.seen <+: after.seen)
    (heap : process.heap.Evolves after.heap) : process.Evolves after where
  grows := grows
  nextFamily := heap.nextFamily
  destroy := heap.destroy
  uncertain := heap.uncertain
  marker ref old := Or.inl (heap.marker ref old)

theorem Evolves.then_heap (first : process.Evolves middle) (grows : middle.seen <+: after.seen)
    (second : middle.heap.Evolves after.heap) : process.Evolves after where
  grows := first.grows.trans grows
  nextFamily := first.nextFamily.trans second.nextFamily
  destroy ref old flag :=
    second.destroy ref (old.trans_le first.nextFamily) (first.destroy ref old flag)
  uncertain ref old flag :=
    second.uncertain ref (old.trans_le first.nextFamily) (first.uncertain ref old flag)
  marker ref old := by
    rw [second.marker ref (old.trans_le first.nextFamily)]
    exact first.marker ref old

theorem evolves_dropGuard (process : Process) (index : Nat) :
    process.heap.Evolves (process.dropGuard index).heap := by
  unfold dropGuard
  split
  · exact Heap.Evolves.refl _
  · exact Heap.evolves_unlock _ _ _

theorem evolves_dropSave (process : Process) (index : Nat) :
    process.heap.Evolves (process.dropSave index).heap := by
  unfold dropSave
  split
  · exact Heap.Evolves.refl _
  · dsimp only
    split
    · exact Heap.Evolves.refl _
    · exact Heap.evolves_setCell _ _ _

theorem seen_dropGuard (process : Process) (index : Nat) :
    (process.dropGuard index).seen = process.seen := by
  obtain ⟨heap, dropped⟩ := process.dropGuard_eq index
  rw [dropped]
  rfl

theorem seen_dropSave (process : Process) (index : Nat) :
    (process.dropSave index).seen = process.seen := by
  obtain ⟨heap, dropped⟩ := process.dropSave_eq index
  rw [dropped]
  rfl

theorem evolves_acknowledge {index : Nat} {cookie : Option Cookie}
    (step : process.acknowledge index = some (cookie, after)) : process.Evolves after := by
  obtain ⟨save, revision, found, _, _, rfl⟩ := acknowledge_cases step
  by_cases moves : save.source.persistedId process.heap = none ∨
      save.source.rotationFrom = save.source.persistedId process.heap
  · have marked := Session.markPersisted_of_moves moves
    refine ⟨List.prefix_rfl, ?_, fun ref _ flag => ?_, fun ref _ flag => ?_, fun ref _ => ?_⟩
    · rw [marked]
      exact le_rfl
    all_goals
      show _
      simp only [SaveRevision.acknowledge, Heap.setCell_families, marked]
      by_cases same : ref = save.source.family
    · rw [same] at flag ⊢
      rw [Heap.setFamily_self]
      exact flag
    · rw [Heap.setFamily_of_ne _ _ _ same]
      exact flag
    · rw [same] at flag ⊢
      rw [Heap.setFamily_self]
      exact flag
    · rw [Heap.setFamily_of_ne _ _ _ same]
      exact flag
    · rw [same, Heap.setFamily_self]
      exact Or.inr (Or.inr ⟨index, save, found, rfl, moves, rfl⟩)
    · rw [Heap.setFamily_of_ne _ _ _ same]
      exact Or.inl rfl
  · refine evolves_of_heap List.prefix_rfl ?_
    show process.heap.Evolves (revision.acknowledge (save.source.markPersisted process.heap))
    rw [Session.markPersisted_of_stale moves]
    exact Heap.evolves_setCell _ _ _

theorem heap_evolves_handleStep {action : HandleAction} {reply : Reply}
    (step : process.handleStep idOf action = some (reply, after)) :
    process.seen <+: after.seen ∧ process.heap.Evolves after.heap := by
  rcases handleStep_cases step with
    ⟨cookie, id, _, _, _, rfl⟩ | ⟨index, session, _, _, _, rfl⟩ |
    ⟨index, cookie, session, id, _, _, _, _, rfl⟩ |
    ⟨index, session, renewed, cell, _, _, _, rfl⟩ | ⟨index, session, _, _, _, rfl⟩ |
    ⟨index, session, _, _, _, rfl⟩
  · exact ⟨prefix_enter _ _,
      (process.heap.evolves_allocFamily _).trans (Heap.evolves_allocCell _ _)⟩
  · exact ⟨List.prefix_rfl, Heap.Evolves.refl _⟩
  · exact ⟨prefix_enter _ _, Heap.Evolves.refl _⟩
  · exact ⟨List.prefix_rfl, Heap.evolves_setCell _ _ _⟩
  · exact ⟨List.prefix_rfl, Session.evolves_destroy _ _⟩
  · exact ⟨List.prefix_rfl, Heap.Evolves.refl _⟩

theorem Adopts.evolves {session : Session} {heap : Heap} (adopts : process.Adopts session heap) :
    process.heap.Evolves heap where
  nextFamily := adopts.nextFamily.trans adopts.family.le
  destroy ref old flag := by rw [adopts.families ref old, flag]
  uncertain ref old flag := by rw [adopts.families ref old, flag]
  marker ref old := by rw [adopts.families ref old]

theorem Hidden.evolves {heap : Heap} (hidden : process.Hidden heap) :
    process.Evolves { process with heap } where
  grows := List.prefix_rfl
  nextFamily := hidden.nextFamily
  destroy ref old flag := by
    show (heap.families ref).destroy = true
    rcases hidden.families ref old with same | ⟨_, _, _, marked⟩
    · rw [same, flag]
    · rw [marked, flag]
  uncertain ref old flag := by
    show (heap.families ref).uncertain = true
    rcases hidden.families ref old with same | ⟨_, _, _, marked⟩
    · rw [same, flag]
    · rw [marked, flag]
  marker ref old := by
    rcases hidden.families ref old with same | ⟨unseen, unset, _⟩
    · exact Or.inl (congrArg Family.persistedId same)
    · exact Or.inr (Or.inl ⟨unseen, unset⟩)

/-- A move that neither completes a save nor writes to hidden cells moves no marker. -/
theorem Moves.heap_evolves (move : Moves idOf process kind after) (incomplete : kind ≠ .completion)
    (guarded : kind ≠ .unguarded) (visible : kind ≠ .store) :
    process.seen <+: after.seen ∧ process.heap.Evolves after.heap := by
  cases move with
  | handle step => exact heap_evolves_handleStep step
  | adopt fetches _ => exact ⟨prefix_enter _ _, fetches.toAdopts.evolves⟩
  | trust adopts => exact ⟨prefix_enter _ _, adopts.evolves⟩
  | deserialize wire =>
    exact ⟨List.prefix_rfl,
      (process.heap.evolves_allocFamily _).trans (Heap.evolves_allocCell _ _)⟩
  | attempt step =>
    obtain ⟨session, _, ⟨error, _, _, rfl⟩ | ⟨origin, heap, granted, _, rfl⟩⟩ := attempt_cases step
    · exact ⟨List.prefix_rfl, Heap.Evolves.refl _⟩
    · refine ⟨List.prefix_rfl, ?_⟩
      obtain ⟨_, _, changed⟩ := Session.persistenceAttempt_ok granted
      show process.heap.Evolves heap
      rw [changed]
      split
      · exact process.heap.evolves_setFamily _ _ id id rfl
      · exact Heap.Evolves.refl _
  | captureImmutable step =>
    obtain ⟨save, _, _, rfl⟩ := captureImmutable_cases step
    exact ⟨List.prefix_rfl, Heap.evolves_setCell _ _ _⟩
  | capturePersistence step =>
    obtain ⟨save, _, _, _, rfl⟩ := capturePersistence_cases step
    exact ⟨List.prefix_rfl, ((process.heap.evolves_allocFamily _).trans
      (Heap.evolves_allocCell _ _)).trans (Heap.evolves_setCell _ _ _)⟩
  | annotate _ _ _ => exact ⟨List.prefix_rfl, Heap.Evolves.refl _⟩
  | acquire own step =>
    obtain ⟨save, _, _, _, outcome⟩ := acquire_cases step
    rcases outcome with ⟨_, heap, refused, _, rfl⟩ | ⟨_, heap, granted, _, rfl⟩
    · exact ⟨List.prefix_rfl, Session.evolves_beginGuardedWrite refused⟩
    · exact ⟨List.prefix_rfl, Session.evolves_beginGuardedWrite granted⟩
  | dispatch _ _ _ _ step =>
    obtain ⟨save, _, rfl⟩ := dispatch_cases step
    exact ⟨List.prefix_rfl, Heap.Evolves.refl _⟩
  | finish step =>
    obtain ⟨guard, _, _, rfl⟩ := finish_cases step
    exact ⟨List.prefix_rfl, Heap.Evolves.refl _⟩
  | requireCleanup step =>
    obtain ⟨guard, _, rfl⟩ := requireCleanup_cases step
    exact ⟨List.prefix_rfl, Heap.Evolves.refl _⟩
  | confirmRemoved step =>
    obtain ⟨guard, _, rfl⟩ := confirmRemoved_cases step
    exact ⟨List.prefix_rfl, Heap.Evolves.refl _⟩
  | dropGuard _ =>
    exact ⟨process.seen_dropGuard _ ▸ List.prefix_rfl, process.evolves_dropGuard _⟩
  | dropSave _ =>
    exact ⟨process.seen_dropSave _ ▸ List.prefix_rfl, process.evolves_dropSave _⟩
  | abandon _ =>
    refine ⟨?_, (process.evolves_dropGuard _).trans (evolves_dropSave _ _)⟩
    rw [Process.abandon, seen_dropSave, seen_dropGuard]
  | complete _ _ => exact absurd rfl incomplete
  | acknowledge _ => exact absurd rfl guarded
  | requestDelete step =>
    obtain ⟨session, _, _, rfl⟩ := requestDelete_cases step
    exact ⟨List.prefix_rfl, Session.evolves_destroy _ _⟩
  | grantDelete step =>
    obtain ⟨deletion, _, _, _, outcome⟩ := grantDelete_cases step
    rcases outcome with ⟨_, _, _, rfl⟩ | ⟨_, heap, granted, _, rfl⟩
    · exact ⟨List.prefix_rfl, Heap.Evolves.refl _⟩
    · obtain ⟨_, rfl, _⟩ := Session.beginDelete_ok granted
      exact ⟨List.prefix_rfl, Heap.evolves_lock _ _⟩
  | dropDelete index =>
    unfold Process.dropDelete
    split
    · exact ⟨List.prefix_rfl, Heap.Evolves.refl _⟩
    · refine ⟨List.prefix_rfl, ?_⟩
      dsimp only
      split
      · exact Heap.Evolves.refl _
      · exact Heap.evolves_unlock _ _ _
  | conceal _ => exact absurd rfl visible

/-- Every move evolves the process. -/
theorem Moves.evolves (move : Moves idOf process kind after) : process.Evolves after := by
  by_cases completes : kind = .completion
  · subst completes
    cases move with
    | complete _ step =>
      obtain ⟨middle, acknowledged, rfl⟩ := complete_cases step
      exact (evolves_acknowledge acknowledged).then_heap
        (middle.seen_dropGuard _ ▸ List.prefix_rfl) (middle.evolves_dropGuard _)
  by_cases unguarded : kind = .unguarded
  · subst unguarded
    cases move with
    | acknowledge step => exact evolves_acknowledge step
  by_cases hidden : kind = .store
  · subst hidden
    cases move with
    | conceal hidden => exact hidden.evolves
  obtain ⟨grows, heap⟩ := move.heap_evolves completes unguarded hidden
  exact evolves_of_heap grows heap

/-! ### Markers over a run -/

/-- Two moments of a run: flags that were set are set, and a marker that was set is the same or
has moved to a younger id. -/
structure Climbs (before after : Process) : Prop where
  grows : before.seen <+: after.seen
  nextFamily : before.heap.nextFamily ≤ after.heap.nextFamily
  destroy : ∀ ref < before.heap.nextFamily, (before.heap.families ref).destroy = true →
    (after.heap.families ref).destroy = true
  uncertain : ∀ ref < before.heap.nextFamily, (before.heap.families ref).uncertain = true →
    (after.heap.families ref).uncertain = true
  marker : ∀ ref < before.heap.nextFamily, ∀ old,
    (before.heap.families ref).persistedId = some old →
      ∃ new, (after.heap.families ref).persistedId = some new ∧
        (new = old ∨ old ∈ after.seen ∧ new ∈ after.seen ∧
          rank after.seen old < rank after.seen new)

theorem Climbs.refl (process : Process) : process.Climbs process :=
  ⟨List.prefix_rfl, le_rfl, fun _ _ flag => flag, fun _ _ flag => flag,
    fun _ _ old current => ⟨old, current, Or.inl rfl⟩⟩

theorem Climbs.trans (first : process.Climbs middle) (second : middle.Climbs after) :
    process.Climbs after where
  grows := first.grows.trans second.grows
  nextFamily := first.nextFamily.trans second.nextFamily
  destroy ref old flag :=
    second.destroy ref (old.trans_le first.nextFamily) (first.destroy ref old flag)
  uncertain ref old flag :=
    second.uncertain ref (old.trans_le first.nextFamily) (first.uncertain ref old flag)
  marker ref allocated old current := by
    obtain ⟨between, then_, first_le⟩ := first.marker ref allocated old current
    obtain ⟨new, finally_, second_le⟩ :=
      second.marker ref (allocated.trans_le first.nextFamily) between then_
    refine ⟨new, finally_, ?_⟩
    rcases first_le with rfl | ⟨oldSeen, betweenSeen, below⟩
    · exact second_le
    · have below' : rank after.seen old < rank after.seen between := by
        rw [rank_eq_of_grown second.grows oldSeen, rank_eq_of_grown second.grows betweenSeen]
        exact below
      rcases second_le with rfl | ⟨_, newSeen, above⟩
      · exact Or.inr ⟨second.grows.subset oldSeen, second.grows.subset betweenSeen, below'⟩
      · exact Or.inr ⟨second.grows.subset oldSeen, newSeen, below'.trans above⟩

theorem Moves.climbs (move : Moves idOf process kind after) (authority : Authority process) :
    process.Climbs after where
  grows := move.evolves.grows
  nextFamily := move.evolves.nextFamily
  destroy := move.evolves.destroy
  uncertain := move.evolves.uncertain
  marker ref allocated old current := by
    have grows := move.evolves.grows
    rcases move.evolves.marker ref allocated with same | ⟨_, unset⟩ |
      ⟨index, save, found, rfl, from_, moved⟩
    · exact ⟨old, same.trans current, Or.inl rfl⟩
    · cases unset.symm.trans current
    · have rotates : save.source.rotationFrom = some old := by
        rcases from_ with unset | rotates
        · cases unset.symm.trans current
        · exact rotates.trans current
      have member : process.Live save.source := .save found
      obtain ⟨oldSeen, below, _⟩ :=
        authority.rotation_lt save.source member old rotates
      have idSeen : save.source.id ∈ process.seen := by
        refine authority.idSeen save.source member (Or.inr fun unset => ?_)
        cases unset.symm.trans current
      refine ⟨save.source.id, moved, Or.inr ⟨grows.subset oldSeen, grows.subset idSeen, ?_⟩⟩
      rw [rank_eq_of_grown grows oldSeen, rank_eq_of_grown grows idSeen]
      exact below

theorem Path.climbs {allowed : Kind → Prop} (path : Path idOf allowed process after)
    (authority : Authority process) : process.Climbs after :=
  path.related Climbs.refl Climbs.trans (fun _ earlier move => Authority.moves earlier move)
    (fun _ earlier move => move.climbs earlier) authority

/-- A marker that was left is never set again. -/
theorem Climbs.never_returns {ref : Ref} {old : Id} (first : process.Climbs middle)
    (second : middle.Climbs after) (allocated : ref < process.heap.nextFamily)
    (current : (process.heap.families ref).persistedId = some old)
    (left : (middle.heap.families ref).persistedId ≠ some old) :
    (after.heap.families ref).persistedId ≠ some old := by
  obtain ⟨between, then_, first_le⟩ := first.marker ref allocated old current
  obtain ⟨new, finally_, second_le⟩ :=
    second.marker ref (allocated.trans_le first.nextFamily) between then_
  intro returned
  obtain rfl : new = old := Option.some.inj (finally_.symm.trans returned)
  rcases first_le with rfl | ⟨oldSeen, betweenSeen, below⟩
  · exact left then_
  · rcases second_le with rfl | ⟨_, _, above⟩
    · exact left then_
    · rw [rank_eq_of_grown second.grows oldSeen, rank_eq_of_grown second.grows betweenSeen] at above
      exact absurd (below.trans above) (lt_irrefl _)

/-! ### The mutex -/

/-- The families whose mutex is taken. -/
def Taken (process : Process) (family : Ref) : Prop := (process.heap.families family).locked = true

/-- Who holds the mutex of a family: the guard of a save, or a granted deletion. -/
def Holds (process : Process) (family : Ref) : Nat ⊕ Nat → Prop
  | .inl index => ∃ guard, process.guards index = some guard ∧ guard.family = family
  | .inr index => ∃ deletion, process.deletions index = some deletion ∧
      deletion.target ≠ none ∧ deletion.session.family = family

end Process

/-- The invariant of the mutexes and of the tables that hold them. -/
structure Locking (process : Process) : Prop where
  exclusive : Exclusive process.Taken process.Holds
  allocated : ∀ family holder, process.Holds family holder → family < process.heap.nextFamily
  own : ∀ index guard save, process.guards index = some guard →
    process.saves index = some save → guard.family = save.source.family
  receipt : ∀ index guard save, process.guards index = some guard →
    guard.receipt = some save → save = index
  unusedSave : ∀ index, process.nextSave ≤ index →
    process.saves index = none ∧ process.guards index = none
  unusedDeletion : ∀ index, process.nextDeletion ≤ index → process.deletions index = none

theorem locking_initial : Locking Process.initial where
  exclusive := by
    constructor
    · rintro _ (_ | _) ⟨_, wrong, _⟩ <;> cases wrong
    · rintro _ (_ | _) _ ⟨_, wrong, _⟩ <;> cases wrong
  allocated := by rintro _ (_ | _) ⟨_, wrong, _⟩ <;> cases wrong
  own := by rintro _ _ _ wrong; cases wrong
  receipt := by rintro _ _ _ wrong; cases wrong
  unusedSave _ _ := ⟨rfl, rfl⟩
  unusedDeletion _ _ := rfl

namespace Locking

variable {idOf : Cookie → Option Id} {process after : Process} {kind : Process.Kind} {index : Nat}

theorem used_of_save (locking : Locking process) {save : Save}
    (found : process.saves index = some save) : index < process.nextSave := by
  by_contra beyond
  cases (locking.unusedSave index (Nat.le_of_not_lt beyond)).1.symm.trans found

theorem used_of_deletion (locking : Locking process) {deletion : Deletion}
    (found : process.deletions index = some deletion) : index < process.nextDeletion := by
  by_contra beyond
  cases (locking.unusedDeletion index (Nat.le_of_not_lt beyond)).symm.trans found

/-- Nothing is acquired: what is held was held, and by the same family. -/
theorem still (locking : Locking process)
    (nextFamily : process.heap.nextFamily ≤ after.heap.nextFamily)
    (locked : ∀ family < process.heap.nextFamily, process.Taken family → after.Taken family)
    (guards : ∀ index guard, after.guards index = some guard →
      ∃ older, process.guards index = some older ∧ older.family = guard.family ∧
        older.receipt = guard.receipt)
    (saves : ∀ index save, after.saves index = some save →
      ∃ older, process.saves index = some older ∧ older.source = save.source)
    (deletions : ∀ index deletion, after.deletions index = some deletion → deletion.target ≠ none →
      process.deletions index = some deletion)
    (nextSave : process.nextSave ≤ after.nextSave)
    (unused : ∀ index, after.nextDeletion ≤ index → after.deletions index = none) :
    Locking after := by
  have fewer : ∀ family holder, after.Holds family holder → process.Holds family holder := by
    rintro family (index | index) held
    · obtain ⟨guard, found, same⟩ := held
      obtain ⟨older, earlier, alike, _⟩ := guards index guard found
      exact ⟨older, earlier, alike.trans same⟩
    · obtain ⟨deletion, found, granted, same⟩ := held
      exact ⟨deletion, deletions index deletion found granted, granted, same⟩
  refine ⟨?_, ?_, ?_, ?_, ?_, unused⟩
  · exact locking.exclusive.weaken fewer fun family holder held =>
      locked family (locking.allocated family holder (fewer family holder held))
  · intro family holder held
    exact (locking.allocated family holder (fewer family holder held)).trans_le nextFamily
  · intro index guard save guardFound saveFound
    obtain ⟨olderGuard, earlierGuard, sameFamily, _⟩ := guards index guard guardFound
    obtain ⟨olderSave, earlierSave, sameSource⟩ := saves index save saveFound
    rw [← sameFamily, ← sameSource]
    exact locking.own index olderGuard olderSave earlierGuard earlierSave
  · intro index guard save found receipt
    obtain ⟨older, earlier, _, same⟩ := guards index guard found
    exact locking.receipt index older save earlier (same.trans receipt)
  · intro index unusedIndex
    obtain ⟨noSave, noGuard⟩ := locking.unusedSave index (nextSave.trans unusedIndex)
    constructor
    · by_contra some
      obtain ⟨save, found⟩ := Option.ne_none_iff_exists'.mp some
      obtain ⟨older, earlier, _⟩ := saves index save found
      cases noSave.symm.trans earlier
    · by_contra some
      obtain ⟨guard, found⟩ := Option.ne_none_iff_exists'.mp some
      obtain ⟨older, earlier, _⟩ := guards index guard found
      cases noGuard.symm.trans earlier

/-- A move of the heap alone that releases no mutex. -/
theorem heap (locking : Locking process) {heap : Heap}
    (nextFamily : process.heap.nextFamily ≤ heap.nextFamily)
    (locked : ∀ family < process.heap.nextFamily, (process.heap.families family).locked = true →
      (heap.families family).locked = true) : Locking { process with heap } :=
  locking.still nextFamily locked (fun _ guard found => ⟨guard, found, rfl, rfl⟩)
    (fun _ save found => ⟨save, found, rfl⟩) (fun _ _ found _ => found) le_rfl
    locking.unusedDeletion

/-- A save or guard entry is replaced, not added. -/
theorem tables (locking : Locking process) (same : after.heap = process.heap)
    (guards : ∀ index guard, after.guards index = some guard →
      ∃ older, process.guards index = some older ∧ older.family = guard.family ∧
        older.receipt = guard.receipt)
    (saves : ∀ index save, after.saves index = some save →
      ∃ older, process.saves index = some older ∧ older.source = save.source)
    (deletions : after.deletions = process.deletions) (nextSave : after.nextSave = process.nextSave)
    (nextDeletion : after.nextDeletion = process.nextDeletion) : Locking after :=
  locking.still (same ▸ le_rfl) (fun _ _ taken => by rw [Process.Taken, same]; exact taken) guards
    saves (fun _ _ found _ => deletions ▸ found) nextSave.ge
    (by rw [nextDeletion, deletions]; exact locking.unusedDeletion)

theorem locked_setFamily (heap : Heap) (ref : Ref) (family : Family)
    (locked : (heap.families ref).locked = true → family.locked = true) (other : Ref)
    (taken : (heap.families other).locked = true) :
    ((heap.setFamily ref family).families other).locked = true := by
  by_cases same : other = ref
  · rw [same, Heap.setFamily_self]
    exact locked (same ▸ taken)
  · rw [heap.setFamily_of_ne ref family same, taken]

theorem locked_destroy (heap : Heap) (session : Session) (other : Ref)
    (taken : (heap.families other).locked = true) :
    ((session.destroy heap).families other).locked = true :=
  locked_setFamily heap session.family { session.shared heap with destroy := true }
    (fun taken => taken) other taken

/-- Allocating the cells of a new session releases nothing. -/
theorem locked_alloc (heap : Heap) (family : Family) (data : SessionData) (other : Ref)
    (old : other < heap.nextFamily) (taken : (heap.families other).locked = true) :
    (((heap.allocFamily family).allocCell data).families other).locked = true := by
  rw [Heap.allocCell_families, heap.allocFamily_of_lt family old, taken]

/-- A free mutex is locked by one new holder. -/
theorem locks (locking : Locking process) {family : Ref} {holder : Nat ⊕ Nat}
    (free : (process.heap.families family).locked = false)
    (known : family < process.heap.nextFamily) (heap : after.heap = process.heap.lock family)
    (more : ∀ other new, after.Holds other new →
      process.Holds other new ∨ other = family ∧ new = holder) :
    Exclusive after.Taken after.Holds ∧
      ∀ other new, after.Holds other new → other < after.heap.nextFamily := by
  have notTaken : ¬ process.Taken family := fun taken => by cases free.symm.trans taken
  constructor
  · refine locking.exclusive.acquire notTaken ?_ (fun other _ taken => ?_) more
    · simp [Process.Taken, heap, Heap.lock]
    · rw [Process.Taken, heap]
      exact locked_setFamily process.heap _ _ (fun _ => rfl) other taken
  · intro other new held
    rw [heap]
    rcases more other new held with earlier | ⟨rfl, _⟩
    · exact locking.allocated other new earlier
    · exact known

/-- The holder of a mutex unlocks it. -/
theorem unlocks (locking : Locking process) {family : Ref} {holder : Nat ⊕ Nat} {uncertain : Bool}
    (held : process.Holds family holder) (heap : after.heap = process.heap.unlock family uncertain)
    (fewer : ∀ other old, after.Holds other old → process.Holds other old)
    (gone : ¬ after.Holds family holder) :
    Exclusive after.Taken after.Holds ∧
      ∀ other old, after.Holds other old → other < after.heap.nextFamily := by
  constructor
  · refine locking.exclusive.release held (fun other different taken => ?_) fewer gone
    rw [Process.Taken, heap, Heap.unlock, Heap.setFamily_of_ne _ _ _ different]
    exact taken
  · intro other old still
    rw [heap]
    exact locking.allocated other old (fewer other old still)

theorem replaced {table : Nat → Option Save} {save : Save} (found : table index = some save)
    (newer : Option Save) (source : ∀ save', newer = some save' → save'.source = save.source)
    (key : Nat) (result : Save) (lookup : Function.update table index newer key = some result) :
    ∃ older, table key = some older ∧ older.source = result.source := by
  rcases update_eq_some lookup with ⟨rfl, same⟩ | ⟨_, earlier⟩
  · exact ⟨save, found, (source result same).symm⟩
  · exact ⟨result, earlier, rfl⟩

theorem setSave (locking : Locking process) {save : Save} (found : process.saves index = some save)
    (newer : Option Save) (source : ∀ save', newer = some save' → save'.source = save.source) :
    Locking (process.setSave index newer) :=
  locking.tables rfl (fun _ guard found => ⟨guard, found, rfl, rfl⟩) (replaced found newer source)
    rfl rfl rfl

theorem setGuard (locking : Locking process) {guard newer : WriteGuard}
    (found : process.guards index = some guard) (family : newer.family = guard.family)
    (receipt : newer.receipt = guard.receipt) :
    Locking (process.setGuard index (some newer)) := by
  refine locking.tables rfl (fun key other lookup => ?_) (fun _ save found => ⟨save, found, rfl⟩)
    rfl rfl rfl
  rcases update_eq_some lookup with ⟨rfl, same⟩ | ⟨_, earlier⟩
  · obtain rfl := Option.some.inj same
    exact ⟨guard, found, family.symm, receipt.symm⟩
  · exact ⟨other, earlier, rfl, rfl⟩

theorem dropSave (locking : Locking process) (index : Nat) : Locking (process.dropSave index) := by
  unfold Process.dropSave
  split
  · exact locking
  · rename_i save found
    refine (locking.setSave found none fun _ wrong => by cases wrong).heap ?_ fun _ _ taken => ?_
    · split <;> exact le_rfl
    · split <;> exact taken

/-- Dropping a guard releases the mutex of its family. -/
theorem dropGuard (locking : Locking process) (index : Nat) :
    Locking (process.dropGuard index) := by
  unfold Process.dropGuard
  split
  · exact locking
  rename_i guard found
  have held : process.Holds guard.family (.inl index) := ⟨guard, found, rfl⟩
  have fewer : ∀ family holder,
      ({ process.setGuard index none with heap := guard.drop process.heap } : Process).Holds
        family holder → process.Holds family holder := by
    rintro family (key | key) ⟨entry, lookup, rest⟩
    · rcases update_eq_some lookup with ⟨_, wrong⟩ | ⟨_, earlier⟩
      · cases wrong
      · exact ⟨entry, earlier, rest⟩
    · exact ⟨entry, lookup, rest⟩
  obtain ⟨exclusive, allocated⟩ := locking.unlocks held rfl fewer (by
    rintro ⟨entry, lookup, _⟩
    rcases update_eq_some lookup with ⟨_, wrong⟩ | ⟨different, _⟩
    · cases wrong
    · exact different rfl)
  refine ⟨exclusive, allocated, ?_, ?_, ?_, locking.unusedDeletion⟩
  · intro key other save lookup saveFound
    rcases update_eq_some lookup with ⟨_, wrong⟩ | ⟨_, earlier⟩
    · cases wrong
    · exact locking.own key other save earlier saveFound
  · intro key other save lookup receipt
    rcases update_eq_some lookup with ⟨_, wrong⟩ | ⟨_, earlier⟩
    · cases wrong
    · exact locking.receipt key other save earlier receipt
  · intro key unused
    obtain ⟨noSave, noGuard⟩ := locking.unusedSave key unused
    exact ⟨noSave, update_none_eq_none index noGuard⟩

/-- Acquiring takes a free mutex, or leaves every mutex as it was. -/
theorem acquire (locking : Locking process) (authority : Authority process)
    {receipt : Option Nat} {canOutliveFuture : Bool}
    {result : Except Error Unit} (own : receipt = none ∨ receipt = some index)
    (step : process.acquire index receipt canOutliveFuture = some (result, after)) :
    Locking after := by
  obtain ⟨save, found, unguarded, free, outcome⟩ := Process.acquire_cases step
  rcases outcome with ⟨error, heap, refused, _, rfl⟩ | ⟨guard, heap, granted, _, rfl⟩
  · rcases Session.beginGuardedWrite_error refused with rfl | rfl
    · exact locking
    · refine locking.heap le_rfl fun family _ taken => ?_
      have different : family ≠ save.source.family := by
        rintro rfl
        cases free.symm.trans taken
      rw [Heap.unlock, Heap.setFamily_of_ne _ _ _ different, Heap.lock,
        Heap.setFamily_of_ne _ _ _ different]
      exact taken
  · obtain ⟨_, _, _, rfl, rfl⟩ := Session.beginGuardedWrite_ok granted
    have more : ∀ other new, ({ process.setGuard index (some
        { family := save.source.family, receipt, uncertainOnDrop :=
          save.origin ≠ some save.source.id && canOutliveFuture }) with
        heap := process.heap.lock save.source.family } : Process).Holds other new →
          process.Holds other new ∨ other = save.source.family ∧ new = .inl index := by
      rintro other (key | key) ⟨entry, lookup, rest⟩
      · rcases update_eq_some lookup with ⟨rfl, same⟩ | ⟨_, earlier⟩
        · obtain rfl := Option.some.inj same
          exact Or.inr ⟨rest.symm, rfl⟩
        · exact Or.inl ⟨entry, earlier, rest⟩
      · exact Or.inl ⟨entry, lookup, rest⟩
    obtain ⟨exclusive, allocated⟩ :=
      locking.locks free (authority.allocated _ (.save found)).1 rfl more
    refine ⟨exclusive, allocated, ?_, ?_, ?_, locking.unusedDeletion⟩
    · intro key other otherSave lookup saveFound
      rcases update_eq_some lookup with ⟨rfl, same⟩ | ⟨_, earlier⟩
      · obtain rfl := Option.some.inj same
        obtain rfl := Option.some.inj (found.symm.trans saveFound)
        rfl
      · exact locking.own key other otherSave earlier saveFound
    · intro key other named lookup names
      rcases update_eq_some lookup with ⟨rfl, same⟩ | ⟨_, earlier⟩
      · obtain rfl := Option.some.inj same
        rcases own with none | some
        · cases none.symm.trans names
        · exact Option.some.inj (names.symm.trans some)
      · exact locking.receipt key other named earlier names
    · intro key unused
      obtain ⟨noSave, noGuard⟩ := locking.unusedSave key unused
      refine ⟨noSave, ?_⟩
      have different : key ≠ index := by
        rintro rfl
        cases noSave.symm.trans found
      exact (Function.update_of_ne different _ _).trans noGuard

theorem grantDelete (locking : Locking process) (authority : Authority process) {reply : Reply}
    (step : process.grantDelete index = some (reply, after)) : Locking after := by
  obtain ⟨deletion, found, waiting, free, outcome⟩ := Process.grantDelete_cases step
  rcases outcome with ⟨error, _, _, rfl⟩ | ⟨target, heap, granted, _, rfl⟩
  · refine locking.still le_rfl (fun _ _ taken => taken) (fun _ guard found => ⟨guard, found, rfl, rfl⟩)
      (fun _ save found => ⟨save, found, rfl⟩) (fun key other lookup _ => ?_) le_rfl
      fun key unused => ?_
    · rcases update_eq_some lookup with ⟨_, wrong⟩ | ⟨_, earlier⟩
      · cases wrong
      · exact earlier
    · exact update_none_eq_none index (locking.unusedDeletion key unused)
  · obtain ⟨_, rfl, _⟩ := Session.beginDelete_ok granted
    have more : ∀ other new, ({ process.setDeletion index
        (some { deletion with target := some target }) with
        heap := process.heap.lock deletion.session.family } : Process).Holds other new →
          process.Holds other new ∨ other = deletion.session.family ∧ new = .inr index := by
      rintro other (key | key) ⟨entry, lookup, rest⟩
      · exact Or.inl ⟨entry, lookup, rest⟩
      · rcases update_eq_some lookup with ⟨rfl, same⟩ | ⟨_, earlier⟩
        · obtain rfl := Option.some.inj same
          exact Or.inr ⟨rest.2.symm, rfl⟩
        · exact Or.inl ⟨entry, earlier, rest⟩
    obtain ⟨exclusive, allocated⟩ :=
      locking.locks free (authority.allocated _ (.deletion found)).1 rfl more
    refine ⟨exclusive, allocated, locking.own, locking.receipt, locking.unusedSave,
      fun key unused => ?_⟩
    have different : key ≠ index := by
      rintro rfl
      cases (locking.unusedDeletion key unused).symm.trans found
    exact (Function.update_of_ne different _ _).trans (locking.unusedDeletion key unused)

theorem dropDelete (locking : Locking process) (index : Nat) :
    Locking (process.dropDelete index) := by
  unfold Process.dropDelete
  split
  · exact locking
  rename_i deletion found
  have unused : ∀ key, process.nextDeletion ≤ key →
      Function.update process.deletions index none key = none :=
    fun key unused => update_none_eq_none index (locking.unusedDeletion key unused)
  split
  · refine locking.still le_rfl (fun _ _ taken => taken) (fun _ guard found => ⟨guard, found, rfl, rfl⟩)
      (fun _ save found => ⟨save, found, rfl⟩) (fun key other lookup _ => ?_) le_rfl unused
    rcases update_eq_some lookup with ⟨_, wrong⟩ | ⟨_, earlier⟩
    · cases wrong
    · exact earlier
  · rename_i granted
    have held : process.Holds deletion.session.family (.inr index) :=
      ⟨deletion, found, granted, rfl⟩
    have fewer : ∀ family holder, ({ process.setDeletion index none with
        heap := process.heap.unlock deletion.session.family false } : Process).Holds family holder →
          process.Holds family holder := by
      rintro family (key | key) ⟨entry, lookup, rest⟩
      · exact ⟨entry, lookup, rest⟩
      · rcases update_eq_some lookup with ⟨_, wrong⟩ | ⟨_, earlier⟩
        · cases wrong
        · exact ⟨entry, earlier, rest⟩
    obtain ⟨exclusive, allocated⟩ := locking.unlocks held rfl fewer (by
      rintro ⟨entry, lookup, _⟩
      rcases update_eq_some lookup with ⟨_, wrong⟩ | ⟨different, _⟩
      · cases wrong
      · exact different rfl)
    exact ⟨exclusive, allocated, locking.own, locking.receipt, locking.unusedSave, unused⟩

theorem markPersisted (heap : Heap) (session : Session) (ref : Ref) :
    ((session.markPersisted heap).families ref).locked = (heap.families ref).locked := by
  by_cases moves : session.persistedId heap = none ∨
      session.rotationFrom = session.persistedId heap
  · rw [Session.markPersisted_of_moves moves]
    by_cases same : ref = session.family
    · rw [same, Heap.setFamily_self]
      rfl
    · rw [Heap.setFamily_of_ne _ _ _ same]
  · rw [Session.markPersisted_of_stale moves]

theorem acknowledge (locking : Locking process) {cookie : Option Cookie}
    (step : process.acknowledge index = some (cookie, after)) : Locking after := by
  obtain ⟨save, revision, found, _, _, rfl⟩ := Process.acknowledge_cases step
  refine (locking.setSave found none fun _ wrong => by cases wrong).heap le_rfl fun family _ taken => ?_
  show ((save.source.markPersisted process.heap).families family).locked = true
  rw [markPersisted]
  exact taken

theorem handleStep (locking : Locking process) {action : HandleAction} {reply : Reply}
    (step : process.handleStep idOf action = some (reply, after)) : Locking after := by
  have tables : ∀ {seen : List Id} {handles : Nat → Option Session} {nextHandle : Nat},
      Locking { process with seen, handles, nextHandle } :=
    fun {seen handles nextHandle} => locking.tables rfl (fun _ guard found => ⟨guard, found, rfl, rfl⟩)
      (fun _ save found => ⟨save, found, rfl⟩) rfl rfl rfl
  rcases Process.handleStep_cases step with
    ⟨cookie, id, _, _, _, rfl⟩ | ⟨index, session, _, _, _, rfl⟩ |
    ⟨index, cookie, session, id, _, _, _, _, rfl⟩ |
    ⟨index, session, renewed, cell, _, _, _, rfl⟩ | ⟨index, session, _, _, _, rfl⟩ |
    ⟨index, session, _, _, _, rfl⟩
  · exact tables.heap (Nat.le_succ _) (locked_alloc process.heap _ _)
  · exact tables
  · exact tables
  · exact tables.heap le_rfl fun _ _ taken => taken
  · exact locking.heap le_rfl fun _ _ => locked_destroy process.heap session _
  · exact tables

theorem adopt (locking : Locking process) {session : Session} {heap : Heap}
    (adopts : process.Adopts session heap) :
    Locking ((process.see session.id).addHandle session heap) := by
  refine locking.still (adopts.nextFamily.trans adopts.family.le) (fun family old taken => ?_)
    (fun _ guard found => ⟨guard, found, rfl, rfl⟩) (fun _ save found => ⟨save, found, rfl⟩)
    (fun _ _ found _ => found) le_rfl locking.unusedDeletion
  show (heap.families family).locked = true
  rw [adopts.families family old]
  exact taken

theorem attempt (locking : Locking process) {reply : Reply}
    (step : process.attempt index = some (reply, after)) : Locking after := by
  obtain ⟨session, _, ⟨error, _, _, rfl⟩ | ⟨origin, heap, granted, _, rfl⟩⟩ :=
    Process.attempt_cases step
  · exact locking.tables rfl (fun _ guard found => ⟨guard, found, rfl, rfl⟩)
      (fun _ save found => ⟨save, found, rfl⟩) rfl rfl rfl
  obtain ⟨_, _, changed⟩ := Session.persistenceAttempt_ok granted
  have nextFamily : heap.nextFamily = process.heap.nextFamily := by
    rw [changed]
    split <;> rfl
  have locked : ∀ family, (heap.families family).locked = (process.heap.families family).locked := by
    intro family
    rw [changed]
    split
    · by_cases same : family = session.family
      · rw [same, Session.editShared, Heap.setFamily_self]
        rfl
      · rw [Session.editShared, Heap.setFamily_of_ne _ _ _ same]
    · rfl
  have noGuard : process.guards process.nextSave = none := (locking.unusedSave _ le_rfl).2
  refine ⟨?_, ?_, ?_, locking.receipt, ?_, locking.unusedDeletion⟩
  · refine locking.exclusive.weaken (fun family holder held => ?_) fun family _ _ taken => ?_
    · rcases holder with key | key <;> exact held
    · exact (locked family).trans taken
  · intro family holder held
    show family < heap.nextFamily
    rw [nextFamily]
    exact locking.allocated family holder (by rcases holder with key | key <;> exact held)
  · intro key guard save guardFound saveFound
    rcases update_eq_some saveFound with ⟨rfl, _⟩ | ⟨_, earlier⟩
    · cases noGuard.symm.trans guardFound
    · exact locking.own key guard save guardFound earlier
  · intro key unused
    obtain ⟨noSave, noGuard⟩ := locking.unusedSave key ((Nat.le_succ _).trans unused)
    exact ⟨(Function.update_of_ne (Nat.ne_of_gt unused) _ _).trans noSave, noGuard⟩

theorem requestDelete (locking : Locking process) {reply : Reply}
    (step : process.requestDelete index = some (reply, after)) : Locking after := by
  obtain ⟨session, _, _, rfl⟩ := Process.requestDelete_cases step
  refine locking.still le_rfl
    (fun _ _ => locked_destroy process.heap session _)
    (fun _ guard found => ⟨guard, found, rfl, rfl⟩) (fun _ save found => ⟨save, found, rfl⟩)
    (fun key deletion lookup granted => ?_) le_rfl fun key unused => ?_
  · rcases update_eq_some lookup with ⟨_, same⟩ | ⟨_, earlier⟩
    · obtain rfl := Option.some.inj same
      exact absurd rfl granted
    · exact earlier
  · exact (Function.update_of_ne (Nat.ne_of_gt unused) _ _).trans
      (locking.unusedDeletion key ((Nat.le_succ _).trans unused))

theorem conceal (locking : Locking process) {heap : Heap} (hidden : process.Hidden heap) :
    Locking { process with heap } := by
  refine locking.heap hidden.nextFamily fun family old taken => ?_
  rcases hidden.families family old with same | ⟨_, _, _, marked⟩
  · rw [same, taken]
  · rw [marked, taken]

/-- Every move preserves the invariant of the mutexes. -/
theorem moves (locking : Locking process) (authority : Authority process)
    (move : Process.Moves idOf process kind after) : Locking after := by
  cases move with
  | handle step => exact locking.handleStep step
  | adopt fetches _ => exact locking.adopt fetches.toAdopts
  | trust adopts => exact locking.adopt adopts
  | deserialize wire =>
    exact (locking.tables rfl (fun _ guard found => ⟨guard, found, rfl, rfl⟩)
      (fun _ save found => ⟨save, found, rfl⟩) rfl rfl rfl : Locking { process with
        handles := Function.update process.handles process.nextHandle
          (some (Session.deserialize process.heap wire).1)
        nextHandle := process.nextHandle + 1 }).heap
      (Nat.le_succ _) (locked_alloc process.heap _ _)
  | attempt step => exact locking.attempt step
  | captureImmutable step =>
    obtain ⟨save, found, _, rfl⟩ := Process.captureImmutable_cases step
    exact (locking.setSave found _ fun _ same => by cases same; rfl).heap le_rfl
      fun _ _ taken => taken
  | capturePersistence step =>
    obtain ⟨save, found, _, _, rfl⟩ := Process.capturePersistence_cases step
    exact (locking.setSave found _ fun _ same => by cases same; rfl).heap (Nat.le_succ _)
      (locked_alloc process.heap { destroy := save.source.isDestroyed process.heap }
        (.ofValues (save.source.sessionData process.heap).values))
  | annotate _ _ found => exact locking.setSave found _ fun _ same => by cases same; rfl
  | acquire own step => exact locking.acquire authority own step
  | dispatch found _ _ _ step =>
    obtain ⟨save, found, rfl⟩ := Process.dispatch_cases step
    exact (locking.setSave found _ fun _ same => by cases same; rfl).tables rfl
      (fun _ guard found => ⟨guard, found, rfl, rfl⟩) (fun _ save found => ⟨save, found, rfl⟩) rfl rfl rfl
  | finish step =>
    obtain ⟨guard, found, _, rfl⟩ := Process.finish_cases step
    exact locking.setGuard found rfl rfl
  | requireCleanup step =>
    obtain ⟨guard, found, rfl⟩ := Process.requireCleanup_cases step
    exact locking.setGuard found rfl rfl
  | confirmRemoved step =>
    obtain ⟨guard, found, rfl⟩ := Process.confirmRemoved_cases step
    exact locking.setGuard found rfl rfl
  | dropGuard _ => exact locking.dropGuard _
  | dropSave _ => exact locking.dropSave _
  | abandon _ => exact (locking.dropGuard _).dropSave _
  | complete _ step =>
    obtain ⟨middle, acknowledged, rfl⟩ := Process.complete_cases step
    exact (locking.acknowledge acknowledged).dropGuard _
  | acknowledge step => exact locking.acknowledge step
  | requestDelete step => exact locking.requestDelete step
  | grantDelete step => exact locking.grantDelete authority step
  | dropDelete index => exact locking.dropDelete index
  | conceal hidden => exact locking.conceal hidden

end Locking

/-! ### What a guard protects -/

/-- A save that is confirmed while the marker is its origin leaves the marker at its id. -/
theorem Authority.marked {process : Process} {index : Nat} {save : Save}
    (authority : Authority process) (found : process.saves index = some save)
    (origin : save.source.persistedId process.heap = save.origin) :
    save.source.persistedId (save.source.markPersisted process.heap) = some save.source.id := by
  by_cases moves : save.source.persistedId process.heap = none ∨
      save.source.rotationFrom = save.source.persistedId process.heap
  · rw [Session.markPersisted_of_moves moves, Session.persistedId, Session.shared,
      Heap.setFamily_self]
  · rw [Session.markPersisted_of_stale moves]
    obtain ⟨source, same⟩ : ∃ source, save.origin = some source :=
      Option.ne_none_iff_exists'.mp fun unset => moves (Or.inl (origin.trans unset))
    rcases (authority.origin_le index save source found same).1 with rfl | rotates
    · exact origin.trans same
    · exact absurd (Or.inr (rotates.trans (origin.trans same).symm)) moves

/-- While a save holds its guard, the marker is the origin of the save. -/
def Agreement (process : Process) : Prop :=
  ∀ index guard save, process.guards index = some guard → process.saves index = some save →
    save.source.persistedId process.heap = save.origin

namespace Agreement

variable {idOf : Cookie → Option Id} {process after : Process} {kind : Process.Kind} {index : Nat}

theorem initial : Agreement Process.initial := by
  rintro _ _ _ wrong
  cases wrong

/-- No marker of a live session moves, and no guard is handed out. -/
theorem keep (agreement : Agreement process)
    (markers : ∀ session, process.Live session →
      session.persistedId after.heap = session.persistedId process.heap)
    (guards : ∀ index guard, after.guards index = some guard →
      ∃ older, process.guards index = some older)
    (saves : ∀ index save, after.saves index = some save → ∃ older,
      process.saves index = some older ∧ older.source = save.source ∧ older.origin = save.origin) :
    Agreement after := by
  intro index guard save guardFound saveFound
  obtain ⟨olderGuard, earlierGuard⟩ := guards index guard guardFound
  obtain ⟨olderSave, earlierSave, source, origin⟩ := saves index save saveFound
  rw [← source, ← origin, markers _ (.save earlierSave)]
  exact agreement index olderGuard olderSave earlierGuard earlierSave

theorem follow (agreement : Agreement process) (authority : Authority process)
    (follows : process.Follows after)
    (guards : ∀ index guard, after.guards index = some guard →
      ∃ older, process.guards index = some older) : Agreement after :=
  agreement.keep (fun session member =>
    follows.keeps.persistedId _ (authority.allocated session member).1) guards follows.saves

/-- Only the guard of one save changes, and it was there. -/
theorem guards_setGuard {guard newer : WriteGuard} (found : process.guards index = some guard)
    (key : Nat) (other : WriteGuard)
    (lookup : Function.update process.guards index (some newer) key = some other) :
    ∃ older, process.guards key = some older := by
  rcases update_eq_some lookup with ⟨rfl, _⟩ | ⟨_, earlier⟩
  · exact ⟨guard, found⟩
  · exact ⟨other, earlier⟩

theorem guards_dropGuard (process : Process) (index key : Nat) (guard : WriteGuard)
    (lookup : (process.dropGuard index).guards key = some guard) :
    key ≠ index ∧ process.guards key = some guard := by
  obtain ⟨heap, dropped⟩ := process.dropGuard_eq index
  rw [dropped] at lookup
  rcases update_eq_some lookup with ⟨_, wrong⟩ | ⟨different, earlier⟩
  · cases wrong
  · exact ⟨different, earlier⟩

theorem guards_dropSave (process : Process) (index : Nat) :
    (process.dropSave index).guards = process.guards := by
  obtain ⟨heap, dropped⟩ := process.dropSave_eq index
  rw [dropped]
  rfl

theorem guards_dropDelete (process : Process) (index : Nat) :
    (process.dropDelete index).guards = process.guards := by
  obtain ⟨heap, dropped⟩ := process.dropDelete_eq index
  rw [dropped]
  rfl

theorem handleStep (agreement : Agreement process) (authority : Authority process)
    {action : HandleAction} {reply : Reply}
    (step : process.handleStep idOf action = some (reply, after)) : Agreement after := by
  have still : ∀ {heap : Heap} {seen : List Id} {handles : Nat → Option Session} {nextHandle : Nat},
      process.heap.Keeps heap → Agreement { process with heap, seen, handles, nextHandle } :=
    fun keeps => agreement.keep (fun session member =>
      keeps.persistedId _ (authority.allocated session member).1)
      (fun _ guard found => ⟨guard, found⟩) fun _ save found => ⟨save, found, rfl, rfl⟩
  rcases Process.handleStep_cases step with
    ⟨cookie, id, _, _, _, rfl⟩ | ⟨index, session, _, _, _, rfl⟩ |
    ⟨index, cookie, session, id, _, _, _, _, rfl⟩ |
    ⟨index, session, renewed, cell, _, _, _, rfl⟩ | ⟨index, session, _, _, _, rfl⟩ |
    ⟨index, session, _, _, _, rfl⟩
  · exact still ((process.heap.keeps_allocFamily {}).trans (Heap.keeps_allocCell _ _))
  · exact still (Heap.Keeps.refl _)
  · exact still (Heap.Keeps.refl _)
  · exact still (Heap.keeps_setCell _ _ _)
  · exact still (Session.keeps_destroy _ _)
  · exact still (Heap.Keeps.refl _)

theorem attempt (agreement : Agreement process) (locking : Locking process) {reply : Reply}
    (step : process.attempt index = some (reply, after)) : Agreement after := by
  obtain ⟨session, _, ⟨error, _, _, rfl⟩ | ⟨origin, heap, granted, _, rfl⟩⟩ :=
    Process.attempt_cases step
  · exact agreement
  obtain ⟨_, _, changed⟩ := Session.persistenceAttempt_ok granted
  have persisted : ∀ other : Session,
      other.persistedId heap = other.persistedId process.heap := by
    intro other
    rw [changed]
    split
    · rw [Session.persistedId, Session.shared, Session.editShared]
      by_cases same : other.family = session.family
      · rw [same, Heap.setFamily_self]
        show (session.shared process.heap).persistedId = _
        rw [Session.persistedId, Session.shared, Session.shared, same]
      · rw [Heap.setFamily_of_ne _ _ _ same]
        rfl
    · rfl
  intro key guard save guardFound saveFound
  rcases update_eq_some saveFound with ⟨rfl, _⟩ | ⟨_, earlier⟩
  · cases (locking.unusedSave _ le_rfl).2.symm.trans guardFound
  · exact (persisted save.source).trans (agreement key guard save guardFound earlier)

/-- A granted write found the marker at its origin. -/
theorem acquire (agreement : Agreement process) (authority : Authority process)
    {receipt : Option Nat} {canOutliveFuture : Bool} {result : Except Error Unit}
    (step : process.acquire index receipt canOutliveFuture = some (result, after)) :
    Agreement after := by
  have follows := Process.follows_acquire step
  obtain ⟨save, found, _, _, outcome⟩ := Process.acquire_cases step
  have markers : ∀ session, process.Live session →
      session.persistedId after.heap = session.persistedId process.heap :=
    fun session member => follows.keeps.persistedId _ (authority.allocated session member).1
  rcases outcome with ⟨_, heap, refused, _, rfl⟩ | ⟨guard, heap, granted, _, rfl⟩
  · exact agreement.keep markers (fun _ guard found => ⟨guard, found⟩)
      fun _ save found => ⟨save, found, rfl, rfl⟩
  · intro key other otherSave guardFound saveFound
    refine (markers otherSave.source (.save saveFound)).trans ?_
    rcases update_eq_some guardFound with ⟨rfl, _⟩ | ⟨_, earlier⟩
    · obtain rfl := Option.some.inj (found.symm.trans saveFound)
      obtain ⟨_, _, recheck, _, _⟩ := Session.beginGuardedWrite_ok granted
      by_cases unsaved : save.origin = none
      · rw [unsaved]
        exact (authority.creating key save found unsaved).2.2
      · exact recheck unsaved
    · exact agreement key other otherSave earlier saveFound

/-- The completion of a guarded save moves the marker under the guard, which nobody else holds. -/
theorem complete (agreement : Agreement process) (locking : Locking process) {guard : WriteGuard}
    {cookie : Option Cookie} (guarded : process.guards index = some guard)
    (step : process.complete index = some (cookie, after)) : Agreement after := by
  obtain ⟨save, revision, found, _, _, rfl⟩ := Process.complete_of_guard guarded step
  have own : guard.family = save.source.family := locking.own index guard save guarded found
  intro key other otherSave guardFound saveFound
  rcases update_eq_some guardFound with ⟨_, wrong⟩ | ⟨different, earlierGuard⟩
  · cases wrong
  rcases update_eq_some saveFound with ⟨same, _⟩ | ⟨_, earlierSave⟩
  · exact absurd same different
  have apart : otherSave.source.family ≠ save.source.family := by
    intro together
    have otherOwn := locking.own key other otherSave earlierGuard earlierSave
    have same := locking.exclusive.unique guard.family (.inl index) (.inl key)
      ⟨guard, guarded, rfl⟩ ⟨other, earlierGuard, by rw [otherOwn, together, own]⟩
    exact different (Sum.inl.inj same).symm
  refine Eq.trans ?_ (agreement key other otherSave earlierGuard earlierSave)
  show (((revision.acknowledge (save.source.markPersisted process.heap)).unlock guard.family
    _).families otherSave.source.family).persistedId = _
  rw [Heap.unlock, Heap.setFamily_of_ne _ _ _ (by rw [own]; exact apart)]
  show ((process.heap.setFamily save.source.family _).families
    otherSave.source.family).persistedId = _
  rw [Heap.setFamily_of_ne _ _ _ apart]
  rfl

/-- Every move but an unguarded completion preserves the agreement. -/
theorem moves (agreement : Agreement process) (locking : Locking process)
    (authority : Authority process) (guarded : kind ≠ .unguarded)
    (move : Process.Moves idOf process kind after) : Agreement after := by
  have adopts : ∀ {session : Session} {heap : Heap}, process.Adopts session heap →
      Agreement ((process.see session.id).addHandle session heap) :=
    fun adopts => agreement.keep (fun session member =>
      adopts.keeps.persistedId _ (authority.allocated session member).1)
      (fun _ guard found => ⟨guard, found⟩) fun _ save found => ⟨save, found, rfl, rfl⟩
  cases move with
  | handle step => exact agreement.handleStep authority step
  | adopt fetches _ => exact adopts fetches.toAdopts
  | trust adopted => exact adopts adopted
  | deserialize wire =>
    have keeps : process.heap.Keeps (Session.deserialize process.heap wire).2 :=
      (process.heap.keeps_allocFamily {}).trans (Heap.keeps_allocCell _ _)
    exact agreement.keep (fun session member =>
      keeps.persistedId _ (authority.allocated session member).1)
      (fun _ guard found => ⟨guard, found⟩) fun _ save found => ⟨save, found, rfl, rfl⟩
  | attempt step => exact agreement.attempt locking step
  | captureImmutable step =>
    refine agreement.follow authority (Process.follows_captureImmutable step) ?_
    obtain ⟨save, _, _, rfl⟩ := Process.captureImmutable_cases step
    exact fun _ guard found => ⟨guard, found⟩
  | capturePersistence step =>
    refine agreement.follow authority (Process.follows_capturePersistence step) ?_
    obtain ⟨save, _, _, _, rfl⟩ := Process.capturePersistence_cases step
    exact fun _ guard found => ⟨guard, found⟩
  | annotate _ _ found =>
    refine agreement.follow authority (process.follows_setSave _ _ fun newer same => ?_)
      fun _ guard found => ⟨guard, found⟩
    obtain rfl := Option.some.inj same
    exact ⟨_, found, rfl, rfl⟩
  | acquire own step => exact agreement.acquire authority step
  | dispatch _ _ _ _ step =>
    refine agreement.follow authority (Process.follows_dispatch step) ?_
    obtain ⟨save, _, rfl⟩ := Process.dispatch_cases step
    exact fun _ guard found => ⟨guard, found⟩
  | finish step =>
    obtain ⟨guard, found, _, rfl⟩ := Process.finish_cases step
    exact agreement.follow authority (process.follows_setGuard _ _) (guards_setGuard found)
  | requireCleanup step =>
    obtain ⟨guard, found, rfl⟩ := Process.requireCleanup_cases step
    exact agreement.follow authority (process.follows_setGuard _ _) (guards_setGuard found)
  | confirmRemoved step =>
    obtain ⟨guard, found, rfl⟩ := Process.confirmRemoved_cases step
    exact agreement.follow authority (process.follows_setGuard _ _) (guards_setGuard found)
  | dropGuard _ =>
    exact agreement.follow authority (process.follows_dropGuard _)
      fun key guard found => ⟨guard, (guards_dropGuard process _ key guard found).2⟩
  | dropSave _ =>
    refine agreement.follow authority (process.follows_dropSave _) fun key guard found => ?_
    rw [guards_dropSave] at found
    exact ⟨guard, found⟩
  | abandon _ =>
    refine agreement.follow authority (process.follows_abandon _) fun key guard found => ?_
    rw [Process.abandon, guards_dropSave] at found
    exact ⟨guard, (guards_dropGuard process _ key guard found).2⟩
  | complete found step => exact agreement.complete locking found step
  | acknowledge _ => exact absurd rfl guarded
  | requestDelete step =>
    refine agreement.follow authority (Process.follows_requestDelete step) ?_
    obtain ⟨session, _, _, rfl⟩ := Process.requestDelete_cases step
    exact fun _ guard found => ⟨guard, found⟩
  | grantDelete step =>
    refine agreement.follow authority (Process.follows_grantDelete step) ?_
    obtain ⟨deletion, _, _, _, ⟨_, _, _, rfl⟩ | ⟨_, _, _, _, rfl⟩⟩ :=
      Process.grantDelete_cases step <;> exact fun _ guard found => ⟨guard, found⟩
  | dropDelete index =>
    refine agreement.follow authority (process.follows_dropDelete index) fun key guard found => ?_
    rw [guards_dropDelete] at found
    exact ⟨guard, found⟩
  | conceal hidden =>
    refine agreement.keep (fun session member => ?_) (fun _ guard found => ⟨guard, found⟩)
      fun _ save found => ⟨save, found, rfl, rfl⟩
    have same := (hidden.families _ (authority.allocated session member).1).resolve_right
      fun unseen => unseen.1 (Or.inl ⟨session, member, rfl⟩)
    exact congrArg Family.persistedId same

end Agreement

end Saysion
