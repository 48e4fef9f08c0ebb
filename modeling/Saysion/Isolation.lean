/-
This file proves that nobody in a process touches the cells of a session that
nothing refers to. A record of a `MemoryStore` is such a session, and so is the
snapshot of a save: edits, destructions, acknowledgements and guards all go
through a reference that a handle, a save, a deletion or a guard holds, and no
operation hands out a reference to a cell that was allocated before.

`Within` is the frame of a heap operation. `Spares` is what is left of it for a
move of a process, and it composes along a path.
-/

import Saysion.Dispatching
import Saysion.Retention

namespace Saysion

/-! ### Frames -/

/-- A change of the heap within some families and some cells. -/
structure Heap.Within (before after : Heap) (families cells : Ref → Prop) : Prop where
  nextFamily : before.nextFamily ≤ after.nextFamily
  nextCell : before.nextCell ≤ after.nextCell
  families : ∀ ref < before.nextFamily, ¬ families ref → after.families ref = before.families ref
  cells : ∀ ref < before.nextCell, ¬ cells ref → after.cells ref = before.cells ref

namespace Heap

variable {before middle after : Heap} {families cells : Ref → Prop}

theorem Within.refl (heap : Heap) : heap.Within heap families cells :=
  ⟨le_rfl, le_rfl, fun _ _ _ => rfl, fun _ _ _ => rfl⟩

theorem Within.trans (first : before.Within middle families cells)
    (second : middle.Within after families cells) : before.Within after families cells where
  nextFamily := first.nextFamily.trans second.nextFamily
  nextCell := first.nextCell.trans second.nextCell
  families ref old outside := by
    rw [second.families ref (old.trans_le first.nextFamily) outside, first.families ref old outside]
  cells ref old outside := by
    rw [second.cells ref (old.trans_le first.nextCell) outside, first.cells ref old outside]

theorem within_setFamily (heap : Heap) {ref : Ref} (family : Family) (inside : families ref) :
    heap.Within (heap.setFamily ref family) families cells where
  nextFamily := le_rfl
  nextCell := le_rfl
  families _ _ outside :=
    heap.setFamily_of_ne ref family fun same => outside (same ▸ inside)
  cells _ _ _ := rfl

theorem within_setCell (heap : Heap) {ref : Ref} (data : SessionData) (inside : cells ref) :
    heap.Within (heap.setCell ref data) families cells where
  nextFamily := le_rfl
  nextCell := le_rfl
  families _ _ _ := rfl
  cells _ _ outside := heap.setCell_of_ne ref data fun same => outside (same ▸ inside)

theorem within_allocFamily (heap : Heap) (family : Family) :
    heap.Within (heap.allocFamily family) families cells where
  nextFamily := Nat.le_succ _
  nextCell := le_rfl
  families _ old _ := heap.allocFamily_of_lt family old
  cells _ _ _ := rfl

theorem within_allocCell (heap : Heap) (data : SessionData) :
    heap.Within (heap.allocCell data) families cells where
  nextFamily := le_rfl
  nextCell := Nat.le_succ _
  families _ _ _ := rfl
  cells _ old _ := heap.allocCell_of_lt data old

theorem within_markPersisted (heap : Heap) (session : Session) (inside : families session.family) :
    heap.Within (session.markPersisted heap) families cells := by
  unfold Session.markPersisted Session.editShared
  exact heap.within_setFamily _ inside

end Heap

namespace Process

variable {idOf : Cookie → Option Id} {process middle after : Process} {kind : Kind}

/-- A data cell that something in the process still reads or writes. -/
def Reads (process : Process) (ref : Ref) : Prop :=
  (∃ session, process.Live session ∧ session.data = ref) ∨
    ∃ index save revision, process.saves index = some save ∧ save.revision = some revision ∧
      revision.data = ref

/-- A session with cells that nothing in the process refers to. -/
structure Apart (process : Process) (session : Session) : Prop where
  family : session.family < process.heap.nextFamily
  data : session.data < process.heap.nextCell
  unreferred : ¬ process.Refers session.family
  unread : ¬ process.Reads session.data

/-- A change of a process that leaves alone what nothing refers to: no reference to it appears,
and neither its destroy flag nor its data changes. -/
structure Spares (before after : Process) : Prop where
  nextFamily : before.heap.nextFamily ≤ after.heap.nextFamily
  nextCell : before.heap.nextCell ≤ after.heap.nextCell
  refers : ∀ ref < before.heap.nextFamily, after.Refers ref → before.Refers ref
  reads : ∀ ref < before.heap.nextCell, after.Reads ref → before.Reads ref
  destroy : ∀ ref < before.heap.nextFamily, ¬ before.Refers ref →
    (after.heap.families ref).destroy = (before.heap.families ref).destroy
  cells : ∀ ref < before.heap.nextCell, ¬ before.Reads ref →
    after.heap.cells ref = before.heap.cells ref

theorem Spares.refl (process : Process) : process.Spares process :=
  ⟨le_rfl, le_rfl, fun _ _ refers => refers, fun _ _ reads => reads, fun _ _ _ => rfl,
    fun _ _ _ => rfl⟩

theorem Spares.trans (first : process.Spares middle) (second : middle.Spares after) :
    process.Spares after where
  nextFamily := first.nextFamily.trans second.nextFamily
  nextCell := first.nextCell.trans second.nextCell
  refers ref old refers :=
    first.refers ref old (second.refers ref (old.trans_le first.nextFamily) refers)
  reads ref old reads := first.reads ref old (second.reads ref (old.trans_le first.nextCell) reads)
  destroy ref old unseen := by
    rw [second.destroy ref (old.trans_le first.nextFamily) fun refers =>
      unseen (first.refers ref old refers), first.destroy ref old unseen]
  cells ref old unseen := by
    rw [second.cells ref (old.trans_le first.nextCell) fun reads =>
      unseen (first.reads ref old reads), first.cells ref old unseen]

/-! ### A session that stays apart -/

theorem Apart.later {session : Session} (apart : process.Apart session)
    (spares : process.Spares after) : after.Apart session where
  family := apart.family.trans_le spares.nextFamily
  data := apart.data.trans_le spares.nextCell
  unreferred refers := apart.unreferred (spares.refers _ apart.family refers)
  unread reads := apart.unread (spares.reads _ apart.data reads)

theorem Apart.wire_eq {session : Session} (apart : process.Apart session)
    (spares : process.Spares after) : session.wire after.heap = session.wire process.heap := by
  unfold Session.wire Session.sessionData
  rw [spares.cells _ apart.data apart.unread]

theorem Apart.isDestroyed_eq {session : Session} (apart : process.Apart session)
    (spares : process.Spares after) :
    session.isDestroyed after.heap = session.isDestroyed process.heap :=
  spares.destroy _ apart.family apart.unreferred

/-! ### What a move spares -/

/-- The references after a move are those of before, or to new cells, and the heap changes within
the references of before. -/
theorem spares_of_within
    (within : process.heap.Within after.heap process.Refers process.Reads)
    (live : ∀ session, after.Live session →
      (∃ twin, process.Live twin ∧ twin.family = session.family ∧ twin.data = session.data) ∨
        process.heap.nextFamily ≤ session.family ∧ process.heap.nextCell ≤ session.data)
    (guards : ∀ index guard, after.guards index = some guard → process.Refers guard.family)
    (revisions : ∀ index save revision, after.saves index = some save →
      save.revision = some revision → process.Reads revision.data) : process.Spares after where
  nextFamily := within.nextFamily
  nextCell := within.nextCell
  refers := by
    rintro ref old (⟨session, member, rfl⟩ | ⟨index, guard, found, rfl⟩)
    · rcases live session member with ⟨twin, earlier, same, _⟩ | ⟨new, _⟩
      · exact Or.inl ⟨twin, earlier, same⟩
      · exact absurd (old.trans_le new) (lt_irrefl _)
    · exact guards index guard found
  reads := by
    rintro ref old (⟨session, member, rfl⟩ | ⟨index, save, revision, found, captured, rfl⟩)
    · rcases live session member with ⟨twin, earlier, _, same⟩ | ⟨_, new⟩
      · exact Or.inl ⟨twin, earlier, same⟩
      · exact absurd (old.trans_le new) (lt_irrefl _)
    · exact revisions index save revision found captured
  destroy ref old unseen := congrArg Family.destroy (within.families ref old unseen)
  cells := within.cells

theorem refers_guard {index : Nat} {guard : WriteGuard} (found : process.guards index = some guard) :
    process.Refers guard.family :=
  Or.inr ⟨index, guard, found, rfl⟩

theorem reads_revision {index : Nat} {save : Save} {revision : SaveRevision}
    (found : process.saves index = some save) (captured : save.revision = some revision) :
    process.Reads revision.data :=
  Or.inr ⟨index, save, revision, found, captured, rfl⟩

theorem Live.refers {session : Session} (member : process.Live session) :
    process.Refers session.family :=
  Or.inl ⟨session, member, rfl⟩

theorem Live.reads {session : Session} (member : process.Live session) :
    process.Reads session.data :=
  Or.inl ⟨session, member, rfl⟩

/-- A move that follows, changes the heap within its references, and hands out no new guard and
no new revision. -/
theorem spares_of_follows (follows : process.Follows after)
    (within : process.heap.Within after.heap process.Refers process.Reads)
    (guards : ∀ index guard, after.guards index = some guard →
      ∃ older, process.guards index = some older ∧ older.family = guard.family)
    (revisions : ∀ index save revision, after.saves index = some save →
      save.revision = some revision → ∃ older, process.saves index = some older ∧
        older.revision = some revision) : process.Spares after := by
  refine spares_of_within within (fun session member => Or.inl ?_)
    (fun index guard found => ?_) fun index save revision found captured => ?_
  · obtain ⟨twin, earlier, same⟩ := follows.live session member
    exact ⟨twin, earlier, same.family, same.data⟩
  · obtain ⟨older, earlier, same⟩ := guards index guard found
    exact same ▸ refers_guard earlier
  · obtain ⟨older, earlier, same⟩ := revisions index save revision found captured
    exact reads_revision earlier same

theorem spares_handleStep {action : HandleAction} {reply : Reply}
    (step : process.handleStep idOf action = some (reply, after)) : process.Spares after := by
  have still : ∀ {after : Process}, process.Follows after →
      process.heap.Within after.heap process.Refers process.Reads →
      after.guards = process.guards → after.saves = process.saves → process.Spares after := by
    intro after follows within guards saves
    refine spares_of_follows follows within ?_ ?_
    · rw [guards]
      exact fun _ guard found => ⟨guard, found, rfl⟩
    · rw [saves]
      exact fun _ save _ found captured => ⟨save, found, captured⟩
  rcases handleStep_cases step with
    ⟨cookie, id, _, _, _, rfl⟩ | ⟨index, session, _, found, _, rfl⟩ |
    ⟨index, cookie, session, id, _, found, _, _, rfl⟩ |
    ⟨index, session, renewed, cell, found, twin, _, rfl⟩ | ⟨index, session, _, found, _, rfl⟩ |
    ⟨index, session, _, _, _, rfl⟩
  · refine spares_of_within ((process.heap.within_allocFamily {}).trans (Heap.within_allocCell _ {}))
      (fun other member => ?_) (fun _ guard found => refers_guard found)
      fun _ save _ found captured => reads_revision found captured
    rcases (live_addHandle member).imp_right live_see.mp with rfl | earlier
    · exact Or.inr ⟨le_rfl, le_rfl⟩
    · exact Or.inl ⟨other, earlier, rfl, rfl⟩
  · exact still (process.follows_addHandle process.heap (Heap.Keeps.refl _) (.handle found)
      ⟨rfl, rfl, rfl, rfl, rfl⟩) (Heap.Within.refl _) rfl rfl
  · -- The regenerated handle keeps its cells, though not its id.
    refine spares_of_within (Heap.Within.refl _) (fun other member => Or.inl ?_)
      (fun _ guard found => refers_guard found)
      fun _ save _ found captured => reads_revision found captured
    rcases (live_setHandle member).imp_right live_see.mp with rfl | earlier
    · exact ⟨session, .handle found, rfl, rfl⟩
    · exact ⟨other, earlier, rfl, rfl⟩
  · exact still ((process.follows_setHandle index (.handle found) twin).trans
      (follows_heap _ (Heap.keeps_setCell _ _ _)))
      (process.heap.within_setCell _ (Live.handle found).reads) rfl rfl
  · exact still (process.follows_heap (Session.keeps_destroy _ _))
      (process.heap.within_setFamily _ (Live.handle found).refers) rfl rfl
  · exact still (process.follows_dropHandle index) (Heap.Within.refl _) rfl rfl

theorem within_unlock (heap : Heap) {families cells : Ref → Prop} {ref : Ref} (uncertain : Bool)
    (inside : families ref) : heap.Within (heap.unlock ref uncertain) families cells :=
  heap.within_setFamily _ inside

theorem spares_dropGuard (process : Process) (index : Nat) :
    process.Spares (process.dropGuard index) := by
  refine spares_of_follows (process.follows_dropGuard index) ?_
    (fun key guard found => ⟨guard, (Agreement.guards_dropGuard process index key guard found).2, rfl⟩)
    fun key save revision found captured => ⟨save, process.saves_dropGuard index ▸ found, captured⟩
  unfold dropGuard
  split
  · exact Heap.Within.refl _
  · rename_i guard guarded
    exact within_unlock _ _ (refers_guard guarded)

theorem spares_dropSave (process : Process) (index : Nat) :
    process.Spares (process.dropSave index) := by
  refine spares_of_follows (process.follows_dropSave index) ?_
    (fun key guard found => ⟨guard, Agreement.guards_dropSave process index ▸ found, rfl⟩)
    fun key save revision found captured => ?_
  · unfold dropSave
    split
    · exact Heap.Within.refl _
    · rename_i save found
      dsimp only
      split
      · exact Heap.Within.refl _
      · rename_i revision captured
        exact process.heap.within_setCell _ (reads_revision found captured)
  · rw [saves_dropSave] at found
    rcases update_eq_some found with ⟨_, wrong⟩ | ⟨_, earlier⟩
    · cases wrong
    · exact ⟨save, earlier, captured⟩

/-- One save is replaced by another with the same revision. -/
theorem revisions_setSave {index : Nat} {save newer : Save} (found : process.saves index = some save)
    (same : newer.revision = save.revision) (key : Nat) (other : Save) (revision : SaveRevision)
    (lookup : Function.update process.saves index (some newer) key = some other)
    (captured : other.revision = some revision) :
    ∃ older, process.saves key = some older ∧ older.revision = some revision := by
  rcases update_eq_some lookup with ⟨rfl, replaced⟩ | ⟨_, earlier⟩
  · obtain rfl := Option.some.inj replaced
    exact ⟨save, found, same.symm.trans captured⟩
  · exact ⟨other, earlier, captured⟩

theorem families_setGuard {index : Nat} {guard newer : WriteGuard}
    (found : process.guards index = some guard) (same : newer.family = guard.family) (key : Nat)
    (other : WriteGuard)
    (lookup : Function.update process.guards index (some newer) key = some other) :
    ∃ older, process.guards key = some older ∧ older.family = other.family := by
  rcases update_eq_some lookup with ⟨rfl, replaced⟩ | ⟨_, earlier⟩
  · obtain rfl := Option.some.inj replaced
    exact ⟨guard, found, same.symm⟩
  · exact ⟨other, earlier, rfl⟩

/-- A capture hands out a revision of the source's own cell. -/
theorem reads_capture {index : Nat} {save newer : Save} (found : process.saves index = some save)
    (captures : ∀ revision, newer.revision = some revision → revision.data = save.source.data)
    (key : Nat) (other : Save) (revision : SaveRevision)
    (lookup : Function.update process.saves index (some newer) key = some other)
    (captured : other.revision = some revision) : process.Reads revision.data := by
  rcases update_eq_some lookup with ⟨_, replaced⟩ | ⟨_, earlier⟩
  · obtain rfl := Option.some.inj replaced
    exact captures revision captured ▸ (Live.save found).reads
  · exact reads_revision earlier captured

/-- The sessions after a move that follows have earlier twins. -/
theorem Follows.twins (follows : process.Follows after) (session : Session)
    (member : after.Live session) :
    (∃ twin, process.Live twin ∧ twin.family = session.family ∧ twin.data = session.data) ∨
      process.heap.nextFamily ≤ session.family ∧ process.heap.nextCell ≤ session.data := by
  obtain ⟨twin, earlier, same⟩ := follows.live session member
  exact Or.inl ⟨twin, earlier, same.family, same.data⟩

theorem families_same (index : Nat) (guard : WriteGuard)
    (found : process.guards index = some guard) :
    ∃ older, process.guards index = some older ∧ older.family = guard.family :=
  ⟨guard, found, rfl⟩

theorem revisions_same (index : Nat) (save : Save) (revision : SaveRevision)
    (found : process.saves index = some save) (captured : save.revision = some revision) :
    ∃ older, process.saves index = some older ∧ older.revision = some revision :=
  ⟨save, found, captured⟩

theorem spares_addHandle {session : Session} {heap : Heap} (fetches : process.Fetches session heap) :
    process.Spares ((process.see session.id).addHandle session heap) := by
  refine spares_of_within ⟨fetches.nextFamily.trans fetches.family.le, fetches.nextCell,
    fun ref old _ => fetches.families ref old, fun ref old _ => fetches.cells ref old⟩
    (fun other member => ?_) (fun _ guard found => refers_guard found)
    fun _ save _ found captured => reads_revision found captured
  rcases (live_addHandle member).imp_right live_see.mp with rfl | earlier
  · exact Or.inr ⟨fetches.nextFamily, fetches.fresh_data⟩
  · exact Or.inl ⟨other, earlier, rfl, rfl⟩

theorem spares_attempt {index : Nat} {reply : Reply}
    (step : process.attempt index = some (reply, after)) : process.Spares after := by
  obtain ⟨session, found, ⟨error, _, _, rfl⟩ | ⟨origin, heap, granted, _, rfl⟩⟩ := attempt_cases step
  · exact spares_of_follows (process.follows_dropHandle _) (Heap.Within.refl _) families_same
      revisions_same
  obtain ⟨_, _, changed⟩ := Session.persistenceAttempt_ok granted
  have within : process.heap.Within heap process.Refers process.Reads := by
    rw [changed]
    split
    · exact process.heap.within_setFamily _ (Live.handle found).refers
    · exact Heap.Within.refl _
  refine spares_of_within within (fun other member => Or.inl ?_)
    (fun _ guard found => refers_guard found) fun key save revision lookup captured => ?_
  · rcases member with lookup | lookup | lookup
    · rcases update_eq_some lookup with ⟨_, wrong⟩ | ⟨_, earlier⟩
      · cases wrong
      · exact ⟨other, .handle earlier, rfl, rfl⟩
    · rcases update_eq_some lookup with ⟨_, same⟩ | ⟨_, earlier⟩
      · obtain rfl := Option.some.inj same
        exact ⟨session, .handle found, rfl, rfl⟩
      · exact ⟨_, .save earlier, rfl, rfl⟩
    · exact ⟨_, .deletion lookup, rfl, rfl⟩
  · rcases update_eq_some lookup with ⟨_, same⟩ | ⟨_, earlier⟩
    · obtain rfl := Option.some.inj same
      cases captured
    · exact reads_revision earlier captured

theorem spares_captureImmutable {index : Nat} (step : process.captureImmutable index = some after) :
    process.Spares after := by
  have follows := follows_captureImmutable step
  obtain ⟨save, found, _, rfl⟩ := captureImmutable_cases step
  exact spares_of_within (process.heap.within_setCell _ (Live.save found).reads) follows.twins
    (fun _ guard found => refers_guard found)
    (reads_capture found fun revision same => by cases same; rfl)

theorem spares_capturePersistence {index : Nat} {snapshot : Session}
    (step : process.capturePersistence index = some (snapshot, after)) : process.Spares after := by
  have follows := follows_capturePersistence step
  obtain ⟨save, found, _, _, rfl⟩ := capturePersistence_cases step
  exact spares_of_within (((process.heap.within_allocFamily _).trans (Heap.within_allocCell _ _)).trans
    (Heap.within_setCell _ _ (Live.save found).reads)) follows.twins
    (fun _ guard found => refers_guard found)
    (reads_capture found fun revision same => by cases same; rfl)

theorem spares_annotate {index : Nat} {save : Save} (writeStarted waiting : Bool)
    (found : process.saves index = some save) :
    process.Spares (process.setSave index (some { save with writeStarted, waiting })) := by
  refine spares_of_follows (process.follows_setSave _ _ fun newer same => ?_) (Heap.Within.refl _)
    families_same (revisions_setSave found rfl)
  obtain rfl := Option.some.inj same
  exact ⟨_, found, rfl, rfl⟩

theorem spares_acquire {index : Nat} {receipt : Option Nat} {canOutliveFuture : Bool}
    {result : Except Error Unit}
    (step : process.acquire index receipt canOutliveFuture = some (result, after)) :
    process.Spares after := by
  have follows := follows_acquire step
  obtain ⟨save, found, _, _, outcome⟩ := acquire_cases step
  have refers := (Live.save found : process.Live save.source).refers
  rcases outcome with ⟨_, heap, refused, _, rfl⟩ | ⟨guard, heap, granted, _, rfl⟩
  · refine spares_of_follows follows ?_ families_same revisions_same
    rcases Session.beginGuardedWrite_error refused with rfl | rfl
    · exact Heap.Within.refl _
    · exact (process.heap.within_setFamily _ refers).trans (within_unlock _ _ refers)
  · obtain ⟨_, _, _, rfl, rfl⟩ := Session.beginGuardedWrite_ok granted
    refine spares_of_within (process.heap.within_setFamily _ refers) follows.twins
      (fun key other lookup => ?_) fun _ save _ found captured => reads_revision found captured
    rcases update_eq_some lookup with ⟨_, same⟩ | ⟨_, earlier⟩
    · obtain rfl := Option.some.inj same
      exact refers
    · exact refers_guard earlier

theorem spares_dispatch {index : Nat} (step : process.dispatch index = some after) :
    process.Spares after := by
  have follows := follows_dispatch step
  obtain ⟨save, found, rfl⟩ := dispatch_cases step
  exact spares_of_follows follows (Heap.Within.refl _) families_same (revisions_setSave found rfl)

/-- A guard is replaced by one of its family. -/
theorem spares_setGuard {index : Nat} {guard newer : WriteGuard}
    (found : process.guards index = some guard) (same : newer.family = guard.family) :
    process.Spares (process.setGuard index (some newer)) :=
  spares_of_follows (process.follows_setGuard _ _) (Heap.Within.refl _) (families_setGuard found same)
    revisions_same

theorem spares_complete {index : Nat} {guard : WriteGuard} {cookie : Option Cookie}
    (locking : Locking process) (guarded : process.guards index = some guard)
    (step : process.complete index = some (cookie, after)) : process.Spares after := by
  obtain ⟨save, revision, found, captured, _, rfl⟩ := complete_of_guard guarded step
  have own := locking.own _ _ save guarded found
  have refers := (Live.save found : process.Live save.source).refers
  refine spares_of_within (((process.heap.within_markPersisted _ refers).trans
    (Heap.within_setCell _ _ (reads_revision found captured))).trans
      (within_unlock _ _ (own ▸ refers))) (fun other after => Or.inl ?_)
    (fun key guard lookup => ?_) fun key other revision lookup captured => ?_
  · rcases after with lookup | lookup | lookup
    · exact ⟨other, .handle lookup, rfl, rfl⟩
    · rcases update_eq_some lookup with ⟨_, wrong⟩ | ⟨_, earlier⟩
      · cases wrong
      · exact ⟨_, .save earlier, rfl, rfl⟩
    · exact ⟨_, .deletion lookup, rfl, rfl⟩
  · rcases update_eq_some lookup with ⟨_, wrong⟩ | ⟨_, earlier⟩
    · cases wrong
    · exact refers_guard earlier
  · rcases update_eq_some lookup with ⟨_, wrong⟩ | ⟨_, earlier⟩
    · cases wrong
    · exact reads_revision earlier captured

theorem spares_requestDelete {index : Nat} {reply : Reply}
    (step : process.requestDelete index = some (reply, after)) : process.Spares after := by
  have follows := follows_requestDelete step
  obtain ⟨session, found, _, rfl⟩ := requestDelete_cases step
  exact spares_of_follows follows (process.heap.within_setFamily _ (Live.handle found).refers)
    families_same revisions_same

theorem spares_grantDelete {index : Nat} {reply : Reply}
    (step : process.grantDelete index = some (reply, after)) : process.Spares after := by
  have follows := follows_grantDelete step
  obtain ⟨deletion, found, _, _, ⟨_, _, _, rfl⟩ | ⟨_, heap, granted, _, rfl⟩⟩ := grantDelete_cases step
  · exact spares_of_follows follows (Heap.Within.refl _) families_same revisions_same
  · obtain ⟨_, rfl, _⟩ := Session.beginDelete_ok granted
    exact spares_of_follows follows
      (process.heap.within_setFamily _ (Live.deletion found).refers) families_same revisions_same

theorem spares_dropDelete (process : Process) (index : Nat) :
    process.Spares (process.dropDelete index) := by
  refine spares_of_follows (process.follows_dropDelete index) ?_
    (fun key guard found => ⟨guard, Agreement.guards_dropDelete process index ▸ found, rfl⟩) ?_
  · unfold Process.dropDelete
    split
    · exact Heap.Within.refl _
    · rename_i deletion found
      dsimp only
      split
      · exact Heap.Within.refl _
      · exact within_unlock _ _ (Live.deletion found).refers
  · unfold Process.dropDelete
    split <;> exact revisions_same

theorem Hidden.spares {heap : Heap} (hidden : process.Hidden heap) :
    process.Spares { process with heap } := by
  have same : ∀ {session}, ({ process with heap } : Process).Live session ↔ process.Live session :=
    live_congr process { process with heap } rfl rfl rfl
  refine ⟨hidden.nextFamily, hidden.nextCell, ?_, ?_, fun ref old _ => ?_,
    fun ref old _ => hidden.cells ref old⟩
  · rintro ref _ (⟨session, member, refers⟩ | guarded)
    · exact Or.inl ⟨session, same.mp member, refers⟩
    · exact Or.inr guarded
  · rintro ref _ (⟨session, member, reads⟩ | captured)
    · exact Or.inl ⟨session, same.mp member, reads⟩
    · exact Or.inr captured
  · rcases hidden.families ref old with same | ⟨_, _, _, marked⟩
    · exact congrArg Family.destroy same
    · show (heap.families ref).destroy = _
      rw [marked]

/-- Every move of a coordinated process spares what nothing refers to. -/
theorem Moves.spares (move : Moves idOf process kind after) (coordinated : Coordinated kind)
    (locking : Locking process) : process.Spares after := by
  cases move with
  | handle step => exact spares_handleStep step
  | adopt fetches _ => exact spares_addHandle fetches
  | trust _ => exact absurd rfl coordinated.1
  | deserialize _ => exact absurd rfl coordinated.1
  | attempt step => exact spares_attempt step
  | captureImmutable step => exact spares_captureImmutable step
  | capturePersistence step => exact spares_capturePersistence step
  | annotate writeStarted waiting found => exact spares_annotate writeStarted waiting found
  | acquire _ step => exact spares_acquire step
  | dispatch _ _ _ _ step => exact spares_dispatch step
  | finish step =>
    obtain ⟨guard, found, _, rfl⟩ := finish_cases step
    exact spares_setGuard found rfl
  | requireCleanup step =>
    obtain ⟨guard, found, rfl⟩ := requireCleanup_cases step
    exact spares_setGuard found rfl
  | confirmRemoved step =>
    obtain ⟨guard, found, rfl⟩ := confirmRemoved_cases step
    exact spares_setGuard found rfl
  | dropGuard _ => exact absurd rfl coordinated.1
  | dropSave _ => exact absurd rfl coordinated.1
  | abandon _ => exact (process.spares_dropGuard _).trans (spares_dropSave _ _)
  | complete guarded step => exact spares_complete locking guarded step
  | acknowledge _ => exact absurd rfl coordinated.2
  | requestDelete step => exact spares_requestDelete step
  | grantDelete step => exact spares_grantDelete step
  | dropDelete index => exact process.spares_dropDelete index
  | conceal hidden => exact hidden.spares

/-! ### What a process refers to is allocated -/

theorem Tracked.path (tracked : process.Tracked) {allowed : Kind → Prop}
    (path : Path idOf allowed process after) : after.Tracked :=
  path.invariant (fun _ earlier move => move.saved.tracked earlier) tracked

theorem refers_lt {ref : Ref} (refers : process.Refers ref) (authority : Authority process)
    (locking : Locking process) : ref < process.heap.nextFamily := by
  rcases refers with ⟨session, member, rfl⟩ | ⟨index, guard, found, rfl⟩
  · exact (authority.allocated session member).1
  · exact locking.allocated _ (.inl index) ⟨guard, found, rfl⟩

theorem Path.spares (path : Path idOf Coordinated process after)
    (dispatching : Dispatching process) : process.Spares after :=
  path.related Spares.refl Spares.trans (fun coordinated earlier move => earlier.moves coordinated move)
    (fun coordinated earlier move => move.spares coordinated earlier.locking) dispatching

end Process

end Saysion
