/-
This file follows the markers of clone families over the moves that set none: a
family that is still referred to keeps its marker, and a new one has none. With
the markers it follows the targets of granted deletions, which a marker decides.
-/

import Saysion.Isolation

namespace Saysion

/-! ### What a deletion removes -/

/-- The target of a deletion depends on the marker only. -/
theorem Session.deletionTarget_eq (heap : Heap) (session : Session) :
    session.deletionTarget heap =
      match session.persistedId heap with
      | none => session.id
      | some marker => if session.rotationFrom = some marker then marker else session.id := by
  cases current : session.persistedId heap with
  | none =>
    unfold deletionTarget
    split
    · rename_i origin granted
      obtain ⟨marker, _⟩ := persistenceOrigin_ok.mp granted
      cases current.symm.trans marker
    · rfl
  | some marker =>
    unfold deletionTarget
    split
    · rename_i origin granted
      obtain ⟨same, _, allowed⟩ := persistenceOrigin_ok.mp granted
      obtain rfl := Option.some.inj (current.symm.trans same)
      rcases allowed (by simp) with own | source
      · dsimp only
        split
        · rfl
        · exact Option.some.inj own
      · exact (if_pos source).symm
    · rename_i refused
      dsimp only
      split
      · rename_i source
        refine absurd ?_ (refused marker)
        rw [persistenceOrigin_ok]
        exact ⟨current, (fun wrong => by cases wrong), fun _ => Or.inr source⟩
      · rfl

theorem Session.deletionTarget_congr {before after : Heap} {session : Session}
    (same : session.persistedId after = session.persistedId before) :
    session.deletionTarget after = session.deletionTarget before := by
  rw [deletionTarget_eq, deletionTarget_eq, same]

namespace Process

variable {idOf : Cookie → Option Id} {process middle after : Process} {kind : Kind}

/-- Every granted deletion removes what its handle selects. -/
def Targeted (process : Process) : Prop :=
  ∀ index deletion target, process.deletions index = some deletion →
    deletion.target = some target → target = deletion.session.deletionTarget process.heap

theorem targeted_initial : Targeted initial := by
  rintro _ _ _ found
  cases found

/-- What happens to the markers that something still refers to. -/
structure Marks (before after : Process) : Prop where
  spares : before.Spares after
  kept : ∀ ref < before.heap.nextFamily, after.Refers ref →
    (after.heap.families ref).persistedId = (before.heap.families ref).persistedId
  fresh : ∀ ref, before.heap.nextFamily ≤ ref → after.Refers ref →
    (after.heap.families ref).persistedId = none

theorem Marks.refl (dispatching : Dispatching process) : process.Marks process where
  spares := .refl process
  kept _ _ _ := rfl
  fresh _ new refers :=
    absurd (refers_lt refers dispatching.authority dispatching.locking) (Nat.not_lt_of_ge new)

theorem Marks.trans (first : process.Marks middle) (second : middle.Marks after) :
    process.Marks after where
  spares := first.spares.trans second.spares
  kept ref old refers := by
    have allocated := old.trans_le first.spares.nextFamily
    rw [second.kept ref allocated refers,
      first.kept ref old (second.spares.refers ref allocated refers)]
  fresh ref new refers := by
    by_cases allocated : ref < middle.heap.nextFamily
    · rw [second.kept ref allocated refers]
      exact first.fresh ref new (second.spares.refers ref allocated refers)
    · exact second.fresh ref (Nat.le_of_not_lt allocated) refers

theorem nextFamily_acquire {index : Nat} {receipt : Option Nat} {canOutliveFuture : Bool}
    {result : Except Error Unit}
    (step : process.acquire index receipt canOutliveFuture = some (result, after)) :
    after.heap.nextFamily = process.heap.nextFamily := by
  obtain ⟨_, _, _, _, ⟨_, _, refused, _, rfl⟩ | ⟨_, _, granted, _, rfl⟩⟩ := acquire_cases step
  · rcases Session.beginGuardedWrite_error refused with rfl | rfl <;> rfl
  · obtain ⟨_, _, _, _, rfl⟩ := Session.beginGuardedWrite_ok granted
    rfl

theorem nextFamily_dropGuard (process : Process) (index : Nat) :
    (process.dropGuard index).heap.nextFamily = process.heap.nextFamily := by
  unfold dropGuard
  split <;> rfl

theorem nextFamily_dropSave (process : Process) (index : Nat) :
    (process.dropSave index).heap.nextFamily = process.heap.nextFamily := by
  unfold dropSave
  split
  · rfl
  · dsimp only
    split <;> rfl

/-- The only families that a move which sets no marker brings into reach are new and unmarked. -/
theorem Moves.fresh_unmarked (move : Moves idOf process kind after) (plain : Plain kind)
    (dispatching : Dispatching process) (later : Dispatching after) (ref : Ref)
    (new : process.heap.nextFamily ≤ ref) (refers : after.Refers ref) :
    (after.heap.families ref).persistedId = none := by
  have inside := refers_lt refers later.authority later.locking
  have old : after.heap.nextFamily = process.heap.nextFamily →
      (after.heap.families ref).persistedId = none :=
    fun same => absurd inside (Nat.not_lt_of_ge (same ▸ new))
  cases move with
  | handle step =>
    rcases handleStep_cases step with
      ⟨_, _, _, _, _, rfl⟩ | ⟨_, _, _, _, _, rfl⟩ | ⟨_, _, _, _, _, _, _, _, rfl⟩ |
      ⟨_, _, _, _, _, _, _, rfl⟩ | ⟨_, _, _, _, _, rfl⟩ | ⟨_, _, _, _, _, rfl⟩
    · have only : ref = process.heap.nextFamily := Nat.le_antisymm (Nat.le_of_lt_succ inside) new
      rw [only]
      exact congrArg Family.persistedId (Heap.allocFamily_self process.heap {})
    all_goals exact old rfl
  | adopt _ _ => exact absurd plain (by simp [Plain])
  | trust _ => exact absurd plain (by simp [Plain])
  | deserialize _ => exact absurd plain (by simp [Plain])
  | attempt step =>
    obtain ⟨_, _, ⟨_, _, _, rfl⟩ | ⟨_, heap, granted, _, rfl⟩⟩ := attempt_cases step
    · exact old rfl
    · refine old ?_
      obtain ⟨_, _, rfl⟩ := Session.persistenceAttempt_ok granted
      show (if _ then _ else process.heap).nextFamily = _
      split <;> rfl
  | captureImmutable step =>
    obtain ⟨_, _, _, rfl⟩ := captureImmutable_cases step
    exact old rfl
  | capturePersistence step =>
    -- The family of the snapshot is new, but it belongs to the call alone.
    refine absurd new (Nat.not_le_of_gt ?_)
    have follows := follows_capturePersistence step
    obtain ⟨_, _, _, _, rfl⟩ := capturePersistence_cases step
    rcases refers with ⟨session, member, rfl⟩ | ⟨key, guard, found, rfl⟩
    · obtain ⟨twin, earlier, same⟩ := follows.live session member
      exact same.family ▸ (dispatching.authority.allocated twin earlier).1
    · exact dispatching.locking.allocated _ (.inl key) ⟨guard, found, rfl⟩
  | annotate _ _ _ => exact old rfl
  | acquire _ step => exact old (nextFamily_acquire step)
  | dispatch _ _ _ _ step =>
    obtain ⟨_, _, rfl⟩ := dispatch_cases step
    exact old rfl
  | finish step =>
    obtain ⟨_, _, _, rfl⟩ := finish_cases step
    exact old rfl
  | requireCleanup step =>
    obtain ⟨_, _, rfl⟩ := requireCleanup_cases step
    exact old rfl
  | confirmRemoved step =>
    obtain ⟨_, _, rfl⟩ := confirmRemoved_cases step
    exact old rfl
  | dropGuard _ => exact absurd plain (by simp [Plain])
  | dropSave _ => exact absurd plain (by simp [Plain])
  | abandon _ =>
    exact old ((nextFamily_dropSave _ _).trans (nextFamily_dropGuard _ _))
  | complete _ _ => exact absurd plain (by simp [Plain])
  | acknowledge _ => exact absurd plain (by simp [Plain])
  | requestDelete step =>
    obtain ⟨_, _, _, rfl⟩ := requestDelete_cases step
    exact old rfl
  | grantDelete step =>
    obtain ⟨_, _, _, _, ⟨_, _, _, rfl⟩ | ⟨_, _, granted, _, rfl⟩⟩ := grantDelete_cases step
    · exact old rfl
    · obtain ⟨_, rfl, _⟩ := Session.beginDelete_ok granted
      exact old rfl
  | dropDelete _ =>
    refine old ?_
    unfold Process.dropDelete
    split
    · rfl
    · dsimp only
      split <;> rfl
  | @conceal heap hidden =>
    refine absurd new (Nat.not_le_of_gt ?_)
    rcases refers with ⟨session, member, rfl⟩ | ⟨key, guard, found, rfl⟩
    · have earlier := (live_congr process { process with heap } rfl rfl rfl).mp member
      exact (dispatching.authority.allocated session earlier).1
    · exact dispatching.locking.allocated _ (.inl key) ⟨guard, found, rfl⟩

theorem Moves.marks (move : Moves idOf process kind after) (plain : Plain kind)
    (dispatching : Dispatching process) : process.Marks after := by
  have coordinated : Coordinated kind := by
    rcases plain with rfl | rfl <;> exact ⟨by simp, by simp⟩
  have spares := move.spares coordinated dispatching.locking
  refine ⟨spares, fun ref old refers => ?_,
    move.fresh_unmarked plain dispatching (dispatching.moves coordinated move)⟩
  rcases plain with rfl | rfl
  · exact (move.heap_evolves (by simp) (by simp) (by simp)).2.marker ref old
  · cases move with
    | conceal hidden =>
      rcases hidden.families ref old with same | ⟨unseen, _⟩
      · exact congrArg Family.persistedId same
      · exact absurd (spares.refers ref old refers) unseen

/-- A path that sets no marker keeps those that something still refers to. -/
theorem Path.marks (path : Path idOf Plain process after) (dispatching : Dispatching process) :
    process.Marks after := by
  induction path with
  | refl => exact .refl dispatching
  | tail earlier move inductionHypothesis =>
    obtain ⟨kind, plain, move⟩ := move
    have middle := dispatching.path (Path.coordinated earlier)
    exact inductionHypothesis.trans (move.marks plain middle)

/-! ### The targets of deletions -/

/-- A deletion was there before, was just requested, or was just granted. -/
theorem Moves.deletion (move : Moves idOf process kind after) (index : Nat) (deletion : Deletion)
    (found : after.deletions index = some deletion) : process.deletions index = some deletion ∨
      deletion.target = none ∧ deletion.session.isDestroyed after.heap = true ∨
        (∃ older, process.deletions index = some older ∧ older.session = deletion.session) ∧
          deletion.target = some (deletion.session.deletionTarget after.heap) := by
  have still : after.deletions = process.deletions → process.deletions index = some deletion ∨
      deletion.target = none ∧ deletion.session.isDestroyed after.heap = true ∨
        (∃ older, process.deletions index = some older ∧ older.session = deletion.session) ∧
          deletion.target = some (deletion.session.deletionTarget after.heap) :=
    fun same => Or.inl (same ▸ found)
  cases move with
  | handle step =>
    obtain ⟨_, _, _, _, rfl⟩ := handleStep_eq step
    exact still rfl
  | adopt _ _ => exact still rfl
  | trust _ => exact still rfl
  | deserialize _ => exact still rfl
  | attempt step =>
    obtain ⟨_, _, ⟨_, _, _, rfl⟩ | ⟨_, _, _, _, rfl⟩⟩ := attempt_cases step <;> exact still rfl
  | captureImmutable step =>
    obtain ⟨_, _, _, rfl⟩ := captureImmutable_cases step
    exact still rfl
  | capturePersistence step =>
    obtain ⟨_, _, _, _, rfl⟩ := capturePersistence_cases step
    exact still rfl
  | annotate _ _ _ => exact still rfl
  | acquire _ step =>
    obtain ⟨_, _, _, _, ⟨_, _, _, _, rfl⟩ | ⟨_, _, _, _, rfl⟩⟩ := acquire_cases step <;>
      exact still rfl
  | dispatch _ _ _ _ step =>
    obtain ⟨_, _, rfl⟩ := dispatch_cases step
    exact still rfl
  | finish step =>
    obtain ⟨_, _, _, rfl⟩ := finish_cases step
    exact still rfl
  | requireCleanup step =>
    obtain ⟨_, _, rfl⟩ := requireCleanup_cases step
    exact still rfl
  | confirmRemoved step =>
    obtain ⟨_, _, rfl⟩ := confirmRemoved_cases step
    exact still rfl
  | dropGuard index =>
    obtain ⟨heap, dropped⟩ := process.dropGuard_eq index
    exact still (by rw [dropped]; rfl)
  | dropSave index =>
    obtain ⟨heap, dropped⟩ := process.dropSave_eq index
    exact still (by rw [dropped]; rfl)
  | @abandon index _ =>
    obtain ⟨heap, abandoned⟩ := process.abandon_eq index
    exact still (by rw [abandoned]; rfl)
  | complete guarded step =>
    obtain ⟨_, _, _, _, _, rfl⟩ := complete_of_guard guarded step
    exact still rfl
  | acknowledge step =>
    obtain ⟨_, _, _, _, _, rfl⟩ := acknowledge_cases step
    exact still rfl
  | requestDelete step =>
    obtain ⟨_, _, _, rfl⟩ := requestDelete_cases step
    rcases update_eq_some found with ⟨_, same⟩ | ⟨_, earlier⟩
    · obtain rfl := Option.some.inj same
      exact Or.inr (Or.inl ⟨rfl, congrArg Family.destroy (Heap.setFamily_self _ _ _)⟩)
    · exact Or.inl earlier
  | grantDelete step =>
    obtain ⟨older, lookup, _, _, ⟨_, _, _, rfl⟩ | ⟨selected, heap, chosen, _, rfl⟩⟩ :=
      grantDelete_cases step
    · rcases update_eq_some found with ⟨_, wrong⟩ | ⟨_, earlier⟩
      · cases wrong
      · exact Or.inl earlier
    · rcases update_eq_some found with ⟨rfl, same⟩ | ⟨_, earlier⟩
      · obtain rfl := Option.some.inj same
        obtain ⟨_, _, selects⟩ := Session.beginDelete_ok chosen
        exact Or.inr (Or.inr ⟨⟨older, lookup, rfl⟩, congrArg some selects⟩)
      · exact Or.inl earlier
  | dropDelete key =>
    obtain ⟨heap, dropped⟩ := process.dropDelete_eq key
    rw [dropped] at found
    rcases update_eq_some found with ⟨_, wrong⟩ | ⟨_, earlier⟩
    · cases wrong
    · exact Or.inl earlier
  | conceal _ => exact still rfl

/-- Targets survive as long as the markers of the families with a granted deletion do. -/
theorem Targeted.move (targeted : process.Targeted) (move : Moves idOf process kind after)
    (markers : ∀ index deletion, process.deletions index = some deletion →
      after.deletions index = some deletion → deletion.target ≠ none →
        deletion.session.persistedId after.heap = deletion.session.persistedId process.heap) :
    after.Targeted := by
  intro index deletion target found granted
  rcases move.deletion index deletion found with earlier | ⟨ungranted, _⟩ | ⟨_, selected⟩
  · have same := markers index deletion earlier found (by simp [granted])
    rw [Session.deletionTarget_congr same]
    exact targeted index deletion target earlier granted
  · cases ungranted.symm.trans granted
  · exact Option.some.inj (granted.symm.trans selected)

/-- A guarded completion moves the marker of a family that no granted deletion holds. -/
theorem persistedId_complete {index : Nat} {guard : WriteGuard} {cookie : Option Cookie}
    (dispatching : Dispatching process) (guarded : process.guards index = some guard)
    (step : process.complete index = some (cookie, after)) :
    ∃ save, process.saves index = some save ∧
      (after.heap.families save.source.family).persistedId = some save.source.id ∧
        (∀ ref ≠ save.source.family,
          (after.heap.families ref).persistedId = (process.heap.families ref).persistedId) ∧
          after.heap.nextFamily = process.heap.nextFamily := by
  obtain ⟨save, revision, found, _, _, rfl⟩ := complete_of_guard guarded step
  have unlock : ∀ ref, ((guard.drop (revision.acknowledge
      (save.source.markPersisted process.heap))).families ref).persistedId =
        ((save.source.markPersisted process.heap).families ref).persistedId :=
    fun ref => Heap.persistedId_unlock _ _ _ _
  refine ⟨save, found, (unlock _).trans ?_, fun ref different => (unlock ref).trans ?_, rfl⟩
  · exact dispatching.authority.marked found
      (dispatching.agreement index guard save guarded found)
  · unfold Session.markPersisted Session.editShared
    rw [Heap.setFamily_of_ne _ _ _ different]

/-- Every coordinated move preserves the targets of deletions. -/
theorem Targeted.moves (targeted : process.Targeted) (dispatching : Dispatching process)
    (coordinated : Coordinated kind) (move : Moves idOf process kind after) : after.Targeted := by
  refine targeted.move move fun index deletion earlier found granted => ?_
  have old := (dispatching.authority.allocated _ (.deletion earlier)).1
  have refers : after.Refers deletion.session.family := Live.refers (.deletion found)
  by_cases plain : Plain kind
  · exact (move.marks plain dispatching).kept _ old refers
  cases move with
  | adopt fetches _ => exact congrArg Family.persistedId (fetches.families _ old)
  | complete guarded step =>
    obtain ⟨save, saved, _, others, _⟩ := persistedId_complete dispatching guarded step
    refine others _ fun together => ?_
    -- The completing save holds the mutex, and so does a granted deletion.
    have own := dispatching.locking.own _ _ _ guarded saved
    have same := dispatching.locking.exclusive.unique deletion.session.family (.inr index) (.inl _)
      ⟨deletion, earlier, granted, rfl⟩ ⟨_, guarded, own.trans together.symm⟩
    cases same
  | trust _ => exact absurd rfl coordinated.1
  | deserialize _ => exact absurd rfl coordinated.1
  | dropGuard _ => exact absurd rfl coordinated.1
  | dropSave _ => exact absurd rfl coordinated.1
  | acknowledge _ => exact absurd rfl coordinated.2
  | conceal _ => exact absurd (Or.inr rfl) plain
  | _ => exact absurd (Or.inl rfl) plain

theorem Targeted.path (targeted : process.Targeted) (dispatching : Dispatching process)
    (path : Path idOf Coordinated process after) : after.Targeted := by
  induction path with
  | refl => exact targeted
  | tail earlier move inductionHypothesis =>
    obtain ⟨kind, coordinated, move⟩ := move
    exact inductionHypothesis.moves (dispatching.path earlier) coordinated move

end Process

end Saysion
