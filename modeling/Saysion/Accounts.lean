/-
This file keeps account of the data cells of a process over a whole run: which
saves in progress captured each of them, and what the save that finished last had
captured. Every operation of a process has one of five effects on the cells, and
each effect keeps the ledger of `Saysion/ChangeTracking.lean` true for every cell
of a live session. So a cell that reports no change holds what it began with,
what a reset declared unchanged, or what a completed save captured.

The account is kept for any sequence of such operations; the stores say where it
was opened and which of their steps complete a save.
-/

import Saysion.ChangeTracking
import Saysion.Dispatching
import Saysion.Retention

namespace Saysion

/-! ### A reset -/

/-- A reset counts as a save of the current values that finished alone. -/
theorem Tracked.reset {data : Ref} {values : Values} {revision : UInt64} {tracking : Tracking}
    (tracked : Tracked data values revision tracking) {heap : Heap}
    (nextCell : tracking.heap.nextCell ≤ heap.nextCell)
    (cell : heap.cells data = (tracking.heap.cells data).reset) :
    Tracked data values revision { tracking with
      heap
      last := some { values := (tracking.heap.cells data).values, edit := tracking.edits,
                     acknowledged := true, overlapped := false } } := by
  obtain ⟨allocated, active, current, tokens, alone, _, untouched, _⟩ := tracked
  have sameValues : (heap.cells data).values = (tracking.heap.cells data).values := by rw [cell]; rfl
  constructor
  · exact allocated.trans_le nextCell
  · show (heap.cells data).activeSaves = _
    rw [cell]
    exact active
  · show (heap.cells data).revision = _
    rw [cell]
    exact current
  · intro save member
    show _ ∧ _ ∧ _ ∧ (_ → save.values = (heap.cells data).values)
    rw [sameValues]
    exact tokens save member
  · intro single
    have single : (heap.cells data).overlappingSaves = false := single
    rw [cell] at single
    exact alone single
  · intro save now
    obtain rfl := Option.some.inj now
    exact ⟨le_rfl, fun _ => sameValues.symm⟩
  · exact fun zero => sameValues.trans (untouched zero)
  · intro _
    refine ⟨nofun, fun save now => ?_⟩
    obtain rfl := Option.some.inj now
    refine ⟨rfl, rfl, ?_⟩
    show (heap.cells data).persistedRevision = _
    rw [cell]
    exact current

/-- A new cell with an empty ledger. -/
theorem Tracked.ofValues {data : Ref} {values : Values} {heap : Heap}
    (allocated : data < heap.nextCell) (cell : heap.cells data = .ofValues values) :
    Tracked data values 0 { heap, tokens := [], last := none, edits := 0 } := by
  have start : (changeTracking data).init { heap, tokens := [], last := none, edits := 0 } :=
    ⟨allocated, by rw [cell]; rfl, by rw [cell]; rfl, rfl, rfl, rfl⟩
  have tracked := Tracked.initial start
  rwa [cell] at tracked

namespace Process

variable {before after : Process} {reply : Reply} {index : Nat} {resets : Ref → Prop}
  {completes : Nat → Prop}

/-! ### What the saves in progress have captured -/

/-- The revision and the snapshot that a save in progress has captured. -/
def taken (process : Process) (index : Nat) : Option (SaveRevision × SessionSnapshot) :=
  (process.saves index).bind fun save =>
    save.revision.bind fun token => save.snapshot.map fun snapshot => (token, snapshot)

theorem taken_of_update {entry : Option Save} {captured : Option (SaveRevision × SessionSnapshot)}
    (saves : after.saves = Function.update before.saves index entry)
    (holds : (entry.bind fun save => save.revision.bind fun token =>
      save.snapshot.map fun snapshot => (token, snapshot)) = captured) :
    after.taken = Function.update before.taken index captured := by
  funext key
  rcases eq_or_ne key index with rfl | different
  · rw [Function.update_self, ← holds, taken, saves, Function.update_self]
  · rw [Function.update_of_ne different, taken, saves, Function.update_of_ne different]
    rfl

/-- A change of a save that is not about what it captured. -/
theorem taken_of_same {older newer : Save} (found : before.saves index = some older)
    (saves : after.saves = Function.update before.saves index (some newer))
    (revision : newer.revision = older.revision) (snapshot : newer.snapshot = older.snapshot) :
    after.taken = before.taken := by
  rw [taken_of_update saves rfl, Function.update_eq_self_iff, taken, found, Option.bind_some,
    Option.bind_some, revision, snapshot]

/-- The source of a save that has captured is live, and its token is one of its source's cell. -/
theorem save_of_taken {token : SaveRevision} {snapshot : SessionSnapshot}
    (captured : before.taken index = some (token, snapshot)) :
    ∃ save, before.saves index = some save ∧ save.revision = some token ∧
      save.snapshot = some snapshot := by
  simp only [taken, Option.bind_eq_some_iff, Option.map_eq_some_iff] at captured
  obtain ⟨save, found, _, revised, _, taken, same⟩ := captured
  cases same
  exact ⟨save, found, revised, taken⟩

/-! ### The effects -/

/-- What an operation does to the data cells that are there: nothing, an edit or a reset of one of
them, a capture of one by a save, or the end of a save that had captured one. The parameters say
which cells the operation may reset, and which save it may complete. -/
inductive Effect (resets : Ref → Prop) (completes : Nat → Prop) (before after : Process) : Prop
  | still : (∀ data < before.heap.nextCell, after.heap.cells data = before.heap.cells data) →
      after.taken = before.taken → Effect resets completes before after
  | edit (ref : Ref) (change : SessionData → SessionData) : Edits change →
      (∀ data < before.heap.nextCell, after.heap.cells data =
        Function.update before.heap.cells ref (change (before.heap.cells ref)) data) →
          after.taken = before.taken → Effect resets completes before after
  | reset (ref : Ref) : resets ref →
      (∀ data < before.heap.nextCell, after.heap.cells data =
        Function.update before.heap.cells ref (before.heap.cells ref).reset data) →
          after.taken = before.taken → Effect resets completes before after
  | capture (index : Nat) (ref : Ref) (snapshot : SessionSnapshot) : ref < before.heap.nextCell →
      snapshot.data = (before.heap.cells ref).values → before.taken index = none →
        (∀ data < before.heap.nextCell, after.heap.cells data =
          Function.update before.heap.cells ref (before.heap.cells ref).capture data) →
            after.taken = Function.update before.taken index
              (some ({ data := ref, revision := (before.heap.cells ref).revision }, snapshot)) →
                Effect resets completes before after
  | settle (index : Nat) (token : SaveRevision) (snapshot : SessionSnapshot) (acknowledged : Bool) :
      before.taken index = some (token, snapshot) → (acknowledged = true → completes index) →
        (∀ data < before.heap.nextCell, after.heap.cells data =
          Function.update before.heap.cells token.data
            (if acknowledged then (before.heap.cells token.data).acknowledge token.revision
              else (before.heap.cells token.data).release) data) →
          after.taken = Function.update before.taken index none →
            Effect resets completes before after

/-- What a save has captured is from a cell that was there already. -/
theorem Effect.taken_cases (effect : Effect resets completes before after) {token : SaveRevision}
    {snapshot : SessionSnapshot} (captured : after.taken index = some (token, snapshot)) :
    before.taken index = some (token, snapshot) ∨ token.data < before.heap.nextCell := by
  cases effect with
  | still _ taken => exact Or.inl (taken ▸ captured)
  | edit _ _ _ _ taken => exact Or.inl (taken ▸ captured)
  | reset _ _ _ taken => exact Or.inl (taken ▸ captured)
  | capture key ref wire allocated _ _ _ taken =>
    rw [taken] at captured
    rcases update_eq_some captured with ⟨_, same⟩ | ⟨_, earlier⟩
    · cases same
      exact Or.inr allocated
    · exact Or.inl earlier
  | settle key _ _ _ _ _ _ taken =>
    rw [taken] at captured
    rcases update_eq_some captured with ⟨_, wrong⟩ | ⟨_, earlier⟩
    · cases wrong
    · exact Or.inl earlier

/-- A session that an operation hands out, with a new cell that starts with these values. -/
structure Entered (before : Process) (reply : Reply) (after : Process) (session : Session)
    (values : Values) : Prop where
  new : before.heap.nextCell ≤ session.data
  allocated : session.data < after.heap.nextCell
  handed : ∃ key, reply = .handle key ∧ after.handles key = some session
  cell : after.heap.cells session.data = .ofValues values

/-- What an operation does to the data cells and to the sessions that refer to them. -/
structure Accounts (resets : Ref → Prop) (completes : Nat → Prop) (before : Process) (reply : Reply)
    (after : Process) : Prop where
  nextCell : before.heap.nextCell ≤ after.heap.nextCell
  live : ∀ session, after.Live session →
    (∃ older, before.Live older ∧ older.data = session.data) ∨
      ∃ values, before.Entered reply after session values
  effect : Effect resets completes before after

theorem accounts_of_follows (follows : before.Follows after)
    (effect : Effect resets completes before after) :
    before.Accounts resets completes reply after where
  nextCell := follows.keeps.nextCell
  live session member := by
    obtain ⟨twin, earlier, same⟩ := follows.live session member
    exact Or.inl ⟨twin, earlier, same.data⟩
  effect := effect

/-- An operation that concerns the families, the guards and the deletions only. -/
theorem accounts_of_still (follows : before.Follows after)
    (cells : ∀ data < before.heap.nextCell, after.heap.cells data = before.heap.cells data)
    (saves : after.saves = before.saves) : before.Accounts resets completes reply after :=
  accounts_of_follows follows (.still cells (by funext key; rw [taken, taken, saves]))

/-- An operation on a save that is not about what it captured. -/
theorem accounts_of_save {older newer : Save} (follows : before.Follows after)
    (cells : ∀ data < before.heap.nextCell, after.heap.cells data = before.heap.cells data)
    (found : before.saves index = some older)
    (saves : after.saves = Function.update before.saves index (some newer))
    (revision : newer.revision = older.revision) (snapshot : newer.snapshot = older.snapshot) :
    before.Accounts resets completes reply after :=
  accounts_of_follows follows (.still cells (taken_of_same found saves revision snapshot))

/-! ### The operations -/

variable {idOf : Cookie → Option Id}

theorem accounts_handleStep {action : HandleAction}
    (step : before.handleStep idOf action = some (reply, after))
    (declares : ∀ key session, action = .resetDataChanged key → before.handles key = some session →
      resets session.data) : before.Accounts resets completes reply after := by
  cases action with
  | new cookie =>
    simp only [handleStep, Option.bind_eq_bind, Option.bind_eq_some_iff] at step
    obtain ⟨id, drawn, step⟩ := step
    cases step
    refine ⟨Nat.le_succ _, fun session member => ?_, .still (fun data old => ?_) rfl⟩
    · rcases live_addHandle member with rfl | earlier
      · refine Or.inr ⟨∅, le_rfl, Nat.lt_succ_self _, ⟨_, rfl, Function.update_self _ _ _⟩, ?_⟩
        exact Heap.allocCell_self (before.heap.allocFamily {}) _
      · exact Or.inl ⟨session, (live_congr before (before.see id) rfl rfl rfl).mp earlier, rfl⟩
    · exact Heap.allocCell_of_lt (before.heap.allocFamily {}) _ old
  | clone key =>
    simp only [handleStep, Option.bind_eq_bind, Option.bind_eq_some_iff] at step
    obtain ⟨session, found, step⟩ := step
    cases step
    exact accounts_of_still (before.follows_addHandle before.heap (Heap.Keeps.refl _)
      (.handle found) ⟨rfl, rfl, rfl, rfl, rfl⟩) (fun _ _ => rfl) rfl
  | regenerate key cookie =>
    simp only [handleStep, Option.bind_eq_bind, Option.bind_eq_some_iff] at step
    obtain ⟨session, found, id, drawn, step⟩ := step
    cases step
    refine ⟨le_rfl, fun other member => Or.inl ?_, .still (fun _ _ => rfl) rfl⟩
    rcases live_setHandle member with rfl | earlier
    · exact ⟨session, .handle found, rfl⟩
    · exact ⟨other, (live_congr before (before.see id) rfl rfl rfl).mp earlier, rfl⟩
  | insertRaw key name value =>
    simp only [handleStep, Option.bind_eq_bind, Option.bind_eq_some_iff] at step
    obtain ⟨session, found, step⟩ := step
    cases step
    exact accounts_of_follows (before.follows_heap (Heap.keeps_setCell _ _ _))
      (.edit session.data _ (edits_insertRaw name value) (fun _ _ => rfl) rfl)
  | remove key name =>
    simp only [handleStep, Option.bind_eq_bind, Option.bind_eq_some_iff] at step
    obtain ⟨session, found, step⟩ := step
    cases step
    exact accounts_of_follows (before.follows_heap (Heap.keeps_setCell _ _ _))
      (.edit session.data _ (edits_remove name) (fun _ _ => rfl) rfl)
  | setExpiry key expiry =>
    simp only [handleStep, Option.bind_eq_bind, Option.bind_eq_some_iff] at step
    obtain ⟨session, found, step⟩ := step
    cases step
    exact accounts_of_still (before.follows_setHandle key (.handle found)
      (session.twin_setExpiry expiry)) (fun _ _ => rfl) rfl
  | setCookieValue key cookie =>
    simp only [handleStep, Option.bind_eq_bind, Option.bind_eq_some_iff] at step
    obtain ⟨session, found, step⟩ := step
    cases step
    exact accounts_of_still (before.follows_setHandle key (.handle found)
      (session.twin_setCookieValue cookie)) (fun _ _ => rfl) rfl
  | resetDataChanged key =>
    simp only [handleStep, Option.bind_eq_bind, Option.bind_eq_some_iff] at step
    obtain ⟨session, found, step⟩ := step
    cases step
    have follows : before.Follows (before.setHandle key { session with metadataChanged := false }) :=
      before.follows_setHandle key (.handle found) ⟨rfl, rfl, rfl, rfl, rfl⟩
    exact accounts_of_follows (follows.trans (follows_heap _ (Heap.keeps_setCell _ _ _)))
      (.reset session.data (declares key session rfl found) (fun _ _ => rfl) rfl)
  | destroy key =>
    simp only [handleStep, Option.bind_eq_bind, Option.bind_eq_some_iff] at step
    obtain ⟨session, found, step⟩ := step
    cases step
    exact accounts_of_still (before.follows_heap (Session.keeps_destroy _ _)) (fun _ _ => rfl) rfl
  | drop key =>
    simp only [handleStep, Option.bind_eq_bind, Option.bind_eq_some_iff] at step
    obtain ⟨session, found, step⟩ := step
    cases step
    exact accounts_of_still (before.follows_dropHandle key) (fun _ _ => rfl) rfl

/-- A load hands out a session with a cell of its own. -/
theorem accounts_fetch {session : Session} {heap : Heap} {values : Values}
    (fetches : before.Fetches session heap) (cell : heap.cells session.data = .ofValues values) :
    before.Accounts resets completes (.handle before.nextHandle)
      ((before.see session.id).addHandle session heap) := by
  refine ⟨fetches.nextCell, fun other member => ?_, .still fetches.cells rfl⟩
  rcases live_addHandle member with rfl | earlier
  · exact Or.inr ⟨values, fetches.fresh_data, fetches.data, ⟨_, rfl, Function.update_self _ _ _⟩, cell⟩
  · exact Or.inl ⟨other, (live_congr before (before.see session.id) rfl rfl rfl).mp earlier, rfl⟩

/-- Whatever a load leaves behind that hands nothing out, no session refers to. -/
theorem accounts_conceal {heap : Heap} (hidden : before.Hidden heap) :
    before.Accounts resets completes reply { before with heap } where
  nextCell := hidden.nextCell
  live session member := Or.inl ⟨session, (live_congr before { before with heap } rfl rfl rfl).mp member,
    rfl⟩
  effect := .still hidden.cells rfl

theorem accounts_attempt (unused : before.saves before.nextSave = none)
    (step : before.attempt index = some (reply, after)) :
    before.Accounts resets completes reply after := by
  obtain ⟨session, found, ⟨_, _, _, rfl⟩ | ⟨origin, heap, granted, _, rfl⟩⟩ := attempt_cases step
  · exact accounts_of_still (before.follows_dropHandle index) (fun _ _ => rfl) rfl
  have same : heap.cells = before.heap.cells ∧ heap.nextCell = before.heap.nextCell := by
    rw [(Session.persistenceAttempt_ok granted).2.2]
    split <;> exact ⟨rfl, rfl⟩
  refine ⟨same.2.ge, fun other member => Or.inl ?_, .still (fun _ _ => by rw [same.1]) ?_⟩
  · rcases member with lookup | lookup | lookup
    · rcases update_eq_some lookup with ⟨_, wrong⟩ | ⟨_, earlier⟩
      · cases wrong
      · exact ⟨other, .handle earlier, rfl⟩
    · rcases update_eq_some lookup with ⟨_, new⟩ | ⟨_, earlier⟩
      · obtain rfl := Option.some.inj new
        exact ⟨session, .handle found, rfl⟩
      · exact ⟨_, .save earlier, rfl⟩
    · exact ⟨_, .deletion lookup, rfl⟩
  · have updated : taken { (before.dropHandle index).setSave before.nextSave
        (some { source := session, origin }) with heap, nextSave := before.nextSave + 1 } =
          Function.update before.taken before.nextSave none := taken_of_update rfl rfl
    rw [updated, Function.update_eq_self_iff, taken, unused]
    rfl

theorem accounts_captureImmutable (authority : Authority before)
    (step : before.captureImmutable index = some after) :
    before.Accounts resets completes reply after := by
  obtain ⟨save, found, uncaptured, rfl⟩ := captureImmutable_cases step
  refine accounts_of_follows (follows_captureImmutable step)
    (.capture index save.source.data (save.source.wire before.heap)
      (authority.allocated _ (.save found)).2 rfl ?_ (fun _ _ => rfl) (taken_of_update rfl rfl))
  rw [taken, found, Option.bind_some, uncaptured]
  rfl

theorem accounts_capturePersistence (authority : Authority before) {snapshot : Session}
    (step : before.capturePersistence index = some (snapshot, after)) :
    before.Accounts resets completes reply after := by
  obtain ⟨save, found, uncaptured, _, rfl⟩ := capturePersistence_cases step
  have allocated := (authority.allocated _ (.save found)).2
  have captures := captures_persistenceSnapshot allocated
  refine accounts_of_follows (follows_capturePersistence step)
    (.capture index save.source.data (save.source.wire before.heap) allocated rfl ?_
      (fun data old => ?_) (taken_of_update rfl ?_))
  · rw [taken, found, Option.bind_some, uncaptured]
    rfl
  · rcases eq_or_ne data save.source.data with rfl | different
    · rw [Function.update_self]
      exact captures.cell
    · rw [Function.update_of_ne different]
      show (((save.source.snapshot before.heap).2.setCell save.source.data _).cells data) = _
      rw [Heap.setCell_of_ne _ _ _ different]
      exact Heap.allocCell_of_lt _ _ old
  · show some ((save.source.capture (save.source.snapshot before.heap).2).1, _) = _
    have token := captures.token
    exact congrArg (fun token => some (token, save.source.wire before.heap)) token

theorem accounts_acquire {receipt : Option Nat} {canOutliveFuture : Bool} {result : Except Error Unit}
    (step : before.acquire index receipt canOutliveFuture = some (result, after)) :
    before.Accounts resets completes reply after := by
  obtain ⟨save, found, _, _, ⟨error, heap, refused, _, same⟩ | ⟨guard, heap, granted, _, same⟩⟩ :=
    acquire_cases step
  · refine accounts_of_still (follows_acquire step) (fun _ _ => ?_) (by rw [same])
    rcases Session.beginGuardedWrite_error refused with left | left
    · rw [same, left]
    · rw [same, left]
      rfl
  · refine accounts_of_still (follows_acquire step) (fun _ _ => ?_) (by rw [same]; rfl)
    obtain ⟨_, _, _, _, left⟩ := Session.beginGuardedWrite_ok granted
    rw [same, left]
    rfl

theorem accounts_dispatch (step : before.dispatch index = some after) :
    before.Accounts resets completes reply after := by
  obtain ⟨save, found, rfl⟩ := dispatch_cases step
  exact accounts_of_save (follows_dispatch step) (fun _ _ => rfl) found rfl rfl rfl

theorem accounts_finish {result : Except Error Unit}
    (step : before.finish index = some (result, after)) :
    before.Accounts resets completes reply after := by
  obtain ⟨guard, _, _, rfl⟩ := finish_cases step
  exact accounts_of_still (before.follows_setGuard index _) (fun _ _ => rfl) rfl

theorem accounts_confirmRemoved (step : before.confirmRemoved index = some after) :
    before.Accounts resets completes reply after := by
  obtain ⟨guard, _, rfl⟩ := confirmRemoved_cases step
  exact accounts_of_still (before.follows_setGuard index _) (fun _ _ => rfl) rfl

theorem cells_dropGuard (process : Process) (index : Nat) :
    (process.dropGuard index).heap.cells = process.heap.cells ∧
      (process.dropGuard index).saves = process.saves := by
  unfold dropGuard
  split <;> exact ⟨rfl, rfl⟩

/-- A save that is given up before it has captured anything leaves every cell alone; otherwise it
ends without an acknowledgement. -/
theorem accounts_abandon (snapshots : before.Snapshots) :
    before.Accounts resets completes reply (before.abandon index) := by
  refine accounts_of_follows (before.follows_abandon index) ?_
  obtain ⟨cells, saves⟩ := before.cells_dropGuard index
  unfold abandon dropSave
  split
  · exact .still (fun _ _ => by rw [cells]) (by funext key; rw [taken, taken, saves])
  rename_i save found
  rw [saves] at found
  cases revised : save.revision with
  | none =>
    refine .still (fun _ _ => congrFun cells _) ?_
    have updated : ((before.dropGuard index).setSave index none).taken =
        Function.update before.taken index none := taken_of_update (by rw [← saves]; rfl) rfl
    refine updated.trans ?_
    rw [Function.update_eq_self_iff, taken, found, Option.bind_some, revised]
    rfl
  | some token =>
    obtain ⟨_, none⟩ | ⟨snapshot, captured, _⟩ := snapshots index save found
    · cases none.symm.trans revised
    refine .settle index token snapshot false ?_ nofun (fun data _ => ?_)
      (taken_of_update (by rw [← saves]; rfl) rfl)
    · rw [taken, found, Option.bind_some, revised, Option.bind_some, captured]
      rfl
    · show ((before.dropGuard index).heap.setCell token.data _).cells data = _
      rw [cells]
      show Function.update (before.dropGuard index).heap.cells _ _ _ = _
      rw [cells]
      rfl

/-- A completed save acknowledges what it captured. -/
theorem accounts_complete (snapshots : before.Snapshots) {cookie : Option Cookie}
    (finishes : completes index) (step : before.complete index = some (cookie, after)) :
    before.Accounts resets completes reply after := by
  obtain ⟨middle, acknowledged, rfl⟩ := complete_cases step
  obtain ⟨save, token, found, revised, _, same⟩ := acknowledge_cases acknowledged
  obtain ⟨_, none⟩ | ⟨snapshot, captured, _⟩ := snapshots index save found
  · cases none.symm.trans revised
  obtain ⟨cells, saves⟩ := middle.cells_dropGuard index
  have nextCell : middle.heap.nextCell = before.heap.nextCell := by
    rw [same]
    rfl
  refine ⟨nextCell ▸ (middle.follows_dropGuard index).keeps.nextCell, fun session member => Or.inl ?_,
    .settle index token snapshot true ?_ (fun _ => finishes) (fun data _ => ?_)
      (taken_of_update (saves.trans (by rw [same]; rfl)) rfl)⟩
  · obtain ⟨twin, earlier, alike⟩ := (middle.follows_dropGuard index).live session member
    rw [live_congr (before.setSave index none) middle (by rw [same]) (by rw [same])
      (by rw [same])] at earlier
    have dropped : before.Follows (before.setSave index none) :=
      before.follows_setSave index none fun _ wrong => by cases wrong
    obtain ⟨older, first, alike'⟩ := dropped.live twin earlier
    exact ⟨older, first, alike'.data.trans alike.data⟩
  · rw [taken, found, Option.bind_some, revised, Option.bind_some, captured]
    rfl
  · rw [cells, same]
    rfl

theorem accounts_requestDelete (step : before.requestDelete index = some (reply, after)) :
    before.Accounts resets completes reply (after.dropHandle index) := by
  refine accounts_of_still ((follows_requestDelete step).trans (follows_dropHandle _ _)) ?_ ?_
  all_goals
    obtain ⟨session, _, _, rfl⟩ := requestDelete_cases step
  · exact fun _ _ => rfl
  · rfl

theorem accounts_grantDelete (step : before.grantDelete index = some (reply, after)) :
    before.Accounts resets completes reply after := by
  obtain ⟨deletion, _, _, _, ⟨_, _, _, same⟩ | ⟨target, heap, granted, _, same⟩⟩ :=
    grantDelete_cases step
  · exact accounts_of_still (follows_grantDelete step) (fun _ _ => by rw [same]; rfl)
      (by rw [same]; rfl)
  · refine accounts_of_still (follows_grantDelete step) (fun _ _ => ?_) (by rw [same]; rfl)
    rw [same, (Session.beginDelete_ok granted).2.1]
    rfl

theorem accounts_dropDelete : before.Accounts resets completes reply (before.dropDelete index) := by
  refine accounts_of_still (before.follows_dropDelete index) (fun _ _ => ?_) ?_
  · unfold dropDelete
    split
    · rfl
    · dsimp only
      split <;> rfl
  · unfold dropDelete
    split <;> rfl

end Process

/-! ### The ledger of a cell -/

/-- A ledger of a data cell in a process: the entries are the saves in progress that captured the
cell, in the order of their captures. The parameters say which values the cell may have begun with,
and which may have been confirmed since; the bound is one on its edits. -/
structure Ledger (begun confirmed : Values → Prop) (bound : Nat) (process : Process) (data : Ref)
    (tracking : Tracking) (values : Values) (revision : UInt64)
    (entries : List (Nat × Outstanding)) : Prop where
  heap : tracking.heap = process.heap
  tracked : Tracked data values revision tracking
  few : tracking.edits ≤ bound
  begun : begun values
  tokens : tracking.tokens = entries.map Prod.snd
  nodup : (entries.map Prod.fst).Nodup
  owned : ∀ index save, (index, save) ∈ entries →
    ∃ snapshot, process.taken index = some (save.token, snapshot) ∧ snapshot.data = save.values
  whole : ∀ index token snapshot, process.taken index = some (token, snapshot) →
    token.data = data → index ∈ entries.map Prod.fst
  confirmed : ∀ save, tracking.last = some save → save.acknowledged = true → confirmed save.values

/-- A data cell of which a ledger is kept. -/
def Process.Accounted (begun confirmed : Values → Prop) (bound : Nat) (process : Process) (data : Ref) :
    Prop :=
  ∃ tracking values revision entries,
    Ledger begun confirmed bound process data tracking values revision entries

namespace Ledger

variable {before after : Process} {index : Nat} {begun confirmed : Values → Prop} {bound : Nat}
  {data : Ref} {tracking : Tracking}
  {values : Values} {revision : UInt64} {entries : List (Nat × Outstanding)}

theorem cell (ledger : Ledger begun confirmed bound before data tracking values revision entries) :
    tracking.heap.cells data = before.heap.cells data := by
  rw [ledger.heap]

/-- An operation that leaves the cell alone, and what was captured from it. -/
theorem still (ledger : Ledger begun confirmed bound before data tracking values revision entries)
    (nextCell : before.heap.nextCell ≤ after.heap.nextCell)
    (cell : after.heap.cells data = before.heap.cells data)
    (same : ∀ index token snapshot, token.data = data →
      (after.taken index = some (token, snapshot) ↔ before.taken index = some (token, snapshot))) :
    Ledger begun confirmed bound after data { tracking with heap := after.heap } values revision
      entries where
  heap := rfl
  tracked := ledger.tracked.unchanged (ledger.heap ▸ nextCell) (cell.trans ledger.cell.symm)
  few := ledger.few
  begun := ledger.begun
  tokens := ledger.tokens
  nodup := ledger.nodup
  owned index save member := by
    obtain ⟨snapshot, captured, exact_⟩ := ledger.owned index save member
    have listed : save ∈ tracking.tokens := ledger.tokens ▸ List.mem_map_of_mem member
    exact ⟨snapshot, (same _ _ _ (ledger.tracked.tokens save listed).1).mpr captured, exact_⟩
  whole index token snapshot captured own :=
    ledger.whole index token snapshot ((same _ _ _ own).mp captured) own
  confirmed := ledger.confirmed

theorem edit (ledger : Ledger begun confirmed bound before data tracking values revision entries)
    {change : SessionData → SessionData} (edits : Edits change)
    (nextCell : before.heap.nextCell ≤ after.heap.nextCell)
    (cell : after.heap.cells data = change (before.heap.cells data))
    (taken : after.taken = before.taken) : after.Accounted begun confirmed (bound + 1) data := by
  rcases edits (before.heap.cells data) with same | ⟨next, newer, others⟩
  · have still := ledger.still nextCell (cell.trans same) (by rw [taken]; exact fun _ _ _ _ => Iff.rfl)
    exact ⟨_, _, _, _, { still with few := still.few.trans (Nat.le_succ _) }⟩
  · refine ⟨{ tracking with heap := after.heap, edits := tracking.edits + 1 }, values, revision,
      entries, rfl, ledger.tracked.edited (ledger.heap ▸ nextCell) ?_ ⟨newer, ?_⟩,
      Nat.succ_le_succ ledger.few, ledger.begun, ledger.tokens, ledger.nodup, ?_, ?_,
      ledger.confirmed⟩
    · rw [cell, ledger.cell]
      exact next
    · rw [cell, ledger.cell]
      exact others
    · rw [taken]
      exact ledger.owned
    · rw [taken]
      exact ledger.whole

theorem reset (ledger : Ledger begun confirmed bound before data tracking values revision entries)
    (nextCell : before.heap.nextCell ≤ after.heap.nextCell)
    (cell : after.heap.cells data = (before.heap.cells data).reset)
    (taken : after.taken = before.taken) (declared : confirmed (before.heap.cells data).values) :
    after.Accounted begun confirmed bound data := by
  refine ⟨_, values, revision, entries, rfl,
    ledger.tracked.reset (ledger.heap ▸ nextCell) (cell.trans (by rw [ledger.cell])), ledger.few,
    ledger.begun, ledger.tokens, ledger.nodup, ?_, ?_, fun save now _ => ?_⟩
  · rw [taken]
    exact ledger.owned
  · rw [taken]
    exact ledger.whole
  · obtain rfl := Option.some.inj now
    show confirmed (tracking.heap.cells data).values
    rw [ledger.cell]
    exact declared

theorem capture (ledger : Ledger begun confirmed bound before data tracking values revision entries)
    {snapshot : SessionSnapshot} (nextCell : before.heap.nextCell ≤ after.heap.nextCell)
    (cell : after.heap.cells data = (before.heap.cells data).capture)
    (exact_ : snapshot.data = (before.heap.cells data).values)
    (uncaptured : before.taken index = none)
    (taken : after.taken = Function.update before.taken index
      (some ({ data, revision := (before.heap.cells data).revision }, snapshot))) :
    after.Accounted begun confirmed bound data := by
  have captures : Captures data tracking.heap
      { data, revision := (before.heap.cells data).revision } snapshot.data after.heap :=
    ⟨ledger.heap ▸ nextCell, by rw [ledger.cell], by rw [ledger.cell, exact_],
      by rw [ledger.cell, cell]⟩
  have absent : index ∉ entries.map Prod.fst := by
    intro member
    obtain ⟨⟨key, save⟩, listed, rfl⟩ := List.mem_map.mp member
    obtain ⟨_, captured, _⟩ := ledger.owned key save listed
    cases uncaptured.symm.trans captured
  refine ⟨_, values, revision, (entries.map fun entry =>
    (entry.1, { entry.2 with overlapped := true })) ++
      [(index, { token := { data, revision := (before.heap.cells data).revision }
                 values := snapshot.data, edit := tracking.edits
                 overlapped := tracking.tokens ≠ [] })], rfl,
    ledger.tracked.captured captures, ledger.few, ledger.begun, ?_, ?_, ?_, ?_, ledger.confirmed⟩
  · show _ ++ [_] = _
    rw [List.map_append, ledger.tokens, List.map_map, List.map_map]
    rfl
  · rw [List.map_append, List.map_map]
    refine List.Nodup.append ledger.nodup (List.nodup_singleton _) ?_
    exact List.disjoint_singleton.mpr absent
  · intro key save member
    rw [taken]
    rcases List.mem_append.mp member with old | new
    · obtain ⟨⟨first, older⟩, listed, same⟩ := List.mem_map.mp old
      cases same
      obtain ⟨other, captured, values⟩ := ledger.owned first older listed
      refine ⟨other, (Function.update_of_ne ?_ _ _).trans captured, values⟩
      rintro rfl
      cases uncaptured.symm.trans captured
    · cases List.mem_singleton.mp new
      exact ⟨snapshot, Function.update_self _ _ _, rfl⟩
  · intro key token other captured own
    rw [taken] at captured
    rw [List.map_append, List.map_map]
    by_cases new : key = index
    · exact List.mem_append.mpr (Or.inr (List.mem_singleton.mpr new))
    · rw [Function.update_of_ne new] at captured
      exact List.mem_append.mpr (Or.inl (ledger.whole key token other captured own))

theorem settle (ledger : Ledger begun confirmed bound before data tracking values revision entries)
    {token : SaveRevision} {snapshot : SessionSnapshot} {acknowledged : Bool}
    (nextCell : before.heap.nextCell ≤ after.heap.nextCell)
    (captured : before.taken index = some (token, snapshot)) (own : token.data = data)
    (cell : after.heap.cells data = if acknowledged then
      (before.heap.cells data).acknowledge token.revision else (before.heap.cells data).release)
    (taken : after.taken = Function.update before.taken index none)
    (completed : acknowledged = true → confirmed snapshot.data) :
    after.Accounted begun confirmed bound data := by
  obtain ⟨⟨key, save⟩, listed, rfl⟩ := List.mem_map.mp (ledger.whole index token snapshot captured own)
  obtain ⟨position, inside, there⟩ := List.mem_iff_getElem.mp listed
  obtain ⟨other, same, exact_⟩ := ledger.owned key save listed
  cases captured.symm.trans same
  have found : tracking.tokens[position]? = some save := by
    rw [ledger.tokens, List.getElem?_map, List.getElem?_eq_getElem inside, there]
    rfl
  -- The other entries are those of the other saves.
  have keys : (key :: (entries.eraseIdx position).map Prod.fst).Perm (entries.map Prod.fst) := by
    have perm := (List.getElem_cons_eraseIdx_perm inside).map Prod.fst
    rwa [there] at perm
  obtain ⟨gone, nodup⟩ := List.nodup_cons.mp (keys.nodup_iff.mpr ledger.nodup)
  have nextCell : tracking.heap.nextCell ≤ after.heap.nextCell := ledger.heap ▸ nextCell
  refine ⟨_, values, revision, entries.eraseIdx position, rfl,
    ledger.tracked.finished found nextCell (cell.trans (by rw [ledger.cell])), ledger.few,
    ledger.begun, ?_, nodup, ?_, ?_, ?_⟩
  · show tracking.tokens.eraseIdx position = _
    rw [ledger.tokens, List.eraseIdx_map]
  · intro index remaining member
    obtain ⟨first, before', values⟩ := ledger.owned index remaining (List.mem_of_mem_eraseIdx member)
    refine ⟨first, ?_, values⟩
    rw [taken]
    refine (Function.update_of_ne ?_ _ _).trans before'
    rintro rfl
    exact gone (List.mem_map_of_mem member)
  · intro index left kept still mine
    rw [taken] at still
    rcases eq_or_ne index key with rfl | different
    · cases (Function.update_self _ _ _).symm.trans still
    · rw [Function.update_of_ne different] at still
      have before' := keys.mem_iff.mpr (ledger.whole index left kept still mine)
      exact (List.mem_cons.mp before').resolve_left different
  · intro last now finished
    obtain rfl := Option.some.inj now
    show confirmed save.values
    rw [← exact_]
    exact completed finished

theorem mono (ledger : Ledger begun confirmed bound before data tracking values revision entries)
    {begun' confirmed' : Values → Prop} {bound' : Nat} (starts : ∀ values, begun values → begun' values)
    (ends : ∀ values, confirmed values → confirmed' values) (more : bound ≤ bound') :
    Ledger begun' confirmed' bound' before data tracking values revision entries :=
  { ledger with
    few := ledger.few.trans more
    begun := starts _ ledger.begun
    confirmed := fun save last acknowledged => ends _ (ledger.confirmed save last acknowledged) }

/-- Every effect keeps the ledger of a cell. -/
theorem effect (ledger : Ledger begun confirmed bound before data tracking values revision entries)
    {resets : Ref → Prop} {completes : Nat → Prop} (allocated : data < before.heap.nextCell)
    (nextCell : before.heap.nextCell ≤ after.heap.nextCell)
    (effect : Process.Effect resets completes before after)
    (declared : resets data → confirmed (before.heap.cells data).values)
    (completed : ∀ index token snapshot, completes index →
      before.taken index = some (token, snapshot) → token.data = data → confirmed snapshot.data) :
    after.Accounted begun confirmed (bound + 1) data := by
  have more : ∀ {process : Process}, process.Accounted begun confirmed bound data →
      process.Accounted begun confirmed (bound + 1) data := by
    rintro process ⟨_, _, _, _, kept⟩
    exact ⟨_, _, _, _, kept.mono (fun _ => id) (fun _ => id) (Nat.le_succ _)⟩
  have stays : ∀ {ref : Ref} {cell : SessionData}, data ≠ ref →
      after.heap.cells data = Function.update before.heap.cells ref cell data →
        after.heap.cells data = before.heap.cells data :=
    fun different cells => cells.trans (Function.update_of_ne different _ _)
  cases effect with
  | still cells taken =>
    exact more ⟨_, _, _, _, ledger.still nextCell (cells data allocated)
      (by rw [taken]; exact fun _ _ _ _ => Iff.rfl)⟩
  | edit ref change edits cells taken =>
    rcases eq_or_ne data ref with rfl | different
    · exact ledger.edit edits nextCell ((cells data allocated).trans (Function.update_self _ _ _)) taken
    · exact more ⟨_, _, _, _, ledger.still nextCell (stays different (cells data allocated))
        (by rw [taken]; exact fun _ _ _ _ => Iff.rfl)⟩
  | reset ref resets cells taken =>
    rcases eq_or_ne data ref with rfl | different
    · exact more (ledger.reset nextCell ((cells data allocated).trans (Function.update_self _ _ _))
        taken (declared resets))
    · exact more ⟨_, _, _, _, ledger.still nextCell (stays different (cells data allocated))
        (by rw [taken]; exact fun _ _ _ _ => Iff.rfl)⟩
  | capture index ref snapshot _ exact_ uncaptured cells taken =>
    rcases eq_or_ne data ref with rfl | different
    · exact more (ledger.capture nextCell ((cells data allocated).trans (Function.update_self _ _ _))
        exact_ uncaptured taken)
    refine more ⟨_, _, _, _, ledger.still nextCell (stays different (cells data allocated))
      fun key token other own => ?_⟩
    rw [taken]
    rcases eq_or_ne key index with rfl | elsewhere
    · rw [Function.update_self, uncaptured]
      refine iff_of_false (fun same => ?_) nofun
      cases same
      exact different own.symm
    · rw [Function.update_of_ne elsewhere]
  | settle index token snapshot acknowledged captured completes cells taken =>
    rcases eq_or_ne data token.data with rfl | different
    · exact more (ledger.settle nextCell captured rfl
        ((cells _ allocated).trans (Function.update_self _ _ _)) taken fun acknowledged =>
          completed index token snapshot (completes acknowledged) captured rfl)
    refine more ⟨_, _, _, _, ledger.still nextCell (stays different (cells data allocated))
      fun key other wire own => ?_⟩
    rw [taken]
    rcases eq_or_ne key index with rfl | elsewhere
    · rw [Function.update_self, captured]
      refine iff_of_false nofun fun same => ?_
      cases same
      exact different own.symm
    · rw [Function.update_of_ne elsewhere]

end Ledger

/-! ### The ledgers of a process -/

/-- A ledger is kept of the cell of every live session. -/
structure Process.KeepsAccounts (begun confirmed : Ref → Values → Prop) (bound : Nat)
    (process : Process) : Prop where
  cells : ∀ session, process.Live session →
    process.Accounted (begun session.data) (confirmed session.data) bound session.data
  allocated : ∀ index token snapshot, process.taken index = some (token, snapshot) →
    token.data < process.heap.nextCell

namespace Process.KeepsAccounts

variable {before after : Process} {reply : Reply} {begun confirmed : Ref → Values → Prop} {bound : Nat}

theorem initial (begun confirmed : Ref → Values → Prop) :
    Process.initial.KeepsAccounts begun confirmed 0 where
  cells := by rintro _ (found | found | found) <;> cases found
  allocated := nofun

/-- Every operation keeps the ledgers, and opens one for the session it hands out. -/
theorem accounts (keeps : before.KeepsAccounts begun confirmed bound) {resets : Ref → Prop}
    {completes : Nat → Prop} (accounts : before.Accounts resets completes reply after)
    {begun' confirmed' : Ref → Values → Prop}
    (starts : ∀ data values, begun data values → begun' data values)
    (ends : ∀ data values, confirmed data values → confirmed' data values)
    (entered : ∀ session values, before.Entered reply after session values →
      begun' session.data values)
    (declared : ∀ data, resets data → confirmed' data (before.heap.cells data).values)
    (completed : ∀ index token snapshot, completes index →
      before.taken index = some (token, snapshot) → confirmed' token.data snapshot.data) :
    after.KeepsAccounts begun' confirmed' (bound + 1) where
  cells session member := by
    rcases accounts.live session member with ⟨older, earlier, same⟩ | ⟨values, enters⟩
    · rw [← same]
      obtain ⟨tracking, values, revision, entries, ledger⟩ := keeps.cells older earlier
      have allocated : older.data < before.heap.nextCell := ledger.heap ▸ ledger.tracked.allocated
      refine (ledger.mono (starts _) (ends _) le_rfl).effect allocated accounts.nextCell
        accounts.effect (declared _) fun index token snapshot finishes captured own => ?_
      rw [← own]
      exact completed index token snapshot finishes captured
    · refine ⟨_, values, 0, [], rfl, Tracked.ofValues enters.allocated enters.cell, Nat.zero_le _,
        entered session values enters, rfl, List.nodup_nil, nofun,
        fun index token snapshot captured own => ?_, nofun⟩
      -- What a save in progress has captured is older than the new cell.
      have old := (accounts.effect.taken_cases captured).elim
        (keeps.allocated index token snapshot) id
      exact absurd (own ▸ old) (Nat.not_lt_of_ge enters.new)
  allocated index token snapshot captured :=
    ((accounts.effect.taken_cases captured).elim (keeps.allocated index token snapshot) id).trans_le
      accounts.nextCell

/-- A cell of fewer than 2^64 edits that reports no change holds what it began with, or what was
confirmed. -/
theorem clean (keeps : before.KeepsAccounts begun confirmed bound) (few : bound < 2 ^ 64)
    {session : Session} (live : before.Live session)
    (clean : (session.sessionData before.heap).changed = false) :
    begun session.data (session.sessionData before.heap).values ∨
      confirmed session.data (session.sessionData before.heap).values := by
  obtain ⟨tracking, values, revision, entries, ledger⟩ := keeps.cells session live
  have cell := ledger.cell
  obtain ⟨unsaved, saved⟩ := ledger.tracked.clean (ledger.few.trans_lt few) (by rw [cell]; exact clean)
  rw [cell] at unsaved saved
  cases last : tracking.last with
  | none =>
    rw [Session.sessionData, unsaved last]
    exact Or.inl ledger.begun
  | some save =>
    obtain ⟨acknowledged, _, same⟩ := saved save last
    rw [Session.sessionData, same]
    exact Or.inr (ledger.confirmed save last acknowledged)

/-- The active saves of a cell are the saves in progress that captured it, each counted once. -/
theorem active (keeps : before.KeepsAccounts begun confirmed bound) (snapshots : before.Snapshots)
    {session : Session} (live : before.Live session) : ∃ indices : List Nat, indices.Nodup ∧
      (∀ index, index ∈ indices ↔ ∃ save token, before.saves index = some save ∧
        save.revision = some token ∧ token.data = session.data) ∧
      (session.sessionData before.heap).activeSaves = indices.length := by
  obtain ⟨tracking, values, revision, entries, ledger⟩ := keeps.cells session live
  refine ⟨entries.map Prod.fst, ledger.nodup, fun index => ⟨fun member => ?_, ?_⟩, ?_⟩
  · obtain ⟨⟨key, save⟩, listed, rfl⟩ := List.mem_map.mp member
    obtain ⟨_, captured, _⟩ := ledger.owned key save listed
    obtain ⟨owner, found, revised, _⟩ := save_of_taken captured
    have tokens : save ∈ tracking.tokens := ledger.tokens ▸ List.mem_map_of_mem listed
    exact ⟨owner, save.token, found, revised, (ledger.tracked.tokens save tokens).1⟩
  · rintro ⟨save, token, found, revised, own⟩
    obtain ⟨_, none⟩ | ⟨snapshot, captured, _⟩ := snapshots index save found
    · cases none.symm.trans revised
    refine ledger.whole index token snapshot ?_ own
    rw [taken, found, Option.bind_some, revised, Option.bind_some, captured]
    rfl
  · rw [List.length_map, Session.sessionData, ← ledger.cell, ledger.tracked.active, ledger.tokens,
      List.length_map]

end Process.KeepsAccounts

/-! ### The accounts of a machine -/

section Machine

variable {State Action : Type} (machine : Machine State Action Reply) (process : State → Process)
  (resets : State → Action → Ref → Prop) (completes : State → Action → Nat → Prop)

/-- A session was handed out with this cell, which held these values. -/
def Machine.Begins (data : Ref) (values : Values) (before : State) (_ : Action) (reply : Reply)
    (after : State) : Prop :=
  ∃ session, (process before).Entered reply (process after) session values ∧ session.data = data

/-- The application declared the cell unchanged while it held these values. -/
def Machine.Declares (data : Ref) (values : Values) (before : State) (action : Action) (_ : Reply)
    (_ : State) : Prop :=
  resets before action data ∧ ((process before).heap.cells data).values = values

/-- A save that had captured these values of the cell was completed. -/
def Machine.Confirms (data : Ref) (values : Values) (before : State) (action : Action) (_ : Reply)
    (_ : State) : Prop :=
  ∃ index token snapshot, completes before action index ∧
    (process before).taken index = some (token, snapshot) ∧ token.data = data ∧ snapshot.data = values

/-- A machine around a process, each of whose steps is one operation as far as the data cells are
concerned. -/
structure Machine.Books : Prop where
  initial : ∀ state, machine.init state → process state = Process.initial
  accounts : ∀ {state action reply next}, machine.Reachable state →
    machine.step state action = some (reply, next) →
      (process state).Accounts (resets state action) (completes state action) reply (process next)

variable {machine process resets completes}

/-- In every run of such a machine the ledgers are kept. -/
theorem Machine.Books.run (books : machine.Books process resets completes) {start state : State}
    {trace : List (Action × Reply)} (initially : machine.init start)
    (run : machine.Run start trace state) :
    (process state).KeepsAccounts
      (fun data values => machine.Happened (Machine.Begins process data values) start trace state)
      (fun data values =>
        machine.Happened (Machine.Declares process resets data values) start trace state ∨
          machine.Happened (Machine.Confirms process completes data values) start trace state)
      trace.length := by
  induction run with
  | refl =>
    rw [books.initial start initially]
    exact .initial _ _
  | tail earlier step keeps =>
    refine keeps.accounts (books.accounts ⟨start, _, initially, earlier⟩ step)
      (fun _ _ began => began.tail step)
      (fun _ _ confirmed => confirmed.imp (·.tail step) (·.tail step)) ?_ ?_ ?_
    · exact fun session _ entered => .now earlier step ⟨session, entered, rfl⟩
    · exact fun _ declared => Or.inl (.now earlier step ⟨declared, rfl⟩)
    · exact fun index token snapshot completes captured =>
        Or.inr (.now earlier step ⟨index, token, snapshot, completes, captured, rfl, rfl⟩)

end Machine

end Saysion
