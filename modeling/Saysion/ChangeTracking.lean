/-
This file proves that change tracking never reports a false clean, and always
recovers. It follows one data cell through every interleaving of edits and of
saves that capture it, by any of the three capture paths and through any clone.

A run keeps a ledger beside the heap: the tokens that are outstanding, with what
they captured, and the save that finished last. The code does not read it. The
proof ties the five fields of the cell to the ledger: a cohort is alone exactly
while `overlapping_saves` is false, and while `uncertain_save` is false the
persisted revision is that of the last save, which was acknowledged alone.
-/

import Saysion.Machine
import Saysion.Session

namespace Saysion

/-- A captured save that has not finished: its token, the values it captured, how many edits
there were before, and whether another save was outstanding at some moment since. -/
structure Outstanding where
  token : SaveRevision
  values : Values
  edit : Nat
  overlapped : Bool

/-- A save that was acknowledged or dropped. -/
structure Finished where
  values : Values
  edit : Nat
  acknowledged : Bool
  overlapped : Bool

/-- A heap, and the ledger of one of its data cells. -/
structure Tracking where
  heap : Heap
  tokens : List Outstanding
  last : Option Finished
  edits : Nat

/-- The events of change tracking. The clones are handles that share the cell; `fits` tells
whether the payload of `serialize_bounded` fits the buffer. -/
inductive TrackAction
  | insertRaw (clone : Session) (key value : String)
  | remove (clone : Session) (key : String)
  | persistenceSnapshot (clone : Session)
  | immutableSnapshot (clone : Session)
  | serializeBounded (clone : Session) (fits : Bool)
  | acknowledge (index : Nat)
  | drop (index : Nat)

inductive TrackReply
  | unchanged
  | edited
  | captured
  | tooSmall
  | finished
  deriving DecidableEq

namespace Tracking

/-- The heap after an edit, which counts when it changed the cell. -/
def edit (tracking : Tracking) (data : Ref) (heap : Heap) : TrackReply × Tracking :=
  if heap.cells data = tracking.heap.cells data then (.unchanged, { tracking with heap })
  else (.edited, { tracking with heap, edits := tracking.edits + 1 })

/-- The heap after a capture, with the new token in the ledger. -/
def capture (tracking : Tracking) (token : SaveRevision) (values : Values) (heap : Heap) :
    TrackReply × Tracking :=
  (.captured,
    { tracking with
      heap
      tokens := (tracking.tokens.map fun older => { older with overlapped := true }) ++
        [{ token, values, edit := tracking.edits, overlapped := tracking.tokens ≠ [] }] })

/-- The heap after a save has finished, with the ledger closed. -/
def finish (tracking : Tracking) (index : Nat) (save : Outstanding) (acknowledged : Bool)
    (heap : Heap) : TrackReply × Tracking :=
  (.finished,
    { tracking with
      heap
      tokens := tracking.tokens.eraseIdx index
      last := some { values := save.values, edit := save.edit, acknowledged,
                     overlapped := save.overlapped } })

def step (data : Ref) (tracking : Tracking) : TrackAction → Option (TrackReply × Tracking)
  | .insertRaw clone key value =>
    if clone.data = data then
      some (tracking.edit data (clone.insertRaw tracking.heap key value))
    else none
  | .remove clone key =>
    if clone.data = data then some (tracking.edit data (clone.remove tracking.heap key)) else none
  | .persistenceSnapshot clone =>
    if clone.data = data then
      let ((snapshot, token), heap) := clone.persistenceSnapshot tracking.heap
      some (tracking.capture token (snapshot.sessionData heap).values heap)
    else none
  | .immutableSnapshot clone =>
    if clone.data = data then
      let ((snapshot, token), heap) := clone.immutableSnapshot tracking.heap
      some (tracking.capture token snapshot.data heap)
    else none
  | .serializeBounded clone fits =>
    if clone.data = data then
      match clone.serializeBounded (fun wire => if fits then some wire else none) tracking.heap with
      | none => some (.tooSmall, tracking)
      | some ((payload, token), heap) => some (tracking.capture token payload.data heap)
    else none
  | .acknowledge index => do
    let save ← tracking.tokens[index]?
    return tracking.finish index save true (save.token.acknowledge tracking.heap)
  | .drop index => do
    let save ← tracking.tokens[index]?
    return tracking.finish index save false (save.token.drop tracking.heap)

end Tracking

/-- The runs of change tracking on one cell. It starts clean, with no save in progress. -/
def changeTracking (data : Ref) : Machine Tracking TrackAction TrackReply where
  init tracking := data < tracking.heap.nextCell ∧ (tracking.heap.cells data).activeSaves = 0 ∧
    (tracking.heap.cells data).changed = false ∧ tracking.tokens = [] ∧ tracking.last = none ∧
      tracking.edits = 0
  step := Tracking.step data

/-! ### The three capture paths -/

/-- A capture of a cell: the values it had, a token of its revision, and the cell that remembers
the capture. -/
structure Captures (data : Ref) (before : Heap) (token : SaveRevision) (values : Values)
    (after : Heap) : Prop where
  nextCell : before.nextCell ≤ after.nextCell
  token : token = { data, revision := (before.cells data).revision }
  values : values = (before.cells data).values
  cell : after.cells data = (before.cells data).capture

theorem captures_persistenceSnapshot {heap : Heap} {clone : Session}
    (allocated : clone.data < heap.nextCell) :
    Captures clone.data heap (clone.persistenceSnapshot heap).1.2
      ((clone.persistenceSnapshot heap).1.1.sessionData (clone.persistenceSnapshot heap).2).values
      (clone.persistenceSnapshot heap).2 := by
  have copied : (clone.snapshot heap).2.cells clone.data = heap.cells clone.data :=
    Heap.allocCell_of_lt _ _ allocated
  refine ⟨Nat.le_succ _, ?_, ?_, ?_⟩
  · exact congrArg (fun cell => SaveRevision.mk clone.data cell.revision) copied
  · show (((clone.snapshot heap).2.setCell clone.data _).cells heap.nextCell).values = _
    rw [Heap.setCell_of_ne _ _ _ (Nat.ne_of_gt allocated)]
    show (((heap.allocFamily _).allocCell _).cells heap.nextCell).values = _
    rw [← Heap.allocFamily_nextCell heap { destroy := clone.isDestroyed heap }, Heap.allocCell_self]
    rfl
  · exact (Heap.setCell_self _ _ _).trans (congrArg SessionData.capture copied)

theorem captures_immutableSnapshot (heap : Heap) (clone : Session) :
    Captures clone.data heap (clone.immutableSnapshot heap).1.2
      (clone.immutableSnapshot heap).1.1.data (clone.immutableSnapshot heap).2 :=
  ⟨le_rfl, rfl, rfl, Heap.setCell_self _ _ _⟩

theorem captures_serializeBounded {heap after : Heap} {clone : Session} {fits : Bool}
    {payload : SessionSnapshot} {token : SaveRevision}
    (serialized : clone.serializeBounded (fun wire => if fits then some wire else none) heap =
      some ((payload, token), after)) :
    Captures clone.data heap token payload.data after := by
  cases fits with
  | false => cases serialized
  | true =>
    cases serialized
    exact ⟨le_rfl, rfl, rfl, Heap.setCell_self _ _ _⟩

/-! ### What a step does -/

/-- An edit of a cell leaves it as it was, or changes its values and counts one revision. -/
def Edits (change : SessionData → SessionData) : Prop :=
  ∀ cell, change cell = cell ∨ (change cell).revision = cell.revision + 1 ∧
    ∃ newer, change cell = { cell with values := newer, revision := (change cell).revision }

theorem edits_insertRaw (key value : String) : Edits fun cell => cell.insertRaw key value := by
  intro cell
  dsimp only [SessionData.insertRaw]
  split
  · exact Or.inl rfl
  · exact Or.inr ⟨rfl, _, rfl⟩

theorem edits_remove (key : String) : Edits fun cell => cell.remove key := by
  intro cell
  dsimp only [SessionData.remove]
  split
  · exact Or.inr ⟨rfl, _, rfl⟩
  · exact Or.inl rfl

/-- An event is an edit through a clone, a capture by one of the three paths, a payload that does
not fit, or the end of an outstanding save. -/
theorem Tracking.step_cases {data : Ref} {tracking after : Tracking} {action : TrackAction}
    {reply : TrackReply} (allocated : data < tracking.heap.nextCell)
    (step : tracking.step data action = some (reply, after)) :
    (∃ (clone : Session) (change : SessionData → SessionData), clone.data = data ∧ Edits change ∧
      tracking.edit data (clone.editData tracking.heap change) = (reply, after)) ∨
    (∃ token values heap, Captures data tracking.heap token values heap ∧
      tracking.capture token values heap = (reply, after)) ∨
    (reply = .tooSmall ∧ after = tracking) ∨
    ∃ index save acknowledged, tracking.tokens[index]? = some save ∧
      tracking.finish index save acknowledged
        (if acknowledged then save.token.acknowledge tracking.heap
          else save.token.drop tracking.heap) = (reply, after) := by
  cases action with
  | insertRaw clone key value =>
    simp only [Tracking.step, Option.ite_none_right_eq_some] at step
    obtain ⟨own, step⟩ := step
    exact Or.inl ⟨clone, _, own, edits_insertRaw key value, Option.some.inj step⟩
  | remove clone key =>
    simp only [Tracking.step, Option.ite_none_right_eq_some] at step
    obtain ⟨own, step⟩ := step
    exact Or.inl ⟨clone, _, own, edits_remove key, Option.some.inj step⟩
  | persistenceSnapshot clone =>
    simp only [Tracking.step, Option.ite_none_right_eq_some] at step
    obtain ⟨rfl, step⟩ := step
    exact Or.inr (Or.inl ⟨_, _, _, captures_persistenceSnapshot allocated, Option.some.inj step⟩)
  | immutableSnapshot clone =>
    simp only [Tracking.step, Option.ite_none_right_eq_some] at step
    obtain ⟨rfl, step⟩ := step
    exact Or.inr (Or.inl ⟨_, _, _, captures_immutableSnapshot _ _, Option.some.inj step⟩)
  | serializeBounded clone fits =>
    simp only [Tracking.step, Option.ite_none_right_eq_some] at step
    obtain ⟨rfl, step⟩ := step
    split at step
    · cases step
      exact Or.inr (Or.inr (Or.inl ⟨rfl, rfl⟩))
    · rename_i payload token heap serialized
      exact Or.inr (Or.inl ⟨_, _, _, captures_serializeBounded serialized, Option.some.inj step⟩)
  | acknowledge index =>
    simp only [Tracking.step, Option.bind_eq_bind, Option.bind_eq_some_iff] at step
    obtain ⟨save, found, step⟩ := step
    exact Or.inr (Or.inr (Or.inr ⟨index, save, true, found, Option.some.inj step⟩))
  | drop index =>
    simp only [Tracking.step, Option.bind_eq_bind, Option.bind_eq_some_iff] at step
    obtain ⟨save, found, step⟩ := step
    exact Or.inr (Or.inr (Or.inr ⟨index, save, false, found, Option.some.inj step⟩))

/-- An event that answers `captured` is a capture by one of the three paths. -/
theorem captures_of_step {data : Ref} {tracking after : Tracking} {action : TrackAction}
    (allocated : data < tracking.heap.nextCell)
    (step : tracking.step data action = some (.captured, after)) :
    ∃ token values heap, Captures data tracking.heap token values heap ∧
      after = (tracking.capture token values heap).2 := by
  rcases Tracking.step_cases allocated step with
    ⟨clone, change, _, _, edit⟩ | ⟨token, values, heap, captures, capture⟩ | ⟨tooSmall, _⟩ |
      ⟨index, save, acknowledged, _, finish⟩
  · unfold Tracking.edit at edit
    split at edit <;> cases edit
  · exact ⟨token, values, heap, captures, (congrArg Prod.snd capture).symm⟩
  · cases tooSmall
  · cases finish

/-! ### The cell and the ledger -/

/-- What the ledger says about the cell, given the values and the revision it started with. -/
structure Tracked (data : Ref) (values : Values) (revision : UInt64) (tracking : Tracking) :
    Prop where
  allocated : data < tracking.heap.nextCell
  active : (tracking.heap.cells data).activeSaves = tracking.tokens.length
  current : (tracking.heap.cells data).revision = revision + UInt64.ofNat tracking.edits
  tokens : ∀ save ∈ tracking.tokens, save.token.data = data ∧ save.edit ≤ tracking.edits ∧
    save.token.revision = revision + UInt64.ofNat save.edit ∧
      (save.edit = tracking.edits → save.values = (tracking.heap.cells data).values)
  /-- Without an overlap since the last capture, at most one save is outstanding. -/
  alone : (tracking.heap.cells data).overlappingSaves = false →
    tracking.tokens.length ≤ 1 ∧ ∀ save ∈ tracking.tokens, save.overlapped = false
  last : ∀ save, tracking.last = some save → save.edit ≤ tracking.edits ∧
    (save.edit = tracking.edits → save.values = (tracking.heap.cells data).values)
  untouched : tracking.edits = 0 → (tracking.heap.cells data).values = values
  /-- Without uncertainty, the persisted revision is that of the last save. -/
  certain : (tracking.heap.cells data).uncertainSave = false →
    (tracking.last = none →
      (tracking.heap.cells data).persistedRevision = revision) ∧
    ∀ save, tracking.last = some save → save.acknowledged = true ∧ save.overlapped = false ∧
      (tracking.heap.cells data).persistedRevision = revision + UInt64.ofNat save.edit

namespace Tracked

variable {data : Ref} {values : Values} {revision : UInt64} {tracking after : Tracking}

theorem initial (start : (changeTracking data).init tracking) :
    Tracked data (tracking.heap.cells data).values (tracking.heap.cells data).revision
      tracking := by
  obtain ⟨allocated, inactive, clean, none, unfinished, unedited⟩ := start
  obtain ⟨_, persisted⟩ := SessionData.changed_eq_false.mp clean
  constructor
  · exact allocated
  · rw [inactive, none]
    rfl
  · simp [unedited]
  · simp [none]
  · simp [none]
  · simp [unfinished]
  · exact fun _ => rfl
  · simp [unfinished, persisted]

/-- An event that leaves the cell and the ledger as they were. -/
theorem unchanged (tracked : Tracked data values revision tracking) {heap : Heap}
    (nextCell : tracking.heap.nextCell ≤ heap.nextCell)
    (same : heap.cells data = tracking.heap.cells data) :
    Tracked data values revision { tracking with heap } := by
  obtain ⟨allocated, active, current, tokens, alone, last, untouched, certain⟩ := tracked
  refine ⟨allocated.trans_le nextCell, ?_, ?_, ?_, ?_, ?_, ?_, ?_⟩ <;> simp only [same]
  all_goals assumption

/-- An edit: the values and the revision change, and nothing captured is current any more. -/
theorem edited (tracked : Tracked data values revision tracking) {heap : Heap}
    (nextCell : tracking.heap.nextCell ≤ heap.nextCell)
    (next : (heap.cells data).revision = (tracking.heap.cells data).revision + 1)
    (others : ∃ newer, heap.cells data = { tracking.heap.cells data with
      values := newer, revision := (heap.cells data).revision }) :
    Tracked data values revision { tracking with heap, edits := tracking.edits + 1 } := by
  obtain ⟨newer, cell⟩ := others
  obtain ⟨allocated, active, current, tokens, alone, last, untouched, certain⟩ := tracked
  have active' : (heap.cells data).activeSaves = (tracking.heap.cells data).activeSaves := by
    rw [cell]
  have overlapping : (heap.cells data).overlappingSaves =
      (tracking.heap.cells data).overlappingSaves := by rw [cell]
  have uncertain : (heap.cells data).uncertainSave = (tracking.heap.cells data).uncertainSave := by
    rw [cell]
  have persisted : (heap.cells data).persistedRevision =
      (tracking.heap.cells data).persistedRevision := by rw [cell]
  constructor
  · exact allocated.trans_le nextCell
  · exact active'.trans active
  · show (heap.cells data).revision = revision + UInt64.ofNat (tracking.edits + 1)
    rw [next, current, UInt64.add_assoc]
    simp [UInt64.ofNat_add]
  · intro save member
    obtain ⟨own, older, captured, _⟩ := tokens save member
    exact ⟨own, Nat.le_succ_of_le older, captured,
      fun same => absurd (same ▸ older) (Nat.not_succ_le_self _)⟩
  · intro single
    exact alone (overlapping.symm.trans single)
  · intro save finished
    obtain ⟨older, _⟩ := last save finished
    exact ⟨Nat.le_succ_of_le older, fun same => absurd (same ▸ older) (Nat.not_succ_le_self _)⟩
  · intro zero
    cases zero
  · intro sure
    show (tracking.last = none → (heap.cells data).persistedRevision = revision) ∧
      ∀ save, tracking.last = some save → save.acknowledged = true ∧ save.overlapped = false ∧
        (heap.cells data).persistedRevision = revision + UInt64.ofNat save.edit
    rw [persisted]
    exact certain (uncertain.symm.trans sure)

/-- A capture of the current values. -/
theorem captured (tracked : Tracked data values revision tracking) {heap : Heap}
    {token : SaveRevision} {taken : Values} (captures : Captures data tracking.heap token taken heap) :
    Tracked data values revision (tracking.capture token taken heap).2 := by
  obtain ⟨nextCell, own, same, cell⟩ := captures
  subst same
  obtain ⟨allocated, active, current, tokens, alone, last, untouched, certain⟩ := tracked
  constructor
  · exact allocated.trans_le nextCell
  · show (heap.cells data).activeSaves = _
    rw [cell]
    simp [SessionData.capture, Tracking.capture, active]
  · show (heap.cells data).revision = _
    rw [cell]
    exact current
  · intro save member
    show save.token.data = data ∧ save.edit ≤ tracking.edits ∧
      save.token.revision = revision + UInt64.ofNat save.edit ∧
        (save.edit = tracking.edits → save.values = (heap.cells data).values)
    rw [cell]
    simp only [Tracking.capture, List.mem_append, List.mem_map, List.mem_singleton] at member
    rcases member with ⟨older, found, rfl⟩ | rfl
    · exact tokens older found
    · rw [own]
      exact ⟨rfl, le_rfl, current, fun _ => rfl⟩
  · intro single
    have empty : tracking.tokens = [] := by
      have inactive : (tracking.heap.cells data).activeSaves = 0 := by
        have flag : (heap.cells data).overlappingSaves = false := single
        rw [cell] at flag
        simpa [SessionData.capture] using flag
      exact List.eq_nil_of_length_eq_zero (active.symm.trans inactive)
    simp [Tracking.capture, empty]
  · intro save finished
    show save.edit ≤ tracking.edits ∧
      (save.edit = tracking.edits → save.values = (heap.cells data).values)
    rw [cell]
    exact last save finished
  · intro zero
    show (heap.cells data).values = values
    rw [cell]
    exact untouched zero
  · intro sure
    have before : (tracking.heap.cells data).uncertainSave = false := by
      have flag : (heap.cells data).uncertainSave = false := sure
      rw [cell] at flag
      simp only [SessionData.capture, Bool.or_eq_false_iff] at flag
      exact flag.1
    show (tracking.last = none → (heap.cells data).persistedRevision = revision) ∧
      ∀ save, tracking.last = some save → save.acknowledged = true ∧ save.overlapped = false ∧
        (heap.cells data).persistedRevision = revision + UInt64.ofNat save.edit
    rw [cell]
    exact certain before

/-- A save finishes. If it was acknowledged alone it leaves the cell certain, and otherwise
uncertain. -/
theorem finished (tracked : Tracked data values revision tracking) {index : Nat} {save : Outstanding}
    {acknowledged : Bool} {heap : Heap} (found : tracking.tokens[index]? = some save)
    (nextCell : tracking.heap.nextCell ≤ heap.nextCell)
    (cell : heap.cells data = if acknowledged then
      (tracking.heap.cells data).acknowledge save.token.revision
      else (tracking.heap.cells data).release) :
    Tracked data values revision (tracking.finish index save acknowledged heap).2 := by
  obtain ⟨allocated, active, current, tokens, alone, last, untouched, certain⟩ := tracked
  have member : save ∈ tracking.tokens := List.mem_of_getElem? found
  have inside : index < tracking.tokens.length := (List.getElem?_eq_some_iff.mp found).1
  have sameValues : (heap.cells data).values = (tracking.heap.cells data).values := by
    rw [cell]
    split <;> simp
  have sameRevision : (heap.cells data).revision = (tracking.heap.cells data).revision := by
    rw [cell]
    split
    · unfold SessionData.acknowledge
      split <;> rfl
    · rfl
  have sameOverlap : (heap.cells data).overlappingSaves =
      (tracking.heap.cells data).overlappingSaves := by
    rw [cell]
    split
    · unfold SessionData.acknowledge
      split <;> rfl
    · rfl
  have fewer : (heap.cells data).activeSaves = (tracking.heap.cells data).activeSaves - 1 := by
    rw [cell]
    split
    · unfold SessionData.acknowledge
      split <;> rfl
    · rfl
  constructor
  · exact allocated.trans_le nextCell
  · show (heap.cells data).activeSaves = (tracking.tokens.eraseIdx index).length
    rw [fewer, active, List.length_eraseIdx_of_lt inside]
  · exact sameRevision.trans current
  · intro other remaining
    show _ ∧ _ ∧ _ ∧ (_ → other.values = (heap.cells data).values)
    rw [sameValues]
    exact tokens other (List.mem_of_mem_eraseIdx remaining)
  · intro single
    obtain ⟨short, separate⟩ := alone (sameOverlap.symm.trans single)
    refine ⟨?_, fun other remaining => separate other (List.mem_of_mem_eraseIdx remaining)⟩
    exact (List.length_eraseIdx_le _ _).trans short
  · intro other now
    obtain rfl := Option.some.inj now
    show save.edit ≤ tracking.edits ∧
      (save.edit = tracking.edits → save.values = (heap.cells data).values)
    rw [sameValues]
    exact ⟨(tokens save member).2.1, (tokens save member).2.2.2⟩
  · intro zero
    exact sameValues.trans (untouched zero)
  · intro sure
    have sure : (heap.cells data).uncertainSave = false := sure
    refine ⟨fun none => (by cases none), fun other now => ?_⟩
    obtain rfl := Option.some.inj now
    show acknowledged = true ∧ save.overlapped = false ∧
      (heap.cells data).persistedRevision = revision + UInt64.ofNat save.edit
    rw [cell] at sure ⊢
    cases acknowledged with
    | false => cases sure
    | true =>
      simp only [if_true, SessionData.acknowledge] at sure ⊢
      split at sure
      · cases sure
      · rename_i single
        rw [if_neg single]
        have separate := (alone (by simpa using single)).2 save member
        exact ⟨trivial, separate, (tokens save member).2.2.1⟩

/-- An edit of the cell through a clone. -/
theorem edit (tracked : Tracked data values revision tracking) {clone : Session}
    (own : clone.data = data) {change : SessionData → SessionData} (edits : Edits change) :
    Tracked data values revision
      (tracking.edit data (clone.editData tracking.heap change)).2 := by
  subst own
  have cell : (clone.editData tracking.heap change).cells clone.data =
      change (tracking.heap.cells clone.data) := Heap.setCell_self _ _ _
  unfold Tracking.edit
  split
  · rename_i same
    exact tracked.unchanged le_rfl same
  · rename_i different
    rw [cell] at different
    obtain ⟨next, newer, others⟩ := (edits (tracking.heap.cells clone.data)).resolve_left different
    exact tracked.edited le_rfl (cell ▸ next) ⟨newer, cell ▸ others⟩

/-- Every event keeps the ledger true. -/
theorem step (tracked : Tracked data values revision tracking) {action : TrackAction}
    {reply : TrackReply} (step : (changeTracking data).step tracking action = some (reply, after)) :
    Tracked data values revision after := by
  rcases Tracking.step_cases tracked.allocated step with
    ⟨clone, change, own, edits, edit⟩ | ⟨token, taken, heap, captures, capture⟩ | ⟨_, rfl⟩ |
      ⟨index, save, acknowledged, found, finish⟩
  · obtain rfl : _ = after := congrArg Prod.snd edit
    exact tracked.edit own edits
  · obtain rfl : _ = after := congrArg Prod.snd capture
    exact tracked.captured captures
  · exact tracked
  · obtain rfl : _ = after := congrArg Prod.snd finish
    obtain ⟨own, _⟩ := tracked.tokens save (List.mem_of_getElem? found)
    cases acknowledged with
    | true =>
      refine tracked.finished found le_rfl ?_
      rw [if_pos rfl, SaveRevision.acknowledge, own, Heap.setCell_self]
      rfl
    | false =>
      refine tracked.finished found le_rfl ?_
      rw [if_neg Bool.false_ne_true, SaveRevision.drop, own, Heap.setCell_self]
      rfl

theorem run {trace : List (TrackAction × TrackReply)} (tracked : Tracked data values revision tracking)
    (run : (changeTracking data).Run tracking trace after) : Tracked data values revision after :=
  run.invariant (fun earlier step => earlier.step step) tracked

/-- Fewer than 2^64 edits never bring a revision back. -/
theorem edit_eq_of_revision {base : UInt64} {first second : Nat} (few : second < 2 ^ 64)
    (older : first ≤ second) (same : base + UInt64.ofNat first = base + UInt64.ofNat second) :
    first = second := by
  have equal : UInt64.ofNat first = UInt64.ofNat second := (UInt64.add_right_inj base).mp same
  have numbers := congrArg UInt64.toNat equal
  rwa [UInt64.toNat_ofNat_of_lt' (older.trans_lt few), UInt64.toNat_ofNat_of_lt' few] at numbers

/-- A clean cell holds what the last save captured. -/
theorem clean (tracked : Tracked data values revision tracking) (few : tracking.edits < 2 ^ 64)
    (clean : (tracking.heap.cells data).changed = false) :
    (tracking.last = none → (tracking.heap.cells data).values = values) ∧
      ∀ save, tracking.last = some save → save.acknowledged = true ∧ save.overlapped = false ∧
        (tracking.heap.cells data).values = save.values := by
  obtain ⟨sure, persisted⟩ := SessionData.changed_eq_false.mp clean
  obtain ⟨unsaved, saved⟩ := tracked.certain sure
  constructor
  · intro none
    have same : revision + UInt64.ofNat 0 = revision + UInt64.ofNat tracking.edits := by
      rw [← tracked.current, persisted, unsaved none]
      simp
    exact tracked.untouched (edit_eq_of_revision few (Nat.zero_le _) same).symm
  · intro save finished
    obtain ⟨acknowledged, separate, recorded⟩ := saved save finished
    obtain ⟨older, captured⟩ := tracked.last save finished
    have same : revision + UInt64.ofNat save.edit = revision + UInt64.ofNat tracking.edits := by
      rw [← tracked.current, persisted, recorded]
    exact ⟨acknowledged, separate, (captured (edit_eq_of_revision few older same)).symm⟩

/-- Without an edit or a capture, the cell is left alone until the one outstanding save finishes. -/
theorem idle {save : Outstanding} {trace : List (TrackAction × TrackReply)}
    (tracked : Tracked data values revision tracking) (single : tracking.tokens = [save])
    (run : (changeTracking data).Run tracking trace after)
    (quiet : ∀ entry ∈ trace, entry.2 ≠ .edited ∧ entry.2 ≠ .captured) :
    after.tokens = [] ∨
      after.tokens = [save] ∧ after.heap.cells data = tracking.heap.cells data := by
  induction run with
  | refl => exact Or.inr ⟨single, rfl⟩
  | @tail trace middle next action reply earlier step inductionHypothesis =>
    have before := inductionHypothesis fun entry member => quiet entry (List.mem_cons_of_mem _ member)
    obtain ⟨unedited, uncaptured⟩ := quiet (action, reply) List.mem_cons_self
    rcases Tracking.step_cases (tracked.run earlier).allocated step with
      ⟨clone, change, own, edits, edit⟩ | ⟨token, taken, heap, captures, capture⟩ |
        ⟨_, rfl⟩ | ⟨index, other, acknowledged, found, finish⟩
    · unfold Tracking.edit at edit
      split at edit
      · rename_i same
        cases edit
        -- An edit that changes nothing leaves the cell and the tokens as they were.
        exact before.imp_right fun still => ⟨still.1, same.trans still.2⟩
      · cases edit
        exact absurd rfl unedited
    · cases capture
      exact absurd rfl uncaptured
    · exact before
    · cases finish
      left
      show middle.tokens.eraseIdx index = []
      have inside := (List.getElem?_eq_some_iff.mp found).1
      rcases before with none | ⟨one, _⟩
      · rw [none]
        rfl
      · rw [one] at inside ⊢
        obtain rfl : index = 0 := Nat.lt_one_iff.mp inside
        rfl

/-- A capture while nothing is outstanding: one token, of the current revision, and no overlap. -/
theorem capture_alone (tracked : Tracked data values revision tracking) (none : tracking.tokens = [])
    {action : TrackAction}
    (step : (changeTracking data).step tracking action = some (.captured, after)) :
    ∃ save, after.tokens = [save] ∧
      (after.heap.cells data).overlappingSaves = false ∧
      save.token.data = data ∧ save.token.revision = (after.heap.cells data).revision := by
  have trackedAfter := tracked.step step
  have inactive : (tracking.heap.cells data).activeSaves = 0 := by
    rw [tracked.active, none]
    rfl
  change Tracking.step data tracking action = some (.captured, after) at step
  obtain ⟨token, taken, heap, captures, rfl⟩ := captures_of_step tracked.allocated step
  have tokens : (tracking.capture token taken heap).2.tokens =
      [{ token, values := taken, edit := tracking.edits, overlapped := tracking.tokens ≠ [] }] := by
    simp [Tracking.capture, none]
  refine ⟨_, tokens, ?_, ?_⟩
  · show (heap.cells data).overlappingSaves = false
    rw [captures.cell]
    simp [SessionData.capture, inactive]
  · obtain ⟨own, _, recorded, _⟩ := trackedAfter.tokens _ (tokens ▸ List.mem_singleton_self _)
    exact ⟨own, recorded.trans trackedAfter.current.symm⟩

end Tracked

/-! ### Soundness and recovery -/

/-- Change tracking never reports a false clean, and always recovers. A clean cell of fewer than
2^64 edits holds what the save that finished last captured, which was acknowledged and overlapped
no other, or the initial values. And once no save is outstanding, the next save that is captured
and acknowledged, with no edit and no other capture in between, leaves the cell clean. -/
theorem change_tracking_is_sound (data : Ref) (start tracking : Tracking)
    (trace : List (TrackAction × TrackReply)) (initial : (changeTracking data).init start)
    (run : (changeTracking data).Run start trace tracking) :
    (tracking.edits < 2 ^ 64 → (tracking.heap.cells data).changed = false →
      (tracking.last = none →
        (tracking.heap.cells data).values = (start.heap.cells data).values) ∧
      ∀ save, tracking.last = some save → save.acknowledged = true ∧ save.overlapped = false ∧
        (tracking.heap.cells data).values = save.values) ∧
    (tracking.tokens = [] →
      ∀ (action : TrackAction) (captured pending acknowledged : Tracking)
        (between : List (TrackAction × TrackReply)),
        (changeTracking data).step tracking action = some (.captured, captured) →
        (changeTracking data).Run captured between pending →
        (∀ entry ∈ between, entry.2 ≠ .edited ∧ entry.2 ≠ .captured) →
        (changeTracking data).step pending (.acknowledge 0) = some (.finished, acknowledged) →
          (acknowledged.heap.cells data).changed = false) := by
  have tracked := (Tracked.initial initial).run run
  refine ⟨tracked.clean, ?_⟩
  intro none action captured pending acknowledged between capture rest quiet acknowledge
  obtain ⟨save, single, alone, own, current⟩ := tracked.capture_alone none capture
  have trackedCaptured := tracked.step capture
  change Tracking.step data pending (.acknowledge 0) = some (.finished, acknowledged) at acknowledge
  simp only [Tracking.step, Option.bind_eq_bind, Option.bind_eq_some_iff] at acknowledge
  obtain ⟨other, found, acknowledge⟩ := acknowledge
  rcases trackedCaptured.idle single rest quiet with gone | ⟨still, cell⟩
  · rw [gone] at found
    cases found
  rw [still] at found
  obtain rfl : save = other := Option.some.inj found
  cases acknowledge
  show ((save.token.acknowledge pending.heap).cells data).changed = false
  rw [SaveRevision.acknowledge, own, Heap.setCell_self, cell, SessionData.changed_eq_false,
    SessionData.acknowledge, if_neg (by simp [alone])]
  exact ⟨rfl, current.symm⟩

/-- After an edit and two overlapping saves, a standalone save cleans the cell. -/
theorem change_tracking_recovers_after_overlap : ∃ recovered : Tracking,
    (recovered.heap.cells 0).changed = false ∧ recovered.edits = 1 := by
  have run := Machine.run_replay (changeTracking 0)
    { heap := (Session.new .empty "cookie" "id").2, tokens := [], last := none, edits := 0 }
    [.insertRaw (Session.new .empty "cookie" "id").1 "key" "1",
      .immutableSnapshot (Session.new .empty "cookie" "id").1,
      .persistenceSnapshot (Session.new .empty "cookie" "id").1, .acknowledge 1, .acknowledge 0]
    (by decide)
  have sound := change_tracking_is_sound 0 _ _ _ ⟨by decide, rfl, rfl, rfl, rfl, rfl⟩ run
  exact ⟨_, sound.2 rfl (.serializeBounded (Session.new .empty "cookie" "id").1 true)
    _ _ _ [] rfl Machine.Run.refl (by simp) rfl, rfl⟩

end Saysion
