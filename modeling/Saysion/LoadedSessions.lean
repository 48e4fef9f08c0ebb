/-
This file proves that `validate_loaded` makes an isolated, clean session that may
write. A cell belongs to one lineage, and its active saves are the revisions
captured from it that are still outstanding. So when nobody else refers to the
data of the input there is no save left that could acknowledge into it, and the
session may keep the cell; otherwise it gets a copy. The other cells are new.
-/

import Saysion.Isolation
import Saysion.Sharing

namespace Saysion

/-- What `validate_loaded` makes of a session that it accepts. -/
theorem Session.validateLoaded_ok {idOf : Cookie → Option Id} {heap after : Heap}
    {session loaded : Session} {aliased : Bool} {cookie : Cookie} {now : DateTime}
    (valid : session.validateLoaded idOf heap aliased cookie now = .ok (some (loaded, after))) :
    idOf cookie = some session.id ∧ ∃ data cells,
      loaded = { session with
        data, cookieValue := none, metadataChanged := false, rotationFrom := none, fresh := false
        family := heap.nextFamily } ∧
      after = cells.allocFamily { persistedId := some session.id } ∧
      ((aliased = true ∧ data = heap.nextCell ∧
          cells = heap.allocCell (.ofValues (session.sessionData heap).values)) ∨
        (aliased = false ∧ data = session.data ∧
          cells = session.editData heap SessionData.adopt)) := by
  unfold Session.validateLoaded at valid
  split at valid
  · cases valid
  rename_i expected bound
  split at valid
  · cases valid
  rename_i same
  split at valid
  · cases valid
  split at valid
  · cases valid
  have same : session.id = expected := not_not.mp same
  refine ⟨same ▸ bound, ?_⟩
  cases aliased with
  | true =>
    cases valid
    exact ⟨_, _, rfl, rfl, Or.inl ⟨rfl, rfl, rfl⟩⟩
  | false =>
    cases valid
    exact ⟨_, _, rfl, rfl, Or.inr ⟨rfl, rfl, rfl⟩⟩

namespace Owners

variable {owners after : Owners} {lineage other ref : Nat}

/-! ### Owning a cell -/

/-- A lineage with a reference in a table. -/
def Holds {Value : Type} (table : Nat → Option (Owned Value)) (reference : Value → Ref)
    (lineage ref : Nat) : Prop :=
  ∃ key owned, table key = some owned ∧ owned.lineage = lineage ∧ reference owned.value = ref

/-- What a table holds once an entry was written holds in it before, or in the entry. -/
theorem holds_update {Value : Type} {table : Nat → Option (Owned Value)} {reference : Value → Ref}
    {index : Nat} {entry : Option (Owned Value)}
    (holds : Holds (Function.update table index entry) reference lineage ref) :
    Holds table reference lineage ref ∨
      ∃ owned, entry = some owned ∧ owned.lineage = lineage ∧ reference owned.value = ref := by
  obtain ⟨key, owned, found, same, reaches⟩ := holds
  rcases update_eq_some found with ⟨_, written⟩ | ⟨_, earlier⟩
  · exact Or.inr ⟨owned, written, same, reaches⟩
  · exact Or.inl ⟨key, owned, earlier, same, reaches⟩

/-- An entry in the place of one with the same references. -/
theorem holds_replace {Value : Type} {table : Nat → Option (Owned Value)} {reference : Value → Ref}
    {index : Nat} {older newer : Owned Value}
    (holds : Holds (Function.update table index (some newer)) reference lineage ref)
    (found : table index = some older) (same : newer.lineage = older.lineage)
    (still : reference newer.value = reference older.value) :
    Holds table reference lineage ref := by
  rcases holds_update holds with before | ⟨owned, written, own, reaches⟩
  · exact before
  · cases written
    exact ⟨index, older, found, same.symm.trans own, still.symm.trans reaches⟩

theorem holds_drop {Value : Type} {table : Nat → Option (Owned Value)} {reference : Value → Ref}
    {index : Nat} (holds : Holds (Function.update table index none) reference lineage ref) :
    Holds table reference lineage ref := by
  rcases holds_update holds with before | ⟨_, wrong, _⟩
  · exact before
  · cases wrong

/-- A lineage with a reference to a data cell. -/
def OwnsCell (owners : Owners) (lineage ref : Nat) : Prop :=
  Holds owners.handles (·.data) lineage ref ∨ Holds owners.revisions (·.data) lineage ref

/-- A lineage with a reference to the cells of a family. -/
def OwnsFamily (owners : Owners) (lineage ref : Nat) : Prop :=
  Holds owners.handles (·.family) lineage ref ∨ Holds owners.guards (·.family) lineage ref

/-- The outstanding revisions of a data cell. -/
def outstanding (owners : Owners) (ref : Ref) : Finset Nat :=
  (Finset.range owners.nextRevision).filter fun key =>
    (owners.revisions key).any (·.value.data = ref)

/-- The invariant of the owners. -/
structure Separate (owners : Owners) : Prop where
  cells : ∀ lineage ref, owners.OwnsCell lineage ref →
    lineage < owners.nextHandle ∧ ref < owners.heap.nextCell
  families : ∀ lineage ref, owners.OwnsFamily lineage ref →
    lineage < owners.nextHandle ∧ ref < owners.heap.nextFamily
  cell_eq : ∀ first second ref, owners.OwnsCell first ref → owners.OwnsCell second ref →
    first = second
  family_eq : ∀ first second ref, owners.OwnsFamily first ref → owners.OwnsFamily second ref →
    first = second
  handles : ∀ key handle, owners.handles key = some handle → key < owners.nextHandle
  revisions : ∀ key captured, owners.revisions key = some captured → key < owners.nextRevision
  guards : ∀ key held, owners.guards key = some held → key < owners.nextGuard
  active : ∀ ref, (owners.heap.cells ref).activeSaves = (owners.outstanding ref).card

theorem separate_initial : Separate initial where
  cells := by rintro _ _ (⟨_, _, found, _⟩ | ⟨_, _, found, _⟩) <;> cases found
  families := by rintro _ _ (⟨_, _, found, _⟩ | ⟨_, _, found, _⟩) <;> cases found
  cell_eq := by rintro _ _ _ (⟨_, _, found, _⟩ | ⟨_, _, found, _⟩) <;> cases found
  family_eq := by rintro _ _ _ (⟨_, _, found, _⟩ | ⟨_, _, found, _⟩) <;> cases found
  handles := by rintro _ _ found; cases found
  revisions := by rintro _ _ found; cases found
  guards := by rintro _ _ found; cases found
  active _ := rfl

/-- The lineages that an action goes through. -/
def Through (owners : Owners) (action : ShareAction) (lineage : Nat) : Prop :=
  match action with
  | .new _ _ | .deserialize _ => False
  | .clone index | .drop index | .edit index _ | .capture index _ | .beginWrite index _ _ _
  | .beginDelete index | .validateLoaded index _ _ =>
    ∃ handle, owners.handles index = some handle ∧ handle.lineage = lineage
  | .acknowledge index revision =>
    (∃ handle, owners.handles index = some handle ∧ handle.lineage = lineage) ∨
      ∃ captured, owners.revisions revision = some captured ∧ captured.lineage = lineage
  | .dropRevision revision =>
    ∃ captured, owners.revisions revision = some captured ∧ captured.lineage = lineage
  | .settle guard _ | .dropGuard guard =>
    ∃ held, owners.guards guard = some held ∧ held.lineage = lineage

/-- A data cell of the lineage that an action starts; no other lineage keeps it. -/
def NewCell (owners after : Owners) (lineage ref : Nat) : Prop :=
  lineage = owners.nextHandle ∧ lineage < after.nextHandle ∧ ref < after.heap.nextCell ∧
    ∀ other, owners.OwnsCell other ref → ¬ after.OwnsCell other ref

/-- The family of the lineage that an action starts. -/
def NewFamily (owners after : Owners) (lineage ref : Nat) : Prop :=
  lineage = owners.nextHandle ∧ lineage < after.nextHandle ∧ ref < after.heap.nextFamily ∧
    owners.heap.nextFamily ≤ ref

/-- What an action does: the lineages it goes through keep to their cells, and what is owned after
it was owned before, but by the lineage that it starts. -/
structure Acts (owners : Owners) (through : Nat → Prop) (after : Owners) : Prop where
  nextHandle : owners.nextHandle ≤ after.nextHandle
  within : owners.heap.Within after.heap
    (fun ref => ∃ lineage, through lineage ∧ owners.OwnsFamily lineage ref)
    fun ref => ∃ lineage, through lineage ∧ owners.OwnsCell lineage ref
  cells : ∀ lineage ref, after.OwnsCell lineage ref →
    owners.OwnsCell lineage ref ∨ owners.NewCell after lineage ref
  families : ∀ lineage ref, after.OwnsFamily lineage ref →
    owners.OwnsFamily lineage ref ∨ owners.NewFamily after lineage ref
  handles : ∀ key handle, after.handles key = some handle → key < after.nextHandle
  revisions : ∀ key captured, after.revisions key = some captured → key < after.nextRevision
  guards : ∀ key held, after.guards key = some held → key < after.nextGuard
  active : ∀ ref, (after.heap.cells ref).activeSaves = (after.outstanding ref).card
  others : ∀ key handle, owners.handles key = some handle → ¬ through handle.lineage →
    after.handles key = some handle

/-- Actions keep the lineages apart. -/
theorem Separate.acts {through : Nat → Prop} (separate : Separate owners)
    (acts : owners.Acts through after) : Separate after where
  cells lineage ref owns := by
    rcases acts.cells lineage ref owns with before | ⟨rfl, used, allocated, _⟩
    · obtain ⟨used, allocated⟩ := separate.cells lineage ref before
      exact ⟨used.trans_le acts.nextHandle, allocated.trans_le acts.within.nextCell⟩
    · exact ⟨used, allocated⟩
  families lineage ref owns := by
    rcases acts.families lineage ref owns with before | ⟨rfl, used, allocated, _⟩
    · obtain ⟨used, allocated⟩ := separate.families lineage ref before
      exact ⟨used.trans_le acts.nextHandle, allocated.trans_le acts.within.nextFamily⟩
    · exact ⟨used, allocated⟩
  cell_eq first second ref left right := by
    rcases acts.cells first ref left with before | ⟨rfl, _, _, alone⟩
    · rcases acts.cells second ref right with earlier | ⟨rfl, _, _, alone⟩
      · exact separate.cell_eq first second ref before earlier
      · exact absurd left (alone first before)
    · rcases acts.cells second ref right with earlier | ⟨rfl, _⟩
      · exact absurd right (alone second earlier)
      · rfl
  family_eq first second ref left right := by
    rcases acts.families first ref left with before | ⟨rfl, _, _, new⟩
    · rcases acts.families second ref right with earlier | ⟨rfl, _, _, new⟩
      · exact separate.family_eq first second ref before earlier
      · exact absurd (separate.families first ref before).2 (Nat.not_lt_of_ge new)
    · rcases acts.families second ref right with earlier | ⟨rfl, _⟩
      · exact absurd (separate.families second ref earlier).2 (Nat.not_lt_of_ge new)
      · rfl
  handles := acts.handles
  revisions := acts.revisions
  guards := acts.guards
  active := acts.active

end Owners

/-! ### The references of an edit -/

namespace SessionEdit

theorem apply_references (edit : SessionEdit) (heap : Heap) (session : Session) :
    (edit.apply heap session).1.data = session.data ∧
      (edit.apply heap session).1.family = session.family := by
  cases edit with
  | regenerate cookie id => exact ⟨rfl, rfl⟩
  | setExpiry expiry =>
    show (session.setExpiry expiry).data = _ ∧ (session.setExpiry expiry).family = _
    unfold Session.setExpiry
    split <;> exact ⟨rfl, rfl⟩
  | setCookieValue cookie =>
    show (session.setCookieValue cookie).data = _ ∧ (session.setCookieValue cookie).family = _
    unfold Session.setCookieValue
    split <;> exact ⟨rfl, rfl⟩
  | insertRaw key value => exact ⟨rfl, rfl⟩
  | remove key => exact ⟨rfl, rfl⟩
  | resetDataChanged => exact ⟨rfl, rfl⟩
  | destroy => exact ⟨rfl, rfl⟩
  | persistenceAttempt =>
    unfold apply
    dsimp only
    split <;> exact ⟨rfl, rfl⟩
  | markPersisted => exact ⟨rfl, rfl⟩

/-- An edit stays within the cells of its handle. -/
theorem apply_within (edit : SessionEdit) (heap : Heap) (session : Session)
    {families cells : Ref → Prop} (family : families session.family) (cell : cells session.data) :
    heap.Within (edit.apply heap session).2 families cells := by
  cases edit with
  | regenerate cookie id => exact .refl _
  | setExpiry expiry => exact .refl _
  | setCookieValue cookie => exact .refl _
  | insertRaw key value => exact heap.within_setCell _ cell
  | remove key => exact heap.within_setCell _ cell
  | resetDataChanged => exact heap.within_setCell _ cell
  | destroy => exact heap.within_setFamily _ family
  | persistenceAttempt =>
    unfold apply
    dsimp only
    split
    · exact .refl _
    · rename_i origin claimed granted
      obtain ⟨_, _, rfl⟩ := Session.persistenceAttempt_ok granted
      dsimp only
      split
      · exact heap.within_setFamily _ family
      · exact .refl _
  | markPersisted => exact heap.within_markPersisted session family

/-- An edit starts and ends no save. -/
theorem apply_activeSaves (edit : SessionEdit) (heap : Heap) (session : Session) (ref : Ref) :
    ((edit.apply heap session).2.cells ref).activeSaves = (heap.cells ref).activeSaves := by
  have own : ∀ change : SessionData → SessionData,
      (change (heap.cells session.data)).activeSaves = (heap.cells session.data).activeSaves →
        ((session.editData heap change).cells ref).activeSaves = (heap.cells ref).activeSaves := by
    intro change same
    by_cases reaches : ref = session.data
    · rw [reaches]
      exact (congrArg SessionData.activeSaves (Heap.setCell_self _ _ _)).trans same
    · exact congrArg SessionData.activeSaves (Heap.setCell_of_ne _ _ _ reaches)
  cases edit with
  | regenerate cookie id => rfl
  | setExpiry expiry => rfl
  | setCookieValue cookie => rfl
  | insertRaw key value =>
    refine own (fun data => data.insertRaw key value) ?_
    dsimp only [SessionData.insertRaw]
    split <;> rfl
  | remove key =>
    refine own (fun data => data.remove key) ?_
    dsimp only [SessionData.remove]
    split <;> rfl
  | resetDataChanged => exact own _ rfl
  | destroy => rfl
  | persistenceAttempt =>
    unfold apply
    dsimp only
    split
    · rfl
    · rename_i origin claimed granted
      obtain ⟨_, _, rfl⟩ := Session.persistenceAttempt_ok granted
      dsimp only
      split <;> rfl
  | markPersisted => rfl

end SessionEdit

theorem GuardEdit.apply_family (edit : GuardEdit) (heap : Heap) (guard : WriteGuard) :
    (edit.apply heap guard).family = guard.family := by
  cases edit <;> rfl

namespace Owners

variable {owners after : Owners} {lineage other ref : Nat}

/-! ### Outstanding revisions -/

theorem card_outstanding_addRevision (heap : Heap) (revision : SaveRevision) (ref : Ref) :
    ((owners.addRevision lineage revision heap).outstanding ref).card =
      (owners.outstanding ref).card + if revision.data = ref then 1 else 0 := by
  have others : ∀ key ∈ Finset.range owners.nextRevision,
      ((owners.addRevision lineage revision heap).revisions key).any (·.value.data = ref) =
        (owners.revisions key).any (·.value.data = ref) := by
    intro key old
    have different : key ≠ owners.nextRevision := Nat.ne_of_lt (Finset.mem_range.mp old)
    exact congrArg (Option.any _) (Function.update_of_ne different _ _)
  have own : ((owners.addRevision lineage revision heap).revisions owners.nextRevision).any
      (·.value.data = ref) = decide (revision.data = ref) := by
    show (Function.update owners.revisions owners.nextRevision (some ⟨lineage, revision⟩)
      owners.nextRevision).any _ = _
    rw [Function.update_self]
    rfl
  unfold outstanding
  show (Finset.filter _ (Finset.range (owners.nextRevision + 1))).card = _
  rw [Finset.range_add_one, Finset.filter_insert, own, Finset.filter_congr fun key old => by
    rw [others key old]]
  by_cases same : revision.data = ref
  · rw [if_pos (decide_eq_true same), if_pos same]
    exact Finset.card_insert_of_notMem (by simp)
  · rw [if_neg (by simpa using same), if_neg same]
    rfl

theorem card_outstanding_dropRevision {index : Nat} {captured : Owned SaveRevision} (heap : Heap)
    (found : owners.revisions index = some captured) (used : index < owners.nextRevision)
    (ref : Ref) : ((owners.dropRevision index heap).outstanding ref).card =
      (owners.outstanding ref).card - if captured.value.data = ref then 1 else 0 := by
  have rest : (owners.dropRevision index heap).outstanding ref =
      (owners.outstanding ref).erase index := by
    ext key
    unfold outstanding
    rw [Finset.mem_filter, Finset.mem_erase, Finset.mem_filter]
    show key ∈ Finset.range owners.nextRevision ∧
      (Function.update owners.revisions index none key).any _ = true ↔ _
    by_cases same : key = index
    · rw [same, Function.update_self]
      simp
    · rw [Function.update_of_ne same]
      simp [same]
  have member : index ∈ owners.outstanding ref ↔ captured.value.data = ref := by
    unfold outstanding
    rw [Finset.mem_filter, found]
    simp [used]
  rw [rest]
  by_cases same : captured.value.data = ref
  · rw [if_pos same]
    exact Finset.card_erase_of_mem (member.mpr same)
  · rw [if_neg same, Finset.erase_eq_of_notMem fun wrong => same (member.mp wrong)]
    rfl

/-! ### The actions -/

section Actions

variable {idOf : Cookie → Option Id} {through : Nat → Prop} {index : Nat} {handle : Owned Session}

theorem used_update {Value : Type} {table : Nat → Option (Owned Value)} {bound : Nat}
    {entry : Option (Owned Value)} (used : ∀ key owned, table key = some owned → key < bound)
    (old : index < bound) (key : Nat) (owned : Owned Value)
    (found : Function.update table index entry key = some owned) : key < bound := by
  rcases update_eq_some found with ⟨rfl, _⟩ | ⟨_, earlier⟩
  · exact old
  · exact used key owned earlier

theorem used_add {Value : Type} {table : Nat → Option (Owned Value)} {bound : Nat}
    {entry : Option (Owned Value)} (used : ∀ key owned, table key = some owned → key < bound)
    (key : Nat) (owned : Owned Value)
    (found : Function.update table bound entry key = some owned) : key < bound + 1 := by
  rcases update_eq_some found with ⟨rfl, _⟩ | ⟨_, earlier⟩
  · exact Nat.lt_succ_self _
  · exact (used key owned earlier).trans (Nat.lt_succ_self _)

/-- The handles of other lineages, once an entry of one of these was written. -/
theorem others_update (found : owners.handles index = some handle) (own : through handle.lineage)
    {entry : Option (Owned Session)} (key : Nat) (owned : Owned Session)
    (lookup : owners.handles key = some owned) (apart : ¬ through owned.lineage) :
    Function.update owners.handles index entry key = some owned := by
  have different : key ≠ index := by
    rintro rfl
    cases found.symm.trans lookup
    exact apart own
  rw [Function.update_of_ne different, lookup]

theorem others_add (separate : Separate owners) {entry : Option (Owned Session)} (key : Nat)
    (owned : Owned Session) (lookup : owners.handles key = some owned) :
    Function.update owners.handles owners.nextHandle entry key = some owned := by
  rw [Function.update_of_ne (Nat.ne_of_lt (separate.handles key owned lookup)), lookup]

/-- No save is active in a cell that was not allocated. -/
theorem idle_unallocated (separate : Separate owners) (new : owners.heap.nextCell ≤ ref) :
    (owners.heap.cells ref).activeSaves = 0 := by
  rw [separate.active ref, Finset.card_eq_zero]
  refine Finset.filter_eq_empty_iff.mpr fun key _ captured => ?_
  obtain ⟨owned, found, same⟩ := Option.any_eq_true _ _ |>.mp captured
  have allocated := (separate.cells owned.lineage owned.value.data
    (Or.inr ⟨key, owned, found, rfl, rfl⟩)).2
  rw [of_decide_eq_true same] at allocated
  exact absurd allocated (Nat.not_lt_of_ge new)

/-- A session in cells of its own starts a lineage. -/
theorem acts_root (separate : Separate owners) {session : Session} {heap : Heap}
    (within : ∀ families cells, owners.heap.Within heap families cells)
    (data : session.data = owners.heap.nextCell) (cell : session.data < heap.nextCell)
    (fresh : owners.heap.nextFamily ≤ session.family) (family : session.family < heap.nextFamily)
    (active : ∀ ref, (heap.cells ref).activeSaves = (owners.heap.cells ref).activeSaves) :
    owners.Acts through (owners.addHandle owners.nextHandle session heap) where
  nextHandle := Nat.le_succ _
  within := within _ _
  cells lineage ref owns := by
    rcases owns with handles | revisions
    · rcases holds_update handles with before | ⟨_, written, own, reaches⟩
      · exact Or.inl (Or.inl before)
      · cases written
        refine Or.inr ⟨own.symm, own ▸ Nat.lt_succ_self _, reaches ▸ cell, fun other before _ => ?_⟩
        have old := (separate.cells other ref before).2
        have new : ref = owners.heap.nextCell := reaches.symm.trans data
        exact absurd new (Nat.ne_of_lt old)
    · exact Or.inl (Or.inr revisions)
  families lineage ref owns := by
    rcases owns with handles | guards
    · rcases holds_update handles with before | ⟨_, written, own, reaches⟩
      · exact Or.inl (Or.inl before)
      · cases written
        exact Or.inr ⟨own.symm, own ▸ Nat.lt_succ_self _, reaches ▸ family, reaches ▸ fresh⟩
    · exact Or.inl (Or.inr guards)
  handles := used_add separate.handles
  revisions := separate.revisions
  guards := separate.guards
  active ref := (active ref).trans (separate.active ref)
  others key owned lookup _ := others_add separate key owned lookup

theorem acts_clone (separate : Separate owners) (found : owners.handles index = some handle) :
    owners.Acts through (owners.addHandle handle.lineage handle.value.clone owners.heap) where
  nextHandle := Nat.le_succ _
  within := .refl _
  cells lineage ref owns := by
    refine Or.inl (owns.imp_left fun handles => ?_)
    rcases holds_update handles with before | ⟨_, written, own, reaches⟩
    · exact before
    · cases written
      exact ⟨index, handle, found, own, reaches⟩
  families lineage ref owns := by
    refine Or.inl (owns.imp_left fun handles => ?_)
    rcases holds_update handles with before | ⟨_, written, own, reaches⟩
    · exact before
    · cases written
      exact ⟨index, handle, found, own, reaches⟩
  handles := used_add separate.handles
  revisions := separate.revisions
  guards := separate.guards
  active := separate.active
  others key owned lookup _ := others_add separate key owned lookup

theorem acts_drop (separate : Separate owners) (found : owners.handles index = some handle)
    (own : through handle.lineage) : owners.Acts through (owners.setHandle index none owners.heap) where
  nextHandle := le_rfl
  within := .refl _
  cells _ _ owns := Or.inl (owns.imp_left holds_drop)
  families _ _ owns := Or.inl (owns.imp_left holds_drop)
  handles := used_update separate.handles (separate.handles index handle found)
  revisions := separate.revisions
  guards := separate.guards
  active := separate.active
  others := others_update found own

/-- A change within the cells of a handle that keeps its references and its saves. -/
theorem acts_set (separate : Separate owners) (found : owners.handles index = some handle)
    (own : through handle.lineage) {session : Session} {heap : Heap}
    (data : session.data = handle.value.data) (family : session.family = handle.value.family)
    (within : ∀ families cells : Ref → Prop, families handle.value.family → cells handle.value.data →
      owners.heap.Within heap families cells)
    (active : ∀ ref, (heap.cells ref).activeSaves = (owners.heap.cells ref).activeSaves) :
    owners.Acts through (owners.setHandle index (some { handle with value := session }) heap) where
  nextHandle := le_rfl
  within := within _ _ ⟨_, own, Or.inl ⟨index, handle, found, rfl, rfl⟩⟩
    ⟨_, own, Or.inl ⟨index, handle, found, rfl, rfl⟩⟩
  cells lineage ref owns := by
    refine Or.inl (owns.imp_left fun handles => ?_)
    exact holds_replace handles found (by rfl) data
  families lineage ref owns := by
    refine Or.inl (owns.imp_left fun handles => ?_)
    exact holds_replace handles found (by rfl) family
  handles := used_update separate.handles (separate.handles index handle found)
  revisions := separate.revisions
  guards := separate.guards
  active ref := (active ref).trans (separate.active ref)
  others := others_update found own

/-- A capture adds a revision, and one active save. -/
theorem acts_capture (separate : Separate owners) (found : owners.handles index = some handle)
    (own : through handle.lineage) :
    owners.Acts through (owners.addRevision handle.lineage (handle.value.capture owners.heap).1
      (handle.value.capture owners.heap).2) where
  nextHandle := le_rfl
  within := owners.heap.within_setCell _ ⟨_, own, Or.inl ⟨index, handle, found, rfl, rfl⟩⟩
  cells lineage ref owns := by
    rcases owns with handles | revisions
    · exact Or.inl (Or.inl handles)
    · rcases holds_update revisions with before | ⟨_, written, own, reaches⟩
      · exact Or.inl (Or.inr before)
      · cases written
        exact Or.inl (Or.inl ⟨index, handle, found, own, reaches⟩)
  families lineage ref owns := Or.inl owns
  handles := separate.handles
  revisions := used_add separate.revisions
  guards := separate.guards
  active ref := by
    rw [card_outstanding_addRevision, ← separate.active ref]
    show ((owners.heap.setCell handle.value.data _).cells ref).activeSaves =
      _ + if handle.value.data = ref then 1 else 0
    by_cases same : ref = handle.value.data
    · rw [same, Heap.setCell_self, if_pos rfl]
      rfl
    · rw [Heap.setCell_of_ne _ _ _ same, if_neg fun equal => same equal.symm]
      rfl
  others key owned lookup _ := lookup

/-- The end of a revision is the end of one active save. -/
theorem acts_release (separate : Separate owners) {captured : Owned SaveRevision} {data : SessionData}
    (found : owners.revisions index = some captured) (own : through captured.lineage)
    (less : data.activeSaves = (owners.heap.cells captured.value.data).activeSaves - 1) :
    owners.Acts through
      (owners.dropRevision index (owners.heap.setCell captured.value.data data)) where
  nextHandle := le_rfl
  within := owners.heap.within_setCell _ ⟨_, own, Or.inr ⟨index, captured, found, rfl, rfl⟩⟩
  cells lineage ref owns := Or.inl (owns.imp_right holds_drop)
  families lineage ref owns := Or.inl owns
  handles := separate.handles
  revisions := used_update separate.revisions (separate.revisions index captured found)
  guards := separate.guards
  active ref := by
    rw [card_outstanding_dropRevision _ found (separate.revisions index captured found),
      ← separate.active ref]
    show ((owners.heap.setCell captured.value.data _).cells ref).activeSaves = _
    by_cases same : ref = captured.value.data
    · rw [same, Heap.setCell_self, if_pos rfl]
      exact less
    · rw [Heap.setCell_of_ne _ _ _ same, if_neg fun equal => same equal.symm]
      rfl
  others key owned lookup _ := lookup

/-- A change of the family of a handle, with or without a guard for it. -/
theorem acts_family (separate : Separate owners) (found : owners.handles index = some handle)
    (own : through handle.lineage) {heap : Heap} {table : Nat → Option (Owned WriteGuard)}
    {next : Nat} (within : ∀ families cells : Ref → Prop, families handle.value.family →
      owners.heap.Within heap families cells)
    (cells : heap.cells = owners.heap.cells)
    (guards : ∀ lineage ref, Holds table (·.family) lineage ref →
      Holds owners.guards (·.family) lineage ref ∨
        handle.lineage = lineage ∧ handle.value.family = ref)
    (used : ∀ key held, table key = some held → key < next) :
    owners.Acts through { owners with heap, guards := table, nextGuard := next } where
  nextHandle := le_rfl
  within := within _ _ ⟨_, own, Or.inl ⟨index, handle, found, rfl, rfl⟩⟩
  cells lineage ref owns := Or.inl owns
  families lineage ref owns := by
    rcases owns with handles | held
    · exact Or.inl (Or.inl handles)
    · rcases guards lineage ref held with before | ⟨own, reaches⟩
      · exact Or.inl (Or.inr before)
      · exact Or.inl (Or.inl ⟨index, handle, found, own, reaches⟩)
  handles := separate.handles
  revisions := separate.revisions
  guards := used
  active ref := by
    rw [cells]
    exact separate.active ref
  others key owned lookup _ := lookup

/-- A change of a guard, or its end. -/
theorem acts_guard (separate : Separate owners) {held : Owned WriteGuard}
    {entry : Option (Owned WriteGuard)} {heap : Heap} (found : owners.guards index = some held)
    (own : through held.lineage)
    (still : ∀ newer, entry = some newer →
      newer.lineage = held.lineage ∧ newer.value.family = held.value.family)
    (within : ∀ families cells : Ref → Prop, families held.value.family →
      owners.heap.Within heap families cells)
    (cells : heap.cells = owners.heap.cells) :
    owners.Acts through (owners.setGuard index entry heap) where
  nextHandle := le_rfl
  within := within _ _ ⟨_, own, Or.inr ⟨index, held, found, rfl, rfl⟩⟩
  cells lineage ref owns := Or.inl owns
  families lineage ref owns := by
    refine Or.inl (owns.imp_right fun guards => ?_)
    rcases holds_update guards with before | ⟨newer, written, mine, reaches⟩
    · exact before
    · obtain ⟨same, family⟩ := still newer written
      exact ⟨index, held, found, same.symm.trans mine, family.symm.trans reaches⟩
  handles := separate.handles
  revisions := separate.revisions
  guards := used_update separate.guards (separate.guards index held found)
  active ref := by
    show (heap.cells ref).activeSaves = _
    rw [cells]
    exact separate.active ref
  others key owned lookup _ := lookup

/-- Two actions in a row through old lineages, of which the second starts none. -/
theorem Acts.trans {middle : Owners} (first : owners.Acts through middle)
    (second : middle.Acts through after) (still : after.nextHandle = middle.nextHandle)
    (old : ∀ lineage, through lineage → lineage < owners.nextHandle) :
    owners.Acts through after where
  nextHandle := first.nextHandle.trans second.nextHandle
  within := by
    refine ⟨first.within.nextFamily.trans second.within.nextFamily,
      first.within.nextCell.trans second.within.nextCell, fun ref allocated outside => ?_,
      fun ref allocated outside => ?_⟩
    · rw [second.within.families ref (allocated.trans_le first.within.nextFamily), first.within.families
        ref allocated outside]
      rintro ⟨lineage, goes, owns⟩
      rcases first.families lineage ref owns with before | ⟨rfl, _⟩
      · exact outside ⟨lineage, goes, before⟩
      · exact absurd (old _ goes) (lt_irrefl _)
    · rw [second.within.cells ref (allocated.trans_le first.within.nextCell), first.within.cells
        ref allocated outside]
      rintro ⟨lineage, goes, owns⟩
      rcases first.cells lineage ref owns with before | ⟨rfl, _⟩
      · exact outside ⟨lineage, goes, before⟩
      · exact absurd (old _ goes) (lt_irrefl _)
  cells lineage ref owns := by
    have kept : ∀ {lineage}, after.OwnsCell lineage ref → middle.OwnsCell lineage ref := by
      intro lineage owns
      rcases second.cells lineage ref owns with before | ⟨rfl, used, _⟩
      · exact before
      · exact absurd (still ▸ used) (lt_irrefl _)
    rcases first.cells lineage ref (kept owns) with before | ⟨started, used, allocated, alone⟩
    · exact Or.inl before
    · exact Or.inr ⟨started, still ▸ used, allocated.trans_le second.within.nextCell,
        fun other before owns => alone other before (kept owns)⟩
  families lineage ref owns := by
    rcases second.families lineage ref owns with before | ⟨rfl, used, _⟩
    · rcases first.families lineage ref before with earlier | ⟨started, used, allocated, fresh⟩
      · exact Or.inl earlier
      · exact Or.inr ⟨started, still ▸ used, allocated.trans_le second.within.nextFamily, fresh⟩
    · exact absurd (still ▸ used) (lt_irrefl _)
  handles := second.handles
  revisions := second.revisions
  guards := second.guards
  active := second.active
  others key owned lookup apart := second.others key owned (first.others key owned lookup apart) apart

/-- A handle whose data has no other owner: no other handle, and no outstanding revision. -/
theorem sole_owner (separate : Separate owners) (found : owners.handles index = some handle)
    (alone : ¬ 1 < owners.strongCount handle.value.data) :
    (∀ key other, owners.handles key = some other → other.value.data = handle.value.data →
      key = index) ∧ owners.outstanding handle.value.data = ∅ := by
  have own : index ∈ (Finset.range owners.nextHandle).filter fun key =>
      (owners.handles key).any (·.value.data = handle.value.data) := by
    rw [Finset.mem_filter, found]
    exact ⟨Finset.mem_range.mpr (separate.handles index handle found), by simp⟩
  have some_ := Finset.card_pos.mpr ⟨index, own⟩
  have total : owners.strongCount handle.value.data =
      ((Finset.range owners.nextHandle).filter fun key =>
        (owners.handles key).any (·.value.data = handle.value.data)).card +
      (owners.outstanding handle.value.data).card := rfl
  constructor
  · intro key other lookup same
    have member : key ∈ (Finset.range owners.nextHandle).filter fun key =>
        (owners.handles key).any (·.value.data = handle.value.data) := by
      rw [Finset.mem_filter, lookup]
      exact ⟨Finset.mem_range.mpr (separate.handles key other lookup), by simp [same]⟩
    exact Finset.card_le_one.mp (by omega) key member index own
  · exact Finset.card_eq_zero.mp (by omega)

/-- The data cell that `validate_loaded` hands out: that of a copy, or that of its input, which has
no other owner. -/
structure Handover (owners : Owners) (handle : Owned Session) (data : Ref) (cells : Heap) :
    Prop where
  branch : (1 < owners.strongCount handle.value.data ∧ data = owners.heap.nextCell ∧
      cells = owners.heap.allocCell (.ofValues (handle.value.sessionData owners.heap).values)) ∨
    ¬ 1 < owners.strongCount handle.value.data ∧ data = handle.value.data ∧
      cells = handle.value.editData owners.heap SessionData.adopt

namespace Handover

variable {data : Ref} {cells : Heap}

theorem nextFamily (handover : owners.Handover handle data cells) :
    cells.nextFamily = owners.heap.nextFamily := by
  rcases handover.branch with ⟨_, _, rfl⟩ | ⟨_, _, rfl⟩ <;> rfl

theorem within (handover : owners.Handover handle data cells) {families inside : Ref → Prop}
    (own : inside handle.value.data) : owners.heap.Within cells families inside := by
  rcases handover.branch with ⟨_, _, rfl⟩ | ⟨_, _, rfl⟩
  · exact owners.heap.within_allocCell _
  · exact owners.heap.within_setCell _ own

theorem activeSaves (handover : owners.Handover handle data cells) (separate : Separate owners)
    (ref : Ref) : (cells.cells ref).activeSaves = (owners.heap.cells ref).activeSaves := by
  rcases handover.branch with ⟨_, _, rfl⟩ | ⟨_, _, rfl⟩
  · by_cases new : ref = owners.heap.nextCell
    · rw [new, Heap.allocCell_self, idle_unallocated separate le_rfl]
      rfl
    · exact congrArg SessionData.activeSaves (Function.update_of_ne new _ _)
  · by_cases same : ref = handle.value.data
    · rw [same]
      exact (congrArg SessionData.activeSaves
        (Heap.setCell_self owners.heap handle.value.data _)).trans rfl
    · exact congrArg SessionData.activeSaves (Heap.setCell_of_ne _ _ _ same)

theorem allocated (handover : owners.Handover handle data cells) (separate : Separate owners)
    (found : owners.handles index = some handle) : data < cells.nextCell := by
  rcases handover.branch with ⟨_, rfl, rfl⟩ | ⟨_, rfl, rfl⟩
  · exact Nat.lt_succ_self _
  · exact (separate.cells _ _ (Or.inl ⟨index, handle, found, rfl, rfl⟩)).2

/-- Once the input is gone, no other lineage owns the cell. -/
theorem unowned (handover : owners.Handover handle data cells) (separate : Separate owners)
    (found : owners.handles index = some handle) (other : Nat) (before : owners.OwnsCell other data)
    (kept : Holds (Function.update owners.handles index none) Session.data other data ∨
      Holds owners.revisions SaveRevision.data other data) : False := by
  rcases handover.branch with ⟨_, rfl, _⟩ | ⟨unaliased, rfl, _⟩
  · exact lt_irrefl _ (separate.cells other _ before).2
  obtain ⟨single, none⟩ := sole_owner separate found unaliased
  rcases kept with ⟨key, twin, lookup, _, same⟩ | ⟨key, captured, lookup, _, same⟩
  · rcases update_eq_some lookup with ⟨_, wrong⟩ | ⟨different, earlier⟩
    · cases wrong
    · exact different (single key twin earlier same)
  · have member : key ∈ owners.outstanding handle.value.data := by
      rw [outstanding, Finset.mem_filter, lookup]
      exact ⟨Finset.mem_range.mpr (separate.revisions key captured lookup), by simpa using same⟩
    rw [none] at member
    exact Finset.notMem_empty key member

end Handover

/-- `validate_loaded` starts a lineage: with a copy of the data, or with the cell that only its
input had. -/
theorem acts_validateLoaded (separate : Separate owners) (found : owners.handles index = some handle)
    (own : through handle.lineage) (cookie : Cookie) (now : DateTime) :
    owners.Acts through (owners.validateLoaded idOf index handle cookie now).2 := by
  have dropped := acts_drop separate found own
  unfold validateLoaded
  dsimp only
  split
  · exact dropped
  · exact dropped
  rename_i loaded heap valid
  obtain ⟨_, data, cells, rfl, rfl, branch⟩ := Session.validateLoaded_ok valid
  have handover : owners.Handover handle data cells :=
    ⟨branch.imp (And.imp_left of_decide_eq_true) (And.imp_left of_decide_eq_false)⟩
  have within : owners.heap.Within cells
      (fun ref => ∃ lineage, through lineage ∧ owners.OwnsFamily lineage ref)
      (fun ref => ∃ lineage, through lineage ∧ owners.OwnsCell lineage ref) :=
    handover.within ⟨_, own, Or.inl ⟨index, handle, found, rfl, rfl⟩⟩
  refine ⟨Nat.le_succ _, within.trans (cells.within_allocFamily _), fun lineage ref owns => ?_,
    fun lineage ref owns => ?_, used_add dropped.handles, separate.revisions, separate.guards,
    fun ref => (handover.activeSaves separate ref).trans (separate.active ref),
    fun key owned lookup apart => ?_⟩
  · rcases owns with handles | revisions
    swap
    · exact Or.inl (Or.inr revisions)
    rcases holds_update handles with before | ⟨_, written, mine, reaches⟩
    · exact Or.inl (Or.inl (holds_drop before))
    cases written
    have reaches : data = ref := reaches
    subst reaches
    have mine : owners.nextHandle = lineage := mine
    subst mine
    refine Or.inr ⟨rfl, Nat.lt_succ_self _, handover.allocated separate found,
      fun other before owns => handover.unowned separate found other before ?_⟩
    refine owns.imp_left fun handles => ?_
    rcases holds_update handles with kept | ⟨_, written, mine, _⟩
    · exact kept
    · cases written
      exact absurd (mine ▸ (separate.cells other data before).1) (lt_irrefl _)
  · rcases owns with handles | guards
    swap
    · exact Or.inl (Or.inr guards)
    rcases holds_update handles with before | ⟨_, written, mine, reaches⟩
    · exact Or.inl (Or.inl (holds_drop before))
    cases written
    have reaches : owners.heap.nextFamily = ref := reaches
    refine Or.inr ⟨mine.symm, mine ▸ Nat.lt_succ_self _, ?_, reaches.le⟩
    show ref < cells.nextFamily + 1
    rw [← reaches, handover.nextFamily]
    exact Nat.lt_succ_self _
  · have kept := dropped.others key owned lookup apart
    have different : key ≠ owners.nextHandle := Nat.ne_of_lt (separate.handles key owned lookup)
    exact (Function.update_of_ne different _ _).trans kept

/-- A session whose cells were just allocated. -/
theorem acts_alloc (separate : Separate owners) {session : Session} {family : Family}
    {data : SessionData} (cell : session.data = owners.heap.nextCell)
    (shared : session.family = owners.heap.nextFamily) (idle : data.activeSaves = 0) :
    owners.Acts through (owners.addHandle owners.nextHandle session
      ((owners.heap.allocFamily family).allocCell data)) := by
  refine acts_root separate (fun _ _ => (owners.heap.within_allocFamily _).trans
    (Heap.within_allocCell _ _)) cell (cell ▸ Nat.lt_succ_self _) shared.ge
      (shared ▸ Nat.lt_succ_self _) fun ref => ?_
  by_cases new : ref = owners.heap.nextCell
  · rw [new, idle_unallocated separate le_rfl, ← idle]
    exact congrArg SessionData.activeSaves (Heap.allocCell_self (owners.heap.allocFamily family) data)
  · exact congrArg SessionData.activeSaves (Function.update_of_ne new _ _)

theorem acts_captures (separate : Separate owners) (found : owners.handles index = some handle)
    (own : through handle.lineage) (old : ∀ lineage, through lineage → lineage < owners.nextHandle)
    {path : CapturePath} {reply : Reply}
    (step : owners.capture handle path = some (reply, after)) : owners.Acts through after := by
  cases path with
  | persistenceSnapshot =>
    cases step
    have first : owners.Acts through (owners.addHandle owners.nextHandle
      (handle.value.snapshot owners.heap).1 (handle.value.snapshot owners.heap).2) :=
      acts_alloc separate rfl rfl rfl
    have kept : (owners.addHandle owners.nextHandle (handle.value.snapshot owners.heap).1
        (handle.value.snapshot owners.heap).2).handles index = some handle :=
      others_add separate index handle found
    exact first.trans (acts_capture (separate.acts first) kept own) rfl old
  | immutableSnapshot =>
    cases step
    exact acts_capture separate found own
  | serializeBounded fits =>
    cases fits with
    | true =>
      cases step
      exact acts_capture separate found own
    | false =>
      cases step
      exact ⟨le_rfl, .refl _, fun _ _ owns => Or.inl owns, fun _ _ owns => Or.inl owns,
        separate.handles, separate.revisions, separate.guards, separate.active,
        fun _ _ lookup _ => lookup⟩

/-- The lineage of a handle was used before. -/
theorem Separate.used_handle (separate : Separate owners)
    (found : owners.handles index = some handle) : handle.lineage < owners.nextHandle :=
  (separate.cells _ _ (Or.inl ⟨index, handle, found, rfl, rfl⟩)).1

/-- An acknowledgement clears the flag of its handle and releases the revision. -/
theorem acts_acknowledge {revision : Nat} {reply : Reply} (separate : Separate owners)
    (step : (sharing idOf).step owners (.acknowledge index revision) = some (reply, after)) :
    owners.Acts (owners.Through (.acknowledge index revision)) after := by
  simp only [sharing, Owners.step, Option.bind_eq_bind, Option.bind_eq_some_iff] at step
  obtain ⟨handle, found, captured, lookup, step⟩ := step
  cases step
  have first : owners.Acts (owners.Through (.acknowledge index revision))
      (owners.setHandle index
        (some { handle with value := { handle.value with metadataChanged := false } })
        owners.heap) :=
    acts_set separate found (Or.inl ⟨handle, found, rfl⟩) rfl rfl (fun _ _ _ _ => .refl _)
      fun _ => rfl
  have less : ((owners.heap.cells captured.value.data).acknowledge
      captured.value.revision).activeSaves =
        (owners.heap.cells captured.value.data).activeSaves - 1 := by
    unfold SessionData.acknowledge
    split <;> rfl
  refine first.trans (acts_release (separate.acts first) lookup
    (Or.inr ⟨captured, lookup, rfl⟩) less) rfl ?_
  rintro lineage (⟨other, twin, rfl⟩ | ⟨other, twin, rfl⟩)
  · exact separate.used_handle twin
  · exact (separate.cells _ _ (Or.inr ⟨revision, other, twin, rfl, rfl⟩)).1

/-- A new guard is of the family of its handle. -/
theorem families_addGuard {key : Nat} {guard : WriteGuard} {lineage ref : Nat}
    (family : guard.family = handle.value.family)
    (holds : Holds (Function.update owners.guards key (some ⟨handle.lineage, guard⟩))
      WriteGuard.family lineage ref) :
    Holds owners.guards WriteGuard.family lineage ref ∨
      handle.lineage = lineage ∧ handle.value.family = ref := by
  rcases holds_update holds with before | ⟨_, written, mine, reaches⟩
  · exact Or.inl before
  · cases written
    exact Or.inr ⟨mine, family.symm.trans reaches⟩

theorem acts_beginWrite {origin : Option Id} {receipt : Option Nat} {canOutliveFuture : Bool}
    {reply : Reply} (separate : Separate owners) (found : owners.handles index = some handle)
    (own : through handle.lineage)
    (step : owners.beginWrite handle origin receipt canOutliveFuture = some (reply, after)) :
    owners.Acts through after := by
  unfold Owners.beginWrite at step
  split at step
  · cases step
  split at step
  · rename_i error heap refused
    cases step
    have changed := Session.beginGuardedWrite_error refused
    refine acts_family separate found own (fun families cells inside => ?_) ?_
      (fun _ _ holds => Or.inl holds) separate.guards
    · rcases changed with rfl | rfl
      · exact .refl _
      · exact (owners.heap.within_setFamily _ inside).trans (Heap.within_setFamily _ _ inside)
    · rcases changed with rfl | rfl <;> rfl
  · rename_i guard heap granted
    cases step
    obtain ⟨_, _, _, same, rfl⟩ := Session.beginGuardedWrite_ok granted
    exact acts_family separate found own (fun _ _ inside => owners.heap.within_setFamily _ inside) rfl
      (fun _ _ holds => families_addGuard (congrArg WriteGuard.family same) holds)
      (used_add separate.guards)

theorem acts_beginDelete {reply : Reply} (separate : Separate owners)
    (found : owners.handles index = some handle) (own : through handle.lineage)
    (step : owners.beginDelete handle = some (reply, after)) : owners.Acts through after := by
  have destroyed : ∀ families cells : Ref → Prop, families handle.value.family →
      owners.heap.Within (handle.value.destroy owners.heap) families cells :=
    fun _ _ inside => owners.heap.within_setFamily _ inside
  unfold Owners.beginDelete at step
  dsimp only at step
  split at step
  · cases step
  split at step
  · cases step
    exact acts_family separate found own destroyed rfl (fun _ _ holds => Or.inl holds) separate.guards
  · rename_i target heap granted
    cases step
    obtain ⟨_, rfl, _⟩ := Session.beginDelete_ok granted
    exact acts_family separate found own
      (fun families cells inside =>
        (destroyed families cells inside).trans (Heap.within_setFamily _ _ inside)) rfl
      (fun _ _ holds => families_addGuard rfl holds) (used_add separate.guards)

/-- Every action of the owners. -/
theorem acts {action : ShareAction} {reply : Reply} (separate : Separate owners)
    (step : (sharing idOf).step owners action = some (reply, after)) :
    owners.Acts (owners.Through action) after := by
  cases action with
  | new cookie id =>
    cases step
    exact acts_alloc separate rfl rfl rfl
  | deserialize wire =>
    cases step
    exact acts_alloc separate rfl rfl rfl
  | acknowledge index revision => exact acts_acknowledge separate step
  | clone index =>
    simp only [sharing, Owners.step, Option.bind_eq_bind, Option.bind_eq_some_iff] at step
    obtain ⟨handle, found, step⟩ := step
    cases step
    exact acts_clone separate found
  | drop index =>
    simp only [sharing, Owners.step, Option.bind_eq_bind, Option.bind_eq_some_iff] at step
    obtain ⟨handle, found, step⟩ := step
    cases step
    exact acts_drop separate found ⟨handle, found, rfl⟩
  | edit index edit =>
    simp only [sharing, Owners.step, Option.bind_eq_bind, Option.bind_eq_some_iff] at step
    obtain ⟨handle, found, step⟩ := step
    cases step
    obtain ⟨data, family⟩ := edit.apply_references owners.heap handle.value
    exact acts_set separate found ⟨handle, found, rfl⟩ data family
      (fun _ _ inFamily inCell => edit.apply_within owners.heap handle.value inFamily inCell)
      (edit.apply_activeSaves owners.heap handle.value)
  | capture index path =>
    simp only [sharing, Owners.step, Option.bind_eq_bind, Option.bind_eq_some_iff] at step
    obtain ⟨handle, found, step⟩ := step
    refine acts_captures separate found ⟨handle, found, rfl⟩ ?_ step
    rintro lineage ⟨other, twin, rfl⟩
    exact separate.used_handle twin
  | dropRevision revision =>
    simp only [sharing, Owners.step, Option.bind_eq_bind, Option.bind_eq_some_iff] at step
    obtain ⟨captured, found, step⟩ := step
    cases step
    exact acts_release separate found ⟨captured, found, rfl⟩ rfl
  | beginWrite index origin receipt canOutliveFuture =>
    simp only [sharing, Owners.step, Option.bind_eq_bind, Option.bind_eq_some_iff] at step
    obtain ⟨handle, found, step⟩ := step
    exact acts_beginWrite separate found ⟨handle, found, rfl⟩ step
  | beginDelete index =>
    simp only [sharing, Owners.step, Option.bind_eq_bind, Option.bind_eq_some_iff] at step
    obtain ⟨handle, found, step⟩ := step
    exact acts_beginDelete separate found ⟨handle, found, rfl⟩ step
  | settle guard edit =>
    simp only [sharing, Owners.step, Option.bind_eq_bind, Option.bind_eq_some_iff] at step
    obtain ⟨held, found, step⟩ := step
    cases step
    refine acts_guard separate found ⟨held, found, rfl⟩ (fun newer same => ?_)
      (fun _ _ _ => .refl _) rfl
    cases same
    exact ⟨rfl, edit.apply_family _ _⟩
  | dropGuard guard =>
    simp only [sharing, Owners.step, Option.bind_eq_bind, Option.bind_eq_some_iff] at step
    obtain ⟨held, found, step⟩ := step
    cases step
    exact acts_guard separate found ⟨held, found, rfl⟩ (fun _ wrong => by cases wrong)
      (fun _ _ inside => owners.heap.within_setFamily _ inside) rfl
  | validateLoaded index cookie now =>
    simp only [sharing, Owners.step, Option.bind_eq_bind, Option.bind_eq_some_iff] at step
    obtain ⟨handle, found, step⟩ := step
    have same : after = (owners.validateLoaded idOf index handle cookie now).2 :=
      (congrArg Prod.snd (Option.some.inj step)).symm
    rw [same]
    exact acts_validateLoaded separate found ⟨handle, found, rfl⟩ cookie now

end Actions

/-! ### Runs -/

theorem separate_of_reachable {idOf : Cookie → Option Id}
    (reachable : (sharing idOf).Reachable owners) : Separate owners := by
  refine reachable.invariant (fun {state} initially => ?_)
    fun separate step => separate.acts (acts separate step)
  have same : state = initial := initially
  rw [same]
  exact separate_initial

/-- An action leaves alone every handle whose lineage it does not go through, and its cells. -/
theorem keeps {idOf : Cookie → Option Id} {action : ShareAction} {reply : Reply} {key : Nat}
    {handle : Owned Session} (separate : Separate owners)
    (step : (sharing idOf).step owners action = some (reply, after))
    (found : owners.handles key = some handle)
    (apart : ¬ owners.Through action handle.lineage) :
    after.handles key = some handle ∧
      handle.value.sessionData after.heap = handle.value.sessionData owners.heap ∧
      handle.value.shared after.heap = handle.value.shared owners.heap := by
  have done := acts separate step
  have cell : owners.OwnsCell handle.lineage handle.value.data :=
    Or.inl ⟨key, handle, found, rfl, rfl⟩
  have family : owners.OwnsFamily handle.lineage handle.value.family :=
    Or.inl ⟨key, handle, found, rfl, rfl⟩
  refine ⟨done.others key handle found apart, ?_, ?_⟩
  · refine done.within.cells _ (separate.cells _ _ cell).2 ?_
    rintro ⟨lineage, through, owns⟩
    exact apart (separate.cell_eq _ _ _ owns cell ▸ through)
  · refine done.within.families _ (separate.families _ _ family).2 ?_
    rintro ⟨lineage, through, owns⟩
    exact apart (separate.family_eq _ _ _ owns family ▸ through)

/-- Of all owners only one handle has a lineage. -/
structure Alone (owners : Owners) (loaded : Nat) : Prop where
  handles : ∀ key handle, owners.handles key = some handle → key ≠ loaded →
    handle.lineage ≠ loaded
  revisions : ∀ key captured, owners.revisions key = some captured → captured.lineage ≠ loaded
  guards : ∀ key held, owners.guards key = some held → held.lineage ≠ loaded

/-- The lineage that is used next has no owner yet. -/
theorem Separate.alone (separate : Separate owners) : owners.Alone owners.nextHandle where
  handles key handle found _ :=
    Nat.ne_of_lt (separate.cells _ _ (Or.inl ⟨key, handle, found, rfl, rfl⟩)).1
  revisions key captured found :=
    Nat.ne_of_lt (separate.cells _ _ (Or.inr ⟨key, captured, found, rfl, rfl⟩)).1
  guards key held found :=
    Nat.ne_of_lt (separate.families _ _ (Or.inr ⟨key, held, found, rfl, rfl⟩)).1

/-- What `validate_loaded` leaves behind when it accepts the handle. -/
theorem validateLoaded_handle {idOf : Cookie → Option Id} {index loaded : Nat} {cookie : Cookie}
    {now : DateTime}
    (step : (sharing idOf).step owners (.validateLoaded index cookie now) =
      some (.handle loaded, after)) :
    ∃ input session heap, owners.handles index = some input ∧ loaded = owners.nextHandle ∧
      input.value.validateLoaded idOf owners.heap
        (1 < owners.strongCount input.value.data) cookie now = .ok (some (session, heap)) ∧
      after = (owners.setHandle index none owners.heap).addHandle loaded session heap := by
  simp only [sharing, Owners.step, Option.bind_eq_bind, Option.bind_eq_some_iff] at step
  obtain ⟨input, found, step⟩ := step
  unfold Owners.validateLoaded at step
  dsimp only at step
  split at step
  · cases step
  · cases step
  · rename_i session heap valid
    cases step
    exact ⟨input, session, heap, found, rfl, valid, rfl⟩

end Owners

/-- A session that `validate_loaded` returned has the id of its cookie and the values and expiry of
its input, is clean and may write from its own id. Its lineage has no other owner, and from then on
no action changes a handle of a lineage that it does not go through, nor the cells of one: whatever
is done through the old clones and revisions leaves the session alone, and the other way round. -/
theorem validate_loaded_isolates {idOf : Cookie → Option Id} {owners after : Owners}
    {index loaded : Nat} {cookie : Cookie} {now : DateTime}
    (reachable : (sharing idOf).Reachable owners)
    (step : (sharing idOf).step owners (.validateLoaded index cookie now) =
      some (.handle loaded, after)) :
    ∃ input session, owners.handles index = some input ∧
      after.handles loaded = some ⟨loaded, session⟩ ∧
      idOf cookie = some session.id ∧
      session.wire after.heap = input.value.wire owners.heap ∧
      session.dataChanged after.heap = false ∧
      (session.sessionData after.heap).activeSaves = 0 ∧
      session.persistenceAttempt after.heap = .ok (some session.id, after.heap) ∧
      after.Alone loaded ∧
      ∀ trace later action reply next, (sharing idOf).Run after trace later →
        (sharing idOf).step later action = some (reply, next) →
        ∀ key handle, later.handles key = some handle → ¬ later.Through action handle.lineage →
          next.handles key = some handle ∧
            handle.value.sessionData next.heap = handle.value.sessionData later.heap ∧
            handle.value.shared next.heap = handle.value.shared later.heap := by
  have separate := Owners.separate_of_reachable reachable
  have reached := reachable.tail step
  obtain ⟨input, session, heap, found, rfl, valid, rfl⟩ := Owners.validateLoaded_handle step
  obtain ⟨bound, data, cells, rfl, rfl, branch⟩ := Session.validateLoaded_ok valid
  have family : owners.heap.nextFamily = cells.nextFamily := by
    rcases branch with ⟨_, _, rfl⟩ | ⟨_, _, rfl⟩ <;> rfl
  -- The cell has the values of the input, and neither changes nor saves.
  have cell : (cells.cells data).values = (input.value.sessionData owners.heap).values ∧
      (cells.cells data).changed = false ∧ (cells.cells data).activeSaves = 0 := by
    rcases branch with ⟨_, rfl, rfl⟩ | ⟨unaliased, rfl, rfl⟩
    · rw [Heap.allocCell_self]
      exact ⟨rfl, rfl, rfl⟩
    · obtain ⟨_, none⟩ := Owners.sole_owner separate found (of_decide_eq_false unaliased)
      have idle : (input.value.sessionData owners.heap).activeSaves = 0 := by
        show (owners.heap.cells input.value.data).activeSaves = 0
        rw [separate.active, none, Finset.card_empty]
      rw [Session.editData, Heap.setCell_self]
      exact ⟨rfl, SessionData.changed_adopt _, idle⟩
  have shared : (cells.allocFamily { persistedId := some input.value.id }).families
      owners.heap.nextFamily = { persistedId := some input.value.id } := by
    rw [family]
    exact Heap.allocFamily_self _ _
  refine ⟨input, _, found, Function.update_self _ _ _, bound, ?_, ?_, cell.2.2, ?_, ?_, ?_⟩
  · exact congrArg (SessionSnapshot.mk input.value.id input.value.expiry) cell.1
  · exact cell.2.1
  · simp only [Session.persistenceAttempt, Session.persistenceOrigin, Session.isDestroyed,
      Session.persistedId, Session.shared, Owners.addHandle, shared]
    simp
  · have alone := separate.alone
    refine ⟨fun key handle lookup different => ?_, alone.revisions, alone.guards⟩
    rcases update_eq_some lookup with ⟨same, _⟩ | ⟨_, before⟩
    · exact absurd same different
    rcases update_eq_some before with ⟨_, wrong⟩ | ⟨_, earlier⟩
    · cases wrong
    · exact alone.handles key handle earlier different
  · intro trace later action reply next run act key handle lookup apart
    exact Owners.keeps (Owners.separate_of_reachable (reached.run run)) act lookup apart

/-- A session that was edited, with a clone and an outstanding revision, is copied; one that was
edited and has no other owner keeps its cell. Both are clean and have the values of their input. -/
theorem validate_loaded_isolates_of_shared :
    (∃ owners after : Owners, owners.strongCount 0 = 3 ∧ ∃ input session,
      owners.handles 0 = some input ∧ after.handles 2 = some ⟨2, session⟩ ∧
        session.data ≠ input.value.data ∧
          session.wire after.heap = input.value.wire owners.heap ∧
            session.dataChanged after.heap = false) ∧
    ∃ owners after : Owners, owners.strongCount 0 = 1 ∧ ∃ input session,
      owners.handles 0 = some input ∧ after.handles 1 = some ⟨1, session⟩ ∧
        session.data = input.value.data ∧
          session.wire after.heap = input.value.wire owners.heap ∧
            session.dataChanged after.heap = false := by
  constructor
  · have run := (sharing some).run_replay .initial
      [.new "C" "A", .edit 0 (.insertRaw "k" "1"), .capture 0 .immutableSnapshot, .clone 0] (by decide)
    obtain ⟨input, session, found, made, _, wire, clean, _⟩ :=
      @validate_loaded_isolates some _ _ 0 2 "A" 0 ⟨_, _, rfl, run⟩ rfl
    refine ⟨_, _, by decide, input, session, found, made, ?_, wire, clean⟩
    cases found
    cases made
    decide
  · have run := (sharing some).run_replay .initial
      [.new "C" "A", .edit 0 (.insertRaw "k" "1")] (by decide)
    obtain ⟨input, session, found, made, _, wire, clean, _⟩ :=
      @validate_loaded_isolates some _ _ 0 1 "A" 0 ⟨_, _, rfl, run⟩ rfl
    refine ⟨_, _, by decide, input, session, found, made, ?_, wire, clean⟩
    cases found
    cases made
    rfl

end Saysion
