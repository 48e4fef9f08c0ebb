/-
This file decides which record a logout removes from a `MemoryStore`. The marker
of a clone family is the id of its last confirmed save, and a deletion selects
the marker when the destroyed handle has that id or was rotated from it, and the
handle's own id otherwise.

So a logout revokes the record of a family that was never rotated exactly when
the handle knows the id of that record. A handle that was regenerated before the
first save of its family does not: it has neither the id nor the rotation
source, and its logout leaves the record there.

A logout before the first save of its family leaves nothing to know. What a save
of the family had inserted by then was taken back by its `finish`, and no save
of the family ever gets the mutex again.
-/

import Saysion.MemoryCalls
import Saysion.MemoryLineage
import Saysion.Newcomers

namespace Saysion

/-! ### What a store remembers of a family -/

/-- The marker of a family is the last id of its history, and granted deletions select by it. -/
structure MemoryStore.Remembers (store : MemoryStore) : Prop where
  marker : ∀ ref, store.process.Refers ref →
    (store.process.heap.families ref).persistedId = (store.history ref).head?
  fresh : ∀ ref, store.process.heap.nextFamily ≤ ref → store.history ref = []
  born : ∀ ref, ∀ id ∈ store.history ref, id ∈ store.process.dispatched
  targets : store.process.Targeted

theorem MemoryStore.remembers_initial : MemoryStore.initial.Remembers where
  marker _ _ := rfl
  fresh _ _ := rfl
  born _ _ member := by cases member
  targets := Process.targeted_initial

namespace MemorySound

variable {idOf : Cookie → Option Id} {store after : MemoryStore} {reply : Reply}
  {action : MemoryAction}

/-- A step that sets no marker. -/
theorem remembers_plain (sound : MemorySound store) (remembers : store.Remembers)
    (path : Process.Path idOf Process.Plain store.process after.process)
    (history : after.history = store.history)
    (born : ∀ id ∈ store.process.dispatched, id ∈ after.process.dispatched) :
    after.Remembers := by
  have marks := path.marks sound.dispatching
  refine ⟨fun ref refers => ?_, fun ref new => ?_, fun ref id member => ?_,
    remembers.targets.path sound.dispatching path.coordinated⟩
  · rw [history]
    by_cases old : ref < store.process.heap.nextFamily
    · rw [marks.kept ref old refers]
      exact remembers.marker ref (marks.spares.refers ref old refers)
    · have new := Nat.le_of_not_lt old
      rw [marks.fresh ref new refers, remembers.fresh ref new]
      rfl
  · rw [history]
    exact remembers.fresh ref (marks.spares.nextFamily.trans new)
  · rw [history] at member
    exact born id (remembers.born ref id member)

/-- A load starts the history of its new family. -/
theorem remembers_load (sound : MemorySound store) (remembers : store.Remembers)
    (path : Process.Path idOf Process.Coordinated store.process after.process)
    {session : Session} {heap : Heap} (fetches : store.process.Fetches session heap)
    (known : session.id ∈ store.process.dispatched)
    (process : after.process = (store.process.see session.id).addHandle session heap)
    (history : after.history =
      Function.update store.history session.family [session.id]) : after.Remembers := by
  have targets := remembers.targets.path sound.dispatching path
  refine ⟨fun ref refers => ?_, fun ref new => ?_, fun ref id member => ?_, targets⟩
  · rw [history]
    have heaps : after.process.heap = heap := process ▸ rfl
    rw [heaps]
    by_cases same : ref = session.family
    · rw [same, Function.update_self, fetches.marker]
      rfl
    · rw [Function.update_of_ne same]
      have earlier : store.process.Refers ref := by
        rw [process] at refers
        rcases refers with ⟨other, member, rfl⟩ | ⟨key, guard, found, rfl⟩
        · rcases (Process.live_addHandle member).imp_right Process.live_see.mp with rfl | live
          · exact absurd rfl same
          · exact live.refers
        · exact Process.refers_guard found
      have old := Process.refers_lt earlier sound.dispatching.authority sound.dispatching.locking
      rw [fetches.families ref old]
      exact remembers.marker ref earlier
  · have new : heap.nextFamily ≤ ref := by
      rw [process] at new
      exact new
    have other : ref ≠ session.family := ne_of_gt (fetches.family.trans_le new)
    rw [history, Function.update_of_ne other]
    exact remembers.fresh ref ((fetches.nextFamily.trans fetches.family.le).trans new)
  · have same : after.process.dispatched = store.process.dispatched := process ▸ rfl
    rw [same]
    rw [history] at member
    by_cases own : ref = session.family
    · rw [own, Function.update_self, List.mem_singleton] at member
      exact member ▸ known
    · rw [Function.update_of_ne own] at member
      exact remembers.born ref id member

/-- A completed save is the latest of its family. -/
theorem remembers_complete (sound : MemorySound store) (remembers : store.Remembers)
    (path : Process.Path idOf Process.Coordinated store.process after.process)
    {index : Nat} {save : Save} {guard : WriteGuard} {cookie : Option Cookie}
    (found : store.process.saves index = some save)
    (guarded : store.process.guards index = some guard)
    (known : save.source.id ∈ store.process.dispatched)
    (complete : store.process.complete index = some (cookie, after.process))
    (dispatched : after.process.dispatched = store.process.dispatched)
    (history : after.history = Function.update store.history save.source.family
      (save.source.id :: store.history save.source.family)) : after.Remembers := by
  have targets := remembers.targets.path sound.dispatching path
  have spares := path.spares sound.dispatching
  have later := sound.dispatching.path path
  obtain ⟨other, lookup, marked, kept, nextFamily⟩ :=
    Process.persistedId_complete sound.dispatching guarded complete
  obtain rfl := Option.some.inj (found.symm.trans lookup)
  have allocated := (sound.dispatching.authority.allocated _ (.save found)).1
  refine ⟨fun ref refers => ?_, fun ref new => ?_, fun ref id member => ?_, targets⟩
  · rw [history]
    by_cases same : ref = save.source.family
    · rw [same, Function.update_self, marked]
      rfl
    · have old := Process.refers_lt refers later.authority later.locking
      rw [nextFamily] at old
      rw [Function.update_of_ne same, kept ref same]
      exact remembers.marker ref (spares.refers ref old refers)
  · rw [nextFamily] at new
    rw [history, Function.update_of_ne (ne_of_gt (allocated.trans_le new))]
    exact remembers.fresh ref new
  · rw [dispatched]
    rw [history] at member
    by_cases same : ref = save.source.family
    · rw [same, Function.update_self] at member
      rcases List.mem_cons.mp member with rfl | earlier
      · exact known
      · exact remembers.born _ id earlier
    · rw [Function.update_of_ne same] at member
      exact remembers.born ref id member

/-- The step lemma. -/
theorem remembers (sound : MemorySound store) (remembers : store.Remembers)
    (step : (memoryStore idOf).step store action = some (reply, after)) : after.Remembers := by
  have plain : ∀ {after : MemoryStore},
      Process.Path idOf Process.Plain store.process after.process → store.Unwritten after →
        after.history = store.history → after.Remembers :=
    fun path unwritten history => sound.remembers_plain remembers path history
      fun id member => unwritten.dispatched ▸ member
  have advances := sound.advances step
  cases advances.effect with
  | quiet path unwritten _ history => exact plain path unwritten history
  | capture path unwritten _ _ history => exact plain path unwritten history
  | load fetches known _ process _ history =>
    exact sound.remembers_load remembers advances.path fetches known process history
  | @write index save snapshot taken _ path _ _ updates creates _ _ _ _ _ history =>
    refine sound.remembers_plain remembers path history fun id member => ?_
    by_cases creating : save.Creates
    · rw [(creates creating).2]
      exact List.mem_cons_of_mem _ member
    · rw [updates creating]
      exact member
  | complete found guarded known complete unwritten _ history =>
    exact sound.remembers_complete remembers advances.path found guarded known complete
      unwritten.dispatched history

theorem reachable_remembers (reachable : (memoryStore idOf).Reachable store) :
    store.Remembers := by
  obtain ⟨start, trace, initial, run⟩ := reachable
  obtain rfl : start = MemoryStore.initial := initial
  induction run with
  | refl => exact MemoryStore.remembers_initial
  | tail earlier step inductionHypothesis =>
    have sound := earlier.invariant (fun sound step => sound.step step) memorySound_initial
    exact sound.remembers inductionHypothesis step

end MemorySound

/-! ### What the saves of a family inserted -/

/-- A call of the family inserts a record under this id. -/
def MemoryAction.Adds (family : Ref) (id : Id) (before : MemoryStore) (action : MemoryAction)
    (_ : Reply) (after : MemoryStore) : Prop :=
  ∃ index save, action = .write index ∧ after.calls index = some .inserted ∧
    before.process.saves index = some save ∧ save.source.family = family ∧ save.source.id = id

/-- A call of the family inserted a record under this id in the run with this trace. -/
abbrev MemoryStore.Added (idOf : Cookie → Option Id) (trace : List (MemoryAction × Reply))
    (family : Ref) (id : Id) (store : MemoryStore) : Prop :=
  (memoryStore idOf).Happened (MemoryAction.Adds family id) .initial trace store

/-- What became of a record that the family inserted: its call is under way, or has confirmed it, or
it is gone. -/
def MemoryStore.Followed (store : MemoryStore) (family : Ref) (id : Id) : Prop :=
  (∃ index save, store.HasWritten index ∧ store.process.saves index = some save ∧
      save.source.family = family ∧ save.source.id = id) ∨
    id ∈ store.history family ∨ id ∈ store.process.dispatched ∧ id ∉ store.state.records

namespace MemorySound

variable {idOf : Cookie → Option Id} {store after : MemoryStore} {reply : Reply}
  {action : MemoryAction} {family : Ref} {id : Id}

/-- A call that is past its write has the source it had before the step. -/
theorem source_of_hasWritten (sound : MemorySound store)
    (step : (memoryStore idOf).step store action = some (reply, after)) {index : Nat} {save : Save}
    (found : store.process.saves index = some save) (wrote : after.HasWritten index) :
    ∃ newer, after.process.saves index = some newer ∧ newer.source = save.source := by
  have advances := sound.advances step
  have entry : ∃ newer, after.process.saves index = some newer := by
    rcases wrote with phase | phase <;>
      exact (advances.sound.calls index _ phase).imp fun _ called => called.1
  obtain ⟨newer, lookup⟩ := entry
  have used := sound.dispatching.locking.used_of_save found
  obtain ⟨older, earlier, source, _⟩ := advances.path.retains.save index used newer lookup
  obtain rfl := Option.some.inj (found.symm.trans earlier)
  exact ⟨newer, lookup, source.symm⟩

/-- No step forgets an id of a family. -/
theorem history_grows (sound : MemorySound store) (remembers : store.Remembers)
    (step : (memoryStore idOf).step store action = some (reply, after))
    (member : id ∈ store.history family) : id ∈ after.history family := by
  cases (sound.advances step).effect with
  | quiet _ _ _ history => exact history ▸ member
  | capture _ _ _ _ history => exact history ▸ member
  | write _ _ _ _ _ _ _ _ _ _ history => exact history ▸ member
  | @load _ _ _ session _ _ fetches _ _ _ _ history =>
    have other : family ≠ session.family := by
      rintro rfl
      rw [remembers.fresh _ fetches.nextFamily] at member
      cases member
    rwa [history, Function.update_of_ne other]
  | @complete _ save _ _ _ _ _ _ _ _ _ history =>
    rw [history]
    by_cases own : family = save.source.family
    · subst own
      rw [Function.update_self]
      exact List.mem_cons_of_mem _ member
    · rwa [Function.update_of_ne own]

/-- The step lemma. -/
theorem followed (reachable : (memoryStore idOf).Reachable store)
    (followed : store.Followed family id)
    (step : (memoryStore idOf).step store action = some (reply, after)) :
    after.Followed family id := by
  have sound := MemorySound.reachable reachable
  rcases followed with ⟨index, save, wrote, found, rfl, rfl⟩ | confirmed | ⟨born, gone⟩
  · have used := sound.dispatching.locking.used_of_save found
    by_cases own : action.call = some index
    · rcases wrote.due step own with ⟨inserted, rfl⟩ | ⟨_, rfl⟩
      · -- `finish` takes the record of a destroyed family back.
        obtain ⟨_, _, lookup, _, _, outcome⟩ := sound.finish_cases step
        obtain rfl := Option.some.inj (found.symm.trans lookup)
        rcases outcome with ⟨destroyed, rfl⟩ | ⟨_, rfl⟩
        · obtain ⟨_, called, _, born⟩ := sound.calls index _ inserted
          obtain rfl := Option.some.inj (found.symm.trans called)
          refine Or.inr (Or.inr ⟨born, ?_⟩)
          rw [(sound.finish_records found step).2]
          rintro ⟨_, alive⟩
          cases destroyed.symm.trans (alive rfl)
        · exact Or.inl ⟨index, save, Or.inr (Function.update_self _ _ _), found, rfl, rfl⟩
      · obtain ⟨_, _, _, _, lookup, _, _, rfl⟩ := MemoryStore.complete_cases step
        obtain rfl := Option.some.inj (found.symm.trans lookup)
        refine Or.inr (Or.inl ?_)
        show save.source.id ∈ Function.update store.history save.source.family _ save.source.family
        rw [Function.update_self]
        exact List.mem_cons_self
    · have kept : after.HasWritten index := by
        rwa [MemoryStore.HasWritten, (MemoryStore.frame step).calls index used own]
      obtain ⟨newer, lookup, source⟩ := sound.source_of_hasWritten step found kept
      exact Or.inl ⟨index, newer, kept, lookup, by rw [source], by rw [source]⟩
  · exact Or.inr (Or.inl
      (sound.history_grows (MemorySound.reachable_remembers reachable) step confirmed))
  · exact Or.inr (Or.inr ⟨(sound.advances step).path.dispatched born,
      stays_gone reachable (Machine.Run.refl.tail step) born gone⟩)

/-- The run lemma. -/
theorem followed_run {trace : List (MemoryAction × Reply)}
    (reachable : (memoryStore idOf).Reachable store)
    (run : (memoryStore idOf).Run store trace after) (followed : store.Followed family id) :
    after.Followed family id := by
  induction run with
  | refl => exact followed
  | tail earlier step inductionHypothesis =>
    exact MemorySound.followed (reachable.run earlier) inductionHypothesis step

theorem followed_of_added {trace : List (MemoryAction × Reply)}
    (added : store.Added idOf trace family id) : store.Followed family id := by
  obtain ⟨earlier, before, _, reply, middle, later, _, first, step,
    ⟨index, save, rfl, inserted, found, rfl, rfl⟩, rest⟩ := added
  have reachable : (memoryStore idOf).Reachable before := ⟨_, _, rfl, first⟩
  obtain ⟨newer, lookup, source⟩ :=
    (MemorySound.reachable reachable).source_of_hasWritten step found (Or.inl inserted)
  have start : middle.Followed save.source.family save.source.id :=
    Or.inl ⟨index, newer, Or.inl inserted, lookup, by rw [source], by rw [source]⟩
  exact MemorySound.followed_run (reachable.tail step) rest start

/-! ### After the logout -/

theorem reachable_doomed (reachable : (memoryStore idOf).Reachable store) :
    store.process.Doomed := by
  obtain ⟨start, trace, initial, run⟩ := reachable
  obtain rfl : start = MemoryStore.initial := initial
  induction run with
  | refl => exact Process.doomed_initial
  | tail earlier step inductionHypothesis =>
    have sound := MemorySound.reachable ⟨_, _, rfl, earlier⟩
    exact inductionHypothesis.path sound.dispatching.authority (sound.advances step).path

/-- No call of a family that is shut is past its write. -/
theorem not_hasWritten_of_shut (sound : MemorySound store) (shut : store.process.Shut family)
    {index : Nat} {save : Save} (found : store.process.saves index = some save)
    (own : save.source.family = family) : ¬ store.HasWritten index := by
  intro wrote
  have guarded : ∃ guard, store.process.guards index = some guard := by
    rcases wrote with phase | phase <;>
      exact (sound.calls index _ phase).elim fun _ called => called.2.1
  obtain ⟨guard, held⟩ := guarded
  exact shut.unguarded index guard held
    ((sound.dispatching.locking.own index guard save held found).trans own)

/-- A family that is shut stays so, and no further save of it is confirmed. -/
theorem shut_step (sound : MemorySound store) (shut : store.process.Shut family)
    (step : (memoryStore idOf).step store action = some (reply, after)) :
    after.process.Shut family ∧ after.history family = store.history family := by
  have advances := sound.advances step
  refine ⟨shut.path sound.dispatching.authority advances.path, ?_⟩
  cases advances.effect with
  | quiet _ _ _ history => rw [history]
  | capture _ _ _ _ history => rw [history]
  | write _ _ _ _ _ _ _ _ _ _ history => rw [history]
  | load fetches _ _ _ _ history =>
    rw [history, Function.update_of_ne (ne_of_lt (shut.allocated.trans_le fetches.nextFamily))]
  | complete found guarded _ _ _ _ history =>
    rw [history, Function.update_of_ne]
    rintro rfl
    exact shut.unguarded _ _ guarded (sound.dispatching.locking.own _ _ _ guarded found)

theorem shut_run (sound : MemorySound store) (shut : store.process.Shut family)
    {trace : List (MemoryAction × Reply)} (run : (memoryStore idOf).Run store trace after) :
    after.process.Shut family ∧ after.history family = store.history family := by
  induction run with
  | refl => exact ⟨shut, rfl⟩
  | tail earlier step inductionHypothesis =>
    have middle := earlier.invariant (fun sound step => sound.step step) sound
    have next := middle.shut_step inductionHypothesis.1 step
    exact ⟨next.1, next.2.trans inductionHypothesis.2⟩

/-- What a family that is shut has inserted is confirmed or gone. -/
theorem followed_of_shut (sound : MemorySound store) (shut : store.process.Shut family)
    (followed : store.Followed family id) :
    id ∈ store.history family ∨ id ∈ store.process.dispatched ∧ id ∉ store.state.records := by
  refine followed.resolve_left ?_
  rintro ⟨index, save, wrote, found, own, _⟩
  exact sound.not_hasWritten_of_shut shut found own wrote

end MemorySound

/-! ### The results -/

/-- What a logout removes: the latest id of the family, if the handle has it or was rotated from it,
and otherwise the handle's own id. -/
theorem MemoryStore.mem_records_removeRecord {idOf : Cookie → Option Id} {store after : MemoryStore}
    {reply : Reply} {index : Nat} {deletion : Deletion} {latest : Id} {earlier : List Id}
    (reachable : (memoryStore idOf).Reachable store)
    (found : store.process.deletions index = some deletion)
    (step : (memoryStore idOf).step store (.removeRecord index) = some (reply, after))
    (history : store.history deletion.session.family = latest :: earlier) :
    ∀ key, key ∈ after.state.records ↔ key ∈ store.state.records ∧
      key ≠ if deletion.session.rotationFrom = some latest then latest else deletion.session.id := by
  have remembers := MemorySound.reachable_remembers reachable
  have refers : store.process.Refers deletion.session.family := Process.Live.refers (.deletion found)
  have marker : deletion.session.persistedId store.process.heap = some latest := by
    refine (remembers.marker _ refers).trans ?_
    rw [history]
    rfl
  obtain ⟨other, target, lookup, granted, _, _, rfl⟩ := MemoryStore.removeRecord_cases step
  obtain rfl := Option.some.inj (found.symm.trans lookup)
  have selected := remembers.targets index deletion target found granted
  rw [Session.deletionTarget_eq, marker] at selected
  dsimp only at selected
  intro key
  rw [← selected, MemoryState.records_remove, Finmap.mem_erase]
  exact and_comm

/-- A logout from a family that was never rotated revokes its record exactly when the destroyed handle
has the id of the record or was rotated from it, or the record is gone already. A logout before the
first save of the family always does: whatever a save inserts, then or later, is taken back. -/
theorem logout_revokes_iff {idOf : Cookie → Option Id} {before after : MemoryStore} {reply : Reply}
    {trace : List (MemoryAction × Reply)} {index : Nat} {deletion : Deletion} {id : Id}
    (run : (memoryStore idOf).Run .initial trace before)
    (found : before.process.deletions index = some deletion)
    (step : (memoryStore idOf).step before (.removeRecord index) = some (reply, after))
    (unrotated : ∀ saved ∈ before.history deletion.session.family, saved = id) :
    (∀ rest later, (memoryStore idOf).Run after rest later → ∀ key,
      key ∈ later.history deletion.session.family ∨
        later.Added idOf (rest ++ (.removeRecord index, reply) :: trace) deletion.session.family key →
      key ∉ later.state.records) ↔
      ∀ saved ∈ before.history deletion.session.family, deletion.session.id = saved ∨
        deletion.session.rotationFrom = some saved ∨ saved ∉ before.state.records := by
  have reachable : (memoryStore idOf).Reachable before := ⟨_, _, rfl, run⟩
  have sound := MemorySound.reachable reachable
  have shut : before.process.Shut deletion.session.family := by
    obtain ⟨_, _, lookup, granted, _⟩ := MemoryStore.removeRecord_cases step
    obtain rfl := Option.some.inj (found.symm.trans lookup)
    exact .of_granted (MemorySound.reachable_doomed reachable) sound.dispatching.authority
      sound.dispatching.locking found granted
  have ending := sound.shut_step shut step
  have records : ∀ saved ∈ before.history deletion.session.family, saved ∈ after.state.records ↔
      saved ∈ before.state.records ∧ saved ≠
        if deletion.session.rotationFrom = some saved then saved else deletion.session.id := by
    intro saved member
    obtain ⟨latest, earlier, history⟩ := List.exists_cons_of_ne_nil (List.ne_nil_of_mem member)
    obtain rfl : latest = saved := (unrotated latest (history ▸ List.mem_cons_self)).trans
      (unrotated saved member).symm
    exact MemoryStore.mem_records_removeRecord reachable found step history latest
  constructor
  · intro never saved member
    have gone := never [] after .refl saved (Or.inl (ending.2 ▸ member))
    rw [records saved member, not_and_not_right] at gone
    by_cases there : saved ∈ before.state.records
    · have selected := gone there
      split at selected
      · rename_i source
        exact Or.inr (Or.inl source)
      · exact Or.inl selected.symm
    · exact Or.inr (Or.inr there)
  · intro known rest later further key touched
    have final := (sound.step step).shut_run ending.1 further
    have confirmed : key ∈ later.history deletion.session.family ∨
        key ∈ later.process.dispatched ∧ key ∉ later.state.records :=
      touched.elim Or.inl fun added =>
        (MemorySound.reachable (reachable.tail step |>.run further)).followed_of_shut final.1
          (MemorySound.followed_of_added added)
    rcases confirmed with member | ⟨_, gone⟩
    · rw [final.2, ending.2] at member
      have born := (MemorySound.reachable_remembers reachable).born _ key member
      refine MemorySound.stays_gone (reachable.tail step) further
        ((sound.advances step).path.dispatched born) ?_
      rw [records key member]
      rintro ⟨there, other⟩
      rcases known key member with own | source | absent
      · refine other ?_
        split
        · rfl
        · exact own.symm
      · exact other (if_pos source).symm
      · exact absent there
    · exact gone

/-- A handle that was regenerated after the first save of its family logs it out, and a clone saves in
vain. A clone logs out while the first save is under way, and another clone saves in vain. -/
theorem logout_revokes_iff_of_regenerated :
    (∃ later : MemoryStore, "first" ∈ later.history 0 ∧ "first" ∉ later.state.records) ∧
      ∃ (trace : List (MemoryAction × Reply)) (later : MemoryStore),
        later.Added some trace 0 "first" ∧ "first" ∉ later.state.records := by
  constructor
  · obtain ⟨trace, before, deletion, after, rest, later, run, found, step, family, history, source,
      further, member⟩ : ∃ trace before deletion after rest later,
        (memoryStore some).Run .initial trace before ∧ before.process.deletions 0 = some deletion ∧
          (memoryStore some).step before (.removeRecord 0) = some (.done, after) ∧
            deletion.session.family = 0 ∧ before.history 0 = ["first"] ∧
              deletion.session.rotationFrom = some "first" ∧
                (memoryStore some).Run after rest later ∧ "first" ∈ later.history 0 :=
      ⟨_, _, _, _, _, _, Machine.run_replay _ _
        ([.handle (.new "first"), .handle (.clone 0), .handle (.clone 0)] ++
          MemoryAction.store 0 0 ++ [.handle (.regenerate 1 "second"), .destroySession 1,
            .grantDelete 0]) (by decide), rfl, rfl, rfl, rfl, rfl,
        Machine.run_replay _ _ [.storeSession 2] (by decide), by decide⟩
    have unrotated : ∀ saved ∈ before.history deletion.session.family, saved = "first" := by
      rw [family, history]
      exact fun _ => List.mem_singleton.mp
    refine ⟨later, member, (logout_revokes_iff run found step unrotated).mpr ?_ rest later further
      "first" (Or.inl (family ▸ member))⟩
    exact fun saved old => Or.inr (Or.inl (unrotated saved old ▸ source))
  · obtain ⟨earlier, locked, written, between, before, deletion, after, rest, later, first, write,
      adds, second, found, step, family, history, further⟩ : ∃ earlier locked written between before
        deletion after rest later, (memoryStore some).Run .initial earlier locked ∧
          (memoryStore some).step locked (.write 0) = some (.done, written) ∧
            MemoryAction.Adds 0 "first" locked (.write 0) .done written ∧
              (memoryStore some).Run written between before ∧
                before.process.deletions 0 = some deletion ∧
                  (memoryStore some).step before (.removeRecord 0) = some (.done, after) ∧
                    deletion.session.family = 0 ∧ before.history 0 = [] ∧
                      (memoryStore some).Run after rest later :=
      ⟨_, _, _, _, _, _, _, _, _, Machine.run_replay _ _
        [.handle (.new "first"), .handle (.clone 0), .handle (.clone 0), .storeSession 0, .capture 0,
          .beginBackendWrite 0, .lock 0] (by decide), rfl, ⟨0, _, rfl, rfl, rfl, rfl, rfl⟩,
        Machine.run_replay _ _ [.destroySession 1, .finish 0, .fail 0, .grantDelete 0] (by decide),
        rfl, rfl, rfl, rfl, Machine.run_replay _ _ [.storeSession 2] (by decide)⟩
    have added := (((Machine.Happened.now first write adds).run second).tail step).run further
    have unsaved : ∀ saved ∈ before.history deletion.session.family, saved = "first" := by
      rw [family, history]
      exact fun _ wrong => absurd wrong List.not_mem_nil
    refine ⟨_, later, added, (logout_revokes_iff ((first.tail write).trans second) found step
      unsaved).mpr ?_ rest later further "first" (Or.inr ?_)⟩
    · rw [family, history]
      exact fun _ wrong => absurd wrong List.not_mem_nil
    · rw [family]
      exact added

/-- A handle that was regenerated before the first save of its family logs out, and the record of
that save stays. -/
theorem logout_misses_record_of_first_save : ∃ (before after : MemoryStore) (deletion : Deletion),
    (memoryStore some).Reachable before ∧ before.process.deletions 0 = some deletion ∧
      before.history deletion.session.family = ["first"] ∧
        (memoryStore some).step before (.removeRecord 0) = some (.done, after) ∧
          "first" ∈ after.state.records := by
  have run := Machine.run_replay (memoryStore some) .initial
    ([.handle (.new "first"), .handle (.clone 0), .handle (.regenerate 1 "second")] ++
      MemoryAction.store 0 0 ++ [.destroySession 1, .grantDelete 0]) (by decide)
  exact ⟨_, _, _, ⟨_, _, rfl, run⟩, rfl, rfl, rfl, by decide⟩

end Saysion
