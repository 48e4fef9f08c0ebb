/-
This file proves that write authority is never regained. A handle without
authority is `Blocked`: it was not made by the process and its family has no
marker, or the marker of its family is neither its id nor its rotation source.
Every move keeps a blocked handle blocked, whatever the other handles of its
family do, because the marker only climbs to ids that are younger than every
rotation source it passed.
-/

import Saysion.SessionSave

namespace Saysion

namespace Session

/-- The marker of the family is neither the id nor the rotation source of the handle. -/
def Superseded (heap : Heap) (session : Session) : Prop :=
  ∃ marker, session.persistedId heap = some marker ∧ marker ≠ session.id ∧
    session.rotationFrom ≠ some marker

/-- A handle that may not write. -/
def Blocked (heap : Heap) (session : Session) : Prop :=
  (session.persistedId heap = none ∧ session.fresh = false) ∨ session.Superseded heap

/-- A blocked handle does not pass `persistence_attempt`. -/
theorem persistenceAttempt_of_blocked {heap : Heap} {session : Session}
    (blocked : session.Blocked heap) : ∃ error, session.persistenceAttempt heap = .error error := by
  have refused : ∃ error, session.persistenceOrigin heap = .error error := by
    rcases granted : session.persistenceOrigin heap with error | origin
    · exact ⟨error, rfl⟩
    · exfalso
      obtain ⟨marker, unsaved, saved⟩ := persistenceOrigin_ok.mp granted
      rcases blocked with ⟨unset, stale⟩ | ⟨current, set, different, unrelated⟩
      · have none : origin = none := marker.symm.trans unset
        cases stale.symm.trans (unsaved none).1
      · have some : origin = some current := marker.symm.trans set
        rcases saved (by rw [some]; simp) with own | rotates
        · exact different (Option.some.inj (some.symm.trans own))
        · exact unrelated (rotates.trans some)
  obtain ⟨error, refused⟩ := refused
  exact persistenceAttempt_error_of_origin refused

theorem Twin.blocked {heap : Heap} {first second : Session} (twin : first.Twin second)
    (blocked : first.Blocked heap) : second.Blocked heap := by
  have persisted : second.persistedId heap = first.persistedId heap := by
    rw [persistedId, shared, ← twin.family]
    rfl
  rcases blocked with ⟨unset, stale⟩ | ⟨marker, set, different, unrelated⟩
  · exact Or.inl ⟨persisted.trans unset, twin.fresh.symm.trans stale⟩
  · exact Or.inr ⟨marker, persisted.trans set, twin.id ▸ different, twin.rotationFrom ▸ unrelated⟩

/-- Regeneration of a blocked handle inherits nothing. -/
theorem blocked_regenerate {heap : Heap} {session : Session} {cookie : Cookie} {id : Id}
    (unseen : ∀ marker, session.persistedId heap = some marker → marker ≠ id)
    (blocked : session.Blocked heap) : (session.regenerate heap cookie id).Blocked heap := by
  rcases blocked with ⟨unset, stale⟩ | ⟨marker, set, different, unrelated⟩
  · exact Or.inl ⟨unset, stale⟩
  · refine Or.inr ⟨marker, set, unseen marker set, ?_⟩
    have foreign : ¬ (session.persistedId heap = some session.id ∨
        session.rotationFrom = session.persistedId heap) := by
      rw [set]
      rintro (own | rotates)
      · exact different (Option.some.inj own)
      · exact unrelated rotates
    show (if _ then _ else session.rotationFrom) ≠ some marker
    rw [if_neg foreign]
    exact unrelated

end Session

namespace Process

variable {idOf : Cookie → Option Id} {process middle after : Process} {kind : Kind}

/-- A move of the heap keeps a live blocked session blocked. -/
theorem Moves.blocked (move : Moves idOf process kind after) (authority : Authority process)
    {session : Session} (member : process.Live session) (blocked : session.Blocked process.heap) :
    session.Blocked after.heap := by
  have allocated := (authority.allocated session member).1
  rcases move.evolves.marker session.family allocated with same | ⟨unseen, _⟩ |
    ⟨index, save, found, together, origin, moved⟩
  · have persisted : session.persistedId after.heap = session.persistedId process.heap := same
    rcases blocked with ⟨unset, stale⟩ | ⟨marker, set, rest⟩
    · exact Or.inl ⟨persisted.trans unset, stale⟩
    · exact Or.inr ⟨marker, persisted.trans set, rest⟩
  · exact absurd (Or.inl ⟨session, member, rfl⟩) unseen
  have sourceLive : process.Live save.source := .save found
  have markers : save.source.persistedId process.heap = session.persistedId process.heap := by
    rw [Session.persistedId, Session.shared, together]
    rfl
  rcases blocked with ⟨unset, stale⟩ | ⟨marker, set, different, unrelated⟩
  · -- Only a fresh session can have made the first save of its family.
    exfalso
    have unsaved : save.origin = none := by
      by_contra saved
      obtain ⟨source, same⟩ := Option.ne_none_iff_exists'.mp saved
      obtain ⟨_, _, current, wrong, _⟩ := authority.origin_le index save source found same
      cases (markers.trans unset).symm.trans wrong
    have fresh := (authority.creating index save found unsaved).1
    have alike := authority.fresh_eq _ _ sourceLive member together
    cases (alike.symm.trans fresh).symm.trans stale
  · have rotates : save.source.rotationFrom = some marker := by
      rcases origin with unset | rotates
      · cases unset.symm.trans set
      · exact rotates.trans set
    refine Or.inr ⟨save.source.id, moved, ?_, ?_⟩
    · -- One id has one rotation source.
      intro same
      exact unrelated ((authority.rotation_eq _ _ sourceLive member together same).symm.trans rotates)
    · -- No source is younger than the marker, and the new marker is.
      intro inherited
      obtain ⟨_, _, current, now, below⟩ :=
        authority.rotation_lt session member save.source.id inherited
      obtain rfl : current = marker := Option.some.inj (now.symm.trans set)
      have above := (authority.rotation_lt save.source sourceLive current rotates).2.1
      exact absurd below (Nat.not_le_of_gt above)

/-- What a move does to the handles: each is new, or is what it was up to an edit, or was
regenerated with a new id. -/
structure Handed (before after : Process) : Prop where
  nextHandle : before.nextHandle ≤ after.nextHandle
  handle : ∀ index session, after.handles index = some session →
    (before.nextHandle ≤ index ∧ index < after.nextHandle) ∨
      ∃ older, before.handles index = some older ∧ (older.Twin session ∨
        ∃ cookie id, id ∉ before.seen ∧ session = older.regenerate before.heap cookie id ∧
          after.heap = before.heap)

theorem handed_of_same (handles : after.handles = process.handles)
    (next : after.nextHandle = process.nextHandle) : process.Handed after :=
  ⟨next.ge, fun _ session found => Or.inr ⟨session, handles ▸ found, Or.inl (.refl _)⟩⟩

theorem handed_of_add {session : Session}
    (handles : after.handles =
      Function.update process.handles process.nextHandle (some session))
    (next : after.nextHandle = process.nextHandle + 1) : process.Handed after := by
  refine ⟨next ▸ Nat.le_succ _, fun index other found => ?_⟩
  rw [handles] at found
  rcases update_eq_some found with ⟨rfl, _⟩ | ⟨_, earlier⟩
  · exact Or.inl ⟨le_rfl, next ▸ Nat.lt_succ_self _⟩
  · exact Or.inr ⟨other, earlier, Or.inl (.refl _)⟩

theorem handed_of_drop {index : Nat}
    (handles : after.handles = Function.update process.handles index none)
    (next : after.nextHandle = process.nextHandle) : process.Handed after := by
  refine ⟨next.ge, fun key session found => ?_⟩
  rw [handles] at found
  rcases update_eq_some found with ⟨_, wrong⟩ | ⟨_, earlier⟩
  · cases wrong
  · exact Or.inr ⟨session, earlier, Or.inl (.refl _)⟩

theorem handed_of_set {index : Nat} {older newer : Session}
    (found : process.handles index = some older)
    (handles : after.handles = Function.update process.handles index (some newer))
    (next : after.nextHandle = process.nextHandle)
    (relation : older.Twin newer ∨ ∃ cookie id, id ∉ process.seen ∧
      newer = older.regenerate process.heap cookie id ∧ after.heap = process.heap) :
    process.Handed after := by
  refine ⟨next.ge, fun key session lookup => ?_⟩
  rw [handles] at lookup
  rcases update_eq_some lookup with ⟨rfl, same⟩ | ⟨_, earlier⟩
  · obtain rfl := Option.some.inj same
    exact Or.inr ⟨older, found, relation⟩
  · exact Or.inr ⟨session, earlier, Or.inl (.refl _)⟩

theorem handed_dropGuard (process : Process) (index : Nat) :
    process.Handed (process.dropGuard index) := by
  obtain ⟨heap, dropped⟩ := process.dropGuard_eq index
  rw [dropped]
  exact handed_of_same rfl rfl

theorem handed_dropSave (process : Process) (index : Nat) :
    process.Handed (process.dropSave index) := by
  obtain ⟨heap, dropped⟩ := process.dropSave_eq index
  rw [dropped]
  exact handed_of_same rfl rfl

theorem handed_handleStep {action : HandleAction} {reply : Reply}
    (step : process.handleStep idOf action = some (reply, after)) : process.Handed after := by
  rcases handleStep_cases step with
    ⟨cookie, id, _, _, _, rfl⟩ | ⟨index, session, _, _, _, rfl⟩ |
    ⟨index, cookie, session, id, _, found, drawn, _, rfl⟩ |
    ⟨index, session, renewed, cell, found, twin, _, rfl⟩ | ⟨index, session, _, _, _, rfl⟩ |
    ⟨index, session, _, _, _, rfl⟩
  · exact handed_of_add rfl rfl
  · exact handed_of_add rfl rfl
  · exact handed_of_set found rfl rfl (Or.inr ⟨cookie, id, (draw_eq_some drawn).2, rfl, rfl⟩)
  · exact handed_of_set found rfl rfl (Or.inl twin)
  · exact handed_of_same rfl rfl
  · exact handed_of_drop rfl rfl

theorem Moves.handed (move : Moves idOf process kind after) : process.Handed after := by
  cases move with
  | handle step => exact handed_handleStep step
  | adopt _ _ => exact handed_of_add rfl rfl
  | trust _ => exact handed_of_add rfl rfl
  | deserialize wire => exact handed_of_add rfl rfl
  | attempt step =>
    obtain ⟨session, _, ⟨_, _, _, rfl⟩ | ⟨_, _, _, _, rfl⟩⟩ := attempt_cases step <;>
      exact handed_of_drop rfl rfl
  | captureImmutable step =>
    obtain ⟨save, _, _, rfl⟩ := captureImmutable_cases step
    exact handed_of_same rfl rfl
  | capturePersistence step =>
    obtain ⟨save, _, _, _, rfl⟩ := capturePersistence_cases step
    exact handed_of_same rfl rfl
  | annotate _ _ _ => exact handed_of_same rfl rfl
  | acquire _ step =>
    obtain ⟨save, _, _, _, ⟨_, _, _, _, rfl⟩ | ⟨_, _, _, _, rfl⟩⟩ := acquire_cases step <;>
      exact handed_of_same rfl rfl
  | dispatch _ _ _ _ step =>
    obtain ⟨save, _, rfl⟩ := dispatch_cases step
    exact handed_of_same rfl rfl
  | finish step =>
    obtain ⟨guard, _, _, rfl⟩ := finish_cases step
    exact handed_of_same rfl rfl
  | requireCleanup step =>
    obtain ⟨guard, _, rfl⟩ := requireCleanup_cases step
    exact handed_of_same rfl rfl
  | confirmRemoved step =>
    obtain ⟨guard, _, rfl⟩ := confirmRemoved_cases step
    exact handed_of_same rfl rfl
  | dropGuard index => exact handed_dropGuard process index
  | dropSave index => exact handed_dropSave process index
  | @abandon index _ =>
    obtain ⟨heap, abandoned⟩ := process.abandon_eq index
    rw [abandoned]
    exact handed_of_same rfl rfl
  | complete guarded step =>
    obtain ⟨save, revision, _, _, _, rfl⟩ := complete_of_guard guarded step
    exact handed_of_same rfl rfl
  | acknowledge step =>
    obtain ⟨save, revision, _, _, _, rfl⟩ := acknowledge_cases step
    exact handed_of_same rfl rfl
  | requestDelete step =>
    obtain ⟨session, _, _, rfl⟩ := requestDelete_cases step
    exact handed_of_same rfl rfl
  | grantDelete step =>
    obtain ⟨deletion, _, _, _, ⟨_, _, _, rfl⟩ | ⟨_, _, _, _, rfl⟩⟩ := grantDelete_cases step <;>
      exact handed_of_same rfl rfl
  | dropDelete index =>
    obtain ⟨heap, dropped⟩ := process.dropDelete_eq index
    rw [dropped]
    exact handed_of_same rfl rfl
  | conceal _ => exact handed_of_same rfl rfl

/-! ### Blocked handles over a path -/

/-- Handles keep their index, and blocked handles stay blocked. -/
structure Carries (before after : Process) : Prop where
  nextHandle : before.nextHandle ≤ after.nextHandle
  handle : ∀ index session, after.handles index = some session →
    (before.nextHandle ≤ index ∧ index < after.nextHandle) ∨
      ∃ older, before.handles index = some older ∧
        (older.Blocked before.heap → session.Blocked after.heap)

theorem Carries.refl (process : Process) : process.Carries process :=
  ⟨le_rfl, fun _ session found => Or.inr ⟨session, found, fun blocked => blocked⟩⟩

theorem Carries.trans (first : process.Carries middle) (second : middle.Carries after) :
    process.Carries after where
  nextHandle := first.nextHandle.trans second.nextHandle
  handle index session found := by
    rcases second.handle index session found with ⟨new, below⟩ | ⟨between, earlier, later⟩
    · exact Or.inl ⟨first.nextHandle.trans new, below⟩
    · rcases first.handle index between earlier with ⟨new, below⟩ | ⟨older, oldest, sooner⟩
      · exact Or.inl ⟨new, below.trans_le second.nextHandle⟩
      · exact Or.inr ⟨older, oldest, fun blocked => later (sooner blocked)⟩

theorem Moves.carries (move : Moves idOf process kind after) (authority : Authority process) :
    process.Carries after where
  nextHandle := move.handed.nextHandle
  handle index session found := by
    rcases move.handed.handle index session found with new | ⟨older, earlier, relation⟩
    · exact Or.inl new
    refine Or.inr ⟨older, earlier, fun blocked => ?_⟩
    have member : process.Live older := .handle earlier
    rcases relation with twin | ⟨cookie, id, unseen, rfl, same⟩
    · exact twin.blocked (move.blocked authority member blocked)
    · rw [same]
      refine Session.blocked_regenerate (fun marker set => ?_) blocked
      exact ne_of_mem_of_not_mem (authority.markerSeen older member marker set) unseen

theorem Path.carries {allowed : Kind → Prop} (path : Path idOf allowed process after)
    (authority : Authority process) : process.Carries after :=
  path.related Carries.refl Carries.trans (fun _ earlier move => Authority.moves earlier move)
    (fun _ earlier move => move.carries earlier) authority

end Process

/-! ### The handles derived from a handle -/

/-- The indices of a handle and of everything cloned from it in a trace, which is latest first.
Regeneration and edits keep the index. -/
def descendants (index : Nat) : List (SaveAction × Reply) → List Nat
  | [] => [index]
  | (.handle (.clone source), .handle copy) :: earlier =>
    if source ∈ descendants index earlier then copy :: descendants index earlier
    else descendants index earlier
  | _ :: earlier => descendants index earlier

theorem descendants_cons {index key : Nat} {action : SaveAction} {reply : Reply}
    {earlier : List (SaveAction × Reply)}
    (member : key ∈ descendants index ((action, reply) :: earlier)) :
    key ∈ descendants index earlier ∨ ∃ source, action = .handle (.clone source) ∧
      reply = .handle key ∧ source ∈ descendants index earlier := by
  unfold descendants at member
  split at member
  · rename_i impossible
    cases impossible
  · rename_i source copy rest same
    cases same
    split at member
    · rename_i derived
      rcases List.mem_cons.mp member with rfl | older
      · exact Or.inr ⟨source, rfl, rfl, derived⟩
      · exact Or.inl older
    · exact Or.inl member
  · rename_i rest _ same
    cases same
    exact Or.inl member

/-- No handle has an index that was not handed out. -/
def Process.Numbered (process : Process) : Prop :=
  ∀ index, process.nextHandle ≤ index → process.handles index = none

namespace Process

variable {idOf : Cookie → Option Id} {process after : Process}

theorem Carries.numbered (carries : process.Carries after) (numbered : process.Numbered) :
    after.Numbered := by
  intro index unused
  by_contra some
  obtain ⟨session, found⟩ := Option.ne_none_iff_exists'.mp some
  rcases carries.handle index session found with ⟨_, below⟩ | ⟨older, earlier, _⟩
  · exact absurd below (Nat.not_lt_of_ge unused)
  · cases (numbered index (carries.nextHandle.trans unused)).symm.trans earlier

theorem Numbered.lt {index : Nat} {session : Session} (numbered : process.Numbered)
    (found : process.handles index = some session) : index < process.nextHandle := by
  by_contra beyond
  cases (numbered index (Nat.le_of_not_lt beyond)).symm.trans found

/-- A clone is a new handle for the same session, in the same heap. -/
theorem cloned {source copy : Nat}
    (step : (sessionSave idOf).step process (.handle (.clone source)) = some (.handle copy, after)) :
    ∃ session, process.handles source = some session ∧ copy = process.nextHandle ∧
      after = process.addHandle session.clone process.heap := by
  have step : process.handleStep idOf (.clone source) = some (.handle copy, after) := step
  simp only [handleStep, Option.bind_eq_bind, Option.bind_eq_some_iff] at step
  obtain ⟨session, found, step⟩ := step
  cases step
  exact ⟨session, found, rfl, rfl⟩

end Process

/-- The handles derived from a blocked handle are blocked for the rest of the run. -/
theorem blocked_descendants {idOf : Cookie → Option Id} {start state : Process}
    {trace : List (SaveAction × Reply)} {index : Nat} (sound : Sound start)
    (numbered : start.Numbered) (used : index < start.nextHandle)
    (blocked : ∀ session, start.handles index = some session → session.Blocked start.heap)
    (run : (sessionSave idOf).Run start trace state) :
    Sound state ∧ state.Numbered ∧ ∀ key ∈ descendants index trace, key < state.nextHandle ∧
      ∀ session, state.handles key = some session → session.Blocked state.heap := by
  induction run with
  | refl =>
    refine ⟨sound, numbered, fun key member => ?_⟩
    obtain rfl : key = index := List.mem_singleton.mp member
    exact ⟨used, blocked⟩
  | @tail trace middle next action reply _ step inductionHypothesis =>
    obtain ⟨soundMiddle, numberedMiddle, earlier⟩ := inductionHypothesis
    have carries : middle.Carries next :=
      (Process.saveStep_path soundMiddle.authority soundMiddle.locking step).carries
        soundMiddle.authority
    refine ⟨soundMiddle.step step, carries.numbered numberedMiddle, fun key member => ?_⟩
    rcases descendants_cons member with older | ⟨source, rfl, rfl, derived⟩
    · obtain ⟨below, stays⟩ := earlier key older
      refine ⟨below.trans_le carries.nextHandle, fun session found => ?_⟩
      rcases carries.handle key session found with ⟨new, _⟩ | ⟨before, lookup, keeps⟩
      · exact absurd below (Nat.not_lt_of_ge new)
      · exact keeps (stays before lookup)
    · obtain ⟨session, found, rfl, rfl⟩ := Process.cloned step
      refine ⟨Nat.lt_succ_self _, fun copy lookup => ?_⟩
      have blockedSource := (earlier source derived).2 session found
      rcases update_eq_some lookup with ⟨_, same⟩ | ⟨different, _⟩
      · rw [← Option.some.inj same]
        exact Session.Twin.blocked ⟨rfl, rfl, rfl, rfl, rfl⟩ blockedSource
      · exact absurd rfl different

/-! ### Lost authority is final -/

/-- A handle that came from `Deserialize` and was not validated since: it was deserialized, or
derived from such a handle. -/
def Deserialized (idOf : Cookie → Option Id) (process : Process) (index : Nat) : Prop :=
  ∃ before wire root after trace, (sessionSave idOf).Reachable before ∧
    (sessionSave idOf).step before (.deserialize wire) = some (.handle root, after) ∧
      (sessionSave idOf).Run after trace process ∧ index ∈ descendants root trace

section

variable {idOf : Cookie → Option Id} {process later : Process}
  {trace : List (SaveAction × Reply)}

theorem numbered_of_reachable (reachable : (sessionSave idOf).Reachable process) :
    process.Numbered := by
  obtain ⟨start, trace, initial, run⟩ := reachable
  obtain rfl : start = Process.initial := initial
  induction run with
  | refl => exact fun _ _ => rfl
  | tail run step inductionHypothesis =>
    have sound := Sound.reachable ⟨Process.initial, _, rfl, run⟩
    exact ((Process.saveStep_path sound.authority sound.locking step).carries
      sound.authority).numbered inductionHypothesis

theorem climbs_of_run (sound : Sound process) (run : (sessionSave idOf).Run process trace later) :
    process.Climbs later :=
  run.related Process.Climbs.refl Process.Climbs.trans (fun earlier step => earlier.step step)
    (fun earlier step => (Process.saveStep_path earlier.authority earlier.locking step).climbs
      earlier.authority) sound

/-- A deserialized handle is blocked. -/
theorem blocked_of_deserialized {index : Nat} {session : Session}
    (deserialized : Deserialized idOf process index)
    (found : process.handles index = some session) : session.Blocked process.heap := by
  obtain ⟨before, wire, root, after, trace, reachable, step, run, member⟩ := deserialized
  have numbered := numbered_of_reachable (reachable.tail step)
  have sound := Sound.reachable (reachable.tail step)
  cases step
  have blocked : ∀ session,
      (before.deserialize wire).handles before.nextHandle = some session →
        session.Blocked (before.deserialize wire).heap := by
    intro session lookup
    rcases update_eq_some lookup with ⟨_, same⟩ | ⟨different, _⟩
    · obtain rfl := Option.some.inj same
      refine Or.inl ⟨?_, rfl⟩
      show (((before.heap.allocFamily {}).allocCell _).families
        before.heap.nextFamily).persistedId = none
      rw [Heap.allocCell_families, Heap.allocFamily_self]
    · exact absurd rfl different
  obtain ⟨_, _, stays⟩ := blocked_descendants sound numbered (Nat.lt_succ_self _) blocked run
  exact (stays index member).2 session found

end

/-- Write authority is never regained. From a handle that was deserialized and not validated, or
that the marker has left behind, nobody derives a handle that passes `persistence_attempt`; and a
marker, or its absence, that a family has left never comes back. -/
theorem lost_authority_is_final (idOf : Cookie → Option Id) :
    (∀ (process later : Process) (trace : List (SaveAction × Reply)) (index : Nat)
      (session : Session), (sessionSave idOf).Reachable process →
      process.handles index = some session →
      Deserialized idOf process index ∨ session.Superseded process.heap →
      (sessionSave idOf).Run process trace later →
      ∀ key ∈ descendants index trace, ∀ derived, later.handles key = some derived →
        ∃ error, derived.persistenceAttempt later.heap = .error error) ∧
    ∀ (process middle later : Process) (first second : List (SaveAction × Reply)) (index : Nat)
      (session : Session), (sessionSave idOf).Reachable process →
      process.handles index = some session →
      (sessionSave idOf).Run process first middle → (sessionSave idOf).Run middle second later →
      session.persistedId middle.heap ≠ session.persistedId process.heap →
        session.persistedId later.heap ≠ session.persistedId process.heap := by
  constructor
  · intro process later trace index session reachable found lost run key member derived lookup
    have sound := Sound.reachable reachable
    have numbered := numbered_of_reachable reachable
    have blocked : session.Blocked process.heap := by
      rcases lost with deserialized | superseded
      · exact blocked_of_deserialized deserialized found
      · exact Or.inr superseded
    have start : ∀ other, process.handles index = some other → other.Blocked process.heap := by
      intro other same
      obtain rfl := Option.some.inj (found.symm.trans same)
      exact blocked
    obtain ⟨_, _, stays⟩ := blocked_descendants sound numbered (numbered.lt found) start run
    exact Session.persistenceAttempt_of_blocked ((stays key member).2 derived lookup)
  · intro process middle later first second index session reachable found earlier run left
    have sound := Sound.reachable reachable
    have allocated := (sound.authority.allocated session (.handle found)).1
    have climb := climbs_of_run sound earlier
    have climbOn := climbs_of_run (Sound.reachable (reachable.run earlier)) run
    cases current : session.persistedId process.heap with
    | none =>
      rw [current] at left
      obtain ⟨between, set⟩ := Option.ne_none_iff_exists'.mp left
      obtain ⟨new, still, _⟩ :=
        climbOn.marker session.family (allocated.trans_le climb.nextFamily) between set
      intro unset
      cases unset.symm.trans still
    | some old =>
      rw [current] at left
      exact climb.never_returns climbOn allocated current left

/-- A superseded clone, cloned and regenerated once more, is refused. -/
theorem lost_authority_is_final_of_stale_clone : ∃ (later : Process) (derived : Session),
    later.handles 3 = some derived ∧ derived.id = "third" ∧
      ∃ error, derived.persistenceAttempt later.heap = .error error := by
  have before := Machine.run_replay (sessionSave some) Process.initial
    [.handle (.new "first"), .handle (.clone 0), .handle (.clone 0), .prepareSave 0, .complete 0,
      .handle (.regenerate 1 "second"), .prepareSave 1, .complete 1] (by decide)
  have run := Machine.run_replay (sessionSave some) (((sessionSave some).replay Process.initial
    [.handle (.new "first"), .handle (.clone 0), .handle (.clone 0), .prepareSave 0, .complete 0,
      .handle (.regenerate 1 "second"), .prepareSave 1, .complete 1]).get (by decide)).2
    [.handle (.clone 2), .handle (.regenerate 3 "third")] (by decide)
  refine ⟨_, _, ?_, ?_, (lost_authority_is_final some).1 _ _ _ 2 _ ⟨_, _, rfl, before⟩ rfl
    (Or.inr ⟨"second", rfl, by decide, by decide⟩) run 3 (by decide) _ rfl⟩
  · rfl
  · rfl

end Saysion
