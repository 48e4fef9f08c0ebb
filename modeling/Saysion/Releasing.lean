/-
This file proves that no lifecycle mutex is ever left taken. As long as a session
of a family is in use, the mutex of the family is taken only while the guard of a
save or a granted deletion holds it; so a call that has ended holds nothing back,
however it ended.
-/

import Saysion.Dispatching

namespace Saysion

namespace Process

variable {idOf : Cookie → Option Id} {process after : Process} {kind : Kind} {index : Nat}
  {reply : Reply}

/-- The mutex of a family in use is taken only while somebody holds it. -/
def Attended (process : Process) : Prop :=
  ∀ session, process.Live session → process.Taken session.family →
    ∃ holder, process.Holds session.family holder

theorem attended_initial : Attended initial := by
  rintro _ (found | found | found) <;> cases found

theorem Holds.congr {family : Ref} {holder : Nat ⊕ Nat} (holds : process.Holds family holder)
    (guards : after.guards = process.guards) (deletions : after.deletions = process.deletions) :
    after.Holds family holder := by
  rcases holder with key | key
  · obtain ⟨guard, found, own⟩ := holds
    exact ⟨guard, by rw [guards]; exact found, own⟩
  · obtain ⟨deletion, found, own⟩ := holds
    exact ⟨deletion, by rw [deletions]; exact found, own⟩

namespace Attended

/-- The sessions in use are of families that were in use. What is newly taken is held, and what
stays taken keeps its holder. -/
theorem move (attended : process.Attended) (authority : Authority process)
    (live : ∀ session, after.Live session → ∃ twin, process.Live twin ∧ twin.family = session.family)
    (taken : ∀ ref < process.heap.nextFamily, after.Taken ref →
      process.Taken ref ∨ ∃ holder, after.Holds ref holder)
    (holds : ∀ ref holder, process.Holds ref holder → after.Taken ref → after.Holds ref holder) :
    after.Attended := by
  intro session member now
  obtain ⟨twin, earlier, family⟩ := live session member
  rw [← family] at now ⊢
  rcases taken twin.family (authority.allocated twin earlier).1 now with before | held
  · obtain ⟨holder, held⟩ := attended twin earlier before
    exact ⟨holder, holds _ holder held now⟩
  · exact held

/-- Nothing is acquired or released. -/
theorem still (attended : process.Attended) (authority : Authority process)
    (live : ∀ session, after.Live session → ∃ twin, process.Live twin ∧ twin.family = session.family)
    (locked : ∀ ref < process.heap.nextFamily,
      (after.heap.families ref).locked = true → (process.heap.families ref).locked = true)
    (guards : after.guards = process.guards) (deletions : after.deletions = process.deletions) :
    after.Attended :=
  attended.move authority live (fun ref old taken => Or.inl (locked ref old taken))
    fun _ _ held _ => held.congr guards deletions

theorem live_follows (follows : process.Follows after) (session : Session)
    (member : after.Live session) : ∃ twin, process.Live twin ∧ twin.family = session.family := by
  obtain ⟨twin, earlier, same⟩ := follows.live session member
  exact ⟨twin, earlier, same.family⟩

/-- A session of a new family joins, and its mutex is free. -/
theorem join (attended : process.Attended) (authority : Authority process) (session : Session)
    (live : ∀ other, after.Live other → other = session ∨ process.Live other)
    (free : (after.heap.families session.family).locked = false)
    (locked : ∀ ref < process.heap.nextFamily,
      (after.heap.families ref).locked = true → (process.heap.families ref).locked = true)
    (guards : after.guards = process.guards) (deletions : after.deletions = process.deletions) :
    after.Attended := by
  intro other member now
  rcases live other member with rfl | earlier
  · cases free.symm.trans now
  · obtain ⟨holder, held⟩ := attended other earlier
      (locked other.family (authority.allocated other earlier).1 now)
    exact ⟨holder, held.congr guards deletions⟩

theorem locked_setFamily_eq (heap : Heap) (ref : Ref) (family : Family)
    (locked : family.locked = (heap.families ref).locked) (other : Ref) :
    ((heap.setFamily ref family).families other).locked = (heap.families other).locked := by
  by_cases same : other = ref
  · rw [same, Heap.setFamily_self, locked]
  · rw [heap.setFamily_of_ne ref family same]

theorem locked_alloc_eq (heap : Heap) (family : Family) (data : SessionData) {other : Ref}
    (old : other < heap.nextFamily) :
    (((heap.allocFamily family).allocCell data).families other).locked =
      (heap.families other).locked := by
  rw [Heap.allocCell_families, heap.allocFamily_of_lt family old]

theorem handleStep (attended : process.Attended) (authority : Authority process)
    {action : HandleAction} (step : process.handleStep idOf action = some (reply, after)) :
    after.Attended := by
  rcases Process.handleStep_cases step with
    ⟨cookie, id, _, _, _, rfl⟩ | ⟨index, session, _, found, _, rfl⟩ |
    ⟨index, cookie, session, id, _, found, _, _, rfl⟩ |
    ⟨index, session, renewed, cell, found, twin, _, rfl⟩ | ⟨index, session, _, _, _, rfl⟩ |
    ⟨index, session, _, _, _, rfl⟩
  · refine attended.join authority (Session.new process.heap cookie id).1 (fun other member => ?_) ?_
      (fun ref old taken => ?_) rfl rfl
    · exact (live_addHandle member).imp_right
        (live_congr process (process.see id) rfl rfl rfl).mp
    · show (((process.heap.allocFamily {}).allocCell {}).families process.heap.nextFamily).locked = _
      rw [Heap.allocCell_families, Heap.allocFamily_self]
    · exact (locked_alloc_eq process.heap {} {} old).symm.trans taken
  · exact attended.still authority (live_follows (process.follows_addHandle process.heap
      (Heap.Keeps.refl _) (.handle found) ⟨rfl, rfl, rfl, rfl, rfl⟩)) (fun _ _ taken => taken) rfl rfl
  · refine attended.still authority (fun other member => ?_) (fun _ _ taken => taken) rfl rfl
    rcases member with lookup | lookup | lookup
    · rcases update_eq_some lookup with ⟨_, same⟩ | ⟨_, earlier⟩
      · obtain rfl := Option.some.inj same
        exact ⟨session, .handle found, rfl⟩
      · exact ⟨other, .handle earlier, rfl⟩
    · exact ⟨_, .save lookup, rfl⟩
    · exact ⟨_, .deletion lookup, rfl⟩
  · exact attended.still authority (live_follows ((process.follows_setHandle index (.handle found)
      twin).trans (follows_heap _ (Heap.keeps_setCell _ _ _)))) (fun _ _ taken => taken) rfl rfl
  · refine attended.still authority (live_follows (process.follows_heap
      (Session.keeps_destroy _ _))) (fun ref _ taken => ?_) rfl rfl
    exact (locked_setFamily_eq process.heap session.family
      { session.shared process.heap with destroy := true } rfl ref).symm.trans taken
  · exact attended.still authority (live_follows (process.follows_dropHandle index))
      (fun _ _ taken => taken) rfl rfl

theorem adopt (attended : process.Attended) (authority : Authority process) {session : Session}
    {heap : Heap} (adopts : process.Adopts session heap) :
    ((process.see session.id).addHandle session heap).Attended := by
  refine attended.join authority session (fun other member => ?_) ?_ (fun ref old taken => ?_) rfl rfl
  · exact (live_addHandle member).imp_right
      (live_congr process (process.see session.id) rfl rfl rfl).mp
  · show (heap.families session.family).locked = false
    rw [adopts.marker]
  · have taken : (heap.families ref).locked = true := taken
    rwa [adopts.families ref old] at taken

theorem attempt (attended : process.Attended) (authority : Authority process)
    (step : process.attempt index = some (reply, after)) : after.Attended := by
  obtain ⟨session, found, ⟨error, _, _, rfl⟩ | ⟨origin, heap, granted, _, rfl⟩⟩ :=
    Process.attempt_cases step
  · exact attended.still authority (live_follows (process.follows_dropHandle index))
      (fun _ _ taken => taken) rfl rfl
  obtain ⟨_, _, changed⟩ := Session.persistenceAttempt_ok granted
  refine attended.still authority (fun other member => ?_) (fun ref _ taken => ?_) rfl rfl
  · rcases member with lookup | lookup | lookup
    · rcases update_eq_some lookup with ⟨_, wrong⟩ | ⟨_, earlier⟩
      · cases wrong
      · exact ⟨other, .handle earlier, rfl⟩
    · rcases update_eq_some lookup with ⟨_, same⟩ | ⟨_, earlier⟩
      · obtain rfl := Option.some.inj same
        exact ⟨session, .handle found, rfl⟩
      · exact ⟨_, .save earlier, rfl⟩
    · exact ⟨_, .deletion lookup, rfl⟩
  · have taken : (heap.families ref).locked = true := taken
    rw [changed] at taken
    split at taken
    · exact (locked_setFamily_eq process.heap session.family
        { session.shared process.heap with creationClaimed := true } rfl ref).symm.trans taken
    · exact taken

/-- A guard is replaced by one of the same family. -/
theorem setGuard (attended : process.Attended) (authority : Authority process)
    {guard newer : WriteGuard} (found : process.guards index = some guard)
    (family : newer.family = guard.family) : (process.setGuard index (some newer)).Attended := by
  refine attended.move authority (live_follows (process.follows_setGuard index _))
    (fun _ _ taken => Or.inl taken) fun ref holder held _ => ?_
  rcases holder with key | key
  · obtain ⟨other, lookup, own⟩ := held
    by_cases same : key = index
    · subst same
      obtain rfl := Option.some.inj (found.symm.trans lookup)
      exact ⟨newer, Function.update_self _ _ _, family.trans own⟩
    · exact ⟨other, (Function.update_of_ne same _ _).trans lookup, own⟩
  · exact held

/-- A guard that is dropped releases its mutex. -/
theorem dropGuard (attended : process.Attended) (authority : Authority process) (index : Nat) :
    (process.dropGuard index).Attended := by
  have follows := process.follows_dropGuard index
  unfold Process.dropGuard at follows ⊢
  split
  · exact attended
  rename_i guard found
  rw [found] at follows
  have free : ((guard.drop process.heap).families guard.family).locked = false := by
    rw [WriteGuard.drop, Heap.unlock, Heap.setFamily_self]
  refine attended.move authority (live_follows follows) (fun ref _ taken => ?_)
    fun ref holder held taken => ?_
  · have different : ref ≠ guard.family := by
      rintro rfl
      cases free.symm.trans taken
    refine Or.inl ?_
    have taken : ((process.heap.setFamily guard.family _).families ref).locked = true := taken
    rwa [Heap.setFamily_of_ne _ _ _ different] at taken
  · rcases holder with key | key
    · obtain ⟨other, lookup, own⟩ := held
      have different : key ≠ index := by
        rintro rfl
        obtain rfl := Option.some.inj (found.symm.trans lookup)
        rw [← own] at taken
        cases free.symm.trans taken
      exact ⟨other, (Function.update_of_ne different _ _).trans lookup, own⟩
    · exact held

theorem dropSave (attended : process.Attended) (authority : Authority process) (index : Nat) :
    (process.dropSave index).Attended := by
  have follows := process.follows_dropSave index
  unfold Process.dropSave at follows ⊢
  split
  · exact attended
  · rename_i save found
    rw [found] at follows
    refine attended.still authority (live_follows follows) (fun ref _ taken => ?_) rfl rfl
    dsimp only at taken
    split at taken <;> exact taken

theorem acknowledge (attended : process.Attended) (authority : Authority process)
    {cookie : Option Cookie} (step : process.acknowledge index = some (cookie, after)) :
    after.Attended := by
  obtain ⟨save, revision, found, _, _, rfl⟩ := Process.acknowledge_cases step
  refine attended.still authority (fun other member => ?_) (fun ref _ taken => ?_) rfl rfl
  · rcases member with lookup | lookup | lookup
    · exact ⟨other, .handle lookup, rfl⟩
    · rcases update_eq_some lookup with ⟨_, wrong⟩ | ⟨_, earlier⟩
      · cases wrong
      · exact ⟨_, .save earlier, rfl⟩
    · exact ⟨_, .deletion lookup, rfl⟩
  · have taken : ((save.source.markPersisted process.heap).families ref).locked = true := taken
    rwa [Locking.markPersisted] at taken

theorem acquire (attended : process.Attended) (authority : Authority process)
    {receipt : Option Nat} {canOutliveFuture : Bool} {result : Except Error Unit}
    (step : process.acquire index receipt canOutliveFuture = some (result, after)) :
    after.Attended := by
  have live := live_follows (Process.follows_acquire step)
  obtain ⟨save, found, unguarded, free, outcome⟩ := Process.acquire_cases step
  rcases outcome with ⟨error, heap, refused, _, rfl⟩ | ⟨guard, heap, granted, _, rfl⟩
  · refine attended.still authority live (fun ref _ taken => ?_) rfl rfl
    rcases Session.beginGuardedWrite_error refused with rfl | rfl
    · exact taken
    · by_cases same : ref = save.source.family
      · rw [same, Heap.unlock, Heap.setFamily_self] at taken
        cases taken
      · rwa [Heap.unlock, Heap.setFamily_of_ne _ _ _ same, Heap.lock,
          Heap.setFamily_of_ne _ _ _ same] at taken
  · obtain ⟨_, _, _, rfl, rfl⟩ := Session.beginGuardedWrite_ok granted
    refine attended.move authority live (fun ref _ taken => ?_) fun ref holder held _ => ?_
    · by_cases same : ref = save.source.family
      · exact Or.inr ⟨.inl index, _, Function.update_self _ _ _, same.symm⟩
      · have taken : ((process.heap.lock save.source.family).families ref).locked = true := taken
        rw [Heap.lock, Heap.setFamily_of_ne _ _ _ same] at taken
        exact Or.inl taken
    · rcases holder with key | key
      · obtain ⟨other, lookup, own⟩ := held
        have different : key ≠ index := by
          rintro rfl
          cases unguarded.symm.trans lookup
        exact ⟨other, (Function.update_of_ne different _ _).trans lookup, own⟩
      · exact held

theorem requestDelete (attended : process.Attended) (authority : Authority process)
    (locking : Locking process) (step : process.requestDelete index = some (reply, after)) :
    after.Attended := by
  have live := live_follows (Process.follows_requestDelete step)
  obtain ⟨session, _, _, rfl⟩ := Process.requestDelete_cases step
  refine attended.move authority live (fun ref _ taken => Or.inl ?_) fun ref holder held _ => ?_
  · exact (locked_setFamily_eq process.heap session.family
      { session.shared process.heap with destroy := true } rfl ref).symm.trans taken
  · rcases holder with key | key
    · exact held
    · obtain ⟨deletion, lookup, own⟩ := held
      have different : key ≠ process.nextDeletion := by
        rintro rfl
        cases (locking.unusedDeletion _ le_rfl).symm.trans lookup
      exact ⟨deletion, (Function.update_of_ne different _ _).trans lookup, own⟩

theorem grantDelete (attended : process.Attended) (authority : Authority process)
    (step : process.grantDelete index = some (reply, after)) : after.Attended := by
  have live := live_follows (Process.follows_grantDelete step)
  obtain ⟨deletion, found, waiting, free, outcome⟩ := Process.grantDelete_cases step
  -- The deletion that is granted or refused held nothing before.
  have different : ∀ {key : Nat} {other : Deletion}, process.deletions key = some other →
      other.target ≠ none → key ≠ index := by
    rintro key other lookup granted rfl
    obtain rfl := Option.some.inj (found.symm.trans lookup)
    exact granted waiting
  rcases outcome with ⟨error, _, _, rfl⟩ | ⟨target, heap, granted, _, rfl⟩
  · refine attended.move authority live (fun _ _ taken => Or.inl taken) fun ref holder held _ => ?_
    rcases holder with key | key
    · exact held
    · obtain ⟨other, lookup, own⟩ := held
      exact ⟨other, (Function.update_of_ne (different lookup own.1) _ _).trans lookup, own⟩
  · obtain ⟨_, rfl, _⟩ := Session.beginDelete_ok granted
    refine attended.move authority live (fun ref _ taken => ?_) fun ref holder held _ => ?_
    · by_cases same : ref = deletion.session.family
      · exact Or.inr ⟨.inr index, _, Function.update_self _ _ _, Option.some_ne_none _, same.symm⟩
      · have taken : ((process.heap.lock deletion.session.family).families ref).locked = true := taken
        rw [Heap.lock, Heap.setFamily_of_ne _ _ _ same] at taken
        exact Or.inl taken
    · rcases holder with key | key
      · exact held
      · obtain ⟨other, lookup, own⟩ := held
        exact ⟨other, (Function.update_of_ne (different lookup own.1) _ _).trans lookup, own⟩

theorem dropDelete (attended : process.Attended) (authority : Authority process) (index : Nat) :
    (process.dropDelete index).Attended := by
  have follows := process.follows_dropDelete index
  unfold Process.dropDelete at follows ⊢
  split
  · exact attended
  rename_i deletion found
  rw [found] at follows
  have kept : ∀ {ref key : Nat}, (deletion.target ≠ none → ref ≠ deletion.session.family) →
      process.Holds ref (.inr key) → Function.update process.deletions index none key =
        process.deletions key := by
    rintro ref key apart ⟨other, lookup, granted, own⟩
    refine Function.update_of_ne ?_ _ _
    rintro rfl
    obtain rfl := Option.some.inj (found.symm.trans lookup)
    exact apart granted own.symm
  by_cases granted : deletion.target = none
  · refine attended.move authority (live_follows follows) (fun ref _ taken => Or.inl ?_)
      fun ref holder held _ => ?_
    · dsimp only [Taken] at taken
      rwa [if_pos granted] at taken
    · rcases holder with key | key
      · exact held
      · have same := kept (fun wrong => absurd granted wrong) held
        obtain ⟨other, lookup, own⟩ := held
        exact ⟨other, same.trans lookup, own⟩
  · have apart : ∀ {ref : Ref}, (Process.Taken { process.setDeletion index none with
        heap := if deletion.target = none then process.heap
          else process.heap.unlock deletion.session.family false } ref) →
        ref ≠ deletion.session.family ∧ process.Taken ref := by
      intro ref taken
      dsimp only [Taken] at taken
      rw [if_neg granted, Heap.unlock] at taken
      by_cases same : ref = deletion.session.family
      · rw [same, Heap.setFamily_self] at taken
        cases taken
      · rw [Heap.setFamily_of_ne _ _ _ same] at taken
        exact ⟨same, taken⟩
    refine attended.move authority (live_follows follows) (fun ref _ taken => Or.inl (apart taken).2)
      fun ref holder held taken => ?_
    rcases holder with key | key
    · exact held
    · have same := kept (fun _ => (apart taken).1) held
      obtain ⟨other, lookup, own⟩ := held
      exact ⟨other, same.trans lookup, own⟩

/-- Every move leaves the mutexes attended. -/
theorem moves (attended : process.Attended) (authority : Authority process)
    (locking : Locking process) (move : Moves idOf process kind after) : after.Attended := by
  cases move with
  | handle step => exact attended.handleStep authority step
  | adopt fetches _ => exact attended.adopt authority fetches.toAdopts
  | trust adopts => exact attended.adopt authority adopts
  | deserialize wire =>
    refine attended.join authority (Session.deserialize process.heap wire).1
      (fun other member => live_addHandle member) ?_ (fun ref old taken => ?_) rfl rfl
    · show (((process.heap.allocFamily {}).allocCell _).families process.heap.nextFamily).locked = _
      rw [Heap.allocCell_families, Heap.allocFamily_self]
    · exact (locked_alloc_eq process.heap {} _ old).symm.trans taken
  | attempt step => exact attended.attempt authority step
  | captureImmutable step =>
    have live := live_follows (Process.follows_captureImmutable step)
    obtain ⟨save, found, _, rfl⟩ := Process.captureImmutable_cases step
    exact attended.still authority live (fun _ _ taken => taken) rfl rfl
  | capturePersistence step =>
    have live := live_follows (Process.follows_capturePersistence step)
    obtain ⟨save, found, _, _, rfl⟩ := Process.capturePersistence_cases step
    refine attended.still authority live (fun ref old taken => ?_) rfl rfl
    exact (locked_alloc_eq process.heap { destroy := save.source.isDestroyed process.heap }
      (.ofValues (save.source.sessionData process.heap).values) old).symm.trans taken
  | annotate _ _ found =>
    refine attended.still authority (live_follows (process.follows_setSave _ _ fun newer same => ?_))
      (fun _ _ taken => taken) rfl rfl
    obtain rfl := Option.some.inj same
    exact ⟨_, found, rfl, rfl⟩
  | acquire _ step => exact attended.acquire authority step
  | dispatch _ _ _ _ step =>
    have live := live_follows (Process.follows_dispatch step)
    obtain ⟨save, found, rfl⟩ := Process.dispatch_cases step
    exact attended.still authority live (fun _ _ taken => taken) rfl rfl
  | finish step =>
    obtain ⟨guard, found, _, rfl⟩ := Process.finish_cases step
    exact attended.setGuard authority found rfl
  | requireCleanup step =>
    obtain ⟨guard, found, rfl⟩ := Process.requireCleanup_cases step
    exact attended.setGuard authority found rfl
  | confirmRemoved step =>
    obtain ⟨guard, found, rfl⟩ := Process.confirmRemoved_cases step
    exact attended.setGuard authority found rfl
  | dropGuard index => exact attended.dropGuard authority index
  | dropSave index => exact attended.dropSave authority index
  | abandon _ =>
    exact (attended.dropGuard authority _).dropSave (authority.follow (process.follows_dropGuard _)) _
  | complete _ step =>
    obtain ⟨middle, acknowledged, rfl⟩ := Process.complete_cases step
    exact (attended.acknowledge authority acknowledged).dropGuard (authority.acknowledge acknowledged) _
  | acknowledge step => exact attended.acknowledge authority step
  | requestDelete step => exact attended.requestDelete authority locking step
  | grantDelete step => exact attended.grantDelete authority step
  | dropDelete index => exact attended.dropDelete authority index
  | conceal hidden =>
    refine attended.still authority (fun other member => ⟨other, ?_, rfl⟩) (fun ref old taken => ?_)
      rfl rfl
    · rcases member with lookup | lookup | lookup
      · exact .handle lookup
      · exact .save lookup
      · exact .deletion lookup
    · rcases hidden.families ref old with same | ⟨_, _, _, marked⟩
      · exact (congrArg Family.locked same).symm.trans taken
      · exact (congrArg Family.locked marked).symm.trans taken

/-- A path of coordinated moves leaves the mutexes attended. -/
theorem path (attended : process.Attended) (dispatching : Dispatching process)
    (path : Path idOf Coordinated process after) : after.Attended := by
  induction path with
  | refl => exact attended
  | @tail middle _ earlier move inductionHypothesis =>
    obtain ⟨kind, _, move⟩ := move
    have sound : Dispatching middle := dispatching.path earlier
    exact inductionHypothesis.moves sound.authority sound.locking move

end Attended

end Process

end Saysion
