/-
This file names the moves of a process: the operations of `Saysion/Process.lean`
with the conditions under which the stores and the save protocol use them. What
a store does to the process is a path of moves, so an invariant of moves is an
invariant of every store, and no store proves it again.

A move has a kind. The ordinary ones keep every invariant of the development, and
so do a guarded completion and the adoption of a loaded session, which are the
two that set markers. Outside the crate an application may bring a session with any id, and may drop a
save and its guard apart; an unguarded completion may move a marker under a guard
that another save holds; and a store may write to cells that no handle refers to.
The invariants of later files say which kinds they allow.
-/

import Mathlib.Logic.Relation
import Saysion.ProcessSteps

namespace Saysion

namespace Process

/-- `Session::deserialize` by an application that does not validate the result. -/
def deserialize (process : Process) (wire : SessionSnapshot) : Process :=
  process.addHandle (Session.deserialize process.heap wire).1
    (Session.deserialize process.heap wire).2

/-- A session that `validate_loaded` made: in a family of its own, whose marker is its id. -/
structure Adopts (process : Process) (session : Session) (heap : Heap) : Prop where
  nextFamily : process.heap.nextFamily ≤ session.family
  family : session.family < heap.nextFamily
  nextCell : process.heap.nextCell ≤ heap.nextCell
  data : session.data < heap.nextCell
  families : ∀ ref < process.heap.nextFamily, heap.families ref = process.heap.families ref
  marker : heap.families session.family = { persistedId := some session.id }
  rotationFrom : session.rotationFrom = none
  fresh : session.fresh = false

/-- A session that a store read: all its cells are its own. -/
structure Fetches (process : Process) (session : Session) (heap : Heap) : Prop
    extends process.Adopts session heap where
  fresh_data : process.heap.nextCell ≤ session.data
  cells : ∀ ref < process.heap.nextCell, heap.cells ref = process.heap.cells ref

/-- A family that something in the process still refers to. -/
def Refers (process : Process) (ref : Ref) : Prop :=
  (∃ session, process.Live session ∧ session.family = ref) ∨
    ∃ index guard, process.guards index = some guard ∧ guard.family = ref

/-- A change of the heap that no handle, save, deletion or guard can see: at most the marker of a
family nothing refers to is set. -/
structure Hidden (process : Process) (heap : Heap) : Prop where
  nextFamily : process.heap.nextFamily ≤ heap.nextFamily
  nextCell : process.heap.nextCell ≤ heap.nextCell
  cells : ∀ ref < process.heap.nextCell, heap.cells ref = process.heap.cells ref
  families : ∀ ref < process.heap.nextFamily, heap.families ref = process.heap.families ref ∨
    ¬ process.Refers ref ∧ (process.heap.families ref).persistedId = none ∧
      ∃ marker, heap.families ref = { process.heap.families ref with persistedId := marker }

/-- A save may be given up when it has started no creating write, when its family is destroyed,
or when dropping its guard records the outcome as uncertain. -/
def Abandonable (process : Process) (index : Nat) : Prop :=
  ∀ save, process.saves index = some save → save.dispatched = true →
    save.source.isDestroyed process.heap = true ∨
      ∃ guard, process.guards index = some guard ∧ guard.settled = false ∧
        guard.uncertainOnDrop = true

/-- The kinds of moves. -/
inductive Kind
  | ordinary
  | completion
  | adoption
  | outside
  | unguarded
  | store
  deriving DecidableEq

/-- The moves of a process. -/
inductive Moves (idOf : Cookie → Option Id) (process : Process) : Kind → Process → Prop
  | handle {action : HandleAction} {reply : Reply} {after : Process} :
      process.handleStep idOf action = some (reply, after) → Moves idOf process .ordinary after
  | adopt {session : Session} {heap : Heap} : process.Fetches session heap →
      session.id ∈ process.dispatched →
        Moves idOf process .adoption ((process.see session.id).addHandle session heap)
  | trust {session : Session} {heap : Heap} : process.Adopts session heap →
      Moves idOf process .outside ((process.see session.id).addHandle session heap)
  | deserialize (wire : SessionSnapshot) : Moves idOf process .outside (process.deserialize wire)
  | attempt {index : Nat} {reply : Reply} {after : Process} :
      process.attempt index = some (reply, after) → Moves idOf process .ordinary after
  | captureImmutable {index : Nat} {after : Process} :
      process.captureImmutable index = some after → Moves idOf process .ordinary after
  | capturePersistence {index : Nat} {snapshot : Session} {after : Process} :
      process.capturePersistence index = some (snapshot, after) →
        Moves idOf process .ordinary after
  | annotate {index : Nat} {save : Save} (writeStarted waiting : Bool) :
      process.saves index = some save →
        Moves idOf process .ordinary
          (process.setSave index (some { save with writeStarted, waiting }))
  | acquire {index : Nat} {receipt : Option Nat} {canOutliveFuture : Bool}
      {result : Except Error Unit} {after : Process} : receipt = none ∨ receipt = some index →
      process.acquire index receipt canOutliveFuture = some (result, after) →
        Moves idOf process .ordinary after
  | dispatch {index : Nat} {save : Save} {guard : WriteGuard} {after : Process} :
      process.saves index = some save → process.guards index = some guard → save.Creates →
        save.dispatched = false → process.dispatch index = some after →
          Moves idOf process .ordinary after
  | finish {index : Nat} {result : Except Error Unit} {after : Process} :
      process.finish index = some (result, after) → Moves idOf process .ordinary after
  | requireCleanup {index : Nat} {after : Process} :
      process.requireCleanup index = some after → Moves idOf process .ordinary after
  | confirmRemoved {index : Nat} {after : Process} :
      process.confirmRemoved index = some after → Moves idOf process .ordinary after
  | dropGuard (index : Nat) : Moves idOf process .outside (process.dropGuard index)
  | dropSave (index : Nat) : Moves idOf process .outside (process.dropSave index)
  | abandon {index : Nat} : process.Abandonable index →
      Moves idOf process .ordinary (process.abandon index)
  | complete {index : Nat} {guard : WriteGuard} {cookie : Option Cookie} {after : Process} :
      process.guards index = some guard → process.complete index = some (cookie, after) →
        Moves idOf process .completion after
  | acknowledge {index : Nat} {cookie : Option Cookie} {after : Process} :
      process.acknowledge index = some (cookie, after) → Moves idOf process .unguarded after
  | requestDelete {index : Nat} {reply : Reply} {after : Process} :
      process.requestDelete index = some (reply, after) → Moves idOf process .ordinary after
  | grantDelete {index : Nat} {reply : Reply} {after : Process} :
      process.grantDelete index = some (reply, after) → Moves idOf process .ordinary after
  | dropDelete (index : Nat) : Moves idOf process .ordinary (process.dropDelete index)
  | conceal {heap : Heap} : process.Hidden heap →
      Moves idOf process .store { process with heap }

/-- A path of moves of the allowed kinds. -/
def Path (idOf : Cookie → Option Id) (allowed : Kind → Prop) : Process → Process → Prop :=
  Relation.ReflTransGen fun before after => ∃ kind, allowed kind ∧ Moves idOf before kind after

variable {idOf : Cookie → Option Id} {allowed : Kind → Prop} {process middle after : Process}

theorem Path.refl : Path idOf allowed process process := Relation.ReflTransGen.refl

theorem Path.trans (first : Path idOf allowed process middle)
    (second : Path idOf allowed middle after) : Path idOf allowed process after :=
  Relation.ReflTransGen.trans first second

theorem Moves.path {kind : Kind} (move : Moves idOf process kind after) (allow : allowed kind) :
    Path idOf allowed process after :=
  Relation.ReflTransGen.single ⟨kind, allow, move⟩

theorem Path.mono {wider : Kind → Prop} (weaker : ∀ kind, allowed kind → wider kind)
    (path : Path idOf allowed process after) : Path idOf wider process after := by
  induction path with
  | refl => exact Path.refl
  | tail _ move inductionHypothesis =>
    obtain ⟨kind, allow, move⟩ := move
    exact inductionHypothesis.tail ⟨kind, weaker kind allow, move⟩

/-- What every allowed move preserves, a path preserves. -/
theorem Path.invariant {property : Process → Prop}
    (preserved : ∀ {before kind after}, allowed kind → property before →
      Moves idOf before kind after → property after)
    (path : Path idOf allowed process after) (initial : property process) : property after := by
  induction path with
  | refl => exact initial
  | tail _ move inductionHypothesis =>
    obtain ⟨kind, allow, move⟩ := move
    exact preserved allow inductionHypothesis move

/-- A preorder every allowed move respects, under an invariant, relates the ends of a path. -/
theorem Path.related {property : Process → Prop} {relation : Process → Process → Prop}
    (reflexive : ∀ process, relation process process)
    (transitive : ∀ {first second third}, relation first second → relation second third →
      relation first third)
    (preserved : ∀ {before kind after}, allowed kind → property before →
      Moves idOf before kind after → property after)
    (advances : ∀ {before kind after}, allowed kind → property before →
      Moves idOf before kind after → relation before after)
    (path : Path idOf allowed process after) (initial : property process) :
    relation process after := by
  induction path with
  | refl => exact reflexive _
  | tail earlier move inductionHypothesis =>
    obtain ⟨kind, allow, move⟩ := move
    have middle := Path.invariant preserved earlier initial
    exact transitive inductionHypothesis (advances allow middle move)

theorem Adopts.keeps {session : Session} {heap : Heap} (adopts : process.Adopts session heap) :
    process.heap.Keeps heap where
  nextFamily := adopts.nextFamily.trans adopts.family.le
  nextCell := adopts.nextCell
  persistedId ref old := by rw [adopts.families ref old]
  creationClaimed ref old := by rw [adopts.families ref old]

/-- The live sessions after a session was added to the handles. -/
theorem live_addHandle {session other : Session} {heap : Heap}
    (member : (process.addHandle session heap).Live other) :
    other = session ∨ process.Live other := by
  rcases member with lookup | lookup | lookup
  · rcases update_eq_some lookup with ⟨_, same⟩ | ⟨_, earlier⟩
    · exact Or.inl (Option.some.inj same).symm
    · exact Or.inr (.handle earlier)
  · exact Or.inr (.save lookup)
  · exact Or.inr (.deletion lookup)

end Process

/-! ### Write authority -/

namespace Authority

variable {idOf : Cookie → Option Id} {process after : Process} {kind : Process.Kind}

theorem handleStep (authority : Authority process) {action : HandleAction} {reply : Reply}
    (step : process.handleStep idOf action = some (reply, after)) : Authority after := by
  rcases Process.handleStep_cases step with
    ⟨cookie, id, _, drawn, _, rfl⟩ | ⟨index, session, _, found, _, rfl⟩ |
    ⟨index, cookie, session, id, _, found, drawn, _, rfl⟩ |
    ⟨index, session, renewed, cell, found, twin, _, rfl⟩ | ⟨index, session, _, _, _, rfl⟩ |
    ⟨index, session, _, _, _, rfl⟩
  · -- A new family: its id was just drawn, and it has no marker.
    have keeps : process.heap.Keeps (Session.new process.heap cookie id).2 :=
      (process.heap.keeps_allocFamily {}).trans (Heap.keeps_allocCell _ _)
    have marker : (Session.new process.heap cookie id).1.persistedId
        (Session.new process.heap cookie id).2 = none := by
      show (((process.heap.allocFamily {}).allocCell {}).families
        process.heap.nextFamily).persistedId = none
      rw [Heap.allocCell_families, Heap.allocFamily_self]
    have seen : (Session.new process.heap cookie id).1.id ∈ enter process.seen id :=
      mem_enter.mpr (Or.inr rfl)
    refine authority.join keeps (prefix_enter process.seen id) le_rfl (Nat.lt_succ_self _)
      (Nat.lt_succ_self _) rfl (fun _ => seen) ?_ ?_ rfl
    · intro other wrong
      cases marker.symm.trans wrong
    · intro other member
      rcases Process.live_addHandle member with rfl | earlier
      · exact Or.inl rfl
      · exact Or.inr ((Process.live_congr process (process.see id) rfl rfl rfl).mp earlier)
  · exact authority.follow (process.follows_addHandle process.heap (Heap.Keeps.refl _)
      (.handle found) ⟨rfl, rfl, rfl, rfl, rfl⟩)
  · exact authority.regenerate found (Process.draw_eq_some drawn).2
  · exact authority.follow ((process.follows_setHandle index (.handle found) twin).trans
      (Process.follows_heap _ (Heap.keeps_setCell _ _ _)))
  · exact authority.follow (process.follows_heap (Session.keeps_destroy _ _))
  · exact authority.follow (process.follows_dropHandle index)

theorem adopt (authority : Authority process) {session : Session} {heap : Heap}
    (adopts : process.Adopts session heap) :
    Authority ((process.see session.id).addHandle session heap) := by
  have seen : session.id ∈ enter process.seen session.id := mem_enter.mpr (Or.inr rfl)
  refine authority.join adopts.keeps (prefix_enter process.seen session.id) adopts.nextFamily
    adopts.family adopts.data adopts.rotationFrom (fun _ => seen) ?_ ?_ rfl
  · intro marker current
    have same : some session.id = some marker := by
      rw [← current]
      show some session.id = (heap.families session.family).persistedId
      rw [adopts.marker]
    rw [← Option.some.inj same]
    exact seen
  · intro other member
    rcases Process.live_addHandle member with rfl | earlier
    · exact Or.inl rfl
    · exact Or.inr ((Process.live_congr process (process.see session.id) rfl rfl rfl).mp earlier)

theorem deserialize (authority : Authority process) (wire : SessionSnapshot) :
    Authority (process.deserialize wire) := by
  have keeps : process.heap.Keeps (Session.deserialize process.heap wire).2 :=
    (process.heap.keeps_allocFamily {}).trans (Heap.keeps_allocCell _ _)
  have marker : (Session.deserialize process.heap wire).1.persistedId
      (Session.deserialize process.heap wire).2 = none := by
    show (((process.heap.allocFamily {}).allocCell _).families
      process.heap.nextFamily).persistedId = none
    rw [Heap.allocCell_families, Heap.allocFamily_self]
  refine authority.join keeps List.prefix_rfl le_rfl (Nat.lt_succ_self _)
    (Nat.lt_succ_self _) rfl ?_ ?_ (fun _ => Process.live_addHandle) rfl
  · rintro (fresh | marked)
    · cases fresh
    · exact absurd marker marked
  · intro other wrong
    cases marker.symm.trans wrong

theorem acknowledge (authority : Authority process) {index : Nat} {cookie : Option Cookie}
    (step : process.acknowledge index = some (cookie, after)) : Authority after := by
  obtain ⟨save, revision, found, _, _, rfl⟩ := Process.acknowledge_cases step
  exact (authority.mark found).follow (Process.follows_heap _ (Heap.keeps_setCell _ _ _))

/-- Authority depends on the families of live sessions only. -/
theorem conceal (authority : Authority process) {heap : Heap} (hidden : process.Hidden heap) :
    Authority { process with heap } := by
  have same : ∀ {session}, ({ process with heap } : Process).Live session ↔
      process.Live session := Process.live_congr process { process with heap } rfl rfl rfl
  have shared : ∀ {session}, process.Live session →
      session.shared heap = session.shared process.heap :=
    fun member => (hidden.families _ (authority.allocated _ member).1).resolve_right
      fun unseen => unseen.1 (Or.inl ⟨_, member, rfl⟩)
  have persisted : ∀ {session}, process.Live session →
      session.persistedId heap = session.persistedId process.heap :=
    fun member => congrArg Family.persistedId (shared member)
  constructor
  · intro session member
    obtain ⟨family, data⟩ := authority.allocated session (same.mp member)
    exact ⟨family.trans_le hidden.nextFamily, data.trans_le hidden.nextCell⟩
  · intro session member allowed
    rw [persisted (same.mp member)] at allowed
    exact authority.idSeen session (same.mp member) allowed
  · intro session member marker current
    rw [persisted (same.mp member)] at current
    exact authority.markerSeen session (same.mp member) marker current
  · intro first second left right
    exact authority.fresh_eq first second (same.mp left) (same.mp right)
  · intro first second left right
    exact authority.rotation_eq first second (same.mp left) (same.mp right)
  · intro session member source rotates
    show _ ∧ _ ∧ ∃ marker, session.persistedId heap = some marker ∧ _
    rw [persisted (same.mp member)]
    exact authority.rotation_lt session (same.mp member) source rotates
  · intro index save found unsaved
    have member : process.Live save.source := .save found
    show _ ∧ (save.source.shared heap).creationClaimed = true ∧ save.source.persistedId heap = none
    rw [shared member, persisted member]
    exact authority.creating index save found unsaved
  · exact authority.creating_unique
  · intro index save origin found saved
    show _ ∧ _ ∧ ∃ marker, save.source.persistedId heap = some marker ∧ _
    rw [persisted (.save found)]
    exact authority.origin_le index save origin found saved

/-- Every move preserves authority. -/
theorem moves (authority : Authority process) (move : Process.Moves idOf process kind after) :
    Authority after := by
  cases move with
  | handle step => exact authority.handleStep step
  | adopt fetches _ => exact authority.adopt fetches.toAdopts
  | trust adopts => exact authority.adopt adopts
  | deserialize wire => exact authority.deserialize wire
  | attempt step =>
    obtain ⟨session, found, ⟨error, _, _, rfl⟩ | ⟨origin, heap, granted, _, rfl⟩⟩ :=
      Process.attempt_cases step
    · exact authority.follow (process.follows_dropHandle _)
    · exact authority.attempt found granted
  | captureImmutable step => exact authority.follow (Process.follows_captureImmutable step)
  | capturePersistence step => exact authority.follow (Process.follows_capturePersistence step)
  | annotate writeStarted waiting found =>
    refine authority.follow (process.follows_setSave _ _ fun newer same => ?_)
    obtain rfl := Option.some.inj same
    exact ⟨_, found, rfl, rfl⟩
  | acquire _ step => exact authority.follow (Process.follows_acquire step)
  | dispatch _ _ _ _ step => exact authority.follow (Process.follows_dispatch step)
  | finish step =>
    obtain ⟨guard, _, _, rfl⟩ := Process.finish_cases step
    exact authority.follow (process.follows_setGuard _ _)
  | requireCleanup step =>
    obtain ⟨guard, _, rfl⟩ := Process.requireCleanup_cases step
    exact authority.follow (process.follows_setGuard _ _)
  | confirmRemoved step =>
    obtain ⟨guard, _, rfl⟩ := Process.confirmRemoved_cases step
    exact authority.follow (process.follows_setGuard _ _)
  | dropGuard index => exact authority.follow (process.follows_dropGuard index)
  | dropSave index => exact authority.follow (process.follows_dropSave index)
  | abandon _ => exact authority.follow (process.follows_abandon _)
  | complete _ step =>
    obtain ⟨middle, acknowledged, rfl⟩ := Process.complete_cases step
    exact (authority.acknowledge acknowledged).follow (middle.follows_dropGuard _)
  | acknowledge step => exact authority.acknowledge step
  | requestDelete step => exact authority.follow (Process.follows_requestDelete step)
  | grantDelete step => exact authority.follow (Process.follows_grantDelete step)
  | dropDelete index => exact authority.follow (process.follows_dropDelete index)
  | conceal hidden => exact authority.conceal hidden

end Authority

end Saysion
