/-
This file proves that a coordinated process starts at most one record-creating
write for each id. A creation or a rotation that was started and not confirmed
leaves its family destroyed, uncertain or still locked, and a confirmed one
leaves the marker at its id or a younger one; each of these refuses a second
guard that could create the same record.

The order of events the store sees is not used: the invariant speaks of the
process alone, so it holds for every store whose steps are paths of coordinated
moves.
-/

import Saysion.Coordination

namespace Saysion

/-- Why no save can create the record of a session once more: its family is destroyed or
uncertain, its marker has reached the id, or the creating save still holds its guard. -/
def Process.Spent (process : Process) (session : Session) : Prop :=
  session.isDestroyed process.heap = true ∨ (session.shared process.heap).uncertain = true ∨
    (∃ marker, session.persistedId process.heap = some marker ∧
      rank process.seen session.id ≤ rank process.seen marker) ∨
    ∃ index save, process.saves index = some save ∧ save.dispatched = true ∧
      save.source.family = session.family ∧ save.source.id = session.id

/-- The invariant of record-creating writes. -/
structure Dispatching (process : Process) : Prop where
  authority : Authority process
  locking : Locking process
  agreement : Agreement process
  nodup : process.dispatched.Nodup
  seen : ∀ id ∈ process.dispatched, id ∈ process.seen
  live : ∀ session, process.Live session → session.id ∈ process.seen
  /-- A creating write runs under its guard. -/
  held : ∀ index save, process.saves index = some save → save.dispatched = true →
    ∃ guard, process.guards index = some guard
  spent : ∀ session, process.Live session → session.id ∈ process.dispatched →
    process.Spent session
  /-- A guard that may still create finds its id unused. -/
  unused : ∀ index guard save, process.guards index = some guard →
    process.saves index = some save → save.Creates → save.dispatched = false →
      save.source.id ∉ process.dispatched
  /-- An id that was never written belongs to one family. -/
  together : ∀ first second, process.Live first → process.Live second → first.id = second.id →
    first.family = second.family ∨ first.id ∈ process.dispatched

theorem dispatching_initial : Dispatching Process.initial where
  authority := authority_initial
  locking := locking_initial
  agreement := Agreement.initial
  nodup := List.nodup_nil
  seen := by simp [Process.initial]
  live := by rintro _ (found | found | found) <;> cases found
  held := by rintro _ _ found; cases found
  spent := by rintro _ (found | found | found) <;> cases found
  unused := by rintro _ _ _ found; cases found
  together := by rintro _ _ (found | found | found) <;> cases found

namespace Process

variable {idOf : Cookie → Option Id} {process after : Process}

/-- Which kinds of moves a store makes. -/
def Coordinated (kind : Kind) : Prop := kind ≠ .outside ∧ kind ≠ .unguarded

theorem live_see {id : Id} {session : Session} : (process.see id).Live session ↔ process.Live session :=
  live_congr process (process.see id) rfl rfl rfl

theorem live_setHandle {index : Nat} {session other : Session}
    (member : (process.setHandle index session).Live other) :
    other = session ∨ process.Live other := by
  rcases member with lookup | lookup | lookup
  · rcases update_eq_some lookup with ⟨_, same⟩ | ⟨_, earlier⟩
    · exact Or.inl (Option.some.inj same).symm
    · exact Or.inr (.handle earlier)
  · exact Or.inr (.save lookup)
  · exact Or.inr (.deletion lookup)

/-! ### The tables after a drop -/

theorem guards_dropGuard (process : Process) (index : Nat) :
    (process.dropGuard index).guards = Function.update process.guards index none := by
  obtain ⟨heap, dropped⟩ := process.dropGuard_eq index
  rw [dropped]
  rfl

theorem saves_dropGuard (process : Process) (index : Nat) :
    (process.dropGuard index).saves = process.saves := by
  obtain ⟨heap, dropped⟩ := process.dropGuard_eq index
  rw [dropped]
  rfl

theorem saves_dropSave (process : Process) (index : Nat) :
    (process.dropSave index).saves = Function.update process.saves index none := by
  obtain ⟨heap, dropped⟩ := process.dropSave_eq index
  rw [dropped]
  rfl

/-! ### Spent ids -/

theorem Spent.congr {first second : Session} (spent : process.Spent first)
    (id : first.id = second.id) (family : first.family = second.family) :
    process.Spent second := by
  unfold Spent Session.isDestroyed Session.persistedId Session.shared at spent ⊢
  rw [← id, ← family]
  exact spent

/-- What is spent stays spent, provided the creating saves in progress stay or leave a trace. -/
theorem Spent.later {session : Session} (spent : process.Spent session)
    (climbs : process.Climbs after) (allocated : session.family < process.heap.nextFamily)
    (idSeen : session.id ∈ process.seen)
    (markerSeen : ∀ marker, session.persistedId process.heap = some marker →
      marker ∈ process.seen)
    (pending : ∀ index save, process.saves index = some save → save.dispatched = true →
      save.source.family = session.family → save.source.id = session.id → after.Spent session) :
    after.Spent session := by
  rcases spent with destroyed | uncertain | ⟨marker, current, reached⟩ |
    ⟨index, save, found, dispatched, family, id⟩
  · exact Or.inl (climbs.destroy _ allocated destroyed)
  · exact Or.inr (Or.inl (climbs.uncertain _ allocated uncertain))
  · obtain ⟨new, now, above⟩ := climbs.marker _ allocated marker current
    refine Or.inr (Or.inr (Or.inl ⟨new, now, ?_⟩))
    have base : rank after.seen session.id ≤ rank after.seen marker := by
      rw [rank_eq_of_grown climbs.grows idSeen,
        rank_eq_of_grown climbs.grows (markerSeen marker current)]
      exact reached
    rcases above with rfl | ⟨_, _, younger⟩
    · exact base
    · exact base.trans younger.le
  · exact pending index save found dispatched family id

end Process

namespace Dispatching

variable {idOf : Cookie → Option Id} {process after : Process} {kind : Process.Kind} {index : Nat}

/-- The part of the proof that all moves share but the one that starts a creating write. The
newcomers are the sessions that were not live before. -/
theorem preserve (dispatching : Dispatching process) (authority : Authority after)
    (locking : Locking after) (agreement : Agreement after) (climbs : process.Climbs after)
    (same : after.dispatched = process.dispatched) (newcomer : Session → Prop)
    (live : ∀ session, after.Live session → newcomer session ∨
      ∃ twin, process.Live twin ∧ twin.id = session.id ∧ twin.family = session.family)
    (arrives : ∀ session, newcomer session → session.id ∈ after.seen ∧
      (session.id ∉ process.seen ∨ session.id ∈ process.dispatched ∧ after.Spent session))
    (alone : ∀ first second, newcomer first → newcomer second → first.family = second.family)
    (held : ∀ index save, after.saves index = some save → save.dispatched = true →
      ∃ guard, after.guards index = some guard)
    (unused : ∀ index guard save, after.guards index = some guard →
      after.saves index = some save → save.Creates → save.dispatched = false →
        save.source.id ∉ process.dispatched)
    (pending : ∀ index save, process.saves index = some save → save.dispatched = true →
      ∀ session : Session, save.source.family = session.family → save.source.id = session.id →
        after.Spent session) : Dispatching after where
  authority := authority
  locking := locking
  agreement := agreement
  nodup := same ▸ dispatching.nodup
  seen id member := climbs.grows.subset (dispatching.seen id (same ▸ member))
  live session member := by
    rcases live session member with new | ⟨twin, earlier, id, _⟩
    · exact (arrives session new).1
    · exact id ▸ climbs.grows.subset (dispatching.live twin earlier)
  held := held
  spent session member written := by
    rw [same] at written
    rcases live session member with new | ⟨twin, earlier, id, family⟩
    · rcases (arrives session new).2 with unseen | ⟨_, spent⟩
      · exact absurd (dispatching.seen _ written) unseen
      · exact spent
    · rw [← id] at written
      have later : after.Spent twin := (dispatching.spent twin earlier written).later climbs
        (dispatching.authority.allocated twin earlier).1 (dispatching.live twin earlier)
        (dispatching.authority.markerSeen twin earlier)
        fun index save found dispatched family id =>
          pending index save found dispatched twin family id
      exact later.congr id family
  unused index guard save guarded found creates undispatched := by
    rw [same]
    exact unused index guard save guarded found creates undispatched
  together first second firstLive secondLive ids := by
    rw [same]
    have newer : ∀ {left right : Session}, newcomer left → left.id = right.id →
        (∃ twin, process.Live twin ∧ twin.id = right.id ∧ twin.family = right.family) →
          left.id ∈ process.dispatched := by
      rintro left right new ids ⟨twin, earlier, id, _⟩
      rcases (arrives left new).2 with unseen | ⟨written, _⟩
      · exact absurd (ids.trans id.symm ▸ dispatching.live twin earlier) unseen
      · exact written
    rcases live first firstLive with firstNew | firstOld <;>
      rcases live second secondLive with secondNew | secondOld
    · exact Or.inl (alone first second firstNew secondNew)
    · exact Or.inr (newer firstNew ids secondOld)
    · exact Or.inr (ids ▸ newer secondNew ids.symm firstOld)
    · obtain ⟨left, leftLive, leftId, leftFamily⟩ := firstOld
      obtain ⟨right, rightLive, rightId, rightFamily⟩ := secondOld
      rw [← leftFamily, ← rightFamily, ← leftId]
      exact dispatching.together left right leftLive rightLive
        (leftId.trans (ids.trans rightId.symm))

/-- The saves in progress and their guards are those of before. -/
structure Still (before after : Process) : Prop where
  dispatched : after.dispatched = before.dispatched
  saves : ∀ index save, after.saves index = some save → ∃ older,
    before.saves index = some older ∧ older.source = save.source ∧ older.origin = save.origin ∧
      older.dispatched = save.dispatched
  stays : ∀ index older, before.saves index = some older → older.dispatched = true →
    ∃ save, after.saves index = some save ∧ save.source = older.source ∧ save.dispatched = true
  guards : ∀ index guard, after.guards index = some guard →
    ∃ older, before.guards index = some older
  guarded : ∀ index guard, before.guards index = some guard →
    ∃ newer, after.guards index = some newer

theorem Still.refl (process : Process) : Still process process :=
  ⟨rfl, fun _ save found => ⟨save, found, rfl, rfl, rfl⟩,
    fun _ older found dispatched => ⟨older, found, rfl, dispatched⟩,
    fun _ guard found => ⟨guard, found⟩, fun _ guard found => ⟨guard, found⟩⟩

/-- A change that leaves the tables of saves and guards alone. -/
theorem still_of_tables (dispatched : after.dispatched = process.dispatched)
    (saves : after.saves = process.saves) (guards : after.guards = process.guards) :
    Still process after := by
  refine ⟨dispatched, ?_, ?_, ?_, ?_⟩
  · rw [saves]
    exact fun _ save found => ⟨save, found, rfl, rfl, rfl⟩
  · rw [saves]
    exact fun _ older found dispatched => ⟨older, found, rfl, dispatched⟩
  · rw [guards]
    exact fun _ guard found => ⟨guard, found⟩
  · rw [guards]
    exact fun _ guard found => ⟨guard, found⟩

/-- One save is replaced by another with the same source, origin and write. -/
theorem still_of_save {older newer : Save} (found : process.saves index = some older)
    (dispatched : after.dispatched = process.dispatched)
    (saves : after.saves = Function.update process.saves index (some newer))
    (guards : after.guards = process.guards) (source : older.source = newer.source)
    (origin : older.origin = newer.origin) (writes : older.dispatched = newer.dispatched) :
    Still process after := by
  refine ⟨dispatched, fun key save lookup => ?_, fun key save lookup written => ?_, ?_, ?_⟩
  · rw [saves] at lookup
    rcases update_eq_some lookup with ⟨rfl, same⟩ | ⟨_, earlier⟩
    · obtain rfl := Option.some.inj same
      exact ⟨older, found, source, origin, writes⟩
    · exact ⟨save, earlier, rfl, rfl, rfl⟩
  · rw [saves]
    by_cases same : key = index
    · subst same
      obtain rfl := Option.some.inj (found.symm.trans lookup)
      exact ⟨newer, Function.update_self _ _ _, source.symm, writes ▸ written⟩
    · exact ⟨save, (Function.update_of_ne same _ _).trans lookup, rfl, written⟩
  · rw [guards]
    exact fun _ guard found => ⟨guard, found⟩
  · rw [guards]
    exact fun _ guard found => ⟨guard, found⟩

/-- One guard is replaced by another. -/
theorem still_of_guard {older newer : WriteGuard} (found : process.guards index = some older)
    (dispatched : after.dispatched = process.dispatched) (saves : after.saves = process.saves)
    (guards : after.guards = Function.update process.guards index (some newer)) :
    Still process after := by
  refine ⟨dispatched, ?_, ?_, fun key guard lookup => ?_, fun key guard lookup => ?_⟩
  · rw [saves]
    exact fun _ save found => ⟨save, found, rfl, rfl, rfl⟩
  · rw [saves]
    exact fun _ older found dispatched => ⟨older, found, rfl, dispatched⟩
  · rw [guards] at lookup
    rcases update_eq_some lookup with ⟨rfl, _⟩ | ⟨_, earlier⟩
    · exact ⟨older, found⟩
    · exact ⟨guard, earlier⟩
  · rw [guards]
    by_cases same : key = index
    · exact ⟨newer, same ▸ Function.update_self _ _ _⟩
    · exact ⟨guard, (Function.update_of_ne same _ _).trans lookup⟩

theorem Still.held (still : Still process after) (dispatching : Dispatching process) (index : Nat)
    (save : Save) (found : after.saves index = some save) (written : save.dispatched = true) :
    ∃ guard, after.guards index = some guard := by
  obtain ⟨older, earlier, _, _, same⟩ := still.saves index save found
  obtain ⟨guard, guarded⟩ := dispatching.held index older earlier (same.trans written)
  exact still.guarded index guard guarded

theorem Still.unused (still : Still process after) (dispatching : Dispatching process) (index : Nat)
    (guard : WriteGuard) (save : Save) (guarded : after.guards index = some guard)
    (found : after.saves index = some save) (creates : save.Creates)
    (undispatched : save.dispatched = false) : save.source.id ∉ process.dispatched := by
  obtain ⟨older, earlier, source, origin, same⟩ := still.saves index save found
  obtain ⟨olderGuard, earlierGuard⟩ := still.guards index guard guarded
  rw [← source]
  refine dispatching.unused index olderGuard older earlierGuard earlier ?_ (same.trans undispatched)
  unfold Save.Creates at creates ⊢
  rwa [source, origin]

theorem Still.pending (still : Still process after) (index : Nat) (save : Save)
    (found : process.saves index = some save) (written : save.dispatched = true) (session : Session)
    (family : save.source.family = session.family) (id : save.source.id = session.id) :
    after.Spent session := by
  obtain ⟨newer, later, source, dispatched⟩ := still.stays index save found written
  exact Or.inr (Or.inr (Or.inr ⟨index, newer, later, dispatched, source ▸ family, source ▸ id⟩))

/-- A move that brings no session and no creating write. -/
theorem follow (dispatching : Dispatching process) (authority : Authority after)
    (locking : Locking after) (agreement : Agreement after) (climbs : process.Climbs after)
    (live : ∀ session, after.Live session → ∃ twin, process.Live twin ∧ twin.Twin session)
    (still : Still process after) : Dispatching after :=
  dispatching.preserve authority locking agreement climbs still.dispatched (fun _ => False)
    (fun session member => Or.inr
      (let ⟨twin, earlier, same⟩ := live session member
      ⟨twin, earlier, same.id, same.family⟩))
    (fun _ impossible => impossible.elim) (fun _ _ impossible => impossible.elim)
    (still.held dispatching) (still.unused dispatching) still.pending

/-- One session joins, with an id that is new or the marker of its family. -/
theorem join (dispatching : Dispatching process) (authority : Authority after)
    (locking : Locking after) (agreement : Agreement after) (climbs : process.Climbs after)
    (still : Still process after) {session : Session}
    (live : ∀ other, after.Live other → other = session ∨ process.Live other)
    (seen : session.id ∈ after.seen)
    (arrives : session.id ∉ process.seen ∨
      session.id ∈ process.dispatched ∧ session.persistedId after.heap = some session.id) :
    Dispatching after := by
  refine dispatching.preserve authority locking agreement climbs still.dispatched
    (fun other => other = session) (fun other member => ?_) ?_ ?_ (still.held dispatching)
    (still.unused dispatching) still.pending
  · exact (live other member).imp id fun earlier => ⟨other, earlier, rfl, rfl⟩
  · rintro other rfl
    refine ⟨seen, arrives.imp id fun ⟨written, marked⟩ => ⟨written, ?_⟩⟩
    exact Or.inr (Or.inr (Or.inl ⟨_, marked, le_rfl⟩))
  · rintro first second rfl rfl
    rfl

/-- A granted creating write finds its id unused: whatever spent it would have refused it. -/
theorem unused_of_granted (dispatching : Dispatching process) {save : Save} {heap : Heap}
    {receipt : Option Nat} {canOutliveFuture : Bool} {guard : WriteGuard}
    (found : process.saves index = some save)
    (free : (save.source.shared process.heap).locked = false)
    (granted : save.source.beginGuardedWrite process.heap save.origin receipt canOutliveFuture =
      (.ok guard, heap)) (creates : save.Creates) : save.source.id ∉ process.dispatched := by
  intro written
  have member : process.Live save.source := .save found
  obtain ⟨certain, alive, recheck, _, _⟩ := Session.beginGuardedWrite_ok granted
  rcases dispatching.spent save.source member written with destroyed | uncertain |
    ⟨marker, current, reached⟩ | ⟨key, other, pending, dispatched, family, _⟩
  · cases alive.symm.trans destroyed
  · cases certain.symm.trans uncertain
  · -- The marker is the origin, which a creating save has left behind.
    cases origin : save.origin with
    | none =>
      have unset := (dispatching.authority.creating index save found origin).2.2
      cases unset.symm.trans current
    | some source =>
      have same : source = marker := by
        have marked := recheck (by rw [origin]; simp)
        exact Option.some.inj (origin.symm.trans (marked.symm.trans current))
      have rotates : save.source.rotationFrom = some source := by
        refine (dispatching.authority.origin_le index save source found origin).1.resolve_left
          fun update => ?_
        exact creates (by rw [origin, update])
      have older := (dispatching.authority.rotation_lt save.source member source rotates).2.1
      rw [same] at older
      exact absurd (older.trans_le reached) (lt_irrefl _)
  · obtain ⟨other, guarded⟩ := dispatching.held key _ pending dispatched
    have own := dispatching.locking.own key other _ guarded pending
    have taken := dispatching.locking.exclusive.taken_of_holds save.source.family (.inl key)
      ⟨other, guarded, own.trans family⟩
    cases free.symm.trans taken

theorem attempt (dispatching : Dispatching process) {reply : Reply}
    (authority : Authority after) (locking : Locking after) (agreement : Agreement after)
    (climbs : process.Climbs after) (step : process.attempt index = some (reply, after)) :
    Dispatching after := by
  obtain ⟨session, found, ⟨error, _, _, rfl⟩ | ⟨origin, heap, granted, _, rfl⟩⟩ :=
    Process.attempt_cases step
  · exact dispatching.follow authority locking agreement climbs
      (process.follows_dropHandle index).live (still_of_tables rfl rfl rfl)
  obtain ⟨noSave, noGuard⟩ := dispatching.locking.unusedSave process.nextSave le_rfl
  refine dispatching.preserve authority locking agreement climbs rfl (fun _ => False)
    (fun other member => Or.inr ⟨other, ?_, rfl, rfl⟩) (fun _ impossible => impossible.elim)
    (fun _ _ impossible => impossible.elim) (fun key save lookup written => ?_)
    (fun key guard save guarded lookup creates undispatched => ?_)
    (fun key save lookup written other family id => ?_)
  · rcases member with lookup | lookup | lookup
    · rcases update_eq_some lookup with ⟨_, wrong⟩ | ⟨_, earlier⟩
      · cases wrong
      · exact .handle earlier
    · rcases update_eq_some lookup with ⟨_, same⟩ | ⟨_, earlier⟩
      · obtain rfl := Option.some.inj same
        exact .handle found
      · exact .save earlier
    · exact .deletion lookup
  · rcases update_eq_some lookup with ⟨_, same⟩ | ⟨_, earlier⟩
    · obtain rfl := Option.some.inj same
      cases written
    · exact dispatching.held key save earlier written
  · rcases update_eq_some lookup with ⟨rfl, _⟩ | ⟨_, earlier⟩
    · cases noGuard.symm.trans guarded
    · exact dispatching.unused key guard save guarded earlier creates undispatched
  · have different : key ≠ process.nextSave := by
      rintro rfl
      cases noSave.symm.trans lookup
    exact Or.inr (Or.inr (Or.inr
      ⟨key, save, (Function.update_of_ne different _ _).trans lookup, written, family, id⟩))

theorem acquire (dispatching : Dispatching process) {receipt : Option Nat} {canOutliveFuture : Bool}
    {result : Except Error Unit} (authority : Authority after) (locking : Locking after)
    (agreement : Agreement after) (climbs : process.Climbs after)
    (step : process.acquire index receipt canOutliveFuture = some (result, after)) :
    Dispatching after := by
  have live := (Process.follows_acquire step).live
  obtain ⟨save, found, unguarded, free, outcome⟩ := Process.acquire_cases step
  rcases outcome with ⟨_, heap, _, _, rfl⟩ | ⟨guard, heap, granted, _, rfl⟩
  · exact dispatching.follow authority locking agreement climbs live (still_of_tables rfl rfl rfl)
  refine dispatching.preserve authority locking agreement climbs rfl (fun _ => False)
    (fun session member => Or.inr ?_) (fun _ impossible => impossible.elim)
    (fun _ _ impossible => impossible.elim) (fun key other lookup written => ?_)
    (fun key newer other guarded lookup creates undispatched => ?_)
    (fun key other lookup written session family id =>
      Or.inr (Or.inr (Or.inr ⟨key, other, lookup, written, family, id⟩)))
  · obtain ⟨twin, earlier, same⟩ := live session member
    exact ⟨twin, earlier, same.id, same.family⟩
  · obtain ⟨older, guarded⟩ := dispatching.held key other lookup written
    have different : key ≠ index := by
      rintro rfl
      cases unguarded.symm.trans guarded
    exact ⟨older, (Function.update_of_ne different _ _).trans guarded⟩
  · rcases update_eq_some guarded with ⟨rfl, _⟩ | ⟨_, earlier⟩
    · obtain rfl := Option.some.inj (found.symm.trans lookup)
      exact dispatching.unused_of_granted found free granted creates
    · exact dispatching.unused key newer other earlier lookup creates undispatched

/-- A creating write starts: no other family has the id, and no other save of the family has the
guard. -/
theorem dispatch (dispatching : Dispatching process) {save : Save} {guard : WriteGuard}
    (found : process.saves index = some save) (guarded : process.guards index = some guard)
    (creates : save.Creates) (undispatched : save.dispatched = false) (authority : Authority after)
    (locking : Locking after) (agreement : Agreement after) (climbs : process.Climbs after)
    (step : process.dispatch index = some after) : Dispatching after := by
  have follows := Process.follows_dispatch step
  obtain ⟨_, lookup, rfl⟩ := Process.dispatch_cases step
  obtain rfl := Option.some.inj (found.symm.trans lookup)
  have member : process.Live save.source := .save found
  have unused : save.source.id ∉ process.dispatched :=
    dispatching.unused index guard save guarded found creates undispatched
  have relive : ∀ session, ({ process.setSave index (some { save with dispatched := true }) with
      dispatched := save.source.id :: process.dispatched } : Process).Live session →
        process.Live session := by
    rintro session (handle | saved | deletion)
    · exact .handle handle
    · rcases update_eq_some saved with ⟨_, same⟩ | ⟨_, earlier⟩
      · obtain rfl := Option.some.inj same
        exact member
      · exact .save earlier
    · exact .deletion deletion
  have entry : Function.update process.saves index (some { save with dispatched := true }) index =
      some { save with dispatched := true } := Function.update_self _ _ _
  refine ⟨authority, locking, agreement, List.nodup_cons.mpr ⟨unused, dispatching.nodup⟩, ?_, ?_, ?_,
    ?_, ?_, ?_⟩
  · intro id written
    rcases List.mem_cons.mp written with rfl | earlier
    · exact dispatching.live _ member
    · exact dispatching.seen id earlier
  · exact fun session after => dispatching.live session (relive session after)
  · intro key other lookup written
    rcases update_eq_some lookup with ⟨rfl, _⟩ | ⟨_, earlier⟩
    · exact ⟨guard, guarded⟩
    · exact dispatching.held key other earlier written
  · intro session after written
    have earlier : process.Live session := relive session after
    by_cases old : session.id ∈ process.dispatched
    · refine (dispatching.spent session earlier old).later climbs
        (dispatching.authority.allocated session earlier).1 (dispatching.live session earlier)
        (dispatching.authority.markerSeen session earlier) fun key other pending written family id => ?_
      have different : key ≠ index := by
        rintro rfl
        obtain rfl := Option.some.inj (found.symm.trans pending)
        cases undispatched.symm.trans written
      exact Or.inr (Or.inr (Or.inr
        ⟨key, other, (Function.update_of_ne different _ _).trans pending, written, family, id⟩))
    · have same : save.source.id = session.id :=
        ((List.mem_cons.mp written).resolve_right old).symm
      have family := (dispatching.together save.source session member earlier same).resolve_right
        unused
      exact Or.inr (Or.inr (Or.inr ⟨index, _, entry, rfl, family, same⟩))
  · intro key other otherSave otherGuarded lookup otherCreates otherUndispatched written
    rcases update_eq_some lookup with ⟨_, same⟩ | ⟨different, earlier⟩
    · obtain rfl := Option.some.inj same
      cases otherUndispatched
    rcases List.mem_cons.mp written with same | old
    · have family := (dispatching.together save.source otherSave.source member (.save earlier)
        same.symm).resolve_right unused
      have own := dispatching.locking.own index guard save guarded found
      have otherOwn := dispatching.locking.own key other otherSave otherGuarded earlier
      have alone := dispatching.locking.exclusive.unique save.source.family (.inl index) (.inl key)
        ⟨guard, guarded, own⟩ ⟨other, otherGuarded, otherOwn.trans family.symm⟩
      exact different (Sum.inl.inj alone).symm
    · exact dispatching.unused key other otherSave otherGuarded earlier otherCreates
        otherUndispatched old
  · intro first second firstLive secondLive ids
    exact (dispatching.together first second (relive first firstLive) (relive second secondLive)
      ids).imp id (List.mem_cons_of_mem _)

/-- A save ends with its guard, and leaves a trace of the write it started. -/
theorem close (dispatching : Dispatching process) (authority : Authority after)
    (locking : Locking after) (agreement : Agreement after) (climbs : process.Climbs after)
    (live : ∀ session, after.Live session → process.Live session)
    (same : after.dispatched = process.dispatched)
    (saves : after.saves = Function.update process.saves index none)
    (guards : after.guards = Function.update process.guards index none)
    (trace : ∀ save, process.saves index = some save → save.dispatched = true →
      after.Spent save.source) : Dispatching after := by
  have remaining : ∀ key save, after.saves key = some save →
      key ≠ index ∧ process.saves key = some save := by
    intro key save lookup
    rw [saves] at lookup
    rcases update_eq_some lookup with ⟨_, wrong⟩ | stays
    · cases wrong
    · exact stays
  refine dispatching.preserve authority locking agreement climbs same (fun _ => False)
    (fun session member => Or.inr ⟨session, live session member, rfl, rfl⟩)
    (fun _ impossible => impossible.elim) (fun _ _ impossible => impossible.elim)
    (fun key save lookup written => ?_) (fun key guard save guarded lookup creates undispatched => ?_)
    (fun key save lookup written session family id => ?_)
  · obtain ⟨different, earlier⟩ := remaining key save lookup
    obtain ⟨guard, guarded⟩ := dispatching.held key save earlier written
    rw [guards]
    exact ⟨guard, (Function.update_of_ne different _ _).trans guarded⟩
  · obtain ⟨different, earlier⟩ := remaining key save lookup
    rw [guards, Function.update_of_ne different] at guarded
    exact dispatching.unused key guard save guarded earlier creates undispatched
  · by_cases ended : key = index
    · subst ended
      exact (trace save lookup written).congr id family
    · refine Or.inr (Or.inr (Or.inr ⟨key, save, ?_, written, family, id⟩))
      rw [saves]
      exact (Function.update_of_ne ended _ _).trans lookup

/-- A save that is given up leaves its family destroyed or uncertain. -/
theorem abandon (dispatching : Dispatching process) (abandonable : process.Abandonable index)
    (authority : Authority (process.abandon index)) (locking : Locking (process.abandon index))
    (agreement : Agreement (process.abandon index)) (climbs : process.Climbs (process.abandon index)) :
    Dispatching (process.abandon index) := by
  have tables : (process.abandon index).dispatched = process.dispatched ∧
      (process.abandon index).handles = process.handles ∧
        (process.abandon index).deletions = process.deletions := by
    obtain ⟨heap, abandoned⟩ := process.abandon_eq index
    rw [abandoned]
    exact ⟨rfl, rfl, rfl⟩
  have saves : (process.abandon index).saves = Function.update process.saves index none := by
    rw [Process.abandon, Process.saves_dropSave, Process.saves_dropGuard]
  refine dispatching.close authority locking agreement climbs (fun session member => ?_) tables.1 saves
    (by rw [Process.abandon, Agreement.guards_dropSave, Process.guards_dropGuard])
    fun save found written => ?_
  · rcases member with lookup | lookup | lookup
    · exact .handle (tables.2.1 ▸ lookup)
    · rw [saves] at lookup
      rcases update_eq_some lookup with ⟨_, wrong⟩ | ⟨_, earlier⟩
      · cases wrong
      · exact .save earlier
    · exact .deletion (tables.2.2 ▸ lookup)
  · have allocated := (dispatching.authority.allocated _ (.save found)).1
    rcases abandonable save found written with destroyed | ⟨guard, guarded, unsettled, fences⟩
    · exact Or.inl (climbs.destroy _ allocated destroyed)
    · have own := dispatching.locking.own index guard save guarded found
      refine Or.inr (Or.inl ((Process.evolves_dropSave _ index).uncertain _ ?_ ?_))
      · exact (process.evolves_dropGuard index).nextFamily.trans_lt' allocated
      · rw [Process.dropGuard, guarded]
        show ((process.heap.unlock guard.family _).families save.source.family).uncertain = true
        rw [own, Heap.unlock, Heap.setFamily_self]
        simp [unsettled, fences]

/-- A completed save leaves the marker at its id. -/
theorem complete (dispatching : Dispatching process) {guard : WriteGuard} {cookie : Option Cookie}
    (guarded : process.guards index = some guard) (authority : Authority after)
    (locking : Locking after) (agreement : Agreement after) (climbs : process.Climbs after)
    (step : process.complete index = some (cookie, after)) : Dispatching after := by
  obtain ⟨save, revision, found, _, _, rfl⟩ := Process.complete_of_guard guarded step
  refine dispatching.close authority locking agreement climbs (fun session member => ?_) rfl rfl rfl
    fun other lookup _ => ?_
  · rcases member with lookup | lookup | lookup
    · exact .handle lookup
    · rcases update_eq_some lookup with ⟨_, wrong⟩ | ⟨_, earlier⟩
      · cases wrong
      · exact .save earlier
    · exact .deletion lookup
  · obtain rfl := Option.some.inj (found.symm.trans lookup)
    refine Or.inr (Or.inr (Or.inl ⟨save.source.id, ?_, le_rfl⟩))
    show ((Heap.unlock _ guard.family _).families save.source.family).persistedId = _
    rw [Heap.persistedId_unlock]
    exact dispatching.authority.marked found
      (dispatching.agreement index guard save guarded found)

theorem handleStep (dispatching : Dispatching process) {action : HandleAction} {reply : Reply}
    (authority : Authority after) (locking : Locking after) (agreement : Agreement after)
    (climbs : process.Climbs after)
    (step : process.handleStep idOf action = some (reply, after)) : Dispatching after := by
  rcases Process.handleStep_cases step with
    ⟨cookie, id, _, drawn, _, rfl⟩ | ⟨index, session, _, found, _, rfl⟩ |
    ⟨index, cookie, session, id, _, found, drawn, _, rfl⟩ |
    ⟨index, session, renewed, cell, found, twin, _, rfl⟩ | ⟨index, session, _, _, _, rfl⟩ |
    ⟨index, session, _, _, _, rfl⟩
  · have unseen : (Session.new process.heap cookie id).1.id ∉ process.seen :=
      (Process.draw_eq_some drawn).2
    exact dispatching.join authority locking agreement climbs (still_of_tables rfl rfl rfl)
      (fun _ member => (Process.live_addHandle member).imp_right Process.live_see.mp)
      (mem_enter.mpr (Or.inr rfl)) (Or.inl unseen)
  · have follows : process.Follows (process.addHandle session.clone process.heap) :=
      process.follows_addHandle process.heap (Heap.Keeps.refl _) (.handle found)
        ⟨rfl, rfl, rfl, rfl, rfl⟩
    exact dispatching.follow authority locking agreement climbs follows.live
      (still_of_tables rfl rfl rfl)
  · have unseen : (session.regenerate process.heap cookie id).id ∉ process.seen :=
      (Process.draw_eq_some drawn).2
    exact dispatching.join authority locking agreement climbs (still_of_tables rfl rfl rfl)
      (fun _ member => (Process.live_setHandle member).imp_right Process.live_see.mp)
      (mem_enter.mpr (Or.inr rfl)) (Or.inl unseen)
  · exact dispatching.follow authority locking agreement climbs
      ((process.follows_setHandle index (.handle found) twin).trans
        (Process.follows_heap _ (Heap.keeps_setCell _ _ _))).live (still_of_tables rfl rfl rfl)
  · exact dispatching.follow authority locking agreement climbs
      (process.follows_heap (Session.keeps_destroy _ _)).live (still_of_tables rfl rfl rfl)
  · exact dispatching.follow authority locking agreement climbs
      (process.follows_dropHandle index).live (still_of_tables rfl rfl rfl)

/-- Every coordinated move preserves the invariant of record-creating writes. -/
theorem moves (dispatching : Dispatching process) (coordinated : Process.Coordinated kind)
    (move : Process.Moves idOf process kind after) : Dispatching after := by
  have authority : Authority after := dispatching.authority.moves move
  have locking : Locking after := dispatching.locking.moves dispatching.authority move
  have agreement : Agreement after :=
    dispatching.agreement.moves dispatching.locking dispatching.authority coordinated.2 move
  have climbs := move.climbs dispatching.authority
  have follow := fun {next : Process} (authority : Authority next) locking agreement climbs live still =>
    @follow process next dispatching authority locking agreement climbs live still
  cases move with
  | handle step => exact dispatching.handleStep authority locking agreement climbs step
  | adopt fetches written =>
    exact dispatching.join authority locking agreement climbs (still_of_tables rfl rfl rfl)
      (fun _ member => (Process.live_addHandle member).imp_right Process.live_see.mp)
      (mem_enter.mpr (Or.inr rfl)) (Or.inr ⟨written, congrArg Family.persistedId fetches.marker⟩)
  | trust _ => exact absurd rfl coordinated.1
  | deserialize _ => exact absurd rfl coordinated.1
  | attempt step => exact dispatching.attempt authority locking agreement climbs step
  | captureImmutable step =>
    have live := (Process.follows_captureImmutable step).live
    obtain ⟨save, found, _, rfl⟩ := Process.captureImmutable_cases step
    exact follow authority locking agreement climbs live (still_of_save found rfl rfl rfl rfl rfl rfl)
  | capturePersistence step =>
    have live := (Process.follows_capturePersistence step).live
    obtain ⟨save, found, _, _, rfl⟩ := Process.capturePersistence_cases step
    exact follow authority locking agreement climbs live (still_of_save found rfl rfl rfl rfl rfl rfl)
  | annotate _ _ found =>
    refine follow authority locking agreement climbs (process.follows_setSave _ _ fun newer same => ?_).live
      (still_of_save found rfl rfl rfl rfl rfl rfl)
    obtain rfl := Option.some.inj same
    exact ⟨_, found, rfl, rfl⟩
  | acquire _ step => exact dispatching.acquire authority locking agreement climbs step
  | dispatch found guarded creates undispatched step =>
    exact dispatching.dispatch found guarded creates undispatched authority locking agreement climbs
      step
  | finish step =>
    obtain ⟨guard, found, _, rfl⟩ := Process.finish_cases step
    exact follow authority locking agreement climbs (process.follows_setGuard _ _).live
      (still_of_guard found rfl rfl rfl)
  | requireCleanup step =>
    obtain ⟨guard, found, rfl⟩ := Process.requireCleanup_cases step
    exact follow authority locking agreement climbs (process.follows_setGuard _ _).live
      (still_of_guard found rfl rfl rfl)
  | confirmRemoved step =>
    obtain ⟨guard, found, rfl⟩ := Process.confirmRemoved_cases step
    exact follow authority locking agreement climbs (process.follows_setGuard _ _).live
      (still_of_guard found rfl rfl rfl)
  | dropGuard _ => exact absurd rfl coordinated.1
  | dropSave _ => exact absurd rfl coordinated.1
  | abandon abandonable => exact dispatching.abandon abandonable authority locking agreement climbs
  | complete guarded step => exact dispatching.complete guarded authority locking agreement climbs step
  | acknowledge _ => exact absurd rfl coordinated.2
  | requestDelete step =>
    have live := (Process.follows_requestDelete step).live
    obtain ⟨session, _, _, rfl⟩ := Process.requestDelete_cases step
    exact follow authority locking agreement climbs live (still_of_tables rfl rfl rfl)
  | grantDelete step =>
    have live := (Process.follows_grantDelete step).live
    obtain ⟨deletion, _, _, _, ⟨_, _, _, rfl⟩ | ⟨_, _, _, _, rfl⟩⟩ := Process.grantDelete_cases step
    · exact follow authority locking agreement climbs live (still_of_tables rfl rfl rfl)
    · exact follow authority locking agreement climbs live (still_of_tables rfl rfl rfl)
  | dropDelete index =>
    obtain ⟨heap, dropped⟩ := process.dropDelete_eq index
    exact follow authority locking agreement climbs (process.follows_dropDelete index).live
      (still_of_tables (by rw [dropped]; rfl) (by rw [dropped]; rfl)
        (Agreement.guards_dropDelete process index))
  | @conceal heap hidden =>
    have same : ∀ {session}, ({ process with heap } : Process).Live session → process.Live session :=
      (Process.live_congr process { process with heap } rfl rfl rfl).mp
    exact follow authority locking agreement climbs
      (fun session member => ⟨session, same member, Session.Twin.refl _⟩)
      (still_of_tables rfl rfl rfl)

end Dispatching

/-- The moves of a store that set no marker. -/
def Process.Plain (kind : Process.Kind) : Prop := kind = .ordinary ∨ kind = .store

theorem Process.Path.coordinated {idOf : Cookie → Option Id} {process after : Process}
    (path : Process.Path idOf Process.Plain process after) :
    Process.Path idOf Process.Coordinated process after :=
  path.mono fun _ plain => by rcases plain with rfl | rfl <;> exact ⟨by simp, by simp⟩

/-- A path of coordinated moves preserves the invariant of record-creating writes. -/
theorem Dispatching.path {idOf : Cookie → Option Id} {process after : Process}
    (dispatching : Dispatching process)
    (path : Process.Path idOf Process.Coordinated process after) : Dispatching after :=
  path.invariant (fun coordinated earlier move => earlier.moves coordinated move) dispatching

end Saysion
