/-
This file proves the invariant of write authority: what the markers, the ids and
rotation sources of the handles, and the origins of the saves in progress of
every clone family have to do with each other, at every moment of every run.

The order on ids is the order in which they were drawn (`rank`). Regeneration
always draws a new id, so a rotation source is older than the id it rotates to,
and the marker only ever moves from a source to its target. This makes the
marker climb, and is why no late completion can roll it back.

Everything here is per operation: `Follows` covers the operations that leave
authority alone, and one lemma each covers a new family, a regeneration,
an attempt and an acknowledgement.
-/

import Saysion.Process

namespace Saysion

/-- What a write to one key of a finite table leaves readable. -/
theorem update_eq_some {α : Type} {table : Nat → Option α} {index key : Nat} {value : Option α}
    {found : α} (lookup : Function.update table index value key = some found) :
    (key = index ∧ value = some found) ∨ (key ≠ index ∧ table key = some found) := by
  by_cases same : key = index
  · subst same
    rw [Function.update_self] at lookup
    exact Or.inl ⟨rfl, lookup⟩
  · rw [Function.update_of_ne same] at lookup
    exact Or.inr ⟨same, lookup⟩

theorem eq_some_of_update_self {α : Type} {table : Nat → Option α} {index : Nat} {value : Option α}
    {found : α} (lookup : Function.update table index value index = some found) :
    value = some found := by
  rwa [Function.update_self] at lookup

/-- A cleared key, and one that had no entry, are free. -/
theorem update_none_eq_none {α : Type} {table : Nat → Option α} {key : Nat} (index : Nat)
    (free : table key = none) : Function.update table index none key = none := by
  by_cases same : key = index
  · rw [same]
    exact Function.update_self _ _ _
  · exact (Function.update_of_ne same _ _).trans free

/-- Which sessions are live is a matter of the three tables. -/
theorem Process.live_congr (before after : Process)
    (handles : after.handles = before.handles)
    (saves : after.saves = before.saves) (deletions : after.deletions = before.deletions)
    {session : Session} : after.Live session ↔ before.Live session := by
  constructor
  · rintro (found | found | found)
    · exact .handle (handles ▸ found)
    · exact .save (saves ▸ found)
    · exact .deletion (deletions ▸ found)
  · rintro (found | found | found)
    · exact .handle (by rw [handles]; exact found)
    · exact .save (by rw [saves]; exact found)
    · exact .deletion (by rw [deletions]; exact found)

/-- Two sessions that differ at most in expiry, cookie and metadata flag. -/
structure Session.Twin (first second : Session) : Prop where
  id : first.id = second.id
  rotationFrom : first.rotationFrom = second.rotationFrom
  fresh : first.fresh = second.fresh
  family : first.family = second.family
  data : first.data = second.data

theorem Session.Twin.refl (session : Session) : session.Twin session := ⟨rfl, rfl, rfl, rfl, rfl⟩

theorem Session.twin_setExpiry (session : Session) (expiry : DateTime) :
    session.Twin (session.setExpiry expiry) := by
  unfold Session.setExpiry
  split <;> exact ⟨rfl, rfl, rfl, rfl, rfl⟩

theorem Session.twin_setCookieValue (session : Session) (cookie : Cookie) :
    session.Twin (session.setCookieValue cookie) := by
  unfold Session.setCookieValue
  split <;> exact ⟨rfl, rfl, rfl, rfl, rfl⟩

/-- A change of the heap that allocates at most, and keeps the marker and the creation claim of
every allocated family. -/
structure Heap.Keeps (before after : Heap) : Prop where
  nextFamily : before.nextFamily ≤ after.nextFamily
  nextCell : before.nextCell ≤ after.nextCell
  persistedId : ∀ ref < before.nextFamily,
    (after.families ref).persistedId = (before.families ref).persistedId
  creationClaimed : ∀ ref < before.nextFamily,
    (after.families ref).creationClaimed = (before.families ref).creationClaimed

namespace Heap

variable {heap before middle after : Heap} {ref : Ref}

theorem Keeps.refl (heap : Heap) : heap.Keeps heap :=
  ⟨le_rfl, le_rfl, fun _ _ => rfl, fun _ _ => rfl⟩

theorem Keeps.trans (first : before.Keeps middle) (second : middle.Keeps after) :
    before.Keeps after where
  nextFamily := first.nextFamily.trans second.nextFamily
  nextCell := first.nextCell.trans second.nextCell
  persistedId ref old := by
    rw [second.persistedId ref (old.trans_le first.nextFamily), first.persistedId ref old]
  creationClaimed ref old := by
    rw [second.creationClaimed ref (old.trans_le first.nextFamily), first.creationClaimed ref old]

theorem keeps_setCell (heap : Heap) (ref : Ref) (data : SessionData) :
    heap.Keeps (heap.setCell ref data) :=
  ⟨le_rfl, le_rfl, fun _ _ => rfl, fun _ _ => rfl⟩

theorem keeps_allocCell (heap : Heap) (data : SessionData) : heap.Keeps (heap.allocCell data) :=
  ⟨le_rfl, Nat.le_succ _, fun _ _ => rfl, fun _ _ => rfl⟩

theorem keeps_allocFamily (heap : Heap) (family : Family) : heap.Keeps (heap.allocFamily family) where
  nextFamily := Nat.le_succ _
  nextCell := le_rfl
  persistedId ref old := by rw [heap.allocFamily_of_lt family old]
  creationClaimed ref old := by rw [heap.allocFamily_of_lt family old]

/-- Writing a family keeps authority when it keeps its marker and its claim. -/
theorem keeps_setFamily (heap : Heap) (ref : Ref) (family : Family)
    (persistedId : family.persistedId = (heap.families ref).persistedId)
    (claimed : family.creationClaimed = (heap.families ref).creationClaimed) :
    heap.Keeps (heap.setFamily ref family) where
  nextFamily := le_rfl
  nextCell := le_rfl
  persistedId other _ := by
    by_cases same : other = ref
    · rw [same, setFamily_self, persistedId]
    · rw [heap.setFamily_of_ne ref family same]
  creationClaimed other _ := by
    by_cases same : other = ref
    · rw [same, setFamily_self, claimed]
    · rw [heap.setFamily_of_ne ref family same]

theorem keeps_lock (heap : Heap) (ref : Ref) : heap.Keeps (heap.lock ref) :=
  heap.keeps_setFamily ref _ rfl rfl

theorem keeps_unlock (heap : Heap) (ref : Ref) (uncertain : Bool) :
    heap.Keeps (heap.unlock ref uncertain) :=
  heap.keeps_setFamily ref _ rfl rfl

end Heap

namespace Session

theorem keeps_destroy (heap : Heap) (session : Session) : heap.Keeps (session.destroy heap) :=
  heap.keeps_setFamily _ _ rfl rfl

theorem keeps_beginGuardedWrite (heap : Heap) (session : Session) (origin : Option Id)
    (receipt : Option Nat) (canOutliveFuture : Bool) :
    heap.Keeps (session.beginGuardedWrite heap origin receipt canOutliveFuture).2 := by
  rcases outcome : session.beginGuardedWrite heap origin receipt canOutliveFuture with
    ⟨error | guard, after⟩
  · rcases beginGuardedWrite_error outcome with same | dropped
    · rw [same]
      exact Heap.Keeps.refl heap
    · rw [dropped]
      exact (heap.keeps_lock _).trans (Heap.keeps_unlock _ _ _)
  · obtain ⟨_, _, _, _, locked⟩ := beginGuardedWrite_ok outcome
    rw [locked]
    exact heap.keeps_lock _

theorem keeps_persistenceSnapshot (heap : Heap) (session : Session) :
    heap.Keeps (session.persistenceSnapshot heap).2 :=
  ((heap.keeps_allocFamily _).trans (Heap.keeps_allocCell _ _)).trans (Heap.keeps_setCell _ _ _)

end Session

/-! ### Operations that leave authority alone -/

/-- One state of a process follows another without touching authority: the markers and claims
are kept, the list of ids only grows, and the live sessions and the saves are those of before,
up to twins. -/
structure Process.Follows (before after : Process) : Prop where
  keeps : before.heap.Keeps after.heap
  grows : before.seen <+: after.seen
  live : ∀ session, after.Live session → ∃ twin, before.Live twin ∧ twin.Twin session
  saves : ∀ index save, after.saves index = some save → ∃ older,
    before.saves index = some older ∧ older.source = save.source ∧ older.origin = save.origin

namespace Process

variable {process after : Process}

theorem follows_of_tables (keeps : process.heap.Keeps after.heap)
    (grows : process.seen <+: after.seen)
    (handles : ∀ index session, after.handles index = some session →
      ∃ twin, process.Live twin ∧ twin.Twin session)
    (saves : ∀ index save, after.saves index = some save → ∃ older,
      process.saves index = some older ∧ older.source = save.source ∧ older.origin = save.origin)
    (deletions : ∀ index deletion, after.deletions index = some deletion →
      process.Live deletion.session) : process.Follows after where
  keeps := keeps
  grows := grows
  live := by
    rintro session (found | found | found)
    · exact handles _ _ found
    · obtain ⟨older, earlier, source, _⟩ := saves _ _ found
      exact ⟨older.source, .save earlier, source ▸ Session.Twin.refl _⟩
    · exact ⟨_, deletions _ _ found, Session.Twin.refl _⟩
  saves := saves

theorem Follows.refl (process : Process) : process.Follows process :=
  ⟨Heap.Keeps.refl _, List.prefix_rfl, fun session member => ⟨session, member, Session.Twin.refl _⟩,
    fun _ save found => ⟨save, found, rfl, rfl⟩⟩

theorem Follows.trans {middle : Process} (first : process.Follows middle)
    (second : middle.Follows after) : process.Follows after where
  keeps := first.keeps.trans second.keeps
  grows := first.grows.trans second.grows
  live session member := by
    obtain ⟨twin, middleLive, same⟩ := second.live session member
    obtain ⟨older, earlier, alike⟩ := first.live twin middleLive
    exact ⟨older, earlier, alike.id.trans same.id, alike.rotationFrom.trans same.rotationFrom,
      alike.fresh.trans same.fresh, alike.family.trans same.family, alike.data.trans same.data⟩
  saves index save found := by
    obtain ⟨newer, middleFound, source, origin⟩ := second.saves index save found
    obtain ⟨older, earlier, source', origin'⟩ := first.saves index newer middleFound
    exact ⟨older, earlier, source'.trans source, origin'.trans origin⟩

/-- What a process follows depends on the heap, the list of ids and the three tables only. -/
theorem Follows.congr {middle : Process} (follows : process.Follows middle)
    (heap : after.heap = middle.heap) (seen : after.seen = middle.seen)
    (handles : after.handles = middle.handles) (saves : after.saves = middle.saves)
    (deletions : after.deletions = middle.deletions) : process.Follows after where
  keeps := heap ▸ follows.keeps
  grows := seen ▸ follows.grows
  live session member :=
    follows.live session ((live_congr middle after handles saves deletions).mp member)
  saves := saves ▸ follows.saves

theorem follows_heap (process : Process) {heap : Heap} (keeps : process.heap.Keeps heap) :
    process.Follows { process with heap } :=
  follows_of_tables keeps List.prefix_rfl
    (fun _ session found => ⟨session, .handle found, Session.Twin.refl _⟩)
    (fun _ save found => ⟨save, found, rfl, rfl⟩) fun _ _ found => .deletion found

theorem follows_see (process : Process) (id : Id) : process.Follows (process.see id) :=
  follows_of_tables (Heap.Keeps.refl _) (prefix_enter _ _)
    (fun _ session found => ⟨session, .handle found, Session.Twin.refl _⟩)
    (fun _ save found => ⟨save, found, rfl, rfl⟩) fun _ _ found => .deletion found

theorem follows_addHandle (process : Process) {session twin : Session} (heap : Heap)
    (keeps : process.heap.Keeps heap) (member : process.Live twin) (same : twin.Twin session) :
    process.Follows (process.addHandle session heap) := by
  refine follows_of_tables keeps List.prefix_rfl (fun index other found => ?_)
    (fun _ save found => ⟨save, found, rfl, rfl⟩) fun _ _ found => .deletion found
  rcases update_eq_some found with ⟨_, added⟩ | ⟨_, earlier⟩
  · obtain rfl := Option.some.inj added
    exact ⟨twin, member, same⟩
  · exact ⟨other, .handle earlier, Session.Twin.refl _⟩

theorem follows_setHandle (process : Process) (index : Nat) {session twin : Session}
    (member : process.Live twin) (same : twin.Twin session) :
    process.Follows (process.setHandle index session) := by
  refine follows_of_tables (Heap.Keeps.refl _) List.prefix_rfl (fun key other found => ?_)
    (fun _ save found => ⟨save, found, rfl, rfl⟩) fun _ _ found => .deletion found
  rcases update_eq_some found with ⟨_, added⟩ | ⟨_, earlier⟩
  · obtain rfl := Option.some.inj added
    exact ⟨twin, member, same⟩
  · exact ⟨other, .handle earlier, Session.Twin.refl _⟩

theorem follows_dropHandle (process : Process) (index : Nat) :
    process.Follows (process.dropHandle index) := by
  refine follows_of_tables (Heap.Keeps.refl _) List.prefix_rfl (fun key other found => ?_)
    (fun _ save found => ⟨save, found, rfl, rfl⟩) fun _ _ found => .deletion found
  rcases update_eq_some found with ⟨_, added⟩ | ⟨_, earlier⟩
  · cases added
  · exact ⟨other, .handle earlier, Session.Twin.refl _⟩

theorem follows_setGuard (process : Process) (index : Nat) (guard : Option WriteGuard) :
    process.Follows (process.setGuard index guard) :=
  follows_of_tables (Heap.Keeps.refl _) List.prefix_rfl
    (fun _ session found => ⟨session, .handle found, Session.Twin.refl _⟩)
    (fun _ save found => ⟨save, found, rfl, rfl⟩) fun _ _ found => .deletion found

/-- Replacing a save by one with the same source and origin, or by none. -/
theorem follows_setSave (process : Process) (index : Nat) (save : Option Save)
    (same : ∀ newer, save = some newer → ∃ older, process.saves index = some older ∧
      older.source = newer.source ∧ older.origin = newer.origin) :
    process.Follows (process.setSave index save) := by
  refine follows_of_tables (Heap.Keeps.refl _) List.prefix_rfl
    (fun _ session found => ⟨session, .handle found, Session.Twin.refl _⟩)
    (fun key newer found => ?_) fun _ _ found => .deletion found
  rcases update_eq_some found with ⟨rfl, replaced⟩ | ⟨_, earlier⟩
  · exact same newer replaced
  · exact ⟨newer, earlier, rfl, rfl⟩

theorem follows_setDeletion (process : Process) (index : Nat) (deletion : Option Deletion)
    (member : ∀ newer, deletion = some newer → process.Live newer.session) :
    process.Follows (process.setDeletion index deletion) := by
  refine follows_of_tables (Heap.Keeps.refl _) List.prefix_rfl
    (fun _ session found => ⟨session, .handle found, Session.Twin.refl _⟩)
    (fun _ save found => ⟨save, found, rfl, rfl⟩) fun key newer found => ?_
  rcases update_eq_some found with ⟨_, replaced⟩ | ⟨_, earlier⟩
  · exact member newer replaced
  · exact .deletion earlier

end Process

/-! ### The invariant -/

/-- The invariant of write authority. -/
structure Authority (process : Process) : Prop where
  /-- Everything a live session refers to is allocated. -/
  allocated : ∀ session, process.Live session →
    session.family < process.heap.nextFamily ∧ session.data < process.heap.nextCell
  /-- The id of a session that may ever write was drawn or trusted. -/
  idSeen : ∀ session, process.Live session →
    (session.fresh = true ∨ session.persistedId process.heap ≠ none) → session.id ∈ process.seen
  markerSeen : ∀ session, process.Live session → ∀ marker,
    session.persistedId process.heap = some marker → marker ∈ process.seen
  /-- Freshness and the rotation source of an id are facts about the family. -/
  fresh_eq : ∀ first second, process.Live first → process.Live second →
    first.family = second.family → first.fresh = second.fresh
  rotation_eq : ∀ first second, process.Live first → process.Live second →
    first.family = second.family → first.id = second.id →
      first.rotationFrom = second.rotationFrom
  /-- A rotation source was the marker once, and is older than the id it rotates to. -/
  rotation_lt : ∀ session, process.Live session → ∀ source,
    session.rotationFrom = some source → source ∈ process.seen ∧
      rank process.seen source < rank process.seen session.id ∧
      ∃ marker, session.persistedId process.heap = some marker ∧
        rank process.seen source ≤ rank process.seen marker
  /-- A creating save is alone with the claim of its family. -/
  creating : ∀ index save, process.saves index = some save → save.origin = none →
    save.source.fresh = true ∧ (save.source.shared process.heap).creationClaimed = true ∧
      save.source.persistedId process.heap = none
  creating_unique : ∀ first second left right, process.saves first = some left →
    process.saves second = some right → left.origin = none → right.origin = none →
      left.source.family = right.source.family → first = second
  /-- The origin of any other save was the marker once. -/
  origin_le : ∀ index save origin, process.saves index = some save → save.origin = some origin →
    (origin = save.source.id ∨ save.source.rotationFrom = some origin) ∧
      origin ∈ process.seen ∧ ∃ marker, save.source.persistedId process.heap = some marker ∧
        rank process.seen origin ≤ rank process.seen marker

theorem authority_initial : Authority Process.initial where
  allocated := by rintro _ (found | found | found) <;> cases found
  idSeen := by rintro _ (found | found | found) <;> cases found
  markerSeen := by rintro _ (found | found | found) <;> cases found
  fresh_eq := by rintro _ _ (found | found | found) <;> cases found
  rotation_eq := by rintro _ _ (found | found | found) <;> cases found
  rotation_lt := by rintro _ (found | found | found) <;> cases found
  creating := by rintro _ _ found; cases found
  creating_unique := by rintro _ _ _ _ found; cases found
  origin_le := by rintro _ _ _ found; cases found

namespace Authority

variable {process after : Process}

/-- What only follows preserves authority. -/
theorem follow (authority : Authority process) (follows : process.Follows after) :
    Authority after := by
  obtain ⟨keeps, grows, live, saves⟩ := follows
  have persisted : ∀ {first second : Session}, process.Live first → first.Twin second →
      second.persistedId after.heap = first.persistedId process.heap := by
    intro first second member twin
    rw [Session.persistedId, Session.shared, ← twin.family,
      keeps.persistedId _ (authority.allocated first member).1]
    rfl
  have ranks : ∀ {x : Id}, x ∈ process.seen → rank after.seen x = rank process.seen x :=
    fun member => rank_eq_of_grown grows member
  constructor
  · intro session member
    obtain ⟨twin, older, same⟩ := live session member
    obtain ⟨family, data⟩ := authority.allocated twin older
    rw [← same.family, ← same.data]
    exact ⟨family.trans_le keeps.nextFamily, data.trans_le keeps.nextCell⟩
  · intro session member allowed
    obtain ⟨twin, older, same⟩ := live session member
    rw [persisted older same, ← same.fresh] at allowed
    rw [← same.id]
    exact grows.subset (authority.idSeen twin older allowed)
  · intro session member marker current
    obtain ⟨twin, older, same⟩ := live session member
    rw [persisted older same] at current
    exact grows.subset (authority.markerSeen twin older marker current)
  · intro first second firstLive secondLive together
    obtain ⟨left, leftLive, leftSame⟩ := live first firstLive
    obtain ⟨right, rightLive, rightSame⟩ := live second secondLive
    rw [← leftSame.fresh, ← rightSame.fresh]
    refine authority.fresh_eq left right leftLive rightLive ?_
    rw [leftSame.family, rightSame.family, together]
  · intro first second firstLive secondLive together ids
    obtain ⟨left, leftLive, leftSame⟩ := live first firstLive
    obtain ⟨right, rightLive, rightSame⟩ := live second secondLive
    rw [← leftSame.rotationFrom, ← rightSame.rotationFrom]
    refine authority.rotation_eq left right leftLive rightLive ?_ ?_
    · rw [leftSame.family, rightSame.family, together]
    · rw [leftSame.id, rightSame.id, ids]
  · intro session member source rotates
    obtain ⟨twin, older, same⟩ := live session member
    rw [← same.rotationFrom] at rotates
    obtain ⟨seen, younger, marker, current, below⟩ :=
      authority.rotation_lt twin older source rotates
    have markerSeen := authority.markerSeen twin older marker current
    have idSeen := authority.idSeen twin older (Or.inr (by rw [current]; simp))
    refine ⟨grows.subset seen, ?_, marker, ?_, ?_⟩
    · rw [← same.id, ranks seen, ranks idSeen]
      exact younger
    · rw [persisted older same, current]
    · rw [ranks seen, ranks markerSeen]
      exact below
  · intro index save found unsaved
    obtain ⟨older, earlier, source, origin⟩ := saves index save found
    obtain ⟨fresh, claimed, unmarked⟩ :=
      authority.creating index older earlier (by rw [origin, unsaved])
    have member : process.Live older.source := .save earlier
    rw [← source]
    refine ⟨fresh, ?_, ?_⟩
    · rw [Session.shared, keeps.creationClaimed _ (authority.allocated _ member).1]
      exact claimed
    · rw [persisted member (Session.Twin.refl _), unmarked]
  · intro first second left right leftFound rightFound leftNone rightNone together
    obtain ⟨olderLeft, earlierLeft, sourceLeft, originLeft⟩ := saves first left leftFound
    obtain ⟨olderRight, earlierRight, sourceRight, originRight⟩ := saves second right rightFound
    refine authority.creating_unique first second olderLeft olderRight earlierLeft earlierRight
      ?_ ?_ ?_
    · rw [originLeft, leftNone]
    · rw [originRight, rightNone]
    · rw [sourceLeft, sourceRight, together]
  · intro index save origin found saved
    obtain ⟨older, earlier, source, same⟩ := saves index save found
    obtain ⟨related, seen, marker, current, below⟩ :=
      authority.origin_le index older origin earlier (by rw [same, saved])
    have member : process.Live older.source := .save earlier
    have markerSeen := authority.markerSeen _ member marker current
    rw [← source]
    refine ⟨related, grows.subset seen, marker, ?_, ?_⟩
    · rw [persisted member (Session.Twin.refl _), current]
    · rw [ranks seen, ranks markerSeen]
      exact below

/-- Without a marker there is no rotation source. -/
theorem unrotated (authority : Authority process) {session : Session}
    (member : process.Live session) (unmarked : session.persistedId process.heap = none) :
    session.rotationFrom = none := by
  by_contra some
  obtain ⟨source, rotates⟩ := Option.ne_none_iff_exists'.mp some
  obtain ⟨_, _, marker, current, _⟩ := authority.rotation_lt session member source rotates
  cases unmarked.symm.trans current

/-- A session in a new family joins: one that was created, deserialized or loaded. -/
theorem join (authority : Authority process) {session : Session}
    (keeps : process.heap.Keeps after.heap) (grows : process.seen <+: after.seen)
    (newFamily : process.heap.nextFamily ≤ session.family)
    (family : session.family < after.heap.nextFamily) (data : session.data < after.heap.nextCell)
    (unrotated : session.rotationFrom = none)
    (idSeen : session.fresh = true ∨ session.persistedId after.heap ≠ none →
      session.id ∈ after.seen)
    (markerSeen : ∀ marker, session.persistedId after.heap = some marker → marker ∈ after.seen)
    (live : ∀ other, after.Live other → other = session ∨ process.Live other)
    (saves : after.saves = process.saves) : Authority after := by
  set moved : Process := { process with heap := after.heap, seen := after.seen } with movedDef
  have same : ∀ {other}, moved.Live other ↔ process.Live other :=
    Process.live_congr process moved rfl rfl rfl
  have older : Authority moved := authority.follow
    ⟨keeps, grows, fun other member => ⟨other, same.mp member, Session.Twin.refl _⟩,
      fun index save found => ⟨save, found, rfl, rfl⟩⟩
  have relive : ∀ {other}, process.Live other → moved.Live other := same.mpr
  have apart : ∀ {other}, process.Live other → other.family ≠ session.family :=
    fun member => ne_of_lt ((authority.allocated _ member).1.trans_le newFamily)
  constructor
  · intro other member
    rcases live other member with rfl | earlier
    · exact ⟨family, data⟩
    · exact older.allocated other (relive earlier)
  · intro other member
    rcases live other member with rfl | earlier
    · exact idSeen
    · exact older.idSeen other (relive earlier)
  · intro other member
    rcases live other member with rfl | earlier
    · exact markerSeen
    · exact older.markerSeen other (relive earlier)
  · intro first second firstLive secondLive together
    rcases live first firstLive with rfl | earlierFirst <;>
      rcases live second secondLive with rfl | earlierSecond
    · rfl
    · exact absurd together.symm (apart earlierSecond)
    · exact absurd together (apart earlierFirst)
    · exact older.fresh_eq first second (relive earlierFirst) (relive earlierSecond) together
  · intro first second firstLive secondLive together
    rcases live first firstLive with rfl | earlierFirst <;>
      rcases live second secondLive with rfl | earlierSecond
    · exact fun _ => rfl
    · exact absurd together.symm (apart earlierSecond)
    · exact absurd together (apart earlierFirst)
    · exact older.rotation_eq first second (relive earlierFirst) (relive earlierSecond) together
  · intro other member source rotates
    rcases live other member with rfl | earlier
    · rw [unrotated] at rotates
      cases rotates
    · exact older.rotation_lt other (relive earlier) source rotates
  · rw [saves]
    exact older.creating
  · rw [saves]
    exact older.creating_unique
  · rw [saves]
    exact older.origin_le

/-- A handle is regenerated: its id is new, and it keeps a rotation source or takes the marker. -/
theorem regenerate (authority : Authority process) {index : Nat} {session : Session}
    {cookie : Cookie} {id : Id} (found : process.handles index = some session)
    (unseen : id ∉ process.seen) :
    Authority ((process.see id).setHandle index (session.regenerate process.heap cookie id)) := by
  set renewed := session.regenerate process.heap cookie id with renewedDef
  have member : process.Live session := .handle found
  have grows : process.seen <+: enter process.seen id := prefix_enter _ _
  have same : ∀ {other}, (process.see id).Live other ↔ process.Live other :=
    Process.live_congr process (process.see id) rfl rfl rfl
  have older : Authority (process.see id) := authority.follow (process.follows_see id)
  have relive : ∀ {other}, process.Live other → (process.see id).Live other := same.mpr
  have live : ∀ other,
      ((process.see id).setHandle index renewed).Live other → other = renewed ∨ process.Live other := by
    rintro other (lookup | lookup | lookup)
    · rcases update_eq_some lookup with ⟨_, same⟩ | ⟨_, earlier⟩
      · exact Or.inl (Option.some.inj same).symm
      · exact Or.inr (.handle earlier)
    · exact Or.inr (.save lookup)
    · exact Or.inr (.deletion lookup)
  -- The source is the current marker, or the one the handle had already.
  have source : ∀ source, renewed.rotationFrom = some source →
      source ∈ process.seen ∧ ∃ marker, session.persistedId process.heap = some marker ∧
        marker ∈ process.seen ∧ rank process.seen source ≤ rank process.seen marker := by
    intro source rotates
    simp only [renewedDef, Session.regenerate] at rotates
    split at rotates
    · exact ⟨authority.markerSeen session member source rotates, source, rotates,
        authority.markerSeen session member source rotates, le_rfl⟩
    · obtain ⟨seen, _, marker, current, below⟩ :=
        authority.rotation_lt session member source rotates
      exact ⟨seen, marker, current, authority.markerSeen session member marker current, below⟩
  have agree : ∀ other, process.Live other → other.family = session.family → other.id = id →
      other.rotationFrom = renewed.rotationFrom := by
    intro other earlier together same
    -- A handle that might write has a seen id, so nobody here may, and no source exists at all.
    have markers : other.persistedId process.heap = session.persistedId process.heap := by
      rw [Session.persistedId, Session.shared, together]
      rfl
    have unmarked : session.persistedId process.heap = none := by
      by_contra marked
      exact unseen (same ▸ authority.idSeen other earlier (Or.inr (markers ▸ marked)))
    rw [authority.unrotated earlier (markers.trans unmarked)]
    simp [renewedDef, Session.regenerate, unmarked, authority.unrotated member unmarked]
  constructor
  · intro other after
    rcases live other after with rfl | earlier
    · exact authority.allocated session member
    · exact authority.allocated other earlier
  · intro other after allowed
    rcases live other after with rfl | earlier
    · exact mem_enter.mpr (Or.inr rfl)
    · exact older.idSeen other (relive earlier) allowed
  · intro other after
    rcases live other after with rfl | earlier
    · exact older.markerSeen session (relive member)
    · exact older.markerSeen other (relive earlier)
  · intro first second firstLive secondLive together
    rcases live first firstLive with rfl | earlierFirst <;>
      rcases live second secondLive with rfl | earlierSecond
    · rfl
    · exact authority.fresh_eq session second member earlierSecond together
    · exact authority.fresh_eq first session earlierFirst member together
    · exact authority.fresh_eq first second earlierFirst earlierSecond together
  · intro first second firstLive secondLive together ids
    rcases live first firstLive with rfl | earlierFirst <;>
      rcases live second secondLive with rfl | earlierSecond
    · rfl
    · exact (agree second earlierSecond together.symm ids.symm).symm
    · exact agree first earlierFirst together ids
    · exact authority.rotation_eq first second earlierFirst earlierSecond together ids
  · intro other after rotation rotates
    rcases live other after with rfl | earlier
    · obtain ⟨seen, marker, current, markerSeen, below⟩ := source rotation rotates
      refine ⟨grows.subset seen, ?_, marker, current, ?_⟩
      · show rank (enter process.seen id) rotation < rank (enter process.seen id) id
        rw [enter_of_notMem unseen]
        exact rank_lt_of_new seen unseen
      · show rank (enter process.seen id) rotation ≤ rank (enter process.seen id) marker
        rw [rank_eq_of_grown grows seen, rank_eq_of_grown grows markerSeen]
        exact below
    · exact older.rotation_lt other (relive earlier) rotation rotates
  · exact older.creating
  · exact older.creating_unique
  · exact older.origin_le

/-- A heap in which no marker has moved and no creation claim was given back. -/
structure Claims (before after : Heap) : Prop where
  nextFamily : after.nextFamily = before.nextFamily
  nextCell : after.nextCell = before.nextCell
  persistedId : ∀ session : Session, session.persistedId after = session.persistedId before
  creationClaimed : ∀ ref, (before.families ref).creationClaimed = true →
    (after.families ref).creationClaimed = true

/-- Only the claim of the handle's own family changes. -/
theorem claims_of_attempt {session : Session} {origin : Option Id} {before heap : Heap}
    (attempted : session.persistenceAttempt before = .ok (origin, heap)) : Claims before heap := by
  obtain ⟨_, _, changed⟩ := Session.persistenceAttempt_ok attempted
  refine ⟨?_, ?_, fun other => ?_, fun ref already => ?_⟩
  · rw [changed]
    split <;> rfl
  · rw [changed]
    split <;> rfl
  · rw [changed]
    split
    · by_cases same : other.family = session.family
      · simp [Session.persistedId, Session.shared, Session.editShared, same]
      · simp [Session.persistedId, Session.shared, Session.editShared,
          Heap.setFamily_of_ne _ _ _ same]
    · rfl
  · rw [changed]
    split
    · by_cases same : ref = session.family
      · simp [Session.editShared, same]
      · rw [Session.editShared, Heap.setFamily_of_ne _ _ _ same]
        exact already
    · exact already

/-- An attempt succeeds: its handle becomes a save, which may have taken the creation claim. -/
theorem attempt (authority : Authority process) {index : Nat} {session : Session}
    {origin : Option Id} {heap : Heap} (found : process.handles index = some session)
    (attempted : session.persistenceAttempt process.heap = .ok (origin, heap)) :
    Authority { (process.dropHandle index).setSave process.nextSave
      (some { source := session, origin }) with heap, nextSave := process.nextSave + 1 } := by
  obtain ⟨_, granted, changed⟩ := Session.persistenceAttempt_ok attempted
  obtain ⟨marker, unsaved, saved⟩ := Session.persistenceOrigin_ok.mp granted
  have member : process.Live session := .handle found
  set created : Save := { source := session, origin } with createdDef
  set result : Process := { (process.dropHandle index).setSave process.nextSave (some created) with
    heap, nextSave := process.nextSave + 1 } with resultDef
  have claims := claims_of_attempt attempted
  have live : ∀ other, result.Live other → process.Live other := by
    rintro other (lookup | lookup | lookup)
    · rcases update_eq_some lookup with ⟨_, gone⟩ | ⟨_, earlier⟩
      · cases gone
      · exact .handle earlier
    · rcases update_eq_some lookup with ⟨_, same⟩ | ⟨_, earlier⟩
      · obtain rfl := Option.some.inj same
        exact member
      · exact .save earlier
    · exact .deletion lookup
  have saves : ∀ key save, result.saves key = some save →
      (key = process.nextSave ∧ save = created) ∨ process.saves key = some save := by
    intro key save lookup
    rcases update_eq_some lookup with ⟨same, added⟩ | ⟨_, earlier⟩
    · exact Or.inl ⟨same, (Option.some.inj added).symm⟩
    · exact Or.inr earlier
  -- Another creating save of the family would hold the claim that this attempt found free.
  have alone : ∀ key save, process.saves key = some save → save.origin = none →
      origin = none → save.source.family ≠ session.family := by
    intro key save lookup creating none together
    obtain ⟨_, taken, _⟩ := authority.creating key save lookup creating
    rw [Session.shared, together] at taken
    exact Bool.noConfusion ((unsaved none).2.symm.trans taken)
  constructor
  · intro other lookup
    show other.family < heap.nextFamily ∧ other.data < heap.nextCell
    rw [claims.nextFamily, claims.nextCell]
    exact authority.allocated other (live other lookup)
  · intro other lookup allowed
    change other.fresh = true ∨ other.persistedId heap ≠ none at allowed
    rw [claims.persistedId other] at allowed
    exact authority.idSeen other (live other lookup) allowed
  · intro other lookup current marks
    change other.persistedId heap = some current at marks
    rw [claims.persistedId other] at marks
    exact authority.markerSeen other (live other lookup) current marks
  · intro first second firstLive secondLive
    exact authority.fresh_eq first second (live first firstLive) (live second secondLive)
  · intro first second firstLive secondLive
    exact authority.rotation_eq first second (live first firstLive) (live second secondLive)
  · intro other lookup source rotates
    show _ ∧ _ ∧ ∃ current, other.persistedId heap = some current ∧ _
    rw [claims.persistedId other]
    exact authority.rotation_lt other (live other lookup) source rotates
  · intro key save lookup creating
    show _ ∧ (heap.families save.source.family).creationClaimed = true ∧
      save.source.persistedId heap = none
    rw [claims.persistedId save.source]
    rcases saves key save lookup with ⟨_, rfl⟩ | earlier
    · have none : origin = none := creating
      refine ⟨(unsaved none).1, ?_, marker.trans none⟩
      rw [changed, if_pos none]
      simp [createdDef, Session.editShared]
    · obtain ⟨fresh, taken, unmarked⟩ := authority.creating key save earlier creating
      exact ⟨fresh, claims.creationClaimed _ taken, unmarked⟩
  · intro first second left right leftFound rightFound leftNone rightNone together
    rcases saves first left leftFound with ⟨firstNew, rfl⟩ | leftOld <;>
      rcases saves second right rightFound with ⟨secondNew, rfl⟩ | rightOld
    · exact firstNew.trans secondNew.symm
    · exact absurd together.symm (alone second right rightOld rightNone leftNone)
    · exact absurd together (alone first left leftOld leftNone rightNone)
    · exact authority.creating_unique first second left right leftOld rightOld leftNone rightNone
        together
  · intro key save source lookup saveOrigin
    show _ ∧ _ ∧ ∃ current, save.source.persistedId heap = some current ∧ _
    rw [claims.persistedId save.source]
    rcases saves key save lookup with ⟨_, rfl⟩ | earlier
    · have same : origin = some source := saveOrigin
      have current : session.persistedId process.heap = some source := marker.trans same
      refine ⟨?_, authority.markerSeen session member source current, source, current, le_rfl⟩
      rcases saved (by rw [same]; simp) with own | rotates
      · exact Or.inl (Option.some.inj (same.symm.trans own))
      · exact Or.inr (rotates.trans same)
    · exact authority.origin_le key save source earlier saveOrigin

/-- A heap in which only the marker of a session's family has moved, to the id of the session. -/
structure Marked (session : Session) (before after : Heap) : Prop where
  own : after.families session.family =
    { session.shared before with persistedId := some session.id }
  others : ∀ ref, ref ≠ session.family → after.families ref = before.families ref
  nextFamily : after.nextFamily = before.nextFamily
  nextCell : after.nextCell = before.nextCell

namespace Marked

variable {before heap : Heap} {marking session : Session}

theorem of_moves (moves : session.persistedId before = none ∨
    session.rotationFrom = session.persistedId before) :
    Marked session before (session.markPersisted before) := by
  rw [Session.markPersisted_of_moves moves]
  exact ⟨before.setFamily_self _ _, fun _ different => before.setFamily_of_ne _ _ different, rfl, rfl⟩

theorem persistedId_self (marked : Marked marking before heap)
    (together : session.family = marking.family) : session.persistedId heap = some marking.id := by
  rw [Session.persistedId, Session.shared, together, marked.own]

theorem persistedId_of_ne (marked : Marked marking before heap)
    (different : session.family ≠ marking.family) :
    session.persistedId heap = session.persistedId before := by
  rw [Session.persistedId, Session.shared, marked.others _ different]
  rfl

theorem creationClaimed (marked : Marked marking before heap) (ref : Ref) :
    (heap.families ref).creationClaimed = (before.families ref).creationClaimed := by
  by_cases same : ref = marking.family
  · rw [same, marked.own]
    rfl
  · rw [marked.others ref same]

end Marked

/-- Two sessions of one family see one marker. -/
theorem persistedId_congr {heap : Heap} {first second : Session}
    (together : first.family = second.family) : first.persistedId heap = second.persistedId heap := by
  rw [Session.persistedId, Session.shared, Session.persistedId, Session.shared, together]

section Marking

variable {index : Nat} {save : Save}

/-- While the marker is unset, the only save of the family is the creating one. -/
theorem origin_of_unmarked (authority : Authority process)
    (found : process.saves index = some save)
    (unmarked : save.source.persistedId process.heap = none) : save.origin = none := by
  by_contra saved
  obtain ⟨origin, same⟩ := Option.ne_none_iff_exists'.mp saved
  obtain ⟨_, _, marker, wrong, _⟩ := authority.origin_le index save origin found same
  cases unmarked.symm.trans wrong

/-- The source of a save is fresh, or its family has a marker. -/
theorem allowed_save (authority : Authority process) (found : process.saves index = some save) :
    save.source.fresh = true ∨ save.source.persistedId process.heap ≠ none := by
  by_cases unmarked : save.source.persistedId process.heap = none
  · exact Or.inl (authority.creating index save found
      (authority.origin_of_unmarked found unmarked)).1
  · exact Or.inr unmarked

/-- What was below the old marker of a family is below the new one. -/
theorem below_marked (authority : Authority process) (found : process.saves index = some save)
    (moves : save.source.persistedId process.heap = none ∨
      save.source.rotationFrom = save.source.persistedId process.heap) {heap : Heap}
    (marked : Marked save.source process.heap heap) (session : Session) (source : Id)
    (below : ∃ marker, session.persistedId process.heap = some marker ∧
      rank process.seen source ≤ rank process.seen marker) :
    ∃ marker, session.persistedId heap = some marker ∧
      rank process.seen source ≤ rank process.seen marker := by
  obtain ⟨marker, before, under⟩ := below
  by_cases together : session.family = save.source.family
  · have rotates : save.source.rotationFrom = some marker := by
      rw [persistedId_congr together] at before
      rcases moves with unmarked | rotates
      · cases unmarked.symm.trans before
      · exact rotates.trans before
    exact ⟨_, marked.persistedId_self together,
      under.trans (authority.rotation_lt save.source (.save found) marker rotates).2.1.le⟩
  · exact ⟨marker, (marked.persistedId_of_ne together).trans before, under⟩

/-- A confirmed save moves the marker, from none or from its rotation source to its id, or finds
that it may not. -/
theorem mark (authority : Authority process) (found : process.saves index = some save) :
    Authority { process.setSave index none with
      heap := save.source.markPersisted process.heap } := by
  have member : process.Live save.source := .save found
  have dropped : process.Follows (process.setSave index none) :=
    process.follows_setSave index none fun _ wrong => by cases wrong
  by_cases moves : save.source.persistedId process.heap = none ∨
      save.source.rotationFrom = save.source.persistedId process.heap
  swap
  · rw [Session.markPersisted_of_stale moves]
    exact authority.follow dropped
  have marked := Marked.of_moves moves
  have live : ∀ session,
      Process.Live { process.setSave index none with heap := save.source.markPersisted process.heap }
        session → process.Live session := by
    rintro session (lookup | lookup | lookup)
    · exact .handle lookup
    · rcases update_eq_some lookup with ⟨_, gone⟩ | ⟨_, earlier⟩
      · cases gone
      · exact .save earlier
    · exact .deletion lookup
  have saves : ∀ key older, Function.update process.saves index none key = some older →
      key ≠ index ∧ process.saves key = some older := by
    intro key older lookup
    rcases update_eq_some lookup with ⟨_, gone⟩ | earlier
    · cases gone
    · exact earlier
  constructor
  · intro session lookup
    show session.family < (save.source.markPersisted process.heap).nextFamily ∧
      session.data < (save.source.markPersisted process.heap).nextCell
    rw [marked.nextFamily, marked.nextCell]
    exact authority.allocated session (live session lookup)
  · intro session lookup allowed
    refine authority.idSeen session (live session lookup) ?_
    by_cases together : session.family = save.source.family
    · rw [authority.fresh_eq session save.source (live session lookup) member together,
        persistedId_congr together]
      exact authority.allowed_save found
    · exact allowed.imp_right fun set => marked.persistedId_of_ne together ▸ set
  · intro session lookup marker marks
    change session.persistedId (save.source.markPersisted process.heap) = some marker at marks
    by_cases together : session.family = save.source.family
    · rw [marked.persistedId_self together] at marks
      obtain rfl := Option.some.inj marks
      exact authority.idSeen save.source member (authority.allowed_save found)
    · rw [marked.persistedId_of_ne together] at marks
      exact authority.markerSeen session (live session lookup) marker marks
  · intro first second firstLive secondLive
    exact authority.fresh_eq first second (live first firstLive) (live second secondLive)
  · intro first second firstLive secondLive
    exact authority.rotation_eq first second (live first firstLive) (live second secondLive)
  · intro session lookup source rotates
    obtain ⟨seen, younger, under⟩ :=
      authority.rotation_lt session (live session lookup) source rotates
    exact ⟨seen, younger, authority.below_marked found moves marked session source under⟩
  · intro key older lookup creating
    obtain ⟨different, earlier⟩ := saves key older lookup
    obtain ⟨fresh, taken, unmarked⟩ := authority.creating key older earlier creating
    have apart : older.source.family ≠ save.source.family := by
      intro together
      refine different (authority.creating_unique key index older save earlier found creating
        (authority.origin_of_unmarked found ?_) together)
      exact (persistedId_congr together.symm).trans unmarked
    exact ⟨fresh, (marked.creationClaimed _).trans taken,
      (marked.persistedId_of_ne apart).trans unmarked⟩
  · intro first second left right leftFound rightFound
    exact authority.creating_unique first second left right (saves first left leftFound).2
      (saves second right rightFound).2
  · intro key older origin lookup saved
    obtain ⟨related, seen, under⟩ :=
      authority.origin_le key older origin (saves key older lookup).2 saved
    exact ⟨related, seen, authority.below_marked found moves marked older.source origin under⟩

end Marking

end Authority

end Saysion
