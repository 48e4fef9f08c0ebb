/-
This file models how the remote stores write an expiry and what their backends
do with it, and proves that none of the three encodings shortens or extends a
session. The SQL stores keep the second an expiry falls in, and let a load
decide within that second; Redis gets the remaining time in milliseconds and
MongoDB the instant in milliseconds, both rounded up.

An instant is a number of nanoseconds. What the code computes in machine
integers is `none` here where it would overflow.
-/

import Saysion.Session

namespace Saysion

/-! ### Instants -/

namespace DateTime

def nanosPerSecond : Int := 1000000000

/-- `unix_timestamp`: the second an instant falls in, also before the epoch. -/
def unixTimestamp (instant : DateTime) : Int := instant / nanosPerSecond

/-- `nanosecond`: the instant within its second. -/
def nanosecond (instant : DateTime) : Nat := (instant % nanosPerSecond).toNat

/-- The instants that an `OffsetDateTime` has in any build: with `large-dates`, which the driver of
MongoDB turns on, the dates of the years from -999999 to 999999, each at an offset of less than 26
hours from UTC. -/
def Supported (instant : DateTime) : Prop :=
  (-31619087596800 - 26 * 3600) * nanosPerSecond ≤ instant ∧
    instant < (31494784780800 + 26 * 3600) * nanosPerSecond

end DateTime

/-- A number that an `i64` holds. -/
def asI64 (value : Int) : Option Int :=
  if -(2 ^ 63) ≤ value ∧ value < 2 ^ 63 then some value else none

/-- `expires_in` at a reading of the clock, in nanoseconds. The conversion to the unsigned duration
fails only for a negative one. -/
def SessionSnapshot.expiresIn (snapshot : SessionSnapshot) (now : DateTime) : Option Nat :=
  snapshot.expiry.bind fun expiry =>
    let duration := expiry - now
    if duration < 0 then none else some duration.toNat

/-- `is_expired` of what a record holds. -/
def SessionSnapshot.isExpired (snapshot : SessionSnapshot) (now : DateTime) : Bool :=
  snapshot.expiry.any (· < now)

/-! ### The SQL stores -/

/-- A row of a remote store: what its expiry column holds and the session behind its JSON text. -/
structure Row where
  deadline : Option Int
  session : SessionSnapshot
  deriving DecidableEq

namespace SqlxStore

/-- `now_unix` at a reading of the clock. -/
def nowUnix (now : DateTime) : Int := DateTime.unixTimestamp now

/-- `expiry_unix` -/
def expiryUnix (snapshot : SessionSnapshot) : Option Int :=
  snapshot.expiry.map DateTime.unixTimestamp

/-- The row that `store_session` writes. -/
def row (snapshot : SessionSnapshot) : Row := ⟨expiryUnix snapshot, snapshot⟩

/-- `expires IS NULL OR expires >= ?` -/
def selects (bound : Int) (row : Row) : Bool := row.deadline.all fun expires => bound ≤ expires

/-- `expires IS NOT NULL AND expires < ?` -/
def cleans (bound : Int) (row : Row) : Bool := row.deadline.any fun expires => expires < bound

/-- `load_session` on the rows of a table, with the readings of the clock for the query and for the
exact comparison. -/
def loadSession (idOf : Cookie → Option Id) (heap : Heap) (rows : Id → Option Row)
    (cookie : Cookie) (queried validated : DateTime) : Except Error (Option (Session × Heap)) :=
  match idOf cookie with
  | none => .error .cookieFormat
  | some id =>
    match (rows id).filter (selects (nowUnix queried)) with
    | none => .ok none
    | some row =>
      let (session, heap) := Session.deserialize heap row.session
      session.validateLoaded idOf heap false cookie validated

end SqlxStore

/-! ### Redis and MongoDB -/

namespace RedisStore

/-- `ttl_millis`: the remaining nanoseconds in milliseconds, rounded up, and never none. -/
def ttlMillis (ttl : Nat) : Except Error Nat :=
  let millis := (ttl + 999999) / 1000000
  if millis < 2 ^ 64 then .ok (max millis 1) else .error .backend

/-- When a key goes that was set with `PX`. -/
def keyDeadline (set : DateTime) (millis : Nat) : DateTime := set + millis * 1000000

end RedisStore

namespace MongoDbStore

/-- `expiry_datetime`: the milliseconds of an instant, rounded up. -/
def expiryDatetime (expiry : DateTime) : Option Int := do
  let seconds ← asI64 (DateTime.unixTimestamp expiry)
  let millis ← asI64 (seconds * 1000)
  asI64 (millis + ((DateTime.nanosecond expiry + 999999) / 1000000 : Nat))

end MongoDbStore

/-! ### Rounding -/

section Rounding

variable {expiry now : Int}

/-- An instant of an earlier second is earlier. -/
theorem lt_of_second_lt (earlier : ¬ now / 1000000000 ≤ expiry / 1000000000) : expiry < now := by
  omega

/-- A span between supported instants, in milliseconds rounded up. -/
theorem millis_of_span (started : -10 ^ 23 ≤ now) (ends : expiry ≤ 10 ^ 23)
    (left : 0 ≤ expiry - now) :
    ((expiry - now).toNat + 999999) / 1000000 < 2 ^ 64 ∧
      expiry ≤ now + (((expiry - now).toNat + 999999) / 1000000 : Nat) * 1000000 := by
  omega

/-- The seconds of an instant and the milliseconds of the rest, rounded up, are the least
milliseconds that are not before the instant. -/
theorem millis_of_instant (other : Int) :
    expiry ≤ other * 1000000 ↔
      expiry / 1000000000 * 1000 + (((expiry % 1000000000).toNat + 999999) / 1000000 : Nat) ≤
        other := by
  omega

/-- No step of the computation overflows. -/
theorem i64_of_instant (low : -10 ^ 23 ≤ expiry) (high : expiry ≤ 10 ^ 23) :
    asI64 (expiry / 1000000000) = some (expiry / 1000000000) ∧
      asI64 (expiry / 1000000000 * 1000) = some (expiry / 1000000000 * 1000) ∧
      asI64 (expiry / 1000000000 * 1000 + (((expiry % 1000000000).toNat + 999999) / 1000000 : Nat)) =
        some (expiry / 1000000000 * 1000 +
          (((expiry % 1000000000).toNat + 999999) / 1000000 : Nat)) :=
  ⟨if_pos (by omega), if_pos (by omega), if_pos (by omega)⟩

end Rounding

theorem DateTime.Supported.bounds {instant : DateTime} (supported : instant.Supported) :
    -10 ^ 23 ≤ instant ∧ instant ≤ 10 ^ 23 := by
  obtain ⟨low, high⟩ := supported
  exact ⟨le_trans (by decide) low, high.le.trans (by decide)⟩

/-! ### The rows of a SQL store -/

namespace SqlxStore

/-- A row that a load does not select has expired. -/
theorem isExpired_of_hidden {snapshot : SessionSnapshot} {now : DateTime}
    (hidden : selects (nowUnix now) (row snapshot) = false) : snapshot.isExpired now = true := by
  unfold selects row expiryUnix at hidden
  unfold SessionSnapshot.isExpired
  cases expiring : snapshot.expiry with
  | none => simp [expiring] at hidden
  | some expiry =>
    rw [expiring] at hidden
    exact decide_eq_true (lt_of_second_lt (of_decide_eq_false hidden))

/-- Cleanup deletes just what a load at the same moment would not select. -/
theorem cleans_eq (bound : Int) (row : Row) : cleans bound row = !selects bound row := by
  unfold cleans selects
  cases row.deadline with
  | none => rfl
  | some expires =>
    simp only [Option.any_some, Option.all_some]
    rw [← decide_not]
    exact decide_eq_decide.mpr Int.not_le.symm

end SqlxStore

/-- What has expired stays expired. -/
theorem SessionSnapshot.isExpired_later {snapshot : SessionSnapshot} {now later : DateTime}
    (expired : snapshot.isExpired now = true) (order : now ≤ later) :
    snapshot.isExpired later = true := by
  unfold isExpired at expired ⊢
  cases expiring : snapshot.expiry with
  | none => simp [expiring] at expired
  | some expiry =>
    simp only [expiring, Option.any_some, decide_eq_true_eq] at expired ⊢
    exact expired.trans_le order

/-- A record that was found under its cookie's id is refused when it has expired. -/
theorem Session.validateLoaded_expired {idOf : Cookie → Option Id} {heap : Heap} {cookie : Cookie}
    {wire : SessionSnapshot} {now : DateTime} (bound : idOf cookie = some wire.id)
    (expired : wire.isExpired now = true) :
    (Session.deserialize heap wire).1.validateLoaded idOf (Session.deserialize heap wire).2 false
      cookie now = .ok none := by
  unfold validateLoaded
  rw [bound]
  exact (if_neg fun different => different rfl).trans (if_pos expired)

/-- Otherwise it is loaded as it was written. -/
theorem Session.validateLoaded_valid {idOf : Cookie → Option Id} {heap : Heap} {cookie : Cookie}
    {wire : SessionSnapshot} {now : DateTime} (bound : idOf cookie = some wire.id)
    (valid : wire.isExpired now = false) :
    ∃ loaded after, (Session.deserialize heap wire).1.validateLoaded idOf
        (Session.deserialize heap wire).2 false cookie now = .ok (some (loaded, after)) ∧
      loaded.wire after = wire := by
  have alive : (Session.deserialize heap wire).1.isDestroyed (Session.deserialize heap wire).2 =
      false := by
    show ((heap.allocFamily {}).families heap.nextFamily).destroy = false
    rw [Heap.allocFamily_self]
  have unexpired : (Session.deserialize heap wire).1.isExpired now = false := valid
  have accepted : (Session.deserialize heap wire).1.validateLoaded idOf
      (Session.deserialize heap wire).2 false cookie now =
        .ok (some ({ (Session.deserialize heap wire).1 with
            cookieValue := none, metadataChanged := false, rotationFrom := none, fresh := false
            family := (Session.deserialize heap wire).2.nextFamily },
          ((Session.deserialize heap wire).1.editData (Session.deserialize heap wire).2
            SessionData.adopt).allocFamily { persistedId := some wire.id })) := by
    unfold validateLoaded
    rw [bound]
    refine (if_neg fun different => different rfl).trans ?_
    rw [unexpired, alive]
    rfl
  refine ⟨_, _, accepted, congrArg (SessionSnapshot.mk wire.id wire.expiry) ?_⟩
  show ((((heap.allocFamily {}).allocCell (.ofValues wire.data)).setCell heap.nextCell
    (SessionData.adopt _)).cells heap.nextCell).values = wire.data
  rw [Heap.setCell_self]
  exact congrArg SessionData.values (Heap.allocCell_self (heap.allocFamily {}) _)

/-- A load of a SQL store answers with the session of its row unless that has expired, whether the
query selects the row or not. -/
theorem SqlxStore.loadSession_row {idOf : Cookie → Option Id} {heap : Heap} {rows : Id → Option Row}
    {cookie : Cookie} {snapshot : SessionSnapshot} {queried validated : DateTime}
    (order : queried ≤ validated) (bound : idOf cookie = some snapshot.id)
    (stored : rows snapshot.id = some (row snapshot)) :
    (snapshot.isExpired validated = true →
      loadSession idOf heap rows cookie queried validated = .ok none) ∧
    (snapshot.isExpired validated = false →
      ∃ loaded after, loadSession idOf heap rows cookie queried validated =
        .ok (some (loaded, after)) ∧ loaded.wire after = snapshot) := by
  unfold loadSession
  rw [bound]
  dsimp only
  rw [stored]
  by_cases selected : selects (nowUnix queried) (row snapshot) = true
  · rw [Option.filter_some, if_pos selected]
    exact ⟨Session.validateLoaded_expired bound, Session.validateLoaded_valid bound⟩
  · have expired := SessionSnapshot.isExpired_later
      (isExpired_of_hidden (Bool.eq_false_iff.mpr selected)) order
    rw [Option.filter_some, if_neg selected]
    refine ⟨fun _ => rfl, fun valid => ?_⟩
    rw [expired] at valid
    cases valid

/-! ### Milliseconds -/

/-- The time that is left is defined until the expiry has passed. -/
theorem SessionSnapshot.expiresIn_valid {snapshot : SessionSnapshot} {now expiry : DateTime}
    (expiring : snapshot.expiry = some expiry) (valid : snapshot.isExpired now = false) :
    snapshot.expiresIn now = some (expiry - now).toNat ∧ 0 ≤ expiry - now := by
  unfold isExpired at valid
  rw [expiring] at valid
  have before : ¬ expiry < now := of_decide_eq_false valid
  have left : 0 ≤ expiry - now := Int.sub_nonneg_of_le (not_lt.mp before)
  refine ⟨?_, left⟩
  unfold expiresIn
  rw [expiring]
  exact if_neg (Int.not_lt.mpr left)

/-- And it is not once it has. -/
theorem SessionSnapshot.expiresIn_expired {snapshot : SessionSnapshot} {now : DateTime}
    (expired : snapshot.isExpired now = true) : snapshot.expiresIn now = none := by
  unfold isExpired at expired
  unfold expiresIn
  cases expiring : snapshot.expiry with
  | none => simp [expiring] at expired
  | some expiry =>
    rw [expiring] at expired
    have passed : expiry < now := of_decide_eq_true expired
    exact if_pos (Int.sub_neg_of_lt passed)

/-- A key goes no earlier when it is set later or for longer. -/
theorem RedisStore.keyDeadline_mono {set later : DateTime} {millis more : Nat} (order : set ≤ later)
    (longer : millis ≤ more) : RedisStore.keyDeadline set millis ≤ RedisStore.keyDeadline later more :=
  add_le_add order (Int.mul_le_mul_of_nonneg_right (Int.ofNat_le.mpr longer) (by decide))

/-- Between supported instants the conversion to milliseconds goes through. -/
theorem RedisStore.ttlMillis_supported {now expiry : DateTime} (started : now.Supported)
    (ends : expiry.Supported) (left : 0 ≤ expiry - now) :
    ∃ millis, RedisStore.ttlMillis (expiry - now).toNat = .ok millis ∧ 1 ≤ millis ∧
      expiry ≤ RedisStore.keyDeadline now millis := by
  obtain ⟨fits, covers⟩ := millis_of_span started.bounds.1 ends.bounds.2 left
  refine ⟨max (((expiry - now).toNat + 999999) / 1000000) 1, if_pos fits, le_max_right _ _, ?_⟩
  exact covers.trans (keyDeadline_mono le_rfl (le_max_left _ _))

/-- No step of the conversion overflows, and the result is the least millisecond that is not before
the expiry. -/
theorem MongoDbStore.expiryDatetime_supported {expiry : DateTime} (supported : expiry.Supported) :
    ∃ millis, MongoDbStore.expiryDatetime expiry = some millis ∧
      ∀ other : Int, expiry ≤ other * 1000000 ↔ millis ≤ other := by
  obtain ⟨low, high⟩ := supported.bounds
  obtain ⟨seconds, product, sum⟩ := i64_of_instant low high
  refine ⟨_, ?_, millis_of_instant⟩
  unfold expiryDatetime DateTime.nanosecond DateTime.unixTimestamp DateTime.nanosPerSecond
  simp only [Option.bind_eq_bind, seconds, Option.bind_some, product]
  exact sum

/-! ### The result -/

/-- The coarse expiries of the backends agree with the exact comparison. What a SQL load does not
select, and what SQL cleanup deletes, has expired, and a load answers exactly by the comparison at
its second reading of the clock. A session that has not expired has a positive number of
milliseconds for Redis, and its key does not go before the expiry whenever the command arrives; the
milliseconds of MongoDB are the least that are not before the expiry. -/
theorem coarse_expiry_is_exact :
    (∀ (snapshot : SessionSnapshot) (now : DateTime),
      (SqlxStore.selects (SqlxStore.nowUnix now) (SqlxStore.row snapshot) = false →
        snapshot.isExpired now = true) ∧
      (SqlxStore.cleans (SqlxStore.nowUnix now) (SqlxStore.row snapshot) = true →
        snapshot.isExpired now = true)) ∧
    (∀ (idOf : Cookie → Option Id) (heap : Heap) (rows : Id → Option Row) (cookie : Cookie)
        (snapshot : SessionSnapshot) (queried validated : DateTime),
      queried ≤ validated → idOf cookie = some snapshot.id →
      rows snapshot.id = some (SqlxStore.row snapshot) →
      ((∃ loaded after, SqlxStore.loadSession idOf heap rows cookie queried validated =
          .ok (some (loaded, after)) ∧ loaded.wire after = snapshot) ↔
        snapshot.isExpired validated = false)) ∧
    (∀ (snapshot : SessionSnapshot) (now executed expiry : DateTime),
      snapshot.expiry = some expiry → expiry.Supported → now.Supported → now ≤ executed →
      snapshot.isExpired now = false →
      ∃ ttl millis, snapshot.expiresIn now = some ttl ∧ RedisStore.ttlMillis ttl = .ok millis ∧
        1 ≤ millis ∧ expiry ≤ RedisStore.keyDeadline executed millis) ∧
    ∀ expiry : DateTime, expiry.Supported →
      ∃ millis, MongoDbStore.expiryDatetime expiry = some millis ∧
        ∀ other : Int, expiry ≤ other * 1000000 ↔ millis ≤ other := by
  refine ⟨fun snapshot now => ⟨SqlxStore.isExpired_of_hidden, fun cleaned => ?_⟩, ?_, ?_,
    fun expiry => MongoDbStore.expiryDatetime_supported⟩
  · rw [SqlxStore.cleans_eq] at cleaned
    exact SqlxStore.isExpired_of_hidden (by simpa using cleaned)
  · intro idOf heap rows cookie snapshot queried validated order bound stored
    obtain ⟨refused, loaded⟩ := @SqlxStore.loadSession_row idOf heap rows cookie snapshot queried
      validated order bound stored
    refine ⟨?_, loaded⟩
    rintro ⟨session, after, answered, _⟩
    by_contra expired
    rw [refused (Bool.not_eq_false _ ▸ expired)] at answered
    cases answered
  · intro snapshot now executed expiry expiring ends started order valid
    obtain ⟨defined, left⟩ := SessionSnapshot.expiresIn_valid expiring valid
    obtain ⟨millis, converted, positive, deadline⟩ :=
      RedisStore.ttlMillis_supported started ends left
    exact ⟨_, millis, defined, converted, positive,
      deadline.trans (RedisStore.keyDeadline_mono order le_rfl)⟩

/-- A session that expires in the last nanosecond before the epoch. -/
theorem coarse_expiry_is_exact_before_epoch :
    let snapshot : SessionSnapshot := ⟨"A", some (-1), ∅⟩
    SqlxStore.selects (SqlxStore.nowUnix 0) (SqlxStore.row snapshot) = false ∧
      snapshot.isExpired 0 = true ∧
      (∃ loaded after, SqlxStore.loadSession some .empty
          (fun _ => some (SqlxStore.row snapshot)) "A" (-2) (-1) = .ok (some (loaded, after)) ∧
        loaded.wire after = snapshot) ∧
      (∃ ttl millis, snapshot.expiresIn (-1) = some ttl ∧ RedisStore.ttlMillis ttl = .ok millis ∧
        1 ≤ millis ∧ -1 ≤ RedisStore.keyDeadline 7 millis) ∧
      ∃ millis, MongoDbStore.expiryDatetime (-1) = some millis ∧
        ∀ other : Int, -1 ≤ other * 1000000 ↔ millis ≤ other := by
  intro snapshot
  obtain ⟨hidden, loads, redis, mongo⟩ := coarse_expiry_is_exact
  have supported : DateTime.Supported (-1) := by
    unfold DateTime.Supported
    decide
  exact ⟨by decide, (hidden snapshot 0).1 (by decide),
    (loads some .empty (fun _ => some (SqlxStore.row snapshot)) "A" snapshot (-2) (-1) (by decide)
      rfl rfl).mpr (by decide),
    redis snapshot (-1) 7 (-1) rfl supported supported (by decide) (by decide), mongo (-1) supported⟩

end Saysion
