/-
This file is about an expiry that is given as a time to live. `expire_in` adds a
standard duration to the clock, `expires_in` takes the clock from the expiry and
converts what is left back, and `is_expired` compares the two; they have to
agree at every boundary.

The addition of the time library panics where its result is beyond the dates it
supports, and a standard duration reaches far beyond them. Which dates these are
depends on the build, so they are a parameter. A panic is `none` here.
-/

import Saysion.BackendExpiry

namespace Saysion

/-! ### Durations -/

/-- A standard duration: whole seconds, and nanoseconds of one more. -/
structure StdDuration where
  seconds : UInt64
  subsecond : Fin 1000000000
  deriving DecidableEq

namespace StdDuration

def nanos (duration : StdDuration) : Nat := duration.seconds.toNat * 1000000000 + duration.subsecond

/-- `Duration::MAX` -/
def max : StdDuration := ⟨18446744073709551615, 999999999⟩

/-- The conversion of a signed duration fails for a negative one, and where the seconds do not
fit. -/
def tryFrom (duration : Int) : Option StdDuration :=
  if 0 ≤ duration ∧ duration / 1000000000 < 2 ^ 64 then
    some ⟨UInt64.ofNat (duration / 1000000000).toNat, Fin.ofNat 1000000000 duration.toNat⟩
  else none

/-- A conversion that goes through is exact. -/
theorem nanos_tryFrom {duration : Int} (positive : 0 ≤ duration)
    (fits : duration / 1000000000 < 2 ^ 64) :
    ∃ converted, tryFrom duration = some converted ∧ (converted.nanos : Int) = duration := by
  refine ⟨_, if_pos ⟨positive, fits⟩, ?_⟩
  unfold nanos
  rw [UInt64.toNat_ofNat']
  show ((((duration / 1000000000).toNat % 2 ^ 64 * 1000000000 +
    duration.toNat % 1000000000 : Nat)) : Int) = duration
  omega

end StdDuration

/-! ### Dates -/

/-- The dates of a build of the time library, from the first instant to the last one in UTC. They are
no further apart than its signed duration reaches, so that a subtraction does not overflow. -/
structure Calendar where
  first : DateTime
  last : DateTime
  span : last - first < 2 ^ 63 * DateTime.nanosPerSecond

namespace Calendar

/-- The years from -9999 to 9999. -/
def standard : Calendar where
  first := -377705116800 * DateTime.nanosPerSecond
  last := 253402300800 * DateTime.nanosPerSecond - 1
  span := by decide

/-- The years from -999999 to 999999, with `large-dates`. -/
def large : Calendar where
  first := -31619087596800 * DateTime.nanosPerSecond
  last := 31494784780800 * DateTime.nanosPerSecond - 1
  span := by decide

def Supports (calendar : Calendar) (instant : DateTime) : Prop :=
  calendar.first ≤ instant ∧ instant ≤ calendar.last

instance (calendar : Calendar) (instant : DateTime) : Decidable (calendar.Supports instant) :=
  inferInstanceAs (Decidable (_ ∧ _))

/-- `+` with a standard duration -/
def addStd (calendar : Calendar) (instant : DateTime) (duration : StdDuration) : Option DateTime :=
  let sum : DateTime := instant + (duration.nanos : Int)
  if calendar.Supports sum then some sum else none

/-- What is between two instants fits a standard duration. -/
theorem seconds_between {calendar : Calendar} {start stop : DateTime}
    (starts : calendar.Supports start) (stops : calendar.Supports stop) :
    (stop - start) / 1000000000 < 2 ^ 64 := by
  have widest : stop - start ≤ calendar.last - calendar.first :=
    Int.sub_le_sub stops.2 starts.1
  have short := widest.trans_lt calendar.span
  exact Int.ediv_lt_of_lt_mul (by decide) (short.trans (by decide))

end Calendar

/-! ### The three functions -/

namespace Session

/-- `expire_in` at a reading of the clock. -/
def expireIn (calendar : Calendar) (session : Session) (ttl : StdDuration) (now : DateTime) :
    Option Session :=
  (calendar.addStd now ttl).map session.setExpiry

/-- `expires_in` at a reading of the clock. -/
def expiresIn (session : Session) (now : DateTime) : Option StdDuration :=
  session.expiry.bind fun expiry =>
    let duration : Int := expiry - now
    if duration < 0 then none else StdDuration.tryFrom duration

variable {calendar : Calendar} {session after : Session} {ttl left : StdDuration}
  {now later expiry : DateTime}

theorem expiry_setExpiry (session : Session) (expiry : DateTime) :
    (session.setExpiry expiry).expiry = some expiry := by
  unfold setExpiry
  split
  · rename_i same
    exact same
  · rfl

/-- When `expire_in` does not panic, the expiry is the sum. -/
theorem expireIn_eq_some : session.expireIn calendar ttl now = some after ↔
    calendar.Supports (now + (ttl.nanos : Int)) ∧
      session.setExpiry (now + (ttl.nanos : Int)) = after := by
  unfold expireIn Calendar.addStd
  dsimp only
  split
  · rename_i fits
    rw [Option.map_some, Option.some.injEq]
    exact (and_iff_right fits).symm
  · rename_i beyond
    exact iff_of_false (fun wrong => by cases wrong) fun both => beyond both.1

/-- Between supported instants the remaining time is exact, up to the moment of the expiry itself. -/
theorem expiresIn_exact (expires : session.expiry = some expiry) (ends : calendar.Supports expiry)
    (reading : calendar.Supports later) (valid : ¬ expiry < later) :
    ∃ left, session.expiresIn later = some left ∧ (left.nanos : Int) = expiry - later := by
  have positive : 0 ≤ expiry - later := Int.sub_nonneg_of_le (not_lt.mp valid)
  have fits := Calendar.seconds_between reading ends
  obtain ⟨left, converted, exact⟩ := StdDuration.nanos_tryFrom positive fits
  refine ⟨left, ?_, exact⟩
  unfold expiresIn
  rw [expires]
  exact (if_neg (Int.not_lt.mpr positive)).trans converted

/-- After the expiry nothing remains. -/
theorem expiresIn_passed (expires : session.expiry = some expiry) (passed : expiry < later) :
    session.expiresIn later = none := by
  unfold expiresIn
  rw [expires]
  exact if_pos (Int.sub_neg_of_lt passed)

theorem isExpired_eq_false (expires : session.expiry = some expiry) :
    session.isExpired later = false ↔ ¬ expiry < later := by
  unfold isExpired
  rw [expires]
  exact decide_eq_false_iff_not

/-- What a caller of `expire_in` relies on: an expiry is set, at every later reading `expires_in`
tells exactly what is left if `is_expired` is false, and nothing otherwise, and what is left and what
has elapsed add up to the time to live. -/
def Lasts (calendar : Calendar) (session : Session) (ttl : StdDuration) (now : DateTime) : Prop :=
  ∃ after, session.expireIn calendar ttl now = some after ∧ ∃ expiry, after.expiry = some expiry ∧
    ∀ later, calendar.Supports later → now ≤ later →
      ((∃ left, after.expiresIn later = some left ∧ (left.nanos : Int) = expiry - later) ↔
        after.isExpired later = false) ∧
      (after.isExpired later = true → after.expiresIn later = none) ∧
      ∀ left, after.expiresIn later = some left →
        (left.nanos : Int) + (later - now) = ttl.nanos

end Session

/-! ### The result -/

/-- In every build, relative expiries are total and consistent exactly as far as its dates reach. -/
theorem expire_in_is_consistent_iff (calendar : Calendar) (session : Session) (ttl : StdDuration)
    (now : DateTime) :
    session.Lasts calendar ttl now ↔ calendar.Supports (now + (ttl.nanos : Int)) := by
  constructor
  · rintro ⟨after, total, _⟩
    exact (Session.expireIn_eq_some.mp total).1
  · intro ends
    refine ⟨_, Session.expireIn_eq_some.mpr ⟨ends, rfl⟩, _, Session.expiry_setExpiry _ _,
      fun later reading _ => ?_⟩
    have expires := Session.expiry_setExpiry session (now + (ttl.nanos : Int))
    by_cases passed : now + (ttl.nanos : Int) < later
    · have nothing := Session.expiresIn_passed expires passed
      refine ⟨iff_of_false ?_ ?_, fun _ => nothing, fun left some => ?_⟩
      · rintro ⟨left, some, _⟩
        cases nothing.symm.trans some
      · rw [Session.isExpired_eq_false expires]
        exact not_not.mpr passed
      · cases nothing.symm.trans some
    · have valid := (Session.isExpired_eq_false expires).mpr passed
      obtain ⟨left, remaining, exact⟩ := Session.expiresIn_exact expires ends reading passed
      refine ⟨iff_of_true ⟨left, remaining, exact⟩ valid, fun expired => ?_, fun other some => ?_⟩
      · cases valid.symm.trans expired
      · obtain rfl := Option.some.inj (remaining.symm.trans some)
        have sum : ∀ start span reading : Int, start + span - reading + (reading - start) = span := by
          intro start span reading
          omega
        rw [exact]
        exact sum now ttl.nanos later

/-- The longest duration is beyond the dates of either build, here from the epoch on. -/
theorem expire_in_panics_on_max :
    ¬ (Session.new .empty "cookie" "id").1.Lasts .standard StdDuration.max 0 ∧
      ¬ (Session.new .empty "cookie" "id").1.Lasts .large StdDuration.max 0 := by
  constructor
  · rintro ⟨after, total, _⟩
    have panics : (Session.new .empty "cookie" "id").1.expireIn .standard StdDuration.max 0 = none := by
      decide
    cases panics.symm.trans total
  · rintro ⟨after, total, _⟩
    have panics : (Session.new .empty "cookie" "id").1.expireIn .large StdDuration.max 0 = none := by
      decide
    cases panics.symm.trans total

end Saysion
