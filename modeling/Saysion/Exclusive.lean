/-
This file is the library of locks with owners, over any type of locks and any
type of holders. A system that hands out guards keeps two things: which locks
are taken, and who holds which. `Exclusive` says that they agree: what is held
is taken, and by one holder only. The three lemmas are what acquiring,
releasing and everything else does to it.
-/

import Mathlib.Order.Basic

namespace Saysion

variable {Key Holder : Type} {taken taken' : Key → Prop} {holds holds' : Key → Holder → Prop}
  {key : Key} {holder : Holder}

/-- Every held lock is taken, and has one holder. -/
structure Exclusive (taken : Key → Prop) (holds : Key → Holder → Prop) : Prop where
  taken_of_holds : ∀ key holder, holds key holder → taken key
  unique : ∀ key first second, holds key first → holds key second → first = second

namespace Exclusive

/-- A free lock has no holder. -/
theorem free (exclusive : Exclusive taken holds) (free : ¬ taken key) (holder : Holder) :
    ¬ holds key holder :=
  fun held => free (exclusive.taken_of_holds key holder held)

/-- Nothing new is held, and what is held stays taken. -/
theorem weaken (exclusive : Exclusive taken holds)
    (fewer : ∀ key holder, holds' key holder → holds key holder)
    (stays : ∀ key holder, holds' key holder → taken key → taken' key) :
    Exclusive taken' holds' where
  taken_of_holds key holder held :=
    stays key holder held (exclusive.taken_of_holds key holder (fewer key holder held))
  unique key first second left right :=
    exclusive.unique key first second (fewer key first left) (fewer key second right)

/-- A free lock is acquired by one new holder. -/
theorem acquire (exclusive : Exclusive taken holds) (free : ¬ taken key) (now : taken' key)
    (others : ∀ other, other ≠ key → taken other → taken' other)
    (more : ∀ other new, holds' other new → holds other new ∨ other = key ∧ new = holder) :
    Exclusive taken' holds' where
  taken_of_holds other new held := by
    rcases more other new held with earlier | ⟨rfl, _⟩
    · refine others other (fun same => ?_) (exclusive.taken_of_holds other new earlier)
      exact exclusive.free free new (same ▸ earlier)
    · exact now
  unique other first second left right := by
    rcases more other first left with earlierLeft | ⟨sameLeft, first_eq⟩ <;>
      rcases more other second right with earlierRight | ⟨sameRight, second_eq⟩
    · exact exclusive.unique other first second earlierLeft earlierRight
    · exact absurd (sameRight ▸ earlierLeft) (exclusive.free free first)
    · exact absurd (sameLeft ▸ earlierRight) (exclusive.free free second)
    · rw [first_eq, second_eq]

/-- The holder of a lock releases it. -/
theorem release (exclusive : Exclusive taken holds) (held : holds key holder)
    (others : ∀ other, other ≠ key → taken other → taken' other)
    (fewer : ∀ other old, holds' other old → holds other old) (gone : ¬ holds' key holder) :
    Exclusive taken' holds' where
  taken_of_holds other old still := by
    refine others other (fun same => ?_) (exclusive.taken_of_holds other old (fewer other old still))
    subst same
    exact gone (exclusive.unique other old holder (fewer other old still) held ▸ still)
  unique other first second left right :=
    exclusive.unique other first second (fewer other first left) (fewer other second right)

end Exclusive

end Saysion
