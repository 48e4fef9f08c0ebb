/-
This file is the library of identity registries: what a set of records keyed by
identities that are never used twice means, over any type of identities.

A registry knows which identities are live, which were ever born, and the first
member of the lineage each identity belongs to. Its fields carry the three facts
every user of a session store relies on: only born identities are live, lineages
are closed, and no lineage has two live members. `Advances` is the order of
later stages of one registry; along it a dead identity stays dead.
-/

import Mathlib.Data.Set.Function
import Mathlib.Logic.Function.Basic

namespace Saysion

/-- Identities with a life of their own: born once, live for a while, and each the member of
a lineage of which at most one member is live. -/
structure Registry (Id : Type*) where
  live : Set Id
  born : Set Id
  root : Id → Id
  live_born : live ⊆ born
  root_born : ∀ x ∈ born, root x ∈ born
  root_injOn : Set.InjOn root live

namespace Registry

variable {Id : Type*}

/-- The registry before any identity was born. -/
def empty : Registry Id where
  live := ∅
  born := ∅
  root := id
  live_born := subset_rfl
  root_born _ member := member.elim
  root_injOn := Set.injOn_empty _

/-- One registry is a later stage of another: nothing is unborn again, lineages are kept, and
what is live later and was born earlier was live earlier. -/
structure Advances (earlier later : Registry Id) : Prop where
  born : earlier.born ⊆ later.born
  root : ∀ x ∈ earlier.born, later.root x = earlier.root x
  live : ∀ x ∈ earlier.born, x ∈ later.live → x ∈ earlier.live

theorem Advances.refl (registry : Registry Id) : Advances registry registry :=
  ⟨subset_rfl, fun _ _ => rfl, fun _ _ member => member⟩

theorem Advances.trans {first second third : Registry Id} (earlier : Advances first second)
    (later : Advances second third) : Advances first third where
  born := earlier.born.trans later.born
  root x member := by rw [later.root x (earlier.born member), earlier.root x member]
  live x member alive := earlier.live x member (later.live x (earlier.born member) alive)

/-- A dead identity never lives again. -/
theorem Advances.stays_dead {earlier later : Registry Id} (advances : Advances earlier later)
    {x : Id} (wasBorn : x ∈ earlier.born) (dead : x ∉ earlier.live) : x ∉ later.live :=
  fun alive => dead (advances.live x wasBorn alive)

/-- Two live members of one lineage are the same identity. -/
theorem eq_of_root_eq (registry : Registry Id) {x y : Id} (left : x ∈ registry.live)
    (right : y ∈ registry.live) (same : registry.root x = registry.root y) : x = y :=
  registry.root_injOn left right same

/-! ### The two operations -/

/-- End the life of some identities. -/
def retire (registry : Registry Id) (gone : Set Id) : Registry Id where
  live := registry.live \ gone
  born := registry.born
  root := registry.root
  live_born _ member := registry.live_born member.1
  root_born := registry.root_born
  root_injOn := registry.root_injOn.mono Set.sdiff_subset

theorem advances_retire (registry : Registry Id) (gone : Set Id) :
    Advances registry (registry.retire gone) :=
  ⟨subset_rfl, fun _ _ => rfl, fun _ _ member => member.1⟩

/-- The first member of a lineage may be enrolled whenever it is unborn. -/
theorem vacant_self (registry : Registry Id) {x : Id} (unborn : x ∉ registry.born) :
    ∀ y ∈ registry.live, registry.root y ≠ x :=
  fun y member => ne_of_mem_of_not_mem (registry.root_born y (registry.live_born member)) unborn

/-- Once an identity is retired its lineage is vacant: its successor may be enrolled. -/
theorem vacant_retire (registry : Registry Id) {x : Id} (alive : x ∈ registry.live) :
    ∀ y ∈ (registry.retire {x}).live, (registry.retire {x}).root y ≠ registry.root x :=
  fun _ member same => member.2 (registry.root_injOn member.1 alive same)

variable [DecidableEq Id]

/-- Give birth to an identity in a lineage that has no live member: its own lineage when it
is the first, otherwise that of an older identity. -/
def enroll (registry : Registry Id) (x first : Id) (unborn : x ∉ registry.born)
    (known : first = x ∨ first ∈ registry.born)
    (vacant : ∀ y ∈ registry.live, registry.root y ≠ first) : Registry Id where
  live := insert x registry.live
  born := insert x registry.born
  root := Function.update registry.root x first
  live_born := Set.insert_subset_insert registry.live_born
  root_born := by
    rintro y (rfl | member)
    · rw [Function.update_self]
      exact known.imp id id
    · rw [Function.update_of_ne (ne_of_mem_of_not_mem member unborn)]
      exact Or.inr (registry.root_born y member)
  root_injOn := by
    have older : ∀ y ∈ registry.live, Function.update registry.root x first y = registry.root y :=
      fun y member => Function.update_of_ne
        (ne_of_mem_of_not_mem (registry.live_born member) unborn) _ _
    rintro y (rfl | left) z (rfl | right) same
    · rfl
    · rw [Function.update_self, older z right] at same
      exact absurd same.symm (vacant z right)
    · rw [Function.update_self, older y left] at same
      exact absurd same (vacant y left)
    · rw [older y left, older z right] at same
      exact registry.root_injOn left right same

theorem advances_enroll (registry : Registry Id) (x first : Id) (unborn : x ∉ registry.born)
    (known : first = x ∨ first ∈ registry.born)
    (vacant : ∀ y ∈ registry.live, registry.root y ≠ first) :
    Advances registry (registry.enroll x first unborn known vacant) where
  born := Set.subset_insert _ _
  root y member := Function.update_of_ne (ne_of_mem_of_not_mem member unborn) _ _
  live y member alive := by
    rcases alive with rfl | alive
    · exact absurd member unborn
    · exact alive

end Registry

end Saysion
