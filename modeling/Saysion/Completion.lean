/-
This file is the library of completion. Some actions of a machine begin work, and
others carry on the work that is there. When every action of the second kind
lowers a rank, and one of them can be taken as long as there is work left, then
whatever was begun is finished, in whatever order it is carried on: no run of
such actions goes on for ever, and one that stops has nothing left to do.
-/

import Mathlib.Algebra.BigOperators.Group.Finset.Basic
import Mathlib.Algebra.Order.BigOperators.Group.Finset
import Mathlib.Order.WellFounded
import Saysion.Machine

namespace Saysion

namespace Machine

variable {State Action Reply Rank : Type} {machine : Machine State Action Reply}
  {own : Action → Prop} {invariant done : State → Prop} {state next : State}
  {trace : List (Action × Reply)}

/-- No action that carries work on can be taken. -/
def Stuck (machine : Machine State Action Reply) (own : Action → Prop) (state : State) : Prop :=
  ∀ action, own action → machine.step state action = none

/-- Every action of a trace carries work on. -/
def Owned (own : Action → Prop) (trace : List (Action × Reply)) : Prop := ∀ entry ∈ trace, own entry.1

/-- What completion needs: an invariant, a rank that every own action lowers, and an own action
that can be taken as long as not everything is done. -/
structure Completes [Preorder Rank] (machine : Machine State Action Reply) (own : Action → Prop)
    (invariant done : State → Prop) (rank : State → Rank) : Prop where
  preserved : ∀ {state action reply next}, invariant state →
    machine.step state action = some (reply, next) → invariant next
  descends : ∀ {state action reply next}, invariant state → own action →
    machine.step state action = some (reply, next) → rank next < rank state
  progress : ∀ {state}, invariant state → ¬ done state → ∃ action reply next, own action ∧
    machine.step state action = some (reply, next)

namespace Completes

section Stopping

variable [Preorder Rank] {rank : State → Rank}

/-- What cannot be carried on is done. -/
theorem done_of_stuck (completes : machine.Completes own invariant done rank)
    (holds : invariant state) (stuck : machine.Stuck own state) : done state := by
  by_contra undone
  obtain ⟨action, reply, next, carries, step⟩ := completes.progress holds undone
  cases (stuck action carries).symm.trans step

theorem invariant_run (completes : machine.Completes own invariant done rank)
    (holds : invariant state) (run : machine.Run state trace next) : invariant next :=
  run.invariant completes.preserved holds

/-- Nothing is carried on for ever. -/
theorem finite [WellFoundedLT Rank] (completes : machine.Completes own invariant done rank)
    (holds : invariant state) : ¬ ∃ states : Nat → State, states 0 = state ∧
      ∀ moment, ∃ action reply, own action ∧
        machine.step (states moment) action = some (reply, states (moment + 1)) := by
  rintro ⟨states, first, carries⟩
  have sound : ∀ moment, invariant (states moment) := by
    intro moment
    induction moment with
    | zero => exact first ▸ holds
    | succ moment inductionHypothesis =>
      obtain ⟨action, reply, _, step⟩ := carries moment
      exact completes.preserved inductionHypothesis step
  have lower : ∀ moment, rank (states (moment + 1)) < rank (states moment) := by
    intro moment
    obtain ⟨action, reply, own, step⟩ := carries moment
    exact completes.descends (sound moment) own step
  exact (wellFounded_iff_isEmpty_descending_chain.mp wellFounded_lt).elim
    ⟨fun moment => rank (states moment), lower⟩

/-- Everything is done after some run that only carries work on. -/
theorem settles [WellFoundedLT Rank] (completes : machine.Completes own invariant done rank)
    (holds : invariant state) :
    ∃ trace next, machine.Run state trace next ∧ Owned own trace ∧ done next := by
  induction lowest : rank state using WellFoundedLT.induction generalizing state with
  | ind _ inductionHypothesis =>
    subst lowest
    by_cases finished : done state
    · exact ⟨[], state, .refl, by simp [Owned], finished⟩
    · obtain ⟨action, reply, middle, carries, step⟩ := completes.progress holds finished
      obtain ⟨trace, next, rest, owned, finished⟩ := inductionHypothesis _
        (completes.descends holds carries step) (completes.preserved holds step) rfl
      refine ⟨trace ++ [(action, reply)], next, (Run.refl.tail step).trans rest, ?_, finished⟩
      intro entry member
      rcases List.mem_append.mp member with later | first
      · exact owned entry later
      · rw [List.mem_singleton.mp first]
        exact carries

end Stopping

/-- A run that only carries work on is no longer than the rank it starts with. -/
theorem length_le {rank : State → Nat} (completes : machine.Completes own invariant done rank)
    (holds : invariant state) (run : machine.Run state trace next) (owned : Owned own trace) :
    trace.length + rank next ≤ rank state := by
  induction run with
  | refl => simp
  | @tail trace middle next action reply earlier step inductionHypothesis =>
    have before := inductionHypothesis fun entry member => owned entry (List.mem_cons_of_mem _ member)
    have lower := completes.descends (completes.invariant_run holds earlier)
      (owned _ List.mem_cons_self) step
    simp only [List.length_cons]
    omega

end Completes

end Machine

/-! ### Ranks of tables -/

/-- The weight of the entries of a table below a bound. -/
def total (weight : Nat → Nat) (bound : Nat) : Nat := ∑ index ∈ Finset.range bound, weight index

/-- Weights that differ at one index have totals that differ by as much. -/
theorem total_add {before after : Nat → Nat} {bound index : Nat} (inside : index < bound)
    (others : ∀ key, key ≠ index → after key = before key) :
    total after bound + before index = total before bound + after index := by
  have member : index ∈ Finset.range bound := Finset.mem_range.mpr inside
  have rest : ∑ key ∈ (Finset.range bound).erase index, after key =
      ∑ key ∈ (Finset.range bound).erase index, before key :=
    Finset.sum_congr rfl fun key inside => others key (Finset.ne_of_mem_erase inside)
  unfold total
  rw [← Finset.add_sum_erase _ after member, ← Finset.add_sum_erase _ before member, rest]
  omega

/-- The weight of the entries that a table holds below a bound. -/
def burden {Entry : Type} (size : Entry → Nat) (table : Nat → Option Entry) (bound : Nat) : Nat :=
  total (fun index => (table index).elim 0 size) bound

variable {Entry : Type} {size : Entry → Nat} {table : Nat → Option Entry} {bound index : Nat}
  {older : Entry} {newer : Option Entry}

/-- An entry is replaced, or leaves the table. -/
theorem burden_update (inside : index < bound) (found : table index = some older) :
    burden size (Function.update table index newer) bound + size older =
      burden size table bound + newer.elim 0 size := by
  have sum := @total_add (fun key => (table key).elim 0 size)
    (fun key => (Function.update table index newer key).elim 0 size) bound index inside
    fun key different => by rw [Function.update_of_ne different]
  rw [found, Function.update_self] at sum
  exact sum

/-- An entry is replaced by a lighter one, or leaves the table. -/
theorem burden_update_lt (inside : index < bound) (found : table index = some older)
    (lower : newer.elim 0 size < size older) :
    burden size (Function.update table index newer) bound < burden size table bound := by
  have sum := @burden_update Entry size table bound index older newer inside found
  omega

/-- An entry is added at the end of a table. -/
theorem burden_push (entry : Entry) :
    burden size (Function.update table bound (some entry)) (bound + 1) =
      burden size table bound + size entry := by
  unfold burden total
  rw [Finset.sum_range_succ, Function.update_self]
  refine congrArg (· + size entry) (Finset.sum_congr rfl fun key inside => ?_)
  rw [Function.update_of_ne (Finset.mem_range.mp inside).ne]

end Saysion
