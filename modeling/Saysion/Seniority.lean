/-
This file is the library that orders the entries of a growing list by their
first appearance. Histories in the development only ever grow at their end, so
the rank of an entry never changes once it is in the list, and a new entry
ranks after every older one.
-/

import Mathlib.Data.List.Basic

namespace Saysion

variable {α : Type*} [DecidableEq α] {history later : List α} {x y : α}

/-- The place of the first appearance of an entry. -/
def rank (history : List α) (x : α) : Nat := history.idxOf x

/-- Enter a value at the end of a history, unless it is there already. -/
def enter (history : List α) (x : α) : List α :=
  if x ∈ history then history else history ++ [x]

theorem mem_enter : y ∈ enter history x ↔ y ∈ history ∨ y = x := by
  unfold enter
  split
  · constructor
    · exact Or.inl
    · rintro (member | rfl) <;> assumption
  · simp

theorem prefix_enter (history : List α) (x : α) : history <+: enter history x := by
  unfold enter
  split
  · exact List.prefix_rfl
  · exact List.prefix_append _ _

theorem enter_of_notMem (absent : x ∉ history) : enter history x = history ++ [x] := by
  rw [enter, if_neg absent]

/-- Growing the history keeps the rank of what is in it. -/
theorem rank_eq_of_grown (grows : history <+: later) (member : x ∈ history) :
    rank later x = rank history x := by
  obtain ⟨rest, rfl⟩ := grows
  exact List.idxOf_append_of_mem member

theorem rank_lt_length (member : x ∈ history) : rank history x < history.length :=
  List.idxOf_lt_length_iff.mpr member

/-- A new entry ranks after every entry that was there before. -/
theorem rank_lt_of_new (member : x ∈ history) (absent : y ∉ history) :
    rank (history ++ [y]) x < rank (history ++ [y]) y := by
  have before : rank (history ++ [y]) x = rank history x :=
    rank_eq_of_grown (List.prefix_append _ _) member
  have after : rank (history ++ [y]) y = history.length := by
    simp [rank, List.idxOf_append_of_notMem absent]
  rw [before, after]
  exact rank_lt_length member

end Saysion
