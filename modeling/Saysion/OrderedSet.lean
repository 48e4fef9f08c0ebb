/-
This file is the library of ordered sets: finite sets that are iterated in the
order of their elements, over any linear order. A set is the list of its
elements, and carries the proof that the list is strictly increasing, so no
element is ever there twice.
-/

import Mathlib.Data.List.Sort

namespace Saysion

/-- A finite set, listed in order. -/
structure OrderedSet (α : Type*) [LinearOrder α] where
  elements : List α
  sorted : elements.Pairwise (· < ·)

namespace OrderedSet

variable {α : Type*} [LinearOrder α]

def empty : OrderedSet α := ⟨[], List.Pairwise.nil⟩

theorem sorted_orderedInsert {elements : List α} (sorted : elements.Pairwise (· < ·)) {x : α}
    (absent : x ∉ elements) : (elements.orderedInsert (· ≤ ·) x).Pairwise (· < ·) := by
  have ordered : (elements.orderedInsert (· ≤ ·) x).Pairwise (· ≤ ·) :=
    (sorted.imp le_of_lt).orderedInsert x elements
  have distinct : (elements.orderedInsert (· ≤ ·) x).Nodup :=
    (List.perm_orderedInsert _ x elements).nodup_iff.mpr
      (List.nodup_cons.mpr ⟨absent, sorted.imp ne_of_lt⟩)
  exact (ordered.and distinct).imp fun both => lt_of_le_of_ne both.1 both.2

/-- Add an element, unless it is there already. -/
def insert (set : OrderedSet α) (x : α) : OrderedSet α :=
  if absent : x ∉ set.elements then
    ⟨set.elements.orderedInsert (· ≤ ·) x, sorted_orderedInsert set.sorted absent⟩
  else set

/-- Remove an element, if it is there. -/
def erase (set : OrderedSet α) (x : α) : OrderedSet α :=
  ⟨set.elements.erase x, set.sorted.sublist List.erase_sublist⟩

theorem mem_insert {set : OrderedSet α} {x y : α} :
    y ∈ (set.insert x).elements ↔ y = x ∨ y ∈ set.elements := by
  unfold insert
  split
  · exact List.mem_orderedInsert (· ≤ ·)
  · rename_i there
    constructor
    · exact Or.inr
    · rintro (rfl | member)
      · exact not_not.mp there
      · exact member

theorem mem_erase {set : OrderedSet α} {x y : α} :
    y ∈ (set.erase x).elements ↔ y ≠ x ∧ y ∈ set.elements :=
  List.Nodup.mem_erase_iff (set.sorted.imp ne_of_lt)

/-- The elements of a lower set come first. -/
theorem takeWhile_eq_filter (set : OrderedSet α) (p : α → Bool)
    (lower : ∀ x y, x < y → p y = true → p x = true) :
    set.elements.takeWhile p = set.elements.filter p := by
  obtain ⟨elements, sorted⟩ := set
  show elements.takeWhile p = elements.filter p
  induction elements with
  | nil => rfl
  | cons x rest inductionHypothesis =>
    obtain ⟨first, sorted⟩ := List.pairwise_cons.mp sorted
    by_cases holds : p x = true
    · rw [List.takeWhile_cons_of_pos holds, List.filter_cons_of_pos holds, inductionHypothesis sorted]
    · rw [List.takeWhile_cons_of_neg holds, List.filter_cons_of_neg holds]
      refine (List.filter_eq_nil_iff.mpr fun y member => ?_).symm
      exact fun later => holds (lower x y (first y member) later)

end OrderedSet

end Saysion
