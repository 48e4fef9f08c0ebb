/-
This file is the library of descents: what a log of births says about which
records come from which first one, over any type of identities.

A record is born on its own, or by rotation from an older one. `Descends` reads
the log and nothing else. `Chronicle` ties it to the lineages of a registry, so
that two live records of one descent are the same record. `Accounts` ties both
to a set of records, and has one rule for each thing that may happen to it: it
shrinks, a record is created, or one takes the place of another.
-/

import Saysion.Registry

namespace Saysion

/-- How a record came to be. -/
inductive Birth (Id : Type*)
  | created (id : Id)
  | rotated (source target : Id)
  deriving DecidableEq

/-- The id that is born. -/
def Birth.target {Id : Type*} : Birth Id → Id
  | created id => id
  | rotated _ target => target

/-- A record descends from a first insertion through the rotations of a log. -/
inductive Descends {Id : Type*} (log : List (Birth Id)) (first : Id) : Id → Prop
  | created : .created first ∈ log → Descends log first first
  | rotated {source target : Id} : Descends log first source → .rotated source target ∈ log →
      Descends log first target

theorem Descends.mono {Id : Type*} {log longer : List (Birth Id)} {first x : Id}
    (descends : Descends log first x) (subset : log ⊆ longer) : Descends longer first x := by
  induction descends with
  | created entry => exact .created (subset entry)
  | rotated _ entry inductionHypothesis => exact .rotated inductionHypothesis (subset entry)

/-- A log tells the lineages of a registry. -/
structure Chronicle {Id : Type*} (registry : Registry Id) (log : List (Birth Id)) : Prop where
  created : ∀ id, .created id ∈ log → id ∈ registry.born ∧ registry.root id = id
  rotated : ∀ source target, .rotated source target ∈ log →
    source ∈ registry.born ∧ target ∈ registry.born ∧ registry.root target = registry.root source

namespace Chronicle

variable {Id : Type*} {registry : Registry Id} {log : List (Birth Id)} {first x y : Id}

theorem empty : Chronicle (Registry.empty : Registry Id) [] where
  created _ wrong := by cases wrong
  rotated _ _ wrong := by cases wrong

/-- What descends from a first insertion is in its lineage. -/
theorem root_eq (chronicle : Chronicle registry log) (descends : Descends log first x) :
    registry.root x = first := by
  induction descends with
  | created entry => exact (chronicle.created first entry).2
  | rotated _ entry inductionHypothesis =>
    exact (chronicle.rotated _ _ entry).2.2.trans inductionHypothesis

/-- At most one record of a descent is live. -/
theorem eq_of_descends (chronicle : Chronicle registry log) (left : Descends log first x)
    (right : Descends log first y) (leftLive : x ∈ registry.live) (rightLive : y ∈ registry.live) :
    x = y :=
  registry.eq_of_root_eq leftLive rightLive
    ((chronicle.root_eq left).trans (chronicle.root_eq right).symm)

/-- A later stage of the registry tells the same lineages of what was born before. -/
theorem advance {later : Registry Id} (chronicle : Chronicle registry log)
    (advances : registry.Advances later) : Chronicle later log where
  created id entry := by
    obtain ⟨born, root⟩ := chronicle.created id entry
    exact ⟨advances.born born, (advances.root id born).trans root⟩
  rotated source target entry := by
    obtain ⟨source_born, target_born, root⟩ := chronicle.rotated source target entry
    refine ⟨advances.born source_born, advances.born target_born, ?_⟩
    rw [advances.root target target_born, advances.root source source_born, root]

theorem cons_created (chronicle : Chronicle registry log) (born : x ∈ registry.born)
    (root : registry.root x = x) : Chronicle registry (.created x :: log) where
  created id entry := by
    rcases List.mem_cons.mp entry with same | earlier
    · cases same
      exact ⟨born, root⟩
    · exact chronicle.created id earlier
  rotated source target entry := by
    rcases List.mem_cons.mp entry with wrong | earlier
    · cases wrong
    · exact chronicle.rotated source target earlier

theorem cons_rotated (chronicle : Chronicle registry log) (source_born : x ∈ registry.born)
    (born : y ∈ registry.born) (root : registry.root y = registry.root x) :
    Chronicle registry (.rotated x y :: log) where
  created id entry := by
    rcases List.mem_cons.mp entry with wrong | earlier
    · cases wrong
    · exact chronicle.created id earlier
  rotated source target entry := by
    rcases List.mem_cons.mp entry with same | earlier
    · cases same
      exact ⟨source_born, born, root⟩
    · exact chronicle.rotated source target earlier

end Chronicle

/-- A registry accounts for some records and the log of all births: the records are its live
identities, and whatever was born descends from a first insertion. -/
structure Accounts {Id : Type*} (registry : Registry Id) (records born : Set Id)
    (log : List (Birth Id)) : Prop where
  live : registry.live = records
  births : registry.born = born
  chronicle : Chronicle registry log
  logged : ∀ x ∈ born, ∃ first, Descends log first x

namespace Accounts

variable {Id : Type*} {registry : Registry Id} {records born : Set Id} {log : List (Birth Id)}
  {first x y : Id}

theorem empty : Accounts (Registry.empty : Registry Id) ∅ ∅ [] where
  live := rfl
  births := rfl
  chronicle := .empty
  logged _ wrong := wrong.elim

/-- At most one record of a descent is there. -/
theorem eq_of_descends (accounts : Accounts registry records born log)
    (left : Descends log first x) (right : Descends log first y) (leftThere : x ∈ records)
    (rightThere : y ∈ records) : x = y :=
  accounts.chronicle.eq_of_descends left right (accounts.live ▸ leftThere)
    (accounts.live ▸ rightThere)

theorem shrink (accounts : Accounts registry records born log) {fewer : Set Id}
    (subset : fewer ⊆ records) :
    ∃ later, registry.Advances later ∧ Accounts later fewer born log := by
  have advances := registry.advances_retire fewerᶜ
  refine ⟨_, advances, ?_, accounts.births, accounts.chronicle.advance advances, accounts.logged⟩
  show registry.live \ fewerᶜ = fewer
  rw [accounts.live, Set.sdiff_compl, Set.inter_eq_right.mpr subset]

variable [DecidableEq Id]

/-- A first insertion. -/
theorem create (accounts : Accounts registry records born log) (unborn : x ∉ born) :
    ∃ later, registry.Advances later ∧
      Accounts later (insert x records) (insert x born) (.created x :: log) := by
  have unborn : x ∉ registry.born := accounts.births ▸ unborn
  have vacant := registry.vacant_self unborn
  have advances := registry.advances_enroll x x unborn (Or.inl rfl) vacant
  refine ⟨_, advances, congrArg (insert x) accounts.live, congrArg (insert x) accounts.births,
    (accounts.chronicle.advance advances).cons_created (Set.mem_insert x _) ?_, ?_⟩
  · show Function.update registry.root x x x = x
    rw [Function.update_self]
  rintro y (rfl | member)
  · exact ⟨y, .created List.mem_cons_self⟩
  · obtain ⟨first, descends⟩ := accounts.logged y member
    exact ⟨first, descends.mono (List.subset_cons_self _ _)⟩

/-- A record takes the place of another. -/
theorem rotate (accounts : Accounts registry records born log) (there : x ∈ records)
    (unborn : y ∉ born) : ∃ later, registry.Advances later ∧
      Accounts later (insert y (records \ {x})) (insert y born) (.rotated x y :: log) := by
  have unborn : y ∉ registry.born := accounts.births ▸ unborn
  have alive : x ∈ registry.live := accounts.live ▸ there
  have known := registry.root_born x (registry.live_born alive)
  have vacant := registry.vacant_retire alive
  have older : x ≠ y := ne_of_mem_of_not_mem (registry.live_born alive) unborn
  have advances := (registry.advances_retire {x}).trans
    ((registry.retire {x}).advances_enroll y (registry.root x) unborn (Or.inr known) vacant)
  refine ⟨_, advances, ?_, congrArg (insert y) accounts.births,
    (accounts.chronicle.advance advances).cons_rotated
      (Set.mem_insert_of_mem y (registry.live_born alive)) (Set.mem_insert y _) ?_, ?_⟩
  · show insert y (registry.live \ {x}) = insert y (records \ {x})
    rw [accounts.live]
  · show Function.update registry.root y (registry.root x) y =
      Function.update registry.root y (registry.root x) x
    rw [Function.update_self, Function.update_of_ne older]
  · rintro z (rfl | member)
    · obtain ⟨first, descends⟩ := accounts.logged x (accounts.births ▸ registry.live_born alive)
      exact ⟨first, (descends.mono (List.subset_cons_self _ _)).rotated List.mem_cons_self⟩
    · obtain ⟨first, descends⟩ := accounts.logged z member
      exact ⟨first, descends.mono (List.subset_cons_self _ _)⟩

end Accounts

end Saysion
