/-
This file models the wire layout of a session in a cookie. Three pieces of the
source write or read it: the borrowed `WireSession` of `serialize_bounded`, and
the derived `Serialize` and `Deserialize` of `Session`. That they agree on the
order and nesting of the fields is what a round trip needs.

A `HashMap` is iterated in an order of its own, which an encoder cannot choose,
so it is a parameter here. The encoding of an expiry is that of the `time` crate
and a parameter as well: the offset an expiry is kept at shows in its bytes, but
the instant is what comes back.
-/

import Mathlib.Data.Finset.Sort
import Mathlib.Data.String.Basic
import Saysion.Postcard
import Saysion.Session

namespace Saysion

open Postcard

/-- The entries of a map, in some order. -/
structure Listing (values : Values) where
  entries : List (String × String)
  keys : (entries.map Prod.fst).Nodup
  complete : ∀ key value, (key, value) ∈ entries ↔ values.lookup key = some value

/-- The entries in the order of their keys. -/
def Listing.sorted (values : Values) : Listing values where
  entries := (values.keys.sort (· ≤ ·)).filterMap fun key => (values.lookup key).map (key, ·)
  keys := by
    have found : ∀ key ∈ values.keys.sort (· ≤ ·),
        ((values.lookup key).map (key, ·)).map Prod.fst = some key := by
      intro key member
      obtain ⟨value, lookup⟩ := Option.isSome_iff_exists.mp
        (Finmap.lookup_isSome.mpr (Finmap.mem_keys.mp ((Finset.mem_sort _).mp member)))
      rw [lookup]
      rfl
    rw [List.map_filterMap, List.filterMap_congr found, List.filterMap_some]
    exact Finset.sort_nodup _ _
  complete key value := by
    simp only [List.mem_filterMap, Finset.mem_sort, Finmap.mem_keys, Option.map_eq_some_iff,
      Prod.mk.injEq]
    constructor
    · rintro ⟨other, _, stored, lookup, rfl, rfl⟩
      exact lookup
    · intro lookup
      exact ⟨key, Finmap.lookup_isSome.mp (lookup ▸ rfl), value, lookup, rfl, rfl⟩

/-- The entries of a map as the `Deserialize` of `HashMap` inserts them. -/
def insertAll (values : Values) (entries : List (String × String)) : Values :=
  entries.foldl (fun values entry => values.insert entry.1 entry.2) values

/-- The wire form of a map. -/
def valuesCodec : Codec (List (String × String)) := .list (.pair .text .text)

/-- The fields of `WireSession`. -/
def encodeWireSession (expiryCodec : Codec DateTime) (order : ∀ values, Listing values)
    (wire : SessionSnapshot) : Option (List UInt8) := do
  let id ← Codec.text.encode wire.id
  let expiry ← (Codec.option expiryCodec).encode wire.expiry
  let data ← valuesCodec.encode (order wire.data).entries
  return id ++ expiry ++ data

/-- The derived `Serialize` of `SessionData`, which is transparent. -/
def encodeSessionData (order : ∀ values, Listing values) (data : SessionData) :
    Option (List UInt8) :=
  valuesCodec.encode (order data.values).entries

/-- The derived `Serialize` of `Session`: the fields that are not skipped. -/
def encodeSession (expiryCodec : Codec DateTime) (order : ∀ values, Listing values) (heap : Heap)
    (session : Session) : Option (List UInt8) := do
  let id ← Codec.text.encode session.id
  let expiry ← (Codec.option expiryCodec).encode session.expiry
  let data ← encodeSessionData order (session.sessionData heap)
  return id ++ expiry ++ data

/-- The derived `Deserialize` of `Session`: the fields on the wire. -/
def takeSession (expiryCodec : Codec DateTime) : Take SessionSnapshot := fun encoded => do
  let (id, rest) ← Codec.text.take encoded
  let (expiry, rest) ← (Codec.option expiryCodec).take rest
  let (entries, rest) ← valuesCodec.take rest
  return (⟨id, expiry, insertAll ∅ entries⟩, rest)

/-! ### The map -/

/-- Later entries replace earlier ones; with distinct keys every entry is found. -/
theorem mem_lookup_insertAll {entries : List (String × String)}
    (distinct : (entries.map Prod.fst).Nodup) (values : Values) (key value : String) :
    (insertAll values entries).lookup key = some value ↔
      (key, value) ∈ entries ∨
        key ∉ entries.map Prod.fst ∧ values.lookup key = some value := by
  induction entries generalizing values with
  | nil => simp [insertAll]
  | cons entry entries inductionHypothesis =>
    obtain ⟨first, stored⟩ := entry
    rw [List.map_cons, List.nodup_cons] at distinct
    obtain ⟨absent, distinct⟩ := distinct
    have rest := inductionHypothesis distinct (values.insert first stored)
    rw [insertAll, List.foldl_cons]
    refine rest.trans ?_
    by_cases same : key = first
    · subst same
      rw [Finmap.lookup_insert]
      constructor
      · rintro (later | ⟨_, found⟩)
        · exact absurd (List.mem_map_of_mem later) absent
        · cases found
          exact Or.inl List.mem_cons_self
      · rintro (found | ⟨outside, _⟩)
        · rcases List.mem_cons.mp found with here | later
          · cases here
            exact Or.inr ⟨absent, rfl⟩
          · exact absurd (List.mem_map_of_mem later) absent
        · exact absurd List.mem_cons_self outside
    · rw [Finmap.lookup_insert_of_ne _ same]
      simp [same]

/-- What an encoder lists, the decoder puts together again. -/
theorem insertAll_listing {values : Values} (listing : Listing values) :
    insertAll ∅ listing.entries = values := by
  refine Finmap.ext_lookup fun key => Option.ext fun value => ?_
  rw [mem_lookup_insertAll listing.keys, listing.complete]
  simp

theorem Listing.entries_empty (listing : Listing ∅) : listing.entries = [] := by
  refine List.eq_nil_iff_forall_not_mem.mpr fun entry member => ?_
  have found := (listing.complete entry.1 entry.2).mp member
  cases found

theorem Listing.entries_insert {key value : String}
    (listing : Listing ((∅ : Values).insert key value)) : listing.entries = [(key, value)] := by
  have own : (key, value) ∈ listing.entries :=
    (listing.complete key value).mpr (Finmap.lookup_insert _)
  have only : ∀ entry ∈ listing.entries, entry = (key, value) := by
    intro entry member
    have found := (listing.complete entry.1 entry.2).mp member
    by_cases same : entry.1 = key
    · rw [same, Finmap.lookup_insert] at found
      exact Prod.ext same (Option.some.inj found).symm
    · rw [Finmap.lookup_insert_of_ne _ same] at found
      cases found
  have distinct : listing.entries.Nodup := listing.keys.of_map _
  rw [List.eq_replicate_of_mem only, List.nodup_replicate] at distinct
  obtain ⟨entry, single⟩ := List.length_eq_one_iff.mp
    (Nat.le_antisymm distinct (List.length_pos_of_mem own))
  rw [single, only entry (single ▸ List.mem_singleton_self entry)]

/-! ### The round trip -/

section RoundTrip

variable {expiryCodec : Codec DateTime} {order : ∀ values, Listing values}

/-- Both encoders write the same fields. -/
theorem encodeSession_eq (heap : Heap) (session : Session) :
    encodeSession expiryCodec order heap session =
      encodeWireSession expiryCodec order (session.wire heap) := rfl

/-- The decoder takes back what they write, and leaves what follows. -/
theorem takeSession_encodeWireSession {wire : SessionSnapshot} {encoded : List UInt8}
    (written : encodeWireSession expiryCodec order wire = some encoded) (rest : List UInt8) :
    takeSession expiryCodec (encoded ++ rest) = some (wire, rest) := by
  simp only [encodeWireSession, Option.bind_eq_bind, Option.bind_eq_some_iff, Option.pure_def,
    Option.some.injEq] at written
  obtain ⟨id, writtenId, expiry, writtenExpiry, data, writtenData, rfl⟩ := written
  simp only [takeSession, List.append_assoc, Codec.text.take_encode writtenId,
    (Codec.option expiryCodec).take_encode writtenExpiry, valuesCodec.take_encode writtenData,
    Option.bind_eq_bind, Option.bind_some, Option.pure_def, insertAll_listing]

end RoundTrip

end Saysion
