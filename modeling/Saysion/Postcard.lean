/-
This file is a library of the postcard wire format: lengths as varints, texts,
optional values and sequences. A codec carries the proof that its decoder takes
back from the front of the bytes what its encoder wrote, so that codecs compose.

An encoder answers nothing for a value that the program cannot hold, such as a
text with more bytes than a `usize` tells. The decoders take everything that the
format admits: a varint may be longer than it needs to be.
-/

import Mathlib.Algebra.Group.Nat.Defs
import Saysion.Text

namespace Saysion

namespace Postcard

/-- A decoder takes a value from the front of the bytes. -/
abbrev Take (Value : Type) := List UInt8 → Option (Value × List UInt8)

structure Codec (Value : Type) where
  encode : Value → Option (List UInt8)
  take : Take Value
  take_encode : ∀ {value encoded}, encode value = some encoded →
    ∀ rest, take (encoded ++ rest) = some (value, rest)

/-! ### Lengths -/

/-- Seven bits a byte, the lowest first; all but the last byte have the high bit. -/
def varint (value : Nat) : List UInt8 :=
  if value < 128 then [UInt8.ofNat value]
  else UInt8.ofNat (value % 128 + 128) :: varint (value / 128)
  termination_by value
  decreasing_by omega

theorem varint_of_lt {value : Nat} (small : value < 128) : varint value = [UInt8.ofNat value] := by
  rw [varint, if_pos small]

/-- Take a varint of at most so many bytes after its first. The last one possible has one bit. -/
def takeVarint : Nat → Take Nat
  | _, [] => none
  | 0, byte :: rest => if byte.toNat ≤ 1 then some (byte.toNat, rest) else none
  | more + 1, byte :: rest =>
    if byte.toNat < 128 then some (byte.toNat, rest)
    else (takeVarint more rest).map fun high => (byte.toNat - 128 + 128 * high.1, high.2)

theorem takeVarint_varint {more value : Nat} (small : value < 2 * 128 ^ more) (rest : List UInt8) :
    takeVarint more (varint value ++ rest) = some (value, rest) := by
  induction more generalizing value with
  | zero =>
    have byte : (UInt8.ofNat value).toNat = value := by
      rw [UInt8.toNat_ofNat']
      omega
    rw [varint_of_lt (by omega), List.singleton_append, takeVarint, byte, if_pos (by omega)]
  | succ more inductionHypothesis =>
    rw [varint]
    split
    · rename_i last
      have byte : (UInt8.ofNat value).toNat = value := by
        rw [UInt8.toNat_ofNat']
        omega
      rw [List.singleton_append, takeVarint, byte, if_pos last]
    · rename_i high
      have byte : (UInt8.ofNat (value % 128 + 128)).toNat = value % 128 + 128 := by
        rw [UInt8.toNat_ofNat']
        omega
      have smaller : value / 128 < 2 * 128 ^ more := by
        rw [Nat.div_lt_iff_lt_mul (by decide), Nat.mul_assoc, ← Nat.pow_succ]
        exact small
      rw [List.cons_append, takeVarint, byte, if_neg (by omega), inductionHypothesis smaller]
      refine congrArg (fun value => some (value, rest)) ?_
      show value % 128 + 128 - 128 + 128 * (value / 128) = value
      omega

namespace Codec

/-- A `usize` of 64 bits. -/
def usize : Codec Nat where
  encode value := if value < 2 ^ 64 then some (varint value) else none
  take := takeVarint 9
  take_encode := by
    intro value encoded written rest
    split at written
    · rename_i small
      cases written
      exact takeVarint_varint (by omega) rest
    · cases written

/-! ### Texts, options and sequences -/

/-- The length in bytes, and the bytes. -/
def text : Codec String where
  encode value := (usize.encode (bytes value).length).map (· ++ bytes value)
  take encoded := do
    let (length, rest) ← usize.take encoded
    if rest.length < length then none
    else
      let value ← readText (rest.take length)
      return (value, rest.drop length)
  take_encode := by
    intro value encoded written rest
    obtain ⟨length, writtenLength, rfl⟩ := Option.map_eq_some_iff.mp written
    simp only [List.append_assoc, usize.take_encode writtenLength, Option.bind_eq_bind,
      Option.bind_some]
    rw [if_neg (by simp), List.take_left, List.drop_left, readText_bytes]
    rfl

variable {Value Other : Type}

/-- A tag byte, and the value behind it if there is one. -/
def option (codec : Codec Value) : Codec (Option Value) where
  encode
    | none => some [0]
    | some value => (codec.encode value).map (1 :: ·)
  take
    | [] => none
    | tag :: rest =>
      if tag = 0 then some (none, rest)
      else if tag = 1 then (codec.take rest).map fun taken => (some taken.1, taken.2)
      else none
  take_encode := by
    intro value encoded written rest
    cases value with
    | none =>
      cases written
      rfl
    | some value =>
      obtain ⟨tail, writtenValue, rfl⟩ := Option.map_eq_some_iff.mp written
      rw [List.cons_append]
      dsimp only
      rw [if_neg (by decide), if_pos rfl, codec.take_encode writtenValue]
      rfl

/-- One value behind the other, as in a tuple or the fields of a structure. -/
def pair (first : Codec Value) (second : Codec Other) : Codec (Value × Other) where
  encode value := do
    let front ← first.encode value.1
    let back ← second.encode value.2
    return front ++ back
  take encoded := do
    let (front, rest) ← first.take encoded
    let (back, rest) ← second.take rest
    return ((front, back), rest)
  take_encode := by
    intro value encoded written rest
    simp only [Option.bind_eq_bind, Option.bind_eq_some_iff, Option.pure_def,
      Option.some.injEq] at written
    obtain ⟨front, writtenFront, back, writtenBack, rfl⟩ := written
    simp only [List.append_assoc, first.take_encode writtenFront, second.take_encode writtenBack,
      Option.bind_eq_bind, Option.bind_some, Option.pure_def]

/-- A number of values in a row. -/
def encodeAll (codec : Codec Value) : List Value → Option (List UInt8)
  | [] => some []
  | value :: values => do
    let front ← codec.encode value
    let back ← codec.encodeAll values
    return front ++ back

def takeAll (codec : Codec Value) : Nat → Take (List Value)
  | 0, encoded => some ([], encoded)
  | count + 1, encoded => do
    let (value, rest) ← codec.take encoded
    let (values, rest) ← codec.takeAll count rest
    return (value :: values, rest)

theorem takeAll_encodeAll (codec : Codec Value) {values : List Value} {encoded : List UInt8}
    (written : codec.encodeAll values = some encoded) (rest : List UInt8) :
    codec.takeAll values.length (encoded ++ rest) = some (values, rest) := by
  induction values generalizing encoded with
  | nil =>
    cases written
    rfl
  | cons value values inductionHypothesis =>
    simp only [encodeAll, Option.bind_eq_bind, Option.bind_eq_some_iff, Option.pure_def,
      Option.some.injEq] at written
    obtain ⟨front, writtenFront, back, writtenBack, rfl⟩ := written
    simp only [List.length_cons, takeAll, List.append_assoc, codec.take_encode writtenFront,
      inductionHypothesis writtenBack, Option.bind_eq_bind, Option.bind_some, Option.pure_def]

/-- The number of the values, and the values. -/
def list (codec : Codec Value) : Codec (List Value) where
  encode values := do
    let front ← usize.encode values.length
    let back ← codec.encodeAll values
    return front ++ back
  take encoded := do
    let (count, rest) ← usize.take encoded
    codec.takeAll count rest
  take_encode := by
    intro values encoded written rest
    simp only [Option.bind_eq_bind, Option.bind_eq_some_iff, Option.pure_def,
      Option.some.injEq] at written
    obtain ⟨front, writtenFront, back, writtenBack, rfl⟩ := written
    simp only [List.append_assoc, usize.take_encode writtenFront, Option.bind_eq_bind,
      Option.bind_some]
    exact codec.takeAll_encodeAll writtenBack rest

end Codec

end Postcard

end Saysion
