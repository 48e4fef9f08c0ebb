/-
This file is about the UTF-8 bytes of a text: what a protocol or a codec sees of
a string, and how it reads one back. Its second half is about a text whose parts
are named by byte offsets: an offset cuts a text only between two characters.
-/

import Mathlib.Data.List.Infix
import Mathlib.Data.List.TakeWhile

namespace Saysion

/-- The UTF-8 bytes of a text. -/
def bytes (text : String) : List UInt8 := text.toList.flatMap String.utf8EncodeChar

/-- The text of UTF-8 bytes. -/
def readText (encoded : List UInt8) : Option String := String.fromUTF8? encoded.toByteArray

theorem readText_bytes (text : String) : readText (bytes text) = some text := by
  have same : (bytes text).toByteArray = text.toByteArray := String.utf8Encode_toList
  unfold readText String.fromUTF8?
  rw [same, dif_pos text.isValidUTF8]
  rfl

/-- A text of ASCII has as many bytes as characters. -/
theorem length_bytes_of_ascii {text : String}
    (ascii : ∀ character ∈ text.toList, character.val.toNat < 128) :
    (bytes text).length = text.toList.length := by
  unfold bytes
  rw [List.length_flatMap]
  have single : ∀ character ∈ text.toList, (String.utf8EncodeChar character).length = 1 := by
    intro character member
    have small := ascii character member
    unfold String.utf8EncodeChar
    dsimp only
    rw [if_pos (by omega)]
    rfl
  rw [List.map_congr_left single, List.map_const', List.sum_replicate_nat, Nat.mul_one]

/-! ### Byte offsets -/

/-- The bytes that some characters take. -/
def byteLength : List Char → Nat
  | [] => 0
  | character :: rest => character.utf8Size + byteLength rest

/-- `char_indices`, from an offset on. -/
def charIndices (offset : Nat) : List Char → List (Nat × Char)
  | [] => []
  | character :: rest => (offset, character) :: charIndices (offset + character.utf8Size) rest

/-- The slice up to a byte offset, unless the offset is within a character or beyond the end. -/
def sliceTo : Nat → List Char → Option (List Char)
  | 0, _ => some []
  | _ + 1, [] => none
  | left + 1, character :: rest =>
    if character.utf8Size ≤ left + 1 then
      (sliceTo (left + 1 - character.utf8Size) rest).map (character :: ·)
    else none

/-- The slice from a byte offset on. -/
def sliceFrom : Nat → List Char → Option (List Char)
  | 0, text => some text
  | _ + 1, [] => none
  | left + 1, character :: rest =>
    if character.utf8Size ≤ left + 1 then sliceFrom (left + 1 - character.utf8Size) rest else none

@[simp] theorem byteLength_nil : byteLength [] = 0 := rfl

@[simp] theorem byteLength_cons (character : Char) (rest : List Char) :
    byteLength (character :: rest) = character.utf8Size + byteLength rest := rfl

@[simp] theorem byteLength_append (first second : List Char) :
    byteLength (first ++ second) = byteLength first + byteLength second := by
  induction first with
  | nil => rw [List.nil_append, byteLength_nil, Nat.zero_add]
  | cons character first inductionHypothesis =>
    rw [List.cons_append, byteLength_cons, byteLength_cons, inductionHypothesis, Nat.add_assoc]

theorem byteLength_succ (character : Char) (rest : List Char) : ∃ left,
    byteLength (character :: rest) = left + 1 ∧ left + 1 - character.utf8Size = byteLength rest ∧
      character.utf8Size ≤ left + 1 := by
  have positive := character.utf8Size_pos
  refine ⟨character.utf8Size + byteLength rest - 1, ?_⟩
  rw [byteLength_cons]
  omega

/-- A text is cut at the end of every front part. -/
theorem sliceTo_byteLength (front rest : List Char) :
    sliceTo (byteLength front) (front ++ rest) = some front := by
  induction front with
  | nil =>
    unfold sliceTo
    rfl
  | cons character front inductionHypothesis =>
    obtain ⟨left, total, remaining, fits⟩ := byteLength_succ character front
    rw [total, List.cons_append, sliceTo, if_pos fits, remaining, inductionHypothesis]
    rfl

theorem sliceFrom_byteLength (front rest : List Char) :
    sliceFrom (byteLength front) (front ++ rest) = some rest := by
  induction front with
  | nil =>
    unfold sliceFrom
    rfl
  | cons character front inductionHypothesis =>
    obtain ⟨left, total, remaining, fits⟩ := byteLength_succ character front
    rw [total, List.cons_append, sliceFrom, if_pos fits, remaining, inductionHypothesis]

/-! ### White space -/

/-- `char::is_whitespace`: the property `White_Space` of Unicode. -/
def isWhitespace (character : Char) : Bool :=
  let code := character.toNat
  (9 ≤ code && code ≤ 13) || code = 0x20 || code = 0x85 || code = 0xA0 || code = 0x1680 ||
    (0x2000 ≤ code && code ≤ 0x200A) || code = 0x2028 || code = 0x2029 || code = 0x202F ||
      code = 0x205F || code = 0x3000

/-- `trim` -/
def trim (text : List Char) : List Char :=
  ((text.dropWhile isWhitespace).reverse.dropWhile isWhitespace).reverse

/-- White space in front of a text is trimmed. -/
theorem trim_append_left {blank : List Char} (white : ∀ character ∈ blank, isWhitespace character)
    (text : List Char) : trim (blank ++ text) = trim text := by
  unfold trim
  rw [List.dropWhile_append_of_pos white]

/-- And so is white space behind it. -/
theorem trim_append_right {blank : List Char} (white : ∀ character ∈ blank, isWhitespace character)
    (text : List Char) : trim (text ++ blank) = trim text := by
  unfold trim
  rw [List.dropWhile_append]
  split
  · rename_i empty
    rw [List.isEmpty_iff.mp empty, List.dropWhile_eq_nil_iff.mpr white]
  · have reversed : ∀ character ∈ blank.reverse, isWhitespace character :=
      fun character member => white character (List.mem_reverse.mp member)
    rw [List.reverse_append, List.dropWhile_append_of_pos reversed]

end Saysion
