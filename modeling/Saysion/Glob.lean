/-
This file is a library of glob patterns over bytes: a star, a question mark, a
set with ranges and negation, and the backslash that takes the next byte
literally. It knows nothing of keys or stores.

A pattern is read into tokens first, and the meaning of the tokens is structural:
only a star has more than one way to go on, and it tries every suffix of the
text. What a caller needs to know of a pattern is then what its bytes are read
into.
-/

import Mathlib.Data.List.Infix

namespace Saysion

namespace Glob

/-- The bytes with a meaning in a pattern, and those with a meaning in a set. -/
def star : UInt8 := 42
def question : UInt8 := 63
def openSet : UInt8 := 91
def closeSet : UInt8 := 93
def backslash : UInt8 := 92
def caret : UInt8 := 94
def dash : UInt8 := 45

/-- A member of a set: a byte, or the bytes between two. -/
inductive Member
  | byte (byte : UInt8)
  | range (first last : UInt8)

inductive Token
  | literal (byte : UInt8)
  | any
  | set (negated : Bool) (members : List Member)
  | many

/-- The bounds of a range may stand in either order. -/
def Member.has (byte : UInt8) : Member → Bool
  | .byte member => byte = member
  | .range first last => (first ≤ byte && byte ≤ last) || (last ≤ byte && byte ≤ first)

/-- Whether tokens match a whole text. -/
def tokensMatch : List Token → List UInt8 → Bool
  | [], text => text.isEmpty
  | .literal byte :: rest, text =>
    match text with
    | [] => false
    | first :: text => first = byte && tokensMatch rest text
  | .any :: rest, text =>
    match text with
    | [] => false
    | _ :: text => tokensMatch rest text
  | .set negated members :: rest, text =>
    match text with
    | [] => false
    | first :: text => (negated != members.any (·.has first)) && tokensMatch rest text
  | .many :: rest, text => text.tails.any (tokensMatch rest)

/-- The members of a set, and what is left of the pattern behind it. The end of the pattern closes
a set that is still open. -/
def readSet : List UInt8 → List Member × List UInt8
  | [] => ([], [])
  | [byte] => if byte = closeSet then ([], []) else ([.byte byte], [])
  | [first, second] =>
    if first = backslash then ([.byte second], [])
    else if first = closeSet then ([], [second])
    else
      let (members, left) := readSet [second]
      (.byte first :: members, left)
  | first :: second :: third :: rest =>
    if first = backslash then
      let (members, left) := readSet (third :: rest)
      (.byte second :: members, left)
    else if first = closeSet then ([], second :: third :: rest)
    else if second = dash then
      let (members, left) := readSet rest
      (.range first third :: members, left)
    else
      let (members, left) := readSet (second :: third :: rest)
      (.byte first :: members, left)

theorem length_readSet (pattern : List UInt8) : (readSet pattern).2.length ≤ pattern.length := by
  induction pattern using readSet.induct with
  | case1 => exact le_rfl
  | case2 => simp [readSet]
  | case3 byte different => simp [readSet, different]
  | case4 second => simp [readSet]
  | case5 second different => simp [readSet, different]
  | case6 first second plain open_ members left read inductionHypothesis =>
    rw [readSet, if_neg plain, if_neg open_]
    exact inductionHypothesis.trans (Nat.le_succ _)
  | case7 second third rest members left read inductionHypothesis =>
    rw [readSet, if_pos rfl]
    exact inductionHypothesis.trans (by simp)
  | case8 second third rest different =>
    rw [readSet, if_neg different, if_pos rfl]
    simp
  | case9 first third rest plain open_ members left read inductionHypothesis =>
    rw [readSet, if_neg plain, if_neg open_, if_pos rfl]
    exact inductionHypothesis.trans (by simp only [List.length_cons]; omega)
  | case10 first second third rest plain open_ single members left read inductionHypothesis =>
    rw [readSet, if_neg plain, if_neg open_, if_neg single]
    exact inductionHypothesis.trans (Nat.le_succ _)

/-- The tokens of a pattern. A backslash at its end stands for itself. -/
def tokens : List UInt8 → List Token
  | [] => []
  | first :: rest =>
    if first = star then .many :: tokens rest
    else if first = question then .any :: tokens rest
    else if first = openSet then
      let negated := rest.head? = some caret
      let read := readSet (if negated then rest.tail else rest)
      .set negated read.1 :: tokens read.2
    else if first = backslash then
      match rest with
      | [] => [.literal backslash]
      | byte :: rest => .literal byte :: tokens rest
    else .literal first :: tokens rest
  termination_by pattern => pattern.length
  decreasing_by
    all_goals simp only [List.length_cons]
    all_goals try omega
    have read := length_readSet (if rest.head? = some caret then rest.tail else rest)
    have shorter : (if rest.head? = some caret then rest.tail else rest).length ≤ rest.length := by
      split
      · exact List.length_tail ▸ Nat.sub_le _ _
      · exact le_rfl
    exact Nat.lt_succ_of_le (read.trans shorter)

/-- Whether a pattern matches a whole text. -/
def accepts (pattern text : List UInt8) : Bool := tokensMatch (tokens pattern) text

/-! ### What bytes are read into -/

end Glob

end Saysion
