/-
This file models how the SQLite store names its expiry index. SQLite qualifies
the index of a table in another schema, not the table, so a table name is split
at its separating dot: the one that is in no quoted part of the name.

The scanner is followed part by part. A name that is not quoted has no character
that the scanner stops at, a quoted one takes it back to where it was, and so
the first dot it stops at is the separating one.
-/

import Saysion.Text

namespace Saysion

/-! ### The scanner -/

/-- A double quote, a single quote and a backtick: each is its own closing delimiter. -/
def quotes : List Char := [Char.ofNat 0x22, Char.ofNat 0x27, Char.ofNat 0x60]

namespace SqlxSqliteStore

/-- The loop of `index_target`: the position of the separating dot, if there is one. -/
def separator (quote : Option Char) : List (Nat × Char) → Option Nat
  | [] => none
  | (position, character) :: characters =>
    match quote with
    | some delimiter =>
      if character = delimiter then
        -- A delimiter that is doubled stands for itself, but a bracket does not.
        if delimiter ≠ ']' ∧ characters.head?.any (·.2 = delimiter) then
          separator (some delimiter) characters.tail
        else separator none characters
      else separator (some delimiter) characters
    | none =>
      if character ∈ quotes then separator (some character) characters
      else if character = '[' then separator (some ']') characters
      else if character = '.' then some position
      else separator none characters
termination_by characters => characters.length
decreasing_by all_goals simp only [List.length_tail, List.length_cons]; omega

def hexDigit (value : Nat) : Char :=
  "0123456789abcdef".toList.getD value '0'

/-- `expiry_index_name`: the first digits of the hash of the table's name. -/
def expiryIndexName (hash : List UInt8 → List UInt8) (table : String) : String :=
  let digits := (hash (bytes table)).flatMap fun byte =>
    [hexDigit (byte.toNat / 16), hexDigit (byte.toNat % 16)]
  "saysion_expiry_" ++ String.ofList (digits.take 16)

/-- `index_target`: the name of the index, and what it is on. A slice that panics is `none`. -/
def indexTarget (hash : List UInt8 → List UInt8) (table : String) : Option (String × String) :=
  let index := expiryIndexName hash table
  match separator none (charIndices 0 table.toList) with
  | some position => do
    let schema ← sliceTo position table.toList
    let name ← sliceFrom (position + 1) table.toList
    return (String.ofList (trim schema) ++ "." ++ index, String.ofList (trim name))
  | none => some (index, table)

end SqlxSqliteStore

/-! ### Identifiers -/

/-- The characters that no unquoted name has. -/
def special : List Char := '.' :: '[' :: ']' :: quotes

/-- An identifier as it is written in SQL: bare, in quotes, with the quotes in it doubled, or in
brackets. -/
inductive Identifier
  | bare (name : List Char) (plain : ∀ character ∈ name, character ∉ special)
  | quoted (delimiter : Char) (quote : delimiter ∈ quotes) (content : List Char)
  | bracketed (content : List Char) (closed : ']' ∉ content)

/-- The content of a quoted name, with the delimiters in it doubled. -/
def doubled (delimiter : Char) (content : List Char) : List Char :=
  content.flatMap fun character =>
    if character = delimiter then [delimiter, delimiter] else [character]

/-- How an identifier is written. -/
def Identifier.written : Identifier → List Char
  | bare name _ => name
  | quoted delimiter _ content => delimiter :: doubled delimiter content ++ [delimiter]
  | bracketed content _ => '[' :: content ++ [']']

/-- White space, of any length. -/
structure Blank where
  text : List Char
  white : ∀ character ∈ text, isWhitespace character

namespace SqlxSqliteStore

/-! ### What the scanner does with each part -/

theorem separator_skip {offset : Nat} {name rest : List Char}
    (plain : ∀ character ∈ name, character ∉ quotes ∧ character ≠ '[' ∧ character ≠ '.') :
    separator none (charIndices offset (name ++ rest)) =
      separator none (charIndices (offset + byteLength name) rest) := by
  induction name generalizing offset with
  | nil => rfl
  | cons character name inductionHypothesis =>
    obtain ⟨unquoted, unbracketed, undotted⟩ := plain character List.mem_cons_self
    rw [List.cons_append, charIndices, separator, if_neg unquoted, if_neg unbracketed,
      if_neg undotted, inductionHypothesis fun other member =>
        plain other (List.mem_cons_of_mem _ member), byteLength_cons, Nat.add_assoc]

/-- A quoted part ends at the delimiter that is not doubled. -/
theorem separator_quoted {delimiter : Char} (other : delimiter ≠ ']') {offset : Nat}
    {content rest : List Char} (single : rest.head? ≠ some delimiter) :
    separator (some delimiter)
        (charIndices offset (doubled delimiter content ++ delimiter :: rest)) =
      separator none (charIndices
        (offset + byteLength (doubled delimiter content) + delimiter.utf8Size) rest) := by
  induction content generalizing offset with
  | nil =>
    have unpaired : ¬ (delimiter ≠ ']' ∧ ((charIndices (offset + delimiter.utf8Size) rest).head?.any
        (·.2 = delimiter)) = true) := by
      rintro ⟨_, paired⟩
      cases rest with
      | nil => cases paired
      | cons next rest => exact single (congrArg some (of_decide_eq_true paired))
    show separator (some delimiter) ((offset, delimiter) :: charIndices _ rest) = _
    rw [separator, if_pos rfl, if_neg unpaired]
    rfl
  | cons character content inductionHypothesis =>
    by_cases same : character = delimiter
    · subst same
      have twice : doubled character (character :: content) =
          character :: character :: doubled character content := by
        simp [doubled]
      rw [twice, List.cons_append, List.cons_append, charIndices, charIndices, separator,
        if_pos rfl, if_pos ⟨other, by simp⟩, List.tail_cons, inductionHypothesis, byteLength_cons,
        byteLength_cons]
      exact congrArg (fun start => separator none (charIndices start rest)) (by omega)
    · have once : doubled delimiter (character :: content) =
          character :: doubled delimiter content := by
        simp [doubled, same]
      rw [once, List.cons_append, charIndices, separator, if_neg same, inductionHypothesis,
        byteLength_cons]
      exact congrArg (fun start => separator none (charIndices start rest)) (by omega)

/-- A part in brackets ends at the first closing one. -/
theorem separator_bracketed {offset : Nat} {content rest : List Char} (closed : ']' ∉ content) :
    separator (some ']') (charIndices offset (content ++ ']' :: rest)) =
      separator none (charIndices (offset + byteLength content + Char.utf8Size ']') rest) := by
  induction content generalizing offset with
  | nil =>
    show separator (some ']') ((offset, ']') :: charIndices _ rest) = _
    rw [separator, if_pos rfl, if_neg fun both => both.1 rfl]
    rfl
  | cons character content inductionHypothesis =>
    have different : character ≠ ']' := fun same => closed (same ▸ List.mem_cons_self)
    rw [List.cons_append, charIndices, separator, if_neg different, inductionHypothesis fun member =>
      closed (List.mem_cons_of_mem _ member), byteLength_cons]
    exact congrArg (fun start => separator none (charIndices start rest)) (by omega)

theorem plain_of_special {character : Char} (plain : character ∉ special) :
    character ∉ quotes ∧ character ≠ '[' ∧ character ≠ '.' := by
  simp only [special, List.mem_cons, not_or] at plain
  exact ⟨plain.2.2.2, plain.2.1, plain.1⟩

/-- White space is none of the characters that the scanner stops at. -/
theorem plain_of_white {character : Char} (white : isWhitespace character) :
    character ∉ special := by
  have dark : special.all (fun other => !isWhitespace other) = true := by decide
  intro member
  have none := List.all_eq_true.mp dark character member
  rw [white] at none
  cases none

/-- An identifier leaves the scanner where it was, unless its closing quote is doubled by what
follows. -/
theorem separator_identifier (identifier : Identifier) {offset : Nat} {rest : List Char}
    (single : ∀ delimiter ∈ quotes, rest.head? ≠ some delimiter) :
    separator none (charIndices offset (identifier.written ++ rest)) =
      separator none (charIndices (offset + byteLength identifier.written) rest) := by
  cases identifier with
  | bare name plain =>
    exact separator_skip fun character member => plain_of_special (plain character member)
  | quoted delimiter quote content =>
    have other : delimiter ≠ ']' := by
      rintro rfl
      revert quote
      decide
    have written : (Identifier.quoted delimiter quote content).written ++ rest =
        delimiter :: (doubled delimiter content ++ delimiter :: rest) := by
      simp [Identifier.written]
    rw [written, charIndices, separator, if_pos quote, separator_quoted other (single delimiter quote)]
    refine congrArg (fun start => separator none (charIndices start rest)) ?_
    simp [Identifier.written]
    omega
  | bracketed content closed =>
    have written : (Identifier.bracketed content closed).written ++ rest =
        '[' :: (content ++ ']' :: rest) := by
      simp [Identifier.written]
    rw [written, charIndices, separator, if_neg (by decide), if_pos rfl, separator_bracketed closed]
    refine congrArg (fun start => separator none (charIndices start rest)) ?_
    simp [Identifier.written]
    omega

/-- The scanner stops at a dot of the text. -/
theorem separator_eq_some {text : List Char} {quote : Option Char} {offset position : Nat}
    (found : separator quote (charIndices offset text) = some position) :
    ∃ front rest, text = front ++ '.' :: rest ∧ position = offset + byteLength front := by
  induction length : text.length using Nat.strong_induction_on generalizing text quote offset with
  | _ size inductionHypothesis =>
    cases text with
    | nil =>
      rw [charIndices, separator] at found
      cases found
    | cons character text =>
      have later : ∀ {next : Option Char},
          separator next (charIndices (offset + character.utf8Size) text) = some position →
            ∃ front rest, character :: text = front ++ '.' :: rest ∧
              position = offset + byteLength front := by
        intro next found
        obtain ⟨front, rest, rfl, rfl⟩ :=
          inductionHypothesis text.length (by rw [← length]; exact Nat.lt_succ_self _) found rfl
        exact ⟨character :: front, rest, rfl, by rw [byteLength_cons, Nat.add_assoc]⟩
      cases quote with
      | some delimiter =>
        rw [charIndices, separator] at found
        split at found
        · split at found
          · -- Two characters are read at once.
            rename_i paired
            cases text with
            | nil => cases paired.2
            | cons next text =>
              rw [charIndices, List.tail_cons] at found
              obtain ⟨front, rest, rfl, rfl⟩ := inductionHypothesis text.length
                (by rw [← length, List.length_cons, List.length_cons]; omega) found rfl
              refine ⟨character :: next :: front, rest, rfl, ?_⟩
              rw [byteLength_cons, byteLength_cons]
              omega
          · exact later found
        · exact later found
      | none =>
        rw [charIndices, separator] at found
        split at found
        · exact later found
        split at found
        · exact later found
        split at found
        · rename_i dot
          obtain rfl := Option.some.inj found
          exact ⟨[], text, by rw [dot]; rfl, rfl⟩
        · exact later found

/-! ### Where a name is split -/

/-- A name is split at the dot that the scanner stops at, and the slices exist. -/
theorem indexTarget_of_separator (hash : List UInt8 → List UInt8) {table : String}
    {front rest : List Char} (text : table.toList = front ++ '.' :: rest)
    (found : separator none (charIndices 0 table.toList) = some (byteLength front)) :
    indexTarget hash table =
      some (String.ofList (trim front) ++ "." ++ expiryIndexName hash table,
        String.ofList (trim rest)) := by
  have dot : byteLength front + 1 = byteLength (front ++ ['.']) := by
    rw [byteLength_append]
    rfl
  have split : front ++ '.' :: rest = front ++ ['.'] ++ rest := by simp
  unfold indexTarget
  dsimp only
  rw [found]
  dsimp only
  rw [text, sliceTo_byteLength, dot, split, sliceFrom_byteLength]
  rfl

theorem indexTarget_isSome (hash : List UInt8 → List UInt8) (table : String) :
    (indexTarget hash table).isSome := by
  cases found : separator none (charIndices 0 table.toList) with
  | none =>
    unfold indexTarget
    dsimp only
    rw [found]
    rfl
  | some position =>
    obtain ⟨front, rest, text, same⟩ := separator_eq_some found
    rw [Nat.zero_add] at same
    rw [indexTarget_of_separator hash text (same ▸ found)]
    rfl

end SqlxSqliteStore

open SqlxSqliteStore

/-! ### The result -/

/-- A qualified name is split into its two identifiers, a name that is one identifier is left as it
is, and no name makes the scanner slice a text within a character. -/
theorem index_target_splits_names (hash : List UInt8 → List UInt8) :
    (∀ (schema table : Identifier) (before after : Blank) (name : String),
      name = String.ofList
          (schema.written ++ before.text ++ ['.'] ++ after.text ++ table.written) →
        indexTarget hash name =
          some (String.ofList (trim schema.written) ++ "." ++ expiryIndexName hash name,
            String.ofList (trim table.written))) ∧
    (∀ (table : Identifier) (name : String), name = String.ofList table.written →
      indexTarget hash name = some (expiryIndexName hash name, name)) ∧
    ∀ name, (indexTarget hash name).isSome := by
  refine ⟨fun schema table before after name same => ?_, fun table name same => ?_,
    indexTarget_isSome hash⟩
  · have text : name.toList =
        (schema.written ++ before.text) ++ '.' :: (after.text ++ table.written) := by
      rw [same, String.toList_ofList]
      simp
    have single : ∀ delimiter ∈ quotes,
        (before.text ++ '.' :: (after.text ++ table.written)).head? ≠ some delimiter := by
      intro delimiter quote wrong
      have stops : delimiter ∈ special := by simp [special, quote]
      cases blank : before.text with
      | nil =>
        rw [blank] at wrong
        obtain rfl := Option.some.inj wrong
        revert quote
        decide
      | cons first rest =>
        rw [blank] at wrong
        obtain rfl := Option.some.inj wrong
        exact plain_of_white (before.white first (blank ▸ List.mem_cons_self)) stops
    have found : separator none (charIndices 0 name.toList) =
        some (byteLength (schema.written ++ before.text)) := by
      rw [text, List.append_assoc, separator_identifier schema single, separator_skip fun
        character member => plain_of_special (plain_of_white (before.white character member)),
        charIndices, separator, if_neg (by decide), if_neg (by decide), if_pos rfl,
        byteLength_append, Nat.zero_add]
    rw [indexTarget_of_separator hash text found, trim_append_right before.white,
      trim_append_left after.white]
  · have found : separator none (charIndices 0 name.toList) = none := by
      have whole : name.toList = table.written ++ [] := by
        rw [same, String.toList_ofList, List.append_nil]
      have single : ∀ delimiter ∈ quotes, ([] : List Char).head? ≠ some delimiter := by simp
      rw [whole, separator_identifier table single, charIndices, separator]
    unfold indexTarget
    dsimp only
    rw [found]

end Saysion
