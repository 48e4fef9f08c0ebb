/-
This file is a library of Base64 with the standard alphabet and padding. The
decoder is strict: the padding must be there, and the bits that it leaves over
must be zero. So the texts it accepts are exactly those the encoder writes, and
two texts never stand for the same bytes.
-/

import Mathlib.Data.List.Nodup

namespace Saysion

namespace Base64

def alphabet : List Char :=
  "ABCDEFGHIJKLMNOPQRSTUVWXYZabcdefghijklmnopqrstuvwxyz0123456789+/".toList

def padding : Char := '='

/-- The character of six bits. -/
def digit (value : Nat) : Char := alphabet.getD value padding

/-- The six bits of a character. -/
def valueOf (character : Char) : Option Nat := alphabet.idxOf? character

/-- The characters of three bytes. -/
def encodeGroup (first second third : Nat) : List Char :=
  [digit (first / 4), digit (first % 4 * 16 + second / 16), digit (second % 16 * 4 + third / 64),
    digit (third % 64)]

def encode : List UInt8 → List Char
  | [] => []
  | [first] => [digit (first.toNat / 4), digit (first.toNat % 4 * 16), padding, padding]
  | [first, second] =>
    [digit (first.toNat / 4), digit (first.toNat % 4 * 16 + second.toNat / 16),
      digit (second.toNat % 16 * 4), padding]
  | first :: second :: third :: rest =>
    encodeGroup first.toNat second.toNat third.toNat ++ encode rest

/-- The bytes of four characters without padding. -/
def decodeGroup (first second third fourth : Char) : Option (List UInt8) := do
  let first ← valueOf first
  let second ← valueOf second
  let third ← valueOf third
  let fourth ← valueOf fourth
  return [UInt8.ofNat (first * 4 + second / 16), UInt8.ofNat (second % 16 * 16 + third / 4),
    UInt8.ofNat (third % 4 * 64 + fourth)]

/-- The bytes of the last four characters, which may be padded. -/
def decodeLast (first second third fourth : Char) : Option (List UInt8) :=
  if fourth ≠ padding then decodeGroup first second third fourth
  else if third ≠ padding then do
    let first ← valueOf first
    let second ← valueOf second
    let third ← valueOf third
    if third % 4 = 0 then
      return [UInt8.ofNat (first * 4 + second / 16), UInt8.ofNat (second % 16 * 16 + third / 4)]
    else none
  else do
    let first ← valueOf first
    let second ← valueOf second
    if second % 16 = 0 then return [UInt8.ofNat (first * 4 + second / 16)] else none

def decode : List Char → Option (List UInt8)
  | [] => some []
  | first :: second :: third :: fourth :: rest =>
    if rest = [] then decodeLast first second third fourth
    else do
      let group ← decodeGroup first second third fourth
      let left ← decode rest
      return group ++ left
  | _ => none

/-! ### Digits -/

theorem valueOf_digit {value : Nat} (small : value < 64) : valueOf (digit value) = some value :=
  (by decide +kernel : ∀ value < 64, valueOf (digit value) = some value) value small

theorem digit_ne_padding {value : Nat} (small : value < 64) : digit value ≠ padding :=
  (by decide +kernel : ∀ value < 64, digit value ≠ padding) value small

theorem digit_ascii {value : Nat} (small : value < 64) : (digit value).val.toNat < 128 :=
  (by decide +kernel : ∀ value < 64, (digit value).val.toNat < 128) value small

theorem valueOf_eq_some {character : Char} {value : Nat} (read : valueOf character = some value) :
    value < 64 ∧ digit value = character := by
  unfold valueOf List.idxOf? at read
  rw [List.findIdx?_eq_some_iff_getElem] at read
  obtain ⟨small, same, _⟩ := read
  refine ⟨small, ?_⟩
  unfold digit
  rw [List.getD_eq_getElem?_getD, List.getElem?_eq_getElem small]
  exact eq_of_beq same

/-! ### Groups -/

/-- What a group of three bytes is read back from. -/
theorem decodeGroup_encodeGroup (first second third : UInt8) :
    decodeGroup (digit (first.toNat / 4)) (digit (first.toNat % 4 * 16 + second.toNat / 16))
        (digit (second.toNat % 16 * 4 + third.toNat / 64)) (digit (third.toNat % 64)) =
      some [first, second, third] := by
  have one := first.toNat_lt
  have two := second.toNat_lt
  have three := third.toNat_lt
  unfold decodeGroup
  rw [valueOf_digit (by omega), valueOf_digit (by omega), valueOf_digit (by omega),
    valueOf_digit (by omega)]
  simp only [Option.bind_eq_bind, Option.bind_some, Option.pure_def, Option.some.injEq,
    List.cons.injEq, and_true]
  refine ⟨?_, ?_, ?_⟩ <;> apply UInt8.toNat_inj.mp <;> rw [UInt8.toNat_ofNat'] <;> omega

/-- Four characters that are read as a group are the ones that the bytes are written as. -/
theorem decodeGroup_eq_some {first second third fourth : Char} {group : List UInt8}
    (read : decodeGroup first second third fourth = some group) :
    ∃ one two three : UInt8, group = [one, two, three] ∧
      encodeGroup one.toNat two.toNat three.toNat = [first, second, third, fourth] := by
  unfold decodeGroup at read
  simp only [Option.bind_eq_bind, Option.bind_eq_some_iff, Option.pure_def,
    Option.some.injEq] at read
  obtain ⟨a, readFirst, b, readSecond, c, readThird, d, readFourth, rfl⟩ := read
  obtain ⟨smallFirst, rfl⟩ := valueOf_eq_some readFirst
  obtain ⟨smallSecond, rfl⟩ := valueOf_eq_some readSecond
  obtain ⟨smallThird, rfl⟩ := valueOf_eq_some readThird
  obtain ⟨smallFourth, rfl⟩ := valueOf_eq_some readFourth
  refine ⟨_, _, _, rfl, ?_⟩
  unfold encodeGroup
  rw [UInt8.toNat_ofNat', UInt8.toNat_ofNat', UInt8.toNat_ofNat']
  rw [congrArg digit (by omega : (a * 4 + b / 16) % 2 ^ 8 / 4 = a), congrArg digit (by omega :
      (a * 4 + b / 16) % 2 ^ 8 % 4 * 16 + (b % 16 * 16 + c / 4) % 2 ^ 8 / 16 = b),
    congrArg digit (by omega :
      (b % 16 * 16 + c / 4) % 2 ^ 8 % 16 * 4 + (c % 4 * 64 + d) % 2 ^ 8 / 64 = c),
    congrArg digit (by omega : (c % 4 * 64 + d) % 2 ^ 8 % 64 = d)]

/-- Four last characters that are read are the ones that their bytes are written as. -/
theorem encode_decodeLast {first second third fourth : Char} {group : List UInt8}
    (read : decodeLast first second third fourth = some group) :
    encode group = [first, second, third, fourth] := by
  unfold decodeLast at read
  split at read
  · obtain ⟨one, two, three, rfl, written⟩ := decodeGroup_eq_some read
    rw [encode, written]
    rfl
  rename_i paddedFourth
  have paddedFourth := not_not.mp paddedFourth
  split at read
  · simp only [Option.bind_eq_bind, Option.bind_eq_some_iff] at read
    obtain ⟨a, readFirst, b, readSecond, c, readThird, read⟩ := read
    split at read
    · rename_i zero
      cases read
      obtain ⟨smallFirst, rfl⟩ := valueOf_eq_some readFirst
      obtain ⟨smallSecond, rfl⟩ := valueOf_eq_some readSecond
      obtain ⟨smallThird, rfl⟩ := valueOf_eq_some readThird
      rw [encode, UInt8.toNat_ofNat', UInt8.toNat_ofNat', paddedFourth]
      rw [congrArg digit (by omega : (a * 4 + b / 16) % 2 ^ 8 / 4 = a), congrArg digit (by omega :
          (a * 4 + b / 16) % 2 ^ 8 % 4 * 16 + (b % 16 * 16 + c / 4) % 2 ^ 8 / 16 = b),
        congrArg digit (by omega : (b % 16 * 16 + c / 4) % 2 ^ 8 % 16 * 4 = c)]
    · cases read
  · rename_i paddedThird
    have paddedThird := not_not.mp paddedThird
    simp only [Option.bind_eq_bind, Option.bind_eq_some_iff] at read
    obtain ⟨a, readFirst, b, readSecond, read⟩ := read
    split at read
    · rename_i zero
      cases read
      obtain ⟨smallFirst, rfl⟩ := valueOf_eq_some readFirst
      obtain ⟨smallSecond, rfl⟩ := valueOf_eq_some readSecond
      rw [encode, UInt8.toNat_ofNat', paddedFourth, paddedThird]
      rw [congrArg digit (by omega : (a * 4 + b / 16) % 2 ^ 8 / 4 = a),
        congrArg digit (by omega : (a * 4 + b / 16) % 2 ^ 8 % 4 * 16 = b)]
    · cases read

/-! ### Whole texts -/

theorem encode_eq_nil {group : List UInt8} : encode group = [] ↔ group = [] := by
  constructor
  · intro empty
    unfold encode at empty
    split at empty
    · rfl
    all_goals simp [encodeGroup] at empty
  · rintro rfl
    rfl

theorem decode_encode (group : List UInt8) : decode (encode group) = some group := by
  induction group using encode.induct with
  | case1 => rfl
  | case2 first =>
    have one := first.toNat_lt
    rw [encode, decode, if_pos rfl, decodeLast, if_neg (not_not.mpr rfl), if_neg (not_not.mpr rfl),
      valueOf_digit (by omega), valueOf_digit (by omega)]
    simp only [Option.bind_eq_bind, Option.bind_some, Option.pure_def]
    rw [if_pos (by omega)]
    refine congrArg (fun byte => some [byte]) (UInt8.toNat_inj.mp ?_)
    rw [UInt8.toNat_ofNat']
    omega
  | case3 first second =>
    have one := first.toNat_lt
    have two := second.toNat_lt
    rw [encode, decode, if_pos rfl, decodeLast, if_neg (not_not.mpr rfl),
      if_pos (digit_ne_padding (by omega)), valueOf_digit (by omega), valueOf_digit (by omega),
      valueOf_digit (by omega)]
    simp only [Option.bind_eq_bind, Option.bind_some, Option.pure_def]
    rw [if_pos (by omega)]
    simp only [Option.some.injEq, List.cons.injEq, and_true]
    refine ⟨?_, ?_⟩ <;> apply UInt8.toNat_inj.mp <;> rw [UInt8.toNat_ofNat'] <;> omega
  | case4 first second third rest inductionHypothesis =>
    have three := third.toNat_lt
    rw [encode, encodeGroup]
    show decode (_ :: _ :: _ :: _ :: encode rest) = _
    rw [decode]
    split
    · rename_i last
      rw [encode_eq_nil.mp last, decodeLast, if_pos (digit_ne_padding (by omega))]
      exact decodeGroup_encodeGroup first second third
    · rw [decodeGroup_encodeGroup, inductionHypothesis]
      rfl

theorem encode_decode {text : List Char} {group : List UInt8} (read : decode text = some group) :
    encode group = text := by
  induction text using decode.induct generalizing group with
  | case1 =>
    cases read
    rfl
  | case2 first second third fourth =>
    rw [decode, if_pos rfl] at read
    exact encode_decodeLast read
  | case3 first second third fourth rest more inductionHypothesis =>
    rw [decode, if_neg more] at read
    simp only [Option.bind_eq_bind, Option.bind_eq_some_iff, Option.pure_def,
      Option.some.injEq] at read
    obtain ⟨front, readFront, left, readLeft, rfl⟩ := read
    obtain ⟨one, two, three, rfl, written⟩ := decodeGroup_eq_some readFront
    show encode (one :: two :: three :: left) = _
    rw [encode, written, inductionHypothesis readLeft]
    rfl
  | case4 text empty short =>
    unfold decode at read
    split at read
    · exact absurd rfl empty
    · exact absurd rfl (short _ _ _ _ _)
    · cases read

/-- The texts that are read as some bytes are the one that they are written as. -/
theorem decode_eq_some {text : List Char} {group : List UInt8} :
    decode text = some group ↔ text = encode group :=
  ⟨fun read => (encode_decode read).symm, fun written => written ▸ decode_encode group⟩

theorem length_encode (group : List UInt8) :
    (encode group).length = (group.length + 2) / 3 * 4 := by
  induction group using encode.induct with
  | case1 => rfl
  | case2 first => simp [encode]
  | case3 first second => simp [encode]
  | case4 first second third rest inductionHypothesis =>
    rw [encode, List.length_append, inductionHypothesis]
    simp only [encodeGroup, List.length_cons, List.length_nil]
    omega

theorem encode_ascii (group : List UInt8) :
    ∀ character ∈ encode group, character.val.toNat < 128 := by
  have pad : padding.val.toNat < 128 := by decide
  induction group using encode.induct with
  | case1 => simp [encode]
  | case2 first =>
    have one := first.toNat_lt
    simp only [encode, List.forall_mem_cons, pad, List.not_mem_nil, false_implies, implies_true,
      and_true]
    exact ⟨digit_ascii (by omega), digit_ascii (by omega)⟩
  | case3 first second =>
    have one := first.toNat_lt
    have two := second.toNat_lt
    simp only [encode, List.forall_mem_cons, pad, List.not_mem_nil, false_implies, implies_true,
      and_true]
    exact ⟨digit_ascii (by omega), digit_ascii (by omega), digit_ascii (by omega)⟩
  | case4 first second third rest inductionHypothesis =>
    have one := first.toNat_lt
    have two := second.toNat_lt
    have three := third.toNat_lt
    rw [encode]
    simp only [encodeGroup, List.forall_mem_append, List.forall_mem_cons, List.not_mem_nil,
      false_implies, implies_true, and_true]
    exact ⟨⟨digit_ascii (by omega), digit_ascii (by omega), digit_ascii (by omega),
      digit_ascii (by omega)⟩, inductionHypothesis⟩

end Base64

end Saysion
