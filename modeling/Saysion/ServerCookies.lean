/-
This file models the cookies of the server-side stores: how they are generated,
and how `id_from_cookie_value` reads one in a buffer of fixed size. Of the texts
a client can send, exactly one stands for each id.

The hash is a parameter, of which the results use only that it is injective on
values of the right size.
-/

import Saysion.Base64
import Saysion.Process
import Saysion.Text

namespace Saysion

/-! ### The decoder -/

/-- What the decoder reports: the length of the text, or that it is not a canonical one. -/
inductive DecodeError
  | invalidLength (length : Nat)
  | malformed
  deriving DecidableEq, Repr

inductive DecodeSliceError
  | decodeError (error : DecodeError)
  | outputSliceTooSmall
  deriving DecidableEq, Repr

namespace Base64

/-- The text of some bytes. -/
def text (value : List UInt8) : String := String.ofList (encode value)

/-- `decode_slice`: the number of bytes that were decoded, and the slice, which was all zeros
before. -/
def decodeSlice (capacity : Nat) (string : String) : Except DecodeSliceError (Nat × List UInt8) :=
  match decode string.toList with
  | none => .error (.decodeError .malformed)
  | some decoded =>
    if capacity < decoded.length then .error .outputSliceTooSmall
    else .ok (decoded.length, decoded ++ List.replicate (capacity - decoded.length) 0)

theorem decode_text {string : String} {value : List UInt8} :
    decode string.toList = some value ↔ string = text value := by
  rw [decode_eq_some]
  constructor
  · intro written
    rw [text, ← written, String.ofList_toList]
  · rintro rfl
    exact String.toList_ofList

theorem text_injective {first second : List UInt8} (same : text first = text second) :
    first = second := by
  have read : decode (text second).toList = some first := decode_text.mpr same.symm
  exact Option.some.inj (read.symm.trans (decode_text.mpr rfl))

theorem length_bytes_text (value : List UInt8) :
    (bytes (text value)).length = (value.length + 2) / 3 * 4 := by
  have list : (text value).toList = encode value := String.toList_ofList
  rw [length_bytes_of_ascii (list ▸ encode_ascii value), list, length_encode]

end Base64

/-! ### Cookies and ids -/

def SERVER_COOKIE_BYTES : Nat := 64

def SERVER_COOKIE_ENCODED_LEN : Nat := (SERVER_COOKIE_BYTES + 2) / 3 * 4

/-- The random bytes of a cookie. -/
structure CookieKey where
  bytes : List UInt8
  length : bytes.length = SERVER_COOKIE_BYTES

/-- `generate_cookie`, given what it draws. -/
def generateCookie (key : List UInt8) : Cookie := Base64.text key

namespace Session

variable (hash : List UInt8 → List UInt8)

/-- `id_from_cookie_value` -/
def idFromCookieValue (string : String) : Except DecodeError Id :=
  let length := (bytes string).length
  if length ≠ SERVER_COOKIE_ENCODED_LEN then .error (.invalidLength length)
  else
    match Base64.decodeSlice SERVER_COOKIE_BYTES string with
    | .error (.decodeError error) => .error error
    | .error .outputSliceTooSmall => .error (.invalidLength length)
    | .ok (decodedLen, decoded) =>
      if decodedLen ≠ SERVER_COOKIE_BYTES then .error (.invalidLength length)
      else .ok (Base64.text (hash decoded))

/-- `Session::new`. An error stands for the panic of `unwrap`. -/
def generate (heap : Heap) (key : CookieKey) : Except DecodeError (Session × Heap) := do
  let cookie := generateCookie key.bytes
  let id ← idFromCookieValue hash cookie
  return Session.new heap cookie id

/-- `regenerate`, with the cookie it generates. -/
def renew (heap : Heap) (session : Session) (key : CookieKey) : Except DecodeError Session := do
  let cookie := generateCookie key.bytes
  let id ← idFromCookieValue hash cookie
  return session.regenerate heap cookie id

variable {hash} {string : String} {id : Id}

/-! ### The language of cookies -/

/-- A text is accepted when it is that of a value of the right size. -/
theorem idFromCookieValue_text (hash : List UInt8 → List UInt8) (key : CookieKey) :
    idFromCookieValue hash (Base64.text key.bytes) = .ok (Base64.text (hash key.bytes)) := by
  have length : (bytes (Base64.text key.bytes)).length = SERVER_COOKIE_ENCODED_LEN := by
    rw [Base64.length_bytes_text, key.length]
    rfl
  have slice : Base64.decodeSlice SERVER_COOKIE_BYTES (Base64.text key.bytes) =
      .ok (SERVER_COOKIE_BYTES, key.bytes) := by
    unfold Base64.decodeSlice
    rw [Base64.decode_text.mpr rfl]
    dsimp only
    rw [if_neg (by rw [key.length]; exact Nat.lt_irrefl _), key.length, Nat.sub_self]
    simp
  unfold idFromCookieValue
  dsimp only
  rw [if_neg (not_not.mpr length), slice]
  exact if_neg (not_not.mpr rfl)

/-- And only then. -/
theorem key_of_idFromCookieValue (accepted : idFromCookieValue hash string = .ok id) :
    ∃ key : CookieKey, string = Base64.text key.bytes := by
  unfold idFromCookieValue Base64.decodeSlice at accepted
  dsimp only at accepted
  split at accepted
  · cases accepted
  · cases decoded : Base64.decode string.toList with
    | none =>
      rw [decoded] at accepted
      cases accepted
    | some value =>
      rw [decoded] at accepted
      dsimp only at accepted
      by_cases large : SERVER_COOKIE_BYTES < value.length
      · rw [if_pos large] at accepted
        cases accepted
      · rw [if_neg large] at accepted
        dsimp only at accepted
        by_cases short : value.length ≠ SERVER_COOKIE_BYTES
        · rw [if_pos short] at accepted
          cases accepted
        · exact ⟨⟨value, not_not.mp short⟩, Base64.decode_text.mp decoded⟩

theorem idFromCookieValue_eq_ok : idFromCookieValue hash string = .ok id ↔
    ∃ key : CookieKey, string = Base64.text key.bytes ∧ id = Base64.text (hash key.bytes) := by
  constructor
  · intro accepted
    obtain ⟨key, rfl⟩ := key_of_idFromCookieValue accepted
    exact ⟨key, rfl, Except.ok.inj (accepted.symm.trans (idFromCookieValue_text hash key))⟩
  · rintro ⟨key, rfl, rfl⟩
    exact idFromCookieValue_text hash key

theorem generate_eq (hash : List UInt8 → List UInt8) (heap : Heap) (key : CookieKey) :
    generate hash heap key =
      .ok (Session.new heap (generateCookie key.bytes) (Base64.text (hash key.bytes))) := by
  unfold generate generateCookie
  dsimp only
  rw [idFromCookieValue_text hash key]
  rfl

theorem renew_eq (hash : List UInt8 → List UInt8) (heap : Heap) (session : Session)
    (key : CookieKey) : renew hash heap session key =
      .ok (session.regenerate heap (generateCookie key.bytes) (Base64.text (hash key.bytes))) := by
  unfold renew generateCookie
  dsimp only
  rw [idFromCookieValue_text hash key]
  rfl

/-- What a process draws is a text of random bytes, under an id that is new. -/
theorem draw_eq_some {process : Process} {cookie : Cookie} :
    process.draw (fun cookie => (idFromCookieValue hash cookie).toOption) cookie = some id ↔
      (∃ key : CookieKey, cookie = generateCookie key.bytes ∧ id = Base64.text (hash key.bytes)) ∧
        id ∉ process.seen := by
  unfold Process.draw
  rw [Option.filter_eq_some_iff]
  refine and_congr (Iff.trans ?_ idFromCookieValue_eq_ok) (by simp)
  show (idFromCookieValue hash cookie).toOption = some id ↔ _
  cases idFromCookieValue hash cookie with
  | error error => simp [Except.toOption]
  | ok accepted => simp [Except.toOption]

end Session

/-! ### The result -/

/-- A server cookie is the canonical text of a value of the right size, its id is the text of the
value's hash, no id has two cookies, and every session is handed out with the cookie of its id. -/
theorem server_cookies_are_exact (hash : List UInt8 → List UInt8)
    (injective : ∀ left right : CookieKey, hash left.bytes = hash right.bytes →
      left.bytes = right.bytes) :
    (∀ string id, Session.idFromCookieValue hash string = .ok id ↔ ∃ value : List UInt8,
      value.length = 64 ∧ string = Base64.text value ∧ id = Base64.text (hash value)) ∧
    (∀ string, (∀ value : List UInt8, value.length = 64 → string ≠ Base64.text value) →
      ∃ error, Session.idFromCookieValue hash string = .error error) ∧
    (∀ first second id, Session.idFromCookieValue hash first = .ok id →
      Session.idFromCookieValue hash second = .ok id → first = second) ∧
    (∀ heap key, ∃ session after, Session.generate hash heap key = .ok (session, after) ∧
      ∃ cookie, session.cookieValue = some cookie ∧
        Session.idFromCookieValue hash cookie = .ok session.id) ∧
    ∀ heap session key, ∃ renewed, Session.renew hash heap session key = .ok renewed ∧
      ∃ cookie, renewed.cookieValue = some cookie ∧
        Session.idFromCookieValue hash cookie = .ok renewed.id := by
  have language : ∀ string id, Session.idFromCookieValue hash string = .ok id ↔
      ∃ value : List UInt8,
        value.length = 64 ∧ string = Base64.text value ∧ id = Base64.text (hash value) := by
    intro string id
    rw [Session.idFromCookieValue_eq_ok]
    constructor
    · rintro ⟨key, written, same⟩
      exact ⟨key.bytes, key.length, written, same⟩
    · rintro ⟨value, length, written, same⟩
      exact ⟨⟨value, length⟩, written, same⟩
  refine ⟨language, fun string other => ?_, fun first second id left right => ?_,
    fun heap key => ?_, fun heap session key => ?_⟩
  · cases read : Session.idFromCookieValue hash string with
    | error error => exact ⟨error, rfl⟩
    | ok id =>
      obtain ⟨value, length, written, _⟩ := (language string id).mp read
      exact absurd written (other value length)
  · obtain ⟨one, rfl, rfl⟩ := Session.idFromCookieValue_eq_ok.mp left
    obtain ⟨two, rfl, same⟩ := Session.idFromCookieValue_eq_ok.mp right
    exact congrArg Base64.text (injective one two (Base64.text_injective same))
  · exact ⟨_, _, Session.generate_eq hash heap key, _, rfl, Session.idFromCookieValue_text hash key⟩
  · exact ⟨_, Session.renew_eq hash heap session key, _, rfl,
      Session.idFromCookieValue_text hash key⟩

/-- The BLAKE3 hash of one value, and any other value itself. -/
def sampleHash (value : List UInt8) : List UInt8 :=
  if value = List.replicate 64 0x7b then
    [44, 198, 89, 103, 231, 229, 90, 238, 80, 26, 150, 71, 30, 197, 171, 90, 204, 240, 168, 251, 29,
      84, 27, 46, 230, 227, 196, 89, 47, 65, 46, 155]
  else value

theorem sampleHash_injective (left right : CookieKey)
    (same : sampleHash left.bytes = sampleHash right.bytes) : left.bytes = right.bytes := by
  have length : ∀ key : CookieKey, key.bytes.length = 64 := fun key => key.length
  unfold sampleHash at same
  split at same <;> split at same
  · rename_i one two
    rw [one, two]
  · have wrong := congrArg List.length same
    rw [length right] at wrong
    cases wrong
  · have wrong := congrArg List.length same
    rw [length left] at wrong
    cases wrong
  · exact same

/-- The cookie of sixty-four equal bytes, and its id. -/
theorem server_cookies_are_exact_on_sample :
    Session.idFromCookieValue sampleHash ("e3t7e3t7e3t7e3t7e3t7e3t7e3t7e3t7e3t7e3t7e3t7" ++
      "e3t7e3t7e3t7e3t7e3t7e3t7e3t7e3t7e3t7e3t7ew==") =
        .ok "LMZZZ+flWu5QGpZHHsWrWszwqPsdVBsu5uPEWS9BLps=" :=
  ((server_cookies_are_exact sampleHash sampleHash_injective).1 _ _).mpr
    ⟨List.replicate 64 0x7b, by decide, by decide +kernel, by decide +kernel⟩

end Saysion
