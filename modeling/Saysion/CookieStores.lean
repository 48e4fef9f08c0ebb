/-
This file models the two stores that keep a session in its cookie, and proves
what they promise: what one of them writes it reads back, the size bound of the
signed one is exact, and the signed one accepts just the authenticated texts of
one encoded session.

The MAC is a parameter. The stores rely on its tags having their length and
verifying; that nothing else verifies is an assumption of the results that need
it.
-/

import Saysion.Base64
import Saysion.CookieWire

namespace Saysion

open Postcard

/-! ### The unauthenticated store -/

namespace CookieStore

/-- `store_session` -/
def storeSession (expiryCodec : Codec DateTime) (order : ∀ values, Listing values) (heap : Heap)
    (session : Session) : Except Error (Cookie × Heap) :=
  let ((snapshot, revision), captured) := session.persistenceSnapshot heap
  match encodeSession expiryCodec order captured snapshot with
  | none => .error .backend
  | some serialized =>
    .ok (String.ofList (Base64.encode serialized), revision.acknowledge captured)

/-- `load_session`. What follows the session in the bytes is not looked at. -/
def loadSession (expiryCodec : Codec DateTime) (heap : Heap) (cookie : Cookie) (now : DateTime) :
    Except Error (Option (Session × Heap)) :=
  match Base64.decode cookie.toList with
  | none => .error .cookieFormat
  | some serialized =>
    match takeSession expiryCodec serialized with
    | none => .error .backend
    | some (wire, _) =>
      let (session, after) := Session.deserialize heap wire
      .ok (if session.isExpired now then none else some (session, after))

end CookieStore

/-! ### The signed store -/

/-- A message authentication code. -/
structure Mac (Key : Type) where
  tag : Key → List UInt8 → List UInt8
  verify : Key → List UInt8 → List UInt8 → Bool
  length_tag : ∀ key message, (tag key message).length = 32
  verify_tag : ∀ key message, verify key message (tag key message) = true

/-- Key material of the strength that a store asks for. -/
structure SigningKey where
  bytes : List UInt8
  strong : 32 ≤ bytes.length

structure SignedCookieStore where
  signingKey : SigningKey
  fallbackKeys : List SigningKey

namespace SignedCookieStore

/-- `PREFIX` -/
def version : List Char := ['s', '1', '.']

/-- `DOMAIN` -/
def domain : List UInt8 := bytes "saysion:signed-cookie:v1:"

def tagLen : Nat := 32

def maxValueLen : Nat := 3800

def maxBinaryLen : Nat := (maxValueLen - version.length) / 4 * 3

def key (bytes : List UInt8) : Option SigningKey :=
  if strong : 32 ≤ bytes.length then some ⟨bytes, strong⟩ else none

def new (bytes : List UInt8) : Option SignedCookieStore :=
  (key bytes).map fun signingKey => ⟨signingKey, []⟩

/-- The keys a cookie may be signed with: the current one first. -/
def keys (store : SignedCookieStore) : List SigningKey := store.signingKey :: store.fallbackKeys

/-- What is authenticated: `mac` feeds the domain and the payload. -/
def message (payload : List UInt8) : List UInt8 := domain ++ payload

/-- The text of a cookie with a tag and a payload. -/
def text (tag payload : List UInt8) : Cookie :=
  String.ofList (version ++ Base64.encode (tag ++ payload))

/-- `strip_prefix`, strict Base64 and `split_at_checked`: the tag and the payload of a cookie. -/
def parts (cookie : Cookie) : Option (List UInt8 × List UInt8) := do
  if version.isPrefixOf cookie.toList then
    let decoded ← Base64.decode (cookie.toList.drop version.length)
    if tagLen ≤ decoded.length then return (decoded.take tagLen, decoded.drop tagLen) else none
  else none

variable (mac : Mac SigningKey) (expiryCodec : Codec DateTime)

/-- `load_session` -/
def loadSession (store : SignedCookieStore) (heap : Heap) (cookie : Cookie) (now : DateTime) :
    Except Error (Option (Session × Heap)) :=
  if maxValueLen < (bytes cookie).length then .ok none
  else
    match parts cookie with
    | none => .ok none
    | some (tag, payload) =>
      if store.keys.any (fun key => mac.verify key (message payload) tag) then
        match takeSession expiryCodec payload with
        | none => .ok none
        | some (wire, rest) =>
          if rest ≠ [] then .ok none
          else
            let (session, after) := Session.deserialize heap wire
            .ok (if session.isExpired now then none else some (session, after))
      else .ok none

/-- `postcard::to_slice`: the buffer has room for so many bytes. -/
def toSlice (capacity : Nat) (encoded : Option (List UInt8)) : Option (List UInt8) :=
  encoded.filter (·.length ≤ capacity)

/-- `store_session` -/
def storeSession (order : ∀ values, Listing values) (store : SignedCookieStore) (heap : Heap)
    (session : Session) : Except Error (Cookie × Heap) :=
  match session.serializeBounded
      (fun wire => toSlice (maxBinaryLen - tagLen) (encodeWireSession expiryCodec order wire))
      heap with
  | none => .error .backend
  | some ((payload, revision), captured) =>
    .ok (text (mac.tag store.signingKey (message payload)) payload, revision.acknowledge captured)

end SignedCookieStore

/-! ### Texts -/

namespace SignedCookieStore

/-- The parts of a text are those that it was made of. -/
theorem parts_eq_some {cookie : Cookie} {tag payload : List UInt8} :
    parts cookie = some (tag, payload) ↔ cookie = text tag payload ∧ tag.length = tagLen := by
  unfold parts
  constructor
  · intro split
    split at split
    · rename_i versioned
      simp only [Option.bind_eq_bind, Option.bind_eq_some_iff] at split
      obtain ⟨decoded, read, split⟩ := split
      split at split
      · rename_i long
        cases split
        refine ⟨?_, List.length_take_of_le long⟩
        unfold text
        rw [List.take_append_drop, ← Base64.decode_eq_some.mp read]
        obtain ⟨encoded, same⟩ := List.isPrefixOf_iff_prefix.mp versioned
        rw [← same, List.drop_left, same, String.ofList_toList]
      · cases split
    · cases split
  · rintro ⟨rfl, length⟩
    unfold text
    rw [String.toList_ofList, if_pos (List.isPrefixOf_iff_prefix.mpr (List.prefix_append _ _)),
      List.drop_left, Base64.decode_encode]
    simp only [Option.bind_eq_bind, Option.bind_some, Option.pure_def]
    rw [if_pos (by rw [List.length_append, length]; exact Nat.le_add_right _ _), ← length,
      List.take_left, List.drop_left]

/-- The length of a text in bytes. -/
theorem length_text {tag payload : List UInt8} (length : tag.length = tagLen) :
    (bytes (text tag payload)).length = 3 + (32 + payload.length + 2) / 3 * 4 := by
  have ascii : ∀ character ∈ (text tag payload).toList, character.val.toNat < 128 := by
    unfold text
    rw [String.toList_ofList, List.forall_mem_append]
    exact ⟨by simp [version], Base64.encode_ascii _⟩
  rw [length_bytes_of_ascii ascii]
  unfold text
  rw [String.toList_ofList, List.length_append, Base64.length_encode, List.length_append, length]
  rfl

/-- A payload fits the buffer exactly when its text is short enough. -/
theorem fits_iff {tag payload : List UInt8} (length : tag.length = tagLen) :
    payload.length ≤ maxBinaryLen - tagLen ↔
      (bytes (text tag payload)).length ≤ maxValueLen := by
  rw [length_text length]
  show payload.length ≤ 2815 ↔ _ ≤ 3800
  omega

/-! ### Signed cookies -/

variable {mac : Mac SigningKey} {expiryCodec : Codec DateTime} {store : SignedCookieStore}
  {heap after : Heap} {cookie : Cookie} {now : DateTime}

/-- What a store answers with is the text of the session's encoding, if that fits the buffer. -/
theorem storeSession_ok {order : ∀ values, Listing values} {session : Session} :
    store.storeSession mac expiryCodec order heap session = .ok (cookie, after) ↔
      ∃ payload, encodeWireSession expiryCodec order (session.wire heap) = some payload ∧
        payload.length ≤ maxBinaryLen - tagLen ∧
        cookie = text (mac.tag store.signingKey (message payload)) payload ∧
        after = (session.capture heap).1.acknowledge (session.capture heap).2 := by
  unfold storeSession Session.serializeBounded toSlice
  dsimp only
  constructor
  · intro stored
    split at stored
    · cases stored
    · rename_i payload revision captured serialized
      simp only [Option.map_eq_some_iff, Option.filter_eq_some_iff, decide_eq_true_eq] at serialized
      obtain ⟨encoded, ⟨written, fits⟩, same⟩ := serialized
      cases same
      cases stored
      exact ⟨payload, written, fits, rfl, rfl⟩
  · rintro ⟨payload, written, fits, rfl, rfl⟩
    rw [written, Option.filter_some, if_pos (decide_eq_true fits)]
    rfl

/-- A load never fails. -/
theorem loadSession_total (store : SignedCookieStore) (heap : Heap) (cookie : Cookie)
    (now : DateTime) : ∃ outcome, store.loadSession mac expiryCodec heap cookie now = .ok outcome := by
  unfold loadSession
  split
  · exact ⟨_, rfl⟩
  split
  · exact ⟨_, rfl⟩
  split
  · split
    · exact ⟨_, rfl⟩
    · split <;> exact ⟨_, rfl⟩
  · exact ⟨_, rfl⟩

/-- What a load accepts, rejection by rejection. -/
theorem loadSession_some {loaded : Session} :
    store.loadSession mac expiryCodec heap cookie now = .ok (some (loaded, after)) ↔
      (bytes cookie).length ≤ maxValueLen ∧ ∃ tag payload wire, parts cookie = some (tag, payload) ∧
        (∃ key ∈ store.keys, mac.verify key (message payload) tag = true) ∧
        takeSession expiryCodec payload = some (wire, []) ∧
        wire.expiry.any (· < now) = false ∧ (loaded, after) = Session.deserialize heap wire := by
  unfold loadSession
  constructor
  · intro accepted
    split at accepted
    · cases accepted
    rename_i short
    split at accepted
    · cases accepted
    rename_i tag payload split
    split at accepted
    swap
    · cases accepted
    rename_i verified
    split at accepted
    · cases accepted
    rename_i wire rest taken
    split at accepted
    · cases accepted
    rename_i complete
    cases not_not.mp complete
    dsimp only at accepted
    split at accepted
    · cases accepted
    rename_i valid
    cases accepted
    exact ⟨Nat.le_of_not_lt short, tag, payload, wire, split, List.any_eq_true.mp verified, taken,
      Bool.eq_false_iff.mpr valid, rfl⟩
  · rintro ⟨short, tag, payload, wire, split, verified, taken, valid, same⟩
    rw [if_neg (Nat.not_lt_of_ge short), split]
    dsimp only
    rw [if_pos (List.any_eq_true.mpr verified), taken]
    dsimp only
    rw [if_neg (not_not.mpr rfl), same]
    exact congrArg Except.ok (if_neg (Bool.eq_false_iff.mp valid))

end SignedCookieStore

/-- A session that was just decoded has the fields of the wire. -/
theorem Session.wire_deserialize (heap : Heap) (wire : SessionSnapshot) :
    (Session.deserialize heap wire).1.wire (Session.deserialize heap wire).2 = wire := by
  refine congrArg (SessionSnapshot.mk wire.id wire.expiry) ?_
  exact congrArg SessionData.values (Heap.allocCell_self (heap.allocFamily {}) _)

/-- The snapshot of a save has the fields of the session. -/
theorem Session.wire_persistenceSnapshot (heap : Heap) (session : Session) :
    (session.persistenceSnapshot heap).1.1.wire (session.persistenceSnapshot heap).2 =
      session.wire heap := by
  have copied : (session.snapshot heap).2.cells heap.nextCell =
      .ofValues (session.sessionData heap).values := Heap.allocCell_self (heap.allocFamily _) _
  refine congrArg (SessionSnapshot.mk session.id session.expiry) ?_
  show (((session.snapshot heap).2.setCell session.data
    (SessionData.capture ((session.snapshot heap).2.cells session.data))).cells
      heap.nextCell).values = (session.sessionData heap).values
  by_cases same : heap.nextCell = session.data
  · rw [← same, Heap.setCell_self, copied]
    rfl
  · rw [Heap.setCell_of_ne _ _ _ same, copied]
    rfl

/-! ### A cookie of a session with a value and an expiry -/

/-- The start of the year 2100. -/
def newYear : DateTime := 4102444800000000000

/-- The encoding of that instant in UTC by the time library: year, day, time and offset. -/
def sampleExpiry : Codec DateTime where
  encode instant := if instant = newYear then some [232, 32, 1, 0, 0, 0, 0, 0, 0, 0] else none
  take encoded :=
    if [232, 32, 1, 0, 0, 0, 0, 0, 0, 0].isPrefixOf encoded then some (newYear, encoded.drop 10)
    else none
  take_encode := by
    intro instant encoded written rest
    split at written
    · rename_i same
      cases written
      rw [if_pos (List.isPrefixOf_iff_prefix.mpr (List.prefix_append _ _)), same]
      rfl
    · cases written

def sampleWire : SessionSnapshot := ⟨"A", some newYear, (∅ : Values).insert "user_id" "42"⟩

def samplePayload : List UInt8 :=
  [1, 65, 1, 232, 32, 1, 0, 0, 0, 0, 0, 0, 0, 1, 7, 117, 115, 101, 114, 95, 105, 100, 2, 52, 50]

theorem encodeWireSession_sample (order : ∀ values, Listing values) :
    encodeWireSession sampleExpiry order sampleWire = some samplePayload := by
  have entries : (order sampleWire.data).entries = [("user_id", "42")] := Listing.entries_insert _
  have length : ∀ text : String, (bytes text).length < 128 →
      (if (bytes text).length < 2 ^ 64 then some (varint (bytes text).length) else none) =
        some [UInt8.ofNat (bytes text).length] := by
    intro text short
    rw [if_pos (by omega), varint_of_lt short]
  simp only [encodeWireSession, entries, valuesCodec, Codec.list, Codec.option, Codec.text,
    Codec.pair, Codec.usize, Codec.encodeAll, List.length_singleton]
  rw [length _ (by decide), length _ (by decide), length _ (by decide), if_pos (by decide),
    varint_of_lt (by decide)]
  decide

/-- The wire form of a session without values and expiry, but with one byte more for the length of
its id than the encoders take. -/
def longPayload : List UInt8 := [129, 0, 65, 0, 0]

theorem takeSession_long : takeSession sampleExpiry longPayload = some (⟨"A", none, ∅⟩, []) := rfl

theorem encodeWireSession_ne_long (order : ∀ values, Listing values) (wire : SessionSnapshot) :
    encodeWireSession sampleExpiry order wire ≠ some longPayload := by
  intro written
  have taken := takeSession_encodeWireSession written []
  rw [List.append_nil, takeSession_long] at taken
  cases taken
  have entries : (order ∅).entries = [] := Listing.entries_empty _
  have length : (if (bytes "A").length < 2 ^ 64 then some (varint (bytes "A").length) else none) =
      some [1] := by
    rw [if_pos (by decide), varint_of_lt (by decide)]
    rfl
  simp only [encodeWireSession, entries, valuesCodec, Codec.list, Codec.option, Codec.text,
    Codec.usize, Codec.encodeAll, List.length_nil] at written
  rw [length, if_pos (by decide), varint_of_lt (by decide)] at written
  exact absurd written (by decide)

def firstKey : SigningKey := ⟨List.replicate 32 42, by decide⟩

/-- Another key of the same HMAC, which puts zeros behind a short key. -/
def paddedKey : SigningKey := ⟨List.replicate 32 42 ++ [0], by decide⟩

def secondKey : SigningKey := ⟨List.replicate 32 99, by decide⟩

/-- The HMAC-SHA256 tags of the two payloads under the first key; elsewhere a front of the key. -/
def sampleTag (key : SigningKey) (message : List UInt8) : List UInt8 :=
  if key.bytes = firstKey.bytes ∨ key.bytes = paddedKey.bytes then
    if message = SignedCookieStore.message samplePayload then
      [149, 167, 150, 145, 64, 73, 99, 95, 88, 34, 173, 38, 138, 124, 29, 70, 239, 36, 9, 222, 144,
        162, 232, 57, 112, 73, 78, 20, 200, 83, 8, 178]
    else if message = SignedCookieStore.message longPayload then
      [113, 156, 244, 159, 139, 79, 100, 114, 173, 221, 33, 9, 196, 83, 102, 106, 237, 26, 231, 165,
        70, 38, 96, 189, 222, 84, 187, 5, 242, 59, 160, 228]
    else firstKey.bytes
  else key.bytes.take 32

def sampleMac : Mac SigningKey where
  tag := sampleTag
  verify key message tag := tag = sampleTag key message
  length_tag key message := by
    unfold sampleTag
    split
    · split
      · rfl
      · split <;> rfl
    · exact List.length_take_of_le key.strong
  verify_tag _ _ := decide_eq_true rfl

def sampleCookie : Cookie :=
  "s1.laeWkUBJY19YIq0minwdRu8kCd6Qoug5cElOFMhTCLIBQQHoIAEAAAAAAAAAAQd1c2VyX2lkAjQy"

theorem text_sample :
    SignedCookieStore.text (sampleMac.tag firstKey (SignedCookieStore.message samplePayload))
      samplePayload = sampleCookie := by
  decide +kernel

open SignedCookieStore in
/-- What a cookie store writes, it reads back before the expiry with the same id, expiry and
values; a signed cookie is read by every store that has its key, as the current one or among the
fallback keys. The signed store succeeds exactly for the sessions whose complete text is short
enough, and never writes a longer one. -/
theorem cookies_round_trip (mac : Mac SigningKey) (expiryCodec : Codec DateTime)
    (order : ∀ values, Listing values) (heap : Heap) (session : Session) :
    (∀ cookie after, CookieStore.storeSession expiryCodec order heap session = .ok (cookie, after) →
      ∀ later now, session.isExpired now = false →
        ∃ loaded reached, CookieStore.loadSession expiryCodec later cookie now =
          .ok (some (loaded, reached)) ∧ loaded.wire reached = session.wire heap) ∧
    (∀ store cookie after, storeSession mac expiryCodec order store heap session =
        .ok (cookie, after) →
      (bytes cookie).length ≤ maxValueLen ∧
      ∀ reader, store.signingKey ∈ keys reader → ∀ later now, session.isExpired now = false →
        ∃ loaded reached, loadSession mac expiryCodec reader later cookie now =
          .ok (some (loaded, reached)) ∧ loaded.wire reached = session.wire heap) ∧
    ∀ store, (∃ cookie after, storeSession mac expiryCodec order store heap session =
        .ok (cookie, after)) ↔
      ∃ payload, encodeWireSession expiryCodec order (session.wire heap) = some payload ∧
        (bytes (text (mac.tag store.signingKey (message payload)) payload)).length ≤
          maxValueLen := by
  refine ⟨?_, ?_, ?_⟩
  · intro cookie after stored later now valid
    unfold CookieStore.storeSession at stored
    dsimp only at stored
    rw [encodeSession_eq, Session.wire_persistenceSnapshot] at stored
    split at stored
    · cases stored
    rename_i serialized written
    cases stored
    have taken := takeSession_encodeWireSession written []
    rw [List.append_nil] at taken
    refine ⟨_, _, ?_, Session.wire_deserialize later _⟩
    unfold CookieStore.loadSession
    rw [String.toList_ofList, Base64.decode_encode]
    dsimp only
    rw [taken]
    exact congrArg Except.ok (if_neg (Bool.eq_false_iff.mp valid))
  · intro store cookie after stored
    obtain ⟨payload, written, fits, rfl, rfl⟩ := storeSession_ok.mp stored
    have length := mac.length_tag store.signingKey (message payload)
    have short := (fits_iff length).mp fits
    refine ⟨short, fun reader known later now valid => ?_⟩
    have taken := takeSession_encodeWireSession written []
    rw [List.append_nil] at taken
    exact ⟨_, _, loadSession_some.mpr ⟨short, _, payload, session.wire heap,
      parts_eq_some.mpr ⟨rfl, length⟩, ⟨_, known, mac.verify_tag _ _⟩, taken, valid, rfl⟩,
      Session.wire_deserialize _ _⟩
  · intro store
    constructor
    · rintro ⟨cookie, after, stored⟩
      obtain ⟨payload, written, fits, _⟩ := storeSession_ok.mp stored
      exact ⟨payload, written, (fits_iff (mac.length_tag _ _)).mp fits⟩
    · rintro ⟨payload, written, short⟩
      exact ⟨_, _, storeSession_ok.mpr
        ⟨payload, written, (fits_iff (mac.length_tag _ _)).mpr short, rfl, rfl⟩⟩

open SignedCookieStore in
/-- A session with a value and an expiry is stored, and read by a store that has only kept the
key. -/
theorem cookies_round_trip_of_kept_key :
    let session := (Session.new .empty "C" "A").1.setExpiry newYear
    let heap := Session.insertRaw (Session.new .empty "C" "A").2 session "user_id" "42"
    ∃ store after, SignedCookieStore.new (List.replicate 32 42) = some store ∧
      storeSession sampleMac sampleExpiry Listing.sorted store heap session =
        .ok (sampleCookie, after) ∧
      (bytes sampleCookie).length ≤ maxValueLen ∧
      ∃ loaded reached, loadSession sampleMac sampleExpiry ⟨secondKey, [firstKey]⟩ .empty sampleCookie
        0 = .ok (some (loaded, reached)) ∧ loaded.wire reached = sampleWire := by
  intro session heap
  obtain ⟨_, signed, exact_⟩ := cookies_round_trip sampleMac sampleExpiry Listing.sorted heap session
  have wire : session.wire heap = sampleWire := rfl
  rw [wire] at signed exact_
  obtain ⟨cookie, after, stored⟩ := (exact_ ⟨firstKey, []⟩).mpr
    ⟨_, encodeWireSession_sample _, (fits_iff (sampleMac.length_tag _ _)).mp (by decide)⟩
  obtain rfl : cookie = sampleCookie := by
    obtain ⟨payload, written, _, same, _⟩ := storeSession_ok.mp stored
    rw [wire, encodeWireSession_sample] at written
    cases written
    exact same.trans text_sample
  obtain ⟨short, loads⟩ := signed ⟨firstKey, []⟩ _ after stored
  exact ⟨⟨firstKey, []⟩, after, rfl, stored, short,
    loads ⟨secondKey, [firstKey]⟩ (List.mem_cons_of_mem _ List.mem_cons_self) .empty 0 (by decide)⟩

open SignedCookieStore in
/-- Under an ideal MAC a load of the signed store never fails, and it accepts exactly the short texts
of a tag and a payload that one of its keys authenticates, when the payload is one session that has
not expired and nothing else. No other text stands for the same tag and payload, and a tag that none
of the store's keys makes is refused, whatever key made it. -/
theorem signed_cookie_language (mac : Mac SigningKey)
    (ideal : ∀ key message tag, mac.verify key message tag = true → tag = mac.tag key message)
    (expiryCodec : Codec DateTime) (store : SignedCookieStore) (heap : Heap) (cookie : Cookie)
    (now : DateTime) :
    ∃ outcome, loadSession mac expiryCodec store heap cookie now = .ok outcome ∧
      (∀ loaded after, outcome = some (loaded, after) ↔
        (bytes cookie).length ≤ maxValueLen ∧ ∃ tag payload wire,
          cookie = text tag payload ∧ tag.length = tagLen ∧
          (∃ key ∈ store.keys, tag = mac.tag key (message payload)) ∧
          takeSession expiryCodec payload = some (wire, []) ∧
          wire.expiry.any (· < now) = false ∧ (loaded, after) = Session.deserialize heap wire) ∧
      (∀ other tag payload, parts cookie = some (tag, payload) →
        parts other = some (tag, payload) → other = cookie) ∧
      ∀ payload foreign, (∀ key ∈ store.keys,
          mac.tag key (message payload) ≠ mac.tag foreign (message payload)) →
        cookie = text (mac.tag foreign (message payload)) payload → outcome = none := by
  have verifies : ∀ key message tag, mac.verify key message tag = true ↔ tag = mac.tag key message :=
    fun key message tag => ⟨ideal key message tag, fun same => same ▸ mac.verify_tag key message⟩
  have accepts : ∀ loaded after, loadSession mac expiryCodec store heap cookie now =
      .ok (some (loaded, after)) ↔ _ := fun loaded after => loadSession_some
  obtain ⟨outcome, loads⟩ := @loadSession_total mac expiryCodec store heap cookie now
  simp only [loads, Except.ok.injEq, parts_eq_some, verifies] at accepts
  refine ⟨outcome, loads, fun loaded after => ?_, ?_, ?_⟩
  · rw [accepts]
    simp only [and_assoc]
  · intro other tag payload here there
    rw [(parts_eq_some.mp here).1, (parts_eq_some.mp there).1]
  · rintro payload foreign different same
    cases outcome with
    | none => rfl
    | some accepted =>
      obtain ⟨_, tag, read, wire, ⟨made, length⟩, ⟨key, known, authentic⟩, _⟩ :=
        (accepts accepted.1 accepted.2).mp rfl
      have twice : parts cookie = some (mac.tag foreign (message payload), payload) :=
        parts_eq_some.mpr ⟨same, mac.length_tag _ _⟩
      rw [parts_eq_some.mpr ⟨made, length⟩] at twice
      cases twice
      exact absurd authentic.symm (different key known)

open SignedCookieStore in
/-- The cookie of a session with a value and an expiry is accepted under a fallback key. -/
theorem signed_cookie_language_of_fallback :
    ∃ outcome, loadSession sampleMac sampleExpiry ⟨secondKey, [firstKey]⟩ .empty sampleCookie 0 =
        .ok outcome ∧ outcome = some (Session.deserialize .empty sampleWire) := by
  obtain ⟨outcome, loads, accepts, _⟩ := signed_cookie_language sampleMac
    (fun key message tag verified => of_decide_eq_true verified) sampleExpiry
    ⟨secondKey, [firstKey]⟩ .empty sampleCookie 0
  have taken := takeSession_encodeWireSession (encodeWireSession_sample Listing.sorted) []
  have fits : samplePayload.length ≤ maxBinaryLen - tagLen := by decide
  have short := (fits_iff (sampleMac.length_tag firstKey (message samplePayload))).mp fits
  rw [text_sample] at short
  exact ⟨outcome, loads, (accepts _ _).mpr ⟨short, _, samplePayload, sampleWire, text_sample.symm,
    sampleMac.length_tag _ _, ⟨firstKey, List.mem_cons_of_mem _ List.mem_cons_self, rfl⟩, taken,
    by decide, rfl⟩⟩

open SignedCookieStore in
/-- A payload is accepted that no encoder writes, and so is the tag of a key that the store does not
have. -/
theorem signed_cookie_language_is_wider :
    (∃ loaded, loadSession sampleMac sampleExpiry ⟨firstKey, []⟩ .empty
        (text (sampleMac.tag firstKey (message longPayload)) longPayload) 0 = .ok (some loaded) ∧
      ∀ order wire, encodeWireSession sampleExpiry order wire ≠ some longPayload) ∧
    ∃ loaded, loadSession sampleMac sampleExpiry ⟨firstKey, []⟩ .empty
        (text (sampleMac.tag paddedKey (message samplePayload)) samplePayload) 0 = .ok (some loaded) ∧
      paddedKey ∉ keys ⟨firstKey, []⟩ := by
  constructor
  · exact ⟨_, loadSession_some.mpr ⟨(fits_iff (sampleMac.length_tag _ _)).mp (by decide), _, _, _,
      parts_eq_some.mpr ⟨rfl, sampleMac.length_tag _ _⟩,
      ⟨firstKey, List.mem_cons_self, sampleMac.verify_tag _ _⟩, takeSession_long, rfl, rfl⟩,
      encodeWireSession_ne_long⟩
  · have taken := takeSession_encodeWireSession (encodeWireSession_sample Listing.sorted) []
    refine ⟨_, loadSession_some.mpr ⟨(fits_iff (sampleMac.length_tag _ _)).mp (by decide), _, _, _,
      parts_eq_some.mpr ⟨rfl, sampleMac.length_tag _ _⟩,
      ⟨firstKey, List.mem_cons_self, sampleMac.verify_tag _ _⟩, taken, by decide, rfl⟩, ?_⟩
    intro known
    have same : paddedKey = firstKey := List.mem_singleton.mp known
    exact absurd (congrArg (fun key => key.bytes.length) same) (by decide)

end Saysion
