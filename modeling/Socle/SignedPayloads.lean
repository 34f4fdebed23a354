import Mathlib.Data.Rat.Cast.Order
import Socle.Base64Url
import Socle.JsonRoundTrip

/-!
The signed payloads of `app.auth.tokens`, which carry the state of an OAuth round
trip through the browser, and the two functions that read that state back.
-/

namespace Socle.SignedPayloads

open Socle.PythonText
open Socle.Base64Url
open Socle.PythonJson
open Socle.JsonTokens
open Socle.JsonRoundTrip

variable {F : Type}

/-- The exceptions that leave these functions. -/
inductive PyError where
  | invalidSignedPayload (message : String)
  | valueError
  | unicodeEncodeError
  | typeError
  | attributeError
  | recursionError
  deriving DecidableEq, Repr

/-- HMAC-SHA256 under the master key, the floats of the interpreter, and the levels
of nesting its JSON encoder and decoder go down. -/
structure Platform (F : Type) where
  hmac : Bytes → Bytes
  digest_size : ∀ message, (hmac message).length = 32
  floats : Floats F
  encodeDepth : Nat
  decodeDepth : Nat

def asPyError : Failure → PyError
  | .valueError => .valueError
  | .recursionError => .recursionError

/-- `isinstance(value, int)`: a `bool` is an `int`. -/
def asInt : Json F → Option Int
  | .int i => some i
  | .bool b => some (if b then 1 else 0)
  | _ => none

def dot : CodePoint := 46

def expKey : Str := ofString "exp"

section Tokens

variable (p : Platform F)

def b64decode (data : Str) : Option Bytes := urlsafeB64decode (data ++ padding data)

def signature (payload : Str) : Except PyError Str :=
  match encode payload with
  | some message => .ok (b64encode (p.hmac message))
  | none => .error .unicodeEncodeError

/-- `hmac.compare_digest` on strings. -/
def compareDigest (a b : Str) : Except PyError Bool :=
  if isAscii a && isAscii b then .ok (a == b) else .error .typeError

/-- `int(time.time()) + ttl_seconds`. -/
def expiry (now : ℚ) (ttlSeconds : Int) : Int := now.num.tdiv now.den + ttlSeconds

def signPayload (now : ℚ) (data : List (Str × Json F)) (ttlSeconds : Int) :
    Except PyError Str := do
  let body := setItem expKey (.int (expiry now ttlSeconds)) data
  let text ← (dumps p.floats p.encodeDepth (.dict body)).mapError asPyError
  let some bytes := encode text | throw .unicodeEncodeError
  let payload := b64encode bytes
  let digest ← signature p payload
  return payload ++ dot :: digest

/-- `json.loads(_b64decode(payload))`; both kinds of `ValueError` are caught. -/
def loadPayload (payload : Str) : Except Failure (Json F) :=
  match b64decode payload with
  | some b => loads p.floats p.decodeDepth b
  | none => .error .valueError

/-- The end of `verify_payload`. -/
def checkBody (now : ℚ) : Except Failure (Json F) → Except PyError (List (Str × Json F))
  | .error .valueError => .error (.invalidSignedPayload "Payload signé illisible.")
  | .error .recursionError => .error .recursionError
  | .ok (.dict body) =>
      match (getItem expKey body).bind asInt with
      | none => .error (.invalidSignedPayload "Payload signé expiré.")
      | some expiresAt =>
          if (expiresAt : ℚ) < now then .error (.invalidSignedPayload "Payload signé expiré.")
          else .ok (delItem expKey body)
  -- `list.pop` takes one argument; the other values have no `pop`.
  | .ok (.list _) => .error .typeError
  | .ok _ => .error .attributeError

def verifyPayload (now : ℚ) (signed : Str) : Except PyError (List (Str × Json F)) := do
  let (payload, digest) := partition dot signed
  if payload = [] ∨ digest = [] then
    throw (.invalidSignedPayload "Payload signé malformé.")
  let same ← compareDigest digest (← signature p payload)
  if !same then
    throw (.invalidSignedPayload "Signature invalide.")
  checkBody now (loadPayload p payload)

/-- The error of the flow, which its route turns into an answer, or another
exception. -/
inductive StateError where
  | refused (message : String)
  | raised (e : PyError)
  deriving DecidableEq, Repr

def isValueError : PyError → Bool
  | .invalidSignedPayload _ => true
  | .valueError => true
  | .unicodeEncodeError => true
  | _ => false

def getStr (key : String) (payload : List (Str × Json F)) : Option Str :=
  match getItem (ofString key) payload with
  | some (.str s) => some s
  | _ => none

/-- `parse_state` of `app.auth.oauth`: the host to return to and the nonce. -/
def parseLoginState (now : ℚ) (state provider : Str) : Except StateError (Str × Str) :=
  match verifyPayload p now state with
  | .error e =>
      if isValueError e then .error (.refused "State OAuth invalide ou expiré.")
      else .error (.raised e)
  | .ok payload =>
      if getStr "p" payload ≠ some provider then
        .error (.refused "State OAuth émis pour un autre provider.")
      else
        match getStr "r" payload, getStr "n" payload with
        | some returnHost, some nonce => .ok (returnHost, nonce)
        | _, _ => .error (.refused "State OAuth incomplet.")

/-- `parse_state` of `app.connectors.oauth`. -/
def parseConnectorState (now : ℚ) (state provider : Str) :
    Except StateError (List (Str × Json F)) :=
  match verifyPayload p now state with
  | .error (.invalidSignedPayload _) => .error (.refused "State OAuth invalide ou expiré.")
  | .error e => .error (.raised e)
  | .ok payload =>
      if getStr "p" payload ≠ some provider then
        .error (.refused "State OAuth émis pour un autre provider.")
      else
        match getStr "t" payload, getItem (ofString "c") payload with
        | some _, some (.list _) => .ok payload
        | _, _ => .error (.refused "State OAuth incomplet.")

end Tokens

/-- A dictionary of JSON values: the keys of every dictionary in it are distinct. -/
structure JsonDict (F : Type) where
  entries : List (Str × Json F)
  distinct : Everywhere DistinctKeys (.dict entries)

section Expected

variable (p : Platform F)

/-- What is signed is verified, without its `exp`, until it expires. -/
def RoundTrips (now : ℚ) (data : JsonDict F) (ttlSeconds : Int) : Prop :=
  ∃ signed, signPayload p now data.entries ttlSeconds = .ok signed ∧
    ∀ t : ℚ,
      (t ≤ expiry now ttlSeconds →
        verifyPayload p t signed = .ok (delItem expKey data.entries)) ∧
      (expiry now ttlSeconds < t →
        ∃ message, verifyPayload p t signed = .error (.invalidSignedPayload message))

/-- A string that is verified is a payload and its signature, and the payload is a
JSON object with an expiry that has not passed; any other string is refused, and
both flows turn that into their own refusal. -/
structure EndsCleanly (now : ℚ) (signed : Str) : Prop where
  returns : ∀ body, verifyPayload p now signed = .ok body →
    ∃ payload digest entries expiresAt value, signed = payload ++ dot :: digest ∧
      signature p payload = .ok digest ∧ loadPayload p payload = .ok (.dict entries) ∧
      getItem expKey entries = some value ∧ asInt value = some expiresAt ∧ now ≤ expiresAt ∧
      body = delItem expKey entries
  raises : ∀ e, verifyPayload p now signed = .error e →
    ∃ message, e = .invalidSignedPayload message
  refuses : ∀ message, verifyPayload p now signed = .error (.invalidSignedPayload message) →
    ∀ provider,
      parseLoginState p now signed provider = .error (.refused "State OAuth invalide ou expiré.") ∧
      parseConnectorState p now signed provider =
        .error (.refused "State OAuth invalide ou expiré.")

/-- The body that is signed can be written and read back. -/
structure Writable (body : Json F) : Prop where
  short : Everywhere ShortInt body
  encodes : fits p.encodeDepth body = true
  decodes : fits p.decodeDepth body = true
  unpaired : Everywhere Unpaired body

/-- The payload is an object, or it cannot be read; it is not nested too deep. -/
def LoadsObject (payload : Str) : Prop :=
  loadPayload p payload ≠ .error .recursionError ∧
    ∀ body, loadPayload p payload = .ok body → ∃ entries, body = .dict entries

/-- The part before the first dot has no surrogate, the part after it is ASCII, and
where the second signs the first, the first is readable as an object. -/
def Comparable (signed : Str) : Prop :=
  let payload := (partition dot signed).1
  let digest := (partition dot signed).2
  payload = [] ∨ digest = [] ∨
    (∀ c ∈ payload, isHigh c = false ∧ isLow c = false) ∧ isAscii digest = true ∧
      (signature p payload = .ok digest → LoadsObject p payload)

end Expected

variable {p : Platform F} {now : ℚ}

theorem checkBody_eq_ok {loaded : Except Failure (Json F)} {body : List (Str × Json F)}
    (h : checkBody now loaded = .ok body) :
    ∃ entries expiresAt value, loaded = .ok (.dict entries) ∧
      getItem expKey entries = some value ∧ asInt value = some expiresAt ∧ now ≤ expiresAt ∧
      body = delItem expKey entries := by
  match loaded with
  | .error .valueError => cases h
  | .error .recursionError => cases h
  | .ok (.dict entries) =>
      simp only [checkBody] at h
      split at h
      · cases h
      · rename_i expiresAt hexp
        obtain ⟨value, hvalue, hint⟩ := Option.bind_eq_some_iff.mp hexp
        split at h
        · cases h
        · rename_i hlive
          cases h
          exact ⟨entries, expiresAt, value, rfl, hvalue, hint, not_lt.mp hlive, rfl⟩
  | .ok (.list _) => cases h
  | .ok .null => cases h
  | .ok (.bool _) => cases h
  | .ok (.int _) => cases h
  | .ok (.float _) => cases h
  | .ok (.str _) => cases h

theorem checkBody_raises {loaded : Except Failure (Json F)} :
    (∀ e, checkBody now loaded = .error e → ∃ message, e = .invalidSignedPayload message) ↔
      loaded ≠ .error .recursionError ∧
        ∀ body, loaded = .ok body → ∃ entries, body = .dict entries := by
  constructor
  · intro hall
    refine ⟨?_, ?_⟩
    · rintro rfl
      obtain ⟨message, hmessage⟩ := hall _ rfl
      cases hmessage
    · rintro body rfl
      cases body with
      | dict entries => exact ⟨entries, rfl⟩
      | _ =>
          obtain ⟨message, hmessage⟩ := hall _ rfl
          cases hmessage
  · rintro ⟨hdeep, hdict⟩ e he
    match loaded with
    | .error .valueError =>
        cases he
        exact ⟨_, rfl⟩
    | .error .recursionError => exact absurd rfl hdeep
    | .ok body =>
        obtain ⟨entries, rfl⟩ := hdict body rfl
        simp only [checkBody] at he
        split at he
        · cases he
          exact ⟨_, rfl⟩
        split at he
        · cases he
          exact ⟨_, rfl⟩
        · cases he

theorem signature_ok_iff {payload : Str} :
    (∃ digest, signature p payload = .ok digest) ↔
      ∀ c ∈ payload, isHigh c = false ∧ isLow c = false := by
  unfold signature encode
  by_cases hany : (payload.any fun c => isHigh c || isLow c) = true
  · obtain ⟨c, hc, hsurrogate⟩ := List.any_eq_true.mp hany
    rw [if_pos hany]
    refine ⟨fun ⟨_, h⟩ => (by cases h), fun h => ?_⟩
    rw [(h c hc).1, (h c hc).2] at hsurrogate
    cases hsurrogate
  · rw [if_neg hany]
    refine ⟨fun _ c hc => ?_, fun _ => ⟨_, rfl⟩⟩
    have hnot := List.any_eq_false.mp (Bool.eq_false_iff.mpr hany) c hc
    simpa using hnot

theorem signature_eq_error {payload : Str} {e : PyError} (h : signature p payload = .error e) :
    e = .unicodeEncodeError := by
  unfold signature at h
  split at h
  · cases h
  · cases h
    rfl

theorem isAscii_signature {payload digest : Str} (h : signature p payload = .ok digest) :
    isAscii digest = true := by
  unfold signature at h
  split at h
  · cases h
    exact isAscii_b64encode _
  · cases h

theorem signature_ne_nil {payload digest : Str} (h : signature p payload = .ok digest) :
    digest ≠ [] := by
  unfold signature at h
  split at h
  · rename_i message _
    cases h
    refine b64encode_ne_nil fun hnil => ?_
    have hsize := p.digest_size message
    rw [hnil] at hsize
    cases hsize
  · cases h

theorem verifyPayload_eq {signed payload digest : Str}
    (hparts : partition dot signed = (payload, digest)) :
    verifyPayload p now signed =
      if payload = [] ∨ digest = [] then
        .error (.invalidSignedPayload "Payload signé malformé.")
      else
        match signature p payload with
        | .error e => .error e
        | .ok expected =>
            if isAscii digest then
              if digest = expected then checkBody now (loadPayload p payload)
              else .error (.invalidSignedPayload "Signature invalide.")
            else .error .typeError := by
  unfold verifyPayload
  rw [hparts]
  dsimp only
  split
  · rfl
  cases hsignature : signature p payload with
  | error e => rfl
  | ok expected =>
      by_cases hascii : isAscii digest = true
      · have hcompare : compareDigest digest expected = .ok (digest == expected) :=
          if_pos ((Bool.and_eq_true _ _).mpr ⟨hascii, isAscii_signature hsignature⟩)
        simp only [bind, Except.bind, hcompare]
        rw [if_pos hascii]
        by_cases hsame : digest = expected
        · rw [if_pos hsame, beq_iff_eq.mpr hsame]
          rfl
        · rw [if_neg hsame, beq_eq_false_iff_ne.mpr hsame]
          rfl
      · have hcompare : compareDigest digest expected = .error .typeError :=
          if_neg fun h => hascii ((Bool.and_eq_true _ _).mp h).1
        simp only [bind, Except.bind, hcompare]
        rw [if_neg hascii]

theorem verifyPayload_returns {signed : Str} {body : List (Str × Json F)}
    (h : verifyPayload p now signed = .ok body) :
    ∃ payload digest entries expiresAt value, signed = payload ++ dot :: digest ∧
      signature p payload = .ok digest ∧ loadPayload p payload = .ok (.dict entries) ∧
      getItem expKey entries = some value ∧ asInt value = some expiresAt ∧ now ≤ expiresAt ∧
      body = delItem expKey entries := by
  obtain ⟨payload, digest, hparts⟩ : ∃ payload digest, partition dot signed = (payload, digest) :=
    ⟨_, _, rfl⟩
  rw [verifyPayload_eq hparts] at h
  split at h
  · cases h
  rename_i hparted
  split at h
  · cases h
  rename_i expected hsignature
  split at h
  swap
  · cases h
  split at h
  · rename_i _ hsame
    obtain ⟨entries, expiresAt, value, hloaded, hrest⟩ := checkBody_eq_ok h
    rw [← hsame] at hsignature
    exact ⟨payload, digest, entries, expiresAt, value,
      eq_of_partition hparts (not_or.mp hparted).2, hsignature, hloaded, hrest⟩
  · cases h

theorem verifyPayload_raises {signed : Str} :
    (∀ e, verifyPayload p now signed = .error e →
      ∃ message, e = .invalidSignedPayload message) ↔ Comparable p signed := by
  obtain ⟨payload, digest, hparts⟩ : ∃ payload digest, partition dot signed = (payload, digest) :=
    ⟨_, _, rfl⟩
  have hcomparable : Comparable p signed ↔ payload = [] ∨ digest = [] ∨
      (∀ c ∈ payload, isHigh c = false ∧ isLow c = false) ∧ isAscii digest = true ∧
        (signature p payload = .ok digest → LoadsObject p payload) := by
    simp only [Comparable, hparts]
  rw [hcomparable, ← signature_ok_iff (p := p), verifyPayload_eq hparts]
  by_cases hmalformed : payload = [] ∨ digest = []
  · rw [if_pos hmalformed]
    refine ⟨fun _ => hmalformed.imp_right .inl, fun _ e he => ?_⟩
    cases he
    exact ⟨_, rfl⟩
  obtain ⟨hpayload, hdigest⟩ := not_or.mp hmalformed
  rw [if_neg hmalformed, or_iff_right hpayload, or_iff_right hdigest]
  cases hsignature : signature p payload with
  | error e =>
      have he := signature_eq_error hsignature
      subst he
      refine ⟨fun hall => ?_, fun ⟨⟨_, h⟩, _⟩ => (by cases h)⟩
      obtain ⟨message, hmessage⟩ := hall _ rfl
      cases hmessage
  | ok expected =>
      dsimp only
      by_cases hascii : isAscii digest = true
      · rw [if_pos hascii]
        by_cases hsame : digest = expected
        · rw [if_pos hsame, checkBody_raises]
          subst hsame
          exact ⟨fun h => ⟨⟨_, rfl⟩, hascii, fun _ => h⟩, fun h => h.2.2 rfl⟩
        · rw [if_neg hsame]
          refine ⟨fun _ => ⟨⟨_, rfl⟩, hascii, fun h => ?_⟩, fun _ e he => ?_⟩
          · injection h with h
            exact absurd h.symm hsame
          · cases he
            exact ⟨_, rfl⟩
      · rw [if_neg hascii]
        refine ⟨fun hall => ?_, fun h => absurd h.2.1 hascii⟩
        obtain ⟨message, hmessage⟩ := hall _ rfl
        cases hmessage

theorem refuses_invalid {signed : Str} {message : String}
    (h : verifyPayload p now signed = .error (.invalidSignedPayload message)) (provider : Str) :
    parseLoginState p now signed provider = .error (.refused "State OAuth invalide ou expiré.") ∧
      parseConnectorState p now signed provider =
        .error (.refused "State OAuth invalide ou expiré.") := by
  unfold parseLoginState parseConnectorState
  rw [h]
  exact ⟨rfl, rfl⟩

/-- Whatever the string, `verify_payload` ends as expected exactly when the string
is `Comparable`. -/
theorem endsCleanly_iff (signed : Str) : EndsCleanly p now signed ↔ Comparable p signed := by
  constructor
  · exact fun h => verifyPayload_raises.mp h.raises
  · exact fun h => ⟨fun _ => verifyPayload_returns, verifyPayload_raises.mpr h,
      fun _ hinvalid provider => refuses_invalid hinvalid provider⟩

/-- The body that is signed. -/
def stamped (now : ℚ) (data : JsonDict F) (ttlSeconds : Int) : List (Str × Json F) :=
  setItem expKey (.int (expiry now ttlSeconds)) data.entries

theorem dot_not_mem_b64encode (data : Bytes) : dot ∉ b64encode data := by
  intro h
  obtain ⟨v, hv, hsymbol⟩ := mem_b64encode h
  have hnone : sextet dot = none := by decide
  rw [hsymbol, sextet_symbol hv] at hnone
  cases hnone

theorem encode_dumps {body : Json F} {text : Str}
    (h : dumps p.floats p.encodeDepth body = .ok text) :
    text ≠ [] ∧ encode text = some (asciiBytes text) := by
  have hreads := reads_dumps h 0
  obtain ⟨c, rest, htext, -⟩ := hreads.starts
  refine ⟨?_, encode_ascii hreads.printable.isAscii⟩
  rw [htext]
  exact List.cons_ne_nil c rest

theorem signPayload_eq {data : List (Str × Json F)} {ttlSeconds : Int} {text : Str}
    (h : dumps p.floats p.encodeDepth
      (.dict (setItem expKey (.int (expiry now ttlSeconds)) data)) = .ok text) :
    signPayload p now data ttlSeconds = (signature p (b64encode (asciiBytes text))).map
      fun digest => b64encode (asciiBytes text) ++ dot :: digest := by
  simp only [signPayload, h, Except.mapError, (encode_dumps h).2, bind, Except.bind]
  cases signature p (b64encode (asciiBytes text)) <;> rfl

theorem exists_dumps_of_signPayload {data : List (Str × Json F)} {ttlSeconds : Int} {signed : Str}
    (h : signPayload p now data ttlSeconds = .ok signed) :
    ∃ text, dumps p.floats p.encodeDepth
      (.dict (setItem expKey (.int (expiry now ttlSeconds)) data)) = .ok text := by
  cases hdumps : dumps p.floats p.encodeDepth
      (.dict (setItem expKey (.int (expiry now ttlSeconds)) data)) with
  | ok text => exact ⟨text, rfl⟩
  | error e =>
      simp only [signPayload, hdumps, Except.mapError, bind, Except.bind] at h
      cases h

theorem signature_b64encode (data : Bytes) : ∃ digest, signature p (b64encode data) = .ok digest := by
  refine signature_ok_iff.mpr fun c hc => ?_
  have hascii := of_decide_eq_true (List.all_eq_true.mp (isAscii_b64encode data) c hc)
  constructor
  · refine Bool.eq_false_iff.mpr fun h => ?_
    have := isHigh_iff.mp h
    omega
  · refine Bool.eq_false_iff.mpr fun h => ?_
    have := isLow_iff.mp h
    omega

theorem loadPayload_dumps {body : Json F} {text : Str}
    (h : dumps p.floats p.encodeDepth body = .ok text) :
    loadPayload p (b64encode (asciiBytes text)) =
      if fits p.decodeDepth body then .ok (normalize body) else .error .recursionError := by
  unfold loadPayload b64decode
  rw [urlsafeB64decode_b64encode]
  exact loads_dumps h p.decodeDepth

theorem verifyPayload_signed {text digest : Str} (htext : text ≠ [])
    (hdigest : signature p (b64encode (asciiBytes text)) = .ok digest) (t : ℚ) :
    verifyPayload p t (b64encode (asciiBytes text) ++ dot :: digest) =
      checkBody t (loadPayload p (b64encode (asciiBytes text))) := by
  have hpayload : b64encode (asciiBytes text) ≠ [] :=
    b64encode_ne_nil fun hnil => htext (List.map_eq_nil_iff.mp hnil)
  rw [verifyPayload_eq (partition_append (dot_not_mem_b64encode _) digest),
    if_neg (not_or.mpr ⟨hpayload, signature_ne_nil hdigest⟩), hdigest]
  dsimp only
  rw [if_pos (isAscii_signature hdigest), if_pos rfl]

theorem verifyPayload_signPayload {data : JsonDict F} {ttlSeconds : Int} {text : Str}
    (h : dumps p.floats p.encodeDepth (.dict (stamped now data ttlSeconds)) = .ok text) :
    ∃ signed, signPayload p now data.entries ttlSeconds = .ok signed ∧
      ∀ t, verifyPayload p t signed = checkBody t
        (if fits p.decodeDepth (.dict (stamped now data ttlSeconds)) then
          .ok (normalize (.dict (stamped now data ttlSeconds))) else .error .recursionError) := by
  obtain ⟨digest, hdigest⟩ := signature_b64encode (p := p) (asciiBytes text)
  refine ⟨b64encode (asciiBytes text) ++ dot :: digest, ?_, fun t => ?_⟩
  · rw [signPayload_eq h, hdigest]
    rfl
  · rw [verifyPayload_signed (encode_dumps h).1 hdigest, loadPayload_dumps h]

theorem everywhere_dict {P : Json F → Prop} {entries : List (Str × Json F)}
    (h : Everywhere P (.dict entries)) {entry : Str × Json F} (hentry : entry ∈ entries) :
    Everywhere P entry.2 :=
  (everywhere_iff.mp h).2 _ (List.mem_map_of_mem hentry)

theorem distinct_stamped (data : JsonDict F) (ttlSeconds : Int) :
    Everywhere DistinctKeys (.dict (stamped now data ttlSeconds)) := by
  have hkeys : (data.entries.map Prod.fst).Nodup := (everywhere_iff.mp data.distinct).1
  refine everywhere_iff.mpr ⟨nodup_setItem hkeys, fun w hw => ?_⟩
  obtain ⟨entry, hentry, rfl⟩ := List.mem_map.mp hw
  rcases mem_setItem hentry with hold | rfl
  · exact everywhere_dict data.distinct hold
  · exact everywhere_iff.mpr ⟨trivial, by simp [children]⟩

theorem unpaired_stamped {data : JsonDict F} {ttlSeconds : Int}
    (h : Everywhere Unpaired (.dict (delItem expKey data.entries))) :
    Everywhere Unpaired (.dict (stamped now data ttlSeconds)) := by
  have hkeys : (data.entries.map Prod.fst).Nodup := (everywhere_iff.mp data.distinct).1
  have hexp : PairFree expKey := by
    have hjoin : joinPairs expKey = expKey := by decide
    rw [← hjoin]
    exact pairFree_joinPairs expKey
  refine everywhere_iff.mpr ⟨fun entry hentry => ?_, fun w hw => ?_⟩
  · rcases mem_setItem_cases hkeys hentry with rfl | hkept
    · exact hexp
    · exact (everywhere_iff.mp h).1 entry hkept
  · obtain ⟨entry, hentry, rfl⟩ := List.mem_map.mp hw
    rcases mem_setItem_cases hkeys hentry with rfl | hkept
    · exact everywhere_iff.mpr ⟨trivial, by simp [children]⟩
    · exact everywhere_dict h hkept

theorem unpaired_delItem {entries : List (Str × Json F)} (h : Everywhere Unpaired (.dict entries))
    (key : Str) : Everywhere Unpaired (.dict (delItem key entries)) := by
  refine everywhere_iff.mpr ⟨fun entry hentry => ?_, fun w hw => ?_⟩
  · exact (everywhere_iff.mp h).1 entry (List.mem_of_mem_filter hentry)
  · obtain ⟨entry, hentry, rfl⟩ := List.mem_map.mp hw
    exact everywhere_dict h (List.mem_of_mem_filter hentry)

theorem checkBody_stamped (data : JsonDict F) (ttlSeconds : Int) (t : ℚ) :
    checkBody t (.ok (.dict (stamped now data ttlSeconds))) =
      if (expiry now ttlSeconds : ℚ) < t then
        .error (.invalidSignedPayload "Payload signé expiré.")
      else .ok (delItem expKey data.entries) := by
  have hexp : (getItem expKey (stamped now data ttlSeconds)).bind asInt =
      some (expiry now ttlSeconds) := by
    rw [stamped, getItem_setItem]
    rfl
  simp only [checkBody, hexp]
  rw [stamped, delItem_setItem]

/-- A dictionary survives the round trip exactly when its body can be written and
read back. -/
theorem roundTrips_iff (data : JsonDict F) (ttlSeconds : Int) :
    RoundTrips p now data ttlSeconds ↔ Writable p (.dict (stamped now data ttlSeconds)) := by
  constructor
  · rintro ⟨signed, hsign, hverify⟩
    obtain ⟨text, htext⟩ := exists_dumps_of_signPayload hsign
    obtain ⟨hencodes, hshort⟩ := dumps_ok_iff.mp ⟨text, htext⟩
    obtain ⟨signed', hsign', hcheck⟩ := verifyPayload_signPayload htext
    cases hsign.symm.trans hsign'
    have hend := ((hverify (expiry now ttlSeconds)).1 (le_refl _)).symm.trans (hcheck _)
    cases hdecodes : fits p.decodeDepth (.dict (stamped now data ttlSeconds)) with
    | false =>
        rw [hdecodes] at hend
        cases hend
    | true =>
        rw [hdecodes, if_pos rfl] at hend
        obtain ⟨entries, -, -, hloaded, -, -, -, hbody⟩ := checkBody_eq_ok hend.symm
        injection hloaded with hloaded
        refine ⟨hshort, hencodes, hdecodes, unpaired_stamped ?_⟩
        rw [hbody]
        refine unpaired_delItem ?_ expKey
        rw [← hloaded]
        exact unpaired_normalize _
  · rintro ⟨hshort, hencodes, hdecodes, hunpaired⟩
    obtain ⟨text, htext⟩ := dumps_ok_iff.mpr ⟨hencodes, hshort⟩
    obtain ⟨signed, hsign, hcheck⟩ := verifyPayload_signPayload htext
    rw [hdecodes, if_pos rfl, normalize_eq_self hunpaired (distinct_stamped data ttlSeconds)]
      at hcheck
    refine ⟨signed, hsign, fun t => ⟨fun ht => ?_, fun ht => ?_⟩⟩
    · rw [hcheck, checkBody_stamped, if_neg (not_lt.mpr ht)]
    · rw [hcheck, checkBody_stamped, if_pos ht]
      exact ⟨_, rfl⟩

/-- Signed states round trip and fail in one way only, exactly under these
conditions. -/
theorem signed_states (p : Platform F) :
    (∀ now data ttlSeconds, RoundTrips p now data ttlSeconds ↔
      Writable p (.dict (stamped now data ttlSeconds))) ∧
    ∀ now signed, EndsCleanly p now signed ↔ Comparable p signed :=
  ⟨fun _ => roundTrips_iff, fun _ => endsCleanly_iff⟩

/-- A platform without floats, under a constant digest. -/
def plainPlatform : Platform Empty where
  hmac _ := List.replicate 32 0
  digest_size _ := rfl
  floats := ⟨Empty.elim, fun _ => .nan, nofun, nofun⟩
  encodeDepth := 100
  decodeDepth := 100

/-- `compare_digest` raises `TypeError` before it compares. -/
theorem accented_signature_raises : ¬ EndsCleanly plainPlatform 0 (ofString "x.é") := by
  intro h
  have hraises : verifyPayload plainPlatform 0 (ofString "x.é") = .error .typeError := rfl
  obtain ⟨message, hmessage⟩ := h.raises _ hraises
  cases hmessage

end Socle.SignedPayloads
