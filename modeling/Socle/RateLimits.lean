import Mathlib.Algebra.Order.Ring.Rat
import Socle.Procedures
import Socle.PythonText
import Socle.Valkey

/-!
The limiter of the authentication routes: `enforce_rate_limit` counts a call under
the key of its client address and of each identifier it bears, in this order, and
refuses it at the first counter that overflows.
-/

namespace Socle.RateLimits

open Socle.Procedures Socle.PythonText Socle.Valkey

/-- The settings of the limiter. -/
structure Settings where
  authRateLimitAttempts : Int := 10
  authRateLimitWindowSeconds : Int := 300

/-- What the keys are made with: `str.lower`, and the truncated SHA-256 of a text
in UTF-8. -/
structure Hashing (D : Type) where
  lower : Str → Str
  digest : Str → D

/-- `f"rl:{scope}:{digest}"`. -/
structure Key (D : Type) where
  scope : String
  digest : D
  deriving DecidableEq

inductive Raised where
  | tooManyRequests
  | unicodeEncodeError
  deriving DecidableEq, Repr

/-- A call: its scope, `request.client.host` and the identifiers. -/
structure Call where
  scope : String
  client : Option Str := none
  identifiers : List Str := []
  deriving DecidableEq

variable {D : Type}

/-- UTF-8 has no code for a lone surrogate. -/
def encodable (text : Str) : Bool := text.all fun c => !isHigh c && !isLow c

/-- `_key`. -/
def key (hashing : Hashing D) (scope : String) (identifier : Str) : Except Raised (Key D) :=
  if encodable (hashing.lower identifier) then
    .ok ⟨scope, hashing.digest (hashing.lower identifier)⟩
  else .error .unicodeEncodeError

/-- `client_ip`. -/
def Call.clientIp (call : Call) : Str := call.client.getD (ofString "unknown")

/-- The texts a call is counted under. -/
def Call.subjects (call : Call) : List Str :=
  call.clientIp :: call.identifiers.filter fun identifier => identifier ≠ []

/-- The keys of a call. -/
def keys (hashing : Hashing D) (call : Call) : Except Raised (List (Key D)) :=
  call.subjects.mapM (key hashing call.scope)

section Keys

variable {hashing : Hashing D} {scope : String} {subjects : List Str} {ks : List (Key D)}

theorem key_congr {text subject : Str} (h : hashing.lower text = hashing.lower subject) :
    key hashing scope text = key hashing scope subject := by
  unfold key
  rw [h]

theorem eq_of_key_eq_ok {text : Str} {k : Key D} (h : key hashing scope text = .ok k) :
    k = ⟨scope, hashing.digest (hashing.lower text)⟩ := by
  unfold key at h
  split at h
  · exact (Except.ok.inj h).symm
  · cases h

theorem mem_keys (h : subjects.mapM (key hashing scope) = .ok ks) {text : Str}
    (htext : text ∈ subjects) : ∃ k ∈ ks, key hashing scope text = .ok k := by
  induction subjects generalizing ks with
  | nil => cases htext
  | cons subject subjects ih =>
      rw [List.mapM_cons] at h
      obtain ⟨k, hk, h⟩ := bind_eq_ok.mp h
      obtain ⟨rest, hrest, h⟩ := bind_eq_ok.mp h
      cases h
      rcases List.mem_cons.mp htext with rfl | htext
      · exact ⟨k, List.mem_cons_self, hk⟩
      · obtain ⟨k', hk', hkey⟩ := ih hrest htext
        exact ⟨k', List.mem_cons_of_mem _ hk', hkey⟩

theorem of_mem_keys (h : subjects.mapM (key hashing scope) = .ok ks) {k : Key D} (hk : k ∈ ks) :
    ∃ text ∈ subjects, key hashing scope text = .ok k := by
  induction subjects generalizing ks with
  | nil =>
      cases h
      cases hk
  | cons subject subjects ih =>
      rw [List.mapM_cons] at h
      obtain ⟨first, hfirst, h⟩ := bind_eq_ok.mp h
      obtain ⟨rest, hrest, h⟩ := bind_eq_ok.mp h
      cases h
      rcases List.mem_cons.mp hk with rfl | hk
      · exact ⟨subject, List.mem_cons_self, hfirst⟩
      · obtain ⟨text, htext, hkey⟩ := ih hrest hk
        exact ⟨text, List.mem_cons_of_mem _ htext, hkey⟩

end Keys

/-- The commands of the limiter. -/
abbrev limiter (K : Type) : Interface := ⟨Command K ℚ, Valkey.Answer⟩

abbrev Act (K α : Type) := Proc (limiter K) Raised α

def command {K : Type} (c : Command K ℚ) : Act K (Valkey.Answer c) := request (I := limiter K) c

/-- The loop of `enforce_rate_limit`. -/
def enforceKeys {K : Type} (settings : Settings) : List K → Act K Unit
  | [] => return ()
  | k :: rest => do
      let count ← command (.incrBy k 1)
      if count = 1 then
        command (.expire k settings.authRateLimitWindowSeconds)
      if settings.authRateLimitAttempts < count then
        throw .tooManyRequests
      enforceKeys settings rest

/-- `enforce_rate_limit`. -/
def enforceRateLimit (hashing : Hashing D) (settings : Settings) (call : Call) :
    Act (Key D) Unit := do
  let ks ← Proc.ofExcept (keys hashing call)
  enforceKeys settings ks

/-- The routes that are limited. -/
def login (client : Option Str) (email : Str) : Call := ⟨"login", client, [email]⟩

def loginTotp (client : Option Str) (challengeToken : Str) : Call :=
  ⟨"login-totp", client, [challengeToken]⟩

def invitationsAccept (client : Option Str) (token : Str) : Call :=
  ⟨"invitation-accept", client, [token]⟩

end Socle.RateLimits
