import Socle.KeyedTable
import Socle.SecondFactor

/-!
The life of a TOTP enrolment: a secret is provisioned, a first code activates it
and gives the recovery codes, codes are verified, the password switches it off.
The operations run one at a time and a failed one is rolled back.
-/

namespace Socle.TotpEnrolment

open Socle.KeyedTable
open Socle.Procedures (bind_eq_ok)
open Socle.DirectoryStore (Instant)
open Socle.SecondFactor (UserCredentials RecoveryCode Failure decryptTotpSecret matchingCounter
  window interval)

/-- A row of `user_credentials`. -/
structure Credentials extends UserCredentials where
  passwordHash : Option String
  deriving DecidableEq

/-- The primary key. -/
def Credentials.key (c : Credentials) : Nat := c.userId

/-- `UserCredentials(user_id=...)`, with the defaults of the columns. -/
def Credentials.new (userId : Nat) : Credentials where
  userId := userId
  totpSecretEncrypted := none
  totpEnabled := false
  totpLastCounter := none
  passwordHash := none

structure Tables where
  credentials : List Credentials
  recoveryCodes : List RecoveryCode
  deriving DecidableEq

namespace Tables

/-- `session.get(UserCredentials, user_id)`. -/
def get (t : Tables) (userId : Nat) : Option Credentials :=
  lookup Credentials.key userId t.credentials

/-- The row is inserted, or updated when there is one. -/
def put (t : Tables) (credentials : Credentials) : Tables :=
  { t with credentials := upsert Credentials.key credentials t.credentials }

def codesOf (t : Tables) (userId : Nat) : List RecoveryCode :=
  t.recoveryCodes.filter fun r => r.userId = userId

/-- The keys and the hashes of the recovery codes are unique. -/
def addAll (t : Tables) (codes : List RecoveryCode) : Except Failure Tables :=
  let after := t.recoveryCodes ++ codes
  if (after.map fun r => r.id).Nodup ∧ (after.map fun r => r.codeHash).Nodup then
    .ok { t with recoveryCodes := after }
  else .error .databaseError

def setUsed (t : Tables) (recoveryCodeId : Nat) (usedAt : Instant) : Tables :=
  { t with recoveryCodes := t.recoveryCodes.map fun r =>
      if r.id = recoveryCodeId then { r with usedAt := some usedAt } else r }

def deleteCodes (t : Tables) (userId : Nat) : Tables :=
  { t with recoveryCodes := t.recoveryCodes.filter fun r => r.userId ≠ userId }

end Tables

/-- The password hasher and the settings of the second factor; the one-time code
is any function of a secret and a counter. -/
structure Environment extends SecondFactor.Environment where
  hashPassword : String → String
  verifyPassword : String → String → Bool

/-- What one operation draws: its clock readings, the secret and the random codes,
the encryption with its nonce, new primary keys. -/
structure Draw where
  now : Instant
  usedAt : Instant
  randomBase32 : String
  encrypt : String → String
  tokenHex : Nat → String
  uuid : Nat → Nat

/-- What the operations decide about one user, recorded beside the tables: the
program stores neither the past enrolments nor the counters they accepted. -/
inductive Event where
  | enrolled
  | accepted (counter : Int) (now : Instant)
  deriving DecidableEq

/-- What an operation leaves and returns. -/
structure Outcome (α : Type) where
  tables : Tables
  events : List Event
  value : α

def recoveryCodeCount : Nat := 8

def setPassword (env : Environment) (userId : Nat) (password : String) (t : Tables) :
    Except Failure (Outcome Unit) :=
  let credentials := (t.get userId).getD (.new userId)
  let tables := t.put { credentials with passwordHash := some (env.hashPassword password) }
  .ok ⟨tables, [], ()⟩

/-- The secret goes to the user. -/
def setupTotp (draw : Draw) (userId : Nat) (t : Tables) : Except Failure (Outcome String) := do
  let credentials := (t.get userId).getD (.new userId)
  if credentials.totpEnabled then
    throw (.authError "Le TOTP est déjà activé.")
  let secret := draw.randomBase32
  let tables := t.put { credentials with
    totpSecretEncrypted := some (draw.encrypt secret), totpLastCounter := none }
  return ⟨tables, [.enrolled], secret⟩

/-- `_verify_totp_code`: the counter it accepts, to be stored. -/
def verifyTotpCode (env : Environment) (credentials : Credentials) (code : String)
    (now : Instant) : Except Failure (Option Int) := do
  let secret ← decryptTotpSecret env.toEnvironment credentials.toUserCredentials
  let some counter ← matchingCounter env.toEnvironment secret code now | return none
  -- A counter that is not above the last one accepted is a replay.
  if credentials.totpLastCounter.any fun last => decide (counter ≤ last) then
    return none
  return some counter

/-- The recovery codes go to the user. -/
def activateTotp (env : Environment) (draw : Draw) (userId : Nat) (code : String) (t : Tables) :
    Except Failure (Outcome (List String)) := do
  let some credentials := t.get userId
    | throw (.authError "Aucun enrôlement TOTP en cours.")
  if credentials.totpSecretEncrypted.isNone then
    throw (.authError "Aucun enrôlement TOTP en cours.")
  if credentials.totpEnabled then
    throw (.authError "Le TOTP est déjà activé.")
  let some counter ← verifyTotpCode env credentials code draw.now
    | throw (.authError "Code TOTP invalide.")
  let codes := (List.range recoveryCodeCount).map draw.tokenHex
  let rows := (List.range recoveryCodeCount).map fun i =>
    { id := draw.uuid i, userId, codeHash := env.hashToken (draw.tokenHex i), usedAt := none }
  let tables ← (t.put { credentials with
    totpLastCounter := some counter, totpEnabled := true }).addAll rows
  return ⟨tables, [.accepted counter draw.now], codes⟩

def disableTotp (env : Environment) (userId : Nat) (password : String) (t : Tables) :
    Except Failure (Outcome Unit) := do
  let some credentials := t.get userId
    | throw (.authError "Le TOTP n'est pas activé.")
  if !credentials.totpEnabled then
    throw (.authError "Le TOTP n'est pas activé.")
  if !credentials.passwordHash.any fun hash => env.verifyPassword hash password then
    throw (.authError "Mot de passe invalide.")
  let tables := t.put { credentials with
    totpEnabled := false, totpSecretEncrypted := none, totpLastCounter := none }
  return ⟨tables.deleteCodes userId, [], ()⟩

def verifySecondFactor (env : Environment) (draw : Draw) (userId : Nat) (code : String)
    (t : Tables) : Except Failure (Outcome Bool) := do
  let some credentials := t.get userId | return ⟨t, [], false⟩
  if !credentials.totpEnabled then
    return ⟨t, [], false⟩
  if let some counter ← verifyTotpCode env credentials code draw.now then
    let tables := t.put { credentials with totpLastCounter := some counter }
    return ⟨tables, [.accepted counter draw.now], true⟩
  let recovery := t.recoveryCodes.find? fun r =>
    r.userId == userId && r.codeHash == env.hashToken code && r.usedAt.isNone
  let some recovery := recovery | return ⟨t, [], false⟩
  return ⟨t.setUsed recovery.id draw.usedAt, [], true⟩

inductive Operation where
  | setPassword (userId : Nat) (password : String)
  | setupTotp (userId : Nat)
  | activateTotp (userId : Nat) (code : String)
  | disableTotp (userId : Nat) (password : String)
  | verifySecondFactor (userId : Nat) (code : String)
  deriving DecidableEq

def Operation.userId : Operation → Nat
  | setPassword userId _ | setupTotp userId | activateTotp userId _ | disableTotp userId _
  | verifySecondFactor userId _ => userId

/-- The committed tables and the events of the operations that were committed. -/
structure Store where
  tables : Tables
  log : List (Nat × Event)
  deriving DecidableEq

def Outcome.forget {α : Type} (out : Outcome α) : Outcome Unit := ⟨out.tables, out.events, ()⟩

def perform (env : Environment) (draw : Draw) (t : Tables) : Operation → Except Failure (Outcome Unit)
  | .setPassword userId password => setPassword env userId password t
  | .setupTotp userId => (setupTotp draw userId t).map Outcome.forget
  | .activateTotp userId code => (activateTotp env draw userId code t).map Outcome.forget
  | .disableTotp userId password => disableTotp env userId password t
  | .verifySecondFactor userId code =>
      (verifySecondFactor env draw userId code t).map Outcome.forget

namespace Store

/-- No account yet. -/
def empty : Store := ⟨⟨[], []⟩, []⟩

/-- An operation is committed, or rolled back when it fails. -/
def step (env : Environment) (s : Store) (operation : Operation) (draw : Draw) : Store :=
  match perform env draw s.tables operation with
  | .ok out => ⟨out.tables, s.log ++ out.events.map fun e => (operation.userId, e)⟩
  | .error _ => s

def run (env : Environment) (s : Store) (operations : List (Operation × Draw)) : Store :=
  operations.foldl (fun s o => s.step env o.1 o.2) s

def events (s : Store) (userId : Nat) : List Event :=
  s.log.filterMap fun e => if e.1 = userId then some e.2 else none

end Store

/-- The part of the tables that concerns one user. -/
structure Account where
  secret : Option String
  enabled : Bool
  lastCounter : Option Int
  codes : Nat

def Account.off : Account := ⟨none, false, none, 0⟩

def Tables.account (t : Tables) (userId : Nat) : Account :=
  let credentials := (t.get userId).getD (.new userId)
  ⟨credentials.totpSecretEncrypted, credentials.totpEnabled, credentials.totpLastCounter,
    (t.codesOf userId).length⟩

/-- What may happen to an account. -/
inductive Moves : Account → List Event → Account → Prop where
  | stay (a : Account) : Moves a [] a
  | enrol (a : Account) (secret : String) (henabled : a.enabled = false) :
      Moves a [.enrolled] { a with secret := some secret, lastCounter := none }
  | activate (a : Account) {counter : Int} {now : Instant} (henabled : a.enabled = false)
      (hsecret : a.secret.isSome = true) (hnew : ∀ last ∈ a.lastCounter, last < counter)
      (hwindow : counter ∈ window now) :
      Moves a [.accepted counter now]
        { a with lastCounter := some counter, enabled := true, codes := a.codes + recoveryCodeCount }
  | accept (a : Account) {counter : Int} {now : Instant} (henabled : a.enabled = true)
      (hnew : ∀ last ∈ a.lastCounter, last < counter) (hwindow : counter ∈ window now) :
      Moves a [.accepted counter now] { a with lastCounter := some counter }
  | disable (a : Account) (henabled : a.enabled = true) : Moves a [] .off

/-- An operation moves the account of its user and no other. -/
structure Acts (t : Tables) (userId : Nat) (events : List Event) (after : Tables) : Prop where
  own : Moves (t.account userId) events (after.account userId)
  frame : ∀ other, other ≠ userId → after.account other = t.account other

section Tables

variable {t : Tables} {userId other : Nat} {c : Credentials}

theorem get_put (t : Tables) (c : Credentials) : (t.put c).get c.userId = some c :=
  lookup_upsert_self c t.credentials

theorem get_put_of_ne (t : Tables) (hne : other ≠ c.userId) :
    (t.put c).get other = t.get other := by
  have hkey : c.key ≠ other := Ne.symm hne
  exact lookup_upsert_of_ne hkey t.credentials

theorem userId_of_get (h : t.get userId = some c) : c.userId = userId := (mem_of_lookup h).2

theorem userId_getD : ((t.get userId).getD (.new userId)).userId = userId := by
  cases h : t.get userId with
  | none => rfl
  | some c => exact userId_of_get h

theorem account_put (t : Tables) (c : Credentials) : (t.put c).account c.userId =
    ⟨c.totpSecretEncrypted, c.totpEnabled, c.totpLastCounter, (t.codesOf c.userId).length⟩ := by
  unfold Tables.account
  rw [get_put]
  rfl

theorem account_put_of_ne (t : Tables) (hne : other ≠ c.userId) :
    (t.put c).account other = t.account other := by
  unfold Tables.account
  rw [get_put_of_ne t hne]
  rfl

theorem account_of_get (h : t.get userId = some c) : t.account userId =
    ⟨c.totpSecretEncrypted, c.totpEnabled, c.totpLastCounter, (t.codesOf userId).length⟩ := by
  unfold Tables.account
  rw [h]
  rfl

theorem codesOf_setUsed (t : Tables) (recoveryCodeId : Nat) (usedAt : Instant) (userId : Nat) :
    ((t.setUsed recoveryCodeId usedAt).codesOf userId).length = (t.codesOf userId).length := by
  unfold Tables.codesOf Tables.setUsed
  rw [List.filter_map, List.length_map]
  congr 1
  refine List.filter_congr fun r _ => ?_
  simp only [Function.comp_apply]
  split <;> rfl

theorem account_setUsed (t : Tables) (recoveryCodeId : Nat) (usedAt : Instant) (userId : Nat) :
    (t.setUsed recoveryCodeId usedAt).account userId = t.account userId := by
  unfold Tables.account
  rw [codesOf_setUsed]
  rfl

end Tables

section Operations

variable {env : Environment} {draw : Draw} {userId : Nat} {t : Tables} {c : Credentials}

theorem verifyTotpCode_eq_some {code : String} {now : Instant} {counter : Int}
    (h : verifyTotpCode env c code now = .ok (some counter)) :
    (∀ last ∈ c.totpLastCounter, last < counter) ∧ counter ∈ window now := by
  obtain ⟨secret, -, h⟩ := bind_eq_ok.mp h
  obtain ⟨found, hfound, h⟩ := bind_eq_ok.mp h
  cases found with
  | none => cases h
  | some first =>
      dsimp only at h
      split at h
      · cases h
      · rename_i hreplay
        obtain rfl : first = counter := by
          cases h
          rfl
        constructor
        · intro last hlast
          rw [Option.mem_def.mp hlast, Option.any_some, decide_eq_true_eq] at hreplay
          omega
        · unfold matchingCounter at hfound
          split at hfound
          · exact List.mem_of_find?_eq_some (Except.ok.inj hfound)
          · cases hfound

theorem acts_put {events : List Event} (huser : c.userId = userId)
    (hmoves : Moves (t.account userId) events
      ⟨c.totpSecretEncrypted, c.totpEnabled, c.totpLastCounter, (t.codesOf userId).length⟩) :
    Acts t userId events (t.put c) := by
  subst huser
  refine ⟨?_, fun other hne => account_put_of_ne t hne⟩
  rw [account_put]
  exact hmoves

theorem acts_setPassword {password : String} {out : Outcome Unit}
    (h : setPassword env userId password t = .ok out) : Acts t userId out.events out.tables := by
  cases h
  exact acts_put userId_getD (.stay _)

theorem acts_setupTotp {out : Outcome String} (h : setupTotp draw userId t = .ok out) :
    Acts t userId out.events out.tables := by
  unfold setupTotp at h
  dsimp only at h
  split at h
  · cases h
  · rename_i henabled
    cases h
    exact acts_put userId_getD (.enrol _ _ (Bool.not_eq_true _ ▸ henabled))

theorem account_addAll {rows : List RecoveryCode} {after : Tables}
    (h : t.addAll rows = .ok after) (hrows : ∀ r ∈ rows, r.userId = userId) (other : Nat) :
    after.account other = { t.account other with
      codes := (t.account other).codes + if other = userId then rows.length else 0 } := by
  unfold Tables.addAll at h
  dsimp only at h
  split at h
  · cases h
    have hfilter : (rows.filter fun r => r.userId = other).length =
        if other = userId then rows.length else 0 := by
      split
      · rename_i heq
        rw [List.filter_eq_self.mpr fun r hr => decide_eq_true ((hrows r hr).trans heq.symm)]
      · rename_i hne
        rw [List.length_eq_zero_iff, List.filter_eq_nil_iff]
        intro r hr
        rw [decide_eq_true_eq, hrows r hr]
        exact Ne.symm hne
    simp only [Tables.account, Tables.codesOf, List.filter_append, List.length_append, hfilter]
    rfl
  · cases h

theorem activateTotp_eq_ok {code : String} {out : Outcome (List String)}
    (h : activateTotp env draw userId code t = .ok out) :
    ∃ c counter rows, t.get userId = some c ∧ c.totpSecretEncrypted.isSome = true ∧
      c.totpEnabled = false ∧ verifyTotpCode env c code draw.now = .ok (some counter) ∧
      (∀ r ∈ rows, r.userId = userId) ∧ rows.length = recoveryCodeCount ∧
      (t.put { c with totpLastCounter := some counter, totpEnabled := true }).addAll rows =
        .ok out.tables ∧
      out.events = [.accepted counter draw.now] := by
  unfold activateTotp at h
  cases hget : t.get userId with
  | none =>
      rw [hget] at h
      cases h
  | some c =>
      rw [hget] at h
      dsimp only at h
      split at h
      · cases h
      rename_i hsecret
      split at h
      · cases h
      rename_i henabled
      obtain ⟨found, hfound, h⟩ := bind_eq_ok.mp h
      cases found with
      | none => cases h
      | some counter =>
          obtain ⟨after, hafter, h⟩ := bind_eq_ok.mp h
          cases h
          have hsome : c.totpSecretEncrypted.isSome = true := by
            rw [Option.isSome_iff_ne_none]
            simpa using hsecret
          exact ⟨c, counter, _, rfl, hsome, by simpa using henabled, hfound, by simp, by simp,
            hafter, rfl⟩

theorem acts_activateTotp {code : String} {out : Outcome (List String)}
    (h : activateTotp env draw userId code t = .ok out) : Acts t userId out.events out.tables := by
  obtain ⟨c, counter, rows, hget, hsecret, henabled, hfound, hrows, hlength, hafter, hevents⟩ :=
    activateTotp_eq_ok h
  obtain ⟨hnew, hwindow⟩ := verifyTotpCode_eq_some hfound
  obtain rfl := userId_of_get hget
  rw [hevents]
  constructor
  · rw [account_addAll hafter hrows, account_put, account_of_get hget, if_pos rfl, hlength]
    exact .activate ⟨_, _, _, _⟩ henabled hsecret hnew hwindow
  · intro other hne
    rw [account_addAll hafter hrows, if_neg hne, account_put_of_ne]
    · rfl
    · exact hne

theorem account_deleteCodes (t : Tables) (userId other : Nat) :
    (t.deleteCodes userId).account other = { t.account other with
      codes := if other = userId then 0 else (t.account other).codes } := by
  have hcodes : ((t.deleteCodes userId).codesOf other).length =
      if other = userId then 0 else (t.codesOf other).length := by
    unfold Tables.codesOf Tables.deleteCodes
    rw [List.filter_filter]
    split
    · rename_i heq
      rw [List.length_eq_zero_iff, List.filter_eq_nil_iff]
      intro r _
      simp [heq]
    · rename_i hne
      congr 1
      refine List.filter_congr fun r _ => ?_
      by_cases h : r.userId = other
      · simp [h, hne]
      · simp [h]
  unfold Tables.account
  rw [hcodes]
  rfl

theorem acts_disableTotp {password : String} {out : Outcome Unit}
    (h : disableTotp env userId password t = .ok out) : Acts t userId out.events out.tables := by
  unfold disableTotp at h
  cases hget : t.get userId with
  | none =>
      rw [hget] at h
      cases h
  | some c =>
      rw [hget] at h
      dsimp only at h
      split at h
      · cases h
      rename_i henabled
      split at h
      · cases h
      cases h
      obtain rfl := userId_of_get hget
      constructor
      · rw [account_deleteCodes, account_put, account_of_get hget, if_pos rfl]
        exact .disable _ (by simpa using henabled)
      · intro other hne
        rw [account_deleteCodes, if_neg hne, account_put_of_ne]
        · exact hne

theorem verifySecondFactor_cases {code : String} {out : Outcome Bool}
    (h : verifySecondFactor env draw userId code t = .ok out) :
    (out.value = false ∧ out.events = [] ∧ out.tables = t) ∨
    (out.value = true ∧ ∃ c counter, t.get userId = some c ∧ c.totpEnabled = true ∧
      verifyTotpCode env c code draw.now = .ok (some counter) ∧
      out.tables = t.put { c with totpLastCounter := some counter } ∧
      out.events = [.accepted counter draw.now]) ∨
    (out.value = true ∧ out.events = [] ∧ ∃ r ∈ t.recoveryCodes, r.userId = userId ∧
      r.codeHash = env.hashToken code ∧ r.usedAt = none ∧
      out.tables = t.setUsed r.id draw.usedAt) := by
  unfold verifySecondFactor at h
  cases hget : t.get userId with
  | none =>
      rw [hget] at h
      cases h
      exact .inl ⟨rfl, rfl, rfl⟩
  | some c =>
      rw [hget] at h
      dsimp only at h
      split at h
      · cases h
        exact .inl ⟨rfl, rfl, rfl⟩
      rename_i henabled
      obtain ⟨found, hfound, h⟩ := bind_eq_ok.mp h
      cases found with
      | some counter =>
          cases h
          exact .inr (.inl ⟨rfl, c, counter, rfl, by simpa using henabled, hfound, rfl, rfl⟩)
      | none =>
          dsimp only at h
          split at h
          · rename_i r hr
            cases h
            obtain ⟨⟨huser, hhash⟩, hunused⟩ : (r.userId = userId ∧
                r.codeHash = env.hashToken code) ∧ r.usedAt = none := by
              simpa using List.find?_some hr
            exact .inr (.inr ⟨rfl, rfl, r, List.mem_of_find?_eq_some hr, huser, hhash, hunused, rfl⟩)
          · cases h
            exact .inl ⟨rfl, rfl, rfl⟩

theorem acts_verifySecondFactor {code : String} {out : Outcome Bool}
    (h : verifySecondFactor env draw userId code t = .ok out) :
    Acts t userId out.events out.tables := by
  rcases verifySecondFactor_cases h with ⟨-, hevents, htables⟩ |
    ⟨-, c, counter, hget, henabled, hfound, htables, hevents⟩ | ⟨-, hevents, r, -, -, -, -, htables⟩
  · rw [hevents, htables]
    exact ⟨.stay _, fun _ _ => rfl⟩
  · rw [hevents, htables]
    obtain ⟨hnew, hwindow⟩ := verifyTotpCode_eq_some hfound
    have huser : c.userId = userId := userId_of_get hget
    refine acts_put huser ?_
    rw [account_of_get hget]
    exact .accept ⟨_, _, _, _⟩ henabled hnew hwindow
  · rw [hevents, htables]
    refine ⟨?_, fun other _ => account_setUsed t _ _ other⟩
    rw [account_setUsed]
    exact .stay _

/-- An activation that succeeds records the counter it stores, and no other. -/
theorem recorded_of_activated {code : String} {out : Outcome (List String)}
    (h : activateTotp env draw userId code t = .ok out) :
    ∃ counter, out.events = [.accepted counter draw.now] ∧
      (out.tables.account userId).lastCounter = some counter := by
  obtain ⟨c, counter, rows, hget, -, -, -, hrows, -, hafter, hevents⟩ := activateTotp_eq_ok h
  obtain rfl := userId_of_get hget
  refine ⟨counter, hevents, ?_⟩
  rw [account_addAll hafter hrows, account_put]

/-- A second factor that is accepted records the counter it stores, unless a recovery
code is spent. -/
theorem recorded_of_verified {code : String} {out : Outcome Bool}
    (h : verifySecondFactor env draw userId code t = .ok out) (haccepted : out.value = true)
    (hcodes : out.tables.recoveryCodes = t.recoveryCodes) :
    ∃ counter, out.events = [.accepted counter draw.now] ∧
      (out.tables.account userId).lastCounter = some counter := by
  rcases verifySecondFactor_cases h with ⟨hrefused, -, -⟩ |
    ⟨-, c, counter, hget, -, -, htables, hevents⟩ | ⟨-, -, r, hr, -, -, hunused, htables⟩
  · rw [hrefused] at haccepted
    cases haccepted
  · obtain rfl := userId_of_get hget
    refine ⟨counter, hevents, ?_⟩
    rw [htables, account_put]
  · rw [htables, Tables.setUsed] at hcodes
    have hsame : (if r.id = r.id then { r with usedAt := some draw.usedAt } else r) = r :=
      List.map_inj_left.mp (hcodes.trans (List.map_id' _).symm) r hr
    rw [if_pos rfl] at hsame
    rw [← hsame] at hunused
    cases hunused

/-- Only an accepted second factor is recorded. -/
theorem verified_of_recorded {code : String} {out : Outcome Bool}
    (h : verifySecondFactor env draw userId code t = .ok out) (hevents : out.events ≠ []) :
    out.value = true := by
  rcases verifySecondFactor_cases h with ⟨-, hnone, -⟩ | ⟨haccepted, -⟩ | ⟨haccepted, -⟩
  · exact absurd hnone hevents
  · exact haccepted
  · exact haccepted

end Operations

/-- A new enrolment starts with no accepted counter; the last one comes first. -/
def extend : List (List (Int × Instant)) → Event → List (List (Int × Instant))
  | enrolments, .enrolled => [] :: enrolments
  | [], .accepted counter now => [[(counter, now)]]
  | current :: past, .accepted counter now => (current ++ [(counter, now)]) :: past

/-- The counters accepted in each enrolment, with their times, in order. -/
def enrolments (events : List Event) : List (List (Int × Instant)) := events.foldl extend []

/-- The time step of the clock. -/
def timeStep (now : Instant) : Int := now.tdiv 1000000 / interval

/-- Within an enrolment, no time step is accepted twice or far from the clock. -/
structure Ordered (enrolment : List (Int × Instant)) : Prop where
  increasing : enrolment.Pairwise fun a b => a.1 < b.1
  near : ∀ a ∈ enrolment, timeStep a.2 - 1 ≤ a.1 ∧ a.1 ≤ timeStep a.2 + 1

/-- What holds of an account and its enrolments after every run.  As long as there
is a secret, its enrolment is the current one and its last counter is stored. -/
structure Sound (a : Account) (past : List (List (Int × Instant))) : Prop where
  stored : a.enabled = true → a.secret.isSome = true ∧ a.lastCounter.isSome = true
  codes : 0 < a.codes → a.enabled = true
  few : a.codes ≤ recoveryCodeCount
  ordered : ∀ enrolment ∈ past, Ordered enrolment
  last : a.secret.isSome = true → ∀ current ∈ past.head?, ∀ accepted ∈ current,
    ∃ last, a.lastCounter = some last ∧ accepted.1 ≤ last

section Invariant

variable {a b : Account} {past : List (List (Int × Instant))} {counter : Int} {now : Instant}

theorem near_of_mem_window (h : counter ∈ window now) :
    timeStep now - 1 ≤ counter ∧ counter ≤ timeStep now + 1 := by
  unfold window at h
  unfold timeStep
  simp only [List.map_cons, List.map_nil, List.mem_cons, List.not_mem_nil, or_false] at h
  omega

theorem Sound.lt_of_new (h : Sound a past) (hsecret : a.secret.isSome = true)
    (hnew : ∀ last ∈ a.lastCounter, last < counter) {current : List (Int × Instant)}
    (hcurrent : current ∈ past.head?) : ∀ accepted ∈ current, accepted.1 < counter := by
  intro accepted hmem
  obtain ⟨last, hlast, hle⟩ := h.last hsecret current hcurrent accepted hmem
  have hlt := hnew last hlast
  omega

theorem Ordered.append {enrolment : List (Int × Instant)} (h : Ordered enrolment)
    (hlt : ∀ accepted ∈ enrolment, accepted.1 < counter) (hwindow : counter ∈ window now) :
    Ordered (enrolment ++ [(counter, now)]) := by
  constructor
  · refine List.pairwise_append.mpr ⟨h.increasing, List.pairwise_singleton _ _, ?_⟩
    intro accepted hmem new hnew
    rw [List.mem_singleton.mp hnew]
    exact hlt accepted hmem
  · intro accepted hmem
    rcases List.mem_append.mp hmem with hold | hnew
    · exact h.near accepted hold
    · rw [List.mem_singleton.mp hnew]
      exact near_of_mem_window hwindow

theorem ordered_extend_accepted (h : Sound a past) (hsecret : a.secret.isSome = true)
    (hnew : ∀ last ∈ a.lastCounter, last < counter) (hwindow : counter ∈ window now) :
    (∀ enrolment ∈ extend past (.accepted counter now), Ordered enrolment) ∧
      ∀ current ∈ (extend past (.accepted counter now)).head?, ∀ accepted ∈ current,
        accepted.1 ≤ counter := by
  have hempty : Ordered [] := ⟨List.Pairwise.nil, by simp⟩
  cases past with
  | nil =>
      have hone := hempty.append (by simp) hwindow
      exact ⟨by simpa [extend] using hone, by simp [extend]⟩
  | cons current rest =>
      have hlt : ∀ accepted ∈ current, accepted.1 < counter := h.lt_of_new hsecret hnew rfl
      have hgrown := (h.ordered current List.mem_cons_self).append hlt hwindow
      constructor
      · intro enrolment hmem
        rcases List.mem_cons.mp hmem with rfl | hrest
        · exact hgrown
        · exact h.ordered enrolment (List.mem_cons_of_mem _ hrest)
      · intro current' hcurrent' accepted hmem
        obtain rfl := Option.some.inj hcurrent'
        rcases List.mem_append.mp hmem with hold | hlast
        · exact Int.le_of_lt (hlt accepted hold)
        · obtain rfl := List.mem_singleton.mp hlast
          exact Int.le_refl counter

theorem sound_off (h : ∀ enrolment ∈ past, Ordered enrolment) : Sound .off past := by
  refine ⟨?_, ?_, Nat.zero_le _, h, ?_⟩
  · intro hon
    cases hon
  · intro hpos
    cases hpos
  · intro hsome
    cases hsome

theorem sound_of_moves {events : List Event} (hmoves : Moves a events b) (h : Sound a past) :
    Sound b (events.foldl extend past) := by
  cases hmoves with
  | stay => exact h
  | enrol secret henabled =>
      refine ⟨fun hon => ?_, h.codes, h.few, ?_, ?_⟩
      · rw [henabled] at hon
        cases hon
      · intro enrolment hmem
        rcases List.mem_cons.mp hmem with rfl | hold
        · exact ⟨List.Pairwise.nil, by simp⟩
        · exact h.ordered enrolment hold
      · intro _ current hcurrent accepted hmem
        obtain rfl := Option.some.inj hcurrent
        cases hmem
  | activate henabled hsecret hnew hwindow =>
      obtain ⟨hordered, hlast⟩ := ordered_extend_accepted h hsecret hnew hwindow
      have hnone : a.codes = 0 := by
        by_contra hpos
        rw [h.codes (Nat.pos_of_ne_zero hpos)] at henabled
        cases henabled
      refine ⟨fun _ => ⟨hsecret, rfl⟩, fun _ => rfl, ?_, hordered, ?_⟩
      · simp [hnone]
      · exact fun _ current hcurrent accepted hmem => ⟨_, rfl, hlast current hcurrent accepted hmem⟩
  | accept henabled hnew hwindow =>
      obtain ⟨hordered, hlast⟩ := ordered_extend_accepted h (h.stored henabled).1 hnew hwindow
      refine ⟨fun _ => ⟨(h.stored henabled).1, rfl⟩, h.codes, h.few, hordered, ?_⟩
      exact fun _ current hcurrent accepted hmem => ⟨_, rfl, hlast current hcurrent accepted hmem⟩
  | disable henabled => exact sound_off h.ordered

end Invariant

section Runs

variable {env : Environment} {s : Store}

theorem acts_perform {draw : Draw} {t : Tables} {operation : Operation} {out : Outcome Unit}
    (h : perform env draw t operation = .ok out) :
    Acts t operation.userId out.events out.tables := by
  cases operation with
  | setPassword userId password => exact acts_setPassword h
  | disableTotp userId password => exact acts_disableTotp h
  | setupTotp userId =>
      cases hout : setupTotp draw userId t with
      | error e =>
          rw [perform, hout] at h
          cases h
      | ok done =>
          rw [perform, hout] at h
          cases h
          exact acts_setupTotp hout
  | activateTotp userId code =>
      cases hout : activateTotp env draw userId code t with
      | error e =>
          rw [perform, hout] at h
          cases h
      | ok done =>
          rw [perform, hout] at h
          cases h
          exact acts_activateTotp hout
  | verifySecondFactor userId code =>
      cases hout : verifySecondFactor env draw userId code t with
      | error e =>
          rw [perform, hout] at h
          cases h
      | ok done =>
          rw [perform, hout] at h
          cases h
          exact acts_verifySecondFactor hout

theorem moves_step (env : Environment) (s : Store) (operation : Operation) (draw : Draw)
    (userId : Nat) :
    ∃ events, (s.step env operation draw).events userId = s.events userId ++ events ∧
      Moves (s.tables.account userId) events
        ((s.step env operation draw).tables.account userId) := by
  unfold Store.step
  cases hout : perform env draw s.tables operation with
  | error e => exact ⟨[], by simp, .stay _⟩
  | ok out =>
      have hacts := acts_perform hout
      by_cases huser : userId = operation.userId
      · refine ⟨out.events, ?_, huser ▸ hacts.own⟩
        simp [Store.events, List.filterMap_map, huser]
      · refine ⟨[], ?_, ?_⟩
        · simp [Store.events, List.filterMap_map, Ne.symm huser]
        · rw [hacts.frame userId huser]
          exact .stay _

theorem sound_run (operations : List (Operation × Draw)) {userId : Nat}
    (h : Sound (s.tables.account userId) (enrolments (s.events userId))) :
    Sound ((s.run env operations).tables.account userId)
      (enrolments ((s.run env operations).events userId)) := by
  induction operations generalizing s with
  | nil => exact h
  | cons o rest ih =>
      refine ih (s := s.step env o.1 o.2) ?_
      obtain ⟨events, hevents, hmoves⟩ := moves_step env s o.1 o.2 userId
      rw [hevents, enrolments, List.foldl_append]
      exact sound_of_moves hmoves h

/-- What the tables and the record of a run say about one user. -/
structure LifeCycle (s : Store) (userId : Nat) : Prop where
  stored : ∀ c, s.tables.get userId = some c → c.totpEnabled = true →
    c.totpSecretEncrypted.isSome = true ∧ c.totpLastCounter.isSome = true
  codes : s.tables.codesOf userId ≠ [] →
    ∃ c, s.tables.get userId = some c ∧ c.totpEnabled = true
  few : (s.tables.codesOf userId).length ≤ 8
  ordered : ∀ enrolment ∈ enrolments (s.events userId), Ordered enrolment

theorem Sound.lifeCycle {userId : Nat}
    (h : Sound (s.tables.account userId) (enrolments (s.events userId))) : LifeCycle s userId := by
  refine ⟨fun c hget henabled => ?_, fun hcodes => ?_, h.few, h.ordered⟩
  · have hstored := h.stored
    rw [account_of_get hget] at hstored
    exact hstored henabled
  · have henabled := h.codes (List.length_pos_of_ne_nil hcodes)
    cases hget : s.tables.get userId with
    | none =>
        rw [Tables.account, hget] at henabled
        cases henabled
    | some c =>
        rw [account_of_get hget] at henabled
        exact ⟨c, rfl, henabled⟩

theorem setupTotp_enabled {draw : Draw} {userId : Nat} {t : Tables} {c : Credentials}
    (hget : t.get userId = some c) (henabled : c.totpEnabled = true) :
    setupTotp draw userId t = .error (.authError "Le TOTP est déjà activé.") := by
  unfold setupTotp
  rw [hget]
  dsimp only [Option.getD_some]
  rw [henabled]
  rfl

theorem get_setupTotp {draw : Draw} {owner userId : Nat} {t : Tables} {out : Outcome String}
    (h : setupTotp draw owner t = .ok out) (hne : userId ≠ owner) :
    out.tables.get userId = t.get userId := by
  unfold setupTotp at h
  dsimp only at h
  split at h
  · cases h
  · cases h
    refine get_put_of_ne t ?_
    rwa [userId_getD]

theorem get_step_setupTotp {draw : Draw} {owner userId : Nat} {c : Credentials}
    (hget : s.tables.get userId = some c) (henabled : c.totpEnabled = true) :
    (s.step env (.setupTotp owner) draw).tables.get userId = some c := by
  rw [Store.step, perform]
  cases hout : setupTotp draw owner s.tables with
  | error e => exact hget
  | ok out =>
      rw [Except.map]
      dsimp only [Outcome.forget]
      rw [get_setupTotp hout, hget]
      rintro rfl
      rw [setupTotp_enabled hget henabled] at hout
      cases hout

/-- After any run of the operations, for any users and at any times, every user's
enrolment is in order, and no setup touches one that is enabled. -/
theorem enrolment_life_cycle (env : Environment) (operations : List (Operation × Draw)) :
    (∀ userId, LifeCycle (Store.empty.run env operations) userId) ∧
      ∀ userId c, (Store.empty.run env operations).tables.get userId = some c →
        c.totpEnabled = true → ∀ owner draw,
          ((Store.empty.run env operations).step env (.setupTotp owner) draw).tables.get userId =
            some c := by
  constructor
  · intro userId
    have hempty : Sound (Store.empty.tables.account userId)
        (enrolments (Store.empty.events userId)) := sound_off fun _ h => by cases h
    exact (sound_run operations hempty).lifeCycle
  · intro userId c hget henabled owner draw
    exact get_step_setupTotp hget henabled

/-- One code for all the time steps: the counter alone stops the replay. -/
example :
    let env : Environment :=
      { hashToken := id, decrypt := some, otp := fun _ _ => "000000", sessionTtlHours := 12
        hashPassword := id, verifyPassword := fun hash password => hash == password }
    let second (n : Int) : Draw :=
      { now := n * 1000000, usedAt := n * 1000000, randomBase32 := "JBSWY3DP"
        encrypt := id, tokenHex := fun i => toString i, uuid := id }
    let s := Store.empty.run env [(.setupTotp 1, second 600), (.activateTotp 1 "000000", second 601),
      (.verifySecondFactor 1 "000000", second 615), (.verifySecondFactor 1 "000000", second 660)]
    enrolments (s.events 1) = [[(20, 601000000), (22, 660000000)]] ∧
      (s.tables.codesOf 1).length = 8 := by
  decide +kernel

end Runs

end Socle.TotpEnrolment
