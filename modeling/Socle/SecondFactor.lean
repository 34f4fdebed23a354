import Socle.DirectoryStore

/-!
The second step of a login: the challenge of the first step is consumed, a TOTP
code or a recovery code is verified, a session is created.
-/

namespace Socle.SecondFactor

open Socle.Procedures
open Socle.DirectoryStore (Instant)

structure LoginChallenge where
  id : Nat
  userId : Nat
  tokenHash : String
  expiresAt : Instant
  consumedAt : Option Instant
  deriving DecidableEq

structure UserCredentials where
  userId : Nat
  totpSecretEncrypted : Option String
  totpEnabled : Bool
  totpLastCounter : Option Int
  deriving DecidableEq

structure RecoveryCode where
  id : Nat
  userId : Nat
  codeHash : String
  usedAt : Option Instant
  deriving DecidableEq

structure AuthSession where
  userId : Nat
  tokenHash : String
  expiresAt : Instant
  deriving DecidableEq

structure Accounts where
  challenges : List LoginChallenge
  credentials : List UserCredentials
  recoveryCodes : List RecoveryCode
  sessions : List AuthSession
  deriving DecidableEq

/-- The writes of a login; updates address their row by primary key. -/
inductive Change where
  | setConsumed (challengeId : Nat) (consumedAt : Instant)
  | setLastCounter (userId : Nat) (counter : Int)
  | setUsed (recoveryCodeId : Nat) (usedAt : Instant)
  | addSession (session : AuthSession)
  deriving DecidableEq

namespace Accounts

variable (a : Accounts)

/-- Apply one change; `none` when its row is gone or the token hash is taken. -/
def apply : Change → Option Accounts
  | .setConsumed challengeId consumedAt =>
      if a.challenges.any fun c => c.id == challengeId then
        some { a with challenges := a.challenges.map fun c =>
          if c.id = challengeId then { c with consumedAt := some consumedAt } else c }
      else none
  | .setLastCounter userId counter =>
      if a.credentials.any fun c => c.userId == userId then
        some { a with credentials := a.credentials.map fun c =>
          if c.userId = userId then { c with totpLastCounter := some counter } else c }
      else none
  | .setUsed recoveryCodeId usedAt =>
      if a.recoveryCodes.any fun r => r.id == recoveryCodeId then
        some { a with recoveryCodes := a.recoveryCodes.map fun r =>
          if r.id = recoveryCodeId then { r with usedAt := some usedAt } else r }
      else none
  | .addSession session =>
      if a.sessions.any fun s => s.tokenHash == session.tokenHash then none
      else some { a with sessions := a.sessions ++ [session] }

def applyAll (changes : List Change) : Option Accounts :=
  changes.foldlM apply a

end Accounts

/-- The committed tables, with the transactions that have been committed since
the beginning.  The program does not store these: a session does not say which
challenge or code it comes from, its transaction does. -/
structure Database where
  accounts : Accounts
  log : List (List Change)
  deriving DecidableEq

/-- What a request has read, with the length of the log at that moment. -/
structure Read (α : Type) where
  row : α
  mark : Nat
  deriving DecidableEq

/-- The state of one request: the rows it holds, and its pending changes. -/
structure Session where
  challenge : Option (Read LoginChallenge) := none
  credentials : Option (Read UserCredentials) := none
  recovery : Option (Read RecoveryCode) := none
  pending : List Change := []
  deriving DecidableEq

/-- A clock reading and a fresh token. -/
structure Choice where
  now : Instant
  token : String

inductive Request where
  | now
  | generateToken
  | selectChallenge (tokenHash : String)
  | getCredentials (userId : Nat)
  | selectRecoveryCode (userId : Nat) (codeHash : String)
  | write (change : Change)
  | commit

@[reducible] def Answer : Request → Type
  | .now => Instant
  | .generateToken => String
  | .selectChallenge _ => Option LoginChallenge
  | .getCredentials _ => Option UserCredentials
  | .selectRecoveryCode .. => Option RecoveryCode
  | .write _ => Unit
  | .commit => Bool

abbrev LoginInterface : Interface := ⟨Request, Answer⟩

def Database.commit (db : Database) (changes : List Change) : Database × Bool :=
  match db.accounts.applyAll changes with
  | some accounts => (⟨accounts, db.log ++ [changes]⟩, true)
  | none => (db, false)

/-- The effect of each statement.  Reads see the committed rows; writes stay
pending until the commit. -/
def serve : Serve LoginInterface Database Session Choice
  | db, l, .now, c => (db, l, c.now)
  | db, l, .generateToken, c => (db, l, c.token)
  | db, l, .selectChallenge tokenHash, _ =>
      let row := db.accounts.challenges.find? fun c => c.tokenHash == tokenHash
      (db, { l with challenge := row.map fun c => ⟨c, db.log.length⟩ }, row)
  | db, l, .getCredentials userId, _ =>
      let row := db.accounts.credentials.find? fun c => c.userId == userId
      (db, { l with credentials := row.map fun c => ⟨c, db.log.length⟩ }, row)
  | db, l, .selectRecoveryCode userId codeHash, _ =>
      let row := db.accounts.recoveryCodes.find? fun r =>
        r.userId == userId && r.codeHash == codeHash && r.usedAt.isNone
      (db, { l with recovery := row.map fun r => ⟨r, db.log.length⟩ }, row)
  | db, l, .write change, _ => (db, { l with pending := l.pending ++ [change] }, ())
  | db, l, .commit, _ =>
      let out := db.commit l.pending
      (out.1, { l with pending := [] }, out.2)

/-- What the login takes from outside: the token hash, the key provider, the
one-time password of a secret at a time step, and two settings. -/
structure Environment where
  hashToken : String → String
  decrypt : String → Option String
  otp : String → Int → String
  sessionTtlHours : Nat

inductive Failure where
  | http (status : Nat) (detail : String)
  | authError (message : String)
  | cryptoError
  | typeError
  | databaseError
  deriving DecidableEq, Repr

abbrev LoginProc := Proc LoginInterface Failure

def ask (r : Request) : LoginProc (Answer r) := request (I := LoginInterface) r

def commit : LoginProc Unit := do
  if ← ask .commit then return () else throw .databaseError

def consumeLoginChallenge (env : Environment) (token : String) : LoginProc (Option Nat) := do
  let some challenge ← ask (.selectChallenge (env.hashToken token)) | return none
  if challenge.consumedAt.isSome ∨ challenge.expiresAt < (← ask .now) then
    return none
  ask (.write (.setConsumed challenge.id (← ask .now)))
  return some challenge.userId

def decryptTotpSecret (env : Environment) (credentials : UserCredentials) :
    Except Failure String :=
  match credentials.totpSecretEncrypted with
  | none => .error (.authError "Aucun secret TOTP enregistré.")
  | some token =>
      match env.decrypt token with
      | some secret => .ok secret
      | none => .error .cryptoError

def isAscii (s : String) : Bool := s.toList.all fun c => c.toNat < 128

/-- `totp.interval`, in seconds. -/
def interval : Int := 30

/-- The time steps whose code is accepted, in the order they are tried. -/
def window (now : Instant) : List Int :=
  [0, -1, 1].map fun offset => now.tdiv 1000000 / interval + offset

/-- The counter a code matches.  `compare_digest` refuses a string that is not
ASCII. -/
def matchingCounter (env : Environment) (secret code : String) (now : Instant) :
    Except Failure (Option Int) :=
  if isAscii code then
    .ok ((window now).find? fun counter => env.otp secret counter == code)
  else .error .typeError

def verifyTotpCode (env : Environment) (credentials : UserCredentials) (code : String) :
    LoginProc Bool := do
  let secret ← .ofExcept (decryptTotpSecret env credentials)
  let some counter ← .ofExcept (matchingCounter env secret code (← ask .now)) | return false
  -- A counter that is not above the last one accepted is a replay.
  if credentials.totpLastCounter.any fun last => decide (counter ≤ last) then
    return false
  ask (.write (.setLastCounter credentials.userId counter))
  return true

def verifySecondFactor (env : Environment) (userId : Nat) (code : String) : LoginProc Bool := do
  let some credentials ← ask (.getCredentials userId) | return false
  if !credentials.totpEnabled then
    return false
  if ← verifyTotpCode env credentials code then
    return true
  let some recovery ← ask (.selectRecoveryCode userId (env.hashToken code)) | return false
  ask (.write (.setUsed recovery.id (← ask .now)))
  return true

def createSession (env : Environment) (userId : Nat) : LoginProc String := do
  let token ← ask .generateToken
  let expiresAt := (← ask .now) + env.sessionTtlHours * 3600000000
  ask (.write (.addSession ⟨userId, env.hashToken token, expiresAt⟩))
  return token

/-- The user whose challenge and second factor are accepted. -/
def acceptedUser (env : Environment) (challengeToken code : String) :
    LoginProc (Option Nat) := do
  let some userId ← consumeLoginChallenge env challengeToken | return none
  if ← verifySecondFactor env userId code then return some userId else return none

/-- `login_totp`, behind its rate limit; the token goes to the session cookie. -/
def loginTotp (env : Environment) (challengeToken code : String) : LoginProc String := do
  let some userId ← acceptedUser env challengeToken code
    | do
      -- The challenge stays consumed.
      commit
      throw (.http 401 "Code invalide ou challenge expiré")
  let token ← createSession env userId
  commit
  return token

end Socle.SecondFactor
