import Socle.PrunedInvitations
import Socle.SecondFactor

/-!
The hourly purge of dead sessions, challenges and invitations, beside the
operations that read these tables: logins, session resolutions, logouts,
invitations and acceptances.
-/

namespace Socle.AuthPurge

open Socle.GuardedRuns
open Socle.Procedures
open Socle.DirectoryStore (Instant Directory Database Session Choice User Invitation Membership)
open Socle.DirectoryService (Settings DirectoryProc)
open Socle.SecondFactor (LoginChallenge UserCredentials RecoveryCode)
open Socle.LiveInvitations (purgeInvitations)
open Socle.PrunedInvitations
open Socle.PrunedTable

/-- A row of `sessions`. -/
structure AuthSession where
  id : Nat
  userId : Nat
  tokenHash : String
  expiresAt : Instant
  lastSeenAt : Instant
  revokedAt : Option Instant
  deriving DecidableEq

/-- The control-plane tables.  Of `user_credentials`, the directory holds the
passwords, and `credentials` the columns of the second factor. -/
structure AuthState where
  directory : Directory
  credentials : List UserCredentials
  recoveryCodes : List RecoveryCode
  sessions : List AuthSession
  challenges : List LoginChallenge

/-- Settings, token hash, key provider and password hasher; `verifyPassword` says
whether the password is valid and whether its hash is out of date. -/
structure Platform where
  settings : Settings
  env : SecondFactor.Environment
  loginChallengeTtlMinutes : Nat
  verifyPassword : String → String → Bool × Bool

inductive Failure where
  | http (status : Nat) (detail : String)
  | directory (failure : DirectoryService.Failure)
  | secondFactor (failure : SecondFactor.Failure)
  | databaseError
  deriving DecidableEq

/-- What the operations return; a session token goes to the cookie. -/
inductive Reply where
  | loggedIn (token : String)
  | totpRequired (challengeToken : String)
  | currentAuth (auth : Option (AuthSession × User))
  | status
  | directory (reply : DirectoryService.Reply)
  | acceptUrl (url : String)
  deriving DecidableEq

section Operations

variable (platform : Platform)

/-! ### `app.auth.service` -/

/-- The row is inserted at the commit, unless its key or its hash is taken. -/
def createSession (c : Choice) (userId : Nat) (s : AuthState) : Except Failure AuthState :=
  let row : AuthSession :=
    { id := c.uuid, userId, tokenHash := platform.env.hashToken c.token
      expiresAt := c.now + platform.env.sessionTtlHours * 3600000000
      lastSeenAt := c.now, revokedAt := none }
  if s.sessions.any fun x => x.id == row.id || x.tokenHash == row.tokenHash then
    .error .databaseError
  else .ok { s with sessions := s.sessions ++ [row] }

def createLoginChallenge (c : Choice) (userId : Nat) (s : AuthState) : Except Failure AuthState :=
  let row : LoginChallenge :=
    { id := c.uuid, userId, tokenHash := platform.env.hashToken c.token
      expiresAt := c.now + platform.loginChallengeTtlMinutes * 60000000, consumedAt := none }
  if s.challenges.any fun x => x.id == row.id || x.tokenHash == row.tokenHash then
    .error .databaseError
  else .ok { s with challenges := s.challenges ++ [row] }

/-- The user of a valid password; an outdated hash is replaced. -/
def authenticate (passwordHash email password : String) (s : AuthState) :
    Option (AuthState × User) := do
  let user ← s.directory.userByEmail email
  let (_, hash) ← s.directory.credentials.find? fun c => c.1 == user.id
  let (valid, needsRehash) := platform.verifyPassword hash password
  if !valid then
    none
  else if needsRehash then
    let credentials := (user.id, passwordHash) ::
      s.directory.credentials.filter fun c => c.1 != user.id
    some ({ s with directory := { s.directory with credentials } }, user)
  else
    some (s, user)

def resolveSession (now seen : Instant) (token : String) (s : AuthState) :
    Option (AuthState × AuthSession × User) := do
  let authSession ← s.sessions.find? fun x => x.tokenHash == platform.env.hashToken token
  if authSession.revokedAt.isSome then
    none
  else if authSession.expiresAt < now then
    none
  else
    let user ← s.directory.users.find? fun u => u.id == authSession.userId
    let sessions := s.sessions.map fun x =>
      if x.id = authSession.id then { x with lastSeenAt := seen } else x
    some ({ s with sessions }, { authSession with lastSeenAt := seen }, user)

def revokeSession (now : Instant) (authSession : AuthSession) (s : AuthState) : AuthState :=
  { s with sessions := s.sessions.map fun x =>
      if x.id = authSession.id then { x with revokedAt := some now } else x }

def consumeLoginChallenge (now consumedAt : Instant) (token : String) (s : AuthState) :
    Option (AuthState × Nat) := do
  let challenge ← s.challenges.find? fun x => x.tokenHash == platform.env.hashToken token
  if challenge.consumedAt.isSome ∨ challenge.expiresAt < now then
    none
  else
    let challenges := s.challenges.map fun x =>
      if x.id = challenge.id then { x with consumedAt := some consumedAt } else x
    some ({ s with challenges }, challenge.userId)

/-- `verify_second_factor`, with what it writes. -/
def verifySecondFactor (choices : Nat → SecondFactor.Choice) (userId : Nat) (code : String)
    (s : AuthState) : AuthState × Except SecondFactor.Failure Bool :=
  let out := eval SecondFactor.serve (do
    let accepted ← SecondFactor.verifySecondFactor platform.env userId code
    SecondFactor.commit
    return accepted) ⟨⟨[], s.credentials, s.recoveryCodes, []⟩, []⟩ {} choices
  ({ s with
    credentials := out.1.accounts.credentials
    recoveryCodes := out.1.accounts.recoveryCodes }, out.2.2)

/-! ### The routes, behind their rate limits -/

def totpEnabled (s : AuthState) (userId : Nat) : Bool :=
  (s.credentials.find? fun c => c.userId == userId).any fun c => c.totpEnabled

def login (c : Nat → Choice) (email password : String) (s : AuthState) :
    AuthState × Except Failure Reply :=
  match authenticate platform (c 0).passwordHash email password s with
  | none => (s, .error (.http 401 "Identifiants invalides"))
  | some (after, user) =>
      if totpEnabled after user.id then
        match createLoginChallenge platform (c 1) user.id after with
        | .ok after => (after, .ok (.totpRequired (c 1).token))
        | .error e => (s, .error e)
      else
        match createSession platform (c 1) user.id after with
        | .ok after => (after, .ok (.loggedIn (c 1).token))
        | .error e => (s, .error e)

def loginTotp (c : Nat → Choice) (challengeToken code : String) (s : AuthState) :
    AuthState × Except Failure Reply :=
  match consumeLoginChallenge platform (c 0).now (c 1).now challengeToken s with
  | none => (s, .error (.http 401 "Code invalide ou challenge expiré"))
  | some (consumed, userId) =>
      let choices (n : Nat) : SecondFactor.Choice := ⟨(c (n + 3)).now, (c (n + 3)).token⟩
      match verifySecondFactor platform choices userId code consumed with
      | (_, .error e) => (s, .error (.secondFactor e))
      -- The challenge stays consumed.
      | (after, .ok false) => (after, .error (.http 401 "Code invalide ou challenge expiré"))
      | (after, .ok true) =>
          match createSession platform (c 2) userId after with
          | .ok after => (after, .ok (.loggedIn (c 2).token))
          | .error e => (s, .error e)

/-- `current_auth_or_none`: the cookie, when there is one, names a live session. -/
def currentAuth (c : Nat → Choice) (token : String) (s : AuthState) :
    Option (AuthState × AuthSession × User) :=
  if token = "" then none else resolveSession platform (c 0).now (c 1).now token s

def logout (c : Nat → Choice) (token : String) (s : AuthState) :
    AuthState × Except Failure Reply :=
  match currentAuth platform c token s with
  | none => (s, .error (.http 401 "Authentification requise"))
  | some (after, authSession, _) => (revokeSession (c 2).now authSession after, .ok .status)

/-- A procedure of the directory on its own tables. -/
def onDirectory {α : Type} (p : DirectoryProc α) (reply : α → Reply) (c : Nat → Choice)
    (s : AuthState) : AuthState × Except Failure Reply :=
  let out := eval DirectoryStore.serve p ⟨s.directory, []⟩ {} c
  let result := match out.2.2 with
    | .ok a => .ok (reply a)
    | .error e => .error (.directory e)
  ({ s with directory := out.1.directory }, result)

inductive Operation where
  | login (email password : String)
  | loginTotp (challengeToken code : String)
  | resolve (token : String)
  | logout (token : String)
  | createInvitation (tenantId : Nat) (actor : User) (email role : String)
  | invite (slug email role : String)
  | acceptInvitation (token : String) (password displayName : Option String)

def perform (s : AuthState) (c : Nat → Choice) : Operation → AuthState × Except Failure Reply
  | .login email password => login platform c email password s
  | .loginTotp challengeToken code => loginTotp platform c challengeToken code s
  | .resolve token =>
      match currentAuth platform c token s with
      | none => (s, .ok (.currentAuth none))
      | some (after, auth) => (after, .ok (.currentAuth (some auth)))
  | .logout token => logout platform c token s
  | .createInvitation tenantId actor email role =>
      onDirectory (DirectoryService.invitationCreate platform.settings tenantId actor email role)
        .directory c s
  | .invite slug email role =>
      onDirectory (DirectoryService.invite platform.settings slug email role) .acceptUrl c s
  | .acceptInvitation token password displayName =>
      onDirectory (DirectoryService.invitationsAccept platform.settings token password displayName)
        .directory c s

/-- The results of a sequence of operations, one at a time. -/
def results : AuthState → List (Operation × (Nat → Choice)) → List (Except Failure Reply)
  | _, [] => []
  | s, (op, c) :: rest =>
      let out := perform platform s c op
      out.2 :: results out.1 rest

end Operations

structure PurgeCounts where
  sessions : Nat
  loginChallenges : Nat
  invitations : Nat
  deriving DecidableEq

def purgeExpiredAuthRows (now : Instant) (s : AuthState) : AuthState × PurgeCounts :=
  let sessions := s.sessions.filter fun x => !(decide (x.expiresAt < now) || x.revokedAt.isSome)
  let challenges := s.challenges.filter fun x => !decide (x.expiresAt < now)
  let directory := purgeInvitations now s.directory
  ({ s with directory, sessions, challenges },
    { sessions := s.sessions.length - sessions.length
      loginChallenges := s.challenges.length - challenges.length
      invitations := s.directory.invitations.length - directory.invitations.length })

/-- Dead for every reader from `since` on. -/
def DeadSession (since : Instant) (x : AuthSession) : Prop :=
  x.revokedAt.isSome = true ∨ x.expiresAt < since

def DeadChallenge (since : Instant) (x : LoginChallenge) : Prop := x.expiresAt < since

/-- The second state lacks dead rows, and is the first one otherwise. -/
structure Purged (since : Instant) (s s' : AuthState) : Prop where
  sessions : Pruned (fun x : AuthSession => x.tokenHash) (DeadSession since) s.sessions s'.sessions
  challenges : Pruned (fun x : LoginChallenge => x.tokenHash) (DeadChallenge since) s.challenges
    s'.challenges
  directory : PrunedDirectory since s.directory s'.directory
  rest : s' = { s with
    directory := s'.directory, sessions := s'.sessions, challenges := s'.challenges }

/-- The choices of an operation: no clock reading before the purge, fresh tokens
and fresh keys. -/
structure Timely (platform : Platform) (since : Instant) (s : AuthState) (c : Choice) : Prop where
  now : since ≤ c.now
  session : ∀ x ∈ s.sessions, x.id ≠ c.uuid ∧ x.tokenHash ≠ platform.env.hashToken c.token
  challenge : ∀ x ∈ s.challenges, x.id ≠ c.uuid ∧ x.tokenHash ≠ platform.env.hashToken c.token
  invitation : ∀ x ∈ s.directory.invitations,
    x.id ≠ c.uuid ∧ x.tokenHash ≠ platform.settings.hashToken c.token

section Sessions

variable {platform : Platform} {since : Instant} {s s' : AuthState}

/-- Both states fail alike, or both go on, still one the purge of the other. -/
def Alike {α : Type} (since : Instant) (out out' : Option (AuthState × α)) : Prop :=
  match out, out' with
  | none, none => True
  | some (s, a), some (s', a') => a' = a ∧ Purged since s s'
  | _, _ => False

theorem Alike.cases {α : Type} {out out' : Option (AuthState × α)} (h : Alike since out out') :
    out = none ∧ out' = none ∨
      ∃ t t' a, out = some (t, a) ∧ out' = some (t', a) ∧ Purged since t t' := by
  match out, out', h with
  | none, none, _ => exact .inl ⟨rfl, rfl⟩
  | some (t, a), some (t', _), ⟨rfl, hpurged⟩ => exact .inr ⟨t, t', a, rfl, rfl, hpurged⟩

theorem createSession_alike (h : Purged since s s') {c : Choice}
    (hc : ∀ x ∈ s.sessions, x.id ≠ c.uuid ∧ x.tokenHash ≠ platform.env.hashToken c.token)
    (userId : Nat) :
    ∃ t t', createSession platform c userId s = .ok t ∧
      createSession platform c userId s' = .ok t' ∧ Purged since t t' := by
  have hfresh (l : List AuthSession) (hl : l ⊆ s.sessions) : ¬ (l.any fun x =>
      x.id == c.uuid || x.tokenHash == platform.env.hashToken c.token) = true := by
    intro hany
    obtain ⟨x, hx, htaken⟩ := List.any_eq_true.mp hany
    obtain ⟨hid, hhash⟩ := hc x (hl hx)
    simp [hid, hhash] at htaken
  unfold createSession
  rw [if_neg (hfresh s.sessions fun _ hx => hx), if_neg (hfresh s'.sessions h.sessions.subset)]
  refine ⟨_, _, rfl, rfl, ?_, h.challenges, h.directory, ?_⟩
  · exact h.sessions.append fun x hx => (hc x hx).2
  · rw [h.rest]

theorem createLoginChallenge_alike (h : Purged since s s') {c : Choice}
    (hc : ∀ x ∈ s.challenges, x.id ≠ c.uuid ∧ x.tokenHash ≠ platform.env.hashToken c.token)
    (userId : Nat) :
    ∃ t t', createLoginChallenge platform c userId s = .ok t ∧
      createLoginChallenge platform c userId s' = .ok t' ∧ Purged since t t' := by
  have hfresh (l : List LoginChallenge) (hl : l ⊆ s.challenges) : ¬ (l.any fun x =>
      x.id == c.uuid || x.tokenHash == platform.env.hashToken c.token) = true := by
    intro hany
    obtain ⟨x, hx, htaken⟩ := List.any_eq_true.mp hany
    obtain ⟨hid, hhash⟩ := hc x (hl hx)
    simp [hid, hhash] at htaken
  unfold createLoginChallenge
  rw [if_neg (hfresh s.challenges fun _ hx => hx), if_neg (hfresh s'.challenges h.challenges.subset)]
  refine ⟨_, _, rfl, rfl, h.sessions, ?_, h.directory, ?_⟩
  · exact h.challenges.append fun x hx => (hc x hx).2
  · rw [h.rest]

theorem resolveSession_dead {now seen : Instant} {token : String} {x : AuthSession}
    (hfind : (s.sessions.find? fun x => x.tokenHash == platform.env.hashToken token) = some x)
    (hdead : DeadSession since x) (hnow : since ≤ now) :
    resolveSession platform now seen token s = none := by
  unfold resolveSession
  rw [hfind]
  rcases hdead with hrevoked | hexpired
  · simp [hrevoked]
  · have hlt : x.expiresAt < now := Int.lt_of_lt_of_le hexpired hnow
    simp [hlt]

theorem Purged.users (h : Purged since s s') : s'.directory.users = s.directory.users := by
  rw [h.directory.rest]

theorem Purged.passwords (h : Purged since s s') :
    s'.directory.credentials = s.directory.credentials := by
  rw [h.directory.rest]

theorem Purged.credentials (h : Purged since s s') : s'.credentials = s.credentials := by
  rw [h.rest]

theorem Purged.recoveryCodes (h : Purged since s s') : s'.recoveryCodes = s.recoveryCodes := by
  rw [h.rest]

theorem Purged.mapSessions (h : Purged since s s') {f : AuthSession → AuthSession}
    (hkey : ∀ x, (f x).tokenHash = x.tokenHash)
    (hdead : ∀ x, DeadSession since x → DeadSession since (f x)) :
    Purged since { s with sessions := s.sessions.map f }
      { s' with sessions := s'.sessions.map f } :=
  ⟨h.sessions.map hkey hdead, h.challenges, h.directory, by rw [h.rest]⟩

theorem resolveSession_alike (h : Purged since s s') {now seen : Instant} (hnow : since ≤ now)
    (token : String) :
    Alike since (resolveSession platform now seen token s)
      (resolveSession platform now seen token s') := by
  rcases h.sessions.find?_key (platform.env.hashToken token) with hsame | ⟨hnone, x, hx, hdead⟩
  · unfold resolveSession
    rw [← hsame, h.users]
    cases s.sessions.find? fun x => x.tokenHash == platform.env.hashToken token with
    | none => trivial
    | some authSession =>
        simp only [Option.bind_eq_bind, Option.bind_some]
        split
        · trivial
        split
        · trivial
        cases s.directory.users.find? fun u => u.id == authSession.userId with
        | none => trivial
        | some user =>
            refine ⟨rfl, h.mapSessions ?_ ?_⟩
            · intro x
              split <;> rfl
            · intro x hdead
              split <;> exact hdead
  · rw [resolveSession_dead hx hdead hnow]
    unfold resolveSession
    rw [hnone]
    trivial

theorem revokeSession_purged (h : Purged since s s') (now : Instant) (authSession : AuthSession) :
    Purged since (revokeSession now authSession s) (revokeSession now authSession s') := by
  refine h.mapSessions ?_ ?_
  · intro x
    split <;> rfl
  · intro x hdead
    split
    · exact .inl rfl
    · exact hdead

theorem consumeLoginChallenge_dead {now consumedAt : Instant} {token : String}
    {x : LoginChallenge}
    (hfind : (s.challenges.find? fun x => x.tokenHash == platform.env.hashToken token) = some x)
    (hdead : DeadChallenge since x) (hnow : since ≤ now) :
    consumeLoginChallenge platform now consumedAt token s = none := by
  have hlt : x.expiresAt < now := Int.lt_of_lt_of_le hdead hnow
  unfold consumeLoginChallenge
  rw [hfind]
  simp [hlt]

theorem consumeLoginChallenge_alike (h : Purged since s s') {now : Instant} (hnow : since ≤ now)
    (consumedAt : Instant) (token : String) :
    Alike since (consumeLoginChallenge platform now consumedAt token s)
      (consumeLoginChallenge platform now consumedAt token s') := by
  rcases h.challenges.find?_key (platform.env.hashToken token) with hsame | ⟨hnone, x, hx, hdead⟩
  · unfold consumeLoginChallenge
    rw [← hsame]
    cases s.challenges.find? fun x => x.tokenHash == platform.env.hashToken token with
    | none => trivial
    | some challenge =>
        simp only [Option.bind_eq_bind, Option.bind_some]
        split
        · trivial
        refine ⟨rfl, h.sessions, h.challenges.map ?_ ?_, h.directory, by rw [h.rest]⟩
        · intro x
          split <;> rfl
        · intro x hdead
          split <;> exact hdead
  · rw [consumeLoginChallenge_dead hx hdead hnow]
    unfold consumeLoginChallenge
    rw [hnone]
    trivial

theorem authenticate_alike (h : Purged since s s') (passwordHash email password : String) :
    Alike since (authenticate platform passwordHash email password s)
      (authenticate platform passwordHash email password s') := by
  have huser : s'.directory.userByEmail email = s.directory.userByEmail email := by
    have hlower : s'.directory.lower = s.directory.lower := by rw [h.directory.rest]
    simp only [Directory.userByEmail, h.users, hlower]
  unfold authenticate
  rw [huser, h.passwords]
  cases s.directory.userByEmail email with
  | none => trivial
  | some user =>
      simp only [Option.bind_eq_bind, Option.bind_some]
      cases s.directory.credentials.find? fun c => c.1 == user.id with
      | none => trivial
      | some row =>
          simp only [Option.bind_some]
          split
          · trivial
          split
          · refine ⟨rfl, h.sessions, h.challenges, ⟨h.directory.invitations, ?_⟩, by rw [h.rest]⟩
            rw [h.directory.rest]
          · exact ⟨rfl, h⟩

theorem verifySecondFactor_alike (h : Purged since s s') (choices : Nat → SecondFactor.Choice)
    (userId : Nat) (code : String) :
    (verifySecondFactor platform choices userId code s').2 =
        (verifySecondFactor platform choices userId code s).2 ∧
      Purged since (verifySecondFactor platform choices userId code s).1
        (verifySecondFactor platform choices userId code s').1 := by
  unfold verifySecondFactor
  rw [h.credentials, h.recoveryCodes]
  refine ⟨rfl, h.sessions, h.challenges, h.directory, ?_⟩
  rw [h.rest]

/-- The operation ends alike in both states, and the purge stays between them. -/
def SameEnd (since : Instant) (out out' : AuthState × Except Failure Reply) : Prop :=
  out'.2 = out.2 ∧ Purged since out.1 out'.1

theorem tables_authenticate {passwordHash email password : String} {after : AuthState}
    {user : User}
    (hout : authenticate platform passwordHash email password s = some (after, user)) :
    after.sessions = s.sessions ∧ after.challenges = s.challenges := by
  unfold authenticate at hout
  simp only [Option.bind_eq_bind, Option.bind_eq_some_iff] at hout
  obtain ⟨_, -, _, -, hout⟩ := hout
  split at hout
  · cases hout
  split at hout
  · cases hout
    exact ⟨rfl, rfl⟩
  · cases hout
    exact ⟨rfl, rfl⟩

theorem sessions_consumeLoginChallenge {now consumedAt : Instant} {token : String}
    {consumed : AuthState} {userId : Nat}
    (hout : consumeLoginChallenge platform now consumedAt token s = some (consumed, userId)) :
    consumed.sessions = s.sessions := by
  unfold consumeLoginChallenge at hout
  simp only [Option.bind_eq_bind, Option.bind_eq_some_iff] at hout
  obtain ⟨_, -, hout⟩ := hout
  split at hout
  · cases hout
  · cases hout
    rfl

theorem login_sameEnd (h : Purged since s s') {c : Nat → Choice}
    (hc : ∀ n, Timely platform since s (c n)) (email password : String) :
    SameEnd since (login platform c email password s) (login platform c email password s') := by
  have halike : Alike since (authenticate platform (c 0).passwordHash email password s)
      (authenticate platform (c 0).passwordHash email password s') :=
    authenticate_alike h _ email password
  unfold login
  rcases halike.cases with ⟨hout, hout'⟩ | ⟨after, after', user, hout, hout', hafter⟩
  · rw [hout, hout']
    exact ⟨rfl, h⟩
  obtain ⟨hsessions, hchallenges⟩ := tables_authenticate hout
  have htotp : totpEnabled after' user.id = totpEnabled after user.id := by
    simp only [totpEnabled, hafter.credentials]
  rw [hout, hout']
  simp only [htotp]
  split
  · obtain ⟨t, t', ht, ht', hpurged⟩ := createLoginChallenge_alike hafter
      (hchallenges ▸ (hc 1).challenge) user.id
    rw [ht, ht']
    exact ⟨rfl, hpurged⟩
  · obtain ⟨t, t', ht, ht', hpurged⟩ := createSession_alike hafter
      (hsessions ▸ (hc 1).session) user.id
    rw [ht, ht']
    exact ⟨rfl, hpurged⟩

theorem loginTotp_sameEnd (h : Purged since s s') {c : Nat → Choice}
    (hc : ∀ n, Timely platform since s (c n)) (challengeToken code : String) :
    SameEnd since (loginTotp platform c challengeToken code s)
      (loginTotp platform c challengeToken code s') := by
  have halike : Alike since
      (consumeLoginChallenge platform (c 0).now (c 1).now challengeToken s)
      (consumeLoginChallenge platform (c 0).now (c 1).now challengeToken s') :=
    consumeLoginChallenge_alike h (hc 0).now _ challengeToken
  unfold loginTotp
  rcases halike.cases with ⟨hout, hout'⟩ | ⟨consumed, consumed', userId, hout, hout', hafter⟩
  · rw [hout, hout']
    exact ⟨rfl, h⟩
  rw [hout, hout']
  dsimp only
  generalize hchoices : (fun n => (⟨(c (n + 3)).now, (c (n + 3)).token⟩ : SecondFactor.Choice)) =
    choices
  obtain ⟨hsame, hpurged⟩ :
      (verifySecondFactor platform choices userId code consumed').2 =
          (verifySecondFactor platform choices userId code consumed).2 ∧
        Purged since (verifySecondFactor platform choices userId code consumed).1
          (verifySecondFactor platform choices userId code consumed').1 :=
    verifySecondFactor_alike hafter choices userId code
  have hconsumed := sessions_consumeLoginChallenge hout
  have hsessions :
      (verifySecondFactor platform choices userId code consumed).1.sessions = s.sessions :=
    hconsumed
  generalize verifySecondFactor platform choices userId code consumed = verified at *
  generalize verifySecondFactor platform choices userId code consumed' = verified' at *
  obtain ⟨after, result⟩ := verified
  obtain ⟨after', result'⟩ := verified'
  subst hsame
  rcases result' with e | _ | _
  · exact ⟨rfl, h⟩
  · exact ⟨rfl, hpurged⟩
  · obtain ⟨t, t', ht, ht', hcreated⟩ := createSession_alike hpurged
      (hsessions ▸ (hc 2).session) userId
    dsimp only at ht ht' ⊢
    rw [ht, ht']
    exact ⟨rfl, hcreated⟩

theorem currentAuth_alike (h : Purged since s s') {c : Nat → Choice}
    (hc : ∀ n, Timely platform since s (c n)) (token : String) :
    Alike since (currentAuth platform c token s) (currentAuth platform c token s') := by
  unfold currentAuth
  split
  · trivial
  · exact resolveSession_alike h (hc 0).now token

theorem logout_sameEnd (h : Purged since s s') {c : Nat → Choice}
    (hc : ∀ n, Timely platform since s (c n)) (token : String) :
    SameEnd since (logout platform c token s) (logout platform c token s') := by
  unfold logout
  rcases (currentAuth_alike h hc token).cases with
    ⟨hout, hout'⟩ | ⟨after, after', auth, hout, hout', hafter⟩
  · rw [hout, hout']
    exact ⟨rfl, h⟩
  · rw [hout, hout']
    exact ⟨rfl, revokeSession_purged hafter _ _⟩

theorem onDirectory_sameEnd {α : Type} {p : DirectoryProc α} {reply : α → Reply} {c : Nat → Choice}
    (h : Purged since s s')
    (hp : SameResult since p ⟨s.directory, []⟩ ⟨s'.directory, []⟩ c) :
    SameEnd since (onDirectory p reply c s) (onDirectory p reply c s') := by
  obtain ⟨hout, hpruned⟩ := hp
  refine ⟨?_, h.sessions, h.challenges, hpruned.directory, ?_⟩
  · simp only [onDirectory, hout]
  · rw [h.rest]
    rfl

theorem perform_sameEnd (h : Purged since s s') {c : Nat → Choice}
    (hc : ∀ n, Timely platform since s (c n)) (op : Operation) :
    SameEnd since (perform platform s c op) (perform platform s' c op) := by
  have hdatabase : PrunedDatabase since ⟨s.directory, []⟩ ⟨s'.directory, []⟩ :=
    ⟨h.directory, rfl⟩
  have hfresh (n : Nat) : Fresh platform.settings since s.directory (c n) :=
    ⟨(hc n).now, (hc n).invitation⟩
  cases op with
  | login email password => exact login_sameEnd h hc email password
  | loginTotp challengeToken code => exact loginTotp_sameEnd h hc challengeToken code
  | resolve token =>
      simp only [perform]
      rcases (currentAuth_alike h hc token).cases with
        ⟨hout, hout'⟩ | ⟨after, after', auth, hout, hout', hafter⟩
      · rw [hout, hout']
        exact ⟨rfl, h⟩
      · rw [hout, hout']
        exact ⟨rfl, hafter⟩
  | logout token => exact logout_sameEnd h hc token
  | createInvitation tenantId actor email role =>
      exact onDirectory_sameEnd h (sameResult_of_agree
        (agree_invitationCreate hdatabase tenantId actor email role) hfresh)
  | invite slug email role =>
      exact onDirectory_sameEnd h (sameResult_of_agree
        (agree_invite hdatabase slug email role) hfresh)
  | acceptInvitation token password displayName =>
      exact onDirectory_sameEnd h (sameResult_invitationsAccept hdatabase (fun n => (hc n).now)
        token password displayName)

end Sessions

/-- Every operation of the run is timely in the state it finds. -/
def TimelyRun (platform : Platform) (since : Instant) :
    AuthState → List (Operation × (Nat → Choice)) → Prop
  | _, [] => True
  | s, (op, c) :: rest =>
      (∀ n, Timely platform since s (c n)) ∧
        TimelyRun platform since (perform platform s c op).1 rest

theorem results_purged {platform : Platform} {since : Instant} {s s' : AuthState}
    {events : List (Operation × (Nat → Choice))} (h : Purged since s s')
    (hevents : TimelyRun platform since s events) :
    results platform s' events = results platform s events := by
  induction events generalizing s s' with
  | nil => rfl
  | cons event rest ih =>
      obtain ⟨op, c⟩ := event
      obtain ⟨hc, hrest⟩ := hevents
      obtain ⟨hout, hpurged⟩ := perform_sameEnd h hc op
      simp only [results, hout, ih hpurged hrest]

/-- Tables as the schema keeps them: `token_hash` is unique in each. -/
structure Start where
  state : AuthState
  sessions : (state.sessions.map fun x => x.tokenHash).Nodup
  challenges : (state.challenges.map fun x => x.tokenHash).Nodup
  invitations : (state.directory.invitations.map fun x => x.tokenHash).Nodup

theorem purged_purgeExpiredAuthRows (start : Start) (now : Instant) :
    Purged now start.state (purgeExpiredAuthRows now start.state).1 := by
  refine ⟨?_, ?_, ⟨?_, rfl⟩, rfl⟩
  · refine pruned_filter start.sessions fun x _ hx => ?_
    rcases (Bool.or_eq_true _ _).mp hx with hexpired | hrevoked
    · exact .inr (decide_eq_true_eq.mp hexpired)
    · exact .inl hrevoked
  · refine pruned_filter start.challenges fun x _ hx => ?_
    have hexpired : x.expiresAt < now := decide_eq_true_eq.mp hx
    exact hexpired
  · refine pruned_filter start.invitations fun x _ hx => ?_
    have hexpired : x.expiresAt < now := decide_eq_true_eq.mp ((Bool.and_eq_true _ _).mp hx).1
    exact hexpired

/-- Whether the purge has run or not, later operations return the same. -/
theorem purge_unobservable (platform : Platform) (start : Start) (now : Instant)
    (events : List (Operation × (Nat → Choice)))
    (hevents : TimelyRun platform now start.state events) :
    results platform (purgeExpiredAuthRows now start.state).1 events =
      results platform start.state events :=
  results_purged (purged_purgeExpiredAuthRows start now) hevents

/-- Alice has an expired session and an expired challenge, and has invited Bob. -/
def acme : Start where
  state := {
    directory := {
      tenants := [⟨1, "acme", "Acme", .active, none⟩]
      users := [⟨1, "alice@exemple.fr", none⟩]
      credentials := [(1, "secret")]
      memberships := [⟨1, 1, 1, .owner⟩]
      invitations := [⟨7, "bob@exemple.fr", 1, .member, "invitation", 50, none, some 1⟩]
      teams := []
      teamMembers := []
      auditEvents := [] }
    credentials := []
    recoveryCodes := []
    sessions := [⟨3, 1, "session", 60, 10, none⟩]
    challenges := [⟨4, 1, "challenge", 40, none⟩] }
  sessions := by decide
  challenges := by decide
  invitations := by decide

def plainPlatform : Platform where
  settings := ⟨id, 72, "https://app.exemple.fr"⟩
  env := ⟨id, some, fun _ _ => "", 24⟩
  loginChallengeTtlMinutes := 5
  verifyPassword hash password := (hash == password, false)

/-- Bob comes too late, Alice logs in again and invites him again. -/
def afterwards : List (Operation × (Nat → Choice)) :=
  [(.resolve "session", fun _ => { now := 100, uuid := 20, token := "a" }),
    (.loginTotp "challenge" "000000", fun _ => { now := 101, uuid := 21, token := "b" }),
    (.acceptInvitation "invitation" none none, fun _ => { now := 102, uuid := 22, token := "c" }),
    (.login "alice@exemple.fr" "secret", fun _ => { now := 103, uuid := 23, token := "d" }),
    (.invite "acme" "bob@exemple.fr" "member", fun _ => { now := 104, uuid := 24, token := "e" })]

theorem three_rows_purged_unseen :
    (purgeExpiredAuthRows 100 acme.state).2 = ⟨1, 1, 1⟩ ∧
      results plainPlatform (purgeExpiredAuthRows 100 acme.state).1 afterwards =
        results plainPlatform acme.state afterwards := by
  refine ⟨by decide, purge_unobservable plainPlatform acme 100 afterwards ?_⟩
  refine ⟨fun _ => ⟨?_, ?_, ?_, ?_⟩, fun _ => ⟨?_, ?_, ?_, ?_⟩, fun _ => ⟨?_, ?_, ?_, ?_⟩,
    fun _ => ⟨?_, ?_, ?_, ?_⟩, fun _ => ⟨?_, ?_, ?_, ?_⟩, trivial⟩
  all_goals
    dsimp only
    decide +kernel

end Socle.AuthPurge
