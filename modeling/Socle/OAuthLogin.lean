import Socle.DirectoryService
import Socle.KeyedTable
import Socle.SecondFactor
import Socle.SignedPayloads

/-!
The callback of the OAuth login: the state is read back, the code is exchanged,
the claims of the id_token are checked, a user is found by subject or by verified
email, a session is created.
-/

namespace Socle.OAuthLogin

open Socle.PythonText
open Socle.PythonJson (Json PyFloat Floats getItem)
open Socle.SignedPayloads (Platform getStr parseLoginState)
open Socle.DirectoryStore (Instant User Directory)
open Socle.KeyedTable (nodup_map_snoc)
open Socle.SecondFactor (AuthSession)

/-! ### Tables -/

inductive OAuthProvider where
  | google
  | microsoft
  deriving DecidableEq, Repr

def OAuthProvider.value : OAuthProvider → String
  | .google => "google"
  | .microsoft => "microsoft"

structure OAuthIdentity where
  id : Nat
  provider : OAuthProvider
  subject : Str
  userId : Nat
  deriving DecidableEq

def OAuthIdentity.subjectKey (i : OAuthIdentity) : OAuthProvider × Str := (i.provider, i.subject)

def OAuthIdentity.userKey (i : OAuthIdentity) : OAuthProvider × Nat := (i.provider, i.userId)

/-- The rows of `oauth_identities`, under its two unique constraints. -/
structure Identities where
  rows : List OAuthIdentity
  providerSubject : (rows.map OAuthIdentity.subjectKey).Nodup
  providerUser : (rows.map OAuthIdentity.userKey).Nodup

structure Tables where
  directory : Directory
  identities : Identities
  sessions : List AuthSession

/-- What leaves the callback: the error of the flow, the answer its route makes of
it, or an exception that no handler catches. -/
inductive Failure where
  | oauthLogin (message : String)
  | http (status : Nat) (detail : String)
  | raised (className : String)
  deriving DecidableEq, Repr

/-- An INSERT. -/
def Identities.insert (t : Identities) (i : OAuthIdentity) : Option Identities :=
  if h : i.id ∉ t.rows.map (·.id) ∧ i.subjectKey ∉ t.rows.map OAuthIdentity.subjectKey ∧
      i.userKey ∉ t.rows.map OAuthIdentity.userKey then
    some ⟨t.rows ++ [i], nodup_map_snoc t.providerSubject h.2.1,
      nodup_map_snoc t.providerUser h.2.2⟩
  else none

/-- The writes of the callback. -/
inductive Change where
  | addIdentity (identity : OAuthIdentity)
  | addSession (session : AuthSession)
  deriving DecidableEq

namespace Tables

variable (t : Tables)

/-- Apply one change under the unique constraints, the foreign keys and the
length of a subject. -/
def apply : Change → Except Failure Tables
  | .addIdentity i =>
      if 255 < i.subject.length then .error (.raised "DBAPIError")
      else if !t.directory.hasUser i.userId then .error (.raised "IntegrityError")
      else
        match t.identities.insert i with
        | some identities => .ok { t with identities := identities }
        | none => .error (.raised "IntegrityError")
  | .addSession s =>
      if (t.sessions.any fun x => x.tokenHash == s.tokenHash) || !t.directory.hasUser s.userId then
        .error (.raised "IntegrityError")
      else .ok { t with sessions := t.sessions ++ [s] }

/-- One transaction. -/
def applyAll : Tables → List Change → Except Failure Tables
  | t, [] => .ok t
  | t, change :: rest =>
      match t.apply change with
      | .ok t' => applyAll t' rest
      | .error e => .error e

end Tables

/-! ### The provider -/

/-- A response with the JSON of its body, or an exception of `httpx`. -/
inductive HttpAnswer (F : Type) where
  | raised (className : String)
  | response (statusCode : Nat) (body : Except PythonJson.Failure (Json F))

/-- What `jwt.decode` and `claims.validate` make of a token: its claims, a
`JoseError` or another exception. -/
inductive Decoded (F : Type) where
  | joseError
  | raised (className : String)
  | claims (entries : List (Str × Json F))

/-- What the environment supplies to one callback. -/
structure Answers (F : Type) where
  time : ℚ
  metadata : HttpAnswer F
  tokens : HttpAnswer F
  jwks : HttpAnswer F
  decode : Str → Decoded F
  identityId : Nat
  token : String
  now : Instant

/-- `lower` is `str.lower`, and `dbLower` the `lower` of the database on a stored
email. -/
structure Settings (F : Type) where
  platform : Platform F
  directory : DirectoryService.Settings
  googleClientId : String
  googleClientSecret : String
  microsoftClientId : String
  microsoftClientSecret : String
  lower : Str → Str
  dbLower : String → Str
  sessionTtlHours : Nat
  scheme : Str
  apexHost : Str

section Login

variable {F : Type} (settings : Settings F)

/-- `bool(value)`. -/
def truthy : Json F → Bool
  | .null => false
  | .bool b => b
  | .int i => i != 0
  | .float (.finite x) =>
      let literal := settings.platform.floats.repr x
      (literal.whole ++ literal.fraction).any fun c => c != 48 && c != 46
  | .float _ => true
  | .str s => s != []
  | .list items => !items.isEmpty
  | .dict entries => !entries.isEmpty

def clientCredentials (provider : OAuthProvider) : Except Failure (String × String) :=
  let pair := match provider with
    | .google => (settings.googleClientId, settings.googleClientSecret)
    | .microsoft => (settings.microsoftClientId, settings.microsoftClientSecret)
  if pair.1 = "" ∨ pair.2 = "" then
    .error (.oauthLogin
      s!"Provider OAuth {provider.value} non configuré (client_id/client_secret manquants).")
  else .ok pair

/-- `response.json()`. -/
def jsonOf : Except PythonJson.Failure (Json F) → Except Failure (Json F)
  | .ok value => .ok value
  | .error .valueError => .error (.raised "ValueError")
  | .error .recursionError => .error (.raised "RecursionError")

/-- `response.raise_for_status()`, then `response.json()`. -/
def successJson : HttpAnswer F → Except Failure (Json F)
  | .raised className => .error (.raised className)
  | .response statusCode body =>
      if 200 ≤ statusCode ∧ statusCode < 300 then jsonOf body
      else .error (.raised "HTTPStatusError")

/-- `metadata[key]`. -/
def subscript (key : String) : Json F → Except Failure (Json F)
  | .dict entries =>
      match getItem (ofString key) entries with
      | some value => .ok value
      | none => .error (.raised "KeyError")
  | _ => .error (.raised "TypeError")

/-- `_exchange_code`: the raw id_token. -/
def exchangeCode (provider : OAuthProvider) (metadata : Json F) (answers : Answers F) :
    Except Failure Str := do
  let _ ← clientCredentials settings provider
  let _ ← subscript "token_endpoint" metadata
  match answers.tokens with
  | .raised className => throw (.raised className)
  | .response statusCode body =>
      if statusCode ≠ 200 then
        throw (.oauthLogin s!"Échange de code refusé par {provider.value} (HTTP {statusCode}).")
      match ← jsonOf body with
      | .dict entries =>
          match getStr "id_token" entries with
          | some idToken => return idToken
          | none => throw (.oauthLogin s!"Réponse token de {provider.value} sans id_token.")
      | _ => throw (.raised "AttributeError")

structure OAuthUserInfo where
  provider : OAuthProvider
  subject : Str
  email : Str
  emailVerified : Bool
  deriving DecidableEq

/-- The checks of `_validate_id_token` on the claims. -/
def readClaims (provider : OAuthProvider) (nonce : Str) (claims : List (Str × Json F)) :
    Except Failure OAuthUserInfo :=
  if getStr "nonce" claims ≠ some nonce then
    .error (.oauthLogin "Nonce de l'id_token inattendu.")
  else
    match getStr "email" claims, getStr "sub" claims with
    | some email, some subject =>
        .ok ⟨provider, subject, email,
          (getItem (ofString "email_verified") claims).any (truthy settings)⟩
    | _, _ => .error (.oauthLogin "id_token sans email ou subject.")

/-- `_validate_id_token`. -/
def validateIdToken (provider : OAuthProvider) (idToken nonce : Str) (metadata : Json F)
    (answers : Answers F) : Except Failure OAuthUserInfo := do
  let _ ← clientCredentials settings provider
  let _ ← subscript "jwks_uri" metadata
  let _ ← successJson answers.jwks
  match answers.decode idToken with
  | .joseError => throw (.oauthLogin s!"id_token invalide ({provider.value}).")
  | .raised className => throw (.raised className)
  | .claims claims => readClaims settings provider nonce claims

/-- The part of `complete_login` before the database. -/
def userInfo (provider : OAuthProvider) (nonce : Str) (answers : Answers F) :
    Except Failure OAuthUserInfo := do
  let metadata ← successJson answers.metadata
  let idToken ← exchangeCode settings provider metadata answers
  validateIdToken settings provider idToken nonce metadata answers

/-- A text parameter of a query: the driver refuses a surrogate, the server a
NUL. -/
def sent (text : Str) : Except Failure Str :=
  if text.any fun c => isHigh c || isLow c || c == 0 then .error (.raised "DBAPIError")
  else .ok text

/-- `get_user_by_email`. -/
def getUserByEmail (t : Tables) (email : Str) : Except Failure (Option User) := do
  let email ← sent (settings.lower email)
  return t.directory.users.find? fun u => settings.dbLower u.email == email

/-- The rest of `complete_login`: the user, and the link that is added for a
first login. -/
def linkedUser (t : Tables) (info : OAuthUserInfo) (answers : Answers F) :
    Except Failure (User × List Change) := do
  let subject ← sent info.subject
  match t.identities.rows.find? fun i => i.provider == info.provider && i.subject == subject with
  | some identity =>
      match t.directory.users.find? fun u => u.id == identity.userId with
      | some user => return (user, [])
      | none => throw (.oauthLogin "Identité OAuth orpheline.")
  | none =>
      if !info.emailVerified then
        throw (.oauthLogin s!"Email non vérifié chez {info.provider.value} — liaison refusée.")
      match ← getUserByEmail settings t info.email with
      | none =>
          throw (.oauthLogin
            "Aucun compte pour cette identité — l'inscription se fait sur invitation.")
      | some user =>
          return (user, [.addIdentity ⟨answers.identityId, info.provider, subject, user.id⟩])

def completeLogin (t : Tables) (provider : OAuthProvider) (nonce : Str) (answers : Answers F) :
    Except Failure (User × List Change) := do
  let info ← userInfo settings provider nonce answers
  linkedUser settings t info answers

/-! ### The route -/

/-- `parse_state`: the host to return to and the nonce. -/
def parseState (provider : OAuthProvider) (state : Str) (answers : Answers F) :
    Except Failure (Str × Str) :=
  match parseLoginState settings.platform answers.time state (ofString provider.value) with
  | .ok parsed => .ok parsed
  | .error (.refused message) => .error (.oauthLogin message)
  | .error (.raised .typeError) => .error (.raised "TypeError")
  | .error (.raised .attributeError) => .error (.raised "AttributeError")
  | .error (.raised .recursionError) => .error (.raised "RecursionError")
  | .error (.raised _) => .error (.raised "ValueError")

/-- `_validate_return_host` of the login router. -/
def validateReturnHost (host : Str) : Str :=
  let bare := (partition 58 host).1
  let apexBare := (partition 58 settings.apexHost).1
  if bare = apexBare || (46 :: apexBare).isSuffixOf bare then host else settings.apexHost

/-- The answer of the callback, with the token of its cookie. -/
structure LoginRedirect where
  location : Str
  sessionToken : String
  deriving DecidableEq

/-- `create_session`. -/
def newSession (userId : Nat) (answers : Answers F) : AuthSession :=
  ⟨userId, settings.directory.hashToken answers.token,
    answers.now + settings.sessionTtlHours * 3600000000⟩

/-- The body of the `try` of `oauth_callback`. -/
def signIn (t : Tables) (provider : OAuthProvider) (state : Str) (answers : Answers F) :
    Except Failure (Str × User × List Change) := do
  let (returnHost, nonce) ← parseState settings provider state answers
  let (user, changes) ← completeLogin settings t provider nonce answers
  return (returnHost, user, changes)

/-- `oauth_callback`, with the tables it leaves. -/
def oauthCallback (t : Tables) (provider : OAuthProvider) (state : Str) (answers : Answers F) :
    Tables × Except Failure LoginRedirect :=
  match signIn settings t provider state answers with
  | .error (.oauthLogin _) => (t, .error (.http 403 "Connexion OAuth refusée"))
  | .error e => (t, .error e)
  | .ok (returnHost, user, changes) =>
      match t.applyAll (changes ++ [.addSession (newSession settings user.id answers)]) with
      | .error e => (t, .error e)
      | .ok t' =>
          (t', .ok ⟨settings.scheme ++ ofString "://" ++ validateReturnHost settings returnHost ++
            ofString "/", answers.token⟩)

end Login

end Socle.OAuthLogin
