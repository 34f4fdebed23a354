import Socle.ConnectorStore

/-!
The connector operations: token refresh under a lock, provider calls under
backoff, webhook subscriptions, the two beats, the OAuth callback and the
revocation.  Each procedure awaits its statements in the order of the source.
-/

namespace Socle.ConnectorService

open Socle.Procedures
open Socle.DirectoryStore (Instant Tenant TenantState User AuditEvent)
open Socle.TokenExchange
open Socle.ConnectorStore

abbrev ConnectorProc := Proc ConnectorInterface Failure

/-- Settings, the key provider, the token hash, and the two readings of the
standard library that only matter through their result: the instant of a
non-empty text (`fromtimestamp` or `fromisoformat`) and `str()` of a JSON value
that is no string. -/
structure Settings where
  keys : KeyProvider
  hashToken : String → String
  parseInstant : PyStr → Except Failure Instant
  render : Json → PyStr
  googleConnectorClientId : String
  googleConnectorClientSecret : String
  microsoftConnectorClientId : String
  microsoftConnectorClientSecret : String
  connectorRefreshLeadMinutes : Int
  apexHost : String

/-! ### `app.connectors.registry` -/

def capabilityMail : String := "mail"

def capabilityCalendar : String := "calendar"

/-- The part of a manifest the operations read; the capabilities are in the
order in which every reader sorts them. -/
structure ProviderManifest where
  baseScopes : List String
  capabilityScopes : List (String × List String)
  hasRevokeEndpoint : Bool
  subscriptionTtlHours : Int
  basePath : String

def getProvider : ConnectorProvider → ProviderManifest
  | .google =>
      { baseScopes := ["openid", "email"]
        capabilityScopes :=
          [(capabilityCalendar, ["https://www.googleapis.com/auth/calendar"]),
            (capabilityMail, ["https://www.googleapis.com/auth/gmail.readonly",
              "https://www.googleapis.com/auth/gmail.send"])]
        hasRevokeEndpoint := true
        subscriptionTtlHours := 7 * 24
        basePath := "" }
  | .microsoft =>
      { baseScopes := ["openid", "email", "offline_access"]
        capabilityScopes :=
          [(capabilityCalendar, ["Calendars.ReadWrite"]),
            (capabilityMail, ["Mail.Read", "Mail.Send"])]
        hasRevokeEndpoint := false
        subscriptionTtlHours := 3 * 24
        basePath := "/v1.0" }

/-- `scopes_for`: the base scopes, then those of each capability that are not
there yet. -/
def scopesFor (manifest : ProviderManifest) (capabilities : List String) :
    Except Failure (List String) :=
  capabilities.foldlM (fun scopes capability =>
    match manifest.capabilityScopes.find? fun entry => entry.1 == capability with
    | none => .error (.valueError "UnsupportedCapabilityError")
    | some entry => .ok (entry.2.foldl (fun scopes scope =>
        if scopes.contains scope then scopes else scopes ++ [scope]) scopes))
    manifest.baseScopes

/-- The label `parse_account_label` reads in the account information. -/
def parseAccountLabel (provider : ConnectorProvider) (fields : List (PyStr × Json)) :
    Option PyStr :=
  match provider with
  | .google => optionalText (get? fields "email")
  | .microsoft =>
      match optionalText (get? fields "mail") with
      | some (c :: rest) => some (c :: rest)
      | _ =>
          match optionalText (get? fields "userPrincipalName") with
          | some (c :: rest) => some (c :: rest)
          | _ => none

/-- `granted_capabilities`, sorted. -/
def grantedCapabilities (connection : Connection) : List String :=
  ((getProvider connection.provider).capabilityScopes.filter fun entry =>
    entry.2.all fun scope => connection.attributes.scopes.contains (py scope)).map (·.1)

/-! ### Requests -/

def ask (r : Request) : ConnectorProc (Answer r) := request (I := ConnectorInterface) r

/-- The object of the session for a connection it has loaded. -/
def readObject (connectionId : Nat) : ConnectorProc Connection := do
  let some connection ← ask (.readObject connectionId) | throw .attributeError
  return connection

def assign (connectionId : Nat) (value : Stamp → Attributes → Except Failure Attributes) :
    ConnectorProc Unit := do
  .ofExcept (← ask (.assign connectionId value))

def commit : ConnectorProc Unit := do
  .ofExcept (← ask .commit)

def commitControl : ConnectorProc Unit := do
  .ofExcept (← ask .commitControl)

/-- `record_audit_event` with the actor `system`. -/
def recordAuditEvent (action resourceType : String) (resourceId : Nat)
    (payload : List (String × Option String)) : ConnectorProc Unit :=
  ask (.addAuditEvent ⟨0, action, resourceType, resourceId, payload, none, "system"⟩)

/-! ### `app.connectors.throttle` -/

def maxAttempts : Nat := 5

/-- `run_with_backoff`.  The budget and the delays only let time pass. -/
def runWithBackoff {α : Type} (provider : ConnectorProvider) (attempt : ConnectorProc α) :
    Nat → ConnectorProc α
  | 0 => throw (.providerUnavailable
      s!"Provider {provider.value} indisponible après {maxAttempts} tentatives.")
  | n + 1 => do
      match ← attempt.attempt with
      | .ok a => return a
      | .error (.providerResponse statusCode) =>
          if retryable statusCode then runWithBackoff provider attempt n
          else throw (.providerResponse statusCode)
      | .error e => throw e

/-- `release_lock`: a GET, then a DELETE if the token is still ours. -/
def releaseLock (name : LockName) (token : Nat) : ConnectorProc Unit := do
  if (← ask (.lockHolder name)) = some token then
    ask (.deleteLock name)

def waitForLock (name : LockName) : Nat → ConnectorProc Nat
  | 0 => throw (.providerUnavailable
      s!"Verrou connecteur '{name.text}' toujours occupé après 20 tentatives.")
  | n + 1 => do
      match ← ask (.acquireLock name) with
      | some token => return token
      | none => waitForLock name n

/-! ### `app.connectors.service` -/

/-- `EXPIRY_SKEW_SECONDS`. -/
def expirySkew : Instant := 60000000

def clientCredentials (settings : Settings) (provider : ConnectorProvider) :
    Except Failure (String × String) :=
  let pair := match provider with
    | .google => (settings.googleConnectorClientId, settings.googleConnectorClientSecret)
    | .microsoft => (settings.microsoftConnectorClientId, settings.microsoftConnectorClientSecret)
  if pair.1 = "" ∨ pair.2 = "" then
    .error (.connectorError s!"App OAuth connecteurs {provider.value} non configurée.")
  else .ok pair

/-- The tenant of the callback is for the record only. -/
def exchangeCode (settings : Settings) (tenantId : Nat) (provider : ConnectorProvider)
    (code : String) : ConnectorProc TokenBundle := do
  let _ ← .ofExcept (clientCredentials settings provider)
  .ofExcept (readAnswer provider (← ask (.exchangeCode tenantId provider code)))

def refreshTokenGrant (settings : Settings) (connection : Connection) (refreshToken : PyStr) :
    ConnectorProc TokenBundle := do
  let _ ← .ofExcept (clientCredentials settings connection.provider)
  .ofExcept (readAnswer connection.provider (← ask (.exchange connection.id refreshToken)))

/-- The label of an answer of the account endpoint. -/
def accountLabelOf (provider : ConnectorProvider) : HttpAnswer → Except Failure PyStr
  | .transportError className => .error (.httpError className)
  | .response response =>
      if response.statusCode ≠ 200 then .ok (py s!"compte {provider.value}")
      else
        match response.body.load with
        | .error e => .error e
        | .ok (.obj fields) =>
            match parseAccountLabel provider fields with
            | some (c :: rest) => .ok (c :: rest)
            | _ => .ok (py s!"compte {provider.value}")
        | .ok _ => .error .attributeError

def fetchAccountLabel (tenantId : Nat) (provider : ConnectorProvider) (accessToken : PyStr) :
    ConnectorProc PyStr := do
  .ofExcept (accountLabelOf provider (← ask (.accountInfo tenantId provider accessToken)))

/-- `datetime.min` and `datetime.max`, in UTC. -/
def datetimeMin : Instant := -62135596800000000

def datetimeMax : Instant := 253402300799999999

/-- `now + timedelta(seconds=...)`. -/
def addSeconds (now : Instant) (seconds : Int) : Except Failure Instant :=
  if datetimeMin ≤ now + seconds * 1000000 ∧ now + seconds * 1000000 ≤ datetimeMax then
    .ok (now + seconds * 1000000)
  else .error .overflowError

def sealAccessToken (settings : Settings) (bundle : TokenBundle) (stamp : Stamp)
    (a : Attributes) : Except Failure Attributes :=
  (encryptToken settings.keys stamp.nonce bundle.accessToken).map fun bytes =>
    { a with accessTokenEnc := bytes }

/-- The refresh token is replaced only by a new, non-empty one. -/
def sealRefreshToken (settings : Settings) (bundle : TokenBundle) (stamp : Stamp)
    (a : Attributes) : Except Failure Attributes :=
  match bundle.refreshToken with
  | none | some [] => .ok a
  | some token =>
      (encryptToken settings.keys stamp.nonce token).map fun bytes =>
        { a with refreshTokenEnc := bytes }

def stampExpiry (bundle : TokenBundle) (stamp : Stamp) (a : Attributes) :
    Except Failure Attributes :=
  (addSeconds stamp.now bundle.expiresIn).map fun expiresAt =>
    { a with accessTokenExpiresAt := expiresAt }

def markHealthy (stamp : Stamp) (a : Attributes) : Except Failure Attributes :=
  .ok { a with status := .active, lastError := none, healthCheckedAt := some stamp.now }

/-- `apply_token_bundle`, one assignment at a time: those made before one that
raises stay on the object. -/
def applyTokenBundle (settings : Settings) (connectionId : Nat) (bundle : TokenBundle) :
    ConnectorProc Unit := do
  assign connectionId (sealAccessToken settings bundle)
  assign connectionId (sealRefreshToken settings bundle)
  assign connectionId (stampExpiry bundle)
  assign connectionId markHealthy

def markReconsent (stamp : Stamp) (a : Attributes) : Except Failure Attributes :=
  .ok { a with
    status := .needsReconsent
    lastError := some "Refresh token invalidé par le provider (invalid_grant)."
    healthCheckedAt := some stamp.now }

def markRefreshFailed (e : Failure) (stamp : Stamp) (a : Attributes) :
    Except Failure Attributes :=
  .ok { a with
    lastError := some s!"Refresh échoué : {e.className}"
    healthCheckedAt := some stamp.now }

/-- The body of the `try` of `refresh_connection`. -/
def grantUnderLock (settings : Settings) (connection : Connection) : ConnectorProc TokenBundle := do
  let refreshToken ← .ofExcept (settings.keys.decrypt connection.attributes.refreshTokenEnc)
  runWithBackoff connection.provider (refreshTokenGrant settings connection refreshToken)
    maxAttempts

/-- The `try` with its handlers: the bundle, or `none` when consent is lost. -/
def refreshUnderLock (settings : Settings) (connection : Connection) :
    ConnectorProc (Option TokenBundle) := do
  match ← (grantUnderLock settings connection).attempt with
  | .ok bundle => return some bundle
  | .error (.invalidGrant _) =>
      assign connection.id markReconsent
      recordAuditEvent "connector.reconsent_required" "connector_connection" connection.id
        [("provider", some connection.provider.value),
          ("account", some connection.attributes.accountLabel)]
      return none
  | .error e =>
      if e.transient then
        assign connection.id (markRefreshFailed e)
      throw e

/-- The lock of a refresh.  `none`: there is nothing to do, because the lock is
taken (`block=False`) or because the other refresh did the work (`block=True`). -/
def lockForRefresh (connectionId : Nat) (block : Bool) : ConnectorProc (Option Nat) :=
  match block with
  | false => ask (.acquireLock (.refresh connectionId))
  | true => do
      let token ← waitForLock (.refresh connectionId) 20
      if !(← ask (.refreshObject connectionId)) then
        throw .databaseError
      if ← ask (.expiring connectionId expirySkew) then
        return some token
      releaseLock (.refresh connectionId) token
      return none

/-- `refresh_connection`; the caller commits. -/
def refreshConnection (settings : Settings) (connectionId : Nat) (block : Bool) :
    ConnectorProc Bool := do
  let some token ← lockForRefresh connectionId block | return false
  let connection ← readObject connectionId
  let outcome ← (refreshUnderLock settings connection).attempt
  -- The `finally`: the lock goes before the caller commits.
  releaseLock (.refresh connectionId) token
  match outcome with
  | .error e => throw e
  | .ok none => return false
  | .ok (some bundle) =>
      applyTokenBundle settings connectionId bundle
      return true

def markRevoked (stamp : Stamp) (a : Attributes) : Except Failure Attributes :=
  .ok { a with
    accessTokenEnc := []
    refreshTokenEnc := []
    status := .revoked
    lastError := none
    healthCheckedAt := some stamp.now }

/-- The best-effort revocation at the provider. -/
def revokeAtProvider (settings : Settings) (connection : Connection) : ConnectorProc Unit := do
  let refreshToken ← .ofExcept (settings.keys.decrypt connection.attributes.refreshTokenEnc)
  let _ ← ask (.revokeRemote connection.id connection.provider refreshToken)

def revokeConnection (settings : Settings) (connectionId : Nat) : ConnectorProc Unit := do
  let connection ← readObject connectionId
  if (getProvider connection.provider).hasRevokeEndpoint then
    let _ ← (revokeAtProvider settings connection).attempt
  assign connectionId markRevoked

/-! ### `app.connectors.client_base` -/

/-- The refresh of `fresh_access_token`, with its commit. -/
def refreshIfExpiring (settings : Settings) (connectionId : Nat) : ConnectorProc Unit := do
  if ← ask (.expiring connectionId expirySkew) then
    let _ ← refreshConnection settings connectionId true
    commit

def freshAccessToken (settings : Settings) (connectionId : Nat) : ConnectorProc PyStr := do
  let connection ← readObject connectionId
  if connection.attributes.status ≠ .active then
    throw (.connectorCallError
      s!"Connexion {connectionId} non active ({connection.attributes.status.value}).")
  refreshIfExpiring settings connectionId
  let refreshed ← readObject connectionId
  .ofExcept (settings.keys.decrypt refreshed.attributes.accessTokenEnc)

/-- One attempt of `provider_http_request`. -/
def readCall : HttpAnswer → Except Failure Response
  | .transportError className => .error (.httpError className)
  | .response response =>
      if retryable response.statusCode then .error (.providerResponse response.statusCode)
      else .ok response

def callOnce (connectionId : Nat) (method path : String) (accessToken : PyStr) :
    ConnectorProc Response := do
  .ofExcept (readCall (← ask (.callApi connectionId method path accessToken)))

/-- The refusal of a definitive error status. -/
def accepted (provider : ConnectorProvider) (method path : String) (response : Response) :
    Except Failure Response :=
  if 400 ≤ response.statusCode then
    .error (.connectorCallError
      s!"Appel {provider.value} refusé (HTTP {response.statusCode}, {method} {path}).")
  else .ok response

def providerHttpRequest (connection : Connection) (method path : String) (accessToken : PyStr) :
    ConnectorProc Response := do
  let response ← runWithBackoff connection.provider
    (callOnce connection.id method path accessToken) maxAttempts
  .ofExcept (accepted connection.provider method path response)

/-- A fresh token, then the call: `graph_request`. -/
def requestWithFreshToken (settings : Settings) (connectionId : Nat) (method path : String) :
    ConnectorProc Response := do
  let accessToken ← freshAccessToken settings connectionId
  let connection ← readObject connectionId
  providerHttpRequest connection method path accessToken

/-- One call through the Google SDK: every error status is an `HttpError`. -/
def readSdkCall : HttpAnswer → Except Failure Response
  | .transportError className => .error (.httpError className)
  | .response response =>
      if 400 ≤ response.statusCode then .error (.providerResponse response.statusCode)
      else .ok response

def callSdkOnce (connectionId : Nat) (method path : String) (accessToken : PyStr) :
    ConnectorProc Response := do
  .ofExcept (readSdkCall (← ask (.callApi connectionId method path accessToken)))

/-- `_execute` of the Google capabilities. -/
def executeSdk (settings : Settings) (connectionId : Nat) (method path : String) :
    ConnectorProc Response := do
  let accessToken ← freshAccessToken settings connectionId
  runWithBackoff .google (callSdkOnce connectionId method path accessToken) maxAttempts

def capabilityRequest (settings : Settings) (connection : Connection) (method path : String) :
    ConnectorProc Response :=
  match connection.provider with
  | .google => executeSdk settings connection.id method path
  | .microsoft => requestWithFreshToken settings connection.id method path

/-- `get_capability` on a connection the session has loaded. -/
def getCapability (connectionId : Nat) (name : String) : ConnectorProc Connection := do
  let connection ← readObject connectionId
  if connection.attributes.status ≠ .active then
    throw (.capabilityError
      s!"Connexion {connectionId} non active ({connection.attributes.status.value}).")
  if !((getProvider connection.provider).capabilityScopes.any fun entry => entry.1 == name) then
    throw (.capabilityError s!"Capability '{name}' non supportée par {connection.provider.value}.")
  if !(grantedCapabilities connection).contains name then
    throw (.capabilityError s!"Capability '{name}' non consentie par la connexion {connectionId} (scopes insuffisants — re-consentement requis).")
  return connection

/-- The requests of one capability method: one call, or one for each page. -/
def capabilityRequests (settings : Settings) (connection : Connection) :
    List (String × String) → ConnectorProc Unit
  | [] => return ()
  | (method, path) :: rest => do
      let _ ← capabilityRequest settings connection method path
      capabilityRequests settings connection rest

/-- A capability call of a module, in a session of its own. -/
def capabilityCall (settings : Settings) (tenantId connectionId : Nat) (name : String)
    (requests : List (String × String)) : ConnectorProc Unit := do
  ask (.openSession tenantId)
  if !(← ask (.getConnection connectionId)) then
    return ()
  let connection ← getCapability connectionId name
  capabilityRequests settings connection requests

/-! ### `app.connectors.subscriptions` -/

/-- `RENEWAL_LEAD`. -/
def renewalLead : Instant := 24 * 3600000000

def hours (n : Int) : Instant := n * 3600000000

def parseExpiration (settings : Settings) (value : Option Json) (default : Instant) :
    Except Failure Instant :=
  match optionalText value with
  | none | some [] => .ok default
  | some text => settings.parseInstant text

/-- `payload.get` on what `response.json()` returned. -/
def payloadOf (response : Response) : Except Failure (List (PyStr × Json)) :=
  match response.body.load with
  | .error e => .error e
  | .ok (.obj fields) => .ok fields
  | .ok _ => .error .attributeError

/-- `str(payload.get(key, ""))`. -/
def textOf (settings : Settings) : Option Json → PyStr
  | none => []
  | some (.str text) => text
  | some value => settings.render value

def createGoogleChannel (settings : Settings) (connectionId : Nat) : ConnectorProc Unit := do
  let clientState ← ask .generateToken
  let channelId ← ask .uuid
  let accessToken ← freshAccessToken settings connectionId
  let connection ← readObject connectionId
  let response ← providerHttpRequest connection "POST"
    "/calendar/v3/calendars/primary/events/watch" accessToken
  let payload ← .ofExcept (payloadOf response)
  let default := (← ask .now) + hours (getProvider connection.provider).subscriptionTtlHours
  let expiresAt ← .ofExcept (parseExpiration settings (get? payload "expiration") default)
  ask (.addSubscription connectionId capabilityCalendar (py (toString channelId)) expiresAt
    (settings.hashToken clientState))

def stopGoogleChannel (settings : Settings) (connectionId : Nat) : ConnectorProc Unit := do
  let _ ← (requestWithFreshToken settings connectionId "POST"
    "/calendar/v3/channels/stop").attempt

def createGraphSubscription (settings : Settings) (connectionId : Nat) (capability : String) :
    ConnectorProc Unit := do
  let clientState ← ask .generateToken
  let expiresAt := (← ask .now) + hours (getProvider .microsoft).subscriptionTtlHours
  let accessToken ← freshAccessToken settings connectionId
  let connection ← readObject connectionId
  let response ← providerHttpRequest connection "POST" "/v1.0/subscriptions" accessToken
  let payload ← .ofExcept (payloadOf response)
  let expiresAt ← .ofExcept
    (parseExpiration settings (get? payload "expirationDateTime") expiresAt)
  ask (.addSubscription connectionId capability (textOf settings (get? payload "id")) expiresAt
    (settings.hashToken clientState))

/-- The loop of `ensure_subscriptions` over the granted capabilities. -/
def ensureEach (settings : Settings) (connection : Connection) (existing : List String) :
    List String → ConnectorProc Unit
  | [] => return ()
  | capability :: rest => do
      if existing.contains capability then
        ensureEach settings connection existing rest
      else if connection.provider = .google then
        if capability = capabilityMail then
          ensureEach settings connection existing rest
        else do
          createGoogleChannel settings connection.id
          ensureEach settings connection existing rest
      else do
        createGraphSubscription settings connection.id capability
        ensureEach settings connection existing rest

def ensureSubscriptions (settings : Settings) (connectionId : Nat) : ConnectorProc Unit := do
  let connection ← readObject connectionId
  let existing ← ask (.selectSubscriptions connectionId)
  ensureEach settings connection (existing.map (·.capability)) (grantedCapabilities connection)

def textString (s : PyStr) : String := String.ofList (s.map Char.ofNat)

def renewSubscription (settings : Settings) (connection : Connection)
    (subscription : Subscription) : ConnectorProc Unit :=
  match connection.provider with
  | .microsoft => do
      let expiresAt := (← ask .now) + hours (getProvider .microsoft).subscriptionTtlHours
      let accessToken ← freshAccessToken settings connection.id
      let _ ← providerHttpRequest connection "PATCH"
        ("/v1.0/subscriptions/" ++ textString subscription.providerSubscriptionId) accessToken
      ask (.setExpiry subscription.id expiresAt)
  | .google => do
      createGoogleChannel settings connection.id
      stopGoogleChannel settings connection.id
      ask (.deleteSubscription subscription.id)

/-! ### `app.connectors.tasks` -/

structure RefreshReport where
  refreshed : Nat
  skipped : Nat
  failed : Nat
  deriving DecidableEq

/-- What the refresh of one connection adds to the report of its tenant. -/
def countRefresh (settings : Settings) (connectionId : Nat) (report : RefreshReport) :
    ConnectorProc RefreshReport := do
  match ← (refreshConnection settings connectionId false).attempt with
  | .ok true => return { report with refreshed := report.refreshed + 1 }
  | .ok false => return { report with skipped := report.skipped + 1 }
  | .error e =>
      if e.transient then return { report with failed := report.failed + 1 }
      else throw e

def refreshEach (settings : Settings) (lead : Instant) :
    List Nat → RefreshReport → ConnectorProc RefreshReport
  | [], report => return report
  | connectionId :: rest, report => do
      if ← ask (.expiring connectionId lead) then
        let report ← countRefresh settings connectionId report
        commit
        refreshEach settings lead rest report
      else
        refreshEach settings lead rest report

def refreshTenant (settings : Settings) (lead : Instant) (tenant : Tenant) :
    ConnectorProc (String × RefreshReport) := do
  ask (.openSession tenant.id)
  let connections ← ask .selectActiveConnections
  let report ← refreshEach settings lead connections ⟨0, 0, 0⟩
  return (tenant.slug, report)

def refreshTenants (settings : Settings) (lead : Instant) :
    List Tenant → ConnectorProc (List (String × RefreshReport))
  | [] => return []
  | tenant :: rest => do
      let report ← refreshTenant settings lead tenant
      return report :: (← refreshTenants settings lead rest)

def refreshLead (settings : Settings) : Instant :=
  settings.connectorRefreshLeadMinutes * 60000000

/-- The refresh beat. -/
def refreshExpiringTokens (settings : Settings) :
    ConnectorProc (List (String × RefreshReport)) := do
  refreshTenants settings (refreshLead settings) (← ask .activeTenants)

structure RenewalReport where
  renewed : Nat
  failed : Nat
  deriving DecidableEq

def markRenewed (stamp : Stamp) (a : Attributes) : Except Failure Attributes :=
  .ok { a with healthCheckedAt := some stamp.now }

def markRenewalFailed (e : Failure) (stamp : Stamp) (a : Attributes) :
    Except Failure Attributes :=
  .ok { a with
    status := .error
    lastError := some s!"Renouvellement de subscription échoué : {e.className}"
    healthCheckedAt := some stamp.now }

/-- The body of the `try` of a renewal; `false` is the `continue` of a connection
without a webhook route. -/
def renewOnRoute (settings : Settings) (connection : Connection) (subscription : Subscription) :
    ConnectorProc Bool := do
  match ← ask (.selectRoute connection.id) with
  | none => return false
  | some _ =>
      renewSubscription settings connection subscription
      assign connection.id markRenewed
      return true

/-- The `try` with its handler: `some true` counts as renewed, `some false` as
failed, `none` goes to the next subscription without a commit. -/
def renewUnderLock (settings : Settings) (connection : Connection)
    (subscription : Subscription) : ConnectorProc (Option Bool) := do
  match ← (renewOnRoute settings connection subscription).attempt with
  | .ok true => return some true
  | .ok false => return none
  | .error e =>
      assign connection.id (markRenewalFailed e)
      recordAuditEvent "connector.subscription_renewal_failed" "connector_subscription"
        subscription.id
        [("provider", some connection.provider.value),
          ("capability", some subscription.capability)]
      return some false

/-- The part of a renewal between the lock and the commit. -/
def renewLocked (settings : Settings) (connection : Connection) (subscription : Subscription)
    (token : Nat) (report : RenewalReport) : ConnectorProc RenewalReport := do
  let outcome ← renewUnderLock settings connection subscription
  releaseLock (.renew subscription.id) token
  match outcome with
  | none => return report
  | some true => do
      commit
      return { report with renewed := report.renewed + 1 }
  | some false => do
      commit
      return { report with failed := report.failed + 1 }

def renewOne (settings : Settings) (subscription : Subscription) (report : RenewalReport) :
    ConnectorProc RenewalReport := do
  if !(← ask (.getConnection subscription.connectionId)) then
    return report
  let connection ← readObject subscription.connectionId
  if connection.attributes.status ≠ .active then
    return report
  match ← ask (.acquireLock (.renew subscription.id)) with
  | none => return report
  | some token => renewLocked settings connection subscription token report

def renewEach (settings : Settings) :
    List Subscription → RenewalReport → ConnectorProc RenewalReport
  | [], report => return report
  | subscription :: rest, report => do
      let report ← renewOne settings subscription report
      renewEach settings rest report

def renewTenant (settings : Settings) (horizon : Instant) (tenant : Tenant) :
    ConnectorProc (String × RenewalReport) := do
  ask (.openSession tenant.id)
  let expiring ← ask (.selectExpiringSubscriptions horizon)
  let report ← renewEach settings expiring ⟨0, 0⟩
  return (tenant.slug, report)

def renewTenants (settings : Settings) (horizon : Instant) :
    List Tenant → ConnectorProc (List (String × RenewalReport))
  | [] => return []
  | tenant :: rest => do
      let report ← renewTenant settings horizon tenant
      return report :: (← renewTenants settings horizon rest)

/-- The renewal beat. -/
def renewExpiringSubscriptions (settings : Settings) :
    ConnectorProc (List (String × RenewalReport)) := do
  let horizon := (← ask .now) + renewalLead
  renewTenants settings horizon (← ask .activeTenants)

def markSyncFailed (e : Failure) (_ : Stamp) (a : Attributes) : Except Failure Attributes :=
  .ok { a with lastError := some s!"Création de subscription échouée : {e.className}" }

/-- The session of a subscription sync. -/
def syncInSession (settings : Settings) (tenantId connectionId : Nat) : ConnectorProc Unit := do
  ask (.openSession tenantId)
  if !(← ask (.getConnection connectionId)) then
    return ()
  let connection ← readObject connectionId
  if connection.attributes.status ≠ .active then
    return ()
  match ← (ensureSubscriptions settings connectionId).attempt with
  | .ok _ => commit
  | .error e => do
      assign connectionId (markSyncFailed e)
      commit

def syncConnectionSubscriptions (settings : Settings) (slug : String) (connectionId : Nat) :
    ConnectorProc Unit := do
  match (← ask .activeTenants).filter fun t => t.slug == slug with
  | [] => return ()
  | tenant :: _ => do
      match ← ask (.selectRoute connectionId) with
      | none => return ()
      | some _ => syncInSession settings tenant.id connectionId

/-- `process_connector_event`; the handlers are those the registry holds for
the capability. -/
def processConnectorEvent (handlers : String → List (ConnectorProc Unit)) (slug : String)
    (connectionId : Nat) (provider capability changeType : String) (resourceId : Option String) :
    ConnectorProc Unit := do
  match (← ask .activeTenants).filter fun t => t.slug == slug with
  | [] => return ()
  | tenant :: _ => do
      if provider ≠ "google" ∧ provider ≠ "microsoft" then
        throw (.valueError "ValueError")
      ask (.openSession tenant.id)
      if !(← ask (.getConnection connectionId)) then
        return ()
      assign connectionId markRenewed
      recordAuditEvent "connector.event_received" "connector_connection" connectionId
        [("provider", some provider), ("capability", some capability),
          ("change_type", some changeType), ("resource_id", resourceId)]
      commit
      (handlers capability).forM id

/-! ### `app.connectors.router` -/

/-- `auth.user.display_name or auth.user.email`. -/
def actorLabel (user : User) : String :=
  match user.displayName with
  | some name => if name = "" then user.email else name
  | none => user.email

/-- `connector_revoke`, after its permission check. -/
def connectorRevoke (settings : Settings) (tenantId : Nat) (actor : User) (connectionId : Nat) :
    ConnectorProc Unit := do
  ask (.openSession tenantId)
  if !(← ask (.getConnection connectionId)) then
    throw (.http 404 "Connexion introuvable")
  let connection ← readObject connectionId
  if connection.attributes.status = .revoked then
    return ()
  revokeConnection settings connectionId
  ask (.deleteSubscriptionsOf connectionId)
  ask (.addAuditEvent ⟨0, "connector.revoked", "connector_connection", connectionId,
    [("provider", some connection.provider.value),
      ("account", some connection.attributes.accountLabel)], some actor.id, actorLabel actor⟩)
  commit
  ask (.deleteRoutesOf connectionId)
  commitControl

/-- `_validate_return_host`: the apex or one of its subdomains. -/
def validateReturnHost (settings : Settings) (host : String) : String :=
  let bare := (host.splitOn ":").headD ""
  let apexBare := (settings.apexHost.splitOn ":").headD ""
  if bare = apexBare || bare.endsWith ("." ++ apexBare) then host else settings.apexHost

/-- What the signed state of an OAuth flow carries. -/
structure OAuthState where
  tenantSlug : String
  userId : Option Nat
  kind : ConnectionKind
  capabilities : List String
  returnHost : String
  connectionId : Option Nat
  deriving DecidableEq

/-- `connector_reconsent`: the state of the flow it starts. -/
def connectorReconsent (settings : Settings) (tenantId : Nat) (slug returnHost : String)
    (actor : User) (connectionId : Nat) : ConnectorProc OAuthState := do
  ask (.openSession tenantId)
  if !(← ask (.getConnection connectionId)) then
    throw (.http 404 "Connexion introuvable")
  let connection ← readObject connectionId
  if connection.attributes.status ≠ .needsReconsent then
    throw (.http 409 "La connexion n'attend pas de re-consentement")
  let granted := grantedCapabilities connection
  let capabilities := if granted = [] then
      (getProvider connection.provider).capabilityScopes.map (·.1) else granted
  match clientCredentials settings connection.provider with
  | .error (.connectorError message) => throw (.http 503 message)
  | .error e => throw e
  | .ok _ => return ⟨slug, some actor.id, connection.kind, capabilities,
      validateReturnHost settings returnHost, some connectionId⟩

/-- `connectors_list`. -/
def connectorsList (tenantId : Nat) : ConnectorProc (List Connection) := do
  ask (.openSession tenantId)
  ask .selectConnections

/-! ### `app.connectors.oauth` -/

def pyLt : PyStr → PyStr → Bool
  | _, [] => false
  | [], _ :: _ => true
  | a :: as, b :: bs => decide (a < b) || (a == b && pyLt as bs)

def insertScope (scope : PyStr) : List PyStr → List PyStr
  | [] => [scope]
  | s :: rest =>
      if scope = s then s :: rest
      else if pyLt scope s then scope :: s :: rest
      else s :: insertScope scope rest

/-- `sorted(set(a) | set(b))`. -/
def scopeUnion (a b : List PyStr) : List PyStr := (a ++ b).foldr insertScope []

/-- The text of a label; the driver refuses to send a lone surrogate. -/
def labelText (label : PyStr) : Except Failure String :=
  if encodable label then .ok (textString label)
  else .error .unicodeEncodeError

/-- The connection a callback is for: the one its state names, else the live
one of the same account. -/
def connectionFor (provider : ConnectorProvider) (kind : ConnectionKind) (accountLabel : String)
    (connectionId : Option Nat) : ConnectorProc (Option Nat) :=
  match connectionId with
  | none => ask (.findConnection provider kind accountLabel)
  | some connectionId => do
      if ← ask (.getConnection connectionId) then
        return some connectionId
      ask (.findConnection provider kind accountLabel)

def widenScopes (accountLabel : String) (scopes : List PyStr) (_ : Stamp) (a : Attributes) :
    Except Failure Attributes :=
  .ok { a with accountLabel := accountLabel, scopes := scopeUnion a.scopes scopes }

/-- The object `_upsert_connection` applies the tokens to. -/
def upsertTarget (provider : ConnectorProvider) (kind : ConnectionKind) (userId : Option Nat)
    (accountLabel : String) (scopes : List PyStr) (bundle : TokenBundle)
    (connectionId : Option Nat) : ConnectorProc Nat := do
  match ← connectionFor provider kind accountLabel connectionId with
  | some found => do
      assign found (widenScopes accountLabel scopes)
      return found
  | none => do
      if bundle.refreshToken = none then
        throw (.missingRefreshToken s!"{provider.value} n'a pas émis de refresh token — reconnectez le compte (chez Google, le consentement doit être re-demandé avec prompt=consent).")
      ask (.addConnection provider kind userId accountLabel scopes)

def upsertConnection (settings : Settings) (provider : ConnectorProvider) (kind : ConnectionKind)
    (userId : Option Nat) (accountLabel : String) (scopes : List PyStr) (bundle : TokenBundle)
    (connectionId : Option Nat) : ConnectorProc Nat := do
  let target ← upsertTarget provider kind userId accountLabel scopes bundle connectionId
  applyTokenBundle settings target bundle
  let connection ← readObject target
  if connection.attributes.refreshTokenEnc = [] then
    throw (.missingRefreshToken
      s!"{provider.value} n'a pas émis de refresh token pour cette connexion.")
  return target

def ensureWebhookRoute (tenantId : Nat) (provider : ConnectorProvider) (connectionId : Nat) :
    ConnectorProc Unit := do
  match ← ask (.selectRoute connectionId) with
  | some _ => return ()
  | none => do
      let routeKey ← ask .generateToken
      ask (.addRoute ⟨routeKey, provider.value, tenantId, connectionId⟩)

/-- The redirections of the callback. -/
inductive Redirect where
  | denied (returnHost : String)
  | connected (returnHost : String) (provider : ConnectorProvider)
  deriving DecidableEq

/-- `except (ConnectorError, httpx.HTTPError)` around the code exchange; the
subclasses of `ConnectorError` are caught with it. -/
def oauthFailure : Failure → Failure
  | .connectorError message => .http 400 message
  | .invalidGrant message => .http 400 message
  | .missingRefreshToken message => .http 400 message
  | .httpError _ => .http 502 "Provider OAuth injoignable"
  | e => e

def exchangeAndLabel (settings : Settings) (tenantId : Nat) (provider : ConnectorProvider)
    (code : String) : ConnectorProc (TokenBundle × PyStr) := do
  let bundle ← exchangeCode settings tenantId provider code
  let label ← fetchAccountLabel tenantId provider bundle.accessToken
  return (bundle, label)

def missingRefreshTokenFailure : Failure → Failure
  | .missingRefreshToken message => .http 400 message
  | e => e

/-- Translate the exceptions of a block. -/
def rethrow {α : Type} (f : Failure → Failure) (p : ConnectorProc α) : ConnectorProc α := do
  match ← p.attempt with
  | .ok a => return a
  | .error e => throw (f e)

def grantedScopes (provider : ConnectorProvider) (capabilities : List String)
    (bundle : TokenBundle) : Except Failure (List PyStr) :=
  if bundle.scopes ≠ [] then .ok bundle.scopes
  else (scopesFor (getProvider provider) capabilities).map fun scopes => scopes.map py

/-- The session of the callback: the connection, its audit event, the commit. -/
def connectInSession (settings : Settings) (provider : ConnectorProvider) (state : OAuthState)
    (tenantId : Nat) (bundle : TokenBundle) (accountLabel : PyStr) (scopes : List PyStr) :
    ConnectorProc Nat := do
  ask (.openSession tenantId)
  let label ← .ofExcept (labelText accountLabel)
  let connectionId ← rethrow missingRefreshTokenFailure
    (upsertConnection settings provider state.kind
      (if state.kind = .user then state.userId else none) label scopes bundle
      state.connectionId)
  ask (.addAuditEvent ⟨0, "connector.connected", "connector_connection", connectionId,
    [("provider", some provider.value), ("account", some label), ("kind", some state.kind.value),
      ("capabilities", some (String.intercalate "," state.capabilities))],
    state.userId, label⟩)
  commit
  return connectionId

/-- `connector_oauth_callback`; `state` is what `parse_state` makes of the query
parameter, `none` when it is refused. -/
def connectorOauthCallback (settings : Settings) (provider : ConnectorProvider)
    (state : Option OAuthState) (code : Option String) (error : Option String) :
    ConnectorProc Redirect := do
  let some state := state | throw (.http 400 "State OAuth invalide")
  let returnHost := validateReturnHost settings state.returnHost
  let some code := code | return .denied returnHost
  if error.isSome then
    return .denied returnHost
  let some tenant ← ask (.selectTenantBySlug state.tenantSlug)
    | throw (.http 400 "Tenant introuvable ou inactif")
  if tenant.state ≠ .active ∨ tenant.deletedAt.isSome then
    throw (.http 400 "Tenant introuvable ou inactif")
  let (bundle, label) ← rethrow oauthFailure (exchangeAndLabel settings tenant.id provider code)
  let scopes ← .ofExcept (grantedScopes provider state.capabilities bundle)
  let connectionId ← connectInSession settings provider state tenant.id bundle label scopes
  ensureWebhookRoute tenant.id provider connectionId
  commitControl
  ask (.enqueue (.syncSubscriptions tenant.slug connectionId))
  return .connected returnHost provider

/-- Both OAuth apps are configured; no text is an instant. -/
def configured : Settings where
  keys := framedKeys
  hashToken := id
  parseInstant _ := .error (.valueError "ValueError")
  render _ := []
  googleConnectorClientId := "client"
  googleConnectorClientSecret := "secret"
  microsoftConnectorClientId := "client"
  microsoftConnectorClientSecret := "secret"
  connectorRefreshLeadMinutes := 10
  apexHost := "localhost:8000"

/-- A 200 answer of the token endpoint that rotates the refresh token. -/
def tokenAnswer (accessToken refreshToken : String) : HttpAnswer :=
  .response ⟨200, .json (.obj [(py "access_token", .str (py accessToken)),
    (py "refresh_token", .str (py refreshToken)), (py "expires_in", .int 3600)])⟩

/-- An active Microsoft connection of tenant 1, its access token expired. -/
def expiredConnection (id : Nat) : Connection :=
  ⟨id, 1, .microsoft, .tenant, none,
    ⟨"contact@example.org", [py "Mail.Read", py "Mail.Send"], framedKeys.encrypt 1 (py "access"),
      framedKeys.encrypt 2 (py "refresh"), 0, .active, none, none⟩⟩

/-- One active tenant with these connections. -/
def tablesWith (connections : List Connection) (subscriptions : List Subscription)
    (routes : List WebhookRoute) : Tables :=
  ⟨⟨[⟨1, "acme", "Acme", .active, none⟩], [], [], [], [], [], [], [], String.toLower⟩, connections,
    subscriptions, routes⟩

end Socle.ConnectorService
