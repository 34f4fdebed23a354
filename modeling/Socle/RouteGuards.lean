import Socle.DirectoryService
import Socle.ModuleScheduler
import Socle.TokenExchange

/-!
The decision in front of every guarded route: the origin check of the
middleware, the tenant of the host, the session of the cookie, the membership,
the activation of the module and the permission of the role.
-/

namespace Socle.RouteGuards

open Socle.KeyedTable
open Socle.DirectoryStore
open Socle.DirectoryService
open Socle.TokenExchange
open Socle.ModuleScheduler (TenantModule)

/-! ### Header texts -/

inductive Method where
  | get
  | head
  | options
  | post
  | put
  | patch
  | delete
  deriving DecidableEq, Repr

/-- `_MUTATING_METHODS`. -/
def Method.mutating : Method → Bool
  | .post => true
  | .put => true
  | .patch => true
  | .delete => true
  | _ => false

/-- What the decision reads of a request.  Header values are Latin-1 texts. -/
structure HttpRequest where
  method : Method
  host : Option PyStr
  origin : Option PyStr
  sessionCookie : Option PyStr
  deriving DecidableEq

/-- `str.strip()`. -/
def strip (s : PyStr) : PyStr :=
  ((s.dropWhile isSplitSpace).reverse.dropWhile isSplitSpace).reverse

/-- `str.lower()` on a character, as far as a comparison with Latin-1 text can
tell: outside Latin-1, four characters have their lower case there. -/
def lower (c : Nat) : Nat :=
  if (65 ≤ c ∧ c ≤ 90) ∨ (0xC0 ≤ c ∧ c ≤ 0xDE ∧ c ≠ 0xD7) then c + 32
  else if c = 0x178 then 0xFF
  else if c = 0x1E9E then 0xDF
  else if c = 0x212A then 0x6B
  else if c = 0x212B then 0xE5
  else c

/-- `value.split(":", 1)[0].strip().lower()`: the port stripped, trimmed, in
lower case. -/
def bareHost (value : PyStr) : PyStr := (strip (value.takeWhile fun c => c != 58)).map lower

def labels (host : PyStr) : List PyStr := (bareHost host).splitOn 46

def isLowerLetter (c : Nat) : Bool := decide (97 ≤ c) && decide (c ≤ 122)

def isDigit (c : Nat) : Bool := decide (48 ≤ c) && decide (c ≤ 57)

/-- `SLUG_RE`: a lower-case letter, then 1 to 38 letters, digits or hyphens. -/
def slugMatches : PyStr → Bool
  | [] => false
  | c :: rest =>
      isLowerLetter c && decide (1 ≤ rest.length) && decide (rest.length ≤ 38) &&
        rest.all fun c => isLowerLetter c || isDigit c || c == 45

def reservedSlugs : List String := ["www", "api", "admin", "app", "staging", "status", "grafana"]

def validateSlug (slug : String) : Except String String :=
  if slugMatches (py slug) = false then
    .error s!"Slug invalide : {DirectoryService.reprStr slug} — attendu ^[a-z][a-z0-9-]\x7b1,38\x7d$ (minuscules, chiffres, tirets, 2 à 39 caractères)"
  else if slug ∈ reservedSlugs then
    .error s!"Slug réservé par la plateforme : {DirectoryService.reprStr slug}"
  else .ok slug

def extractSlug (hostHeader : PyStr) : Option PyStr :=
  match labels hostHeader with
  | candidate :: _ :: _ => if slugMatches candidate then some candidate else none
  | _ => none

/-! ### The origin check -/

/-- Settings, SHA-256, and the bracketed hosts (IPv6 literals) that `urlsplit`
accepts. -/
structure Settings where
  sessionCookieDomain : PyStr
  hashToken : PyStr → String
  bracketedNetloc : PyStr → Bool
  moduleGrants : Role → List String

def isSchemeChar (c : Nat) : Bool :=
  isLowerLetter c || (decide (65 ≤ c) && decide (c ≤ 90)) || isDigit c || c == 43 || c == 45 ||
    c == 46

def isAsciiLetter (c : Nat) : Bool := isLowerLetter c || (decide (65 ≤ c) && decide (c ≤ 90))

/-- `urlsplit` takes a scheme off the front of the URL when there is one. -/
def withoutScheme (url : PyStr) : PyStr :=
  let scheme := url.takeWhile fun c => c != 58
  if scheme.length < url.length ∧ (scheme.head?.any isAsciiLetter) ∧ scheme.all isSchemeChar then
    url.drop (scheme.length + 1)
  else url

/-- `urlsplit(url).netloc`; `none` when it raises `ValueError`. -/
def netloc (settings : Settings) (url : PyStr) : Option PyStr :=
  let url := (url.dropWhile fun c => decide (c ≤ 32)).filter fun c => c != 9 && c != 10 && c != 13
  match withoutScheme url with
  | 47 :: 47 :: rest =>
      let host := rest.takeWhile fun c => c != 47 && c != 63 && c != 35
      if host.contains 91 || host.contains 93 then
        if host.contains 91 && host.contains 93 && settings.bracketedNetloc host then some host
        else none
      else some host
  | _ => some []

/-- `origin_allowed`; `none` when it raises. -/
def originAllowed (settings : Settings) (origin requestHost : PyStr) : Option Bool :=
  (netloc settings origin).map fun netloc =>
    let originHost := bareHost netloc
    if originHost = [] then false
    else if originHost = bareHost requestHost then true
    else
      let cookieDomain := (settings.sessionCookieDomain.dropWhile fun c => c == 46).map lower
      !cookieDomain.isEmpty &&
        (originHost == cookieDomain || (46 :: cookieDomain).isSuffixOf originHost)

/-- What `CsrfOriginMiddleware` concludes; `none` when it raises. -/
def originCheck (settings : Settings) (request : HttpRequest) : Option Bool :=
  if request.method.mutating then
    match request.origin with
    | some origin => originAllowed settings origin (request.host.getD [])
    | none => some true
  else some true

/-! ### Permissions -/

def CorePermission.value : CorePermission → String
  | .membersRead => "core.members.read"
  | .membersManage => "core.members.manage"
  | .teamsRead => "core.teams.read"
  | .teamsManage => "core.teams.manage"
  | .tenantSettings => "core.tenant.settings"
  | .auditRead => "core.audit.read"
  | .connectorsRead => "core.connectors.read"
  | .connectorsManage => "core.connectors.manage"
  | .aiUse => "core.ai.use"

def corePermissions : List CorePermission :=
  [.membersRead, .membersManage, .teamsRead, .teamsManage, .tenantSettings, .auditRead,
    .connectorsRead, .connectorsManage, .aiUse]

/-- `PERMISSIONS`. -/
def permissions : List String := corePermissions.map CorePermission.value

/-- `ROLE_PERMISSIONS`. -/
def rolePermissions (role : Role) : List String :=
  (corePermissions.filter fun p => DirectoryService.roleHasPermission role p).map
    CorePermission.value

/-- `_MODULE_PERMISSION_RE`: a module name other than `core`, a dot, an action. -/
def modulePermissionMatches (permission : PyStr) : Bool :=
  let name := permission.takeWhile fun c => c != 46
  let action := permission.drop (name.length + 1)
  let isWordChar := fun c => isLowerLetter c || isDigit c || c == 95
  decide (name.length < permission.length) && name != py "core" &&
    name.head?.any isLowerLetter && decide (2 ≤ name.length) && decide (name.length ≤ 31) &&
    name.all isWordChar && action.head?.any isLowerLetter && decide (2 ≤ action.length) &&
    action.all fun c => isWordChar c || c == 46

/-- What `require_permission` checks of its argument when a route is declared. -/
def validatePermission (permission : String) : Except String String :=
  if (py "core.").isPrefixOf (py permission) then
    if permission ∈ permissions then .ok permission
    else .error s!"Permission inconnue du registre : {DirectoryService.reprStr permission}"
  else if modulePermissionMatches (py permission) then .ok permission
  else .error s!"Permission de module invalide : {DirectoryService.reprStr permission}"

/-- `role_has_permission`. -/
def roleHasPermission (settings : Settings) (role : Role) (permission : String) : Bool :=
  if permission ∈ rolePermissions role then true
  else decide (permission ∈ settings.moduleGrants role)

/-- A guarded route: its permission, and the module whose router it is on. -/
structure Route where
  permission : String
  moduleName : Option String
  declared : validatePermission permission = .ok permission

structure AuthSession where
  id : Nat
  userId : Nat
  tokenHash : String
  expiresAt : Instant
  lastSeenAt : Instant
  revokedAt : Option Instant
  deriving DecidableEq

/-- The rows the decision reads, under the unique constraints of the schema and
the slugs `provision_tenant` lets in; `stateCache` is the memory of the process. -/
structure Site where
  tenants : List Tenant
  users : List User
  memberships : List Membership
  sessions : List AuthSession
  modules : List TenantModule
  stateCache : List ((Nat × String) × Bool × Instant)
  slugsValid : ∀ t ∈ tenants, validateSlug t.slug = .ok t.slug
  slugsUnique : (tenants.map (·.slug)).Nodup
  usersUnique : (users.map (·.id)).Nodup
  membershipsUnique : (memberships.map fun m => (m.userId, m.tenantId)).Nodup
  sessionsUnique : (sessions.map (·.id)).Nodup
  tokenHashesUnique : (sessions.map (·.tokenHash)).Nodup
  modulesUnique : (modules.map TenantModule.key).Nodup

/-- The clock readings of a request: against the expiry, for `last_seen_at`, and
the monotonic one of the cache. -/
structure Readings where
  checked : Instant
  seen : Instant
  monotonic : Instant

/-- `last_seen_at` set on one session. -/
def AuthSession.touched (sessionId : Nat) (now : Instant) (s : AuthSession) : AuthSession :=
  if s.id = sessionId then { s with lastSeenAt := now } else s

theorem map_touched {κ : Type} (key : AuthSession → κ) {now : Instant}
    (hkey : ∀ s : AuthSession, key { s with lastSeenAt := now } = key s) (sessionId : Nat)
    (sessions : List AuthSession) :
    (sessions.map (AuthSession.touched sessionId now)).map key = sessions.map key := by
  rw [List.map_map]
  apply List.map_congr_left
  intro s _
  show key (s.touched sessionId now) = key s
  unfold AuthSession.touched
  split
  · exact hkey s
  · rfl

/-- `last_seen_at` of one session, committed. -/
def Site.touch (site : Site) (sessionId : Nat) (now : Instant) : Site :=
  { site with
    sessions := site.sessions.map (AuthSession.touched sessionId now)
    sessionsUnique := by
      rw [map_touched (·.id) fun _ => rfl]
      exact site.sessionsUnique
    tokenHashesUnique := by
      rw [map_touched (·.tokenHash) fun _ => rfl]
      exact site.tokenHashesUnique }

/-! ### The decision -/

structure TenantContext where
  tenantId : Nat
  slug : String
  role : Role
  deriving DecidableEq

/-- `detail` of the refusal of `require_module_enabled`. -/
def moduleDisabledDetail (moduleName : String) : String :=
  s!"Module « {moduleName} » non activé pour ce tenant."

/-- The body of the handler runs under a context, or the request is answered in
its place. -/
inductive Answer where
  | handler (ctx : TenantContext)
  | refused (status : Nat) (detail : String)
  | serverError
  deriving DecidableEq

/-- `resolve_session`: the session and its user, when both are there and the
session is neither revoked nor expired. -/
def resolveSession (settings : Settings) (site : Site) (token : PyStr) (now : Readings) :
    Option (AuthSession × User) :=
  match lookup AuthSession.tokenHash (settings.hashToken token) site.sessions with
  | none => none
  | some authSession =>
      if authSession.revokedAt.isSome then none
      else if authSession.expiresAt < now.checked then none
      else (lookup User.id authSession.userId site.users).map fun user => (authSession, user)

/-- `current_auth_or_none`, which commits `last_seen_at`. -/
def currentAuthOrNone (settings : Settings) (site : Site) (cookie : Option PyStr)
    (now : Readings) : Site × Option (AuthSession × User) :=
  match cookie with
  | none => (site, none)
  | some token =>
      if token = [] then (site, none)
      else
        match resolveSession settings site token now with
        | none => (site, none)
        | some (authSession, user) =>
            (site.touch authSession.id now.seen, some (authSession, user))

/-- The tenant of the host, unless it is deleted. -/
def tenantOf (site : Site) (host : Option PyStr) : Option Tenant :=
  match extractSlug (host.getD []) with
  | none => none
  | some slug =>
      match lookup (fun t : Tenant => py t.slug) slug site.tenants with
      | none => none
      | some tenant => if tenant.deletedAt.isSome then none else some tenant

/-- The membership of a user in a tenant. -/
def membershipOf (site : Site) (user : User) (tenant : Tenant) : Option Membership :=
  lookup (fun m : Membership => (m.userId, m.tenantId)) (user.id, tenant.id) site.memberships

def resolveTenant (site : Site) (host : Option PyStr) (auth : Option (AuthSession × User)) :
    Except Answer TenantContext :=
  match tenantOf site host with
  | none => .error (.refused 404 "Tenant introuvable")
  | some tenant =>
      if tenant.state = .suspended then .error (.refused 403 "Tenant suspendu")
      else
        match auth with
        | none => .error (.refused 401 "Authentification requise")
        | some (_, user) =>
            match membershipOf site user tenant with
            | none => .error (.refused 403 "Accès refusé à ce tenant")
            | some membership => .ok ⟨tenant.id, tenant.slug, membership.role⟩

/-- `_STATE_TTL_SECONDS`, in microseconds. -/
def stateTtl : Instant := 10000000

/-- The state of a module in the cache, while it is fresh. -/
def cachedState (site : Site) (tenantId : Nat) (moduleName : String) (now : Instant) :
    Option Bool :=
  match site.stateCache.find? fun entry => entry.1 == (tenantId, moduleName) with
  | some (_, enabled, until_) => if now < until_ then some enabled else none
  | none => none

def storedState (site : Site) (tenantId : Nat) (moduleName : String) : Bool :=
  (lookup TenantModule.key (tenantId, moduleName) site.modules).any (·.enabled)

/-- `is_module_enabled`: the cached state while it is fresh, else the stored one,
which is then cached. -/
def isModuleEnabled (site : Site) (tenantId : Nat) (moduleName : String) (now : Instant) :
    Site × Bool :=
  match cachedState site tenantId moduleName now with
  | some enabled => (site, enabled)
  | none =>
      let enabled := storedState site tenantId moduleName
      ({ site with stateCache := ((tenantId, moduleName), enabled, now + stateTtl) ::
          site.stateCache.filter fun entry => entry.1 != (tenantId, moduleName) }, enabled)

/-- `require_module_enabled`, on the routes of a module. -/
def requireModuleEnabled (site : Site) (route : Route) (ctx : TenantContext) (now : Instant) :
    Site × Except Answer Unit :=
  match route.moduleName with
  | none => (site, .ok ())
  | some moduleName =>
      let out := isModuleEnabled site ctx.tenantId moduleName now
      (out.1, if out.2 then .ok ()
        else .error (.refused 403 (moduleDisabledDetail moduleName)))

/-- A request to a guarded route: the middleware, then the dependencies in the
order in which they are solved. -/
def dispatch (settings : Settings) (site : Site) (route : Route) (request : HttpRequest)
    (now : Readings) : Site × Answer :=
  match originCheck settings request with
  | none => (site, .serverError)
  | some false => (site, .refused 403 "Origin non autorisée")
  | some true =>
      let (site, auth) := currentAuthOrNone settings site request.sessionCookie now
      match resolveTenant site request.host auth with
      | .error answer => (site, answer)
      | .ok ctx =>
          match requireModuleEnabled site route ctx now.monotonic with
          | (site, .error answer) => (site, answer)
          | (site, .ok _) =>
              if roleHasPermission settings ctx.role route.permission then (site, .handler ctx)
              else (site, .refused 403 "Permission refusée")

end Socle.RouteGuards
