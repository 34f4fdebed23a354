import Socle.RouteGuards

/-!
Authorization is exact: the rules that say which answer a request to a guarded
route calls for, and the decision of the guards against them.
-/

namespace Socle.AuthorizationExact

open Socle.KeyedTable
open Socle.DirectoryStore
open Socle.TokenExchange
open Socle.ModuleScheduler (TenantModule)
open Socle.RouteGuards

/-- The host names a tenant that is not deleted: at least two labels, the first
of them its slug. -/
def Names (site : Site) (request : HttpRequest) (tenant : Tenant) : Prop :=
  tenant ∈ site.tenants ∧ tenant.deletedAt = none ∧
    2 ≤ (labels (request.host.getD [])).length ∧
    (labels (request.host.getD [])).head? = some (py tenant.slug)

/-- The cookie is that of a session of the user, neither revoked nor expired. -/
def Authenticates (settings : Settings) (site : Site) (request : HttpRequest) (now : Readings)
    (authSession : AuthSession) (user : User) : Prop :=
  ∃ token, request.sessionCookie = some token ∧ token ≠ [] ∧ authSession ∈ site.sessions ∧
    authSession.tokenHash = settings.hashToken token ∧ authSession.revokedAt = none ∧
    now.checked ≤ authSession.expiresAt ∧ user ∈ site.users ∧ user.id = authSession.userId

def Member (site : Site) (user : User) (tenant : Tenant) (membership : Membership) : Prop :=
  membership ∈ site.memberships ∧ membership.userId = user.id ∧ membership.tenantId = tenant.id

/-- In `ROLE_PERMISSIONS` or by a registered module grant. -/
def Carries (settings : Settings) (role : Role) (permission : String) : Prop :=
  permission ∈ rolePermissions role ∨ permission ∈ settings.moduleGrants role

/-- The process knows the module as enabled for the tenant: by its cache while
that is fresh, else by the stored row. -/
def ModuleEnabled (site : Site) (tenant : Tenant) (now : Readings) (moduleName : String) : Prop :=
  cachedState site tenant.id moduleName now.monotonic = some true ∨
    cachedState site tenant.id moduleName now.monotonic = none ∧
      ∃ row ∈ site.modules, row.tenantId = tenant.id ∧ row.moduleName = moduleName ∧
        row.enabled = true

theorem slugMatches_of_validateSlug {slug : String} (h : validateSlug slug = .ok slug) :
    slugMatches (py slug) = true := by
  unfold validateSlug at h
  split at h
  · cases h
  · simpa using ‹¬slugMatches (py slug) = false›

theorem extractSlug_eq_some_iff {host slug : PyStr} :
    extractSlug host = some slug ↔
      2 ≤ (labels host).length ∧ (labels host).head? = some slug ∧ slugMatches slug = true := by
  unfold extractSlug
  rcases labels host with _ | ⟨candidate, _ | ⟨second, rest⟩⟩
  · simp
  · simp
  · simp only [List.length_cons, List.head?_cons, Option.some.injEq]
    constructor
    · intro h
      split at h
      · cases h
        exact ⟨by omega, rfl, ‹_›⟩
      · cases h
    · rintro ⟨-, rfl, hslug⟩
      rw [if_pos hslug]

theorem tenantOf_eq_some_iff (site : Site) (request : HttpRequest) (tenant : Tenant) :
    tenantOf site request.host = some tenant ↔ Names site request tenant := by
  have hkeys : (site.tenants.map fun t => py t.slug).Nodup := by
    have hmap := site.slugsUnique.map py_injective
    rwa [List.map_map] at hmap
  unfold tenantOf Names
  constructor
  · intro h
    cases hslug : extractSlug (request.host.getD []) with
    | none => simp [hslug] at h
    | some slug =>
        rw [hslug] at h
        dsimp only at h
        cases hfound : lookup (fun t : Tenant => py t.slug) slug site.tenants with
        | none => simp [hfound] at h
        | some found =>
            rw [hfound] at h
            dsimp only at h
            split at h
            · cases h
            · cases h
              obtain ⟨hmem, rfl⟩ := mem_of_lookup hfound
              obtain ⟨hlabels, hfirst, -⟩ := extractSlug_eq_some_iff.mp hslug
              exact ⟨hmem, by simpa using ‹¬tenant.deletedAt.isSome = true›, hlabels, hfirst⟩
  · rintro ⟨hmem, hlive, hlabels, hfirst⟩
    have hslug := extractSlug_eq_some_iff.mpr
      ⟨hlabels, hfirst, slugMatches_of_validateSlug (site.slugsValid tenant hmem)⟩
    have hfound := (lookup_eq_some_iff hkeys).mpr ⟨hmem, rfl⟩
    simp [hslug, hfound, hlive]

theorem resolveSession_eq_some_iff (settings : Settings) (site : Site) (token : PyStr)
    (now : Readings) (authSession : AuthSession) (user : User) :
    resolveSession settings site token now = some (authSession, user) ↔
      authSession ∈ site.sessions ∧ authSession.tokenHash = settings.hashToken token ∧
        authSession.revokedAt = none ∧ now.checked ≤ authSession.expiresAt ∧
        user ∈ site.users ∧ user.id = authSession.userId := by
  unfold resolveSession
  constructor
  · intro h
    cases hfound : lookup AuthSession.tokenHash (settings.hashToken token) site.sessions with
    | none => simp [hfound] at h
    | some found =>
        rw [hfound] at h
        dsimp only at h
        split at h
        · cases h
        split at h
        · cases h
        rename_i hrevoked hexpired
        obtain ⟨found', hfound', heq⟩ := Option.map_eq_some_iff.mp h
        cases heq
        obtain ⟨hmem, hhash⟩ := mem_of_lookup hfound
        obtain ⟨huser, hid⟩ := mem_of_lookup hfound'
        exact ⟨hmem, hhash, by simpa using hrevoked, Int.not_lt.mp hexpired, huser, hid⟩
  · rintro ⟨hmem, hhash, hrevoked, hexpires, huser, hid⟩
    have hfound := (lookup_eq_some_iff site.tokenHashesUnique).mpr ⟨hmem, hhash⟩
    have hfound' := (lookup_eq_some_iff site.usersUnique).mpr ⟨huser, hid⟩
    simp [hfound, hrevoked, Int.not_lt.mpr hexpires, hfound']

theorem currentAuthOrNone_eq_some_iff (settings : Settings) (site : Site) (request : HttpRequest)
    (now : Readings) (authSession : AuthSession) (user : User) :
    (currentAuthOrNone settings site request.sessionCookie now).2 = some (authSession, user) ↔
      Authenticates settings site request now authSession user := by
  unfold currentAuthOrNone Authenticates
  cases request.sessionCookie with
  | none => simp
  | some token =>
      by_cases hempty : token = []
      · simp [hempty]
      · simp only [Option.some.injEq, exists_eq_left', ne_eq, hempty, not_false_eq_true, true_and]
        rw [← resolveSession_eq_some_iff]
        cases resolveSession settings site token now with
        | none => simp
        | some found => simp [Prod.ext_iff]

theorem membershipOf_eq_some_iff (site : Site) (user : User) (tenant : Tenant)
    (membership : Membership) :
    membershipOf site user tenant = some membership ↔ Member site user tenant membership := by
  rw [membershipOf, lookup_eq_some_iff site.membershipsUnique, Prod.mk.injEq]
  rfl

theorem roleHasPermission_iff (settings : Settings) (role : Role) (permission : String) :
    roleHasPermission settings role permission = true ↔ Carries settings role permission := by
  unfold roleHasPermission Carries
  split
  · exact ⟨fun _ => .inl ‹_›, fun _ => rfl⟩
  · rename_i hrole
    simp [hrole]

theorem isModuleEnabled_iff (site : Site) (tenant : Tenant) (moduleName : String)
    (now : Readings) :
    (isModuleEnabled site tenant.id moduleName now.monotonic).2 = true ↔
      ModuleEnabled site tenant now moduleName := by
  unfold isModuleEnabled ModuleEnabled
  cases cachedState site tenant.id moduleName now.monotonic with
  | some enabled => simp
  | none =>
      simp only [storedState, reduceCtorEq, false_or, true_and, Option.any_eq_true]
      constructor
      · rintro ⟨row, hrow, henabled⟩
        obtain ⟨hmem, hkey⟩ := mem_of_lookup hrow
        obtain ⟨htenant, hmodule⟩ := Prod.mk.inj hkey
        exact ⟨row, hmem, htenant, hmodule, henabled⟩
      · rintro ⟨row, hmem, htenant, hmodule, henabled⟩
        have hkey : row.key = (tenant.id, moduleName) := by rw [TenantModule.key, htenant, hmodule]
        exact ⟨row, (lookup_eq_some_iff site.modulesUnique).mpr ⟨hmem, hkey⟩, henabled⟩

/-- The request gets as far as the tenant its host names. -/
structure Arrives (settings : Settings) (site : Site) (request : HttpRequest) (tenant : Tenant) :
    Prop where
  origin : originCheck settings request = some true
  names : Names site request tenant
  active : tenant.state ≠ .suspended

/-- The request is that of a member of the tenant. -/
structure Enters (settings : Settings) (site : Site) (request : HttpRequest) (now : Readings)
    (tenant : Tenant) (membership : Membership) : Prop
    extends Arrives settings site request tenant where
  member : ∃ authSession user, Authenticates settings site request now authSession user ∧
    Member site user tenant membership

/-- The answer each request calls for: one rule for each outcome, with what was
passed before it. -/
inductive Verdict (settings : Settings) (site : Site) (route : Route) (request : HttpRequest)
    (now : Readings) : Answer → Prop where
  | serverError (horigin : originCheck settings request = none) :
      Verdict settings site route request now .serverError
  | origin (horigin : originCheck settings request = some false) :
      Verdict settings site route request now (.refused 403 "Origin non autorisée")
  | tenantNotFound (horigin : originCheck settings request = some true)
      (hnone : ∀ tenant, ¬ Names site request tenant) :
      Verdict settings site route request now (.refused 404 "Tenant introuvable")
  | tenantSuspended (tenant : Tenant) (horigin : originCheck settings request = some true)
      (hnames : Names site request tenant) (hstate : tenant.state = .suspended) :
      Verdict settings site route request now (.refused 403 "Tenant suspendu")
  | notAuthenticated (tenant : Tenant) (harrives : Arrives settings site request tenant)
      (hnone : ∀ authSession user, ¬ Authenticates settings site request now authSession user) :
      Verdict settings site route request now (.refused 401 "Authentification requise")
  | notMember (tenant : Tenant) (authSession : AuthSession) (user : User)
      (harrives : Arrives settings site request tenant)
      (hauth : Authenticates settings site request now authSession user)
      (hnone : ∀ membership, ¬ Member site user tenant membership) :
      Verdict settings site route request now (.refused 403 "Accès refusé à ce tenant")
  | moduleDisabled (tenant : Tenant) (membership : Membership) (moduleName : String)
      (henters : Enters settings site request now tenant membership)
      (hroute : route.moduleName = some moduleName)
      (hdisabled : ¬ ModuleEnabled site tenant now moduleName) :
      Verdict settings site route request now (.refused 403 (moduleDisabledDetail moduleName))
  | permissionDenied (tenant : Tenant) (membership : Membership)
      (henters : Enters settings site request now tenant membership)
      (hmodule : ∀ moduleName, route.moduleName = some moduleName →
        ModuleEnabled site tenant now moduleName)
      (hrole : ¬ Carries settings membership.role route.permission) :
      Verdict settings site route request now (.refused 403 "Permission refusée")
  | handler (tenant : Tenant) (membership : Membership)
      (henters : Enters settings site request now tenant membership)
      (hmodule : ∀ moduleName, route.moduleName = some moduleName →
        ModuleEnabled site tenant now moduleName)
      (hrole : Carries settings membership.role route.permission) :
      Verdict settings site route request now
        (.handler ⟨tenant.id, tenant.slug, membership.role⟩)

theorem currentAuthOrNone_fst (settings : Settings) (site : Site) (request : HttpRequest)
    (now : Readings) :
    (currentAuthOrNone settings site request.sessionCookie now).1 =
      match (currentAuthOrNone settings site request.sessionCookie now).2 with
      | none => site
      | some (authSession, _) => site.touch authSession.id now.seen := by
  unfold currentAuthOrNone
  cases request.sessionCookie with
  | none => rfl
  | some token =>
      dsimp only
      split
      · rfl
      · cases resolveSession settings site token now <;> rfl

theorem resolveTenant_touch (site : Site) (sessionId : Nat) (now : Instant) (host : Option PyStr)
    (auth : Option (AuthSession × User)) :
    resolveTenant (site.touch sessionId now) host auth = resolveTenant site host auth := rfl

theorem requireModuleEnabled_touch (site : Site) (sessionId : Nat) (now : Instant) (route : Route)
    (ctx : TenantContext) (monotonic : Instant) :
    (requireModuleEnabled (site.touch sessionId now) route ctx monotonic).2 =
      (requireModuleEnabled site route ctx monotonic).2 := by
  unfold requireModuleEnabled isModuleEnabled
  cases route.moduleName with
  | none => rfl
  | some moduleName =>
      have hcached : cachedState (site.touch sessionId now) ctx.tenantId moduleName monotonic =
          cachedState site ctx.tenantId moduleName monotonic := rfl
      have hstored : storedState (site.touch sessionId now) ctx.tenantId moduleName =
          storedState site ctx.tenantId moduleName := rfl
      simp only [hcached, hstored]
      cases cachedState site ctx.tenantId moduleName monotonic <;> rfl

theorem dispatch_answer (settings : Settings) (site : Site) (route : Route)
    (request : HttpRequest) (now : Readings) (horigin : originCheck settings request = some true) :
    (dispatch settings site route request now).2 =
      match resolveTenant site request.host
        (currentAuthOrNone settings site request.sessionCookie now).2 with
      | .error answer => answer
      | .ok ctx =>
          match (requireModuleEnabled site route ctx now.monotonic).2 with
          | .error answer => answer
          | .ok _ =>
              if roleHasPermission settings ctx.role route.permission then .handler ctx
              else .refused 403 "Permission refusée" := by
  have hsite := currentAuthOrNone_fst settings site request now
  have hfirst : resolveTenant (currentAuthOrNone settings site request.sessionCookie now).1
      request.host (currentAuthOrNone settings site request.sessionCookie now).2 =
        resolveTenant site request.host
          (currentAuthOrNone settings site request.sessionCookie now).2 := by
    rw [hsite]
    cases (currentAuthOrNone settings site request.sessionCookie now).2 with
    | none => rfl
    | some auth => exact resolveTenant_touch ..
  have hsecond (ctx : TenantContext) :
      (requireModuleEnabled (currentAuthOrNone settings site request.sessionCookie now).1 route ctx
        now.monotonic).2 = (requireModuleEnabled site route ctx now.monotonic).2 := by
    rw [hsite]
    cases (currentAuthOrNone settings site request.sessionCookie now).2 with
    | none => rfl
    | some auth => exact requireModuleEnabled_touch ..
  unfold dispatch
  rw [horigin]
  dsimp only
  rw [hfirst]
  cases resolveTenant site request.host
      (currentAuthOrNone settings site request.sessionCookie now).2 with
  | error answer => rfl
  | ok ctx =>
      dsimp only
      rw [← hsecond ctx]
      rcases requireModuleEnabled (currentAuthOrNone settings site request.sessionCookie now).1
        route ctx now.monotonic with ⟨after, answer | done⟩
      · rfl
      · dsimp only
        split <;> rfl

theorem requireModuleEnabled_eq_error_iff (site : Site) (route : Route) (tenant : Tenant)
    (role : Role) (now : Readings) (answer : Answer) :
    (requireModuleEnabled site route ⟨tenant.id, tenant.slug, role⟩ now.monotonic).2 =
        .error answer ↔
      ∃ moduleName, route.moduleName = some moduleName ∧
        ¬ ModuleEnabled site tenant now moduleName ∧ answer = .refused 403 (moduleDisabledDetail moduleName) := by
  unfold requireModuleEnabled
  cases route.moduleName with
  | none => simp
  | some moduleName =>
      simp only [Option.some.injEq, exists_eq_left', ← isModuleEnabled_iff]
      cases (isModuleEnabled site tenant.id moduleName now.monotonic).2
      · simp [eq_comm]
      · simp

theorem requireModuleEnabled_ok {site : Site} {route : Route} {tenant : Tenant} {role : Role}
    {now : Readings} (hmodule : ∀ moduleName, route.moduleName = some moduleName →
      ModuleEnabled site tenant now moduleName) :
    (requireModuleEnabled site route ⟨tenant.id, tenant.slug, role⟩ now.monotonic).2 = .ok () := by
  cases hguard :
      (requireModuleEnabled site route ⟨tenant.id, tenant.slug, role⟩ now.monotonic).2 with
  | ok done => rfl
  | error answer =>
      obtain ⟨moduleName, hroute, hdisabled, -⟩ :=
        (requireModuleEnabled_eq_error_iff ..).mp hguard
      exact absurd (hmodule moduleName hroute) hdisabled

theorem resolveTenant_of_enters {settings : Settings} {site : Site} {request : HttpRequest}
    {now : Readings} {tenant : Tenant} {membership : Membership}
    (henters : Enters settings site request now tenant membership) :
    resolveTenant site request.host
        (currentAuthOrNone settings site request.sessionCookie now).2 =
      .ok ⟨tenant.id, tenant.slug, membership.role⟩ := by
  obtain ⟨authSession, user, hauth, hmember⟩ := henters.member
  simp [resolveTenant, (tenantOf_eq_some_iff ..).mpr henters.names, henters.active,
    (currentAuthOrNone_eq_some_iff ..).mpr hauth, (membershipOf_eq_some_iff ..).mpr hmember]

theorem dispatch_of_verdict {settings : Settings} {site : Site} {route : Route}
    {request : HttpRequest} {now : Readings} {answer : Answer}
    (hverdict : Verdict settings site route request now answer) :
    (dispatch settings site route request now).2 = answer := by
  cases hverdict with
  | serverError horigin => simp [dispatch, horigin]
  | origin horigin => simp [dispatch, horigin]
  | tenantNotFound horigin hnone =>
      have htenant : tenantOf site request.host = none :=
        Option.eq_none_iff_forall_ne_some.mpr fun tenant h =>
          hnone tenant ((tenantOf_eq_some_iff ..).mp h)
      rw [dispatch_answer _ _ _ _ _ horigin]
      simp [resolveTenant, htenant]
  | tenantSuspended tenant horigin hnames hstate =>
      rw [dispatch_answer _ _ _ _ _ horigin]
      simp [resolveTenant, (tenantOf_eq_some_iff ..).mpr hnames, hstate]
  | notAuthenticated tenant harrives hnone =>
      have hauth : (currentAuthOrNone settings site request.sessionCookie now).2 = none :=
        Option.eq_none_iff_forall_ne_some.mpr fun auth h =>
          hnone auth.1 auth.2 ((currentAuthOrNone_eq_some_iff ..).mp h)
      rw [dispatch_answer _ _ _ _ _ harrives.origin]
      simp [resolveTenant, (tenantOf_eq_some_iff ..).mpr harrives.names, harrives.active, hauth]
  | notMember tenant authSession user harrives hauth hnone =>
      have hmember : membershipOf site user tenant = none :=
        Option.eq_none_iff_forall_ne_some.mpr fun membership h =>
          hnone membership ((membershipOf_eq_some_iff ..).mp h)
      rw [dispatch_answer _ _ _ _ _ harrives.origin]
      simp [resolveTenant, (tenantOf_eq_some_iff ..).mpr harrives.names, harrives.active,
        (currentAuthOrNone_eq_some_iff ..).mpr hauth, hmember]
  | moduleDisabled tenant membership moduleName henters hroute hdisabled =>
      have hguard := (requireModuleEnabled_eq_error_iff site route tenant membership.role now
        (.refused 403 (moduleDisabledDetail moduleName))).mpr ⟨moduleName, hroute, hdisabled, rfl⟩
      rw [dispatch_answer _ _ _ _ _ henters.origin, resolveTenant_of_enters henters]
      simp [hguard]
  | permissionDenied tenant membership henters hmodule hrole =>
      rw [dispatch_answer _ _ _ _ _ henters.origin, resolveTenant_of_enters henters]
      dsimp only
      rw [requireModuleEnabled_ok hmodule]
      rw [← roleHasPermission_iff] at hrole
      simp [hrole]
  | handler tenant membership henters hmodule hrole =>
      rw [dispatch_answer _ _ _ _ _ henters.origin, resolveTenant_of_enters henters]
      dsimp only
      rw [requireModuleEnabled_ok hmodule]
      rw [← roleHasPermission_iff] at hrole
      simp [hrole]

theorem exists_verdict_of_origin {settings : Settings} {site : Site} (route : Route)
    {request : HttpRequest} (now : Readings) (horigin : originCheck settings request = some true) :
    ∃ answer, Verdict settings site route request now answer := by
  cases htenant : tenantOf site request.host with
  | none =>
      refine ⟨_, .tenantNotFound horigin fun tenant hnames => ?_⟩
      rw [(tenantOf_eq_some_iff ..).mpr hnames] at htenant
      cases htenant
  | some tenant =>
      have hnames := (tenantOf_eq_some_iff ..).mp htenant
      by_cases hstate : tenant.state = .suspended
      · exact ⟨_, .tenantSuspended tenant horigin hnames hstate⟩
      have harrives : Arrives settings site request tenant := ⟨horigin, hnames, hstate⟩
      cases hauth : (currentAuthOrNone settings site request.sessionCookie now).2 with
      | none =>
          refine ⟨_, .notAuthenticated tenant harrives fun authSession user hauth' => ?_⟩
          rw [(currentAuthOrNone_eq_some_iff ..).mpr hauth'] at hauth
          cases hauth
      | some auth =>
          obtain ⟨authSession, user⟩ := auth
          replace hauth := (currentAuthOrNone_eq_some_iff ..).mp hauth
          cases hmember : membershipOf site user tenant with
          | none =>
              refine ⟨_, .notMember tenant authSession user harrives hauth fun m hm => ?_⟩
              rw [(membershipOf_eq_some_iff ..).mpr hm] at hmember
              cases hmember
          | some membership =>
              have henters : Enters settings site request now tenant membership :=
                ⟨harrives, authSession, user, hauth, (membershipOf_eq_some_iff ..).mp hmember⟩
              by_cases hmodule : ∀ moduleName, route.moduleName = some moduleName →
                  ModuleEnabled site tenant now moduleName
              · by_cases hrole : Carries settings membership.role route.permission
                · exact ⟨_, .handler tenant membership henters hmodule hrole⟩
                · exact ⟨_, .permissionDenied tenant membership henters hmodule hrole⟩
              · push Not at hmodule
                obtain ⟨moduleName, hroute, hdisabled⟩ := hmodule
                exact ⟨_, .moduleDisabled tenant membership moduleName henters hroute hdisabled⟩

theorem exists_verdict (settings : Settings) (site : Site) (route : Route)
    (request : HttpRequest) (now : Readings) :
    ∃ answer, Verdict settings site route request now answer := by
  cases horigin : originCheck settings request with
  | none => exact ⟨_, .serverError horigin⟩
  | some allowed =>
      cases allowed with
      | false => exact ⟨_, .origin horigin⟩
      | true => exact exists_verdict_of_origin route now horigin

/-- What a request leaves of the tables when its handler has not run: nothing
but `last_seen_at` of the session of its cookie is written. -/
structure OnlyLastSeen (settings : Settings) (site : Site) (request : HttpRequest)
    (now : Readings) (after : Site) : Prop where
  tenants : after.tenants = site.tenants
  users : after.users = site.users
  memberships : after.memberships = site.memberships
  modules : after.modules = site.modules
  sessions : after.sessions = site.sessions ∨
    ∃ authSession user, originCheck settings request = some true ∧
      Authenticates settings site request now authSession user ∧
      after.sessions = site.sessions.map (AuthSession.touched authSession.id now.seen)

theorem onlyLastSeen_currentAuthOrNone {settings : Settings} (site : Site)
    {request : HttpRequest} (now : Readings) (horigin : originCheck settings request = some true) :
    OnlyLastSeen settings site request now
      (currentAuthOrNone settings site request.sessionCookie now).1 := by
  rw [currentAuthOrNone_fst]
  cases hauth : (currentAuthOrNone settings site request.sessionCookie now).2 with
  | none => exact ⟨rfl, rfl, rfl, rfl, .inl rfl⟩
  | some auth =>
      obtain ⟨authSession, user⟩ := auth
      exact ⟨rfl, rfl, rfl, rfl,
        .inr ⟨authSession, user, horigin, (currentAuthOrNone_eq_some_iff ..).mp hauth, rfl⟩⟩

theorem onlyLastSeen_requireModuleEnabled {settings : Settings} {site between : Site}
    {request : HttpRequest} {now : Readings}
    (hbetween : OnlyLastSeen settings site request now between) (route : Route)
    (ctx : TenantContext) (monotonic : Instant) :
    OnlyLastSeen settings site request now
      (requireModuleEnabled between route ctx monotonic).1 := by
  obtain ⟨htenants, husers, hmemberships, hmodules, hsessions⟩ := hbetween
  unfold requireModuleEnabled
  cases route.moduleName with
  | none => exact ⟨htenants, husers, hmemberships, hmodules, hsessions⟩
  | some moduleName =>
      dsimp only [isModuleEnabled]
      cases cachedState between ctx.tenantId moduleName monotonic
      · exact ⟨htenants, husers, hmemberships, hmodules, hsessions⟩
      · exact ⟨htenants, husers, hmemberships, hmodules, hsessions⟩

theorem onlyLastSeen_dispatch (settings : Settings) (site : Site) (route : Route)
    (request : HttpRequest) (now : Readings) :
    OnlyLastSeen settings site request now (dispatch settings site route request now).1 := by
  have hrefl : OnlyLastSeen settings site request now site := ⟨rfl, rfl, rfl, rfl, .inl rfl⟩
  unfold dispatch
  cases horigin : originCheck settings request with
  | none => exact hrefl
  | some allowed =>
      cases allowed with
      | false => exact hrefl
      | true =>
          have hauth := onlyLastSeen_currentAuthOrNone site now horigin
          dsimp only
          cases resolveTenant (currentAuthOrNone settings site request.sessionCookie now).1
              request.host (currentAuthOrNone settings site request.sessionCookie now).2 with
          | error answer => exact hauth
          | ok ctx =>
              have hguard := onlyLastSeen_requireModuleEnabled hauth route ctx now.monotonic
              dsimp only
              generalize requireModuleEnabled (currentAuthOrNone settings site
                request.sessionCookie now).1 route ctx now.monotonic = guarded at hguard
              rcases guarded with ⟨after, answer | done⟩
              · exact hguard
              · dsimp only
                split
                · exact hguard
                · exact hguard

/-- Authorization is exact: the answer to a request is the one its rule gives,
whichever it is, and what is written before the handler is `last_seen_at` of the
session of its cookie. -/
theorem authorization_exact (settings : Settings) (site : Site) (route : Route)
    (request : HttpRequest) (now : Readings) :
    (∀ answer, (dispatch settings site route request now).2 = answer ↔
      Verdict settings site route request now answer) ∧
      OnlyLastSeen settings site request now (dispatch settings site route request now).1 := by
  refine ⟨fun answer => ⟨?_, dispatch_of_verdict⟩, onlyLastSeen_dispatch ..⟩
  rintro rfl
  obtain ⟨answer, hverdict⟩ := exists_verdict settings site route request now
  rw [dispatch_of_verdict hverdict]
  exact hverdict

def acme : Tenant := ⟨1, "acme", "ACME", .active, none⟩

def bob : User := ⟨2, "bob@exemple.fr", none⟩

def bobMembership : Membership := ⟨3, bob.id, acme.id, .member⟩

def bobSession : AuthSession := ⟨4, bob.id, "jeton", 100, 0, none⟩

/-- No module is enabled. -/
def acmeSite : Site where
  tenants := [acme]
  users := [bob]
  memberships := [bobMembership]
  sessions := [bobSession]
  modules := []
  stateCache := []
  slugsValid := by decide +kernel
  slugsUnique := by decide
  usersUnique := by decide
  membershipsUnique := by decide
  sessionsUnique := by decide
  tokenHashesUnique := by decide
  modulesUnique := by decide

/-- `sample_digest.read` is granted to members. -/
def digestSettings : Settings where
  sessionCookieDomain := py ".exemple.fr"
  hashToken := fun token => String.ofList (token.map Char.ofNat)
  bracketedNetloc := fun _ => false
  moduleGrants := fun _ => ["sample_digest.read"]

def digestsRoute : Route := ⟨"sample_digest.read", some "sample_digest", by decide +kernel⟩

def bobRequest : HttpRequest :=
  ⟨.get, some (py "ACME.exemple.fr:8000"), none, some (py "jeton")⟩

def noon : Readings := ⟨50, 50, 50⟩

/-- Bob's host names his tenant, which is neither deleted nor suspended, his
session is valid, he is a member and his role carries the permission: the
handler does not run, the module not being enabled. -/
theorem entitled_member_refused_without_module :
    (Names acmeSite bobRequest acme ∧ acme.state ≠ .suspended ∧
      Authenticates digestSettings acmeSite bobRequest noon bobSession bob ∧
      Member acmeSite bob acme bobMembership ∧
      Carries digestSettings bobMembership.role digestsRoute.permission) ∧
      (dispatch digestSettings acmeSite digestsRoute bobRequest noon).2 =
        .refused 403 "Module « sample_digest » non activé pour ce tenant." := by
  refine ⟨⟨?_, by decide, ?_, ?_, ?_⟩, by decide +kernel⟩
  · unfold Names
    decide +kernel
  · exact ⟨py "jeton", by decide +kernel, by decide +kernel, by decide +kernel, by decide +kernel,
      by decide +kernel, by decide +kernel, by decide +kernel, by decide +kernel⟩
  · unfold Member
    decide +kernel
  · unfold Carries
    decide +kernel

end Socle.AuthorizationExact
