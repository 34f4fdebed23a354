import Socle.AuthorizationExact
import Socle.ModuleRegistry

/-!
The mounting of the modules: the permissions and the event handlers that
`register_runtime` attaches to the platform, and the routes that `mount_modules`
puts behind their guards.
-/

namespace Socle.ModuleMounting

open Socle.DirectoryStore (Role Tenant User Membership)
open Socle.TokenExchange
open Socle.RouteGuards hiding Route roleHasPermission
open Socle.ModuleRegistry
open Socle.ModuleScheduler (TenantModule)

/-! ### The registries that are filled at startup -/

/-- `_module_permissions`, `_module_role_grants` and `_event_handlers`.  Only a
name that `_MODULE_PERMISSION_RE` matches is ever granted. -/
structure Runtime where
  permissions : List String
  grants : Role → List String
  handlers : String → List Nat
  named : ∀ role, ∀ p ∈ grants role, modulePermissionMatches (py p) = true

namespace Runtime

theorem ext {rt rt' : Runtime} (hpermissions : rt.permissions = rt'.permissions)
    (hgrants : rt.grants = rt'.grants) (hhandlers : rt.handlers = rt'.handlers) : rt = rt' := by
  cases rt
  cases rt'
  cases hpermissions
  cases hgrants
  cases hhandlers
  rfl

/-- `set.add`. -/
def insert (p : String) (set : List String) : List String := if p ∈ set then set else set ++ [p]

theorem mem_insert {p q : String} {set : List String} : q ∈ insert p set ↔ q ∈ set ∨ q = p := by
  unfold insert
  split
  · constructor
    · exact .inl
    · rintro (h | rfl)
      · exact h
      · assumption
  · simp

/-- `_module_role_grants[role].add(name)`. -/
def grant (rt : Runtime) (role : Role) (name : String)
    (hname : modulePermissionMatches (py name) = true) : Runtime :=
  { rt with
    grants := fun r => if r = role then insert name (rt.grants r) else rt.grants r
    named := by
      intro r p hp
      split at hp
      · rcases mem_insert.mp hp with hold | rfl
        · exact rt.named r p hold
        · exact hname
      · exact rt.named r p hp }

/-- `on_connector_event`. -/
def onConnectorEvent (rt : Runtime) (event : ConnectorEventSpec) : Runtime :=
  { rt with handlers := fun capability =>
      if capability = event.capability then rt.handlers capability ++ [event.handler]
      else rt.handlers capability }

/-- `reset_module_permissions`, then `reset_event_handlers`. -/
def reset (_ : Runtime) : Runtime where
  permissions := []
  grants _ := []
  handlers _ := []
  named _ _ hp := absurd hp (by simp)

/-- Nothing is registered yet. -/
def initial : Runtime := ⟨[], fun _ => [], fun _ => [], by simp⟩

end Runtime

/-- The roles `_module_role_grants` has an entry for. -/
def roleOf : String → Option Role
  | "owner" => some .owner
  | "admin" => some .admin
  | "member" => some .member
  | _ => none

/-- The loop over the roles: those before an unknown one keep the grant. -/
def grantEach (name : String) (hname : modulePermissionMatches (py name) = true) :
    List String → Runtime → Runtime × Except String Unit
  | [], rt => (rt, .ok ())
  | role :: rest, rt =>
      match roleOf role with
      | some r => grantEach name hname rest (rt.grant r name hname)
      | none => (rt, .error
          s!"Rôle inconnu pour la permission {DirectoryService.reprStr name} : {DirectoryService.reprStr role}")

def registerModulePermission (permission : ModulePermission) (rt : Runtime) :
    Runtime × Except String Unit :=
  if hname : modulePermissionMatches (py permission.name) = true then
    grantEach permission.name hname permission.roles
      { rt with permissions := Runtime.insert permission.name rt.permissions }
  else (rt, .error
    s!"Permission de module invalide : {DirectoryService.reprStr permission.name} — attendu `<module>.<action>` en minuscules, jamais `core.*`.")

/-- A loop of statements that raise; what was done before the exception stays. -/
def forEach {α : Type} (body : α → Runtime → Runtime × Except String Unit) :
    List α → Runtime → Runtime × Except String Unit
  | [], rt => (rt, .ok ())
  | a :: rest, rt =>
      match body a rt with
      | (rt', .ok _) => forEach body rest rt'
      | (rt', .error e) => (rt', .error e)

/-- The body of the loop of `register_runtime`. -/
def registerManifest (manifest : ModuleManifest) (rt : Runtime) : Runtime × Except String Unit :=
  match forEach registerModulePermission manifest.permissions rt with
  | (rt', .ok _) => (manifest.connectorEvents.foldl Runtime.onConnectorEvent rt', .ok ())
  | (rt', .error e) => (rt', .error e)

def registerRuntime (modules : List ModuleManifest) (rt : Runtime) :
    Runtime × Except String Unit :=
  match validateRegistry modules with
  | .error e => (rt, .error e)
  | .ok _ => forEach registerManifest modules rt.reset

/-- `role_has_permission`. -/
def roleHasPermission (rt : Runtime) (role permission : String) : Bool :=
  match roleOf role with
  | none => false
  | some r => decide (permission ∈ rolePermissions r) || decide (permission ∈ rt.grants r)

/-- `event_handlers`. -/
def eventHandlers (rt : Runtime) (capability : String) : List Nat := rt.handlers capability

/-- A permission the registrar accepts. -/
def Registrable (permission : ModulePermission) : Prop :=
  modulePermissionMatches (py permission.name) = true ∧
    ∀ role ∈ permission.roles, (roleOf role).isSome = true

/-- The registries after more permissions and events. -/
structure Extended (rt : Runtime) (permissions : List ModulePermission)
    (events : List ConnectorEventSpec) (rt' : Runtime) : Prop where
  grants : ∀ role p, p ∈ rt'.grants role ↔ p ∈ rt.grants role ∨
    ∃ permission ∈ permissions, permission.name = p ∧
      ∃ name ∈ permission.roles, roleOf name = some role
  handlers : ∀ capability, rt'.handlers capability = rt.handlers capability ++
    (events.filter fun event => event.capability = capability).map (·.handler)

namespace Extended

variable {rt rt' rt'' : Runtime} {permissions permissions' : List ModulePermission}
variable {events events' : List ConnectorEventSpec}

theorem refl (rt : Runtime) : Extended rt [] [] rt where
  grants := by simp
  handlers := by simp

theorem trans (h : Extended rt permissions events rt')
    (h' : Extended rt' permissions' events' rt'') :
    Extended rt (permissions ++ permissions') (events ++ events') rt'' where
  grants role p := by
    rw [h'.grants, h.grants]
    simp only [List.mem_append, or_and_right, exists_or, or_assoc]
  handlers capability := by
    rw [h'.handlers, h.handlers]
    simp

end Extended

theorem grantEach_spec (name : String) (hname : modulePermissionMatches (py name) = true)
    (roles : List String) (rt : Runtime) :
    ((grantEach name hname roles rt).2 = .ok () ↔ ∀ role ∈ roles, (roleOf role).isSome = true) ∧
      ((grantEach name hname roles rt).2 = .ok () →
        Extended rt [⟨name, roles⟩] [] (grantEach name hname roles rt).1) := by
  induction roles generalizing rt with
  | nil =>
      refine ⟨by simp [grantEach], fun _ => ?_⟩
      refine ⟨fun role p => ?_, fun capability => ?_⟩
      · simp [grantEach]
      · simp [grantEach]
  | cons role rest ih =>
      cases hrole : roleOf role with
      | none => simp [grantEach, hrole]
      | some r =>
          obtain ⟨hok, hextended⟩ := ih (rt.grant r name hname)
          refine ⟨by simpa [grantEach, hrole] using hok, fun h => ?_⟩
          have hrest := hextended (by simpa [grantEach, hrole] using h)
          rw [grantEach, hrole]
          refine ⟨fun role' p => ?_, fun capability => ?_⟩
          · have hgrant : p ∈ (rt.grant r name hname).grants role' ↔
                p ∈ rt.grants role' ∨ p = name ∧ role' = r := by
              by_cases hr : role' = r
              · simp [Runtime.grant, hr, Runtime.mem_insert]
              · simp [Runtime.grant, hr]
            rw [hrest.grants, hgrant]
            simp only [List.mem_singleton, exists_eq_left]
            simp only [List.mem_cons, exists_eq_or_imp, hrole, Option.some.injEq]
            constructor
            · rintro ((hold | ⟨rfl, rfl⟩) | ⟨rfl, found⟩)
              · exact .inl hold
              · exact .inr ⟨rfl, .inl rfl⟩
              · exact .inr ⟨rfl, .inr found⟩
            · rintro (hold | ⟨rfl, rfl | found⟩)
              · exact .inl (.inl hold)
              · exact .inl (.inr ⟨rfl, rfl⟩)
              · exact .inr ⟨rfl, found⟩
          · exact hrest.handlers capability

theorem registerModulePermission_spec (permission : ModulePermission) (rt : Runtime) :
    ((registerModulePermission permission rt).2 = .ok () ↔ Registrable permission) ∧
      ((registerModulePermission permission rt).2 = .ok () →
        Extended rt [permission] [] (registerModulePermission permission rt).1) := by
  unfold registerModulePermission Registrable
  split
  · rename_i hname
    obtain ⟨hok, hextended⟩ := grantEach_spec permission.name hname permission.roles
      { rt with permissions := Runtime.insert permission.name rt.permissions }
    refine ⟨by simp [hok, hname], fun h => ?_⟩
    exact ⟨(hextended h).grants, (hextended h).handlers⟩
  · rename_i hname
    simp [hname]

/-- The loop rule: a loop succeeds exactly when each turn does, and extends the
registries by what the turns register. -/
theorem forEach_spec {α : Type} {body : α → Runtime → Runtime × Except String Unit}
    (good : α → Prop) (permissions : α → List ModulePermission)
    (events : α → List ConnectorEventSpec)
    (hbody : ∀ a rt, ((body a rt).2 = .ok () ↔ good a) ∧
      ((body a rt).2 = .ok () → Extended rt (permissions a) (events a) (body a rt).1))
    (l : List α) (rt : Runtime) :
    ((forEach body l rt).2 = .ok () ↔ ∀ a ∈ l, good a) ∧
      ((forEach body l rt).2 = .ok () →
        Extended rt (l.flatMap permissions) (l.flatMap events) (forEach body l rt).1) := by
  induction l generalizing rt with
  | nil => exact ⟨by simp [forEach], fun _ => .refl rt⟩
  | cons a rest ih =>
      obtain ⟨hgood, hextended⟩ := hbody a rt
      rw [forEach]
      cases hturn : body a rt with
      | mk rt' out =>
          rw [hturn] at hgood hextended
          cases out with
          | error e =>
              have hbad : ¬ good a := fun h => by cases hgood.mpr h
              simp [hbad]
          | ok u =>
              obtain ⟨hok, hrest⟩ := ih rt'
              refine ⟨by simp [hok, hgood.mp rfl], fun h => ?_⟩
              rw [List.flatMap_cons, List.flatMap_cons]
              exact (hextended rfl).trans (hrest h)

theorem extended_events (rt : Runtime) (events : List ConnectorEventSpec) :
    Extended rt [] events (events.foldl Runtime.onConnectorEvent rt) := by
  induction events generalizing rt with
  | nil => exact .refl rt
  | cons event rest ih =>
      have hone : Extended rt [] [event] (rt.onConnectorEvent event) := by
        refine ⟨fun role p => ?_, fun capability => ?_⟩
        · simp [Runtime.onConnectorEvent]
        · by_cases hcapability : event.capability = capability
          · simp [Runtime.onConnectorEvent, hcapability]
          · simp [Runtime.onConnectorEvent, hcapability, Ne.symm hcapability]
      exact hone.trans (ih _)

theorem registerManifest_spec (manifest : ModuleManifest) (rt : Runtime) :
    ((registerManifest manifest rt).2 = .ok () ↔ ∀ p ∈ manifest.permissions, Registrable p) ∧
      ((registerManifest manifest rt).2 = .ok () →
        Extended rt manifest.permissions manifest.connectorEvents
          (registerManifest manifest rt).1) := by
  obtain ⟨hok, hextended⟩ := forEach_spec Registrable (fun p => [p]) (fun _ => [])
    registerModulePermission_spec manifest.permissions rt
  unfold registerManifest
  cases hloop : forEach registerModulePermission manifest.permissions rt with
  | mk rt' out =>
      rw [hloop] at hok hextended
      cases out with
      | error e => simpa using hok
      | ok u =>
          refine ⟨by simpa using hok, fun _ => ?_⟩
          have hboth := (hextended rfl).trans (extended_events rt' manifest.connectorEvents)
          have hnone : (manifest.permissions.flatMap fun _ => ([] : List ConnectorEventSpec)) = [] := by
            simp
          rw [hnone] at hboth
          simpa using hboth

/-- What `register_runtime` promises: it does not raise, a role has exactly the
permissions that the manifests give it outside the platform's namespace, the
handlers of a capability are those of the manifests in order, the platform's own
permissions stay, and a second call changes nothing. -/
structure Registers (modules : List ModuleManifest) (rt : Runtime) : Prop where
  completes : (registerRuntime modules rt).2 = .ok ()
  grants : ∀ role p, inNamespace "core" p = false →
    (roleHasPermission (registerRuntime modules rt).1 role p = true ↔
      ∃ m ∈ modules, ∃ permission ∈ m.permissions, permission.name = p ∧ role ∈ permission.roles)
  handlers : ∀ capability, eventHandlers (registerRuntime modules rt).1 capability =
    modules.flatMap fun m => (m.connectorEvents.filter fun event =>
      event.capability = capability).map (·.handler)
  core : ∀ role p, inNamespace "core" p = true →
    roleHasPermission (registerRuntime modules rt).1 role p = roleHasPermission rt role p
  idempotent : registerRuntime modules (registerRuntime modules rt).1 = registerRuntime modules rt

theorem registerRuntime_spec {modules : List ModuleManifest} (rt : Runtime)
    (haccepted : validateRegistry modules = .ok ()) :
    ((registerRuntime modules rt).2 = .ok () ↔
      ∀ m ∈ modules, ∀ p ∈ m.permissions, Registrable p) ∧
    ((registerRuntime modules rt).2 = .ok () →
      Extended rt.reset (modules.flatMap (·.permissions)) (modules.flatMap (·.connectorEvents))
        (registerRuntime modules rt).1) := by
  rw [registerRuntime, haccepted]
  exact forEach_spec _ _ _ registerManifest_spec modules _

theorem inNamespace_core_of_rolePermissions {role : Role} {p : String}
    (h : p ∈ rolePermissions role) : inNamespace "core" p = true := by
  obtain ⟨permission, -, rfl⟩ := List.mem_map.mp h
  cases permission <;> decide

theorem not_core_of_modulePermissionMatches {p : String}
    (h : modulePermissionMatches (py p) = true) : inNamespace "core" p = false := by
  by_contra hcore
  have hinside : inNamespace "core" p = true := by simpa using hcore
  have hname := takeWhile_of_inNamespace (by decide) hinside
  simp [modulePermissionMatches, hname] at h

theorem roleOf_eq_some_iff {role : String} {r : Role} : roleOf role = some r ↔ role = r.value := by
  unfold roleOf
  cases r <;> split <;> simp_all [Role.value]

theorem roleHasPermission_of_core {rt : Runtime} {role p : String}
    (hcore : inNamespace "core" p = true) :
    roleHasPermission rt role p =
      (roleOf role).any fun r => decide (p ∈ rolePermissions r) := by
  unfold roleHasPermission
  cases roleOf role with
  | none => rfl
  | some r =>
      have hgrant : p ∉ rt.grants r := by
        intro hmem
        rw [not_core_of_modulePermissionMatches (rt.named r p hmem)] at hcore
        cases hcore
      simp [hgrant]

theorem roleHasPermission_of_not_core {rt : Runtime} {role p : String}
    (hcore : inNamespace "core" p = false) :
    roleHasPermission rt role p = true ↔ ∃ r, roleOf role = some r ∧ p ∈ rt.grants r := by
  unfold roleHasPermission
  cases roleOf role with
  | none => simp
  | some r =>
      have hplatform : p ∉ rolePermissions r := by
        intro hmem
        rw [inNamespace_core_of_rolePermissions hmem] at hcore
        cases hcore
      simp [hplatform]

/-- On an accepted registry the registrar does what it promises if and only if
every permission has the form it asks for and names known roles only. -/
theorem registrar_agrees_iff (modules : List ModuleManifest)
    (haccepted : validateRegistry modules = .ok ()) :
    (∀ rt, Registers modules rt) ↔ ∀ m ∈ modules, ∀ p ∈ m.permissions, Registrable p := by
  constructor
  · intro h
    exact (registerRuntime_spec _ haccepted).1.mp (h Runtime.initial).completes
  · intro hregistrable rt
    obtain ⟨hok, hextended⟩ := registerRuntime_spec rt haccepted
    have hcompletes := hok.mpr hregistrable
    have hafter := hextended hcompletes
    refine ⟨hcompletes, ?_, ?_, ?_, ?_⟩
    · intro role p hcore
      rw [roleHasPermission_of_not_core hcore]
      simp only [hafter.grants, Runtime.reset, List.not_mem_nil, false_or, List.mem_flatMap]
      constructor
      · rintro ⟨r, hr, permission, ⟨m, hm, hmem⟩, hname, role', hrole', hr'⟩
        have hsame : role' = role := by
          rw [roleOf_eq_some_iff.mp hr, roleOf_eq_some_iff.mp hr']
        exact ⟨m, hm, permission, hmem, hname, hsame ▸ hrole'⟩
      · rintro ⟨m, hm, permission, hmem, hname, hrole⟩
        obtain ⟨r, hr⟩ := Option.isSome_iff_exists.mp ((hregistrable m hm permission hmem).2 role hrole)
        exact ⟨r, hr, permission, ⟨m, hm, hmem⟩, hname, role, hrole, hr⟩
    · intro capability
      rw [eventHandlers, hafter.handlers]
      simp [Runtime.reset, List.filter_flatMap, List.map_flatMap]
    · intro role p hcore
      rw [roleHasPermission_of_core hcore, roleHasPermission_of_core hcore]
    · rw [registerRuntime, registerRuntime, haccepted]
      rfl

theorem sampleDigest_registers : Registers [sampleDigest] Runtime.initial := by
  refine (registrar_agrees_iff [sampleDigest] (by decide +kernel)).mpr ?_ Runtime.initial
  intro m hm p hp
  rw [List.mem_singleton.mp hm] at hp
  simp only [sampleDigest, List.mem_cons, List.not_mem_nil, or_false] at hp
  rcases hp with rfl | rfl
  · exact ⟨by decide +kernel, by decide +kernel⟩
  · exact ⟨by decide +kernel, by decide +kernel⟩

/-- The second permission has a capital letter. -/
def misspelled : ModuleManifest where
  name := "demo"
  router := []
  permissions := [⟨"demo.read", ["member"]⟩, ⟨"demo.Manage", ["admin"]⟩]

/-- The validator accepts the manifest, the registrar raises halfway: the first
permission is granted, the second is not. -/
theorem registrar_raises_on_accepted_manifest :
    validateRegistry [misspelled] = .ok () ∧
      (registerRuntime [misspelled] Runtime.initial).2.isOk = false ∧
      roleHasPermission (registerRuntime [misspelled] Runtime.initial).1 "member" "demo.read" =
        true ∧
      roleHasPermission (registerRuntime [misspelled] Runtime.initial).1 "admin" "demo.Manage" =
        false := by
  decide +kernel

/-! ### Mounted routes -/

/-- A connection to the server, with the headers it came with. -/
inductive Scope where
  | http (request : HttpRequest)
  | websocket (request : HttpRequest)

def Scope.request : Scope → HttpRequest
  | .http request => request
  | .websocket request => request

/-- What `resolve_tenant` makes of the headers of a request. -/
def resolvedContext (settings : Settings) (site : Site) (request : HttpRequest) (now : Readings) :
    Except Answer TenantContext :=
  let (site, auth) := currentAuthOrNone settings site request.sessionCookie now
  resolveTenant site request.host auth

/-- `resolve_tenant` as a dependency.  FastAPI fills a parameter of type `Request`
on HTTP connections only; on a websocket the call lacks an argument. -/
def contextOf (settings : Settings) (site : Site) (now : Readings) :
    Scope → Except Answer TenantContext
  | .http request => resolvedContext settings site request now
  | .websocket _ => .error .serverError

/-- What a callable answers in the place of the route.  `others` is the conduct of
the callables that are not the platform's. -/
def verdict (settings : Settings) (site : Site) (now : Readings) (others : Nat → Option Answer)
    (scope : Scope) : Callable → Except Answer Unit
  | .resolveTenant => (contextOf settings site now scope).map fun _ => ()
  | .requireModuleEnabled moduleName => do
      let ctx ← contextOf settings site now scope
      if (isModuleEnabled site ctx.tenantId moduleName now.monotonic).2 then .ok ()
      else .error (.refused 403 (moduleDisabledDetail moduleName))
  | .requirePermission permission _ => do
      let ctx ← contextOf settings site now scope
      if RouteGuards.roleHasPermission settings ctx.role permission then .ok ()
      else .error (.refused 403 "Permission refusée")
  | .other id _ =>
      match others id with
      | none => .ok ()
      | some answer => .error answer

mutual

/-- A dependency is called once its own dependencies are solved. -/
def solve (judge : Callable → Except Answer Unit) : Dependant → Except Answer Unit
  | .node call dependencies => do
      solveAll judge dependencies
      judge call

def solveAll (judge : Callable → Except Answer Unit) : List Dependant → Except Answer Unit
  | [] => .ok ()
  | d :: rest => do
      solve judge d
      solveAll judge rest

end

/-- The dependency `mount_modules` puts on the whole router of a module. -/
def enabledDependency (moduleName : String) : Dependant :=
  .node (.requireModuleEnabled moduleName) [.node .resolveTenant []]

/-- `include_router` on one route. -/
def includeRoute (moduleName : String) : Route → Route
  | .api path dependencies =>
      .api (s!"/api/v1/modules/{moduleName}" ++ path) (enabledDependency moduleName :: dependencies)
  | .apiWebSocket path dependencies =>
      .apiWebSocket (s!"/api/v1/modules/{moduleName}" ++ path)
        (enabledDependency moduleName :: dependencies)
  | .plain path => .plain (s!"/api/v1/modules/{moduleName}" ++ path)
  | .plainWebSocket path => .plainWebSocket (s!"/api/v1/modules/{moduleName}" ++ path)

/-- The connection gets as far as the code of the route: the middleware lets an
HTTP request pass, and no dependency answers in its place. -/
def Reaches (settings : Settings) (site : Site) (now : Readings) (others : Nat → Option Answer) :
    Route → Scope → Prop
  | .api _ dependencies, .http request =>
      originCheck settings request = some true ∧
        solveAll (verdict settings site now others (.http request)) dependencies = .ok ()
  | .apiWebSocket _ dependencies, .websocket request =>
      solveAll (verdict settings site now others (.websocket request)) dependencies = .ok ()
  | .plain _, .http request => originCheck settings request = some true
  | .plainWebSocket _, .websocket _ => True
  | _, _ => False

/-- The tenant of the request has the module enabled, and the role of the member
carries a permission of the module. -/
def Entitled (settings : Settings) (site : Site) (now : Readings) (moduleName : String)
    (request : HttpRequest) : Prop :=
  ∃ ctx, resolvedContext settings site request now = .ok ctx ∧
    (isModuleEnabled site ctx.tenantId moduleName now.monotonic).2 = true ∧
    ∃ permission, inNamespace moduleName permission = true ∧
      RouteGuards.roleHasPermission settings ctx.role permission = true

/-- Whatever the tables, the grants and the conduct of the module's own callables,
only an entitled request reaches the code of the mounted route. -/
def Protected (moduleName : String) (route : Route) : Prop :=
  ∀ settings site now others scope,
    Reaches settings site now others (includeRoute moduleName route) scope →
      Entitled settings site now moduleName scope.request

/-- An API route has a `require_permission` of the module among its dependencies,
unless the module is called `core`; the other kinds of HTTP and websocket routes
are not guarded at all. -/
def Guarded (moduleName : String) : Route → Prop
  | .api _ dependencies => moduleName = "core" ∨ ∃ permission declared,
      .requirePermission permission declared ∈ callsAll dependencies ∧
        inNamespace moduleName permission = true
  | .apiWebSocket _ _ => True
  | .plain _ => False
  | .plainWebSocket _ => False

section Mounted

variable {settings : Settings} {site : Site} {now : Readings} {others : Nat → Option Answer}
variable {moduleName : String} {scope : Scope}

mutual

theorem solve_eq_ok_iff (judge : Callable → Except Answer Unit) :
    (d : Dependant) → (solve judge d = .ok () ↔ ∀ call ∈ d.calls, judge call = .ok ())
  | .node call dependencies => by
      have hrest := solveAll_eq_ok_iff judge dependencies
      simp only [solve, Dependant.calls, List.forall_mem_cons]
      cases hsolved : solveAll judge dependencies with
      | error answer =>
          rw [hsolved] at hrest
          simp only [bind, Except.bind, reduceCtorEq, false_iff, not_and]
          exact fun _ h => by cases hrest.mpr h
      | ok u =>
          rw [hsolved] at hrest
          simp only [bind, Except.bind]
          exact ⟨fun h => ⟨h, hrest.mp rfl⟩, And.left⟩

theorem solveAll_eq_ok_iff (judge : Callable → Except Answer Unit) :
    (ds : List Dependant) → (solveAll judge ds = .ok () ↔ ∀ call ∈ callsAll ds, judge call = .ok ())
  | [] => by simp [solveAll, callsAll]
  | d :: rest => by
      have hfirst := solve_eq_ok_iff judge d
      have hrest := solveAll_eq_ok_iff judge rest
      simp only [solveAll, callsAll, List.forall_mem_append]
      cases hsolved : solve judge d with
      | error answer =>
          rw [hsolved] at hfirst
          simp only [bind, Except.bind, reduceCtorEq, false_iff, not_and]
          exact fun h => by cases hfirst.mpr h
      | ok u =>
          rw [hsolved] at hfirst
          simp only [bind, Except.bind, hrest]
          exact ⟨fun h => ⟨hfirst.mp rfl, h⟩, And.right⟩

end

theorem verdict_requireModuleEnabled
    (h : verdict settings site now others scope (.requireModuleEnabled moduleName) = .ok ()) :
    ∃ ctx, contextOf settings site now scope = .ok ctx ∧
      (isModuleEnabled site ctx.tenantId moduleName now.monotonic).2 = true := by
  unfold verdict at h
  cases hctx : contextOf settings site now scope with
  | error answer => simp [hctx, bind, Except.bind] at h
  | ok ctx =>
      refine ⟨ctx, rfl, ?_⟩
      by_contra henabled
      simp [hctx, bind, Except.bind, henabled] at h

theorem verdict_requirePermission {permission : String}
    {declared : validatePermission permission = .ok permission}
    (h : verdict settings site now others scope (.requirePermission permission declared) = .ok ()) :
    ∃ ctx, contextOf settings site now scope = .ok ctx ∧
      RouteGuards.roleHasPermission settings ctx.role permission = true := by
  unfold verdict at h
  cases hctx : contextOf settings site now scope with
  | error answer => simp [hctx, bind, Except.bind] at h
  | ok ctx =>
      refine ⟨ctx, rfl, ?_⟩
      by_contra hpermission
      simp [hctx, bind, Except.bind, hpermission] at h

theorem roleHasPermission_core (settings : Settings) (role : Role) :
    RouteGuards.roleHasPermission settings role "core.members.read" = true := by
  have hmem : "core.members.read" ∈ rolePermissions role := by
    cases role <;> decide
  simp [RouteGuards.roleHasPermission, hmem]

theorem protected_of_guarded {route : Route} (h : Guarded moduleName route) :
    Protected moduleName route := by
  intro settings site now others scope hreaches
  cases route with
  | plain path => exact h.elim
  | plainWebSocket path => exact h.elim
  | apiWebSocket path dependencies =>
      cases scope with
      | http request => exact hreaches.elim
      | websocket request =>
          have hcalls := (solveAll_eq_ok_iff _ _).mp hreaches
          obtain ⟨ctx, hctx, -⟩ := verdict_requireModuleEnabled
            (hcalls (.requireModuleEnabled moduleName) (by simp [callsAll, enabledDependency, Dependant.calls]))
          cases hctx
  | api path dependencies =>
      cases scope with
      | websocket request => exact hreaches.elim
      | http request =>
          have hcalls := (solveAll_eq_ok_iff _ _).mp hreaches.2
          obtain ⟨ctx, hctx, henabled⟩ := verdict_requireModuleEnabled
            (hcalls (.requireModuleEnabled moduleName) (by simp [callsAll, enabledDependency, Dependant.calls]))
          refine ⟨ctx, hctx, henabled, ?_⟩
          rcases h with rfl | ⟨permission, declared, hmem, hnamespace⟩
          · exact ⟨"core.members.read", by decide, roleHasPermission_core settings ctx.role⟩
          · obtain ⟨ctx', hctx', hrole⟩ := verdict_requirePermission
              (hcalls (.requirePermission permission declared) (by simp [callsAll, hmem]))
            obtain rfl := Except.ok.inj (hctx.symm.trans hctx')
            exact ⟨permission, hnamespace, hrole⟩

end Mounted

open Socle.AuthorizationExact (acme bob acmeSite bobRequest noon)

/-- The permissions that a tree of dependencies asks for through
`require_permission`. -/
def askedPermissions (dependencies : List Dependant) : List String :=
  (callsAll dependencies).filterMap fun
    | .requirePermission permission _ => some permission
    | _ => none

/-- The modules it asks to be enabled. -/
def askedModules (dependencies : List Dependant) : List String :=
  (callsAll dependencies).filterMap fun
    | .requireModuleEnabled moduleName => some moduleName
    | _ => none

theorem modulesUnique_enabled (names : List String) :
    ((names.dedup.map fun name => (⟨acme.id, name, true⟩ : TenantModule)).map
      TenantModule.key).Nodup := by
  rw [List.map_map]
  refine names.nodup_dedup.map fun name name' h => ?_
  exact (Prod.mk.inj h).2

/-- The site of an owner whose tenant has these modules enabled. -/
def ownerSite (names : List String) : Site :=
  { acmeSite with
    memberships := [⟨3, bob.id, acme.id, .owner⟩]
    modules := names.dedup.map fun name => ⟨acme.id, name, true⟩
    membershipsUnique := by decide
    modulesUnique := modulesUnique_enabled names }

/-- Every role is granted these permissions. -/
def grantingSettings (permissions : List String) : Settings :=
  { AuthorizationExact.digestSettings with moduleGrants := fun _ => permissions }

theorem resolvedContext_ownerSite (names permissions : List String) :
    resolvedContext (grantingSettings permissions) (ownerSite names) bobRequest noon =
      .ok ⟨acme.id, acme.slug, .owner⟩ := by
  rfl

theorem originCheck_bobRequest (settings : Settings) :
    originCheck settings bobRequest = some true := rfl

theorem isModuleEnabled_ownerSite {names : List String} {moduleName : String}
    (h : moduleName ∈ names) :
    (isModuleEnabled (ownerSite names) acme.id moduleName noon.monotonic).2 = true := by
  refine (AuthorizationExact.isModuleEnabled_iff (ownerSite names) acme moduleName noon).mpr ?_
  refine .inr ⟨rfl, ⟨acme.id, moduleName, true⟩, ?_, rfl, rfl, rfl⟩
  exact List.mem_map.mpr ⟨moduleName, List.mem_dedup.mpr h, rfl⟩

theorem reaches_ownerSite (moduleName path : String) (dependencies : List Dependant) :
    Reaches (grantingSettings (askedPermissions dependencies))
      (ownerSite (moduleName :: askedModules dependencies)) noon (fun _ => none)
      (includeRoute moduleName (.api path dependencies)) (.http bobRequest) := by
  refine ⟨originCheck_bobRequest _, (solveAll_eq_ok_iff _ _).mpr fun call hcall => ?_⟩
  have hcontext := resolvedContext_ownerSite (moduleName :: askedModules dependencies)
    (askedPermissions dependencies)
  have hcases : call = .requireModuleEnabled moduleName ∨ call = .resolveTenant ∨
      call ∈ callsAll dependencies := by
    simpa [callsAll, enabledDependency, Dependant.calls, or_assoc] using hcall
  cases call with
  | resolveTenant => simp [verdict, contextOf, hcontext, Except.map]
  | requireModuleEnabled name =>
      have hname : name ∈ moduleName :: askedModules dependencies := by
        rcases hcases with heq | heq | hmem
        · cases heq
          exact List.mem_cons_self
        · cases heq
        · exact List.mem_cons_of_mem _ (List.mem_filterMap.mpr ⟨_, hmem, rfl⟩)
      simp [verdict, contextOf, hcontext, bind, Except.bind, isModuleEnabled_ownerSite hname]
  | requirePermission permission declared =>
      have hmem : permission ∈ askedPermissions dependencies := by
        rcases hcases with heq | heq | hmem
        · cases heq
        · cases heq
        · exact List.mem_filterMap.mpr ⟨_, hmem, rfl⟩
      have hrole : RouteGuards.roleHasPermission
          (grantingSettings (askedPermissions dependencies)) .owner permission = true :=
        (AuthorizationExact.roleHasPermission_iff _ _ _).mpr (.inr hmem)
      simp [verdict, contextOf, hcontext, bind, Except.bind, hrole]
  | other id marked => simp [verdict]

theorem guarded_of_protected {moduleName : String} (hname : 46 ∉ py moduleName) {route : Route}
    (h : Protected moduleName route) : Guarded moduleName route := by
  cases route with
  | apiWebSocket path dependencies => trivial
  | plain path =>
      obtain ⟨ctx, -, henabled, -⟩ := h (grantingSettings []) (ownerSite []) noon (fun _ => none)
        (.http bobRequest) (originCheck_bobRequest _)
      cases henabled
  | plainWebSocket path =>
      obtain ⟨ctx, -, henabled, -⟩ := h (grantingSettings []) (ownerSite []) noon (fun _ => none)
        (.websocket bobRequest) trivial
      cases henabled
  | api path dependencies =>
      obtain ⟨ctx, hctx, -, permission, hnamespace, hrole⟩ :=
        h _ _ _ _ _ (reaches_ownerSite moduleName path dependencies)
      obtain rfl := Except.ok.inj ((resolvedContext_ownerSite _ _).symm.trans hctx)
      rcases (AuthorizationExact.roleHasPermission_iff _ _ _).mp hrole with hcore | hgranted
      · have hdot : 46 ∉ py "core" := by decide
        exact .inl (name_eq_of_inNamespace hname hdot hnamespace
          (inNamespace_core_of_rolePermissions hcore))
      · obtain ⟨call, hmem, hsome⟩ := List.mem_filterMap.mp hgranted
        cases call with
        | requirePermission asked declared =>
            obtain rfl := Option.some.inj hsome
            exact .inr ⟨asked, declared, hmem, hnamespace⟩
        | resolveTenant => cases hsome
        | requireModuleEnabled name => cases hsome
        | other id marked => cases hsome

/-- The API routes of an accepted manifest are guarded, unless a callable of the module's own
bears the attribute that `require_permission` leaves. -/
theorem guarded_of_accepted {manifest : ModuleManifest} (h : Valid manifest) {path : String}
    {dependencies : List Dependant} (hroute : .api path dependencies ∈ manifest.router)
    (hunmarked : ∀ id permission, .other id (some permission) ∉ callsAll dependencies) :
    Guarded manifest.name (.api path dependencies) := by
  obtain ⟨permission, hfound, hnamespace⟩ := List.any_eq_true.mp (h.routes _ hroute)
  obtain ⟨call, hcall, hrequired⟩ := mem_routePermissions.mp hfound
  cases call with
  | requirePermission asked declared =>
      cases hrequired
      exact .inr ⟨_, declared, hcall, hnamespace⟩
  | other id marked =>
      cases hrequired
      exact (hunmarked id _ hcall).elim
  | resolveTenant => cases hrequired
  | requireModuleEnabled name => cases hrequired

/-- The routes of an accepted manifest are all protected if and only if each of
them is an API route with a `require_permission` of the module, or an API
websocket. -/
theorem routes_protected_iff (manifest : ModuleManifest)
    (haccepted : validateManifest manifest = .ok ()) :
    (∀ route ∈ manifest.router, Protected manifest.name route) ↔
      ∀ route ∈ manifest.router, Guarded manifest.name route := by
  have hvalid := validateManifest_eq_ok_iff.mp haccepted
  have hname := dot_notMem_of_moduleNameMatches hvalid.name
  exact ⟨fun h route hroute => guarded_of_protected hname (h route hroute),
    fun h route hroute => protected_of_guarded (h route hroute)⟩

theorem sampleDigest_routes_protected :
    validateManifest sampleDigest = .ok () ∧
      ∀ route ∈ sampleDigest.router, Protected "sample_digest" route := by
  have hvalid : validateManifest sampleDigest = .ok () := by decide +kernel
  refine ⟨hvalid, (routes_protected_iff sampleDigest hvalid).mpr ?_⟩
  intro route hroute
  simp only [sampleDigest, List.mem_cons, List.not_mem_nil, or_false] at hroute
  rcases hroute with rfl | rfl
  · exact .inr ⟨"sample_digest.read", by decide +kernel, by simp [callsAll, permissionDependency,
      Dependant.calls], by decide +kernel⟩
  · exact .inr ⟨"sample_digest.manage", by decide +kernel, by simp [callsAll, permissionDependency,
      Dependant.calls], by decide +kernel⟩

/-- A module with a plain Starlette route. -/
def plainModule : ModuleManifest where
  name := "demo"
  router := [.plain "/export"]

/-- The manifest is accepted, and a request without a session reaches the route
while no tenant has the module enabled. -/
theorem plain_route_is_reached :
    validateManifest plainModule = .ok () ∧
      Reaches (grantingSettings []) (ownerSite []) noon (fun _ => none)
        (includeRoute "demo" (.plain "/export"))
        (.http { bobRequest with sessionCookie := none }) ∧
      ¬ Entitled (grantingSettings []) (ownerSite []) noon "demo"
        { bobRequest with sessionCookie := none } := by
  refine ⟨by decide +kernel, rfl, ?_⟩
  rintro ⟨ctx, hctx, -⟩
  cases hctx

end Socle.ModuleMounting
