import Socle.RouteGuards

/-!
The registry of modules: manifests with their routers, the validation of a
registry at startup, and the namespaces of the modules it lets in.
-/

namespace Socle.ModuleRegistry

open Socle.TokenExchange
open Socle.RouteGuards (isLowerLetter isDigit validatePermission)

/-! ### Manifests -/

/-- A callable that a dependency calls: one of the platform's, or another one,
which may carry a text as its attribute `required_permission`. -/
inductive Callable where
  | resolveTenant
  | requireModuleEnabled (moduleName : String)
  | requirePermission (permission : String)
      (declared : validatePermission permission = .ok permission)
  | other (id : Nat) (marked : Option String)

/-- `getattr(call, "required_permission", None)`, when it is a text. -/
def Callable.requiredPermission : Callable → Option String
  | .requirePermission permission _ => some permission
  | .other _ marked => marked
  | _ => none

/-- `fastapi.dependencies.models.Dependant`. -/
inductive Dependant where
  | node (call : Callable) (dependencies : List Dependant)

/-- The routes a router can hold. -/
inductive Route where
  | api (path : String) (dependencies : List Dependant)
  | apiWebSocket (path : String) (dependencies : List Dependant)
  | plain (path : String)
  | plainWebSocket (path : String)

structure ModulePermission where
  name : String
  roles : List String

structure ConnectorEventSpec where
  capability : String
  handler : Nat

/-- `ModuleManifest`, as the registry and the mounting read it; a handler stands
for its identity. -/
structure ModuleManifest where
  name : String
  router : List Route
  permissions : List ModulePermission := []
  periodicTasks : List String := []
  connectorEvents : List ConnectorEventSpec := []
  auditActions : List String := []

/-! ### `app.automation.registry` -/

mutual

def Dependant.size : Dependant → Nat
  | .node _ dependencies => 1 + sizeAll dependencies

def sizeAll : List Dependant → Nat
  | [] => 0
  | d :: rest => d.size + sizeAll rest

end

/-- The loop of `_route_permissions`; the top of the stack comes first. -/
def collect : Nat → List Dependant → List String → List String
  | 0, _, found => found
  | _ + 1, [], found => found
  | n + 1, .node call dependencies :: stack, found =>
      collect n (dependencies.reverse ++ stack) (call.requiredPermission.toList ++ found)

/-- `_route_permissions`: each turn of the loop takes one dependency of the
tree. -/
def routePermissions (dependencies : List Dependant) : List String :=
  collect (sizeAll dependencies) dependencies.reverse []

/-- `MODULE_NAME_RE`. -/
def moduleNameMatches (name : PyStr) : Bool :=
  name.head?.any isLowerLetter && decide (2 ≤ name.length) && decide (name.length ≤ 31) &&
    name.all fun c => isLowerLetter c || isDigit c || c == 95

/-- `text.startswith(f"{name}.")`. -/
def inNamespace (name text : String) : Bool := (py (name ++ ".")).isPrefixOf (py text)

/-- A loop that raises at the first element it refuses. -/
def checkEach {α : Type} (accepts : α → Bool) (message : α → String) :
    List α → Except String Unit
  | [] => .ok ()
  | a :: rest => if accepts a then checkEach accepts message rest else .error (message a)

/-- The check of a route; only API routes are looked at. -/
def routeAccepted (name : String) : Route → Bool
  | .api _ dependencies => (routePermissions dependencies).any (inNamespace name)
  | _ => true

def Route.path : Route → String
  | .api path _ => path
  | .apiWebSocket path _ => path
  | .plain path => path
  | .plainWebSocket path => path

def validateManifest (manifest : ModuleManifest) : Except String Unit := do
  let name := manifest.name
  if !moduleNameMatches (py name) then
    throw s!"Nom de module invalide : {DirectoryService.reprStr name} (attendu `^[a-z][a-z0-9_]\x7b1,30\x7d$`)."
  let own := name ++ "."
  checkEach (fun p => inNamespace name p.name)
    (fun p => s!"Module {DirectoryService.reprStr name} : permission {DirectoryService.reprStr p.name} hors namespace {DirectoryService.reprStr own} (invariant de phase n°5).")
    manifest.permissions
  checkEach (inNamespace name)
    (fun task => s!"Module {DirectoryService.reprStr name} : tâche {DirectoryService.reprStr task} hors namespace {DirectoryService.reprStr own}.")
    manifest.periodicTasks
  checkEach (inNamespace name)
    (fun action => s!"Module {DirectoryService.reprStr name} : action d'audit {DirectoryService.reprStr action} hors namespace {DirectoryService.reprStr own}.")
    manifest.auditActions
  checkEach (routeAccepted name)
    (fun route => s!"Module {DirectoryService.reprStr name} : la route {DirectoryService.reprStr route.path} ne porte aucune dépendance `require_permission(\"{own}…\")` (invariant de phase n°2, D2).")
    manifest.router

/-- The loop of `validate_registry`. -/
def validateEach : List String → List ModuleManifest → Except String Unit
  | _, [] => .ok ()
  | seen, manifest :: rest => do
      if seen.contains manifest.name then
        throw s!"Nom de module en collision au registre : {DirectoryService.reprStr manifest.name}."
      validateManifest manifest
      validateEach (manifest.name :: seen) rest

def validateRegistry (modules : List ModuleManifest) : Except String Unit :=
  validateEach [] modules

section Trees

mutual

/-- The callables of a tree of dependencies. -/
def Dependant.calls : Dependant → List Callable
  | .node call dependencies => call :: callsAll dependencies

def callsAll : List Dependant → List Callable
  | [] => []
  | d :: rest => d.calls ++ callsAll rest

end

theorem sizeAll_append (ds es : List Dependant) : sizeAll (ds ++ es) = sizeAll ds + sizeAll es := by
  induction ds with
  | nil => simp [sizeAll]
  | cons d rest ih =>
      rw [List.cons_append, sizeAll, ih, sizeAll]
      omega

theorem sizeAll_reverse (ds : List Dependant) : sizeAll ds.reverse = sizeAll ds := by
  induction ds with
  | nil => rfl
  | cons d rest ih =>
      rw [List.reverse_cons, sizeAll_append, ih, sizeAll, sizeAll, sizeAll]
      omega

theorem mem_callsAll {ds : List Dependant} {call : Callable} :
    call ∈ callsAll ds ↔ ∃ d ∈ ds, call ∈ d.calls := by
  induction ds with
  | nil => simp [callsAll]
  | cons d rest ih => simp [callsAll, ih]

theorem mem_collect {n : Nat} {stack : List Dependant} {found : List String} {permission : String}
    (hsize : sizeAll stack ≤ n) :
    permission ∈ collect n stack found ↔
      permission ∈ found ∨ ∃ call ∈ callsAll stack, call.requiredPermission = some permission := by
  induction n generalizing stack found with
  | zero =>
      cases stack with
      | nil => simp [collect, callsAll]
      | cons d rest =>
          cases d with
          | node call dependencies =>
              simp only [sizeAll, Dependant.size] at hsize
              omega
  | succ n ih =>
      cases stack with
      | nil => simp [collect, callsAll]
      | cons d rest =>
          cases d with
          | node call dependencies =>
              have hrest : sizeAll (dependencies.reverse ++ rest) ≤ n := by
                simp only [sizeAll, Dependant.size] at hsize
                rw [sizeAll_append, sizeAll_reverse]
                omega
              have hcalls (c : Callable) : c ∈ callsAll (dependencies.reverse ++ rest) ↔
                  c ∈ callsAll dependencies ∨ c ∈ callsAll rest := by
                simp only [mem_callsAll, List.mem_append, List.mem_reverse, or_and_right,
                  exists_or]
              rw [collect, ih hrest]
              simp only [callsAll, Dependant.calls, List.cons_append, List.mem_cons,
                List.mem_append, hcalls, Option.mem_toList, or_and_right, exists_or,
                exists_eq_left]
              rw [or_assoc, or_left_comm]

theorem mem_routePermissions {dependencies : List Dependant} {permission : String} :
    permission ∈ routePermissions dependencies ↔
      ∃ call ∈ callsAll dependencies, call.requiredPermission = some permission := by
  rw [routePermissions, mem_collect (Nat.le_of_eq (sizeAll_reverse dependencies))]
  simp [mem_callsAll]

end Trees

theorem checkEach_eq_ok_iff {α : Type} {accepts : α → Bool} {message : α → String} {l : List α} :
    checkEach accepts message l = .ok () ↔ ∀ a ∈ l, accepts a = true := by
  induction l with
  | nil => simp [checkEach]
  | cons a rest ih =>
      by_cases ha : accepts a = true
      · simp [checkEach, ha, ih]
      · simp [checkEach, ha]

/-- What `validate_manifest` establishes. -/
structure Valid (manifest : ModuleManifest) : Prop where
  name : moduleNameMatches (py manifest.name) = true
  permissions : ∀ p ∈ manifest.permissions, inNamespace manifest.name p.name = true
  periodicTasks : ∀ task ∈ manifest.periodicTasks, inNamespace manifest.name task = true
  auditActions : ∀ action ∈ manifest.auditActions, inNamespace manifest.name action = true
  routes : ∀ route ∈ manifest.router, routeAccepted manifest.name route = true

theorem seq_eq_ok_iff {x y : Except String Unit} :
    (do x; y) = .ok () ↔ x = .ok () ∧ y = .ok () := by
  cases x with
  | error e => simp [bind, Except.bind]
  | ok u => simp [bind, Except.bind]

theorem validateManifest_eq_ok_iff {manifest : ModuleManifest} :
    validateManifest manifest = .ok () ↔ Valid manifest := by
  by_cases hname : moduleNameMatches (py manifest.name) = true
  · have hunfold : validateManifest manifest = .ok () ↔
        (∀ p ∈ manifest.permissions, inNamespace manifest.name p.name = true) ∧
        (∀ task ∈ manifest.periodicTasks, inNamespace manifest.name task = true) ∧
        (∀ action ∈ manifest.auditActions, inNamespace manifest.name action = true) ∧
        ∀ route ∈ manifest.router, routeAccepted manifest.name route = true := by
      simp only [validateManifest, hname, Bool.not_true, Bool.false_eq_true, if_false,
        seq_eq_ok_iff, checkEach_eq_ok_iff]
    rw [hunfold]
    exact ⟨fun ⟨hp, ht, ha, hr⟩ => ⟨hname, hp, ht, ha, hr⟩,
      fun h => ⟨h.permissions, h.periodicTasks, h.auditActions, h.routes⟩⟩
  · constructor
    · intro h
      simp [validateManifest, hname, throw, throwThe, MonadExceptOf.throw, bind, Except.bind] at h
    · exact fun h => absurd h.name hname

theorem validateEach_eq_ok_iff {seen : List String} {modules : List ModuleManifest} :
    validateEach seen modules = .ok () ↔
      (∀ m ∈ modules, Valid m) ∧ (modules.map (·.name)).Nodup ∧
        ∀ m ∈ modules, m.name ∉ seen := by
  induction modules generalizing seen with
  | nil => simp [validateEach]
  | cons m rest ih =>
      by_cases hseen : m.name ∈ seen
      · simp [validateEach, hseen, throw, throwThe, MonadExceptOf.throw, bind, Except.bind]
      · have hunfold : validateEach seen (m :: rest) = .ok () ↔
            Valid m ∧ validateEach (m.name :: seen) rest = .ok () := by
          simp only [validateEach, List.contains_iff_mem, hseen, if_false, seq_eq_ok_iff,
            validateManifest_eq_ok_iff]
        rw [hunfold, ih]
        simp only [List.map_cons, List.nodup_cons, List.mem_cons, List.mem_map, not_exists,
          not_and, not_or, forall_eq_or_imp]
        constructor
        · rintro ⟨hm, hvalid, hnodup, hnew⟩
          exact ⟨⟨hm, hvalid⟩, ⟨fun x hx => (hnew x hx).1, hnodup⟩, hseen,
            fun x hx => (hnew x hx).2⟩
        · rintro ⟨⟨hm, hvalid⟩, ⟨hother, hnodup⟩, -, hnew⟩
          exact ⟨hm, hvalid, hnodup, fun x hx => ⟨hother x hx, hnew x hx⟩⟩

theorem validateRegistry_eq_ok_iff {modules : List ModuleManifest} :
    validateRegistry modules = .ok () ↔
      (∀ m ∈ modules, Valid m) ∧ (modules.map (·.name)).Nodup := by
  rw [validateRegistry, validateEach_eq_ok_iff]
  simp

/-- The permissions under which the API routes of a manifest are accepted. -/
def acceptedUnder (manifest : ModuleManifest) : List String :=
  manifest.router.flatMap fun
    | .api _ dependencies => (routePermissions dependencies).filter (inNamespace manifest.name)
    | _ => []

/-- The permissions, the tasks and the audit actions of a module, and the
permissions its routes stand under. -/
def declaredNames (manifest : ModuleManifest) : List String :=
  manifest.permissions.map (·.name) ++ manifest.periodicTasks ++ manifest.auditActions ++
    acceptedUnder manifest

/-- In the namespace of its module, in that of no other one, and not in the
platform's. -/
structure OwnName (modules : List ModuleManifest) (manifest : ModuleManifest) (text : String) :
    Prop where
  own : inNamespace manifest.name text = true
  disjoint : ∀ other ∈ modules, other.name ≠ manifest.name → inNamespace other.name text = false
  notCore : inNamespace "core" text = false

theorem inNamespace_iff {name text : String} :
    inNamespace name text = true ↔ ∃ rest, py text = py name ++ 46 :: rest := by
  have hdot : py (name ++ ".") = py name ++ [46] := by simp [py]
  rw [inNamespace, hdot, List.isPrefixOf_iff_prefix]
  constructor
  · rintro ⟨rest, hrest⟩
    exact ⟨rest, by rw [← hrest, List.append_assoc]; rfl⟩
  · rintro ⟨rest, hrest⟩
    exact ⟨rest, by rw [hrest, List.append_assoc]; rfl⟩

theorem takeWhile_of_inNamespace {name text : String} (hname : 46 ∉ py name)
    (htext : inNamespace name text = true) : (py text).takeWhile (fun c => c != 46) = py name := by
  obtain ⟨rest, hrest⟩ := inNamespace_iff.mp htext
  rw [hrest, List.takeWhile_append_of_pos, List.takeWhile_cons_of_neg, List.append_nil]
  · simp
  · intro c hc
    have hne : c ≠ 46 := fun h => hname (h ▸ hc)
    simpa using hne

theorem name_eq_of_inNamespace {name other text : String} (hname : 46 ∉ py name)
    (hother : 46 ∉ py other) (htext : inNamespace name text = true)
    (htext' : inNamespace other text = true) : name = other :=
  py_injective ((takeWhile_of_inNamespace hname htext).symm.trans
    (takeWhile_of_inNamespace hother htext'))

theorem dot_notMem_of_moduleNameMatches {name : PyStr} (h : moduleNameMatches name = true) :
    46 ∉ name := by
  intro hdot
  simp only [moduleNameMatches, Bool.and_eq_true, List.all_eq_true] at h
  exact absurd (h.2 46 hdot) (by decide)

theorem Valid.inNamespace {manifest : ModuleManifest} (h : Valid manifest) {text : String}
    (htext : text ∈ declaredNames manifest) : inNamespace manifest.name text = true := by
  simp only [declaredNames, List.mem_append, List.mem_map] at htext
  rcases htext with ((⟨p, hp, rfl⟩ | htask) | haction) | hroute
  · exact h.permissions p hp
  · exact h.periodicTasks text htask
  · exact h.auditActions text haction
  · obtain ⟨route, -, hmem⟩ := List.mem_flatMap.mp hroute
    cases route with
    | api path dependencies => exact (List.mem_filter.mp hmem).2
    | apiWebSocket path dependencies => cases hmem
    | plain path => cases hmem
    | plainWebSocket path => cases hmem

/-- In an accepted registry every declared name is in its module's own namespace
alone if and only if a module called `core` declares none. -/
theorem namespaces_own_iff (modules : List ModuleManifest)
    (haccepted : validateRegistry modules = .ok ()) :
    (∀ m ∈ modules, ∀ text ∈ declaredNames m, OwnName modules m text) ↔
      ∀ m ∈ modules, m.name = "core" → declaredNames m = [] := by
  obtain ⟨hvalid, -⟩ := validateRegistry_eq_ok_iff.mp haccepted
  have hdot (m : ModuleManifest) (hm : m ∈ modules) : 46 ∉ py m.name :=
    dot_notMem_of_moduleNameMatches (hvalid m hm).name
  constructor
  · intro hown m hm hcore
    refine List.eq_nil_iff_forall_not_mem.mpr fun text htext => ?_
    have hnot := (hown m hm text htext).notCore
    rw [← hcore, (hvalid m hm).inNamespace htext] at hnot
    cases hnot
  · intro hcore m hm text htext
    have hself := (hvalid m hm).inNamespace htext
    refine ⟨hself, ?_, ?_⟩
    · intro other hother hne
      by_contra hin
      exact hne (name_eq_of_inNamespace (hdot other hother) (hdot m hm) (by simpa using hin) hself)
    · by_contra hin
      have hcoreDot : 46 ∉ py "core" := by decide
      have hname := name_eq_of_inNamespace (hdot m hm) hcoreDot hself (by simpa using hin)
      rw [hcore m hm hname] at htext
      cases htext

/-- A dependency on a permission, with the tenant it resolves. -/
def permissionDependency (permission : String)
    (declared : validatePermission permission = .ok permission) : Dependant :=
  .node (.requirePermission permission declared) [.node .resolveTenant []]

theorem readDigests_declared :
    validatePermission "sample_digest.read" = .ok "sample_digest.read" := by
  decide +kernel

theorem manageDigests_declared :
    validatePermission "sample_digest.manage" = .ok "sample_digest.manage" := by
  decide +kernel

/-- The manifest of `sample_digest`. -/
def sampleDigest : ModuleManifest where
  name := "sample_digest"
  router :=
    [.api "/digests" [permissionDependency "sample_digest.read" readDigests_declared,
        .node (.other 0 none) []],
      .api "/run" [permissionDependency "sample_digest.manage" manageDigests_declared]]
  permissions :=
    [⟨"sample_digest.read", ["member", "admin", "owner"]⟩,
      ⟨"sample_digest.manage", ["admin", "owner"]⟩]
  periodicTasks := ["sample_digest.daily_digest"]
  connectorEvents := [⟨"mail", 0⟩]
  auditActions := ["sample_digest.digest_generated"]

theorem sampleDigest_namespaces_own :
    validateRegistry [sampleDigest] = .ok () ∧
      ∀ m ∈ [sampleDigest], ∀ text ∈ declaredNames m, OwnName [sampleDigest] m text := by
  have hvalid : validateRegistry [sampleDigest] = .ok () := by decide +kernel
  refine ⟨hvalid, (namespaces_own_iff [sampleDigest] hvalid).mpr fun m hm hcore => ?_⟩
  rw [List.mem_singleton.mp hm] at hcore
  exact absurd hcore (by decide)

/-- A module called `core` with a permission of the platform's namespace. -/
def coreModule : ModuleManifest where
  name := "core"
  router := []
  permissions := [⟨"core.members.manage", ["member"]⟩]

theorem module_core_is_accepted :
    validateRegistry [coreModule] = .ok () ∧
      "core.members.manage" ∈ declaredNames coreModule ∧
      inNamespace "core" "core.members.manage" = true := by
  decide +kernel

end Socle.ModuleRegistry
