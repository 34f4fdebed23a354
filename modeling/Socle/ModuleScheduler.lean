import Socle.ConnectorStore
import Socle.KeyedTable
import Socle.Procedures

/-!
Modules and their activation by tenant: `enable_module` and `disable_module`,
the fan-out of periodic tasks and their unit tasks under a lock with a fixed
lifetime, and the delivery of connector events to the handlers of modules.  All
of them are procedures whose awaits interleave.
-/

namespace Socle.ModuleScheduler

open Socle.Procedures Socle.KeyedTable
open Socle.DirectoryStore (Instant)
open Socle.ConnectorStore (Lock LockName lockTtl)

/-! ### The registry of modules -/

/-- What the scheduler reads of a `ModuleManifest`. -/
structure ModuleManifest where
  name : String
  version : String
  periodicTasks : List String
  connectorEvents : List String
  requiredCapabilities : List String
  deriving DecidableEq, Repr

/-- The manifest of `sample_digest`. -/
def sampleDigest : ModuleManifest where
  name := "sample_digest"
  version := "1.0.0"
  periodicTasks := ["sample_digest.daily_digest"]
  connectorEvents := ["mail"]
  requiredCapabilities := ["mail"]

/-- `MODULES`. -/
def modules : List ModuleManifest := [sampleDigest]

/-- `get_module`. -/
def getModule (registry : List ModuleManifest) (name : String) : Option ModuleManifest :=
  registry.find? fun manifest => manifest.name == name

/-- `_find_task`, as whether there is one. -/
def findTask (registry : List ModuleManifest) (moduleName taskName : String) : Bool :=
  match getModule registry moduleName with
  | none => false
  | some manifest => manifest.periodicTasks.contains taskName

/-- `event_handlers`: the modules whose handlers `register_runtime` attached to
the capability, in order. -/
def eventHandlers (registry : List ModuleManifest) (capability : String) : List String :=
  registry.flatMap fun manifest =>
    (manifest.connectorEvents.filter (· == capability)).map fun _ => manifest.name

/-! ### The state -/

/-- A row of `tenants`; `active` says that its state is `ACTIVE` and that it is not
soft-deleted. -/
structure Tenant where
  id : Nat
  slug : String
  active : Bool
  deriving DecidableEq, Repr

/-- A row of `tenant_modules`. -/
structure TenantModule where
  tenantId : Nat
  moduleName : String
  enabled : Bool
  deriving DecidableEq, Repr

def TenantModule.key (row : TenantModule) : Nat × String := (row.tenantId, row.moduleName)

/-- The arguments of a unit task. -/
structure UnitTask where
  moduleName : String
  taskName : String
  tenantId : Nat
  deriving DecidableEq, Repr

/-- `_lock_name`. -/
def UnitTask.lockName (task : UnitTask) : LockName :=
  .periodic task.moduleName task.taskName task.tenantId

/-- An audit event of an activation, in the database of the tenant. -/
structure AuditEvent where
  tenantId : Nat
  action : String
  resourceId : String
  deriving DecidableEq, Repr

/-- What happened so far, the last event first.  The program does not keep it. -/
inductive Event where
  | enabled (tenantId : Nat) (moduleName : String)
  | disabled (tenantId : Nat) (moduleName : String)
  | started (task : UnitTask)
  | handled (tenantId : Nat) (moduleName : String) (capability : String)
  deriving DecidableEq, Repr

/-- The databases, the broker, Valkey and the caches of the API processes. -/
structure World where
  tenants : List Tenant := []
  modules : List TenantModule := []
  audit : List AuditEvent := []
  queue : List UnitTask := []
  locks : List Lock := []
  nextToken : Nat := 0
  clock : Instant := 0
  cache : List ((Nat × Nat × String) × (Bool × Instant)) := []
  history : List Event := []
  deriving DecidableEq

/-- The stored flag of a module for a tenant. -/
def World.isEnabled (w : World) (tenantId : Nat) (moduleName : String) : Bool :=
  (lookup TenantModule.key (tenantId, moduleName) w.modules).any (·.enabled)

def World.putModule (w : World) (tenantId : Nat) (moduleName : String) (enabled : Bool) : World :=
  { w with modules := upsert TenantModule.key ⟨tenantId, moduleName, enabled⟩ w.modules }

theorem map_enabled_beq (row : Option TenantModule) :
    (row.map (·.enabled) == some true) = row.any (·.enabled) := by
  cases row with
  | none => rfl
  | some row => cases henabled : row.enabled <;> simp [henabled]

theorem isEnabled_putModule (w : World) (t t' : Nat) (m m' : String) (enabled : Bool) :
    (w.putModule t m enabled).isEnabled t' m' =
      if (t, m) = (t', m') then enabled else w.isEnabled t' m' := by
  unfold World.isEnabled World.putModule
  by_cases hkey : (t, m) = (t', m')
  · rw [if_pos hkey, ← hkey]
    show (lookup TenantModule.key (TenantModule.key ⟨t, m, enabled⟩) _).any _ = _
    rw [lookup_upsert_self]
    rfl
  · rw [if_neg hkey]
    have hrow : TenantModule.key ⟨t, m, enabled⟩ ≠ (t', m') := hkey
    rw [lookup_upsert_of_ne hrow]

/-- A key is there until its lifetime has elapsed. -/
def World.liveLock? (w : World) (name : LockName) : Option Lock :=
  w.locks.find? fun lock => lock.name == name && decide (w.clock < lock.expiresAt)

/-- Where an execution of a unit task stands. -/
inductive Phase where
  | outside
  | admitted
  | inside (task : UnitTask)
  | leaving
  deriving DecidableEq, Repr

/-- One execution: the modules whose code it is bound to start for a tenant, the
lock it took, and where it stands with it. -/
structure Execution where
  pending : List (Nat × String) := []
  held : Option Lock := none
  phase : Phase := .outside
  deriving DecidableEq

/-! ### Requests -/

/-- How a module function ends: it returns, raises an `Exception`, raises
something else, or its process is killed. -/
inductive FunctionEnd where
  | returned
  | failed
  | interrupted
  | killed
  deriving DecidableEq, Repr

/-- How a commit ends; one whose answer is lost was applied. -/
inductive CommitEnd where
  | committed
  | refused
  | lost
  deriving DecidableEq, Repr

def CommitEnd.applied : CommitEnd → Bool
  | .refused => false
  | _ => true

def CommitEnd.reported : CommitEnd → Bool
  | .committed => true
  | _ => false

inductive Request where
  | advance (elapsed : Nat)
  | putTenant (tenant : Tenant)
  | grantedCapabilities (tenantId : Nat)
  | selectModule (tenantId : Nat) (moduleName : String)
  | recordAudit (event : AuditEvent)
  | commitEnable (tenantId : Nat) (moduleName : String) (row : Option Bool)
  | commitDisable (tenantId : Nat) (moduleName : String)
  | invalidate (process tenantId : Nat) (moduleName : String)
  | cachedState (process tenantId : Nat) (moduleName : String)
  | cacheState (process tenantId : Nat) (moduleName : String) (enabled : Bool) (readAt : Instant)
  | enabledTenantIds (moduleName : String)
  | enqueueUnit (task : UnitTask)
  | receiveUnit (task : UnitTask)
  | activeTenant (tenantId : Nat)
  | acquireLock (name : LockName)
  | startFunction (task : UnitTask)
  | endFunction (task : UnitTask)
  | lockHolder (name : LockName)
  | deleteLock (name : LockName)
  | receiveEvent (slug capability : String)
  | recordEvent (tenantId : Nat)
  | runHandler (tenantId : Nat) (moduleName capability : String)

/-- The awaits of the operations. -/
abbrev scheduler : Interface where
  Request := Request
  Answer
    | .advance _ => Unit
    | .putTenant _ => Unit
    | .grantedCapabilities _ => List String
    | .selectModule _ _ => Option Bool
    | .recordAudit _ => Bool
    | .commitEnable _ _ _ => Bool
    | .commitDisable _ _ => Bool
    | .invalidate _ _ _ => Unit
    | .cachedState _ _ _ => Option Bool × Instant
    | .cacheState _ _ _ _ _ => Unit
    | .enabledTenantIds _ => List Nat
    | .enqueueUnit _ => Unit
    | .receiveUnit _ => Bool
    | .activeTenant _ => Bool
    | .acquireLock _ => Option Nat
    | .startFunction _ => Unit
    | .endFunction _ => FunctionEnd
    | .lockHolder _ => Option Nat
    | .deleteLock _ => Unit
    | .receiveEvent _ _ => Option Nat
    | .recordEvent _ => Bool
    | .runHandler _ _ _ => Bool

/-- What the environment decides at one await. -/
structure Choice where
  granted : List String := []
  commit : CommitEnd := .committed
  ending : FunctionEnd := .returned
  connectionFound : Bool := true
  handlerRaises : Bool := false

/-- `_STATE_TTL_SECONDS`. -/
def stateTtl : Instant := 10000000

/-- The commit of `enable_module`: nothing to write when the row it read was
already enabled, and a conflict when a row appeared where it saw none. -/
def World.commitEnable (w : World) (tenantId : Nat) (moduleName : String) (row : Option Bool)
    (commit : CommitEnd) : World × Bool :=
  let conflict := row = none ∧ (lookup TenantModule.key (tenantId, moduleName) w.modules).isSome
  if conflict ∨ commit.applied = false then (w, false)
  else
    let written := if row = some true then w else w.putModule tenantId moduleName true
    ({ written with history := .enabled tenantId moduleName :: w.history }, commit.reported)

def World.commitDisable (w : World) (tenantId : Nat) (moduleName : String) (commit : CommitEnd) :
    World × Bool :=
  if commit.applied then
    ({ w.putModule tenantId moduleName false with
      history := .disabled tenantId moduleName :: w.history }, commit.reported)
  else (w, false)

def serve (registry : List ModuleManifest) : Serve scheduler World Execution Choice :=
  fun w l request choice =>
    match request with
    | .advance elapsed => ({ w with clock := w.clock + elapsed }, l, ())
    | .putTenant tenant => ({ w with tenants := upsert Tenant.id tenant w.tenants }, l, ())
    | .grantedCapabilities _ => (w, l, choice.granted)
    | .selectModule tenantId moduleName =>
        (w, l, (lookup TenantModule.key (tenantId, moduleName) w.modules).map (·.enabled))
    | .recordAudit event =>
        (if choice.commit.applied then { w with audit := w.audit ++ [event] } else w, l,
          choice.commit.reported)
    | .commitEnable tenantId moduleName row =>
        let out := w.commitEnable tenantId moduleName row choice.commit
        (out.1, l, out.2)
    | .commitDisable tenantId moduleName =>
        let out := w.commitDisable tenantId moduleName choice.commit
        (out.1, l, out.2)
    | .invalidate process tenantId moduleName =>
        ({ w with cache := w.cache.filter fun entry => entry.1 != (process, tenantId, moduleName) },
          l, ())
    | .cachedState process tenantId moduleName =>
        (w, l, ((w.cache.find? fun entry => entry.1 == (process, tenantId, moduleName) &&
          decide (w.clock < entry.2.2)).map fun entry => entry.2.1, w.clock))
    | .cacheState process tenantId moduleName enabled readAt =>
        ({ w with cache := ((process, tenantId, moduleName), enabled, readAt + stateTtl) ::
            w.cache.filter fun entry => entry.1 != (process, tenantId, moduleName) }, l, ())
    | .enabledTenantIds moduleName =>
        (w, l, (w.modules.filter fun row => row.moduleName == moduleName && row.enabled).map
          (·.tenantId))
    | .enqueueUnit task => ({ w with queue := task :: w.queue }, l, ())
    | .receiveUnit task =>
        if task ∈ w.queue then
          (w, { l with pending := if findTask registry task.moduleName task.taskName then
            [(task.tenantId, task.moduleName)] else [] }, true)
        else (w, l, false)
    | .activeTenant tenantId =>
        let active := w.tenants.any fun tenant => tenant.id == tenantId && tenant.active
        (w, if active then l else { l with pending := [] }, active)
    | .acquireLock name =>
        match w.liveLock? name with
        | some _ => (w, { l with pending := [] }, none)
        | none =>
            let lock : Lock := ⟨name, w.nextToken, w.clock + lockTtl⟩
            ({ w with locks := lock :: w.locks.filter fun x => x.name != name
                      nextToken := w.nextToken + 1 },
              { l with held := some lock, phase := .admitted }, some w.nextToken)
    | .startFunction task =>
        ({ w with history := .started task :: w.history },
          { l with pending := [], phase := .inside task }, ())
    | .endFunction _ => (w, { l with phase := .leaving }, choice.ending)
    | .lockHolder name => (w, l, (w.liveLock? name).map (·.token))
    | .deleteLock name =>
        ({ w with locks := w.locks.filter fun x => x.name != name }, { l with held := none }, ())
    | .receiveEvent slug capability =>
        match w.tenants.find? fun tenant => tenant.slug == slug && tenant.active with
        | none => (w, l, none)
        | some tenant =>
            (w, { l with pending := (eventHandlers registry capability).map fun moduleName =>
              (tenant.id, moduleName) }, some tenant.id)
    | .recordEvent _ =>
        (w, if choice.connectionFound then l else { l with pending := [] }, choice.connectionFound)
    | .runHandler tenantId moduleName capability =>
        ({ w with history := .handled tenantId moduleName capability :: w.history },
          { l with pending := if choice.handlerRaises then [] else l.pending.tail },
          !choice.handlerRaises)

/-! ### The operations -/

inductive Raised where
  | unknownModule (moduleName : String)
  | missingCapabilities (moduleName : String) (missing : List String)
  | databaseError
  | interrupted
  | killed
  | handlerError
  | http (status : Nat)
  deriving DecidableEq, Repr

abbrev Act (α : Type) := Proc scheduler Raised α

def ask (r : Request) : Act (scheduler.Answer r) := request (I := scheduler) r

/-- `missing_capabilities`: a set, listed in order. -/
def missingCapabilities (manifest : ModuleManifest) (tenantId : Nat) : Act (List String) :=
  if manifest.requiredCapabilities = [] then return []
  else do
    let granted : List String ← ask (.grantedCapabilities tenantId)
    let missing := manifest.requiredCapabilities.filter fun name => !granted.contains name
    return missing.dedup.mergeSort fun a b => decide (a ≤ b)

/-- `enable_module`, called in an API or command-line process. -/
def enableModule (registry : List ModuleManifest) (process tenantId : Nat) (moduleName : String) :
    Act Unit :=
  match getModule registry moduleName with
  | none => throw (.unknownModule moduleName)
  | some manifest => do
      let missing ← missingCapabilities manifest tenantId
      if missing ≠ [] then throw (.missingCapabilities moduleName missing)
      let row : Option Bool ← ask (.selectModule tenantId moduleName)
      let audited : Bool ← ask (.recordAudit ⟨tenantId, "core.module.enabled", moduleName⟩)
      if !audited then throw .databaseError
      let committed : Bool ← ask (.commitEnable tenantId moduleName row)
      if !committed then throw .databaseError
      ask (.invalidate process tenantId moduleName)

/-- `disable_module`. -/
def disableModule (registry : List ModuleManifest) (process tenantId : Nat) (moduleName : String) :
    Act Unit :=
  match getModule registry moduleName with
  | none => throw (.unknownModule moduleName)
  | some _ => do
      let row : Option Bool ← ask (.selectModule tenantId moduleName)
      if row ≠ some true then return ()
      let audited : Bool ← ask (.recordAudit ⟨tenantId, "core.module.disabled", moduleName⟩)
      if !audited then throw .databaseError
      let committed : Bool ← ask (.commitDisable tenantId moduleName)
      if !committed then throw .databaseError
      ask (.invalidate process tenantId moduleName)

/-- `is_module_enabled`. -/
def isModuleEnabled (process tenantId : Nat) (moduleName : String) : Act Bool := do
  let cached : Option Bool × Instant ← ask (.cachedState process tenantId moduleName)
  match cached.1 with
  | some enabled => return enabled
  | none => do
      let row : Option Bool ← ask (.selectModule tenantId moduleName)
      let enabled := row == some true
      ask (.cacheState process tenantId moduleName enabled cached.2)
      return enabled

/-- The route `run_now` behind `require_module_enabled`. -/
def runNow (process tenantId : Nat) : Act Unit := do
  let enabled ← isModuleEnabled process tenantId "sample_digest"
  if !enabled then throw (.http 403)
  ask (.enqueueUnit ⟨"sample_digest", "sample_digest.daily_digest", tenantId⟩)

/-- The loop of `run_periodic_fanout`. -/
def enqueueAll (moduleName taskName : String) : List Nat → Act Unit
  | [] => return ()
  | tenantId :: rest => do
      ask (.enqueueUnit ⟨moduleName, taskName, tenantId⟩)
      enqueueAll moduleName taskName rest

/-- `run_periodic_fanout`. -/
def runPeriodicFanout (registry : List ModuleManifest) (moduleName taskName : String) :
    Act Unit :=
  if findTask registry moduleName taskName then do
    let tenantIds : List Nat ← ask (.enabledTenantIds moduleName)
    enqueueAll moduleName taskName tenantIds
  else return ()

/-- `release_lock`. -/
def releaseLock (name : LockName) (token : Nat) : Act Unit := do
  let current : Option Nat ← ask (.lockHolder name)
  if current = some token then ask (.deleteLock name) else return ()

/-- `run_periodic_unit`. -/
def runPeriodicUnit (registry : List ModuleManifest) (task : UnitTask) : Act Bool := do
  if !findTask registry task.moduleName task.taskName then return false
  let active : Bool ← ask (.activeTenant task.tenantId)
  if !active then return false
  let acquired : Option Nat ← ask (.acquireLock task.lockName)
  match acquired with
  | none => return false
  | some token => do
      ask (.startFunction task)
      let ending : FunctionEnd ← ask (.endFunction task)
      match ending with
      | .killed => throw .killed
      | .returned => do
          releaseLock task.lockName token
          return true
      | .failed => do
          releaseLock task.lockName token
          return false
      | .interrupted => do
          releaseLock task.lockName token
          throw .interrupted

/-- `periodic_unit_task`, on each delivery of its message. -/
def periodicUnitTask (registry : List ModuleManifest) (task : UnitTask) : Act Unit := do
  let delivered : Bool ← ask (.receiveUnit task)
  if delivered then
    let _ ← runPeriodicUnit registry task

/-- The loop over the handlers of a capability. -/
def runHandlers (tenantId : Nat) (capability : String) : List String → Act Unit
  | [] => return ()
  | moduleName :: rest => do
      let handled : Bool ← ask (.runHandler tenantId moduleName capability)
      if !handled then throw .handlerError
      runHandlers tenantId capability rest

/-- `process_connector_event`. -/
def processConnectorEvent (registry : List ModuleManifest) (slug capability : String) :
    Act Unit := do
  let tenant : Option Nat ← ask (.receiveEvent slug capability)
  match tenant with
  | none => return ()
  | some tenantId => do
      let found : Bool ← ask (.recordEvent tenantId)
      if !found then return ()
      runHandlers tenantId capability (eventHandlers registry capability)

/-- Time passes. -/
def passTime : List Nat → Act Unit
  | [] => return ()
  | elapsed :: rest => do
      ask (.advance elapsed)
      passTime rest

/-- What runs side by side. -/
inductive Operation where
  | passTime (steps : List Nat)
  | putTenant (tenant : Tenant)
  | enableModule (process tenantId : Nat) (moduleName : String)
  | disableModule (process tenantId : Nat) (moduleName : String)
  | runPeriodicFanout (moduleName taskName : String)
  | runNow (process tenantId : Nat)
  | periodicUnit (task : UnitTask)
  | connectorEvent (slug capability : String)

def launch (registry : List ModuleManifest) : Operation → Act Unit
  | .passTime steps => passTime steps
  | .putTenant tenant => ask (.putTenant tenant)
  | .enableModule process tenantId moduleName => enableModule registry process tenantId moduleName
  | .disableModule process tenantId moduleName =>
      disableModule registry process tenantId moduleName
  | .runPeriodicFanout moduleName taskName => runPeriodicFanout registry moduleName taskName
  | .runNow process tenantId => runNow process tenantId
  | .periodicUnit task => periodicUnitTask registry task
  | .connectorEvent slug capability => processConnectorEvent registry slug capability

abbrev State := Pool scheduler Raised World Execution Unit

/-- The operations about to start, side by side, on a platform where no module was
enabled yet and Valkey is empty. -/
def start (registry : List ModuleManifest) (tenants : List Tenant) (operations : List Operation) :
    State where
  shared := { tenants := tenants }
  threads := operations.map fun operation => ({}, launch registry operation)

/-- The daily digest of tenant 1. -/
def dailyDigest : UnitTask := ⟨"sample_digest", "sample_digest.daily_digest", 1⟩

/-- So many steps of one thread, with the default choices. -/
def steps (thread count : Nat) : List (Nat × Choice) := List.replicate count (thread, {})

/-- Tenant 1 enables the module and the beat publishes its unit task. -/
def enableAndPublish : List (Nat × Choice) :=
  (0, { granted := ["mail"] }) :: steps 0 4 ++ steps 1 2

/-- An execution starts a module function only when it is bound to and has taken
the lock of the task, and deletes no other key than that of the lock it took. -/
def allowed (l : Execution) : Request → Prop
  | .receiveUnit _ => l = {}
  | .receiveEvent _ _ => l = {}
  | .acquireLock _ => l.phase = .outside
  | .startFunction task => (task.tenantId, task.moduleName) ∈ l.pending ∧ l.phase = .admitted ∧
      ∃ lock, l.held = some lock ∧ lock.name = task.lockName
  | .endFunction task => l.phase = .inside task
  | .deleteLock name => l.phase = .leaving ∧ ∃ lock, l.held = some lock ∧ lock.name = name
  | .runHandler tenantId moduleName _ => (tenantId, moduleName) ∈ l.pending
  | _ => True

/-- The requests that do not concern the execution's own state. -/
def plain : Request → Bool
  | .receiveUnit _ => false
  | .activeTenant _ => false
  | .acquireLock _ => false
  | .startFunction _ => false
  | .endFunction _ => false
  | .deleteLock _ => false
  | .receiveEvent _ _ => false
  | .recordEvent _ => false
  | .runHandler _ _ _ => false
  | _ => true

/-- The requests of `enable_module` and `disable_module` on a module of a tenant. -/
def activates (process tenantId : Nat) (moduleName : String) : Request → Bool
  | .grantedCapabilities _ => true
  | .recordAudit _ => true
  | .selectModule tenantId' moduleName' => decide ((tenantId', moduleName') = (tenantId, moduleName))
  | .commitEnable tenantId' moduleName' _ =>
      decide ((tenantId', moduleName') = (tenantId, moduleName))
  | .commitDisable tenantId' moduleName' =>
      decide ((tenantId', moduleName') = (tenantId, moduleName))
  | .invalidate process' tenantId' moduleName' =>
      decide ((process', tenantId', moduleName') = (process, tenantId, moduleName))
  | _ => false

theorem plain_of_activates {process tenantId : Nat} {moduleName : String} {r : Request}
    (hr : activates process tenantId moduleName r = true) : plain r = true := by
  cases r <;> first | rfl | cases hr

variable {registry : List ModuleManifest}

theorem mem_cache_serve (w : World) (r : Request) (c : Choice)
    {entry : (Nat × Nat × String) × (Bool × Instant)}
    (hentry : entry ∈ (serve registry w {} r c).1.cache) :
    entry ∈ w.cache ∨ ∃ process tenantId moduleName enabled readAt,
      r = .cacheState process tenantId moduleName enabled readAt ∧
        entry = ((process, tenantId, moduleName), enabled, readAt + stateTtl) := by
  cases r with
  | cacheState process tenantId moduleName enabled readAt =>
      rcases List.mem_cons.mp hentry with rfl | hold
      · exact .inr ⟨process, tenantId, moduleName, enabled, readAt, rfl, rfl⟩
      · exact .inl (List.mem_filter.mp hold).1
  | invalidate process tenantId moduleName => exact .inl (List.mem_filter.mp hentry).1
  | recordAudit event =>
      refine .inl ?_
      simp only [serve] at hentry
      split at hentry
      · exact hentry
      · exact hentry
  | commitEnable tenantId moduleName row =>
      refine .inl ?_
      simp only [serve, World.commitEnable] at hentry
      split at hentry
      · exact hentry
      · split at hentry
        · exact hentry
        · exact hentry
  | commitDisable tenantId moduleName =>
      refine .inl ?_
      simp only [serve, World.commitDisable] at hentry
      split at hentry
      · exact hentry
      · exact hentry
  | receiveUnit task =>
      refine .inl ?_
      simp only [serve] at hentry
      split at hentry
      · exact hentry
      · exact hentry
  | acquireLock name =>
      refine .inl ?_
      simp only [serve] at hentry
      split at hentry
      · exact hentry
      · exact hentry
  | receiveEvent slug capability =>
      refine .inl ?_
      simp only [serve] at hentry
      split at hentry
      · exact hentry
      · exact hentry
  | _ => exact .inl hentry

theorem plain_allowed {r : Request} (hr : plain r = true) (l : Execution) : allowed l r := by
  cases r <;> trivial

theorem serve_plain {r : Request} (hr : plain r = true) (w : World) (l : Execution) (c : Choice) :
    (serve registry w l r c).2.1 = l := by
  cases r <;> first | rfl | cases hr

theorem follows_of_makes_plain {p : Act Unit} (hp : Makes (fun r => plain r = true) p) :
    Follows (serve registry) allowed (fun _ _ => True) {} p := by
  refine Follows.mono (fun _ _ _ => trivial)
    (Makes.follows_of (P := fun l => l = {}) ?_ hp rfl)
  rintro l r hr rfl
  exact ⟨plain_allowed hr _, fun w c => serve_plain hr w _ c⟩

theorem makes_passTime (steps : List Nat) : Makes (fun r => plain r = true) (passTime steps) := by
  induction steps with
  | nil => trivial
  | cons elapsed rest ih => exact ⟨rfl, fun _ => ih⟩

theorem makes_missingCapabilities (manifest : ModuleManifest) (process tenantId : Nat)
    (moduleName : String) :
    Makes (fun r => activates process tenantId moduleName r = true)
      (missingCapabilities manifest tenantId) := by
  unfold missingCapabilities
  split
  · trivial
  · exact ⟨rfl, fun _ => trivial⟩

theorem makes_enableModule (process tenantId : Nat) (moduleName : String) :
    Makes (fun r => activates process tenantId moduleName r = true)
      (enableModule registry process tenantId moduleName) := by
  unfold enableModule
  cases getModule registry moduleName with
  | none => trivial
  | some manifest =>
      refine (makes_missingCapabilities manifest ..).bind fun missing => ?_
      by_cases hmissing : missing ≠ []
      · rw [if_pos hmissing]
        trivial
      · rw [if_neg hmissing]
        refine ⟨decide_eq_true rfl, fun row => ⟨rfl, fun audited => ?_⟩⟩
        cases audited with
        | false => trivial
        | true =>
            refine ⟨decide_eq_true rfl, fun committed => ?_⟩
            cases committed with
            | false => trivial
            | true => exact ⟨decide_eq_true rfl, fun _ => trivial⟩

theorem makes_disableModule (process tenantId : Nat) (moduleName : String) :
    Makes (fun r => activates process tenantId moduleName r = true)
      (disableModule registry process tenantId moduleName) := by
  unfold disableModule
  cases getModule registry moduleName with
  | none => trivial
  | some manifest =>
      refine ⟨decide_eq_true rfl, fun (row : Option Bool) => ?_⟩
      show Makes _ (if row ≠ some true then _ else _)
      by_cases hrow : row ≠ some true
      · rw [if_pos hrow]
        trivial
      · rw [if_neg hrow]
        refine ⟨rfl, fun audited => ?_⟩
        cases audited with
        | false => trivial
        | true =>
            refine ⟨decide_eq_true rfl, fun committed => ?_⟩
            cases committed with
            | false => trivial
            | true => exact ⟨decide_eq_true rfl, fun _ => trivial⟩

theorem makes_runNow (process tenantId : Nat) :
    Makes (fun r => plain r = true) (runNow process tenantId) := by
  have henqueue (enabled : Bool) : Makes (fun r => plain r = true)
      (if !enabled then throw (.http 403)
        else ask (.enqueueUnit ⟨"sample_digest", "sample_digest.daily_digest", tenantId⟩)) := by
    cases enabled with
    | false => trivial
    | true => exact ⟨rfl, fun _ => trivial⟩
  refine ⟨rfl, fun cached => ?_⟩
  obtain ⟨cached, readAt⟩ := cached
  cases cached with
  | some enabled => exact henqueue enabled
  | none => exact ⟨rfl, fun row => ⟨rfl, fun _ => henqueue _⟩⟩

theorem makes_runPeriodicFanout (moduleName taskName : String) :
    Makes (fun r => plain r = true) (runPeriodicFanout registry moduleName taskName) := by
  unfold runPeriodicFanout
  split
  · refine ⟨rfl, fun tenantIds => ?_⟩
    show Makes _ (enqueueAll moduleName taskName tenantIds)
    generalize (tenantIds : List Nat) = ids
    induction ids with
    | nil => trivial
    | cons tenantId rest ih => exact ⟨rfl, fun _ => ih⟩
  · trivial

theorem follows_releaseLock {l : Execution} {lock : Lock} {name : LockName} (token : Nat)
    (hphase : l.phase = .leaving) (hheld : l.held = some lock) (hname : lock.name = name) :
    Follows (serve registry) allowed (fun _ _ => True) l (releaseLock name token) := by
  refine ⟨trivial, fun w c => ?_⟩
  show Follows (serve registry) allowed _ l
    (if (w.liveLock? name).map (·.token) = some token then ask (.deleteLock name) else .ret ())
  split
  · exact ⟨⟨hphase, lock, hheld, hname⟩, fun _ _ => trivial⟩
  · trivial

theorem follows_function {l : Execution} {lock : Lock} (task : UnitTask) (token : Nat)
    (hpending : (task.tenantId, task.moduleName) ∈ l.pending) (hphase : l.phase = .admitted)
    (hheld : l.held = some lock) (hname : lock.name = task.lockName) :
    Follows (serve registry) allowed (fun _ _ => True) l
      (do ask (.startFunction task)
          let ending : FunctionEnd ← ask (.endFunction task)
          match ending with
          | .killed => throw .killed
          | .returned => do
              releaseLock task.lockName token
              return true
          | .failed => do
              releaseLock task.lockName token
              return false
          | .interrupted => do
              releaseLock task.lockName token
              throw .interrupted) := by
  refine ⟨⟨hpending, hphase, lock, hheld, hname⟩, fun w c => ⟨rfl, fun w' c' => ?_⟩⟩
  have hrelease (p : Act Bool) (hp : ∀ l, Follows (serve registry) allowed (fun _ _ => True) l p) :
      Follows (serve registry) allowed (fun _ _ => True)
        { l with pending := [], phase := .leaving } (releaseLock task.lockName token >>= fun _ => p) :=
    follows_bind (follows_releaseLock token rfl hheld hname) (fun l _ _ => hp l) fun _ _ _ => trivial
  rcases c' with ⟨_, _, ending, _, _⟩
  cases ending with
  | killed => trivial
  | returned => exact hrelease _ fun _ => trivial
  | failed => exact hrelease _ fun _ => trivial
  | interrupted => exact hrelease _ fun _ => trivial

theorem follows_runPeriodicUnit (task : UnitTask)
    (hfound : findTask registry task.moduleName task.taskName = true) :
    Follows (serve registry) allowed (fun _ _ => True)
      { pending := [(task.tenantId, task.moduleName)] } (runPeriodicUnit registry task) := by
  unfold runPeriodicUnit
  simp only [hfound, Bool.not_true, Bool.false_eq_true, if_false]
  refine ⟨trivial, fun w c => ?_⟩
  show Follows (serve registry) allowed _
    (if (w.tenants.any fun tenant => tenant.id == task.tenantId && tenant.active) then _ else _)
    (if !(w.tenants.any fun tenant => tenant.id == task.tenantId && tenant.active) then _ else _)
  cases w.tenants.any fun tenant => tenant.id == task.tenantId && tenant.active with
  | false => trivial
  | true =>
      refine ⟨rfl, fun w' c' => ?_⟩
      cases hlive : w'.liveLock? task.lockName with
      | some lock =>
          simp only [serve, hlive]
          trivial
      | none =>
          simp only [serve, hlive]
          exact follows_function task w'.nextToken (by simp) rfl rfl rfl

theorem follows_periodicUnitTask (task : UnitTask) :
    Follows (serve registry) allowed (fun _ _ => True) {} (periodicUnitTask registry task) := by
  refine ⟨rfl, fun w c => ?_⟩
  by_cases hqueued : task ∈ w.queue
  · by_cases hfound : findTask registry task.moduleName task.taskName = true
    · simp only [serve, hqueued, hfound, if_true]
      show Follows (serve registry) allowed _ _ (runPeriodicUnit registry task >>= _)
      exact follows_bind (follows_runPeriodicUnit task hfound) (fun _ _ _ => trivial)
        fun _ _ _ => trivial
    · simp only [serve, hqueued, hfound, if_true]
      show Follows (serve registry) allowed _ _ (runPeriodicUnit registry task >>= _)
      simp only [runPeriodicUnit, hfound, Bool.not_false, if_true]
      trivial
  · simp only [serve, hqueued, if_false]
    trivial

theorem follows_runHandlers (tenantId : Nat) (capability : String) (names : List String) :
    Follows (serve registry) allowed (fun _ _ => True)
      { pending := names.map fun moduleName => (tenantId, moduleName) }
      (runHandlers tenantId capability names) := by
  induction names with
  | nil => trivial
  | cons moduleName rest ih =>
      refine ⟨by simp [allowed], fun w c => ?_⟩
      rcases c with ⟨_, _, _, _, raises⟩
      cases raises with
      | true => trivial
      | false => exact ih

theorem follows_processConnectorEvent (slug capability : String) :
    Follows (serve registry) allowed (fun _ _ => True) {}
      (processConnectorEvent registry slug capability) := by
  refine ⟨rfl, fun w c => ?_⟩
  cases hfound : w.tenants.find? fun tenant => tenant.slug == slug && tenant.active with
  | none =>
      simp only [serve, hfound]
      trivial
  | some tenant =>
      simp only [serve, hfound]
      refine ⟨trivial, fun w' c' => ?_⟩
      rcases c' with ⟨_, _, _, found, _⟩
      cases found with
      | false => trivial
      | true => exact follows_runHandlers tenant.id capability (eventHandlers registry capability)

theorem follows_launch (operation : Operation) :
    Follows (serve registry) allowed (fun _ _ => True) {} (launch registry operation) := by
  cases operation with
  | passTime steps => exact follows_of_makes_plain (makes_passTime steps)
  | putTenant tenant => exact ⟨trivial, fun _ _ => trivial⟩
  | enableModule process tenantId moduleName =>
      exact follows_of_makes_plain
        ((makes_enableModule process tenantId moduleName).mono fun _ => plain_of_activates)
  | disableModule process tenantId moduleName =>
      exact follows_of_makes_plain
        ((makes_disableModule process tenantId moduleName).mono fun _ => plain_of_activates)
  | runPeriodicFanout moduleName taskName =>
      exact follows_of_makes_plain (makes_runPeriodicFanout moduleName taskName)
  | runNow process tenantId => exact follows_of_makes_plain (makes_runNow process tenantId)
  | periodicUnit task => exact follows_periodicUnitTask task
  | connectorEvent slug capability => exact follows_processConnectorEvent slug capability

theorem disciplined_start (tenants : List Tenant) (operations : List Operation) :
    Disciplined (serve registry) allowed (start registry tenants operations) := by
  intro thread hmem
  obtain ⟨operation, -, rfl⟩ := List.mem_map.mp hmem
  exact follows_launch operation

theorem locals_start (tenants : List Tenant) (operations : List Operation) {l : Execution}
    (hmem : l ∈ (start registry tenants operations).locals) : l = {} := by
  obtain ⟨thread, hthread, rfl⟩ := List.mem_map.mp hmem
  obtain ⟨operation, -, rfl⟩ := List.mem_map.mp hthread
  rfl

end Socle.ModuleScheduler
