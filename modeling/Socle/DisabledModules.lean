import Socle.ModuleScheduler

/-!
The code of a module runs for a tenant only while the module is enabled there,
in every interleaving in which no deactivation comes between a reading of the
flag and the start that goes back to it.
-/

namespace Socle.DisabledModules

open Socle.GuardedRuns Socle.Procedures Socle.KeyedTable Socle.ModuleScheduler
open Socle.DirectoryStore (Instant)
open Socle.ConnectorStore (LockName)

/-- The events that decide whether a module is enabled for a tenant. -/
def switches (tenantId : Nat) (moduleName : String) : Event → Bool
  | .enabled t m => t == tenantId && m == moduleName
  | .disabled t m => t == tenantId && m == moduleName
  | _ => false

/-- The last of `enable_module` and `disable_module` that was committed for the
tenant and the module is `enable_module`. -/
def Active (history : List Event) (tenantId : Nat) (moduleName : String) : Prop :=
  history.find? (switches tenantId moduleName) = some (.enabled tenantId moduleName)

instance (history : List Event) (tenantId : Nat) (moduleName : String) :
    Decidable (Active history tenantId moduleName) :=
  inferInstanceAs (Decidable (_ = _))

/-- Every start of a module's code, in a task or in a handler, happened while the
module was enabled for the tenant. -/
def OnlyWhileEnabled : List Event → Prop
  | [] => True
  | .started task :: earlier =>
      Active earlier task.tenantId task.moduleName ∧ OnlyWhileEnabled earlier
  | .handled tenantId moduleName _ :: earlier =>
      Active earlier tenantId moduleName ∧ OnlyWhileEnabled earlier
  | .enabled _ _ :: earlier => OnlyWhileEnabled earlier
  | .disabled _ _ :: earlier => OnlyWhileEnabled earlier

instance decidableOnlyWhileEnabled : ∀ history, Decidable (OnlyWhileEnabled history)
  | [] => inferInstanceAs (Decidable True)
  | .started task :: earlier =>
      have := decidableOnlyWhileEnabled earlier
      inferInstanceAs (Decidable (Active earlier task.tenantId task.moduleName ∧ _))
  | .handled tenantId moduleName _ :: earlier =>
      have := decidableOnlyWhileEnabled earlier
      inferInstanceAs (Decidable (Active earlier tenantId moduleName ∧ _))
  | .enabled _ _ :: earlier => decidableOnlyWhileEnabled earlier
  | .disabled _ _ :: earlier => decidableOnlyWhileEnabled earlier

/-! ### Moments -/

/-- The events since a moment, which is the number of events before it. -/
def since (history : List Event) (moment : Nat) : List Event :=
  history.take (history.length - moment)

/-- No deactivation of the module for the tenant since the moment. -/
def undisturbed (history : List Event) (moment tenantId : Nat) (moduleName : String) : Bool :=
  !(since history moment).contains (.disabled tenantId moduleName)

/-- The module was enabled for the tenant at the moment. -/
structure ActiveAt (history : List Event) (moment tenantId : Nat) (moduleName : String) :
    Prop where
  past : moment ≤ history.length
  active : Active (history.drop (history.length - moment)) tenantId moduleName

/-- The state, with the moments of the last publication of each unit task and of
the readings behind the cached states. -/
structure Noted where
  world : World
  publishedAt : UnitTask → Nat := fun _ => 0
  cachedAt : Nat × Nat × String → Nat := fun _ => 0

/-- An execution with the modules it has found enabled and for which tenants, the
moment at which the database said so, and the moment of its delivery. -/
structure Reader where
  execution : Execution := {}
  enabled : List (Nat × String) := []
  readAt : Nat := 0
  deliveredAt : Nat := 0

def Noted.now (s : Noted) : Nat := s.world.history.length

def Noted.noted (s : Noted) (x : Reader) (world : World) : Request → Noted
  | .enqueueUnit task =>
      { s with world := world, publishedAt := Function.update s.publishedAt task s.now }
  | .cacheState process tenantId moduleName _ _ =>
      { s with
        world := world
        cachedAt := Function.update s.cachedAt (process, tenantId, moduleName) x.readAt }
  | _ => { s with world := world }

def Reader.noted (x : Reader) (s : Noted) (execution : Execution) :
    (r : Request) → scheduler.Answer r → Reader
  | .enabledTenantIds moduleName, (tenantIds : List Nat) =>
      { x with
        execution := execution
        enabled := tenantIds.map fun tenantId => (tenantId, moduleName)
        readAt := s.now }
  | .cachedState process tenantId moduleName, (cached : Option Bool × Instant) =>
      { x with
        execution := execution
        enabled := if cached.1 = some true then [(tenantId, moduleName)] else []
        readAt := s.cachedAt (process, tenantId, moduleName) }
  | .selectModule tenantId moduleName, (row : Option Bool) =>
      { x with
        execution := execution
        enabled := if row = some true then [(tenantId, moduleName)] else []
        readAt := s.now }
  | .receiveUnit _, _ => { x with execution := execution, deliveredAt := s.now }
  | .receiveEvent _ _, _ => { x with execution := execution, deliveredAt := s.now }
  | _, _ => { x with execution := execution }

/-- The requests as they are served; the moments are only noted. -/
def serveNoted (registry : List ModuleManifest) : Serve scheduler Noted Reader Choice :=
  fun s x r c =>
    let out := serve registry s.world x.execution r c
    (s.noted x out.1 r, x.noted s out.2.1 r out.2.2, out.2.2)

/-- The operations about to start, with nothing to note yet. -/
def startNoted (registry : List ModuleManifest) (tenants : List Tenant)
    (operations : List Operation) : Pool scheduler Raised Noted Reader Unit where
  shared := { world := { tenants := tenants } }
  threads := operations.map fun operation => ({}, launch registry operation)

/-- No deactivation comes between the reading of a flag and the publication that
goes back to it, between the publication of a unit task and a delivery, or
between the delivery of a task or of an event and the start of the code it runs;
and the events of a capability that come for a tenant come while the modules
that handle them are enabled for it. -/
def keepsClear (registry : List ModuleManifest) (s : Noted) (xs : List Reader) (i : Nat) :
    Request → Bool
  | .enqueueUnit task => xs[i]?.all fun x =>
      undisturbed s.world.history x.readAt task.tenantId task.moduleName
  | .receiveUnit task => decide (task ∈ s.world.queue →
      undisturbed s.world.history (s.publishedAt task) task.tenantId task.moduleName = true)
  | .startFunction task => xs[i]?.all fun x =>
      undisturbed s.world.history x.deliveredAt task.tenantId task.moduleName
  | .receiveEvent slug capability =>
      decide (∀ tenant ∈ s.world.tenants, tenant.slug = slug → tenant.active = true →
        ∀ moduleName ∈ eventHandlers registry capability,
          Active s.world.history tenant.id moduleName)
  | .runHandler tenantId moduleName _ => xs[i]?.all fun x =>
      undisturbed s.world.history x.deliveredAt tenantId moduleName
  | _ => true

variable {registry : List ModuleManifest} {w : World} {s s' : Noted} {xs : List Reader} {i : Nat}
variable {x x' : Reader} {history : List Event}

theorem active_enabled_self (history : List Event) (t : Nat) (m : String) :
    Active (.enabled t m :: history) t m := by
  simp [Active, switches]

theorem active_cons {event : Event} {t : Nat} {m : String}
    (hno : switches t m event = false) : Active (event :: history) t m ↔ Active history t m := by
  simp [Active, hno]

theorem active_append {t : Nat} {m : String} {recent : List Event}
    (hno : .disabled t m ∉ recent) (h : Active history t m) : Active (recent ++ history) t m := by
  induction recent with
  | nil => exact h
  | cons event recent ih =>
      have hrest : Active (recent ++ history) t m :=
        ih fun hmem => hno (List.mem_cons_of_mem _ hmem)
      cases hswitch : switches t m event with
      | false => exact (active_cons hswitch).mpr hrest
      | true =>
          cases event with
          | enabled t' m' =>
              obtain ⟨rfl, rfl⟩ : t' = t ∧ m' = m := by simpa [switches] using hswitch
              exact active_enabled_self _ _ _
          | disabled t' m' =>
              obtain ⟨rfl, rfl⟩ : t' = t ∧ m' = m := by simpa [switches] using hswitch
              exact absurd List.mem_cons_self hno
          | started | handled => cases hswitch

theorem ActiveAt.now {t : Nat} {m : String} (h : Active history t m) :
    ActiveAt history history.length t m :=
  ⟨Nat.le_refl _, by simpa using h⟩

theorem ActiveAt.cons {moment t : Nat} {m : String} (h : ActiveAt history moment t m)
    (event : Event) : ActiveAt (event :: history) moment t m := by
  refine ⟨Nat.le_succ_of_le h.past, ?_⟩
  rw [List.length_cons, Nat.succ_sub h.past]
  exact h.active

theorem ActiveAt.undisturbed {moment t : Nat} {m : String} (h : ActiveAt history moment t m)
    (hno : undisturbed history moment t m = true) : Active history t m := by
  have hnone : .disabled t m ∉ since history moment := by
    simpa [DisabledModules.undisturbed] using hno
  rw [← List.take_append_drop (history.length - moment) history]
  exact active_append hnone h.active

/-- Keys are unique, an enabled flag was set by the last switch, and a publication, a cached state,
a reading and a delivery each go back to a moment at which the module was
enabled. -/
structure Guarded (s : Noted) (xs : List Reader) : Prop where
  keys : (s.world.modules.map TenantModule.key).Nodup
  orderly : OnlyWhileEnabled s.world.history
  active : ∀ t m, s.world.isEnabled t m = true → Active s.world.history t m
  queued : ∀ task ∈ s.world.queue,
    ActiveAt s.world.history (s.publishedAt task) task.tenantId task.moduleName
  cached : ∀ entry ∈ s.world.cache, entry.2.1 = true →
    ActiveAt s.world.history (s.cachedAt entry.1) entry.1.2.1 entry.1.2.2
  read : ∀ x ∈ xs, ∀ p ∈ x.enabled, ActiveAt s.world.history x.readAt p.1 p.2
  bound : ∀ x ∈ xs, ∀ p ∈ x.execution.pending,
    ActiveAt s.world.history x.deliveredAt p.1 p.2

theorem Guarded.move (h : Guarded s xs)
    (hpast : ∀ {moment t m}, ActiveAt s.world.history moment t m →
      ActiveAt s'.world.history moment t m)
    (hkeys : (s'.world.modules.map TenantModule.key).Nodup)
    (horderly : OnlyWhileEnabled s'.world.history)
    (hactive : ∀ t m, s'.world.isEnabled t m = true → Active s'.world.history t m)
    (hqueued : ∀ task ∈ s'.world.queue,
      ActiveAt s.world.history (s'.publishedAt task) task.tenantId task.moduleName)
    (hcached : ∀ entry ∈ s'.world.cache, entry.2.1 = true →
      ActiveAt s.world.history (s'.cachedAt entry.1) entry.1.2.1 entry.1.2.2)
    (hread : ∀ p ∈ x'.enabled, ActiveAt s.world.history x'.readAt p.1 p.2)
    (hbound : ∀ p ∈ x'.execution.pending, ActiveAt s.world.history x'.deliveredAt p.1 p.2) :
    Guarded s' (xs.set i x') := by
  refine ⟨hkeys, horderly, hactive, fun task htask => hpast (hqueued task htask),
    fun entry hentry hflag => hpast (hcached entry hentry hflag), ?_, ?_⟩
  · intro y hy p hp
    rcases List.mem_or_eq_of_mem_set hy with hold | rfl
    · exact hpast (h.read y hold p hp)
    · exact hpast (hread p hp)
  · intro y hy p hp
    rcases List.mem_or_eq_of_mem_set hy with hold | rfl
    · exact hpast (h.bound y hold p hp)
    · exact hpast (hbound p hp)

theorem Guarded.frame (h : Guarded s xs) (hi : xs[i]? = some x) {w : World}
    (hmodules : w.modules = s.world.modules) (hhistory : w.history = s.world.history)
    (hqueue : w.queue = s.world.queue) (hcache : ∀ entry ∈ w.cache, entry ∈ s.world.cache)
    {execution : Execution} (hpending : ∀ p ∈ execution.pending, p ∈ x.execution.pending) :
    Guarded { s with world := w } (xs.set i { x with execution := execution }) := by
  have hmem := List.mem_of_getElem? hi
  refine h.move (fun hat => hhistory ▸ hat) (hmodules ▸ h.keys) (hhistory ▸ h.orderly) ?_ ?_ ?_
    (h.read x hmem) ?_
  · intro t m hflag
    rw [hhistory]
    exact h.active t m (by rwa [World.isEnabled, hmodules] at hflag)
  · exact fun task htask => h.queued task (hqueue ▸ htask)
  · exact fun entry hentry => h.cached entry (hcache entry hentry)
  · exact fun p hp => h.bound x hmem p (hpending p hp)

theorem Guarded.ran (h : Guarded s xs) (hi : xs[i]? = some x) {event : Event}
    (horderly : OnlyWhileEnabled (event :: s.world.history))
    (hno : ∀ t m, switches t m event = false) {execution : Execution}
    (hpending : ∀ p ∈ execution.pending, p ∈ x.execution.pending) :
    Guarded { s with world := { s.world with history := event :: s.world.history } }
      (xs.set i { x with execution := execution }) := by
  have hmem := List.mem_of_getElem? hi
  refine h.move (fun hat => hat.cons event) h.keys horderly ?_ h.queued h.cached (h.read x hmem) ?_
  · exact fun t m hflag => (active_cons (hno t m)).mpr (h.active t m hflag)
  · exact fun p hp => h.bound x hmem p (hpending p hp)

theorem Guarded.commitEnable (h : Guarded s xs) (hi : xs[i]? = some x) (t : Nat) (m : String)
    (row : Option Bool) (commit : CommitEnd) :
    Guarded { s with world := (s.world.commitEnable t m row commit).1 } (xs.set i x) := by
  have hmem := List.mem_of_getElem? hi
  unfold World.commitEnable
  simp only
  split
  · exact h.frame hi rfl rfl rfl (fun _ hentry => hentry) fun _ hp => hp
  · have hwritten : (if row = some true then s.world else s.world.putModule t m true).queue =
        s.world.queue ∧ (if row = some true then s.world else s.world.putModule t m true).cache =
        s.world.cache ∧ (if row = some true then s.world else s.world.putModule t m true).history =
        s.world.history := by
      split
      · exact ⟨rfl, rfl, rfl⟩
      · exact ⟨rfl, rfl, rfl⟩
    refine h.move (fun hat => hat.cons _) ?_ h.orderly ?_ ?_ ?_ (h.read x hmem) (h.bound x hmem)
    · show ((if row = some true then s.world else s.world.putModule t m true).modules.map
        TenantModule.key).Nodup
      split
      · exact h.keys
      · exact nodup_upsert _ h.keys
    · intro t' m' hflag
      by_cases hkey : (t, m) = (t', m')
      · obtain ⟨rfl, rfl⟩ := Prod.mk.inj hkey
        exact active_enabled_self _ t m
      · refine (active_cons (by simpa [switches] using hkey)).mpr (h.active t' m' ?_)
        have hflag : (if row = some true then s.world else s.world.putModule t m true).isEnabled
            t' m' = true := hflag
        split at hflag
        · exact hflag
        · rwa [isEnabled_putModule, if_neg hkey] at hflag
    · intro task htask
      exact h.queued task (hwritten.1 ▸ htask)
    · intro entry hentry
      exact h.cached entry (hwritten.2.1 ▸ hentry)

theorem Guarded.commitDisable (h : Guarded s xs) (hi : xs[i]? = some x) (t : Nat) (m : String)
    (commit : CommitEnd) :
    Guarded { s with world := (s.world.commitDisable t m commit).1 } (xs.set i x) := by
  have hmem := List.mem_of_getElem? hi
  unfold World.commitDisable
  split
  · refine h.move (fun hat => hat.cons _) (nodup_upsert _ h.keys) h.orderly ?_ h.queued h.cached
      (h.read x hmem) (h.bound x hmem)
    intro t' m' hflag
    have hflag : (s.world.putModule t m false).isEnabled t' m' = true := hflag
    rw [isEnabled_putModule] at hflag
    split at hflag
    · cases hflag
    · rename_i hkey
      exact (active_cons (by simpa [switches] using hkey)).mpr (h.active t' m' hflag)
  · exact h.frame hi rfl rfl rfl (fun _ hentry => hentry) fun _ hp => hp

/-- An execution publishes a unit task, or stores a state, only for a module that
it has found enabled. -/
def reads (x : Reader) : Request → Prop
  | .enqueueUnit task => (task.tenantId, task.moduleName) ∈ x.enabled
  | .cacheState _ tenantId moduleName enabled _ =>
      enabled = true → (tenantId, moduleName) ∈ x.enabled
  | _ => True

/-- The request leaves the state guarded. -/
abbrev Keeps (registry : List ModuleManifest) (s : Noted) (xs : List Reader) (i : Nat) (x : Reader)
    (c : Choice) (r : Request) : Prop :=
  Guarded (serveNoted registry s x r c).1 (xs.set i (serveNoted registry s x r c).2.1)

theorem Guarded.learned (h : Guarded s xs)
    (hread : ∀ p ∈ x'.enabled, ActiveAt s.world.history x'.readAt p.1 p.2)
    (hbound : ∀ p ∈ x'.execution.pending, ActiveAt s.world.history x'.deliveredAt p.1 p.2) :
    Guarded s (xs.set i x') :=
  h.move id h.keys h.orderly h.active h.queued h.cached hread hbound

section Requests

variable {c : Choice}

theorem keeps_startFunction (h : Guarded s xs) (hi : xs[i]? = some x) (task : UnitTask)
    (hallowed : allowed x.execution (.startFunction task))
    (hclear : keepsClear registry s xs i (.startFunction task) = true) :
    Keeps registry s xs i x c (.startFunction task) := by
  have hmem := List.mem_of_getElem? hi
  have hactive := (h.bound x hmem _ hallowed.1).undisturbed
    (by simpa [keepsClear, hi] using hclear)
  have horderly : OnlyWhileEnabled (.started task :: s.world.history) :=
    ⟨hactive, h.orderly⟩
  exact h.ran hi horderly (fun _ _ => rfl) (by simp [serve])

theorem keeps_runHandler (h : Guarded s xs) (hi : xs[i]? = some x) (t : Nat) (m capability : String)
    (hallowed : allowed x.execution (.runHandler t m capability))
    (hclear : keepsClear registry s xs i (.runHandler t m capability) = true) :
    Keeps registry s xs i x c (.runHandler t m capability) := by
  have hmem := List.mem_of_getElem? hi
  have hactive := (h.bound x hmem _ hallowed).undisturbed
    (by simpa [keepsClear, hi] using hclear)
  have horderly : OnlyWhileEnabled (.handled t m capability :: s.world.history) :=
    ⟨hactive, h.orderly⟩
  refine h.ran hi horderly (fun _ _ => rfl) fun p hp => ?_
  have hp : p ∈ if c.handlerRaises then [] else x.execution.pending.tail := hp
  split at hp
  · cases hp
  · exact List.mem_of_mem_tail hp

theorem keeps_enabledTenantIds (h : Guarded s xs) (hi : xs[i]? = some x) (moduleName : String) :
    Keeps registry s xs i x c (.enabledTenantIds moduleName) := by
  have hmem := List.mem_of_getElem? hi
  refine h.learned ?_ (h.bound x hmem)
  rintro ⟨t, m⟩ hp
  have hp : (t, m) ∈ ((s.world.modules.filter fun row => row.moduleName == moduleName &&
    row.enabled).map (·.tenantId)).map fun tenantId => (tenantId, moduleName) := hp
  simp only [List.map_map, List.mem_map, List.mem_filter, Bool.and_eq_true, beq_iff_eq,
    Function.comp_apply, Prod.mk.injEq] at hp
  obtain ⟨row, ⟨hrow, rfl, henabled⟩, rfl, rfl⟩ := hp
  have hlookup : lookup TenantModule.key (row.tenantId, row.moduleName) s.world.modules =
      some row := (lookup_eq_some_iff h.keys).mpr ⟨hrow, rfl⟩
  refine ActiveAt.now (h.active row.tenantId row.moduleName ?_)
  rw [World.isEnabled, hlookup]
  exact henabled

theorem keeps_cachedState (h : Guarded s xs) (hi : xs[i]? = some x) (process tenantId : Nat)
    (moduleName : String) :
    Keeps registry s xs i x c (.cachedState process tenantId moduleName) := by
  have hmem := List.mem_of_getElem? hi
  refine h.learned ?_ (h.bound x hmem)
  rintro ⟨t, m⟩ hp
  have hp : (t, m) ∈ if ((s.world.cache.find? fun entry =>
      entry.1 == (process, tenantId, moduleName) && decide (s.world.clock < entry.2.2)).map
        fun entry => entry.2.1) = some true then [(tenantId, moduleName)] else [] := hp
  split at hp
  · rename_i hcached
    obtain ⟨rfl, rfl⟩ : t = tenantId ∧ m = moduleName := by simpa using hp
    obtain ⟨entry, hfound, hflag⟩ := Option.map_eq_some_iff.mp hcached
    have hkey : entry.1 = (process, t, m) := by
      have hsome := List.find?_some hfound
      simp only [Bool.and_eq_true, beq_iff_eq] at hsome
      exact hsome.1
    have hat := h.cached entry (List.mem_of_find?_eq_some hfound) hflag
    rwa [hkey] at hat
  · cases hp

theorem keeps_selectModule (h : Guarded s xs) (hi : xs[i]? = some x) (tenantId : Nat)
    (moduleName : String) :
    Keeps registry s xs i x c (.selectModule tenantId moduleName) := by
  have hmem := List.mem_of_getElem? hi
  refine h.learned ?_ (h.bound x hmem)
  rintro ⟨t, m⟩ hp
  have hp : (t, m) ∈ if (lookup TenantModule.key (tenantId, moduleName) s.world.modules).map
    (·.enabled) = some true then [(tenantId, moduleName)] else [] := hp
  split at hp
  · rename_i hrow
    obtain ⟨rfl, rfl⟩ : t = tenantId ∧ m = moduleName := by simpa using hp
    refine ActiveAt.now (h.active _ _ ?_)
    rw [World.isEnabled, ← map_enabled_beq, hrow]
    rfl
  · cases hp

theorem keeps_cacheState (h : Guarded s xs) (hi : xs[i]? = some x) (process tenantId : Nat)
    (moduleName : String) (enabled : Bool)
    (readAt : Instant) (hreads : reads x (.cacheState process tenantId moduleName enabled readAt)) :
    Keeps registry s xs i x c (.cacheState process tenantId moduleName enabled readAt) := by
  have hmem := List.mem_of_getElem? hi
  refine h.move id h.keys h.orderly h.active h.queued ?_ (h.read x hmem) (h.bound x hmem)
  rintro entry hentry hflag
  have hnoted : (serveNoted registry s x
      (.cacheState process tenantId moduleName enabled readAt) c).1.cachedAt =
        Function.update s.cachedAt (process, tenantId, moduleName) x.readAt := rfl
  rw [hnoted]
  rcases List.mem_cons.mp hentry with rfl | hold
  · rw [Function.update_self]
    exact h.read x hmem _ (hreads hflag)
  · obtain ⟨hmem, hkey⟩ := List.mem_filter.mp hold
    rw [Function.update_of_ne (by simpa using hkey)]
    exact h.cached entry hmem hflag

theorem keeps_enqueueUnit (h : Guarded s xs) (hi : xs[i]? = some x) (task : UnitTask)
    (hreads : reads x (.enqueueUnit task))
    (hclear : keepsClear registry s xs i (.enqueueUnit task) = true) :
    Keeps registry s xs i x c (.enqueueUnit task) := by
  have hmem := List.mem_of_getElem? hi
  have hactive := (h.read x hmem _ hreads).undisturbed
    (by simpa [keepsClear, hi] using hclear)
  refine h.move id h.keys h.orderly h.active ?_ h.cached (h.read x hmem) (h.bound x hmem)
  intro task' htask
  have hnoted : (serveNoted registry s x (.enqueueUnit task) c).1.publishedAt =
    Function.update s.publishedAt task s.now := rfl
  rw [hnoted]
  by_cases hsame : task' = task
  · rw [hsame, Function.update_self]
    exact ActiveAt.now hactive
  · rw [Function.update_of_ne hsame]
    rcases List.mem_cons.mp htask with heq | hold
    · exact absurd heq hsame
    · exact h.queued task' hold

theorem keeps_receiveUnit (h : Guarded s xs) (hi : xs[i]? = some x) (task : UnitTask)
    (hallowed : allowed x.execution (.receiveUnit task))
    (hclear : keepsClear registry s xs i (.receiveUnit task) = true) :
    Keeps registry s xs i x c (.receiveUnit task) := by
  have hmem := List.mem_of_getElem? hi
  by_cases hqueued : task ∈ s.world.queue
  · have hactive := (h.queued task hqueued).undisturbed (of_decide_eq_true hclear hqueued)
    simp only [Keeps, serveNoted, serve, hqueued, if_true]
    refine h.learned (h.read x hmem) ?_
    rintro ⟨t, m⟩ hp
    have hp : (t, m) ∈ if findTask registry task.moduleName task.taskName then
        [(task.tenantId, task.moduleName)] else [] := hp
    split at hp
    · obtain ⟨rfl, rfl⟩ : t = task.tenantId ∧ m = task.moduleName := by simpa using hp
      exact ActiveAt.now hactive
    · cases hp
  · simp only [Keeps, serveNoted, serve, hqueued, if_false]
    refine h.learned (h.read x hmem) ?_
    have hidle : x.execution.pending = [] := congrArg Execution.pending hallowed
    simp [Reader.noted, hidle]

theorem keeps_receiveEvent (h : Guarded s xs) (hi : xs[i]? = some x) (slug capability : String)
    (hallowed : allowed x.execution (.receiveEvent slug capability))
    (hclear : keepsClear registry s xs i (.receiveEvent slug capability) = true) :
    Keeps registry s xs i x c (.receiveEvent slug capability) := by
  have hmem := List.mem_of_getElem? hi
  have hidle : x.execution.pending = [] := congrArg Execution.pending hallowed
  cases hfound : s.world.tenants.find? fun tenant =>
      tenant.slug == slug && tenant.active with
  | none =>
      simp only [Keeps, serveNoted, serve, hfound]
      refine h.learned (h.read x hmem) ?_
      simp [Reader.noted, hidle]
  | some tenant =>
      simp only [Keeps, serveNoted, serve, hfound]
      refine h.learned (h.read x hmem) ?_
      rintro ⟨t, m⟩ hp
      have htenant : tenant.slug = slug ∧ tenant.active = true := by
        simpa using List.find?_some hfound
      obtain ⟨moduleName, hmodule, heq⟩ := List.mem_map.mp hp
      obtain ⟨rfl, rfl⟩ := Prod.mk.inj heq
      have hactive := of_decide_eq_true hclear tenant (List.mem_of_find?_eq_some hfound)
        htenant.1 htenant.2
      exact ActiveAt.now (hactive _ hmodule)

theorem keeps_activeTenant (h : Guarded s xs) (hi : xs[i]? = some x) (tenantId : Nat) :
    Keeps registry s xs i x c (.activeTenant tenantId) := by
  refine h.frame hi rfl rfl rfl (fun _ hentry => hentry) fun p hp => ?_
  have hp : p ∈ (if (s.world.tenants.any fun tenant => tenant.id == tenantId && tenant.active)
    then x.execution else { x.execution with pending := [] }).pending := hp
  split at hp
  · exact hp
  · cases hp

theorem keeps_acquireLock (h : Guarded s xs) (hi : xs[i]? = some x) (name : LockName) :
    Keeps registry s xs i x c (.acquireLock name) := by
  have hmem := List.mem_of_getElem? hi
  cases hlive : s.world.liveLock? name with
  | some lock =>
      simp only [Keeps, serveNoted, serve, hlive]
      exact h.frame hi rfl rfl rfl (fun _ hentry => hentry) (by simp)
  | none =>
      simp only [Keeps, serveNoted, serve, hlive]
      exact h.move id h.keys h.orderly h.active h.queued h.cached (h.read x hmem) (h.bound x hmem)

theorem keeps_recordEvent (h : Guarded s xs) (hi : xs[i]? = some x) (tenantId : Nat) :
    Keeps registry s xs i x c (.recordEvent tenantId) := by
  refine h.frame hi rfl rfl rfl (fun _ hentry => hentry) fun p hp => ?_
  have hp : p ∈ (if c.connectionFound then x.execution
    else { x.execution with pending := [] }).pending := hp
  split at hp
  · exact hp
  · cases hp

theorem keeps_recordAudit (h : Guarded s xs) (hi : xs[i]? = some x) (event : AuditEvent) :
    Keeps registry s xs i x c (.recordAudit event) := by
  have hmem := List.mem_of_getElem? hi
  have hframe : (serve registry s.world x.execution (.recordAudit event) c).1 =
      if c.commit.applied then { s.world with audit := s.world.audit ++ [event] }
      else s.world := rfl
  simp only [Keeps, serveNoted, hframe]
  split
  · exact h.move id h.keys h.orderly h.active h.queued h.cached (h.read x hmem) (h.bound x hmem)
  · exact h.move id h.keys h.orderly h.active h.queued h.cached (h.read x hmem) (h.bound x hmem)

end Requests

theorem guarded_step (r : Request) (c : Choice) (h : Guarded s xs) (hi : xs[i]? = some x)
    (hallowed : allowed x.execution r) (hreads : reads x r)
    (hclear : keepsClear registry s xs i r = true) :
    Guarded (serveNoted registry s x r c).1 (xs.set i (serveNoted registry s x r c).2.1) := by
  have hmem := List.mem_of_getElem? hi
  cases r with
  | commitEnable t m row => exact h.commitEnable hi t m row c.commit
  | commitDisable t m => exact h.commitDisable hi t m c.commit
  | startFunction task => exact keeps_startFunction h hi task hallowed hclear
  | runHandler t m capability => exact keeps_runHandler h hi t m capability hallowed hclear
  | enabledTenantIds moduleName => exact keeps_enabledTenantIds h hi moduleName
  | cachedState process tenantId moduleName =>
      exact keeps_cachedState h hi process tenantId moduleName
  | selectModule tenantId moduleName => exact keeps_selectModule h hi tenantId moduleName
  | cacheState process tenantId moduleName enabled readAt =>
      exact keeps_cacheState h hi process tenantId moduleName enabled readAt hreads
  | enqueueUnit task => exact keeps_enqueueUnit h hi task hreads hclear
  | receiveUnit task => exact keeps_receiveUnit h hi task hallowed hclear
  | receiveEvent slug capability => exact keeps_receiveEvent h hi slug capability hallowed hclear
  | invalidate process tenantId moduleName =>
      refine h.move id h.keys h.orderly h.active h.queued ?_ (h.read x hmem) (h.bound x hmem)
      exact fun entry hentry => h.cached entry (List.mem_filter.mp hentry).1
  | activeTenant tenantId => exact keeps_activeTenant h hi tenantId
  | acquireLock name => exact keeps_acquireLock h hi name
  | recordEvent tenantId => exact keeps_recordEvent h hi tenantId
  | recordAudit event => exact keeps_recordAudit h hi event
  | _ => exact h.move id h.keys h.orderly h.active h.queued h.cached (h.read x hmem) (h.bound x hmem)

theorem served_noted (s : Noted) (x : Reader) (r : Request) (c : Choice) :
    serve registry s.world x.execution r c =
      ((serveNoted registry s x r c).1.world, (serveNoted registry s x r c).2.1.execution,
        (serveNoted registry s x r c).2.2) := by
  cases r <;> rfl

/-- The requests that neither publish a unit task nor store a state. -/
def keepsToItself : Request → Bool
  | .enqueueUnit _ => false
  | .cacheState _ _ _ _ _ => false
  | _ => true

theorem follows_of_keepsToItself {α : Type} {p : Act α}
    (hp : Makes (fun r => keepsToItself r = true) p) (x : Reader) :
    Follows (serveNoted registry) reads (fun _ _ => True) x p := by
  refine Makes.follows_of (P := fun _ => True) ?_ hp trivial
  intro x r hr _
  cases r <;> first | exact ⟨trivial, fun _ _ => trivial⟩ | cases hr

theorem keepsToItself_of_activates {process tenantId : Nat} {moduleName : String} {r : Request}
    (hr : activates process tenantId moduleName r = true) : keepsToItself r = true := by
  cases r <;> first | rfl | cases hr

theorem makes_releaseLock (name : LockName) (token : Nat) :
    Makes (fun r => keepsToItself r = true) (releaseLock name token) := by
  refine ⟨rfl, fun (current : Option Nat) => ?_⟩
  show Makes _ (if current = some token then ask (.deleteLock name) else .ret ())
  split
  · exact ⟨rfl, fun _ => trivial⟩
  · trivial

theorem makes_periodicUnitTask (task : UnitTask) :
    Makes (fun r => keepsToItself r = true) (periodicUnitTask registry task) := by
  have hunit : Makes (fun r => keepsToItself r = true) (runPeriodicUnit registry task) := by
    unfold runPeriodicUnit
    split
    · trivial
    · refine ⟨rfl, fun active => ?_⟩
      cases active with
      | false => trivial
      | true =>
          refine ⟨rfl, fun acquired => ?_⟩
          cases acquired with
          | none => trivial
          | some token =>
              refine ⟨rfl, fun _ => ⟨rfl, fun ending => ?_⟩⟩
              cases ending with
              | killed => trivial
              | returned => exact (makes_releaseLock _ _).bind fun _ => trivial
              | failed => exact (makes_releaseLock _ _).bind fun _ => trivial
              | interrupted => exact (makes_releaseLock _ _).bind fun _ => trivial
  refine ⟨rfl, fun delivered => ?_⟩
  cases delivered with
  | false => trivial
  | true => exact hunit.bind fun _ => trivial

theorem makes_processConnectorEvent (slug capability : String) :
    Makes (fun r => keepsToItself r = true) (processConnectorEvent registry slug capability) := by
  have hhandlers (tenantId : Nat) (names : List String) :
      Makes (fun r => keepsToItself r = true) (runHandlers tenantId capability names) := by
    induction names with
    | nil => trivial
    | cons moduleName rest ih =>
        refine ⟨rfl, fun handled => ?_⟩
        cases handled with
        | false => trivial
        | true => exact ih
  refine ⟨rfl, fun tenant => ?_⟩
  cases tenant with
  | none => trivial
  | some tenantId =>
      refine ⟨rfl, fun found => ?_⟩
      cases found with
      | false => trivial
      | true => exact hhandlers tenantId _

theorem follows_runPeriodicFanout (moduleName taskName : String) (x : Reader) :
    Follows (serveNoted registry) reads (fun _ _ => True) x
      (runPeriodicFanout registry moduleName taskName) := by
  unfold runPeriodicFanout
  split
  · refine ⟨trivial, fun s c => ?_⟩
    suffices hall : ∀ (ids : List Nat) (x : Reader), (∀ t ∈ ids, (t, moduleName) ∈ x.enabled) →
        Follows (serveNoted registry) reads (fun _ _ => True) x
          (enqueueAll moduleName taskName ids) from
      hall _ _ fun t ht => List.mem_map_of_mem ht
    intro ids
    induction ids with
    | nil => exact fun _ _ => trivial
    | cons t rest ih =>
        intro x hids
        refine ⟨hids t List.mem_cons_self, fun s c => ?_⟩
        exact ih _ fun t' ht' => hids t' (List.mem_cons_of_mem _ ht')
  · trivial

theorem follows_runNow (process tenantId : Nat) (x : Reader) :
    Follows (serveNoted registry) reads (fun _ _ => True) x (runNow process tenantId) := by
  have henqueue (enabled : Bool) (x : Reader)
      (hx : enabled = true → (tenantId, "sample_digest") ∈ x.enabled) :
      Follows (serveNoted registry) reads (fun _ _ => True) x
        (if !enabled then throw (.http 403)
          else ask (.enqueueUnit ⟨"sample_digest", "sample_digest.daily_digest", tenantId⟩)) := by
    cases enabled with
    | false => trivial
    | true => exact ⟨hx rfl, fun _ _ => trivial⟩
  refine ⟨trivial, fun s c => ?_⟩
  obtain ⟨⟨cached, readAt⟩, hanswer⟩ : ∃ answer : Option Bool × Instant, (serveNoted registry s x
      (.cachedState process tenantId "sample_digest") c).2.2 = answer := ⟨_, rfl⟩
  have hx : (serveNoted registry s x (.cachedState process tenantId "sample_digest") c).2.1 =
      x.noted s x.execution (.cachedState process tenantId "sample_digest")
        (serveNoted registry s x (.cachedState process tenantId "sample_digest") c).2.2 := rfl
  rw [hx, hanswer]
  cases cached with
  | some enabled =>
      refine henqueue enabled _ fun henabled => ?_
      simp [Reader.noted, henabled]
  | none =>
      refine ⟨trivial, fun s' c' => ?_⟩
      have hfound (henabled : ((lookup TenantModule.key (tenantId, "sample_digest")
          s'.world.modules).map (·.enabled) == some true) = true) :
          (tenantId, "sample_digest") ∈
            (if (lookup TenantModule.key (tenantId, "sample_digest") s'.world.modules).map
              (·.enabled) = some true then [(tenantId, "sample_digest")] else []) := by
        simp [beq_iff_eq.mp henabled]
      exact ⟨hfound, fun s'' c'' => henqueue _ _ hfound⟩

theorem follows_reads (operation : Operation) :
    Follows (serveNoted registry) reads (fun _ _ => True) {} (launch registry operation) := by
  cases operation with
  | passTime steps =>
      refine follows_of_keepsToItself ?_ _
      induction steps with
      | nil => trivial
      | cons elapsed rest ih => exact ⟨rfl, fun _ => ih⟩
  | putTenant tenant => exact ⟨trivial, fun _ _ => trivial⟩
  | enableModule process tenantId moduleName =>
      exact follows_of_keepsToItself ((makes_enableModule process tenantId moduleName).mono
        fun _ => keepsToItself_of_activates) _
  | disableModule process tenantId moduleName =>
      exact follows_of_keepsToItself ((makes_disableModule process tenantId moduleName).mono
        fun _ => keepsToItself_of_activates) _
  | runPeriodicFanout moduleName taskName => exact follows_runPeriodicFanout moduleName taskName _
  | runNow process tenantId => exact follows_runNow process tenantId _
  | periodicUnit task => exact follows_of_keepsToItself (makes_periodicUnitTask task) _
  | connectorEvent slug capability =>
      exact follows_of_keepsToItself (makes_processConnectorEvent slug capability) _

theorem disciplined_startNoted (tenants : List Tenant) (operations : List Operation) :
    Disciplined (serveNoted registry)
      (fun x r => allowed x.execution r ∧ reads x r)
      (startNoted registry tenants operations) := by
  intro thread hmem
  obtain ⟨operation, -, rfl⟩ := List.mem_map.mp hmem
  have hlaunch : Follows (serve registry) allowed (fun _ _ => True)
      (Reader.execution {}) (launch registry operation) := follows_launch operation
  have hnoted := Follows.noted served_noted hlaunch
  exact (hnoted.and (follows_reads operation)).mono fun _ _ _ => trivial

theorem forget_startNoted (tenants : List Tenant) (operations : List Operation) :
    (startNoted registry tenants operations).forget Noted.world Reader.execution =
      start registry tenants operations := by
  simp [startNoted, start, Pool.forget]

theorem history_runHandlers (tenantId : Nat) (capability : String) (names : List String)
    (w : World) (l : Execution) :
    (eval (serve registry) (runHandlers tenantId capability names) w l fun _ => {}).1.history =
      (names.map fun moduleName => .handled tenantId moduleName capability).reverse ++
        w.history := by
  induction names generalizing w l with
  | nil => rfl
  | cons moduleName rest ih =>
      rw [List.map_cons, List.reverse_cons, List.append_assoc, List.singleton_append]
      exact ih _ _

/-- The handlers of a capability are invoked whatever the flags of their modules
say, so that only the events that come can keep them from it. -/
theorem handled_whatever_enabled {slug capability : String} {w : World} {tenant : Tenant}
    (hfound : (w.tenants.find? fun t => t.slug == slug && t.active) = some tenant)
    {moduleName : String} (hhandles : moduleName ∈ eventHandlers registry capability) :
    .handled tenant.id moduleName capability ∈ (eval (serve registry)
      (processConnectorEvent registry slug capability) w {} fun _ => {}).1.history := by
  have hserved : serve registry w {} (.receiveEvent slug capability) {} =
      (w, { pending := (eventHandlers registry capability).map fun m => (tenant.id, m) },
        some tenant.id) := by
    simp only [serve, hfound]
  have hreceived (k : Option Nat → Act Unit) :
      eval (serve registry) (ask (.receiveEvent slug capability) >>= k) w {} (fun _ => {}) =
        eval (serve registry) (k (some tenant.id)) w
          { pending := (eventHandlers registry capability).map fun m => (tenant.id, m) }
          fun _ => {} := by
    show eval (serve registry) (k (serve registry w {} (.receiveEvent slug capability) {}).2.2)
      (serve registry w {} (.receiveEvent slug capability) {}).1
      (serve registry w {} (.receiveEvent slug capability) {}).2.1 _ = _
    rw [hserved]
  have hrun : (eval (serve registry) (processConnectorEvent registry slug capability) w {}
      fun _ => {}).1.history = ((eventHandlers registry capability).map fun moduleName =>
        .handled tenant.id moduleName capability).reverse ++ w.history := by
    unfold processConnectorEvent
    rw [hreceived]
    exact history_runHandlers _ _ _ _ _
  rw [hrun]
  simp [hhandles]

/-- In every run in which no deactivation comes between a reading of the flag and
the start that goes back to it, no code of a module starts for a tenant between a
committed `disable_module` and the next `enable_module`, nor before the first one. -/
theorem runs_only_while_enabled (registry : List ModuleManifest) (tenants : List Tenant)
    (operations : List Operation) (schedule : List (Nat × Choice)) (pool : State)
    (halong : Along (Pool.step (serveNoted registry))
      (StepMeets fun s xs i r => keepsClear registry s xs i r = true)
      (startNoted registry tenants operations) schedule)
    (hrun : run (Pool.step (serve registry)) (start registry tenants operations) schedule =
      some pool) :
    OnlyWhileEnabled pool.shared.history := by
  rw [← forget_startNoted, Pool.run_forget served_noted] at hrun
  obtain ⟨noted, hnoted, rfl⟩ := Option.map_eq_some_iff.mp hrun
  have hinit : Guarded (startNoted registry tenants operations).shared
      (startNoted registry tenants operations).locals := by
    have hlocals : ∀ x ∈ (startNoted registry tenants operations).locals, x = {} := by
      intro x hx
      obtain ⟨thread, hthread, rfl⟩ := List.mem_map.mp hx
      obtain ⟨operation, -, rfl⟩ := List.mem_map.mp hthread
      rfl
    refine ⟨List.nodup_nil, trivial, ?_, ?_, ?_, ?_, ?_⟩
    · intro t m hflag
      cases hflag
    · intro task htask
      cases htask
    · intro entry hentry
      cases hentry
    · intro x hx p hp
      rw [hlocals x hx] at hp
      cases hp
    · intro x hx p hp
      rw [hlocals x hx] at hp
      cases hp
  exact (pool_invariant (G := Guarded)
    (fun s xs i x r c hG hi hallowed hclear =>
      guarded_step r c hG hi hallowed.1 hallowed.2 hclear)
    (disciplined_startNoted tenants operations) hinit halong hnoted).orderly

/-- The digest is enabled, fanned out, disabled, and its unit task delivered. -/
def digestOperations : List Operation :=
  [.enableModule 0 1 "sample_digest",
    .runPeriodicFanout "sample_digest" "sample_digest.daily_digest",
    .disableModule 0 1 "sample_digest", .periodicUnit dailyDigest]

theorem runs_only_while_enabled_delivered_first :
    ∃ pool, run (Pool.step (serve modules))
        (start modules [⟨1, "acme", true⟩] digestOperations)
        (enableAndPublish ++ steps 3 7 ++ steps 2 4) = some pool ∧
      .started dailyDigest ∈ pool.shared.history ∧ OnlyWhileEnabled pool.shared.history := by
  have hany : (run (Pool.step (serve modules))
      (start modules [⟨1, "acme", true⟩] digestOperations)
      (enableAndPublish ++ steps 3 7 ++ steps 2 4)).any
        (fun pool => pool.shared.history.contains (.started dailyDigest)) = true := by
    decide +kernel
  obtain ⟨pool, hrun, hstarted⟩ := (Option.any_eq_true _ _).mp hany
  refine ⟨pool, hrun, by simpa using hstarted, ?_⟩
  exact runs_only_while_enabled modules [⟨1, "acme", true⟩] digestOperations _ pool
    (by decide +kernel) hrun

/-- The unit task was published while the module was enabled and is delivered
after it was disabled: its function starts. -/
theorem queued_unit_runs_after_disable :
    ∃ pool, run (Pool.step (serve modules))
        (start modules [⟨1, "acme", true⟩] digestOperations)
        (enableAndPublish ++ steps 2 4 ++ steps 3 4) = some pool ∧
      ¬ OnlyWhileEnabled pool.shared.history := by
  have hany : (run (Pool.step (serve modules))
      (start modules [⟨1, "acme", true⟩] digestOperations)
      (enableAndPublish ++ steps 2 4 ++ steps 3 4)).any
        (fun pool => !decide (OnlyWhileEnabled pool.shared.history)) = true := by
    decide +kernel
  obtain ⟨pool, hrun, hstarted⟩ := (Option.any_eq_true _ _).mp hany
  exact ⟨pool, hrun, by simpa using hstarted⟩

end Socle.DisabledModules
