import Socle.ConsentLoss
import Socle.SlotClaims

/-!
Subscription syncs, renewal beats and revocations whose requests interleave: how many
subscriptions a connection keeps for a capability.
-/

namespace Socle.SubscriptionRaces

open Socle.GuardedRuns
open Socle.KeyedTable (nodup_map_snoc)
open Socle.Procedures
open Socle.SlotClaims
open Socle.DirectoryStore (Instant Tenant User AuditEvent)
open Socle.TokenExchange
open Socle.ConnectorStore
open Socle.ConnectorService
open Socle.ConnectorTransactions
open Socle.ConsentLoss (added? writeObjects_eq subscription_of_applyAll)

/-! ### Tasks -/

inductive Job where
  | syncConnectionSubscriptions (slug : String) (connectionId : Nat)
  | renewExpiringSubscriptions
  | connectorRevoke (tenantId : Nat) (actor : User) (connectionId : Nat)

def Job.proc (settings : Settings) : Job → ConnectorProc Unit
  | .syncConnectionSubscriptions slug connectionId =>
      ConnectorService.syncConnectionSubscriptions settings slug connectionId
  | .renewExpiringSubscriptions => do
      let _ ← ConnectorService.renewExpiringSubscriptions settings
  | .connectorRevoke tenantId actor connectionId =>
      ConnectorService.connectorRevoke settings tenantId actor connectionId

def Job.revokes : Job → Option Nat
  | .connectorRevoke _ _ connectionId => some connectionId
  | _ => none

/-- One of the tasks revokes the connection. -/
def Revoked (jobs : List Job) (connectionId : Nat) : Prop :=
  ∃ job ∈ jobs, job.revokes = some connectionId

/-- A connection and a capability. -/
abbrev Pair := Nat × String

def pairOf (s : Subscription) : Pair := (s.connectionId, s.capability)

/-- The subscriptions a session has yet to insert. -/
def adds (l : Session) : List Subscription := l.pending.filterMap added?

def removed : Change → List Nat
  | .deleteSubscription subscriptionId => [subscriptionId]
  | .deleteSubscriptions subscriptionIds => subscriptionIds
  | _ => []

/-- The subscriptions a session has yet to delete. -/
def removes (l : Session) : List Nat := l.pending.flatMap removed

/-- What a task has gone through: the capabilities a sync did not find, less those it has
committed since; the lock of a renewal; the row for which the renewal has added another, until
its deletion is committed; and whether a commit of these failed. -/
structure Plan where
  missing : List Pair := []
  renewing : Option Nat := none
  replacing : Option Nat := none
  failed : Bool := false

structure Worker where
  session : Session := {}
  plan : Plan := {}

def Worker.hand (x : Worker) : Hand Nat Pair where
  missing := x.plan.missing
  adds := (adds x.session).map fun s => (s.id, pairOf s)
  removes := removes x.session
  replacing := x.plan.replacing

/-- No channel is created for the mail of a Google connection. -/
def creates (provider : ConnectorProvider) (capability : String) : Bool :=
  !(provider == .google && capability == capabilityMail)

/-- The subscriptions that `ensure_subscriptions` sets out to create. -/
def missingFor (l : Session) (connectionId : Nat) (existing : List Subscription) : List Pair :=
  match l.object? connectionId with
  | none => []
  | some o =>
      ((grantedCapabilities o.view).filter fun capability =>
        !(existing.map (·.capability)).contains capability &&
          creates o.view.provider capability).map fun capability => (connectionId, capability)

/-- The plan after a request and its answer. -/
def Worker.noted (x : Worker) : (r : Request) → Answer r → Plan
  | .selectSubscriptions connectionId => fun existing =>
      { x.plan with missing := missingFor x.session connectionId existing }
  | .acquireLock (.renew subscriptionId) => fun token =>
      if token.isSome then { x.plan with renewing := some subscriptionId } else x.plan
  | .lockHolder (.renew _) => fun _ => { x.plan with renewing := none }
  | .addSubscription .. => fun _ => { x.plan with replacing := x.plan.renewing }
  | .commit => fun outcome =>
      match outcome with
      | .ok () => { x.plan with
          missing := x.hand.committed.missing
          replacing := x.hand.committed.replacing }
      | .error _ => { x.plan with failed := x.plan.failed || x.plan.replacing.isSome }
  | _ => fun _ => x.plan

/-- The requests as they are served; the plan is only noted. -/
def serveNoted : Serve ConnectorInterface (World Unit) Worker Choice := fun w x r c =>
  let out := serve anyAnswer w x.session r c
  (out.1, ⟨out.2.1, x.noted r out.2.2⟩, out.2.2)

abbrev Workers := List (Worker × Bool)

def rowsOf (t : Tables) : List (Nat × Pair) := t.subscriptions.map fun s => (s.id, pairOf s)

def handsOf (workers : Workers) : Tasks Nat Pair := workers.map fun x => (x.1.hand, x.2)

/-! ### The condition -/

def selected? : Request → Option Nat
  | .selectSubscriptions connectionId => some connectionId
  | _ => none

def addition? : Request → Option Pair
  | .addSubscription connectionId capability .. => some (connectionId, capability)
  | _ => none

/-- The rows `ensure_subscriptions` reads. -/
def existing (w : World Unit) (l : Session) (connectionId : Nat) : List Subscription :=
  w.tables.subscriptions.filter fun s =>
    s.tenantId == l.tenantId && s.connectionId == connectionId

/-- A primary key that no row and no pending change has. -/
def NewKey (id : Nat) (w : World Unit) (workers : Workers) : Prop :=
  id ∉ (rowsOf w.tables).map Prod.fst ∧ ∀ x ∈ workers, id ∉ x.1.hand.adds.map Prod.fst ∧
    x.1.plan.replacing ≠ some id ∧ id ∉ removes x.1.session

instance decidableNewKey (id : Nat) (w : World Unit) (workers : Workers) :
    Decidable (NewKey id w workers) :=
  inferInstanceAs (Decidable (_ ∧ _))

/-- A sync reads the subscriptions of its connection while no other running task is about to
insert one that it does not find. -/
def ReadsApart (w : World Unit) (workers : Workers) (i : Nat) (connectionId : Nat) : Prop :=
  ∀ x ∈ workers[i]?,
    ∀ p ∈ missingFor x.1.session connectionId (existing w x.1.session connectionId),
      ∀ other ∈ workers.eraseIdx i, other.2 = true → ¬ other.1.hand.Due p

/-- A renewal adds the row of a new channel while the row that it replaces is there and no
other running renewal has added one for it. -/
def ReplacesAlone (w : World Unit) (workers : Workers) (i : Nat) (p : Pair) : Prop :=
  ∀ x ∈ workers[i]?, ∀ old ∈ x.1.plan.renewing,
    (old, p) ∈ rowsOf w.tables ∧
      ∀ other ∈ workers.eraseIdx i, other.2 = true → other.1.plan.replacing ≠ some old

def KeepsApart (w : World Unit) (workers : Workers) (i : Nat) (r : Request) (c : Choice) : Prop :=
  (∀ connectionId ∈ selected? r, ReadsApart w workers i connectionId) ∧
    ∀ p ∈ addition? r, ReplacesAlone w workers i p ∧ NewKey c.uuid w workers

instance decidableReadsApart (w : World Unit) (workers : Workers) (i connectionId : Nat) :
    Decidable (ReadsApart w workers i connectionId) :=
  inferInstanceAs (Decidable (∀ x ∈ workers[i]?, _))

instance decidableReplacesAlone (w : World Unit) (workers : Workers) (i : Nat) (p : Pair) :
    Decidable (ReplacesAlone w workers i p) :=
  inferInstanceAs (Decidable (∀ x ∈ workers[i]?, _))

instance decidableKeepsApart (w : World Unit) (workers : Workers) (i : Nat) (r : Request)
    (c : Choice) : Decidable (KeepsApart w workers i r c) :=
  inferInstanceAs (Decidable (_ ∧ _))

section Commits

variable {t t' : Tables} {changes : List Change}

theorem mem_rowsOf {a : Nat × Pair} : a ∈ rowsOf t ↔ ∃ s ∈ t.subscriptions, (s.id, pairOf s) = a :=
  List.mem_map

theorem mem_rowsOf_filter {p : Nat → Bool} {a : Nat × Pair} :
    a ∈ rowsOf { t with subscriptions := t.subscriptions.filter fun s => p s.id } ↔
      a ∈ rowsOf t ∧ p a.1 = true := by
  simp only [mem_rowsOf, List.mem_filter]
  constructor
  · rintro ⟨s, ⟨hs, hkept⟩, rfl⟩
    exact ⟨⟨s, hs, rfl⟩, hkept⟩
  · rintro ⟨⟨s, hs, rfl⟩, hkept⟩
    exact ⟨s, ⟨hs, hkept⟩, rfl⟩

theorem mem_rowsOf_apply {change : Change} (happly : t.apply change = .ok t') (a : Nat × Pair) :
    a ∈ rowsOf t' ↔ a ∈ rowsOf t ∧ a.1 ∉ removed change ∨
      ∃ s ∈ added? change, (s.id, pairOf s) = a := by
  cases change with
  | addSubscription s =>
      simp only [Tables.apply] at happly
      split at happly
      · cases happly
      · cases happly
        simp [rowsOf, removed, added?, eq_comm]
  | setExpiry subscriptionId expiresAt =>
      simp only [Tables.apply] at happly
      split at happly
      · cases happly
        have hsame : (fun s : Subscription => (s.id, pairOf s)) ∘
            (fun s => if s.id = subscriptionId then { s with expiresAt := expiresAt } else s) =
              fun s => (s.id, pairOf s) := by
          funext s
          by_cases hid : s.id = subscriptionId <;> simp [hid, pairOf]
        simp [rowsOf, removed, added?, hsame]
      · cases happly
  | deleteSubscription subscriptionId =>
      cases happly
      rw [mem_rowsOf_filter (p := fun id => id != subscriptionId)]
      simp [removed, added?]
  | deleteSubscriptions subscriptionIds =>
      cases happly
      rw [mem_rowsOf_filter (p := fun id => !subscriptionIds.contains id)]
      simp [removed, added?]
  | addRoute route =>
      simp only [Tables.apply] at happly
      split at happly
      · cases happly
      · cases happly
        simp [rowsOf, removed, added?]
  | _ =>
      cases happly
      simp [rowsOf, removed, added?]

theorem mem_rowsOf_applyAll {changes : List Change} (happly : t.applyAll changes = .ok t')
    (hspared : ∀ s ∈ changes.filterMap added?, s.id ∉ changes.flatMap removed) (a : Nat × Pair) :
    a ∈ rowsOf t' ↔ a ∈ rowsOf t ∧ a.1 ∉ changes.flatMap removed ∨
      a ∈ (changes.filterMap added?).map fun s => (s.id, pairOf s) := by
  induction changes generalizing t with
  | nil =>
      cases happly
      simp
  | cons change rest ih =>
      rw [Tables.applyAll] at happly
      split at happly
      · rename_i u hu
        have hadded {s : Subscription} (hs : added? change = some s) :
            s.id ∉ rest.flatMap removed := fun hmem =>
          hspared s (List.mem_filterMap.mpr ⟨change, List.mem_cons_self, hs⟩)
            (List.mem_append_right _ hmem)
        rw [ih happly fun s hs hmem => ?_, mem_rowsOf_apply hu]
        · rw [List.flatMap_cons, List.mem_append, not_or, List.filterMap_cons]
          cases hadd : added? change with
          | none => simp [and_assoc]
          | some s =>
              have hfree := hadded hadd
              simp only [Option.mem_some_iff, exists_eq_left', List.map_cons, List.mem_cons]
              constructor
              · rintro (⟨⟨hrow, hfirst⟩ | rfl, hlast⟩ | hmem)
                · exact .inl ⟨hrow, hfirst, hlast⟩
                · exact .inr (.inl rfl)
                · exact .inr (.inr hmem)
              · rintro (⟨hrow, hfirst, hlast⟩ | rfl | hmem)
                · exact .inl ⟨.inl ⟨hrow, hfirst⟩, hlast⟩
                · exact .inl ⟨.inr rfl, hfree⟩
                · exact .inr hmem
        · obtain ⟨later, hlater, hlast⟩ := List.mem_filterMap.mp hs
          exact hspared s (List.mem_filterMap.mpr ⟨later, List.mem_cons_of_mem _ hlater, hlast⟩)
            (List.mem_append_right _ hmem)
      · cases happly

theorem nodup_rowsOf_apply {change : Change} (happly : t.apply change = .ok t')
    (hkeys : ((rowsOf t).map Prod.fst).Nodup) : ((rowsOf t').map Prod.fst).Nodup := by
  have hids (t : Tables) : (rowsOf t).map Prod.fst = t.subscriptions.map (·.id) := by
    simp [rowsOf, Function.comp_def]
  rw [hids] at hkeys ⊢
  cases change with
  | addSubscription s =>
      simp only [Tables.apply] at happly
      split at happly
      · cases happly
      · rename_i hnot
        cases happly
        simp only [Tables.hasSubscription, Bool.or_eq_true, not_or, Bool.not_eq_true,
          List.any_eq_false, beq_iff_eq] at hnot
        refine nodup_map_snoc hkeys fun hold => ?_
        obtain ⟨old, hmem, hid⟩ := List.mem_map.mp hold
        exact hnot.1 old hmem hid
  | setExpiry subscriptionId expiresAt =>
      simp only [Tables.apply] at happly
      split at happly
      · cases happly
        have hsame : ((fun s : Subscription => s.id) ∘
            fun s => if s.id = subscriptionId then { s with expiresAt := expiresAt } else s) =
              fun s => s.id := by
          funext s
          by_cases hid : s.id = subscriptionId <;> simp [hid]
        rw [List.map_map, hsame]
        exact hkeys
      · cases happly
  | deleteSubscription _ =>
      cases happly
      exact hkeys.sublist (List.filter_sublist.map _)
  | deleteSubscriptions _ =>
      cases happly
      exact hkeys.sublist (List.filter_sublist.map _)
  | addRoute _ =>
      simp only [Tables.apply] at happly
      split at happly
      · cases happly
      · cases happly
        exact hkeys
  | _ =>
      cases happly
      exact hkeys

theorem nodup_rowsOf_applyAll {changes : List Change} (happly : t.applyAll changes = .ok t')
    (hkeys : ((rowsOf t).map Prod.fst).Nodup) : ((rowsOf t').map Prod.fst).Nodup := by
  induction changes generalizing t with
  | nil =>
      cases happly
      exact hkeys
  | cons change rest ih =>
      rw [Tables.applyAll] at happly
      split at happly
      · rename_i u hu
        exact ih happly (nodup_rowsOf_apply hu hkeys)
      · cases happly

/-- The changes that do not depend on what other tasks have deleted or routed. -/
def Change.Sure : Change → Prop
  | .setExpiry .. | .addRoute _ => False
  | _ => True

theorem exists_applyAll {changes : List Change} (hsure : ∀ change ∈ changes, Change.Sure change)
    (hnew : ∀ s ∈ changes.filterMap added?, s.id ∉ (rowsOf t).map Prod.fst)
    (hdistinct : ((changes.filterMap added?).map (·.id)).Nodup)
    (hthere : ∀ s ∈ changes.filterMap added?, t.hasConnection s.connectionId = true) :
    ∃ t', t.applyAll changes = .ok t' := by
  induction changes generalizing t with
  | nil => exact ⟨t, rfl⟩
  | cons change rest ih =>
      have hfirst : ∃ u, t.apply change = .ok u := by
        cases change with
        | addSubscription s =>
            have hmem : s ∈ (Change.addSubscription s :: rest).filterMap added? :=
              List.mem_filterMap.mpr ⟨_, List.mem_cons_self, rfl⟩
            have hnone : t.hasSubscription s.id = false := by
              rw [Tables.hasSubscription, List.any_eq_false]
              intro x hx
              rw [beq_iff_eq]
              intro hid
              exact hnew s hmem (hid ▸ List.mem_map_of_mem (List.mem_map_of_mem hx))
            rw [Tables.apply, hnone, hthere s hmem]
            exact ⟨_, rfl⟩
        | setExpiry _ _ => exact (hsure _ List.mem_cons_self).elim
        | addRoute _ => exact (hsure _ List.mem_cons_self).elim
        | _ => exact ⟨_, rfl⟩
      obtain ⟨u, hu⟩ := hfirst
      have hsub {s : Subscription} (hs : s ∈ rest.filterMap added?) :
          s ∈ (change :: rest).filterMap added? := by
        obtain ⟨later, hlater, hadded⟩ := List.mem_filterMap.mp hs
        exact List.mem_filterMap.mpr ⟨later, List.mem_cons_of_mem _ hlater, hadded⟩
      have hrest : ((rest.filterMap added?).map (·.id)).Nodup ∧
          ∀ s ∈ added? change, ∀ x ∈ rest.filterMap added?, s.id ≠ x.id := by
        rw [List.filterMap_cons] at hdistinct
        cases hadd : added? change with
        | none =>
            rw [hadd] at hdistinct
            exact ⟨hdistinct, fun _ hs => by cases hs⟩
        | some s =>
            rw [hadd] at hdistinct
            obtain ⟨hnot, hnodup⟩ := List.nodup_cons.mp hdistinct
            refine ⟨hnodup, ?_⟩
            rintro _ ⟨⟩ x hx heq
            exact hnot (List.mem_map.mpr ⟨x, hx, heq.symm⟩)
      have hnext (x : Subscription) (hx : x ∈ rest.filterMap added?) :
          x.id ∉ (rowsOf u).map Prod.fst := by
        intro hmem
        obtain ⟨a, ha, hid⟩ := List.mem_map.mp hmem
        rcases (mem_rowsOf_apply hu a).mp ha with ⟨hold, -⟩ | ⟨s, hs, rfl⟩
        · exact hnew x (hsub hx) (hid ▸ List.mem_map_of_mem hold)
        · exact hrest.2 s hs x hx hid
      have hstill (x : Subscription) (hx : x ∈ rest.filterMap added?) :
          u.hasConnection x.connectionId = true := by
        rw [Tables.hasConnection, connections_apply hu]
        exact hthere x (hsub hx)
      obtain ⟨t', ht'⟩ := ih (fun c hc => hsure c (List.mem_cons_of_mem _ hc)) hnext hrest.1 hstill
      refine ⟨t', ?_⟩
      rw [Tables.applyAll, hu]
      exact ht'

end Commits

section Invariants

variable {kept : Pair → Prop} {w w' : World Unit} {workers : Workers} {i : Nat} {x x' : Worker}
variable {b : Bool}

/-- The connection is one of the tenant. -/
def Located (t : Tables) (connectionId tenantId : Nat) : Prop :=
  (connectionId, tenantId) ∈ t.connections.map fun c => (c.id, c.tenantId)

/-- The session holds loaded connections of its tenant. -/
structure Grounded (t : Tables) (l : Session) : Prop where
  loaded : ∀ o ∈ l.objects, o.isNew = false ∧ Located t o.row.id l.tenantId
  adding : ∀ s ∈ adds l, Located t s.connectionId s.tenantId
  control : ∀ change ∈ l.control, ∃ routeKeys, change = .deleteRoutes routeKeys

structure Consistent (kept : Pair → Prop) (w : World Unit) (workers : Workers) : Prop where
  connections : (w.tables.connections.map (·.id)).Nodup
  located : ∀ s ∈ w.tables.subscriptions, Located w.tables s.connectionId s.tenantId
  grounded : ∀ x ∈ workers, Grounded w.tables x.1.session
  whole : ∀ x ∈ workers, x.1.plan.failed = false
  sound : Sound kept (rowsOf w.tables) (handsOf workers)

/-- What a step of a task may do to the tables and to the task. -/
structure Advances (kept : Pair → Prop) (w : World Unit) (workers : Workers) (i : Nat)
    (x : Worker) (w' : World Unit) (x' : Worker) : Prop where
  moves : Moves kept (rowsOf w.tables) (handsOf workers) i x.hand (rowsOf w'.tables) x'.hand
  connections : (w'.tables.connections.map fun c => (c.id, c.tenantId)) =
    w.tables.connections.map fun c => (c.id, c.tenantId)
  located : ∀ s ∈ w'.tables.subscriptions, Located w'.tables s.connectionId s.tenantId
  grounded : Grounded w'.tables x'.session
  whole : x'.plan.failed = false

theorem running_hand (hi : workers[i]? = some (x, b)) : At (handsOf workers) i x.hand b := by
  unfold At handsOf
  rw [List.getElem?_map, hi]
  rfl

theorem Grounded.of_tables {t t' : Tables} {l : Session} (h : Grounded t l)
    (hconnections : (t'.connections.map fun c => (c.id, c.tenantId)) =
      t.connections.map fun c => (c.id, c.tenantId)) : Grounded t' l := by
  have hlocated (connectionId tenantId : Nat) :
      Located t' connectionId tenantId ↔ Located t connectionId tenantId := by
    unfold Located
    rw [hconnections]
  exact ⟨fun o ho => ⟨(h.loaded o ho).1, (hlocated _ _).mpr (h.loaded o ho).2⟩,
    fun s hs => (hlocated _ _).mpr (h.adding s hs), h.control⟩

theorem Consistent.advance (h : Consistent kept w workers) (hi : workers[i]? = some (x, true))
    (hadv : Advances kept w workers i x w' x')
    (hended : b = false → x'.plan.replacing = none ∨ x'.plan.failed = true) :
    Consistent kept w' (workers.set i (x', b)) where
  connections := by
    have hids (t : Tables) : t.connections.map (·.id) =
        (t.connections.map fun c => (c.id, c.tenantId)).map Prod.fst := by
      simp [Function.comp_def]
    rw [hids, hadv.connections, ← hids]
    exact h.connections
  located := hadv.located
  grounded := by
    intro y hy
    rcases List.mem_or_eq_of_mem_set hy with hold | rfl
    · exact (h.grounded y hold).of_tables hadv.connections
    · exact hadv.grounded
  whole := by
    intro y hy
    rcases List.mem_or_eq_of_mem_set hy with hold | rfl
    · exact h.whole y hold
    · exact hadv.whole
  sound := by
    have hset (b : Bool) : handsOf (workers.set i (x', b)) =
        (handsOf workers).set i (x'.hand, b) := List.map_set
    have hstep := h.sound.step (running_hand hi) hadv.moves
    cases b with
    | true =>
        rw [hset]
        exact hstep
    | false =>
        have hnone : x'.hand.replacing = none := by
          rcases hended rfl with hnone | hfailed
          · exact hnone
          · rw [hadv.whole] at hfailed
            cases hfailed
        have hlast := hstep.finish ((at_set_iff (running_hand hi)).mpr (.inl ⟨rfl, rfl, rfl⟩)) hnone
        rw [List.set_set] at hlast
        rw [hset]
        exact hlast

theorem Consistent.quiet (h : Consistent kept w workers)
    (hconnections : w'.tables.connections = w.tables.connections)
    (hsubscriptions : w'.tables.subscriptions = w.tables.subscriptions) (hhand : x'.hand = x.hand)
    (hgrounded : Grounded w.tables x'.session) (hwhole : x'.plan.failed = false) :
    Advances kept w workers i x w' x' := by
  have hrows : rowsOf w'.tables = rowsOf w.tables := by
    rw [rowsOf, hsubscriptions]
    rfl
  refine ⟨?_, by rw [hconnections], ?_, hgrounded.of_tables (by rw [hconnections]), hwhole⟩
  · rw [hrows, hhand]
    exact .rest
  · unfold Located
    rw [hsubscriptions, hconnections]
    exact h.located

theorem at_handsOf {j : Nat} {g : Hand Nat Pair} :
    At (handsOf workers) j g b ↔ ∃ y, workers[j]? = some (y, b) ∧ y.hand = g := by
  unfold At handsOf
  rw [List.getElem?_map]
  cases hj : workers[j]? with
  | none => simp
  | some y => simp [Prod.ext_iff, and_comm]

theorem mem_eraseIdx_of_ne {j : Nat} (hj : workers[j]? = some (x, b)) (hne : j ≠ i) :
    (x, b) ∈ workers.eraseIdx i :=
  List.mem_eraseIdx_iff_getElem?.mpr ⟨j, hne, hj⟩

theorem unused_of_newKey {id : Nat} (h : NewKey id w workers) :
    Unused id (rowsOf w.tables) (handsOf workers) := by
  have hmem {j : Nat} {g : Hand Nat Pair} {b : Bool} (hj : At (handsOf workers) j g b) :
      ∃ y ∈ workers, y.1.hand = g := by
    obtain ⟨y, hy, rfl⟩ := at_handsOf.mp hj
    exact ⟨_, List.mem_of_getElem? hy, rfl⟩
  refine ⟨h.1, fun j g b hj => ?_, fun j g b hj => ?_, fun j g b hj => ?_⟩
  · obtain ⟨y, hy, rfl⟩ := hmem hj
    exact (h.2 y hy).1
  · obtain ⟨y, hy, rfl⟩ := hmem hj
    exact (h.2 y hy).2.1
  · obtain ⟨y, hy, rfl⟩ := hmem hj
    exact (h.2 y hy).2.2

theorem Consistent.tenant_unique (h : Consistent kept w workers) {connectionId m n : Nat}
    (hm : Located w.tables connectionId m) (hn : Located w.tables connectionId n) : m = n := by
  obtain ⟨c, hc, hkey⟩ := List.mem_map.mp hm
  obtain ⟨d, hd, hkey'⟩ := List.mem_map.mp hn
  obtain ⟨rfl, rfl⟩ := Prod.mk.inj hkey
  obtain ⟨hid, rfl⟩ := Prod.mk.inj hkey'
  rw [List.inj_on_of_nodup_map h.connections hc hd hid.symm]

theorem Grounded.located_object {t : Tables} {l : Session} (h : Grounded t l) {connectionId : Nat}
    (hobject : l.object? connectionId ≠ none) : Located t connectionId l.tenantId := by
  obtain ⟨o, ho⟩ := Option.ne_none_iff_exists'.mp hobject
  obtain ⟨hmem, rfl⟩ := mem_of_object? ho
  exact (h.loaded o hmem).2

theorem mem_missingFor {l : Session} {connectionId : Nat} {found : List Subscription} {p : Pair} :
    p ∈ missingFor l connectionId found ↔ ∃ o, l.object? connectionId = some o ∧
      ∃ capability ∈ grantedCapabilities o.view, capability ∉ found.map (·.capability) ∧
        creates o.view.provider capability = true ∧ p = (connectionId, capability) := by
  unfold missingFor
  cases ho : l.object? connectionId with
  | none => simp
  | some o =>
      simp only [List.mem_map, List.mem_filter, Option.some.injEq, exists_eq_left']
      constructor
      · rintro ⟨capability, ⟨hgranted, hkept⟩, rfl⟩
        obtain ⟨hmissing, hcreates⟩ := Bool.and_eq_true_iff.mp hkept
        exact ⟨capability, hgranted, by simpa using hmissing, hcreates, rfl⟩
      · rintro ⟨capability, hgranted, hmissing, hcreates, rfl⟩
        refine ⟨capability, ⟨hgranted, Bool.and_eq_true_iff.mpr ⟨?_, hcreates⟩⟩, rfl⟩
        simpa using hmissing

theorem Consistent.select (h : Consistent kept w workers) (hi : workers[i]? = some (x, true))
    {connectionId : Nat} (hapart : ReadsApart w workers i connectionId) :
    Moves kept (rowsOf w.tables) (handsOf workers) i x.hand (rowsOf w.tables)
      { x.hand with
        missing := missingFor x.session connectionId (existing w x.session connectionId) } := by
  refine .read _ (fun p hp id hrow => ?_) fun p hp j g hne hj hdue => ?_
  · obtain ⟨o, ho, capability, -, hmissing, -, rfl⟩ := mem_missingFor.mp hp
    obtain ⟨s, hs, hkey⟩ := mem_rowsOf.mp hrow
    obtain ⟨rfl, hpair⟩ := Prod.mk.inj hkey
    obtain ⟨rfl, rfl⟩ := Prod.mk.inj hpair
    have hgrounded := h.grounded _ (List.mem_of_getElem? hi)
    have htenant := h.tenant_unique (h.located s hs)
      (hgrounded.located_object (Option.ne_none_iff_exists'.mpr ⟨o, ho⟩))
    refine hmissing (List.mem_map.mpr ⟨s, List.mem_filter.mpr ⟨hs, ?_⟩, rfl⟩)
    simp [htenant]
  · obtain ⟨y, hy, rfl⟩ := at_handsOf.mp hj
    exact hapart _ hi p hp _ (mem_eraseIdx_of_ne hy hne) rfl hdue

theorem adds_add (l : Session) (change : Change) :
    adds (l.add change) = adds l ++ (added? change).toList := by
  unfold adds Session.add
  rw [List.filterMap_append]
  cases hadd : added? change with
  | none => simp [hadd]
  | some s => simp [hadd]

theorem removes_add (l : Session) (change : Change) :
    removes (l.add change) = removes l ++ removed change := by
  unfold removes Session.add
  rw [List.flatMap_append, List.flatMap_cons, List.flatMap_nil, List.append_nil]

/-- The requests the tasks keep to, whatever the others do. -/
def Obeys (revoked : Nat → Prop) (x : Worker) : Request → Prop
  | .selectSubscriptions connectionId => x.session.object? connectionId ≠ none
  | .addSubscription connectionId capability .. =>
      x.session.object? connectionId ≠ none ∧ x.plan.replacing = none ∧
        (x.plan.renewing = none → (connectionId, capability) ∈ x.plan.missing ∧
          (connectionId, capability) ∉ x.hand.adds.map Prod.snd) ∧
        (x.plan.renewing ≠ none → adds x.session = [])
  | .deleteSubscription subscriptionId => x.plan.replacing = some subscriptionId
  | .deleteSubscriptionsOf connectionId => revoked connectionId
  | .openSession _ => x.plan.replacing = none
  | .commit => x.plan.replacing ≠ none → ∀ change ∈ x.session.pending, Change.Sure change
  | .selectActiveConnections | .findConnection .. | .addConnection .. | .addRoute _ => False
  | _ => True

theorem moves_add (hi : workers[i]? = some (x, true)) {connectionId : Nat} {capability : String}
    {id : Nat} (hnone : x.plan.replacing = none)
    (hsync : x.plan.renewing = none → (connectionId, capability) ∈ x.plan.missing ∧
      (connectionId, capability) ∉ x.hand.adds.map Prod.snd)
    (hrenewal : x.plan.renewing ≠ none → adds x.session = [])
    (halone : ReplacesAlone w workers i (connectionId, capability))
    (hnew : NewKey id w workers) (hhand : x'.hand = { x.hand with
      adds := x.hand.adds ++ [(id, (connectionId, capability))]
      replacing := x.plan.renewing }) :
    Moves kept (rowsOf w.tables) (handsOf workers) i x.hand (rowsOf w.tables) x'.hand := by
  rw [hhand]
  cases hrenewing : x.plan.renewing with
  | none =>
      have hsame : x.hand.replacing = none := hnone
      rw [← hsame]
      obtain ⟨hmissing, hfirst⟩ := hsync hrenewing
      exact .add id (connectionId, capability) hmissing hfirst (unused_of_newKey hnew)
  | some old =>
      have hclear : x.hand.adds = [] := by
        show (adds x.session).map _ = []
        rw [hrenewal (by rw [hrenewing]; exact Option.some_ne_none old), List.map_nil]
      obtain ⟨hold, hothers⟩ := halone _ hi old hrenewing
      rw [hclear, List.nil_append]
      refine .replace id _ old hclear hnone hold (fun j g hj => ?_) (unused_of_newKey hnew)
      obtain ⟨y, hy, rfl⟩ := at_handsOf.mp hj
      by_cases hne : j = i
      · subst hne
        obtain ⟨rfl, -⟩ := Prod.mk.inj (Option.some.inj (hi.symm.trans hy))
        show x.plan.replacing ≠ some old
        rw [hnone]
        exact Option.some_ne_none old ∘ Eq.symm
      · exact hothers _ (mem_eraseIdx_of_ne hy hne) rfl

theorem Grounded.add {t : Tables} {l : Session} (h : Grounded t l) {change : Change}
    (hadded : ∀ s ∈ added? change, Located t s.connectionId s.tenantId) :
    Grounded t (l.add change) where
  loaded := h.loaded
  adding := by
    intro s hs
    rw [adds_add] at hs
    rcases List.mem_append.mp hs with hold | hnew
    · exact h.adding s hold
    · exact hadded s (Option.mem_toList.mp hnew)
  control := h.control

theorem Grounded.cleared {t : Tables} {l l' : Session} (h : Grounded t l)
    (hobjects : l'.objects = []) (hpending : l'.pending = []) (hcontrol : l'.control = l.control) :
    Grounded t l' where
  loaded := by
    intro o ho
    rw [hobjects] at ho
    cases ho
  adding := by
    intro s hs
    rw [adds, hpending] at hs
    cases hs
  control := hcontrol ▸ h.control

theorem Grounded.load {t : Tables} {l : Session} (h : Grounded t l) (mark : Nat) {row : Connection}
    (hrow : row ∈ t.connections) (htenant : row.tenantId = l.tenantId) :
    Grounded t (l.load mark row) := by
  have htenantId : (l.load mark row).tenantId = l.tenantId := by
    unfold Session.load
    split
    · rfl
    · rfl
  refine ⟨fun o ho => ?_, ?_, ?_⟩
  · rw [htenantId]
    rcases mem_load ho with hold | rfl
    · exact h.loaded o hold
    · exact ⟨rfl, List.mem_map.mpr ⟨row, hrow, by rw [htenant]; rfl⟩⟩
  · unfold adds
    rw [load_pending]
    exact h.adding
  · rw [load_control]
    exact h.control

theorem Grounded.update {t : Tables} {l : Session} (h : Grounded t l) {connectionId : Nat}
    {f : Object → Object} (hf : ∀ o : Object, (f o).isNew = o.isNew ∧
      (o.row.id = connectionId → (f o).row.id = connectionId)) :
    Grounded t (l.update connectionId f) where
  loaded := by
    intro o ho
    obtain ⟨old, hold, ⟨hid, rfl⟩ | ⟨-, rfl⟩⟩ := mem_update ho
    · obtain ⟨hnew, hlocated⟩ := h.loaded old hold
      rw [(hf old).1, (hf old).2 hid, ← hid]
      exact ⟨hnew, hlocated⟩
    · exact h.loaded o hold
  adding := h.adding
  control := h.control

theorem Consistent.commits (h : Consistent kept w workers) (hi : workers[i]? = some (x, true))
    (hsure : ∀ change ∈ x.session.pending, Change.Sure change) :
    ∃ t, w.tables.commit x.session.objects x.session.pending = .ok t := by
  have hgrounded := h.grounded _ (List.mem_of_getElem? hi)
  have hrunning : Running (handsOf workers) i x.hand := running_hand hi
  have hthere (connectionId tenantId : Nat) (hlocated : Located w.tables connectionId tenantId) :
      w.tables.hasConnection connectionId = true := by
    obtain ⟨c, hc, hkey⟩ := List.mem_map.mp hlocated
    exact List.any_eq_true.mpr ⟨c, hc, beq_iff_eq.mpr (Prod.mk.inj hkey).1⟩
  have hwrite := writeObjects_eq fun o ho =>
    ⟨(hgrounded.loaded o ho).1, hthere _ _ (hgrounded.loaded o ho).2⟩
  have hids : (adds x.session).map (·.id) = x.hand.adds.map Prod.fst := by
    simp [Worker.hand, Function.comp_def]
  have hdone : ∃ t, Tables.applyAll { w.tables with
      connections := w.tables.connections.map fun c =>
        { c with attributes := writes c.id x.session.objects c.attributes } }
      x.session.pending = .ok t := by
    refine exists_applyAll hsure (fun s hs => ?_) ?_ fun s hs => ?_
    · exact h.sound.new i x.hand true hrunning _ (List.mem_map_of_mem hs)
    · show ((adds x.session).map (·.id)).Nodup
      rw [hids]
      exact h.sound.adds_distinct hrunning
    · obtain ⟨c, hc, hid⟩ := List.any_eq_true.mp (hthere _ _ (hgrounded.adding s hs))
      exact List.any_eq_true.mpr ⟨_, List.mem_map_of_mem hc, hid⟩
  obtain ⟨t, happly⟩ := hdone
  refine ⟨t, ?_⟩
  rw [Tables.commit, hwrite]
  exact happly

theorem Grounded.saved {t : Tables} {l : Session} (h : Grounded t l) : Grounded t
    { l with objects := l.objects.map Object.saved, pending := [], issued := [] } where
  loaded := by
    intro o ho
    obtain ⟨old, hold, rfl⟩ := List.mem_map.mp ho
    exact ⟨rfl, (h.loaded old hold).2⟩
  adding := by
    intro s hs
    cases hs
  control := h.control

theorem Consistent.commit (h : Consistent kept w workers) (hi : workers[i]? = some (x, true))
    (hsure : x.plan.replacing ≠ none → ∀ change ∈ x.session.pending, Change.Sure change)
    (c : Choice) : Advances kept w workers i x (serveNoted w x .commit c).1
      (serveNoted w x .commit c).2.1 := by
  have hgrounded := h.grounded _ (List.mem_of_getElem? hi)
  have hwhole := h.whole _ (List.mem_of_getElem? hi)
  have hrunning : Running (handsOf workers) i x.hand := running_hand hi
  simp only [serveNoted, serve, World.commit, Worker.noted]
  cases hcommit : w.tables.commit x.session.objects x.session.pending with
  | error e =>
      have hnone : x.plan.replacing = none := by
        by_contra hreplacing
        obtain ⟨t, ht⟩ := h.commits hi (hsure hreplacing)
        rw [hcommit] at ht
        cases ht
      refine ⟨.drop hnone, rfl, h.located, hgrounded.cleared rfl rfl rfl, ?_⟩
      show (x.plan.failed || x.plan.replacing.isSome) = false
      rw [hwhole, hnone]
      rfl
  | ok t =>
      obtain ⟨u, hwrite, happly⟩ := commit_eq_ok hcommit
      have hstored (o : Object) (ho : o ∈ x.session.objects) :
          o.isNew = false ∧ w.tables.hasConnection o.row.id = true := by
        obtain ⟨hnew, hlocated⟩ := hgrounded.loaded o ho
        obtain ⟨row, hrow, hkey⟩ := List.mem_map.mp hlocated
        exact ⟨hnew, List.any_eq_true.mpr ⟨row, hrow, beq_iff_eq.mpr (Prod.mk.inj hkey).1⟩⟩
      have hsubscriptions := subscriptions_writeObjects hwrite
      rw [writeObjects_eq hstored] at hwrite
      obtain rfl := Except.ok.inj hwrite
      have hconnections : (t.connections.map fun c => (c.id, c.tenantId)) =
          w.tables.connections.map fun c => (c.id, c.tenantId) := by
        rw [connections_applyAll happly]
        simp [Function.comp_def]
      refine ⟨.commit (rowsOf t) ?_ ?_, hconnections, ?_, ?_, hwhole⟩
      · exact nodup_rowsOf_applyAll happly h.sound.distinct
      · have hspared (s : Subscription) (hs : s ∈ adds x.session) : s.id ∉ removes x.session :=
          (h.sound.spared i x.hand true hrunning _ (List.mem_map_of_mem hs) i x.hand true
            hrunning).2
        have hmem := mem_rowsOf_applyAll happly hspared
        exact hmem
      · intro s hs
        have hlocated {s' : Subscription} (hs' : Located w.tables s'.connectionId s'.tenantId)
            (hsame : (s'.connectionId, s'.tenantId) = (s.connectionId, s.tenantId)) :
            Located t s.connectionId s.tenantId := by
          unfold Located
          rw [hconnections, ← hsame]
          exact hs'
        rcases subscription_of_applyAll (f := fun s => (s.connectionId, s.tenantId))
          (fun _ _ => rfl) happly hs with ⟨old, hold, hsame⟩ | ⟨new, hnew, hsame⟩
        · exact hlocated (h.located old hold) hsame
        · exact hlocated (hgrounded.adding new hnew) hsame
      · exact (hgrounded.of_tables hconnections).saved

theorem commitControl_tables {l : Session} (h : Grounded w.tables l) :
    (w.commitControl l).1.tables.connections = w.tables.connections ∧
      (w.commitControl l).1.tables.subscriptions = w.tables.subscriptions := by
  have happly (t t' : Tables) (changes : List Change)
      (hroutes : ∀ change ∈ changes, ∃ routeKeys, change = .deleteRoutes routeKeys)
      (hdone : t.applyAll changes = .ok t') :
      t'.connections = t.connections ∧ t'.subscriptions = t.subscriptions := by
    induction changes generalizing t with
    | nil =>
        cases hdone
        exact ⟨rfl, rfl⟩
    | cons change rest ih =>
        obtain ⟨routeKeys, rfl⟩ := hroutes _ List.mem_cons_self
        obtain ⟨u, hu, hconnections, hsubscriptions⟩ : ∃ u,
            t.apply (.deleteRoutes routeKeys) = .ok u ∧ u.connections = t.connections ∧
              u.subscriptions = t.subscriptions := ⟨_, rfl, rfl, rfl⟩
        rw [Tables.applyAll, hu] at hdone
        obtain ⟨hrest, hrest'⟩ := ih u (fun c hc => hroutes c (List.mem_cons_of_mem _ hc)) hdone
        exact ⟨hrest.trans hconnections, hrest'.trans hsubscriptions⟩
  unfold World.commitControl
  cases hdone : w.tables.applyAll l.control with
  | ok t => exact happly _ _ _ h.control hdone
  | error e => exact ⟨rfl, rfl⟩

theorem Consistent.addChange (h : Consistent kept w workers) (hi : workers[i]? = some (x, true))
    {change : Change} (hadded : added? change = none)
    (hremoved : ∀ id ∈ removed change, x.plan.replacing = some id ∨
      id ∈ (rowsOf w.tables).map Prod.fst ∧ ∀ p, kept p → (id, p) ∉ rowsOf w.tables) :
    Advances kept w workers i x w ⟨x.session.add change, x.plan⟩ := by
  have hgrounded := h.grounded _ (List.mem_of_getElem? hi)
  refine ⟨?_, rfl, h.located, hgrounded.add fun s hs => ?_, h.whole _ (List.mem_of_getElem? hi)⟩
  · have hhand : Worker.hand ⟨x.session.add change, x.plan⟩ =
        { x.hand with removes := x.hand.removes ++ removed change } := by
      unfold Worker.hand
      rw [adds_add, removes_add, hadded, Option.toList_none, List.append_nil]
    rw [hhand]
    exact .remove _ hremoved
  · rw [hadded] at hs
    cases hs

theorem Consistent.advances (h : Consistent kept w workers) (hi : workers[i]? = some (x, true))
    {revoked : Nat → Prop} (hkept : ∀ p, kept p → ¬ revoked p.1) {r : Request}
    (hobeys : Obeys revoked x r) {c : Choice} (hcond : KeepsApart w workers i r c) :
    Advances kept w workers i x (serveNoted w x r c).1 (serveNoted w x r c).2.1 := by
  have hgrounded := h.grounded _ (List.mem_of_getElem? hi)
  have hwhole := h.whole _ (List.mem_of_getElem? hi)
  cases r with
  | openSession tenantId =>
      exact ⟨.drop hobeys, rfl, h.located, hgrounded.cleared rfl rfl rfl, hwhole⟩
  | getConnection connectionId =>
      simp only [serveNoted, serve]
      split
      · exact h.quiet rfl rfl rfl hgrounded hwhole
      · split
        · rename_i row hrow
          have hfound := List.find?_some hrow
          simp only [Bool.and_eq_true, beq_iff_eq] at hfound
          refine h.quiet rfl rfl ?_ (hgrounded.load _ (List.mem_of_find?_eq_some hrow) hfound.2)
            hwhole
          unfold Worker.hand adds removes
          rw [load_pending]
          rfl
        · exact h.quiet rfl rfl rfl hgrounded hwhole
  | refreshObject connectionId =>
      simp only [serveNoted, serve]
      split
      · rename_i row hrow
        refine h.quiet rfl rfl rfl (hgrounded.update fun o => ⟨rfl, fun _ => ?_⟩) hwhole
        show row.id = connectionId
        simpa using List.find?_some hrow
      · exact h.quiet rfl rfl rfl hgrounded hwhole
  | assign connectionId value =>
      simp only [serveNoted, serve]
      split
      · exact h.quiet rfl rfl rfl hgrounded hwhole
      · split
        · exact h.quiet rfl rfl rfl (hgrounded.update fun o => ⟨rfl, fun hid => hid⟩) hwhole
        · exact h.quiet rfl rfl rfl hgrounded hwhole
  | acquireLock name =>
      simp only [serveNoted, serve, World.acquireLock]
      split
      · refine h.quiet rfl rfl ?_ hgrounded ?_
        · cases name <;> rfl
        · cases name <;> exact hwhole
      · refine h.quiet rfl rfl ?_ hgrounded ?_
        · cases name <;> rfl
        · cases name <;> exact hwhole
  | lockHolder name =>
      refine h.quiet rfl rfl ?_ hgrounded ?_
      · cases name <;> rfl
      · cases name <;> exact hwhole
  | selectSubscriptions connectionId =>
      exact ⟨h.select hi (hcond.1 _ rfl), rfl, h.located, hgrounded, hwhole⟩
  | addSubscription connectionId capability providerSubscriptionId expiresAt hash =>
      obtain ⟨hobject, hnone, hsync, hrenewal⟩ := hobeys
      obtain ⟨halone, hnew⟩ := hcond.2 _ rfl
      refine ⟨moves_add hi hnone hsync hrenewal halone hnew ?_, rfl, h.located, ?_, hwhole⟩
      · simp only [serveNoted, serve, Worker.noted, Worker.hand]
        rw [adds_add, removes_add, List.map_append,
          show removed (Change.addSubscription _) = [] from rfl, List.append_nil]
        rfl
      · refine hgrounded.add ?_
        rintro s ⟨⟩
        exact hgrounded.located_object hobject
  | setExpiry subscriptionId expiresAt =>
      exact h.addChange hi rfl fun _ hid => by cases hid
  | deleteSubscription subscriptionId =>
      refine h.addChange hi rfl fun id hid => .inl ?_
      rw [List.mem_singleton.mp hid]
      exact hobeys
  | deleteSubscriptionsOf connectionId =>
      refine h.addChange hi rfl fun id hid => .inr ?_
      obtain ⟨s, hs, rfl⟩ := List.mem_map.mp hid
      obtain ⟨hmem, hown⟩ := List.mem_filter.mp hs
      have hrow : (s.id, pairOf s) ∈ rowsOf w.tables := List.mem_map_of_mem hmem
      refine ⟨List.mem_map_of_mem hrow, fun p hp hother => hkept p hp ?_⟩
      have hsame := List.inj_on_of_nodup_map h.sound.distinct hother hrow rfl
      rw [(Prod.mk.inj hsame).2]
      simp only [Bool.and_eq_true, beq_iff_eq] at hown
      show revoked s.connectionId
      rw [hown.2]
      exact hobeys
  | addAuditEvent event =>
      exact h.addChange hi rfl fun _ hid => by cases hid
  | commit => exact h.commit hi hobeys c
  | exchange connectionId refreshToken =>
      exact h.quiet rfl rfl rfl ⟨hgrounded.loaded, hgrounded.adding, hgrounded.control⟩ hwhole
  | deleteRoutesOf connectionId =>
      refine h.quiet rfl rfl rfl
        ⟨hgrounded.loaded, hgrounded.adding, fun change hchange => ?_⟩ hwhole
      rcases List.mem_append.mp hchange with hold | hnew
      · exact hgrounded.control change hold
      · exact ⟨_, List.mem_singleton.mp hnew⟩
  | commitControl =>
      obtain ⟨hconnections, hsubscriptions⟩ := commitControl_tables hgrounded
      have hsession : (w.commitControl x.session).2.1 = { x.session with control := [] } := by
        unfold World.commitControl
        split
        · rfl
        · rfl
      refine h.quiet hconnections hsubscriptions ?_ ?_ hwhole
      · show Worker.hand ⟨(w.commitControl x.session).2.1, _⟩ = x.hand
        rw [hsession]
        rfl
      · show Grounded w.tables (w.commitControl x.session).2.1
        rw [hsession]
        exact ⟨hgrounded.loaded, hgrounded.adding, fun _ hchange => by cases hchange⟩
  | selectActiveConnections => exact hobeys.elim
  | findConnection _ _ _ => exact hobeys.elim
  | addConnection _ _ _ _ _ => exact hobeys.elim
  | addRoute _ => exact hobeys.elim
  | _ => exact h.quiet rfl rfl rfl hgrounded hwhole

end Invariants

section Discipline

variable {α β : Type} {settings : Settings} {revoked : Nat → Prop} {x x' : Worker}
variable {P Q : Worker → Prop}

/-- What a task keeps to, and how it ends. -/
abbrev Keeps (revoked : Nat → Prop) (Q : Worker → Except Failure α → Prop) (x : Worker)
    (p : ConnectorProc α) : Prop :=
  Follows serveNoted (Obeys revoked) Q x p

/-- The requests that leave the task as it is. -/
def Still : Request → Prop
  | .now | .uuid | .generateToken | .activeTenants => True
  | .readObject _ | .callApi .. | .selectRoute _ | .selectExpiringSubscriptions _ => True
  | _ => False

/-- The requests that insert and delete no subscription and read none. -/
def Plain : Request → Prop
  | .getConnection _ | .refreshObject _ | .expiring .. | .assign .. | .addAuditEvent _ => True
  | .acquireLock name | .lockHolder name | .deleteLock name => ∃ id, name = .refresh id
  | .exchange .. | .revokeRemote .. | .commit | .deleteRoutesOf _ | .commitControl => True
  | r => Still r

/-- No change is pending but audit events, insertions and deletions. -/
def SurePending (x : Worker) : Prop := ∀ change ∈ x.session.pending, Change.Sure change

/-- Only audit events were added to the pending changes. -/
def Audited (x x' : Worker) : Prop :=
  ∃ events : List AuditEvent,
    x'.session.pending = x.session.pending ++ events.map .addAuditEvent

theorem audited_self (h : x'.session.pending = x.session.pending) : Audited x x' :=
  ⟨[], by rw [h, List.map_nil, List.append_nil]⟩

theorem Audited.adds (h : Audited x x') : adds x'.session = adds x.session := by
  obtain ⟨events, hpending⟩ := h
  have hnone : (events.map Change.addAuditEvent).filterMap added? = [] := by
    simp [List.filterMap_eq_nil_iff, added?]
  rw [SubscriptionRaces.adds, hpending, List.filterMap_append, hnone, List.append_nil]
  rfl

theorem Audited.removes (h : Audited x x') : removes x'.session = removes x.session := by
  obtain ⟨events, hpending⟩ := h
  have hnone : (events.map Change.addAuditEvent).flatMap removed = [] := by
    simp [List.flatMap_eq_nil_iff, removed]
  rw [SubscriptionRaces.removes, hpending, List.flatMap_append, hnone, List.append_nil]
  rfl

theorem Audited.sure (h : Audited x x') (hsure : SurePending x) : SurePending x' := by
  obtain ⟨events, hpending⟩ := h
  intro change hchange
  rw [hpending] at hchange
  rcases List.mem_append.mp hchange with hold | hnew
  · exact hsure change hold
  · obtain ⟨event, -, rfl⟩ := List.mem_map.mp hnew
    trivial

theorem plain_serve {r : Request} (hr : Plain r) (w : World Unit) (c : Choice) :
    ((serveNoted w x r c).2.1.plan = x.plan ∧ Audited x (serveNoted w x r c).2.1) ∨
      (serveNoted w x r c).2.1.session.pending = [] ∧
        ((serveNoted w x r c).2.1.plan = { x.plan with
            missing := x.hand.committed.missing
            replacing := x.hand.committed.replacing } ∨
          (serveNoted w x r c).2.1.plan =
            { x.plan with failed := x.plan.failed || x.plan.replacing.isSome }) := by
  cases r with
  | getConnection connectionId =>
      simp only [serveNoted, serve]
      split
      · exact .inl ⟨rfl, audited_self rfl⟩
      · split
        · exact .inl ⟨rfl, audited_self (load_pending _ _ _)⟩
        · exact .inl ⟨rfl, audited_self rfl⟩
  | refreshObject connectionId =>
      simp only [serveNoted, serve]
      split
      · exact .inl ⟨rfl, audited_self rfl⟩
      · exact .inl ⟨rfl, audited_self rfl⟩
  | assign connectionId value =>
      simp only [serveNoted, serve]
      split
      · exact .inl ⟨rfl, audited_self rfl⟩
      · split
        · exact .inl ⟨rfl, audited_self rfl⟩
        · exact .inl ⟨rfl, audited_self rfl⟩
  | acquireLock name =>
      obtain ⟨id, rfl⟩ := hr
      exact .inl ⟨rfl, audited_self rfl⟩
  | lockHolder name =>
      obtain ⟨id, rfl⟩ := hr
      exact .inl ⟨rfl, audited_self rfl⟩
  | addAuditEvent event => exact .inl ⟨rfl, [{ event with tenantId := x.session.tenantId }], rfl⟩
  | commit =>
      simp only [serveNoted, serve, World.commit, Worker.noted]
      cases w.tables.commit x.session.objects x.session.pending with
      | ok t => exact .inr ⟨rfl, .inl rfl⟩
      | error e => exact .inr ⟨rfl, .inr rfl⟩
  | commitControl =>
      simp only [serveNoted, serve, World.commitControl]
      split
      · exact .inl ⟨rfl, audited_self rfl⟩
      · exact .inl ⟨rfl, audited_self rfl⟩
  | _ => first
    | exact hr.elim
    | exact .inl ⟨rfl, audited_self rfl⟩

/-- A property of a task that plain requests keep. -/
structure Stable (P : Worker → Prop) : Prop where
  sure : ∀ x, P x → x.plan.replacing ≠ none → SurePending x
  same : ∀ x x', P x → x'.plan = x.plan → Audited x x' → P x'
  committed : ∀ x x', P x → x'.session.pending = [] → x'.plan = { x.plan with
    missing := x.hand.committed.missing
    replacing := x.hand.committed.replacing } → P x'
  failed : ∀ x x', P x → x'.session.pending = [] →
    x'.plan = { x.plan with failed := x.plan.failed || x.plan.replacing.isSome } → P x'

theorem Stable.serve (hP : Stable P) {r : Request} (hr : Plain r) (hx : P x) :
    Obeys revoked x r ∧ ∀ w c, P (serveNoted w x r c).2.1 := by
  refine ⟨?_, fun w c => ?_⟩
  · cases r with
    | commit => exact hP.sure x hx
    | _ => first
      | exact hr.elim
      | exact trivial
  · rcases plain_serve hr w c with ⟨hplan, haudited⟩ | ⟨hpending, hplan⟩
    · exact hP.same x _ hx hplan haudited
    · rcases hplan with hdone | hfailed
      · exact hP.committed x _ hx hpending hdone
      · exact hP.failed x _ hx hpending hfailed

theorem keeps_plain (hP : Stable P) {p : ConnectorProc α} (hp : Makes Plain p) (hx : P x) :
    Keeps revoked (fun x _ => P x) x p :=
  hp.follows_of (fun _ _ hr hx => hP.serve hr hx) hx

theorem keeps_plain_bind (hP : Stable P) {R : Worker → Except Failure α → Prop}
    {p : ConnectorProc β} {f : β → ConnectorProc α} (hp : Makes Plain p) (hx : P x)
    (hf : ∀ x b, P x → Keeps revoked R x (f b)) (he : ∀ x e, P x → R x (.error e)) :
    Keeps revoked R x (p >>= f) :=
  follows_bind (keeps_plain hP hp hx) (fun x b hx => hf x b hx) fun x e hx => he x e hx

theorem still_serve {r : Request} (hr : Still r) :
    Obeys revoked x r ∧ ∀ w c, (serveNoted w x r c).2.1 = x := by
  cases r with
  | _ => first
    | exact hr.elim
    | exact ⟨trivial, fun _ _ => rfl⟩

theorem keeps_still_bind {R : Worker → Except Failure α → Prop} {p : ConnectorProc β}
    {f : β → ConnectorProc α} (hp : Makes Still p) (hf : ∀ b, Keeps revoked R x (f b))
    (he : ∀ e, R x (.error e)) : Keeps revoked R x (p >>= f) := by
  have hstill : Keeps revoked (fun x' (_ : Except Failure β) => x' = x) x p :=
    hp.follows_of (P := fun x' => x' = x) (fun _ r hr hx => hx ▸ still_serve hr) rfl
  refine follows_bind hstill ?_ ?_
  · rintro _ b rfl
    exact hf b
  · rintro _ e rfl
    exact he e

theorem plain_of_locking {connectionId : Nat} (r : Request) (hr : locking connectionId r) :
    Plain r := by
  cases r with
  | acquireLock name => exact ⟨_, hr⟩
  | lockHolder name => exact ⟨_, hr⟩
  | deleteLock name => exact ⟨_, hr⟩
  | refreshObject id => trivial
  | expiring id lead => trivial
  | _ => exact hr.elim

theorem makes_refreshConnection (connectionId : Nat) (block : Bool) :
    Makes Plain (refreshConnection settings connectionId block) := by
  refine Makes.bind (makes_lockForRefresh plain_of_locking) fun token => ?_
  cases token with
  | none => trivial
  | some token =>
      refine Makes.bind (makes_readObject trivial) fun connection => ?_
      refine Makes.bind (Makes.attempt (makes_refreshUnderLock (fun _ => trivial) (fun _ => trivial) fun _ => trivial)) fun outcome => ?_
      refine Makes.bind (makes_releaseLock ⟨_, rfl⟩ ⟨_, rfl⟩) fun _ => ?_
      split
      · trivial
      · trivial
      · refine Makes.bind ?_ fun _ => trivial
        exact makes_applyTokenBundle fun _ => trivial

theorem makes_freshAccessToken (connectionId : Nat) :
    Makes Plain (freshAccessToken settings connectionId) := by
  refine Makes.bind (makes_readObject trivial) fun connection => ?_
  have hrest : Makes Plain (do
      refreshIfExpiring settings connectionId
      let refreshed ← readObject connectionId
      (Proc.ofExcept (settings.keys.decrypt refreshed.attributes.accessTokenEnc) :
        ConnectorProc PyStr)) := by
    refine Makes.bind ?_ fun _ => Makes.bind (makes_readObject trivial) fun _ => makes_ofExcept _
    refine makes_request_bind.mpr ⟨trivial, fun expiring => ?_⟩
    split
    · refine Makes.bind (makes_refreshConnection connectionId true) fun _ => ?_
      exact makes_request_bind.mpr ⟨trivial, fun _ => makes_ofExcept _⟩
    · trivial
  split
  · trivial
  · exact hrest

/-- An insertion is allowed once the connection is loaded, and takes `P` to `Q`. -/
def Inserts (revoked : Nat → Prop) (P Q : Worker → Prop) (p : Pair) : Prop :=
  ∀ x, P x → x.session.object? p.1 ≠ none → ∀ externalId expiresAt hash,
    Obeys revoked x (.addSubscription p.1 p.2 externalId expiresAt hash) ∧
      ∀ w c, Q (serveNoted w x (.addSubscription p.1 p.2 externalId expiresAt hash) c).2.1

/-- What a procedure that may raise leaves. -/
def Leaves (P Q : Worker → Prop) (x : Worker) (out : Except Failure α) : Prop :=
  (∀ a, out = .ok a → Q x) ∧ ∀ e, out = .error e → P x

theorem leaves_error {e : Failure} (hx : P x) :
    Leaves P Q x (.error e : Except Failure α) :=
  ⟨nofun, fun _ _ => hx⟩

theorem keeps_readObject (connectionId : Nat) :
    Keeps revoked (fun x' out => x' = x ∧ ∀ connection, out = .ok connection →
      ∃ o, x.session.object? connectionId = some o ∧ connection = o.view) x
      (readObject connectionId) := by
  refine follows_request_bind.mpr ⟨trivial, fun w c => ?_⟩
  simp only [serveNoted, serve]
  cases ho : x.session.object? connectionId with
  | none => exact ⟨rfl, fun connection hok => by cases hok⟩
  | some o => exact ⟨rfl, fun connection hok => ⟨o, rfl, (Except.ok.inj hok).symm⟩⟩

theorem Inserts.keeps {p : Pair} (hinsert : Inserts revoked P Q p) (hx : P x)
    (hobject : x.session.object? p.1 ≠ none) (externalId : PyStr) (expiresAt : Instant)
    (hash : String) :
    Keeps revoked (Leaves P Q) x (ask (.addSubscription p.1 p.2 externalId expiresAt hash)) := by
  obtain ⟨hobeys, hafter⟩ := hinsert x hx hobject externalId expiresAt hash
  exact ⟨hobeys, fun w c => ⟨fun _ _ => hafter w c, nofun⟩⟩

theorem keeps_withToken (hP : Stable P) (hx : P x) {connectionId : Nat}
    {f : PyStr → Connection → ConnectorProc Unit}
    (hf : ∀ x token connection, P x → x.session.object? connectionId ≠ none →
      Keeps revoked (Leaves P Q) x (f token connection)) :
    Keeps revoked (Leaves P Q) x (do
      let accessToken ← freshAccessToken settings connectionId
      let connection ← readObject connectionId
      f accessToken connection) := by
  refine keeps_plain_bind hP (makes_freshAccessToken connectionId) hx (fun x₁ token hx₁ => ?_)
    fun _ _ => leaves_error
  refine follows_bind (keeps_readObject connectionId) ?_ ?_
  · rintro x₂ connection ⟨rfl, hread⟩
    obtain ⟨o, ho, -⟩ := hread connection rfl
    exact hf x₂ token connection hx₁ (Option.ne_none_iff_exists'.mpr ⟨o, ho⟩)
  · rintro x₂ e ⟨rfl, -⟩
    exact leaves_error hx₁

theorem still_ask {r : Request} (hr : Still r) : Makes Still (ask r) := ⟨hr, fun _ => trivial⟩

theorem keeps_createGoogleChannel (hP : Stable P) (hx : P x) {connectionId : Nat}
    (hinsert : Inserts revoked P Q (connectionId, capabilityCalendar)) :
    Keeps revoked (Leaves P Q) x (createGoogleChannel settings connectionId) := by
  refine keeps_still_bind (still_ask (r := .generateToken) trivial)
    (fun clientState => ?_) fun _ => leaves_error hx
  refine keeps_still_bind (still_ask (r := .uuid) trivial) (fun channelId => ?_)
    fun _ => leaves_error hx
  refine keeps_withToken hP hx fun x₁ token connection hx₁ hobject => ?_
  refine keeps_still_bind (makes_providerHttpRequest trivial) (fun response => ?_)
    fun _ => leaves_error hx₁
  refine keeps_still_bind (makes_ofExcept _) (fun payload => ?_) fun _ => leaves_error hx₁
  refine keeps_still_bind (still_ask (r := .now) trivial) (fun now => ?_)
    fun _ => leaves_error hx₁
  refine keeps_still_bind (makes_ofExcept _) (fun expiresAt => ?_) fun _ => leaves_error hx₁
  exact hinsert.keeps hx₁ hobject _ _ _

theorem keeps_createGraphSubscription (hP : Stable P) (hx : P x) {connectionId : Nat}
    {capability : String} (hinsert : Inserts revoked P Q (connectionId, capability)) :
    Keeps revoked (Leaves P Q) x (createGraphSubscription settings connectionId capability) := by
  refine keeps_still_bind (still_ask (r := .generateToken) trivial)
    (fun clientState => ?_) fun _ => leaves_error hx
  refine keeps_still_bind (still_ask (r := .now) trivial) (fun now => ?_)
    fun _ => leaves_error hx
  refine keeps_withToken hP hx fun x₁ token connection hx₁ hobject => ?_
  refine keeps_still_bind (makes_providerHttpRequest trivial) (fun response => ?_)
    fun _ => leaves_error hx₁
  refine keeps_still_bind (makes_ofExcept _) (fun payload => ?_) fun _ => leaves_error hx₁
  refine keeps_still_bind (makes_ofExcept _) (fun expiresAt => ?_) fun _ => leaves_error hx₁
  exact hinsert.keeps hx₁ hobject _ _ _

/-- No renewal is under way. -/
def Unreplacing (x : Worker) : Prop := x.plan.replacing = none

theorem stable_unreplacing : Stable Unreplacing where
  sure := fun _ hx hne => absurd hx hne
  same := fun x x' hx hplan _ => by
    unfold Unreplacing
    rw [hplan]
    exact hx
  committed := fun x x' hx _ hplan => by
    have hnone : x.hand.replacing = none := hx
    unfold Unreplacing
    rw [hplan]
    show x.hand.committed.replacing = none
    rw [Hand.committed, hnone]
    rfl
  failed := fun x x' hx _ hplan => by
    unfold Unreplacing
    rw [hplan]
    exact hx

/-- The capabilities that `ensure_subscriptions` has not come to are missing still. -/
structure Creating (provider : ConnectorProvider) (connectionId : Nat) (existing : List String)
    (rest : List String) (x : Worker) : Prop where
  replacing : Unreplacing x
  renewing : x.plan.renewing = none
  due : ∀ capability ∈ rest, capability ∉ existing → creates provider capability = true →
    (connectionId, capability) ∈ x.plan.missing ∧
      (connectionId, capability) ∉ x.hand.adds.map Prod.snd

theorem stable_creating (provider : ConnectorProvider) (connectionId : Nat)
    (existing rest : List String) : Stable (Creating provider connectionId existing rest) where
  sure := fun x hx hne => stable_unreplacing.sure x hx.replacing hne
  same := fun x x' hx hplan haudited => by
    refine ⟨stable_unreplacing.same x x' hx.replacing hplan haudited, ?_, ?_⟩
    · rw [hplan]
      exact hx.renewing
    · have hhand : x'.hand.adds = x.hand.adds := by
        show (adds x'.session).map _ = (adds x.session).map _
        rw [haudited.adds]
      rw [hplan, hhand]
      exact hx.due
  committed := fun x x' hx hpending hplan => by
    refine ⟨stable_unreplacing.committed x x' hx.replacing hpending hplan, ?_, ?_⟩
    · rw [hplan]
      exact hx.renewing
    · intro capability hrest hmissing hcreates
      obtain ⟨hdue, hnot⟩ := hx.due capability hrest hmissing hcreates
      refine ⟨?_, ?_⟩
      · rw [hplan]
        exact Hand.mem_committed_missing.mpr ⟨hdue, hnot⟩
      · show _ ∉ ((adds x'.session).map _).map _
        rw [adds, hpending]
        exact List.not_mem_nil
  failed := fun x x' hx hpending hplan => by
    refine ⟨stable_unreplacing.failed x x' hx.replacing hpending hplan, ?_, ?_⟩
    · rw [hplan]
      exact hx.renewing
    · intro capability hrest hmissing hcreates
      refine ⟨?_, ?_⟩
      · rw [hplan]
        exact (hx.due capability hrest hmissing hcreates).1
      · show _ ∉ ((adds x'.session).map _).map _
        rw [adds, hpending]
        exact List.not_mem_nil

theorem Creating.tail {provider : ConnectorProvider} {connectionId : Nat}
    {existing rest : List String} {capability : String}
    (h : Creating provider connectionId existing (capability :: rest) x) :
    Creating provider connectionId existing rest x :=
  ⟨h.replacing, h.renewing, fun c hc => h.due c (List.mem_cons_of_mem _ hc)⟩

theorem inserts_creating {provider : ConnectorProvider} {connectionId : Nat}
    {existing rest : List String} {capability : String} (hnot : capability ∉ rest)
    (hmissing : capability ∉ existing) (hcreates : creates provider capability = true) :
    Inserts revoked (Creating provider connectionId existing (capability :: rest))
      (Creating provider connectionId existing rest) (connectionId, capability) := by
  intro x hx hobject externalId expiresAt hash
  refine ⟨⟨hobject, hx.replacing, fun _ => hx.due capability List.mem_cons_self hmissing hcreates,
    fun hrenewing => absurd hx.renewing hrenewing⟩, fun w c => ⟨?_, hx.renewing, ?_⟩⟩
  · exact hx.renewing
  · intro other hother hmissing' hcreates'
    obtain ⟨hdue, hfirst⟩ := hx.due other (List.mem_cons_of_mem _ hother) hmissing' hcreates'
    refine ⟨hdue, ?_⟩
    show _ ∉ ((adds (x.session.add _)).map _).map _
    rw [adds_add, List.map_append, List.map_append, List.mem_append, not_or]
    refine ⟨hfirst, fun hlast => ?_⟩
    obtain rfl := (Prod.mk.inj (List.mem_singleton.mp hlast)).2
    exact hnot hother

theorem keeps_ensureEach {connection : Connection} {existing rest : List String}
    (hnodup : rest.Nodup)
    (hgoogle : connection.provider = .google → ∀ capability ∈ rest,
      capability ≠ capabilityMail → capability = capabilityCalendar)
    (hx : Creating connection.provider connection.id existing rest x) :
    Keeps revoked (fun x (_ : Except Failure Unit) => Unreplacing x) x
      (ensureEach settings connection existing rest) := by
  induction rest generalizing x with
  | nil => exact hx.replacing
  | cons capability rest ih =>
      obtain ⟨hnot, hnodup⟩ := List.nodup_cons.mp hnodup
      have hrest {x : Worker} (hx : Creating connection.provider connection.id existing rest x) :
          Keeps revoked (fun x (_ : Except Failure Unit) => Unreplacing x) x
            (ensureEach settings connection existing rest) :=
        ih hnodup (fun hprovider c hc => hgoogle hprovider c (List.mem_cons_of_mem _ hc)) hx
      have hthen {p : ConnectorProc Unit}
          (hp : Keeps revoked (Leaves (Creating connection.provider connection.id existing
            (capability :: rest)) (Creating connection.provider connection.id existing rest)) x p) :
          Keeps revoked (fun x (_ : Except Failure Unit) => Unreplacing x) x (do
            p
            ensureEach settings connection existing rest) :=
        follows_bind hp (fun _ a h => hrest (h.1 a rfl)) fun _ e h => (h.2 e rfl).replacing
      unfold ensureEach
      split
      · exact hrest hx.tail
      · rename_i hmissing
        have hmissing : capability ∉ existing := by simpa using hmissing
        split
        · rename_i hprovider
          split
          · exact hrest hx.tail
          · rename_i hmail
            obtain rfl := hgoogle hprovider capability List.mem_cons_self hmail
            refine hthen (keeps_createGoogleChannel (stable_creating ..) hx
              (inserts_creating hnot hmissing ?_))
            rw [hprovider]
            rfl
        · rename_i hprovider
          refine hthen (keeps_createGraphSubscription (stable_creating ..) hx
            (inserts_creating hnot hmissing ?_))
          simp [creates, hprovider]

theorem nodup_grantedCapabilities (connection : Connection) :
    (grantedCapabilities connection).Nodup := by
  have hall : ((getProvider connection.provider).capabilityScopes.map (·.1)).Nodup := by
    cases connection.provider <;> decide
  exact hall.sublist (List.filter_sublist.map _)

theorem google_capability {connection : Connection} (hprovider : connection.provider = .google)
    {capability : String} (hgranted : capability ∈ grantedCapabilities connection)
    (hmail : capability ≠ capabilityMail) : capability = capabilityCalendar := by
  obtain ⟨entry, hentry, rfl⟩ := List.mem_map.mp hgranted
  have hmem := (List.mem_filter.mp hentry).1
  rw [hprovider] at hmem
  rcases List.mem_pair.mp hmem with rfl | rfl
  · rfl
  · exact absurd rfl hmail

/-- No insertion and no deletion is pending, and what is can be committed. -/
structure Idle (x : Worker) : Prop where
  replacing : Unreplacing x
  adds : adds x.session = []
  removes : removes x.session = []
  sure : SurePending x

theorem idle_of_nil (hreplacing : Unreplacing x) (hpending : x.session.pending = []) : Idle x where
  replacing := hreplacing
  adds := by
    rw [SubscriptionRaces.adds, hpending]
    rfl
  removes := by
    rw [SubscriptionRaces.removes, hpending]
    rfl
  sure := by
    unfold SurePending
    rw [hpending]
    exact fun _ hchange => by cases hchange

theorem stable_idle : Stable Idle where
  sure := fun _ hx _ => hx.sure
  same := fun x x' hx hplan haudited =>
    ⟨stable_unreplacing.same x x' hx.replacing hplan haudited, haudited.adds.trans hx.adds,
      haudited.removes.trans hx.removes, haudited.sure hx.sure⟩
  committed := fun x x' hx hpending hplan =>
    idle_of_nil (stable_unreplacing.committed x x' hx.replacing hpending hplan) hpending
  failed := fun x x' hx hpending hplan =>
    idle_of_nil (stable_unreplacing.failed x x' hx.replacing hpending hplan) hpending

/-- Nothing is added yet under the lock of a renewal, or under none. -/
structure Waiting (lock : Option Nat) (x : Worker) : Prop extends Idle x where
  renewing : x.plan.renewing = lock

theorem stable_waiting (lock : Option Nat) : Stable (Waiting lock) where
  sure := fun _ hx _ => hx.sure
  same := fun x x' hx hplan haudited =>
    ⟨stable_idle.same x x' hx.toIdle hplan haudited, hplan ▸ hx.renewing⟩
  committed := fun x x' hx hpending hplan => by
    refine ⟨stable_idle.committed x x' hx.toIdle hpending hplan, ?_⟩
    rw [hplan]
    exact hx.renewing
  failed := fun x x' hx hpending hplan => by
    refine ⟨stable_idle.failed x x' hx.toIdle hpending hplan, ?_⟩
    rw [hplan]
    exact hx.renewing

theorem keeps_ensureSubscriptions (hx : Waiting none x) (connectionId : Nat) :
    Keeps revoked (fun x (_ : Except Failure Unit) => Unreplacing x) x
      (ensureSubscriptions settings connectionId) := by
  refine follows_bind (keeps_readObject connectionId) ?_ ?_
  · rintro x₁ connection ⟨rfl, hread⟩
    obtain ⟨o, ho, rfl⟩ := hread connection rfl
    obtain ⟨-, hid⟩ := mem_of_object? ho
    refine follows_request_bind.mpr ⟨Option.ne_none_iff_exists'.mpr ⟨o, ho⟩, fun w c => ?_⟩
    refine keeps_ensureEach (nodup_grantedCapabilities _)
      (fun hprovider _ hgranted hmail => google_capability hprovider hgranted hmail)
      ⟨hx.replacing, hx.renewing, fun capability hgranted hmissing hcreates => ⟨?_, ?_⟩⟩
    · refine mem_missingFor.mpr ⟨o, ho, capability, hgranted, hmissing, hcreates, ?_⟩
      rw [← hid]
      rfl
    · show _ ∉ ((adds x₁.session).map _).map _
      rw [hx.adds]
      exact List.not_mem_nil
  · rintro x₁ e ⟨rfl, -⟩
    exact hx.replacing

theorem Waiting.opened (hx : Waiting none x) (tenantId : Nat) (w : World Unit) (c : Choice) :
    Waiting none (serveNoted w x (.openSession tenantId) c).2.1 :=
  ⟨idle_of_nil hx.replacing rfl, hx.renewing⟩

theorem plain_ask {r : Request} (hr : Plain r) : Makes Plain (ask r) := ⟨hr, fun _ => trivial⟩

theorem keeps_syncInSession (hx : Waiting none x) (tenantId connectionId : Nat) :
    Keeps revoked (fun x (_ : Except Failure Unit) => Unreplacing x) x
      (syncInSession settings tenantId connectionId) := by
  refine follows_request_bind.mpr ⟨hx.replacing, fun w c => ?_⟩
  refine keeps_plain_bind (stable_waiting none)
    (plain_ask (r := .getConnection connectionId) trivial) (hx.opened tenantId w c)
    (fun x₁ found hx₁ => ?_) fun _ _ hx₁ => hx₁.replacing
  split
  · exact hx₁.replacing
  · refine keeps_still_bind (makes_readObject trivial) (fun connection => ?_)
      fun _ => hx₁.replacing
    split
    · exact hx₁.replacing
    · refine follows_attempt_bind (keeps_ensureSubscriptions hx₁ connectionId) ?_
      rintro x₂ (e | _) hx₂
      · exact keeps_plain stable_unreplacing
          (Makes.bind (makes_assign trivial) fun _ => makes_commit trivial) hx₂
      · exact keeps_plain stable_unreplacing (makes_commit trivial) hx₂

theorem keeps_syncConnectionSubscriptions (hx : Waiting none x) (slug : String)
    (connectionId : Nat) :
    Keeps revoked (fun x (_ : Except Failure Unit) => Unreplacing x) x
      (ConnectorService.syncConnectionSubscriptions settings slug connectionId) := by
  refine keeps_still_bind (still_ask (r := .activeTenants) trivial) (fun tenants => ?_)
    fun _ => hx.replacing
  split
  · exact hx.replacing
  · refine keeps_still_bind (still_ask (r := .selectRoute connectionId) trivial) (fun route => ?_)
      fun _ => hx.replacing
    split
    · exact hx.replacing
    · exact keeps_syncInSession hx _ _

/-- The row of a new channel is added, and the old one not deleted yet. -/
structure Replacing (subscriptionId : Nat) (x : Worker) : Prop where
  replacing : x.plan.replacing = some subscriptionId
  removes : subscriptionId ∉ removes x.session
  sure : SurePending x

theorem surePending_nil (hpending : x.session.pending = []) : SurePending x := by
  unfold SurePending
  rw [hpending]
  exact fun _ hchange => by cases hchange

theorem stable_replacing (subscriptionId : Nat) : Stable (Replacing subscriptionId) where
  sure := fun _ hx _ => hx.sure
  same := fun x x' hx hplan haudited =>
    ⟨hplan ▸ hx.replacing, haudited.removes ▸ hx.removes, haudited.sure hx.sure⟩
  committed := fun x x' hx hpending hplan => by
    refine ⟨?_, ?_, surePending_nil hpending⟩
    · rw [hplan]
      exact Hand.committed_replacing.mpr ⟨hx.replacing, hx.removes⟩
    · rw [SubscriptionRaces.removes, hpending]
      exact List.not_mem_nil
  failed := fun x x' hx hpending hplan => by
    refine ⟨?_, ?_, surePending_nil hpending⟩
    · rw [hplan]
      exact hx.replacing
    · rw [SubscriptionRaces.removes, hpending]
      exact List.not_mem_nil

theorem SurePending.add (h : SurePending x) {change : Change}
    (hx' : x'.session = x.session.add change) (hchange : Change.Sure change) :
    SurePending x' := by
  unfold SurePending
  rw [hx']
  intro other hother
  rcases List.mem_append.mp hother with hold | hnew
  · exact h other hold
  · rw [List.mem_singleton.mp hnew]
    exact hchange

theorem inserts_replacing (subscriptionId : Nat) (p : Pair) :
    Inserts revoked (Waiting (some subscriptionId)) (Replacing subscriptionId) p := by
  intro x hx hobject externalId expiresAt hash
  refine ⟨⟨hobject, hx.replacing, fun hnone => ?_, fun _ => hx.adds⟩, fun w c => ⟨hx.renewing, ?_,
    hx.sure.add rfl trivial⟩⟩
  · rw [hx.renewing] at hnone
    cases hnone
  · show _ ∉ removes (x.session.add _)
    rw [removes_add, hx.removes]
    exact List.not_mem_nil

/-- What is replaced is about to be deleted, in a commit that other tasks cannot make fail. -/
def Closing (x : Worker) : Prop :=
  Unreplacing x ∨ ∃ subscriptionId, x.plan.replacing = some subscriptionId ∧
    subscriptionId ∈ removes x.session ∧ SurePending x

/-- The requests of the handler of a renewal, and of the end of its lock. -/
def Calm : Request → Prop
  | .assign .. | .addAuditEvent _ | .lockHolder _ | .deleteLock _ => True
  | _ => False

theorem calm_serve (revoked : Nat → Prop) {r : Request} (hr : Calm r) : Obeys revoked x r ∧ ∀ w c,
    (serveNoted w x r c).2.1.plan.replacing = x.plan.replacing ∧
      Audited x (serveNoted w x r c).2.1 := by
  cases r with
  | assign connectionId value =>
      refine ⟨trivial, fun w c => ?_⟩
      simp only [serveNoted, serve]
      split
      · exact ⟨rfl, audited_self rfl⟩
      · split
        · exact ⟨rfl, audited_self rfl⟩
        · exact ⟨rfl, audited_self rfl⟩
  | addAuditEvent event =>
      exact ⟨trivial, fun w c => ⟨rfl, [{ event with tenantId := x.session.tenantId }], rfl⟩⟩
  | lockHolder name =>
      refine ⟨trivial, fun w c => ⟨?_, audited_self rfl⟩⟩
      cases name <;> rfl
  | deleteLock name => exact ⟨trivial, fun w c => ⟨rfl, audited_self rfl⟩⟩
  | _ => exact hr.elim

theorem Closing.calm (h : Closing x) (hreplacing : x'.plan.replacing = x.plan.replacing)
    (haudited : Audited x x') : Closing x' := by
  rcases h with hnone | ⟨subscriptionId, hsome, hremoved, hsure⟩
  · exact .inl (hreplacing.trans hnone)
  · exact .inr ⟨subscriptionId, hreplacing.trans hsome, haudited.removes ▸ hremoved,
      haudited.sure hsure⟩

theorem Idle.calm (h : Idle x) (hreplacing : x'.plan.replacing = x.plan.replacing)
    (haudited : Audited x x') : Idle x' :=
  ⟨hreplacing.trans h.replacing, haudited.adds.trans h.adds, haudited.removes.trans h.removes,
    haudited.sure h.sure⟩

/-- A property that calm requests keep. -/
def CalmKeeps (P : Worker → Prop) : Prop :=
  ∀ x x', P x → x'.plan.replacing = x.plan.replacing → Audited x x' → P x'

theorem calmKeeps_closing : CalmKeeps Closing := fun _ _ hx => hx.calm

theorem calmKeeps_idle : CalmKeeps Idle := fun _ _ hx => hx.calm

theorem keeps_calm_bind (hP : CalmKeeps P) {R : Worker → Except Failure α → Prop} {r : Request}
    {f : Answer r → ConnectorProc α} (hr : Calm r) (hx : P x)
    (hf : ∀ w c, P (serveNoted w x r c).2.1 →
      Keeps revoked R (serveNoted w x r c).2.1 (f (serveNoted w x r c).2.2)) :
    Keeps revoked R x (ask r >>= f) := by
  obtain ⟨hobeys, hafter⟩ := calm_serve revoked hr
  exact follows_request_bind.mpr ⟨hobeys, fun w c =>
    hf w c (hP x _ hx (hafter w c).1 (hafter w c).2)⟩

theorem keeps_assign (hP : CalmKeeps P) (hx : P x) {connectionId : Nat}
    {value : Stamp → Attributes → Except Failure Attributes}
    (hvalue : ∀ stamp a, ∃ a', value stamp a = .ok a') :
    Keeps revoked (fun x out => P x ∧ out = .ok ()) x (assign connectionId value) := by
  refine keeps_calm_bind hP trivial hx fun w c hx' => ?_
  have hok : (serveNoted w x (.assign connectionId value) c).2.2 = .ok () := by
    simp only [serveNoted, serve]
    cases x.session.object? connectionId with
    | none => rfl
    | some o =>
        obtain ⟨a', ha'⟩ := hvalue ⟨c.now, c.nonce⟩ o.current
        simp only [ha']
  rw [hok]
  exact ⟨hx', rfl⟩

theorem keeps_releaseLock (hP : CalmKeeps P) (hx : P x) (name : LockName) (token : Nat) :
    Keeps revoked (fun x out => P x ∧ out = .ok ()) x (releaseLock name token) := by
  refine keeps_calm_bind hP trivial hx fun w c hx' => ?_
  split
  · exact keeps_calm_bind hP trivial hx' fun w c hx'' => ⟨hx'', rfl⟩
  · exact ⟨hx', rfl⟩

theorem keeps_stopGoogleChannel (hP : Stable P) (hx : P x) (connectionId : Nat) :
    Keeps revoked (fun x out => P x ∧ out = .ok ()) x
      (stopGoogleChannel settings connectionId) := by
  have hmakes : Makes Plain (requestWithFreshToken settings connectionId "POST"
      "/calendar/v3/channels/stop") :=
    Makes.bind (makes_freshAccessToken _) fun _ =>
      Makes.bind (makes_readObject trivial) fun _ => makes_providerHttpRequest trivial
  exact follows_attempt_bind (keeps_plain hP hmakes hx) fun x outcome hx => ⟨hx, rfl⟩

theorem keeps_renewSubscription {subscription : Subscription}
    (hx : Waiting (some subscription.id) x) (connection : Connection) :
    Keeps revoked (fun x (_ : Except Failure Unit) => Closing x) x
      (renewSubscription settings connection subscription) := by
  have hidle {x : Worker} (hx : Waiting (some subscription.id) x) : Closing x := .inl hx.replacing
  unfold renewSubscription
  split
  · refine keeps_still_bind (still_ask (r := .now) trivial) (fun now => ?_) fun _ => hidle hx
    refine keeps_plain_bind (stable_waiting _) (makes_freshAccessToken _) hx
      (fun x₁ token hx₁ => ?_) fun _ _ => hidle
    refine keeps_still_bind (makes_providerHttpRequest trivial) (fun response => ?_)
      fun _ => hidle hx₁
    exact ⟨trivial, fun w c => .inl hx₁.replacing⟩
  · refine follows_bind (keeps_createGoogleChannel (stable_waiting _) hx
      (inserts_replacing subscription.id _)) (fun x₁ a h => ?_) fun x₁ e h => hidle (h.2 e rfl)
    refine follows_bind (keeps_stopGoogleChannel (stable_replacing subscription.id) (h.1 a rfl) _)
      ?_ ?_
    · rintro x₂ _ ⟨hx₂, -⟩
      refine ⟨hx₂.replacing, fun w c => .inr ⟨subscription.id, hx₂.replacing, ?_,
        hx₂.sure.add rfl trivial⟩⟩
      show _ ∈ removes (x₂.session.add _)
      rw [removes_add]
      exact List.mem_append_right _ (List.mem_singleton_self _)
    · rintro x₂ e ⟨-, hout⟩
      cases hout

theorem keeps_renewOnRoute {subscription : Subscription}
    (hx : Waiting (some subscription.id) x) (connection : Connection) :
    Keeps revoked (fun x out => Closing x ∧ (out = .ok false → Idle x)) x
      (renewOnRoute settings connection subscription) := by
  refine keeps_still_bind (still_ask (r := .selectRoute connection.id) trivial) (fun route => ?_)
    fun _ => ⟨.inl hx.replacing, nofun⟩
  cases route with
  | none => exact ⟨.inl hx.replacing, fun _ => hx.toIdle⟩
  | some route =>
      refine follows_bind (keeps_renewSubscription hx connection) (fun x₁ _ hx₁ => ?_)
        fun x₁ e hx₁ => ⟨hx₁, nofun⟩
      exact follows_bind (keeps_assign calmKeeps_closing hx₁ fun _ _ => ⟨_, rfl⟩)
        (fun x₂ _ hx₂ => ⟨hx₂.1, nofun⟩) fun x₂ e hx₂ => ⟨hx₂.1, nofun⟩

theorem keeps_renewUnderLock {subscription : Subscription}
    (hx : Waiting (some subscription.id) x) (connection : Connection) :
    Keeps revoked (fun x out => ∃ outcome, out = .ok outcome ∧ Closing x ∧
      (outcome = none → Idle x)) x (renewUnderLock settings connection subscription) := by
  refine follows_attempt_bind (keeps_renewOnRoute hx connection) ?_
  rintro x₁ (e | renewed) ⟨hx₁, hidle⟩
  · refine follows_bind (keeps_assign calmKeeps_closing hx₁ fun _ _ => ⟨_, rfl⟩) ?_ ?_
    · rintro x₂ _ ⟨hx₂, -⟩
      exact keeps_calm_bind calmKeeps_closing trivial hx₂ fun w c hx₃ => ⟨_, rfl, hx₃, nofun⟩
    · rintro x₂ e ⟨-, hout⟩
      cases hout
  · cases renewed with
    | true => exact ⟨_, rfl, hx₁, nofun⟩
    | false => exact ⟨_, rfl, hx₁, fun _ => hidle rfl⟩

/-- A task that ends has nothing left to replace. -/
def Ended (x : Worker) : Prop := x.plan.replacing = none ∨ x.plan.failed = true

theorem keeps_commit (hx : Closing x) :
    Keeps revoked (fun x out => Ended x ∧ (out = .ok () → Idle x)) x commit := by
  refine follows_request_bind.mpr ⟨fun hreplacing => ?_, fun w c => ?_⟩
  · rcases hx with hnone | ⟨_, -, -, hsure⟩
    · exact absurd hnone hreplacing
    · exact hsure
  · simp only [serveNoted, serve, World.commit, Worker.noted]
    cases w.tables.commit x.session.objects x.session.pending with
    | ok t =>
        have hnone : x.hand.committed.replacing = none := by
          rcases hx with hnone | ⟨subscriptionId, hsome, hremoved, -⟩
          · have hnone : x.hand.replacing = none := hnone
            rw [Hand.committed, hnone]
            rfl
          · refine Option.eq_none_iff_forall_ne_some.mpr fun id hid => ?_
            obtain ⟨hid, hkept⟩ := Hand.committed_replacing.mp hid
            obtain rfl := Option.some.inj (hsome.symm.trans hid)
            exact hkept hremoved
        exact ⟨.inl hnone, fun _ => idle_of_nil hnone rfl⟩
    | error e =>
        refine ⟨?_, fun hok => by cases hok⟩
        rcases hx with hnone | ⟨subscriptionId, hsome, -, -⟩
        · exact .inl hnone
        · refine .inr ?_
          show (x.plan.failed || x.plan.replacing.isSome) = true
          rw [hsome]
          exact Bool.or_true _

theorem keeps_renewLocked {subscription : Subscription}
    (hx : Waiting (some subscription.id) x) (connection : Connection) (token : Nat)
    (report : RenewalReport) :
    Keeps revoked (Leaves Ended Idle) x
      (renewLocked settings connection subscription token report) := by
  refine follows_bind (keeps_renewUnderLock hx connection) ?_ ?_
  · rintro x₁ outcome ⟨_, ⟨⟩, hx₁, hidle⟩
    have hcommit {x : Worker} (hx : Closing x) (counted : RenewalReport) :
        Keeps revoked (Leaves Ended Idle) x (do
          commit
          return counted) :=
      follows_bind (keeps_commit hx) (fun x₂ _ hx₂ => ⟨fun _ _ => hx₂.2 rfl, nofun⟩)
        fun x₂ e hx₂ => leaves_error hx₂.1
    cases outcome with
    | none =>
        refine follows_bind (keeps_releaseLock calmKeeps_idle (hidle rfl) _ _) ?_ ?_
        · exact fun x₂ _ hx₂ => ⟨fun _ _ => hx₂.1, nofun⟩
        · rintro x₂ e ⟨-, hout⟩
          cases hout
    | some renewed =>
        refine follows_bind (keeps_releaseLock calmKeeps_closing hx₁ _ _) ?_ ?_
        · rintro x₂ _ ⟨hx₂, -⟩
          cases renewed with
          | true => exact hcommit hx₂ _
          | false => exact hcommit hx₂ _
        · rintro x₂ e ⟨-, hout⟩
          cases hout
  · rintro x₁ e ⟨outcome, hout, -⟩
    cases hout

theorem keeps_acquireLock (hx : Idle x) (subscriptionId : Nat) :
    Keeps revoked (fun x (out : Except Failure (Option Nat)) =>
      (∀ token, out = .ok (some token) → Waiting (some subscriptionId) x) ∧
        ((∀ token, out ≠ .ok (some token)) → Idle x)) x
      (ask (.acquireLock (.renew subscriptionId))) := by
  refine ⟨trivial, fun w c => ?_⟩
  have hafter (acquired : Option Nat) : Idle ⟨x.session,
      if acquired.isSome then { x.plan with renewing := some subscriptionId } else x.plan⟩ := by
    cases acquired with
    | none => exact hx
    | some token => exact ⟨hx.replacing, hx.adds, hx.removes, hx.sure⟩
  refine ⟨fun token hout => ⟨hafter _, ?_⟩, fun _ => hafter _⟩
  have hsome : (w.acquireLock c.now (.renew subscriptionId) c.uuid).2 = some token :=
    Except.ok.inj hout
  show Plan.renewing (if (w.acquireLock c.now (.renew subscriptionId) c.uuid).2.isSome then
    { x.plan with renewing := some subscriptionId } else x.plan) = some subscriptionId
  rw [hsome]
  rfl

theorem keeps_renewOne (hx : Idle x) (subscription : Subscription) (report : RenewalReport) :
    Keeps revoked (Leaves Ended Idle) x (renewOne settings subscription report) := by
  have hidle {x : Worker} (hx : Idle x) {out : Except Failure RenewalReport} :
      Leaves Ended Idle x out := ⟨fun _ _ => hx, fun _ _ => .inl hx.replacing⟩
  refine keeps_plain_bind stable_idle (plain_ask (r := .getConnection subscription.connectionId)
    trivial) hx (fun x₁ found hx₁ => ?_) fun _ _ hx₁ => hidle hx₁
  split
  · exact hidle hx₁
  · refine keeps_still_bind (makes_readObject trivial) (fun connection => ?_) fun _ => hidle hx₁
    split
    · exact hidle hx₁
    · refine follows_bind (keeps_acquireLock hx₁ subscription.id) (fun x₂ acquired hx₂ => ?_)
        fun x₂ e hx₂ => hidle (hx₂.2 nofun)
      cases acquired with
      | none => exact hidle (hx₂.2 nofun)
      | some token => exact keeps_renewLocked (hx₂.1 token rfl) connection token report

theorem keeps_renewEach (hx : Idle x) (subscriptions : List Subscription)
    (report : RenewalReport) :
    Keeps revoked (Leaves Ended Idle) x (renewEach settings subscriptions report) := by
  induction subscriptions generalizing x report with
  | nil => exact ⟨fun _ _ => hx, nofun⟩
  | cons subscription rest ih =>
      exact follows_bind (keeps_renewOne hx subscription report)
        (fun x₁ counted hx₁ => ih (hx₁.1 counted rfl) counted)
        fun x₁ e hx₁ => leaves_error (hx₁.2 e rfl)

theorem keeps_renewTenants (hx : Idle x) (horizon : Instant) (tenants : List Tenant) :
    Keeps revoked (Leaves Ended Idle) x (renewTenants settings horizon tenants) := by
  induction tenants generalizing x with
  | nil => exact ⟨fun _ _ => hx, nofun⟩
  | cons tenant rest ih =>
      have htenant : Keeps revoked (Leaves Ended Idle) x
          (renewTenant settings horizon tenant) := by
        refine follows_request_bind.mpr ⟨hx.replacing, fun w c => ?_⟩
        have hopened : Idle (serveNoted w x (.openSession tenant.id) c).2.1 :=
          idle_of_nil hx.replacing rfl
        refine keeps_still_bind (still_ask (r := .selectExpiringSubscriptions horizon) trivial)
          (fun expiring => ?_) fun _ => leaves_error (.inl hopened.replacing)
        exact follows_bind (keeps_renewEach hopened expiring _)
          (fun x₁ report hx₁ => ⟨fun _ _ => hx₁.1 report rfl, nofun⟩)
          fun x₁ e hx₁ => leaves_error (hx₁.2 e rfl)
      refine follows_bind htenant (fun x₁ report hx₁ => ?_)
        fun x₁ e hx₁ => leaves_error (hx₁.2 e rfl)
      exact follows_bind (ih (hx₁.1 report rfl))
        (fun x₂ reports hx₂ => ⟨fun _ _ => hx₂.1 reports rfl, nofun⟩)
        fun x₂ e hx₂ => leaves_error (hx₂.2 e rfl)

theorem keeps_renewExpiringSubscriptions (hx : Idle x) :
    Keeps revoked (fun x (_ : Except Failure (List (String × RenewalReport))) => Ended x) x
      (ConnectorService.renewExpiringSubscriptions settings) := by
  refine keeps_still_bind (still_ask (r := .now) trivial) (fun now => ?_)
    fun _ => .inl hx.replacing
  refine keeps_still_bind (still_ask (r := .activeTenants) trivial) (fun tenants => ?_)
    fun _ => .inl hx.replacing
  refine (keeps_renewTenants hx (now + renewalLead) tenants).mono fun x₁ out hx₁ => ?_
  cases out with
  | ok reports => exact .inl (hx₁.1 reports rfl).replacing
  | error e => exact hx₁.2 e rfl

theorem keeps_connectorRevoke (hx : Waiting none x) (tenantId : Nat) (actor : User)
    {connectionId : Nat} (hrevoked : revoked connectionId) :
    Keeps revoked (fun x (_ : Except Failure Unit) => Unreplacing x) x
      (ConnectorService.connectorRevoke settings tenantId actor connectionId) := by
  refine follows_request_bind.mpr ⟨hx.replacing, fun w c => ?_⟩
  have hopened : Unreplacing (serveNoted w x (.openSession tenantId) c).2.1 := hx.replacing
  refine keeps_plain_bind stable_unreplacing (plain_ask (r := .getConnection connectionId) trivial)
    hopened (fun x₁ found hx₁ => ?_) fun _ _ hx₁ => hx₁
  split
  · exact hx₁
  · refine keeps_still_bind (makes_readObject trivial) (fun connection => ?_) fun _ => hx₁
    split
    · exact hx₁
    · have hrevoke : Makes Plain (revokeConnection settings connectionId) := by
        refine Makes.bind (makes_readObject trivial) fun connection => ?_
        split
        · refine Makes.bind (Makes.attempt ?_) fun _ => makes_assign trivial
          refine Makes.bind (makes_ofExcept _) fun _ => ?_
          exact makes_request_bind.mpr ⟨trivial, fun _ => trivial⟩
        · exact makes_assign trivial
      refine keeps_plain_bind stable_unreplacing hrevoke hx₁ (fun x₂ _ hx₂ => ?_)
        fun _ _ hx₂ => hx₂
      refine follows_request_bind.mpr ⟨hrevoked, fun w c => ?_⟩
      refine keeps_plain stable_unreplacing (Makes.bind (plain_ask trivial) fun _ => ?_) hx₂
      refine Makes.bind (makes_commit trivial) fun _ => Makes.bind (plain_ask trivial) fun _ => ?_
      exact makes_request_bind.mpr ⟨trivial, fun _ => makes_ofExcept _⟩

theorem keeps_job {job : Job} (hrevoked : ∀ connectionId ∈ job.revokes, revoked connectionId)
    (hx : Waiting none x) :
    Keeps revoked (fun x (_ : Except Failure Unit) => Ended x) x (job.proc settings) := by
  cases job with
  | syncConnectionSubscriptions slug connectionId =>
      exact (keeps_syncConnectionSubscriptions hx slug connectionId).mono fun _ _ => .inl
  | renewExpiringSubscriptions =>
      exact follows_bind (keeps_renewExpiringSubscriptions hx.toIdle) (fun _ _ hx₁ => hx₁)
        fun _ _ hx₁ => hx₁
  | connectorRevoke tenantId actor connectionId =>
      exact (keeps_connectorRevoke hx tenantId actor (hrevoked connectionId rfl)).mono
        fun _ _ => .inl

end Discipline

section Runs

variable {settings : Settings} {w : World Unit} {jobs : List Job}

abbrev RacePool := Pool ConnectorInterface Failure (World Unit) Worker Unit

def launch (settings : Settings) (w : World Unit) (jobs : List Job) : RacePool where
  shared := w
  threads := jobs.map fun job => ({}, job.proc settings)

/-- Every row has a key of its own and belongs to a connection of its tenant, and no two rows
are for one capability of a connection. -/
structure OneEach (t : Tables) : Prop where
  connections : (t.connections.map (·.id)).Nodup
  located : ∀ s ∈ t.subscriptions, Located t s.connectionId s.tenantId
  keys : (t.subscriptions.map (·.id)).Nodup
  single : ∀ s ∈ t.subscriptions, ∀ s' ∈ t.subscriptions, pairOf s = pairOf s' → s = s'

theorem eq_of_mem_launch {x : Worker} {b : Bool} (hx : (x, b) ∈ (launch settings w jobs).marked) :
    x = {} := by
  obtain ⟨thread, hthread, hmarked⟩ := List.mem_map.mp hx
  obtain ⟨job, -, rfl⟩ := List.mem_map.mp hthread
  exact (Prod.mk.inj hmarked).1.symm

theorem waiting_launched : Waiting none {} where
  replacing := rfl
  adds := rfl
  removes := rfl
  sure := fun _ hchange => by cases hchange
  renewing := rfl

theorem OneEach.consistent (h : OneEach w.tables) {kept : Pair → Prop}
    (hkept : ∀ p, kept p → ∃ s ∈ w.tables.subscriptions, pairOf s = p) :
    Consistent kept w (launch settings w jobs).marked := by
  have hempty {i : Nat} {hand : Hand Nat Pair} {b : Bool}
      (hat : At (handsOf (launch settings w jobs).marked) i hand b) : hand = {} := by
    obtain ⟨x, hx, rfl⟩ := at_handsOf.mp hat
    rw [eq_of_mem_launch (List.mem_of_getElem? hx)]
    rfl
  refine ⟨h.connections, h.located, fun x hx => ?_, fun x hx => ?_, ?_⟩
  · rw [eq_of_mem_launch hx]
    refine ⟨?_, ?_, ?_⟩
    all_goals
      intro _ hmem
      cases hmem
  · rw [eq_of_mem_launch hx]
  · refine sound_of_empty (fun _ _ _ => hempty) ?_ ?_ fun p hp => ?_
    · simpa [rowsOf, Function.comp_def] using h.keys
    · intro a ha b hb hpair
      obtain ⟨s, hs, rfl⟩ := mem_rowsOf.mp ha
      obtain ⟨s', hs', rfl⟩ := mem_rowsOf.mp hb
      rw [h.single s hs s' hs' hpair]
    · obtain ⟨s, hs, rfl⟩ := hkept p hp
      exact ⟨s.id, mem_rowsOf.mpr ⟨s, hs, rfl⟩⟩

theorem OneEach.run (h : OneEach w.tables) {kept : Pair → Prop}
    (hkept : ∀ p, kept p → (∃ s ∈ w.tables.subscriptions, pairOf s = p) ∧ ¬ Revoked jobs p.1)
    {schedule : List (Nat × Choice)} {pool : RacePool}
    (halong : Along (Pool.step serveNoted) (MarkedMeets KeepsApart) (launch settings w jobs)
      schedule)
    (hrun : run (Pool.step serveNoted) (launch settings w jobs) schedule = some pool) :
    Consistent kept pool.shared pool.marked := by
  refine pool_invariant_marked (P := Ended) (G := Consistent kept)
    (fun w workers i x r c b hG hi (hobeys : Obeys (Revoked jobs) x r) hcond hended => ?_)
    (fun thread hthread => ?_) (h.consistent fun p hp => (hkept p hp).1) halong hrun
  · exact hG.advance hi (hG.advances hi (fun p hp => (hkept p hp).2) hobeys hcond) hended
  · obtain ⟨job, hjob, rfl⟩ := List.mem_map.mp hthread
    exact keeps_job (fun connectionId hid => ⟨job, hjob, hid⟩) waiting_launched

theorem Consistent.eq_or_replaced {kept : Pair → Prop} {pool : RacePool}
    (h : Consistent kept pool.shared pool.marked) {s s' : Subscription}
    (hs : s ∈ pool.shared.tables.subscriptions) (hs' : s' ∈ pool.shared.tables.subscriptions)
    (hpair : pairOf s = pairOf s') :
    s = s' ∨ ∃ thread ∈ pool.threads, thread.2.running = true ∧
      (thread.1.plan.replacing = some s.id ∨ thread.1.plan.replacing = some s'.id) := by
  have hkeys : (pool.shared.tables.subscriptions.map (·.id)).Nodup := by
    simpa [rowsOf, Function.comp_def] using h.sound.distinct
  rcases h.sound.eq_or_replaced (mem_rowsOf.mpr ⟨s, hs, rfl⟩) (mem_rowsOf.mpr ⟨s', hs', rfl⟩) hpair
    with hsame | ⟨j, hand, hrunning, hreplaced⟩
  · exact .inl (List.inj_on_of_nodup_map hkeys hs hs' (Prod.mk.inj hsame).1)
  · obtain ⟨x, hx, rfl⟩ := at_handsOf.mp hrunning
    obtain ⟨thread, hthread, hmarked⟩ := List.mem_map.mp (List.mem_of_getElem? hx)
    obtain ⟨rfl, htrue⟩ := Prod.mk.inj hmarked
    exact .inr ⟨thread, hthread, htrue, hreplaced⟩

theorem Consistent.exists_kept {kept : Pair → Prop} {workers : Workers}
    (h : Consistent kept w workers) {p : Pair} (hp : kept p) :
    ∃ s ∈ w.tables.subscriptions, pairOf s = p := by
  obtain ⟨id, hrow, -⟩ := h.sound.held p hp
  obtain ⟨s, hs, hkey⟩ := mem_rowsOf.mp hrow
  exact ⟨s, hs, (Prod.mk.inj hkey).2⟩

theorem consistent_run (h : OneEach w.tables) {schedule : List (Nat × Choice)} {pool : RacePool}
    (halong : Along (Pool.step serveNoted) (MarkedMeets KeepsApart) (launch settings w jobs)
      schedule)
    (hrun : run (Pool.step serveNoted) (launch settings w jobs) schedule = some pool) :
    Consistent (fun p => (∃ s ∈ w.tables.subscriptions, pairOf s = p) ∧ ¬ Revoked jobs p.1)
      pool.shared pool.marked :=
  h.run (fun _ => id) halong hrun

end Runs

/-- After syncs, renewal beats and revocations that interleave, once none of them runs, no two
rows are for one capability of a connection, and where there was a row before there is one
still, unless the connection was revoked. -/
theorem one_subscription_each (settings : Settings) {w : World Unit} (hw : OneEach w.tables)
    {jobs : List Job} {schedule : List (Nat × Choice)} {pool : RacePool}
    (halong : Along (Pool.step serveNoted) (MarkedMeets KeepsApart) (launch settings w jobs)
      schedule)
    (hrun : run (Pool.step serveNoted) (launch settings w jobs) schedule = some pool)
    (hended : ∀ thread ∈ pool.threads, thread.2.running = false) :
    OneEach pool.shared.tables ∧
      ∀ s ∈ w.tables.subscriptions, ¬ Revoked jobs s.connectionId →
        ∃ s' ∈ pool.shared.tables.subscriptions, pairOf s' = pairOf s := by
  have hdone := consistent_run hw halong hrun
  refine ⟨⟨hdone.connections, hdone.located, ?_, fun s hs s' hs' hpair => ?_⟩, fun s hs hnone => ?_⟩
  · simpa [rowsOf, Function.comp_def] using hdone.sound.distinct
  · rcases hdone.eq_or_replaced hs hs' hpair with hsame | ⟨thread, hthread, hrunning, -⟩
    · exact hsame
    · rw [hended thread hthread] at hrunning
      cases hrunning
  · exact hdone.exists_kept ⟨⟨s, hs, rfl⟩, hnone⟩

/-- In every state that syncs, renewal beats and revocations lead to, two rows are for one
capability of a connection only while a renewal that still runs replaces one of them, and
where there was a row at the start there is one, unless the connection was revoked. -/
theorem single_unless_replaced (settings : Settings) {w : World Unit} (hw : OneEach w.tables)
    {jobs : List Job} {schedule : List (Nat × Choice)} {pool : RacePool}
    (halong : Along (Pool.step serveNoted) (MarkedMeets KeepsApart) (launch settings w jobs)
      schedule)
    (hrun : run (Pool.step serveNoted) (launch settings w jobs) schedule = some pool) :
    (∀ s ∈ pool.shared.tables.subscriptions, ∀ s' ∈ pool.shared.tables.subscriptions,
      pairOf s = pairOf s' → s = s' ∨ ∃ thread ∈ pool.threads, thread.2.running = true ∧
        (thread.1.plan.replacing = some s.id ∨ thread.1.plan.replacing = some s'.id)) ∧
      ∀ s ∈ w.tables.subscriptions, ¬ Revoked jobs s.connectionId →
        ∃ s' ∈ pool.shared.tables.subscriptions, pairOf s' = pairOf s := by
  have hdone := consistent_run hw halong hrun
  exact ⟨fun s hs s' hs' hpair => hdone.eq_or_replaced hs hs' hpair,
    fun s hs hnone => hdone.exists_kept ⟨⟨s, hs, rfl⟩, hnone⟩⟩

/-- A Google calendar, its access token good for a long time, and no channel yet. -/
def unwatched : World Unit where
  tables := tablesWith [⟨1, 1, .google, .tenant, none,
      ⟨"contact@example.org", [py "https://www.googleapis.com/auth/calendar"],
        framedKeys.encrypt 1 (py "access"), framedKeys.encrypt 2 (py "refresh"),
        1000000000000000, .active, none, none⟩⟩] []
    [⟨"route-key", "google", 1, 1⟩]
  locks := []
  queue := []
  endpoint := ()
  history := []

/-- So many steps of one task, which draws this key. -/
def turns (task now uuid count : Nat) : List (Nat × Choice) :=
  List.replicate count
    (task, { now := now, uuid := uuid, answer := .response ⟨200, .json (.obj [])⟩ })

def syncThenBeat : List Job := [.syncConnectionSubscriptions "acme" 1, .renewExpiringSubscriptions]

/-- The beat comes a week after the sync. -/
def weekApart : List (Nat × Choice) := turns 0 0 5 17 ++ turns 1 604800000000 6 27

def syncTwice : List Job :=
  [.syncConnectionSubscriptions "acme" 1, .syncConnectionSubscriptions "acme" 1]

/-- The second sync runs between the SELECT of the first and its commit. -/
def overtaken : List (Nat × Choice) := turns 0 0 5 10 ++ turns 1 0 6 17 ++ turns 0 0 5 7

theorem oneEach_unwatched : OneEach unwatched.tables where
  connections := by decide
  located := by
    intro s hs
    cases hs
  keys := List.nodup_nil
  single := by
    intro s hs
    cases hs

def threadsEnded (pool : RacePool) : Bool := pool.threads.all fun thread => !thread.2.running

theorem one_channel_after_the_beat :
    OneEach unwatched.tables ∧
      Along (Pool.step serveNoted) (MarkedMeets KeepsApart)
        (launch configured unwatched syncThenBeat) weekApart ∧
      ∃ pool, run (Pool.step serveNoted) (launch configured unwatched syncThenBeat) weekApart =
          some pool ∧ threadsEnded pool = true ∧
        rowsOf pool.shared.tables = [(6, (1, "calendar"))] ∧ OneEach pool.shared.tables := by
  have halong : Along (Pool.step serveNoted) (MarkedMeets KeepsApart)
      (launch configured unwatched syncThenBeat) weekApart := by
    decide +kernel
  have hdone : ((run (Pool.step serveNoted) (launch configured unwatched syncThenBeat)
      weekApart).map fun pool => (threadsEnded pool, rowsOf pool.shared.tables)) =
        some (true, [(6, (1, "calendar"))]) := by
    decide +kernel
  obtain ⟨pool, hrun, hpool⟩ := Option.map_eq_some_iff.mp hdone
  obtain ⟨hended, hrows⟩ := Prod.mk.inj hpool
  refine ⟨oneEach_unwatched, halong, pool, hrun, hended, hrows, ?_⟩
  refine (one_subscription_each configured oneEach_unwatched halong hrun fun thread hthread => ?_).1
  exact Bool.not_eq_true' _ ▸ List.all_eq_true.mp hended thread hthread

/-- Neither of two syncs finds the channel of the other, and both remain. -/
theorem two_channels_after_two_syncs :
    OneEach unwatched.tables ∧
      ∃ pool, run (Pool.step serveNoted) (launch configured unwatched syncTwice) overtaken =
          some pool ∧ threadsEnded pool = true ∧
        rowsOf pool.shared.tables = [(6, (1, "calendar")), (5, (1, "calendar"))] := by
  have hdone : ((run (Pool.step serveNoted) (launch configured unwatched syncTwice)
      overtaken).map fun pool => (threadsEnded pool, rowsOf pool.shared.tables)) =
        some (true, [(6, (1, "calendar")), (5, (1, "calendar"))]) := by
    decide +kernel
  obtain ⟨pool, hrun, hpool⟩ := Option.map_eq_some_iff.mp hdone
  obtain ⟨hended, hrows⟩ := Prod.mk.inj hpool
  exact ⟨oneEach_unwatched, pool, hrun, hended, hrows⟩

/-- The same calendar with a channel that expires. -/
def watched : World Unit :=
  { unwatched with
    tables := { unwatched.tables with subscriptions := [⟨5, 1, 1, "calendar", [], 0, "hash"⟩] } }

def beatAndSync : List Job :=
  [.renewExpiringSubscriptions, .syncConnectionSubscriptions "acme" 1]

/-- The access token expires after the beat has created the new channel, so that the refresh
commits both; then the sync runs. -/
def midway : List (Nat × Choice) :=
  turns 0 1 6 18 ++
    List.replicate 13
      (0, { now := 1000000000000000, uuid := 7, answer := tokenAnswer "access" "refresh" }) ++
    turns 1 1 8 8

theorem oneEach_watched : OneEach watched.tables where
  connections := by decide
  located := by
    intro s hs
    obtain rfl := List.mem_singleton.mp hs
    exact List.mem_cons_self
  keys := by decide
  single := by
    intro s hs s' hs' _
    rw [List.mem_singleton.mp hs, List.mem_singleton.mp hs']

theorem two_channels_during_the_renewal :
    OneEach watched.tables ∧
      Along (Pool.step serveNoted) (MarkedMeets KeepsApart) (launch configured watched beatAndSync)
        midway ∧
      ∃ pool, run (Pool.step serveNoted) (launch configured watched beatAndSync) midway =
          some pool ∧
        rowsOf pool.shared.tables = [(5, (1, "calendar")), (6, (1, "calendar"))] ∧
        ∃ thread ∈ pool.threads, thread.2.running = true ∧
          (thread.1.plan.replacing = some 5 ∨ thread.1.plan.replacing = some 6) := by
  have halong : Along (Pool.step serveNoted) (MarkedMeets KeepsApart)
      (launch configured watched beatAndSync) midway := by
    decide +kernel
  have hdone : ((run (Pool.step serveNoted) (launch configured watched beatAndSync)
      midway).map fun pool => rowsOf pool.shared.tables) =
        some [(5, (1, "calendar")), (6, (1, "calendar"))] := by
    decide +kernel
  obtain ⟨pool, hrun, hrows⟩ := Option.map_eq_some_iff.mp hdone
  refine ⟨oneEach_watched, halong, pool, hrun, hrows, ?_⟩
  have hmem (a : Nat × Pair) (ha : a ∈ rowsOf pool.shared.tables) := mem_rowsOf.mp ha
  obtain ⟨s, hs, hfirst⟩ := hmem (5, (1, "calendar")) (by rw [hrows]; decide)
  obtain ⟨s', hs', hsecond⟩ := hmem (6, (1, "calendar")) (by rw [hrows]; decide)
  obtain ⟨hid, hpair⟩ := Prod.mk.inj hfirst
  obtain ⟨hid', hpair'⟩ := Prod.mk.inj hsecond
  rcases (single_unless_replaced configured oneEach_watched halong hrun).1 s hs s' hs'
    (hpair.trans hpair'.symm) with rfl | ⟨thread, hthread, hrunning, hreplaced⟩
  · rw [hid] at hid'
    cases hid'
  · rw [hid, hid'] at hreplaced
    exact ⟨thread, hthread, hrunning, hreplaced⟩

end Socle.SubscriptionRaces
