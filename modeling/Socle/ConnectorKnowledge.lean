import Socle.ConnectorTransactions
import Socle.Knowledge
import Socle.WebhookReception

/-!
What the connector operations have been told before they ask: they open sessions for active
tenants only, and name no connection and no subscription that they have not been shown under such
a session.
-/

namespace Socle.ConnectorKnowledge

open Socle.Procedures
open Socle.Knowledge
open Socle.DirectoryStore (Instant Tenant User AuditEvent)
open Socle.TokenExchange
open Socle.ConnectorStore
open Socle.ConnectorService
open Socle.ConnectorTransactions
open Socle.WebhookDispatch hiding receiveWebhook
open Socle.WebhookReception

inductive Fact where
  | tenant (tenantId : Nat)
  | connection (connectionId : Nat)
  | subscription (subscriptionId : Nat)
  /-- The route of this connection may be looked up. -/
  | route (connectionId : Nat)
  | key (routeKey : String)
  /-- The event may be handed to a worker. -/
  | handed (task : Task)
  /-- An event may be recorded as received. -/
  | record (connectionId : Nat) (payload : List (String × Option String))

/-- What is the same all along: the active tenants, and the events that the requests of the
providers call for, by the subscription whose secret they carry. -/
structure Env where
  actives : List Tenant
  calls : Subscription → Set Task

def isActive (tenant : Tenant) : Prop := tenant.state = .active ∧ tenant.deletedAt = none

theorem refused_of_inactive {tenant : Tenant} (h : ¬ isActive tenant) :
    tenant.state ≠ .active ∨ tenant.deletedAt.isSome = true := by
  rw [isActive, not_and_or] at h
  exact h.imp id Option.isSome_iff_ne_none.mpr

theorem isActive_of_not_refused {tenant : Tenant}
    (h : ¬ (tenant.state ≠ .active ∨ tenant.deletedAt.isSome = true)) : isActive tenant := by
  rw [not_or, not_not, Bool.not_eq_true, Option.isSome_eq_false_iff,
    Option.isNone_iff_eq_none] at h
  exact h

def about (connectionId : Nat) : Set Fact := {.connection connectionId, .route connectionId}

/-- What an answer tells: the tenants that are active, the rows of the session's tenant, and the
keys that were drawn. -/
def told (env : Env) : (r : Request) → Answer r → Set Fact
  | .generateToken => fun key => {.key key}
  | .activeTenants => fun tenants => {fact | ∃ t ∈ tenants, fact = .tenant t.id}
  | .selectTenantBySlug _ => fun found =>
      {fact | ∃ t ∈ found, isActive t ∧ fact = .tenant t.id}
  | .getTenant _ => fun found => {fact | ∃ t ∈ found, isActive t ∧ fact = .tenant t.id}
  | .selectActiveConnections => fun ids => {fact | ∃ id ∈ ids, fact ∈ about id}
  | .getConnection connectionId => fun found => {fact | found = true ∧ fact ∈ about connectionId}
  | .findConnection .. => fun found => {fact | ∃ id ∈ found, fact ∈ about id}
  | .addConnection .. => fun connectionId => about connectionId
  | .readObject connectionId => fun found =>
      {fact | ∃ c ∈ found, fact ∈ about c.id ∪ about connectionId}
  | .selectExpiringSubscriptions _ => fun rows => {fact | ∃ s ∈ rows, fact = .subscription s.id}
  | .selectSubscriptions _ => fun rows =>
      {fact | ∃ s ∈ rows, ∃ task ∈ env.calls s, fact = .handed task}
  | _ => fun _ => ∅

/-- What a request names of what is not its own. -/
def needs : Request → Set Fact
  | .openSession tenantId => {.tenant tenantId}
  | .refreshObject connectionId => {.connection connectionId}
  | .exchange connectionId _ => {.connection connectionId}
  | .callApi connectionId .. => {.connection connectionId}
  | .exchangeCode tenantId .. => {.tenant tenantId}
  | .accountInfo tenantId .. => {.tenant tenantId}
  | .revokeRemote connectionId .. => {.connection connectionId}
  | .addSubscription connectionId .. => {.connection connectionId}
  | .setExpiry subscriptionId _ => {.subscription subscriptionId}
  | .deleteSubscription subscriptionId => {.subscription subscriptionId}
  | .selectRoute connectionId => {.route connectionId}
  | .selectRouteByKey routeKey _ => {.key routeKey}
  | .addRoute route => {.tenant route.tenantId, .key route.routeKey}
  | .deleteRoutesOf connectionId => {.connection connectionId}
  | .addAuditEvent event =>
      {fact | event.action = "connector.event_received" ∧
        fact = .record event.resourceId event.payload}
  | .enqueue (.eventReceived slug connectionId provider capability changeType resourceId) =>
      {.handed (.eventReceived slug connectionId provider capability changeType resourceId)}
  | _ => ∅

/-- The active tenants never change meanwhile; a query answers with rows that match. -/
def possible (env : Env) : (r : Request) → Answer r → Prop
  | .activeTenants => fun tenants => tenants = env.actives
  | .selectSubscriptions connectionId => fun rows => ∀ s ∈ rows, s.connectionId = connectionId
  | _ => fun _ => True

/-- A tenant that is not active is like no tenant. -/
def alike : (r : Request) → Answer r → Answer r → Prop
  | .selectTenantBySlug _ | .getTenant _ => fun found found' =>
      (∃ t, found = some t ∧ ¬ isActive t) ∧ found' = none
  | _ => fun _ _ => False

def rules (env : Env) : Rules ConnectorInterface Fact :=
  ⟨fun r known => needs r ⊆ known, told env, possible env, alike⟩

def Plain : Request → Prop
  | .selectTenantBySlug _ | .getTenant _ => False
  | _ => True

theorem not_alike_of_plain {r : Request} (hr : Plain r) (a b : Answer r) : ¬ alike r a b := by
  cases r with
  | selectTenantBySlug | getTenant => exact hr.elim
  | _ => exact id

/-- The requests that name no more than this connection. -/
def Concerns (connectionId : Nat) (r : Request) : Prop := needs r ⊆ about connectionId ∧ Plain r

/-- The requests that name nothing. -/
def Free (r : Request) : Prop := needs r ⊆ ∅ ∧ Plain r

theorem free_concerns {connectionId : Nat} (r : Request) (hr : Free r) :
    Concerns connectionId r := ⟨hr.1.trans (Set.empty_subset _), hr.2⟩

theorem connection_subset (connectionId : Nat) :
    {Fact.connection connectionId} ⊆ about connectionId :=
  Set.singleton_subset_iff.mpr (Set.mem_insert _ _)

theorem route_subset (connectionId : Nat) : {Fact.route connectionId} ⊆ about connectionId :=
  Set.singleton_subset_iff.mpr (Set.mem_insert_of_mem _ (Set.mem_singleton _))

theorem needs_addAuditEvent {event : AuditEvent} (h : event.action ≠ "connector.event_received")
    {known : Set Fact} : needs (.addAuditEvent event) ⊆ known :=
  fun _ hfact => (h hfact.1).elim

variable {α β : Type} {env : Env} {known : Set Fact}

abbrev Heeds (env : Env) (known : Set Fact) (p : ConnectorProc α) : Prop :=
  Knowledge.Heeds (rules env) (fun _ _ => True) known p

/-- The procedure returns a connection that it knows. -/
abbrev HeedsKnowing (env : Env) (connectionOf : α → Nat) (known : Set Fact)
    (p : ConnectorProc α) : Prop :=
  Knowledge.Heeds (rules env) (fun known a => about (connectionOf a) ⊆ known) known p

section Rules

theorem heeds_free {p : ConnectorProc α} (hp : Makes Free p) : Heeds env known p :=
  heeds_of_makes hp fun _ hr =>
    ⟨fun _ _ => hr.1.trans (Set.empty_subset _), not_alike_of_plain hr.2⟩

theorem heeds_concerns {p : ConnectorProc α} {connectionId : Nat}
    (hp : Makes (Concerns connectionId) p) (hknown : about connectionId ⊆ known) :
    Heeds env known p :=
  heeds_of_makes hp fun _ hr =>
    ⟨fun _ hlater => (hr.1.trans hknown).trans hlater, not_alike_of_plain hr.2⟩

theorem heeds_bind {p : ConnectorProc α} {f : α → ConnectorProc β} (hp : Heeds env known p)
    (hf : ∀ later a, known ⊆ later → Heeds env later (f a)) :
    Heeds env known (p >>= f) :=
  Knowledge.heeds_bind hp fun later a hlater _ => hf later a hlater

theorem heeds_attempt_bind {p : ConnectorProc α} {f : Except Failure α → ConnectorProc β}
    (hp : Heeds env known p)
    (hf : ∀ later outcome, known ⊆ later → Heeds env later (f outcome)) :
    Heeds env known (p.attempt >>= f) :=
  Knowledge.heeds_attempt_bind hp fun later outcome hlater _ => hf later outcome hlater

theorem heeds_ofExcept (x : Except Failure α) : Heeds env known (.ofExcept x) := by
  cases x <;> trivial

theorem heeds_ask_bind {Q : Set Fact → α → Prop} {r : Request} {f : Answer r → ConnectorProc α}
    (hr : needs r ⊆ known) (hplain : Plain r)
    (hf : ∀ a, Knowledge.Heeds (rules env) Q (known ∪ told env r a) (f a)) :
    Knowledge.Heeds (rules env) Q known (ask r >>= f) :=
  ⟨hr, fun a b hab => (not_alike_of_plain hplain a b hab).elim, fun a _ => hf a⟩

theorem heeds_told {r : Request} {Q : Set Fact → Answer r → Prop} (hr : needs r ⊆ known)
    (hplain : Plain r) (hQ : ∀ a, Q (known ∪ told env r a) a) :
    Knowledge.Heeds (rules env) Q known (ask r) :=
  ⟨hr, fun a b hab => (not_alike_of_plain hplain a b hab).elim, fun a _ => hQ a⟩

theorem heeds_ask {r : Request} (hr : needs r ⊆ known) (hplain : Plain r) :
    Heeds env known (ask r) := heeds_told hr hplain fun _ => trivial

theorem heeds_activeTenants_bind {f : List Tenant → ConnectorProc α}
    (hf : ∀ tenants, tenants = env.actives →
      Heeds env (known ∪ told env .activeTenants tenants) (f tenants)) :
    Heeds env known (ask .activeTenants >>= f) :=
  ⟨Set.empty_subset _, fun _ _ hab => hab.elim, hf⟩

theorem heeds_readObject (connectionId : Nat) :
    Knowledge.Heeds (rules env)
      (fun known (c : Connection) => about c.id ⊆ known ∧ about connectionId ⊆ known) known
      (readObject connectionId) := by
  refine heeds_ask_bind (Set.empty_subset _) trivial fun found => ?_
  cases found with
  | none => trivial
  | some connection =>
      have htold {fact : Fact} (hfact : fact ∈ about connection.id ∪ about connectionId) :
          fact ∈ known ∪ told env (.readObject connectionId) (some connection) :=
        Set.mem_union_right _ ⟨connection, rfl, hfact⟩
      exact ⟨fun _ h => htold (Set.mem_union_left _ h), fun _ h => htold (Set.mem_union_right _ h)⟩

theorem heeds_readObject_bind {connectionId : Nat} {f : Connection → ConnectorProc α}
    (hf : ∀ later connection, known ⊆ later → about connection.id ⊆ later →
      about connectionId ⊆ later → Heeds env later (f connection)) :
    Heeds env known (readObject connectionId >>= f) :=
  Knowledge.heeds_bind (heeds_readObject connectionId) fun later connection hlater hknown =>
    hf later connection hlater hknown.1 hknown.2

theorem heeds_openSession_bind {tenantId : Nat} {f : Unit → ConnectorProc α}
    (htenant : .tenant tenantId ∈ known)
    (hf : ∀ later, known ⊆ later → Heeds env later (f ())) :
    Heeds env known (ask (.openSession tenantId) >>= f) :=
  heeds_ask_bind (Set.singleton_subset_iff.mpr htenant) trivial fun _ =>
    hf _ Set.subset_union_left

end Rules

section Tokens

variable (settings : Settings)

theorem makes_assign (connectionId : Nat)
    (value : Stamp → Attributes → Except Failure Attributes) :
    Makes Free (assign connectionId value) :=
  ConnectorTransactions.makes_assign ⟨Set.Subset.rfl, trivial⟩

theorem makes_commit : Makes Free commit :=
  ConnectorTransactions.makes_commit ⟨Set.Subset.rfl, trivial⟩

theorem makes_release (name : LockName) (token : Nat) : Makes Free (releaseLock name token) :=
  makes_releaseLock ⟨Set.Subset.rfl, trivial⟩ ⟨Set.Subset.rfl, trivial⟩

theorem makes_applyTokenBundle (connectionId : Nat) (bundle : TokenBundle) :
    Makes Free (applyTokenBundle settings connectionId bundle) :=
  ConnectorTransactions.makes_applyTokenBundle fun _ => ⟨Set.Subset.rfl, trivial⟩

theorem makes_refreshUnderLock (connection : Connection) :
    Makes (Concerns connection.id) (refreshUnderLock settings connection) := by
  have hassign (value : Stamp → Attributes → Except Failure Attributes) :
      Makes (Concerns connection.id) (assign connection.id value) :=
    (makes_assign connection.id value).mono free_concerns
  refine Makes.bind (Makes.attempt ?_) fun outcome => ?_
  · refine (makes_ofExcept _).bind fun token => makes_runWithBackoff ?_ _
    refine (makes_ofExcept _).bind fun _ => ?_
    exact makes_request_bind.mpr ⟨⟨connection_subset _, trivial⟩, fun _ => makes_ofExcept _⟩
  · split
    · trivial
    · refine (hassign _).bind fun _ => ?_
      refine makes_request_bind.mpr ⟨free_concerns _ ⟨?_, trivial⟩, fun _ => trivial⟩
      exact needs_addAuditEvent (by simp)
    · split
      · exact (hassign _).bind fun _ => trivial
      · trivial

theorem heeds_refreshConnection {connectionId : Nat} (hknown : about connectionId ⊆ known)
    (block : Bool) : Heeds env known (refreshConnection settings connectionId block) := by
  refine heeds_bind (heeds_concerns (makes_lockForRefresh fun r hr => ?_) hknown)
    fun later lock _ => ?_
  · cases r with
    | refreshObject id => exact ⟨hr ▸ connection_subset _, trivial⟩
    | acquireLock | lockHolder | deleteLock | expiring =>
        exact free_concerns _ ⟨Set.Subset.rfl, trivial⟩
    | _ => exact hr.elim
  cases lock with
  | none => trivial
  | some token =>
      refine heeds_readObject_bind fun later connection _ hknown _ => ?_
      refine heeds_attempt_bind (heeds_concerns (makes_refreshUnderLock settings connection) hknown)
        fun later outcome _ => ?_
      refine heeds_bind (heeds_free (makes_release ..)) fun later _ _ => ?_
      split
      · trivial
      · trivial
      · exact heeds_bind (heeds_free (makes_applyTokenBundle ..)) fun _ _ _ => trivial

theorem heeds_freshAccessToken (connectionId : Nat) :
    Heeds env known (freshAccessToken settings connectionId) := by
  refine heeds_readObject_bind fun later connection _ _ hknown => ?_
  split
  · trivial
  refine heeds_bind ?_ fun later _ _ => heeds_readObject_bind fun later _ _ _ _ =>
    heeds_ofExcept _
  refine heeds_ask_bind (Set.empty_subset _) trivial fun expiring => ?_
  split
  · refine heeds_bind (heeds_refreshConnection settings ?_ _) fun _ _ _ => heeds_free makes_commit
    exact hknown.trans Set.subset_union_left
  · trivial

theorem heeds_providerHttpRequest {connection : Connection}
    (hknown : about connection.id ⊆ known) (method path : String) (accessToken : PyStr) :
    Heeds env known (providerHttpRequest connection method path accessToken) :=
  heeds_concerns (makes_providerHttpRequest ⟨connection_subset _, trivial⟩) hknown

theorem heeds_requestWithFreshToken (connectionId : Nat) (method path : String) :
    Heeds env known (requestWithFreshToken settings connectionId method path) :=
  heeds_bind (heeds_freshAccessToken ..) fun _ _ _ =>
    heeds_readObject_bind fun _ _ _ hknown _ => heeds_providerHttpRequest hknown ..

theorem heeds_capabilityRequest {connection : Connection}
    (hknown : about connection.id ⊆ known) (method path : String) :
    Heeds env known (capabilityRequest settings connection method path) := by
  unfold capabilityRequest
  split
  · refine heeds_bind (heeds_freshAccessToken ..) fun later _ hlater => ?_
    exact heeds_concerns (makes_callSdk ⟨connection_subset _, trivial⟩ _) (hknown.trans hlater)
  · exact heeds_requestWithFreshToken ..

theorem heeds_capabilityRequests {connection : Connection}
    (hknown : about connection.id ⊆ known) (requests : List (String × String)) :
    Heeds env known (capabilityRequests settings connection requests) := by
  induction requests generalizing known with
  | nil => trivial
  | cons request rest ih =>
      obtain ⟨method, path⟩ := request
      exact heeds_bind (heeds_capabilityRequest settings hknown ..) fun _ _ hlater =>
        ih (hknown.trans hlater)

theorem heeds_getCapability (connectionId : Nat) (name : String) :
    Knowledge.Heeds (rules env) (fun known (c : Connection) => about c.id ⊆ known) known
      (getCapability connectionId name) := by
  refine Knowledge.heeds_bind (heeds_readObject connectionId) fun later connection _ hknown => ?_
  repeat' split
  all_goals first | exact hknown.1 | trivial

theorem heeds_capabilityCall {tenantId : Nat} (htenant : .tenant tenantId ∈ known)
    (connectionId : Nat) (name : String) (requests : List (String × String)) :
    Heeds env known (capabilityCall settings tenantId connectionId name requests) := by
  refine heeds_openSession_bind htenant fun later _ => ?_
  refine heeds_ask_bind (Set.empty_subset _) trivial fun found => ?_
  split
  · trivial
  refine Knowledge.heeds_bind (heeds_getCapability connectionId name)
    fun _ connection _ hknown => ?_
  exact heeds_capabilityRequests settings hknown requests

end Tokens

section Subscriptions

variable (settings : Settings)

theorem heeds_createGoogleChannel (connectionId : Nat) :
    Heeds env known (createGoogleChannel settings connectionId) := by
  refine heeds_ask_bind (Set.empty_subset _) trivial fun clientState => ?_
  refine heeds_ask_bind (Set.empty_subset _) trivial fun channelId => ?_
  refine heeds_bind (heeds_freshAccessToken ..) fun later _ _ => ?_
  refine heeds_readObject_bind fun later connection _ hknown hasked => ?_
  refine heeds_bind (heeds_providerHttpRequest hknown ..) fun later response hcalled => ?_
  refine heeds_bind (heeds_ofExcept _) fun later payload hpayload => ?_
  refine heeds_ask_bind (Set.empty_subset _) trivial fun now => ?_
  refine heeds_bind (heeds_ofExcept _) fun later expiresAt hexpires => ?_
  refine heeds_ask ((connection_subset _).trans ?_) trivial
  exact (((hasked.trans hcalled).trans hpayload).trans Set.subset_union_left).trans hexpires

theorem heeds_createGraphSubscription (connectionId : Nat) (capability : String) :
    Heeds env known (createGraphSubscription settings connectionId capability) := by
  refine heeds_ask_bind (Set.empty_subset _) trivial fun clientState => ?_
  refine heeds_ask_bind (Set.empty_subset _) trivial fun now => ?_
  refine heeds_bind (heeds_freshAccessToken ..) fun later _ _ => ?_
  refine heeds_readObject_bind fun later connection _ hknown hasked => ?_
  refine heeds_bind (heeds_providerHttpRequest hknown ..) fun later response hcalled => ?_
  refine heeds_bind (heeds_ofExcept _) fun later payload hpayload => ?_
  refine heeds_bind (heeds_ofExcept _) fun later expiresAt hexpires => ?_
  refine heeds_ask ((connection_subset _).trans ?_) trivial
  exact ((hasked.trans hcalled).trans hpayload).trans hexpires

theorem heeds_ensureEach (connection : Connection) (existing capabilities : List String) :
    Heeds env known (ensureEach settings connection existing capabilities) := by
  induction capabilities generalizing known with
  | nil => trivial
  | cons capability rest ih =>
      unfold ensureEach
      split
      · exact ih
      split
      · split
        · exact ih
        · exact heeds_bind (heeds_createGoogleChannel ..) fun _ _ _ => ih
      · exact heeds_bind (heeds_createGraphSubscription ..) fun _ _ _ => ih

theorem heeds_ensureSubscriptions (connectionId : Nat) :
    Heeds env known (ensureSubscriptions settings connectionId) :=
  heeds_readObject_bind fun _ _ _ _ _ =>
    heeds_ask_bind (Set.empty_subset _) trivial fun _ => heeds_ensureEach ..

theorem heeds_renewSubscription {connection : Connection} {subscription : Subscription}
    (hconnection : about connection.id ⊆ known)
    (hsubscription : .subscription subscription.id ∈ known) :
    Heeds env known (renewSubscription settings connection subscription) := by
  unfold renewSubscription
  split
  · refine heeds_ask_bind (Set.empty_subset _) trivial fun now => ?_
    refine heeds_bind (heeds_freshAccessToken ..) fun later _ hlater => ?_
    refine heeds_bind (heeds_providerHttpRequest
      ((hconnection.trans Set.subset_union_left).trans hlater) ..) fun later' _ hlater' => ?_
    refine heeds_ask (Set.singleton_subset_iff.mpr ?_) trivial
    exact hlater' (hlater (Set.mem_union_left _ hsubscription))
  · refine heeds_bind (heeds_createGoogleChannel ..) fun later _ hlater => ?_
    refine heeds_bind (heeds_attempt_bind (heeds_requestWithFreshToken ..) fun _ _ _ => trivial)
      fun later' _ hlater' => ?_
    exact heeds_ask (Set.singleton_subset_iff.mpr (hlater' (hlater hsubscription))) trivial

end Subscriptions

section Tasks

variable (settings : Settings)

theorem makes_recordAuditEvent {action : String} (haction : action ≠ "connector.event_received")
    (resourceType : String) (resourceId : Nat) (payload : List (String × Option String)) :
    Makes Free (recordAuditEvent action resourceType resourceId payload) :=
  ⟨⟨needs_addAuditEvent haction, trivial⟩, fun _ => trivial⟩

theorem heeds_refreshEach (lead : Instant) (ids : List Nat)
    (hids : ∀ id ∈ ids, about id ⊆ known) (report : RefreshReport) :
    Heeds env known (refreshEach settings lead ids report) := by
  induction ids generalizing known report with
  | nil => trivial
  | cons connectionId rest ih =>
      have hrest {later : Set Fact} (hlater : known ⊆ later) : ∀ id ∈ rest, about id ⊆ later :=
        fun id hid => (hids id (List.mem_cons_of_mem _ hid)).trans hlater
      refine heeds_ask_bind (Set.empty_subset _) trivial fun expiring => ?_
      split
      · refine heeds_bind ?_ fun later report hlater => ?_
        · have hknown : about connectionId ⊆
              known ∪ told env (.expiring connectionId lead) expiring :=
            (hids connectionId List.mem_cons_self).trans Set.subset_union_left
          refine heeds_attempt_bind (heeds_refreshConnection settings hknown false)
            fun later outcome _ => ?_
          repeat' split
          all_goals trivial
        · refine heeds_bind (heeds_free makes_commit) fun _ _ hcommit => ih ?_ report
          exact hrest ((Set.subset_union_left.trans hlater).trans hcommit)
      · exact ih (hrest Set.subset_union_left) report

theorem heeds_refreshTenants (lead : Instant) (tenants : List Tenant)
    (htenants : ∀ t ∈ tenants, .tenant t.id ∈ known) :
    Heeds env known (refreshTenants settings lead tenants) := by
  induction tenants generalizing known with
  | nil => trivial
  | cons tenant rest ih =>
      refine heeds_bind ?_ fun later report hlater => heeds_bind (ih ?_) fun _ _ _ => trivial
      · refine heeds_openSession_bind (htenants _ List.mem_cons_self) fun later _ => ?_
        refine heeds_ask_bind (Set.empty_subset _) trivial fun connections => ?_
        refine heeds_bind (heeds_refreshEach settings lead connections (fun id hid => ?_) _)
          fun _ _ _ => trivial
        exact fun _ hfact => Set.mem_union_right _ ⟨id, hid, hfact⟩
      · exact fun t ht => hlater (htenants t (List.mem_cons_of_mem _ ht))

theorem heeds_refreshExpiringTokens : Heeds env known (refreshExpiringTokens settings) := by
  refine heeds_ask_bind (Set.empty_subset _) trivial fun tenants => ?_
  exact heeds_refreshTenants settings _ tenants fun t ht =>
    Set.mem_union_right _ ⟨t, ht, rfl⟩

theorem heeds_renewUnderLock {connection : Connection} {subscription : Subscription}
    (hconnection : about connection.id ⊆ known)
    (hsubscription : .subscription subscription.id ∈ known) :
    Heeds env known (renewUnderLock settings connection subscription) := by
  refine heeds_attempt_bind ?_ fun later outcome _ => ?_
  · refine heeds_ask_bind ((route_subset _).trans hconnection) trivial fun route => ?_
    split
    · trivial
    · refine heeds_bind (heeds_renewSubscription settings
        (hconnection.trans Set.subset_union_left)
        (Set.mem_union_left _ hsubscription)) fun _ _ _ => ?_
      exact heeds_bind (heeds_free (makes_assign ..)) fun _ _ _ => trivial
  · split
    · trivial
    · trivial
    · refine heeds_bind (heeds_free (makes_assign ..)) fun _ _ _ => ?_
      exact heeds_bind (heeds_free (makes_recordAuditEvent (by decide) ..)) fun _ _ _ => trivial

theorem heeds_renewOne {subscription : Subscription}
    (hsubscription : .subscription subscription.id ∈ known) (report : RenewalReport) :
    Heeds env known (renewOne settings subscription report) := by
  refine heeds_ask_bind (Set.empty_subset _) trivial fun found => ?_
  split
  · trivial
  refine heeds_readObject_bind fun later connection hlater hconnection _ => ?_
  split
  · trivial
  refine heeds_ask_bind (Set.empty_subset _) trivial fun token => ?_
  split
  · trivial
  have hknown := hlater (Set.mem_union_left _ hsubscription)
  refine heeds_bind (heeds_renewUnderLock settings (hconnection.trans Set.subset_union_left)
    (Set.mem_union_left _ hknown)) fun _ outcome _ => ?_
  refine heeds_bind (heeds_free (makes_release ..)) fun _ _ _ => ?_
  split
  · trivial
  · exact heeds_bind (heeds_free makes_commit) fun _ _ _ => trivial
  · exact heeds_bind (heeds_free makes_commit) fun _ _ _ => trivial

theorem heeds_renewEach (subscriptions : List Subscription)
    (hsubscriptions : ∀ s ∈ subscriptions, .subscription s.id ∈ known) (report : RenewalReport) :
    Heeds env known (renewEach settings subscriptions report) := by
  induction subscriptions generalizing known report with
  | nil => trivial
  | cons subscription rest ih =>
      refine heeds_bind (heeds_renewOne settings (hsubscriptions _ List.mem_cons_self) report)
        fun later report hlater => ih ?_ report
      exact fun s hs => hlater (hsubscriptions s (List.mem_cons_of_mem _ hs))

theorem heeds_renewTenants (horizon : Instant) (tenants : List Tenant)
    (htenants : ∀ t ∈ tenants, .tenant t.id ∈ known) :
    Heeds env known (renewTenants settings horizon tenants) := by
  induction tenants generalizing known with
  | nil => trivial
  | cons tenant rest ih =>
      refine heeds_bind ?_ fun later report hlater => heeds_bind (ih ?_) fun _ _ _ => trivial
      · refine heeds_openSession_bind (htenants _ List.mem_cons_self) fun later _ => ?_
        refine heeds_ask_bind (Set.empty_subset _) trivial fun expiring => ?_
        refine heeds_bind (heeds_renewEach settings expiring (fun s hs => ?_) _)
          fun _ _ _ => trivial
        exact Set.mem_union_right _ ⟨s, hs, rfl⟩
      · exact fun t ht => hlater (htenants t (List.mem_cons_of_mem _ ht))

theorem heeds_renewExpiringSubscriptions :
    Heeds env known (renewExpiringSubscriptions settings) := by
  refine heeds_ask_bind (Set.empty_subset _) trivial fun now => ?_
  refine heeds_ask_bind (Set.empty_subset _) trivial fun tenants => ?_
  exact heeds_renewTenants settings _ tenants fun t ht =>
    Set.mem_union_right _ ⟨t, ht, rfl⟩

theorem known_of_filter {tenants : List Tenant} {slug : String} {tenant : Tenant}
    {rest : List Tenant} (h : (tenants.filter fun t => t.slug == slug) = tenant :: rest) :
    .tenant tenant.id ∈ known ∪ told env .activeTenants tenants := by
  have hmem : tenant ∈ tenants.filter fun t => t.slug == slug := h ▸ List.mem_cons_self
  exact Set.mem_union_right _ ⟨tenant, List.mem_of_mem_filter hmem, rfl⟩

theorem heeds_syncConnectionSubscriptions {slug : String} {connectionId : Nat}
    (hroute : ∀ t ∈ env.actives, t.slug = slug → .route connectionId ∈ known) :
    Heeds env known (syncConnectionSubscriptions settings slug connectionId) := by
  refine heeds_activeTenants_bind fun tenants hactives => ?_
  split
  · trivial
  rename_i tenant rest hfound
  have hmem : tenant ∈ tenants.filter fun t => t.slug == slug := hfound ▸ List.mem_cons_self
  obtain ⟨htenant, hslug⟩ := List.mem_filter.mp hmem
  have hasked := hroute tenant (hactives ▸ htenant) (beq_iff_eq.mp hslug)
  refine heeds_ask_bind (Set.singleton_subset_iff.mpr (Set.mem_union_left _ hasked)) trivial
    fun route => ?_
  split
  · trivial
  refine heeds_openSession_bind (Set.mem_union_left _ (known_of_filter hfound)) fun later _ => ?_
  refine heeds_ask_bind (Set.empty_subset _) trivial fun found => ?_
  split
  · trivial
  refine heeds_readObject_bind fun later connection _ _ _ => ?_
  split
  · trivial
  refine heeds_attempt_bind (heeds_ensureSubscriptions ..) fun later outcome _ => ?_
  split
  · exact heeds_free makes_commit
  · exact heeds_bind (heeds_free (makes_assign ..)) fun _ _ _ => heeds_free makes_commit

/-- The payload of the record of an event. -/
def received (provider capability changeType : String) (resourceId : Option String) :
    List (String × Option String) :=
  [("provider", some provider), ("capability", some capability), ("change_type", some changeType),
    ("resource_id", resourceId)]

theorem heeds_processConnectorEvent {handlers : String → List (ConnectorProc Unit)}
    (hhandlers : ∀ capability, ∀ handler ∈ handlers capability, ∀ known,
      Heeds env known handler) (slug : String) {connectionId : Nat}
    {provider capability changeType : String} {resourceId : Option String}
    (hrecord : .record connectionId (received provider capability changeType resourceId) ∈ known) :
    Heeds env known (processConnectorEvent handlers slug connectionId provider capability
      changeType resourceId) := by
  have heach (handlers : List (ConnectorProc Unit))
      (h : ∀ handler ∈ handlers, ∀ known, Heeds env known handler) (known : Set Fact) :
      Heeds env known (handlers.forM id) := by
    induction handlers generalizing known with
    | nil => trivial
    | cons handler rest ih =>
        rw [List.forM_eq_forM, List.forM_cons]
        exact heeds_bind (h handler List.mem_cons_self known) fun later _ _ =>
          ih (fun other hother => h other (List.mem_cons_of_mem _ hother)) later
  refine heeds_ask_bind (Set.empty_subset _) trivial fun tenants => ?_
  split
  · trivial
  rename_i tenant rest hfound
  split
  · trivial
  refine heeds_openSession_bind (known_of_filter hfound) fun later hlater => ?_
  refine heeds_ask_bind (Set.empty_subset _) trivial fun found => ?_
  split
  · trivial
  refine heeds_bind (heeds_free (makes_assign ..)) fun later' _ hlater' => ?_
  refine heeds_ask_bind ?_ trivial fun _ => ?_
  · rintro _ ⟨-, rfl⟩
    exact hlater' (Set.mem_union_left _ (hlater (Set.mem_union_left _ hrecord)))
  exact heeds_bind (heeds_free makes_commit) fun later _ _ =>
    heach _ (hhandlers capability) later

end Tasks

section Routes

variable (settings : Settings)

theorem heeds_connectorRevoke {tenantId : Nat} (htenant : .tenant tenantId ∈ known)
    (actor : User) (connectionId : Nat) :
    Heeds env known (connectorRevoke settings tenantId actor connectionId) := by
  refine heeds_openSession_bind htenant fun later _ => ?_
  refine heeds_ask_bind (Set.empty_subset _) trivial fun found => ?_
  split
  · trivial
  refine heeds_readObject_bind fun later connection _ _ hknown => ?_
  split
  · trivial
  refine heeds_bind ?_ fun later' _ hlater' => ?_
  · refine heeds_readObject_bind fun later connection _ hown _ => ?_
    split
    · refine heeds_attempt_bind (heeds_bind (heeds_ofExcept _) fun _ token hlater => ?_)
        fun _ _ _ => heeds_free (makes_assign ..)
      exact heeds_ask_bind ((connection_subset _).trans (hown.trans hlater)) trivial fun _ => trivial
    · exact heeds_free (makes_assign ..)
  refine heeds_ask_bind (Set.empty_subset _) trivial fun _ => ?_
  refine heeds_ask_bind (needs_addAuditEvent (by simp)) trivial fun _ => ?_
  refine heeds_bind (heeds_free makes_commit) fun later'' _ hlater'' => ?_
  refine heeds_ask_bind ((connection_subset _).trans ?_) trivial fun _ => ?_
  · exact (hknown.trans hlater').trans
      (Set.subset_union_left.trans (Set.subset_union_left.trans hlater''))
  exact heeds_ask_bind (Set.empty_subset _) trivial fun outcome => heeds_ofExcept outcome

theorem heeds_connectorReconsent {tenantId : Nat} (htenant : .tenant tenantId ∈ known)
    (slug returnHost : String) (actor : User) (connectionId : Nat) :
    Heeds env known
      (connectorReconsent settings tenantId slug returnHost actor connectionId) := by
  refine heeds_openSession_bind htenant fun later _ => ?_
  refine heeds_ask_bind (Set.empty_subset _) trivial fun found => ?_
  split
  · trivial
  refine heeds_readObject_bind fun later connection _ _ _ => ?_
  repeat' split
  all_goals trivial

theorem heeds_connectorsList {tenantId : Nat} (htenant : .tenant tenantId ∈ known) :
    Heeds env known (connectorsList tenantId) :=
  heeds_openSession_bind htenant fun _ _ => heeds_ask (Set.empty_subset _) trivial

theorem heeds_rethrow {Q : Set Fact → α → Prop} {f : Failure → Failure} {p : ConnectorProc α}
    (hp : Knowledge.Heeds (rules env) Q known p) :
    Knowledge.Heeds (rules env) Q known (rethrow f p) := by
  refine Knowledge.heeds_attempt_bind hp fun later outcome _ hreturned => ?_
  cases outcome with
  | ok a => exact hreturned a rfl
  | error e => trivial

theorem heeds_exchangeAndLabel {tenantId : Nat} (htenant : .tenant tenantId ∈ known)
    (provider : ConnectorProvider) (code : String) :
    Heeds env known (exchangeAndLabel settings tenantId provider code) := by
  have hnamed {known' : Set Fact} (hlater : known ⊆ known') :
      {Fact.tenant tenantId} ⊆ known' := Set.singleton_subset_iff.mpr (hlater htenant)
  refine heeds_bind (heeds_bind (heeds_ofExcept _) fun _ _ hlater => ?_) fun _ bundle hlater => ?_
  · exact heeds_ask_bind (hnamed hlater) trivial fun answer => heeds_ofExcept _
  · refine heeds_bind ?_ fun _ _ _ => trivial
    exact heeds_ask_bind (hnamed hlater) trivial fun answer => heeds_ofExcept _

theorem heeds_connectionFor (provider : ConnectorProvider) (kind : ConnectionKind)
    (accountLabel : String) (connectionId : Option Nat) :
    Knowledge.Heeds (rules env) (fun known found => ∀ id ∈ found, about id ⊆ known) known
      (connectionFor provider kind accountLabel connectionId) := by
  have hfind (known : Set Fact) : Knowledge.Heeds (rules env)
      (fun known (found : Option Nat) => ∀ id ∈ found, about id ⊆ known) known
      (ask (.findConnection provider kind accountLabel)) :=
    heeds_told (Set.empty_subset _) trivial fun found id hid fact hfact =>
      Set.mem_union_right _ ⟨id, hid, hfact⟩
  cases connectionId with
  | none => exact hfind known
  | some connectionId =>
      refine heeds_ask_bind (Set.empty_subset _) trivial fun found => ?_
      cases found with
      | false => exact hfind _
      | true =>
          rintro _ ⟨⟩ fact hfact
          exact Set.mem_union_right _ ⟨rfl, hfact⟩

theorem heeds_upsertTarget (provider : ConnectorProvider) (kind : ConnectionKind)
    (userId : Option Nat) (accountLabel : String) (scopes : List PyStr) (bundle : TokenBundle)
    (connectionId : Option Nat) :
    HeedsKnowing env id known
      (upsertTarget provider kind userId accountLabel scopes bundle connectionId) := by
  refine Knowledge.heeds_bind (heeds_connectionFor ..) fun later found _ hfound => ?_
  cases found with
  | none =>
      dsimp only
      split
      · trivial
      exact heeds_told (Set.empty_subset _) trivial fun _ => Set.subset_union_right
  | some found =>
      refine Knowledge.heeds_bind (heeds_free (makes_assign ..)) fun _ _ hlater _ => ?_
      exact (hfound found rfl).trans hlater

theorem heeds_upsertConnection (provider : ConnectorProvider) (kind : ConnectionKind)
    (userId : Option Nat) (accountLabel : String) (scopes : List PyStr) (bundle : TokenBundle)
    (connectionId : Option Nat) :
    HeedsKnowing env id known (upsertConnection settings provider kind userId accountLabel
      scopes bundle connectionId) := by
  refine Knowledge.heeds_bind (heeds_upsertTarget ..) fun later target _ htarget => ?_
  refine Knowledge.heeds_bind (heeds_free (makes_applyTokenBundle ..)) fun later' _ hlater' _ => ?_
  refine Knowledge.heeds_bind (heeds_readObject target) fun later'' connection hlater'' _ => ?_
  split
  · trivial
  · exact (htarget.trans hlater').trans hlater''

theorem heeds_connectInSession {tenantId : Nat} (htenant : .tenant tenantId ∈ known)
    (provider : ConnectorProvider) (state : OAuthState) (bundle : TokenBundle)
    (accountLabel : PyStr) (scopes : List PyStr) :
    HeedsKnowing env id known
      (connectInSession settings provider state tenantId bundle accountLabel scopes) := by
  refine Knowledge.heeds_bind (heeds_ask (Set.singleton_subset_iff.mpr htenant) trivial)
    fun _ _ _ _ => ?_
  refine Knowledge.heeds_bind (heeds_ofExcept _) fun _ label _ _ => ?_
  refine Knowledge.heeds_bind (heeds_rethrow (heeds_upsertConnection ..))
    fun later target _ htarget => ?_
  refine Knowledge.heeds_bind (heeds_ask (needs_addAuditEvent (by simp)) trivial)
    fun _ _ haudit _ => ?_
  refine Knowledge.heeds_bind (heeds_free makes_commit) fun _ _ hcommit _ => ?_
  exact (htarget.trans haudit).trans hcommit

theorem heeds_ensureWebhookRoute {tenantId connectionId : Nat} (htenant : .tenant tenantId ∈ known)
    (hconnection : about connectionId ⊆ known) (provider : ConnectorProvider) :
    Heeds env known (ensureWebhookRoute tenantId provider connectionId) := by
  refine heeds_ask_bind ((route_subset _).trans hconnection) trivial fun route => ?_
  split
  · trivial
  refine heeds_ask_bind (Set.empty_subset _) trivial fun routeKey => ?_
  refine heeds_ask (fun fact hfact => ?_) trivial
  rcases hfact with rfl | rfl
  · exact Set.mem_union_left _ (Set.mem_union_left _ htenant)
  · exact Set.mem_union_right _ rfl

theorem heeds_connectorOauthCallback (provider : ConnectorProvider) (state : Option OAuthState)
    (code error : Option String) :
    Heeds env known (connectorOauthCallback settings provider state code error) := by
  cases state with
  | none => trivial
  | some state =>
  cases code with
  | none => trivial
  | some code =>
  unfold connectorOauthCallback
  dsimp only
  split
  · trivial
  refine ⟨Set.empty_subset _, fun found found' halike => ?_, fun found _ => ?_⟩
  · -- Both are refused with the same message.
    obtain ⟨⟨tenant, rfl, hinactive⟩, rfl⟩ := halike
    simp only [Proc.bind, if_pos (refused_of_inactive hinactive)]
    rfl
  cases found with
  | none => trivial
  | some tenant =>
  simp only [Proc.bind]
  split
  · trivial
  rename_i hactive
  have htenant : .tenant tenant.id ∈ known ∪ told env (.selectTenantBySlug state.tenantSlug)
      (some tenant) := by
    exact Set.mem_union_right _ ⟨tenant, rfl, isActive_of_not_refused hactive, rfl⟩
  refine heeds_bind (heeds_rethrow (heeds_exchangeAndLabel _ htenant ..)) fun later answer hlater => ?_
  refine heeds_bind (heeds_ofExcept _) fun later' scopes hlater' => ?_
  have hknown := hlater' (hlater htenant)
  refine Knowledge.heeds_bind (heeds_connectInSession settings hknown ..)
    fun last connectionId hlast hconnection => ?_
  refine heeds_bind (heeds_ensureWebhookRoute (hlast hknown) hconnection _) fun _ _ _ => ?_
  refine heeds_ask_bind (Set.empty_subset _) trivial fun outcome => ?_
  refine heeds_bind (heeds_ofExcept outcome) fun _ _ _ => ?_
  exact heeds_ask_bind (Set.empty_subset _) trivial fun _ => trivial

end Routes

section Webhooks

theorem heeds_enqueueEach {events : List QueuedEvent}
    (hhanded : ∀ event ∈ events, .handed (taskOf event) ∈ known) :
    Heeds env known (enqueueEach events) := by
  induction events generalizing known with
  | nil => trivial
  | cons event rest ih =>
      have hfirst := hhanded event List.mem_cons_self
      refine heeds_ask_bind (Set.singleton_subset_iff.mpr hfirst) trivial fun _ => ih ?_
      exact fun other hother =>
        Set.mem_union_left _ (hhanded other (List.mem_cons_of_mem _ hother))

theorem heeds_receiveWebhook {python : Python} {provider : ConnectorProvider} {routeKey : String}
    {request : WebhookRequest} (hkey : .key routeKey ∈ known)
    (hcalls : ∀ s, callsOn python provider request s ⊆ env.calls s) :
    Heeds env known (receiveWebhook python provider routeKey request) := by
  unfold receiveWebhook
  cases htoken : request.validationToken with
  | some token => trivial
  | none =>
  dsimp only
  refine heeds_ask_bind (Set.singleton_subset_iff.mpr hkey) trivial fun found => ?_
  cases found with
  | none => trivial
  | some route =>
  simp only
  refine ⟨Set.empty_subset _, fun found found' halike => ?_, fun found _ => ?_⟩
  · -- Both are answered alike.
    obtain ⟨⟨tenant, rfl, hinactive⟩, rfl⟩ := halike
    simp only [Proc.bind, if_pos (refused_of_inactive hinactive)]
  cases found with
  | none => trivial
  | some tenant =>
  simp only [Proc.bind]
  split
  · trivial
  rename_i hactive
  have htenant : .tenant tenant.id ∈ known ∪ told env (.selectRouteByKey routeKey provider.value)
      (some route) ∪ told env (.getTenant route.tenantId) (some tenant) :=
    Set.mem_union_right _ ⟨tenant, rfl, isActive_of_not_refused hactive, rfl⟩
  refine heeds_openSession_bind htenant fun later _ => ?_
  refine ⟨Set.empty_subset _, fun _ _ hab => hab.elim, fun subscriptions hsubscriptions => ?_⟩
  cases hvalidated : validatedNotifications python subscriptions provider request with
  | error failure =>
      simp only [Proc.bind, hvalidated]
      trivial
  | ok validated =>
      simp only [Proc.bind, hvalidated]
      change Heeds env _ (enqueueEach (validated.map (eventOf provider route tenant)) >>= _)
      refine heeds_bind (heeds_enqueueEach fun event hevent => ?_) fun _ _ _ => trivial
      obtain ⟨found, hfound, rfl⟩ := List.mem_map.mp hevent
      obtain ⟨hs, n, hn, hgenuine, hreported⟩ := genuine_of_validated htoken hvalidated hfound
      have hcalled := hcalls found.1 ⟨n, hn, hgenuine, tenant.slug, rfl⟩
      refine Set.mem_union_right _ ⟨found.1, hs, _, hcalled, ?_⟩
      rw [eventOf, hreported, hsubscriptions found.1 hs]

end Webhooks

end Socle.ConnectorKnowledge
