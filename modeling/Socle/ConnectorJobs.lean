import Socle.ConnectorKnowledge

/-!
Everything that runs against the connectors: the beats, the tasks of the workers, the webhooks,
the consents, the requests of users and the calls of modules, and what each knows when it starts.
-/

namespace Socle.ConnectorJobs

open Socle.Procedures
open Socle.DirectoryStore (Tenant User)
open Socle.TokenExchange
open Socle.ConnectorStore
open Socle.ConnectorService
open Socle.WebhookDispatch hiding receiveWebhook
open Socle.ConnectorKnowledge

inductive Job where
  | refreshExpiringTokens
  | renewExpiringSubscriptions
  | syncConnectionSubscriptions (slug : String) (connectionId : Nat)
  | processConnectorEvent (slug : String) (connectionId : Nat)
      (provider capability changeType : String) (resourceId : Option String)
  | receiveWebhook (provider : ConnectorProvider) (routeKey : String) (request : WebhookRequest)
  | connectorOauthCallback (provider : ConnectorProvider) (state : Option OAuthState)
      (code error : Option String)
  | connectorsList (tenantId : Nat)
  | connectorReconsent (tenantId : Nat) (slug returnHost : String) (actor : User)
      (connectionId : Nat)
  | connectorRevoke (tenantId : Nat) (actor : User) (connectionId : Nat)
  | capabilityCall (tenantId connectionId : Nat) (name : String)
      (requests : List (String × String))

namespace Job

/-- The tenant of the host that a request names, or of the module that makes a call. -/
def tenant : Job → Option Nat
  | .connectorsList tenantId | .connectorReconsent tenantId .. | .connectorRevoke tenantId ..
  | .capabilityCall tenantId .. => some tenantId
  | _ => none

/-- `handlers` are those of the modules, by capability. -/
def proc (python : Python) (settings : Settings) (handlers : String → List (ConnectorProc Unit)) :
    Job → ConnectorProc Unit
  | .refreshExpiringTokens => do
      let _ ← ConnectorService.refreshExpiringTokens settings
  | .renewExpiringSubscriptions => do
      let _ ← ConnectorService.renewExpiringSubscriptions settings
  | .syncConnectionSubscriptions slug connectionId =>
      ConnectorService.syncConnectionSubscriptions settings slug connectionId
  | .processConnectorEvent slug connectionId provider capability changeType resourceId =>
      ConnectorService.processConnectorEvent handlers slug connectionId provider capability
        changeType resourceId
  | .receiveWebhook provider routeKey request => do
      let _ ← WebhookReception.receiveWebhook python provider routeKey request
  | .connectorOauthCallback provider state code error => do
      let _ ← ConnectorService.connectorOauthCallback settings provider state code error
  | .connectorsList tenantId => do
      let _ ← ConnectorService.connectorsList tenantId
  | .connectorReconsent tenantId slug returnHost actor connectionId => do
      let _ ← ConnectorService.connectorReconsent settings tenantId slug returnHost actor
        connectionId
  | .connectorRevoke tenantId actor connectionId =>
      ConnectorService.connectorRevoke settings tenantId actor connectionId
  | .capabilityCall tenantId connectionId name requests =>
      ConnectorService.capabilityCall settings tenantId connectionId name requests

/-- What a job knows from its arguments. -/
def facts (actives : List Tenant) : Job → Set Fact
  | .syncConnectionSubscriptions slug connectionId =>
      {fact | (∃ t ∈ actives, t.slug = slug) ∧ fact = .route connectionId}
  | .processConnectorEvent _ connectionId provider capability changeType resourceId =>
      {.record connectionId (received provider capability changeType resourceId)}
  | .receiveWebhook _ routeKey _ => {.key routeKey}
  | .connectorsList tenantId | .connectorReconsent tenantId .. | .connectorRevoke tenantId ..
  | .capabilityCall tenantId .. => {.tenant tenantId}
  | _ => ∅

/-- The events that the notifications of a job call for. -/
def calls (python : Python) (s : Subscription) : Job → Set Task
  | .receiveWebhook provider _ request => WebhookReception.callsOn python provider request s
  | _ => ∅

end Job

def start {π : Type} (python : Python) (settings : Settings)
    (handlers : String → List (ConnectorProc Unit)) (w : World π) (jobs : List Job) :
    Pool ConnectorInterface Failure (World π) Session Unit where
  shared := w
  threads := jobs.map fun job => ({}, job.proc python settings handlers)

/-- The handlers of the modules keep to the rules, whatever they know. -/
def Abiding (handlers : String → List (ConnectorProc Unit)) : Prop :=
  ∀ capability, ∀ handler ∈ handlers capability, ∀ env known, Heeds env known handler

theorem abiding_none : Abiding fun _ => [] :=
  fun _ _ hhandler => (List.not_mem_nil hhandler).elim

variable {env : Env} {python : Python} {settings : Settings}
  {handlers : String → List (ConnectorProc Unit)}

theorem heeds_job (hhandlers : Abiding handlers) {job : Job}
    (hcalls : ∀ s, job.calls python s ⊆ env.calls s) :
    Heeds env (job.facts env.actives) (job.proc python settings handlers) := by
  have hdone {α : Type} {known : Set Fact} {p : ConnectorProc α} (hp : Heeds env known p) :
      Heeds env known (do let _ ← p) := heeds_bind hp fun _ _ _ => trivial
  have hown {tenantId : Nat} : Fact.tenant tenantId ∈ ({.tenant tenantId} : Set Fact) :=
    Set.mem_singleton _
  cases job with
  | refreshExpiringTokens => exact hdone (heeds_refreshExpiringTokens settings)
  | renewExpiringSubscriptions => exact hdone (heeds_renewExpiringSubscriptions settings)
  | syncConnectionSubscriptions slug connectionId =>
      exact heeds_syncConnectionSubscriptions settings fun t ht hslug => ⟨⟨t, ht, hslug⟩, rfl⟩
  | processConnectorEvent slug connectionId provider capability changeType resourceId =>
      refine heeds_processConnectorEvent (fun capability handler hhandler known => ?_) slug
        (Set.mem_singleton _)
      exact hhandlers capability handler hhandler env known
  | receiveWebhook provider routeKey request =>
      exact hdone (heeds_receiveWebhook (Set.mem_singleton _) hcalls)
  | connectorOauthCallback provider state code error =>
      exact hdone (heeds_connectorOauthCallback settings provider state code error)
  | connectorsList tenantId => exact hdone (heeds_connectorsList hown)
  | connectorReconsent tenantId slug returnHost actor connectionId =>
      exact hdone (heeds_connectorReconsent settings hown ..)
  | connectorRevoke tenantId actor connectionId => exact heeds_connectorRevoke settings hown ..
  | capabilityCall tenantId connectionId name requests =>
      exact heeds_capabilityCall settings hown ..

section Changes

variable {π : Type} {endpoint : TokenEndpoint π} {w : World π} {l : Session} {r : Request}
  {c : Choice} {change : Change}

/-- The change that a request adds to the pending ones of the tenant session. -/
def pendingChange (w : World π) (l : Session) (c : Choice) : Request → Option Change
  | .addSubscription connectionId capability providerSubscriptionId expiresAt hash =>
      some (.addSubscription ⟨c.uuid, l.tenantId, connectionId, capability,
        providerSubscriptionId, expiresAt, hash⟩)
  | .setExpiry subscriptionId expiresAt => some (.setExpiry subscriptionId expiresAt)
  | .deleteSubscription subscriptionId => some (.deleteSubscription subscriptionId)
  | .deleteSubscriptionsOf connectionId =>
      some (.deleteSubscriptions ((w.tables.subscriptions.filter fun s =>
        s.tenantId == l.tenantId && s.connectionId == connectionId).map (·.id)))
  | .addAuditEvent event => some (.addAuditEvent { event with tenantId := l.tenantId })
  | _ => none

/-- The same of the control session. -/
def controlChange (w : World π) : Request → Option Change
  | .addRoute route => some (.addRoute route)
  | .deleteRoutesOf connectionId =>
      some (.deleteRoutes ((w.tables.routes.filter fun r =>
        r.connectionId == connectionId).map (·.routeKey)))
  | _ => none

theorem mem_pending_serve (h : change ∈ (serve endpoint w l r c).2.1.pending) :
    change ∈ l.pending ∨ pendingChange w l c r = some change := by
  have hadded {change' : Change} (h : change ∈ (l.add change').pending) :
      change ∈ l.pending ∨ some change' = some change :=
    (List.mem_append.mp h).imp id fun hnew => congrArg some (List.mem_singleton.mp hnew).symm
  cases r with
  | openSession => exact (List.not_mem_nil h).elim
  | selectActiveConnections => exact .inl (by simpa [serve] using h)
  | getConnection | findConnection =>
      simp only [serve] at h
      repeat' split at h
      all_goals exact .inl (by simpa using h)
  | refreshObject | assign =>
      simp only [serve] at h
      repeat' split at h
      all_goals exact .inl h
  | addSubscription | setExpiry | deleteSubscription | deleteSubscriptionsOf | addAuditEvent =>
      exact hadded h
  | commit =>
      simp only [serve, World.commit] at h
      split at h <;> exact (List.not_mem_nil h).elim
  | commitControl =>
      simp only [serve, World.commitControl] at h
      split at h <;> exact .inl h
  | _ => exact .inl h

theorem mem_control_serve (h : change ∈ (serve endpoint w l r c).2.1.control) :
    change ∈ l.control ∨ controlChange w r = some change := by
  have hadded {change' : Change} (h : change ∈ (l.addControl change').control) :
      change ∈ l.control ∨ some change' = some change :=
    (List.mem_append.mp h).imp id fun hnew => congrArg some (List.mem_singleton.mp hnew).symm
  cases r with
  | selectActiveConnections => exact .inl (by simpa [serve] using h)
  | getConnection | findConnection =>
      simp only [serve] at h
      repeat' split at h
      all_goals exact .inl (by simpa using h)
  | refreshObject | assign =>
      simp only [serve] at h
      repeat' split at h
      all_goals exact .inl h
  | addRoute | deleteRoutesOf => exact hadded h
  | commit =>
      simp only [serve, World.commit] at h
      split at h <;> exact .inl h
  | commitControl =>
      simp only [serve, World.commitControl] at h
      split at h <;> exact (List.not_mem_nil h).elim
  | _ => exact .inl h

end Changes

end Socle.ConnectorJobs
