import Socle.ConnectorService
import Socle.WebhookDispatch

/-!
The webhook route statement by statement, as it interleaves with the connector operations, and
that it does alone what it does at once.
-/

namespace Socle.WebhookReception

open Socle.Procedures
open Socle.DirectoryStore (Tenant)
open Socle.TokenExchange
open Socle.ConnectorStore
open Socle.ConnectorService
open Socle.WebhookDispatch hiding receiveWebhook

/-- The task that `enqueue_event` hands to Celery.  Its texts hold no lone surrogate. -/
def taskOf (event : QueuedEvent) : Task :=
  .eventReceived event.slug event.connectionId event.provider event.capability
    (textString event.changeType) (event.resourceId.map textString)

/-- The loop over the validated notifications. -/
def enqueueEach : List QueuedEvent → ConnectorProc Unit
  | [] => return ()
  | event :: rest => do
      ask (.enqueue (taskOf event))
      enqueueEach rest

/-- `receive_webhook`. -/
def receiveWebhook (python : Python) (provider : ConnectorProvider) (routeKey : String)
    (request : WebhookRequest) : ConnectorProc WebhookAnswer :=
  match request.validationToken with
  | some token => return .echo token
  | none => do
      let some route ← ask (.selectRouteByKey routeKey provider.value) | return .neutral
      let some tenant ← ask (.getTenant route.tenantId) | return .neutral
      if tenant.state ≠ .active ∨ tenant.deletedAt.isSome then
        return .neutral
      ask (.openSession tenant.id)
      let subscriptions ← ask (.selectSubscriptions route.connectionId)
      let notifications ← .ofExcept
        (validatedNotifications python subscriptions provider request)
      enqueueEach (notifications.map (eventOf provider route tenant))
      return .neutral

/-- The tasks that the request calls for on a subscription whose secret it carries. -/
def callsOn (python : Python) (provider : ConnectorProvider) (request : WebhookRequest)
    (s : Subscription) : Set Task :=
  {task | ∃ n ∈ notificationsOf python provider request, genuine python n s = true ∧
    ∃ slug, task = taskOf ⟨slug, s.connectionId, provider.value, s.capability, n.changeType,
      n.reportedId python⟩}

theorem genuine_of_validated {python : Python} {provider : ConnectorProvider}
    {request : WebhookRequest} {subscriptions : List Subscription}
    {validated : List (Subscription × PyStr × Option PyStr)}
    (htoken : request.validationToken = none)
    (h : validatedNotifications python subscriptions provider request = .ok validated)
    {found : Subscription × PyStr × Option PyStr} (hfound : found ∈ validated) :
    found.1 ∈ subscriptions ∧ ∃ n ∈ notificationsOf python provider request,
      genuine python n found.1 = true ∧ found.2 = (n.changeType, n.reportedId python) := by
  have hread : Readable provider request ∧ ∀ n ∈ notificationsOf python provider request,
      (validate python subscriptions n).isOk = true := by
    by_contra hraises
    obtain ⟨failure, hfailure⟩ := validatedNotifications_raises htoken hraises
    rw [hfailure] at h
    cases h
  rw [validatedNotifications_eq htoken hread.1, validateAll_of_isOk hread.2] at h
  cases h
  obtain ⟨n, hn, haccepted⟩ := List.mem_filterMap.mp hfound
  obtain ⟨hs, hgenuine, hchange, hid⟩ := accepted_eq_some_iff.mp haccepted
  exact ⟨(subscriptionFor_eq_some hs).1, n, hn, hgenuine, Prod.ext hchange hid⟩

section Alone

variable {π : Type} {endpoint : TokenEndpoint π} {python : Python} {provider : ConnectorProvider}
  {routeKey : String} {request : WebhookRequest}

/-- The world once these events are queued. -/
def queued (w : World π) (events : List QueuedEvent) : World π :=
  { w with queue := w.queue ++ events.map taskOf }

theorem queued_nil (w : World π) : queued w [] = w := by
  rw [queued, List.map_nil, List.append_nil]

theorem queued_cons (w : World π) (event : QueuedEvent) (rest : List QueuedEvent) :
    queued w (event :: rest) = queued (queued w [event]) rest := by
  simp [queued]

theorem ensures_enqueueEach (events : List QueuedEvent) (w : World π) (l : Session) :
    Ensures (serve endpoint) (fun w' _ outcome => outcome = .ok () ∧ w' = queued w events) w l
      (enqueueEach events) := by
  induction events generalizing w with
  | nil => exact ⟨rfl, (queued_nil w).symm⟩
  | cons event rest ih =>
      intro c
      rw [queued_cons]
      exact ih (queued w [event])

/-- What the route answers and queues when nothing runs meanwhile. -/
theorem receiveWebhook_alone (w : World π) (l : Session) :
    Ensures (serve endpoint)
      (fun w' _ outcome =>
        (outcome, w') =
          ((WebhookDispatch.receiveWebhook python w.tables provider routeKey request).1,
            queued w (WebhookDispatch.receiveWebhook python w.tables provider routeKey request).2))
      w l (receiveWebhook python provider routeKey request) := by
  unfold receiveWebhook WebhookDispatch.receiveWebhook
  cases request.validationToken with
  | some token => exact congrArg _ (queued_nil w).symm
  | none =>
  intro c
  dsimp only [serve]
  cases hroute : w.tables.routes.find? fun r =>
      r.routeKey == routeKey && r.provider == provider.value with
  | none =>
      have hnone : routeOf w.tables provider routeKey = none := by simp [routeOf, hroute]
      rw [hnone]
      exact congrArg _ (queued_nil w).symm
  | some route =>
  intro c
  dsimp only [serve]
  cases htenant : w.tables.directory.tenants.find? fun t => t.id == route.tenantId with
  | none =>
      have hnone : routeOf w.tables provider routeKey = none := by
        simp [routeOf, hroute, htenant]
      rw [hnone]
      exact congrArg _ (queued_nil w).symm
  | some tenant =>
  simp only [Proc.bind]
  by_cases hinactive : tenant.state ≠ .active ∨ tenant.deletedAt.isSome = true
  · rw [if_pos hinactive]
    have hnone : routeOf w.tables provider routeKey = none := by
      have hrefused : ¬ (tenant.state = .active ∧ tenant.deletedAt = none) := by
        rw [not_and_or]
        exact hinactive.imp id Option.isSome_iff_ne_none.mp
      simp [routeOf, hroute, htenant, hrefused]
    rw [hnone]
    exact congrArg _ (queued_nil w).symm
  rw [if_neg hinactive]
  have hsome : routeOf w.tables provider routeKey = some (route, tenant) := by
    rw [not_or, not_not, Bool.not_eq_true, Option.isSome_eq_false_iff,
      Option.isNone_iff_eq_none] at hinactive
    simp [routeOf, hroute, htenant, hinactive]
  rw [hsome]
  dsimp only
  intro c c
  change Ensures _ _ w _ (Proc.ofExcept (validatedNotifications python
    (subscriptionsOf w.tables route tenant) provider request) >>= _)
  cases validatedNotifications python (subscriptionsOf w.tables route tenant) provider request with
  | error failure => exact congrArg _ (queued_nil w).symm
  | ok validated =>
      change Ensures _ _ w _ (enqueueEach (validated.map (eventOf provider route tenant)) >>= _)
      refine ensures_bind (ensures_enqueueEach _ w _) ?_ ?_
      · rintro _ _ _ ⟨-, rfl⟩
        rfl
      · rintro _ _ _ ⟨hreturned, -⟩
        cases hreturned

end Alone

end Socle.WebhookReception
