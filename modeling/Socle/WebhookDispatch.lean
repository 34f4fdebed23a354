import Socle.ConnectorStore

/-!
The webhooks of the providers: which events `receive_webhook` queues for a
request, which ones the notifications it carries call for, exactly when the two
are the same, and exactly when the answer is the same on every database.
-/

namespace Socle.WebhookDispatch

open Socle.TokenExchange
open Socle.DirectoryStore (Tenant TenantState)
open Socle.ConnectorStore (Subscription WebhookRoute Tables)

/-- The body as `request.json()` finds it; `tooDeep` is JSON nested beyond the
recursion limit. -/
inductive RequestBody where
  | json (value : Json)
  | tooDeep (value : Json)
  | invalid

structure WebhookRequest where
  validationToken : Option String := none
  body : RequestBody := .invalid
  channelId : Option PyStr := none
  channelToken : Option PyStr := none
  resourceState : Option PyStr := none
  resourceId : Option PyStr := none

/-- The parts of Python the dispatch uses: SHA-256 of the UTF-8 bytes of a text,
in hexadecimal, and `str()` of a float, a list or a dict. -/
structure Python where
  sha256 : PyStr → String
  render : Json → PyStr

/-- `str(value)`. -/
def text (python : Python) : Json → PyStr
  | .str value => value
  | .null => py "None"
  | .bool true => py "True"
  | .bool false => py "False"
  | .int value => py (toString value)
  | value => python.render value

/-- `hash_token`. -/
def hashToken (python : Python) (token : PyStr) : Except Failure String :=
  if encodable token then .ok (python.sha256 token) else .error .unicodeEncodeError

/-- What is read of a notification.  `resource` is there when the notification has
a resource object, with what `get("id")` gives on it. -/
structure Notification where
  named : PyStr
  secret : Option PyStr
  changeType : PyStr
  resource : Option (Option Json)

/-- `dict.get(key, default)`, as text. -/
def textField (python : Python) (fields : List (PyStr × Json)) (key default : String) : PyStr :=
  match get? fields key with
  | some value => text python value
  | none => py default

/-- A notification of Microsoft Graph. -/
def graphNotification (python : Python) (fields : List (PyStr × Json)) : Notification where
  named := textField python fields "subscriptionId" ""
  secret := optionalText (get? fields "clientState")
  changeType := textField python fields "changeType" "updated"
  resource :=
    match get? fields "resourceData" with
    | some (.obj resourceData) => some (get? resourceData "id")
    | _ => none

/-- The objects of the `value` list of a body, as notifications. -/
def graphNotifications (python : Python) : Json → List Notification
  | .obj body =>
      match get? body "value" with
      | some (.arr items) => items.filterMap fun
          | .obj fields => some (graphNotification python fields)
          | _ => none
      | _ => []
  | _ => []

/-- The notification in the headers of a Google channel; an empty token is none,
and a `sync` message is no notification. -/
def channelNotifications (request : WebhookRequest) : List Notification :=
  let state := request.resourceState.getD []
  if state = py "sync" then []
  else [{
    named := request.channelId.getD []
    secret := request.channelToken.filter fun token => !token.isEmpty
    changeType := if state.isEmpty then py "updated" else state
    resource := request.resourceId.map fun id => some (.str id) }]

/-! ### The code -/

/-- The arguments of `enqueue_event`. -/
structure QueuedEvent where
  slug : String
  connectionId : Nat
  provider : String
  capability : String
  changeType : PyStr
  resourceId : Option PyStr
  deriving DecidableEq

/-- `subscriptions.get(id)`: of two rows with one id the dict keeps the last. -/
def subscriptionFor (subscriptions : List Subscription) (id : PyStr) : Option Subscription :=
  (subscriptions.filter fun s => decide (s.providerSubscriptionId = id)).getLast?

/-- The subscription of a notification whose secret it carries. -/
def authenticate (python : Python) (subscriptions : List Subscription) (n : Notification) :
    Except Failure (Option Subscription) :=
  match subscriptionFor subscriptions n.named, n.secret with
  | some subscription, some secret => do
      let hash ← hashToken python secret
      return if hash ≠ subscription.clientStateHash then none else some subscription
  | _, _ => return none

/-- The resource id that is handed on: `str()` of whatever `get("id")` gave. -/
def Notification.reportedId (python : Python) (n : Notification) : Option PyStr :=
  n.resource.map fun id => text python (id.getD .null)

/-- One turn of the loop of `_validated_notifications`. -/
def validate (python : Python) (subscriptions : List Subscription) (n : Notification) :
    Except Failure (Option (Subscription × PyStr × Option PyStr)) := do
  let authentic ← authenticate python subscriptions n
  return authentic.map fun subscription => (subscription, n.changeType, n.reportedId python)

/-- The loop: the first exception ends it. -/
def validateAll (python : Python) (subscriptions : List Subscription) :
    List Notification → Except Failure (List (Subscription × PyStr × Option PyStr))
  | [] => .ok []
  | n :: rest => do
      let found ← validate python subscriptions n
      let others ← validateAll python subscriptions rest
      return found.toList ++ others

/-- `_validated_notifications`. -/
def validatedNotifications (python : Python) (subscriptions : List Subscription)
    (provider : ConnectorProvider) (request : WebhookRequest) :
    Except Failure (List (Subscription × PyStr × Option PyStr)) :=
  match provider with
  | .microsoft =>
      match request.body with
      | .invalid => .ok []
      | .tooDeep _ => .error .recursionError
      | .json value => validateAll python subscriptions (graphNotifications python value)
  | .google => validateAll python subscriptions (channelNotifications request)

/-- The row of the route, and its tenant if it is active. -/
def routeOf (tables : Tables) (provider : ConnectorProvider) (routeKey : String) :
    Option (WebhookRoute × Tenant) := do
  let route ← tables.routes.find? fun r => r.routeKey == routeKey && r.provider == provider.value
  let tenant ← tables.directory.tenants.find? fun t => t.id == route.tenantId
  if tenant.state = .active ∧ tenant.deletedAt = none then some (route, tenant) else none

/-- The subscriptions of the route's connection, in the database of its tenant. -/
def subscriptionsOf (tables : Tables) (route : WebhookRoute) (tenant : Tenant) :
    List Subscription :=
  tables.subscriptions.filter fun s => s.tenantId == tenant.id && s.connectionId == route.connectionId

def eventOf (provider : ConnectorProvider) (route : WebhookRoute) (tenant : Tenant)
    (validated : Subscription × PyStr × Option PyStr) : QueuedEvent :=
  ⟨tenant.slug, route.connectionId, provider.value, validated.1.capability, validated.2.1,
    validated.2.2⟩

inductive WebhookAnswer where
  | echo (validationToken : String)
  | neutral
  deriving DecidableEq

/-- `receive_webhook`: its answer and the calls of `enqueue_event` it made. -/
def receiveWebhook (python : Python) (tables : Tables) (provider : ConnectorProvider)
    (routeKey : String) (request : WebhookRequest) :
    Except Failure WebhookAnswer × List QueuedEvent :=
  match request.validationToken with
  | some token => (.ok (.echo token), [])
  | none =>
      match routeOf tables provider routeKey with
      | none => (.ok .neutral, [])
      | some (route, tenant) =>
          let subscriptions := subscriptionsOf tables route tenant
          match validatedNotifications python subscriptions provider request with
          | .error failure => (.error failure, [])
          | .ok validated => (.ok .neutral, validated.map (eventOf provider route tenant))

/-- The notifications a request carries.  A validation handshake carries none. -/
def notificationsOf (python : Python) (provider : ConnectorProvider) (request : WebhookRequest) :
    List Notification :=
  if request.validationToken.isSome then []
  else
    match provider with
    | .google => channelNotifications request
    | .microsoft =>
        match request.body with
        | .json value => graphNotifications python value
        | .tooDeep value => graphNotifications python value
        | .invalid => []

/-- The notification names the subscription and carries the secret whose SHA-256
is stored for it. -/
def genuine (python : Python) (n : Notification) (s : Subscription) : Bool :=
  decide (s.providerSubscriptionId = n.named) &&
    n.secret.any fun secret => encodable secret && python.sha256 secret == s.clientStateHash

/-- The notification's own resource id. -/
def Notification.ownId (python : Python) (n : Notification) : Option PyStr :=
  match n.resource with
  | some (some .null) => none
  | some (some id) => some (text python id)
  | _ => none

/-- The event a notification calls for. -/
def callsFor (python : Python) (subscriptions : List Subscription) (n : Notification) :
    Option (Subscription × PyStr × Option PyStr) :=
  (subscriptions.filter (genuine python n)).getLast?.map fun subscription =>
    (subscription, n.changeType, n.ownId python)

/-- The events of a request, in the order of its notifications. -/
def expectedEvents (python : Python) (tables : Tables) (provider : ConnectorProvider)
    (routeKey : String) (request : WebhookRequest) : List QueuedEvent :=
  match routeOf tables provider routeKey with
  | none => []
  | some (route, tenant) =>
      ((notificationsOf python provider request).filterMap
        (callsFor python (subscriptionsOf tables route tenant))).map (eventOf provider route tenant)

/-- The body of a Graph request is not nested too deep to be read. -/
def Readable (provider : ConnectorProvider) (request : WebhookRequest) : Prop :=
  provider = .microsoft → ∀ value, request.body ≠ .tooDeep value

/-- A notification that is dispatched as it should be: if it names a subscription,
its secret can be encoded, the subscription listed last under that name stores the
hash of every one it is genuine for, and a genuine notification has an id in its
resource object, if it has one. -/
structure Sound (python : Python) (subscriptions : List Subscription) (n : Notification) :
    Prop where
  secretEncodable : ∀ secret, n.secret = some secret →
    (subscriptionFor subscriptions n.named).isSome = true → encodable secret = true
  lastListed : ∀ s ∈ subscriptions, genuine python n s = true →
    ∃ t, subscriptionFor subscriptions n.named = some t ∧ t.clientStateHash = s.clientStateHash
  hasId : ∀ s ∈ subscriptions, genuine python n s = true →
    n.resource ≠ some none ∧ n.resource ≠ some (some .null)

variable {python : Python} {subscriptions : List Subscription} {n : Notification}

theorem getLast?_filter {α : Type} {p : α → Bool} {l : List α} {a : α} (hlast : l.getLast? = some a)
    (hp : p a = true) : (l.filter p).getLast? = some a := by
  obtain ⟨front, rfl⟩ := List.getLast?_eq_some_iff.mp hlast
  simp [hp]

theorem length_filterMap_le {α β : Type} {f g : α → Option β} {l : List α}
    (hle : ∀ a ∈ l, (f a).isSome = true → (g a).isSome = true) :
    (l.filterMap f).length ≤ (l.filterMap g).length := by
  induction l with
  | nil => simp
  | cons a rest ih =>
      have hrest := ih fun b hb => hle b (List.mem_cons_of_mem _ hb)
      have ha := hle a List.mem_cons_self
      cases hf : f a with
      | none =>
          rw [List.filterMap_cons_none hf]
          cases hg : g a with
          | none => rwa [List.filterMap_cons_none hg]
          | some c =>
              rw [List.filterMap_cons_some hg, List.length_cons]
              omega
      | some b =>
          rw [hf] at ha
          obtain ⟨c, hg⟩ := Option.isSome_iff_exists.mp (ha rfl)
          rw [List.filterMap_cons_some hf, List.filterMap_cons_some hg, List.length_cons,
            List.length_cons]
          omega

theorem filterMap_eq_iff {α β : Type} {f g : α → Option β} {l : List α}
    (hle : ∀ a ∈ l, (f a).isSome = true → (g a).isSome = true) :
    l.filterMap f = l.filterMap g ↔ ∀ a ∈ l, f a = g a := by
  refine ⟨?_, fun h => List.filterMap_congr h⟩
  induction l with
  | nil => simp
  | cons a rest ih =>
      have hle' : ∀ b ∈ rest, (f b).isSome = true → (g b).isSome = true :=
        fun b hb => hle b (List.mem_cons_of_mem _ hb)
      intro heq
      cases hf : f a with
      | none =>
          cases hg : g a with
          | none =>
              rw [List.filterMap_cons_none hf, List.filterMap_cons_none hg] at heq
              rintro b hb
              rcases List.mem_cons.mp hb with rfl | hmem
              · rw [hf, hg]
              · exact ih hle' heq b hmem
          | some c =>
              rw [List.filterMap_cons_none hf, List.filterMap_cons_some hg] at heq
              have hlength := congrArg List.length heq
              rw [List.length_cons] at hlength
              have := length_filterMap_le hle'
              omega
      | some b =>
          have hsome := hle a List.mem_cons_self (by rw [hf]; rfl)
          obtain ⟨c, hg⟩ := Option.isSome_iff_exists.mp hsome
          rw [List.filterMap_cons_some hf, List.filterMap_cons_some hg] at heq
          obtain ⟨rfl, hrest⟩ := List.cons.inj heq
          rintro x hx
          rcases List.mem_cons.mp hx with rfl | hmem
          · rw [hf, hg]
          · exact ih hle' hrest x hmem

theorem subscriptionFor_eq_some {id : PyStr} {s : Subscription}
    (h : subscriptionFor subscriptions id = some s) :
    s ∈ subscriptions ∧ s.providerSubscriptionId = id := by
  have hmem := List.mem_of_getLast? h
  obtain ⟨hs, hid⟩ := List.mem_filter.mp hmem
  exact ⟨hs, of_decide_eq_true hid⟩

theorem genuine_iff {s : Subscription} :
    genuine python n s = true ↔ s.providerSubscriptionId = n.named ∧
      ∃ secret, n.secret = some secret ∧ encodable secret = true ∧
        python.sha256 secret = s.clientStateHash := by
  simp [genuine, Option.any_eq_true]

/-- The last subscription of the name, when the notification is genuine for it,
is the one the notification calls for. -/
theorem callsFor_of_genuine {s : Subscription}
    (hs : subscriptionFor subscriptions n.named = some s) (hgenuine : genuine python n s = true) :
    callsFor python subscriptions n = some (s, n.changeType, n.ownId python) := by
  have hfilter : subscriptions.filter (genuine python n) =
      (subscriptions.filter fun s => decide (s.providerSubscriptionId = n.named)).filter
        (genuine python n) := by
    rw [List.filter_filter]
    refine List.filter_congr fun x _ => ?_
    by_cases hx : genuine python n x = true
    · have := (genuine_iff.mp hx).1
      simp [hx, this]
    · simp [hx]
  rw [callsFor, hfilter, getLast?_filter hs hgenuine]
  rfl

/-- What one turn of the loop adds, when it does not raise. -/
def accepted (python : Python) (subscriptions : List Subscription) (n : Notification) :
    Option (Subscription × PyStr × Option PyStr) :=
  match validate python subscriptions n with
  | .ok found => found
  | .error _ => none

theorem validate_isOk_iff :
    (validate python subscriptions n).isOk = true ↔ ∀ secret, n.secret = some secret →
      (subscriptionFor subscriptions n.named).isSome = true → encodable secret = true := by
  unfold validate authenticate hashToken
  cases subscriptionFor subscriptions n.named with
  | none => simp [Except.isOk, Except.toBool, bind, Except.bind, pure, Except.pure]
  | some s =>
      cases n.secret with
      | none => simp [Except.isOk, Except.toBool, bind, Except.bind, pure, Except.pure]
      | some secret =>
          by_cases hsecret : encodable secret = true <;>
            simp [hsecret, Except.isOk, Except.toBool, bind, Except.bind, pure, Except.pure]

theorem accepted_eq_some_iff {s : Subscription} {changeType : PyStr} {resourceId : Option PyStr} :
    accepted python subscriptions n = some (s, changeType, resourceId) ↔
      subscriptionFor subscriptions n.named = some s ∧ genuine python n s = true ∧
        changeType = n.changeType ∧ resourceId = n.reportedId python := by
  rw [genuine_iff]
  unfold accepted validate authenticate hashToken
  cases hs : subscriptionFor subscriptions n.named with
  | none => simp [bind, Except.bind, pure, Except.pure]
  | some t =>
      have hnamed := (subscriptionFor_eq_some hs).2
      cases hsecret : n.secret with
      | none => simp [bind, Except.bind, pure, Except.pure]
      | some secret =>
          by_cases hencode : encodable secret = true
          · by_cases hhash : python.sha256 secret = t.clientStateHash
            · simp only [hencode, hhash, if_true, bind, Except.bind, pure, Except.pure, ne_eq,
                not_true_eq_false, if_false, Option.map_some, Option.some.injEq, Prod.mk.injEq]
              constructor
              · rintro ⟨rfl, rfl, rfl⟩
                exact ⟨rfl, ⟨hnamed, secret, rfl, hencode, hhash⟩, rfl, rfl⟩
              · rintro ⟨rfl, -, rfl, rfl⟩
                exact ⟨rfl, rfl, rfl⟩
            · simp only [hencode, hhash, if_true, bind, Except.bind, pure, Except.pure, ne_eq,
                not_false_eq_true, Option.map_none, reduceCtorEq, Option.some.injEq, false_iff]
              rintro ⟨rfl, ⟨-, secret', hsecret', -, hhash'⟩, -⟩
              obtain rfl := hsecret'
              exact hhash hhash'
          · simp only [hencode, if_false, bind, Except.bind, reduceCtorEq, Option.some.injEq,
              false_iff]
            rintro ⟨-, ⟨-, secret', hsecret', hencode', -⟩, -⟩
            obtain rfl := hsecret'
            exact hencode hencode'

theorem callsFor_isSome_iff :
    (callsFor python subscriptions n).isSome = true ↔
      ∃ s ∈ subscriptions, genuine python n s = true := by
  rw [callsFor, Option.isSome_map, List.getLast?_isSome]
  simp [List.filter_eq_nil_iff]

theorem callsFor_isSome_of_accepted
    (h : (accepted python subscriptions n).isSome = true) :
    (callsFor python subscriptions n).isSome = true := by
  obtain ⟨⟨s, changeType, resourceId⟩, hsome⟩ := Option.isSome_iff_exists.mp h
  obtain ⟨hs, hgenuine, -, -⟩ := accepted_eq_some_iff.mp hsome
  exact callsFor_isSome_iff.mpr ⟨s, (subscriptionFor_eq_some hs).1, hgenuine⟩

theorem reportedId_eq_ownId_iff : n.reportedId python = n.ownId python ↔
    n.resource ≠ some none ∧ n.resource ≠ some (some .null) := by
  unfold Notification.reportedId Notification.ownId
  cases n.resource with
  | none => simp
  | some id =>
      cases id with
      | none => simp
      | some value => cases value <;> simp

theorem event_eq_iff_sound (provider : ConnectorProvider) (route : WebhookRoute) (tenant : Tenant)
    (hok : (validate python subscriptions n).isOk = true) :
    (accepted python subscriptions n).map (eventOf provider route tenant) =
        (callsFor python subscriptions n).map (eventOf provider route tenant) ↔
      Sound python subscriptions n := by
  constructor
  · intro heq
    -- a genuine notification calls for an event, so one was accepted
    have haccepted (s : Subscription) (hs : s ∈ subscriptions)
        (hgenuine : genuine python n s = true) : ∃ t,
        subscriptionFor subscriptions n.named = some t ∧ genuine python n t = true ∧
          n.reportedId python = n.ownId python := by
      obtain ⟨called, hcalled⟩ :=
        Option.isSome_iff_exists.mp (callsFor_isSome_iff.mpr ⟨s, hs, hgenuine⟩)
      rw [hcalled, Option.map_some, Option.map_eq_some_iff] at heq
      obtain ⟨⟨t, changeType, resourceId⟩, hsome, hevent⟩ := heq
      obtain ⟨ht, hgenuine', rfl, rfl⟩ := accepted_eq_some_iff.mp hsome
      rw [callsFor_of_genuine ht hgenuine'] at hcalled
      obtain rfl := Option.some.inj hcalled
      exact ⟨t, ht, hgenuine', congrArg QueuedEvent.resourceId hevent⟩
    refine ⟨validate_isOk_iff.mp hok, ?_, ?_⟩
    · intro s hs hgenuine
      obtain ⟨t, ht, hgenuine', -⟩ := haccepted s hs hgenuine
      obtain ⟨-, secret, hsecret, -, hhash⟩ := genuine_iff.mp hgenuine
      obtain ⟨-, secret', hsecret', -, hhash'⟩ := genuine_iff.mp hgenuine'
      obtain rfl : secret = secret' := Option.some.inj (hsecret.symm.trans hsecret')
      exact ⟨t, ht, hhash'.symm.trans hhash⟩
    · intro s hs hgenuine
      obtain ⟨-, -, -, hid⟩ := haccepted s hs hgenuine
      exact reportedId_eq_ownId_iff.mp hid
  · intro hsound
    by_cases hcalls : (callsFor python subscriptions n).isSome = true
    · obtain ⟨s, hs, hgenuine⟩ := callsFor_isSome_iff.mp hcalls
      obtain ⟨t, ht, hhash⟩ := hsound.lastListed s hs hgenuine
      obtain ⟨-, secret, hsecret, hencode, hstored⟩ := genuine_iff.mp hgenuine
      have hgenuine' : genuine python n t = true :=
        genuine_iff.mpr ⟨(subscriptionFor_eq_some ht).2, secret, hsecret, hencode,
          hstored.trans hhash.symm⟩
      have haccepted := accepted_eq_some_iff.mpr ⟨ht, hgenuine', rfl, rfl⟩
      rw [haccepted, callsFor_of_genuine ht hgenuine',
        reportedId_eq_ownId_iff.mpr (hsound.hasId s hs hgenuine)]
    · have hnone : ¬ (accepted python subscriptions n).isSome = true :=
        fun h => hcalls (callsFor_isSome_of_accepted h)
      rw [Option.not_isSome_iff_eq_none.mp hcalls, Option.not_isSome_iff_eq_none.mp hnone]

theorem validateAll_of_isOk {notifications : List Notification}
    (hok : ∀ n ∈ notifications, (validate python subscriptions n).isOk = true) :
    validateAll python subscriptions notifications =
      .ok (notifications.filterMap (accepted python subscriptions)) := by
  induction notifications with
  | nil => rfl
  | cons n rest ih =>
      have hn := hok n List.mem_cons_self
      have hrest := ih fun x hx => hok x (List.mem_cons_of_mem _ hx)
      rw [validateAll, hrest]
      cases hvalidate : validate python subscriptions n with
      | error failure =>
          rw [hvalidate] at hn
          cases hn
      | ok found =>
          have haccepted : accepted python subscriptions n = found := by
            rw [accepted, hvalidate]
          cases found with
          | none => rw [List.filterMap_cons_none haccepted]; rfl
          | some event => rw [List.filterMap_cons_some haccepted]; rfl

theorem validateAll_of_not_isOk {notifications : List Notification}
    (hraises : ∃ n ∈ notifications, ¬ (validate python subscriptions n).isOk = true) :
    ∃ failure, validateAll python subscriptions notifications = .error failure := by
  induction notifications with
  | nil => simp at hraises
  | cons n rest ih =>
      rw [validateAll]
      cases hvalidate : validate python subscriptions n with
      | error failure => exact ⟨failure, rfl⟩
      | ok found =>
          have hrest : ∃ n ∈ rest, ¬ (validate python subscriptions n).isOk = true := by
            obtain ⟨x, hx, hraise⟩ := hraises
            rcases List.mem_cons.mp hx with rfl | hmem
            · rw [hvalidate] at hraise
              exact absurd rfl hraise
            · exact ⟨x, hmem, hraise⟩
          obtain ⟨failure, hfailure⟩ := ih hrest
          exact ⟨failure, by rw [hfailure]; rfl⟩

variable {tables : Tables} {provider : ConnectorProvider} {routeKey : String}
variable {request : WebhookRequest} {route : WebhookRoute} {tenant : Tenant}

theorem validatedNotifications_eq (htoken : request.validationToken = none)
    (hread : Readable provider request) :
    validatedNotifications python subscriptions provider request =
      validateAll python subscriptions (notificationsOf python provider request) := by
  unfold validatedNotifications notificationsOf
  rw [htoken]
  cases provider with
  | google => rfl
  | microsoft =>
      cases hbody : request.body with
      | json value => simp
      | tooDeep value => exact absurd hbody (hread rfl value)
      | invalid => simp [validateAll]

theorem enqueued_of_isOk (hroute : routeOf tables provider routeKey = some (route, tenant))
    (hread : Readable provider request)
    (hok : ∀ n ∈ notificationsOf python provider request,
      (validate python (subscriptionsOf tables route tenant) n).isOk = true) :
    (receiveWebhook python tables provider routeKey request).2 =
      ((notificationsOf python provider request).filterMap
        (accepted python (subscriptionsOf tables route tenant))).map
          (eventOf provider route tenant) := by
  cases htoken : request.validationToken with
  | some token => simp [receiveWebhook, notificationsOf, htoken]
  | none =>
      simp only [receiveWebhook, htoken, hroute, validatedNotifications_eq htoken hread,
        validateAll_of_isOk hok]

theorem validatedNotifications_raises (htoken : request.validationToken = none)
    (hraises : ¬ (Readable provider request ∧ ∀ n ∈ notificationsOf python provider request,
      (validate python subscriptions n).isOk = true)) :
    ∃ failure, validatedNotifications python subscriptions provider request = .error failure := by
  by_cases hread : Readable provider request
  · rw [validatedNotifications_eq htoken hread]
    refine validateAll_of_not_isOk ?_
    by_contra hnone
    push Not at hnone
    exact hraises ⟨hread, hnone⟩
  · have hdeep : ∃ value, provider = .microsoft ∧ request.body = .tooDeep value := by
      simpa [Readable] using hread
    obtain ⟨value, rfl, hbody⟩ := hdeep
    exact ⟨.recursionError, by simp [validatedNotifications, hbody]⟩

theorem enqueued_of_raises (hroute : routeOf tables provider routeKey = some (route, tenant))
    (hraises : ¬ (Readable provider request ∧ ∀ n ∈ notificationsOf python provider request,
      (validate python (subscriptionsOf tables route tenant) n).isOk = true)) :
    (receiveWebhook python tables provider routeKey request).2 = [] := by
  cases htoken : request.validationToken with
  | some token => simp [receiveWebhook, htoken]
  | none =>
      obtain ⟨failure, hfailure⟩ := validatedNotifications_raises htoken hraises
      simp only [receiveWebhook, htoken, hroute, hfailure]

/-- The queued events are exactly those the notifications of the request call for
if and only if none is called for, or the body can be read and every notification
is sound. -/
theorem dispatch_exact_iff (python : Python) (tables : Tables) (provider : ConnectorProvider)
    (routeKey : String) (request : WebhookRequest) :
    (receiveWebhook python tables provider routeKey request).2 =
        expectedEvents python tables provider routeKey request ↔
      expectedEvents python tables provider routeKey request = [] ∨
        Readable provider request ∧
          ∀ route tenant, routeOf tables provider routeKey = some (route, tenant) →
            ∀ n ∈ notificationsOf python provider request,
              Sound python (subscriptionsOf tables route tenant) n := by
  cases hroute : routeOf tables provider routeKey with
  | none =>
      have hexpected : expectedEvents python tables provider routeKey request = [] := by
        rw [expectedEvents, hroute]
      have henqueued : (receiveWebhook python tables provider routeKey request).2 = [] := by
        unfold receiveWebhook
        cases request.validationToken <;> simp [hroute]
      simp [hexpected, henqueued]
  | some found =>
      obtain ⟨route, tenant⟩ := found
      have hexpected : expectedEvents python tables provider routeKey request =
          ((notificationsOf python provider request).filterMap
            (callsFor python (subscriptionsOf tables route tenant))).map
              (eventOf provider route tenant) := by
        rw [expectedEvents, hroute]
      by_cases hok : Readable provider request ∧ ∀ n ∈ notificationsOf python provider request,
          (validate python (subscriptionsOf tables route tenant) n).isOk = true
      · rw [enqueued_of_isOk hroute hok.1 hok.2, hexpected, List.map_filterMap, List.map_filterMap]
        have hle : ∀ n ∈ notificationsOf python provider request,
            ((accepted python (subscriptionsOf tables route tenant) n).map
              (eventOf provider route tenant)).isSome = true →
            ((callsFor python (subscriptionsOf tables route tenant) n).map
              (eventOf provider route tenant)).isSome = true := by
          intro n _ hsome
          rw [Option.isSome_map] at hsome ⊢
          exact callsFor_isSome_of_accepted hsome
        constructor
        · intro heq
          refine .inr ⟨hok.1, ?_⟩
          rintro route' tenant' hsame n hn
          obtain ⟨rfl, rfl⟩ := Prod.mk.inj (Option.some.inj hsame)
          exact (event_eq_iff_sound provider route tenant (hok.2 n hn)).mp
            ((filterMap_eq_iff hle).mp heq n hn)
        · rintro (hnone | ⟨-, hsound⟩)
          · have hlength := length_filterMap_le hle
            rw [hnone] at hlength ⊢
            exact List.eq_nil_of_length_eq_zero (Nat.le_zero.mp hlength)
          · refine (filterMap_eq_iff hle).mpr fun n hn => ?_
            exact (event_eq_iff_sound provider route tenant (hok.2 n hn)).mpr
              (hsound route tenant rfl n hn)
      · rw [enqueued_of_raises hroute hok]
        constructor
        · exact fun heq => .inl heq.symm
        · rintro (hnone | ⟨hread, hsound⟩)
          · exact hnone.symm
          · refine absurd ⟨hread, fun n hn => ?_⟩ hok
            exact validate_isOk_iff.mpr (hsound route tenant rfl n hn).secretEncodable

/-- The SHA-256 of `secret`. -/
def secretHash : String := "2bb80d537b1da3e38bd30361aa855686bde0eacd7162fef6a25fe97bf527a25b"

/-- Tenant 1 with a Graph subscription of connection 7, and its route. -/
def subscribed : Tables where
  directory := {
    tenants := [⟨1, "acme", "ACME", .active, none⟩]
    users := []
    credentials := []
    memberships := []
    invitations := []
    teams := []
    teamMembers := []
    auditEvents := [] }
  connections := []
  subscriptions := [⟨1, 1, 7, "mail", py "sub-1", 0, secretHash⟩]
  routes := [⟨"key", "microsoft", 1, 7⟩]

/-- A genuine notification whose resource object has no id. -/
def idlessNotification : Json :=
  .obj [(py "subscriptionId", .str (py "sub-1")), (py "clientState", .str (py "secret")),
    (py "resourceData", .obj [])]

/-- Python as far as the one secret needs it. -/
def secretPython : Python where
  sha256 := fun token => if token = py "secret" then secretHash else ""
  render := fun _ => []

/-- The event of a notification without resource id is queued with the id
`"None"`. -/
theorem missing_resource_id_becomes_none_text :
    (receiveWebhook secretPython subscribed .microsoft "key"
        { body := .json (.obj [(py "value", .arr [idlessNotification])]) }).2 =
      [⟨"acme", 7, "microsoft", "mail", py "updated", some (py "None")⟩] ∧
    (receiveWebhook secretPython subscribed .microsoft "key"
        { body := .json (.obj [(py "value", .arr [idlessNotification])]) }).2 ≠
      expectedEvents secretPython subscribed .microsoft "key"
        { body := .json (.obj [(py "value", .arr [idlessNotification])]) } := by
  decide +kernel

/-- The status and the body of the response; an exception that leaves the route
becomes the answer of the server. -/
def response : Except Failure WebhookAnswer → Nat × String
  | .ok .neutral => (202, "\x7b\"status\":\"ok\"\x7d")
  | .ok (.echo token) => (200, token)
  | .error _ => (500, "Internal Server Error")

/-- A text that a column `String(size)` can hold. -/
def storable (size : Nat) (text : PyStr) : Bool :=
  encodable text && !text.contains 0 && decide (text.length ≤ size)

/-- Tables as the database can hold them. -/
structure Stored (tables : Tables) : Prop where
  subscriptions : ∀ s ∈ tables.subscriptions, storable 255 s.providerSubscriptionId = true
  routes : ∀ r ∈ tables.routes, storable 64 (py r.routeKey) = true

/-- Every secret sent under a name that a subscription can have can be encoded. -/
def Hashable (python : Python) (provider : ConnectorProvider) (request : WebhookRequest) : Prop :=
  ∀ n ∈ notificationsOf python provider request, ∀ secret, n.secret = some secret →
    storable 255 n.named = true → encodable secret = true

/-- The tables with one route, to one subscription. -/
def reachedBy (provider : ConnectorProvider) (routeKey : String) (name : PyStr) : Tables where
  directory := {
    tenants := [⟨1, "acme", "ACME", .active, none⟩]
    users := []
    credentials := []
    memberships := []
    invitations := []
    teams := []
    teamMembers := []
    auditEvents := [] }
  connections := []
  subscriptions := [⟨1, 1, 7, "mail", name, 0, ""⟩]
  routes := [⟨routeKey, provider.value, 1, 7⟩]

/-- The same tables without the route. -/
def unrouted : Tables := { reachedBy .google "" [] with subscriptions := [], routes := [] }

theorem routeOf_reachedBy (provider : ConnectorProvider) (routeKey : String) (name : PyStr) :
    routeOf (reachedBy provider routeKey name) provider routeKey =
      some (⟨routeKey, provider.value, 1, 7⟩, ⟨1, "acme", "ACME", .active, none⟩) := by
  simp [routeOf, reachedBy]

theorem routeOf_eq_none (hstored : Stored tables) (hkey : ¬ storable 64 (py routeKey) = true) :
    routeOf tables provider routeKey = none := by
  have hnone : (tables.routes.find? fun r =>
      r.routeKey == routeKey && r.provider == provider.value) = none := by
    refine List.find?_eq_none.mpr fun r hr hmatch => hkey ?_
    simp only [Bool.and_eq_true, beq_iff_eq] at hmatch
    rw [← hmatch.1]
    exact hstored.routes r hr
  simp [routeOf, hnone]

theorem receiveWebhook_neutral (htoken : request.validationToken = none)
    (hread : Readable provider request) (hhash : Hashable python provider request)
    (hstored : Stored tables) :
    (receiveWebhook python tables provider routeKey request).1 = .ok .neutral := by
  cases hroute : routeOf tables provider routeKey with
  | none => simp [receiveWebhook, htoken, hroute]
  | some found =>
      obtain ⟨route, tenant⟩ := found
      have hok : ∀ n ∈ notificationsOf python provider request,
          (validate python (subscriptionsOf tables route tenant) n).isOk = true := by
        intro n hn
        refine validate_isOk_iff.mpr fun secret hsecret hsome => hhash n hn secret hsecret ?_
        obtain ⟨s, hs⟩ := Option.isSome_iff_exists.mp hsome
        obtain ⟨hmem, hname⟩ := subscriptionFor_eq_some hs
        rw [← hname]
        exact hstored.subscriptions s (List.mem_of_mem_filter hmem)
      simp only [receiveWebhook, htoken, hroute, validatedNotifications_eq htoken hread,
        validateAll_of_isOk hok]

theorem receiveWebhook_raises (htoken : request.validationToken = none)
    (hroute : routeOf tables provider routeKey = some (route, tenant))
    (hraises : ¬ (Readable provider request ∧ ∀ n ∈ notificationsOf python provider request,
      (validate python (subscriptionsOf tables route tenant) n).isOk = true)) :
    ∃ failure, (receiveWebhook python tables provider routeKey request).1 = .error failure := by
  obtain ⟨failure, hfailure⟩ := validatedNotifications_raises htoken hraises
  exact ⟨failure, by simp only [receiveWebhook, htoken, hroute, hfailure]⟩

/-- The answer to a request is the same on all databases if and only if no route
can have its key, or its body can be read and each of its secrets that may reach
the hash can be encoded. -/
theorem answer_tells_nothing_iff (python : Python) (provider : ConnectorProvider)
    (routeKey : String) (request : WebhookRequest) (htoken : request.validationToken = none) :
    (∀ tables tables', Stored tables → Stored tables' →
        response (receiveWebhook python tables provider routeKey request).1 =
          response (receiveWebhook python tables' provider routeKey request).1) ↔
      (storable 64 (py routeKey) = true →
        Readable provider request ∧ Hashable python provider request) := by
  constructor
  · intro hsame hkey
    have hunrouted : (receiveWebhook python unrouted provider routeKey request).1 =
        .ok .neutral := by
      simp [receiveWebhook, htoken, routeOf, unrouted]
    -- a name under which the loop would raise distinguishes the two tables
    have hquiet (name : PyStr) (hname : storable 255 name = true) :
        Readable provider request ∧ ∀ n ∈ notificationsOf python provider request,
          (validate python (subscriptionsOf (reachedBy provider routeKey name)
            ⟨routeKey, provider.value, 1, 7⟩ ⟨1, "acme", "ACME", .active, none⟩) n).isOk = true := by
      by_contra hraises
      obtain ⟨failure, hfailure⟩ :=
        receiveWebhook_raises htoken (routeOf_reachedBy provider routeKey name) hraises
      have heq := hsame unrouted (reachedBy provider routeKey name) ⟨by simp [unrouted], by simp [unrouted]⟩
        ⟨by simpa [reachedBy] using hname, by simpa [reachedBy] using hkey⟩
      rw [hunrouted, hfailure] at heq
      simp [response] at heq
    refine ⟨(hquiet [] (by decide)).1, fun n hn secret hsecret hname => ?_⟩
    refine validate_isOk_iff.mp ((hquiet n.named hname).2 n hn) secret hsecret ?_
    simp [subscriptionFor, subscriptionsOf, reachedBy]
  · intro hquiet tables tables' hstored hstored'
    by_cases hkey : storable 64 (py routeKey) = true
    · obtain ⟨hread, hhash⟩ := hquiet hkey
      rw [receiveWebhook_neutral htoken hread hhash hstored,
        receiveWebhook_neutral htoken hread hhash hstored']
    · simp [receiveWebhook, htoken, routeOf_eq_none hstored hkey, routeOf_eq_none hstored' hkey]

/-- A Graph request with one notification of `sub-1`, under a secret. -/
def secretRequest (secret : PyStr) : WebhookRequest where
  body := .json (.obj [(py "value", .arr [.obj [(py "subscriptionId", .str (py "sub-1")),
    (py "clientState", .str secret)]])])

/-- A wrong secret does not tell whether the route exists. -/
theorem wrong_secret_tells_nothing :
    response (receiveWebhook secretPython subscribed .microsoft "key"
        (secretRequest (py "wrong"))).1 =
      response (receiveWebhook secretPython unrouted .microsoft "key"
        (secretRequest (py "wrong"))).1 := by
  have hsame := (answer_tells_nothing_iff secretPython .microsoft "key"
    (secretRequest (py "wrong")) rfl).mpr fun _ => ⟨?_, ?_⟩
  · refine hsame subscribed unrouted ⟨?_, ?_⟩ ⟨?_, ?_⟩
    · intro s hs
      rw [List.mem_singleton.mp hs]
      decide
    · intro r hr
      rw [List.mem_singleton.mp hr]
      decide
    · intro s hs
      cases hs
    · intro r hr
      cases hr
  · intro _ value h
    cases h
  · intro n hn secret hsecret _
    have hn : n = graphNotification secretPython [(py "subscriptionId", .str (py "sub-1")),
        (py "clientState", .str (py "wrong"))] := List.mem_singleton.mp hn
    rw [hn] at hsecret
    obtain rfl := Option.some.inj hsecret
    decide

/-- A lone surrogate as the secret does: the server error appears only where the
route and the subscription exist. -/
theorem lone_surrogate_tells_the_route :
    response (receiveWebhook secretPython subscribed .microsoft "key"
        (secretRequest [0xD800])).1 = (500, "Internal Server Error") ∧
      response (receiveWebhook secretPython unrouted .microsoft "key"
        (secretRequest [0xD800])).1 = (202, "\x7b\"status\":\"ok\"\x7d") := by
  decide +kernel

end Socle.WebhookDispatch
