import Socle.DirectoryStore
import Socle.TokenExchange

/-!
The tables behind the connectors, the locks kept in Valkey, and the statements,
lock commands and provider calls of the connector operations as the requests of
an interface.
-/

namespace Socle.ConnectorStore

open Socle.Procedures
open Socle.DirectoryStore (Instant Tenant TenantState AuditEvent Directory)
open Socle.TokenExchange

inductive ConnectionKind where
  | tenant
  | user
  deriving DecidableEq, Repr

def ConnectionKind.value : ConnectionKind → String
  | .tenant => "tenant"
  | .user => "user"

inductive ConnectionStatus where
  | active
  | needsReconsent
  | revoked
  | error
  deriving DecidableEq, Repr

def ConnectionStatus.value : ConnectionStatus → String
  | .active => "active"
  | .needsReconsent => "needs_reconsent"
  | .revoked => "revoked"
  | .error => "error"

/-- The columns of a connection that the program assigns after its creation. -/
structure Attributes where
  accountLabel : String
  scopes : List PyStr
  accessTokenEnc : Sealed
  refreshTokenEnc : Sealed
  accessTokenExpiresAt : Instant
  status : ConnectionStatus
  lastError : Option String
  healthCheckedAt : Option Instant
  deriving DecidableEq

/-- `ConnectorConnection`. -/
structure Connection where
  id : Nat
  tenantId : Nat
  provider : ConnectorProvider
  kind : ConnectionKind
  userId : Option Nat
  attributes : Attributes
  deriving DecidableEq

/-- `ConnectorSubscription`. -/
structure Subscription where
  id : Nat
  tenantId : Nat
  connectionId : Nat
  capability : String
  providerSubscriptionId : PyStr
  expiresAt : Instant
  clientStateHash : String
  deriving DecidableEq

structure WebhookRoute where
  routeKey : String
  provider : String
  tenantId : Nat
  connectionId : Nat
  deriving DecidableEq

structure Tables where
  directory : Directory
  connections : List Connection
  subscriptions : List Subscription
  routes : List WebhookRoute

/-- A column of an ORM UPDATE: it is written when its value in memory is no
longer the one that was loaded. -/
def column {α : Type} [DecidableEq α] (loaded current row : α) : α :=
  if current = loaded then row else current

/-- The row after an UPDATE of the changed columns, by primary key and without
a version check. -/
def Attributes.write (loaded current row : Attributes) : Attributes where
  accountLabel := column loaded.accountLabel current.accountLabel row.accountLabel
  scopes := column loaded.scopes current.scopes row.scopes
  accessTokenEnc := column loaded.accessTokenEnc current.accessTokenEnc row.accessTokenEnc
  refreshTokenEnc := column loaded.refreshTokenEnc current.refreshTokenEnc row.refreshTokenEnc
  accessTokenExpiresAt :=
    column loaded.accessTokenExpiresAt current.accessTokenExpiresAt row.accessTokenExpiresAt
  status := column loaded.status current.status row.status
  lastError := column loaded.lastError current.lastError row.lastError
  healthCheckedAt := column loaded.healthCheckedAt current.healthCheckedAt row.healthCheckedAt

@[simp] theorem column_loaded {α : Type} [DecidableEq α] (loaded current : α) :
    column loaded current loaded = current := by
  unfold column
  split
  · rename_i h
    exact h.symm
  · rfl

@[simp] theorem column_same {α : Type} [DecidableEq α] (loaded row : α) :
    column loaded loaded row = row := by
  simp [column]

/-- Nothing else wrote the row since it was loaded: the UPDATE leaves what is
in memory. -/
@[simp] theorem Attributes.write_loaded (loaded current : Attributes) :
    Attributes.write loaded current loaded = current := by
  simp [Attributes.write]

/-- An object of a session's identity map: the row as it was loaded or last
written, and its attributes in memory.  The status and the position of the
history at the first load, and the position at the last one, date what the
session knows; the program does not store them. -/
structure Object where
  row : Connection
  current : Attributes
  isNew : Bool
  firstStatus : ConnectionStatus
  firstMark : Nat
  readMark : Nat
  deriving DecidableEq

namespace Object

def view (o : Object) : Connection := { o.row with attributes := o.current }

def ofRow (mark : Nat) (row : Connection) : Object where
  row := row
  current := row.attributes
  isNew := false
  firstStatus := row.attributes.status
  firstMark := mark
  readMark := mark

/-- `session.refresh`: the columns of the row, save those the session has
changed, which it flushes first. -/
def reload (o : Object) (mark : Nat) (row : Connection) : Object :=
  { o with
    row := row
    current := Attributes.write o.row.attributes o.current row.attributes
    readMark := mark }

/-- The object once its changes are written: nothing is expired on commit. -/
def saved (o : Object) : Object := { o with row := o.view, isNew := false }

end Object

/-- What a flush does besides the updates of connections.  A bulk DELETE removes
the rows it found when it was executed. -/
inductive Change where
  | addSubscription (subscription : Subscription)
  | setExpiry (subscriptionId : Nat) (expiresAt : Instant)
  | deleteSubscription (subscriptionId : Nat)
  | deleteSubscriptions (subscriptionIds : List Nat)
  | addAuditEvent (event : AuditEvent)
  | addRoute (route : WebhookRoute)
  | deleteRoutes (routeKeys : List String)
  deriving DecidableEq

namespace Tables

variable (t : Tables)

def hasConnection (connectionId : Nat) : Bool := t.connections.any fun c => c.id == connectionId

def hasSubscription (subscriptionId : Nat) : Bool :=
  t.subscriptions.any fun s => s.id == subscriptionId

/-- Apply one change under the primary keys, the unique index on route keys and
the foreign key of subscriptions. -/
def apply : Change → Except Failure Tables
  | .addSubscription s =>
      if t.hasSubscription s.id || !t.hasConnection s.connectionId then .error .databaseError
      else .ok { t with subscriptions := t.subscriptions ++ [s] }
  | .setExpiry subscriptionId expiresAt =>
      if t.hasSubscription subscriptionId then
        .ok { t with subscriptions := t.subscriptions.map fun s =>
          if s.id = subscriptionId then { s with expiresAt := expiresAt } else s }
      else .error .databaseError
  | .deleteSubscription subscriptionId =>
      .ok { t with subscriptions := t.subscriptions.filter fun s => s.id != subscriptionId }
  | .deleteSubscriptions subscriptionIds =>
      .ok { t with subscriptions := t.subscriptions.filter fun s => !subscriptionIds.contains s.id }
  | .addAuditEvent event =>
      .ok { t with directory := { t.directory with
        auditEvents := t.directory.auditEvents ++ [event] } }
  | .addRoute route =>
      if t.routes.any fun r => r.routeKey == route.routeKey then .error .databaseError
      else .ok { t with routes := t.routes ++ [route] }
  | .deleteRoutes routeKeys =>
      .ok { t with routes := t.routes.filter fun r => !routeKeys.contains r.routeKey }

def applyAll : Tables → List Change → Except Failure Tables
  | t, [] => .ok t
  | t, change :: rest =>
      match t.apply change with
      | .ok t' => applyAll t' rest
      | .error e => .error e

/-- Flush one object: an INSERT, an UPDATE of what changed, or nothing. -/
def writeObject (o : Object) : Except Failure Tables :=
  if o.isNew then
    if t.hasConnection o.row.id then .error .databaseError
    else .ok { t with connections := t.connections ++ [o.view] }
  else if o.current = o.row.attributes then .ok t
  else if t.hasConnection o.row.id then
    .ok { t with connections := t.connections.map fun c =>
      if c.id = o.row.id then
        { c with attributes := Attributes.write o.row.attributes o.current c.attributes }
      else c }
  else .error .databaseError

def writeObjects : Tables → List Object → Except Failure Tables
  | t, [] => .ok t
  | t, o :: rest =>
      match t.writeObject o with
      | .ok t' => writeObjects t' rest
      | .error e => .error e

/-- The transaction of one commit: connections first, then the other changes. -/
def commit (objects : List Object) (changes : List Change) : Except Failure Tables :=
  match t.writeObjects objects with
  | .ok t' => t'.applyAll changes
  | .error e => .error e

def connection? (connectionId : Nat) : Option Connection :=
  t.connections.find? fun c => c.id == connectionId

def activeTenants : List Tenant :=
  t.directory.tenants.filter fun x => x.state == .active && x.deletedAt.isNone

end Tables

inductive LockName where
  | refresh (connectionId : Nat)
  | renew (subscriptionId : Nat)
  | periodic (moduleName taskName : String) (tenantId : Nat)
  deriving DecidableEq, Repr

def LockName.text : LockName → String
  | .refresh connectionId => s!"refresh:{connectionId}"
  | .renew subscriptionId => s!"renew:{subscriptionId}"
  | .periodic moduleName taskName tenantId => s!"module:{moduleName}:{taskName}:{tenantId}"

structure Lock where
  name : LockName
  token : Nat
  expiresAt : Instant
  deriving DecidableEq

/-- `LOCK_TTL_SECONDS`. -/
def lockTtl : Instant := 30000000

/-- What happened so far: the answers of the provider for each connection, its calls for
a tenant that has no connection yet, and what commits did.  The program stores none of it. -/
inductive Event where
  | presented (connectionId : Nat) (refreshToken : PyStr)
  | exchanged (connectionId : Nat) (refreshToken : PyStr)
  | refused (connectionId : Nat)
  | called (connectionId : Nat) (answer : HttpAnswer)
  | revocationSent (connectionId : Nat)
  | codeSent (tenantId : Nat)
  | accountRead (tenantId : Nat)
  | settled (connectionId : Nat)
  | revoked (connectionId : Nat)

/-- The tasks handed to Celery. -/
inductive Task where
  | syncSubscriptions (slug : String) (connectionId : Nat)
  | eventReceived (slug : String) (connectionId : Nat) (provider capability changeType : String)
      (resourceId : Option String)
  deriving DecidableEq

/-- The committed tables, the locks, the queue, the provider's state and the
history. -/
structure World (π : Type) where
  tables : Tables
  locks : List Lock
  queue : List Task
  endpoint : π
  history : List Event

/-- The state of one operation: the tenant of its context, the identity map and
the pending changes of its tenant session, those of its control session, and
the refresh tokens issued to it since its last commit. -/
structure Session where
  tenantId : Nat := 0
  objects : List Object := []
  pending : List Change := []
  control : List Change := []
  issued : List (Nat × PyStr) := []
  deriving DecidableEq

/-- What the environment supplies at a request. -/
structure Choice where
  now : Instant := 0
  uuid : Nat := 0
  nonce : Nat := 0
  token : String := ""
  answer : HttpAnswer := .transportError ""

/-- A thread takes some steps, with nothing chosen in particular. -/
def steps (thread count : Nat) : List (Nat × Choice) := List.replicate count (thread, {})

/-- The readings an assignment may use. -/
structure Stamp where
  now : Instant
  nonce : Nat

/-- How the token endpoint answers the refresh token of a connection. -/
abbrev TokenEndpoint (π : Type) := π → Nat → PyStr → Choice → π × HttpAnswer

/-- Any answer at any time. -/
def anyAnswer : TokenEndpoint Unit := fun _ _ _ c => ((), c.answer)

inductive Request where
  | now
  | uuid
  | generateToken
  | activeTenants
  | selectTenantBySlug (slug : String)
  | getTenant (tenantId : Nat)
  | openSession (tenantId : Nat)
  | selectActiveConnections
  | selectConnections
  | getConnection (connectionId : Nat)
  | findConnection (provider : ConnectorProvider) (kind : ConnectionKind) (accountLabel : String)
  | addConnection (provider : ConnectorProvider) (kind : ConnectionKind) (userId : Option Nat)
      (accountLabel : String) (scopes : List PyStr)
  | refreshObject (connectionId : Nat)
  | readObject (connectionId : Nat)
  | expiring (connectionId : Nat) (lead : Instant)
  | assign (connectionId : Nat) (value : Stamp → Attributes → Except Failure Attributes)
  | acquireLock (name : LockName)
  | lockHolder (name : LockName)
  | deleteLock (name : LockName)
  | exchange (connectionId : Nat) (refreshToken : PyStr)
  | exchangeCode (tenantId : Nat) (provider : ConnectorProvider) (code : String)
  | accountInfo (tenantId : Nat) (provider : ConnectorProvider) (accessToken : PyStr)
  | revokeRemote (connectionId : Nat) (provider : ConnectorProvider) (refreshToken : PyStr)
  | callApi (connectionId : Nat) (method path : String) (accessToken : PyStr)
  | selectExpiringSubscriptions (horizon : Instant)
  | selectSubscriptions (connectionId : Nat)
  | addSubscription (connectionId : Nat) (capability : String) (providerSubscriptionId : PyStr)
      (expiresAt : Instant) (clientStateHash : String)
  | setExpiry (subscriptionId : Nat) (expiresAt : Instant)
  | deleteSubscription (subscriptionId : Nat)
  | deleteSubscriptionsOf (connectionId : Nat)
  | addAuditEvent (event : AuditEvent)
  | commit
  | selectRoute (connectionId : Nat)
  | selectRouteByKey (routeKey provider : String)
  | addRoute (route : WebhookRoute)
  | deleteRoutesOf (connectionId : Nat)
  | commitControl
  | enqueue (task : Task)

@[reducible] def Answer : Request → Type
  | .now => Instant
  | .uuid => Nat
  | .generateToken => String
  | .activeTenants => List Tenant
  | .selectTenantBySlug _ => Option Tenant
  | .getTenant _ => Option Tenant
  | .openSession _ => Unit
  | .selectActiveConnections => List Nat
  | .selectConnections => List Connection
  | .getConnection _ => Bool
  | .findConnection .. => Option Nat
  | .addConnection .. => Nat
  | .refreshObject _ => Bool
  | .readObject _ => Option Connection
  | .expiring .. => Bool
  | .assign .. => Except Failure Unit
  | .acquireLock _ => Option Nat
  | .lockHolder _ => Option Nat
  | .deleteLock _ => Unit
  | .exchange .. => HttpAnswer
  | .exchangeCode .. => HttpAnswer
  | .accountInfo .. => HttpAnswer
  | .revokeRemote .. => HttpAnswer
  | .callApi .. => HttpAnswer
  | .selectExpiringSubscriptions _ => List Subscription
  | .selectSubscriptions _ => List Subscription
  | .addSubscription .. => Unit
  | .setExpiry .. => Unit
  | .deleteSubscription _ => Unit
  | .deleteSubscriptionsOf _ => Unit
  | .addAuditEvent _ => Unit
  | .commit => Except Failure Unit
  | .selectRoute _ => Option WebhookRoute
  | .selectRouteByKey .. => Option WebhookRoute
  | .addRoute _ => Unit
  | .deleteRoutesOf _ => Unit
  | .commitControl => Except Failure Unit
  | .enqueue _ => Unit

abbrev ConnectorInterface : Interface := ⟨Request, Answer⟩

namespace Session

variable (l : Session)

def object? (connectionId : Nat) : Option Object :=
  l.objects.find? fun o => o.row.id == connectionId

/-- A row the database returns is the object of the identity map when there is
one for its primary key. -/
def load (mark : Nat) (row : Connection) : Session :=
  match l.object? row.id with
  | some _ => l
  | none => { l with objects := Object.ofRow mark row :: l.objects }

def loadAll (mark : Nat) : Session → List Connection → Session
  | l, [] => l
  | l, row :: rest => loadAll mark (l.load mark row) rest

def update (connectionId : Nat) (f : Object → Object) : Session :=
  { l with objects := l.objects.map fun o => if o.row.id = connectionId then f o else o }

def add (change : Change) : Session := { l with pending := l.pending ++ [change] }

def addControl (change : Change) : Session := { l with control := l.control ++ [change] }

end Session

/-- What the commit of an object did that other operations may depend on. -/
def Object.trace (o : Object) : List Event :=
  (if o.current.refreshTokenEnc = o.row.attributes.refreshTokenEnc then []
    else [.settled o.row.id]) ++
  (if o.current.status = .revoked ∧ o.row.attributes.status ≠ .revoked then [.revoked o.row.id]
    else [])

/-- What an answer of the token endpoint told. -/
def exchangeTrace (connectionId : Nat) (refreshToken : PyStr) (answer : HttpAnswer) :
    List Event :=
  .presented connectionId refreshToken ::
    match readAnswer .google answer with
    | .ok _ => [.exchanged connectionId refreshToken]
    | .error (.invalidGrant _) => [.refused connectionId]
    | .error _ => []

def issuedBy (connectionId : Nat) (answer : HttpAnswer) : List (Nat × PyStr) :=
  match readAnswer .google answer with
  | .ok bundle => bundle.refreshToken.toList.map fun token => (connectionId, token)
  | .error _ => []

namespace World

variable {π : Type} (w : World π)

def record (events : List Event) : World π := { w with history := w.history ++ events }

def liveLock? (now : Instant) (name : LockName) : Option Lock :=
  w.locks.find? fun lock => lock.name == name && decide (now < lock.expiresAt)

/-- `SET NX EX`. -/
def acquireLock (now : Instant) (name : LockName) (token : Nat) : World π × Option Nat :=
  match w.liveLock? now name with
  | some _ => (w, none)
  | none =>
      ({ w with locks := ⟨name, token, now + lockTtl⟩ :: w.locks.filter fun x => x.name != name },
        some token)

def deleteLock (name : LockName) : World π :=
  { w with locks := w.locks.filter fun x => x.name != name }

/-- Commit a tenant session. -/
def commit (l : Session) : World π × Session × Except Failure Unit :=
  match w.tables.commit l.objects l.pending with
  | .ok t =>
      ({ w with tables := t, history := w.history ++ l.objects.flatMap Object.trace },
        { l with objects := l.objects.map Object.saved, pending := [], issued := [] }, .ok ())
  | .error e => (w, { l with objects := [], pending := [] }, .error e)

def commitControl (l : Session) : World π × Session × Except Failure Unit :=
  match w.tables.applyAll l.control with
  | .ok t => ({ w with tables := t }, { l with control := [] }, .ok ())
  | .error e => (w, { l with control := [] }, .error e)

end World

/-- The effect of each request.  Reads see the committed rows of the tenant of
the session; writes stay pending until the session commits. -/
def serve {π : Type} (endpoint : TokenEndpoint π) :
    Serve ConnectorInterface (World π) Session Choice
  | w, l, .now, c => (w, l, c.now)
  | w, l, .uuid, c => (w, l, c.uuid)
  | w, l, .generateToken, c => (w, l, c.token)
  | w, l, .activeTenants, _ => (w, l, w.tables.activeTenants)
  | w, l, .selectTenantBySlug slug, _ =>
      (w, l, w.tables.directory.tenants.find? fun t => t.slug == slug)
  | w, l, .getTenant tenantId, _ =>
      (w, l, w.tables.directory.tenants.find? fun t => t.id == tenantId)
  | w, l, .openSession tenantId, _ =>
      (w, { l with tenantId := tenantId, objects := [], pending := [], issued := [] }, ())
  | w, l, .selectActiveConnections, _ =>
      let rows := w.tables.connections.filter fun c =>
        c.tenantId == l.tenantId && c.attributes.status == .active
      (w, Session.loadAll w.history.length l rows, rows.map (·.id))
  | w, l, .selectConnections, _ =>
      (w, l, w.tables.connections.filter fun c => c.tenantId == l.tenantId)
  | w, l, .getConnection connectionId, _ =>
      match l.object? connectionId with
      | some _ => (w, l, true)
      | none =>
          match w.tables.connections.find? fun c =>
              c.id == connectionId && c.tenantId == l.tenantId with
          | some row => (w, l.load w.history.length row, true)
          | none => (w, l, false)
  | w, l, .findConnection provider kind accountLabel, _ =>
      match w.tables.connections.find? fun c =>
          c.tenantId == l.tenantId && c.provider == provider && c.kind == kind &&
            c.attributes.accountLabel == accountLabel && c.attributes.status != .revoked with
      | some row => (w, l.load w.history.length row, some row.id)
      | none => (w, l, none)
  | w, l, .addConnection provider kind userId accountLabel scopes, c =>
      let row : Connection := ⟨c.uuid, l.tenantId, provider, kind, userId,
        ⟨accountLabel, scopes, [], [], c.now, .active, none, none⟩⟩
      (w, { l with objects :=
        { Object.ofRow w.history.length row with isNew := true } :: l.objects }, c.uuid)
  | w, l, .refreshObject connectionId, _ =>
      match w.tables.connection? connectionId with
      | some row => (w, l.update connectionId fun o => o.reload w.history.length row, true)
      | none => (w, l, false)
  | w, l, .readObject connectionId, _ => (w, l, (l.object? connectionId).map Object.view)
  | w, l, .expiring connectionId lead, c =>
      (w, l, (l.object? connectionId).any fun o =>
        decide (o.current.accessTokenExpiresAt ≤ c.now + lead))
  | w, l, .assign connectionId value, c =>
      match l.object? connectionId with
      | none => (w, l, .ok ())
      | some o =>
          match value ⟨c.now, c.nonce⟩ o.current with
          | .ok attributes =>
              (w, l.update connectionId fun o => { o with current := attributes }, .ok ())
          | .error e => (w, l, .error e)
  | w, l, .acquireLock name, c =>
      let out := w.acquireLock c.now name c.uuid
      (out.1, l, out.2)
  | w, l, .lockHolder name, c => (w, l, (w.liveLock? c.now name).map (·.token))
  | w, l, .deleteLock name, _ => (w.deleteLock name, l, ())
  | w, l, .exchange connectionId refreshToken, c =>
      let out := endpoint w.endpoint connectionId refreshToken c
      ({ w with
          endpoint := out.1
          history := w.history ++ exchangeTrace connectionId refreshToken out.2 },
        { l with issued := issuedBy connectionId out.2 ++ l.issued }, out.2)
  | w, l, .exchangeCode tenantId .., c => (w.record [.codeSent tenantId], l, c.answer)
  | w, l, .accountInfo tenantId .., c => (w.record [.accountRead tenantId], l, c.answer)
  | w, l, .revokeRemote connectionId .., c =>
      (w.record [.revocationSent connectionId], l, c.answer)
  | w, l, .callApi connectionId .., c =>
      (w.record [.called connectionId c.answer], l, c.answer)
  | w, l, .selectExpiringSubscriptions horizon, _ =>
      (w, l, w.tables.subscriptions.filter fun s =>
        s.tenantId == l.tenantId && decide (s.expiresAt ≤ horizon))
  | w, l, .selectSubscriptions connectionId, _ =>
      (w, l, w.tables.subscriptions.filter fun s =>
        s.tenantId == l.tenantId && s.connectionId == connectionId)
  | w, l, .addSubscription connectionId capability providerSubscriptionId expiresAt hash, c =>
      (w, l.add (.addSubscription
        ⟨c.uuid, l.tenantId, connectionId, capability, providerSubscriptionId, expiresAt, hash⟩),
        ())
  | w, l, .setExpiry subscriptionId expiresAt, _ =>
      (w, l.add (.setExpiry subscriptionId expiresAt), ())
  | w, l, .deleteSubscription subscriptionId, _ =>
      (w, l.add (.deleteSubscription subscriptionId), ())
  | w, l, .deleteSubscriptionsOf connectionId, _ =>
      let found := w.tables.subscriptions.filter fun s =>
        s.tenantId == l.tenantId && s.connectionId == connectionId
      (w, l.add (.deleteSubscriptions (found.map (·.id))), ())
  | w, l, .addAuditEvent event, _ =>
      (w, l.add (.addAuditEvent { event with tenantId := l.tenantId }), ())
  | w, l, .commit, _ => w.commit l
  | w, l, .selectRoute connectionId, _ =>
      (w, l, w.tables.routes.find? fun r => r.connectionId == connectionId)
  | w, l, .selectRouteByKey routeKey provider, _ =>
      (w, l, w.tables.routes.find? fun r => r.routeKey == routeKey && r.provider == provider)
  | w, l, .addRoute route, _ => (w, l.addControl (.addRoute route), ())
  | w, l, .deleteRoutesOf connectionId, _ =>
      let found := w.tables.routes.filter fun r => r.connectionId == connectionId
      (w, l.addControl (.deleteRoutes (found.map (·.routeKey))), ())
  | w, l, .commitControl, _ => w.commitControl l
  | w, l, .enqueue task, _ => ({ w with queue := w.queue ++ [task] }, l, ())

end Socle.ConnectorStore
