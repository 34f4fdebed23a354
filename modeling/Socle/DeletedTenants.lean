import Socle.ConnectorJobs

/-!
What the connector operations leave of a tenant that is no longer active: any number of beats,
syncs, events, callbacks and requests of other tenants, one request at a time in any order.
-/

namespace Socle.DeletedTenants

open Socle.GuardedRuns
open Socle.Procedures
open Socle.Knowledge
open Socle.DirectoryStore (Tenant User AuditEvent)
open Socle.TokenExchange
open Socle.ConnectorStore
open Socle.ConnectorService
open Socle.WebhookDispatch hiding receiveWebhook
open Socle.ConnectorKnowledge
open Socle.ConnectorJobs

/-! ### The share of a tenant -/

/-- The rows of one tenant. -/
structure Share where
  connections : List Connection
  subscriptions : List Subscription
  routes : List WebhookRoute
  auditEvents : List AuditEvent
  deriving DecidableEq

def shareOf (tenantId : Nat) (t : Tables) : Share where
  connections := t.connections.filter fun c => c.tenantId == tenantId
  subscriptions := t.subscriptions.filter fun s => s.tenantId == tenantId
  routes := t.routes.filter fun r => r.tenantId == tenantId
  auditEvents := t.directory.auditEvents.filter fun e => e.tenantId == tenantId

namespace Share

variable (share : Share)

def connectionIds : List Nat := share.connections.map (·.id)

def subscriptionIds : List Nat := share.subscriptions.map (·.id)

def routeKeys : List String := share.routes.map (·.routeKey)

end Share

/-- An event of the history is about the tenant or one of its connections. -/
def concerns (tenantId : Nat) (connectionIds : List Nat) : Event → Bool
  | .presented connectionId _ | .exchanged connectionId _ | .refused connectionId
  | .called connectionId _ | .revocationSent connectionId | .settled connectionId
  | .revoked connectionId => connectionIds.contains connectionId
  | .codeSent id | .accountRead id => id == tenantId

/-- What the providers have seen of a tenant and of its connections, and what commits did
to them. -/
def historyOf (tenantId : Nat) (connectionIds : List Nat) (history : List Event) : List Event :=
  history.filter (concerns tenantId connectionIds)

theorem filter_map_same {α : Type} {p : α → Bool} {f : α → α} {rows : List α}
    (hp : ∀ x, p (f x) = p x) (hf : ∀ x ∈ rows, p x = true → f x = x) :
    (rows.map f).filter p = rows.filter p := by
  induction rows with
  | nil => rfl
  | cons x rest ih =>
      have hrest := ih fun y hy => hf y (List.mem_cons_of_mem _ hy)
      rw [List.map_cons, List.filter_cons, List.filter_cons, hp, hrest]
      split
      · rename_i hx
        rw [hf x List.mem_cons_self hx]
      · rfl

theorem filter_filter_same {α : Type} {p q : α → Bool} {rows : List α}
    (h : ∀ x ∈ rows, p x = true → q x = true) : (rows.filter q).filter p = rows.filter p := by
  rw [List.filter_filter]
  refine List.filter_congr fun x hx => ?_
  cases hpx : p x with
  | false => rfl
  | true => rw [h x hx hpx, Bool.and_self]

theorem filter_snoc_same {α : Type} {p : α → Bool} {rows : List α} {row : α}
    (h : p row = false) : (rows ++ [row]).filter p = rows.filter p := by
  simp [List.filter_append, h]

section Kept

variable (deleted : Nat) (before : Tables)

/-- The change concerns no row of the share. -/
def Spares (share : Share) : Change → Prop
  | .addSubscription s => s.tenantId ≠ deleted
  | .setExpiry subscriptionId _ => subscriptionId ∉ share.subscriptionIds
  | .deleteSubscription subscriptionId => subscriptionId ∉ share.subscriptionIds
  | .deleteSubscriptions subscriptionIds => ∀ id ∈ subscriptionIds, id ∉ share.subscriptionIds
  | .addAuditEvent e => e.tenantId ≠ deleted
  | .addRoute r => r.tenantId ≠ deleted
  | .deleteRoutes routeKeys => ∀ key ∈ routeKeys, key ∉ share.routeKeys

/-- The share is what it was, and no other row has taken one of its keys. -/
structure Kept (t : Tables) : Prop where
  share : shareOf deleted t = shareOf deleted before
  directory : t.directory = { before.directory with auditEvents := t.directory.auditEvents }
  connections : ∀ c ∈ t.connections, c.id ∈ (shareOf deleted before).connectionIds →
    c.tenantId = deleted
  subscriptions : ∀ s ∈ t.subscriptions, s.id ∈ (shareOf deleted before).subscriptionIds →
    s.tenantId = deleted
  routes : ∀ r ∈ t.routes, r.routeKey ∈ (shareOf deleted before).routeKeys →
    r.tenantId = deleted

variable {deleted before} {t t' : Tables}

theorem Kept.mem_connections (h : Kept deleted before t) {c : Connection} (hc : c ∈ t.connections)
    (htenant : c.tenantId = deleted) : c.id ∈ (shareOf deleted before).connectionIds := by
  rw [← h.share]
  exact List.mem_map_of_mem (List.mem_filter.mpr ⟨hc, beq_iff_eq.mpr htenant⟩)

theorem Kept.mem_subscriptions (h : Kept deleted before t) {s : Subscription}
    (hs : s ∈ t.subscriptions) (htenant : s.tenantId = deleted) :
    s.id ∈ (shareOf deleted before).subscriptionIds := by
  rw [← h.share]
  exact List.mem_map_of_mem (List.mem_filter.mpr ⟨hs, beq_iff_eq.mpr htenant⟩)

theorem Kept.mem_routes (h : Kept deleted before t) {r : WebhookRoute} (hr : r ∈ t.routes)
    (htenant : r.tenantId = deleted) : r.routeKey ∈ (shareOf deleted before).routeKeys := by
  rw [← h.share]
  exact List.mem_map_of_mem (List.mem_filter.mpr ⟨hr, beq_iff_eq.mpr htenant⟩)

theorem Kept.hasConnection (h : Kept deleted before t) {connectionId : Nat}
    (hid : connectionId ∈ (shareOf deleted before).connectionIds) :
    t.hasConnection connectionId = true := by
  rw [← h.share] at hid
  obtain ⟨c, hc, rfl⟩ := List.mem_map.mp hid
  exact List.any_eq_true.mpr ⟨c, List.mem_of_mem_filter hc, beq_self_eq_true _⟩

theorem Kept.hasSubscription (h : Kept deleted before t) {subscriptionId : Nat}
    (hid : subscriptionId ∈ (shareOf deleted before).subscriptionIds) :
    t.hasSubscription subscriptionId = true := by
  rw [← h.share] at hid
  obtain ⟨s, hs, rfl⟩ := List.mem_map.mp hid
  exact List.any_eq_true.mpr ⟨s, List.mem_of_mem_filter hs, beq_self_eq_true _⟩

theorem Kept.apply (h : Kept deleted before t) {change : Change}
    (hspares : Spares deleted (shareOf deleted before) change)
    (happly : t.apply change = .ok t') : Kept deleted before t' := by
  cases change with
  | addSubscription s =>
      simp only [Tables.apply] at happly
      split at happly
      · cases happly
      rename_i hfree
      cases happly
      have hfree := Bool.or_eq_false_iff.mp (Bool.eq_false_iff.mpr hfree)
      refine ⟨?_, h.directory, h.connections, fun x hx hid => ?_, h.routes⟩
      · rw [← h.share]
        simp only [shareOf]
        rw [filter_snoc_same]
        exact beq_eq_false_iff_ne.mpr hspares
      · rcases List.mem_append.mp hx with hold | hnew
        · exact h.subscriptions x hold hid
        · rw [List.mem_singleton.mp hnew] at hid
          rw [h.hasSubscription hid] at hfree
          cases hfree.1
  | setExpiry subscriptionId expiresAt =>
      simp only [Tables.apply] at happly
      split at happly
      · cases happly
        have hsame (x : Subscription) :
            (if x.id = subscriptionId then { x with expiresAt := expiresAt } else x).id = x.id ∧
              (if x.id = subscriptionId then { x with expiresAt := expiresAt } else x).tenantId =
                x.tenantId := by
          split <;> exact ⟨rfl, rfl⟩
        refine ⟨?_, h.directory, h.connections, fun x hx hid => ?_, h.routes⟩
        · rw [← h.share]
          simp only [shareOf]
          rw [filter_map_same fun x => by rw [(hsame x).2]]
          intro x hx htenant
          refine if_neg fun heq => hspares ?_
          exact heq ▸ h.mem_subscriptions hx (beq_iff_eq.mp htenant)
        · obtain ⟨y, hy, rfl⟩ := List.mem_map.mp hx
          rw [(hsame y).1] at hid
          rw [(hsame y).2]
          exact h.subscriptions y hy hid
      · cases happly
  | deleteSubscription subscriptionId =>
      cases happly
      refine ⟨?_, h.directory, h.connections, fun x hx =>
        h.subscriptions x (List.mem_of_mem_filter hx), h.routes⟩
      rw [← h.share]
      simp only [shareOf]
      rw [filter_filter_same]
      intro x hx htenant
      refine bne_iff_ne.mpr fun heq => hspares ?_
      exact heq ▸ h.mem_subscriptions hx (beq_iff_eq.mp htenant)
  | deleteSubscriptions subscriptionIds =>
      cases happly
      refine ⟨?_, h.directory, h.connections, fun x hx =>
        h.subscriptions x (List.mem_of_mem_filter hx), h.routes⟩
      rw [← h.share]
      simp only [shareOf]
      rw [filter_filter_same]
      intro x hx htenant
      simp only [Bool.not_eq_true', List.contains_eq_mem, decide_eq_false_iff_not]
      exact fun hmem => hspares x.id hmem (h.mem_subscriptions hx (beq_iff_eq.mp htenant))
  | addAuditEvent e =>
      cases happly
      refine ⟨?_, ?_, h.connections, h.subscriptions, h.routes⟩
      · rw [← h.share]
        simp only [shareOf]
        rw [filter_snoc_same]
        exact beq_eq_false_iff_ne.mpr hspares
      · rw [h.directory]
  | addRoute r =>
      simp only [Tables.apply] at happly
      split at happly
      · cases happly
      rename_i hfree
      cases happly
      refine ⟨?_, h.directory, h.connections, h.subscriptions, fun x hx hkey => ?_⟩
      · rw [← h.share]
        simp only [shareOf]
        rw [filter_snoc_same]
        exact beq_eq_false_iff_ne.mpr hspares
      · rcases List.mem_append.mp hx with hold | hnew
        · exact h.routes x hold hkey
        · rw [List.mem_singleton.mp hnew, ← h.share] at hkey
          obtain ⟨y, hy, hsame⟩ := List.mem_map.mp hkey
          exact (hfree (List.any_eq_true.mpr
            ⟨y, List.mem_of_mem_filter hy, beq_iff_eq.mpr hsame⟩)).elim
  | deleteRoutes routeKeys =>
      cases happly
      refine ⟨?_, h.directory, h.connections, h.subscriptions, fun x hx =>
        h.routes x (List.mem_of_mem_filter hx)⟩
      rw [← h.share]
      simp only [shareOf]
      rw [filter_filter_same]
      intro x hx htenant
      simp only [Bool.not_eq_true', List.contains_eq_mem, decide_eq_false_iff_not]
      exact fun hmem => hspares x.routeKey hmem (h.mem_routes hx (beq_iff_eq.mp htenant))

theorem Kept.applyAll (h : Kept deleted before t) {changes : List Change}
    (hspares : ∀ change ∈ changes, Spares deleted (shareOf deleted before) change)
    (happly : t.applyAll changes = .ok t') : Kept deleted before t' := by
  induction changes generalizing t with
  | nil =>
      cases happly
      exact h
  | cons change rest ih =>
      rw [Tables.applyAll] at happly
      split at happly
      · rename_i u hu
        exact ih (h.apply (hspares change List.mem_cons_self) hu)
          (fun c hc => hspares c (List.mem_cons_of_mem _ hc)) happly
      · cases happly

/-- The object is of another tenant. -/
def Outside (deleted : Nat) (share : Share) (o : Object) : Prop :=
  o.row.id ∉ share.connectionIds ∧ o.row.tenantId ≠ deleted

theorem Kept.writeObject (h : Kept deleted before t) {o : Object}
    (ho : Outside deleted (shareOf deleted before) o) (hwrite : t.writeObject o = .ok t') :
    Kept deleted before t' := by
  unfold Tables.writeObject at hwrite
  split at hwrite
  · split at hwrite
    · cases hwrite
    cases hwrite
    refine ⟨?_, h.directory, fun c hc hid => ?_, h.subscriptions, h.routes⟩
    · rw [← h.share]
      simp only [shareOf]
      rw [filter_snoc_same]
      exact beq_eq_false_iff_ne.mpr ho.2
    · rcases List.mem_append.mp hc with hold | hnew
      · exact h.connections c hold hid
      · rw [List.mem_singleton.mp hnew] at hid
        exact (ho.1 hid).elim
  split at hwrite
  · cases hwrite
    exact h
  split at hwrite
  · cases hwrite
    have hsame (c : Connection) :
        (if c.id = o.row.id then
          { c with attributes := Attributes.write o.row.attributes o.current c.attributes }
        else c).id = c.id ∧
        (if c.id = o.row.id then
          { c with attributes := Attributes.write o.row.attributes o.current c.attributes }
        else c).tenantId = c.tenantId := by
      split <;> exact ⟨rfl, rfl⟩
    refine ⟨?_, h.directory, fun c hc hid => ?_, h.subscriptions, h.routes⟩
    · rw [← h.share]
      simp only [shareOf]
      rw [filter_map_same fun c => by rw [(hsame c).2]]
      intro c hc htenant
      refine if_neg fun heq => ho.1 ?_
      exact heq ▸ h.mem_connections hc (beq_iff_eq.mp htenant)
    · obtain ⟨d, hd, rfl⟩ := List.mem_map.mp hc
      rw [(hsame d).1] at hid
      rw [(hsame d).2]
      exact h.connections d hd hid
  · cases hwrite

theorem Kept.writeObjects (h : Kept deleted before t) {objects : List Object}
    (hobjects : ∀ o ∈ objects, Outside deleted (shareOf deleted before) o)
    (hwrite : t.writeObjects objects = .ok t') : Kept deleted before t' := by
  induction objects generalizing t with
  | nil =>
      cases hwrite
      exact h
  | cons o rest ih =>
      rw [Tables.writeObjects] at hwrite
      split at hwrite
      · rename_i u hu
        exact ih (h.writeObject (hobjects o List.mem_cons_self) hu)
          (fun x hx => hobjects x (List.mem_cons_of_mem _ hx)) hwrite
      · cases hwrite

end Kept

section Apart

variable {deleted : Nat} {share : Share} {l : Session} {known : Set Fact}

/-- The fact is not about the tenant.  A route may be looked up and a key drawn that is one of
the tenant's: nothing is written under it. -/
def Foreign (deleted : Nat) (share : Share) : Fact → Prop
  | .tenant tenantId => tenantId ≠ deleted
  | .connection connectionId => connectionId ∉ share.connectionIds
  | .subscription subscriptionId => subscriptionId ∉ share.subscriptionIds
  | .route _ | .key _ | .handed _ | .record .. => True

theorem foreign_about {deleted : Nat} {share : Share} {connectionId : Nat}
    (h : connectionId ∉ share.connectionIds) :
    ∀ fact ∈ about connectionId, Foreign deleted share fact := by
  rintro fact (rfl | rfl)
  · exact h
  · trivial

/-- A session that holds nothing of the tenant and is to change nothing of it. -/
structure Apart (deleted : Nat) (share : Share) (l : Session) (known : Set Fact) : Prop where
  tenant : l.tenantId ≠ deleted
  objects : ∀ o ∈ l.objects, Outside deleted share o
  pending : ∀ change ∈ l.pending, Spares deleted share change
  control : ∀ change ∈ l.control, Spares deleted share change
  known : ∀ fact ∈ known, Foreign deleted share fact

theorem Apart.tell (h : Apart deleted share l known) {facts : Set Fact}
    (hfacts : ∀ fact ∈ facts, Foreign deleted share fact) :
    Apart deleted share l (known ∪ facts) :=
  ⟨h.tenant, h.objects, h.pending, h.control, fun fact hfact =>
    hfact.elim (h.known fact) (hfacts fact)⟩

theorem Apart.tell_nothing (h : Apart deleted share l known) :
    Apart deleted share l (known ∪ ∅) :=
  h.tell fun _ hfact => hfact.elim

theorem Apart.hold (h : Apart deleted share l known) {o : Object}
    (ho : Outside deleted share o) :
    Apart deleted share { l with objects := o :: l.objects } known := by
  refine ⟨h.tenant, fun x hx => ?_, h.pending, h.control, h.known⟩
  rcases List.mem_cons.mp hx with rfl | hold
  · exact ho
  · exact h.objects x hold

theorem Apart.load (h : Apart deleted share l known) {mark : Nat} {row : Connection}
    (hrow : row.id ∉ share.connectionIds ∧ row.tenantId ≠ deleted) :
    Apart deleted share (l.load mark row) known := by
  unfold Session.load
  split
  · exact h
  · exact h.hold hrow

theorem Apart.loadAll (h : Apart deleted share l known) {mark : Nat} {rows : List Connection}
    (hrows : ∀ row ∈ rows, row.id ∉ share.connectionIds ∧ row.tenantId ≠ deleted) :
    Apart deleted share (Session.loadAll mark l rows) known := by
  induction rows generalizing l with
  | nil => exact h
  | cons row rest ih =>
      exact ih (h.load (hrows row List.mem_cons_self)) fun r hr =>
        hrows r (List.mem_cons_of_mem _ hr)

theorem Apart.update (h : Apart deleted share l known) {connectionId : Nat} {f : Object → Object}
    (hf : ∀ o, Outside deleted share o → o.row.id = connectionId → Outside deleted share (f o)) :
    Apart deleted share (l.update connectionId f) known := by
  refine ⟨h.tenant, fun o ho => ?_, h.pending, h.control, h.known⟩
  obtain ⟨x, hx, rfl⟩ := List.mem_map.mp ho
  split
  · rename_i hid
    exact hf x (h.objects x hx) hid
  · exact h.objects x hx

theorem Apart.add (h : Apart deleted share l known) {change : Change}
    (hspares : Spares deleted share change) : Apart deleted share (l.add change) known := by
  refine ⟨h.tenant, h.objects, fun c hc => ?_, h.control, h.known⟩
  rcases List.mem_append.mp hc with hold | hnew
  · exact h.pending c hold
  · rw [List.mem_singleton.mp hnew]
    exact hspares

theorem Apart.addControl (h : Apart deleted share l known) {change : Change}
    (hspares : Spares deleted share change) : Apart deleted share (l.addControl change) known := by
  refine ⟨h.tenant, h.objects, h.pending, fun c hc => ?_, h.known⟩
  rcases List.mem_append.mp hc with hold | hnew
  · exact h.control c hold
  · rw [List.mem_singleton.mp hnew]
    exact hspares

end Apart

section Requests

variable {π : Type} {endpoint : TokenEndpoint π} {deleted : Nat} {before w : World π} {l : Session}
  {env : Env} {known : Set Fact}

/-- Nothing of the tenant is changed, and no provider has heard of it or its connections. -/
structure Untouched (deleted : Nat) (before w : World π) : Prop where
  tables : Kept deleted before.tables w.tables
  history : historyOf deleted (shareOf deleted before.tables).connectionIds w.history =
    historyOf deleted (shareOf deleted before.tables).connectionIds before.history

theorem historyOf_append {ids : List Nat} {history events : List Event}
    (hevents : ∀ e ∈ events, concerns deleted ids e = false) :
    historyOf deleted ids (history ++ events) = historyOf deleted ids history := by
  have hnone : historyOf deleted ids events = [] := by
    refine List.filter_eq_nil_iff.mpr fun e he => ?_
    simpa using hevents e he
  rw [historyOf, List.filter_append]
  exact (congrArg _ hnone).trans (List.append_nil _)

theorem concerns_trace {ids : List Nat} {o : Object} (ho : o.row.id ∉ ids) {e : Event}
    (he : e ∈ o.trace) : concerns deleted ids e = false := by
  have hnot : ids.contains o.row.id = false := by simpa using ho
  unfold Object.trace at he
  rcases List.mem_append.mp he with h | h
  · split at h
    · cases h
    · rw [List.mem_singleton.mp h, concerns, hnot]
  · split at h
    · rw [List.mem_singleton.mp h, concerns, hnot]
    · cases h

theorem concerns_exchangeTrace {ids : List Nat} {connectionId : Nat} (hid : connectionId ∉ ids)
    {token : PyStr} {answer : HttpAnswer} {e : Event}
    (he : e ∈ exchangeTrace connectionId token answer) : concerns deleted ids e = false := by
  have hnot : ids.contains connectionId = false := by simpa using hid
  unfold exchangeTrace at he
  rcases List.mem_cons.mp he with rfl | h
  · rw [concerns, hnot]
  · split at h
    · rw [List.mem_singleton.mp h, concerns, hnot]
    · rw [List.mem_singleton.mp h, concerns, hnot]
    · cases h

theorem Untouched.record (h : Untouched deleted before w) {events : List Event}
    (hevents : ∀ e ∈ events,
      concerns deleted (shareOf deleted before.tables).connectionIds e = false)
    {endpoint : π} : Untouched deleted before
      { w with endpoint := endpoint, history := w.history ++ events } :=
  ⟨h.tables, (historyOf_append hevents).trans h.history⟩

abbrev Sound (deleted : Nat) (before : World π) (w : World π) (l : Session) (known : Set Fact) :
    Prop :=
  Untouched deleted before w ∧ Apart deleted (shareOf deleted before.tables) l known

theorem sound_commit (h : Sound deleted before w l known) :
    Sound deleted before (w.commit l).1 (w.commit l).2.1 known := by
  obtain ⟨hw, hl⟩ := h
  unfold World.commit
  split
  · rename_i t ht
    refine ⟨⟨?_, ?_⟩, hl.tenant, fun o ho => ?_, fun c hc => (List.not_mem_nil hc).elim,
      hl.control, hl.known⟩
    · unfold Tables.commit at ht
      split at ht
      · rename_i u hu
        exact (hw.tables.writeObjects hl.objects hu).applyAll hl.pending ht
      · cases ht
    · refine (historyOf_append fun e he => ?_).trans hw.history
      obtain ⟨o, ho, hmem⟩ := List.mem_flatMap.mp he
      exact concerns_trace (hl.objects o ho).1 hmem
    · obtain ⟨x, hx, rfl⟩ := List.mem_map.mp ho
      exact hl.objects x hx
  · exact ⟨hw, hl.tenant, fun o ho => (List.not_mem_nil ho).elim,
      fun c hc => (List.not_mem_nil hc).elim, hl.control, hl.known⟩

theorem sound_commitControl (h : Sound deleted before w l known) :
    Sound deleted before (w.commitControl l).1 (w.commitControl l).2.1 known := by
  obtain ⟨hw, hl⟩ := h
  unfold World.commitControl
  split
  · rename_i t ht
    exact ⟨⟨hw.tables.applyAll hl.control ht, hw.history⟩, hl.tenant, hl.objects, hl.pending,
      fun c hc => (List.not_mem_nil hc).elim, hl.known⟩
  · exact ⟨hw, hl.tenant, hl.objects, hl.pending, fun c hc => (List.not_mem_nil hc).elim, hl.known⟩

/-- The routes of the tenant lead to connections of its own. -/
def Led (share : Share) : Prop := ∀ r ∈ share.routes, r.connectionId ∈ share.connectionIds

instance decidableLed (share : Share) : Decidable (Led share) :=
  inferInstanceAs (Decidable (∀ r ∈ share.routes, _))

def inserts : Request → Bool
  | .addConnection .. => true
  | _ => false

/-- A new connection takes no key of the share. -/
def FreshKey (share : Share) (r : Request) (c : Choice) : Prop :=
  inserts r = true → c.uuid ∉ share.connectionIds

instance decidableFreshKey (share : Share) (r : Request) (c : Choice) :
    Decidable (FreshKey share r c) :=
  inferInstanceAs (Decidable (_ → _))

theorem row_outside (h : Untouched deleted before w) {row : Connection}
    (hrow : row ∈ w.tables.connections) (htenant : row.tenantId ≠ deleted) :
    row.id ∉ (shareOf deleted before.tables).connectionIds ∧ row.tenantId ≠ deleted :=
  ⟨fun hid => htenant (h.tables.connections row hrow hid), htenant⟩

theorem activeTenants_eq (h : Untouched deleted before w) :
    w.tables.activeTenants = before.tables.activeTenants := by
  rw [Tables.activeTenants, h.tables.directory, Tables.activeTenants]

theorem possible_serve (h : Untouched deleted before w)
    (hactives : before.tables.activeTenants = env.actives) {r : Request} {c : Choice} :
    possible env r (serve endpoint w l r c).2.2 := by
  cases r with
  | activeTenants => exact (activeTenants_eq h).trans hactives
  | selectSubscriptions connectionId =>
      intro s hs
      exact beq_iff_eq.mp (Bool.and_eq_true_iff.mp (List.mem_filter.mp hs).2).2
  | _ => trivial

/-- Queries that the session keeps nothing of. -/
def queries : Request → Prop
  | .generateToken | .activeTenants | .selectTenantBySlug _ | .getTenant _ | .readObject _
  | .selectExpiringSubscriptions _ | .selectSubscriptions _ => True
  | _ => False

/-- Requests that load, add or change objects of the session. -/
def holds : Request → Prop
  | .openSession _ | .selectActiveConnections | .getConnection _ | .findConnection ..
  | .addConnection .. | .refreshObject _ | .assign .. => True
  | _ => False

/-- Calls of a provider. -/
def calls : Request → Prop
  | .exchange .. | .exchangeCode .. | .accountInfo .. | .revokeRemote .. | .callApi .. => True
  | _ => False

/-- Changes that wait for a commit. -/
def pends : Request → Prop
  | .addSubscription .. | .setExpiry .. | .deleteSubscription _ | .deleteSubscriptionsOf _
  | .addAuditEvent _ | .addRoute _ | .deleteRoutesOf _ => True
  | _ => False

theorem sound_query (hinactive : ∀ t ∈ before.tables.activeTenants, t.id ≠ deleted)
    (h : Sound deleted before w l known) {r : Request} (hr : queries r) {c : Choice} :
    Sound deleted before (serve endpoint w l r c).1 (serve endpoint w l r c).2.1
      (known ∪ told env r (serve endpoint w l r c).2.2) := by
  obtain ⟨hw, hl⟩ := h
  have hothers (t : Tenant) (ht : t ∈ w.tables.directory.tenants) (hactive : isActive t) :
      t.id ≠ deleted := by
    refine hinactive t (activeTenants_eq hw ▸ List.mem_filter.mpr ⟨ht, ?_⟩)
    simp [hactive.1, hactive.2]
  cases r with
  | generateToken =>
      refine ⟨hw, hl.tell ?_⟩
      rintro _ rfl
      trivial
  | activeTenants =>
      refine ⟨hw, hl.tell ?_⟩
      rintro _ ⟨t, ht, rfl⟩
      exact hinactive t (activeTenants_eq hw ▸ ht)
  | selectTenantBySlug slug =>
      refine ⟨hw, hl.tell ?_⟩
      rintro _ ⟨t, ht, hactive, rfl⟩
      exact hothers t (List.mem_of_find?_eq_some ht) hactive
  | getTenant tenantId =>
      refine ⟨hw, hl.tell ?_⟩
      rintro _ ⟨t, ht, hactive, rfl⟩
      exact hothers t (List.mem_of_find?_eq_some ht) hactive
  | readObject connectionId =>
      refine ⟨hw, hl.tell ?_⟩
      rintro fact ⟨connection, hfound, hfact⟩
      obtain ⟨o, ho, rfl⟩ := Option.map_eq_some_iff.mp hfound
      have hid : o.row.id = connectionId := by simpa using List.find?_some ho
      have houtside := (hl.objects o (List.mem_of_find?_eq_some ho)).1
      exact hfact.elim (foreign_about houtside fact) (foreign_about (hid ▸ houtside) fact)
  | selectExpiringSubscriptions horizon =>
      refine ⟨hw, hl.tell ?_⟩
      rintro _ ⟨s, hs, rfl⟩
      obtain ⟨hmem, hkept⟩ := List.mem_filter.mp hs
      have htenant := beq_iff_eq.mp (Bool.and_eq_true_iff.mp hkept).1
      exact fun hid => hl.tenant (htenant.symm.trans (hw.tables.subscriptions s hmem hid))
  | selectSubscriptions connectionId =>
      refine ⟨hw, hl.tell ?_⟩
      rintro _ ⟨s, -, task, -, rfl⟩
      trivial
  | _ => exact hr.elim

theorem sound_hold (h : Sound deleted before w l known) {r : Request} (hr : holds r)
    (hneeds : needs r ⊆ known) {c : Choice}
    (hfresh : FreshKey (shareOf deleted before.tables) r c) :
    Sound deleted before (serve endpoint w l r c).1 (serve endpoint w l r c).2.1
      (known ∪ told env r (serve endpoint w l r c).2.2) := by
  obtain ⟨hw, hl⟩ := h
  cases r with
  | openSession tenantId =>
      refine ⟨hw, ?_⟩
      refine Apart.tell_nothing ⟨hl.known _ (hneeds (Set.mem_singleton _)), fun o ho => ?_,
        fun c hc => ?_, hl.control, hl.known⟩
      · cases ho
      · cases hc
  | selectActiveConnections =>
      have hrows (row : Connection) (hrow : row ∈ w.tables.connections.filter fun c =>
          c.tenantId == l.tenantId && c.attributes.status == .active) :
          row.id ∉ (shareOf deleted before.tables).connectionIds ∧ row.tenantId ≠ deleted := by
        obtain ⟨hmem, hkept⟩ := List.mem_filter.mp hrow
        have htenant := beq_iff_eq.mp (Bool.and_eq_true_iff.mp hkept).1
        exact row_outside hw hmem (htenant ▸ hl.tenant)
      refine ⟨hw, (hl.loadAll hrows).tell ?_⟩
      rintro fact ⟨id, hid, hfact⟩
      obtain ⟨row, hrow, rfl⟩ := List.mem_map.mp hid
      exact foreign_about (hrows row hrow).1 fact hfact
  | getConnection connectionId =>
      simp only [serve]
      split
      · rename_i o ho
        refine ⟨hw, hl.tell ?_⟩
        rintro fact ⟨-, hfact⟩
        have hid : o.row.id = connectionId := by simpa using List.find?_some ho
        exact foreign_about (hid ▸ (hl.objects o (List.mem_of_find?_eq_some ho)).1) fact hfact
      split
      · rename_i row hrow
        have hfound : row.id = connectionId ∧ row.tenantId = l.tenantId := by
          simpa using List.find?_some hrow
        have houtside := row_outside hw (List.mem_of_find?_eq_some hrow)
          (hfound.2 ▸ hl.tenant)
        refine ⟨hw, (hl.load houtside).tell ?_⟩
        rintro fact ⟨-, hfact⟩
        exact foreign_about (hfound.1 ▸ houtside.1) fact hfact
      · refine ⟨hw, hl.tell ?_⟩
        rintro _ ⟨hfalse, -⟩
        cases hfalse
  | findConnection provider kind accountLabel =>
      simp only [serve]
      split
      · rename_i row hrow
        have htenant : row.tenantId = l.tenantId := by
          have hfound := List.find?_some hrow
          simp only [Bool.and_eq_true, beq_iff_eq] at hfound
          exact hfound.1.1.1.1
        have houtside := row_outside hw (List.mem_of_find?_eq_some hrow) (htenant ▸ hl.tenant)
        refine ⟨hw, (hl.load houtside).tell ?_⟩
        rintro fact ⟨id, hid, hfact⟩
        cases hid
        exact foreign_about houtside.1 fact hfact
      · refine ⟨hw, hl.tell ?_⟩
        rintro _ ⟨id, hid, -⟩
        cases hid
  | addConnection provider kind userId accountLabel scopes =>
      refine ⟨hw, (hl.hold ?_).tell ?_⟩
      · exact ⟨hfresh rfl, hl.tenant⟩
      · exact foreign_about (hfresh rfl)
  | refreshObject connectionId =>
      simp only [serve]
      split
      · rename_i row hrow
        have hid : row.id = connectionId := by simpa using List.find?_some hrow
        refine ⟨hw, (hl.update fun o ho hsameId => ?_).tell_nothing⟩
        have hrowId : row.id ∉ (shareOf deleted before.tables).connectionIds :=
          hid ▸ hsameId ▸ ho.1
        exact ⟨hrowId, fun htenant => hrowId (hw.tables.mem_connections
          (List.mem_of_find?_eq_some hrow) htenant)⟩
      · exact ⟨hw, hl.tell_nothing⟩
  | assign connectionId value =>
      simp only [serve]
      split
      · exact ⟨hw, hl.tell_nothing⟩
      split
      · refine ⟨hw, (hl.update ?_).tell_nothing⟩
        exact fun o ho _ => ho
      · exact ⟨hw, hl.tell_nothing⟩
  | _ => exact hr.elim

theorem sound_call (h : Sound deleted before w l known) {r : Request} (hr : calls r)
    (hneeds : needs r ⊆ known) {c : Choice} :
    Sound deleted before (serve endpoint w l r c).1 (serve endpoint w l r c).2.1
      (known ∪ told env r (serve endpoint w l r c).2.2) := by
  obtain ⟨hw, hl⟩ := h
  have hconnection {connectionId : Nat} (hknown : .connection connectionId ∈ known) :
      (shareOf deleted before.tables).connectionIds.contains connectionId = false := by
    simpa [Foreign] using hl.known _ hknown
  have htenant {tenantId : Nat} (hknown : .tenant tenantId ∈ known) :
      (tenantId == deleted) = false := by
    have hforeign : tenantId ≠ deleted := hl.known _ hknown
    exact beq_false_of_ne hforeign
  have hone {event : Event}
      (hevent : concerns deleted (shareOf deleted before.tables).connectionIds event = false) :
      Sound deleted before (w.record [event]) l (known ∪ ∅) := by
    refine ⟨hw.record fun e he => ?_, hl.tell_nothing⟩
    rw [List.mem_singleton.mp he]
    exact hevent
  cases r with
  | exchange connectionId token =>
      refine ⟨hw.record fun e he => ?_, ?_⟩
      · exact concerns_exchangeTrace (hl.known _ (hneeds (Set.mem_singleton _))) he
      · exact Apart.tell_nothing ⟨hl.tenant, hl.objects, hl.pending, hl.control, hl.known⟩
  | callApi | revokeRemote => exact hone (hconnection (hneeds (Set.mem_singleton _)))
  | exchangeCode | accountInfo => exact hone (htenant (hneeds (Set.mem_singleton _)))
  | _ => exact hr.elim

theorem sound_pend (hled : Led (shareOf deleted before.tables)) (h : Sound deleted before w l known)
    {r : Request} (hr : pends r) (hneeds : needs r ⊆ known) {c : Choice} :
    Sound deleted before (serve endpoint w l r c).1 (serve endpoint w l r c).2.1
      (known ∪ told env r (serve endpoint w l r c).2.2) := by
  obtain ⟨hw, hl⟩ := h
  have hneeded {fact : Fact} (hfact : fact ∈ needs r) :
      Foreign deleted (shareOf deleted before.tables) fact := hl.known fact (hneeds hfact)
  cases r with
  | addSubscription connectionId capability providerSubscriptionId expiresAt hash =>
      refine ⟨hw, (hl.add ?_).tell_nothing⟩
      exact hl.tenant
  | setExpiry subscriptionId expiresAt =>
      refine ⟨hw, (hl.add ?_).tell_nothing⟩
      exact hneeded (Set.mem_singleton _)
  | deleteSubscription subscriptionId =>
      refine ⟨hw, (hl.add ?_).tell_nothing⟩
      exact hneeded (Set.mem_singleton _)
  | deleteSubscriptionsOf connectionId =>
      refine ⟨hw, (hl.add ?_).tell_nothing⟩
      intro id hid hmem
      obtain ⟨s, hs, rfl⟩ := List.mem_map.mp hid
      obtain ⟨hrow, hkept⟩ := List.mem_filter.mp hs
      have htenant := beq_iff_eq.mp (Bool.and_eq_true_iff.mp hkept).1
      exact hl.tenant (htenant.symm.trans (hw.tables.subscriptions s hrow hmem))
  | addAuditEvent event =>
      refine ⟨hw, (hl.add ?_).tell_nothing⟩
      exact hl.tenant
  | addRoute route =>
      refine ⟨hw, (hl.addControl ?_).tell_nothing⟩
      exact hneeded (Set.mem_insert _ _)
  | deleteRoutesOf connectionId =>
      refine ⟨hw, (hl.addControl ?_).tell_nothing⟩
      intro key hkey hmem
      obtain ⟨r, hr, rfl⟩ := List.mem_map.mp hkey
      obtain ⟨hrow, hfound⟩ := List.mem_filter.mp hr
      have htenant := hw.tables.routes r hrow hmem
      have hshare : r ∈ (shareOf deleted before.tables).routes := by
        rw [← hw.tables.share]
        exact List.mem_filter.mpr ⟨hrow, beq_iff_eq.mpr htenant⟩
      have hforeign : connectionId ∉ (shareOf deleted before.tables).connectionIds :=
        hneeded (Set.mem_singleton _)
      exact hforeign (beq_iff_eq.mp hfound ▸ hled r hshare)
  | _ => exact hr.elim

theorem sound_serve (hinactive : ∀ t ∈ before.tables.activeTenants, t.id ≠ deleted)
    (hled : Led (shareOf deleted before.tables)) (h : Sound deleted before w l known) {r : Request}
    (hneeds : needs r ⊆ known) {c : Choice}
    (hfresh : FreshKey (shareOf deleted before.tables) r c) :
    Sound deleted before (serve endpoint w l r c).1 (serve endpoint w l r c).2.1
      (known ∪ told env r (serve endpoint w l r c).2.2) := by
  have hsame : Sound deleted before w l (known ∪ ∅) := ⟨h.1, h.2.tell_nothing⟩
  cases r with
  | generateToken | activeTenants | selectTenantBySlug | getTenant | readObject
  | selectExpiringSubscriptions | selectSubscriptions =>
      refine sound_query hinactive h ?_
      trivial
  | openSession | selectActiveConnections | getConnection | findConnection | addConnection
  | refreshObject | assign =>
      refine sound_hold h ?_ hneeds hfresh
      trivial
  | exchange | exchangeCode | accountInfo | revokeRemote | callApi =>
      refine sound_call h ?_ hneeds
      trivial
  | addSubscription | setExpiry | deleteSubscription | deleteSubscriptionsOf | addAuditEvent
  | addRoute | deleteRoutesOf =>
      refine sound_pend hled h ?_ hneeds
      trivial
  | acquireLock name =>
      refine ⟨?_, hsame.2⟩
      simp only [serve, World.acquireLock]
      split <;> exact ⟨h.1.tables, h.1.history⟩
  | deleteLock name => exact ⟨⟨h.1.tables, h.1.history⟩, hsame.2⟩
  | enqueue task => exact ⟨⟨h.1.tables, h.1.history⟩, hsame.2⟩
  | commit => exact sound_commit hsame
  | commitControl => exact sound_commitControl hsame
  | _ => exact hsame

end Requests

section Runs

variable {π : Type} {endpoint : TokenEndpoint π} {python : Python} {settings : Settings}
  {handlers : String → List (ConnectorProc Unit)} {actives : List Tenant}

/-- The primary keys and the unique index on route keys. -/
structure Keyed (t : Tables) : Prop where
  connections : (t.connections.map (·.id)).Nodup
  subscriptions : (t.subscriptions.map (·.id)).Nodup
  routes : (t.routes.map (·.routeKey)).Nodup

theorem kept_refl (deleted : Nat) {t : Tables} (hkeyed : Keyed t) : Kept deleted t t := by
  refine ⟨rfl, rfl, fun c hc hid => ?_, fun s hs hid => ?_, fun r hr hkey => ?_⟩
  · obtain ⟨d, hd, hsame⟩ := List.mem_map.mp hid
    obtain ⟨hmem, htenant⟩ := List.mem_filter.mp hd
    rw [← List.inj_on_of_nodup_map hkeyed.connections hmem hc hsame]
    exact beq_iff_eq.mp htenant
  · obtain ⟨d, hd, hsame⟩ := List.mem_map.mp hid
    obtain ⟨hmem, htenant⟩ := List.mem_filter.mp hd
    rw [← List.inj_on_of_nodup_map hkeyed.subscriptions hmem hs hsame]
    exact beq_iff_eq.mp htenant
  · obtain ⟨d, hd, hsame⟩ := List.mem_map.mp hkey
    obtain ⟨hmem, htenant⟩ := List.mem_filter.mp hd
    rw [← List.inj_on_of_nodup_map hkeyed.routes hmem hr hsame]
    exact beq_iff_eq.mp htenant

theorem apart_start {deleted : Nat} (hopen : deleted ≠ 0) {share : Share} {job : Job}
    (hjob : job.tenant ≠ some deleted) : Apart deleted share {} (job.facts actives) := by
  refine ⟨hopen.symm, fun o ho => ?_, fun c hc => ?_, fun c hc => ?_, ?_⟩
  · exact (List.not_mem_nil ho).elim
  · exact (List.not_mem_nil hc).elim
  · exact (List.not_mem_nil hc).elim
  · intro fact hfact
    cases job with
    | syncConnectionSubscriptions =>
        obtain ⟨-, rfl⟩ := hfact
        trivial
    | processConnectorEvent | receiveWebhook =>
        cases hfact
        trivial
    | connectorsList | connectorReconsent | connectorRevoke | capabilityCall =>
        cases hfact
        exact fun heq => hjob (congrArg some heq)
    | _ => exact hfact.elim

/-- From the moment a tenant is no longer active, no job that starts then changes a row of it or
lets a provider hear of it or of its connections.  A session with tenant 0 is one that is
not open yet. -/
theorem deleted_tenant_untouched (hhandlers : Abiding handlers) {deleted : Nat}
    (hopen : deleted ≠ 0) {w : World π}
    (hinactive : ∀ t ∈ w.tables.activeTenants, t.id ≠ deleted) (hkeyed : Keyed w.tables)
    (hled : Led (shareOf deleted w.tables)) {jobs : List Job}
    (hjobs : ∀ job ∈ jobs, job.tenant ≠ some deleted) {schedule : List (Nat × Choice)}
    (hfresh : Along (Pool.step (serve endpoint))
      (ActionMeets fun _ _ _ r c => FreshKey (shareOf deleted w.tables) r c)
      (start python settings handlers w jobs) schedule)
    {pool : Pool ConnectorInterface Failure (World π) Session Unit}
    (hrun : run (Pool.step (serve endpoint)) (start python settings handlers w jobs) schedule =
      some pool) :
    shareOf deleted pool.shared.tables = shareOf deleted w.tables ∧
      pool.shared.tables.directory =
        { w.tables.directory with auditEvents := pool.shared.tables.directory.auditEvents } ∧
      historyOf deleted (shareOf deleted w.tables).connectionIds pool.shared.history =
        historyOf deleted (shareOf deleted w.tables).connectionIds w.history := by
  let env : Env := ⟨w.tables.activeTenants, fun _ => Set.univ⟩
  have hkeeps : Keeps (rules env) (serve endpoint)
      (fun _ r c => FreshKey (shareOf deleted w.tables) r c) (Untouched deleted w)
      (Apart deleted (shareOf deleted w.tables)) := by
    refine ⟨fun s l known r c hs hl hneeds hc => ?_⟩
    obtain ⟨hs', hl'⟩ := sound_serve hinactive hled ⟨hs, hl⟩ hneeds hc
    exact ⟨hs', possible_serve hs rfl, hl'⟩
  have hthreads : ∀ thread ∈ (start python settings handlers w jobs).threads, ∃ known,
      Apart deleted (shareOf deleted w.tables) thread.1 known ∧
        ConnectorKnowledge.Heeds env known thread.2 := by
    intro thread hthread
    obtain ⟨job, hjob, rfl⟩ := List.mem_map.mp hthread
    exact ⟨_, apart_start hopen (hjobs job hjob), heeds_job hhandlers fun _ => Set.subset_univ _⟩
  have hinit : Untouched deleted w w := ⟨kept_refl deleted hkeyed, rfl⟩
  have hend := (pool_heeds hkeeps ⟨hinit, hthreads⟩ hfresh hrun).1
  exact ⟨hend.tables.share, hend.tables.directory, hend.history⟩

/-- Acme is active; Globex was deleted with an expired connection and its subscription. -/
def globex : World Unit where
  tables := { tablesWith [expiredConnection 4, { expiredConnection 5 with tenantId := 2 }]
      [⟨7, 2, 5, "mail", py "remote", 10, "hash"⟩] [⟨"key", "microsoft", 2, 5⟩] with
    directory := ⟨[⟨1, "acme", "Acme", .active, none⟩, ⟨2, "globex", "Globex", .active, some 50⟩],
      [], [], [], [], [], [],
      [⟨2, "connector.connected", "connector_connection", 5, [], none, "system"⟩], String.toLower⟩ }
  locks := []
  queue := []
  endpoint := ()
  history := []

/-- Both beats, the tasks and the consent that Globex had under way, and an owner of Acme who
asks to revoke its connection. -/
def underway : List Job :=
  [.refreshExpiringTokens, .renewExpiringSubscriptions, .syncConnectionSubscriptions "globex" 5,
    .processConnectorEvent "globex" 5 "microsoft" "mail" "created" none,
    .connectorOauthCallback .microsoft
      (some ⟨"globex", none, .tenant, ["mail"], "globex.localhost:8000", some 5⟩) (some "code")
      none,
    .connectorRevoke 1 ⟨1, "alice@exemple.fr", none⟩ 5]

/-- A notification that comes too late, besides. -/
def pressing : List Job := underway ++ [.receiveWebhook .microsoft "key" (secretRequest [])]

def turns (thread count : Nat) : List (Nat × Choice) :=
  List.replicate count
    (thread, { now := 100, uuid := 9, nonce := 3, token := "t", answer := tokenAnswer "a" "r" })

def interleaved : List (Nat × Choice) :=
  turns 0 3 ++ turns 1 2 ++ turns 2 1 ++ turns 3 1 ++ turns 0 6 ++ turns 4 1 ++ turns 5 2 ++
    turns 6 2 ++ turns 1 2 ++ turns 0 5

theorem globex_untouched :
    ∃ pool, run (Pool.step (serve anyAnswer))
        (start secretPython configured (fun _ => []) globex pressing) interleaved = some pool ∧
      shareOf 2 pool.shared.tables = shareOf 2 globex.tables ∧
      historyOf 2 [5] pool.shared.history = [] := by
  have hends : (run (Pool.step (serve anyAnswer))
      (start secretPython configured (fun _ => []) globex pressing) interleaved).isSome = true := by
    decide +kernel
  obtain ⟨pool, hrun⟩ := Option.isSome_iff_exists.mp hends
  have huntouched : shareOf 2 pool.shared.tables = shareOf 2 globex.tables ∧ _ ∧ _ :=
    deleted_tenant_untouched abiding_none (by decide) (by decide)
      ⟨by decide, by decide, by decide⟩ (by decide) (by decide) (by decide +kernel) hrun
  exact ⟨pool, hrun, huntouched.1, huntouched.2.2⟩

end Runs

end Socle.DeletedTenants
