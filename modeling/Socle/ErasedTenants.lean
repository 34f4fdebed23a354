import Socle.DeletedTenants

/-!
The rows of a tenant that is no longer active, taken out of the tables at any moment: the jobs of
the others run as they would have run with them.
-/

namespace Socle.ErasedTenants

open Socle.GuardedRuns
open Socle.Procedures
open Socle.Knowledge
open Socle.DirectoryStore (Tenant Directory)
open Socle.TokenExchange
open Socle.ConnectorStore
open Socle.ConnectorService
open Socle.ConnectorKnowledge
open Socle.ConnectorJobs
open Socle.WebhookDispatch hiding receiveWebhook
open Socle.DeletedTenants

section Others

variable {α : Type} {tenantOf : α → Nat} {deleted : Nat} {p : α → Bool} {rows : List α}

def others (tenantOf : α → Nat) (deleted : Nat) (rows : List α) : List α :=
  rows.filter fun x => tenantOf x != deleted

theorem filter_others (h : ∀ x ∈ rows, p x = true → tenantOf x ≠ deleted) :
    (others tenantOf deleted rows).filter p = rows.filter p :=
  filter_filter_same fun x hx hpx => bne_iff_ne.mpr (h x hx hpx)

theorem find_others (h : ∀ x ∈ rows, p x = true → tenantOf x ≠ deleted) :
    (others tenantOf deleted rows).find? p = rows.find? p := by
  rw [← List.head?_filter, ← List.head?_filter, filter_others h]

theorem any_others (h : ∀ x ∈ rows, p x = true → tenantOf x ≠ deleted) :
    (others tenantOf deleted rows).any p = rows.any p := by
  rw [Bool.eq_iff_iff, List.any_eq_true, List.any_eq_true]
  constructor
  · rintro ⟨x, hx, hpx⟩
    exact ⟨x, List.mem_of_mem_filter hx, hpx⟩
  · rintro ⟨x, hx, hpx⟩
    exact ⟨x, List.mem_filter.mpr ⟨hx, bne_iff_ne.mpr (h x hx hpx)⟩, hpx⟩

theorem others_filter : (others tenantOf deleted rows).filter p =
    others tenantOf deleted (rows.filter p) := by
  rw [others, others, List.filter_filter, List.filter_filter]
  exact List.filter_congr fun x _ => Bool.and_comm _ _

theorem others_map {f : α → α} (hf : ∀ x, tenantOf (f x) = tenantOf x) :
    others tenantOf deleted (rows.map f) = (others tenantOf deleted rows).map f := by
  rw [others, others, List.filter_map]
  congr 1
  exact List.filter_congr fun x _ => by rw [Function.comp_apply, hf]

theorem others_snoc {row : α} (h : tenantOf row ≠ deleted) :
    others tenantOf deleted (rows ++ [row]) = others tenantOf deleted rows ++ [row] := by
  simp [others, h]

end Others

section Erase

variable (deleted : Nat)

def eraseDirectory (d : Directory) : Directory where
  tenants := others (·.id) deleted d.tenants
  users := d.users
  credentials := d.credentials
  memberships := others (·.tenantId) deleted d.memberships
  invitations := others (·.tenantId) deleted d.invitations
  teams := others (·.tenantId) deleted d.teams
  teamMembers := others (·.tenantId) deleted d.teamMembers
  auditEvents := others (·.tenantId) deleted d.auditEvents

/-- The accounts stay: they belong to no tenant. -/
def eraseTables (t : Tables) : Tables where
  directory := eraseDirectory deleted t.directory
  connections := others (·.tenantId) deleted t.connections
  subscriptions := others (·.tenantId) deleted t.subscriptions
  routes := others (·.tenantId) deleted t.routes

def eraseWorld {π : Type} (w : World π) : World π :=
  { w with tables := eraseTables deleted w.tables }

end Erase

section Writes

variable {deleted : Nat} {before t : Tables}

/-- The change takes no key of the share, and hangs on no row of it. -/
def Clear (share : Share) : Change → Prop
  | .addSubscription s =>
      s.id ∉ share.subscriptionIds ∧ s.connectionId ∉ share.connectionIds
  | .setExpiry subscriptionId _ => subscriptionId ∉ share.subscriptionIds
  | .addRoute r => r.routeKey ∉ share.routeKeys
  | _ => True

theorem hasConnection_erase (h : Kept deleted before t) {connectionId : Nat}
    (hid : connectionId ∉ (shareOf deleted before).connectionIds) :
    (eraseTables deleted t).hasConnection connectionId = t.hasConnection connectionId :=
  any_others fun _ hc hsame htenant =>
    hid (beq_iff_eq.mp hsame ▸ h.mem_connections hc htenant)

theorem hasSubscription_erase (h : Kept deleted before t) {subscriptionId : Nat}
    (hid : subscriptionId ∉ (shareOf deleted before).subscriptionIds) :
    (eraseTables deleted t).hasSubscription subscriptionId = t.hasSubscription subscriptionId :=
  any_others fun _ hs hsame htenant =>
    hid (beq_iff_eq.mp hsame ▸ h.mem_subscriptions hs htenant)

theorem apply_erase (h : Kept deleted before t) {change : Change}
    (hspares : Spares deleted (shareOf deleted before) change)
    (hclear : Clear (shareOf deleted before) change) :
    (eraseTables deleted t).apply change = (t.apply change).map (eraseTables deleted) := by
  cases change with
  | addSubscription s =>
      simp only [Tables.apply]
      rw [hasSubscription_erase h hclear.1, hasConnection_erase h hclear.2]
      split
      · rfl
      · simp only [Except.map, eraseTables, others_snoc hspares]
  | setExpiry subscriptionId expiresAt =>
      simp only [Tables.apply]
      rw [hasSubscription_erase h hclear]
      split
      · simp only [Except.map, eraseTables]
        rw [others_map]
        intro s
        split <;> rfl
      · rfl
  | deleteSubscription subscriptionId =>
      simp only [Tables.apply, Except.map, eraseTables, others_filter]
  | deleteSubscriptions subscriptionIds =>
      simp only [Tables.apply, Except.map, eraseTables, others_filter]
  | addAuditEvent e =>
      simp only [Tables.apply, Except.map, eraseTables, eraseDirectory, others_snoc hspares]
  | addRoute r =>
      have hany : (eraseTables deleted t).routes.any (fun x => x.routeKey == r.routeKey) =
          t.routes.any fun x => x.routeKey == r.routeKey :=
        any_others fun _ hx hsame htenant =>
          hclear (beq_iff_eq.mp hsame ▸ h.mem_routes hx htenant)
      simp only [Tables.apply]
      rw [hany]
      split
      · rfl
      · simp only [Except.map, eraseTables, others_snoc hspares]
  | deleteRoutes routeKeys =>
      simp only [Tables.apply, Except.map, eraseTables, others_filter]

theorem applyAll_erase (h : Kept deleted before t) {changes : List Change}
    (hspares : ∀ change ∈ changes, Spares deleted (shareOf deleted before) change)
    (hclear : ∀ change ∈ changes, Clear (shareOf deleted before) change) :
    (eraseTables deleted t).applyAll changes =
      (t.applyAll changes).map (eraseTables deleted) := by
  induction changes generalizing t with
  | nil => rfl
  | cons change rest ih =>
      have hsparesFirst := hspares change List.mem_cons_self
      rw [Tables.applyAll, Tables.applyAll,
        apply_erase h hsparesFirst (hclear change List.mem_cons_self)]
      cases happly : t.apply change with
      | error e => rfl
      | ok u =>
          exact ih (h.apply hsparesFirst happly) (fun c hc => hspares c (List.mem_cons_of_mem _ hc))
            fun c hc => hclear c (List.mem_cons_of_mem _ hc)

theorem writeObject_erase (h : Kept deleted before t) {o : Object}
    (ho : Outside deleted (shareOf deleted before) o) :
    (eraseTables deleted t).writeObject o = (t.writeObject o).map (eraseTables deleted) := by
  unfold Tables.writeObject
  rw [hasConnection_erase h ho.1]
  split
  · split
    · rfl
    · have htenant : o.view.tenantId ≠ deleted := ho.2
      simp only [Except.map, eraseTables, others_snoc htenant]
  split
  · rfl
  split
  · simp only [Except.map, eraseTables]
    rw [others_map]
    intro c
    split <;> rfl
  · rfl

theorem writeObjects_erase (h : Kept deleted before t) {objects : List Object}
    (hobjects : ∀ o ∈ objects, Outside deleted (shareOf deleted before) o) :
    (eraseTables deleted t).writeObjects objects =
      (t.writeObjects objects).map (eraseTables deleted) := by
  induction objects generalizing t with
  | nil => rfl
  | cons o rest ih =>
      have hfirst := hobjects o List.mem_cons_self
      rw [Tables.writeObjects, Tables.writeObjects, writeObject_erase h hfirst]
      cases hwrite : t.writeObject o with
      | error e => rfl
      | ok u =>
          exact ih (h.writeObject hfirst hwrite) fun x hx => hobjects x (List.mem_cons_of_mem _ hx)

theorem commit_erase (h : Kept deleted before t) {objects : List Object} {changes : List Change}
    (hobjects : ∀ o ∈ objects, Outside deleted (shareOf deleted before) o)
    (hspares : ∀ change ∈ changes, Spares deleted (shareOf deleted before) change)
    (hclear : ∀ change ∈ changes, Clear (shareOf deleted before) change) :
    (eraseTables deleted t).commit objects changes =
      (t.commit objects changes).map (eraseTables deleted) := by
  unfold Tables.commit
  rw [writeObjects_erase h hobjects]
  cases hwrite : t.writeObjects objects with
  | error e => rfl
  | ok u => exact applyAll_erase (h.writeObjects hobjects hwrite) hspares hclear

end Writes

section Unaware

variable {π : Type} {endpoint : TokenEndpoint π} {deleted : Nat} {before w : World π} {l : Session}
  {share : Share} {env : Env} {known : Set Fact} {r : Request} {c : Choice}

def subscribes : Request → Bool
  | .addSubscription .. => true
  | _ => false

def drawsKey : Request → Bool
  | .generateToken => true
  | _ => false

/-- No drawn identifier is one of the share. -/
def FreshDraws (share : Share) (r : Request) (c : Choice) : Prop :=
  FreshKey share r c ∧ (subscribes r = true → c.uuid ∉ share.subscriptionIds) ∧
    (drawsKey r = true → c.token ∉ share.routeKeys)

instance decidableFreshDraws (share : Share) (r : Request) (c : Choice) :
    Decidable (FreshDraws share r c) := inferInstanceAs (Decidable (_ ∧ _ ∧ _))

/-- No key and no route that the session may ask for is one of the share. -/
structure Unaware (share : Share) (l : Session) (known : Set Fact) : Prop where
  pending : ∀ change ∈ l.pending, Clear share change
  control : ∀ change ∈ l.control, Clear share change
  routes : ∀ connectionId, .route connectionId ∈ known → connectionId ∉ share.connectionIds
  keys : ∀ key, .key key ∈ known → key ∉ share.routeKeys

theorem connection_told {a : Answer r} {connectionId : Nat}
    (h : .route connectionId ∈ told env r a) : .connection connectionId ∈ told env r a := by
  have habout {id : Nat} (h : .route connectionId ∈ about id) :
      .connection connectionId ∈ about id := by
    rcases h with h | h
    · cases h
    · cases h
      exact connection_subset _ rfl
  cases r with
  | selectActiveConnections =>
      obtain ⟨id, hid, hfact⟩ := h
      exact ⟨id, hid, habout hfact⟩
  | getConnection id => exact ⟨h.1, habout h.2⟩
  | findConnection provider kind accountLabel =>
      obtain ⟨id, hid, hfact⟩ := h
      exact ⟨id, hid, habout hfact⟩
  | addConnection provider kind userId accountLabel scopes => exact habout h
  | readObject id =>
      obtain ⟨connection, hfound, hfact⟩ := h
      exact ⟨connection, hfound, hfact.imp habout habout⟩
  | generateToken | activeTenants | selectTenantBySlug | getTenant | selectExpiringSubscriptions
  | selectSubscriptions => grind [told]
  | _ => exact h.elim

theorem key_not_mem_about {key : String} {connectionId : Nat} :
    .key key ∉ about connectionId := by
  rintro (h | h) <;> cases h

theorem key_told {key : String} (h : .key key ∈ told env r (serve endpoint w l r c).2.2) :
    drawsKey r = true ∧ key = c.token := by
  cases r with
  | generateToken =>
      cases h
      exact ⟨rfl, rfl⟩
  | addConnection => exact (key_not_mem_about h).elim
  | _ => grind [told, key_not_mem_about]

theorem clear_pendingChange (hknown : ∀ fact ∈ known, Foreign deleted share fact)
    (hneeds : needs r ⊆ known) (hfresh : FreshDraws share r c) {change : Change}
    (hchange : pendingChange w l c r = some change) : Clear share change := by
  have hneeded {fact : Fact} (hfact : fact ∈ needs r) : Foreign deleted share fact :=
    hknown fact (hneeds hfact)
  cases r with
  | addSubscription =>
      cases hchange
      exact ⟨hfresh.2.1 rfl, hneeded (Set.mem_singleton _)⟩
  | setExpiry =>
      cases hchange
      exact hneeded (Set.mem_singleton _)
  | deleteSubscription | deleteSubscriptionsOf | addAuditEvent =>
      cases hchange
      trivial
  | _ => cases hchange

theorem clear_controlChange (hkeys : ∀ key, .key key ∈ known → key ∉ share.routeKeys)
    (hneeds : needs r ⊆ known) {change : Change} (hchange : controlChange w r = some change) :
    Clear share change := by
  cases r with
  | addRoute route =>
      cases hchange
      exact hkeys _ (hneeds (.inr rfl))
  | deleteRoutesOf =>
      cases hchange
      trivial
  | _ => cases hchange

theorem unaware_serve (h : Unaware share l known)
    (hknown : ∀ fact ∈ known, Foreign deleted share fact)
    (htold : ∀ fact ∈ known ∪ told env r (serve endpoint w l r c).2.2, Foreign deleted share fact)
    (hneeds : needs r ⊆ known) (hfresh : FreshDraws share r c) :
    Unaware share (serve endpoint w l r c).2.1
      (known ∪ told env r (serve endpoint w l r c).2.2) := by
  refine ⟨fun change hchange => ?_, fun change hchange => ?_, fun connectionId hroute => ?_,
    fun key hkey => ?_⟩
  · exact (mem_pending_serve hchange).elim (h.pending change)
      (clear_pendingChange hknown hneeds hfresh)
  · exact (mem_control_serve hchange).elim (h.control change) (clear_controlChange h.keys hneeds)
  · rcases hroute with hroute | hroute
    · exact h.routes connectionId hroute
    · exact htold _ (.inr (connection_told hroute))
  · rcases hkey with hkey | hkey
    · exact h.keys key hkey
    · obtain ⟨hdraws, rfl⟩ := key_told hkey
      exact hfresh.2.2 hdraws

end Unaware

section Requests

variable {π : Type} {endpoint : TokenEndpoint π} {deleted : Nat} {before w : World π} {l : Session}
  {known : Set Fact}

theorem activeTenants_erase (h : Untouched deleted before w)
    (hinactive : ∀ t ∈ before.tables.activeTenants, t.id ≠ deleted) :
    (eraseTables deleted w.tables).activeTenants = w.tables.activeTenants := by
  refine filter_others fun t ht hactive => hinactive t ?_
  rw [← activeTenants_eq h]
  exact List.mem_filter.mpr ⟨ht, hactive⟩

theorem route_others (h : Untouched deleted before w) (hled : Led (shareOf deleted before.tables))
    {route : WebhookRoute} (hroute : route ∈ w.tables.routes)
    (hid : route.connectionId ∉ (shareOf deleted before.tables).connectionIds) :
    route.tenantId ≠ deleted := by
  intro htenant
  have hshare : route ∈ (shareOf deleted before.tables).routes := by
    rw [← h.tables.share]
    exact List.mem_filter.mpr ⟨hroute, beq_iff_eq.mpr htenant⟩
  exact hid (hled route hshare)

theorem commit_eraseWorld (h : Sound deleted before w l known)
    (hunaware : Unaware (shareOf deleted before.tables) l known) :
    (eraseWorld deleted w).commit l =
      (eraseWorld deleted (w.commit l).1, (w.commit l).2) := by
  have htables : (eraseWorld deleted w).tables.commit l.objects l.pending =
      (w.tables.commit l.objects l.pending).map (eraseTables deleted) :=
    commit_erase h.1.tables h.2.objects h.2.pending hunaware.pending
  unfold World.commit
  rw [htables]
  cases w.tables.commit l.objects l.pending <;> rfl

theorem commitControl_eraseWorld (h : Sound deleted before w l known)
    (hunaware : Unaware (shareOf deleted before.tables) l known) :
    (eraseWorld deleted w).commitControl l =
      (eraseWorld deleted (w.commitControl l).1, (w.commitControl l).2) := by
  have htables : (eraseWorld deleted w).tables.applyAll l.control =
      (w.tables.applyAll l.control).map (eraseTables deleted) :=
    applyAll_erase h.1.tables h.2.control hunaware.control
  unfold World.commitControl
  rw [htables]
  cases w.tables.applyAll l.control <;> rfl

theorem serve_erase (hinactive : ∀ t ∈ before.tables.activeTenants, t.id ≠ deleted)
    (hled : Led (shareOf deleted before.tables)) (h : Sound deleted before w l known)
    (hunaware : Unaware (shareOf deleted before.tables) l known) {r : Request} (hplain : Plain r)
    (hneeds : needs r ⊆ known) {c : Choice} :
    serve endpoint (eraseWorld deleted w) l r c =
      (eraseWorld deleted (serve endpoint w l r c).1, (serve endpoint w l r c).2) := by
  have hneeded {fact : Fact} (hfact : fact ∈ needs r) :
      Foreign deleted (shareOf deleted before.tables) fact := h.2.known fact (hneeds hfact)
  have hown {tenantId : Nat} (hsame : tenantId = l.tenantId) : tenantId ≠ deleted :=
    hsame ▸ h.2.tenant
  cases r with
  | activeTenants =>
      exact congrArg (fun tenants => (eraseWorld deleted w, l, tenants))
        (activeTenants_erase h.1 hinactive)
  | selectTenantBySlug | getTenant => exact hplain.elim
  | selectActiveConnections =>
      refine congrArg (fun rows : List Connection => (eraseWorld deleted w,
        Session.loadAll w.history.length l rows, rows.map (·.id))) (filter_others fun c _ hc => ?_)
      exact hown (beq_iff_eq.mp (Bool.and_eq_true_iff.mp hc).1)
  | selectConnections =>
      refine congrArg (fun rows => (eraseWorld deleted w, l, rows))
        (filter_others fun c _ hc => ?_)
      exact hown (beq_iff_eq.mp hc)
  | getConnection connectionId =>
      have hfind : (eraseTables deleted w.tables).connections.find? (fun c =>
          c.id == connectionId && c.tenantId == l.tenantId) = w.tables.connections.find? fun c =>
          c.id == connectionId && c.tenantId == l.tenantId :=
        find_others fun c _ hc => hown (beq_iff_eq.mp (Bool.and_eq_true_iff.mp hc).2)
      simp only [serve]
      split
      · rfl
      · simp only [eraseWorld]
        rw [hfind]
        split <;> rfl
  | findConnection provider kind accountLabel =>
      have hfind : (eraseTables deleted w.tables).connections.find? (fun c =>
          c.tenantId == l.tenantId && c.provider == provider && c.kind == kind &&
            c.attributes.accountLabel == accountLabel && c.attributes.status != .revoked) =
          w.tables.connections.find? fun c =>
          c.tenantId == l.tenantId && c.provider == provider && c.kind == kind &&
            c.attributes.accountLabel == accountLabel && c.attributes.status != .revoked := by
        refine find_others fun c _ hc => hown ?_
        simp only [Bool.and_eq_true, beq_iff_eq] at hc
        exact hc.1.1.1.1
      simp only [serve, eraseWorld]
      rw [hfind]
      split <;> rfl
  | refreshObject connectionId =>
      have hfind : (eraseTables deleted w.tables).connection? connectionId =
          w.tables.connection? connectionId := by
        refine find_others fun c hc hsame htenant => ?_
        have hforeign : connectionId ∉ (shareOf deleted before.tables).connectionIds :=
          hneeded (Set.mem_singleton _)
        exact hforeign (beq_iff_eq.mp hsame ▸ h.1.tables.mem_connections hc htenant)
      simp only [serve, eraseWorld]
      rw [hfind]
      split <;> rfl
  | assign connectionId value =>
      simp only [serve]
      split
      · rfl
      · split <;> rfl
  | acquireLock name =>
      have hlock : (eraseWorld deleted w).acquireLock c.now name c.uuid =
          (eraseWorld deleted (w.acquireLock c.now name c.uuid).1,
            (w.acquireLock c.now name c.uuid).2) := by
        have hlive : (eraseWorld deleted w).liveLock? c.now name = w.liveLock? c.now name := rfl
        unfold World.acquireLock
        rw [hlive]
        split <;> rfl
      simp only [serve]
      rw [hlock]
  | selectExpiringSubscriptions horizon =>
      refine congrArg (fun rows => (eraseWorld deleted w, l, rows))
        (filter_others fun s _ hs => ?_)
      exact hown (beq_iff_eq.mp (Bool.and_eq_true_iff.mp hs).1)
  | selectSubscriptions connectionId =>
      refine congrArg (fun rows => (eraseWorld deleted w, l, rows))
        (filter_others fun s _ hs => ?_)
      exact hown (beq_iff_eq.mp (Bool.and_eq_true_iff.mp hs).1)
  | deleteSubscriptionsOf connectionId =>
      refine congrArg (fun rows : List Subscription => (eraseWorld deleted w,
        l.add (.deleteSubscriptions (rows.map (·.id))), ())) (filter_others fun s _ hs => ?_)
      exact hown (beq_iff_eq.mp (Bool.and_eq_true_iff.mp hs).1)
  | commit => exact commit_eraseWorld h hunaware
  | selectRoute connectionId =>
      refine congrArg (fun found => (eraseWorld deleted w, l, found))
        (find_others fun route hroute hsame => route_others h.1 hled hroute ?_)
      exact beq_iff_eq.mp hsame ▸ hunaware.routes connectionId (hneeds (Set.mem_singleton _))
  | selectRouteByKey routeKey provider =>
      refine congrArg (fun found => (eraseWorld deleted w, l, found))
        (find_others fun route hroute hsame htenant => ?_)
      have hkey : route.routeKey = routeKey := beq_iff_eq.mp (Bool.and_eq_true_iff.mp hsame).1
      exact hunaware.keys routeKey (hneeds (Set.mem_singleton _))
        (hkey ▸ h.1.tables.mem_routes hroute htenant)
  | deleteRoutesOf connectionId =>
      refine congrArg (fun rows : List WebhookRoute => (eraseWorld deleted w,
        l.addControl (.deleteRoutes (rows.map (·.routeKey))), ()))
        (filter_others fun route hroute hsame => route_others h.1 hled hroute ?_)
      exact beq_iff_eq.mp hsame ▸ hneeded (Set.mem_singleton _)
  | commitControl => exact commitControl_eraseWorld h hunaware
  | _ => rfl

theorem find_erase {tenants : List Tenant} {p : Tenant → Bool}
    (hsame : ∀ t ∈ tenants, ∀ t' ∈ tenants, p t = true → p t' = true → t'.id = t.id) :
    (others (·.id) deleted tenants).find? p = tenants.find? p ∨
      (∃ t, tenants.find? p = some t ∧ t.id = deleted) ∧
        (others (·.id) deleted tenants).find? p = none := by
  cases hfound : tenants.find? p with
  | none =>
      refine .inl (List.find?_eq_none.mpr fun t ht => ?_)
      exact List.find?_eq_none.mp hfound t (List.mem_of_mem_filter ht)
  | some t =>
      have hmem := List.mem_of_find?_eq_some hfound
      have ht := List.find?_some hfound
      by_cases hid : t.id = deleted
      · refine .inr ⟨⟨t, rfl, hid⟩, List.find?_eq_none.mpr fun t' hmem' ht' => ?_⟩
        obtain ⟨hold, hother⟩ := List.mem_filter.mp hmem'
        exact bne_iff_ne.mp hother ((hsame t hmem t' hold ht ht').trans hid)
      · refine .inl ((find_others fun t' hmem' ht' => ?_).trans hfound)
        exact (hsame t hmem t' hmem' ht ht') ▸ hid

theorem lookup_view (hinactive : ∀ t ∈ before.tables.activeTenants, t.id ≠ deleted)
    (h : Untouched deleted before w) {p : Tenant → Bool}
    (hsame : ∀ t ∈ w.tables.directory.tenants, ∀ t' ∈ w.tables.directory.tenants,
      p t = true → p t' = true → t'.id = t.id) :
    (eraseTables deleted w.tables).directory.tenants.find? p =
        w.tables.directory.tenants.find? p ∨
      (∃ t, w.tables.directory.tenants.find? p = some t ∧ ¬ isActive t) ∧
        (eraseTables deleted w.tables).directory.tenants.find? p = none := by
  refine (find_erase hsame).imp id ?_
  rintro ⟨⟨t, hfound, hid⟩, hgone⟩
  refine ⟨⟨t, hfound, fun hactive => hinactive t ?_ hid⟩, hgone⟩
  rw [← activeTenants_eq h]
  refine List.mem_filter.mpr ⟨List.mem_of_find?_eq_some hfound, ?_⟩
  simp [hactive.1, hactive.2]

theorem serve_view (hinactive : ∀ t ∈ before.tables.activeTenants, t.id ≠ deleted)
    (hslugs : (before.tables.directory.tenants.map (·.slug)).Nodup)
    (hled : Led (shareOf deleted before.tables)) (h : Sound deleted before w l known)
    (hunaware : Unaware (shareOf deleted before.tables) l known) {r : Request}
    (hneeds : needs r ⊆ known) {c : Choice} :
    ∃ b, serve endpoint (eraseWorld deleted w) l r c =
        (eraseWorld deleted (serve endpoint w l r c).1, (serve endpoint w l r c).2.1, b) ∧
      (b = (serve endpoint w l r c).2.2 ∨ alike r (serve endpoint w l r c).2.2 b) := by
  cases r with
  | selectTenantBySlug slug =>
      refine ⟨_, rfl, lookup_view hinactive h.1 fun t ht t' ht' hslug hslug' => ?_⟩
      rw [h.1.tables.directory] at ht ht'
      rw [List.inj_on_of_nodup_map hslugs ht' ht
        ((beq_iff_eq.mp hslug').trans (beq_iff_eq.mp hslug).symm)]
  | getTenant tenantId =>
      refine ⟨_, rfl, lookup_view hinactive h.1 fun t _ t' _ hid hid' => ?_⟩
      exact (beq_iff_eq.mp hid').trans (beq_iff_eq.mp hid).symm
  | _ =>
      refine ⟨_, serve_erase hinactive hled h hunaware ?_ hneeds, .inl rfl⟩
      trivial

end Requests

/-- The job names a connection of the share under an active tenant, or a route of the share. -/
def Asks (actives : List Tenant) (share : Share) : Job → Prop
  | .syncConnectionSubscriptions slug connectionId =>
      (∃ t ∈ actives, t.slug = slug) ∧ connectionId ∈ share.connectionIds
  | .receiveWebhook _ routeKey _ => routeKey ∈ share.routeKeys
  | _ => False

instance decidableAsks (actives : List Tenant) (share : Share) :
    ∀ job, Decidable (Asks actives share job)
  | .syncConnectionSubscriptions .. => inferInstanceAs (Decidable (_ ∧ _))
  | .receiveWebhook .. => inferInstanceAs (Decidable (_ ∈ _))
  | .refreshExpiringTokens | .renewExpiringSubscriptions | .processConnectorEvent ..
  | .connectorOauthCallback .. | .connectorsList .. | .connectorReconsent ..
  | .connectorRevoke .. | .capabilityCall .. => isFalse id

theorem unaware_start {actives : List Tenant} {share : Share} {job : Job}
    (hjob : ¬ Asks actives share job) : Unaware share {} (job.facts actives) := by
  refine ⟨fun c hc => ?_, fun c hc => ?_, fun connectionId hroute hmem => ?_,
    fun key hkey hmem => ?_⟩
  · exact (List.not_mem_nil hc).elim
  · exact (List.not_mem_nil hc).elim
  · cases job with
    | syncConnectionSubscriptions slug id =>
        obtain ⟨hactive, hid⟩ := hroute
        cases hid
        exact hjob ⟨hactive, hmem⟩
    | refreshExpiringTokens | renewExpiringSubscriptions | connectorOauthCallback =>
        exact hroute.elim
    | _ => cases hroute
  · cases job with
    | receiveWebhook provider routeKey request =>
        cases hkey
        exact hjob hmem
    | syncConnectionSubscriptions => cases hkey.2
    | refreshExpiringTokens | renewExpiringSubscriptions | connectorOauthCallback =>
        exact hkey.elim
    | _ => cases hkey

section Runs

variable {π : Type} {endpoint : TokenEndpoint π} {python : Python} {settings : Settings}
  {handlers : String → List (ConnectorProc Unit)}

/-- Once a tenant is no longer active, its rows may be taken out at any moment of a run: the jobs
of the others go on as they would have gone on with them, request by request, and the tables stay
the same up to those rows. -/
theorem erased_tenant_unseen (hhandlers : Abiding handlers) {deleted : Nat} (hopen : deleted ≠ 0)
    {w : World π} (hinactive : ∀ t ∈ w.tables.activeTenants, t.id ≠ deleted)
    (hslugs : (w.tables.directory.tenants.map (·.slug)).Nodup) (hkeyed : Keyed w.tables)
    (hled : Led (shareOf deleted w.tables)) {jobs : List Job}
    (hjobs : ∀ job ∈ jobs, job.tenant ≠ some deleted)
    (hasked : ∀ job ∈ jobs, ¬ Asks w.tables.activeTenants (shareOf deleted w.tables) job)
    {first rest : List (Nat × Choice)}
    (hfresh : Along (Pool.step (serve endpoint))
      (ActionMeets fun _ _ _ r c => FreshDraws (shareOf deleted w.tables) r c)
      (start python settings handlers w jobs) (first ++ rest))
    {pool : Pool ConnectorInterface Failure (World π) Session Unit}
    (hrun : run (Pool.step (serve endpoint)) (start python settings handlers w jobs) first =
      some pool) :
    run (Pool.step (serve endpoint)) (viewed (eraseWorld deleted) pool) rest =
      (run (Pool.step (serve endpoint)) pool rest).map (viewed (eraseWorld deleted)) := by
  obtain ⟨hfirst, hrest⟩ := (along_append hrun).mp hfresh
  let env : Env := ⟨w.tables.activeTenants, fun _ => Set.univ⟩
  have hkeeps : Keeps (rules env) (serve endpoint)
      (fun _ r c => FreshDraws (shareOf deleted w.tables) r c) (Untouched deleted w)
      (fun l known => Apart deleted (shareOf deleted w.tables) l known ∧
        Unaware (shareOf deleted w.tables) l known) := by
    refine ⟨fun s l known r c hs hl hneeds hc => ?_⟩
    obtain ⟨hs', hl'⟩ := sound_serve hinactive hled ⟨hs, hl.1⟩ hneeds hc.1
    exact ⟨hs', possible_serve hs rfl, hl', unaware_serve hl.2 hl.1.known hl'.known hneeds hc⟩
  have hthreads : ∀ thread ∈ (start python settings handlers w jobs).threads, ∃ known,
      (Apart deleted (shareOf deleted w.tables) thread.1 known ∧
        Unaware (shareOf deleted w.tables) thread.1 known) ∧
        ConnectorKnowledge.Heeds env known thread.2 := by
    intro thread hthread
    obtain ⟨job, hjob, rfl⟩ := List.mem_map.mp hthread
    exact ⟨_, ⟨apart_start hopen (hjobs job hjob), unaware_start (hasked job hjob)⟩,
      heeds_job hhandlers fun _ => Set.subset_univ _⟩
  have hinit : Untouched deleted w w := ⟨kept_refl deleted hkeyed, rfl⟩
  have hheeding := pool_heeds hkeeps ⟨hinit, hthreads⟩ hfirst hrun
  refine run_viewed hkeeps (fun s l known r c hs hl hneeds _ => ?_) hheeding hrest
  exact serve_view hinactive hslugs hled ⟨hs, hl.1⟩ hl.2 hneeds

/-- Globex is purged while both beats are under way. -/
theorem globex_unseen :
    ∃ pool pool', run (Pool.step (serve anyAnswer))
        (start secretPython configured (fun _ => []) globex underway)
        (turns 0 3 ++ turns 1 2) = some pool ∧
      run (Pool.step (serve anyAnswer)) pool (turns 4 1 ++ turns 0 6) = some pool' ∧
      run (Pool.step (serve anyAnswer)) (viewed (eraseWorld 2) pool) (turns 4 1 ++ turns 0 6) =
        some (viewed (eraseWorld 2) pool') := by
  have hends : (run (Pool.step (serve anyAnswer))
      (start secretPython configured (fun _ => []) globex underway)
      ((turns 0 3 ++ turns 1 2) ++ (turns 4 1 ++ turns 0 6))).isSome = true := by
    decide +kernel
  obtain ⟨pool', hruns⟩ := Option.isSome_iff_exists.mp hends
  obtain ⟨pool, hfirst, hrest⟩ := run_append_eq_some.mp hruns
  refine ⟨pool, pool', hfirst, hrest, (erased_tenant_unseen abiding_none (by decide) (by decide)
    (by decide) ⟨by decide, by decide, by decide⟩ (by decide) (by decide) (by decide)
    (by decide +kernel) hfirst).trans ?_⟩
  rw [hrest]
  rfl

end Runs

end Socle.ErasedTenants
