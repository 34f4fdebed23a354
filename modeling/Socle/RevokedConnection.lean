import Socle.ConnectorTransactions

/-!
What a revocation leaves behind, and the invariant of the operations that work
on the same connection from copies of its row.
-/

namespace Socle.RevokedConnection

open Socle.GuardedRuns
open Socle.Procedures
open Socle.TokenExchange
open Socle.ConnectorStore
open Socle.ConnectorService
open Socle.ConnectorTransactions

/-- The commit of a revocation of the connection. -/
def revokes (connectionId : Nat) : Event → Bool
  | .revoked id => id == connectionId
  | _ => false

/-- The connection is dead: no token, no subscription. -/
structure Dead (connectionId : Nat) (t : Tables) : Prop where
  rows : ∀ row ∈ t.connections, row.id = connectionId → row.attributes.status = .revoked ∧
    row.attributes.accessTokenEnc = [] ∧ row.attributes.refreshTokenEnc = []
  subscriptions : ∀ s ∈ t.subscriptions, s.connectionId ≠ connectionId

/-- The object changes the status or a token of its row. -/
def changesLife (o : Object) : Bool :=
  decide (o.current.status ≠ o.row.attributes.status ∨
    o.current.accessTokenEnc ≠ o.row.attributes.accessTokenEnc ∨
    o.current.refreshTokenEnc ≠ o.row.attributes.refreshTokenEnc)

/-- The object stands for the revocation of its row. -/
def newlyRevoked (o : Object) : Bool :=
  decide (o.current.status = .revoked ∧ o.row.attributes.status ≠ .revoked)

/-- The session's object of the connection, if it is no new one. -/
def isObjectOf (connectionId : Nat) (o : Object) : Bool :=
  decide (o.row.id = connectionId ∧ o.isNew = false)

def addsSubscription (connectionId : Nat) : Change → Bool
  | .addSubscription s => s.connectionId == connectionId
  | _ => false

def deletesSubscription (subscriptionId : Nat) : Change → Bool
  | .deleteSubscriptions ids => ids.contains subscriptionId
  | _ => false

/-- The DELETE of all subscriptions that a revocation makes. -/
def bulk : Change → Bool
  | .deleteSubscriptions _ => true
  | _ => false

/-- A revocation of the connection between its DELETE and its commit. -/
def revoking (connectionId : Nat) (l : Session) : Bool :=
  l.objects.any (fun o => o.row.id == connectionId && newlyRevoked o) && l.pending.any bulk

/-- The connection was revoked after the session had loaded it. -/
def overlapped (connectionId : Nat) (history : List Event) (l : Session) : Bool :=
  l.objects.any fun o =>
    isObjectOf connectionId o && (history.drop o.firstMark).any (revokes connectionId)

/-- The connection was revoked when the session loaded it. -/
def foundRevoked (connectionId : Nat) (l : Session) : Bool :=
  l.objects.any fun o => isObjectOf connectionId o && o.firstStatus == .revoked

/-- The session has something of the connection to commit that is no revocation. -/
def revives (connectionId : Nat) (l : Session) : Bool :=
  l.objects.any (fun o =>
    isObjectOf connectionId o && changesLife o && o.current.status != .revoked) ||
    l.pending.any (addsSubscription connectionId)

/-- The condition on the steps of a run, `named` being the threads that are given the
connection by the state of an OAuth flow.  A session that loaded the connection before
its revocation commits nothing to it afterwards; no subscription of the connection is
committed between the DELETE of a revocation and its commit; and a flow that names the
connection does not commit when it has found it revoked. -/
def respectsRevocation {π : Type} (connectionId : Nat) (named : Nat → Bool) (w : World π)
    (ls : List Session) (i : Nat) : Request → Bool
  | .commit =>
      (ls[i]?).all fun l =>
        !(overlapped connectionId w.history l && revives connectionId l) &&
        !(l.pending.any (addsSubscription connectionId) && ls.any (revoking connectionId)) &&
        !(named i && foundRevoked connectionId l)
  | _ => true

/-- What a commit has to be, for a revocation to be final. -/
structure Spares {π : Type} (connectionId : Nat) (w : World π) (l : Session) : Prop where
  alive : ∀ o ∈ l.objects, o.row.id = connectionId → changesLife o = true →
    o.current.status ≠ .revoked → o.firstStatus ≠ .revoked ∧
      (w.history.drop o.firstMark).any (revokes connectionId) = false
  deletes : ∀ o ∈ l.objects, o.row.id = connectionId → newlyRevoked o = true →
    ∀ s ∈ w.tables.subscriptions, s.connectionId = connectionId →
      l.pending.any (deletesSubscription s.id) = true
  adds : w.history.any (revokes connectionId) = true →
    ∀ change ∈ l.pending, addsSubscription connectionId change = false

/-- A revoked row has no token, any other has both. -/
def consistent (a : Attributes) : Prop :=
  if a.status = .revoked then a.accessTokenEnc = [] ∧ a.refreshTokenEnc = []
  else a.accessTokenEnc ≠ [] ∧ a.refreshTokenEnc ≠ []

instance (a : Attributes) : Decidable (consistent a) := by
  unfold consistent
  infer_instance

/-- What an object may be committed as, when its row was consistent: revoked
without tokens, or with both tokens, unless the row was found revoked. -/
def Fit (o : Object) : Prop :=
  consistent o.row.attributes →
    (o.current.status = .revoked →
      o.current.accessTokenEnc = [] ∧ o.current.refreshTokenEnc = []) ∧
    (o.current.status ≠ .revoked → o.row.attributes.status = .revoked ∨
      (o.current.accessTokenEnc ≠ [] ∧ o.current.refreshTokenEnc ≠ []))

/-- The status and the tokens of the object are those of its row. -/
def unchanged (o : Object) : Prop :=
  o.current.status = o.row.attributes.status ∧
    o.current.accessTokenEnc = o.row.attributes.accessTokenEnc ∧
    o.current.refreshTokenEnc = o.row.attributes.refreshTokenEnc

def allowed (connectionId : Nat) (l : Session) : Request → Prop
  | .commit =>
      (∀ o ∈ l.objects, o.row.id = connectionId → o.isNew = false → Fit o) ∧
        ((∃ o ∈ l.objects, o.row.id = connectionId ∧ newlyRevoked o = true) →
          (∀ change ∈ l.pending, addsSubscription connectionId change = false) ∧
            l.pending.any bulk = true)
  | .addConnection .. => ∀ o ∈ l.objects, o.row.id ≠ connectionId
  | _ => True

/-- No row of the connection is revoked. -/
def live (connectionId : Nat) (t : Tables) : Prop :=
  ∀ row ∈ t.connections, row.id = connectionId → row.attributes.status ≠ .revoked

structure Known {π : Type} (connectionId : Nat) (w : World π) (o : Object) : Prop where
  mark : o.firstMark ≤ w.history.length
  consistent : consistent o.row.attributes
  live : o.firstStatus ≠ .revoked →
    (w.history.drop o.firstMark).any (revokes connectionId) = false →
      live connectionId w.tables ∧ o.row.attributes.status ≠ .revoked

/-- The changes of a control session: it writes routes. -/
def writesRoutes : Change → Bool
  | .addRoute _ => true
  | .deleteRoutes _ => true
  | _ => false

structure Final {π : Type} (connectionId : Nat) (w : World π) (ls : List Session) : Prop where
  exists_row : w.tables.hasConnection connectionId = true
  unique : ∀ row ∈ w.tables.connections, ∀ row' ∈ w.tables.connections,
    row.id = connectionId → row'.id = connectionId → row = row'
  rows : ∀ row ∈ w.tables.connections, row.id = connectionId → consistent row.attributes
  dead : w.history.any (revokes connectionId) = true → Dead connectionId w.tables
  single : ∀ l ∈ ls, oneObject connectionId l
  known : ∀ l ∈ ls, ∀ o ∈ l.objects, o.row.id = connectionId → o.isNew = false →
    Known connectionId w o
  control : ∀ l ∈ ls, ∀ change ∈ l.control, writesRoutes change = true

section Invariant

variable {π : Type} {connectionId : Nat} {w w' : World π} {ls : List Session} {i : Nat}
variable {l l' : Session}

theorem Final.not_revoked (hG : Final connectionId w ls) (hlive : live connectionId w.tables) :
    w.history.any (revokes connectionId) = false := by
  rw [← Bool.not_eq_true]
  intro hany
  obtain ⟨row, hrow, hid⟩ := List.any_eq_true.mp hG.exists_row
  have hid : row.id = connectionId := by simpa using hid
  exact hlive row hrow hid ((hG.dead hany).rows row hrow hid).1

theorem any_drop_append {events : List Event} {history : List Event} {mark : Nat}
    (hmark : mark ≤ history.length) :
    ((history ++ events).drop mark).any (revokes connectionId) =
      ((history.drop mark).any (revokes connectionId) || events.any (revokes connectionId)) := by
  rw [List.drop_append_of_le_length hmark, List.any_append]

theorem Final.of_local (hG : Final connectionId w ls)
    (hconnections : w'.tables.connections = w.tables.connections)
    (hsubscriptions : w'.tables.subscriptions = w.tables.subscriptions) (events : List Event)
    (hhistory : w'.history = w.history ++ events)
    (hnone : events.any (revokes connectionId) = false)
    (hsingle : oneObject connectionId l')
    (hknown : ∀ o ∈ l'.objects, o.row.id = connectionId → o.isNew = false →
      Known connectionId w o)
    (hcontrol : ∀ change ∈ l'.control, writesRoutes change = true) :
    Final connectionId w' (ls.set i l') := by
  have hlater (o : Object) (h : Known connectionId w o) : Known connectionId w' o := by
    refine ⟨?_, h.consistent, ?_⟩
    · rw [hhistory, List.length_append]
      exact Nat.le_add_right_of_le h.mark
    · rw [hhistory, any_drop_append h.mark, hnone, Bool.or_false]
      intro hstatus hdrop
      obtain ⟨hlive, hrow⟩ := h.live hstatus hdrop
      refine ⟨?_, hrow⟩
      unfold RevokedConnection.live at hlive ⊢
      rw [hconnections]
      exact hlive
  constructor
  · rw [Tables.hasConnection, hconnections]
    exact hG.exists_row
  · rw [hconnections]
    exact hG.unique
  · rw [hconnections]
    exact hG.rows
  · rw [hhistory, List.any_append, hnone, Bool.or_false]
    intro hany
    obtain ⟨hrows, hsubs⟩ := hG.dead hany
    constructor
    · rw [hconnections]
      exact hrows
    · rw [hsubscriptions]
      exact hsubs
  · intro x hx
    rcases List.mem_or_eq_of_mem_set hx with hold | rfl
    · exact hG.single x hold
    · exact hsingle
  · intro x hx o ho hid hnew
    rcases List.mem_or_eq_of_mem_set hx with hold | rfl
    · exact hlater o (hG.known x hold o ho hid hnew)
    · exact hlater o (hknown o ho hid hnew)
  · intro x hx
    rcases List.mem_or_eq_of_mem_set hx with hold | rfl
    · exact hG.control x hold
    · exact hcontrol

theorem mem_subscriptions_applyAll {t t' : Tables} {changes : List Change}
    (happly : t.applyAll changes = .ok t') {s : Subscription} (hs : s ∈ t'.subscriptions) :
    (∃ x, .addSubscription x ∈ changes ∧ x.connectionId = s.connectionId ∧
        x.tenantId = s.tenantId) ∨
      ∃ old ∈ t.subscriptions, old.id = s.id ∧
        (old.connectionId = s.connectionId ∧ old.tenantId = s.tenantId) ∧
        changes.any (deletesSubscription old.id) = false := by
  induction changes generalizing t with
  | nil =>
      cases happly
      exact .inr ⟨s, hs, rfl, ⟨rfl, rfl⟩, rfl⟩
  | cons change rest ih =>
      simp only [Tables.applyAll] at happly
      split at happly
      · rename_i u hu
        rcases ih happly with ⟨x, hx, hsame⟩ | ⟨mid, hmid, hmidId, hmidHome, hnone⟩
        · exact .inl ⟨x, List.mem_cons_of_mem _ hx, hsame⟩
        · cases change with
          | addSubscription x =>
              simp only [Tables.apply] at hu
              split at hu
              · cases hu
              · cases hu
                rcases List.mem_append.mp hmid with hold | hnew
                · exact .inr ⟨mid, hold, hmidId, hmidHome, by simpa [deletesSubscription] using hnone⟩
                · rw [List.mem_singleton.mp hnew] at hmidHome
                  exact .inl ⟨x, List.mem_cons_self, hmidHome⟩
          | setExpiry id expiresAt =>
              simp only [Tables.apply] at hu
              split at hu
              · cases hu
                obtain ⟨old, hold, rfl⟩ := List.mem_map.mp hmid
                refine .inr ⟨old, hold, ?_, ⟨?_, ?_⟩, ?_⟩
                · rw [← hmidId]
                  split <;> rfl
                · rw [← hmidHome.1]
                  split <;> rfl
                · rw [← hmidHome.2]
                  split <;> rfl
                · have hid : (if old.id = id then { old with expiresAt := expiresAt }
                      else old).id = old.id := by
                    split <;> rfl
                  rw [hid] at hnone
                  simpa [deletesSubscription] using hnone
              · cases hu
          | deleteSubscription id =>
              cases hu
              exact .inr ⟨mid, List.mem_of_mem_filter hmid, hmidId, hmidHome,
                by simpa [deletesSubscription] using hnone⟩
          | deleteSubscriptions ids =>
              cases hu
              obtain ⟨hold, hkept⟩ := List.mem_filter.mp hmid
              refine .inr ⟨mid, hold, hmidId, hmidHome, ?_⟩
              rw [List.any_cons, hnone, Bool.or_false]
              simpa [deletesSubscription] using hkept
          | addRoute route =>
              simp only [Tables.apply] at hu
              split at hu
              · cases hu
              · cases hu
                exact .inr ⟨mid, hmid, hmidId, hmidHome,
                  by simpa [deletesSubscription] using hnone⟩
          | _ =>
              cases hu
              exact .inr ⟨mid, hmid, hmidId, hmidHome,
                by simpa [deletesSubscription] using hnone⟩
      · cases happly

theorem any_revokes_trace (connectionId : Nat) (objects : List Object) :
    (objects.flatMap Object.trace).any (revokes connectionId) =
      objects.any fun o => o.row.id == connectionId && newlyRevoked o := by
  induction objects with
  | nil => rfl
  | cons o rest ih =>
      rw [List.flatMap_cons, List.any_append, ih, List.any_cons]
      congr 1
      unfold Object.trace newlyRevoked
      split <;> split <;> simp_all [revokes]

theorem Final.flushed (hG : Final connectionId w ls) {t : Tables}
    (ht : w.tables.commit l.objects l.pending = .ok t) {row' : Connection}
    (hrow' : row' ∈ t.connections) (hid : row'.id = connectionId) :
    ∃ row ∈ w.tables.connections, row.id = connectionId ∧
      row' = { row with attributes := writes connectionId l.objects row.attributes } := by
  obtain ⟨u, hu, happly⟩ := commit_eq_ok ht
  rw [connections_applyAll happly] at hrow'
  exact mem_writeObjects hu (isNew_of_writeObjects hu hG.exists_row) hrow' hid

theorem Final.hasConnection_commit (hG : Final connectionId w ls) {t : Tables}
    (ht : w.tables.commit l.objects l.pending = .ok t) :
    t.hasConnection connectionId = true := by
  obtain ⟨u, hu, happly⟩ := commit_eq_ok ht
  have h := hasConnection_writeObjects hu hG.exists_row
  rw [Tables.hasConnection] at h ⊢
  rw [connections_applyAll happly]
  exact h

theorem mem_subscriptions_commit {t : Tables}
    (ht : w.tables.commit l.objects l.pending = .ok t) {s : Subscription}
    (hs : s ∈ t.subscriptions) :
    (∃ x, .addSubscription x ∈ l.pending ∧ x.connectionId = s.connectionId ∧
        x.tenantId = s.tenantId) ∨
      ∃ old ∈ w.tables.subscriptions, old.id = s.id ∧
        (old.connectionId = s.connectionId ∧ old.tenantId = s.tenantId) ∧
        l.pending.any (deletesSubscription old.id) = false := by
  obtain ⟨u, hu, happly⟩ := commit_eq_ok ht
  rw [← subscriptions_writeObjects hu]
  exact mem_subscriptions_applyAll happly hs

/-- The two rows have the same status and tokens. -/
def sameLife (a b : Attributes) : Prop :=
  a.status = b.status ∧ a.accessTokenEnc = b.accessTokenEnc ∧
    a.refreshTokenEnc = b.refreshTokenEnc

theorem sameLife.consistent {a b : Attributes} (h : sameLife a b) (hb : consistent b) :
    consistent a := by
  obtain ⟨hstatus, haccess, hrefresh⟩ := h
  unfold RevokedConnection.consistent at hb ⊢
  rw [hstatus, haccess, hrefresh]
  exact hb

theorem unchanged_of_changesLife {o : Object} (h : changesLife o = false) : unchanged o := by
  simpa [changesLife, unchanged] using h

theorem Final.committed (hG : Final connectionId w ls) (hi : ls[i]? = some l) {t : Tables}
    (ht : w.tables.commit l.objects l.pending = .ok t)
    (hrows : ∀ row ∈ t.connections, row.id = connectionId → consistent row.attributes)
    (hdead : (w.history ++ l.objects.flatMap Object.trace).any (revokes connectionId) = true →
      Dead connectionId t)
    (hlive : (l.objects.flatMap Object.trace).any (revokes connectionId) = false →
      live connectionId w.tables → live connectionId t)
    (hsaved : ∀ o ∈ l.objects, o.row.id = connectionId → consistent o.current) :
    Final connectionId
      { w with tables := t, history := w.history ++ l.objects.flatMap Object.trace }
      (ls.set i { l with objects := l.objects.map Object.saved, pending := [], issued := [] }) := by
  have hl := List.mem_of_getElem? hi
  have hlater (o x : Object) (h : Known connectionId w o) (hmark : x.firstMark = o.firstMark)
      (hfirst : x.firstStatus = o.firstStatus) (hconsistent : consistent x.row.attributes)
      (hrow : (l.objects.flatMap Object.trace).any (revokes connectionId) = false →
        o.row.attributes.status ≠ .revoked → x.row.attributes.status ≠ .revoked) :
      Known connectionId
        { w with tables := t, history := w.history ++ l.objects.flatMap Object.trace } x := by
    refine ⟨?_, hconsistent, ?_⟩
    · rw [hmark]
      show o.firstMark ≤ (w.history ++ l.objects.flatMap Object.trace).length
      rw [List.length_append]
      exact Nat.le_add_right_of_le h.mark
    · rw [hmark, hfirst, any_drop_append h.mark]
      intro hstatus hnone
      obtain ⟨hbefore, hnow⟩ := Bool.or_eq_false_iff.mp hnone
      obtain ⟨halive, hrowStatus⟩ := h.live hstatus hbefore
      exact ⟨hlive hnow halive, hrow hnow hrowStatus⟩
  constructor
  · exact hG.hasConnection_commit ht
  · intro row hrow row' hrow' hid hid'
    obtain ⟨old, hold, holdId, rfl⟩ := hG.flushed ht hrow hid
    obtain ⟨old', hold', holdId', rfl⟩ := hG.flushed ht hrow' hid'
    rw [hG.unique old hold old' hold' holdId holdId']
  · exact hrows
  · exact hdead
  · intro x hx
    rcases List.mem_or_eq_of_mem_set hx with hold | rfl
    · exact hG.single x hold
    · exact oneObject_map (f := Object.saved) (fun _ => rfl) (hG.single l hl) rfl
  · intro x hx o ho hid hnew
    rcases List.mem_or_eq_of_mem_set hx with hold | rfl
    · have h := hG.known x hold o ho hid hnew
      exact hlater o o h rfl rfl h.consistent fun _ hrow => hrow
    · obtain ⟨z, hz, rfl⟩ := List.mem_map.mp ho
      obtain ⟨u, hu, -⟩ := commit_eq_ok ht
      have h := hG.known l hl z hz hid (isNew_of_writeObjects hu hG.exists_row z hz hid)
      refine hlater z z.saved h rfl rfl (hsaved z hz hid) fun hnow hrow hcurrent => ?_
      rw [any_revokes_trace, List.any_eq_false] at hnow
      have hzid : z.row.id = connectionId := hid
      have hzcurrent : z.current.status = .revoked := hcurrent
      exact hnow z hz (by simp [newlyRevoked, hzid, hrow, hzcurrent])
  · intro x hx
    rcases List.mem_or_eq_of_mem_set hx with hold | rfl
    · exact hG.control x hold
    · exact hG.control l hl

theorem final_commit_unchanged (hG : Final connectionId w ls) (hi : ls[i]? = some l)
    (hunchanged : ∀ o ∈ l.objects, o.row.id = connectionId → unchanged o)
    (hadds : w.history.any (revokes connectionId) = true →
      ∀ change ∈ l.pending, addsSubscription connectionId change = false) {t : Tables}
    (ht : w.tables.commit l.objects l.pending = .ok t) :
    Final connectionId
      { w with tables := t, history := w.history ++ l.objects.flatMap Object.trace }
      (ls.set i { l with objects := l.objects.map Object.saved, pending := [], issued := [] }) := by
  have hl := List.mem_of_getElem? hi
  obtain ⟨u, hu, -⟩ := commit_eq_ok ht
  have hnone : (l.objects.flatMap Object.trace).any (revokes connectionId) = false := by
    rw [any_revokes_trace, List.any_eq_false]
    intro o ho h
    obtain ⟨hid, hnewly⟩ := (Bool.and_eq_true _ _).mp h
    obtain ⟨hcurrent, hrow⟩ := of_decide_eq_true hnewly
    exact hrow ((hunchanged o ho (by simpa using hid)).1.symm.trans hcurrent)
  have hwritten (a : Attributes) : sameLife (writes connectionId l.objects a) a := by
    refine ⟨?_, ?_, ?_⟩
    · rcases writes_column write_status connectionId l.objects a with ⟨h, -⟩ | ⟨o, ho, hid, h, -⟩
      · exact h
      · exact absurd (hunchanged o ho hid).1 h
    · rcases writes_column write_accessTokenEnc connectionId l.objects a with
        ⟨h, -⟩ | ⟨o, ho, hid, h, -⟩
      · exact h
      · exact absurd (hunchanged o ho hid).2.1 h
    · rcases writes_column write_refreshTokenEnc connectionId l.objects a with
        ⟨h, -⟩ | ⟨o, ho, hid, h, -⟩
      · exact h
      · exact absurd (hunchanged o ho hid).2.2 h
  refine hG.committed hi ht ?_ ?_ ?_ ?_
  · intro row hrow hid
    obtain ⟨old, hold, holdId, rfl⟩ := hG.flushed ht hrow hid
    exact (hwritten _).consistent (hG.rows old hold holdId)
  · rw [List.any_append, hnone, Bool.or_false]
    intro hany
    have hdead := hG.dead hany
    constructor
    · intro row hrow hid
      obtain ⟨old, hold, holdId, rfl⟩ := hG.flushed ht hrow hid
      obtain ⟨hstatus, haccess, hrefresh⟩ := hwritten old.attributes
      rw [hstatus, haccess, hrefresh]
      exact hdead.rows old hold holdId
    · intro s hs hsid
      rcases mem_subscriptions_commit ht hs with ⟨x, hx, hxid, -⟩ | ⟨old, hold, -, holdId, -⟩
      · have h := hadds hany _ hx
        simp [addsSubscription, hxid, hsid] at h
      · exact hdead.subscriptions old hold (holdId.1.trans hsid)
  · intro _ halive row hrow hid
    obtain ⟨old, hold, holdId, rfl⟩ := hG.flushed ht hrow hid
    rw [(hwritten old.attributes).1]
    exact halive old hold holdId
  · intro o ho hid
    have h := hG.known l hl o ho hid (isNew_of_writeObjects hu hG.exists_row o ho hid)
    exact sameLife.consistent (hunchanged o ho hid) h.consistent

theorem final_commit_revoked (hG : Final connectionId w ls) (hi : ls[i]? = some l) {o : Object}
    (ho : o ∈ l.objects) (hoid : o.row.id = connectionId) (hnewly : newlyRevoked o = true)
    (hfit : Fit o) (hadds : ∀ change ∈ l.pending, addsSubscription connectionId change = false)
    (hdeletes : ∀ s ∈ w.tables.subscriptions, s.connectionId = connectionId →
      l.pending.any (deletesSubscription s.id) = true) {t : Tables}
    (ht : w.tables.commit l.objects l.pending = .ok t) :
    Final connectionId
      { w with tables := t, history := w.history ++ l.objects.flatMap Object.trace }
      (ls.set i { l with objects := l.objects.map Object.saved, pending := [], issued := [] }) := by
  have hl := List.mem_of_getElem? hi
  have hsingle := hG.single l hl
  obtain ⟨u, hu, -⟩ := commit_eq_ok ht
  have hknown := hG.known l hl o ho hoid (isNew_of_writeObjects hu hG.exists_row o ho hoid)
  obtain ⟨hcurrent, hrowStatus⟩ := of_decide_eq_true hnewly
  obtain ⟨haccess, hrefresh⟩ := (hfit hknown.consistent).1 hcurrent
  have htokens : o.row.attributes.accessTokenEnc ≠ [] ∧ o.row.attributes.refreshTokenEnc ≠ [] := by
    have h := hknown.consistent
    unfold consistent at h
    rwa [if_neg hrowStatus] at h
  have hrevoked : (l.objects.flatMap Object.trace).any (revokes connectionId) = true := by
    rw [any_revokes_trace, List.any_eq_true]
    exact ⟨o, ho, by simp [hoid, hnewly]⟩
  have hrows (row : Connection) (hrow : row ∈ t.connections) (hid : row.id = connectionId) :
      row.attributes.status = .revoked ∧ row.attributes.accessTokenEnc = [] ∧
        row.attributes.refreshTokenEnc = [] := by
    obtain ⟨old, hold, holdId, rfl⟩ := hG.flushed ht hrow hid
    refine ⟨?_, ?_, ?_⟩
    · rw [writes_column_of_oneObject write_status hsingle ho hoid, hcurrent, column,
        if_neg (Ne.symm hrowStatus)]
    · rw [writes_column_of_oneObject write_accessTokenEnc hsingle ho hoid, haccess, column,
        if_neg (Ne.symm htokens.1)]
    · rw [writes_column_of_oneObject write_refreshTokenEnc hsingle ho hoid, hrefresh, column,
        if_neg (Ne.symm htokens.2)]
  refine hG.committed hi ht ?_ ?_ ?_ ?_
  · intro row hrow hid
    obtain ⟨hstatus, htokens⟩ := hrows row hrow hid
    unfold consistent
    rwa [if_pos hstatus]
  · intro _
    refine ⟨hrows, fun s hs hsid => ?_⟩
    rcases mem_subscriptions_commit ht hs with ⟨x, hx, hxid, -⟩ | ⟨old, hold, -, holdId, h⟩
    · have h := hadds _ hx
      simp [addsSubscription, hxid, hsid] at h
    · rw [hdeletes old hold (holdId.1.trans hsid)] at h
      cases h
  · intro hnone
    rw [hrevoked] at hnone
    cases hnone
  · intro x hx hxid
    rw [hsingle x hx o ho hxid hoid]
    unfold consistent
    rw [if_pos hcurrent]
    exact ⟨haccess, hrefresh⟩

theorem final_commit_alive (hG : Final connectionId w ls) (hi : ls[i]? = some l) {o : Object}
    (ho : o ∈ l.objects) (hoid : o.row.id = connectionId) (hcurrent : o.current.status ≠ .revoked)
    (hfit : Fit o) (hfirst : o.firstStatus ≠ .revoked)
    (hsince : (w.history.drop o.firstMark).any (revokes connectionId) = false) {t : Tables}
    (ht : w.tables.commit l.objects l.pending = .ok t) :
    Final connectionId
      { w with tables := t, history := w.history ++ l.objects.flatMap Object.trace }
      (ls.set i { l with objects := l.objects.map Object.saved, pending := [], issued := [] }) := by
  have hl := List.mem_of_getElem? hi
  have hsingle := hG.single l hl
  obtain ⟨u, hu, -⟩ := commit_eq_ok ht
  have hknown := hG.known l hl o ho hoid (isNew_of_writeObjects hu hG.exists_row o ho hoid)
  obtain ⟨halive, hrowStatus⟩ := hknown.live hfirst hsince
  have htokens : o.current.accessTokenEnc ≠ [] ∧ o.current.refreshTokenEnc ≠ [] := by
    rcases (hfit hknown.consistent).2 hcurrent with h | h
    · exact absurd h hrowStatus
    · exact h
  have hnone : (l.objects.flatMap Object.trace).any (revokes connectionId) = false := by
    rw [any_revokes_trace, List.any_eq_false]
    intro x hx h
    obtain ⟨hxid, hnewly⟩ := (Bool.and_eq_true _ _).mp h
    rw [hsingle x hx o ho (by simpa using hxid) hoid] at hnewly
    exact hcurrent (of_decide_eq_true hnewly).1
  have hcolumn {α : Type} [DecidableEq α] {loaded current row x : α} (hc : current ≠ x)
      (hr : row ≠ x) : column loaded current row ≠ x := by
    unfold column
    split
    · exact hr
    · exact hc
  have hrows (row : Connection) (hrow : row ∈ t.connections) (hid : row.id = connectionId) :
      row.attributes.status ≠ .revoked ∧ row.attributes.accessTokenEnc ≠ [] ∧
        row.attributes.refreshTokenEnc ≠ [] := by
    obtain ⟨old, hold, holdId, rfl⟩ := hG.flushed ht hrow hid
    have hstatus := halive old hold holdId
    have hold := hG.rows old hold holdId
    unfold consistent at hold
    rw [if_neg hstatus] at hold
    refine ⟨?_, ?_, ?_⟩
    · rw [writes_column_of_oneObject write_status hsingle ho hoid]
      exact hcolumn hcurrent hstatus
    · rw [writes_column_of_oneObject write_accessTokenEnc hsingle ho hoid]
      exact hcolumn htokens.1 hold.1
    · rw [writes_column_of_oneObject write_refreshTokenEnc hsingle ho hoid]
      exact hcolumn htokens.2 hold.2
  refine hG.committed hi ht ?_ ?_ ?_ ?_
  · intro row hrow hid
    obtain ⟨hstatus, htokens⟩ := hrows row hrow hid
    unfold consistent
    rwa [if_neg hstatus]
  · rw [List.any_append, hnone, hG.not_revoked halive]
    intro h
    cases h
  · exact fun _ _ row hrow hid => (hrows row hrow hid).1
  · intro x hx hxid
    rw [hsingle x hx o ho hxid hoid]
    unfold consistent
    rwa [if_neg hcurrent]

theorem final_commit (hG : Final connectionId w ls) (hi : ls[i]? = some l)
    (hallowed : allowed connectionId l .commit)
    (hspares : (∀ o ∈ l.objects, o.row.id = connectionId → o.isNew = false) →
      Spares connectionId w l) :
    Final connectionId (w.commit l).1 (ls.set i (w.commit l).2.1) := by
  obtain ⟨hfits, hrevocation⟩ := hallowed
  unfold World.commit
  split
  · rename_i t ht
    obtain ⟨u, hu, -⟩ := commit_eq_ok ht
    have hold := isNew_of_writeObjects hu hG.exists_row
    obtain ⟨halive, hdeletes, hadds⟩ := hspares hold
    by_cases hchanged : ∃ o ∈ l.objects, o.row.id = connectionId ∧ changesLife o = true
    · obtain ⟨o, ho, hoid, hchanges⟩ := hchanged
      have hnew := hold o ho hoid
      have hfit := hfits o ho hoid hnew
      by_cases hcurrent : o.current.status = .revoked
      · have hknown := hG.known l (List.mem_of_getElem? hi) o ho hoid hnew
        have hrowStatus : o.row.attributes.status ≠ .revoked := by
          intro hrow
          have hconsistent := hknown.consistent
          obtain ⟨haccess, hrefresh⟩ := (hfit hconsistent).1 hcurrent
          unfold consistent at hconsistent
          rw [if_pos hrow] at hconsistent
          simp [changesLife, hcurrent, hrow, haccess, hrefresh, hconsistent] at hchanges
        have hnewly : newlyRevoked o = true := by simp [newlyRevoked, hcurrent, hrowStatus]
        exact final_commit_revoked hG hi ho hoid hnewly hfit (hrevocation ⟨o, ho, hoid, hnewly⟩).1
          (hdeletes o ho hoid hnewly) ht
      · obtain ⟨hfirst, hsince⟩ := halive o ho hoid hchanges hcurrent
        exact final_commit_alive hG hi ho hoid hcurrent hfit hfirst hsince ht
    · refine final_commit_unchanged hG hi ?_ hadds ht
      intro o ho hoid
      refine unchanged_of_changesLife ?_
      rw [← Bool.not_eq_true]
      exact fun h => hchanged ⟨o, ho, hoid, h⟩
  · refine hG.of_local rfl rfl [] (by simp) rfl ?_ ?_ (hG.control l (List.mem_of_getElem? hi))
    · intro o ho
      cases ho
    · intro o ho
      cases ho

theorem subscriptions_applyAll_routes {t t' : Tables} {changes : List Change}
    (hchanges : ∀ change ∈ changes, writesRoutes change = true)
    (happly : t.applyAll changes = .ok t') : t'.subscriptions = t.subscriptions := by
  induction changes generalizing t with
  | nil =>
      cases happly
      rfl
  | cons change rest ih =>
      simp only [Tables.applyAll] at happly
      split at happly
      · rename_i u hu
        rw [ih (fun c hc => hchanges c (List.mem_cons_of_mem _ hc)) happly]
        have hroutes := hchanges change List.mem_cons_self
        cases change with
        | addRoute route =>
            simp only [Tables.apply] at hu
            split at hu
            · cases hu
            · cases hu
              rfl
        | deleteRoutes keys =>
            cases hu
            rfl
        | _ => cases hroutes
      · cases happly

theorem known_ofRow (hG : Final connectionId w ls) {row : Connection}
    (hrow : row ∈ w.tables.connections) (hid : row.id = connectionId) :
    Known connectionId w (Object.ofRow w.history.length row) := by
  refine ⟨Nat.le_refl _, hG.rows row hrow hid, fun hstatus _ => ⟨?_, hstatus⟩⟩
  intro other hother hotherId
  rw [hG.unique other hother row hrow hotherId hid]
  exact hstatus

theorem known_reload (hG : Final connectionId w ls) {o : Object} (h : Known connectionId w o)
    {row : Connection} (hrow : row ∈ w.tables.connections) (hid : row.id = connectionId) :
    Known connectionId w (o.reload w.history.length row) := by
  refine ⟨h.mark, hG.rows row hrow hid, fun hstatus hsince => ?_⟩
  obtain ⟨halive, -⟩ := h.live hstatus hsince
  exact ⟨halive, halive row hrow hid⟩

theorem Final.of_reads (hG : Final connectionId w ls) (hi : ls[i]? = some l)
    (htables : w'.tables = w.tables) (hhistory : w'.history = w.history)
    (hcontrol : l'.control = l.control) (hsingle : oneObject connectionId l')
    (hknown : ∀ o ∈ l'.objects, o.row.id = connectionId → o.isNew = false →
      o ∈ l.objects ∨ Known connectionId w o) :
    Final connectionId w' (ls.set i l') := by
  have hl := List.mem_of_getElem? hi
  refine hG.of_local (by rw [htables]) (by rw [htables]) [] (by simp [hhistory]) rfl hsingle ?_ ?_
  · intro o ho hid hnew
    rcases hknown o ho hid hnew with hold | hnew
    · exact hG.known l hl o hold hid ‹_›
    · exact hnew
  · rw [hcontrol]
    exact hG.control l hl

theorem Final.of_same (hG : Final connectionId w ls) (hi : ls[i]? = some l)
    (htables : w'.tables = w.tables) (events : List Event)
    (hhistory : w'.history = w.history ++ events)
    (hnone : events.any (revokes connectionId) = false)
    (hcontrol : ∀ change ∈ l'.control, writesRoutes change = true)
    (hobjects : l'.objects = l.objects) :
    Final connectionId w' (ls.set i l') := by
  have hl := List.mem_of_getElem? hi
  refine hG.of_local (by rw [htables]) (by rw [htables]) events hhistory hnone ?_ ?_ hcontrol
  · have h := hG.single l hl
    unfold oneObject at h ⊢
    rw [hobjects]
    exact h
  · rw [hobjects]
    exact hG.known l hl

end Invariant

theorem any_revokes_exchangeTrace (connectionId id : Nat) (token : PyStr) (answer : HttpAnswer) :
    (exchangeTrace id token answer).any (revokes connectionId) = false := by
  unfold exchangeTrace
  split <;> rfl

section Step

variable {π : Type} {endpoint : TokenEndpoint π} {connectionId : Nat} {w : World π}
variable {ls : List Session} {i : Nat} {l : Session}

theorem final_refreshObject (hG : Final connectionId w ls) (hi : ls[i]? = some l) (id : Nat)
    (c : Choice) :
    Final connectionId (serve endpoint w l (.refreshObject id) c).1
      (ls.set i (serve endpoint w l (.refreshObject id) c).2.1) := by
  have hl := List.mem_of_getElem? hi
  simp only [serve]
  split
  · rename_i row hrow
    have hrowId : row.id = id := by simpa using List.find?_some hrow
    have hrow := List.mem_of_find?_eq_some hrow
    refine hG.of_reads hi rfl rfl rfl ?_ ?_
    · refine oneObject_map (f := fun o => if o.row.id = id then
        o.reload w.history.length row else o) ?_ (hG.single l hl) rfl
      intro o
      split
      · rename_i hid
        exact hrowId.trans hid.symm
      · rfl
    · intro o ho hid hnew
      obtain ⟨old, hold, ⟨holdId, rfl⟩ | ⟨-, rfl⟩⟩ := mem_update ho
      · have hconnection : row.id = connectionId := hid
        have hknown := hG.known l hl old hold (holdId.trans (hrowId.symm.trans hconnection)) hnew
        exact .inr (known_reload hG hknown hrow hconnection)
      · exact .inl hold
  · exact hG.of_same hi rfl [] (by simp) rfl (hG.control l hl) rfl

theorem final_assign (hG : Final connectionId w ls) (hi : ls[i]? = some l) (id : Nat)
    (value : Stamp → Attributes → Except Failure Attributes) (c : Choice) :
    Final connectionId (serve endpoint w l (.assign id value) c).1
      (ls.set i (serve endpoint w l (.assign id value) c).2.1) := by
  have hl := List.mem_of_getElem? hi
  have hsame : Final connectionId w (ls.set i l) :=
    hG.of_same hi rfl [] (by simp) rfl (hG.control l hl) rfl
  simp only [serve]
  split
  · exact hsame
  · split
    · refine hG.of_reads hi rfl rfl rfl (oneObject_update (fun _ => rfl) (hG.single l hl)) ?_
      intro o ho hid hnew
      obtain ⟨old, hold, ⟨-, rfl⟩ | ⟨-, rfl⟩⟩ := mem_update ho
      · have h := hG.known l hl old hold hid hnew
        exact .inr ⟨h.mark, h.consistent, h.live⟩
      · exact .inl hold
    · exact hsame

theorem final_step (r : Request) (c : Choice) (hG : Final connectionId w ls)
    (hi : ls[i]? = some l) (hallowed : allowed connectionId l r)
    (hspares : r = .commit → (∀ o ∈ l.objects, o.row.id = connectionId → o.isNew = false) →
      Spares connectionId w l) :
    Final connectionId (serve endpoint w l r c).1 (ls.set i (serve endpoint w l r c).2.1) := by
  have hl := List.mem_of_getElem? hi
  have hsame : Final connectionId w (ls.set i l) :=
    hG.of_same hi rfl [] (by simp) rfl (hG.control l hl) rfl
  cases r with
  | commit => exact final_commit hG hi hallowed (hspares rfl)
  | refreshObject id => exact final_refreshObject hG hi id c
  | assign id value => exact final_assign hG hi id value c
  | openSession tenantId =>
      refine hG.of_reads hi rfl rfl rfl ?_ ?_
      · intro o ho
        cases ho
      · intro o ho
        cases ho
  | selectActiveConnections =>
      refine hG.of_reads hi rfl rfl (loadAll_control _ _ _)
        (oneObject_loadAll _ _ (hG.single l hl)) ?_
      intro o ho hid _
      rcases mem_loadAll ho with hold | ⟨row, hrow, rfl⟩
      · exact .inl hold
      · exact .inr (known_ofRow hG (List.mem_of_mem_filter hrow) hid)
  | getConnection id =>
      simp only [serve]
      split
      · exact hsame
      · split
        · rename_i row hrow
          refine hG.of_reads hi rfl rfl (load_control _ _ _)
            (oneObject_load _ _ (hG.single l hl)) ?_
          intro o ho hid _
          rcases mem_load ho with hold | rfl
          · exact .inl hold
          · exact .inr (known_ofRow hG (List.mem_of_find?_eq_some hrow) hid)
        · exact hsame
  | findConnection provider kind accountLabel =>
      simp only [serve]
      split
      · rename_i row hrow
        refine hG.of_reads hi rfl rfl (load_control _ _ _)
          (oneObject_load _ _ (hG.single l hl)) ?_
        intro o ho hid _
        rcases mem_load ho with hold | rfl
        · exact .inl hold
        · exact .inr (known_ofRow hG (List.mem_of_find?_eq_some hrow) hid)
      · exact hsame
  | addConnection provider kind userId accountLabel scopes =>
      refine hG.of_reads hi rfl rfl rfl ?_ ?_
      · intro o ho o' ho' hid hid'
        rcases List.mem_cons.mp ho with rfl | hold
        · rcases List.mem_cons.mp ho' with rfl | hold'
          · rfl
          · exact absurd hid' (hallowed o' hold')
        · exact absurd hid (hallowed o hold)
      · intro o ho hid hnew
        rcases List.mem_cons.mp ho with rfl | hold
        · cases hnew
        · exact .inl hold
  | exchange id token =>
      exact hG.of_same hi rfl _ rfl (any_revokes_exchangeTrace _ _ _ _) (hG.control l hl) rfl
  | callApi | exchangeCode | accountInfo | revokeRemote =>
      exact hG.of_same hi rfl _ rfl rfl (hG.control l hl) rfl
  | acquireLock name =>
      refine hG.of_same hi ?_ [] ?_ rfl (hG.control l hl) rfl <;>
      · simp only [serve, World.acquireLock]
        split <;> simp
  | addRoute route =>
      refine hG.of_same hi rfl [] (by simp [serve]) rfl ?_ rfl
      intro change hchange
      rcases List.mem_append.mp hchange with hold | hnew
      · exact hG.control l hl change hold
      · rw [List.mem_singleton.mp hnew]
        rfl
  | deleteRoutesOf id =>
      refine hG.of_same hi rfl [] (by simp [serve]) rfl ?_ rfl
      intro change hchange
      rcases List.mem_append.mp hchange with hold | hnew
      · exact hG.control l hl change hold
      · rw [List.mem_singleton.mp hnew]
        rfl
  | commitControl =>
      simp only [serve, World.commitControl]
      split
      · rename_i t ht
        exact hG.of_local (connections_applyAll ht)
          (subscriptions_applyAll_routes (hG.control l hl) ht) [] (by simp) rfl (hG.single l hl)
          (hG.known l hl) (by simp)
      · exact hG.of_same hi rfl [] (by simp) rfl (by simp) rfl
  | _ => exact hG.of_same hi rfl [] (by simp [serve, World.deleteLock]) rfl (hG.control l hl) rfl

end Step

end Socle.RevokedConnection
