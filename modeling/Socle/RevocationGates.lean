import Socle.RevokedConnection

/-!
The tests that stand between a revoked connection and what the operations write:
the statuses that are asked for before a refresh, a call, a renewal or a sync, and
the rows that the queries leave out.
-/

namespace Socle.RevocationGates

open Socle.Procedures
open Socle.DirectoryStore (Instant Tenant User)
open Socle.TokenExchange
open Socle.ConnectorStore
open Socle.ConnectorService
open Socle.ConnectorTransactions
open Socle.RevokedConnection

/-- The session has loaded no row of the connection that was revoked. -/
def Alive (connectionId : Nat) (l : Session) : Prop :=
  ∀ o ∈ l.objects, o.row.id = connectionId → o.firstStatus ≠ .revoked

/-- The session has an object of the connection that was not revoked when it was
loaded. -/
def Present (connectionId : Nat) (l : Session) : Prop :=
  ∃ o ∈ l.objects, o.row.id = connectionId ∧ o.firstStatus ≠ .revoked

/-- The session has no bulk DELETE to commit. -/
def Unswept (l : Session) : Prop :=
  ∀ change ∈ l.pending, bulk change = false

/-- What a session leaves alone: a row it has found revoked keeps its status and
tokens, unless the session is given the connection by name, `named`; and a subscription
is added only for a connection it has found otherwise, in its own tenant. -/
structure Sober (connectionId : Nat) (named : Bool) (l : Session) : Prop where
  single : oneObject connectionId l
  met : named = false → ∀ o ∈ l.objects, o.row.id = connectionId → o.firstStatus = .revoked →
    unchanged o ∧ o.current.status = .revoked
  adds : ∀ s, .addSubscription s ∈ l.pending → s.connectionId = connectionId →
    s.tenantId = l.tenantId ∧ Present connectionId l

/-- The gate of a request. -/
def gated (connectionId : Nat) (named : Bool) (l : Session) : Request → Prop
  | .assign id _ => Unswept l ∧ (named = false → id = connectionId → Alive connectionId l)
  | .refreshObject id => Unswept l ∧ (named = false → id = connectionId → Alive connectionId l)
  | .addSubscription id .. => id = connectionId → Present connectionId l
  | .addConnection .. => ∀ o ∈ l.objects, o.row.id ≠ connectionId
  | .deleteSubscriptionsOf id =>
      ∀ o ∈ l.objects, o.row.id = connectionId → newlyRevoked o = true → id = connectionId
  | _ => True

section Requests

variable {π : Type} {endpoint : TokenEndpoint π} {connectionId : Nat} {named : Bool}
variable {l l' : Session}

theorem sober_nil (hobjects : l.objects = []) (hpending : l.pending = []) :
    Sober connectionId named l := by
  refine ⟨?_, ?_, ?_⟩
  · intro o ho
    rw [hobjects] at ho
    cases ho
  · intro _ o ho
    rw [hobjects] at ho
    cases ho
  · intro s hs
    rw [hpending] at hs
    cases hs

namespace Sober

theorem same (h : Sober connectionId named l) (hobjects : l'.objects = l.objects)
    (htenant : l'.tenantId = l.tenantId)
    (hadds : ∀ s, .addSubscription s ∈ l'.pending → .addSubscription s ∈ l.pending) :
    Sober connectionId named l' := by
  refine ⟨?_, ?_, ?_⟩
  · unfold oneObject
    rw [hobjects]
    exact h.single
  · rw [hobjects]
    exact h.met
  · intro s hs
    unfold Present
    rw [hobjects, htenant]
    exact h.adds s (hadds s hs)

theorem add (h : Sober connectionId named l) {change : Change}
    (hchange : ∀ s, change ≠ .addSubscription s) : Sober connectionId named (l.add change) := by
  refine h.same rfl rfl fun s hs => ?_
  rcases List.mem_append.mp hs with hold | hnew
  · exact hold
  · exact absurd (List.mem_singleton.mp hnew).symm (hchange s)

theorem load (h : Sober connectionId named l) (mark : Nat) (row : Connection) :
    Sober connectionId named (l.load mark row) := by
  refine ⟨oneObject_load mark row h.single, ?_, ?_⟩
  · intro hnamed o ho hid hfirst
    rcases mem_load ho with hold | rfl
    · exact h.met hnamed o hold hid hfirst
    · exact ⟨⟨rfl, rfl, rfl⟩, hfirst⟩
  · rw [load_pending, load_tenantId]
    intro s hs hid
    obtain ⟨hhome, o, ho, hpresent⟩ := h.adds s hs hid
    exact ⟨hhome, o, mem_load_of_mem ho, hpresent⟩

theorem loadAll (h : Sober connectionId named l) (mark : Nat) (rows : List Connection) :
    Sober connectionId named (Session.loadAll mark l rows) := by
  induction rows generalizing l with
  | nil => exact h
  | cons row rest ih => exact ih (h.load mark row)

theorem update (h : Sober connectionId named l) {id : Nat} {f : Object → Object}
    (hid : ∀ o : Object, o.row.id = id → (f o).row.id = id)
    (hfirst : ∀ o : Object, (f o).firstStatus = o.firstStatus)
    (halive : named = false → id = connectionId → Alive connectionId l) :
    Sober connectionId named (l.update id f) := by
  refine ⟨?_, ?_, ?_⟩
  · refine oneObject_map (f := fun o => if o.row.id = id then f o else o) ?_ h.single rfl
    intro o
    split
    · rename_i hoid
      exact (hid o hoid).trans hoid.symm
    · rfl
  · intro hnamed o ho hoid hrevoked
    obtain ⟨old, hold, ⟨holdId, rfl⟩ | ⟨-, rfl⟩⟩ := mem_update ho
    · have hconnection : id = connectionId := (hid old holdId).symm.trans hoid
      rw [hfirst] at hrevoked
      exact absurd hrevoked (halive hnamed hconnection old hold (holdId.trans hconnection))
    · exact h.met hnamed o hold hoid hrevoked
  · intro s hs hsid
    obtain ⟨hhome, o, ho, hoid, hpresent⟩ := h.adds s hs hsid
    refine ⟨hhome, if o.row.id = id then f o else o, List.mem_map_of_mem ho, ?_⟩
    split
    · rename_i hown
      exact ⟨(hid o hown).trans (hown.symm.trans hoid), (hfirst o).symm ▸ hpresent⟩
    · exact ⟨hoid, hpresent⟩

theorem commit (h : Sober connectionId named l) (w : World π) :
    Sober connectionId named (w.commit l).2.1 := by
  unfold World.commit
  split
  · refine ⟨oneObject_map (f := Object.saved) (fun _ => rfl) h.single rfl, ?_, ?_⟩
    · intro hnamed o ho hid hfirst
      obtain ⟨old, hold, rfl⟩ := List.mem_map.mp ho
      exact ⟨⟨rfl, rfl, rfl⟩, (h.met hnamed old hold hid hfirst).2⟩
    · intro s hs
      cases hs
  · exact sober_nil rfl rfl

theorem serve {r : Request} (h : Sober connectionId named l)
    (hgated : gated connectionId named l r) (w : World π) (c : Choice) :
    Sober connectionId named (serve endpoint w l r c).2.1 := by
  cases r with
  | openSession tenantId => exact sober_nil rfl rfl
  | selectActiveConnections => exact h.loadAll _ _
  | getConnection id =>
      simp only [ConnectorStore.serve]
      repeat' split
      · exact h
      · exact h.load _ _
      · exact h
  | findConnection provider kind accountLabel =>
      simp only [ConnectorStore.serve]
      split
      · exact h.load _ _
      · exact h
  | addConnection provider kind userId accountLabel scopes =>
      refine ⟨?_, ?_, ?_⟩
      · intro o ho o' ho' hid hid'
        rcases List.mem_cons.mp ho with rfl | hold
        · rcases List.mem_cons.mp ho' with rfl | hold'
          · rfl
          · exact absurd hid' (hgated o' hold')
        · exact absurd hid (hgated o hold)
      · intro _ o ho hid hfirst
        rcases List.mem_cons.mp ho with rfl | hold
        · cases hfirst
        · exact absurd hid (hgated o hold)
      · intro s hs hid
        obtain ⟨hhome, o, ho, hpresent⟩ := h.adds s hs hid
        exact ⟨hhome, o, List.mem_cons_of_mem _ ho, hpresent⟩
  | refreshObject id =>
      simp only [ConnectorStore.serve]
      split
      · rename_i row hrow
        have hrowId : row.id = id := by simpa using List.find?_some hrow
        exact h.update (fun _ _ => hrowId) (fun _ => rfl) hgated.2
      · exact h
  | assign id value =>
      simp only [ConnectorStore.serve]
      split
      · exact h
      · split
        · exact h.update (fun _ hid => hid) (fun _ => rfl) hgated.2
        · exact h
  | addSubscription id capability externalId expiresAt hash =>
      refine ⟨h.single, h.met, ?_⟩
      intro s hs hid
      rcases List.mem_append.mp hs with hold | hnew
      · exact h.adds s hold hid
      · cases List.mem_singleton.mp hnew
        exact ⟨rfl, hgated hid⟩
  | setExpiry | deleteSubscription | deleteSubscriptionsOf | addAuditEvent =>
      exact h.add (by simp)
  | commit => exact h.commit w
  | commitControl =>
      simp only [ConnectorStore.serve, World.commitControl]
      split
      · exact h.same rfl rfl fun _ hs => hs
      · exact h.same rfl rfl fun _ hs => hs
  | _ => exact h.same rfl rfl fun _ hs => hs

end Sober

/-- The connections in `own` have passed a status test, and no DELETE is pending. -/
structure Owned (connectionId : Nat) (named : Bool) (own : Nat → Prop) (l : Session) : Prop where
  sober : Sober connectionId named l
  alive : named = false → own connectionId → Alive connectionId l
  unswept : Unswept l

/-- The requests that load and add nothing, and change no row but those in `own`. -/
def tame (own : Nat → Prop) : Request → Prop
  | .assign id _ => own id
  | .refreshObject id => own id
  | .openSession _ => False
  | .selectActiveConnections => False
  | .getConnection _ => False
  | .findConnection .. => False
  | .addConnection .. => False
  | .addSubscription .. => False
  | .deleteSubscriptionsOf _ => False
  | _ => True

variable {own : Nat → Prop}

theorem tame_objects {r : Request} (hr : tame own r) (w : World π) (c : Choice) {o : Object}
    (ho : o ∈ (serve endpoint w l r c).2.1.objects) :
    ∃ old ∈ l.objects, old.row.id = o.row.id ∧ old.firstStatus = o.firstStatus := by
  cases r with
  | assign id value =>
      simp only [serve] at ho
      repeat' split at ho
      · exact ⟨o, ho, rfl, rfl⟩
      · obtain ⟨old, hold, ⟨-, rfl⟩ | ⟨-, rfl⟩⟩ := mem_update ho
        · exact ⟨old, hold, rfl, rfl⟩
        · exact ⟨o, hold, rfl, rfl⟩
      · exact ⟨o, ho, rfl, rfl⟩
  | refreshObject id =>
      simp only [serve] at ho
      split at ho
      · rename_i row hrow
        have hrowId : row.id = id := by simpa using List.find?_some hrow
        obtain ⟨old, hold, ⟨holdId, rfl⟩ | ⟨-, rfl⟩⟩ := mem_update ho
        · exact ⟨old, hold, holdId.trans hrowId.symm, rfl⟩
        · exact ⟨o, hold, rfl, rfl⟩
      · exact ⟨o, ho, rfl, rfl⟩
  | commit =>
      simp only [serve, World.commit] at ho
      split at ho
      · obtain ⟨old, hold, rfl⟩ := List.mem_map.mp ho
        exact ⟨old, hold, rfl, rfl⟩
      · cases ho
  | commitControl =>
      simp only [serve, World.commitControl] at ho
      split at ho <;> exact ⟨o, ho, rfl, rfl⟩
  | openSession | selectActiveConnections | getConnection | findConnection | addConnection
  | addSubscription | deleteSubscriptionsOf => exact hr.elim
  | _ => exact ⟨o, ho, rfl, rfl⟩

theorem unswept_add (h : Unswept l) {change : Change} (hchange : bulk change = false) :
    Unswept (l.add change) := by
  intro x hx
  rcases List.mem_append.mp hx with hold | hnew
  · exact h x hold
  · rw [List.mem_singleton.mp hnew]
    exact hchange

theorem tame_unswept {r : Request} (hr : tame own r) (h : Unswept l) (w : World π) (c : Choice) :
    Unswept (serve endpoint w l r c).2.1 := by
  cases r with
  | assign id value =>
      simp only [serve]
      repeat' split
      all_goals exact h
  | refreshObject id =>
      simp only [serve]
      split <;> exact h
  | commit =>
      simp only [serve, World.commit]
      split
      · exact fun _ hchange => by cases hchange
      · exact fun _ hchange => by cases hchange
  | commitControl =>
      simp only [serve, World.commitControl]
      split <;> exact h
  | setExpiry | deleteSubscription | addAuditEvent => exact unswept_add h rfl
  | openSession | selectActiveConnections | getConnection | findConnection | addConnection
  | addSubscription | deleteSubscriptionsOf => exact hr.elim
  | _ => exact h

theorem tame_gated {r : Request} (hr : tame own r) (h : Owned connectionId named own l) :
    gated connectionId named l r := by
  cases r with
  | assign id value =>
      exact ⟨h.unswept, fun hnamed hid => h.alive hnamed (hid ▸ hr)⟩
  | refreshObject id => exact ⟨h.unswept, fun hnamed hid => h.alive hnamed (hid ▸ hr)⟩
  | addConnection | addSubscription | deleteSubscriptionsOf => exact hr.elim
  | _ => trivial

theorem tame_serve (l : Session) (r : Request) (hr : tame own r)
    (h : Owned connectionId named own l) :
    gated connectionId named l r ∧
      ∀ w c, Owned connectionId named own (serve endpoint w l r c).2.1 := by
  have hgated := tame_gated hr h
  refine ⟨hgated, fun w c => ⟨h.sober.serve hgated w c, ?_, tame_unswept hr h.unswept w c⟩⟩
  intro hnamed hown o ho hid
  obtain ⟨old, hold, holdId, hfirst⟩ := tame_objects hr w c ho
  rw [← hfirst]
  exact h.alive hnamed hown old hold (holdId.trans hid)

theorem follows_tame {α : Type} {p : ConnectorProc α} (hp : Makes (tame own) p)
    (h : Owned connectionId named own l) :
    Follows (serve endpoint) (gated connectionId named)
      (fun l _ => Owned connectionId named own l) l p :=
  Makes.follows_of tame_serve hp h

theorem Owned.mono {own' : Nat → Prop} (h : Owned connectionId named own l)
    (himp : ∀ id, own' id → own id) : Owned connectionId named own' l :=
  ⟨h.sober, fun hnamed hown => h.alive hnamed (himp _ hown), h.unswept⟩

theorem Owned.of_status (h : Owned connectionId false own l) {id : Nat} {o : Object}
    (ho : l.object? id = some o) (hstatus : o.current.status ≠ .revoked) :
    Owned connectionId false (Eq id) l := by
  refine ⟨h.sober, fun _ hid x hx hxid hrevoked => ?_, h.unswept⟩
  obtain ⟨hmem, hoid⟩ := mem_of_object? ho
  have hxo : x = o := h.sober.single x hx o hmem hxid (hoid.trans hid)
  rw [hxo] at hrevoked
  exact hstatus (h.sober.met rfl o hmem (hoid.trans hid) hrevoked).2

theorem owned_nil (hobjects : l.objects = []) (hpending : l.pending = []) :
    Owned connectionId named own l := by
  refine ⟨sober_nil hobjects hpending, fun _ _ o ho => ?_, fun change hchange => ?_⟩
  · rw [hobjects] at ho
    cases ho
  · rw [hpending] at hchange
    cases hchange

theorem owned_getConnection (h : Owned connectionId named own l) (id : Nat) (w : World π)
    (c : Choice) :
    Owned connectionId named (fun _ => False) (serve endpoint w l (.getConnection id) c).2.1 := by
  refine ⟨h.sober.serve (r := .getConnection id) trivial w c, fun _ hown => hown.elim, ?_⟩
  simp only [serve]
  repeat' split
  · exact h.unswept
  · unfold Unswept
    rw [load_pending]
    exact h.unswept
  · exact h.unswept

end Requests

section Operations

variable {π : Type} {endpoint : TokenEndpoint π} {settings : Settings} {connectionId : Nat}
variable {named : Bool} {own : Nat → Prop} {l : Session}

theorem follows_read_bind {α : Type} {Q : Session → Except Failure α → Prop} {id : Nat}
    {f : Connection → ConnectorProc α}
    (hf : ∀ o, l.object? id = some o → o.row.id = id →
      Follows (serve endpoint) (gated connectionId named) Q l (f o.view))
    (he : ∀ e, Q l (.error e)) :
    Follows (serve endpoint) (gated connectionId named) Q l (readObject id >>= f) := by
  refine follows_bind (follows_readObject trivial) ?_ (by rintro l e ⟨rfl, -⟩; exact he e)
  rintro l connection ⟨rfl, hread⟩
  obtain ⟨o, ho, rfl⟩ := hread connection rfl
  exact hf o ho (mem_of_object? ho).2

theorem tame_of_locking {id : Nat} (hown : own id) (r : Request) (h : locking id r) :
    tame own r := by
  cases r with
  | refreshObject _ => exact h ▸ hown
  | acquireLock _ => trivial
  | lockHolder _ => trivial
  | deleteLock _ => trivial
  | expiring _ _ => trivial
  | _ => exact h.elim

theorem gated_refreshConnection {id : Nat} (hown : own id) (block : Bool)
    (h : Owned connectionId named own l) :
    Follows (serve endpoint) (gated connectionId named)
      (fun l _ => Owned connectionId named own l) l (refreshConnection settings id block) := by
  refine follows_bind (follows_tame (makes_lockForRefresh (tame_of_locking hown)) h) ?_
    fun _ _ h => h
  rintro l (_ | token) h
  · exact h
  · refine follows_read_bind (fun o _ hid => follows_tame ?_ h) fun _ => h
    have hown' : own o.view.id := hid.symm ▸ hown
    refine Makes.bind (makes_refreshUnderLock (fun _ => trivial) (fun _ => hown')
      fun _ => trivial).attempt fun outcome => ?_
    refine Makes.bind (makes_releaseLock trivial trivial) fun _ => ?_
    rcases outcome with e | _ | bundle
    · trivial
    · trivial
    · exact Makes.bind (makes_applyTokenBundle fun _ => hown) fun _ => trivial

theorem gated_freshAccessToken {id : Nat} (hown : own id)
    (h : Owned connectionId named own l) :
    Follows (serve endpoint) (gated connectionId named)
      (fun l _ => Owned connectionId named own l) l (freshAccessToken settings id) := by
  refine follows_read_bind (fun o _ _ => ?_) fun _ => h
  split
  · exact h
  · refine follows_bind (Q := fun l _ => Owned connectionId named own l) ?_ ?_ fun _ _ h => h
    · refine follows_expiring_bind trivial fun expiring => ?_
      cases expiring with
      | false => exact h
      | true =>
          refine follows_bind (gated_refreshConnection hown true h) ?_ fun _ _ h => h
          exact fun l _ h => follows_tame (makes_commit trivial) h
    · intro l _ h
      exact follows_read_bind (fun o _ _ => follows_ofExcept h) fun _ => h

theorem gated_fresh_bind {α : Type} {id : Nat} (hown : own id) {f : PyStr → ConnectorProc α}
    (hf : ∀ token, Makes (tame own) (f token)) (h : Owned connectionId named own l) :
    Follows (serve endpoint) (gated connectionId named)
      (fun l _ => Owned connectionId named own l) l (freshAccessToken settings id >>= f) :=
  follows_bind (gated_freshAccessToken hown h) (fun _ token h => follows_tame (hf token) h)
    fun _ _ h => h

theorem gated_requestWithFreshToken {id : Nat} (hown : own id) (method path : String)
    (h : Owned connectionId named own l) :
    Follows (serve endpoint) (gated connectionId named)
      (fun l _ => Owned connectionId named own l) l
      (requestWithFreshToken settings id method path) :=
  gated_fresh_bind hown (fun _ => Makes.bind (makes_readObject trivial) fun _ =>
    makes_providerHttpRequest trivial) h

theorem gated_capabilityRequests {connection : Connection} (hown : own connection.id)
    (requests : List (String × String)) (h : Owned connectionId named own l) :
    Follows (serve endpoint) (gated connectionId named)
      (fun l _ => Owned connectionId named own l) l
      (capabilityRequests settings connection requests) := by
  induction requests generalizing l with
  | nil => exact h
  | cons request rest ih =>
      refine follows_bind (Q := fun l _ => Owned connectionId named own l) ?_
        (fun _ _ h => ih h) fun _ _ h => h
      unfold capabilityRequest
      cases connection.provider with
      | google => exact gated_fresh_bind hown (fun _ => makes_callSdk trivial _) h
      | microsoft => exact gated_requestWithFreshToken hown _ _ h

/-- The requests that do not touch the session. -/
def still : Request → Prop
  | .readObject _ => True
  | .revokeRemote .. => True
  | .callApi .. => True
  | .now => True
  | _ => False

theorem serve_still {r : Request} (hr : still r) (w : World π) (c : Choice) :
    (serve endpoint w l r c).2.1 = l := by
  cases r with
  | readObject | revokeRemote | callApi | now => rfl
  | _ => exact hr.elim

theorem follows_still {α : Type} {allowed : Session → Request → Prop} {p : ConnectorProc α}
    (hallowed : ∀ l r, still r → allowed l r) (hp : Makes still p) :
    Follows (serve endpoint) allowed (fun l' _ => l' = l) l p :=
  Makes.follows_of (P := fun l' => l' = l)
    (fun _ r hr hl => ⟨hallowed _ r hr, fun w c => (serve_still hr w c).trans hl⟩) hp rfl

theorem gated_of_still (l : Session) (r : Request) (hr : still r) :
    gated connectionId named l r := by
  cases r with
  | readObject | revokeRemote | callApi | now => trivial
  | _ => exact hr.elim

theorem Owned.addSubscription (h : Owned connectionId named own l) {s : Subscription}
    (hs : s.tenantId = l.tenantId) (hpresent : s.connectionId = connectionId →
      Present connectionId l) :
    Owned connectionId named own (l.add (.addSubscription s)) := by
  refine ⟨⟨h.sober.single, h.sober.met, ?_⟩, h.alive, unswept_add h.unswept rfl⟩
  intro x hx hid
  rcases List.mem_append.mp hx with hold | hnew
  · exact h.sober.adds x hold hid
  · cases List.mem_singleton.mp hnew
    exact ⟨hs, hpresent hid⟩

theorem follows_still_bind {α β : Type} {p : ConnectorProc α} {f : α → ConnectorProc β}
    (hp : Makes still p) (h : Owned connectionId named own l)
    (hf : ∀ a, Follows (serve endpoint) (gated connectionId named)
      (fun l _ => Owned connectionId named own l) l (f a)) :
    Follows (serve endpoint) (gated connectionId named)
      (fun l _ => Owned connectionId named own l) l (p >>= f) := by
  refine follows_bind (follows_still gated_of_still hp) ?_ (by rintro l e rfl; exact h)
  rintro l a rfl
  exact hf a

theorem gated_addSubscription {id : Nat} (hown : own id) (h : Owned connectionId false own l)
    {o : Object} (ho : l.object? id = some o) (capability : String) (externalId : PyStr)
    (expiresAt : Instant) (hash : String) :
    Follows (serve endpoint) (gated connectionId false)
      (fun l _ => Owned connectionId false own l) l
      (ask (.addSubscription id capability externalId expiresAt hash)) := by
  obtain ⟨hmem, hoid⟩ := mem_of_object? ho
  have hpresent (hid : id = connectionId) : Present connectionId l :=
    ⟨o, hmem, hoid.trans hid, h.alive rfl (hid ▸ hown) o hmem (hoid.trans hid)⟩
  exact ⟨hpresent, fun w c => h.addSubscription rfl hpresent⟩

theorem gated_createGoogleChannel {id : Nat} (hown : own id)
    (h : Owned connectionId false own l) :
    Follows (serve endpoint) (gated connectionId false)
      (fun l _ => Owned connectionId false own l) l (createGoogleChannel settings id) := by
  refine follows_request_bind.mpr ⟨trivial, fun w c => ?_⟩
  refine follows_request_bind.mpr ⟨trivial, fun w c => ?_⟩
  refine follows_bind (gated_freshAccessToken hown h) ?_ fun _ _ h => h
  intro l token h
  refine follows_read_bind (fun o ho _ => ?_) fun _ => h
  refine follows_still_bind (makes_providerHttpRequest trivial) h fun response => ?_
  refine follows_still_bind (makes_ofExcept _) h fun payload => ?_
  refine follows_request_bind.mpr ⟨trivial, fun w c => ?_⟩
  refine follows_still_bind (makes_ofExcept _) h fun expiresAt => ?_
  exact gated_addSubscription hown h ho _ _ _ _

theorem gated_createGraphSubscription {id : Nat} (hown : own id) (capability : String)
    (h : Owned connectionId false own l) :
    Follows (serve endpoint) (gated connectionId false)
      (fun l _ => Owned connectionId false own l) l
      (createGraphSubscription settings id capability) := by
  refine follows_request_bind.mpr ⟨trivial, fun w c => ?_⟩
  refine follows_request_bind.mpr ⟨trivial, fun w c => ?_⟩
  refine follows_bind (gated_freshAccessToken hown h) ?_ fun _ _ h => h
  intro l token h
  refine follows_read_bind (fun o ho _ => ?_) fun _ => h
  refine follows_still_bind (makes_providerHttpRequest trivial) h fun response => ?_
  refine follows_still_bind (makes_ofExcept _) h fun payload => ?_
  refine follows_still_bind (makes_ofExcept _) h fun expiresAt => ?_
  exact gated_addSubscription hown h ho _ _ _ _

theorem gated_ensureEach {connection : Connection} (hown : own connection.id)
    (existing capabilities : List String) (h : Owned connectionId false own l) :
    Follows (serve endpoint) (gated connectionId false)
      (fun l _ => Owned connectionId false own l) l
      (ensureEach settings connection existing capabilities) := by
  induction capabilities generalizing l with
  | nil => exact h
  | cons capability rest ih =>
      unfold ensureEach
      split
      · exact ih h
      · split
        · split
          · exact ih h
          · exact follows_bind (gated_createGoogleChannel hown h) (fun _ _ h => ih h)
              fun _ _ h => h
        · exact follows_bind (gated_createGraphSubscription hown capability h)
            (fun _ _ h => ih h) fun _ _ h => h

theorem gated_ensureSubscriptions {id : Nat} (hown : own id)
    (h : Owned connectionId false own l) :
    Follows (serve endpoint) (gated connectionId false)
      (fun l _ => Owned connectionId false own l) l (ensureSubscriptions settings id) := by
  refine follows_read_bind (fun o _ hoid => ?_) fun _ => h
  refine follows_request_bind.mpr ⟨trivial, fun w c => ?_⟩
  exact gated_ensureEach (hoid.symm ▸ hown) _ _ h

theorem gated_renewSubscription {connection : Connection} (hown : own connection.id)
    (subscription : Subscription) (h : Owned connectionId false own l) :
    Follows (serve endpoint) (gated connectionId false)
      (fun l _ => Owned connectionId false own l) l
      (renewSubscription settings connection subscription) := by
  unfold renewSubscription
  cases connection.provider with
  | microsoft =>
      refine follows_request_bind.mpr ⟨trivial, fun w c => ?_⟩
      refine gated_fresh_bind hown (fun _ => ?_) h
      exact Makes.bind (makes_providerHttpRequest trivial) fun _ => ⟨trivial, fun _ => trivial⟩
  | google =>
      refine follows_bind (gated_createGoogleChannel hown h) ?_ fun _ _ h => h
      intro l _ h
      refine follows_bind (Q := fun l _ => Owned connectionId false own l) ?_ ?_ fun _ _ h => h
      · exact follows_attempt_bind (gated_requestWithFreshToken hown _ _ h) fun _ _ h => h
      · exact fun l _ h => follows_tame ⟨trivial, fun _ => trivial⟩ h

theorem gated_renewOnRoute {connection : Connection} (hown : own connection.id)
    (subscription : Subscription) (h : Owned connectionId false own l) :
    Follows (serve endpoint) (gated connectionId false)
      (fun l _ => Owned connectionId false own l) l
      (renewOnRoute settings connection subscription) := by
  refine follows_ask_bind trivial fun w c route _ => ?_
  cases route with
  | none => exact h
  | some route =>
      refine follows_bind (gated_renewSubscription hown subscription h) ?_ fun _ _ h => h
      exact fun l _ h => follows_tame (Makes.bind (makes_assign hown) fun _ => trivial) h

theorem gated_renewLocked {connection : Connection} (hown : own connection.id)
    (subscription : Subscription) (token : Nat) (report : RenewalReport)
    (h : Owned connectionId false own l) :
    Follows (serve endpoint) (gated connectionId false)
      (fun l _ => Owned connectionId false own l) l
      (renewLocked settings connection subscription token report) := by
  refine follows_bind (Q := fun l _ => Owned connectionId false own l) ?_ ?_ fun _ _ h => h
  · refine follows_attempt_bind (gated_renewOnRoute hown subscription h) ?_
    rintro l (e | _ | _) h
    · refine follows_tame (Makes.bind (makes_assign hown) fun _ => ?_) h
      exact ⟨trivial, fun _ => trivial⟩
    · exact h
    · exact h
  · rintro l outcome h
    refine follows_tame (Makes.bind (makes_releaseLock trivial trivial) fun _ => ?_) h
    rcases outcome with _ | _ | _
    · trivial
    · exact Makes.bind (makes_commit trivial) fun _ => trivial
    · exact Makes.bind (makes_commit trivial) fun _ => trivial

/-- Nothing is known of the connections but what the session has met. -/
abbrev Calm (connectionId : Nat) (named : Bool) : Session → Prop :=
  Owned connectionId named fun _ => False

theorem Owned.calm (h : Owned connectionId named own l) : Calm connectionId named l :=
  h.mono fun _ => False.elim

theorem gated_renewOne (subscription : Subscription) (report : RenewalReport)
    (h : Calm connectionId false l) :
    Follows (serve endpoint) (gated connectionId false) (fun l _ => Calm connectionId false l) l
      (renewOne settings subscription report) := by
  refine follows_ask_bind trivial fun w c found _ => ?_
  have h : Calm connectionId false
      (serve endpoint w l (.getConnection subscription.connectionId) c).2.1 :=
    owned_getConnection h subscription.connectionId w c
  cases found with
  | false => exact h
  | true =>
      refine follows_read_bind (fun o ho hoid => ?_) fun _ => h
      split
      · exact h
      · rename_i hactive
        have hactive : o.current.status = .active := not_not.mp hactive
        have howned := h.of_status ho (by rw [hactive]; decide)
        refine follows_ask_bind trivial fun w c token _ => ?_
        cases token with
        | none => exact h
        | some token =>
            have hown : subscription.connectionId = o.view.id := hoid.symm
            refine Follows.mono ?_ (gated_renewLocked hown subscription token report howned)
            exact fun l out h => h.calm

theorem gated_renewEach (subscriptions : List Subscription) (report : RenewalReport)
    (h : Calm connectionId false l) :
    Follows (serve endpoint) (gated connectionId false) (fun _ _ => True) l
      (renewEach settings subscriptions report) := by
  induction subscriptions generalizing l report with
  | nil => trivial
  | cons subscription rest ih =>
      exact follows_bind (gated_renewOne subscription report h) (fun _ report h => ih report h)
        (by simp)

theorem gated_renewTenants (horizon : Instant) (tenants : List Tenant) :
    Follows (serve endpoint) (gated connectionId false) (fun _ _ => True) l
      (renewTenants settings horizon tenants) := by
  induction tenants generalizing l with
  | nil => trivial
  | cons tenant rest ih =>
      refine follows_bind (Q := fun _ _ => True) ?_ ?_ (by simp)
      · refine follows_request_bind.mpr ⟨trivial, fun w c => ?_⟩
        refine follows_request_bind.mpr ⟨trivial, fun w c => ?_⟩
        exact follows_bind (gated_renewEach _ _ (owned_nil rfl rfl))
          (fun _ _ _ => trivial) (by simp)
      · intro l report _
        exact follows_bind ih (fun _ _ _ => trivial) (by simp)

theorem gated_syncInSession (tenantId id : Nat) :
    Follows (serve endpoint) (gated connectionId false) (fun _ _ => True) l
      (syncInSession settings tenantId id) := by
  refine follows_request_bind.mpr ⟨trivial, fun w c => ?_⟩
  have h : Calm connectionId false (serve endpoint w l (.openSession tenantId) c).2.1 :=
    owned_nil rfl rfl
  refine follows_ask_bind trivial fun w c found _ => ?_
  have h : Calm connectionId false (serve endpoint w _ (.getConnection id) c).2.1 :=
    owned_getConnection h id w c
  cases found with
  | false => trivial
  | true =>
      refine follows_read_bind (fun o ho _ => ?_) fun _ => trivial
      split
      · trivial
      · rename_i hactive
        have hactive : o.current.status = .active := not_not.mp hactive
        have howned := h.of_status ho (by rw [hactive]; decide)
        refine Follows.mono (fun _ _ _ => trivial)
          (follows_attempt_bind (R := fun l _ => Owned connectionId false (Eq id) l)
            (gated_ensureSubscriptions rfl howned) ?_)
        rintro l (e | _) h
        · exact follows_tame (Makes.bind (makes_assign rfl) fun _ => makes_commit trivial) h
        · exact follows_tame (makes_commit trivial) h

theorem gated_syncConnectionSubscriptions (slug : String) (id : Nat) :
    Follows (serve endpoint) (gated connectionId false) (fun _ _ => True) l
      (syncConnectionSubscriptions settings slug id) := by
  refine follows_ask_bind trivial fun w c tenants _ => ?_
  split
  · trivial
  · refine follows_ask_bind trivial fun w c route _ => ?_
    cases route with
    | none => trivial
    | some route => exact gated_syncInSession _ _

theorem gated_capabilityCall (tenantId id : Nat) (name : String)
    (requests : List (String × String)) :
    Follows (serve endpoint) (gated connectionId false) (fun _ _ => True) l
      (capabilityCall settings tenantId id name requests) := by
  refine follows_request_bind.mpr ⟨trivial, fun w c => ?_⟩
  have h : Calm connectionId false (serve endpoint w l (.openSession tenantId) c).2.1 :=
    owned_nil rfl rfl
  refine follows_ask_bind trivial fun w c found _ => ?_
  have h : Calm connectionId false (serve endpoint w _ (.getConnection id) c).2.1 :=
    owned_getConnection h id w c
  cases found with
  | false => trivial
  | true =>
      refine follows_bind (Q := fun l out => ∀ connection, out = .ok connection →
        id = connection.id ∧ Owned connectionId false (Eq id) l) ?_ ?_ (by simp)
      · refine follows_read_bind (fun o ho hoid => ?_) (by simp)
        by_cases hactive : o.view.attributes.status = .active
        · have hactive' : o.current.status = .active := hactive
          have howned := h.of_status ho (by rw [hactive']; decide)
          rw [if_neg (not_not.mpr hactive)]
          dsimp only
          split
          · exact fun _ hout => by cases hout
          · split
            · exact fun _ hout => by cases hout
            · rintro _ hout
              cases hout
              exact ⟨hoid.symm, howned⟩
        · rw [if_pos hactive]
          exact fun _ hout => by cases hout
      · intro l connection hcapable
        obtain ⟨hid, howned⟩ := hcapable connection rfl
        exact Follows.mono (fun _ _ _ => trivial) (gated_capabilityRequests hid requests howned)

theorem owned_selectActiveConnections (hl : l.objects = []) (h : Calm connectionId named l)
    (w : World π) (c : Choice) :
    Owned connectionId named (fun _ => True)
      (serve endpoint w l .selectActiveConnections c).2.1 := by
  refine ⟨h.sober.serve (r := .selectActiveConnections) trivial w c, fun _ _ o ho _ => ?_, ?_⟩
  · rcases mem_loadAll ho with hold | ⟨row, hrow, rfl⟩
    · rw [hl] at hold
      cases hold
    · have hactive : row.attributes.status = .active := by
        have := (List.mem_filter.mp hrow).2
        simp only [Bool.and_eq_true, beq_iff_eq] at this
        exact this.2
      show row.attributes.status ≠ .revoked
      rw [hactive]
      decide
  · intro change hchange
    have hpending : change ∈ l.pending := by simpa [serve] using hchange
    exact h.unswept change hpending

theorem gated_refreshEach (lead : Instant) (ids : List Nat) (report : RefreshReport)
    (h : Owned connectionId named (fun _ => True) l) :
    Follows (serve endpoint) (gated connectionId named) (fun _ _ => True) l
      (refreshEach settings lead ids report) := by
  induction ids generalizing l report with
  | nil => trivial
  | cons id rest ih =>
      refine follows_expiring_bind trivial fun expiring => ?_
      cases expiring with
      | false => exact ih report h
      | true =>
          refine follows_bind (Q := fun l _ => Owned connectionId named (fun _ => True) l) ?_ ?_
            (by simp)
          · refine follows_attempt_bind (gated_refreshConnection trivial false h) ?_
            rintro l (e | _ | _) h
            · dsimp only
              split <;> exact h
            · exact h
            · exact h
          · intro l report h
            refine follows_bind (follows_tame (makes_commit trivial) h) ?_ (by simp)
            exact fun l _ h => ih report h

theorem gated_refreshTenants (lead : Instant) (tenants : List Tenant) :
    Follows (serve endpoint) (gated connectionId named) (fun _ _ => True) l
      (refreshTenants settings lead tenants) := by
  induction tenants generalizing l with
  | nil => trivial
  | cons tenant rest ih =>
      refine follows_bind (Q := fun _ _ => True) ?_ ?_ (by simp)
      · refine follows_request_bind.mpr ⟨trivial, fun w c => ?_⟩
        refine follows_request_bind.mpr ⟨trivial, fun w' c' => ?_⟩
        exact follows_bind (gated_refreshEach lead _ _
          (owned_selectActiveConnections rfl (owned_nil rfl rfl) w' c'))
          (fun _ _ _ => trivial) (by simp)
      · intro l report _
        exact follows_bind ih (fun _ _ _ => trivial) (by simp)

theorem owned_load (hl : l.objects = []) (h : Calm connectionId named l) (mark : Nat)
    (row : Connection)
    (halive : named = false → row.id = connectionId → row.attributes.status ≠ .revoked) :
    Owned connectionId named (fun _ => True) (l.load mark row) := by
  refine ⟨h.sober.load mark row, fun hnamed _ o ho hid => ?_, ?_⟩
  · rcases mem_load ho with hold | rfl
    · rw [hl] at hold
      cases hold
    · exact halive hnamed hid
  · unfold Unswept
    rw [load_pending]
    exact h.unswept

theorem owned_of_empty (hl : l.objects = []) (h : Calm connectionId named l) :
    Owned connectionId named (fun _ => True) l := by
  refine ⟨h.sober, fun _ _ o ho => ?_, h.unswept⟩
  rw [hl] at ho
  cases ho

theorem gated_connectionFor (provider : ConnectorProvider) (kind : ConnectionKind)
    (accountLabel : String) (id : Option Nat) (hnamed : id = some connectionId → named = true)
    (hl : l.objects = []) (h : Calm connectionId named l) :
    Follows (serve endpoint) (gated connectionId named)
      (fun l out => Owned connectionId named (fun _ => True) l ∧
        (out = .ok none → l.objects = []))
      l (connectionFor provider kind accountLabel id) := by
  have hfind : Follows (serve endpoint) (gated connectionId named)
      (fun l out => Owned connectionId named (fun _ => True) l ∧
        (out = .ok none → l.objects = []))
      l (ask (.findConnection provider kind accountLabel)) := by
    refine ⟨trivial, fun w c => ?_⟩
    simp only [serve]
    split
    · rename_i row hrow
      refine ⟨owned_load hl h _ _ fun _ _ => ?_, by intro hout; cases hout⟩
      have hfound := List.find?_some hrow
      simp only [Bool.and_eq_true, bne_iff_ne] at hfound
      exact hfound.2
    · exact ⟨owned_of_empty hl h, fun _ => hl⟩
  cases id with
  | none => exact hfind
  | some id =>
      refine follows_request_bind.mpr ⟨trivial, fun w c => ?_⟩
      have hnone : l.object? id = none := by simp [Session.object?, hl]
      simp only [serve, hnone]
      split
      · rename_i row hrow
        refine ⟨owned_load hl h _ _ fun hfalse hid => ?_, by intro hout; cases hout⟩
        have hfound := List.find?_some hrow
        simp only [Bool.and_eq_true, beq_iff_eq] at hfound
        rw [hnamed (by rw [← hfound.1, hid])] at hfalse
        cases hfalse
      · exact hfind

theorem gated_upsertConnection (provider : ConnectorProvider) (kind : ConnectionKind)
    (userId : Option Nat) (accountLabel : String) (scopes : List PyStr) (bundle : TokenBundle)
    (id : Option Nat) (hnamed : id = some connectionId → named = true) (hl : l.objects = [])
    (h : Calm connectionId named l) :
    Follows (serve endpoint) (gated connectionId named)
      (fun l _ => Owned connectionId named (fun _ => True) l) l
      (upsertConnection settings provider kind userId accountLabel scopes bundle id) := by
  refine follows_bind (Q := fun l _ => Owned connectionId named (fun _ => True) l) ?_ ?_
    fun _ _ h => h
  · refine follows_bind (gated_connectionFor provider kind accountLabel id hnamed hl h) ?_
      fun _ _ h => h.1
    rintro l (_ | found) ⟨howned, hempty⟩
    · have hl := hempty rfl
      dsimp only
      split
      · exact howned
      · have hnew : gated connectionId named l
            (.addConnection provider kind userId accountLabel scopes) := by
          intro o ho
          rw [hl] at ho
          cases ho
        refine ⟨hnew, fun w c => ⟨howned.sober.serve hnew w c, fun _ _ o ho _ => ?_,
          howned.unswept⟩⟩
        rcases List.mem_cons.mp ho with rfl | hold
        · exact fun hrevoked => by cases hrevoked
        · rw [hl] at hold
          cases hold
    · exact follows_tame (Makes.bind (makes_assign trivial) fun _ => trivial) howned
  · intro l target howned
    refine follows_tame ?_ howned
    refine Makes.bind (makes_applyTokenBundle fun _ => trivial) fun _ => ?_
    refine Makes.bind (makes_readObject trivial) fun connection => ?_
    dsimp only
    split <;> trivial

theorem gated_connectInSession (provider : ConnectorProvider) (state : OAuthState)
    (tenantId : Nat) (bundle : TokenBundle) (accountLabel : PyStr) (scopes : List PyStr)
    (hnamed : state.connectionId = some connectionId → named = true) :
    Follows (serve endpoint) (gated connectionId named)
      (fun l _ => Owned connectionId named (fun _ => True) l) l
      (connectInSession settings provider state tenantId bundle accountLabel scopes) := by
  refine follows_request_bind.mpr ⟨trivial, fun w c => ?_⟩
  cases labelText accountLabel with
  | error e => exact owned_nil rfl rfl
  | ok label =>
      simp only [Proc.ofExcept, Proc.ret_bind]
      refine follows_bind (Q := fun l _ => Owned connectionId named (fun _ => True) l) ?_ ?_
        fun _ _ h => h
      · refine follows_attempt_bind (gated_upsertConnection provider _ _ label scopes bundle _
          hnamed rfl (owned_nil rfl rfl)) ?_
        rintro l (e | _) h
        · exact h
        · exact h
      · intro l target h
        refine follows_tame (makes_request_bind.mpr ⟨trivial, fun _ => ?_⟩) h
        exact Makes.bind (makes_commit trivial) fun _ => trivial

theorem gated_connectorOauthCallback (provider : ConnectorProvider) (state : Option OAuthState)
    (code error : Option String)
    (hnamed : (∃ s, state = some s ∧ s.connectionId = some connectionId) → named = true)
    (h : Calm connectionId named l) :
    Follows (serve endpoint) (gated connectionId named) (fun _ _ => True) l
      (connectorOauthCallback settings provider state code error) := by
  unfold connectorOauthCallback
  cases state with
  | none => trivial
  | some state =>
      cases code with
      | none => trivial
      | some code =>
          dsimp only
          split
          · trivial
          refine follows_ask_bind trivial fun w c tenant _ => ?_
          cases tenant with
          | none => trivial
          | some tenant =>
              dsimp only
              split
              · trivial
              have hexchange : Makes (tame fun _ => False) (rethrow oauthFailure
                  (exchangeAndLabel settings tenant.id provider code)) := by
                refine Makes.bind (Makes.attempt ?_) fun outcome => ?_
                · refine Makes.bind (Makes.bind (makes_ofExcept _) fun _ => ?_) fun bundle => ?_
                  · exact makes_request_bind.mpr ⟨trivial, fun _ => makes_ofExcept _⟩
                  · refine Makes.bind ?_ fun _ => trivial
                    exact makes_request_bind.mpr ⟨trivial, fun _ => makes_ofExcept _⟩
                · cases outcome <;> trivial
              refine follows_bind (follows_tame hexchange h) ?_ (by simp)
              rintro l ⟨bundle, label⟩ -
              dsimp only
              cases grantedScopes provider state.capabilities bundle with
              | error e => trivial
              | ok scopes =>
                  simp only [Proc.ofExcept, Proc.ret_bind]
                  refine follows_bind (gated_connectInSession provider state tenant.id bundle
                    label scopes fun hid => hnamed ⟨state, rfl, hid⟩) ?_ (by simp)
                  intro l target h
                  refine Follows.mono (fun _ _ _ => trivial) (follows_tame ?_ h)
                  refine Makes.bind ?_ fun _ => ?_
                  · refine makes_request_bind.mpr ⟨trivial, fun route => ?_⟩
                    cases route with
                    | none => exact ⟨trivial, fun _ => ⟨trivial, fun _ => trivial⟩⟩
                    | some _ => trivial
                  · refine Makes.bind ?_ fun _ => ⟨trivial, fun _ => trivial⟩
                    exact makes_request_bind.mpr ⟨trivial, fun _ => makes_ofExcept _⟩

/-- The requests that no gate stops. -/
def free : Request → Prop
  | .assign .. => False
  | .refreshObject _ => False
  | .addSubscription .. => False
  | .addConnection .. => False
  | .deleteSubscriptionsOf _ => False
  | _ => True

theorem follows_free {α : Type} {p : ConnectorProc α} (hp : Makes free p) :
    Follows (serve endpoint) (gated connectionId named) (fun _ _ => True) l p := by
  refine Makes.follows_of (P := fun _ => True) (fun l r hr _ => ⟨?_, fun _ _ => trivial⟩) hp trivial
  cases r with
  | assign | refreshObject | addSubscription | addConnection | deleteSubscriptionsOf =>
      exact hr.elim
  | _ => trivial

/-- The session of a revocation loads no other connection. -/
def OnlyOf (id : Nat) (l : Session) : Prop :=
  ∀ o ∈ l.objects, o.row.id = id

theorem onlyOf_getConnection (hl : l.objects = []) (id : Nat) (w : World π) (c : Choice) :
    OnlyOf id (serve endpoint w l (.getConnection id) c).2.1 := by
  have hnone : l.object? id = none := by simp [Session.object?, hl]
  simp only [serve, hnone]
  intro o ho
  split at ho
  · rename_i row hrow
    have hfound := List.find?_some hrow
    simp only [Bool.and_eq_true, beq_iff_eq] at hfound
    rcases mem_load ho with hold | rfl
    · rw [hl] at hold
      cases hold
    · exact hfound.1
  · rw [hl] at ho
    cases ho

theorem makes_revokeConnection (id : Nat) :
    Makes (tame (Eq id)) (revokeConnection settings id) := by
  refine Makes.bind (makes_readObject trivial) fun connection => ?_
  dsimp only
  split
  · refine Makes.bind (Makes.attempt ?_) fun _ => makes_assign rfl
    refine Makes.bind (makes_ofExcept _) fun _ => ?_
    exact makes_request_bind.mpr ⟨trivial, fun _ => trivial⟩
  · exact makes_assign rfl

theorem gated_revokeConnection {id : Nat} (h : Owned connectionId named (Eq id) l)
    (honly : OnlyOf id l) :
    Follows (serve endpoint) (gated connectionId named) (fun l _ => OnlyOf id l) l
      (revokeConnection settings id) := by
  refine Follows.mono (fun _ _ h => h.2) (Makes.follows_of
    (P := fun l => Owned connectionId named (Eq id) l ∧ OnlyOf id l) ?_
    (makes_revokeConnection id) ⟨h, honly⟩)
  rintro l r hr ⟨h, honly⟩
  obtain ⟨hgated, hserve⟩ := tame_serve l r hr h
  refine ⟨hgated, fun w c => ⟨hserve w c, fun o ho => ?_⟩⟩
  obtain ⟨old, hold, hid, -⟩ := tame_objects hr w c ho
  exact hid.symm.trans (honly old hold)

theorem gated_connectorRevoke (tenantId : Nat) (actor : User) (id : Nat) :
    Follows (serve endpoint) (gated connectionId false) (fun _ _ => True) l
      (connectorRevoke settings tenantId actor id) := by
  refine follows_request_bind.mpr ⟨trivial, fun w c => ?_⟩
  have h : Calm connectionId false (serve endpoint w l (.openSession tenantId) c).2.1 :=
    owned_nil rfl rfl
  refine follows_ask_bind trivial fun w' c' found _ => ?_
  have hown : Calm connectionId false (serve endpoint w' _ (.getConnection id) c').2.1 :=
    owned_getConnection h id w' c'
  have honly : OnlyOf id (serve endpoint w' (serve endpoint w l (.openSession tenantId) c).2.1
      (.getConnection id) c').2.1 := onlyOf_getConnection rfl id w' c'
  cases found with
  | false => trivial
  | true =>
      refine follows_read_bind (fun o ho _ => ?_) fun _ => trivial
      split
      · trivial
      · rename_i halive
        have howned := hown.of_status ho halive
        refine follows_bind (gated_revokeConnection howned honly) ?_ (by simp)
        intro l _ honly
        refine follows_request_bind.mpr ⟨?_, fun w c => ?_⟩
        · -- the session may only have revoked the connection whose subscriptions it deletes
          exact fun o ho hid _ => (honly o ho).symm.trans hid
        · refine follows_free (makes_request_bind.mpr ⟨trivial, fun _ => ?_⟩)
          refine Makes.bind (makes_request_bind.mpr ⟨trivial, fun _ => makes_ofExcept _⟩) fun _ => ?_
          refine makes_request_bind.mpr ⟨trivial, fun _ => ?_⟩
          exact makes_request_bind.mpr ⟨trivial, fun _ => makes_ofExcept _⟩

end Operations

end Socle.RevocationGates
