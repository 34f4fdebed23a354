import Socle.FreshTokens

/-!
What becomes of a connection whose refresh token the provider has refused, over beats and
capability calls that run one at a time.
-/

namespace Socle.ConsentLoss

open Socle.Procedures
open Socle.DirectoryStore (Tenant AuditEvent User)
open Socle.TokenExchange
open Socle.ConnectorStore
open Socle.ConnectorService
open Socle.ConnectorTransactions
open Socle.FreshTokens (SameKeys readAnswer_invalidGrant_iff)
open Socle.RefreshLedger (invalidGrantAnswer)

/-! ### Runs -/

/-- The two beats, and a call of a capability by a module. -/
inductive Operation where
  | refreshExpiringTokens
  | renewExpiringSubscriptions
  | capabilityCall (tenantId connectionId : Nat) (name : String)
      (requests : List (String × String))

def Operation.proc (settings : Settings) : Operation → ConnectorProc Unit
  | .refreshExpiringTokens => do
      let _ ← ConnectorService.refreshExpiringTokens settings
  | .renewExpiringSubscriptions => do
      let _ ← ConnectorService.renewExpiringSubscriptions settings
  | .capabilityCall tenantId connectionId name requests =>
      ConnectorService.capabilityCall settings tenantId connectionId name requests

/-- An operation, and what its environment answers. -/
abbrev Turn := Operation × (Nat → Choice)

def perform (settings : Settings) (w : World Unit) (turn : Turn) : World Unit :=
  (eval (serve anyAnswer) (turn.1.proc settings) w {} turn.2).1

/-- The operations run one after the other, each in a session of its own. -/
def performAll (settings : Settings) : World Unit → List Turn → World Unit
  | w, [] => w
  | w, turn :: rest => performAll settings (perform settings w turn) rest

/-- The connection waits for a new consent, and an event that tells so was added to those
of `before`. -/
def Reported (connectionId : Nat) (before : List AuditEvent) (t : Tables) : Prop :=
  (∃ row ∈ t.connections, row.id = connectionId) ∧
    (∀ row ∈ t.connections, row.id = connectionId → row.attributes.status = .needsReconsent) ∧
    ∃ new, t.directory.auditEvents = before ++ new ∧
      ∃ e ∈ new, e.action = "connector.reconsent_required" ∧ e.resourceId = connectionId

/-- A new consent may be asked for: `connector_reconsent` does not answer 409. -/
def Reconsentable (settings : Settings) (connectionId : Nat) (w : World Unit) : Prop :=
  ∀ tenantId slug returnHost actor l choices, ∀ message,
    (eval (serve anyAnswer)
      (connectorReconsent settings tenantId slug returnHost actor connectionId) w l
      choices).2.2 ≠ .error (.http 409 message)

/-! ### The condition -/

def assigned? : Request → Option (Nat × (Stamp → Attributes → Except Failure Attributes))
  | .assign connectionId value => some (connectionId, value)
  | _ => none

def addsSubscription : Request → Bool
  | .addSubscription .. => true
  | _ => false

def added? : Change → Option Subscription
  | .addSubscription s => some s
  | _ => none

/-- No subscription has this primary key yet. -/
def FreshId (w : World Unit) (l : Session) (id : Nat) : Prop :=
  (∀ s ∈ w.tables.subscriptions, s.id ≠ id) ∧ ∀ s ∈ l.pending.filterMap added?, s.id ≠ id

/-- The handler of a failed renewal, which writes ERROR, is not entered with a connection
that waits for a new consent; primary keys are not drawn twice. -/
def KeepsMark (w : World Unit) (l : Session) (r : Request) (c : Choice) : Prop :=
  (∀ x ∈ assigned? r, ∀ o ∈ l.object? x.1, o.current.status = .needsReconsent →
      ∀ a ∈ (x.2 ⟨c.now, c.nonce⟩ o.current).toOption, a.status ≠ .error) ∧
    (addsSubscription r = true → FreshId w l c.uuid)

instance decidableFreshId (w : World Unit) (l : Session) (id : Nat) :
    Decidable (FreshId w l id) :=
  inferInstanceAs (Decidable (_ ∧ _))

instance decidableKeepsMark (w : World Unit) (l : Session) (r : Request) (c : Choice) :
    Decidable (KeepsMark w l r c) :=
  inferInstanceAs (Decidable (_ ∧ _))

def AllKeepMark (settings : Settings) : World Unit → List Turn → Prop
  | _, [] => True
  | w, turn :: rest =>
      EvalMeets (serve anyAnswer) KeepsMark (turn.1.proc settings) w {} turn.2 ∧
        AllKeepMark settings (perform settings w turn) rest

instance decidableAllKeepMark (settings : Settings) (w : World Unit) :
    (turns : List Turn) → Decidable (AllKeepMark settings w turns)
  | [] => isTrue trivial
  | turn :: rest =>
      have := decidableAllKeepMark settings (perform settings w turn) rest
      inferInstanceAs (Decidable (_ ∧ _))

theorem writeObject_eq {t : Tables} {o : Object} (hnew : o.isNew = false)
    (hhas : t.hasConnection o.row.id = true) :
    t.writeObject o = .ok { t with connections := t.connections.map fun c =>
      { c with attributes := writes c.id [o] c.attributes } } := by
  rw [Tables.writeObject, if_neg (by rw [hnew]; exact Bool.false_ne_true)]
  by_cases hsame : o.current = o.row.attributes
  · rw [if_pos hsame]
    have hid : (t.connections.map fun c =>
        { c with attributes := writes c.id [o] c.attributes }) = t.connections := by
      rw [List.map_congr_left fun c _ => ?_, List.map_id]
      simp [writes, hsame]
    rw [hid]
  · rw [if_neg hsame, if_pos hhas]
    congr 2
    refine List.map_congr_left fun c _ => ?_
    by_cases hown : c.id = o.row.id
    · simp [writes, hown]
    · simp [writes, hown, Ne.symm hown]

theorem writeObjects_eq {t : Tables} {objects : List Object}
    (hstored : ∀ o ∈ objects, o.isNew = false ∧ t.hasConnection o.row.id = true) :
    t.writeObjects objects = .ok { t with connections := t.connections.map fun c =>
      { c with attributes := writes c.id objects c.attributes } } := by
  induction objects generalizing t with
  | nil => simp [Tables.writeObjects, writes]
  | cons o rest ih =>
      obtain ⟨hnew, hhas⟩ := hstored o List.mem_cons_self
      have hwrite := writeObject_eq hnew hhas
      rw [Tables.writeObjects, hwrite]
      dsimp only
      rw [ih fun x hx => ⟨(hstored x (List.mem_cons_of_mem _ hx)).1,
        hasConnection_writeObject hwrite (hstored x (List.mem_cons_of_mem _ hx)).2⟩]
      simp only [List.map_map]
      rfl

theorem writes_current {l : Session} {o : Object} (hsingle : oneObject o.row.id l)
    (ho : o ∈ l.objects) : writes o.row.id l.objects o.row.attributes = o.current := by
  have hcolumn {β : Type} [DecidableEq β] (f : Attributes → β)
      (hf : ∀ loaded current row,
        f (Attributes.write loaded current row) = column (f loaded) (f current) (f row)) :
      f (writes o.row.id l.objects o.row.attributes) = f o.current := by
    rw [writes_column_of_oneObject hf hsingle ho rfl, column_loaded]
  have hlabel := hcolumn (·.accountLabel) fun _ _ _ => rfl
  have hscopes := hcolumn (·.scopes) fun _ _ _ => rfl
  have haccess := hcolumn (·.accessTokenEnc) fun _ _ _ => rfl
  have hrefresh := hcolumn (·.refreshTokenEnc) fun _ _ _ => rfl
  have hexpires := hcolumn (·.accessTokenExpiresAt) fun _ _ _ => rfl
  have hstatus := hcolumn (·.status) fun _ _ _ => rfl
  have herror := hcolumn (·.lastError) fun _ _ _ => rfl
  have hchecked := hcolumn (·.healthCheckedAt) fun _ _ _ => rfl
  cases hwritten : writes o.row.id l.objects o.row.attributes
  cases hcurrent : o.current
  simp_all

section Sessions

variable {id : Nat} {before : List AuditEvent} {w w' : World Unit} {l l' : Session}

/-- The session holds rows as they are committed, and knows when the provider has refused
the refresh token of the connection. -/
structure Tracked (id : Nat) (before : List AuditEvent) (w : World Unit) (l : Session) :
    Prop where
  keys : (w.tables.connections.map (·.id)).Nodup
  grown : ∃ new, w.tables.directory.auditEvents = before ++ new
  stored : ∀ o ∈ l.objects, o.isNew = false ∧ o.row ∈ w.tables.connections
  single : ∀ connectionId, oneObject connectionId l
  marked : .refused id ∈ w.history → ∀ o ∈ l.objects, o.row.id = id →
    o.current.status = .needsReconsent

/-- A refusal is committed. -/
structure Held (id : Nat) (before : List AuditEvent) (w : World Unit) (l : Session) : Prop
    extends Tracked id before w l where
  told : .refused id ∈ w.history → Reported id before w.tables

/-- The pending changes of the session can be committed. -/
def Appliable (w : World Unit) (l : Session) : Prop := ∃ t, w.tables.applyAll l.pending = .ok t

/-- A refusal is committed, or the session is about to commit it. -/
structure Telling (id : Nat) (before : List AuditEvent) (w : World Unit) (l : Session) : Prop
    extends Tracked id before w l where
  telling : .refused id ∈ w.history → Reported id before w.tables ∨
    (∃ o ∈ l.objects, o.row.id = id) ∧ ∃ e, .addAuditEvent e ∈ l.pending ∧
      e.action = "connector.reconsent_required" ∧ e.resourceId = id
  sends : Appliable w l

theorem Held.telling (h : Held id before w l) (hsends : Appliable w l) :
    Telling id before w l where
  toTracked := h.toTracked
  telling := fun hrefused => .inl (h.told hrefused)
  sends := hsends

/-- The tables, the objects and the pending changes stay as they are, and no refusal is
added. -/
structure Resting (id : Nat) (w : World Unit) (l : Session) (w' : World Unit) (l' : Session) :
    Prop where
  tables : w'.tables = w.tables
  objects : l'.objects = l.objects
  pending : l'.pending = l.pending
  refused : .refused id ∈ w'.history → .refused id ∈ w.history

theorem Resting.refl (w : World Unit) (l : Session) : Resting id w l w l :=
  ⟨rfl, rfl, rfl, fun h => h⟩

theorem Resting.trans {w₂ : World Unit} {l₂ : Session} (h : Resting id w l w' l')
    (h' : Resting id w' l' w₂ l₂) : Resting id w l w₂ l₂ :=
  ⟨h'.tables.trans h.tables, h'.objects.trans h.objects, h'.pending.trans h.pending,
    fun hrefused => h.refused (h'.refused hrefused)⟩

theorem Tracked.rest (h : Tracked id before w l) (hrest : Resting id w l w' l') :
    Tracked id before w' l' where
  keys := hrest.tables ▸ h.keys
  grown := hrest.tables ▸ h.grown
  stored := by
    rw [hrest.tables, hrest.objects]
    exact h.stored
  single := by
    intro connectionId
    unfold oneObject
    rw [hrest.objects]
    exact h.single connectionId
  marked := by
    rw [hrest.objects]
    exact fun hrefused => h.marked (hrest.refused hrefused)

theorem Held.rest (h : Held id before w l) (hrest : Resting id w l w' l') :
    Held id before w' l' where
  toTracked := h.toTracked.rest hrest
  told := by
    rw [hrest.tables]
    exact fun hrefused => h.told (hrest.refused hrefused)

theorem Appliable.rest (h : Appliable w l) (hrest : Resting id w l w' l') : Appliable w' l' := by
  unfold Appliable
  rw [hrest.tables, hrest.pending]
  exact h

theorem Telling.rest (h : Telling id before w l) (hrest : Resting id w l w' l') :
    Telling id before w' l' where
  toTracked := h.toTracked.rest hrest
  telling := by
    rw [hrest.tables, hrest.objects, hrest.pending]
    exact fun hrefused => h.telling (hrest.refused hrefused)
  sends := h.sends.rest hrest

theorem Held.opened (h : Held id before w l) (hobjects : l'.objects = []) :
    Held id before w l' where
  keys := h.keys
  grown := h.grown
  stored := by
    intro o ho
    rw [hobjects] at ho
    cases ho
  single := by
    intro connectionId o ho
    rw [hobjects] at ho
    cases ho
  marked := by
    intro _ o ho
    rw [hobjects] at ho
    cases ho
  told := h.told

theorem appliable_of_nil (h : l.pending = []) : Appliable w l :=
  ⟨w.tables, by rw [h]; rfl⟩

theorem Held.load (h : Held id before w l) (mark : Nat) {row : Connection}
    (hrow : row ∈ w.tables.connections) : Held id before w (l.load mark row) where
  keys := h.keys
  grown := h.grown
  stored := by
    intro o ho
    rcases mem_load ho with hold | rfl
    · exact h.stored o hold
    · exact ⟨rfl, hrow⟩
  single := fun connectionId => oneObject_load mark row (h.single connectionId)
  marked := by
    intro hrefused o ho hid
    rcases mem_load ho with hold | rfl
    · exact h.marked hrefused o hold hid
    · exact (h.told hrefused).2.1 row hrow hid
  told := h.told

theorem Held.loadAll (h : Held id before w l) (mark : Nat) {rows : List Connection}
    (hrows : ∀ row ∈ rows, row ∈ w.tables.connections) :
    Held id before w (Session.loadAll mark l rows) := by
  induction rows generalizing l with
  | nil => exact h
  | cons row rest ih =>
      exact ih (h.load mark (hrows row List.mem_cons_self))
        fun row hrow => hrows row (List.mem_cons_of_mem _ hrow)

theorem Tracked.update (h : Tracked id before w l) {connectionId : Nat} {a : Attributes}
    (hmark : .refused id ∈ w.history → connectionId = id → a.status = .needsReconsent) :
    Tracked id before w (l.update connectionId fun o => { o with current := a }) where
  keys := h.keys
  grown := h.grown
  stored := by
    intro o ho
    obtain ⟨old, hold, ⟨-, rfl⟩ | ⟨-, rfl⟩⟩ := mem_update ho
    · exact h.stored old hold
    · exact h.stored o hold
  single := fun id => oneObject_update (fun _ => rfl) (h.single id)
  marked := by
    intro hrefused o ho hid
    obtain ⟨old, hold, ⟨hown, rfl⟩ | ⟨-, rfl⟩⟩ := mem_update ho
    · exact hmark hrefused (hown.symm.trans hid)
    · exact h.marked hrefused o hold hid

theorem Held.update (h : Held id before w l) {connectionId : Nat} {a : Attributes}
    (hmark : .refused id ∈ w.history → connectionId = id → a.status = .needsReconsent) :
    Held id before w (l.update connectionId fun o => { o with current := a }) where
  toTracked := h.toTracked.update hmark
  told := h.told

theorem refused_append_trace (history : List Event) (objects : List Object) :
    .refused id ∈ history ++ objects.flatMap Object.trace ↔ .refused id ∈ history := by
  refine ⟨fun h => ?_, fun h => List.mem_append_left _ h⟩
  rcases List.mem_append.mp h with hold | hnew
  · exact hold
  · obtain ⟨o, -, ho⟩ := List.mem_flatMap.mp hnew
    rcases List.mem_append.mp ho with hsettled | hrevoked
    · split at hsettled
      · cases hsettled
      · cases List.mem_singleton.mp hsettled
    · split at hrevoked
      · cases List.mem_singleton.mp hrevoked
      · cases hrevoked

theorem Tracked.commit_ok (h : Tracked id before w l) {t : Tables}
    (hcommit : w.tables.commit l.objects l.pending = .ok t) :
    t.connections = (w.tables.connections.map fun c =>
      { c with attributes := writes c.id l.objects c.attributes }) ∧
    ∃ new, t.directory.auditEvents = w.tables.directory.auditEvents ++ new ∧
      ∀ e, .addAuditEvent e ∈ l.pending ↔ e ∈ new := by
  refine ⟨?_, connectorEvents_commit hcommit⟩
  obtain ⟨u, hwrite, happly⟩ := commit_eq_ok hcommit
  rw [writeObjects_eq fun o ho => ⟨(h.stored o ho).1,
    List.any_eq_true.mpr ⟨o.row, (h.stored o ho).2, by simp⟩⟩] at hwrite
  cases hwrite
  exact connections_applyAll happly

theorem Telling.commits (h : Telling id before w l) :
    ∃ t, w.tables.commit l.objects l.pending = .ok t := by
  obtain ⟨t, happly⟩ := h.sends
  have hwrite := writeObjects_eq fun o ho => ⟨(h.stored o ho).1,
    List.any_eq_true.mpr ⟨o.row, (h.stored o ho).2, by simp⟩⟩
  have hkeys : SameKeys w.tables { w.tables with connections := w.tables.connections.map fun c =>
      { c with attributes := writes c.id l.objects c.attributes } } :=
    ⟨by simp [List.map_map, Function.comp_def], rfl, rfl⟩
  have halike := hkeys.applyAll l.pending [] nofun
  rw [happly, List.append_nil] at halike
  rw [Tables.commit, hwrite]
  dsimp only
  cases hresult : Tables.applyAll { w.tables with connections := w.tables.connections.map fun c =>
      { c with attributes := writes c.id l.objects c.attributes } } l.pending with
  | ok t' => exact ⟨t', rfl⟩
  | error e =>
      rw [hresult] at halike
      exact halike.elim

theorem Tracked.commit (h : Tracked id before w l)
    (htelling : .refused id ∈ w.history → Reported id before w.tables ∨
      (∃ o ∈ l.objects, o.row.id = id) ∧ ∃ e, .addAuditEvent e ∈ l.pending ∧
        e.action = "connector.reconsent_required" ∧ e.resourceId = id)
    {t : Tables} (hcommit : w.tables.commit l.objects l.pending = .ok t) :
    Held id before
      { w with tables := t, history := w.history ++ l.objects.flatMap Object.trace }
      { l with objects := l.objects.map Object.saved, pending := [], issued := [] } := by
  obtain ⟨hrows, new, hnew, hpending⟩ := h.commit_ok hcommit
  obtain ⟨old, hold⟩ := h.grown
  have hevents : t.directory.auditEvents = before ++ (old ++ new) := by
    rw [hnew, hold, List.append_assoc]
  have himage {row : Connection} (hrow : row ∈ w.tables.connections) :
      { row with attributes := writes row.id l.objects row.attributes } ∈ t.connections :=
    hrows ▸ List.mem_map_of_mem hrow
  refine { keys := ?_, grown := ⟨_, hevents⟩, stored := ?_, single := ?_, marked := ?_, told := ?_ }
  · show (t.connections.map (·.id)).Nodup
    rw [hrows, List.map_map]
    exact h.keys
  · intro o' ho'
    obtain ⟨o, ho, rfl⟩ := List.mem_map.mp ho'
    have hwritten := himage (h.stored o ho).2
    rw [writes_current (h.single o.row.id) ho] at hwritten
    exact ⟨rfl, hwritten⟩
  · exact fun connectionId => oneObject_map (f := Object.saved) (fun _ => rfl)
      (h.single connectionId) rfl
  · intro hrefused o' ho' hid
    obtain ⟨o, ho, rfl⟩ := List.mem_map.mp ho'
    exact h.marked ((refused_append_trace _ _).mp hrefused) o ho hid
  · intro hrefused
    have hrefused := (refused_append_trace _ _).mp hrefused
    refine ⟨?_, ?_, old ++ new, hevents, ?_⟩
    · rcases htelling hrefused with ⟨⟨row, hrow, hid⟩, -⟩ | ⟨⟨o, ho, hid⟩, -⟩
      · exact ⟨_, himage hrow, hid⟩
      · exact ⟨_, himage (h.stored o ho).2, hid⟩
    · intro row' hrow' hid
      rw [show t.connections = _ from hrows] at hrow'
      obtain ⟨row, hrow, rfl⟩ := List.mem_map.mp hrow'
      rcases writes_column (f := (·.status)) (fun _ _ _ => rfl) row.id l.objects row.attributes with
        ⟨hkept, hsame⟩ | ⟨o, ho, hoid, -, hvalue⟩
      · refine hkept.trans ?_
        rcases htelling hrefused with ⟨-, hstatus, -⟩ | ⟨⟨o, ho, hoid⟩, -⟩
        · exact hstatus row hrow hid
        · have hown : o.row = row :=
            List.inj_on_of_nodup_map h.keys (h.stored o ho).2 hrow (hoid.trans hid.symm)
          have hstatus := hsame o ho (congrArg (·.id) hown)
          rw [← hown, ← hstatus]
          exact h.marked hrefused o ho hoid
      · exact hvalue.trans (h.marked hrefused o ho (hoid.trans hid))
    · rcases htelling hrefused with ⟨-, -, events, hreported, e, he, hreport⟩ | ⟨-, e, he, hreport⟩
      · have hsame : events = old := List.append_cancel_left (hreported.symm.trans hold)
        exact ⟨e, List.mem_append_left _ (hsame ▸ he), hreport⟩
      · exact ⟨e, List.mem_append_right _ ((hpending e).mp he), hreport⟩

theorem reload_stored (h : Tracked id before w l) {o : Object} (ho : o ∈ l.objects) (mark : Nat)
    {row : Connection} (hrow : w.tables.connection? o.row.id = some row) :
    o.reload mark row = { o with readMark := mark } := by
  have hid : row.id = o.row.id := by simpa using List.find?_some hrow
  obtain rfl : row = o.row :=
    List.inj_on_of_nodup_map h.keys (List.mem_of_find?_eq_some hrow) (h.stored o ho).2 hid
  rw [Object.reload, Attributes.write_loaded]

theorem Held.reload (h : Held id before w l) (mark : Nat) {connectionId : Nat} {row : Connection}
    (hrow : w.tables.connection? connectionId = some row) :
    Held id before w (l.update connectionId fun o => o.reload mark row) := by
  have hmem {o' : Object} (ho' : o' ∈ (l.update connectionId fun o => o.reload mark row).objects) :
      ∃ o ∈ l.objects, o' = if o.row.id = connectionId then { o with readMark := mark } else o := by
    obtain ⟨o, ho, ⟨hid, rfl⟩ | ⟨hid, rfl⟩⟩ := mem_update ho'
    · refine ⟨o, ho, ?_⟩
      rw [if_pos hid]
      exact reload_stored h.toTracked ho mark (hid ▸ hrow)
    · exact ⟨o', ho, (if_neg hid).symm⟩
  have hsame (o : Object) :
      (if o.row.id = connectionId then { o with readMark := mark } else o).row = o.row ∧
        (if o.row.id = connectionId then { o with readMark := mark } else o).isNew = o.isNew ∧
        (if o.row.id = connectionId then { o with readMark := mark } else o).current =
          o.current := by
    split
    · exact ⟨rfl, rfl, rfl⟩
    · exact ⟨rfl, rfl, rfl⟩
  refine ⟨⟨h.keys, h.grown, ?_, ?_, ?_⟩, h.told⟩
  · intro o' ho'
    obtain ⟨o, ho, rfl⟩ := hmem ho'
    rw [(hsame o).1, (hsame o).2.1]
    exact h.stored o ho
  · intro key o₁ ho₁ o₂ ho₂ hid₁ hid₂
    obtain ⟨old₁, hold₁, rfl⟩ := hmem ho₁
    obtain ⟨old₂, hold₂, rfl⟩ := hmem ho₂
    rw [(hsame _).1] at hid₁ hid₂
    rw [h.single key old₁ hold₁ old₂ hold₂ hid₁ hid₂]
  · intro hrefused o' ho' hid
    obtain ⟨o, ho, rfl⟩ := hmem ho'
    rw [(hsame o).1] at hid
    rw [(hsame o).2.2]
    exact h.marked hrefused o ho hid

theorem applyAll_append (t : Tables) (changes rest : List Change) :
    t.applyAll (changes ++ rest) = (t.applyAll changes).bind (·.applyAll rest) := by
  induction changes generalizing t with
  | nil => rfl
  | cons change changes ih =>
      rw [List.cons_append, Tables.applyAll, Tables.applyAll]
      cases t.apply change with
      | ok t' => exact ih t'
      | error e => rfl

theorem Appliable.add (h : Appliable w l) {change : Change}
    (hchange : ∀ t, w.tables.applyAll l.pending = .ok t → ∃ t', t.apply change = .ok t') :
    Appliable w (l.add change) := by
  obtain ⟨t, happly⟩ := h
  obtain ⟨t', hnext⟩ := hchange t happly
  refine ⟨t', ?_⟩
  show w.tables.applyAll (l.pending ++ [change]) = .ok t'
  rw [applyAll_append, happly]
  show t.applyAll [change] = .ok t'
  rw [Tables.applyAll, hnext]
  rfl

theorem subscription_of_applyAll {β : Type} {f : Subscription → β}
    (hf : ∀ s expiresAt, f { s with expiresAt := expiresAt } = f s) {t t' : Tables}
    {changes : List Change} (happly : t.applyAll changes = .ok t') {s : Subscription}
    (hs : s ∈ t'.subscriptions) :
    (∃ old ∈ t.subscriptions, f old = f s) ∨
      ∃ new ∈ changes.filterMap added?, f new = f s := by
  induction changes generalizing t with
  | nil =>
      cases happly
      exact .inl ⟨s, hs, rfl⟩
  | cons change rest ih =>
      rw [Tables.applyAll] at happly
      split at happly
      · rename_i u hu
        rcases ih happly with ⟨mid, hmid, hsame⟩ | ⟨new, hnew, hsame⟩
        · cases change with
          | addSubscription added =>
              simp only [Tables.apply] at hu
              split at hu
              · cases hu
              · cases hu
                rcases List.mem_append.mp hmid with hold | hadded
                · exact .inl ⟨mid, hold, hsame⟩
                · refine .inr ⟨added, List.mem_cons_self, ?_⟩
                  rw [← List.mem_singleton.mp hadded, hsame]
          | setExpiry subscriptionId expiresAt =>
              simp only [Tables.apply] at hu
              split at hu
              · cases hu
                obtain ⟨old, hold, rfl⟩ := List.mem_map.mp hmid
                refine .inl ⟨old, hold, ?_⟩
                rw [← hsame]
                split
                · exact (hf old expiresAt).symm
                · rfl
              · cases hu
          | deleteSubscription _ =>
              cases hu
              exact .inl ⟨mid, (List.mem_filter.mp hmid).1, hsame⟩
          | deleteSubscriptions _ =>
              cases hu
              exact .inl ⟨mid, (List.mem_filter.mp hmid).1, hsame⟩
          | addRoute _ =>
              simp only [Tables.apply] at hu
              split at hu
              · cases hu
              · cases hu
                exact .inl ⟨mid, hmid, hsame⟩
          | _ =>
              cases hu
              exact .inl ⟨mid, hmid, hsame⟩
        · refine .inr ⟨new, ?_, hsame⟩
          rw [List.filterMap_cons]
          split
          · exact hnew
          · exact List.mem_cons_of_mem _ hnew
      · cases happly

theorem Appliable.addAuditEvent (h : Appliable w l) (event : AuditEvent) :
    Appliable w (l.add (.addAuditEvent event)) :=
  h.add fun _ _ => ⟨_, rfl⟩

theorem Appliable.deleteSubscription (h : Appliable w l) (subscriptionId : Nat) :
    Appliable w (l.add (.deleteSubscription subscriptionId)) :=
  h.add fun _ _ => ⟨_, rfl⟩

theorem Appliable.addSubscription (h : Appliable w l) {s : Subscription}
    (hfresh : FreshId w l s.id) (hconnection : w.tables.hasConnection s.connectionId = true) :
    Appliable w (l.add (.addSubscription s)) := by
  refine h.add fun t happly => ?_
  have hnone : t.hasSubscription s.id = false := by
    rw [Tables.hasSubscription, List.any_eq_false]
    intro x hx
    rw [beq_iff_eq]
    rcases subscription_of_applyAll (f := (·.id)) (fun _ _ => rfl) happly hx with
      ⟨old, hold, hid⟩ | ⟨new, hnew, hid⟩
    · exact fun heq => hfresh.1 old hold (hid.trans heq)
    · exact fun heq => hfresh.2 new hnew (hid.trans heq)
  have hthere : t.hasConnection s.connectionId = true := by
    rw [Tables.hasConnection, connections_applyAll happly]
    exact hconnection
  rw [Tables.apply, hnone, hthere]
  exact ⟨_, rfl⟩

end Sessions

/-- What a procedure ends with when it runs alone and its choices meet the condition. -/
abbrev Yields {α : Type} (Q : World Unit → Session → Except Failure α → Prop) (w : World Unit)
    (l : Session) (p : ConnectorProc α) : Prop :=
  EnsuresIf (serve anyAnswer) KeepsMark Q w l p

/-- The requests that neither write nor load a row, nor present a refresh token. -/
def Inert : Request → Prop
  | .now | .uuid | .generateToken | .activeTenants => True
  | .readObject _ | .expiring .. => True
  | .acquireLock _ | .lockHolder _ | .deleteLock _ => True
  | .callApi .. => True
  | .selectExpiringSubscriptions _ | .selectRoute _ => True
  | _ => False

section Requests

variable {α β : Type} {id : Nat} {before : List AuditEvent} {w w' : World Unit} {l l' : Session}
variable {Q : World Unit → Session → Except Failure α → Prop}

theorem resting_serve {r : Request} (hr : Inert r) (c : Choice) :
    Resting id w l (serve anyAnswer w l r c).1 (serve anyAnswer w l r c).2.1 := by
  cases r with
  | acquireLock name =>
      simp only [serve, World.acquireLock]
      split
      · exact .refl w l
      · exact ⟨rfl, rfl, rfl, fun h => h⟩
  | callApi connectionId method path accessToken =>
      refine ⟨rfl, rfl, rfl, fun h => ?_⟩
      rcases List.mem_append.mp h with hold | hnew
      · exact hold
      · cases List.mem_singleton.mp hnew
  | _ => first
    | exact hr.elim
    | exact ⟨rfl, rfl, rfl, fun h => h⟩

theorem yields_inert {p : ConnectorProc α} (hp : Makes Inert p) :
    Yields (fun w' l' _ => Resting id w l w' l') w l p :=
  ((hp.follows (serve anyAnswer) l).ensuresIf
    (fun _ _ _ c hrest hr => hrest.trans (resting_serve hr c)) (.refl w l)).mono
    fun _ _ _ h => h.1

theorem yields_inert_bind {p : ConnectorProc β} {f : β → ConnectorProc α} (hp : Makes Inert p)
    (hf : ∀ w' l' b, Resting id w l w' l' → Yields Q w' l' (f b))
    (he : ∀ w' l' e, Resting id w l w' l' → Q w' l' (.error e)) :
    Yields Q w l (p >>= f) :=
  ensuresIf_bind (yields_inert hp) (fun w' l' b h => hf w' l' b h) fun w' l' e h => he w' l' e h

theorem yields_ofExcept {x : Except Failure α} (h : Q w l x) : Yields Q w l (.ofExcept x) := by
  cases x <;> exact h

theorem yields_ask_bind {r : Request} {f : Answer r → ConnectorProc α}
    (hf : ∀ c w' l' a, serve anyAnswer w l r c = (w', l', a) → Yields Q w' l' (f a)) :
    Yields Q w l (ask r >>= f) :=
  ensuresIf_request_bind.mpr fun c _ => hf c _ _ _ rfl

theorem yields_releaseLock (id : Nat) (name : LockName) (token : Nat) :
    Yields (fun w' l' out => out = .ok () ∧ Resting id w l w' l') w l (releaseLock name token) := by
  refine yields_ask_bind fun c w' l' holder hserved => ?_
  cases hserved
  by_cases hheld : (w.liveLock? c.now name).map (·.token) = some token
  · rw [if_pos hheld]
    exact fun _ _ => ⟨rfl, rfl, rfl, rfl, fun h => h⟩
  · rw [if_neg hheld]
    exact ⟨rfl, .refl w l⟩

theorem makes_ask {r : Request} (hr : Inert r) : Makes Inert (ask r) := ⟨hr, fun _ => trivial⟩

theorem yields_readObject (connectionId : Nat) :
    Yields (fun w' l' out => w' = w ∧ l' = l ∧ ∀ connection, out = .ok connection →
      ∃ o, l.object? connectionId = some o ∧ connection = o.view) w l
      (readObject connectionId) := by
  refine ensuresIf_request_bind.mpr fun c _ => ?_
  simp only [serve]
  cases h : l.object? connectionId with
  | none =>
      refine ⟨rfl, rfl, fun connection hok => ?_⟩
      cases hok
  | some o => exact ⟨rfl, rfl, fun connection hok => ⟨o, rfl, (Except.ok.inj hok).symm⟩⟩

theorem yields_assign {connectionId : Nat}
    {value : Stamp → Attributes → Except Failure Attributes} {P : Session → Prop} (hsame : P l)
    (hupdate : ∀ o stamp a, l.object? connectionId = some o → value stamp o.current = .ok a →
      (o.current.status = .needsReconsent → a.status ≠ .error) →
      P (l.update connectionId fun o => { o with current := a })) :
    Yields (fun w' l' _ => w' = w ∧ P l') w l (assign connectionId value) := by
  refine ensuresIf_request_bind.mpr fun c hcond => yields_ofExcept ?_
  simp only [serve]
  cases hobject : l.object? connectionId with
  | none => exact ⟨rfl, hsame⟩
  | some o =>
      dsimp only
      cases hvalue : value ⟨c.now, c.nonce⟩ o.current with
      | error e => exact ⟨rfl, hsame⟩
      | ok a =>
          refine ⟨rfl, hupdate o _ a hobject hvalue fun hstatus => ?_⟩
          exact hcond.1 _ rfl o hobject hstatus a
            (congrArg Except.toOption hvalue)

theorem yields_assign_held (h : Held id before w l) {connectionId : Nat}
    {value : Stamp → Attributes → Except Failure Attributes}
    (hvalue : ∀ stamp a a', value stamp a = .ok a' → a'.status = a.status ∨ a'.status = .error) :
    Yields (fun w' l' _ => w' = w ∧ Held id before w l' ∧ l'.pending = l.pending) w l
      (assign connectionId value) := by
  refine yields_assign ⟨h, rfl⟩ fun o stamp a ho hassigned hkeeps => ⟨h.update ?_, rfl⟩
  rintro hrefused rfl
  obtain ⟨hmem, hid⟩ := mem_of_object? ho
  have hstatus := h.marked hrefused o hmem hid
  rcases hvalue stamp _ a hassigned with hsame | herror
  · rw [hsame, hstatus]
  · exact absurd herror (hkeeps hstatus)

theorem yields_commit (h : Held id before w l) :
    Yields (fun w' l' _ => Held id before w' l' ∧ l'.pending = []) w l commit := by
  refine ensuresIf_request_bind.mpr fun c _ => yields_ofExcept ?_
  simp only [serve, World.commit]
  cases hcommit : w.tables.commit l.objects l.pending with
  | error e => exact ⟨h.opened rfl, rfl⟩
  | ok t => exact ⟨h.toTracked.commit (fun hrefused => .inl (h.told hrefused)) hcommit, rfl⟩

theorem yields_commit_telling (h : Telling id before w l) :
    Yields (fun w' l' _ => Held id before w' l' ∧ l'.pending = [] ∧
      (.refused id ∈ w'.history → .refused id ∈ w.history)) w l commit := by
  refine ensuresIf_request_bind.mpr fun c _ => yields_ofExcept ?_
  obtain ⟨t, hcommit⟩ := h.commits
  simp only [serve, World.commit]
  rw [hcommit]
  exact ⟨h.toTracked.commit h.telling hcommit, rfl, (refused_append_trace _ _).mp⟩

end Requests

section Refresh

variable {α : Type} {settings : Settings} {id : Nat} {before : List AuditEvent}
variable {w w' : World Unit} {l l' : Session}

/-- The tables and the session stay as they are; a refusal is answered to its connection. -/
structure Asked (id connectionId : Nat) (w : World Unit) (l : Session) (w' : World Unit)
    (l' : Session) (out : Except Failure α) : Prop where
  tables : w'.tables = w.tables
  objects : l'.objects = l.objects
  pending : l'.pending = l.pending
  refused : .refused id ∈ w'.history → .refused id ∈ w.history ∨
    connectionId = id ∧ ∃ message, out = .error (.invalidGrant message)

theorem Asked.resting {connectionId : Nat} {out : Except Failure α}
    (h : Asked id connectionId w l w' l' out)
    (hout : ∀ message, out ≠ .error (.invalidGrant message)) : Resting id w l w' l' :=
  ⟨h.tables, h.objects, h.pending, fun hrefused => (h.refused hrefused).elim (fun h => h)
    fun ⟨_, message, hmessage⟩ => absurd hmessage (hout message)⟩

theorem Resting.asked {connectionId : Nat} {out : Except Failure α} (h : Resting id w l w' l') :
    Asked id connectionId w l w' l' out :=
  ⟨h.tables, h.objects, h.pending, fun hrefused => .inl (h.refused hrefused)⟩

theorem Asked.after {connectionId : Nat} {w₂ : World Unit} {l₂ : Session}
    {out : Except Failure α} (h : Asked id connectionId w' l' w₂ l₂ out)
    (hrest : Resting id w l w' l') : Asked id connectionId w l w₂ l₂ out :=
  ⟨h.tables.trans hrest.tables, h.objects.trans hrest.objects, h.pending.trans hrest.pending,
    fun hrefused => (h.refused hrefused).imp_left hrest.refused⟩

theorem yields_refreshTokenGrant (id : Nat) (connection : Connection) (token : PyStr) :
    Yields (Asked id connection.id w l) w l (refreshTokenGrant settings connection token) := by
  unfold refreshTokenGrant
  cases hcredentials : clientCredentials settings connection.provider with
  | error e => exact (Resting.refl w l).asked
  | ok pair =>
      refine ensuresIf_request_bind.mpr fun c _ => yields_ofExcept ⟨rfl, rfl, rfl, fun h => ?_⟩
      rcases List.mem_append.mp h with hold | hnew
      · exact .inl hold
      · rcases List.mem_cons.mp hnew with hpresented | hanswered
        · cases hpresented
        · split at hanswered
          · cases List.mem_singleton.mp hanswered
          · rename_i message hread
            obtain rfl := Event.refused.inj (List.mem_singleton.mp hanswered)
            have hrefuses := (readAnswer_invalidGrant_iff _ _).mp ⟨message, hread⟩
            exact .inr ⟨rfl, (readAnswer_invalidGrant_iff connection.provider _).mpr hrefuses⟩
          · cases hanswered

theorem yields_retries (id : Nat) (connection : Connection) (token : PyStr) (n : Nat) :
    Yields (Asked id connection.id w l) w l
      (runWithBackoff connection.provider (refreshTokenGrant settings connection token) n) := by
  induction n generalizing w l with
  | zero => exact (Resting.refl w l).asked
  | succ n ih =>
      refine ensuresIf_attempt_bind (yields_refreshTokenGrant id connection token) ?_
      rintro w₁ l₁ (e | bundle) hasked
      · cases e with
        | providerResponse statusCode =>
            have hrest := hasked.resting fun _ => nofun
            dsimp only
            split
            · exact EnsuresIf.mono (fun _ _ _ h => Asked.after h hrest) ih
            · exact hrest.asked
        | invalidGrant message =>
            exact ⟨hasked.tables, hasked.objects, hasked.pending, fun hrefused =>
              (hasked.refused hrefused).imp_right fun h => ⟨h.1, message, rfl⟩⟩
        | _ => exact (hasked.resting fun _ => nofun).asked
      · exact (hasked.resting fun _ => nofun).asked

theorem yields_grantUnderLock (id : Nat) (connection : Connection) :
    Yields (Asked id connection.id w l) w l (grantUnderLock settings connection) := by
  unfold grantUnderLock
  cases settings.keys.decrypt connection.attributes.refreshTokenEnc with
  | ok token => exact yields_retries id connection token maxAttempts
  | error e => exact (Resting.refl w l).asked

/-- The session goes on as before, and no refusal was added. -/
structure Kept (id : Nat) (before : List AuditEvent) (w : World Unit) (w' : World Unit)
    (l' : Session) : Prop where
  held : Held id before w' l'
  sends : Appliable w' l'
  refused : .refused id ∈ w'.history → .refused id ∈ w.history

theorem Kept.rest {w₂ : World Unit} {l₂ : Session} (h : Kept id before w w' l')
    (hrest : Resting id w' l' w₂ l₂) : Kept id before w w₂ l₂ :=
  ⟨h.held.rest hrest, h.sends.rest hrest, fun hrefused => h.refused (hrest.refused hrefused)⟩

/-- A refresh ends as if it had not been, or it was declined and its session is about to
commit that. -/
def Ended (id : Nat) (before : List AuditEvent) (connectionId : Nat) (w : World Unit)
    (declined : α) (w' : World Unit) (l' : Session) (out : Except Failure α) : Prop :=
  Kept id before w w' l' ∨ out = .ok declined ∧ Telling id before w' l' ∧
    (.refused id ∈ w'.history → .refused id ∈ w.history ∨ connectionId = id)

theorem Tracked.declined (h : Tracked id before w l) {connectionId : Nat} {w₁ : World Unit}
    {l₁ : Session} (htables : w₁.tables = w.tables) (hobjects : l₁.objects = l.objects)
    (hrefused : .refused id ∈ w₁.history → .refused id ∈ w.history ∨ connectionId = id)
    {a : Attributes} (ha : a.status = .needsReconsent) :
    Tracked id before w₁ (l₁.update connectionId fun o => { o with current := a }) := by
  have hmarked : Tracked id before w (l.update connectionId fun o => { o with current := a }) :=
    h.update fun _ _ => ha
  have hsame : (l₁.update connectionId fun o => { o with current := a }).objects =
      (l.update connectionId fun o => { o with current := a }).objects := by
    simp only [Session.update, hobjects]
  refine ⟨htables ▸ h.keys, htables ▸ h.grown, ?_, fun key => ?_, fun hnow o ho hid => ?_⟩
  · rw [htables, hsame]
    exact hmarked.stored
  · unfold oneObject
    rw [hsame]
    exact hmarked.single key
  · rcases hrefused hnow with hold | rfl
    · exact hmarked.marked hold o (hsame ▸ ho) hid
    · obtain ⟨old, -, ⟨-, rfl⟩ | ⟨hother, rfl⟩⟩ := mem_update ho
      · exact ha
      · exact absurd hid hother

theorem yields_declined (h : Held id before w l) (hsends : Appliable w l) {connection : Connection}
    {message : String} {w₁ : World Unit} {l₁ : Session}
    (hasked : Asked id connection.id w l w₁ l₁
      (.error (.invalidGrant message) : Except Failure TokenBundle))
    (hobject : ∃ o, l.object? connection.id = some o) :
    Yields (Ended id before connection.id w (none : Option TokenBundle)) w₁ l₁ (do
      assign connection.id markReconsent
      recordAuditEvent "connector.reconsent_required" "connector_connection" connection.id
        [("provider", some connection.provider.value),
          ("account", some connection.attributes.accountLabel)]
      return none) := by
  obtain ⟨o, ho⟩ := hobject
  have ho₁ : l₁.object? connection.id = some o := by
    rw [Session.object?, hasked.objects]
    exact ho
  have hrefused (hnow : .refused id ∈ w₁.history) :
      .refused id ∈ w.history ∨ connection.id = id := (hasked.refused hnow).imp_right (·.1)
  refine ensuresIf_request_bind.mpr fun c _ => ?_
  obtain ⟨marked, hvalue, hstatus⟩ : ∃ marked,
      markReconsent ⟨c.now, c.nonce⟩ o.current = .ok marked ∧
        marked.status = .needsReconsent := ⟨_, rfl, rfl⟩
  simp only [serve, ho₁, hvalue]
  intro c' _
  have htracked := h.toTracked.declined hasked.tables hasked.objects hrefused hstatus
  refine .inr ⟨rfl, ⟨⟨htracked.keys, htracked.grown, htracked.stored, htracked.single,
    htracked.marked⟩, fun hnow => ?_, ?_⟩, hrefused⟩
  · rcases hrefused hnow with hold | rfl
    · refine .inl ?_
      show Reported id before w₁.tables
      rw [hasked.tables]
      exact h.told hold
    · refine .inr ⟨?_, _, List.mem_append_right _ List.mem_cons_self, rfl, rfl⟩
      have hmarked : (l₁.update connection.id fun o => { o with current := marked }).object?
        connection.id = some { o with current := marked } := object?_update (fun _ => rfl) ho₁
      exact ⟨_, mem_of_object? hmarked⟩
  · have hsent : Appliable w₁ (l₁.update connection.id fun o => { o with current := marked }) := by
      unfold Appliable
      rw [hasked.tables, update_pending, hasked.pending]
      exact hsends
    exact hsent.addAuditEvent _

theorem Held.kept (h : Held id before w l) (hsends : Appliable w l) : Kept id before w w l :=
  ⟨h, hsends, fun hrefused => hrefused⟩

theorem yields_assign_kept (h : Kept id before w w' l') {connectionId : Nat}
    {value : Stamp → Attributes → Except Failure Attributes}
    (hnew : connectionId = id → .refused id ∉ w.history) :
    Yields (fun w₂ l₂ _ => Kept id before w w₂ l₂) w' l' (assign connectionId value) := by
  have hupdate (a : Attributes) :
      Kept id before w w' (l'.update connectionId fun o => { o with current := a }) :=
    ⟨h.held.update fun hrefused hid => absurd (h.refused hrefused) (hnew hid), h.sends, h.refused⟩
  refine (yields_assign h fun o stamp a _ _ _ => hupdate a).mono ?_
  rintro w₂ l₂ out ⟨rfl, hkept⟩
  exact hkept

theorem yields_refreshUnderLock (h : Held id before w l) (hsends : Appliable w l)
    {connection : Connection} (hobject : ∃ o, l.object? connection.id = some o)
    (hnew : connection.id = id → .refused id ∉ w.history) :
    Yields (Ended id before connection.id w none) w l
      (refreshUnderLock settings connection) := by
  have hkept {w₁ : World Unit} {l₁ : Session} (hrest : Resting id w l w₁ l₁) :
      Kept id before w w₁ l₁ := (h.kept hsends).rest hrest
  refine ensuresIf_attempt_bind (yields_grantUnderLock id connection) ?_
  rintro w₁ l₁ (e | bundle) hasked
  · cases e with
    | invalidGrant message => exact yields_declined h hsends hasked hobject
    | _ =>
        have hrest := hkept (hasked.resting fun _ => nofun)
        dsimp only
        split
        · refine ensuresIf_bind (yields_assign_kept hrest hnew) (fun w₂ l₂ _ h₂ => ?_)
            fun w₂ l₂ e h₂ => .inl h₂
          exact .inl h₂
        · exact .inl hrest
  · exact .inl (hkept (hasked.resting fun _ => nofun))

theorem yields_lockForRefresh (h : Held id before w l) (hsends : Appliable w l)
    (connectionId : Nat) (block : Bool) :
    Yields (fun w' l' _ => Kept id before w w' l') w l (lockForRefresh connectionId block) := by
  have hkept := h.kept hsends
  cases block with
  | false =>
      exact (yields_inert (makes_ask (r := .acquireLock (.refresh connectionId)) trivial)).mono
        fun _ _ _ => hkept.rest
  | true =>
      refine yields_inert_bind (makes_waitForLock trivial 20) (fun w₁ l₁ token hrest => ?_)
        fun _ _ _ => hkept.rest
      have h₁ := hkept.rest hrest
      refine yields_ask_bind fun c w₂ l₂ found hserved => ?_
      have hlook : Makes Inert (do
          if ← ask (.expiring connectionId expirySkew) then
            return some token
          releaseLock (.refresh connectionId) token
          return none : ConnectorProc (Option Nat)) := by
        refine makes_request_bind.mpr ⟨trivial, fun expiring => ?_⟩
        cases expiring with
        | false => exact (makes_releaseLock trivial trivial).bind fun _ => trivial
        | true => trivial
      cases hrow : w₁.tables.connection? connectionId with
      | none =>
          rw [serve, hrow] at hserved
          cases hserved
          exact h₁
      | some row =>
          rw [serve, hrow] at hserved
          cases hserved
          have hread : Kept id before w w₁ (l₁.update connectionId fun o =>
              o.reload w₁.history.length row) := ⟨h₁.held.reload _ hrow, h₁.sends, h₁.refused⟩
          exact (yields_inert hlook).mono fun _ _ _ => hread.rest

theorem yields_applyTokenBundle (h : Kept id before w w' l') {connectionId : Nat}
    (hnew : connectionId = id → .refused id ∉ w.history) (bundle : TokenBundle) :
    Yields (fun w₂ l₂ _ => Kept id before w w₂ l₂) w' l'
      (applyTokenBundle settings connectionId bundle) := by
  refine ensuresIf_bind (yields_assign_kept h hnew) (fun w₁ l₁ _ h₁ => ?_) fun _ _ _ h => h
  refine ensuresIf_bind (yields_assign_kept h₁ hnew) (fun w₂ l₂ _ h₂ => ?_) fun _ _ _ h => h
  refine ensuresIf_bind (yields_assign_kept h₂ hnew) (fun w₃ l₃ _ h₃ => ?_) fun _ _ _ h => h
  exact yields_assign_kept h₃ hnew

theorem Ended.rest {connectionId : Nat} {declined : α} {out : Except Failure α} {w₂ : World Unit}
    {l₂ : Session} (h : Ended id before connectionId w declined w' l' out)
    (hrest : Resting id w' l' w₂ l₂) : Ended id before connectionId w declined w₂ l₂ out :=
  h.imp (·.rest hrest) fun ⟨hout, htelling, hrefused⟩ =>
    ⟨hout, htelling.rest hrest, fun hnow => hrefused (hrest.refused hnow)⟩

theorem yields_refreshConnection (h : Held id before w l) (hsends : Appliable w l)
    {connectionId : Nat} (block : Bool) (hnew : connectionId = id → .refused id ∉ w.history) :
    Yields (Ended id before connectionId w false) w l
      (refreshConnection settings connectionId block) := by
  refine ensuresIf_bind (yields_lockForRefresh h hsends connectionId block) ?_
    fun _ _ _ hkept => .inl hkept
  rintro w₁ l₁ token h₁
  cases token with
  | none => exact .inl h₁
  | some token =>
      refine ensuresIf_bind (yields_readObject connectionId) ?_ ?_
      · rintro w₂ l₂ connection ⟨rfl, rfl, hread⟩
        obtain ⟨o, ho, rfl⟩ := hread _ rfl
        have hid : o.view.id = connectionId := (mem_of_object? ho).2
        have hnew₂ : o.view.id = id → .refused id ∉ w₂.history := fun heq hrefused =>
          hnew (hid.symm.trans heq) (h₁.refused hrefused)
        refine ensuresIf_attempt_bind (yields_refreshUnderLock h₁.held h₁.sends
          ⟨o, hid ▸ ho⟩ hnew₂) ?_
        rintro w₃ l₃ outcome hended
        refine ensuresIf_bind (yields_releaseLock id (.refresh connectionId) token) ?_ ?_
        · rintro w₄ l₄ ⟨⟩ ⟨-, hrest⟩
          have hkept (hkept : Kept id before w₂ w₃ l₃) : Kept id before w w₄ l₄ :=
            have hrest := hkept.rest hrest
            ⟨hrest.held, hrest.sends, fun hrefused => h₁.refused (hrest.refused hrefused)⟩
          rcases hended with hsame | ⟨rfl, htelling, hrefused⟩
          · cases outcome with
            | error e => exact .inl (hkept hsame)
            | ok bundle =>
                cases bundle with
                | none => exact .inl (hkept hsame)
                | some bundle =>
                    refine ensuresIf_bind (yields_applyTokenBundle (hkept hsame) hnew bundle)
                      (fun _ _ _ hdone => ?_) fun _ _ _ hdone => .inl hdone
                    exact .inl hdone
          · refine .inr ⟨rfl, htelling.rest hrest, fun hnow => ?_⟩
            exact (hrefused (hrest.refused hnow)).imp h₁.refused hid.symm.trans
        · rintro w₄ l₄ e ⟨hout, -⟩
          cases hout
      · rintro w₂ l₂ e ⟨rfl, rfl, -⟩
        exact .inl h₁

end Refresh

section Calls

variable {α : Type} {settings : Settings} {id : Nat} {before : List AuditEvent}
variable {w w' : World Unit} {l l' : Session}

/-- A refusal is committed, and the pending changes can be. -/
structure Ready (id : Nat) (before : List AuditEvent) (w : World Unit) (l : Session) : Prop
    extends Held id before w l where
  sends : Appliable w l

theorem Ready.rest (h : Ready id before w l) (hrest : Resting id w l w' l') :
    Ready id before w' l' :=
  ⟨h.toHeld.rest hrest, h.sends.rest hrest⟩

theorem Kept.ready {w₀ : World Unit} (h : Kept id before w₀ w l) : Ready id before w l :=
  ⟨h.held, h.sends⟩

theorem yields_refreshAndCommit (h : Ready id before w l) {connectionId : Nat} {block : Bool}
    (hnew : connectionId = id → .refused id ∉ w.history) :
    Yields (fun w' l' _ => Ready id before w' l') w l (do
      let _ ← refreshConnection settings connectionId block
      commit) := by
  refine ensuresIf_bind (yields_refreshConnection h.toHeld h.sends block hnew) ?_ ?_
  · intro w₁ l₁ renewed hended
    have htelling : Telling id before w₁ l₁ :=
      hended.elim (fun hkept => hkept.held.telling hkept.sends) (·.2.1)
    exact (yields_commit_telling htelling).mono fun _ _ _ hdone =>
      ⟨hdone.1, appliable_of_nil hdone.2.1⟩
  · rintro w₁ l₁ e (hkept | ⟨hout, -⟩)
    · exact hkept.ready
    · cases hout

theorem yields_freshAccessToken (h : Ready id before w l) (connectionId : Nat) :
    Yields (fun w' l' _ => Ready id before w' l') w l
      (freshAccessToken settings connectionId) := by
  refine ensuresIf_bind (yields_readObject connectionId) ?_ ?_
  · rintro w₁ l₁ connection ⟨rfl, rfl, hread⟩
    obtain ⟨o, ho, rfl⟩ := hread _ rfl
    by_cases hactive : o.view.attributes.status ≠ .active
    · rw [if_pos hactive]
      exact h
    · rw [if_neg hactive]
      have hnew : connectionId = id → .refused id ∉ w₁.history := by
        rintro rfl hrefused
        obtain ⟨hmem, hid⟩ := mem_of_object? ho
        have hmarked := h.marked hrefused o hmem hid
        exact hactive fun hstatus => by cases hstatus.symm.trans hmarked
      have hrenewed : Yields (fun w' l' _ => Ready id before w' l') w₁ l₁
          (refreshIfExpiring settings connectionId) := by
        refine yields_ask_bind fun c w₂ l₂ expiring hserved => ?_
        cases hserved
        split
        · exact yields_refreshAndCommit h hnew
        · exact h
      refine ensuresIf_bind hrenewed (fun w₂ l₂ _ h₂ => ?_) fun _ _ _ h₂ => h₂
      refine yields_inert_bind (makes_readObject trivial) (fun w₃ l₃ refreshed hrest => ?_)
        fun _ _ _ => h₂.rest
      exact yields_ofExcept (h₂.rest hrest)
  · rintro w₁ l₁ e ⟨rfl, rfl, -⟩
    exact h

theorem yields_requestWithFreshToken (h : Ready id before w l) (connectionId : Nat)
    (method path : String) :
    Yields (fun w' l' _ => Ready id before w' l') w l
      (requestWithFreshToken settings connectionId method path) := by
  refine ensuresIf_bind (yields_freshAccessToken h connectionId) (fun w₁ l₁ token h₁ => ?_)
    fun _ _ _ h₁ => h₁
  refine (yields_inert ?_).mono fun _ _ _ => h₁.rest
  exact (makes_readObject trivial).bind fun _ => makes_providerHttpRequest trivial

theorem yields_capabilityRequest (h : Ready id before w l) (connection : Connection)
    (method path : String) :
    Yields (fun w' l' _ => Ready id before w' l') w l
      (capabilityRequest settings connection method path) := by
  unfold capabilityRequest
  split
  · refine ensuresIf_bind (yields_freshAccessToken h connection.id) (fun w₁ l₁ token h₁ => ?_)
      fun _ _ _ h₁ => h₁
    exact (yields_inert (makes_callSdk trivial maxAttempts)).mono fun _ _ _ => h₁.rest
  · exact yields_requestWithFreshToken h connection.id method path

theorem yields_capabilityRequests (h : Ready id before w l) (connection : Connection)
    (requests : List (String × String)) :
    Yields (fun w' l' _ => Ready id before w' l') w l
      (capabilityRequests settings connection requests) := by
  induction requests generalizing w l with
  | nil => exact h
  | cons request rest ih =>
      exact ensuresIf_bind (yields_capabilityRequest h connection request.1 request.2)
        (fun w₁ l₁ _ h₁ => ih h₁) fun _ _ _ h₁ => h₁

theorem Ready.getConnection (h : Ready id before w l) {connectionId : Nat} {c : Choice}
    {found : Bool}
    (hserved : serve anyAnswer w l (.getConnection connectionId) c = (w', l', found)) :
    w' = w ∧ Ready id before w l' := by
  simp only [serve] at hserved
  split at hserved
  · cases hserved
    exact ⟨rfl, h⟩
  · split at hserved
    · rename_i row hrow
      cases hserved
      refine ⟨rfl, h.toHeld.load _ (List.mem_of_find?_eq_some hrow), ?_⟩
      unfold Appliable
      rw [load_pending]
      exact h.sends
    · cases hserved
      exact ⟨rfl, h⟩

theorem Held.ready_opened (h : Held id before w l) (tenantId : Nat) :
    Ready id before w { l with tenantId := tenantId, objects := [], pending := [], issued := [] } :=
  ⟨h.opened rfl, appliable_of_nil rfl⟩

theorem yields_capabilityCall (h : Held id before w l) (tenantId connectionId : Nat)
    (name : String) (requests : List (String × String)) :
    Yields (fun w' l' _ => Held id before w' l') w l
      (ConnectorService.capabilityCall settings tenantId connectionId name requests) := by
  refine yields_ask_bind fun c w₁ l₁ _ hserved => ?_
  cases hserved
  refine yields_ask_bind fun c w₂ l₂ found hserved => ?_
  obtain ⟨rfl, h₂⟩ := (h.ready_opened tenantId).getConnection hserved
  cases found with
  | false => exact h₂.toHeld
  | true =>
      refine yields_inert_bind (makes_getCapability trivial) (fun w₃ l₃ connection hrest => ?_)
        fun _ _ _ hrest => (h₂.rest hrest).toHeld
      exact (yields_capabilityRequests (h₂.rest hrest) connection requests).mono
        fun _ _ _ h₃ => h₃.toHeld

end Calls

section RefreshBeat

variable {settings : Settings} {id : Nat} {before : List AuditEvent}
variable {w w' : World Unit} {l l' : Session}

theorem yields_countRefresh (h : Ready id before w l) {connectionId : Nat}
    (hnew : connectionId = id → .refused id ∉ w.history) (report : RefreshReport) :
    Yields (fun w' l' out => (∀ e, out = .error e → Held id before w' l') ∧
        ∀ counted, out = .ok counted → Telling id before w' l' ∧
          (.refused id ∈ w'.history → .refused id ∈ w.history ∨ connectionId = id)) w l
      (countRefresh settings connectionId report) := by
  refine ensuresIf_attempt_bind (yields_refreshConnection h.toHeld h.sends false hnew) ?_
  intro w₁ l₁ outcome hended
  have htelling : Telling id before w₁ l₁ ∧
      (.refused id ∈ w₁.history → .refused id ∈ w.history ∨ connectionId = id) := by
    rcases hended with hkept | ⟨-, hdeclined⟩
    · exact ⟨hkept.held.telling hkept.sends, fun hrefused => .inl (hkept.refused hrefused)⟩
    · exact hdeclined
  rcases outcome with e | renewed
  · dsimp only
    split
    · exact ⟨nofun, fun _ _ => htelling⟩
    · rcases hended with hkept | ⟨hout, -⟩
      · exact ⟨fun _ _ => hkept.held, nofun⟩
      · cases hout
  · cases renewed with
    | true => exact ⟨nofun, fun _ _ => htelling⟩
    | false => exact ⟨nofun, fun _ _ => htelling⟩

theorem yields_refreshEach (h : Ready id before w l) {connectionIds : List Nat}
    (hdistinct : connectionIds.Nodup)
    (hnew : ∀ connectionId ∈ connectionIds, connectionId = id → .refused id ∉ w.history)
    (lead : DirectoryStore.Instant) (report : RefreshReport) :
    Yields (fun w' l' _ => Held id before w' l') w l
      (refreshEach settings lead connectionIds report) := by
  induction connectionIds generalizing w l report with
  | nil => exact h.toHeld
  | cons connectionId rest ih =>
      obtain ⟨hother, hrest⟩ := List.nodup_cons.mp hdistinct
      refine yields_ask_bind fun c w₁ l₁ expiring hserved => ?_
      cases hserved
      split
      · refine ensuresIf_bind (yields_countRefresh h (hnew _ List.mem_cons_self) report) ?_
          fun _ _ e hcounted => hcounted.1 e rfl
        rintro w₂ l₂ counted ⟨-, hcounted⟩
        obtain ⟨htelling, hrefused⟩ := hcounted counted rfl
        refine ensuresIf_bind (yields_commit_telling htelling) ?_ fun _ _ _ hdone => hdone.1
        rintro w₃ l₃ _ ⟨hheld, hpending, hback⟩
        refine ih ⟨hheld, appliable_of_nil hpending⟩ hrest (fun x hx hid hnow => ?_) counted
        rcases hrefused (hback hnow) with hbefore | hthis
        · exact hnew x (List.mem_cons_of_mem _ hx) hid hbefore
        · exact hother (hthis.trans hid.symm ▸ hx)
      · exact ih h hrest (fun x hx => hnew x (List.mem_cons_of_mem _ hx)) report

theorem yields_refreshTenant (h : Held id before w l) (lead : DirectoryStore.Instant)
    (tenant : Tenant) :
    Yields (fun w' l' _ => Held id before w' l') w l (refreshTenant settings lead tenant) := by
  refine yields_ask_bind fun c w₁ l₁ _ hserved => ?_
  cases hserved
  refine yields_ask_bind fun c w₂ l₂ connectionIds hserved => ?_
  have hopened := h.ready_opened tenant.id
  have hloaded : w₂ = w ∧ Ready id before w l₂ ∧
      connectionIds = (w.tables.connections.filter fun c =>
        c.tenantId == tenant.id && c.attributes.status == .active).map (·.id) := by
    simp only [serve] at hserved
    cases hserved
    refine ⟨rfl, ⟨hopened.toHeld.loadAll _ fun row hrow => (List.mem_filter.mp hrow).1, ?_⟩, rfl⟩
    unfold Appliable
    rw [loadAll_pending]
    exact hopened.sends
  obtain ⟨rfl, hready, rfl⟩ := hloaded
  refine ensuresIf_bind (yields_refreshEach hready ?_ ?_ lead _) (fun _ _ _ hdone => hdone)
    fun _ _ _ hdone => hdone
  · exact h.keys.sublist (List.filter_sublist.map _)
  · intro connectionId hmem hid hrefused
    obtain ⟨row, hrow, rfl⟩ := List.mem_map.mp hmem
    obtain ⟨hstored, hselected⟩ := List.mem_filter.mp hrow
    have hactive := beq_iff_eq.mp (Bool.and_eq_true_iff.mp hselected).2
    cases hactive.symm.trans ((h.told hrefused).2.1 row hstored hid)

theorem yields_refreshTenants (h : Held id before w l) (lead : DirectoryStore.Instant)
    (tenants : List Tenant) :
    Yields (fun w' l' _ => Held id before w' l') w l (refreshTenants settings lead tenants) := by
  induction tenants generalizing w l with
  | nil => exact h
  | cons tenant rest ih =>
      refine ensuresIf_bind (yields_refreshTenant h lead tenant) (fun w₁ l₁ report h₁ => ?_)
        fun _ _ _ hdone => hdone
      exact ensuresIf_bind (ih h₁) (fun _ _ _ hdone => hdone) fun _ _ _ hdone => hdone

theorem yields_refreshExpiringTokens (h : Held id before w l) :
    Yields (fun w' l' _ => Held id before w' l') w l
      (ConnectorService.refreshExpiringTokens settings) := by
  refine yields_inert_bind (makes_ask (r := .activeTenants) trivial)
    (fun w₁ l₁ tenants hrest => ?_) fun _ _ _ => h.rest
  exact yields_refreshTenants (h.rest hrest) _ tenants

end RefreshBeat

section RenewalBeat

variable {settings : Settings} {id : Nat} {before : List AuditEvent}
variable {w w' : World Unit} {l l' : Session}

theorem Ready.addSubscription (h : Ready id before w l) {s : Subscription}
    (hfresh : FreshId w l s.id) (hthere : w.tables.hasConnection s.connectionId = true) :
    Ready id before w (l.add (.addSubscription s)) where
  toHeld := ⟨⟨h.keys, h.grown, h.stored, h.single, h.marked⟩, h.told⟩
  sends := h.sends.addSubscription hfresh hthere

theorem yields_addChannel (h : Ready id before w l) {connectionId : Nat}
    (hthere : w.tables.hasConnection connectionId = true) (connection : Connection)
    (response : Response) (hash channel : String) :
    Yields (fun w' l' _ => Ready id before w' l') w l (do
      let payload ← .ofExcept (payloadOf response)
      let default := (← ask .now) + hours (getProvider connection.provider).subscriptionTtlHours
      let expiresAt ← .ofExcept (parseExpiration settings (get? payload "expiration") default)
      ask (.addSubscription connectionId capabilityCalendar (py channel) expiresAt hash)) := by
  refine yields_inert_bind (makes_ofExcept _) (fun w₁ l₁ payload hrest₁ => ?_) fun _ _ _ => h.rest
  have h₁ := h.rest hrest₁
  refine yields_inert_bind (makes_ask (r := .now) trivial) (fun w₂ l₂ now hrest₂ => ?_)
    fun _ _ _ => h₁.rest
  have h₂ := h₁.rest hrest₂
  refine yields_inert_bind (makes_ofExcept _) (fun w₃ l₃ expiresAt hrest₃ => ?_)
    fun _ _ _ => h₂.rest
  intro c hcond
  refine (h₂.rest hrest₃).addSubscription (hcond.2 rfl) ?_
  show w₃.tables.hasConnection connectionId = true
  rw [hrest₃.tables, hrest₂.tables, hrest₁.tables]
  exact hthere

theorem yields_createGoogleChannel (h : Ready id before w l) (connectionId : Nat) :
    Yields (fun w' l' _ => Ready id before w' l') w l
      (createGoogleChannel settings connectionId) := by
  refine yields_inert_bind (makes_ask (r := .generateToken) trivial)
    (fun w₁ l₁ clientState hrest => ?_) fun _ _ _ => h.rest
  have h₁ := h.rest hrest
  refine yields_inert_bind (makes_ask (r := .uuid) trivial)
    (fun w₂ l₂ channelId hrest => ?_) fun _ _ _ => h₁.rest
  have h₂ := h₁.rest hrest
  refine ensuresIf_bind (yields_freshAccessToken h₂ connectionId) (fun w₃ l₃ token h₃ => ?_)
    fun _ _ _ h₃ => h₃
  refine ensuresIf_bind (yields_readObject connectionId) ?_ ?_
  · rintro w₄ l₄ connection ⟨rfl, rfl, hread⟩
    obtain ⟨o, ho, rfl⟩ := hread _ rfl
    obtain ⟨hmem, hid⟩ := mem_of_object? ho
    have hthere : w₄.tables.hasConnection connectionId = true :=
      List.any_eq_true.mpr ⟨o.row, (h₃.stored o hmem).2, by simpa using hid⟩
    refine yields_inert_bind (makes_providerHttpRequest trivial)
      (fun w₅ l₅ response hrest => ?_) fun _ _ _ => h₃.rest
    exact yields_addChannel (h₃.rest hrest) (hrest.tables ▸ hthere) o.view response _ _
  · rintro w₄ l₄ e ⟨rfl, rfl, -⟩
    exact h₃

theorem yields_stopGoogleChannel (h : Ready id before w l) (connectionId : Nat) :
    Yields (fun w' l' _ => Ready id before w' l') w l (stopGoogleChannel settings connectionId) :=
  ensuresIf_attempt_bind (yields_requestWithFreshToken h connectionId _ _) fun _ _ _ h₁ => h₁

theorem Held.add (h : Held id before w l) (change : Change) : Held id before w (l.add change) :=
  ⟨⟨h.keys, h.grown, h.stored, h.single, h.marked⟩, h.told⟩

theorem yields_renewSubscription (h : Ready id before w l) (connection : Connection)
    (subscription : Subscription) :
    Yields (fun w' l' _ => Held id before w' l') w l
      (renewSubscription settings connection subscription) := by
  unfold renewSubscription
  split
  · refine yields_inert_bind (makes_ask (r := .now) trivial) (fun w₁ l₁ now hrest => ?_)
      fun _ _ _ hrest => (h.rest hrest).toHeld
    refine ensuresIf_bind (yields_freshAccessToken (h.rest hrest) connection.id)
      (fun w₂ l₂ token h₂ => ?_) fun _ _ _ h₂ => h₂.toHeld
    refine yields_inert_bind (makes_providerHttpRequest trivial) (fun w₃ l₃ response hrest => ?_)
      fun _ _ _ hrest => (h₂.rest hrest).toHeld
    exact fun _ _ => (h₂.rest hrest).toHeld.add _
  · refine ensuresIf_bind (yields_createGoogleChannel h connection.id) (fun w₁ l₁ _ h₁ => ?_)
      fun _ _ _ h₁ => h₁.toHeld
    refine ensuresIf_bind (yields_stopGoogleChannel h₁ connection.id) (fun w₂ l₂ _ h₂ => ?_)
      fun _ _ _ h₂ => h₂.toHeld
    exact fun _ _ => h₂.toHeld.add _

theorem yields_renewOnRoute (h : Ready id before w l) (connection : Connection)
    (subscription : Subscription) :
    Yields (fun w' l' out => Held id before w' l' ∧ (out = .ok false → Ready id before w' l')) w l
      (renewOnRoute settings connection subscription) := by
  refine yields_inert_bind (makes_ask (r := .selectRoute connection.id) trivial)
    (fun w₁ l₁ route hrest => ?_) fun _ _ _ hrest => ⟨(h.rest hrest).toHeld, nofun⟩
  have h₁ := h.rest hrest
  cases route with
  | none => exact ⟨h₁.toHeld, fun _ => h₁⟩
  | some route =>
      refine ensuresIf_bind (yields_renewSubscription h₁ connection subscription)
        (fun w₂ l₂ _ h₂ => ?_) fun _ _ _ h₂ => ⟨h₂, nofun⟩
      refine ensuresIf_bind (yields_assign_held h₂ ?_) ?_ ?_
      · rintro stamp a a' ⟨⟩
        exact .inl rfl
      · rintro w₃ l₃ _ ⟨rfl, h₃, -⟩
        exact ⟨h₃, nofun⟩
      · rintro w₃ l₃ e ⟨rfl, h₃, -⟩
        exact ⟨h₃, nofun⟩

theorem yields_renewUnderLock (h : Ready id before w l) (connection : Connection)
    (subscription : Subscription) :
    Yields (fun w' l' out => Held id before w' l' ∧ (out = .ok none → Ready id before w' l')) w l
      (renewUnderLock settings connection subscription) := by
  refine ensuresIf_attempt_bind (yields_renewOnRoute h connection subscription) ?_
  rintro w₁ l₁ (e | renewed) ⟨h₁, hready⟩
  · refine ensuresIf_bind (yields_assign_held h₁ ?_) ?_ ?_
    · rintro stamp a a' ⟨⟩
      exact .inr rfl
    · rintro w₂ l₂ _ ⟨rfl, h₂, -⟩
      exact fun _ _ => ⟨h₂.add _, nofun⟩
    · rintro w₂ l₂ e ⟨rfl, h₂, -⟩
      exact ⟨h₂, nofun⟩
  · cases renewed with
    | true => exact ⟨h₁, nofun⟩
    | false => exact ⟨h₁, fun _ => hready rfl⟩

theorem yields_commit_ready (h : Held id before w l) :
    Yields (fun w' l' _ => Ready id before w' l') w l commit :=
  (yields_commit h).mono fun _ _ _ hdone => ⟨hdone.1, appliable_of_nil hdone.2⟩

theorem yields_renewLocked (h : Ready id before w l) (connection : Connection)
    (subscription : Subscription) (token : Nat) (report : RenewalReport) :
    Yields (fun w' l' out => Held id before w' l' ∧ ∀ r, out = .ok r → Ready id before w' l') w l
      (renewLocked settings connection subscription token report) := by
  refine ensuresIf_bind (yields_renewUnderLock h connection subscription) ?_
    fun _ _ _ hdone => ⟨hdone.1, nofun⟩
  rintro w₁ l₁ outcome ⟨h₁, hready⟩
  refine ensuresIf_bind (yields_releaseLock id (.renew subscription.id) token) ?_ ?_
  · rintro w₂ l₂ _ ⟨-, hrest⟩
    have h₂ := h₁.rest hrest
    cases outcome with
    | none => exact ⟨h₂, fun _ _ => (hready rfl).rest hrest⟩
    | some renewed =>
        cases renewed with
        | true =>
            exact ensuresIf_bind (yields_commit_ready h₂)
              (fun _ _ _ h₃ => ⟨h₃.toHeld, fun _ _ => h₃⟩) fun _ _ _ h₃ => ⟨h₃.toHeld, nofun⟩
        | false =>
            exact ensuresIf_bind (yields_commit_ready h₂)
              (fun _ _ _ h₃ => ⟨h₃.toHeld, fun _ _ => h₃⟩) fun _ _ _ h₃ => ⟨h₃.toHeld, nofun⟩
  · rintro w₂ l₂ e ⟨hout, -⟩
    cases hout

theorem yields_renewOne (h : Ready id before w l) (subscription : Subscription)
    (report : RenewalReport) :
    Yields (fun w' l' out => Held id before w' l' ∧ ∀ r, out = .ok r → Ready id before w' l') w l
      (renewOne settings subscription report) := by
  refine yields_ask_bind fun c w₁ l₁ found hserved => ?_
  obtain ⟨rfl, h₁⟩ := h.getConnection hserved
  cases found with
  | false => exact ⟨h₁.toHeld, fun _ _ => h₁⟩
  | true =>
      refine yields_inert_bind (makes_readObject trivial) (fun w₂ l₂ connection hrest => ?_)
        fun _ _ _ hrest => ⟨(h₁.rest hrest).toHeld, nofun⟩
      have h₂ := h₁.rest hrest
      split
      · exact ⟨h₂.toHeld, fun _ _ => h₂⟩
      · refine yields_inert_bind (makes_ask (r := .acquireLock (.renew subscription.id)) trivial)
          (fun w₃ l₃ token hrest => ?_) fun _ _ _ hrest => ⟨(h₂.rest hrest).toHeld, nofun⟩
        have h₃ := h₂.rest hrest
        cases token with
        | none => exact ⟨h₃.toHeld, fun _ _ => h₃⟩
        | some token => exact yields_renewLocked h₃ connection subscription token report

theorem yields_renewEach (h : Ready id before w l) (subscriptions : List Subscription)
    (report : RenewalReport) :
    Yields (fun w' l' _ => Held id before w' l') w l
      (renewEach settings subscriptions report) := by
  induction subscriptions generalizing w l report with
  | nil => exact h.toHeld
  | cons subscription rest ih =>
      exact ensuresIf_bind (yields_renewOne h subscription report)
        (fun _ _ counted hdone => ih (hdone.2 counted rfl) counted) fun _ _ _ hdone => hdone.1

theorem yields_renewTenants (h : Held id before w l) (horizon : DirectoryStore.Instant)
    (tenants : List Tenant) :
    Yields (fun w' l' _ => Held id before w' l') w l (renewTenants settings horizon tenants) := by
  induction tenants generalizing w l with
  | nil => exact h
  | cons tenant rest ih =>
      have htenant : Yields (fun w' l' _ => Held id before w' l') w l
          (renewTenant settings horizon tenant) := by
        refine yields_ask_bind fun c w₁ l₁ _ hserved => ?_
        cases hserved
        have hopened := h.ready_opened tenant.id
        refine yields_inert_bind (makes_ask (r := .selectExpiringSubscriptions horizon) trivial)
          (fun w₂ l₂ expiring hrest => ?_) fun _ _ _ hrest => (hopened.rest hrest).toHeld
        exact ensuresIf_bind (yields_renewEach (hopened.rest hrest) expiring _)
          (fun _ _ _ hdone => hdone) fun _ _ _ hdone => hdone
      refine ensuresIf_bind htenant (fun w₁ l₁ report h₁ => ?_) fun _ _ _ hdone => hdone
      exact ensuresIf_bind (ih h₁) (fun _ _ _ hdone => hdone) fun _ _ _ hdone => hdone

theorem yields_renewExpiringSubscriptions (h : Held id before w l) :
    Yields (fun w' l' _ => Held id before w' l') w l
      (ConnectorService.renewExpiringSubscriptions settings) := by
  refine yields_inert_bind (makes_ask (r := .now) trivial) (fun w₁ l₁ now hrest => ?_)
    fun _ _ _ => h.rest
  have h₁ := h.rest hrest
  refine yields_inert_bind (makes_ask (r := .activeTenants) trivial)
    (fun w₂ l₂ tenants hrest => ?_) fun _ _ _ => h₁.rest
  exact yields_renewTenants (h₁.rest hrest) _ tenants

end RenewalBeat

section Runs

variable {settings : Settings} {id : Nat} {before : List AuditEvent} {w : World Unit}

theorem yields_proc (h : Held id before w {}) (operation : Operation) :
    Yields (fun w' l' _ => Held id before w' l') w {} (operation.proc settings) := by
  cases operation with
  | refreshExpiringTokens =>
      exact ensuresIf_bind (yields_refreshExpiringTokens h) (fun _ _ _ hdone => hdone)
        fun _ _ _ hdone => hdone
  | renewExpiringSubscriptions =>
      exact ensuresIf_bind (yields_renewExpiringSubscriptions h) (fun _ _ _ hdone => hdone)
        fun _ _ _ hdone => hdone
  | capabilityCall tenantId connectionId name requests => exact yields_capabilityCall h _ _ _ _

theorem Held.perform (h : Held id before w {}) {turn : Turn}
    (hmeets : EvalMeets (serve anyAnswer) KeepsMark (turn.1.proc settings) w {} turn.2) :
    Held id before (perform settings w turn) {} := by
  have hdone := eval_of_ensuresIf (yields_proc h turn.1) turn.2 hmeets
  exact Held.opened hdone rfl

theorem Held.performAll (h : Held id before w {}) {turns : List Turn}
    (hmeets : AllKeepMark settings w turns) : Held id before (performAll settings w turns) {} := by
  induction turns generalizing w with
  | nil => exact h
  | cons turn rest ih => exact ih (h.perform hmeets.1) hmeets.2

theorem held_of_not_refused (hkeys : (w.tables.connections.map (·.id)).Nodup)
    (hnone : .refused id ∉ w.history) : Held id w.tables.directory.auditEvents w {} where
  keys := hkeys
  grown := ⟨[], (List.append_nil _).symm⟩
  stored := by
    intro o ho
    cases ho
  single := by
    intro connectionId o ho
    cases ho
  marked := fun hrefused => absurd hrefused hnone
  told := fun hrefused => absurd hrefused hnone

theorem mem_history_serve {event : Event} {l : Session} (r : Request) (c : Choice)
    (h : event ∈ w.history) : event ∈ (serve anyAnswer w l r c).1.history := by
  cases r with
  | exchange | exchangeCode | accountInfo | revokeRemote | callApi =>
      exact List.mem_append_left _ h
  | commit =>
      simp only [serve, World.commit]
      split
      · exact List.mem_append_left _ h
      · exact h
  | commitControl =>
      simp only [serve, World.commitControl]
      split
      · exact h
      · exact h
  | acquireLock name =>
      simp only [serve, World.acquireLock]
      split
      · exact h
      · exact h
  | getConnection connectionId =>
      simp only [serve]
      repeat' split
      all_goals exact h
  | findConnection provider kind accountLabel =>
      simp only [serve]
      repeat' split
      all_goals exact h
  | refreshObject connectionId =>
      simp only [serve]
      repeat' split
      all_goals exact h
  | assign connectionId value =>
      simp only [serve]
      repeat' split
      all_goals exact h
  | _ => exact h

theorem mem_history_performAll {event : Event} {turns : List Turn} (h : event ∈ w.history) :
    event ∈ (performAll settings w turns).history := by
  induction turns generalizing w with
  | nil => exact h
  | cons turn rest ih =>
      have hone : event ∈ (perform settings w turn).history :=
        eval_invariant (G := fun (w : World Unit) _ => event ∈ w.history)
          (fun _ _ r c hevent _ => mem_history_serve r c hevent)
          (follows_any (serve anyAnswer) {} (turn.1.proc settings)) h
      exact ih hone

theorem performAll_append (w : World Unit) (first rest : List Turn) :
    performAll settings w (first ++ rest) =
      performAll settings (performAll settings w first) rest := by
  induction first generalizing w with
  | nil => rfl
  | cons turn first ih => exact ih _

theorem allKeepMark_append {first rest : List Turn} :
    AllKeepMark settings w (first ++ rest) ↔
      AllKeepMark settings w first ∧ AllKeepMark settings (performAll settings w first) rest := by
  induction first generalizing w with
  | nil => exact ⟨fun hrest => ⟨trivial, hrest⟩, And.right⟩
  | cons turn first ih => exact (and_congr_right fun _ => ih).trans and_assoc.symm

theorem Reported.ensures_connectorReconsent (h : Reported id before w.tables) (l : Session)
    (tenantId : Nat) (slug returnHost : String) (actor : User) :
    Ensures (serve anyAnswer) (fun _ _ out => ∀ message, out ≠ .error (.http 409 message)) w l
      (connectorReconsent settings tenantId slug returnHost actor id) := by
  refine ensures_request_bind.mpr fun _ => ensures_request_bind.mpr fun _ => ?_
  simp only [serve, Session.object?, List.find?_nil]
  cases hrow : w.tables.connections.find? fun c => c.id == id && c.tenantId == tenantId with
  | none =>
      intro message hout
      cases hout
  | some row =>
      have hid : row.id = id := by
        have hfound := List.find?_some hrow
        simp only [Bool.and_eq_true, beq_iff_eq] at hfound
        exact hfound.1
      have hstatus := h.2.1 row (List.mem_of_find?_eq_some hrow) hid
      refine ensures_request_bind.mpr fun _ => ?_
      simp only [serve, Session.load, Session.object?, List.find?_nil, List.find?_cons,
        Object.ofRow, hid, beq_self_eq_true]
      simp only [Option.map_some, Proc.bind, Proc.pure_eq]
      split
      · rename_i hother
        exact absurd hstatus hother
      · split
        · intro message hout
          cases hout
        · rename_i e hother hcredentials
          obtain ⟨message, rfl⟩ := clientCredentials_eq_error hcredentials
          exact absurd rfl (hother message)
        · intro message hout
          cases hout

theorem Reported.reconsentable (h : Reported id before w.tables) :
    Reconsentable settings id w := fun tenantId slug returnHost actor l choices =>
  eval_of_ensures (h.ensures_connectorReconsent l tenantId slug returnHost actor) choices

end Runs

/-- When an operation is answered that the refresh token of a connection is refused, the
connection waits for a new consent once that operation has ended, with an event that it
recorded, and it still does after any operations that follow: a new consent may be asked
for. -/
theorem refused_consent_sticks (settings : Settings) {w : World Unit}
    (hkeys : (w.tables.connections.map (·.id)).Nodup) {first rest : List Turn} {turn : Turn}
    (hmeets : AllKeepMark settings w (first ++ turn :: rest)) {connectionId : Nat}
    (hbefore : .refused connectionId ∉ (performAll settings w first).history)
    (hrefused : .refused connectionId ∈ (performAll settings w (first ++ [turn])).history) :
    Reported connectionId (performAll settings w first).tables.directory.auditEvents
        (performAll settings w (first ++ turn :: rest)).tables ∧
      Reconsentable settings connectionId (performAll settings w (first ++ turn :: rest)) := by
  obtain ⟨hfirst, hrest⟩ := allKeepMark_append.mp hmeets
  have hstart := (held_of_not_refused hkeys fun h => hbefore (mem_history_performAll h)).performAll
    hfirst
  have hend := (held_of_not_refused hstart.keys hbefore).performAll hrest
  rw [performAll_append] at hrefused ⊢
  have hlast : .refused connectionId ∈
      (performAll settings (performAll settings w first) (turn :: rest)).history := by
    rw [← List.singleton_append, performAll_append]
    exact mem_history_performAll hrefused
  have hreported := hend.told hlast
  exact ⟨hreported, hreported.reconsentable⟩

/-- An expired Microsoft connection with a subscription that expires. -/
def subscribed : World Unit where
  tables := tablesWith [expiredConnection 1] [⟨7, 1, 1, "mail", py "subscription-1", 0, ""⟩]
    [⟨"route-key", "microsoft", 1, 1⟩]
  locks := []
  queue := []
  endpoint := ()
  history := []

/-- The token endpoint refuses, and Graph then answers 401 to the access token it knew. -/
def lapsed : Nat → Choice := fun n =>
  { answer := if n < 20 then invalidGrantAnswer else .response ⟨401, .json (.obj [])⟩ }

def refusal? : Event → Option Nat
  | .refused connectionId => some connectionId
  | _ => none

theorem mem_refused {history : List Event} {connectionId : Nat}
    (h : connectionId ∈ history.filterMap refusal?) : .refused connectionId ∈ history := by
  obtain ⟨event, hevent, hid⟩ := List.mem_filterMap.mp h
  cases event with
  | refused other =>
      cases hid
      exact hevent
  | _ => cases hid

/-- A renewal beat after the refusal leaves the connection alone. -/
theorem refused_in_refresh_beat :
    (subscribed.tables.connections.map (·.id)).Nodup ∧
      AllKeepMark configured subscribed
        [(.refreshExpiringTokens, lapsed), (.renewExpiringSubscriptions, lapsed)] ∧
      Reported 1 [] (performAll configured subscribed
        [(.refreshExpiringTokens, lapsed), (.renewExpiringSubscriptions, lapsed)]).tables ∧
      Reconsentable configured 1 (performAll configured subscribed
        [(.refreshExpiringTokens, lapsed), (.renewExpiringSubscriptions, lapsed)]) := by
  have hkeys : (subscribed.tables.connections.map (·.id)).Nodup := by decide
  have hmeets : AllKeepMark configured subscribed
      ([] ++ (.refreshExpiringTokens, lapsed) :: [(.renewExpiringSubscriptions, lapsed)]) := by
    decide +kernel
  refine ⟨hkeys, hmeets, refused_consent_sticks configured hkeys hmeets ?_ ?_⟩
  · intro h
    cases h
  · exact mem_refused (by decide +kernel)

/-- The refusal comes in a renewal, which then fails: its handler writes ERROR, which the
re-consent route does not accept. -/
theorem refused_in_renewal :
    .refused 1 ∈ (performAll configured subscribed
        [(.renewExpiringSubscriptions, lapsed)]).history ∧
      ((performAll configured subscribed
        [(.renewExpiringSubscriptions, lapsed)]).tables.connections.map
          (·.attributes.status)) = [.error] ∧
      ¬ Reported 1 [] (performAll configured subscribed
        [(.renewExpiringSubscriptions, lapsed)]).tables := by
  have hstatus : ((performAll configured subscribed
      [(.renewExpiringSubscriptions, lapsed)]).tables.connections.map
        (·.attributes.status)) = [.error] := by decide +kernel
  refine ⟨mem_refused (by decide +kernel), hstatus, fun ⟨⟨row, hrow, hid⟩, hall, _⟩ => ?_⟩
  have herror : row.attributes.status ∈ [ConnectionStatus.error] :=
    hstatus ▸ List.mem_map_of_mem hrow
  rw [hall row hrow hid] at herror
  cases List.mem_singleton.mp herror

end Socle.ConsentLoss
