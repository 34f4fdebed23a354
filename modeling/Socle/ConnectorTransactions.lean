import Socle.ConnectorService

/-!
What loads, assignments and commits do to the connections of the identity map
and of the database.
-/

namespace Socle.ConnectorTransactions

open Socle.Procedures
open Socle.TokenExchange
open Socle.ConnectorStore
open Socle.ConnectorService

theorem mem_of_object? {l : Session} {connectionId : Nat} {o : Object}
    (h : l.object? connectionId = some o) : o ∈ l.objects ∧ o.row.id = connectionId := by
  refine ⟨List.mem_of_find?_eq_some h, ?_⟩
  simpa using List.find?_some h

theorem mem_load {l : Session} {mark : Nat} {row : Connection} {o : Object}
    (h : o ∈ (l.load mark row).objects) : o ∈ l.objects ∨ o = Object.ofRow mark row := by
  unfold Session.load at h
  split at h
  · exact .inl h
  · rcases List.mem_cons.mp h with rfl | hold
    · exact .inr rfl
    · exact .inl hold

theorem mem_load_of_mem {l : Session} {mark : Nat} {row : Connection} {o : Object}
    (h : o ∈ l.objects) : o ∈ (l.load mark row).objects := by
  unfold Session.load
  split
  · exact h
  · exact List.mem_cons_of_mem _ h

@[simp] theorem load_tenantId (l : Session) (mark : Nat) (row : Connection) :
    (l.load mark row).tenantId = l.tenantId := by
  unfold Session.load
  split <;> rfl

@[simp] theorem load_issued (l : Session) (mark : Nat) (row : Connection) :
    (l.load mark row).issued = l.issued := by
  unfold Session.load
  split <;> rfl

@[simp] theorem load_pending (l : Session) (mark : Nat) (row : Connection) :
    (l.load mark row).pending = l.pending := by
  unfold Session.load
  split <;> rfl

@[simp] theorem load_control (l : Session) (mark : Nat) (row : Connection) :
    (l.load mark row).control = l.control := by
  unfold Session.load
  split <;> rfl

theorem mem_loadAll {l : Session} {mark : Nat} {rows : List Connection} {o : Object}
    (h : o ∈ (Session.loadAll mark l rows).objects) :
    o ∈ l.objects ∨ ∃ row ∈ rows, o = Object.ofRow mark row := by
  induction rows generalizing l with
  | nil => exact .inl h
  | cons row rest ih =>
      rcases ih h with hload | ⟨r, hr, rfl⟩
      · rcases mem_load hload with hold | rfl
        · exact .inl hold
        · exact .inr ⟨row, List.mem_cons_self, rfl⟩
      · exact .inr ⟨r, List.mem_cons_of_mem _ hr, rfl⟩

@[simp] theorem loadAll_issued (l : Session) (mark : Nat) (rows : List Connection) :
    (Session.loadAll mark l rows).issued = l.issued := by
  induction rows generalizing l with
  | nil => rfl
  | cons row rest ih => rw [Session.loadAll, ih, load_issued]

@[simp] theorem loadAll_pending (l : Session) (mark : Nat) (rows : List Connection) :
    (Session.loadAll mark l rows).pending = l.pending := by
  induction rows generalizing l with
  | nil => rfl
  | cons row rest ih => rw [Session.loadAll, ih, load_pending]

@[simp] theorem loadAll_control (l : Session) (mark : Nat) (rows : List Connection) :
    (Session.loadAll mark l rows).control = l.control := by
  induction rows generalizing l with
  | nil => rfl
  | cons row rest ih => rw [Session.loadAll, ih, load_control]

@[simp] theorem loadAll_tenantId (l : Session) (mark : Nat) (rows : List Connection) :
    (Session.loadAll mark l rows).tenantId = l.tenantId := by
  induction rows generalizing l with
  | nil => rfl
  | cons row rest ih => rw [Session.loadAll, ih, load_tenantId]

theorem mem_update {l : Session} {connectionId : Nat} {f : Object → Object} {o : Object}
    (h : o ∈ (l.update connectionId f).objects) :
    ∃ old ∈ l.objects, (old.row.id = connectionId ∧ o = f old) ∨
      (old.row.id ≠ connectionId ∧ o = old) := by
  obtain ⟨old, hold, rfl⟩ := List.mem_map.mp h
  refine ⟨old, hold, ?_⟩
  by_cases hid : old.row.id = connectionId
  · exact .inl ⟨hid, by simp [hid]⟩
  · exact .inr ⟨hid, by simp [hid]⟩

@[simp] theorem update_issued (l : Session) (connectionId : Nat) (f : Object → Object) :
    (l.update connectionId f).issued = l.issued := rfl

@[simp] theorem update_pending (l : Session) (connectionId : Nat) (f : Object → Object) :
    (l.update connectionId f).pending = l.pending := rfl

theorem object?_update_eq {l : Session} {connectionId id : Nat} {f : Object → Object}
    (hf : ∀ o : Object, (f o).row.id = o.row.id) :
    (l.update id f).object? connectionId =
      (l.object? connectionId).map fun o => if o.row.id = id then f o else o := by
  have hkey : ((fun o : Object => o.row.id == connectionId) ∘
      fun o => if o.row.id = id then f o else o) = fun o => o.row.id == connectionId := by
    funext x
    by_cases hid : x.row.id = id <;> simp [hid, hf x]
  unfold Session.object? Session.update
  rw [List.find?_map, hkey]

theorem object?_update {l : Session} {connectionId : Nat} {f : Object → Object} {o : Object}
    (hf : ∀ o : Object, (f o).row.id = o.row.id) (h : l.object? connectionId = some o) :
    (l.update connectionId f).object? connectionId = some (f o) := by
  rw [object?_update_eq hf, h, Option.map_some, if_pos (mem_of_object? h).2]

theorem object?_update_of_ne {l : Session} {connectionId id : Nat} {f : Object → Object}
    (hf : ∀ o : Object, (f o).row.id = o.row.id) (hid : id ≠ connectionId) :
    (l.update id f).object? connectionId = l.object? connectionId := by
  rw [object?_update_eq hf]
  cases h : l.object? connectionId with
  | none => rfl
  | some o =>
      have hne : o.row.id ≠ id := by
        rw [(mem_of_object? h).2]
        exact hid.symm
      rw [Option.map_some, if_neg hne]

/-- At most one object of the session stands for the connection. -/
def oneObject (connectionId : Nat) (l : Session) : Prop :=
  ∀ o ∈ l.objects, ∀ o' ∈ l.objects, o.row.id = connectionId → o'.row.id = connectionId → o = o'

theorem oneObject_load {connectionId : Nat} {l : Session} (mark : Nat) (row : Connection)
    (h : oneObject connectionId l) : oneObject connectionId (l.load mark row) := by
  unfold Session.load
  split
  · exact h
  · rename_i hnone
    have habsent : ∀ o ∈ l.objects, o.row.id ≠ row.id := by
      intro o ho hid
      exact absurd (List.find?_eq_none.mp hnone o ho) (by simp [hid])
    intro o ho o' ho' hid hid'
    rcases List.mem_cons.mp ho with rfl | hold <;> rcases List.mem_cons.mp ho' with rfl | hold'
    · rfl
    · exact absurd (hid'.trans hid.symm) (habsent o' hold')
    · exact absurd (hid.trans hid'.symm) (habsent o hold)
    · exact h o hold o' hold' hid hid'

theorem oneObject_loadAll {connectionId : Nat} {l : Session} (mark : Nat)
    (rows : List Connection) (h : oneObject connectionId l) :
    oneObject connectionId (Session.loadAll mark l rows) := by
  induction rows generalizing l with
  | nil => exact h
  | cons row rest ih => exact ih (oneObject_load mark row h)

theorem oneObject_map {connectionId : Nat} {l l' : Session} {f : Object → Object}
    (hf : ∀ o : Object, (f o).row.id = o.row.id) (h : oneObject connectionId l)
    (hl' : l'.objects = l.objects.map f) : oneObject connectionId l' := by
  intro o ho o' ho' hid hid'
  rw [hl'] at ho ho'
  obtain ⟨x, hx, rfl⟩ := List.mem_map.mp ho
  obtain ⟨x', hx', rfl⟩ := List.mem_map.mp ho'
  rw [hf] at hid hid'
  rw [h x hx x' hx' hid hid']

theorem oneObject_update {connectionId id : Nat} {l : Session} {f : Object → Object}
    (hf : ∀ o : Object, (f o).row.id = o.row.id) (h : oneObject connectionId l) :
    oneObject connectionId (l.update id f) := by
  refine oneObject_map (f := fun o => if o.row.id = id then f o else o) ?_ h rfl
  intro o
  split
  · exact hf o
  · rfl

theorem connections_apply {t t' : Tables} {change : Change} (happly : t.apply change = .ok t') :
    t'.connections = t.connections := by
  cases change with
  | addSubscription _ =>
      simp only [Tables.apply] at happly
      split at happly
      · cases happly
      · cases happly
        rfl
  | setExpiry _ _ =>
      simp only [Tables.apply] at happly
      split at happly
      · cases happly
        rfl
      · cases happly
  | addRoute _ =>
      simp only [Tables.apply] at happly
      split at happly
      · cases happly
      · cases happly
        rfl
  | _ =>
      cases happly
      rfl

theorem connections_applyAll {t t' : Tables} {changes : List Change}
    (happly : t.applyAll changes = .ok t') : t'.connections = t.connections := by
  induction changes generalizing t with
  | nil =>
      cases happly
      rfl
  | cons change rest ih =>
      simp only [Tables.applyAll] at happly
      split at happly
      · rename_i u hu
        rw [ih happly, connections_apply hu]
      · cases happly

/-- The columns of a row once the objects of its primary key are flushed. -/
def writes (connectionId : Nat) (objects : List Object) (a : Attributes) : Attributes :=
  objects.foldl (fun a o =>
    if o.row.id = connectionId then Attributes.write o.row.attributes o.current a else a) a

@[simp] theorem Attributes.write_same (loaded row : Attributes) :
    Attributes.write loaded loaded row = row := by
  simp [Attributes.write]

theorem mem_writeObject {connectionId : Nat} {t t' : Tables} {o : Object}
    (hwrite : t.writeObject o = .ok t') (hnew : o.row.id = connectionId → o.isNew = false)
    {row' : Connection} (hmem : row' ∈ t'.connections) (hid : row'.id = connectionId) :
    ∃ row ∈ t.connections, row.id = connectionId ∧
      row' = { row with attributes := writes connectionId [o] row.attributes } := by
  simp only [Tables.writeObject] at hwrite
  split at hwrite
  · rename_i hisNew
    split at hwrite
    · cases hwrite
    · cases hwrite
      rcases List.mem_append.mp hmem with hold | hadd
      · refine ⟨row', hold, hid, ?_⟩
        have hother : o.row.id ≠ connectionId := fun h => by simp [hnew h] at hisNew
        simp [writes, hother]
      · rw [List.mem_singleton.mp hadd] at hid
        have := hnew hid
        simp [this] at hisNew
  · split at hwrite
    · rename_i hsame
      cases hwrite
      refine ⟨row', hmem, hid, ?_⟩
      simp [writes, hsame]
    · split at hwrite
      · cases hwrite
        obtain ⟨row, hrow, rfl⟩ := List.mem_map.mp hmem
        refine ⟨row, hrow, ?_⟩
        by_cases hown : row.id = o.row.id
        · simp only [hown, if_true] at hid ⊢
          simp [writes, hid]
        · simp only [if_neg hown] at hid ⊢
          refine ⟨hid, ?_⟩
          have hother : o.row.id ≠ connectionId := fun h => hown (hid.trans h.symm)
          simp [writes, hother]
      · cases hwrite

theorem mem_writeObjects {connectionId : Nat} {t t' : Tables} {objects : List Object}
    (hwrite : t.writeObjects objects = .ok t')
    (hnew : ∀ o ∈ objects, o.row.id = connectionId → o.isNew = false)
    {row' : Connection} (hmem : row' ∈ t'.connections) (hid : row'.id = connectionId) :
    ∃ row ∈ t.connections, row.id = connectionId ∧
      row' = { row with attributes := writes connectionId objects row.attributes } := by
  induction objects generalizing t with
  | nil =>
      cases hwrite
      exact ⟨row', hmem, hid, rfl⟩
  | cons o rest ih =>
      simp only [Tables.writeObjects] at hwrite
      split at hwrite
      · rename_i u hu
        obtain ⟨mid, hmid, hmidId, rfl⟩ :=
          ih hwrite fun x hx => hnew x (List.mem_cons_of_mem _ hx)
        obtain ⟨row, hrow, hrowId, rfl⟩ := mem_writeObject hu (hnew o List.mem_cons_self) hmid hmidId
        exact ⟨row, hrow, hrowId, rfl⟩
      · cases hwrite

theorem commit_eq_ok {t t' : Tables} {objects : List Object} {changes : List Change}
    (h : t.commit objects changes = .ok t') :
    ∃ u, t.writeObjects objects = .ok u ∧ u.applyAll changes = .ok t' := by
  simp only [Tables.commit] at h
  split at h
  · rename_i u hu
    exact ⟨u, hu, h⟩
  · cases h

/-- One column of a flush: no object of the row changed it and it is left
alone, or it is the value of an object that changed it. -/
theorem writes_column {β : Type} [DecidableEq β] {f : Attributes → β}
    (hf : ∀ loaded current row,
      f (Attributes.write loaded current row) = column (f loaded) (f current) (f row))
    (connectionId : Nat) (objects : List Object) (a : Attributes) :
    (f (writes connectionId objects a) = f a ∧
        ∀ o ∈ objects, o.row.id = connectionId → f o.current = f o.row.attributes) ∨
      ∃ o ∈ objects, o.row.id = connectionId ∧ f o.current ≠ f o.row.attributes ∧
        f (writes connectionId objects a) = f o.current := by
  induction objects generalizing a with
  | nil => exact .inl ⟨rfl, by simp⟩
  | cons o rest ih =>
      have hstep : writes connectionId (o :: rest) a =
          writes connectionId rest (writes connectionId [o] a) := rfl
      rcases ih (writes connectionId [o] a) with ⟨hrest, hsame⟩ | ⟨x, hx, hid, hchanged, hvalue⟩
      · by_cases hid : o.row.id = connectionId
        · have hone : f (writes connectionId [o] a) =
              column (f o.row.attributes) (f o.current) (f a) := by
            simp [writes, hid, hf]
          by_cases hcol : f o.current = f o.row.attributes
          · refine .inl ⟨?_, ?_⟩
            · rw [hstep, hrest, hone, hcol, column_same]
            · intro x hx hxid
              rcases List.mem_cons.mp hx with rfl | hx
              · exact hcol
              · exact hsame x hx hxid
          · refine .inr ⟨o, List.mem_cons_self, hid, hcol, ?_⟩
            rw [hstep, hrest, hone, column, if_neg hcol]
        · refine .inl ⟨?_, ?_⟩
          · rw [hstep, hrest]
            simp [writes, hid]
          · intro x hx hxid
            rcases List.mem_cons.mp hx with rfl | hx
            · exact absurd hxid hid
            · exact hsame x hx hxid
      · exact .inr ⟨x, List.mem_cons_of_mem _ hx, hid, hchanged, hvalue⟩

theorem writes_column_of_oneObject {β : Type} [DecidableEq β] {f : Attributes → β}
    (hf : ∀ loaded current row,
      f (Attributes.write loaded current row) = column (f loaded) (f current) (f row))
    {connectionId : Nat} {l : Session} (hsingle : oneObject connectionId l) {o : Object}
    (ho : o ∈ l.objects) (hid : o.row.id = connectionId) (a : Attributes) :
    f (writes connectionId l.objects a) = column (f o.row.attributes) (f o.current) (f a) := by
  rcases writes_column hf connectionId l.objects a with ⟨heq, hsame⟩ | ⟨x, hx, hxid, hchanged, heq⟩
  · rw [heq, hsame o ho hid, column_same]
  · have hxo : x = o := hsingle x hx o ho hxid hid
    subst hxo
    rw [heq, column, if_neg hchanged]

theorem hasConnection_writeObject {connectionId : Nat} {t t' : Tables} {o : Object}
    (hwrite : t.writeObject o = .ok t') (h : t.hasConnection connectionId = true) :
    t'.hasConnection connectionId = true := by
  obtain ⟨row, hrow, hid⟩ := List.any_eq_true.mp h
  simp only [Tables.writeObject] at hwrite
  split at hwrite
  · split at hwrite
    · cases hwrite
    · cases hwrite
      exact List.any_eq_true.mpr ⟨row, List.mem_append_left _ hrow, hid⟩
  · split at hwrite
    · cases hwrite
      exact h
    · split at hwrite
      · cases hwrite
        refine List.any_eq_true.mpr ⟨_, List.mem_map_of_mem hrow, ?_⟩
        split
        · exact hid
        · exact hid
      · cases hwrite

theorem hasConnection_writeObjects {connectionId : Nat} {t t' : Tables} {objects : List Object}
    (hwrite : t.writeObjects objects = .ok t') (h : t.hasConnection connectionId = true) :
    t'.hasConnection connectionId = true := by
  induction objects generalizing t with
  | nil =>
      cases hwrite
      exact h
  | cons o rest ih =>
      simp only [Tables.writeObjects] at hwrite
      split at hwrite
      · rename_i u hu
        exact ih hwrite (hasConnection_writeObject hu h)
      · cases hwrite

theorem isNew_of_writeObjects {connectionId : Nat} {t t' : Tables} {objects : List Object}
    (hwrite : t.writeObjects objects = .ok t') (h : t.hasConnection connectionId = true)
    (o : Object) (ho : o ∈ objects) (hid : o.row.id = connectionId) : o.isNew = false := by
  induction objects generalizing t with
  | nil => cases ho
  | cons x rest ih =>
      simp only [Tables.writeObjects] at hwrite
      split at hwrite
      · rename_i u hu
        rcases List.mem_cons.mp ho with rfl | ho
        · rw [← Bool.not_eq_true]
          intro hnew
          rw [Tables.writeObject, if_pos hnew, hid, if_pos h] at hu
          cases hu
        · exact ih hwrite (hasConnection_writeObject hu h) ho
      · cases hwrite

theorem subscriptions_writeObjects {t t' : Tables} {objects : List Object}
    (hwrite : t.writeObjects objects = .ok t') : t'.subscriptions = t.subscriptions := by
  induction objects generalizing t with
  | nil =>
      cases hwrite
      rfl
  | cons o rest ih =>
      simp only [Tables.writeObjects] at hwrite
      split at hwrite
      · rename_i u hu
        rw [ih hwrite]
        simp only [Tables.writeObject] at hu
        repeat' split at hu
        all_goals cases hu
        all_goals rfl
      · cases hwrite

theorem connectorEvents_applyAll {t t' : Tables} {changes : List Change}
    (happly : t.applyAll changes = .ok t') :
    ∃ new, t'.directory.auditEvents = t.directory.auditEvents ++ new ∧
      ∀ e, .addAuditEvent e ∈ changes ↔ e ∈ new := by
  induction changes generalizing t with
  | nil =>
      cases happly
      exact ⟨[], by simp, by simp⟩
  | cons change rest ih =>
      simp only [Tables.applyAll] at happly
      split at happly
      · rename_i t₁ hfirst
        obtain ⟨new, hnew, hmem⟩ := ih happly
        cases change with
        | addAuditEvent event =>
            cases hfirst
            refine ⟨event :: new, by simpa using hnew, fun e => ?_⟩
            simp [hmem]
        | _ =>
            have hsame : t₁.directory = t.directory := by
              simp only [Tables.apply] at hfirst
              repeat' split at hfirst
              all_goals cases hfirst
              all_goals rfl
            exact ⟨new, hsame ▸ hnew, fun e => by simp [hmem]⟩
      · cases happly

theorem directory_writeObjects {t t' : Tables} {objects : List Object}
    (hwrite : t.writeObjects objects = .ok t') : t'.directory = t.directory := by
  induction objects generalizing t with
  | nil =>
      cases hwrite
      rfl
  | cons o rest ih =>
      simp only [Tables.writeObjects] at hwrite
      split at hwrite
      · rename_i t₁ hfirst
        have hsame : t₁.directory = t.directory := by
          simp only [Tables.writeObject] at hfirst
          repeat' split at hfirst
          all_goals cases hfirst
          all_goals rfl
        exact (ih hwrite).trans hsame
      · cases hwrite

theorem connectorEvents_commit {t t' : Tables} {objects : List Object} {changes : List Change}
    (hcommit : t.commit objects changes = .ok t') :
    ∃ new, t'.directory.auditEvents = t.directory.auditEvents ++ new ∧
      ∀ e, .addAuditEvent e ∈ changes ↔ e ∈ new := by
  simp only [Tables.commit] at hcommit
  split at hcommit
  · rename_i t₁ hwrite
    rw [← directory_writeObjects hwrite]
    exact connectorEvents_applyAll hcommit
  · cases hcommit

theorem write_status (loaded current row : Attributes) :
    (Attributes.write loaded current row).status =
      column loaded.status current.status row.status := rfl

theorem write_accessTokenEnc (loaded current row : Attributes) :
    (Attributes.write loaded current row).accessTokenEnc =
      column loaded.accessTokenEnc current.accessTokenEnc row.accessTokenEnc := rfl

theorem write_refreshTokenEnc (loaded current row : Attributes) :
    (Attributes.write loaded current row).refreshTokenEnc =
      column loaded.refreshTokenEnc current.refreshTokenEnc row.refreshTokenEnc := rfl

theorem clientCredentials_eq_error {settings : Settings} {provider : ConnectorProvider}
    {e : Failure} (h : clientCredentials settings provider = .error e) :
    ∃ message, e = .connectorError message := by
  unfold clientCredentials at h
  cases provider with
  | google =>
      dsimp only at h
      split at h
      · exact ⟨_, (Except.error.inj h).symm⟩
      · cases h
  | microsoft =>
      dsimp only at h
      split at h
      · exact ⟨_, (Except.error.inj h).symm⟩
      · cases h

section Rules

variable {π α : Type} {endpoint : TokenEndpoint π} {allowed : Session → Request → Prop}
variable {l : Session}

theorem follows_ofExcept {Q : Session → Except Failure α → Prop} {x : Except Failure α}
    (h : Q l x) : Follows (serve endpoint) allowed Q l (.ofExcept x) := by
  cases x <;> exact h

theorem follows_ask_bind {Q : Session → Except Failure α → Prop} {r : Request}
    {f : Answer r → ConnectorProc α} (hallowed : allowed l r)
    (hf : ∀ w c a, a = (serve endpoint w l r c).2.2 →
      Follows (serve endpoint) allowed Q (serve endpoint w l r c).2.1 (f a)) :
    Follows (serve endpoint) allowed Q l (ask r >>= f) :=
  follows_request_bind.mpr ⟨hallowed, fun w c => hf w c _ rfl⟩

theorem follows_expiring_bind {Q : Session → Except Failure α → Prop} {connectionId : Nat}
    {lead : DirectoryStore.Instant} {f : Bool → ConnectorProc α}
    (hallowed : allowed l (.expiring connectionId lead))
    (hf : ∀ expiring, Follows (serve endpoint) allowed Q l (f expiring)) :
    Follows (serve endpoint) allowed Q l (ask (.expiring connectionId lead) >>= f) :=
  follows_ask_bind hallowed fun _ _ expiring _ => hf expiring

theorem follows_readObject {connectionId : Nat}
    (hallowed : allowed l (.readObject connectionId)) :
    Follows (serve endpoint) allowed
      (fun l' out => l' = l ∧ ∀ connection, out = .ok connection →
        ∃ o, l.object? connectionId = some o ∧ connection = o.view)
      l (readObject connectionId) := by
  refine follows_request_bind.mpr ⟨hallowed, fun w c => ?_⟩
  simp only [serve]
  cases h : l.object? connectionId with
  | none => exact ⟨rfl, by simp⟩
  | some o => exact ⟨rfl, fun connection hok => ⟨o, rfl, (Except.ok.inj hok).symm⟩⟩

/-- An assignment raises and changes nothing, or sets the attributes of the
object. -/
def Assigned (connectionId : Nat) (value : Stamp → Attributes → Except Failure Attributes)
    (l l' : Session) (out : Except Failure Unit) : Prop :=
  (out = .ok () ∧ l.object? connectionId = none ∧ l' = l) ∨
    (∃ o stamp a, out = .ok () ∧ l.object? connectionId = some o ∧
      value stamp o.current = .ok a ∧
      l' = l.update connectionId fun o => { o with current := a }) ∨
    ∃ o stamp e, out = .error e ∧ l.object? connectionId = some o ∧
      value stamp o.current = .error e ∧ l' = l

theorem assigned_serve (w : World π) (l : Session) (connectionId : Nat)
    (value : Stamp → Attributes → Except Failure Attributes) (c : Choice) :
    Assigned connectionId value l (serve endpoint w l (.assign connectionId value) c).2.1
      (serve endpoint w l (.assign connectionId value) c).2.2 := by
  simp only [serve]
  cases hobject : l.object? connectionId with
  | none => exact .inl ⟨rfl, hobject, rfl⟩
  | some o =>
      dsimp only
      cases hvalue : value ⟨c.now, c.nonce⟩ o.current with
      | ok a => exact .inr (.inl ⟨o, _, a, rfl, hobject, hvalue, rfl⟩)
      | error e => exact .inr (.inr ⟨o, _, e, rfl, hobject, hvalue, rfl⟩)

theorem follows_assign {connectionId : Nat}
    {value : Stamp → Attributes → Except Failure Attributes}
    (hallowed : allowed l (.assign connectionId value)) :
    Follows (serve endpoint) allowed (Assigned connectionId value l) l
      (assign connectionId value) :=
  follows_request_bind.mpr ⟨hallowed, fun w c => follows_ofExcept (assigned_serve w l _ _ c)⟩

theorem Assigned.issued {connectionId : Nat}
    {value : Stamp → Attributes → Except Failure Attributes} {l l' : Session}
    {out : Except Failure Unit} (h : Assigned connectionId value l l' out) :
    l'.issued = l.issued := by
  rcases h with ⟨-, -, rfl⟩ | ⟨o, stamp, a, -, -, -, rfl⟩ | ⟨o, stamp, e, -, -, -, rfl⟩
  · rfl
  · rfl
  · rfl

theorem Assigned.pending {connectionId : Nat}
    {value : Stamp → Attributes → Except Failure Attributes} {l l' : Session}
    {out : Except Failure Unit} (h : Assigned connectionId value l l' out) :
    l'.pending = l.pending := by
  rcases h with ⟨-, -, rfl⟩ | ⟨o, stamp, a, -, -, -, rfl⟩ | ⟨o, stamp, e, -, -, -, rfl⟩
  · rfl
  · rfl
  · rfl

theorem Assigned.object? {connectionId : Nat}
    {value : Stamp → Attributes → Except Failure Attributes} {l l' : Session}
    {out : Except Failure Unit} (h : Assigned connectionId value l l' out)
    (hobject : ∃ o, l.object? connectionId = some o) :
    ∃ o, l'.object? connectionId = some o := by
  rcases h with ⟨-, -, rfl⟩ | ⟨o, stamp, a, -, ho, -, rfl⟩ | ⟨o, stamp, e, -, -, -, rfl⟩
  · exact hobject
  · exact ⟨_, object?_update (fun _ => rfl) ho⟩
  · exact hobject

theorem follows_releaseLock {name : LockName} {token : Nat}
    (hholder : allowed l (.lockHolder name)) (hdelete : allowed l (.deleteLock name)) :
    Follows (serve endpoint) allowed (fun l' out => l' = l ∧ out = .ok ()) l
      (releaseLock name token) := by
  refine follows_request_bind.mpr ⟨hholder, fun w c => ?_⟩
  by_cases hheld : ((serve endpoint w l (.lockHolder name) c).2.2 : Option Nat) = some token
  · rw [if_pos hheld]
    exact ⟨hdelete, fun _ _ => ⟨rfl, rfl⟩⟩
  · rw [if_neg hheld]
    exact ⟨rfl, rfl⟩

/-- The backoff rule: what each failed attempt keeps is kept, and what a
successful one establishes holds. -/
theorem follows_runWithBackoff {P : Session → Prop} {Q : Session → α → Prop}
    {provider : ConnectorProvider} {attempt : ConnectorProc α}
    (hattempt : ∀ l, P l → Follows (serve endpoint) allowed
      (fun l out => (∀ a, out = .ok a → Q l a) ∧ ∀ e, out = .error e → P l) l attempt)
    (n : Nat) (hl : P l) :
    Follows (serve endpoint) allowed
      (fun l out => (∀ a, out = .ok a → Q l a) ∧ ∀ e, out = .error e → P l) l
      (runWithBackoff provider attempt n) := by
  induction n generalizing l with
  | zero => exact ⟨by simp, fun _ _ => hl⟩
  | succ n ih =>
      refine follows_attempt_bind (hattempt l hl) ?_
      rintro l (e | a) ⟨hok, herror⟩
      · have hkept := herror e rfl
        split
        · rename_i h
          cases h
        · split
          · exact ih hkept
          · exact ⟨by simp, fun _ _ => hkept⟩
        · exact ⟨by simp, fun _ _ => hkept⟩
      · exact ⟨hok, by simp⟩

end Rules

section Requests

variable {α : Type} {made : Request → Prop}

theorem makes_ofExcept (x : Except Failure α) :
    Makes (I := ConnectorInterface) made (.ofExcept x) := by
  cases x <;> trivial

theorem makes_readObject {connectionId : Nat} (hread : made (.readObject connectionId)) :
    Makes (I := ConnectorInterface) made (readObject connectionId) := by
  refine makes_request_bind.mpr ⟨hread, fun connection => ?_⟩
  cases connection <;> trivial

theorem makes_releaseLock {name : LockName} {token : Nat} (hholder : made (.lockHolder name))
    (hdelete : made (.deleteLock name)) :
    Makes (I := ConnectorInterface) made (releaseLock name token) := by
  refine makes_request_bind.mpr ⟨hholder, fun holder => ?_⟩
  split
  · exact ⟨hdelete, fun _ => trivial⟩
  · trivial

theorem makes_waitForLock {name : LockName} (hacquire : made (.acquireLock name)) (n : Nat) :
    Makes (I := ConnectorInterface) made (waitForLock name n) := by
  induction n with
  | zero => trivial
  | succ n ih =>
      refine makes_request_bind.mpr ⟨hacquire, fun token => ?_⟩
      cases token with
      | none => exact ih
      | some token => trivial

/-- The requests of `lockForRefresh`. -/
def locking (connectionId : Nat) : Request → Prop
  | .acquireLock name => name = .refresh connectionId
  | .lockHolder name => name = .refresh connectionId
  | .deleteLock name => name = .refresh connectionId
  | .refreshObject id => id = connectionId
  | .expiring id _ => id = connectionId
  | _ => False

theorem makes_lockForRefresh {connectionId : Nat} {block : Bool}
    (hmade : ∀ r, locking connectionId r → made r) :
    Makes (I := ConnectorInterface) made (lockForRefresh connectionId block) := by
  cases block with
  | false => exact ⟨hmade _ rfl, fun _ => trivial⟩
  | true =>
      refine Makes.bind (makes_waitForLock (hmade _ rfl) _) fun token => ?_
      refine makes_request_bind.mpr ⟨hmade _ rfl, fun found => ?_⟩
      cases found with
      | false => trivial
      | true =>
          refine makes_request_bind.mpr ⟨hmade _ rfl, fun expiring => ?_⟩
          cases expiring with
          | false => exact Makes.bind (makes_releaseLock (hmade _ rfl) (hmade _ rfl)) fun _ => trivial
          | true => trivial

theorem makes_runWithBackoff {provider : ConnectorProvider} {attempt : ConnectorProc α}
    (hattempt : Makes made attempt) (n : Nat) :
    Makes made (runWithBackoff provider attempt n) := by
  induction n with
  | zero => trivial
  | succ n ih =>
      refine Makes.bind hattempt.attempt fun outcome => ?_
      split
      · trivial
      · split
        · exact ih
        · trivial
      · trivial

theorem makes_providerHttpRequest {connection : Connection} {method path : String}
    {accessToken : PyStr} (hcall : made (.callApi connection.id method path accessToken)) :
    Makes (I := ConnectorInterface) made
      (providerHttpRequest connection method path accessToken) := by
  refine Makes.bind (makes_runWithBackoff ?_ _) fun response => makes_ofExcept _
  exact makes_request_bind.mpr ⟨hcall, fun answer => makes_ofExcept _⟩

theorem makes_callSdk {provider : ConnectorProvider} {connectionId : Nat} {method path : String}
    {accessToken : PyStr} (hcall : made (.callApi connectionId method path accessToken)) (n : Nat) :
    Makes (I := ConnectorInterface) made
      (runWithBackoff provider (callSdkOnce connectionId method path accessToken) n) :=
  makes_runWithBackoff (makes_request_bind.mpr ⟨hcall, fun _ => makes_ofExcept _⟩) n

theorem makes_getCapability {connectionId : Nat} {name : String}
    (hread : made (.readObject connectionId)) :
    Makes (I := ConnectorInterface) made (getCapability connectionId name) := by
  refine Makes.bind (makes_readObject hread) fun connection => ?_
  repeat' split
  all_goals trivial

theorem makes_assign {connectionId : Nat}
    {value : Stamp → Attributes → Except Failure Attributes}
    (hassign : made (.assign connectionId value)) : Makes made (assign connectionId value) :=
  makes_request_bind.mpr ⟨hassign, fun _ => makes_ofExcept _⟩

theorem makes_commit (hcommit : made .commit) : Makes made commit :=
  makes_request_bind.mpr ⟨hcommit, fun _ => makes_ofExcept _⟩

theorem makes_applyTokenBundle {settings : Settings} {connectionId : Nat} {bundle : TokenBundle}
    (hassign : ∀ value, made (.assign connectionId value)) :
    Makes made (applyTokenBundle settings connectionId bundle) := by
  refine Makes.bind (makes_assign (hassign _)) fun _ => ?_
  refine Makes.bind (makes_assign (hassign _)) fun _ => ?_
  refine Makes.bind (makes_assign (hassign _)) fun _ => ?_
  exact makes_assign (hassign _)

theorem makes_refreshUnderLock {settings : Settings} {connection : Connection}
    (hexchange : ∀ token, made (.exchange connection.id token))
    (hassign : ∀ value, made (.assign connection.id value))
    (haudit : ∀ event, made (.addAuditEvent event)) :
    Makes made (refreshUnderLock settings connection) := by
  refine Makes.bind (Makes.attempt ?_) fun outcome => ?_
  · refine Makes.bind (makes_ofExcept _) fun token => makes_runWithBackoff ?_ _
    refine Makes.bind (makes_ofExcept _) fun _ => ?_
    exact makes_request_bind.mpr ⟨hexchange token, fun _ => makes_ofExcept _⟩
  · split
    · trivial
    · refine Makes.bind (makes_assign (hassign _)) fun _ => ?_
      exact ⟨haudit _, fun _ => trivial⟩
    · split
      · exact Makes.bind (makes_assign (hassign _)) fun _ => trivial
      · trivial

end Requests

end Socle.ConnectorTransactions
