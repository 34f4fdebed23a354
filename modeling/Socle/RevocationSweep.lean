import Socle.RevocationGates

/-!
The DELETE of a revocation finds every subscription of the connection, because they
are all of its tenant, and none is committed between it and the commit of the
revocation.
-/

namespace Socle.RevocationSweep

open Socle.Procedures
open Socle.TokenExchange
open Socle.ConnectorStore
open Socle.ConnectorService
open Socle.ConnectorTransactions
open Socle.RevokedConnection
open Socle.RevocationGates

/-- The connection, its subscriptions and the sessions that have read it are of one
tenant, and a revocation past its DELETE deletes all the subscriptions there are. -/
structure Swept {π : Type} (connectionId tenantId : Nat) (w : World π) (ls : List Session) :
    Prop where
  rows : ∀ row ∈ w.tables.connections, row.id = connectionId → row.tenantId = tenantId
  subscriptions : ∀ s ∈ w.tables.subscriptions, s.connectionId = connectionId →
    s.tenantId = tenantId
  sessions : ∀ l ∈ ls, ∀ o ∈ l.objects, o.row.id = connectionId → o.isNew = false →
    l.tenantId = tenantId
  covered : ∀ l ∈ ls, l.tenantId = tenantId → revoking connectionId l = true →
    ∀ s ∈ w.tables.subscriptions, s.connectionId = connectionId →
      l.pending.any (deletesSubscription s.id) = true

section Step

variable {π : Type} {endpoint : TokenEndpoint π} {connectionId tenantId : Nat} {named : Bool}
variable {w w' : World π} {ls : List Session} {i : Nat} {l l' : Session}

theorem not_revoking (h : Unswept l) : revoking connectionId l = false := by
  have hnone : l.pending.any bulk = false :=
    List.any_eq_false.mpr fun change hchange => by simp [h change hchange]
  rw [revoking, hnone, Bool.and_false]

theorem revoking_of_objects (h : revoking connectionId l' = true)
    (hobjects : ∀ o ∈ l'.objects, o.row.id = connectionId → newlyRevoked o = true → o ∈ l.objects)
    (hpending : l'.pending = l.pending) : revoking connectionId l = true := by
  obtain ⟨hrevoked, hbulk⟩ := (Bool.and_eq_true _ _).mp h
  obtain ⟨o, ho, hown⟩ := List.any_eq_true.mp hrevoked
  obtain ⟨hid, hnewly⟩ := (Bool.and_eq_true _ _).mp hown
  refine (Bool.and_eq_true _ _).mpr ⟨List.any_eq_true.mpr ⟨o, ?_, hown⟩, hpending ▸ hbulk⟩
  exact hobjects o ho (by simpa using hid) hnewly

theorem newlyRevoked_ofRow (mark : Nat) (row : Connection) :
    newlyRevoked (Object.ofRow mark row) = false := by
  simp [newlyRevoked, Object.ofRow]

theorem Swept.of_local (h : Swept connectionId tenantId w ls)
    (hconnections : w'.tables.connections = w.tables.connections)
    (hsubscriptions : w'.tables.subscriptions = w.tables.subscriptions)
    (hsessions : ∀ o ∈ l'.objects, o.row.id = connectionId → o.isNew = false →
      l'.tenantId = tenantId)
    (hcovered : l'.tenantId = tenantId → revoking connectionId l' = true →
      ∀ s ∈ w.tables.subscriptions, s.connectionId = connectionId →
        l'.pending.any (deletesSubscription s.id) = true) :
    Swept connectionId tenantId w' (ls.set i l') := by
  refine ⟨?_, ?_, ?_, ?_⟩
  · rw [hconnections]
    exact h.rows
  · rw [hsubscriptions]
    exact h.subscriptions
  · intro x hx
    rcases List.mem_or_eq_of_mem_set hx with hold | rfl
    · exact h.sessions x hold
    · exact hsessions
  · rw [hsubscriptions]
    intro x hx
    rcases List.mem_or_eq_of_mem_set hx with hold | rfl
    · exact h.covered x hold
    · exact hcovered

theorem Swept.of_same (h : Swept connectionId tenantId w ls) (hi : ls[i]? = some l)
    (hconnections : w'.tables.connections = w.tables.connections)
    (hsubscriptions : w'.tables.subscriptions = w.tables.subscriptions)
    (hobjects : l'.objects = l.objects) (hpending : l'.pending = l.pending)
    (htenant : l'.tenantId = l.tenantId) : Swept connectionId tenantId w' (ls.set i l') := by
  have hl := List.mem_of_getElem? hi
  refine h.of_local hconnections hsubscriptions ?_ ?_
  · rw [hobjects, htenant]
    exact h.sessions l hl
  · unfold revoking
    rw [hobjects, hpending, htenant]
    exact h.covered l hl

theorem Swept.of_loads (h : Swept connectionId tenantId w ls) (hi : ls[i]? = some l)
    (hpending : l'.pending = l.pending) (htenant : l'.tenantId = l.tenantId)
    (hobjects : ∀ o ∈ l'.objects, o ∈ l.objects ∨
      ∃ row ∈ w.tables.connections, row.tenantId = l.tenantId ∧
        o = Object.ofRow w.history.length row) :
    Swept connectionId tenantId w (ls.set i l') := by
  have hl := List.mem_of_getElem? hi
  refine h.of_local rfl rfl ?_ ?_
  · intro o ho hid hnew
    rw [htenant]
    rcases hobjects o ho with hold | ⟨row, hrow, hhome, rfl⟩
    · exact h.sessions l hl o hold hid hnew
    · exact hhome.symm.trans (h.rows row hrow hid)
  · rw [htenant, hpending]
    intro hhome hrevoking
    refine h.covered l hl hhome (revoking_of_objects hrevoking ?_ hpending)
    intro o ho _ hnewly
    rcases hobjects o ho with hold | ⟨row, -, -, rfl⟩
    · exact hold
    · rw [newlyRevoked_ofRow] at hnewly
      cases hnewly

theorem Swept.of_load (h : Swept connectionId tenantId w ls) (hi : ls[i]? = some l)
    {row : Connection} (hrow : row ∈ w.tables.connections) (htenant : row.tenantId = l.tenantId) :
    Swept connectionId tenantId w (ls.set i (l.load w.history.length row)) := by
  refine h.of_loads hi (load_pending _ _ _) (load_tenantId _ _ _) fun o ho => ?_
  rcases mem_load ho with hold | rfl
  · exact .inl hold
  · exact .inr ⟨row, hrow, htenant, rfl⟩

theorem Swept.addConnection (h : Swept connectionId tenantId w ls) (hi : ls[i]? = some l)
    {row : Connection} {mark : Nat} :
    Swept connectionId tenantId w (ls.set i
      { l with objects := { Object.ofRow mark row with isNew := true } :: l.objects }) := by
  have hl := List.mem_of_getElem? hi
  refine h.of_local rfl rfl ?_ fun hhome hrevoking => ?_
  · intro o ho hid hnew
    rcases List.mem_cons.mp ho with rfl | hold
    · cases hnew
    · exact h.sessions l hl o hold hid hnew
  · refine h.covered l hl hhome (revoking_of_objects hrevoking ?_ rfl)
    intro o ho _ hnewly
    rcases List.mem_cons.mp ho with rfl | hold
    · simp [newlyRevoked, Object.ofRow] at hnewly
    · exact hold

theorem Swept.deleteSubscriptionsOf (h : Swept connectionId tenantId w ls) (hi : ls[i]? = some l)
    {id : Nat} (hown : ∀ o ∈ l.objects, o.row.id = connectionId → newlyRevoked o = true →
      id = connectionId) :
    Swept connectionId tenantId w (ls.set i (l.add (.deleteSubscriptions
      ((w.tables.subscriptions.filter fun s =>
        s.tenantId == l.tenantId && s.connectionId == id).map Subscription.id)))) := by
  have hl := List.mem_of_getElem? hi
  refine h.of_local rfl rfl (h.sessions l hl) fun hhome hrevoking s hs hid => ?_
  obtain ⟨hrevoked, -⟩ := (Bool.and_eq_true _ _).mp hrevoking
  obtain ⟨o, ho, hnew⟩ := List.any_eq_true.mp hrevoked
  obtain ⟨hoid, hnewly⟩ := (Bool.and_eq_true _ _).mp hnew
  have hown := hown o ho (by simpa using hoid) hnewly
  have hhome : l.tenantId = tenantId := hhome
  refine List.any_eq_true.mpr ⟨_, List.mem_append_right _ List.mem_cons_self, ?_⟩
  have hfound : s ∈ w.tables.subscriptions.filter fun s =>
      s.tenantId == l.tenantId && s.connectionId == id :=
    List.mem_filter.mpr ⟨hs, by simp [h.subscriptions s hs hid, hhome, hid, hown]⟩
  exact List.contains_iff_mem.mpr (List.mem_map_of_mem hfound)

theorem Swept.add (h : Swept connectionId tenantId w ls) (hi : ls[i]? = some l)
    {change : Change} (hchange : bulk change = false) :
    Swept connectionId tenantId w (ls.set i (l.add change)) := by
  have hl := List.mem_of_getElem? hi
  refine h.of_local rfl rfl (h.sessions l hl) fun hhome hrevoking s hs hid => ?_
  have hbefore : revoking connectionId l = true := by
    simpa [revoking, Session.add, hchange] using hrevoking
  simp [Session.add, h.covered l hl hhome hbefore s hs hid]

theorem Swept.unswept (h : Swept connectionId tenantId w ls) (hl' : Unswept l')
    (hsessions : ∀ o ∈ l'.objects, o.row.id = connectionId → o.isNew = false →
      l'.tenantId = tenantId) : Swept connectionId tenantId w (ls.set i l') := by
  refine h.of_local rfl rfl hsessions fun _ hrevoking => ?_
  rw [not_revoking hl'] at hrevoking
  cases hrevoking

theorem swept_commit (hG : Final connectionId w ls) (h : Swept connectionId tenantId w ls)
    (hi : ls[i]? = some l) (hsober : Sober connectionId named l)
    (hcond : (∃ x, .addSubscription x ∈ l.pending ∧ x.connectionId = connectionId) →
      ∀ l ∈ ls, revoking connectionId l = false) :
    Swept connectionId tenantId (w.commit l).1 (ls.set i (w.commit l).2.1) := by
  have hl := List.mem_of_getElem? hi
  unfold World.commit
  split
  · rename_i t ht
    obtain ⟨u, hu, -⟩ := commit_eq_ok ht
    have hknown (o : Object) (ho : o ∈ l.objects) (hid : o.row.id = connectionId) :
        l.tenantId = tenantId :=
      h.sessions l hl o ho hid (isNew_of_writeObjects hu hG.exists_row o ho hid)
    refine ⟨?_, ?_, ?_, ?_⟩
    · intro row hrow hid
      obtain ⟨old, hold, holdId, rfl⟩ := hG.flushed ht hrow hid
      exact h.rows old hold holdId
    · intro s hs hid
      rcases mem_subscriptions_commit ht hs with ⟨x, hx, hxid, hxhome⟩ | ⟨old, hold, -, hsame, -⟩
      · obtain ⟨hhome, o, ho, hoid, -⟩ := hsober.adds x hx (hxid.trans hid)
        rw [← hxhome, hhome]
        exact hknown o ho hoid
      · rw [← hsame.2]
        exact h.subscriptions old hold (hsame.1.trans hid)
    · intro x hx o ho hid hnew
      rcases List.mem_or_eq_of_mem_set hx with hold | rfl
      · exact h.sessions x hold o ho hid hnew
      · obtain ⟨z, hz, rfl⟩ := List.mem_map.mp ho
        exact hknown z hz hid
    · intro x hx hhome hrevoking s hs hid
      rcases List.mem_or_eq_of_mem_set hx with hold | rfl
      · rcases mem_subscriptions_commit ht hs with
          ⟨y, hy, hyid, -⟩ | ⟨old, hsub, holdId, hsame, -⟩
        · rw [hcond ⟨y, hy, hyid.trans hid⟩ x hold] at hrevoking
          cases hrevoking
        · rw [← holdId]
          exact h.covered x hold hhome hrevoking old hsub (hsame.1.trans hid)
      · rw [not_revoking fun _ hchange => by cases hchange] at hrevoking
        cases hrevoking
  · exact h.unswept (fun _ hchange => by cases hchange) fun o ho => by cases ho

theorem swept_step (r : Request) (c : Choice) (hG : Final connectionId w ls)
    (h : Swept connectionId tenantId w ls) (hi : ls[i]? = some l)
    (hsober : Sober connectionId named l) (hgated : gated connectionId named l r)
    (hcond : r = .commit → (∃ x, .addSubscription x ∈ l.pending ∧ x.connectionId = connectionId) →
      ∀ l ∈ ls, revoking connectionId l = false) :
    Swept connectionId tenantId (serve endpoint w l r c).1
      (ls.set i (serve endpoint w l r c).2.1) := by
  have hl := List.mem_of_getElem? hi
  have hsame : Swept connectionId tenantId w (ls.set i l) := h.of_same hi rfl rfl rfl rfl rfl
  cases r with
  | commit => exact swept_commit hG h hi hsober (hcond rfl)
  | openSession id => exact h.unswept (fun _ hchange => by cases hchange) fun o ho => by cases ho
  | selectActiveConnections =>
      refine h.of_loads hi (loadAll_pending _ _ _) (loadAll_tenantId _ _ _) fun o ho => ?_
      rcases mem_loadAll ho with hold | ⟨row, hrow, rfl⟩
      · exact .inl hold
      · obtain ⟨hmem, hfound⟩ := List.mem_filter.mp hrow
        simp only [Bool.and_eq_true, beq_iff_eq] at hfound
        exact .inr ⟨row, hmem, hfound.1, rfl⟩
  | getConnection id =>
      simp only [serve]
      repeat' split
      · exact hsame
      · rename_i row hrow
        have hfound := List.find?_some hrow
        simp only [Bool.and_eq_true, beq_iff_eq] at hfound
        exact h.of_load hi (List.mem_of_find?_eq_some hrow) hfound.2
      · exact hsame
  | findConnection provider kind accountLabel =>
      simp only [serve]
      split
      · rename_i row hrow
        have hfound := List.find?_some hrow
        simp only [Bool.and_eq_true, beq_iff_eq] at hfound
        exact h.of_load hi (List.mem_of_find?_eq_some hrow) hfound.1.1.1.1
      · exact hsame
  | addConnection provider kind userId accountLabel scopes => exact h.addConnection hi
  | refreshObject id =>
      simp only [serve]
      split
      · rename_i row hrow
        have hrowId : row.id = id := by simpa using List.find?_some hrow
        refine h.unswept hgated.1 fun o ho hid hnew => ?_
        obtain ⟨old, hold, ⟨holdId, rfl⟩ | ⟨-, rfl⟩⟩ := mem_update ho
        · exact h.sessions l hl old hold (holdId.trans (hrowId.symm.trans hid)) hnew
        · exact h.sessions l hl o hold hid hnew
      · exact hsame
  | assign id value =>
      simp only [serve]
      split
      · exact hsame
      · split
        · refine h.unswept hgated.1 fun o ho hid hnew => ?_
          obtain ⟨old, hold, ⟨-, rfl⟩ | ⟨-, rfl⟩⟩ := mem_update ho
          · exact h.sessions l hl old hold hid hnew
          · exact h.sessions l hl o hold hid hnew
        · exact hsame
  | addSubscription | setExpiry | deleteSubscription | addAuditEvent => exact h.add hi rfl
  | deleteSubscriptionsOf id => exact h.deleteSubscriptionsOf hi hgated
  | commitControl =>
      simp only [serve, World.commitControl]
      split
      · rename_i t ht
        exact h.of_same hi (connections_applyAll ht)
          (subscriptions_applyAll_routes (hG.control l hl) ht) rfl rfl rfl
      · exact h.of_same hi rfl rfl rfl rfl rfl
  | acquireLock name =>
      refine h.of_same hi ?_ ?_ rfl rfl rfl <;>
      · simp only [serve, World.acquireLock]
        split <;> rfl
  | _ => exact h.of_same hi rfl rfl rfl rfl rfl

theorem spares_of_respectsRevocation {named : Nat → Bool} (hG : Final connectionId w ls)
    (h : Swept connectionId tenantId w ls) (hi : ls[i]? = some l)
    (hsober : Sober connectionId (named i) l) (hallowed : allowed connectionId l .commit)
    (hcond : respectsRevocation connectionId named w ls i .commit = true)
    (hnew : ∀ o ∈ l.objects, o.row.id = connectionId → o.isNew = false) :
    Spares connectionId w l := by
  have hl := List.mem_of_getElem? hi
  have hown (o : Object) (ho : o ∈ l.objects) (hid : o.row.id = connectionId) :
      isObjectOf connectionId o = true := decide_eq_true ⟨hid, hnew o ho hid⟩
  simp only [respectsRevocation, hi, Option.all_some, Bool.and_eq_true, Bool.not_eq_true',
    Bool.and_eq_false_iff] at hcond
  obtain ⟨⟨hlate, -⟩, hnamed⟩ := hcond
  have hsince (hrevives : revives connectionId l = true) (o : Object) (ho : o ∈ l.objects)
      (hid : o.row.id = connectionId) :
      (w.history.drop o.firstMark).any (revokes connectionId) = false := by
    rcases hlate with hlate | hlate
    · simpa [hown o ho hid] using List.any_eq_false.mp hlate o ho
    · rw [hrevives] at hlate
      cases hlate
  refine ⟨fun o ho hid hchanges hcurrent => ⟨fun hfirst => ?_, hsince ?_ o ho hid⟩, ?_, ?_⟩
  · cases hname : named i with
    | false => exact hcurrent (hsober.met hname o ho hid hfirst).2
    | true =>
        rw [hname] at hnamed
        rcases hnamed with hnamed | hnamed
        · cases hnamed
        · exact absurd (List.any_eq_false.mp hnamed o ho) (by simp [hown o ho hid, hfirst])
  · refine (Bool.or_eq_true _ _).mpr (.inl (List.any_eq_true.mpr ⟨o, ho, ?_⟩))
    simp [hown o ho hid, hchanges, hcurrent]
  · intro o ho hid hnewly
    refine h.covered l hl (h.sessions l hl o ho hid (hnew o ho hid)) ?_
    refine (Bool.and_eq_true _ _).mpr ⟨List.any_eq_true.mpr ⟨o, ho, ?_⟩, ?_⟩
    · simp [hid, hnewly]
    · exact (hallowed.2 ⟨o, ho, hid, hnewly⟩).2
  · intro hany change hchange
    rw [← Bool.not_eq_true]
    intro hadds
    cases change with
    | addSubscription s =>
        have hsid : s.connectionId = connectionId := by simpa [addsSubscription] using hadds
        obtain ⟨-, o, ho, hid, hfirst⟩ := hsober.adds s hchange hsid
        have hrevives : revives connectionId l = true :=
          (Bool.or_eq_true _ _).mpr (.inr (List.any_eq_true.mpr ⟨_, hchange, hadds⟩))
        have hknown := hG.known l hl o ho hid (hnew o ho hid)
        have halive := (hknown.live hfirst (hsince hrevives o ho hid)).1
        rw [hG.not_revoked halive] at hany
        cases hany
    | _ => cases hadds

end Step

end Socle.RevocationSweep
