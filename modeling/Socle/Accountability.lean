import Socle.DirectoryKnowledge
import Socle.LastOwner

/-!
Who answers for what: however the requests on the directory interleave, every row that appears or
goes, and every event of the audit trails, goes back to a request of somebody who was seen with the
right to it.
-/

namespace Socle.Accountability

open Socle.GuardedRuns
open Socle.Procedures
open Socle.Knowledge
open Socle.DirectoryStore
open Socle.DirectoryService
open Socle.DirectoryKnowledge
open Socle.LastOwner (identityMap_serve alice bob calm)

/-- What these jobs can have been told while the tables were these.  A row is known by its primary
key: it was the membership of the user in the tenant, and it had these attributes. -/
def Shown (jobs : List Job) (moments : Set Directory) : Fact → Prop
  | .job job => job ∈ jobs
  | .membership tenantId userId m => ∃ d ∈ moments, ∃ row ∈ d.memberships,
      row.tenantId = tenantId ∧ row.userId = userId ∧ row.id = m.id ∧
        ∃ d' ∈ moments, m ∈ d'.memberships
  | .invitation i => ∃ d ∈ moments, i ∈ d.invitations
  | .tenant t => ∃ d ∈ moments, t ∈ d.tenants
  | .placed => True

/-- Every row that the tables gained or lost was written by a request with the right to it:
`written` says of a statement about the tables that it came to hold, and of a right that it was
held then. -/
structure Accounted (settings : Settings)
    (written : (Directory → Prop) → (Set Fact → Prop) → Prop) (before after : Directory) :
    Prop where
  seated : ∀ m ∈ after.memberships, m ∈ before.memberships ∨
    written (fun d => m ∈ d.memberships) fun known =>
      Accepted settings known m.tenantId m.role ∨ Changed known m.id m.role
  removed : ∀ m ∈ before.memberships, (∃ x ∈ after.memberships, x.id = m.id) ∨
    written (fun d => ¬ ∃ x ∈ d.memberships, x.id = m.id) fun known => Removed known m.id
  invited : ∀ i ∈ after.invitations,
    (∃ x ∈ before.invitations, { x with acceptedAt := i.acceptedAt } = i) ∨
      written (fun d => ∃ x ∈ d.invitations, { x with acceptedAt := i.acceptedAt } = i) fun known =>
        Invited known i.email i.tenantId i.role i.invitedByUserId
  revoked : ∀ i ∈ before.invitations, (∃ x ∈ after.invitations, x.id = i.id) ∨
    written (fun d => ¬ ∃ x ∈ d.invitations, x.id = i.id) fun known => Revoked known i.id
  founded : ∀ t ∈ after.tenants, t ∈ before.tenants ∨
    written (fun d => t ∈ d.tenants) fun known => Founded known t.slug t.name
  teams : ∀ t ∈ after.teams, t ∈ before.teams ∨
    written (fun d => t ∈ d.teams) fun known => Organised known t.tenantId
  teamMembers : ∀ m ∈ after.teamMembers, m ∈ before.teamMembers ∨
    written (fun d => m ∈ d.teamMembers) fun known => Organised known m.tenantId

/-- And so was every event of the audit trails, which only grow. -/
structure Ledger (settings : Settings) (written : (Directory → Prop) → (Set Fact → Prop) → Prop)
    (before after : Directory) : Prop extends Accounted settings written before after where
  trail : before.auditEvents <+: after.auditEvents
  events : ∀ n e, after.auditEvents[n]? = some e → before.auditEvents.length ≤ n →
    written (fun d => d.auditEvents[n]? = some e) fun known => Audited settings known e.tenantId e

/-- In one commit: the right is held under these facts. -/
abbrev held (facts : Set Fact) (_ : Directory → Prop) (right : Set Fact → Prop) : Prop :=
  right facts

/-- The change is in the right of a request. -/
def Authored (settings : Settings) (facts : Set Fact) : Change → Prop
  | .addMembership m => Accepted settings facts m.tenantId m.role
  | .setRole membershipId role => Changed facts membershipId role
  | .deleteMembership membershipId => Removed facts membershipId
  | .addInvitation i => Invited facts i.email i.tenantId i.role i.invitedByUserId
  | .deleteInvitation invitationId => Revoked facts invitationId
  | .addTenant t => Founded facts t.slug t.name
  | .addTeam t => Organised facts t.tenantId
  | .addTeamMember m => Organised facts m.tenantId
  | .addAuditEvent e => Audited settings facts e.tenantId e
  | _ => True

section Accounts

variable {settings : Settings} {facts : Set Fact} {before d d' : Directory}

theorem Ledger.refl (d : Directory) : Ledger settings (held facts) d d where
  seated _ h := .inl h
  removed m h := .inl ⟨m, h, rfl⟩
  invited i h := .inl ⟨i, h, rfl⟩
  revoked i h := .inl ⟨i, h, rfl⟩
  founded _ h := .inl h
  teams _ h := .inl h
  teamMembers _ h := .inl h
  trail := List.prefix_refl _
  events n e he hn := by
    rw [List.getElem?_eq_none hn] at he
    cases he

theorem mem_snoc {α : Type} {P Q : α → Prop} {rows : List α} {row : α}
    (hrows : ∀ x ∈ rows, P x ∨ Q x) (hrow : Q row) : ∀ x ∈ rows ++ [row], P x ∨ Q x := by
  intro x hx
  rcases List.mem_append.mp hx with hold | hnew
  · exact hrows x hold
  · exact .inr (List.mem_singleton.mp hnew ▸ hrow)

theorem exists_snoc {α : Type} {P : α → Prop} {rows : List α} (row : α) (h : ∃ x ∈ rows, P x) :
    ∃ x ∈ rows ++ [row], P x := by
  obtain ⟨x, hx, hP⟩ := h
  exact ⟨x, List.mem_append_left _ hx, hP⟩

theorem Ledger.apply {change : Change} (h : Ledger settings (held facts) before d)
    (hauthored : Authored settings facts change) (happly : d.apply change = .ok d') :
    Ledger settings (held facts) before d' := by
  cases change with
  | addMembership m =>
      simp only [Directory.apply] at happly
      repeat' split at happly
      all_goals cases happly
      exact { h with
        seated := mem_snoc h.seated (.inl hauthored)
        removed := fun x hx => (h.removed x hx).imp (exists_snoc m) id }
  | setRole membershipId role =>
      simp only [Directory.apply] at happly
      split at happly
      · cases happly
        refine { h with seated := fun m hm => ?_, removed := fun x hx => ?_ }
        · obtain ⟨x, hx, rfl⟩ := List.mem_map.mp hm
          split
          · rename_i hid
            exact .inr (.inr (hid ▸ hauthored))
          · exact h.seated x hx
        · refine (h.removed x hx).imp ?_ id
          rintro ⟨y, hy, hid⟩
          refine ⟨_, List.mem_map_of_mem hy, ?_⟩
          split <;> exact hid
      · cases happly
  | deleteMembership membershipId =>
      cases happly
      refine { h with
        seated := fun m hm => h.seated m (List.mem_filter.mp hm).1
        removed := fun x hx => ?_ }
      rcases h.removed x hx with ⟨y, hy, hid⟩ | hremoved
      · by_cases hkey : y.id = membershipId
        · exact .inr (hid ▸ hkey ▸ hauthored)
        · exact .inl ⟨y, List.mem_filter.mpr ⟨hy, by simpa using hkey⟩, hid⟩
      · exact .inr hremoved
  | addInvitation i =>
      simp only [Directory.apply] at happly
      repeat' split at happly
      all_goals cases happly
      exact { h with
        invited := mem_snoc h.invited hauthored
        revoked := fun x hx => (h.revoked x hx).imp (exists_snoc i) id }
  | setAccepted invitationId acceptedAt =>
      simp only [Directory.apply] at happly
      split at happly
      · cases happly
        refine { h with invited := fun i hi => ?_, revoked := fun x hx => ?_ }
        · obtain ⟨j, hj, rfl⟩ := List.mem_map.mp hi
          split
          · refine (h.invited j hj).imp ?_ id
            rintro ⟨x, hx, hsame⟩
            exact ⟨x, hx, by rw [← hsame]⟩
          · exact h.invited j hj
        · refine (h.revoked x hx).imp ?_ id
          rintro ⟨y, hy, hid⟩
          refine ⟨_, List.mem_map_of_mem hy, ?_⟩
          split <;> exact hid
      · cases happly
  | deleteInvitation invitationId =>
      cases happly
      refine { h with
        invited := fun i hi => h.invited i (List.mem_filter.mp hi).1
        revoked := fun x hx => ?_ }
      rcases h.revoked x hx with ⟨y, hy, hid⟩ | hrevoked
      · by_cases hkey : y.id = invitationId
        · exact .inr (hid ▸ hkey ▸ hauthored)
        · exact .inl ⟨y, List.mem_filter.mpr ⟨hy, by simpa using hkey⟩, hid⟩
      · exact .inr hrevoked
  | addTeam t =>
      simp only [Directory.apply] at happly
      repeat' split at happly
      all_goals cases happly
      exact { h with teams := mem_snoc h.teams hauthored }
  | deleteTeam teamId =>
      cases happly
      exact { h with
        teams := fun t ht => h.teams t (List.mem_filter.mp ht).1
        teamMembers := fun m hm => h.teamMembers m (List.mem_filter.mp hm).1 }
  | addTeamMember m =>
      simp only [Directory.apply] at happly
      repeat' split at happly
      all_goals cases happly
      exact { h with teamMembers := mem_snoc h.teamMembers hauthored }
  | deleteTeamMember teamMemberId =>
      cases happly
      exact { h with teamMembers := fun m hm => h.teamMembers m (List.mem_filter.mp hm).1 }
  | addTenant t =>
      simp only [Directory.apply] at happly
      split at happly
      all_goals cases happly
      exact { h with founded := mem_snoc h.founded hauthored }
  | addAuditEvent e =>
      cases happly
      refine { h with
        trail := h.trail.trans (List.prefix_append _ _)
        events := fun n e' he hn => ?_ }
      rw [List.getElem?_append] at he
      split at he
      · exact h.events n e' he hn
      · obtain rfl := List.mem_singleton.mp (List.mem_of_getElem? he)
        exact hauthored
  | addUser | setDisplayName | setPassword =>
      simp only [Directory.apply] at happly
      split at happly
      all_goals cases happly
      exact { h with }

theorem Ledger.applyAll {changes : List Change} (h : Ledger settings (held facts) before d)
    (hauthored : ∀ change ∈ changes, Authored settings facts change)
    (happly : d.applyAll changes = .ok d') : Ledger settings (held facts) before d' := by
  induction changes generalizing d with
  | nil =>
      cases happly
      exact h
  | cons change rest ih =>
      simp only [Directory.applyAll] at happly
      split at happly
      · rename_i d₁ hd₁
        exact ih (h.apply (hauthored change List.mem_cons_self) hd₁)
          (fun change hchange => hauthored change (List.mem_cons_of_mem _ hchange)) happly
      · cases happly

theorem Ledger.commit {db : Database} {changes : List Change}
    (h : Ledger settings (held facts) before db.directory)
    (hauthored : ∀ change ∈ changes, Authored settings facts change) :
    Ledger settings (held facts) before (db.commit changes).1.directory := by
  unfold Database.commit
  split
  · rename_i happly
    exact h.applyAll hauthored happly
  · exact h

end Accounts

/-- What a request leaves pending on the control session. -/
def controlChange (c : Choice) : Request → Option Change
  | .addUser email displayName => some (.addUser ⟨c.uuid, email, displayName⟩)
  | .setDisplayName userId displayName => some (.setDisplayName userId displayName)
  | .setPassword userId => some (.setPassword userId c.passwordHash)
  | .addMembership userId tenantId role => some (.addMembership ⟨c.uuid, userId, tenantId, role⟩)
  | .setRole m role => some (.setRole m.id role)
  | .deleteMembership membershipId => some (.deleteMembership membershipId)
  | .addInvitation email tenantId role tokenHash expiresAt invitedBy =>
      some (.addInvitation ⟨c.uuid, email, tenantId, role, tokenHash, expiresAt, none, invitedBy⟩)
  | .setAccepted invitationId acceptedAt => some (.setAccepted invitationId acceptedAt)
  | .deleteInvitation invitationId => some (.deleteInvitation invitationId)
  | _ => none

/-- What a request leaves pending on the tenant session. -/
def tenantChange (l : Session) (c : Choice) : Request → Option Change
  | .addTeam name description => some (.addTeam ⟨c.uuid, l.tenantId, name, description⟩)
  | .deleteTeam teamId => some (.deleteTeam teamId)
  | .addTeamMember teamId userId => some (.addTeamMember ⟨c.uuid, l.tenantId, teamId, userId⟩)
  | .deleteTeamMember teamMemberId => some (.deleteTeamMember teamMemberId)
  | .addTenant slug name => some (.addTenant ⟨c.uuid, slug, name, .active, none⟩)
  | .addAuditEvent event => some (.addAuditEvent { event with tenantId := l.tenantId })
  | _ => none

section Sessions

variable {settings : Settings} {jobs : List Job} {moments : Set Directory} {facts known : Set Fact}
  {before : Directory} {db : Database} {l : Session} {r : Request} {c : Choice} {change : Change}

theorem mem_control_serve (h : change ∈ (serve db l r c).2.1.control) :
    change ∈ l.control ∨ controlChange c r = some change := by
  cases r with
  | selectMembership =>
      simp only [serve, Session.resolve] at h
      repeat' split at h
      all_goals exact .inl h
  | setRole m role =>
      simp only [serve] at h
      split at h
      · exact .inl h
      · exact (List.mem_append.mp h).imp id fun h => congrArg some (List.mem_singleton.mp h).symm
  | commitControl => cases h
  | addUser | setDisplayName | setPassword | addMembership | deleteMembership | addInvitation
    | setAccepted | deleteInvitation =>
      exact (List.mem_append.mp h).imp id fun h => congrArg some (List.mem_singleton.mp h).symm
  | _ => exact .inl h

theorem mem_tenant_serve (h : change ∈ (serve db l r c).2.1.tenant) :
    change ∈ l.tenant ∨ tenantChange l c r = some change := by
  cases r with
  | selectMembership =>
      simp only [serve, Session.resolve] at h
      repeat' split at h
      all_goals exact .inl h
  | setRole m role =>
      simp only [serve] at h
      split at h <;> exact .inl h
  | commitTenant => cases h
  | addTeam | deleteTeam | addTeamMember | deleteTeamMember | addTenant | addAuditEvent =>
      exact (List.mem_append.mp h).imp id fun h => congrArg some (List.mem_singleton.mp h).symm
  | _ => exact .inl h

/-- A session keeps to what its one job was told. -/
structure Entitled (settings : Settings) (jobs : List Job) (moments : Set Directory) (l : Session)
    (known : Set Fact) : Prop where
  shown : ∀ fact ∈ known, Shown jobs moments fact
  one : ∀ job job', .job job ∈ known → .job job' ∈ known → job = job'
  placed : .placed ∈ known → Placed settings known l.tenantId
  loaded : ∀ x ∈ l.identityMap, ∃ d ∈ moments, x.membership ∈ d.memberships
  control : ∀ change ∈ l.control, Authored settings {fact | Shown jobs moments fact} change
  tenant : ∀ change ∈ l.tenant, Authored settings {fact | Shown jobs moments fact} change

theorem authored_controlChange (hchange : controlChange c r = some change)
    (hneeds : needs settings r known) (hknown : known ⊆ facts) :
    Authored settings facts change := by
  cases r with
  | addUser | setDisplayName | setPassword | setAccepted =>
      cases hchange
      trivial
  | addMembership =>
      cases hchange
      exact Accepted.mono hneeds hknown
  | setRole =>
      cases hchange
      exact Changed.mono hneeds hknown
  | deleteMembership =>
      cases hchange
      exact Removed.mono hneeds hknown
  | addInvitation =>
      cases hchange
      exact Invited.mono hneeds hknown
  | deleteInvitation =>
      cases hchange
      exact Revoked.mono hneeds hknown
  | _ => cases hchange

theorem Entitled.organised (h : Entitled settings jobs moments l known) (hplaced : .placed ∈ known)
    {tenantId : Nat} (horganised : Organised known tenantId) : Organised known l.tenantId := by
  obtain ⟨actor, route, hjob, hrest⟩ := horganised
  rcases h.placed hplaced with ⟨actor', route', hjob'⟩ |
    ⟨role, token, password, displayName, i, hjob', -⟩ | ⟨slug, name, text, hjob', -⟩
  · cases h.one _ _ hjob hjob'
    exact ⟨actor, route, hjob, hrest⟩
  · cases h.one _ _ hjob hjob'
  · cases h.one _ _ hjob hjob'

theorem Entitled.audited (h : Entitled settings jobs moments l known) (hplaced : .placed ∈ known)
    {tenantId : Nat} {e : AuditEvent} (haudited : Audited settings known tenantId e) :
    Audited settings known l.tenantId e := by
  rcases haudited with ⟨actor, route, hjob, hrest⟩ | ⟨role, haccepted, haction⟩ |
    ⟨slug, name, hfounded, hrest⟩
  · rcases h.placed hplaced with ⟨actor', route', hjob'⟩ |
      ⟨role, token, password, displayName, i, hjob', -⟩ | ⟨slug, name, text, hjob', -⟩
    · cases h.one _ _ hjob hjob'
      exact .inl ⟨actor, route, hjob, hrest⟩
    · cases h.one _ _ hjob hjob'
    · cases h.one _ _ hjob hjob'
  · obtain ⟨token, password, displayName, i, hjob, -⟩ := haccepted
    rcases h.placed hplaced with ⟨actor', route', hjob'⟩ | ⟨role', haccepted'⟩ |
      ⟨slug, name, text, hjob', -⟩
    · cases h.one _ _ hjob hjob'
    · exact .inr (.inl ⟨role', haccepted', haction⟩)
    · cases h.one _ _ hjob hjob'
  · exact .inr (.inr ⟨slug, name, hfounded, hrest⟩)

theorem Entitled.authored_tenantChange (h : Entitled settings jobs moments l known)
    (hchange : tenantChange l c r = some change) (hneeds : needs settings r known)
    (hknown : known ⊆ facts) : Authored settings facts change := by
  cases r with
  | deleteTeam | deleteTeamMember =>
      cases hchange
      trivial
  | addTeam | addTeamMember =>
      cases hchange
      obtain ⟨hplaced, tenantId, horganised⟩ := hneeds
      exact (h.organised hplaced horganised).mono hknown
  | addTenant =>
      cases hchange
      exact Founded.mono hneeds hknown
  | addAuditEvent =>
      cases hchange
      obtain ⟨hplaced, tenantId, haudited⟩ := hneeds
      exact (h.audited hplaced haudited).mono hknown
  | _ => cases hchange

theorem shown_resolve (hloaded : ∀ x ∈ l.identityMap, ∃ d ∈ moments, x.membership ∈ d.memberships)
    (hmoment : db.directory ∈ moments) {row : Membership} (hrow : row ∈ db.directory.memberships)
    (mark : Nat) : Shown jobs moments
      (.membership row.tenantId row.userId (l.resolve mark row).2) := by
  refine ⟨db.directory, hmoment, row, hrow, rfl, rfl, ?_⟩
  unfold Session.resolve
  split
  · rename_i loaded hfind
    have hid := List.find?_some hfind
    exact ⟨(beq_iff_eq.mp hid).symm, hloaded loaded (List.mem_of_find?_eq_some hfind)⟩
  · exact ⟨rfl, db.directory, hmoment, hrow⟩

theorem shown_told (hloaded : ∀ x ∈ l.identityMap, ∃ d ∈ moments, x.membership ∈ d.memberships)
    (hmoment : db.directory ∈ moments) {fact : Fact}
    (hfact : fact ∈ told r (serve db l r c).2.2) : Shown jobs moments fact := by
  cases r with
  | pushTenant =>
      cases hfact
      trivial
  | selectMembership tenantId userId =>
      obtain ⟨m, hm, rfl⟩ := hfact
      simp only [serve] at hm
      split at hm
      · rename_i row hrow
        cases hm
        have hkey := List.find?_some hrow
        simp only [Bool.and_eq_true, beq_iff_eq] at hkey
        rw [← hkey.1, ← hkey.2]
        exact shown_resolve hloaded hmoment (List.mem_of_find?_eq_some hrow) _
      · cases hm
  | selectInvitationByHash | getInvitation =>
      obtain ⟨i, hi, rfl⟩ := hfact
      exact ⟨db.directory, hmoment, List.mem_of_find?_eq_some hi⟩
  | selectTenantBySlug =>
      obtain ⟨t, ht, rfl⟩ := hfact
      exact ⟨db.directory, hmoment, List.mem_of_find?_eq_some ht⟩
  | _ => exact hfact.elim

theorem possible_serve : possible r (serve db l r c).2.2 := by
  cases r with
  | selectInvitationByHash | getInvitation | selectTenantBySlug | getTenant =>
      intro row hrow
      have hkey := List.find?_some hrow
      exact beq_iff_eq.mp hkey
  | _ => trivial

theorem job_not_told {a : Answer r} {job : Job} : .job job ∉ told r a := by
  intro htold
  cases r with
  | selectMembership | selectInvitationByHash | getInvitation | selectTenantBySlug =>
      obtain ⟨row, -, h⟩ := htold
      cases h
  | pushTenant => cases htold
  | _ => exact htold

theorem context_serve (db : Database) (l : Session) (r : Request) (c : Choice) :
    (∃ tenantId, r = .pushTenant tenantId) ∨
    (.placed ∉ told r (serve db l r c).2.2 ∧ (serve db l r c).2.1.tenantId = l.tenantId) := by
  cases r with
  | pushTenant tenantId => exact .inl ⟨tenantId, rfl⟩
  | selectMembership =>
      refine .inr ⟨?_, ?_⟩
      · rintro ⟨m, -, h⟩
        cases h
      · simp only [serve, Session.resolve]
        repeat' split
        all_goals rfl
  | selectInvitationByHash | getInvitation | selectTenantBySlug =>
      refine .inr ⟨?_, rfl⟩
      rintro ⟨row, -, h⟩
      cases h
  | setRole =>
      refine .inr ⟨id, ?_⟩
      simp only [serve]
      split <;> rfl
  | _ => exact .inr ⟨id, rfl⟩

theorem Entitled.serve (h : Entitled settings jobs moments l known)
    (hneeds : needs settings r known) (hmoment : db.directory ∈ moments) :
    Entitled settings jobs moments (serve db l r c).2.1
      (known ∪ told r (DirectoryStore.serve db l r c).2.2) where
  shown fact hfact := hfact.elim (h.shown fact) (shown_told h.loaded hmoment)
  one job job' hjob hjob' :=
    h.one job job' (hjob.resolve_right job_not_told) (hjob'.resolve_right job_not_told)
  placed hplaced := by
    rcases context_serve db l r c with ⟨tenantId, rfl⟩ | ⟨hnot, hsame⟩
    · exact Placed.mono hneeds Set.subset_union_left
    · rw [hsame]
      exact (h.placed (hplaced.resolve_right hnot)).mono Set.subset_union_left
  loaded x hx := by
    rcases identityMap_serve db l r c hx with hold | ⟨hrow, -⟩
    · exact h.loaded x hold
    · exact ⟨db.directory, hmoment, hrow⟩
  control change hchange := by
    rcases mem_control_serve hchange with hold | hnew
    · exact h.control change hold
    · exact authored_controlChange hnew hneeds h.shown
  tenant change hchange := by
    rcases mem_tenant_serve hchange with hold | hnew
    · exact h.tenant change hold
    · exact h.authored_tenantChange hnew hneeds h.shown

theorem ledger_serve (hl : Entitled settings jobs moments l known) :
    Ledger settings (held {fact | Shown jobs moments fact}) db.directory
      (serve db l r c).1.directory := by
  cases r with
  | commitControl => exact (Ledger.refl _).commit hl.control
  | commitTenant => exact (Ledger.refl _).commit hl.tenant
  | selectMembership =>
      simp only [serve]
      split <;> exact .refl _
  | _ => exact .refl _

end Sessions

section Runs

variable {settings : Settings} {d : Directory} {jobs : List Job}
  {first rest : List (Nat × Choice)}
  {before after : Pool DirectoryInterface Failure Database Session Unit}

/-- The tables at the moments of a run. -/
def momentsOf (settings : Settings) (d : Directory) (jobs : List Job)
    (schedule : List (Nat × Choice)) : Set Directory :=
  {d' | ∃ first pool, first <+: schedule ∧
    run (Pool.step serve) (start settings d jobs) first = some pool ∧ pool.shared.directory = d'}

theorem keeps_entitled (moments : Set Directory) :
    Keeps (rules settings) serve (fun db _ _ => db.directory ∈ moments) (fun _ => True)
      (Entitled settings jobs moments) :=
  ⟨fun _ _ _ _ _ _ hl hneeds hmoment => ⟨trivial, possible_serve, hl.serve hneeds hmoment⟩⟩

theorem heeding_start (moments : Set Directory) :
    Heeding (rules settings) (fun _ => True) (Entitled settings jobs moments)
      (start settings d jobs) := by
  refine ⟨trivial, fun thread hthread => ?_⟩
  obtain ⟨job, hjob, rfl⟩ := List.mem_map.mp hthread
  refine ⟨{.job job}, ?_, heeds_job rfl⟩
  exact {
    shown := fun fact hfact => by
      cases hfact
      exact hjob
    one := fun first second hfirst hsecond => Fact.job.inj (hfirst.trans hsecond.symm)
    placed := fun hplaced => by cases hplaced
    loaded := fun x hx => (List.not_mem_nil hx).elim
    control := fun change hchange => (List.not_mem_nil hchange).elim
    tenant := fun change hchange => (List.not_mem_nil hchange).elim }

theorem along_moments (schedule : List (Nat × Choice)) :
    Along (Pool.step serve)
      (ActionMeets fun db _ _ _ _ => db.directory ∈ momentsOf settings d jobs schedule)
      (start settings d jobs) schedule := by
  refine along_of_prefixes fun first action pool hprefix hrun => ?_
  have hmoment : pool.shared.directory ∈ momentsOf settings d jobs schedule :=
    ⟨first, pool, (List.prefix_append _ _).trans hprefix, hrun, rfl⟩
  unfold ActionMeets
  split
  · exact hmoment
  · trivial

theorem ledger_step {action : Nat × Choice}
    (hrun : run (Pool.step serve) (start settings d jobs) first = some before)
    (hstep : Pool.step serve before action = some after) :
    Ledger settings (held {fact | Shown jobs (momentsOf settings d jobs first) fact})
      before.shared.directory after.shared.directory := by
  obtain ⟨-, hthreads⟩ :=
    pool_heeds (keeps_entitled _) (heeding_start _) (along_moments first) hrun
  obtain ⟨l, r, k, hthread, rfl⟩ := Pool.step_eq_some hstep
  obtain ⟨known, hl, -⟩ := hthreads _ (List.mem_of_getElem? hthread)
  exact ledger_serve hl

/-- The statement came to hold at a step of the run between two of its moments, and the right was
held at the moments before this step. -/
def Written (settings : Settings) (d : Directory) (jobs : List Job)
    (first schedule : List (Nat × Choice)) (statement : Directory → Prop)
    (right : Set Directory → Prop) : Prop :=
  ∃ earlier action before after, first <+: earlier ∧ earlier ++ [action] <+: schedule ∧
    run (Pool.step serve) (start settings d jobs) earlier = some before ∧
    Pool.step serve before action = some after ∧
    ¬ statement before.shared.directory ∧ statement after.shared.directory ∧
    right (momentsOf settings d jobs earlier)

/-- The same for a right under the facts that these moments show. -/
def WrittenBy (settings : Settings) (d : Directory) (jobs : List Job)
    (first schedule : List (Nat × Choice)) (statement : Directory → Prop)
    (right : Set Fact → Prop) : Prop :=
  Written settings d jobs first schedule statement fun moments =>
    right {fact | Shown jobs moments fact}

theorem Written.mono {schedule longer : List (Nat × Choice)} {statement : Directory → Prop}
    {right right' : Set Directory → Prop} (hlonger : schedule <+: longer)
    (himp : ∀ moments, right moments → right' moments)
    (h : Written settings d jobs first schedule statement right) :
    Written settings d jobs first longer statement right' := by
  obtain ⟨earlier, action, before, after, hfirst, hschedule, hrun, hstep, hnot, hnow, hright⟩ := h
  exact ⟨earlier, action, before, after, hfirst, hschedule.trans hlonger, hrun, hstep, hnot, hnow,
    himp _ hright⟩

theorem written_of_run {statement : Directory → Prop} {right : Set Fact → Prop}
    (hbefore : run (Pool.step serve) (start settings d jobs) first = some before)
    (hafter : run (Pool.step serve) before rest = some after)
    (hnot : ¬ statement before.shared.directory) (hnow : statement after.shared.directory)
    (hstep : ∀ facts d₁ d₂, Ledger settings (held facts) d₁ d₂ → ¬ statement d₁ → statement d₂ →
      right facts) :
    WrittenBy settings d jobs first (first ++ rest) statement right := by
  obtain ⟨earlier, action, later, pool, next, rfl, hearlier, hnext, hnot', hnow'⟩ :=
    exists_step_of_run (P := fun pool => statement pool.shared.directory) hafter hnot hnow
  have hrun : run (Pool.step serve) (start settings d jobs) (first ++ earlier) = some pool :=
    run_append_eq_some.mpr ⟨before, hbefore, hearlier⟩
  refine ⟨first ++ earlier, action, pool, next, List.prefix_append _ _, ⟨later, by simp⟩, hrun,
    hnext, hnot', hnow', ?_⟩
  exact hstep _ _ _ (ledger_step hrun hnext) hnot' hnow'

theorem trail_grows
    (hbefore : run (Pool.step serve) (start settings d jobs) first = some before)
    (hafter : run (Pool.step serve) before rest = some after) :
    before.shared.directory.auditEvents <+: after.shared.directory.auditEvents := by
  induction rest generalizing first before with
  | nil =>
      cases hafter
      exact List.prefix_refl _
  | cons action rest ih =>
      obtain ⟨next, hnext, hrest⟩ := run_cons_eq_some.mp hafter
      have hrun : run (Pool.step serve) (start settings d jobs) (first ++ [action]) = some next :=
        run_append_eq_some.mpr ⟨before, hbefore, run_cons_eq_some.mpr ⟨next, hnext, rfl⟩⟩
      exact (ledger_step hbefore hnext).trail.trans (ih hrun hrest)

theorem ledger_kept
    (hbefore : run (Pool.step serve) (start settings d jobs) first = some before)
    (hafter : run (Pool.step serve) before rest = some after) :
    Ledger settings (WrittenBy settings d jobs first (first ++ rest)) before.shared.directory
      after.shared.directory where
  seated m hm := by
    refine or_iff_not_imp_left.mpr fun hnew => ?_
    exact written_of_run hbefore hafter hnew hm fun facts d₁ d₂ h hnot hnow =>
      (h.seated m hnow).resolve_left hnot
  removed m hm := by
    refine or_iff_not_imp_left.mpr fun hgone => ?_
    refine written_of_run hbefore hafter (not_not.mpr ⟨m, hm, rfl⟩) hgone ?_
    intro facts d₁ d₂ h hnot hnow
    obtain ⟨x, hx, hid⟩ := not_not.mp hnot
    rw [← hid]
    refine (h.removed x hx).resolve_left fun hkept => hnow ?_
    rwa [hid] at hkept
  invited i hi := by
    refine or_iff_not_imp_left.mpr fun hnew => ?_
    refine written_of_run hbefore hafter hnew ⟨i, hi, rfl⟩ ?_
    rintro facts d₁ d₂ h hnot ⟨x, hx, hsame⟩
    have hinvited := (h.invited x hx).resolve_left fun hold => hnot ?_
    · rwa [← hsame]
    · obtain ⟨y, hy, hyx⟩ := hold
      exact ⟨y, hy, by rw [← hsame, ← hyx]⟩
  revoked i hi := by
    refine or_iff_not_imp_left.mpr fun hgone => ?_
    refine written_of_run hbefore hafter (not_not.mpr ⟨i, hi, rfl⟩) hgone ?_
    intro facts d₁ d₂ h hnot hnow
    obtain ⟨x, hx, hid⟩ := not_not.mp hnot
    rw [← hid]
    refine (h.revoked x hx).resolve_left fun hkept => hnow ?_
    rwa [hid] at hkept
  founded t ht := by
    refine or_iff_not_imp_left.mpr fun hnew => ?_
    exact written_of_run hbefore hafter hnew ht fun facts d₁ d₂ h hnot hnow =>
      (h.founded t hnow).resolve_left hnot
  teams t ht := by
    refine or_iff_not_imp_left.mpr fun hnew => ?_
    exact written_of_run hbefore hafter hnew ht fun facts d₁ d₂ h hnot hnow =>
      (h.teams t hnow).resolve_left hnot
  teamMembers m hm := by
    refine or_iff_not_imp_left.mpr fun hnew => ?_
    exact written_of_run hbefore hafter hnew hm fun facts d₁ d₂ h hnot hnow =>
      (h.teamMembers m hnow).resolve_left hnot
  trail := trail_grows hbefore hafter
  events n e he hn := by
    refine written_of_run hbefore hafter ?_ he ?_
    · rw [List.getElem?_eq_none hn]
      simp
    · intro facts d₁ d₂ h hnot hnow
      refine h.events n e hnow (Nat.le_of_not_lt fun hlt => hnot ?_)
      obtain ⟨added, hadded⟩ := h.trail
      rw [← hadded, List.getElem?_append_left hlt] at hnow
      exact hnow

theorem ledger_since_start {schedule : List (Nat × Choice)}
    {pool : Pool DirectoryInterface Failure Database Session Unit}
    (hrun : run (Pool.step serve) (start settings d jobs) schedule = some pool) :
    Ledger settings (WrittenBy settings d jobs [] schedule) d pool.shared.directory := by
  have hstart : run (Pool.step serve) (start settings d jobs) [] = some (start settings d jobs) :=
    rfl
  exact ledger_kept hstart hrun

/-- Between any two moments of a run, every row of the directory that appears, goes or changes its
role was written by a request of the run, and whoever made the request had been seen, before the
commit that wrote the row, with the role that this takes. -/
theorem rows_accounted
    (hbefore : run (Pool.step serve) (start settings d jobs) first = some before)
    (hafter : run (Pool.step serve) before rest = some after) :
    Accounted settings (WrittenBy settings d jobs first (first ++ rest)) before.shared.directory
      after.shared.directory :=
  (ledger_kept hbefore hafter).toAccounted

/-- Alice owns Acme, and Bob is a member. -/
def founders : Directory where
  tenants := [⟨1, "acme", "Acme", .active, none⟩]
  users := [alice, bob]
  credentials := []
  memberships := [⟨1, alice.id, 1, .owner⟩, ⟨2, bob.id, 1, .member⟩]
  invitations := []
  teams := []
  teamMembers := []
  auditEvents := []

def plainHash : Settings := ⟨id, 24, "https://exemple.fr"⟩

/-- Alice makes Bob an owner while Bob asks to remove her. -/
def promotion : List Job :=
  [.route 1 alice (.memberChangeRole bob.id "owner"), .route 1 bob (.memberRemove alice.id)]

/-- Bob's request is let in after Alice's has committed. -/
def promotedFirst : List (Nat × Choice) :=
  List.replicate 9 (0, calm) ++ List.replicate 3 (1, calm)

theorem promotion_accounted :
    ∃ before after,
      run (Pool.step serve) (start plainHash founders promotion) promotedFirst = some before ∧
      run (Pool.step serve) before (List.replicate 7 (1, calm)) = some after ∧
      after.shared.directory.memberships = [⟨2, bob.id, 1, .owner⟩] ∧
      Accounted plainHash
        (WrittenBy plainHash founders promotion promotedFirst
          (promotedFirst ++ List.replicate 7 (1, calm)))
        before.shared.directory after.shared.directory := by
  obtain ⟨after, hrun, hrows⟩ : ∃ after,
      run (Pool.step serve) (start plainHash founders promotion)
        (promotedFirst ++ List.replicate 7 (1, calm)) = some after ∧
      after.shared.directory.memberships = [⟨2, bob.id, 1, .owner⟩] := by
    apply Option.map_eq_some_iff.mp
    decide +kernel
  obtain ⟨before, hbefore, hafter⟩ := run_append_eq_some.mp hrun
  exact ⟨before, after, hbefore, hafter, hrows, rows_accounted hbefore hafter⟩

/-- The user was seen as an owner of the tenant. -/
def SeenOwner (jobs : List Job) (moments : Set Directory) (tenantId : Nat) (user : User) : Prop :=
  ∃ m, Shown jobs moments (.membership tenantId user.id m) ∧ m.role = .owner

theorem validateRole_owner {text : String} (h : validateRole text = .ok .owner) :
    text = "owner" := by
  unfold validateRole at h
  split at h <;> first | rfl | cases h

theorem seenOwner_of_mayManage {moments : Set Directory} {tenantId : Nat} {actor : User}
    {ownership : Prop} (howner : ownership)
    (h : MayManage {fact | Shown jobs moments fact} tenantId actor ownership) :
    SeenOwner jobs moments tenantId actor := by
  obtain ⟨m, hm, -, hrole⟩ := h
  exact ⟨m, hm, hrole howner⟩

/-- An owner invites this address as an owner, or the command line does. -/
def InvitesOwner (jobs : List Job) (i : Invitation) (moments : Set Directory) : Prop :=
  (∃ actor, .route i.tenantId actor (.invitationCreate i.email "owner") ∈ jobs ∧
    SeenOwner jobs moments i.tenantId actor) ∨
  ∃ slug tenant, .invite slug i.email "owner" ∈ jobs ∧ Shown jobs moments (.tenant tenant) ∧
    tenant.slug = slug ∧ tenant.id = i.tenantId

/-- The invitation was there at the start, or at a step of the run an owner made it or the command
line did. -/
def OwnerInvited (settings : Settings) (d : Directory) (jobs : List Job)
    (schedule : List (Nat × Choice)) (i : Invitation) : Prop :=
  (∃ x ∈ d.invitations, { x with acceptedAt := i.acceptedAt } = i) ∨
    Written settings d jobs [] schedule
      (fun d => ∃ x ∈ d.invitations, { x with acceptedAt := i.acceptedAt } = i)
      (InvitesOwner jobs i)

theorem ownerInvited_of_mem {schedule : List (Nat × Choice)}
    {pool : Pool DirectoryInterface Failure Database Session Unit}
    (hrun : run (Pool.step serve) (start settings d jobs) schedule = some pool)
    {i : Invitation} (hi : i ∈ pool.shared.directory.invitations) (howner : i.role = .owner) :
    OwnerInvited settings d jobs schedule i := by
  refine ((ledger_since_start hrun).invited i hi).imp id fun hwritten => ?_
  refine hwritten.mono (List.prefix_refl _) fun moments hinvited => ?_
  rcases hinvited with ⟨actor, text, hjob, hrole, -, hmay⟩ |
    ⟨slug, text, tenant, hjob, hrole, htenant, hslug, hid, -⟩
  · rw [howner] at hrole
    rw [validateRole_owner hrole] at hjob
    exact .inl ⟨actor, hjob, seenOwner_of_mayManage howner hmay⟩
  · rw [howner] at hrole
    rw [validateRole_owner hrole] at hjob
    exact .inr ⟨slug, tenant, hjob, htenant, hslug, hid⟩

/-- An owner asked for the promotion of the row. -/
def PromotedByOwner (jobs : List Job) (m : Membership) (moments : Set Directory) : Prop :=
  ∃ tenantId actor userId target, .route tenantId actor (.memberChangeRole userId "owner") ∈ jobs ∧
    Shown jobs moments (.membership tenantId userId target) ∧ target.id = m.id ∧
    SeenOwner jobs moments tenantId actor

/-- The holder of the token of an invitation as owner accepted it. -/
def AcceptedAsOwner (settings : Settings) (d : Directory) (jobs : List Job) (m : Membership)
    (schedule : List (Nat × Choice)) : Prop :=
  ∃ token password displayName i, .invitationsAccept token password displayName ∈ jobs ∧
    i.tokenHash = settings.hashToken token ∧ i.tenantId = m.tenantId ∧ i.role = .owner ∧
    OwnerInvited settings d jobs schedule i

/-- Ownership only comes from owners, whatever interleaves: at the step that made it, a new owner
had been promoted by a request of a user who had been seen as an owner of the tenant before, or
held the token of an invitation as owner that was there at the start, that such a user had made, or
that the command line had made. -/
theorem owner_made_by_owner {schedule : List (Nat × Choice)}
    {pool : Pool DirectoryInterface Failure Database Session Unit}
    (hrun : run (Pool.step serve) (start settings d jobs) schedule = some pool)
    {m : Membership} (hm : m ∈ pool.shared.directory.memberships) (howner : m.role = .owner)
    (hnew : m ∉ d.memberships) :
    ∃ earlier action before after, earlier ++ [action] <+: schedule ∧
      run (Pool.step serve) (start settings d jobs) earlier = some before ∧
      Pool.step serve before action = some after ∧
      m ∉ before.shared.directory.memberships ∧ m ∈ after.shared.directory.memberships ∧
      (PromotedByOwner jobs m (momentsOf settings d jobs earlier) ∨
        AcceptedAsOwner settings d jobs m earlier) := by
  obtain ⟨earlier, action, before, after, -, hschedule, hearlier, hstep, hnot, hnow, hright⟩ :=
    ((ledger_since_start hrun).seated m hm).resolve_left hnew
  refine ⟨earlier, action, before, after, hschedule, hearlier, hstep, hnot, hnow, ?_⟩
  rcases hright with
    ⟨token, password, displayName, i, hjob, ⟨d', ⟨first, pool', hfirst, hrun', rfl⟩, hi⟩, htoken,
      -, htenant, hrole⟩ |
    ⟨tenantId, actor, userId, text, target, hjob, hrole, htarget, hid, hmay⟩
  · have hinvited := ownerInvited_of_mem hrun' hi (hrole.trans howner)
    exact .inr ⟨token, password, displayName, i, hjob, htoken, htenant, hrole.trans howner,
      hinvited.imp id fun hwritten => hwritten.mono hfirst fun _ => id⟩
  · rw [howner] at hrole
    rw [validateRole_owner hrole] at hjob
    exact .inl ⟨tenantId, actor, userId, target, hjob, htarget, hid,
      seenOwner_of_mayManage (.inl howner) hmay⟩

theorem bob_made_by_alice :
    ∃ earlier action before after, earlier ++ [action] <+: promotedFirst ∧
      run (Pool.step serve) (start plainHash founders promotion) earlier = some before ∧
      Pool.step serve before action = some after ∧
      ⟨2, bob.id, 1, .owner⟩ ∉ before.shared.directory.memberships ∧
      ⟨2, bob.id, 1, .owner⟩ ∈ after.shared.directory.memberships ∧
      (PromotedByOwner promotion ⟨2, bob.id, 1, .owner⟩
          (momentsOf plainHash founders promotion earlier) ∨
        AcceptedAsOwner plainHash founders promotion ⟨2, bob.id, 1, .owner⟩ earlier) := by
  obtain ⟨pool, hrun, hrows⟩ : ∃ pool,
      run (Pool.step serve) (start plainHash founders promotion) promotedFirst = some pool ∧
      pool.shared.directory.memberships = [⟨1, alice.id, 1, .owner⟩, ⟨2, bob.id, 1, .owner⟩] := by
    apply Option.map_eq_some_iff.mp
    decide +kernel
  have hmem : (⟨2, bob.id, 1, .owner⟩ : Membership) ∈ pool.shared.directory.memberships := by
    rw [hrows]
    decide
  exact owner_made_by_owner hrun hmem rfl (by decide)

/-- The event records a request in the tenant under the name of an actor who may make it, or the
acceptance of an open invitation, or the founding of the tenant. -/
def Recordable (settings : Settings) (jobs : List Job) (e : AuditEvent) (moments : Set Directory) :
    Prop :=
  (∃ actor route m, .route e.tenantId actor route ∈ jobs ∧ route.action = some e.action ∧
    e.actorUserId = some actor.id ∧ Shown jobs moments (.membership e.tenantId actor.id m) ∧
    roleHasPermission m.role route.permission = true) ∨
  (e.action = "core.member.invitation_accepted" ∧ ∃ token password displayName i,
    .invitationsAccept token password displayName ∈ jobs ∧
    i.tokenHash = settings.hashToken token ∧ i.tenantId = e.tenantId ∧ i.acceptedAt = none ∧
    Shown jobs moments (.invitation i)) ∨
  (e.action = "core.tenant.provisioned" ∧ ∃ slug name, .provisionTenant slug name ∈ jobs ∧
    e.payload = [("slug", some slug), ("name", some name)])

/-- Nobody's name is in an audit trail for what they could not do: an event that a run adds, at any
place of the trail, records a request of the run, in the tenant that the request was made in, and
under the name of an actor who had been seen there, before the event was committed, with a role that
carries the permission of the route; only the acceptance of an invitation and the founding of a
tenant need none. -/
theorem event_of_permitted {schedule : List (Nat × Choice)}
    {pool : Pool DirectoryInterface Failure Database Session Unit}
    (hrun : run (Pool.step serve) (start settings d jobs) schedule = some pool)
    {n : Nat} {e : AuditEvent} (he : pool.shared.directory.auditEvents[n]? = some e)
    (hnew : d.auditEvents.length ≤ n) :
    Written settings d jobs [] schedule (fun d => d.auditEvents[n]? = some e)
      (Recordable settings jobs e) := by
  refine ((ledger_since_start hrun).events n e he hnew).mono (List.prefix_refl _) ?_
  rintro moments (⟨actor, route, hjob, haction, hactor, m, hm, hpermission⟩ |
    ⟨role, ⟨token, password, displayName, i, hjob, hi, htoken, hopen, htenant, -⟩, haction⟩ |
    ⟨slug, name, ⟨text, hjob, hslug⟩, haction, -, hpayload⟩)
  · exact .inl ⟨actor, route, m, hjob, haction, hactor, hm, hpermission⟩
  · exact .inr (.inl ⟨haction, token, password, displayName, i, hjob, htoken, htenant, hopen, hi⟩)
  · have hsame : slug = text := by
      unfold RouteGuards.validateSlug at hslug
      split at hslug
      · cases hslug
      · split at hslug
        · cases hslug
        · exact (Except.ok.inj hslug).symm
    exact .inr (.inr ⟨haction, slug, name, hsame ▸ hjob, hpayload⟩)

/-- What Alice's request records. -/
def bobPromoted : AuditEvent :=
  ⟨1, "core.member.role_changed", "membership", bob.id,
    [("email", some bob.email), ("old_role", some "member"), ("new_role", some "owner")],
    some alice.id, alice.email⟩

theorem promotion_permitted :
    Written plainHash founders promotion [] promotedFirst
      (fun d => d.auditEvents[0]? = some bobPromoted)
      (Recordable plainHash promotion bobPromoted) := by
  obtain ⟨pool, hrun, hevents⟩ : ∃ pool,
      run (Pool.step serve) (start plainHash founders promotion) promotedFirst = some pool ∧
      pool.shared.directory.auditEvents = [bobPromoted] := by
    apply Option.map_eq_some_iff.mp
    decide +kernel
  have hrecorded : pool.shared.directory.auditEvents[0]? = some bobPromoted := by rw [hevents]; rfl
  exact event_of_permitted hrun hrecorded (by decide)

end Runs

end Socle.Accountability
