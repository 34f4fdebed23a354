import Mathlib.Algebra.Order.BigOperators.Group.List
import Mathlib.Algebra.Order.Ring.Nat
import Socle.OwnershipProvenance

/-!
How often one invitation can bring a member into its tenant when acceptances
overlap with each other, with revocations and with removals.
-/

namespace Socle.InvitationOnce

open Socle.GuardedRuns
open Socle.Procedures
open Socle.DirectoryStore
open Socle.DirectoryService
open Socle.ServiceFootprints
open Socle.OwnershipProvenance (Personal applyAll_personal_append)

/-- The routes that use, take back or undo an invitation. -/
inductive InvitationRequest where
  | accept (token : String) (password displayName : Option String)
  | revoke (tenantId : Nat) (actor : User) (invitationId : Nat)
  | remove (tenantId : Nat) (actor : User) (userId : Nat)

def InvitationRequest.procedure (settings : Settings) : InvitationRequest → DirectoryProc Reply
  | .accept token password displayName => invitationsAccept settings token password displayName
  | .revoke tenantId actor invitationId => invitationRevoke tenantId actor invitationId
  | .remove tenantId actor userId => memberRemove tenantId actor userId

/-- The database, with the transactions of the control sessions that have been
committed.  A membership does not say which invitation it comes from, its
transaction does. -/
structure Journal where
  database : Database
  log : List (List Change)

/-- The transaction a request commits. -/
def committedBy (d : Directory) (l : Session) : Request → List (List Change)
  | .commitControl =>
      match d.applyAll l.control with
      | .ok _ => [l.control]
      | .error _ => []
  | _ => []

/-- A session, with what an acceptance goes by: the invitation it has read, the
number of transactions committed before, and the user it has found. -/
structure Visit where
  session : Session := {}
  read : Option Invitation := none
  mark : Nat := 0
  found : Option User := none

def Visit.learn (v : Visit) (j : Journal) : (r : Request) → Answer r → Visit
  | .selectInvitationByHash _, row => { v with read := row, mark := j.log.length, found := none }
  | .selectUserByEmail _, user => { v with found := user }
  | _, _ => v

def record : Serve DirectoryInterface Journal Visit Choice
  | j, v, r, c =>
      let out := serve j.database v.session r c
      (⟨out.1, j.log ++ committedBy j.database.directory v.session r⟩,
        { v.learn j r out.2.2 with session := out.2.1 }, out.2.2)

/-- Requests that have just arrived on a directory. -/
def arrived (settings : Settings) (d : Directory) (requests : List InvitationRequest) :
    Pool DirectoryInterface Failure Journal Visit Reply :=
  ⟨⟨⟨d, []⟩, []⟩, requests.map fun r => ({}, r.procedure settings)⟩

def isAddMembership : Change → Bool
  | .addMembership _ => true
  | _ => false

/-- The transaction marks the invitation as accepted. -/
def uses (invitationId : Nat) (transaction : List Change) : Bool :=
  transaction.any fun
    | .setAccepted id _ => id == invitationId
    | _ => false

def revokes (invitationId : Nat) (transaction : List Change) : Bool :=
  transaction.any fun
    | .deleteInvitation id => id == invitationId
    | _ => false

/-- The memberships inserted by a transaction that uses the invitation. -/
def insertions (invitationId : Nat) (transaction : List Change) : Nat :=
  if uses invitationId transaction then transaction.countP isAddMembership else 0

def insertionsFrom (invitationId : Nat) (log : List (List Change)) : Nat :=
  (log.map (insertions invitationId)).sum

/-- A change that only takes rows away. -/
def Retracts : Change → Prop
  | .deleteMembership _ => True
  | .deleteInvitation _ => True
  | _ => False

/-- What is pending on the control session when a route commits it. -/
inductive Shape : List Change → Prop where
  | accepting (changes : List Change) (m : Membership) (invitationId : Nat) (acceptedAt : Instant)
      (hpersonal : ∀ change ∈ changes, Personal change) :
      Shape (changes ++ [.addMembership m, .setAccepted invitationId acceptedAt])
  | retracting {changes : List Change} (h : ∀ change ∈ changes, Retracts change) : Shape changes

def Audits (changes : List Change) : Prop := ∀ change ∈ changes, ∃ event, change = .addAuditEvent event

def allowed (l : Session) : Request → Prop
  | .commitControl => Shape l.control
  | .commitTenant => Audits l.tenant
  | _ => True

/-- The user an acceptance is for: the one found by the email of the invitation,
or a new one with this email. -/
def Invited (v : Visit) (i : Invitation) (changes : List Change) (userId : Nat) : Prop :=
  (∃ user, v.found = some user ∧ user.id = userId) ∨
    ∃ displayName, .addUser ⟨userId, i.email, displayName⟩ ∈ changes

/-- What an acceptance brings to its commit. -/
structure Accepts (v : Visit) (changes : List Change) (m : Membership) (i : Invitation)
    (acceptedAt : Instant) : Prop where
  pending : v.session.control = changes ++ [.addMembership m, .setAccepted i.id acceptedAt]
  personal : ∀ change ∈ changes, Personal change
  read : v.read = some i
  unused : i.acceptedAt = none
  tenant : m.tenantId = i.tenantId
  invited : Invited v i changes m.userId

inductive Brings (v : Visit) : Prop where
  | accepting (changes : List Change) (m : Membership) (i : Invitation) (acceptedAt : Instant)
      (h : Accepts v changes m i acceptedAt)
  | retracting (h : ∀ change ∈ v.session.control, Retracts change)

/-- The same with what the session has read. -/
def lawful (v : Visit) : Request → Prop
  | .selectUserByEmail email => ∃ i, v.read = some i ∧ i.email = email
  | .commitControl => Brings v
  | .commitTenant => Audits v.session.tenant
  | _ => True

theorem Brings.shape {v : Visit} (h : Brings v) : Shape v.session.control := by
  cases h with
  | accepting changes m i acceptedAt h =>
      rw [h.pending]
      exact .accepting changes m i.id acceptedAt h.personal
  | retracting h => exact .retracting h

theorem follows_of_lawful {α : Type} {Q : Visit → Except Failure α → Prop} {p : DirectoryProc α}
    (hp : Follows record lawful Q {} p) : Follows serve allowed (fun _ _ => True) {} p := by
  refine hp.project Visit.session (fun v r h => ?_) fun db v r c => ⟨⟨db, []⟩, rfl, rfl⟩
  cases r with
  | commitControl => exact h.shape
  | commitTenant => exact h
  | _ => trivial

/-- The requests of the two routes that take rows away. -/
def Removing : Request → Prop
  | .addUser .. | .setDisplayName .. | .setPassword _ | .addMembership .. | .setRole ..
  | .addInvitation .. | .setAccepted .. | .addTeam .. | .deleteTeam _ | .addTeamMember ..
  | .deleteTeamMember _ | .addTenant .. | .selectUserByEmail _ => False
  | _ => True

/-- What holds of the session of such a route all along. -/
def Light (v : Visit) : Prop :=
  (∀ change ∈ v.session.control, Retracts change) ∧ Audits v.session.tenant

theorem Audits.append {changes : List Change} (h : Audits changes) (event : AuditEvent) :
    Audits (changes ++ [.addAuditEvent event]) := by
  intro change hmem
  rcases List.mem_append.mp hmem with hold | hnew
  · exact h change hold
  · exact ⟨event, List.mem_singleton.mp hnew⟩

theorem retracts_append {changes : List Change} {change : Change}
    (h : ∀ c ∈ changes, Retracts c) (hchange : Retracts change) :
    ∀ c ∈ changes ++ [change], Retracts c := by
  intro c hc
  rcases List.mem_append.mp hc with hold | hnew
  · exact h c hold
  · exact List.mem_singleton.mp hnew ▸ hchange

theorem light_record {v : Visit} {r : Request} (hr : Removing r) (hv : Light v) :
    lawful v r ∧ ∀ j c, Light (record j v r c).2.1 := by
  obtain ⟨hcontrol, htenant⟩ := hv
  cases r with
  | commitControl => exact ⟨.retracting hcontrol, fun j c => ⟨by simp [record, serve], htenant⟩⟩
  | commitTenant => exact ⟨htenant, fun j c => ⟨hcontrol, by simp [record, serve, Audits]⟩⟩
  | selectMembership tenantId userId =>
      refine ⟨trivial, fun j c => ?_⟩
      simp only [record, serve, Session.resolve]
      split
      · split
        · exact ⟨hcontrol, htenant⟩
        · exact ⟨hcontrol, htenant⟩
      · exact ⟨hcontrol, htenant⟩
  | deleteMembership | deleteInvitation =>
      exact ⟨trivial, fun j c => ⟨retracts_append hcontrol trivial, htenant⟩⟩
  | addAuditEvent event => exact ⟨trivial, fun j c => ⟨hcontrol, htenant.append _⟩⟩
  | addUser | setDisplayName | setPassword | addMembership | setRole | addInvitation | setAccepted
  | addTeam | deleteTeam | addTeamMember | deleteTeamMember | addTenant | selectUserByEmail =>
      exact hr.elim
  | _ => exact ⟨trivial, fun j c => ⟨hcontrol, htenant⟩⟩

theorem removing_requirePermission (tenantId : Nat) (actor : User) (permission : CorePermission) :
    Makes Removing (requirePermission tenantId actor permission) := by
  refine makes_ask_bind trivial ?_
  rintro (_ | membership)
  · trivial
  · refine makes_ask_bind trivial fun _ => ?_
    split <;> trivial

theorem removing_revokeInvitation (tenantId invitationId : Nat) :
    Makes Removing (revokeInvitation tenantId invitationId) := by
  refine makes_ask_bind trivial ?_
  rintro (_ | invitation)
  · trivial
  dsimp only
  split
  · trivial
  split
  · trivial
  · exact makes_ask_bind trivial fun _ => trivial

theorem removing_removeMember (tenantId userId : Nat) (actorRole : Role) :
    Makes Removing (removeMember tenantId userId actorRole) := by
  refine makes_ask_bind trivial ?_
  rintro (_ | membership)
  · trivial
  have hdelete : Makes Removing (ask (.deleteMembership membership.id)) :=
    ⟨trivial, fun _ => trivial⟩
  dsimp only
  split
  · split
    · trivial
    · refine makes_ask_bind trivial fun owners => ?_
      split
      · trivial
      · exact hdelete
  · exact hdelete

theorem removing_emailOfTarget (target : Option Membership) (userId : Nat) :
    Makes Removing (emailOfTarget target userId) := by
  cases target with
  | none => trivial
  | some membership =>
      refine Makes.bind (makes_ask_bind trivial ?_) fun _ => trivial
      rintro (_ | user) <;> trivial

theorem removing_audited_commit (action resourceType : String) (resourceId : Nat)
    (payload : List (String × Option String)) (actor : User) (reply : Reply) :
    Makes Removing (do
      recordAuditEvent action resourceType resourceId payload actor
      commitTenant
      commitControl
      return reply) := by
  have hcommitted (out : Except DatabaseError Unit) : Makes Removing (committed out) := by
    cases out <;> trivial
  refine makes_ask_bind trivial fun _ => ?_
  refine Makes.bind (makes_ask_bind trivial hcommitted) fun _ => ?_
  exact Makes.bind (makes_ask_bind trivial hcommitted) fun _ => trivial

theorem removing_invitationRevoke (tenantId : Nat) (actor : User) (invitationId : Nat) :
    Makes Removing (invitationRevoke tenantId actor invitationId) := by
  refine (removing_requirePermission tenantId actor _).bind fun _ => ?_
  refine (makes_asHttp (removing_revokeInvitation tenantId invitationId) 404 _).bind ?_
  exact fun invitation => removing_audited_commit ..

theorem removing_memberRemove (tenantId : Nat) (actor : User) (userId : Nat) :
    Makes Removing (memberRemove tenantId actor userId) := by
  refine (removing_requirePermission tenantId actor _).bind fun actorRole => ?_
  refine makes_ask_bind trivial fun target => ?_
  refine (removing_emailOfTarget target userId).bind fun email => ?_
  refine (makes_asHttp (removing_removeMember tenantId userId actorRole) 400 _).bind fun _ => ?_
  exact removing_audited_commit ..

theorem follows_invitedUser {v : Visit} (hcontrol : v.session.control = [])
    (htenant : v.session.tenant = []) {i : Invitation} (hread : v.read = some i)
    (password displayName : Option String) :
    Follows record lawful
      (fun v' out => (∀ change ∈ v'.session.control, Personal change) ∧ v'.session.tenant = [] ∧
        v'.read = some i ∧ ∀ user : User, out = .ok user →
          Invited v' i v'.session.control user.id) v
      (invitedUser i password displayName) := by
  refine follows_request_bind.mpr ⟨⟨i, hread, rfl⟩, fun j c => ?_⟩
  simp only [record, serve, Visit.learn]
  cases j.database.directory.userByEmail i.email with
  | none =>
      refine follows_request_bind.mpr ⟨trivial, fun j c => ?_⟩
      cases password with
      | none =>
          refine ⟨by simp [record, serve, Session.addControl, hcontrol, Personal], htenant, hread, ?_⟩
          rintro _ ⟨⟩
          exact .inr ⟨displayName, by simp [record, serve, Session.addControl]⟩
      | some password =>
          refine follows_request_bind.mpr ⟨trivial, fun j' c' => ?_⟩
          refine ⟨by simp [record, serve, Session.addControl, hcontrol, Personal], htenant, hread, ?_⟩
          rintro _ ⟨⟩
          exact .inr ⟨displayName, by simp [record, serve, Session.addControl]⟩
  | some user =>
      refine follows_bind (Q := fun v' out => (∀ change ∈ v'.session.control, Personal change) ∧
        v'.session.tenant = [] ∧ v'.read = some i ∧ ∀ adopted : User, out = .ok adopted →
          Invited v' i v'.session.control adopted.id) ?_ ?_ fun _ _ h => ?_
      · unfold adoptDisplayName
        split
        · refine follows_request_bind.mpr ⟨trivial, fun j c => ?_⟩
          refine ⟨by simp [record, serve, Session.addControl, hcontrol, Personal], htenant, hread, ?_⟩
          rintro _ ⟨⟩
          exact .inl ⟨user, rfl, rfl⟩
        · refine ⟨by simp [hcontrol], htenant, hread, ?_⟩
          rintro _ ⟨⟩
          exact .inl ⟨user, rfl, rfl⟩
      · rintro v' adopted ⟨hpersonal, htenant', hread', hinvited⟩
        split
        · exact ⟨hpersonal, htenant', hread', by simp⟩
        · exact ⟨hpersonal, htenant', hread', hinvited⟩
      · exact ⟨h.1, h.2.1, h.2.2.1, by simp⟩

theorem follows_selectMembership (v : Visit) (tenantId userId : Nat) :
    Follows record lawful
      (fun v' _ => v'.session.control = v.session.control ∧ v'.session.tenant = v.session.tenant ∧
        v'.read = v.read ∧ v'.found = v.found) v
      (ask (.selectMembership tenantId userId)) := by
  refine ⟨trivial, fun j c => ?_⟩
  simp only [record, serve, Session.resolve]
  split
  · split
    · exact ⟨rfl, rfl, rfl, rfl⟩
    · exact ⟨rfl, rfl, rfl, rfl⟩
  · exact ⟨rfl, rfl, rfl, rfl⟩

theorem follows_acceptInvitation (settings : Settings) (token : String)
    (password displayName : Option String) :
    Follows record lawful
      (fun v out => ∀ result, out = .ok result → Brings v ∧ v.session.tenant = []) {}
      (acceptInvitation settings token password displayName) := by
  refine follows_request_bind.mpr ⟨trivial, fun j c => ?_⟩
  simp only [record, serve, Visit.learn]
  cases j.database.directory.invitations.find? fun i =>
      i.tokenHash == settings.hashToken token with
  | none => simp [Follows]
  | some i =>
      refine follows_request_bind.mpr ⟨trivial, fun j c => ?_⟩
      dsimp only
      split
      · simp [Follows]
      rename_i hvalid
      have hunused : i.acceptedAt = none := by simpa using (not_or.mp hvalid).1
      refine follows_bind (follows_invitedUser rfl rfl rfl password displayName) ?_ (by simp)
      rintro v user ⟨hpersonal, htenant, hread, hinvited⟩
      refine follows_bind (follows_selectMembership v i.tenantId user.id) ?_ (by simp)
      rintro v' found ⟨hcontrol, htenant', hread', hfound⟩
      split
      · simp [Follows]
      refine follows_request_bind.mpr ⟨trivial, fun j c => ?_⟩
      refine follows_request_bind.mpr ⟨trivial, fun j' c' => ?_⟩
      refine follows_request_bind.mpr ⟨trivial, fun j'' c'' => ?_⟩
      intro result _
      refine ⟨.accepting v.session.control ⟨c.uuid, user.id, i.tenantId, i.role⟩ i c'.now
        ⟨?_, hpersonal, hread'.trans hread, hunused, rfl, ?_⟩, htenant'.trans htenant⟩
      · simp [record, serve, Session.addControl, hcontrol]
      · rcases hinvited user rfl with ⟨x, hx, hid⟩ | hadded
        · exact .inl ⟨x, hfound.trans hx, hid⟩
        · exact .inr hadded

theorem follows_invitationsAccept (settings : Settings) (token : String)
    (password displayName : Option String) :
    Follows record lawful (fun _ _ => True) {}
      (invitationsAccept settings token password displayName) := by
  refine follows_bind (follows_asHttp (follows_acceptInvitation settings token password
    displayName) 400 directoryErrors) ?_ (by simp)
  rintro v ⟨user, invitation⟩ hpending
  obtain ⟨hbrings, htenant⟩ := hpending (user, invitation) rfl
  refine follows_bind (Q := fun v' _ => v'.session.tenant = []) ⟨hbrings, fun j c => ?_⟩ ?_
    (by simp)
  · dsimp only [record, serve]
    cases (j.database.commit v.session.control).2 <;> exact htenant
  intro v _ htenant
  refine follows_request_bind.mpr ⟨trivial, fun j c => ?_⟩
  simp only [record, serve]
  cases j.database.directory.tenants.find? fun t => t.id == invitation.tenantId with
  | none => trivial
  | some tenant =>
      refine follows_request_bind.mpr ⟨trivial, fun j c => ?_⟩
      refine follows_request_bind.mpr ⟨trivial, fun j c => ?_⟩
      have hnone : Audits [] := by simp [Audits]
      refine follows_bind (Q := fun _ _ => True) ⟨?_, fun j c => ?_⟩ (fun _ _ _ => trivial) (by simp)
      · simp only [lawful, record, serve, Visit.learn, Session.addTenant, htenant]
        exact hnone.append _
      · dsimp only [record, serve]
        cases (j.database.commit _).2 <;> trivial

theorem light_arrived : Light {} := ⟨by simp, by simp [Audits]⟩

theorem follows_invitationRevoke (tenantId : Nat) (actor : User) (invitationId : Nat) :
    Follows record lawful (fun _ _ => True) {} (invitationRevoke tenantId actor invitationId) :=
  ((removing_invitationRevoke tenantId actor invitationId).follows_of
    (fun _ _ => light_record) light_arrived).mono fun _ _ _ => trivial

theorem follows_memberRemove (tenantId : Nat) (actor : User) (userId : Nat) :
    Follows record lawful (fun _ _ => True) {} (memberRemove tenantId actor userId) :=
  ((removing_memberRemove tenantId actor userId).follows_of
    (fun _ _ => light_record) light_arrived).mono fun _ _ _ => trivial

theorem disciplined_arrived (settings : Settings) (d : Directory)
    (requests : List InvitationRequest) :
    Disciplined record lawful (arrived settings d requests) := by
  intro thread hmem
  obtain ⟨r, -, rfl⟩ := List.mem_map.mp hmem
  cases r with
  | accept token password displayName => exact follows_invitationsAccept ..
  | revoke tenantId actor invitationId => exact follows_invitationRevoke ..
  | remove tenantId actor userId => exact follows_memberRemove ..

/-- The later transaction deletes a membership that the earlier one has inserted. -/
def evicts (earlier later : List Change) : Bool :=
  earlier.any fun
    | .addMembership m => later.contains (.deleteMembership m.id)
    | _ => false

/-- The side condition on a step: when an acceptance commits, it has not happened since
it read its invitation that another acceptance of it committed and that the member this
one brought in was then removed. -/
def keepsMember (j : Journal) (visits : List Visit) (n : Nat) : Request → Prop
  | .commitControl => ∀ v ∈ visits[n]?, ∀ i ∈ v.read,
      (j.log.drop v.mark).Pairwise fun earlier later =>
        uses i.id earlier = true → evicts earlier later = false
  | _ => True

instance (j : Journal) (visits : List Visit) (n : Nat) (r : Request) :
    Decidable (keepsMember j visits n r) := by
  unfold keepsMember
  split <;> infer_instance

/-- What the log and the invitations have in common. -/
structure Kept (j : Journal) : Prop where
  once : ∀ id, insertionsFrom id j.log ≤ 1
  used : ∀ id, 0 < insertionsFrom id j.log →
    ∀ i ∈ j.database.directory.invitations, i.id = id → i.acceptedAt.isSome = true
  gone : ∀ id, ∀ transaction ∈ j.log, revokes id transaction = true →
    ∀ i ∈ j.database.directory.invitations, i.id ≠ id
  last : ∀ id, j.log.Pairwise fun earlier later =>
    revokes id earlier = true → insertions id later = 0

section Commits

variable {d d' : Directory} {changes : List Change} {m : Membership} {id : Nat} {acceptedAt : Instant}

theorem insertionsFrom_append (id : Nat) (log : List (List Change)) (transaction : List Change) :
    insertionsFrom id (log ++ [transaction]) = insertionsFrom id log + insertions id transaction := by
  simp [insertionsFrom]

theorem rows_of_accepting (hpersonal : ∀ change ∈ changes, Personal change)
    (hcommit : d.applyAll (changes ++ [.addMembership m, .setAccepted id acceptedAt]) = .ok d') :
    d.getMembership m.tenantId m.userId = none ∧ (∃ i ∈ d.invitations, i.id = id) ∧
      d'.memberships = d.memberships ++ [m] ∧
      d'.invitations = d.invitations.map fun i =>
        if i.id = id then { i with acceptedAt := some acceptedAt } else i := by
  obtain ⟨d₁, hmembers, hinvitations, hrest⟩ := applyAll_personal_append hpersonal hcommit
  simp only [Directory.applyAll] at hrest
  split at hrest
  swap
  · cases hrest
  rename_i d₂ hadd
  split at hrest
  swap
  · cases hrest
  rename_i d₃ hset
  cases hrest
  simp only [Directory.apply] at hadd hset
  split at hadd
  · cases hadd
  rename_i hfresh
  split at hadd
  swap
  · cases hadd
  cases hadd
  split at hset
  swap
  · cases hset
  rename_i hrow
  cases hset
  refine ⟨?_, ?_, by rw [← hmembers], by rw [hinvitations]⟩
  · rw [hmembers] at hfresh
    refine List.find?_eq_none.mpr fun x hx heq => hfresh (List.any_eq_true.mpr ⟨x, hx, ?_⟩)
    rw [heq, Bool.or_true]
  · rw [hinvitations] at hrow
    obtain ⟨i, hi, hid⟩ := List.any_eq_true.mp hrow
    exact ⟨i, hi, beq_iff_eq.mp hid⟩

theorem invitations_of_retracting (h : ∀ change ∈ changes, Retracts change)
    (hcommit : d.applyAll changes = .ok d') :
    d'.invitations = d.invitations.filter fun i => !revokes i.id changes := by
  induction changes generalizing d with
  | nil =>
      cases hcommit
      simp [revokes]
  | cons change rest ih =>
      have hrest (c : Change) (hc : c ∈ rest) : Retracts c := h c (List.mem_cons_of_mem _ hc)
      cases change with
      | deleteMembership membershipId =>
          rw [ih hrest hcommit]
          rfl
      | deleteInvitation invitationId =>
          rw [ih hrest hcommit, List.filter_filter]
          refine List.filter_congr fun i _ => ?_
          rw [revokes, revokes, List.any_cons, Bool.not_or, Bool.and_comm, bne_comm]
          rfl
      | _ => exact (h _ List.mem_cons_self).elim

theorem insertions_of_retracting (h : ∀ change ∈ changes, Retracts change) (id : Nat) :
    insertions id changes = 0 := by
  have hcount : changes.countP isAddMembership = 0 := by
    rw [List.countP_eq_zero]
    intro change hmem hadd
    have hretracts := h change hmem
    cases change with
    | addMembership m => exact hretracts
    | _ => cases hadd
  unfold insertions
  rw [hcount, ite_self]

theorem personal_cases {change : Change} (h : Personal change) :
    isAddMembership change = false ∧ (∀ id, uses id [change] = false) ∧
      ∀ id, revokes id [change] = false := by
  cases change with
  | addUser | setDisplayName | setPassword => exact ⟨rfl, fun _ => rfl, fun _ => rfl⟩
  | _ => exact h.elim

theorem personal_all (hpersonal : ∀ change ∈ changes, Personal change) :
    changes.countP isAddMembership = 0 ∧ (∀ id, uses id changes = false) ∧
      ∀ id, revokes id changes = false := by
  induction changes with
  | nil => exact ⟨rfl, fun _ => rfl, fun _ => rfl⟩
  | cons change rest ih =>
      obtain ⟨hadds, huses, hrevokes⟩ := personal_cases (hpersonal change List.mem_cons_self)
      obtain ⟨hcount, huses', hrevokes'⟩ := ih fun c hc => hpersonal c (List.mem_cons_of_mem _ hc)
      refine ⟨by simp [hadds, hcount], fun id => ?_, fun id => ?_⟩
      · have hone := huses id
        have hrest := huses' id
        unfold uses at *
        rw [List.any_cons, hrest]
        simpa using hone
      · have hone := hrevokes id
        have hrest := hrevokes' id
        unfold revokes at *
        rw [List.any_cons, hrest]
        simpa using hone

theorem insertions_of_accepting (hpersonal : ∀ change ∈ changes, Personal change) (id' : Nat) :
    insertions id' (changes ++ [.addMembership m, .setAccepted id acceptedAt]) =
      if id = id' then 1 else 0 := by
  obtain ⟨hcount, huses, -⟩ := personal_all hpersonal
  have hmark : uses id' (changes ++ [.addMembership m, .setAccepted id acceptedAt]) =
      (id == id') := by
    rw [uses, List.any_append, ← uses, huses]
    simp
  have hlast : [Change.addMembership m, .setAccepted id acceptedAt].countP isAddMembership = 1 := rfl
  rw [insertions, hmark, List.countP_append, hcount, hlast]
  simp

theorem revokes_of_accepting (hpersonal : ∀ change ∈ changes, Personal change) (id' : Nat) :
    revokes id' (changes ++ [.addMembership m, .setAccepted id acceptedAt]) = false := by
  rw [revokes, List.any_append, ← revokes, (personal_all hpersonal).2.2]
  rfl

end Commits

section Steps

variable {j : Journal} {changes : List Change} {d' : Directory}

theorem Kept.append (h : Kept j) {transaction : List Change} {db : Database}
    (hnew : ∀ id, 0 < insertions id transaction → insertions id transaction = 1 ∧
      insertionsFrom id j.log = 0 ∧ ∃ i ∈ j.database.directory.invitations, i.id = id)
    (hused : ∀ id, 0 < insertionsFrom id j.log + insertions id transaction →
      ∀ i ∈ db.directory.invitations, i.id = id → i.acceptedAt.isSome = true)
    (hgone : ∀ i ∈ db.directory.invitations, revokes i.id transaction = false ∧
      i.id ∈ j.database.directory.invitations.map fun i => i.id) :
    Kept ⟨db, j.log ++ [transaction]⟩ := by
  refine ⟨fun id => ?_, fun id hpos => ?_, fun id t ht hrevokes i hi => ?_, fun id => ?_⟩
  · rw [insertionsFrom_append]
    by_cases hpos : 0 < insertions id transaction
    · obtain ⟨hone, hzero, -⟩ := hnew id hpos
      omega
    · have hold := h.once id
      omega
  · rw [insertionsFrom_append] at hpos
    exact hused id hpos
  · rintro rfl
    obtain ⟨hkept, hold⟩ := hgone i hi
    rcases List.mem_append.mp ht with hbefore | hnow
    · obtain ⟨x, hx, hid⟩ := List.mem_map.mp hold
      exact h.gone i.id t hbefore hrevokes x hx hid
    · rw [List.mem_singleton.mp hnow, hkept] at hrevokes
      cases hrevokes
  · refine List.pairwise_append.mpr ⟨h.last id, List.pairwise_singleton _ _, ?_⟩
    intro earlier hearlier later hlater hrevokes
    rw [List.mem_singleton.mp hlater]
    by_contra hne
    obtain ⟨-, -, x, hx, hid⟩ := hnew id (Nat.pos_of_ne_zero hne)
    exact h.gone id earlier hearlier hrevokes x hx hid

theorem kept_accepting {m : Membership} {id : Nat} {acceptedAt : Instant}
    (h : Kept j) (hpersonal : ∀ change ∈ changes, Personal change)
    (hunused : insertionsFrom id j.log = 0)
    (hcommit : j.database.directory.applyAll
      (changes ++ [.addMembership m, .setAccepted id acceptedAt]) = .ok d') {history : List Trace} :
    Kept ⟨⟨d', history⟩, j.log ++ [changes ++ [.addMembership m, .setAccepted id acceptedAt]]⟩ := by
  obtain ⟨-, ⟨row, hrow, hid⟩, -, hinvitations⟩ := rows_of_accepting hpersonal hcommit
  refine h.append ?_ ?_ ?_
  · intro id' hpos
    rw [insertions_of_accepting hpersonal] at hpos ⊢
    split at hpos
    · rename_i heq
      subst heq
      exact ⟨if_pos rfl, hunused, row, hrow, hid⟩
    · cases hpos
  · intro id' hpos i hi hi'
    rw [hinvitations] at hi
    obtain ⟨x, hx, rfl⟩ := List.mem_map.mp hi
    by_cases hmarked : x.id = id
    · simp [hmarked]
    · rw [if_neg hmarked] at hi' ⊢
      rw [insertions_of_accepting hpersonal, if_neg (hi' ▸ Ne.symm hmarked), Nat.add_zero] at hpos
      exact h.used id' hpos x hx hi'
  · intro i hi
    refine ⟨revokes_of_accepting hpersonal i.id, ?_⟩
    rw [hinvitations] at hi
    obtain ⟨x, hx, rfl⟩ := List.mem_map.mp hi
    refine List.mem_map.mpr ⟨x, hx, ?_⟩
    split <;> rfl

theorem kept_retracting (h : Kept j) (hretracts : ∀ change ∈ changes, Retracts change)
    (hcommit : j.database.directory.applyAll changes = .ok d') {history : List Trace} :
    Kept ⟨⟨d', history⟩, j.log ++ [changes]⟩ := by
  have hinvitations := invitations_of_retracting hretracts hcommit
  refine h.append ?_ ?_ ?_
  · intro id hpos
    rw [insertions_of_retracting hretracts] at hpos
    cases hpos
  · intro id hpos i hi hid
    rw [insertions_of_retracting hretracts, Nat.add_zero] at hpos
    rw [hinvitations] at hi
    exact h.used id hpos i (List.mem_of_mem_filter hi) hid
  · intro i hi
    rw [hinvitations] at hi
    obtain ⟨hold, hkept⟩ := List.mem_filter.mp hi
    exact ⟨by simpa using hkept, List.mem_map_of_mem hold⟩

theorem rest_of_audits {d d' : Directory} (h : Audits changes)
    (hcommit : d.applyAll changes = .ok d') : d' = { d with auditEvents := d'.auditEvents } := by
  induction changes generalizing d with
  | nil =>
      cases hcommit
      rfl
  | cons change rest ih =>
      obtain ⟨event, rfl⟩ := h change List.mem_cons_self
      have hrest : Audits rest := fun c hc => h c (List.mem_cons_of_mem _ hc)
      exact ih hrest (d := { d with auditEvents := d.auditEvents ++ [event] }) hcommit

theorem invitations_of_audits {d d' : Directory} (h : Audits changes)
    (hcommit : d.applyAll changes = .ok d') : d'.invitations = d.invitations := by
  rw [rest_of_audits h hcommit]

theorem Kept.congr (h : Kept j) {db : Database}
    (hinvitations : db.directory.invitations = j.database.directory.invitations) :
    Kept ⟨db, j.log⟩ := by
  refine ⟨h.once, ?_, ?_, h.last⟩
  · intro id hpos
    rw [hinvitations]
    exact h.used id hpos
  · intro id transaction hmem hrevokes
    rw [hinvitations]
    exact h.gone id transaction hmem hrevokes

end Steps

/-- The users with their emails, as the unique index compares them. -/
def emails (d : Directory) : List (Nat × String) := d.users.map fun u => (u.id, d.lower u.email)

theorem emails_apply {d d' : Directory} {change : Change} (happly : d.apply change = .ok d') :
    (emails d' = emails d ∧ ∀ user, change ≠ .addUser user) ∨
      ∃ user, change = .addUser user ∧ d.lower user.email ∉ (emails d).map Prod.snd ∧
        emails d' = emails d ++ [(user.id, d.lower user.email)] := by
  cases change with
  | addUser user =>
      simp only [Directory.apply] at happly
      split at happly
      · cases happly
      · rename_i hfresh
        cases happly
        refine .inr ⟨user, rfl, fun hmem => hfresh ?_, by simp [emails]⟩
        simp only [emails, List.map_map, List.mem_map, Function.comp_apply] at hmem
        obtain ⟨x, hx, hsame⟩ := hmem
        exact List.any_eq_true.mpr ⟨x, hx, by simp [hsame]⟩
  | setDisplayName userId displayName =>
      simp only [Directory.apply] at happly
      split at happly
      · cases happly
        refine .inl ⟨?_, by simp⟩
        simp only [emails, List.map_map]
        refine List.map_congr_left fun u _ => ?_
        by_cases hu : u.id = userId <;> simp [hu]
      · cases happly
  | _ =>
      simp only [Directory.apply] at happly
      repeat' split at happly
      all_goals cases happly
      all_goals exact .inl ⟨rfl, by simp⟩

theorem emails_applyAll {d d' : Directory} {changes : List Change}
    (happly : d.applyAll changes = .ok d') (hunique : ((emails d).map Prod.snd).Nodup) :
    ((emails d').map Prod.snd).Nodup ∧ emails d ⊆ emails d' ∧
      ∀ user, .addUser user ∈ changes → (user.id, d.lower user.email) ∈ emails d' ∧
        d.lower user.email ∉ (emails d).map Prod.snd := by
  induction changes generalizing d with
  | nil =>
      cases happly
      exact ⟨hunique, List.Subset.refl _, by simp⟩
  | cons change rest ih =>
      simp only [Directory.applyAll] at happly
      split at happly
      swap
      · cases happly
      rename_i d₁ hfirst
      have happlied : d.applyAll [change] = .ok d₁ := by simp [Directory.applyAll, hfirst]
      have hlower : d₁.lower = d.lower := Directory.lower_applyAll happlied
      rcases emails_apply hfirst with ⟨hsame, hother⟩ | ⟨user, rfl, hfresh, hadded⟩
      · obtain ⟨hnodup, hsubset, husers⟩ := ih happly (hsame ▸ hunique)
        rw [hlower, hsame] at husers
        refine ⟨hnodup, hsame ▸ hsubset, fun user huser => husers user ?_⟩
        exact (List.mem_cons.mp huser).resolve_left fun h => hother user h.symm
      · have hunique₁ : ((emails d₁).map Prod.snd).Nodup := by
          rw [hadded, List.map_append]
          exact hunique.append (List.nodup_singleton _) (by simpa using hfresh)
        obtain ⟨hnodup, hsubset, husers⟩ := ih happly hunique₁
        rw [hlower, hadded] at husers
        rw [hadded] at hsubset
        refine ⟨hnodup, fun x hx => hsubset (List.mem_append_left _ hx), fun user' huser' => ?_⟩
        rcases List.mem_cons.mp huser' with heq | hrest
        · cases heq
          exact ⟨hsubset (List.mem_append_right _ (List.mem_singleton_self _)), hfresh⟩
        · obtain ⟨hmem, hfresh'⟩ := husers user' hrest
          refine ⟨hmem, fun h => hfresh' ?_⟩
          rw [List.map_append]
          exact List.mem_append_left _ h

theorem memberships_of_retracting {d d' : Directory} {changes : List Change}
    (h : ∀ change ∈ changes, Retracts change) (hcommit : d.applyAll changes = .ok d') :
    d'.memberships = d.memberships.filter fun m => !changes.contains (.deleteMembership m.id) := by
  induction changes generalizing d with
  | nil =>
      cases hcommit
      simp
  | cons change rest ih =>
      have hrest (c : Change) (hc : c ∈ rest) : Retracts c := h c (List.mem_cons_of_mem _ hc)
      cases change with
      | deleteMembership membershipId =>
          rw [ih hrest hcommit, List.filter_filter]
          refine List.filter_congr fun m _ => ?_
          have hnot : (!decide (m.id = membershipId)) = (m.id != membershipId) := rfl
          simp [Bool.and_comm, hnot]
      | deleteInvitation invitationId =>
          rw [ih hrest hcommit]
          exact List.filter_congr fun m _ => by simp
      | _ => exact (h _ List.mem_cons_self).elim

/-- Inserted by a transaction of the log, and deleted by none after it. -/
def Inserted (m : Membership) (log : List (List Change)) : Prop :=
  ∃ before transaction after, log = before ++ transaction :: after ∧
    .addMembership m ∈ transaction ∧ ∀ later ∈ after, .deleteMembership m.id ∉ later

theorem inserted_append {m : Membership} {log : List (List Change)} {transaction : List Change}
    (h : Inserted m (log ++ [transaction])) :
    .addMembership m ∈ transaction ∨
      Inserted m log ∧ .deleteMembership m.id ∉ transaction := by
  obtain ⟨before, inserting, after, heq, hmem, hkept⟩ := h
  rcases List.eq_nil_or_concat after with rfl | ⟨front, last, rfl⟩
  · obtain ⟨-, hlast⟩ := List.append_inj' heq rfl
    cases hlast
    exact .inl hmem
  · rw [List.concat_eq_append] at heq hkept
    rw [← List.cons_append, ← List.append_assoc] at heq
    obtain ⟨hfront, hlast⟩ := List.append_inj' heq rfl
    cases hlast
    exact .inr ⟨⟨before, inserting, front, hfront, hmem,
      fun later hlater => hkept later (List.mem_append_left _ hlater)⟩,
      hkept _ (List.mem_append_right _ (List.mem_singleton_self _))⟩

/-- A row of the start, but for its mark. -/
def Origin (start : Directory) (i : Invitation) : Prop :=
  ∃ x ∈ start.invitations, x.id = i.id ∧ x.tenantId = i.tenantId ∧ x.email = i.email

/-- The log accounts for the members that acceptances have brought in: each has the tenant
and the email of its invitation, and is there unless a transaction has deleted it. -/
structure Joined (start : Directory) (j : Journal) : Prop where
  rows : ∀ i ∈ j.database.directory.invitations, Origin start i
  unique : ((emails j.database.directory).map Prod.snd).Nodup
  joined : ∀ transaction ∈ j.log, ∀ id, uses id transaction = true →
    ∃ m, .addMembership m ∈ transaction ∧ ∃ i ∈ start.invitations, i.id = id ∧
      m.tenantId = i.tenantId ∧
      (m.userId, j.database.directory.lower i.email) ∈ emails j.database.directory
  stays : ∀ m, Inserted m j.log → m ∈ j.database.directory.memberships

/-- What a session has read, against what has been committed. -/
structure Dated (start : Directory) (j : Journal) (v : Visit) : Prop where
  mark : v.mark ≤ j.log.length
  origin : ∀ i, v.read = some i → Origin start i
  unused : ∀ i, v.read = some i → i.acceptedAt = none →
    ∀ transaction ∈ j.log.take v.mark, uses i.id transaction = false
  found : ∀ user, v.found = some user → ∃ i, v.read = some i ∧
    (user.id, j.database.directory.lower i.email) ∈ emails j.database.directory

structure Consistent (start : Directory) (j : Journal) (visits : List Visit) : Prop where
  past : Kept j
  members : Joined start j
  dated : ∀ v ∈ visits, Dated start j v

/-- The primary key of the invitations, and the unique index on the emails. -/
structure Keyed (d : Directory) : Prop where
  invitations : (d.invitations.map fun i => i.id).Nodup
  unique : ((emails d).map Prod.snd).Nodup

section Reads

variable {start : Directory} {j : Journal} {visits : List Visit} {v : Visit}

theorem Dated.later (h : Dated start j v) {d' : Directory} {history : List Trace}
    {transactions : List (List Change)} (hlower : d'.lower = j.database.directory.lower)
    (husers : emails j.database.directory ⊆ emails d') :
    Dated start ⟨⟨d', history⟩, j.log ++ transactions⟩ v := by
  refine ⟨Nat.le_trans h.mark (by simp), h.origin, ?_, ?_⟩
  · rw [List.take_append_of_le_length h.mark]
    exact h.unused
  · intro user huser
    obtain ⟨i, hread, hmem⟩ := h.found user huser
    refine ⟨i, hread, ?_⟩
    simp only [hlower]
    exact husers hmem

theorem insertionsFrom_pos {log : List (List Change)} {transaction : List Change} {id : Nat}
    {m : Membership} (hmem : transaction ∈ log) (huses : uses id transaction = true)
    (hadds : .addMembership m ∈ transaction) : 0 < insertionsFrom id log := by
  have hone : 0 < insertions id transaction := by
    rw [insertions, if_pos huses]
    exact List.countP_pos_iff.mpr ⟨_, hadds, rfl⟩
  exact Nat.lt_of_lt_of_le hone (List.le_sum_of_mem (List.mem_map_of_mem hmem))

theorem insertionsFrom_eq_zero {log : List (List Change)} {id : Nat}
    (h : ∀ transaction ∈ log, uses id transaction = false) : insertionsFrom id log = 0 := by
  refine List.sum_eq_zero fun n hn => ?_
  obtain ⟨transaction, hmem, rfl⟩ := List.mem_map.mp hn
  rw [insertions, if_neg (by simp [h transaction hmem])]

theorem dated_record (h : Consistent start j visits) (hv : Dated start j v) {r : Request}
    (c : Choice) (hlawful : lawful v r) : Dated start j (record j v r c).2.1 := by
  cases r with
  | selectInvitationByHash tokenHash =>
      refine ⟨Nat.le_refl _, ?_, ?_, by simp [record, Visit.learn]⟩
      · intro i hread
        exact h.members.rows i (List.mem_of_find?_eq_some hread)
      · intro i hread hunused transaction htransaction
        by_contra huses
        have htransaction' : transaction ∈ j.log := List.mem_of_mem_take htransaction
        have huses' : uses i.id transaction = true := by simpa using huses
        obtain ⟨m, hadds, -⟩ := h.members.joined transaction htransaction' i.id huses'
        have haccepted := h.past.used i.id (insertionsFrom_pos htransaction' huses' hadds) i
          (List.mem_of_find?_eq_some hread) rfl
        rw [hunused] at haccepted
        cases haccepted
  | selectUserByEmail email =>
      obtain ⟨i, hread, rfl⟩ := hlawful
      refine ⟨hv.mark, hv.origin, hv.unused, fun user huser => ⟨i, hread, ?_⟩⟩
      have hfound : j.database.directory.userByEmail i.email = some user := huser
      have hsame := List.find?_some hfound
      refine List.mem_map.mpr ⟨user, List.mem_of_find?_eq_some hfound, ?_⟩
      rw [beq_iff_eq.mp hsame]
  | _ => exact ⟨hv.mark, hv.origin, hv.unused, hv.found⟩

/-- An acceptance whose commit goes through is the first one of its invitation: one that had
committed before the reading would have been seen, and the member of one that has committed
since is still there, under the unique index. -/
theorem unused_of_commit (hkeyed : Keyed start) (h : Consistent start j visits)
    (hv : Dated start j v) {changes : List Change} {m : Membership} {i : Invitation}
    {acceptedAt : Instant} (haccepts : Accepts v changes m i acceptedAt)
    (hcond : (j.log.drop v.mark).Pairwise fun earlier later =>
      uses i.id earlier = true → evicts earlier later = false) {d' : Directory}
    (hcommit : j.database.directory.applyAll
      (changes ++ [.addMembership m, .setAccepted i.id acceptedAt]) = .ok d') :
    ∀ transaction ∈ j.log, uses i.id transaction = false := by
  obtain ⟨habsent, -⟩ := rows_of_accepting haccepts.personal hcommit
  intro transaction hmem
  by_contra huses
  have huses' : uses i.id transaction = true := by simpa using huses
  rw [← List.take_append_drop v.mark j.log] at hmem
  rcases List.mem_append.mp hmem with hbefore | hsince
  · exact huses (hv.unused i haccepts.read haccepts.unused transaction hbefore)
  obtain ⟨before, after, hsplit⟩ := List.append_of_mem hsince
  rw [← List.take_append_drop v.mark j.log] at hmem
  have hlog : j.log = (j.log.take v.mark ++ before) ++ transaction :: after := by
    rw [List.append_assoc, ← hsplit, List.take_append_drop]
  obtain ⟨m₁, hadds, x, hx, hid, htenant, hemail⟩ := h.members.joined transaction
    (hlog ▸ by simp) i.id huses'
  -- The member of the other acceptance has not been removed.
  have hkept : m₁ ∈ j.database.directory.memberships := by
    refine h.members.stays m₁ ⟨_, transaction, after, hlog, hadds, fun later hlater hdeleted => ?_⟩
    rw [hsplit] at hcond
    have hevicts := (List.pairwise_cons.mp (List.pairwise_append.mp hcond).2.1).1 later hlater huses'
    have hcontains : evicts transaction later = true :=
      List.any_eq_true.mpr ⟨_, hadds, by simpa using hdeleted⟩
    rw [hcontains] at hevicts
    cases hevicts
  -- It has the tenant and the email of the invitation, hence the user.
  obtain ⟨y, hy, hyid, hytenant, hyemail⟩ := hv.origin i haccepts.read
  obtain rfl : x = y :=
    List.inj_on_of_nodup_map hkeyed.invitations hx hy (hid.trans hyid.symm)
  rw [hyemail] at hemail
  have huser : m.userId = m₁.userId := by
    obtain ⟨hunique, hsubset, hadded⟩ := emails_applyAll hcommit h.members.unique
    rcases haccepts.invited with ⟨user, hfound, huserId⟩ | ⟨displayName, hnew⟩
    · obtain ⟨i', hread, hmem'⟩ := hv.found user hfound
      obtain rfl : i = i' := Option.some.inj (haccepts.read.symm.trans hread)
      rw [← huserId]
      exact congrArg Prod.fst (List.inj_on_of_nodup_map h.members.unique hmem' hemail rfl)
    · refine ((hadded _ (List.mem_append_left _ hnew)).2 ?_).elim
      exact List.mem_map.mpr ⟨_, hemail, rfl⟩
  have hnone := List.find?_eq_none.mp habsent m₁ hkept
  simp [huser, haccepts.tenant, htenant, hytenant] at hnone

end Reads

section Steps

variable {start : Directory} {j : Journal} {visits : List Visit} {v : Visit}

theorem joined_accepting (h : Joined start j) (hv : Dated start j v) {changes : List Change}
    {m : Membership} {i : Invitation} {acceptedAt : Instant}
    (haccepts : Accepts v changes m i acceptedAt) {d' : Directory} {history : List Trace}
    (hcommit : j.database.directory.applyAll
      (changes ++ [.addMembership m, .setAccepted i.id acceptedAt]) = .ok d') :
    Joined start ⟨⟨d', history⟩,
      j.log ++ [changes ++ [.addMembership m, .setAccepted i.id acceptedAt]]⟩ := by
  obtain ⟨-, -, hmembers, hinvitations⟩ := rows_of_accepting haccepts.personal hcommit
  obtain ⟨hunique, hsubset, hadded⟩ := emails_applyAll hcommit h.unique
  have hlower := Directory.lower_applyAll hcommit
  refine ⟨fun x hx => ?_, hunique, fun transaction hmem id huses => ?_, fun m' hm' => ?_⟩
  · rw [hinvitations] at hx
    obtain ⟨y, hy, rfl⟩ := List.mem_map.mp hx
    obtain ⟨row, hrow, hid, htenant, hemail⟩ := h.rows y hy
    refine ⟨row, hrow, ?_⟩
    split
    · exact ⟨hid, htenant, hemail⟩
    · exact ⟨hid, htenant, hemail⟩
  · simp only [hlower]
    rcases List.mem_append.mp hmem with hold | hnew
    · obtain ⟨m', hadds, x, hx, hid, htenant, hemail⟩ := h.joined transaction hold id huses
      exact ⟨m', hadds, x, hx, hid, htenant, hsubset hemail⟩
    · obtain rfl := List.mem_singleton.mp hnew
      obtain ⟨x, hx, hid, htenant, hemail⟩ := hv.origin i haccepts.read
      have hmark : i.id = id := by
        have hinsertions := @insertions_of_accepting _ m i.id acceptedAt haccepts.personal id
        rw [insertions, if_pos huses] at hinsertions
        by_contra hne
        rw [if_neg hne] at hinsertions
        exact List.countP_eq_zero.mp hinsertions (.addMembership m) (by simp) rfl
      refine ⟨m, by simp, x, hx, hid.trans hmark, haccepts.tenant.trans htenant.symm, ?_⟩
      rw [hemail]
      rcases haccepts.invited with ⟨user, hfound, huserId⟩ | ⟨displayName, hnew⟩
      · obtain ⟨i', hread, hmem'⟩ := hv.found user hfound
        obtain rfl : i = i' := Option.some.inj (haccepts.read.symm.trans hread)
        rw [← huserId]
        exact hsubset hmem'
      · exact (hadded _ (List.mem_append_left _ hnew)).1
  · simp only [hmembers]
    rcases inserted_append hm' with hnow | ⟨hbefore, -⟩
    · have heq : m' = m := by
        rcases List.mem_append.mp hnow with hpersonal | hlast
        · exact (haccepts.personal _ hpersonal).elim
        · simpa using hlast
      exact List.mem_append_right _ (List.mem_singleton.mpr heq)
    · exact List.mem_append_left _ (h.stays m' hbefore)

theorem joined_retracting (h : Joined start j) {changes : List Change}
    (hretracts : ∀ change ∈ changes, Retracts change) {d' : Directory} {history : List Trace}
    (hcommit : j.database.directory.applyAll changes = .ok d') :
    Joined start ⟨⟨d', history⟩, j.log ++ [changes]⟩ := by
  obtain ⟨hunique, hsubset, -⟩ := emails_applyAll hcommit h.unique
  have hlower := Directory.lower_applyAll hcommit
  refine ⟨fun x hx => ?_, hunique, fun transaction hmem id huses => ?_, fun m hm => ?_⟩
  · rw [invitations_of_retracting hretracts hcommit] at hx
    exact h.rows x (List.mem_of_mem_filter hx)
  · simp only [hlower]
    rcases List.mem_append.mp hmem with hold | hnew
    · obtain ⟨m, hadds, x, hx, hid, htenant, hemail⟩ := h.joined transaction hold id huses
      exact ⟨m, hadds, x, hx, hid, htenant, hsubset hemail⟩
    · obtain rfl := List.mem_singleton.mp hnew
      obtain ⟨change, hchange, hmarks⟩ := List.any_eq_true.mp huses
      have hretract := hretracts change hchange
      cases change with
      | setAccepted => exact hretract.elim
      | _ => cases hmarks
  · rw [memberships_of_retracting hretracts hcommit]
    rcases inserted_append hm with hnow | ⟨hbefore, hkept⟩
    · exact (hretracts _ hnow).elim
    · exact List.mem_filter.mpr ⟨h.stays m hbefore, by simpa using hkept⟩

theorem Joined.congr (h : Joined start j) {db : Database}
    (hlower : db.directory.lower = j.database.directory.lower)
    (husers : db.directory.users = j.database.directory.users)
    (hmembers : db.directory.memberships = j.database.directory.memberships)
    (hinvitations : db.directory.invitations = j.database.directory.invitations) :
    Joined start ⟨db, j.log⟩ := by
  have hemails : emails db.directory = emails j.database.directory := by
    rw [emails, hlower, husers, emails]
  refine ⟨hinvitations ▸ h.rows, hemails ▸ h.unique, ?_, hmembers ▸ h.stays⟩
  simp only [hlower, hemails]
  exact h.joined

end Steps

section Runs

variable {start : Directory} {j : Journal} {visits : List Visit} {n : Nat} {v : Visit}

theorem Consistent.set (h : Consistent start j visits) (hv : Dated start j v) :
    Consistent start j (visits.set n v) := by
  refine ⟨h.past, h.members, fun x hx => ?_⟩
  rcases List.mem_or_eq_of_mem_set hx with hold | rfl
  · exact h.dated x hold
  · exact hv

theorem consistent_commit (hkeyed : Keyed start) (h : Consistent start j visits)
    (hv : v ∈ visits) (hbrings : Brings v)
    (hcond : ∀ i ∈ v.read, (j.log.drop v.mark).Pairwise fun earlier later =>
      uses i.id earlier = true → evicts earlier later = false) {d' : Directory}
    (hcommit : j.database.directory.applyAll v.session.control = .ok d') (history : List Trace) :
    Consistent start ⟨⟨d', history⟩, j.log ++ [v.session.control]⟩ visits := by
  obtain ⟨-, hsubset, -⟩ := emails_applyAll hcommit h.members.unique
  have hlower := Directory.lower_applyAll hcommit
  have hdated : ∀ x ∈ visits, Dated start ⟨⟨d', history⟩, j.log ++ [v.session.control]⟩ x :=
    fun x hx => (h.dated x hx).later hlower hsubset
  cases hbrings with
  | accepting changes m i acceptedAt haccepts =>
      rw [haccepts.pending] at hcommit hdated ⊢
      have hunused := unused_of_commit hkeyed h (h.dated v hv) haccepts
        (hcond i haccepts.read) hcommit
      exact ⟨kept_accepting h.past haccepts.personal (insertionsFrom_eq_zero hunused) hcommit,
        joined_accepting h.members (h.dated v hv) haccepts hcommit, hdated⟩
  | retracting hretracts =>
      exact ⟨kept_retracting h.past hretracts hcommit,
        joined_retracting h.members hretracts hcommit, hdated⟩

theorem Consistent.congr (h : Consistent start j visits) {db : Database}
    (hlower : db.directory.lower = j.database.directory.lower)
    (husers : db.directory.users = j.database.directory.users)
    (hmembers : db.directory.memberships = j.database.directory.memberships)
    (hinvitations : db.directory.invitations = j.database.directory.invitations) :
    Consistent start ⟨db, j.log⟩ visits := by
  refine ⟨h.past.congr hinvitations, h.members.congr hlower husers hmembers hinvitations, ?_⟩
  intro x hx
  have hx' := h.dated x hx
  refine ⟨hx'.mark, hx'.origin, hx'.unused, ?_⟩
  simpa only [emails, hlower, husers] using hx'.found

theorem consistent_record (hkeyed : Keyed start) {r : Request} (c : Choice)
    (h : Consistent start j visits) (hv : visits[n]? = some v) (hlawful : lawful v r)
    (hcond : keepsMember j visits n r) :
    Consistent start (record j v r c).1 (visits.set n (record j v r c).2.1) := by
  have hmem := List.mem_of_getElem? hv
  have hread := dated_record h (h.dated v hmem) c hlawful
  cases r with
  | commitControl =>
      simp only [record, committedBy, serve, Database.commit]
      cases hcommit : j.database.directory.applyAll v.session.control with
      | error e =>
          simp only [List.append_nil]
          have hsame := h.dated v hmem
          exact h.set ⟨hsame.mark, hsame.origin, hsame.unused, hsame.found⟩
      | ok d' =>
          have hnext := consistent_commit hkeyed h hmem hlawful (hcond v hv) hcommit
            (j.database.history ++ j.database.directory.traceAll v.session.control)
          have hsame := hnext.dated v hmem
          exact hnext.set ⟨hsame.mark, hsame.origin, hsame.unused, hsame.found⟩
  | commitTenant =>
      have hnext : Consistent start (record j v .commitTenant c).1 visits := by
        simp only [record, committedBy, serve, Database.commit, List.append_nil]
        cases hcommit : j.database.directory.applyAll v.session.tenant with
        | error e => exact h
        | ok d' =>
            have hrest := rest_of_audits hlawful hcommit
            exact h.congr (by rw [hrest]) (by rw [hrest]) (by rw [hrest]) (by rw [hrest])
      have hsame := hnext.dated v hmem
      exact hnext.set ⟨hsame.mark, hsame.origin, hsame.unused, hsame.found⟩
  | selectMembership tenantId userId =>
      have hsame : (record j v (.selectMembership tenantId userId) c).1 = j := by
        simp only [record, committedBy, serve, List.append_nil]
        split <;> rfl
      rw [hsame]
      exact h.set hread
  | _ =>
      simp only [record, committedBy, List.append_nil]
      exact h.set hread

theorem consistent_arrived (settings : Settings) {d : Directory} (hkeyed : Keyed d)
    (requests : List InvitationRequest) :
    Consistent d (arrived settings d requests).shared (arrived settings d requests).locals := by
  refine ⟨⟨fun id => Nat.zero_le 1, ?_, ?_, fun id => List.Pairwise.nil⟩,
    ⟨fun i hi => ⟨i, hi, rfl, rfl, rfl⟩, hkeyed.unique, ?_, ?_⟩, ?_⟩
  · intro id hpos
    cases hpos
  · intro id transaction hmem
    cases hmem
  · intro transaction hmem
    cases hmem
  · rintro m ⟨before, transaction, after, heq, -⟩
    cases before <;> cases heq
  · intro v hv
    obtain ⟨thread, hthread, rfl⟩ := List.mem_map.mp hv
    obtain ⟨r, -, rfl⟩ := List.mem_map.mp hthread
    exact ⟨Nat.le_refl _, by simp, by simp, by simp⟩

/-- Whatever the interleaving of acceptances, revocations and removals, as long as no
acceptance commits after another of the same invitation has committed and its member has
been removed, both since the first read the invitation, each invitation brings in one member
at most, and none once it is revoked. -/
theorem invitation_used_once (settings : Settings) (d : Directory) (hkeyed : Keyed d)
    (requests : List InvitationRequest) (schedule : List (Nat × Choice))
    (pool : Pool DirectoryInterface Failure Journal Visit Reply)
    (hrun : run (Pool.step record) (arrived settings d requests) schedule = some pool)
    (hkept : Along (Pool.step record) (StepMeets keepsMember)
      (arrived settings d requests) schedule) (invitationId : Nat) :
    insertionsFrom invitationId pool.shared.log ≤ 1 ∧
      pool.shared.log.Pairwise fun earlier later =>
        revokes invitationId earlier = true → insertions invitationId later = 0 := by
  have hend := pool_invariant (G := Consistent d)
    (fun _ _ _ _ _ c hG hv hlawful hcond => consistent_record hkeyed c hG hv hlawful hcond)
    (disciplined_arrived settings d requests) (consistent_arrived settings hkeyed requests)
    hkept hrun
  exact ⟨hend.past.once invitationId, hend.past.last invitationId⟩

end Runs

def alice : User := ⟨1, "alice@exemple.fr", none⟩

def bob : User := ⟨2, "bob@exemple.fr", none⟩

/-- Alice owns the tenant and has invited Bob, who has an account. -/
def invited : Directory where
  tenants := [⟨1, "acme", "Acme", .active, none⟩]
  users := [alice, bob]
  credentials := []
  memberships := [⟨1, alice.id, 1, .owner⟩]
  invitations := [⟨7, bob.email, 1, .member, "jeton", 1000, none, some alice.id⟩]
  teams := []
  teamMembers := []
  auditEvents := []

def plainSettings : Settings := ⟨id, 72, "https://app.exemple.fr"⟩

/-- Bob accepts twice, and Alice removes him. -/
def requests : List InvitationRequest :=
  [.accept "jeton" none none, .accept "jeton" none none, .remove 1 alice bob.id]

def turn (thread count uuid : Nat) : List (Nat × Choice) :=
  List.replicate count (thread, { now := 10, uuid })

/-- Both acceptances have read the invitation; the first commits, Bob is removed,
and the second commits. -/
def overlap : List (Nat × Choice) :=
  turn 0 7 20 ++ turn 1 7 21 ++ turn 0 1 0 ++ turn 2 9 0 ++ turn 1 1 0

/-- The unique index no longer stands in the way of the second membership, and the
used mark is only tested at the beginning. -/
theorem second_acceptance_after_removal :
    (run (Pool.step record) (arrived plainSettings invited requests) overlap).map
      (fun pool => insertionsFrom 7 pool.shared.log) = some 2 := by
  decide +kernel

/-- The second acceptance commits before the removal, and a third one comes after it. -/
def overlapBeforeRemoval : List (Nat × Choice) :=
  turn 0 7 20 ++ turn 1 7 21 ++ turn 0 1 0 ++ turn 1 1 0 ++ turn 2 9 0 ++ turn 3 2 22

theorem one_acceptance_before_removal :
    ∃ pool, run (Pool.step record)
        (arrived plainSettings invited (requests ++ [.accept "jeton" none none]))
        overlapBeforeRemoval = some pool ∧
      insertionsFrom 7 pool.shared.log ≤ 1 := by
  have hkeyed : Keyed invited := ⟨by decide, by decide +kernel⟩
  obtain ⟨pool, hrun⟩ : ∃ pool, run (Pool.step record)
      (arrived plainSettings invited (requests ++ [.accept "jeton" none none]))
      overlapBeforeRemoval = some pool := Option.isSome_iff_exists.mp (by decide +kernel)
  refine ⟨pool, hrun, ?_⟩
  exact (invitation_used_once plainSettings invited hkeyed _ overlapBeforeRemoval pool hrun
    (by decide +kernel) 7).1

end Socle.InvitationOnce
