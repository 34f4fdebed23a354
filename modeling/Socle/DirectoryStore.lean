import Socle.KeyedTable
import Socle.Procedures

/-!
The tables behind the directory routes, the unit of work of a request on them,
and the SQL statements those routes issue as the requests of an interface.
-/

namespace Socle.DirectoryStore

open Socle.KeyedTable (nodup_map_snoc)
open Socle.Procedures

/-- Microseconds since the epoch, UTC. -/
abbrev Instant := Int

inductive Role where
  | owner
  | admin
  | member
  deriving DecidableEq, Repr

def Role.value : Role → String
  | .owner => "owner"
  | .admin => "admin"
  | .member => "member"

inductive TenantState where
  | active
  | suspended
  deriving DecidableEq, Repr

def TenantState.value : TenantState → String
  | .active => "active"
  | .suspended => "suspended"

structure Tenant where
  id : Nat
  slug : String
  name : String
  state : TenantState
  deletedAt : Option Instant
  deriving DecidableEq

structure User where
  id : Nat
  email : String
  displayName : Option String
  deriving DecidableEq

structure Membership where
  id : Nat
  userId : Nat
  tenantId : Nat
  role : Role
  deriving DecidableEq

structure Invitation where
  id : Nat
  email : String
  tenantId : Nat
  role : Role
  tokenHash : String
  expiresAt : Instant
  acceptedAt : Option Instant
  invitedByUserId : Option Nat
  deriving DecidableEq

structure Team where
  id : Nat
  tenantId : Nat
  name : String
  description : Option String
  deriving DecidableEq

structure TeamMember where
  id : Nat
  tenantId : Nat
  teamId : Nat
  userId : Nat
  deriving DecidableEq

structure AuditEvent where
  tenantId : Nat
  action : String
  resourceType : String
  resourceId : Nat
  payload : List (String × Option String)
  actorUserId : Option Nat
  actorLabel : String
  deriving DecidableEq

/-- The rows the directory routes read and write.  `credentials` holds the
password hash of each user that has one; `lower` is `str.lower`, with which the
`lower` of the database agrees. -/
structure Directory where
  tenants : List Tenant
  users : List User
  credentials : List (Nat × String)
  memberships : List Membership
  invitations : List Invitation
  teams : List Team
  teamMembers : List TeamMember
  auditEvents : List AuditEvent
  lower : String → String := String.toLower

/-- What one pending object of a session does to the database when it is
flushed.  Updates and deletes address their row by primary key. -/
inductive Change where
  | addUser (user : User)
  | setDisplayName (userId : Nat) (displayName : String)
  | setPassword (userId : Nat) (passwordHash : String)
  | addMembership (membership : Membership)
  | setRole (membershipId : Nat) (role : Role)
  | deleteMembership (membershipId : Nat)
  | addInvitation (invitation : Invitation)
  | setAccepted (invitationId : Nat) (acceptedAt : Instant)
  | deleteInvitation (invitationId : Nat)
  | addTeam (team : Team)
  | deleteTeam (teamId : Nat)
  | addTeamMember (teamMember : TeamMember)
  | deleteTeamMember (teamMemberId : Nat)
  | addTenant (tenant : Tenant)
  | addAuditEvent (event : AuditEvent)
  deriving DecidableEq

/-- A commit that fails: a constraint is violated, an UPDATE addresses a row that
is gone (`StaleDataError`), or the connection is lost (`OperationalError`). -/
inductive DatabaseError where
  | integrity (constraint : String)
  | staleData
  | operational
  deriving DecidableEq, Repr

namespace Directory

variable (d : Directory)

def hasUser (userId : Nat) : Bool := d.users.any fun u => u.id == userId

def hasTenant (tenantId : Nat) : Bool := d.tenants.any fun t => t.id == tenantId

/-- Apply one change under the constraints of the schema: primary keys, the
unique indexes, the foreign keys and their `ON DELETE CASCADE`. -/
def apply : Change → Except DatabaseError Directory
  | .addUser user =>
      if d.users.any fun u => u.id == user.id || d.lower u.email == d.lower user.email then
        .error (.integrity "ux_users_email_lower")
      else .ok { d with users := d.users ++ [user] }
  | .setDisplayName userId displayName =>
      if d.hasUser userId then
        .ok { d with users := d.users.map fun u =>
          if u.id = userId then { u with displayName := some displayName } else u }
      else .error .staleData
  | .setPassword userId passwordHash =>
      if d.hasUser userId then
        .ok { d with credentials :=
          (userId, passwordHash) :: d.credentials.filter fun c => c.1 != userId }
      else .error (.integrity "user_credentials_user_id_fkey")
  | .addMembership m =>
      if d.memberships.any fun x =>
          x.id == m.id || (x.userId == m.userId && x.tenantId == m.tenantId) then
        .error (.integrity "ux_memberships_user_tenant")
      else if d.hasUser m.userId && d.hasTenant m.tenantId then
        .ok { d with memberships := d.memberships ++ [m] }
      else .error (.integrity "memberships_fkey")
  | .setRole membershipId role =>
      if d.memberships.any fun m => m.id == membershipId then
        .ok { d with memberships := d.memberships.map fun m =>
          if m.id = membershipId then { m with role := role } else m }
      else .error .staleData
  | .deleteMembership membershipId =>
      .ok { d with memberships := d.memberships.filter fun m => m.id != membershipId }
  | .addInvitation i =>
      if d.invitations.any fun x => x.id == i.id || x.tokenHash == i.tokenHash then
        .error (.integrity "invitations_token_hash_key")
      else if d.hasTenant i.tenantId then
        .ok { d with invitations := d.invitations ++ [i] }
      else .error (.integrity "invitations_tenant_id_fkey")
  | .setAccepted invitationId acceptedAt =>
      if d.invitations.any fun i => i.id == invitationId then
        .ok { d with invitations := d.invitations.map fun i =>
          if i.id = invitationId then { i with acceptedAt := some acceptedAt } else i }
      else .error .staleData
  | .deleteInvitation invitationId =>
      .ok { d with invitations := d.invitations.filter fun i => i.id != invitationId }
  | .addTeam t =>
      if d.teams.any fun x => x.id == t.id || (x.tenantId == t.tenantId && x.name == t.name) then
        .error (.integrity "ux_teams_tenant_name")
      else if d.hasTenant t.tenantId then
        .ok { d with teams := d.teams ++ [t] }
      else .error (.integrity "teams_tenant_id_fkey")
  | .deleteTeam teamId =>
      .ok { d with
        teams := d.teams.filter fun t => t.id != teamId
        teamMembers := d.teamMembers.filter fun m => m.teamId != teamId }
  | .addTeamMember m =>
      if d.teamMembers.any fun x =>
          x.id == m.id || (x.teamId == m.teamId && x.userId == m.userId) then
        .error (.integrity "ux_team_members_team_user")
      else if d.teams.any fun t => t.id == m.teamId then
        .ok { d with teamMembers := d.teamMembers ++ [m] }
      else .error (.integrity "team_members_team_id_fkey")
  | .deleteTeamMember teamMemberId =>
      .ok { d with teamMembers := d.teamMembers.filter fun m => m.id != teamMemberId }
  | .addTenant t =>
      if d.tenants.any fun x => x.id == t.id || x.slug == t.slug then
        .error (.integrity "tenants_slug_key")
      else .ok { d with tenants := d.tenants ++ [t] }
  | .addAuditEvent event => .ok { d with auditEvents := d.auditEvents ++ [event] }

theorem memberships_apply {d d' : Directory} {change : Change}
    (happly : d.apply change = .ok d') :
    d'.memberships = d.memberships ∨
      (∃ m, change = .addMembership m ∧ m.id ∉ d.memberships.map (·.id) ∧
        d'.memberships = d.memberships ++ [m]) ∨
      (∃ id role, change = .setRole id role ∧
        d'.memberships = d.memberships.map fun m =>
          if m.id = id then { m with role := role } else m) ∨
      ∃ id, change = .deleteMembership id ∧
        d'.memberships = d.memberships.filter fun m => m.id != id := by
  cases change with
  | addMembership m =>
      simp only [apply] at happly
      split at happly
      · cases happly
      · rename_i hfresh
        split at happly
        · cases happly
          refine .inr (.inl ⟨m, rfl, ?_, rfl⟩)
          intro hmem
          obtain ⟨x, hx, hid⟩ := List.mem_map.mp hmem
          exact hfresh (List.any_eq_true.mpr ⟨x, hx, by simp [hid]⟩)
        · cases happly
  | setRole id role =>
      simp only [apply] at happly
      split at happly
      · cases happly
        exact .inr (.inr (.inl ⟨id, role, rfl, rfl⟩))
      · cases happly
  | deleteMembership id =>
      cases happly
      exact .inr (.inr (.inr ⟨id, rfl, rfl⟩))
  | _ =>
      simp only [apply] at happly
      repeat' split at happly
      all_goals cases happly
      all_goals exact .inl rfl

theorem nodup_apply {d d' : Directory} {change : Change} (happly : d.apply change = .ok d')
    (hnodup : (d.memberships.map (·.id)).Nodup) : (d'.memberships.map (·.id)).Nodup := by
  rcases memberships_apply happly with heq | ⟨m, -, hfresh, heq⟩ | ⟨id, role, -, heq⟩ |
    ⟨id, -, heq⟩
  · rw [heq]
    exact hnodup
  · rw [heq]
    exact nodup_map_snoc hnodup hfresh
  · have hids : (d.memberships.map fun m =>
        if m.id = id then { m with role := role } else m).map (·.id) =
          d.memberships.map (·.id) := by
      rw [List.map_map]
      apply List.map_congr_left
      intro m _
      by_cases hid : m.id = id <;> simp [hid]
    rw [heq, hids]
    exact hnodup
  · rw [heq]
    exact hnodup.sublist (List.filter_sublist.map _)

/-- The changes of one transaction, in flush order. -/
def applyAll : Directory → List Change → Except DatabaseError Directory
  | d, [] => .ok d
  | d, change :: rest =>
      match d.apply change with
      | .ok d' => applyAll d' rest
      | .error e => .error e

theorem lower_applyAll {d d' : Directory} {changes : List Change}
    (happly : d.applyAll changes = .ok d') : d'.lower = d.lower := by
  induction changes generalizing d with
  | nil =>
      cases happly
      rfl
  | cons change rest ih =>
      simp only [applyAll] at happly
      split at happly
      · rename_i next hnext
        refine (ih happly).trans ?_
        cases change <;> simp only [apply] at hnext <;> repeat' split at hnext
        all_goals cases hnext
        all_goals rfl
      · cases happly

def isOwner (tenantId : Nat) (m : Membership) : Bool :=
  m.tenantId == tenantId && m.role == .owner

def countOwners (tenantId : Nat) : Nat := d.memberships.countP (isOwner tenantId)

def getMembership (tenantId userId : Nat) : Option Membership :=
  d.memberships.find? fun m => m.userId == userId && m.tenantId == tenantId

def userByEmail (email : String) : Option User :=
  d.users.find? fun u => d.lower u.email == d.lower email

/-- The `pending` query of `create_invitation`. -/
def pendingInvitation (tenantId : Nat) (email : String) (now : Instant) : Option Invitation :=
  d.invitations.find? fun i =>
    d.lower i.email == d.lower email && i.tenantId == tenantId &&
      i.acceptedAt.isNone && decide (now < i.expiresAt)

end Directory

/-- What a committed change did to the memberships other requests may have
read: it wrote or deleted a row, or it took a tenant's ownership away from a
row.  This history is not stored by the program; it dates reads. -/
inductive Trace where
  | touched (membershipId : Nat)
  | ownerLost (tenantId : Nat)
  deriving DecidableEq, Repr

namespace Directory

/-- The rows of a primary key that are owners and stop being so. -/
def lostOwners (d : Directory) (membershipId : Nat) : List Trace :=
  (d.memberships.filter fun m => m.id == membershipId && m.role == .owner).map
    fun m => .ownerLost m.tenantId

def traceOf (d : Directory) : Change → List Trace
  | .setRole membershipId role =>
      .touched membershipId :: if role = .owner then [] else d.lostOwners membershipId
  | .deleteMembership membershipId => .touched membershipId :: d.lostOwners membershipId
  | _ => []

def traceAll : Directory → List Change → List Trace
  | _, [] => []
  | d, change :: rest =>
      d.traceOf change ++
        match d.apply change with
        | .ok d' => traceAll d' rest
        | .error _ => []

end Directory

/-- The committed tables, with the history of what commits did. -/
structure Database where
  directory : Directory
  history : List Trace

def Database.commit (db : Database) (changes : List Change) :
    Database × Except DatabaseError Unit :=
  match db.directory.applyAll changes with
  | .ok d => (⟨d, db.history ++ db.directory.traceAll changes⟩, .ok ())
  | .error e => (db, .error e)

/-- A membership object of a session's identity map: the attributes its row had
when it was loaded, and the position of the history at that moment. -/
structure Loaded where
  membership : Membership
  mark : Nat
  deriving DecidableEq

/-- The owner count a request has read, and when. -/
structure Counted where
  tenantId : Nat
  owners : Nat
  mark : Nat
  deriving DecidableEq

/-- The state of one request: the tenant of the current context, the identity
map, the owner count it read, the teams it loaded, and the pending changes of
its two sessions, the control one and the tenant one. -/
structure Session where
  tenantId : Nat := 0
  identityMap : List Loaded := []
  counted : Option Counted := none
  teams : List Team := []
  control : List Change := []
  tenant : List Change := []
  deriving DecidableEq

/-- What the environment supplies at a request: a clock reading, a fresh uuid,
a fresh token and the salted hash of a password. -/
structure Choice where
  now : Instant := 0
  uuid : Nat := 0
  token : String := ""
  passwordHash : String := ""
  deriving DecidableEq

/-- The statements and session operations of the directory routes. -/
inductive Request where
  | now
  | generateToken
  | pushTenant (tenantId : Nat)
  | selectMembership (tenantId userId : Nat)
  | countOwners (tenantId : Nat)
  | selectUserByEmail (email : String)
  | getUser (userId : Nat)
  | selectMembers (tenantId : Nat)
  | selectPendingInvitation (tenantId : Nat) (email : String) (now : Instant)
  | selectPendingInvitations (tenantId : Nat)
  | selectInvitationByHash (tokenHash : String)
  | getInvitation (invitationId : Nat)
  | getTenant (tenantId : Nat)
  | selectTenantBySlug (slug : String)
  | addUser (email : String) (displayName : Option String)
  | setDisplayName (userId : Nat) (displayName : String)
  | setPassword (userId : Nat)
  | addMembership (userId tenantId : Nat) (role : Role)
  | setRole (membership : Membership) (role : Role)
  | deleteMembership (membershipId : Nat)
  | addInvitation (email : String) (tenantId : Nat) (role : Role) (tokenHash : String)
      (expiresAt : Instant) (invitedByUserId : Option Nat)
  | setAccepted (invitationId : Nat) (acceptedAt : Instant)
  | deleteInvitation (invitationId : Nat)
  | commitControl
  | selectTeams
  | selectTeamByName (name : String)
  | getTeam (teamId : Nat)
  | addTeam (name : String) (description : Option String)
  | deleteTeam (teamId : Nat)
  | selectTeamMembers (teamId : Nat)
  | selectTeamMember (teamId userId : Nat)
  | addTeamMember (teamId userId : Nat)
  | deleteTeamMember (teamMemberId : Nat)
  | addTenant (slug name : String)
  | addAuditEvent (event : AuditEvent)
  | commitTenant

@[reducible] def Answer : Request → Type
  | .now => Instant
  | .generateToken => String
  | .pushTenant _ => Unit
  | .selectMembership .. => Option Membership
  | .countOwners _ => Nat
  | .selectUserByEmail _ => Option User
  | .getUser _ => Option User
  | .selectMembers _ => List (User × Membership)
  | .selectPendingInvitation .. => Option Invitation
  | .selectPendingInvitations _ => List Invitation
  | .selectInvitationByHash _ => Option Invitation
  | .getInvitation _ => Option Invitation
  | .getTenant _ => Option Tenant
  | .selectTenantBySlug _ => Option Tenant
  | .addUser .. => User
  | .setDisplayName .. => Unit
  | .setPassword _ => Unit
  | .addMembership .. => Unit
  | .setRole .. => Unit
  | .deleteMembership _ => Unit
  | .addInvitation .. => Invitation
  | .setAccepted .. => Unit
  | .deleteInvitation _ => Unit
  | .commitControl => Except DatabaseError Unit
  | .selectTeams => List Team
  | .selectTeamByName _ => Option Team
  | .getTeam _ => Option Team
  | .addTeam .. => Team
  | .deleteTeam _ => Unit
  | .selectTeamMembers _ => List TeamMember
  | .selectTeamMember .. => Option TeamMember
  | .addTeamMember .. => Unit
  | .deleteTeamMember _ => Unit
  | .addTenant .. => Tenant
  | .addAuditEvent _ => Unit
  | .commitTenant => Except DatabaseError Unit

abbrev DirectoryInterface : Interface := ⟨Request, Answer⟩

namespace Session

variable (l : Session)

/-- A row the database returns is the object of the identity map when there is
one for its primary key: its attributes in memory are not read again. -/
def resolve (mark : Nat) (row : Membership) : Session × Membership :=
  match l.identityMap.find? fun x => x.membership.id == row.id with
  | some loaded => (l, loaded.membership)
  | none => ({ l with identityMap := ⟨row, mark⟩ :: l.identityMap }, row)

def addControl (change : Change) : Session := { l with control := l.control ++ [change] }

def addTenant (change : Change) : Session := { l with tenant := l.tenant ++ [change] }

end Session

/-- The effect of each statement.  Reads see the committed rows; writes stay
pending until the session they were made on commits (one that is flushed before
holds its row lock until then).  The rows of the tenant session are filtered
by, and stamped with, the tenant of the context. -/
def serve : Serve DirectoryInterface Database Session Choice
  | db, l, .now, c => (db, l, c.now)
  | db, l, .generateToken, c => (db, l, c.token)
  | db, l, .pushTenant tenantId, _ => (db, { l with tenantId := tenantId }, ())
  | db, l, .selectMembership tenantId userId, _ =>
      match db.directory.getMembership tenantId userId with
      | some row =>
          let out := l.resolve db.history.length row
          (db, out.1, some out.2)
      | none => (db, l, none)
  | db, l, .countOwners tenantId, _ =>
      let owners := db.directory.countOwners tenantId
      (db, { l with counted := some ⟨tenantId, owners, db.history.length⟩ }, owners)
  | db, l, .selectUserByEmail email, _ => (db, l, db.directory.userByEmail email)
  | db, l, .getUser userId, _ => (db, l, db.directory.users.find? fun u => u.id == userId)
  | db, l, .selectMembers tenantId, _ =>
      (db, l, (db.directory.memberships.filter fun m => m.tenantId == tenantId).filterMap
        fun m => (db.directory.users.find? fun u => u.id == m.userId).map fun u => (u, m))
  | db, l, .selectPendingInvitation tenantId email now, _ =>
      (db, l, db.directory.pendingInvitation tenantId email now)
  | db, l, .selectPendingInvitations tenantId, _ =>
      (db, l, db.directory.invitations.filter fun i =>
        i.tenantId == tenantId && i.acceptedAt.isNone)
  | db, l, .selectInvitationByHash tokenHash, _ =>
      (db, l, db.directory.invitations.find? fun i => i.tokenHash == tokenHash)
  | db, l, .getInvitation invitationId, _ =>
      (db, l, db.directory.invitations.find? fun i => i.id == invitationId)
  | db, l, .getTenant tenantId, _ =>
      (db, l, db.directory.tenants.find? fun t => t.id == tenantId)
  | db, l, .selectTenantBySlug slug, _ =>
      (db, l, db.directory.tenants.find? fun t => t.slug == slug)
  | db, l, .addUser email displayName, c =>
      let user := ⟨c.uuid, email, displayName⟩
      (db, l.addControl (.addUser user), user)
  | db, l, .setDisplayName userId displayName, _ =>
      (db, l.addControl (.setDisplayName userId displayName), ())
  | db, l, .setPassword userId, c => (db, l.addControl (.setPassword userId c.passwordHash), ())
  | db, l, .addMembership userId tenantId role, c =>
      (db, l.addControl (.addMembership ⟨c.uuid, userId, tenantId, role⟩), ())
  | db, l, .setRole membership role, _ =>
      -- Assigning the value the attribute already has emits no UPDATE.
      (db, if membership.role = role then l else l.addControl (.setRole membership.id role), ())
  | db, l, .deleteMembership membershipId, _ =>
      (db, l.addControl (.deleteMembership membershipId), ())
  | db, l, .addInvitation email tenantId role tokenHash expiresAt invitedBy, c =>
      let invitation := ⟨c.uuid, email, tenantId, role, tokenHash, expiresAt, none, invitedBy⟩
      (db, l.addControl (.addInvitation invitation), invitation)
  | db, l, .setAccepted invitationId acceptedAt, _ =>
      (db, l.addControl (.setAccepted invitationId acceptedAt), ())
  | db, l, .deleteInvitation invitationId, _ =>
      (db, l.addControl (.deleteInvitation invitationId), ())
  | db, l, .commitControl, _ =>
      let out := db.commit l.control
      (out.1, { l with control := [] }, out.2)
  | db, l, .selectTeams, _ =>
      (db, l, db.directory.teams.filter fun t => t.tenantId == l.tenantId)
  | db, l, .selectTeamByName name, _ =>
      (db, l, db.directory.teams.find? fun t => t.tenantId == l.tenantId && t.name == name)
  | db, l, .getTeam teamId, _ =>
      let team := db.directory.teams.find? fun t => t.id == teamId && t.tenantId == l.tenantId
      (db, { l with teams := team.toList ++ l.teams }, team)
  | db, l, .addTeam name description, c =>
      let team := ⟨c.uuid, l.tenantId, name, description⟩
      (db, l.addTenant (.addTeam team), team)
  | db, l, .deleteTeam teamId, _ => (db, l.addTenant (.deleteTeam teamId), ())
  | db, l, .selectTeamMembers teamId, _ =>
      (db, l, db.directory.teamMembers.filter fun m =>
        m.tenantId == l.tenantId && m.teamId == teamId)
  | db, l, .selectTeamMember teamId userId, _ =>
      (db, l, db.directory.teamMembers.find? fun m =>
        m.tenantId == l.tenantId && m.teamId == teamId && m.userId == userId)
  | db, l, .addTeamMember teamId userId, c =>
      (db, l.addTenant (.addTeamMember ⟨c.uuid, l.tenantId, teamId, userId⟩), ())
  | db, l, .deleteTeamMember teamMemberId, _ =>
      (db, l.addTenant (.deleteTeamMember teamMemberId), ())
  | db, l, .addTenant slug name, c =>
      let tenant := ⟨c.uuid, slug, name, .active, none⟩
      (db, l.addTenant (.addTenant tenant), tenant)
  | db, l, .addAuditEvent event, _ =>
      (db, l.addTenant (.addAuditEvent { event with tenantId := l.tenantId }), ())
  | db, l, .commitTenant, _ =>
      let out := db.commit l.tenant
      (out.1, { l with tenant := [] }, out.2)

end Socle.DirectoryStore
