import Socle.DirectoryStore

/-!
The directory service and its routes: members, invitations, teams, and the
anonymous route that accepts an invitation.  Each procedure awaits its
statements in the order of the source.
-/

namespace Socle.DirectoryService

open Socle.Procedures
open Socle.DirectoryStore

/-- The exceptions that leave a directory procedure. -/
inductive Failure where
  | valueError (message : String)
  | directoryError (message : String)
  | http (status : Nat) (detail : String)
  | provisioningError (message : String)
  | database (error : DatabaseError)
  | noResultFound
  deriving DecidableEq, Repr

abbrev DirectoryProc := Proc DirectoryInterface Failure

/-- Settings and the token hash, which is SHA-256 in the program. -/
structure Settings where
  hashToken : String → String
  invitationTtlHours : Nat
  publicBaseUrl : String

inductive CorePermission where
  | membersRead
  | membersManage
  | teamsRead
  | teamsManage
  | tenantSettings
  | auditRead
  | connectorsRead
  | connectorsManage
  | aiUse
  deriving DecidableEq, Repr

/-- `ROLE_PERMISSIONS`: an owner has the permissions of an admin; what is
reserved to owners is a rule of the service. -/
def roleHasPermission : Role → CorePermission → Bool
  | .member, .membersRead => true
  | .member, .teamsRead => true
  | .member, .connectorsRead => true
  | .member, _ => false
  | .admin, _ => true
  | .owner, _ => true

/-- Python's `repr` of a string of printable characters. -/
def reprStr (s : String) : String :=
  let single := Char.ofNat 39
  let double := Char.ofNat 34
  let backslash := Char.ofNat 92
  let quote := if s.contains single && !s.contains double then double else single
  let escaped := s.toList.flatMap fun c =>
    if c = backslash || c = quote then [backslash, c] else [c]
  String.ofList (quote :: escaped ++ [quote])

def validateRole : String → Except Failure Role
  | "owner" => .ok .owner
  | "admin" => .ok .admin
  | "member" => .ok .member
  | role => .error (.valueError
      s!"Rôle inconnu : {reprStr role} (attendu : admin, member, owner)")

def ask (r : Request) : DirectoryProc (Answer r) := request (I := DirectoryInterface) r

/-- `session.get_one(User, user_id)`. -/
def getOneUser (userId : Nat) : DirectoryProc User := do
  let some user ← ask (.getUser userId) | throw .noResultFound
  return user

/-- `commit` on a session raises what the database refuses. -/
def committed : Except DatabaseError Unit → DirectoryProc Unit
  | .ok _ => return ()
  | .error e => throw (.database e)

def commitControl : DirectoryProc Unit := do
  committed (← ask .commitControl)

def commitTenant : DirectoryProc Unit := do
  committed (← ask .commitTenant)

/-- `_actor_label`: the label frozen in the audit event. -/
def actorLabel (user : User) : String :=
  match user.displayName with
  | some name => if name = "" then user.email else name
  | none => user.email

/-- `record_audit_event` on the tenant session, which stamps the tenant. -/
def recordAuditEvent (action resourceType : String) (resourceId : Nat)
    (payload : List (String × Option String)) (actor : User) : DirectoryProc Unit :=
  ask (.addAuditEvent ⟨0, action, resourceType, resourceId, payload, some actor.id,
    actorLabel actor⟩)

/-! ### `app.directory.service` -/

/-- The check of `create_invitation` that the email is not that of a member. -/
def refuseMember (tenantId : Nat) (email : String) : DirectoryProc Unit := do
  if let some existingUser ← ask (.selectUserByEmail email) then
    if (← ask (.selectMembership tenantId existingUser.id)).isSome then
      throw (.directoryError "Cet email est déjà membre du tenant.")

def createInvitation (settings : Settings) (tenantId : Nat) (email role : String)
    (actorRole : Option Role) (invitedByUserId : Option Nat) :
    DirectoryProc (Invitation × String) := do
  let role ← .ofExcept (validateRole role)
  if role = .owner ∧ actorRole.isSome ∧ actorRole ≠ some .owner then
    throw (.directoryError "Seul un owner peut inviter un owner.")
  refuseMember tenantId email
  let pending ← ask (.selectPendingInvitation tenantId email (← ask .now))
  if pending.isSome then
    throw (.directoryError
      "Une invitation est déjà en cours pour cet email — révoquez-la d'abord.")
  let token ← ask .generateToken
  let expiresAt := (← ask .now) + settings.invitationTtlHours * 3600000000
  let invitation ← ask (.addInvitation email tenantId role (settings.hashToken token)
    expiresAt invitedByUserId)
  return (invitation, token)

def revokeInvitation (tenantId invitationId : Nat) : DirectoryProc Invitation := do
  let some invitation ← ask (.getInvitation invitationId)
    | throw (.directoryError "Invitation introuvable.")
  if invitation.tenantId ≠ tenantId then
    throw (.directoryError "Invitation introuvable.")
  if invitation.acceptedAt.isSome then
    throw (.directoryError "Invitation déjà acceptée — retirez plutôt le membre.")
  ask (.deleteInvitation invitationId)
  return invitation

/-- An existing user without a display name takes the one that comes with the
acceptance. -/
def adoptDisplayName (user : User) (displayName : Option String) : DirectoryProc User :=
  match displayName, user.displayName with
  | some name, none => do
      ask (.setDisplayName user.id name)
      return { user with displayName := some name }
  | _, _ => return user

/-- The user an acceptance is for: created with the invited email, or the
existing one, who must not bring a password. -/
def invitedUser (invitation : Invitation) (password displayName : Option String) :
    DirectoryProc User := do
  match ← ask (.selectUserByEmail invitation.email) with
  | none =>
      let user ← ask (.addUser invitation.email displayName)
      if password.isSome then
        ask (.setPassword user.id)
      return user
  | some user =>
      let user ← adoptDisplayName user displayName
      if password.isSome then
        throw (.directoryError
          "Ce compte existe déjà — connectez-vous avec ses identifiants.")
      return user

def acceptInvitation (settings : Settings) (token : String)
    (password displayName : Option String) : DirectoryProc (User × Invitation) := do
  let some invitation ← ask (.selectInvitationByHash (settings.hashToken token))
    | throw (.directoryError "Invitation invalide ou expirée.")
  if invitation.acceptedAt.isSome ∨ invitation.expiresAt < (← ask .now) then
    throw (.directoryError "Invitation invalide ou expirée.")
  let user ← invitedUser invitation password displayName
  if (← ask (.selectMembership invitation.tenantId user.id)).isSome then
    throw (.directoryError "Déjà membre de ce tenant.")
  ask (.addMembership user.id invitation.tenantId invitation.role)
  ask (.setAccepted invitation.id (← ask .now))
  return (user, invitation)

def changeMemberRole (tenantId userId : Nat) (newRole : String) (actorRole : Role) :
    DirectoryProc Membership := do
  let newRole ← .ofExcept (validateRole newRole)
  let some membership ← ask (.selectMembership tenantId userId)
    | throw (.directoryError "Membre introuvable.")
  if (newRole = .owner ∨ membership.role = .owner) ∧ actorRole ≠ .owner then
    throw (.directoryError "Seul un owner peut promouvoir ou rétrograder un owner.")
  if membership.role = .owner ∧ newRole ≠ .owner then
    if (← ask (.countOwners tenantId)) ≤ 1 then
      throw (.directoryError "Impossible de rétrograder le dernier owner du tenant.")
  ask (.setRole membership newRole)
  return { membership with role := newRole }

def removeMember (tenantId userId : Nat) (actorRole : Role) : DirectoryProc Unit := do
  let some membership ← ask (.selectMembership tenantId userId)
    | throw (.directoryError "Membre introuvable.")
  if membership.role = .owner then
    if actorRole ≠ .owner then
      throw (.directoryError "Seul un owner peut retirer un owner.")
    if (← ask (.countOwners tenantId)) ≤ 1 then
      throw (.directoryError "Impossible de retirer le dernier owner du tenant.")
  ask (.deleteMembership membership.id)

/-! ### The routes -/

structure MemberOut where
  userId : Nat
  email : String
  displayName : Option String
  role : Role
  deriving DecidableEq

def MemberOut.of (user : User) (role : Role) : MemberOut :=
  ⟨user.id, user.email, user.displayName, role⟩

structure TeamOut where
  id : Nat
  name : String
  description : Option String
  deriving DecidableEq

def TeamOut.of (team : Team) : TeamOut := ⟨team.id, team.name, team.description⟩

structure PendingInvitationOut where
  id : Nat
  email : String
  role : Role
  expiresAt : Instant
  deriving DecidableEq

/-- The response bodies of the directory routes. -/
inductive Reply where
  | status
  | member (out : MemberOut)
  | members (out : List MemberOut)
  | invitation (id : Nat) (role : Role) (expiresAt : Instant) (acceptUrl : String)
  | invitations (out : List PendingInvitationOut)
  | team (out : TeamOut)
  | teams (out : List TeamOut)
  deriving DecidableEq

/-- `except (...) as exc: raise HTTPException(status, str(exc))`. -/
def asHttp {α : Type} (status : Nat) (caught : Failure → Option String)
    (p : DirectoryProc α) : DirectoryProc α := do
  match ← p.attempt with
  | .ok a => return a
  | .error e =>
      match caught e with
      | some detail => throw (.http status detail)
      | none => throw e

def directoryErrors : Failure → Option String
  | .directoryError message => some message
  | _ => none

def valueOrDirectoryErrors : Failure → Option String
  | .valueError message => some message
  | .directoryError message => some message
  | _ => none

/-- The end of `require_permission` for an authenticated user on the host of a
live tenant: the membership is read on the control session of the request, the
context is posted, the role must carry the permission. -/
def requirePermission (tenantId : Nat) (actor : User) (permission : CorePermission) :
    DirectoryProc Role := do
  let some membership ← ask (.selectMembership tenantId actor.id)
    | throw (.http 403 "Accès refusé à ce tenant")
  ask (.pushTenant tenantId)
  if roleHasPermission membership.role permission then
    return membership.role
  else
    throw (.http 403 "Permission refusée")

def membersList (tenantId : Nat) (actor : User) : DirectoryProc Reply := do
  let _ ← requirePermission tenantId actor .membersRead
  let members ← ask (.selectMembers tenantId)
  return .members (members.map fun row => .of row.1 row.2.role)

def memberChangeRole (tenantId : Nat) (actor : User) (userId : Nat) (role : String) :
    DirectoryProc Reply := do
  let actorRole ← requirePermission tenantId actor .membersManage
  let previous ← ask (.selectMembership tenantId userId)
  let oldRole := previous.map fun m => m.role.value
  let membership ← asHttp 400 valueOrDirectoryErrors
    (changeMemberRole tenantId userId role actorRole)
  let user ← getOneUser userId
  -- The audit event is committed first: at worst it is left without its action.
  recordAuditEvent "core.member.role_changed" "membership" userId
    [("email", some user.email), ("old_role", oldRole), ("new_role", some membership.role.value)]
    actor
  commitTenant
  commitControl
  return .member (.of user membership.role)

/-- The `target_email` of `member_remove`, read before the membership goes. -/
def emailOfTarget (target : Option Membership) (userId : Nat) :
    DirectoryProc (Option String) :=
  match target with
  | some _ => do return (← getOneUser userId).email
  | none => return none

def memberRemove (tenantId : Nat) (actor : User) (userId : Nat) : DirectoryProc Reply := do
  let actorRole ← requirePermission tenantId actor .membersManage
  let target ← ask (.selectMembership tenantId userId)
  let targetEmail ← emailOfTarget target userId
  asHttp 400 directoryErrors (removeMember tenantId userId actorRole)
  recordAuditEvent "core.member.removed" "membership" userId
    [("email", targetEmail), ("role", target.map fun m => m.role.value)] actor
  commitTenant
  commitControl
  return .status

def invitationsList (tenantId : Nat) (actor : User) : DirectoryProc Reply := do
  let _ ← requirePermission tenantId actor .membersRead
  let invitations ← ask (.selectPendingInvitations tenantId)
  return .invitations (invitations.map fun i => ⟨i.id, i.email, i.role, i.expiresAt⟩)

def acceptUrlFor (settings : Settings) (token : String) : String :=
  s!"{settings.publicBaseUrl}/accept-invitation?token={token}"

def invitationCreate (settings : Settings) (tenantId : Nat) (actor : User)
    (email role : String) : DirectoryProc Reply := do
  let actorRole ← requirePermission tenantId actor .membersManage
  let (invitation, token) ← asHttp 400 valueOrDirectoryErrors
    (createInvitation settings tenantId email role (some actorRole) (some actor.id))
  recordAuditEvent "core.member.invited" "invitation" invitation.id
    [("email", some invitation.email), ("role", some invitation.role.value)] actor
  commitTenant
  commitControl
  return .invitation invitation.id invitation.role invitation.expiresAt
    (acceptUrlFor settings token)

def invitationRevoke (tenantId : Nat) (actor : User) (invitationId : Nat) :
    DirectoryProc Reply := do
  let _ ← requirePermission tenantId actor .membersManage
  let invitation ← asHttp 404 directoryErrors (revokeInvitation tenantId invitationId)
  recordAuditEvent "core.member.invitation_revoked" "invitation" invitationId
    [("email", some invitation.email), ("role", some invitation.role.value)] actor
  commitTenant
  commitControl
  return .status

/-- `invitations_accept`, behind its rate limit: no context is resolved; the
audit event is written afterwards, in a session of its own. -/
def invitationsAccept (settings : Settings) (token : String)
    (password displayName : Option String) : DirectoryProc Reply := do
  let (user, invitation) ← asHttp 400 directoryErrors
    (acceptInvitation settings token password displayName)
  commitControl
  if let some tenant ← ask (.getTenant invitation.tenantId) then
    ask (.pushTenant tenant.id)
    recordAuditEvent "core.member.invitation_accepted" "membership" user.id
      [("email", some user.email), ("role", some invitation.role.value)] user
    commitTenant
  return .status

/-- `_invite` of the command line: no actor, hence no rule on roles and no audit
event. -/
def invite (settings : Settings) (slug email role : String) : DirectoryProc String := do
  let some tenant ← ask (.selectTenantBySlug slug)
    | throw (.directoryError s!"Tenant {reprStr slug} inconnu au catalogue.")
  let (_, token) ← createInvitation settings tenant.id email role none none
  commitControl
  return acceptUrlFor settings token

def teamsList (tenantId : Nat) (actor : User) : DirectoryProc Reply := do
  let _ ← requirePermission tenantId actor .teamsRead
  let teams ← ask .selectTeams
  return .teams (teams.map .of)

def teamCreate (tenantId : Nat) (actor : User) (name : String) (description : Option String) :
    DirectoryProc Reply := do
  let _ ← requirePermission tenantId actor .teamsManage
  if (← ask (.selectTeamByName name)).isSome then
    throw (.http 409 "Une équipe porte déjà ce nom")
  let team ← ask (.addTeam name description)
  recordAuditEvent "core.team.created" "team" team.id [("name", some team.name)] actor
  commitTenant
  return .team (.of team)

def teamDelete (tenantId : Nat) (actor : User) (teamId : Nat) : DirectoryProc Reply := do
  let _ ← requirePermission tenantId actor .teamsManage
  let some team ← ask (.getTeam teamId) | throw (.http 404 "Équipe introuvable")
  recordAuditEvent "core.team.deleted" "team" team.id [("name", some team.name)] actor
  ask (.deleteTeam team.id)
  commitTenant
  return .status

def teamMembersList (tenantId : Nat) (actor : User) (teamId : Nat) : DirectoryProc Reply := do
  let _ ← requirePermission tenantId actor .teamsRead
  let some _ ← ask (.getTeam teamId) | throw (.http 404 "Équipe introuvable")
  let userIds := (← ask (.selectTeamMembers teamId)).map fun m => m.userId
  if userIds = [] then
    return .members []
  let rows ← ask (.selectMembers tenantId)
  return .members ((rows.filter fun row => userIds.contains row.1.id).map
    fun row => .of row.1 row.2.role)

def teamMemberAdd (tenantId : Nat) (actor : User) (teamId userId : Nat) :
    DirectoryProc Reply := do
  let _ ← requirePermission tenantId actor .teamsManage
  let some team ← ask (.getTeam teamId) | throw (.http 404 "Équipe introuvable")
  let some _ ← ask (.selectMembership tenantId userId)
    | throw (.http 400 "Cet utilisateur n'est pas membre du tenant")
  if (← ask (.selectTeamMember teamId userId)).isSome then
    throw (.http 409 "Déjà membre de l'équipe")
  ask (.addTeamMember teamId userId)
  recordAuditEvent "core.team.member_added" "team" teamId
    [("team_name", some team.name), ("user_id", some (toString userId))] actor
  commitTenant
  return .status

def teamMemberRemove (tenantId : Nat) (actor : User) (teamId userId : Nat) :
    DirectoryProc Reply := do
  let _ ← requirePermission tenantId actor .teamsManage
  let some teamMember ← ask (.selectTeamMember teamId userId)
    | throw (.http 404 "Membre d'équipe introuvable")
  let team ← ask (.getTeam teamId)
  recordAuditEvent "core.team.member_removed" "team" teamId
    [("team_name", team.map fun t => t.name), ("user_id", some (toString userId))] actor
  ask (.deleteTeamMember teamMember.id)
  commitTenant
  return .status

end Socle.DirectoryService
