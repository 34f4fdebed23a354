import Socle.AuditTrail
import Socle.Knowledge

/-!
The requests on the directory as jobs that may run side by side, and what each of them has been
told before it writes: whom the guard let in, which row the tables showed, which invitation a
token opened.
-/

namespace Socle.DirectoryKnowledge

open Socle.Procedures
open Socle.Knowledge
open Socle.DirectoryStore
open Socle.DirectoryService
open Socle.RouteGuards (validateSlug)
open Socle.AuditTrail (provisionTenant)

/-! ### Jobs -/

/-- The routes behind a permission. -/
inductive Route where
  | membersList
  | memberChangeRole (userId : Nat) (role : String)
  | memberRemove (userId : Nat)
  | invitationsList
  | invitationCreate (email role : String)
  | invitationRevoke (invitationId : Nat)
  | teamsList
  | teamCreate (name : String) (description : Option String)
  | teamDelete (teamId : Nat)
  | teamMembersList (teamId : Nat)
  | teamMemberAdd (teamId userId : Nat)
  | teamMemberRemove (teamId userId : Nat)

namespace Route

def proc (settings : Settings) (tenantId : Nat) (actor : User) : Route → DirectoryProc Reply
  | membersList => DirectoryService.membersList tenantId actor
  | memberChangeRole userId role => DirectoryService.memberChangeRole tenantId actor userId role
  | memberRemove userId => DirectoryService.memberRemove tenantId actor userId
  | invitationsList => DirectoryService.invitationsList tenantId actor
  | invitationCreate email role =>
      DirectoryService.invitationCreate settings tenantId actor email role
  | invitationRevoke invitationId =>
      DirectoryService.invitationRevoke tenantId actor invitationId
  | teamsList => DirectoryService.teamsList tenantId actor
  | teamCreate name description => DirectoryService.teamCreate tenantId actor name description
  | teamDelete teamId => DirectoryService.teamDelete tenantId actor teamId
  | teamMembersList teamId => DirectoryService.teamMembersList tenantId actor teamId
  | teamMemberAdd teamId userId => DirectoryService.teamMemberAdd tenantId actor teamId userId
  | teamMemberRemove teamId userId =>
      DirectoryService.teamMemberRemove tenantId actor teamId userId

/-- The permission that the route asks for. -/
def permission : Route → CorePermission
  | membersList | invitationsList => .membersRead
  | memberChangeRole .. | memberRemove _ | invitationCreate .. | invitationRevoke _ =>
      .membersManage
  | teamsList | teamMembersList _ => .teamsRead
  | teamCreate .. | teamDelete _ | teamMemberAdd .. | teamMemberRemove .. => .teamsManage

/-- The action that the route records. -/
def action : Route → Option String
  | memberChangeRole .. => some "core.member.role_changed"
  | memberRemove _ => some "core.member.removed"
  | invitationCreate .. => some "core.member.invited"
  | invitationRevoke _ => some "core.member.invitation_revoked"
  | teamCreate .. => some "core.team.created"
  | teamDelete _ => some "core.team.deleted"
  | teamMemberAdd .. => some "core.team.member_added"
  | teamMemberRemove .. => some "core.team.member_removed"
  | membersList | invitationsList | teamsList | teamMembersList _ => none

end Route

/-- A route on the host of a tenant for a user who is logged in, the anonymous route of the
invitations, and the two commands. -/
inductive Job where
  | route (tenantId : Nat) (actor : User) (route : Route)
  | invitationsAccept (token : String) (password displayName : Option String)
  | invite (slug email role : String)
  | provisionTenant (slug name : String)

def Job.proc (settings : Settings) : Job → DirectoryProc Unit
  | .route tenantId actor asked => do
      let _ ← asked.proc settings tenantId actor
  | .invitationsAccept token password displayName => do
      let _ ← DirectoryService.invitationsAccept settings token password displayName
  | .invite slug email role => do
      let _ ← DirectoryService.invite settings slug email role
  | .provisionTenant slug name => do
      let _ ← AuditTrail.provisionTenant slug name

/-- The jobs at their beginning over these tables. -/
def start (settings : Settings) (d : Directory) (jobs : List Job) :
    Pool DirectoryInterface Failure Database Session Unit :=
  ⟨⟨d, []⟩, jobs.map fun job => ({}, job.proc settings)⟩

/-! ### Rights -/

inductive Fact where
  | job (job : Job)
  /-- The row of this user in this tenant was shown with these attributes. -/
  | membership (tenantId userId : Nat) (m : Membership)
  | invitation (i : Invitation)
  | tenant (t : Tenant)
  /-- The context of a tenant is posted. -/
  | placed

section Rights

variable (settings : Settings) (known : Set Fact)

/-- The actor was seen with a role that carries the permission. -/
def Permitted (tenantId : Nat) (actor : User) (permission : CorePermission) : Prop :=
  ∃ m, .membership tenantId actor.id m ∈ known ∧ roleHasPermission m.role permission = true

/-- The actor may manage the members of the tenant, and is an owner where ownership is at
stake. -/
def MayManage (tenantId : Nat) (actor : User) (ownership : Prop) : Prop :=
  ∃ m, .membership tenantId actor.id m ∈ known ∧
    roleHasPermission m.role .membersManage = true ∧ (ownership → m.role = .owner)

/-- A change of role gives this role to the row. -/
def Changed (membershipId : Nat) (role : Role) : Prop :=
  ∃ tenantId actor userId text target,
    .job (.route tenantId actor (.memberChangeRole userId text)) ∈ known ∧
    validateRole text = .ok role ∧
    .membership tenantId userId target ∈ known ∧ target.id = membershipId ∧
    MayManage known tenantId actor (role = .owner ∨ target.role = .owner)

def Removed (membershipId : Nat) : Prop :=
  ∃ tenantId actor userId target,
    .job (.route tenantId actor (.memberRemove userId)) ∈ known ∧
    .membership tenantId userId target ∈ known ∧ target.id = membershipId ∧
    MayManage known tenantId actor (target.role = .owner)

/-- An actor or the command line invites this address as this role. -/
def Invited (email : String) (tenantId : Nat) (role : Role) (invitedBy : Option Nat) : Prop :=
  (∃ actor text, .job (.route tenantId actor (.invitationCreate email text)) ∈ known ∧
    validateRole text = .ok role ∧ invitedBy = some actor.id ∧
    MayManage known tenantId actor (role = .owner)) ∨
  ∃ slug text tenant, .job (.invite slug email text) ∈ known ∧ validateRole text = .ok role ∧
    .tenant tenant ∈ known ∧ tenant.slug = slug ∧ tenant.id = tenantId ∧ invitedBy = none

def Revoked (invitationId : Nat) : Prop :=
  ∃ tenantId actor invitation,
    .job (.route tenantId actor (.invitationRevoke invitationId)) ∈ known ∧
    .invitation invitation ∈ known ∧ invitation.id = invitationId ∧
    invitation.tenantId = tenantId ∧ invitation.acceptedAt = none ∧
    MayManage known tenantId actor False

/-- Somebody holds the token of an open invitation to the tenant as this role. -/
def Accepted (tenantId : Nat) (role : Role) : Prop :=
  ∃ token password displayName invitation,
    .job (.invitationsAccept token password displayName) ∈ known ∧
    .invitation invitation ∈ known ∧ invitation.tokenHash = settings.hashToken token ∧
    invitation.acceptedAt = none ∧ invitation.tenantId = tenantId ∧ invitation.role = role

def Founded (slug name : String) : Prop :=
  ∃ text, .job (.provisionTenant text name) ∈ known ∧ validateSlug text = .ok slug

/-- The tenant in whose context the job may write. -/
def Placed (tenantId : Nat) : Prop :=
  (∃ actor route, .job (.route tenantId actor route) ∈ known) ∨
  (∃ role, Accepted settings known tenantId role) ∨
  ∃ slug name, Founded known slug name

/-- The actor manages the teams of the tenant. -/
def Organised (tenantId : Nat) : Prop :=
  ∃ actor route, .job (.route tenantId actor route) ∈ known ∧ route.permission = .teamsManage ∧
    Permitted known tenantId actor .teamsManage

/-- The event records what the job does in the context of the tenant. -/
def Audited (tenantId : Nat) (e : AuditEvent) : Prop :=
  (∃ actor route, .job (.route tenantId actor route) ∈ known ∧ route.action = some e.action ∧
    e.actorUserId = some actor.id ∧ Permitted known tenantId actor route.permission) ∨
  (∃ role, Accepted settings known tenantId role ∧
    e.action = "core.member.invitation_accepted") ∨
  ∃ slug name, Founded known slug name ∧ e.action = "core.tenant.provisioned" ∧
    e.actorUserId = none ∧ e.payload = [("slug", some slug), ("name", some name)]

end Rights

section Mono

variable {settings : Settings} {known later : Set Fact} {tenantId id : Nat} {role : Role}

theorem MayManage.mono {actor : User} {ownership : Prop}
    (h : MayManage known tenantId actor ownership) (hlater : known ⊆ later) :
    MayManage later tenantId actor ownership := by
  obtain ⟨m, hm, hrest⟩ := h
  exact ⟨m, hlater hm, hrest⟩

theorem Permitted.mono {actor : User} {permission : CorePermission}
    (h : Permitted known tenantId actor permission) (hlater : known ⊆ later) :
    Permitted later tenantId actor permission := by
  obtain ⟨m, hm, hrest⟩ := h
  exact ⟨m, hlater hm, hrest⟩

theorem Changed.mono (h : Changed known id role) (hlater : known ⊆ later) :
    Changed later id role := by
  obtain ⟨tenantId, actor, userId, text, target, hjob, hrole, htarget, hid, hmay⟩ := h
  exact ⟨tenantId, actor, userId, text, target, hlater hjob, hrole, hlater htarget, hid,
    hmay.mono hlater⟩

theorem Removed.mono (h : Removed known id) (hlater : known ⊆ later) : Removed later id := by
  obtain ⟨tenantId, actor, userId, target, hjob, htarget, hid, hmay⟩ := h
  exact ⟨tenantId, actor, userId, target, hlater hjob, hlater htarget, hid, hmay.mono hlater⟩

theorem Invited.mono {email : String} {invitedBy : Option Nat}
    (h : Invited known email tenantId role invitedBy) (hlater : known ⊆ later) :
    Invited later email tenantId role invitedBy := by
  rcases h with ⟨actor, text, hjob, hrole, hby, hmay⟩ | ⟨slug, text, tenant, hjob, hrole, ht, hrest⟩
  · exact .inl ⟨actor, text, hlater hjob, hrole, hby, hmay.mono hlater⟩
  · exact .inr ⟨slug, text, tenant, hlater hjob, hrole, hlater ht, hrest⟩

theorem Revoked.mono (h : Revoked known id) (hlater : known ⊆ later) : Revoked later id := by
  obtain ⟨tenantId, actor, invitation, hjob, hi, hid, htenant, hopen, hmay⟩ := h
  exact ⟨tenantId, actor, invitation, hlater hjob, hlater hi, hid, htenant, hopen,
    hmay.mono hlater⟩

theorem Accepted.mono (h : Accepted settings known tenantId role) (hlater : known ⊆ later) :
    Accepted settings later tenantId role := by
  obtain ⟨token, password, displayName, invitation, hjob, hi, hrest⟩ := h
  exact ⟨token, password, displayName, invitation, hlater hjob, hlater hi, hrest⟩

theorem Founded.mono {slug name : String} (h : Founded known slug name) (hlater : known ⊆ later) :
    Founded later slug name := by
  obtain ⟨text, hjob, hslug⟩ := h
  exact ⟨text, hlater hjob, hslug⟩

theorem Placed.mono (h : Placed settings known tenantId) (hlater : known ⊆ later) :
    Placed settings later tenantId := by
  rcases h with ⟨actor, route, hjob⟩ | ⟨role, haccepted⟩ | ⟨slug, name, hfounded⟩
  · exact .inl ⟨actor, route, hlater hjob⟩
  · exact .inr (.inl ⟨role, haccepted.mono hlater⟩)
  · exact .inr (.inr ⟨slug, name, hfounded.mono hlater⟩)

theorem Organised.mono (h : Organised known tenantId) (hlater : known ⊆ later) :
    Organised later tenantId := by
  obtain ⟨actor, route, hjob, hpermission, hpermitted⟩ := h
  exact ⟨actor, route, hlater hjob, hpermission, hpermitted.mono hlater⟩

theorem Audited.mono {e : AuditEvent} (h : Audited settings known tenantId e)
    (hlater : known ⊆ later) : Audited settings later tenantId e := by
  rcases h with ⟨actor, route, hjob, haction, hactor, hpermitted⟩ | ⟨role, haccepted, haction⟩ |
    ⟨slug, name, hfounded, hrest⟩
  · exact .inl ⟨actor, route, hlater hjob, haction, hactor, hpermitted.mono hlater⟩
  · exact .inr (.inl ⟨role, haccepted.mono hlater, haction⟩)
  · exact .inr (.inr ⟨slug, name, hfounded.mono hlater, hrest⟩)

end Mono

/-- What an answer tells. -/
def told : (r : Request) → Answer r → Set Fact
  | .selectMembership tenantId userId => fun found =>
      {fact | ∃ m ∈ found, fact = .membership tenantId userId m}
  | .selectInvitationByHash _ | .getInvitation _ => fun found =>
      {fact | ∃ i ∈ found, fact = .invitation i}
  | .selectTenantBySlug _ => fun found => {fact | ∃ t ∈ found, fact = .tenant t}
  | .pushTenant _ => fun _ => {.placed}
  | _ => fun _ => ∅

/-- What has to be known for a write. -/
def needs (settings : Settings) : Request → Set Fact → Prop
  | .pushTenant tenantId, known => Placed settings known tenantId
  | .addTenant slug name, known => Founded known slug name
  | .addInvitation email tenantId role _ _ invitedBy, known =>
      Invited known email tenantId role invitedBy
  | .deleteInvitation invitationId, known => Revoked known invitationId
  | .addMembership _ tenantId role, known => Accepted settings known tenantId role
  | .setRole m role, known => Changed known m.id role
  | .deleteMembership membershipId, known => Removed known membershipId
  | .addTeam .., known | .addTeamMember .., known =>
      .placed ∈ known ∧ ∃ tenantId, Organised known tenantId
  | .addAuditEvent e, known => .placed ∈ known ∧ ∃ tenantId, Audited settings known tenantId e
  | _, _ => True

/-- A query answers with a row that matches. -/
def possible : (r : Request) → Answer r → Prop
  | .selectInvitationByHash tokenHash => fun found => ∀ i ∈ found, i.tokenHash = tokenHash
  | .getInvitation invitationId => fun found => ∀ i ∈ found, i.id = invitationId
  | .selectTenantBySlug slug => fun found => ∀ t ∈ found, t.slug = slug
  | .getTenant tenantId => fun found => ∀ t ∈ found, t.id = tenantId
  | _ => fun _ => True

def rules (settings : Settings) : Rules DirectoryInterface Fact :=
  ⟨needs settings, told, possible, fun _ _ _ => False⟩

variable {α β : Type} {settings : Settings} {known : Set Fact} {tenantId : Nat} {actor : User}
  {route : Route}

theorem subset_union_two {first second : Set Fact} : known ⊆ known ∪ first ∪ second :=
  Set.subset_union_left.trans Set.subset_union_left

theorem subset_union_three {first second third : Set Fact} :
    known ⊆ known ∪ first ∪ second ∪ third := subset_union_two.trans Set.subset_union_left

abbrev Heeds (settings : Settings) (known : Set Fact) (p : DirectoryProc α) : Prop :=
  Knowledge.Heeds (rules settings) (fun _ _ => True) known p

theorem heeds_ask_bind {Q : Set Fact → α → Prop} {r : Request} {f : Answer r → DirectoryProc α}
    (hr : needs settings r known)
    (hf : ∀ a, possible r a → Knowledge.Heeds (rules settings) Q (known ∪ told r a) (f a)) :
    Knowledge.Heeds (rules settings) Q known (ask r >>= f) :=
  ⟨hr, fun _ _ hab => hab.elim, hf⟩

theorem heeds_asHttp {Q : Set Fact → α → Prop} {p : DirectoryProc α}
    (hp : Knowledge.Heeds (rules settings) Q known p) (status : Nat)
    (caught : Failure → Option String) :
    Knowledge.Heeds (rules settings) Q known (asHttp status caught p) := by
  refine Knowledge.heeds_attempt_bind hp fun later outcome _ hQ => ?_
  cases outcome with
  | ok a => exact hQ a rfl
  | error e =>
      dsimp only
      split <;> trivial

theorem heeds_commitTenant : Heeds settings known commitTenant :=
  heeds_ask_bind trivial fun outcome _ => by cases outcome <;> trivial

theorem heeds_commitControl : Heeds settings known commitControl :=
  heeds_ask_bind trivial fun outcome _ => by cases outcome <;> trivial

theorem heeds_getOneUser (userId : Nat) : Heeds settings known (getOneUser userId) :=
  heeds_ask_bind trivial fun found _ => by cases found <;> trivial

/-- What the guard of a route has seen. -/
structure Guarded (known : Set Fact) (tenantId : Nat) (actor : User) (permission : CorePermission)
    (role : Role) : Prop where
  seen : ∃ m, .membership tenantId actor.id m ∈ known ∧ m.role = role
  allowed : roleHasPermission role permission = true
  placed : .placed ∈ known

theorem Guarded.permitted {permission : CorePermission} {role : Role}
    (h : Guarded known tenantId actor permission role) :
    Permitted known tenantId actor permission := by
  obtain ⟨m, hm, rfl⟩ := h.seen
  exact ⟨m, hm, h.allowed⟩

theorem Guarded.mayManage {role : Role} {ownership : Prop}
    (h : Guarded known tenantId actor .membersManage role) (howner : ownership → role = .owner) :
    MayManage known tenantId actor ownership := by
  obtain ⟨m, hm, rfl⟩ := h.seen
  exact ⟨m, hm, h.allowed, howner⟩

theorem Guarded.mono {later : Set Fact} {permission : CorePermission} {role : Role}
    (h : Guarded known tenantId actor permission role) (hlater : known ⊆ later) :
    Guarded later tenantId actor permission role := by
  obtain ⟨m, hm, hrole⟩ := h.seen
  exact ⟨⟨m, hlater hm, hrole⟩, h.allowed, hlater h.placed⟩

theorem heeds_requirePermission (hjob : .job (.route tenantId actor route) ∈ known)
    (permission : CorePermission) :
    Knowledge.Heeds (rules settings)
      (fun later role => Guarded later tenantId actor permission role) known
      (requirePermission tenantId actor permission) := by
  refine heeds_ask_bind trivial fun found _ => ?_
  cases found with
  | none => trivial
  | some m =>
      refine heeds_ask_bind (.inl ⟨actor, route, .inl hjob⟩) fun _ _ => ?_
      split
      · rename_i hallowed
        exact ⟨⟨m, .inl (.inr ⟨m, rfl, rfl⟩), rfl⟩, hallowed, .inr rfl⟩
      · trivial

theorem heeds_guarded_bind {permission : CorePermission} {f : Role → DirectoryProc α}
    (hjob : .job (.route tenantId actor route) ∈ known)
    (hf : ∀ later role, .job (.route tenantId actor route) ∈ later →
      Guarded later tenantId actor permission role → Heeds settings later (f role)) :
    Heeds settings known (requirePermission tenantId actor permission >>= f) :=
  Knowledge.heeds_bind (heeds_requirePermission hjob permission) fun later role hlater hguard =>
    hf later role (hlater hjob) hguard

theorem heeds_bind {p : DirectoryProc α} {f : α → DirectoryProc β} (hp : Heeds settings known p)
    (hf : ∀ later a, known ⊆ later → Heeds settings later (f a)) :
    Heeds settings known (p >>= f) :=
  Knowledge.heeds_bind hp fun later a hlater _ => hf later a hlater

theorem heeds_recordAuditEvent_bind {role : Role} {action : String}
    (hjob : .job (.route tenantId actor route) ∈ known)
    (hguard : Guarded known tenantId actor route.permission role)
    (haction : route.action = some action) {resourceType : String} {resourceId : Nat}
    {payload : List (String × Option String)} {f : Unit → DirectoryProc α}
    (hf : ∀ later, known ⊆ later → Heeds settings later (f ())) :
    Heeds settings known
      (recordAuditEvent action resourceType resourceId payload actor >>= f) := by
  refine heeds_ask_bind ⟨hguard.placed, tenantId, ?_⟩ fun _ _ => hf _ Set.subset_union_left
  exact .inl ⟨actor, route, hjob, haction, rfl, hguard.permitted⟩

theorem heeds_commits (reply : Reply) :
    Heeds settings known (do
      commitTenant
      commitControl
      return reply) :=
  heeds_bind heeds_commitTenant fun _ _ _ => heeds_bind heeds_commitControl fun _ _ _ => trivial

theorem heeds_commitTenant_return (reply : Reply) :
    Heeds settings known (do
      commitTenant
      return reply) :=
  heeds_bind heeds_commitTenant fun _ _ _ => trivial

section Members

theorem heeds_changeMemberRole {userId : Nat} {role : String} {actorRole : Role}
    (hjob : .job (.route tenantId actor (.memberChangeRole userId role)) ∈ known)
    (hguard : Guarded known tenantId actor .membersManage actorRole) :
    Heeds settings known (changeMemberRole tenantId userId role actorRole) := by
  unfold changeMemberRole
  cases hrole : validateRole role with
  | error e => trivial
  | ok newRole =>
      simp only [Proc.ofExcept, Proc.ret_bind]
      refine heeds_ask_bind trivial fun found _ => ?_
      cases found with
      | none => trivial
      | some target =>
          dsimp only
          split
          · trivial
          rename_i hrule
          have hset (later : Set Fact) (hlater : known ⊆ later)
              (htarget : .membership tenantId userId target ∈ later) :
              Changed later target.id newRole := by
            refine ⟨tenantId, actor, userId, role, target, hlater hjob, hrole, htarget, rfl, ?_⟩
            exact (hguard.mono hlater).mayManage fun hownership =>
              not_not.mp fun hactor => hrule ⟨hownership, hactor⟩
          have htold : .membership tenantId userId target ∈
              known ∪ told (.selectMembership tenantId userId) (some target) :=
            .inr ⟨target, rfl, rfl⟩
          split
          · refine heeds_ask_bind trivial fun owners _ => ?_
            split
            · trivial
            · exact heeds_ask_bind (hset _ subset_union_two (.inl htold)) fun _ _ => trivial
          · exact heeds_ask_bind (hset _ Set.subset_union_left htold) fun _ _ => trivial

theorem heeds_removeMember {userId : Nat} {actorRole : Role}
    (hjob : .job (.route tenantId actor (.memberRemove userId)) ∈ known)
    (hguard : Guarded known tenantId actor .membersManage actorRole) :
    Heeds settings known (removeMember tenantId userId actorRole) := by
  unfold removeMember
  refine heeds_ask_bind trivial fun found _ => ?_
  cases found with
  | none => trivial
  | some target =>
      have hdelete (later : Set Fact) (hlater : known ⊆ later)
          (htarget : .membership tenantId userId target ∈ later)
          (howner : target.role = .owner → actorRole = .owner) : Removed later target.id :=
        ⟨tenantId, actor, userId, target, hlater hjob, htarget, rfl,
          (hguard.mono hlater).mayManage howner⟩
      have htold : .membership tenantId userId target ∈
          known ∪ told (.selectMembership tenantId userId) (some target) :=
        .inr ⟨target, rfl, rfl⟩
      dsimp only
      split
      · split
        · trivial
        rename_i hactor
        refine heeds_ask_bind trivial fun owners _ => ?_
        split
        · trivial
        · exact ⟨hdelete _ subset_union_two (.inl htold) fun _ => not_not.mp hactor,
            fun _ _ h => h.elim, fun _ _ => trivial⟩
      · rename_i hmember
        exact ⟨hdelete _ Set.subset_union_left htold fun howner => (hmember howner).elim,
          fun _ _ h => h.elim, fun _ _ => trivial⟩

theorem heeds_memberChangeRole {userId : Nat} {role : String}
    (hjob : .job (.route tenantId actor (.memberChangeRole userId role)) ∈ known) :
    Heeds settings known (memberChangeRole tenantId actor userId role) := by
  refine heeds_guarded_bind hjob fun known actorRole hjob hguard => ?_
  refine heeds_ask_bind trivial fun previous _ => ?_
  have hjob := Set.mem_union_left (told (.selectMembership tenantId userId) previous) hjob
  have hguard : Guarded (known ∪ told (.selectMembership tenantId userId) previous) tenantId actor
      .membersManage actorRole := hguard.mono Set.subset_union_left
  refine heeds_bind (heeds_asHttp (heeds_changeMemberRole hjob hguard) ..) fun _ m hchange => ?_
  refine heeds_bind (heeds_getOneUser userId) fun later user hlater => ?_
  have hlater := hchange.trans hlater
  exact heeds_recordAuditEvent_bind (hlater hjob) (hguard.mono hlater) rfl fun _ _ =>
    heeds_commits _

theorem heeds_emailOfTarget (target : Option Membership) (userId : Nat) :
    Heeds settings known (emailOfTarget target userId) := by
  cases target with
  | none => trivial
  | some m => exact heeds_bind (heeds_getOneUser userId) fun _ _ _ => trivial

theorem heeds_memberRemove {userId : Nat}
    (hjob : .job (.route tenantId actor (.memberRemove userId)) ∈ known) :
    Heeds settings known (memberRemove tenantId actor userId) := by
  refine heeds_guarded_bind hjob fun known actorRole hjob hguard => ?_
  refine heeds_ask_bind trivial fun target _ => ?_
  refine heeds_bind (heeds_emailOfTarget target userId) fun later email hlater => ?_
  have hlater := Set.subset_union_left.trans hlater
  have hguard := hguard.mono hlater
  refine heeds_bind (heeds_asHttp (heeds_removeMember (hlater hjob) hguard) ..)
    fun _ _ hremove => ?_
  exact heeds_recordAuditEvent_bind (hremove (hlater hjob)) (hguard.mono hremove) rfl fun _ _ =>
    heeds_commits _

end Members

section Invitations

theorem heeds_refuseMember (tenantId : Nat) (email : String) :
    Heeds settings known (refuseMember tenantId email) := by
  refine heeds_ask_bind trivial fun found _ => ?_
  cases found with
  | none => trivial
  | some user =>
      refine heeds_ask_bind trivial fun m _ => ?_
      split <;> trivial

theorem heeds_createInvitation {email role : String} {actorRole : Option Role}
    {invitedBy : Option Nat}
    (hinvited : ∀ later newRole, known ⊆ later → validateRole role = .ok newRole →
      ¬ (newRole = .owner ∧ actorRole.isSome = true ∧ actorRole ≠ some .owner) →
      Invited later email tenantId newRole invitedBy) :
    Heeds settings known
      (createInvitation settings tenantId email role actorRole invitedBy) := by
  unfold createInvitation
  cases hrole : validateRole role with
  | error e => trivial
  | ok newRole =>
      simp only [Proc.ofExcept, Proc.ret_bind]
      split
      · trivial
      rename_i hrule
      refine heeds_bind (heeds_refuseMember tenantId email) fun later _ hlater => ?_
      refine heeds_ask_bind trivial fun now _ => heeds_ask_bind trivial fun pending _ => ?_
      split
      · trivial
      refine heeds_ask_bind trivial fun token _ => heeds_ask_bind trivial fun now _ => ?_
      refine heeds_ask_bind (hinvited _ newRole ?_ hrole hrule) fun _ _ => trivial
      repeat refine Set.Subset.trans ?_ Set.subset_union_left
      exact hlater

theorem heeds_invitationCreate {email role : String}
    (hjob : .job (.route tenantId actor (.invitationCreate email role)) ∈ known) :
    Heeds settings known (invitationCreate settings tenantId actor email role) := by
  refine heeds_guarded_bind hjob fun known actorRole hjob hguard => ?_
  refine heeds_bind (heeds_asHttp (heeds_createInvitation fun later newRole hlater hrole hrule =>
    .inl ⟨actor, role, hlater hjob, hrole, rfl, ?_⟩) ..) fun later created hlater => ?_
  · refine (hguard.mono hlater).mayManage fun howner => ?_
    by_contra hactor
    exact hrule ⟨howner, rfl, fun h => hactor (Option.some.inj h)⟩
  · exact heeds_recordAuditEvent_bind (hlater hjob) (hguard.mono hlater) rfl fun _ _ =>
      heeds_commits _

theorem heeds_invite {slug email role : String} (hjob : .job (.invite slug email role) ∈ known) :
    Heeds settings known (DirectoryService.invite settings slug email role) := by
  refine heeds_ask_bind trivial fun found hfound => ?_
  cases found with
  | none => trivial
  | some tenant =>
      refine heeds_bind (heeds_createInvitation fun later newRole hlater hrole _ =>
        .inr ⟨slug, role, tenant, ?_, hrole, ?_, hfound tenant rfl, rfl, rfl⟩) fun _ _ _ => ?_
      · exact hlater (.inl hjob)
      · exact hlater (.inr ⟨tenant, rfl, rfl⟩)
      · exact heeds_bind heeds_commitControl fun _ _ _ => trivial

theorem heeds_revokeInvitation {invitationId : Nat} {role : Role}
    (hjob : .job (.route tenantId actor (.invitationRevoke invitationId)) ∈ known)
    (hguard : Guarded known tenantId actor .membersManage role) :
    Heeds settings known (revokeInvitation tenantId invitationId) := by
  refine heeds_ask_bind trivial fun found hfound => ?_
  cases found with
  | none => trivial
  | some invitation =>
      dsimp only
      split
      · trivial
      rename_i htenant
      split
      · trivial
      rename_i hopen
      refine heeds_ask_bind ⟨tenantId, actor, invitation, .inl hjob, .inr ⟨invitation, rfl, rfl⟩,
        hfound invitation rfl, not_not.mp htenant, ?_, ?_⟩ fun _ _ => trivial
      · simpa using hopen
      · exact (hguard.mono Set.subset_union_left).mayManage False.elim

theorem heeds_invitationRevoke {invitationId : Nat}
    (hjob : .job (.route tenantId actor (.invitationRevoke invitationId)) ∈ known) :
    Heeds settings known (invitationRevoke tenantId actor invitationId) := by
  refine heeds_guarded_bind hjob fun known role hjob hguard => ?_
  refine heeds_bind (heeds_asHttp (heeds_revokeInvitation hjob hguard) ..)
    fun later invitation hlater => ?_
  exact heeds_recordAuditEvent_bind (hlater hjob) (hguard.mono hlater) rfl fun _ _ =>
    heeds_commits _

theorem heeds_adoptDisplayName (user : User) (displayName : Option String) :
    Heeds settings known (adoptDisplayName user displayName) := by
  unfold adoptDisplayName
  split
  · exact heeds_ask_bind trivial fun _ _ => trivial
  · trivial

theorem heeds_invitedUser (invitation : Invitation) (password displayName : Option String) :
    Heeds settings known (invitedUser invitation password displayName) := by
  refine heeds_ask_bind trivial fun found _ => ?_
  cases found with
  | none =>
      refine heeds_ask_bind trivial fun user _ => ?_
      dsimp only
      split
      · exact heeds_ask_bind trivial fun _ _ => trivial
      · trivial
  | some user =>
      refine heeds_bind (heeds_adoptDisplayName user displayName) fun _ _ _ => ?_
      split <;> trivial

theorem heeds_acceptInvitation {token : String} {password displayName : Option String}
    (hjob : .job (.invitationsAccept token password displayName) ∈ known) :
    Knowledge.Heeds (rules settings)
      (fun later out => Accepted settings later out.2.tenantId out.2.role) known
      (acceptInvitation settings token password displayName) := by
  refine heeds_ask_bind trivial fun found hfound => ?_
  cases found with
  | none => trivial
  | some invitation =>
      refine heeds_ask_bind trivial fun now _ => ?_
      split
      · trivial
      rename_i hopen
      have haccepted (later : Set Fact)
          (hlater : known ∪ told (.selectInvitationByHash (settings.hashToken token))
            (some invitation) ⊆ later) :
          Accepted settings later invitation.tenantId invitation.role :=
        ⟨token, password, displayName, invitation, hlater (.inl hjob),
          hlater (.inr ⟨invitation, rfl, rfl⟩), hfound invitation rfl, by simp_all, rfl, rfl⟩
      refine Knowledge.heeds_bind (heeds_invitedUser ..) fun later user hlater _ => ?_
      have hlater := Set.subset_union_left.trans hlater
      refine heeds_ask_bind trivial fun found _ => ?_
      split
      · trivial
      refine heeds_ask_bind (haccepted _ (hlater.trans Set.subset_union_left)) fun _ _ => ?_
      refine heeds_ask_bind trivial fun now _ => heeds_ask_bind trivial fun _ _ => ?_
      refine haccepted _ (hlater.trans ?_)
      repeat refine Set.Subset.trans ?_ Set.subset_union_left
      exact Set.Subset.rfl

theorem heeds_invitationsAccept {token : String} {password displayName : Option String}
    (hjob : .job (.invitationsAccept token password displayName) ∈ known) :
    Heeds settings known (invitationsAccept settings token password displayName) := by
  refine Knowledge.heeds_bind (heeds_asHttp (heeds_acceptInvitation hjob) ..)
    fun later out _ haccepted => ?_
  obtain ⟨user, invitation⟩ := out
  refine heeds_bind heeds_commitControl fun later _ hlater => ?_
  have haccepted := haccepted.mono hlater
  refine heeds_ask_bind trivial fun found hfound => ?_
  cases found with
  | none => trivial
  | some tenant =>
      have htenant : tenant.id = invitation.tenantId := hfound tenant rfl
      have haccepted : Accepted settings
          (later ∪ told (.getTenant invitation.tenantId) (some tenant)) invitation.tenantId
          invitation.role := haccepted.mono Set.subset_union_left
      refine heeds_ask_bind (.inr (.inl ⟨invitation.role, htenant ▸ haccepted⟩)) fun _ _ => ?_
      refine heeds_ask_bind ⟨.inr rfl, invitation.tenantId, .inr (.inl ⟨invitation.role, ?_, rfl⟩)⟩
        fun _ _ => heeds_commitTenant_return _
      exact haccepted.mono Set.subset_union_left

end Invitations

section Teams

theorem heeds_teamCreate {name : String} {description : Option String}
    (hjob : .job (.route tenantId actor (.teamCreate name description)) ∈ known) :
    Heeds settings known (teamCreate tenantId actor name description) := by
  refine heeds_guarded_bind hjob fun known role hjob hguard => ?_
  refine heeds_ask_bind trivial fun found _ => ?_
  split
  · trivial
  have hjob := Set.mem_union_left (told (.selectTeamByName name) found) hjob
  have hguard : Guarded (known ∪ told (.selectTeamByName name) found) tenantId actor .teamsManage
      role := hguard.mono Set.subset_union_left
  refine heeds_ask_bind ⟨hguard.placed, tenantId, actor, _, hjob, rfl, hguard.permitted⟩
    fun team _ => ?_
  exact heeds_recordAuditEvent_bind (.inl hjob) (hguard.mono Set.subset_union_left) rfl
    fun _ _ => heeds_commitTenant_return _

theorem heeds_teamDelete {teamId : Nat}
    (hjob : .job (.route tenantId actor (.teamDelete teamId)) ∈ known) :
    Heeds settings known (teamDelete tenantId actor teamId) := by
  refine heeds_guarded_bind hjob fun known role hjob hguard => ?_
  refine heeds_ask_bind trivial fun found _ => ?_
  cases found with
  | none => trivial
  | some team =>
      exact heeds_recordAuditEvent_bind (.inl hjob) (hguard.mono Set.subset_union_left) rfl
        fun _ _ => heeds_ask_bind trivial fun _ _ => heeds_commitTenant_return _

theorem heeds_teamMemberAdd {teamId userId : Nat}
    (hjob : .job (.route tenantId actor (.teamMemberAdd teamId userId)) ∈ known) :
    Heeds settings known (teamMemberAdd tenantId actor teamId userId) := by
  refine heeds_guarded_bind hjob fun known role hjob hguard => ?_
  refine heeds_ask_bind trivial fun found _ => ?_
  cases found with
  | none => trivial
  | some team =>
      refine heeds_ask_bind trivial fun found _ => ?_
      cases found with
      | none => trivial
      | some m =>
          refine heeds_ask_bind trivial fun found _ => ?_
          split
          · trivial
          have hguard : Guarded (known ∪ told (.getTeam teamId) (some team) ∪
              told (.selectMembership tenantId userId) (some m) ∪
              told (.selectTeamMember teamId userId) found) tenantId actor .teamsManage role :=
            hguard.mono subset_union_three
          refine heeds_ask_bind ⟨hguard.placed, tenantId, actor, _, subset_union_three hjob, rfl,
            hguard.permitted⟩ fun _ _ => ?_
          exact heeds_recordAuditEvent_bind (.inl (subset_union_three hjob))
            (hguard.mono Set.subset_union_left) rfl fun _ _ => heeds_commitTenant_return _

theorem heeds_teamMemberRemove {teamId userId : Nat}
    (hjob : .job (.route tenantId actor (.teamMemberRemove teamId userId)) ∈ known) :
    Heeds settings known (teamMemberRemove tenantId actor teamId userId) := by
  refine heeds_guarded_bind hjob fun known role hjob hguard => ?_
  refine heeds_ask_bind trivial fun found _ => ?_
  cases found with
  | none => trivial
  | some teamMember =>
      refine heeds_ask_bind trivial fun team _ => ?_
      exact heeds_recordAuditEvent_bind (.inl (.inl hjob)) (hguard.mono subset_union_two) rfl
        fun _ _ => heeds_ask_bind trivial fun _ _ => heeds_commitTenant_return _

theorem heeds_teamMembersList {teamId : Nat}
    (hjob : .job (.route tenantId actor (.teamMembersList teamId)) ∈ known) :
    Heeds settings known (teamMembersList tenantId actor teamId) := by
  refine heeds_guarded_bind hjob fun known role hjob hguard => ?_
  refine heeds_ask_bind trivial fun found _ => ?_
  cases found with
  | none => trivial
  | some team =>
      refine heeds_ask_bind trivial fun rows _ => ?_
      dsimp only
      split
      · trivial
      · exact heeds_ask_bind trivial fun _ _ => trivial

end Teams

theorem heeds_provisionTenant {slug name : String}
    (hjob : .job (.provisionTenant slug name) ∈ known) :
    Heeds settings known (provisionTenant slug name) := by
  unfold provisionTenant
  cases hslug : validateSlug slug with
  | error message => trivial
  | ok valid =>
      refine heeds_ask_bind trivial fun found _ => ?_
      cases found with
      | some existing => trivial
      | none =>
          have hfounded (later : Set Fact) (hlater : known ⊆ later) : Founded later valid name :=
            ⟨slug, hlater hjob, hslug⟩
          refine heeds_ask_bind (hfounded _ Set.subset_union_left) fun tenant _ => ?_
          refine heeds_ask_bind (.inr (.inr ⟨valid, name, hfounded _ subset_union_two⟩))
            fun _ _ => ?_
          refine heeds_ask_bind ⟨.inr rfl, tenant.id, .inr (.inr ⟨valid, name,
            hfounded _ subset_union_three, rfl, rfl, rfl⟩)⟩ fun _ _ => ?_
          exact heeds_bind heeds_commitTenant fun _ _ _ => trivial

theorem heeds_job {job : Job} (hjob : .job job ∈ known) :
    Heeds settings known (job.proc settings) := by
  have hreturn {α : Type} {p : DirectoryProc α} (hp : Heeds settings known p) :
      Heeds settings known (do let _ ← p) := heeds_bind hp fun _ _ _ => trivial
  cases job with
  | invitationsAccept => exact hreturn (heeds_invitationsAccept hjob)
  | invite => exact hreturn (heeds_invite hjob)
  | provisionTenant => exact hreturn (heeds_provisionTenant hjob)
  | route tenantId actor route =>
      refine hreturn ?_
      cases route with
      | membersList | invitationsList | teamsList =>
          exact heeds_guarded_bind hjob fun _ _ _ _ => heeds_ask_bind trivial fun _ _ => trivial
      | memberChangeRole => exact heeds_memberChangeRole hjob
      | memberRemove => exact heeds_memberRemove hjob
      | invitationCreate => exact heeds_invitationCreate hjob
      | invitationRevoke => exact heeds_invitationRevoke hjob
      | teamCreate => exact heeds_teamCreate hjob
      | teamDelete => exact heeds_teamDelete hjob
      | teamMembersList => exact heeds_teamMembersList hjob
      | teamMemberAdd => exact heeds_teamMemberAdd hjob
      | teamMemberRemove => exact heeds_teamMemberRemove hjob

end Socle.DirectoryKnowledge
