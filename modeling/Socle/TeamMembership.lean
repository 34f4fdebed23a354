import Socle.ServiceFootprints

/-!
Team membership against tenant membership.  No foreign key ties a team member
to a membership: which requests keep the two together, one request at a time.
-/

namespace Socle.TeamMembership

open Socle.GuardedRuns
open Socle.Procedures
open Socle.DirectoryStore
open Socle.DirectoryService
open Socle.ServiceFootprints

/-- The requests on members, invitations and teams that write. -/
inductive DirectoryRequest where
  | invite (tenantId : Nat) (actor : User) (email role : String)
  | revokeInvitation (tenantId : Nat) (actor : User) (invitationId : Nat)
  | accept (token : String) (password displayName : Option String)
  | changeRole (tenantId : Nat) (actor : User) (userId : Nat) (role : String)
  | remove (tenantId : Nat) (actor : User) (userId : Nat)
  | createTeam (tenantId : Nat) (actor : User) (name : String) (description : Option String)
  | deleteTeam (tenantId : Nat) (actor : User) (teamId : Nat)
  | addTeamMember (tenantId : Nat) (actor : User) (teamId userId : Nat)
  | removeTeamMember (tenantId : Nat) (actor : User) (teamId userId : Nat)

def DirectoryRequest.procedure (settings : Settings) : DirectoryRequest → DirectoryProc Reply
  | .invite tenantId actor email role => invitationCreate settings tenantId actor email role
  | .revokeInvitation tenantId actor invitationId => invitationRevoke tenantId actor invitationId
  | .accept token password displayName => invitationsAccept settings token password displayName
  | .changeRole tenantId actor userId role => memberChangeRole tenantId actor userId role
  | .remove tenantId actor userId => memberRemove tenantId actor userId
  | .createTeam tenantId actor name description => teamCreate tenantId actor name description
  | .deleteTeam tenantId actor teamId => teamDelete tenantId actor teamId
  | .addTeamMember tenantId actor teamId userId => teamMemberAdd tenantId actor teamId userId
  | .removeTeamMember tenantId actor teamId userId =>
      teamMemberRemove tenantId actor teamId userId

/-- One request, executed alone with the choices of its environment. -/
def handle (settings : Settings) (d : Directory) (event : DirectoryRequest × (Nat → Choice)) :
    Option Directory :=
  some (eval serve (event.1.procedure settings) ⟨d, []⟩ {} event.2).1.directory

/-- Every team member is in a team of its tenant and a member of the tenant. -/
def TeamsOfMembers (d : Directory) : Prop :=
  ∀ row ∈ d.teamMembers,
    (∃ team ∈ d.teams, team.id = row.teamId ∧ team.tenantId = row.tenantId) ∧
      ∃ m ∈ d.memberships, m.userId = row.userId ∧ m.tenantId = row.tenantId

def InTeam (d : Directory) (tenantId userId : Nat) : Prop :=
  ∃ row ∈ d.teamMembers, row.tenantId = tenantId ∧ row.userId = userId

instance (d : Directory) (tenantId userId : Nat) : Decidable (InTeam d tenantId userId) :=
  inferInstanceAs (Decidable (∃ row ∈ d.teamMembers, _))

/-- The removal passes the checks of its route: the actor manages members, the
target is one, and the rules on owners are met. -/
def removalAccepted (d : Directory) (tenantId : Nat) (actor : User) (userId : Nat) : Bool :=
  match d.getMembership tenantId actor.id, d.getMembership tenantId userId with
  | some actorMembership, some target =>
      roleHasPermission actorMembership.role .membersManage &&
        (target.role != .owner ||
          actorMembership.role == .owner && decide (2 ≤ d.countOwners tenantId))
  | _, _ => false

/-- The side condition on a request: a member whose removal is accepted is in
no team of the tenant. -/
def removesOutsideTeams (d : Directory) (event : DirectoryRequest × (Nat → Choice)) : Prop :=
  match event.1 with
  | .remove tenantId actor userId =>
      removalAccepted d tenantId actor userId → ¬ InTeam d tenantId userId
  | _ => True

instance (d : Directory) (event : DirectoryRequest × (Nat → Choice)) :
    Decidable (removesOutsideTeams d event) := by
  unfold removesOutsideTeams
  split <;> infer_instance

/-- The invariant: team members are members, and primary keys are unique. -/
structure Sound (d : Directory) : Prop where
  keys : (d.memberships.map (·.id)).Nodup
  teams : TeamsOfMembers d

/-- Every change but the two that can separate a team member from its
membership. -/
def Harmless : Change → Prop
  | .deleteMembership _ => False
  | .addTeamMember _ => False
  | _ => True

theorem TeamsOfMembers.mono {d d' : Directory} (h : TeamsOfMembers d)
    (hrows : d'.teamMembers ⊆ d.teamMembers)
    (hteams : ∀ row ∈ d'.teamMembers, ∀ team ∈ d.teams, team.id = row.teamId →
      team ∈ d'.teams)
    (hmembers : ∀ m ∈ d.memberships, ∃ m' ∈ d'.memberships,
      m'.userId = m.userId ∧ m'.tenantId = m.tenantId) : TeamsOfMembers d' := by
  intro row hrow
  obtain ⟨⟨team, hteam, hid, htenant⟩, m, hm, huser, hmtenant⟩ := h row (hrows hrow)
  obtain ⟨m', hm', huser', htenant'⟩ := hmembers m hm
  exact ⟨⟨team, hteams row hrow team hteam hid, hid, htenant⟩,
    m', hm', huser'.trans huser, htenant'.trans hmtenant⟩

theorem sound_apply {d d' : Directory} {change : Change} (hharmless : Harmless change)
    (happly : d.apply change = .ok d') (h : Sound d) :
    Sound d' ∧ d'.teamMembers ⊆ d.teamMembers := by
  have hmembers : ∀ m ∈ d.memberships, ∃ m' ∈ d'.memberships,
      m'.userId = m.userId ∧ m'.tenantId = m.tenantId := by
    intro m hm
    rcases Directory.memberships_apply happly with heq | ⟨x, -, -, heq⟩ | ⟨id, role, -, heq⟩ |
      ⟨id, rfl, -⟩
    · exact ⟨m, heq ▸ hm, rfl, rfl⟩
    · exact ⟨m, heq ▸ List.mem_append_left _ hm, rfl, rfl⟩
    · refine ⟨_, heq ▸ List.mem_map_of_mem hm, ?_⟩
      split <;> exact ⟨rfl, rfl⟩
    · cases hharmless
  have hrows : d'.teamMembers ⊆ d.teamMembers ∧
      ∀ row ∈ d'.teamMembers, ∀ team ∈ d.teams, team.id = row.teamId → team ∈ d'.teams := by
    cases change with
    | addTeamMember row => cases hharmless
    | deleteTeam teamId =>
        cases happly
        refine ⟨fun _ hx => List.mem_of_mem_filter hx, ?_⟩
        intro row hrow team hteam hid
        have hkept := (List.mem_filter.mp hrow).2
        exact List.mem_filter.mpr ⟨hteam, by rw [hid]; exact hkept⟩
    | deleteTeamMember rowId =>
        cases happly
        exact ⟨fun _ hx => List.mem_of_mem_filter hx, fun _ _ _ hteam _ => hteam⟩
    | addTeam team =>
        simp only [Directory.apply] at happly
        repeat' split at happly
        all_goals cases happly
        exact ⟨fun _ hx => hx, fun _ _ _ hteam _ => List.mem_append_left _ hteam⟩
    | _ =>
        simp only [Directory.apply] at happly
        repeat' split at happly
        all_goals cases happly
        all_goals exact ⟨fun _ hx => hx, fun _ _ _ hteam _ => hteam⟩
  exact ⟨⟨Directory.nodup_apply happly h.keys, h.teams.mono hrows.1 hrows.2 hmembers⟩, hrows.1⟩

theorem sound_commit {db : Database} {changes : List Change}
    (hharmless : ∀ change ∈ changes, Harmless change) (h : Sound db.directory) :
    Sound (db.commit changes).1.directory ∧
      (db.commit changes).1.directory.teamMembers ⊆ db.directory.teamMembers := by
  have hall : ∀ d d' : Directory, Sound d → d.applyAll changes = .ok d' →
      Sound d' ∧ d'.teamMembers ⊆ d.teamMembers := by
    induction changes with
    | nil =>
        intro d d' hd happly
        cases happly
        exact ⟨hd, fun _ hx => hx⟩
    | cons change rest ih =>
        intro d d' hd happly
        simp only [Directory.applyAll] at happly
        split at happly
        · rename_i d₁ hfirst
          obtain ⟨hd₁, hsub₁⟩ := sound_apply (hharmless change List.mem_cons_self) hfirst hd
          obtain ⟨hd', hsub⟩ :=
            ih (fun c hc => hharmless c (List.mem_cons_of_mem _ hc)) d₁ d' hd₁ happly
          exact ⟨hd', fun _ hx => hsub₁ (hsub hx)⟩
        · cases happly
  unfold Database.commit
  split
  · rename_i d' happly
    exact hall _ _ h happly
  · exact ⟨h, fun _ hx => hx⟩

def HarmlessRequest : Request → Prop
  | .deleteMembership _ => False
  | .addTeamMember .. => False
  | _ => True

/-- The state of a request that has only made harmless requests since `d`. -/
structure Undisturbed (d : Directory) (db : Database) (l : Session) : Prop where
  sound : Sound db.directory
  rows : db.directory.teamMembers ⊆ d.teamMembers
  control : ∀ change ∈ l.control, Harmless change
  tenant : ∀ change ∈ l.tenant, Harmless change

theorem harmless_append {changes : List Change} {change : Change}
    (h : ∀ c ∈ changes, Harmless c) (hchange : Harmless change) :
    ∀ c ∈ changes ++ [change], Harmless c := by
  intro c hc
  rcases List.mem_append.mp hc with hc | hc
  · exact h c hc
  · exact List.mem_singleton.mp hc ▸ hchange

theorem undisturbed_serve {d : Directory} {db : Database} {l : Session} {r : Request}
    (c : Choice) (h : Undisturbed d db l) (hr : HarmlessRequest r) :
    Undisturbed d (serve db l r c).1 (serve db l r c).2.1 := by
  obtain ⟨hsound, hrows, hcontrol, htenant⟩ := h
  cases r with
  | deleteMembership id => cases hr
  | addTeamMember teamId userId => cases hr
  | commitControl =>
      obtain ⟨hsound', hsub⟩ := sound_commit hcontrol hsound
      exact ⟨hsound', fun _ hx => hrows (hsub hx), by simp [serve], htenant⟩
  | commitTenant =>
      obtain ⟨hsound', hsub⟩ := sound_commit htenant hsound
      exact ⟨hsound', fun _ hx => hrows (hsub hx), hcontrol, by simp [serve]⟩
  | selectMembership tenantId userId =>
      simp only [serve, Session.resolve]
      split
      · split <;> exact ⟨hsound, hrows, hcontrol, htenant⟩
      · exact ⟨hsound, hrows, hcontrol, htenant⟩
  | setRole membership role =>
      simp only [serve]
      split
      · exact ⟨hsound, hrows, hcontrol, htenant⟩
      · exact ⟨hsound, hrows, harmless_append hcontrol trivial, htenant⟩
  | addUser | setDisplayName | setPassword | addMembership | addInvitation | setAccepted
  | deleteInvitation =>
      exact ⟨hsound, hrows, harmless_append hcontrol trivial, htenant⟩
  | addTeam | deleteTeam | deleteTeamMember | addTenant | addAuditEvent =>
      exact ⟨hsound, hrows, hcontrol, harmless_append htenant trivial⟩
  | _ => exact ⟨hsound, hrows, hcontrol, htenant⟩

/-- The procedure only makes harmless requests, whatever the answers. -/
abbrev Quiet {α : Type} (p : DirectoryProc α) : Prop := Makes HarmlessRequest p

theorem harmless_of_internal (r : Request) (h : Internal r) : HarmlessRequest r := by
  cases r with
  | deleteMembership id => exact h
  | addTeamMember teamId userId => exact h
  | _ => trivial

theorem quiet_asHttp {α : Type} {p : DirectoryProc α} (hp : Makes Internal p) (status : Nat)
    (caught : Failure → Option String) : Quiet (asHttp status caught p) :=
  makes_asHttp (hp.mono harmless_of_internal) status caught

theorem quiet_committed (out : Except DatabaseError Unit) : Quiet (committed out) := by
  cases out <;> trivial

theorem quiet_commitControl : Quiet commitControl := makes_ask_bind trivial quiet_committed

theorem quiet_commitTenant : Quiet commitTenant := makes_ask_bind trivial quiet_committed

theorem quiet_requirePermission (tenantId : Nat) (actor : User) (permission : CorePermission) :
    Quiet (requirePermission tenantId actor permission) := by
  refine makes_ask_bind trivial ?_
  rintro (_ | membership)
  · trivial
  · refine makes_ask_bind trivial fun _ => ?_
    split <;> trivial

theorem quiet_audited {action resourceType : String} {resourceId : Nat}
    {payload : List (String × Option String)} {actor : User} {next : DirectoryProc Reply}
    (hnext : Quiet next) :
    Quiet (do
      recordAuditEvent action resourceType resourceId payload actor
      commitTenant
      next) :=
  makes_ask_bind trivial fun _ => quiet_commitTenant.bind fun _ => hnext

theorem quiet_commit_reply (reply : Reply) :
    Quiet (do commitControl; return reply) := quiet_commitControl.bind fun _ => trivial

theorem quiet_invitationCreate (settings : Settings) (tenantId : Nat) (actor : User)
    (email role : String) : Quiet (invitationCreate settings tenantId actor email role) := by
  refine (quiet_requirePermission tenantId actor _).bind fun actorRole => ?_
  refine (quiet_asHttp (internal_createInvitation settings tenantId email role (some actorRole)
    (some actor.id)) 400 valueOrDirectoryErrors).bind ?_
  rintro ⟨invitation, token⟩
  exact quiet_audited (quiet_commit_reply _)

theorem quiet_invitationRevoke (tenantId : Nat) (actor : User) (invitationId : Nat) :
    Quiet (invitationRevoke tenantId actor invitationId) := by
  refine (quiet_requirePermission tenantId actor _).bind fun _ => ?_
  refine (quiet_asHttp (internal_revokeInvitation tenantId invitationId) 404 directoryErrors).bind ?_
  exact fun invitation => quiet_audited (quiet_commit_reply _)

theorem quiet_invitationsAccept (settings : Settings) (token : String)
    (password displayName : Option String) :
    Quiet (invitationsAccept settings token password displayName) := by
  refine (quiet_asHttp (internal_acceptInvitation settings token password displayName) 400
    directoryErrors).bind ?_
  rintro ⟨user, invitation⟩
  refine quiet_commitControl.bind fun _ => makes_ask_bind trivial ?_
  rintro (_ | tenant)
  · trivial
  · exact makes_ask_bind trivial fun _ => quiet_audited (by trivial)

theorem quiet_memberChangeRole (tenantId : Nat) (actor : User) (userId : Nat) (role : String) :
    Quiet (memberChangeRole tenantId actor userId role) := by
  refine (quiet_requirePermission tenantId actor _).bind fun actorRole => ?_
  refine makes_ask_bind trivial fun previous => ?_
  refine (quiet_asHttp (internal_changeMemberRole tenantId userId role actorRole) 400
    valueOrDirectoryErrors).bind fun membership => ?_
  refine ((internal_getOneUser userId).mono harmless_of_internal).bind fun user => ?_
  exact quiet_audited (quiet_commit_reply _)

theorem quiet_teamCreate (tenantId : Nat) (actor : User) (name : String)
    (description : Option String) : Quiet (teamCreate tenantId actor name description) := by
  refine (quiet_requirePermission tenantId actor _).bind fun _ => ?_
  refine makes_ask_bind trivial fun existing => ?_
  split
  · trivial
  · exact makes_ask_bind trivial fun team => quiet_audited (by trivial)

theorem quiet_teamDelete (tenantId : Nat) (actor : User) (teamId : Nat) :
    Quiet (teamDelete tenantId actor teamId) := by
  refine (quiet_requirePermission tenantId actor _).bind fun _ => makes_ask_bind trivial ?_
  rintro (_ | team)
  · trivial
  · refine makes_ask_bind trivial fun _ => makes_ask_bind trivial fun _ => ?_
    exact quiet_commitTenant.bind fun _ => trivial

theorem quiet_teamMemberRemove (tenantId : Nat) (actor : User) (teamId userId : Nat) :
    Quiet (teamMemberRemove tenantId actor teamId userId) := by
  refine (quiet_requirePermission tenantId actor _).bind fun _ => makes_ask_bind trivial ?_
  rintro (_ | teamMember)
  · trivial
  · refine makes_ask_bind trivial fun team => makes_ask_bind trivial fun _ => ?_
    exact makes_ask_bind trivial fun _ => quiet_commitTenant.bind fun _ => trivial

theorem sound_of_quiet {p : DirectoryProc Reply} (hp : Quiet p) {d : Directory} (h : Sound d)
    (choices : Nat → Choice) :
    Sound (eval serve p ⟨d, []⟩ {} choices).1.directory ∧
      (eval serve p ⟨d, []⟩ {} choices).1.directory.teamMembers ⊆ d.teamMembers := by
  have hinit : Undisturbed d ⟨d, []⟩ {} := ⟨h, fun _ hx => hx, by simp, by simp⟩
  have hend : Undisturbed d (eval serve p ⟨d, []⟩ {} choices).1
      (eval serve p ⟨d, []⟩ {} choices).2.1 :=
    eval_invariant (fun _ _ _ c h hr => undisturbed_serve c h hr)
      (hp.follows serve {}) hinit
  exact ⟨hend.sound, hend.rows⟩

/-- A request that has only read so far. -/
structure Reading (db : Database) (l : Session) : Prop where
  reads : ∀ x ∈ l.identityMap, x.membership ∈ db.directory.memberships
  control : l.control = []
  tenant : l.tenant = []

theorem ensures_selectMembership {db : Database} {l : Session}
    (hkeys : (db.directory.memberships.map (·.id)).Nodup) (hl : Reading db l)
    (tenantId userId : Nat) :
    Ensures serve
      (fun db' l' out => db' = db ∧ Reading db l' ∧ l'.tenantId = l.tenantId ∧
        out = .ok (db.directory.getMembership tenantId userId))
      db l (ask (.selectMembership tenantId userId)) := by
  intro c
  simp only [serve]
  cases hrow : db.directory.getMembership tenantId userId with
  | none => exact ⟨rfl, hl, rfl, rfl⟩
  | some row =>
      have hmem : row ∈ db.directory.memberships := List.mem_of_find?_eq_some hrow
      simp only [Session.resolve]
      split
      · rename_i loaded hfind
        have hid : loaded.membership.id = row.id := by simpa using List.find?_some hfind
        have heq : loaded.membership = row := List.inj_on_of_nodup_map hkeys
          (hl.reads loaded (List.mem_of_find?_eq_some hfind)) hmem hid
        exact ⟨rfl, hl, rfl, by simp [heq]⟩
      · refine ⟨rfl, ⟨?_, hl.control, hl.tenant⟩, rfl, rfl⟩
        intro x hx
        rcases List.mem_cons.mp hx with rfl | hx
        · exact hmem
        · exact hl.reads x hx

theorem ensures_requirePermission {db : Database} {l : Session}
    (hkeys : (db.directory.memberships.map (·.id)).Nodup) (hl : Reading db l)
    (tenantId : Nat) (actor : User) (permission : CorePermission) :
    Ensures serve
      (fun db' l' out => db' = db ∧ ∀ role, out = .ok role →
        Reading db l' ∧ l'.tenantId = tenantId ∧ roleHasPermission role permission = true ∧
          ∃ m, db.directory.getMembership tenantId actor.id = some m ∧ m.role = role)
      db l (requirePermission tenantId actor permission) := by
  refine ensures_bind (ensures_selectMembership hkeys hl tenantId actor.id) ?_ ?_
  · rintro db' l' (_ | membership) ⟨rfl, hl', -, hout⟩
    · exact ⟨rfl, by simp⟩
    · refine ensures_request_bind.mpr fun c => ?_
      split
      · rename_i hpermission
        refine ⟨rfl, ?_⟩
        rintro role hrole
        cases hrole
        exact ⟨⟨hl'.reads, hl'.control, hl'.tenant⟩, rfl, hpermission, membership,
          (Except.ok.inj hout).symm, rfl⟩
      · exact ⟨rfl, by simp⟩
  · rintro db' l' e ⟨-, -, -, hout⟩
    cases hout

theorem ensures_asHttp {α : Type} {db : Database} {l : Session} {p : DirectoryProc α}
    {Q : Session → α → Prop}
    (hp : Ensures serve (fun db' l' out => db' = db ∧ ∀ a, out = .ok a → Q l' a) db l p)
    (status : Nat) (caught : Failure → Option String) :
    Ensures serve (fun db' l' out => db' = db ∧ ∀ a, out = .ok a → Q l' a) db l
      (asHttp status caught p) := by
  refine ensures_bind (ensures_attempt (R := fun db' l' out =>
    db' = db ∧ ∀ a, out = .ok (.ok a) → Q l' a) hp ?_) ?_ (by simp)
  · rintro db' l' out ⟨rfl, hout⟩
    exact ⟨rfl, fun a ha => hout a (Except.ok.inj ha)⟩
  · rintro db' l' (e | a) ⟨rfl, hout⟩
    · dsimp only
      cases caught e <;> exact ⟨rfl, by simp⟩
    · refine ⟨rfl, ?_⟩
      rintro _ ⟨⟩
      exact hout a rfl

theorem ensures_emailOfTarget {db : Database} {l : Session} (target : Option Membership)
    (userId : Nat) :
    Ensures serve (fun db' l' _ => db' = db ∧ l' = l) db l (emailOfTarget target userId) := by
  cases target with
  | none => exact ⟨rfl, rfl⟩
  | some membership =>
      refine ensures_bind (Q := fun db' l' _ => db' = db ∧ l' = l) ?_ ?_ (by simp)
      · refine ensures_request_bind.mpr fun c => ?_
        simp only [serve]
        cases db.directory.users.find? fun u => u.id == userId <;> exact ⟨rfl, rfl⟩
      · exact fun db' l' user h => h

theorem ensures_removeMember {db : Database} {l : Session}
    (hkeys : (db.directory.memberships.map (·.id)).Nodup) (hl : Reading db l)
    (tenantId userId : Nat) (actorRole : Role) :
    Ensures serve
      (fun db' l' out => db' = db ∧ ∀ u : Unit, out = .ok u → l'.tenant = [] ∧
        ∃ m, db.directory.getMembership tenantId userId = some m ∧
          l'.control = [.deleteMembership m.id] ∧
          (m.role = .owner → actorRole = .owner ∧ 2 ≤ db.directory.countOwners tenantId))
      db l (removeMember tenantId userId actorRole) := by
  refine ensures_bind (ensures_selectMembership hkeys hl tenantId userId) ?_ ?_
  · rintro db' l' (_ | m) ⟨rfl, hl', -, hout⟩
    · exact ⟨rfl, by simp⟩
    have hm : db'.directory.getMembership tenantId userId = some m := (Except.ok.inj hout).symm
    have hcontrol : (l'.addControl (.deleteMembership m.id)).control =
        [.deleteMembership m.id] := by simp [Session.addControl, hl'.control]
    dsimp only
    split
    · split
      · exact ⟨rfl, by simp⟩
      · rename_i hactor
        refine ensures_request_bind.mpr fun c => ?_
        split
        · exact ⟨rfl, by simp⟩
        · rename_i htwo
          refine fun c => ⟨rfl, fun _ _ => ⟨hl'.tenant, m, hm, hcontrol, fun _ => ?_⟩⟩
          exact ⟨not_not.mp hactor, Nat.lt_of_not_le htwo⟩
    · rename_i hmember
      exact fun c => ⟨rfl, fun _ _ => ⟨hl'.tenant, m, hm, hcontrol, fun h => absurd h hmember⟩⟩
  · rintro db' l' e ⟨-, -, -, hout⟩
    cases hout

/-- What a removal does to the relations: nothing, or it was accepted and the
membership of the user is gone. -/
def AfterRemoval (d : Directory) (tenantId : Nat) (actor : User) (userId : Nat)
    (d' : Directory) : Prop :=
  d'.teams = d.teams ∧ d'.teamMembers = d.teamMembers ∧
    (d'.memberships = d.memberships ∨
      removalAccepted d tenantId actor userId = true ∧
        ∃ m, d.getMembership tenantId userId = some m ∧
          d'.memberships = d.memberships.filter fun x => x.id != m.id)

theorem AfterRemoval.refl (d : Directory) (tenantId : Nat) (actor : User) (userId : Nat) :
    AfterRemoval d tenantId actor userId d := ⟨rfl, rfl, .inl rfl⟩

theorem ensures_memberRemove (db : Database)
    (hkeys : (db.directory.memberships.map (·.id)).Nodup) (tenantId : Nat) (actor : User)
    (userId : Nat) :
    Ensures serve
      (fun db' _ _ => AfterRemoval db.directory tenantId actor userId db'.directory)
      db {} (memberRemove tenantId actor userId) := by
  have hrefl := AfterRemoval.refl db.directory tenantId actor userId
  have hfresh : Reading db {} := ⟨by simp, rfl, rfl⟩
  refine ensures_bind (ensures_requirePermission hkeys hfresh tenantId actor _) ?_ ?_
  swap
  · rintro db' l e ⟨rfl, -⟩
    exact hrefl
  rintro db' l actorRole ⟨rfl, hrole⟩
  obtain ⟨hl, -, hpermission, actorMembership, hactor, hactorRole⟩ := hrole actorRole rfl
  refine ensures_bind (ensures_selectMembership hkeys hl tenantId userId) ?_ ?_
  swap
  · rintro db l e ⟨rfl, -⟩
    exact hrefl
  rintro db l target ⟨rfl, hl, -, -⟩
  refine ensures_bind (ensures_emailOfTarget target userId) ?_ ?_
  swap
  · rintro db l e ⟨rfl, -⟩
    exact hrefl
  rintro db l targetEmail ⟨rfl, rfl⟩
  refine ensures_bind (ensures_asHttp (ensures_removeMember hkeys hl tenantId userId actorRole)
    400 directoryErrors) ?_ ?_
  swap
  · rintro db l e ⟨rfl, -⟩
    exact hrefl
  rintro db l _ ⟨rfl, hremoved⟩
  obtain ⟨htenant, m, hm, hcontrol, howner⟩ := hremoved () rfl
  have haccepted : removalAccepted db.directory tenantId actor userId = true := by
    simp only [removalAccepted, hactor, hm, hactorRole, hpermission, Bool.true_and]
    by_cases hmowner : m.role = .owner
    · simp [howner hmowner]
    · simp [hmowner]
  refine ensures_request_bind.mpr fun c => fun c => ?_
  simp only [serve, Session.addTenant, htenant]
  refine fun c => ?_
  simp only [serve, hcontrol]
  exact ⟨rfl, rfl, .inr ⟨haccepted, m, hm, rfl⟩⟩

theorem sound_of_afterRemoval {d d' : Directory} {tenantId : Nat} {actor : User} {userId : Nat}
    (h : Sound d) (hafter : AfterRemoval d tenantId actor userId d')
    (houtside : removalAccepted d tenantId actor userId → ¬ InTeam d tenantId userId) :
    Sound d' := by
  obtain ⟨hteams, hrows, hsame | ⟨haccepted, m, hm, hfilter⟩⟩ := hafter
  · refine ⟨hsame ▸ h.keys, ?_⟩
    simpa [TeamsOfMembers, hteams, hrows, hsame] using h.teams
  · have hmem : m ∈ d.memberships := List.mem_of_find?_eq_some hm
    have hfound := List.find?_some hm
    simp only [Bool.and_eq_true, beq_iff_eq] at hfound
    refine ⟨hfilter ▸ h.keys.sublist (List.filter_sublist.map _), ?_⟩
    intro row hrow
    rw [hrows] at hrow
    obtain ⟨hteam, x, hx, huser, htenant⟩ := h.teams row hrow
    refine ⟨hteams ▸ hteam, x, ?_, huser, htenant⟩
    -- The deleted row is that of the removed user, who is in no team.
    have hother : x.id ≠ m.id := by
      intro hid
      have heq : x = m := List.inj_on_of_nodup_map h.keys hx hmem hid
      subst heq
      exact houtside haccepted ⟨row, hrow, htenant.symm.trans hfound.2, huser.symm.trans hfound.1⟩
    rw [hfilter]
    exact List.mem_filter.mpr ⟨hx, by simp [hother]⟩

/-- What the addition of a team member does to the relations. -/
def AfterAddition (d : Directory) (tenantId userId : Nat) (d' : Directory) : Prop :=
  d'.teams = d.teams ∧ d'.memberships = d.memberships ∧
    (d'.teamMembers = d.teamMembers ∨
      ∃ row : TeamMember, d'.teamMembers = d.teamMembers ++ [row] ∧
        row.tenantId = tenantId ∧ row.userId = userId ∧
        (∃ team ∈ d.teams, team.id = row.teamId ∧ team.tenantId = tenantId) ∧
        ∃ m, d.getMembership tenantId userId = some m)

theorem AfterAddition.refl (d : Directory) (tenantId userId : Nat) :
    AfterAddition d tenantId userId d := ⟨rfl, rfl, .inl rfl⟩

theorem afterAddition_commit (db : Database) (uuid : Nat) (event : AuditEvent)
    {tenantId teamId userId : Nat} {team : Team} (hteam : team ∈ db.directory.teams)
    (hid : team.id = teamId) (htenant : team.tenantId = tenantId) {m : Membership}
    (hm : db.directory.getMembership tenantId userId = some m) :
    AfterAddition db.directory tenantId userId (db.commit
      [.addTeamMember ⟨uuid, tenantId, teamId, userId⟩, .addAuditEvent event]).1.directory := by
  simp only [Database.commit, Directory.applyAll]
  cases happly : db.directory.apply (.addTeamMember ⟨uuid, tenantId, teamId, userId⟩) with
  | error e => exact .refl ..
  | ok d' =>
      simp only [Directory.apply] at happly
      repeat' split at happly
      all_goals cases happly
      exact ⟨rfl, rfl, .inr ⟨_, rfl, rfl, rfl, ⟨team, hteam, hid, htenant⟩, m, hm⟩⟩

theorem ensures_teamMemberAdd (db : Database)
    (hkeys : (db.directory.memberships.map (·.id)).Nodup) (tenantId : Nat) (actor : User)
    (teamId userId : Nat) :
    Ensures serve
      (fun db' _ _ => AfterAddition db.directory tenantId userId db'.directory)
      db {} (teamMemberAdd tenantId actor teamId userId) := by
  have hrefl := AfterAddition.refl db.directory tenantId userId
  have hfresh : Reading db {} := ⟨by simp, rfl, rfl⟩
  refine ensures_bind (ensures_requirePermission hkeys hfresh tenantId actor _) ?_ ?_
  swap
  · rintro db' l e ⟨rfl, -⟩
    exact hrefl
  rintro db l actorRole ⟨rfl, hrole⟩
  obtain ⟨hl, hcontext, -⟩ := hrole actorRole rfl
  refine ensures_request_bind.mpr fun c => ?_
  simp only [serve]
  cases hteam : db.directory.teams.find? fun t => t.id == teamId && t.tenantId == l.tenantId with
  | none => exact hrefl
  | some team =>
      have hfound := List.find?_some hteam
      simp only [Bool.and_eq_true, beq_iff_eq] at hfound
      have hl' : Reading db { l with teams := [team] ++ l.teams } :=
        ⟨hl.reads, hl.control, hl.tenant⟩
      refine ensures_bind (ensures_selectMembership hkeys hl' tenantId userId) ?_ ?_
      swap
      · rintro db' l e ⟨rfl, -⟩
        exact hrefl
      rintro db l' (_ | m) ⟨rfl, hl', hcontext', hout⟩
      · exact hrefl
      have hm : db.directory.getMembership tenantId userId = some m := (Except.ok.inj hout).symm
      refine ensures_request_bind.mpr fun c => ?_
      split
      · exact hrefl
      · refine ensures_request_bind.mpr fun c => ensures_request_bind.mpr fun c' => ?_
        refine ensures_bind (Q := fun db' _ _ =>
          AfterAddition db.directory tenantId userId db'.directory) ?_ ?_ ?_
        · refine ensures_request_bind.mpr fun c'' => ?_
          simp only [serve, Session.addTenant, hl'.tenant, hcontext', hcontext, List.nil_append,
            List.singleton_append]
          have hafter := fun event => afterAddition_commit db c.uuid event
            (List.mem_of_find?_eq_some hteam) hfound.1 (hfound.2.trans hcontext) hm
          cases (Database.commit _ _).2 <;> exact hafter _
        · exact fun db' l' _ h => h
        · exact fun db' l' e h => h

theorem sound_of_afterAddition {d d' : Directory} {tenantId userId : Nat} (h : Sound d)
    (hafter : AfterAddition d tenantId userId d') :
    Sound d' ∧ ∀ row ∈ d'.teamMembers,
      row ∈ d.teamMembers ∨ row.tenantId = tenantId ∧ row.userId = userId := by
  obtain ⟨hteams, hmemberships, hrows | ⟨new, hrows, htenant, huser, hteam, m, hm⟩⟩ := hafter
  · refine ⟨⟨hmemberships ▸ h.keys, ?_⟩, fun row hrow => .inl (hrows ▸ hrow)⟩
    simpa [TeamsOfMembers, hteams, hmemberships, hrows] using h.teams
  · have hfound := List.find?_some hm
    simp only [Bool.and_eq_true, beq_iff_eq] at hfound
    have hmember : ∃ x ∈ d.memberships, x.userId = new.userId ∧ x.tenantId = new.tenantId :=
      ⟨m, List.mem_of_find?_eq_some hm, hfound.1.trans huser.symm, hfound.2.trans htenant.symm⟩
    have hcases : ∀ row ∈ d'.teamMembers, row ∈ d.teamMembers ∨ row = new := by
      intro row hrow
      rw [hrows] at hrow
      exact (List.mem_append.mp hrow).imp_right List.mem_singleton.mp
    refine ⟨⟨hmemberships ▸ h.keys, ?_⟩, ?_⟩
    · intro row hrow
      rw [hteams, hmemberships]
      rcases hcases row hrow with hold | rfl
      · exact h.teams row hold
      · exact ⟨htenant ▸ hteam, hmember⟩
    · intro row hrow
      rcases hcases row hrow with hold | rfl
      · exact .inl hold
      · exact .inr ⟨htenant, huser⟩

/-- The request asks to put the user in a team of the tenant. -/
def DirectoryRequest.addsToTeam (tenantId userId : Nat) : DirectoryRequest → Bool
  | .addTeamMember tenantId' _ _ userId' => tenantId' == tenantId && userId' == userId
  | _ => false

theorem sound_handle {settings : Settings} {d d' : Directory}
    {event : DirectoryRequest × (Nat → Choice)} (h : Sound d)
    (houtside : removesOutsideTeams d event) (hstep : handle settings d event = some d') :
    Sound d' ∧ ∀ row ∈ d'.teamMembers,
      row ∈ d.teamMembers ∨ event.1.addsToTeam row.tenantId row.userId = true := by
  have hquiet {p : DirectoryProc Reply} (hp : Quiet p)
      (heq : (eval serve p ⟨d, []⟩ {} event.2).1.directory = d') :
      Sound d' ∧ ∀ row ∈ d'.teamMembers,
        row ∈ d.teamMembers ∨ event.1.addsToTeam row.tenantId row.userId = true := by
    obtain ⟨hsound, hsub⟩ := sound_of_quiet hp h event.2
    exact heq ▸ ⟨hsound, fun row hrow => .inl (hsub hrow)⟩
  obtain ⟨request, choices⟩ := event
  cases request with
  | invite => exact hquiet (quiet_invitationCreate ..) (Option.some.inj hstep)
  | revokeInvitation => exact hquiet (quiet_invitationRevoke ..) (Option.some.inj hstep)
  | accept => exact hquiet (quiet_invitationsAccept ..) (Option.some.inj hstep)
  | changeRole => exact hquiet (quiet_memberChangeRole ..) (Option.some.inj hstep)
  | createTeam => exact hquiet (quiet_teamCreate ..) (Option.some.inj hstep)
  | deleteTeam => exact hquiet (quiet_teamDelete ..) (Option.some.inj hstep)
  | removeTeamMember => exact hquiet (quiet_teamMemberRemove ..) (Option.some.inj hstep)
  | remove tenantId actor userId =>
      obtain rfl : (eval serve (memberRemove tenantId actor userId) ⟨d, []⟩ {} choices).1.directory
        = d' := Option.some.inj hstep
      have hafter := eval_of_ensures
        (ensures_memberRemove ⟨d, []⟩ h.keys tenantId actor userId) choices
      refine ⟨sound_of_afterRemoval h hafter houtside, fun row hrow => .inl ?_⟩
      exact hafter.2.1 ▸ hrow
  | addTeamMember tenantId actor teamId userId =>
      obtain rfl : (eval serve (teamMemberAdd tenantId actor teamId userId) ⟨d, []⟩ {}
        choices).1.directory = d' := Option.some.inj hstep
      have hafter := eval_of_ensures
        (ensures_teamMemberAdd ⟨d, []⟩ h.keys tenantId actor teamId userId) choices
      obtain ⟨hsound, hrows⟩ := sound_of_afterAddition h hafter
      refine ⟨hsound, fun row hrow => (hrows row hrow).imp_right ?_⟩
      rintro ⟨htenant, huser⟩
      simp [DirectoryRequest.addsToTeam, htenant, huser]

theorem sound_run {settings : Settings} {d d' : Directory}
    {events : List (DirectoryRequest × (Nat → Choice))} (h : Sound d)
    (houtside : Along (handle settings) removesOutsideTeams d events)
    (hrun : run (handle settings) d events = some d') : Sound d' :=
  run_invariant (fun _ _ _ hd hout hstep => (sound_handle hd hout hstep).1) h houtside hrun

theorem not_inTeam_run {settings : Settings} {d d' : Directory} {tenantId userId : Nat}
    {events : List (DirectoryRequest × (Nat → Choice))} (h : Sound d)
    (hout : ¬ InTeam d tenantId userId)
    (houtside : Along (handle settings) removesOutsideTeams d events)
    (hadds : ∀ event ∈ events, event.1.addsToTeam tenantId userId = false)
    (hrun : run (handle settings) d events = some d') : ¬ InTeam d' tenantId userId := by
  induction events generalizing d with
  | nil =>
      have : d = d' := by simpa [run] using hrun
      exact this ▸ hout
  | cons event rest ih =>
      obtain ⟨d₁, hstep, hrest⟩ := run_cons_eq_some.mp hrun
      obtain ⟨hfirst, halong⟩ := (along_cons_of_step hstep).mp houtside
      obtain ⟨hsound, hrows⟩ := sound_handle h hfirst hstep
      refine ih hsound ?_ halong (fun e he => hadds e (List.mem_cons_of_mem _ he)) hrest
      rintro ⟨row, hrow, rfl, rfl⟩
      rcases hrows row hrow with hold | hadd
      · exact hout ⟨row, hold, rfl, rfl⟩
      · rw [hadds event List.mem_cons_self] at hadd
        cases hadd

/-- As long as no member is removed while in a team, team members are members
of their tenant; and who is not a member is in no team, even after a new
acceptance, until a request adds them. -/
theorem team_members_are_members (settings : Settings) (d d' : Directory)
    (before after : List (DirectoryRequest × (Nat → Choice)))
    (hkeys : (d.memberships.map (·.id)).Nodup) (hteams : TeamsOfMembers d)
    (houtside : Along (handle settings) removesOutsideTeams d (before ++ after))
    (hrun : run (handle settings) d (before ++ after) = some d') :
    TeamsOfMembers d' ∧
      ∀ tenantId userId,
        (∀ between, run (handle settings) d before = some between →
          between.getMembership tenantId userId = none) →
        (∀ event ∈ after, event.1.addsToTeam tenantId userId = false) →
        ¬ InTeam d' tenantId userId := by
  have hsound : Sound d := ⟨hkeys, hteams⟩
  refine ⟨(sound_run hsound houtside hrun).teams, ?_⟩
  intro tenantId userId hgone hadds
  obtain ⟨between, hbefore, hafter⟩ := run_append_eq_some.mp hrun
  obtain ⟨halong, halong'⟩ := (along_append hbefore).mp houtside
  have hbetween := sound_run hsound halong hbefore
  refine not_inTeam_run hbetween ?_ halong' hadds hafter
  rintro ⟨row, hrow, rfl, rfl⟩
  obtain ⟨-, m, hm, huser, htenant⟩ := hbetween.teams row hrow
  have hnone := List.find?_eq_none.mp (hgone between hbefore) m hm
  simp [huser, htenant] at hnone

instance (d : Directory) : Decidable (TeamsOfMembers d) :=
  inferInstanceAs (Decidable (∀ row ∈ d.teamMembers, _))

def alice : User := ⟨1, "alice@exemple.fr", none⟩

def bob : User := ⟨2, "bob@exemple.fr", none⟩

/-- Alice owns the tenant; Bob is a member, and in its one team when `teamed`. -/
def acme (teamed : Bool) : Directory where
  tenants := [⟨1, "acme", "Acme", .active, none⟩]
  users := [alice, bob]
  credentials := []
  memberships := [⟨1, alice.id, 1, .owner⟩, ⟨2, bob.id, 1, .member⟩]
  invitations := []
  teams := [⟨10, 1, "Support", none⟩]
  teamMembers := if teamed then [⟨20, 1, 10, bob.id⟩] else []
  auditEvents := []

def settings : Settings := ⟨id, 72, "https://app.exemple.fr"⟩

def calm : Nat → Choice := fun _ => { now := 0 }

/-- Bob is removed from the tenant; his team still lists him. -/
theorem removed_member_is_left_in_team :
    TeamsOfMembers (acme true) ∧
      ((acme true).memberships.map (·.id)).Nodup ∧
      (run (handle settings) (acme true) [(.remove 1 alice bob.id, calm)]).map
        (fun d => (decide (TeamsOfMembers d), decide (InTeam d 1 bob.id),
          d.getMembership 1 bob.id)) = some (false, true, none) := by
  decide +kernel

/-- Bob joins a team, leaves it, and is removed. -/
theorem team_members_are_members_after_removal :
    ∃ d', run (handle settings) (acme false)
        ([(.addTeamMember 1 alice 10 bob.id, calm), (.removeTeamMember 1 alice 10 bob.id, calm),
          (.remove 1 alice bob.id, calm)] ++ [(.createTeam 1 alice "Ventes" none, calm)]) =
        some d' ∧ TeamsOfMembers d' ∧ ¬ InTeam d' 1 bob.id := by
  refine ⟨_, rfl, ?_⟩
  have hends := team_members_are_members settings (acme false) _
    [(.addTeamMember 1 alice 10 bob.id, calm), (.removeTeamMember 1 alice 10 bob.id, calm),
      (.remove 1 alice bob.id, calm)] [(.createTeam 1 alice "Ventes" none, calm)]
    (by decide) (by decide) (by decide +kernel) rfl
  refine ⟨hends.1, hends.2 1 bob.id ?_ (by simp [DirectoryRequest.addsToTeam])⟩
  intro between hbetween
  have hgone : (run (handle settings) (acme false)
      [(.addTeamMember 1 alice 10 bob.id, calm), (.removeTeamMember 1 alice 10 bob.id, calm),
        (.remove 1 alice bob.id, calm)]).bind (fun d => d.getMembership 1 bob.id) = none := by
    decide +kernel
  simpa [hbetween] using hgone

end Socle.TeamMembership
