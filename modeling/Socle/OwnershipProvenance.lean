import Mathlib.Data.List.Induction
import Socle.TeamMembership

/-!
Where ownership comes from: what each request on members and invitations may
do to the two tables, and the provenance of every owner over a whole sequence
of requests, through the invitations that were pending in between.
-/

namespace Socle.OwnershipProvenance

open Socle.KeyedTable (nodup_map_snoc)
open Socle.Procedures
open Socle.DirectoryStore
open Socle.DirectoryService
open Socle.TeamMembership

/-- The operations on invitations and members, and the invitation of the
command line. -/
inductive Operation where
  | invite (tenantId : Nat) (actor : User) (email role : String)
  | revokeInvitation (tenantId : Nat) (actor : User) (invitationId : Nat)
  | accept (token : String) (password displayName : Option String)
  | changeRole (tenantId : Nat) (actor : User) (userId : Nat) (role : String)
  | remove (tenantId : Nat) (actor : User) (userId : Nat)
  | cliInvite (slug email role : String)

/-- The tables after an operation, executed alone with the choices of its
environment. -/
def handle (settings : Settings) (d : Directory) : Operation × (Nat → Choice) → Directory
  | (.invite tenantId actor email role, c) =>
      (eval serve (invitationCreate settings tenantId actor email role) ⟨d, []⟩ {} c).1.directory
  | (.revokeInvitation tenantId actor invitationId, c) =>
      (eval serve (invitationRevoke tenantId actor invitationId) ⟨d, []⟩ {} c).1.directory
  | (.accept token password displayName, c) =>
      (eval serve (invitationsAccept settings token password displayName)
        ⟨d, []⟩ {} c).1.directory
  | (.changeRole tenantId actor userId role, c) =>
      (eval serve (memberChangeRole tenantId actor userId role) ⟨d, []⟩ {} c).1.directory
  | (.remove tenantId actor userId, c) =>
      (eval serve (memberRemove tenantId actor userId) ⟨d, []⟩ {} c).1.directory
  | (.cliInvite slug email role, c) =>
      (eval serve (DirectoryService.invite settings slug email role) ⟨d, []⟩ {} c).1.directory

/-- The tables after a sequence of operations, one at a time. -/
def after (settings : Settings) (d : Directory) (events : List (Operation × (Nat → Choice))) :
    Directory :=
  events.foldl (handle settings) d

theorem after_concat (settings : Settings) (d : Directory)
    (before : List (Operation × (Nat → Choice))) (event : Operation × (Nat → Choice)) :
    after settings d (before ++ [event]) = handle settings (after settings d before) event := by
  simp [after]

/-- The role a user has in a tenant at this moment. -/
def roleIn (d : Directory) (tenantId : Nat) (user : User) : Option Role :=
  (d.getMembership tenantId user.id).map fun m => m.role

/-- The actor of an operation, for those that have one. -/
def Operation.actor : Operation → Option User
  | .invite _ actor _ _ => some actor
  | .revokeInvitation _ actor _ => some actor
  | .changeRole _ actor _ _ => some actor
  | .remove _ actor _ => some actor
  | .accept _ _ _ => none
  | .cliInvite _ _ _ => none

/-- The operation has an actor, who owns this tenant. -/
def Operation.ByOwner (d : Directory) (tenantId : Nat) (op : Operation) : Prop :=
  ∃ actor, op.actor = some actor ∧ roleIn d tenantId actor = some .owner

/-- Who creates an invitation: the command line, or an actor with the role they
have at that moment in the tenant of the invitation. -/
inductive Author where
  | cli
  | actor (role : Role)
  deriving DecidableEq

/-- Those who may invite an owner. -/
def Author.MayGrant : Author → Prop
  | .cli => True
  | .actor role => role = .owner

/-- The author of an invitation into a tenant that an operation creates. -/
def Operation.author (d : Directory) (invitedTo : Nat) : Operation → Option Author
  | .invite _ actor _ _ => (roleIn d invitedTo actor).map .actor
  | .cliInvite _ _ _ => some .cli
  | _ => none

/-- The effects of an operation on the memberships and the invitations. -/
inductive Effect (settings : Settings) (d : Directory) : Operation → Directory → Prop where
  | unchanged {op : Operation} {d' : Directory} (hmembers : d'.memberships = d.memberships)
      (hinvitations : d'.invitations = d.invitations) : Effect settings d op d'
  | invited {op : Operation} {d' : Directory} (i : Invitation) (hfresh : i ∉ d.invitations)
      (hauthor : i.role = .owner → ∃ author, op.author d i.tenantId = some author ∧
        author.MayGrant)
      (hmembers : d'.memberships = d.memberships)
      (hinvitations : d'.invitations = d.invitations ++ [i]) : Effect settings d op d'
  | revoked {op : Operation} {d' : Directory} (hmembers : d'.memberships = d.memberships)
      (hinvitations : d'.invitations ⊆ d.invitations) : Effect settings d op d'
  | accepted {token : String} {password displayName : Option String} {d' : Directory}
      (i : Invitation) (m : Membership) (hi : i ∈ d.invitations) (hpending : i.acceptedAt = none)
      (htoken : i.tokenHash = settings.hashToken token) (hrole : m.role = i.role)
      (htenant : m.tenantId = i.tenantId) (hfresh : m.id ∉ d.memberships.map (·.id))
      (hmembers : d'.memberships = d.memberships ++ [m])
      (hinvitations : ∀ x ∈ d'.invitations, x.acceptedAt = none → x ∈ d.invitations) :
      Effect settings d (.accept token password displayName) d'
  | changed {tenantId : Nat} {actor : User} {userId : Nat} {role : String} {d' : Directory}
      (m : Membership) (newRole : Role) (hm : d.getMembership tenantId userId = some m)
      (hrole : validateRole role = .ok newRole)
      (howner : newRole = .owner ∨ m.role = .owner → roleIn d tenantId actor = some .owner)
      (hmembers : d'.memberships = d.memberships.map fun x =>
        if x.id = m.id then { x with role := newRole } else x)
      (hinvitations : d'.invitations = d.invitations) :
      Effect settings d (.changeRole tenantId actor userId role) d'
  | removed {tenantId : Nat} {actor : User} {userId : Nat} {d' : Directory}
      (m : Membership) (hm : d.getMembership tenantId userId = some m)
      (howner : m.role = .owner → roleIn d tenantId actor = some .owner)
      (hmembers : d'.memberships = d.memberships.filter fun x => x.id != m.id)
      (hinvitations : d'.invitations = d.invitations) :
      Effect settings d (.remove tenantId actor userId) d'

theorem Effect.refl (settings : Settings) (d : Directory) (op : Operation) :
    Effect settings d op d := .unchanged rfl rfl

theorem Effect.congr {settings : Settings} {d d₁ d₂ : Directory} {op : Operation}
    (heffect : Effect settings d op d₁) (hmembers : d₂.memberships = d₁.memberships)
    (hinvitations : d₂.invitations = d₁.invitations) : Effect settings d op d₂ := by
  cases heffect with
  | unchanged hm hi => exact .unchanged (hmembers.trans hm) (hinvitations.trans hi)
  | invited i hfresh hauthor hm hi =>
      exact .invited i hfresh hauthor (hmembers.trans hm) (hinvitations.trans hi)
  | revoked hm hi => exact .revoked (hmembers.trans hm) (hinvitations ▸ hi)
  | accepted i m hi hpending htoken hrole htenant hfresh hm hrows =>
      exact .accepted i m hi hpending htoken hrole htenant hfresh (hmembers.trans hm)
        (hinvitations ▸ hrows)
  | changed m newRole hfound hrole howner hm hi =>
      exact .changed m newRole hfound hrole howner (hmembers.trans hm) (hinvitations.trans hi)
  | removed m hfound howner hm hi =>
      exact .removed m hfound howner (hmembers.trans hm) (hinvitations.trans hi)

theorem tenantId_of_getMembership {d : Directory} {tenantId userId : Nat} {m : Membership}
    (h : d.getMembership tenantId userId = some m) : tenantId = m.tenantId := by
  have hkey := List.find?_some h
  simp only [Bool.and_eq_true, beq_iff_eq] at hkey
  exact hkey.2.symm

theorem roleIn_of_membership {d : Directory} {tenantId : Nat} {actor : User} {role : Role}
    (h : ∃ m, d.getMembership tenantId actor.id = some m ∧ m.role = role) :
    roleIn d tenantId actor = some role := by
  obtain ⟨m, hm, rfl⟩ := h
  simp [roleIn, hm]

theorem ensures_audited_commit {R : Directory → Prop} {db : Database} {l : Session}
    {action resourceType : String} {resourceId : Nat} {payload : List (String × Option String)}
    {actor : User} {reply : Reply} (htenant : l.tenant = [])
    (hnone : ∀ events, R { db.directory with auditEvents := events })
    (hcommit : ∀ events d',
      Directory.applyAll { db.directory with auditEvents := events } l.control = .ok d' → R d') :
    Ensures serve (fun db' _ _ => R db'.directory) db l
      (recordAuditEvent action resourceType resourceId payload actor >>= fun _ =>
        commitTenant >>= fun _ => commitControl >>= fun _ => pure reply) := by
  refine ensures_request_bind.mpr fun c => fun c => ?_
  simp only [serve, Session.addTenant, htenant, List.nil_append, Database.commit,
    Directory.applyAll, Directory.apply]
  refine fun c => ?_
  simp only [serve, Database.commit]
  split
  · rename_i d' hd'
    exact hcommit _ d' hd'
  · exact hnone _

/-- What `create_invitation` leaves pending when it returns. -/
structure Inviting (tenantId : Nat) (actorRole : Option Role) (l : Session)
    (i : Invitation) : Prop where
  tenantId : i.tenantId = tenantId
  control : l.control = [.addInvitation i]
  tenant : l.tenant = []
  role : i.role = .owner → actorRole = none ∨ actorRole = some .owner

theorem ensures_refuseMember {db : Database} {l : Session}
    (hkeys : (db.directory.memberships.map (·.id)).Nodup) (hl : Reading db l) (tenantId : Nat)
    (email : String) :
    Ensures serve (fun db' l' out => db' = db ∧ ∀ u : Unit, out = .ok u → Reading db l') db l
      (refuseMember tenantId email) := by
  refine ensures_request_bind.mpr fun c => ?_
  simp only [serve]
  cases db.directory.userByEmail email with
  | none => exact ⟨rfl, fun _ _ => hl⟩
  | some user =>
      refine ensures_bind (ensures_selectMembership hkeys hl tenantId user.id) ?_ (by simp)
      rintro db' l' found ⟨rfl, hl', -, -⟩
      split
      · exact ⟨rfl, by simp⟩
      · exact ⟨rfl, fun _ _ => hl'⟩

theorem ensures_createInvitation {db : Database} {l : Session}
    (hkeys : (db.directory.memberships.map (·.id)).Nodup) (hl : Reading db l)
    (settings : Settings) (tenantId : Nat) (email role : String) (actorRole : Option Role)
    (invitedByUserId : Option Nat) :
    Ensures serve
      (fun db' l' out => db' = db ∧ ∀ result : Invitation × String, out = .ok result →
        Inviting tenantId actorRole l' result.1)
      db l (createInvitation settings tenantId email role actorRole invitedByUserId) := by
  unfold createInvitation
  cases validateRole role with
  | error e => exact ⟨rfl, by simp⟩
  | ok role =>
      simp only [Proc.ofExcept, Proc.ret_bind]
      split
      · exact ⟨rfl, by simp⟩
      rename_i hrule
      refine ensures_bind (ensures_refuseMember hkeys hl tenantId email) ?_ ?_
      · rintro db' l' _ ⟨rfl, hl'⟩
        replace hl' := hl' () rfl
        refine ensures_request_bind.mpr fun clock => ?_
        refine ensures_bind (Q := fun db₁ l₁ _ => db₁ = db' ∧ l₁ = l') (fun _ => ⟨rfl, rfl⟩) ?_
          (by simp +contextual)
        rintro _ _ pending ⟨rfl, rfl⟩
        split
        · exact ⟨rfl, by simp⟩
        · refine fun c c c => ⟨rfl, ?_⟩
          rintro _ ⟨⟩
          refine ⟨rfl, by simp [serve, Session.addControl, hl'.control], hl'.tenant, ?_⟩
          intro howner
          cases actorRole with
          | none => exact .inl rfl
          | some actorRole =>
              refine .inr ?_
              by_contra hother
              exact hrule ⟨howner, rfl, hother⟩
      · rintro db' l' e ⟨rfl, -⟩
        exact ⟨rfl, by simp⟩

theorem effect_of_addInvitation {settings : Settings} {d d₁ d' : Directory} {op : Operation}
    {i : Invitation} (hcommit : d₁.applyAll [.addInvitation i] = .ok d')
    (hmembers : d₁.memberships = d.memberships) (hinvitations : d₁.invitations = d.invitations)
    (hauthor : i.role = .owner → ∃ author, op.author d i.tenantId = some author ∧
      author.MayGrant) :
    Effect settings d op d' := by
  simp only [Directory.applyAll, Directory.apply] at hcommit
  split at hcommit
  · rename_i d₂ happly
    cases hcommit
    split at happly
    · cases happly
    rename_i hfresh
    split at happly
    · cases happly
      refine .invited i ?_ hauthor hmembers (by rw [← hinvitations])
      intro hmem
      exact hfresh (List.any_eq_true.mpr ⟨i, hinvitations ▸ hmem, by simp⟩)
    · cases happly
  · cases hcommit

theorem ensures_invitationCreate (db : Database)
    (hkeys : (db.directory.memberships.map (·.id)).Nodup) (settings : Settings) (tenantId : Nat)
    (actor : User) (email role : String) :
    Ensures serve
      (fun db' _ _ => Effect settings db.directory (.invite tenantId actor email role)
        db'.directory)
      db {} (invitationCreate settings tenantId actor email role) := by
  have hfresh : Reading db {} := ⟨by simp, rfl, rfl⟩
  refine ensures_bind (ensures_requirePermission hkeys hfresh tenantId actor _) ?_ ?_
  swap
  · rintro db' l e ⟨rfl, -⟩
    exact .refl ..
  rintro db l actorRole ⟨rfl, hrole⟩
  obtain ⟨hl, -, -, hactor⟩ := hrole actorRole rfl
  refine ensures_bind (ensures_asHttp (ensures_createInvitation hkeys hl settings tenantId email
    role (some actorRole) (some actor.id)) 400 valueOrDirectoryErrors) ?_ ?_
  swap
  · rintro db' l e ⟨rfl, -⟩
    exact .refl ..
  rintro db l ⟨i, token⟩ ⟨rfl, hinviting⟩
  obtain ⟨hinto, hcontrol, htenant, hrule⟩ := hinviting (i, token) rfl
  refine ensures_audited_commit htenant (fun _ => .unchanged rfl rfl) ?_
  intro events d' hcommit
  rw [hcontrol] at hcommit
  refine effect_of_addInvitation hcommit rfl rfl ?_
  intro howner
  have hactorOwner : actorRole = .owner := by simpa using hrule howner
  refine ⟨.actor actorRole, ?_, hactorOwner⟩
  change (roleIn db.directory i.tenantId actor).map Author.actor = _
  have hinto' : i.tenantId = tenantId := hinto
  rw [hinto', roleIn_of_membership hactor, Option.map_some]

theorem ensures_cliInvite (db : Database)
    (hkeys : (db.directory.memberships.map (·.id)).Nodup) (settings : Settings)
    (slug email role : String) :
    Ensures serve
      (fun db' _ _ => Effect settings db.directory (.cliInvite slug email role) db'.directory)
      db {} (DirectoryService.invite settings slug email role) := by
  have hfresh : Reading db {} := ⟨by simp, rfl, rfl⟩
  refine ensures_request_bind.mpr fun c => ?_
  simp only [serve]
  cases db.directory.tenants.find? fun t => t.slug == slug with
  | none => exact .refl ..
  | some tenant =>
      refine ensures_bind (ensures_createInvitation hkeys hfresh settings tenant.id email role
        none none) ?_ ?_
      · rintro db l ⟨i, token⟩ ⟨rfl, hinviting⟩
        obtain ⟨-, hcontrol, -, -⟩ := hinviting (i, token) rfl
        refine fun c => ?_
        simp only [serve, hcontrol, Database.commit]
        split
        · rename_i d' hcommit
          exact effect_of_addInvitation hcommit rfl rfl fun _ => ⟨.cli, rfl, trivial⟩
        · exact .refl ..
      · rintro db' l e ⟨rfl, -⟩
        exact .refl ..

theorem ensures_revokeInvitation {db : Database} {l : Session} (hl : Reading db l)
    (tenantId invitationId : Nat) :
    Ensures serve
      (fun db' l' out => db' = db ∧ ∀ i : Invitation, out = .ok i →
        l'.control = [.deleteInvitation invitationId] ∧ l'.tenant = [])
      db l (revokeInvitation tenantId invitationId) := by
  refine ensures_request_bind.mpr fun c => ?_
  simp only [serve]
  cases db.directory.invitations.find? fun i => i.id == invitationId with
  | none => exact ⟨rfl, by simp⟩
  | some i =>
      dsimp only
      split
      · exact ⟨rfl, by simp⟩
      split
      · exact ⟨rfl, by simp⟩
      exact fun c => ⟨rfl, fun _ _ =>
        ⟨by simp [serve, Session.addControl, hl.control], hl.tenant⟩⟩

theorem ensures_invitationRevoke (db : Database)
    (hkeys : (db.directory.memberships.map (·.id)).Nodup) (settings : Settings) (tenantId : Nat)
    (actor : User) (invitationId : Nat) :
    Ensures serve
      (fun db' _ _ => Effect settings db.directory (.revokeInvitation tenantId actor invitationId)
        db'.directory)
      db {} (invitationRevoke tenantId actor invitationId) := by
  have hfresh : Reading db {} := ⟨by simp, rfl, rfl⟩
  refine ensures_bind (ensures_requirePermission hkeys hfresh tenantId actor _) ?_ ?_
  swap
  · rintro db' l e ⟨rfl, -⟩
    exact .refl ..
  rintro db l actorRole ⟨rfl, hrole⟩
  obtain ⟨hl, -, -, -⟩ := hrole actorRole rfl
  refine ensures_bind (ensures_asHttp (ensures_revokeInvitation hl tenantId invitationId) 404
    directoryErrors) ?_ ?_
  swap
  · rintro db' l e ⟨rfl, -⟩
    exact .refl ..
  rintro db l i ⟨rfl, hpending⟩
  obtain ⟨hcontrol, htenant⟩ := hpending i rfl
  refine ensures_audited_commit htenant (fun _ => .unchanged rfl rfl) ?_
  intro events d' hcommit
  rw [hcontrol] at hcommit
  cases hcommit
  exact .revoked rfl (List.filter_subset_self _)

/-- A change that concerns neither memberships nor invitations. -/
def Personal : Change → Prop
  | .addUser _ => True
  | .setDisplayName _ _ => True
  | .setPassword _ _ => True
  | _ => False

theorem rows_apply_personal {d d' : Directory} {change : Change} (hpersonal : Personal change)
    (happly : d.apply change = .ok d') :
    d'.memberships = d.memberships ∧ d'.invitations = d.invitations := by
  cases change with
  | addUser user =>
      simp only [Directory.apply] at happly
      split at happly
      · cases happly
      · cases happly
        exact ⟨rfl, rfl⟩
  | setDisplayName userId displayName =>
      simp only [Directory.apply] at happly
      split at happly
      · cases happly
        exact ⟨rfl, rfl⟩
      · cases happly
  | setPassword userId passwordHash =>
      simp only [Directory.apply] at happly
      split at happly
      · cases happly
        exact ⟨rfl, rfl⟩
      · cases happly
  | _ => exact hpersonal.elim

theorem applyAll_personal_append {d d' : Directory} {changes rest : List Change}
    (hpersonal : ∀ change ∈ changes, Personal change)
    (happly : d.applyAll (changes ++ rest) = .ok d') :
    ∃ d₁ : Directory, d₁.memberships = d.memberships ∧ d₁.invitations = d.invitations ∧
      d₁.applyAll rest = .ok d' := by
  induction changes generalizing d with
  | nil => exact ⟨d, rfl, rfl, happly⟩
  | cons change changes ih =>
      simp only [List.cons_append, Directory.applyAll] at happly
      split at happly
      · rename_i d₂ hfirst
        obtain ⟨hmembers, hinvitations⟩ :=
          rows_apply_personal (hpersonal change List.mem_cons_self) hfirst
        obtain ⟨d₁, hmembers₁, hinvitations₁, hrest⟩ :=
          ih (fun c hc => hpersonal c (List.mem_cons_of_mem _ hc)) happly
        exact ⟨d₁, hmembers₁.trans hmembers, hinvitations₁.trans hinvitations, hrest⟩
      · cases happly

theorem ensures_invitedUser {db : Database} {l : Session} (hcontrol : l.control = [])
    (htenant : l.tenant = []) (invitation : Invitation) (password displayName : Option String) :
    Ensures serve
      (fun db' l' _ => db' = db ∧ (∀ change ∈ l'.control, Personal change) ∧ l'.tenant = [])
      db l (invitedUser invitation password displayName) := by
  refine ensures_request_bind.mpr fun c => ?_
  simp only [serve]
  cases db.directory.userByEmail invitation.email with
  | none =>
      refine fun c => ?_
      dsimp only [serve]
      cases password with
      | none =>
          exact ⟨rfl, by simp [Session.addControl, hcontrol, Personal], htenant⟩
      | some password =>
          exact fun c => ⟨rfl, by simp [serve, Session.addControl, hcontrol, Personal], htenant⟩
  | some user =>
      refine ensures_bind (Q := fun db' l' _ => db' = db ∧
        (∀ change ∈ l'.control, Personal change) ∧ l'.tenant = []) ?_ ?_ (by simp +contextual)
      · unfold adoptDisplayName
        split
        · exact fun c => ⟨rfl, by simp [serve, Session.addControl, hcontrol, Personal], htenant⟩
        · exact ⟨rfl, by simp [hcontrol], htenant⟩
      · rintro db' l' user hl'
        split
        · exact hl'
        · exact hl'

/-- What `accept_invitation` leaves pending when it returns. -/
structure Accepting (settings : Settings) (d : Directory) (token : String) (l : Session)
    (i : Invitation) : Prop where
  found : i ∈ d.invitations
  hash : i.tokenHash = settings.hashToken token
  pending : i.acceptedAt = none
  tenant : l.tenant = []
  control : ∃ changes m acceptedAt, (∀ change ∈ changes, Personal change) ∧ m.role = i.role ∧
    m.tenantId = i.tenantId ∧
    l.control = changes ++ [.addMembership m, .setAccepted i.id acceptedAt]

theorem ensures_acceptInvitation (settings : Settings) (db : Database) (token : String)
    (password displayName : Option String) :
    Ensures serve
      (fun db' l' out => db' = db ∧ ∀ result : User × Invitation, out = .ok result →
        Accepting settings db.directory token l' result.2)
      db {} (acceptInvitation settings token password displayName) := by
  refine ensures_request_bind.mpr fun c => ?_
  simp only [serve]
  cases hfind : db.directory.invitations.find? fun i => i.tokenHash == settings.hashToken token with
  | none => exact ⟨rfl, by simp⟩
  | some i =>
      refine ensures_request_bind.mpr fun clock => ?_
      dsimp only
      split
      · exact ⟨rfl, by simp⟩
      rename_i hvalid
      refine ensures_bind (ensures_invitedUser rfl rfl i password displayName) ?_ ?_
      swap
      · rintro db' l' e ⟨rfl, -⟩
        exact ⟨rfl, by simp⟩
      rintro db l user ⟨rfl, hpersonal, htenant⟩
      refine ensures_bind (Q := fun db' l' _ => db' = db ∧ l'.control = l.control ∧
        l'.tenant = l.tenant) ?_ ?_ (by simp +contextual)
      · refine fun c => ?_
        simp only [serve]
        cases db.directory.getMembership i.tenantId user.id with
        | none => exact ⟨rfl, rfl, rfl⟩
        | some row =>
            simp only [Session.resolve]
            split
            · exact ⟨rfl, rfl, rfl⟩
            · exact ⟨rfl, rfl, rfl⟩
      · rintro db l' found ⟨rfl, hcontrol, htenant'⟩
        split
        · exact ⟨rfl, by simp⟩
        refine fun added accepted _ => ⟨rfl, ?_⟩
        rintro _ ⟨⟩
        refine ⟨List.mem_of_find?_eq_some hfind, by simpa using List.find?_some hfind, ?_,
          htenant'.trans htenant, l.control, ⟨added.uuid, user.id, i.tenantId, i.role⟩,
          accepted.now, hpersonal, rfl, rfl, ?_⟩
        · simpa using (not_or.mp hvalid).1
        · simp [serve, Session.addControl, hcontrol]

theorem rows_of_accepting {settings : Settings} {d d' : Directory} {token : String} {l : Session}
    {i : Invitation} (haccepting : Accepting settings d token l i)
    (hcommit : d.applyAll l.control = .ok d') :
    ∃ m : Membership, m.role = i.role ∧ m.tenantId = i.tenantId ∧
      m.id ∉ d.memberships.map (·.id) ∧ d'.memberships = d.memberships ++ [m] ∧
      ∀ x ∈ d'.invitations, x.acceptedAt = none → x ∈ d.invitations := by
  obtain ⟨-, -, -, -, changes, m, acceptedAt, hpersonal, hrole, htenant, hcontrol⟩ := haccepting
  rw [hcontrol] at hcommit
  obtain ⟨d₁, hmembers, hinvitations, hrest⟩ := applyAll_personal_append hpersonal hcommit
  simp only [Directory.applyAll] at hrest
  split at hrest
  swap
  · cases hrest
  rename_i d₂ hadd
  split at hrest
  swap
  · cases hrest
  rename_i d₃ hset
  cases hrest
  simp only [Directory.apply] at hadd hset
  split at hadd
  · cases hadd
  rename_i hfresh
  split at hadd
  swap
  · cases hadd
  cases hadd
  split at hset
  swap
  · cases hset
  cases hset
  refine ⟨m, hrole, htenant, ?_, by rw [← hmembers], ?_⟩
  · intro hmem
    obtain ⟨x, hx, hid⟩ := List.mem_map.mp hmem
    exact hfresh (List.any_eq_true.mpr ⟨x, hmembers ▸ hx, by simp [hid]⟩)
  · intro x hx hxpending
    obtain ⟨y, hy, rfl⟩ := List.mem_map.mp hx
    rw [hinvitations] at hy
    by_cases hid : y.id = i.id
    · simp [hid] at hxpending
    · simpa [hid] using hy

theorem effect_of_accepting {settings : Settings} {d d' : Directory} {token : String}
    {password displayName : Option String} {l : Session} {i : Invitation}
    (haccepting : Accepting settings d token l i) (hcommit : d.applyAll l.control = .ok d') :
    Effect settings d (.accept token password displayName) d' := by
  obtain ⟨m, hrole, htenant, hfresh, hmembers, hinvitations⟩ :=
    rows_of_accepting haccepting hcommit
  exact .accepted i m haccepting.found haccepting.pending haccepting.hash hrole htenant hfresh
    hmembers hinvitations

theorem ensures_invitationsAccept (settings : Settings) (db : Database) (token : String)
    (password displayName : Option String) :
    Ensures serve
      (fun db' _ _ => Effect settings db.directory (.accept token password displayName)
        db'.directory)
      db {} (invitationsAccept settings token password displayName) := by
  refine ensures_bind (ensures_asHttp (ensures_acceptInvitation settings db token password
    displayName) 400 directoryErrors) ?_ ?_
  swap
  · rintro db' l e ⟨rfl, -⟩
    exact .refl ..
  rintro db l ⟨user, i⟩ ⟨rfl, haccepting⟩
  replace haccepting := haccepting (user, i) rfl
  have hrows (d' : Directory) (heffect : Effect settings db.directory
      (.accept token password displayName) d') (events : List AuditEvent) :
      Effect settings db.directory (.accept token password displayName)
        { d' with auditEvents := events } := heffect.congr rfl rfl
  refine fun c => ?_
  simp only [serve, Database.commit]
  split
  · rename_i d' hcommit
    have heffect : Effect settings db.directory (.accept token password displayName) d' :=
      effect_of_accepting haccepting hcommit
    refine fun c => ?_
    simp only [serve]
    cases d'.tenants.find? fun t => t.id == i.tenantId with
    | none => exact heffect
    | some tenant =>
        refine fun c c c => ?_
        simp only [serve, Session.addTenant, haccepting.tenant, List.nil_append, Database.commit,
          Directory.applyAll, Directory.apply]
        exact hrows d' heffect _
  · exact .refl ..

/-- What `change_member_role` leaves pending when it returns. -/
structure Changing (d : Directory) (tenantId userId : Nat) (role : String) (actorRole : Role)
    (l : Session) : Prop where
  tenant : l.tenant = []
  control : ∃ m newRole, d.getMembership tenantId userId = some m ∧
    validateRole role = .ok newRole ∧
    (newRole = .owner ∨ m.role = .owner → actorRole = .owner) ∧
    (l.control = [] ∨ l.control = [.setRole m.id newRole])

theorem ensures_changeMemberRole {db : Database} {l : Session}
    (hkeys : (db.directory.memberships.map (·.id)).Nodup) (hl : Reading db l)
    (tenantId userId : Nat) (role : String) (actorRole : Role) :
    Ensures serve
      (fun db' l' out => db' = db ∧ ∀ m : Membership, out = .ok m →
        Changing db.directory tenantId userId role actorRole l')
      db l (changeMemberRole tenantId userId role actorRole) := by
  unfold changeMemberRole
  cases hrole : validateRole role with
  | error e => exact ⟨rfl, by simp⟩
  | ok newRole =>
      simp only [Proc.ofExcept, Proc.ret_bind]
      refine ensures_bind (ensures_selectMembership hkeys hl tenantId userId) ?_ (by simp)
      rintro db l (_ | m) ⟨rfl, hl, -, hout⟩
      · exact ⟨rfl, by simp⟩
      have hm : db.directory.getMembership tenantId userId = some m := (Except.ok.inj hout).symm
      dsimp only
      split
      · exact ⟨rfl, by simp⟩
      rename_i hrule
      have howner : newRole = .owner ∨ m.role = .owner → actorRole = .owner :=
        fun h => not_not.mp fun hother => hrule ⟨h, hother⟩
      -- The assignment, after the owners were counted or not.
      have hset (l' : Session) (hcontrol : l'.control = []) (htenant : l'.tenant = []) :
          Ensures serve
            (fun db' l' out => db' = db ∧ ∀ m : Membership, out = .ok m →
              Changing db.directory tenantId userId role actorRole l')
            db l' (ask (.setRole m newRole) >>= fun _ =>
              (pure { m with role := newRole } : DirectoryProc Membership)) := by
        refine fun c => ⟨rfl, fun _ _ => ?_⟩
        dsimp only [serve]
        split
        · exact ⟨htenant, m, newRole, hm, hrole, howner, .inl hcontrol⟩
        · exact ⟨htenant, m, newRole, hm, hrole, howner,
            .inr (by simp [Session.addControl, hcontrol])⟩
      split
      · refine ensures_request_bind.mpr fun c => ?_
        split
        · exact ⟨rfl, by simp⟩
        · exact hset _ hl.control hl.tenant
      · exact hset l hl.control hl.tenant

theorem ensures_memberChangeRole (db : Database)
    (hkeys : (db.directory.memberships.map (·.id)).Nodup) (settings : Settings) (tenantId : Nat)
    (actor : User) (userId : Nat) (role : String) :
    Ensures serve
      (fun db' _ _ => Effect settings db.directory (.changeRole tenantId actor userId role)
        db'.directory)
      db {} (memberChangeRole tenantId actor userId role) := by
  have hfresh : Reading db {} := ⟨by simp, rfl, rfl⟩
  refine ensures_bind (ensures_requirePermission hkeys hfresh tenantId actor _) ?_ ?_
  swap
  · rintro db' l e ⟨rfl, -⟩
    exact .refl ..
  rintro db l actorRole ⟨rfl, hrole⟩
  obtain ⟨hl, -, -, hactor⟩ := hrole actorRole rfl
  refine ensures_bind (ensures_selectMembership hkeys hl tenantId userId) ?_ ?_
  swap
  · rintro db' l e ⟨rfl, -⟩
    exact .refl ..
  rintro db l previous ⟨rfl, hl, -, -⟩
  refine ensures_bind (ensures_asHttp (ensures_changeMemberRole hkeys hl tenantId userId role
    actorRole) 400 valueOrDirectoryErrors) ?_ ?_
  swap
  · rintro db' l e ⟨rfl, -⟩
    exact .refl ..
  rintro db l membership ⟨rfl, hchanging⟩
  obtain ⟨htenant, m, newRole, hm, hnew, howner, hcontrol⟩ := hchanging membership rfl
  refine ensures_bind (Q := fun db' l' _ => db' = db ∧ l' = l) ?_ ?_ ?_
  · refine ensures_request_bind.mpr fun c => ?_
    simp only [serve]
    cases db.directory.users.find? fun u => u.id == userId <;> exact ⟨rfl, rfl⟩
  · rintro db l user ⟨rfl, rfl⟩
    refine ensures_audited_commit htenant (fun _ => .unchanged rfl rfl) ?_
    intro events d' hcommit
    rcases hcontrol with hcontrol | hcontrol
    · rw [hcontrol] at hcommit
      cases hcommit
      exact .unchanged rfl rfl
    · rw [hcontrol] at hcommit
      simp only [Directory.applyAll, Directory.apply] at hcommit
      split at hcommit
      · rename_i d₁ happly
        cases hcommit
        split at happly
        · cases happly
          refine .changed m newRole hm hnew ?_ rfl rfl
          intro h
          rw [roleIn_of_membership hactor, howner h]
        · cases happly
      · cases hcommit
  · rintro db' l' e ⟨rfl, -⟩
    exact .refl ..

theorem effect_memberRemove (db : Database)
    (hkeys : (db.directory.memberships.map (·.id)).Nodup) (settings : Settings) (tenantId : Nat)
    (actor : User) (userId : Nat) :
    Ensures serve
      (fun db' _ _ => Effect settings db.directory (.remove tenantId actor userId) db'.directory)
      db {} (memberRemove tenantId actor userId) := by
  have hfresh : Reading db {} := ⟨by simp, rfl, rfl⟩
  refine ensures_bind (ensures_requirePermission hkeys hfresh tenantId actor _) ?_ ?_
  swap
  · rintro db' l e ⟨rfl, -⟩
    exact .refl ..
  rintro db l actorRole ⟨rfl, hrole⟩
  obtain ⟨hl, -, -, hactor⟩ := hrole actorRole rfl
  refine ensures_bind (ensures_selectMembership hkeys hl tenantId userId) ?_ ?_
  swap
  · rintro db' l e ⟨rfl, -⟩
    exact .refl ..
  rintro db l target ⟨rfl, hl, -, -⟩
  refine ensures_bind (ensures_emailOfTarget target userId) ?_ ?_
  swap
  · rintro db' l e ⟨rfl, -⟩
    exact .refl ..
  rintro db l targetEmail ⟨rfl, rfl⟩
  refine ensures_bind (ensures_asHttp (ensures_removeMember hkeys hl tenantId userId actorRole)
    400 directoryErrors) ?_ ?_
  swap
  · rintro db' l e ⟨rfl, -⟩
    exact .refl ..
  rintro db l _ ⟨rfl, hremoved⟩
  obtain ⟨htenant, m, hm, hcontrol, howner⟩ := hremoved () rfl
  refine ensures_audited_commit htenant (fun _ => .unchanged rfl rfl) ?_
  intro events d' hcommit
  rw [hcontrol] at hcommit
  cases hcommit
  refine .removed m hm ?_ rfl rfl
  intro h
  rw [roleIn_of_membership hactor, (howner h).1]

theorem effect_handle (settings : Settings) {d : Directory}
    (hkeys : (d.memberships.map (·.id)).Nodup) (event : Operation × (Nat → Choice)) :
    Effect settings d event.1 (handle settings d event) := by
  obtain ⟨op, choices⟩ := event
  cases op with
  | invite tenantId actor email role =>
      exact eval_of_ensures
        (ensures_invitationCreate ⟨d, []⟩ hkeys settings tenantId actor email role) choices
  | revokeInvitation tenantId actor invitationId =>
      exact eval_of_ensures
        (ensures_invitationRevoke ⟨d, []⟩ hkeys settings tenantId actor invitationId) choices
  | accept token password displayName =>
      exact eval_of_ensures
        (ensures_invitationsAccept settings ⟨d, []⟩ token password displayName) choices
  | changeRole tenantId actor userId role =>
      exact eval_of_ensures
        (ensures_memberChangeRole ⟨d, []⟩ hkeys settings tenantId actor userId role) choices
  | remove tenantId actor userId =>
      exact eval_of_ensures
        (effect_memberRemove ⟨d, []⟩ hkeys settings tenantId actor userId) choices
  | cliInvite slug email role =>
      exact eval_of_ensures
        (ensures_cliInvite ⟨d, []⟩ hkeys settings slug email role) choices

theorem Effect.keys {settings : Settings} {d d' : Directory} {op : Operation}
    (heffect : Effect settings d op d') (hkeys : (d.memberships.map (·.id)).Nodup) :
    (d'.memberships.map (·.id)).Nodup := by
  cases heffect with
  | unchanged hm hi => exact hm ▸ hkeys
  | invited i hfresh hauthor hm hi => exact hm ▸ hkeys
  | revoked hm hi => exact hm ▸ hkeys
  | accepted i m hi hpending htoken hrole htenant hfresh hm hrows =>
      rw [hm]
      exact nodup_map_snoc hkeys hfresh
  | changed m newRole hfound hrole howner hm hi =>
      have hids : (d.memberships.map fun x =>
          if x.id = m.id then { x with role := newRole } else x).map (·.id) =
            d.memberships.map (·.id) := by
        rw [List.map_map]
        apply List.map_congr_left
        intro x _
        by_cases hid : x.id = m.id <;> simp [hid]
      rw [hm, hids]
      exact hkeys
  | removed m hfound howner hm hi =>
      rw [hm]
      exact hkeys.sublist (List.filter_sublist.map _)

/-- Where a sequence starts: any tables, with the author of each invitation that
is already there.  The primary keys of memberships are unique, and whoever
invited an owner was allowed to. -/
structure Start where
  directory : Directory
  createdBy : Nat → Author
  keys : (directory.memberships.map (·.id)).Nodup
  lawful : ∀ i ∈ directory.invitations, i.role = .owner → (createdBy i.id).MayGrant

theorem keys_after (settings : Settings) (start : Start)
    (events : List (Operation × (Nat → Choice))) :
    ((after settings start.directory events).memberships.map (·.id)).Nodup := by
  induction events using List.reverseRecOn with
  | nil => exact start.keys
  | append_singleton before event ih =>
      rw [after_concat]
      exact (effect_handle settings ih event).keys ih

/-- The invitation was created by an owner of its tenant or by the command line:
before the sequence, or by one of its operations. -/
def Authored (settings : Settings) (start : Start) (before : List (Operation × (Nat → Choice)))
    (i : Invitation) : Prop :=
  (i ∈ start.directory.invitations ∧ (start.createdBy i.id).MayGrant) ∨
    ∃ earlier event later, before = earlier ++ event :: later ∧
      i ∉ (after settings start.directory earlier).invitations ∧
      i ∈ (after settings start.directory (earlier ++ [event])).invitations ∧
      ∃ author, event.1.author (after settings start.directory earlier) i.tenantId = some author ∧
        author.MayGrant

theorem Authored.append {settings : Settings} {start : Start}
    {before : List (Operation × (Nat → Choice))} {i : Invitation}
    (h : Authored settings start before i) (event : Operation × (Nat → Choice)) :
    Authored settings start (before ++ [event]) i := by
  rcases h with hstart | ⟨earlier, event', later, rfl, hcreated⟩
  · exact .inl hstart
  · exact .inr ⟨earlier, event', later ++ [event], by simp, hcreated⟩

/-- The operation made the membership an owner, rightly: an owner of its tenant
promoted it, or its user accepted an invitation into its tenant as owner, whose
author could grant it. -/
inductive Granted (settings : Settings) (start : Start)
    (before : List (Operation × (Nat → Choice))) : Operation → Membership → Prop where
  | promoted {actor : User} {role : String} {m : Membership}
      (hrole : validateRole role = .ok .owner)
      (hactor : roleIn (after settings start.directory before) m.tenantId actor = some .owner) :
      Granted settings start before (.changeRole m.tenantId actor m.userId role) m
  | accepted {token : String} {password displayName : Option String} {m : Membership}
      (i : Invitation) (hi : i ∈ (after settings start.directory before).invitations)
      (htoken : i.tokenHash = settings.hashToken token) (hpending : i.acceptedAt = none)
      (hrole : i.role = .owner) (htenant : i.tenantId = m.tenantId)
      (hauthored : Authored settings start before i) :
      Granted settings start before (.accept token password displayName) m

/-- The invariant on what is pending: an invitation as owner that can still be
accepted has an author who could grant it. -/
theorem pending_authored (settings : Settings) (start : Start)
    (events : List (Operation × (Nat → Choice))) :
    ∀ i ∈ (after settings start.directory events).invitations, i.acceptedAt = none →
      i.role = .owner → Authored settings start events i := by
  induction events using List.reverseRecOn with
  | nil => exact fun i hi _ howner => .inl ⟨hi, start.lawful i hi howner⟩
  | append_singleton before event ih =>
      obtain ⟨op, choices⟩ := event
      intro i hi hpending howner
      -- An invitation that was there keeps its author; a new one has the operation's.
      by_cases hold : i ∈ (after settings start.directory before).invitations
      · exact (ih i hold hpending howner).append (op, choices)
      refine .inr ⟨before, (op, choices), [], rfl, hold, hi, ?_⟩
      rw [after_concat] at hi
      cases effect_handle settings (keys_after settings start before) (op, choices) with
      | unchanged hm hrows => exact absurd (hrows ▸ hi) hold
      | invited j hfresh hauthor hm hrows =>
          rw [hrows] at hi
          rcases List.mem_append.mp hi with hi | hi
          · exact absurd hi hold
          · obtain rfl := List.mem_singleton.mp hi
            exact hauthor howner
      | revoked hm hrows => exact absurd (hrows hi) hold
      | accepted j m hj hjpending htoken hrole htenant hfresh hm hrows =>
          exact absurd (hrows i hi hpending) hold
      | changed m newRole hfound hrole hrule hm hrows => exact absurd (hrows ▸ hi) hold
      | removed m hfound hrule hm hrows => exact absurd (hrows ▸ hi) hold

theorem granted_of_new_owner (settings : Settings) (start : Start)
    (before : List (Operation × (Nat → Choice))) (event : Operation × (Nat → Choice))
    {m : Membership} (hnew : m ∉ (after settings start.directory before).memberships)
    (hm : m ∈ (handle settings (after settings start.directory before) event).memberships)
    (howner : m.role = .owner) : Granted settings start before event.1 m := by
  obtain ⟨op, choices⟩ := event
  have heffect := effect_handle settings (keys_after settings start before) (op, choices)
  cases heffect with
  | unchanged hrows hi => exact absurd (hrows ▸ hm) hnew
  | invited i hfresh hauthor hrows hi => exact absurd (hrows ▸ hm) hnew
  | revoked hrows hi => exact absurd (hrows ▸ hm) hnew
  | accepted i x hi hpending htoken hrole htenant hfresh hrows hinvitations =>
      rw [hrows] at hm
      rcases List.mem_append.mp hm with hm | hm
      · exact absurd hm hnew
      obtain rfl := List.mem_singleton.mp hm
      have hiowner : i.role = .owner := hrole ▸ howner
      exact .accepted i hi htoken hpending hiowner htenant.symm
        (pending_authored settings start before i hi hpending hiowner)
  | changed x newRole hfound hrole hrule hrows hi =>
      rw [hrows] at hm
      obtain ⟨y, hy, rfl⟩ := List.mem_map.mp hm
      by_cases hid : y.id = x.id
      · have hxmem := List.mem_of_find?_eq_some hfound
        obtain rfl : y = x :=
          List.inj_on_of_nodup_map (keys_after settings start before) hy hxmem hid
        have hkey := List.find?_some hfound
        simp only [Bool.and_eq_true, beq_iff_eq] at hkey
        obtain ⟨rfl, rfl⟩ := hkey
        simp only [if_true] at howner ⊢
        subst howner
        exact .promoted (m := { y with role := .owner }) hrole (hrule (.inl rfl))
      · simp only [if_neg hid] at hnew
        exact absurd hy hnew
  | removed x hfound hrule hrows hi =>
      rw [hrows] at hm
      exact absurd (List.mem_filter.mp hm).1 hnew

theorem owner_kept (settings : Settings) (start : Start)
    (before : List (Operation × (Nat → Choice))) (event : Operation × (Nat → Choice))
    {m : Membership} (hactor : ¬ event.1.ByOwner (after settings start.directory before) m.tenantId)
    (hm : m ∈ (after settings start.directory before).memberships)
    (howner : m.role = .owner) :
    m ∈ (handle settings (after settings start.directory before) event).memberships := by
  obtain ⟨op, choices⟩ := event
  have hkeys := keys_after settings start before
  cases effect_handle settings hkeys (op, choices) with
  | unchanged hrows hi => exact hrows ▸ hm
  | invited i hfresh hauthor hrows hi => exact hrows ▸ hm
  | revoked hrows hi => exact hrows ▸ hm
  | accepted i x hi hpending htoken hrole htenant hfresh hrows hinvitations =>
      rw [hrows]
      exact List.mem_append_left _ hm
  | changed x newRole hfound hrole hrule hrows hi =>
      rw [hrows]
      refine List.mem_map.mpr ⟨m, hm, if_neg ?_⟩
      intro hid
      obtain rfl : m = x :=
        List.inj_on_of_nodup_map hkeys hm (List.mem_of_find?_eq_some hfound) hid
      exact hactor ⟨_, rfl, tenantId_of_getMembership hfound ▸ hrule (.inr howner)⟩
  | removed x hfound hrule hrows hi =>
      rw [hrows]
      refine List.mem_filter.mpr ⟨hm, ?_⟩
      simp only [bne_iff_ne, ne_eq]
      intro hid
      obtain rfl : m = x :=
        List.inj_on_of_nodup_map hkeys hm (List.mem_of_find?_eq_some hfound) hid
      exact hactor ⟨_, rfl, tenantId_of_getMembership hfound ▸ hrule howner⟩

/-- Ownership only comes from owners.  After any sequence of operations, every
owner that was not one at the start was made so by the request of an owner of the
same tenant, or by an invitation as owner that an owner of this tenant or the
command line had created; and only operations of an owner of the tenant touch a
membership that is an owner's. -/
theorem ownership_comes_from_owners (settings : Settings) (start : Start)
    (events : List (Operation × (Nat → Choice))) :
    (∀ m ∈ (after settings start.directory events).memberships, m.role = .owner →
      m ∈ start.directory.memberships ∨
        ∃ before event rest, events = before ++ event :: rest ∧
          m ∉ (after settings start.directory before).memberships ∧
          m ∈ (after settings start.directory (before ++ [event])).memberships ∧
          Granted settings start before event.1 m) ∧
      ∀ before event rest, events = before ++ event :: rest →
        ∀ m ∈ (after settings start.directory before).memberships, m.role = .owner →
          ¬ event.1.ByOwner (after settings start.directory before) m.tenantId →
          m ∈ (after settings start.directory (before ++ [event])).memberships := by
  refine ⟨?_, ?_⟩
  · induction events using List.reverseRecOn with
    | nil => exact fun m hm _ => .inl hm
    | append_singleton before event ih =>
        intro m hm howner
        by_cases hold : m ∈ (after settings start.directory before).memberships
        · rcases ih m hold howner with hstart | ⟨earlier, event', later, rfl, hgranted⟩
          · exact .inl hstart
          · exact .inr ⟨earlier, event', later ++ [event], by simp, hgranted⟩
        · refine .inr ⟨before, event, [], rfl, hold, hm, ?_⟩
          rw [after_concat] at hm
          exact granted_of_new_owner settings start before event hold hm howner
  · rintro before event rest rfl m hm howner hactor
    rw [after_concat]
    exact owner_kept settings start before event hactor hm howner

def alice : User := ⟨1, "alice@exemple.fr", none⟩

def bob : User := ⟨2, "bob@exemple.fr", none⟩

/-- Alice owns the tenant and Bob administers it; Bob has an invitation pending from
the command line. -/
def acme : Start where
  directory := {
    tenants := [⟨1, "acme", "Acme", .active, none⟩, ⟨2, "globex", "Globex", .active, none⟩]
    users := [alice, bob]
    credentials := []
    memberships := [⟨1, alice.id, 1, .owner⟩, ⟨2, bob.id, 1, .admin⟩]
    invitations := [⟨7, bob.email, 2, .owner, "globex", 1000, none, none⟩]
    teams := []
    teamMembers := []
    auditEvents := [] }
  createdBy := fun _ => .cli
  keys := by decide
  lawful := fun _ _ _ => trivial

def plainSettings : Settings := ⟨id, 72, "https://app.exemple.fr"⟩

/-- Alice invites Carol as an owner and promotes Bob, who demotes her; then Carol
accepts. -/
def succession : List (Operation × (Nat → Choice)) :=
  [(.invite 1 alice "carol@exemple.fr" "owner", fun _ => { now := 10, uuid := 8, token := "carol" }),
    (.changeRole 1 alice bob.id "owner", fun _ => { now := 11 }),
    (.changeRole 1 bob alice.id "member", fun _ => { now := 12 }),
    (.accept "carol" none none, fun n => { now := 13, uuid := 20 + n })]

/-- Carol's ownership goes back to the invitation of a tenant owner, who is none any
more when she accepts. -/
theorem carol_owns_through_invitation :
    ∃ m ∈ (after plainSettings acme.directory succession).memberships, m.role = .owner ∧
      m ∉ (after plainSettings acme.directory (succession.take 3)).memberships ∧
      roleIn (after plainSettings acme.directory (succession.take 3)) 1 alice = some .member ∧
      ∃ before event rest, succession = before ++ event :: rest ∧
        m ∉ (after plainSettings acme.directory before).memberships ∧
        m ∈ (after plainSettings acme.directory (before ++ [event])).memberships ∧
        Granted plainSettings acme before event.1 m := by
  let m : Membership := ⟨25, 23, 1, .owner⟩
  have hm : m ∈ (after plainSettings acme.directory succession).memberships := by decide +kernel
  refine ⟨m, hm, rfl, by decide +kernel, by decide +kernel, ?_⟩
  exact ((ownership_comes_from_owners plainSettings acme succession).1 m hm rfl).resolve_left
    (by decide)

end Socle.OwnershipProvenance
