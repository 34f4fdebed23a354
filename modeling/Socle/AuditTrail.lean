import Socle.Interruptions
import Socle.OwnershipProvenance
import Socle.RouteGuards

/-!
The audit events of the directory routes and of provisioning, when the process
may stop between any two requests and any commit may fail: wherever an operation
is interrupted, what it did to its rows is traced, save for one operation.
-/

namespace Socle.AuditTrail

open Socle.Procedures
open Socle.Interruptions
open Socle.DirectoryStore
open Socle.DirectoryService
open Socle.ServiceFootprints
open Socle.TeamMembership (DirectoryRequest)
open Socle.OwnershipProvenance (Accepting ensures_acceptInvitation rows_of_accepting)
open Socle.RouteGuards (validateSlug)

section Traced

variable {I : Interface} {ε α β σ ℓ ω ρ η : Type} {isTrace : η → Prop}

/-- Events were added, one of them the trace of the operation. -/
def Recorded (isTrace : η → Prop) (before after : List η) : Prop :=
  ∃ new, after = before ++ new ∧ ∃ e ∈ new, isTrace e

/-- No effect on the business rows without the trace of the operation. -/
def Traced (rows : σ → ρ) (events : σ → List η) (isTrace : η → Prop) (s₀ s : σ) : Prop :=
  rows s = rows s₀ ∨ Recorded isTrace (events s₀) (events s)

/-- Wherever the procedure is interrupted, its effects since `s₀` are traced. -/
def KeepsTrace (serve : Serve I σ ℓ ω) (rows : σ → ρ) (events : σ → List η) (isTrace : η → Prop)
    (s₀ s : σ) (l : ℓ) (p : Proc I ε α) : Prop :=
  EnsuresEach serve (fun _ _ _ _ => True) (fun s _ _ => Traced rows events isTrace s₀ s)
    (fun s _ _ => Traced rows events isTrace s₀ s) s l p

theorem Recorded.append {before after : List η} (h : Recorded isTrace before after)
    (more : List η) : Recorded isTrace before (after ++ more) := by
  obtain ⟨new, rfl, e, he, htrace⟩ := h
  exact ⟨new ++ more, by simp, e, List.mem_append_left _ he, htrace⟩

theorem not_recorded_self (events : List η) : ¬ Recorded isTrace events events := by
  rintro ⟨new, hnew, e, he, -⟩
  rw [List.self_eq_append_right.mp hnew] at he
  exact List.not_mem_nil he

variable {serve : Serve I σ ℓ ω} {rows : σ → ρ} {events : σ → List η}

theorem KeepsTrace.restart {s₀ s₁ s : σ} {l : ℓ} {p : Proc I ε α} (hrows : rows s₁ = rows s₀)
    (hevents : events s₁ = events s₀) (h : KeepsTrace serve rows events isTrace s₁ s l p) :
    KeepsTrace serve rows events isTrace s₀ s l p := by
  have hsame : Traced rows events isTrace s₁ = Traced rows events isTrace s₀ := by
    funext s
    rw [Traced, Traced, hrows, hevents]
  rw [KeepsTrace, hsame] at h
  exact h

theorem keepsTrace_makes_bind {made : I.Request → Prop} {P : σ → ℓ → Prop} {s : σ}
    (hmade : ∀ s l r c, made r → P s l → P (serve s l r c).1 (serve s l r c).2.1)
    (hsame : ∀ s' l, P s' l → rows s' = rows s ∧ events s' = events s)
    {p : Proc I ε α} {f : α → Proc I ε β} (hp : Makes made p) {l : ℓ} (hl : P s l)
    (hf : ∀ s' l a, P s' l → KeepsTrace serve rows events isTrace s' s' l (f a)) :
    KeepsTrace serve rows events isTrace s s l (p >>= f) := by
  refine ensuresEach_bind
    (ensuresEach_of_makes hmade (fun s' l r _ hP => .inl (hsame s' l hP).1) hp hl)
    (fun s' l a hP => ?_) fun s' l e hP => ?_
  · obtain ⟨hrows, hevents⟩ := hsame s' l hP
    exact (hf s' l a hP).restart hrows hevents
  · exact .inl (hsame s' l hP).1

variable (events) in
theorem keepsTrace_of_recorded
    (hgrow : ∀ s l r c, ∃ more, events (serve s l r c).1 = events s ++ more) {s₀ s : σ}
    (hrecorded : Recorded isTrace (events s₀) (events s)) (l : ℓ) (p : Proc I ε α) :
    KeepsTrace serve rows events isTrace s₀ s l p := by
  induction p generalizing s l with
  | ret a => exact .inr hrecorded
  | raise e => exact .inr hrecorded
  | call r k ih =>
      refine ⟨.inr hrecorded, fun c _ => ih _ ?_ _⟩
      obtain ⟨more, hmore⟩ := hgrow s l r c
      rw [hmore]
      exact hrecorded.append more

variable (events) in
theorem keepsTrace_request_bind
    (hgrow : ∀ s l r c, ∃ more, events (serve s l r c).1 = events s ++ more) {s : σ} {l : ℓ}
    {r : I.Request} {f : I.Answer r → Proc I ε β}
    (hnext : ∀ c, Recorded isTrace (events s) (events (serve s l r c).1) ∨
      (serve s l r c).1 = s ∧
        KeepsTrace serve rows events isTrace s s (serve s l r c).2.1 (f (serve s l r c).2.2)) :
    KeepsTrace serve rows events isTrace s s l (request r >>= f) := by
  refine ⟨.inl rfl, fun c _ => ?_⟩
  rcases hnext c with hrecorded | ⟨hsame, hrest⟩
  · exact keepsTrace_of_recorded events hgrow hrecorded _ _
  · rw [hsame]
    exact hrest

theorem traced_of_keepsTrace {s : σ} {l : ℓ} {p : Proc I ε α}
    (hp : KeepsTrace serve rows events isTrace s s l p) (choices : Nat → ω) (n : Nat) :
    Traced rows events isTrace s (runFor serve n s l p choices).1 :=
  invariant_of_ensuresEach hp choices (fun _ _ _ _ _ _ => trivial) n

end Traced

/-- Everything but the audit events. -/
def businessRows (d : Directory) : Directory := { d with auditEvents := [] }

/-- The audit event of an action of an actor in a tenant. -/
def IsTrace (action : String) (tenantId : Nat) (actor : User) (e : AuditEvent) : Prop :=
  e.action = action ∧ e.tenantId = tenantId ∧ e.actorUserId = some actor.id

/-- The trace each request has to leave. -/
def traceOf (settings : Settings) (d : Directory) : DirectoryRequest → AuditEvent → Prop
  | .invite tenantId actor _ _ => IsTrace "core.member.invited" tenantId actor
  | .revokeInvitation tenantId actor _ => IsTrace "core.member.invitation_revoked" tenantId actor
  | .accept token _ _ => fun e => e.action = "core.member.invitation_accepted" ∧
      ∃ i ∈ d.invitations, i.tokenHash = settings.hashToken token ∧ e.tenantId = i.tenantId
  | .changeRole tenantId actor _ _ => IsTrace "core.member.role_changed" tenantId actor
  | .remove tenantId actor _ => IsTrace "core.member.removed" tenantId actor
  | .createTeam tenantId actor _ _ => IsTrace "core.team.created" tenantId actor
  | .deleteTeam tenantId actor _ => IsTrace "core.team.deleted" tenantId actor
  | .addTeamMember tenantId actor _ _ => IsTrace "core.team.member_added" tenantId actor
  | .removeTeamMember tenantId actor _ _ => IsTrace "core.team.member_removed" tenantId actor

/-- The session and the answer of a commit that fails. -/
def lostCommit (l : Session) : (r : Request) → Option (Session × Answer r)
  | .commitControl => some ({ l with control := [] }, .error .operational)
  | .commitTenant => some ({ l with tenant := [] }, .error .operational)
  | _ => none

def server : Serve DirectoryInterface Database Session (Choice × Fate) :=
  faulty DirectoryStore.serve lostCommit

theorem serve_uncommitted (db : Database) (l : Session) {r : Request} (hr : Uncommitted r)
    (c : Choice) :
    lostCommit l r = none ∧ (DirectoryStore.serve db l r c).1 = db ∧
      (DirectoryStore.serve db l r c).2.1.tenantId = l.tenantId := by
  cases r with
  | commitControl => cases hr
  | commitTenant => cases hr
  | pushTenant tenantId => cases hr
  | selectMembership tenantId userId =>
      refine ⟨rfl, ?_⟩
      simp only [serve, Session.resolve]
      split
      · split <;> exact ⟨rfl, rfl⟩
      · exact ⟨rfl, rfl⟩
  | setRole membership role =>
      refine ⟨rfl, rfl, ?_⟩
      simp only [serve]
      split <;> rfl
  | _ => exact ⟨rfl, rfl, rfl⟩

theorem serve_stays (db : Database) (l : Session) (r : Request) (c : Choice)
    (hr : Uncommitted r) : lostCommit l r = none ∧ (DirectoryStore.serve db l r c).1 = db := by
  obtain ⟨hnone, hdb, -⟩ := serve_uncommitted db l hr c
  exact ⟨hnone, hdb⟩

theorem auditEvents_applyAll {d d' : Directory} {changes : List Change}
    (happly : d.applyAll changes = .ok d') :
    ∃ new, d'.auditEvents = d.auditEvents ++ new ∧ ∀ e, .addAuditEvent e ∈ changes ↔ e ∈ new := by
  induction changes generalizing d with
  | nil =>
      cases happly
      exact ⟨[], by simp, by simp⟩
  | cons change rest ih =>
      simp only [Directory.applyAll] at happly
      split at happly
      · rename_i d₁ hfirst
        obtain ⟨new, hnew, hmem⟩ := ih happly
        cases change with
        | addAuditEvent event =>
            cases hfirst
            refine ⟨event :: new, by simpa using hnew, fun e => ?_⟩
            simp [hmem]
        | _ =>
            have hsame : d₁.auditEvents = d.auditEvents := by
              simp only [Directory.apply] at hfirst
              repeat' split at hfirst
              all_goals cases hfirst
              all_goals rfl
            exact ⟨new, hsame ▸ hnew, fun e => by simp [hmem]⟩
      · cases happly

theorem auditEvents_server (db : Database) (l : Session) (r : Request) (c : Choice × Fate) :
    ∃ more, (server db l r c).1.directory.auditEvents = db.directory.auditEvents ++ more := by
  have hcommit (changes : List Change) :
      ∃ more, (db.commit changes).1.directory.auditEvents = db.directory.auditEvents ++ more := by
    unfold Database.commit
    split
    · rename_i d' happly
      obtain ⟨new, hnew, -⟩ := auditEvents_applyAll happly
      exact ⟨new, hnew⟩
    · exact ⟨[], by simp⟩
  have huncommitted (hr : Uncommitted r) : ∃ more,
      (DirectoryStore.serve db l r c.1).1.directory.auditEvents =
        db.directory.auditEvents ++ more := by
    obtain ⟨-, hdb, -⟩ := serve_uncommitted db l hr c.1
    exact ⟨[], by rw [hdb, List.append_nil]⟩
  rcases faulty_fst DirectoryStore.serve lostCommit db l r c with ⟨heq, -⟩ | heq
  · exact ⟨[], by rw [server, heq, List.append_nil]⟩
  rw [server, heq]
  cases r with
  | commitControl => exact hcommit l.control
  | commitTenant => exact hcommit l.tenant
  | pushTenant tenantId => exact ⟨[], by simp [DirectoryStore.serve]⟩
  | _ => exact huncommitted trivial

abbrev Keeps {α : Type} (isTrace : AuditEvent → Prop) (db : Database) (l : Session)
    (p : DirectoryProc α) : Prop :=
  KeepsTrace server (fun db => businessRows db.directory) (fun db => db.directory.auditEvents)
    isTrace db db l p

section Keeps

variable {α β : Type} {isTrace : AuditEvent → Prop} {db : Database} {l : Session}
variable {tenantId : Nat}

theorem keeps_uncommitted_bind {p : DirectoryProc α} {f : α → DirectoryProc β}
    (hp : Makes Uncommitted p) (hl : l.tenantId = tenantId)
    (hf : ∀ l a, l.tenantId = tenantId → Keeps isTrace db l (f a)) :
    Keeps isTrace db l (p >>= f) := by
  refine keepsTrace_makes_bind (P := fun db' (l : Session) => db' = db ∧ l.tenantId = tenantId)
    ?_ ?_ hp ⟨rfl, hl⟩ ?_
  · rintro _ l r c hr ⟨rfl, hl⟩
    obtain ⟨hnone, hdb, htenant⟩ := serve_uncommitted _ l hr c.1
    rw [server, faulty_of_none hnone]
    exact ⟨hdb, htenant.trans hl⟩
  · rintro _ l ⟨rfl, -⟩
    exact ⟨rfl, rfl⟩
  · rintro _ l a ⟨rfl, hl⟩
    exact hf l a hl

theorem keeps_ask_bind {r : Request} {f : Answer r → DirectoryProc β} (hr : Uncommitted r)
    (hl : l.tenantId = tenantId)
    (hf : ∀ l a, l.tenantId = tenantId → Keeps isTrace db l (f a)) :
    Keeps isTrace db l (ask r >>= f) :=
  keeps_uncommitted_bind ⟨hr, fun _ => trivial⟩ hl hf

theorem keeps_requirePermission_bind {actor : User} {permission : CorePermission}
    {f : Role → DirectoryProc β}
    (hf : ∀ l role, l.tenantId = tenantId → Keeps isTrace db l (f role)) :
    Keeps isTrace db l (requirePermission tenantId actor permission >>= f) := by
  refine ensuresEach_bind (Q := fun db' l' out => db' = db ∧
    ∀ role, out = .ok role → l'.tenantId = tenantId) ⟨.inl rfl, fun c _ => ?_⟩ ?_ ?_
  · obtain ⟨hnone, hdb, -⟩ := serve_uncommitted db l
      (r := .selectMembership tenantId actor.id) trivial c.1
    rw [server, faulty_of_none hnone]
    generalize DirectoryStore.serve db l (.selectMembership tenantId actor.id) c.1 = out at hdb ⊢
    obtain ⟨db', l', membership⟩ := out
    obtain rfl : db' = db := hdb
    cases membership with
    | none => exact ⟨rfl, by simp⟩
    | some membership =>
        refine ⟨.inl rfl, fun c _ => ?_⟩
        rw [faulty_of_none rfl]
        dsimp only [DirectoryStore.serve]
        split
        · exact ⟨rfl, fun _ _ => rfl⟩
        · exact ⟨rfl, by simp⟩
  · rintro _ l role ⟨rfl, hl⟩
    exact hf l role (hl role rfl)
  · rintro _ l e ⟨rfl, -⟩
    exact .inl rfl

theorem keeps_record_bind {action resourceType : String} {resourceId : Nat}
    {payload : List (String × Option String)} {actor : User} {f : Unit → DirectoryProc β}
    (hl : l.tenantId = tenantId)
    (hf : ∀ l e, l.tenantId = tenantId → .addAuditEvent e ∈ l.tenant →
      IsTrace action tenantId actor e → Keeps isTrace db l (f ())) :
    Keeps isTrace db l
      (recordAuditEvent action resourceType resourceId payload actor >>= f) := by
  refine ⟨.inl rfl, fun c _ => ?_⟩
  rw [server, faulty_of_none rfl]
  refine hf _ ⟨l.tenantId, action, resourceType, resourceId, payload, some actor.id,
    actorLabel actor⟩ hl ?_ ⟨rfl, hl, rfl⟩
  exact List.mem_append_right _ (List.mem_singleton.mpr rfl)

theorem keeps_commitTenant_bind {e : AuditEvent} (he : .addAuditEvent e ∈ l.tenant)
    (htrace : isTrace e) (f : Unit → DirectoryProc β) :
    Keeps isTrace db l (commitTenant >>= f) := by
  have hrecorded {d' : Directory} (happly : db.directory.applyAll l.tenant = .ok d') :
      Recorded isTrace db.directory.auditEvents d'.auditEvents := by
    obtain ⟨new, hnew, hmem⟩ := auditEvents_applyAll happly
    exact ⟨new, hnew, e, (hmem e).mp he, htrace⟩
  refine keepsTrace_request_bind (fun db : Database => db.directory.auditEvents)
    auditEvents_server fun c => ?_
  obtain ⟨choice, fate⟩ := c
  cases fate with
  | refused => exact .inr ⟨rfl, .inl rfl⟩
  | served =>
      simp only [server, faulty, DirectoryStore.serve, Database.commit]
      split
      · rename_i d' happly
        exact .inl (hrecorded happly)
      · exact .inr ⟨rfl, .inl rfl⟩
  | unanswered =>
      simp only [server, faulty, lostCommit, DirectoryStore.serve, Database.commit]
      split
      · rename_i d' happly
        exact .inl (hrecorded happly)
      · exact .inr ⟨rfl, .inl rfl⟩

theorem keeps_audited_commit {action resourceType : String} {resourceId : Nat}
    {payload : List (String × Option String)} {actor : User} {reply : Reply}
    (hl : l.tenantId = tenantId) (htrace : ∀ e, IsTrace action tenantId actor e → isTrace e) :
    Keeps isTrace db l (do
      recordAuditEvent action resourceType resourceId payload actor
      commitTenant
      commitControl
      return reply) := by
  refine keeps_record_bind hl fun l e _ he hevent => ?_
  exact keeps_commitTenant_bind he (htrace e hevent) _

end Keeps

theorem keeps_invitationCreate (settings : Settings) (db : Database) (tenantId : Nat)
    (actor : User) (email role : String) :
    Keeps (IsTrace "core.member.invited" tenantId actor) db {}
      (invitationCreate settings tenantId actor email role) := by
  refine keeps_requirePermission_bind fun l actorRole hl => ?_
  refine keeps_uncommitted_bind (makes_asHttp ((internal_createInvitation settings tenantId email role
    (some actorRole) (some actor.id)).mono uncommitted_of_internal) 400 valueOrDirectoryErrors) hl ?_
  rintro l ⟨invitation, token⟩ hl
  exact keeps_audited_commit hl fun _ h => h

theorem keeps_invitationRevoke (db : Database) (tenantId : Nat) (actor : User)
    (invitationId : Nat) :
    Keeps (IsTrace "core.member.invitation_revoked" tenantId actor) db {}
      (invitationRevoke tenantId actor invitationId) := by
  refine keeps_requirePermission_bind fun l _ hl => ?_
  refine keeps_uncommitted_bind (makes_asHttp ((internal_revokeInvitation tenantId
    invitationId).mono uncommitted_of_internal) 404 directoryErrors) hl fun l invitation hl => ?_
  exact keeps_audited_commit hl fun _ h => h

theorem keeps_memberChangeRole (db : Database) (tenantId : Nat) (actor : User) (userId : Nat)
    (role : String) :
    Keeps (IsTrace "core.member.role_changed" tenantId actor) db {}
      (memberChangeRole tenantId actor userId role) := by
  refine keeps_requirePermission_bind fun l actorRole hl => ?_
  refine keeps_ask_bind trivial hl fun l previous hl => ?_
  refine keeps_uncommitted_bind (makes_asHttp ((internal_changeMemberRole tenantId userId role
    actorRole).mono uncommitted_of_internal) 400 valueOrDirectoryErrors) hl fun l membership hl => ?_
  refine keeps_uncommitted_bind ((internal_getOneUser userId).mono uncommitted_of_internal) hl
    fun l user hl => ?_
  exact keeps_audited_commit hl fun _ h => h

theorem keeps_memberRemove (db : Database) (tenantId : Nat) (actor : User) (userId : Nat) :
    Keeps (IsTrace "core.member.removed" tenantId actor) db {}
      (memberRemove tenantId actor userId) := by
  refine keeps_requirePermission_bind fun l actorRole hl => ?_
  refine keeps_ask_bind trivial hl fun l target hl => ?_
  refine keeps_uncommitted_bind ((internal_emailOfTarget target userId).mono uncommitted_of_internal) hl
    fun l targetEmail hl => ?_
  refine keeps_uncommitted_bind (makes_asHttp (uncommitted_removeMember tenantId userId actorRole)
    400 directoryErrors) hl fun l _ hl => ?_
  exact keeps_audited_commit hl fun _ h => h

theorem keeps_teamCreate (db : Database) (tenantId : Nat) (actor : User) (name : String)
    (description : Option String) :
    Keeps (IsTrace "core.team.created" tenantId actor) db {}
      (teamCreate tenantId actor name description) := by
  refine keeps_requirePermission_bind fun l _ hl => ?_
  refine keeps_ask_bind trivial hl fun l existing hl => ?_
  split
  · exact .inl rfl
  refine keeps_ask_bind trivial hl fun l team hl => ?_
  refine keeps_record_bind hl fun l e _ he hevent => ?_
  exact keeps_commitTenant_bind he hevent _

theorem keeps_teamDelete (db : Database) (tenantId : Nat) (actor : User) (teamId : Nat) :
    Keeps (IsTrace "core.team.deleted" tenantId actor) db {}
      (teamDelete tenantId actor teamId) := by
  refine keeps_requirePermission_bind fun l _ hl => ?_
  refine keeps_ask_bind trivial hl fun l team hl => ?_
  cases team with
  | none => exact .inl rfl
  | some team =>
      refine keeps_record_bind hl fun l e hl he hevent => ?_
      refine ⟨.inl rfl, fun c _ => ?_⟩
      rw [server, faulty_of_none rfl]
      exact keeps_commitTenant_bind (List.mem_append_left _ he) hevent _

theorem keeps_teamMemberAdd (db : Database) (tenantId : Nat) (actor : User)
    (teamId userId : Nat) :
    Keeps (IsTrace "core.team.member_added" tenantId actor) db {}
      (teamMemberAdd tenantId actor teamId userId) := by
  refine keeps_requirePermission_bind fun l _ hl => ?_
  refine keeps_ask_bind trivial hl fun l team hl => ?_
  cases team with
  | none => exact .inl rfl
  | some team =>
      refine keeps_ask_bind trivial hl fun l membership hl => ?_
      cases membership with
      | none => exact .inl rfl
      | some membership =>
          refine keeps_ask_bind trivial hl fun l duplicate hl => ?_
          split
          · exact .inl rfl
          refine keeps_ask_bind trivial hl fun l _ hl => ?_
          refine keeps_record_bind hl fun l e _ he hevent => ?_
          exact keeps_commitTenant_bind he hevent _

theorem keeps_teamMemberRemove (db : Database) (tenantId : Nat) (actor : User)
    (teamId userId : Nat) :
    Keeps (IsTrace "core.team.member_removed" tenantId actor) db {}
      (teamMemberRemove tenantId actor teamId userId) := by
  refine keeps_requirePermission_bind fun l _ hl => ?_
  refine keeps_ask_bind trivial hl fun l teamMember hl => ?_
  cases teamMember with
  | none => exact .inl rfl
  | some teamMember =>
      refine keeps_ask_bind trivial hl fun l team hl => ?_
      refine keeps_record_bind hl fun l e hl he hevent => ?_
      refine ⟨.inl rfl, fun c _ => ?_⟩
      rw [server, faulty_of_none rfl]
      exact keeps_commitTenant_bind (List.mem_append_left _ he) hevent _

/-! ### `app.tenancy.provisioning` -/

/-- `provision_tenant`, which has a single session: the row and its event are in
one transaction. -/
def provisionTenant (slug name : String) : DirectoryProc Tenant :=
  match validateSlug slug with
  | .error message => throw (.valueError message)
  | .ok slug => do
      match ← ask (.selectTenantBySlug slug) with
      | some existing => throw (.provisioningError
          s!"Le slug {DirectoryService.reprStr slug} est déjà utilisé (état : {existing.state.value}).")
      | none => do
          let tenant ← ask (.addTenant slug name)
          ask (.pushTenant tenant.id)
          ask (.addAuditEvent ⟨0, "core.tenant.provisioned", "tenant", tenant.id,
            [("slug", some slug), ("name", some name)], none, "cli"⟩)
          commitTenant
          return tenant

/-- The audit event of a provisioning. -/
def IsProvisioned (name : String) (e : AuditEvent) : Prop :=
  e.action = "core.tenant.provisioned" ∧ e.actorLabel = "cli" ∧ ("name", some name) ∈ e.payload

theorem keeps_provisionTenant (db : Database) (slug name : String) :
    Keeps (IsProvisioned name) db {} (provisionTenant slug name) := by
  unfold provisionTenant
  cases validateSlug slug with
  | error message => exact .inl rfl
  | ok slug =>
      refine keeps_ask_bind trivial rfl fun l existing hl => ?_
      cases existing with
      | some existing => exact .inl rfl
      | none =>
          refine keeps_ask_bind trivial hl fun l tenant hl => ?_
          refine ⟨.inl rfl, fun c _ => ?_⟩
          rw [server, faulty_of_none rfl]
          refine ⟨.inl rfl, fun c _ => ?_⟩
          rw [faulty_of_none rfl]
          refine keeps_commitTenant_bind (List.mem_append_right _ (List.mem_singleton.mpr rfl)) ?_ _
          exact ⟨rfl, rfl, by simp⟩

/-- A commit on the control-plane that takes effect, whether or not its answer
arrives. -/
def Lands (db : Database) (l : Session) (r : Request) (c : Choice × Fate) : Prop :=
  r = .commitControl ∧ c.2 ≠ .refused ∧ ∃ d', db.directory.applyAll l.control = .ok d'

/-- The operation reaches a commit on the control-plane that takes effect. -/
def ControlCommitLands {α : Type} (p : DirectoryProc α) (d : Directory)
    (choices : Nat → Choice × Fate) : Prop :=
  ∃ n db l r k, runFor server n ⟨d, []⟩ {} p choices = (db, l, .call r k) ∧
    Lands db l r (choices n)

/-- The tables when the process stops after `n` requests of an operation. -/
def stoppedAfter {α : Type} (p : DirectoryProc α) (d : Directory) (choices : Nat → Choice × Fate)
    (n : Nat) : Directory :=
  (runFor server n ⟨d, []⟩ {} p choices).1.directory

/-- A transaction that changes the rows and records nothing. -/
def Mute (d : Directory) (changes : List Change) : Prop :=
  ∀ d', d.applyAll changes = .ok d' →
    businessRows d' ≠ businessRows d ∧ d'.auditEvents = d.auditEvents

theorem directory_of_landing {db : Database} {l : Session} {c : Choice × Fate} {d' : Directory}
    (hfate : c.2 ≠ .refused) (happly : db.directory.applyAll l.control = .ok d') :
    (server db l .commitControl c).1.directory = d' := by
  rcases faulty_fst DirectoryStore.serve lostCommit db l .commitControl c with ⟨-, hrefused⟩ | heq
  · exact absurd hrefused hfate
  · rw [server, heq]
    simp [DirectoryStore.serve, Database.commit, happly]

theorem ensuresEach_commitControl_bind {α : Type} {db : Database} {l : Session}
    (f : Unit → DirectoryProc α) :
    EnsuresEach server (fun db l r c => ¬ Lands db l r c) (fun db' _ _ => db' = db)
      (fun db' _ _ => db' = db) db l (commitControl >>= f) := by
  refine ⟨rfl, fun c hc => ?_⟩
  obtain ⟨choice, fate⟩ := c
  cases fate with
  | refused => rfl
  | served =>
      simp only [server, faulty, DirectoryStore.serve, Database.commit]
      split
      · rename_i d' happly
        exact absurd ⟨rfl, by simp, d', happly⟩ hc
      · rfl
  | unanswered =>
      simp only [server, faulty, lostCommit, DirectoryStore.serve, Database.commit]
      split
      · rename_i d' happly
        exact absurd ⟨rfl, by simp, d', happly⟩ hc
      · rfl

theorem traced_iff_of_mute {α : Type} {p : DirectoryProc α} {d : Directory}
    {isTrace : AuditEvent → Prop} (choices : Nat → Choice × Fate)
    (hmute : EnsuresEach server (fun _ _ _ _ => True)
      (fun db' l r => r = .commitControl → db' = ⟨d, []⟩ ∧ Mute d l.control)
      (fun _ _ _ => True) ⟨d, []⟩ {} p)
    (hunchanged : EnsuresEach server (fun db l r c => ¬ Lands db l r c)
      (fun db' _ _ => db' = ⟨d, []⟩) (fun db' _ _ => db' = ⟨d, []⟩) ⟨d, []⟩ {} p) :
    (∀ n, Traced businessRows Directory.auditEvents isTrace d (stoppedAfter p d choices n)) ↔
      ¬ ControlCommitLands p d choices := by
  constructor
  · rintro htraced ⟨n, db, l, r, k, hstop, rfl, hfate, d', happly⟩
    -- The next request is the commit, in the state the operation started from.
    have hcommit := stopped_of_ensuresEach hmute choices (fun _ _ _ _ _ _ => trivial) n
    rw [hstop] at hcommit
    obtain ⟨rfl, hrest⟩ := hcommit rfl
    obtain ⟨hrows, hevents⟩ := hrest d' happly
    have hafter := htraced (n + 1)
    rw [stoppedAfter, runFor_succ hstop, directory_of_landing hfate happly] at hafter
    rcases hafter with hsame | hrecorded
    · exact hrows hsame
    · rw [hevents] at hrecorded
      exact not_recorded_self _ hrecorded
  · intro hquiet n
    refine .inl ?_
    have hsame := invariant_of_ensuresEach (P := fun db : Database => db = ⟨d, []⟩) hunchanged
      choices (fun m db l r k hstop hlands => hquiet ⟨m, db, l, r, k, hstop, hlands⟩) n
    rw [stoppedAfter, hsame]

theorem auditEvents_of_silent {d d' : Directory} {changes : List Change}
    (happly : d.applyAll changes = .ok d') (hsilent : ∀ e, .addAuditEvent e ∉ changes) :
    d'.auditEvents = d.auditEvents := by
  obtain ⟨new, hnew, hmem⟩ := auditEvents_applyAll happly
  have hnone : new = [] :=
    List.eq_nil_iff_forall_not_mem.mpr fun e he => hsilent e ((hmem e).mpr he)
  rw [hnew, hnone, List.append_nil]

theorem ensuresEach_acceptInvitation {settings : Settings} {db : Database} {token : String}
    {password displayName : Option String}
    {cond : Database → Session → Request → Choice × Fate → Prop}
    {A : Database → Session → Request → Prop} (hA : ∀ l r, Uncommitted r → A db l r) :
    EnsuresEach server cond A
      (fun db' l' out => db' = db ∧ ∀ result : User × Invitation, out = .ok result →
        Accepting settings db.directory token l' result.2)
      db {} (asHttp 400 directoryErrors
        (acceptInvitation settings token password displayName)) := by
  refine ensuresEach_faulty_of_makes (serve_stays db) hA (makes_asHttp ((internal_acceptInvitation
    settings token password displayName).mono uncommitted_of_internal) 400 directoryErrors) ?_
  exact TeamMembership.ensures_asHttp
    (ensures_acceptInvitation settings db token password displayName) 400 directoryErrors

theorem makes_afterAcceptance (out : Except DatabaseError Unit) (user : User)
    (invitation : Invitation) :
    Makes (fun r => r ≠ Request.commitControl) (committed out >>= fun _ => do
      if let some tenant ← ask (.getTenant invitation.tenantId) then
        ask (.pushTenant tenant.id)
        recordAuditEvent "core.member.invitation_accepted" "membership" user.id
          [("email", some user.email), ("role", some invitation.role.value)] user
        commitTenant
      return Reply.status) := by
  cases out with
  | error e => trivial
  | ok _ =>
      refine makes_ask_bind (by simp) ?_
      rintro (_ | tenant)
      · trivial
      · refine makes_ask_bind (by simp) fun _ => makes_ask_bind (by simp) fun _ => ?_
        refine Makes.bind (makes_ask_bind (by simp) ?_) fun _ => trivial
        rintro (e | _) <;> trivial

theorem mute_of_accepting {settings : Settings} {d : Directory} {token : String} {l : Session}
    {i : Invitation} (haccepting : Accepting settings d token l i) : Mute d l.control := by
  intro d' happly
  constructor
  · intro hrows
    have hsame : d'.memberships = d.memberships := by
      show (businessRows d').memberships = (businessRows d).memberships
      rw [hrows]
    obtain ⟨m, -, -, -, hadded, -⟩ := rows_of_accepting haccepting happly
    rw [hsame] at hadded
    exact List.cons_ne_nil _ _ (List.self_eq_append_right.mp hadded)
  · refine auditEvents_of_silent happly fun e hpending => ?_
    obtain ⟨changes, m, acceptedAt, hpersonal, -, -, hcontrol⟩ := haccepting.control
    rw [hcontrol] at hpending
    rcases List.mem_append.mp hpending with hpending | hpending
    · exact hpersonal _ hpending
    · simp at hpending

theorem accept_traced_iff (settings : Settings) (d : Directory) (token : String)
    (password displayName : Option String) (isTrace : AuditEvent → Prop)
    (choices : Nat → Choice × Fate) :
    (∀ n, Traced businessRows Directory.auditEvents isTrace d
      (stoppedAfter (invitationsAccept settings token password displayName) d choices n)) ↔
      ¬ ControlCommitLands (invitationsAccept settings token password displayName) d choices := by
  refine traced_iff_of_mute choices ?_ ?_
  · refine ensuresEach_bind (ensuresEach_acceptInvitation ?_) ?_ fun _ _ _ _ => trivial
    · rintro l r hr rfl
      exact hr.elim
    rintro _ l ⟨user, invitation⟩ ⟨rfl, haccepting⟩
    refine ⟨fun _ => ⟨rfl, mute_of_accepting (haccepting _ rfl)⟩, fun c _ => ?_⟩
    exact ensuresEach_of_makes_only (fun _ _ _ hne heq => absurd heq hne)
      (makes_afterAcceptance _ user invitation)
  · refine ensuresEach_bind (ensuresEach_acceptInvitation fun _ _ _ => rfl) ?_ ?_
    · rintro _ l ⟨user, invitation⟩ ⟨rfl, -⟩
      exact ensuresEach_commitControl_bind _
    · rintro _ l e ⟨rfl, -⟩
      rfl

theorem ensures_refuseMember_control (db : Database) (l : Session) (tenantId : Nat)
    (email : String) :
    Ensures DirectoryStore.serve (fun db' l' _ => db' = db ∧ l'.control = l.control) db l
      (refuseMember tenantId email) := by
  refine ensures_request_bind.mpr fun c => ?_
  simp only [DirectoryStore.serve]
  cases db.directory.userByEmail email with
  | none => exact ⟨rfl, rfl⟩
  | some user =>
      refine ensures_bind (Q := fun db' l' _ => db' = db ∧ l'.control = l.control) (fun c => ?_) ?_
        (by simp +contextual)
      · simp only [DirectoryStore.serve, Session.resolve]
        repeat' split
        all_goals exact ⟨rfl, rfl⟩
      · rintro _ l' membership ⟨rfl, hcontrol⟩
        split <;> exact ⟨rfl, hcontrol⟩

theorem ensures_createInvitation_control {db : Database} {l : Session} (hl : l.control = [])
    (settings : Settings) (tenantId : Nat) (email role : String) :
    Ensures DirectoryStore.serve
      (fun db' l' out => db' = db ∧ ∀ result : Invitation × String, out = .ok result →
        l'.control = [.addInvitation result.1])
      db l (createInvitation settings tenantId email role none none) := by
  unfold createInvitation
  cases validateRole role with
  | error e => exact ⟨rfl, by simp⟩
  | ok role =>
      simp only [Proc.ofExcept, Proc.ret_bind]
      split
      · exact ⟨rfl, by simp⟩
      refine ensures_bind (ensures_refuseMember_control db l tenantId email) ?_ ?_
      · rintro db' l' _ ⟨rfl, hcontrol⟩
        rw [hl] at hcontrol
        refine ensures_request_bind.mpr fun clock => ?_
        refine ensures_bind (Q := fun db₁ l₁ _ => db₁ = db' ∧ l₁ = l') (fun _ => ⟨rfl, rfl⟩) ?_
          (by simp +contextual)
        rintro _ _ pending ⟨rfl, rfl⟩
        split
        · exact ⟨rfl, by simp⟩
        · refine fun c c c => ⟨rfl, ?_⟩
          rintro _ ⟨⟩
          simp [DirectoryStore.serve, Session.addControl, hcontrol]
      · rintro _ l' e ⟨rfl, -⟩
        exact ⟨rfl, by simp⟩

theorem mute_addInvitation (d : Directory) (i : Invitation) : Mute d [.addInvitation i] := by
  intro d' happly
  refine ⟨fun hrows => ?_, auditEvents_of_silent happly (by simp)⟩
  have hsame : d'.invitations = d.invitations := by
    show (businessRows d').invitations = (businessRows d).invitations
    rw [hrows]
  simp only [Directory.applyAll, Directory.apply] at happly
  split at happly
  · rename_i hfirst
    repeat' split at hfirst
    all_goals cases hfirst
    cases happly
    exact List.cons_ne_nil _ _ (List.self_eq_append_right.mp hsame.symm)
  · cases happly

theorem ensuresEach_invite {settings : Settings} {db : Database} {slug email role : String}
    {cond : Database → Session → Request → Choice × Fate → Prop}
    {A : Database → Session → Request → Prop} {R : Database → Session → Except Failure String → Prop}
    (hA : ∀ l r, Uncommitted r → A db l r) (hR : ∀ l e, R db l (.error e))
    (hcommit : ∀ l i token, l.control = [.addInvitation i] →
      EnsuresEach server cond A R db l (do commitControl; return acceptUrlFor settings token)) :
    EnsuresEach server cond A R db {} (invite settings slug email role) := by
  refine ensuresEach_bind (Q := fun db' l' _ => db' = db ∧ l'.control = [])
    ⟨hA _ _ trivial, fun c _ => ?_⟩ ?_ (by simp +contextual [hR])
  · rw [server, faulty_of_none rfl]
    exact ⟨rfl, rfl⟩
  rintro db l tenant ⟨rfl, hl⟩
  cases tenant with
  | none => exact hR _ _
  | some tenant =>
      refine ensuresEach_bind (ensuresEach_faulty_of_makes (serve_stays db) hA
        ((internal_createInvitation settings tenant.id email role none none).mono uncommitted_of_internal)
        (ensures_createInvitation_control hl settings tenant.id email role)) ?_ ?_
      · rintro _ l ⟨i, token⟩ ⟨rfl, hpending⟩
        exact hcommit l i token (hpending _ rfl)
      · rintro _ l e ⟨rfl, -⟩
        exact hR l e

theorem invite_traced_iff (settings : Settings) (d : Directory) (slug email role : String)
    (isTrace : AuditEvent → Prop) (choices : Nat → Choice × Fate) :
    (∀ n, Traced businessRows Directory.auditEvents isTrace d
      (stoppedAfter (invite settings slug email role) d choices n)) ↔
      ¬ ControlCommitLands (invite settings slug email role) d choices := by
  refine traced_iff_of_mute choices (ensuresEach_invite ?_ (fun _ _ => trivial) ?_)
    (ensuresEach_invite (fun _ _ _ => rfl) (fun _ _ => rfl) ?_)
  · rintro l r hr rfl
    exact hr.elim
  · intro l i token hcontrol
    refine ⟨fun _ => ⟨rfl, hcontrol ▸ mute_addInvitation d i⟩, fun c _ => ?_⟩
    have hend (out : Except DatabaseError Unit) : Makes (fun r => r ≠ Request.commitControl)
        (committed out >>= fun _ => return acceptUrlFor settings token) := by
      cases out <;> trivial
    exact ensuresEach_of_makes_only (fun _ _ _ hne heq => absurd heq hne) (hend _)
  · intro l i token _
    exact ensuresEach_commitControl_bind _

end Socle.AuditTrail
