import Socle.AuditTrail
import Socle.ConnectorTransactions
import Socle.ModuleScheduler

/-!
Every audited operation against every point where its process may stop and every
commit that may fail: on the connections and on the modules as on the directory,
what is done is traced, but for the operations that commit before they record.
-/

namespace Socle.AuditCompleteness

open Socle.Procedures
open Socle.Interruptions
open Socle.AuditTrail
open Socle.DirectoryStore (Directory AuditEvent)
open Socle.TeamMembership (DirectoryRequest)

section Connectors

open Socle.TokenExchange
open Socle.ConnectorStore
open Socle.ConnectorService
open Socle.ConnectorTransactions

/-- The tables without the audit events. -/
def connectorRows (w : World Unit) : Tables :=
  { w.tables with directory := businessRows w.tables.directory }

def connectorEvents (w : World Unit) : List AuditEvent := w.tables.directory.auditEvents

/-- The session and the answer of a commit that fails. -/
def lostConnectorCommit (l : Session) : (r : Request) → Option (Session × Answer r)
  | .commit => some ({ l with objects := [], pending := [] }, .error .databaseError)
  | .commitControl => some ({ l with control := [] }, .error .databaseError)
  | _ => none

def connectorServer : Serve ConnectorInterface (World Unit) Session (Choice × Fate) :=
  faulty (serve anyAnswer) lostConnectorCommit

/-- The requests of the callback and of the revocation before their commits. -/
def preparing : Request → Prop
  | .selectTenantBySlug _ => True
  | .exchangeCode .. => True
  | .accountInfo .. => True
  | .revokeRemote .. => True
  | .getConnection _ => True
  | .findConnection .. => True
  | .addConnection .. => True
  | .readObject _ => True
  | .assign .. => True
  | .deleteSubscriptionsOf _ => True
  | _ => False

theorem serve_preparing (w : World Unit) (l : Session) {r : Request} (hr : preparing r)
    (c : Choice) :
    lostConnectorCommit l r = none ∧ (serve anyAnswer w l r c).1.tables = w.tables ∧
      (serve anyAnswer w l r c).2.1.tenantId = l.tenantId := by
  cases r with
  | selectTenantBySlug slug => exact ⟨rfl, rfl, rfl⟩
  | exchangeCode tenantId provider code => exact ⟨rfl, rfl, rfl⟩
  | accountInfo tenantId provider accessToken => exact ⟨rfl, rfl, rfl⟩
  | revokeRemote connectionId provider refreshToken => exact ⟨rfl, rfl, rfl⟩
  | readObject connectionId => exact ⟨rfl, rfl, rfl⟩
  | addConnection provider kind userId accountLabel scopes => exact ⟨rfl, rfl, rfl⟩
  | deleteSubscriptionsOf connectionId => exact ⟨rfl, rfl, rfl⟩
  | getConnection connectionId =>
      refine ⟨rfl, ?_⟩
      simp only [serve]
      repeat' split
      all_goals simp
  | findConnection provider kind accountLabel =>
      refine ⟨rfl, ?_⟩
      simp only [serve]
      split
      all_goals simp
  | assign connectionId value =>
      refine ⟨rfl, ?_⟩
      simp only [serve]
      repeat' split
      all_goals exact ⟨rfl, rfl⟩
  | _ => cases hr

theorem connectorEvents_server (w : World Unit) (l : Session) (r : Request) (c : Choice × Fate) :
    ∃ more, connectorEvents (connectorServer w l r c).1 = connectorEvents w ++ more := by
  have hnone {w' : World Unit} (hsame : w'.tables = w.tables) :
      ∃ more, connectorEvents w' = connectorEvents w ++ more :=
    ⟨[], by simp [connectorEvents, hsame]⟩
  rcases faulty_fst (serve anyAnswer) lostConnectorCommit w l r c with ⟨heq, -⟩ | heq
  · exact hnone (by rw [connectorServer, heq])
  rw [connectorServer, heq]
  cases r with
  | commit =>
      simp only [serve, World.commit]
      split
      · rename_i t hcommit
        obtain ⟨new, hnew, -⟩ := connectorEvents_commit hcommit
        exact ⟨new, hnew⟩
      · exact hnone rfl
  | commitControl =>
      simp only [serve, World.commitControl]
      split
      · rename_i t happly
        obtain ⟨new, hnew, -⟩ := connectorEvents_applyAll happly
        exact ⟨new, hnew⟩
      · exact hnone rfl
  | _ =>
      refine hnone ?_
      simp only [serve, World.acquireLock]
      repeat' split
      all_goals rfl

/-- Wherever the operation is interrupted, its effects are traced. -/
abbrev KeepsConnector {α : Type} (isTrace : AuditEvent → Prop) (w : World Unit) (l : Session)
    (p : ConnectorProc α) : Prop :=
  KeepsTrace connectorServer connectorRows connectorEvents isTrace w w l p

section Keeps

variable {α β : Type} {isTrace : AuditEvent → Prop} {w : World Unit} {l : Session}
variable {tenantId : Nat}

theorem keeps_preparing_bind {p : ConnectorProc α} {f : α → ConnectorProc β}
    (hp : Makes preparing p) (hl : l.tenantId = tenantId)
    (hf : ∀ w l a, l.tenantId = tenantId → KeepsConnector isTrace w l (f a)) :
    KeepsConnector isTrace w l (p >>= f) := by
  refine keepsTrace_makes_bind (P := fun (w' : World Unit) (l : Session) =>
    w'.tables = w.tables ∧ l.tenantId = tenantId) ?_ ?_ hp ⟨rfl, hl⟩ fun w' l a hP => hf w' l a hP.2
  · rintro w' l r c hr ⟨hw', hl⟩
    obtain ⟨hnone, hw, htenant⟩ := serve_preparing w' l hr c.1
    rw [connectorServer, faulty_of_none hnone]
    exact ⟨hw.trans hw', htenant.trans hl⟩
  · rintro w' l ⟨htables, -⟩
    exact ⟨by rw [connectorRows, connectorRows, htables],
      by rw [connectorEvents, connectorEvents, htables]⟩

theorem keeps_prepare_bind {r : Request} {f : Answer r → ConnectorProc β} (hr : preparing r)
    (hl : l.tenantId = tenantId)
    (hf : ∀ w l a, l.tenantId = tenantId → KeepsConnector isTrace w l (f a)) :
    KeepsConnector isTrace w l (ask r >>= f) :=
  keeps_preparing_bind ⟨hr, fun _ => trivial⟩ hl hf

theorem keeps_selectTenantBySlug_bind {slug : String}
    {f : Option DirectoryStore.Tenant → ConnectorProc β}
    (hnone : KeepsConnector isTrace w l (f none))
    (hsome : ∀ tenant ∈ w.tables.directory.tenants, tenant.slug = slug →
      KeepsConnector isTrace w l (f (some tenant))) :
    KeepsConnector isTrace w l (ask (.selectTenantBySlug slug) >>= f) := by
  refine ⟨.inl rfl, fun c _ => ?_⟩
  rw [connectorServer, faulty_of_none rfl]
  simp only [serve]
  cases hfound : w.tables.directory.tenants.find? fun t => t.slug == slug with
  | none => exact hnone
  | some tenant =>
      exact hsome tenant (List.mem_of_find?_eq_some hfound) (by simpa using List.find?_some hfound)

theorem keeps_openSession_bind {f : Unit → ConnectorProc β}
    (hf : ∀ l, l.tenantId = tenantId → KeepsConnector isTrace w l (f ())) :
    KeepsConnector isTrace w l (ask (.openSession tenantId) >>= f) := by
  refine ⟨.inl rfl, fun c _ => ?_⟩
  rw [connectorServer, faulty_of_none rfl]
  exact hf _ rfl

theorem keeps_record_bind {event : AuditEvent} {f : Unit → ConnectorProc β}
    (hf : ∀ l', .addAuditEvent { event with tenantId := l.tenantId } ∈ l'.pending →
      KeepsConnector isTrace w l' (f ())) :
    KeepsConnector isTrace w l (ask (.addAuditEvent event) >>= f) := by
  refine ⟨.inl rfl, fun c _ => ?_⟩
  rw [connectorServer, faulty_of_none rfl]
  exact hf _ (List.mem_append_right _ (List.mem_singleton.mpr rfl))

theorem keeps_commit_bind {e : AuditEvent} (he : .addAuditEvent e ∈ l.pending) (htrace : isTrace e)
    (f : Unit → ConnectorProc β) : KeepsConnector isTrace w l (commit >>= f) := by
  have hrecorded {t : Tables} (hcommit : w.tables.commit l.objects l.pending = .ok t) :
      Recorded isTrace (connectorEvents w) t.directory.auditEvents := by
    obtain ⟨new, hnew, hmem⟩ := connectorEvents_commit hcommit
    exact ⟨new, hnew, e, (hmem e).mp he, htrace⟩
  refine keepsTrace_request_bind connectorEvents connectorEvents_server fun c => ?_
  obtain ⟨choice, fate⟩ := c
  cases fate with
  | refused => exact .inr ⟨rfl, .inl rfl⟩
  | served =>
      simp only [connectorServer, faulty, serve, World.commit]
      split
      · rename_i t hcommit
        exact .inl (hrecorded hcommit)
      · exact .inr ⟨rfl, .inl rfl⟩
  | unanswered =>
      simp only [connectorServer, faulty, lostConnectorCommit, serve, World.commit]
      split
      · rename_i t hcommit
        exact .inl (hrecorded hcommit)
      · exact .inr ⟨rfl, .inl rfl⟩

end Keeps

/-- The audit event of a connection. -/
def IsConnected (w : World Unit) (state : Option OAuthState) (e : AuditEvent) : Prop :=
  e.action = "connector.connected" ∧ ∃ s ∈ state, e.actorUserId = s.userId ∧
    ∃ tenant ∈ w.tables.directory.tenants, tenant.slug = s.tenantSlug ∧ e.tenantId = tenant.id

/-- The audit event of the revocation of a connection. -/
def IsRevoked (tenantId : Nat) (actor : DirectoryStore.User) (connectionId : Nat)
    (e : AuditEvent) : Prop :=
  e.action = "connector.revoked" ∧ e.tenantId = tenantId ∧ e.actorUserId = some actor.id ∧
    e.resourceId = connectionId

theorem makes_rethrow {α : Type} {f : Failure → Failure} {p : ConnectorProc α}
    (hp : Makes preparing p) : Makes preparing (rethrow f p) := by
  refine hp.attempt.bind fun outcome => ?_
  cases outcome <;> trivial

theorem makes_revokeConnection (settings : Settings) (connectionId : Nat) :
    Makes preparing (revokeConnection settings connectionId) := by
  refine (makes_readObject trivial).bind fun connection => ?_
  split
  · refine Makes.bind (Makes.attempt ?_) fun _ => makes_assign trivial
    refine Makes.bind (makes_ofExcept _) fun _ => ?_
    exact makes_request_bind.mpr ⟨trivial, fun _ => trivial⟩
  · exact makes_assign trivial

theorem makes_exchangeAndLabel (settings : Settings) (tenantId : Nat)
    (provider : ConnectorProvider) (code : String) :
    Makes preparing (exchangeAndLabel settings tenantId provider code) := by
  refine Makes.bind (Makes.bind (makes_ofExcept _) fun _ => ?_) fun bundle => ?_
  · exact makes_request_bind.mpr ⟨trivial, fun _ => makes_ofExcept _⟩
  · refine Makes.bind ?_ fun _ => trivial
    exact makes_request_bind.mpr ⟨trivial, fun _ => makes_ofExcept _⟩

theorem makes_upsertConnection (settings : Settings) (provider : ConnectorProvider)
    (kind : ConnectionKind) (userId : Option Nat) (accountLabel : String) (scopes : List PyStr)
    (bundle : TokenBundle) (connectionId : Option Nat) :
    Makes preparing (upsertConnection settings provider kind userId accountLabel scopes bundle
      connectionId) := by
  have hfound : Makes preparing (connectionFor provider kind accountLabel connectionId) := by
    cases connectionId with
    | none => exact ⟨trivial, fun _ => trivial⟩
    | some id =>
        refine makes_request_bind.mpr ⟨trivial, fun found => ?_⟩
        split
        · trivial
        · exact ⟨trivial, fun _ => trivial⟩
  refine Makes.bind (Makes.bind hfound ?_) fun target => ?_
  · rintro (_ | found)
    · dsimp only
      split
      · trivial
      · exact ⟨trivial, fun _ => trivial⟩
    · exact (makes_assign trivial).bind fun _ => trivial
  · refine Makes.bind ?_ fun _ => (makes_readObject trivial).bind fun connection => ?_
    · refine (makes_assign trivial).bind fun _ => (makes_assign trivial).bind fun _ => ?_
      exact (makes_assign trivial).bind fun _ => makes_assign trivial
    · split <;> trivial

theorem keeps_connectorRevoke (settings : Settings) (w : World Unit) (tenantId : Nat)
    (actor : DirectoryStore.User) (connectionId : Nat) :
    KeepsConnector (IsRevoked tenantId actor connectionId) w {}
      (connectorRevoke settings tenantId actor connectionId) := by
  refine keeps_openSession_bind fun l hl => keeps_prepare_bind trivial hl fun w l found hl => ?_
  cases found with
  | false => exact .inl rfl
  | true =>
      refine keeps_preparing_bind (makes_readObject trivial) hl fun w l connection hl => ?_
      split
      · exact .inl rfl
      refine keeps_preparing_bind (makes_revokeConnection settings connectionId) hl
        fun w l _ hl => ?_
      refine keeps_prepare_bind trivial hl fun w l _ hl => ?_
      refine keeps_record_bind fun l' he => keeps_commit_bind he ?_ _
      exact ⟨rfl, hl, rfl, rfl⟩

theorem keeps_connectInSession_bind {β : Type} {isTrace : AuditEvent → Prop} {w : World Unit}
    {l : Session} (settings : Settings) (provider : ConnectorProvider) (state : OAuthState)
    (tenantId : Nat) (bundle : TokenBundle) (accountLabel : PyStr) (scopes : List PyStr)
    (htrace : ∀ e : AuditEvent, e.action = "connector.connected" → e.tenantId = tenantId →
      e.actorUserId = state.userId → isTrace e) (f : Nat → ConnectorProc β) :
    KeepsConnector isTrace w l
      (connectInSession settings provider state tenantId bundle accountLabel scopes >>= f) := by
  simp only [connectInSession, Proc.bind_assoc]
  refine keeps_openSession_bind fun l hl => ?_
  cases labelText accountLabel with
  | error e => exact .inl rfl
  | ok label =>
      simp only [Proc.ofExcept, Proc.ret_bind]
      refine keeps_preparing_bind (makes_rethrow (makes_upsertConnection ..)) hl
        fun w l connectionId hl => ?_
      refine keeps_record_bind fun l' he => keeps_commit_bind he ?_ _
      exact htrace _ rfl hl rfl

theorem keeps_connectorOauthCallback (settings : Settings) (w : World Unit)
    (provider : ConnectorProvider) (state : Option OAuthState) (code error : Option String) :
    KeepsConnector (IsConnected w state) w {}
      (connectorOauthCallback settings provider state code error) := by
  unfold connectorOauthCallback
  cases state with
  | none => exact .inl rfl
  | some state =>
  cases code with
  | none => exact .inl rfl
  | some code =>
      dsimp only
      split
      · exact .inl rfl
      refine keeps_selectTenantBySlug_bind (.inl rfl) fun tenant hmem hslug => ?_
      dsimp only
      split
      · exact .inl rfl
      refine keeps_preparing_bind
        (makes_rethrow (makes_exchangeAndLabel settings tenant.id provider code)) rfl ?_
      rintro w' l ⟨bundle, label⟩ -
      dsimp only
      cases grantedScopes provider state.capabilities bundle with
      | error e => exact .inl rfl
      | ok scopes =>
          refine keeps_connectInSession_bind settings provider state tenant.id bundle label
            scopes ?_ _
          intro e haction htenant hactor
          exact ⟨haction, state, rfl, hactor, tenant, hmem, hslug, htenant⟩

end Connectors

section Modules

open Socle.ModuleScheduler

variable (registry : List ModuleManifest)

def moduleRows (w : World) : List Tenant × List TenantModule := (w.tenants, w.modules)

theorem audit_serve (w : World) (l : Execution) (r : Request) (c : Choice) :
    ∃ more, (serve registry w l r c).1.audit = w.audit ++ more := by
  cases r with
  | recordAudit event =>
      simp only [serve]
      split
      · exact ⟨[event], rfl⟩
      · exact ⟨[], by simp⟩
  | _ =>
      refine ⟨[], ?_⟩
      simp only [serve, World.commitEnable, World.commitDisable, World.putModule]
      repeat' split
      all_goals simp

/-- Wherever the activation is interrupted, its effects are traced. -/
abbrev KeepsModule {α : Type} (isTrace : ModuleScheduler.AuditEvent → Prop) (w : World)
    (l : Execution) (p : Act α) : Prop :=
  KeepsTrace (serve registry) moduleRows World.audit isTrace w w l p

variable {registry}

section Keeps

variable {β : Type} {isTrace : ModuleScheduler.AuditEvent → Prop} {w : World} {l : Execution}
variable {tenantId : Nat}

theorem keeps_missingCapabilities_bind {manifest : ModuleManifest} {f : List String → Act β}
    (hf : ∀ missing, KeepsModule registry isTrace w l (f missing)) :
    KeepsModule registry isTrace w l (missingCapabilities manifest tenantId >>= f) := by
  unfold missingCapabilities
  split
  · exact hf []
  · exact ⟨.inl rfl, fun c _ => hf _⟩

theorem keeps_selectModule_bind {moduleName : String} {f : Option Bool → Act β}
    (hf : ∀ row, KeepsModule registry isTrace w l (f row)) :
    KeepsModule registry isTrace w l (ask (.selectModule tenantId moduleName) >>= f) :=
  ⟨.inl rfl, fun _ _ => hf _⟩

theorem keeps_recordAudit_bind {event : ModuleScheduler.AuditEvent} {f : Bool → Act β}
    (hevent : isTrace event) (hfailed : KeepsModule registry isTrace w l (f false)) :
    KeepsModule registry isTrace w l (ask (.recordAudit event) >>= f) := by
  refine keepsTrace_request_bind World.audit (audit_serve registry) fun c => ?_
  obtain ⟨granted, commit, ending, connectionFound, handlerRaises⟩ := c
  have hrecorded : Recorded isTrace w.audit (w.audit ++ [event]) :=
    ⟨[event], rfl, event, List.mem_singleton.mpr rfl, hevent⟩
  cases commit with
  | refused => exact .inr ⟨rfl, hfailed⟩
  | committed => exact .inl hrecorded
  | lost => exact .inl hrecorded

end Keeps

theorem keeps_enableModule (w : World) (process tenantId : Nat) (moduleName : String) :
    KeepsModule registry (· = ⟨tenantId, "core.module.enabled", moduleName⟩) w {}
      (enableModule registry process tenantId moduleName) := by
  unfold enableModule
  cases getModule registry moduleName with
  | none => exact .inl rfl
  | some manifest =>
      refine keeps_missingCapabilities_bind fun missing => ?_
      split
      · exact .inl rfl
      · exact keeps_selectModule_bind fun row => keeps_recordAudit_bind rfl (.inl rfl)

theorem keeps_disableModule (w : World) (process tenantId : Nat) (moduleName : String) :
    KeepsModule registry (· = ⟨tenantId, "core.module.disabled", moduleName⟩) w {}
      (disableModule registry process tenantId moduleName) := by
  unfold disableModule
  cases getModule registry moduleName with
  | none => exact .inl rfl
  | some manifest =>
      refine keeps_selectModule_bind fun row => ?_
      split
      · exact .inl rfl
      · exact keeps_recordAudit_bind rfl (.inl rfl)

end Modules

/-- One execution of an audited operation: the state it starts from, its
arguments, and what its environment chooses at each of its requests. -/
inductive AuditedRun where
  | directory (settings : DirectoryService.Settings) (d : Directory) (request : DirectoryRequest)
      (choices : Nat → DirectoryStore.Choice × Fate)
  | cliInvite (settings : DirectoryService.Settings) (d : Directory) (slug email role : String)
      (choices : Nat → DirectoryStore.Choice × Fate)
  | provision (d : Directory) (slug name : String) (choices : Nat → DirectoryStore.Choice × Fate)
  | connect (settings : ConnectorService.Settings) (w : ConnectorStore.World Unit)
      (provider : TokenExchange.ConnectorProvider) (state : Option ConnectorService.OAuthState)
      (code error : Option String) (choices : Nat → ConnectorStore.Choice × Fate)
  | revokeConnector (settings : ConnectorService.Settings) (w : ConnectorStore.World Unit)
      (tenantId : Nat) (actor : DirectoryStore.User) (connectionId : Nat)
      (choices : Nat → ConnectorStore.Choice × Fate)
  | enableModule (registry : List ModuleScheduler.ModuleManifest) (w : ModuleScheduler.World)
      (process tenantId : Nat) (moduleName : String) (choices : Nat → ModuleScheduler.Choice)
  | disableModule (registry : List ModuleScheduler.ModuleManifest) (w : ModuleScheduler.World)
      (process tenantId : Nat) (moduleName : String) (choices : Nat → ModuleScheduler.Choice)

namespace AuditedRun

/-- Wherever the process stops, an effect on the business rows comes with the
audit event of the operation. -/
def Complete : AuditedRun → Prop
  | directory settings d request choices =>
      ∀ n, Traced businessRows Directory.auditEvents (traceOf settings d request) d
        (stoppedAfter (request.procedure settings) d choices n)
  | cliInvite settings d slug email role choices =>
      ∀ n, Traced businessRows Directory.auditEvents (fun e => e.action = "core.member.invited") d
        (stoppedAfter (DirectoryService.invite settings slug email role) d choices n)
  | provision d slug name choices =>
      ∀ n, Traced businessRows Directory.auditEvents (IsProvisioned name) d
        (stoppedAfter (provisionTenant slug name) d choices n)
  | connect settings w provider state code error choices =>
      ∀ n, Traced connectorRows connectorEvents (IsConnected w state) w
        (runFor connectorServer n w {}
          (ConnectorService.connectorOauthCallback settings provider state code error) choices).1
  | revokeConnector settings w tenantId actor connectionId choices =>
      ∀ n, Traced connectorRows connectorEvents (IsRevoked tenantId actor connectionId) w
        (runFor connectorServer n w {}
          (ConnectorService.connectorRevoke settings tenantId actor connectionId) choices).1
  | enableModule registry w process tenantId moduleName choices =>
      ∀ n, Traced moduleRows ModuleScheduler.World.audit
        (· = ⟨tenantId, "core.module.enabled", moduleName⟩) w
        (runFor (ModuleScheduler.serve registry) n w {}
          (ModuleScheduler.enableModule registry process tenantId moduleName) choices).1
  | disableModule registry w process tenantId moduleName choices =>
      ∀ n, Traced moduleRows ModuleScheduler.World.audit
        (· = ⟨tenantId, "core.module.disabled", moduleName⟩) w
        (runFor (ModuleScheduler.serve registry) n w {}
          (ModuleScheduler.disableModule registry process tenantId moduleName) choices).1

/-- The execution is an acceptance, or an invitation of the command line, and it
reaches a commit on the control-plane that takes effect. -/
def CommitsUnrecorded : AuditedRun → Prop
  | directory settings d (.accept token password displayName) choices =>
      ControlCommitLands (DirectoryService.invitationsAccept settings token password displayName)
        d choices
  | cliInvite settings d slug email role choices =>
      ControlCommitLands (DirectoryService.invite settings slug email role) d choices
  | _ => False

end AuditedRun

/-- An audited operation leaves no effect without its trace, wherever its process
stops and whichever commits fail, exactly when it does not commit to the
control-plane before it records. -/
theorem audit_complete_iff (run : AuditedRun) : run.Complete ↔ ¬ run.CommitsUnrecorded := by
  cases run with
  | directory settings d request choices =>
      cases request with
      | accept token password displayName =>
          exact accept_traced_iff settings d token password displayName _ choices
      | invite tenantId actor email role =>
          exact iff_of_true (traced_of_keepsTrace
            (keeps_invitationCreate settings ⟨d, []⟩ tenantId actor email role) choices) id
      | revokeInvitation tenantId actor invitationId =>
          exact iff_of_true (traced_of_keepsTrace
            (keeps_invitationRevoke ⟨d, []⟩ tenantId actor invitationId) choices) id
      | changeRole tenantId actor userId role =>
          exact iff_of_true (traced_of_keepsTrace
            (keeps_memberChangeRole ⟨d, []⟩ tenantId actor userId role) choices) id
      | remove tenantId actor userId =>
          exact iff_of_true (traced_of_keepsTrace
            (keeps_memberRemove ⟨d, []⟩ tenantId actor userId) choices) id
      | createTeam tenantId actor name description =>
          exact iff_of_true (traced_of_keepsTrace
            (keeps_teamCreate ⟨d, []⟩ tenantId actor name description) choices) id
      | deleteTeam tenantId actor teamId =>
          exact iff_of_true (traced_of_keepsTrace
            (keeps_teamDelete ⟨d, []⟩ tenantId actor teamId) choices) id
      | addTeamMember tenantId actor teamId userId =>
          exact iff_of_true (traced_of_keepsTrace
            (keeps_teamMemberAdd ⟨d, []⟩ tenantId actor teamId userId) choices) id
      | removeTeamMember tenantId actor teamId userId =>
          exact iff_of_true (traced_of_keepsTrace
            (keeps_teamMemberRemove ⟨d, []⟩ tenantId actor teamId userId) choices) id
  | cliInvite settings d slug email role choices =>
      exact invite_traced_iff settings d slug email role _ choices
  | provision d slug name choices =>
      exact iff_of_true (traced_of_keepsTrace (keeps_provisionTenant ⟨d, []⟩ slug name) choices) id
  | connect settings w provider state code error choices =>
      exact iff_of_true (traced_of_keepsTrace
        (keeps_connectorOauthCallback settings w provider state code error) choices) id
  | revokeConnector settings w tenantId actor connectionId choices =>
      exact iff_of_true (traced_of_keepsTrace
        (keeps_connectorRevoke settings w tenantId actor connectionId) choices) id
  | enableModule registry w process tenantId moduleName choices =>
      exact iff_of_true (traced_of_keepsTrace
        (keeps_enableModule w process tenantId moduleName) choices) id
  | disableModule registry w process tenantId moduleName choices =>
      exact iff_of_true (traced_of_keepsTrace
        (keeps_disableModule w process tenantId moduleName) choices) id

/-- A tenant with one pending invitation. -/
def invited : Directory :=
  ⟨[⟨1, "acme", "Acme", .active, none⟩], [⟨2, "bob@example.org", none⟩], [], [],
    [⟨3, "bob@example.org", 1, .member, "token", 1000, none, none⟩], [], [], [], String.toLower⟩

def invitationSettings : DirectoryService.Settings := ⟨id, 72, "https://app.exemple.fr"⟩

/-- The tables after the first eight requests of the acceptance, the last of
which is the commit of the membership. -/
def afterMembership : Directory :=
  stoppedAfter (DirectoryService.invitationsAccept invitationSettings "token" none none) invited
    (fun _ => ({}, .served)) 8

/-- The process stops there, before the session of the audit event opens. -/
theorem membership_without_trace :
    afterMembership.memberships = [⟨0, 2, 1, .member⟩] ∧ afterMembership.auditEvents = [] ∧
      ¬ (AuditedRun.directory invitationSettings invited (.accept "token" none none)
        fun _ => ({}, .served)).Complete := by
  have hmembers : afterMembership.memberships = [⟨0, 2, 1, .member⟩] := by decide +kernel
  have hevents : afterMembership.auditEvents = [] := by decide +kernel
  refine ⟨hmembers, hevents, fun hcomplete => ?_⟩
  rcases hcomplete 8 with hsame | hrecorded
  · have hnone : afterMembership.memberships = [] := congrArg Directory.memberships hsame
    rw [hmembers] at hnone
    cases hnone
  · change Recorded _ [] afterMembership.auditEvents at hrecorded
    rw [hevents] at hrecorded
    exact not_recorded_self [] hrecorded

end Socle.AuditCompleteness
