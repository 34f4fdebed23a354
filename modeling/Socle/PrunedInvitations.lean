import Socle.LiveInvitations
import Socle.PrunedTable

/-!
The invitation routes on a directory and on the same directory without some dead
invitations: every statement is answered alike, and every commit does the same.
-/

namespace Socle.PrunedInvitations

open Socle.Procedures
open Socle.DirectoryStore
open Socle.DirectoryService
open Socle.ServiceFootprints
open Socle.LiveInvitations (Reads reads_requirePermission reads_refuseMember)
open Socle.PrunedTable

/-- Dead for every reader from `since` on. -/
def DeadInvitation (since : Instant) (x : Invitation) : Prop := x.expiresAt < since

/-- The second directory lacks dead invitations, and is the first one otherwise. -/
structure PrunedDirectory (since : Instant) (d d' : Directory) : Prop where
  invitations : Pruned (fun i : Invitation => i.tokenHash) (DeadInvitation since) d.invitations
    d'.invitations
  rest : d' = { d with invitations := d'.invitations }

variable {since : Instant} {d d' : Directory} {db db' : Database} {l : Session}

/-- A change of another table. -/
def Plain : Change → Prop
  | .addInvitation _ | .setAccepted .. | .deleteInvitation _ => False
  | _ => True

theorem apply_withInvitations {change : Change} (hplain : Plain change) (d : Directory)
    (invitations : List Invitation) :
    { d with invitations }.apply change =
      (d.apply change).map fun x => { x with invitations } := by
  cases change with
  | addInvitation | setAccepted | deleteInvitation => exact hplain.elim
  | deleteMembership | deleteTeam | deleteTeamMember | addAuditEvent => rfl
  | _ =>
      simp only [Directory.apply, apply_ite (Except.map _)]
      rfl

theorem invitations_apply {change : Change} (hplain : Plain change) {d₁ : Directory}
    (happly : d.apply change = .ok d₁) : d₁.invitations = d.invitations := by
  have hsame : d.apply change =
      (d.apply change).map fun x => { x with invitations := d.invitations } :=
    apply_withInvitations hplain d d.invitations
  rw [happly] at hsame
  injection hsame with hsame
  rw [hsame]

theorem invitations_applyAll {changes : List Change} (hplain : ∀ change ∈ changes, Plain change)
    {d₁ : Directory} (happly : d.applyAll changes = .ok d₁) : d₁.invitations = d.invitations := by
  induction changes generalizing d with
  | nil =>
      cases happly
      rfl
  | cons change changes ih =>
      obtain ⟨hchange, hchanges⟩ := List.forall_mem_cons.mp hplain
      simp only [Directory.applyAll] at happly
      split at happly
      · rename_i d' hd'
        exact (ih hchanges happly).trans (invitations_apply hchange hd')
      · cases happly

theorem traceOf_pruned (h : PrunedDirectory since d d') (change : Change) :
    d'.traceOf change = d.traceOf change := by
  rw [h.rest]
  cases change <;> rfl

/-- The changes fail alike on both, or lead to directories that are still one the
pruning of the other. -/
def CommitAlike (since : Instant) (d d' : Directory) (changes : List Change) : Prop :=
  d'.traceAll changes = d.traceAll changes ∧
    ((∃ e, d.applyAll changes = .error e ∧ d'.applyAll changes = .error e) ∨
      ∃ d₁ d₁', d.applyAll changes = .ok d₁ ∧ d'.applyAll changes = .ok d₁' ∧
        PrunedDirectory since d₁ d₁')

theorem commitAlike_nil (h : PrunedDirectory since d d') : CommitAlike since d d' [] :=
  ⟨rfl, .inr ⟨d, d', rfl, rfl, h⟩⟩

theorem commitAlike_cons {change : Change} {changes : List Change}
    (h : PrunedDirectory since d d')
    (hchange : (∃ e, d.apply change = .error e ∧ d'.apply change = .error e) ∨
      ∃ d₁ d₁', d.apply change = .ok d₁ ∧ d'.apply change = .ok d₁' ∧
        CommitAlike since d₁ d₁' changes) :
    CommitAlike since d d' (change :: changes) := by
  obtain ⟨e, hfails, hfails'⟩ | ⟨d₁, d₁', hok, hok', htrace, hend⟩ := hchange
  · refine ⟨?_, .inl ⟨e, ?_, ?_⟩⟩
    · simp [Directory.traceAll, hfails, hfails', traceOf_pruned h]
    · simp [Directory.applyAll, hfails]
    · simp [Directory.applyAll, hfails']
  · refine ⟨?_, ?_⟩
    · simp [Directory.traceAll, hok, hok', traceOf_pruned h, htrace]
    · simpa [Directory.applyAll, hok, hok'] using hend

theorem commitAlike_plain_cons {change : Change} {changes : List Change}
    (h : PrunedDirectory since d d') (hplain : Plain change)
    (hrest : ∀ d₁ d₁', PrunedDirectory since d₁ d₁' → d₁.invitations = d.invitations →
      d₁'.invitations = d'.invitations → CommitAlike since d₁ d₁' changes) :
    CommitAlike since d d' (change :: changes) := by
  have hcommute : d'.apply change =
      (d.apply change).map fun x => { x with invitations := d'.invitations } := by
    rw [← apply_withInvitations hplain, ← h.rest]
  refine commitAlike_cons h ?_
  cases happly : d.apply change with
  | error e =>
      rw [happly] at hcommute
      exact .inl ⟨e, rfl, hcommute⟩
  | ok d₁ =>
      rw [happly] at hcommute
      have hsame := invitations_apply hplain happly
      have hpruned : PrunedDirectory since d₁ { d₁ with invitations := d'.invitations } :=
        ⟨hsame.symm ▸ h.invitations, rfl⟩
      exact .inr ⟨d₁, _, rfl, hcommute, hrest _ _ hpruned hsame rfl⟩

theorem commitAlike_append {changes last : List Change} (h : PrunedDirectory since d d')
    (hplain : ∀ change ∈ changes, Plain change)
    (hlast : ∀ d₁ d₁', PrunedDirectory since d₁ d₁' → d₁.invitations = d.invitations →
      d₁'.invitations = d'.invitations → CommitAlike since d₁ d₁' last) :
    CommitAlike since d d' (changes ++ last) := by
  induction changes generalizing d d' with
  | nil => exact hlast d d' h rfl rfl
  | cons change changes ih =>
      obtain ⟨hchange, hchanges⟩ := List.forall_mem_cons.mp hplain
      refine commitAlike_plain_cons h hchange fun d₁ d₁' h₁ hsame hsame' => ih h₁ hchanges ?_
      intro d₂ d₂' h₂ heq heq'
      exact hlast d₂ d₂' h₂ (heq.trans hsame) (heq'.trans hsame')

theorem commitAlike_plain {changes : List Change} (h : PrunedDirectory since d d')
    (hplain : ∀ change ∈ changes, Plain change) : CommitAlike since d d' changes := by
  rw [← List.append_nil changes]
  exact commitAlike_append h hplain fun _ _ h₁ _ _ => commitAlike_nil h₁

theorem commitAlike_setAccepted (h : PrunedDirectory since d d') {i : Invitation}
    (hi : i ∈ d'.invitations) (acceptedAt : Instant) :
    CommitAlike since d d' [.setAccepted i.id acceptedAt] := by
  have hfound (x : List Invitation) (hx : i ∈ x) : (x.any fun y => y.id == i.id) = true :=
    List.any_eq_true.mpr ⟨i, hx, by simp⟩
  have hpruned : Pruned (fun i : Invitation => i.tokenHash) (DeadInvitation since)
      (d.invitations.map fun x =>
        if x.id = i.id then { x with acceptedAt := some acceptedAt } else x)
      (d'.invitations.map fun x =>
        if x.id = i.id then { x with acceptedAt := some acceptedAt } else x) := by
    refine h.invitations.map ?_ ?_
    · intro x
      split <;> rfl
    · intro x hdead
      split <;> exact hdead
  refine commitAlike_cons h (.inr ⟨_, _, if_pos (hfound _ (h.invitations.subset hi)),
    if_pos (hfound _ hi), commitAlike_nil ⟨hpruned, ?_⟩⟩)
  rw [h.rest]

theorem commitAlike_addInvitation (h : PrunedDirectory since d d') {i : Invitation}
    (hfresh : ∀ x ∈ d.invitations, x.id ≠ i.id ∧ x.tokenHash ≠ i.tokenHash) :
    CommitAlike since d d' [.addInvitation i] := by
  have hfree (x : List Invitation) (hx : x ⊆ d.invitations) :
      ¬ (x.any fun y => y.id == i.id || y.tokenHash == i.tokenHash) = true := by
    intro htaken
    obtain ⟨y, hy, hclash⟩ := List.any_eq_true.mp htaken
    obtain ⟨hid, hhash⟩ := hfresh y (hx hy)
    simp [hid, hhash] at hclash
  have htenant : d'.hasTenant i.tenantId = d.hasTenant i.tenantId := by
    rw [h.rest]
    rfl
  have hfull : d.apply (.addInvitation i) = if d.hasTenant i.tenantId then
      .ok { d with invitations := d.invitations ++ [i] }
      else .error (.integrity "invitations_tenant_id_fkey") :=
    if_neg (hfree _ fun _ hx => hx)
  have hless : d'.apply (.addInvitation i) = if d.hasTenant i.tenantId then
      .ok { d' with invitations := d'.invitations ++ [i] }
      else .error (.integrity "invitations_tenant_id_fkey") := by
    rw [← htenant]
    exact if_neg (hfree _ h.invitations.subset)
  refine commitAlike_cons h ?_
  rw [hfull, hless]
  split
  · refine .inr ⟨_, _, rfl, rfl, commitAlike_nil ⟨?_, ?_⟩⟩
    · exact h.invitations.append fun x hx => (hfresh x hx).2
    · rw [h.rest]
  · exact .inl ⟨_, rfl, rfl⟩

/-- The tables of a request on both sides. -/
structure PrunedDatabase (since : Instant) (db db' : Database) : Prop where
  directory : PrunedDirectory since db.directory db'.directory
  history : db'.history = db.history

theorem commit_alike (h : PrunedDatabase since db db') {changes : List Change}
    (halike : CommitAlike since db.directory db'.directory changes) :
    (db'.commit changes).2 = (db.commit changes).2 ∧
      PrunedDatabase since (db.commit changes).1 (db'.commit changes).1 := by
  obtain ⟨htrace, ⟨e, hfails, hfails'⟩ | ⟨d₁, d₁', hok, hok', hpruned⟩⟩ := halike
  · simp only [Database.commit, hfails, hfails']
    exact ⟨trivial, h⟩
  · simp only [Database.commit, hok, hok']
    exact ⟨trivial, hpruned, by rw [h.history, htrace]⟩

/-- A statement that reads no invitation and writes none. -/
def PlainRequest : Request → Prop
  | .selectPendingInvitation .. | .selectPendingInvitations _ | .selectInvitationByHash _ => False
  | .getInvitation _ | .addInvitation .. | .setAccepted .. | .deleteInvitation _ => False
  | _ => True

/-- The pending changes are of other tables, up to the `last` ones; the invitations
are still those of two given directories. -/
structure Beside (since : Instant) (d d' : Directory) (last : List Change) (db db' : Database)
    (l : Session) : Prop where
  database : PrunedDatabase since db db'
  full : db.directory.invitations = d.invitations
  pruned : db'.directory.invitations = d'.invitations
  control : ∃ changes, l.control = changes ++ last ∧ ∀ change ∈ changes, Plain change
  tenant : ∀ change ∈ l.tenant, Plain change

variable {last : List Change}

theorem plain_append {changes : List Change} {change : Change}
    (h : ∀ change ∈ changes, Plain change) (hchange : Plain change) :
    ∀ x ∈ changes ++ [change], Plain x := by
  intro x hx
  rcases List.mem_append.mp hx with hold | hnew
  · exact h x hold
  · rw [List.mem_singleton.mp hnew]
    exact hchange

theorem PrunedDatabase.eq (h : PrunedDatabase since db db') :
    db' = ⟨{ db.directory with invitations := db'.directory.invitations }, db.history⟩ := by
  rw [← h.directory.rest, ← h.history]

theorem invitations_commit {changes : List Change} (hplain : ∀ change ∈ changes, Plain change)
    (db : Database) : (db.commit changes).1.directory.invitations = db.directory.invitations := by
  unfold Database.commit
  cases happly : db.directory.applyAll changes with
  | error e => rfl
  | ok d => exact invitations_applyAll hplain happly

theorem Beside.audited (h : Beside since d d' last db db' l) (event : AuditEvent) :
    Beside since d d' last db db' (l.addTenant (.addAuditEvent event)) :=
  ⟨h.database, h.full, h.pruned, h.control, plain_append h.tenant trivial⟩

theorem beside_commitTenant (h : Beside since d d' last db db' l) (c : Choice) :
    (serve db' l .commitTenant c).2 = (serve db l .commitTenant c).2 ∧
      Beside since d d' last (serve db l .commitTenant c).1
        (serve db' l .commitTenant c).1 (serve db l .commitTenant c).2.1 := by
  obtain ⟨hout, hpruned⟩ := commit_alike h.database
    (commitAlike_plain h.database.directory h.tenant)
  refine ⟨?_, hpruned, ?_, ?_, h.control, by simp [serve]⟩
  · simp only [serve, hout]
  · exact (invitations_commit h.tenant db).trans h.full
  · exact (invitations_commit h.tenant db').trans h.pruned

theorem pruned_commitControl (h : Beside since d d' last db db' l)
    (hlast : ∀ d₁ d₁', PrunedDirectory since d₁ d₁' → d₁.invitations = d.invitations →
      d₁'.invitations = d'.invitations → CommitAlike since d₁ d₁' last) (c : Choice) :
    (serve db' l .commitControl c).2 = (serve db l .commitControl c).2 ∧
      PrunedDatabase since (serve db l .commitControl c).1 (serve db' l .commitControl c).1 := by
  obtain ⟨changes, hcontrol, hplain⟩ := h.control
  have halike : CommitAlike since db.directory db'.directory l.control := by
    rw [hcontrol]
    refine commitAlike_append h.database.directory hplain fun d₁ d₁' hpruned heq heq' => ?_
    exact hlast d₁ d₁' hpruned (heq.trans h.full) (heq'.trans h.pruned)
  obtain ⟨hout, hpruned⟩ := commit_alike h.database halike
  refine ⟨?_, hpruned⟩
  simp only [serve, hout]

theorem beside_serve {r : Request} {c : Choice} (hr : PlainRequest r)
    (h : Beside since d d' [] db db' l) :
    (serve db' l r c).2 = (serve db l r c).2 ∧
      Beside since d d' [] (serve db l r c).1 (serve db' l r c).1 (serve db l r c).2.1 := by
  have hdb' := h.database.eq
  obtain ⟨changes, hcontrol, hplain⟩ := h.control
  rw [List.append_nil] at hcontrol
  subst hcontrol
  have hadd (change : Change) (hchange : Plain change) : ∃ changes,
      (l.addControl change).control = changes ++ [] ∧ ∀ change ∈ changes, Plain change :=
    ⟨_, (List.append_nil _).symm, plain_append hplain hchange⟩
  cases r with
  | selectPendingInvitation | selectPendingInvitations | selectInvitationByHash | getInvitation
  | addInvitation | setAccepted | deleteInvitation => exact hr.elim
  | commitTenant => exact beside_commitTenant h c
  | commitControl =>
      obtain ⟨hout, hpruned⟩ := pruned_commitControl h (fun _ _ h _ _ => commitAlike_nil h) c
      refine ⟨hout, hpruned, ?_, ?_, ⟨[], rfl, by simp⟩, h.tenant⟩
      · exact (invitations_commit hplain db).trans h.full
      · exact (invitations_commit hplain db').trans h.pruned
  | selectMembership tenantId userId =>
      have hrow : db'.directory.getMembership tenantId userId =
          db.directory.getMembership tenantId userId := by
        rw [hdb']
        rfl
      simp only [serve, hrow, h.database.history, Session.resolve]
      cases db.directory.getMembership tenantId userId with
      | none => exact ⟨rfl, h⟩
      | some row =>
          refine ⟨rfl, ?_⟩
          dsimp only
          split <;> exact ⟨h.database, h.full, h.pruned, h.control, h.tenant⟩
  | addUser | setDisplayName | setPassword | addMembership | deleteMembership =>
      exact ⟨rfl, h.database, h.full, h.pruned, hadd _ trivial, h.tenant⟩
  | setRole membership role =>
      refine ⟨rfl, h.database, h.full, h.pruned, ?_, ?_⟩
      · simp only [serve]
        split
        · exact h.control
        · exact hadd _ trivial
      · simp only [serve]
        split <;> exact h.tenant
  | addTeam | deleteTeam | addTeamMember | deleteTeamMember | addTenant | addAuditEvent =>
      exact ⟨rfl, h.database, h.full, h.pruned, h.control, plain_append h.tenant trivial⟩
  | _ =>
      rw [hdb']
      exact ⟨rfl, hdb' ▸ h.database, h.full, h.pruned, h.control, h.tenant⟩

/-- The choices of a request: no clock reading before `since`, fresh tokens and
fresh keys. -/
structure Fresh (settings : Settings) (since : Instant) (d : Directory) (c : Choice) : Prop where
  now : since ≤ c.now
  unused : ∀ x ∈ d.invitations, x.id ≠ c.uuid ∧ x.tokenHash ≠ settings.hashToken c.token

variable {α : Type} {ok : Choice → Prop} {p : DirectoryProc α}

theorem agree_plain (hp : Makes PlainRequest p) (h : Beside since d d' [] db db' l) :
    Agree serve ok (fun db db' l _ => Beside since d d' [] db db' l) db db' l p := by
  refine hp.agree (R := Beside since d d' []) ?_ h
  intro db db' l r c hr _ h
  exact beside_serve hr h

theorem agree_asHttp {Q : Database → Database → Session → Except Failure α → Prop}
    (hp : Agree serve ok Q db db' l p)
    (herror : ∀ db db' l e e', Q db db' l (.error e) → Q db db' l (.error e'))
    (status : Nat) (caught : Failure → Option String) :
    Agree serve ok Q db db' l (asHttp status caught p) := by
  refine agree_attempt_bind hp ?_
  rintro db db' l (e | a) hout
  · dsimp only
    cases caught e with
    | none => exact hout
    | some detail => exact herror db db' l e _ hout
  · exact hout

theorem plain_of_reads (r : Request) (hr : Reads r) : PlainRequest r := by
  cases r with
  | pushTenant | selectMembership | selectUserByEmail | selectTenantBySlug => trivial
  | _ => exact hr.elim

/-- What `create_invitation` leaves: when it returns, a pending invitation whose
key and hash are free. -/
structure Created (since : Instant) (d d' : Directory) (i : Invitation) (db db' : Database)
    (l : Session) : Prop where
  beside : Beside since d d' [.addInvitation i] db db' l
  unused : ∀ x ∈ d.invitations, x.id ≠ i.id ∧ x.tokenHash ≠ i.tokenHash

theorem agree_selectPendingInvitation (h : Beside since d d' [] db db' l) {now : Instant}
    (hnow : since ≤ now) (tenantId : Nat) (email : String) :
    Agree serve ok (fun db db' l _ => Beside since d d' [] db db' l) db db' l
      (ask (.selectPendingInvitation tenantId email now)) := by
  have hpending : db.directory.pendingInvitation tenantId email now =
      db'.directory.pendingInvitation tenantId email now := by
    have hlower : db.directory.lower = db'.directory.lower := by
      rw [h.database.directory.rest]
    simp only [Directory.pendingInvitation, hlower]
    refine h.database.directory.invitations.find? fun i hdead => ?_
    have hexpired : ¬ now < i.expiresAt :=
      Int.not_lt.mpr (Int.le_trans (Int.le_of_lt hdead) hnow)
    simp [hexpired]
  refine fun c _ => ⟨?_, h⟩
  simp only [serve, hpending]

theorem agree_createInvitation {settings : Settings} (h : Beside since d d' [] db db' l)
    (tenantId : Nat) (email role : String) (actorRole : Option Role)
    (invitedByUserId : Option Nat) :
    Agree serve (Fresh settings since d)
      (fun db db' l out => PrunedDatabase since db db' ∧ ∀ result : Invitation × String,
        out = .ok result → Created since d d' result.1 db db' l) db db' l
      (createInvitation settings tenantId email role actorRole invitedByUserId) := by
  unfold createInvitation
  cases validateRole role with
  | error e => exact ⟨h.database, by simp⟩
  | ok role =>
      simp only [Proc.ofExcept, Proc.ret_bind]
      split
      · exact ⟨h.database, by simp⟩
      refine agree_bind (agree_plain ((reads_refuseMember tenantId email).mono plain_of_reads) h)
        ?_ fun _ _ _ e h => ⟨h.database, by simp⟩
      intro db db' l _ h
      refine agree_request_bind.mpr fun c hc => ⟨rfl, ?_⟩
      refine agree_bind (agree_selectPendingInvitation h hc.now tenantId email) ?_
        fun _ _ _ e h => ⟨h.database, by simp⟩
      intro db db' l pending h
      split
      · exact ⟨h.database, by simp⟩
      -- The token, the clock reading that dates the invitation, the key.
      refine agree_request_bind.mpr fun c₁ hc₁ => ⟨rfl, ?_⟩
      refine agree_request_bind.mpr fun _ _ => ⟨rfl, fun c₃ hc₃ => ⟨rfl, h.database, ?_⟩⟩
      rintro _ ⟨⟩
      obtain ⟨changes, hcontrol, hplain⟩ := h.control
      refine ⟨⟨h.database, h.full, h.pruned, ⟨changes, ?_, hplain⟩, h.tenant⟩, ?_⟩
      · rw [List.append_nil] at hcontrol
        simp [serve, Session.addControl, hcontrol]
      · exact fun x hx => ⟨(hc₃.unused x hx).1, (hc₁.unused x hx).2⟩

theorem agree_committed {Q : Database → Database → Session → Except Failure Unit → Prop}
    (hQ : ∀ out, Q db db' l out) (x : Except DatabaseError Unit) :
    Agree serve ok Q db db' l (committed x) := by
  cases x with
  | error e => exact hQ _
  | ok _ => exact hQ _

theorem agree_commitTenant (h : Beside since d d' last db db' l) :
    Agree serve ok (fun db db' l _ => Beside since d d' last db db' l) db db' l
      commitTenant := by
  refine agree_request_bind.mpr fun c _ => ?_
  obtain ⟨hout, hbeside⟩ := beside_commitTenant h c
  exact ⟨hout, agree_committed (fun _ => hbeside) _⟩

theorem agree_commitControl (h : Beside since d d' last db db' l)
    (hlast : ∀ d₁ d₁', PrunedDirectory since d₁ d₁' → d₁.invitations = d.invitations →
      d₁'.invitations = d'.invitations → CommitAlike since d₁ d₁' last) :
    Agree serve ok (fun db db' l _ => Beside since db.directory db'.directory [] db db' l) db db' l
      commitControl := by
  refine agree_request_bind.mpr fun c _ => ?_
  obtain ⟨hout, hpruned⟩ := pruned_commitControl h hlast c
  refine ⟨hout, agree_committed (fun _ => ?_) _⟩
  exact ⟨hpruned, rfl, rfl, ⟨[], rfl, by simp⟩, h.tenant⟩

theorem agree_commitCreated {i : Invitation} (h : Created since d d' i db db' l) :
    Agree serve ok (fun db db' l _ => Beside since db.directory db'.directory [] db db' l) db db' l
      commitControl := by
  refine agree_commitControl h.beside fun d₁ d₁' hpruned hsame _ => ?_
  exact commitAlike_addInvitation hpruned (hsame ▸ h.unused)

theorem agree_invitationCreate {settings : Settings} (h : PrunedDatabase since db db')
    (tenantId : Nat) (actor : User) (email role : String) :
    Agree serve (Fresh settings since db.directory)
      (fun db db' _ _ => PrunedDatabase since db db') db db' {}
      (invitationCreate settings tenantId actor email role) := by
  have hstart : Beside since db.directory db'.directory [] db db' {} :=
    ⟨h, rfl, rfl, ⟨[], rfl, by simp⟩, by simp⟩
  refine agree_bind (agree_plain ((reads_requirePermission tenantId actor _).mono plain_of_reads)
    hstart) ?_ fun _ _ _ e h => h.database
  intro db₁ db₁' l₁ actorRole h₁
  refine agree_bind (agree_asHttp (agree_createInvitation h₁ tenantId email role _ _) ?_ _ _) ?_
    fun _ _ _ e h => h.1
  · exact fun _ _ _ e e' h => ⟨h.1, by simp⟩
  rintro db₂ db₂' l₂ ⟨i, token⟩ ⟨-, hcreated⟩
  obtain ⟨hbeside, hunused⟩ := hcreated (i, token) rfl
  refine agree_request_bind.mpr fun c _ => ⟨rfl, ?_⟩
  refine agree_bind (agree_commitTenant (hbeside.audited _)) ?_ fun _ _ _ e h => h.database
  intro db₃ db₃' l₃ _ h₃
  refine agree_bind (agree_commitCreated ⟨h₃, hunused⟩) ?_ fun _ _ _ _ h => h.database
  exact fun _ _ _ _ h => h.database

theorem agree_invite {settings : Settings} (h : PrunedDatabase since db db')
    (slug email role : String) :
    Agree serve (Fresh settings since db.directory)
      (fun db db' _ _ => PrunedDatabase since db db') db db' {}
      (invite settings slug email role) := by
  have hstart : Beside since db.directory db'.directory [] db db' {} :=
    ⟨h, rfl, rfl, ⟨[], rfl, by simp⟩, by simp⟩
  have htenant : Makes PlainRequest (ask (.selectTenantBySlug slug)) := ⟨trivial, fun _ => trivial⟩
  refine agree_bind (agree_plain htenant hstart) ?_ fun _ _ _ e h => h.database
  rintro db₁ db₁' l₁ (_ | tenant) h₁
  · exact h₁.database
  refine agree_bind (agree_createInvitation h₁ tenant.id email role _ _) ?_ fun _ _ _ e h => h.1
  rintro db₂ db₂' l₂ ⟨i, token⟩ ⟨-, hcreated⟩
  refine agree_bind (agree_commitCreated (hcreated (i, token) rfl)) ?_
    fun _ _ _ _ h => h.database
  exact fun _ _ _ _ h => h.database

theorem plain_invitedUser (i : Invitation) (password displayName : Option String) :
    Makes PlainRequest (invitedUser i password displayName) := by
  refine makes_ask_bind trivial ?_
  rintro (_ | user)
  · refine makes_ask_bind trivial fun user => ?_
    dsimp only
    split
    · exact makes_ask_bind trivial fun _ => trivial
    · trivial
  · refine Makes.bind ?_ fun user => ?_
    · unfold adoptDisplayName
      split
      · exact makes_ask_bind trivial fun _ => trivial
      · trivial
    · split <;> trivial

/-- What `accept_invitation` leaves when it returns: a row that is in both tables is
about to be marked. -/
def Marking (since : Instant) (d d' : Directory) (db db' : Database) (l : Session) : Prop :=
  ∃ i ∈ d'.invitations, ∃ acceptedAt,
    Beside since d d' [.setAccepted i.id acceptedAt] db db' l

theorem agree_acceptInvitation {settings : Settings} (h : PrunedDatabase since db db')
    {token : String} (hsame :
      (db.directory.invitations.find? fun i => i.tokenHash == settings.hashToken token) =
        db'.directory.invitations.find? fun i => i.tokenHash == settings.hashToken token)
    (password displayName : Option String) :
    Agree serve ok
      (fun t t' l out => PrunedDatabase since t t' ∧ ∀ result : User × Invitation,
        out = .ok result → Marking since db.directory db'.directory t t' l) db db' {}
      (acceptInvitation settings token password displayName) := by
  refine agree_request_bind.mpr fun c _ => ⟨?_, ?_⟩
  · simp only [serve, hsame]
  simp only [serve, hsame]
  cases hfind : db'.directory.invitations.find? fun i =>
      i.tokenHash == settings.hashToken token with
  | none => exact ⟨h, by simp⟩
  | some i =>
      have hstart : Beside since db.directory db'.directory [] db db' {} :=
        ⟨h, rfl, rfl, ⟨[], rfl, by simp⟩, by simp⟩
      refine agree_request_bind.mpr fun c _ => ⟨rfl, ?_⟩
      dsimp only
      split
      · exact ⟨h, by simp⟩
      refine agree_bind (agree_plain (plain_invitedUser i password displayName) hstart) ?_
        fun _ _ _ e h => ⟨h.database, by simp⟩
      intro db₁ db₁' l₁ user h₁
      have hmembership : Makes PlainRequest (ask (.selectMembership i.tenantId user.id)) :=
        ⟨trivial, fun _ => trivial⟩
      refine agree_bind (agree_plain hmembership h₁) ?_ fun _ _ _ e h => ⟨h.database, by simp⟩
      intro db₂ db₂' l₂ found h₂
      split
      · exact ⟨h₂.database, by simp⟩
      refine agree_request_bind.mpr fun c _ => ?_
      obtain ⟨hout, h₃⟩ := beside_serve (c := c)
        (r := .addMembership user.id i.tenantId i.role) trivial h₂
      refine ⟨hout, agree_request_bind.mpr fun c _ => ⟨rfl, fun _ _ => ⟨rfl, h₃.database, ?_⟩⟩⟩
      rintro _ ⟨⟩
      obtain ⟨changes, hcontrol, hplain⟩ := h₃.control
      refine ⟨i, List.mem_of_find?_eq_some hfind, c.now, h₃.database, h₃.full, h₃.pruned,
        ⟨changes, ?_, hplain⟩, h₃.tenant⟩
      rw [List.append_nil] at hcontrol
      rw [← hcontrol]
      rfl

theorem agree_invitationsAccept {settings : Settings} (h : PrunedDatabase since db db')
    {token : String} (hsame :
      (db.directory.invitations.find? fun i => i.tokenHash == settings.hashToken token) =
        db'.directory.invitations.find? fun i => i.tokenHash == settings.hashToken token)
    (password displayName : Option String) :
    Agree serve ok (fun db db' _ _ => PrunedDatabase since db db') db db' {}
      (invitationsAccept settings token password displayName) := by
  refine agree_bind (agree_asHttp (agree_acceptInvitation h hsame password displayName) ?_ _ _) ?_
    fun _ _ _ e h => h.1
  · exact fun _ _ _ e e' h => ⟨h.1, by simp⟩
  rintro db₁ db₁' l₁ ⟨user, invitation⟩ ⟨-, hmarking⟩
  obtain ⟨i, hi, acceptedAt, hbeside⟩ := hmarking (user, invitation) rfl
  refine agree_bind (agree_commitControl hbeside ?_) ?_ fun _ _ _ _ h => h.database
  · intro d d' hpruned _ hsame'
    exact commitAlike_setAccepted hpruned (hsame' ▸ hi) acceptedAt
  intro db₂ db₂' l₂ _ h₂
  have htenant : Makes PlainRequest (ask (.getTenant invitation.tenantId)) :=
    ⟨trivial, fun _ => trivial⟩
  refine agree_bind (agree_plain htenant h₂) ?_ fun _ _ _ _ h => h.database
  rintro db₃ db₃' l₃ (_ | tenant) h₃
  · exact h₃.database
  refine agree_request_bind.mpr fun _ _ => ⟨rfl, agree_request_bind.mpr fun _ _ => ⟨rfl, ?_⟩⟩
  have hpushed : Beside since db₂.directory db₂'.directory [] db₃ db₃'
      { l₃ with tenantId := tenant.id } := ⟨h₃.database, h₃.full, h₃.pruned, h₃.control, h₃.tenant⟩
  refine agree_bind (agree_commitTenant (hpushed.audited _)) ?_ fun _ _ _ _ h => h.database
  exact fun _ _ _ _ h => h.database

theorem refuses_dead {settings : Settings} {token : String}
    (hdead : ∀ i, (db.directory.invitations.find? fun i =>
      i.tokenHash == settings.hashToken token) = some i → DeadInvitation since i)
    (password displayName : Option String) :
    EnsuresIf serve (fun _ _ _ c => since ≤ c.now)
      (fun t _ out => t = db ∧ out = .error (.http 400 "Invitation invalide ou expirée.")) db {}
      (invitationsAccept settings token password displayName) := by
  refine ensuresIf_bind (Q := fun t _ out => t = db ∧
    out = .error (.http 400 "Invitation invalide ou expirée.")) ?_ (by simp) (by simp)
  refine ensuresIf_attempt_bind (Q := fun t _ out => t = db ∧
    out = .error (.directoryError "Invitation invalide ou expirée.")) ?_ ?_
  · refine ensuresIf_request_bind.mpr fun c _ => ?_
    simp only [serve]
    cases hfind : db.directory.invitations.find? fun i =>
        i.tokenHash == settings.hashToken token with
    | none => exact ⟨rfl, rfl⟩
    | some i =>
        refine ensuresIf_request_bind.mpr fun c hnow => ?_
        have hexpired : i.expiresAt < c.now := Int.lt_of_lt_of_le (hdead i hfind) hnow
        simp only [serve, hexpired, or_true, if_true]
        exact ⟨rfl, rfl⟩
  · rintro t l _ ⟨rfl, rfl⟩
    exact ⟨rfl, rfl⟩

theorem eval_refused {settings : Settings} {token : String}
    (hdead : ∀ i, (db.directory.invitations.find? fun i =>
      i.tokenHash == settings.hashToken token) = some i → DeadInvitation since i)
    {choices : Nat → Choice} (hnow : ∀ n, since ≤ (choices n).now)
    (password displayName : Option String) :
    (eval serve (invitationsAccept settings token password displayName) db {} choices).1 = db ∧
      (eval serve (invitationsAccept settings token password displayName) db {} choices).2.2 =
        .error (.http 400 "Invitation invalide ou expirée.") :=
  eval_of_ensuresIf (refuses_dead hdead password displayName) choices
    (evalMeets_of_choices (P := fun c : Choice => since ≤ c.now) hnow _ _ _)

/-- Executed alone on both sides, the procedure returns the same. -/
def SameResult (since : Instant) (p : DirectoryProc α) (db db' : Database)
    (choices : Nat → Choice) : Prop :=
  (eval serve p db' {} choices).2.2 = (eval serve p db {} choices).2.2 ∧
    PrunedDatabase since (eval serve p db {} choices).1 (eval serve p db' {} choices).1

theorem sameResult_of_agree {choices : Nat → Choice}
    (hp : Agree serve ok (fun db db' _ _ => PrunedDatabase since db db') db db' {} p)
    (hok : ∀ n, ok (choices n)) : SameResult since p db db' choices := by
  obtain ⟨hout, hpruned⟩ := eval_of_agree hp hok
  exact ⟨congrArg Prod.snd hout, hpruned⟩

theorem sameResult_invitationsAccept {settings : Settings} (h : PrunedDatabase since db db')
    {choices : Nat → Choice} (hnow : ∀ n, since ≤ (choices n).now) (token : String)
    (password displayName : Option String) :
    SameResult since (invitationsAccept settings token password displayName) db db' choices := by
  rcases h.directory.invitations.find?_key (settings.hashToken token) with
    hsame | ⟨hnone, i, hi, hdead⟩
  · have hagree : Agree serve (fun c => since ≤ c.now)
        (fun db db' _ _ => PrunedDatabase since db db') db db' {}
        (invitationsAccept settings token password displayName) :=
      agree_invitationsAccept h hsame password displayName
    exact sameResult_of_agree hagree hnow
  · have hrefused : ∀ x, (db.directory.invitations.find? fun i =>
        i.tokenHash == settings.hashToken token) = some x → DeadInvitation since x := by
      intro x hx
      rw [Option.some.inj (hi.symm.trans hx)] at hdead
      exact hdead
    have habsent : ∀ x, (db'.directory.invitations.find? fun i =>
        i.tokenHash == settings.hashToken token) = some x → DeadInvitation since x := by
      intro x hx
      cases hnone.symm.trans hx
    obtain ⟨hdb, hout⟩ := eval_refused hrefused hnow password displayName
    obtain ⟨hdb', hout'⟩ := eval_refused habsent hnow password displayName
    refine ⟨hout'.trans hout.symm, ?_⟩
    rw [hdb, hdb']
    exact h

end Socle.PrunedInvitations
