import Socle.InvitationOnce

/-!
The invitations that are still good for one person: creation, acceptance and
purge each compare an expiry with the clock in their own way.  Requests run one
at a time, and the clock never goes back.
-/

namespace Socle.LiveInvitations

open Socle.GuardedRuns
open Socle.Procedures
open Socle.DirectoryStore
open Socle.DirectoryService
open Socle.ServiceFootprints
open Socle.InvitationOnce (allowed Shape Audits follows_of_lawful)

/-- The database and the last reading of the clock. -/
structure Clocked where
  database : Database
  clock : Instant

/-- The statements under a clock that never goes back: `datetime.now(UTC)` reads
any instant from the last one read. -/
def tick : Serve DirectoryInterface Clocked Session Choice
  | t, l, r, c =>
      let now := max t.clock c.now
      let out := serve t.database l r { c with now }
      let clock := match r with
        | .now => now
        | _ => t.clock
      (⟨out.1, clock⟩, out.2)

inductive Operation where
  | create (tenantId : Nat) (actor : User) (email role : String)
  | invite (slug email role : String)
  | revoke (tenantId : Nat) (actor : User) (invitationId : Nat)
  | accept (token : String) (password displayName : Option String)
  | remove (tenantId : Nat) (actor : User) (userId : Nat)
  | purge

/-- What is left between two operations. -/
structure State where
  directory : Directory
  clock : Instant

/-- The last statement of `purge_expired_auth_rows`. -/
def purgeInvitations (now : Instant) (d : Directory) : Directory :=
  { d with invitations := d.invitations.filter fun i =>
      !(decide (i.expiresAt < now) && i.acceptedAt.isNone) }

section Operations

variable {α : Type} (settings : Settings)

/-- A procedure, executed alone with the choices of its environment. -/
def conduct (p : DirectoryProc α) (s : State) (choices : Nat → Choice) : State :=
  let out := (eval tick p ⟨⟨s.directory, []⟩, s.clock⟩ {} choices).1
  ⟨out.database.directory, out.clock⟩

def handle (s : State) : Operation × (Nat → Choice) → Option State
  | (.create tenantId actor email role, c) =>
      some (conduct (invitationCreate settings tenantId actor email role) s c)
  | (.invite slug email role, c) => some (conduct (invite settings slug email role) s c)
  | (.revoke tenantId actor invitationId, c) =>
      some (conduct (invitationRevoke tenantId actor invitationId) s c)
  | (.accept token password displayName, c) =>
      some (conduct (invitationsAccept settings token password displayName) s c)
  | (.remove tenantId actor userId, c) => some (conduct (memberRemove tenantId actor userId) s c)
  | (.purge, c) =>
      let now := max s.clock (c 0).now
      some ⟨purgeInvitations now s.directory, now⟩

/-- `accept_invitation`, called at the instant `t` with some token, would return
this invitation. -/
def WouldAccept (d : Directory) (t : Instant) (i : Invitation) : Prop :=
  ∃ token password displayName user, ∃ choices : Nat → Choice, (∀ n, (choices n).now = t) ∧
    (eval serve (acceptInvitation settings token password displayName) ⟨d, []⟩ {} choices).2.2 =
      .ok (user, i)

end Operations

/-- For the same person in the same tenant. -/
def SamePerson (lower : String → String) (tenantId : Nat) (email : String) (i : Invitation) :
    Prop :=
  i.tenantId = tenantId ∧ lower i.email = lower email

/-- The side condition on a request: an invitation is not added at the very
microsecond at which one of the same person, not accepted, expires. -/
def addsBesideExpiry (t : Clocked) (_ : Session) (r : Request) (_ : Choice) : Prop :=
  match r with
  | .addInvitation email tenantId _ _ _ _ => ∀ i ∈ t.database.directory.invitations,
      SamePerson t.database.directory.lower tenantId email i → i.acceptedAt = none →
      i.expiresAt ≠ t.clock
  | _ => True

def createsBesideExpiry (settings : Settings) (s : State) : Operation × (Nat → Choice) → Prop
  | (.create tenantId actor email role, c) =>
      EvalMeets tick addsBesideExpiry (invitationCreate settings tenantId actor email role)
        ⟨⟨s.directory, []⟩, s.clock⟩ {} c
  | (.invite slug email role, c) =>
      EvalMeets tick addsBesideExpiry (invite settings slug email role)
        ⟨⟨s.directory, []⟩, s.clock⟩ {} c
  | _ => True

instance (lower : String → String) (tenantId : Nat) (email : String) (i : Invitation) :
    Decidable (SamePerson lower tenantId email i) :=
  inferInstanceAs (Decidable (_ ∧ _))

instance (t : Clocked) (l : Session) (r : Request) (c : Choice) :
    Decidable (addsBesideExpiry t l r c) := by
  unfold addsBesideExpiry
  split <;> infer_instance

instance (settings : Settings) (s : State) (event : Operation × (Nat → Choice)) :
    Decidable (createsBesideExpiry settings s event) := by
  unfold createsBesideExpiry
  split <;> infer_instance

/-- What `accept_invitation` has checked at the instant `t`. -/
structure Good (d : Directory) (t : Instant) (i : Invitation) : Prop where
  stored : i ∈ d.invitations
  pending : i.acceptedAt = none
  live : t ≤ i.expiresAt
  outside : ∀ user, d.userByEmail i.email = some user →
    d.getMembership i.tenantId user.id = none

theorem ensuresIf_invitedUser {cond : Database → Session → Request → Choice → Prop}
    {db : Database} {l : Session} (i : Invitation) (password displayName : Option String) :
    EnsuresIf serve cond
      (fun db' _ out => db' = db ∧ ∀ user : User, out = .ok user →
        ∀ found, db.directory.userByEmail i.email = some found → user.id = found.id)
      db l (invitedUser i password displayName) := by
  refine ensuresIf_request_bind.mpr fun c _ => ?_
  simp only [serve]
  cases hfound : db.directory.userByEmail i.email with
  | none =>
      refine ensuresIf_request_bind.mpr fun c _ => ?_
      split
      · exact fun c _ => ⟨rfl, by simp⟩
      · exact ⟨rfl, by simp⟩
  | some user =>
      refine ensuresIf_bind (Q := fun db' _ out => db' = db ∧
        ∀ u : User, out = .ok u → u.id = user.id) ?_ ?_ (by simp +contextual)
      · unfold adoptDisplayName
        split
        · refine fun c _ => ⟨rfl, ?_⟩
          rintro _ ⟨⟩
          rfl
        · refine ⟨rfl, ?_⟩
          rintro _ ⟨⟩
          rfl
      · rintro db' l' u ⟨rfl, hu⟩
        have hid := hu u rfl
        split
        · exact ⟨rfl, by simp⟩
        · refine ⟨rfl, ?_⟩
          rintro _ ⟨⟩ _ ⟨⟩
          exact hid

theorem ensuresIf_selectMembership {cond : Database → Session → Request → Choice → Prop}
    {db : Database} {l : Session} (tenantId userId : Nat) :
    EnsuresIf serve cond
      (fun _ _ out => ∀ found : Option Membership, out = .ok found → found = none →
        db.directory.getMembership tenantId userId = none)
      db l (ask (.selectMembership tenantId userId)) := by
  intro c _
  simp only [serve]
  cases db.directory.getMembership tenantId userId with
  | none => exact fun _ _ _ => rfl
  | some row =>
      rintro _ ⟨⟩ hnone
      cases hnone

theorem ensuresIf_acceptInvitation (settings : Settings) (d : Directory) (t : Instant)
    (token : String) (password displayName : Option String) :
    EnsuresIf serve (fun _ _ _ c => c.now = t)
      (fun _ _ out => ∀ result : User × Invitation, out = .ok result → Good d t result.2)
      ⟨d, []⟩ {} (acceptInvitation settings token password displayName) := by
  refine ensuresIf_request_bind.mpr fun c _ => ?_
  simp only [serve]
  cases hfind : d.invitations.find? fun i => i.tokenHash == settings.hashToken token with
  | none => simp [EnsuresIf]
  | some i =>
      refine ensuresIf_request_bind.mpr fun c hnow => ?_
      simp only [serve, hnow]
      split
      · simp [EnsuresIf]
      rename_i hvalid
      refine ensuresIf_bind (ensuresIf_invitedUser i password displayName) ?_ (by simp)
      rintro db l user ⟨rfl, huser⟩
      refine ensuresIf_bind (ensuresIf_selectMembership i.tenantId user.id) ?_ (by simp)
      rintro db l found hfound
      split
      · simp [EnsuresIf]
      · rename_i hnone
        have habsent := hfound found rfl (by simpa using hnone)
        refine fun c _ c _ c _ => ?_
        rintro _ ⟨⟩
        refine ⟨List.mem_of_find?_eq_some hfind, by simpa using (not_or.mp hvalid).1, ?_, ?_⟩
        · exact Int.not_lt.mp (not_or.mp hvalid).2
        · intro owner howner
          rw [← huser user rfl owner howner]
          exact habsent

theorem good_of_wouldAccept {settings : Settings} {d : Directory} {t : Instant} {i : Invitation}
    (h : WouldAccept settings d t i) : Good d t i := by
  obtain ⟨token, password, displayName, user, choices, hnow, hout⟩ := h
  exact eval_of_ensuresIf (ensuresIf_acceptInvitation settings d t token password displayName)
    choices (evalMeets_of_choices hnow _ _ _) (user, i) hout

/-- From the reading `clock` of the clock on, at most one invitation of a person
can still be accepted. -/
def Alone (d : Directory) (clock : Instant) : Prop :=
  ∀ i ∈ d.invitations, ∀ i' ∈ d.invitations, i.acceptedAt = none → i'.acceptedAt = none →
    SamePerson d.lower i.tenantId i.email i' → clock ≤ i.expiresAt → clock ≤ i'.expiresAt → i = i'

/-- No invitation becomes pending. -/
structure Fewer (d d' : Directory) : Prop where
  lower : d'.lower = d.lower
  pending : ∀ i ∈ d'.invitations, i.acceptedAt = none → i ∈ d.invitations

theorem Fewer.trans {d d' d'' : Directory} (h : Fewer d d') (h' : Fewer d' d'') : Fewer d d'' :=
  ⟨h'.lower.trans h.lower, fun i hi hpending =>
    h.pending i (h'.pending i hi hpending) hpending⟩

theorem Alone.fewer {d d' : Directory} {clock clock' : Instant} (h : Alone d clock)
    (hfewer : Fewer d d') (hclock : clock ≤ clock') : Alone d' clock' := by
  intro i hi i' hi' hpending hpending' hsame hlive hlive'
  rw [hfewer.lower] at hsame
  exact h i (hfewer.pending i hi hpending) i' (hfewer.pending i' hi' hpending') hpending hpending'
    hsame (Int.le_trans hclock hlive) (Int.le_trans hclock hlive')

theorem fewer_commit {d d' : Directory} {changes : List Change} (hshape : Shape changes)
    (hcommit : d.applyAll changes = .ok d') : Fewer d d' := by
  refine ⟨Directory.lower_applyAll hcommit, ?_⟩
  cases hshape with
  | accepting changes m id acceptedAt hpersonal =>
      obtain ⟨-, -, -, hinvitations⟩ := InvitationOnce.rows_of_accepting hpersonal hcommit
      intro i hi hpending
      rw [hinvitations] at hi
      obtain ⟨x, hx, rfl⟩ := List.mem_map.mp hi
      by_cases hid : x.id = id
      · simp [hid] at hpending
      · rw [if_neg hid]
        exact hx
  | retracting hretracts =>
      intro i hi _
      rw [InvitationOnce.invitations_of_retracting hretracts hcommit] at hi
      exact List.mem_of_mem_filter hi

/-- What the routes other than a creation keep, request by request. -/
structure Calm (d : Directory) (clock : Instant) (t : Clocked) : Prop where
  fewer : Fewer d t.database.directory
  clock : clock ≤ t.clock

theorem clock_tick (t : Clocked) (l : Session) (r : Request) (c : Choice) :
    t.clock ≤ (tick t l r c).1.clock := by
  unfold tick
  cases r with
  | now => exact Int.le_max_left _ _
  | _ => exact Int.le_refl _

theorem fewer_serve {d : Directory} {db : Database} {l : Session} {r : Request} (c : Choice)
    (h : Fewer d db.directory) (hallowed : allowed l r) : Fewer d (serve db l r c).1.directory := by
  cases r with
  | commitControl =>
      simp only [serve, Database.commit]
      split
      · rename_i d' hcommit
        exact h.trans (fewer_commit hallowed hcommit)
      · exact h
  | commitTenant =>
      simp only [serve, Database.commit]
      split
      · rename_i d' hcommit
        refine h.trans ⟨Directory.lower_applyAll hcommit, ?_⟩
        intro i hi _
        rwa [InvitationOnce.invitations_of_audits hallowed hcommit] at hi
      · exact h
  | selectMembership tenantId userId =>
      simp only [serve]
      split <;> exact h
  | _ => exact h

theorem calm_conduct {α : Type} {p : DirectoryProc α}
    (hp : Follows serve allowed (fun _ _ => True) {} p) (s : State) (choices : Nat → Choice) :
    Fewer s.directory (conduct p s choices).directory ∧
      s.clock ≤ (conduct p s choices).clock := by
  have hticks : Follows tick allowed (fun _ _ => True) {} p :=
    hp.view Clocked.database fun t l r c => ⟨{ c with now := max t.clock c.now }, rfl⟩
  have hend : Calm s.directory s.clock (eval tick p ⟨⟨s.directory, []⟩, s.clock⟩ {} choices).1 :=
    eval_invariant (G := fun t _ => Calm s.directory s.clock t)
      (fun t l r c h hallowed => ⟨fewer_serve _ h.fewer hallowed,
        Int.le_trans h.clock (clock_tick t l r c)⟩) hticks
      ⟨⟨rfl, fun _ hi _ => hi⟩, Int.le_refl _⟩
  exact ⟨hend.fewer, hend.clock⟩

/-- A read that leaves the clock alone. -/
def Reads : Request → Prop
  | .pushTenant _ | .selectMembership .. | .selectUserByEmail _ | .selectTenantBySlug _ => True
  | _ => False

/-- The route has written nothing yet. -/
structure Unwritten (t₀ t : Clocked) (l : Session) : Prop where
  same : t = t₀
  control : l.control = []
  tenant : l.tenant = []

theorem unwritten_tick {t₀ t : Clocked} {l : Session} {r : Request} (c : Choice)
    (h : Unwritten t₀ t l) (hr : Reads r) : Unwritten t₀ (tick t l r c).1 (tick t l r c).2.1 := by
  obtain ⟨rfl, hcontrol, htenant⟩ := h
  cases r with
  | pushTenant | selectUserByEmail | selectTenantBySlug => exact ⟨rfl, hcontrol, htenant⟩
  | selectMembership tenantId userId =>
      simp only [tick, serve, Session.resolve]
      split
      · split
        · exact ⟨rfl, hcontrol, htenant⟩
        · exact ⟨rfl, hcontrol, htenant⟩
      · exact ⟨rfl, hcontrol, htenant⟩
  | _ => exact hr.elim

variable {cond : Clocked → Session → Request → Choice → Prop}

theorem ensuresIf_of_reads {α : Type} {p : DirectoryProc α} (hp : Makes Reads p) {t : Clocked}
    {l : Session} (hcontrol : l.control = []) (htenant : l.tenant = []) :
    EnsuresIf tick cond (fun t' l' _ => Unwritten t t' l') t l p :=
  ((hp.follows tick l).ensuresIf (fun _ _ _ c h hr => unwritten_tick c h hr)
    ⟨rfl, hcontrol, htenant⟩).mono fun _ _ _ h => h.1

theorem reads_requirePermission (tenantId : Nat) (actor : User) (permission : CorePermission) :
    Makes Reads (requirePermission tenantId actor permission) := by
  refine makes_ask_bind trivial ?_
  rintro (_ | membership)
  · trivial
  · refine makes_ask_bind trivial fun _ => ?_
    split <;> trivial

theorem reads_refuseMember (tenantId : Nat) (email : String) :
    Makes Reads (refuseMember tenantId email) := by
  refine makes_ask_bind trivial ?_
  rintro (_ | existingUser)
  · trivial
  · refine makes_ask_bind trivial fun membership => ?_
    split <;> trivial

/-- The clock has moved on and nothing has been committed. -/
def Elapsed (t₀ t : Clocked) : Prop := t.database = t₀.database ∧ t₀.clock ≤ t.clock

/-- What `create_invitation` has pending when it returns: an invitation beside
which every other one of the person has expired, by the clock it has read. -/
structure Alongside (t₀ t : Clocked) (l : Session) (i : Invitation) : Prop where
  control : l.control = [.addInvitation i]
  tenant : l.tenant = []
  expired : ∀ x ∈ t₀.database.directory.invitations,
    SamePerson t₀.database.directory.lower i.tenantId i.email x →
    x.acceptedAt = none → x.expiresAt < t.clock

theorem ensuresIf_selectPendingInvitation {t : Clocked} {l : Session} (tenantId : Nat)
    (email : String) (now : Instant) :
    EnsuresIf tick cond
      (fun t' l' out => t' = t ∧ l' = l ∧ ∀ found : Option Invitation, out = .ok found →
        found = none → ∀ x ∈ t.database.directory.invitations,
          SamePerson t.database.directory.lower tenantId email x →
          x.acceptedAt = none → x.expiresAt ≤ now)
      t l (ask (.selectPendingInvitation tenantId email now)) := by
  intro c _
  refine ⟨rfl, rfl, ?_⟩
  rintro _ ⟨⟩ hnone x hx ⟨htenant, hemail⟩ hpending
  have hskipped := List.find?_eq_none.mp hnone x hx
  simpa [htenant, hemail, hpending] using hskipped

theorem ensuresIf_createInvitation {t : Clocked} {l : Session} (hcontrol : l.control = [])
    (htenant : l.tenant = []) (settings : Settings) (tenantId : Nat) (email role : String)
    (actorRole : Option Role) (invitedByUserId : Option Nat) :
    EnsuresIf tick addsBesideExpiry
      (fun t' l' out => Elapsed t t' ∧ ∀ result : Invitation × String, out = .ok result →
        Alongside t t' l' result.1) t l
      (createInvitation settings tenantId email role actorRole invitedByUserId) := by
  have hsame : Elapsed t t := ⟨rfl, Int.le_refl _⟩
  unfold createInvitation
  cases validateRole role with
  | error e => exact ⟨hsame, by simp⟩
  | ok role =>
      simp only [Proc.ofExcept, Proc.ret_bind]
      split
      · exact ⟨hsame, by simp⟩
      refine ensuresIf_bind (ensuresIf_of_reads (reads_refuseMember tenantId email) hcontrol
        htenant) ?_ ?_
      swap
      · rintro t' l' e ⟨rfl, -, -⟩
        exact ⟨hsame, by simp⟩
      rintro t' l' _ ⟨rfl, hcontrol, htenant⟩
      refine ensuresIf_request_bind.mpr fun c _ => ?_
      have hread : Elapsed t' (tick t' l' .now c).1 := ⟨rfl, clock_tick t' l' .now c⟩
      refine ensuresIf_bind (ensuresIf_selectPendingInvitation tenantId email _) ?_ ?_
      swap
      · rintro _ _ e ⟨rfl, rfl, -⟩
        exact ⟨hread, by simp⟩
      rintro _ _ pending ⟨rfl, rfl, hpending⟩
      split
      · exact ⟨hread, by simp⟩
      rename_i hnone
      have hover := hpending pending rfl (by simpa using hnone)
      -- The token, then the clock reading that dates the invitation.
      refine ensuresIf_request_bind.mpr fun _ _ => ensuresIf_request_bind.mpr fun c₂ _ => ?_
      have hdated : t'.clock ≤ max (max t'.clock c.now) c₂.now :=
        Int.le_trans (Int.le_max_left _ _) (Int.le_max_left _ _)
      refine fun c₃ hbeside => ⟨⟨rfl, hdated⟩, ?_⟩
      rintro _ ⟨⟩
      refine ⟨?_, htenant, ?_⟩
      · simp [tick, serve, Session.addControl, hcontrol]
      · intro x hx hsame hx'
        have hle : x.expiresAt ≤ max t'.clock c.now := hover x hx hsame hx'
        have hne : x.expiresAt ≠ max (max t'.clock c.now) c₂.now := hbeside x hx hsame hx'
        exact Int.lt_iff_le_and_ne.mpr ⟨Int.le_trans hle (Int.le_max_left _ _), hne⟩

theorem ensuresIf_asHttp {α : Type} {p : DirectoryProc α} {t : Clocked} {l : Session}
    {P : Clocked → Prop} {Q : Clocked → Session → α → Prop}
    (hp : EnsuresIf tick cond (fun t' l' out => P t' ∧ ∀ a, out = .ok a → Q t' l' a) t l p)
    (status : Nat) (caught : Failure → Option String) :
    EnsuresIf tick cond (fun t' l' out => P t' ∧ ∀ a, out = .ok a → Q t' l' a) t l
      (asHttp status caught p) := by
  refine ensuresIf_attempt_bind hp ?_
  rintro t' l' (e | a) ⟨hP, hout⟩
  · dsimp only
    cases caught e <;> exact ⟨hP, by simp⟩
  · exact ⟨hP, hout⟩

theorem alone_addInvitation {t₀ t : Clocked} {l : Session} {i : Invitation} {d d' : Directory}
    (halone : Alone t₀.database.directory t₀.clock) (hclock : t₀.clock ≤ t.clock)
    (h : Alongside t₀ t l i) (hlower : d.lower = t₀.database.directory.lower)
    (hsame : d.invitations = t₀.database.directory.invitations)
    (hcommit : d.applyAll [.addInvitation i] = .ok d') : Alone d' t.clock := by
  have hrows : d'.invitations = t₀.database.directory.invitations ++ [i] := by
    simp only [Directory.applyAll, Directory.apply] at hcommit
    split at hcommit
    · rename_i d₂ happly
      cases hcommit
      split at happly
      · cases happly
      split at happly
      · cases happly
        rw [← hsame]
      · cases happly
    · cases hcommit
  have hnew (x : Invitation) (hx : x ∈ t₀.database.directory.invitations)
      (hpending : x.acceptedAt = none)
      (hperson : SamePerson t₀.database.directory.lower i.tenantId i.email x)
      (hlive : t.clock ≤ x.expiresAt) : False :=
    absurd hlive (Int.not_le.mpr (h.expired x hx hperson hpending))
  intro x hx x' hx' hpending hpending' hperson hlive hlive'
  rw [hrows] at hx hx'
  rw [Directory.lower_applyAll hcommit, hlower] at hperson
  rcases List.mem_append.mp hx with hold | hlast <;> rcases List.mem_append.mp hx' with hold' | hlast'
  · exact halone x hold x' hold' hpending hpending' hperson (Int.le_trans hclock hlive)
      (Int.le_trans hclock hlive')
  · rw [List.mem_singleton.mp hlast'] at hperson
    exact (hnew x hold hpending ⟨hperson.1.symm, hperson.2.symm⟩ hlive).elim
  · rw [List.mem_singleton.mp hlast] at hperson
    exact (hnew x' hold' hpending' hperson hlive').elim
  · rw [List.mem_singleton.mp hlast, List.mem_singleton.mp hlast']

theorem Alone.later {d d' : Directory} {clock clock' : Instant} (h : Alone d clock)
    (hlower : d'.lower = d.lower) (hinvitations : d'.invitations = d.invitations)
    (hclock : clock ≤ clock') : Alone d' clock' :=
  h.fewer ⟨hlower, fun _ hi _ => hinvitations ▸ hi⟩ hclock

theorem alone_commitControl {t₀ t : Clocked} {l : Session} {i : Invitation}
    (halone : Alone t₀.database.directory t₀.clock) (hclock : t₀.clock ≤ t.clock)
    (h : Alongside t₀ t l i)
    (hlower : t.database.directory.lower = t₀.database.directory.lower)
    (hsame : t.database.directory.invitations = t₀.database.directory.invitations) (c : Choice) :
    Alone (tick t l .commitControl c).1.database.directory (tick t l .commitControl c).1.clock := by
  simp only [tick, serve, Database.commit, h.control]
  split
  · rename_i d' hcommit
    exact alone_addInvitation halone hclock h hlower hsame hcommit
  · exact halone.later hlower hsame hclock

theorem ensuresIf_committed {P : Clocked → Session → Prop} {t : Clocked} {l : Session} (h : P t l)
    (out : Except DatabaseError Unit) :
    EnsuresIf tick cond (fun t' l' _ => P t' l') t l (committed out) := by
  cases out <;> exact h

theorem ensuresIf_commitControl {t₀ t : Clocked} {l : Session} {i : Invitation} {α : Type}
    {value : α} (halone : Alone t₀.database.directory t₀.clock) (hclock : t₀.clock ≤ t.clock)
    (h : Alongside t₀ t l i)
    (hlower : t.database.directory.lower = t₀.database.directory.lower)
    (hsame : t.database.directory.invitations = t₀.database.directory.invitations) :
    EnsuresIf tick cond (fun t' _ _ => Alone t'.database.directory t'.clock) t l
      (do commitControl; return value) := by
  have hcommit : EnsuresIf tick cond (fun t' _ _ => Alone t'.database.directory t'.clock) t l
      commitControl := by
    refine ensuresIf_request_bind.mpr fun c _ => ?_
    exact ensuresIf_committed (P := fun t' _ => Alone t'.database.directory t'.clock)
      (alone_commitControl halone hclock h hlower hsame c) _
  exact ensuresIf_bind hcommit (fun _ _ _ hdone => hdone) fun _ _ _ hdone => hdone

theorem alone_invitationCreate {t : Clocked} (halone : Alone t.database.directory t.clock)
    (settings : Settings) (tenantId : Nat) (actor : User) (email role : String) :
    EnsuresIf tick addsBesideExpiry (fun t' _ _ => Alone t'.database.directory t'.clock) t {}
      (invitationCreate settings tenantId actor email role) := by
  refine ensuresIf_bind (ensuresIf_of_reads (reads_requirePermission tenantId actor _) rfl rfl)
    ?_ ?_
  swap
  · rintro t' l e ⟨rfl, -, -⟩
    exact halone
  rintro t' l actorRole ⟨rfl, hcontrol, htenant⟩
  refine ensuresIf_bind (ensuresIf_asHttp (ensuresIf_createInvitation hcontrol htenant settings
    tenantId email role (some actorRole) (some actor.id)) 400 valueOrDirectoryErrors) ?_ ?_
  swap
  · rintro t₁ l₁ e ⟨⟨hdatabase, hclock⟩, -⟩
    rw [hdatabase]
    exact halone.later rfl rfl hclock
  rintro t₁ l₁ ⟨i, token⟩ ⟨⟨hdatabase, hclock⟩, hcreated⟩
  have halongside := hcreated (i, token) rfl
  refine ensuresIf_request_bind.mpr fun c _ => ?_
  refine ensuresIf_bind (Q := fun t₂ l₂ _ => t₂.clock = t₁.clock ∧ l₂.control = l₁.control ∧
    l₂.tenant = [] ∧ t₂.database.directory.lower = t₁.database.directory.lower ∧
    t₂.database.directory.invitations = t₁.database.directory.invitations)
    (ensuresIf_request_bind.mpr fun c _ => ?_) ?_ ?_
  · refine ensuresIf_committed (P := fun t₂ l₂ => t₂.clock = t₁.clock ∧ l₂.control = l₁.control ∧
      l₂.tenant = [] ∧ t₂.database.directory.lower = t₁.database.directory.lower ∧
      t₂.database.directory.invitations = t₁.database.directory.invitations) ?_ _
    simp [tick, serve, Session.addTenant, halongside.tenant, Database.commit, Directory.applyAll,
      Directory.apply]
  · rintro t₂ l₂ _ ⟨hclock₂, hcontrol₂, htenant₂, hlower, hinvitations⟩
    refine ensuresIf_commitControl halone (hclock₂ ▸ hclock)
      ⟨hcontrol₂.trans halongside.control, htenant₂, hclock₂ ▸ halongside.expired⟩ ?_ ?_
    · rw [hlower, hdatabase]
    · rw [hinvitations, hdatabase]
  · rintro t₂ l₂ e ⟨hclock₂, -, -, hlower, hinvitations⟩
    refine halone.later ?_ ?_ (hclock₂ ▸ hclock)
    · rw [hlower, hdatabase]
    · rw [hinvitations, hdatabase]

theorem alone_invite {t : Clocked} (halone : Alone t.database.directory t.clock)
    (settings : Settings) (slug email role : String) :
    EnsuresIf tick addsBesideExpiry (fun t' _ _ => Alone t'.database.directory t'.clock) t {}
      (invite settings slug email role) := by
  refine ensuresIf_request_bind.mpr fun c _ => ?_
  simp only [tick, serve]
  cases t.database.directory.tenants.find? fun t => t.slug == slug with
  | none => exact halone
  | some tenant =>
      refine ensuresIf_bind (ensuresIf_createInvitation rfl rfl settings tenant.id email role none
        none) ?_ ?_
      · rintro t₁ l₁ ⟨i, token⟩ ⟨⟨hdatabase, hclock⟩, hcreated⟩
        exact ensuresIf_commitControl halone hclock (hcreated (i, token) rfl) (by rw [hdatabase])
          (by rw [hdatabase])
      · rintro t₁ l₁ e ⟨⟨hdatabase, hclock⟩, -⟩
        rw [hdatabase]
        exact halone.later rfl rfl hclock

/-- Where a run starts. -/
structure Start extends State where
  alone : Alone directory clock

theorem alone_handle {settings : Settings} {s s' : State} {event : Operation × (Nat → Choice)}
    (halone : Alone s.directory s.clock) (hbeside : createsBesideExpiry settings s event)
    (hstep : handle settings s event = some s') : Alone s'.directory s'.clock := by
  obtain ⟨op, choices⟩ := event
  have hcalm {α : Type} {p : DirectoryProc α}
      (hp : Follows serve allowed (fun _ _ => True) {} p) (heq : conduct p s choices = s') :
      Alone s'.directory s'.clock := by
    obtain ⟨hfewer, hclock⟩ := calm_conduct hp s choices
    subst heq
    exact halone.fewer hfewer hclock
  cases op with
  | create tenantId actor email role =>
      obtain rfl := Option.some.inj hstep
      exact eval_of_ensuresIf (alone_invitationCreate halone settings tenantId actor email role)
        choices hbeside
  | invite slug email role =>
      obtain rfl := Option.some.inj hstep
      exact eval_of_ensuresIf (alone_invite halone settings slug email role) choices hbeside
  | revoke tenantId actor invitationId =>
      exact hcalm (follows_of_lawful (InvitationOnce.follows_invitationRevoke ..))
        (Option.some.inj hstep)
  | accept token password displayName =>
      exact hcalm (follows_of_lawful (InvitationOnce.follows_invitationsAccept ..))
        (Option.some.inj hstep)
  | remove tenantId actor userId =>
      exact hcalm (follows_of_lawful (InvitationOnce.follows_memberRemove ..))
        (Option.some.inj hstep)
  | purge =>
      obtain rfl := Option.some.inj hstep
      exact halone.fewer ⟨rfl, fun i hi _ => List.mem_of_mem_filter hi⟩ (Int.le_max_left _ _)

/-- As long as no invitation is added at the very microsecond at which another of
the same person expires, at every instant from the last reading of the clock at
most one of them would be accepted, and none for a member. -/
theorem one_live_invitation (settings : Settings) (start : Start)
    (events : List (Operation × (Nat → Choice))) (s : State)
    (hrun : run (handle settings) start.toState events = some s)
    (hbeside : Along (handle settings) (createsBesideExpiry settings) start.toState events)
    (t : Instant) (ht : s.clock ≤ t) :
    (∀ i i', WouldAccept settings s.directory t i → WouldAccept settings s.directory t i' →
      SamePerson s.directory.lower i.tenantId i.email i' → i = i') ∧
    ∀ i user, WouldAccept settings s.directory t i →
      s.directory.userByEmail i.email = some user →
      ∀ m ∈ s.directory.memberships, m.userId = user.id → m.tenantId ≠ i.tenantId := by
  have halone : Alone s.directory s.clock :=
    @run_invariant _ _ (handle settings) (createsBesideExpiry settings)
      (fun s => Alone s.directory s.clock)
      (fun _ _ _ h hok hstep => alone_handle h hok hstep) _ _ _ start.alone hbeside hrun
  constructor
  · intro i i' h h' hsame
    have hgood := good_of_wouldAccept h
    have hgood' := good_of_wouldAccept h'
    exact halone i hgood.stored i' hgood'.stored hgood.pending hgood'.pending hsame
      (Int.le_trans ht hgood.live) (Int.le_trans ht hgood'.live)
  · intro i user h huser m hm hmember htenant
    have hnone := List.find?_eq_none.mp ((good_of_wouldAccept h).outside user huser) m hm
    simp [hmember, htenant] at hnone

def alice : User := ⟨1, "alice@exemple.fr", none⟩

/-- Alice owns the tenant, and nobody has been invited. -/
def acme : Start where
  directory := {
    tenants := [⟨1, "acme", "Acme", .active, none⟩]
    users := [alice]
    credentials := []
    memberships := [⟨1, alice.id, 1, .owner⟩]
    invitations := []
    teams := []
    teamMembers := []
    auditEvents := [] }
  clock := 0
  alone := by simp [Alone]

def plainSettings : Settings := ⟨id, 72, "https://app.exemple.fr"⟩

/-- Alice invites Bob at an instant. -/
def invitesBob (now : Instant) (uuid : Nat) (token : String) : Operation × (Nat → Choice) :=
  (.create 1 alice "bob@exemple.fr" "member", fun _ => { now, uuid, token })

/-- Three days, in microseconds. -/
def threeDays : Instant := 72 * 3600000000

def bobsInvitation (now : Instant) (uuid : Nat) (token : String) : Invitation :=
  ⟨uuid, "bob@exemple.fr", 1, .member, token, now + threeDays, none, some alice.id⟩

/-- Alice invites Bob again at the microsecond at which the first invitation
expires: no invitation is pending any more, and both are good. -/
theorem two_live_invitations_at_expiry :
    ∃ s, run (handle plainSettings) acme.toState
        [invitesBob 0 10 "un", invitesBob threeDays 11 "deux"] = some s ∧
      s.clock = threeDays ∧
      WouldAccept plainSettings s.directory threeDays (bobsInvitation 0 10 "un") ∧
      WouldAccept plainSettings s.directory threeDays (bobsInvitation threeDays 11 "deux") := by
  refine ⟨_, rfl, by decide +kernel, ?_, ?_⟩
  · refine ⟨"un", none, none, ⟨20, "bob@exemple.fr", none⟩, fun _ => { now := threeDays, uuid := 20 },
      fun _ => rfl, by decide +kernel⟩
  · refine ⟨"deux", none, none, ⟨20, "bob@exemple.fr", none⟩,
      fun _ => { now := threeDays, uuid := 20 }, fun _ => rfl, by decide +kernel⟩

/-- One microsecond later, the second invitation is the only one. -/
theorem one_live_invitation_after_expiry :
    ∃ s, run (handle plainSettings) acme.toState
        [invitesBob 0 10 "un", invitesBob (threeDays + 1) 11 "deux"] = some s ∧
      ∀ i, WouldAccept plainSettings s.directory (threeDays + 1) i →
        SamePerson s.directory.lower i.tenantId i.email (bobsInvitation (threeDays + 1) 11 "deux") →
        i = bobsInvitation (threeDays + 1) 11 "deux" := by
  refine ⟨_, rfl, ?_⟩
  intro i hi hsame
  refine (one_live_invitation plainSettings acme
    [invitesBob 0 10 "un", invitesBob (threeDays + 1) 11 "deux"] _ rfl (by decide +kernel)
    (threeDays + 1) (by decide +kernel)).1 i _ hi ?_ hsame
  exact ⟨"deux", none, none, ⟨20, "bob@exemple.fr", none⟩,
    fun _ => { now := threeDays + 1, uuid := 20 }, fun _ => rfl, by decide +kernel⟩

end Socle.LiveInvitations
