import Socle.ServiceFootprints

/-!
The owners of a tenant while requests that change roles and remove members
overlap: what one commit does to the owner count, which pending changes the
two routes can bring to their commit, and the interleavings that keep an owner.
-/

namespace Socle.LastOwner

open Socle.GuardedRuns
open Socle.Procedures
open Socle.DirectoryStore
open Socle.DirectoryService
open Socle.ServiceFootprints

/-- The two routes that can take ownership away. -/
inductive MemberRequest where
  | changeRole (tenantId : Nat) (actor : User) (userId : Nat) (role : String)
  | remove (tenantId : Nat) (actor : User) (userId : Nat)

def MemberRequest.procedure : MemberRequest → DirectoryProc Reply
  | .changeRole tenantId actor userId role => memberChangeRole tenantId actor userId role
  | .remove tenantId actor userId => memberRemove tenantId actor userId

/-- Requests that have just arrived on a directory. -/
def arrived (d : Directory) (requests : List MemberRequest) :
    Pool DirectoryInterface Failure Database Session Reply :=
  ⟨⟨d, []⟩, requests.map fun r => ({}, r.procedure)⟩

theorem countP_edit_le (edit : Membership → Option Membership) (id tenantId : Nat)
    (hother : ∀ m, m.id ≠ id → edit m = some m) (rows : List Membership) :
    rows.countP (Directory.isOwner tenantId) ≤
      (rows.filterMap edit).countP (Directory.isOwner tenantId) +
        ((rows.filter fun m => m.id == id && m.role == .owner).map
          fun m => Trace.ownerLost m.tenantId).count (.ownerLost tenantId) := by
  induction rows with
  | nil => simp
  | cons m rows ih =>
      by_cases hid : m.id = id
      · have hmono : (rows.filterMap edit).countP (Directory.isOwner tenantId) ≤
            ((m :: rows).filterMap edit).countP (Directory.isOwner tenantId) := by
          cases hedit : edit m <;> simp [hedit, List.countP_cons]
        by_cases hrole : m.role = .owner
        · by_cases ht : m.tenantId = tenantId
          · simp [Directory.isOwner, hid, hrole, ht] at ih hmono ⊢
            omega
          · simp [Directory.isOwner, hid, hrole, ht] at ih hmono ⊢
            omega
        · simp [Directory.isOwner, hid, hrole] at ih hmono ⊢
          omega
      · simp [Directory.isOwner, hid, hother m hid, List.countP_cons] at ih ⊢
        omega

theorem countP_promote_le (id tenantId : Nat) (rows : List Membership) :
    rows.countP (Directory.isOwner tenantId) ≤
      (rows.map fun m => if m.id = id then { m with role := .owner } else m).countP
        (Directory.isOwner tenantId) := by
  rw [List.countP_map]
  apply List.countP_mono_left
  intro m _ howner
  by_cases hid : m.id = id
  · simp [Directory.isOwner] at howner ⊢
    simp [hid, howner.1]
  · simpa [hid] using howner

/-- The changes the two routes leave pending on the control session. -/
inductive TakesFrom (id : Nat) : Change → Prop where
  | setRole (role : Role) : TakesFrom id (.setRole id role)
  | deleteMembership : TakesFrom id (.deleteMembership id)

variable {d d' : Directory} {change : Change} {id : Nat}

theorem touched_mem_traceOf (htakes : TakesFrom id change) :
    Trace.touched id ∈ d.traceOf change := by
  cases htakes <;> simp [Directory.traceOf]

theorem countOwners_le_apply (htakes : TakesFrom id change)
    (happly : d.apply change = .ok d') (tenantId : Nat) :
    d.countOwners tenantId ≤
      d'.countOwners tenantId + (d.traceOf change).count (.ownerLost tenantId) := by
  cases htakes with
  | setRole role =>
      simp only [Directory.apply] at happly
      split at happly
      · cases happly
        by_cases hrole : role = .owner
        · subst hrole
          exact Nat.le_add_right_of_le (countP_promote_le id tenantId d.memberships)
        · have hedit := countP_edit_le
            (fun m => some (if m.id = id then { m with role := role } else m)) id tenantId
            (fun m hid => by simp [hid]) d.memberships
          rw [List.filterMap_eq_map'] at hedit
          simpa [Directory.countOwners, Directory.traceOf, Directory.lostOwners, hrole] using hedit
      · cases happly
  | deleteMembership =>
      cases happly
      have hedit := countP_edit_le (Option.guard fun m => m.id != id) id tenantId
        (fun m hid => by simp [Option.guard, hid]) d.memberships
      rw [List.filterMap_eq_filter] at hedit
      simpa [Directory.countOwners, Directory.traceOf, Directory.lostOwners] using hedit

theorem mem_of_mem_apply (htakes : TakesFrom id change)
    (happly : d.apply change = .ok d') {row : Membership}
    (hrow : row ∈ d'.memberships) : row ∈ d.memberships ∨ row.id = id := by
  rcases Directory.memberships_apply happly with heq | ⟨m, rfl, -⟩ | ⟨id, role, rfl, heq⟩ |
    ⟨id, rfl, heq⟩
  · exact .inl (heq ▸ hrow)
  · cases htakes
  · cases htakes
    rw [heq] at hrow
    obtain ⟨m, hm, rfl⟩ := List.mem_map.mp hrow
    by_cases hid : m.id = id
    · exact .inr (by simp [hid])
    · exact .inl (by simpa [hid] using hm)
  · rw [heq] at hrow
    exact .inl (List.mem_of_mem_filter hrow)

theorem filter_id_length_le_one {rows : List Membership}
    (hnodup : (rows.map (·.id)).Nodup) (id : Nat) :
    (rows.filter fun m => m.id == id).length ≤ 1 := by
  have hcount : (rows.map (·.id)).count id = (rows.filter fun m => m.id == id).length := by
    rw [List.count_eq_countP, List.countP_map, List.countP_eq_length_filter]
    rfl
  rw [← hcount]
  exact List.nodup_iff_count.mp hnodup id

theorem count_lostOwners_le_one (hnodup : (d.memberships.map (·.id)).Nodup)
    (id tenantId : Nat) : (d.lostOwners id).count (.ownerLost tenantId) ≤ 1 := by
  have hsub : (d.memberships.filter fun m => m.id == id && m.role == .owner).Sublist
      (d.memberships.filter fun m => m.id == id) := by
    apply List.monotone_filter_right
    intro m hm
    exact (Bool.and_eq_true_iff.mp hm).1
  calc
    (d.lostOwners id).count (.ownerLost tenantId) ≤ (d.lostOwners id).length :=
      List.count_le_length
    _ = (d.memberships.filter fun m => m.id == id && m.role == .owner).length := by
      simp [Directory.lostOwners]
    _ ≤ (d.memberships.filter fun m => m.id == id).length := hsub.length_le
    _ ≤ 1 := filter_id_length_le_one hnodup id

theorem count_traceOf_le_one (htakes : TakesFrom id change)
    (hnodup : (d.memberships.map (·.id)).Nodup) (tenantId : Nat) :
    (d.traceOf change).count (.ownerLost tenantId) ≤ 1 := by
  have hlost := count_lostOwners_le_one hnodup id tenantId
  cases htakes with
  | setRole role =>
      by_cases hrole : role = .owner
      · simp [Directory.traceOf, hrole]
      · simpa [Directory.traceOf, hrole] using hlost
  | deleteMembership => simpa [Directory.traceOf] using hlost

theorem owner_of_lost (htakes : TakesFrom id change) {tenantId : Nat}
    (hlost : Trace.ownerLost tenantId ∈ d.traceOf change) :
    change ≠ .setRole id .owner ∧
      ∃ row ∈ d.memberships, row.id = id ∧ row.role = .owner ∧ row.tenantId = tenantId := by
  have hrow : Trace.ownerLost tenantId ∈ d.lostOwners id →
      ∃ row ∈ d.memberships, row.id = id ∧ row.role = .owner ∧ row.tenantId = tenantId := by
    intro hmem
    obtain ⟨row, hfilter, htenant⟩ := List.mem_map.mp hmem
    obtain ⟨hmem, hkey⟩ := List.mem_filter.mp hfilter
    simp only [Bool.and_eq_true, beq_iff_eq] at hkey
    exact ⟨row, hmem, hkey.1, hkey.2, by simpa using htenant⟩
  cases htakes with
  | setRole role =>
      by_cases hrole : role = .owner
      · simp [Directory.traceOf, hrole] at hlost
      · refine ⟨by simpa using hrole, hrow ?_⟩
        simpa [Directory.traceOf, hrole] using hlost
  | deleteMembership =>
      exact ⟨by simp, hrow (by simpa [Directory.traceOf] using hlost)⟩

/-- The request has counted at least two owners in the tenant of the row. -/
def CountedTwo (l : Session) (m : Membership) : Prop :=
  ∃ c, l.counted = some c ∧ c.tenantId = m.tenantId ∧ 2 ≤ c.owners

/-- The control session has nothing pending, or one change of a membership it
has loaded; when that row was loaded as an owner and the change takes the
ownership away, the owners have been counted. -/
def Justified (l : Session) : Prop :=
  l.control = [] ∨ ∃ x ∈ l.identityMap, ∃ change,
    TakesFrom x.membership.id change ∧ l.control = [change] ∧
      (change = .setRole x.membership.id .owner ∨ x.membership.role ≠ .owner ∨
        CountedTwo l x.membership)

/-- What a member request may commit: justified changes, and audit events. -/
def allowed (l : Session) : Request → Prop
  | .commitControl => Justified l
  | .commitTenant => ∀ change ∈ l.tenant, ∃ event, change = .addAuditEvent event
  | _ => True

/-- Nothing pending, and only memberships of the tenant in the identity map. -/
def Clean (tenantId : Nat) (l : Session) : Prop :=
  (∀ x ∈ l.identityMap, x.membership.tenantId = tenantId) ∧ l.control = [] ∧ l.tenant = []

/-- Both commits of a member request are allowed. -/
def Ready (l : Session) : Prop := allowed l .commitControl ∧ allowed l .commitTenant

theorem resolve_mem (l : Session) (mark : Nat) (row : Membership) :
    ∃ x ∈ (l.resolve mark row).1.identityMap, x.membership = (l.resolve mark row).2 := by
  unfold Session.resolve
  split
  · rename_i loaded hfind
    exact ⟨loaded, List.mem_of_find?_eq_some hfind, rfl⟩
  · exact ⟨_, List.mem_cons_self, rfl⟩

theorem resolve_clean {tenantId : Nat} {l : Session} (hclean : Clean tenantId l)
    (mark : Nat) {row : Membership} (hrow : row.tenantId = tenantId) :
    Clean tenantId (l.resolve mark row).1 := by
  unfold Session.resolve
  split
  · exact hclean
  · refine ⟨?_, hclean.2⟩
    intro x hx
    rcases List.mem_cons.mp hx with rfl | hx
    · exact hrow
    · exact hclean.1 x hx

theorem tenantId_of_getMembership {tenantId userId : Nat} {row : Membership}
    (h : d.getMembership tenantId userId = some row) : row.tenantId = tenantId := by
  have hfind := List.find?_some h
  simp only [Bool.and_eq_true, beq_iff_eq] at hfind
  exact hfind.2

theorem follows_selectMembership {tenantId : Nat} {l : Session} (hclean : Clean tenantId l)
    (userId : Nat) :
    Follows serve allowed
      (fun l out => Clean tenantId l ∧ ∀ m, out = .ok (some m) →
        ∃ x ∈ l.identityMap, x.membership = m)
      l (ask (.selectMembership tenantId userId)) := by
  refine ⟨trivial, ?_⟩
  intro db c
  simp only [serve]
  cases hrow : db.directory.getMembership tenantId userId with
  | none => exact ⟨hclean, by simp⟩
  | some row =>
      refine ⟨resolve_clean hclean _ (tenantId_of_getMembership hrow), ?_⟩
      intro m hm
      have hm' : (l.resolve db.history.length row).2 = m := by simpa using hm
      exact hm' ▸ resolve_mem l _ row

theorem follows_requirePermission {tenantId : Nat} {l : Session} (hclean : Clean tenantId l)
    (actor : User) (permission : CorePermission) :
    Follows serve allowed (fun l _ => Clean tenantId l) l
      (requirePermission tenantId actor permission) := by
  refine follows_bind (follows_selectMembership hclean actor.id) ?_ fun _ _ h => h.1
  rintro l (_ | membership) ⟨hclean, -⟩
  · exact hclean
  · refine follows_request_bind.mpr ⟨trivial, fun db c => ?_⟩
    split <;> exact hclean

theorem ready_setRole {tenantId : Nat} {l : Session} (hclean : Clean tenantId l)
    {x : Loaded} (hx : x ∈ l.identityMap) {role : Role}
    (hguard : role = .owner ∨ x.membership.role ≠ .owner ∨ CountedTwo l x.membership)
    (db : Database) (c : Choice) : Ready (serve db l (.setRole x.membership role) c).2.1 := by
  obtain ⟨-, hcontrol, htenant⟩ := hclean
  simp only [serve]
  split
  · exact ⟨.inl hcontrol, by simp [allowed, htenant]⟩
  · refine ⟨.inr ⟨x, hx, _, .setRole role, by simp [Session.addControl, hcontrol], ?_⟩,
      by simp [allowed, Session.addControl, htenant]⟩
    rcases hguard with rfl | hguard
    · exact .inl rfl
    · exact .inr hguard

theorem follows_countOwners {tenantId : Nat} {l : Session} (hclean : Clean tenantId l)
    {x : Loaded} (hx : x ∈ l.identityMap) :
    Follows serve allowed
      (fun l out => Clean tenantId l ∧ x ∈ l.identityMap ∧
        ∀ owners, out = .ok owners → 2 ≤ owners → CountedTwo l x.membership)
      l (ask (.countOwners tenantId)) := by
  refine ⟨trivial, fun db c => ⟨hclean, hx, ?_⟩⟩
  intro owners howners htwo
  have howners' : db.directory.countOwners tenantId = owners := by simpa [serve] using howners
  exact ⟨_, rfl, (hclean.1 x hx).symm, howners' ▸ htwo⟩

theorem ready_deleteMembership {tenantId : Nat} {l : Session} (hclean : Clean tenantId l)
    {x : Loaded} (hx : x ∈ l.identityMap)
    (hguard : x.membership.role ≠ .owner ∨ CountedTwo l x.membership)
    (db : Database) (c : Choice) :
    Ready (serve db l (.deleteMembership x.membership.id) c).2.1 := by
  obtain ⟨-, hcontrol, htenant⟩ := hclean
  refine ⟨.inr ⟨x, hx, _, .deleteMembership, ?_, .inr hguard⟩, ?_⟩
  · simp [serve, Session.addControl, hcontrol]
  · simp [allowed, serve, Session.addControl, htenant]

theorem follows_changeMemberRole {tenantId : Nat} {l : Session} (hclean : Clean tenantId l)
    (userId : Nat) (newRole : String) (actorRole : Role) :
    Follows serve allowed (fun l out => ∀ m, out = .ok m → Ready l) l
      (changeMemberRole tenantId userId newRole actorRole) := by
  unfold changeMemberRole
  cases validateRole newRole with
  | error e => simp [Proc.ofExcept, Follows]
  | ok newRole =>
      simp only [Proc.ofExcept, Proc.ret_bind]
      refine follows_bind (follows_selectMembership hclean userId) ?_ (by simp)
      rintro l (_ | membership) ⟨hclean, hloaded⟩
      · simp [Follows]
      obtain ⟨x, hx, rfl⟩ := hloaded membership rfl
      dsimp only
      split
      · simp [Follows]
      split
      · refine follows_bind (follows_countOwners hclean hx) ?_ (by simp)
        rintro l owners ⟨hclean, hx, hcounted⟩
        split
        · simp [Follows]
        · rename_i htwo
          refine follows_request_bind.mpr ⟨trivial, fun db c m _ => ?_⟩
          exact ready_setRole hclean hx (.inr (.inr (hcounted owners rfl (Nat.lt_of_not_le htwo)))) db c
      · rename_i hkeeps
        refine follows_request_bind.mpr ⟨trivial, fun db c m _ => ?_⟩
        exact ready_setRole hclean hx (by tauto) db c

theorem follows_removeMember {tenantId : Nat} {l : Session} (hclean : Clean tenantId l)
    (userId : Nat) (actorRole : Role) :
    Follows serve allowed (fun l out => ∀ u, out = .ok u → Ready l) l
      (removeMember tenantId userId actorRole) := by
  unfold removeMember
  refine follows_bind (follows_selectMembership hclean userId) ?_ (by simp)
  rintro l (_ | membership) ⟨hclean, hloaded⟩
  · simp [Follows]
  obtain ⟨x, hx, rfl⟩ := hloaded membership rfl
  dsimp only
  split
  · split
    · simp [Follows]
    · refine follows_bind (follows_countOwners hclean hx) ?_ (by simp)
      rintro l owners ⟨hclean, hx, hcounted⟩
      split
      · simp [Follows]
      · rename_i htwo
        refine ⟨trivial, fun db c u _ => ?_⟩
        exact ready_deleteMembership hclean hx (.inr (hcounted owners rfl (Nat.lt_of_not_le htwo))) db c
  · rename_i hmember
    refine ⟨trivial, fun db c u _ => ?_⟩
    exact ready_deleteMembership hclean hx (.inl hmember) db c

theorem follows_commitTenant {l : Session} (hready : Ready l) :
    Follows serve allowed (fun l _ => allowed l .commitControl) l commitTenant := by
  refine ⟨hready.2, fun db c => ?_⟩
  dsimp only [serve]
  cases (db.commit l.tenant).2 <;> exact hready.1

theorem follows_commitControl {l : Session} (hallowed : allowed l .commitControl) :
    Follows serve allowed (fun _ _ => True) l commitControl := by
  refine ⟨hallowed, fun db c => ?_⟩
  dsimp only [serve]
  cases (db.commit l.control).2 <;> trivial

theorem follows_audited_commit {l : Session} (hready : Ready l)
    (action resourceType : String) (resourceId : Nat)
    (payload : List (String × Option String)) (actor : User) (reply : Reply) :
    Follows serve allowed (fun _ _ => True) l (do
      recordAuditEvent action resourceType resourceId payload actor
      commitTenant
      commitControl
      return reply) := by
  refine follows_request_bind.mpr ⟨trivial, fun db c => ?_⟩
  refine follows_bind (follows_commitTenant ⟨hready.1, ?_⟩) ?_ (by simp)
  · intro change hmem
    rcases List.mem_append.mp hmem with hmem | hmem
    · exact hready.2 change hmem
    · exact ⟨_, List.mem_singleton.mp hmem⟩
  · intro l _ hallowed
    exact follows_bind (follows_commitControl hallowed) (fun _ _ _ => trivial) (by simp)

theorem follows_getOneUser {l : Session} (userId : Nat) :
    Follows serve allowed (fun l' _ => l' = l) l (getOneUser userId) := by
  refine follows_request_bind.mpr ⟨trivial, fun db c => ?_⟩
  simp only [serve]
  cases db.directory.users.find? fun u => u.id == userId <;> rfl

theorem follows_emailOfTarget {tenantId : Nat} {l : Session} (hclean : Clean tenantId l)
    (target : Option Membership) (userId : Nat) :
    Follows serve allowed (fun l _ => Clean tenantId l) l (emailOfTarget target userId) := by
  cases target with
  | none => exact hclean
  | some membership =>
      refine follows_bind (follows_getOneUser userId) ?_ ?_
      · rintro l user rfl
        exact hclean
      · rintro l e rfl
        exact hclean

theorem follows_memberChangeRole (tenantId : Nat) (actor : User) (userId : Nat)
    (role : String) :
    Follows serve allowed (fun _ _ => True) {} (memberChangeRole tenantId actor userId role) := by
  have hclean : Clean tenantId {} := ⟨by simp, rfl, rfl⟩
  refine follows_bind (follows_requirePermission hclean actor _) ?_ (by simp)
  intro l actorRole hclean
  refine follows_bind (follows_selectMembership hclean userId) ?_ (by simp)
  rintro l previous ⟨hclean, -⟩
  refine follows_bind (follows_asHttp (follows_changeMemberRole hclean userId role actorRole) _ _)
    ?_ (by simp)
  intro l membership hready
  refine follows_bind (follows_getOneUser userId) ?_ (by simp)
  rintro l user rfl
  exact follows_audited_commit (hready membership rfl) ..

theorem follows_memberRemove (tenantId : Nat) (actor : User) (userId : Nat) :
    Follows serve allowed (fun _ _ => True) {} (memberRemove tenantId actor userId) := by
  have hclean : Clean tenantId {} := ⟨by simp, rfl, rfl⟩
  refine follows_bind (follows_requirePermission hclean actor _) ?_ (by simp)
  intro l actorRole hclean
  refine follows_bind (follows_selectMembership hclean userId) ?_ (by simp)
  rintro l target ⟨hclean, -⟩
  refine follows_bind (follows_emailOfTarget hclean target userId) ?_ (by simp)
  intro l targetEmail hclean
  refine follows_bind (follows_asHttp (follows_removeMember hclean userId actorRole) _ _)
    ?_ (by simp)
  intro l _ hready
  exact follows_audited_commit (hready () rfl) ..

theorem disciplined_arrived (d : Directory) (requests : List MemberRequest) :
    Disciplined serve allowed (arrived d requests) := by
  intro thread hmem
  obtain ⟨r, -, rfl⟩ := List.mem_map.mp hmem
  cases r with
  | changeRole tenantId actor userId role => exact follows_memberChangeRole ..
  | remove tenantId actor userId => exact follows_memberRemove ..

/-! ### Reads and the history -/

/-- A row that is not what the session loaded has been touched since. -/
def Dated (db : Database) (x : Loaded) : Prop :=
  x.mark ≤ db.history.length ∧
    ∀ row ∈ db.directory.memberships, row.id = x.membership.id →
      row = x.membership ∨ .touched x.membership.id ∈ db.history.drop x.mark

/-- The counted owners are still there, but for those lost since. -/
def DatedCount (db : Database) (c : Counted) : Prop :=
  c.mark ≤ db.history.length ∧
    c.owners ≤ db.directory.countOwners c.tenantId +
      (db.history.drop c.mark).count (.ownerLost c.tenantId)

/-- The tenant has an owner, and every read of every session is dated. -/
structure Consistent (tenantId : Nat) (db : Database) (sessions : List Session) : Prop where
  nodup : (db.directory.memberships.map (·.id)).Nodup
  owner : 1 ≤ db.directory.countOwners tenantId
  loaded : ∀ l ∈ sessions, ∀ x ∈ l.identityMap, Dated db x
  counted : ∀ l ∈ sessions, ∀ c, l.counted = some c → DatedCount db c

def writtenMembership : Change → Option Nat
  | .setRole membershipId _ => some membershipId
  | .deleteMembership membershipId => some membershipId
  | _ => none

/-- What the session has read is recent enough for what it commits: the rows
it writes have not been touched since they were loaded, and of the owners it
counted, when there were several, all but one at most are left. -/
def RecentReads (db : Database) (l : Session) : Prop :=
  (∀ x ∈ l.identityMap, some x.membership.id ∈ l.control.map writtenMembership →
    .touched x.membership.id ∉ db.history.drop x.mark) ∧
  ∀ c ∈ l.counted, 2 ≤ c.owners →
    (db.history.drop c.mark).count (.ownerLost c.tenantId) + 2 ≤ c.owners

instance (db : Database) (l : Session) : Decidable (RecentReads db l) :=
  inferInstanceAs (Decidable (_ ∧ _))

/-- The side condition on a step: a control session commits on recent reads. -/
def commitsRecentReads (db : Database) (sessions : List Session) (i : Nat) : Request → Prop
  | .commitControl => ∀ l ∈ sessions[i]?, RecentReads db l
  | _ => True

instance (db : Database) (sessions : List Session) (i : Nat) (r : Request) :
    Decidable (commitsRecentReads db sessions i r) := by
  unfold commitsRecentReads
  split <;> infer_instance

theorem identityMap_serve (db : Database) (l : Session) (r : Request) (c : Choice) {x : Loaded}
    (hx : x ∈ (serve db l r c).2.1.identityMap) :
    x ∈ l.identityMap ∨
      x.membership ∈ db.directory.memberships ∧ x.mark = db.history.length := by
  cases r with
  | selectMembership tenantId userId =>
      simp only [serve] at hx
      split at hx
      · rename_i row hrow
        unfold Session.resolve at hx
        split at hx
        · exact .inl hx
        · rcases List.mem_cons.mp hx with rfl | hx
          · exact .inr ⟨List.mem_of_find?_eq_some hrow, rfl⟩
          · exact .inl hx
      · exact .inl hx
  | setRole membership role =>
      simp only [serve] at hx
      split at hx <;> exact .inl hx
  | _ => exact .inl hx

theorem counted_serve (db : Database) (l : Session) (r : Request) (c : Choice) {k : Counted}
    (hk : (serve db l r c).2.1.counted = some k) :
    l.counted = some k ∨
      k.owners = db.directory.countOwners k.tenantId ∧ k.mark = db.history.length := by
  cases r with
  | selectMembership tenantId userId =>
      simp only [serve, Session.resolve] at hk
      split at hk
      · split at hk <;> exact .inl hk
      · exact .inl hk
  | countOwners tenantId =>
      cases hk
      exact .inr ⟨rfl, rfl⟩
  | setRole membership role =>
      simp only [serve] at hk
      split at hk <;> exact .inl hk
  | _ => exact .inl hk

theorem dated_of_loaded_now {db : Database} (hnodup : (db.directory.memberships.map (·.id)).Nodup)
    {x : Loaded} (hx : x.membership ∈ db.directory.memberships)
    (hmark : x.mark = db.history.length) : Dated db x := by
  refine ⟨Nat.le_of_eq hmark, fun row hrow hid => .inl ?_⟩
  exact List.inj_on_of_nodup_map hnodup hrow hx hid

theorem Consistent.set {tenantId : Nat} {db : Database} {sessions : List Session}
    (h : Consistent tenantId db sessions) {i : Nat} {l : Session} (hl : sessions[i]? = some l)
    (r : Request) (c : Choice) :
    Consistent tenantId db (sessions.set i (serve db l r c).2.1) := by
  have hmem : l ∈ sessions := List.mem_of_getElem? hl
  refine ⟨h.nodup, h.owner, ?_, ?_⟩
  · intro l' hl' x hx
    rcases List.mem_or_eq_of_mem_set hl' with hold | rfl
    · exact h.loaded l' hold x hx
    · rcases identityMap_serve db l r c hx with hx | ⟨hx, hmark⟩
      · exact h.loaded l hmem x hx
      · exact dated_of_loaded_now h.nodup hx hmark
  · intro l' hl' k hk
    rcases List.mem_or_eq_of_mem_set hl' with hold | rfl
    · exact h.counted l' hold k hk
    · rcases counted_serve db l r c hk with hk | ⟨howners, hmark⟩
      · exact h.counted l hmem k hk
      · exact ⟨Nat.le_of_eq hmark, by omega⟩

theorem commit_auditEvents (db : Database) {changes : List Change}
    (haudit : ∀ change ∈ changes, ∃ event, change = .addAuditEvent event) :
    (db.commit changes).1.directory.memberships = db.directory.memberships ∧
      (db.commit changes).1.history = db.history := by
  suffices h : ∀ d : Directory, ∃ d', d.applyAll changes = .ok d' ∧
      d'.memberships = d.memberships ∧ d.traceAll changes = [] by
    obtain ⟨d', hall, hmemberships, htrace⟩ := h db.directory
    simp [Database.commit, hall, hmemberships, htrace]
  intro d
  induction changes generalizing d with
  | nil => exact ⟨d, rfl, rfl, rfl⟩
  | cons change rest ih =>
      obtain ⟨event, rfl⟩ := haudit change List.mem_cons_self
      exact ih (fun change hmem => haudit change (List.mem_cons_of_mem _ hmem))
        { d with auditEvents := d.auditEvents ++ [event] }

theorem Consistent.congr {tenantId : Nat} {db db' : Database} {sessions : List Session}
    (h : Consistent tenantId db sessions)
    (hmemberships : db'.directory.memberships = db.directory.memberships)
    (hhistory : db'.history = db.history) : Consistent tenantId db' sessions := by
  have howners (t : Nat) : db'.directory.countOwners t = db.directory.countOwners t := by
    simp [Directory.countOwners, hmemberships]
  refine ⟨hmemberships ▸ h.nodup, howners tenantId ▸ h.owner, ?_, ?_⟩
  · intro l hl x hx
    simpa [Dated, hmemberships, hhistory] using h.loaded l hl x hx
  · intro l hl c hc
    simpa [DatedCount, howners, hhistory] using h.counted l hl c hc

theorem dated_commit {db : Database} (htakes : TakesFrom id change)
    (happly : db.directory.apply change = .ok d') {x : Loaded} (hx : Dated db x) :
    Dated ⟨d', db.history ++ db.directory.traceOf change⟩ x := by
  obtain ⟨hmark, hrows⟩ := hx
  refine ⟨by simp; omega, fun row hrow hid => ?_⟩
  rw [List.drop_append_of_le_length hmark]
  rcases mem_of_mem_apply htakes happly hrow with hold | hkey
  · rcases hrows row hold hid with heq | htouched
    · exact .inl heq
    · exact .inr (List.mem_append_left _ htouched)
  · have htouched := touched_mem_traceOf (d := db.directory) htakes
    rw [← hkey, hid] at htouched
    exact .inr (List.mem_append_right _ htouched)

theorem datedCount_commit {db : Database} (htakes : TakesFrom id change)
    (happly : db.directory.apply change = .ok d') {c : Counted} (hc : DatedCount db c) :
    DatedCount ⟨d', db.history ++ db.directory.traceOf change⟩ c := by
  obtain ⟨hmark, howners⟩ := hc
  have hlost := countOwners_le_apply htakes happly c.tenantId
  refine ⟨by simp; omega, ?_⟩
  rw [List.drop_append_of_le_length hmark, List.count_append]
  dsimp only
  omega

theorem owner_commit {tenantId : Nat} {db : Database} {l : Session} {x : Loaded}
    (hnodup : (db.directory.memberships.map (·.id)).Nodup)
    (howner : 1 ≤ db.directory.countOwners tenantId)
    (hdated : Dated db x) (hcount : ∀ c, l.counted = some c → DatedCount db c)
    (htakes : TakesFrom x.membership.id change) (happly : db.directory.apply change = .ok d')
    (hguard : change = .setRole x.membership.id .owner ∨ x.membership.role ≠ .owner ∨
      CountedTwo l x.membership)
    (huntouched : .touched x.membership.id ∉ db.history.drop x.mark)
    (hrecent : ∀ c ∈ l.counted, 2 ≤ c.owners →
      (db.history.drop c.mark).count (.ownerLost c.tenantId) + 2 ≤ c.owners) :
    1 ≤ d'.countOwners tenantId := by
  have hle := countOwners_le_apply htakes happly tenantId
  have hone := count_traceOf_le_one htakes hnodup tenantId
  by_cases hlost : .ownerLost tenantId ∈ db.directory.traceOf change
  · obtain ⟨hdemotes, row, hrow, hid, hrole, htenant⟩ := owner_of_lost htakes hlost
    -- The row is the one the session loaded, so its role was tested.
    have hrow : row = x.membership := (hdated.2 row hrow hid).resolve_right huntouched
    subst hrow
    obtain ⟨c, hc, hctenant, hpassed⟩ : CountedTwo l x.membership :=
      (hguard.resolve_left hdemotes).resolve_left (by simp [hrole])
    have htwo := hrecent c (by simp [hc]) hpassed
    have hcounted := (hcount c hc).2
    rw [hctenant, htenant] at htwo hcounted
    omega
  · rw [List.count_eq_zero_of_not_mem hlost] at hle
    omega

theorem consistent_commitControl {tenantId : Nat} {db : Database} {sessions : List Session}
    (h : Consistent tenantId db sessions) {l : Session} (hl : l ∈ sessions)
    (hjustified : Justified l) (hrecent : RecentReads db l) :
    Consistent tenantId (db.commit l.control).1 sessions := by
  rcases hjustified with hempty | ⟨x, hx, change, htakes, hcontrol, hguard⟩
  · rw [hempty]
    exact h.congr rfl (by simp [Database.commit, Directory.applyAll, Directory.traceAll])
  · have hwritten : some x.membership.id ∈ l.control.map writtenMembership := by
      rw [hcontrol]
      cases htakes <;> exact List.mem_singleton.mpr rfl
    cases happly : db.directory.apply change with
    | error e =>
        have hcommit : (db.commit l.control).1 = db := by
          simp [Database.commit, Directory.applyAll, hcontrol, happly]
        rw [hcommit]
        exact h
    | ok d' =>
        have hcommit : (db.commit l.control).1 =
            ⟨d', db.history ++ db.directory.traceOf change⟩ := by
          simp [Database.commit, Directory.applyAll, Directory.traceAll, hcontrol, happly]
        rw [hcommit]
        refine ⟨Directory.nodup_apply happly h.nodup, ?_, ?_, ?_⟩
        · exact owner_commit h.nodup h.owner (h.loaded l hl x hx) (h.counted l hl) htakes happly
            hguard (hrecent.1 x hx hwritten) hrecent.2
        · intro l' hl' y hy
          exact dated_commit htakes happly (h.loaded l' hl' y hy)
        · intro l' hl' c hc
          exact datedCount_commit htakes happly (h.counted l' hl' c hc)

theorem consistent_serve {tenantId : Nat} {db : Database} {sessions : List Session} {i : Nat}
    {l : Session} {r : Request} (c : Choice) (h : Consistent tenantId db sessions)
    (hl : sessions[i]? = some l) (hallowed : allowed l r)
    (hcond : commitsRecentReads db sessions i r) :
    Consistent tenantId (serve db l r c).1 (sessions.set i (serve db l r c).2.1) := by
  have hset := h.set hl r c
  cases r with
  | commitControl =>
      have hafter := consistent_commitControl h (List.mem_of_getElem? hl) hallowed (hcond l hl)
      exact hafter.set hl .commitControl c
  | commitTenant =>
      obtain ⟨hmemberships, hhistory⟩ := commit_auditEvents db hallowed
      exact hset.congr hmemberships hhistory
  | selectMembership tenantId' userId =>
      have hsame : (serve db l (.selectMembership tenantId' userId) c).1 = db := by
        simp only [serve]
        split <;> rfl
      rw [hsame]
      exact hset
  | _ => exact hset

theorem consistent_arrived {d : Directory} {tenantId : Nat} (requests : List MemberRequest)
    (hnodup : (d.memberships.map (·.id)).Nodup) (howner : 1 ≤ d.countOwners tenantId) :
    Consistent tenantId (arrived d requests).shared (arrived d requests).locals := by
  have hfresh : ∀ l ∈ (arrived d requests).locals, l = {} := by
    intro l hl
    simp only [arrived, Pool.locals, List.map_map, List.mem_map] at hl
    obtain ⟨r, -, rfl⟩ := hl
    rfl
  refine ⟨hnodup, howner, ?_, ?_⟩
  · intro l hl x hx
    rw [hfresh l hl] at hx
    cases hx
  · intro l hl c hc
    rw [hfresh l hl] at hc
    cases hc

/-- Whatever the interleaving of role changes and removals, a tenant that has
an owner keeps one as long as requests commit on recent reads. -/
theorem owner_remains_on_recent_reads (d : Directory) (tenantId : Nat)
    (requests : List MemberRequest) (schedule : List (Nat × Choice))
    (pool : Pool DirectoryInterface Failure Database Session Reply)
    (hnodup : (d.memberships.map (·.id)).Nodup) (howner : 1 ≤ d.countOwners tenantId)
    (hrun : run (Pool.step serve) (arrived d requests) schedule = some pool)
    (hrecent : Along (Pool.step serve) (StepMeets commitsRecentReads)
      (arrived d requests) schedule) :
    1 ≤ pool.shared.directory.countOwners tenantId := by
  have hend := pool_invariant (G := Consistent tenantId)
    (fun _ _ _ _ _ c hG hl hallowed hcond => consistent_serve c hG hl hallowed hcond)
    (disciplined_arrived d requests) (consistent_arrived requests hnodup howner) hrecent hrun
  exact hend.owner

/-- A request that nothing overlaps: no membership has been written by a commit since
the session loaded its rows and counted the owners. -/
def commitsAlone (db : Database) (sessions : List Session) (i : Nat) : Request → Prop
  | .commitControl => ∀ l ∈ sessions[i]?, (∀ x ∈ l.identityMap, x.mark = db.history.length) ∧
      ∀ c ∈ l.counted, c.mark = db.history.length
  | _ => True

theorem recentReads_of_alone {db : Database} {l : Session}
    (hloaded : ∀ x ∈ l.identityMap, x.mark = db.history.length)
    (hcounted : ∀ c ∈ l.counted, c.mark = db.history.length) : RecentReads db l := by
  refine ⟨fun x hx _ => ?_, fun c hc hpassed => ?_⟩
  · rw [hloaded x hx, List.drop_length]
    exact List.not_mem_nil
  · rw [hcounted c hc, List.drop_length]
    simpa using hpassed

/-- Requests that do not overlap keep an owner: each refuses the last one. -/
theorem owner_remains_without_overlap (d : Directory) (tenantId : Nat)
    (requests : List MemberRequest) (schedule : List (Nat × Choice))
    (pool : Pool DirectoryInterface Failure Database Session Reply)
    (hnodup : (d.memberships.map (·.id)).Nodup) (howner : 1 ≤ d.countOwners tenantId)
    (hrun : run (Pool.step serve) (arrived d requests) schedule = some pool)
    (halone : Along (Pool.step serve) (StepMeets commitsAlone) (arrived d requests) schedule) :
    1 ≤ pool.shared.directory.countOwners tenantId := by
  refine (pool_invariant (G := Consistent tenantId)
    (fun db sessions i l r c hG hl hallowed hcond => consistent_serve c hG hl hallowed ?_)
    (disciplined_arrived d requests) (consistent_arrived requests hnodup howner) halone hrun).owner
  cases r with
  | commitControl => exact fun l' hl' => recentReads_of_alone (hcond l' hl').1 (hcond l' hl').2
  | _ => trivial

def alice : User := ⟨1, "alice@exemple.fr", none⟩

def bob : User := ⟨2, "bob@exemple.fr", none⟩

def carol : User := ⟨3, "carol@exemple.fr", none⟩

/-- A tenant whose members are all owners. -/
def ownedBy (users : List User) : Directory where
  tenants := [⟨1, "acme", "Acme", .active, none⟩]
  users := users
  credentials := []
  memberships := users.map fun u => ⟨u.id, u.id, 1, .owner⟩
  invitations := []
  teams := []
  teamMembers := []
  auditEvents := []

/-- Alice and Bob each give up ownership. -/
def demotions : List MemberRequest :=
  [.changeRole 1 alice alice.id "member", .changeRole 1 bob bob.id "member"]

def calm : Choice := { now := 0 }

/-- The second demotion runs from end to end just before the first commits. -/
def overlap : List (Nat × Choice) :=
  List.replicate 9 (0, calm) ++ List.replicate 10 (1, calm) ++ [(0, calm)]

/-- The last two owners step down at the same time: each request has counted
two owners, and both commits go through. -/
theorem no_owner_after_overlapping_demotions :
    ((ownedBy [alice, bob]).memberships.map (·.id)).Nodup ∧
      (ownedBy [alice, bob]).countOwners 1 = 2 ∧
      (run (Pool.step serve) (arrived (ownedBy [alice, bob]) demotions) overlap).map
        (fun pool => pool.shared.directory.countOwners 1) = some 0 := by
  decide +kernel

/-- With a third owner the same overlap is harmless. -/
theorem owner_remains_with_three_owners :
    ∃ pool, run (Pool.step serve) (arrived (ownedBy [alice, bob, carol]) demotions) overlap =
      some pool ∧ 1 ≤ pool.shared.directory.countOwners 1 := by
  obtain ⟨pool, hrun⟩ : ∃ pool, run (Pool.step serve)
      (arrived (ownedBy [alice, bob, carol]) demotions) overlap = some pool :=
    Option.isSome_iff_exists.mp (by decide +kernel)
  refine ⟨pool, hrun, ?_⟩
  exact owner_remains_on_recent_reads (ownedBy [alice, bob, carol]) 1 demotions overlap pool
    (by decide) (by decide) hrun (by decide +kernel)

end Socle.LastOwner
