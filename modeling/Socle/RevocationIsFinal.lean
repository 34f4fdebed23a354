import Socle.RevocationSweep

/-!
The operations that interleave with a revocation.  Each of them reads the
status of the connection at its own moment and commits from the copy it read,
so the revocation is final in the runs where no copy outlives it.
-/

namespace Socle.RevocationIsFinal

open Socle.GuardedRuns
open Socle.Procedures
open Socle.DirectoryStore (Instant Tenant User)
open Socle.TokenExchange
open Socle.ConnectorStore
open Socle.ConnectorService
open Socle.ConnectorTransactions
open Socle.RevokedConnection
open Socle.RevocationGates
open Socle.RevocationSweep

/-- The session has at most one object for the connection, and it satisfies
`P`. -/
structure OwnObject (P : Object → Prop) (connectionId : Nat) (l : Session) : Prop where
  single : oneObject connectionId l
  holds : ∀ o ∈ l.objects, o.row.id = connectionId → P o

/-- The object can be committed, and it does not stand for a revocation. -/
def Keeps (o : Object) : Prop :=
  Fit o ∧ (o.current.status = .revoked → o.row.attributes.status = .revoked)

/-- The session has not touched the status and the tokens of the connection. -/
abbrev Tidy := OwnObject unchanged

abbrev Kept := OwnObject Keeps

theorem keeps_of_unchanged {o : Object} (h : unchanged o) : Keeps o := by
  obtain ⟨hstatus, haccess, hrefresh⟩ := h
  refine ⟨fun hconsistent => ?_, fun hrevoked => hstatus.symm.trans hrevoked⟩
  unfold consistent at hconsistent
  rw [hstatus, haccess, hrefresh]
  refine ⟨fun hrevoked => ?_, fun halive => .inr ?_⟩
  · rwa [if_pos hrevoked] at hconsistent
  · rwa [if_neg halive] at hconsistent

theorem kept_of_tidy {connectionId : Nat} {l : Session} (h : Tidy connectionId l) :
    Kept connectionId l :=
  ⟨h.single, fun o ho hid => keeps_of_unchanged (h.holds o ho hid)⟩

/-- An assignment that keeps both tokens and sets no status to revoked. -/
def Mild (a a' : Attributes) : Prop :=
  (a'.status = a.status ∨ a'.status ≠ .revoked) ∧ a'.accessTokenEnc = a.accessTokenEnc ∧
    a'.refreshTokenEnc = a.refreshTokenEnc

theorem Keeps.mild {o : Object} {a : Attributes} (h : Keeps o) (ha : Mild o.current a) :
    Keeps { o with current := a } := by
  obtain ⟨hfit, hrevoked⟩ := h
  obtain ⟨hstatus, haccess, hrefresh⟩ := ha
  have hback (ha : a.status = .revoked) : o.current.status = .revoked := by
    rcases hstatus with h | h
    · exact h.symm.trans ha
    · exact absurd ha h
  refine ⟨fun hconsistent => ?_, fun ha => hrevoked (hback ha)⟩
  obtain ⟨hdead, halive⟩ := hfit hconsistent
  show (a.status = .revoked → a.accessTokenEnc = [] ∧ a.refreshTokenEnc = []) ∧
    (a.status ≠ .revoked → o.row.attributes.status = .revoked ∨
      (a.accessTokenEnc ≠ [] ∧ a.refreshTokenEnc ≠ []))
  rw [haccess, hrefresh]
  refine ⟨fun ha => hdead (hback ha), fun _ => ?_⟩
  by_cases hcurrent : o.current.status = .revoked
  · exact .inl (hrevoked hcurrent)
  · exact halive hcurrent

/-- An assignment that writes no empty token and keeps the status. -/
def Seals (a a' : Attributes) : Prop :=
  a'.status = a.status ∧
    (a'.accessTokenEnc = a.accessTokenEnc ∨ a'.accessTokenEnc ≠ []) ∧
    (a'.refreshTokenEnc = a.refreshTokenEnc ∨ a'.refreshTokenEnc ≠ [])

theorem Keeps.seals {o : Object} {a : Attributes} (h : Keeps o)
    (htoken : o.current.refreshTokenEnc ≠ []) (ha : Seals o.current a) :
    Keeps { o with current := a } ∧ a.refreshTokenEnc ≠ [] := by
  obtain ⟨hfit, hrevoked⟩ := h
  obtain ⟨hstatus, haccess, hrefresh⟩ := ha
  have hkept : a.refreshTokenEnc ≠ [] := by
    rcases hrefresh with h | h
    · rw [h]
      exact htoken
    · exact h
  refine ⟨⟨fun hconsistent => ?_, fun ha => hrevoked (hstatus.symm.trans ha)⟩, hkept⟩
  obtain ⟨hdead, halive⟩ := hfit hconsistent
  refine ⟨fun ha => absurd (hdead (hstatus.symm.trans ha)).2 htoken, fun ha => ?_⟩
  rcases halive (fun h => ha (hstatus.trans h)) with hrow | ⟨htokens, -⟩
  · exact .inl hrow
  · refine .inr ⟨?_, hkept⟩
    rcases haccess with h | h
    · show a.accessTokenEnc ≠ []
      rw [h]
      exact htokens
    · exact h

/-- The requests that at most load objects. -/
def reading : Request → Prop
  | .commit => False
  | .assign .. => False
  | .addConnection .. => False
  | .refreshObject _ => False
  | _ => True

/-- The requests that leave the status and the tokens in memory those of the
row. -/
def plain : Request → Prop
  | .refreshObject _ => True
  | r => reading r

/-- The requests that keep the object committable. -/
def mild : Request → Prop
  | .assign _ value => ∀ stamp a a', value stamp a = .ok a' → Mild a a'
  | r => reading r

section Requests

variable {π : Type} {endpoint : TokenEndpoint π} {connectionId : Nat} {l : Session}

namespace OwnObject

variable {P : Object → Prop}

theorem nil (h : l.objects = []) : OwnObject P connectionId l := by
  constructor
  · intro o ho
    rw [h] at ho
    cases ho
  · intro o ho
    rw [h] at ho
    cases ho

theorem same {l' : Session} (h : OwnObject P connectionId l) (hobjects : l'.objects = l.objects) :
    OwnObject P connectionId l' := by
  obtain ⟨hsingle, hholds⟩ := h
  unfold oneObject at hsingle
  rw [← hobjects] at hsingle hholds
  exact ⟨hsingle, hholds⟩

theorem load (hP : ∀ mark row, P (Object.ofRow mark row)) (h : OwnObject P connectionId l)
    (mark : Nat) (row : Connection) : OwnObject P connectionId (l.load mark row) := by
  refine ⟨oneObject_load mark row h.single, fun o ho hid => ?_⟩
  rcases mem_load ho with hold | rfl
  · exact h.holds o hold hid
  · exact hP mark row

theorem loadAll (hP : ∀ mark row, P (Object.ofRow mark row)) (h : OwnObject P connectionId l)
    (mark : Nat) (rows : List Connection) :
    OwnObject P connectionId (Session.loadAll mark l rows) := by
  induction rows generalizing l with
  | nil => exact h
  | cons row rest ih => exact ih (h.load hP mark row)

theorem reading_allowed (hP : ∀ mark row, P (Object.ofRow mark row)) {r : Request}
    (hr : reading r) (h : OwnObject P connectionId l) :
    allowed connectionId l r ∧ ∀ w c, OwnObject P connectionId (serve endpoint w l r c).2.1 := by
  cases r with
  | commit => exact hr.elim
  | assign => exact hr.elim
  | addConnection => exact hr.elim
  | refreshObject => exact hr.elim
  | openSession tenantId => exact ⟨trivial, fun w c => nil rfl⟩
  | selectActiveConnections => exact ⟨trivial, fun w c => h.loadAll hP _ _⟩
  | getConnection id =>
      refine ⟨trivial, fun w c => ?_⟩
      simp only [serve]
      repeat' split
      · exact h
      · exact h.load hP _ _
      · exact h
  | findConnection provider kind accountLabel =>
      refine ⟨trivial, fun w c => ?_⟩
      simp only [serve]
      split
      · exact h.load hP _ _
      · exact h
  | commitControl =>
      refine ⟨trivial, fun w c => ?_⟩
      simp only [serve, World.commitControl]
      split
      · exact h.same rfl
      · exact h.same rfl
  | _ => exact ⟨trivial, fun w c => h.same rfl⟩

theorem assigned_ok {P' : Object → Prop} {id : Nat}
    {value : Stamp → Attributes → Except Failure Attributes} {l' : Session}
    (h : OwnObject P connectionId l) (hassigned : Assigned id value l l' (.ok ()))
    (hown : id = connectionId → ∀ o stamp a, P o → value stamp o.current = .ok a →
      P' { o with current := a })
    (hother : id ≠ connectionId → ∀ o, P o → P' o) : OwnObject P' connectionId l' := by
  rcases hassigned with ⟨-, hnone, rfl⟩ | ⟨found, stamp, a, -, hfound, hvalue, rfl⟩ | ⟨_, _, _, hout, -⟩
  · refine ⟨h.single, fun o ho hid => hother (fun heq => ?_) o (h.holds o ho hid)⟩
    exact absurd (List.find?_eq_none.mp hnone o ho) (by simp [hid, heq])
  · obtain ⟨hmem, hfoundId⟩ := mem_of_object? hfound
    refine ⟨oneObject_update (fun _ => rfl) h.single, fun o ho hid => ?_⟩
    obtain ⟨old, hold, ⟨holdId, rfl⟩ | ⟨hne, rfl⟩⟩ := mem_update ho
    · have hconnection : id = connectionId := holdId.symm.trans hid
      have heq : old = found := h.single old hold found hmem hid (hfoundId.trans hconnection)
      rw [heq] at hid ⊢
      exact hown hconnection found stamp a (h.holds found hmem hid) hvalue
    · exact hother (fun heq => hne (hid.trans heq.symm)) o (h.holds o hold hid)
  · cases hout

theorem assigned {id : Nat} {value : Stamp → Attributes → Except Failure Attributes}
    {l' : Session} {out : Except Failure Unit} (h : OwnObject P connectionId l)
    (hassigned : Assigned id value l l' out)
    (hP : id = connectionId → ∀ o stamp a, P o → value stamp o.current = .ok a →
      P { o with current := a }) : OwnObject P connectionId l' := by
  cases out with
  | ok _ => exact h.assigned_ok hassigned hP fun _ _ hold => hold
  | error e =>
      rcases hassigned with ⟨hout, -⟩ | ⟨_, _, _, hout, -⟩ | ⟨_, _, _, -, -, -, rfl⟩
      · cases hout
      · cases hout
      · exact h

end OwnObject

theorem unchanged_ofRow (mark : Nat) (row : Connection) : unchanged (Object.ofRow mark row) :=
  ⟨rfl, rfl, rfl⟩

theorem unchanged_reload {o : Object} (h : unchanged o) (mark : Nat) (row : Connection) :
    unchanged (o.reload mark row) := by
  obtain ⟨hstatus, haccess, hrefresh⟩ := h
  refine ⟨?_, ?_, ?_⟩
  · show column o.row.attributes.status o.current.status row.attributes.status = _
    rw [hstatus, column_same]
    rfl
  · show column o.row.attributes.accessTokenEnc o.current.accessTokenEnc
      row.attributes.accessTokenEnc = _
    rw [haccess, column_same]
    rfl
  · show column o.row.attributes.refreshTokenEnc o.current.refreshTokenEnc
      row.attributes.refreshTokenEnc = _
    rw [hrefresh, column_same]
    rfl

theorem tidy_refreshObject (h : Tidy connectionId l) (id : Nat) (w : World π) (c : Choice) :
    Tidy connectionId (serve endpoint w l (.refreshObject id) c).2.1 := by
  simp only [serve]
  split
  · rename_i row hrow
    have hrowId : row.id = id := by simpa using List.find?_some hrow
    refine ⟨?_, ?_⟩
    · refine oneObject_map (f := fun o => if o.row.id = id then
        o.reload w.history.length row else o) ?_ h.single rfl
      intro o
      split
      · rename_i hid
        exact hrowId.trans hid.symm
      · rfl
    · intro o ho hid
      obtain ⟨old, hold, ⟨holdId, rfl⟩ | ⟨-, rfl⟩⟩ := mem_update ho
      · have hconnection : row.id = connectionId := hid
        exact unchanged_reload
          (h.holds old hold (holdId.trans (hrowId.symm.trans hconnection))) _ _
      · exact h.holds o hold hid
  · exact h

theorem plain_allowed (endpoint : TokenEndpoint π) (l : Session) (r : Request) (hr : plain r)
    (hl : Tidy connectionId l) :
    allowed connectionId l r ∧ ∀ w c, Tidy connectionId (serve endpoint w l r c).2.1 := by
  cases r with
  | refreshObject id => exact ⟨trivial, tidy_refreshObject hl id⟩
  | _ => exact hl.reading_allowed unchanged_ofRow hr

theorem mild_allowed (l : Session) (r : Request) (hr : mild r) (hl : Kept connectionId l) :
    allowed connectionId l r ∧ ∀ w c, Kept connectionId (serve endpoint w l r c).2.1 := by
  cases r with
  | assign id value =>
      refine ⟨trivial, fun w c => hl.assigned (assigned_serve w l id value c) ?_⟩
      exact fun _ o stamp a hkeeps hvalue => hkeeps.mild (hr stamp _ _ hvalue)
  | _ =>
      exact hl.reading_allowed (fun mark row => keeps_of_unchanged (unchanged_ofRow mark row)) hr

theorem follows_plain {α : Type} {p : ConnectorProc α} (hp : Makes plain p)
    (hl : Tidy connectionId l) :
    Follows (serve endpoint) (allowed connectionId) (fun l _ => Tidy connectionId l) l p :=
  Makes.follows_of (plain_allowed endpoint) hp hl

theorem follows_mild {α : Type} {p : ConnectorProc α} (hp : Makes mild p)
    (hl : Kept connectionId l) :
    Follows (serve endpoint) (allowed connectionId) (fun l _ => Kept connectionId l) l p :=
  Makes.follows_of mild_allowed hp hl

theorem not_newlyRevoked {o : Object} (h : Keeps o) : newlyRevoked o = false := by
  rw [← Bool.not_eq_true]
  intro hnewly
  obtain ⟨hcurrent, hrow⟩ := of_decide_eq_true hnewly
  exact hrow (h.2 hcurrent)

theorem allowed_commit (hl : Kept connectionId l) : allowed connectionId l .commit := by
  refine ⟨fun o ho hid _ => (hl.holds o ho hid).1, ?_⟩
  rintro ⟨o, ho, hid, hnewly⟩
  rw [not_newlyRevoked (hl.holds o ho hid)] at hnewly
  cases hnewly

theorem follows_commit (hsingle : oneObject connectionId l)
    (hl : allowed connectionId l .commit) :
    Follows (serve endpoint) (allowed connectionId) (fun l _ => Tidy connectionId l) l commit := by
  refine follows_request_bind.mpr ⟨hl, fun w c => follows_ofExcept ?_⟩
  simp only [serve, World.commit]
  split
  · refine ⟨oneObject_map (f := Object.saved) (fun _ => rfl) hsingle rfl, ?_⟩
    intro o ho _
    obtain ⟨x, -, rfl⟩ := List.mem_map.mp ho
    exact ⟨rfl, rfl, rfl⟩
  · exact .nil rfl

theorem follows_commit_kept (hl : Kept connectionId l) :
    Follows (serve endpoint) (allowed connectionId) (fun l _ => Tidy connectionId l) l commit :=
  follows_commit hl.single (allowed_commit hl)

end Requests

/-- The session holds a refresh token for the connection, if it is the one that
is refreshed. -/
abbrev Refreshable (connectionId id : Nat) : Session → Prop :=
  OwnObject (fun o => Keeps o ∧ (id = connectionId → o.current.refreshTokenEnc ≠ [])) connectionId

section Refresh

variable {π : Type} {endpoint : TokenEndpoint π} {settings : Settings} {connectionId : Nat}
variable {l : Session}

theorem Refreshable.kept {id : Nat} (h : Refreshable connectionId id l) : Kept connectionId l :=
  ⟨h.single, fun o ho hid => (h.holds o ho hid).1⟩

theorem Refreshable.assigned {id : Nat} {value : Stamp → Attributes → Except Failure Attributes}
    {l' : Session} {out : Except Failure Unit} (h : Refreshable connectionId id l)
    (hassigned : Assigned id value l l' out)
    (hvalue : ∀ stamp a a', value stamp a = .ok a' → Mild a a' ∨ Seals a a') :
    Refreshable connectionId id l' := by
  refine OwnObject.assigned h hassigned fun hid o stamp a ⟨hkeeps, htoken⟩ hok => ?_
  rcases hvalue stamp _ _ hok with hmild | hseals
  · refine ⟨hkeeps.mild hmild, fun _ => ?_⟩
    show a.refreshTokenEnc ≠ []
    rw [hmild.2.2]
    exact htoken hid
  · obtain ⟨hkept, hsealed⟩ := hkeeps.seals (htoken hid) hseals
    exact ⟨hkept, fun _ => hsealed⟩

theorem sealAccessToken_seals {bundle : TokenBundle} {stamp : Stamp} {a a' : Attributes}
    (h : sealAccessToken settings bundle stamp a = .ok a') :
    Seals a a' ∧ a'.accessTokenEnc ≠ [] := by
  unfold sealAccessToken at h
  cases hencrypt : encryptToken settings.keys stamp.nonce bundle.accessToken with
  | error e =>
      rw [hencrypt] at h
      cases h
  | ok bytes =>
      rw [hencrypt] at h
      cases h
      have hne := (encryptToken_eq_ok hencrypt).1
      exact ⟨⟨rfl, .inr hne, .inl rfl⟩, hne⟩

theorem sealRefreshToken_seals {bundle : TokenBundle} {stamp : Stamp} {a a' : Attributes}
    (h : sealRefreshToken settings bundle stamp a = .ok a') :
    Seals a a' ∧ a'.accessTokenEnc = a.accessTokenEnc := by
  unfold sealRefreshToken at h
  split at h
  · cases h
    exact ⟨⟨rfl, .inl rfl, .inl rfl⟩, rfl⟩
  · cases h
    exact ⟨⟨rfl, .inl rfl, .inl rfl⟩, rfl⟩
  · rename_i token _ _
    cases hencrypt : encryptToken settings.keys stamp.nonce token with
    | error e =>
        rw [hencrypt] at h
        cases h
    | ok bytes =>
        rw [hencrypt] at h
        cases h
        exact ⟨⟨rfl, .inl rfl, .inr (encryptToken_eq_ok hencrypt).1⟩, rfl⟩

theorem stampExpiry_mild {bundle : TokenBundle} {stamp : Stamp} {a a' : Attributes}
    (h : stampExpiry bundle stamp a = .ok a') : Mild a a' := by
  unfold stampExpiry at h
  cases hexpiry : addSeconds stamp.now bundle.expiresIn with
  | error e =>
      rw [hexpiry] at h
      cases h
  | ok expiresAt =>
      rw [hexpiry] at h
      cases h
      exact ⟨.inl rfl, rfl, rfl⟩

theorem markHealthy_mild {stamp : Stamp} {a a' : Attributes} (h : markHealthy stamp a = .ok a') :
    Mild a a' := by
  cases h
  exact ⟨.inr (by simp), rfl, rfl⟩

theorem markReconsent_mild {stamp : Stamp} {a a' : Attributes}
    (h : markReconsent stamp a = .ok a') : Mild a a' := by
  cases h
  exact ⟨.inr (by simp), rfl, rfl⟩

theorem markRefreshFailed_mild {e : Failure} {stamp : Stamp} {a a' : Attributes}
    (h : markRefreshFailed e stamp a = .ok a') : Mild a a' := by
  cases h
  exact ⟨.inl rfl, rfl, rfl⟩

theorem markRenewed_mild {stamp : Stamp} {a a' : Attributes} (h : markRenewed stamp a = .ok a') :
    Mild a a' := by
  cases h
  exact ⟨.inl rfl, rfl, rfl⟩

theorem markRenewalFailed_mild {e : Failure} {stamp : Stamp} {a a' : Attributes}
    (h : markRenewalFailed e stamp a = .ok a') : Mild a a' := by
  cases h
  exact ⟨.inr (by simp), rfl, rfl⟩

theorem markSyncFailed_mild {e : Failure} {stamp : Stamp} {a a' : Attributes}
    (h : markSyncFailed e stamp a = .ok a') : Mild a a' := by
  cases h
  exact ⟨.inl rfl, rfl, rfl⟩

theorem widenScopes_mild {label : String} {scopes : List PyStr} {stamp : Stamp}
    {a a' : Attributes} (h : widenScopes label scopes stamp a = .ok a') : Mild a a' := by
  cases h
  exact ⟨.inl rfl, rfl, rfl⟩

theorem makes_assign_mild {id : Nat} {value : Stamp → Attributes → Except Failure Attributes}
    (hvalue : ∀ stamp a a', value stamp a = .ok a' → Mild a a') :
    Makes mild (assign id value) :=
  makes_request_bind.mpr ⟨hvalue, fun _ => makes_ofExcept _⟩

theorem follows_applyTokenBundle {id : Nat} {bundle : TokenBundle}
    (hl : Refreshable connectionId id l) :
    Follows (serve endpoint) (allowed connectionId) (fun l _ => Refreshable connectionId id l) l
      (applyTokenBundle settings id bundle) := by
  unfold applyTokenBundle
  refine follows_bind (follows_assign trivial) ?_ fun l e h =>
    hl.assigned h fun _ _ _ h => .inr (sealAccessToken_seals h).1
  intro l _ h
  have hl := hl.assigned h fun _ _ _ h => .inr (sealAccessToken_seals h).1
  refine follows_bind (follows_assign trivial) ?_ fun l e h =>
    hl.assigned h fun _ _ _ h => .inr (sealRefreshToken_seals h).1
  intro l _ h
  have hl := hl.assigned h fun _ _ _ h => .inr (sealRefreshToken_seals h).1
  refine follows_bind (follows_assign trivial) ?_ fun l e h =>
    hl.assigned h fun _ _ _ h => .inl (stampExpiry_mild h)
  intro l _ h
  have hl := hl.assigned h fun _ _ _ h => .inl (stampExpiry_mild h)
  exact Follows.mono (fun l out h => hl.assigned h fun _ _ _ h => .inl (markHealthy_mild h))
    (follows_assign trivial)

theorem follows_grantUnderLock {connection : Connection} {o : Object} (hl : Kept connectionId l)
    (ho : l.object? connection.id = some o) (hview : connection.attributes = o.current) :
    Follows (serve endpoint) (allowed connectionId)
      (fun l out => (∀ bundle, out = .ok bundle → Refreshable connectionId connection.id l) ∧
        ∀ e, out = .error e → Kept connectionId l)
      l (grantUnderLock settings connection) := by
  unfold grantUnderLock
  cases hdecrypt : settings.keys.decrypt connection.attributes.refreshTokenEnc with
  | error e => exact ⟨by simp, fun _ _ => hl⟩
  | ok token =>
      have hpresent : Refreshable connectionId connection.id l := by
        refine ⟨hl.single, fun x hx hxid => ⟨hl.holds x hx hxid, fun hid hempty => ?_⟩⟩
        obtain ⟨hmem, hoid⟩ := mem_of_object? ho
        have hxo : x = o := hl.single x hx o hmem hxid (hoid.trans hid)
        obtain ⟨message, hnil⟩ := settings.keys.decrypt_nil
        rw [hview, ← hxo, hempty, hnil] at hdecrypt
        cases hdecrypt
      refine Follows.mono ?_ (follows_runWithBackoff
        (P := Refreshable connectionId connection.id)
        (Q := fun l _ => Refreshable connectionId connection.id l) ?_ maxAttempts hpresent)
      · rintro l out ⟨hok, herror⟩
        exact ⟨hok, fun e he => (herror e he).kept⟩
      · intro l hl
        unfold refreshTokenGrant
        cases clientCredentials settings connection.provider with
        | error e => exact ⟨by simp, fun _ _ => hl⟩
        | ok pair =>
            refine follows_request_bind.mpr ⟨trivial, fun w c => follows_ofExcept ?_⟩
            exact ⟨fun _ _ => hl.same rfl, fun _ _ => hl.same rfl⟩

theorem follows_refreshUnderLock {connection : Connection} {o : Object} (hl : Kept connectionId l)
    (ho : l.object? connection.id = some o) (hview : connection.attributes = o.current) :
    Follows (serve endpoint) (allowed connectionId)
      (fun l out => Kept connectionId l ∧
        ∀ bundle, out = .ok (some bundle) → Refreshable connectionId connection.id l)
      l (refreshUnderLock settings connection) := by
  unfold refreshUnderLock
  refine follows_attempt_bind (follows_grantUnderLock hl ho hview) ?_
  rintro l (e | bundle) ⟨hok, herror⟩
  · have hkept := herror e rfl
    split
    · rename_i h
      cases h
    · refine follows_bind (follows_mild (makes_assign_mild fun _ _ _ => markReconsent_mild) hkept) ?_
        fun l e h => ⟨h, by simp⟩
      intro l _ h
      exact ⟨trivial, fun w c => ⟨h.same rfl, by simp⟩⟩
    · rename_i e' _ _
      by_cases htransient : e'.transient = true
      · rw [if_pos htransient]
        refine follows_bind
          (follows_mild (makes_assign_mild fun _ _ _ => markRefreshFailed_mild) hkept) ?_
          fun l e h => ⟨h, by simp⟩
        intro l _ h
        exact ⟨h, by simp⟩
      · rw [if_neg htransient]
        exact ⟨hkept, by simp⟩
  · have hgranted := hok bundle rfl
    exact ⟨hgranted.kept, fun _ _ => hgranted⟩

theorem plain_of_locking {id : Nat} (r : Request) (h : locking id r) : plain r := by
  cases r with
  | acquireLock _ => trivial
  | lockHolder _ => trivial
  | deleteLock _ => trivial
  | refreshObject _ => trivial
  | expiring _ _ => trivial
  | _ => exact h.elim

theorem follows_refreshConnection (id : Nat) (block : Bool) (hl : Tidy connectionId l) :
    Follows (serve endpoint) (allowed connectionId) (fun l _ => Kept connectionId l) l
      (refreshConnection settings id block) := by
  unfold refreshConnection
  refine follows_bind (follows_plain (makes_lockForRefresh plain_of_locking) hl) ?_
    fun l e h => kept_of_tidy h
  rintro l (_ | token) htidy
  · exact kept_of_tidy htidy
  have hl := kept_of_tidy htidy
  refine follows_bind (follows_readObject trivial) ?_ ?_
  · rintro l connection ⟨rfl, hread⟩
    obtain ⟨o, ho, rfl⟩ := hread connection rfl
    have hid : o.view.id = id := (mem_of_object? ho).2
    rw [← hid] at ho ⊢
    refine follows_attempt_bind (follows_refreshUnderLock hl ho rfl) ?_
    rintro l outcome ⟨hkept, hgranted⟩
    refine follows_bind (follows_releaseLock trivial trivial) ?_ (by rintro l e ⟨rfl, -⟩; exact hkept)
    rintro l' _ ⟨rfl, -⟩
    rcases outcome with e | _ | bundle
    · exact hkept
    · exact hkept
    · refine follows_bind (follows_applyTokenBundle (hgranted bundle rfl)) ?_ ?_
      · intro l _ h
        exact h.kept
      · intro l e h
        exact h.kept
  · rintro l e ⟨rfl, -⟩
    exact hl

theorem follows_freshAccessToken (id : Nat) (hl : Tidy connectionId l) :
    Follows (serve endpoint) (allowed connectionId)
      (fun l out => (∀ token, out = .ok token → Tidy connectionId l) ∧ Kept connectionId l) l
      (freshAccessToken settings id) := by
  refine follows_bind (follows_plain (makes_readObject trivial) hl) ?_
    fun l e h => ⟨by simp, kept_of_tidy h⟩
  intro l connection hl
  split
  · exact ⟨by simp, kept_of_tidy hl⟩
  · have hrefresh : Follows (serve endpoint) (allowed connectionId)
        (fun l out => (out = .ok () → Tidy connectionId l) ∧ Kept connectionId l) l
        (refreshIfExpiring settings id) := by
      refine follows_expiring_bind trivial fun expiring => ?_
      cases expiring with
      | false => exact ⟨fun _ => hl, kept_of_tidy hl⟩
      | true =>
          refine follows_bind (follows_refreshConnection id true hl) ?_ fun l e h => ⟨by simp, h⟩
          intro l _ h
          exact Follows.mono (fun l _ h => ⟨fun _ => h, kept_of_tidy h⟩) (follows_commit_kept h)
    refine follows_bind hrefresh ?_ fun l e h => ⟨by simp, h.2⟩
    intro l _ h
    refine follows_bind (follows_plain (makes_readObject trivial) (h.1 rfl)) ?_
      fun l e h => ⟨by simp, kept_of_tidy h⟩
    intro l refreshed h
    exact follows_ofExcept ⟨fun _ _ => h, kept_of_tidy h⟩

theorem follows_countRefresh (id : Nat) (report : RefreshReport) (hl : Tidy connectionId l) :
    Follows (serve endpoint) (allowed connectionId) (fun l _ => Kept connectionId l) l
      (countRefresh settings id report) := by
  unfold countRefresh
  refine follows_attempt_bind (follows_refreshConnection id false hl) ?_
  rintro l (e | renewed) h
  · by_cases htransient : e.transient = true
    · simp only [htransient, if_true]
      exact h
    · simp only [htransient, Bool.false_eq_true, if_false]
      exact h
  · cases renewed <;> exact h

theorem follows_refreshEach (lead : Instant) (ids : List Nat) (report : RefreshReport)
    (hl : Tidy connectionId l) :
    Follows (serve endpoint) (allowed connectionId)
      (fun l out => ∀ report, out = .ok report → Tidy connectionId l) l
      (refreshEach settings lead ids report) := by
  induction ids generalizing l report with
  | nil => exact fun _ _ => hl
  | cons id rest ih =>
      refine follows_expiring_bind trivial fun expiring => ?_
      cases expiring with
      | false => exact ih report hl
      | true =>
          refine follows_bind (follows_countRefresh id report hl) ?_ (by simp)
          intro l report h
          refine follows_bind (follows_commit_kept h) ?_ (by simp)
          intro l _ h
          exact ih report h

theorem follows_refreshTenants (lead : Instant) (tenants : List Tenant)
    (hl : Tidy connectionId l) :
    Follows (serve endpoint) (allowed connectionId) (fun _ _ => True) l
      (refreshTenants settings lead tenants) := by
  induction tenants generalizing l with
  | nil => trivial
  | cons tenant rest ih =>
      have hone : Follows (serve endpoint) (allowed connectionId)
          (fun l out => ∀ report, out = .ok report → Tidy connectionId l) l
          (refreshTenant settings lead tenant) := by
        refine follows_request_bind.mpr ⟨trivial, fun w c => ?_⟩
        have hopened : Tidy connectionId (serve endpoint w l (.openSession tenant.id) c).2.1 :=
          .nil rfl
        refine follows_request_bind.mpr ⟨trivial, fun w c => ?_⟩
        have hloaded := (plain_allowed endpoint _ .selectActiveConnections trivial hopened).2 w c
        refine follows_bind (follows_refreshEach lead _ _ hloaded) ?_ (by simp)
        intro l report h
        exact fun _ _ => h report rfl
      refine follows_bind hone ?_ (by simp)
      intro l report h
      exact follows_bind (ih (h report rfl)) (fun _ _ _ => trivial) (by simp)

end Refresh

section Calls

variable {π : Type} {endpoint : TokenEndpoint π} {settings : Settings} {connectionId : Nat}
variable {l : Session}

theorem follows_fresh_bind {α : Type} (id : Nat) {f : PyStr → ConnectorProc α}
    (hf : ∀ token, Makes plain (f token)) (hl : Tidy connectionId l) :
    Follows (serve endpoint) (allowed connectionId)
      (fun l out => (∀ a, out = .ok a → Tidy connectionId l) ∧ Kept connectionId l) l
      (freshAccessToken settings id >>= f) := by
  refine follows_bind (follows_freshAccessToken id hl) ?_ fun l e h => ⟨by simp, h.2⟩
  intro l token h
  exact Follows.mono (fun l _ h => ⟨fun _ _ => h, kept_of_tidy h⟩)
    (follows_plain (hf token) (h.1 token rfl))

theorem follows_requestWithFreshToken (id : Nat) (method path : String)
    (hl : Tidy connectionId l) :
    Follows (serve endpoint) (allowed connectionId)
      (fun l out => (∀ response, out = .ok response → Tidy connectionId l) ∧ Kept connectionId l) l
      (requestWithFreshToken settings id method path) :=
  follows_fresh_bind id (fun _ => Makes.bind (makes_readObject trivial) fun _ =>
    makes_providerHttpRequest trivial) hl

theorem follows_capabilityRequest (connection : Connection) (method path : String)
    (hl : Tidy connectionId l) :
    Follows (serve endpoint) (allowed connectionId)
      (fun l out => (∀ response, out = .ok response → Tidy connectionId l) ∧ Kept connectionId l) l
      (capabilityRequest settings connection method path) := by
  unfold capabilityRequest
  cases connection.provider with
  | google => exact follows_fresh_bind _ (fun _ => makes_callSdk trivial _) hl
  | microsoft => exact follows_requestWithFreshToken _ _ _ hl

theorem follows_capabilityRequests (connection : Connection) (requests : List (String × String))
    (hl : Tidy connectionId l) :
    Follows (serve endpoint) (allowed connectionId) (fun _ _ => True) l
      (capabilityRequests settings connection requests) := by
  induction requests generalizing l with
  | nil => trivial
  | cons request rest ih =>
      refine follows_bind (follows_capabilityRequest connection _ _ hl) ?_ (by simp)
      intro l response h
      exact ih (h.1 response rfl)

theorem follows_createGoogleChannel (id : Nat) (hl : Tidy connectionId l) :
    Follows (serve endpoint) (allowed connectionId)
      (fun l out => (out = .ok () → Tidy connectionId l) ∧ Kept connectionId l) l
      (createGoogleChannel settings id) := by
  refine follows_request_bind.mpr ⟨trivial, fun w c => ?_⟩
  refine follows_request_bind.mpr ⟨trivial, fun w c => ?_⟩
  refine Follows.mono (fun l out h => ⟨fun hout => h.1 () hout, h.2⟩)
    (follows_fresh_bind id (fun _ => ?_) hl)
  refine Makes.bind (makes_readObject trivial) fun _ => ?_
  refine Makes.bind (makes_providerHttpRequest trivial) fun _ => ?_
  refine Makes.bind (makes_ofExcept _) fun _ => ?_
  refine makes_request_bind.mpr ⟨trivial, fun _ => ?_⟩
  exact Makes.bind (makes_ofExcept _) fun _ => ⟨trivial, fun _ => trivial⟩

theorem follows_createGraphSubscription (id : Nat) (capability : String)
    (hl : Tidy connectionId l) :
    Follows (serve endpoint) (allowed connectionId)
      (fun l out => (out = .ok () → Tidy connectionId l) ∧ Kept connectionId l) l
      (createGraphSubscription settings id capability) := by
  refine follows_request_bind.mpr ⟨trivial, fun w c => ?_⟩
  refine follows_request_bind.mpr ⟨trivial, fun w c => ?_⟩
  refine Follows.mono (fun l out h => ⟨fun hout => h.1 () hout, h.2⟩)
    (follows_fresh_bind id (fun _ => ?_) hl)
  refine Makes.bind (makes_readObject trivial) fun _ => ?_
  refine Makes.bind (makes_providerHttpRequest trivial) fun _ => ?_
  refine Makes.bind (makes_ofExcept _) fun _ => ?_
  exact Makes.bind (makes_ofExcept _) fun _ => ⟨trivial, fun _ => trivial⟩

theorem follows_ensureEach (connection : Connection) (existing capabilities : List String)
    (hl : Tidy connectionId l) :
    Follows (serve endpoint) (allowed connectionId)
      (fun l out => (out = .ok () → Tidy connectionId l) ∧ Kept connectionId l) l
      (ensureEach settings connection existing capabilities) := by
  induction capabilities generalizing l with
  | nil => exact ⟨fun _ => hl, kept_of_tidy hl⟩
  | cons capability rest ih =>
      unfold ensureEach
      split
      · exact ih hl
      · split
        · split
          · exact ih hl
          · refine follows_bind (follows_createGoogleChannel connection.id hl) ?_
              fun l e h => ⟨by simp, h.2⟩
            intro l _ h
            exact ih (h.1 rfl)
        · refine follows_bind (follows_createGraphSubscription connection.id capability hl) ?_
            fun l e h => ⟨by simp, h.2⟩
          intro l _ h
          exact ih (h.1 rfl)

theorem follows_ensureSubscriptions (id : Nat) (hl : Tidy connectionId l) :
    Follows (serve endpoint) (allowed connectionId)
      (fun l out => (out = .ok () → Tidy connectionId l) ∧ Kept connectionId l) l
      (ensureSubscriptions settings id) := by
  refine follows_bind (follows_plain (makes_readObject trivial) hl) ?_
    fun l e h => ⟨by simp, kept_of_tidy h⟩
  intro l connection hl
  exact follows_request_bind.mpr ⟨trivial, fun w c => follows_ensureEach _ _ _ hl⟩

theorem follows_renewSubscription (connection : Connection) (subscription : Subscription)
    (hl : Tidy connectionId l) :
    Follows (serve endpoint) (allowed connectionId) (fun l _ => Kept connectionId l) l
      (renewSubscription settings connection subscription) := by
  unfold renewSubscription
  cases connection.provider with
  | microsoft =>
      refine follows_request_bind.mpr ⟨trivial, fun w c => ?_⟩
      refine Follows.mono (fun l out h => h.2) (follows_fresh_bind _ (fun _ => ?_) hl)
      exact Makes.bind (makes_providerHttpRequest trivial) fun _ => ⟨trivial, fun _ => trivial⟩
  | google =>
      refine follows_bind (follows_createGoogleChannel _ hl) ?_ fun l e h => h.2
      intro l _ h
      have hstop : Follows (serve endpoint) (allowed connectionId) (fun l _ => Kept connectionId l)
          l (stopGoogleChannel settings connection.id) :=
        follows_attempt_bind (follows_requestWithFreshToken _ _ _ (h.1 rfl)) fun _ _ h => h.2
      refine follows_bind hstop ?_ fun l e h => h
      intro l _ h
      exact ⟨trivial, fun w c => h.same rfl⟩

theorem follows_renewOnRoute (connection : Connection) (subscription : Subscription)
    (hl : Tidy connectionId l) :
    Follows (serve endpoint) (allowed connectionId)
      (fun l out => (out = .ok false → Tidy connectionId l) ∧ Kept connectionId l) l
      (renewOnRoute settings connection subscription) := by
  refine follows_ask_bind trivial fun w c route _ => ?_
  cases route with
  | none => exact ⟨fun _ => hl, kept_of_tidy hl⟩
  | some route =>
      refine follows_bind (follows_renewSubscription connection subscription hl) ?_
        fun l e h => ⟨by simp, h⟩
      intro l _ h
      refine follows_bind (follows_mild (makes_assign_mild fun _ _ _ => markRenewed_mild) h) ?_
        fun l e h => ⟨by simp, h⟩
      intro l _ h
      exact ⟨by simp, h⟩

theorem follows_renewUnderLock (connection : Connection) (subscription : Subscription)
    (hl : Tidy connectionId l) :
    Follows (serve endpoint) (allowed connectionId)
      (fun l out => (out = .ok none → Tidy connectionId l) ∧ Kept connectionId l) l
      (renewUnderLock settings connection subscription) := by
  unfold renewUnderLock
  refine follows_attempt_bind (follows_renewOnRoute connection subscription hl) ?_
  rintro l (e | _ | _) ⟨htidy, hkept⟩
  · refine follows_bind
      (follows_mild (makes_assign_mild fun _ _ _ => markRenewalFailed_mild) hkept) ?_
      fun l e h => ⟨by simp, h⟩
    intro l _ h
    exact ⟨trivial, fun w c => ⟨by simp, h.same rfl⟩⟩
  · exact ⟨fun _ => htidy rfl, hkept⟩
  · exact ⟨by simp, hkept⟩

theorem follows_renewLocked (connection : Connection) (subscription : Subscription) (token : Nat)
    (report : RenewalReport) (hl : Tidy connectionId l) :
    Follows (serve endpoint) (allowed connectionId)
      (fun l out => ∀ report, out = .ok report → Tidy connectionId l) l
      (renewLocked settings connection subscription token report) := by
  refine follows_bind (follows_renewUnderLock connection subscription hl) ?_ (by simp)
  rintro l outcome ⟨htidy, hkept⟩
  refine follows_bind (follows_releaseLock trivial trivial) ?_ (by simp)
  rintro l' _ ⟨rfl, -⟩
  rcases outcome with _ | _ | _
  · exact fun _ _ => htidy rfl
  · exact follows_bind (follows_commit_kept hkept) (fun l _ h _ _ => h) (by simp)
  · exact follows_bind (follows_commit_kept hkept) (fun l _ h _ _ => h) (by simp)

theorem follows_renewOne (subscription : Subscription) (report : RenewalReport)
    (hl : Tidy connectionId l) :
    Follows (serve endpoint) (allowed connectionId)
      (fun l out => ∀ report, out = .ok report → Tidy connectionId l) l
      (renewOne settings subscription report) := by
  refine follows_ask_bind trivial fun w c found _ => ?_
  have hl := (plain_allowed endpoint _ (.getConnection subscription.connectionId) trivial hl).2 w c
  cases found with
  | false => exact fun _ _ => hl
  | true =>
      refine follows_bind (follows_plain (makes_readObject trivial) hl) ?_ (by simp)
      intro l connection hl
      split
      · exact fun _ _ => hl
      · refine follows_ask_bind trivial fun w c token _ => ?_
        cases token with
        | none => exact fun _ _ => hl
        | some token => exact follows_renewLocked connection subscription token report hl

theorem follows_renewEach (subscriptions : List Subscription) (report : RenewalReport)
    (hl : Tidy connectionId l) :
    Follows (serve endpoint) (allowed connectionId) (fun _ _ => True) l
      (renewEach settings subscriptions report) := by
  induction subscriptions generalizing l report with
  | nil => trivial
  | cons subscription rest ih =>
      refine follows_bind (follows_renewOne subscription report hl) ?_ (by simp)
      intro l report h
      exact ih report (h report rfl)

theorem follows_renewTenants (horizon : Instant) (tenants : List Tenant) :
    Follows (serve endpoint) (allowed connectionId) (fun _ _ => True) l
      (renewTenants settings horizon tenants) := by
  induction tenants generalizing l with
  | nil => trivial
  | cons tenant rest ih =>
      refine follows_bind (Q := fun _ _ => True) ?_ ?_ (by simp)
      · refine follows_request_bind.mpr ⟨trivial, fun w c => ?_⟩
        refine follows_request_bind.mpr ⟨trivial, fun w c => ?_⟩
        exact follows_bind (follows_renewEach _ _ (.nil rfl)) (fun _ _ _ => trivial) (by simp)
      · intro l report _
        exact follows_bind ih (fun _ _ _ => trivial) (by simp)

theorem follows_syncInSession (tenantId id : Nat) :
    Follows (serve endpoint) (allowed connectionId) (fun _ _ => True) l
      (syncInSession settings tenantId id) := by
  refine follows_request_bind.mpr ⟨trivial, fun w c => ?_⟩
  have hopened : Tidy connectionId (serve endpoint w l (.openSession tenantId) c).2.1 := .nil rfl
  refine follows_ask_bind trivial fun w c found _ => ?_
  have hl := (plain_allowed endpoint _ (.getConnection id) trivial hopened).2 w c
  cases found with
  | false => trivial
  | true =>
      refine follows_bind (follows_plain (makes_readObject trivial) hl) ?_ (by simp)
      intro l connection hl
      split
      · trivial
      · refine follows_attempt_bind (follows_ensureSubscriptions id hl) ?_
        rintro l (e | _) ⟨-, hkept⟩
        · refine follows_bind
            (follows_mild (makes_assign_mild fun _ _ _ => markSyncFailed_mild) hkept) ?_ (by simp)
          intro l _ h
          exact Follows.mono (fun _ _ _ => trivial) (follows_commit_kept h)
        · exact Follows.mono (fun _ _ _ => trivial) (follows_commit_kept hkept)

theorem follows_syncConnectionSubscriptions (slug : String) (id : Nat) :
    Follows (serve endpoint) (allowed connectionId) (fun _ _ => True) l
      (syncConnectionSubscriptions settings slug id) := by
  refine follows_ask_bind trivial fun w c tenants _ => ?_
  split
  · trivial
  · refine follows_ask_bind trivial fun w c route _ => ?_
    cases route with
    | none => trivial
    | some route => exact follows_syncInSession _ _

end Calls

section Callback

variable {π : Type} {endpoint : TokenEndpoint π} {settings : Settings} {connectionId : Nat}
variable {l : Session}

/-- The object of the target has the tokens of the callback; any other one is
as it was. -/
def Revived (connectionId target : Nat) (o : Object) : Prop :=
  (target ≠ connectionId → Keeps o) ∧
    (target = connectionId → o.current.status = .active ∧ o.current.accessTokenEnc ≠ [])

/-- On its way there. -/
def Reviving (connectionId target : Nat) (o : Object) : Prop :=
  (target ≠ connectionId → Keeps o) ∧ (target = connectionId → o.current.accessTokenEnc ≠ [])

theorem follows_applyTokenBundle_callback (target : Nat) (bundle : TokenBundle)
    (hl : Kept connectionId l) :
    Follows (serve endpoint) (allowed connectionId)
      (fun l out => out = .ok () → OwnObject (Revived connectionId target) connectionId l) l
      (applyTokenBundle settings target bundle) := by
  unfold applyTokenBundle
  refine follows_bind (follows_assign trivial) ?_ (by simp)
  intro l _ h
  have hl : OwnObject (Reviving connectionId target) connectionId l := by
    refine hl.assigned_ok h ?_ ?_
    · intro hid o stamp a _ hvalue
      exact ⟨fun hne => absurd hid hne, fun _ => (sealAccessToken_seals hvalue).2⟩
    · exact fun hne o hkeeps => ⟨fun _ => hkeeps, fun hid => absurd hid hne⟩
  refine follows_bind (follows_assign trivial) ?_ (by simp)
  intro l _ h
  have hl : OwnObject (Reviving connectionId target) connectionId l := by
    refine hl.assigned h fun hid o stamp a hold hvalue => ⟨fun hne => absurd hid hne, fun _ => ?_⟩
    show a.accessTokenEnc ≠ []
    rw [(sealRefreshToken_seals hvalue).2]
    exact hold.2 hid
  refine follows_bind (follows_assign trivial) ?_ (by simp)
  intro l _ h
  have hl : OwnObject (Reviving connectionId target) connectionId l := by
    refine hl.assigned h fun hid o stamp a hold hvalue => ⟨fun hne => absurd hid hne, fun _ => ?_⟩
    show a.accessTokenEnc ≠ []
    rw [(stampExpiry_mild hvalue).2.1]
    exact hold.2 hid
  refine Follows.mono ?_ (follows_assign trivial)
  rintro l out h rfl
  refine hl.assigned_ok h ?_ fun hne o hold => ⟨hold.1, fun hid => absurd hid hne⟩
  intro hid o stamp a hold hvalue
  refine ⟨fun hne => absurd hid hne, fun _ => ⟨?_, ?_⟩⟩
  · cases hvalue
    rfl
  · show a.accessTokenEnc ≠ []
    rw [(markHealthy_mild hvalue).2.1]
    exact hold.2 hid

theorem follows_connectionFor (provider : ConnectorProvider) (kind : ConnectionKind)
    (accountLabel : String) (id : Option Nat) (hl : l.objects = []) :
    Follows (serve endpoint) (allowed connectionId)
      (fun l out => Tidy connectionId l ∧ (out = .ok none → l.objects = [])) l
      (connectionFor provider kind accountLabel id) := by
  have hown : Tidy connectionId l := OwnObject.nil hl
  have hfind : Follows (serve endpoint) (allowed connectionId)
      (fun l out => Tidy connectionId l ∧ (out = .ok none → l.objects = [])) l
      (ask (.findConnection provider kind accountLabel)) := by
    refine ⟨trivial, fun w c => ?_⟩
    have htidy := (plain_allowed endpoint l (.findConnection provider kind accountLabel) trivial
      hown).2 w c
    refine ⟨htidy, ?_⟩
    simp only [serve]
    split
    · intro h
      cases h
    · exact fun _ => hl
  cases id with
  | none => exact hfind
  | some id =>
      refine follows_ask_bind trivial fun w c found hfound => ?_
      have htidy := (plain_allowed endpoint l (.getConnection id) trivial
        hown).2 w c
      cases found with
      | true => exact ⟨htidy, by simp⟩
      | false =>
          have hsame : (serve endpoint w l (.getConnection id) c).2.1 = l := by
            revert hfound
            simp only [serve]
            repeat' split
            · exact fun _ => rfl
            · intro h
              cases h
            · exact fun _ => rfl
          rw [hsame]
          exact hfind

theorem follows_upsertTarget (provider : ConnectorProvider) (kind : ConnectionKind)
    (userId : Option Nat) (accountLabel : String) (scopes : List PyStr) (bundle : TokenBundle)
    (id : Option Nat) (hl : l.objects = []) :
    Follows (serve endpoint) (allowed connectionId)
      (fun l out => ∀ target, out = .ok target → Kept connectionId l) l
      (upsertTarget provider kind userId accountLabel scopes bundle id) := by
  refine follows_bind (follows_connectionFor provider kind accountLabel id hl) ?_ (by simp)
  rintro l (_ | found) ⟨htidy, hnone⟩
  · have hempty := hnone rfl
    dsimp only
    split
    · exact fun _ h => by cases h
    · refine ⟨?_, fun w c _ _ => ?_⟩
      · intro o ho
        rw [hempty] at ho
        cases ho
      · simp only [serve, hempty]
        refine ⟨?_, ?_⟩
        · intro o ho o' ho' _ _
          rw [List.mem_singleton.mp ho, List.mem_singleton.mp ho']
        · intro o ho _
          rw [List.mem_singleton.mp ho]
          exact keeps_of_unchanged ⟨rfl, rfl, rfl⟩
  · refine follows_bind (follows_mild (makes_assign_mild fun _ _ _ => widenScopes_mild)
      (kept_of_tidy htidy)) ?_ (by simp)
    exact fun l _ h _ _ => h

theorem follows_upsertConnection (provider : ConnectorProvider) (kind : ConnectionKind)
    (userId : Option Nat) (accountLabel : String) (scopes : List PyStr) (bundle : TokenBundle)
    (id : Option Nat) (hl : l.objects = []) :
    Follows (serve endpoint) (allowed connectionId)
      (fun l out => ∀ target, out = .ok target → Kept connectionId l) l
      (upsertConnection settings provider kind userId accountLabel scopes bundle id) := by
  refine follows_bind
    (follows_upsertTarget provider kind userId accountLabel scopes bundle id hl) ?_ (by simp)
  intro l target h
  refine follows_bind (follows_applyTokenBundle_callback target bundle (h target rfl)) ?_ (by simp)
  intro l _ h
  have hl := h rfl
  refine follows_bind (follows_readObject trivial) ?_ (by simp)
  rintro l connection ⟨rfl, hread⟩
  obtain ⟨o, ho, rfl⟩ := hread connection rfl
  split
  · exact fun _ h => by cases h
  · rename_i htoken
    refine fun _ _ => ⟨hl.single, fun x hx hxid => ?_⟩
    obtain ⟨hother, htarget⟩ := hl.holds x hx hxid
    by_cases hid : target = connectionId
    · obtain ⟨hactive, haccess⟩ := htarget hid
      obtain ⟨hmem, hoid⟩ := mem_of_object? ho
      have hxo : x = o := hl.single x hx o hmem hxid (hoid.trans hid)
      refine ⟨fun _ => ⟨fun hrevoked => ?_, fun _ => .inr ⟨haccess, hxo ▸ htoken⟩⟩, fun hrevoked => ?_⟩
      · rw [hactive] at hrevoked
        cases hrevoked
      · rw [hactive] at hrevoked
        cases hrevoked
    · exact hother hid

theorem follows_rethrow {α : Type} {Q : Session → α → Prop} {f : Failure → Failure}
    {p : ConnectorProc α}
    (hp : Follows (serve endpoint) (allowed connectionId) (fun l out => ∀ a, out = .ok a → Q l a) l p) :
    Follows (serve endpoint) (allowed connectionId) (fun l out => ∀ a, out = .ok a → Q l a) l
      (rethrow f p) := by
  refine follows_attempt_bind hp ?_
  rintro l (e | a) h
  · exact fun _ h => by cases h
  · exact h

theorem follows_connectInSession (provider : ConnectorProvider) (state : OAuthState)
    (tenantId : Nat) (bundle : TokenBundle) (accountLabel : PyStr) (scopes : List PyStr) :
    Follows (serve endpoint) (allowed connectionId)
      (fun l out => ∀ id, out = .ok id → Tidy connectionId l) l
      (connectInSession settings provider state tenantId bundle accountLabel scopes) := by
  refine follows_request_bind.mpr ⟨trivial, fun w c => ?_⟩
  cases labelText accountLabel with
  | error e => exact fun _ h => by cases h
  | ok label =>
      simp only [Proc.ofExcept, Proc.ret_bind]
      refine follows_bind (follows_rethrow (Q := fun l _ => Kept connectionId l)
        (follows_upsertConnection provider _ _ label scopes bundle _ rfl)) ?_ (by simp)
      intro l target h
      refine follows_request_bind.mpr ⟨trivial, fun w c => ?_⟩
      refine follows_bind (follows_commit_kept ((h target rfl).same rfl)) ?_ (by simp)
      exact fun l _ h _ _ => h

theorem follows_connectorOauthCallback (provider : ConnectorProvider) (state : Option OAuthState)
    (code error : Option String) (hl : Tidy connectionId l) :
    Follows (serve endpoint) (allowed connectionId) (fun _ _ => True) l
      (connectorOauthCallback settings provider state code error) := by
  unfold connectorOauthCallback
  cases state with
  | none => trivial
  | some state =>
      cases code with
      | none => trivial
      | some code =>
          dsimp only
          split
          · trivial
          refine follows_ask_bind trivial fun w c tenant _ => ?_
          cases tenant with
          | none => trivial
          | some tenant =>
              dsimp only
              split
              · trivial
              have hexchange : Makes plain (rethrow oauthFailure
                  (exchangeAndLabel settings tenant.id provider code)) := by
                refine Makes.bind (Makes.attempt ?_) fun outcome => ?_
                · refine Makes.bind (Makes.bind (makes_ofExcept _) fun _ => ?_) fun bundle => ?_
                  · exact makes_request_bind.mpr ⟨trivial, fun _ => makes_ofExcept _⟩
                  · refine Makes.bind ?_ fun _ => trivial
                    exact makes_request_bind.mpr ⟨trivial, fun _ => makes_ofExcept _⟩
                · cases outcome <;> trivial
              refine follows_bind (follows_plain hexchange hl) ?_ (by simp)
              rintro l ⟨bundle, label⟩ hl
              dsimp only
              cases grantedScopes provider state.capabilities bundle with
              | error e => trivial
              | ok scopes =>
                  simp only [Proc.ofExcept, Proc.ret_bind]
                  refine follows_bind
                    (follows_connectInSession provider state tenant.id bundle label scopes) ?_
                    (by simp)
                  intro l target h
                  refine Follows.mono (fun _ _ _ => trivial) (follows_plain ?_ (h target rfl))
                  refine Makes.bind ?_ fun _ => ?_
                  · refine makes_request_bind.mpr ⟨trivial, fun route => ?_⟩
                    cases route with
                    | none => exact ⟨trivial, fun _ => ⟨trivial, fun _ => trivial⟩⟩
                    | some _ => trivial
                  · refine Makes.bind ?_ fun _ => ⟨trivial, fun _ => trivial⟩
                    exact makes_request_bind.mpr ⟨trivial, fun _ => makes_ofExcept _⟩

end Callback

section Revocation

variable {π : Type} {endpoint : TokenEndpoint π} {settings : Settings} {connectionId : Nat}
variable {l : Session}

theorem allowed_of_still (l : Session) (r : Request) (hr : still r) :
    allowed connectionId l r := by
  cases r with
  | readObject | revokeRemote | callApi | now => trivial
  | _ => exact hr.elim

def addsNone (connectionId : Nat) (l : Session) : Prop :=
  ∀ change ∈ l.pending, addsSubscription connectionId change = false

theorem follows_revokeConnection (id : Nat) (hl : Tidy connectionId l)
    (hadds : addsNone connectionId l) :
    Follows (serve endpoint) (allowed connectionId)
      (fun l _ => OwnObject Fit connectionId l ∧ addsNone connectionId l) l
      (revokeConnection settings id) := by
  have hfit : OwnObject Fit connectionId l :=
    ⟨hl.single, fun o ho hid => (keeps_of_unchanged (hl.holds o ho hid)).1⟩
  have hassign : Follows (serve endpoint) (allowed connectionId)
      (fun l _ => OwnObject Fit connectionId l ∧ addsNone connectionId l) l
      (assign id markRevoked) := by
    refine Follows.mono ?_ (follows_assign trivial)
    intro l' out h
    refine ⟨hfit.assigned h ?_, ?_⟩
    · intro _ o stamp a _ hvalue _
      cases hvalue
      exact ⟨fun _ => ⟨rfl, rfl⟩, fun halive => absurd rfl halive⟩
    · unfold addsNone
      rw [h.pending]
      exact hadds
  refine follows_bind (follows_still allowed_of_still (makes_readObject trivial)) ?_
    (by rintro l' e rfl; exact ⟨hfit, hadds⟩)
  rintro l' connection rfl
  split
  · refine follows_attempt_bind (follows_still (l := l') allowed_of_still ?_)
      (by rintro l out rfl; exact hassign)
    refine Makes.bind (makes_ofExcept _) fun _ => ?_
    exact makes_request_bind.mpr ⟨trivial, fun _ => trivial⟩
  · exact hassign

theorem getConnection_pending (w : World π) (l : Session) (id : Nat) (c : Choice) :
    (serve endpoint w l (.getConnection id) c).2.1.pending = l.pending := by
  simp only [serve]
  repeat' split
  · rfl
  · exact load_pending _ _ _
  · rfl

theorem addsNone_add {change : Change} (h : addsNone connectionId l)
    (hchange : addsSubscription connectionId change = false) :
    addsNone connectionId (l.add change) := by
  intro x hx
  rcases List.mem_append.mp hx with hold | hnew
  · exact h x hold
  · rw [List.mem_singleton.mp hnew]
    exact hchange

theorem follows_connectorRevoke (tenantId : Nat) (actor : User) (id : Nat) :
    Follows (serve endpoint) (allowed connectionId) (fun _ _ => True) l
      (connectorRevoke settings tenantId actor id) := by
  refine follows_request_bind.mpr ⟨trivial, fun w c => ?_⟩
  have hopened : Tidy connectionId (serve endpoint w l (.openSession tenantId) c).2.1 := .nil rfl
  refine follows_ask_bind trivial fun w' c' found _ => ?_
  have hl := (plain_allowed endpoint _ (.getConnection id) trivial hopened).2 w' c'
  have hadds : addsNone connectionId (serve endpoint w'
      (serve endpoint w l (.openSession tenantId) c).2.1 (.getConnection id) c').2.1 := by
    unfold addsNone
    rw [getConnection_pending]
    exact fun _ h => by cases h
  cases found with
  | false => trivial
  | true =>
      refine follows_bind (follows_still allowed_of_still (makes_readObject trivial)) ?_ (by simp)
      rintro l connection rfl
      split
      · trivial
      · refine follows_bind (follows_revokeConnection id hl hadds) ?_ (by simp)
        rintro l _ ⟨hfit, hadds⟩
        refine follows_request_bind.mpr ⟨trivial, fun w c => ?_⟩
        refine follows_request_bind.mpr ⟨trivial, fun w c => ?_⟩
        refine follows_bind (follows_commit hfit.single ?_) ?_ (by simp)
        · refine ⟨fun o ho hid _ => hfit.holds o ho hid, fun _ => ?_⟩
          exact ⟨addsNone_add (addsNone_add hadds rfl) rfl, by simp [serve, Session.add, bulk]⟩
        · intro l _ htidy
          refine Follows.mono (fun _ _ _ => trivial) (follows_plain ?_ htidy)
          refine makes_request_bind.mpr ⟨trivial, fun _ => ?_⟩
          exact makes_request_bind.mpr ⟨trivial, fun _ => makes_ofExcept _⟩

/-- The session holds the connection, whose row it has not read as revoked. -/
def HoldsAlive (connectionId : Nat) (l : Session) : Prop :=
  ∃ o, l.object? connectionId = some o ∧ o.row.attributes.status ≠ .revoked

/-- What the session commits is a revocation of the connection. -/
def Revokes (connectionId : Nat) (l : Session) : Prop :=
  ∃ o ∈ l.objects, o.row.id = connectionId ∧ newlyRevoked o = true

/-- A commit that succeeds is recorded as a revocation of the connection. -/
def recordsRevocation (π : Type) (connectionId : Nat) (l : Session) (r : Request) : Prop :=
  r = .commit → ∀ w : World π, (w.commit l).2.2 = .ok () →
    (w.commit l).1.history.any (revokes connectionId) = true

theorem Revokes.recorded (h : Revokes connectionId l) :
    recordsRevocation π connectionId l .commit := by
  intro _ w hok
  obtain ⟨o, ho, hid, hnewly⟩ := h
  unfold World.commit at hok ⊢
  split at hok
  · have hevent : (l.objects.flatMap Object.trace).any (revokes connectionId) = true := by
      rw [any_revokes_trace, List.any_eq_true]
      exact ⟨o, ho, by simp [hid, hnewly]⟩
    simp [List.any_append, hevent]
  · cases hok

theorem recordsRevocation_of_still (l : Session) (r : Request) (hr : still r) :
    recordsRevocation π connectionId l r := by
  rintro rfl
  exact hr.elim

theorem revokes_revokeConnection (h : HoldsAlive connectionId l) :
    Follows (serve endpoint) (recordsRevocation π connectionId)
      (fun l out => out = .ok () → Revokes connectionId l) l
      (revokeConnection settings connectionId) := by
  have hassign : Follows (serve endpoint) (recordsRevocation π connectionId)
      (fun l out => out = .ok () → Revokes connectionId l) l
      (assign connectionId markRevoked) := by
    refine Follows.mono ?_ (follows_assign nofun)
    obtain ⟨o, ho, halive⟩ := h
    rintro l' out (⟨-, hnone, -⟩ | ⟨o', stamp, a, -, -, hvalue, rfl⟩ | ⟨o', stamp, e, rfl, -⟩) hok
    · rw [ho] at hnone
      cases hnone
    · have hstatus : a.status = .revoked := by
        cases hvalue
        rfl
      have hobject : (l.update connectionId fun o => { o with current := a }).object? connectionId =
          some { o with current := a } := object?_update (fun _ => rfl) ho
      obtain ⟨hmem, hid⟩ := mem_of_object? hobject
      exact ⟨_, hmem, hid, by simp [newlyRevoked, hstatus, halive]⟩
    · cases hok
  refine follows_bind (follows_still recordsRevocation_of_still (makes_readObject trivial)) ?_
    (by simp)
  rintro l' connection rfl
  split
  · refine follows_attempt_bind (follows_still (l := l') recordsRevocation_of_still ?_)
      (by rintro l out rfl; exact hassign)
    refine Makes.bind (makes_ofExcept _) fun _ => ?_
    exact makes_request_bind.mpr ⟨trivial, fun _ => trivial⟩
  · exact hassign

theorem object?_getConnection (w : World π) (l : Session) (id : Nat) (c : Choice)
    (hl : l.objects = []) {o : Object}
    (ho : (serve endpoint w l (.getConnection id) c).2.1.object? id = some o) :
    o.current = o.row.attributes := by
  obtain ⟨hmem, -⟩ := mem_of_object? ho
  have hnone : l.object? id = none := by simp [Session.object?, hl]
  simp only [serve, hnone] at hmem
  split at hmem
  · rcases mem_load hmem with hold | rfl
    · rw [hl] at hold
      cases hold
    · rfl
  · rw [hl] at hmem
    cases hmem

/-- Whatever `connector_revoke` commits to the connections is the revocation. -/
theorem revokes_connectorRevoke (tenantId : Nat) (actor : User) (id : Nat) :
    Follows (serve endpoint) (recordsRevocation π id) (fun _ _ => True) l
      (connectorRevoke settings tenantId actor id) := by
  refine follows_request_bind.mpr ⟨nofun, fun w c => ?_⟩
  refine follows_ask_bind nofun fun w' c' found _ => ?_
  cases found with
  | false => trivial
  | true =>
      refine follows_bind (follows_readObject nofun) ?_ (by simp)
      rintro l connection ⟨rfl, hread⟩
      obtain ⟨o, ho, rfl⟩ := hread connection rfl
      split
      · trivial
      · rename_i halive
        have hcurrent := object?_getConnection w' _ id c' rfl ho
        have hrow : o.row.attributes.status ≠ .revoked := by
          rw [← hcurrent]
          exact halive
        refine follows_bind (revokes_revokeConnection ⟨o, ho, hrow⟩) ?_ (by simp)
        intro l _ hrevokes
        refine follows_request_bind.mpr ⟨nofun, fun w c => ?_⟩
        refine follows_request_bind.mpr ⟨nofun, fun w c => ?_⟩
        refine follows_request_bind.mpr ⟨Revokes.recorded (hrevokes rfl), fun w c => ?_⟩
        refine follows_bind (Q := fun _ _ => True) (follows_ofExcept trivial) ?_ (by simp)
        intro l _ _
        refine follows_request_bind.mpr ⟨nofun, fun w c => ?_⟩
        exact follows_request_bind.mpr ⟨nofun, fun w c => follows_ofExcept trivial⟩

end Revocation

/-- The operations on connections that run beside a revocation. -/
inductive Operation where
  | refreshBeat
  | capability (tenantId connectionId : Nat) (name : String) (requests : List (String × String))
  | renewalBeat
  | sync (slug : String) (connectionId : Nat)
  | callback (provider : ConnectorProvider) (state : Option OAuthState) (code error : Option String)
  | revoke (tenantId : Nat) (actor : User) (connectionId : Nat)

def Operation.run (settings : Settings) : Operation → ConnectorProc Unit
  | .refreshBeat => do
      let _ ← refreshExpiringTokens settings
  | .capability tenantId connectionId name requests =>
      capabilityCall settings tenantId connectionId name requests
  | .renewalBeat => do
      let _ ← renewExpiringSubscriptions settings
  | .sync slug connectionId => syncConnectionSubscriptions settings slug connectionId
  | .callback provider state code error => do
      let _ ← connectorOauthCallback settings provider state code error
  | .revoke tenantId actor connectionId => connectorRevoke settings tenantId actor connectionId

abbrev ConnectorPool := Pool ConnectorInterface Failure (World Unit) Session Unit

def launch (settings : Settings) (world : World Unit) (operations : List Operation) :
    ConnectorPool :=
  ⟨world, operations.map fun operation => ({}, operation.run settings)⟩

abbrev connectorStep : ConnectorPool → Nat × Choice → Option ConnectorPool :=
  Pool.step (serve anyAnswer)

/-- The state of the OAuth flow names the connection. -/
def Operation.names (connectionId : Nat) : Operation → Bool
  | .callback _ (some state) _ _ => state.connectionId == some connectionId
  | _ => false

/-- The threads that are given the connection by the state of a flow. -/
def named (operations : List Operation) (connectionId i : Nat) : Bool :=
  operations[i]?.any (Operation.names connectionId)

/-- Nothing has happened yet: the connection is one row, with both tokens or
revoked, as the callback and the revocation leave it, and its subscriptions are of
its tenant. -/
structure Start (connectionId : Nat) (world : World Unit) : Prop where
  history : world.history = []
  exists_row : world.tables.hasConnection connectionId = true
  unique : ∀ row ∈ world.tables.connections, ∀ row' ∈ world.tables.connections,
    row.id = connectionId → row'.id = connectionId → row = row'
  rows : ∀ row ∈ world.tables.connections, row.id = connectionId → consistent row.attributes
  home : ∀ s ∈ world.tables.subscriptions, s.connectionId = connectionId →
    ∀ row ∈ world.tables.connections, row.id = connectionId → s.tenantId = row.tenantId

theorem follows_operation {settings : Settings} {connectionId : Nat} (operation : Operation) :
    Follows (serve anyAnswer) (allowed connectionId) (fun _ _ => True) {}
      (operation.run settings) := by
  have hstart : Tidy connectionId {} := .nil rfl
  cases operation with
  | refreshBeat =>
      refine follows_bind (Q := fun _ _ => True) ?_ (fun _ _ _ => trivial) (by simp)
      exact follows_request_bind.mpr ⟨trivial, fun w c => follows_refreshTenants _ _ hstart⟩
  | capability tenantId id name requests =>
      refine follows_request_bind.mpr ⟨trivial, fun w c => ?_⟩
      have hopened : Tidy connectionId (serve anyAnswer w {} (.openSession tenantId) c).2.1 :=
        .nil rfl
      refine follows_ask_bind trivial fun w c found _ => ?_
      have hl := (plain_allowed anyAnswer _ (.getConnection id) trivial hopened).2 w c
      cases found with
      | false => trivial
      | true =>
          refine follows_bind (follows_plain (makes_getCapability trivial) hl) ?_ (by simp)
          intro l connection hl
          exact follows_capabilityRequests connection requests hl
  | renewalBeat =>
      refine follows_bind (Q := fun _ _ => True) ?_ (fun _ _ _ => trivial) (by simp)
      refine follows_request_bind.mpr ⟨trivial, fun w c => ?_⟩
      exact follows_request_bind.mpr ⟨trivial, fun w c => follows_renewTenants _ _⟩
  | sync slug id => exact follows_syncConnectionSubscriptions slug id
  | callback provider state code error =>
      refine follows_bind (Q := fun _ _ => True) ?_ (fun _ _ _ => trivial) (by simp)
      exact follows_connectorOauthCallback provider state code error hstart
  | revoke tenantId actor id => exact follows_connectorRevoke tenantId actor id

theorem gated_operation {settings : Settings} {connectionId : Nat} (operation : Operation) :
    Follows (serve anyAnswer) (gated connectionId (operation.names connectionId))
      (fun _ _ => True) {} (operation.run settings) := by
  cases operation with
  | refreshBeat =>
      refine follows_bind (Q := fun _ _ => True) ?_ (fun _ _ _ => trivial) (by simp)
      exact follows_request_bind.mpr ⟨trivial, fun w c => gated_refreshTenants _ _⟩
  | capability tenantId id name requests => exact gated_capabilityCall tenantId id name requests
  | renewalBeat =>
      refine follows_bind (Q := fun _ _ => True) ?_ (fun _ _ _ => trivial) (by simp)
      refine follows_request_bind.mpr ⟨trivial, fun w c => ?_⟩
      exact follows_request_bind.mpr ⟨trivial, fun w c => gated_renewTenants _ _⟩
  | sync slug id => exact gated_syncConnectionSubscriptions slug id
  | callback provider state code error =>
      refine follows_bind (Q := fun _ _ => True) ?_ (fun _ _ _ => trivial) (by simp)
      refine gated_connectorOauthCallback provider state code error ?_ (owned_nil rfl rfl)
      rintro ⟨s, rfl, hs⟩
      simp [Operation.names, hs]
  | revoke tenantId actor id => exact gated_connectorRevoke tenantId actor id

theorem session_launch {settings : Settings} {world : World Unit} {operations : List Operation}
    {l : Session} (hl : l ∈ (launch settings world operations).locals) : l = {} := by
  simp only [launch, Pool.locals, List.map_map] at hl
  obtain ⟨_, -, rfl⟩ := List.mem_map.mp hl
  rfl

theorem final_launch {settings : Settings} {connectionId : Nat} {world : World Unit}
    (operations : List Operation) (hstart : Start connectionId world) :
    Final connectionId (launch settings world operations).shared
      (launch settings world operations).locals := by
  constructor
  · exact hstart.exists_row
  · exact hstart.unique
  · exact hstart.rows
  · intro hany
    rw [show (launch settings world operations).shared.history = [] from hstart.history] at hany
    cases hany
  · intro l hl o ho
    rw [session_launch hl] at ho
    cases ho
  · intro l hl o ho
    rw [session_launch hl] at ho
    cases ho
  · intro l hl change hchange
    rw [session_launch hl] at hchange
    cases hchange

theorem swept_launch {settings : Settings} {connectionId : Nat} {world : World Unit}
    (operations : List Operation) (hstart : Start connectionId world) {row : Connection}
    (hrow : row ∈ world.tables.connections) (hid : row.id = connectionId) :
    Swept connectionId row.tenantId (launch settings world operations).shared
      (launch settings world operations).locals := by
  constructor
  · exact fun row' hrow' hid' => by rw [hstart.unique row' hrow' row hrow hid' hid]
  · exact fun s hs hsid => hstart.home s hs hsid row hrow hid
  · intro l hl o ho
    rw [session_launch hl] at ho
    cases ho
  · intro l hl _ hrevoking
    rw [session_launch hl] at hrevoking
    cases hrevoking

/-- What holds between the tables and the sessions all along a run. -/
structure Guarded (connectionId tenantId : Nat) (operations : List Operation) (w : World Unit)
    (ls : List Session) : Prop where
  final : Final connectionId w ls
  swept : Swept connectionId tenantId w ls
  sober : ∀ i l, ls[i]? = some l → Sober connectionId (named operations connectionId i) l

theorem guarded_step {connectionId tenantId : Nat} {operations : List Operation} {w : World Unit}
    {ls : List Session} {i : Nat} {l : Session} (r : Request) (c : Choice)
    (hG : Guarded connectionId tenantId operations w ls) (hi : ls[i]? = some l)
    (hallowed : allowed connectionId l r ∧ gated connectionId (named operations connectionId i) l r)
    (hcond : respectsRevocation connectionId (named operations connectionId) w ls i r = true) :
    Guarded connectionId tenantId operations (serve anyAnswer w l r c).1
      (ls.set i (serve anyAnswer w l r c).2.1) := by
  obtain ⟨hfinal, hswept, hsober⟩ := hG
  obtain ⟨hallowed, hgated⟩ := hallowed
  have hl := hsober i l hi
  refine ⟨?_, ?_, ?_⟩
  · refine final_step r c hfinal hi hallowed fun hcommit hnew => ?_
    subst hcommit
    exact spares_of_respectsRevocation hfinal hswept hi hl hallowed hcond hnew
  · refine swept_step r c hfinal hswept hi hl hgated fun hcommit => ?_
    subst hcommit
    rintro ⟨x, hx, hid⟩ other hother
    rw [← Bool.not_eq_true]
    intro hrevoking
    have hadds : l.pending.any (addsSubscription connectionId) = true :=
      List.any_eq_true.mpr ⟨_, hx, by simp [addsSubscription, hid]⟩
    have hany : ls.any (revoking connectionId) = true :=
      List.any_eq_true.mpr ⟨other, hother, hrevoking⟩
    simp [respectsRevocation, hi, hadds, hany] at hcond
  · intro j x hj
    rw [List.getElem?_set] at hj
    split at hj
    · rename_i heq
      subst heq
      split at hj
      · cases hj
        exact hl.serve hgated w c
      · cases hj
    · exact hsober j x hj

/-- In every run where no copy of the connection outlives its revocation, where no
subscription comes between the DELETE of a revocation and its commit, and where no flow
that names the connection comes after its revocation, a revoked connection stays dead. -/
theorem revoked_stays_dead_of_respectsRevocation (settings : Settings) (connectionId : Nat)
    (world : World Unit) (operations : List Operation) (schedule : List (Nat × Choice))
    (pool : ConnectorPool) (hstart : Start connectionId world)
    (halong : Along connectorStep
      (StepMeets fun w ls i r =>
        respectsRevocation connectionId (named operations connectionId) w ls i r = true)
      (launch settings world operations) schedule)
    (hrun : run connectorStep (launch settings world operations) schedule = some pool)
    (hrevoked : pool.shared.history.any (revokes connectionId) = true) :
    Dead connectionId pool.shared.tables := by
  obtain ⟨row, hrow, hid⟩ := List.any_eq_true.mp hstart.exists_row
  have hid : row.id = connectionId := by simpa using hid
  have hG : Guarded connectionId row.tenantId operations pool.shared pool.locals := by
    refine @pool_invariant_each _ _ _ _ _ _ (serve anyAnswer)
      (fun i l r => allowed connectionId l r ∧
        gated connectionId (named operations connectionId i) l r)
      (fun w ls i r _ =>
        respectsRevocation connectionId (named operations connectionId) w ls i r = true)
      (Guarded connectionId row.tenantId operations)
      (fun w ls i l r c hG hi hallowed hcond => guarded_step r c hG hi hallowed hcond)
      _ _ _ ?_ ?_ halong hrun
    · intro i thread hi
      simp only [launch, List.getElem?_map, Option.map_eq_some_iff] at hi
      obtain ⟨operation, hoperation, rfl⟩ := hi
      have hnamed : named operations connectionId i = operation.names connectionId := by
        simp [named, hoperation]
      rw [hnamed]
      exact Follows.mono (fun _ _ _ => trivial)
        (Follows.and (follows_operation operation) (gated_operation operation))
    · refine ⟨final_launch operations hstart, swept_launch operations hstart hrow hid, ?_⟩
      intro i l hl
      rw [session_launch (List.mem_of_getElem? hl)]
      exact sober_nil rfl rfl
  exact hG.final.dead hrevoked

/-- Connection 7 of tenant 1 waits for a new consent; it has one subscription. -/
def awaitingConsent : World Unit :=
  ⟨tablesWith
    [{ expiredConnection 7 with
      attributes := { (expiredConnection 7).attributes with status := .needsReconsent } }]
    [⟨3, 1, 7, "mail", py "graph", 0, ""⟩] [⟨"key", "microsoft", 1, 7⟩], [], [], (), []⟩

theorem start_awaitingConsent : Start 7 awaitingConsent where
  history := rfl
  exists_row := by decide +kernel
  unique := by decide +kernel
  rows := by decide +kernel
  home := by decide +kernel

/-- The revocation, and the callback of a re-consent flow that was started
before it. -/
def lateCallback : List Operation :=
  [.revoke 1 ⟨1, "admin@example.org", none⟩ 7,
    .callback .microsoft
      (some ⟨"acme", some 1, .tenant, ["mail"], "localhost", some 7⟩) (some "code") none]

/-- The revocation runs alone. -/
def revokeSchedule : List (Nat × Choice) := steps 0 10

/-- The callback of a flow, its code exchanged for new tokens. -/
def callbackSteps (thread : Nat) : List (Nat × Choice) :=
  steps thread 1 ++ [(thread, { answer := tokenAnswer "access2" "refresh2" }),
    (thread, { answer := .response ⟨404, .json .null⟩ })] ++ steps thread 10

/-- Connection 7 is in use. -/
def inUse : World Unit :=
  ⟨tablesWith [expiredConnection 7] [⟨3, 1, 7, "mail", py "graph", 0, ""⟩]
    [⟨"key", "microsoft", 1, 7⟩], [], [], (), []⟩

theorem start_inUse : Start 7 inUse where
  history := rfl
  exists_row := by decide +kernel
  unique := by decide +kernel
  rows := by decide +kernel
  home := by decide +kernel

/-- A sync that has found the webhook route, the refresh beat and the flow of a new
connection go on after the revocation. -/
def besideRevocation : List Operation :=
  [.revoke 1 ⟨1, "admin@example.org", none⟩ 7, .sync "acme" 7, .refreshBeat,
    .callback .microsoft
      (some ⟨"acme", some 1, .tenant, ["mail"], "localhost", none⟩) (some "code") none]

def besideSchedule : List (Nat × Choice) :=
  steps 1 2 ++ revokeSchedule ++ steps 1 3 ++ steps 2 3 ++ callbackSteps 3

theorem revoked_stays_dead_besideRevocation :
    ∃ pool, run connectorStep (launch configured inUse besideRevocation) besideSchedule =
        some pool ∧
      pool.shared.history.any (revokes 7) = true ∧ Dead 7 pool.shared.tables := by
  have hany : (run connectorStep (launch configured inUse besideRevocation)
      besideSchedule).any (fun pool => pool.shared.history.any (revokes 7)) = true := by
    decide +kernel
  obtain ⟨pool, hrun, hrevoked⟩ := (Option.any_eq_true _ _).mp hany
  exact ⟨pool, hrun, hrevoked, revoked_stays_dead_of_respectsRevocation configured 7
    inUse besideRevocation besideSchedule pool start_inUse (by decide +kernel)
    hrun hrevoked⟩

/-- The revocation is committed, then the callback arrives. -/
def reviveSchedule : List (Nat × Choice) := revokeSchedule ++ callbackSteps 1

theorem callback_revives_revoked :
    Start 7 awaitingConsent ∧
      ∃ pool, run connectorStep (launch configured awaitingConsent lateCallback) reviveSchedule =
          some pool ∧
        pool.shared.history.any (revokes 7) = true ∧ ¬ Dead 7 pool.shared.tables := by
  have hany : (run connectorStep (launch configured awaitingConsent lateCallback)
      reviveSchedule).any (fun pool => pool.shared.history.any (revokes 7) &&
        pool.shared.tables.connections.any fun row =>
          row.id == 7 && row.attributes.status == .active) = true := by
    decide +kernel
  obtain ⟨pool, hrun, h⟩ := (Option.any_eq_true _ _).mp hany
  obtain ⟨hrevoked, hactive⟩ := (Bool.and_eq_true _ _).mp h
  refine ⟨start_awaitingConsent, pool, hrun, hrevoked, fun hdead => ?_⟩
  obtain ⟨row, hrow, hlive⟩ := List.any_eq_true.mp hactive
  have hlive : row.id = 7 ∧ row.attributes.status = .active := by simpa using hlive
  have hstatus := (hdead.rows row hrow hlive.1).1
  rw [hlive.2] at hstatus
  cases hstatus

end Socle.RevocationIsFinal
