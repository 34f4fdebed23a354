import Socle.RefreshLocks

/-!
Concurrent refreshes of one connection against a provider that rotates refresh
tokens.  The lock is released before the caller commits, so it keeps a token from
being presented twice when no other call comes between.
-/

namespace Socle.RefreshSerialization

open Socle.GuardedRuns
open Socle.Procedures
open Socle.TokenExchange
open Socle.ConnectorStore
open Socle.ConnectorService
open Socle.ConnectorTransactions
open Socle.RefreshLedger
open Socle.RefreshLocks

/-- The calls of `refresh_connection`: the refresh beat, and the capability
calls, which refresh on the fly. -/
inductive Caller where
  | refreshBeat
  | capability (tenantId connectionId : Nat) (name : String) (requests : List (String × String))

def Caller.run (settings : Settings) : Caller → ConnectorProc Unit
  | .refreshBeat => do
      let _ ← refreshExpiringTokens settings
  | .capability tenantId connectionId name requests =>
      capabilityCall settings tenantId connectionId name requests

/-- The beat takes the lock without waiting, and does not read the row again. -/
def Caller.beats : Caller → Bool
  | .refreshBeat => true
  | .capability .. => false

abbrev RefreshPool := Pool ConnectorInterface Failure (World Rotation) Session Unit

def launch (settings : Settings) (world : World Rotation) (callers : List Caller) : RefreshPool :=
  ⟨world, callers.map fun caller => ({}, caller.run settings)⟩

abbrev refreshStep (connectionId : Nat) : RefreshPool → Nat × Choice → Option RefreshPool :=
  Pool.step (serve (rotatingEndpoint connectionId))

/-- Nothing has happened yet: the stored refresh token is the one the provider
issued last. -/
structure Start (settings : Settings) (connectionId : Nat) (world : World Rotation) : Prop where
  history : world.history = []
  current : world.endpoint.current ∈ world.endpoint.issued
  stored : ∀ row ∈ world.tables.connections, row.id = connectionId →
    settings.keys.decrypt row.attributes.refreshTokenEnc = .ok world.endpoint.current

section Calls

variable {settings : Settings} {connectionId : Nat}

theorem committable_of_quiet {l : Session} (h : quiet connectionId l) :
    committable settings connectionId l := fun token hmem => absurd hmem (h token)

/-- The requests that touch no refresh token of the connection. -/
def harmless (connectionId : Nat) : Request → Prop
  | .exchange id _ => id ≠ connectionId
  | .assign id value => id = connectionId → ∀ stamp a a', value stamp a = .ok a' →
      a'.refreshTokenEnc = a.refreshTokenEnc
  | .addConnection .. => False
  | _ => True

theorem harmless_of_locking {id : Nat} (r : Request) (h : locking id r) : harmless connectionId r := by
  cases r with
  | acquireLock _ => trivial
  | lockHolder _ => trivial
  | deleteLock _ => trivial
  | refreshObject _ => trivial
  | expiring _ _ => trivial
  | _ => exact h.elim

theorem harmless_allowed (settings : Settings) (l : Session) (r : Request) (hr : harmless connectionId r)
    (hl : quiet connectionId l) :
    allowed settings connectionId l r ∧
      ∀ w c, quiet connectionId (serve (rotatingEndpoint connectionId) w l r c).2.1 := by
  cases r with
  | exchange id token =>
      refine ⟨fun h => absurd h hr, fun w c t hmem => ?_⟩
      rcases List.mem_append.mp hmem with hnew | hold
      · exact issuedBy_other hr hnew
      · exact hl t hold
  | assign id value =>
      refine ⟨fun hid stamp a a' hvalue => .inl (hr hid stamp a a' hvalue), fun w c => ?_⟩
      simp only [serve]
      repeat' split
      all_goals exact hl
  | commit =>
      refine ⟨committable_of_quiet hl, fun w c => ?_⟩
      simp only [serve, World.commit]
      split
      · exact fun _ => List.not_mem_nil
      · exact hl
  | addConnection => exact hr.elim
  | openSession tenantId => exact ⟨hl, fun w c _ => List.not_mem_nil⟩
  | selectActiveConnections =>
      refine ⟨hl, fun w c t hmem => hl t ?_⟩
      simpa [serve] using hmem
  | getConnection id =>
      refine ⟨hl, fun w c => ?_⟩
      simp only [serve]
      repeat' split
      all_goals
        intro t hmem
        exact hl t (by simpa using hmem)
  | findConnection provider kind accountLabel =>
      refine ⟨hl, fun w c => ?_⟩
      simp only [serve]
      split
      all_goals
        intro t hmem
        exact hl t (by simpa using hmem)
  | refreshObject id =>
      refine ⟨hl, fun w c => ?_⟩
      simp only [serve]
      split
      all_goals exact hl
  | commitControl =>
      refine ⟨trivial, fun w c => ?_⟩
      simp only [serve, World.commitControl]
      split
      all_goals exact hl
  | _ => exact ⟨trivial, fun w c => hl⟩

theorem follows_harmless {α : Type} {p : ConnectorProc α} {l : Session}
    (hp : Makes (harmless connectionId) p) (hl : quiet connectionId l) :
    Follows (serve (rotatingEndpoint connectionId)) (allowed settings connectionId)
      (fun l _ => quiet connectionId l) l p :=
  Makes.follows_of (harmless_allowed settings) hp hl

/-- What the session holds after a grant: the token of the bundle, if it is one
of the connection. -/
def Granted (connectionId id : Nat) (bundle : TokenBundle) (l : Session) : Prop :=
  (∀ token, (connectionId, token) ∈ l.issued →
    id = connectionId ∧ bundle.refreshToken = some token ∧ token ≠ []) ∧
  (id = connectionId → ∀ token, bundle.refreshToken = some token →
    (connectionId, token) ∈ l.issued)

/-- A session that can present the refresh token of its object. -/
def Presents (settings : Settings) (connectionId id : Nat) (token : PyStr) (l : Session) : Prop :=
  quiet connectionId l ∧
    ∃ o, l.object? id = some o ∧ settings.keys.decrypt o.current.refreshTokenEnc = .ok token

theorem follows_refreshTokenGrant {connection : Connection} {token : PyStr} {l : Session}
    (hl : Presents settings connectionId connection.id token l) :
    Follows (serve (rotatingEndpoint connectionId)) (allowed settings connectionId)
      (fun l' out =>
        (∀ bundle, out = .ok bundle →
          Granted connectionId connection.id bundle l' ∧ ∃ o, l'.object? connection.id = some o) ∧
        ∀ e, out = .error e → Presents settings connectionId connection.id token l')
      l (refreshTokenGrant settings connection token) := by
  unfold refreshTokenGrant
  cases hcredentials : clientCredentials settings connection.provider with
  | error e => exact ⟨by simp, fun _ _ => hl⟩
  | ok pair =>
      obtain ⟨hquiet, o, ho, hdecrypt⟩ := hl
      refine follows_request_bind.mpr ⟨fun hid => ⟨hquiet, o, hid ▸ ho, hdecrypt⟩, fun w c => ?_⟩
      refine follows_ofExcept ?_
      simp only [serve]
      generalize hanswer : (rotatingEndpoint connectionId w.endpoint connection.id token c).2 =
        answer
      refine ⟨fun bundle hok => ?_, fun e herror => ?_⟩
      · have hread := readAnswer_ok (q := .google) hok
        refine ⟨⟨fun t hmem => ?_, fun hid t ht => ?_⟩, o, ho⟩
        · rcases List.mem_append.mp hmem with hnew | hold
          · have hid : connection.id = connectionId :=
              Decidable.byContradiction fun hid => issuedBy_other hid hnew
            refine ⟨hid, ?_⟩
            rw [hid] at hanswer
            subst hanswer
            obtain ⟨head, rest, hbundle⟩ := rotatingEndpoint_ok hread
            simp only [issuedBy, hread, hbundle, Option.toList_some, List.map_cons, List.map_nil,
              List.mem_singleton, Prod.mk.injEq] at hnew
            rw [hnew.2, hbundle]
            exact ⟨rfl, by simp⟩
          · exact absurd hold (hquiet t)
        · refine List.mem_append_left _ ?_
          simp [issuedBy, hread, ht, hid]
      · have hnone : issuedBy connection.id answer = [] := by
          unfold issuedBy
          split
          · rename_i bundle hread
            rw [readAnswer_ok hread] at herror
            cases herror
          · rfl
        rw [hnone]
        exact ⟨hquiet, o, ho, hdecrypt⟩

theorem follows_grantUnderLock {connection : Connection} {o : Object} {l : Session}
    (hquiet : quiet connectionId l) (ho : l.object? connection.id = some o)
    (hview : connection.attributes = o.current) :
    Follows (serve (rotatingEndpoint connectionId)) (allowed settings connectionId)
      (fun l' out =>
        (∀ bundle, out = .ok bundle →
          Granted connectionId connection.id bundle l' ∧ ∃ o, l'.object? connection.id = some o) ∧
        ∀ e, out = .error e → quiet connectionId l')
      l (grantUnderLock settings connection) := by
  unfold grantUnderLock
  cases hdecrypt : settings.keys.decrypt connection.attributes.refreshTokenEnc with
  | error e => exact ⟨by simp, fun _ _ => hquiet⟩
  | ok token =>
      rw [hview] at hdecrypt
      refine Follows.mono ?_ (follows_runWithBackoff
        (P := Presents settings connectionId connection.id token)
        (fun l hl => follows_refreshTokenGrant hl) maxAttempts ⟨hquiet, o, ho, hdecrypt⟩)
      rintro l out ⟨hok, herror⟩
      exact ⟨hok, fun e he => (herror e he).1⟩

theorem quiet_assigned {id : Nat} {value : Stamp → Attributes → Except Failure Attributes}
    {l l' : Session} {out : Except Failure Unit} (h : Assigned id value l l' out)
    (hl : quiet connectionId l) : quiet connectionId l' := by
  intro token
  rw [h.issued]
  exact hl token

theorem follows_refreshUnderLock {connection : Connection} {o : Object} {l : Session}
    (hquiet : quiet connectionId l) (ho : l.object? connection.id = some o)
    (hview : connection.attributes = o.current) :
    Follows (serve (rotatingEndpoint connectionId)) (allowed settings connectionId)
      (fun l' out =>
        (∀ bundle, out = .ok (some bundle) →
          Granted connectionId connection.id bundle l' ∧ ∃ o, l'.object? connection.id = some o) ∧
        (out = .ok none → quiet connectionId l') ∧
        ∀ e, out = .error e → quiet connectionId l')
      l (refreshUnderLock settings connection) := by
  unfold refreshUnderLock
  refine follows_attempt_bind (follows_grantUnderLock hquiet ho hview) ?_
  rintro l (e | bundle) ⟨hok, herror⟩
  · have hquiet := herror e rfl
    split
    · rename_i h
      cases h
    · refine follows_bind (follows_assign fun _ stamp a a' h => ?_) ?_ ?_
      · cases h
        exact .inl rfl
      · intro l _ hassigned
        have hquiet := quiet_assigned hassigned hquiet
        exact ⟨trivial, fun w c => ⟨by simp, fun _ => hquiet, by simp⟩⟩
      · intro l e hassigned
        exact ⟨by simp, by simp, fun _ _ => quiet_assigned hassigned hquiet⟩
    · rename_i e' hother heq
      by_cases htransient : e'.transient = true
      · rw [if_pos htransient]
        refine follows_bind (follows_assign fun _ stamp a a' h => ?_) ?_ ?_
        · cases h
          exact .inl rfl
        · intro l _ hassigned
          exact ⟨by simp, by simp, fun _ _ => quiet_assigned hassigned hquiet⟩
        · intro l e hassigned
          exact ⟨by simp, by simp, fun _ _ => quiet_assigned hassigned hquiet⟩
      · rw [if_neg htransient]
        exact ⟨by simp, by simp, fun _ _ => hquiet⟩
  · exact ⟨fun b hb => by cases hb; exact hok bundle rfl, by simp, by simp⟩

theorem committable_update {l : Session} {id : Nat} {o : Object} {a : Attributes}
    (h : committable settings connectionId l) (ho : l.object? id = some o)
    (hkept : id = connectionId → a.refreshTokenEnc = o.current.refreshTokenEnc) :
    committable settings connectionId (l.update id fun o => { o with current := a }) := by
  intro token hmem
  obtain ⟨x, hx, hdecrypt⟩ := h token hmem
  by_cases hid : id = connectionId
  · subst hid
    refine ⟨{ x with current := a }, object?_update (fun _ => rfl) hx, ?_⟩
    have hxo : x = o := Option.some.inj (hx.symm.trans ho)
    show settings.keys.decrypt a.refreshTokenEnc = .ok token
    rw [hkept rfl, ← hxo]
    exact hdecrypt
  · exact ⟨x, (object?_update_of_ne (f := fun o => { o with current := a }) (fun _ => rfl)
      hid).trans hx, hdecrypt⟩

theorem committable_assigned {id : Nat} {value : Stamp → Attributes → Except Failure Attributes}
    (hvalue : ∀ stamp a a', value stamp a = .ok a' → a'.refreshTokenEnc = a.refreshTokenEnc)
    {l l' : Session} {out : Except Failure Unit} (h : Assigned id value l l' out)
    (hl : committable settings connectionId l) : committable settings connectionId l' := by
  rcases h with ⟨-, -, rfl⟩ | ⟨o, stamp, a, -, ho, ha, rfl⟩ | ⟨o, stamp, e, -, -, -, rfl⟩
  · exact hl
  · exact committable_update hl ho fun _ => hvalue stamp _ _ ha
  · exact hl

theorem sealAccessToken_kept {bundle : TokenBundle} {stamp : Stamp} {a a' : Attributes}
    (h : sealAccessToken settings bundle stamp a = .ok a') :
    a'.refreshTokenEnc = a.refreshTokenEnc := by
  unfold sealAccessToken at h
  cases hencrypt : encryptToken settings.keys stamp.nonce bundle.accessToken with
  | error e =>
      rw [hencrypt] at h
      cases h
  | ok bytes =>
      rw [hencrypt] at h
      cases h
      rfl

theorem stampExpiry_kept {bundle : TokenBundle} {stamp : Stamp} {a a' : Attributes}
    (h : stampExpiry bundle stamp a = .ok a') : a'.refreshTokenEnc = a.refreshTokenEnc := by
  unfold stampExpiry at h
  cases hexpiry : addSeconds stamp.now bundle.expiresIn with
  | error e =>
      rw [hexpiry] at h
      cases h
  | ok expiresAt =>
      rw [hexpiry] at h
      cases h
      rfl

theorem sealRefreshToken_ok {bundle : TokenBundle} {stamp : Stamp} {a a' : Attributes}
    (h : sealRefreshToken settings bundle stamp a = .ok a') :
    a'.refreshTokenEnc = a.refreshTokenEnc ∧ (bundle.refreshToken = none ∨
        bundle.refreshToken = some []) ∨
      ∃ token, bundle.refreshToken = some token ∧
        settings.keys.decrypt a'.refreshTokenEnc = .ok token := by
  unfold sealRefreshToken at h
  split at h
  · rename_i hnone
    cases h
    exact .inl ⟨rfl, .inl hnone⟩
  · rename_i hempty
    cases h
    exact .inl ⟨rfl, .inr hempty⟩
  · rename_i token htoken hsome
    refine .inr ⟨token, hsome, ?_⟩
    cases hencrypt : encryptToken settings.keys stamp.nonce token with
    | error e =>
        rw [hencrypt] at h
        cases h
    | ok bytes =>
        rw [hencrypt] at h
        cases h
        exact (encryptToken_eq_ok hencrypt).2

theorem encryptToken_error {nonce : Nat} {token : PyStr} {e : Failure}
    (h : encryptToken settings.keys nonce token = .error e) : e.transient = false := by
  unfold encryptToken at h
  split at h
  · cases h
  · cases h
    rfl

theorem sealAccessToken_error {bundle : TokenBundle} {stamp : Stamp} {a : Attributes} {e : Failure}
    (h : sealAccessToken settings bundle stamp a = .error e) : e.transient = false := by
  unfold sealAccessToken at h
  cases hencrypt : encryptToken settings.keys stamp.nonce bundle.accessToken with
  | error e' =>
      rw [hencrypt] at h
      cases h
      exact encryptToken_error hencrypt
  | ok bytes =>
      rw [hencrypt] at h
      cases h

theorem sealRefreshToken_error {bundle : TokenBundle} {stamp : Stamp} {a : Attributes}
    {e : Failure} (h : sealRefreshToken settings bundle stamp a = .error e) :
    e.transient = false := by
  unfold sealRefreshToken at h
  split at h
  · cases h
  · cases h
  · rename_i token _ _
    cases hencrypt : encryptToken settings.keys stamp.nonce token with
    | error e' =>
        rw [hencrypt] at h
        cases h
        exact encryptToken_error hencrypt
    | ok bytes =>
        rw [hencrypt] at h
        cases h

theorem stampExpiry_error {bundle : TokenBundle} {stamp : Stamp} {a : Attributes} {e : Failure}
    (h : stampExpiry bundle stamp a = .error e) : e.transient = false := by
  unfold stampExpiry addSeconds at h
  split at h
  · cases h
  · cases h
    rfl

theorem transient_assigned {id : Nat} {value : Stamp → Attributes → Except Failure Attributes}
    (hvalue : ∀ stamp a e, value stamp a = .error e → e.transient = false)
    {l l' : Session} {e : Failure} (h : Assigned id value l l' (.error e)) :
    e.transient = false := by
  rcases h with ⟨hout, -⟩ | ⟨o, stamp, a, hout, -⟩ | ⟨o, stamp, e', hout, -, herror, -⟩
  · cases hout
  · cases hout
  · cases hout
    exact hvalue stamp _ _ herror

theorem Granted.assigned {id : Nat} {bundle : TokenBundle}
    {value : Stamp → Attributes → Except Failure Attributes} {l l' : Session}
    {out : Except Failure Unit} (hgranted : Granted connectionId id bundle l)
    (h : Assigned id value l l' out) : Granted connectionId id bundle l' := by
  unfold Granted
  rw [h.issued]
  exact hgranted

theorem committable_sealed {id : Nat} {bundle : TokenBundle} {l l' : Session}
    (hgranted : Granted connectionId id bundle l) (hobject : ∃ o, l.object? id = some o)
    (h : Assigned id (sealRefreshToken settings bundle) l l' (.ok ())) :
    committable settings connectionId l' := by
  intro token hmem
  rw [h.issued] at hmem
  obtain ⟨rfl, htoken, hne⟩ := hgranted.1 token hmem
  rcases h with ⟨-, hnone, -⟩ | ⟨o, stamp, a, -, ho, hvalue, rfl⟩ | ⟨o, stamp, e, hout, -⟩
  · obtain ⟨o, ho⟩ := hobject
    rw [ho] at hnone
    cases hnone
  · refine ⟨_, object?_update (fun _ => rfl) ho, ?_⟩
    rcases sealRefreshToken_ok hvalue with ⟨-, hnone | hempty⟩ | ⟨token', htoken', hdecrypt⟩
    · rw [hnone] at htoken
      cases htoken
    · rw [hempty] at htoken
      exact absurd (Option.some.inj htoken).symm hne
    · rw [htoken'] at htoken
      cases htoken
      exact hdecrypt
  · cases hout

theorem follows_applyTokenBundle {id : Nat} {bundle : TokenBundle} {l : Session}
    (hgranted : Granted connectionId id bundle l) (hobject : ∃ o, l.object? id = some o) :
    Follows (serve (rotatingEndpoint connectionId)) (allowed settings connectionId)
      (fun l' out => (out = .ok () → committable settings connectionId l') ∧
        ∀ e, out = .error e → e.transient = false)
      l (applyTokenBundle settings id bundle) := by
  have hraised {value : Stamp → Attributes → Except Failure Attributes} {l l' : Session}
      {e : Failure} (hvalue : ∀ stamp a e, value stamp a = .error e → e.transient = false)
      (h : Assigned id value l l' (.error e)) :
      ((.error e : Except Failure Unit) = .ok () → committable settings connectionId l') ∧
        ∀ e', (.error e : Except Failure Unit) = .error e' → e'.transient = false :=
    ⟨by simp, fun e' he' => by cases he'; exact transient_assigned hvalue h⟩
  unfold applyTokenBundle
  refine follows_bind (follows_assign fun _ stamp a a' h => .inl (sealAccessToken_kept h)) ?_
    fun l' e h => hraised (fun _ _ _ => sealAccessToken_error) h
  intro l _ h
  have hgranted := hgranted.assigned h
  have hobject := h.object? hobject
  refine follows_bind (follows_assign fun hid stamp a a' h => ?_) ?_
    fun l' e h => hraised (fun _ _ _ => sealRefreshToken_error) h
  · rcases sealRefreshToken_ok h with ⟨hkept, -⟩ | ⟨token, htoken, hdecrypt⟩
    · exact .inl hkept
    · exact .inr ⟨token, hgranted.2 hid token htoken, hdecrypt⟩
  intro l _ h
  have hready := committable_sealed hgranted hobject h
  refine follows_bind (follows_assign fun _ stamp a a' h => .inl (stampExpiry_kept h)) ?_
    fun l' e h => hraised (fun _ _ _ => stampExpiry_error) h
  intro l _ h
  have hready := committable_assigned (fun _ _ _ => stampExpiry_kept) h hready
  have hkept (stamp : Stamp) (a a' : Attributes) (h : markHealthy stamp a = .ok a') :
      a'.refreshTokenEnc = a.refreshTokenEnc := by
    cases h
    rfl
  refine Follows.mono ?_ (follows_assign fun _ stamp a a' h => .inl (hkept stamp a a' h))
  intro l out h
  refine ⟨fun _ => committable_assigned hkept h hready, ?_⟩
  rintro e rfl
  exact transient_assigned (fun stamp a e h => by cases h) h

theorem follows_refreshConnection (id : Nat) (block : Bool) {l : Session}
    (hl : quiet connectionId l) :
    Follows (serve (rotatingEndpoint connectionId)) (allowed settings connectionId)
      (fun l' out => (∀ renewed, out = .ok renewed → committable settings connectionId l') ∧
        ∀ e, out = .error e → e.transient = true → committable settings connectionId l')
      l (refreshConnection settings id block) := by
  unfold refreshConnection
  refine follows_bind (follows_harmless (makes_lockForRefresh harmless_of_locking) hl) ?_
    fun l e h => ⟨by simp, fun _ _ _ => committable_of_quiet h⟩
  rintro l (_ | token) hquiet
  · exact ⟨fun _ _ => committable_of_quiet hquiet, by simp⟩
  refine follows_bind (follows_readObject trivial) ?_ ?_
  · rintro l connection ⟨rfl, hread⟩
    obtain ⟨o, ho, rfl⟩ := hread connection rfl
    have hid : o.view.id = id := (mem_of_object? ho).2
    rw [← hid] at ho ⊢
    refine follows_attempt_bind (follows_refreshUnderLock hquiet ho rfl) ?_
    rintro l outcome ⟨hgranted, hnone, herror⟩
    refine follows_bind (follows_releaseLock trivial trivial) ?_ (by rintro l e ⟨-, h⟩; cases h)
    rintro l' _ ⟨rfl, -⟩
    rcases outcome with e | _ | bundle
    · exact ⟨by simp, fun _ _ _ => committable_of_quiet (herror e rfl)⟩
    · exact ⟨fun _ _ => committable_of_quiet (hnone rfl), by simp⟩
    · obtain ⟨hgranted, hobject⟩ := hgranted bundle rfl
      refine follows_bind (follows_applyTokenBundle hgranted hobject) ?_ ?_
      · rintro l _ ⟨hcommittable, -⟩
        exact ⟨fun _ _ => hcommittable rfl, by simp⟩
      · rintro l e ⟨-, htransient⟩
        refine ⟨by simp, fun e' he' h => ?_⟩
        cases he'
        rw [htransient e rfl] at h
        cases h
  · rintro l e ⟨rfl, -⟩
    exact ⟨by simp, fun _ _ _ => committable_of_quiet hquiet⟩

theorem follows_commit {l : Session} (hl : committable settings connectionId l) :
    Follows (serve (rotatingEndpoint connectionId)) (allowed settings connectionId)
      (fun l' out => out = .ok () → quiet connectionId l') l commit := by
  refine follows_request_bind.mpr ⟨hl, fun w c => ?_⟩
  refine follows_ofExcept ?_
  simp only [serve, World.commit]
  split
  · exact fun _ _ => List.not_mem_nil
  · intro h
    cases h

theorem follows_countRefresh (id : Nat) (report : RefreshReport) {l : Session}
    (hl : quiet connectionId l) :
    Follows (serve (rotatingEndpoint connectionId)) (allowed settings connectionId)
      (fun l' out => ∀ report, out = .ok report → committable settings connectionId l')
      l (countRefresh settings id report) := by
  unfold countRefresh
  refine follows_attempt_bind (follows_refreshConnection id false hl) ?_
  rintro l (e | renewed) ⟨hok, herror⟩
  · by_cases htransient : e.transient = true
    · simp only [htransient, if_true]
      exact fun _ _ => herror e rfl htransient
    · simp only [htransient, Bool.false_eq_true, if_false]
      exact fun _ h => by cases h
  · cases renewed with
    | false => exact fun _ _ => hok false rfl
    | true => exact fun _ _ => hok true rfl

theorem follows_refreshEach (lead : DirectoryStore.Instant) (ids : List Nat)
    (report : RefreshReport) {l : Session} (hl : quiet connectionId l) :
    Follows (serve (rotatingEndpoint connectionId)) (allowed settings connectionId)
      (fun l' out => ∀ report, out = .ok report → quiet connectionId l')
      l (refreshEach settings lead ids report) := by
  induction ids generalizing l report with
  | nil => exact fun _ _ => hl
  | cons id rest ih =>
      refine follows_expiring_bind trivial fun expiring => ?_
      cases expiring with
      | false => exact ih report hl
      | true =>
          refine follows_bind (follows_countRefresh id report hl) ?_ (by simp)
          intro l report hcommittable
          refine follows_bind (follows_commit (hcommittable report rfl)) ?_ (by simp)
          intro l _ hquiet
          exact ih report (hquiet rfl)

theorem follows_refreshTenants (lead : DirectoryStore.Instant)
    (tenants : List DirectoryStore.Tenant) {l : Session} (hl : quiet connectionId l) :
    Follows (serve (rotatingEndpoint connectionId)) (allowed settings connectionId)
      (fun _ _ => True) l (refreshTenants settings lead tenants) := by
  induction tenants generalizing l with
  | nil => trivial
  | cons tenant rest ih =>
      have hone : Follows (serve (rotatingEndpoint connectionId)) (allowed settings connectionId)
          (fun l' out => ∀ report, out = .ok report → quiet connectionId l') l
          (refreshTenant settings lead tenant) := by
        refine follows_request_bind.mpr ⟨hl, fun w c => ?_⟩
        have hopened : quiet connectionId
            (serve (rotatingEndpoint connectionId) w l (.openSession tenant.id) c).2.1 :=
          fun _ => List.not_mem_nil
        refine follows_request_bind.mpr ⟨hopened, fun w c => ?_⟩
        have hloaded := (harmless_allowed settings _ .selectActiveConnections trivial hopened).2 w c
        refine follows_bind (follows_refreshEach lead _ _ hloaded) ?_ (by simp)
        intro l report hquiet
        exact fun _ _ => hquiet report rfl
      refine follows_bind hone ?_ (by simp)
      intro l report hquiet
      exact follows_bind (ih (hquiet report rfl)) (fun _ _ _ => trivial) (by simp)

theorem follows_refreshIfExpiring (id : Nat) {l : Session} (hl : quiet connectionId l) :
    Follows (serve (rotatingEndpoint connectionId)) (allowed settings connectionId)
      (fun l' out => out = .ok () → quiet connectionId l')
      l (refreshIfExpiring settings id) := by
  refine follows_expiring_bind trivial fun expiring => ?_
  cases expiring with
  | false => exact fun _ => hl
  | true =>
      refine follows_bind (follows_refreshConnection id true hl) ?_ (by simp)
      rintro l renewed ⟨hok, -⟩
      exact follows_commit (hok renewed rfl)

theorem follows_freshAccessToken (id : Nat) {l : Session} (hl : quiet connectionId l) :
    Follows (serve (rotatingEndpoint connectionId)) (allowed settings connectionId)
      (fun l' out => ∀ token, out = .ok token → quiet connectionId l')
      l (freshAccessToken settings id) := by
  refine follows_bind (follows_harmless (makes_readObject trivial) hl) ?_ (by simp)
  intro l connection hquiet
  split
  · exact fun _ h => by cases h
  · refine follows_bind (follows_refreshIfExpiring id hquiet) ?_ (by simp)
    intro l _ hquiet
    refine follows_bind (follows_harmless (makes_readObject trivial) (hquiet rfl)) ?_ (by simp)
    intro l refreshed hquiet
    exact follows_ofExcept fun _ _ => hquiet

theorem follows_capabilityRequest (connection : Connection) (method path : String) {l : Session}
    (hl : quiet connectionId l) :
    Follows (serve (rotatingEndpoint connectionId)) (allowed settings connectionId)
      (fun l' out => ∀ response, out = .ok response → quiet connectionId l')
      l (capabilityRequest settings connection method path) := by
  unfold capabilityRequest
  cases connection.provider with
  | google =>
      refine follows_bind (follows_freshAccessToken _ hl) ?_ (by simp)
      intro l accessToken hquiet
      refine Follows.mono (fun _ _ h _ _ => h)
        (follows_harmless (makes_callSdk trivial _) (hquiet accessToken rfl))
  | microsoft =>
      refine follows_bind (follows_freshAccessToken _ hl) ?_ (by simp)
      intro l accessToken hquiet
      refine Follows.mono (fun _ _ h _ _ => h)
        (follows_harmless ?_ (hquiet accessToken rfl))
      exact Makes.bind (makes_readObject trivial) fun c =>
        makes_providerHttpRequest trivial

theorem follows_capabilityRequests (connection : Connection) (requests : List (String × String))
    {l : Session} (hl : quiet connectionId l) :
    Follows (serve (rotatingEndpoint connectionId)) (allowed settings connectionId)
      (fun _ _ => True) l (capabilityRequests settings connection requests) := by
  induction requests generalizing l with
  | nil => trivial
  | cons request rest ih =>
      refine follows_bind (follows_capabilityRequest connection _ _ hl) ?_ (by simp)
      intro l response hquiet
      exact ih (hquiet response rfl)

theorem follows_caller (caller : Caller) :
    Follows (serve (rotatingEndpoint connectionId)) (allowed settings connectionId)
      (fun _ _ => True) {} (caller.run settings) := by
  have hstart : quiet connectionId {} := fun _ => List.not_mem_nil
  cases caller with
  | refreshBeat =>
      refine follows_bind (Q := fun _ _ => True) ?_ (fun _ _ _ => trivial) (by simp)
      refine follows_request_bind.mpr ⟨trivial, fun w c => ?_⟩
      exact follows_refreshTenants _ _ hstart
  | capability tenantId id name requests =>
      refine follows_request_bind.mpr ⟨hstart, fun w c => ?_⟩
      have hopened := (harmless_allowed settings {} (.openSession tenantId) trivial hstart).2 w c
      refine follows_ask_bind hopened fun w c found _ => ?_
      have hloaded := (harmless_allowed settings _ (.getConnection id) trivial hopened).2 w c
      cases found with
      | false => trivial
      | true =>
          refine follows_bind (follows_harmless (makes_getCapability trivial) hloaded) ?_ (by simp)
          intro l connection hquiet
          exact follows_capabilityRequests connection requests hquiet

end Calls

theorem serialized_launch {settings : Settings} {connectionId : Nat} {world : World Rotation}
    (callers : List Caller) (hstart : Start settings connectionId world) :
    Serialized settings connectionId (launch settings world callers).shared
      (launch settings world callers).locals := by
  have hsession (l : Session) (hl : l ∈ (launch settings world callers).locals) : l = {} := by
    simp only [launch, Pool.locals, List.map_map] at hl
    obtain ⟨_, -, rfl⟩ := List.mem_map.mp hl
    rfl
  have hquiet (l : Session) (hl : l ∈ (launch settings world callers).locals) :
      quiet connectionId l := by
    rw [hsession l hl]
    exact fun _ => List.not_mem_nil
  have hledger : ledgerOf connectionId (launch settings world callers).shared.history =
      ⟨[], false, false⟩ := by
    simp [launch, hstart.history, ledgerOf]
  constructor
  · exact hstart.current
  · rw [hledger]
    exact fun _ hmem => absurd hmem List.not_mem_nil
  · rw [hledger]
  · exact fun _ => hstart.stored
  · exact fun _ => hquiet
  · rw [hledger]
    intro h
    cases h
  · exact fun l hl token hmem => absurd hmem (hquiet l hl token)
  · exact fun _ _ a _ ha _ _ => .inl (hquiet a (List.mem_of_getElem? ha))
  · intro l hl o ho
    rw [hsession l hl] at ho
    cases ho
  · intro l hl o ho
    rw [hsession l hl] at ho
    cases ho

/-- The calls about to start, with nothing to note yet. -/
def launchNoted (settings : Settings) (world : World Rotation) (callers : List Caller) :
    Pool ConnectorInterface Failure (World Rotation) Worker Unit :=
  ⟨world, callers.map fun caller => ({ beat := caller.beats }, caller.run settings)⟩

theorem forget_launchNoted (settings : Settings) (world : World Rotation)
    (callers : List Caller) :
    (launchNoted settings world callers).forget id Worker.session =
      launch settings world callers := by
  simp [launchNoted, launch, Pool.forget, Function.comp_def]

theorem session_noted (connectionId : Nat) (x : Worker) (session : Session) (r : Request)
    (a : Answer r) : (x.noted connectionId session r a).session = session := by
  cases r <;> simp only [Worker.noted]
  all_goals repeat' split
  all_goals rfl

theorem served_noted {connectionId : Nat} (w : World Rotation) (x : Worker) (r : Request)
    (c : Choice) :
    serve (rotatingEndpoint connectionId) (id w) x.session r c =
      (id (serveNoted connectionId w x r c).1, (serveNoted connectionId w x r c).2.1.session,
        (serveNoted connectionId w x r c).2.2) := by
  simp [serveNoted, session_noted]

theorem careful_caller {settings : Settings} {connectionId : Nat} (caller : Caller) :
    Follows (serveNoted connectionId) (careful connectionId) (fun _ _ => True)
      { beat := caller.beats } (caller.run settings) := by
  cases caller with
  | refreshBeat =>
      refine follows_bind (Q := fun _ _ => True) ?_ (fun _ _ _ => trivial) (by simp)
      refine follows_request_bind.mpr ⟨trivial, fun w c => ?_⟩
      exact RefreshLocks.follows_refreshTenants _ _ ⟨rfl, rfl, rfl⟩
  | capability tenantId id name requests =>
      exact RefreshLocks.follows_capabilityCall tenantId id name requests ⟨rfl, rfl, rfl⟩

theorem disciplined_launchNoted (settings : Settings) (connectionId : Nat)
    (world : World Rotation) (callers : List Caller) :
    Disciplined (serveNoted connectionId)
      (fun x r => allowed settings connectionId x.session r ∧ careful connectionId x r)
      (launchNoted settings world callers) := by
  intro thread hmem
  obtain ⟨caller, -, rfl⟩ := List.mem_map.mp hmem
  have hcaller : Follows (serve (rotatingEndpoint connectionId)) (allowed settings connectionId)
      (fun _ _ => True) (Worker.session { beat := caller.beats }) (caller.run settings) :=
    follows_caller caller
  have hnoted := Follows.noted served_noted hcaller
  exact (hnoted.and (careful_caller caller)).mono fun _ _ _ => trivial

/-- The ledger and the lock, all along a run. -/
structure Guarded (settings : Settings) (connectionId : Nat) (w : World Rotation)
    (xs : List Worker) : Prop where
  serialized : Serialized settings connectionId w (xs.map Worker.session)
  exclusive : Exclusive connectionId w xs

theorem guarded_step {settings : Settings} {connectionId : Nat} {w : World Rotation}
    {xs : List Worker} {i : Nat} {x : Worker} (r : Request) (c : Choice)
    (hG : Guarded settings connectionId w xs) (hi : xs[i]? = some x)
    (hallowed : allowed settings connectionId x.session r ∧ careful connectionId x r)
    (hcond : keepsApart connectionId w xs i r c = true) :
    Guarded settings connectionId (serveNoted connectionId w x r c).1
      (xs.set i (serveNoted connectionId w x r c).2.1) := by
  obtain ⟨hserialized, hexclusive⟩ := hG
  obtain ⟨hallowed, hcareful⟩ := hallowed
  refine ⟨?_, exclusive_step r c hserialized hexclusive hi hcareful hcond⟩
  have hsession : (xs.map Worker.session)[i]? = some x.session := by
    rw [List.getElem?_map, hi]
    rfl
  rw [List.map_set, serveNoted, session_noted]
  exact serialized_step r c hserialized hsession hallowed
    (presentsCurrent_of_exclusive hexclusive hi hallowed hcareful)

/-- In every run of refresh beats and capability calls that the lock keeps apart: no
consumed token is presented, and whenever no caller holds an uncommitted token the
stored one is the last the provider issued. -/
theorem refresh_serialized_of_keepsApart (settings : Settings) (connectionId : Nat)
    (world : World Rotation) (callers : List Caller) (schedule : List (Nat × Choice))
    (pool : RefreshPool) (hstart : Start settings connectionId world)
    (halong : Along (Pool.step (serveNoted connectionId))
      (ActionMeets fun w xs i r c => keepsApart connectionId w xs i r c = true)
      (launchNoted settings world callers) schedule)
    (hrun : run (refreshStep connectionId) (launch settings world callers) schedule = some pool) :
    (ledgerOf connectionId pool.shared.history).replayed = false ∧
      ((∀ l ∈ pool.locals, quiet connectionId l) →
        ∀ row ∈ pool.shared.tables.connections, row.id = connectionId →
          settings.keys.decrypt row.attributes.refreshTokenEnc =
            .ok pool.shared.endpoint.current) := by
  rw [← forget_launchNoted, refreshStep, Pool.run_forget served_noted] at hrun
  obtain ⟨noted, hnoted, rfl⟩ := Option.map_eq_some_iff.mp hrun
  have hlocals (pool : Pool ConnectorInterface Failure (World Rotation) Worker Unit) :
      (pool.forget id Worker.session).locals = pool.locals.map Worker.session := by
    simp [Pool.forget, Pool.locals, Function.comp_def]
  have hstarted : Serialized settings connectionId (launchNoted settings world callers).shared
      ((launchNoted settings world callers).locals.map Worker.session) := by
    rw [← hlocals, forget_launchNoted]
    exact serialized_launch callers hstart
  have hfree : ∀ x ∈ (launchNoted settings world callers).locals,
      x.holding = none ∧ x.ready = false := by
    intro x hx
    obtain ⟨thread, hthread, rfl⟩ := List.mem_map.mp hx
    obtain ⟨caller, -, rfl⟩ := List.mem_map.mp hthread
    exact ⟨rfl, rfl⟩
  have hG := (pool_invariant_action (G := Guarded settings connectionId)
    (fun w xs i x r c hG hi hallowed hcond => guarded_step r c hG hi hallowed hcond)
    (disciplined_launchNoted settings connectionId world callers)
    ⟨hstarted, ?_⟩ halong hnoted).serialized
  · refine ⟨hG.sound, fun hquiet => hG.stored ?_⟩
    rw [← Bool.not_eq_true]
    intro hout
    obtain ⟨l, hl, hheld⟩ := hG.held hout
    exact hheld (hquiet l (hlocals noted ▸ hl))
  · refine ⟨fun x hx token htoken => ?_, fun j k a b ha _ haheld => ?_, fun x hx hready => ?_⟩
    · rw [(hfree x hx).1] at htoken
      cases htoken
    · rw [(hfree a (List.mem_of_getElem? ha)).1] at haheld
      cases haheld
    · rw [(hfree x hx).2] at hready
      cases hready

/-- Connection 7, whose refresh token is the current one. -/
def freshWorld : World Rotation :=
  ⟨tablesWith [expiredConnection 7] [] [], [], [], ⟨py "refresh", [py "refresh"]⟩, []⟩

theorem start_freshWorld : Start configured 7 freshWorld where
  history := rfl
  current := by decide +kernel
  stored := by decide +kernel

/-- The beat, and a capability call on the same connection. -/
def bothCallers : List Caller := [.refreshBeat, .capability 1 7 "mail" [("GET", "/me")]]

/-- The call finds its token expired, then the lock taken by the beat, which refreshes
and commits; the call then takes the lock, reads the row again and has nothing to do. -/
def apartSchedule : List (Nat × Choice) :=
  steps 1 5 ++ steps 0 6 ++ steps 1 1 ++
    [(0, { answer := tokenAnswer "access2" "refresh2" })] ++ steps 0 7 ++ steps 1 9

theorem refresh_serialized_apart :
    ∃ pool, run (refreshStep 7) (launch configured freshWorld bothCallers) apartSchedule =
        some pool ∧
      (ledgerOf 7 pool.shared.history).replayed = false ∧
      ((∀ l ∈ pool.locals, quiet 7 l) →
        ∀ row ∈ pool.shared.tables.connections, row.id = 7 →
          configured.keys.decrypt row.attributes.refreshTokenEnc =
            .ok pool.shared.endpoint.current) := by
  have hsome : (run (refreshStep 7) (launch configured freshWorld bothCallers)
      apartSchedule).isSome = true := by
    decide +kernel
  obtain ⟨pool, hrun⟩ := Option.isSome_iff_exists.mp hsome
  exact ⟨pool, hrun, refresh_serialized_of_keepsApart configured 7 freshWorld bothCallers
    apartSchedule pool start_freshWorld (by decide +kernel) hrun⟩

/-- The beat exchanges the token and releases the lock; before it commits, a
capability call takes the lock, reads the row again and exchanges in its turn. -/
def overlapSchedule : List (Nat × Choice) :=
  steps 0 6 ++ [(0, { answer := tokenAnswer "access2" "refresh2" })] ++ steps 0 2 ++ steps 1 10

theorem refresh_replays_consumed_token :
    Start configured 7 freshWorld ∧
      ∃ pool, run (refreshStep 7)
          (launch configured freshWorld bothCallers) overlapSchedule = some pool ∧
        (ledgerOf 7 pool.shared.history).replayed = true := by
  have hany : (run (refreshStep 7) (launch configured freshWorld bothCallers)
      overlapSchedule).any (fun pool => (ledgerOf 7 pool.shared.history).replayed) = true := by
    decide +kernel
  obtain ⟨pool, hrun, hreplayed⟩ := (Option.any_eq_true _ _).mp hany
  exact ⟨start_freshWorld, pool, hrun, hreplayed⟩

end Socle.RefreshSerialization
