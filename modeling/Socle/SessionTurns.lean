import Socle.AuthPurge
import Socle.KeyedTable

/-!
The turns that the sessions and the challenges of the platform see: logins, resolutions,
logouts, purges, OAuth callbacks, while the other routes do what they like with the other
tables.
-/

namespace Socle.SessionTurns

open Socle.GuardedRuns
open Socle.KeyedTable (nodup_map_snoc)
open Socle.DirectoryStore (Instant Choice User)
open Socle.SecondFactor (LoginChallenge)
open Socle.AuthPurge

/-- `revoke_all_sessions`. -/
def revokeAllSessions (now : Instant) (userId : Nat) (s : AuthState) : AuthState :=
  { s with sessions := s.sessions.map fun x =>
      if x.userId = userId ∧ x.revokedAt = none then { x with revokedAt := some now } else x }

inductive Turn where
  | operation (op : Operation) (choices : Nat → Choice)
  | purge (now : Instant)
  /-- The end of `oauth_callback`: a session for the user of `complete_login`. -/
  | oauthCallback (userId : Nat) (choice : Choice)
  | revokeAll (userId : Nat) (now : Instant)
  /-- Any other route: it leaves the sessions and the challenges. -/
  | other (after : AuthState)

section Runs

variable (platform : Platform)

def step (s : AuthState) : Turn → Option AuthState
  | .operation op choices => some (perform platform s choices op).1
  | .purge now => some (purgeExpiredAuthRows now s).1
  | .oauthCallback userId choice =>
      match createSession platform choice userId s with
      | .ok after => some after
      | .error _ => some s
  | .revokeAll userId now => some (revokeAllSessions now userId s)
  | .other after =>
      if after.sessions = s.sessions ∧ after.challenges = s.challenges then some after else none

/-- A turn of the run was taken from a state in which this held of it. -/
def Happened (s : AuthState) (turns : List Turn) (P : AuthState → Turn → Prop) : Prop :=
  ∃ before turn after mid, turns = before ++ turn :: after ∧
    run (step platform) s before = some mid ∧ P mid turn

/-- The choices of `verify_second_factor`. -/
def factorChoices (c : Nat → Choice) (n : Nat) : SecondFactor.Choice :=
  ⟨(c (n + 3)).now, (c (n + 3)).token⟩

/-- What entitles a turn to create a session for the user: a valid password while no second
factor is enabled, a challenge with a valid second factor, or the identity of a provider. -/
def Grants (s : AuthState) (userId : Nat) : Turn → Prop
  | .operation (.login email password) c =>
      ∃ after user, authenticate platform (c 0).passwordHash email password s =
        some (after, user) ∧ user.id = userId ∧ totpEnabled after userId = false
  | .operation (.loginTotp challengeToken code) c =>
      ∃ consumed, consumeLoginChallenge platform (c 0).now (c 1).now challengeToken s =
          some (consumed, userId) ∧
        (verifySecondFactor platform (factorChoices c) userId code consumed).2 = .ok true
  | .oauthCallback user _ => user = userId
  | _ => False

/-- A valid password of the user, answered with a challenge of this hash. -/
def Challenges (s : AuthState) (userId : Nat) (tokenHash : String) : Turn → Prop
  | .operation (.login email password) c =>
      ∃ after user, authenticate platform (c 0).passwordHash email password s =
          some (after, user) ∧ user.id = userId ∧ totpEnabled after userId = true ∧
        platform.env.hashToken (c 1).token = tokenHash
  | _ => False

/-- The choice of the session that the turn creates: its key, its token, its clock. -/
def issued (s : AuthState) : Turn → Option Choice
  | .operation (.login email password) c =>
      match (login platform c email password s).2 with
      | .ok (.loggedIn _) => some (c 1)
      | _ => none
  | .operation (.loginTotp challengeToken code) c =>
      match (loginTotp platform c challengeToken code s).2 with
      | .ok (.loggedIn _) => some (c 2)
      | _ => none
  | .oauthCallback userId choice =>
      match createSession platform choice userId s with
      | .ok _ => some choice
      | .error _ => none
  | _ => none

/-- The turn ends the session: a logout with its token, the revocation of all the sessions of
its user, or a purge after its time. -/
def Ends (s : AuthState) (x : AuthSession) : Turn → Prop
  | .operation (.logout token) c =>
      platform.env.hashToken token = x.tokenHash ∧ (logout platform c token s).2 = .ok .status
  | .revokeAll userId _ => userId = x.userId
  | .purge now => x.expiresAt < now
  | _ => False

end Runs

/-- What nothing changes in the row of a session. -/
def identityOf (x : AuthSession) : Nat × Nat × String × Instant :=
  (x.id, x.userId, x.tokenHash, x.expiresAt)

/-- The session that is created with this choice. -/
def newSession (platform : Platform) (userId : Nat) (c : Choice) : AuthSession :=
  ⟨c.uuid, userId, platform.env.hashToken c.token,
    c.now + platform.env.sessionTtlHours * 3600000000, c.now, none⟩

/-- The two unique keys of `sessions`. -/
structure Distinct (rows : List AuthSession) : Prop where
  ids : (rows.map fun x => x.id).Nodup
  hashes : (rows.map fun x => x.tokenHash).Nodup

section Operations

variable {platform : Platform} {s s' : AuthState}

theorem createSession_eq_ok {c : Choice} {userId : Nat}
    (h : createSession platform c userId s = .ok s') :
    (s.sessions.any fun x => x.id == c.uuid ||
        x.tokenHash == platform.env.hashToken c.token) = false ∧
      s' = { s with sessions := s.sessions ++ [⟨c.uuid, userId, platform.env.hashToken c.token,
        c.now + platform.env.sessionTtlHours * 3600000000, c.now, none⟩] } := by
  simp only [createSession] at h
  split at h
  · cases h
  · rename_i hfree
    cases h
    exact ⟨Bool.eq_false_iff.mpr hfree, rfl⟩

theorem resolveSession_eq_some {now seen : Instant} {token : String} {x : AuthSession} {user : User}
    (h : resolveSession platform now seen token s = some (s', x, user)) :
    ∃ y ∈ s.sessions, y.tokenHash = platform.env.hashToken token ∧ y.revokedAt = none ∧
      now ≤ y.expiresAt ∧ y.id = x.id ∧ s'.challenges = s.challenges ∧
      s'.sessions = s.sessions.map fun z =>
        if z.id = y.id then { z with lastSeenAt := seen } else z := by
  unfold resolveSession at h
  simp only [Option.bind_eq_bind, Option.bind_eq_some_iff] at h
  obtain ⟨y, hy, h⟩ := h
  split at h
  · cases h
  rename_i hrevoked
  split at h
  · cases h
  rename_i hlive
  obtain ⟨_, -, h⟩ := Option.bind_eq_some_iff.mp h
  cases h
  exact ⟨y, List.mem_of_find?_eq_some hy, by simpa using List.find?_some hy,
    by simpa using hrevoked, Int.not_lt.mp hlive, rfl, rfl, rfl⟩

theorem createLoginChallenge_eq_ok {c : Choice} {userId : Nat}
    (h : createLoginChallenge platform c userId s = .ok s') :
    s' = { s with challenges := s.challenges ++ [⟨c.uuid, userId, platform.env.hashToken c.token,
      c.now + platform.loginChallengeTtlMinutes * 60000000, none⟩] } := by
  simp only [createLoginChallenge] at h
  split at h
  · cases h
  · cases h
    rfl

theorem consumeLoginChallenge_eq_some {now consumedAt : Instant} {token : String} {userId : Nat}
    (h : consumeLoginChallenge platform now consumedAt token s = some (s', userId)) :
    ∃ y ∈ s.challenges, y.tokenHash = platform.env.hashToken token ∧ y.userId = userId ∧
      s'.sessions = s.sessions ∧ s'.challenges = s.challenges.map fun z =>
        if z.id = y.id then { z with consumedAt := some consumedAt } else z := by
  unfold consumeLoginChallenge at h
  simp only [Option.bind_eq_bind, Option.bind_eq_some_iff] at h
  obtain ⟨y, hy, h⟩ := h
  split at h
  · cases h
  · cases h
    exact ⟨y, List.mem_of_find?_eq_some hy, by simpa using List.find?_some hy, rfl, rfl, rfl⟩

theorem login_cases (platform : Platform) (c : Nat → Choice) (email password : String)
    (s : AuthState) :
    (login platform c email password s).1 = s ∧
        (∀ token, (login platform c email password s).2 ≠ .ok (.loggedIn token)) ∨
      ∃ after user, authenticate platform (c 0).passwordHash email password s =
          some (after, user) ∧
        ((totpEnabled after user.id = true ∧
            ∃ s', createLoginChallenge platform (c 1) user.id after = .ok s' ∧
              login platform c email password s = (s', .ok (.totpRequired (c 1).token))) ∨
          totpEnabled after user.id = false ∧
            ∃ s', createSession platform (c 1) user.id after = .ok s' ∧
              login platform c email password s = (s', .ok (.loggedIn (c 1).token))) := by
  unfold login
  cases hauth : authenticate platform (c 0).passwordHash email password s with
  | none => exact .inl ⟨rfl, fun _ h => by cases h⟩
  | some out =>
      obtain ⟨after, user⟩ := out
      dsimp only
      cases htotp : totpEnabled after user.id with
      | true =>
          rw [if_pos rfl]
          cases hcreate : createLoginChallenge platform (c 1) user.id after with
          | error e => exact .inl ⟨rfl, fun _ h => by cases h⟩
          | ok s' => exact .inr ⟨after, user, rfl, .inl ⟨htotp, s', hcreate, rfl⟩⟩
      | false =>
          rw [if_neg Bool.false_ne_true]
          cases hcreate : createSession platform (c 1) user.id after with
          | error e => exact .inl ⟨rfl, fun _ h => by cases h⟩
          | ok s' => exact .inr ⟨after, user, rfl, .inr ⟨htotp, s', hcreate, rfl⟩⟩

theorem loginTotp_cases (platform : Platform) (c : Nat → Choice) (challengeToken code : String)
    (s : AuthState) :
    (loginTotp platform c challengeToken code s).1 = s ∧
        (∀ token, (loginTotp platform c challengeToken code s).2 ≠ .ok (.loggedIn token)) ∨
      ∃ consumed userId, consumeLoginChallenge platform (c 0).now (c 1).now challengeToken s =
          some (consumed, userId) ∧
        ((loginTotp platform c challengeToken code s).1 =
            (verifySecondFactor platform (factorChoices c) userId code consumed).1 ∧
            (∀ token, (loginTotp platform c challengeToken code s).2 ≠ .ok (.loggedIn token)) ∨
          (verifySecondFactor platform (factorChoices c) userId code consumed).2 = .ok true ∧
            ∃ s', createSession platform (c 2) userId
                (verifySecondFactor platform (factorChoices c) userId code consumed).1 = .ok s' ∧
              loginTotp platform c challengeToken code s = (s', .ok (.loggedIn (c 2).token))) := by
  unfold loginTotp
  cases hconsume : consumeLoginChallenge platform (c 0).now (c 1).now challengeToken s with
  | none => exact .inl ⟨rfl, fun _ h => by cases h⟩
  | some out =>
      obtain ⟨consumed, userId⟩ := out
      dsimp only
      have hchoices : (fun n => (⟨(c (n + 3)).now, (c (n + 3)).token⟩ : SecondFactor.Choice)) =
          factorChoices c := rfl
      rw [hchoices]
      cases hverify : verifySecondFactor platform (factorChoices c) userId code consumed with
      | mk verified result =>
          cases result with
          | error e => exact .inl ⟨rfl, fun _ h => by cases h⟩
          | ok accepted =>
              refine or_iff_not_imp_left.mpr fun hmoved =>
                ⟨consumed, userId, rfl, ?_⟩
              cases accepted with
              | false =>
                  rw [hverify]
                  exact .inl ⟨rfl, fun _ h => by cases h⟩
              | true =>
                  rw [hverify]
                  cases hcreate : createSession platform (c 2) userId verified with
                  | error e =>
                      refine (hmoved ?_).elim
                      simp only [hcreate, true_and]
                      exact fun _ h => by cases h
                  | ok s' =>
                      simp only [hcreate, true_and]
                      exact .inr ⟨s', rfl, rfl⟩

theorem logout_cases (platform : Platform) (c : Nat → Choice) (token : String) (s : AuthState) :
    (logout platform c token s = (s, .error (.http 401 "Authentification requise"))) ∨
      (logout platform c token s).2 = .ok .status ∧
        (logout platform c token s).1.challenges = s.challenges ∧
        ∃ y ∈ s.sessions, y.tokenHash = platform.env.hashToken token ∧
          (logout platform c token s).1.sessions = s.sessions.map fun x =>
            if x.id = y.id then
              { x with lastSeenAt := (c 1).now, revokedAt := some (c 2).now }
            else x := by
  unfold logout
  cases hauth : currentAuth platform c token s with
  | none => exact .inl rfl
  | some out =>
      obtain ⟨after, auth, user⟩ := out
      refine .inr ⟨rfl, ?_⟩
      unfold currentAuth at hauth
      split at hauth
      · cases hauth
      obtain ⟨y, hy, hhash, -, -, hid, hchallenges, hsessions⟩ := resolveSession_eq_some hauth
      refine ⟨hchallenges, y, hy, hhash, ?_⟩
      simp only [revokeSession, hsessions, List.map_map]
      refine List.map_congr_left fun x _ => ?_
      rw [Function.comp_apply, ← hid]
      by_cases hx : x.id = y.id <;> simp [hx]

theorem resolve_cases (platform : Platform) (c : Nat → Choice) (token : String) (s : AuthState) :
    (perform platform s c (.resolve token)).1 = s ∨
      (perform platform s c (.resolve token)).1.challenges = s.challenges ∧
        ∃ y ∈ s.sessions, (perform platform s c (.resolve token)).1.sessions =
          s.sessions.map fun x =>
            if x.id = y.id then { x with lastSeenAt := (c 1).now } else x := by
  simp only [perform]
  cases hauth : currentAuth platform c token s with
  | none => exact .inl rfl
  | some out =>
      obtain ⟨after, auth, user⟩ := out
      unfold currentAuth at hauth
      split at hauth
      · cases hauth
      obtain ⟨y, hy, -, -, -, -, hchallenges, hsessions⟩ := resolveSession_eq_some hauth
      exact .inr ⟨hchallenges, y, hy, hsessions⟩

end Operations

section Steps

variable {platform : Platform} {s s' : AuthState} {turn : Turn}

/-- The session of a turn that let its user in. -/
structure Created (platform : Platform) (s : AuthState) (turn : Turn) (x : AuthSession) : Prop where
  grants : Grants platform s x.userId turn
  issued : ∃ c ∈ issued platform s turn,
    identityOf x = identityOf (newSession platform x.userId c)

/-- What a turn makes of the sessions. -/
inductive Rows (platform : Platform) (s : AuthState) (turn : Turn) : List AuthSession → Prop where
  | marked (mark : AuthSession → AuthSession)
      (hidentity : ∀ x, identityOf (mark x) = identityOf x)
      (hrevoked : ∀ x ∈ s.sessions,
        (mark x).revokedAt = none ↔ x.revokedAt = none ∧ ¬ Ends platform s x turn) :
      Rows platform s turn (s.sessions.map mark)
  | purged (now : Instant) (hturn : turn = .purge now) :
      Rows platform s turn (purgeExpiredAuthRows now s).1.sessions
  | created (x : AuthSession) (hcreated : Created platform s turn x)
      (hrevoked : x.revokedAt = none) (hends : ∀ y, ¬ Ends platform s y turn)
      (hfree : ∀ y ∈ s.sessions, y.id ≠ x.id ∧ y.tokenHash ≠ x.tokenHash) :
      Rows platform s turn (s.sessions ++ [x])

theorem rows_same (hsessions : s'.sessions = s.sessions)
    (hends : ∀ x, ¬ Ends platform s x turn) : Rows platform s turn s'.sessions := by
  rw [hsessions, ← List.map_id s.sessions]
  exact .marked id (fun _ => rfl) fun x _ => ⟨fun h => ⟨h, hends x⟩, fun h => h.1⟩

theorem rows_created {before : AuthState} {c : Choice} {userId : Nat}
    (hcreate : createSession platform c userId before = .ok s')
    (hsessions : before.sessions = s.sessions) (hissued : c ∈ issued platform s turn)
    (hgrants : Grants platform s userId turn) (hends : ∀ y, ¬ Ends platform s y turn) :
    Rows platform s turn s'.sessions := by
  obtain ⟨hfree, rfl⟩ := createSession_eq_ok hcreate
  rw [hsessions] at hfree ⊢
  refine .created _ ⟨hgrants, c, hissued, rfl⟩ rfl hends fun y hy => ?_
  simpa using (List.any_eq_false.mp hfree) y hy

theorem sessions_step (hdistinct : Distinct s.sessions) (h : step platform s turn = some s') :
    Rows platform s turn s'.sessions := by
  cases turn with
  | operation op c =>
      obtain rfl := Option.some.inj h
      cases op with
      | login email password =>
          have hends (x : AuthSession) :
              ¬ Ends platform s x (.operation (.login email password) c) := id
          rcases login_cases platform c email password s with
            ⟨hsame, -⟩ | ⟨after, user, hauth, hdone⟩
          · exact rows_same (congrArg AuthState.sessions hsame) hends
          obtain ⟨hsessions, -⟩ := tables_authenticate hauth
          rcases hdone with ⟨-, t, hcreate, hlogin⟩ | ⟨htotp, t, hcreate, hlogin⟩
          · refine rows_same ?_ hends
            simp only [perform, hlogin, createLoginChallenge_eq_ok hcreate, hsessions]
          · have hafter : (perform platform s c (.login email password)).1 = t :=
              congrArg Prod.fst hlogin
            rw [hafter]
            exact rows_created hcreate hsessions (by simp [issued, hlogin])
              ⟨after, user, hauth, rfl, htotp⟩ hends
      | loginTotp challengeToken code =>
          have hends (x : AuthSession) :
              ¬ Ends platform s x (.operation (.loginTotp challengeToken code) c) := id
          rcases loginTotp_cases platform c challengeToken code s with
            ⟨hsame, -⟩ | ⟨consumed, userId, hconsume, hdone⟩
          · exact rows_same (congrArg AuthState.sessions hsame) hends
          have hsessions := sessions_consumeLoginChallenge hconsume
          rcases hdone with ⟨hspent, -⟩ | ⟨hverified, t, hcreate, hlogin⟩
          · refine rows_same ?_ hends
            simp only [perform, hspent]
            exact hsessions
          · have hafter : (perform platform s c (.loginTotp challengeToken code)).1 = t :=
              congrArg Prod.fst hlogin
            rw [hafter]
            exact rows_created hcreate hsessions (by simp [issued, hlogin])
              ⟨consumed, hconsume, hverified⟩ hends
      | resolve token =>
          have hends (x : AuthSession) : ¬ Ends platform s x (.operation (.resolve token) c) := id
          rcases resolve_cases platform c token s with hsame | ⟨-, y, -, hsessions⟩
          · exact rows_same (congrArg AuthState.sessions hsame) hends
          rw [hsessions]
          refine .marked _ (fun x => ?_) fun x _ => ⟨fun h => ⟨?_, hends x⟩, fun h => ?_⟩
          · split <;> rfl
          · split at h <;> exact h
          · split <;> exact h.1
      | logout token =>
          rcases logout_cases platform c token s with hsame | ⟨hdone, -, y, hy, hhash, hsessions⟩
          · refine rows_same (congrArg (fun out => out.1.sessions) hsame) fun x hends => ?_
            rw [Ends, hsame] at hends
            cases hends.2
          have hrow {x : AuthSession} (hx : x ∈ s.sessions) :
              x.id = y.id ↔ platform.env.hashToken token = x.tokenHash := by
            constructor
            · intro hid
              rw [List.inj_on_of_nodup_map hdistinct.ids hx hy hid, hhash]
            · intro htoken
              rw [List.inj_on_of_nodup_map hdistinct.hashes hx hy (htoken.symm.trans hhash.symm)]
          have hafter : (perform platform s c (.logout token)).1.sessions = _ := hsessions
          rw [hafter]
          refine .marked _ (fun x => ?_) fun x hx => ?_
          · split <;> rfl
          · simp only [Ends, hdone, and_true, ← hrow hx]
            by_cases hid : x.id = y.id <;> simp [hid]
      | createInvitation tenantId actor email role => exact rows_same rfl fun _ => id
      | invite slug email role => exact rows_same rfl fun _ => id
      | acceptInvitation token password displayName => exact rows_same rfl fun _ => id
  | purge now =>
      obtain rfl := Option.some.inj h
      exact .purged now rfl
  | oauthCallback userId choice =>
      simp only [step] at h
      split at h
      · rename_i after hcreate
        obtain rfl := Option.some.inj h
        exact rows_created hcreate rfl (by simp [issued, hcreate]) rfl fun _ => id
      · obtain rfl := Option.some.inj h
        exact rows_same rfl fun _ => id
  | revokeAll userId now =>
      obtain rfl := Option.some.inj h
      refine .marked _ (fun x => ?_) fun x _ => ?_
      · split <;> rfl
      · simp only [Ends]
        split
        · rename_i hlive
          simp [hlive.1]
        · rename_i hkept
          constructor
          · exact fun hlive => ⟨hlive, fun huser => hkept ⟨huser.symm, hlive⟩⟩
          · exact fun hlive => hlive.1
  | other after =>
      simp only [step] at h
      split at h
      · rename_i hsame
        obtain rfl := Option.some.inj h
        exact rows_same hsame.1 fun _ => id
      · cases h

theorem challenges_step (h : step platform s turn = some s') {x : LoginChallenge}
    (hx : x ∈ s'.challenges) :
    (∃ y ∈ s.challenges, y.userId = x.userId ∧ y.tokenHash = x.tokenHash) ∨
      Challenges platform s x.userId x.tokenHash turn := by
  cases turn with
  | operation op c =>
      obtain rfl := Option.some.inj h
      cases op with
      | login email password =>
          rcases login_cases platform c email password s with
            ⟨hsame, -⟩ | ⟨after, user, hauth, hdone⟩
          · have hx : x ∈ (login platform c email password s).1.challenges := hx
            rw [hsame] at hx
            exact .inl ⟨x, hx, rfl, rfl⟩
          · obtain ⟨-, hchallenges⟩ := tables_authenticate hauth
            rcases hdone with ⟨htotp, t, hcreate, hlogin⟩ | ⟨-, t, hcreate, hlogin⟩
            · have hx : x ∈ (login platform c email password s).1.challenges := hx
              rw [hlogin, createLoginChallenge_eq_ok hcreate] at hx
              rcases List.mem_append.mp hx with hold | hnew
              · exact .inl ⟨x, hchallenges ▸ hold, rfl, rfl⟩
              · rw [List.mem_singleton.mp hnew]
                exact .inr ⟨after, user, hauth, rfl, htotp, rfl⟩
            · have hx : x ∈ (login platform c email password s).1.challenges := hx
              obtain ⟨-, rfl⟩ := createSession_eq_ok hcreate
              rw [hlogin] at hx
              exact .inl ⟨x, hchallenges ▸ hx, rfl, rfl⟩
      | loginTotp challengeToken code =>
          have hspent {consumed : AuthState} {userId : Nat}
              (hconsume : consumeLoginChallenge platform (c 0).now (c 1).now challengeToken s =
                some (consumed, userId)) (hx : x ∈ consumed.challenges) :
              ∃ y ∈ s.challenges, y.userId = x.userId ∧ y.tokenHash = x.tokenHash := by
            obtain ⟨_, -, -, -, -, hmap⟩ := consumeLoginChallenge_eq_some hconsume
            rw [hmap] at hx
            obtain ⟨y, hy, rfl⟩ := List.mem_map.mp hx
            refine ⟨y, hy, ?_⟩
            split <;> exact ⟨rfl, rfl⟩
          rcases loginTotp_cases platform c challengeToken code s with
            ⟨hsame, -⟩ | ⟨consumed, userId, hconsume, hdone⟩
          · have hx : x ∈ (loginTotp platform c challengeToken code s).1.challenges := hx
            rw [hsame] at hx
            exact .inl ⟨x, hx, rfl, rfl⟩
          · rcases hdone with ⟨hdone, -⟩ | ⟨-, t, hcreate, hlogin⟩
            · have hx : x ∈ (loginTotp platform c challengeToken code s).1.challenges := hx
              rw [hdone] at hx
              exact .inl (hspent hconsume hx)
            · have hx : x ∈ (loginTotp platform c challengeToken code s).1.challenges := hx
              obtain ⟨-, rfl⟩ := createSession_eq_ok hcreate
              rw [hlogin] at hx
              exact .inl (hspent hconsume hx)
      | resolve token =>
          rcases resolve_cases platform c token s with hsame | ⟨hchallenges, -⟩
          · exact .inl ⟨x, hsame ▸ hx, rfl, rfl⟩
          · exact .inl ⟨x, hchallenges ▸ hx, rfl, rfl⟩
      | logout token =>
          have hx : x ∈ (logout platform c token s).1.challenges := hx
          rcases logout_cases platform c token s with hsame | ⟨-, hchallenges, -⟩
          · rw [hsame] at hx
            exact .inl ⟨x, hx, rfl, rfl⟩
          · exact .inl ⟨x, hchallenges ▸ hx, rfl, rfl⟩
      | createInvitation tenantId actor email role => exact .inl ⟨x, hx, rfl, rfl⟩
      | invite slug email role => exact .inl ⟨x, hx, rfl, rfl⟩
      | acceptInvitation token password displayName => exact .inl ⟨x, hx, rfl, rfl⟩
  | purge now =>
      obtain rfl := Option.some.inj h
      exact .inl ⟨x, List.mem_of_mem_filter hx, rfl, rfl⟩
  | oauthCallback userId choice =>
      simp only [step] at h
      split at h
      · rename_i after hcreate
        obtain rfl := Option.some.inj h
        obtain ⟨-, rfl⟩ := createSession_eq_ok hcreate
        exact .inl ⟨x, hx, rfl, rfl⟩
      · obtain rfl := Option.some.inj h
        exact .inl ⟨x, hx, rfl, rfl⟩
  | revokeAll userId now =>
      obtain rfl := Option.some.inj h
      exact .inl ⟨x, hx, rfl, rfl⟩
  | other after =>
      simp only [step] at h
      split at h
      · rename_i hsame
        obtain rfl := Option.some.inj h
        exact .inl ⟨x, hsame.2 ▸ hx, rfl, rfl⟩
      · cases h

theorem Rows.distinct {rows : List AuthSession} (hrows : Rows platform s turn rows)
    (h : Distinct s.sessions) : Distinct rows := by
  cases hrows with
  | marked mark hidentity _ =>
      have hid : (fun x => (mark x).id) = fun x => x.id :=
        funext fun x => congrArg (fun y => y.1) (hidentity x)
      have hhash : (fun x => (mark x).tokenHash) = fun x => x.tokenHash :=
        funext fun x => congrArg (fun y => y.2.2.1) (hidentity x)
      constructor
      · rw [List.map_map, Function.comp_def, hid]
        exact h.ids
      · rw [List.map_map, Function.comp_def, hhash]
        exact h.hashes
  | purged now _ =>
      exact ⟨h.ids.sublist (List.filter_sublist.map _),
        h.hashes.sublist (List.filter_sublist.map _)⟩
  | created x _ _ _ hfree =>
      constructor
      · refine nodup_map_snoc h.ids fun hx => ?_
        obtain ⟨y, hy, hid⟩ := List.mem_map.mp hx
        exact (hfree y hy).1 hid
      · refine nodup_map_snoc h.hashes fun hx => ?_
        obtain ⟨y, hy, hhash⟩ := List.mem_map.mp hx
        exact (hfree y hy).2 hhash

theorem Rows.origin {rows : List AuthSession} (hrows : Rows platform s turn rows)
    {x : AuthSession} (hx : x ∈ rows) :
    (∃ y ∈ s.sessions, identityOf y = identityOf x) ∨ Created platform s turn x := by
  cases hrows with
  | marked mark hidentity _ =>
      obtain ⟨y, hy, rfl⟩ := List.mem_map.mp hx
      exact .inl ⟨y, hy, (hidentity y).symm⟩
  | purged now _ => exact .inl ⟨x, List.mem_of_mem_filter hx, rfl⟩
  | created y hcreated _ _ _ =>
      rcases List.mem_append.mp hx with hold | hnew
      · exact .inl ⟨x, hold, rfl⟩
      · rw [List.mem_singleton.mp hnew]
        exact .inr hcreated

theorem Created.congr {x y : AuthSession} (h : Created platform s turn x)
    (hidentity : identityOf x = identityOf y) : Created platform s turn y := by
  have huser : x.userId = y.userId := congrArg (fun z => z.2.1) hidentity
  exact ⟨huser ▸ h.grants, by rw [← hidentity, ← huser]; exact h.issued⟩

end Steps

end Socle.SessionTurns
