import Socle.SessionTurns

/-!
Where sessions come from and how long they last, over runs.
-/

namespace Socle.SessionLifetimes

open Socle.GuardedRuns
open Socle.DirectoryStore (Instant Choice)
open Socle.SecondFactor (LoginChallenge)
open Socle.AuthPurge
open Socle.SessionTurns

section Origins

variable {platform : Platform} {start s : AuthState} {turns : List Turn}

theorem happened_append {P : AuthState → Turn → Prop} (h : Happened platform start turns P)
    (rest : List Turn) : Happened platform start (turns ++ rest) P := by
  obtain ⟨before, turn, after, mid, rfl, hrun, hP⟩ := h
  exact ⟨before, turn, after ++ rest, mid, by simp, hrun, hP⟩

theorem happened_last {P : AuthState → Turn → Prop} {turn : Turn}
    (hrun : run (step platform) start turns = some s) (hP : P s turn) :
    Happened platform start (turns ++ [turn]) P :=
  ⟨turns, turn, [], s, rfl, hrun, hP⟩

theorem run_snoc {turn : Turn} (hrun : run (step platform) start (turns ++ [turn]) = some s) :
    ∃ mid, run (step platform) start turns = some mid ∧ step platform mid turn = some s := by
  obtain ⟨mid, hmid, hlast⟩ := run_append_eq_some.mp hrun
  obtain ⟨t, ht, hdone⟩ := run_cons_eq_some.mp hlast
  exact ⟨mid, hmid, ht.trans hdone⟩

theorem distinct_run (hstart : Distinct start.sessions)
    (hrun : run (step platform) start turns = some s) : Distinct s.sessions := by
  have hturn (s : AuthState) (turn : Turn) (t : AuthState) (hdistinct : Distinct s.sessions)
      (_ : True) (hstep : step platform s turn = some t) : Distinct t.sessions :=
    (sessions_step hdistinct hstep).distinct hdistinct
  exact run_invariant hturn hstart (along_of_forall (fun _ _ => trivial) _ _) hrun

theorem session_of_run (hstart : Distinct start.sessions)
    (hrun : run (step platform) start turns = some s) {x : AuthSession} (hx : x ∈ s.sessions) :
    (∃ y ∈ start.sessions, identityOf y = identityOf x) ∨
      Happened platform start turns fun s turn => Created platform s turn x := by
  induction turns using List.reverseRecOn generalizing s x with
  | nil =>
      obtain rfl := Option.some.inj hrun
      exact .inl ⟨x, hx, rfl⟩
  | append_singleton turns turn ih =>
      obtain ⟨mid, hmid, hstep⟩ := run_snoc hrun
      rcases (sessions_step (distinct_run hstart hmid) hstep).origin hx with
        ⟨y, hy, hidentity⟩ | hcreated
      · rcases ih hmid hy with ⟨z, hz, hzy⟩ | ⟨before, turn', after, mid', heq, hrun', hy'⟩
        · exact .inl ⟨z, hz, hzy.trans hidentity⟩
        · exact .inr (happened_append
            ⟨before, turn', after, mid', heq, hrun', hy'.congr hidentity⟩ _)
      · exact .inr (happened_last hmid hcreated)

theorem challenge_of_run (hrun : run (step platform) start turns = some s) {x : LoginChallenge}
    (hx : x ∈ s.challenges) :
    (∃ y ∈ start.challenges, y.userId = x.userId ∧ y.tokenHash = x.tokenHash) ∨
      Happened platform start turns fun s turn =>
        Challenges platform s x.userId x.tokenHash turn := by
  induction turns using List.reverseRecOn generalizing s x with
  | nil =>
      obtain rfl := Option.some.inj hrun
      exact .inl ⟨x, hx, rfl, rfl⟩
  | append_singleton turns turn ih =>
      obtain ⟨mid, hmid, hstep⟩ := run_snoc hrun
      rcases challenges_step hstep hx with ⟨y, hy, huser, hhash⟩ | hchallenged
      · rcases ih hmid hy with ⟨z, hz, hzuser, hzhash⟩ | hearlier
        · exact .inl ⟨z, hz, hzuser.trans huser, hzhash.trans hhash⟩
        · rw [huser, hhash] at hearlier
          exact .inr (happened_append hearlier _)
      · exact .inr (happened_last hmid hchallenged)

/-- A turn of the run let the user of the session in, and the session expires as that turn has
set it.  Where the turn was the second step of a login, a turn before it had checked the password
of the same user and handed out the challenge. -/
def Earned (platform : Platform) (start : AuthState) (turns : List Turn) (x : AuthSession) : Prop :=
  ∃ before turn after mid, turns = before ++ turn :: after ∧
    run (step platform) start before = some mid ∧ Created platform mid turn x ∧
    ∀ challengeToken code c, turn = .operation (.loginTotp challengeToken code) c →
      Happened platform start before fun s turn =>
        Challenges platform s x.userId (platform.env.hashToken challengeToken) turn

/-- No session comes from elsewhere, and nothing prolongs one. -/
theorem session_earned (hsessions : start.sessions = []) (hchallenges : start.challenges = [])
    (hrun : run (step platform) start turns = some s) {x : AuthSession} (hx : x ∈ s.sessions) :
    Earned platform start turns x := by
  have hstart : Distinct start.sessions := by
    rw [hsessions]
    exact ⟨List.nodup_nil, List.nodup_nil⟩
  rcases session_of_run hstart hrun hx with ⟨y, hy, -⟩ |
    ⟨before, turn, after, mid, heq, hmid, hcreated⟩
  · rw [hsessions] at hy
    cases hy
  refine ⟨before, turn, after, mid, heq, hmid, hcreated, ?_⟩
  rintro challengeToken code c rfl
  obtain ⟨consumed, hconsume, -⟩ := hcreated.grants
  obtain ⟨y, hy, hhash, huser, -⟩ := consumeLoginChallenge_eq_some hconsume
  rcases challenge_of_run hmid hy with ⟨z, hz, -⟩ | hchallenged
  · rw [hchallenges] at hz
    cases hz
  · rwa [huser, hhash] at hchallenged

/-- Alice has a second factor, and nobody has logged in yet. -/
def guarded : AuthState :=
  { acme.state with
    credentials := [⟨1, some "123456", true, none⟩]
    sessions := []
    challenges := [] }

/-- The code of a secret is the secret. -/
def codePlatform : Platform :=
  { plainPlatform with env := ⟨id, some, fun secret _ => secret, 24⟩ }

/-- Alice gives her password, and the purge passes. -/
def oneStep : List Turn :=
  [.operation (.login "alice@exemple.fr" "secret") fun n =>
      { now := 100, uuid := 10 + n, token := "challenge" },
    .purge 100]

def challenged : AuthState :=
  (run (step codePlatform) guarded oneStep).get (by decide +kernel)

/-- She gives the code of her second factor. -/
def secondStep : Turn :=
  .operation (.loginTotp "challenge" "123456") fun n =>
    { now := 101, uuid := 20 + n, token := "session" }

def signedIn : AuthState :=
  (step codePlatform challenged secondStep).get (by decide +kernel)

theorem challenged_guarded : run (step codePlatform) guarded oneStep = some challenged :=
  (Option.some_get _).symm

theorem signedIn_challenged : step codePlatform challenged secondStep = some signedIn :=
  (Option.some_get _).symm

theorem alice_earned_her_session :
    Earned codePlatform guarded (oneStep ++ [secondStep])
      ⟨22, 1, "session", 86400000101, 101, none⟩ := by
  have hrun : run (step codePlatform) guarded (oneStep ++ [secondStep]) = some signedIn :=
    run_append_eq_some.mpr ⟨challenged, challenged_guarded,
      run_cons_eq_some.mpr ⟨signedIn, signedIn_challenged, rfl⟩⟩
  exact session_earned rfl rfl hrun (by decide +kernel)

end Origins

section Lifetimes

variable {platform : Platform} {s t : AuthState} {turn : Turn} {x : AuthSession}
  {rows : List AuthSession}

/-- The session is there, and not revoked. -/
def Alive (x : AuthSession) (rows : List AuthSession) : Prop :=
  ∃ y ∈ rows, identityOf y = identityOf x ∧ y.revokedAt = none

/-- No session of this token is left, but for a revoked one. -/
def Gone (x : AuthSession) (rows : List AuthSession) : Prop :=
  ∀ y ∈ rows, y.tokenHash = x.tokenHash → y.revokedAt ≠ none

theorem hash_of_identity {x y : AuthSession} (h : identityOf y = identityOf x) :
    y.tokenHash = x.tokenHash := congrArg (fun i => i.2.2.1) h

theorem expiry_of_identity {x y : AuthSession} (h : identityOf y = identityOf x) :
    y.expiresAt = x.expiresAt := congrArg (fun i => i.2.2.2) h

theorem ends_congr {y : AuthSession} (h : identityOf y = identityOf x) :
    Ends platform s y turn ↔ Ends platform s x turn := by
  have huser : y.userId = x.userId := congrArg (fun i => i.2.1) h
  unfold Ends
  split <;> simp only [hash_of_identity h, expiry_of_identity h, huser]

theorem alive_step (hrows : Rows platform s turn rows) (halive : Alive x s.sessions)
    (hends : ¬ Ends platform s x turn) : Alive x rows := by
  obtain ⟨y, hy, hidentity, hlive⟩ := halive
  cases hrows with
  | marked mark hmark hrevoked =>
      refine ⟨mark y, List.mem_map_of_mem hy, (hmark y).trans hidentity, ?_⟩
      exact (hrevoked y hy).mpr ⟨hlive, fun h => hends ((ends_congr hidentity).mp h)⟩
  | purged now hturn =>
      subst hturn
      refine ⟨y, List.mem_filter.mpr ⟨hy, ?_⟩, hidentity, hlive⟩
      have hkept : ¬ x.expiresAt < now := hends
      simp [hlive, expiry_of_identity hidentity, hkept]
  | created z _ _ _ _ => exact ⟨y, List.mem_append_left _ hy, hidentity, hlive⟩

theorem gone_step (hrows : Rows platform s turn rows) (hgone : Gone x s.sessions)
    (hfresh : ∀ c ∈ issued platform s turn, platform.env.hashToken c.token ≠ x.tokenHash) :
    Gone x rows := by
  cases hrows with
  | marked mark hmark hrevoked =>
      intro y hy hhash hlive
      obtain ⟨z, hz, rfl⟩ := List.mem_map.mp hy
      exact hgone z hz ((hash_of_identity (hmark z)).symm.trans hhash)
        ((hrevoked z hz).mp hlive).1
  | purged now _ => exact fun y hy => hgone y (List.mem_of_mem_filter hy)
  | created z hcreated _ _ _ =>
      intro y hy
      rcases List.mem_append.mp hy with hold | hnew
      · exact hgone y hold
      · obtain ⟨c, hc, hidentity⟩ := hcreated.issued
        have hhash : z.tokenHash = platform.env.hashToken c.token :=
          congrArg (fun i => i.2.2.1) hidentity
        rw [List.mem_singleton.mp hnew, hhash]
        exact fun h => (hfresh c hc h).elim

theorem gone_of_ends (hdistinct : Distinct s.sessions) (hrows : Rows platform s turn rows)
    (halive : Alive x s.sessions) (hends : Ends platform s x turn) : Gone x rows := by
  obtain ⟨y, hy, hidentity, -⟩ := halive
  have hsame {z : AuthSession} (hz : z ∈ s.sessions) (hhash : z.tokenHash = x.tokenHash) :
      identityOf z = identityOf x := by
    rw [List.inj_on_of_nodup_map hdistinct.hashes hz hy
      (hhash.trans (hash_of_identity hidentity).symm), hidentity]
  cases hrows with
  | marked mark hmark hrevoked =>
      intro z hz hhash hlive
      obtain ⟨w, hw, rfl⟩ := List.mem_map.mp hz
      have hwsame := hsame hw ((hash_of_identity (hmark w)).symm.trans hhash)
      exact ((hrevoked w hw).mp hlive).2 ((ends_congr hwsame).mpr hends)
  | purged now hturn =>
      subst hturn
      intro z hz hhash _
      obtain ⟨hz, hkept⟩ := List.mem_filter.mp hz
      have hexpired : x.expiresAt < now := hends
      simp [expiry_of_identity (hsame hz hhash), hexpired] at hkept
  | created z _ _ hnone _ => exact (hnone x hends).elim

/-- The token is not handed out again. -/
def FreshToken (platform : Platform) (tokenHash : String) (s : AuthState) (turn : Turn) : Prop :=
  ∀ c ∈ issued platform s turn, platform.env.hashToken c.token ≠ tokenHash

theorem gone_run {turns : List Turn} (hdistinct : Distinct s.sessions)
    (hrun : run (step platform) s turns = some t)
    (hfresh : Along (step platform) (FreshToken platform x.tokenHash) s turns)
    (hgone : Gone x s.sessions) : Gone x t.sessions := by
  have hturn (s : AuthState) (turn : Turn) (t : AuthState)
      (h : Distinct s.sessions ∧ Gone x s.sessions)
      (hfresh : FreshToken platform x.tokenHash s turn)
      (hstep : step platform s turn = some t) : Distinct t.sessions ∧ Gone x t.sessions := by
    have hrows := sessions_step h.1 hstep
    exact ⟨hrows.distinct h.1, gone_step hrows h.2 hfresh⟩
  exact (run_invariant hturn ⟨hdistinct, hgone⟩ hfresh hrun).2

theorem happened_cons {P : AuthState → Turn → Prop} {turns : List Turn}
    (hstep : step platform s turn = some t) :
    Happened platform s (turn :: turns) P ↔ P s turn ∨ Happened platform t turns P := by
  constructor
  · rintro ⟨before, event, after, mid, heq, hrun, hP⟩
    cases before with
    | nil =>
        cases heq
        cases hrun
        exact .inl hP
    | cons first before =>
        obtain ⟨rfl, rfl⟩ := List.cons.inj heq
        obtain ⟨u, hu, hrest⟩ := run_cons_eq_some.mp hrun
        rw [hstep] at hu
        cases hu
        exact .inr ⟨before, event, after, mid, rfl, hrest, hP⟩
  · rintro (hP | ⟨before, event, after, mid, rfl, hrun, hP⟩)
    · exact ⟨[], turn, turns, s, rfl, rfl, hP⟩
    · exact ⟨turn :: before, event, after, mid, rfl, run_cons_eq_some.mpr ⟨t, hstep, hrun⟩, hP⟩

theorem not_happened {P : AuthState → Turn → Prop} {turns : List Turn}
    (h : Along (step platform) (fun s turn => ¬ P s turn) s turns) :
    ¬ Happened platform s turns P := by
  rintro ⟨before, turn, after, mid, rfl, hrun, hP⟩
  exact ((along_append hrun).mp h).2.1 hP

theorem alive_run {turns : List Turn} (hdistinct : Distinct s.sessions)
    (hrun : run (step platform) s turns = some t)
    (hfresh : Along (step platform) (FreshToken platform x.tokenHash) s turns)
    (halive : Alive x s.sessions) :
    (¬ Happened platform s turns (fun s turn => Ends platform s x turn) ∧ Alive x t.sessions) ∨
      Happened platform s turns (fun s turn => Ends platform s x turn) ∧ Gone x t.sessions := by
  induction turns generalizing s with
  | nil =>
      obtain rfl := Option.some.inj hrun
      refine .inl ⟨?_, halive⟩
      rintro ⟨before, turn, after, _, heq, -⟩
      cases before <;> cases heq
  | cons turn turns ih =>
      obtain ⟨mid, hstep, hrest⟩ := run_cons_eq_some.mp hrun
      obtain ⟨-, hfresh⟩ := (along_cons_of_step hstep).mp hfresh
      have hrows := sessions_step hdistinct hstep
      rw [happened_cons hstep]
      by_cases hends : Ends platform s x turn
      · exact .inr ⟨.inl hends, gone_run (hrows.distinct hdistinct) hrest hfresh
          (gone_of_ends hdistinct hrows halive hends)⟩
      · rcases ih (hrows.distinct hdistinct) hrest hfresh (alive_step hrows halive hends) with
          ⟨hkept, hend⟩ | ⟨hended, hend⟩
        · exact .inl ⟨fun h => h.elim hends hkept, hend⟩
        · exact .inr ⟨.inr hended, hend⟩

/-- Who is resolved, if anyone. -/
def resolvedUser (platform : Platform) (now seen : Instant) (token : String) (s : AuthState) :
    Option Nat :=
  (resolveSession platform now seen token s).map fun out => out.2.2.id

theorem resolvedUser_of_alive (hdistinct : Distinct s.sessions) (halive : Alive x s.sessions)
    {token : String} (hhash : platform.env.hashToken token = x.tokenHash) (now seen : Instant)
    (userId : Nat) :
    resolvedUser platform now seen token s = some userId ↔
      now ≤ x.expiresAt ∧ userId = x.userId ∧ s.directory.hasUser userId := by
  obtain ⟨y, hy, hidentity, hlive⟩ := halive
  have huser : y.userId = x.userId := congrArg (fun i => i.2.1) hidentity
  have hfind : (s.sessions.find? fun z => z.tokenHash == platform.env.hashToken token) =
      some y := by
    have hsome : (s.sessions.find? fun z =>
        z.tokenHash == platform.env.hashToken token).isSome := by
      refine List.find?_isSome.mpr ⟨y, hy, ?_⟩
      rw [hhash, hash_of_identity hidentity, beq_self_eq_true]
    obtain ⟨z, hz⟩ := Option.isSome_iff_exists.mp hsome
    have hzhash : z.tokenHash = y.tokenHash := by
      rw [hash_of_identity hidentity, ← hhash]
      simpa using List.find?_some hz
    rw [hz, List.inj_on_of_nodup_map hdistinct.hashes (List.mem_of_find?_eq_some hz) hy hzhash]
  unfold resolvedUser resolveSession
  rw [hfind]
  simp only [Option.bind_eq_bind, Option.bind_some, hlive, Option.isSome_none, Bool.false_eq_true,
    if_false, expiry_of_identity hidentity, huser]
  by_cases hexpired : x.expiresAt < now
  · simp [hexpired, Int.not_le.mpr hexpired]
  rw [if_neg hexpired]
  cases hrow : s.directory.users.find? fun u => u.id == x.userId with
  | none =>
      simp only [Option.bind_none, Option.map_none, reduceCtorEq, false_iff, not_and]
      rintro - rfl hthere
      obtain ⟨user, hmem, hid⟩ := List.any_eq_true.mp hthere
      exact (List.find?_eq_none.mp hrow) user hmem hid
  | some user =>
      have hid : user.id = x.userId := by simpa using List.find?_some hrow
      simp only [Option.bind_some, Option.map_some, Option.some.injEq, hid]
      constructor
      · rintro rfl
        refine ⟨Int.not_lt.mp hexpired, rfl, List.any_eq_true.mpr ⟨user, ?_, ?_⟩⟩
        · exact List.mem_of_find?_eq_some hrow
        · rw [hid, beq_self_eq_true]
      · exact fun h => h.2.1.symm

theorem resolvedUser_of_gone (hgone : Gone x s.sessions) {token : String}
    (hhash : platform.env.hashToken token = x.tokenHash) (now seen : Instant) :
    resolvedUser platform now seen token s = none := by
  unfold resolvedUser
  cases hout : resolveSession platform now seen token s with
  | none => rfl
  | some out =>
      obtain ⟨after, y, user⟩ := out
      obtain ⟨z, hz, hzhash, hlive, -⟩ := resolveSession_eq_some hout
      exact (hgone z hz (hzhash.trans hhash) hlive).elim

theorem alive_issued (hstep : step platform s turn = some t) {c : Choice}
    (hc : c ∈ issued platform s turn) {userId : Nat} (hgrants : Grants platform s userId turn) :
    Alive (newSession platform userId c) t.sessions := by
  have hcreated {before after : AuthState}
      (h : createSession platform c userId before = .ok after) :
      Alive (newSession platform userId c) after.sessions := by
    obtain ⟨-, rfl⟩ := createSession_eq_ok h
    exact ⟨_, List.mem_append_right _ (List.mem_singleton_self _), rfl, rfl⟩
  cases turn with
  | operation op choices =>
      obtain rfl := Option.some.inj hstep
      cases op with
      | login email password =>
          obtain ⟨after, user, hauth, rfl, -⟩ := hgrants
          rcases login_cases platform choices email password s with
            ⟨-, hrefused⟩ | ⟨after', user', hauth', hdone⟩
          · simp only [issued] at hc
            cases hc
          cases hauth.symm.trans hauth'
          rcases hdone with ⟨-, u, -, hlogin⟩ | ⟨-, u, hcreate, hlogin⟩
          · simp [issued, hlogin] at hc
          · obtain rfl : choices 1 = c := by simpa [issued, hlogin] using hc
            exact congrArg Prod.fst hlogin ▸ hcreated hcreate
      | loginTotp challengeToken code =>
          obtain ⟨consumed, hconsume, -⟩ := hgrants
          rcases loginTotp_cases platform choices challengeToken code s with
            ⟨-, hrefused⟩ | ⟨consumed', userId', hconsume', hdone⟩
          · simp only [issued] at hc
            cases hc
          cases hconsume.symm.trans hconsume'
          rcases hdone with ⟨-, hrefused⟩ | ⟨-, u, hcreate, hlogin⟩
          · simp only [issued] at hc
            cases hc
          · obtain rfl : choices 2 = c := by simpa [issued, hlogin] using hc
            exact congrArg Prod.fst hlogin ▸ hcreated hcreate
      | _ => cases hc
  | oauthCallback user choice =>
      obtain rfl : user = userId := hgrants
      simp only [step] at hstep
      simp only [issued] at hc
      split at hstep
      · rename_i after hcreate
        rw [hcreate] at hc
        cases hc
        cases hstep
        exact hcreated hcreate
      · rename_i hcreate
        rw [hcreate] at hc
        cases hc
  | _ => cases hc

/-- The token of a turn that lets a user in resolves to this user, and to nobody else, until the
session expires, is ended by a turn, or loses its user. -/
theorem session_lasts {start s₁ : AuthState} {before rest : List Turn}
    (hstart : start.sessions = []) (hbefore : run (step platform) start before = some s)
    (hstep : step platform s turn = some s₁) {c : Choice} (hc : c ∈ issued platform s turn)
    {userId : Nat} (hgrants : Grants platform s userId turn)
    (hrest : run (step platform) s₁ rest = some t)
    (hfresh : Along (step platform) (FreshToken platform (platform.env.hashToken c.token)) s₁ rest)
    (now seen : Instant) (user : Nat) :
    resolvedUser platform now seen c.token t = some user ↔
      now ≤ c.now + platform.env.sessionTtlHours * 3600000000 ∧ user = userId ∧
        t.directory.hasUser user ∧
        ¬ Happened platform s₁ rest fun s turn =>
          Ends platform s (newSession platform userId c) turn := by
  have hempty : Distinct start.sessions := by
    rw [hstart]
    exact ⟨List.nodup_nil, List.nodup_nil⟩
  have hdistinct : Distinct s.sessions := distinct_run hempty hbefore
  have hdistinct₁ : Distinct s₁.sessions := (sessions_step hdistinct hstep).distinct hdistinct
  have halive : Alive (newSession platform userId c) s₁.sessions := alive_issued hstep hc hgrants
  rcases alive_run hdistinct₁ hrest hfresh halive with ⟨hkept, hend⟩ | ⟨hended, hend⟩
  · rw [resolvedUser_of_alive (distinct_run hdistinct₁ hrest) hend rfl now seen user]
    exact ⟨fun h => ⟨h.1, h.2.1, h.2.2, hkept⟩, fun h => ⟨h.1, h.2.1, h.2.2.1⟩⟩
  · rw [resolvedUser_of_gone hend rfl]
    exact ⟨fun h => (by cases h), fun h => (h.2.2.2 hended).elim⟩

/-- A day in which no turn ends the session of Alice. -/
def oneDay : List Turn :=
  [.operation (.resolve "session") fun n => { now := 102 + n },
    .operation (.logout "elsewhere") fun n => { now := 110 + n },
    .revokeAll 2 120,
    .purge 130]

/-- The session resolves up to its last moment. -/
theorem alice_stays_for_a_day :
    ∃ t, run (step codePlatform) signedIn oneDay = some t ∧
      resolvedUser codePlatform 86400000101 86400000102 "session" t = some 1 := by
  let session : Choice := { now := 101, uuid := 22, token := "session" }
  have hrest : run (step codePlatform) signedIn oneDay =
      some ((run (step codePlatform) signedIn oneDay).get (by decide +kernel)) :=
    (Option.some_get _).symm
  let consumed : AuthState × Nat :=
    (consumeLoginChallenge codePlatform 101 101 "challenge" challenged).get (by decide +kernel)
  have hconsumed : consumed.2 = 1 := by decide +kernel
  have hgrants : Grants codePlatform challenged 1 secondStep :=
    ⟨consumed.1, (Option.some_get _).symm.trans (congrArg some (Prod.ext rfl hconsumed)),
      by decide +kernel⟩
  have hfresh : Along (step codePlatform) (FreshToken codePlatform "session") signedIn oneDay := by
    refine along_of_forall_mem (fun turn hturn s c hc => ?_) _
    simp only [oneDay, List.mem_cons, List.not_mem_nil, or_false] at hturn
    rcases hturn with rfl | rfl | rfl | rfl <;> cases hc
  have hkept : ¬ Happened codePlatform signedIn oneDay fun s turn =>
      Ends codePlatform s (newSession codePlatform 1 session) turn := by
    refine not_happened (along_of_forall_mem (fun turn hturn s => ?_) _)
    simp only [oneDay, List.mem_cons, List.not_mem_nil, or_false] at hturn
    rcases hturn with rfl | rfl | rfl | rfl
    · exact id
    · exact fun h => absurd h.1 (by decide)
    · exact (by decide : (2 : Nat) ≠ 1)
    · exact (by decide : ¬ (86400000101 : Int) < 130)
  refine ⟨_, hrest, ?_⟩
  have hissued : issued codePlatform challenged secondStep = some session := by decide +kernel
  exact (session_lasts rfl challenged_guarded signedIn_challenged hissued hgrants hrest
    hfresh _ _ 1).mpr ⟨by decide, rfl, by decide +kernel, hkept⟩

end Lifetimes

end Socle.SessionLifetimes
