import Socle.SingleUse

/-!
A login challenge under any attempt: `login_totp` marks it consumed in memory
before the second factor is verified, and only a commit keeps the mark.
-/

namespace Socle.BurntChallenges

open Socle.Procedures
open Socle.SecondFactor

/-- What follows the consumption of the challenge. -/
def secondStep (env : Environment) (userId : Nat) (code : String) : LoginProc String := do
  if ← verifySecondFactor env userId code then
    let token ← createSession env userId
    commit
    return token
  else
    commit
    throw (.http 401 "Code invalide ou challenge expiré")

section Attempt

variable (env : Environment) (db : Database) (challengeToken code : String)

/-- One POST, from its first statement to its answer. -/
def attempt (choices : Nat → Choice) : Database × Except Failure String :=
  let out := eval serve (loginTotp env challengeToken code) db {} choices
  (out.1, out.2.2)

/-- The challenge is stored, not consumed, and not expired when the request looks
at it. -/
structure Open (challenge : LoginChallenge) (choices : Nat → Choice) : Prop where
  stored : db.accounts.challenges.find? (fun c => c.tokenHash == env.hashToken challengeToken) =
    some challenge
  unconsumed : challenge.consumedAt = none
  -- The clock is first read by the second statement.
  unexpired : (choices 1).now ≤ challenge.expiresAt

/-- The request ended with one new session for the user of the challenge or with
a 401, and the challenge is committed as consumed. -/
def Burnt (challenge : LoginChallenge) (out : Database × Except Failure String) : Prop :=
  (∃ c ∈ out.1.accounts.challenges, c.id = challenge.id) ∧
    SingleUse.Spent out.1.accounts (.challenge challenge.id) ∧
    ((∃ token session, out.2 = .ok token ∧ session.userId = challenge.userId ∧
        session.tokenHash = env.hashToken token ∧
        out.1.accounts.sessions = db.accounts.sessions ++ [session]) ∨
      out.2 = .error (.http 401 "Code invalide ou challenge expiré") ∧
        out.1.accounts.sessions = db.accounts.sessions)

/-- The verification cannot raise: a user with TOTP has a secret that can be
decrypted, and the code is ASCII. -/
def Verifiable (userId : Nat) : Prop :=
  ∀ credentials, db.accounts.credentials.find? (fun c => c.userId == userId) = some credentials →
    credentials.totpEnabled = true →
      isAscii code = true ∧ ∃ secret, decryptTotpSecret env credentials = .ok secret

end Attempt

section Proofs

variable {env : Environment} {db : Database} {challengeToken code : String}

theorem eval_ask_bind {α : Type} (r : Request) (f : Answer r → LoginProc α) (db : Database)
    (l : Session) (choices : Nat → Choice) :
    eval serve (ask r >>= f) db l choices =
      eval serve (f (serve db l r (choices 0)).2.2) (serve db l r (choices 0)).1
        (serve db l r (choices 0)).2.1 fun n => choices (n + 1) := rfl

theorem eval_loginTotp {challenge : LoginChallenge} {choices : Nat → Choice}
    (h : Open env db challengeToken challenge choices) :
    eval serve (loginTotp env challengeToken code) db {} choices =
      eval serve (secondStep env challenge.userId code) db
        { challenge := some ⟨challenge, db.log.length⟩
          pending := [.setConsumed challenge.id (choices 2).now] } fun n => choices (n + 4) := by
  have hopen : ¬ (challenge.consumedAt.isSome ∨ challenge.expiresAt < (choices 1).now) := by
    rw [h.unconsumed]
    rintro (hsome | hexpired)
    · cases hsome
    · exact absurd h.unexpired (Int.not_le.mpr hexpired)
  unfold loginTotp acceptedUser consumeLoginChallenge
  simp only [Proc.bind_assoc]
  rw [eval_ask_bind]
  simp only [serve, h.stored, Proc.bind_assoc]
  rw [eval_ask_bind]
  simp only [serve, Nat.zero_add]
  rw [if_neg hopen]
  simp only [Proc.bind_assoc]
  rw [eval_ask_bind, eval_ask_bind]
  simp only [serve, Proc.pure_eq, Proc.ret_bind, Proc.bind_assoc]
  congr 1
  unfold secondStep
  congr 1
  funext accepted
  cases accepted with
  | true => rfl
  | false => rfl

/-- The token drawn for a session is not in use. -/
def Fresh (env : Environment) (db : Database) (c : Choice) : Prop :=
  ∀ session ∈ db.accounts.sessions, session.tokenHash ≠ env.hashToken c.token

/-- A change of the credentials or of a recovery code that the database takes. -/
def Settles (accounts : Accounts) (change : Change) : Prop :=
  ∀ a : Accounts, a.credentials = accounts.credentials →
    a.recoveryCodes = accounts.recoveryCodes →
      ∃ a', a.apply change = some a' ∧ a'.challenges = a.challenges ∧ a'.sessions = a.sessions

theorem settles_setLastCounter {accounts : Accounts} {userId : Nat} {credentials : UserCredentials}
    (h : accounts.credentials.find? (fun c => c.userId == userId) = some credentials)
    (counter : Int) : Settles accounts (.setLastCounter credentials.userId counter) := by
  intro a hcredentials _
  refine ⟨_, if_pos ?_, rfl, rfl⟩
  rw [hcredentials]
  exact List.any_eq_true.mpr ⟨credentials, List.mem_of_find?_eq_some h, beq_self_eq_true _⟩

theorem settles_setUsed {accounts : Accounts} {p : RecoveryCode → Bool} {recovery : RecoveryCode}
    (h : accounts.recoveryCodes.find? p = some recovery) (usedAt : DirectoryStore.Instant) :
    Settles accounts (.setUsed recovery.id usedAt) := by
  intro a _ hcodes
  refine ⟨_, if_pos ?_, rfl, rfl⟩
  rw [hcodes]
  exact List.any_eq_true.mpr ⟨recovery, List.mem_of_find?_eq_some h, beq_self_eq_true _⟩

/-- How the verification of a code ends: with its change pending, with nothing, or
with an exception that no route translates. -/
def Checked (db : Database) (l : Session) (verifiable : Prop) (db' : Database) (l' : Session) :
    Except Failure Bool → Prop
  | .ok true => db' = db ∧ verifiable ∧
      ∃ change, l'.pending = l.pending ++ [change] ∧ Settles db.accounts change
  | .ok false => db' = db ∧ verifiable ∧ l'.pending = l.pending
  | .error e => ¬ verifiable ∧ ∀ status detail, e ≠ .http status detail

theorem ensures_verifyTotpCode {cond : Database → Session → Request → Choice → Prop} {userId : Nat}
    {credentials : UserCredentials} (l : Session)
    (hfound : db.accounts.credentials.find? (fun c => c.userId == userId) = some credentials) :
    EnsuresIf serve cond
      (Checked db l (isAscii code = true ∧ ∃ secret, decryptTotpSecret env credentials = .ok secret))
      db l (verifyTotpCode env credentials code) := by
  unfold verifyTotpCode
  cases hsecret : decryptTotpSecret env credentials with
  | error e =>
      refine ⟨fun h => ?_, fun status detail => ?_⟩
      · obtain ⟨-, secret, hok⟩ := h
        cases hok
      · unfold decryptTotpSecret at hsecret
        rintro rfl
        split at hsecret
        · cases hsecret
        · split at hsecret
          · cases hsecret
          · cases hsecret
  | ok secret =>
      refine ensuresIf_request_bind.mpr fun c _ => ?_
      simp only [serve, matchingCounter]
      by_cases hascii : isAscii code = true
      · rw [if_pos hascii]
        cases hcounter : (window c.now).find? fun counter => env.otp secret counter == code with
        | none => exact ⟨rfl, ⟨hascii, secret, rfl⟩, rfl⟩
        | some counter =>
            simp only [Proc.ofExcept, Proc.ret_bind]
            split
            · exact ⟨rfl, ⟨hascii, secret, rfl⟩, rfl⟩
            · exact fun _ _ => ⟨rfl, ⟨hascii, secret, rfl⟩, _, rfl,
                settles_setLastCounter hfound counter⟩
      · rw [if_neg hascii]
        exact ⟨fun h => hascii h.1, fun _ _ h => by cases h⟩

theorem verifiable_iff {userId : Nat} {credentials : UserCredentials}
    (hfound : db.accounts.credentials.find? (fun c => c.userId == userId) = some credentials)
    (henabled : credentials.totpEnabled = true) :
    Verifiable env db code userId ↔
      isAscii code = true ∧ ∃ secret, decryptTotpSecret env credentials = .ok secret := by
  constructor
  · exact fun h => h credentials hfound henabled
  · rintro h other hother -
    cases hfound.symm.trans hother
    exact h

theorem ensures_verifySecondFactor {cond : Database → Session → Request → Choice → Prop}
    (userId : Nat) (l : Session) :
    EnsuresIf serve cond (Checked db l (Verifiable env db code userId)) db l
      (verifySecondFactor env userId code) := by
  refine ensuresIf_request_bind.mpr fun c _ => ?_
  simp only [serve]
  cases hfound : db.accounts.credentials.find? fun c => c.userId == userId with
  | none =>
      refine ⟨rfl, fun credentials h => ?_, rfl⟩
      cases hfound.symm.trans h
  | some credentials =>
      dsimp only
      by_cases henabled : credentials.totpEnabled = true
      · rw [if_neg (by simp [henabled]), verifiable_iff hfound henabled]
        refine ensuresIf_bind (ensures_verifyTotpCode _ hfound) ?_ fun _ _ _ h => h
        rintro db₁ l₁ (_ | _) hchecked
        · obtain ⟨rfl, hverifiable, hpending⟩ := hchecked
          refine ensuresIf_request_bind.mpr fun c _ => ?_
          simp only [serve]
          cases hcode : db₁.accounts.recoveryCodes.find? fun r => r.userId == userId &&
              r.codeHash == env.hashToken code && r.usedAt.isNone with
          | none => exact ⟨rfl, hverifiable, hpending⟩
          | some recovery =>
              refine ensuresIf_request_bind.mpr fun c _ => ?_
              refine ensuresIf_request_bind.mpr fun c' _ => ?_
              refine ⟨rfl, hverifiable, .setUsed recovery.id c.now, ?_, settles_setUsed hcode c.now⟩
              exact congrArg (fun pending => pending ++ [Change.setUsed recovery.id c.now]) hpending
        · exact hchecked
      · rw [if_pos (by simp [henabled])]
        refine ⟨rfl, fun other hother htotp => ?_, rfl⟩
        cases hfound.symm.trans hother
        exact absurd htotp henabled

theorem applyAll_settled {challenge : LoginChallenge} {consumedAt : DirectoryStore.Instant}
    {changes : List Change} (hstored : challenge ∈ db.accounts.challenges)
    (hchanges : changes = [] ∨ ∃ change, changes = [change] ∧ Settles db.accounts change) :
    ∃ a, db.accounts.applyAll (.setConsumed challenge.id consumedAt :: changes) = some a ∧
      a.sessions = db.accounts.sessions ∧ (∃ c ∈ a.challenges, c.id = challenge.id) ∧
      SingleUse.Spent a (.challenge challenge.id) := by
  have hany : (db.accounts.challenges.any fun c => c.id == challenge.id) = true :=
    List.any_eq_true.mpr ⟨challenge, hstored, beq_self_eq_true _⟩
  obtain ⟨marked, hmark, hsessions, hthere, hspent, hcredentials, hcodes⟩ :
      ∃ a, db.accounts.apply (.setConsumed challenge.id consumedAt) = some a ∧
        a.sessions = db.accounts.sessions ∧ (∃ c ∈ a.challenges, c.id = challenge.id) ∧
        SingleUse.Spent a (.challenge challenge.id) ∧
        a.credentials = db.accounts.credentials ∧
        a.recoveryCodes = db.accounts.recoveryCodes := by
    refine ⟨_, if_pos hany, rfl, ⟨_, List.mem_map_of_mem hstored, by simp⟩, ?_, rfl, rfl⟩
    intro c hc hid
    rcases SingleUse.mem_map_if hc with ⟨x, -, -, rfl⟩ | ⟨-, hother⟩
    · exact nofun
    · exact absurd hid hother
  rcases hchanges with rfl | ⟨change, rfl, hsettles⟩
  · exact ⟨marked, by simp [Accounts.applyAll, hmark], hsessions, hthere, hspent⟩
  · obtain ⟨a, happly, hchallenges, hkept⟩ := hsettles marked hcredentials hcodes
    refine ⟨a, by simp [Accounts.applyAll, hmark, happly], hkept.trans hsessions, ?_, ?_⟩
    · rw [hchallenges]
      exact hthere
    · unfold SingleUse.Spent
      rw [hchallenges]
      exact hspent

theorem applyAll_addSession {a a' : Accounts} {changes : List Change} {session : AuthSession}
    (happly : a.applyAll changes = some a')
    (hfresh : ∀ s ∈ a'.sessions, s.tokenHash ≠ session.tokenHash) :
    a.applyAll (changes ++ [.addSession session]) =
      some { a' with sessions := a'.sessions ++ [session] } := by
  have hnone : ¬ (a'.sessions.any fun s => s.tokenHash == session.tokenHash) = true := by
    intro hany
    obtain ⟨s, hs, hhash⟩ := List.any_eq_true.mp hany
    exact hfresh s hs (eq_of_beq hhash)
  unfold Accounts.applyAll at happly ⊢
  rw [List.foldlM_append, happly]
  show (a'.apply (.addSession session) >>= pure) = _
  simp only [Accounts.apply, if_neg hnone]
  rfl

theorem ensures_commit_bind {α : Type} {cond : Database → Session → Request → Choice → Prop}
    {Q : Database → Session → Except Failure α → Prop} {l : Session} {f : Unit → LoginProc α}
    {a : Accounts} (happly : db.accounts.applyAll l.pending = some a)
    (hf : EnsuresIf serve cond Q ⟨a, db.log ++ [l.pending]⟩ { l with pending := [] } (f ())) :
    EnsuresIf serve cond Q db l (commit >>= f) := by
  refine ensuresIf_request_bind.mpr fun c _ => ?_
  simp only [serve, Database.commit, happly]
  exact hf

theorem ensures_secondStep {challenge : LoginChallenge}
    (hstored : challenge ∈ db.accounts.challenges) {l : Session}
    {consumedAt : DirectoryStore.Instant}
    (hpending : l.pending = [.setConsumed challenge.id consumedAt]) :
    EnsuresIf serve (fun _ _ _ c => Fresh env db c)
      (fun db' _ out => Burnt env db challenge (db', out) ↔
        Verifiable env db code challenge.userId) db l
      (secondStep env challenge.userId code) := by
  refine ensuresIf_bind (ensures_verifySecondFactor challenge.userId l) ?_ ?_
  · rintro db₁ l₁ (_ | _) hchecked
    · obtain ⟨rfl, hverifiable, hsame⟩ := hchecked
      rw [if_neg Bool.false_ne_true]
      obtain ⟨a, happly, hsessions, hthere, hspent⟩ := applyAll_settled hstored (.inl rfl)
      rw [← hpending, ← hsame] at happly
      refine ensures_commit_bind happly (iff_of_true ?_ hverifiable)
      exact ⟨hthere, hspent, .inr ⟨rfl, hsessions⟩⟩
    · obtain ⟨rfl, hverifiable, change, hsame, hsettles⟩ := hchecked
      rw [if_pos rfl]
      obtain ⟨a, happly, hsessions, hthere, hspent⟩ :=
        applyAll_settled hstored (.inr ⟨change, rfl, hsettles⟩)
      refine ensuresIf_request_bind.mpr fun c hfresh => ?_
      refine ensuresIf_request_bind.mpr fun c' _ => ?_
      refine ensuresIf_request_bind.mpr fun c'' _ => ?_
      let session : AuthSession := ⟨challenge.userId, env.hashToken c.token,
        c'.now + env.sessionTtlHours * 3600000000⟩
      have hunused : ∀ s ∈ a.sessions, s.tokenHash ≠ session.tokenHash := hsessions ▸ hfresh
      have hadded := applyAll_addSession happly hunused
      have hall : l₁.pending = .setConsumed challenge.id consumedAt :: [change] := by
        rw [hsame, hpending]
        rfl
      rw [← hall] at hadded
      refine ensures_commit_bind hadded (iff_of_true ?_ hverifiable)
      exact ⟨hthere, hspent, .inl ⟨c.token, session, rfl, rfl, rfl, by rw [hsessions]⟩⟩
  · rintro db₁ l₁ e ⟨hnot, hhttp⟩
    refine iff_of_false ?_ hnot
    rintro ⟨-, -, ⟨token, session, hout, -⟩ | ⟨hout, -⟩⟩
    · cases hout
    · exact hhttp _ _ (Except.error.inj hout)

end Proofs

/-- An attempt on an open challenge ends with one session or a 401 and burns the
challenge exactly when the verification of its code cannot raise. -/
theorem challenge_burnt_iff (env : Environment) (db : Database) (challengeToken code : String)
    (challenge : LoginChallenge) (choices : Nat → Choice)
    (hopen : Open env db challengeToken challenge choices)
    (hfresh : ∀ n, Fresh env db (choices n)) :
    Burnt env db challenge (attempt env db challengeToken code choices) ↔
      Verifiable env db code challenge.userId := by
  have hstored : challenge ∈ db.accounts.challenges := List.mem_of_find?_eq_some hopen.stored
  unfold attempt
  rw [eval_loginTotp hopen]
  refine eval_of_ensuresIf (ensures_secondStep hstored rfl) _ ?_
  exact evalMeets_of_choices (fun n => hfresh (n + 4)) _ _ _

open SingleUse (environment enrolled tick)

/-- The first challenge of the enrolled user. -/
def premier : LoginChallenge := ⟨1, 7, "premier", 600000000, none⟩

theorem open_premier :
    Open environment ⟨enrolled, []⟩ "premier" premier fun _ => tick "jeton" where
  stored := by decide
  unconsumed := rfl
  unexpired := by decide

theorem premier_burnt :
    Burnt environment ⟨enrolled, []⟩ premier
      (attempt environment ⟨enrolled, []⟩ "premier" "111111" fun _ => tick "jeton") := by
  refine (challenge_burnt_iff environment ⟨enrolled, []⟩ "premier" "111111" premier _ open_premier
    fun _ session hsession => nomatch hsession).mpr ?_
  rintro credentials ⟨⟩ -
  exact ⟨by decide, "secret", rfl⟩

/-- `compare_digest` raises on the code: the request ends in a `TypeError` and the
challenge can be used again. -/
theorem accented_code_spares_premier :
    Open environment ⟨enrolled, []⟩ "premier" premier (fun _ => tick "jeton") ∧
      "éééééé".length = 6 ∧
      attempt environment ⟨enrolled, []⟩ "premier" "éééééé" (fun _ => tick "jeton") =
        (⟨enrolled, []⟩, .error .typeError) ∧
      ¬ Burnt environment ⟨enrolled, []⟩ premier
        (attempt environment ⟨enrolled, []⟩ "premier" "éééééé" fun _ => tick "jeton") := by
  have hraised : attempt environment ⟨enrolled, []⟩ "premier" "éééééé" (fun _ => tick "jeton") =
      (⟨enrolled, []⟩, .error .typeError) := by decide +kernel
  refine ⟨open_premier, by decide, hraised, ?_⟩
  rw [hraised]
  rintro ⟨-, -, ⟨token, session, hout, -⟩ | ⟨hout, -⟩⟩
  · cases hout
  · cases hout

end Socle.BurntChallenges
