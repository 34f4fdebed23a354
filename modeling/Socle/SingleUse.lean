import Socle.SecondFactor

/-!
How often a challenge, a TOTP time step or a recovery code can lead to a
session when logins overlap.
-/

namespace Socle.SingleUse

open Socle.GuardedRuns
open Socle.Procedures
open Socle.SecondFactor

/-- What a login spends. -/
inductive Factor where
  | challenge (id : Nat)
  | counter (userId : Nat) (counter : Int)
  | recovery (id : Nat)
  deriving DecidableEq

def factor : Change → Option Factor
  | .setConsumed challengeId _ => some (.challenge challengeId)
  | .setLastCounter userId counter => some (.counter userId counter)
  | .setUsed recoveryCodeId _ => some (.recovery recoveryCodeId)
  | .addSession _ => none

def isAddSession : Change → Bool
  | .addSession _ => true
  | _ => false

def spends (f : Factor) (transaction : List Change) : Bool :=
  transaction.any fun change => factor change == some f

/-- The sessions created by the transactions that spend `f`. -/
def sessionsFrom (f : Factor) (log : List (List Change)) : Nat :=
  (log.filter (spends f)).flatten.countP isAddSession

/-- Requests that have just arrived. -/
def arrived (env : Environment) (accounts : Accounts) (requests : List (String × String)) :
    Pool LoginInterface Failure Database Session String :=
  ⟨⟨accounts, []⟩, requests.map fun r => ({}, loginTotp env r.1 r.2)⟩

/-- The row of the factor says that it is spent. -/
def Spent (a : Accounts) : Factor → Prop
  | .challenge id => ∀ c ∈ a.challenges, c.id = id → c.consumedAt ≠ none
  | .counter userId counter => ∀ c ∈ a.credentials, c.userId = userId →
      ∃ last, c.totpLastCounter = some last ∧ counter ≤ last
  | .recovery id => ∀ r ∈ a.recoveryCodes, r.id = id → r.usedAt ≠ none

/-- The change does not move the last counter below that of the factor. -/
def NotBelow (f : Factor) (change : Change) : Prop :=
  ∀ userId k k', change = .setLastCounter userId k' → f = .counter userId k → k ≤ k'

theorem mem_map_if {α : Type} {rows : List α} {p : α → Prop} [DecidablePred p] {edit : α → α}
    {row : α} (hrow : row ∈ rows.map fun x => if p x then edit x else x) :
    (∃ x ∈ rows, p x ∧ row = edit x) ∨ row ∈ rows ∧ ¬ p row := by
  obtain ⟨x, hx, rfl⟩ := List.mem_map.mp hrow
  by_cases hp : p x
  · exact .inl ⟨x, hx, hp, by simp [hp]⟩
  · exact .inr (by simpa [hp] using hx)

theorem spent_apply {a a' : Accounts} {change : Change} (happly : a.apply change = some a')
    {f : Factor} (hbelow : NotBelow f change) (hspent : factor change = some f ∨ Spent a f) :
    Spent a' f := by
  cases change with
  | setConsumed challengeId consumedAt =>
      simp only [Accounts.apply] at happly
      split at happly
      · cases happly
        cases f with
        | challenge id =>
            intro c hc hid
            rcases mem_map_if hc with ⟨x, -, -, rfl⟩ | ⟨hc, hother⟩
            · simp
            · rcases hspent with hfactor | hspent
              · simp only [factor, Option.some.injEq, Factor.challenge.injEq] at hfactor
                exact absurd (hid.trans hfactor.symm) hother
              · exact hspent c hc hid
        | counter userId k => exact hspent.resolve_left (by simp [factor])
        | recovery id => exact hspent.resolve_left (by simp [factor])
      · cases happly
  | setLastCounter userId k =>
      simp only [Accounts.apply] at happly
      split at happly
      · cases happly
        cases f with
        | challenge id => exact hspent.resolve_left (by simp [factor])
        | counter userId' k' =>
            intro c hc hid
            rcases mem_map_if hc with ⟨x, -, hx, rfl⟩ | ⟨hc, hother⟩
            · have huser : userId = userId' := hx.symm.trans hid
              exact ⟨k, rfl, hbelow userId k' k rfl (by rw [huser])⟩
            · rcases hspent with hfactor | hspent
              · simp only [factor, Option.some.injEq, Factor.counter.injEq] at hfactor
                exact absurd (hid.trans hfactor.1.symm) hother
              · exact hspent c hc hid
        | recovery id => exact hspent.resolve_left (by simp [factor])
      · cases happly
  | setUsed recoveryCodeId usedAt =>
      simp only [Accounts.apply] at happly
      split at happly
      · cases happly
        cases f with
        | challenge id => exact hspent.resolve_left (by simp [factor])
        | counter userId k => exact hspent.resolve_left (by simp [factor])
        | recovery id =>
            intro r hr hid
            rcases mem_map_if hr with ⟨x, -, -, rfl⟩ | ⟨hr, hother⟩
            · simp
            · rcases hspent with hfactor | hspent
              · simp only [factor, Option.some.injEq, Factor.recovery.injEq] at hfactor
                exact absurd (hid.trans hfactor.symm) hother
              · exact hspent r hr hid
      · cases happly
  | addSession session =>
      simp only [Accounts.apply] at happly
      split at happly
      · cases happly
      · cases happly
        have hold := hspent.resolve_left (by simp [factor])
        cases f <;> exact hold

theorem spent_applyAll {changes : List Change} {a a' : Accounts}
    (happly : a.applyAll changes = some a') {f : Factor}
    (hbelow : ∀ change ∈ changes, NotBelow f change)
    (hspent : spends f changes = true ∨ Spent a f) : Spent a' f := by
  induction changes generalizing a with
  | nil =>
      have : a = a' := by simpa [Accounts.applyAll] using happly
      exact this ▸ hspent.resolve_left (by simp [spends])
  | cons change rest ih =>
      simp only [Accounts.applyAll, List.foldlM_cons] at happly
      obtain ⟨a₁, hfirst, hrest⟩ := Option.bind_eq_some_iff.mp happly
      have hone : spends f rest = true ∨ factor change = some f ∨ Spent a f := by
        rcases hspent with hspends | hspent
        · simp only [spends, List.any_cons, Bool.or_eq_true, beq_iff_eq] at hspends
          tauto
        · exact .inr (.inr hspent)
      refine ih hrest (fun c hc => hbelow c (List.mem_cons_of_mem _ hc)) ?_
      exact hone.imp_right (spent_apply hfirst (hbelow change List.mem_cons_self))

/-- The session a change creates. -/
def createdSession : Change → Option AuthSession
  | .addSession session => some session
  | _ => none

theorem sessions_applyAll {changes : List Change} {a a' : Accounts}
    (happly : a.applyAll changes = some a') :
    a'.sessions = a.sessions ++ changes.filterMap createdSession := by
  induction changes generalizing a with
  | nil =>
      have : a = a' := by simpa [Accounts.applyAll] using happly
      simp [this]
  | cons change rest ih =>
      simp only [Accounts.applyAll, List.foldlM_cons] at happly
      obtain ⟨a₁, hfirst, hrest⟩ := Option.bind_eq_some_iff.mp happly
      have hone : a₁.sessions = a.sessions ++ (createdSession change).toList := by
        cases change <;> simp only [Accounts.apply] at hfirst <;> split at hfirst <;>
          cases hfirst <;> simp [createdSession]
      rw [ih hrest, hone]
      cases hcreated : createdSession change <;> simp [hcreated]

/-- The change spends a factor that the session has read as unspent. -/
def Backed (l : Session) : Change → Prop
  | .setConsumed challengeId _ =>
      ∃ x, l.challenge = some x ∧ x.row.id = challengeId ∧ x.row.consumedAt = none
  | .setLastCounter userId counter =>
      ∃ x, l.credentials = some x ∧ x.row.userId = userId ∧
        ∀ last, x.row.totpLastCounter = some last → last < counter
  | .setUsed recoveryCodeId _ =>
      ∃ x, l.recovery = some x ∧ x.row.id = recoveryCodeId ∧ x.row.usedAt = none
  | .addSession _ => False

/-- What is pending at the commit of a login: nothing, a consumed challenge, or
a consumed challenge with a spent second factor and a session. -/
inductive Pending (l : Session) : Prop where
  | nothing (h : l.pending = [])
  | refused (id : Nat) (now : Int) (h : l.pending = [.setConsumed id now])
      (hchallenge : Backed l (.setConsumed id now))
  | accepted (id : Nat) (now : Int) (second : Change) (session : AuthSession)
      (h : l.pending = [.setConsumed id now, second, .addSession session])
      (hchallenge : Backed l (.setConsumed id now)) (hsecond : Backed l second)
      (hkind : ∀ id now, second ≠ .setConsumed id now)

def allowed (l : Session) : Request → Prop
  | .commit => Pending l
  | _ => True

/-- The challenge is consumed, and nothing else is pending. -/
def Consumed (l : Session) : Prop :=
  ∃ id now, l.pending = [.setConsumed id now] ∧ Backed l (.setConsumed id now)

/-- The second factor is spent as well. -/
def Verified (l : Session) : Prop :=
  ∃ id now second, l.pending = [.setConsumed id now, second] ∧
    Backed l (.setConsumed id now) ∧ Backed l second ∧ ∀ id now, second ≠ .setConsumed id now

theorem Consumed.pending {l : Session} (h : Consumed l) : Pending l := by
  obtain ⟨id, now, hpending, hbacked⟩ := h
  exact .refused id now hpending hbacked

theorem follows_consumeLoginChallenge (env : Environment) (token : String) :
    Follows serve allowed
      (fun l out => (out = .ok none → l.pending = []) ∧
        ∀ userId, out = .ok (some userId) → Consumed l)
      {} (consumeLoginChallenge env token) := by
  refine follows_request_bind.mpr ⟨trivial, fun db c => ?_⟩
  simp only [serve]
  cases hrow : db.accounts.challenges.find? fun c => c.tokenHash == env.hashToken token with
  | none => simp [Follows]
  | some challenge =>
      refine follows_request_bind.mpr ⟨trivial, fun db' c' => ?_⟩
      split
      · simp [Follows, serve]
      · rename_i hvalid
        refine follows_request_bind.mpr ⟨trivial, fun db₂ c₂ => ?_⟩
        refine follows_request_bind.mpr ⟨trivial, fun db₃ c₃ => ⟨by simp, ?_⟩⟩
        intro userId _
        refine ⟨_, _, rfl, _, rfl, rfl, ?_⟩
        simpa using fun h : challenge.consumedAt.isSome = true => hvalid (.inl h)

theorem follows_verifyTotpCode (env : Environment) {l : Session} (hl : Consumed l)
    {x : Read UserCredentials} (hx : l.credentials = some x) (code : String) :
    Follows serve allowed
      (fun l out => (out = .ok false → Consumed l) ∧ (out = .ok true → Verified l)) l
      (verifyTotpCode env x.row code) := by
  unfold verifyTotpCode
  cases decryptTotpSecret env x.row with
  | error e => simp [Proc.ofExcept, Follows]
  | ok secret =>
      refine follows_request_bind.mpr ⟨trivial, fun db c => ?_⟩
      simp only [serve]
      cases matchingCounter env secret code c.now with
      | error e => simp [Proc.ofExcept, Follows]
      | ok found =>
          cases found with
          | none => simp [Proc.ofExcept, Follows, hl]
          | some counter =>
              simp only [Proc.ofExcept, Proc.ret_bind]
              split
              · simp [Follows, hl]
              · rename_i hfresh
                obtain ⟨id, now, hpending, hchallenge⟩ := hl
                refine follows_request_bind.mpr ⟨trivial, fun db' c' => ⟨by simp, fun _ => ?_⟩⟩
                refine ⟨id, now, .setLastCounter x.row.userId counter, by simp [serve, hpending],
                  hchallenge, ⟨x, hx, rfl, ?_⟩, by simp⟩
                intro last hlast
                simpa [hlast] using hfresh

theorem follows_verifySecondFactor (env : Environment) {l : Session} (hl : Consumed l)
    (userId : Nat) (code : String) :
    Follows serve allowed
      (fun l out => (out = .ok false → Consumed l) ∧ (out = .ok true → Verified l)) l
      (verifySecondFactor env userId code) := by
  refine follows_request_bind.mpr ⟨trivial, fun db c => ?_⟩
  simp only [serve]
  cases hrow : db.accounts.credentials.find? fun c => c.userId == userId with
  | none =>
      obtain ⟨id, now, hpending, hchallenge⟩ := hl
      exact ⟨fun _ => ⟨id, now, hpending, hchallenge⟩, by simp⟩
  | some credentials =>
      have hl' : Consumed { l with credentials := some ⟨credentials, db.log.length⟩ } := hl
      dsimp only [Option.map_some]
      split
      · exact ⟨fun _ => hl', by simp⟩
      refine follows_bind (follows_verifyTotpCode env hl' rfl code) ?_ (by simp)
      rintro l (_ | _) ⟨hfalse, htrue⟩
      · have hconsumed := hfalse rfl
        refine follows_request_bind.mpr ⟨trivial, fun db' c' => ?_⟩
        simp only [serve]
        cases hcode : db'.accounts.recoveryCodes.find? fun r =>
          r.userId == userId && r.codeHash == env.hashToken code && r.usedAt.isNone with
        | none =>
            obtain ⟨id, now, hpending, hchallenge⟩ := hconsumed
            exact ⟨fun _ => ⟨id, now, hpending, hchallenge⟩, by simp⟩
        | some recovery =>
            obtain ⟨id, now, hpending, hchallenge⟩ := hconsumed
            have hunused := List.find?_some hcode
            simp only [Bool.and_eq_true, Option.isNone_iff_eq_none] at hunused
            refine follows_request_bind.mpr ⟨trivial, fun db₂ c₂ => ?_⟩
            refine follows_request_bind.mpr ⟨trivial, fun db₃ c₃ => ⟨by simp, fun _ => ?_⟩⟩
            exact ⟨id, now, .setUsed recovery.id c₂.now, by simp [serve, hpending],
              hchallenge, ⟨_, rfl, rfl, hunused.2⟩, by simp⟩
      · exact ⟨by simp, fun _ => htrue rfl⟩

theorem follows_createSession (env : Environment) {l : Session} (hl : Verified l)
    (userId : Nat) :
    Follows serve allowed (fun l out => ∀ token, out = .ok token → Pending l) l
      (createSession env userId) := by
  obtain ⟨id, now, second, hpending, hchallenge, hsecond, hkind⟩ := hl
  refine ⟨trivial, fun db c => ⟨trivial, fun db' c' => ⟨trivial, fun db₂ c₂ token _ => ?_⟩⟩⟩
  refine .accepted id now second
    ⟨userId, env.hashToken c.token, c'.now + env.sessionTtlHours * 3600000000⟩
    ?_ hchallenge hsecond hkind
  simp [serve, hpending]

theorem follows_commit {l : Session} (hl : Pending l) :
    Follows serve allowed (fun _ _ => True) l commit := by
  refine follows_request_bind.mpr ⟨hl, fun db c => ?_⟩
  split <;> trivial

theorem follows_loginTotp (env : Environment) (challengeToken code : String) :
    Follows serve allowed (fun _ _ => True) {} (loginTotp env challengeToken code) := by
  have haccepted : Follows serve allowed
      (fun l out => (out = .ok none → Pending l) ∧
        ∀ userId, out = .ok (some userId) → Verified l)
      {} (acceptedUser env challengeToken code) := by
    refine follows_bind (follows_consumeLoginChallenge env challengeToken) ?_ (by simp)
    rintro l (_ | userId) ⟨hnone, hsome⟩
    · exact ⟨fun _ => .nothing (hnone rfl), by simp⟩
    · refine follows_bind (follows_verifySecondFactor env (hsome userId rfl) userId code) ?_
        (by simp)
      rintro l (_ | _) ⟨hfalse, htrue⟩
      · exact ⟨fun _ => (hfalse rfl).pending, by simp⟩
      · exact ⟨by simp, fun _ _ => htrue rfl⟩
  refine follows_bind haccepted ?_ (by simp)
  rintro l (_ | userId) ⟨hnone, hsome⟩
  · exact follows_bind (follows_commit (hnone rfl)) (fun _ _ _ => trivial) (by simp)
  · refine follows_bind (follows_createSession env (hsome userId rfl) userId) ?_ (by simp)
    intro l token hl
    exact follows_bind (follows_commit (hl token rfl)) (fun _ _ _ => trivial) (by simp)

theorem disciplined_arrived (env : Environment) (accounts : Accounts)
    (requests : List (String × String)) :
    Disciplined serve allowed (arrived env accounts requests) := by
  intro thread hmem
  obtain ⟨r, -, rfl⟩ := List.mem_map.mp hmem
  exact follows_loginTotp env r.1 r.2

/-! ### Reads and the log -/

/-- What was spent before a read is spent in the row that was read. -/
structure Dated (log : List (List Change)) (l : Session) : Prop where
  challenge : ∀ x, l.challenge = some x → x.row.consumedAt = none →
    ∀ transaction ∈ log.take x.mark, spends (.challenge x.row.id) transaction = false
  credentials : ∀ x, l.credentials = some x →
    ∀ transaction ∈ log.take x.mark, ∀ k,
      spends (.counter x.row.userId k) transaction = true →
        ∃ last, x.row.totpLastCounter = some last ∧ k ≤ last
  recovery : ∀ x, l.recovery = some x → x.row.usedAt = none →
    ∀ transaction ∈ log.take x.mark, spends (.recovery x.row.id) transaction = false
  marks : (∀ x, l.challenge = some x → x.mark ≤ log.length) ∧
    (∀ x, l.credentials = some x → x.mark ≤ log.length) ∧
    ∀ x, l.recovery = some x → x.mark ≤ log.length

/-- The log accounts for the sessions that were not there at the start, no
factor has led to two of them, what has been spent is marked as such, and the
reads of every session are dated. -/
structure Consistent (start : List AuthSession) (db : Database) (sessions : List Session) :
    Prop where
  logged : db.accounts.sessions = start ++ db.log.flatten.filterMap createdSession
  once : ∀ f, sessionsFrom f db.log ≤ 1
  spent : ∀ f, ∀ transaction ∈ db.log, spends f transaction = true → Spent db.accounts f
  dated : ∀ l ∈ sessions, Dated db.log l

variable {start : List AuthSession}

/-- What the transactions committed since the read leave room for. -/
def Outruns (since : List (List Change)) : Change → Prop
  | .setConsumed challengeId _ => ∀ transaction ∈ since,
      transaction.any isAddSession = true → spends (.challenge challengeId) transaction = false
  | .setLastCounter userId counter => ∀ transaction ∈ since, ∀ change ∈ transaction,
      match change with
      | .setLastCounter userId' counter' => userId' = userId → counter' < counter
      | _ => True
  | .setUsed recoveryCodeId _ => ∀ transaction ∈ since,
      spends (.recovery recoveryCodeId) transaction = false
  | .addSession _ => True

instance (since : List (List Change)) (change : Change) : Decidable (Outruns since change) := by
  unfold Outruns
  split
  · infer_instance
  · have (userId : Nat) (counter : Int) (change : Change) :
        Decidable (match change with
          | .setLastCounter userId' counter' => userId' = userId → counter' < counter
          | _ => True) := by
      split <;> infer_instance
    infer_instance
  · infer_instance
  · infer_instance

/-- When the row behind a change was read. -/
def readMark (l : Session) : Change → Nat
  | .setConsumed .. => (l.challenge.map Read.mark).getD 0
  | .setLastCounter .. => (l.credentials.map Read.mark).getD 0
  | .setUsed .. => (l.recovery.map Read.mark).getD 0
  | .addSession _ => 0

/-- The side condition on a step: a commit that creates a session spends its
factors before any other session has come from them since they were read. -/
def spendsFirst (db : Database) (sessions : List Session) (i : Nat) : Request → Prop
  | .commit => ∀ l ∈ sessions[i]?, l.pending.any isAddSession = true →
      ∀ change ∈ l.pending, Outruns (db.log.drop (readMark l change)) change
  | _ => True

instance (db : Database) (sessions : List Session) (i : Nat) (r : Request) :
    Decidable (spendsFirst db sessions i r) := by
  unfold spendsFirst
  split <;> infer_instance

theorem Dated.append {log : List (List Change)} {l : Session} (h : Dated log l)
    (transactions : List (List Change)) : Dated (log ++ transactions) l := by
  obtain ⟨hc, hk, hr⟩ := h.marks
  refine ⟨?_, ?_, ?_, ?_, ?_, ?_⟩
  · intro x hx
    rw [List.take_append_of_le_length (hc x hx)]
    exact h.challenge x hx
  · intro x hx
    rw [List.take_append_of_le_length (hk x hx)]
    exact h.credentials x hx
  · intro x hx
    rw [List.take_append_of_le_length (hr x hx)]
    exact h.recovery x hx
  · intro x hx
    exact Nat.le_trans (hc x hx) (by simp)
  · intro x hx
    exact Nat.le_trans (hk x hx) (by simp)
  · intro x hx
    exact Nat.le_trans (hr x hx) (by simp)

theorem Consistent.unspent {db : Database} {sessions : List Session} (h : Consistent start db sessions)
    {f : Factor} (hf : ¬ Spent db.accounts f) {transaction : List Change}
    (hmem : transaction ∈ db.log) : spends f transaction = false := by
  by_contra hspends
  exact hf (h.spent f transaction hmem (by simpa using hspends))

theorem dated_serve {db : Database} {l : Session} {sessions : List Session}
    (h : Consistent start db sessions) (hl : Dated db.log l) (r : Request) (c : Choice) :
    Dated db.log (serve db l r c).2.1 := by
  obtain ⟨hchallenge, hcredentials, hrecovery, hc, hk, hr⟩ := hl
  cases r with
  | selectChallenge tokenHash =>
      refine ⟨?_, hcredentials, hrecovery, ?_, hk, hr⟩
      · intro x hx hnone transaction htransaction
        obtain ⟨row, hrow, rfl⟩ := Option.map_eq_some_iff.mp hx
        rw [List.take_length] at htransaction
        refine h.unspent (fun hspent => ?_) htransaction
        exact hspent row (List.mem_of_find?_eq_some hrow) rfl hnone
      · intro x hx
        obtain ⟨row, -, rfl⟩ := Option.map_eq_some_iff.mp hx
        exact Nat.le_refl _
  | getCredentials userId =>
      refine ⟨hchallenge, ?_, hrecovery, hc, ?_, hr⟩
      · intro x hx transaction htransaction k hspends
        obtain ⟨row, hrow, rfl⟩ := Option.map_eq_some_iff.mp hx
        rw [List.take_length] at htransaction
        exact h.spent _ transaction htransaction hspends row (List.mem_of_find?_eq_some hrow) rfl
      · intro x hx
        obtain ⟨row, -, rfl⟩ := Option.map_eq_some_iff.mp hx
        exact Nat.le_refl _
  | selectRecoveryCode userId codeHash =>
      refine ⟨hchallenge, hcredentials, ?_, hc, hk, ?_⟩
      · intro x hx hnone transaction htransaction
        obtain ⟨row, hrow, rfl⟩ := Option.map_eq_some_iff.mp hx
        rw [List.take_length] at htransaction
        refine h.unspent (fun hspent => ?_) htransaction
        exact hspent row (List.mem_of_find?_eq_some hrow) rfl hnone
      · intro x hx
        obtain ⟨row, -, rfl⟩ := Option.map_eq_some_iff.mp hx
        exact Nat.le_refl _
  | _ => exact ⟨hchallenge, hcredentials, hrecovery, hc, hk, hr⟩

theorem mem_take_or_mem_drop {α : Type} {xs : List α} {x : α} (n : Nat) (h : x ∈ xs) :
    x ∈ xs.take n ∨ x ∈ xs.drop n := by
  rw [← List.take_append_drop n xs] at h
  exact List.mem_append.mp h

theorem exists_of_spends {f : Factor} {transaction : List Change}
    (h : spends f transaction = true) : ∃ change ∈ transaction, factor change = some f := by
  simpa [spends] using h

theorem counter_lt_of_outruns {log : List (List Change)} {l : Session} {userId : Nat}
    {counter : Int} (hdated : Dated log l) (hbacked : Backed l (.setLastCounter userId counter))
    (hout : Outruns (log.drop (readMark l (.setLastCounter userId counter)))
      (.setLastCounter userId counter))
    {transaction : List Change} (hmem : transaction ∈ log) {k : Int}
    (hspends : spends (.counter userId k) transaction = true) : k < counter := by
  obtain ⟨x, hx, rfl, hlast⟩ := hbacked
  have hmark : readMark l (.setLastCounter x.row.userId counter) = x.mark := by
    simp [readMark, hx]
  rw [hmark] at hout
  rcases mem_take_or_mem_drop x.mark hmem with htake | hdrop
  · obtain ⟨last, hlast', hle⟩ := hdated.credentials x hx transaction htake k hspends
    have := hlast last hlast'
    omega
  · obtain ⟨change, hchange, hfactor⟩ := exists_of_spends hspends
    have hlt := hout transaction hdrop change hchange
    cases change with
    | setLastCounter userId' k' =>
        simp only [factor, Option.some.injEq, Factor.counter.injEq] at hfactor
        rw [← hfactor.2]
        exact hlt hfactor.1
    | _ => simp [factor] at hfactor

theorem unspent_of_outruns {log : List (List Change)} {l : Session} {change : Change}
    {f : Factor} (hdated : Dated log l) (hbacked : Backed l change)
    (hout : Outruns (log.drop (readMark l change)) change) (hf : factor change = some f)
    {transaction : List Change} (hmem : transaction ∈ log)
    (hsession : transaction.any isAddSession = true) : spends f transaction = false := by
  cases change with
  | setConsumed id now =>
      cases hf
      obtain ⟨x, hx, rfl, hnone⟩ := hbacked
      have hmark : readMark l (.setConsumed x.row.id now) = x.mark := by simp [readMark, hx]
      rw [hmark] at hout
      rcases mem_take_or_mem_drop x.mark hmem with htake | hdrop
      · exact hdated.challenge x hx hnone transaction htake
      · exact hout transaction hdrop hsession
  | setLastCounter userId counter =>
      cases hf
      by_contra hspends
      have hlt := counter_lt_of_outruns hdated hbacked hout hmem (by simpa using hspends)
      exact absurd hlt (Int.lt_irrefl _)
  | setUsed id now =>
      cases hf
      obtain ⟨x, hx, rfl, hnone⟩ := hbacked
      have hmark : readMark l (.setUsed x.row.id now) = x.mark := by simp [readMark, hx]
      rw [hmark] at hout
      rcases mem_take_or_mem_drop x.mark hmem with htake | hdrop
      · exact hdated.recovery x hx hnone transaction htake
      · exact hout transaction hdrop
  | addSession session => cases hf

theorem sessionsFrom_append (f : Factor) (log : List (List Change)) (transaction : List Change) :
    sessionsFrom f (log ++ [transaction]) =
      sessionsFrom f log + if spends f transaction then transaction.countP isAddSession else 0 := by
  by_cases h : spends f transaction <;> simp [sessionsFrom, h]

theorem sessionsFrom_eq_zero {f : Factor} {log : List (List Change)}
    (h : ∀ transaction ∈ log, transaction.any isAddSession = true →
      spends f transaction = false) : sessionsFrom f log = 0 := by
  rw [sessionsFrom, List.countP_eq_zero]
  intro change hchange hsession
  obtain ⟨transaction, hfilter, hmem⟩ := List.mem_flatten.mp hchange
  obtain ⟨htransaction, hspends⟩ := List.mem_filter.mp hfilter
  rw [h transaction htransaction (List.any_eq_true.mpr ⟨change, hmem, hsession⟩)] at hspends
  cases hspends

theorem once_commit {db : Database} {sessions : List Session} (h : Consistent start db sessions)
    {l : Session} (hl : l ∈ sessions) (hpending : Pending l)
    (hfirst : l.pending.any isAddSession = true →
      ∀ change ∈ l.pending, Outruns (db.log.drop (readMark l change)) change) (f : Factor) :
    sessionsFrom f (db.log ++ [l.pending]) ≤ 1 := by
  rw [sessionsFrom_append]
  have honce := h.once f
  cases hpending with
  | nothing hempty => simpa [hempty, spends] using honce
  | refused id now hpending => simpa [hpending, isAddSession] using honce
  | accepted id now second session hpending hchallenge hsecond hkind =>
      by_cases hspends : spends f l.pending = true
      · rw [hpending] at hfirst hspends
        have hout := hfirst (by simp [isAddSession])
        -- The factor is the challenge or the second factor; neither has led to a session.
        have hzero : sessionsFrom f db.log = 0 := by
          refine sessionsFrom_eq_zero fun transaction hmem hsession => ?_
          obtain ⟨change, hchange, hfactor⟩ := exists_of_spends hspends
          simp only [List.mem_cons, List.not_mem_nil, or_false] at hchange
          rcases hchange with rfl | rfl | rfl
          · exact unspent_of_outruns (h.dated l hl) hchallenge (hout _ (by simp)) hfactor hmem
              hsession
          · exact unspent_of_outruns (h.dated l hl) hsecond (hout _ (by simp)) hfactor hmem
              hsession
          · cases hfactor
        have hone : l.pending.countP isAddSession = 1 := by
          rw [hpending]
          cases second with
          | addSession session => cases hsecond
          | _ => rfl
        rw [hzero, hone]
        split <;> simp
      · simpa [hspends] using honce

theorem notBelow_commit {db : Database} {sessions : List Session} (h : Consistent start db sessions)
    {l : Session} (hl : l ∈ sessions) (hpending : Pending l)
    (hfirst : l.pending.any isAddSession = true →
      ∀ change ∈ l.pending, Outruns (db.log.drop (readMark l change)) change) {f : Factor}
    {transaction : List Change} (hmem : transaction ∈ db.log ++ [l.pending])
    (hspends : spends f transaction = true) :
    ∀ change ∈ l.pending, NotBelow f change := by
  rintro change hchange userId k k' rfl rfl
  cases hpending with
  | nothing hempty => simp [hempty] at hchange
  | refused id now hpending => simp [hpending] at hchange
  | accepted id now second session hpending hchallenge hsecond hkind =>
      rw [hpending] at hfirst hchange hmem
      simp only [List.mem_cons, List.not_mem_nil, or_false, reduceCtorEq, false_or] at hchange
      subst hchange
      rcases List.mem_append.mp hmem with hold | hnew
      · have hout := hfirst (by simp [isAddSession]) (.setLastCounter userId k') (by simp)
        exact Int.le_of_lt (counter_lt_of_outruns (h.dated l hl) hsecond hout hold hspends)
      · rw [List.mem_singleton.mp hnew] at hspends
        simp only [spends, factor, List.any_cons, List.any_nil, Bool.or_false, Bool.or_eq_true,
          beq_iff_eq, Option.some.injEq, reduceCtorEq, false_or, Factor.counter.injEq,
          or_false] at hspends
        omega

theorem consistent_commit {db : Database} {sessions : List Session} (h : Consistent start db sessions)
    {l : Session} (hl : l ∈ sessions) (hpending : Pending l)
    (hfirst : l.pending.any isAddSession = true →
      ∀ change ∈ l.pending, Outruns (db.log.drop (readMark l change)) change) :
    Consistent start (db.commit l.pending).1 sessions := by
  unfold Database.commit
  split
  · rename_i accounts happly
    refine ⟨?_, once_commit h hl hpending hfirst, ?_, ?_⟩
    · rw [sessions_applyAll happly, h.logged]
      simp
    · intro f transaction hmem hspends
      refine spent_applyAll happly (notBelow_commit h hl hpending hfirst hmem hspends) ?_
      rcases List.mem_append.mp hmem with hold | hnew
      · exact .inr (h.spent f transaction hold hspends)
      · exact .inl (List.mem_singleton.mp hnew ▸ hspends)
    · intro l' hl'
      exact (h.dated l' hl').append _
  · exact h

theorem Consistent.set {db : Database} {sessions : List Session} (h : Consistent start db sessions)
    {i : Nat} {l : Session} (hl : sessions[i]? = some l) (r : Request) (c : Choice) :
    Consistent start db (sessions.set i (serve db l r c).2.1) := by
  refine ⟨h.logged, h.once, h.spent, ?_⟩
  intro l' hl'
  rcases List.mem_or_eq_of_mem_set hl' with hold | rfl
  · exact h.dated l' hold
  · exact dated_serve h (h.dated l (List.mem_of_getElem? hl)) r c

theorem consistent_serve {db : Database} {sessions : List Session} {i : Nat} {l : Session}
    {r : Request} (c : Choice) (h : Consistent start db sessions) (hl : sessions[i]? = some l)
    (hallowed : allowed l r) (hcond : spendsFirst db sessions i r) :
    Consistent start (serve db l r c).1 (sessions.set i (serve db l r c).2.1) := by
  cases r with
  | commit =>
      have hafter := consistent_commit h (List.mem_of_getElem? hl) hallowed (hcond l hl)
      exact hafter.set hl .commit c
  | _ => exact h.set hl _ c

/-- Whatever the interleaving of logins, a challenge, a time step of an
enrolment or a recovery code leads to at most one session as long as every
login that creates one spends its factors first.  The sessions are those of the
log: each row created is in one of its transactions. -/
theorem factors_lead_to_one_session (env : Environment) (accounts : Accounts)
    (requests : List (String × String)) (schedule : List (Nat × Choice))
    (pool : Pool LoginInterface Failure Database Session String)
    (hrun : run (Pool.step serve) (arrived env accounts requests) schedule = some pool)
    (hfirst : Along (Pool.step serve) (StepMeets spendsFirst) (arrived env accounts requests)
      schedule) :
    pool.shared.accounts.sessions =
        accounts.sessions ++ pool.shared.log.flatten.filterMap createdSession ∧
      ∀ f, sessionsFrom f pool.shared.log ≤ 1 := by
  have hinit : Consistent accounts.sessions (arrived env accounts requests).shared
      (arrived env accounts requests).locals := by
    refine ⟨by simp [arrived], by simp [arrived, sessionsFrom], by simp [arrived], ?_⟩
    intro l hl
    simp only [arrived, Pool.locals, List.map_map, List.mem_map] at hl
    obtain ⟨r, -, rfl⟩ := hl
    constructor <;> simp
  have hend := pool_invariant (G := Consistent accounts.sessions)
    (fun _ _ _ _ _ c hG hl hallowed hcond => consistent_serve c hG hl hallowed hcond)
    (disciplined_arrived env accounts requests) hinit hfirst hrun
  exact ⟨hend.logged, hend.once⟩

/-- Codes `111111` at the first time step and `222222` at all others. -/
def environment : Environment where
  hashToken := id
  decrypt := some
  otp _ counter := if counter = 1 then "111111" else "222222"
  sessionTtlHours := 12

/-- A user with TOTP, a recovery code, and two login challenges. -/
def enrolled : Accounts where
  challenges := [⟨1, 7, "premier", 600000000, none⟩, ⟨2, 7, "second", 600000000, none⟩]
  credentials := [⟨7, some "secret", true, none⟩]
  recoveryCodes := [⟨5, 7, "secours-5", none⟩]
  sessions := []

/-- Thirty seconds after the epoch: the first time step. -/
def tick (token : String) : Choice := ⟨30000000, token⟩

/-- The second login runs from end to end, in `steps` steps, before the first
one commits. -/
def overlap (steps : Nat) : List (Nat × Choice) :=
  List.replicate 10 (0, tick "jeton-0") ++ List.replicate steps (1, tick "jeton-1") ++
    [(0, tick "jeton-0")]

/-- The same code is sent with both challenges: two sessions for one time step. -/
theorem one_time_step_leads_to_two_sessions :
    (run (Pool.step serve)
      (arrived environment enrolled [("premier", "111111"), ("second", "111111")])
      (overlap 11)).map
        (fun pool => (sessionsFrom (.counter 7 1) pool.shared.log,
          pool.shared.accounts.sessions.length)) = some (2, 2) := by
  decide +kernel

/-- The same overlap with a recovery code in the second login. -/
theorem factors_lead_to_one_session_in_overlap :
    ∃ pool, run (Pool.step serve)
        (arrived environment enrolled [("premier", "111111"), ("second", "secours-5")])
        (overlap 13) = some pool ∧
      sessionsFrom (.counter 7 1) pool.shared.log ≤ 1 ∧
      sessionsFrom (.recovery 5) pool.shared.log ≤ 1 := by
  obtain ⟨pool, hrun⟩ : ∃ pool, run (Pool.step serve)
      (arrived environment enrolled [("premier", "111111"), ("second", "secours-5")])
      (overlap 13) = some pool := Option.isSome_iff_exists.mp (by decide +kernel)
  have honce := factors_lead_to_one_session environment enrolled
    [("premier", "111111"), ("second", "secours-5")] (overlap 13) pool hrun (by decide +kernel)
  exact ⟨pool, hrun, honce.2 _, honce.2 _⟩

end Socle.SingleUse
