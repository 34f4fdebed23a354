import Mathlib.Tactic.Linarith
import Socle.Throttle

/-!
The attempts of one call and the `Retry-After` headers between them, on the four
paths by which the connectors reach a provider.
-/

namespace Socle.RetryAfter

open Socle.Procedures
open Socle.TokenExchange
open Socle.Throttle

/-! ### The call paths -/

/-- A response with the header that asks for a delay. -/
structure ProviderReply extends Response where
  retryAfter : Option String

/-- What an attempt brings back.  On the SDK paths it is what ends the attempt. -/
inductive Reply where
  | transportError (className : String)
  | response (reply : ProviderReply)

inductive CallPath where
  | providerHttpRequest
  | refreshToken
  | gmail
  | googleCalendar
  deriving DecidableEq

inductive Result where
  | response (reply : ProviderReply)
  | bundle (bundle : TokenBundle)

section Paths

-- `float()` of a text, `none` where it raises a `ValueError`.
variable (float : String → Option Seconds)

/-- `_retry_after_seconds`. -/
def retryAfterSeconds (reply : ProviderReply) : Option Seconds := reply.retryAfter.bind float

/-- The attempt of `provider_http_request`. -/
def httpAttempt : Reply → Except Raised Result
  | .transportError className => .error (.other (.httpError className))
  | .response reply =>
      if retryable reply.statusCode then
        .error (.providerResponse reply.statusCode (retryAfterSeconds float reply))
      else .ok (.response reply)

/-- The exceptions of `_parse_token_response`: a status without a delay. -/
def tokenFailure : Failure → Raised
  | .providerResponse statusCode => .providerResponse statusCode none
  | e => .other e

/-- The attempt of a token refresh. -/
def tokenAttempt (provider : ConnectorProvider) : Reply → Except Raised Result
  | .transportError className => .error (.other (.httpError className))
  | .response reply =>
      match parseTokenResponse provider reply.toResponse with
      | .ok bundle => .ok (.bundle bundle)
      | .error e => .error (tokenFailure e)

/-- The attempt of `_execute`, for Gmail and for Google Calendar: the SDK raises an
`HttpError` for every status from 300 on, of which the status is kept. -/
def sdkAttempt : Reply → Except Raised Result
  | .transportError className => .error (.other (.httpError className))
  | .response reply =>
      if 300 ≤ reply.statusCode then .error (.providerResponse reply.statusCode none)
      else .ok (.response reply)

def convert (provider : ConnectorProvider) : CallPath → Reply → Except Raised Result
  | .providerHttpRequest => httpAttempt float
  | .refreshToken => tokenAttempt provider
  | .gmail => sdkAttempt
  | .googleCalendar => sdkAttempt

/-- The delay in seconds that a 429 or 5xx response asks for. -/
def asks : Reply → Option ℚ
  | .transportError _ => none
  | .response reply =>
      if retryable reply.statusCode then
        match retryAfterSeconds float reply with
        | some (.finite seconds) => some seconds
        | _ => none
      else none

end Paths

/-! ### The attempts of a call -/

structure Attempted where
  started : ℚ
  answered : ℚ
  deriving DecidableEq

structure Timeline where
  now : ℚ := 0
  attempts : List Attempted := []
  deriving DecidableEq

/-- What the environment decides: the counter, which other callers increment as
well, the jitter, and how long each await takes. -/
structure Choice where
  count : Nat := 1
  ttl : Int := 1
  jitter : ℚ := 0
  elapsed : ℚ := 0

structure Choice.Valid (c : Choice) : Prop where
  count : 1 ≤ c.count
  jitter : 0 ≤ c.jitter ∧ c.jitter ≤ 1 / 2
  elapsed : 0 ≤ c.elapsed

/-- The awaits of one call; the attempts are answered by `replies`, in turn. -/
def serve (replies : Nat → Reply) : Serve (Throttling Reply) Timeline Unit Choice :=
  fun t _ r c => match r with
    | .incr => ({ t with now := t.now + c.elapsed }, (), c.count)
    | .expire => ({ t with now := t.now + c.elapsed }, (), ())
    | .ttl => ({ t with now := t.now + c.elapsed }, (), c.ttl)
    | .sleep seconds => ({ t with now := t.now + max seconds 0 + c.elapsed }, (), ())
    | .jitter => ({ t with now := t.now + c.elapsed }, (), c.jitter)
    | .attempt =>
        ({ now := t.now + c.elapsed, attempts := t.attempts ++ [⟨t.now, t.now + c.elapsed⟩] }, (),
          replies t.attempts.length)

/-- An attempt that the loop retries. -/
def Retried (convert : Reply → Except Raised Result) (reply : Reply) : Prop :=
  ∃ statusCode retryAfter, convert reply = .error (.providerResponse statusCode retryAfter) ∧
    retryable statusCode = true

/-- The attempt after a response that asks for `s` seconds starts at least `s`
seconds after it. -/
def Spaced (float : String → Option Seconds) (replies : Nat → Reply) (attempts : List Attempted) :
    Prop :=
  ∀ k a b seconds, attempts[k]? = some a → attempts[k + 1]? = some b →
    asks float (replies k) = some seconds → a.answered + seconds ≤ b.started

/-- The call stops at the first answer that is not retried and ends as that answer
says, and finds the provider unavailable exactly when the first five are retried. -/
structure Ends (convert : Reply → Except Raised Result) (replies : Nat → Reply)
    (attempts : List Attempted) (out : Except Raised Result) : Prop where
  stops : ∀ k < maxAttempts, (∀ j < k, Retried convert (replies j)) →
    ¬ Retried convert (replies k) → attempts.length = k + 1 ∧ out = convert (replies k)
  unavailable : (∃ message, out = .error (.providerUnavailable message)) ↔
    ∀ j < maxAttempts, Retried convert (replies j)

/-! ### The waits -/

/-- The wait that a retry asks for, at the least. -/
def retryWait : Option Seconds → Nat → ℚ
  | none, attemptNo => 2 ^ attemptNo / 2
  | some (.finite seconds), _ => max seconds 0
  | some _, _ => 0

/-- A caller without any budget waits for a second at the least. -/
def budgetWait (requestsPerMinute : Nat) : ℚ := if requestsPerMinute = 0 then 1 else 0

/-- A wait that does not come to an end, or that is refused. -/
def Endless (retryAfter : Option Seconds) : Prop :=
  retryAfter = some .infinite ∨ retryAfter = some .nan

instance (retryAfter : Option Seconds) : Decidable (Endless retryAfter) :=
  inferInstanceAs (Decidable (_ ∨ _))

/-- The choice of an environment that lets no time pass. -/
def prompt : Choice := {}

theorem valid_prompt : prompt.Valid := ⟨le_rfl, ⟨le_rfl, by simp [prompt]⟩, le_rfl⟩

section Waits

-- Whether the environment lets no time pass.
variable {exact : Prop} {replies : Nat → Reply} {t : Timeline}

/-- The choices of the runs considered. -/
def Allowed (exact : Prop) (c : Choice) : Prop := c.Valid ∧ (exact → c = prompt)

/-- From `t` to `t'` there are `seconds`, at the least or exactly. -/
def After (exact : Prop) (seconds t t' : ℚ) : Prop :=
  t + seconds ≤ t' ∧ (exact → t' = t + seconds)

theorem After.trans {a b t₁ t₂ t₃ : ℚ} (h : After exact a t₁ t₂) (h' : After exact b t₂ t₃) :
    After exact (a + b) t₁ t₃ := by
  obtain ⟨hleast, hexact⟩ := h
  obtain ⟨hleast', hexact'⟩ := h'
  refine ⟨by linarith, fun he => ?_⟩
  rw [hexact' he, hexact he, add_assoc]

/-- A wait. -/
def Waited (exact : Prop) (seconds : ℚ) (t t' : Timeline) : Prop :=
  t'.attempts = t.attempts ∧ After exact seconds t.now t'.now

theorem Waited.trans {a b : ℚ} {t₁ t₂ t₃ : Timeline} (h : Waited exact a t₁ t₂)
    (h' : Waited exact b t₂ t₃) : Waited exact (a + b) t₁ t₃ :=
  ⟨h'.1.trans h.1, h.2.trans h'.2⟩

theorem waited_elapsed {c : Choice} (hc : Allowed exact c) {seconds : ℚ} {t t' : Timeline}
    (hattempts : t'.attempts = t.attempts) (hnow : t'.now = t.now + seconds + c.elapsed) :
    Waited exact seconds t t' := by
  refine ⟨hattempts, ?_, fun he => ?_⟩
  · rw [hnow]
    linarith [hc.1.elapsed]
  · rw [hnow, hc.2 he]
    exact add_zero _

theorem waited_zero {c : Choice} (hc : Allowed exact c) {t t' : Timeline}
    (hattempts : t'.attempts = t.attempts) (hnow : t'.now = t.now + c.elapsed) :
    Waited exact 0 t t' :=
  waited_elapsed hc hattempts (by rw [hnow, add_zero])

theorem ensures_awaitRetry {retryAfter : Option Seconds} (hends : ¬ Endless retryAfter)
    (attemptNo : Nat) :
    EnsuresIf (serve replies) (fun _ _ _ c => Allowed exact c)
      (fun t' _ out => out = .ok () ∧ Waited exact (retryWait retryAfter attemptNo) t t') t ()
      (awaitRetry retryAfter attemptNo) := by
  cases retryAfter with
  | none =>
      refine ensuresIf_request_bind.mpr fun c hc c' hc' => ⟨rfl, ?_⟩
      have hjitter : Waited exact 0 t { t with now := t.now + c.elapsed } := waited_zero hc rfl rfl
      refine zero_add (retryWait none attemptNo) ▸ hjitter.trans ⟨rfl, ?_, fun he => ?_⟩
      · show t.now + c.elapsed + 2 ^ attemptNo / 2 ≤
          t.now + c.elapsed + max (2 ^ attemptNo / 2 + c.jitter) 0 + c'.elapsed
        linarith [le_max_left (2 ^ attemptNo / 2 + c.jitter) 0, hc.1.jitter.1, hc'.1.elapsed]
      · show t.now + c.elapsed + max (2 ^ attemptNo / 2 + c.jitter) 0 + c'.elapsed =
          t.now + c.elapsed + 2 ^ attemptNo / 2
        have hpositive : (0 : ℚ) ≤ 2 ^ attemptNo / 2 :=
          div_nonneg (pow_nonneg zero_le_two _) zero_le_two
        rw [hc.2 he, hc'.2 he]
        simp [prompt, hpositive]
  | some seconds =>
      cases seconds with
      | finite seconds => exact fun c hc => ⟨rfl, waited_elapsed hc rfl rfl⟩
      | negInfinite =>
          refine fun c hc => ⟨rfl, waited_elapsed hc rfl ?_⟩
          show t.now + max 0 0 + c.elapsed = t.now + 0 + c.elapsed
          rw [max_self]
      | infinite => exact absurd (.inl rfl) hends
      | nan => exact absurd (.inr rfl) hends

/-- What `_budget_delay` finds: a wait of a second or more, or a free slot. -/
def Budgeted (exact : Prop) (requestsPerMinute : Nat) : Option ℚ → Prop
  | some wait => 1 ≤ wait ∧ (exact → requestsPerMinute = 0 ∧ wait = 1)
  | none => requestsPerMinute ≠ 0

theorem ensures_budgetDelay (requestsPerMinute : Nat) :
    EnsuresIf (serve replies) (fun _ _ _ c => Allowed exact c)
      (fun t' _ out => ∃ wait, out = .ok wait ∧ Waited exact 0 t t' ∧
        Budgeted exact requestsPerMinute wait) t ()
      (budgetDelay requestsPerMinute) := by
  unfold budgetDelay
  refine ensuresIf_request_bind.mpr fun c hc => ?_
  have hcount : Waited exact 0 t (serve replies t () .incr c).1 := waited_zero hc rfl rfl
  have hrest {t₁ : Timeline} (h : Waited exact 0 t t₁) :
      EnsuresIf (serve replies) (fun _ _ _ c => Allowed exact c)
        (fun t' _ out => ∃ wait, out = .ok wait ∧ Waited exact 0 t t' ∧
          Budgeted exact requestsPerMinute wait) t₁ () (do
        if requestsPerMinute < c.count then
          let ttl ← ask (α := Reply) .ttl
          return some ((max ttl 1 : Int) : ℚ)
        return none) := by
    split
    · rename_i hover
      refine fun c' hc' => ⟨_, rfl, add_zero (0 : ℚ) ▸ h.trans (waited_zero hc' rfl rfl), ?_, ?_⟩
      · exact_mod_cast le_max_right c'.ttl 1
      · intro he
        rw [hc.2 he] at hover
        refine ⟨Nat.lt_one_iff.mp hover, ?_⟩
        rw [hc'.2 he]
        rfl
    · rename_i hfree
      refine ⟨none, rfl, h, fun hnone => hfree ?_⟩
      rw [hnone]
      exact hc.1.count
  show EnsuresIf _ _ _ _ _ (if c.count = 1 then _ else _)
  split
  · exact fun c' hc' => hrest (add_zero (0 : ℚ) ▸ hcount.trans (waited_zero hc' rfl rfl))
  · exact hrest hcount

theorem ensures_awaitBudget (requestsPerMinute : Nat) :
    EnsuresIf (serve replies) (fun _ _ _ c => Allowed exact c)
      (fun t' _ out => out = .ok () ∧ Waited exact (budgetWait requestsPerMinute) t t') t ()
      (awaitBudget requestsPerMinute) := by
  refine ensuresIf_bind (ensures_budgetDelay requestsPerMinute) ?_ ?_
  · rintro t₁ - wait ⟨_, ⟨⟩, hwaited, hbudgeted⟩
    cases wait with
    | none =>
        refine ⟨rfl, ?_⟩
        rw [budgetWait, if_neg hbudgeted]
        exact hwaited
    | some wait =>
        obtain ⟨hleast, hexact⟩ := hbudgeted
        refine fun c hc => ⟨rfl, ?_⟩
        refine zero_add (budgetWait requestsPerMinute) ▸ hwaited.trans ⟨rfl, ?_, fun he => ?_⟩
        · show t₁.now + budgetWait requestsPerMinute ≤ t₁.now + max wait 0 + c.elapsed
          have hbudget : budgetWait requestsPerMinute ≤ 1 := by
            unfold budgetWait
            split
            · exact le_rfl
            · exact zero_le_one
          linarith [le_max_left wait 0, hc.1.elapsed]
        · show t₁.now + max wait 0 + c.elapsed = t₁.now + budgetWait requestsPerMinute
          obtain ⟨hnone, hone⟩ := hexact he
          rw [hc.2 he, budgetWait, if_pos hnone, hone]
          simp [prompt]
  · rintro t₁ - e ⟨wait, hout, -⟩
    cases hout

end Waits

section Loop

variable {float : String → Option Seconds} {convert : Reply → Except Raised Result}
variable {replies : Nat → Reply} {requestsPerMinute : Nat} {exact : Prop} {t : Timeline}

/-- The delay that has survived the conversion of an answer. -/
def heeded (convert : Reply → Except Raised Result) (reply : Reply) : Option Seconds :=
  match convert reply with
  | .error (.providerResponse _ retryAfter) => retryAfter
  | _ => none

/-- An attempt that the loop retries after a wait that comes to an end. -/
def Passed (convert : Reply → Except Raised Result) (reply : Reply) : Prop :=
  Retried convert reply ∧ ¬ Endless (heeded convert reply)

/-- The time between an answer and the next attempt, at the least. -/
def gap (convert : Reply → Except Raised Result) (replies : Nat → Reply)
    (requestsPerMinute attemptNo : Nat) : ℚ :=
  retryWait (heeded convert (replies attemptNo)) attemptNo + budgetWait requestsPerMinute

def Gaps (exact : Prop) (convert : Reply → Except Raised Result) (replies : Nat → Reply)
    (requestsPerMinute : Nat) (attempts : List Attempted) : Prop :=
  ∀ k a b, attempts[k]? = some a → attempts[k + 1]? = some b →
    After exact (gap convert replies requestsPerMinute k) a.answered b.started

/-- How the loop ends, with the number of attempts made. -/
inductive Ended (convert : Reply → Except Raised Result) (replies : Nat → Reply) :
    Nat → Except Raised Result → Prop where
  | stopped {m : Nat} (hm : m < maxAttempts) (hpassed : ∀ j < m, Passed convert (replies j))
      (hstops : ¬ Retried convert (replies m)) : Ended convert replies (m + 1) (convert (replies m))
  | unavailable (message : String) (hpassed : ∀ j < maxAttempts, Passed convert (replies j)) :
      Ended convert replies maxAttempts (.error (.providerUnavailable message))
  | hung {m : Nat} {e : Raised} (hm : m < maxAttempts)
      (hpassed : ∀ j < m, Passed convert (replies j)) (hretried : Retried convert (replies m))
      (hendless : Endless (heeded convert (replies m))) (he : e = .asleep ∨ e = .valueError) :
      Ended convert replies (m + 1) (.error e)

/-- What holds at the head of the loop before attempt `attemptNo`. -/
structure Underway (exact : Prop) (convert : Reply → Except Raised Result)
    (replies : Nat → Reply) (requestsPerMinute attemptNo : Nat) (t : Timeline) : Prop where
  length : t.attempts.length = attemptNo
  passed : ∀ j < attemptNo, Passed convert (replies j)
  gaps : Gaps exact convert replies requestsPerMinute t.attempts
  waited : ∀ j a, j + 1 = attemptNo → t.attempts[j]? = some a →
    After exact (retryWait (heeded convert (replies j)) j) a.answered t.now

theorem underway_start (start : ℚ) :
    Underway exact convert replies requestsPerMinute 0 { now := start } where
  length := rfl
  passed _ hj := (Nat.not_lt_zero _ hj).elim
  gaps _ _ _ ha _ := by cases ha
  waited _ _ _ ha := by cases ha

theorem Underway.gaps_attempt {attemptNo : Nat} {t₁ : Timeline} {a : Attempted}
    (h : Underway exact convert replies requestsPerMinute attemptNo t)
    (hwaited : Waited exact (budgetWait requestsPerMinute) t t₁) (ha : a.started = t₁.now) :
    Gaps exact convert replies requestsPerMinute (t₁.attempts ++ [a]) := by
  obtain ⟨hattempts, hafter⟩ := hwaited
  rw [hattempts]
  intro k a₁ a₂ hfirst hnext
  have hk : k < t.attempts.length := by
    have := (List.getElem?_eq_some_iff.mp hnext).1
    rw [List.length_append, List.length_singleton] at this
    omega
  rw [List.getElem?_append_left hk] at hfirst
  rcases Nat.lt_or_ge (k + 1) t.attempts.length with hin | hlast
  · rw [List.getElem?_append_left hin] at hnext
    exact h.gaps k a₁ a₂ hfirst hnext
  · have hlength : k + 1 = t.attempts.length := by omega
    rw [hlength, List.getElem?_concat_length, Option.some_inj] at hnext
    rw [← hnext, ha]
    exact (h.waited k a₁ (hlength.trans h.length) hfirst).trans hafter

theorem ensures_settle {attemptNo : Nat} {rest : Act Reply Result} {a : Attempted}
    (hlt : attemptNo < maxAttempts) (hpassed : ∀ j < attemptNo, Passed convert (replies j))
    (hlength : t.attempts.length = attemptNo + 1) (hlast : t.attempts[attemptNo]? = some a)
    (hnow : a.answered = t.now) (hgaps : Gaps exact convert replies requestsPerMinute t.attempts)
    (hrest : ∀ t', Underway exact convert replies requestsPerMinute (attemptNo + 1) t' →
      EnsuresIf (serve replies) (fun _ _ _ c => Allowed exact c)
        (fun t' _ out => Gaps exact convert replies requestsPerMinute t'.attempts ∧
          Ended convert replies t'.attempts.length out) t' () rest) :
    EnsuresIf (serve replies) (fun _ _ _ c => Allowed exact c)
      (fun t' _ out => Gaps exact convert replies requestsPerMinute t'.attempts ∧
        Ended convert replies t'.attempts.length out) t ()
      (settle attemptNo rest (convert (replies attemptNo))) := by
  have hstopped (hstops : ¬ Retried convert (replies attemptNo)) :
      Ended convert replies t.attempts.length (convert (replies attemptNo)) :=
    hlength ▸ .stopped hlt hpassed hstops
  unfold settle
  split
  · rename_i result hresult
    refine ⟨hgaps, hresult ▸ hstopped ?_⟩
    rintro ⟨_, _, hretried, -⟩
    cases hresult.symm.trans hretried
  · rename_i statusCode retryAfter hresult
    split
    · rename_i hretryable
      have hretried : Retried convert (replies attemptNo) := ⟨_, _, hresult, hretryable⟩
      have hheeded : heeded convert (replies attemptNo) = retryAfter := by
        rw [heeded, hresult]
      by_cases hendless : Endless retryAfter
      · have hhung {e : Raised} (he : e = .asleep ∨ e = .valueError) :
            Ended convert replies t.attempts.length (.error e) :=
          hlength ▸ .hung hlt hpassed hretried (hheeded ▸ hendless) he
        rcases hendless with rfl | rfl
        · exact ⟨hgaps, hhung (.inl rfl)⟩
        · exact ⟨hgaps, hhung (.inr rfl)⟩
      · refine ensuresIf_bind (ensures_awaitRetry hendless attemptNo) ?_ ?_
        · rintro t' ⟨⟩ ⟨⟩ ⟨-, hattempts, hafter⟩
          refine hrest t' ⟨by rw [hattempts, hlength], ?_, hattempts ▸ hgaps, ?_⟩
          · intro j hj
            rcases Nat.lt_succ_iff_lt_or_eq.mp hj with hbefore | rfl
            · exact hpassed j hbefore
            · exact ⟨hretried, hheeded ▸ hendless⟩
          · intro j a' hj ha'
            cases hj
            rw [hattempts, hlast] at ha'
            cases ha'
            rw [hheeded, hnow]
            exact hafter
        · rintro t' - e ⟨hout, -⟩
          cases hout
    · rename_i hfinal
      refine ⟨hgaps, hresult ▸ hstopped ?_⟩
      rintro ⟨_, _, hretried, hretryable⟩
      cases hresult.symm.trans hretried
      exact hfinal hretryable
  · rename_i e hother hresult
    refine ⟨hgaps, hresult ▸ hstopped ?_⟩
    rintro ⟨statusCode, retryAfter, hretried, -⟩
    exact hother statusCode retryAfter (Except.error.inj (hresult.symm.trans hretried))

theorem ensures_retryLoop (provider : ConnectorProvider) {attemptNo remaining : Nat}
    (hattempts : attemptNo + remaining = maxAttempts)
    (h : Underway exact convert replies requestsPerMinute attemptNo t) :
    EnsuresIf (serve replies) (fun _ _ _ c => Allowed exact c)
      (fun t' _ out => Gaps exact convert replies requestsPerMinute t'.attempts ∧
        Ended convert replies t'.attempts.length out) t ()
      (retryLoop provider requestsPerMinute convert attemptNo remaining) := by
  induction remaining generalizing attemptNo t with
  | zero =>
      have hall : attemptNo = maxAttempts := hattempts
      refine ⟨h.gaps, ?_⟩
      rw [h.length, hall]
      exact .unavailable _ (hall ▸ h.passed)
  | succ remaining ih =>
      refine ensuresIf_bind (ensures_awaitBudget requestsPerMinute) ?_ ?_
      · rintro t₁ ⟨⟩ ⟨⟩ ⟨-, hwaited⟩ c hc
        have hlength : t₁.attempts.length = attemptNo := by rw [hwaited.1, h.length]
        show EnsuresIf _ _ _ _ _ (settle attemptNo _ (convert (replies t₁.attempts.length)))
        rw [hlength]
        refine ensures_settle (a := ⟨t₁.now, t₁.now + c.elapsed⟩) (by omega) h.passed ?_ ?_ rfl
          (h.gaps_attempt hwaited rfl) fun t' h' => ih (by omega) h'
        · exact List.length_append.trans (congrArg (· + 1) hlength)
        · exact hlength ▸ List.getElem?_concat_length
      · rintro t₁ - e ⟨hout, -⟩
        cases hout

/-- The call from the time `start` on. -/
def run (provider : ConnectorProvider) (requestsPerMinute : Nat)
    (convert : Reply → Except Raised Result) (replies : Nat → Reply) (start : ℚ)
    (choices : Nat → Choice) : Timeline × Unit × Except Raised Result :=
  eval (serve replies) (runWithBackoff provider requestsPerMinute convert) { now := start } ()
    choices

theorem run_ended (exact : Prop) (provider : ConnectorProvider) (requestsPerMinute : Nat)
    (convert : Reply → Except Raised Result) (replies : Nat → Reply) (start : ℚ)
    {choices : Nat → Choice} (hallowed : ∀ n, Allowed exact (choices n)) :
    Gaps exact convert replies requestsPerMinute
        (run provider requestsPerMinute convert replies start choices).1.attempts ∧
      Ended convert replies
        (run provider requestsPerMinute convert replies start choices).1.attempts.length
        (run provider requestsPerMinute convert replies start choices).2.2 :=
  eval_of_ensuresIf (ensures_retryLoop provider (Nat.zero_add _) (underway_start start)) choices
    (evalMeets_of_choices hallowed _ _ _)

/-- No wait is endless, and between two attempts there is the delay that was asked
for. -/
structure Patient (float : String → Option Seconds) (convert : Reply → Except Raised Result)
    (replies : Nat → Reply) (requestsPerMinute : Nat) : Prop where
  ends : ∀ k < maxAttempts, (∀ j ≤ k, Retried convert (replies j)) →
    ¬ Endless (heeded convert (replies k))
  asked : ∀ k, k + 1 < maxAttempts → (∀ j ≤ k, Retried convert (replies j)) → ∀ seconds,
    asks float (replies k) = some seconds → seconds ≤ gap convert replies requestsPerMinute k

theorem Patient.spaced {attempts : List Attempted} {out : Except Raised Result}
    (h : Patient float convert replies requestsPerMinute)
    (hgaps : Gaps exact convert replies requestsPerMinute attempts)
    (hended : Ended convert replies attempts.length out) : Spaced float replies attempts := by
  intro k a b seconds ha hb hasks
  have hk : k + 1 < attempts.length := (List.getElem?_eq_some_iff.mp hb).1
  have hretried : k + 1 < maxAttempts ∧ ∀ j ≤ k, Retried convert (replies j) := by
    generalize attempts.length = n at hended hk
    cases hended with
    | stopped hm hpassed _ =>
        exact ⟨by omega, fun j hj => (hpassed j (by omega)).1⟩
    | unavailable message hpassed =>
        exact ⟨hk, fun j hj => (hpassed j (by omega)).1⟩
    | hung hm hpassed _ _ _ =>
        exact ⟨by omega, fun j hj => (hpassed j (by omega)).1⟩
  linarith [(hgaps k a b ha hb).1, h.asked k hretried.1 hretried.2 seconds hasks]

theorem Patient.ends_of_ended {attempts : List Attempted} {out : Except Raised Result}
    (h : Patient float convert replies requestsPerMinute)
    (hconvert : ∀ reply message, convert reply ≠ .error (.providerUnavailable message))
    (hended : Ended convert replies attempts.length out) :
    Ends convert replies attempts out := by
  generalize hlength : attempts.length = n at hended
  cases hended with
  | @stopped m hm hpassed hstops =>
      refine ⟨fun k hk hbefore hfinal => ?_, ?_, fun hall => absurd (hall m hm) hstops⟩
      · rcases Nat.lt_trichotomy k m with hlt | rfl | hgt
        · exact absurd (hpassed k hlt).1 hfinal
        · exact ⟨hlength, rfl⟩
        · exact absurd (hbefore m hgt) hstops
      · rintro ⟨message, hout⟩
        exact absurd hout (hconvert _ message)
  | unavailable message hpassed =>
      refine ⟨fun k hk _ hfinal => absurd (hpassed k hk).1 hfinal, fun _ j hj => (hpassed j hj).1,
        fun _ => ⟨message, rfl⟩⟩
  | @hung m e hm hpassed hretried hendless _ =>
      refine absurd hendless (h.ends m hm fun j hj => ?_)
      rcases Nat.lt_or_eq_of_le hj with hlt | rfl
      · exact (hpassed j hlt).1
      · exact hretried

theorem not_endless_of_ends {attempts : List Attempted} {out : Except Raised Result} {k : Nat}
    (hended : Ended convert replies attempts.length out) (hends : Ends convert replies attempts out)
    (hk : k < maxAttempts) (hretried : ∀ j ≤ k, Retried convert (replies j)) :
    ¬ Endless (heeded convert (replies k)) := by
  intro hendless
  generalize hlength : attempts.length = n at hended
  cases hended with
  | @stopped m hm hpassed hstops =>
      rcases Nat.lt_or_ge k m with hlt | hge
      · exact (hpassed k hlt).2 hendless
      · exact hstops (hretried m hge)
  | unavailable message hpassed => exact (hpassed k hk).2 hendless
  | @hung m e hm hpassed _ _ he =>
      classical
      by_cases hall : ∀ j < maxAttempts, Retried convert (replies j)
      · obtain ⟨message, hout⟩ := hends.unavailable.mpr hall
        rcases he with rfl | rfl <;> cases hout
      · push Not at hall
        -- the first answer that is not retried comes after the hanging attempt
        let first := Nat.find hall
        obtain ⟨hfirst, hstops⟩ := Nat.find_spec hall
        have hbefore (j : Nat) (hj : j < first) : Retried convert (replies j) := by
          by_contra hj'
          exact Nat.find_min hall hj ⟨hj.trans hfirst, hj'⟩
        have hat := (hends.stops first hfirst hbefore hstops).1
        have hm' : m = first := by omega
        rcases Nat.lt_or_ge k m with hlt | hge
        · exact (hpassed k hlt).2 hendless
        · exact hstops (hretried first (hm' ▸ hge))

theorem patient_of_prompt {attempts : List Attempted} {out : Except Raised Result}
    (hgaps : Gaps True convert replies requestsPerMinute attempts)
    (hended : Ended convert replies attempts.length out)
    (hspaced : Spaced float replies attempts) (hends : Ends convert replies attempts out) :
    Patient float convert replies requestsPerMinute := by
  have hpatient (k : Nat) (hk : k < maxAttempts)
      (hretried : ∀ j ≤ k, Retried convert (replies j)) :
      ¬ Endless (heeded convert (replies k)) := not_endless_of_ends hended hends hk hretried
  refine ⟨hpatient, fun k hk hretried seconds hasks => ?_⟩
  have hmade : k + 1 < attempts.length := by
    generalize attempts.length = n at hended
    cases hended with
    | @stopped m hm hpassed hstops =>
        by_contra hshort
        exact hstops (hretried m (by omega))
    | unavailable message hpassed => exact hk
    | @hung m e hm hpassed _ hendless _ =>
        by_contra hshort
        exact hpatient m hm (fun j hj => hretried j (by omega)) hendless
  have hfirst := List.getElem?_eq_getElem (Nat.lt_of_succ_lt hmade)
  have hnext := List.getElem?_eq_getElem hmade
  have hleast := hspaced k _ _ seconds hfirst hnext hasks
  have hexact := (hgaps k _ _ hfirst hnext).2 trivial
  linarith

/-- Every run honours the delays asked for and ends as it should if and only if
the waits of the loop are long enough. -/
theorem spaced_and_ends_iff (provider : ConnectorProvider) (start : ℚ)
    (hconvert : ∀ reply message, convert reply ≠ .error (.providerUnavailable message)) :
    (∀ choices : Nat → Choice, (∀ n, (choices n).Valid) →
      Spaced float replies
          (run provider requestsPerMinute convert replies start choices).1.attempts ∧
        Ends convert replies
          (run provider requestsPerMinute convert replies start choices).1.attempts
          (run provider requestsPerMinute convert replies start choices).2.2) ↔
      Patient float convert replies requestsPerMinute := by
  constructor
  · intro h
    obtain ⟨hspaced, hends⟩ := h (fun _ => prompt) fun _ => valid_prompt
    obtain ⟨hgaps, hended⟩ := run_ended True provider requestsPerMinute convert replies start
      fun _ => ⟨valid_prompt, fun _ => rfl⟩
    exact patient_of_prompt hgaps hended hspaced hends
  · intro h choices hvalid
    obtain ⟨hgaps, hended⟩ := run_ended False provider requestsPerMinute convert replies start
      fun n => ⟨hvalid n, fun hfalse => hfalse.elim⟩
    exact ⟨h.spaced hgaps hended, h.ends_of_ended hconvert hended⟩

end Loop

section Paths

variable {float : String → Option Seconds} {provider : ConnectorProvider} {path : CallPath}
variable {reply : Reply}

theorem tokenFailure_ne_unavailable (e : Failure) (message : String) :
    tokenFailure e ≠ .providerUnavailable message := by
  cases e <;> nofun

theorem convert_ne_unavailable (message : String) :
    convert float provider path reply ≠ .error (.providerUnavailable message) := by
  intro h
  cases reply with
  | transportError className => cases path <;> cases h
  | response reply =>
      cases path <;> simp only [convert, httpAttempt, tokenAttempt, sdkAttempt] at h <;>
        split at h
      case h_2 => exact tokenFailure_ne_unavailable _ message (Except.error.inj h)
      all_goals cases h

theorem tokenFailure_eq {e : Failure} {statusCode : Nat} {retryAfter : Option Seconds}
    (h : tokenFailure e = .providerResponse statusCode retryAfter) : retryAfter = none := by
  cases e <;> cases h
  rfl

theorem retryAfter_eq_none (hpath : path ≠ .providerHttpRequest) {statusCode : Nat}
    {retryAfter : Option Seconds}
    (h : convert float provider path reply = .error (.providerResponse statusCode retryAfter)) :
    retryAfter = none := by
  cases reply with
  | transportError className => cases path <;> cases h
  | response reply =>
      cases path <;> simp only [convert, httpAttempt, tokenAttempt, sdkAttempt] at h <;>
        split at h
      case response.providerHttpRequest.isTrue => exact absurd rfl hpath
      case h_2 => exact tokenFailure_eq (Except.error.inj h)
      all_goals cases h
      all_goals rfl

theorem heeded_eq_none (hpath : path ≠ .providerHttpRequest) :
    heeded (convert float provider path) reply = none := by
  unfold heeded
  split
  · rename_i h
    exact retryAfter_eq_none hpath h
  · rfl

/-- The header of a response, as a number. -/
def header (float : String → Option Seconds) : Reply → Option Seconds
  | .transportError _ => none
  | .response reply => retryAfterSeconds float reply

theorem header_of_asks {seconds : ℚ} (h : asks float reply = some seconds) :
    header float reply = some (.finite seconds) := by
  cases reply with
  | transportError className => cases h
  | response reply =>
      simp only [asks] at h
      split at h
      · split at h <;> cases h
        assumption
      · cases h

theorem heeded_of_retried (hretried : Retried (convert float provider .providerHttpRequest) reply) :
    heeded (convert float provider .providerHttpRequest) reply = header float reply := by
  obtain ⟨statusCode, retryAfter, hresult, -⟩ := hretried
  rw [heeded, hresult]
  cases reply with
  | transportError className => cases hresult
  | response reply =>
      simp only [convert, httpAttempt] at hresult
      split at hresult <;> cases hresult
      rfl

/-- The delays that a path can honour: where the header is read, those that come to
an end; elsewhere, those that the bare backoff covers. -/
structure Covered (float : String → Option Seconds) (provider : ConnectorProvider)
    (path : CallPath) (requestsPerMinute : Nat) (replies : Nat → Reply) : Prop where
  ends : path = .providerHttpRequest → ∀ k < maxAttempts,
    (∀ j ≤ k, Retried (convert float provider path) (replies j)) →
      ¬ Endless (header float (replies k))
  short : path ≠ .providerHttpRequest → ∀ k, k + 1 < maxAttempts →
    (∀ j ≤ k, Retried (convert float provider path) (replies j)) → ∀ seconds,
      asks float (replies k) = some seconds → seconds ≤ 2 ^ k / 2 + budgetWait requestsPerMinute

variable {requestsPerMinute : Nat} {replies : Nat → Reply}

theorem budgetWait_nonneg : 0 ≤ budgetWait requestsPerMinute := by
  unfold budgetWait
  split
  · exact zero_le_one
  · exact le_rfl

theorem patient_iff_covered :
    Patient float (convert float provider path) replies requestsPerMinute ↔
      Covered float provider path requestsPerMinute replies := by
  by_cases hpath : path = .providerHttpRequest
  · subst hpath
    constructor
    · refine fun h => ⟨fun _ k hk hretried => ?_, fun hother => absurd rfl hother⟩
      rw [← heeded_of_retried (hretried k le_rfl)]
      exact h.ends k hk hretried
    · refine fun h => ⟨fun k hk hretried => ?_, fun k hk hretried seconds hasks => ?_⟩
      · rw [heeded_of_retried (hretried k le_rfl)]
        exact h.ends rfl k hk hretried
      · rw [gap, heeded_of_retried (hretried k le_rfl), header_of_asks hasks]
        exact (le_max_left seconds 0).trans (le_add_of_nonneg_right budgetWait_nonneg)
  · have hgap (k : Nat) : gap (convert float provider path) replies requestsPerMinute k =
        2 ^ k / 2 + budgetWait requestsPerMinute := by
      rw [gap, heeded_eq_none hpath]
      rfl
    constructor
    · refine fun h => ⟨fun hhttp => absurd hhttp hpath, fun _ k hk hretried seconds hasks => ?_⟩
      exact hgap k ▸ h.asked k hk hretried seconds hasks
    · refine fun h => ⟨fun k _ _ => ?_, fun k hk hretried seconds hasks => ?_⟩
      · rw [heeded_eq_none hpath]
        exact of_decide_eq_false rfl
      · rw [hgap]
        exact h.short hpath k hk hretried seconds hasks

end Paths

/-- A call honours the delays it is asked for, and ends at the first answer that is
not retried or after five attempts, whatever the counter, the jitter and the time that
passes, if and only if its path can honour these delays. -/
theorem retry_after_honoured_iff (float : String → Option Seconds) (provider : ConnectorProvider)
    (path : CallPath) (requestsPerMinute : Nat) (replies : Nat → Reply) (start : ℚ) :
    (∀ choices : Nat → Choice, (∀ n, (choices n).Valid) →
      Spaced float replies
          (run provider requestsPerMinute (convert float provider path) replies start
            choices).1.attempts ∧
        Ends (convert float provider path) replies
          (run provider requestsPerMinute (convert float provider path) replies start
            choices).1.attempts
          (run provider requestsPerMinute (convert float provider path) replies start
            choices).2.2) ↔
      Covered float provider path requestsPerMinute replies :=
  (spaced_and_ends_iff provider start fun _ message => convert_ne_unavailable message).trans
    patient_iff_covered

def minutes (text : String) : Option Seconds :=
  if text = "120" then some (.finite 120) else none

/-- Every attempt is refused for two minutes. -/
def throttled : Nat → Reply := fun _ => .response ⟨⟨429, .json (.obj [])⟩, some "120"⟩

/-- The refresh of a token is attempted again half a second after the refusal. -/
theorem refresh_does_not_wait : ¬ ∀ choices : Nat → Choice, (∀ n, (choices n).Valid) →
    Spaced minutes throttled
      (run .google 240 (convert minutes .google .refreshToken) throttled 0
        choices).1.attempts := by
  intro h
  have hwaited := h (fun _ => prompt) (fun _ => valid_prompt) 0 ⟨0, 0⟩ ⟨1 / 2, 1 / 2⟩ 120
    (by decide +kernel) (by decide +kernel) (by decide +kernel)
  norm_num at hwaited

end Socle.RetryAfter
