import Mathlib.Data.NNRat.Defs
import Mathlib.Data.PNat.Basic
import Socle.QuotaCounters
import Socle.RateLimitBounds
import Socle.Throttle

/-!
The three counters side by side: the limiter of the authentication routes, the budget
of the provider calls and the monthly usage.  Each is created by one command and
given its lifetime by the next one, and a client may stop in between.
-/

namespace Socle.CounterExpiry

open Socle.GuardedRuns Socle.Procedures Socle.PythonText Socle.Valkey
open Socle.DirectoryStore (Instant)
open Socle.TokenExchange (ConnectorProvider)

/-! ### Clients -/

/-- The keys of the counters: `rl:…`, `connector:rl:…` and `ai:quota:…`. -/
inductive CounterKey (D : Type) where
  | rate (k : RateLimits.Key D)
  | budget (provider : ConnectorProvider) (connectionId : Nat)
  | quota (k : QuotaCounters.Key)
  deriving DecidableEq

inductive Request (D : Type) where
  | now
  | command (c : Command (CounterKey D) ℚ)
  | ttl (k : CounterKey D)

variable {D : Type}

@[reducible] def Answer : Request D → Type
  | .now => Instant
  | .command c => Valkey.Answer c
  | .ttl _ => Int

/-- A client gets no answer when it stops before its request is sent. -/
abbrev clients (D : Type) : Interface := ⟨Request D, fun r => Option (Answer r)⟩

inductive Ended where
  | stopped
  | raised
  deriving DecidableEq, Repr

abbrev Act (D α : Type) := Proc (clients D) Ended α

def await (r : Request D) : Act D (Answer r) := do
  match ← request (I := clients D) r with
  | some answer => return answer
  | none => throw .stopped

/-- A command of one of the modules, with its own keys and durations. -/
def sendCommand {K T : Type} (key : K → CounterKey D) (seconds : T → ℚ) :
    (c : Command K T) → Act D (Valkey.Answer c)
  | .get k => await (.command (.get (key k)))
  | .incrBy k amount => await (.command (.incrBy (key k) amount))
  | .expire k ttl => await (.command (.expire (key k) (seconds ttl)))
  | .set k value ttl => await (.command (.set (key k) value (seconds ttl)))
  | .setNx k value ttl => await (.command (.setNx (key k) value (seconds ttl)))

/-- The requests of `_budget_delay`; the other ones of the envelope are not about
the counter. -/
def sendThrottling (provider : ConnectorProvider) (connectionId : Nat) :
    (r : Throttle.Request) → Act D (Throttle.Answer Unit r)
  | .incr => do return (← await (.command (.incrBy (.budget provider connectionId) 1))).toNat
  | .expire => await (.command (.expire (.budget provider connectionId) Throttle.windowSeconds))
  | .ttl => await (.ttl (.budget provider connectionId))
  | .sleep _ => return ()
  | .jitter => return 0
  | .attempt => return ()

/-- The requests of `add_usage`; a time to live is in microseconds there. -/
def sendCounters : (r : QuotaCounters.Request) → Act D (QuotaCounters.Answer r)
  | .now => await .now
  | .command c => sendCommand .quota (fun ttl : Instant => (ttl : ℚ) / 1000000) c
  | .usageRows _ => return []
  | .audit _ => return ()

/-- A client: a limited call, a provider call before its attempt, or the usage of a
model call. -/
inductive Client where
  | rate (settings : RateLimits.Settings) (call : RateLimits.Call)
  | budget (provider : ConnectorProvider) (connectionId requestsPerMinute : Nat)
  | usage (tenantId : Nat) (tokens : ℕ+)

def Client.run (hashing : RateLimits.Hashing D) : Client → Act D Unit
  | .rate settings call =>
      (RateLimits.enforceRateLimit hashing settings call).through (sendCommand .rate id)
        fun _ => .raised
  | .budget provider connectionId requestsPerMinute => do
      let _ ← (Throttle.budgetDelay (α := Unit) requestsPerMinute).through
        (sendThrottling provider connectionId) fun _ => .raised
  | .usage tenantId tokens => do
      let _ ← (QuotaCounters.addUsage tenantId (tokens : Nat)).through sendCounters nofun

/-! ### Runs -/

structure Shared (D : Type) where
  now : ℚ
  keys : Keyspace (CounterKey D) ℚ := fun _ => none

/-- The key that the client has created and not given a lifetime yet. -/
structure Local (D : Type) where
  pending : Option (CounterKey D) := none

/-- What the environment chooses at a request: whether the client stops there, the
time until the next request of any client, the client's own clock, and what the
server rounds a `TTL` to. -/
structure Choice where
  stops : Bool := false
  elapsed : ℚ≥0 := 0
  clock : Instant := 0
  ttl : Int := 0

section Runs

variable [DecidableEq D]

/-- The key whose lifetime is still to come after a command. -/
def pendingAfter (s : Shared D) (pending : Option (CounterKey D)) :
    Command (CounterKey D) ℚ → Option (CounterKey D)
  | .incrBy k _ => if live s.now s.keys k = none then some k else pending
  | .expire _ _ => none
  | _ => pending

def answerOf (s : Shared D) (choice : Choice) : (r : Request D) → Answer r
  | .now => choice.clock
  | .command c => (execute s.now s.keys c).2
  | .ttl _ => choice.ttl

def Request.keysAfter (s : Shared D) : Request D → Keyspace (CounterKey D) ℚ
  | .command c => (execute s.now s.keys c).1
  | _ => s.keys

def Local.after (s : Shared D) (l : Local D) : Request D → Local D
  | .command c => ⟨pendingAfter s l.pending c⟩
  | _ => l

def serve : Serve (clients D) (Shared D) (Local D) Choice := fun s l r choice =>
  if choice.stops then (s, {}, none)
  else ({ now := s.now + choice.elapsed, keys := r.keysAfter s }, l.after s r,
    some (answerOf s choice r))

abbrev ClientPool (D : Type) := Pool (clients D) Ended (Shared D) (Local D) Unit

omit [DecidableEq D] in
def launch (hashing : RateLimits.Hashing D) (start : ℚ) (running : List Client) : ClientPool D :=
  ⟨{ now := start }, running.map fun client => ({}, client.run hashing)⟩

abbrev clientStep : ClientPool D → Nat × Choice → Option (ClientPool D) := Pool.step serve

end Runs

/-- The next command is an `EXPIRE`. -/
def Request.expires : Request D → Bool
  | .command (.expire _ _) => true
  | _ => false

/-- The client is between its increment and its expire. -/
def between {α : Type} : Act D α → Bool
  | .call r _ => Request.expires r
  | _ => false

/-- No client stops between its increment and its expire. -/
def unstopped (_ : Shared D) (_ : List (Local D)) (_ : Nat) (r : Request D) (choice : Choice) :
    Prop := Request.expires r = true → choice.stops = false

section Discipline

variable [DecidableEq D]

/-- A client that has created a key gives it its lifetime next. -/
def allowed (l : Local D) (r : Request D) : Prop :=
  ∀ k, l.pending = some k → ∃ ttl, r = .command (.expire k ttl)

/-- A client that has ended has nothing left to do. -/
def Settled {α : Type} (l : Local D) (_ : Except Ended α) : Prop := l.pending = none

abbrev Behaves {α : Type} (l : Local D) (p : Act D α) : Prop := Follows serve allowed Settled l p

variable {α β : Type}

omit [DecidableEq D] in
theorem allowed_of_none (r : Request D) : allowed {} r := nofun

theorem behaves_await_bind {l : Local D} {r : Request D} {f : Answer r → Act D α}
    (hallowed : allowed l r)
    (hnext : ∀ s choice, Behaves (l.after s r) (f (answerOf s choice r))) :
    Behaves l (await r >>= f) := by
  refine ⟨hallowed, fun s choice => ?_⟩
  unfold serve
  split
  · rfl
  · exact hnext s choice

theorem behaves_count {k : CounterKey D} {amount : Int} (ttl : ℚ) {f : Int → Act D α}
    (rest : Int → Act D α)
    (hfirst : f amount = await (.command (.expire k ttl)) >>= fun _ => rest amount)
    (hlater : ∀ count, count ≠ amount → f count = rest count)
    (hrest : ∀ count, Behaves {} (rest count)) :
    Behaves {} (await (.command (.incrBy k amount)) >>= f) := by
  refine behaves_await_bind (allowed_of_none _) fun s choice => ?_
  show Behaves ⟨if live s.now s.keys k = none then some k else none⟩
    (f (incremented s.now s.keys k amount).value)
  have hexpire : ∀ pending, (∀ k', pending = some k' → k' = k) →
      Behaves ⟨pending⟩ (f amount) := by
    intro pending hpending
    rw [hfirst]
    refine behaves_await_bind (fun k' hk' => ?_) fun _ _ => hrest amount
    rw [hpending k' hk']
    exact ⟨ttl, rfl⟩
  by_cases hnew : live s.now s.keys k = none
  · rw [if_pos hnew, show (incremented s.now s.keys k amount).value = amount by
      rw [incremented, hnew]]
    exact hexpire (some k) fun k' hk' => (Option.some.inj hk').symm
  · rw [if_neg hnew]
    by_cases hcount : (incremented s.now s.keys k amount).value = amount
    · rw [hcount]
      exact hexpire none fun k' hk' => by cases hk'
    · rw [hlater _ hcount]
      exact hrest _

theorem behaves_enforceKeys (settings : RateLimits.Settings) (ks : List (RateLimits.Key D)) :
    Behaves ({} : Local D) ((RateLimits.enforceKeys settings ks).through
      (sendCommand .rate id) fun _ => .raised) := by
  induction ks with
  | nil => rfl
  | cons k rest ih =>
      show Behaves {} (await (.command (.incrBy (.rate k) 1)) >>= fun count =>
        Proc.through (sendCommand .rate id) (fun _ => Ended.raised) (do
          if count = 1 then
            RateLimits.command (.expire k settings.authRateLimitWindowSeconds)
          if settings.authRateLimitAttempts < count then
            throw .tooManyRequests
          RateLimits.enforceKeys settings rest))
      refine behaves_count settings.authRateLimitWindowSeconds
        (fun count => Proc.through (sendCommand .rate id) (fun _ => Ended.raised) (do
          if settings.authRateLimitAttempts < count then
            throw .tooManyRequests
          RateLimits.enforceKeys settings rest))
        ?_ (fun count hcount => ?_) fun count => ?_
      · rw [if_pos rfl]
        rfl
      · rw [if_neg hcount]
      · by_cases hover : settings.authRateLimitAttempts < count
        · rw [if_pos hover]
          rfl
        · rw [if_neg hover]
          exact ih

theorem behaves_budgetDelay (provider : ConnectorProvider) (connectionId requestsPerMinute : Nat) :
    Behaves ({} : Local D) ((Throttle.budgetDelay requestsPerMinute).through
      (sendThrottling provider connectionId) fun _ => .raised) := by
  let limit (count : Nat) : Act D (Option ℚ) :=
    Proc.through (sendThrottling provider connectionId) (fun _ => Ended.raised) (do
      if requestsPerMinute < count then
        let ttl ← Throttle.ask (α := Unit) .ttl
        return some ((max ttl 1 : Int) : ℚ)
      return none)
  show Behaves {} ((await (.command (.incrBy (.budget provider connectionId) 1)) >>= fun value =>
    Proc.ret value.toNat) >>= fun count =>
      Proc.through (sendThrottling provider connectionId) (fun _ => Ended.raised) (do
        if count = 1 then
          Throttle.ask (α := Unit) .expire
        if requestsPerMinute < count then
          let ttl ← Throttle.ask .ttl
          return some ((max ttl 1 : Int) : ℚ)
        return none))
  rw [Proc.bind_assoc]
  refine behaves_count Throttle.windowSeconds (fun value => limit value.toNat) ?_
    (fun value hvalue => ?_) fun value => ?_
  · rfl
  · have hlater : value.toNat ≠ 1 := by omega
    rw [Proc.ret_bind, if_neg hlater]
  · by_cases hover : requestsPerMinute < value.toNat
    · simp only [limit, if_pos hover]
      exact behaves_await_bind (allowed_of_none _) fun _ _ => rfl
    · simp only [limit, if_neg hover]
      rfl

theorem behaves_addUsage (tenantId : Nat) (tokens : ℕ+) :
    Behaves ({} : Local D) ((QuotaCounters.addUsage tenantId (tokens : Nat)).through sendCounters
      nofun) := by
  refine behaves_await_bind (allowed_of_none _) fun s choice => ?_
  show Behaves {} (await (.command (.incrBy
    (.quota (QuotaCounters.monthKey tenantId choice.clock)) (max ((tokens : Nat) : Int) 0))) >>=
    fun newTotal => Proc.through sendCounters nofun (do
      if newTotal = ((tokens : Nat) : Int) then
        QuotaCounters.command
          (.expire (QuotaCounters.monthKey tenantId choice.clock) QuotaCounters.monthTtl)
      return newTotal))
  rw [max_eq_left (Int.natCast_nonneg _)]
  refine behaves_count ((QuotaCounters.monthTtl : ℚ) / 1000000) Proc.ret ?_
    (fun newTotal hlater => ?_) fun _ => rfl
  · rw [if_pos rfl]
    rfl
  · rw [if_neg hlater]
    rfl

theorem behaves_run (hashing : RateLimits.Hashing D) (client : Client) :
    Behaves {} (client.run hashing) := by
  cases client with
  | rate settings call =>
      show Behaves {} ((Proc.ofExcept (RateLimits.keys hashing call) >>=
        RateLimits.enforceKeys settings).through (sendCommand .rate id) fun _ => .raised)
      cases RateLimits.keys hashing call with
      | error e => rfl
      | ok ks => exact behaves_enforceKeys settings ks
  | budget provider connectionId requestsPerMinute =>
      exact follows_bind (behaves_budgetDelay provider connectionId requestsPerMinute)
        (fun _ _ h => h) fun _ _ h => h
  | usage tenantId tokens =>
      exact follows_bind (behaves_addUsage tenantId tokens) (fun _ _ h => h) fun _ _ h => h

end Discipline

section Lifetimes

variable [DecidableEq D] {s : Shared D} {ls : List (Local D)} {i : Nat} {l : Local D}

/-- A key without a lifetime is awaited by the client that created it. -/
def Awaited (s : Shared D) (ls : List (Local D)) : Prop :=
  ∀ k e, s.keys k = some e → e.expiry = none → ∃ l ∈ ls, l.pending = some k

omit [DecidableEq D] in
theorem exists_pending_set (hl : ls[i]? = some l) {k : CounterKey D} (hother : l.pending ≠ some k)
    (h : ∃ l ∈ ls, l.pending = some k) (l' : Local D) : ∃ l ∈ ls.set i l', l.pending = some k := by
  obtain ⟨awaiting, hmem, hpending⟩ := h
  obtain ⟨j, hj⟩ := List.mem_iff_getElem?.mp hmem
  have hne : i ≠ j := by
    rintro rfl
    rw [hl] at hj
    cases hj
    exact hother hpending
  refine ⟨awaiting, List.mem_iff_getElem?.mpr ⟨j, ?_⟩, hpending⟩
  rwa [List.getElem?_set_ne hne]

theorem awaited_command (h : Awaited s ls) (hl : ls[i]? = some l) (c : Command (CounterKey D) ℚ)
    (hallowed : allowed l (.command c)) {s' : Shared D}
    (hkeys : s'.keys = (execute s.now s.keys c).1) :
    Awaited s' (ls.set i ⟨pendingAfter s l.pending c⟩) := by
  intro k e he hnone
  rw [hkeys] at he
  have hkept : l.pending ≠ some k → s.keys k = some e →
      ∃ l' ∈ ls.set i ⟨pendingAfter s l.pending c⟩, l'.pending = some k :=
    fun hother hold => exists_pending_set hl hother (h k e hold hnone) _
  by_cases hk : k = c.key
  · subst hk
    cases c with
    | get k =>
        refine hkept (fun hpending => ?_) he
        obtain ⟨ttl, hr⟩ := hallowed k hpending
        cases hr
    | incrBy k amount =>
        have hentry : put s.keys k (incremented s.now s.keys k amount) k = some e := he
        rw [put_self] at hentry
        cases hentry
        cases hlive : live s.now s.keys k with
        | none =>
            obtain ⟨hi, -⟩ := List.getElem?_eq_some_iff.mp hl
            refine ⟨_, List.mem_set hi _, ?_⟩
            exact if_pos hlive
        | some e =>
            rw [incremented, hlive] at hnone
            refine exists_pending_set hl (fun hpending => ?_)
              (h k e (live_eq_some.mp hlive).1 hnone) _
            obtain ⟨ttl, hr⟩ := hallowed k hpending
            cases hr
    | expire k ttl =>
        simp only [execute] at he
        cases hlive : live s.now s.keys k with
        | none =>
            rw [hlive] at he
            have halive : e.alive s.now = true := by
              rw [Entry.alive, hnone]
              rfl
            cases hlive.symm.trans (live_eq_some.mpr ⟨he, halive⟩)
        | some old =>
            rw [hlive] at he
            have hentry : put s.keys k { old with expiry := some (s.now + ttl) } k = some e := he
            rw [put_self] at hentry
            cases hentry
            cases hnone
    | set k value ttl =>
        have hentry : put s.keys k ⟨value, some (s.now + ttl)⟩ k = some e := he
        rw [put_self] at hentry
        cases hentry
        cases hnone
    | setNx k value ttl =>
        cases hlive : live s.now s.keys k with
        | none =>
            rw [execute_setNx_of_none hlive] at he
            have hentry : put s.keys k ⟨value, some (s.now + ttl)⟩ k = some e := he
            rw [put_self] at hentry
            cases hentry
            cases hnone
        | some old =>
            rw [execute_setNx_of_some hlive] at he
            refine hkept (fun hpending => ?_) he
            obtain ⟨ttl', hr⟩ := hallowed k hpending
            cases hr
  · rw [execute_of_ne c hk] at he
    refine hkept (fun hpending => ?_) he
    obtain ⟨ttl, hr⟩ := hallowed k hpending
    cases hr
    exact hk rfl

theorem awaited_step (s : Shared D) (ls : List (Local D)) (i : Nat) (l : Local D) (r : Request D)
    (choice : Choice) (h : Awaited s ls) (hl : ls[i]? = some l) (hallowed : allowed l r)
    (hunstopped : unstopped s ls i r choice) :
    Awaited (serve s l r choice).1 (ls.set i (serve s l r choice).2.1) := by
  have hidle : Request.expires r = false → ∀ l', Awaited s (ls.set i l') := by
    intro hexpires l' k e he hnone
    refine exists_pending_set hl (fun hpending => ?_) (h k e he hnone) l'
    obtain ⟨ttl, rfl⟩ := hallowed k hpending
    cases hexpires
  cases hstops : choice.stops with
  | true =>
      have hexpires : Request.expires r = false := by
        by_contra hexpires
        rw [hunstopped (Bool.of_not_eq_false hexpires)] at hstops
        cases hstops
      rw [serve, if_pos hstops]
      exact hidle hexpires _
  | false =>
      rw [serve, if_neg (by simp [hstops])]
      cases r with
      | now => exact hidle rfl _
      | ttl k => exact hidle rfl _
      | command c => exact awaited_command h hl c hallowed rfl

/-- In every run of the clients where none stops between its increment and its
expire, every counter has a lifetime whenever no client is between the two. -/
theorem counters_expire (hashing : RateLimits.Hashing D) (start : ℚ) (running : List Client)
    (schedule : List (Nat × Choice)) (pool : ClientPool D)
    (hmeets : Along clientStep (ActionMeets unstopped) (launch hashing start running) schedule)
    (hrun : run clientStep (launch hashing start running) schedule = some pool)
    (hquiet : ∀ thread ∈ pool.threads, between thread.2 = false) (k : CounterKey D)
    (e : Entry ℚ) (he : live pool.shared.now pool.shared.keys k = some e) : e.expiry ≠ none := by
  have hbehaves : ∀ thread ∈ (launch hashing start running).threads,
      Follows serve allowed Settled thread.1 thread.2 := by
    intro thread hthread
    obtain ⟨client, -, rfl⟩ := List.mem_map.mp hthread
    exact behaves_run hashing client
  have hawaited : Awaited pool.shared pool.locals :=
    pool_invariant_action awaited_step
      (fun thread hthread => (hbehaves thread hthread).mono fun _ _ _ => trivial)
      (fun k e he => nomatch he) hmeets hrun
  intro hnone
  obtain ⟨l, hl, hpending⟩ := hawaited k e (live_eq_some.mp he).1 hnone
  obtain ⟨⟨l, p⟩, hthread, rfl⟩ := List.mem_map.mp hl
  have hends := pool_follows hbehaves hrun _ hthread
  cases p with
  | ret value => exact nomatch hpending.symm.trans hends
  | raise error => exact nomatch hpending.symm.trans hends
  | call r next =>
      obtain ⟨ttl, rfl⟩ := hends.1 k hpending
      cases hquiet _ hthread

end Lifetimes

section Stops

open RateLimits RateLimitBounds

/-- One call of one client. -/
def oneClient : List Client := [.rate oneAttempt (bare "10.0.0.1")]

def counter : CounterKey Str := .rate ⟨"invitation-accept", ofString "10.0.0.1"⟩

theorem counted_call_expires : ∃ pool,
    run clientStep (launch plain 0 oneClient) [(0, {}), (0, {})] = some pool ∧
      ∀ e, live pool.shared.now pool.shared.keys counter = some e → e.expiry ≠ none := by
  refine ⟨_, rfl, fun e he => ?_⟩
  refine counters_expire plain 0 oneClient [(0, {}), (0, {})] _ ?_ rfl ?_ counter e he
  · exact ⟨fun _ => rfl, fun _ => rfl, trivial⟩
  · intro thread hthread
    rw [List.mem_singleton.mp hthread]
    rfl

/-- A client that stops before its `EXPIRE` leaves a counter for ever. -/
theorem stopped_client_leaves_counter : ¬ ∀ (running : List Client)
    (schedule : List (Nat × Choice)) (pool : ClientPool Str),
      run clientStep (launch plain 0 running) schedule = some pool →
        (∀ thread ∈ pool.threads, between thread.2 = false) →
          ∀ k e, live pool.shared.now pool.shared.keys k = some e → e.expiry ≠ none := by
  intro h
  have hquiet := h oneClient [(0, {}), (0, { stops := true })] _ rfl
    (fun thread hthread => by
      rw [List.mem_singleton.mp hthread]
      rfl)
  exact hquiet counter ⟨1, none⟩ (by decide +kernel) rfl

end Stops

end Socle.CounterExpiry
