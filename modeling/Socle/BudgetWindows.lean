import Mathlib.Data.Rat.Floor
import Socle.Throttle

/-!
The budget of attempts over any interleaving of calls on one connection.  The
counter lives in windows of a minute; a call that finds it over budget waits, and
then starts its attempt without counting it.
-/

namespace Socle.BudgetWindows

open Socle.GuardedRuns
open Socle.Procedures
open Socle.TokenExchange
open Socle.Throttle

/-! ### The counter -/

/-- A life of the key, from its first increment on. -/
structure Window where
  id : Nat
  opened : ℚ
  count : Nat
  deriving DecidableEq

/-- `starts` holds one entry for each attempt: the window that was alive when it
started. -/
structure Counter where
  now : ℚ
  key : Option Window := none
  windows : Nat := 0
  starts : List (Option Nat) := []
  deriving DecidableEq

/-- The key expires exactly sixty seconds after its first increment. -/
def Counter.live (s : Counter) : Option Window :=
  s.key.filter fun window => decide (s.now < window.opened + windowSeconds)

/-- `INCR`. -/
def Counter.increment (s : Counter) : Window :=
  match s.live with
  | some window => { window with count := window.count + 1 }
  | none => ⟨s.windows, s.now, 1⟩

/-- `TTL`, in seconds rounded to the nearest. -/
def Counter.ttl (s : Counter) : Int :=
  match s.live with
  | some window => ⌊window.opened + windowSeconds - s.now + 1 / 2⌋
  | none => -2

/-- What a call knows of its last increment. -/
structure Ticket where
  window : Nat
  count : Nat
  deriving DecidableEq

/-- A call, with the moment at which its last answer reached it; `slept` says that it
has slept since its last increment. -/
structure Caller where
  since : ℚ
  ticket : Option Ticket := none
  slept : Bool := false
  deriving DecidableEq

structure Choice (α : Type) where
  answer : α
  jitter : ℚ := 0
  latency : ℚ≥0 := 0
  elapsed : ℚ≥0 := 0

/-- Each request takes effect at one moment; its answer arrives after `latency`, and
the next request of any call takes effect after `elapsed`. -/
def serve {α : Type} : Serve (Throttling α) Counter Caller (Choice α) := fun s l r c =>
  let next : Counter := { s with now := s.now + c.elapsed }
  let caller : Caller := { l with since := s.now + c.latency }
  match r with
  | .incr =>
      let window := s.increment
      ({ next with key := some window, windows := max s.windows (window.id + 1) },
        { caller with ticket := some ⟨window.id, window.count⟩, slept := false }, window.count)
  | .expire => (next, caller, ())
  | .ttl => (next, caller, s.ttl)
  | .sleep _ => (next, { caller with slept := true }, ())
  | .jitter => (next, caller, c.jitter)
  | .attempt =>
      ({ next with starts := s.starts ++ [s.live.map Window.id] }, { caller with ticket := none },
        c.answer)

/-- A sleep ends exactly after its delay, and no request takes effect before it is
made. -/
def punctual (s : Counter) (ls : List Caller) (i : Nat) (r : Request) : Bool :=
  match r, ls[i]? with
  | .sleep seconds, some l => s.now = l.since + max seconds 0
  | _, some l => l.since ≤ s.now
  | _, none => true

/-- A call whose last increment was within the budget of this window. -/
def Caller.holds (requestsPerMinute window : Nat) (l : Caller) : Bool :=
  match l.ticket with
  | some ticket => ticket.window = window ∧ ticket.count ≤ requestsPerMinute
  | none => false

/-- A call that has slept since its increment starts its attempt when no key is alive,
and no window opens between the increment and the attempt of another. -/
def wakesOutside (s : Counter) (ls : List Caller) (i : Nat) (r : Request) : Bool :=
  match r, s.live with
  | .attempt, some window =>
      ls[i]?.all fun l => !l.slept && l.ticket.all fun ticket => ticket.window = window.id
  | _, _ => true

section Calls

variable {α β : Type}

abbrev CallPool (α β : Type) := Pool (Throttling α) Raised Counter Caller β

/-- Calls on one connection.  Each makes of its answers what it wants. -/
def launch (provider : ConnectorProvider) (requestsPerMinute : Nat) (start : ℚ)
    (calls : List (α → Except Raised β)) : CallPool α β :=
  ⟨{ now := start }, calls.map fun convert =>
    ({ since := start }, runWithBackoff provider requestsPerMinute convert)⟩

abbrev callStep : CallPool α β → Nat × Choice α → Option (CallPool α β) := Pool.step serve

end Calls

section Discipline

variable {α β : Type} {requestsPerMinute : Nat}

/-- A call starts an attempt when it has slept since its last increment, or when that
increment was within the budget. -/
def allowed (requestsPerMinute : Nat) (l : Caller) : Request → Prop
  | .attempt => l.slept = true ∨
      ∃ ticket, l.ticket = some ticket ∧ ticket.count ≤ requestsPerMinute
  | _ => True

theorem follows_budgetDelay (l : Caller) :
    Follows (serve (α := α)) (allowed requestsPerMinute)
      (fun l outcome => (∃ wait, outcome = .ok (some wait)) ∨ allowed requestsPerMinute l .attempt)
      l (budgetDelay requestsPerMinute) := by
  -- What follows the increment, in a call whose ticket has this count.
  have hcounted (l : Caller) (count : Nat) (hl : ∃ ticket, l.ticket = some ticket ∧
      ticket.count = count) :
      Follows (serve (α := α)) (allowed requestsPerMinute)
        (fun l outcome => (∃ wait, outcome = .ok (some wait)) ∨
          allowed requestsPerMinute l .attempt) l
        (if requestsPerMinute < count then do
            let ttl ← ask .ttl
            return some ((max ttl 1 : Int) : ℚ)
          else return none) := by
    by_cases hover : requestsPerMinute < count
    · rw [if_pos hover]
      exact ⟨trivial, fun _ _ => .inl ⟨_, rfl⟩⟩
    · rw [if_neg hover]
      obtain ⟨ticket, hticket, rfl⟩ := hl
      exact .inr (.inr ⟨ticket, hticket, Nat.not_lt.mp hover⟩)
  refine ⟨trivial, fun s c => ?_⟩
  show Follows _ _ _ _ (if s.increment.count = 1 then _ else _)
  split
  · exact ⟨trivial, fun s' c' => hcounted _ _ ⟨_, rfl, rfl⟩⟩
  · exact hcounted _ _ ⟨_, rfl, rfl⟩

theorem follows_awaitBudget (l : Caller) :
    Follows (serve (α := α)) (allowed requestsPerMinute)
      (fun l _ => allowed requestsPerMinute l .attempt) l (awaitBudget requestsPerMinute) := by
  refine follows_bind (follows_budgetDelay l) (fun l wait hl => ?_) fun l e hl => ?_
  · cases wait with
    | some wait => exact ⟨trivial, fun _ _ => .inl rfl⟩
    | none =>
        obtain ⟨_, hwait⟩ | hready := hl
        · cases hwait
        · exact hready
  · obtain ⟨_, hwait⟩ | hready := hl
    · cases hwait
    · exact hready

theorem follows_settle {attemptNo : Nat} {rest : Act α β} (outcome : Except Raised β)
    (hrest : ∀ l, Follows (serve (α := α)) (allowed requestsPerMinute) (fun _ _ => True) l rest)
    (l : Caller) :
    Follows (serve (α := α)) (allowed requestsPerMinute) (fun _ _ => True) l
      (settle attemptNo rest outcome) := by
  have hsleep (seconds : Seconds) (l : Caller) :
      Follows (serve (α := α)) (allowed requestsPerMinute) (fun _ _ => True) l (sleep seconds) := by
    cases seconds with
    | finite | negInfinite => exact ⟨trivial, fun _ _ => trivial⟩
    | infinite | nan => trivial
  have hawait (retryAfter : Option Seconds) (l : Caller) :
      Follows (serve (α := α)) (allowed requestsPerMinute) (fun _ _ => True) l
        (awaitRetry retryAfter attemptNo) := by
    cases retryAfter with
    | some seconds => exact hsleep seconds l
    | none => exact ⟨trivial, fun _ c => hsleep (.finite (2 ^ attemptNo / 2 + c.jitter)) _⟩
  unfold settle
  split
  · trivial
  · split
    · exact follows_bind (hawait _ l) (fun l _ _ => hrest l) fun _ _ _ => trivial
    · trivial
  · trivial

theorem follows_retryLoop (provider : ConnectorProvider) (convert : α → Except Raised β)
    (attemptNo remaining : Nat) (l : Caller) :
    Follows serve (allowed requestsPerMinute) (fun _ _ => True) l
      (retryLoop provider requestsPerMinute convert attemptNo remaining) := by
  induction remaining generalizing attemptNo l with
  | zero => trivial
  | succ remaining ih =>
      refine follows_bind (follows_awaitBudget l) (fun l _ hl => ?_) fun _ _ _ => trivial
      exact ⟨hl, fun s c => follows_settle _ (ih (attemptNo + 1)) _⟩

end Discipline

section Spending

variable {requestsPerMinute : Nat} {s : Counter} {ls : List Caller}

/-- The attempts of a window, and those that it still owes to calls it has counted. -/
def spent (requestsPerMinute : Nat) (s : Counter) (ls : List Caller) (window : Nat) : Nat :=
  s.starts.count (some window) + ls.countP (Caller.holds requestsPerMinute window)

/-- Every window spends within the budget, and the live one within its counter. -/
structure Accounted (requestsPerMinute : Nat) (s : Counter) (ls : List Caller) : Prop where
  within : ∀ window, spent requestsPerMinute s ls window ≤ requestsPerMinute
  counted : ∀ window, s.key = some window →
    spent requestsPerMinute s ls window.id ≤ window.count
  known : ∀ window, s.key = some window → window.id < s.windows
  fresh : ∀ window, s.windows ≤ window → spent requestsPerMinute s ls window = 0

theorem live_eq_some {window : Window} (h : s.live = some window) : s.key = some window :=
  (Option.filter_eq_some_iff.mp h).1

/-- What a window owes to one call. -/
def owed (requestsPerMinute window : Nat) (l : Caller) : Nat :=
  if l.holds requestsPerMinute window then 1 else 0

theorem spent_set (requestsPerMinute : Nat) {s' : Counter} {i : Nat} {l : Caller}
    {new : List (Option Nat)} (hl : ls[i]? = some l) (hstarts : s'.starts = s.starts ++ new)
    (l' : Caller) (window : Nat) :
    spent requestsPerMinute s' (ls.set i l') window + owed requestsPerMinute window l =
      spent requestsPerMinute s ls window + owed requestsPerMinute window l' +
        new.count (some window) := by
  have hset := countP_set_add (Caller.holds requestsPerMinute window) hl l'
  simp only [spent, owed, hstarts, List.count_append]
  omega

theorem spent_set_same (requestsPerMinute : Nat) {s' : Counter} {i : Nat} {l : Caller}
    (hl : ls[i]? = some l) (hstarts : s'.starts = s.starts) (l' : Caller) (window : Nat) :
    spent requestsPerMinute s' (ls.set i l') window + owed requestsPerMinute window l =
      spent requestsPerMinute s ls window + owed requestsPerMinute window l' := by
  have hset := spent_set requestsPerMinute hl (hstarts.trans (List.append_nil _).symm) l' window
  rw [hset, List.count_nil, Nat.add_zero]

theorem Accounted.of_le {s' : Counter} {ls' : List Caller} (h : Accounted requestsPerMinute s ls)
    (hkey : s'.key = s.key) (hwindows : s'.windows = s.windows)
    (hspent : ∀ window, spent requestsPerMinute s' ls' window ≤
      spent requestsPerMinute s ls window) : Accounted requestsPerMinute s' ls' where
  within window := (hspent window).trans (h.within window)
  counted window hw := (hspent window.id).trans (h.counted window (hkey ▸ hw))
  known window hw := hwindows ▸ h.known window (hkey ▸ hw)
  fresh window hw :=
    Nat.le_zero.mp ((hspent window).trans (h.fresh window (hwindows ▸ hw)).le)

theorem Accounted.keeps {s' : Counter} {i : Nat} {l l' : Caller}
    (h : Accounted requestsPerMinute s ls) (hl : ls[i]? = some l) (hkey : s'.key = s.key)
    (hwindows : s'.windows = s.windows) (hstarts : s'.starts = s.starts)
    (hticket : l'.ticket = l.ticket) : Accounted requestsPerMinute s' (ls.set i l') := by
  refine h.of_le hkey hwindows fun window => ?_
  have hset := spent_set_same requestsPerMinute hl hstarts l' window
  have howed : owed requestsPerMinute window l' = owed requestsPerMinute window l := by
    unfold owed Caller.holds
    rw [hticket]
  exact (Nat.add_right_cancel (howed ▸ hset)).le

theorem Accounted.spent_increment (h : Accounted requestsPerMinute s ls) :
    spent requestsPerMinute s ls s.increment.id < s.increment.count := by
  unfold Counter.increment
  split
  · rename_i window hlive
    exact Nat.lt_succ_of_le (h.counted window (live_eq_some hlive))
  · show spent requestsPerMinute s ls s.windows < 1
    rw [h.fresh s.windows le_rfl]
    exact Nat.one_pos

theorem owed_le_one (requestsPerMinute window : Nat) (l : Caller) :
    owed requestsPerMinute window l ≤ 1 := by
  unfold owed
  split
  · exact le_rfl
  · exact Nat.zero_le 1

theorem owed_eq_zero {l : Caller} {ticket : Ticket} (window : Nat) (hl : l.ticket = some ticket)
    (h : window = ticket.window → requestsPerMinute < ticket.count) :
    owed requestsPerMinute window l = 0 := by
  refine if_neg ?_
  simp only [Caller.holds, hl, decide_eq_true_eq]
  rintro ⟨rfl, hwithin⟩
  exact Nat.not_lt.mpr hwithin (h rfl)

theorem Accounted.incr {s' : Counter} {i : Nat} {l l' : Caller}
    (h : Accounted requestsPerMinute s ls) (hl : ls[i]? = some l)
    (hkey : s'.key = some s.increment) (hwindows : s'.windows = max s.windows (s.increment.id + 1))
    (hstarts : s'.starts = s.starts)
    (hticket : l'.ticket = some ⟨s.increment.id, s.increment.count⟩) :
    Accounted requestsPerMinute s' (ls.set i l') := by
  have hspent (window : Nat) : spent requestsPerMinute s' (ls.set i l') window ≤
      spent requestsPerMinute s ls window + owed requestsPerMinute window l' := by
    have hset := spent_set_same requestsPerMinute hl hstarts l' window
    omega
  have hless := h.spent_increment
  constructor
  · intro window
    by_cases hcounts : window = s.increment.id ∧ s.increment.count ≤ requestsPerMinute
    · obtain ⟨rfl, hwithin⟩ := hcounts
      have := hspent s.increment.id
      have := owed_le_one requestsPerMinute s.increment.id l'
      omega
    · have hnone : owed requestsPerMinute window l' = 0 :=
        owed_eq_zero window hticket fun hw => Nat.lt_of_not_le fun hle => hcounts ⟨hw, hle⟩
      have := hspent window
      have := h.within window
      omega
  · intro window hwindow
    cases hkey.symm.trans hwindow
    have := hspent s.increment.id
    have := owed_le_one requestsPerMinute s.increment.id l'
    omega
  · intro window hwindow
    cases hkey.symm.trans hwindow
    rw [hwindows]
    exact lt_max_of_lt_right (Nat.lt_succ_self _)
  · intro window hold
    rw [hwindows, max_le_iff] at hold
    have hother : window ≠ s.increment.id := by omega
    have hnone : owed requestsPerMinute window l' = 0 :=
      owed_eq_zero window hticket fun hw => absurd hw hother
    have := hspent window
    have := h.fresh window hold.1
    omega

theorem Accounted.attempt {s' : Counter} {i : Nat} {l l' : Caller}
    (h : Accounted requestsPerMinute s ls) (hl : ls[i]? = some l)
    (hallowed : allowed requestsPerMinute l .attempt)
    (houtside : wakesOutside s ls i .attempt = true)
    (hkey : s'.key = s.key) (hwindows : s'.windows = s.windows)
    (hstarts : s'.starts = s.starts ++ [s.live.map Window.id]) (hticket : l'.ticket = none) :
    Accounted requestsPerMinute s' (ls.set i l') := by
  refine h.of_le hkey hwindows fun window => ?_
  have hset := spent_set requestsPerMinute hl hstarts l' window
  have hnone : owed requestsPerMinute window l' = 0 := by
    simp [owed, Caller.holds, hticket]
  have hnew : [s.live.map Window.id].count (some window) ≤ owed requestsPerMinute window l := by
    cases hlive : s.live with
    | none => simp
    | some alive =>
        obtain ⟨hawake, hsame⟩ : l.slept = false ∧
            ∀ ticket, l.ticket = some ticket → ticket.window = alive.id := by
          simpa [wakesOutside, hlive, hl, Option.all_eq_true] using houtside
        have hholds : l.holds requestsPerMinute alive.id = true := by
          rcases hallowed with hslept | ⟨ticket, hticket, hwithin⟩
          · rw [hawake] at hslept
            cases hslept
          · simp [Caller.holds, hticket, hsame ticket hticket, hwithin]
        by_cases hw : alive.id = window
        · subst hw
          simp [owed, hholds]
        · simp [hw]
  omega

theorem accounted_start (start : ℚ) (hls : ∀ l ∈ ls, l.ticket = none) :
    Accounted requestsPerMinute { now := start } ls := by
  have hspent (window : Nat) : spent requestsPerMinute { now := start } ls window = 0 := by
    refine (Nat.zero_add _).trans (List.countP_eq_zero.mpr fun l hl => ?_)
    simp [Caller.holds, hls l hl]
  constructor
  · exact fun window => (hspent window).trans_le (Nat.zero_le _)
  · nofun
  · nofun
  · exact fun window _ => hspent window

variable {α β : Type}

theorem accounted_step {i : Nat} {l : Caller} (r : Request) (c : Choice α)
    (h : Accounted requestsPerMinute s ls) (hl : ls[i]? = some l)
    (hallowed : allowed requestsPerMinute l r) (houtside : wakesOutside s ls i r = true) :
    Accounted requestsPerMinute (serve s l r c).1 (ls.set i (serve s l r c).2.1) := by
  cases r with
  | incr => exact h.incr hl rfl rfl rfl rfl
  | attempt => exact h.attempt hl hallowed houtside rfl rfl rfl rfl
  | expire => exact h.keeps hl rfl rfl rfl rfl
  | ttl => exact h.keeps hl rfl rfl rfl rfl
  | sleep seconds => exact h.keeps hl rfl rfl rfl rfl
  | jitter => exact h.keeps hl rfl rfl rfl rfl

/-- In every run in which the calls that have slept start their attempts outside the
windows, and no window opens between the increment and the attempt of another call, no
window sees more attempts than the budget. -/
theorem window_attempts_le (provider : ConnectorProvider) (requestsPerMinute : Nat) (start : ℚ)
    (calls : List (α → Except Raised β)) (schedule : List (Nat × Choice α)) (pool : CallPool α β)
    (halong : Along callStep
      (StepMeets fun s ls i r => wakesOutside s ls i r = true)
      (launch provider requestsPerMinute start calls) schedule)
    (hrun : run callStep (launch provider requestsPerMinute start calls) schedule = some pool)
    (window : Nat) : pool.shared.starts.count (some window) ≤ requestsPerMinute := by
  have htickets (l : Caller) (hl : l ∈ (launch provider requestsPerMinute start calls).locals) :
      l.ticket = none := by
    simp only [launch, Pool.locals, List.map_map] at hl
    obtain ⟨_, -, rfl⟩ := List.mem_map.mp hl
    rfl
  have hfollows : Disciplined serve (allowed requestsPerMinute)
      (launch provider requestsPerMinute start calls) := by
    intro thread hmem
    obtain ⟨convert, -, rfl⟩ := List.mem_map.mp hmem
    exact follows_retryLoop provider convert 0 maxAttempts _
  have hend := pool_invariant (G := Accounted requestsPerMinute)
    (fun s ls i l r c hG hl hallowed hcond => accounted_step r c hG hl hallowed hcond)
    hfollows (accounted_start start htickets) halong hrun
  exact (Nat.le_add_right _ _).trans (hend.within window)

end Spending

def answered : Unit → Except Raised Unit := .ok

def soon : Choice Unit := { answer := () }

/-- With a budget of one: the first call attempts at once, the second waits for a
minute and attempts when the window is over. -/
def calmSchedule : List (Nat × Choice Unit) :=
  [(0, soon), (0, soon), (0, soon), (1, soon), (1, { soon with elapsed := 60 }), (1, soon),
    (1, soon)]

theorem calm_window_within_budget :
    ∃ pool, run callStep (launch .google 1 0 [answered, answered]) calmSchedule = some pool ∧
      pool.shared.starts = [some 0, none] ∧
        ∀ window, pool.shared.starts.count (some window) ≤ 1 := by
  have hcalm : (run callStep (launch .google 1 0 [answered, answered]) calmSchedule).any
      (fun pool => pool.shared.starts == [some 0, none]) = true := by
    decide +kernel
  obtain ⟨pool, hrun, hstarts⟩ := (Option.any_eq_true _ _).mp hcalm
  refine ⟨pool, hrun, beq_iff_eq.mp hstarts, fun window => ?_⟩
  exact window_attempts_le .google 1 0 [answered, answered] calmSchedule pool
    (by decide +kernel) hrun window

/-- With a budget of one: the first call attempts at once, the second waits for a
minute, the third arrives when the minute is over. -/
def crowdedSchedule : List (Nat × Choice Unit) :=
  [(0, soon), (0, soon), (0, soon), (1, soon), (1, { soon with elapsed := 60 }), (2, soon),
    (2, soon), (2, soon), (1, soon), (1, soon)]

/-- The waiter attempts in the window of the newcomer, which does not count it. -/
theorem waiter_exceeds_window : ¬ ∀ (schedule : List (Nat × Choice Unit))
    (pool : CallPool Unit Unit),
    Along callStep (StepMeets fun s ls i r => punctual s ls i r = true)
      (launch .google 1 0 [answered, answered, answered]) schedule →
    run callStep (launch .google 1 0 [answered, answered, answered]) schedule = some pool →
      ∀ window, pool.shared.starts.count (some window) ≤ 1 := by
  intro h
  have hcrowded : (run callStep (launch .google 1 0 [answered, answered, answered])
      crowdedSchedule).any (fun pool => pool.shared.starts.count (some 1) == 2) = true := by
    decide +kernel
  obtain ⟨pool, hrun, htwo⟩ := (Option.any_eq_true _ _).mp hcrowded
  have hle := h crowdedSchedule pool (by decide +kernel) hrun 1
  rw [beq_iff_eq.mp htwo] at hle
  exact absurd hle (by decide)

end Socle.BudgetWindows
