import Socle.QuotaCounters

/-!
The quota alerts of one tenant over any interleaving of its AI calls and resets:
what each call reads off the counter of the month, and how many alerts are audited
for a day.
-/

namespace Socle.QuotaAlerts

open Socle.GuardedRuns Socle.Procedures Socle.Valkey Socle.QuotaCounters
open Socle.DirectoryStore (Instant)
open Socle.UsageRollup (Day dayOf microsecondsPerDay)

/-! ### Runs -/

/-- What happened to a counter of a month. -/
inductive Note where
  | added (caller : Nat) (month : Int) (amount total : Int)
  | reset (month : Int) (total : Int)
  deriving DecidableEq, Repr

/-- The counter of a month after these increments and resets, the last one first. -/
def runningSum (month : Int) : List Note → Int
  | [] => 0
  | .added _ month' amount _ :: notes =>
      if month' = month then runningSum month notes + amount else runningSum month notes
  | .reset month' total :: notes => if month' = month then total else runningSum month notes

/-- Every increment gave the running sum. -/
def Consistent : List Note → Prop
  | [] => True
  | .added _ month amount total :: notes =>
      total = runningSum month notes + amount ∧ Consistent notes
  | .reset _ _ :: notes => Consistent notes

/-- The server with its clock, and the alerts audited, each for the day of the
clock reading of its call. -/
structure Shared where
  now : Instant
  keys : Keyspace Key Instant := fun _ => none
  notes : List Note := []
  audits : List (Day × QuotaExceeded) := []

/-- A call: its tokens and quota, its clock readings, the total it saw and the
answer to its `SET NX`. -/
structure Caller where
  id : Nat
  tokens : Int := 0
  quota : Int := 0
  readings : List Instant := []
  total : Option Int := none
  acquired : Option Bool := none
  audited : Bool := false
  deriving DecidableEq

/-- The last clock reading. -/
def Caller.reading (l : Caller) : Instant := l.readings.getLastD 0

/-- How long a request takes, and what a clock shows. -/
structure Choice where
  reading : Instant := 0
  elapsed : Nat := 0

/-- The notes of a command. -/
def noteOf (l : Caller) : (c : Command Key Instant) → Valkey.Answer c → List Note
  | .incrBy (.month _ month) amount, total => [.added l.id month amount total]
  | .set (.month _ month) total _, _ => [.reset month total]
  | _, _ => []

/-- What a call keeps of an answer. -/
def Caller.learn (l : Caller) : (c : Command Key Instant) → Valkey.Answer c → Caller
  | .incrBy _ _, total => { l with total := some total }
  | .setNx _ _ _, acquired => { l with acquired := some acquired }
  | _, _ => l

/-- A command takes effect at one instant of the server, the next request later. -/
def serve : Serve counters Shared Caller Choice := fun s l r c =>
  let next := { s with now := s.now + c.elapsed }
  match r with
  | .now => (next, { l with readings := l.readings ++ [c.reading] }, c.reading)
  | .command cmd =>
      let out := execute s.now s.keys cmd
      ({ next with keys := out.1, notes := noteOf l cmd out.2 ++ s.notes }, l.learn cmd out.2,
        out.2)
  | .usageRows _ => (next, l, [])
  | .audit event =>
      ({ next with audits := s.audits ++ [(dayOf l.reading, event)] }, { l with audited := true },
        ())

/-- The command does not find its key expired. -/
def inTime (s : Shared) (_ : List Caller) (_ : Nat) (r : Request) : Bool :=
  match r with
  | .command (.incrBy k _) | .command (.setNx k _ _) => (s.keys k).all (Entry.alive s.now)
  | _ => true

/-- An AI call to account for, or the daily reset of the counter. -/
inductive Operation where
  | record (tokens quota : Int)
  | reset (total : Int)

abbrev AlertPool := Pool counters Empty Shared Caller (Option QuotaOutcome)

/-- An operation as a thread. -/
def perform (tenantId id : Nat) : Operation → Caller × Act (Option QuotaOutcome)
  | .record tokens quota =>
      ({ id := id, tokens := tokens, quota := quota }, do
        return some (← recordAndAlert tenantId tokens quota))
  | .reset total => ({ id := id }, do
      reconcile tenantId total
      return none)

/-- The operations of a tenant, on a server without keys. -/
def launch (tenantId : Nat) (start : Instant) (operations : List Operation) : AlertPool :=
  ⟨{ now := start }, operations.mapIdx fun id operation => perform tenantId id operation⟩

abbrev alertStep : AlertPool → Nat × Choice → Option AlertPool := Pool.step serve

/-- The alerts audited for a day. -/
def alertsOf (day : Day) (pool : AlertPool) : Nat :=
  pool.shared.audits.countP fun audit => audit.1 = day

/-- A finished call that saw the counter above its quota, and read the clock for its
alert on that day. -/
def SawExcess (day : Day) (thread : Caller × Act (Option QuotaOutcome)) : Prop :=
  ∃ outcome first second, thread.2 = .ret (some outcome) ∧ thread.1.readings = [first, second] ∧
    thread.1.quota < outcome.monthUsage ∧ dayOf second = day

/-- Every thread has returned. -/
def Finished (pool : AlertPool) : Prop := ∀ thread ∈ pool.threads, ∃ a, thread.2 = .ret a

/-- Each call reads the running sum of its month, and every day with an excess has
exactly one alert. -/
structure OncePerDay (pool : AlertPool) : Prop where
  running : Consistent pool.shared.notes
  seen : ∀ thread ∈ pool.threads, ∀ outcome, thread.2 = .ret (some outcome) →
    ∃ first, thread.1.readings.head? = some first ∧
      Note.added thread.1.id (monthOf first) (max thread.1.tokens 0) outcome.monthUsage ∈
        pool.shared.notes
  atMostOne : ∀ day, alertsOf day pool ≤ 1
  exact : Finished pool → ∀ day,
    alertsOf day pool = 1 ↔ ∃ thread ∈ pool.threads, SawExcess day thread

section Calls

variable {tenantId : Nat}

/-- The requests of a call, given what it has learnt. -/
def allowed (tenantId : Nat) (l : Caller) : Request → Prop
  | .now => l.acquired = none ∧ l.readings.length < 2
  | .command (.incrBy k amount) =>
      ∃ first, l.readings = [first] ∧ k = monthKey tenantId first ∧ amount = max l.tokens 0
  | .command (.expire k ttl) => (∃ month, k = .month tenantId month) ∧ ttl = monthTtl
  | .command (.set k _ ttl) => (∃ month, k = .month tenantId month) ∧ ttl = monthTtl
  | .command (.setNx k _ ttl) => ∃ first second, l.readings = [first, second] ∧
      k = alertKey tenantId second ∧ l.acquired = none ∧ ttl = alertTtl
  | .command (.get _) => False
  | .usageRows _ => False
  | .audit _ => l.acquired = some true ∧ l.audited = false

/-- How a call ends. -/
def Ended (l : Caller) (out : Except Empty (Option QuotaOutcome)) : Prop :=
  match out with
  | .ok (some outcome) => ∃ first, l.total = some outcome.monthUsage ∧
      ((l.quota < outcome.monthUsage ∧ ∃ second b, l.readings = [first, second] ∧
          l.acquired = some b ∧ l.audited = b) ∨
        (¬ l.quota < outcome.monthUsage ∧ l.readings = [first] ∧ l.acquired = none ∧
          l.audited = false))
  | .ok none => l.total = none ∧ l.acquired = none ∧ l.audited = false
  | .error _ => True

section Requests

variable {α : Type} {Q : Caller → Except Empty α → Prop} {l : Caller}

theorem follows_now {f : Instant → Act α} (hallowed : allowed tenantId l .now)
    (h : ∀ reading, Follows serve (allowed tenantId) Q
      { l with readings := l.readings ++ [reading] } (f reading)) :
    Follows serve (allowed tenantId) Q l (now >>= f) :=
  ⟨hallowed, fun _ c => h c.reading⟩

theorem follows_command {cmd : Command Key Instant} {f : Valkey.Answer cmd → Act α}
    (hallowed : allowed tenantId l (.command cmd))
    (h : ∀ answer, Follows serve (allowed tenantId) Q (l.learn cmd answer) (f answer)) :
    Follows serve (allowed tenantId) Q l (command cmd >>= f) :=
  ⟨hallowed, fun _ _ => h _⟩

end Requests

theorem follows_addUsage {l : Caller} (hreadings : l.readings = [])
    (hacquired : l.acquired = none) :
    Follows serve (allowed tenantId)
      (fun l' out => ∃ first total, l' = { l with readings := [first], total := some total } ∧
        out = .ok total)
      l (addUsage tenantId l.tokens) := by
  refine follows_now ⟨hacquired, by simp [hreadings]⟩ fun first => ?_
  rw [hreadings]
  refine follows_command ⟨first, rfl, rfl, rfl⟩ fun total => ?_
  by_cases hfirst : total = l.tokens
  · rw [if_pos hfirst]
    exact follows_command ⟨⟨_, rfl⟩, rfl⟩ fun _ => ⟨first, total, rfl, rfl⟩
  · rw [if_neg hfirst]
    exact ⟨first, total, rfl, rfl⟩

theorem follows_emitAlertOnce {l : Caller} {first : Instant} {monthUsage : Int}
    (hreadings : l.readings = [first]) (hacquired : l.acquired = none)
    (haudited : l.audited = false) :
    Follows serve (allowed tenantId)
      (fun l' out => ∃ second b, l' = { l with
          readings := [first, second], acquired := some b, audited := b } ∧ out = .ok b)
      l (emitAlertOnce tenantId monthUsage l.quota) := by
  refine follows_now ⟨hacquired, by simp [hreadings]⟩ fun second => ?_
  rw [hreadings]
  refine follows_command ⟨first, second, rfl, rfl, hacquired, rfl⟩ fun acquired => ?_
  cases acquired with
  | false => exact ⟨second, false, by simp [Caller.learn, haudited], rfl⟩
  | true => exact ⟨⟨rfl, haudited⟩, fun _ _ => ⟨second, true, rfl, rfl⟩⟩

theorem follows_recordAndAlert {l : Caller} (hreadings : l.readings = [])
    (hacquired : l.acquired = none) (haudited : l.audited = false) :
    Follows serve (allowed tenantId) (fun l' out => Ended l' (out.map some)) l
      (recordAndAlert tenantId l.tokens l.quota) := by
  refine follows_bind (follows_addUsage hreadings hacquired) ?_ nofun
  rintro l' monthUsage ⟨first, total, rfl, hout⟩
  cases hout
  by_cases hover : l.quota < monthUsage
  · simp only [decide_eq_true hover, if_true]
    refine follows_bind (follows_emitAlertOnce rfl hacquired haudited) ?_ nofun
    rintro l' alerted ⟨second, b, rfl, hout⟩
    exact ⟨first, rfl, .inl ⟨hover, second, b, rfl, rfl, rfl⟩⟩
  · simp only [decide_eq_false hover, if_neg Bool.false_ne_true]
    exact ⟨first, rfl, .inr ⟨hover, rfl, hacquired, haudited⟩⟩

theorem follows_perform (id : Nat) (operation : Operation) :
    Follows serve (allowed tenantId) Ended (perform tenantId id operation).1
      (perform tenantId id operation).2 := by
  cases operation with
  | record tokens quota =>
      have hcall := @follows_recordAndAlert tenantId { id := id, tokens := tokens, quota := quota }
        rfl rfl rfl
      exact follows_bind hcall (fun _ _ h => h) nofun
  | reset total =>
      have hreset : Follows serve (allowed tenantId)
          (fun l' (_ : Except Empty Unit) => l'.total = none ∧ l'.acquired = none ∧
            l'.audited = false)
          { id := id } (reconcile tenantId total) :=
        follows_now ⟨rfl, Nat.zero_lt_two⟩ fun first =>
          ⟨⟨⟨_, rfl⟩, rfl⟩, fun _ _ => ⟨rfl, rfl, rfl⟩⟩
      exact follows_bind hreset (fun _ _ h => h) nofun

end Calls

/-- The call asked for the alert of this day, and got it. -/
def Caller.acquiredFor (day : Day) (l : Caller) : Bool :=
  l.acquired = some true ∧ dayOf l.reading = day

/-- The call audited the alert of this day. -/
def Caller.auditedFor (day : Day) (l : Caller) : Bool := l.audited ∧ dayOf l.reading = day

/-- The counters and the calls against the notes. -/
structure Counted (tenantId : Nat) (s : Shared) (ls : List Caller) : Prop where
  running : Consistent s.notes
  counter : ∀ month, ((s.keys (.month tenantId month)).map Entry.value).getD 0 =
    runningSum month s.notes
  seen : ∀ l ∈ ls, ∀ total, l.total = some total → ∃ first, l.readings.head? = some first ∧
    Note.added l.id (monthOf first) (max l.tokens 0) total ∈ s.notes

/-- The keys of the alerts and their audits against the calls that asked for them. -/
structure Alerted (tenantId : Nat) (s : Shared) (ls : List Caller) : Prop where
  winner : ∀ day, ls.countP (Caller.acquiredFor day) =
    if (s.keys (.alert tenantId day)).isSome then 1 else 0
  asked : ∀ l ∈ ls, l.acquired.isSome → (s.keys (.alert tenantId (dayOf l.reading))).isSome
  audits : ∀ day, (s.audits.countP fun audit => audit.1 = day) =
    ls.countP (Caller.auditedFor day)
  earned : ∀ l ∈ ls, l.audited = true → l.acquired = some true

section Steps

variable {tenantId : Nat} {s s' : Shared} {ls : List Caller} {i : Nat} {l l' : Caller}

theorem countP_set_eq {p : Caller → Bool} (hl : ls[i]? = some l) (hp : p l' = p l) :
    (ls.set i l').countP p = ls.countP p := by
  have hset := countP_set_add p hl l'
  rw [hp] at hset
  exact Nat.add_right_cancel hset

theorem Counted.keep (h : Counted tenantId s ls) (hl : ls[i]? = some l)
    (hnotes : s'.notes = s.notes)
    (hkeys : ∀ month, (s'.keys (.month tenantId month)).map Entry.value =
      (s.keys (.month tenantId month)).map Entry.value)
    (hcaller : l'.id = l.id ∧ l'.tokens = l.tokens ∧ l'.total = l.total)
    (hfirst : ∀ first, l.readings.head? = some first → l'.readings.head? = some first) :
    Counted tenantId s' (ls.set i l') := by
  refine ⟨hnotes ▸ h.running, fun month => ?_, fun l'' hmem total htotal => ?_⟩
  · rw [hkeys, hnotes, h.counter]
  · rw [hnotes]
    rcases List.mem_or_eq_of_mem_set hmem with hold | rfl
    · exact h.seen l'' hold total htotal
    · obtain ⟨first, hhead, hnote⟩ := h.seen l (List.mem_of_getElem? hl) total
        (hcaller.2.2 ▸ htotal)
      exact ⟨first, hfirst first hhead, by rwa [hcaller.1, hcaller.2.1]⟩

theorem Alerted.keep (h : Alerted tenantId s ls) (hl : ls[i]? = some l)
    (hkeys : ∀ day, s'.keys (.alert tenantId day) = s.keys (.alert tenantId day))
    (haudits : s'.audits = s.audits) (hacquired : l'.acquired = l.acquired)
    (haudited : l'.audited = l.audited)
    (hreading : l.acquired.isSome → l'.reading = l.reading) :
    Alerted tenantId s' (ls.set i l') := by
  have hmem := List.mem_of_getElem? hl
  have hwinner (day : Day) : l'.acquiredFor day = l.acquiredFor day := by
    unfold Caller.acquiredFor
    cases hcase : l.acquired with
    | none => simp [hacquired, hcase]
    | some b => rw [hacquired, hcase, hreading (by simp [hcase])]
  have haudit (day : Day) : l'.auditedFor day = l.auditedFor day := by
    unfold Caller.auditedFor
    cases hcase : l.audited with
    | false => simp [haudited, hcase]
    | true => rw [haudited, hcase, hreading (by simp [h.earned l hmem hcase])]
  refine ⟨fun day => ?_, fun l'' hin => ?_, fun day => ?_, fun l'' hin => ?_⟩
  · rw [countP_set_eq hl (hwinner day), hkeys, h.winner]
  · rw [hkeys]
    rcases List.mem_or_eq_of_mem_set hin with hold | rfl
    · exact h.asked l'' hold
    · intro hasked
      rw [hacquired] at hasked
      rw [hreading hasked]
      exact h.asked l hmem hasked
  · rw [countP_set_eq hl (haudit day), haudits, h.audits]
  · rcases List.mem_or_eq_of_mem_set hin with hold | rfl
    · exact h.earned l'' hold
    · rw [hacquired, haudited]
      exact h.earned l hmem

theorem month_ne {month : Int} {first : Instant} (h : month ≠ monthOf first) :
    Key.month tenantId month ≠ monthKey tenantId first := fun heq => h (Key.month.inj heq).2

theorem Counted.incrBy (h : Counted tenantId s ls) {first : Instant} {c : Choice}
    (hreadings : l.readings = [first])
    (htime : (s.keys (monthKey tenantId first)).all (Entry.alive s.now) = true) :
    Counted tenantId
      (serve s l (.command (.incrBy (monthKey tenantId first) (max l.tokens 0))) c).1
      (ls.set i
        (serve s l (.command (.incrBy (monthKey tenantId first) (max l.tokens 0))) c).2.1) := by
  have hvalue : (incremented s.now s.keys (monthKey tenantId first) (max l.tokens 0)).value =
      runningSum (monthOf first) s.notes + max l.tokens 0 := by
    rw [← h.counter]
    exact incremented_value htime _
  refine ⟨⟨hvalue, h.running⟩, fun month => ?_, fun l' hmem total htotal => ?_⟩
  · show ((put s.keys (monthKey tenantId first) _ (.month tenantId month)).map Entry.value).getD 0 =
      runningSum month (.added l.id (monthOf first) (max l.tokens 0) _ :: s.notes)
    by_cases hmonth : month = monthOf first
    · subst hmonth
      rw [show Key.month tenantId (monthOf first) = monthKey tenantId first from rfl, put_self]
      simp [runningSum, hvalue]
    · rw [put_of_ne (month_ne hmonth), h.counter, runningSum, if_neg (Ne.symm hmonth)]
  · rcases List.mem_or_eq_of_mem_set hmem with hold | rfl
    · obtain ⟨first', hhead, hnote⟩ := h.seen l' hold total htotal
      exact ⟨first', hhead, List.mem_cons_of_mem _ hnote⟩
    · cases htotal
      exact ⟨first, by simp [serve, Caller.learn, hreadings], List.mem_cons_self⟩

theorem Counted.reset (h : Counted tenantId s ls) (hl : ls[i]? = some l) {month total : Int}
    {ttl : Instant} {c : Choice} :
    Counted tenantId (serve s l (.command (.set (.month tenantId month) total ttl)) c).1
      (ls.set i l) := by
  refine ⟨h.running, fun month' => ?_, fun l' hmem total' htotal => ?_⟩
  · show ((put s.keys (.month tenantId month) _ (.month tenantId month')).map Entry.value).getD 0 =
      runningSum month' (.reset month total :: s.notes)
    by_cases hmonth : month' = month
    · subst hmonth
      rw [put_self]
      simp [runningSum]
    · rw [put_of_ne fun heq => hmonth (Key.month.inj heq).2, h.counter, runningSum,
        if_neg (Ne.symm hmonth)]
  · have hold : l' ∈ ls := by
      rcases List.mem_or_eq_of_mem_set hmem with hold | rfl
      · exact hold
      · exact List.mem_of_getElem? hl
    obtain ⟨first, hhead, hnote⟩ := h.seen l' hold total' htotal
    exact ⟨first, hhead, List.mem_cons_of_mem _ hnote⟩

theorem Alerted.setNx (h : Alerted tenantId s ls) (hl : ls[i]? = some l) {value : Int}
    {ttl : Instant} {c : Choice} (hacquired : l.acquired = none)
    (htime : (s.keys (alertKey tenantId l.reading)).all (Entry.alive s.now) = true) :
    Alerted tenantId (serve s l (.command (.setNx (alertKey tenantId l.reading) value ttl)) c).1
      (ls.set i (serve s l (.command (.setNx (alertKey tenantId l.reading) value ttl)) c).2.1) := by
  have hmem := List.mem_of_getElem? hl
  have haudited : l.audited = false := by
    by_contra haudited
    rw [h.earned l hmem (by simpa using haudited)] at hacquired
    cases hacquired
  have hlive := live_of_all htime
  cases hkey : s.keys (alertKey tenantId l.reading) with
  | some e =>
      -- the alert of the day is taken
      have hout := execute_setNx_of_some (hlive.trans hkey) value ttl
      have hsame : ∀ p : Caller → Bool, p { l with acquired := some false } = p l →
          (ls.set i { l with acquired := some false }).countP p = ls.countP p :=
        fun p hp => countP_set_eq hl hp
      simp only [serve, hout, Caller.learn]
      refine ⟨fun day => ?_, fun l' hin hasked => ?_, fun day => ?_, fun l' hin => ?_⟩
      · rw [hsame _ (by simp [Caller.acquiredFor, hacquired]), h.winner]
      · rcases List.mem_or_eq_of_mem_set hin with hold | rfl
        · exact h.asked l' hold hasked
        · exact Option.isSome_of_eq_some hkey
      · rw [hsame _ rfl, h.audits]
      · rcases List.mem_or_eq_of_mem_set hin with hold | rfl
        · exact h.earned l' hold
        · simp [haudited]
  | none =>
      have hout := execute_setNx_of_none (hlive.trans hkey) value ttl
      have htaken : put s.keys (alertKey tenantId l.reading) ⟨value, some (s.now + ttl)⟩
          (.alert tenantId (dayOf l.reading)) = some ⟨value, some (s.now + ttl)⟩ := put_self
      have hother (day : Day) (hday : day ≠ dayOf l.reading) :
          put s.keys (alertKey tenantId l.reading) ⟨value, some (s.now + ttl)⟩
            (.alert tenantId day) = s.keys (.alert tenantId day) :=
        put_of_ne fun heq => hday (Key.alert.inj heq).2
      simp only [serve, hout, Caller.learn]
      refine ⟨fun day => ?_, fun l' hin hasked => ?_, fun day => ?_, fun l' hin => ?_⟩
      · have hset := countP_set_add (Caller.acquiredFor day) hl { l with acquired := some true }
        have hnew : Caller.acquiredFor day { l with acquired := some true } =
            decide (dayOf l.reading = day) := decide_eq_decide.mpr (and_iff_right rfl)
        rw [h.winner, hnew, show l.acquiredFor day = false by simp [Caller.acquiredFor, hacquired]]
          at hset
        by_cases hday : day = dayOf l.reading
        · subst hday
          rw [show s.keys (.alert tenantId (dayOf l.reading)) = none from hkey] at hset
          simpa [htaken] using hset
        · simpa [Ne.symm hday, hother day hday] using hset
      · dsimp only
        rcases List.mem_or_eq_of_mem_set hin with hold | rfl
        · by_cases hday : dayOf l'.reading = dayOf l.reading
          · rw [hday, htaken]
            rfl
          · rw [hother _ hday]
            exact h.asked l' hold hasked
        · exact Option.isSome_of_eq_some htaken
      · exact (h.audits day).trans
          (@countP_set_eq _ _ _ { l with acquired := some true } _ hl rfl).symm
      · rcases List.mem_or_eq_of_mem_set hin with hold | rfl
        · exact h.earned l' hold
        · exact fun _ => rfl

theorem Alerted.audit (h : Alerted tenantId s ls) (hl : ls[i]? = some l) {c : Choice}
    {event : QuotaExceeded} (hacquired : l.acquired = some true) (haudited : l.audited = false) :
    Alerted tenantId (serve s l (.audit event) c).1
      (ls.set i (serve s l (.audit event) c).2.1) := by
  refine ⟨fun day => ?_, fun l' hin => ?_, fun day => ?_, fun l' hin => ?_⟩
  · exact (@countP_set_eq _ _ _ { l with audited := true } _ hl rfl).trans (h.winner day)
  · rcases List.mem_or_eq_of_mem_set hin with hold | rfl
    · exact h.asked l' hold
    · exact h.asked l (List.mem_of_getElem? hl)
  · have hset := countP_set_add (Caller.auditedFor day) hl { l with audited := true }
    rw [← h.audits, show l.auditedFor day = false by simp [Caller.auditedFor, haudited]] at hset
    show (s.audits ++ [(dayOf l.reading, event)]).countP (fun audit => audit.1 = day) =
      (ls.set i { l with audited := true }).countP (Caller.auditedFor day)
    rw [List.countP_append, List.countP_singleton]
    simpa [Caller.auditedFor, Caller.reading] using hset.symm
  · rcases List.mem_or_eq_of_mem_set hin with hold | rfl
    · exact h.earned l' hold
    · exact fun _ => hacquired

theorem alert_kept (s : Shared) (cmd : Command Key Instant) {month : Int}
    (hkey : cmd.key = .month tenantId month) (day : Day) :
    (execute s.now s.keys cmd).1 (.alert tenantId day) = s.keys (.alert tenantId day) :=
  execute_of_ne cmd (by rw [hkey]; nofun)

theorem counted_step {r : Request} {c : Choice} (h : Counted tenantId s ls) (hl : ls[i]? = some l)
    (hallowed : allowed tenantId l r) (htime : inTime s ls i r = true) :
    Counted tenantId (serve s l r c).1 (ls.set i (serve s l r c).2.1) := by
  cases r with
  | now =>
      refine h.keep hl rfl (fun _ => rfl) ⟨rfl, rfl, rfl⟩ fun first hfirst => ?_
      show (l.readings ++ [c.reading]).head? = some first
      rw [List.head?_append, hfirst]
      rfl
  | usageRows since => cases hallowed
  | audit event => exact h.keep hl rfl (fun _ => rfl) ⟨rfl, rfl, rfl⟩ fun _ hfirst => hfirst
  | command cmd =>
      cases cmd with
      | get k => cases hallowed
      | incrBy k amount =>
          obtain ⟨first, hreadings, rfl, rfl⟩ := hallowed
          exact h.incrBy hreadings htime
      | expire k ttl =>
          obtain ⟨⟨month, rfl⟩, -⟩ := hallowed
          exact h.keep hl rfl (fun month' => value_expire s.now s.keys _ ttl _) ⟨rfl, rfl, rfl⟩
            fun _ hfirst => hfirst
      | set k value ttl =>
          obtain ⟨⟨month, rfl⟩, -⟩ := hallowed
          exact h.reset hl
      | setNx k value ttl =>
          obtain ⟨first, second, hreadings, rfl, -⟩ := hallowed
          refine h.keep hl rfl (fun month => ?_) ⟨rfl, rfl, rfl⟩ fun _ hfirst => hfirst
          exact congrArg _ (execute_of_ne _ nofun)

theorem alerted_step {r : Request} {c : Choice} (h : Alerted tenantId s ls) (hl : ls[i]? = some l)
    (hallowed : allowed tenantId l r) (htime : inTime s ls i r = true) :
    Alerted tenantId (serve s l r c).1 (ls.set i (serve s l r c).2.1) := by
  cases r with
  | now =>
      refine h.keep hl (fun _ => rfl) rfl rfl rfl fun hasked => ?_
      rw [hallowed.1] at hasked
      cases hasked
  | usageRows since => cases hallowed
  | audit event => exact h.audit hl hallowed.1 hallowed.2
  | command cmd =>
      cases cmd with
      | get k => cases hallowed
      | incrBy k amount =>
          obtain ⟨first, -, rfl, -⟩ := hallowed
          exact h.keep hl (alert_kept s (.incrBy (monthKey tenantId first) amount) rfl) rfl rfl rfl
            fun _ => rfl
      | expire k ttl =>
          obtain ⟨⟨month, rfl⟩, -⟩ := hallowed
          exact h.keep hl (alert_kept s (.expire (.month tenantId month) ttl) rfl) rfl rfl rfl
            fun _ => rfl
      | set k value ttl =>
          obtain ⟨⟨month, rfl⟩, -⟩ := hallowed
          exact h.keep hl (alert_kept s (.set (.month tenantId month) value ttl) rfl) rfl rfl rfl
            fun _ => rfl
      | setNx k value ttl =>
          obtain ⟨first, second, hreadings, rfl, hacquired, -⟩ := hallowed
          obtain rfl : l.reading = second := by simp [Caller.reading, hreadings]
          exact h.setNx hl hacquired htime

end Steps

section Runs

variable {tenantId : Nat} {day : Day}

theorem perform_fresh (id : Nat) (operation : Operation) :
    (perform tenantId id operation).1.total = none ∧
      (perform tenantId id operation).1.acquired = none ∧
      (perform tenantId id operation).1.audited = false := by
  cases operation <;> exact ⟨rfl, rfl, rfl⟩

theorem mem_launch {start : Instant} {operations : List Operation}
    {thread : Caller × Act (Option QuotaOutcome)}
    (h : thread ∈ (launch tenantId start operations).threads) :
    ∃ id operation, thread = perform tenantId id operation := by
  obtain ⟨id, hid, hthread⟩ := List.mem_mapIdx.mp h
  exact ⟨id, _, hthread.symm⟩

theorem local_launch {start : Instant} {operations : List Operation} {l : Caller}
    (h : l ∈ (launch tenantId start operations).locals) :
    l.total = none ∧ l.acquired = none ∧ l.audited = false := by
  obtain ⟨thread, hthread, rfl⟩ := List.mem_map.mp h
  obtain ⟨id, operation, rfl⟩ := mem_launch hthread
  exact perform_fresh id operation

theorem counted_launch (start : Instant) (operations : List Operation) :
    Counted tenantId (launch tenantId start operations).shared
      (launch tenantId start operations).locals := by
  refine ⟨trivial, fun _ => rfl, fun l hl total htotal => ?_⟩
  rw [(local_launch hl).1] at htotal
  cases htotal

theorem alerted_launch (start : Instant) (operations : List Operation) :
    Alerted tenantId (launch tenantId start operations).shared
      (launch tenantId start operations).locals := by
  refine ⟨fun day => ?_, fun l hl hasked => ?_, fun day => ?_, fun l hl haudited => ?_⟩
  · refine List.countP_eq_zero.mpr fun l hl => ?_
    simp [Caller.acquiredFor, (local_launch hl).2.1]
  · rw [(local_launch hl).2.1] at hasked
    cases hasked
  · refine (List.countP_eq_zero.mpr fun l hl => ?_).symm
    simp [Caller.auditedFor, (local_launch hl).2.2]
  · rw [(local_launch hl).2.2] at haudited
    cases haudited

theorem alertsOf_finished {pool : AlertPool}
    (halerted : Alerted tenantId pool.shared pool.locals) (hfinished : Finished pool)
    (hended : ∀ thread ∈ pool.threads,
      Follows serve (allowed tenantId) Ended thread.1 thread.2) (day : Day) :
    alertsOf day pool = 1 ↔ (pool.shared.keys (.alert tenantId day)).isSome := by
  have hsame : pool.locals.countP (Caller.auditedFor day) =
      pool.locals.countP (Caller.acquiredFor day) := by
    refine List.countP_congr fun l hl => ?_
    obtain ⟨⟨l, p⟩, hthread, rfl⟩ := List.mem_map.mp hl
    obtain ⟨a, hret⟩ := hfinished _ hthread
    obtain rfl : p = .ret a := hret
    have hend : Ended l (.ok a) := hended _ hthread
    simp only [Caller.auditedFor, Caller.acquiredFor, decide_eq_true_eq]
    refine and_congr_left fun _ => ?_
    cases a with
    | none => simp [hend.2.1, hend.2.2]
    | some outcome =>
        obtain ⟨first, -, ⟨-, second, b, -, hacquired, haudited⟩ | ⟨-, -, hacquired, haudited⟩⟩ :=
          hend
        · simp [hacquired, haudited]
        · simp [hacquired, haudited]
  rw [alertsOf, halerted.audits, hsame, halerted.winner]
  cases (pool.shared.keys (.alert tenantId day)).isSome <;> simp

theorem follows_launch (tenantId : Nat) (start : Instant) (operations : List Operation) :
    ∀ thread ∈ (launch tenantId start operations).threads,
      Follows serve (allowed tenantId) Ended thread.1 thread.2 := by
  intro thread hthread
  obtain ⟨id, operation, rfl⟩ := mem_launch hthread
  exact follows_perform id operation

theorem disciplined_launch (tenantId : Nat) (start : Instant) (operations : List Operation) :
    Disciplined serve (allowed tenantId) (launch tenantId start operations) :=
  fun thread hthread => (follows_launch tenantId start operations thread hthread).mono
    fun _ _ _ => trivial

/-- Over any interleaving in which no increment and no request for an alert finds its
key expired, every call reads the running sum of its month and every day with an
excess has exactly one alert. -/
theorem alerts_once_per_day (tenantId : Nat) (start : Instant) (operations : List Operation)
    (schedule : List (Nat × Choice)) (pool : AlertPool)
    (halong : Along alertStep (StepMeets fun s ls i r => inTime s ls i r = true)
      (launch tenantId start operations) schedule)
    (hrun : run alertStep (launch tenantId start operations) schedule = some pool) :
    OncePerDay pool := by
  have hdisciplined := disciplined_launch tenantId start operations
  have hcounted : Counted tenantId pool.shared pool.locals :=
    pool_invariant (fun _ _ _ _ _ _ h hl hallowed htime => counted_step h hl hallowed htime)
      hdisciplined (counted_launch start operations) halong hrun
  have halerted : Alerted tenantId pool.shared pool.locals :=
    pool_invariant (fun _ _ _ _ _ _ h hl hallowed htime => alerted_step h hl hallowed htime)
      hdisciplined (alerted_launch start operations) halong hrun
  have hended := pool_follows (follows_launch tenantId start operations) hrun
  refine ⟨hcounted.running, ?_, fun day => ?_, fun hfinished day => ?_⟩
  · rintro ⟨l, p⟩ hthread outcome rfl
    obtain ⟨-, htotal, -⟩ : Ended l (.ok (some outcome)) := hended _ hthread
    exact hcounted.seen l (List.mem_map_of_mem hthread) _ htotal
  · calc alertsOf day pool = pool.locals.countP (Caller.auditedFor day) := halerted.audits day
      _ ≤ pool.locals.countP (Caller.acquiredFor day) := by
          refine List.countP_mono_left fun l hl haudited => ?_
          simp only [Caller.auditedFor, Caller.acquiredFor, decide_eq_true_eq] at haudited ⊢
          exact ⟨halerted.earned l hl haudited.1, haudited.2⟩
      _ ≤ 1 := by
          rw [halerted.winner]
          split <;> omega
  · rw [alertsOf_finished halerted hfinished hended]
    constructor
    · intro htaken
      have hone := halerted.winner day
      rw [if_pos htaken] at hone
      obtain ⟨l, hl, hacquired⟩ := List.countP_pos_iff.mp (hone ▸ Nat.one_pos)
      obtain ⟨⟨l, p⟩, hthread, rfl⟩ := List.mem_map.mp hl
      obtain ⟨a, hret⟩ := hfinished _ hthread
      obtain rfl : p = .ret a := hret
      have hend : Ended l (.ok a) := hended _ hthread
      simp only [Caller.acquiredFor, decide_eq_true_eq] at hacquired
      obtain ⟨hacquired, hday⟩ := hacquired
      cases a with
      | none => simp [hend.2.1] at hacquired
      | some outcome =>
          obtain ⟨first, -, ⟨hover, second, b, hreadings, -, -⟩ | ⟨-, -, hnone, -⟩⟩ := hend
          · refine ⟨_, hthread, outcome, first, second, rfl, hreadings, hover, ?_⟩
            simpa [Caller.reading, hreadings] using hday
          · simp [hnone] at hacquired
    · rintro ⟨⟨l, p⟩, hthread, outcome, first, second, rfl, hreadings, hover, hday⟩
      have hend : Ended l (.ok (some outcome)) := hended _ hthread
      obtain ⟨first', -, ⟨-, second', b, -, hacquired, -⟩ | ⟨hnot, -⟩⟩ := hend
      · have hasked := halerted.asked l (List.mem_map_of_mem hthread) (by simp [hacquired])
        have hreading : l.reading = second := by
          rw [Caller.reading, show l.readings = [first, second] from hreadings]
          rfl
        rwa [hreading, hday] at hasked
      · exact absurd hover hnot

/-- The instant falls in the month, or on the day, that the key is stamped with. -/
def covers : Key → Instant → Bool
  | .month _ month, t => monthOf t = month
  | .alert _ day, t => dayOf t = day

/-- A command takes effect in the month, or on the day, of its key. -/
def prompt (s : Shared) (_ : List Caller) (_ : Nat) (r : Request) : Bool :=
  match r with
  | .command cmd => covers cmd.key s.now
  | _ => true

/-- No key expires in its month or on its day. -/
def Lasting (keys : Keyspace Key Instant) : Prop :=
  ∀ k e, keys k = some e → ∀ expiry ∈ e.expiry, ∀ t, covers k t = true → t < expiry

theorem lt_add_alertTtl {t t' : Instant} (h : dayOf t' = dayOf t) : t' < t + alertTtl := by
  unfold alertTtl
  unfold dayOf at h
  have hpos : (0 : Int) < microsecondsPerDay := by decide
  have hstart := Int.mul_ediv_self_le (x := t) hpos.ne'
  have hend := Int.lt_mul_ediv_self_add (x := t') hpos
  rw [h] at hend
  linarith only [hstart, hend]

theorem Lasting.put {keys : Keyspace Key Instant} {k : Key} {e : Entry Instant}
    (h : Lasting keys) (he : ∀ expiry ∈ e.expiry, ∀ t, covers k t = true → t < expiry) :
    Lasting (Valkey.put keys k e) := by
  intro k' e' hk' expiry hexpiry
  by_cases hkey : k' = k
  · subst hkey
    rw [put_self] at hk'
    cases hk'
    exact he expiry hexpiry
  · rw [put_of_ne hkey] at hk'
    exact h k' e' hk' expiry hexpiry

theorem lasting_step {s : Shared} {ls : List Caller} {i : Nat} {l : Caller} {r : Request}
    {c : Choice} (h : Lasting s.keys) (hallowed : allowed tenantId l r)
    (hprompt : prompt s ls i r = true) :
    Lasting (serve s l r c).1.keys := by
  cases r with
  | now => exact h
  | usageRows since => exact h
  | audit event => exact h
  | command cmd =>
      -- What expires a counter or an alert key is sent in its month or on its day.
      have hmonth (month : Int) (hnow : covers (.month tenantId month) s.now = true) :
          ∀ expiry ∈ some (s.now + monthTtl), ∀ t, covers (.month tenantId month) t = true →
            t < expiry := by
        intro expiry hexpiry t ht
        cases hexpiry
        exact lt_add_monthTtl ((of_decide_eq_true ht).trans (of_decide_eq_true hnow).symm)
      cases cmd with
      | get k => cases hallowed
      | incrBy k amount =>
          refine h.put fun expiry hexpiry => ?_
          unfold incremented at hexpiry
          split at hexpiry
          · rename_i e hlive
            exact h k e (live_eq_some.mp hlive).1 expiry hexpiry
          · cases hexpiry
      | expire k ttl =>
          obtain ⟨⟨month, rfl⟩, rfl⟩ := hallowed
          simp only [serve, execute]
          split
          · exact h.put (hmonth month hprompt)
          · exact h
      | set k value ttl =>
          obtain ⟨⟨month, rfl⟩, rfl⟩ := hallowed
          exact h.put (hmonth month hprompt)
      | setNx k value ttl =>
          obtain ⟨first, second, -, rfl, -, rfl⟩ := hallowed
          simp only [serve, execute]
          split
          · exact h
          · refine h.put fun expiry hexpiry t ht => ?_
            cases hexpiry
            exact lt_add_alertTtl ((of_decide_eq_true ht).trans (of_decide_eq_true hprompt).symm)

theorem inTime_of_prompt {s : Shared} {ls : List Caller} {i : Nat} {r : Request}
    (h : Lasting s.keys) (hprompt : prompt s ls i r = true) : inTime s ls i r = true := by
  have halive (k : Key) (hnow : covers k s.now = true) :
      (s.keys k).all (Entry.alive s.now) = true := by
    rw [Option.all_eq_true]
    intro e hk
    rw [Entry.alive, Option.all_eq_true]
    exact fun expiry hexpiry => decide_eq_true (h k e hk expiry hexpiry s.now hnow)
  cases r with
  | command cmd =>
      cases cmd with
      | incrBy k amount => exact halive k hprompt
      | setNx k value ttl => exact halive k hprompt
      | get k => rfl
      | expire k ttl => rfl
      | set k value ttl => rfl
  | _ => rfl

/-- Calls whose commands take effect in the month and on the day of their clock readings
find no key expired. -/
theorem alerts_once_per_day_of_prompt (tenantId : Nat) (start : Instant)
    (operations : List Operation) (schedule : List (Nat × Choice)) (pool : AlertPool)
    (halong : Along alertStep (StepMeets fun s ls i r => prompt s ls i r = true)
      (launch tenantId start operations) schedule)
    (hrun : run alertStep (launch tenantId start operations) schedule = some pool) :
    OncePerDay pool := by
  refine alerts_once_per_day tenantId start operations schedule pool ?_ hrun
  have hlaunched : Lasting (launch tenantId start operations).shared.keys := nofun
  have hdisciplined := disciplined_launch tenantId start operations
  refine @along_of_pool_invariant _ _ _ _ _ _ serve (allowed tenantId)
    (fun s ls i r => prompt s ls i r = true) (fun s ls i r => inTime s ls i r = true)
    (fun s _ => Lasting s.keys) ?_ ?_ _ _ hdisciplined hlaunched halong
  · exact fun s ls i l r c h hl hallowed hprompt => lasting_step h hallowed hprompt
  · exact fun s ls i r h hprompt => inTime_of_prompt h hprompt

end Runs

/-- Half a second after midnight, on the 10th of January 2024. -/
def morning : Instant := 1704844800500000

/-- A tenth of a second before the next midnight. -/
def evening : Instant := 1704931199900000

def atMorning : Choice := { reading := morning }

def bigCall : Operation := .record 5000 1000

/-- A call that is over its quota and raises the alert. -/
def firstCall : List (Nat × Choice) :=
  [(0, atMorning), (0, atMorning), (0, atMorning), (0, atMorning), (0, atMorning),
    (0, { elapsed := 86399400000 })]

/-- Another call reads the clock in the evening; its `SET NX` takes effect 0.7
seconds later. -/
def lateCall : List (Nat × Choice) :=
  [(1, { reading := evening }), (1, {}), (1, { reading := evening, elapsed := 700000 }), (1, {}),
    (1, {})]

theorem first_call_alerts : ∃ pool, run alertStep (launch 1 morning [bigCall]) firstCall =
    some pool ∧ OncePerDay pool ∧ alertsOf 19732 pool = 1 :=
  ⟨_, rfl, alerts_once_per_day 1 morning [bigCall] firstCall _ (by decide +kernel) rfl,
    by decide +kernel⟩

/-- The key of the day has expired when the late call sets it. -/
theorem late_call_alerts_again : ¬ ∀ (schedule : List (Nat × Choice)) (pool : AlertPool),
    run alertStep (launch 1 morning [bigCall, bigCall]) schedule = some pool →
      OncePerDay pool := by
  intro h
  have htwice : (run alertStep (launch 1 morning [bigCall, bigCall])
      (firstCall ++ lateCall)).any (fun pool => alertsOf 19732 pool == 2) = true := by
    decide +kernel
  obtain ⟨pool, hrun, htwo⟩ := (Option.any_eq_true _ _).mp htwice
  have hle := (h _ pool hrun).atMostOne 19732
  rw [beq_iff_eq.mp htwo] at hle
  exact absurd hle (by decide)

end Socle.QuotaAlerts
