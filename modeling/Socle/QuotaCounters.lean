import Mathlib.Tactic.Linarith
import Socle.Gregorian
import Socle.Procedures
import Socle.UsageRollup
import Socle.Valkey

/-!
The counters of the monthly quotas: `app.ai.quota` and the daily task that resets
the counters to the sums of the usage events.  Every clock reading, every command,
the grouped query and the audit of an alert are requests.
-/

namespace Socle.QuotaCounters

open Socle.Gregorian Socle.Procedures Socle.Valkey
open Socle.DirectoryStore (Instant)
open Socle.UsageRollup (UsageEvent Day dayOf startOf microsecondsPerDay)

/-- The 1st of January 1970, in days since the 1st of January of the year 1. -/
def epochDay : Int := 719162

/-- `f"{now:%Y-%m}"`: the month of an instant, as its index. -/
def monthOf (now : Instant) : Int := monthOfDay (dayOf now + epochDay)

/-- `now.replace(day=1, hour=0, minute=0, second=0, microsecond=0)`. -/
def monthStart (now : Instant) : Instant := startOf (startOfMonth (monthOf now) - epochDay)

/-! ### Keys and events -/

/-- `_month_key` and `_alert_key`: the tenant with the month or the day that the
key is stamped with. -/
inductive Key where
  | month (tenantId : Nat) (month : Int)
  | alert (tenantId : Nat) (day : Day)
  deriving DecidableEq, Repr

/-- `_month_key`. -/
def monthKey (tenantId : Nat) (now : Instant) : Key := .month tenantId (monthOf now)

/-- `_alert_key`. -/
def alertKey (tenantId : Nat) (now : Instant) : Key := .alert tenantId (dayOf now)

/-- `MONTH_TTL_SECONDS`, in microseconds. -/
def monthTtl : Instant := 62 * microsecondsPerDay

/-- `ALERT_TTL_SECONDS`, in microseconds. -/
def alertTtl : Instant := microsecondsPerDay

/-- The audit event `core.ai.quota_exceeded` of an alert. -/
structure QuotaExceeded where
  tenantId : Nat
  resourceMonth : Int
  monthUsage : Int
  monthlyTokenQuota : Int
  deriving DecidableEq, Repr

/-- What the module awaits. -/
inductive Request where
  | now
  | command (c : Command Key Instant)
  | usageRows (since : Instant)
  | audit (event : QuotaExceeded)

@[reducible] def Answer : Request → Type
  | .now => Instant
  | .command c => Valkey.Answer c
  | .usageRows _ => List (Nat × Int)
  | .audit _ => Unit

abbrev counters : Interface := ⟨Request, Answer⟩

abbrev Act (α : Type) := Proc counters Empty α

/-- `datetime.now(UTC)`. -/
def now : Act Instant := request (I := counters) Request.now

def command (c : Command Key Instant) : Act (Valkey.Answer c) :=
  request (I := counters) (Request.command c)

/-! ### `app.ai.quota` -/

/-- `current_usage`. -/
def currentUsage (tenantId : Nat) : Act Int := do
  let at_ ← now
  let raw ← command (.get (monthKey tenantId at_))
  return raw.getD 0

/-- `add_usage`. -/
def addUsage (tenantId : Nat) (tokens : Int) : Act Int := do
  let key := monthKey tenantId (← now)
  let newTotal ← command (.incrBy key (max tokens 0))
  if newTotal = tokens then
    command (.expire key monthTtl)
  return newTotal

/-- `reconcile`. -/
def reconcile (tenantId : Nat) (monthTotal : Int) : Act Unit := do
  let key := monthKey tenantId (← now)
  command (.set key (max monthTotal 0) monthTtl)

/-- `_emit_alert_once`. -/
def emitAlertOnce (tenantId : Nat) (monthUsage quota : Int) : Act Bool := do
  let moment ← now
  let acquired ← command (.setNx (alertKey tenantId moment) 1 alertTtl)
  if !acquired then
    return false
  request (I := counters) (Request.audit ⟨tenantId, monthOf moment, monthUsage, quota⟩)
  return true

structure QuotaOutcome where
  monthUsage : Int
  overQuota : Bool
  alerted : Bool
  deriving DecidableEq, Repr

/-- `record_and_alert`. -/
def recordAndAlert (tenantId : Nat) (addedTokens quota : Int) : Act QuotaOutcome := do
  let monthUsage ← addUsage tenantId addedTokens
  let overQuota := decide (quota < monthUsage)
  let alerted ← if overQuota then emitAlertOnce tenantId monthUsage quota else pure false
  return ⟨monthUsage, overQuota, alerted⟩

/-! ### `reconcile_month_quotas` -/

def reconcileEach : List (Nat × Int) → Act Unit
  | [] => return ()
  | (tenantId, total) :: rows => do
      reconcile tenantId total
      reconcileEach rows

/-- `reconcile_month_quotas`. -/
def reconcileMonthQuotas : Act Unit := do
  let moment ← now
  let rows ← request (I := counters) (Request.usageRows (monthStart moment))
  reconcileEach rows

/-- The tokens of a tenant's events of some kind. -/
def tokensOf (tenantId : Nat) (counted : Instant → Bool) (events : List UsageEvent) : Int :=
  ((events.filter fun e => e.tenantId = tenantId ∧ counted e.occurredAt).map fun e =>
    e.inputTokens + e.outputTokens).sum

/-- The grouped query: a row for each tenant with an event since then. -/
def usageRows (since : Instant) (events : List UsageEvent) : List (Nat × Int) :=
  ((events.filter fun e => since ≤ e.occurredAt).map UsageEvent.tenantId).dedup.map fun tenantId =>
    (tenantId, tokensOf tenantId (fun occurredAt => since ≤ occurredAt) events)

theorem startOf_le_iff {day : Day} {t : Instant} : startOf day ≤ t ↔ day ≤ dayOf t :=
  (Int.le_ediv_iff_mul_le (by decide)).symm

/-- An instant is in the month of `now` or in a later one exactly from the start
of that month on. -/
theorem monthStart_le_iff {now t : Instant} : monthStart now ≤ t ↔ monthOf now ≤ monthOf t := by
  unfold monthStart
  rw [startOf_le_iff, sub_le_iff_le_add, startOfMonth_le_iff]
  exact Iff.rfl

theorem monthOf_mono {t t' : Instant} (h : t ≤ t') : monthOf t ≤ monthOf t' :=
  monthStart_le_iff.mp ((monthStart_le_iff.mpr le_rfl).trans h)

theorem lt_add_monthTtl {t t' : Instant} (h : monthOf t' = monthOf t) : t' < t + monthTtl := by
  have hdays : dayOf t' + epochDay < dayOf t + epochDay + 31 := lt_add_of_monthOfDay_eq h
  have hend : ¬ startOf (dayOf t' + 1) ≤ t' := by
    rw [startOf_le_iff]
    exact not_le.mpr (Int.lt_succ _)
  have hstart : startOf (dayOf t) ≤ t := startOf_le_iff.mpr le_rfl
  have hday : dayOf t' + 1 ≤ dayOf t + 31 := by
    linarith only [Int.add_one_le_of_lt hdays]
  have hle : startOf (dayOf t' + 1) ≤ startOf (dayOf t + 31) :=
    Int.mul_le_mul_of_nonneg_right hday (by decide)
  have hsplit : startOf (dayOf t + 31) = startOf (dayOf t) + 31 * microsecondsPerDay :=
    Int.add_mul ..
  have hpos : (0 : Int) < microsecondsPerDay := by decide
  unfold monthTtl
  rw [not_le] at hend
  linarith only [hend, hstart, hle, hsplit, hpos]

end Socle.QuotaCounters
