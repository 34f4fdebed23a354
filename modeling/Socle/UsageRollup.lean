import Mathlib.Algebra.Ring.Int.Defs
import Socle.DirectoryStore
import Socle.KeyedTable

/-!
Usage events, their daily aggregates and the retention of the raw events: what
`record_usage`, `aggregate_day` and `purge_raw_events` commit.
-/

namespace Socle.UsageRollup

open Socle.KeyedTable
open Socle.DirectoryStore (Instant)

/-- `UsageStatus`. -/
inductive UsageStatus where
  | ok
  | error
  | timeout
  deriving DecidableEq, Repr

/-- A UTC date, as the number of days since the epoch. -/
abbrev Day := Int

def microsecondsPerDay : Int := 86400000000

/-- `.date()` of an instant in UTC. -/
def dayOf (t : Instant) : Day := t / microsecondsPerDay

/-- `datetime.combine(day, datetime.min.time(), tzinfo=UTC)`. -/
def startOf (day : Day) : Instant := day * microsecondsPerDay

/-- The columns of `AIUsageEvent` the rollup reads. -/
structure UsageEvent where
  id : Nat
  occurredAt : Instant
  tenantId : Nat
  provider : String
  model : String
  inputTokens : Int
  outputTokens : Int
  cachedTokens : Int
  estimatedCostMicroeur : Int
  status : UsageStatus
  deriving DecidableEq, Repr

/-- The primary key of `AIUsageDaily`. -/
structure UsageKey where
  day : Day
  tenantId : Nat
  provider : String
  model : String
  deriving DecidableEq, Repr

def UsageEvent.key (e : UsageEvent) : UsageKey :=
  ⟨dayOf e.occurredAt, e.tenantId, e.provider, e.model⟩

structure Totals where
  inputTokens : Int
  outputTokens : Int
  cachedTokens : Int
  requestCount : Nat
  errorCount : Nat
  estimatedCostMicroeur : Int
  deriving DecidableEq, Repr

/-- The sums and counts of a group. -/
def totalsOf (events : List UsageEvent) : Totals where
  inputTokens := (events.map (·.inputTokens)).sum
  outputTokens := (events.map (·.outputTokens)).sum
  cachedTokens := (events.map (·.cachedTokens)).sum
  requestCount := events.length
  errorCount := (events.filter fun e => e.status != .ok).length
  estimatedCostMicroeur := (events.map (·.estimatedCostMicroeur)).sum

/-- A row of `AIUsageDaily`.  The program does not store the events it counts. -/
structure UsageDaily where
  key : UsageKey
  totals : Totals
  counted : List UsageEvent
  deriving DecidableEq

/-- The two tables. -/
structure Usage where
  events : List UsageEvent
  daily : List UsageDaily
  deriving DecidableEq

/-- The events `aggregate_day` selects. -/
def eventsOfDay (day : Day) (events : List UsageEvent) : List UsageEvent :=
  events.filter fun e =>
    decide (startOf day ≤ e.occurredAt) && decide (e.occurredAt < startOf day + microsecondsPerDay)

def eventsOfKey (key : UsageKey) (events : List UsageEvent) : List UsageEvent :=
  events.filter fun e => decide (e.key = key)

/-- One row for each group of the SELECT. -/
def groupRows (day : Day) (events : List UsageEvent) : List UsageDaily :=
  let selected := eventsOfDay day events
  (selected.map UsageEvent.key).dedup.map fun key =>
    ⟨key, totalsOf (eventsOfKey key selected), eventsOfKey key selected⟩

/-- `aggregate_day`: the recomputed rows replace those of their keys. -/
def aggregateDay (day : Day) (u : Usage) : Usage :=
  { u with daily := upsertAll UsageDaily.key u.daily (groupRows day u.events) }

/-- The instant before which `purge_raw_events` deletes. -/
def purgeCutoff (retentionDays : Int) (now : Instant) : Instant :=
  now - retentionDays * microsecondsPerDay

def expired (retentionDays : Int) (now : Instant) (e : UsageEvent) : Bool :=
  decide (e.occurredAt < purgeCutoff retentionDays now)

/-- `purge_raw_events`. -/
def purgeRawEvents (retentionDays : Int) (now : Instant) (u : Usage) : Usage :=
  { u with events := u.events.filter fun e => !expired retentionDays now e }

/-- `record_usage`, when the insert is accepted. -/
def recordUsage (e : UsageEvent) (u : Usage) : Usage := { u with events := u.events ++ [e] }

theorem dayOf_eq_iff (t day : Int) :
    dayOf t = day ↔ startOf day ≤ t ∧ t < startOf day + microsecondsPerDay := by
  show t / (86400000000 : Int) = day ↔
    day * (86400000000 : Int) ≤ t ∧ t < day * (86400000000 : Int) + (86400000000 : Int)
  omega

theorem mem_eventsOfDay {day : Day} {events : List UsageEvent} {e : UsageEvent} :
    e ∈ eventsOfDay day events ↔ e ∈ events ∧ e.key.day = day := by
  have hday : e.key.day = day ↔ startOf day ≤ e.occurredAt ∧
      e.occurredAt < startOf day + microsecondsPerDay := dayOf_eq_iff e.occurredAt day
  rw [eventsOfDay, List.mem_filter, hday, Bool.and_eq_true, decide_eq_true_iff, decide_eq_true_iff]

theorem mem_eventsOfKey {key : UsageKey} {events : List UsageEvent} {e : UsageEvent} :
    e ∈ eventsOfKey key events ↔ e ∈ events ∧ e.key = key := by
  simp [eventsOfKey]

theorem eventsOfKey_eventsOfDay (key : UsageKey) (events : List UsageEvent) :
    eventsOfKey key (eventsOfDay key.day events) = eventsOfKey key events := by
  unfold eventsOfKey eventsOfDay
  rw [List.filter_filter]
  refine List.filter_congr fun e _ => ?_
  by_cases hkey : e.key = key
  · have hday : dayOf e.occurredAt = key.day := by
      rw [← hkey]
      rfl
    obtain ⟨hlo, hhi⟩ := (dayOf_eq_iff e.occurredAt key.day).mp hday
    simp [hkey, hlo, hhi]
  · simp [hkey]

theorem mem_groupRows {day : Day} {events : List UsageEvent} {row : UsageDaily} :
    row ∈ groupRows day events ↔ row.key.day = day ∧ eventsOfKey row.key events ≠ [] ∧
      row.totals = totalsOf (eventsOfKey row.key events) ∧
      row.counted = eventsOfKey row.key events := by
  simp only [groupRows, List.mem_map, List.mem_dedup]
  constructor
  · rintro ⟨key, ⟨e, he, hkey⟩, rfl⟩
    obtain ⟨hmem, hday⟩ := mem_eventsOfDay.mp he
    have hkeyDay : key.day = day := hkey ▸ hday
    subst hkeyDay
    rw [eventsOfKey_eventsOfDay]
    exact ⟨rfl, List.ne_nil_of_mem (mem_eventsOfKey.mpr ⟨hmem, hkey⟩), rfl, rfl⟩
  · rintro ⟨rfl, hsome, htotals, hcounted⟩
    obtain ⟨e, he⟩ := List.exists_mem_of_ne_nil _ hsome
    obtain ⟨hmem, hkey⟩ := mem_eventsOfKey.mp he
    refine ⟨row.key, ⟨e, mem_eventsOfDay.mpr ⟨hmem, by rw [hkey]⟩, hkey⟩, ?_⟩
    rw [eventsOfKey_eventsOfDay, ← htotals, ← hcounted]

theorem nodup_groupRows (day : Day) (events : List UsageEvent) :
    ((groupRows day events).map UsageDaily.key).Nodup := by
  have hkeys : (groupRows day events).map UsageDaily.key =
      ((eventsOfDay day events).map UsageEvent.key).dedup := by
    simp [groupRows, Function.comp_def]
  rw [hkeys]
  exact List.nodup_dedup _

theorem lookup_aggregateDay_of_events {u : Usage} {key : UsageKey}
    (hsome : eventsOfKey key u.events ≠ []) :
    lookup UsageDaily.key key (aggregateDay key.day u).daily =
      some ⟨key, totalsOf (eventsOfKey key u.events), eventsOfKey key u.events⟩ := by
  have hrow : (⟨key, totalsOf (eventsOfKey key u.events), eventsOfKey key u.events⟩ : UsageDaily) ∈
      groupRows key.day u.events := mem_groupRows.mpr ⟨rfl, hsome, rfl, rfl⟩
  exact lookup_upsertAll_of_mem u.daily (nodup_groupRows key.day u.events) hrow

theorem lookup_aggregateDay_of_other {u : Usage} {day : Day} {key : UsageKey}
    (hother : key.day ≠ day ∨ eventsOfKey key u.events = []) :
    lookup UsageDaily.key key (aggregateDay day u).daily = lookup UsageDaily.key key u.daily := by
  refine lookup_upsertAll_of_notMem u.daily ?_
  rintro row hrow rfl
  obtain ⟨hday, hsome, -⟩ := mem_groupRows.mp hrow
  rcases hother with hne | hnone
  · exact hne hday
  · exact hsome hnone

end Socle.UsageRollup
