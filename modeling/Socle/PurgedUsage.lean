import Socle.GuardedRuns
import Socle.UsageRollup

/-!
The daily rollup over whole runs.  It aggregates the day before its own clock
reading and purges by the age of the events, so what keeps an uncounted event
from being purged is a rollup on the day after it.
-/

namespace Socle.PurgedUsage

open Socle.GuardedRuns
open Socle.KeyedTable
open Socle.DirectoryStore (Instant)
open Socle.UsageRollup

/-- What a rollup commits, in two transactions with their own readings of the
clock, and the insertions between them. -/
inductive Step where
  | record (event : UsageEvent)
  | aggregate (now : Instant)
  | purge (now : Instant)
  deriving DecidableEq

/-- The day `_run_daily_rollup` aggregates. -/
def yesterday (now : Instant) : Day := dayOf (now - microsecondsPerDay)

/-- The event is counted in the row of its day, tenant, provider and model. -/
def counts (daily : List UsageDaily) (e : UsageEvent) : Bool :=
  (lookup UsageDaily.key e.key daily).any fun row => row.counted.contains e

/-- The two tables, the steps so far, and the purged events, each with whether
it was counted when it was deleted. -/
structure Journal where
  usage : Usage
  history : List Step
  purged : List (UsageEvent × Bool)
  deriving DecidableEq

def Journal.empty : Journal := ⟨⟨[], []⟩, [], []⟩

def step (retentionDays : Int) (s : Journal) : Step → Option Journal
  | .record e =>
      if s.history.contains (.record e) then none
      else some { s with usage := recordUsage e s.usage, history := s.history ++ [.record e] }
  | .aggregate now =>
      some { s with
        usage := aggregateDay (yesterday now) s.usage
        history := s.history ++ [.aggregate now] }
  | .purge now =>
      let deleted := s.usage.events.filter (expired retentionDays now)
      some
        { usage := purgeRawEvents retentionDays now s.usage
          history := s.history ++ [.purge now]
          purged := s.purged ++ deleted.map fun e => (e, counts s.usage.daily e) }

/-- A rollup whose clock shows the day after. -/
def rollsUp (day : Day) : Step → Bool
  | .aggregate now => decide (dayOf now = day + 1)
  | _ => false

/-- Since the event was recorded, a rollup ran on the day after it. -/
def rolledUp (history : List Step) (e : UsageEvent) : Bool :=
  (history.dropWhile fun a => decide (a ≠ .record e)).any (rollsUp (dayOf e.occurredAt))

/-- The condition on the steps of a run: a purge finds no event beyond the
retention that missed the rollup of its day. -/
def purgesRolledUp (retentionDays : Int) (s : Journal) : Step → Bool
  | .purge now => (s.usage.events.filter (expired retentionDays now)).all (rolledUp s.history)
  | _ => true

theorem yesterday_eq_iff (now day : Int) : yesterday now = day ↔ dayOf now = day + 1 := by
  show (now - (86400000000 : Int)) / (86400000000 : Int) = day ↔
    now / (86400000000 : Int) = day + 1
  omega

theorem rolledUp_append {history : List Step} {e : UsageEvent} (h : .record e ∈ history)
    (a : Step) :
    rolledUp (history ++ [a]) e = (rolledUp history e || rollsUp (dayOf e.occurredAt) a) := by
  have hdrop : (history ++ [a]).dropWhile (fun a => decide (a ≠ .record e)) =
      history.dropWhile (fun a => decide (a ≠ .record e)) ++ [a] := by
    induction history with
    | nil => cases h
    | cons x rest ih =>
        by_cases hx : x = .record e
        · simp [hx]
        · have hrest : Step.record e ∈ rest := by
            rcases List.mem_cons.mp h with heq | hmem
            · exact absurd heq.symm hx
            · exact hmem
          rw [List.cons_append, List.dropWhile_cons_of_pos (by simpa using hx),
            List.dropWhile_cons_of_pos (by simpa using hx)]
          exact ih hrest
  rw [rolledUp, hdrop, List.any_append, rolledUp]
  simp

theorem not_rolledUp_record {history : List Step} {e : UsageEvent} (h : .record e ∉ history) :
    rolledUp (history ++ [.record e]) e = false := by
  have hdrop : (history ++ [Step.record e]).dropWhile (fun a => decide (a ≠ .record e)) =
      [Step.record e] := by
    induction history with
    | nil => simp
    | cons x rest ih =>
        have hx : x ≠ Step.record e := fun heq => h (heq ▸ List.mem_cons_self)
        have hrest : Step.record e ∉ rest := fun hmem => h (List.mem_cons_of_mem _ hmem)
        rw [List.cons_append, List.dropWhile_cons_of_pos (by simpa using hx)]
        exact ih hrest
  rw [rolledUp, hdrop]
  rfl

structure Counted (s : Journal) : Prop where
  recorded : ∀ e ∈ s.usage.events, .record e ∈ s.history
  counted : ∀ e ∈ s.usage.events, rolledUp s.history e = true → counts s.usage.daily e = true
  totals : ∀ row ∈ s.usage.daily, row.totals = totalsOf row.counted
  purged : ∀ p ∈ s.purged, p.2 = true

theorem counted_empty : Counted Journal.empty where
  recorded := by simp [Journal.empty]
  counted := by simp [Journal.empty]
  totals := by simp [Journal.empty]
  purged := by simp [Journal.empty]

theorem counted_record {retentionDays : Int} {s t : Journal} {e : UsageEvent} (h : Counted s)
    (hstep : step retentionDays s (.record e) = some t) : Counted t := by
  simp only [step] at hstep
  split at hstep
  · cases hstep
  · rename_i hfresh
    have hfresh : Step.record e ∉ s.history := by simpa using hfresh
    cases hstep
    constructor
    · intro x hx
      rcases List.mem_append.mp hx with hold | hnew
      · exact List.mem_append_left _ (h.recorded x hold)
      · rw [List.mem_singleton.mp hnew]
        exact List.mem_append_right _ List.mem_cons_self
    · intro x hx hrolled
      rcases List.mem_append.mp hx with hold | hnew
      · rw [rolledUp_append (h.recorded x hold)] at hrolled
        exact h.counted x hold (by simpa [rollsUp] using hrolled)
      · rw [List.mem_singleton.mp hnew, not_rolledUp_record hfresh] at hrolled
        cases hrolled
    · exact h.totals
    · exact h.purged

theorem counts_aggregateDay {u : Usage} {e : UsageEvent} (he : e ∈ u.events) :
    counts (aggregateDay e.key.day u).daily e = true := by
  have hmem := mem_eventsOfKey.mpr ⟨he, rfl⟩
  rw [counts, lookup_aggregateDay_of_events (List.ne_nil_of_mem hmem)]
  simpa using hmem

theorem counted_aggregate {retentionDays : Int} {s t : Journal} {now : Instant} (h : Counted s)
    (hstep : step retentionDays s (.aggregate now) = some t) : Counted t := by
  cases hstep
  constructor
  · exact fun e he => List.mem_append_left _ (h.recorded e he)
  · intro e he hrolled
    by_cases hday : e.key.day = yesterday now
    · show counts (aggregateDay (yesterday now) s.usage).daily e = true
      rw [← hday]
      exact counts_aggregateDay he
    · have hother : rollsUp (dayOf e.occurredAt) (.aggregate now) = false := by
        rw [rollsUp, decide_eq_false_iff_not, ← yesterday_eq_iff]
        exact fun heq => hday heq.symm
      rw [rolledUp_append (h.recorded e he), hother, Bool.or_false] at hrolled
      have hbefore := h.counted e he hrolled
      rw [counts] at hbefore ⊢
      rw [lookup_aggregateDay_of_other (.inl hday)]
      exact hbefore
  · intro row hrow
    rcases mem_upsertAll hrow with hold | hnew
    · exact h.totals row hold
    · obtain ⟨-, -, htotals, hcounted⟩ := mem_groupRows.mp hnew
      rw [htotals, hcounted]
  · exact h.purged

theorem counted_purge {retentionDays : Int} {s t : Journal} {now : Instant} (h : Counted s)
    (hcond : purgesRolledUp retentionDays s (.purge now) = true)
    (hstep : step retentionDays s (.purge now) = some t) : Counted t := by
  cases hstep
  constructor
  · intro e he
    exact List.mem_append_left _ (h.recorded e (List.mem_of_mem_filter he))
  · intro e he hrolled
    have hmem := List.mem_of_mem_filter he
    rw [rolledUp_append (h.recorded e hmem)] at hrolled
    exact h.counted e hmem (by simpa [rollsUp] using hrolled)
  · exact h.totals
  · intro p hp
    rcases List.mem_append.mp hp with hold | hnew
    · exact h.purged p hold
    · obtain ⟨e, he, rfl⟩ := List.mem_map.mp hnew
      exact h.counted e (List.mem_of_mem_filter he) (List.all_eq_true.mp hcond e he)

theorem counted_step {retentionDays : Int} (s : Journal) (a : Step) (t : Journal)
    (h : Counted s) (hcond : purgesRolledUp retentionDays s a = true)
    (hstep : step retentionDays s a = some t) : Counted t := by
  cases a with
  | record e => exact counted_record h hstep
  | aggregate now => exact counted_aggregate h hstep
  | purge now => exact counted_purge h hcond hstep

/-- In every run whose purges find no event that missed the rollup of its day,
every purged event was counted when it was deleted. -/
theorem purged_were_counted_of_purgesRolledUp (retentionDays : Int) (schedule : List Step)
    (s : Journal)
    (halong : Along (step retentionDays)
      (fun s a => purgesRolledUp retentionDays s a = true) Journal.empty schedule)
    (hrun : run (step retentionDays) Journal.empty schedule = some s) :
    (∀ p ∈ s.purged, p.2 = true) ∧ ∀ row ∈ s.usage.daily, row.totals = totalsOf row.counted := by
  have h := run_invariant counted_step counted_empty halong hrun
  exact ⟨h.purged, h.totals⟩

/-- A call of tenant 1 in the first hour of day 0. -/
def firstCall : UsageEvent :=
  ⟨1, 1800000000, 1, "mistral", "mistral-small-latest", 10, 5, 0, 42, .ok⟩

/-- The rollup of day 1, and that of day 91. -/
def regularSchedule : List Step :=
  [.record firstCall, .aggregate (1 * microsecondsPerDay), .purge (1 * microsecondsPerDay),
    .aggregate (91 * microsecondsPerDay), .purge (91 * microsecondsPerDay)]

theorem purged_were_counted_regular :
    ∃ s, run (step 90) Journal.empty regularSchedule = some s ∧ s.purged ≠ [] ∧
      (∀ p ∈ s.purged, p.2 = true) ∧
      ∀ row ∈ s.usage.daily, row.totals = totalsOf row.counted := by
  have hany : (run (step 90) Journal.empty regularSchedule).any
      (fun s => decide (s.purged ≠ [])) = true := by
    decide +kernel
  obtain ⟨s, hrun, hsome⟩ := (Option.any_eq_true _ _).mp hany
  exact ⟨s, hrun, of_decide_eq_true hsome,
    purged_were_counted_of_purgesRolledUp 90 regularSchedule s (by decide +kernel) hrun⟩

/-- No rollup runs on day 1; the next one is that of day 91. -/
def missedSchedule : List Step :=
  [.record firstCall, .aggregate (91 * microsecondsPerDay), .purge (91 * microsecondsPerDay)]

theorem missed_day_is_purged_uncounted :
    ∃ s, run (step 90) Journal.empty missedSchedule = some s ∧ (firstCall, false) ∈ s.purged := by
  have hany : (run (step 90) Journal.empty missedSchedule).any
      (fun s => decide ((firstCall, false) ∈ s.purged)) = true := by
    decide +kernel
  obtain ⟨s, hrun, hmem⟩ := (Option.any_eq_true _ _).mp hany
  exact ⟨s, hrun, of_decide_eq_true hmem⟩

end Socle.PurgedUsage
