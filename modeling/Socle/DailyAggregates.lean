import Mathlib.Data.List.Perm.Subperm
import Socle.GuardedRuns
import Socle.UsageRollup

/-!
Replays of `aggregate_day` between purges.  An aggregate is recomputed from the
events that are still stored, so it stays equal to the history as long as no
day is recomputed when only a part of its events is left.
-/

namespace Socle.DailyAggregates

open Socle.GuardedRuns
open Socle.KeyedTable
open Socle.DirectoryStore (Instant)
open Socle.UsageRollup

inductive Step where
  | record (event : UsageEvent)
  | aggregate (day : Day)
  | purge (now : Instant)
  deriving DecidableEq

/-- The two tables, with what they do not tell: all events ever recorded, the
keys whose day was aggregated since their last event, and the keys of which an
event was purged before that. -/
structure Log where
  usage : Usage
  recorded : List UsageEvent
  settled : List UsageKey
  premature : List UsageKey
  deriving DecidableEq

def Log.empty : Log := ⟨⟨[], []⟩, [], [], []⟩

def step (retentionDays : Int) (s : Log) : Step → Option Log
  | .record e =>
      if s.recorded.any fun x => x.id == e.id then none
      else some { s with
        usage := recordUsage e s.usage
        recorded := s.recorded ++ [e]
        settled := s.settled.filter fun key => decide (key ≠ e.key) }
  | .aggregate day =>
      some { s with
        usage := aggregateDay day s.usage
        settled := s.settled ++ (eventsOfDay day s.recorded).map UsageEvent.key }
  | .purge now =>
      let purged := (s.usage.events.filter (expired retentionDays now)).map UsageEvent.key
      some { s with
        usage := purgeRawEvents retentionDays now s.usage
        premature := s.premature ++ purged.filter fun key => !s.settled.contains key }

/-- All events of the key are still stored. -/
def intact (s : Log) (key : UsageKey) : Bool :=
  (eventsOfKey key s.recorded).all fun e => s.usage.events.contains e

/-- No event of the key is stored any more, and none was purged before it was
aggregated with all the others. -/
def closed (s : Log) (key : UsageKey) : Bool :=
  (eventsOfKey key s.usage.events).isEmpty && !s.premature.contains key

/-- The condition on the steps of a run: a day is aggregated only when each of
its keys has all its events, or has lost all of them in due time. -/
def replayable (s : Log) : Step → Bool
  | .aggregate day => (eventsOfDay day s.recorded).all fun e => intact s e.key || closed s e.key
  | _ => true

def recordsDay (day : Day) : Step → Bool
  | .record e => decide (e.key.day = day)
  | _ => false

/-- The row of the key holds the sums of all its events. -/
def Good (s : Log) (key : UsageKey) : Prop :=
  ∃ row, lookup UsageDaily.key key s.usage.daily = some row ∧
    row.totals = totalsOf (eventsOfKey key s.recorded)

structure Faithful (s : Log) : Prop where
  distinct : s.recorded.Nodup
  stored : s.usage.events.Sublist s.recorded
  keys : (s.usage.daily.map UsageDaily.key).Nodup
  rows : ∀ row ∈ s.usage.daily, eventsOfKey row.key s.recorded ≠ []
  settled : ∀ key ∈ s.settled, Good s key
  closed : ∀ key, eventsOfKey key s.recorded ≠ [] → closed s key = true → Good s key

theorem faithful_empty : Faithful Log.empty where
  distinct := List.nodup_nil
  stored := List.Sublist.refl _
  keys := List.nodup_nil
  rows := by simp [Log.empty]
  settled := by simp [Log.empty]
  closed := by simp [Log.empty, eventsOfKey]

theorem eventsOfKey_of_intact {s : Log} (h : Faithful s) {key : UsageKey}
    (hintact : intact s key = true) :
    eventsOfKey key s.usage.events = eventsOfKey key s.recorded := by
  have hsublist : (eventsOfKey key s.usage.events).Sublist (eventsOfKey key s.recorded) :=
    h.stored.filter _
  have hsubset : eventsOfKey key s.recorded ⊆ eventsOfKey key s.usage.events := by
    intro e he
    have hstored : e ∈ s.usage.events := by simpa using List.all_eq_true.mp hintact e he
    exact mem_eventsOfKey.mpr ⟨hstored, (mem_eventsOfKey.mp he).2⟩
  exact hsublist.eq_of_length_le (List.subperm_of_subset (h.distinct.filter _) hsubset).length_le

theorem eventsOfKey_append {key : UsageKey} {e : UsageEvent} (events : List UsageEvent)
    (hne : e.key ≠ key) : eventsOfKey key (events ++ [e]) = eventsOfKey key events := by
  simp [eventsOfKey, hne]

theorem faithful_record {retentionDays : Int} {s t : Log} {e : UsageEvent} (h : Faithful s)
    (hstep : step retentionDays s (.record e) = some t) : Faithful t := by
  simp only [step] at hstep
  split at hstep
  · cases hstep
  · rename_i hfresh
    cases hstep
    have hkept {key : UsageKey} (hne : e.key ≠ key) (hgood : Good s key) :
        Good { s with
          usage := recordUsage e s.usage
          recorded := s.recorded ++ [e]
          settled := s.settled.filter fun key => decide (key ≠ e.key) } key := by
      obtain ⟨row, hrow, htotals⟩ := hgood
      refine ⟨row, hrow, ?_⟩
      rw [htotals, eventsOfKey_append s.recorded hne]
    constructor
    · refine List.nodup_append.mpr ⟨h.distinct, List.nodup_singleton e, ?_⟩
      rintro a ha b hb rfl
      rw [List.mem_singleton] at hb
      subst hb
      exact hfresh (List.any_eq_true.mpr ⟨a, ha, by simp⟩)
    · exact h.stored.append (List.Sublist.refl [e])
    · exact h.keys
    · intro row hrow hnone
      have hbefore := h.rows row hrow
      simp only [eventsOfKey, List.filter_append, List.append_eq_nil_iff] at hnone
      exact hbefore hnone.1
    · intro key hkey
      obtain ⟨hmem, hne⟩ := List.mem_filter.mp hkey
      exact hkept (Ne.symm (of_decide_eq_true hne)) (h.settled key hmem)
    · intro key hsome hclosed
      obtain ⟨hempty, hdue⟩ := (Bool.and_eq_true _ _).mp hclosed
      have hnone : eventsOfKey key (s.usage.events ++ [e]) = [] := List.isEmpty_iff.mp hempty
      have hne : e.key ≠ key := by
        rintro rfl
        simp [eventsOfKey] at hnone
      rw [eventsOfKey_append s.recorded hne] at hsome
      rw [eventsOfKey_append s.usage.events hne] at hnone
      refine hkept hne (h.closed key hsome ?_)
      rw [closed, hnone]
      exact hdue

theorem good_aggregate {s : Log} {day : Day} (h : Faithful s)
    (hcond : replayable s (.aggregate day) = true) {key : UsageKey} (hday : key.day = day)
    (hsome : eventsOfKey key s.recorded ≠ []) :
    Good { s with
      usage := aggregateDay day s.usage
      settled := s.settled ++ (eventsOfDay day s.recorded).map UsageEvent.key } key := by
  obtain ⟨e, he⟩ := List.exists_mem_of_ne_nil _ hsome
  obtain ⟨hmem, rfl⟩ := mem_eventsOfKey.mp he
  subst hday
  have hchoice := List.all_eq_true.mp hcond e (mem_eventsOfDay.mpr ⟨hmem, rfl⟩)
  rcases (Bool.or_eq_true _ _).mp hchoice with hintact | hclosed
  · have hgroup := eventsOfKey_of_intact h hintact
    have hstored : eventsOfKey e.key s.usage.events ≠ [] := hgroup ▸ hsome
    exact ⟨_, lookup_aggregateDay_of_events hstored, by rw [hgroup]⟩
  · obtain ⟨row, hrow, htotals⟩ := h.closed e.key hsome hclosed
    obtain ⟨hempty, -⟩ := (Bool.and_eq_true _ _).mp hclosed
    refine ⟨row, ?_, htotals⟩
    show lookup UsageDaily.key e.key (aggregateDay e.key.day s.usage).daily = some row
    rw [lookup_aggregateDay_of_other (.inr (List.isEmpty_iff.mp hempty)), hrow]

theorem faithful_aggregate {retentionDays : Int} {s t : Log} {day : Day} (h : Faithful s)
    (hcond : replayable s (.aggregate day) = true)
    (hstep : step retentionDays s (.aggregate day) = some t) : Faithful t := by
  cases hstep
  have hother {key : UsageKey} (hne : key.day ≠ day) (hgood : Good s key) :
      Good { s with
        usage := aggregateDay day s.usage
        settled := s.settled ++ (eventsOfDay day s.recorded).map UsageEvent.key } key := by
    obtain ⟨row, hrow, htotals⟩ := hgood
    refine ⟨row, ?_, htotals⟩
    show lookup UsageDaily.key key (aggregateDay day s.usage).daily = some row
    rw [lookup_aggregateDay_of_other (.inl hne), hrow]
  constructor
  · exact h.distinct
  · exact h.stored
  · exact nodup_upsertAll _ h.keys
  · intro row hrow
    cases hfound : lookup UsageDaily.key row.key s.usage.daily with
    | some old =>
        obtain ⟨hold, hkey⟩ := mem_of_lookup hfound
        rw [← hkey]
        exact h.rows old hold
    | none =>
        intro hnone
        have hempty : eventsOfKey row.key s.usage.events = [] := by
          have hsublist : (eventsOfKey row.key s.usage.events).Sublist
              (eventsOfKey row.key s.recorded) := h.stored.filter _
          rw [hnone] at hsublist
          exact List.sublist_nil.mp hsublist
        have hsame : lookup UsageDaily.key row.key (aggregateDay day s.usage).daily =
            lookup UsageDaily.key row.key s.usage.daily :=
          lookup_aggregateDay_of_other (.inr hempty)
        rw [hfound] at hsame
        exact lookup_eq_none.mp hsame row hrow rfl
  · intro key hkey
    rcases List.mem_append.mp hkey with hold | hnew
    · by_cases hday : key.day = day
      · refine good_aggregate h hcond hday ?_
        obtain ⟨row, hrow, -⟩ := h.settled key hold
        obtain ⟨hmem, rfl⟩ := mem_of_lookup hrow
        exact h.rows row hmem
      · exact hother hday (h.settled key hold)
    · obtain ⟨e, he, rfl⟩ := List.mem_map.mp hnew
      obtain ⟨hmem, hday⟩ := mem_eventsOfDay.mp he
      exact good_aggregate h hcond hday (List.ne_nil_of_mem (mem_eventsOfKey.mpr ⟨hmem, rfl⟩))
  · intro key hsome hclosed
    by_cases hday : key.day = day
    · exact good_aggregate h hcond hday hsome
    · exact hother hday (h.closed key hsome hclosed)

theorem faithful_purge {retentionDays : Int} {s t : Log} {now : Instant} (h : Faithful s)
    (hstep : step retentionDays s (.purge now) = some t) : Faithful t := by
  cases hstep
  constructor
  · exact h.distinct
  · exact List.filter_sublist.trans h.stored
  · exact h.keys
  · exact h.rows
  · exact h.settled
  · intro key hsome hclosed
    obtain ⟨hempty, hdue⟩ := (Bool.and_eq_true _ _).mp hclosed
    have hdue : key ∉ s.premature ∧ (key ∈ (s.usage.events.filter
        (expired retentionDays now)).map UsageEvent.key → key ∈ s.settled) := by
      simpa using hdue
    by_cases hbefore : eventsOfKey key s.usage.events = []
    · refine h.closed key hsome ?_
      rw [closed, hbefore]
      simp [hdue.1]
    · obtain ⟨e, he⟩ := List.exists_mem_of_ne_nil _ hbefore
      obtain ⟨hmem, hkey⟩ := mem_eventsOfKey.mp he
      refine h.settled key (hdue.2 ?_)
      refine List.mem_map.mpr ⟨e, List.mem_filter.mpr ⟨hmem, ?_⟩, hkey⟩
      by_contra hkept
      have hleft : e ∈ eventsOfKey key (purgeRawEvents retentionDays now s.usage).events :=
        mem_eventsOfKey.mpr ⟨List.mem_filter.mpr ⟨hmem, by simpa using hkept⟩, hkey⟩
      have hgone := List.isEmpty_iff.mp hempty
      rw [hgone] at hleft
      cases hleft

theorem faithful_step {retentionDays : Int} (s : Log) (a : Step) (t : Log) (h : Faithful s)
    (hcond : replayable s a = true) (hstep : step retentionDays s a = some t) : Faithful t := by
  cases a with
  | record e => exact faithful_record h hstep
  | aggregate day => exact faithful_aggregate h hcond hstep
  | purge now => exact faithful_purge h hstep

/-- Every key of the day was aggregated since its last event. -/
def DaySettled (day : Day) (s : Log) : Prop :=
  ∀ key, key.day = day → eventsOfKey key s.recorded ≠ [] → key ∈ s.settled

theorem daySettled_aggregate {retentionDays : Int} {s t : Log} {day : Day}
    (hstep : step retentionDays s (.aggregate day) = some t) : DaySettled day t := by
  cases hstep
  rintro key rfl hsome
  obtain ⟨e, he⟩ := List.exists_mem_of_ne_nil _ hsome
  obtain ⟨hmem, rfl⟩ := mem_eventsOfKey.mp he
  exact List.mem_append_right _ (List.mem_map_of_mem (mem_eventsOfDay.mpr ⟨hmem, rfl⟩))

theorem daySettled_step {retentionDays : Int} {s t : Log} {a : Step} {day : Day}
    (h : DaySettled day s) (hother : recordsDay day a = false)
    (hstep : step retentionDays s a = some t) : DaySettled day t := by
  cases a with
  | record e =>
      simp only [step] at hstep
      split at hstep
      · cases hstep
      · cases hstep
        rintro key rfl hsome
        have hne : e.key ≠ key := by
          rintro rfl
          simp [recordsDay] at hother
        rw [eventsOfKey_append s.recorded hne] at hsome
        exact List.mem_filter.mpr ⟨h key rfl hsome, by simpa using Ne.symm hne⟩
  | aggregate other =>
      cases hstep
      exact fun key hkey hsome => List.mem_append_left _ (h key hkey hsome)
  | purge now =>
      cases hstep
      exact h

/-- From the first aggregation of a day after its last event on, in every run
whose aggregations meet the condition: each key of the day has the sums of all
its events, a key without events has no row, and no key has two. -/
theorem aggregates_equal_history_of_replayable (retentionDays : Int) (before after : List Step)
    (day : Day) (s : Log) (hafter : ∀ a ∈ after, recordsDay day a = false)
    (halong : Along (step retentionDays) (fun s a => replayable s a = true) Log.empty
      (before ++ .aggregate day :: after))
    (hrun : run (step retentionDays) Log.empty (before ++ .aggregate day :: after) = some s) :
    (s.usage.daily.map UsageDaily.key).Nodup ∧
      (∀ row ∈ s.usage.daily, eventsOfKey row.key s.recorded ≠ []) ∧
      ∀ key, key.day = day →
        (lookup UsageDaily.key key s.usage.daily).map UsageDaily.totals =
          if eventsOfKey key s.recorded = [] then none
          else some (totalsOf (eventsOfKey key s.recorded)) := by
  have hfaithful : Faithful s := run_invariant faithful_step faithful_empty halong hrun
  obtain ⟨u, hu, hrest⟩ := run_append_eq_some.mp hrun
  obtain ⟨v, hv, htail⟩ := run_cons_eq_some.mp hrest
  have hsettled : DaySettled day s := by
    clear halong hrun hrest
    have hstart : DaySettled day v := daySettled_aggregate hv
    clear hv hu
    induction after generalizing v with
    | nil =>
        have hvs : v = s := by simpa [run] using htail
        exact hvs ▸ hstart
    | cons a rest ih =>
        obtain ⟨x, hx, htail⟩ := run_cons_eq_some.mp htail
        exact ih (fun b hb => hafter b (List.mem_cons_of_mem _ hb)) x htail
          (daySettled_step hstart (hafter a List.mem_cons_self) hx)
  refine ⟨hfaithful.keys, hfaithful.rows, fun key hkey => ?_⟩
  by_cases hnone : eventsOfKey key s.recorded = []
  · rw [if_pos hnone, Option.map_eq_none_iff, lookup_eq_none]
    rintro row hrow rfl
    exact hfaithful.rows row hrow hnone
  · obtain ⟨row, hrow, htotals⟩ := hfaithful.settled key (hsettled key hkey hnone)
    rw [if_neg hnone, hrow, Option.map_some, htotals]

/-- A successful call of tenant 1 at an hour of day 0. -/
def eventAt (id : Nat) (hour : Int) : UsageEvent :=
  ⟨id, hour * 3600000000, 1, "mistral", "mistral-small-latest", 10, 5, 0, 42, .ok⟩

theorem aggregates_equal_history_one_day :
    ∃ s, run (step 90) Log.empty
        ([.record (eventAt 1 1), .record (eventAt 2 20)] ++ .aggregate 0 :: []) = some s ∧
      (s.usage.daily.map UsageDaily.key).Nodup ∧
      (∀ row ∈ s.usage.daily, eventsOfKey row.key s.recorded ≠ []) ∧
      ∀ key, key.day = 0 →
        (lookup UsageDaily.key key s.usage.daily).map UsageDaily.totals =
          if eventsOfKey key s.recorded = [] then none
          else some (totalsOf (eventsOfKey key s.recorded)) := by
  have hsome : (run (step 90) Log.empty
      ([.record (eventAt 1 1), .record (eventAt 2 20)] ++ .aggregate 0 :: [])).isSome = true := by
    decide +kernel
  obtain ⟨s, hrun⟩ := Option.isSome_iff_exists.mp hsome
  exact ⟨s, hrun, aggregates_equal_history_of_replayable 90 _ [] 0 s (by simp)
    (by decide +kernel) hrun⟩

/-- The purge at noon of day 90 takes the morning of day 0, which is aggregated
once more. -/
def replaySchedule : List Step :=
  [.record (eventAt 1 1), .record (eventAt 2 20), .aggregate 0,
    .purge (90 * microsecondsPerDay + 12 * 3600000000)]

theorem replay_forgets_purged_events :
    ∃ s, run (step 90) Log.empty (replaySchedule ++ .aggregate 0 :: []) = some s ∧
      eventsOfKey (eventAt 1 1).key s.recorded = [eventAt 1 1, eventAt 2 20] ∧
      (lookup UsageDaily.key (eventAt 1 1).key s.usage.daily).map UsageDaily.totals =
        some (totalsOf [eventAt 2 20]) ∧
      totalsOf [eventAt 2 20] ≠ totalsOf (eventsOfKey (eventAt 1 1).key s.recorded) := by
  have hany : (run (step 90) Log.empty (replaySchedule ++ .aggregate 0 :: [])).any (fun s =>
      decide (eventsOfKey (eventAt 1 1).key s.recorded = [eventAt 1 1, eventAt 2 20]) &&
        decide ((lookup UsageDaily.key (eventAt 1 1).key s.usage.daily).map UsageDaily.totals =
          some (totalsOf [eventAt 2 20]))) = true := by
    decide +kernel
  obtain ⟨s, hrun, h⟩ := (Option.any_eq_true _ _).mp hany
  obtain ⟨hrecorded, hrow⟩ := (Bool.and_eq_true _ _).mp h
  have hrecorded := of_decide_eq_true hrecorded
  refine ⟨s, hrun, hrecorded, of_decide_eq_true hrow, ?_⟩
  rw [hrecorded]
  decide +kernel

end Socle.DailyAggregates
