import Mathlib.Data.Int.ConditionallyCompleteOrder
import Socle.QuotaCounters

/-!
What the daily reset of the quota counters achieves when no AI call is in flight:
the counter each tenant reads afterwards, against the tokens of its events.
-/

namespace Socle.MonthReconciliation

open Socle.Procedures Socle.Valkey Socle.QuotaCounters
open Socle.DirectoryStore (Instant)
open Socle.UsageRollup (UsageEvent UsageStatus)

/-- The events and the server of the counters. -/
structure State where
  events : List UsageEvent
  keys : Keyspace Key Instant

/-- Each request is served at one instant. -/
def serve : Serve counters State Unit Instant := fun s _ r moment =>
  match r with
  | .now => (s, (), moment)
  | .command c => ({ s with keys := (execute moment s.keys c).1 }, (), (execute moment s.keys c).2)
  | .usageRows since => (s, (), usageRows since s.events)
  | .audit _ => (s, (), ())

/-- What `reconcile_month_quotas` leaves, its requests being served at `times`. -/
def reconciled (s : State) (times : Nat → Instant) : State :=
  (eval serve reconcileMonthQuotas s () times).1

/-- The counter read by `current_usage` at an instant. -/
def usageAt (s : State) (tenantId : Nat) (moment : Instant) : Int :=
  match (eval serve (currentUsage tenantId) s () fun _ => moment).2.2 with
  | .ok usage => usage

/-- The tokens of a tenant's events of the month of an instant. -/
def monthTokens (s : State) (tenantId : Nat) (moment : Instant) : Int :=
  tokensOf tenantId (fun occurredAt => monthOf occurredAt = monthOf moment) s.events

/-- The tenants of the grouped query, in the order of its rows. -/
def selected (s : State) (since : Instant) : List Nat := (usageRows since s.events).map Prod.fst

/-- The clock reading of `quota.reconcile` for a tenant of the query. -/
def readingOf (s : State) (times : Nat → Instant) (tenantId : Nat) : Instant :=
  times (2 * (selected s (monthStart (times 0))).idxOf tenantId + 2)

/-- The grouped query returns the tenant. -/
def Queried (s : State) (first : Instant) (tenantId : Nat) : Prop :=
  ∃ e ∈ s.events, e.tenantId = tenantId ∧ monthStart first ≤ e.occurredAt

instance (s : State) (first : Instant) (tenantId : Nat) : Decidable (Queried s first tenantId) :=
  inferInstanceAs
    (Decidable (∃ e ∈ s.events, e.tenantId = tenantId ∧ monthStart first ≤ e.occurredAt))

/-- The tokens of the events that the query sums up although they are dated in another month. -/
def strayTokens (s : State) (first later : Instant) (tenantId : Nat) : Int :=
  tokensOf tenantId
    (fun occurredAt => monthStart first ≤ occurredAt ∧ monthOf occurredAt ≠ monthOf later) s.events

/-- A tenant of the query whose month has not turned since its own reading has no tokens in
another month; for one whose month has turned since, the counter that the new month has already
holds the tokens of its events; a tenant without events has no counter above zero. -/
def Restorable (s : State) (times : Nat → Instant) (later : Instant) (tenantId : Nat) : Prop :=
  if Queried s (times 0) tenantId then
    if monthOf (readingOf s times tenantId) = monthOf later then
      (strayTokens s (times 0) later tenantId = 0 ∧ 0 ≤ monthTokens s tenantId later) ∨
        (strayTokens s (times 0) later tenantId ≤ 0 ∧ monthTokens s tenantId later = 0)
    else usageAt s tenantId later = monthTokens s tenantId later
  else usageAt s tenantId later = 0

/-- The keys after the loop of `reconcile_month_quotas`. -/
def written : List (Nat × Int) → (Nat → Instant) → Keyspace Key Instant → Keyspace Key Instant
  | [], _, keys => keys
  | (tenantId, total) :: rows, times, keys =>
      written rows (fun n => times (n + 2))
        (put keys (monthKey tenantId (times 0)) ⟨max total 0, some (times 1 + monthTtl)⟩)

theorem eval_reconcileEach (rows : List (Nat × Int)) (s : State) (times : Nat → Instant) :
    eval serve (reconcileEach rows) s () times =
      ({ s with keys := written rows times s.keys }, (), .ok ()) := by
  induction rows generalizing s times with
  | nil => rfl
  | cons row rows ih => exact ih _ _

theorem reconciled_eq (s : State) (times : Nat → Instant) :
    reconciled s times =
      ⟨s.events, written (usageRows (monthStart (times 0)) s.events) (fun n => times (n + 2))
        s.keys⟩ :=
  congrArg Prod.fst (eval_reconcileEach (usageRows (monthStart (times 0)) s.events) s
    fun n => times (n + 2))

theorem written_month (total : Nat → Int) {tenants : List Nat} (hnodup : tenants.Nodup)
    (times : Nat → Instant) (keys : Keyspace Key Instant) (tenantId : Nat) (month : Int) :
    written (tenants.map fun t => (t, total t)) times keys (.month tenantId month) =
      if tenantId ∈ tenants ∧ monthOf (times (2 * tenants.idxOf tenantId)) = month then
        some ⟨max (total tenantId) 0, some (times (2 * tenants.idxOf tenantId + 1) + monthTtl)⟩
      else keys (.month tenantId month) := by
  induction tenants generalizing times keys with
  | nil => simp [written]
  | cons t tenants ih =>
      obtain ⟨hnew, hnodup⟩ := List.nodup_cons.mp hnodup
      rw [List.map_cons, written, ih hnodup]
      by_cases htenant : tenantId = t
      · subst htenant
        simp only [hnew, false_and, if_false, List.mem_cons_self, true_and, List.idxOf_cons_self,
          monthKey, Nat.mul_zero, Nat.zero_add]
        by_cases hmonth : monthOf (times 0) = month
        · rw [if_pos hmonth, hmonth, put_self]
        · rw [if_neg hmonth, put_of_ne (by simpa using Ne.symm hmonth)]
      · have hput : put keys (monthKey t (times 0)) ⟨max (total t) 0, some (times 1 + monthTtl)⟩
            (.month tenantId month) = keys (.month tenantId month) :=
          put_of_ne (by simp [monthKey, htenant])
        rw [hput, List.idxOf_cons_ne _ (Ne.symm htenant)]
        simp only [List.mem_cons, htenant, false_or]
        rfl

theorem usageAt_eq (s : State) (tenantId : Nat) (moment : Instant) :
    usageAt s tenantId moment =
      ((live moment s.keys (monthKey tenantId moment)).map Entry.value).getD 0 := rfl

theorem nodup_selected (s : State) (since : Instant) : (selected s since).Nodup := by
  unfold selected usageRows
  rw [List.map_map]
  simpa [Function.comp_def] using List.nodup_dedup _

theorem usageRows_eq (s : State) (since : Instant) :
    usageRows since s.events = (selected s since).map fun t =>
      (t, tokensOf t (fun occurredAt => since ≤ occurredAt) s.events) := by
  unfold selected usageRows
  rw [List.map_map, List.map_map]
  rfl

theorem mem_selected {s : State} {first : Instant} {tenantId : Nat} :
    tenantId ∈ selected s (monthStart first) ↔ Queried s first tenantId := by
  unfold selected usageRows Queried
  rw [List.map_map]
  simp only [Function.comp_def, List.map_id', List.mem_dedup, List.mem_map, List.mem_filter,
    decide_eq_true_eq]
  exact ⟨fun ⟨e, ⟨he, hsince⟩, htenant⟩ => ⟨e, he, htenant, hsince⟩,
    fun ⟨e, he, htenant, hsince⟩ => ⟨e, ⟨he, hsince⟩, htenant⟩⟩

theorem tokensOf_or {tenantId : Nat} {p q : Instant → Bool} (hdisjoint : ∀ t, p t → ¬ q t)
    (events : List UsageEvent) :
    tokensOf tenantId (fun t => p t || q t) events =
      tokensOf tenantId p events + tokensOf tenantId q events := by
  induction events with
  | nil => rfl
  | cons e events ih =>
      unfold tokensOf at ih ⊢
      simp only [List.filter_cons]
      by_cases htenant : e.tenantId = tenantId
      · by_cases hp : p e.occurredAt = true
        · have hq : q e.occurredAt = false := Bool.of_not_eq_true (hdisjoint _ hp)
          simp only [htenant, hp, hq, Bool.or_false, and_self, Bool.false_eq_true, and_false,
            decide_true, decide_false, if_true, if_false, List.map_cons, List.sum_cons, ih]
          exact (add_assoc _ _ _).symm
        · by_cases hq : q e.occurredAt = true
          · simp only [htenant, hp, hq, Bool.or_true, and_self, and_false, Bool.false_eq_true,
              decide_true, decide_false, if_true, if_false, List.map_cons, List.sum_cons, ih]
            exact add_left_comm _ _ _
          · simpa only [hp, hq, Bool.or_self, Bool.false_eq_true, and_false, decide_false,
              if_false] using ih
      · simpa only [htenant, false_and, decide_false, Bool.false_eq_true, if_false] using ih

theorem tokensOf_since (s : State) {first later : Instant} (hlater : first ≤ later)
    (tenantId : Nat) :
    tokensOf tenantId (fun occurredAt => monthStart first ≤ occurredAt) s.events =
      monthTokens s tenantId later + strayTokens s first later tenantId := by
  unfold monthTokens strayTokens
  rw [← tokensOf_or fun t hmonth hstray =>
    (of_decide_eq_true hstray).2 (of_decide_eq_true hmonth)]
  refine congrArg (fun counted => tokensOf tenantId counted s.events) (funext fun t => ?_)
  rw [← Bool.decide_or, decide_eq_decide]
  constructor
  · intro hsince
    by_cases hmonth : monthOf t = monthOf later
    · exact .inl hmonth
    · exact .inr ⟨hsince, hmonth⟩
  · rintro (hmonth | hstray)
    · exact monthStart_le_iff.mpr ((monthOf_mono hlater).trans hmonth.ge)
    · exact hstray.1

theorem monthTokens_of_not_queried {s : State} {first later : Instant} (hlater : first ≤ later)
    {tenantId : Nat} (h : ¬ Queried s first tenantId) : monthTokens s tenantId later = 0 := by
  unfold monthTokens tokensOf
  rw [List.filter_eq_nil_iff.mpr]
  · rfl
  · intro e he hcounted
    obtain ⟨htenant, hmonth⟩ := of_decide_eq_true hcounted
    have hsame : monthOf e.occurredAt = monthOf later := of_decide_eq_true hmonth
    exact h ⟨e, he, htenant, monthStart_le_iff.mpr ((monthOf_mono hlater).trans hsame.ge)⟩

theorem max_add_eq_iff (month stray : Int) :
    max (month + stray) 0 = month ↔ (stray = 0 ∧ 0 ≤ month) ∨ (stray ≤ 0 ∧ month = 0) := by
  omega

/-- After the daily reset a tenant reads the tokens of its events of the current
month exactly when it was restorable. -/
theorem restored_iff_restorable (s : State) {times : Nat → Instant} (hclock : Monotone times)
    {later : Instant} (hlater : ∀ n, times n ≤ later) (tenantId : Nat) :
    usageAt (reconciled s times) tenantId later = monthTokens s tenantId later ↔
      Restorable s times later tenantId := by
  have hkey : (reconciled s times).keys (monthKey tenantId later) =
      if tenantId ∈ selected s (monthStart (times 0)) ∧
          monthOf (readingOf s times tenantId) = monthOf later then
        some ⟨max (tokensOf tenantId (fun occurredAt => monthStart (times 0) ≤ occurredAt)
            s.events) 0,
          some (times (2 * (selected s (monthStart (times 0))).idxOf tenantId + 3) + monthTtl)⟩
      else s.keys (monthKey tenantId later) := by
    rw [reconciled_eq, usageRows_eq]
    exact written_month _ (nodup_selected s _) _ s.keys tenantId (monthOf later)
  unfold Restorable
  by_cases hqueried : Queried s (times 0) tenantId
  · by_cases hmonth : monthOf (readingOf s times tenantId) = monthOf later
    · have hset : monthOf later =
          monthOf (times (2 * (selected s (monthStart (times 0))).idxOf tenantId + 3)) :=
        le_antisymm (hmonth.ge.trans (monthOf_mono (hclock (Nat.le_succ _))))
          (monthOf_mono (hlater _))
      have halive := lt_add_monthTtl hset
      have husage : usageAt (reconciled s times) tenantId later =
          max (monthTokens s tenantId later + strayTokens s (times 0) later tenantId) 0 := by
        rw [usageAt_eq, live, hkey, if_pos ⟨mem_selected.mpr hqueried, hmonth⟩,
          Option.filter_some, alive_some, decide_eq_true halive, tokensOf_since s (hlater 0)]
        rfl
      rw [if_pos hqueried, if_pos hmonth, husage]
      exact max_add_eq_iff _ _
    · have husage : usageAt (reconciled s times) tenantId later = usageAt s tenantId later := by
        rw [usageAt_eq, live, hkey, if_neg fun h => hmonth h.2]
        rfl
      rw [if_pos hqueried, if_neg hmonth, husage]
  · have husage : usageAt (reconciled s times) tenantId later = usageAt s tenantId later := by
      rw [usageAt_eq, live, hkey, if_neg fun h => hqueried (mem_selected.mp h.1)]
      rfl
    rw [if_neg hqueried, husage, monthTokens_of_not_queried (hlater 0) hqueried]

/-- A reset that runs within one month, with no event dated after it, is right for
every tenant with an event of the month, and for the others when they have no
counter. -/
theorem restorable_of_one_month (s : State) {times : Nat → Instant} (hclock : Monotone times)
    {later : Instant} (hlater : ∀ n, times n ≤ later) {tenantId : Nat}
    (hmonth : monthOf (times 0) = monthOf later)
    (hfuture : ∀ e ∈ s.events, e.tenantId = tenantId → monthOf e.occurredAt ≤ monthOf later)
    (htokens : 0 ≤ monthTokens s tenantId later)
    (hcounter : ¬ Queried s (times 0) tenantId →
      live later s.keys (monthKey tenantId later) = none) :
    Restorable s times later tenantId := by
  have hreading : monthOf (readingOf s times tenantId) = monthOf later :=
    le_antisymm (monthOf_mono (hlater _))
      (hmonth.ge.trans (monthOf_mono (hclock (Nat.zero_le _))))
  have hstray : strayTokens s (times 0) later tenantId = 0 := by
    unfold strayTokens tokensOf
    rw [List.filter_eq_nil_iff.mpr]
    · rfl
    · intro e he hcounted
      obtain ⟨htenant, hdated⟩ := of_decide_eq_true hcounted
      obtain ⟨hsince, hother⟩ := of_decide_eq_true hdated
      exact hother (le_antisymm (hfuture e he htenant) (hmonth ▸ monthStart_le_iff.mp hsince))
  unfold Restorable
  by_cases hqueried : Queried s (times 0) tenantId
  · rw [if_pos hqueried, if_pos hreading]
    exact .inl ⟨hstray, htokens⟩
  · rw [if_neg hqueried, usageAt_eq, hcounter hqueried]
    rfl

/-- A call of tenant 1 on the 10th of January 2024. -/
def januaryCall : UsageEvent :=
  ⟨7, 1704844800000000, 1, "mistral", "mistral-small-latest", 100, 50, 0, 0, UsageStatus.ok⟩

/-- Tenant 1 has called, tenant 2 has a counter without any event. -/
def stale : State where
  events := [januaryCall]
  keys := put (fun _ => none) (.month 2 24276) ⟨999, some (1704844800000000 + monthTtl)⟩

theorem january_restored : usageAt (reconciled stale fun _ => 1704931200000000) 1 1704931200000000 =
    monthTokens stale 1 1704931200000000 :=
  (restored_iff_restorable stale (fun _ _ _ => le_rfl) (fun _ => le_rfl) 1).mpr
    (restorable_of_one_month stale (fun _ _ _ => le_rfl) (fun _ => le_rfl) rfl (by decide +kernel)
      (by decide +kernel) fun hnone => (hnone ⟨januaryCall, List.mem_singleton_self _, by decide,
        by decide +kernel⟩).elim)

/-- The tenant the query does not return keeps its counter. -/
theorem stale_counter_kept :
    usageAt (reconciled stale fun _ => 1704931200000000) 2 1704931200000000 ≠
      monthTokens stale 2 1704931200000000 := by
  decide +kernel

end Socle.MonthReconciliation
