import Mathlib.Data.List.Basic

/-!
Schedules of a partial step function, and the invariant rule for schedules all
of whose steps are taken under a side condition.
-/

namespace Socle.GuardedRuns

variable {σ α : Type*}

/-- Execute a schedule.  The result is `none` as soon as an action is not
enabled in the state it is taken from. -/
def run (step : σ → α → Option σ) : σ → List α → Option σ
  | s, [] => some s
  | s, a :: rest => (step s a).bind fun t => run step t rest

/-- Every action of the schedule is taken from a state where `ok` holds. -/
def Along (step : σ → α → Option σ) (ok : σ → α → Prop) : σ → List α → Prop
  | _, [] => True
  | s, a :: rest =>
      ok s a ∧
        match step s a with
        | some t => Along step ok t rest
        | none => True

instance decidableAlong (step : σ → α → Option σ) (ok : σ → α → Prop)
    [∀ s a, Decidable (ok s a)] : ∀ s schedule, Decidable (Along step ok s schedule)
  | _, [] => inferInstanceAs (Decidable True)
  | s, a :: rest =>
      match h : step s a with
      | some t =>
          have := decidableAlong step ok t rest
          decidable_of_iff (ok s a ∧ Along step ok t rest) (by simp [Along, h])
      | none => decidable_of_iff (ok s a) (by simp [Along, h])

variable {step : σ → α → Option σ} {ok : σ → α → Prop}

theorem run_cons_eq_some {s t : σ} {a : α} {rest : List α} :
    run step s (a :: rest) = some t ↔
      ∃ u, step s a = some u ∧ run step u rest = some t := by
  simp [run, Option.bind_eq_some_iff]

theorem along_cons_of_step {s t : σ} {a : α} {rest : List α}
    (hstep : step s a = some t) :
    Along step ok s (a :: rest) ↔ ok s a ∧ Along step ok t rest := by
  simp [Along, hstep]

theorem run_append_eq_some {s t : σ} {before after : List α} :
    run step s (before ++ after) = some t ↔
      ∃ u, run step s before = some u ∧ run step u after = some t := by
  induction before generalizing s with
  | nil => simp [run]
  | cons a rest ih =>
      constructor
      · intro h
        obtain ⟨v, hv, hrest⟩ := run_cons_eq_some.mp h
        obtain ⟨u, hu, hafter⟩ := ih.mp hrest
        exact ⟨u, run_cons_eq_some.mpr ⟨v, hv, hu⟩, hafter⟩
      · rintro ⟨u, hu, hafter⟩
        obtain ⟨v, hv, hrest⟩ := run_cons_eq_some.mp hu
        exact run_cons_eq_some.mpr ⟨v, hv, ih.mpr ⟨u, hrest, hafter⟩⟩

theorem along_append {s u : σ} {before after : List α} (hrun : run step s before = some u) :
    Along step ok s (before ++ after) ↔ Along step ok s before ∧ Along step ok u after := by
  induction before generalizing s with
  | nil =>
      have : s = u := by simpa [run] using hrun
      simp [Along, this]
  | cons a rest ih =>
      obtain ⟨v, hv, hrest⟩ := run_cons_eq_some.mp hrun
      rw [List.cons_append, along_cons_of_step hv, along_cons_of_step hv, ih hrest, and_assoc]

theorem along_of_forall (h : ∀ s a, ok s a) (s : σ) (schedule : List α) :
    Along step ok s schedule := by
  induction schedule generalizing s with
  | nil => trivial
  | cons a rest ih =>
      refine ⟨h s a, ?_⟩
      split
      · exact ih _
      · trivial

theorem along_of_forall_mem {schedule : List α} (h : ∀ a ∈ schedule, ∀ s, ok s a) (s : σ) :
    Along step ok s schedule := by
  induction schedule generalizing s with
  | nil => trivial
  | cons a rest ih =>
      refine ⟨h a List.mem_cons_self s, ?_⟩
      split
      · exact ih (fun b hb => h b (List.mem_cons_of_mem a hb)) _
      · trivial

theorem along_of_prefixes {s : σ} {schedule : List α}
    (h : ∀ before a t, before ++ [a] <+: schedule → run step s before = some t → ok t a) :
    Along step ok s schedule := by
  induction schedule generalizing s with
  | nil => trivial
  | cons a rest ih =>
      refine ⟨h [] a s (List.prefix_append [a] rest) rfl, ?_⟩
      cases hstep : step s a with
      | none => trivial
      | some u =>
          refine ih fun before b t hprefix hrun => ?_
          refine h (a :: before) b t ((List.prefix_cons_inj a).mpr hprefix) ?_
          exact run_cons_eq_some.mpr ⟨u, hstep, hrun⟩

/-- A condition that follows from another one in every state of the invariant
holds along the same schedules. -/
theorem Along.of_invariant {ok' : σ → α → Prop} {Inv : σ → Prop}
    (hstep : ∀ s a t, Inv s → ok s a → step s a = some t → Inv t)
    (himp : ∀ s a, Inv s → ok s a → ok' s a) {s : σ} {schedule : List α} (hinit : Inv s)
    (h : Along step ok s schedule) : Along step ok' s schedule := by
  induction schedule generalizing s with
  | nil => trivial
  | cons a rest ih =>
      rcases h with ⟨hok, hrest⟩
      refine ⟨himp s a hinit hok, ?_⟩
      cases hnext : step s a with
      | none => trivial
      | some t =>
          rw [hnext] at hrest
          exact ih (hstep s a t hinit hok hnext) hrest

/-- The invariant rule: a property that survives every step taken under `ok`
holds at the end of every schedule whose steps are all taken under `ok`. -/
theorem run_invariant {Inv : σ → Prop}
    (hstep : ∀ s a t, Inv s → ok s a → step s a = some t → Inv t)
    {s t : σ} {schedule : List α} (hinit : Inv s)
    (halong : Along step ok s schedule) (hrun : run step s schedule = some t) :
    Inv t := by
  induction schedule generalizing s with
  | nil =>
      have : s = t := by simpa [run] using hrun
      exact this ▸ hinit
  | cons a rest ih =>
      obtain ⟨u, hu, hrest⟩ := run_cons_eq_some.mp hrun
      obtain ⟨hok, halong'⟩ := (along_cons_of_step hu).mp halong
      exact ih (hstep s a u hinit hok hu) halong' hrest

/-- What comes to hold along a schedule comes to hold at one of its steps. -/
theorem exists_step_of_run {P : σ → Prop} {s t : σ} {schedule : List α}
    (hrun : run step s schedule = some t) (hs : ¬ P s) (ht : P t) :
    ∃ before a after u v, schedule = before ++ a :: after ∧ run step s before = some u ∧
      step u a = some v ∧ ¬ P u ∧ P v := by
  induction schedule generalizing s with
  | nil =>
      have : s = t := by simpa [run] using hrun
      exact (hs (this ▸ ht)).elim
  | cons a rest ih =>
      obtain ⟨u, hu, hrest⟩ := run_cons_eq_some.mp hrun
      by_cases hnow : P u
      · exact ⟨[], a, rest, s, u, rfl, rfl, hu, hs, hnow⟩
      · obtain ⟨before, b, after, v, w, rfl, hbefore, hstep, hv, hw⟩ := ih hrest hnow
        exact ⟨a :: before, b, after, v, w, rfl, run_cons_eq_some.mpr ⟨u, hu, hbefore⟩, hstep,
          hv, hw⟩

end Socle.GuardedRuns
