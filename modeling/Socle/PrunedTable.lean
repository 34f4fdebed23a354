import Mathlib.Data.List.Nodup

/-!
A table beside the same table from which dead rows have been deleted.  Rows are
found by a unique key; a reader that treats a dead row like a missing one cannot
tell the two tables apart.
-/

namespace Socle.PrunedTable

variable {κ ρ : Type*} [DecidableEq κ] {keyOf : ρ → κ} {dead : ρ → Prop}

/-- `pruned` is `full` without the rows of some keys, all of them dead. -/
def Pruned (keyOf : ρ → κ) (dead : ρ → Prop) (full pruned : List ρ) : Prop :=
  ∃ gone : κ → Bool, pruned = full.filter (fun r => !gone (keyOf r)) ∧
    ∀ r ∈ full, gone (keyOf r) = true → dead r

/-- Where keys are unique, deleting dead rows prunes the table. -/
theorem pruned_filter {full : List ρ} (hkeys : (full.map keyOf).Nodup) {test : ρ → Bool}
    (hdead : ∀ r ∈ full, test r = true → dead r) :
    Pruned keyOf dead full (full.filter fun r => !test r) := by
  have hone (r : ρ) (hr : r ∈ full) :
      (full.any fun x => decide (keyOf x = keyOf r) && test x) = test r := by
    rw [Bool.eq_iff_iff, List.any_eq_true]
    constructor
    · rintro ⟨x, hx, hboth⟩
      rw [Bool.and_eq_true, decide_eq_true_eq] at hboth
      rw [← List.inj_on_of_nodup_map hkeys hx hr hboth.1]
      exact hboth.2
    · exact fun htest => ⟨r, hr, by simp [htest]⟩
  refine ⟨fun key => full.any fun x => decide (keyOf x = key) && test x, ?_, ?_⟩
  · refine List.filter_congr fun r hr => ?_
    exact congrArg (fun b => !b) (hone r hr).symm
  · intro r hr hgone
    exact hdead r hr ((hone r hr).symm.trans hgone)

variable {full pruned : List ρ}

omit [DecidableEq κ] in
theorem Pruned.subset (h : Pruned keyOf dead full pruned) : pruned ⊆ full := by
  obtain ⟨gone, rfl, -⟩ := h
  exact List.filter_subset_self _

theorem Pruned.find?_key (h : Pruned keyOf dead full pruned) (key : κ) :
    (full.find? fun r => keyOf r == key) = (pruned.find? fun r => keyOf r == key) ∨
      (pruned.find? fun r => keyOf r == key) = none ∧
        ∃ r, (full.find? fun r => keyOf r == key) = some r ∧ dead r := by
  obtain ⟨gone, rfl, hdead⟩ := h
  by_cases hgone : gone key = true
  · have hnone : ((full.filter fun r => !gone (keyOf r)).find? fun r => keyOf r == key) = none := by
      refine List.find?_eq_none.mpr fun r hr hkey => ?_
      have hkept := (List.mem_filter.mp hr).2
      rw [beq_iff_eq.mp hkey, hgone] at hkept
      cases hkept
    rw [hnone]
    cases hfound : full.find? fun r => keyOf r == key with
    | none => exact .inl rfl
    | some r =>
        have hkey : keyOf r = key := by simpa using List.find?_some hfound
        exact .inr ⟨rfl, r, rfl, hdead r (List.mem_of_find?_eq_some hfound) (hkey ▸ hgone)⟩
  · rw [List.find?_filter]
    refine .inl (congrArg (fun p => full.find? p) (funext fun r => ?_))
    by_cases hkey : keyOf r = key
    · simp [hkey, hgone]
    · simp [hkey]

omit [DecidableEq κ] in
theorem Pruned.find? (h : Pruned keyOf dead full pruned) {p : ρ → Bool}
    (hp : ∀ r, dead r → p r = false) : full.find? p = pruned.find? p := by
  obtain ⟨gone, rfl, hdead⟩ := h
  rw [List.find?_filter]
  induction full with
  | nil => rfl
  | cons r rest ih =>
      have hrest := ih fun x hx => hdead x (List.mem_cons_of_mem _ hx)
      cases hr : p r with
      | false => simpa [hr] using hrest
      | true =>
          have hkept : gone (keyOf r) = false := by
            by_contra hgone
            rw [hp r (hdead r List.mem_cons_self (by simpa using hgone))] at hr
            cases hr
          simp [hr, hkept]

theorem Pruned.append (h : Pruned keyOf dead full pruned) {row : ρ}
    (hfresh : ∀ r ∈ full, keyOf r ≠ keyOf row) :
    Pruned keyOf dead (full ++ [row]) (pruned ++ [row]) := by
  obtain ⟨gone, rfl, hdead⟩ := h
  refine ⟨fun key => gone key && decide (key ≠ keyOf row), ?_, ?_⟩
  · rw [List.filter_append]
    congr 1
    · refine List.filter_congr fun r hr => ?_
      simp [hfresh r hr]
    · simp
  · intro r hr hgone
    rw [Bool.and_eq_true, decide_eq_true_eq] at hgone
    rcases List.mem_append.mp hr with hold | hnew
    · exact hdead r hold hgone.1
    · exact absurd (congrArg keyOf (List.mem_singleton.mp hnew)) hgone.2

omit [DecidableEq κ] in
theorem Pruned.map (h : Pruned keyOf dead full pruned) {f : ρ → ρ}
    (hkey : ∀ r, keyOf (f r) = keyOf r) (hf : ∀ r, dead r → dead (f r)) :
    Pruned keyOf dead (full.map f) (pruned.map f) := by
  obtain ⟨gone, rfl, hdead⟩ := h
  refine ⟨gone, ?_, ?_⟩
  · rw [List.filter_map]
    congr 1
    refine List.filter_congr fun r _ => ?_
    simp [hkey]
  · intro r hr hgone
    obtain ⟨x, hx, rfl⟩ := List.mem_map.mp hr
    rw [hkey] at hgone
    exact hf x (hdead x hx hgone)

end Socle.PrunedTable
