import Mathlib.Data.List.Dedup
import Mathlib.Data.List.Nodup

/-!
Tables with a primary key as lists of rows, with the insertion that updates the
row of its key when there is one.
-/

namespace Socle.KeyedTable

variable {κ ρ : Type*} [DecidableEq κ] {keyOf : ρ → κ}

/-- The row of a key. -/
def lookup (keyOf : ρ → κ) (key : κ) (rows : List ρ) : Option ρ :=
  rows.find? fun row => decide (keyOf row = key)

/-- `INSERT ... ON CONFLICT DO UPDATE`. -/
def upsert (keyOf : ρ → κ) (row : ρ) : List ρ → List ρ
  | [] => [row]
  | r :: rest => if keyOf r = keyOf row then row :: rest else r :: upsert keyOf row rest

def upsertAll (keyOf : ρ → κ) (table rows : List ρ) : List ρ :=
  rows.foldl (fun table row => upsert keyOf row table) table

theorem lookup_cons (key : κ) (r : ρ) (rest : List ρ) :
    lookup keyOf key (r :: rest) = if keyOf r = key then some r else lookup keyOf key rest := by
  by_cases h : keyOf r = key <;> simp [lookup, h]

theorem mem_of_lookup {key : κ} {rows : List ρ} {row : ρ} (h : lookup keyOf key rows = some row) :
    row ∈ rows ∧ keyOf row = key :=
  ⟨List.mem_of_find?_eq_some h, by simpa using List.find?_some h⟩

theorem lookup_eq_none {key : κ} {rows : List ρ} :
    lookup keyOf key rows = none ↔ ∀ row ∈ rows, keyOf row ≠ key := by
  simp [lookup]

theorem lookup_eq_some_iff {key : κ} {rows : List ρ} {row : ρ} (hkeys : (rows.map keyOf).Nodup) :
    lookup keyOf key rows = some row ↔ row ∈ rows ∧ keyOf row = key := by
  refine ⟨mem_of_lookup, ?_⟩
  rintro ⟨hmem, rfl⟩
  cases hfound : lookup keyOf (keyOf row) rows with
  | none => exact absurd rfl (lookup_eq_none.mp hfound row hmem)
  | some other =>
      obtain ⟨hother, hkey⟩ := mem_of_lookup hfound
      rw [List.inj_on_of_nodup_map hkeys hother hmem hkey]

theorem lookup_upsert_self (row : ρ) (table : List ρ) :
    lookup keyOf (keyOf row) (upsert keyOf row table) = some row := by
  induction table with
  | nil => rw [upsert, lookup_cons, if_pos rfl]
  | cons r rest ih =>
      rw [upsert]
      split
      · rw [lookup_cons, if_pos rfl]
      · rename_i hne
        rw [lookup_cons, if_neg hne, ih]

theorem lookup_upsert_of_ne {key : κ} {row : ρ} (hne : keyOf row ≠ key) (table : List ρ) :
    lookup keyOf key (upsert keyOf row table) = lookup keyOf key table := by
  induction table with
  | nil =>
      rw [upsert, lookup_cons, if_neg hne]
  | cons r rest ih =>
      rw [upsert]
      split
      · rename_i heq
        rw [lookup_cons, lookup_cons, if_neg hne, if_neg (heq ▸ hne)]
      · rw [lookup_cons, lookup_cons, ih]

theorem map_upsert (row : ρ) (table : List ρ) :
    (upsert keyOf row table).map keyOf =
      if keyOf row ∈ table.map keyOf then table.map keyOf else table.map keyOf ++ [keyOf row] := by
  induction table with
  | nil => simp [upsert]
  | cons r rest ih =>
      rw [upsert]
      by_cases heq : keyOf r = keyOf row
      · simp [heq]
      · rw [if_neg heq, List.map_cons, ih]
        by_cases hmem : keyOf row ∈ rest.map keyOf
        · have hsome : keyOf row ∈ (r :: rest).map keyOf := List.mem_cons_of_mem _ hmem
          rw [if_pos hmem, if_pos hsome]
          rfl
        · have hnone : keyOf row ∉ (r :: rest).map keyOf := by
            rw [List.map_cons, List.mem_cons, not_or]
            exact ⟨fun h => heq h.symm, hmem⟩
          rw [if_neg hmem, if_neg hnone]
          rfl

theorem mem_upsert {row r : ρ} {table : List ρ} (h : r ∈ upsert keyOf row table) :
    r ∈ table ∨ r = row := by
  induction table with
  | nil => exact .inr (List.mem_singleton.mp h)
  | cons x rest ih =>
      rw [upsert] at h
      split at h
      · rcases List.mem_cons.mp h with rfl | hmem
        · exact .inr rfl
        · exact .inl (List.mem_cons_of_mem _ hmem)
      · rcases List.mem_cons.mp h with rfl | hmem
        · exact .inl List.mem_cons_self
        · rcases ih hmem with hold | rfl
          · exact .inl (List.mem_cons_of_mem _ hold)
          · exact .inr rfl

theorem mem_upsertAll {r : ρ} {table rows : List ρ} (h : r ∈ upsertAll keyOf table rows) :
    r ∈ table ∨ r ∈ rows := by
  induction rows generalizing table with
  | nil => exact .inl h
  | cons row rest ih =>
      rcases ih h with htable | hrest
      · rcases mem_upsert htable with hold | rfl
        · exact .inl hold
        · exact .inr List.mem_cons_self
      · exact .inr (List.mem_cons_of_mem _ hrest)

omit [DecidableEq κ] in
theorem nodup_map_snoc {rows : List ρ} {row : ρ} (h : (rows.map keyOf).Nodup)
    (hfresh : keyOf row ∉ rows.map keyOf) : ((rows ++ [row]).map keyOf).Nodup := by
  rw [List.map_append, List.map_singleton, ← List.concat_eq_append]
  exact h.concat hfresh

theorem nodup_upsert (row : ρ) {table : List ρ} (h : (table.map keyOf).Nodup) :
    ((upsert keyOf row table).map keyOf).Nodup := by
  rw [map_upsert]
  split
  · exact h
  · rename_i hnew
    refine List.nodup_append.mpr ⟨h, List.nodup_singleton _, ?_⟩
    rintro a ha b hb rfl
    rw [List.mem_singleton] at hb
    exact hnew (hb ▸ ha)

theorem nodup_upsertAll {table : List ρ} (rows : List ρ) (h : (table.map keyOf).Nodup) :
    ((upsertAll keyOf table rows).map keyOf).Nodup := by
  induction rows generalizing table with
  | nil => exact h
  | cons row rest ih => exact ih (nodup_upsert row h)

theorem lookup_upsertAll_of_notMem {key : κ} {rows : List ρ} (table : List ρ)
    (hnone : ∀ row ∈ rows, keyOf row ≠ key) :
    lookup keyOf key (upsertAll keyOf table rows) = lookup keyOf key table := by
  induction rows generalizing table with
  | nil => rfl
  | cons row rest ih =>
      have hrest := ih (upsert keyOf row table) fun r hr => hnone r (List.mem_cons_of_mem _ hr)
      rw [← lookup_upsert_of_ne (hnone row List.mem_cons_self) table]
      exact hrest

theorem lookup_upsertAll_of_mem {rows : List ρ} (table : List ρ) (hkeys : (rows.map keyOf).Nodup)
    {row : ρ} (hrow : row ∈ rows) :
    lookup keyOf (keyOf row) (upsertAll keyOf table rows) = some row := by
  induction rows generalizing table with
  | nil => cases hrow
  | cons r rest ih =>
      obtain ⟨hr, hrest⟩ := List.nodup_cons.mp hkeys
      rcases List.mem_cons.mp hrow with rfl | hmem
      · refine (lookup_upsertAll_of_notMem (upsert keyOf row table) ?_).trans
          (lookup_upsert_self row table)
        rintro x hx heq
        exact hr (heq ▸ List.mem_map_of_mem hx)
      · exact ih (upsert keyOf r table) hrest hmem

theorem mem_keys_upsertAll {key : κ} {table rows : List ρ} :
    key ∈ (upsertAll keyOf table rows).map keyOf ↔
      key ∈ table.map keyOf ∨ key ∈ rows.map keyOf := by
  induction rows generalizing table with
  | nil => simp [upsertAll]
  | cons row rest ih =>
      have hstep : key ∈ (upsert keyOf row table).map keyOf ↔
          key ∈ table.map keyOf ∨ key = keyOf row := by
        rw [map_upsert]
        split
        · rename_i hold
          exact ⟨.inl, fun h => h.elim id fun heq => heq ▸ hold⟩
        · rw [List.mem_append, List.mem_singleton]
      rw [List.map_cons, List.mem_cons, ← or_assoc, ← hstep]
      exact ih

/-- A table made of rows has as many as there are when their keys are unique, and only
then. -/
theorem length_upsertAll_nil_iff {rows : List ρ} :
    (upsertAll keyOf [] rows).length = rows.length ↔ (rows.map keyOf).Nodup := by
  have hnil : (([] : List ρ).map keyOf).Nodup := List.nodup_nil
  have hkeys : ((upsertAll keyOf [] rows).map keyOf).Perm (rows.map keyOf).dedup := by
    refine (List.perm_ext_iff_of_nodup (nodup_upsertAll rows hnil) (List.nodup_dedup _)).mpr
      fun key => ?_
    rw [mem_keys_upsertAll, List.mem_dedup, List.map_nil]
    exact or_iff_right List.not_mem_nil
  have hlength : (upsertAll keyOf [] rows).length = (rows.map keyOf).dedup.length :=
    (List.length_map keyOf).symm.trans hkeys.length_eq
  rw [hlength, ← List.dedup_eq_self]
  constructor
  · intro heq
    exact (List.dedup_sublist _).eq_of_length (heq.trans (List.length_map keyOf).symm)
  · intro heq
    rw [heq, List.length_map]

end Socle.KeyedTable
