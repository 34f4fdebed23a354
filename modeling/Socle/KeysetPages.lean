import Mathlib.Data.List.Sort

/-!
Pages of a growing table, in decreasing order of a key.  Each page starts below
the last key of the one before, so rows that come in between neither repeat nor
hide another one.
-/

namespace Socle.KeysetPages

variable {ρ κ : Type*} [LinearOrder κ] (key : ρ → κ)

/-- The rows below the cursor; all of them when there is none. -/
def below (cursor : Option κ) (rows : List ρ) : List ρ :=
  rows.filter fun r => cursor.all fun k => decide (key r < k)

def descending (rows : List ρ) : List ρ := rows.mergeSort fun a b => decide (key b ≤ key a)

/-- The rows of a page, and the last key when there are more. -/
structure Page (ρ κ : Type*) where
  items : List ρ
  next : Option κ

/-- One row more than the limit is fetched, to know whether there are more. -/
def page (limit : Nat) (cursor : Option κ) (rows : List ρ) : Page ρ κ :=
  let found := (descending key (below key cursor rows)).take (limit + 1)
  ⟨found.take limit, if limit < found.length then (found.take limit).getLast?.map key else none⟩

/-- What has been read after the requests up to the `n`-th: each request after
the first takes the key the last one gave, until there is none.  The `n`-th one
finds the table `tables n`. -/
def follow (limit : Nat) (tables : Nat → List ρ) : Nat → Page ρ κ
  | 0 => page key limit none (tables 0)
  | n + 1 =>
      let before := follow limit tables n
      match before.next with
      | none => before
      | some k =>
          let p := page key limit (some k) (tables (n + 1))
          ⟨before.items ++ p.items, p.next⟩

variable {key} {limit : Nat} {cursor : Option κ} {rows : List ρ} {r : ρ} {k : κ}

theorem mem_below : r ∈ below key cursor rows ↔ r ∈ rows ∧ ∀ c ∈ cursor, key r < c := by
  cases cursor <;> simp [below]

theorem mem_descending : r ∈ descending key rows ↔ r ∈ rows := List.mem_mergeSort

theorem pairwise_descending (hkeys : (rows.map key).Nodup) :
    (descending key rows).Pairwise fun a b => key b < key a := by
  have hsorted : (descending key rows).Pairwise fun a b => key b ≤ key a := by
    have h : (descending key rows).Pairwise fun a b => decide (key b ≤ key a) = true :=
      List.pairwise_mergeSort (by simpa using fun a b c hab hbc => le_trans hbc hab)
        (by simpa using fun a b => le_total (key b) (key a)) rows
    exact h.imp fun h => of_decide_eq_true h
  have hperm : (descending key rows).Perm rows := List.mergeSort_perm _ _
  have hnodup : (descending key rows).Pairwise fun a b => key a ≠ key b :=
    List.pairwise_map.mp ((hperm.map key).nodup_iff.mpr hkeys)
  exact (hsorted.and hnodup).imp fun ⟨hle, hne⟩ => lt_of_le_of_ne hle (Ne.symm hne)

theorem nodup_below (cursor : Option κ) (hkeys : (rows.map key).Nodup) :
    ((below key cursor rows).map key).Nodup :=
  hkeys.sublist (List.filter_sublist.map key)

/-- What a page gives: the first rows below the cursor, in decreasing order; all
of them, or all those down to the next cursor. -/
structure Turned (key : ρ → κ) (cursor : Option κ) (rows : List ρ) (p : Page ρ κ) : Prop where
  inside : ∀ r ∈ p.items, r ∈ below key cursor rows
  decreasing : p.items.Pairwise fun a b => key b < key a
  last : ∀ k, p.next = some k → ∃ r, p.items.getLast? = some r ∧ key r = k
  down : ∀ r ∈ below key cursor rows, (∀ k, p.next = some k → k ≤ key r) → r ∈ p.items

theorem mem_take_of_le {sorted : List ρ} (hlimit : 1 ≤ limit)
    (hsorted : sorted.Pairwise fun a b => key b < key a) (hr : r ∈ sorted)
    (hle : limit < sorted.length → ∀ last, (sorted.take limit).getLast? = some last →
      key last ≤ key r) : r ∈ sorted.take limit := by
  by_contra hnot
  rw [← List.take_append_drop limit sorted] at hr hsorted
  have hdrop : r ∈ sorted.drop limit := (List.mem_append.mp hr).resolve_left hnot
  have hlonger : limit < sorted.length := by
    have := List.length_pos_of_mem hdrop
    rw [List.length_drop] at this
    omega
  have hne : sorted.take limit ≠ [] := by
    rw [Ne, List.take_eq_nil_iff]
    rintro (rfl | rfl)
    · omega
    · simp at hlonger
  obtain ⟨last, hlast⟩ := Option.isSome_iff_exists.mp (List.getLast?_isSome.mpr hne)
  have hlt : key r < key last :=
    (List.pairwise_append.mp hsorted).2.2 last (List.mem_of_getLast? hlast) r hdrop
  exact absurd (hle hlonger last hlast) (not_le.mpr hlt)

theorem turned_page (cursor : Option κ) (hlimit : 1 ≤ limit) (hkeys : (rows.map key).Nodup) :
    Turned key cursor rows (page key limit cursor rows) := by
  have hsorted := pairwise_descending (nodup_below cursor hkeys)
  have hmem (r : ρ) : r ∈ descending key (below key cursor rows) ↔ r ∈ below key cursor rows :=
    mem_descending
  have htake : ((descending key (below key cursor rows)).take (limit + 1)).take limit =
      (descending key (below key cursor rows)).take limit := by
    rw [List.take_take, Nat.min_eq_left (Nat.le_succ limit)]
  have hpage : page key limit cursor rows =
      ⟨(descending key (below key cursor rows)).take limit,
        if limit < (descending key (below key cursor rows)).length then
          ((descending key (below key cursor rows)).take limit).getLast?.map key else none⟩ := by
    have hlength : limit < ((descending key (below key cursor rows)).take (limit + 1)).length ↔
        limit < (descending key (below key cursor rows)).length := by
      rw [List.length_take]
      omega
    simp only [page, htake, hlength]
  rw [hpage]
  refine ⟨?_, hsorted.sublist (List.take_sublist _ _), ?_, ?_⟩
  · intro r hr
    exact (hmem r).mp (List.mem_of_mem_take hr)
  · intro k hk
    dsimp only at hk ⊢
    split at hk
    · obtain ⟨r, hr, rfl⟩ := Option.map_eq_some_iff.mp hk
      exact ⟨r, hr, rfl⟩
    · cases hk
  · intro r hr hdown
    refine mem_take_of_le hlimit hsorted ((hmem r).mpr hr) fun hlonger last hlast => ?_
    exact hdown (key last) (by simp [hlonger, hlast])

/-- What holds of all that has been read so far, `first` being the table of the
first request. -/
structure Reading (key : ρ → κ) (tables : Nat → List ρ) (n : Nat) (p : Page ρ κ) : Prop where
  inside : ∀ r ∈ p.items, ∃ i ≤ n, r ∈ tables i
  decreasing : p.items.Pairwise fun a b => key b < key a
  last : ∀ k, p.next = some k → ∃ r, p.items.getLast? = some r ∧ key r = k
  complete : ∀ r ∈ tables 0, (∀ k, p.next = some k → k ≤ key r) → r ∈ p.items

variable {tables : Nat → List ρ}

theorem le_of_getLast? {items : List ρ} (hdecreasing : items.Pairwise fun a b => key b < key a)
    {last : ρ} (hlast : items.getLast? = some last) (hr : r ∈ items) : key last ≤ key r := by
  obtain ⟨front, rfl⟩ := List.getLast?_eq_some_iff.mp hlast
  rcases List.mem_append.mp hr with hfront | hsingle
  · exact le_of_lt ((List.pairwise_append.mp hdecreasing).2.2 r hfront last (by simp))
  · rw [List.mem_singleton.mp hsingle]

theorem Reading.append {n : Nat} {before p : Page ρ κ} {k : κ}
    (h : Reading key tables n before) (hnext : before.next = some k)
    (hsubset : tables 0 ⊆ tables (n + 1)) (hp : Turned key (some k) (tables (n + 1)) p) :
    Reading key tables (n + 1) ⟨before.items ++ p.items, p.next⟩ := by
  have hbelow (r : ρ) (hr : r ∈ p.items) : r ∈ tables (n + 1) ∧ key r < k := by
    obtain ⟨hmem, hlt⟩ := mem_below.mp (hp.inside r hr)
    exact ⟨hmem, hlt k rfl⟩
  refine ⟨?_, ?_, ?_, ?_⟩
  · intro r hr
    rcases List.mem_append.mp hr with hold | hnew
    · obtain ⟨i, hi, hmem⟩ := h.inside r hold
      exact ⟨i, Nat.le_succ_of_le hi, hmem⟩
    · exact ⟨n + 1, Nat.le_refl _, (hbelow r hnew).1⟩
  · refine List.pairwise_append.mpr ⟨h.decreasing, hp.decreasing, fun a ha b hb => ?_⟩
    obtain ⟨last, hlast, rfl⟩ := h.last k hnext
    exact lt_of_lt_of_le (hbelow b hb).2 (le_of_getLast? h.decreasing hlast ha)
  · intro k' hk'
    obtain ⟨r, hr, hkey⟩ := hp.last k' hk'
    refine ⟨r, ?_, hkey⟩
    rw [List.getLast?_append, hr]
    rfl
  · intro r hr hdown
    by_cases hk : k ≤ key r
    · refine List.mem_append_left _ (h.complete r hr fun k' hk' => ?_)
      rw [hnext] at hk'
      obtain rfl := Option.some.inj hk'
      exact hk
    · refine List.mem_append_right _ (hp.down r ?_ hdown)
      refine mem_below.mpr ⟨hsubset hr, fun c hc => ?_⟩
      obtain rfl := Option.some.inj hc
      exact not_le.mp hk

theorem reading_follow (hlimit : 1 ≤ limit) (hkeys : ∀ n, ((tables n).map key).Nodup)
    (hgrow : ∀ n, tables n ⊆ tables (n + 1)) (n : Nat) :
    Reading key tables n (follow key limit tables n) := by
  have hfirst (n : Nat) : tables 0 ⊆ tables n := by
    induction n with
    | zero => exact List.Subset.refl _
    | succ n ih => exact List.Subset.trans ih (hgrow n)
  induction n with
  | zero =>
      have hp := turned_page none hlimit (hkeys 0)
      refine ⟨fun r hr => ⟨0, Nat.le_refl 0, (mem_below.mp (hp.inside r hr)).1⟩, hp.decreasing,
        hp.last, fun r hr hdown => ?_⟩
      exact hp.down r (mem_below.mpr ⟨hr, by simp⟩) hdown
  | succ n ih =>
      rw [follow]
      cases hnext : (follow key limit tables n).next with
      | none =>
          refine ⟨fun r hr => ?_, ih.decreasing, ih.last, ih.complete⟩
          obtain ⟨i, hi, hmem⟩ := ih.inside r hr
          exact ⟨i, Nat.le_succ_of_le hi, hmem⟩
      | some k =>
          exact ih.append hnext (hfirst (n + 1)) (turned_page (some k) hlimit (hkeys (n + 1)))

theorem length_below_lt (hlimit : 1 ≤ limit) (hkeys : (rows.map key).Nodup)
    (hnext : (page key limit cursor rows).next = some k) :
    (below key (some k) rows).length < (below key cursor rows).length := by
  have hp := turned_page cursor hlimit hkeys
  obtain ⟨last, hlast, rfl⟩ := hp.last k hnext
  have hmem := hp.inside last (List.mem_of_getLast? hlast)
  have hfilter : below key (some (key last)) rows =
      (below key cursor rows).filter fun r => decide (key r < key last) := by
    unfold below
    rw [List.filter_filter]
    refine List.filter_congr fun r _ => ?_
    by_cases hlt : key r < key last
    · have hcursor : cursor.all (fun c => decide (key r < c)) = true := by
        cases hc : cursor with
        | none => rfl
        | some c =>
            have := (mem_below.mp hmem).2 c hc
            simpa using lt_trans hlt this
      simp [hlt, hcursor]
    · simp [hlt]
  rw [hfilter]
  exact List.length_filter_lt_length_iff_exists.mpr ⟨last, hmem, by simp⟩

/-- Once the table no longer grows the reading comes to its end. -/
theorem exists_next_eq_none (hlimit : 1 ≤ limit) (hkeys : ∀ n, ((tables n).map key).Nodup)
    {N : Nat} (hstable : ∀ n, N ≤ n → tables n = tables N) :
    ∃ n, (follow key limit tables n).next = none := by
  -- the rows still below the cursor decrease with every page
  suffices h : ∀ m n, N ≤ n → (∀ k, (follow key limit tables n).next = some k →
      (below key (some k) (tables N)).length < m) → ∃ n, (follow key limit tables n).next = none by
    refine h ((tables N).length + 1) N (Nat.le_refl N) fun k _ => ?_
    exact Nat.lt_succ_of_le (List.length_filter_le _ _)
  intro m
  induction m with
  | zero =>
      intro n _ hbound
      refine ⟨n, ?_⟩
      cases hnext : (follow key limit tables n).next with
      | none => rfl
      | some k => exact absurd (hbound k hnext) (Nat.not_lt_zero _)
  | succ m ih =>
      intro n hn hbound
      cases hnext : (follow key limit tables n).next with
      | none => exact ⟨n, hnext⟩
      | some k =>
          refine ih (n + 1) (Nat.le_succ_of_le hn) fun k' hk' => ?_
          rw [follow, hnext] at hk'
          dsimp only at hk'
          rw [hstable (n + 1) (Nat.le_succ_of_le hn)] at hk'
          have hlt := length_below_lt hlimit (hkeys N) hk'
          have := hbound k hnext
          omega

end Socle.KeysetPages
