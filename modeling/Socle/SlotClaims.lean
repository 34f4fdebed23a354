import Socle.KeyedTable

/-!
A table that should hold one row for each key, under tasks that run at the same time: one
reads which keys are missing and adds their rows later, another adds a row in the place of an
older one and removes that one later.
-/

namespace Socle.SlotClaims

open Socle.KeyedTable (nodup_map_snoc)

variable {I K : Type}

/-- What a task has in hand: the keys it read as missing and has not committed, the rows and
the removals it has not committed, and the row in whose place it added another. -/
structure Hand (I K : Type) where
  missing : List K := []
  adds : List (I × K) := []
  removes : List I := []
  replacing : Option I := none

/-- The task is about to add a row for the key. -/
def Hand.Due (h : Hand I K) (k : K) : Prop := k ∈ h.missing ∨ k ∈ h.adds.map Prod.snd

instance decidableDue [DecidableEq K] (h : Hand I K) (k : K) : Decidable (h.Due k) :=
  inferInstanceAs (Decidable (_ ∨ _))

/-- What a commit leaves in hand. -/
def Hand.committed [DecidableEq I] [DecidableEq K] (h : Hand I K) : Hand I K where
  missing := h.missing.filter fun k => k ∉ h.adds.map Prod.snd
  replacing := h.replacing.filter fun id => id ∉ h.removes

/-- The tasks, each with what it has in hand and whether it still runs. -/
abbrev Tasks (I K : Type) := List (Hand I K × Bool)

/-- The task at `i` has this in hand. -/
def At (tasks : Tasks I K) (i : Nat) (h : Hand I K) (running : Bool) : Prop :=
  tasks[i]? = some (h, running)

abbrev Running (tasks : Tasks I K) (i : Nat) (h : Hand I K) : Prop := At tasks i h true

/-- A key is claimed by rows and by tasks. -/
inductive Claimant (I : Type) where
  | row (id : I)
  | task (index : Nat)

/-- The claimants of a key: the rows that no running task replaces, and the running tasks that
are about to add one. -/
def Claims (rows : List (I × K)) (tasks : Tasks I K) (k : K) : Claimant I → Prop
  | .row id => (id, k) ∈ rows ∧ ∀ j h, Running tasks j h → h.replacing ≠ some id
  | .task j => ∃ h, Running tasks j h ∧ h.Due k

/-- A key has one claimant at most. -/
def Exclusive (rows : List (I × K)) (tasks : Tasks I K) : Prop :=
  ∀ k x y, Claims rows tasks k x → Claims rows tasks k y → x = y

/-- Rows are known by their identifiers, drawn once. -/
structure Identified (rows : List (I × K)) (tasks : Tasks I K) : Prop where
  distinct : (rows.map Prod.fst).Nodup
  keys : ∀ i h b, At tasks i h b → (h.adds.map Prod.snd).Nodup
  new : ∀ i h b, At tasks i h b → ∀ x ∈ h.adds, x.1 ∉ rows.map Prod.fst
  apart : ∀ i h b, At tasks i h b → ∀ x ∈ h.adds,
    ∀ j g b', At tasks j g b' → ∀ y ∈ g.adds, x.1 = y.1 → i = j ∧ x = y
  spared : ∀ i h b, At tasks i h b → ∀ x ∈ h.adds,
    ∀ j g b', At tasks j g b' → g.replacing ≠ some x.1 ∧ x.1 ∉ g.removes

/-- A row is replaced by one running task at most. -/
def OneReplacer (tasks : Tasks I K) : Prop :=
  ∀ i h, Running tasks i h → ∀ j g, Running tasks j g →
    ∀ id, h.replacing = some id → g.replacing = some id → i = j

/-- The keys in `kept` have a row: only its replacer removes it, and with the row that it
adds in its place. -/
structure Holding (kept : K → Prop) (rows : List (I × K)) (tasks : Tasks I K) : Prop where
  fair : ∀ i h, Running tasks i h → ∀ id ∈ h.removes, ∀ k, kept k →
    (id, k) ∈ rows → h.replacing = some id
  held : ∀ k, kept k → ∃ id, (id, k) ∈ rows ∧ ∀ i h, Running tasks i h →
    h.replacing = some id → k ∈ h.adds.map Prod.snd

structure Sound (kept : K → Prop) (rows : List (I × K)) (tasks : Tasks I K) : Prop
    extends Identified rows tasks, Holding kept rows tasks where
  exclusive : Exclusive rows tasks
  oneReplacer : OneReplacer tasks

/-- Nothing that is known has this identifier. -/
structure Unused (id : I) (rows : List (I × K)) (tasks : Tasks I K) : Prop where
  rows : id ∉ rows.map Prod.fst
  adds : ∀ i h b, At tasks i h b → id ∉ h.adds.map Prod.fst
  replacing : ∀ i h b, At tasks i h b → h.replacing ≠ some id
  removes : ∀ i h b, At tasks i h b → id ∉ h.removes

/-- What the running task at `i` may do next, with the rows and the hand it leaves. -/
inductive Moves [DecidableEq I] [DecidableEq K] (kept : K → Prop) (rows : List (I × K))
    (tasks : Tasks I K) (i : Nat) (h : Hand I K) : List (I × K) → Hand I K → Prop
  | rest : Moves kept rows tasks i h rows h
  /-- Keys are read as missing while no other task is about to add their rows. -/
  | read (missing : List K) (habsent : ∀ k ∈ missing, ∀ id, (id, k) ∉ rows)
      (hfree : ∀ k ∈ missing, ∀ j g, j ≠ i → Running tasks j g →
        ¬ g.Due k) :
      Moves kept rows tasks i h rows { h with missing := missing }
  | add (id : I) (k : K) (hmissing : k ∈ h.missing) (hfirst : k ∉ h.adds.map Prod.snd)
      (hunused : Unused id rows tasks) :
      Moves kept rows tasks i h rows { h with adds := h.adds ++ [(id, k)] }
  /-- A row is added in the place of one that is there and that no other task replaces. -/
  | replace (id : I) (k : K) (old : I) (hclear : h.adds = []) (hnone : h.replacing = none)
      (hold : (old, k) ∈ rows)
      (hfree : ∀ j g, Running tasks j g → g.replacing ≠ some old)
      (hunused : Unused id rows tasks) :
      Moves kept rows tasks i h rows { h with adds := [(id, k)], replacing := some old }
  | remove (ids : List I) (hids : ∀ id ∈ ids, h.replacing = some id ∨
      id ∈ rows.map Prod.fst ∧ ∀ k, kept k → (id, k) ∉ rows) :
      Moves kept rows tasks i h rows { h with removes := h.removes ++ ids }
  | drop (hnone : h.replacing = none) :
      Moves kept rows tasks i h rows { h with adds := [], removes := [] }
  | commit (after : List (I × K)) (hdistinct : (after.map Prod.fst).Nodup)
      (hmem : ∀ a, a ∈ after ↔ a ∈ rows ∧ a.1 ∉ h.removes ∨ a ∈ h.adds) :
      Moves kept rows tasks i h after h.committed

section Tasks

variable {kept : K → Prop} {rows after : List (I × K)} {tasks : Tasks I K} {i : Nat}
variable {h g : Hand I K} {b : Bool}

theorem at_set_iff (hi : At tasks i h true) {j : Nat} {k : Hand I K} {b' : Bool} :
    At (tasks.set i (g, b)) j k b' ↔ i = j ∧ (g = k ∧ b = b') ∨ i ≠ j ∧ At tasks j k b' := by
  unfold At
  rcases eq_or_ne i j with rfl | hne
  · simp [(List.getElem?_eq_some_iff.mp hi).1]
  · simp [List.getElem?_set_ne hne, hne]

theorem Identified.set (hs : Identified rows tasks) (hi : At tasks i h true)
    (hdistinct : (after.map Prod.fst).Nodup) (hkeys : (g.adds.map Prod.snd).Nodup)
    (hrows : ∀ x ∈ after, x ∈ rows ∨ x ∈ h.adds)
    (hadds : ∀ x ∈ g.adds, x.1 ∉ after.map Prod.fst ∧ (x ∈ h.adds ∨ Unused x.1 rows tasks))
    (hsame : ∀ x ∈ g.adds, ∀ y ∈ g.adds, x.1 = y.1 → x = y)
    (hreplacing : ∀ id, g.replacing = some id → h.replacing = some id ∨ id ∈ rows.map Prod.fst)
    (hremoves : ∀ id ∈ g.removes, id ∈ h.removes ∨ h.replacing = some id ∨
      id ∈ rows.map Prod.fst) :
    Identified after (tasks.set i (g, b)) := by
  -- An identifier in the hand of another task is not that of a row added here.
  have hother {j : Nat} {k : Hand I K} {b' : Bool} (hj : At tasks j k b') (hne : i ≠ j)
      {x y : I × K} (hx : x ∈ g.adds) (hy : y ∈ k.adds) : x.1 ≠ y.1 := by
    intro heq
    rcases (hadds x hx).2 with hold | hunused
    · exact hne (hs.apart i h true hi x hold j k b' hj y hy heq).1
    · exact hunused.adds j k b' hj (heq ▸ List.mem_map_of_mem hy)
  have hspared {j : Nat} {k : Hand I K} {b' : Bool} (hj : At tasks j k b') {x : I × K}
      (hx : x ∈ k.adds) : g.replacing ≠ some x.1 ∧ x.1 ∉ g.removes := by
    have hrow := hs.new j k b' hj x hx
    have hfree := hs.spared j k b' hj x hx i h true hi
    refine ⟨fun hreplaced => ?_, fun hremoved => ?_⟩
    · exact (hreplacing _ hreplaced).elim hfree.1 hrow
    · rcases hremoves _ hremoved with hold | hreplaced | hthere
      · exact hfree.2 hold
      · exact hfree.1 hreplaced
      · exact hrow hthere
  refine ⟨hdistinct, ?_, ?_, ?_, ?_⟩
  · intro j k b' hj
    rcases (at_set_iff hi).mp hj with ⟨rfl, rfl, rfl⟩ | ⟨-, hj⟩
    · exact hkeys
    · exact hs.keys j k b' hj
  · intro j k b' hj x hx
    rcases (at_set_iff hi).mp hj with ⟨rfl, rfl, rfl⟩ | ⟨hne, hj⟩
    · exact (hadds x hx).1
    · intro hmem
      obtain ⟨y, hy, heq⟩ := List.mem_map.mp hmem
      rcases hrows y hy with hold | hadded
      · exact hs.new j k b' hj x hx (heq ▸ List.mem_map_of_mem hold)
      · exact hne (hs.apart i h true hi y hadded j k b' hj x hx heq).1
  · intro j k b' hj x hx j' k' b'' hj' y hy heq
    rcases (at_set_iff hi).mp hj with ⟨rfl, rfl, rfl⟩ | ⟨hne, hj⟩
    · rcases (at_set_iff hi).mp hj' with ⟨rfl, rfl, rfl⟩ | ⟨hne', hj'⟩
      · exact ⟨rfl, hsame x hx y hy heq⟩
      · exact absurd heq (hother hj' hne' hx hy)
    · rcases (at_set_iff hi).mp hj' with ⟨rfl, rfl, rfl⟩ | ⟨hne', hj'⟩
      · exact absurd heq.symm (hother hj hne hy hx)
      · exact hs.apart j k b' hj x hx j' k' b'' hj' y hy heq
  · intro j k b' hj x hx j' k' b'' hj'
    rcases (at_set_iff hi).mp hj with ⟨rfl, rfl, rfl⟩ | ⟨hne, hj⟩
    · rcases (hadds x hx).2 with hold | hunused
      · rcases (at_set_iff hi).mp hj' with ⟨rfl, rfl, rfl⟩ | ⟨hne', hj'⟩
        · exact hspared hi hold
        · exact hs.spared i h true hi x hold j' k' b'' hj'
      · rcases (at_set_iff hi).mp hj' with ⟨rfl, rfl, rfl⟩ | ⟨hne', hj'⟩
        · refine ⟨fun hreplaced => ?_, fun hremoved => ?_⟩
          · exact (hreplacing _ hreplaced).elim (hunused.replacing i h true hi) hunused.rows
          · rcases hremoves _ hremoved with hold | hreplaced | hthere
            · exact hunused.removes i h true hi hold
            · exact hunused.replacing i h true hi hreplaced
            · exact hunused.rows hthere
        · exact ⟨hunused.replacing j' k' b'' hj', hunused.removes j' k' b'' hj'⟩
    · rcases (at_set_iff hi).mp hj' with ⟨rfl, rfl, rfl⟩ | ⟨hne', hj'⟩
      · exact hspared hj hx
      · exact hs.spared j k b' hj x hx j' k' b'' hj'

theorem Identified.adds_distinct (hs : Identified rows tasks) (hi : At tasks i h b) :
    (h.adds.map Prod.fst).Nodup :=
  List.Nodup.map_on (fun x hx y hy heq => (hs.apart i h b hi x hx i h b hi y hy heq).2)
    (hs.keys i h b hi).of_map

theorem OneReplacer.set (hs : OneReplacer tasks) (hi : Running tasks i h)
    (hreplacing : ∀ id, g.replacing = some id → h.replacing = some id ∨
      ∀ j k, Running tasks j k → k.replacing ≠ some id) :
    OneReplacer (tasks.set i (g, b)) := by
  have hone {j : Nat} {k : Hand I K} (hj : Running tasks j k) {id : I}
      (hg : g.replacing = some id) (hk : k.replacing = some id) : i = j := by
    rcases hreplacing id hg with hh | hfree
    · exact hs i h hi j k hj id hh hk
    · exact absurd hk (hfree j k hj)
  intro j k hj j' k' hj' id hk hk'
  rcases (at_set_iff hi).mp hj with ⟨rfl, rfl, -⟩ | ⟨-, hj⟩
  · rcases (at_set_iff hi).mp hj' with ⟨rfl, -⟩ | ⟨-, hj'⟩
    · rfl
    · exact hone hj' hk hk'
  · rcases (at_set_iff hi).mp hj' with ⟨rfl, rfl, -⟩ | ⟨-, hj'⟩
    · exact (hone hj hk' hk).symm
    · exact hs j k hj j' k' hj' id hk hk'

theorem Holding.fair_set (hs : Sound kept rows tasks) (hi : Running tasks i h)
    (hrows : ∀ x ∈ after, x ∈ rows ∨ x ∈ h.adds)
    (hremoves : ∀ id ∈ g.removes, ∀ k, kept k → (id, k) ∈ after → g.replacing = some id) :
    ∀ j k, Running (tasks.set i (g, b)) j k → ∀ id ∈ k.removes, ∀ key, kept key →
      (id, key) ∈ after → k.replacing = some id := by
  intro j k hj id hid key hkept hrow
  rcases (at_set_iff hi).mp hj with ⟨rfl, rfl, -⟩ | ⟨-, hj⟩
  · exact hremoves id hid key hkept hrow
  · rcases hrows _ hrow with hold | hadded
    · exact hs.fair j k hj id hid key hkept hold
    · exact absurd hid (hs.spared i h true hi _ hadded j k true hj).2

theorem Holding.set (hs : Sound kept rows tasks) (hi : Running tasks i h)
    (hremoves : ∀ id ∈ g.removes, ∀ k, kept k → (id, k) ∈ rows → g.replacing = some id)
    (hadds : b = true → ∀ id k, (id, k) ∈ rows → g.replacing = some id →
      (h.replacing = some id → k ∈ h.adds.map Prod.snd) → k ∈ g.adds.map Prod.snd) :
    Holding kept rows (tasks.set i (g, b)) where
  fair := Holding.fair_set hs hi (fun _ hx => .inl hx) hremoves
  held := by
    intro key hkept
    obtain ⟨id, hrow, hheld⟩ := hs.held key hkept
    refine ⟨id, hrow, fun j k hj hreplaced => ?_⟩
    rcases (at_set_iff hi).mp hj with ⟨rfl, rfl, hrunning⟩ | ⟨-, hj⟩
    · exact hadds hrunning id key hrow hreplaced (hheld i h hi)
    · exact hheld j k hj hreplaced

theorem Exclusive.set (hs : Exclusive rows tasks) (hi : Running tasks i h)
    (hreplacing : ∀ id, h.replacing = some id → b = true ∧ g.replacing = some id)
    (hdue : ∀ k, g.Due k → h.Due k) : Exclusive rows (tasks.set i (g, b)) := by
  have hback {k : K} {x : Claimant I} (hx : Claims rows (tasks.set i (g, b)) k x) :
      Claims rows tasks k x := by
    cases x with
    | row id =>
        refine ⟨hx.1, fun j k hj hreplaced => ?_⟩
        by_cases hne : i = j
        · subst hne
          obtain ⟨rfl, -⟩ := Prod.mk.inj (Option.some.inj (hj.symm.trans hi))
          obtain ⟨rfl, hnow⟩ := hreplacing id hreplaced
          exact hx.2 i g ((at_set_iff hi).mpr (.inl ⟨rfl, rfl, rfl⟩)) hnow
        · exact hx.2 j k ((at_set_iff hi).mpr (.inr ⟨hne, hj⟩)) hreplaced
    | task j =>
        obtain ⟨k', hj, hk⟩ := hx
        rcases (at_set_iff hi).mp hj with ⟨rfl, rfl, -⟩ | ⟨-, hj⟩
        · exact ⟨h, hi, hdue k hk⟩
        · exact ⟨k', hj, hk⟩
  exact fun k x y hx hy => hs k x y (hback hx) (hback hy)

theorem Sound.finish (hs : Sound kept rows tasks) (hi : Running tasks i h)
    (hnone : h.replacing = none) : Sound kept rows (tasks.set i (h, false)) := by
  have hnever (id : I) : h.replacing ≠ some id := by
    rw [hnone]
    exact Option.some_ne_none id ∘ Eq.symm
  refine ⟨hs.toIdentified.set hi hs.distinct (hs.keys i h true hi) (fun _ hx => .inl hx)
    (fun x hx => ⟨hs.new i h true hi x hx, .inl hx⟩)
    (fun x hx y hy heq => (hs.apart i h true hi x hx i h true hi y hy heq).2)
    (fun id hreplaced => .inl hreplaced) (fun id hid => .inl hid), ?_, ?_, ?_⟩
  · exact Holding.set hs hi (hs.fair i h hi) fun hfalse => by cases hfalse
  · exact hs.exclusive.set hi (fun id hreplaced => absurd hreplaced (hnever id)) fun _ hdue => hdue
  · exact hs.oneReplacer.set hi fun id hreplaced => .inl hreplaced

theorem claims_of_set (hi : Running tasks i h)
    (hreplacing : ∀ id, h.replacing = some id → g.replacing = some id) {k : K} {x : Claimant I}
    (hx : Claims rows (tasks.set i (g, true)) k x) :
    x = .task i ∧ g.Due k ∨ x ≠ .task i ∧ Claims rows tasks k x := by
  cases x with
  | row id =>
      refine .inr ⟨nofun, hx.1, fun j k hj hreplaced => ?_⟩
      by_cases hne : i = j
      · subst hne
        obtain ⟨rfl, -⟩ := Prod.mk.inj (Option.some.inj (hj.symm.trans hi))
        exact hx.2 i g ((at_set_iff hi).mpr (.inl ⟨rfl, rfl, rfl⟩)) (hreplacing id hreplaced)
      · exact hx.2 j k ((at_set_iff hi).mpr (.inr ⟨hne, hj⟩)) hreplaced
  | task j =>
      obtain ⟨k', hj, hk⟩ := hx
      rcases (at_set_iff hi).mp hj with ⟨rfl, rfl, -⟩ | ⟨hne, hj⟩
      · exact .inl ⟨rfl, hk⟩
      · exact .inr ⟨fun heq => hne (Claimant.task.inj heq).symm, k', hj, hk⟩

theorem Exclusive.claim (hs : Exclusive rows tasks) (hi : Running tasks i h)
    (hreplacing : ∀ id, h.replacing = some id → g.replacing = some id)
    (hdue : ∀ k, g.Due k → h.Due k ∨ ∀ x, x ≠ .task i →
      ¬ Claims rows (tasks.set i (g, true)) k x) :
    Exclusive rows (tasks.set i (g, true)) := by
  have hclaimed {k : K} {y : Claimant I} (hk : g.Due k) (hne : y ≠ .task i)
      (hy : Claims rows (tasks.set i (g, true)) k y) : False := by
    rcases hdue k hk with hold | hnone
    · rcases claims_of_set hi hreplacing hy with ⟨rfl, -⟩ | ⟨-, hbefore⟩
      · exact hne rfl
      · exact hne (hs k y (.task i) hbefore ⟨h, hi, hold⟩)
    · exact hnone y hne hy
  intro k x y hx hy
  rcases claims_of_set hi hreplacing hx with ⟨rfl, hk⟩ | ⟨hxne, hx'⟩
  · rcases claims_of_set hi hreplacing hy with ⟨rfl, -⟩ | ⟨hyne, -⟩
    · rfl
    · exact (hclaimed hk hyne hy).elim
  · rcases claims_of_set hi hreplacing hy with ⟨rfl, hk⟩ | ⟨-, hy'⟩
    · exact (hclaimed hk hxne hx).elim
    · exact hs k x y hx' hy'

theorem Exclusive.replace (hs : Exclusive rows tasks) (hi : Running tasks i h)
    {id : I} {k : K} {old : I} (hnone : h.replacing = none) (hold : (old, k) ∈ rows)
    (hfree : ∀ j g, Running tasks j g → g.replacing ≠ some old) :
    Exclusive rows (tasks.set i ({ h with adds := [(id, k)], replacing := some old }, true)) := by
  have hbefore (id' : I) (hreplaced : h.replacing = some id') : some old = some id' := by
    rw [hnone] at hreplaced
    cases hreplaced
  refine hs.claim hi hbefore fun key hdue => ?_
  rcases hdue with hmissing | hadded
  · exact .inl (.inl hmissing)
  · obtain rfl : key = k := by simpa using hadded
    -- The row that is replaced claimed the key alone, and claims it no more.
    refine .inr fun x hne hx => ?_
    rcases claims_of_set hi hbefore hx with ⟨rfl, -⟩ | ⟨-, hx'⟩
    · exact hne rfl
    · obtain rfl := hs key x (.row old) hx' ⟨hold, fun j g hj => hfree j g hj⟩
      exact hx.2 i _ ((at_set_iff hi).mpr (.inl ⟨rfl, rfl, rfl⟩)) rfl

theorem Identified.add (hs : Identified rows tasks) (hi : Running tasks i h) {id : I} {k : K}
    (hunused : Unused id rows tasks) (hfirst : k ∉ h.adds.map Prod.snd)
    (hadds : g.adds = h.adds ++ [(id, k)]) (hremoves : g.removes = h.removes)
    (hreplacing : ∀ id, g.replacing = some id → h.replacing = some id ∨ id ∈ rows.map Prod.fst) :
    Identified rows (tasks.set i (g, true)) := by
  have hmem {x : I × K} (hx : x ∈ g.adds) : x ∈ h.adds ∨ x = (id, k) := by
    rw [hadds] at hx
    exact (List.mem_append.mp hx).imp_right List.mem_singleton.mp
  have hother {x : I × K} (hx : x ∈ h.adds) : x.1 ≠ id := by
    rintro rfl
    exact hunused.adds i h true hi (List.mem_map_of_mem hx)
  refine hs.set hi hs.distinct ?_ (fun _ hx => .inl hx) ?_ ?_ hreplacing fun id hid => .inl ?_
  · rw [hadds]
    exact nodup_map_snoc (hs.keys i h true hi) hfirst
  · intro x hx
    rcases hmem hx with hold | rfl
    · exact ⟨hs.new i h true hi x hold, .inl hold⟩
    · exact ⟨hunused.rows, .inr hunused⟩
  · intro x hx y hy heq
    rcases hmem hx with hold | rfl
    · rcases hmem hy with hold' | rfl
      · exact (hs.apart i h true hi x hold i h true hi y hold' heq).2
      · exact absurd heq (hother hold)
    · rcases hmem hy with hold' | rfl
      · exact absurd heq.symm (hother hold')
      · rfl
  · exact hremoves ▸ hid

/-- Two rows have one key only while a running task replaces one of them. -/
theorem Sound.eq_or_replaced (hs : Sound kept rows tasks) {a b : I × K} (ha : a ∈ rows)
    (hb : b ∈ rows) (hkey : a.2 = b.2) :
    a = b ∨ ∃ j g, Running tasks j g ∧
      (g.replacing = some a.1 ∨ g.replacing = some b.1) := by
  by_cases hreplaced : ∃ j g, Running tasks j g ∧
      (g.replacing = some a.1 ∨ g.replacing = some b.1)
  · exact .inr hreplaced
  · have hfirst : Claims rows tasks b.2 (.row a.1) :=
      ⟨hkey ▸ ha, fun j g hj hg => hreplaced ⟨j, g, hj, .inl hg⟩⟩
    have hsecond : Claims rows tasks b.2 (.row b.1) :=
      ⟨hb, fun j g hj hg => hreplaced ⟨j, g, hj, .inr hg⟩⟩
    exact .inl (Prod.ext (Claimant.row.inj (hs.exclusive b.2 _ _ hfirst hsecond)) hkey)

/-- Once all tasks have ended, a key has one row at most, and a kept key has one. -/
theorem Sound.ended (hs : Sound kept rows tasks) (hended : ∀ j k, ¬ Running tasks j k) :
    (∀ a ∈ rows, ∀ b ∈ rows, a.2 = b.2 → a = b) ∧ ∀ k, kept k → ∃ id, (id, k) ∈ rows := by
  refine ⟨fun a ha b hb hkey => ?_, fun k hkept => ?_⟩
  · rcases hs.eq_or_replaced ha hb hkey with hsame | ⟨j, g, hj, -⟩
    · exact hsame
    · exact absurd hj (hended j g)
  · obtain ⟨id, hrow, -⟩ := hs.held k hkept
    exact ⟨id, hrow⟩

theorem sound_of_empty (hempty : ∀ i h b, At tasks i h b → h = {})
    (hdistinct : (rows.map Prod.fst).Nodup) (hsingle : ∀ a ∈ rows, ∀ b ∈ rows, a.2 = b.2 → a = b)
    (hkept : ∀ k, kept k → ∃ id, (id, k) ∈ rows) : Sound kept rows tasks where
  distinct := hdistinct
  keys := by
    intro i h b hi
    rw [hempty i h b hi]
    exact List.nodup_nil
  new := by
    intro i h b hi x hx
    rw [hempty i h b hi] at hx
    cases hx
  apart := by
    intro i h b hi x hx
    rw [hempty i h b hi] at hx
    cases hx
  spared := by
    intro i h b hi x hx
    rw [hempty i h b hi] at hx
    cases hx
  fair := by
    intro i h hi id hid
    rw [hempty i h true hi] at hid
    cases hid
  held := by
    intro k hk
    obtain ⟨id, hrow⟩ := hkept k hk
    refine ⟨id, hrow, fun i h hi hreplacing => ?_⟩
    rw [hempty i h true hi] at hreplacing
    cases hreplacing
  exclusive := by
    have hidle {k : K} {i : Nat} (hi : Claims rows tasks k (.task i)) : False := by
      obtain ⟨h, hrunning, hdue⟩ := hi
      rw [hempty i h true hrunning] at hdue
      rcases hdue with hmissing | hadded
      · cases hmissing
      · cases hadded
    intro k x y hx hy
    cases x with
    | task i => exact (hidle hx).elim
    | row id =>
        cases y with
        | task i => exact (hidle hy).elim
        | row other =>
            have hsame := hsingle _ hx.1 _ hy.1 rfl
            rw [(Prod.mk.inj hsame).1]
  oneReplacer := by
    intro i h hi j g _ id hreplacing
    rw [hempty i h true hi] at hreplacing
    cases hreplacing

variable [DecidableEq I] [DecidableEq K]

theorem Hand.committed_replacing {id : I} :
    h.committed.replacing = some id ↔ h.replacing = some id ∧ id ∉ h.removes := by
  simp [Hand.committed, Option.filter_eq_some_iff]

theorem Hand.mem_committed_missing {k : K} :
    k ∈ h.committed.missing ↔ k ∈ h.missing ∧ k ∉ h.adds.map Prod.snd := by
  simp [Hand.committed]

theorem Hand.due_committed {k : K} (hk : h.committed.Due k) :
    k ∈ h.missing ∧ k ∉ h.adds.map Prod.snd := by
  rcases hk with hmissing | hadded
  · exact Hand.mem_committed_missing.mp hmissing
  · cases hadded

theorem Exclusive.commit (hs : Exclusive rows tasks) (hids : Identified rows tasks)
    (hi : Running tasks i h)
    (hmem : ∀ a, a ∈ after ↔ a ∈ rows ∧ a.1 ∉ h.removes ∨ a ∈ h.adds) :
    Exclusive after (tasks.set i (h.committed, true)) := by
  have hback {k : K} {x : Claimant I} (hx : Claims after (tasks.set i (h.committed, true)) k x) :
      (∃ id, x = .row id ∧ (id, k) ∈ h.adds) ∨
        k ∉ h.adds.map Prod.snd ∧ x = .task i ∧ h.Due k ∨ x ≠ .task i ∧ Claims rows tasks k x := by
    cases x with
    | row id =>
        rcases (hmem _).mp hx.1 with ⟨hrow, hkept⟩ | hadded
        · refine .inr (.inr ⟨nofun, hrow, fun j k hj hreplaced => ?_⟩)
          by_cases hne : i = j
          · subst hne
            obtain ⟨rfl, -⟩ := Prod.mk.inj (Option.some.inj (hj.symm.trans hi))
            exact hx.2 i _ ((at_set_iff hi).mpr (.inl ⟨rfl, rfl, rfl⟩))
              (Hand.committed_replacing.mpr ⟨hreplaced, hkept⟩)
          · exact hx.2 j k ((at_set_iff hi).mpr (.inr ⟨hne, hj⟩)) hreplaced
        · exact .inl ⟨id, rfl, hadded⟩
    | task j =>
        obtain ⟨k', hj, hk⟩ := hx
        rcases (at_set_iff hi).mp hj with ⟨rfl, rfl, -⟩ | ⟨hne, hj⟩
        · obtain ⟨hmissing, hnot⟩ := Hand.due_committed hk
          exact .inr (.inl ⟨hnot, rfl, .inl hmissing⟩)
        · exact .inr (.inr ⟨fun heq => hne (Claimant.task.inj heq).symm, k', hj, hk⟩)
  have hadding {k : K} {id : I} (hadded : (id, k) ∈ h.adds) : k ∈ h.adds.map Prod.snd :=
    List.mem_map_of_mem hadded
  have hclaimed {k : K} {y : Claimant I} (hdue : h.Due k) (hne : y ≠ .task i) :
      ¬ Claims rows tasks k y :=
    fun hy => hne (hs k y (.task i) hy ⟨h, hi, hdue⟩)
  intro k x y hx hy
  rcases hback hx with ⟨id, rfl, hx'⟩ | ⟨hnot, rfl, hdue⟩ | ⟨hxne, hx'⟩
  · rcases hback hy with ⟨id', rfl, hy'⟩ | ⟨hnot, -⟩ | ⟨hyne, hy'⟩
    · rw [Prod.mk.inj (List.inj_on_of_nodup_map (hids.keys i h true hi) hx' hy' rfl) |>.1]
    · exact absurd (hadding hx') hnot
    · exact absurd hy' (hclaimed (.inr (hadding hx')) hyne)
  · rcases hback hy with ⟨id', rfl, hy'⟩ | ⟨-, rfl, -⟩ | ⟨hyne, hy'⟩
    · exact absurd (hadding hy') hnot
    · rfl
    · exact absurd hy' (hclaimed hdue hyne)
  · rcases hback hy with ⟨id', rfl, hy'⟩ | ⟨-, rfl, hdue⟩ | ⟨-, hy'⟩
    · exact absurd hx' (hclaimed (.inr (hadding hy')) hxne)
    · exact absurd hx' (hclaimed hdue hxne)
    · exact hs k x y hx' hy'

theorem Holding.commit (hs : Sound kept rows tasks) (hi : Running tasks i h)
    (hmem : ∀ a, a ∈ after ↔ a ∈ rows ∧ a.1 ∉ h.removes ∨ a ∈ h.adds) :
    Holding kept after (tasks.set i (h.committed, true)) where
  fair := Holding.fair_set hs hi (fun x hx => ((hmem x).mp hx).imp_left And.left)
    fun _ hid => by cases hid
  held := by
    intro key hkept
    obtain ⟨id, hrow, hheld⟩ := hs.held key hkept
    by_cases hreplaced : h.replacing = some id
    · -- The row that was added in its place holds the key from now on.
      obtain ⟨⟨new, k⟩, hadded, rfl⟩ := List.mem_map.mp (hheld i h hi hreplaced)
      refine ⟨new, (hmem _).mpr (.inr hadded), fun j k hj hnew => ?_⟩
      rcases (at_set_iff hi).mp hj with ⟨rfl, rfl, -⟩ | ⟨-, hj⟩
      · exact absurd (Hand.committed_replacing.mp hnew).1
          (hs.spared i h true hi _ hadded i h true hi).1
      · exact absurd hnew (hs.spared i h true hi _ hadded j k true hj).1
    · refine ⟨id, (hmem _).mpr (.inl ⟨hrow, fun hremoved => ?_⟩), fun j k hj hnow => ?_⟩
      · exact hreplaced (hs.fair i h hi id hremoved key hkept hrow)
      · rcases (at_set_iff hi).mp hj with ⟨rfl, rfl, -⟩ | ⟨-, hj⟩
        · exact absurd (Hand.committed_replacing.mp hnow).1 hreplaced
        · exact hheld j k hj hnow

/-- Rows and hands stay sound whatever the running task does. -/
theorem Sound.step (hs : Sound kept rows tasks) (hi : Running tasks i h)
    (hmove : Moves kept rows tasks i h after g) :
    Sound kept after (tasks.set i (g, true)) := by
  have hids := hs.toIdentified
  have hsame (x : I × K) (hx : x ∈ h.adds) (y : I × K) (hy : y ∈ h.adds) (heq : x.1 = y.1) :
      x = y := (hs.apart i h true hi x hx i h true hi y hy heq).2
  have hnew (x : I × K) (hx : x ∈ h.adds) :
      x.1 ∉ rows.map Prod.fst ∧ (x ∈ h.adds ∨ Unused x.1 rows tasks) :=
    ⟨hs.new i h true hi x hx, .inl hx⟩
  cases hmove with
  | rest =>
      refine ⟨hids.set hi hs.distinct (hs.keys i h true hi) (fun _ hx => .inl hx) hnew hsame
        (fun _ => .inl) (fun _ => .inl), ?_, ?_, ?_⟩
      · exact Holding.set hs hi (hs.fair i h hi) fun _ _ _ _ hreplaced hheld => hheld hreplaced
      · exact hs.exclusive.set hi (fun _ hreplaced => ⟨rfl, hreplaced⟩) fun _ hdue => hdue
      · exact hs.oneReplacer.set hi fun _ hreplaced => .inl hreplaced
  | read missing habsent hfree =>
      refine ⟨hids.set hi hs.distinct (hs.keys i h true hi) (fun _ hx => .inl hx) hnew hsame
        (fun _ => .inl) (fun _ => .inl), ?_, ?_, ?_⟩
      · exact Holding.set hs hi (hs.fair i h hi) fun _ _ _ _ hreplaced hheld => hheld hreplaced
      · refine hs.exclusive.claim hi (fun _ hreplaced => hreplaced) fun k hdue => ?_
        rcases hdue with hmissing | hadded
        · refine .inr fun x hne hx => ?_
          cases x with
          | row id => exact habsent k hmissing id hx.1
          | task j =>
              obtain ⟨k', hj, hk⟩ := hx
              rcases (at_set_iff hi).mp hj with ⟨rfl, -⟩ | ⟨hij, hj⟩
              · exact hne rfl
              · exact hfree k hmissing j k' (Ne.symm hij) hj hk
        · exact .inl (.inr hadded)
      · exact hs.oneReplacer.set hi fun _ hreplaced => .inl hreplaced
  | add id k hmissing hfirst hunused =>
      refine ⟨hids.add hi hunused hfirst rfl rfl fun _ => .inl, ?_, ?_, ?_⟩
      · refine Holding.set hs hi (hs.fair i h hi) fun _ _ key _ hreplaced hheld => ?_
        rw [List.map_append]
        exact List.mem_append_left _ (hheld hreplaced)
      · refine hs.exclusive.set hi (fun _ hreplaced => ⟨rfl, hreplaced⟩) fun key hdue => ?_
        rcases hdue with hmissing' | hadded
        · exact .inl hmissing'
        · rw [List.map_append] at hadded
          rcases List.mem_append.mp hadded with hold | hlast
          · exact .inr hold
          · rw [List.mem_singleton.mp hlast]
            exact .inl hmissing
      · exact hs.oneReplacer.set hi fun _ hreplaced => .inl hreplaced
  | replace id k old hclear hnone hold hfree hunused =>
      have hthere : old ∈ rows.map Prod.fst := List.mem_map_of_mem hold
      refine ⟨hids.add (k := k) hi hunused ?_ ?_ rfl ?_, ?_, ?_, ?_⟩
      · rw [hclear]
        exact List.not_mem_nil
      · rw [hclear]
        rfl
      · rintro _ ⟨⟩
        exact .inr hthere
      · refine Holding.set hs hi (fun id' hid key hkept hrow => ?_) ?_
        · have hreplaced := hs.fair i h hi id' hid key hkept hrow
          rw [hnone] at hreplaced
          cases hreplaced
        · rintro _ _ key hrow ⟨⟩ -
          have hkey := List.inj_on_of_nodup_map hs.distinct hrow hold rfl
          rw [(Prod.mk.inj hkey).2]
          exact List.mem_singleton_self _
      · exact hs.exclusive.replace hi hnone hold hfree
      · refine hs.oneReplacer.set hi ?_
        rintro _ ⟨⟩
        exact .inr hfree
  | remove ids hremoved =>
      refine ⟨hids.set hi hs.distinct (hs.keys i h true hi) (fun _ hx => .inl hx) hnew hsame
        (fun _ => .inl) (fun id hid => ?_), ?_, ?_, ?_⟩
      · exact (List.mem_append.mp hid).imp_right fun hlast => (hremoved id hlast).imp_right And.left
      · refine Holding.set hs hi (fun id hid key hkept hrow => ?_)
          fun _ _ _ _ hreplaced hheld => hheld hreplaced
        rcases List.mem_append.mp hid with hold | hlast
        · exact hs.fair i h hi id hold key hkept hrow
        · rcases hremoved id hlast with hreplaced | ⟨-, hnot⟩
          · exact hreplaced
          · exact absurd hrow (hnot key hkept)
      · exact hs.exclusive.set hi (fun _ hreplaced => ⟨rfl, hreplaced⟩) fun _ hdue => hdue
      · exact hs.oneReplacer.set hi fun _ hreplaced => .inl hreplaced
  | drop hnone =>
      have hnever {id : I} (hreplaced : h.replacing = some id) : False := by
        rw [hnone] at hreplaced
        cases hreplaced
      refine ⟨hids.set hi hs.distinct List.nodup_nil (fun _ hx => .inl hx) (fun _ hx => by cases hx)
        (fun _ hx => by cases hx) (fun _ => .inl) (fun _ hid => by cases hid), ?_, ?_, ?_⟩
      · exact Holding.set hs hi (fun _ hid => by cases hid)
          fun _ _ _ _ hreplaced _ => (hnever hreplaced).elim
      · refine hs.exclusive.set hi (fun _ hreplaced => ⟨rfl, hreplaced⟩) fun key hdue => ?_
        rcases hdue with hmissing | hadded
        · exact .inl hmissing
        · cases hadded
      · exact hs.oneReplacer.set hi fun _ hreplaced => .inl hreplaced
  | commit _ hdistinct hmem =>
      refine ⟨hids.set hi hdistinct List.nodup_nil (fun x hx => ((hmem x).mp hx).imp_left And.left)
        (fun _ hx => by cases hx) (fun _ hx => by cases hx)
        (fun _ hreplaced => .inl (Hand.committed_replacing.mp hreplaced).1)
        (fun _ hid => by cases hid), ?_, ?_, ?_⟩
      · exact Holding.commit hs hi hmem
      · exact hs.exclusive.commit hids hi hmem
      · exact hs.oneReplacer.set hi fun _ hreplaced =>
          .inl (Hand.committed_replacing.mp hreplaced).1

end Tasks

end Socle.SlotClaims
