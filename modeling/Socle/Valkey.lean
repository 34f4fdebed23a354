import Mathlib.Logic.Function.Basic
import Mathlib.Order.Lattice

/-!
A key-value server with expiring keys.  A key that was given a time to live is
gone from the instant at which it ends; `T` are the instants and the durations.
-/

namespace Socle.Valkey

/-- A key that exists; without an expiry it stays. -/
structure Entry (T : Type) where
  value : Int
  expiry : Option T
  deriving DecidableEq

/-- The last content of every key, whether it has expired since or not. -/
abbrev Keyspace (K T : Type) := K → Option (Entry T)

/-- The commands, with the durations they carry. -/
inductive Command (K T : Type) where
  | get (k : K)
  | incrBy (k : K) (amount : Int)
  | expire (k : K) (ttl : T)
  | set (k : K) (value : Int) (ttl : T)
  | setNx (k : K) (value : Int) (ttl : T)

variable {K T : Type}

@[reducible] def Answer : Command K T → Type
  | .get _ => Option Int
  | .incrBy _ _ => Int
  | .expire _ _ => Unit
  | .set _ _ _ => Unit
  | .setNx _ _ _ => Bool

/-- The key a command is about. -/
def Command.key : Command K T → K
  | .get k | .incrBy k _ | .expire k _ | .set k _ _ | .setNx k _ _ => k

section Expiry

variable [LinearOrder T] {now later : T} {s : Keyspace K T} {k : K} {e : Entry T}

/-- The key has not expired. -/
def Entry.alive (now : T) (e : Entry T) : Bool := e.expiry.all fun expiry => decide (now < expiry)

/-- What the server finds under a key. -/
def live (now : T) (s : Keyspace K T) (k : K) : Option (Entry T) := (s k).filter (Entry.alive now)

@[simp] theorem alive_none (value : Int) : (⟨value, none⟩ : Entry T).alive now = true := rfl

@[simp] theorem alive_some (value : Int) (expiry : T) :
    (⟨value, some expiry⟩ : Entry T).alive now = decide (now < expiry) := rfl

theorem live_eq_some : live now s k = some e ↔ s k = some e ∧ e.alive now = true :=
  Option.filter_eq_some_iff

theorem Entry.alive_of_le (h : e.alive later = true) (hle : now ≤ later) : e.alive now = true := by
  cases hexpiry : e.expiry with
  | none => simp [Entry.alive, hexpiry]
  | some expiry =>
      simp only [Entry.alive, hexpiry, Option.all_some, decide_eq_true_eq] at h ⊢
      exact hle.trans_lt h

theorem live_of_le (hle : now ≤ later) (h : live later s k = some e) : live now s k = some e := by
  rw [live_eq_some] at h ⊢
  exact ⟨h.1, Entry.alive_of_le h.2 hle⟩

/-- The entry that `INCRBY` leaves: it keeps the expiry, and starts from 0
without one. -/
def incremented (now : T) (s : Keyspace K T) (k : K) (amount : Int) : Entry T :=
  match live now s k with
  | some e => { e with value := e.value + amount }
  | none => ⟨amount, none⟩

theorem live_of_all (h : (s k).all (Entry.alive now) = true) : live now s k = s k := by
  cases hkey : s k with
  | none => rw [live, hkey, Option.filter_none]
  | some e =>
      rw [hkey, Option.all_some] at h
      exact live_eq_some.mpr ⟨hkey, h⟩

theorem incremented_value (h : (s k).all (Entry.alive now) = true) (amount : Int) :
    (incremented now s k amount).value = ((s k).map Entry.value).getD 0 + amount := by
  unfold incremented
  rw [live_of_all h]
  cases s k with
  | none => exact (Int.zero_add amount).symm
  | some e => rfl

end Expiry

section Commands

variable [DecidableEq K] {s : Keyspace K T} {k k' : K} {e : Entry T}

def put (s : Keyspace K T) (k : K) (e : Entry T) : Keyspace K T := Function.update s k (some e)

@[simp] theorem put_self : put s k e k = some e := Function.update_self ..

theorem put_of_ne (h : k' ≠ k) : put s k e k' = s k' := Function.update_of_ne h ..

variable [LinearOrder T] {now : T}

/-- One command, atomic, at an instant of the server. -/
def execute [Add T] (now : T) (s : Keyspace K T) : (c : Command K T) → Keyspace K T × Answer c
  | .get k => (s, (live now s k).map Entry.value)
  | .incrBy k amount =>
      (put s k (incremented now s k amount), (incremented now s k amount).value)
  | .expire k ttl =>
      match live now s k with
      | some e => (put s k { e with expiry := some (now + ttl) }, ())
      | none => (s, ())
  | .set k value ttl => (put s k ⟨value, some (now + ttl)⟩, ())
  | .setNx k value ttl =>
      match live now s k with
      | some _ => (s, false)
      | none => (put s k ⟨value, some (now + ttl)⟩, true)

theorem execute_of_ne [Add T] (c : Command K T) (h : k ≠ c.key) :
    (execute now s c).1 k = s k := by
  cases c with
  | get k' => rfl
  | incrBy k' amount => exact put_of_ne h
  | expire k' ttl =>
      simp only [execute]
      split
      · exact put_of_ne h
      · rfl
  | set k' value ttl => exact put_of_ne h
  | setNx k' value ttl =>
      simp only [execute]
      split
      · rfl
      · exact put_of_ne h

/-- What a command does to its key and answers is read from that key alone. -/
theorem execute_congr [Add T] {s' : Keyspace K T} (now : T) (c : Command K T)
    (h : s c.key = s' c.key) :
    (execute now s c).2 = (execute now s' c).2 ∧
      (execute now s c).1 c.key = (execute now s' c).1 c.key := by
  have hlive : live now s c.key = live now s' c.key := by rw [live, live, h]
  cases c with
  | get k => exact ⟨congrArg (Option.map Entry.value) hlive, h⟩
  | incrBy k amount =>
      have hsame : incremented now s k amount = incremented now s' k amount := by
        unfold incremented
        rw [show live now s k = live now s' k from hlive]
      refine ⟨congrArg Entry.value hsame, ?_⟩
      show put s k (incremented now s k amount) k = put s' k (incremented now s' k amount) k
      rw [put_self, put_self, hsame]
  | expire k ttl =>
      refine ⟨rfl, ?_⟩
      simp only [execute, show live now s k = live now s' k from hlive]
      cases live now s' k with
      | some e => exact put_self.trans put_self.symm
      | none => exact h
  | set k value ttl => exact ⟨rfl, put_self.trans put_self.symm⟩
  | setNx k value ttl =>
      simp only [execute, show live now s k = live now s' k from hlive]
      cases live now s' k with
      | some e => exact ⟨rfl, h⟩
      | none => exact ⟨rfl, put_self.trans put_self.symm⟩

theorem value_expire [Add T] (now : T) (s : Keyspace K T) (k : K) (ttl : T) (k' : K) :
    ((execute now s (.expire k ttl)).1 k').map Entry.value = (s k').map Entry.value := by
  by_cases hkey : k' = k
  · subst hkey
    simp only [execute]
    split
    · rename_i e he
      rw [(live_eq_some.mp he).1]
      dsimp only
      rw [put_self]
      rfl
    · rfl
  · rw [execute_of_ne _ hkey]

theorem execute_setNx_of_none [Add T] {now : T} (h : live now s k = none) (value : Int) (ttl : T) :
    execute now s (.setNx k value ttl) = (put s k ⟨value, some (now + ttl)⟩, true) := by
  simp only [execute]
  rw [h]

theorem execute_setNx_of_some [Add T] {now : T} (h : live now s k = some e) (value : Int)
    (ttl : T) : execute now s (.setNx k value ttl) = (s, false) := by
  simp only [execute]
  rw [h]

end Commands

end Socle.Valkey
