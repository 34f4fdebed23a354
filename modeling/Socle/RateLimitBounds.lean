import Mathlib.Algebra.Order.BigOperators.Group.List
import Mathlib.Data.NNRat.Defs
import Mathlib.Tactic.Linarith
import Socle.RateLimits

/-!
How many calls the limiter lets through, over any interleaving of their commands in
time: during the life of one counter, and in any interval as long as the window.
-/

namespace Socle.RateLimitBounds

open Socle.GuardedRuns Socle.Procedures Socle.PythonText Socle.Valkey Socle.RateLimits

section Runs

variable {K : Type} [DecidableEq K]

/-- An increment: its key, the life of the counter it fell in, its instant and the
count it brought. -/
structure Increment (K : Type) where
  key : K
  life : Nat
  moment : ℚ
  count : Int

/-- A call with its increments. -/
structure Caller (K : Type) where
  call : Call
  increments : List (Increment K) := []

/-- The server, and the instants at which the lives of each counter began, the last
one first. -/
structure Shared (K : Type) where
  now : ℚ
  keys : Keyspace K ℚ := fun _ => none
  openings : K → List ℚ := fun _ => []

/-- An increment of a key that is not there begins a life of it. -/
def Shared.openingsAfter (s : Shared K) : Command K ℚ → K → List ℚ
  | .incrBy k _ =>
      match live s.now s.keys k with
      | some _ => s.openings
      | none => Function.update s.openings k (s.now :: s.openings k)
  | _ => s.openings

/-- What a call keeps of an answer. -/
def Caller.learn (l : Caller K) (s : Shared K) : (c : Command K ℚ) → Valkey.Answer c → Caller K
  | .incrBy k amount, count =>
      { l with increments :=
          ⟨k, (s.openingsAfter (.incrBy k amount) k).length, s.now, count⟩ :: l.increments }
  | _, _ => l

/-- A command takes effect at one instant, the next one of any call after `elapsed`. -/
def serve : Serve (limiter K) (Shared K) (Caller K) ℚ≥0 := fun s l c elapsed =>
  ({ now := s.now + elapsed
     keys := (execute s.now s.keys c).1
     openings := s.openingsAfter c },
    l.learn s c (execute s.now s.keys c).2, (execute s.now s.keys c).2)

variable {D : Type}

abbrev LimitPool (D : Type) := Pool (limiter (Key D)) Raised (Shared (Key D)) (Caller (Key D)) Unit

def launch (hashing : Hashing D) (settings : Settings) (start : ℚ) (calls : List Call) :
    LimitPool D :=
  ⟨{ now := start }, calls.map fun call => ({ call := call },
    enforceRateLimit hashing settings call)⟩

abbrev limitStep [DecidableEq D] : LimitPool D → Nat × ℚ≥0 → Option (LimitPool D) :=
  Pool.step serve

/-- The call was let through. -/
def passed {I : Interface} {ε α : Type} : Proc I ε α → Bool
  | .ret _ => true
  | _ => false

/-- The call is from this address or bears this identifier, up to letter case. -/
def bears (hashing : Hashing D) (scope : String) (subject : Str) (call : Call) : Bool :=
  call.scope = scope ∧ ∃ text ∈ call.subjects, hashing.lower text = hashing.lower subject

/-- The calls of a subject that were let through, with an increment of some kind. -/
def letThrough (hashing : Hashing D) (scope : String) (subject : Str)
    (counted : Increment (Key D) → Bool) (pool : LimitPool D) : Nat :=
  pool.threads.countP fun thread =>
    passed thread.2 && bears hashing scope subject thread.1.call &&
      thread.1.increments.any counted

/-- What the limiter allows to a subject. -/
structure Limited [DecidableEq D] (hashing : Hashing D) (settings : Settings) (pool : LimitPool D)
    (scope : String) (subject : Str) : Prop where
  /-- No call of a subject passes without being counted. -/
  counted : ∀ thread ∈ pool.threads, passed thread.2 = true →
    bears hashing scope subject thread.1.call = true →
      ∃ k increment, key hashing scope subject = .ok k ∧ increment ∈ thread.1.increments ∧
        increment.key = k
  perLife : ∀ k, key hashing scope subject = .ok k → ∀ life,
    letThrough hashing scope subject (fun r => r.key = k ∧ r.life = life) pool ≤
      settings.authRateLimitAttempts.toNat
  perWindow : ∀ k, key hashing scope subject = .ok k → ∀ start : ℚ,
    letThrough hashing scope subject (fun r => r.key = k ∧ start ≤ r.moment ∧
        r.moment < start + settings.authRateLimitWindowSeconds) pool ≤
      2 * settings.authRateLimitAttempts.toNat

end Runs

section Counts

variable {K : Type} [DecidableEq K] {attempts : Int} {s : Shared K} {ls : List (Caller K)}
variable {i : Nat} {l : Caller K}

/-- The call has an increment of this life within the limit. -/
def Caller.holds (attempts : Int) (k : K) (life : Nat) (l : Caller K) : Bool :=
  l.increments.any fun r => r.key = k ∧ r.life = life ∧ r.count ≤ attempts

/-- The calls within the limit in a life are at most the limit, and in the last life
at most its counter. -/
structure Accounted (attempts : Int) (s : Shared K) (ls : List (Caller K)) : Prop where
  within : ∀ k life, ls.countP (Caller.holds attempts k life) ≤ attempts.toNat
  counter : ∀ k e, s.keys k = some e → 0 < e.value ∧
    ls.countP (Caller.holds attempts k (s.openings k).length) ≤ e.value.toNat
  known : ∀ l ∈ ls, ∀ r ∈ l.increments, r.life ≤ (s.openings r.key).length

theorem holds_cons (k : K) (life : Nat) (r : Increment K) :
    Caller.holds attempts k life { l with increments := r :: l.increments } =
      (decide (r.key = k ∧ r.life = life ∧ r.count ≤ attempts) || l.holds attempts k life) := rfl

theorem countP_holds_cons (attempts : Int) (hl : ls[i]? = some l) (k : K) (life : Nat)
    (r : Increment K) :
    (ls.set i { l with increments := r :: l.increments }).countP (Caller.holds attempts k life) ≤
      ls.countP (Caller.holds attempts k life) +
        if r.key = k ∧ r.life = life ∧ r.count ≤ attempts then 1 else 0 := by
  have hset := countP_set_add (Caller.holds attempts k life) hl
    { l with increments := r :: l.increments }
  rw [holds_cons] at hset
  by_cases hnew : r.key = k ∧ r.life = life ∧ r.count ≤ attempts
  · rw [if_pos hnew]
    rw [decide_eq_true hnew, Bool.true_or, if_pos rfl] at hset
    exact (Nat.le_add_right _ _).trans hset.le
  · rw [if_neg hnew]
    rw [decide_eq_false hnew, Bool.false_or] at hset
    omega

theorem Accounted.increment (h : Accounted attempts s ls) (hl : ls[i]? = some l) {s' : Shared K}
    {r : Increment K} {expiry : Option ℚ}
    (hkeys : s'.keys = put s.keys r.key ⟨r.count, expiry⟩)
    (hother : ∀ k ≠ r.key, s'.openings k = s.openings k)
    (hgrows : (s.openings r.key).length ≤ (s'.openings r.key).length)
    (hlife : r.life = (s'.openings r.key).length)
    (hcount : ls.countP (Caller.holds attempts r.key r.life) + 1 ≤ r.count.toNat) :
    Accounted attempts s' (ls.set i { l with increments := r :: l.increments }) := by
  refine ⟨fun k life => ?_, fun k e he => ?_, fun l' hmem r' hr' => ?_⟩
  · have hle := countP_holds_cons attempts hl k life r
    have hwithin := h.within k life
    by_cases hnew : r.key = k ∧ r.life = life ∧ r.count ≤ attempts
    · obtain ⟨rfl, rfl, hattempts⟩ := hnew
      have : r.count.toNat ≤ attempts.toNat := Int.toNat_le_toNat hattempts
      split at hle <;> omega
    · rw [if_neg hnew] at hle
      omega
  · by_cases hk : k = r.key
    · subst hk
      rw [hkeys, put_self] at he
      cases he
      have hle := countP_holds_cons attempts hl r.key r.life r
      rw [← hlife]
      show 0 < r.count ∧ _ ≤ r.count.toNat
      split at hle <;> omega
    · rw [hkeys, put_of_ne hk] at he
      rw [hother k hk]
      obtain ⟨hpos, hcounter⟩ := h.counter k e he
      have hle := countP_holds_cons attempts hl k (s.openings k).length r
      rw [if_neg fun hnew => hk hnew.1.symm] at hle
      exact ⟨hpos, by omega⟩
  · have hold : ∀ r' : Increment K, r'.life ≤ (s.openings r'.key).length →
        r'.life ≤ (s'.openings r'.key).length := by
      intro r' hr'
      by_cases hk : r'.key = r.key
      · rw [hk] at hr' ⊢
        exact hr'.trans hgrows
      · rwa [hother _ hk]
    rcases List.mem_or_eq_of_mem_set hmem with hin | rfl
    · exact hold r' (h.known l' hin r' hr')
    · rcases List.mem_cons.mp hr' with rfl | hr'
      · exact hlife.le
      · exact hold r' (h.known l (List.mem_of_getElem? hl) r' hr')

theorem incremented_cases (s : Shared K) (k : K) :
    (∃ e, s.keys k = some e ∧ incremented s.now s.keys k 1 = ⟨e.value + 1, e.expiry⟩ ∧
        s.openingsAfter (.incrBy k 1) = s.openings) ∨
      ((∀ e, s.keys k = some e → ∃ expiry, e.expiry = some expiry ∧ expiry ≤ s.now) ∧
        incremented s.now s.keys k 1 = ⟨1, none⟩ ∧
        s.openingsAfter (.incrBy k 1) = Function.update s.openings k (s.now :: s.openings k)) := by
  unfold incremented Shared.openingsAfter
  cases hlive : live s.now s.keys k with
  | some e => exact .inl ⟨e, (live_eq_some.mp hlive).1, rfl, by simp only [hlive]⟩
  | none =>
      refine .inr ⟨fun e he => ?_, rfl, by simp only [hlive]⟩
      have hdead : e.alive s.now = false := by
        rw [live, he, Option.filter_some] at hlive
        by_contra halive
        simp [halive] at hlive
      cases hexpiry : e.expiry with
      | none => simp [Entry.alive, hexpiry] at hdead
      | some expiry =>
          simp only [Entry.alive, hexpiry, Option.all_some, decide_eq_false_iff_not, not_lt]
            at hdead
          exact ⟨expiry, rfl, hdead⟩

theorem Accounted.fresh (h : Accounted attempts s ls) {k : K} {life : Nat}
    (hlife : (s.openings k).length < life) : ls.countP (Caller.holds attempts k life) = 0 := by
  refine List.countP_eq_zero.mpr fun l hl hholds => ?_
  obtain ⟨r, hr, hr'⟩ := List.any_eq_true.mp hholds
  obtain ⟨rfl, rfl, -⟩ := of_decide_eq_true hr'
  exact absurd (h.known l hl r hr) (Nat.not_le.mpr hlife)

theorem accounted_incrBy (h : Accounted attempts s ls) (hl : ls[i]? = some l) (k : K)
    (elapsed : ℚ≥0) :
    Accounted attempts (serve s l (.incrBy k 1) elapsed).1
      (ls.set i (serve s l (.incrBy k 1) elapsed).2.1) := by
  have hkeys : (serve s l (.incrBy k 1) elapsed).1.keys = put s.keys k
      ⟨(incremented s.now s.keys k 1).value, (incremented s.now s.keys k 1).expiry⟩ := rfl
  rcases incremented_cases s k with ⟨e, hkey, hentry, hopenings⟩ | ⟨-, hentry, hopenings⟩
  · have hsame : (serve s l (.incrBy k 1) elapsed).1.openings = s.openings := hopenings
    obtain ⟨hpos, hcounter⟩ := h.counter k e hkey
    refine h.increment hl hkeys (fun _ _ => by rw [hsame]) (by rw [hsame]) rfl ?_
    show ls.countP (Caller.holds attempts k (s.openingsAfter (.incrBy k 1) k).length) + 1 ≤
      (incremented s.now s.keys k 1).value.toNat
    rw [hopenings, hentry]
    show _ ≤ (e.value + 1).toNat
    omega
  · have hnew : (serve s l (.incrBy k 1) elapsed).1.openings =
        Function.update s.openings k (s.now :: s.openings k) := hopenings
    refine h.increment hl hkeys (fun _ hk => ?_) ?_ rfl ?_
    · rw [hnew, Function.update_of_ne hk]
    · rw [hnew, Function.update_self]
      exact Nat.le_succ _
    · show ls.countP (Caller.holds attempts k (s.openingsAfter (.incrBy k 1) k).length) + 1 ≤
        (incremented s.now s.keys k 1).value.toNat
      rw [hopenings, hentry, Function.update_self, List.length_cons, h.fresh (Nat.lt_succ_self _)]
      exact le_rfl

theorem accounted_expire (h : Accounted attempts s ls) (hl : ls[i]? = some l) (k : K) (ttl : ℚ)
    (elapsed : ℚ≥0) :
    Accounted attempts (serve s l (.expire k ttl) elapsed).1
      (ls.set i (serve s l (.expire k ttl) elapsed).2.1) := by
  have hsame : (serve s l (.expire k ttl) elapsed).2.1 = l := rfl
  rw [hsame, set_eq_self hl]
  refine ⟨h.within, fun k' e he => ?_, h.known⟩
  have hvalue := value_expire s.now s.keys k ttl k'
  rw [show (execute s.now s.keys (.expire k ttl)).1 k' = some e from he, Option.map_some] at hvalue
  obtain ⟨e', he', heq⟩ := Option.map_eq_some_iff.mp hvalue.symm
  obtain ⟨hpos, hcounter⟩ := h.counter k' e' he'
  exact ⟨heq ▸ hpos, heq ▸ hcounter⟩

end Counts

section Times

variable {K : Type} [DecidableEq K] {window : ℚ} {s : Shared K} {ls : List (Caller K)}
variable {i : Nat} {l : Caller K}

/-- The last life of a counter is as long as the window, and so was every one
before it. -/
structure Timed (window : ℚ) (s : Shared K) (ls : List (Caller K)) : Prop where
  present : ∀ k, s.openings k ≠ [] ↔ s.keys k ≠ none
  began : ∀ k opening rest, s.openings k = opening :: rest → opening ≤ s.now ∧
    ∀ e expiry, s.keys k = some e → e.expiry = some expiry → opening + window ≤ expiry
  past : ∀ l ∈ ls, ∀ r ∈ l.increments, r.moment ≤ s.now
  before : ∀ l ∈ ls, ∀ r ∈ l.increments, ∀ opening rest, s.openings r.key = opening :: rest →
    r.life ≤ rest.length → r.moment ≤ opening
  older : ∀ l ∈ ls, ∀ r ∈ l.increments, ∀ opening rest, s.openings r.key = opening :: rest →
    r.life + 1 ≤ rest.length → r.moment + window ≤ opening
  apart : ∀ l ∈ ls, ∀ r ∈ l.increments, ∀ l' ∈ ls, ∀ r' ∈ l'.increments, r.key = r'.key →
    r.life + 2 ≤ r'.life → r.moment + window ≤ r'.moment

omit [DecidableEq K] in
theorem Timed.wait (h : Timed window s ls) {s' : Shared K} (hnow : s.now ≤ s'.now)
    (hkeys : s'.keys = s.keys) (hopenings : s'.openings = s.openings) : Timed window s' ls := by
  constructor
  · rw [hkeys, hopenings]
    exact h.present
  · rw [hkeys, hopenings]
    intro k opening rest hk
    obtain ⟨hle, hexpiry⟩ := h.began k opening rest hk
    exact ⟨hle.trans hnow, hexpiry⟩
  · exact fun l hl r hr => (h.past l hl r hr).trans hnow
  · rw [hopenings]
    exact h.before
  · rw [hopenings]
    exact h.older
  · exact h.apart

theorem Timed.write (h : Timed window s ls) {k : K} {e : Entry ℚ} (hopen : s.openings k ≠ [])
    (hexpiry : ∀ opening rest expiry, s.openings k = opening :: rest → e.expiry = some expiry →
      opening + window ≤ expiry) :
    Timed window { s with keys := put s.keys k e } ls := by
  refine ⟨fun k' => ?_, fun k' opening rest hk' => ?_, h.past, h.before, h.older, h.apart⟩
  · show s.openings k' ≠ [] ↔ put s.keys k e k' ≠ none
    by_cases hk : k' = k
    · subst hk
      exact iff_of_true hopen (by simp)
    · rw [put_of_ne hk]
      exact h.present k'
  · obtain ⟨hle, hbegan⟩ := h.began k' opening rest hk'
    refine ⟨hle, fun e' expiry he' hexpiry' => ?_⟩
    by_cases hk : k' = k
    · subst hk
      have hentry : put s.keys k' e k' = some e' := he'
      rw [put_self] at hentry
      cases hentry
      exact hexpiry opening rest expiry hk' hexpiry'
    · have hentry : put s.keys k e k' = some e' := he'
      rw [put_of_ne hk] at hentry
      exact hbegan e' expiry hentry hexpiry'

theorem Timed.begin (h : Timed window s ls) {k : K} {value : Int}
    (hdead : ∀ e, s.keys k = some e → ∃ expiry, e.expiry = some expiry ∧ expiry ≤ s.now) :
    Timed window { s with
      keys := put s.keys k ⟨value, none⟩
      openings := Function.update s.openings k (s.now :: s.openings k) } ls := by
  have hother (k' : K) (hk : k' ≠ k) :
      Function.update s.openings k (s.now :: s.openings k) k' = s.openings k' :=
    Function.update_of_ne hk ..
  have hself : Function.update s.openings k (s.now :: s.openings k) k = s.now :: s.openings k :=
    Function.update_self ..
  refine ⟨fun k' => ?_, fun k' opening rest hk' => ?_, h.past,
    fun l hl r hr opening rest hk' hlife => ?_, fun l hl r hr opening rest hk' hlife => ?_, h.apart⟩
  · show Function.update s.openings k (s.now :: s.openings k) k' ≠ [] ↔
      put s.keys k ⟨value, none⟩ k' ≠ none
    by_cases hk : k' = k
    · subst hk
      rw [hself, put_self]
      exact iff_of_true (List.cons_ne_nil _ _) nofun
    · rw [hother k' hk, put_of_ne hk]
      exact h.present k'
  · dsimp only at hk' ⊢
    by_cases hk : k' = k
    · subst hk
      rw [hself] at hk'
      obtain ⟨rfl, rfl⟩ := List.cons.inj hk'
      refine ⟨le_rfl, fun e expiry he hexpiry => ?_⟩
      rw [put_self] at he
      cases he
      cases hexpiry
    · rw [hother k' hk] at hk'
      rw [put_of_ne hk]
      exact h.began k' opening rest hk'
  · dsimp only at hk'
    by_cases hk : r.key = k
    · rw [hk, hself] at hk'
      obtain ⟨rfl, rfl⟩ := List.cons.inj hk'
      exact h.past l hl r hr
    · rw [hother _ hk] at hk'
      exact h.before l hl r hr opening rest hk' hlife
  · dsimp only at hk'
    by_cases hk : r.key = k
    · subst hk
      rw [hself] at hk'
      obtain ⟨rfl, rfl⟩ := List.cons.inj hk'
      -- the life before the new one was over by now
      cases hlast : s.openings r.key with
      | nil =>
          rw [hlast] at hlife
          cases hlife
      | cons opening' rest' =>
          rw [hlast] at hlife
          have hmoment := h.before l hl r hr opening' rest' hlast (Nat.le_of_succ_le_succ hlife)
          obtain ⟨e, he⟩ := Option.ne_none_iff_exists'.mp
            ((h.present r.key).mp (by rw [hlast]; exact List.cons_ne_nil _ _))
          obtain ⟨expiry, hexpiry, hover⟩ := hdead e he
          have hlasted := (h.began r.key opening' rest' hlast).2 e expiry he hexpiry
          linarith
    · rw [hother _ hk] at hk'
      exact h.older l hl r hr opening rest hk' hlife

omit [DecidableEq K] in
theorem Timed.record (h : Timed window s ls) (hl : ls[i]? = some l)
    (hknown : ∀ l ∈ ls, ∀ r ∈ l.increments, r.life ≤ (s.openings r.key).length)
    {r : Increment K} (hmoment : r.moment = s.now) {opening : ℚ} {rest : List ℚ}
    (hlast : s.openings r.key = opening :: rest) (hlife : r.life = rest.length + 1) :
    Timed window s (ls.set i { l with increments := r :: l.increments }) := by
  have hmem : ∀ l' ∈ ls.set i { l with increments := r :: l.increments }, ∀ r' ∈ l'.increments,
      r' = r ∨ ∃ l'' ∈ ls, r' ∈ l''.increments := by
    intro l' hl' r' hr'
    rcases List.mem_or_eq_of_mem_set hl' with hin | rfl
    · exact .inr ⟨l', hin, hr'⟩
    · rcases List.mem_cons.mp hr' with rfl | hr'
      · exact .inl rfl
      · exact .inr ⟨l, List.mem_of_getElem? hl, hr'⟩
  refine ⟨h.present, h.began, fun l' hl' r' hr' => ?_,
    fun l' hl' r' hr' opening' rest' hk hle => ?_,
    fun l' hl' r' hr' opening' rest' hk hle => ?_, fun l' hl' r' hr' l'' hl'' r'' hr'' hk hle => ?_⟩
  · rcases hmem l' hl' r' hr' with rfl | ⟨l'', hl'', hr''⟩
    · exact hmoment.le
    · exact h.past l'' hl'' r' hr''
  · rcases hmem l' hl' r' hr' with rfl | ⟨l'', hl'', hr''⟩
    · obtain ⟨rfl, rfl⟩ := List.cons.inj (hlast.symm.trans hk)
      omega
    · exact h.before l'' hl'' r' hr'' opening' rest' hk hle
  · rcases hmem l' hl' r' hr' with rfl | ⟨l'', hl'', hr''⟩
    · obtain ⟨rfl, rfl⟩ := List.cons.inj (hlast.symm.trans hk)
      omega
    · exact h.older l'' hl'' r' hr'' opening' rest' hk hle
  · rcases hmem l' hl' r' hr' with rfl | ⟨m, hm, hr'⟩
    · rcases hmem l'' hl'' r'' hr'' with rfl | ⟨m', hm', hr''⟩
      · omega
      · have := hknown m' hm' r'' hr''
        rw [← hk, hlast, List.length_cons] at this
        omega
    · rcases hmem l'' hl'' r'' hr'' with rfl | ⟨m', hm', hr''⟩
      · have hold := h.older m hm r' hr' opening rest (hk ▸ hlast) (by omega)
        have hbegan := (h.began _ opening rest hlast).1
        linarith
      · exact h.apart m hm r' hr' m' hm' r'' hr'' hk hle

theorem timed_incrBy (h : Timed window s ls) (hl : ls[i]? = some l)
    (hknown : ∀ l ∈ ls, ∀ r ∈ l.increments, r.life ≤ (s.openings r.key).length) (k : K)
    (elapsed : ℚ≥0) :
    Timed window (serve s l (.incrBy k 1) elapsed).1
      (ls.set i (serve s l (.incrBy k 1) elapsed).2.1) := by
  have hwait : s.now ≤ (serve s l (.incrBy k 1) elapsed).1.now :=
    le_add_of_nonneg_right elapsed.2
  rcases incremented_cases s k with ⟨e, hkey, hentry, hopenings⟩ | ⟨hdead, hentry, hopenings⟩
  · have hopen : s.openings k ≠ [] := (h.present k).mpr (by simp [hkey])
    obtain ⟨opening, rest, hlast⟩ := List.exists_cons_of_ne_nil hopen
    have hwritten := @Timed.write _ _ _ _ _ h k ⟨e.value + 1, e.expiry⟩ hopen
      fun opening' rest' expiry hk => (h.began k opening' rest' hk).2 e expiry hkey
    refine (hwritten.record hl hknown rfl hlast ?_).wait hwait ?_ hopenings
    · rw [hopenings, hlast]
      rfl
    · show put s.keys k (incremented s.now s.keys k 1) = _
      rw [hentry]
  · have hbegun := @Timed.begin _ _ _ _ _ h k 1 hdead
    have hself : Function.update s.openings k (s.now :: s.openings k) k = s.now :: s.openings k :=
      Function.update_self ..
    refine (hbegun.record hl (fun l' hl' r hr => ?_) rfl hself ?_).wait hwait ?_ hopenings
    · dsimp only
      by_cases hk : r.key = k
      · rw [hk, hself, List.length_cons]
        exact (hk ▸ hknown l' hl' r hr).trans (Nat.le_succ _)
      · rw [Function.update_of_ne hk]
        exact hknown l' hl' r hr
    · rw [hopenings, hself]
      rfl
    · show put s.keys k (incremented s.now s.keys k 1) = _
      rw [hentry]

theorem timed_expire (h : Timed window s ls) (hl : ls[i]? = some l) (k : K) (elapsed : ℚ≥0) :
    Timed window (serve s l (.expire k window) elapsed).1
      (ls.set i (serve s l (.expire k window) elapsed).2.1) := by
  have hsame : (serve s l (.expire k window) elapsed).2.1 = l := rfl
  rw [hsame, set_eq_self hl]
  have hwait : s.now ≤ (serve s l (.expire k window) elapsed).1.now :=
    le_add_of_nonneg_right elapsed.2
  cases hlive : live s.now s.keys k with
  | none =>
      refine h.wait hwait ?_ rfl
      simp only [serve, execute, hlive]
  | some e =>
      have hopen : s.openings k ≠ [] := (h.present k).mpr (by simp [(live_eq_some.mp hlive).1])
      have hwritten := @Timed.write _ _ _ _ _ h k { e with expiry := some (s.now + window) } hopen
        fun opening rest expiry hk hexpiry => by
          cases hexpiry
          have := (h.began k opening rest hk).1
          linarith
      refine hwritten.wait hwait ?_ rfl
      simp only [serve, execute, hlive]

end Times

section Calls

variable {K : Type} [DecidableEq K] {settings : Settings}

/-- The commands of the limiter. -/
def made (settings : Settings) (c : Command K ℚ) : Prop :=
  (∃ k, c = .incrBy k 1) ∨ ∃ k, c = .expire k settings.authRateLimitWindowSeconds

/-- How the loop ends that lets a call through: no count was over the limit, and
every key was counted. -/
def Counted (settings : Settings) (ks : List K) (l l' : Caller K)
    (out : Except Raised Unit) : Prop :=
  l'.call = l.call ∧ (out = .ok () →
    (∀ r ∈ l'.increments, r ∈ l.increments ∨ r.count ≤ settings.authRateLimitAttempts) ∧
      (∀ r ∈ l.increments, r ∈ l'.increments) ∧ ∀ k ∈ ks, ∃ r ∈ l'.increments, r.key = k)

theorem follows_command {α : Type} {Q : Caller K → Except Raised α → Prop} {l : Caller K}
    {c : Command K ℚ} {f : Valkey.Answer c → Act K α} (hmade : made settings c)
    (h : ∀ s : Shared K, Follows serve (fun _ => made settings) Q
      (l.learn s c (execute s.now s.keys c).2) (f (execute s.now s.keys c).2)) :
    Follows serve (fun _ => made settings) Q l (command c >>= f) :=
  ⟨hmade, fun s _ => h s⟩

theorem follows_enforceKeys (ks : List K) (l : Caller K) :
    Follows serve (fun _ => made settings) (Counted settings ks l) l (enforceKeys settings ks) := by
  induction ks generalizing l with
  | nil => exact ⟨rfl, fun _ => ⟨fun _ => .inl, fun _ => id, nofun⟩⟩
  | cons k rest ih =>
      refine follows_command (.inl ⟨k, rfl⟩) fun s => ?_
      obtain ⟨r, hr, hkey, hcount⟩ : ∃ r : Increment K,
          l.learn s (.incrBy k 1) (execute s.now s.keys (.incrBy k 1)).2 =
            { l with increments := r :: l.increments } ∧ r.key = k ∧
          (execute s.now s.keys (.incrBy k 1)).2 = r.count := ⟨_, rfl, rfl, rfl⟩
      rw [hr, hcount]
      have hrest : Follows serve (fun _ => made settings) (Counted settings (k :: rest) l)
          { l with increments := r :: l.increments }
          (do
            if settings.authRateLimitAttempts < r.count then
              throw .tooManyRequests
            enforceKeys settings rest) := by
        by_cases hover : settings.authRateLimitAttempts < r.count
        · rw [if_pos hover]
          exact ⟨rfl, nofun⟩
        · rw [if_neg hover]
          refine (ih { l with increments := r :: l.increments }).mono ?_
          rintro l' out ⟨hcall, hcounted⟩
          refine ⟨hcall, fun hout => ?_⟩
          obtain ⟨hwithin, hkept, hkeys⟩ := hcounted hout
          refine ⟨fun r' hr' => ?_, fun r' hr' => hkept r' (List.mem_cons_of_mem _ hr'), ?_⟩
          · rcases hwithin r' hr' with hold | hle
            · rcases List.mem_cons.mp hold with rfl | hold
              · exact .inr (not_lt.mp hover)
              · exact .inl hold
            · exact .inr hle
          · intro k' hk'
            rcases List.mem_cons.mp hk' with rfl | hk'
            · exact ⟨r, hkept r List.mem_cons_self, hkey⟩
            · exact hkeys k' hk'
      by_cases hfirst : r.count = 1
      · rw [if_pos hfirst]
        exact follows_command (.inr ⟨k, rfl⟩) fun _ => hrest
      · rw [if_neg hfirst]
        exact hrest

end Calls

section Whole

variable {D : Type} [DecidableEq D] {hashing : Hashing D} {settings : Settings}

/-- How a call ends that is let through. -/
def Ended (hashing : Hashing D) (settings : Settings) (l : Caller (Key D))
    (out : Except Raised Unit) : Prop :=
  out = .ok () → (∀ r ∈ l.increments, r.count ≤ settings.authRateLimitAttempts) ∧
    ∃ ks, keys hashing l.call = .ok ks ∧ ∀ k ∈ ks, ∃ r ∈ l.increments, r.key = k

theorem follows_enforceRateLimit (call : Call) :
    Follows serve (fun _ => made settings) (Ended hashing settings) { call := call }
      (enforceRateLimit hashing settings call) := by
  unfold enforceRateLimit
  cases hkeys : keys hashing call with
  | error e => exact nofun
  | ok ks =>
      refine (follows_enforceKeys ks { call := call }).mono ?_
      rintro l out ⟨hcall, hcounted⟩ hout
      obtain ⟨hwithin, -, hmem⟩ := hcounted hout
      refine ⟨fun r hr => (hwithin r hr).resolve_left nofun, ks, ?_, hmem⟩
      rw [hcall]
      exact hkeys

theorem ended_of_passed {pool : LimitPool D} {thread : Caller (Key D) × Act (Key D) Unit}
    (hfollows : ∀ thread ∈ pool.threads,
      Follows serve (fun _ => made settings) (Ended hashing settings) thread.1 thread.2)
    (hthread : thread ∈ pool.threads) (hpassed : passed thread.2 = true) :
    (∀ r ∈ thread.1.increments, r.count ≤ settings.authRateLimitAttempts) ∧
      ∃ ks, keys hashing thread.1.call = .ok ks ∧
        ∀ k ∈ ks, ∃ r ∈ thread.1.increments, r.key = k := by
  obtain ⟨l, p⟩ := thread
  cases p with
  | ret a =>
      have hended : Ended hashing settings l (.ok a) := hfollows _ hthread
      exact hended rfl
  | raise e => cases hpassed
  | call c next => cases hpassed

theorem countP_le_sum {α ι : Type} {p : α → Bool} {q : ι → α → Bool} {xs : List α}
    {indices : List ι} (h : ∀ x ∈ xs, p x = true → ∃ i ∈ indices, q i x = true) :
    xs.countP p ≤ (indices.map fun i => xs.countP (q i)).sum := by
  induction xs with
  | nil => simp
  | cons x xs ih =>
      have hrest := ih fun x' hx' => h x' (List.mem_cons_of_mem _ hx')
      have hsplit : (indices.map fun i => (x :: xs).countP (q i)).sum =
          (indices.map fun i => xs.countP (q i)).sum +
            (indices.map fun i => if q i x then 1 else 0).sum := by
        rw [← List.sum_map_add]
        simp only [List.countP_cons]
      rw [List.countP_cons, hsplit]
      refine Nat.add_le_add hrest ?_
      split
      · rename_i hp
        obtain ⟨i, hi, hq⟩ := h x List.mem_cons_self hp
        exact List.sum_pos_iff_exists_pos_nat.mpr
          ⟨1, List.mem_map.mpr ⟨i, hi, if_pos hq⟩, Nat.one_pos⟩
      · exact Nat.zero_le _

theorem letThrough_le {pool : LimitPool D} {scope : String} {subject : Str} (k : Key D)
    (lives : List Nat)
    (haccounted : Accounted settings.authRateLimitAttempts pool.shared pool.locals)
    (hfollows : ∀ thread ∈ pool.threads,
      Follows serve (fun _ => made settings) (Ended hashing settings) thread.1 thread.2)
    {counted : Increment (Key D) → Bool}
    (hlives : ∀ thread ∈ pool.threads, ∀ r ∈ thread.1.increments, counted r = true →
      r.key = k ∧ r.life ∈ lives) :
    letThrough hashing scope subject counted pool ≤
      lives.length * settings.authRateLimitAttempts.toNat := by
  have hholds : letThrough hashing scope subject counted pool ≤
      (lives.map fun life => pool.locals.countP
        (Caller.holds settings.authRateLimitAttempts k life)).sum := by
    unfold letThrough Pool.locals
    simp only [List.countP_map]
    refine countP_le_sum fun thread hthread hp => ?_
    simp only [Bool.and_eq_true, List.any_eq_true] at hp
    obtain ⟨⟨hpassed, -⟩, r, hr, hcounted⟩ := hp
    obtain ⟨hkey, hlife⟩ := hlives thread hthread r hr hcounted
    refine ⟨r.life, hlife, List.any_eq_true.mpr ⟨r, hr, decide_eq_true ⟨hkey, rfl, ?_⟩⟩⟩
    exact (ended_of_passed hfollows hthread hpassed).1 r hr
  refine hholds.trans ((List.sum_le_card_nsmul _ settings.authRateLimitAttempts.toNat ?_).trans ?_)
  · intro count hcount
    obtain ⟨life, -, rfl⟩ := List.mem_map.mp hcount
    exact haccounted.within k life
  · rw [List.length_map]
    exact le_rfl

omit [DecidableEq D] in
theorem mem_launch {start : ℚ} {calls : List Call} {thread : Caller (Key D) × Act (Key D) Unit}
    (h : thread ∈ (launch hashing settings start calls).threads) :
    ∃ call, thread = ({ call := call }, enforceRateLimit hashing settings call) := by
  obtain ⟨call, -, rfl⟩ := List.mem_map.mp h
  exact ⟨call, rfl⟩

omit [DecidableEq D] in
theorem increments_launch {start : ℚ} {calls : List Call} {l : Caller (Key D)}
    (h : l ∈ (launch hashing settings start calls).locals) : l.increments = [] := by
  obtain ⟨thread, hthread, rfl⟩ := List.mem_map.mp h
  obtain ⟨call, rfl⟩ := mem_launch hthread
  rfl

theorem accounted_launch (start : ℚ) (calls : List Call) :
    Accounted settings.authRateLimitAttempts (launch hashing settings start calls).shared
      (launch hashing settings start calls).locals := by
  refine ⟨fun k life => ?_, nofun, fun l hl r hr => ?_⟩
  · refine (List.countP_eq_zero.mpr fun l hl => ?_).trans_le (Nat.zero_le _)
    simp [Caller.holds, increments_launch hl]
  · simp [increments_launch hl] at hr

omit [DecidableEq D] in
theorem timed_launch (start : ℚ) (calls : List Call) :
    Timed settings.authRateLimitWindowSeconds (launch hashing settings start calls).shared
      (launch hashing settings start calls).locals := by
  have hnone : ∀ l ∈ (launch hashing settings start calls).locals, ∀ r ∈ l.increments, False := by
    intro l hl r hr
    simp [increments_launch hl] at hr
  exact ⟨fun k => iff_of_false (fun h => h rfl) fun h => h rfl, nofun,
    fun l hl r hr => (hnone l hl r hr).elim, fun l hl r hr => (hnone l hl r hr).elim,
    fun l hl r hr => (hnone l hl r hr).elim, fun l hl r hr => (hnone l hl r hr).elim⟩

theorem invariants_of_run {start : ℚ} {calls : List Call} {schedule : List (Nat × ℚ≥0)}
    {pool : LimitPool D}
    (hrun : run limitStep (launch hashing settings start calls) schedule = some pool) :
    Accounted settings.authRateLimitAttempts pool.shared pool.locals ∧
      Timed settings.authRateLimitWindowSeconds pool.shared pool.locals ∧
      ∀ thread ∈ pool.threads,
        Follows serve (fun _ => made settings) (Ended hashing settings) thread.1 thread.2 := by
  have hlaunched : ∀ thread ∈ (launch hashing settings start calls).threads,
      Follows serve (fun _ => made settings) (Ended hashing settings) thread.1 thread.2 := by
    intro thread hthread
    obtain ⟨call, rfl⟩ := mem_launch hthread
    exact follows_enforceRateLimit call
  have hstep : ∀ (s : Shared (Key D)) ls i l c elapsed,
      Accounted settings.authRateLimitAttempts s ls ∧
        Timed settings.authRateLimitWindowSeconds s ls → ls[i]? = some l → made settings c →
      Accounted settings.authRateLimitAttempts (serve s l c elapsed).1
          (ls.set i (serve s l c elapsed).2.1) ∧
        Timed settings.authRateLimitWindowSeconds (serve s l c elapsed).1
          (ls.set i (serve s l c elapsed).2.1) := by
    rintro s ls i l c elapsed ⟨haccounted, htimed⟩ hl (⟨k, rfl⟩ | ⟨k, rfl⟩)
    · exact ⟨accounted_incrBy haccounted hl k elapsed,
        timed_incrBy htimed hl haccounted.known k elapsed⟩
    · exact ⟨accounted_expire haccounted hl k _ elapsed, timed_expire htimed hl k elapsed⟩
  obtain ⟨haccounted, htimed⟩ := @pool_invariant_always _ _ _ _ _ _ serve (fun _ => made settings)
    _ hstep _ _ _
    (fun thread hthread => (hlaunched thread hthread).mono fun _ _ _ => trivial)
    ⟨accounted_launch start calls, timed_launch start calls⟩ hrun
  exact ⟨haccounted, htimed, pool_follows hlaunched hrun⟩

theorem window_le {pool : LimitPool D} {scope : String} {subject : Str}
    (haccounted : Accounted settings.authRateLimitAttempts pool.shared pool.locals)
    (htimed : Timed settings.authRateLimitWindowSeconds pool.shared pool.locals)
    (hfollows : ∀ thread ∈ pool.threads,
      Follows serve (fun _ => made settings) (Ended hashing settings) thread.1 thread.2)
    (k : Key D) (first : ℚ) :
    letThrough hashing scope subject (fun r => r.key = k ∧ first ≤ r.moment ∧
        r.moment < first + settings.authRateLimitWindowSeconds) pool ≤
      2 * settings.authRateLimitAttempts.toNat := by
  classical
  let inWindow (r : Increment (Key D)) : Prop :=
    r.key = k ∧ first ≤ r.moment ∧ r.moment < first + settings.authRateLimitWindowSeconds
  by_cases hsome : ∃ life, ∃ thread ∈ pool.threads, ∃ r ∈ thread.1.increments,
      inWindow r ∧ r.life = life
  · obtain ⟨thread, hthread, r, hr, hwindow, hlife⟩ := Nat.find_spec hsome
    have hmin := fun life => @Nat.find_min' _ _ hsome life
    refine letThrough_le k [r.life, r.life + 1] haccounted hfollows ?_
    intro thread' hthread' r' hr' hcounted
    have hwindow' : inWindow r' := of_decide_eq_true hcounted
    have hle := hmin r'.life ⟨thread', hthread', r', hr', hwindow', rfl⟩
    rw [← hlife] at hle
    have hnear : ¬ r.life + 2 ≤ r'.life := by
      intro hfar
      have hapart := htimed.apart _ (List.mem_map_of_mem hthread) r hr _
        (List.mem_map_of_mem hthread') r' hr' (hwindow.1.trans hwindow'.1.symm) hfar
      have := hwindow.2.1
      have := hwindow'.2.2
      linarith
    refine ⟨hwindow'.1, ?_⟩
    have : r'.life = r.life ∨ r'.life = r.life + 1 := by omega
    simpa using this
  · refine (letThrough_le k [] haccounted hfollows ?_).trans (by simp)
    intro thread hthread r hr hcounted
    exact absurd ⟨r.life, thread, hthread, r, hr, of_decide_eq_true hcounted, rfl⟩ hsome

theorem absent_serve {s : Shared (Key D)} {l : Caller (Key D)} {c : Command (Key D) ℚ}
    {elapsed : ℚ≥0} {k : Key D} (hk : k ≠ c.key) (h : live s.now s.keys k = none) :
    live (serve s l c elapsed).1.now (serve s l c elapsed).1.keys k = none := by
  have hkept : (serve s l c elapsed).1.keys k = s.keys k := execute_of_ne c hk
  rw [Option.eq_none_iff_forall_ne_some] at h ⊢
  intro e he
  refine h e (live_of_le (le_add_of_nonneg_right elapsed.2) ?_)
  rwa [live, hkept] at he

theorem ensures_absent {ks : List (Key D)} (hnodup : ks.Nodup)
    (hattempts : 1 ≤ settings.authRateLimitAttempts) {s : Shared (Key D)} {l : Caller (Key D)}
    (habsent : ∀ k ∈ ks, live s.now s.keys k = none) :
    Ensures serve (fun _ _ out => out = .ok ()) s l (enforceKeys settings ks) := by
  induction ks generalizing s l with
  | nil => exact rfl
  | cons k rest ih =>
      obtain ⟨hnew, hnodup⟩ := List.nodup_cons.mp hnodup
      have hfirst : (execute s.now s.keys (.incrBy k 1)).2 = 1 := by
        simp only [execute, incremented, habsent k List.mem_cons_self]
      have hother : ∀ k' ∈ rest, k' ≠ k := fun k' hk' heq => hnew (heq ▸ hk')
      intro elapsed
      show Ensures serve _ (serve s l (.incrBy k 1) elapsed).1 (serve s l (.incrBy k 1) elapsed).2.1
        (do
          if (execute s.now s.keys (.incrBy k 1)).2 = 1 then
            command (.expire k settings.authRateLimitWindowSeconds)
          if settings.authRateLimitAttempts < (execute s.now s.keys (.incrBy k 1)).2 then
            throw .tooManyRequests
          enforceKeys settings rest)
      rw [hfirst, if_pos rfl, if_neg (not_lt.mpr hattempts)]
      intro elapsed'
      refine ih hnodup fun k' hk' => ?_
      refine absent_serve (hother k' hk') (absent_serve (hother k' hk') ?_)
      exact habsent k' (List.mem_cons_of_mem _ hk')

/-- Over any interleaving in time, the limiter lets through, for every client address
and every identifier that is not empty, at most `N` calls in a life of a counter and
at most `2 N` in any window; and a call that then runs alone, with distinct keys and
none of them counted, passes. -/
theorem calls_limited (hashing : Hashing D) (settings : Settings) (start : ℚ) (calls : List Call)
    (schedule : List (Nat × ℚ≥0)) (pool : LimitPool D)
    (hrun : run limitStep (launch hashing settings start calls) schedule = some pool) :
    (∀ scope subject, Limited hashing settings pool scope subject) ∧
      ∀ (call : Call) (ks : List (Key D)), keys hashing call = .ok ks → ks.Nodup →
        (∀ k ∈ ks, live pool.shared.now pool.shared.keys k = none) →
        1 ≤ settings.authRateLimitAttempts → ∀ elapsed : Nat → ℚ≥0,
          (eval serve (enforceRateLimit hashing settings call) pool.shared { call := call }
            elapsed).2.2 = .ok () := by
  obtain ⟨haccounted, htimed, hfollows⟩ := invariants_of_run hrun
  refine ⟨fun scope subject => ⟨?_, ?_, ?_⟩, ?_⟩
  · intro thread hthread hpassed hbears
    obtain ⟨hscope, text, htext, hlower⟩ := of_decide_eq_true hbears
    obtain ⟨-, ks, hks, hcounted⟩ := ended_of_passed hfollows hthread hpassed
    obtain ⟨k, hk, hkey⟩ := mem_keys hks htext
    obtain ⟨r, hr, hrkey⟩ := hcounted k hk
    refine ⟨k, r, ?_, hr, hrkey⟩
    rw [← hscope, ← key_congr hlower]
    exact hkey
  · intro k hk life
    refine (letThrough_le k [life] haccounted hfollows ?_).trans (by simp)
    intro thread hthread r hr hcounted
    obtain ⟨hkey, hlife⟩ := of_decide_eq_true hcounted
    exact ⟨hkey, by simp [hlife]⟩
  · intro k hk first
    exact window_le haccounted htimed hfollows k first
  · intro call ks hks hnodup habsent hattempts elapsed
    have hensures : Ensures serve (fun _ _ out => out = .ok ()) pool.shared { call := call }
        (enforceRateLimit hashing settings call) := by
      unfold enforceRateLimit
      rw [hks]
      exact ensures_absent hnodup hattempts habsent
    exact eval_of_ensures hensures elapsed

end Whole

/-- Texts under their own names. -/
def plain : Hashing Str := ⟨id, id⟩

/-- One attempt in 300 seconds. -/
def oneAttempt : Settings := { authRateLimitAttempts := 1 }

/-- An acceptance without a token. -/
def bare (address : String) : Call := invitationsAccept (some (ofString address)) []

/-- Three sign-ins to one account from three addresses. -/
def signIns : List Call :=
  [login (some (ofString "10.0.0.1")) (ofString "ana@exemple.fr"),
    login (some (ofString "10.0.0.2")) (ofString "ana@exemple.fr"),
    login (some (ofString "10.0.0.3")) (ofString "ana@exemple.fr")]

/-- The first two overlap, the third comes when the counters have expired. -/
def overWindow : List (Nat × ℚ≥0) :=
  [(0, 0), (0, 0), (1, 1), (0, 0), (1, 0), (0, 0), (1, 0), (2, 300), (2, 0), (2, 0), (2, 0)]

theorem sign_ins_limited : ∃ pool,
    run limitStep (launch plain oneAttempt 0 signIns) overWindow = some pool ∧
      pool.threads.map (fun thread => passed thread.2) = [true, false, true] ∧
      Limited plain oneAttempt pool "login" (ofString "ana@exemple.fr") := by
  have hany : (run limitStep (launch plain oneAttempt 0 signIns) overWindow).any (fun pool =>
      pool.threads.map (fun thread => passed thread.2) == [true, false, true]) = true := by
    decide +kernel
  obtain ⟨pool, hrun, hpassed⟩ := (Option.any_eq_true _ _).mp hany
  exact ⟨pool, hrun, beq_iff_eq.mp hpassed,
    (calls_limited plain oneAttempt 0 signIns overWindow pool hrun).1 _ _⟩

/-- Calls that bear the empty identifier are not counted under it. -/
theorem empty_identifier_not_limited : ¬ ∀ (calls : List Call) (schedule : List (Nat × ℚ≥0))
    (pool : LimitPool Str), run limitStep (launch plain oneAttempt 0 calls) schedule = some pool →
      ∀ (identifier : Str) (first : ℚ), pool.threads.countP (fun thread =>
        passed thread.2 && decide (identifier ∈ thread.1.call.identifiers) &&
          thread.1.increments.any fun r => first ≤ r.moment ∧
            r.moment < first + oneAttempt.authRateLimitWindowSeconds) ≤
        2 * oneAttempt.authRateLimitAttempts.toNat := by
  intro h
  have hthree : (run limitStep (launch plain oneAttempt 0
      [bare "10.0.0.1", bare "10.0.0.2", bare "10.0.0.3"])
      [(0, 0), (0, 0), (1, 0), (1, 0), (2, 0), (2, 0)]).any (fun pool =>
        pool.threads.countP (fun thread =>
          passed thread.2 && decide (([] : Str) ∈ thread.1.call.identifiers) &&
            thread.1.increments.any fun r => (0 : ℚ) ≤ r.moment ∧
              r.moment < 0 + oneAttempt.authRateLimitWindowSeconds) == 3) = true := by
    decide +kernel
  obtain ⟨pool, hrun, hcount⟩ := (Option.any_eq_true _ _).mp hthree
  have hle := h _ _ pool hrun [] 0
  rw [beq_iff_eq.mp hcount] at hle
  exact absurd hle (by decide)

end Socle.RateLimitBounds
