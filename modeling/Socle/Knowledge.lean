import Mathlib.Data.Set.Insert
import Socle.Procedures

/-!
Procedures that only ask for what they were told.  An answer tells facts, a request needs
facts, and what was told once stays known.  An invariant of the whole pool then only has to
survive the requests whose facts are known, and a state that answers these requests alike
cannot be told from the one the pool runs in.
-/

namespace Socle.Knowledge

open Socle.GuardedRuns
open Socle.Procedures

variable {I : Interface} {ε α β Φ σ ℓ ω : Type}

/-- What has to be known for a request, what an answer tells, which answers are possible, and which
ones a procedure is not to tell apart. -/
structure Rules (I : Interface) (Φ : Type) where
  needs : I.Request → Set Φ → Prop
  told : (r : I.Request) → I.Answer r → Set Φ
  possible : (r : I.Request) → I.Answer r → Prop
  alike : (r : I.Request) → I.Answer r → I.Answer r → Prop

/-- Whatever it is answered, the procedure makes no request before it knows the facts that the
request needs, goes on alike after answers that are alike, and returns a value that meets `Q`
under what it knows then. -/
def Heeds (rules : Rules I Φ) (Q : Set Φ → α → Prop) : Set Φ → Proc I ε α → Prop
  | known, .ret a => Q known a
  | _, .raise _ => True
  | known, .call r k =>
      rules.needs r known ∧ (∀ a b, rules.alike r a b → k a = k b) ∧
        ∀ a, rules.possible r a → Heeds rules Q (known ∪ rules.told r a) (k a)

section Heeds

variable {rules : Rules I Φ} {Q : Set Φ → α → Prop} {known : Set Φ}

theorem heeds_bind {R : Set Φ → β → Prop} {p : Proc I ε α} {f : α → Proc I ε β}
    (hp : Heeds rules Q known p)
    (hf : ∀ later a, known ⊆ later → Q later a → Heeds rules R later (f a)) :
    Heeds rules R known (p >>= f) := by
  induction p generalizing known with
  | ret a => exact hf known a Set.Subset.rfl hp
  | raise e => trivial
  | call r k ih =>
      obtain ⟨hneeds, halike, hrest⟩ := hp
      refine ⟨hneeds, fun a b hab => ?_, fun a ha => ih a (hrest a ha) fun later b hlater => ?_⟩
      · exact congrArg (fun p : Proc I ε α => p >>= f) (halike a b hab)
      · exact hf later b (Set.subset_union_left.trans hlater)

theorem heeds_attempt_bind {R : Set Φ → β → Prop} {p : Proc I ε α}
    {f : Except ε α → Proc I ε β} (hp : Heeds rules Q known p)
    (hf : ∀ later outcome, known ⊆ later → (∀ a, outcome = .ok a → Q later a) →
      Heeds rules R later (f outcome)) :
    Heeds rules R known (p.attempt >>= f) := by
  induction p generalizing known with
  | ret a => exact hf known _ Set.Subset.rfl fun b hb => by cases hb; exact hp
  | raise e => exact hf known _ Set.Subset.rfl fun b hb => by cases hb
  | call r k ih =>
      obtain ⟨hneeds, halike, hrest⟩ := hp
      refine ⟨hneeds, fun a b hab => ?_, fun a ha => ih a (hrest a ha) fun later b hlater => ?_⟩
      · exact congrArg (fun p : Proc I ε α => p.attempt >>= f) (halike a b hab)
      · exact hf later b (Set.subset_union_left.trans hlater)

theorem heeds_of_makes {made : I.Request → Prop} {p : Proc I ε α} (hp : Makes made p)
    (hmade : ∀ r, made r →
      (∀ later, known ⊆ later → rules.needs r later) ∧ ∀ a b, ¬ rules.alike r a b) :
    Heeds rules (fun _ _ => True) known p := by
  induction p generalizing known with
  | ret a => trivial
  | raise e => trivial
  | call r k ih =>
      obtain ⟨hneeds, hplain⟩ := hmade r hp.1
      refine ⟨hneeds known Set.Subset.rfl, fun a b hab => (hplain a b hab).elim, fun a _ => ?_⟩
      refine ih a (hp.2 a) fun r' hr' => ⟨fun later hlater => ?_, (hmade r' hr').2⟩
      exact (hmade r' hr').1 later (Set.subset_union_left.trans hlater)

/-- What the shared state, and each thread with what it knows, keep to under every request whose
facts are known. -/
structure Keeps (rules : Rules I Φ) (serve : Serve I σ ℓ ω) (cond : σ → I.Request → ω → Prop)
    (S : σ → Prop) (L : ℓ → Set Φ → Prop) : Prop where
  step : ∀ s l known r c, S s → L l known → rules.needs r known → cond s r c →
    S (serve s l r c).1 ∧ rules.possible r (serve s l r c).2.2 ∧
      L (serve s l r c).2.1 (known ∪ rules.told r (serve s l r c).2.2)

variable {serve : Serve I σ ℓ ω} {cond : σ → I.Request → ω → Prop} {S : σ → Prop}
  {L : ℓ → Set Φ → Prop}

/-- The invariant of a pool whose threads heed the rules. -/
def Heeding (rules : Rules I Φ) (S : σ → Prop) (L : ℓ → Set Φ → Prop)
    (pool : Pool I ε σ ℓ α) : Prop :=
  S pool.shared ∧ ∀ thread ∈ pool.threads, ∃ known,
    L thread.1 known ∧ Heeds rules (fun _ _ => True) known thread.2

theorem heeding_step (hkeeps : Keeps rules serve cond S L) {pool next : Pool I ε σ ℓ α}
    {action : Nat × ω} (h : Heeding rules S L pool)
    (hmeets : ActionMeets (fun s _ _ r c => cond s r c) pool action)
    (hnext : Pool.step serve pool action = some next) : Heeding rules S L next := by
  obtain ⟨hshared, hthreads⟩ := h
  obtain ⟨l, r, k, hthread, rfl⟩ := Pool.step_eq_some hnext
  obtain ⟨known, hlocal, hneeds, -, hrest⟩ := hthreads _ (List.mem_of_getElem? hthread)
  have hcond : cond pool.shared r action.2 := by simpa [ActionMeets, hthread] using hmeets
  obtain ⟨hshared', hpossible, hlocal'⟩ := hkeeps.step _ _ _ _ _ hshared hlocal hneeds hcond
  refine ⟨hshared', fun thread hmem => ?_⟩
  rcases List.mem_or_eq_of_mem_set hmem with hold | rfl
  · exact hthreads thread hold
  · exact ⟨_, hlocal', hrest _ hpossible⟩

theorem pool_heeds (hkeeps : Keeps rules serve cond S L) {pool pool' : Pool I ε σ ℓ α}
    {schedule : List (Nat × ω)} (hinit : Heeding rules S L pool)
    (halong : Along (Pool.step serve) (ActionMeets fun s _ _ r c => cond s r c) pool schedule)
    (hrun : run (Pool.step serve) pool schedule = some pool') : Heeding rules S L pool' := by
  have hmove (pool : Pool I ε σ ℓ α) (action : Nat × ω) (next : Pool I ε σ ℓ α)
      (h : Heeding rules S L pool) (hmeets : ActionMeets (fun s _ _ r c => cond s r c) pool action)
      (hnext : Pool.step serve pool action = some next) : Heeding rules S L next :=
    heeding_step hkeeps h hmeets hnext
  exact run_invariant hmove hinit halong hrun

/-- The pool over another view of its shared state. -/
def viewed (view : σ → σ) (pool : Pool I ε σ ℓ α) : Pool I ε σ ℓ α :=
  ⟨view pool.shared, pool.threads⟩

/-- Where a view answers every request whose facts are known alike, and moves as the state does,
the pool runs over the view as it does over the state. -/
theorem run_viewed (hkeeps : Keeps rules serve cond S L) {view : σ → σ}
    (hview : ∀ s l known r c, S s → L l known → rules.needs r known → cond s r c →
      ∃ b, serve (view s) l r c = (view (serve s l r c).1, (serve s l r c).2.1, b) ∧
        (b = (serve s l r c).2.2 ∨ rules.alike r (serve s l r c).2.2 b))
    {pool : Pool I ε σ ℓ α} {schedule : List (Nat × ω)} (hinit : Heeding rules S L pool)
    (halong : Along (Pool.step serve) (ActionMeets fun s _ _ r c => cond s r c) pool schedule) :
    run (Pool.step serve) (viewed view pool) schedule =
      (run (Pool.step serve) pool schedule).map (viewed view) := by
  have hstep {pool : Pool I ε σ ℓ α} {action : Nat × ω} (h : Heeding rules S L pool)
      (hmeets : ActionMeets (fun s _ _ r c => cond s r c) pool action) :
      Pool.step serve (viewed view pool) action =
        (Pool.step serve pool action).map (viewed view) := by
    unfold Pool.step
    dsimp only [viewed]
    split
    · rename_i l r k hthread
      obtain ⟨known, hlocal, hneeds, halike, -⟩ := h.2 _ (List.mem_of_getElem? hthread)
      have hcond : cond pool.shared r action.2 := by simpa [ActionMeets, hthread] using hmeets
      obtain ⟨b, hserve, hb⟩ := hview _ _ _ _ _ h.1 hlocal hneeds hcond
      have hk : k b = k (serve pool.shared l r action.2).2.2 := by
        rcases hb with rfl | hb
        · rfl
        · exact (halike _ _ hb).symm
      rw [hserve, hk]
      rfl
    · rfl
  induction schedule generalizing pool with
  | nil => rfl
  | cons action rest ih =>
      obtain ⟨hmeets, hrest⟩ := halong
      rw [run, run, hstep hinit hmeets]
      cases hnext : Pool.step serve pool action with
      | none => rfl
      | some next =>
          rw [hnext] at hrest
          exact ih (heeding_step hkeeps hinit hmeets hnext) hrest

end Heeds

end Socle.Knowledge
