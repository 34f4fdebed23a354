import Socle.Procedures

/-!
Procedures that may be stopped: the state a procedure leaves when its process
ends after any number of requests, requests whose effect or whose answer may be
lost, and the rule for what holds wherever a procedure is stopped.
-/

namespace Socle.Interruptions

open Socle.Procedures

variable {I : Interface} {ε α β σ ℓ ω : Type}

/-- Serve at most `n` requests of a procedure. -/
def runFor (serve : Serve I σ ℓ ω) :
    Nat → σ → ℓ → Proc I ε α → (Nat → ω) → σ × ℓ × Proc I ε α
  | 0, s, l, p, _ => (s, l, p)
  | n + 1, s, l, .call r k, c =>
      let out := serve s l r (c 0)
      runFor serve n out.1 out.2.1 (k out.2.2) fun i => c (i + 1)
  | _ + 1, s, l, .ret a, _ => (s, l, .ret a)
  | _ + 1, s, l, .raise e, _ => (s, l, .raise e)

theorem runFor_succ {serve : Serve I σ ℓ ω} {n : Nat} {s s' : σ} {l l' : ℓ} {p : Proc I ε α}
    {c : Nat → ω} {r : I.Request} {k : I.Answer r → Proc I ε α}
    (h : runFor serve n s l p c = (s', l', .call r k)) :
    runFor serve (n + 1) s l p c =
      ((serve s' l' r (c n)).1, (serve s' l' r (c n)).2.1, k (serve s' l' r (c n)).2.2) := by
  induction n generalizing s l p c with
  | zero =>
      obtain ⟨rfl, hrest⟩ := Prod.mk.inj h
      obtain ⟨rfl, rfl⟩ := Prod.mk.inj hrest
      rfl
  | succ n ih =>
      cases p with
      | ret a => simp [runFor] at h
      | raise e => simp [runFor] at h
      | call r₀ k₀ => exact ih h

/-- What becomes of a request: it is served, it has no effect, or it has its
effect and the answer is lost. -/
inductive Fate where
  | served
  | refused
  | unanswered
  deriving DecidableEq, Repr

/-- The same requests, where those that `failure` gives an answer for may have
no effect, or lose their answer. -/
def faulty (serve : Serve I σ ℓ ω) (failure : ℓ → (r : I.Request) → Option (ℓ × I.Answer r)) :
    Serve I σ ℓ (ω × Fate) := fun s l r c =>
  match c.2, failure l r with
  | .refused, some out => (s, out.1, out.2)
  | .unanswered, some out => ((serve s l r c.1).1, out.1, out.2)
  | _, _ => serve s l r c.1

theorem faulty_of_none {serve : Serve I σ ℓ ω}
    {failure : ℓ → (r : I.Request) → Option (ℓ × I.Answer r)} {l : ℓ} {r : I.Request}
    (h : failure l r = none) (s : σ) (c : ω × Fate) :
    faulty serve failure s l r c = serve s l r c.1 := by
  unfold faulty
  rw [h]
  cases c.2 <;> rfl

theorem faulty_fst (serve : Serve I σ ℓ ω)
    (failure : ℓ → (r : I.Request) → Option (ℓ × I.Answer r)) (s : σ) (l : ℓ) (r : I.Request)
    (c : ω × Fate) :
    (faulty serve failure s l r c).1 = s ∧ c.2 = .refused ∨
      (faulty serve failure s l r c).1 = (serve s l r c.1).1 := by
  unfold faulty
  split
  · exact .inl ⟨rfl, ‹_›⟩
  · exact .inr rfl
  · exact .inr rfl

/-- With choices that meet `cond`, every request of the procedure is made in a
state where `A` holds, and `Q` holds at its end. -/
def EnsuresEach (serve : Serve I σ ℓ ω) (cond : σ → ℓ → I.Request → ω → Prop)
    (A : σ → ℓ → I.Request → Prop) (Q : σ → ℓ → Except ε α → Prop) : σ → ℓ → Proc I ε α → Prop
  | s, l, .ret a => Q s l (.ok a)
  | s, l, .raise e => Q s l (.error e)
  | s, l, .call r k =>
      A s l r ∧ ∀ c, cond s l r c → EnsuresEach serve cond A Q (serve s l r c).1
        (serve s l r c).2.1 (k (serve s l r c).2.2)

section EnsuresEach

variable {serve : Serve I σ ℓ ω} {cond : σ → ℓ → I.Request → ω → Prop}
variable {A : σ → ℓ → I.Request → Prop} {Q : σ → ℓ → Except ε α → Prop}

theorem ensuresEach_bind {R : σ → ℓ → Except ε β → Prop} {s : σ} {l : ℓ} {p : Proc I ε α}
    {f : α → Proc I ε β} (hp : EnsuresEach serve cond A Q s l p)
    (hf : ∀ s l a, Q s l (.ok a) → EnsuresEach serve cond A R s l (f a))
    (he : ∀ s l e, Q s l (.error e) → R s l (.error e)) :
    EnsuresEach serve cond A R s l (p >>= f) := by
  induction p generalizing s l with
  | ret a => exact hf s l a hp
  | raise e => exact he s l e hp
  | call r k ih => exact ⟨hp.1, fun c hc => ih _ (hp.2 c hc)⟩

theorem ensuresEach_of_makes {made : I.Request → Prop} {P : σ → ℓ → Prop}
    (hmade : ∀ s l r c, made r → P s l → P (serve s l r c).1 (serve s l r c).2.1)
    (hA : ∀ s l r, made r → P s l → A s l r) {p : Proc I ε α} (hp : Makes made p) {s : σ} {l : ℓ}
    (hl : P s l) : EnsuresEach serve cond A (fun s' l' _ => P s' l') s l p := by
  induction p generalizing s l with
  | ret a => exact hl
  | raise e => exact hl
  | call r k ih =>
      exact ⟨hA s l r hp.1 hl, fun c _ => ih _ (hp.2 _) (hmade s l r c hp.1 hl)⟩

theorem ensuresEach_of_makes_only {made : I.Request → Prop} (hA : ∀ s l r, made r → A s l r)
    {s : σ} {l : ℓ} {p : Proc I ε α} (hp : Makes made p) :
    EnsuresEach serve cond A (fun _ _ _ => True) s l p := by
  induction p generalizing s l with
  | ret a => trivial
  | raise e => trivial
  | call r k ih => exact ⟨hA s l r hp.1, fun c _ => ih _ (hp.2 _)⟩

theorem ensuresEach_faulty_of_makes {failure : ℓ → (r : I.Request) → Option (ℓ × I.Answer r)}
    {cond : σ → ℓ → I.Request → ω × Fate → Prop} {made : I.Request → Prop} {s : σ}
    (hmade : ∀ l r c, made r → failure l r = none ∧ (serve s l r c).1 = s)
    (hA : ∀ l r, made r → A s l r) {p : Proc I ε α} (hp : Makes made p) {l : ℓ}
    (hQ : Ensures serve Q s l p) : EnsuresEach (faulty serve failure) cond A Q s l p := by
  induction p generalizing l with
  | ret a => exact hQ
  | raise e => exact hQ
  | call r k ih =>
      refine ⟨hA l r hp.1, fun c _ => ?_⟩
      obtain ⟨hnone, hs⟩ := hmade l r c.1 hp.1
      have hnext := hQ c.1
      rw [faulty_of_none hnone, hs]
      rw [hs] at hnext
      exact ih _ (hp.2 _) hnext

/-- Wherever the procedure is stopped: before a request, in a state where `A`
holds, or at its end. -/
theorem stopped_of_ensuresEach {s : σ} {l : ℓ} {p : Proc I ε α}
    (hp : EnsuresEach serve cond A Q s l p) (choices : Nat → ω)
    (hmeets : ∀ n s' l' r k, runFor serve n s l p choices = (s', l', .call r k) →
      cond s' l' r (choices n)) (n : Nat) :
    match runFor serve n s l p choices with
    | (s', l', .call r _) => A s' l' r
    | (s', l', .ret a) => Q s' l' (.ok a)
    | (s', l', .raise e) => Q s' l' (.error e) := by
  induction n generalizing s l p choices with
  | zero =>
      cases p with
      | ret a => exact hp
      | raise e => exact hp
      | call r k => exact hp.1
  | succ n ih =>
      cases p with
      | ret a => exact hp
      | raise e => exact hp
      | call r k =>
          have hc : cond s l r (choices 0) := hmeets 0 s l r k rfl
          exact ih (hp.2 (choices 0) hc) _ fun m s' l' r' k' h => hmeets (m + 1) s' l' r' k' h

/-- What holds before every request and at the end holds wherever the procedure
is stopped. -/
theorem invariant_of_ensuresEach {P : σ → Prop} {s : σ} {l : ℓ} {p : Proc I ε α}
    (hp : EnsuresEach serve cond (fun s _ _ => P s) (fun s _ _ => P s) s l p)
    (choices : Nat → ω)
    (hmeets : ∀ n s' l' r k, runFor serve n s l p choices = (s', l', .call r k) →
      cond s' l' r (choices n)) (n : Nat) : P (runFor serve n s l p choices).1 := by
  have hstop := stopped_of_ensuresEach hp choices hmeets n
  generalize runFor serve n s l p choices = stop at hstop ⊢
  obtain ⟨s', l', p'⟩ := stop
  cases p' with
  | ret a => exact hstop
  | raise e => exact hstop
  | call r k => exact hstop

end EnsuresEach

end Socle.Interruptions
