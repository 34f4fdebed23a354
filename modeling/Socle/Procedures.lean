import Socle.GuardedRuns

/-!
Asynchronous procedures as trees of requests to their environment.  A procedure
runs alone, one request after the other, or as one thread of a pool where every
request is one atomic step and any thread may take the next one.
-/

namespace Socle.Procedures

open Socle.GuardedRuns

/-- The requests a procedure can make, each with its type of answers. -/
structure Interface where
  Request : Type
  Answer : Request → Type

/-- A procedure has returned, has raised, or awaits the answer to a request. -/
inductive Proc (I : Interface) (ε α : Type) : Type where
  | ret (value : α)
  | raise (error : ε)
  | call (request : I.Request) (next : I.Answer request → Proc I ε α)

variable {I : Interface} {ε α β : Type}

namespace Proc

protected def bind : Proc I ε α → (α → Proc I ε β) → Proc I ε β
  | ret a, f => f a
  | raise e, _ => raise e
  | call r k, f => call r fun a => (k a).bind f

instance : Monad (Proc I ε) where
  pure := ret
  bind := Proc.bind

/-- Run the procedure and return its outcome, raised or not, as a value. -/
def attempt : Proc I ε α → Proc I ε (Except ε α)
  | ret a => ret (.ok a)
  | raise e => ret (.error e)
  | call r k => call r fun a => (k a).attempt

/-- Continue with the outcome of a pure computation that may raise. -/
def ofExcept : Except ε α → Proc I ε α
  | .ok a => ret a
  | .error e => raise e

instance : MonadExceptOf ε (Proc I ε) where
  throw := raise
  tryCatch p handler := p.attempt >>= fun
    | .ok a => ret a
    | .error e => handler e

@[simp] theorem pure_eq (a : α) : (pure a : Proc I ε α) = ret a := rfl

@[simp] theorem throw_eq (e : ε) : (throw e : Proc I ε α) = raise e := rfl

@[simp] theorem ret_bind (a : α) (f : α → Proc I ε β) : ret a >>= f = f a := rfl

@[simp] theorem raise_bind (e : ε) (f : α → Proc I ε β) :
    raise e >>= f = raise e := rfl

@[simp] theorem call_bind (r : I.Request) (k : I.Answer r → Proc I ε α)
    (f : α → Proc I ε β) : call r k >>= f = call r fun a => k a >>= f := rfl

theorem bind_assoc {γ : Type} (p : Proc I ε α) (f : α → Proc I ε β) (g : β → Proc I ε γ) :
    p >>= f >>= g = p >>= fun a => f a >>= g := by
  induction p with
  | ret a => rfl
  | raise e => rfl
  | call r k ih =>
      simp only [call_bind]
      congr 1
      funext a
      exact ih a

/-- The procedure over other requests: `send` is how each of its own is made there. -/
def through {J : Interface} {ε' : Type} (send : (r : I.Request) → Proc J ε' (I.Answer r))
    (raised : ε → ε') : Proc I ε α → Proc J ε' α
  | ret a => ret a
  | raise e => raise (raised e)
  | call r k => send r >>= fun a => (k a).through send raised

end Proc

theorem bind_eq_ok {ε α β : Type} {x : Except ε α} {f : α → Except ε β} {b : β} :
    x >>= f = .ok b ↔ ∃ a, x = .ok a ∧ f a = .ok b := by
  cases x with
  | error e =>
      constructor
      · intro h
        cases h
      · rintro ⟨a, ha, -⟩
        cases ha
  | ok a =>
      constructor
      · exact fun h => ⟨a, rfl, h⟩
      · rintro ⟨a', ha, h⟩
        cases ha
        exact h

/-- The procedure that makes one request and returns its answer. -/
def request (r : I.Request) : Proc I ε (I.Answer r) := .call r .ret

@[simp] theorem request_bind (r : I.Request) (f : I.Answer r → Proc I ε β) :
    request r >>= f = .call r f := rfl

/-- How a request acts on the shared state `σ` and on the state `ℓ` of the
thread that makes it; `ω` is what the environment chooses at that moment. -/
abbrev Serve (I : Interface) (σ ℓ ω : Type) :=
  σ → ℓ → (r : I.Request) → ω → σ × ℓ × I.Answer r

variable {σ ℓ ω : Type}

/-- Run a procedure alone to its end, with a stream of choices. -/
def eval (serve : Serve I σ ℓ ω) :
    Proc I ε α → σ → ℓ → (Nat → ω) → σ × ℓ × Except ε α
  | .ret a, s, l, _ => (s, l, .ok a)
  | .raise e, s, l, _ => (s, l, .error e)
  | .call r k, s, l, c =>
      let out := serve s l r (c 0)
      eval serve (k out.2.2) out.1 out.2.1 fun n => c (n + 1)

/-- Any number of threads over one shared state. -/
structure Pool (I : Interface) (ε σ ℓ α : Type) where
  shared : σ
  threads : List (ℓ × Proc I ε α)

namespace Pool

def locals (pool : Pool I ε σ ℓ α) : List ℓ := pool.threads.map Prod.fst

/-- One thread's next request is served; the others do not move. -/
def step (serve : Serve I σ ℓ ω) (pool : Pool I ε σ ℓ α) (action : Nat × ω) :
    Option (Pool I ε σ ℓ α) :=
  match pool.threads[action.1]? with
  | some (l, .call r k) =>
      let out := serve pool.shared l r action.2
      some ⟨out.1, pool.threads.set action.1 (out.2.1, k out.2.2)⟩
  | _ => none

/-- The pool without what its state and its threads carry besides. -/
def forget {τ κ : Type} (shared : τ → σ) (own : κ → ℓ) (pool : Pool I ε τ κ α) :
    Pool I ε σ ℓ α :=
  ⟨shared pool.shared, pool.threads.map fun thread => (own thread.1, thread.2)⟩

theorem step_eq_some {serve : Serve I σ ℓ ω} {pool pool' : Pool I ε σ ℓ α}
    {action : Nat × ω} (h : pool.step serve action = some pool') :
    ∃ l r k, pool.threads[action.1]? = some (l, .call r k) ∧
      pool' = ⟨(serve pool.shared l r action.2).1, pool.threads.set action.1
        ((serve pool.shared l r action.2).2.1,
          k (serve pool.shared l r action.2).2.2)⟩ := by
  unfold step at h
  split at h
  · rename_i l r k hthread
    exact ⟨l, r, k, hthread, (Option.some.inj h).symm⟩
  · cases h

section Forget

variable {τ κ : Type} {serve : Serve I σ ℓ ω} {noted : Serve I τ κ ω} {shared : τ → σ}
variable {own : κ → ℓ}

theorem step_forget
    (hnoted : ∀ t k r c, serve (shared t) (own k) r c =
      (shared (noted t k r c).1, own (noted t k r c).2.1, (noted t k r c).2.2))
    (pool : Pool I ε τ κ α) (action : Nat × ω) :
    (pool.forget shared own).step serve action =
      (pool.step noted action).map (forget shared own) := by
  unfold step
  simp only [forget, List.getElem?_map]
  cases pool.threads[action.1]? with
  | none => rfl
  | some thread =>
      obtain ⟨k, p⟩ := thread
      cases p with
      | ret a => rfl
      | raise e => rfl
      | call r next => simp [hnoted, forget, List.map_set]

/-- A pool that only takes notes of its run runs as it does without them. -/
theorem run_forget
    (hnoted : ∀ t k r c, serve (shared t) (own k) r c =
      (shared (noted t k r c).1, own (noted t k r c).2.1, (noted t k r c).2.2))
    (pool : Pool I ε τ κ α) (schedule : List (Nat × ω)) :
    run (step serve) (pool.forget shared own) schedule =
      (run (step noted) pool schedule).map (forget shared own) := by
  induction schedule generalizing pool with
  | nil => rfl
  | cons action rest ih =>
      rw [run, run, step_forget hnoted]
      cases pool.step noted action with
      | none => rfl
      | some next => exact ih next

end Forget

end Pool

/-- Whatever the shared state does between its requests, the procedure only
makes requests its own state allows, and ends in a state that satisfies
`Q`. -/
def Follows (serve : Serve I σ ℓ ω) (allowed : ℓ → I.Request → Prop)
    (Q : ℓ → Except ε α → Prop) : ℓ → Proc I ε α → Prop
  | l, .ret a => Q l (.ok a)
  | l, .raise e => Q l (.error e)
  | l, .call r k =>
      allowed l r ∧
        ∀ s c, Follows serve allowed Q (serve s l r c).2.1
          (k (serve s l r c).2.2)

section Follows

variable {serve : Serve I σ ℓ ω} {allowed : ℓ → I.Request → Prop}
variable {Q : ℓ → Except ε α → Prop}

theorem follows_request_bind {l : ℓ} {r : I.Request} {f : I.Answer r → Proc I ε α} :
    Follows serve allowed Q l (request r >>= f) ↔
      allowed l r ∧ ∀ s c, Follows serve allowed Q (serve s l r c).2.1
        (f (serve s l r c).2.2) := Iff.rfl

theorem follows_bind {R : ℓ → Except ε β → Prop} {l : ℓ}
    {p : Proc I ε α} {f : α → Proc I ε β}
    (hp : Follows serve allowed Q l p)
    (hf : ∀ l a, Q l (.ok a) → Follows serve allowed R l (f a))
    (he : ∀ l e, Q l (.error e) → R l (.error e)) :
    Follows serve allowed R l (p >>= f) := by
  induction p generalizing l with
  | ret a => exact hf l a hp
  | raise e => exact he l e hp
  | call r k ih => exact ⟨hp.1, fun s c => ih _ (hp.2 s c)⟩

theorem follows_attempt_bind {R : ℓ → Except ε β → Prop} {l : ℓ} {p : Proc I ε α}
    {f : Except ε α → Proc I ε β} (hp : Follows serve allowed Q l p)
    (hf : ∀ l outcome, Q l outcome → Follows serve allowed R l (f outcome)) :
    Follows serve allowed R l (p.attempt >>= f) := by
  induction p generalizing l with
  | ret a => exact hf l _ hp
  | raise e => exact hf l _ hp
  | call r k ih => exact ⟨hp.1, fun s c => ih _ (hp.2 s c)⟩

/-- Whatever the answers, the procedure only makes requests in `made`. -/
def Makes (made : I.Request → Prop) : Proc I ε α → Prop
  | .ret _ => True
  | .raise _ => True
  | .call r k => made r ∧ ∀ a, Makes made (k a)

theorem makes_request_bind {made : I.Request → Prop} {r : I.Request}
    {f : I.Answer r → Proc I ε α} :
    Makes made (request r >>= f) ↔ made r ∧ ∀ a, Makes made (f a) := Iff.rfl

theorem Makes.bind {made : I.Request → Prop} {p : Proc I ε α} {f : α → Proc I ε β}
    (hp : Makes made p) (hf : ∀ a, Makes made (f a)) : Makes made (p >>= f) := by
  induction p with
  | ret a => exact hf a
  | raise e => trivial
  | call r k ih => exact ⟨hp.1, fun a => ih a (hp.2 a)⟩

theorem Makes.attempt {made : I.Request → Prop} {p : Proc I ε α} (hp : Makes made p) :
    Makes made p.attempt := by
  induction p with
  | ret a => trivial
  | raise e => trivial
  | call r k ih => exact ⟨hp.1, fun a => ih a (hp.2 a)⟩

theorem Makes.mono {made made' : I.Request → Prop} (himp : ∀ r, made r → made' r)
    {p : Proc I ε α} (hp : Makes made p) : Makes made' p := by
  induction p with
  | ret a => trivial
  | raise e => trivial
  | call r k ih => exact ⟨himp r hp.1, fun a => ih a (hp.2 a)⟩

theorem Makes.through {J : Interface} {ε' : Type} {made : I.Request → Prop}
    {made' : J.Request → Prop} {send : (r : I.Request) → Proc J ε' (I.Answer r)}
    {raised : ε → ε'} (hsend : ∀ r, made r → Makes made' (send r)) {p : Proc I ε α}
    (hp : Makes made p) : Makes made' (p.through send raised) := by
  induction p with
  | ret a => trivial
  | raise e => trivial
  | call r k ih => exact (hsend r hp.1).bind fun a => ih a (hp.2 a)

theorem Makes.follows {made : I.Request → Prop} {p : Proc I ε α} (hp : Makes made p)
    (serve : Serve I σ ℓ ω) (l : ℓ) :
    Follows serve (fun _ r => made r) (fun _ _ => True) l p := by
  induction p generalizing l with
  | ret a => trivial
  | raise e => trivial
  | call r k ih => exact ⟨hp.1, fun s c => ih _ (hp.2 _) _⟩

/-- A procedure all of whose requests are allowed under a property of its own
state, which they keep, follows the discipline and ends with that property. -/
theorem Makes.follows_of {made : I.Request → Prop} {P : ℓ → Prop}
    (hmade : ∀ l r, made r → P l → allowed l r ∧ ∀ s c, P (serve s l r c).2.1)
    {p : Proc I ε α} (hp : Makes made p) {l : ℓ} (hl : P l) :
    Follows serve allowed (fun l _ => P l) l p := by
  induction p generalizing l with
  | ret a => exact hl
  | raise e => exact hl
  | call r k ih =>
      obtain ⟨hallowed, hkeeps⟩ := hmade l r hp.1 hl
      exact ⟨hallowed, fun s c => ih _ (hp.2 _) (hkeeps s c)⟩

theorem Follows.weaken {allowed' : ℓ → I.Request → Prop}
    (himp : ∀ l r, allowed l r → allowed' l r) {l : ℓ} {p : Proc I ε α}
    (hp : Follows serve allowed Q l p) : Follows serve allowed' Q l p := by
  induction p generalizing l with
  | ret a => exact hp
  | raise e => exact hp
  | call r k ih => exact ⟨himp l r hp.1, fun s c => ih _ (hp.2 s c)⟩

theorem Follows.mono {R : ℓ → Except ε α → Prop} (himp : ∀ l outcome, Q l outcome → R l outcome)
    {l : ℓ} {p : Proc I ε α} (hp : Follows serve allowed Q l p) :
    Follows serve allowed R l p := by
  induction p generalizing l with
  | ret a => exact himp l _ hp
  | raise e => exact himp l _ hp
  | call r k ih => exact ⟨hp.1, fun s c => ih _ (hp.2 s c)⟩

theorem Follows.and {allowed' : ℓ → I.Request → Prop} {R : ℓ → Except ε α → Prop} {l : ℓ}
    {p : Proc I ε α} (hp : Follows serve allowed Q l p) (hp' : Follows serve allowed' R l p) :
    Follows serve (fun l r => allowed l r ∧ allowed' l r) (fun l out => Q l out ∧ R l out) l p := by
  induction p generalizing l with
  | ret a => exact ⟨hp, hp'⟩
  | raise e => exact ⟨hp, hp'⟩
  | call r k ih => exact ⟨⟨hp.1, hp'.1⟩, fun s c => ih _ (hp.2 s c) (hp'.2 s c)⟩

theorem Follows.noted {τ κ : Type} {noted : Serve I τ κ ω} {shared : τ → σ} {own : κ → ℓ}
    (hnoted : ∀ t k r c, serve (shared t) (own k) r c =
      (shared (noted t k r c).1, own (noted t k r c).2.1, (noted t k r c).2.2))
    {k : κ} {p : Proc I ε α} (hp : Follows serve allowed Q (own k) p) :
    Follows noted (fun k r => allowed (own k) r) (fun k out => Q (own k) out) k p := by
  induction p generalizing k with
  | ret a => exact hp
  | raise e => exact hp
  | call r next ih =>
      refine ⟨hp.1, fun t c => ?_⟩
      have hnext := hp.2 (shared t) c
      rw [hnoted] at hnext
      exact ih _ hnext

/-- A state that carries more than the one the procedure was proved over, and
whose answers are among the answers there, changes nothing to what the procedure
does. -/
theorem Follows.view {τ : Type} {serve' : Serve I τ ℓ ω} (view : τ → σ)
    (hview : ∀ t l r c, ∃ c', (serve' t l r c).2 = (serve (view t) l r c').2)
    {l : ℓ} {p : Proc I ε α} (hp : Follows serve allowed Q l p) :
    Follows serve' allowed Q l p := by
  induction p generalizing l with
  | ret a => exact hp
  | raise e => exact hp
  | call r k ih =>
      refine ⟨hp.1, fun t c => ?_⟩
      obtain ⟨c', hsame⟩ := hview t l r c
      rw [hsame]
      exact ih _ (hp.2 (view t) c')

theorem Follows.project {τ ℓ' : Type} {serve' : Serve I τ ℓ' ω} {allowed' : ℓ' → I.Request → Prop}
    (project : ℓ → ℓ') (himp : ∀ l r, allowed l r → allowed' (project l) r)
    (hproject : ∀ t l r c, ∃ s, project (serve s l r c).2.1 = (serve' t (project l) r c).2.1 ∧
      (serve s l r c).2.2 = (serve' t (project l) r c).2.2)
    {l : ℓ} {p : Proc I ε α} (hp : Follows serve allowed Q l p) :
    Follows serve' allowed' (fun _ _ => True) (project l) p := by
  induction p generalizing l with
  | ret a => trivial
  | raise e => trivial
  | call r k ih =>
      refine ⟨himp l r hp.1, fun t c => ?_⟩
      obtain ⟨s, hlocal, hanswer⟩ := hproject t l r c
      rw [← hlocal, ← hanswer]
      exact ih _ (hp.2 s c)

theorem follows_any (serve : Serve I σ ℓ ω) (l : ℓ) (p : Proc I ε α) :
    Follows serve (fun _ _ => True) (fun _ _ => True) l p := by
  induction p generalizing l with
  | ret a => trivial
  | raise e => trivial
  | call r k ih => exact ⟨trivial, fun s c => ih _ _⟩

/-- All threads of the pool follow the discipline `allowed`. -/
def Disciplined (serve : Serve I σ ℓ ω) (allowed : ℓ → I.Request → Prop)
    (pool : Pool I ε σ ℓ α) : Prop :=
  ∀ thread ∈ pool.threads,
    Follows serve allowed (fun _ _ => True) thread.1 thread.2

/-- A side condition on a step, read from the shared state, the states of all
threads, the index of the thread that moves and its request. -/
def StepMeets (cond : σ → List ℓ → Nat → I.Request → Prop)
    (pool : Pool I ε σ ℓ α) (action : Nat × ω) : Prop :=
  match pool.threads[action.1]? with
  | some (_, .call r _) => cond pool.shared pool.locals action.1 r
  | _ => True

instance decidableStepMeets (cond : σ → List ℓ → Nat → I.Request → Prop)
    [∀ s ls i r, Decidable (cond s ls i r)] (pool : Pool I ε σ ℓ α)
    (action : Nat × ω) : Decidable (StepMeets cond pool action) :=
  match h : pool.threads[action.1]? with
  | some (_, .call r _) =>
      decidable_of_iff (cond pool.shared pool.locals action.1 r)
        (by simp [StepMeets, h])
  | some (_, .ret _) => isTrue (by simp [StepMeets, h])
  | some (_, .raise _) => isTrue (by simp [StepMeets, h])
  | none => isTrue (by simp [StepMeets, h])

instance decidableAlongMeets (cond : σ → List ℓ → Nat → I.Request → Prop)
    [∀ s ls i r, Decidable (cond s ls i r)] (pool : Pool I ε σ ℓ α)
    (schedule : List (Nat × ω)) :
    Decidable (Along (Pool.step serve) (StepMeets cond) pool schedule) :=
  have (pool : Pool I ε σ ℓ α) (action : Nat × ω) : Decidable (StepMeets cond pool action) :=
    decidableStepMeets cond pool action
  decidableAlong (Pool.step serve) (StepMeets cond) pool schedule

/-- A side condition that also reads what the environment chooses at the step. -/
def ActionMeets (cond : σ → List ℓ → Nat → I.Request → ω → Prop)
    (pool : Pool I ε σ ℓ α) (action : Nat × ω) : Prop :=
  match pool.threads[action.1]? with
  | some (_, .call r _) => cond pool.shared pool.locals action.1 r action.2
  | _ => True

instance decidableActionMeets (cond : σ → List ℓ → Nat → I.Request → ω → Prop)
    [∀ s ls i r c, Decidable (cond s ls i r c)] (pool : Pool I ε σ ℓ α)
    (action : Nat × ω) : Decidable (ActionMeets cond pool action) :=
  match h : pool.threads[action.1]? with
  | some (_, .call r _) =>
      decidable_of_iff (cond pool.shared pool.locals action.1 r action.2)
        (by simp [ActionMeets, h])
  | some (_, .ret _) => isTrue (by simp [ActionMeets, h])
  | some (_, .raise _) => isTrue (by simp [ActionMeets, h])
  | none => isTrue (by simp [ActionMeets, h])

instance decidableAlongActions (cond : σ → List ℓ → Nat → I.Request → ω → Prop)
    [∀ s ls i r c, Decidable (cond s ls i r c)] (pool : Pool I ε σ ℓ α)
    (schedule : List (Nat × ω)) :
    Decidable (Along (Pool.step serve) (ActionMeets cond) pool schedule) :=
  have (pool : Pool I ε σ ℓ α) (action : Nat × ω) : Decidable (ActionMeets cond pool action) :=
    decidableActionMeets cond pool action
  decidableAlong (Pool.step serve) (ActionMeets cond) pool schedule

theorem set_eq_self {xs : List α} {i : Nat} {x : α} (hi : xs[i]? = some x) :
    xs.set i x = xs := by
  obtain ⟨hlt, rfl⟩ := List.getElem?_eq_some_iff.mp hi
  exact List.set_getElem_self hlt

/-- One step of threads that keep each to a discipline of its own: they keep to it, and
a relation that survives each allowed request survives the step. -/
theorem pool_step_each {disciplines : Nat → ℓ → I.Request → Prop}
    {cond : σ → List ℓ → Nat → I.Request → ω → Prop} {G : σ → List ℓ → Prop}
    (hstep : ∀ s ls i l r c, G s ls → ls[i]? = some l → disciplines i l r →
      cond s ls i r c → G (serve s l r c).1 (ls.set i (serve s l r c).2.1))
    {pool next : Pool I ε σ ℓ α} {action : Nat × ω}
    (hfollows : ∀ i thread, pool.threads[i]? = some thread →
      Follows serve (disciplines i) (fun _ _ => True) thread.1 thread.2)
    (hG : G pool.shared pool.locals) (hmeets : ActionMeets cond pool action)
    (hnext : Pool.step serve pool action = some next) :
    (∀ i thread, next.threads[i]? = some thread →
      Follows serve (disciplines i) (fun _ _ => True) thread.1 thread.2) ∧
      G next.shared next.locals := by
  obtain ⟨l, r, k, hthread, rfl⟩ := Pool.step_eq_some hnext
  obtain ⟨hallowed, hafter⟩ := hfollows _ _ hthread
  have hlocal : pool.locals[action.1]? = some l := by
    simp [Pool.locals, hthread]
  have hcond : cond pool.shared pool.locals action.1 r action.2 := by
    simpa [ActionMeets, hthread] using hmeets
  refine ⟨?_, ?_⟩
  · intro i thread hi
    rw [List.getElem?_set] at hi
    split at hi
    · rename_i heq
      subst heq
      split at hi
      · cases hi
        exact hafter _ _
      · cases hi
    · exact hfollows i thread hi
  · have hset := hstep _ _ _ _ _ action.2 hG hlocal hallowed hcond
    simpa [Pool.locals, List.map_set] using hset

/-- Thread-modular invariants: when every thread keeps to a discipline of its own, a
relation between the shared state and the threads' own states that survives
each allowed request survives every run whose steps meet the side condition. -/
theorem pool_invariant_each {disciplines : Nat → ℓ → I.Request → Prop}
    {cond : σ → List ℓ → Nat → I.Request → ω → Prop} {G : σ → List ℓ → Prop}
    (hstep : ∀ s ls i l r c, G s ls → ls[i]? = some l → disciplines i l r →
      cond s ls i r c → G (serve s l r c).1 (ls.set i (serve s l r c).2.1))
    {pool pool' : Pool I ε σ ℓ α} {schedule : List (Nat × ω)}
    (hfollows : ∀ i thread, pool.threads[i]? = some thread →
      Follows serve (disciplines i) (fun _ _ => True) thread.1 thread.2)
    (hinit : G pool.shared pool.locals)
    (halong : Along (Pool.step serve) (ActionMeets cond) pool schedule)
    (hrun : run (Pool.step serve) pool schedule = some pool') :
    G pool'.shared pool'.locals :=
  (run_invariant (fun _ _ _ hinv hmeets hnext => pool_step_each hstep hinv.1 hinv.2 hmeets hnext)
    ⟨hfollows, hinit⟩ halong hrun).2

theorem pool_invariant_action {cond : σ → List ℓ → Nat → I.Request → ω → Prop}
    {G : σ → List ℓ → Prop}
    (hstep : ∀ s ls i l r c, G s ls → ls[i]? = some l → allowed l r →
      cond s ls i r c → G (serve s l r c).1 (ls.set i (serve s l r c).2.1))
    {pool pool' : Pool I ε σ ℓ α} {schedule : List (Nat × ω)}
    (hfollows : Disciplined serve allowed pool)
    (hinit : G pool.shared pool.locals)
    (halong : Along (Pool.step serve) (ActionMeets cond) pool schedule)
    (hrun : run (Pool.step serve) pool schedule = some pool') :
    G pool'.shared pool'.locals :=
  @pool_invariant_each _ _ _ _ _ _ serve (fun _ => allowed) cond G hstep _ _ _
    (fun _ thread hi => hfollows thread (List.mem_of_getElem? hi)) hinit halong hrun

theorem pool_invariant {cond : σ → List ℓ → Nat → I.Request → Prop}
    {G : σ → List ℓ → Prop}
    (hstep : ∀ s ls i l r c, G s ls → ls[i]? = some l → allowed l r →
      cond s ls i r → G (serve s l r c).1 (ls.set i (serve s l r c).2.1))
    {pool pool' : Pool I ε σ ℓ α} {schedule : List (Nat × ω)}
    (hfollows : Disciplined serve allowed pool)
    (hinit : G pool.shared pool.locals)
    (halong : Along (Pool.step serve) (StepMeets cond) pool schedule)
    (hrun : run (Pool.step serve) pool schedule = some pool') :
    G pool'.shared pool'.locals :=
  @pool_invariant_action _ _ _ _ _ _ serve allowed (fun s ls i r _ => cond s ls i r) G hstep _ _ _
    hfollows hinit halong hrun

theorem pool_invariant_always {G : σ → List ℓ → Prop}
    (hstep : ∀ s ls i l r c, G s ls → ls[i]? = some l → allowed l r →
      G (serve s l r c).1 (ls.set i (serve s l r c).2.1))
    {pool pool' : Pool I ε σ ℓ α} {schedule : List (Nat × ω)}
    (hfollows : Disciplined serve allowed pool) (hinit : G pool.shared pool.locals)
    (hrun : run (Pool.step serve) pool schedule = some pool') :
    G pool'.shared pool'.locals := by
  refine @pool_invariant _ _ _ _ _ _ serve allowed (fun _ _ _ _ => True) G
    (fun s ls i l r c hG hl hallowed _ => hstep s ls i l r c hG hl hallowed) _ _ _ hfollows hinit
    (along_of_forall (fun pool action => ?_) _ _) hrun
  unfold StepMeets
  split
  · trivial
  · trivial

/-- A side condition that follows from another one wherever an invariant of the
disciplined threads holds is met along the same schedules. -/
theorem along_of_pool_invariant {cond cond' : σ → List ℓ → Nat → I.Request → Prop}
    {G : σ → List ℓ → Prop}
    (hstep : ∀ s ls i l r c, G s ls → ls[i]? = some l → allowed l r →
      cond s ls i r → G (serve s l r c).1 (ls.set i (serve s l r c).2.1))
    (himp : ∀ s ls i r, G s ls → cond s ls i r → cond' s ls i r)
    {pool : Pool I ε σ ℓ α} {schedule : List (Nat × ω)}
    (hfollows : Disciplined serve allowed pool) (hinit : G pool.shared pool.locals)
    (halong : Along (Pool.step serve) (StepMeets cond) pool schedule) :
    Along (Pool.step serve) (StepMeets cond') pool schedule := by
  refine @Along.of_invariant _ _ (Pool.step serve) (StepMeets cond) (StepMeets cond')
    (fun pool => (∀ (i : Nat) thread, pool.threads[i]? = some thread →
      Follows serve allowed (fun _ _ => True) thread.1 thread.2) ∧ G pool.shared pool.locals)
    (fun pool action next hinv hmeets hnext => ?_) (fun pool action hinv hmeets => ?_) _ _
    ⟨fun i thread hi => hfollows thread (List.mem_of_getElem? hi), hinit⟩ halong
  · exact @pool_step_each _ _ _ _ _ _ serve (fun _ => allowed) (fun s ls i r _ => cond s ls i r) G
      hstep _ _ _ hinv.1 hinv.2 hmeets hnext
  · unfold StepMeets at hmeets ⊢
    split
    · rename_i hthread
      rw [hthread] at hmeets
      exact himp _ _ _ _ hinv.2 hmeets
    · trivial

/-- Whether the procedure has a request left to make. -/
def Proc.running : Proc I ε α → Bool
  | .call .. => true
  | _ => false

/-- The states of the threads, each with whether it still runs. -/
def Pool.marked (pool : Pool I ε σ ℓ α) : List (ℓ × Bool) :=
  pool.threads.map fun thread => (thread.1, thread.2.running)

/-- A side condition on a step that also reads which threads still run. -/
def MarkedMeets (cond : σ → List (ℓ × Bool) → Nat → I.Request → ω → Prop)
    (pool : Pool I ε σ ℓ α) (action : Nat × ω) : Prop :=
  match pool.threads[action.1]? with
  | some (_, .call r _) => cond pool.shared pool.marked action.1 r action.2
  | _ => True

instance decidableMarkedMeets (cond : σ → List (ℓ × Bool) → Nat → I.Request → ω → Prop)
    [∀ s ts i r c, Decidable (cond s ts i r c)] (pool : Pool I ε σ ℓ α)
    (action : Nat × ω) : Decidable (MarkedMeets cond pool action) :=
  match h : pool.threads[action.1]? with
  | some (_, .call r _) =>
      decidable_of_iff (cond pool.shared pool.marked action.1 r action.2)
        (by simp [MarkedMeets, h])
  | some (_, .ret _) => isTrue (by simp [MarkedMeets, h])
  | some (_, .raise _) => isTrue (by simp [MarkedMeets, h])
  | none => isTrue (by simp [MarkedMeets, h])

instance decidableAlongMarked (cond : σ → List (ℓ × Bool) → Nat → I.Request → ω → Prop)
    [∀ s ts i r c, Decidable (cond s ts i r c)] (pool : Pool I ε σ ℓ α)
    (schedule : List (Nat × ω)) :
    Decidable (Along (Pool.step serve) (MarkedMeets cond) pool schedule) :=
  have (pool : Pool I ε σ ℓ α) (action : Nat × ω) : Decidable (MarkedMeets cond pool action) :=
    decidableMarkedMeets cond pool action
  decidableAlong (Pool.step serve) (MarkedMeets cond) pool schedule

theorem follows_ended {P : ℓ → Prop} {l : ℓ} {p : Proc I ε α}
    (hp : Follows serve allowed (fun l _ => P l) l p) (hended : p.running = false) : P l := by
  cases p with
  | ret a => exact hp
  | raise e => exact hp
  | call r k => cases hended

/-- Thread-modular invariants over the threads that still run: a thread that ends leaves a
state that its discipline grants. -/
theorem pool_invariant_marked {cond : σ → List (ℓ × Bool) → Nat → I.Request → ω → Prop}
    {G : σ → List (ℓ × Bool) → Prop} {P : ℓ → Prop}
    (hstep : ∀ s ts i l r c b, G s ts → ts[i]? = some (l, true) → allowed l r →
      cond s ts i r c → (b = false → P (serve s l r c).2.1) →
      G (serve s l r c).1 (ts.set i ((serve s l r c).2.1, b)))
    {pool pool' : Pool I ε σ ℓ α} {schedule : List (Nat × ω)}
    (hfollows : ∀ thread ∈ pool.threads,
      Follows serve allowed (fun l _ => P l) thread.1 thread.2)
    (hinit : G pool.shared pool.marked)
    (halong : Along (Pool.step serve) (MarkedMeets cond) pool schedule)
    (hrun : run (Pool.step serve) pool schedule = some pool') :
    G pool'.shared pool'.marked := by
  suffices hinv : (∀ thread ∈ pool'.threads,
      Follows serve allowed (fun l _ => P l) thread.1 thread.2) ∧
      G pool'.shared pool'.marked from hinv.2
  refine @run_invariant _ _ (Pool.step serve) (MarkedMeets cond)
    (fun pool => (∀ thread ∈ pool.threads,
      Follows serve allowed (fun l _ => P l) thread.1 thread.2) ∧ G pool.shared pool.marked)
    ?_ _ _ _ ⟨hfollows, hinit⟩ halong hrun
  rintro pool action next ⟨hdisc, hG⟩ hmeets hnext
  obtain ⟨l, r, k, hthread, rfl⟩ := Pool.step_eq_some hnext
  obtain ⟨hallowed, hafter⟩ := hdisc _ (List.mem_of_getElem? hthread)
  have hlocal : pool.marked[action.1]? = some (l, true) := by
    simp [Pool.marked, hthread, Proc.running]
  have hcond : cond pool.shared pool.marked action.1 r action.2 := by
    simpa [MarkedMeets, hthread] using hmeets
  have hrest := hafter pool.shared action.2
  refine ⟨?_, ?_⟩
  · intro thread hmem
    rcases List.mem_or_eq_of_mem_set hmem with hold | rfl
    · exact hdisc thread hold
    · exact hrest
  · have hset := hstep _ _ _ _ _ action.2 _ hG hlocal hallowed hcond fun hended =>
      follows_ended hrest hended
    simpa [Pool.marked, List.map_set] using hset

/-- What every thread is still held to, and what a finished one has met. -/
theorem pool_follows {pool pool' : Pool I ε σ ℓ α} {schedule : List (Nat × ω)}
    (hfollows : ∀ thread ∈ pool.threads, Follows serve allowed Q thread.1 thread.2)
    (hrun : run (Pool.step serve) pool schedule = some pool') :
    ∀ thread ∈ pool'.threads, Follows serve allowed Q thread.1 thread.2 := by
  induction schedule generalizing pool with
  | nil =>
      cases hrun
      exact hfollows
  | cons action schedule ih =>
      obtain ⟨next, hstep, hrest⟩ := run_cons_eq_some.mp hrun
      refine ih ?_ hrest
      obtain ⟨l, r, k, hthread, rfl⟩ := Pool.step_eq_some hstep
      intro thread hmem
      rcases List.mem_or_eq_of_mem_set hmem with hold | rfl
      · exact hfollows thread hold
      · exact (hfollows _ (List.mem_of_getElem? hthread)).2 _ _

end Follows

theorem countP_set_add {γ : Type} (p : γ → Bool) {xs : List γ} {i : Nat} {x : γ}
    (hx : xs[i]? = some x) (y : γ) :
    (xs.set i y).countP p + (if p x then 1 else 0) = xs.countP p + (if p y then 1 else 0) := by
  obtain ⟨hi, rfl⟩ := List.getElem?_eq_some_iff.mp hx
  rw [List.countP_set hi]
  have hcounted : (if p xs[i] then 1 else 0) ≤ xs.countP p := by
    split
    · rename_i hp
      exact List.countP_pos_iff.mpr ⟨_, List.getElem_mem hi, hp⟩
    · exact Nat.zero_le _
  omega

/-- The sequential counterpart: a relation between the state and the
procedure's own state that survives each allowed request holds when a
procedure that keeps to the discipline has run alone to its end. -/
theorem eval_invariant {serve : Serve I σ ℓ ω} {allowed : ℓ → I.Request → Prop}
    {Q : ℓ → Except ε α → Prop} {G : σ → ℓ → Prop}
    (hstep : ∀ s l r c, G s l → allowed l r →
      G (serve s l r c).1 (serve s l r c).2.1)
    {p : Proc I ε α} {s : σ} {l : ℓ} {choices : Nat → ω}
    (hfollows : Follows serve allowed Q l p) (hinit : G s l) :
    G (eval serve p s l choices).1 (eval serve p s l choices).2.1 := by
  induction p generalizing s l choices with
  | ret a => exact hinit
  | raise e => exact hinit
  | call r k ih =>
      exact ih _ (hfollows.2 s (choices 0)) (hstep s l r (choices 0) hinit hfollows.1)

/-- Run alone from this state, the procedure ends in a state and with an outcome
that satisfy `Q`, whatever the environment chooses. -/
def Ensures (serve : Serve I σ ℓ ω) (Q : σ → ℓ → Except ε α → Prop) :
    σ → ℓ → Proc I ε α → Prop
  | s, l, .ret a => Q s l (.ok a)
  | s, l, .raise e => Q s l (.error e)
  | s, l, .call r k =>
      ∀ c, Ensures serve Q (serve s l r c).1 (serve s l r c).2.1 (k (serve s l r c).2.2)

section Ensures

variable {serve : Serve I σ ℓ ω} {Q : σ → ℓ → Except ε α → Prop}

theorem ensures_request_bind {s : σ} {l : ℓ} {r : I.Request} {f : I.Answer r → Proc I ε α} :
    Ensures serve Q s l (request r >>= f) ↔
      ∀ c, Ensures serve Q (serve s l r c).1 (serve s l r c).2.1
        (f (serve s l r c).2.2) := Iff.rfl

theorem ensures_bind {R : σ → ℓ → Except ε β → Prop} {s : σ} {l : ℓ}
    {p : Proc I ε α} {f : α → Proc I ε β} (hp : Ensures serve Q s l p)
    (hf : ∀ s l a, Q s l (.ok a) → Ensures serve R s l (f a))
    (he : ∀ s l e, Q s l (.error e) → R s l (.error e)) :
    Ensures serve R s l (p >>= f) := by
  induction p generalizing s l with
  | ret a => exact hf s l a hp
  | raise e => exact he s l e hp
  | call r k ih => exact fun c => ih _ (hp c)

theorem ensures_attempt {R : σ → ℓ → Except ε (Except ε α) → Prop} {s : σ} {l : ℓ}
    {p : Proc I ε α} (hp : Ensures serve Q s l p)
    (himp : ∀ s l outcome, Q s l outcome → R s l (.ok outcome)) :
    Ensures serve R s l p.attempt := by
  induction p generalizing s l with
  | ret a => exact himp s l _ hp
  | raise e => exact himp s l _ hp
  | call r k ih => exact fun c => ih _ (hp c)

theorem ensures_attempt_bind {R : σ → ℓ → Except ε β → Prop} {s : σ} {l : ℓ} {p : Proc I ε α}
    {f : Except ε α → Proc I ε β} (hp : Ensures serve Q s l p)
    (hf : ∀ s l outcome, Q s l outcome → Ensures serve R s l (f outcome)) :
    Ensures serve R s l (p.attempt >>= f) := by
  induction p generalizing s l with
  | ret a => exact hf s l _ hp
  | raise e => exact hf s l _ hp
  | call r k ih => exact fun c => ih _ (hp c)

theorem Ensures.mono {R : σ → ℓ → Except ε α → Prop}
    (himp : ∀ s l outcome, Q s l outcome → R s l outcome) {s : σ} {l : ℓ} {p : Proc I ε α}
    (hp : Ensures serve Q s l p) : Ensures serve R s l p := by
  induction p generalizing s l with
  | ret a => exact himp s l _ hp
  | raise e => exact himp s l _ hp
  | call r k ih => exact fun c => ih _ (hp c)

theorem eval_of_ensures {s : σ} {l : ℓ} {p : Proc I ε α} (hp : Ensures serve Q s l p)
    (choices : Nat → ω) :
    Q (eval serve p s l choices).1 (eval serve p s l choices).2.1
      (eval serve p s l choices).2.2 := by
  induction p generalizing s l choices with
  | ret a => exact hp
  | raise e => exact hp
  | call r k ih => exact ih _ (hp (choices 0)) _

end Ensures

/-- Every choice of the run meets a condition on the state in which it is
made. -/
def EvalMeets (serve : Serve I σ ℓ ω) (cond : σ → ℓ → I.Request → ω → Prop) :
    Proc I ε α → σ → ℓ → (Nat → ω) → Prop
  | .ret _, _, _, _ => True
  | .raise _, _, _, _ => True
  | .call r k, s, l, c =>
      cond s l r (c 0) ∧
        EvalMeets serve cond (k (serve s l r (c 0)).2.2) (serve s l r (c 0)).1
          (serve s l r (c 0)).2.1 fun n => c (n + 1)

instance decidableEvalMeets (serve : Serve I σ ℓ ω) (cond : σ → ℓ → I.Request → ω → Prop)
    [∀ s l r c, Decidable (cond s l r c)] : (p : Proc I ε α) → (s : σ) → (l : ℓ) →
      (c : Nat → ω) → Decidable (EvalMeets serve cond p s l c)
  | .ret _, _, _, _ => isTrue trivial
  | .raise _, _, _, _ => isTrue trivial
  | .call r k, s, l, c =>
      have := decidableEvalMeets serve cond (k (serve s l r (c 0)).2.2) (serve s l r (c 0)).1
        (serve s l r (c 0)).2.1 fun n => c (n + 1)
      inferInstanceAs (Decidable (_ ∧ _))

/-- Run alone from this state with choices that meet the condition, the
procedure ends in a state and with an outcome that satisfy `Q`. -/
def EnsuresIf (serve : Serve I σ ℓ ω) (cond : σ → ℓ → I.Request → ω → Prop)
    (Q : σ → ℓ → Except ε α → Prop) : σ → ℓ → Proc I ε α → Prop
  | s, l, .ret a => Q s l (.ok a)
  | s, l, .raise e => Q s l (.error e)
  | s, l, .call r k =>
      ∀ c, cond s l r c →
        EnsuresIf serve cond Q (serve s l r c).1 (serve s l r c).2.1 (k (serve s l r c).2.2)

section EnsuresIf

variable {serve : Serve I σ ℓ ω} {cond : σ → ℓ → I.Request → ω → Prop}
variable {Q : σ → ℓ → Except ε α → Prop}

theorem ensuresIf_request_bind {s : σ} {l : ℓ} {r : I.Request} {f : I.Answer r → Proc I ε α} :
    EnsuresIf serve cond Q s l (request r >>= f) ↔
      ∀ c, cond s l r c → EnsuresIf serve cond Q (serve s l r c).1 (serve s l r c).2.1
        (f (serve s l r c).2.2) := Iff.rfl

theorem ensuresIf_bind {R : σ → ℓ → Except ε β → Prop} {s : σ} {l : ℓ}
    {p : Proc I ε α} {f : α → Proc I ε β} (hp : EnsuresIf serve cond Q s l p)
    (hf : ∀ s l a, Q s l (.ok a) → EnsuresIf serve cond R s l (f a))
    (he : ∀ s l e, Q s l (.error e) → R s l (.error e)) :
    EnsuresIf serve cond R s l (p >>= f) := by
  induction p generalizing s l with
  | ret a => exact hf s l a hp
  | raise e => exact he s l e hp
  | call r k ih => exact fun c hc => ih _ (hp c hc)

theorem ensuresIf_attempt_bind {R : σ → ℓ → Except ε β → Prop} {s : σ} {l : ℓ}
    {p : Proc I ε α} {f : Except ε α → Proc I ε β} (hp : EnsuresIf serve cond Q s l p)
    (hf : ∀ s l outcome, Q s l outcome → EnsuresIf serve cond R s l (f outcome)) :
    EnsuresIf serve cond R s l (p.attempt >>= f) := by
  induction p generalizing s l with
  | ret a => exact hf s l _ hp
  | raise e => exact hf s l _ hp
  | call r k ih => exact fun c hc => ih _ (hp c hc)

theorem EnsuresIf.mono {R : σ → ℓ → Except ε α → Prop}
    (himp : ∀ s l outcome, Q s l outcome → R s l outcome) {s : σ} {l : ℓ} {p : Proc I ε α}
    (hp : EnsuresIf serve cond Q s l p) : EnsuresIf serve cond R s l p := by
  induction p generalizing s l with
  | ret a => exact himp s l _ hp
  | raise e => exact himp s l _ hp
  | call r k ih => exact fun c hc => ih _ (hp c hc)

/-- The frame rule: what survives each allowed request survives a procedure
that keeps to the discipline. -/
theorem Follows.ensuresIf {allowed : ℓ → I.Request → Prop} {G : σ → ℓ → Prop}
    {P : ℓ → Except ε α → Prop}
    (hstep : ∀ s l r c, G s l → allowed l r → G (serve s l r c).1 (serve s l r c).2.1)
    {s : σ} {l : ℓ} {p : Proc I ε α} (hp : Follows serve allowed P l p) (hG : G s l) :
    EnsuresIf serve cond (fun s l out => G s l ∧ P l out) s l p := by
  induction p generalizing s l with
  | ret a => exact ⟨hG, hp⟩
  | raise e => exact ⟨hG, hp⟩
  | call r k ih => exact fun c _ => ih _ (hp.2 s c) (hstep s l r c hG hp.1)

theorem evalMeets_of_choices {P : ω → Prop} {choices : Nat → ω} (h : ∀ n, P (choices n))
    (p : Proc I ε α) (s : σ) (l : ℓ) : EvalMeets serve (fun _ _ _ c => P c) p s l choices := by
  induction p generalizing s l choices with
  | ret a => trivial
  | raise e => trivial
  | call r k ih => exact ⟨h 0, ih _ (fun n => h (n + 1)) _ _⟩

theorem eval_of_ensuresIf {s : σ} {l : ℓ} {p : Proc I ε α} (hp : EnsuresIf serve cond Q s l p)
    (choices : Nat → ω) (hmeets : EvalMeets serve cond p s l choices) :
    Q (eval serve p s l choices).1 (eval serve p s l choices).2.1
      (eval serve p s l choices).2.2 := by
  induction p generalizing s l choices with
  | ret a => exact hp
  | raise e => exact hp
  | call r k ih => exact ih _ (hp (choices 0) hmeets.1) _ hmeets.2

end EnsuresIf

/-- The same requests over a state that also notes whether every choice so far
met the condition. -/
def watch (serve : Serve I σ ℓ ω) (cond : σ → ℓ → I.Request → ω → Prop) :
    Serve I (σ × Prop) ℓ ω := fun s l r c =>
  let out := serve s.1 l r c
  ((out.1, s.2 ∧ cond s.1 l r c), out.2.1, out.2.2)

section Watch

variable {serve : Serve I σ ℓ ω} {cond : σ → ℓ → I.Request → ω → Prop}

theorem eval_watch (p : Proc I ε α) (s : σ) (P : Prop) (l : ℓ) (choices : Nat → ω) :
    eval (watch serve cond) p (s, P) l choices =
      (((eval serve p s l choices).1, P ∧ EvalMeets serve cond p s l choices),
        (eval serve p s l choices).2) := by
  induction p generalizing s P l choices with
  | ret a => simp [eval, EvalMeets]
  | raise e => simp [eval, EvalMeets]
  | call r k ih =>
      show eval (watch serve cond) (k (serve s l r (choices 0)).2.2)
        ((serve s l r (choices 0)).1, P ∧ cond s l r (choices 0)) (serve s l r (choices 0)).2.1
        (fun n => choices (n + 1)) = _
      rw [ih]
      simp only [eval, EvalMeets, and_assoc]

/-- What a procedure ensures under the watched requests, it ensures under the
plain ones. -/
theorem eval_of_ensures_watch {Q : σ × Prop → ℓ → Except ε α → Prop} {p : Proc I ε α} {s : σ}
    {l : ℓ} (hp : Ensures (watch serve cond) Q (s, True) l p) (choices : Nat → ω) :
    Q ((eval serve p s l choices).1, EvalMeets serve cond p s l choices)
      (eval serve p s l choices).2.1 (eval serve p s l choices).2.2 := by
  have hQ := eval_of_ensures hp choices
  rw [eval_watch] at hQ
  simpa using hQ

end Watch

/-- The same requests over a state that also carries a note, brought up to date
at each of them. -/
def noting {τ : Type} (serve : Serve I σ ℓ ω) (note : σ → ℓ → I.Request → ω → τ → τ) :
    Serve I (σ × τ) ℓ ω := fun s l r c =>
  let out := serve s.1 l r c
  ((out.1, note s.1 l r c s.2), out.2.1, out.2.2)

section Noting

variable {τ : Type} {serve : Serve I σ ℓ ω} {note : σ → ℓ → I.Request → ω → τ → τ}

theorem eval_noting (p : Proc I ε α) (s : σ) (t : τ) (l : ℓ) (choices : Nat → ω) :
    (eval (noting serve note) p (s, t) l choices).1.1 = (eval serve p s l choices).1 ∧
      (eval (noting serve note) p (s, t) l choices).2 = (eval serve p s l choices).2 := by
  induction p generalizing s t l choices with
  | ret a => exact ⟨rfl, rfl⟩
  | raise e => exact ⟨rfl, rfl⟩
  | call r k ih => exact ih _ _ _ _ _

theorem evalMeets_noting {cond : σ → ℓ → I.Request → ω → Prop} (p : Proc I ε α) (s : σ) (t : τ)
    (l : ℓ) (choices : Nat → ω) :
    EvalMeets (noting serve note) (fun s => cond s.1) p (s, t) l choices ↔
      EvalMeets serve cond p s l choices := by
  induction p generalizing s t l choices with
  | ret a => exact Iff.rfl
  | raise e => exact Iff.rfl
  | call r k ih => exact and_congr_right fun _ => ih _ _ _ _ _

end Noting

/-- Run alone from either of two states, with choices that are `ok`, the procedure
gets the same answers and ends in the same way, in states related by `Q`. -/
def Agree (serve : Serve I σ ℓ ω) (ok : ω → Prop) (Q : σ → σ → ℓ → Except ε α → Prop) :
    σ → σ → ℓ → Proc I ε α → Prop
  | s, s', l, .ret a => Q s s' l (.ok a)
  | s, s', l, .raise e => Q s s' l (.error e)
  | s, s', l, .call r k =>
      ∀ c, ok c → (serve s' l r c).2 = (serve s l r c).2 ∧
        Agree serve ok Q (serve s l r c).1 (serve s' l r c).1 (serve s l r c).2.1
          (k (serve s l r c).2.2)

section Agree

variable {serve : Serve I σ ℓ ω} {ok : ω → Prop} {Q : σ → σ → ℓ → Except ε α → Prop}

theorem agree_request_bind {s s' : σ} {l : ℓ} {r : I.Request} {f : I.Answer r → Proc I ε α} :
    Agree serve ok Q s s' l (request r >>= f) ↔
      ∀ c, ok c → (serve s' l r c).2 = (serve s l r c).2 ∧
        Agree serve ok Q (serve s l r c).1 (serve s' l r c).1 (serve s l r c).2.1
          (f (serve s l r c).2.2) := Iff.rfl

theorem agree_bind {R : σ → σ → ℓ → Except ε β → Prop} {s s' : σ} {l : ℓ} {p : Proc I ε α}
    {f : α → Proc I ε β} (hp : Agree serve ok Q s s' l p)
    (hf : ∀ s s' l a, Q s s' l (.ok a) → Agree serve ok R s s' l (f a))
    (he : ∀ s s' l e, Q s s' l (.error e) → R s s' l (.error e)) :
    Agree serve ok R s s' l (p >>= f) := by
  induction p generalizing s s' l with
  | ret a => exact hf s s' l a hp
  | raise e => exact he s s' l e hp
  | call r k ih => exact fun c hc => ⟨(hp c hc).1, ih _ (hp c hc).2⟩

theorem agree_attempt_bind {R : σ → σ → ℓ → Except ε β → Prop} {s s' : σ} {l : ℓ}
    {p : Proc I ε α} {f : Except ε α → Proc I ε β} (hp : Agree serve ok Q s s' l p)
    (hf : ∀ s s' l outcome, Q s s' l outcome → Agree serve ok R s s' l (f outcome)) :
    Agree serve ok R s s' l (p.attempt >>= f) := by
  induction p generalizing s s' l with
  | ret a => exact hf s s' l _ hp
  | raise e => exact hf s s' l _ hp
  | call r k ih => exact fun c hc => ⟨(hp c hc).1, ih _ (hp c hc).2⟩

theorem Makes.agree {made : I.Request → Prop} {R : σ → σ → ℓ → Prop}
    (hmade : ∀ s s' l r c, made r → ok c → R s s' l → (serve s' l r c).2 = (serve s l r c).2 ∧
      R (serve s l r c).1 (serve s' l r c).1 (serve s l r c).2.1)
    {p : Proc I ε α} (hp : Makes made p) {s s' : σ} {l : ℓ} (hR : R s s' l) :
    Agree serve ok (fun s s' l _ => R s s' l) s s' l p := by
  induction p generalizing s s' l with
  | ret a => exact hR
  | raise e => exact hR
  | call r k ih =>
      intro c hc
      obtain ⟨hanswer, hnext⟩ := hmade s s' l r c hp.1 hc hR
      exact ⟨hanswer, ih _ (hp.2 _) hnext⟩

theorem eval_of_agree {s s' : σ} {l : ℓ} {p : Proc I ε α} (hp : Agree serve ok Q s s' l p)
    {choices : Nat → ω} (hok : ∀ n, ok (choices n)) :
    (eval serve p s' l choices).2 = (eval serve p s l choices).2 ∧
      Q (eval serve p s l choices).1 (eval serve p s' l choices).1 (eval serve p s l choices).2.1
        (eval serve p s l choices).2.2 := by
  induction p generalizing s s' l choices with
  | ret a => exact ⟨rfl, hp⟩
  | raise e => exact ⟨rfl, hp⟩
  | call r k ih =>
      obtain ⟨hanswer, hrest⟩ := hp (choices 0) (hok 0)
      simp only [eval, hanswer]
      exact ih _ hrest fun n => hok (n + 1)

theorem Agree.eval_bind {R : σ → σ → Prop} {s s' : σ} {l : ℓ} {p : Proc I ε α}
    {f : α → Proc I ε β} (hp : Agree serve ok Q s s' l p) {choices : Nat → ω}
    (hok : ∀ n, ok (choices n))
    (hf : ∀ s s' l a choices, Q s s' l (.ok a) →
      R (eval serve (f a) s l choices).1 (eval serve (f a) s' l choices).1)
    (he : ∀ s s' l e, Q s s' l (.error e) → R s s') :
    R (eval serve (p >>= f) s l choices).1 (eval serve (p >>= f) s' l choices).1 := by
  induction p generalizing s s' l choices with
  | ret a => exact hf s s' l a choices hp
  | raise e => exact he s s' l e hp
  | call r k ih =>
      obtain ⟨hanswer, hrest⟩ := hp (choices 0) (hok 0)
      simp only [Proc.call_bind, eval, hanswer]
      exact ih _ hrest fun n => hok (n + 1)

end Agree

end Socle.Procedures
