import Socle.ModuleScheduler

/-!
The executions of one periodic task for one tenant exclude each other as long as
each is done with its lock before the lock's lifetime elapses.
-/

namespace Socle.PeriodicOverlap

open Socle.GuardedRuns Socle.Procedures Socle.ModuleScheduler
open Socle.ConnectorStore (Lock LockName lockTtl)

/-- The execution took the lock and has not yet left the function. -/
def busy (l : Execution) : Bool :=
  match l.phase with
  | .admitted => true
  | .inside _ => true
  | _ => false

/-- At most one execution is inside the function of a task for a tenant. -/
def NoOverlap (ls : List Execution) : Prop :=
  ∀ (task : UnitTask) (i j : Nat) (l l' : Execution), ls[i]? = some l → ls[j]? = some l' →
    l.phase = .inside task → l'.phase = .inside task → i = j

/-- The lifetime of a lock that an execution took and is not done with has not
elapsed when another one tries to take it, nor when the execution deletes it. -/
def withinLifetime (w : World) (ls : List Execution) (i : Nat) : Request → Bool
  | .acquireLock name => ls.all fun l => l.held.all fun lock =>
      !(busy l && lock.name == name) || decide (w.clock < lock.expiresAt)
  | .deleteLock _ => ls[i]?.all fun l => l.held.all fun lock => decide (w.clock < lock.expiresAt)
  | _ => true

/-- The locks of Valkey and those the executions took. -/
structure Exclusive (w : World) (ls : List Execution) : Prop where
  names : (w.locks.map (·.name)).Nodup
  fresh : ∀ l ∈ ls, ∀ lock, l.held = some lock → lock.token < w.nextToken
  distinct : ∀ (i j : Nat) (l l' : Execution) (lock : Lock), ls[i]? = some l → ls[j]? = some l' → l.held = some lock →
    l'.held = some lock → i = j
  /-- A lock is in Valkey until its lifetime elapses or its holder deletes it. -/
  live : ∀ l ∈ ls, ∀ lock, l.held = some lock → w.clock < lock.expiresAt → lock ∈ w.locks
  holds : ∀ l ∈ ls, busy l = true → ∃ lock, l.held = some lock
  inside : ∀ l ∈ ls, ∀ task, l.phase = .inside task → ∃ lock, l.held = some lock ∧
    lock.name = task.lockName
  alone : ∀ (i j : Nat) (l l' : Execution) (lock lock' : Lock), ls[i]? = some l →
    ls[j]? = some l' → busy l = true → busy l' = true → l.held = some lock →
    l'.held = some lock' → lock.name = lock'.name → i = j

variable {registry : List ModuleManifest} {w : World} {ls : List Execution} {i : Nat}
variable {l : Execution}

theorem Exclusive.noOverlap (h : Exclusive w ls) : NoOverlap ls := by
  intro task i j l l' hi hj hl hl'
  obtain ⟨lock, hlock, hname⟩ := h.inside l (List.mem_of_getElem? hi) task hl
  obtain ⟨lock', hlock', hname'⟩ := h.inside l' (List.mem_of_getElem? hj) task hl'
  exact h.alone i j l l' lock lock' hi hj (by simp [busy, hl]) (by simp [busy, hl']) hlock hlock'
    (hname.trans hname'.symm)

theorem liveLock_isSome {lock : Lock} (hmem : lock ∈ w.locks) (hlive : w.clock < lock.expiresAt) :
    (w.liveLock? lock.name).isSome = true := by
  rw [World.liveLock?, List.find?_isSome]
  exact ⟨lock, hmem, by simp [hlive]⟩

theorem getElem?_set_cases {l' x : Execution} {j : Nat} (h : (ls.set i l')[j]? = some x) :
    (j = i ∧ x = l') ∨ (j ≠ i ∧ ls[j]? = some x) := by
  rw [List.getElem?_set] at h
  split at h
  · rename_i hij
    split at h
    · exact .inl ⟨hij.symm, (Option.some.inj h).symm⟩
    · cases h
  · rename_i hij
    exact .inr ⟨fun hji => hij hji.symm, h⟩

theorem Exclusive.moved (h : Exclusive w ls) (hi : ls[i]? = some l) {w' : World} {l' : Execution}
    (hlocks : w'.locks = w.locks) (htoken : w'.nextToken = w.nextToken)
    (hclock : w.clock ≤ w'.clock) (hheld : l'.held = l.held)
    (hbusy : busy l' = true → busy l = true)
    (hinside : ∀ task, l'.phase = .inside task → ∃ lock, l.held = some lock ∧
      lock.name = task.lockName) :
    Exclusive w' (ls.set i l') := by
  -- every execution was there before, with the same lock
  have hback (j : Nat) (x : Execution) (hj : (ls.set i l')[j]? = some x) :
      ∃ y, ls[j]? = some y ∧ x.held = y.held ∧ (busy x = true → busy y = true) := by
    rcases getElem?_set_cases hj with ⟨rfl, rfl⟩ | ⟨-, hold⟩
    · exact ⟨l, hi, hheld, hbusy⟩
    · exact ⟨x, hold, rfl, fun hx => hx⟩
  have hmem (x : Execution) (hx : x ∈ ls.set i l') :
      ∃ y ∈ ls, x.held = y.held ∧ (busy x = true → busy y = true) := by
    obtain ⟨j, hj⟩ := List.mem_iff_getElem?.mp hx
    obtain ⟨y, hy, hsame⟩ := hback j x hj
    exact ⟨y, List.mem_of_getElem? hy, hsame⟩
  refine ⟨hlocks ▸ h.names, ?_, ?_, ?_, ?_, ?_, ?_⟩
  · intro x hx lock hlock
    obtain ⟨y, hy, hsame, -⟩ := hmem x hx
    rw [htoken]
    exact h.fresh y hy lock (hsame ▸ hlock)
  · intro j k x x' lock hj hk hx hx'
    obtain ⟨y, hy, hsame, -⟩ := hback j x hj
    obtain ⟨y', hy', hsame', -⟩ := hback k x' hk
    exact h.distinct j k y y' lock hy hy' (hsame ▸ hx) (hsame' ▸ hx')
  · intro x hx lock hlock hlive
    obtain ⟨y, hy, hsame, -⟩ := hmem x hx
    rw [hlocks]
    exact h.live y hy lock (hsame ▸ hlock) (Int.lt_of_le_of_lt hclock hlive)
  · intro x hx hbusyx
    obtain ⟨y, hy, hsame, hbusyy⟩ := hmem x hx
    rw [hsame]
    exact h.holds y hy (hbusyy hbusyx)
  · intro x hx task hphase
    rcases List.mem_or_eq_of_mem_set hx with hold | rfl
    · exact h.inside x hold task hphase
    · rw [hheld]
      exact hinside task hphase
  · intro j k x x' lock lock' hj hk hbusyx hbusyx' hx hx' hname
    obtain ⟨y, hy, hsame, hbusyy⟩ := hback j x hj
    obtain ⟨y', hy', hsame', hbusyy'⟩ := hback k x' hk
    exact h.alone j k y y' lock lock' hy hy' (hbusyy hbusyx) (hbusyy' hbusyx') (hsame ▸ hx)
      (hsame' ▸ hx') hname

theorem Exclusive.acquired (h : Exclusive w ls) {name : LockName}
    (hfree : w.liveLock? name = none)
    (hwithin : ∀ x ∈ ls, ∀ lock, x.held = some lock → busy x = true → lock.name = name →
      w.clock < lock.expiresAt) (pending : List (Nat × String)) :
    Exclusive { w with
        locks := ⟨name, w.nextToken, w.clock + lockTtl⟩ :: w.locks.filter fun x => x.name != name
        nextToken := w.nextToken + 1 }
      (ls.set i ⟨pending, some ⟨name, w.nextToken, w.clock + lockTtl⟩, .admitted⟩) := by
  have hdead (lock : Lock) (hmem : lock ∈ w.locks) (hname : lock.name = name) :
      ¬ w.clock < lock.expiresAt := by
    intro hlive
    have hsome := liveLock_isSome hmem hlive
    rw [hname, hfree] at hsome
    cases hsome
  have hidle (x : Execution) (hx : x ∈ ls) (lock : Lock) (hlock : x.held = some lock)
      (hbusy : busy x = true) : lock.name ≠ name := by
    intro hname
    have hlive := hwithin x hx lock hlock hbusy hname
    exact hdead lock (h.live x hx lock hlock hlive) hname hlive
  refine ⟨?_, ?_, ?_, ?_, ?_, ?_, ?_⟩
  · simp only [List.map_cons, List.nodup_cons, List.mem_map, List.mem_filter]
    refine ⟨?_, h.names.sublist (List.filter_sublist.map _)⟩
    rintro ⟨lock, ⟨-, hne⟩, hname⟩
    simp [hname] at hne
  · intro x hx lock hlock
    rcases List.mem_or_eq_of_mem_set hx with hold | rfl
    · exact Nat.lt_succ_of_lt (h.fresh x hold lock hlock)
    · obtain rfl := Option.some.inj hlock
      exact Nat.lt_succ_self _
  · intro j k x x' lock hj hk hx hx'
    rcases getElem?_set_cases hj with ⟨rfl, rfl⟩ | ⟨hne, hold⟩
    · rcases getElem?_set_cases hk with ⟨rfl, rfl⟩ | ⟨hne', hold'⟩
      · rfl
      · obtain rfl := Option.some.inj hx
        exact absurd (h.fresh x' (List.mem_of_getElem? hold') _ hx') (Nat.lt_irrefl _)
    · rcases getElem?_set_cases hk with ⟨rfl, rfl⟩ | ⟨hne', hold'⟩
      · obtain rfl := Option.some.inj hx'
        exact absurd (h.fresh x (List.mem_of_getElem? hold) _ hx) (Nat.lt_irrefl _)
      · exact h.distinct j k x x' lock hold hold' hx hx'
  · intro x hx lock hlock hlive
    rcases List.mem_or_eq_of_mem_set hx with hold | rfl
    · have hin := h.live x hold lock hlock hlive
      refine List.mem_cons_of_mem _ (List.mem_filter.mpr ⟨hin, ?_⟩)
      have hne : lock.name ≠ name := fun hname => hdead lock hin hname hlive
      simpa using hne
    · obtain rfl := Option.some.inj hlock
      exact List.mem_cons_self
  · intro x hx hbusy
    rcases List.mem_or_eq_of_mem_set hx with hold | rfl
    · exact h.holds x hold hbusy
    · exact ⟨_, rfl⟩
  · intro x hx task hphase
    rcases List.mem_or_eq_of_mem_set hx with hold | rfl
    · exact h.inside x hold task hphase
    · cases hphase
  · intro j k x x' lock lock' hj hk hbusy hbusy' hx hx' hname
    rcases getElem?_set_cases hj with ⟨rfl, rfl⟩ | ⟨hne, hold⟩
    · rcases getElem?_set_cases hk with ⟨rfl, rfl⟩ | ⟨hne', hold'⟩
      · rfl
      · obtain rfl := Option.some.inj hx
        exact absurd hname.symm (hidle x' (List.mem_of_getElem? hold') lock' hx' hbusy')
    · rcases getElem?_set_cases hk with ⟨rfl, rfl⟩ | ⟨hne', hold'⟩
      · obtain rfl := Option.some.inj hx'
        exact absurd hname (hidle x (List.mem_of_getElem? hold) lock hx hbusy)
      · exact h.alone j k x x' lock lock' hold hold' hbusy hbusy' hx hx' hname

theorem Exclusive.released (h : Exclusive w ls) (hi : ls[i]? = some l) {lock : Lock}
    (hheld : l.held = some lock) (hphase : l.phase = .leaving)
    (hwithin : w.clock < lock.expiresAt) :
    Exclusive { w with locks := w.locks.filter fun x => x.name != lock.name }
      (ls.set i { l with held := none }) := by
  have hmine := h.live l (List.mem_of_getElem? hi) lock hheld hwithin
  refine ⟨h.names.sublist (List.filter_sublist.map _), ?_, ?_, ?_, ?_, ?_, ?_⟩
  · intro x hx lock' hlock'
    rcases List.mem_or_eq_of_mem_set hx with hold | rfl
    · exact h.fresh x hold lock' hlock'
    · cases hlock'
  · intro j k x x' lock' hj hk hx hx'
    rcases getElem?_set_cases hj with ⟨rfl, rfl⟩ | ⟨-, hold⟩
    · cases hx
    · rcases getElem?_set_cases hk with ⟨rfl, rfl⟩ | ⟨-, hold'⟩
      · cases hx'
      · exact h.distinct j k x x' lock' hold hold' hx hx'
  · intro x hx lock' hlock' hlive
    obtain ⟨j, hj⟩ := List.mem_iff_getElem?.mp hx
    rcases getElem?_set_cases hj with ⟨rfl, rfl⟩ | ⟨hne, hold⟩
    · cases hlock'
    · have hin := h.live x (List.mem_of_getElem? hold) lock' hlock' hlive
      refine List.mem_filter.mpr ⟨hin, ?_⟩
      -- another lock of that name would be the same one, in other hands
      have hname : lock'.name ≠ lock.name := by
        intro hname
        have hsame : lock' = lock := List.inj_on_of_nodup_map h.names hin hmine hname
        exact hne (h.distinct j i x l lock hold hi (hsame ▸ hlock') hheld)
      simpa using hname
  · intro x hx hbusy
    rcases List.mem_or_eq_of_mem_set hx with hold | rfl
    · exact h.holds x hold hbusy
    · simp [busy, hphase] at hbusy
  · intro x hx task hinside
    rcases List.mem_or_eq_of_mem_set hx with hold | rfl
    · exact h.inside x hold task hinside
    · rw [show ({ l with held := none } : Execution).phase = l.phase from rfl, hphase] at hinside
      cases hinside
  · intro j k x x' lock' lock'' hj hk hbusy hbusy' hx hx' hname
    rcases getElem?_set_cases hj with ⟨rfl, rfl⟩ | ⟨-, hold⟩
    · cases hx
    · rcases getElem?_set_cases hk with ⟨rfl, rfl⟩ | ⟨-, hold'⟩
      · cases hx'
      · exact h.alone j k x x' lock' lock'' hold hold' hbusy hbusy' hx hx' hname

/-- The requests about time and locks. -/
def aboutLocks : Request → Bool
  | .advance _ => true
  | .acquireLock _ => true
  | .startFunction _ => true
  | .endFunction _ => true
  | .deleteLock _ => true
  | _ => false

theorem serve_of_not_aboutLocks {r : Request} (hr : aboutLocks r = false) (w : World)
    (l : Execution) (c : Choice) :
    (serve registry w l r c).1.locks = w.locks ∧
      (serve registry w l r c).1.nextToken = w.nextToken ∧
      (serve registry w l r c).1.clock = w.clock ∧
      (serve registry w l r c).2.1.held = l.held ∧
      (serve registry w l r c).2.1.phase = l.phase := by
  cases r with
  | commitEnable t m row =>
      simp only [serve, World.commitEnable, World.putModule]
      split
      · simp
      · split <;> simp
  | commitDisable t m =>
      simp only [serve, World.commitDisable, World.putModule]
      split <;> simp
  | receiveUnit task =>
      simp only [serve]
      split <;> simp
  | receiveEvent slug capability =>
      simp only [serve]
      split <;> simp
  | activeTenant tenantId =>
      simp only [serve]
      split <;> simp
  | recordEvent tenantId =>
      simp only [serve]
      split <;> simp
  | recordAudit event =>
      simp only [serve]
      split <;> simp
  | advance elapsed => cases hr
  | acquireLock name => cases hr
  | startFunction task => cases hr
  | endFunction task => cases hr
  | deleteLock name => cases hr
  | _ => exact ⟨rfl, rfl, rfl, rfl, rfl⟩

theorem exclusive_step (r : Request) (c : Choice) (h : Exclusive w ls) (hi : ls[i]? = some l)
    (hallowed : allowed l r) (hwithin : withinLifetime w ls i r = true) :
    Exclusive (serve registry w l r c).1 (ls.set i (serve registry w l r c).2.1) := by
  have hinside := h.inside l (List.mem_of_getElem? hi)
  have hkeep {w' : World} {l' : Execution} (hlocks : w'.locks = w.locks)
      (htoken : w'.nextToken = w.nextToken) (hclock : w.clock ≤ w'.clock)
      (hheld : l'.held = l.held) (hphase : l'.phase = l.phase) :
      Exclusive w' (ls.set i l') :=
    h.moved hi hlocks htoken hclock hheld (by simp [busy, hphase])
      (fun task htask => hinside task (hphase ▸ htask))
  by_cases hr : aboutLocks r = false
  · obtain ⟨hlocks, htoken, hclock, hheld, hphase⟩ :=
      @serve_of_not_aboutLocks registry r hr w l c
    exact hkeep hlocks htoken (Int.le_of_eq hclock.symm) hheld hphase
  cases r with
  | advance elapsed =>
      refine hkeep rfl rfl ?_ rfl rfl
      show w.clock ≤ w.clock + elapsed
      exact Int.le_add_of_nonneg_right (Int.natCast_nonneg elapsed)
  | acquireLock name =>
      cases hlive : w.liveLock? name with
      | some lock =>
          simp only [serve, hlive]
          exact hkeep rfl rfl (Int.le_refl _) rfl rfl
      | none =>
          simp only [serve, hlive]
          refine h.acquired hlive ?_ l.pending
          intro x hx lock hlock hbusy hname
          have hall := List.all_eq_true.mp hwithin x hx
          simpa [hlock, hbusy, hname] using hall
  | startFunction task =>
      obtain ⟨-, hphase, lock, hheld, hname⟩ := hallowed
      refine h.moved hi rfl rfl (Int.le_refl _) rfl (fun _ => by simp [busy, hphase]) ?_
      intro task' htask
      obtain rfl : task = task' := by
        have : Phase.inside task = Phase.inside task' := htask
        simpa using this
      exact ⟨lock, hheld, hname⟩
  | endFunction task =>
      refine h.moved hi rfl rfl (Int.le_refl _) rfl ?_ ?_
      · intro hbusy
        cases hbusy
      · intro task' htask
        cases htask
  | deleteLock name =>
      obtain ⟨hphase, lock, hheld, rfl⟩ := hallowed
      have hlive : w.clock < lock.expiresAt := by
        simpa [withinLifetime, hi, hheld] using hwithin
      exact h.released hi hheld hphase hlive
  | _ => exact absurd rfl hr

/-- In every run in which no execution outlives its lock, at most one execution
of a task for a tenant is inside its function. -/
theorem no_overlap_within_lifetime (registry : List ModuleManifest) (tenants : List Tenant)
    (operations : List Operation) (schedule : List (Nat × Choice)) (pool : State)
    (halong : Along (Pool.step (serve registry))
      (StepMeets fun w ls i r => withinLifetime w ls i r = true)
      (start registry tenants operations) schedule)
    (hrun : run (Pool.step (serve registry)) (start registry tenants operations) schedule =
      some pool) :
    NoOverlap pool.locals := by
  have hidle {l : Execution} {j : Nat}
      (hj : (start registry tenants operations).locals[j]? = some l) : l = {} :=
    locals_start tenants operations (List.mem_of_getElem? hj)
  have hinit : Exclusive (start registry tenants operations).shared
      (start registry tenants operations).locals := by
    refine ⟨List.nodup_nil, ?_, ?_, ?_, ?_, ?_, ?_⟩
    · intro l hl lock hlock
      rw [locals_start tenants operations hl] at hlock
      cases hlock
    · intro i j l l' lock hi _ hlock _
      rw [hidle hi] at hlock
      cases hlock
    · intro l hl lock hlock _
      rw [locals_start tenants operations hl] at hlock
      cases hlock
    · intro l hl hbusy
      rw [locals_start tenants operations hl] at hbusy
      cases hbusy
    · intro l hl task hinside
      rw [locals_start tenants operations hl] at hinside
      cases hinside
    · intro i j l l' lock lock' hi _ hbusy
      rw [hidle hi] at hbusy
      cases hbusy
  exact (pool_invariant (G := Exclusive)
    (fun w ls i l r c hG hi hallowed hwithin => exclusive_step r c hG hi hallowed hwithin)
    (disciplined_start tenants operations) hinit halong hrun).noOverlap

/-- The daily digest of tenant 1, delivered twice. -/
def deliveredTwice : List Operation :=
  [.enableModule 0 1 "sample_digest",
    .runPeriodicFanout "sample_digest" "sample_digest.daily_digest",
    .periodicUnit dailyDigest, .periodicUnit dailyDigest, .passTime [30000000]]

/-- The unit task is published and its first delivery enters the function. -/
def firstInside : List (Nat × Choice) := enableAndPublish ++ steps 2 4

theorem no_overlap_second_skips :
    ∃ pool, run (Pool.step (serve modules)) (start modules [⟨1, "acme", true⟩] deliveredTwice)
        (firstInside ++ steps 3 3 ++ steps 2 3) = some pool ∧ NoOverlap pool.locals := by
  have hany : (run (Pool.step (serve modules)) (start modules [⟨1, "acme", true⟩] deliveredTwice)
      (firstInside ++ steps 3 3 ++ steps 2 3)).any (fun _ => true) = true := by
    decide +kernel
  obtain ⟨pool, hrun, -⟩ := (Option.any_eq_true _ _).mp hany
  exact ⟨pool, hrun, no_overlap_within_lifetime modules [⟨1, "acme", true⟩] deliveredTwice _ pool
    (by decide +kernel) hrun⟩

/-- The function takes longer than the lock lives: the second delivery takes the
lock and enters as well. -/
theorem slow_function_overlaps :
    ∃ pool, run (Pool.step (serve modules)) (start modules [⟨1, "acme", true⟩] deliveredTwice)
        (firstInside ++ steps 4 1 ++ steps 3 4) = some pool ∧ ¬ NoOverlap pool.locals := by
  have hany : (run (Pool.step (serve modules)) (start modules [⟨1, "acme", true⟩] deliveredTwice)
      (firstInside ++ steps 4 1 ++ steps 3 4)).any (fun pool =>
        (pool.locals[2]?.any fun l => l.phase == .inside dailyDigest) &&
          pool.locals[3]?.any fun l => l.phase == .inside dailyDigest) = true := by
    decide +kernel
  obtain ⟨pool, hrun, hboth⟩ := (Option.any_eq_true _ _).mp hany
  obtain ⟨hfirst, hsecond⟩ := (Bool.and_eq_true _ _).mp hboth
  obtain ⟨l, hl, hphase⟩ := (Option.any_eq_true _ _).mp hfirst
  obtain ⟨l', hl', hphase'⟩ := (Option.any_eq_true _ _).mp hsecond
  refine ⟨pool, hrun, fun hno => ?_⟩
  have hsame := hno dailyDigest 2 3 l l' hl hl' (by simpa using hphase) (by simpa using hphase')
  cases hsame

end Socle.PeriodicOverlap
