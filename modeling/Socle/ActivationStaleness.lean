import Mathlib.Tactic.Linarith
import Socle.ModuleScheduler

/-!
How old an activation state can be.  `is_module_enabled` runs in any number of
processes, each with its own cache and its own monotonic clock, beside activations
and deactivations anywhere.
-/

namespace Socle.ActivationStaleness

open Socle.GuardedRuns Socle.KeyedTable Socle.Procedures Socle.ModuleScheduler
open Socle.DirectoryStore (Instant)

/-! ### Runs -/

/-- The committed rows at an instant, with what the monotonic clock of each process
reads. -/
structure Moment where
  number : Nat
  clocks : Nat → Instant
  modules : List TenantModule

/-- The committed activation state. -/
def Moment.isEnabled (moment : Moment) (tenantId : Nat) (moduleName : String) : Bool :=
  (lookup TenantModule.key (tenantId, moduleName) moment.modules).any (·.enabled)

/-- The database and the caches, the clocks, and the instants at which something was
awaited. -/
structure Shared where
  world : World
  clocks : Nat → Instant
  past : List Moment := []

inductive Call where
  | isModuleEnabled (process tenantId : Nat) (moduleName : String)
  | enableModule (process tenantId : Nat) (moduleName : String)
  | disableModule (process tenantId : Nat) (moduleName : String)
  deriving DecidableEq, Repr

def Call.run (registry : List ModuleManifest) : Call → Act (Option Bool)
  | .isModuleEnabled process tenantId moduleName => do
      let enabled ← ModuleScheduler.isModuleEnabled process tenantId moduleName
      return some enabled
  | .enableModule process tenantId moduleName => do
      ModuleScheduler.enableModule registry process tenantId moduleName
      return none
  | .disableModule process tenantId moduleName => do
      ModuleScheduler.disableModule registry process tenantId moduleName
      return none

/-- A call, the numbers of the instants at which it began and did its last step, its
reading of the clock, and the state it found, in the cache or in the database. -/
structure Local where
  call : Call
  began : Nat := 0
  last : Nat := 0
  clock : Option Instant := none
  found : Option Bool := none
  fromDatabase : Bool := false

def Local.learn (l : Local) (number : Nat) : (r : Request) → scheduler.Answer r → Local
  | .cachedState _ _ _, cached =>
      { l with began := number, last := number, clock := some cached.2, found := cached.1 }
  | .selectModule _ _, row =>
      { l with last := number, found := some (row == some true), fromDatabase := true }
  | _, _ => { l with last := number }

/-- A process reads its own clock. -/
def clockedBy (clocks : Nat → Instant) (world : World) : Request → World
  | .cachedState process _ _ => { world with clock := clocks process }
  | _ => world

/-- What the environment decides at a request: how long each clock has run since the
last one, and how the request ends. -/
structure Choice where
  elapsed : Nat → Nat := fun _ => 0
  outcome : ModuleScheduler.Choice := {}

def serve (registry : List ModuleManifest) : Serve scheduler Shared Local Choice :=
  fun s l r choice =>
    let clocks : Nat → Instant := fun process => s.clocks process + choice.elapsed process
    let out := ModuleScheduler.serve registry (clockedBy clocks s.world r) {} r choice.outcome
    ({ world := out.1, clocks := clocks
       past := ⟨s.past.length, clocks, s.world.modules⟩ :: s.past },
      l.learn s.past.length r out.2.2, out.2.2)

abbrev CallPool := Pool scheduler Raised Shared Local (Option Bool)

/-- Processes that have just started, over any committed rows. -/
def launch (registry : List ModuleManifest) (clocks : Nat → Instant) (rows : List TenantModule)
    (calls : List Call) : CallPool :=
  ⟨{ world := { modules := rows }, clocks := clocks },
    calls.map fun call => ({ call := call }, call.run registry)⟩

abbrev callStep (registry : List ModuleManifest) : CallPool → Nat × Choice → Option CallPool :=
  Pool.step (serve registry)

/-- The value was the committed state at an instant during the call, or at one before
it, less than `_STATE_TTL_SECONDS` before the call read its clock. -/
def Justified (s : Shared) (process tenantId : Nat) (moduleName : String) (l : Local)
    (value : Bool) : Prop :=
  ∃ moment ∈ s.past, moment.isEnabled tenantId moduleName = value ∧
    (l.began ≤ moment.number ∧ moment.number ≤ l.last ∨
      moment.number < l.began ∧ ∃ now, l.clock = some now ∧ moment.clocks process ≤ now ∧
        now - moment.clocks process < stateTtl)

section Discipline

variable {registry : List ModuleManifest}

/-- A call reads and stores the state of its own key, and stores what it has read. -/
def allowed (l : Local) : Request → Prop
  | .cachedState process tenantId moduleName =>
      l.call = .isModuleEnabled process tenantId moduleName ∧ l.fromDatabase = false
  | .selectModule tenantId moduleName =>
      ∀ process tenantId' moduleName', l.call = .isModuleEnabled process tenantId' moduleName' →
        tenantId' = tenantId ∧ moduleName' = moduleName
  | .cacheState process tenantId moduleName enabled readAt =>
      l.call = .isModuleEnabled process tenantId moduleName ∧ l.fromDatabase = true ∧
        l.found = some enabled ∧ l.clock = some readAt
  | _ => True

/-- A call returns what it has found. -/
def Returns (l : Local) (out : Except Raised (Option Bool)) : Prop :=
  ∀ value, out = .ok (some value) → l.found = some value

theorem learn_call (l : Local) (number : Nat) (r : Request) (answer : scheduler.Answer r) :
    (l.learn number r answer).call = l.call := by
  cases r <;> rfl

theorem follows_activation {l : Local} {p : Act Unit} {process tenantId : Nat}
    {moduleName : String}
    (hcall : ∀ process tenantId moduleName, l.call ≠ .isModuleEnabled process tenantId moduleName)
    (hp : Makes (fun r => activates process tenantId moduleName r = true) p) :
    Follows (serve registry) allowed Returns l (do
      p
      return none) := by
  refine follows_bind (Q := fun _ _ => True) ?_ (fun _ _ _ => nofun) fun _ _ _ => nofun
  refine Follows.mono (fun _ _ _ => trivial) (Makes.follows_of (P := fun l =>
    ∀ process tenantId moduleName, l.call ≠ .isModuleEnabled process tenantId moduleName) ?_ hp
    hcall)
  intro l r hr hcall
  refine ⟨?_, fun s choice process tenantId moduleName => ?_⟩
  · cases r with
    | selectModule tenantId moduleName =>
        exact fun process tenantId' moduleName' hcall' => (hcall _ _ _ hcall').elim
    | cachedState process tenantId moduleName => cases hr
    | cacheState process tenantId moduleName enabled readAt => cases hr
    | _ => trivial
  · rw [serve, learn_call]
    exact hcall process tenantId moduleName

theorem follows_run (call : Call) :
    Follows (serve registry) allowed Returns { call := call } (call.run registry) := by
  cases call with
  | isModuleEnabled process tenantId moduleName =>
      refine ⟨⟨rfl, rfl⟩, fun s choice => ?_⟩
      obtain ⟨⟨cached, now⟩, hanswer⟩ : ∃ answer, (serve registry s
          { call := .isModuleEnabled process tenantId moduleName }
          (.cachedState process tenantId moduleName) choice).2.2 = answer := ⟨_, rfl⟩
      have hlearn : (serve registry s { call := .isModuleEnabled process tenantId moduleName }
          (.cachedState process tenantId moduleName) choice).2.1 =
            { call := .isModuleEnabled process tenantId moduleName
              began := s.past.length, last := s.past.length
              clock := some now, found := cached } := by
        show Local.learn _ _ (.cachedState process tenantId moduleName) (serve registry s
          { call := .isModuleEnabled process tenantId moduleName }
          (.cachedState process tenantId moduleName) choice).2.2 = _
        rw [hanswer]
        rfl
      rw [hanswer, hlearn]
      cases cached with
      | some enabled =>
          intro value hvalue
          cases hvalue
          rfl
      | none =>
          refine ⟨fun _ _ _ hcall => ?_, fun s row => ?_⟩
          · cases hcall
            exact ⟨rfl, rfl⟩
          · refine ⟨⟨rfl, rfl, rfl, rfl⟩, fun s choice value hvalue => ?_⟩
            cases hvalue
            rfl
  | enableModule process tenantId moduleName =>
      exact follows_activation (fun _ _ _ => nofun) (makes_enableModule ..)
  | disableModule process tenantId moduleName =>
      exact follows_activation (fun _ _ _ => nofun) (makes_disableModule ..)

end Discipline

section Invariant

variable {registry : List ModuleManifest} {s s' : Shared} {l l' : Local} {ls : List Local}
variable {process tenantId : Nat} {moduleName : String} {value : Bool}

/-- What a call knows, before it returns: the state it found was committed, and the
one it read in the database was so at an instant at which the clock of its process
was past its own reading. -/
structure Sound (s : Shared) (process tenantId : Nat) (moduleName : String) (l : Local) :
    Prop where
  began : l.began ≤ s.past.length
  last : l.last ≤ s.past.length
  clock : ∀ now, l.clock = some now → now ≤ s.clocks process
  found : ∀ value, l.found = some value → Justified s process tenantId moduleName l value
  stored : l.fromDatabase = true → ∀ value, l.found = some value → ∃ moment ∈ s.past,
    moment.isEnabled tenantId moduleName = value ∧
      ∀ now, l.clock = some now → now ≤ moment.clocks process

/-- The cached states were committed, at most `_STATE_TTL_SECONDS` before they expire. -/
structure Coherent (s : Shared) (ls : List Local) : Prop where
  numbers : ∀ moment ∈ s.past, moment.number < s.past.length
  clocks : ∀ moment ∈ s.past, ∀ process, moment.clocks process ≤ s.clocks process
  cache : ∀ process tenantId moduleName enabled expiry,
    ((process, tenantId, moduleName), enabled, expiry) ∈ s.world.cache → ∃ moment ∈ s.past,
      moment.isEnabled tenantId moduleName = enabled ∧
        expiry ≤ moment.clocks process + stateTtl
  sound : ∀ l ∈ ls, ∀ process tenantId moduleName,
    l.call = .isModuleEnabled process tenantId moduleName →
      Sound s process tenantId moduleName l

theorem Justified.mono (h : Justified s process tenantId moduleName l value)
    (hpast : ∀ moment ∈ s.past, moment ∈ s'.past) (hbegan : l'.began = l.began)
    (hclock : l'.clock = l.clock) (hlast : l.last ≤ l'.last) :
    Justified s' process tenantId moduleName l' value := by
  obtain ⟨moment, hmem, hvalue, hwhen⟩ := h
  refine ⟨moment, hpast moment hmem, hvalue, ?_⟩
  rw [hbegan, hclock]
  exact hwhen.imp_left fun hduring => ⟨hduring.1, hduring.2.trans hlast⟩

theorem Sound.mono (h : Sound s process tenantId moduleName l)
    (hpast : ∀ moment ∈ s.past, moment ∈ s'.past) (hlength : s.past.length ≤ s'.past.length)
    (hclocks : ∀ process, s.clocks process ≤ s'.clocks process) {last : Nat}
    (hlast : l.last ≤ last) (hlength' : last ≤ s'.past.length) :
    Sound s' process tenantId moduleName { l with last := last } := by
  refine ⟨h.began.trans hlength, hlength', fun now hnow => (h.clock now hnow).trans (hclocks _),
    fun value hvalue => (h.found value hvalue).mono hpast rfl rfl hlast, ?_⟩
  intro hdatabase value hvalue
  obtain ⟨moment, hmem, hmoment⟩ := h.stored hdatabase value hvalue
  exact ⟨moment, hpast moment hmem, hmoment⟩

theorem coherent_instant (h : Coherent s ls) (choice : Choice) :
    let clocks : Nat → Instant := fun process => s.clocks process + choice.elapsed process
    let past := ⟨s.past.length, clocks, s.world.modules⟩ :: s.past
    (∀ process, s.clocks process ≤ clocks process) ∧
      (∀ moment ∈ past, moment.number < past.length) ∧
      ∀ moment ∈ past, ∀ process, moment.clocks process ≤ clocks process := by
  intro clocks past
  have hclocks : ∀ process, s.clocks process ≤ clocks process := fun process =>
    le_add_of_nonneg_right (Int.natCast_nonneg _)
  refine ⟨hclocks, fun moment hmem => ?_, fun moment hmem process => ?_⟩
  · rcases List.mem_cons.mp hmem with rfl | hmem
    · exact Nat.lt_succ_self _
    · exact (h.numbers moment hmem).trans (Nat.lt_succ_self _)
  · rcases List.mem_cons.mp hmem with rfl | hmem
    · exact le_rfl
    · exact (h.clocks moment hmem process).trans (hclocks process)

theorem sound_cachedState (h : Coherent s ls)
    (hnew : l.fromDatabase = false) (choice : Choice) :
    Sound (serve registry s l (.cachedState process tenantId moduleName) choice).1 process tenantId
      moduleName (serve registry s l (.cachedState process tenantId moduleName) choice).2.1 := by
  obtain ⟨hclocks, -, hpast⟩ := coherent_instant h choice
  refine ⟨Nat.le_succ _, Nat.le_succ _, fun now hnow => ?_, fun value hvalue => ?_, fun hfrom => ?_⟩
  · cases hnow
    exact le_rfl
  · obtain ⟨⟨key, enabled, expiry⟩, hentry, rfl⟩ := Option.map_eq_some_iff.mp hvalue
    have hfound := List.find?_some hentry
    rw [Bool.and_eq_true, beq_iff_eq, decide_eq_true_eq] at hfound
    obtain ⟨rfl, hlive⟩ := hfound
    obtain ⟨moment, hmem, hmoment, hexpiry⟩ :=
      h.cache _ _ _ _ _ (List.mem_of_find?_eq_some hentry)
    refine ⟨moment, List.mem_cons_of_mem _ hmem, hmoment, .inr ⟨h.numbers moment hmem, _, rfl,
      hpast moment (List.mem_cons_of_mem _ hmem) process, ?_⟩⟩
    have hlt : s.clocks process + choice.elapsed process < moment.clocks process + stateTtl :=
      lt_of_lt_of_le hlive hexpiry
    exact Int.sub_left_lt_of_lt_add hlt
  · exact absurd hfrom (by simp [serve, Local.learn, hnew])

theorem sound_selectModule (h : Coherent s ls) (hsound : Sound s process tenantId moduleName l)
    (choice : Choice) :
    Sound (serve registry s l (.selectModule tenantId moduleName) choice).1 process tenantId
      moduleName (serve registry s l (.selectModule tenantId moduleName) choice).2.1 := by
  obtain ⟨hclocks, -, hpast⟩ := coherent_instant h choice
  have hread : ∀ value, some ((lookup TenantModule.key (tenantId, moduleName)
      s.world.modules).map (·.enabled) == some true) = some value →
        (lookup TenantModule.key (tenantId, moduleName) s.world.modules).any (·.enabled) =
          value := by
    intro value hvalue
    rw [← Option.some.inj hvalue, map_enabled_beq]
  have hclock : ∀ now, l.clock = some now → now ≤ s.clocks process + choice.elapsed process :=
    fun now hnow => (hsound.clock now hnow).trans (hclocks process)
  refine ⟨hsound.began.trans (Nat.le_succ _), Nat.le_succ _, hclock, fun value hvalue => ?_,
    fun _ value hvalue => ?_⟩
  · exact ⟨_, List.mem_cons_self, hread value hvalue, .inl ⟨hsound.began, le_rfl⟩⟩
  · exact ⟨_, List.mem_cons_self, hread value hvalue, hclock⟩

theorem coherent_step (s : Shared) (ls : List Local) (i : Nat) (l : Local) (r : Request)
    (choice : Choice) (h : Coherent s ls) (hl : ls[i]? = some l) (hallowed : allowed l r) :
    Coherent (serve registry s l r choice).1 (ls.set i (serve registry s l r choice).2.1) := by
  obtain ⟨hclocks, hnumbers, hpast⟩ := coherent_instant h choice
  have hold : ∀ moment ∈ s.past, moment ∈ (serve registry s l r choice).1.past :=
    fun moment hmem => List.mem_cons_of_mem _ hmem
  refine ⟨hnumbers, hpast, ?_, ?_⟩
  · intro process tenantId moduleName enabled expiry hentry
    rcases mem_cache_serve _ _ _ hentry with hin | ⟨process', tenantId', moduleName', enabled',
      readAt, rfl, heq⟩
    · have hin : ((process, tenantId, moduleName), enabled, expiry) ∈ s.world.cache := by
        cases r <;> exact hin
      obtain ⟨moment, hmem, hmoment⟩ := h.cache _ _ _ _ _ hin
      exact ⟨moment, hold moment hmem, hmoment⟩
    · cases heq
      obtain ⟨hcall, hdatabase, hfound, hclock⟩ := hallowed
      have hsound := h.sound l (List.mem_of_getElem? hl) _ _ _ hcall
      obtain ⟨moment, hmem, hvalue, hread⟩ := hsound.stored hdatabase _ hfound
      exact ⟨moment, hold moment hmem, hvalue, Int.add_le_add_right (hread _ hclock) _⟩
  · intro l' hmem process tenantId moduleName hcall
    rcases List.mem_or_eq_of_mem_set hmem with hin | rfl
    · have hsound := h.sound l' hin process tenantId moduleName hcall
      exact hsound.mono hold (Nat.le_succ _) hclocks le_rfl (hsound.last.trans (Nat.le_succ _))
    · have hcall' : l.call = .isModuleEnabled process tenantId moduleName := by
        rwa [serve, learn_call] at hcall
      have hsound := h.sound l (List.mem_of_getElem? hl) process tenantId moduleName hcall'
      cases r with
      | cachedState process' tenantId' moduleName' =>
          obtain ⟨hkey, hnew⟩ := hallowed
          cases hcall'.symm.trans hkey
          exact sound_cachedState h hnew choice
      | selectModule tenantId' moduleName' =>
          obtain ⟨rfl, rfl⟩ := hallowed process tenantId moduleName hcall'
          exact sound_selectModule h hsound choice
      | _ => exact hsound.mono hold (Nat.le_succ _) hclocks hsound.last (Nat.le_succ _)

end Invariant

/-- Over any interleaving of calls in any number of processes with activations and
deactivations anywhere, every state that `is_module_enabled` returns was committed at
an instant of the call, or less than ten seconds before it read its clock. -/
theorem returned_state_is_recent (registry : List ModuleManifest) (clocks : Nat → Instant)
    (rows : List TenantModule) (calls : List Call) (schedule : List (Nat × Choice))
    (pool : CallPool)
    (hrun : run (callStep registry) (launch registry clocks rows calls) schedule = some pool)
    (l : Local) (process tenantId : Nat) (moduleName : String) (value : Bool)
    (hthread : (l, Proc.ret (some value)) ∈ pool.threads)
    (hcall : l.call = .isModuleEnabled process tenantId moduleName) :
    Justified pool.shared process tenantId moduleName l value := by
  have hfollows : ∀ thread ∈ (launch registry clocks rows calls).threads,
      Follows (serve registry) allowed Returns thread.1 thread.2 := by
    intro thread hthread
    obtain ⟨call, -, rfl⟩ := List.mem_map.mp hthread
    exact follows_run call
  have hcoherent : Coherent pool.shared pool.locals := by
    refine pool_invariant_always coherent_step
      (fun thread hthread => (hfollows thread hthread).mono fun _ _ _ => trivial)
      ⟨nofun, nofun, nofun, fun l hl process tenantId moduleName _ => ?_⟩ hrun
    obtain ⟨thread, hthread, rfl⟩ := List.mem_map.mp hl
    obtain ⟨call, -, rfl⟩ := List.mem_map.mp hthread
    exact ⟨le_rfl, le_rfl, nofun, nofun, nofun⟩
  have hfound : l.found = some value :=
    pool_follows hfollows hrun _ hthread value rfl
  exact (hcoherent.sound l (List.mem_map.mpr ⟨_, hthread, rfl⟩) _ _ _ hcall).found value hfound

/-- Process 0 caches the state, process 1 disables the module, and five seconds later
process 0 asks again. -/
def staleCalls : List Call :=
  [.isModuleEnabled 0 1 "sample_digest", .disableModule 1 1 "sample_digest",
    .isModuleEnabled 0 1 "sample_digest"]

def staleSchedule : List (Nat × Choice) :=
  [(0, {}), (0, {}), (0, {}), (1, {}), (1, {}), (1, {}), (1, {}),
    (2, { elapsed := fun _ => 5000000 })]

/-- The disabled module is still answered enabled, from the cache. -/
theorem cached_state_is_recent : ∃ pool, run (callStep modules)
    (launch modules (fun _ => 0) [⟨1, "sample_digest", true⟩] staleCalls) staleSchedule =
      some pool ∧
    pool.shared.world.isEnabled 1 "sample_digest" = false ∧
    ∃ l, pool.threads[2]? = some (l, Proc.ret (some true)) ∧
      Justified pool.shared 0 1 "sample_digest" l true := by
  refine ⟨_, rfl, ?_⟩
  refine ⟨rfl, _, rfl, ?_⟩
  exact returned_state_is_recent modules (fun _ => 0) [⟨1, "sample_digest", true⟩] staleCalls
    staleSchedule _ rfl _ 0 1 "sample_digest" true (List.mem_of_getElem? (i := 2) rfl) rfl

end Socle.ActivationStaleness
