import Mathlib.Tactic.Linarith
import Socle.ModuleScheduler

/-!
What a deactivation leaves behind in its own process.  The calls on one module of one
tenant interleave at each of their awaits, and a state that is read from the database
is stored one await later.
-/

namespace Socle.ActivationCoherence

open Socle.GuardedRuns Socle.Procedures Socle.ModuleScheduler

/-! ### Runs -/

/-- The awaits of the calls, the start of an activation and the return of a
deactivation. -/
inductive Request where
  | starts
  | returns
  | await (r : ModuleScheduler.Request)

@[reducible] def Answer : Request → Type
  | .starts => Unit
  | .returns => Unit
  | .await r => scheduler.Answer r

abbrev coherence : Interface := ⟨Request, Answer⟩

abbrev Act (α : Type) := Proc coherence Raised α

def send (r : ModuleScheduler.Request) : Act (scheduler.Answer r) :=
  request (I := coherence) (Request.await r)

inductive Call where
  | isEnabled
  | enable
  | disable
  deriving DecidableEq, Repr

/-- The calls of a process on a module of a tenant. -/
def Call.run (registry : List ModuleManifest) (process tenantId : Nat) (moduleName : String) :
    Call → Act (Option Bool)
  | .isEnabled => do
      let enabled ← (isModuleEnabled process tenantId moduleName).through send id
      return some enabled
  | .enable => do
      request (I := coherence) Request.starts
      (enableModule registry process tenantId moduleName).through send id
      return none
  | .disable => do
      (disableModule registry process tenantId moduleName).through send id
      request (I := coherence) Request.returns
      return none

/-- The database and the cache of the process; `quiet` says that a deactivation has
returned and that no activation has started since, `exposed` that the row has been
disabled and that no invalidation has followed. -/
structure Shared where
  world : World
  quiet : Bool := false
  exposed : Bool := false

/-- A deactivation has still to commit, or to invalidate what it has committed, or
only to return. -/
inductive Stage where
  | before
  | committed
  | settled
  deriving DecidableEq

/-- A deactivation: its stage.  A call of `is_module_enabled`: whether it started in a
quiet state, whether it has still to read the row, the state it has read and not
stored yet, and the state it found. -/
structure Local where
  call : Call
  stage : Stage := .before
  bound : Bool := false
  reading : Bool := false
  holding : Option Bool := none
  found : Option Bool := none
  deriving DecidableEq

def Local.learn (l : Local) (quiet : Bool) :
    (r : ModuleScheduler.Request) → scheduler.Answer r → Local
  | .cachedState _ _ _, cached =>
      { l with bound := quiet, reading := cached.1.isNone, found := cached.1 }
  | .selectModule _ _, row =>
      if l.reading then
        { l with reading := false, holding := some (row == some true)
                 found := some (row == some true) }
      else if l.call = .disable ∧ row ≠ some true then { l with stage := .settled }
      else l
  | .cacheState _ _ _ _ _, _ => { l with holding := none }
  | .commitDisable _ _, committed => if committed then { l with stage := .committed } else l
  | .invalidate _ _ _, _ => if l.stage = .committed then { l with stage := .settled } else l
  | _, _ => l

/-- A commit that disables the row exposes what the cache says; an invalidation clears
it. -/
def expose (exposed : Bool) (w w' : World) : ModuleScheduler.Request → Bool
  | .commitDisable tenantId moduleName =>
      exposed || (w.isEnabled tenantId moduleName && !w'.isEnabled tenantId moduleName)
  | .invalidate _ _ _ => false
  | _ => exposed

/-- What the environment decides at a request: the time since the last one, and how
the request ends. -/
structure Choice where
  elapsed : Nat := 0
  outcome : ModuleScheduler.Choice := {}

/-- The world at the next request. -/
def World.later (w : World) (elapsed : Nat) : World := { w with clock := w.clock + elapsed }

def serve (registry : List ModuleManifest) : Serve coherence Shared Local Choice :=
  fun s l r choice =>
    match r with
    | .starts => ({ s with quiet := false }, l, ())
    | .returns => ({ s with quiet := true }, { l with stage := .before }, ())
    | .await r =>
        let out := ModuleScheduler.serve registry (World.later s.world choice.elapsed) {} r
          choice.outcome
        ({ s with world := out.1, exposed := expose s.exposed s.world out.1 r },
          l.learn s.quiet r out.2.2, out.2.2)

abbrev CallPool := Pool coherence Raised Shared Local (Option Bool)

/-- A process that has just started, over any committed rows. -/
def launch (registry : List ModuleManifest) (process tenantId : Nat) (moduleName : String)
    (rows : List TenantModule) (calls : List Call) : CallPool :=
  ⟨{ world := { modules := rows } },
    calls.map fun call => ({ call }, call.run registry process tenantId moduleName)⟩

abbrev callStep (registry : List ModuleManifest) : CallPool → Nat × Choice → Option CallPool :=
  Pool.step (serve registry)

/-- An entry of the cache that has not expired says that the module is enabled. -/
def cachedEnabled (process tenantId : Nat) (moduleName : String) (w : World) : Bool :=
  w.cache.any fun entry =>
    entry.1 == (process, tenantId, moduleName) && entry.2.1 && decide (w.clock < entry.2.2)

/-- The calls that must not overlap: a call that has read the row as enabled does not
store that after the invalidation of a deactivation that has committed since; a
deactivation does not find the row disabled by another one that has still to
invalidate; and an activation writes its row neither between the commit of a
deactivation and its return, nor in a quiet state, nor while a call that started in
one has still to read the row. -/
def apart (tenantId : Nat) (moduleName : String) (s : Shared) (ls : List Local) (i : Nat)
    (r : Request) (choice : Choice) : Prop :=
  match r with
  | .await (.cacheState _ _ _ _ _) => ∀ l ∈ ls[i]?, l.holding = some true →
      s.world.isEnabled tenantId moduleName = true ∨ s.exposed = true
  | .await (.selectModule _ _) => ∀ l ∈ ls[i]?, l.call = .disable →
      s.world.isEnabled tenantId moduleName = false → s.exposed = false
  | .await (.commitEnable _ _ row) => row ≠ some true → choice.outcome.commit.applied = true →
      s.quiet = false ∧ ∀ l ∈ ls, l.stage = .before ∧ (l.bound = true → l.reading = false)
  | _ => True

instance (tenantId : Nat) (moduleName : String) (s : Shared) (ls : List Local) (i : Nat)
    (r : Request) (choice : Choice) : Decidable (apart tenantId moduleName s ls i r choice) := by
  unfold apart
  split <;> infer_instance

section Discipline

variable {registry : List ModuleManifest} {process tenantId : Nat} {moduleName : String}

/-- A call of `is_module_enabled` reads the state of its key and stores what it has
read; a deactivation commits and invalidates its key before it returns, or has found
the row disabled. -/
def allowed (process tenantId : Nat) (moduleName : String) (l : Local) : Request → Prop
  | .returns => l.stage = .settled
  | .starts => True
  | .await (.cachedState process' tenantId' moduleName') =>
      (process', tenantId', moduleName') = (process, tenantId, moduleName)
  | .await (.selectModule tenantId' moduleName') =>
      (tenantId', moduleName') = (tenantId, moduleName)
  | .await (.cacheState _ _ _ enabled _) => l.holding = some enabled
  | .await (.commitDisable tenantId' moduleName') =>
      (tenantId', moduleName') = (tenantId, moduleName)
  | .await (.invalidate process' tenantId' moduleName') =>
      (process', tenantId', moduleName') = (process, tenantId, moduleName)
  | .await r => activates process tenantId moduleName r = true

/-- A call returns what it has found. -/
def Returns (l : Local) (out : Except Raised (Option Bool)) : Prop :=
  ∀ value, out = .ok (some value) → l.found = some value

theorem follows_enable :
    Follows (serve registry) (allowed process tenantId moduleName) Returns { call := .enable }
      (Call.enable.run registry process tenantId moduleName) := by
  have hsend (r : ModuleScheduler.Request) (hr : activates process tenantId moduleName r = true) :
      Makes (fun r : Request => ∃ inner, r = .await inner ∧
        activates process tenantId moduleName inner = true) (send r) :=
    ⟨⟨r, rfl, hr⟩, fun _ => trivial⟩
  refine ⟨trivial, fun s choice => ?_⟩
  show Follows _ _ _ ({ call := .enable } : Local)
    ((enableModule registry process tenantId moduleName).through send id >>= fun _ => .ret none)
  refine follows_bind (Q := fun _ _ => True) ?_ (fun _ _ _ => nofun) fun _ _ _ => nofun
  refine Makes.follows_of (P := fun _ => True) ?_
    (Makes.through hsend (makes_enableModule process tenantId moduleName)) trivial
  rintro l _ ⟨r, rfl, hr⟩ -
  cases r with
  | selectModule => exact ⟨of_decide_eq_true (p := (_, _) = (_, _)) hr, fun _ _ => trivial⟩
  | invalidate => exact ⟨of_decide_eq_true (p := (_, _, _) = (_, _, _)) hr, fun _ _ => trivial⟩
  | commitDisable => exact ⟨of_decide_eq_true (p := (_, _) = (_, _)) hr, fun _ _ => trivial⟩
  | cachedState | cacheState => cases hr
  | _ => exact ⟨hr, fun _ _ => trivial⟩

theorem follows_disable :
    Follows (serve registry) (allowed process tenantId moduleName) Returns { call := .disable }
      (Call.disable.run registry process tenantId moduleName) := by
  refine follows_bind (Q := fun (l : Local) (out : Except Raised Unit) => ∀ u, out = .ok u →
    l.stage = Stage.settled) ?_ (fun l u hl => ⟨hl u rfl, fun _ _ => nofun⟩) fun _ _ _ => nofun
  unfold disableModule
  cases getModule registry moduleName with
  | none => exact fun _ => nofun
  | some manifest =>
  refine ⟨rfl, fun s choice => ?_⟩
  obtain ⟨row, hrow⟩ : ∃ row : Option Bool, (serve registry s { call := .disable }
      (.await (.selectModule tenantId moduleName)) choice).2 =
        (if row ≠ some true then { call := .disable, stage := .settled }
          else { call := .disable }, row) := by
    refine ⟨_, Prod.ext ?_ rfl⟩
    simp [serve, Local.learn]
  rw [hrow]
  rcases row with _ | _ | _
  · exact fun _ _ => rfl
  · exact fun _ _ => rfl
  rw [if_neg (not_not_intro rfl)]
  refine And.intro rfl fun s choice => ?_
  obtain ⟨audited, haudited⟩ : ∃ audited : Bool, (serve registry s { call := .disable }
      (.await (.recordAudit ⟨tenantId, "core.module.disabled", moduleName⟩)) choice).2 =
        ({ call := .disable }, audited) := ⟨_, Prod.ext rfl rfl⟩
  rw [haudited]
  cases audited with
  | false => exact fun _ => nofun
  | true =>
  refine And.intro rfl fun s choice => ?_
  obtain ⟨committed, hcommitted⟩ : ∃ committed : Bool, (serve registry s { call := .disable }
      (.await (.commitDisable tenantId moduleName)) choice).2 =
        (if committed then { call := .disable, stage := .committed } else { call := .disable },
          committed) := ⟨_, Prod.ext rfl rfl⟩
  rw [hcommitted]
  cases committed with
  | false => exact fun _ => nofun
  | true => exact And.intro rfl fun s choice => fun _ _ => rfl

theorem follows_isEnabled :
    Follows (serve registry) (allowed process tenantId moduleName) Returns { call := .isEnabled }
      (Call.isEnabled.run registry process tenantId moduleName) := by
  refine ⟨rfl, fun s choice => ?_⟩
  obtain ⟨⟨cached, now⟩, hanswer⟩ : ∃ answer, (serve registry s { call := .isEnabled }
      (.await (.cachedState process tenantId moduleName)) choice).2.2 = answer := ⟨_, rfl⟩
  have hlearn : (serve registry s { call := .isEnabled }
      (.await (.cachedState process tenantId moduleName)) choice).2.1 =
        { call := .isEnabled, bound := s.quiet, reading := cached.isNone, found := cached } := by
    show Local.learn { call := .isEnabled } s.quiet (.cachedState process tenantId moduleName)
      (serve registry s { call := .isEnabled }
        (.await (.cachedState process tenantId moduleName)) choice).2.2 = _
    rw [hanswer]
    rfl
  rw [hanswer, hlearn]
  cases cached with
  | some enabled =>
      intro value hvalue
      cases hvalue
      rfl
  | none =>
      refine ⟨rfl, fun s row => ⟨rfl, fun s choice value hvalue => ?_⟩⟩
      cases hvalue
      rfl

end Discipline

section Quiet

variable {registry : List ModuleManifest} {process tenantId : Nat} {moduleName : String}
variable {s : Shared} {ls : List Local} {i : Nat} {l l' : Local} {w w' : World}

/-- The row is disabled in a quiet state, from the commit of a deactivation to its
return, and while a call that started in a quiet state has still to read it; and once
nothing is exposed any more, the cache does not say otherwise. -/
structure Coherent (process tenantId : Nat) (moduleName : String) (s : Shared)
    (ls : List Local) : Prop where
  quiet : s.quiet = true → s.world.isEnabled tenantId moduleName = false ∧ s.exposed = false
  cached : s.world.isEnabled tenantId moduleName = false → s.exposed = false →
    cachedEnabled process tenantId moduleName s.world = false
  stage : ∀ l ∈ ls, l.stage ≠ .before → s.world.isEnabled tenantId moduleName = false
  settled : ∀ l ∈ ls, l.stage = .settled → s.exposed = false
  reading : ∀ l ∈ ls, l.bound = true → l.reading = true →
    s.world.isEnabled tenantId moduleName = false
  found : ∀ l ∈ ls, l.bound = true → l.found ≠ some true

theorem cachedEnabled_mono (hcache : ∀ entry ∈ w'.cache, entry.2.1 = true → entry ∈ w.cache)
    (hclock : w.clock ≤ w'.clock) (h : cachedEnabled process tenantId moduleName w = false) :
    cachedEnabled process tenantId moduleName w' = false := by
  refine List.any_eq_false.mpr fun entry hentry hlive => ?_
  simp only [Bool.and_eq_true, decide_eq_true_eq] at hlive
  obtain ⟨⟨hkey, henabled⟩, hexpiry⟩ := hlive
  refine List.any_eq_false.mp h entry (hcache entry hentry henabled) ?_
  simp only [Bool.and_eq_true, decide_eq_true_eq]
  exact ⟨⟨hkey, henabled⟩, hclock.trans_lt hexpiry⟩

theorem Coherent.keep (h : Coherent process tenantId moduleName s ls) {exposed : Bool}
    (hrow : s.quiet = true ∨
      (∃ l ∈ ls, l.stage ≠ .before ∨ (l.bound = true ∧ l.reading = true)) →
      s.world.isEnabled tenantId moduleName = false → w'.isEnabled tenantId moduleName = false)
    (hexposed : s.world.isEnabled tenantId moduleName = false → s.exposed = false →
      exposed = false)
    (hcached : w'.isEnabled tenantId moduleName = false → exposed = false →
      cachedEnabled process tenantId moduleName w' = false)
    (hstage : l'.stage ≠ .before → w'.isEnabled tenantId moduleName = false)
    (hsettled : l'.stage = .settled → exposed = false)
    (hreading : l'.bound = true → l'.reading = true → w'.isEnabled tenantId moduleName = false)
    (hfound : l'.bound = true → l'.found ≠ some true) :
    Coherent process tenantId moduleName { s with world := w', exposed := exposed }
      (ls.set i l') := by
  refine ⟨fun hquiet => ?_, hcached, fun l hl hlate => ?_, fun l hl hlast => ?_,
    fun l hl hbound hread => ?_, fun l hl hbound => ?_⟩
  · obtain ⟨hdisabled, hcleared⟩ := h.quiet hquiet
    exact ⟨hrow (.inl hquiet) hdisabled, hexposed hdisabled hcleared⟩
  · rcases List.mem_or_eq_of_mem_set hl with hin | rfl
    · exact hrow (.inr ⟨l, hin, .inl hlate⟩) (h.stage l hin hlate)
    · exact hstage hlate
  · rcases List.mem_or_eq_of_mem_set hl with hin | rfl
    · exact hexposed (h.stage l hin (by simp [hlast])) (h.settled l hin hlast)
    · exact hsettled hlast
  · rcases List.mem_or_eq_of_mem_set hl with hin | rfl
    · exact hrow (.inr ⟨l, hin, .inr ⟨hbound, hread⟩⟩) (h.reading l hin hbound hread)
    · exact hreading hbound hread
  · rcases List.mem_or_eq_of_mem_set hl with hin | rfl
    · exact h.found l hin hbound
    · exact hfound hbound

theorem Coherent.idle (h : Coherent process tenantId moduleName s ls) (hl : ls[i]? = some l)
    (hrow : w'.isEnabled tenantId moduleName = s.world.isEnabled tenantId moduleName)
    (hcache : ∀ entry ∈ w'.cache, entry ∈ s.world.cache) (hclock : s.world.clock ≤ w'.clock) :
    Coherent process tenantId moduleName { s with world := w' } (ls.set i l) := by
  have hmem := List.mem_of_getElem? hl
  refine h.keep (fun _ hdisabled => hrow.trans hdisabled) (fun _ => id) (fun hdisabled hcleared => ?_)
    (fun hlate => hrow.trans (h.stage l hmem hlate)) (h.settled l hmem)
    (fun hbound hread => hrow.trans (h.reading l hmem hbound hread)) (h.found l hmem)
  exact cachedEnabled_mono (fun entry hentry _ => hcache entry hentry) hclock
    (h.cached (hrow.symm.trans hdisabled) hcleared)

theorem clock_le_later (w : World) (elapsed : Nat) : w.clock ≤ (World.later w elapsed).clock :=
  le_add_of_nonneg_right (Int.natCast_nonneg _)

theorem coherent_cachedState (h : Coherent process tenantId moduleName s ls)
    (hl : ls[i]? = some l) (choice : Choice) :
    Coherent process tenantId moduleName
      (serve registry s l (.await (.cachedState process tenantId moduleName)) choice).1
      (ls.set i
        (serve registry s l (.await (.cachedState process tenantId moduleName)) choice).2.1) := by
  have hmem := List.mem_of_getElem? hl
  have hlater (hdisabled : s.world.isEnabled tenantId moduleName = false)
      (hcleared : s.exposed = false) : cachedEnabled process tenantId moduleName
        (World.later s.world choice.elapsed) = false :=
    cachedEnabled_mono (w := s.world) (fun _ hentry _ => hentry) (clock_le_later _ _)
      (h.cached hdisabled hcleared)
  refine h.keep (fun _ => id) (fun _ => id) hlater (h.stage l hmem) (h.settled l hmem)
    (fun hquiet _ => (h.quiet hquiet).1) fun hquiet hfound => ?_
  obtain ⟨hdisabled, hcleared⟩ := h.quiet hquiet
  obtain ⟨entry, hentry, henabled⟩ := Option.map_eq_some_iff.mp hfound
  have hlive := List.find?_some hentry
  rw [Bool.and_eq_true] at hlive
  refine List.any_eq_false.mp (hlater hdisabled hcleared) entry (List.mem_of_find?_eq_some hentry) ?_
  rw [hlive.1, hlive.2, henabled]
  rfl

theorem coherent_selectModule (h : Coherent process tenantId moduleName s ls)
    (hl : ls[i]? = some l) (choice : Choice)
    (hapart : apart tenantId moduleName s ls i (.await (.selectModule tenantId moduleName)) choice) :
    Coherent process tenantId moduleName
      (serve registry s l (.await (.selectModule tenantId moduleName)) choice).1
      (ls.set i
        (serve registry s l (.await (.selectModule tenantId moduleName)) choice).2.1) := by
  have hmem := List.mem_of_getElem? hl
  have hread : (serve registry s l (.await (.selectModule tenantId moduleName)) choice).2.1 =
      if l.reading then
        { l with reading := false
                 holding := some (s.world.isEnabled tenantId moduleName)
                 found := some (s.world.isEnabled tenantId moduleName) }
      else if l.call = .disable ∧ s.world.isEnabled tenantId moduleName = false then
        { l with stage := .settled }
      else l := by
    obtain ⟨row, hrow, henabled⟩ : ∃ row : Option Bool, (serve registry s l
        (.await (.selectModule tenantId moduleName)) choice).2.1 =
          l.learn s.quiet (.selectModule tenantId moduleName) row ∧
        (row == some true) = s.world.isEnabled tenantId moduleName :=
      ⟨_, rfl, map_enabled_beq _⟩
    have hfound : row ≠ some true ↔ s.world.isEnabled tenantId moduleName = false := by
      rw [← henabled, beq_eq_false_iff_ne]
    rw [hrow, Local.learn, henabled]
    simp only [hfound]
  have hcached : (World.later s.world choice.elapsed).isEnabled tenantId moduleName = false →
      s.exposed = false → cachedEnabled process tenantId moduleName
        (World.later s.world choice.elapsed) = false := fun hdisabled hcleared =>
    cachedEnabled_mono (w := s.world) (fun _ hentry _ => hentry) (clock_le_later _ _)
      (h.cached hdisabled hcleared)
  rw [hread]
  split
  · rename_i hreading
    refine h.keep (fun _ => id) (fun _ => id) hcached (h.stage l hmem) (h.settled l hmem)
      (fun _ => nofun) fun hbound => ?_
    rw [h.reading l hmem hbound hreading]
    exact nofun
  · split
    · rename_i hfound
      refine h.keep (fun _ => id) (fun _ => id) hcached (fun _ => hfound.2)
        (fun _ => hapart l hl hfound.1 hfound.2) (h.reading l hmem) (h.found l hmem)
    · exact h.idle hl rfl (fun _ hentry => hentry) (clock_le_later _ _)

theorem coherent_cacheState (h : Coherent process tenantId moduleName s ls) (hl : ls[i]? = some l)
    {process' tenantId' : Nat} {moduleName' : String} {enabled : Bool} {readAt : Int}
    (hholding : l.holding = some enabled) (choice : Choice)
    (hapart : apart tenantId moduleName s ls i
      (.await (.cacheState process' tenantId' moduleName' enabled readAt)) choice) :
    Coherent process tenantId moduleName
      (serve registry s l (.await (.cacheState process' tenantId' moduleName' enabled readAt))
        choice).1
      (ls.set i (serve registry s l
        (.await (.cacheState process' tenantId' moduleName' enabled readAt)) choice).2.1) := by
  have hmem := List.mem_of_getElem? hl
  refine h.keep (fun _ => id) (fun _ => id) (fun hdisabled hcleared => ?_) (h.stage l hmem)
    (h.settled l hmem) (h.reading l hmem) (h.found l hmem)
  refine cachedEnabled_mono (w := s.world) (fun entry hentry hvalue => ?_) (clock_le_later _ _)
    (h.cached hdisabled hcleared)
  rcases List.mem_cons.mp hentry with rfl | hold
  · have hdisabled : s.world.isEnabled tenantId moduleName = false := hdisabled
    rcases hapart l hl (hholding.trans (congrArg some hvalue)) with henabled | hexposed
    · rw [hdisabled] at henabled
      cases henabled
    · exact absurd (hcleared.symm.trans hexposed) nofun
  · exact (List.mem_filter.mp hold).1

theorem coherent_commitEnable (h : Coherent process tenantId moduleName s ls)
    (hl : ls[i]? = some l) {row : Option Bool} (choice : Choice)
    (hapart : apart tenantId moduleName s ls i
      (.await (.commitEnable tenantId moduleName row)) choice) :
    Coherent process tenantId moduleName
      (serve registry s l (.await (.commitEnable tenantId moduleName row)) choice).1
      (ls.set i
        (serve registry s l (.await (.commitEnable tenantId moduleName row)) choice).2.1) := by
  have hmem := List.mem_of_getElem? hl
  simp only [serve, ModuleScheduler.serve, ModuleScheduler.World.commitEnable]
  split
  · exact h.idle hl rfl (fun _ hentry => hentry) (clock_le_later _ _)
  rename_i hcommits
  by_cases hrow : row = some true
  · rw [if_pos hrow]
    exact h.idle hl rfl (fun _ hentry => hentry) (clock_le_later _ _)
  rw [if_neg hrow]
  obtain ⟨hquiet, hothers⟩ := hapart hrow (Bool.of_not_eq_false fun hlost => hcommits (.inr hlost))
  refine h.keep (fun hmatters => ?_) (fun _ => id) (fun hdisabled => ?_) (fun hlate => ?_)
    (h.settled l hmem) (fun hbound hread => ?_) (h.found l hmem)
  · rcases hmatters with hq | ⟨l', hl', hlate | ⟨hbound, hread⟩⟩
    · rw [hquiet] at hq
      cases hq
    · exact (hlate (hothers l' hl').1).elim
    · rw [(hothers l' hl').2 hbound] at hread
      cases hread
  · have henabled : ((World.later s.world choice.elapsed).putModule tenantId moduleName
        true).isEnabled tenantId moduleName = false := hdisabled
    rw [isEnabled_putModule, if_pos rfl] at henabled
    cases henabled
  · exact (hlate (hothers l hmem).1).elim
  · have hreading : l.reading = true := hread
    rw [(hothers l hmem).2 hbound] at hreading
    cases hreading

theorem coherent_commitDisable (h : Coherent process tenantId moduleName s ls)
    (hl : ls[i]? = some l) (choice : Choice) :
    Coherent process tenantId moduleName
      (serve registry s l (.await (.commitDisable tenantId moduleName)) choice).1
      (ls.set i
        (serve registry s l (.await (.commitDisable tenantId moduleName)) choice).2.1) := by
  have hmem := List.mem_of_getElem? hl
  have hcached (hdisabled : s.world.isEnabled tenantId moduleName = false)
      (hcleared : s.exposed = false) : cachedEnabled process tenantId moduleName
        (World.later s.world choice.elapsed) = false :=
    cachedEnabled_mono (w := s.world) (fun _ hentry _ => hentry) (clock_le_later _ _)
      (h.cached hdisabled hcleared)
  simp only [serve, ModuleScheduler.serve, ModuleScheduler.World.commitDisable, expose]
  split
  · have hdisabled : ((World.later s.world choice.elapsed).putModule tenantId moduleName
        false).isEnabled tenantId moduleName = false := by
      rw [isEnabled_putModule, if_pos rfl]
    have hexposed (henabled : s.world.isEnabled tenantId moduleName = false)
        (hcleared : s.exposed = false) : (s.exposed || (s.world.isEnabled tenantId moduleName &&
          !((World.later s.world choice.elapsed).putModule tenantId moduleName
            false).isEnabled tenantId moduleName)) = false := by
      rw [henabled, hcleared]
      rfl
    have hstale (hcleared : (s.exposed || (s.world.isEnabled tenantId moduleName &&
        !((World.later s.world choice.elapsed).putModule tenantId moduleName
          false).isEnabled tenantId moduleName)) = false) :
        cachedEnabled process tenantId moduleName (World.later s.world choice.elapsed) = false := by
      -- the row was disabled before, and the cache has not changed
      obtain ⟨hbefore, hturned⟩ := Bool.or_eq_false_iff.mp hcleared
      refine hcached ?_ hbefore
      rw [hdisabled, Bool.not_false, Bool.and_true] at hturned
      exact hturned
    show Coherent process tenantId moduleName _ (ls.set i
      (if choice.outcome.commit.reported = true then { l with stage := .committed } else l))
    split
    · exact h.keep (fun _ _ => hdisabled) hexposed (fun _ => hstale) (fun _ => hdisabled)
        (fun hlast => by cases hlast) (fun _ _ => hdisabled) (h.found l hmem)
    · exact h.keep (fun _ _ => hdisabled) hexposed (fun _ => hstale) (fun _ => hdisabled)
        (fun hlast => hexposed (h.stage l hmem (by simp [hlast])) (h.settled l hmem hlast))
        (fun _ _ => hdisabled) (h.found l hmem)
  · show Coherent process tenantId moduleName
      { s with
        world := World.later s.world choice.elapsed
        exposed := s.exposed || (s.world.isEnabled tenantId moduleName &&
          !s.world.isEnabled tenantId moduleName) } (ls.set i l)
    rw [Bool.and_not_self, Bool.or_false]
    exact h.idle hl rfl (fun _ hentry => hentry) (clock_le_later _ _)

theorem coherent_invalidate (h : Coherent process tenantId moduleName s ls)
    (hl : ls[i]? = some l) (choice : Choice) :
    Coherent process tenantId moduleName
      (serve registry s l (.await (.invalidate process tenantId moduleName)) choice).1
      (ls.set i
        (serve registry s l (.await (.invalidate process tenantId moduleName)) choice).2.1) := by
  have hmem := List.mem_of_getElem? hl
  have hempty : cachedEnabled process tenantId moduleName (serve registry s l
      (.await (.invalidate process tenantId moduleName)) choice).1.world = false := by
    refine List.any_eq_false.mpr fun entry hentry hlive => ?_
    simp only [Bool.and_eq_true, beq_iff_eq] at hlive
    have hother := (List.mem_filter.mp hentry).2
    rw [hlive.1.1, bne_self_eq_false] at hother
    cases hother
  have hlate : (serve registry s l (.await (.invalidate process tenantId moduleName))
      choice).2.1 = if l.stage = .committed then { l with stage := .settled } else l := rfl
  rw [hlate]
  split
  · rename_i hcommitted
    exact h.keep (fun _ => id) (fun _ _ => rfl) (fun _ _ => hempty)
      (fun _ => h.stage l hmem (by simp [hcommitted])) (fun _ => rfl) (h.reading l hmem)
      (h.found l hmem)
  · exact h.keep (fun _ => id) (fun _ _ => rfl) (fun _ _ => hempty) (h.stage l hmem)
      (fun _ => rfl) (h.reading l hmem) (h.found l hmem)

theorem coherent_recordAudit (h : Coherent process tenantId moduleName s ls)
    (hl : ls[i]? = some l) {event : AuditEvent} (choice : Choice) :
    Coherent process tenantId moduleName
      (serve registry s l (.await (.recordAudit event)) choice).1
      (ls.set i (serve registry s l (.await (.recordAudit event)) choice).2.1) := by
  simp only [serve, ModuleScheduler.serve]
  split
  · exact h.idle hl rfl (fun _ hentry => hentry) (clock_le_later _ _)
  · exact h.idle hl rfl (fun _ hentry => hentry) (clock_le_later _ _)

theorem coherent_step (s : Shared) (ls : List Local) (i : Nat) (l : Local) (r : Request)
    (choice : Choice) (h : Coherent process tenantId moduleName s ls) (hl : ls[i]? = some l)
    (hallowed : allowed process tenantId moduleName l r)
    (hapart : apart tenantId moduleName s ls i r choice) :
    Coherent process tenantId moduleName (serve registry s l r choice).1
      (ls.set i (serve registry s l r choice).2.1) := by
  have hmem := List.mem_of_getElem? hl
  cases r with
  | starts =>
      show Coherent process tenantId moduleName { s with quiet := false } (ls.set i l)
      rw [set_eq_self hl]
      exact ⟨nofun, h.cached, h.stage, h.settled, h.reading, h.found⟩
  | returns =>
      have hstage : l.stage ≠ .before := by simp [show l.stage = .settled from hallowed]
      refine ⟨fun _ => ⟨h.stage l hmem hstage, h.settled l hmem hallowed⟩, h.cached,
        fun l' hl' hlate => ?_, fun l' hl' hlast => ?_, fun l' hl' hbound hread => ?_,
        fun l' hl' hbound => ?_⟩
      · rcases List.mem_or_eq_of_mem_set hl' with hin | rfl
        · exact h.stage l' hin hlate
        · exact (hlate rfl).elim
      · rcases List.mem_or_eq_of_mem_set hl' with hin | rfl
        · exact h.settled l' hin hlast
        · cases hlast
      · rcases List.mem_or_eq_of_mem_set hl' with hin | rfl
        · exact h.reading l' hin hbound hread
        · exact h.reading l hmem hbound hread
      · rcases List.mem_or_eq_of_mem_set hl' with hin | rfl
        · exact h.found l' hin hbound
        · exact h.found l hmem hbound
  | await r =>
      cases r with
      | cachedState process' tenantId' moduleName' =>
          cases hallowed
          exact coherent_cachedState h hl choice
      | selectModule tenantId' moduleName' =>
          cases hallowed
          exact coherent_selectModule h hl choice hapart
      | cacheState process' tenantId' moduleName' enabled readAt =>
          exact coherent_cacheState h hl hallowed choice hapart
      | commitEnable tenantId' moduleName' row =>
          cases of_decide_eq_true (p := (_, _) = (_, _)) hallowed
          exact coherent_commitEnable h hl choice hapart
      | commitDisable tenantId' moduleName' =>
          cases hallowed
          exact coherent_commitDisable h hl choice
      | invalidate process' tenantId' moduleName' =>
          cases hallowed
          exact coherent_invalidate h hl choice
      | recordAudit event => exact coherent_recordAudit h hl choice
      | grantedCapabilities tenantId' =>
          exact h.idle hl rfl (fun _ hentry => hentry) (clock_le_later _ _)
      | _ => cases hallowed

end Quiet

/-- In every run whose calls keep apart, a call of `is_module_enabled` that starts
after a deactivation has returned, and before any later activation starts, returns
`False`. -/
theorem disabled_after_disable (registry : List ModuleManifest) (process tenantId : Nat)
    (moduleName : String) (rows : List TenantModule) (calls : List Call)
    (schedule : List (Nat × Choice)) (pool : CallPool)
    (hmeets : Along (callStep registry) (ActionMeets (apart tenantId moduleName))
      (launch registry process tenantId moduleName rows calls) schedule)
    (hrun : run (callStep registry) (launch registry process tenantId moduleName rows calls)
      schedule = some pool)
    (l : Local) (value : Bool) (hthread : (l, Proc.ret (some value)) ∈ pool.threads)
    (hbound : l.bound = true) : value = false := by
  have hfollows : ∀ thread ∈ (launch registry process tenantId moduleName rows calls).threads,
      Follows (serve registry) (allowed process tenantId moduleName) Returns thread.1 thread.2 := by
    intro thread hthread
    obtain ⟨call, -, rfl⟩ := List.mem_map.mp hthread
    cases call with
    | isEnabled => exact follows_isEnabled
    | enable => exact follows_enable
    | disable => exact follows_disable
  have hcoherent : Coherent process tenantId moduleName pool.shared pool.locals := by
    refine pool_invariant_action coherent_step
      (fun thread hthread => (hfollows thread hthread).mono fun _ _ _ => trivial) ?_ hmeets hrun
    have hlocal : ∀ l ∈ (launch registry process tenantId moduleName rows calls).locals,
        ∃ call, l = { call } := by
      intro l hl
      obtain ⟨thread, hthread, rfl⟩ := List.mem_map.mp hl
      obtain ⟨call, -, rfl⟩ := List.mem_map.mp hthread
      exact ⟨call, rfl⟩
    refine ⟨nofun, fun _ _ => rfl, fun l hl hlate => ?_, fun _ _ _ => rfl, fun l hl hbound => ?_,
      fun l hl hbound => ?_⟩
    · obtain ⟨call, rfl⟩ := hlocal l hl
      exact (hlate rfl).elim
    · obtain ⟨call, rfl⟩ := hlocal l hl
      cases hbound
    · obtain ⟨call, rfl⟩ := hlocal l hl
      cases hbound
  have hfound : l.found = some value := pool_follows hfollows hrun _ hthread value rfl
  have hdisabled := hcoherent.found l (List.mem_map.mpr ⟨_, hthread, rfl⟩) hbound
  cases value with
  | false => rfl
  | true => exact absurd hfound hdisabled

section Runs

/-- The rows of a tenant that has enabled the module. -/
def enabledRow : List TenantModule := [⟨1, "sample_digest", true⟩]

/-- The steps of these calls, one after the other. -/
def steps (order : List Nat) : List (Nat × Choice) := order.map fun i => (i, {})

/-- The state that a call has cached is gone once the module is disabled. -/
theorem disabled_then_asked : ∃ pool, run (callStep modules)
    (launch modules 0 1 "sample_digest" enabledRow [.isEnabled, .disable, .isEnabled])
    (steps [1, 0, 0, 0, 1, 1, 1, 1, 2, 2, 2]) = some pool ∧
      ({ call := .isEnabled, found := some true }, Proc.ret (some true)) ∈ pool.threads ∧
      ∀ l value, (l, Proc.ret (some value)) ∈ pool.threads → l.bound = true → value = false := by
  refine ⟨_, rfl, List.mem_cons_self, fun l value hthread hbound => ?_⟩
  refine disabled_after_disable modules 0 1 "sample_digest" enabledRow
    [.isEnabled, .disable, .isEnabled] (steps [1, 0, 0, 0, 1, 1, 1, 1, 2, 2, 2]) _ ?_ rfl l value
    hthread hbound
  decide +kernel

/-- A call that has read the row before the commit stores it after the
invalidation. -/
theorem stale_state_stored : ¬ ∀ (calls : List Call) (schedule : List (Nat × Choice))
    (pool : CallPool), run (callStep modules)
      (launch modules 0 1 "sample_digest" enabledRow calls) schedule = some pool →
        ∀ l value, (l, Proc.ret (some value)) ∈ pool.threads → l.bound = true →
          value = false := by
  intro h
  have hstale := h [.isEnabled, .disable, .isEnabled] (steps [0, 0, 1, 1, 1, 1, 1, 0, 2]) _ rfl
    { call := .isEnabled, bound := true, found := some true } true
    (List.mem_cons_of_mem _ (List.mem_cons_of_mem _ List.mem_cons_self)) rfl
  cases hstale

end Runs

end Socle.ActivationCoherence
