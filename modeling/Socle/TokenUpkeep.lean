import Socle.ConnectorJobs
import Socle.RefreshBeat

/-!
What the refresh beat is for: whatever was running before it, and wherever that was stopped, the
beat finds the locks free once their time to live has passed, and each active connection leaves it
with an access token that lasts until the next beat, or with the reason why it does not.
-/

namespace Socle.TokenUpkeep

open Socle.GuardedRuns
open Socle.KeyedTable (nodup_map_snoc)
open Socle.Procedures
open Socle.DirectoryStore (Instant Tenant)
open Socle.TokenExchange
open Socle.ConnectorStore
open Socle.ConnectorService
open Socle.ConnectorTransactions (directory_writeObjects)
open Socle.ConnectorJobs
open Socle.RefreshBeat

/-- Primary keys are distinct, and no lock was taken after this moment. -/
structure Recoverable {π : Type} (t : Instant) (w : World π) : Prop where
  connections : (w.tables.connections.map (·.id)).Nodup
  tenants : (w.tables.directory.tenants.map (·.id)).Nodup
  lapsing : ∀ lock ∈ w.locks, lock.expiresAt ≤ t + lockTtl

section Locks

variable {π : Type} {endpoint : TokenEndpoint π} {t now : Instant} {w : World π} {l : Session}
  {r : Request} {c : Choice}

theorem Recoverable.mono {later : Instant} (h : Recoverable t w) (hlater : t ≤ later) :
    Recoverable later w where
  connections := h.connections
  tenants := h.tenants
  lapsing lock hlock := (h.lapsing lock hlock).trans (Int.add_le_add_right hlater lockTtl)

theorem Recoverable.free (h : Recoverable t w) (hnow : t + lockTtl ≤ now) (name : LockName) :
    w.liveLock? now name = none := by
  refine List.find?_eq_none.mpr fun lock hlock hlive => ?_
  have hexpires := h.lapsing lock hlock
  simp only [Bool.and_eq_true, decide_eq_true_eq] at hlive
  exact absurd (hexpires.trans hnow) (not_le_of_gt hlive.2)

theorem tenants_apply {tables tables' : Tables} {change : Change}
    (happly : tables.apply change = .ok tables') :
    tables'.connections = tables.connections ∧
      tables'.directory.tenants = tables.directory.tenants := by
  cases change <;> simp only [Tables.apply] at happly <;> repeat' split at happly
  all_goals cases happly
  all_goals exact ⟨rfl, rfl⟩

theorem tenants_applyAll {tables tables' : Tables} {changes : List Change}
    (happly : tables.applyAll changes = .ok tables') :
    tables'.connections = tables.connections ∧
      tables'.directory.tenants = tables.directory.tenants := by
  induction changes generalizing tables with
  | nil =>
      cases happly
      exact ⟨rfl, rfl⟩
  | cons change rest ih =>
      simp only [Tables.applyAll] at happly
      split at happly
      · rename_i next hnext
        obtain ⟨hconnections, htenants⟩ := ih happly
        obtain ⟨hconnections', htenants'⟩ := tenants_apply hnext
        exact ⟨hconnections.trans hconnections', htenants.trans htenants'⟩
      · cases happly

theorem nodup_writeObject {tables tables' : Tables} {o : Object}
    (hnodup : (tables.connections.map (·.id)).Nodup)
    (hwrite : tables.writeObject o = .ok tables') :
    (tables'.connections.map (·.id)).Nodup := by
  simp only [Tables.writeObject] at hwrite
  split at hwrite
  · split at hwrite
    · cases hwrite
    · rename_i hnew
      cases hwrite
      refine nodup_map_snoc hnodup fun hold => ?_
      obtain ⟨row, hrow, hid⟩ := List.mem_map.mp hold
      exact hnew (List.any_eq_true.mpr ⟨row, hrow, beq_iff_eq.mpr hid⟩)
  · split at hwrite
    · cases hwrite
      exact hnodup
    · split at hwrite
      · cases hwrite
        rw [List.map_map]
        refine (List.map_congr_left fun row _ => ?_).symm ▸ hnodup
        simp only [Function.comp_apply]
        split <;> rfl
      · cases hwrite

theorem nodup_writeObjects {tables tables' : Tables} {objects : List Object}
    (hnodup : (tables.connections.map (·.id)).Nodup)
    (hwrite : tables.writeObjects objects = .ok tables') :
    (tables'.connections.map (·.id)).Nodup := by
  induction objects generalizing tables with
  | nil =>
      cases hwrite
      exact hnodup
  | cons o rest ih =>
      simp only [Tables.writeObjects] at hwrite
      split at hwrite
      · rename_i next hnext
        exact ih (nodup_writeObject hnodup hnext) hwrite
      · cases hwrite

theorem Recoverable.serve (h : Recoverable t w)
    (hnow : ∀ name, r = .acquireLock name → c.now ≤ t) :
    Recoverable t (serve endpoint w l r c).1 := by
  cases r with
  | commit =>
      simp only [ConnectorStore.serve, World.commit]
      split
      · rename_i tables hcommit
        simp only [Tables.commit] at hcommit
        split at hcommit
        · rename_i written hwrite
          obtain ⟨hconnections, htenants⟩ := tenants_applyAll hcommit
          refine ⟨?_, ?_, h.lapsing⟩
          · show (tables.connections.map _).Nodup
            rw [hconnections]
            exact nodup_writeObjects h.connections hwrite
          · show (tables.directory.tenants.map _).Nodup
            rw [htenants, directory_writeObjects hwrite]
            exact h.tenants
        · cases hcommit
      · exact h
  | commitControl =>
      simp only [ConnectorStore.serve, World.commitControl]
      split
      · rename_i tables hcommit
        obtain ⟨hconnections, htenants⟩ := tenants_applyAll hcommit
        refine ⟨?_, ?_, h.lapsing⟩
        · show (tables.connections.map _).Nodup
          rw [hconnections]
          exact h.connections
        · show (tables.directory.tenants.map _).Nodup
          rw [htenants]
          exact h.tenants
      · exact h
  | acquireLock name =>
      simp only [ConnectorStore.serve, World.acquireLock]
      split
      · exact h
      · refine ⟨h.connections, h.tenants, fun lock hlock => ?_⟩
        rcases List.mem_cons.mp hlock with rfl | hold
        · exact Int.add_le_add_right (hnow name rfl) lockTtl
        · exact h.lapsing lock (List.mem_filter.mp hold).1
  | deleteLock name =>
      exact ⟨h.connections, h.tenants, fun lock hlock => h.lapsing lock (List.mem_filter.mp hlock).1⟩
  | getConnection | findConnection | refreshObject | assign =>
      simp only [ConnectorStore.serve]
      repeat' split
      all_goals exact h
  | _ => exact ⟨h.connections, h.tenants, h.lapsing⟩

theorem Recoverable.run {α : Type}
    {pool pool' : Pool ConnectorInterface Failure (World π) Session α}
    {schedule : List (Nat × Choice)} (h : Recoverable t pool.shared)
    (hclock : ∀ action ∈ schedule, action.2.now ≤ t)
    (hrun : run (Pool.step (ConnectorStore.serve endpoint)) pool schedule = some pool') :
    Recoverable t pool'.shared := by
  have hmove (pool : Pool ConnectorInterface Failure (World π) Session α)
      (action : Nat × Choice) (next : Pool ConnectorInterface Failure (World π) Session α)
      (hpool : Recoverable t pool.shared) (hnow : action.2.now ≤ t)
      (hstep : Pool.step (ConnectorStore.serve endpoint) pool action = some next) :
      Recoverable t next.shared := by
    obtain ⟨l, r, k, -, rfl⟩ := Pool.step_eq_some hstep
    exact hpool.serve fun _ _ => hnow
  exact run_invariant hmove h (along_of_forall_mem (fun a ha _ => hclock a ha) pool) hrun

end Locks

/-- The connection needs nothing before the next beat, was given a new token, or says what went
wrong. -/
def Upkept (settings : Settings) (turn : Turn) (c : Connection) : Prop :=
  turn.checkedAt + refreshLead settings < c.attributes.accessTokenExpiresAt ∨
  (∃ bundle, RefreshBeat.attempts c.provider turn.answers maxAttempts 0 = .ok bundle ∧
    c.attributes.accessTokenExpiresAt = (turn.stamps 2).now + bundle.expiresIn * 1000000 ∧
    c.attributes.lastError = none) ∨
  ∃ e, RefreshBeat.attempts c.provider turn.answers maxAttempts 0 = .error e ∧
    c.attributes.lastError = some s!"Refresh échoué : {e.className}"

section Beat

variable {settings : Settings} {turns : Nat → Turn} {w : World Unit} {t : Instant}

theorem stored_attributes {turn : Turn} {bundle : TokenBundle} {a a' : Attributes}
    (h : stored settings turn bundle a = .ok a') :
    a'.accessTokenExpiresAt = (turn.stamps 2).now + bundle.expiresIn * 1000000 ∧
      a'.lastError = none := by
  simp only [stored, bind, Except.bind] at h
  split at h
  · cases h
  split at h
  · cases h
  split at h
  · cases h
  rename_i stamped hstamped
  simp only [stampExpiry, addSeconds] at hstamped
  split at hstamped
  · cases hstamped
    cases h
    exact ⟨rfl, rfl⟩
  · cases hstamped

theorem upkept_outcome {turn : Turn} {c : Connection} (hhandled : Expiring settings turn c →
      Handled settings turn c)
    (hactive : (outcome settings turn c).attributes.status = .active) :
    Upkept settings turn (outcome settings turn c) := by
  unfold outcome at hactive ⊢
  split at hactive
  · rename_i hexpiring
    rw [if_pos hexpiring]
    have hsurvives := hhandled hexpiring
    obtain ⟨⟨token, htoken⟩, ⟨pair, hpair⟩, -⟩ := hsurvives
    obtain ⟨a, ha⟩ := (handled_iff htoken).mpr (hhandled hexpiring)
    rw [ha] at hactive ⊢
    have hgranted : granted settings turn c =
        RefreshBeat.attempts c.provider turn.answers maxAttempts 0 := by
      rw [granted, htoken, hpair]
    unfold refreshed at ha
    rw [hgranted] at ha
    cases hattempts : RefreshBeat.attempts c.provider turn.answers maxAttempts 0 with
    | ok bundle =>
        rw [hattempts] at ha
        obtain ⟨hexpires, herror⟩ := stored_attributes ha
        exact .inr (.inl ⟨bundle, hattempts, hexpires, herror⟩)
    | error e =>
        rw [hattempts] at ha
        refine .inr (.inr ⟨e, hattempts, ?_⟩)
        cases e with
        | invalidGrant message =>
            cases ha
            cases hactive
        | _ =>
            simp only at ha
            split at ha
            · cases ha
              rfl
            · cases ha
  · rename_i hfresh
    rw [if_neg hfresh]
    exact .inl (lt_of_not_ge hfresh)

theorem upkept_beat (h : Recoverable t w) (hlater : ∀ id, t + lockTtl ≤ (turns id).lockedAt)
    (hhandled : ∀ c ∈ w.tables.connections, Due settings turns w c →
      Handled settings (turns c.id) c) :
    (∃ report, (beat settings turns w).2.2 = .ok report) ∧
      ∀ c ∈ (beat settings turns w).1.world.tables.connections, c.attributes.status = .active →
        c.tenantId ∈ w.tables.activeTenants.map (·.id) → Upkept settings (turns c.id) c := by
  have hidle : Idle turns w :=
    ⟨h.connections, h.tenants, fun c _ => h.free (hlater c.id) (.refresh c.id)⟩
  have hundisturbed := (refresh_beat_undisturbed_iff settings turns w hidle).mpr hhandled
  refine ⟨hundisturbed.returns, fun c hc hactive htenant => ?_⟩
  rw [hundisturbed.commits] at hc
  obtain ⟨row, hrow, rfl⟩ := List.mem_map.mp hc
  have hsame : (outcome settings (turns row.id) row).id = row.id ∧
      (outcome settings (turns row.id) row).tenantId = row.tenantId := by
    unfold outcome
    split
    · split <;> exact ⟨rfl, rfl⟩
    · exact ⟨rfl, rfl⟩
  by_cases hturn : row.attributes.status = .active ∧
      row.tenantId ∈ w.tables.activeTenants.map (·.id)
  · rw [if_pos hturn] at hactive ⊢
    rw [hsame.1]
    exact upkept_outcome (fun hexpiring => hhandled row hrow ⟨hturn.1, hturn.2, hexpiring⟩) hactive
  · rw [if_neg hturn] at hactive htenant
    exact (hturn ⟨hactive, htenant⟩).elim

/-- Wherever the jobs before it were stopped, a beat that comes once their locks have lapsed returns
and leaves each active connection of an active tenant in order. -/
theorem beat_after_crashes {python : WebhookDispatch.Python}
    {handlers : String → List (ConnectorProc Unit)} {jobs : List Job}
    {schedule : List (Nat × Choice)}
    {pool : Pool ConnectorInterface Failure (World Unit) Session Unit} (h : Recoverable t w)
    (hclock : ∀ action ∈ schedule, action.2.now ≤ t)
    (hrun : run (Pool.step (ConnectorStore.serve anyAnswer)) (start python settings handlers w jobs)
      schedule = some pool)
    (hlater : ∀ id, t + lockTtl ≤ (turns id).lockedAt)
    (hhandled : ∀ c ∈ pool.shared.tables.connections, Due settings turns pool.shared c →
      Handled settings (turns c.id) c) :
    (∃ report, (beat settings turns pool.shared).2.2 = .ok report) ∧
      ∀ c ∈ (beat settings turns pool.shared).1.world.tables.connections,
        c.attributes.status = .active →
        c.tenantId ∈ pool.shared.tables.activeTenants.map (·.id) →
        Upkept settings (turns c.id) c :=
  upkept_beat (Recoverable.run h hclock hrun) hlater hhandled

/-- A beat that comes when the locks taken at the start have lapsed. -/
def nextBeat : Turn :=
  { answered with
    checkedAt := 30000000
    lockedAt := 30000000
    heldAt := 30000000
    stamps := fun _ => ⟨30000000, 0⟩ }

/-- A worker stops with the lock of the first connection in hand, and the next beat refreshes
both. -/
theorem refreshed_after_crash :
    ∃ pool, run (Pool.step (ConnectorStore.serve anyAnswer))
        (start WebhookDispatch.secretPython configured (fun _ => []) twoTenants
          [.refreshExpiringTokens]) (List.replicate 5 (0, {})) = some pool ∧
      pool.shared.locks = [⟨.refresh 1, 0, 30000000⟩] ∧
      (∃ report, (beat configured (fun _ => nextBeat) pool.shared).2.2 = .ok report) ∧
      ∀ c ∈ (beat configured (fun _ => nextBeat) pool.shared).1.world.tables.connections,
        c.attributes.status = .active →
        c.tenantId ∈ pool.shared.tables.activeTenants.map (·.id) →
        Upkept configured nextBeat c := by
  have hends : (run (Pool.step (ConnectorStore.serve anyAnswer))
      (start WebhookDispatch.secretPython configured (fun _ => []) twoTenants
        [.refreshExpiringTokens]) (List.replicate 5 (0, {}))).map
      (fun pool => (pool.shared.tables.connections, pool.shared.locks)) =
        some (twoTenants.tables.connections, [⟨.refresh 1, 0, 30000000⟩]) := by
    decide +kernel
  obtain ⟨pool, hrun, hshared⟩ := Option.map_eq_some_iff.mp hends
  obtain ⟨hconnections, hlocks⟩ := Prod.mk.inj hshared
  refine ⟨pool, hrun, hlocks, beat_after_crashes (t := 0)
    ⟨by decide, by decide, fun lock hlock => (List.not_mem_nil hlock).elim⟩ (by decide) hrun
    (fun _ => by decide) fun c hc _ => ?_⟩
  have hbundle : RefreshBeat.attempts .microsoft nextBeat.answers maxAttempts 0 =
      .ok ⟨py "access-2", 3600, some (py "refresh-2"), []⟩ := by decide
  have htoken : configured.keys.decrypt (framedKeys.encrypt 2 (py "refresh")) =
      .ok (py "refresh") := by decide
  have hcreds : clientCredentials configured .microsoft = .ok ("client", "secret") := by decide
  have hhandled (x : Connection) (hprovider : x.provider = .microsoft)
      (hsealed : x.attributes.refreshTokenEnc = framedKeys.encrypt 2 (py "refresh")) :
      Handled configured nextBeat x := by
    rw [Handled, hprovider, hsealed, hbundle]
    exact ⟨⟨_, htoken⟩, ⟨_, hcreds⟩, by decide, by decide, by decide, by decide⟩
  rw [hconnections] at hc
  rcases List.mem_pair.mp hc with rfl | rfl
  · exact hhandled _ rfl rfl
  · exact hhandled _ rfl rfl

end Beat

end Socle.TokenUpkeep
