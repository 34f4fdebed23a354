import Socle.ConnectorTransactions

/-!
Lock release: calls of `acquire_lock`, `wait_for_lock` and `release_lock` whose commands
interleave, with the time that passes between the GET of a release and its DELETE.
-/

namespace Socle.LockRelease

open Socle.GuardedRuns
open Socle.Procedures
open Socle.ConnectorStore
open Socle.ConnectorService (ConnectorProc ask releaseLock waitForLock)

/-- A call of one of the three functions. -/
inductive LockCall where
  | acquireLock (name : LockName)
  | waitForLock (name : LockName) (attempts : Nat)
  | releaseLock (name : LockName) (token : Nat)
  deriving DecidableEq

/-- The commands of a call; an acquisition returns its token. -/
def LockCall.proc : LockCall → ConnectorProc (Option Nat)
  | .acquireLock name => ask (.acquireLock name)
  | .waitForLock name attempts => do return some (← ConnectorService.waitForLock name attempts)
  | .releaseLock name token => do
      ConnectorService.releaseLock name token
      return none

/-- A call, and its variable `current` from the GET to the DELETE of a release. -/
structure Caller where
  call : LockCall
  current : Option Nat := none
  deriving DecidableEq

/-- The release has found its token and has its DELETE to send. -/
def Caller.Deleting (l : Caller) (name : LockName) : Prop :=
  ∃ token, l.call = .releaseLock name token ∧ l.current = some token

instance decidableDeleting (l : Caller) (name : LockName) : Decidable (l.Deleting name) :=
  decidable_of_iff (∃ token ∈ l.current, l.call = .releaseLock name token)
    (exists_congr fun _ => and_comm)

/-- One command of a call; the time of the server is the environment's. -/
def serveCall : Serve ConnectorInterface (World Unit) Caller Choice
  | w, l, .lockHolder name, c =>
      let out := serve anyAnswer w {} (.lockHolder name) c
      (out.1, { l with current := out.2.2 }, out.2.2)
  | w, l, .deleteLock name, c =>
      let out := serve anyAnswer w {} (.deleteLock name) c
      (out.1, { l with current := none }, out.2.2)
  | w, l, r, c =>
      let out := serve anyAnswer w {} r c
      (out.1, l, out.2.2)

abbrev Pool :=
  Procedures.Pool ConnectorInterface TokenExchange.Failure (World Unit) Caller (Option Nat)

/-- The calls before any of them has sent a command. -/
def start (w : World Unit) (calls : List LockCall) : Pool where
  shared := w
  threads := calls.map fun call => (⟨call, none⟩, call.proc)

def deleted? : Request → Option LockName
  | .deleteLock name => some name
  | _ => none

def acquired? : Request → Option LockName
  | .acquireLock name => some name
  | _ => none

/-- A DELETE finds no lock of another token than that of its release. -/
def KeepsOthers (w : World Unit) (ls : List Caller) (i : Nat) (r : Request) (c : Choice) : Prop :=
  ∀ name ∈ deleted? r, ∀ l ∈ ls[i]?, ∀ lock ∈ w.liveLock? c.now name,
    l.call = .releaseLock name lock.token

/-- No lock is acquired while a release of it has its DELETE to send. -/
def NoneDeleting (w : World Unit) (ls : List Caller) (_ : Nat) (r : Request) (c : Choice) : Prop :=
  ∀ name ∈ acquired? r, w.liveLock? c.now name = none → ∀ l ∈ ls, ¬ l.Deleting name

instance decidableKeepsOthers (w : World Unit) (ls : List Caller) (i : Nat) (r : Request)
    (c : Choice) : Decidable (KeepsOthers w ls i r c) :=
  inferInstanceAs (Decidable (∀ name ∈ deleted? r, _))

instance decidableNoneDeleting (w : World Unit) (ls : List Caller) (i : Nat) (r : Request)
    (c : Choice) : Decidable (NoneDeleting w ls i r c) :=
  inferInstanceAs (Decidable (∀ name ∈ acquired? r, _))

/-- The commands of a call, and what a DELETE comes after. -/
def Sends (l : Caller) : Request → Prop
  | .acquireLock _ => True
  | .lockHolder name => ∃ token, l.call = .releaseLock name token
  | .deleteLock name => l.Deleting name
  | _ => False

theorem follows_releaseLock (name : LockName) (token : Nat) :
    Follows serveCall Sends (fun _ _ => True) ⟨.releaseLock name token, none⟩
      (LockCall.releaseLock name token).proc := by
  refine follows_request_bind.mpr ⟨⟨token, rfl⟩, fun w c => ?_⟩
  let current := (w.liveLock? c.now name).map (·.token)
  show Follows serveCall Sends (fun _ _ => True) ⟨.releaseLock name token, current⟩
    ((if current = some token then ask (.deleteLock name) else pure ()) >>= fun _ => pure none)
  by_cases hheld : current = some token
  · rw [if_pos hheld]
    exact ⟨⟨token, rfl, hheld⟩, fun _ _ => trivial⟩
  · rw [if_neg hheld]
    trivial

def Acquiring (r : Request) : Prop := ∃ name, r = .acquireLock name

theorem follows_of_acquiring {l : Caller} {p : ConnectorProc (Option Nat)}
    (hp : Makes (I := ConnectorInterface) Acquiring p) :
    Follows serveCall Sends (fun _ _ => True) l p := by
  refine (hp.follows serveCall l).weaken ?_
  rintro l _ ⟨name, rfl⟩
  trivial

theorem follows_proc (call : LockCall) :
    Follows serveCall Sends (fun _ _ => True) ⟨call, none⟩ call.proc := by
  cases call with
  | acquireLock name => exact follows_of_acquiring ⟨⟨name, rfl⟩, fun _ => trivial⟩
  | waitForLock name attempts =>
      exact follows_of_acquiring
        ((ConnectorTransactions.makes_waitForLock ⟨name, rfl⟩ attempts).bind fun _ => trivial)
  | releaseLock name token => exact follows_releaseLock name token

/-- Locks have names of their own, and one that a release has its DELETE to send for is
still its own. -/
structure OwnLocks (w : World Unit) (ls : List Caller) : Prop where
  names : (w.locks.map (·.name)).Nodup
  own : ∀ l ∈ ls, ∀ name token, l.call = .releaseLock name token → l.current = some token →
    ∀ lock ∈ w.locks, lock.name = name → lock.token = token

theorem mem_of_liveLock? {w : World Unit} {now : DirectoryStore.Instant} {name : LockName}
    {lock : Lock} (h : w.liveLock? now name = some lock) : lock ∈ w.locks ∧ lock.name = name := by
  refine ⟨List.mem_of_find?_eq_some h, ?_⟩
  have hfound := List.find?_some h
  rw [Bool.and_eq_true, beq_iff_eq] at hfound
  exact hfound.1

theorem OwnLocks.step {w : World Unit} {ls : List Caller} {i : Nat} {l : Caller} {r : Request}
    {c : Choice} (h : OwnLocks w ls) (hl : ls[i]? = some l) (hsends : Sends l r)
    (hnone : NoneDeleting w ls i r c) :
    OwnLocks (serveCall w l r c).1 (ls.set i (serveCall w l r c).2.1) := by
  have hmem : l ∈ ls := List.mem_of_getElem? hl
  cases r with
  | acquireLock name =>
      show OwnLocks (w.acquireLock c.now name c.uuid).1 (ls.set i l)
      rw [set_eq_self hl]
      unfold World.acquireLock
      cases hlive : w.liveLock? c.now name with
      | some lock => exact h
      | none =>
          refine ⟨?_, fun l' hl' name' token hcall hcurrent lock hlock hname => ?_⟩
          · refine List.nodup_cons.mpr ⟨fun hname => ?_, h.names.sublist
              (List.filter_sublist.map _)⟩
            obtain ⟨lock, hlock, hold⟩ := List.mem_map.mp hname
            exact bne_iff_ne.mp (List.mem_filter.mp hlock).2 hold
          · rcases List.mem_cons.mp hlock with rfl | hold
            · obtain rfl : name = name' := hname
              exact absurd ⟨token, hcall, hcurrent⟩ (hnone name rfl hlive l' hl')
            · exact h.own l' hl' name' token hcall hcurrent lock (List.mem_filter.mp hold).1 hname
  | lockHolder name =>
      refine ⟨h.names, fun l' hl' name' token hcall hcurrent lock hlock hname => ?_⟩
      rcases List.mem_or_eq_of_mem_set hl' with hold | rfl
      · exact h.own l' hold name' token hcall hcurrent lock hlock hname
      · obtain ⟨token', hcall'⟩ := hsends
        cases hcall'.symm.trans hcall
        obtain ⟨found, hfound, rfl⟩ := Option.map_eq_some_iff.mp hcurrent
        obtain ⟨hfoundMem, hfoundName⟩ := mem_of_liveLock? hfound
        rw [List.inj_on_of_nodup_map h.names hlock hfoundMem (hname.trans hfoundName.symm)]
  | deleteLock name =>
      refine ⟨h.names.sublist (List.filter_sublist.map _), ?_⟩
      intro l' hl' name' token hcall hcurrent lock hlock hname
      have hlock' := (List.mem_filter.mp hlock).1
      rcases List.mem_or_eq_of_mem_set hl' with hold | rfl
      · exact h.own l' hold name' token hcall hcurrent lock hlock' hname
      · cases hcurrent
  | _ => cases hsends

theorem OwnLocks.keepsOthers {w : World Unit} {ls : List Caller} {i : Nat} {l : Caller}
    {r : Request} (h : OwnLocks w ls) (hl : ls[i]? = some l) (hsends : Sends l r) (c : Choice) :
    KeepsOthers w ls i r c := by
  cases r with
  | deleteLock name =>
      rintro _ ⟨⟩ l' hl' lock hlock
      obtain rfl : l = l' := Option.some.inj (hl.symm.trans hl')
      obtain ⟨token, hcall, hcurrent⟩ := hsends
      obtain ⟨hmem, hname⟩ := mem_of_liveLock? hlock
      rw [h.own l (List.mem_of_getElem? hl) name token hcall hcurrent lock hmem hname]
      exact hcall
  | _ => rintro _ ⟨⟩

/-- While no lock is acquired between the GET and the DELETE of a release of it, no release
deletes a lock of another token. -/
theorem releases_keep_others {w : World Unit} (hnames : (w.locks.map (·.name)).Nodup)
    {calls : List LockCall} {schedule : List (Nat × Choice)} {pool : Pool}
    (hmeets : Along (Pool.step serveCall) (ActionMeets NoneDeleting) (start w calls) schedule)
    (hrun : run (Pool.step serveCall) (start w calls) schedule = some pool)
    (action : Nat × Choice) : ActionMeets KeepsOthers pool action := by
  have hfollows : ∀ thread ∈ (start w calls).threads,
      Follows serveCall Sends (fun _ _ => True) thread.1 thread.2 := by
    intro thread hthread
    obtain ⟨call, -, rfl⟩ := List.mem_map.mp hthread
    exact follows_proc call
  have hinit : OwnLocks (start w calls).shared (start w calls).locals := by
    refine ⟨hnames, fun l hl name token _ hcurrent => ?_⟩
    obtain ⟨thread, hthread, rfl⟩ := List.mem_map.mp hl
    obtain ⟨call, -, rfl⟩ := List.mem_map.mp hthread
    cases hcurrent
  have hown : OwnLocks pool.shared pool.locals := pool_invariant_action
    (fun _ _ _ _ _ _ h hl hsends hnone => h.step hl hsends hnone) hfollows hinit hmeets hrun
  unfold ActionMeets
  split
  · rename_i l r next hthread
    have hlocal : pool.locals[action.1]? = some l := by
      simp [Procedures.Pool.locals, hthread]
    have hsends : Sends l r := (pool_follows hfollows hrun _ (List.mem_of_getElem? hthread)).1
    exact hown.keepsOthers hlocal hsends action.2
  · trivial

def unlocked : World Unit where
  tables := ⟨⟨[], [], [], [], [], [], [], [], String.toLower⟩, [], [], []⟩
  locks := []
  queue := []
  endpoint := ()
  history := []

def holder : LockName := .refresh 1

/-- The holder of the lock takes it and releases it; another caller waits for it. -/
def handover : Pool :=
  start unlocked [.acquireLock holder, .releaseLock holder 1, .waitForLock holder 20]

/-- The release finds its token within the TTL, and its DELETE comes before the next
acquisition. -/
def releasedInTime : List (Nat × Choice) :=
  [(0, { now := 0, uuid := 1 }), (2, { now := 10000000, uuid := 2 }), (1, { now := 20000000 })]

theorem released_in_time : ∃ pool, run (Pool.step serveCall) handover releasedInTime = some pool ∧
    ActionMeets KeepsOthers pool (1, { now := 20000001 }) := by
  have hruns : (run (Pool.step serveCall) handover releasedInTime).isSome = true := by
    decide +kernel
  obtain ⟨pool, hrun⟩ := Option.isSome_iff_exists.mp hruns
  have hnames : (unlocked.locks.map (·.name)).Nodup := by decide
  have hmeets : Along (Pool.step serveCall) (ActionMeets NoneDeleting) handover releasedInTime := by
    decide +kernel
  exact ⟨pool, hrun, releases_keep_others hnames hmeets hrun _⟩

/-- The release finds its token just before the TTL runs out, and the next acquisition comes
before its DELETE. -/
def expiredBetween : List (Nat × Choice) :=
  [(0, { now := 0, uuid := 1 }), (1, { now := 29999999 }), (2, { now := 30000000, uuid := 2 })]

theorem deletes_the_next_lock :
    ∃ pool next, run (Pool.step serveCall) handover expiredBetween = some pool ∧
      pool.shared.liveLock? 30000001 holder = some ⟨holder, 2, 60000000⟩ ∧
      ¬ ActionMeets KeepsOthers pool (1, { now := 30000001 }) ∧
      pool.step serveCall (1, { now := 30000001 }) = some next ∧ next.shared.locks = [] :=
  ⟨_, _, rfl, by decide +kernel, by decide +kernel, rfl, by decide +kernel⟩

end Socle.LockRelease
