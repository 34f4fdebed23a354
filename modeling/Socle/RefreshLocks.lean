import Socle.RefreshLedger

/-!
The refresh lock.  Among the calls that hold it at most one exchanges, from a copy of
the row that was read under the lock or, in the beat, that no other refresh had
overtaken when the lock was taken.
-/

namespace Socle.RefreshLocks

open Socle.GuardedRuns
open Socle.Procedures
open Socle.TokenExchange
open Socle.ConnectorStore
open Socle.ConnectorService
open Socle.ConnectorTransactions
open Socle.RefreshLedger

/-- A thread with what its session does not say: whether it is the beat, which takes
the lock without reading the row again, the token of the lock it holds on the
connection, and whether its copy of the row is meant to be current. -/
structure Worker where
  session : Session := {}
  beat : Bool := false
  holding : Option Nat := none
  ready : Bool := false

/-- The call is done with the lock. -/
def Worker.done (x : Worker) (session : Session) : Worker :=
  { x with session := session, holding := none, ready := false }

def Worker.noted (connectionId : Nat) (x : Worker) (session : Session) :
    (r : Request) → Answer r → Worker
  | .acquireLock name, (token : Option Nat) =>
      if name = .refresh connectionId then
        { x with session := session, holding := token, ready := x.beat && token.isSome }
      else { x with session := session }
  | .refreshObject id, (found : Bool) =>
      if id = connectionId then
        if found = true then { x with session := session, ready := x.holding.isSome }
        else x.done session
      else { x with session := session }
  | .lockHolder name, (holder : Option Nat) =>
      if name = .refresh connectionId ∧ holder ≠ x.holding then x.done session
      else { x with session := session }
  | .deleteLock name, _ =>
      if name = .refresh connectionId then x.done session else { x with session := session }
  | _, _ => { x with session := session }

/-- The requests as they are served; what the threads hold is only noted. -/
def serveNoted (connectionId : Nat) : Serve ConnectorInterface (World Rotation) Worker Choice :=
  fun w x r c =>
    let out := serve (rotatingEndpoint connectionId) w x.session r c
    (out.1, x.noted connectionId out.2.1 r out.2.2, out.2.2)

/-- No lock is taken over from a call that still holds it, its TTL having run out; the
row is not read again under the lock between a successful exchange and its commit; and
the beat does not take the lock when a refresh was between its exchange and its commit
at its SELECT, or has succeeded since. -/
def keepsApart (connectionId : Nat) (w : World Rotation) (xs : List Worker) (i : Nat) :
    Request → Choice → Bool
  | .acquireLock name, c =>
      name != .refresh connectionId || (w.liveLock? c.now name).isSome ||
        ((w.locks.find? fun lock => lock.name == name).all (fun lock =>
          xs.all fun x => x.holding != some lock.token) &&
        xs[i]?.all fun x => !x.beat || (x.session.object? connectionId).all fun o =>
          currentSince connectionId w.history o.readMark)
  | .refreshObject id, _ => id != connectionId || !(ledgerOf connectionId w.history).outstanding
  | _, _ => true

/-- A call exchanges when its copy is meant to be current, it takes no lock twice, it
releases what it holds, and it does nothing else with its session meanwhile. -/
def careful (connectionId : Nat) (x : Worker) : Request → Prop
  | .exchange id _ => id = connectionId → x.ready = true
  | .acquireLock name => name = .refresh connectionId → x.holding = none
  | .deleteLock name => name = .refresh connectionId → x.holding.isSome = true
  | .commit => x.ready = false
  | .openSession _ => x.ready = false
  | .selectActiveConnections => x.ready = false
  | .getConnection _ => x.ready = false
  | .findConnection .. => x.ready = false
  | .addConnection .. => x.ready = false
  | _ => True

/-- The call holds no lock. -/
structure Idle (beat : Bool) (x : Worker) : Prop where
  beat : x.beat = beat
  holding : x.holding = none
  ready : x.ready = false

/-- The call holds the lock, its copy being current. -/
structure Holds (beat : Bool) (token : Nat) (x : Worker) : Prop where
  beat : x.beat = beat
  holding : x.holding = some token
  ready : x.ready = true

/-- The requests that leave the lock and the token of the connection alone. -/
def besides (connectionId : Nat) : Request → Prop
  | .exchange id _ => id ≠ connectionId
  | .acquireLock name => name ≠ .refresh connectionId
  | .deleteLock name => name ≠ .refresh connectionId
  | _ => True

/-- The requests that a refresh makes under the lock. -/
def underLock : Request → Prop
  | .exchange .. => True
  | .assign .. => True
  | .readObject _ => True
  | .addAuditEvent _ => True
  | _ => False

section Discipline

variable {settings : Settings} {connectionId : Nat} {beat : Bool} {x : Worker}

theorem idle_serve (x : Worker) (r : Request) (hr : besides connectionId r) (hx : Idle beat x) :
    careful connectionId x r ∧ ∀ w c, Idle beat (serveNoted connectionId w x r c).2.1 := by
  obtain ⟨hbeat, hholding, hready⟩ := hx
  cases r with
  | exchange id token => exact ⟨fun hid => absurd hid hr, fun w c => ⟨hbeat, hholding, hready⟩⟩
  | acquireLock name =>
      refine ⟨fun hname => absurd hname hr, fun w c => ?_⟩
      simp only [serveNoted, Worker.noted, if_neg hr]
      exact ⟨hbeat, hholding, hready⟩
  | deleteLock name =>
      refine ⟨fun hname => absurd hname hr, fun w c => ?_⟩
      simp only [serveNoted, Worker.noted, if_neg hr]
      exact ⟨hbeat, hholding, hready⟩
  | lockHolder name =>
      refine ⟨trivial, fun w c => ?_⟩
      simp only [serveNoted, Worker.noted]
      split
      · exact ⟨hbeat, rfl, rfl⟩
      · exact ⟨hbeat, hholding, hready⟩
  | refreshObject id =>
      refine ⟨trivial, fun w c => ?_⟩
      simp only [serveNoted, Worker.noted]
      split
      · split
        · exact ⟨hbeat, hholding, by simp [hholding]⟩
        · exact ⟨hbeat, rfl, rfl⟩
      · exact ⟨hbeat, hholding, hready⟩
  | commit => exact ⟨hready, fun w c => ⟨hbeat, hholding, hready⟩⟩
  | openSession => exact ⟨hready, fun w c => ⟨hbeat, hholding, hready⟩⟩
  | selectActiveConnections => exact ⟨hready, fun w c => ⟨hbeat, hholding, hready⟩⟩
  | getConnection => exact ⟨hready, fun w c => ⟨hbeat, hholding, hready⟩⟩
  | findConnection => exact ⟨hready, fun w c => ⟨hbeat, hholding, hready⟩⟩
  | addConnection => exact ⟨hready, fun w c => ⟨hbeat, hholding, hready⟩⟩
  | _ => exact ⟨trivial, fun w c => ⟨hbeat, hholding, hready⟩⟩

theorem follows_besides {α : Type} {p : ConnectorProc α} (hp : Makes (besides connectionId) p)
    (hx : Idle beat x) :
    Follows (serveNoted connectionId) (careful connectionId) (fun x _ => Idle beat x) x p :=
  Makes.follows_of idle_serve hp hx

theorem holds_serve {token : Nat} (x : Worker) (r : Request) (hr : underLock r)
    (hx : Holds beat token x) :
    careful connectionId x r ∧ ∀ w c, Holds beat token (serveNoted connectionId w x r c).2.1 := by
  obtain ⟨hbeat, hholding, hready⟩ := hx
  cases r with
  | exchange => exact ⟨fun _ => hready, fun w c => ⟨hbeat, hholding, hready⟩⟩
  | assign => exact ⟨trivial, fun w c => ⟨hbeat, hholding, hready⟩⟩
  | readObject => exact ⟨trivial, fun w c => ⟨hbeat, hholding, hready⟩⟩
  | addAuditEvent => exact ⟨trivial, fun w c => ⟨hbeat, hholding, hready⟩⟩
  | _ => exact hr.elim

theorem follows_underLock {α : Type} {token : Nat} {p : ConnectorProc α}
    (hp : Makes underLock p) (hx : Holds beat token x) :
    Follows (serveNoted connectionId) (careful connectionId) (fun x _ => Holds beat token x) x p :=
  Makes.follows_of holds_serve hp hx

theorem noted_lockHolder (w : World Rotation) (x : Worker) (c : Choice) :
    (serveNoted connectionId w x (.lockHolder (.refresh connectionId)) c).2.1 =
      if (w.liveLock? c.now (.refresh connectionId)).map (·.token) ≠ x.holding then
        x.done x.session
      else x := by
  simp only [serveNoted, Worker.noted, true_and]
  rfl

theorem follows_releaseLock {token : Nat} (hbeat : x.beat = beat)
    (hholding : x.holding = some token) :
    Follows (serveNoted connectionId) (careful connectionId) (fun x _ => Idle beat x) x
      (releaseLock (.refresh connectionId) token) := by
  refine follows_request_bind.mpr ⟨trivial, fun w c => ?_⟩
  have hanswer : (serveNoted connectionId w x (.lockHolder (.refresh connectionId)) c).2.2 =
    (w.liveLock? c.now (.refresh connectionId)).map (·.token) := rfl
  rw [noted_lockHolder, hanswer, hholding]
  by_cases hheld : (w.liveLock? c.now (.refresh connectionId)).map (·.token) = some token
  · rw [if_pos hheld, if_neg (not_not.mpr hheld)]
    refine ⟨fun _ => by rw [hholding]; rfl, fun w c => ?_⟩
    simp only [serveNoted, Worker.noted, if_true]
    exact ⟨hbeat, rfl, rfl⟩
  · rw [if_neg hheld, if_pos hheld]
    exact ⟨hbeat, rfl, rfl⟩

theorem noted_acquireLock (w : World Rotation) (x : Worker) (c : Choice) :
    (serveNoted connectionId w x (.acquireLock (.refresh connectionId)) c).2.1 =
      { x with
        holding := (w.acquireLock c.now (.refresh connectionId) c.uuid).2
        ready := x.beat &&
          (w.acquireLock c.now (.refresh connectionId) c.uuid).2.isSome } := by
  simp only [serveNoted, Worker.noted, if_true]
  rfl

theorem follows_waitForLock (n : Nat) (hx : Idle beat x) :
    Follows (serveNoted connectionId) (careful connectionId)
      (fun x out => x.beat = beat ∧ (∀ token, out = .ok token → x.holding = some token) ∧
        ∀ e, out = .error e → Idle beat x)
      x (waitForLock (.refresh connectionId) n) := by
  induction n generalizing x with
  | zero => exact ⟨hx.beat, by simp, fun _ _ => hx⟩
  | succ n ih =>
      refine follows_request_bind.mpr ⟨fun _ => hx.holding, fun w c => ?_⟩
      rw [noted_acquireLock]
      have hanswer : (serveNoted connectionId w x (.acquireLock (.refresh connectionId)) c).2.2 =
        (w.acquireLock c.now (.refresh connectionId) c.uuid).2 := rfl
      rw [hanswer]
      cases (w.acquireLock c.now (.refresh connectionId) c.uuid).2 with
      | none => exact ih ⟨hx.beat, rfl, by simp⟩
      | some token => exact ⟨hx.beat, by rintro _ ⟨⟩; rfl, by simp⟩

theorem follows_lockForRefresh (block : Bool) (hx : Idle (!block) x) :
    Follows (serveNoted connectionId) (careful connectionId)
      (fun x out => (∀ token, out = .ok (some token) → Holds (!block) token x) ∧
        (out = .ok none → Idle (!block) x) ∧ ∀ e, out = .error e → Idle (!block) x)
      x (lockForRefresh connectionId block) := by
  cases block with
  | false =>
      refine ⟨fun _ => hx.holding, fun w c => ?_⟩
      rw [noted_acquireLock]
      have hanswer : (serveNoted connectionId w x (.acquireLock (.refresh connectionId)) c).2.2 =
        (w.acquireLock c.now (.refresh connectionId) c.uuid).2 := rfl
      rw [hanswer]
      cases (w.acquireLock c.now (.refresh connectionId) c.uuid).2 with
      | none => exact ⟨by rintro _ ⟨⟩, fun _ => ⟨hx.beat, rfl, by simp⟩, by rintro _ ⟨⟩⟩
      | some token =>
          refine ⟨?_, by rintro ⟨⟩, by rintro _ ⟨⟩⟩
          rintro _ ⟨⟩
          exact ⟨hx.beat, rfl, by simp [hx.beat]⟩
  | true =>
      refine follows_bind (follows_waitForLock 20 hx) ?_
        fun x e h => ⟨by simp, by simp, fun _ _ => h.2.2 e rfl⟩
      rintro x token ⟨hbeat, hholding, -⟩
      have hholding := hholding token rfl
      refine follows_request_bind.mpr ⟨trivial, fun w c => ?_⟩
      cases hfound : ((serveNoted connectionId w x (.refreshObject connectionId) c).2.2 : Bool) with
      | false =>
          have hfound : ((serve (rotatingEndpoint connectionId) w x.session
            (.refreshObject connectionId) c).2.2 : Bool) = false := hfound
          simp only [serveNoted, Worker.noted, hfound, if_true]
          exact ⟨by simp, by simp, fun _ _ => ⟨hbeat, rfl, rfl⟩⟩
      | true =>
          have hfound : ((serve (rotatingEndpoint connectionId) w x.session
            (.refreshObject connectionId) c).2.2 : Bool) = true := hfound
          simp only [serveNoted, Worker.noted, hfound, if_true]
          refine follows_request_bind.mpr ⟨trivial, fun w' c' => ?_⟩
          split
          · refine ⟨?_, by rintro ⟨⟩, by rintro _ ⟨⟩⟩
            rintro _ ⟨⟩
            exact ⟨hbeat, hholding, by rw [hholding]; rfl⟩
          · refine follows_bind (follows_releaseLock hbeat hholding) ?_
              fun x e h => ⟨by simp, by simp, fun _ _ => h⟩
            exact fun x _ h => ⟨by simp, fun _ => h, by simp⟩

theorem besides_of_locking {id : Nat} (hid : id ≠ connectionId) (r : Request)
    (h : locking id r) : besides connectionId r := by
  have hname : LockName.refresh id ≠ .refresh connectionId := fun heq => hid (by simpa using heq)
  cases r with
  | acquireLock name => exact h ▸ hname
  | deleteLock name => exact h ▸ hname
  | lockHolder name => trivial
  | refreshObject id => trivial
  | expiring id lead => trivial
  | _ => exact h.elim

/-- What a refresh leaves when it returns, or when it fails in a way that the beat
catches. -/
def Over (beat : Bool) {α : Type} (x : Worker) (out : Except Failure α) : Prop :=
  (∀ a, out = .ok a → Idle beat x) ∧ ∀ e, out = .error e → e.transient = true → Idle beat x

theorem over_of_idle {α : Type} {out : Except Failure α} (h : Idle beat x) : Over beat x out :=
  ⟨fun _ _ => h, fun _ _ _ => h⟩

theorem follows_over {α : Type} {p : ConnectorProc α} (hp : Makes (besides connectionId) p)
    (hx : Idle beat x) :
    Follows (serveNoted connectionId) (careful connectionId) (Over beat) x p :=
  Follows.mono (fun _ _ => over_of_idle) (follows_besides hp hx)

theorem follows_readObject_bind {α : Type} {Q : Worker → Except Failure α → Prop} {id : Nat}
    {f : Connection → ConnectorProc α}
    (hf : ∀ connection, connection.id = id →
      Follows (serveNoted connectionId) (careful connectionId) Q x (f connection))
    (he : Q x (.error .attributeError)) :
    Follows (serveNoted connectionId) (careful connectionId) Q x (readObject id >>= f) := by
  refine follows_request_bind.mpr ⟨trivial, fun w c => ?_⟩
  simp only [serveNoted, Worker.noted, serve]
  cases h : x.session.object? id with
  | none => exact he
  | some o => exact hf o.view (mem_of_object? h).2

theorem follows_refreshConnection (id : Nat) (block : Bool) (hx : Idle (!block) x) :
    Follows (serveNoted connectionId) (careful connectionId) (Over (!block)) x
      (refreshConnection settings id block) := by
  by_cases hid : id = connectionId
  · subst hid
    refine follows_bind (follows_lockForRefresh block hx) ?_
      fun x e h => over_of_idle (h.2.2 e rfl)
    rintro x (_ | token) ⟨hheld, hnone, -⟩
    · exact over_of_idle (hnone rfl)
    · have hheld := hheld token rfl
      refine follows_readObject_bind (fun connection _ => ?_) ⟨by simp, by rintro _ ⟨⟩ ⟨⟩⟩
      refine follows_attempt_bind (follows_underLock (makes_refreshUnderLock (fun _ => trivial)
        (fun _ => trivial) fun _ => trivial) hheld) ?_
      intro x outcome hheld
      refine follows_bind (follows_releaseLock hheld.beat hheld.holding) ?_
        fun _ _ h => over_of_idle h
      intro x _ hidle
      refine follows_over ?_ hidle
      rcases outcome with e | _ | bundle
      · trivial
      · trivial
      · exact Makes.bind (makes_applyTokenBundle fun _ => trivial) fun _ => trivial
  · have hname : LockName.refresh id ≠ .refresh connectionId := fun heq => hid (by simpa using heq)
    refine follows_bind (follows_besides (makes_lockForRefresh (besides_of_locking hid)) hx) ?_
      fun _ _ h => over_of_idle h
    rintro x (_ | token) hidle
    · exact over_of_idle hidle
    · refine follows_readObject_bind (fun connection hconnection => ?_) (over_of_idle hidle)
      have hother : connection.id ≠ connectionId := fun heq => hid (hconnection.symm.trans heq)
      refine follows_over (Makes.bind (Makes.attempt (makes_refreshUnderLock (fun _ => hother)
        (fun _ => trivial) fun _ => trivial)) fun outcome => ?_) hidle
      refine Makes.bind (makes_releaseLock trivial hname) fun _ => ?_
      rcases outcome with e | _ | bundle
      · trivial
      · trivial
      · exact Makes.bind (makes_applyTokenBundle fun _ => trivial) fun _ => trivial

theorem follows_freshAccessToken (id : Nat) (hx : Idle false x) :
    Follows (serveNoted connectionId) (careful connectionId)
      (fun x out => ∀ token, out = .ok token → Idle false x) x (freshAccessToken settings id) := by
  refine follows_readObject_bind (fun connection _ => ?_) (by simp)
  split
  · exact fun _ h => by cases h
  · refine follows_bind (Q := fun x out => out = .ok () → Idle false x) ?_ ?_ (by simp)
    · refine follows_request_bind.mpr ⟨trivial, fun w c => ?_⟩
      split
      · refine follows_bind (follows_refreshConnection id true hx) ?_ (by simp)
        intro x renewed hover
        have hidle : Idle false x := hover.1 renewed rfl
        refine Follows.mono ?_ (follows_besides (makes_commit trivial) hidle)
        exact fun x out h _ => h
      · exact fun _ => hx
    · intro x _ hidle
      refine follows_readObject_bind (fun connection _ => ?_) (by simp)
      exact Follows.mono (fun _ _ h _ _ => h) (follows_besides (makes_ofExcept _) (hidle rfl))

theorem follows_capabilityRequests (connection : Connection) (requests : List (String × String))
    (hx : Idle false x) :
    Follows (serveNoted connectionId) (careful connectionId) (fun _ _ => True) x
      (capabilityRequests settings connection requests) := by
  induction requests generalizing x with
  | nil => trivial
  | cons request rest ih =>
      refine follows_bind (Q := fun x out => ∀ response, out = .ok response → Idle false x) ?_
        (fun x response h => ih (h response rfl)) (by simp)
      unfold capabilityRequest
      cases connection.provider with
      | google =>
          refine follows_bind (follows_freshAccessToken _ hx) ?_ (by simp)
          intro x token hidle
          exact Follows.mono (fun _ _ h _ _ => h)
            (follows_besides (makes_callSdk trivial _) (hidle token rfl))
      | microsoft =>
          refine follows_bind (follows_freshAccessToken _ hx) ?_ (by simp)
          intro x token hidle
          exact Follows.mono (fun _ _ h _ _ => h) (follows_besides
            (Makes.bind (makes_readObject trivial) fun _ => makes_providerHttpRequest trivial)
            (hidle token rfl))

theorem follows_capabilityCall (tenantId id : Nat) (name : String)
    (requests : List (String × String)) (hx : Idle false x) :
    Follows (serveNoted connectionId) (careful connectionId) (fun _ _ => True) x
      (capabilityCall settings tenantId id name requests) := by
  refine follows_bind (follows_besides (p := ask (.openSession tenantId))
    ⟨trivial, fun _ => trivial⟩ hx) ?_ (by simp)
  intro x _ hx
  refine follows_bind (follows_besides (p := ask (.getConnection id))
    ⟨trivial, fun _ => trivial⟩ hx) ?_ (by simp)
  intro x found hx
  split
  · trivial
  · refine follows_bind (follows_besides (makes_getCapability trivial) hx) ?_ (by simp)
    exact fun x connection hx => follows_capabilityRequests connection requests hx

theorem follows_refreshEach (lead : DirectoryStore.Instant) (ids : List Nat)
    (report : RefreshReport) (hx : Idle true x) :
    Follows (serveNoted connectionId) (careful connectionId)
      (fun x out => ∀ report, out = .ok report → Idle true x) x
      (refreshEach settings lead ids report) := by
  induction ids generalizing x report with
  | nil => exact fun _ _ => hx
  | cons id rest ih =>
      refine follows_request_bind.mpr ⟨trivial, fun w c => ?_⟩
      split
      · refine follows_bind (Q := fun x out => ∀ report, out = .ok report → Idle true x) ?_ ?_
          (by simp)
        · refine follows_attempt_bind (follows_refreshConnection id false hx) ?_
          rintro x (e | _ | _) ⟨hok, herror⟩
          · dsimp only
            split
            · rename_i htransient
              exact fun _ _ => herror e rfl htransient
            · exact fun _ h => by cases h
          · exact fun _ _ => hok _ rfl
          · exact fun _ _ => hok _ rfl
        · intro x report hidle
          refine follows_bind (follows_besides (makes_commit trivial) (hidle report rfl)) ?_
            (by simp)
          exact fun x _ hx => ih report hx
      · exact ih report hx

theorem follows_refreshTenants (lead : DirectoryStore.Instant)
    (tenants : List DirectoryStore.Tenant) (hx : Idle true x) :
    Follows (serveNoted connectionId) (careful connectionId) (fun _ _ => True) x
      (refreshTenants settings lead tenants) := by
  induction tenants generalizing x with
  | nil => trivial
  | cons tenant rest ih =>
      refine follows_bind (Q := fun x out => ∀ report, out = .ok report → Idle true x) ?_ ?_
        (by simp)
      · refine follows_bind (follows_besides (p := ask (.openSession tenant.id))
          ⟨trivial, fun _ => trivial⟩ hx) ?_ (by simp)
        intro x _ hx
        refine follows_bind (follows_besides (p := ask .selectActiveConnections)
          ⟨trivial, fun _ => trivial⟩ hx) ?_ (by simp)
        intro x ids hx
        refine follows_bind (follows_refreshEach lead ids _ hx) ?_ (by simp)
        exact fun x report hidle _ _ => hidle report rfl
      · intro x report hidle
        exact follows_bind (ih (hidle report rfl)) (fun _ _ _ => trivial) (by simp)

end Discipline

/-- The lock of the connection is that of the one call that holds it; a copy that is
meant to be current is so until its refresh token has been exchanged. -/
structure Exclusive (connectionId : Nat) (w : World Rotation) (xs : List Worker) : Prop where
  held : ∀ x ∈ xs, ∀ token, x.holding = some token →
    ∃ lock, (w.locks.find? fun lock => lock.name == .refresh connectionId) = some lock ∧
      lock.token = token
  alone : ∀ (i j : Nat) (a b : Worker), xs[i]? = some a → xs[j]? = some b →
    a.holding.isSome = true → b.holding.isSome = true → i = j
  ready : ∀ x ∈ xs, x.ready = true → x.holding.isSome = true ∧
    (quiet connectionId x.session → ∀ o ∈ x.session.objects, o.row.id = connectionId →
      currentSince connectionId w.history o.readMark = true)

section Step

variable {settings : Settings} {connectionId : Nat} {w w' : World Rotation}
variable {xs : List Worker} {i : Nat} {x x' : Worker}

/-- The marks of the sessions are in the past. -/
def Marked (connectionId : Nat) (w : World Rotation) (xs : List Worker) : Prop :=
  ∀ x ∈ xs, ∀ o ∈ x.session.objects, o.row.id = connectionId → o.readMark ≤ w.history.length

theorem Exclusive.of_step (h : Exclusive connectionId w xs) (hi : xs[i]? = some x)
    (hmarks : Marked connectionId w xs)
    (hlocks : (w'.locks.find? fun lock => lock.name == .refresh connectionId) =
      w.locks.find? fun lock => lock.name == .refresh connectionId)
    (events : List Event) (hhistory : w'.history = w.history ++ events)
    (hnone : events.any (exchanges connectionId) = true →
      ∀ (j : Nat) (y : Worker), xs[j]? = some y → j ≠ i → y.holding = none)
    (hholding : x'.holding = x.holding ∨ x'.holding = none)
    (hready : x'.ready = true → x'.holding.isSome = true ∧
      (quiet connectionId x'.session → ∀ o ∈ x'.session.objects, o.row.id = connectionId →
        currentSince connectionId w'.history o.readMark = true)) :
    Exclusive connectionId w' (xs.set i x') := by
  have hlt := (List.getElem?_eq_some_iff.mp hi).1
  have hkept (token : Nat) (h : x'.holding = some token) : x.holding = some token := by
    rcases hholding with heq | heq
    · exact heq.symm.trans h
    · rw [heq] at h
      cases h
  have hsome (h : x'.holding.isSome = true) : x.holding.isSome = true := by
    obtain ⟨token, htoken⟩ := Option.isSome_iff_exists.mp h
    rw [hkept token htoken]
    rfl
  refine ⟨?_, ?_, ?_⟩
  · rw [hlocks]
    intro y hy token htoken
    rcases List.mem_or_eq_of_mem_set hy with hold | rfl
    · exact h.held y hold token htoken
    · exact h.held x (List.mem_of_getElem? hi) token (hkept token htoken)
  · intro j k a b ha hb haheld hbheld
    rw [List.getElem?_set] at ha hb
    split at ha <;> split at hb
    · omega
    · rename_i hij hik
      subst hij
      cases ha
      exact h.alone i k x b hi hb (hsome haheld) hbheld
    · rename_i hij hik
      subst hik
      cases hb
      exact h.alone j i a x ha hi haheld (hsome hbheld)
    · exact h.alone j k a b ha hb haheld hbheld
  · intro y hy hyready
    obtain ⟨j, hj⟩ := List.getElem?_of_mem hy
    rw [List.getElem?_set] at hj
    split at hj
    · cases hj
      exact hready hyready
    · rename_i hne
      have hmem := List.mem_of_getElem? hj
      obtain ⟨hheld, hcurrent⟩ := h.ready y hmem hyready
      refine ⟨hheld, fun hquiet o ho hid => ?_⟩
      rw [hhistory, currentSince_append (hmarks y hmem o ho hid), hcurrent hquiet o ho hid,
        Bool.true_and, Bool.not_eq_true']
      rw [← Bool.not_eq_true]
      intro hexchanged
      rw [hnone hexchanged j y hj (Ne.symm hne)] at hheld
      cases hheld

theorem Exclusive.of_same (h : Exclusive connectionId w xs) (hi : xs[i]? = some x)
    (hmarks : Marked connectionId w xs)
    (hlocks : (w'.locks.find? fun lock => lock.name == .refresh connectionId) =
      w.locks.find? fun lock => lock.name == .refresh connectionId)
    (events : List Event) (hhistory : w'.history = w.history ++ events)
    (hnone : events.any (exchanges connectionId) = false) {session : Session}
    (hquiet : x.ready = true → quiet connectionId session → quiet connectionId x.session)
    (hobjects : x.ready = true → ∀ o ∈ session.objects, o.row.id = connectionId →
      ∃ old ∈ x.session.objects, old.row.id = connectionId ∧ old.readMark = o.readMark) :
    Exclusive connectionId w' (xs.set i { x with session := session }) := by
  have hx := List.mem_of_getElem? hi
  refine h.of_step hi hmarks hlocks events hhistory (by simp [hnone]) (.inl rfl) fun hready => ?_
  obtain ⟨hheld, hcurrent⟩ := h.ready x hx hready
  refine ⟨hheld, fun hsession o ho hid => ?_⟩
  obtain ⟨old, hold, holdId, hmark⟩ := hobjects hready o ho hid
  rw [hhistory, ← hmark, currentSince_append (hmarks x hx old hold holdId), hnone,
    hcurrent (hquiet hready hsession) old hold holdId]
  rfl

theorem find?_acquireLock {name : LockName} (hname : name ≠ .refresh connectionId)
    (now : DirectoryStore.Instant) (token : Nat) :
    ((w.acquireLock now name token).1.locks.find? fun lock => lock.name == .refresh connectionId) =
      w.locks.find? fun lock => lock.name == .refresh connectionId := by
  unfold World.acquireLock
  split
  · rfl
  · rw [List.find?_cons_of_neg (by simpa using hname), List.find?_filter]
    congr 1
    funext lock
    by_cases h : lock.name = .refresh connectionId
    · simp [h, Ne.symm hname]
    · simp [h]

theorem exclusive_exchange (h : Exclusive connectionId w xs) (hi : xs[i]? = some x)
    (hmarks : Marked connectionId w xs) (id : Nat) (token : PyStr) (c : Choice)
    (hcareful : careful connectionId x (.exchange id token)) :
    Exclusive connectionId (serveNoted connectionId w x (.exchange id token) c).1
      (xs.set i (serveNoted connectionId w x (.exchange id token) c).2.1) := by
  have hx := List.mem_of_getElem? hi
  by_cases hid : id = connectionId
  · subst hid
    have hready := hcareful rfl
    obtain ⟨hheld, hcurrent⟩ := h.ready x hx hready
    refine h.of_step hi hmarks rfl
      (exchangeTrace id token (rotatingEndpoint id w.endpoint id token c).2) rfl ?_ (.inl rfl) ?_
    · intro _ j y hj hne
      rw [← Option.not_isSome_iff_eq_none]
      exact fun hyheld => hne (h.alone j i y x hj hi hyheld hheld)
    · refine fun _ => ⟨hheld, fun hquiet o ho hoid => ?_⟩
      -- an answer that rotates the token leaves it with the session
      cases hread : readAnswer .google (rotatingEndpoint id w.endpoint id token c).2 with
      | ok bundle =>
          obtain ⟨head, rest, hbundle⟩ := rotatingEndpoint_ok hread
          have hissued : (id, head :: rest) ∈
              issuedBy id (rotatingEndpoint id w.endpoint id token c).2 ++ x.session.issued := by
            simp [issuedBy, hread, hbundle]
          exact absurd hissued (hquiet (head :: rest))
      | error e =>
          have hquiet' : quiet id x.session := fun t ht => hquiet t (List.mem_append_right _ ht)
          have hnone : (exchangeTrace id token
              (rotatingEndpoint id w.endpoint id token c).2).any (exchanges id) = false := by
            unfold exchangeTrace
            rw [hread]
            cases e <;> rfl
          show currentSince id (w.history ++ exchangeTrace id token
            (rotatingEndpoint id w.endpoint id token c).2) o.readMark = true
          rw [currentSince_append (hmarks x hx o ho hoid), hnone, hcurrent hquiet' o ho hoid]
          rfl
  · have hnone : (exchangeTrace id token
        (rotatingEndpoint connectionId w.endpoint id token c).2).any (exchanges connectionId) =
          false := by
      unfold exchangeTrace
      split <;> simp [exchanges, hid]
    refine h.of_same hi hmarks ?_ _ ?_ hnone ?_ fun _ o ho hoid => ⟨o, ho, hoid, rfl⟩
    · rfl
    · rfl
    · exact fun _ hquiet t ht => hquiet t (List.mem_append_right _ ht)

theorem Exclusive.taken (h : Exclusive connectionId w xs)
    (hnobody : ∀ y ∈ xs, y.holding = none) (lock : Lock)
    (hlock : (w'.locks.find? fun lock => lock.name == .refresh connectionId) = some lock)
    (hholding : x'.holding = some lock.token)
    (hready : x'.ready = true → ∀ o ∈ x'.session.objects, o.row.id = connectionId →
      currentSince connectionId w'.history o.readMark = true) :
    Exclusive connectionId w' (xs.set i x') := by
  refine ⟨?_, ?_, ?_⟩
  · intro y hy token htoken
    rcases List.mem_or_eq_of_mem_set hy with hold | rfl
    · rw [hnobody y hold] at htoken
      cases htoken
    · exact ⟨lock, hlock, Option.some.inj (hholding.symm.trans htoken)⟩
  · intro j k a b ha hb haheld hbheld
    rw [List.getElem?_set] at ha hb
    split at ha <;> split at hb
    · omega
    · rw [hnobody b (List.mem_of_getElem? hb)] at hbheld
      cases hbheld
    · rw [hnobody a (List.mem_of_getElem? ha)] at haheld
      cases haheld
    · rw [hnobody a (List.mem_of_getElem? ha)] at haheld
      cases haheld
  · intro y hy hyready
    rcases List.mem_or_eq_of_mem_set hy with hold | rfl
    · have hheld := (h.ready y hold hyready).1
      rw [hnobody y hold] at hheld
      cases hheld
    · exact ⟨Option.isSome_iff_exists.mpr ⟨_, hholding⟩, fun _ => hready hyready⟩

theorem exclusive_acquireLock (h : Exclusive connectionId w xs) (hi : xs[i]? = some x)
    (hmarks : Marked connectionId w xs) (hsingle : oneObject connectionId x.session)
    (name : LockName) (c : Choice)
    (hcareful : careful connectionId x (.acquireLock name))
    (hcond : keepsApart connectionId w xs i (.acquireLock name) c = true) :
    Exclusive connectionId (serveNoted connectionId w x (.acquireLock name) c).1
      (xs.set i (serveNoted connectionId w x (.acquireLock name) c).2.1) := by
  by_cases hname : name = .refresh connectionId
  · subst hname
    have hfree := hcareful rfl
    rw [noted_acquireLock]
    cases hlive : w.liveLock? c.now (.refresh connectionId) with
    | some lock =>
        have hserve : w.acquireLock c.now (.refresh connectionId) c.uuid = (w, none) := by
          simp [World.acquireLock, hlive]
        simp only [serveNoted, serve, hserve]
        exact h.of_step hi hmarks rfl [] (by simp) (by simp) (.inr rfl) (by simp)
    | none =>
        have hserve : w.acquireLock c.now (.refresh connectionId) c.uuid =
            ({ w with locks := ⟨.refresh connectionId, c.uuid, c.now + lockTtl⟩ ::
              w.locks.filter fun x => x.name != .refresh connectionId }, some c.uuid) := by
          simp [World.acquireLock, hlive]
        simp only [serveNoted, serve, hserve]
        simp only [keepsApart, hlive, bne_self_eq_false, Option.isSome_none, Bool.or_self,
          Bool.false_or, Bool.and_eq_true, hi, Option.all_some] at hcond
        obtain ⟨hover, hcurrent⟩ := hcond
        have hnobody (y : Worker) (hy : y ∈ xs) : y.holding = none := by
          rw [Option.eq_none_iff_forall_not_mem]
          intro token htoken
          obtain ⟨lock, hlock, rfl⟩ := h.held y hy token htoken
          rw [hlock] at hover
          simpa [htoken.symm] using List.all_eq_true.mp hover y hy
        refine h.taken hnobody ⟨.refresh connectionId, c.uuid, c.now + lockTtl⟩
          (List.find?_cons_of_pos (by simp)) rfl fun hready o ho hid => ?_
        have hbeat : x.beat = true := by simpa using hready
        rw [hbeat, Bool.not_true, Bool.false_or] at hcurrent
        cases hfound : x.session.object? connectionId with
        | none => exact absurd (List.find?_eq_none.mp hfound o ho) (by simp [hid])
        | some found =>
            obtain ⟨hmem, hfoundId⟩ := mem_of_object? hfound
            rw [hfound, Option.all_some] at hcurrent
            rw [hsingle o ho found hmem hid hfoundId]
            exact hcurrent
  · have hnoted : (serveNoted connectionId w x (.acquireLock name) c).2.1 = x := by
      simp only [serveNoted, Worker.noted, if_neg hname]
      rfl
    rw [hnoted]
    refine h.of_step hi hmarks (find?_acquireLock hname c.now c.uuid) [] ?_ (by simp) (.inl rfl) ?_
    · simp only [serveNoted, serve, World.acquireLock]
      split <;> simp
    · intro hready
      obtain ⟨hheld, hcurrent⟩ := h.ready x (List.mem_of_getElem? hi) hready
      refine ⟨hheld, fun hquiet o ho hid => ?_⟩
      have hsame : (serveNoted connectionId w x (.acquireLock name) c).1.history = w.history := by
        simp only [serveNoted, serve, World.acquireLock]
        split <;> rfl
      rw [hsame]
      exact hcurrent hquiet o ho hid

theorem exclusive_refreshObject (h : Exclusive connectionId w xs) (hi : xs[i]? = some x)
    (hmarks : Marked connectionId w xs) (id : Nat) (c : Choice)
    (hcond : keepsApart connectionId w xs i (.refreshObject id) c = true) :
    Exclusive connectionId (serveNoted connectionId w x (.refreshObject id) c).1
      (xs.set i (serveNoted connectionId w x (.refreshObject id) c).2.1) := by
  by_cases hid : id = connectionId
  · subst hid
    have hout : (ledgerOf id w.history).outstanding = false := by simpa [keepsApart] using hcond
    cases hrow : w.tables.connection? id with
    | none =>
        have hserve : serve (rotatingEndpoint id) w x.session (.refreshObject id) c =
            (w, x.session, false) := by
          simp [serve, hrow]
        simp only [serveNoted, Worker.noted, hserve, if_true]
        exact h.of_step hi hmarks rfl [] (by simp) (by simp) (.inr rfl) (by simp [Worker.done])
    | some row =>
        have hserve : serve (rotatingEndpoint id) w x.session (.refreshObject id) c =
            (w, x.session.update id fun o => o.reload w.history.length row, true) := by
          simp [serve, hrow]
        simp only [serveNoted, Worker.noted, hserve, if_true]
        refine h.of_step hi hmarks rfl [] (by simp) (by simp) (.inl rfl) fun hready => ⟨hready, ?_⟩
        intro _ o ho hoid
        have hnow : currentSince id w.history w.history.length = true := by
          simp [currentSince, hout]
        obtain ⟨old, -, ⟨-, rfl⟩ | ⟨hne, rfl⟩⟩ := mem_update ho
        · exact hnow
        · exact absurd hoid hne
  · have hnoted : (serveNoted connectionId w x (.refreshObject id) c).2.1 =
        { x with session :=
          (serve (rotatingEndpoint connectionId) w x.session (.refreshObject id) c).2.1 } := by
      simp only [serveNoted, Worker.noted, if_neg hid]
    rw [hnoted]
    simp only [serveNoted, serve]
    split
    · rename_i row hrow
      have hrowId : row.id = id := by simpa using List.find?_some hrow
      refine h.of_same hi hmarks rfl [] (by simp) rfl (fun _ hquiet => hquiet) fun _ o ho hoid => ?_
      obtain ⟨old, hold, ⟨-, rfl⟩ | ⟨-, rfl⟩⟩ := mem_update ho
      · exact absurd (hrowId.symm.trans hoid) hid
      · exact ⟨o, hold, hoid, rfl⟩
    · exact h.of_same hi hmarks rfl [] (by simp) rfl (fun _ hquiet => hquiet)
        fun _ o ho hoid => ⟨o, ho, hoid, rfl⟩

theorem exclusive_deleteLock (h : Exclusive connectionId w xs) (hi : xs[i]? = some x)
    (hmarks : Marked connectionId w xs) (name : LockName) (c : Choice)
    (hcareful : careful connectionId x (.deleteLock name)) :
    Exclusive connectionId (serveNoted connectionId w x (.deleteLock name) c).1
      (xs.set i (serveNoted connectionId w x (.deleteLock name) c).2.1) := by
  have hlt := (List.getElem?_eq_some_iff.mp hi).1
  by_cases hname : name = .refresh connectionId
  · subst hname
    have hheld := hcareful rfl
    have hnobody (y : Worker) (hy : y ∈ xs.set i (x.done x.session)) : y.holding = none := by
      obtain ⟨j, hj⟩ := List.getElem?_of_mem hy
      rw [List.getElem?_set] at hj
      split at hj
      · cases hj
        rfl
      · rename_i hne
        rw [← Option.not_isSome_iff_eq_none]
        exact fun hyheld => hne (h.alone i j x y hi hj hheld hyheld)
    simp only [serveNoted, Worker.noted, serve, if_true]
    refine ⟨fun y hy token htoken => ?_, fun j k a b ha _ haheld => ?_, fun y hy hready => ?_⟩
    · rw [hnobody y hy] at htoken
      cases htoken
    · rw [hnobody a (List.mem_of_getElem? ha)] at haheld
      cases haheld
    · obtain ⟨j, hj⟩ := List.getElem?_of_mem hy
      rw [List.getElem?_set] at hj
      split at hj
      · cases hj
        cases hready
      · have hyheld := (h.ready y (List.mem_of_getElem? hj) hready).1
        rw [hnobody y hy] at hyheld
        cases hyheld
  · have hfind : ((w.deleteLock name).locks.find? fun lock =>
        lock.name == .refresh connectionId) =
          w.locks.find? fun lock => lock.name == .refresh connectionId := by
      simp only [World.deleteLock, List.find?_filter]
      congr 1
      funext lock
      by_cases heq : lock.name = .refresh connectionId
      · simp [heq, Ne.symm hname]
      · simp [heq]
    have hnoted : (serveNoted connectionId w x (.deleteLock name) c).2.1 =
        { x with session := x.session } := by
      simp only [serveNoted, Worker.noted, if_neg hname]
      rfl
    rw [hnoted]
    refine h.of_same hi hmarks hfind [] ?_ rfl (fun _ hquiet => hquiet)
      fun _ o ho hid => ⟨o, ho, hid, rfl⟩
    simp [World.deleteLock]

theorem exclusive_step (r : Request) (c : Choice)
    (hG : Serialized settings connectionId w (xs.map Worker.session))
    (h : Exclusive connectionId w xs) (hi : xs[i]? = some x)
    (hcareful : careful connectionId x r) (hcond : keepsApart connectionId w xs i r c = true) :
    Exclusive connectionId (serveNoted connectionId w x r c).1
      (xs.set i (serveNoted connectionId w x r c).2.1) := by
  have hx := List.mem_of_getElem? hi
  have hsession := List.mem_map_of_mem (f := Worker.session) hx
  have hmarks : Marked connectionId w xs := fun y hy o ho hid =>
    (hG.known y.session (List.mem_map_of_mem hy) o ho hid).mark
  have hsame {w' : World Rotation} (hlocks : w'.locks = w.locks) (hhistory : w'.history = w.history)
      {session : Session} (hissued : session.issued = x.session.issued)
      (hobjects : session.objects = x.session.objects) :
      Exclusive connectionId w' (xs.set i { x with session := session }) := by
    refine h.of_same hi hmarks (by rw [hlocks]) [] (by simp [hhistory]) rfl ?_ ?_
    · unfold quiet
      rw [hissued]
      exact fun _ hquiet => hquiet
    · rw [hobjects]
      exact fun _ o ho hid => ⟨o, ho, hid, rfl⟩
  -- a call that is not meant to have a current copy may load what it wants
  have hloads (hready : x.ready = false) (session : Session) :
      Exclusive connectionId w (xs.set i { x with session := session }) :=
    h.of_same hi hmarks rfl [] (by simp) rfl (by simp [hready]) (by simp [hready])
  have hcalls (event : Event) (hnone : exchanges connectionId event = false) :
      Exclusive connectionId (w.record [event]) (xs.set i x) := by
    refine h.of_same hi hmarks ?_ [event] ?_ (by simp [hnone]) (fun _ hquiet => hquiet)
      fun _ o ho hid => ⟨o, ho, hid, rfl⟩
    · rfl
    · rfl
  cases r with
  | exchange id token => exact exclusive_exchange h hi hmarks id token c hcareful
  | acquireLock name =>
      exact exclusive_acquireLock h hi hmarks (hG.single _ hsession) name c hcareful hcond
  | deleteLock name => exact exclusive_deleteLock h hi hmarks name c hcareful
  | lockHolder name =>
      simp only [serveNoted, Worker.noted]
      split
      · exact h.of_step hi hmarks rfl [] (by simp [serve]) (by simp) (.inr rfl)
          (by simp [Worker.done])
      · exact hsame rfl rfl rfl rfl
  | refreshObject id => exact exclusive_refreshObject h hi hmarks id c hcond
  | assign id value =>
      simp only [serveNoted, Worker.noted, serve]
      repeat' split
      · exact hsame rfl rfl rfl rfl
      · refine h.of_same hi hmarks rfl [] (by simp) rfl (fun _ hquiet => hquiet) ?_
        intro _ o ho hid
        obtain ⟨old, hold, ⟨-, rfl⟩ | ⟨-, rfl⟩⟩ := mem_update ho
        · exact ⟨old, hold, hid, rfl⟩
        · exact ⟨o, hold, hid, rfl⟩
      · exact hsame rfl rfl rfl rfl
  | commit =>
      simp only [serveNoted, Worker.noted, serve, World.commit]
      have hready : x.ready = false := hcareful
      split
      · refine h.of_same hi hmarks ?_ _ ?_ (exchanges_trace connectionId x.session.objects)
          (by simp [hready]) (by simp [hready])
        · rfl
        · rfl
      · exact hloads hready _
  | callApi id method path accessToken => exact hcalls (.called id c.answer) rfl
  | exchangeCode tenantId provider code => exact hcalls (.codeSent tenantId) rfl
  | accountInfo tenantId provider accessToken => exact hcalls (.accountRead tenantId) rfl
  | revokeRemote id provider refreshToken => exact hcalls (.revocationSent id) rfl
  | openSession => exact hloads hcareful _
  | selectActiveConnections => exact hloads hcareful _
  | getConnection id =>
      have hserve : (serve (rotatingEndpoint connectionId) w x.session (.getConnection id) c).1 =
          w := by
        simp only [serve]
        repeat' split
        all_goals rfl
      simp only [serveNoted, Worker.noted, hserve]
      exact hloads hcareful _
  | findConnection provider kind accountLabel =>
      have hserve : (serve (rotatingEndpoint connectionId) w x.session
          (.findConnection provider kind accountLabel) c).1 = w := by
        simp only [serve]
        split
        all_goals rfl
      simp only [serveNoted, Worker.noted, hserve]
      exact hloads hcareful _
  | addConnection => exact hloads hcareful _
  | commitControl =>
      simp only [serveNoted, Worker.noted, serve, World.commitControl]
      split
      · refine hsame ?_ ?_ ?_ ?_ <;> rfl
      · exact hsame rfl rfl rfl rfl
  | _ => refine hsame ?_ ?_ ?_ ?_ <;> rfl

theorem presentsCurrent_of_exclusive (h : Exclusive connectionId w xs) (hi : xs[i]? = some x)
    {r : Request} (hallowed : allowed settings connectionId x.session r)
    (hcareful : careful connectionId x r) :
    presentsCurrent connectionId w (xs.map Worker.session) i r = true := by
  cases r with
  | exchange id token =>
      by_cases hid : id = connectionId
      · subst hid
        obtain ⟨hquiet, o, ho, -⟩ := hallowed rfl
        obtain ⟨hmem, hoid⟩ := mem_of_object? ho
        have hcurrent := (h.ready x (List.mem_of_getElem? hi) (hcareful rfl)).2 hquiet o hmem hoid
        simp [presentsCurrent, hi, ho, hcurrent]
      · simp [presentsCurrent, hid]
  | _ => rfl

end Step

end Socle.RefreshLocks
