import Socle.ConnectorTransactions

/-!
The refresh beat when every connection has its own provider: which answers stop
the loop over all tenants and connections, and what the beat commits for each
connection otherwise.
-/

namespace Socle.RefreshBeat

open Socle.Procedures
open Socle.DirectoryStore (Instant Tenant AuditEvent)
open Socle.TokenExchange
open Socle.ConnectorStore
open Socle.ConnectorService
open Socle.ConnectorTransactions

/-! ### One environment for each connection -/

/-- What the environment does in the turn of one connection: the clock when its
expiry is checked, when its lock is taken and when the lock is given back, the
answer to each attempt, and the clock and the nonce of each assignment. -/
structure Turn where
  checkedAt : Instant := 0
  lockedAt : Instant := 0
  lockToken : Nat := 0
  heldAt : Instant := 0
  answers : Nat → HttpAnswer
  stamps : Nat → Stamp := fun _ => ⟨0, 0⟩

/-- The world, and how many exchanges and assignments each connection has seen. -/
structure Progress where
  world : World Unit
  exchanges : Nat → Nat
  assignments : Nat → Nat

def choiceFor (turns : Nat → Turn) (b : Progress) : Request → Choice
  | .expiring id _ => { now := (turns id).checkedAt }
  | .acquireLock (.refresh id) => { now := (turns id).lockedAt, uuid := (turns id).lockToken }
  | .lockHolder (.refresh id) => { now := (turns id).heldAt }
  | .exchange id _ => { answer := (turns id).answers (b.exchanges id) }
  | .assign id _ =>
      let stamp := (turns id).stamps (b.assignments id)
      { now := stamp.now, nonce := stamp.nonce }
  | _ => {}

/-- One more for this connection. -/
def bump (count : Nat → Nat) (id : Nat) : Nat → Nat :=
  fun x => if x = id then count x + 1 else count x

def Progress.after (b : Progress) (world : World Unit) : Request → Progress
  | .exchange id _ => { b with world := world, exchanges := bump b.exchanges id }
  | .assign id _ => { b with world := world, assignments := bump b.assignments id }
  | _ => { b with world := world }

/-- Each connection gets the readings and the answers of its own turn. -/
def play (turns : Nat → Turn) : Serve ConnectorInterface Progress Session Unit :=
  fun b l r _ =>
    let out := serve anyAnswer b.world l r (choiceFor turns b r)
    (b.after out.1 r, out.2.1, out.2.2)

/-! ### The outcome of a turn -/

/-- The answer on which the retries end. -/
def attempts (provider : ConnectorProvider) (answers : Nat → HttpAnswer) :
    Nat → Nat → Except Failure TokenBundle
  | 0, _ => .error (.providerUnavailable
      s!"Provider {provider.value} indisponible après {maxAttempts} tentatives.")
  | n + 1, k =>
      match readAnswer provider (answers k) with
      | .ok bundle => .ok bundle
      | .error (.providerResponse statusCode) =>
          if retryable statusCode then attempts provider answers n (k + 1)
          else .error (.providerResponse statusCode)
      | .error e => .error e

/-- What the grant of a connection returns or raises. -/
def granted (settings : Settings) (turn : Turn) (c : Connection) : Except Failure TokenBundle :=
  match settings.keys.decrypt c.attributes.refreshTokenEnc, clientCredentials settings c.provider with
  | .error e, _ => .error e
  | .ok _, .error e => .error e
  | .ok _, .ok _ => attempts c.provider turn.answers maxAttempts 0

/-- The assignments of `apply_token_bundle`. -/
def stored (settings : Settings) (turn : Turn) (bundle : TokenBundle) (a : Attributes) :
    Except Failure Attributes := do
  let a ← sealAccessToken settings bundle (turn.stamps 0) a
  let a ← sealRefreshToken settings bundle (turn.stamps 1) a
  let a ← stampExpiry bundle (turn.stamps 2) a
  markHealthy (turn.stamps 3) a

/-- What the turn of a connection leaves of its attributes, or the exception
that leaves the loop. -/
def refreshed (settings : Settings) (turn : Turn) (c : Connection) : Except Failure Attributes :=
  match granted settings turn c with
  | .ok bundle => stored settings turn bundle c.attributes
  | .error (.invalidGrant _) => markReconsent (turn.stamps 0) c.attributes
  | .error e =>
      if e.transient then markRefreshFailed e (turn.stamps 0) c.attributes else .error e

/-- The access token expires within the lead. -/
def Expiring (settings : Settings) (turn : Turn) (c : Connection) : Prop :=
  c.attributes.accessTokenExpiresAt ≤ turn.checkedAt + refreshLead settings

instance (settings : Settings) (turn : Turn) (c : Connection) :
    Decidable (Expiring settings turn c) :=
  inferInstanceAs (Decidable (c.attributes.accessTokenExpiresAt ≤ turn.checkedAt + refreshLead settings))

/-- The row the beat leaves of an active connection of an active tenant. -/
def outcome (settings : Settings) (turn : Turn) (c : Connection) : Connection :=
  if Expiring settings turn c then
    match refreshed settings turn c with
    | .ok a => { c with attributes := a }
    | .error _ => c
  else c

/-- The turn of a connection commits nothing and touches no other one. -/
structure Beside (id : Nat) (b : Progress) (l : Session) (b' : Progress) (l' : Session) : Prop where
  tables : b'.world.tables = b.world.tables
  locks : ∀ x, x ≠ id → ∀ now,
    b'.world.liveLock? now (.refresh x) = b.world.liveLock? now (.refresh x)
  exchanges : ∀ x, x ≠ id → b'.exchanges x = b.exchanges x
  assignments : ∀ x, x ≠ id → b'.assignments x = b.assignments x
  pending : ∃ events : List AuditEvent, l'.pending = l.pending ++ events.map .addAuditEvent
  history : ∃ new, b'.world.history = b.world.history ++ new

theorem Beside.refl (id : Nat) (b : Progress) (l : Session) : Beside id b l b l where
  tables := rfl
  locks _ _ _ := rfl
  exchanges _ _ := rfl
  assignments _ _ := rfl
  pending := ⟨[], by simp⟩
  history := ⟨[], by simp⟩

theorem Beside.trans {id : Nat} {b₁ b₂ b₃ : Progress} {l₁ l₂ l₃ : Session}
    (h : Beside id b₁ l₁ b₂ l₂) (h' : Beside id b₂ l₂ b₃ l₃) : Beside id b₁ l₁ b₃ l₃ where
  tables := h'.tables.trans h.tables
  locks x hx now := (h'.locks x hx now).trans (h.locks x hx now)
  exchanges x hx := (h'.exchanges x hx).trans (h.exchanges x hx)
  assignments x hx := (h'.assignments x hx).trans (h.assignments x hx)
  pending := by
    obtain ⟨events, hevents⟩ := h.pending
    obtain ⟨more, hmore⟩ := h'.pending
    exact ⟨events ++ more, by rw [hmore, hevents, List.append_assoc, List.map_append]⟩
  history := by
    obtain ⟨new, hnew⟩ := h.history
    obtain ⟨more, hmore⟩ := h'.history
    exact ⟨new ++ more, by rw [hmore, hnew, List.append_assoc]⟩

/-- The refresh token was sent to the provider. -/
def Presented (id : Nat) (token : PyStr) (b b' : Progress) : Prop :=
  ∃ new, b'.world.history = b.world.history ++ new ∧ .presented id token ∈ new

theorem Presented.append {id : Nat} {token : PyStr} {b b' b'' : Progress}
    (h : Presented id token b b') (hmore : ∃ more, b''.world.history = b'.world.history ++ more) :
    Presented id token b b'' := by
  obtain ⟨new, hnew, hmem⟩ := h
  obtain ⟨more, hmore⟩ := hmore
  exact ⟨new ++ more, by rw [hmore, hnew, List.append_assoc], List.mem_append_left _ hmem⟩

theorem Presented.prepend {id : Nat} {token : PyStr} {b b' b'' : Progress}
    (hfirst : ∃ new, b'.world.history = b.world.history ++ new)
    (h : Presented id token b' b'') : Presented id token b b'' := by
  obtain ⟨first, hfirst⟩ := hfirst
  obtain ⟨new, hnew, hmem⟩ := h
  exact ⟨first ++ new, by rw [hnew, hfirst, List.append_assoc], List.mem_append_right _ hmem⟩

theorem bump_self (count : Nat → Nat) (id : Nat) : bump count id id = count id + 1 := if_pos rfl

theorem bump_of_ne (count : Nat → Nat) {id x : Nat} (hx : x ≠ id) : bump count id x = count x :=
  if_neg hx

/-- The attributes of a connection in the memory of the session. -/
def hold (id : Nat) (a : Attributes) (o : Object) : Object :=
  if o.row.id = id then { o with current := a } else o

section Turn

variable {settings : Settings} {turns : Nat → Turn} {b : Progress} {l l₀ : Session}
variable {c : Connection} {id : Nat} {a : Attributes} {o : Object}

theorem object?_of_hold (hl : l.objects = l₀.objects.map (hold id a))
    (ho : l₀.object? id = some o) : l.object? id = some { o with current := a } := by
  have hupdate := object?_update (f := fun o => { o with current := a }) (fun _ => rfl) ho
  unfold Session.object? at hupdate ⊢
  rw [hl]
  exact hupdate

theorem map_hold_hold (objects : List Object) (id : Nat) (a a' : Attributes) :
    (objects.map (hold id a)).map (hold id a') = objects.map (hold id a') := by
  rw [List.map_map]
  refine List.map_congr_left fun o _ => ?_
  simp only [Function.comp_apply, hold]
  split
  · simp [*]
  · simp [*]

theorem ensures_assign {value : Stamp → Attributes → Except Failure Attributes}
    (hl : l.objects = l₀.objects.map (hold id a)) (ho : l₀.object? id = some o) :
    Ensures (play turns)
      (fun b' l' out => Beside id b l b' l' ∧ b'.assignments id = b.assignments id + 1 ∧
        match value ((turns id).stamps (b.assignments id)) a with
        | .ok a' => out = .ok () ∧ l'.objects = l₀.objects.map (hold id a')
        | .error e => out = .error e)
      b l (assign id value) := by
  refine ensures_request_bind.mpr fun _ => ?_
  simp only [play, serve, choiceFor, object?_of_hold hl ho, Progress.after]
  have hbeside {l' : Session} (hpending : l'.pending = l.pending) : Beside id b l
      { b with assignments := bump b.assignments id } l' :=
    { Beside.refl id b l with
      assignments := fun x hx => bump_of_ne _ hx
      pending := ⟨[], by simp [hpending]⟩ }
  cases hvalue : value ((turns id).stamps (b.assignments id)) a with
  | error e => exact ⟨hbeside rfl, bump_self .., rfl⟩
  | ok a' =>
      refine ⟨hbeside rfl, bump_self .., rfl, ?_⟩
      show l.objects.map (hold id a') = _
      rw [hl, map_hold_hold]

theorem liveLock?_filter (w : World Unit) (now : Instant) {name other : LockName}
    (hname : name ≠ other) :
    (w.locks.filter fun x => x.name != other).find?
      (fun lock => lock.name == name && decide (now < lock.expiresAt)) = w.liveLock? now name := by
  rw [World.liveLock?, List.find?_filter]
  congr 1
  funext lock
  by_cases hlock : lock.name = name
  · simp [hlock, hname]
  · simp [hlock]

theorem ensures_same_bind {α : Type} {R : Progress → Session → Except Failure α → Prop} {r : Request}
    {f : Answer r → ConnectorProc α}
    (hsame : (play turns b l r ()).1 = b ∧ (play turns b l r ()).2.1 = l)
    (hf : Ensures (play turns) R b l (f (play turns b l r ()).2.2)) :
    Ensures (play turns) R b l (ask r >>= f) := by
  refine ensures_request_bind.mpr fun _ => ?_
  rw [hsame.1, hsame.2]
  exact hf

theorem ensures_releaseLock (token : Nat) :
    Ensures (play turns)
      (fun b' l' out => Beside id b l b' l' ∧ b'.assignments id = b.assignments id ∧
        l'.objects = l.objects ∧ out = .ok ())
      b l (releaseLock (.refresh id) token) := by
  refine ensures_same_bind ⟨rfl, rfl⟩ ?_
  generalize (play turns b l (.lockHolder (.refresh id)) ()).2.2 = holder
  split
  · refine fun _ => ⟨{ Beside.refl id b l with locks := fun x hx now => ?_ }, rfl, rfl, rfl⟩
    exact liveLock?_filter b.world now (by simpa using hx)
  · exact ⟨.refl .., rfl, rfl, rfl⟩

theorem ensures_refreshTokenGrant {pair : String × String} {token : PyStr}
    (hcreds : clientCredentials settings c.provider = .ok pair) :
    Ensures (play turns)
      (fun b' l' out => Beside c.id b l b' l' ∧ b'.assignments = b.assignments ∧
        l'.objects = l.objects ∧ b'.exchanges c.id = b.exchanges c.id + 1 ∧
        Presented c.id token b b' ∧
        out = readAnswer c.provider ((turns c.id).answers (b.exchanges c.id)))
      b l (refreshTokenGrant settings c token) := by
  simp only [refreshTokenGrant, hcreds, Proc.ofExcept, Proc.ret_bind]
  refine ensures_request_bind.mpr fun _ => ?_
  simp only [play, serve, choiceFor, anyAnswer, Progress.after]
  have hbeside : Beside c.id b l
      { world := { b.world with
          history := b.world.history ++ exchangeTrace c.id token
            ((turns c.id).answers (b.exchanges c.id)) }
        exchanges := bump b.exchanges c.id, assignments := b.assignments }
      { l with issued := issuedBy c.id ((turns c.id).answers (b.exchanges c.id)) ++ l.issued } :=
    { Beside.refl c.id b l with
      exchanges := fun x hx => bump_of_ne _ hx
      history := ⟨_, rfl⟩ }
  have hpresented : Presented c.id token b
      { world := { b.world with
          history := b.world.history ++ exchangeTrace c.id token
            ((turns c.id).answers (b.exchanges c.id)) }
        exchanges := bump b.exchanges c.id, assignments := b.assignments } :=
    ⟨_, rfl, List.mem_cons_self⟩
  cases readAnswer c.provider ((turns c.id).answers (b.exchanges c.id)) with
  | ok bundle => exact ⟨hbeside, rfl, rfl, bump_self .., hpresented, rfl⟩
  | error e => exact ⟨hbeside, rfl, rfl, bump_self .., hpresented, rfl⟩

theorem ensures_retries {pair : String × String} {token : PyStr}
    (hcreds : clientCredentials settings c.provider = .ok pair) (n : Nat) :
    Ensures (play turns)
      (fun b' l' out => Beside c.id b l b' l' ∧ b'.assignments = b.assignments ∧
        l'.objects = l.objects ∧ (0 < n → Presented c.id token b b') ∧
        out = attempts c.provider (turns c.id).answers n (b.exchanges c.id))
      b l (runWithBackoff c.provider (refreshTokenGrant settings c token) n) := by
  induction n generalizing b l with
  | zero => exact ⟨.refl .., rfl, rfl, fun h => absurd h (Nat.lt_irrefl 0), rfl⟩
  | succ n ih =>
      refine ensures_attempt_bind (ensures_refreshTokenGrant hcreds) ?_
      rintro b₁ l₁ outcome ⟨hbeside, hassignments, hobjects, hexchanges, hpresented, rfl⟩
      simp only [attempts]
      cases readAnswer c.provider ((turns c.id).answers (b.exchanges c.id)) with
      | ok bundle => exact ⟨hbeside, hassignments, hobjects, fun _ => hpresented, rfl⟩
      | error e =>
          cases e with
          | providerResponse statusCode =>
              dsimp only
              split
              · refine Ensures.mono ?_ ih
                rintro b₂ l₂ out ⟨hbeside₂, hassignments₂, hobjects₂, -, rfl⟩
                refine ⟨hbeside.trans hbeside₂, hassignments₂.trans hassignments,
                  hobjects₂.trans hobjects, fun _ => hpresented.append hbeside₂.history, ?_⟩
                rw [hexchanges]
              · exact ⟨hbeside, hassignments, hobjects, fun _ => hpresented, rfl⟩
          | _ => exact ⟨hbeside, hassignments, hobjects, fun _ => hpresented, rfl⟩

theorem ensures_grantUnderLock (hexchanges : b.exchanges c.id = 0) :
    Ensures (play turns)
      (fun b' l' out => Beside c.id b l b' l' ∧ b'.assignments = b.assignments ∧
        l'.objects = l.objects ∧ out = granted settings (turns c.id) c ∧
        ∀ token pair, settings.keys.decrypt c.attributes.refreshTokenEnc = .ok token →
          clientCredentials settings c.provider = .ok pair → Presented c.id token b b')
      b l (grantUnderLock settings c) := by
  unfold grantUnderLock granted
  cases settings.keys.decrypt c.attributes.refreshTokenEnc with
  | error e => exact ⟨.refl .., rfl, rfl, rfl, fun token pair h => by cases h⟩
  | ok token =>
      simp only [Proc.ofExcept, Proc.ret_bind]
      cases hcreds : clientCredentials settings c.provider with
      | error e =>
          refine ensures_attempt_bind (Q := fun b' l' out => b' = b ∧ l' = l ∧ out = .error e) ?_ ?_
          · simp only [refreshTokenGrant, hcreds, Proc.ofExcept]
            exact ⟨rfl, rfl, rfl⟩
          · rintro _ _ _ ⟨rfl, rfl, rfl⟩
            obtain ⟨message, rfl⟩ := clientCredentials_eq_error hcreds
            exact ⟨.refl .., rfl, rfl, rfl, fun _ _ _ h => by cases h⟩
      | ok pair =>
          refine Ensures.mono ?_ (ensures_retries hcreds maxAttempts)
          rintro b' l' out ⟨hbeside, hassignments, hobjects, hpresented, hout⟩
          rw [hexchanges] at hout
          refine ⟨hbeside, hassignments, hobjects, hout, ?_⟩
          intro token' pair' htoken _
          cases htoken
          exact hpresented (by decide)

theorem ensures_refreshFailed (hl : l.objects = l₀.objects.map (hold c.id c.attributes))
    (ho : l₀.object? c.id = some o) (hassignments : b.assignments c.id = 0) (e : Failure) :
    Ensures (play turns)
      (fun b' l' (out : Except Failure (Option TokenBundle)) => Beside c.id b l b' l' ∧
        out = .error e ∧ (e.transient = true → ∃ a,
          markRefreshFailed e ((turns c.id).stamps 0) c.attributes = .ok a ∧
          l'.objects = l₀.objects.map (hold c.id a)))
      b l (do
        if e.transient then
          assign c.id (markRefreshFailed e)
        throw e) := by
  split
  · refine ensures_bind (ensures_assign hl ho) ?_ ?_
    · rintro b₁ l₁ _ ⟨hbeside, -, hassigned⟩
      rw [hassignments] at hassigned
      exact ⟨hbeside, rfl, fun _ => ⟨_, rfl, hassigned.2⟩⟩
    · rintro b₁ l₁ e' ⟨-, -, hassigned⟩
      rw [hassignments] at hassigned
      cases hassigned.1
  · exact ⟨.refl .., rfl, fun h => absurd h ‹_›⟩

theorem ensures_refreshUnderLock (hl : l.objects = l₀.objects.map (hold c.id c.attributes))
    (ho : l₀.object? c.id = some o) (hexchanges : b.exchanges c.id = 0)
    (hassignments : b.assignments c.id = 0) :
    Ensures (play turns)
      (fun b' l' out => Beside c.id b l b' l' ∧
        (∀ token pair, settings.keys.decrypt c.attributes.refreshTokenEnc = .ok token →
          clientCredentials settings c.provider = .ok pair → Presented c.id token b b') ∧
        match granted settings (turns c.id) c with
        | .ok bundle => out = .ok (some bundle) ∧ b'.assignments c.id = 0 ∧
            l'.objects = l₀.objects.map (hold c.id c.attributes)
        | .error (.invalidGrant _) => out = .ok none ∧ ∃ a,
            markReconsent ((turns c.id).stamps 0) c.attributes = .ok a ∧
            l'.objects = l₀.objects.map (hold c.id a)
        | .error e => out = .error e ∧ (e.transient = true → ∃ a,
            markRefreshFailed e ((turns c.id).stamps 0) c.attributes = .ok a ∧
            l'.objects = l₀.objects.map (hold c.id a)))
      b l (refreshUnderLock settings c) := by
  refine ensures_attempt_bind (ensures_grantUnderLock hexchanges) ?_
  rintro b₁ l₁ outcome ⟨hbeside, hassigned, hobjects, rfl, hpresented⟩
  have hl₁ := hobjects.trans hl
  have hzero : b₁.assignments c.id = 0 := by rw [hassigned, hassignments]
  cases granted settings (turns c.id) c with
  | ok bundle => exact ⟨hbeside, hpresented, rfl, hzero, hl₁⟩
  | error e =>
      cases e with
      | invalidGrant message =>
          refine ensures_bind (ensures_assign hl₁ ho) ?_ ?_
          · rintro b₂ l₂ _ ⟨hbeside₂, -, hassigned₂⟩
            rw [hzero] at hassigned₂
            refine fun _ => ⟨(hbeside.trans hbeside₂).trans ?_, ?_, rfl, _, rfl, hassigned₂.2⟩
            · exact { Beside.refl c.id b₂ l₂ with pending := ⟨[_], rfl⟩ }
            · intro token pair htoken hpair
              exact (hpresented token pair htoken hpair).append hbeside₂.history
          · rintro b₂ l₂ e' ⟨-, -, hassigned₂⟩
            rw [hzero] at hassigned₂
            cases hassigned₂.1
      | _ =>
          refine Ensures.mono ?_ (ensures_refreshFailed hl₁ ho hzero _)
          rintro b₂ l₂ out ⟨hbeside₂, hout, hfailed⟩
          refine ⟨hbeside.trans hbeside₂, ?_, hout, hfailed⟩
          intro token pair htoken hpair
          exact (hpresented token pair htoken hpair).append hbeside₂.history

theorem ensures_assign_bind {α : Type} {value : Stamp → Attributes → Except Failure Attributes}
    {f : Unit → ConnectorProc α} {R : Progress → Session → Except Failure α → Prop}
    (hl : l.objects = l₀.objects.map (hold id a)) (ho : l₀.object? id = some o) {k : Nat}
    (hk : b.assignments id = k)
    (hok : ∀ a' b' l', value ((turns id).stamps k) a = .ok a' → Beside id b l b' l' →
      b'.assignments id = k + 1 → l'.objects = l₀.objects.map (hold id a') →
      Ensures (play turns) R b' l' (f ()))
    (herror : ∀ e b' l', value ((turns id).stamps k) a = .error e → Beside id b l b' l' →
      R b' l' (.error e)) :
    Ensures (play turns) R b l (assign id value >>= f) := by
  have hassign : Ensures (play turns) _ b l (assign id value) := ensures_assign hl ho
  rw [hk] at hassign
  cases hvalue : value ((turns id).stamps k) a with
  | ok a' =>
      rw [hvalue] at hassign
      refine ensures_bind hassign ?_ (by simp)
      rintro b' l' _ ⟨hbeside, hcount, -, hobjects⟩
      exact hok a' b' l' hvalue hbeside hcount hobjects
  | error e =>
      rw [hvalue] at hassign
      refine ensures_bind hassign (by simp) ?_
      rintro b' l' e' ⟨hbeside, -, he⟩
      cases he
      exact herror e b' l' hvalue hbeside

theorem ensures_applyTokenBundle (hl : l.objects = l₀.objects.map (hold id a))
    (ho : l₀.object? id = some o) (hassignments : b.assignments id = 0) (bundle : TokenBundle) :
    Ensures (play turns)
      (fun b' l' out => Beside id b l b' l' ∧
        match stored settings (turns id) bundle a with
        | .ok a' => out = .ok () ∧ l'.objects = l₀.objects.map (hold id a')
        | .error e => out = .error e)
      b l (applyTokenBundle settings id bundle) := by
  refine ensures_assign_bind hl ho hassignments ?_ ?_
  swap
  · intro e b₁ l₁ h₁ hb₁
    exact ⟨hb₁, by simp [stored, h₁, bind, Except.bind]⟩
  intro a₁ b₁ l₁ h₁ hb₁ hc₁ hl₁
  refine ensures_assign_bind hl₁ ho hc₁ ?_ ?_
  swap
  · intro e b₂ l₂ h₂ hb₂
    exact ⟨hb₁.trans hb₂, by simp [stored, h₁, h₂, bind, Except.bind]⟩
  intro a₂ b₂ l₂ h₂ hb₂ hc₂ hl₂
  refine ensures_assign_bind hl₂ ho hc₂ ?_ ?_
  swap
  · intro e b₃ l₃ h₃ hb₃
    exact ⟨(hb₁.trans hb₂).trans hb₃, by simp [stored, h₁, h₂, h₃, bind, Except.bind]⟩
  intro a₃ b₃ l₃ h₃ hb₃ hc₃ hl₃
  have hstored : stored settings (turns id) bundle a = markHealthy ((turns id).stamps 3) a₃ := by
    simp [stored, h₁, h₂, h₃, bind, Except.bind]
  refine Ensures.mono ?_ (ensures_assign hl₃ ho)
  rintro b₄ l₄ out ⟨hb₄, -, hassigned⟩
  rw [hc₃] at hassigned
  refine ⟨((hb₁.trans hb₂).trans hb₃).trans hb₄, ?_⟩
  rw [hstored]
  exact hassigned

theorem transient_of_stored {turn : Turn} {bundle : TokenBundle} {e : Failure}
    (h : stored settings turn bundle a = .error e) : e.transient = false := by
  simp only [stored, bind, Except.bind] at h
  split at h
  · rename_i e₁ hseal
    cases h
    simp only [sealAccessToken, encryptToken] at hseal
    split at hseal <;> cases hseal
    rfl
  split at h
  · rename_i e₂ hseal
    cases h
    simp only [sealRefreshToken, encryptToken] at hseal
    split at hseal
    · cases hseal
    · cases hseal
    · split at hseal <;> cases hseal
      rfl
  split at h
  · rename_i e₃ hstamp
    cases h
    simp only [stampExpiry, addSeconds] at hstamp
    split at hstamp <;> cases hstamp
    rfl
  · cases h

theorem ensures_acquireLock
    (hfree : b.world.liveLock? (turns id).lockedAt (.refresh id) = none) :
    Ensures (play turns)
      (fun b' l' out => Beside id b l b' l' ∧ l' = l ∧ b'.exchanges = b.exchanges ∧
        b'.assignments = b.assignments ∧ out = .ok (some (turns id).lockToken))
      b l (lockForRefresh id false) := by
  intro _
  simp only [play, serve, choiceFor, World.acquireLock, hfree, Progress.after]
  refine ⟨{ Beside.refl id b l with locks := fun x hx now => ?_ }, rfl, rfl, rfl, rfl⟩
  rw [World.liveLock?, List.find?_cons_of_neg]
  · exact liveLock?_filter b.world now (by simpa using hx)
  · simp [Ne.symm hx]

theorem ensures_readObject (hl : l.objects = l₀.objects.map (hold c.id c.attributes))
    (ho : l₀.object? c.id = some o) (hrow : o.row = c) :
    Ensures (play turns) (fun b' l' out => b' = b ∧ l' = l ∧ out = .ok c) b l
      (readObject c.id) := by
  refine ensures_same_bind ⟨rfl, rfl⟩ ?_
  simp only [play, serve, object?_of_hold hl ho, Option.map_some, Object.view, hrow]
  exact ⟨rfl, rfl, rfl⟩

theorem ensures_refreshConnection (hl : l.objects = l₀.objects.map (hold c.id c.attributes))
    (ho : l₀.object? c.id = some o) (hrow : o.row = c) (hexchanges : b.exchanges c.id = 0)
    (hassignments : b.assignments c.id = 0)
    (hfree : b.world.liveLock? (turns c.id).lockedAt (.refresh c.id) = none) :
    Ensures (play turns)
      (fun b' l' out => Beside c.id b l b' l' ∧
        (∀ token pair, settings.keys.decrypt c.attributes.refreshTokenEnc = .ok token →
          clientCredentials settings c.provider = .ok pair → Presented c.id token b b') ∧
        match refreshed settings (turns c.id) c with
        | .ok a => l'.objects = l₀.objects.map (hold c.id a) ∧
            ∀ e, out = .error e → e.transient = true
        | .error e => out = .error e ∧ e.transient = false)
      b l (refreshConnection settings c.id false) := by
  refine ensures_bind (ensures_acquireLock hfree) ?_ (by simp)
  rintro b₁ _ _ ⟨hb₁, rfl, hexchanges₁, hassignments₁, ⟨⟩⟩
  rw [← hexchanges₁] at hexchanges
  rw [← hassignments₁] at hassignments
  refine ensures_bind (ensures_readObject hl ho hrow) ?_ (by simp)
  rintro _ _ _ ⟨rfl, rfl, ⟨⟩⟩
  refine ensures_attempt_bind (ensures_refreshUnderLock hl ho hexchanges hassignments) ?_
  rintro b₂ l₂ outcome ⟨hb₂, hpresented, houtcome⟩
  refine ensures_bind (ensures_releaseLock _) ?_ (by simp)
  rintro b₃ l₃ _ ⟨hb₃, hassignments₃, hobjects₃, -⟩
  have hbeside := (hb₁.trans hb₂).trans hb₃
  have hpresented₃ : ∀ token pair,
      settings.keys.decrypt c.attributes.refreshTokenEnc = .ok token →
      clientCredentials settings c.provider = .ok pair → Presented c.id token b b₃ :=
    fun token pair htoken hpair => ((hpresented token pair htoken hpair).append hb₃.history).prepend
      hb₁.history
  unfold refreshed
  cases hgranted : granted settings (turns c.id) c with
  | ok bundle =>
      rw [hgranted] at houtcome
      obtain ⟨rfl, hassignments₂, hobjects₂⟩ := houtcome
      dsimp only
      have happly : Ensures (play turns) _ b₃ l₃ (applyTokenBundle settings c.id bundle) :=
        ensures_applyTokenBundle (hobjects₃.trans hobjects₂) ho (hassignments₃.trans hassignments₂)
          bundle
      cases hstored : stored settings (turns c.id) bundle c.attributes with
      | ok a =>
          rw [hstored] at happly
          refine ensures_bind happly ?_ (by simp)
          rintro b₄ l₄ _ ⟨hb₄, -, hobjects₄⟩
          refine ⟨hbeside.trans hb₄, ?_, hobjects₄, by simp⟩
          exact fun token pair htoken hpair => (hpresented₃ token pair htoken hpair).append hb₄.history
      | error e =>
          rw [hstored] at happly
          refine ensures_bind happly (by simp) ?_
          rintro b₄ l₄ _ ⟨hb₄, ⟨⟩⟩
          refine ⟨hbeside.trans hb₄, ?_, rfl, transient_of_stored hstored⟩
          exact fun token pair htoken hpair => (hpresented₃ token pair htoken hpair).append hb₄.history
  | error e =>
      rw [hgranted] at houtcome
      have hraised (e : Failure) (hfailed : e.transient = true → ∃ a,
          markRefreshFailed e ((turns c.id).stamps 0) c.attributes = .ok a ∧
          l₂.objects = l₀.objects.map (hold c.id a)) :
          match (if e.transient then markRefreshFailed e ((turns c.id).stamps 0) c.attributes
            else .error e) with
          | .ok a => l₃.objects = l₀.objects.map (hold c.id a) ∧
              ∀ e', (.error e : Except Failure Bool) = .error e' → e'.transient = true
          | .error e' => (.error e : Except Failure Bool) = .error e' ∧ e'.transient = false := by
        by_cases htransient : e.transient = true
        · obtain ⟨a, hmark, hobjects₂⟩ := hfailed htransient
          rw [if_pos htransient, hmark]
          refine ⟨hobjects₃.trans hobjects₂, fun e' he => ?_⟩
          cases he
          exact htransient
        · rw [if_neg htransient]
          exact ⟨rfl, by simpa using htransient⟩
      cases e with
      | invalidGrant message =>
          obtain ⟨rfl, a, hmark, hobjects₂⟩ := houtcome
          dsimp only
          rw [hmark]
          exact ⟨hbeside, hpresented₃, hobjects₃.trans hobjects₂, by simp⟩
      | _ =>
          obtain ⟨rfl, hfailed⟩ := houtcome
          exact ⟨hbeside, hpresented₃, hraised _ hfailed⟩

theorem ensures_countRefresh (hl : l.objects = l₀.objects.map (hold c.id c.attributes))
    (ho : l₀.object? c.id = some o) (hrow : o.row = c) (hexchanges : b.exchanges c.id = 0)
    (hassignments : b.assignments c.id = 0)
    (hfree : b.world.liveLock? (turns c.id).lockedAt (.refresh c.id) = none)
    (report : RefreshReport) :
    Ensures (play turns)
      (fun b' l' out => Beside c.id b l b' l' ∧
        (∀ token pair, settings.keys.decrypt c.attributes.refreshTokenEnc = .ok token →
          clientCredentials settings c.provider = .ok pair → Presented c.id token b b') ∧
        match refreshed settings (turns c.id) c with
        | .ok a => l'.objects = l₀.objects.map (hold c.id a) ∧ ∃ report', out = .ok report'
        | .error e => out = .error e)
      b l (countRefresh settings c.id report) := by
  refine ensures_attempt_bind
    (ensures_refreshConnection hl ho hrow hexchanges hassignments hfree) ?_
  rintro b₁ l₁ outcome ⟨hbeside, hpresented, houtcome⟩
  cases hrefreshed : refreshed settings (turns c.id) c with
  | ok a =>
      rw [hrefreshed] at houtcome
      obtain ⟨hobjects, hcaught⟩ := houtcome
      rcases outcome with e | skipped | refreshed
      · dsimp only
        rw [if_pos (hcaught e rfl)]
        exact ⟨hbeside, hpresented, hobjects, _, rfl⟩
      · exact ⟨hbeside, hpresented, hobjects, _, rfl⟩
      · exact ⟨hbeside, hpresented, hobjects, _, rfl⟩
  | error e =>
      rw [hrefreshed] at houtcome
      obtain ⟨rfl, hescapes⟩ := houtcome
      dsimp only
      rw [if_neg (by simp [hescapes])]
      exact ⟨hbeside, hpresented, rfl⟩

end Turn

/-- The row of a connection takes the attributes held in memory. -/
def settle (id : Nat) (a : Attributes) (row : Connection) : Connection :=
  if row.id = id then { row with attributes := a } else row

@[simp] theorem settle_id (id : Nat) (a : Attributes) (row : Connection) :
    (settle id a row).id = row.id := by
  unfold settle
  split <;> rfl

theorem settle_attributes {id : Nat} {row : Connection} (a : Attributes) (h : row.id = id) :
    (settle id a row).attributes = a := by
  rw [settle, if_pos h]

/-- What a session has in memory of one dirty connection, and of clean ones. -/
structure OneDirty (id : Nat) (a a' : Attributes) (objects : List Object) : Prop where
  stored : ∀ o ∈ objects, o.isNew = false
  dirty : ∀ o ∈ objects, o.row.id = id → o.row.attributes = a ∧ o.current = a'
  clean : ∀ o ∈ objects, o.row.id ≠ id → o.current = o.row.attributes

theorem write_current (loaded current : Attributes) :
    Attributes.write loaded current current = current := by
  simp [Attributes.write, column]

theorem map_settle_of_settled {id : Nat} {a : Attributes} {rows : List Connection}
    (h : ∀ row ∈ rows, row.id = id → row.attributes = a) : rows.map (settle id a) = rows := by
  conv_rhs => rw [← List.map_id rows]
  refine List.map_congr_left fun row hrow => ?_
  unfold settle
  split
  · rename_i hid
    rw [← h row hrow hid]
    rfl
  · rfl

theorem writeObjects_settles {id : Nat} {a a' : Attributes} {objects : List Object} {t : Tables}
    (hobjects : OneDirty id a a' objects) (hhas : t.hasConnection id = true)
    (hrows : ∀ row ∈ t.connections, row.id = id → row.attributes = a ∨ row.attributes = a')
    (hdone : (∃ o ∈ objects, o.row.id = id) ∨
      ∀ row ∈ t.connections, row.id = id → row.attributes = a') :
    t.writeObjects objects =
      .ok { t with connections := t.connections.map (settle id a') } := by
  induction objects generalizing t with
  | nil =>
      rcases hdone with ⟨o, ho, -⟩ | hdone
      · cases ho
      · rw [map_settle_of_settled hdone]
        rfl
  | cons o rest ih =>
      have hrest : OneDirty id a a' rest :=
        ⟨fun o ho => hobjects.stored o (List.mem_cons_of_mem _ ho),
          fun o ho => hobjects.dirty o (List.mem_cons_of_mem _ ho),
          fun o ho => hobjects.clean o (List.mem_cons_of_mem _ ho)⟩
      have hnew := hobjects.stored o List.mem_cons_self
      simp only [Tables.writeObjects, Tables.writeObject, hnew]
      by_cases hid : o.row.id = id
      · obtain ⟨hloaded, hcurrent⟩ := hobjects.dirty o List.mem_cons_self hid
        rw [hloaded, hcurrent, hid]
        simp only [Bool.false_eq_true, if_false]
        by_cases hsame : a' = a
        · rw [if_pos hsame]
          refine ih hrest hhas hrows (.inr fun row hrow hrid => ?_)
          rcases hrows row hrow hrid with h | h
          · rw [h, hsame]
          · exact h
        · rw [if_neg hsame, if_pos hhas]
          have hwritten : (t.connections.map fun x => if x.id = id then
              { x with attributes := Attributes.write a a' x.attributes } else x) =
              t.connections.map (settle id a') := by
            refine List.map_congr_left fun row hrow => ?_
            unfold settle
            split
            · rename_i hrid
              rcases hrows row hrow hrid with h | h
              · rw [h, Attributes.write_loaded]
              · rw [h, write_current]
            · rfl
          have hsettled : ∀ row ∈ t.connections.map (settle id a'), row.id = id →
              row.attributes = a' := by
            intro row hrow hrid
            obtain ⟨x, -, rfl⟩ := List.mem_map.mp hrow
            exact settle_attributes a' ((settle_id id a' x).symm.trans hrid)
          have hstill : ({ t with connections := t.connections.map (settle id a') }
              : Tables).hasConnection id = true := by
            obtain ⟨row, hrow, hrid⟩ := List.any_eq_true.mp hhas
            exact List.any_eq_true.mpr ⟨_, List.mem_map_of_mem hrow, by rwa [settle_id]⟩
          dsimp only
          rw [hwritten, ih hrest hstill (fun row hrow hrid => .inr (hsettled row hrow hrid))
            (.inr hsettled), map_settle_of_settled hsettled]
      · have hclean := hobjects.clean o List.mem_cons_self hid
        rw [hclean]
        simp only [Bool.false_eq_true, if_false, if_true]
        refine ih hrest hhas hrows ?_
        rcases hdone with ⟨x, hx, hxid⟩ | hdone
        · rcases List.mem_cons.mp hx with rfl | hx
          · exact absurd hxid hid
          · exact .inl ⟨x, hx, hxid⟩
        · exact .inr hdone

theorem applyAll_auditEvents (t : Tables) (events : List AuditEvent) :
    t.applyAll (events.map .addAuditEvent) = .ok { t with directory := { t.directory with
      auditEvents := t.directory.auditEvents ++ events } } := by
  induction events generalizing t with
  | nil => simp [Tables.applyAll]
  | cons e rest ih =>
      simp only [List.map_cons, Tables.applyAll, Tables.apply]
      rw [ih]
      simp

/-- The connections of a tenant that wait for their turn: loaded as they are
stored, beside clean objects only, with free locks and their environments
unused. -/
structure Waiting (turns : Nat → Turn) (b : Progress) (l : Session) (cs : List Connection) :
    Prop where
  keys : (b.world.tables.connections.map (·.id)).Nodup
  distinct : (cs.map (·.id)).Nodup
  rows : ∀ c ∈ cs, c ∈ b.world.tables.connections
  stored : ∀ o ∈ l.objects, o.isNew = false
  clean : ∀ o ∈ l.objects, o.current = o.row.attributes
  loaded : ∀ c ∈ cs, ∃ o ∈ l.objects, o.row.id = c.id
  same : ∀ c ∈ cs, ∀ o ∈ l.objects, o.row.id = c.id → o.row = c
  pending : l.pending = []
  free : ∀ c ∈ cs, b.world.liveLock? (turns c.id).lockedAt (.refresh c.id) = none
  fresh : ∀ c ∈ cs, b.exchanges c.id = 0 ∧ b.assignments c.id = 0

/-- What the turns of some connections leave alone. -/
structure Outside (ids : List Nat) (b b' : Progress) : Prop where
  locks : ∀ x, x ∉ ids → ∀ now,
    b'.world.liveLock? now (.refresh x) = b.world.liveLock? now (.refresh x)
  exchanges : ∀ x, x ∉ ids → b'.exchanges x = b.exchanges x
  assignments : ∀ x, x ∉ ids → b'.assignments x = b.assignments x
  history : ∃ new, b'.world.history = b.world.history ++ new

theorem Outside.refl (ids : List Nat) (b : Progress) : Outside ids b b where
  locks _ _ _ := rfl
  exchanges _ _ := rfl
  assignments _ _ := rfl
  history := ⟨[], by simp⟩

theorem Outside.trans {ids ids' : List Nat} {b₁ b₂ b₃ : Progress} (h : Outside ids b₁ b₂)
    (h' : Outside ids' b₂ b₃) : Outside (ids ++ ids') b₁ b₃ where
  locks x hx now := by
    obtain ⟨h₁, h₂⟩ := not_or.mp (mt List.mem_append.mpr hx)
    exact (h'.locks x h₂ now).trans (h.locks x h₁ now)
  exchanges x hx := by
    obtain ⟨h₁, h₂⟩ := not_or.mp (mt List.mem_append.mpr hx)
    exact (h'.exchanges x h₂).trans (h.exchanges x h₁)
  assignments x hx := by
    obtain ⟨h₁, h₂⟩ := not_or.mp (mt List.mem_append.mpr hx)
    exact (h'.assignments x h₂).trans (h.assignments x h₁)
  history := by
    obtain ⟨new, hnew⟩ := h.history
    obtain ⟨more, hmore⟩ := h'.history
    exact ⟨new ++ more, by rw [hmore, hnew, List.append_assoc]⟩

section Loops

variable {settings : Settings} {turns : Nat → Turn} {b b₀ : Progress} {l l₀ : Session}
variable {c : Connection} {cs : List Connection} {a : Attributes}

theorem Waiting.object (hw : Waiting turns b l (c :: cs)) :
    ∃ o, l.object? c.id = some o ∧ o.row = c := by
  obtain ⟨x, hx, hid⟩ := hw.loaded c List.mem_cons_self
  cases hfound : l.object? c.id with
  | none => exact absurd hid (by simpa using List.find?_eq_none.mp hfound x hx)
  | some o =>
      obtain ⟨ho, hoid⟩ := mem_of_object? hfound
      exact ⟨o, rfl, hw.same c List.mem_cons_self o ho hoid⟩

theorem Waiting.hold_self (hw : Waiting turns b l (c :: cs)) :
    l.objects = l.objects.map (hold c.id c.attributes) := by
  conv_lhs => rw [← List.map_id l.objects]
  refine List.map_congr_left fun o ho => ?_
  unfold hold
  split
  · rename_i hid
    rw [← hw.same c List.mem_cons_self o ho hid, ← hw.clean o ho]
    rfl
  · rfl

theorem Waiting.tail (hw : Waiting turns b l (c :: cs)) : Waiting turns b l cs where
  keys := hw.keys
  distinct := (List.nodup_cons.mp hw.distinct).2
  rows x hx := hw.rows x (List.mem_cons_of_mem _ hx)
  stored := hw.stored
  clean := hw.clean
  loaded x hx := hw.loaded x (List.mem_cons_of_mem _ hx)
  same x hx := hw.same x (List.mem_cons_of_mem _ hx)
  pending := hw.pending
  free x hx := hw.free x (List.mem_cons_of_mem _ hx)
  fresh x hx := hw.fresh x (List.mem_cons_of_mem _ hx)

theorem Waiting.ne_of_mem (hw : Waiting turns b l (c :: cs)) {x : Connection} (hx : x ∈ cs) :
    x.id ≠ c.id := by
  intro heq
  have hmem : x.id ∈ cs.map (·.id) := List.mem_map_of_mem hx
  rw [heq] at hmem
  exact (List.nodup_cons.mp hw.distinct).1 hmem

@[simp] theorem hold_row (id : Nat) (a : Attributes) (o : Object) : (hold id a o).row = o.row := by
  unfold hold
  split <;> rfl

theorem Waiting.oneDirty (hw : Waiting turns b l (c :: cs)) (a : Attributes) :
    OneDirty c.id c.attributes a (l.objects.map (hold c.id a)) where
  stored x hx := by
    obtain ⟨o, ho, rfl⟩ := List.mem_map.mp hx
    have hstored := hw.stored o ho
    unfold hold
    split <;> exact hstored
  dirty x hx hid := by
    obtain ⟨o, ho, rfl⟩ := List.mem_map.mp hx
    rw [hold_row] at hid
    rw [hold_row, hw.same c List.mem_cons_self o ho hid, hold, if_pos hid]
    exact ⟨rfl, rfl⟩
  clean x hx hid := by
    obtain ⟨o, ho, rfl⟩ := List.mem_map.mp hx
    rw [hold_row] at hid
    rw [hold, if_neg hid]
    exact hw.clean o ho

theorem ensures_commit (hw : Waiting turns b₀ l₀ (c :: cs)) (hbeside : Beside c.id b₀ l₀ b l)
    (hl : l.objects = l₀.objects.map (hold c.id a)) :
    Ensures (play turns)
      (fun b' l' out => out = .ok () ∧ Waiting turns b' l' cs ∧ Outside [c.id] b₀ b' ∧
        b'.world.tables.connections = b₀.world.tables.connections.map (settle c.id a) ∧
        ∃ new, b'.world.history = b.world.history ++ new)
      b l ConnectorService.commit := by
  obtain ⟨events, hevents⟩ := hbeside.pending
  rw [hw.pending, List.nil_append] at hevents
  have hcommit : b.world.tables.commit l.objects l.pending = .ok { b₀.world.tables with
      connections := b₀.world.tables.connections.map (settle c.id a)
      directory := { b₀.world.tables.directory with
        auditEvents := b₀.world.tables.directory.auditEvents ++ events } } := by
    have hrow := hw.rows c List.mem_cons_self
    have hhas : b₀.world.tables.hasConnection c.id = true :=
      List.any_eq_true.mpr ⟨c, hrow, beq_self_eq_true _⟩
    have hrows : ∀ row ∈ b₀.world.tables.connections, row.id = c.id →
        row.attributes = c.attributes ∨ row.attributes = a := by
      intro row hmem hid
      rw [List.inj_on_of_nodup_map hw.keys hmem hrow hid]
      exact .inl rfl
    have hloaded : ∃ o ∈ l₀.objects.map (hold c.id a), o.row.id = c.id := by
      obtain ⟨o, ho, hid⟩ := hw.loaded c List.mem_cons_self
      exact ⟨_, List.mem_map_of_mem ho, by rwa [hold_row]⟩
    rw [hbeside.tables, hl, hevents, Tables.commit,
      writeObjects_settles (hw.oneDirty a) hhas hrows (.inl hloaded)]
    exact applyAll_auditEvents _ events
  refine ensures_request_bind.mpr fun _ => ?_
  simp only [play, serve, World.commit, hcommit, Progress.after]
  obtain ⟨new, hnew⟩ := hbeside.history
  refine ⟨rfl, ?_, ?_, rfl, ⟨_, rfl⟩⟩
  · have hsaved : ∀ x ∈ l.objects.map Object.saved, ∃ o ∈ l₀.objects,
        x = (hold c.id a o).saved := by
      intro x hx
      rw [hl, List.map_map] at hx
      obtain ⟨o, ho, rfl⟩ := List.mem_map.mp hx
      exact ⟨o, ho, rfl⟩
    constructor
    · show ((b₀.world.tables.connections.map (settle c.id a)).map (·.id)).Nodup
      simpa [Function.comp_def] using hw.keys
    · exact (List.nodup_cons.mp hw.distinct).2
    · intro x hx
      refine List.mem_map.mpr ⟨x, hw.rows x (List.mem_cons_of_mem _ hx), ?_⟩
      rw [settle, if_neg (hw.ne_of_mem hx)]
    · intro x hx
      obtain ⟨o, -, rfl⟩ := hsaved x hx
      rfl
    · intro x hx
      obtain ⟨o, -, rfl⟩ := hsaved x hx
      rfl
    · intro x hx
      obtain ⟨o, ho, hid⟩ := hw.loaded x (List.mem_cons_of_mem _ hx)
      refine ⟨(hold c.id a o).saved, ?_, ?_⟩
      · show _ ∈ l.objects.map Object.saved
        rw [hl, List.map_map]
        exact List.mem_map_of_mem ho
      · show (hold c.id a o).row.id = x.id
        rwa [hold_row]
    · intro x hx y hy hid
      obtain ⟨o, ho, rfl⟩ := hsaved y hy
      have hoid : o.row.id = x.id := by
        rw [← hid]
        show o.row.id = (hold c.id a o).row.id
        rw [hold_row]
      rw [hold, if_neg (hoid ▸ hw.ne_of_mem hx)]
      show o.view = x
      rw [Object.view, hw.clean o ho]
      exact hw.same x (List.mem_cons_of_mem _ hx) o ho hoid
    · rfl
    · intro x hx
      exact (hbeside.locks x.id (hw.ne_of_mem hx) _).trans (hw.free x (List.mem_cons_of_mem _ hx))
    · intro x hx
      obtain ⟨hexchanges, hassignments⟩ := hw.fresh x (List.mem_cons_of_mem _ hx)
      exact ⟨(hbeside.exchanges x.id (hw.ne_of_mem hx)).trans hexchanges,
        (hbeside.assignments x.id (hw.ne_of_mem hx)).trans hassignments⟩
  · constructor
    · exact fun x hx => hbeside.locks x (by simpa using hx)
    · exact fun x hx => hbeside.exchanges x (by simpa using hx)
    · exact fun x hx => hbeside.assignments x (by simpa using hx)
    · exact ⟨new ++ l.objects.flatMap Object.trace, by simp [hnew]⟩

end Loops

/-- The rows once some connections have had their turn. -/
def settled (settings : Settings) (turns : Nat → Turn) (ids : List Nat) (row : Connection) :
    Connection :=
  if row.id ∈ ids then outcome settings (turns row.id) row else row

/-- The turns of some connections, each with its own outcome. -/
structure TurnsTaken (settings : Settings) (turns : Nat → Turn) (cs : List Connection)
    (b b' : Progress) : Prop where
  outside : Outside (cs.map (·.id)) b b'
  connections : b'.world.tables.connections =
    b.world.tables.connections.map (settled settings turns (cs.map (·.id)))
  presented : ∀ c ∈ cs, Expiring settings (turns c.id) c → ∀ token pair,
    settings.keys.decrypt c.attributes.refreshTokenEnc = .ok token →
    clientCredentials settings c.provider = .ok pair → Presented c.id token b b'

/-- No turn of these connections raises an exception that the beat does not
catch. -/
def AllSurvive (settings : Settings) (turns : Nat → Turn) (cs : List Connection) : Prop :=
  ∀ c ∈ cs, Expiring settings (turns c.id) c → ∃ a, refreshed settings (turns c.id) c = .ok a

/-- How a loop over connections ends: with the turns of all of them, or with an
exception. -/
def Ends {α : Type} (settings : Settings) (turns : Nat → Turn) (cs : List Connection)
    (b b' : Progress) (out : Except Failure α) : Prop :=
  (AllSurvive settings turns cs → (∃ r, out = .ok r) ∧ TurnsTaken settings turns cs b b') ∧
    (¬ AllSurvive settings turns cs → ∃ e, out = .error e)

section Loops

variable {settings : Settings} {turns : Nat → Turn} {b b₁ b₂ : Progress} {l : Session}
variable {c : Connection} {cs cs' : List Connection}

theorem ends_ok {α : Type} (hsurvive : AllSurvive settings turns cs)
    (htaken : TurnsTaken settings turns cs b b₁) (r : α) :
    Ends settings turns cs b b₁ (.ok r) :=
  ⟨fun _ => ⟨⟨r, rfl⟩, htaken⟩, fun h => absurd hsurvive h⟩

theorem ends_error {α : Type} (hescapes : ¬ AllSurvive settings turns cs) (e : Failure) :
    Ends settings turns cs b b₁ (.error e : Except Failure α) :=
  ⟨fun h => absurd h hescapes, fun _ => ⟨e, rfl⟩⟩

theorem Ends.of_ok {α : Type} {r : α} (h : Ends settings turns cs b b₁ (.ok r)) :
    AllSurvive settings turns cs ∧ TurnsTaken settings turns cs b b₁ := by
  by_cases hsurvive : AllSurvive settings turns cs
  · exact ⟨hsurvive, (h.1 hsurvive).2⟩
  · obtain ⟨e, he⟩ := h.2 hsurvive
    cases he

theorem Ends.of_error {α : Type} {e : Failure}
    (h : Ends settings turns cs b b₁ (.error e : Except Failure α)) :
    ¬ AllSurvive settings turns cs := by
  intro hsurvive
  obtain ⟨⟨r, hr⟩, -⟩ := h.1 hsurvive
  cases hr

theorem allSurvive_append :
    AllSurvive settings turns (cs ++ cs') ↔
      AllSurvive settings turns cs ∧ AllSurvive settings turns cs' := by
  simp only [AllSurvive, List.mem_append, or_imp, forall_and]

theorem AllSurvive.congr (h : AllSurvive settings turns cs) (hmem : ∀ c, c ∈ cs ↔ c ∈ cs') :
    AllSurvive settings turns cs' := fun c hc => h c ((hmem c).mpr hc)

@[simp] theorem outcome_id (settings : Settings) (turn : Turn) (c : Connection) :
    (outcome settings turn c).id = c.id := by
  unfold outcome
  split
  · split <;> rfl
  · rfl

@[simp] theorem settled_id (ids : List Nat) (row : Connection) :
    (settled settings turns ids row).id = row.id := by
  unfold settled
  split
  · exact outcome_id ..
  · rfl

theorem settled_nil : settled settings turns [] = id := by
  funext row
  simp [settled]

theorem settled_settled {ids ids' : List Nat} (hdisjoint : ids.Disjoint ids') (row : Connection) :
    settled settings turns ids' (settled settings turns ids row) =
      settled settings turns (ids ++ ids') row := by
  by_cases hfirst : row.id ∈ ids
  · have hlater : row.id ∉ ids' := fun h => hdisjoint hfirst h
    simp [settled, hfirst, hlater]
  · simp [settled, hfirst]

theorem TurnsTaken.append (h : TurnsTaken settings turns cs b b₁)
    (h' : TurnsTaken settings turns cs' b₁ b₂)
    (hdisjoint : (cs.map (·.id)).Disjoint (cs'.map (·.id))) :
    TurnsTaken settings turns (cs ++ cs') b b₂ where
  outside := by
    rw [List.map_append]
    exact h.outside.trans h'.outside
  connections := by
    rw [h'.connections, h.connections, List.map_map, List.map_append]
    exact List.map_congr_left fun row _ => settled_settled hdisjoint row
  presented c hc hexpiring token pair htoken hpair := by
    rcases List.mem_append.mp hc with hc | hc
    · exact (h.presented c hc hexpiring token pair htoken hpair).append h'.outside.history
    · exact (h'.presented c hc hexpiring token pair htoken hpair).prepend h.outside.history

theorem Waiting.settled_eq (hw : Waiting turns b l (c :: cs)) {row : Connection}
    (hrow : row ∈ b.world.tables.connections) :
    settled settings turns [c.id] row =
      if row.id = c.id then outcome settings (turns c.id) c else row := by
  simp only [settled, List.mem_singleton]
  split
  · rename_i hid
    rw [List.inj_on_of_nodup_map hw.keys hrow (hw.rows c List.mem_cons_self) hid]
  · rfl

theorem Waiting.turnsTaken_of_not_expiring (hw : Waiting turns b l (c :: cs))
    (hexpiring : ¬ Expiring settings (turns c.id) c) : TurnsTaken settings turns [c] b b where
  outside := .refl ..
  connections := by
    conv_lhs => rw [← List.map_id b.world.tables.connections]
    refine List.map_congr_left fun row hrow => ?_
    rw [List.map_singleton, hw.settled_eq hrow, outcome, if_neg hexpiring]
    split
    · rename_i hid
      exact List.inj_on_of_nodup_map hw.keys hrow (hw.rows c List.mem_cons_self) hid
    · rfl
  presented x hx h := by
    rw [List.mem_singleton.mp hx] at h
    exact absurd h hexpiring

theorem Waiting.turnsTaken_of_settle (hw : Waiting turns b l (c :: cs)) {a : Attributes}
    (hexpiring : Expiring settings (turns c.id) c)
    (hrefreshed : refreshed settings (turns c.id) c = .ok a) (houtside : Outside [c.id] b b₁)
    (hconnections : b₁.world.tables.connections =
      b.world.tables.connections.map (settle c.id a))
    (hpresented : ∀ token pair, settings.keys.decrypt c.attributes.refreshTokenEnc = .ok token →
      clientCredentials settings c.provider = .ok pair → Presented c.id token b b₁) :
    TurnsTaken settings turns [c] b b₁ where
  outside := houtside
  connections := by
    rw [hconnections]
    refine List.map_congr_left fun row hrow => ?_
    rw [List.map_singleton, hw.settled_eq hrow, outcome, if_pos hexpiring, hrefreshed, settle]
    split
    · rename_i hid
      rw [List.inj_on_of_nodup_map hw.keys hrow (hw.rows c List.mem_cons_self) hid]
    · rfl
  presented x hx _ := by
    rw [List.mem_singleton.mp hx]
    exact hpresented

theorem ensures_expiring_bind {α : Type} {R : Progress → Session → Except Failure α → Prop}
    {f : Bool → ConnectorProc α} (hw : Waiting turns b l (c :: cs))
    (hf : Ensures (play turns) R b l (f (decide (Expiring settings (turns c.id) c)))) :
    Ensures (play turns) R b l (ask (.expiring c.id (refreshLead settings)) >>= f) := by
  obtain ⟨o, ho, hrow⟩ := hw.object
  have hclean := hw.clean o (mem_of_object? ho).1
  refine ensures_same_bind ⟨rfl, rfl⟩ ?_
  simp only [play, serve, choiceFor, ho, Option.any_some, hclean, hrow]
  exact hf

theorem ensures_refreshEach (hw : Waiting turns b l cs) (report : RefreshReport) :
    Ensures (play turns) (fun b' _ out => Ends settings turns cs b b' out) b l
      (refreshEach settings (refreshLead settings) (cs.map (·.id)) report) := by
  induction cs generalizing b l report with
  | nil =>
      refine ends_ok (fun _ h => by cases h) ⟨.refl .., ?_, by simp⟩ _
      rw [List.map_nil, settled_nil, List.map_id]
  | cons c cs ih =>
      have hdisjoint : ([c].map (·.id)).Disjoint (cs.map (·.id)) := by
        simpa using (List.nodup_cons.mp hw.distinct).1
      have hrest {b₁ b₂ : Progress} {out : Except Failure RefreshReport}
          (hsurvives : AllSurvive settings turns [c]) (htaken : TurnsTaken settings turns [c] b b₁)
          (hends : Ends settings turns cs b₁ b₂ out) : Ends settings turns (c :: cs) b b₂ out := by
        cases out with
        | ok r =>
            obtain ⟨hrest, htakenRest⟩ := hends.of_ok
            exact ends_ok (allSurvive_append.mpr ⟨hsurvives, hrest⟩)
              (htaken.append htakenRest hdisjoint) r
        | error e =>
            exact ends_error (fun h => hends.of_error fun x hx => h x (List.mem_cons_of_mem _ hx)) e
      refine ensures_expiring_bind hw ?_
      by_cases hexpiring : Expiring settings (turns c.id) c
      · rw [decide_eq_true hexpiring, if_pos rfl]
        obtain ⟨o, ho, hrow⟩ := hw.object
        obtain ⟨hexchanges, hassignments⟩ := hw.fresh c List.mem_cons_self
        have hturn : Ensures (play turns) _ b l (countRefresh settings c.id report) :=
          ensures_countRefresh hw.hold_self ho hrow hexchanges hassignments
            (hw.free c List.mem_cons_self) report
        cases hrefreshed : refreshed settings (turns c.id) c with
        | error e =>
            rw [hrefreshed] at hturn
            refine ensures_bind hturn (by simp) ?_
            rintro b₁ l₁ e₁ -
            refine ends_error (fun hsurvive => ?_) e₁
            obtain ⟨a, ha⟩ := hsurvive c List.mem_cons_self hexpiring
            rw [hrefreshed] at ha
            cases ha
        | ok a =>
            rw [hrefreshed] at hturn
            refine ensures_bind hturn ?_ (by simp)
            rintro b₁ l₁ report₁ ⟨hbeside, hpresented, hobjects, -⟩
            refine ensures_bind (ensures_commit hw hbeside hobjects) ?_ (by simp)
            rintro b₂ l₂ _ ⟨-, hwaiting, houtside, hconnections, hmore⟩
            have htaken := hw.turnsTaken_of_settle hexpiring hrefreshed houtside hconnections
              fun token pair htoken hpair => (hpresented token pair htoken hpair).append hmore
            refine Ensures.mono (fun b' l' out hends => hrest ?_ htaken hends) (ih hwaiting report₁)
            intro x hx _
            rw [List.mem_singleton.mp hx]
            exact ⟨a, hrefreshed⟩
      · rw [decide_eq_false hexpiring, if_neg (by simp)]
        refine Ensures.mono (fun b' l' out hends => hrest ?_
          (hw.turnsTaken_of_not_expiring hexpiring) hends) (ih hw.tail report)
        intro x hx hxexpiring
        rw [List.mem_singleton.mp hx] at hxexpiring
        exact absurd hxexpiring hexpiring

end Loops

/-- The active connections of some tenants. -/
def activeOf (tenantIds : List Nat) (rows : List Connection) : List Connection :=
  rows.filter fun c => tenantIds.contains c.tenantId && c.attributes.status == .active

theorem mem_activeOf {tenantIds : List Nat} {rows : List Connection} {c : Connection} :
    c ∈ activeOf tenantIds rows ↔
      c ∈ rows ∧ c.tenantId ∈ tenantIds ∧ c.attributes.status = .active := by
  simp [activeOf]

/-- Some tenants wait for the beat. -/
structure Ready (turns : Nat → Turn) (b : Progress) (tenantIds : List Nat) : Prop where
  keys : (b.world.tables.connections.map (·.id)).Nodup
  free : ∀ c ∈ activeOf tenantIds b.world.tables.connections,
    b.world.liveLock? (turns c.id).lockedAt (.refresh c.id) = none
  fresh : ∀ c ∈ activeOf tenantIds b.world.tables.connections,
    b.exchanges c.id = 0 ∧ b.assignments c.id = 0

section Tenants

variable {settings : Settings} {turns : Nat → Turn} {b b₁ : Progress} {l : Session}
variable {cs cs' : List Connection}

theorem load_loads (l : Session) (mark : Nat) (row : Connection) :
    ∃ o ∈ (l.load mark row).objects, o.row.id = row.id := by
  unfold Session.load
  split
  · rename_i o ho
    obtain ⟨hmem, hid⟩ := mem_of_object? ho
    exact ⟨o, hmem, hid⟩
  · exact ⟨_, List.mem_cons_self, rfl⟩

theorem mem_loadAll_of_mem {l : Session} {mark : Nat} {rows : List Connection} {o : Object}
    (h : o ∈ l.objects) : o ∈ (Session.loadAll mark l rows).objects := by
  induction rows generalizing l with
  | nil => exact h
  | cons row rest ih =>
      refine ih ?_
      unfold Session.load
      split
      · exact h
      · exact List.mem_cons_of_mem _ h

theorem loadAll_loads (l : Session) (mark : Nat) {rows : List Connection} {row : Connection}
    (hrow : row ∈ rows) : ∃ o ∈ (Session.loadAll mark l rows).objects, o.row.id = row.id := by
  induction rows generalizing l with
  | nil => cases hrow
  | cons first rest ih =>
      rcases List.mem_cons.mp hrow with rfl | hrow
      · obtain ⟨o, ho, hid⟩ := load_loads l mark row
        have hkept : o ∈ (Session.loadAll mark (l.load mark row) rest).objects :=
          mem_loadAll_of_mem ho
        exact ⟨o, hkept, hid⟩
      · exact ih _ hrow

theorem Ready.waiting {tenantId mark : Nat} (h : Ready turns b [tenantId])
    (hobjects : l.objects = []) (hpending : l.pending = []) :
    Waiting turns b
      (Session.loadAll mark l (activeOf [tenantId] b.world.tables.connections))
      (activeOf [tenantId] b.world.tables.connections) := by
  have hloaded : ∀ o ∈ (Session.loadAll mark l
      (activeOf [tenantId] b.world.tables.connections)).objects,
      ∃ row ∈ activeOf [tenantId] b.world.tables.connections, o = Object.ofRow mark row := by
    intro o ho
    rcases mem_loadAll ho with hold | hrow
    · rw [hobjects] at hold
      cases hold
    · exact hrow
  constructor
  · exact h.keys
  · exact h.keys.sublist (List.filter_sublist.map _)
  · exact fun c hc => (mem_activeOf.mp hc).1
  · intro o ho
    obtain ⟨row, -, rfl⟩ := hloaded o ho
    rfl
  · intro o ho
    obtain ⟨row, -, rfl⟩ := hloaded o ho
    rfl
  · exact fun c hc => loadAll_loads l mark hc
  · intro c hc o ho hid
    obtain ⟨row, hrow, rfl⟩ := hloaded o ho
    exact List.inj_on_of_nodup_map h.keys (mem_activeOf.mp hrow).1 (mem_activeOf.mp hc).1 hid
  · rw [loadAll_pending, hpending]
  · exact h.free
  · exact h.fresh

theorem ensures_refreshTenant {tenant : Tenant} (h : Ready turns b [tenant.id]) :
    Ensures (play turns)
      (fun b' _ out => Ends settings turns (activeOf [tenant.id] b.world.tables.connections) b b'
        out)
      b l (refreshTenant settings (refreshLead settings) tenant) := by
  refine ensures_request_bind.mpr fun _ => ensures_request_bind.mpr fun _ => ?_
  have hselected : (b.world.tables.connections.filter fun c =>
      c.tenantId == tenant.id && c.attributes.status == .active) =
      activeOf [tenant.id] b.world.tables.connections := by
    simp only [activeOf, List.contains_cons, List.contains_nil, Bool.or_false]
  simp only [play, serve, Progress.after, hselected]
  refine ensures_bind (ensures_refreshEach (h.waiting rfl rfl) _) ?_ ?_
  · intro b' l' report hends
    obtain ⟨hsurvive, htaken⟩ := hends.of_ok
    exact ends_ok hsurvive htaken _
  · intro b' l' e hends
    exact ends_error hends.of_error e

theorem TurnsTaken.congr (h : TurnsTaken settings turns cs b b₁)
    (hmem : ∀ c, c ∈ cs ↔ c ∈ cs') : TurnsTaken settings turns cs' b b₁ := by
  have hids (x : Nat) : x ∈ cs.map (·.id) ↔ x ∈ cs'.map (·.id) := by
    simp only [List.mem_map, hmem]
  constructor
  · constructor
    · exact fun x hx => h.outside.locks x (mt (hids x).mp hx)
    · exact fun x hx => h.outside.exchanges x (mt (hids x).mp hx)
    · exact fun x hx => h.outside.assignments x (mt (hids x).mp hx)
    · exact h.outside.history
  · rw [h.connections]
    refine List.map_congr_left fun row _ => ?_
    simp only [settled, hids]
  · exact fun c hc => h.presented c ((hmem c).mpr hc)

@[simp] theorem outcome_tenantId (settings : Settings) (turn : Turn) (c : Connection) :
    (outcome settings turn c).tenantId = c.tenantId := by
  unfold outcome
  split
  · split <;> rfl
  · rfl

theorem filter_map_of_fixed {α : Type} {p : α → Bool} {f : α → α} {xs : List α}
    (h : ∀ x ∈ xs, p (f x) = p x ∧ (p x = true → f x = x)) :
    (xs.map f).filter p = xs.filter p := by
  induction xs with
  | nil => rfl
  | cons x rest ih =>
      obtain ⟨hp, hfixed⟩ := h x List.mem_cons_self
      rw [List.map_cons, List.filter_cons, List.filter_cons, hp,
        ih fun y hy => h y (List.mem_cons_of_mem _ hy)]
      split
      · rename_i hx
        rw [hfixed hx]
      · rfl

theorem TurnsTaken.activeOf_eq {tenantId : Nat} {tenantIds : List Nat}
    (h : TurnsTaken settings turns (activeOf [tenantId] b.world.tables.connections) b b₁)
    (hkeys : (b.world.tables.connections.map (·.id)).Nodup) (hother : tenantId ∉ tenantIds) :
    activeOf tenantIds b₁.world.tables.connections =
      activeOf tenantIds b.world.tables.connections := by
  rw [h.connections]
  refine filter_map_of_fixed fun row hrow => ?_
  by_cases hmem : row.tenantId ∈ tenantIds
  · have hfixed : settled settings turns
        ((activeOf [tenantId] b.world.tables.connections).map (·.id)) row = row := by
      refine if_neg fun hid => ?_
      obtain ⟨x, hx, hxid⟩ := List.mem_map.mp hid
      obtain ⟨hxmem, hxtenant, -⟩ := mem_activeOf.mp hx
      rw [List.inj_on_of_nodup_map hkeys hxmem hrow hxid] at hxtenant
      rw [List.mem_singleton.mp hxtenant] at hmem
      exact hother hmem
    exact ⟨by rw [hfixed], fun _ => hfixed⟩
  · have htenant : (settled settings turns
        ((activeOf [tenantId] b.world.tables.connections).map (·.id)) row).tenantId =
        row.tenantId := by
      unfold settled
      split
      · exact outcome_tenantId ..
      · rfl
    refine ⟨?_, fun h => ?_⟩
    · simp [htenant, hmem]
    · simp [hmem] at h

theorem Ready.tail {tenantId : Nat} {tenantIds : List Nat}
    (h : Ready turns b (tenantId :: tenantIds)) (hother : tenantId ∉ tenantIds)
    (htaken : TurnsTaken settings turns (activeOf [tenantId] b.world.tables.connections) b b₁) :
    Ready turns b₁ tenantIds := by
  have hsame := htaken.activeOf_eq h.keys hother
  have hwaits {c : Connection} (hc : c ∈ activeOf tenantIds b.world.tables.connections) :
      c ∈ activeOf (tenantId :: tenantIds) b.world.tables.connections ∧
        c.id ∉ (activeOf [tenantId] b.world.tables.connections).map (·.id) := by
    obtain ⟨hmem, htenant, hactive⟩ := mem_activeOf.mp hc
    refine ⟨mem_activeOf.mpr ⟨hmem, List.mem_cons_of_mem _ htenant, hactive⟩, fun hid => ?_⟩
    obtain ⟨x, hx, hxid⟩ := List.mem_map.mp hid
    obtain ⟨hxmem, hxtenant, -⟩ := mem_activeOf.mp hx
    rw [List.inj_on_of_nodup_map h.keys hxmem hmem hxid] at hxtenant
    rw [List.mem_singleton.mp hxtenant] at htenant
    exact hother htenant
  constructor
  · rw [htaken.connections]
    simpa [Function.comp_def] using h.keys
  · intro c hc
    rw [hsame] at hc
    obtain ⟨hbefore, houtside⟩ := hwaits hc
    exact (htaken.outside.locks c.id houtside _).trans (h.free c hbefore)
  · intro c hc
    rw [hsame] at hc
    obtain ⟨hbefore, houtside⟩ := hwaits hc
    obtain ⟨hexchanges, hassignments⟩ := h.fresh c hbefore
    exact ⟨(htaken.outside.exchanges c.id houtside).trans hexchanges,
      (htaken.outside.assignments c.id houtside).trans hassignments⟩

theorem activeOf_disjoint {tenantId : Nat} {tenantIds : List Nat}
    (hkeys : (b.world.tables.connections.map (·.id)).Nodup) (hother : tenantId ∉ tenantIds) :
    ((activeOf [tenantId] b.world.tables.connections).map (·.id)).Disjoint
      ((activeOf tenantIds b.world.tables.connections).map (·.id)) := by
  intro id hfirst hlater
  obtain ⟨x, hx, rfl⟩ := List.mem_map.mp hfirst
  obtain ⟨y, hy, hid⟩ := List.mem_map.mp hlater
  obtain ⟨hxmem, hxtenant, -⟩ := mem_activeOf.mp hx
  obtain ⟨hymem, hytenant, -⟩ := mem_activeOf.mp hy
  rw [List.inj_on_of_nodup_map hkeys hymem hxmem hid, List.mem_singleton.mp hxtenant] at hytenant
  exact hother hytenant

theorem ensures_refreshTenants {tenants : List Tenant} (hdistinct : (tenants.map (·.id)).Nodup)
    (h : Ready turns b (tenants.map (·.id))) :
    Ensures (play turns)
      (fun b' _ out => Ends settings turns
        (activeOf (tenants.map (·.id)) b.world.tables.connections) b b' out)
      b l (refreshTenants settings (refreshLead settings) tenants) := by
  induction tenants generalizing b l with
  | nil =>
      have hnone : activeOf [] b.world.tables.connections = [] := by simp [activeOf]
      rw [List.map_nil, hnone]
      refine ends_ok (fun _ h => by cases h) ⟨.refl .., ?_, by simp⟩ _
      rw [List.map_nil, settled_nil, List.map_id]
  | cons tenant tenants ih =>
      obtain ⟨hother, hdistinct⟩ := List.nodup_cons.mp hdistinct
      have hsplit (c : Connection) :
          c ∈ activeOf [tenant.id] b.world.tables.connections ++
              activeOf (tenants.map (·.id)) b.world.tables.connections ↔
            c ∈ activeOf ((tenant :: tenants).map (·.id)) b.world.tables.connections := by
        simp only [List.mem_append, mem_activeOf, List.map_cons, List.mem_cons,
          List.not_mem_nil, or_false]
        tauto
      have hfirst : Ready turns b [tenant.id] :=
        ⟨h.keys, fun c hc => h.free c ((hsplit c).mp (List.mem_append_left _ hc)),
          fun c hc => h.fresh c ((hsplit c).mp (List.mem_append_left _ hc))⟩
      refine ensures_bind (ensures_refreshTenant hfirst) ?_ ?_
      · intro b₁ l₁ report hends
        obtain ⟨hsurvive, htaken⟩ := hends.of_ok
        have hsame := htaken.activeOf_eq h.keys hother
        refine ensures_bind (ih hdistinct (h.tail hother htaken)) ?_ ?_
        · intro b₂ l₂ reports hendsRest
          rw [hsame] at hendsRest
          obtain ⟨hsurviveRest, htakenRest⟩ := hendsRest.of_ok
          refine ends_ok ((allSurvive_append.mpr ⟨hsurvive, hsurviveRest⟩).congr hsplit) ?_ _
          exact (htaken.append htakenRest (activeOf_disjoint h.keys hother)).congr hsplit
        · intro b₂ l₂ e hendsRest
          rw [hsame] at hendsRest
          refine ends_error (fun hall => hendsRest.of_error fun c hc => ?_) e
          exact hall c ((hsplit c).mp (List.mem_append_right _ hc))
      · intro b₁ l₁ e hends
        refine ends_error (fun hall => hends.of_error fun c hc => ?_) e
        exact hall c ((hsplit c).mp (List.mem_append_left _ hc))

end Tenants

/-- `refresh_expiring_tokens`, from its start to its end. -/
def beat (settings : Settings) (turns : Nat → Turn) (w : World Unit) :
    Progress × Session × Except Failure (List (String × RefreshReport)) :=
  eval (play turns) (refreshExpiringTokens settings) ⟨w, fun _ => 0, fun _ => 0⟩ {} fun _ => ()

/-- An active connection of an active tenant whose access token expires within
the lead. -/
def Due (settings : Settings) (turns : Nat → Turn) (w : World Unit) (c : Connection) : Prop :=
  c.attributes.status = .active ∧ c.tenantId ∈ w.tables.activeTenants.map (·.id) ∧
    Expiring settings (turns c.id) c

/-- The beat returns, presents the refresh token of every connection that is due,
and commits for each one what its own row and its own turn make of it. -/
structure Undisturbed (settings : Settings) (turns : Nat → Turn) (w : World Unit) : Prop where
  returns : ∃ report, (beat settings turns w).2.2 = .ok report
  attempts : ∀ c ∈ w.tables.connections, Due settings turns w c → ∃ token,
    settings.keys.decrypt c.attributes.refreshTokenEnc = .ok token ∧
      Presented c.id token ⟨w, fun _ => 0, fun _ => 0⟩ (beat settings turns w).1
  commits : (beat settings turns w).1.world.tables.connections = w.tables.connections.map fun c =>
    if c.attributes.status = .active ∧ c.tenantId ∈ w.tables.activeTenants.map (·.id) then
      outcome settings (turns c.id) c
    else c

/-- A bundle whose tokens can be encoded and whose expiry is a date. -/
def Storable (bundle : TokenBundle) (now : Instant) : Prop :=
  encodable bundle.accessToken = true ∧
    (∀ token ∈ bundle.refreshToken, encodable token = true) ∧
    datetimeMin ≤ now + bundle.expiresIn * 1000000 ∧
    now + bundle.expiresIn * 1000000 ≤ datetimeMax

/-- The provider of the connection is configured, its refresh token can be
decrypted, and the answer on which the retries end is invalid_grant, one of the
three exceptions that the beat catches, or a bundle that can be stored. -/
def Handled (settings : Settings) (turn : Turn) (c : Connection) : Prop :=
  (∃ token, settings.keys.decrypt c.attributes.refreshTokenEnc = .ok token) ∧
    (∃ pair, clientCredentials settings c.provider = .ok pair) ∧
    match RefreshBeat.attempts c.provider turn.answers maxAttempts 0 with
    | .ok bundle => Storable bundle (turn.stamps 2).now
    | .error (.invalidGrant _) => True
    | .error e => e.transient = true

theorem storable_iff {settings : Settings} {turn : Turn} {bundle : TokenBundle} {a : Attributes} :
    (∃ a', stored settings turn bundle a = .ok a') ↔ Storable bundle (turn.stamps 2).now := by
  have haccess (stamp : Stamp) (a : Attributes) :
      (∃ a', sealAccessToken settings bundle stamp a = .ok a') ↔
        encodable bundle.accessToken = true := by
    simp only [sealAccessToken, encryptToken]
    split <;> simp [Except.map, *]
  have hrefresh (stamp : Stamp) (a : Attributes) :
      (∃ a', sealRefreshToken settings bundle stamp a = .ok a') ↔
        ∀ token ∈ bundle.refreshToken, encodable token = true := by
    unfold sealRefreshToken
    split
    · simp [*]
    · simp [*, encodable]
    · rename_i token _ htoken
      simp only [encryptToken]
      split <;> simp [Except.map, *]
  have hstamp (stamp : Stamp) (a : Attributes) :
      (∃ a', stampExpiry bundle stamp a = .ok a') ↔
        datetimeMin ≤ stamp.now + bundle.expiresIn * 1000000 ∧
          stamp.now + bundle.expiresIn * 1000000 ≤ datetimeMax := by
    simp only [stampExpiry, addSeconds]
    split <;> simp [Except.map, *]
  constructor
  · rintro ⟨a', h⟩
    simp only [stored, bind, Except.bind] at h
    split at h
    · cases h
    rename_i a₁ h₁
    split at h
    · cases h
    rename_i a₂ h₂
    split at h
    · cases h
    rename_i a₃ h₃
    exact ⟨(haccess _ _).mp ⟨a₁, h₁⟩, (hrefresh _ _).mp ⟨a₂, h₂⟩, (hstamp _ _).mp ⟨a₃, h₃⟩⟩
  · rintro ⟨hfirst, hsecond, hthird⟩
    obtain ⟨a₁, h₁⟩ := (haccess (turn.stamps 0) a).mpr hfirst
    obtain ⟨a₂, h₂⟩ := (hrefresh (turn.stamps 1) a₁).mpr hsecond
    obtain ⟨a₃, h₃⟩ := (hstamp (turn.stamps 2) a₂).mpr hthird
    refine ⟨{ a₃ with
      status := .active, lastError := none, healthCheckedAt := some (turn.stamps 3).now }, ?_⟩
    simp [stored, h₁, h₂, h₃, bind, Except.bind, markHealthy]

theorem handled_iff {settings : Settings} {turn : Turn} {c : Connection} {token : PyStr}
    (htoken : settings.keys.decrypt c.attributes.refreshTokenEnc = .ok token) :
    (∃ a, refreshed settings turn c = .ok a) ↔ Handled settings turn c := by
  have hraised (e : Failure) :
      (∃ a, (if e.transient then markRefreshFailed e (turn.stamps 0) c.attributes else .error e) =
        .ok a) ↔ e.transient = true := by
    split <;> simp [markRefreshFailed, *]
  unfold Handled refreshed granted
  rw [htoken]
  cases hcreds : clientCredentials settings c.provider with
  | error e =>
      obtain ⟨message, rfl⟩ := clientCredentials_eq_error hcreds
      simp [Failure.transient]
  | ok pair =>
      simp only [Except.ok.injEq, exists_eq', true_and]
      cases RefreshBeat.attempts c.provider turn.answers maxAttempts 0 with
      | ok bundle => exact storable_iff
      | error e =>
          cases e with
          | invalidGrant message => exact iff_of_true ⟨_, rfl⟩ trivial
          | _ => exact hraised _

/-- Primary keys are distinct, and no connection is locked when its turn comes. -/
structure Idle (turns : Nat → Turn) (w : World Unit) : Prop where
  connections : (w.tables.connections.map (·.id)).Nodup
  tenants : (w.tables.directory.tenants.map (·.id)).Nodup
  free : ∀ c ∈ w.tables.connections,
    w.liveLock? (turns c.id).lockedAt (.refresh c.id) = none

theorem beat_ends {settings : Settings} {turns : Nat → Turn} {w : World Unit}
    (hidle : Idle turns w) :
    Ends settings turns (activeOf (w.tables.activeTenants.map (·.id)) w.tables.connections)
      ⟨w, fun _ => 0, fun _ => 0⟩ (beat settings turns w).1 (beat settings turns w).2.2 := by
  have hready : Ready turns ⟨w, fun _ => 0, fun _ => 0⟩ (w.tables.activeTenants.map (·.id)) :=
    ⟨hidle.connections, fun c hc => hidle.free c (mem_activeOf.mp hc).1, fun _ _ => ⟨rfl, rfl⟩⟩
  have hdistinct : (w.tables.activeTenants.map (·.id)).Nodup :=
    hidle.tenants.sublist (List.filter_sublist.map _)
  refine eval_of_ensures (Q := fun b' _ out => Ends settings turns
    (activeOf (w.tables.activeTenants.map (·.id)) w.tables.connections)
    ⟨w, fun _ => 0, fun _ => 0⟩ b' out) ?_ _
  exact ensures_request_bind.mpr fun _ => ensures_refreshTenants hdistinct hready

/-- One failing connection does not stop the beat, and the others do not feel
it, exactly when every connection that is due is handled. -/
theorem refresh_beat_undisturbed_iff (settings : Settings) (turns : Nat → Turn) (w : World Unit)
    (hidle : Idle turns w) :
    Undisturbed settings turns w ↔
      ∀ c ∈ w.tables.connections, Due settings turns w c →
        Handled settings (turns c.id) c := by
  have hends : Ends settings turns _ _ _ _ := beat_ends hidle
  constructor
  · intro h c hc hdue
    obtain ⟨hactive, htenant, hexpiring⟩ := hdue
    obtain ⟨token, htoken, -⟩ := h.attempts c hc ⟨hactive, htenant, hexpiring⟩
    obtain ⟨report, hreport⟩ := h.returns
    rw [hreport] at hends
    obtain ⟨hsurvive, -⟩ := hends.of_ok
    exact (handled_iff htoken).mp (hsurvive c (mem_activeOf.mpr ⟨hc, htenant, hactive⟩) hexpiring)
  · intro hhandled
    have hsurvive : AllSurvive settings turns
        (activeOf (w.tables.activeTenants.map (·.id)) w.tables.connections) := by
      intro c hc hexpiring
      obtain ⟨hmem, htenant, hactive⟩ := mem_activeOf.mp hc
      have hc' := hhandled c hmem ⟨hactive, htenant, hexpiring⟩
      obtain ⟨token, htoken⟩ := hc'.1
      exact (handled_iff htoken).mpr hc'
    obtain ⟨hreturns, htaken⟩ := hends.1 hsurvive
    constructor
    · exact hreturns
    · intro c hc hdue
      obtain ⟨⟨token, htoken⟩, ⟨pair, hpair⟩, -⟩ := hhandled c hc hdue
      refine ⟨token, htoken, ?_⟩
      exact htaken.presented c (mem_activeOf.mpr ⟨hc, hdue.2.1, hdue.1⟩) hdue.2.2 token pair htoken
        hpair
    · rw [htaken.connections]
      refine List.map_congr_left fun c hc => ?_
      have hturn : c.id ∈ (activeOf (w.tables.activeTenants.map (·.id))
          w.tables.connections).map (·.id) ↔
          c.attributes.status = .active ∧ c.tenantId ∈ w.tables.activeTenants.map (·.id) := by
        constructor
        · intro hid
          obtain ⟨x, hx, hxid⟩ := List.mem_map.mp hid
          obtain ⟨hxmem, hxtenant, hxactive⟩ := mem_activeOf.mp hx
          rw [List.inj_on_of_nodup_map hidle.connections hxmem hc hxid] at hxtenant hxactive
          exact ⟨hxactive, hxtenant⟩
        · rintro ⟨hactive, htenant⟩
          exact List.mem_map_of_mem (mem_activeOf.mpr ⟨hc, htenant, hactive⟩)
      simp only [settled, hturn]

/-- Two tenants, each with a connection whose access token has expired. -/
def twoTenants : World Unit where
  tables := ⟨⟨[⟨1, "acme", "Acme", .active, none⟩, ⟨2, "beta", "Beta", .active, none⟩],
      [], [], [], [], [], [], [], String.toLower⟩,
    [expiredConnection 1, { expiredConnection 2 with tenantId := 2 }], [], []⟩
  locks := []
  queue := []
  endpoint := ()
  history := []

/-- The token endpoint answers with a new bundle. -/
def answered : Turn where
  answers _ := tokenAnswer "access-2" "refresh-2"

/-- A gateway in front of the token endpoint answers 200 with a page that is no
JSON. -/
def gatewayPage : Turn where
  answers _ := .response ⟨200, .invalid "JSONDecodeError"⟩

theorem idle_twoTenants (turns : Nat → Turn) : Idle turns twoTenants :=
  ⟨by decide, by decide, fun _ _ => rfl⟩

theorem twoTenants_undisturbed :
    Idle (fun _ => answered) twoTenants ∧
      Undisturbed configured (fun _ => answered) twoTenants := by
  refine ⟨idle_twoTenants _, (refresh_beat_undisturbed_iff configured _ twoTenants
    (idle_twoTenants _)).mpr fun c hc _ => ?_⟩
  have hbundle : RefreshBeat.attempts .microsoft answered.answers maxAttempts 0 =
      .ok ⟨py "access-2", 3600, some (py "refresh-2"), []⟩ := by decide
  have htoken : configured.keys.decrypt (framedKeys.encrypt 2 (py "refresh")) =
      .ok (py "refresh") := by decide
  have hcreds : clientCredentials configured .microsoft = .ok ("client", "secret") := by decide
  have hhandled (x : Connection) (hprovider : x.provider = .microsoft)
      (hsealed : x.attributes.refreshTokenEnc = framedKeys.encrypt 2 (py "refresh")) :
      Handled configured answered x := by
    rw [Handled, hprovider, hsealed, hbundle]
    exact ⟨⟨_, htoken⟩, ⟨_, hcreds⟩, by decide, by decide, by decide, by decide⟩
  rcases List.mem_pair.mp hc with rfl | rfl
  · exact hhandled _ rfl rfl
  · exact hhandled _ rfl rfl

/-- The exception of the first connection leaves the beat, and the connection of
the second tenant is not written. -/
theorem page_of_one_stops_the_other :
    (beat configured (fun id => if id = 1 then gatewayPage else answered) twoTenants).2.2 =
        .error (.valueError "JSONDecodeError") ∧
      (beat configured (fun id => if id = 1 then gatewayPage else answered)
        twoTenants).1.world.tables.connections = twoTenants.tables.connections ∧
      ¬ Undisturbed configured (fun id => if id = 1 then gatewayPage else answered) twoTenants := by
  have hraised : (beat configured (fun id => if id = 1 then gatewayPage else answered)
      twoTenants).2.2 = .error (.valueError "JSONDecodeError") := by decide +kernel
  refine ⟨hraised, by decide +kernel, fun h => ?_⟩
  obtain ⟨report, hreport⟩ := h.returns
  rw [hraised] at hreport
  cases hreport

end Socle.RefreshBeat
