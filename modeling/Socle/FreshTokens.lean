import Socle.ConnectorTransactions
import Socle.RefreshLedger

/-!
What `fresh_access_token` returns.  The call is run from any world and any
session, with any clock and any answers of the token endpoint; the connection is
the object of the session that the caller passes.
-/

namespace Socle.FreshTokens

open Socle.Procedures
open Socle.DirectoryStore (Instant)
open Socle.TokenExchange
open Socle.ConnectorStore
open Socle.ConnectorService
open Socle.ConnectorTransactions
open Socle.RefreshLedger (invalidGrantAnswer)

/-- Whether an assignment reads the clock for the expiry of the access token. -/
def readsExpiry (value : Stamp → Attributes → Except Failure Attributes) (c : Choice)
    (a : Attributes) : Bool :=
  decide ((value ⟨c.now, c.nonce⟩ a).toOption.map (·.accessTokenExpiresAt) ≠
    (value ⟨c.now + 1, c.nonce⟩ a).toOption.map (·.accessTokenExpiresAt))

/-- The clock as it was last read to compare the expiry of the access token or to
record it. -/
def noteReading {π : Type} (_ : World π) (l : Session) (r : Request) (c : Choice)
    (reading : Option Instant) : Option Instant :=
  match r with
  | .expiring _ _ => some c.now
  | .assign connectionId value =>
      if (l.object? connectionId).any fun o => readsExpiry value c o.current then some c.now
      else reading
  | _ => reading

section Call

variable {π : Type} (settings : Settings) (endpoint : TokenEndpoint π) (connectionId : Nat)

/-- Where the call leaves the session, and what it returns or raises. -/
def call (w : World π) (l : Session) (choices : Nat → Choice) : Session × Except Failure PyStr :=
  (eval (serve endpoint) (freshAccessToken settings connectionId) w l choices).2

/-- The last reading of the clock about the expiry. -/
def reading (w : World π) (l : Session) (choices : Nat → Choice) : Option Instant :=
  (eval (noting (serve endpoint) noteReading) (freshAccessToken settings connectionId) (w, none) l
    choices).1.2

/-- The connection is ACTIVE and its token lives for more than a minute. -/
def Live (l : Session) (now : Option Instant) : Prop :=
  ∃ o now', l.object? connectionId = some o ∧ now = some now' ∧ o.current.status = .active ∧
    now' + expirySkew < o.current.accessTokenExpiresAt

/-- The token that the connection stores. -/
def Stores (l : Session) (token : PyStr) : Prop :=
  ∃ o, l.object? connectionId = some o ∧
    settings.keys.decrypt o.current.accessTokenEnc = .ok token

/-- A string is returned only while the connection is ACTIVE, and is its stored
token with more than a minute to live; anything else raises. -/
def ReturnsUsable (w : World π) (l : Session) (choices : Nat → Choice) : Prop :=
  ∀ token, (call settings endpoint connectionId w l choices).2 = .ok token →
    Stores settings connectionId (call settings endpoint connectionId w l choices).1 token ∧
      Live connectionId (call settings endpoint connectionId w l choices).1
        (reading settings endpoint connectionId w l choices)

/-- Every token the endpoint issues lives for more than a minute. -/
def Lasting : Prop :=
  ∀ p id token c provider bundle,
    readAnswer provider (endpoint p id token c).2 = .ok bundle → 60 < bundle.expiresIn

/-- The session cannot be committed, or the access token it holds cannot be
decrypted: the call ends with that exception. -/
def Stuck (w : World π) (l : Session) : Prop :=
  (∀ t, w.tables.commit l.objects l.pending ≠ .ok t) ∨
    ∀ o token, l.object? connectionId = some o →
      settings.keys.decrypt o.current.accessTokenEnc ≠ .ok token

/-- An answer of the token endpoint that tells that the consent is lost. -/
def refuses : HttpAnswer → Bool
  | .transportError _ => false
  | .response response =>
      response.statusCode != 200 &&
        match response.body.load with
        | .ok raw => errorCode raw == py "invalid_grant"
        | .error _ => false

/-- The endpoint does not refuse the refresh token, and a connection that is not
ACTIVE has a token that expires. -/
def keepsConsent (w : World π) (l : Session) (r : Request) (c : Choice) : Prop :=
  match r with
  | .expiring _ _ =>
      (∃ o, l.object? connectionId = some o ∧ o.current.status ≠ .active ∧
        c.now + expirySkew < o.current.accessTokenExpiresAt) → Stuck settings connectionId w l
  | .exchange id token =>
      refuses (endpoint w.endpoint id token c).2 → Stuck settings connectionId w l
  | _ => True

end Call

/-- Two databases with the same keys, subscriptions and routes. -/
structure SameKeys (t t' : Tables) : Prop where
  ids : t'.connections.map (·.id) = t.connections.map (·.id)
  subscriptions : t'.subscriptions = t.subscriptions
  routes : t'.routes = t.routes

/-- Both fail, or both lead to databases with the same keys. -/
def Alike : Except Failure Tables → Except Failure Tables → Prop
  | .ok t, .ok t' => SameKeys t t'
  | .error _, .error _ => True
  | _, _ => False

theorem applyAll_cons (t : Tables) (change : Change) (rest : List Change) :
    t.applyAll (change :: rest) = (t.apply change).bind (·.applyAll rest) := by
  rw [Tables.applyAll]
  cases t.apply change <;> rfl

theorem writeObjects_cons (t : Tables) (o : Object) (rest : List Object) :
    t.writeObjects (o :: rest) = (t.writeObject o).bind (·.writeObjects rest) := by
  rw [Tables.writeObjects]
  cases t.writeObject o <;> rfl

theorem commit_eq (t : Tables) (objects : List Object) (changes : List Change) :
    t.commit objects changes = (t.writeObjects objects).bind (·.applyAll changes) := by
  rw [Tables.commit]
  cases t.writeObjects objects <;> rfl

theorem Alike.next {x y : Except Failure Tables} (h : Alike x y)
    {f g : Tables → Except Failure Tables}
    (hfg : ∀ t t', x = .ok t → SameKeys t t' → Alike (f t) (g t')) :
    Alike (x.bind f) (y.bind g) := by
  cases x with
  | error e =>
      cases y with
      | error e' => trivial
      | ok t' => exact h.elim
  | ok t =>
      cases y with
      | error e' => exact h.elim
      | ok t' => exact hfg t t' rfl h

theorem SameKeys.refl (t : Tables) : SameKeys t t := ⟨rfl, rfl, rfl⟩

theorem SameKeys.hasConnection {t t' : Tables} (h : SameKeys t t') (id : Nat) :
    t'.hasConnection id = t.hasConnection id := by
  have hany (u : Tables) : u.hasConnection id = (u.connections.map (·.id)).any (· == id) := by
    simp [Tables.hasConnection, List.any_map, Function.comp_def]
  rw [hany, hany, h.ids]

theorem SameKeys.apply {t t' : Tables} (h : SameKeys t t') (change : Change) :
    Alike (t.apply change) (t'.apply change) := by
  have hsubscription (id : Nat) : t'.hasSubscription id = t.hasSubscription id := by
    rw [Tables.hasSubscription, Tables.hasSubscription, h.subscriptions]
  cases change with
  | addSubscription s =>
      simp only [Tables.apply, hsubscription, h.hasConnection]
      split
      · trivial
      · exact ⟨h.ids, by rw [h.subscriptions], h.routes⟩
  | setExpiry subscriptionId expiresAt =>
      simp only [Tables.apply, hsubscription]
      split
      · exact ⟨h.ids, by rw [h.subscriptions], h.routes⟩
      · trivial
  | deleteSubscription subscriptionId => exact ⟨h.ids, by rw [h.subscriptions], h.routes⟩
  | deleteSubscriptions subscriptionIds => exact ⟨h.ids, by rw [h.subscriptions], h.routes⟩
  | addAuditEvent event => exact ⟨h.ids, h.subscriptions, h.routes⟩
  | addRoute route =>
      simp only [Tables.apply, h.routes]
      split
      · trivial
      · exact ⟨h.ids, h.subscriptions, by simp⟩
  | deleteRoutes routeKeys => exact ⟨h.ids, h.subscriptions, by rw [h.routes]⟩

theorem SameKeys.applyAll {t t' : Tables} (h : SameKeys t t') (changes : List Change)
    (events : List Change) (hevents : ∀ e ∈ events, ∃ event, e = .addAuditEvent event) :
    Alike (t.applyAll changes) (t'.applyAll (changes ++ events)) := by
  induction changes generalizing t t' with
  | nil =>
      induction events generalizing t' with
      | nil => exact h
      | cons e rest ih =>
          obtain ⟨event, rfl⟩ := hevents e List.mem_cons_self
          exact ih (fun e he => hevents e (List.mem_cons_of_mem _ he))
            ⟨h.ids, h.subscriptions, h.routes⟩
  | cons change rest ih =>
      rw [List.cons_append, applyAll_cons, applyAll_cons]
      exact (h.apply change).next fun u u' _ hu => ih hu

/-- An object of the same row, in memory as it was or already in the table. -/
def Remade (t : Tables) (o o' : Object) : Prop :=
  o'.row = o.row ∧ o'.isNew = o.isNew ∧ (o'.current = o.current ∨ t.hasConnection o.row.id = true)

theorem SameKeys.writeObject {t t' : Tables} (h : SameKeys t t') {o o' : Object}
    (ho : Remade t o o') : Alike (t.writeObject o) (t'.writeObject o') := by
  obtain ⟨hrow, hnew, hcurrent⟩ := ho
  have hids (u : Tables) (a b : Attributes) : (u.connections.map fun c =>
      if c.id = o.row.id then { c with attributes := Attributes.write a b c.attributes }
      else c).map (·.id) = u.connections.map (·.id) := by
    rw [List.map_map]
    refine List.map_congr_left fun c _ => ?_
    simp only [Function.comp_apply]
    split
    · rfl
    · rfl
  simp only [Tables.writeObject, hrow, hnew, h.hasConnection]
  split
  · split
    · trivial
    · exact ⟨by simp [h.ids, Object.view, hrow], h.subscriptions, h.routes⟩
  · rcases hcurrent with hsame | hthere
    · rw [hsame]
      split
      · exact h
      · split
        · exact ⟨by rw [hids, hids, h.ids], h.subscriptions, h.routes⟩
        · trivial
    · rw [if_pos hthere, if_pos hthere]
      split
      · split
        · exact h
        · exact ⟨by rw [hids, h.ids], h.subscriptions, h.routes⟩
      · split
        · exact ⟨by rw [hids, h.ids], h.subscriptions, h.routes⟩
        · exact ⟨by rw [hids, hids, h.ids], h.subscriptions, h.routes⟩

theorem SameKeys.writeObjects {t t' : Tables} (h : SameKeys t t') {f : Object → Object}
    {objects : List Object} (hf : ∀ o ∈ objects, Remade t o (f o)) :
    Alike (t.writeObjects objects) (t'.writeObjects (objects.map f)) := by
  induction objects generalizing t t' with
  | nil => exact h
  | cons o rest ih =>
      rw [List.map_cons, writeObjects_cons, writeObjects_cons]
      refine (h.writeObject (hf o List.mem_cons_self)).next fun u u' hwrite hu => ih hu ?_
      intro o' ho'
      obtain ⟨hrow, hnew, hcurrent⟩ := hf o' (List.mem_cons_of_mem _ ho')
      exact ⟨hrow, hnew, hcurrent.imp_right (hasConnection_writeObject hwrite)⟩

theorem SameKeys.commit {t t' : Tables} (h : SameKeys t t') {f : Object → Object}
    {objects : List Object} (hf : ∀ o ∈ objects, Remade t o (f o)) (changes events : List Change)
    (hevents : ∀ e ∈ events, ∃ event, e = .addAuditEvent event) :
    Alike (t.commit objects changes) (t'.commit (objects.map f) (changes ++ events)) := by
  rw [commit_eq, commit_eq]
  exact (h.writeObjects hf).next fun _ _ _ hu => hu.applyAll changes events hevents

/-- The world, the last reading of the clock, and whether the condition was met
so far. -/
abbrev Watched (π : Type) := (World π × Option Instant) × Prop

section Requests

variable {π : Type} {settings : Settings} {endpoint : TokenEndpoint π} {connectionId : Nat}

variable (settings endpoint connectionId) in
def watched : Serve ConnectorInterface (Watched π) Session Choice :=
  watch (noting (serve endpoint) noteReading)
    fun s => keepsConsent settings endpoint connectionId s.1

/-- The tables, the reading and the session are as they were. -/
structure Resting (s s' : Watched π) (l l' : Session) : Prop where
  tables : s'.1.1.tables = s.1.1.tables
  reading : s'.1.2 = s.1.2
  objects : l'.objects = l.objects
  pending : l'.pending = l.pending

/-- Nor did the condition fail. -/
structure Unmoved (s s' : Watched π) (l l' : Session) : Prop extends Resting s s' l l' where
  met : s'.2 ↔ s.2

theorem Unmoved.refl (s : Watched π) (l : Session) : Unmoved s s l l :=
  ⟨⟨rfl, rfl, rfl, rfl⟩, Iff.rfl⟩

theorem Resting.trans {s s' s'' : Watched π} {l l' l'' : Session} (h : Resting s s' l l')
    (h' : Resting s' s'' l' l'') : Resting s s'' l l'' :=
  ⟨h'.tables.trans h.tables, h'.reading.trans h.reading, h'.objects.trans h.objects,
    h'.pending.trans h.pending⟩

theorem Unmoved.trans {s s' s'' : Watched π} {l l' l'' : Session} (h : Unmoved s s' l l')
    (h' : Unmoved s' s'' l' l'') : Unmoved s s'' l l'' :=
  ⟨h.toResting.trans h'.toResting, h'.met.trans h.met⟩

theorem Resting.object? {s s' : Watched π} {l l' : Session} (h : Resting s s' l l') (id : Nat) :
    l'.object? id = l.object? id := by
  rw [Session.object?, Session.object?, h.objects]

theorem Resting.stuck {s s' : Watched π} {l l' : Session} (h : Resting s s' l l') :
    Stuck settings connectionId s'.1.1 l' ↔ Stuck settings connectionId s.1.1 l := by
  simp only [Stuck, h.tables, h.objects, h.pending, h.object?]

theorem ensures_ask_bind {α : Type} {Q : Watched π → Session → Except Failure α → Prop}
    {s : Watched π} {l : Session} {r : Request} {f : Answer r → ConnectorProc α}
    (hf : ∀ c s' l' a, watched settings endpoint connectionId s l r c = (s', l', a) →
      Ensures (watched settings endpoint connectionId) Q s' l' (f a)) :
    Ensures (watched settings endpoint connectionId) Q s l (ask r >>= f) :=
  ensures_request_bind.mpr fun c => hf c _ _ _ rfl

theorem ensures_waitForLock (name : LockName) (n : Nat) (s : Watched π) (l : Session) :
    Ensures (watched settings endpoint connectionId) (fun s' l' _ => Unmoved s s' l l') s l
      (waitForLock name n) := by
  induction n generalizing s l with
  | zero => exact .refl s l
  | succ n ih =>
      refine ensures_ask_bind fun c s' l' token hserved => ?_
      have hacquire : Unmoved s s' l l' := by
        obtain ⟨rfl, hrest⟩ := Prod.mk.inj hserved
        obtain ⟨rfl, -⟩ := Prod.mk.inj hrest
        refine ⟨⟨?_, rfl, rfl, rfl⟩, by simp [keepsConsent]⟩
        show (s.1.1.acquireLock c.now name c.uuid).1.tables = s.1.1.tables
        unfold World.acquireLock
        split
        · rfl
        · rfl
      cases token with
      | none => exact (ih s' l').mono fun _ _ _ h => hacquire.trans h
      | some token => exact hacquire

theorem ensures_releaseLock (name : LockName) (token : Nat) (s : Watched π) (l : Session) :
    Ensures (watched settings endpoint connectionId)
      (fun s' l' out => Unmoved s s' l l' ∧ out = .ok ()) s l (releaseLock name token) := by
  refine ensures_ask_bind fun c s' l' holder hserved => ?_
  obtain ⟨rfl, hrest⟩ := Prod.mk.inj hserved
  obtain ⟨rfl, -⟩ := Prod.mk.inj hrest
  split
  · exact fun c => ⟨⟨⟨rfl, rfl, rfl, rfl⟩, by simp [watched, watch, keepsConsent]⟩, rfl⟩
  · exact ⟨⟨⟨rfl, rfl, rfl, rfl⟩, by simp [keepsConsent]⟩, rfl⟩

/-- A refused refresh token fails the condition, unless the call is stuck. -/
def Refused (settings : Settings) (connectionId : Nat) (s s' : Watched π) (l l' : Session) : Prop :=
  Resting s s' l l' ∧ (s'.2 ↔ s.2 ∧ Stuck settings connectionId s.1.1 l)

/-- How the attempts at the token endpoint end. -/
def Granted (settings : Settings) (connectionId : Nat) (s s' : Watched π) (l l' : Session) :
    Except Failure TokenBundle → Prop
  | .ok bundle => Unmoved s s' l l' ∧ 60 < bundle.expiresIn
  | .error (.invalidGrant _) => Refused settings connectionId s s' l l'
  | .error _ => Unmoved s s' l l'

theorem Granted.after {s s' s'' : Watched π} {l l' l'' : Session}
    {out : Except Failure TokenBundle} (h : Unmoved s s' l l')
    (h' : Granted settings connectionId s' s'' l' l'' out) :
    Granted settings connectionId s s'' l l'' out := by
  match out, h' with
  | .ok bundle, ⟨hunmoved, hlong⟩ => exact ⟨h.trans hunmoved, hlong⟩
  | .error e, h' =>
      cases e with
      | invalidGrant message =>
          obtain ⟨hresting, hmet⟩ := h'
          refine ⟨h.toResting.trans hresting, hmet.trans ?_⟩
          rw [h.met, h.stuck]
      | _ => exact h.trans h'

theorem unsignedOf_eq_error {text : PyStr} {e : Failure} (h : unsignedOf text = .error e) :
    e = .valueError "ValueError" := by
  unfold unsignedOf at h
  split at h
  · split at h
    · cases h
    · exact (Except.error.inj h).symm
  · exact (Except.error.inj h).symm

theorem intOf_ne_invalidGrant (value : Json) (message : String) :
    intOf value ≠ .error (.invalidGrant message) := by
  have hread (text : PyStr) {f : Int → Int} : (do
      let n ← unsignedOf text
      pure (n : Int) : Except Failure Int).map f ≠ .error (.invalidGrant message) := by
    cases hread : unsignedOf text with
    | ok n => exact fun h => nomatch h
    | error e =>
        rw [unsignedOf_eq_error hread]
        exact fun h => nomatch h
  cases value with
  | str text =>
      simp only [intOf, intOfStr]
      split
      · exact hread _
      · exact hread _
      · exact hread _
  | float value => cases value <;> exact fun h => nomatch h
  | _ => exact fun h => nomatch h

theorem parseBundle_ne_invalidGrant (provider : ConnectorProvider) (fields : List (PyStr × Json))
    (message : String) : parseBundle provider fields ≠ .error (.invalidGrant message) := by
  unfold parseBundle
  split
  · exact fun h => nomatch h
  · exact fun h => nomatch h
  · cases hint : intOf ((get? fields "expires_in").getD (.int 3600)) with
    | ok n => exact fun h => nomatch h
    | error e =>
        intro h
        rw [Except.error.inj h] at hint
        exact intOf_ne_invalidGrant _ _ hint

theorem readAnswer_invalidGrant_iff (provider : ConnectorProvider) (answer : HttpAnswer) :
    (∃ message, readAnswer provider answer = .error (.invalidGrant message)) ↔
      refuses answer = true := by
  cases answer with
  | transportError _ =>
      refine iff_of_false (fun h => ?_) (fun h => by cases h)
      obtain ⟨message, h⟩ := h
      cases h
  | response response =>
      simp only [readAnswer, parseTokenResponse, refuses, Bool.and_eq_true, bne_iff_ne]
      by_cases hstatus : response.statusCode = 200
      · rw [if_neg (not_not.mpr hstatus)]
        refine iff_of_false (fun h => ?_) fun h => h.1 hstatus
        obtain ⟨message, h⟩ := h
        cases hbody : response.body with
        | json value =>
            simp only [hbody, Body.load] at h
            split at h
            · rename_i hload
              cases hload
            · exact parseBundle_ne_invalidGrant _ _ _ h
            · cases h
        | invalid className => simp [hbody, Body.load] at h
        | tooDeep => simp [hbody, Body.load] at h
      · rw [if_pos hstatus]
        unfold parseErrorResponse
        cases hbody : response.body with
        | json value =>
            simp only [Body.load, beq_iff_eq]
            by_cases hcode : errorCode value = py "invalid_grant"
            · rw [if_pos hcode]
              exact iff_of_true ⟨_, rfl⟩ ⟨hstatus, hcode⟩
            · rw [if_neg hcode]
              refine iff_of_false (fun h => ?_) fun h => hcode h.2
              obtain ⟨message, h⟩ := h
              cases h
        | invalid className => simp [Body.load]
        | tooDeep => simp [Body.load]

theorem ensures_ofExcept {α : Type} {Q : Watched π → Session → Except Failure α → Prop}
    {s : Watched π} {l : Session} {x : Except Failure α} (h : Q s l x) :
    Ensures (watched settings endpoint connectionId) Q s l (.ofExcept x) := by
  cases x <;> exact h

theorem ensures_refreshTokenGrant (hlasting : Lasting endpoint) (connection : Connection)
    (token : PyStr) (s : Watched π) (l : Session) :
    Ensures (watched settings endpoint connectionId)
      (fun s' l' out => Granted settings connectionId s s' l l' out) s l
      (refreshTokenGrant settings connection token) := by
  unfold refreshTokenGrant
  cases hcreds : clientCredentials settings connection.provider with
  | error e =>
      obtain ⟨message, rfl⟩ := clientCredentials_eq_error hcreds
      exact .refl s l
  | ok pair =>
      refine ensures_ask_bind fun c s' l' answer hserved => ?_
      obtain ⟨rfl, hrest⟩ := Prod.mk.inj hserved
      obtain ⟨rfl, rfl⟩ := Prod.mk.inj hrest
      refine ensures_ofExcept ?_
      have hrefuses := readAnswer_invalidGrant_iff connection.provider
        (endpoint s.1.1.endpoint connection.id token c).2
      show Granted settings connectionId s _ l _
        (readAnswer connection.provider (endpoint s.1.1.endpoint connection.id token c).2)
      cases hanswer : readAnswer connection.provider
          (endpoint s.1.1.endpoint connection.id token c).2 with
      | ok bundle =>
          refine ⟨⟨⟨rfl, rfl, rfl, rfl⟩, ?_⟩, hlasting _ _ _ _ _ _ hanswer⟩
          have hkept : ¬ refuses (endpoint s.1.1.endpoint connection.id token c).2 = true := by
            simp [← hrefuses, hanswer]
          exact and_iff_left fun h => absurd h hkept
      | error e =>
          cases e with
          | invalidGrant message =>
              refine ⟨⟨rfl, rfl, rfl, rfl⟩, and_congr_right fun _ => ?_⟩
              exact ⟨fun h => h (hrefuses.mp ⟨message, hanswer⟩), fun h _ => h⟩
          | _ =>
              refine ⟨⟨rfl, rfl, rfl, rfl⟩, and_iff_left fun h => ?_⟩
              simp [← hrefuses, hanswer] at h

theorem ensures_retries (hlasting : Lasting endpoint) (connection : Connection) (token : PyStr)
    (n : Nat) (s : Watched π) (l : Session) :
    Ensures (watched settings endpoint connectionId)
      (fun s' l' out => Granted settings connectionId s s' l l' out) s l
      (runWithBackoff connection.provider (refreshTokenGrant settings connection token) n) := by
  induction n generalizing s l with
  | zero => exact .refl s l
  | succ n ih =>
      refine ensures_attempt_bind (ensures_refreshTokenGrant hlasting connection token s l) ?_
      rintro s₁ l₁ (e | bundle) hgranted
      · cases e with
        | providerResponse statusCode =>
            dsimp only
            split
            · exact (ih s₁ l₁).mono fun _ _ _ h => h.after hgranted
            · exact hgranted
        | _ => exact hgranted
      · exact hgranted

/-- The exceptions of the key provider are not those of the token endpoint. -/
def SealsApart (settings : Settings) : Prop :=
  ∀ bytes message, settings.keys.decrypt bytes ≠ .error (.invalidGrant message)

theorem ensures_grantUnderLock (hlasting : Lasting endpoint) (hkeys : SealsApart settings)
    (connection : Connection) (s : Watched π) (l : Session) :
    Ensures (watched settings endpoint connectionId)
      (fun s' l' out => Granted settings connectionId s s' l l' out) s l
      (grantUnderLock settings connection) := by
  unfold grantUnderLock
  cases hdecrypt : settings.keys.decrypt connection.attributes.refreshTokenEnc with
  | ok token => exact ensures_retries hlasting connection token maxAttempts s l
  | error e =>
      cases e with
      | invalidGrant message => exact absurd hdecrypt (hkeys _ _)
      | _ => exact .refl s l

/-- The marks of a lost consent: the connection is no longer ACTIVE. -/
structure Declined (settings : Settings) (connectionId : Nat) (s s' : Watched π) (l' : Session) :
    Prop where
  tables : s'.1.1.tables = s.1.1.tables
  object : ∃ o, l'.object? connectionId = some o ∧ o.current.status ≠ .active
  met : s'.2 ↔ s.2 ∧ Stuck settings connectionId s'.1.1 l'

theorem Alike.exists_ok {x y : Except Failure Tables} (h : Alike x y) :
    (∀ t, y ≠ .ok t) ↔ ∀ t, x ≠ .ok t := by
  cases x with
  | error e =>
      cases y with
      | error e' => simp
      | ok t' => exact h.elim
  | ok t =>
      cases y with
      | error e' => exact h.elim
      | ok t' => simp

theorem stuck_marked {w w' : World π} {l : Session} {o : Object} {a : Attributes}
    {event : DirectoryStore.AuditEvent} (htables : w'.tables = w.tables)
    (hthere : w.tables.hasConnection connectionId = true) (ho : l.object? connectionId = some o)
    (hsealed : a.accessTokenEnc = o.current.accessTokenEnc) :
    Stuck settings connectionId w'
        ((l.update connectionId fun o => { o with current := a }).add (.addAuditEvent event)) ↔
      Stuck settings connectionId w l := by
  have hcommit : Alike (w.tables.commit l.objects l.pending)
      (w.tables.commit ((l.update connectionId fun o => { o with current := a }).objects)
        (l.pending ++ [.addAuditEvent event])) := by
    refine (SameKeys.refl w.tables).commit (fun x _ => ?_) l.pending [_] ?_
    · split
      · rename_i hid
        exact ⟨rfl, rfl, .inr (hid ▸ hthere)⟩
      · exact ⟨rfl, rfl, .inl rfl⟩
    · intro e he
      exact ⟨event, List.mem_singleton.mp he⟩
  have hobject : ((l.update connectionId fun o => { o with current := a }).add
      (.addAuditEvent event)).object? connectionId = some { o with current := a } :=
    object?_update (fun _ => rfl) ho
  simp only [Stuck, htables, hobject, ho, Option.some.injEq]
  refine or_congr hcommit.exists_ok ?_
  constructor
  · rintro h _ token rfl
    rw [← hsealed]
    exact h _ token rfl
  · rintro h _ token rfl
    rw [hsealed]
    exact h _ token rfl

/-- An assignment to the object of the session, at a reading of the clock. -/
def Assigns (value : Stamp → Attributes → Except Failure Attributes) (id : Nat) (o : Object)
    (c : Choice) (l l' : Session) (out : Except Failure Unit) : Prop :=
  (∃ a, value ⟨c.now, c.nonce⟩ o.current = .ok a ∧ out = .ok () ∧
    l' = l.update id fun o => { o with current := a }) ∨
  ∃ e, value ⟨c.now, c.nonce⟩ o.current = .error e ∧ out = .error e ∧ l' = l

theorem ensures_assign {value : Stamp → Attributes → Except Failure Attributes} {s : Watched π}
    {l : Session} {id : Nat} {o : Object} (ho : l.object? id = some o) :
    Ensures (watched settings endpoint connectionId)
      (fun s' l' out => s'.1.1 = s.1.1 ∧ (s'.2 ↔ s.2) ∧ ∃ c : Choice,
        s'.1.2 = (if readsExpiry value c o.current then some c.now else s.1.2) ∧
        Assigns value id o c l l' out) s l (assign id value) := by
  refine ensures_ask_bind fun c s' l' out hserved => ?_
  simp only [watched, watch, noting, serve, ho, noteReading, keepsConsent, Option.any_some] at hserved
  cases hvalue : value ⟨c.now, c.nonce⟩ o.current with
  | ok a =>
      rw [hvalue] at hserved
      cases hserved
      exact ⟨rfl, by simp, c, by simp, .inl ⟨a, hvalue, rfl, rfl⟩⟩
  | error e =>
      rw [hvalue] at hserved
      cases hserved
      exact ⟨rfl, by simp, c, by simp, .inr ⟨e, hvalue, rfl, rfl⟩⟩

theorem ensures_assign_bind {α : Type} {Q : Watched π → Session → Except Failure α → Prop}
    {value : Stamp → Attributes → Except Failure Attributes} {s : Watched π} {l : Session}
    {id : Nat} {o : Object} {f : Unit → ConnectorProc α} (ho : l.object? id = some o)
    (hok : ∀ (s' : Watched π) (c : Choice) a, s'.1.1 = s.1.1 → (s'.2 ↔ s.2) →
      s'.1.2 = (if readsExpiry value c o.current then some c.now else s.1.2) →
      value ⟨c.now, c.nonce⟩ o.current = .ok a →
      Ensures (watched settings endpoint connectionId) Q s'
        (l.update id fun o => { o with current := a }) (f ()))
    (herror : ∀ s' stamp e, (s'.2 ↔ s.2) → value stamp o.current = .error e →
      Q s' l (.error e)) :
    Ensures (watched settings endpoint connectionId) Q s l (assign id value >>= f) := by
  refine ensures_bind (ensures_assign ho) ?_ ?_
  · rintro s' l' _ ⟨hworld, hmet, c, hreading, ⟨a, hvalue, -, rfl⟩ | ⟨e, hvalue, hout, hl⟩⟩
    · exact hok s' c a hworld hmet hreading hvalue
    · cases hout
  · rintro s' l' e ⟨-, hmet, c, -, ⟨a, hvalue, hout, hl⟩ | ⟨e', hvalue, hout, rfl⟩⟩
    · cases hout
    · cases hout
      exact herror s' _ e hmet hvalue

/-- How the `try` of `refresh_connection` ends. -/
def Tried (settings : Settings) (connectionId : Nat) (s s' : Watched π) (l l' : Session) :
    Except Failure (Option TokenBundle) → Prop
  | .ok (some bundle) => Unmoved s s' l l' ∧ 60 < bundle.expiresIn
  | .ok none => Declined settings connectionId s s' l'
  | .error _ => s'.2 ↔ s.2

theorem ensures_refreshFailed {s s₁ : Watched π} {l l₁ : Session} {o : Object}
    (ho : l.object? connectionId = some o) (hunmoved : Unmoved s s₁ l l₁) (e : Failure) :
    Ensures (watched settings endpoint connectionId)
      (fun s' l' out => Tried settings connectionId s s' l l' out) s₁ l₁ (do
        if e.transient then
          assign connectionId (markRefreshFailed e)
        throw e) := by
  have ho₁ : l₁.object? connectionId = some o := (hunmoved.object? connectionId).trans ho
  split
  · refine ensures_assign_bind ho₁ (fun s₂ c a _ hmet _ _ => ?_) fun s₂ _ e' hmet _ => ?_
    · exact hmet.trans hunmoved.met
    · exact hmet.trans hunmoved.met
  · exact hunmoved.met

theorem ensures_refreshDeclined {s s₁ : Watched π} {l l₁ : Session} {o : Object}
    (ho : l.object? connectionId = some o)
    (hthere : s.1.1.tables.hasConnection connectionId = true)
    (hrefused : Refused settings connectionId s s₁ l l₁) (event : DirectoryStore.AuditEvent) :
    Ensures (watched settings endpoint connectionId)
      (fun s' l' out => Tried settings connectionId s s' l l' out) s₁ l₁ (do
        assign connectionId markReconsent
        ask (.addAuditEvent event)
        return none) := by
  obtain ⟨hresting, hmet⟩ := hrefused
  have ho₁ : l₁.object? connectionId = some o := (hresting.object? connectionId).trans ho
  refine ensures_assign_bind ho₁ (fun s₂ c a hworld hmet₂ _ hvalue => ?_)
    fun s₂ stamp e _ hvalue => by cases hvalue
  cases hvalue
  refine ensures_ask_bind fun c' s₃ l₃ _ hserved => ?_
  obtain ⟨rfl, hrest⟩ := Prod.mk.inj hserved
  obtain ⟨rfl, -⟩ := Prod.mk.inj hrest
  refine ⟨?_, ⟨_, object?_update (fun _ => rfl) ho₁, ?_⟩, ?_⟩
  · show s₂.1.1.tables = s.1.1.tables
    rw [hworld, hresting.tables]
  · exact ConnectionStatus.noConfusion
  · show s₂.2 ∧ _ ↔ s.2 ∧ Stuck settings connectionId s₂.1.1 (Session.add _ _)
    rw [hmet₂, hmet]
    refine (and_iff_left trivial).trans (and_congr_right fun _ => ?_)
    exact hresting.stuck.symm.trans (stuck_marked (congrArg World.tables hworld)
      (hresting.tables ▸ hthere) ho₁ (by rfl)).symm

theorem ensures_refreshUnderLock (hlasting : Lasting endpoint) (hkeys : SealsApart settings)
    {connection : Connection} (hid : connection.id = connectionId) {s : Watched π} {l : Session}
    {o : Object} (ho : l.object? connectionId = some o)
    (hthere : s.1.1.tables.hasConnection connectionId = true) :
    Ensures (watched settings endpoint connectionId)
      (fun s' l' out => Tried settings connectionId s s' l l' out) s l
      (refreshUnderLock settings connection) := by
  subst hid
  refine ensures_attempt_bind (ensures_grantUnderLock hlasting hkeys connection s l) ?_
  rintro s₁ l₁ (e | bundle) hgranted
  · cases e with
    | invalidGrant message => exact ensures_refreshDeclined ho hthere hgranted _
    | _ => exact ensures_refreshFailed ho hgranted _
  · exact hgranted

/-- How the refresh ends: with a token that lives on, a connection that is not
ACTIVE and an answer the condition decides on, or an exception. -/
def Refreshed (settings : Settings) (connectionId : Nat) (s s' : Watched π) (l' : Session) :
    Except Failure Bool → Prop
  | .ok _ => (Live connectionId l' s'.1.2 ∧ (s'.2 ↔ s.2)) ∨
      ((∃ o, l'.object? connectionId = some o ∧ o.current.status ≠ .active) ∧
        (s'.2 ↔ s.2 ∧ Stuck settings connectionId s'.1.1 l'))
  | .error _ => s'.2 ↔ s.2

theorem stampExpiry_eq_ok {bundle : TokenBundle} {stamp : Stamp} {a a' : Attributes}
    (h : stampExpiry bundle stamp a = .ok a') :
    a'.accessTokenExpiresAt = stamp.now + bundle.expiresIn * 1000000 := by
  unfold stampExpiry addSeconds at h
  split at h
  · cases h
    rfl
  · cases h

theorem readsExpiry_stampExpiry {bundle : TokenBundle} {c : Choice} {a a' : Attributes}
    (h : stampExpiry bundle ⟨c.now, c.nonce⟩ a = .ok a') :
    readsExpiry (stampExpiry bundle) c a = true := by
  have hnow := stampExpiry_eq_ok h
  simp only [readsExpiry, h, decide_eq_true_eq, Except.toOption, Option.map_some]
  cases hnext : stampExpiry bundle ⟨c.now + 1, c.nonce⟩ a with
  | error e => simp
  | ok a'' =>
      have hlater := stampExpiry_eq_ok hnext
      rw [Option.map_some, ne_eq, Option.some.injEq, hnow, hlater]
      intro hsame
      exact absurd ((Int.add_left_inj _).mp hsame) (Int.ne_of_lt (Int.lt_succ c.now))

theorem ensures_applyTokenBundle {bundle : TokenBundle} (hlong : 60 < bundle.expiresIn)
    {s : Watched π} {l : Session} {o : Object} (ho : l.object? connectionId = some o) :
    Ensures (watched settings endpoint connectionId)
      (fun s' l' out => (s'.2 ↔ s.2) ∧ (out = .ok () → Live connectionId l' s'.1.2)) s l
      (applyTokenBundle settings connectionId bundle) := by
  refine ensures_assign_bind ho (fun s₁ c₁ a₁ _ h₁ _ _ => ?_) fun _ _ _ h _ => ⟨h, nofun⟩
  have ho₁ := object?_update (f := fun o => { o with current := a₁ }) (fun _ => rfl) ho
  refine ensures_assign_bind ho₁ (fun s₂ c₂ a₂ _ h₂ _ _ => ?_)
    fun _ _ _ h _ => ⟨h.trans h₁, nofun⟩
  have ho₂ := object?_update (f := fun o => { o with current := a₂ }) (fun _ => rfl) ho₁
  refine ensures_assign_bind ho₂ (fun s₃ c₃ a₃ _ h₃ hreading hstamp => ?_)
    fun _ _ _ h _ => ⟨(h.trans h₂).trans h₁, nofun⟩
  have ho₃ := object?_update (f := fun o => { o with current := a₃ }) (fun _ => rfl) ho₂
  rw [if_pos (readsExpiry_stampExpiry hstamp)] at hreading
  have hlater : c₃.now + expirySkew < a₃.accessTokenExpiresAt := by
    rw [stampExpiry_eq_ok hstamp]
    exact Int.add_lt_add_left (show (60000000 : Int) < _ by omega) c₃.now
  refine (ensures_assign ho₃).mono ?_
  rintro s₄ l₄ out ⟨-, h₄, c₄, hkept, ⟨a, hvalue, -, rfl⟩ | ⟨e, hvalue, -⟩⟩
  · cases hvalue
    refine ⟨((h₄.trans h₃).trans h₂).trans h₁, fun _ => ?_⟩
    have hplain : readsExpiry markHealthy c₄ a₃ = false := decide_eq_false (not_not.mpr rfl)
    rw [if_neg (by simp [hplain]), hreading] at hkept
    exact ⟨_, c₃.now, object?_update (fun _ => rfl) ho₃, hkept, rfl, hlater⟩
  · cases hvalue

/-- The lock, the reload of the row and the second look at its expiry. -/
def Locked (settings : Settings) (connectionId : Nat) (s s' : Watched π) (l' : Session) :
    Except Failure (Option Nat) → Prop
  | .ok (some _) => (∃ o, l'.object? connectionId = some o) ∧ (s'.2 ↔ s.2) ∧
      s'.1.1.tables.hasConnection connectionId = true
  | .ok none => Refreshed settings connectionId s s' l' (.ok false)
  | .error _ => s'.2 ↔ s.2

theorem hasConnection_of_connection? {t : Tables} {id : Nat} {row : Connection}
    (h : t.connection? id = some row) : t.hasConnection id = true := by
  have hmem := List.mem_of_find?_eq_some h
  have hid := List.find?_some h
  exact List.any_eq_true.mpr ⟨row, hmem, hid⟩

theorem object?_saved {l : Session} {o : Object} {id : Nat} (h : l.object? id = some o) :
    ({ l with objects := l.objects.map Object.saved, pending := [], issued := [] } :
      Session).object? id = some o.saved := by
  unfold Session.object? at h ⊢
  rw [List.find?_map]
  show (l.objects.find? fun x => x.row.id == id).map Object.saved = _
  rw [h, Option.map_some]

theorem object?_reload {l : Session} {o : Object} {mark : Nat} {row : Connection}
    (hid : row.id = connectionId) (h : l.object? connectionId = some o) :
    (l.update connectionId fun o => o.reload mark row).object? connectionId =
      some (o.reload mark row) := by
  have hkey : ((fun o : Object => o.row.id == connectionId) ∘
      fun o => if o.row.id = connectionId then o.reload mark row else o) =
      fun o => o.row.id == connectionId := by
    funext x
    by_cases hx : x.row.id = connectionId
    · simp [hx, Object.reload, hid]
    · simp [hx]
  unfold Session.object? Session.update
  rw [List.find?_map, hkey]
  unfold Session.object? at h
  rw [h, Option.map_some, if_pos (mem_of_object? h).2]

theorem ensures_secondLook {s s₁ : Watched π} {l : Session} {o : Object} {token : Nat}
    (ho : l.object? connectionId = some o) (hmet : s₁.2 ↔ s.2)
    (hthere : s₁.1.1.tables.hasConnection connectionId = true) :
    Ensures (watched settings endpoint connectionId)
      (fun s' l' out => Locked settings connectionId s s' l' out) s₁ l (do
        if ← ask (.expiring connectionId expirySkew) then
          return some token
        releaseLock (.refresh connectionId) token
        return none) := by
  refine ensures_ask_bind fun c s₂ l₂ expiring hserved => ?_
  obtain ⟨hs₂, hrest⟩ := Prod.mk.inj hserved
  obtain ⟨rfl, hanswer⟩ := Prod.mk.inj hrest
  have hexpiring : expiring = decide (o.current.accessTokenExpiresAt ≤ c.now + expirySkew) := by
    rw [← hanswer]
    show ((l.object? connectionId).any fun o =>
      decide (o.current.accessTokenExpiresAt ≤ c.now + expirySkew)) = _
    rw [ho, Option.any_some]
  subst hs₂
  cases expiring with
  | true =>
      refine ⟨⟨o, ho⟩, ?_, hthere⟩
      have hdue := of_decide_eq_true hexpiring.symm
      refine Iff.trans (and_iff_left ?_) hmet
      rintro ⟨o', ho', -, hlate⟩
      cases ho.symm.trans ho'
      exact absurd hdue (Int.not_le.mpr hlate)
  | false =>
      have hlater := Int.not_le.mp (of_decide_eq_false hexpiring.symm)
      refine ensures_bind (ensures_releaseLock _ _ _ _) ?_ ?_
      · rintro s₃ l₃ _ ⟨h₃, -⟩
        have ho₃ : l₃.object? connectionId = some o := (h₃.object? connectionId).trans ho
        by_cases hactive : o.current.status = .active
        · refine .inl ⟨⟨o, c.now, ho₃, h₃.reading, hactive, hlater⟩, h₃.met.trans ?_⟩
          refine Iff.trans (and_iff_left ?_) hmet
          rintro ⟨o', ho', hnot, -⟩
          cases ho.symm.trans ho'
          exact absurd hactive hnot
        · refine .inr ⟨⟨o, ho₃, hactive⟩, h₃.met.trans ?_⟩
          rw [h₃.stuck]
          refine and_congr hmet ⟨fun h => ?_, fun h _ => h⟩
          exact h ⟨o, ho, hactive, hlater⟩
      · rintro s₃ l₃ e ⟨-, hout⟩
        cases hout

theorem ensures_lockForRefresh {s : Watched π} {l : Session} {o : Object}
    (ho : l.object? connectionId = some o) :
    Ensures (watched settings endpoint connectionId)
      (fun s' l' out => Locked settings connectionId s s' l' out) s l
      (lockForRefresh connectionId true) := by
  refine ensures_bind (ensures_waitForLock _ _ s l) (fun s₁ l₁ token h₁ => ?_)
    fun s₁ l₁ e h₁ => h₁.met
  have ho₁ : l₁.object? connectionId = some o := (h₁.object? connectionId).trans ho
  refine ensures_ask_bind fun c s₂ l₂ found hserved => ?_
  cases hrow : s₁.1.1.tables.connection? connectionId with
  | none =>
      simp only [watched, watch, noting, serve, hrow] at hserved
      cases hserved
      exact (and_iff_left trivial).trans h₁.met
  | some row =>
      simp only [watched, watch, noting, serve, hrow] at hserved
      cases hserved
      have hid : row.id = connectionId := by simpa using List.find?_some hrow
      refine ensures_secondLook (object?_reload hid ho₁) ?_ ?_
      · exact (and_iff_left trivial).trans h₁.met
      · exact hasConnection_of_connection? hrow

theorem ensures_readObject {s : Watched π} {l : Session} {o : Object}
    (ho : l.object? connectionId = some o) :
    Ensures (watched settings endpoint connectionId)
      (fun s' l' out => Unmoved s s' l l' ∧ out = .ok o.view) s l (readObject connectionId) := by
  refine ensures_ask_bind fun c s' l' found hserved => ?_
  simp only [watched, watch, noting, serve, ho, Option.map_some] at hserved
  cases hserved
  exact ⟨⟨⟨rfl, rfl, rfl, rfl⟩, and_iff_left trivial⟩, rfl⟩

theorem ensures_refreshConnection (hlasting : Lasting endpoint) (hkeys : SealsApart settings)
    {s : Watched π} {l : Session} {o : Object} (ho : l.object? connectionId = some o) :
    Ensures (watched settings endpoint connectionId)
      (fun s' l' out => Refreshed settings connectionId s s' l' out) s l
      (refreshConnection settings connectionId true) := by
  refine ensures_bind (ensures_lockForRefresh ho) ?_ fun s₁ l₁ e h => h
  rintro s₁ l₁ (_ | token) hlocked
  · exact hlocked
  obtain ⟨⟨o₁, ho₁⟩, hmet₁, hthere⟩ := hlocked
  refine ensures_bind (ensures_readObject ho₁) ?_ fun s₂ l₂ e h => h.1.met.trans hmet₁
  rintro s₂ l₂ connection ⟨h₂, hview⟩
  cases hview
  have hid : o₁.view.id = connectionId := (mem_of_object? ho₁).2
  have ho₂ : l₂.object? connectionId = some o₁ := (h₂.object? connectionId).trans ho₁
  refine ensures_attempt_bind
    (ensures_refreshUnderLock hlasting hkeys hid ho₂ (h₂.tables ▸ hthere)) ?_
  rintro s₃ l₃ outcome htried
  refine ensures_bind (ensures_releaseLock _ _ s₃ l₃) ?_ ?_
  · rintro s₄ l₄ _ ⟨h₄, -⟩
    match outcome, htried with
    | .error e, hmet₃ => exact ((h₄.met.trans hmet₃).trans h₂.met).trans hmet₁
    | .ok none, hdeclined =>
        obtain ⟨o₃, ho₃, hstatus⟩ := hdeclined.object
        refine .inr ⟨⟨o₃, (h₄.object? connectionId).trans ho₃, hstatus⟩, ?_⟩
        rw [h₄.met, hdeclined.met, h₂.met, hmet₁, h₄.stuck]
    | .ok (some bundle), ⟨h₃, hlong⟩ =>
        have ho₄ : l₄.object? connectionId = some o₁ :=
          (h₄.object? connectionId).trans ((h₃.object? connectionId).trans ho₂)
        have hmet₄ : s₄.2 ↔ s.2 := ((h₄.met.trans h₃.met).trans h₂.met).trans hmet₁
        refine ensures_bind (ensures_applyTokenBundle hlong ho₄) ?_ ?_
        · rintro s₅ l₅ _ ⟨hmet₅, hlive⟩
          exact .inl ⟨hlive rfl, hmet₅.trans hmet₄⟩
        · rintro s₅ l₅ e ⟨hmet₅, -⟩
          exact hmet₅.trans hmet₄
  · rintro s₄ l₄ e ⟨-, hout⟩
    cases hout

/-- How the call ends, with the condition met or not. -/
def Ended (settings : Settings) (connectionId : Nat) (s : Watched π) (l : Session)
    (out : Except Failure PyStr) : Prop :=
  (∀ token, out = .ok token →
    Stores settings connectionId l token ∧ Live connectionId l s.1.2) ↔ s.2

theorem ended_error {s : Watched π} {l : Session} {e : Failure} (hmet : s.2) :
    Ended settings connectionId s l (.error e) := iff_of_true nofun hmet

theorem ensures_decrypt {s : Watched π} {l : Session} {o : Object}
    (ho : l.object? connectionId = some o)
    (hend : ∀ s' l', Unmoved s s' l l' → Ended settings connectionId s' l'
      (settings.keys.decrypt o.current.accessTokenEnc)) :
    Ensures (watched settings endpoint connectionId) (Ended settings connectionId) s l (do
      let refreshed ← readObject connectionId
      .ofExcept (settings.keys.decrypt refreshed.attributes.accessTokenEnc)) := by
  refine ensures_bind (ensures_readObject ho) ?_ ?_
  · rintro s' l' connection ⟨h, hview⟩
    cases hview
    exact ensures_ofExcept (hend s' l' h)
  · rintro s' l' e ⟨-, hout⟩
    cases hout

theorem ended_live {s s' : Watched π} {l l' : Session} {o : Object} {now : Instant}
    (ho : l.object? connectionId = some o) (hreading : s.1.2 = some now)
    (hactive : o.current.status = .active)
    (hlater : now + expirySkew < o.current.accessTokenExpiresAt) (hmet : s.2)
    (h : Unmoved s s' l l') :
    Ended settings connectionId s' l' (settings.keys.decrypt o.current.accessTokenEnc) := by
  refine iff_of_true (fun token htoken => ?_) (h.met.mpr hmet)
  have ho' : l'.object? connectionId = some o := (h.object? connectionId).trans ho
  exact ⟨⟨o, ho', htoken⟩, o, now, ho', h.reading.trans hreading, hactive, hlater⟩

theorem ensures_commitAndDecrypt {s s₁ : Watched π} {l : Session} {renewed : Bool} (hmet : s.2)
    (hrefreshed : Refreshed settings connectionId s s₁ l (.ok renewed)) :
    Ensures (watched settings endpoint connectionId) (Ended settings connectionId) s₁ l (do
      commit
      let refreshed ← readObject connectionId
      .ofExcept (settings.keys.decrypt refreshed.attributes.accessTokenEnc)) := by
  refine ensures_ask_bind fun c s₂ l₂ answer hserved => ?_
  cases hcommit : s₁.1.1.tables.commit l.objects l.pending with
  | error e =>
      simp only [watched, watch, noting, serve, World.commit, hcommit] at hserved
      cases hserved
      refine ended_error ⟨?_, trivial⟩
      rcases hrefreshed with ⟨-, hmet₁⟩ | ⟨-, hmet₁⟩
      · exact hmet₁.mpr hmet
      · exact hmet₁.mpr ⟨hmet, .inl fun t ht => by cases hcommit.symm.trans ht⟩
  | ok t =>
      simp only [watched, watch, noting, serve, World.commit, hcommit] at hserved
      cases hserved
      rcases hrefreshed with ⟨⟨o, now, ho, hreading, hactive, hlater⟩, hmet₁⟩ | ⟨⟨o, ho, hnot⟩, hmet₁⟩
      · refine ensures_decrypt (object?_saved ho) fun s' l' h => ?_
        refine ended_live (object?_saved ho) ?_ hactive hlater ?_ h
        · exact hreading
        · exact (and_iff_left trivial).mpr (hmet₁.mpr hmet)
      · refine ensures_decrypt (object?_saved ho) fun s' l' h => ?_
        have hmet' : s'.2 ↔ Stuck settings connectionId s₁.1.1 l := by
          rw [h.met]
          exact (and_iff_left trivial).trans (hmet₁.trans (and_iff_right hmet))
        have ho' : l'.object? connectionId = some o.saved :=
          (h.object? connectionId).trans (object?_saved ho)
        show Ended settings connectionId s' l' (settings.keys.decrypt o.current.accessTokenEnc)
        cases hdecrypt : settings.keys.decrypt o.current.accessTokenEnc with
        | error e => exact ended_error (hmet'.mpr (.inr fun o' token ho'' => by simp_all))
        | ok token =>
            refine iff_of_false (fun hall => ?_) fun hstuck => ?_
            · obtain ⟨o', -, ho'', -, hactive, -⟩ := (hall token rfl).2
              cases ho'.symm.trans ho''
              exact hnot hactive
            · rcases hmet'.mp hstuck with hfails | hsealed
              · exact hfails t hcommit
              · exact hsealed o token ho hdecrypt

theorem ensures_freshAccessToken (hlasting : Lasting endpoint) (hkeys : SealsApart settings)
    {s : Watched π} (hmet : s.2) (l : Session) :
    Ensures (watched settings endpoint connectionId) (Ended settings connectionId) s l
      (freshAccessToken settings connectionId) := by
  unfold freshAccessToken
  cases ho : l.object? connectionId with
  | none =>
      refine ensures_ask_bind fun c s₁ l₁ found hserved => ?_
      simp only [watched, watch, noting, serve, ho, Option.map_none] at hserved
      cases hserved
      exact ended_error ⟨hmet, trivial⟩
  | some o =>
      refine ensures_bind (ensures_readObject ho) ?_ fun s₁ l₁ e h => ended_error (h.1.met.mpr hmet)
      rintro s₁ l₁ connection ⟨h₁, hview⟩
      cases hview
      have ho₁ : l₁.object? connectionId = some o := (h₁.object? connectionId).trans ho
      have hmet₁ : s₁.2 := h₁.met.mpr hmet
      split
      · exact ended_error hmet₁
      · rename_i hstatus
        have hactive : o.current.status = .active := not_not.mp hstatus
        show Ensures _ _ s₁ l₁ (refreshIfExpiring settings connectionId >>= _)
        rw [refreshIfExpiring, Proc.bind_assoc]
        refine ensures_ask_bind fun c s₂ l₂ expiring hserved => ?_
        obtain ⟨hs₂, hrest⟩ := Prod.mk.inj hserved
        obtain ⟨rfl, hanswer⟩ := Prod.mk.inj hrest
        have hmet₂ : s₂.2 := by
          rw [← hs₂]
          refine ⟨hmet₁, ?_⟩
          rintro ⟨o', ho', hnot, -⟩
          cases ho₁.symm.trans ho'
          exact absurd hactive hnot
        cases expiring with
        | true =>
            rw [if_pos rfl, Proc.bind_assoc]
            refine ensures_bind (ensures_refreshConnection hlasting hkeys ho₁) ?_ ?_
            · exact fun s₃ l₃ renewed h => ensures_commitAndDecrypt hmet₂ h
            · exact fun s₃ l₃ e h => ended_error (h.mpr hmet₂)
        | false =>
            have hlater : c.now + expirySkew < o.current.accessTokenExpiresAt := by
              have hnot : ((l₁.object? connectionId).any fun o =>
                decide (o.current.accessTokenExpiresAt ≤ c.now + expirySkew)) = false := hanswer
              rw [ho₁, Option.any_some] at hnot
              exact Int.not_le.mp (of_decide_eq_false hnot)
            refine ensures_decrypt ho₁ fun s' l' h => ?_
            exact ended_live ho₁ (by rw [← hs₂]; rfl) hactive hlater hmet₂ h

end Requests

/-- The call returns usable tokens exactly when the endpoint refuses no refresh
token while it lasts and the reload of the row does not find a connection that is
no longer ACTIVE. -/
theorem fresh_token_usable_iff {π : Type} (settings : Settings) (endpoint : TokenEndpoint π)
    (connectionId : Nat) (hlasting : Lasting endpoint) (hkeys : SealsApart settings)
    (w : World π) (l : Session) (choices : Nat → Choice) :
    ReturnsUsable settings endpoint connectionId w l choices ↔
      EvalMeets (serve endpoint) (keepsConsent settings endpoint connectionId)
        (freshAccessToken settings connectionId) w l choices := by
  have hensures : Ensures (watched settings endpoint connectionId) (Ended settings connectionId)
      ((w, none), True) l (freshAccessToken settings connectionId) :=
    ensures_freshAccessToken hlasting hkeys trivial l
  have hended := eval_of_ensures_watch hensures choices
  have hsame : (eval (noting (serve endpoint) noteReading) (freshAccessToken settings connectionId)
      (w, none) l choices).2 =
      (eval (serve endpoint) (freshAccessToken settings connectionId) w l choices).2 :=
    (eval_noting _ w none l choices).2
  refine Iff.trans ?_ (hended.trans (evalMeets_noting _ w none l choices))
  simp only [ReturnsUsable, call, reading, ← hsame]

theorem sealsApart_configured : SealsApart configured := by
  intro bytes message
  show framedKeys.decrypt bytes ≠ _
  simp only [framedKeys]
  split
  · exact nofun
  · split
    · exact nofun
    · exact nofun

/-- The access token of the connection has expired, and its session is open. -/
def oneExpired : World Unit where
  tables := tablesWith [expiredConnection 1] [] []
  locks := []
  queue := []
  endpoint := ()
  history := []

def opened : Session := { tenantId := 1, objects := [Object.ofRow 0 (expiredConnection 1)] }

def granting : TokenEndpoint Unit := fun _ _ _ _ => ((), tokenAnswer "new" "next")

def refusing : TokenEndpoint Unit := fun _ _ _ _ => ((), invalidGrantAnswer)

theorem lasting_granting : Lasting granting := by
  intro p id token c provider bundle h
  have hread : readAnswer provider (tokenAnswer "new" "next") = .ok bundle := h
  cases provider <;> cases hread <;> decide

theorem lasting_refusing : Lasting refusing := by
  intro p id token c provider bundle h
  have hread : readAnswer provider invalidGrantAnswer = .ok bundle := h
  cases provider <;> cases hread

/-- The tokens are renewed and the new one is returned. -/
theorem granted_token_usable :
    Lasting granting ∧ SealsApart configured ∧
      (call configured granting 1 oneExpired opened fun _ => {}).2 = .ok (py "new") ∧
      ReturnsUsable configured granting 1 oneExpired opened fun _ => {} := by
  refine ⟨lasting_granting, sealsApart_configured, by decide +kernel, ?_⟩
  refine (fresh_token_usable_iff configured granting 1 lasting_granting sealsApart_configured _ _
    _).mpr ?_
  have hactive : ∀ o, opened.object? 1 = some o → o.current.status = .active := by
    rintro o ⟨⟩
    rfl
  refine ⟨trivial, ?_, trivial, trivial, ?_, trivial, ?_, trivial, trivial, trivial, trivial,
    trivial, trivial, trivial, trivial, trivial⟩
  · rintro ⟨o, ho, hnot, -⟩
    exact absurd (hactive o ho) hnot
  · rintro ⟨o, ⟨⟩, hnot, -⟩
    exact absurd rfl hnot
  · intro h
    cases h

/-- The endpoint answers `invalid_grant`: the expired token is returned, of a
connection that waits for a new consent. -/
theorem refused_token_returned :
    Lasting refusing ∧ SealsApart configured ∧
      (call configured refusing 1 oneExpired opened fun _ => {}).2 = .ok (py "access") ∧
      ¬ ReturnsUsable configured refusing 1 oneExpired opened fun _ => {} := by
  have hreturned : (call configured refusing 1 oneExpired opened fun _ => {}).2 =
      .ok (py "access") := by decide +kernel
  refine ⟨lasting_refusing, sealsApart_configured, hreturned, fun h => ?_⟩
  obtain ⟨o, now, ho, -, hactive, -⟩ := (h _ hreturned).2
  have hstatus : ((call configured refusing 1 oneExpired opened fun _ => {}).1.object? 1).map
      (·.current.status) = some .needsReconsent := by decide +kernel
  rw [ho, Option.map_some, hactive] at hstatus
  cases hstatus

end Socle.FreshTokens
