import Socle.ConnectorTransactions

/-!
A provider that rotates refresh tokens, what the history tells of the tokens of
one connection, and the invariant of the sessions that exchange them.
-/

namespace Socle.RefreshLedger

open Socle.GuardedRuns
open Socle.Procedures
open Socle.TokenExchange
open Socle.ConnectorStore
open Socle.ConnectorService
open Socle.ConnectorTransactions

/-! ### A provider that rotates refresh tokens -/

/-- The refresh token the provider accepts for the connection, and all those it
has issued so far. -/
structure Rotation where
  current : PyStr
  issued : List PyStr

/-- `{"error": "invalid_grant"}` with status 400. -/
def invalidGrantAnswer : HttpAnswer :=
  .response ⟨400, .json (.obj [(py "error", .str (py "invalid_grant"))])⟩

/-- The token endpoint of a rotating provider.  A token other than the current
one is refused.  With the current one the environment chooses: an error, which
leaves the token valid, or a success, which must bring a token never issued
before and makes it the current one.  Other connections are answered freely. -/
def rotatingEndpoint (connectionId : Nat) : TokenEndpoint Rotation := fun p id token c =>
  if id ≠ connectionId then (p, c.answer)
  else if token ≠ p.current then (p, invalidGrantAnswer)
  else
    match readAnswer .google c.answer with
    | .error _ => (p, c.answer)
    | .ok bundle =>
        match bundle.refreshToken with
        | none | some [] => (p, .transportError "ReadError")
        | some (head :: rest) =>
            if (head :: rest) ∈ p.issued then (p, .transportError "ReadError")
            else (⟨head :: rest, (head :: rest) :: p.issued⟩, c.answer)

/-- What the history tells of the refresh tokens of one connection: those a
successful exchange has consumed, whether one of them was presented afterwards,
and whether an exchange has succeeded whose tokens are not committed. -/
structure Ledger where
  consumed : List PyStr
  replayed : Bool
  outstanding : Bool
  deriving DecidableEq

def Ledger.step (connectionId : Nat) (ledger : Ledger) : Event → Ledger
  | .presented id token =>
      if id = connectionId ∧ token ∈ ledger.consumed then { ledger with replayed := true }
      else ledger
  | .exchanged id token =>
      if id = connectionId then
        { ledger with consumed := token :: ledger.consumed, outstanding := true }
      else ledger
  | .settled id => if id = connectionId then { ledger with outstanding := false } else ledger
  | _ => ledger

def ledgerOf (connectionId : Nat) (history : List Event) : Ledger :=
  history.foldl (Ledger.step connectionId) ⟨[], false, false⟩

/-- A successful exchange for the connection. -/
def exchanges (connectionId : Nat) : Event → Bool
  | .exchanged id _ => id == connectionId
  | _ => false

/-- At a read made at this position no exchange was waiting for its commit, and
none has succeeded since. -/
def currentSince (connectionId : Nat) (history : List Event) (mark : Nat) : Bool :=
  !(ledgerOf connectionId (history.take mark)).outstanding &&
    !(history.drop mark).any (exchanges connectionId)

/-- What the ledger needs of an exchange: the refresh token is presented from a row
that was last read when no other call was between its exchange and its commit, and
since when no exchange has succeeded. -/
def presentsCurrent (connectionId : Nat) (w : World Rotation) (ls : List Session) (i : Nat) :
    Request → Bool
  | .exchange id _ =>
      id != connectionId ||
        ((ls[i]?).bind fun l => l.object? connectionId).all fun o =>
          currentSince connectionId w.history o.readMark
  | _ => true

/-- The session holds no token of the connection that it has not committed. -/
def quiet (connectionId : Nat) (l : Session) : Prop := ∀ token, (connectionId, token) ∉ l.issued

section Ledger

variable {connectionId : Nat}

theorem ledgerOf_append (connectionId : Nat) (history events : List Event) :
    ledgerOf connectionId (history ++ events) =
      events.foldl (Ledger.step connectionId) (ledgerOf connectionId history) :=
  List.foldl_append

theorem outstanding_foldl {events : List Event} {ledger : Ledger}
    (hnone : events.any (exchanges connectionId) = false) (h : ledger.outstanding = false) :
    (events.foldl (Ledger.step connectionId) ledger).outstanding = false := by
  induction events generalizing ledger with
  | nil => exact h
  | cons event rest ih =>
      rw [List.any_cons, Bool.or_eq_false_iff] at hnone
      apply ih hnone.2
      cases event with
      | presented id token =>
          simp only [Ledger.step]
          split <;> exact h
      | exchanged id token =>
          have hid : id ≠ connectionId := by simpa [exchanges] using hnone.1
          simpa [Ledger.step, hid] using h
      | settled id =>
          simp only [Ledger.step]
          split
          · rfl
          · exact h
      | _ => exact h

theorem not_outstanding_of_currentSince {history : List Event} {mark : Nat}
    (h : currentSince connectionId history mark = true) :
    (ledgerOf connectionId history).outstanding = false := by
  simp only [currentSince, Bool.and_eq_true, Bool.not_eq_true'] at h
  rw [← List.take_append_drop mark history, ledgerOf_append]
  exact outstanding_foldl h.2 h.1

theorem currentSince_append {history events : List Event} {mark : Nat}
    (hmark : mark ≤ history.length) :
    currentSince connectionId (history ++ events) mark =
      (currentSince connectionId history mark && !events.any (exchanges connectionId)) := by
  simp only [currentSince, List.take_append_of_le_length hmark, List.drop_append_of_le_length hmark,
    List.any_append, Bool.not_or, Bool.and_assoc]

theorem mem_trace {o : Object} {event : Event} (h : event ∈ o.trace) :
    event = .settled o.row.id ∧ o.current.refreshTokenEnc ≠ o.row.attributes.refreshTokenEnc ∨
      event = .revoked o.row.id := by
  rcases List.mem_append.mp h with hsettled | hrevoked
  · split at hsettled
    · cases hsettled
    · rename_i hchanged
      exact .inl ⟨List.mem_singleton.mp hsettled, hchanged⟩
  · split at hrevoked
    · exact .inr (List.mem_singleton.mp hrevoked)
    · cases hrevoked

theorem foldl_trace_of_unchanged {objects : List Object} (ledger : Ledger)
    (hsame : ∀ o ∈ objects, o.row.id = connectionId →
      o.current.refreshTokenEnc = o.row.attributes.refreshTokenEnc) :
    (objects.flatMap Object.trace).foldl (Ledger.step connectionId) ledger = ledger := by
  apply List.foldlRecOn (motive := fun x => x = ledger) _ _ rfl
  rintro x rfl event hevent
  obtain ⟨o, ho, htrace⟩ := List.mem_flatMap.mp hevent
  rcases mem_trace htrace with ⟨rfl, hchanged⟩ | rfl
  · have hid : o.row.id ≠ connectionId := fun hid => hchanged (hsame o ho hid)
    simp [Ledger.step, hid]
  · rfl

theorem foldl_trace (connectionId : Nat) (objects : List Object) (ledger : Ledger) :
    (objects.flatMap Object.trace).foldl (Ledger.step connectionId) ledger = ledger ∨
      (objects.flatMap Object.trace).foldl (Ledger.step connectionId) ledger =
        { ledger with outstanding := false } := by
  apply List.foldlRecOn
    (motive := fun x => x = ledger ∨ x = { ledger with outstanding := false }) _ _ (.inl rfl)
  intro x hx event hevent
  obtain ⟨o, -, htrace⟩ := List.mem_flatMap.mp hevent
  rcases mem_trace htrace with ⟨rfl, -⟩ | rfl
  · by_cases hid : o.row.id = connectionId
    · right
      rcases hx with rfl | rfl <;> simp [Ledger.step, hid]
    · simpa [Ledger.step, hid] using hx
  · exact hx

theorem exchanges_trace (connectionId : Nat) (objects : List Object) :
    (objects.flatMap Object.trace).any (exchanges connectionId) = false := by
  rw [List.any_eq_false]
  intro event hevent
  obtain ⟨o, -, htrace⟩ := List.mem_flatMap.mp hevent
  rcases mem_trace htrace with ⟨rfl, -⟩ | rfl <;> simp [exchanges]

theorem settled_trace {objects : List Object} {o : Object} (ledger : Ledger) (ho : o ∈ objects)
    (hid : o.row.id = connectionId)
    (hchanged : o.current.refreshTokenEnc ≠ o.row.attributes.refreshTokenEnc) :
    ((objects.flatMap Object.trace).foldl (Ledger.step connectionId) ledger).outstanding =
      false := by
  have hmem : Event.settled connectionId ∈ objects.flatMap Object.trace := by
    refine List.mem_flatMap.mpr ⟨o, ho, ?_⟩
    simp [Object.trace, hchanged, hid]
  obtain ⟨before, after, hsplit⟩ := List.append_of_mem hmem
  have hnone := exchanges_trace connectionId objects
  rw [hsplit, List.any_append, List.any_cons, Bool.or_eq_false_iff, Bool.or_eq_false_iff] at hnone
  rw [hsplit, List.foldl_append, List.foldl_cons]
  exact outstanding_foldl hnone.2.2 (by simp [Ledger.step])

end Ledger

theorem readAnswer_ok {p q : ConnectorProvider} {answer : HttpAnswer} {bundle : TokenBundle}
    (h : readAnswer p answer = .ok bundle) : readAnswer q answer = .ok bundle := by
  cases answer with
  | transportError _ => cases h
  | response response =>
      simp only [readAnswer, parseTokenResponse] at h ⊢
      split at h
      · cases h
      · rename_i hstatus
        rw [if_neg hstatus]
        split at h
        · cases h
        · rename_i fields hload
          unfold parseBundle at h ⊢
          split at h
          · cases h
          · cases h
          · exact h
        · cases h

theorem readAnswer_invalidGrant : readAnswer .google invalidGrantAnswer =
    .error (.invalidGrant "Refresh token invalidé par google (invalid_grant).") := by
  decide +kernel

theorem rotatingEndpoint_current (connectionId : Nat) (p : Rotation) (c : Choice) :
    (∃ answer e, rotatingEndpoint connectionId p connectionId p.current c = (p, answer) ∧
        readAnswer .google answer = .error e) ∨
      ∃ token bundle answer, token ∉ p.issued ∧ token ≠ [] ∧
        rotatingEndpoint connectionId p connectionId p.current c =
          (⟨token, token :: p.issued⟩, answer) ∧
        readAnswer .google answer = .ok bundle ∧ bundle.refreshToken = some token := by
  simp only [rotatingEndpoint, ne_eq, not_true_eq_false, if_false]
  split
  · rename_i e herror
    exact .inl ⟨c.answer, e, rfl, herror⟩
  · rename_i bundle hok
    split
    · exact .inl ⟨_, _, rfl, rfl⟩
    · exact .inl ⟨_, _, rfl, rfl⟩
    · rename_i head rest htoken
      split
      · exact .inl ⟨_, _, rfl, rfl⟩
      · rename_i hfresh
        exact .inr ⟨head :: rest, bundle, c.answer, hfresh, by simp, rfl, hok, htoken⟩

theorem rotatingEndpoint_ok {connectionId : Nat} {p : Rotation} {token : PyStr} {c : Choice}
    {bundle : TokenBundle}
    (h : readAnswer .google (rotatingEndpoint connectionId p connectionId token c).2 =
      .ok bundle) : ∃ head rest, bundle.refreshToken = some (head :: rest) := by
  by_cases htoken : token = p.current
  · rw [htoken] at h
    rcases rotatingEndpoint_current connectionId p c with
      ⟨answer, e, hanswer, hread⟩ | ⟨new, b, answer, -, hne, hanswer, hread, hb⟩
    · rw [hanswer] at h
      rw [hread] at h
      cases h
    · rw [hanswer] at h
      rw [hread] at h
      cases h
      obtain ⟨head, rest, rfl⟩ := List.exists_cons_of_ne_nil hne
      exact ⟨head, rest, hb⟩
  · simp only [rotatingEndpoint, ne_eq, not_true_eq_false, if_false, htoken, not_false_eq_true,
      if_true] at h
    rw [readAnswer_invalidGrant] at h
    cases h

theorem issuedBy_other {connectionId id : Nat} (hid : id ≠ connectionId) {answer : HttpAnswer}
    {token : PyStr} :
    (connectionId, token) ∉ issuedBy id answer := by
  unfold issuedBy
  split
  · intro hmem
    obtain ⟨_, -, heq⟩ := List.mem_map.mp hmem
    exact hid (Prod.mk.inj heq).1
  · exact List.not_mem_nil

/-- The tokens issued to the session are on its objects. -/
def committable (settings : Settings) (connectionId : Nat) (l : Session) : Prop :=
  ∀ token, (connectionId, token) ∈ l.issued →
    ∃ o, l.object? connectionId = some o ∧
      settings.keys.decrypt o.current.refreshTokenEnc = .ok token

/-- What a call may do in its own state: it presents the token of its object, it
assigns only tokens issued to it, it commits only when it has assigned them, and
it reads no row before. -/
def allowed (settings : Settings) (connectionId : Nat) (l : Session) : Request → Prop
  | .exchange id token =>
      id = connectionId → quiet connectionId l ∧ ∃ o, l.object? connectionId = some o ∧
        settings.keys.decrypt o.current.refreshTokenEnc = .ok token
  | .assign id value =>
      id = connectionId → ∀ stamp a a', value stamp a = .ok a' →
        a'.refreshTokenEnc = a.refreshTokenEnc ∨
          ∃ token, (connectionId, token) ∈ l.issued ∧
            settings.keys.decrypt a'.refreshTokenEnc = .ok token
  | .commit => committable settings connectionId l
  | .openSession _ => quiet connectionId l
  | .selectActiveConnections => quiet connectionId l
  | .getConnection _ => quiet connectionId l
  | .findConnection .. => quiet connectionId l
  | .refreshObject _ => quiet connectionId l
  | .addConnection .. => False
  | _ => True

/-- What is known of an object of the connection. -/
structure Known (settings : Settings) (connectionId : Nat) (w : World Rotation) (l : Session)
    (o : Object) : Prop where
  old : o.isNew = false
  mark : o.readMark ≤ w.history.length
  clean : quiet connectionId l → o.current.refreshTokenEnc = o.row.attributes.refreshTokenEnc
  current : currentSince connectionId w.history o.readMark = true →
    settings.keys.decrypt o.row.attributes.refreshTokenEnc = .ok w.endpoint.current
  fresh : ∀ token, (connectionId, token) ∈ l.issued →
    settings.keys.decrypt o.row.attributes.refreshTokenEnc ≠ .ok token

/-- No consumed token was presented; while no exchange is outstanding the row
holds the current token; otherwise one session holds it. -/
structure Serialized (settings : Settings) (connectionId : Nat) (w : World Rotation)
    (ls : List Session) : Prop where
  issued : w.endpoint.current ∈ w.endpoint.issued
  consumed : ∀ token ∈ (ledgerOf connectionId w.history).consumed,
    token ∈ w.endpoint.issued ∧ token ≠ w.endpoint.current
  sound : (ledgerOf connectionId w.history).replayed = false
  stored : (ledgerOf connectionId w.history).outstanding = false →
    ∀ row ∈ w.tables.connections, row.id = connectionId →
      settings.keys.decrypt row.attributes.refreshTokenEnc = .ok w.endpoint.current
  idle : (ledgerOf connectionId w.history).outstanding = false → ∀ l ∈ ls, quiet connectionId l
  held : (ledgerOf connectionId w.history).outstanding = true → ∃ l ∈ ls, ¬quiet connectionId l
  pending : ∀ l ∈ ls, ∀ token, (connectionId, token) ∈ l.issued → token = w.endpoint.current
  alone : ∀ (i j : Nat) (a b : Session), ls[i]? = some a → ls[j]? = some b → i ≠ j →
    quiet connectionId a ∨ quiet connectionId b
  single : ∀ l ∈ ls, oneObject connectionId l
  known : ∀ l ∈ ls, ∀ o ∈ l.objects, o.row.id = connectionId → Known settings connectionId w l o

section Invariant

variable {settings : Settings} {connectionId : Nat} {w w' : World Rotation}
variable {ls : List Session} {i : Nat} {l l' : Session}

theorem Known.later {o : Object} (h : Known settings connectionId w l o) {events : List Event}
    (hhistory : w'.history = w.history ++ events) (hendpoint : w'.endpoint = w.endpoint)
    (hnone : events.any (exchanges connectionId) = false) :
    Known settings connectionId w' l o := by
  refine ⟨h.old, ?_, h.clean, ?_, h.fresh⟩
  · rw [hhistory, List.length_append]
    exact Nat.le_add_right_of_le h.mark
  · rw [hhistory, hendpoint, currentSince_append h.mark, hnone]
    simpa using h.current

theorem known_ofRow (hG : Serialized settings connectionId w ls) (hquiet : quiet connectionId l)
    {row : Connection} (hrow : row ∈ w.tables.connections) (hid : row.id = connectionId) :
    Known settings connectionId w l (Object.ofRow w.history.length row) := by
  refine ⟨rfl, Nat.le_refl _, fun _ => rfl, ?_, fun token hmem => absurd hmem (hquiet token)⟩
  intro hcurrent
  exact hG.stored (not_outstanding_of_currentSince hcurrent) row hrow hid

theorem Serialized.of_local (hG : Serialized settings connectionId w ls)
    (hi : ls[i]? = some l)
    (hconnections : ∀ row ∈ w'.tables.connections, row.id = connectionId →
      ∃ old ∈ w.tables.connections, old.id = connectionId ∧
        row.attributes.refreshTokenEnc = old.attributes.refreshTokenEnc)
    (hendpoint : w'.endpoint = w.endpoint) (events : List Event)
    (hhistory : w'.history = w.history ++ events)
    (hledger : ledgerOf connectionId w'.history = ledgerOf connectionId w.history)
    (hnone : events.any (exchanges connectionId) = false)
    (hissued : ∀ token, (connectionId, token) ∈ l'.issued ↔ (connectionId, token) ∈ l.issued)
    (hsingle : oneObject connectionId l')
    (hknown : ∀ o ∈ l'.objects, o.row.id = connectionId → Known settings connectionId w l' o) :
    Serialized settings connectionId w' (ls.set i l') := by
  have hl := List.mem_of_getElem? hi
  have hquiet (h : quiet connectionId l) : quiet connectionId l' :=
    fun token hmem => h token ((hissued token).mp hmem)
  constructor
  · rw [hendpoint]
    exact hG.issued
  · rw [hledger, hendpoint]
    exact hG.consumed
  · rw [hledger]
    exact hG.sound
  · rw [hledger, hendpoint]
    intro hout row hrow hid
    obtain ⟨old, hold, holdId, heq⟩ := hconnections row hrow hid
    rw [heq]
    exact hG.stored hout old hold holdId
  · rw [hledger]
    intro hout x hx
    rcases List.mem_or_eq_of_mem_set hx with hold | rfl
    · exact hG.idle hout x hold
    · exact hquiet (hG.idle hout l hl)
  · rw [hledger]
    intro hout
    obtain ⟨x, hx, hheld⟩ := hG.held hout
    obtain ⟨j, hj⟩ := List.getElem?_of_mem hx
    by_cases hij : i = j
    · subst hij
      have hxl : l = x := Option.some.inj (hi.symm.trans hj)
      refine ⟨l', List.mem_set (List.getElem?_eq_some_iff.mp hi).1 l', fun h => hheld ?_⟩
      rw [← hxl]
      exact fun token hmem => h token ((hissued token).mpr hmem)
    · refine ⟨x, List.mem_of_getElem? (i := j) ?_, hheld⟩
      rw [List.getElem?_set_ne hij]
      exact hj
  · rw [hendpoint]
    intro x hx token htoken
    rcases List.mem_or_eq_of_mem_set hx with hold | rfl
    · exact hG.pending x hold token htoken
    · exact hG.pending l hl token ((hissued token).mp htoken)
  · intro j k a b ha hb hne
    rw [List.getElem?_set] at ha hb
    split at ha <;> split at hb
    · omega
    · rename_i hij _
      split at ha
      · cases ha
        rcases hG.alone j k l b (hij ▸ hi) hb hne with h | h
        · exact .inl (hquiet h)
        · exact .inr h
      · cases ha
    · rename_i _ hik
      split at hb
      · cases hb
        rcases hG.alone j k a l ha (hik ▸ hi) hne with h | h
        · exact .inl h
        · exact .inr (hquiet h)
      · cases hb
    · exact hG.alone j k a b ha hb hne
  · intro x hx
    rcases List.mem_or_eq_of_mem_set hx with hold | rfl
    · exact hG.single x hold
    · exact hsingle
  · intro x hx o ho hid
    rcases List.mem_or_eq_of_mem_set hx with hold | rfl
    · exact (hG.known x hold o ho hid).later hhistory hendpoint hnone
    · exact (hknown o ho hid).later hhistory hendpoint hnone

theorem serialized_exchange_other (hG : Serialized settings connectionId w ls)
    (hi : ls[i]? = some l) {id : Nat} (hid : id ≠ connectionId) (token : PyStr) (c : Choice) :
    Serialized settings connectionId
      (serve (rotatingEndpoint connectionId) w l (.exchange id token) c).1
      (ls.set i (serve (rotatingEndpoint connectionId) w l (.exchange id token) c).2.1) := by
  have hl := List.mem_of_getElem? hi
  have hendpoint : rotatingEndpoint connectionId w.endpoint id token c =
      (w.endpoint, c.answer) := by
    simp [rotatingEndpoint, hid]
  have htrace : ledgerOf connectionId (w.history ++ exchangeTrace id token c.answer) =
      ledgerOf connectionId w.history ∧
      (exchangeTrace id token c.answer).any (exchanges connectionId) = false := by
    unfold exchangeTrace
    rw [ledgerOf_append]
    split <;> simp [Ledger.step, exchanges, hid]
  have hissued (t : PyStr) : (connectionId, t) ∈ issuedBy id c.answer ++ l.issued ↔
      (connectionId, t) ∈ l.issued := by
    rw [List.mem_append, or_iff_right (issuedBy_other hid)]
  simp only [serve, hendpoint]
  refine hG.of_local hi (fun row hrow hid => ⟨row, hrow, hid, rfl⟩) rfl _ rfl htrace.1 htrace.2
    hissued (hG.single l hl) ?_
  intro x hx hxid
  have hx := hG.known l hl x hx hxid
  refine ⟨hx.old, hx.mark, fun hq => hx.clean fun t ht => ?_, hx.current, fun t ht => ?_⟩
  · exact hq t (List.mem_append_right _ ht)
  · exact hx.fresh t ((hissued t).mp ht)

theorem serialized_exchange_failed (hG : Serialized settings connectionId w ls)
    (hi : ls[i]? = some l) {answer : HttpAnswer} {e : Failure}
    (hread : readAnswer .google answer = .error e) :
    Serialized settings connectionId
      { w with history := w.history ++ exchangeTrace connectionId w.endpoint.current answer }
      (ls.set i { l with issued := issuedBy connectionId answer ++ l.issued }) := by
  have hl := List.mem_of_getElem? hi
  have hfresh : w.endpoint.current ∉ (ledgerOf connectionId w.history).consumed :=
    fun h => (hG.consumed _ h).2 rfl
  have htrace : ledgerOf connectionId
      (w.history ++ exchangeTrace connectionId w.endpoint.current answer) =
        ledgerOf connectionId w.history ∧
      (exchangeTrace connectionId w.endpoint.current answer).any (exchanges connectionId) =
        false := by
    unfold exchangeTrace
    rw [hread, ledgerOf_append]
    cases e <;> simp [Ledger.step, hfresh, exchanges]
  have hissued : issuedBy connectionId answer ++ l.issued = l.issued := by
    simp [issuedBy, hread]
  rw [hissued]
  exact hG.of_local hi (fun row hrow hid => ⟨row, hrow, hid, rfl⟩) rfl _ rfl htrace.1 htrace.2
    (fun _ => Iff.rfl) (hG.single l hl) (hG.known l hl)

/-- The current refresh token is presented, from a row read when it was the
current one, and the provider rotates it. -/
theorem serialized_exchange_rotated (hG : Serialized settings connectionId w ls)
    (hi : ls[i]? = some l) {o : Object} (ho : o ∈ l.objects) (hoid : o.row.id = connectionId)
    (hsince : currentSince connectionId w.history o.readMark = true) {answer : HttpAnswer}
    {bundle : TokenBundle} {new : PyStr} (hnew : new ∉ w.endpoint.issued)
    (hread : readAnswer .google answer = .ok bundle) (hbundle : bundle.refreshToken = some new) :
    Serialized settings connectionId
      { w with
        endpoint := ⟨new, new :: w.endpoint.issued⟩
        history := w.history ++ exchangeTrace connectionId w.endpoint.current answer }
      (ls.set i { l with issued := issuedBy connectionId answer ++ l.issued }) := by
  have hl := List.mem_of_getElem? hi
  have hidle := hG.idle (not_outstanding_of_currentSince hsince)
  have hquiet := hidle l hl
  have hrow := (hG.known l hl o ho hoid).current hsince
  have hfresh : w.endpoint.current ∉ (ledgerOf connectionId w.history).consumed :=
    fun h => (hG.consumed _ h).2 rfl
  have htrace : exchangeTrace connectionId w.endpoint.current answer =
      [.presented connectionId w.endpoint.current,
        .exchanged connectionId w.endpoint.current] := by
    simp [exchangeTrace, hread]
  have hissued : issuedBy connectionId answer = [(connectionId, new)] := by
    simp [issuedBy, hread, hbundle]
  have hledger : ledgerOf connectionId
      (w.history ++ exchangeTrace connectionId w.endpoint.current answer) =
        { ledgerOf connectionId w.history with
          consumed := w.endpoint.current :: (ledgerOf connectionId w.history).consumed
          outstanding := true } := by
    rw [ledgerOf_append, htrace]
    simp [Ledger.step, hfresh]
  have hne (t : PyStr) (ht : t ∈ w.endpoint.issued) : t ≠ new := fun h => hnew (h ▸ ht)
  -- Every row read so far is older than this exchange.
  have hstale (x : Object) (hmark : x.readMark ≤ w.history.length) :
      currentSince connectionId
        (w.history ++ exchangeTrace connectionId w.endpoint.current answer) x.readMark =
          false := by
    rw [currentSince_append hmark, htrace]
    simp [exchanges]
  have hlater (x : Object) (hmark : x.readMark ≤ w.history.length) :
      x.readMark ≤
        (w.history ++ exchangeTrace connectionId w.endpoint.current answer).length := by
    rw [List.length_append]
    omega
  rw [hissued]
  constructor
  · exact List.mem_cons_self
  · rw [hledger]
    intro t ht
    rcases List.mem_cons.mp ht with rfl | hold
    · exact ⟨List.mem_cons_of_mem _ hG.issued, hne _ hG.issued⟩
    · have hmem := (hG.consumed t hold).1
      exact ⟨List.mem_cons_of_mem _ hmem, hne t hmem⟩
  · rw [hledger]
    exact hG.sound
  · rw [hledger]
    intro h
    cases h
  · rw [hledger]
    intro h
    cases h
  · intro _
    refine ⟨_, List.mem_set (List.getElem?_eq_some_iff.mp hi).1 _, fun h => ?_⟩
    exact h new List.mem_cons_self
  · intro x hx t ht
    rcases List.mem_or_eq_of_mem_set hx with hold | rfl
    · exact absurd ht (hidle x hold t)
    · rcases List.mem_cons.mp ht with heq | hold
      · exact (Prod.mk.inj heq).2
      · exact absurd hold (hquiet t)
  · intro j k a b ha hb hjk
    rw [List.getElem?_set] at ha hb
    split at ha
    · rename_i hij
      rw [if_neg (fun h => hjk (hij.symm.trans h))] at hb
      exact .inr (hidle b (List.mem_of_getElem? hb))
    · exact .inl (hidle a (List.mem_of_getElem? ha))
  · intro x hx
    rcases List.mem_or_eq_of_mem_set hx with hold | rfl
    · exact hG.single x hold
    · exact hG.single l hl
  · intro x hx y hy hyid
    rcases List.mem_or_eq_of_mem_set hx with hold | rfl
    · have hy := hG.known x hold y hy hyid
      refine ⟨hy.old, hlater y hy.mark, hy.clean, fun h => ?_, hy.fresh⟩
      rw [hstale y hy.mark] at h
      cases h
    · have heq : y = o := hG.single l hl y hy o ho hyid hoid
      have hy := hG.known l hl y hy hyid
      refine ⟨hy.old, hlater y hy.mark, ?_, fun h => ?_, ?_⟩
      · intro hq
        exact absurd List.mem_cons_self (hq new)
      · rw [hstale y hy.mark] at h
        cases h
      · intro t ht hdecrypt
        rcases List.mem_cons.mp ht with h | hold
        · rw [heq, hrow] at hdecrypt
          exact hne _ hG.issued ((Except.ok.inj hdecrypt).trans (Prod.mk.inj h).2)
        · exact absurd hold (hquiet t)

theorem serialized_exchange (hG : Serialized settings connectionId w ls) (hi : ls[i]? = some l)
    {id : Nat} {token : PyStr} (c : Choice)
    (hallowed : allowed settings connectionId l (.exchange id token))
    (hcond : presentsCurrent connectionId w ls i (.exchange id token) = true) :
    Serialized settings connectionId
      (serve (rotatingEndpoint connectionId) w l (.exchange id token) c).1
      (ls.set i (serve (rotatingEndpoint connectionId) w l (.exchange id token) c).2.1) := by
  by_cases hid : id = connectionId
  · subst hid
    obtain ⟨hquiet, o, ho, hdecrypt⟩ := hallowed rfl
    obtain ⟨hmem, hoid⟩ := mem_of_object? ho
    have hsince : currentSince id w.history o.readMark = true := by
      simpa [presentsCurrent, hi, ho] using hcond
    have hknown := hG.known l (List.mem_of_getElem? hi) o hmem hoid
    have hcurrent : token = w.endpoint.current := by
      rw [hknown.clean hquiet, hknown.current hsince] at hdecrypt
      exact (Except.ok.inj hdecrypt).symm
    subst hcurrent
    rcases rotatingEndpoint_current id w.endpoint c with
      ⟨answer, e, hanswer, hread⟩ | ⟨new, bundle, answer, hnew, -, hanswer, hread, hbundle⟩
    · simp only [serve, hanswer]
      exact serialized_exchange_failed hG hi hread
    · simp only [serve, hanswer]
      exact serialized_exchange_rotated hG hi hmem hoid hsince hnew hread hbundle
  · exact serialized_exchange_other hG hi hid token c

theorem known_saved {o : Object} (h : Known settings connectionId w l o)
    (hcurrent : currentSince connectionId w.history o.readMark = true →
      settings.keys.decrypt o.current.refreshTokenEnc = .ok w.endpoint.current)
    (hl' : l'.issued = []) : Known settings connectionId w l' o.saved := by
  refine ⟨rfl, h.mark, fun _ => rfl, hcurrent, ?_⟩
  rw [hl']
  intro token hmem
  cases hmem

theorem serialized_commit_quiet (hG : Serialized settings connectionId w ls)
    (hi : ls[i]? = some l) (hquiet : quiet connectionId l) {t : Tables}
    (ht : w.tables.commit l.objects l.pending = .ok t) :
    Serialized settings connectionId
      { w with tables := t, history := w.history ++ l.objects.flatMap Object.trace }
      (ls.set i { l with objects := l.objects.map Object.saved, pending := [], issued := [] }) := by
  have hl := List.mem_of_getElem? hi
  obtain ⟨u, hu, happly⟩ := commit_eq_ok ht
  have hsame (o : Object) (ho : o ∈ l.objects) (hid : o.row.id = connectionId) :
      o.current.refreshTokenEnc = o.row.attributes.refreshTokenEnc :=
    (hG.known l hl o ho hid).clean hquiet
  refine hG.of_local hi ?_ rfl _ rfl ?_ (exchanges_trace connectionId l.objects) ?_ ?_ ?_
  · intro row hrow hid
    rw [connections_applyAll happly] at hrow
    obtain ⟨old, hold, holdId, rfl⟩ := mem_writeObjects hu
      (fun o ho hoid => (hG.known l hl o ho hoid).old) hrow hid
    refine ⟨old, hold, holdId, ?_⟩
    rcases writes_column write_refreshTokenEnc connectionId l.objects old.attributes with
      ⟨heq, -⟩ | ⟨o, ho, hoid, hchanged, -⟩
    · exact heq
    · exact absurd (hsame o ho hoid) hchanged
  · rw [ledgerOf_append]
    exact foldl_trace_of_unchanged _ hsame
  · exact fun token => iff_of_false List.not_mem_nil (hquiet token)
  · exact oneObject_map (f := Object.saved) (fun _ => rfl) (hG.single l hl) rfl
  · intro x hx hid
    obtain ⟨o, ho, rfl⟩ := List.mem_map.mp hx
    have hknown := hG.known l hl o ho hid
    refine known_saved hknown ?_ rfl
    rw [hsame o ho hid]
    exact hknown.current

theorem serialized_commit_issued (hG : Serialized settings connectionId w ls)
    (hi : ls[i]? = some l) {token : PyStr} (hissued : (connectionId, token) ∈ l.issued)
    (hallowed : committable settings connectionId l) {t : Tables}
    (ht : w.tables.commit l.objects l.pending = .ok t) :
    Serialized settings connectionId
      { w with tables := t, history := w.history ++ l.objects.flatMap Object.trace }
      (ls.set i { l with objects := l.objects.map Object.saved, pending := [], issued := [] }) := by
  have hl := List.mem_of_getElem? hi
  obtain ⟨u, hu, happly⟩ := commit_eq_ok ht
  obtain ⟨o, hfound, hdecrypt⟩ := hallowed token hissued
  obtain ⟨ho, hoid⟩ := mem_of_object? hfound
  have hknown := hG.known l hl o ho hoid
  have htoken : token = w.endpoint.current := hG.pending l hl token hissued
  have hchanged : o.current.refreshTokenEnc ≠ o.row.attributes.refreshTokenEnc := by
    intro heq
    rw [heq] at hdecrypt
    exact hknown.fresh token hissued hdecrypt
  have hother (j : Nat) (x : Session) (hj : ls[j]? = some x) (hne : j ≠ i) :
      quiet connectionId x := by
    rcases hG.alone j i x l hj hi hne with h | h
    · exact h
    · exact absurd hissued (h token)
  have hquiet (x : Session) (hx : x ∈ ls.set i
      { l with objects := l.objects.map Object.saved, pending := [], issued := [] }) :
      quiet connectionId x := by
    obtain ⟨j, hj⟩ := List.getElem?_of_mem hx
    rw [List.getElem?_set] at hj
    split at hj
    · split at hj
      · cases hj
        intro token hmem
        cases hmem
      · cases hj
    · rename_i hne
      exact hother j x hj (Ne.symm hne)
  have hledger := foldl_trace connectionId l.objects (ledgerOf connectionId w.history)
  have hnone := exchanges_trace connectionId l.objects
  rw [← ledgerOf_append] at hledger
  constructor
  · exact hG.issued
  · rcases hledger with h | h <;> rw [h] <;> exact hG.consumed
  · rcases hledger with h | h <;> rw [h] <;> exact hG.sound
  · intro _ row hrow hid
    rw [connections_applyAll happly] at hrow
    obtain ⟨old, hold, holdId, rfl⟩ := mem_writeObjects hu
      (fun x hx hxid => (hG.known l hl x hx hxid).old) hrow hid
    rcases writes_column write_refreshTokenEnc connectionId l.objects old.attributes with
      ⟨-, hsame⟩ | ⟨x, hx, hxid, -, heq⟩
    · exact absurd (hsame o ho hoid) hchanged
    · have hxo : x = o := hG.single l hl x hx o ho hxid hoid
      rw [heq, hxo, hdecrypt, htoken]
  · intro _ x hx
    exact hquiet x hx
  · intro hout
    rw [ledgerOf_append, settled_trace _ ho hoid hchanged] at hout
    cases hout
  · intro x hx t' hmem
    exact absurd hmem (hquiet x hx t')
  · intro j k a b ha _ _
    exact .inl (hquiet a (List.mem_of_getElem? ha))
  · intro x hx
    rcases List.mem_or_eq_of_mem_set hx with hold | rfl
    · exact hG.single x hold
    · exact oneObject_map (f := Object.saved) (fun _ => rfl) (hG.single l hl) rfl
  · intro x hx y hy hyid
    rcases List.mem_or_eq_of_mem_set hx with hold | rfl
    · exact (hG.known x hold y hy hyid).later rfl rfl hnone
    · obtain ⟨z, hz, rfl⟩ := List.mem_map.mp hy
      have hzo : z = o := hG.single l hl z hz o ho hyid hoid
      refine Known.later (known_saved (hG.known l hl z hz hyid) ?_ rfl) rfl rfl hnone
      intro _
      rw [hzo, hdecrypt, htoken]

theorem serialized_commit (hG : Serialized settings connectionId w ls) (hi : ls[i]? = some l)
    (hallowed : committable settings connectionId l) :
    Serialized settings connectionId (w.commit l).1 (ls.set i (w.commit l).2.1) := by
  unfold World.commit
  split
  · rename_i t ht
    by_cases hquiet : quiet connectionId l
    · exact serialized_commit_quiet hG hi hquiet ht
    · obtain ⟨token, htoken⟩ := not_forall.mp hquiet
      exact serialized_commit_issued hG hi (not_not.mp htoken) hallowed ht
  · refine hG.of_local hi (fun row hrow hid => ⟨row, hrow, hid, rfl⟩) rfl [] (by simp) rfl rfl
      (fun _ => Iff.rfl) ?_ ?_
    · intro o ho
      cases ho
    · intro o ho
      cases ho

theorem Serialized.of_reads (hG : Serialized settings connectionId w ls) (hi : ls[i]? = some l)
    (hconnections : w'.tables.connections = w.tables.connections)
    (hendpoint : w'.endpoint = w.endpoint) (hhistory : w'.history = w.history)
    (hissued : l'.issued = l.issued) (hsingle : oneObject connectionId l')
    (hknown : ∀ o ∈ l'.objects, o.row.id = connectionId →
      o ∈ l.objects ∨ Known settings connectionId w l' o) :
    Serialized settings connectionId w' (ls.set i l') := by
  have hl := List.mem_of_getElem? hi
  refine hG.of_local hi ?_ hendpoint [] (by simp [hhistory]) (by rw [hhistory]) rfl ?_ hsingle ?_
  · rw [hconnections]
    exact fun row hrow hid => ⟨row, hrow, hid, rfl⟩
  · rw [hissued]
    exact fun _ => Iff.rfl
  · intro o ho hid
    rcases hknown o ho hid with hold | hnew
    · have h := hG.known l hl o hold hid
      refine ⟨h.old, h.mark, fun hq => h.clean ?_, h.current, ?_⟩
      · intro token ht
        exact hq token (hissued ▸ ht)
      · rw [hissued]
        exact h.fresh
    · exact hnew

theorem Serialized.of_same (hG : Serialized settings connectionId w ls) (hi : ls[i]? = some l)
    (hconnections : w'.tables.connections = w.tables.connections)
    (hendpoint : w'.endpoint = w.endpoint) (hhistory : w'.history = w.history)
    (hissued : l'.issued = l.issued) (hobjects : l'.objects = l.objects) :
    Serialized settings connectionId w' (ls.set i l') := by
  refine hG.of_reads hi hconnections hendpoint hhistory hissued ?_ ?_
  · have h := hG.single l (List.mem_of_getElem? hi)
    unfold oneObject at h ⊢
    rw [hobjects]
    exact h
  · rw [hobjects]
    exact fun o ho _ => .inl ho

theorem Serialized.of_call (hG : Serialized settings connectionId w ls) (hi : ls[i]? = some l)
    {event : Event} (hledger : ∀ ledger, Ledger.step connectionId ledger event = ledger)
    (hnone : exchanges connectionId event = false) :
    Serialized settings connectionId (w.record [event]) (ls.set i l) := by
  have hl := List.mem_of_getElem? hi
  refine hG.of_local hi (fun row hrow hid => ⟨row, hrow, hid, rfl⟩) rfl [event] rfl ?_
    (by simp [hnone]) (fun _ => Iff.rfl) (hG.single l hl) (hG.known l hl)
  rw [World.record, ledgerOf_append]
  exact hledger _

theorem known_reload (hG : Serialized settings connectionId w ls) (hl : l ∈ ls)
    (hquiet : quiet connectionId l) {o : Object} (ho : o ∈ l.objects)
    (hid : o.row.id = connectionId) {row : Connection} (hrow : row ∈ w.tables.connections)
    (hrowId : row.id = connectionId) (hl' : l'.issued = l.issued) :
    Known settings connectionId w l' (o.reload w.history.length row) := by
  have h := hG.known l hl o ho hid
  refine ⟨h.old, Nat.le_refl _, fun _ => ?_, ?_, ?_⟩
  · show column o.row.attributes.refreshTokenEnc o.current.refreshTokenEnc
      row.attributes.refreshTokenEnc = row.attributes.refreshTokenEnc
    rw [h.clean hquiet, column_same]
  · intro hcurrent
    exact hG.stored (not_outstanding_of_currentSince hcurrent) row hrow hrowId
  · rw [hl']
    exact fun token hmem => absurd hmem (hquiet token)

theorem serialized_assign (hG : Serialized settings connectionId w ls) (hi : ls[i]? = some l)
    {id : Nat} {value : Stamp → Attributes → Except Failure Attributes} (c : Choice)
    (hallowed : allowed settings connectionId l (.assign id value)) :
    Serialized settings connectionId
      (serve (rotatingEndpoint connectionId) w l (.assign id value) c).1
      (ls.set i (serve (rotatingEndpoint connectionId) w l (.assign id value) c).2.1) := by
  have hl := List.mem_of_getElem? hi
  simp only [serve]
  split
  · exact hG.of_same hi rfl rfl rfl rfl rfl
  · rename_i found hfound
    split
    · rename_i attributes hvalue
      obtain ⟨hmem, hfoundId⟩ := mem_of_object? hfound
      refine hG.of_reads hi rfl rfl rfl rfl
        (oneObject_update (fun _ => rfl) (hG.single l hl)) ?_
      intro o ho hoid
      obtain ⟨old, hold, ⟨holdId, rfl⟩ | ⟨-, rfl⟩⟩ := mem_update ho
      · have hconnection : id = connectionId := holdId.symm.trans hoid
        have h := hG.known l hl old hold hoid
        refine .inr ⟨h.old, h.mark, fun hquiet => ?_, h.current, h.fresh⟩
        have heq : old = found :=
          hG.single l hl old hold found hmem hoid (hfoundId.trans hconnection)
        rcases hallowed hconnection _ _ _ hvalue with hkept | ⟨token, htoken, -⟩
        · exact hkept.trans (heq ▸ h.clean hquiet)
        · exact absurd htoken (hquiet token)
      · exact .inl hold
    · exact hG.of_same hi rfl rfl rfl rfl rfl

theorem serialized_step (r : Request) (c : Choice) (hG : Serialized settings connectionId w ls)
    (hi : ls[i]? = some l) (hallowed : allowed settings connectionId l r)
    (hcond : presentsCurrent connectionId w ls i r = true) :
    Serialized settings connectionId (serve (rotatingEndpoint connectionId) w l r c).1
      (ls.set i (serve (rotatingEndpoint connectionId) w l r c).2.1) := by
  have hl := List.mem_of_getElem? hi
  cases r with
  | exchange id token => exact serialized_exchange hG hi c hallowed hcond
  | assign id value => exact serialized_assign hG hi c hallowed
  | commit => exact serialized_commit hG hi hallowed
  | addConnection => exact hallowed.elim
  | openSession tenantId =>
      refine hG.of_local hi (fun row hrow hid => ⟨row, hrow, hid, rfl⟩) rfl [] (by simp [serve])
        rfl rfl ?_ ?_ ?_
      · exact fun token => iff_of_false List.not_mem_nil (hallowed token)
      · intro o ho
        cases ho
      · intro o ho
        cases ho
  | selectActiveConnections =>
      refine hG.of_reads hi rfl rfl rfl (loadAll_issued _ _ _)
        (oneObject_loadAll _ _ (hG.single l hl)) ?_
      intro o ho hid
      rcases mem_loadAll ho with hold | ⟨row, hrow, rfl⟩
      · exact .inl hold
      · refine .inr (known_ofRow hG ?_ (List.mem_of_mem_filter hrow) hid)
        intro token hmem
        exact hallowed token (by simpa [serve] using hmem)
  | getConnection id =>
      simp only [serve]
      split
      · exact hG.of_same hi rfl rfl rfl rfl rfl
      · split
        · rename_i row hrow
          refine hG.of_reads hi rfl rfl rfl (load_issued _ _ _)
            (oneObject_load _ _ (hG.single l hl)) ?_
          intro o ho hid
          rcases mem_load ho with hold | rfl
          · exact .inl hold
          · refine .inr (known_ofRow hG ?_ (List.mem_of_find?_eq_some hrow) hid)
            intro token hmem
            exact hallowed token (by simpa using hmem)
        · exact hG.of_same hi rfl rfl rfl rfl rfl
  | findConnection provider kind accountLabel =>
      simp only [serve]
      split
      · rename_i row hrow
        refine hG.of_reads hi rfl rfl rfl (load_issued _ _ _)
          (oneObject_load _ _ (hG.single l hl)) ?_
        intro o ho hid
        rcases mem_load ho with hold | rfl
        · exact .inl hold
        · refine .inr (known_ofRow hG ?_ (List.mem_of_find?_eq_some hrow) hid)
          intro token hmem
          exact hallowed token (by simpa using hmem)
      · exact hG.of_same hi rfl rfl rfl rfl rfl
  | refreshObject id =>
      simp only [serve]
      split
      · rename_i row hrow
        have hrowId : row.id = id := by simpa using List.find?_some hrow
        have hrow := List.mem_of_find?_eq_some hrow
        refine hG.of_reads hi rfl rfl rfl rfl ?_ ?_
        · refine oneObject_map (f := fun o => if o.row.id = id then
            o.reload w.history.length row else o) ?_ (hG.single l hl) rfl
          intro o
          split
          · rename_i hid
            exact hrowId.trans hid.symm
          · rfl
        · intro o ho hid
          obtain ⟨old, hold, ⟨holdId, rfl⟩ | ⟨-, rfl⟩⟩ := mem_update ho
          · have hconnection : row.id = connectionId := hid
            exact .inr (known_reload hG hl hallowed hold
              (holdId.trans (hrowId.symm.trans hconnection)) hrow hconnection rfl)
          · exact .inl hold
      · exact hG.of_same hi rfl rfl rfl rfl rfl
  | callApi | exchangeCode | accountInfo | revokeRemote => exact hG.of_call hi (fun _ => rfl) rfl
  | acquireLock name =>
      refine hG.of_same hi ?_ ?_ ?_ rfl rfl <;>
      · simp only [serve, World.acquireLock]
        split <;> rfl
  | commitControl =>
      simp only [serve, World.commitControl]
      split
      · rename_i t ht
        exact hG.of_same hi (connections_applyAll ht) rfl rfl rfl rfl
      · exact hG.of_same hi rfl rfl rfl rfl rfl
  | _ => exact hG.of_same hi rfl rfl rfl rfl rfl

end Invariant

end Socle.RefreshLedger
