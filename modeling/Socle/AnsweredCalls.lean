import Socle.AIGateway

/-!
What an AI call delivers when its measuring fails: the insertion of the usage
event, the Valkey counter of the monthly quota and the audit of its alert.
-/

namespace Socle.AnsweredCalls

open Socle.Procedures
open Socle.AIGateway

/-! ### `app.ai.quota` -/

/-- The measuring steps that fail, with what they raise.  An insertion that raises
may have been committed all the same. -/
structure Faults where
  insertion : Option Thrown := none
  written : Bool := false
  counter : Option Thrown := none
  expiry : Option Thrown := none
  alert : Option Thrown := none
  audit : Option Thrown := none

/-- What the environment does at one await: besides the provider and the consumer,
the total the counter reaches, whether the alert of the day is still to be
raised, and the faults. -/
structure Moment where
  await : Await := {}
  total : Int := 0
  acquired : Bool := true
  faults : Faults := {}

/-- A step that raises its fault, if it has one. -/
def raising {α : Type} (fault : Option Thrown) (value : α) : Except Thrown α :=
  match fault with
  | none => .ok value
  | some exc => .error exc

/-- `add_usage`: the first write of the month sets the expiry. -/
def addUsage (tokens : Int) (c : Moment) : Except Thrown Int := do
  let newTotal ← raising c.faults.counter c.total
  if newTotal = tokens then
    raising c.faults.expiry ()
  return newTotal

/-- `_emit_alert_once`. -/
def emitAlertOnce (c : Moment) : Except Thrown Bool := do
  let acquired ← raising c.faults.alert c.acquired
  if !acquired then
    return false
  raising c.faults.audit ()
  return true

structure QuotaOutcome where
  monthUsage : Int
  overQuota : Bool
  alerted : Bool
  deriving DecidableEq, Repr

/-- `record_and_alert`. -/
def recordAndAlert (addedTokens quota : Int) (c : Moment) : Except Thrown QuotaOutcome := do
  let monthUsage ← addUsage addedTokens c
  let overQuota := decide (quota < monthUsage)
  let alerted ← if overQuota then emitAlertOnce c else pure false
  return ⟨monthUsage, overQuota, alerted⟩

/-! ### Deliveries -/

def insertionOf (faults : Faults) : Insertion :=
  match faults.insertion with
  | none => .committed
  | some exc => .failed exc faults.written

/-- The answer to each await of the gateway. -/
def reply : (r : Request) → Moment → gateway.Answer r
  | .loadPolicy, c => c.await.policyRow
  | .complete _, c => c.await.completion
  | .openStream _, c => c.await.stream
  | .endOfStream, c => c.await.streamEnd
  | .yieldChunk _, c => c.await.consumer
  | .embedding _, c => c.await.embedding
  | .insertUsage _, c => (insertionOf c.faults).outcome
  | .recordAndAlert addedTokens quota, c => (recordAndAlert addedTokens quota c).map fun _ => ()

/-- The awaits over the chunks the caller has received. -/
def serve : Serve gateway (List String) Unit Moment := fun received _ r c =>
  (match r with
    | .yieldChunk delta => received ++ [delta]
    | _ => received, (), reply r c)

/-- What the caller gets at the end. -/
inductive Result where
  | answer (result : ChatResult)
  | ended
  | vectors (result : EmbedResult)
  deriving DecidableEq, Repr

/-- An entry point with its result. -/
def deliver (platform : Platform) (tenant : Option TenantContext) : Operation → Act Result
  | .chat req => do return .answer (← chat platform tenant req)
  | .chatStream req => do
      chatStream platform tenant req
      return .ended
  | .embed req => do return .vectors (← embed platform tenant req)

/-- The chunks received, and the result or the exception at the end. -/
def delivered (platform : Platform) (tenant : Option TenantContext) (operation : Operation)
    (choices : Nat → Moment) : List String × Except Raised Result :=
  let out := eval serve (deliver platform tenant operation) [] () choices
  (out.1, out.2.2)

/-- The same moment with nothing of the measuring failing. -/
def Moment.calm (c : Moment) : Moment := { c with faults := {} }

/-- What fails raises an `Exception`. -/
def Faults.plain (faults : Faults) : Prop :=
  ∀ exc, faults.insertion = some exc ∨ faults.counter = some exc ∨ faults.expiry = some exc ∨
    faults.alert = some exc ∨ faults.audit = some exc → exc.isException = true

/-- The counter and the alert that the call makes do not fail. -/
def undisturbed (_ : List String) (_ : Unit) (r : Request) (c : Moment) : Prop :=
  match r with
  | .recordAndAlert addedTokens quota =>
      c.faults.counter = none ∧ (c.total = addedTokens → c.faults.expiry = none) ∧
        (quota < c.total → c.faults.alert = none ∧ (c.acquired = true → c.faults.audit = none))
  | _ => True

/-- A failed insertion is followed by what follows a committed one; a failed
counter ends the procedure. -/
def Absorbs {α : Type} : Act α → Prop
  | .ret _ => True
  | .raise _ => True
  | .call r k => (match r, k with
      | .insertUsage _, k => ∀ exc : Thrown, exc.isException = true → k (.error exc) = k (.ok ())
      | .recordAndAlert _ _, k => ∀ exc, k (.error exc) = .raise (.thrown exc)
      | _, _ => True) ∧ ∀ a, Absorbs (k a)

section Absorbs

variable {α β : Type}

theorem Absorbs.bind {p : Act α} {f : α → Act β} (hp : Absorbs p) (hf : ∀ a, Absorbs (f a)) :
    Absorbs (p >>= f) := by
  induction p with
  | ret a => exact hf a
  | raise e => trivial
  | call r k ih =>
      refine ⟨?_, fun a => ih a (hp.2 a)⟩
      have hhere := hp.1
      cases r with
      | insertUsage row => exact fun exc hexc => congrArg (· >>= f) (hhere exc hexc)
      | recordAndAlert addedTokens quota => exact fun exc => congrArg (· >>= f) (hhere exc)
      | _ => trivial

theorem Absorbs.attempt_bind {p : Act α} {f : Except Raised α → Act β} (hp : Absorbs p)
    (hf : ∀ outcome, Absorbs (f outcome))
    (hthrown : ∀ exc, f (.error (.thrown exc)) = .raise (.thrown exc)) :
    Absorbs (p.attempt >>= f) := by
  induction p with
  | ret a => exact hf _
  | raise e => exact hf _
  | call r k ih =>
      refine ⟨?_, fun a => ih a (hp.2 a)⟩
      have hhere := hp.1
      cases r with
      | insertUsage row =>
          exact fun exc hexc => congrArg (fun q => q.attempt >>= f) (hhere exc hexc)
      | recordAndAlert addedTokens quota =>
          exact fun exc => (congrArg (fun q => q.attempt >>= f) (hhere exc)).trans (hthrown exc)
      | _ => trivial

theorem absorbs_ofExcept (x : Except Raised α) : Absorbs (Proc.ofExcept x : Act α) := by
  cases x <;> trivial

theorem absorbs_settle (x : Except Thrown α) : Absorbs (settle x) := by
  cases x <;> trivial

theorem absorbs_request_bind {r : Request} {f : gateway.Answer r → Act α}
    (hr : match r with
      | .insertUsage _ => False
      | .recordAndAlert _ _ => False
      | _ => True) (hf : ∀ a, Absorbs (f a)) : Absorbs (request (I := gateway) r >>= f) := by
  refine ⟨?_, hf⟩
  cases r with
  | insertUsage row => exact hr.elim
  | recordAndAlert addedTokens quota => exact hr.elim
  | _ => trivial

theorem absorbs_recordUsage (record : UsageRecord) : Absorbs (recordUsage record) := by
  refine ⟨fun exc hexc => if_pos hexc, fun inserted => ?_⟩
  rcases inserted with exc | _
  · show Absorbs (if exc.isException then pure () else throw (.thrown exc))
    split
    · trivial
    · trivial
  · trivial

theorem absorbs_meterWrap (m : Metered) (status : UsageRollup.UsageStatus) (usage : TokenUsage)
    (errorKind : Option String) : Absorbs (meterWrap m status usage errorKind) := by
  refine (absorbs_recordUsage _).bind fun _ => ?_
  dsimp only
  split
  · exact ⟨fun exc => rfl, fun alerted => absorbs_settle alerted⟩
  · trivial

theorem absorbs_meterFailure (m : Metered) (exc : Thrown) :
    Absorbs (meterFailure m exc : Act α) := by
  unfold meterFailure
  split
  · exact (absorbs_meterWrap ..).bind fun _ => trivial
  · split
    · exact (absorbs_meterWrap ..).bind fun _ => trivial
    · trivial

theorem absorbs_meterStream (m : Metered) (usage : TokenUsage) (ending : Except Thrown Unit) :
    Absorbs (meterStream m usage ending) := by
  rcases ending with exc | _
  · unfold meterStream
    dsimp only
    split
    · exact (absorbs_meterWrap ..).bind fun _ => trivial
    · split
      · exact (absorbs_meterWrap ..).bind fun _ => trivial
      · exact (absorbs_meterWrap ..).bind fun _ => trivial
  · exact absorbs_meterWrap ..

theorem absorbs_consume (usage : TokenUsage) (chunks : List Chunk) :
    Absorbs (consume usage chunks) := by
  induction chunks generalizing usage with
  | nil => exact absorbs_request_bind trivial fun _ => trivial
  | cons chunk rest ih =>
      unfold consume
      cases chunk.delta with
      | error className => trivial
      | ok delta =>
          refine Absorbs.bind ?_ fun resumed => ?_
          · unfold yieldDelta
            split
            · trivial
            · split
              · trivial
              · exact ⟨trivial, fun _ => trivial⟩
          · rcases resumed with exc | _
            · trivial
            · cases usageFrom chunk.usage with
              | error className => trivial
              | ok seen => exact ih _

theorem absorbs_chatOnce (platform : Platform) (ctx : TenantContext) (policy : ResolvedPolicy)
    (provider model : String) (req : ChatRequest) :
    Absorbs (chatOnce platform ctx policy provider model req) := by
  refine (absorbs_ofExcept _).bind fun key => absorbs_request_bind trivial fun answer => ?_
  rcases answer with exc | raw
  · exact absorbs_meterFailure _ exc
  · refine (absorbs_settle _).bind fun usage => ?_
    exact (absorbs_meterWrap ..).bind fun _ => (absorbs_settle _).bind fun _ => trivial

theorem absorbs_loadPolicy (platform : Platform) (ctx : TenantContext) :
    Absorbs (loadPolicy platform ctx) :=
  absorbs_request_bind trivial fun _ => absorbs_settle _

theorem absorbs_chat (platform : Platform) (tenant : Option TenantContext) (req : ChatRequest) :
    Absorbs (chat platform tenant req) := by
  refine (absorbs_ofExcept _).bind fun ctx => (absorbs_loadPolicy platform ctx).bind fun policy => ?_
  refine (absorbs_ofExcept _).bind fun target => ?_
  refine (absorbs_chatOnce ..).attempt_bind (fun first => ?_) fun exc => ?_
  · rcases first with exc | result
    · dsimp only
      split
      · exact (absorbs_ofExcept _).bind fun fallback => absorbs_chatOnce ..
      · trivial
    · trivial
  · simp [Raised.isGatewayError]

theorem absorbs_chatStream (platform : Platform) (tenant : Option TenantContext)
    (req : ChatRequest) : Absorbs (chatStream platform tenant req) := by
  refine (absorbs_ofExcept _).bind fun ctx => (absorbs_loadPolicy platform ctx).bind fun policy => ?_
  refine (absorbs_ofExcept _).bind fun target => (absorbs_ofExcept _).bind fun key => ?_
  refine absorbs_request_bind trivial fun opened => ?_
  rcases opened with exc | chunks
  · exact absorbs_meterStream ..
  · exact (absorbs_consume ..).bind fun received => absorbs_meterStream ..

theorem absorbs_embed (platform : Platform) (tenant : Option TenantContext) (req : EmbedRequest) :
    Absorbs (embed platform tenant req) := by
  refine (absorbs_ofExcept _).bind fun ctx => (absorbs_loadPolicy platform ctx).bind fun policy => ?_
  refine (absorbs_ofExcept _).bind fun target => (absorbs_ofExcept _).bind fun key => ?_
  refine absorbs_request_bind trivial fun answer => ?_
  rcases answer with exc | raw
  · exact absorbs_meterFailure _ exc
  · refine (absorbs_settle _).bind fun usage => ?_
    exact (absorbs_meterWrap ..).bind fun _ => (absorbs_settle _).bind fun _ => trivial

theorem absorbs_deliver (platform : Platform) (tenant : Option TenantContext)
    (operation : Operation) : Absorbs (deliver platform tenant operation) := by
  cases operation with
  | chat req => exact (absorbs_chat ..).bind fun _ => trivial
  | chatStream req => exact (absorbs_chatStream ..).bind fun _ => trivial
  | embed req => exact (absorbs_embed ..).bind fun _ => trivial

end Absorbs

theorem addUsage_cases (tokens : Int) (c : Moment) :
    ((c.faults.counter = none ∧ (c.total = tokens → c.faults.expiry = none)) ∧
      addUsage tokens c = .ok c.total) ∨
    (¬ (c.faults.counter = none ∧ (c.total = tokens → c.faults.expiry = none)) ∧
      ∃ exc, addUsage tokens c = .error exc) := by
  unfold addUsage
  cases hcounter : c.faults.counter with
  | some exc => exact .inr ⟨fun h => (nomatch h.1), exc, rfl⟩
  | none =>
      by_cases hfirst : c.total = tokens
      · cases hexpiry : c.faults.expiry with
        | some exc =>
            refine .inr ⟨fun h => (nomatch h.2 hfirst), exc, ?_⟩
            simp [raising, hfirst, bind, Except.bind]
        | none =>
            refine .inl ⟨⟨rfl, fun _ => rfl⟩, ?_⟩
            simp [raising, hfirst, bind, Except.bind, pure, Except.pure]
      · refine .inl ⟨⟨rfl, fun h => absurd h hfirst⟩, ?_⟩
        simp [raising, hfirst, bind, Except.bind, pure, Except.pure]

theorem emitAlertOnce_cases (c : Moment) :
    ((c.faults.alert = none ∧ (c.acquired = true → c.faults.audit = none)) ∧
      ∃ alerted, emitAlertOnce c = .ok alerted) ∨
    (¬ (c.faults.alert = none ∧ (c.acquired = true → c.faults.audit = none)) ∧
      ∃ exc, emitAlertOnce c = .error exc) := by
  unfold emitAlertOnce
  cases halert : c.faults.alert with
  | some exc => exact .inr ⟨fun h => (nomatch h.1), exc, rfl⟩
  | none =>
      cases hacquired : c.acquired with
      | false => exact .inl ⟨⟨rfl, nofun⟩, false, rfl⟩
      | true =>
          cases haudit : c.faults.audit with
          | some exc => exact .inr ⟨fun h => (nomatch h.2 rfl), exc, rfl⟩
          | none => exact .inl ⟨⟨rfl, fun _ => rfl⟩, true, rfl⟩

theorem recordAndAlert_cases (addedTokens quota : Int) (c : Moment) (received : List String) :
    (undisturbed received () (.recordAndAlert addedTokens quota) c ∧
      reply (.recordAndAlert addedTokens quota) c = .ok ()) ∨
    (¬ undisturbed received () (.recordAndAlert addedTokens quota) c ∧
      ∃ exc, reply (.recordAndAlert addedTokens quota) c = .error exc) := by
  simp only [undisturbed, reply, recordAndAlert, ← and_assoc]
  rcases addUsage_cases addedTokens c with ⟨hcounts, hadded⟩ | ⟨hnot, exc, hadded⟩
  · rw [hadded]
    by_cases hover : quota < c.total
    · rcases emitAlertOnce_cases c with ⟨halerts, alerted, hemitted⟩ | ⟨hnot, exc, hemitted⟩
      · refine .inl ⟨⟨hcounts, fun _ => halerts⟩, ?_⟩
        simp [hover, hemitted, bind, Except.bind, pure, Except.pure, Except.map]
      · refine .inr ⟨fun h => hnot (h.2 hover), exc, ?_⟩
        simp [hover, hemitted, bind, Except.bind, Except.map]
    · refine .inl ⟨⟨hcounts, fun h => absurd h hover⟩, ?_⟩
      simp [hover, bind, Except.bind, pure, Except.pure, Except.map]
  · refine .inr ⟨fun h => hnot h.1, exc, ?_⟩
    rw [hadded]
    rfl

theorem reply_calm_recordAndAlert (addedTokens quota : Int) (c : Moment) :
    reply (.recordAndAlert addedTokens quota) c.calm = .ok () := by
  rcases recordAndAlert_cases addedTokens quota c.calm [] with ⟨-, hok⟩ | ⟨hnot, -⟩
  · exact hok
  · exact absurd ⟨rfl, fun _ => rfl, fun _ => ⟨rfl, fun _ => rfl⟩⟩ hnot

theorem eval_calm {α : Type} {p : Act α} (hp : Absorbs p) {received : List String}
    {choices : Nat → Moment} (hplain : ∀ n, (choices n).faults.plain)
    (hmeets : EvalMeets serve undisturbed p received () choices) :
    eval serve p received () choices = eval serve p received () fun n => (choices n).calm := by
  induction p generalizing received choices with
  | ret a => rfl
  | raise e => rfl
  | call r k ih =>
      have hnext := ih _ (hp.2 _) (fun n => hplain (n + 1)) hmeets.2
      simp only [eval]
      cases r with
      | insertUsage row =>
          have hsame : k (reply (.insertUsage row) (choices 0)) =
              k (reply (.insertUsage row) (choices 0).calm) := by
            show k (insertionOf (choices 0).faults).outcome = k (.ok ())
            cases hfault : (choices 0).faults.insertion with
            | none => rw [insertionOf, hfault]; rfl
            | some exc =>
                rw [insertionOf, hfault]
                exact hp.1 exc (hplain 0 exc (.inl hfault))
          exact hnext.trans (congrArg (fun q => eval serve q received () _) hsame)
      | recordAndAlert addedTokens quota =>
          have hreply : reply (.recordAndAlert addedTokens quota) (choices 0) = .ok () := by
            rcases recordAndAlert_cases addedTokens quota (choices 0) received with
              ⟨-, hok⟩ | ⟨hnot, -⟩
            · exact hok
            · exact absurd hmeets.1 hnot
          have hsame : k (reply (.recordAndAlert addedTokens quota) (choices 0)) =
              k (reply (.recordAndAlert addedTokens quota) (choices 0).calm) := by
            rw [hreply, reply_calm_recordAndAlert]
          exact hnext.trans (congrArg (fun q => eval serve q received () _) hsame)
      | _ => exact hnext

theorem eval_raises {α : Type} {p : Act α} (hp : Absorbs p) {received : List String}
    {choices : Nat → Moment}
    (hfails : ¬ EvalMeets serve undisturbed p received () choices) :
    ∃ e, (eval serve p received () choices).2.2 = .error e := by
  induction p generalizing received choices with
  | ret a => exact absurd trivial hfails
  | raise e => exact ⟨e, rfl⟩
  | call r k ih =>
      by_cases hnow : undisturbed received () r (choices 0)
      · exact ih _ (hp.2 _) fun hrest => hfails ⟨hnow, hrest⟩
      · cases r with
        | recordAndAlert addedTokens quota =>
            rcases recordAndAlert_cases addedTokens quota (choices 0) received with
              ⟨hthere, -⟩ | ⟨-, exc, hreply⟩
            · exact absurd hthere hnow
            · refine ⟨.thrown exc, ?_⟩
              show (eval serve (k (reply (.recordAndAlert addedTokens quota) (choices 0))) _ _
                _).2.2 = _
              rw [hreply, hp.1 exc]
              rfl
        | _ => exact absurd trivial hnow

/-- A call that delivers a result when nothing fails delivers the same whatever
fails, exactly when the counter and the alert that it makes do not fail. -/
theorem delivery_undisturbed_iff (platform : Platform) (tenant : Option TenantContext)
    (operation : Operation) (choices : Nat → Moment) (result : Result)
    (hplain : ∀ n, (choices n).faults.plain)
    (hanswered : (delivered platform tenant operation fun n => (choices n).calm).2 = .ok result) :
    delivered platform tenant operation choices =
        delivered platform tenant operation (fun n => (choices n).calm) ↔
      EvalMeets serve undisturbed (deliver platform tenant operation) [] () choices := by
  constructor
  · intro hsame
    by_contra hfails
    obtain ⟨e, herror⟩ := eval_raises (absorbs_deliver platform tenant operation) hfails
    have hok : (delivered platform tenant operation choices).2 = .ok result := by
      rw [hsame, hanswered]
    cases herror.symm.trans hok
  · intro hmeets
    unfold delivered
    rw [eval_calm (absorbs_deliver platform tenant operation) hplain hmeets]

def platform : Platform := ⟨{ mistralApiKey := "clé" }, fun _ => .ok fun _ => none⟩

def tenant : TenantContext := ⟨1, "acme"⟩

/-- The answer "bonjour", for ten tokens. -/
def completion : Completion where
  usage := .ok (some ⟨.ok (.int 6), .ok (.int 4), .ok none⟩)
  choice := .ok { content := "bonjour" }

def answering (faults : Faults) : Moment where
  await := { completion := .ok completion }
  total := 10
  faults := faults

def bonjour : Result :=
  .answer ⟨{ content := "bonjour" }, "mistral", "mistral-small-latest", ⟨6, 4, 0⟩⟩

/-- The usage event cannot be inserted: the answer is delivered all the same. -/
theorem answer_survives_insertion :
    delivered platform tenant (.chat {}) (fun _ =>
        answering { insertion := some (.exception "OperationalError") }) =
      delivered platform tenant (.chat {}) fun _ => (answering {}).calm := by
  refine (delivery_undisturbed_iff platform tenant (.chat {}) _ bonjour (fun _ exc h => ?_)
    (by decide +kernel)).mpr ⟨trivial, trivial, trivial, ⟨rfl, fun _ => rfl, fun _ =>
      ⟨rfl, fun _ => rfl⟩⟩, trivial⟩
  rcases h with ⟨⟨⟩⟩ | h | h | h | h
  · rfl
  · cases h
  · cases h
  · cases h
  · cases h

/-- The counter of the quota cannot be incremented: the answer of the provider is
lost. -/
theorem answer_lost_without_valkey :
    delivered platform tenant (.chat {}) (fun _ => (answering {}).calm) = ([], .ok bonjour) ∧
      delivered platform tenant (.chat {}) (fun _ =>
        answering { counter := some (.exception "ConnectionError") }) =
          ([], .error (.thrown (.exception "ConnectionError"))) := by
  decide +kernel

end Socle.AnsweredCalls
