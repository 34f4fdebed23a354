import Socle.AIGateway

/-!
One usage event for each provider call.  The procedures are followed over the
watched requests, so that the state at the end says both what was metered and
whether the run was undisturbed.
-/

namespace Socle.UsageMetering

open Socle.Procedures Socle.AIGateway
open Socle.UsageRollup (UsageStatus)

/-- The call has exactly one usage event, which names the provider and the model
called and is `ok` exactly when the whole answer was received. -/
def MeteredOnce (entry : CallEntry) : Prop :=
  ∃ row, entry.rows = [row] ∧ row.provider = entry.call.provider ∧
    row.model = entry.call.model ∧ (row.status = .ok ↔ entry.complete = true)

instance (entry : CallEntry) : Decidable (MeteredOnce entry) :=
  match h : entry.rows with
  | [] => isFalse (by rintro ⟨row, hrow, -⟩; simp [h] at hrow)
  | [row] =>
      decidable_of_iff (row.provider = entry.call.provider ∧ row.model = entry.call.model ∧
        (row.status = .ok ↔ entry.complete = true)) (by simp [MeteredOnce, h])
  | _ :: _ :: _ => isFalse (by rintro ⟨row, hrow, -⟩; simp [h] at hrow)

/-- An exception that one of the clauses of `chat_stream` catches. -/
def caughtByStream : Thrown → Bool
  | .interrupt _ => false
  | _ => true

/-- The awaits at which a usage event is neither lost nor wrong: the provider
raises only what a clause catches, the token counts of an answer can be read,
and the event's insertion is committed. -/
def undisturbed (_ : CallLog) (_ : Unit) (request : Request) (choice : Await) : Prop :=
  match request with
  | .complete _ =>
      match choice.completion with
      | .ok raw => (usageFrom raw.usage).isOk = true
      | .error exc => exc.isException = true
  | .embedding _ =>
      match choice.embedding with
      | .ok raw => (usageFrom raw.usage).isOk = true
      | .error exc => exc.isException = true
  | .openStream _ => ∀ exc, choice.stream = .error exc → caughtByStream exc = true
  | .endOfStream => ∀ exc, choice.streamEnd = .error exc → caughtByStream exc = true
  | .yieldChunk _ => ∀ exc, choice.consumer = .error exc → caughtByStream exc = true
  | .insertUsage _ => choice.insertion.written = true
  | .loadPolicy => True
  | .recordAndAlert _ _ => True

/-- The requests of the gateway, with the note of the condition. -/
abbrev watched : Serve gateway (CallLog × Prop) Unit Await := watch serve undisturbed

variable {L : CallLog} {P : Prop} {call : ProviderCall} {m : Metered}

/-- After the metering of the last call: its rows have the new one exactly when
the run is still undisturbed, and only what the environment raises is raised. -/
def Wrote (row : UsageRecord) (entry : CallEntry) (L : CallLog) (P : Prop) (α : Type)
    (s : CallLog × Prop) (_ : Unit) (out : Except Raised α) : Prop :=
  ∃ written : Bool,
    s.1 = { entry with rows := entry.rows ++ if written then [row] else [] } :: L ∧
      (s.2 ↔ P ∧ written = true) ∧ ∀ e, out = .error e → ∃ exc, e = .thrown exc

@[simp] theorem settle_ok {α : Type} (a : α) : settle (.ok a) = .ret a := rfl

@[simp] theorem settle_error {α : Type} (exc : Thrown) :
    (settle (.error exc) : Act α) = .raise (.thrown exc) := rfl

theorem ensures_recordUsage {entry : CallEntry} (row : UsageRecord) :
    Ensures watched (Wrote row entry L P Unit) (entry :: L, P) () (recordUsage row) := by
  intro choice
  have hwrote (out : Except Raised Unit) (hout : ∀ e, out = .error e → ∃ exc, e = .thrown exc) :
      Wrote row entry L P Unit (watched (entry :: L, P) () (.insertUsage row) choice).1 () out := by
    refine ⟨choice.insertion.written, ?_, Iff.rfl, hout⟩
    show (if choice.insertion.written then CallLog.record row (entry :: L) else entry :: L) = _
    by_cases hw : choice.insertion.written = true
    · simp [hw, CallLog.record]
    · simp [hw]
  rcases choice with ⟨_, _, _, _, _, _, insertion, _⟩
  cases insertion with
  | committed => exact hwrote _ (by simp)
  | failed exc written =>
      show Ensures watched _ _ _
        (if exc.isException then (.ret () : Act Unit) else .raise (.thrown exc))
      by_cases hexc : exc.isException = true
      · rw [if_pos hexc]
        exact hwrote _ (by simp)
      · rw [if_neg hexc]
        exact hwrote _ (by simp)

theorem ensures_meterWrap {entry : CallEntry} (status : UsageStatus) (usage : TokenUsage) (kind : Option String) :
    Ensures watched (Wrote (m.record status usage kind) entry L P Unit) (entry :: L, P) ()
      (meterWrap m status usage kind) := by
  refine ensures_bind (ensures_recordUsage (m.record status usage kind)) ?_ ?_
  · rintro s l a ⟨written, hlog, hP, -⟩
    by_cases htokens : 0 < usage.inputTokens + usage.outputTokens
    · simp only [htokens, if_true]
      intro choice
      -- the quota counter leaves the log and the note as they are
      have hstate : (watched s l (.recordAndAlert (usage.inputTokens + usage.outputTokens)
          m.quota) choice).1 = (s.1, s.2 ∧ True) := rfl
      have hend (out : Except Raised Unit)
          (hout : ∀ e, out = .error e → ∃ exc, e = .thrown exc) :
          Wrote (m.record status usage kind) entry L P Unit (s.1, s.2 ∧ True) () out :=
        ⟨written, hlog, by simpa using hP, hout⟩
      show Ensures watched _ _ _ (settle choice.alert)
      rw [hstate]
      cases choice.alert with
      | ok done => exact hend _ (by simp)
      | error exc => exact hend _ (by simp)
    · simp only [htokens, if_false]
      exact ⟨written, hlog, hP, by simp⟩
  · rintro s l e ⟨written, hlog, hP, hthrown⟩
    exact ⟨written, hlog, hP, by simpa using hthrown⟩

/-- The row of a call is as it should be exactly when its status says whether the
answer was complete. -/
theorem meteredOnce_iff {written complete : Bool} {status : UsageStatus} {usage : TokenUsage}
    {kind : Option String} (hprovider : m.provider = call.provider) (hmodel : m.model = call.model) :
    MeteredOnce ⟨call, complete, [] ++ if written then [m.record status usage kind] else []⟩ ↔
      written = true ∧ (status = .ok ↔ complete = true) := by
  cases written with
  | false => simp [MeteredOnce]
  | true =>
      constructor
      · rintro ⟨row, hrow, -, -, hstatus⟩
        have : m.record status usage kind = row := by simpa using hrow
        subst this
        exact ⟨rfl, hstatus⟩
      · rintro ⟨-, hstatus⟩
        exact ⟨m.record status usage kind, rfl, hprovider, hmodel, hstatus⟩

/-- What a procedure that makes one provider call leaves: the call on top of the
log, metered exactly when the run stayed undisturbed.  A `GatewayError` says
that the answer did not arrive. -/
def Called (call : ProviderCall) (L : CallLog) (P : Prop) (α : Type) (s : CallLog × Prop)
    (_ : Unit) (out : Except Raised α) : Prop :=
  ∃ entry, s.1 = entry :: L ∧ entry.call = call ∧ (s.2 ↔ P ∧ MeteredOnce entry) ∧
    ∀ e, out = .error e → e.isGatewayError = true → entry.complete = false

theorem Wrote.called {complete : Bool} {status : UsageStatus} {usage : TokenUsage}
    {kind : Option String} {α β : Type} {s : CallLog × Prop} {l : Unit} {out : Except Raised β}
    {out' : Except Raised α}
    (hwrote : Wrote (m.record status usage kind) ⟨call, complete, []⟩ L P β s l out)
    (hprovider : m.provider = call.provider) (hmodel : m.model = call.model)
    (hstatus : status = .ok ↔ complete = true)
    (hfailed : ∀ e, out' = .error e → e.isGatewayError = true → complete = false) :
    Called call L P α s l out' := by
  obtain ⟨written, hlog, hP, -⟩ := hwrote
  refine ⟨_, hlog, rfl, ?_, hfailed⟩
  rw [hP, meteredOnce_iff hprovider hmodel]
  simp [hstatus]

theorem ensures_meterThenThrow {α : Type} {status : UsageStatus} (usage : TokenUsage)
    (kind : Option String) (e : Raised) (hprovider : m.provider = call.provider)
    (hmodel : m.model = call.model) (hstatus : status ≠ .ok) :
    Ensures watched (Called call L P α) (⟨call, false, []⟩ :: L, P) ()
      (meterWrap m status usage kind >>= fun _ => (throw e : Act α)) := by
  refine ensures_bind (ensures_meterWrap status usage kind) ?_ ?_
  · intro s l a hwrote
    exact hwrote.called hprovider hmodel (by simp [hstatus]) fun _ _ _ => rfl
  · intro s l e hwrote
    exact hwrote.called hprovider hmodel (by simp [hstatus]) fun _ _ _ => rfl

theorem ensures_meterFailure {α : Type} {exc : Thrown} (hprovider : m.provider = call.provider)
    (hmodel : m.model = call.model) :
    Ensures watched (Called call L P α) (⟨call, false, []⟩ :: L, P ∧ exc.isException = true) ()
      (meterFailure m exc) := by
  by_cases hexc : exc.isException = true
  · have hP : (P ∧ exc.isException = true) = P := by simp [hexc]
    rw [hP]
    by_cases htimeout : exc = .timeoutError
    · simp only [meterFailure, htimeout, if_true]
      exact ensures_meterThenThrow noTokens (some "timeout") _ hprovider hmodel (by decide)
    · simp only [meterFailure, htimeout, hexc, if_true, if_false]
      exact ensures_meterThenThrow noTokens (some exc.className) _ hprovider hmodel (by decide)
  · -- no clause applies: the call has no row
    have htimeout : exc ≠ .timeoutError := by
      rintro rfl
      exact hexc rfl
    simp only [meterFailure, htimeout, hexc, if_false]
    exact ⟨_, rfl, rfl, by simp [MeteredOnce], fun _ _ _ => rfl⟩

theorem ensures_meterAnswer {α : Type} {usage : Attr TokenUsage} {rest : TokenUsage → Act α}
    (hprovider : m.provider = call.provider) (hmodel : m.model = call.model)
    (hrest : ∀ u, (∃ a, rest u = .ret a) ∨ ∃ exc, rest u = .raise (.thrown exc)) :
    Ensures watched (Called call L P α) (⟨call, true, []⟩ :: L, P ∧ usage.isOk = true) ()
      (do let u ← reading usage
          meterWrap m .ok u none
          rest u) := by
  cases usage with
  | error className =>
      exact ⟨_, rfl, rfl, by simp [MeteredOnce, Except.isOk, Except.toBool],
        by simp [Raised.isGatewayError]⟩
  | ok u =>
      have hP : (P ∧ (Except.ok u : Attr TokenUsage).isOk = true) = P := by
        simp [Except.isOk, Except.toBool]
      rw [hP]
      show Ensures watched _ _ _ (meterWrap m .ok u none >>= fun _ => rest u)
      refine ensures_bind (ensures_meterWrap .ok u none) ?_ ?_
      · intro s l a hwrote
        rcases hrest u with ⟨b, hb⟩ | ⟨exc, hexc⟩
        · rw [hb]
          exact hwrote.called hprovider hmodel (by simp) (by simp)
        · rw [hexc]
          exact hwrote.called hprovider hmodel (by simp) (by simp [Raised.isGatewayError])
      · intro s l e hwrote
        obtain ⟨exc, rfl⟩ := hwrote.choose_spec.2.2 e rfl
        exact hwrote.called hprovider hmodel (by simp) (by simp [Raised.isGatewayError])

/-- The call is to this target, with the key the gateway holds for it. -/
def Keyed (platform : Platform) (policy : ResolvedPolicy) (kind : CallKind)
    (target : String × String) (call : ProviderCall) : Prop :=
  ∃ key, apiKey platform.settings policy target.1 = .ok key ∧
    call = ⟨kind, target.1, target.2, key⟩

/-- A procedure that made no call, for want of a key, or exactly one. -/
def Made (platform : Platform) (policy : ResolvedPolicy) (kind : CallKind)
    (target : String × String) (L : CallLog) (P : Prop) (α : Type) (s : CallLog × Prop) (_ : Unit)
    (out : Except Raised α) : Prop :=
  ∃ made : CallLog, s.1 = made ++ L ∧ made.length ≤ 1 ∧
    (∀ entry ∈ made, Keyed platform policy kind target entry.call) ∧
    (∀ e, out = .error e → e.isGatewayError = true → ∀ entry ∈ made, entry.complete = false) ∧
    (s.2 ↔ P ∧ ∀ entry ∈ made, MeteredOnce entry)

variable {platform : Platform} {ctx : TenantContext} {policy : ResolvedPolicy}
variable {kind : CallKind} {target : String × String}

theorem Made.of_no_call {α : Type} (out : Except Raised α) :
    Made platform policy kind target L P α (L, P) () out :=
  ⟨[], rfl, by simp, by simp, by simp, by simp⟩

theorem Called.made {α : Type} {key : String} {s : CallLog × Prop} {l : Unit}
    {out : Except Raised α} (hkey : apiKey platform.settings policy target.1 = .ok key)
    (hcalled : Called ⟨kind, target.1, target.2, key⟩ L P α s l out) :
    Made platform policy kind target L P α s l out := by
  obtain ⟨entry, hlog, hcall, hP, hfailed⟩ := hcalled
  refine ⟨[entry], hlog, by simp, ?_, ?_, ?_⟩
  · simpa using ⟨key, hkey, hcall⟩
  · simpa using hfailed
  · simpa using hP

theorem reading_bind_returns {α β : Type} (value : Attr α) (f : α → β) :
    (∃ b, (reading value >>= fun a => (pure (f a) : Act β)) = .ret b) ∨
      ∃ exc, (reading value >>= fun a => (pure (f a) : Act β)) = .raise (.thrown exc) := by
  cases value with
  | ok a => exact .inl ⟨f a, rfl⟩
  | error className => exact .inr ⟨.exception className, rfl⟩

theorem ensures_chatOnce (req : ChatRequest) :
    Ensures watched (Made platform policy .completion target L P ChatResult) (L, P) ()
      (chatOnce platform ctx policy target.1 target.2 req) := by
  unfold chatOnce
  cases hkey : apiKey platform.settings policy target.1 with
  | error e => exact Made.of_no_call _
  | ok key =>
      intro choice
      refine Ensures.mono (fun _ _ _ hcalled => Called.made hkey hcalled) ?_
      rcases choice with ⟨_, completion, _, _, _, _, _, _⟩
      cases completion with
      | error exc =>
          show Ensures watched _
            (⟨⟨.completion, target.1, target.2, key⟩, false, []⟩ :: L,
              P ∧ exc.isException = true) () (meterFailure _ exc)
          exact ensures_meterFailure rfl rfl
      | ok raw =>
          show Ensures watched _
            (⟨⟨.completion, target.1, target.2, key⟩, true, []⟩ :: L,
              P ∧ (usageFrom raw.usage).isOk = true) () _
          exact ensures_meterAnswer rfl rfl fun _ => reading_bind_returns _ _

/-- How the loop of a stream ends: nothing is raised out of it, the call is
complete exactly when the end was received, and the note says whether what ended
it is caught. -/
def Received (call : ProviderCall) (L : CallLog) (P : Prop) (s : CallLog × Prop) (_ : Unit)
    (out : Except Raised (TokenUsage × Except Thrown Unit)) : Prop :=
  ∃ complete usage ending, s.1 = ⟨call, complete, []⟩ :: L ∧ out = .ok (usage, ending) ∧
    (complete = true ↔ ending = .ok ()) ∧
      (s.2 ↔ P ∧ ∀ exc, ending = .error exc → caughtByStream exc = true)

theorem ensures_yieldDelta (delta : Option String) :
    Ensures watched (fun s _ out => s.1 = L ∧ ∃ resumed, out = .ok resumed ∧
        (s.2 ↔ P ∧ ∀ exc, resumed = .error exc → caughtByStream exc = true)) (L, P) ()
      (yieldDelta delta) := by
  have hresumed : (L = L) ∧ ∃ resumed : Except Thrown Unit,
      (Except.ok (.ok ()) : Except Raised (Except Thrown Unit)) = .ok resumed ∧
        (P ↔ P ∧ ∀ exc, resumed = .error exc → caughtByStream exc = true) :=
    ⟨rfl, .ok (), rfl, by simp⟩
  cases delta with
  | none => exact hresumed
  | some text =>
      unfold yieldDelta
      by_cases htext : text = ""
      · simp only [htext]
        exact hresumed
      · simp only [htext]
        exact fun choice => ⟨rfl, choice.consumer, rfl, Iff.rfl⟩

theorem ensures_consume (chunks : List Chunk) (usage : TokenUsage) :
    Ensures watched (Received call L P) (⟨call, false, []⟩ :: L, P) () (consume usage chunks) := by
  induction chunks generalizing usage P with
  | nil =>
      intro choice
      rcases choice with ⟨_, _, _, streamEnd, _, _, _, _⟩
      cases streamEnd with
      | ok done => exact ⟨true, usage, .ok (), rfl, rfl, by simp, Iff.rfl⟩
      | error exc => exact ⟨false, usage, .error exc, rfl, rfl, by simp, Iff.rfl⟩
  | cons chunk rest ih =>
      unfold consume
      cases chunk.delta with
      | error className =>
          exact ⟨false, usage, .error (.exception className), rfl, rfl, by simp,
            by simp [caughtByStream]⟩
      | ok delta =>
          refine ensures_bind (ensures_yieldDelta delta) ?_ (by simp)
          rintro ⟨log, Q⟩ l resumed ⟨rfl, resumed', hout, hQ⟩
          obtain rfl : resumed = resumed' := by simpa using hout
          cases resumed with
          | error exc => exact ⟨false, usage, .error exc, rfl, rfl, by simp, hQ⟩
          | ok done =>
              obtain rfl : Q = P := by simpa using hQ
              cases usageFrom chunk.usage with
              | error className =>
                  exact ⟨false, usage, .error (.exception className), rfl, rfl, by simp,
                    by simp [caughtByStream]⟩
              | ok seen => exact ih _

theorem ensures_meterStream {complete : Bool} {ending : Except Thrown Unit} {Q : Prop}
    (usage : TokenUsage) (hprovider : m.provider = call.provider) (hmodel : m.model = call.model)
    (hcomplete : complete = true ↔ ending = .ok ())
    (hQ : Q ↔ P ∧ ∀ exc, ending = .error exc → caughtByStream exc = true) :
    Ensures watched (Called call L P Unit) (⟨call, complete, []⟩ :: L, Q) ()
      (meterStream m usage ending) := by
  cases ending with
  | ok done =>
      obtain rfl : complete = true := by simpa using hcomplete
      obtain rfl : Q = P := by simpa using hQ
      refine Ensures.mono ?_ (ensures_meterWrap .ok usage none)
      intro s l out hwrote
      refine hwrote.called hprovider hmodel (by simp) ?_
      intro e he hgateway
      obtain ⟨exc, rfl⟩ := hwrote.choose_spec.2.2 e he
      exact absurd hgateway (by simp [Raised.isGatewayError])
  | error exc =>
      obtain rfl : complete = false := by simpa using hcomplete
      cases exc with
      | timeoutError =>
          obtain rfl : Q = P := by simpa [caughtByStream] using hQ
          exact ensures_meterThenThrow usage _ _ hprovider hmodel (by decide)
      | exception className =>
          obtain rfl : Q = P := by simpa [caughtByStream] using hQ
          exact ensures_meterThenThrow usage _ _ hprovider hmodel (by decide)
      | generatorExit =>
          obtain rfl : Q = P := by simpa [caughtByStream] using hQ
          exact ensures_meterThenThrow usage _ _ hprovider hmodel (by decide)
      | interrupt className =>
          -- the event says `ok`, the answer is not complete
          obtain rfl : Q = False := by simpa [caughtByStream] using hQ
          have hwrong (s : CallLog × Prop) (l : Unit) (out : Except Raised Unit)
              (out' : Except Raised Unit)
              (hwrote : Wrote (m.record .ok usage none) ⟨call, false, []⟩ L False Unit s l out) :
              Called call L P Unit s l out' := by
            obtain ⟨written, hlog, hP, -⟩ := hwrote
            refine ⟨_, hlog, rfl, ?_, fun _ _ _ => rfl⟩
            rw [hP, meteredOnce_iff hprovider hmodel]
            simp
          exact ensures_bind (ensures_meterWrap .ok usage none)
            (fun s l a hwrote => hwrong s l _ _ hwrote) fun s l e hwrote => hwrong s l _ _ hwrote

/-- What an entry point leaves once its policy is loaded: at most one call to the
target it selected, and after it, if it failed, at most one to the fallback. -/
def Spent (platform : Platform) (policy : ResolvedPolicy) (kind : CallKind)
    (provider model : Option String) (s : CallLog × Prop) : Prop :=
  ∃ seconds firsts : CallLog, s.1 = seconds ++ firsts ∧ seconds.length ≤ 1 ∧ firsts.length ≤ 1 ∧
    (∀ entry ∈ firsts, ∃ target, policy.select provider model = .ok target ∧
      Keyed platform policy kind target entry.call) ∧
    (∀ entry ∈ seconds, kind = .completion ∧ policy.fallbackProvider ≠ none ∧
      (∃ target, policy.select policy.fallbackProvider policy.fallbackModel = .ok target ∧
        Keyed platform policy kind target entry.call) ∧
      ∀ first ∈ firsts, first.complete = false) ∧
    (s.2 ↔ ∀ entry ∈ s.1, MeteredOnce entry)

variable {provider model : Option String}

theorem Spent.nothing : Spent platform policy kind provider model ([], True) :=
  ⟨[], [], by simp⟩

theorem Made.spent {α : Type} {s : CallLog × Prop} {l : Unit} {out : Except Raised α}
    (hselect : policy.select provider model = .ok target)
    (hmade : Made platform policy kind target [] True α s l out) :
    Spent platform policy kind provider model s := by
  obtain ⟨made, hlog, hlength, hkeyed, -, hP⟩ := hmade
  refine ⟨[], made, by simpa using hlog, by simp, hlength, ?_, by simp, ?_⟩
  · exact fun entry hentry => ⟨target, hselect, hkeyed entry hentry⟩
  · rw [hP, hlog]
    simp

theorem Made.spent_fallback {α β : Type} {fallback : String × String} {s t : CallLog × Prop}
    {l : Unit} {e : Raised} {out : Except Raised β}
    (hselect : policy.select provider model = .ok target)
    (hfirst : Made platform policy .completion target [] True α s l (.error e))
    (hgateway : e.isGatewayError = true) (hfallback : policy.fallbackProvider ≠ none)
    (hselect' : policy.select policy.fallbackProvider policy.fallbackModel = .ok fallback)
    (hsecond : Made platform policy .completion fallback s.1 s.2 β t l out) :
    Spent platform policy .completion provider model t := by
  obtain ⟨firsts, hlog, hlength, hkeyed, hfailed, hP⟩ := hfirst
  obtain ⟨seconds, hlog', hlength', hkeyed', -, hP'⟩ := hsecond
  rw [List.append_nil] at hlog
  refine ⟨seconds, firsts, by rw [hlog', hlog], hlength', hlength, ?_, ?_, ?_⟩
  · exact fun entry hentry => ⟨target, hselect, hkeyed entry hentry⟩
  · exact fun entry hentry => ⟨rfl, hfallback, ⟨fallback, hselect', hkeyed' entry hentry⟩,
      hfailed e rfl hgateway⟩
  · rw [hP', hP, hlog', hlog]
    simp only [true_and, List.forall_mem_append]
    exact and_comm

theorem ensures_chat (req : ChatRequest) :
    Ensures watched (fun s _ _ => Spent platform policy .completion req.provider req.model s)
      ([], True) ()
      (chatUnder platform ctx policy req) := by
  unfold chatUnder
  cases hselect : policy.select req.provider req.model with
  | error e => exact Spent.nothing
  | ok target =>
      refine ensures_attempt_bind (ensures_chatOnce req) ?_
      intro s l outcome hfirst
      cases outcome with
      | ok result => exact hfirst.spent hselect
      | error e =>
          by_cases hfallback : e.isGatewayError ∧ policy.fallbackProvider ≠ none
          · simp only [if_pos hfallback]
            cases hselect' : policy.select policy.fallbackProvider policy.fallbackModel with
            | error e' => exact hfirst.spent hselect
            | ok fallback =>
                refine Ensures.mono ?_ (ensures_chatOnce req)
                intro t l' out hsecond
                exact hfirst.spent_fallback hselect hfallback.1 hfallback.2 hselect' hsecond
          · simp only [if_neg hfallback]
            exact hfirst.spent hselect

theorem ensures_chatStream (req : ChatRequest) :
    Ensures watched (fun s _ _ => Spent platform policy .stream req.provider req.model s)
      ([], True) ()
      (chatStreamUnder platform ctx policy req) := by
  unfold chatStreamUnder
  cases hselect : policy.select req.provider req.model with
  | error e => exact Spent.nothing
  | ok target =>
      cases hkey : apiKey platform.settings policy target.1 with
      | error e =>
          simp only [Proc.ofExcept, Proc.ret_bind, hkey]
          exact Spent.nothing
      | ok key =>
          simp only [Proc.ofExcept, Proc.ret_bind, hkey]
          intro choice
          refine Ensures.mono (Q := Called ⟨.stream, target.1, target.2, key⟩ [] True Unit)
            (fun _ _ _ hcalled => (Called.made hkey hcalled).spent hselect) ?_
          rcases choice with ⟨_, _, stream, _, _, _, _, _⟩
          cases stream with
          | error exc =>
              show Ensures watched _ (⟨⟨.stream, target.1, target.2, key⟩, false, []⟩ :: [],
                True ∧ ∀ exc', (Except.error exc : Except Thrown (List Chunk)) = .error exc' →
                  caughtByStream exc' = true) () (meterStream _ noTokens (.error exc))
              exact ensures_meterStream noTokens rfl rfl (by simp) (by simp)
          | ok chunks =>
              show Ensures watched _ (⟨⟨.stream, target.1, target.2, key⟩, false, []⟩ :: [],
                True ∧ ∀ exc', (Except.ok chunks : Except Thrown (List Chunk)) = .error exc' →
                  caughtByStream exc' = true) ()
                (consume noTokens chunks >>= fun received => meterStream _ received.1 received.2)
              refine ensures_bind (ensures_consume chunks noTokens) ?_ ?_
              · rintro ⟨log, Q⟩ l received ⟨complete, usage, ending, rfl, hout, hcomplete, hQ⟩
                obtain rfl : received = (usage, ending) := by simpa using hout
                exact ensures_meterStream usage rfl rfl hcomplete (by simpa using hQ)
              · rintro s l e ⟨complete, usage, ending, -, hout, -⟩
                cases hout

theorem ensures_embed (req : EmbedRequest) :
    Ensures watched (fun s _ _ => Spent platform policy .embedding req.provider req.model s)
      ([], True) ()
      (embedUnder platform ctx policy req) := by
  unfold embedUnder
  cases hselect : policy.select req.provider req.model with
  | error e => exact Spent.nothing
  | ok target =>
      cases hkey : apiKey platform.settings policy target.1 with
      | error e =>
          simp only [Proc.ofExcept, Proc.ret_bind, hkey]
          exact Spent.nothing
      | ok key =>
          simp only [Proc.ofExcept, Proc.ret_bind, hkey]
          intro choice
          refine Ensures.mono (Q := Called ⟨.embedding, target.1, target.2, key⟩ [] True EmbedResult)
            (fun _ _ _ hcalled => (Called.made hkey hcalled).spent hselect) ?_
          rcases choice with ⟨_, _, _, _, _, answer, _, _⟩
          cases answer with
          | error exc =>
              show Ensures watched _
                (⟨⟨.embedding, target.1, target.2, key⟩, false, []⟩ :: [],
                  True ∧ exc.isException = true) () (meterFailure _ exc)
              exact ensures_meterFailure rfl rfl
          | ok raw =>
              show Ensures watched _
                (⟨⟨.embedding, target.1, target.2, key⟩, true, []⟩ :: [],
                  True ∧ (usageFrom raw.usage).isOk = true) () _
              exact ensures_meterAnswer rfl rfl fun _ => reading_bind_returns _ _

/-- The rest of an entry point, by its operation. -/
def performUnder (platform : Platform) (ctx : TenantContext) (policy : ResolvedPolicy) :
    Operation → Act Unit
  | .chat req => do let _ ← chatUnder platform ctx policy req
  | .chatStream req => chatStreamUnder platform ctx policy req
  | .embed req => do let _ ← embedUnder platform ctx policy req

theorem ensures_performUnder (operation : Operation) :
    Ensures watched
      (fun s _ _ => Spent platform policy operation.kind operation.provider operation.model s)
      ([], True) () (performUnder platform ctx policy operation) := by
  cases operation with
  | chat req => exact ensures_bind (ensures_chat req) (fun _ _ _ h => h) fun _ _ _ h => h
  | chatStream req => exact ensures_chatStream req
  | embed req => exact ensures_bind (ensures_embed req) (fun _ _ _ h => h) fun _ _ _ h => h

theorem perform_some (ctx : TenantContext) (operation : Operation) :
    perform platform (some ctx) operation =
      .call (I := gateway) Request.loadPolicy fun row =>
        settle (policyOf platform ctx row) >>= fun policy =>
          performUnder platform ctx policy operation := by
  cases operation with
  | chat req =>
      refine congrArg (Proc.call (I := gateway) Request.loadPolicy) (funext fun row => ?_)
      show (settle (policyOf platform ctx row) >>= _) >>= _ = _
      cases policyOf platform ctx row <;> rfl
  | chatStream req => rfl
  | embed req =>
      refine congrArg (Proc.call (I := gateway) Request.loadPolicy) (funext fun row => ?_)
      show (settle (policyOf platform ctx row) >>= _) >>= _ = _
      cases policyOf platform ctx row <;> rfl

theorem spent_of_run (platform : Platform) (tenant : Option TenantContext) (operation : Operation)
    (choices : Nat → Await) :
    match policyInForce platform tenant choices with
    | none => callsOf platform tenant operation choices = [] ∧
        EvalMeets serve undisturbed (perform platform tenant operation) [] () choices
    | some policy => Spent platform policy operation.kind operation.provider operation.model
        (callsOf platform tenant operation choices,
          EvalMeets serve undisturbed (perform platform tenant operation) [] () choices) := by
  cases tenant with
  | none => cases operation <;> exact ⟨rfl, trivial⟩
  | some ctx =>
      rw [callsOf, perform_some]
      show match (policyOf platform ctx (choices 0).policyRow).toOption with
        | none => (eval serve (settle (policyOf platform ctx (choices 0).policyRow) >>= _) [] ()
              fun n => choices (n + 1)).1 = [] ∧ True ∧
            EvalMeets serve undisturbed
              (settle (policyOf platform ctx (choices 0).policyRow) >>= _) [] ()
              fun n => choices (n + 1)
        | some policy => Spent platform policy operation.kind operation.provider operation.model
            ((eval serve (settle (policyOf platform ctx (choices 0).policyRow) >>= _) [] ()
              fun n => choices (n + 1)).1,
              True ∧ EvalMeets serve undisturbed
                (settle (policyOf platform ctx (choices 0).policyRow) >>= _) [] ()
                fun n => choices (n + 1))
      cases policyOf platform ctx (choices 0).policyRow with
      | error exc => exact ⟨rfl, trivial, trivial⟩
      | ok policy =>
          rw [true_and]
          exact eval_of_ensures_watch (ensures_performUnder operation) fun n => choices (n + 1)

/-- Every provider call of a run has its one usage event, with the right status,
exactly when no await between the call and the event was disturbed. -/
theorem metered_once_iff_undisturbed (platform : Platform) (tenant : Option TenantContext)
    (operation : Operation) (choices : Nat → Await) :
    (∀ entry ∈ callsOf platform tenant operation choices, MeteredOnce entry) ↔
      EvalMeets serve undisturbed (perform platform tenant operation) [] () choices := by
  have hrun := spent_of_run platform tenant operation choices
  cases hpolicy : policyInForce platform tenant choices with
  | none =>
      simp only [hpolicy] at hrun
      simp [hrun.1, hrun.2]
  | some policy =>
      simp only [hpolicy] at hrun
      obtain ⟨seconds, firsts, -, -, -, -, -, hmetered⟩ := hrun
      exact hmetered.symm

/-- A platform with a Mistral key, and a chat that is cancelled while it awaits
the provider: the call has no usage event. -/
theorem cancelled_chat_is_not_metered :
    ¬ ∀ entry ∈ callsOf ⟨{ mistralApiKey := "sk" }, fun _ => .ok fun _ => none⟩ (some ⟨1, "acme"⟩)
        (.chat {})
        (fun n => if n = 1 then { completion := .error (.interrupt "CancelledError") } else {}),
      MeteredOnce entry := by
  decide +kernel

end Socle.UsageMetering
