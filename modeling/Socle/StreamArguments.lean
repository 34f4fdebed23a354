import Socle.AIGateway

/-!
The keyword arguments that `chat` and `chat_stream` hand to the completion
function.  The two build them apart, field by field, from the same request.
-/

namespace Socle.StreamArguments

open Socle.Procedures Socle.AIGateway

/-! ### Requests with what they carry -/

/-- A value handed to the completion function; `F` are the floats of the
interpreter, and `V` what the source types as `Any`. -/
inductive Value (F V : Type) where
  | none
  | bool (value : Bool)
  | int (value : Int)
  | float (value : F)
  | str (value : String)
  | any (value : V)
  | list (items : List (Value F V))
  | dict (entries : List (String × Value F V))

/-- A dictionary with the keys in the order of their insertion. -/
abbrev Entries (F V : Type) := List (String × Value F V)

variable {F V : Type}

/-- A `dict[str, Any]`. -/
def anyDict (entries : List (String × V)) : Value F V :=
  .dict (entries.map fun entry => (entry.1, .any entry.2))

/-- `if value is not None: data[key] = value`. -/
def entry (key : String) (value : Option (Value F V)) : Entries F V :=
  match value with
  | none => []
  | some value => [(key, value)]

structure Message (V : Type) where
  role : String
  content : Option String := none
  name : Option String := none
  toolCallId : Option String := none
  toolCalls : Option (List (List (String × V))) := none

/-- `Message.to_provider_dict`. -/
def Message.toProviderDict (message : Message V) : Value F V :=
  .dict ([("role", .str message.role), ("content", (message.content.map .str).getD .none)] ++
    entry "name" (message.name.map .str) ++
    entry "tool_call_id" (message.toolCallId.map .str) ++
    entry "tool_calls" (message.toolCalls.map fun calls => .list (calls.map anyDict)))

structure ToolDef (V : Type) where
  name : String
  description : String := ""
  parameters : List (String × V) := []

/-- `ToolDef.to_provider_dict`. -/
def ToolDef.toProviderDict (tool : ToolDef V) : Value F V :=
  .dict [("type", .str "function"),
    ("function", .dict [("name", .str tool.name), ("description", .str tool.description),
      ("parameters", anyDict tool.parameters)])]

/-- `ChatRequest` with the fields that only the provider reads. -/
structure ChatRequest (F V : Type) extends AIGateway.ChatRequest where
  messages : List (Message V)
  temperature : Option F := none
  maxTokens : Option Int := none
  tools : Option (List (ToolDef V)) := none

/-- `kwargs` of `_chat_once`. -/
def chatArguments (call : ProviderCall) (req : ChatRequest F V) : Entries F V :=
  [("model", .str call.modelString),
      ("messages", .list (req.messages.map Message.toProviderDict)),
      ("api_key", .str call.apiKey)] ++
    entry "temperature" (req.temperature.map .float) ++
    entry "max_tokens" (req.maxTokens.map .int) ++
    entry "tools" (req.tools.map fun tools => .list (tools.map ToolDef.toProviderDict))

/-- What a stream asks for in addition. -/
def streaming : Entries F V :=
  [("stream", .bool true), ("stream_options", .dict [("include_usage", .bool true)])]

/-- `kwargs` of `chat_stream`. -/
def streamArguments (call : ProviderCall) (req : ChatRequest F V) : Entries F V :=
  [("model", .str call.modelString),
      ("messages", .list (req.messages.map Message.toProviderDict)),
      ("api_key", .str call.apiKey),
      ("stream", .bool true),
      ("stream_options", .dict [("include_usage", .bool true)])] ++
    entry "temperature" (req.temperature.map .float) ++
    entry "max_tokens" (req.maxTokens.map .int)

/-- `streamed` are the arguments `first` plus exactly `stream` and `stream_options`. -/
structure Streams (first streamed : Entries F V) : Prop where
  fresh : ∀ key ∈ streaming.map (fun entry : String × Value F V => entry.1),
    first.lookup key = none
  added : ∀ key, streamed.lookup key = (streaming ++ first).lookup key

theorem lookup_entry (key : String) (value : Option (Value F V)) :
    (entry key value).lookup key = value := by
  cases value with
  | none => rfl
  | some value => simp [entry]

theorem lookup_entry_of_ne {key key' : String} (hne : key ≠ key') (value : Option (Value F V)) :
    (entry key' value).lookup key = none := by
  cases value with
  | none => rfl
  | some value => rw [entry, List.lookup_cons, beq_eq_false_iff_ne.mpr hne, List.lookup_nil]

theorem lookup_streaming {key : String} (hne : key ≠ "stream") (hne' : key ≠ "stream_options") :
    (streaming : Entries F V).lookup key = none := by
  rw [streaming, List.lookup_cons, List.lookup_cons, beq_eq_false_iff_ne.mpr hne,
    beq_eq_false_iff_ne.mpr hne', List.lookup_nil]

theorem lookup_chatArguments (call : ProviderCall) (req : ChatRequest F V) {key : String}
    (hkey : key = "stream" ∨ key = "stream_options") :
    (chatArguments call req).lookup key = none := by
  rcases hkey with rfl | rfl <;>
    simp only [chatArguments, List.lookup_append, lookup_entry_of_ne _, Option.or_none, ne_eq,
      String.reduceEq, not_false_eq_true] <;>
    rfl

theorem lookup_inserted {key : String} {before added after : Entries F V}
    (hfresh : added.lookup key = none ∨ before.lookup key = none) :
    (before ++ added ++ after).lookup key = (added ++ (before ++ after)).lookup key := by
  simp only [List.lookup_append]
  rcases hfresh with hnone | hnone
  · rw [hnone, Option.or_none, Option.none_or]
  · rw [hnone, Option.none_or, Option.none_or]

/-- The two dictionaries of one call differ by `stream` and `stream_options`
exactly when the request has no tools. -/
theorem streams_iff {first streamed : ProviderCall} (req : ChatRequest F V)
    (hmodel : streamed.modelString = first.modelString) (hkey : streamed.apiKey = first.apiKey) :
    Streams (chatArguments first req) (streamArguments streamed req) ↔ req.tools = none := by
  constructor
  · intro h
    have htools := h.added "tools"
    simp only [streamArguments, chatArguments, streaming, List.lookup_append, lookup_entry,
      lookup_entry_of_ne (show "tools" ≠ "temperature" by decide),
      lookup_entry_of_ne (show "tools" ≠ "max_tokens" by decide)] at htools
    simpa [List.lookup_cons] using htools.symm
  · intro htools
    refine ⟨fun key hmem => lookup_chatArguments first req (by simpa [streaming] using hmem), ?_⟩
    intro key
    have hstream : streamArguments streamed req =
        [("model", .str first.modelString),
            ("messages", .list (req.messages.map Message.toProviderDict)),
            ("api_key", .str first.apiKey)] ++ streaming ++
          (entry "temperature" (req.temperature.map .float) ++
            entry "max_tokens" (req.maxTokens.map .int)) := by
      simp only [streamArguments, streaming, hmodel, hkey, List.append_assoc]
      rfl
    rw [hstream, lookup_inserted, chatArguments, htools, Option.map_none, entry, List.append_nil,
      List.append_assoc]
    by_cases hname : key = "stream" ∨ key = "stream_options"
    · right
      rcases hname with rfl | rfl <;> rfl
    · left
      rw [not_or] at hname
      exact lookup_streaming hname.1 hname.2

/-- `chat` without its `except` clause, once the policy is loaded. -/
def firstAttemptUnder (platform : Platform) (ctx : TenantContext) (policy : ResolvedPolicy)
    (req : AIGateway.ChatRequest) : Act ChatResult := do
  let target ← Proc.ofExcept (policy.select req.provider req.model)
  chatOnce platform ctx policy target.1 target.2 req

/-- The first attempt of `chat`. -/
def firstAttempt (platform : Platform) (tenant : Option TenantContext)
    (req : AIGateway.ChatRequest) : Act ChatResult := do
  let ctx ← Proc.ofExcept (currentTenant tenant)
  let policy ← loadPolicy platform ctx
  firstAttemptUnder platform ctx policy req

/-- The call an entry point prepares once its policy is loaded, or what it
raises before it makes one. -/
def preparedUnder (platform : Platform) (policy : ResolvedPolicy) (kind : CallKind)
    (req : AIGateway.ChatRequest) : Except Raised ProviderCall := do
  let target ← policy.select req.provider req.model
  let key ← apiKey platform.settings policy target.1
  return ⟨kind, target.1, target.2, key⟩

/-- The call an entry point prepares under the policy row it reads. -/
def prepared (platform : Platform) (tenant : Option TenantContext)
    (row : Except Thrown (Option TenantAIPolicy)) (kind : CallKind)
    (req : AIGateway.ChatRequest) : Except Raised ProviderCall := do
  let ctx ← currentTenant tenant
  let policy ← (policyOf platform ctx row).mapError Raised.thrown
  preparedUnder platform policy kind req

/-- The first provider call of a run, if it makes one. -/
def firstCall {α : Type} (p : Act α) (choices : Nat → Await) : Option ProviderCall :=
  (eval serve p [] () choices).1.getLast?.map fun made => made.call

/-- The run raises `e` and has made no provider call. -/
def FailsBefore {α : Type} (p : Act α) (choices : Nat → Await) (e : Raised) : Prop :=
  (eval serve p [] () choices).1 = [] ∧ (eval serve p [] () choices).2.2 = .error e

/-- `chat_stream` sends the same request as `chat`. -/
structure SameRequest (platform : Platform) (tenant : Option TenantContext)
    (req : ChatRequest F V) (choices choices' : Nat → Await) : Prop where
  /-- Both reach the provider or none, and with matching arguments. -/
  reached : (firstCall (firstAttempt platform tenant req.toChatRequest) choices).isSome =
    (firstCall (chatStream platform tenant req.toChatRequest) choices').isSome
  arguments : ∀ first ∈ firstCall (firstAttempt platform tenant req.toChatRequest) choices,
    ∀ streamed ∈ firstCall (chatStream platform tenant req.toChatRequest) choices',
      Streams (chatArguments first req) (streamArguments streamed req)
  failures : (∀ policy ∈ policyInForce platform tenant choices, policy.fallbackProvider = none) →
    ∀ e, FailsBefore (chat platform tenant req.toChatRequest) choices e ↔
      FailsBefore (chatStream platform tenant req.toChatRequest) choices' e

variable {platform : Platform} {tenant : Option TenantContext} {choices choices' : Nat → Await}

theorem serve_keeps_first {log : CallLog} {call : ProviderCall}
    (h : log.getLast?.map (fun made => made.call) = some call) (request : Request)
    (choice : Await) :
    (serve log () request choice).1.getLast?.map (fun made => made.call) = some call := by
  cases log with
  | nil => cases h
  | cons made rest =>
      have hpush : ∀ entry : CallEntry,
          (entry :: made :: rest).getLast?.map (fun made => made.call) = some call := by
        intro entry
        rw [List.getLast?_cons_cons]
        exact h
      have hhead : ∀ entry : CallEntry, entry.call = made.call →
          (entry :: rest).getLast?.map (fun made => made.call) = some call := by
        intro entry hcall
        cases rest with
        | nil =>
            rw [← h]
            exact congrArg some hcall
        | cons made' rest =>
            rw [List.getLast?_cons_cons] at h ⊢
            exact h
      cases request with
      | loadPolicy => exact h
      | complete call => exact hpush _
      | openStream call => exact hpush _
      | endOfStream =>
          simp only [serve]
          split
          · exact hhead _ rfl
          · exact h
      | yieldChunk delta => exact h
      | embedding call => exact hpush _
      | insertUsage row =>
          simp only [serve]
          split
          · exact hhead _ rfl
          · exact h
      | recordAndAlert addedTokens quota => exact h

theorem eval_keeps_first {α : Type} (p : Act α) {log : CallLog} {call : ProviderCall}
    (h : log.getLast?.map (fun made => made.call) = some call) (choices : Nat → Await) :
    (eval serve p log () choices).1.getLast?.map (fun made => made.call) = some call := by
  induction p generalizing log choices with
  | ret a => exact h
  | raise e => exact h
  | call request next ih => exact ih _ (serve_keeps_first h request (choices 0)) _

theorem attempt_rethrow {α : Type} (p : Act α) {handler : Except Raised α → Act α}
    (hok : ∀ a, handler (.ok a) = .ret a) (herror : ∀ e, handler (.error e) = .raise e) :
    p.attempt >>= handler = p := by
  induction p with
  | ret a => exact hok a
  | raise e => exact herror e
  | call request next ih => exact congrArg (Proc.call request) (funext ih)

/-- A run that makes the call prepared first, or raises what the preparation raised. -/
def Follows {α : Type} (p : Act α) (choices : Nat → Await) :
    Except Raised ProviderCall → Prop
  | .ok call => firstCall p choices = some call
  | .error e => (eval serve p [] () choices) = ([], (), .error e)

theorem follows_call {α : Type} {call : ProviderCall} {request : Request}
    {next : gateway.Answer request → Act α}
    (hmade : ∀ choice,
      (serve [] () request choice).1.getLast?.map (fun made => made.call) = some call) :
    Follows (.call (I := gateway) request next) choices (.ok call) :=
  eval_keeps_first _ (hmade (choices 0)) _

theorem firstAttemptUnder_follows {ctx : TenantContext} {policy : ResolvedPolicy}
    (req : AIGateway.ChatRequest) :
    Follows (firstAttemptUnder platform ctx policy req) choices
      (preparedUnder platform policy .completion req) := by
  unfold firstAttemptUnder preparedUnder
  cases policy.select req.provider req.model with
  | error e => rfl
  | ok target =>
      show Follows (chatOnce platform ctx policy target.1 target.2 req) choices
        (apiKey platform.settings policy target.1 >>= _)
      unfold chatOnce
      cases apiKey platform.settings policy target.1 with
      | error e => rfl
      | ok key => exact follows_call fun _ => rfl

theorem chatStreamUnder_follows {ctx : TenantContext} {policy : ResolvedPolicy}
    (req : AIGateway.ChatRequest) :
    Follows (chatStreamUnder platform ctx policy req) choices
      (preparedUnder platform policy .stream req) := by
  unfold chatStreamUnder preparedUnder
  cases policy.select req.provider req.model with
  | error e => rfl
  | ok target =>
      show Follows (Proc.ofExcept (apiKey platform.settings policy target.1) >>= _) choices
        (apiKey platform.settings policy target.1 >>= _)
      cases apiKey platform.settings policy target.1 with
      | error e => rfl
      | ok key => exact follows_call fun _ => rfl

theorem chatUnder_of_no_fallback {ctx : TenantContext} {policy : ResolvedPolicy}
    (req : AIGateway.ChatRequest) (hfallback : policy.fallbackProvider = none) :
    chatUnder platform ctx policy req = firstAttemptUnder platform ctx policy req := by
  unfold chatUnder firstAttemptUnder
  cases policy.select req.provider req.model with
  | error e => rfl
  | ok target =>
      simp only [Proc.ofExcept, Proc.ret_bind, hfallback, ne_eq, not_true_eq_false, and_false,
        if_false]
      exact attempt_rethrow _ (fun _ => rfl) fun _ => rfl

theorem follows_of_under {α : Type} {f : TenantContext → ResolvedPolicy → Act α}
    {kind : CallKind} {req : AIGateway.ChatRequest}
    (hunder : ∀ ctx policy later, tenant = some ctx →
      policyOf platform ctx (choices 0).policyRow = .ok policy →
        Follows (f ctx policy) later (preparedUnder platform policy kind req)) :
    Follows
      (do
        let ctx ← Proc.ofExcept (currentTenant tenant)
        let policy ← loadPolicy platform ctx
        f ctx policy)
      choices (prepared platform tenant (choices 0).policyRow kind req) := by
  cases tenant with
  | none => rfl
  | some ctx =>
      have hnext : ∀ plan, Follows (settle (policyOf platform ctx (choices 0).policyRow) >>= f ctx)
          (fun n => choices (n + 1)) plan →
          Follows (loadPolicy platform ctx >>= f ctx) choices plan := by
        intro plan hfollows
        cases plan with
        | ok call => exact hfollows
        | error e => exact hfollows
      refine hnext _ ?_
      show Follows _ _ ((policyOf platform ctx (choices 0).policyRow).mapError Raised.thrown >>= _)
      cases hpolicy : policyOf platform ctx (choices 0).policyRow with
      | error exc => rfl
      | ok policy => exact hunder ctx policy _ rfl hpolicy

theorem firstAttempt_follows (req : AIGateway.ChatRequest) :
    Follows (firstAttempt platform tenant req) choices
      (prepared platform tenant (choices 0).policyRow .completion req) :=
  follows_of_under fun _ _ _ _ _ => firstAttemptUnder_follows req

theorem chatStream_follows (req : AIGateway.ChatRequest) :
    Follows (chatStream platform tenant req) choices
      (prepared platform tenant (choices 0).policyRow .stream req) :=
  follows_of_under fun _ _ _ _ _ => chatStreamUnder_follows req

theorem chat_follows (req : AIGateway.ChatRequest)
    (hfallback : ∀ policy ∈ policyInForce platform tenant choices, policy.fallbackProvider = none) :
    Follows (chat platform tenant req) choices
      (prepared platform tenant (choices 0).policyRow .completion req) := by
  refine follows_of_under fun ctx policy later htenant hpolicy => ?_
  rw [chatUnder_of_no_fallback req (hfallback policy (by
    simp [policyInForce, htenant, hpolicy, Except.toOption]))]
  exact firstAttemptUnder_follows req

theorem prepared_kind (row : Except Thrown (Option TenantAIPolicy)) (kind kind' : CallKind)
    (req : AIGateway.ChatRequest) :
    prepared platform tenant row kind' req =
      (prepared platform tenant row kind req).map fun call => { call with kind := kind' } := by
  unfold prepared preparedUnder
  cases currentTenant tenant with
  | error e => rfl
  | ok ctx =>
      show ((policyOf platform ctx row).mapError Raised.thrown >>= _) =
        ((policyOf platform ctx row).mapError Raised.thrown >>= _).map _
      cases policyOf platform ctx row with
      | error exc => rfl
      | ok policy =>
          show (policy.select req.provider req.model >>= _) =
            (policy.select req.provider req.model >>= _).map _
          cases policy.select req.provider req.model with
          | error e => rfl
          | ok target =>
              show (apiKey platform.settings policy target.1 >>= _) =
                (apiKey platform.settings policy target.1 >>= _).map _
              cases apiKey platform.settings policy target.1 <;> rfl

theorem Follows.firstCall_eq {α : Type} {p : Act α} {plan : Except Raised ProviderCall}
    (h : Follows p choices plan) : firstCall p choices = plan.toOption := by
  cases plan with
  | ok call => exact h
  | error e =>
      unfold firstCall
      rw [show eval serve p [] () choices = _ from h]
      rfl

theorem Follows.failsBefore_iff {α : Type} {p : Act α} {plan : Except Raised ProviderCall}
    (h : Follows p choices plan) (e : Raised) : FailsBefore p choices e ↔ plan = .error e := by
  cases plan with
  | ok call =>
      refine ⟨fun hfails => ?_, fun hplan => by cases hplan⟩
      have hcall : firstCall p choices = some call := h
      rw [firstCall, hfails.1] at hcall
      cases hcall
  | error e' =>
      unfold FailsBefore
      rw [show eval serve p [] () choices = _ from h]
      simp

/-- For every request, policy and key configuration, `chat_stream` sends the
request of `chat` exactly when the request has no tools, or is refused before any
provider call. -/
theorem stream_sends_chat_request_iff (req : ChatRequest F V)
    (hrow : (choices 0).policyRow = (choices' 0).policyRow) :
    SameRequest platform tenant req choices choices' ↔
      req.tools = none ∨ ∃ e, prepared platform tenant (choices 0).policyRow .completion
        req.toChatRequest = .error e := by
  have hfirst := @firstAttempt_follows platform tenant choices req.toChatRequest
  have hstream := @chatStream_follows platform tenant choices' req.toChatRequest
  rw [← hrow, prepared_kind _ .completion] at hstream
  have hchat := @chat_follows platform tenant choices req.toChatRequest
  cases hplan : prepared platform tenant (choices 0).policyRow .completion req.toChatRequest with
  | error e =>
      refine iff_of_true ⟨?_, ?_, ?_⟩ (.inr ⟨e, rfl⟩)
      · rw [hfirst.firstCall_eq, hstream.firstCall_eq, hplan]
        rfl
      · rw [hfirst.firstCall_eq, hplan]
        rintro first ⟨⟩
      · intro hfallback e'
        rw [(hchat hfallback).failsBefore_iff, hstream.failsBefore_iff, hplan]
        exact Iff.rfl
  | ok call =>
      have hstreamed : firstCall (chatStream platform tenant req.toChatRequest) choices' =
          some { call with kind := .stream } := by
        rw [hstream.firstCall_eq, hplan]
        rfl
      have hmade : firstCall (firstAttempt platform tenant req.toChatRequest) choices =
          some call := by
        rw [hfirst.firstCall_eq, hplan]
        rfl
      have hargs := @streams_iff _ _ call { call with kind := .stream } req rfl rfl
      constructor
      · intro h
        exact .inl (hargs.mp (h.arguments _ hmade _ hstreamed))
      · rintro (htools | ⟨e, he⟩)
        · refine ⟨by rw [hmade, hstreamed]; rfl, ?_, ?_⟩
          · intro first hfirst' streamed hstreamed'
            rw [hmade, Option.mem_some_iff] at hfirst'
            rw [hstreamed, Option.mem_some_iff] at hstreamed'
            subst hfirst' hstreamed'
            exact hargs.mpr htools
          · intro hfallback e
            rw [(hchat hfallback).failsBefore_iff, hstream.failsBefore_iff, hplan]
            exact Iff.intro (fun h => by cases h) fun h => by cases h
        · cases he

/-- A platform with a Mistral key, without tenant keys. -/
def mistralOnly : Platform := ⟨{ mistralApiKey := "sk" }, fun _ => .ok fun _ => none⟩

/-- A request with this list of tools. -/
def asking (tools : Option (List (ToolDef Unit))) : ChatRequest Nat Unit where
  messages := [{ role := "user", content := some "Hello" }]
  tools := tools

theorem plain_request_is_the_same :
    SameRequest mistralOnly (some ⟨1, "acme"⟩) (asking none) (fun _ => {}) fun _ => {} :=
  (stream_sends_chat_request_iff (asking none) rfl).mpr (.inl rfl)

/-- The tools of a streamed request never reach the provider. -/
theorem stream_drops_tools :
    ¬ SameRequest mistralOnly (some ⟨1, "acme"⟩) (asking (some [{ name := "lookup" }]))
        (fun _ => {}) fun _ => {} := by
  intro h
  have hstreams := h.arguments ⟨.completion, "mistral", "mistral-small-latest", "sk"⟩
    (by decide +kernel) ⟨.stream, "mistral", "mistral-small-latest", "sk"⟩ (by decide +kernel)
  cases (streams_iff _ rfl rfl).mp hstreams

end Socle.StreamArguments
